import BgtDvb.Saa7231Ts2dtl

/-!
# The DMA page table of a buffer

`saa7231_dmabuf_sgpagefill` writes the pages of a mapped scatterlist into a table of 512 entries of two words.  The
mapping may have joined pages into segments; what it returns is a list of segments with a DMA address and a length.

* `sgpagefill_eq` — **PROVED**: without offsets the two loops are one over the pages of the buffer;
* `sgpagefill_isSome_iff` — **PROVED**: it stops in a `BUG_ON` exactly at a page of address 0 or off a page boundary;
* `sgpagefill_table` — **PROVED**: otherwise entry by entry the table is that of the pages, then of the last page;
* `dmabufAlloc_table` — **PROVED**: so for the buffers of `saa7231_dmabuf_alloc`, whatever is joined.
-/

namespace BgtDvb.Saa7231

/-! ### The table -/

/-- An entry of a mapped scatterlist. -/
structure SgMapped extends SgEntry where
  dmaAddress : BitVec 64
  dmaLen : ℕ
  deriving Repr, DecidableEq

def addrLsb (addr : BitVec 64) : BitVec 32 := addr.setWidth 32

def addrMsb (addr : BitVec 64) : BitVec 32 := (addr >>> 32).setWidth 32

/-- `SAA7231_PAGE_SIZE / 8` -/
def ptEntries : ℕ := pageSize / 8

def writeEntry (page : ℕ → BitVec 32) (k : ℕ) (addr : BitVec 64) : ℕ → BitVec 32 :=
  Function.update (Function.update page (k * 2 + 0) (addrLsb addr)) (k * 2 + 1) (addrMsb addr)

def HoldsAddr (page : ℕ → BitVec 32) (k : ℕ) (addr : BitVec 64) : Prop :=
  page (k * 2 + 0) = addrLsb addr ∧ page (k * 2 + 1) = addrMsb addr

theorem holdsAddr_writeEntry (page : ℕ → BitVec 32) (k : ℕ) (addr : BitVec 64) :
    HoldsAddr (writeEntry page k addr) k addr := by
  refine ⟨?_, Function.update_self _ _ _⟩
  rw [writeEntry, Function.update_of_ne (by omega), Function.update_self]

theorem writeEntry_of_ne (page : ℕ → BitVec 32) {k m : ℕ} (addr : BitVec 64) (h : m / 2 ≠ k) :
    writeEntry page k addr m = page m := by
  rw [writeEntry, Function.update_of_ne (by omega), Function.update_of_ne (by omega)]

theorem HoldsAddr.writeEntry {page : ℕ → BitVec 32} {j k : ℕ} {a : BitVec 64} (h : HoldsAddr page j a) (hjk : j ≠ k)
    (addr : BitVec 64) : HoldsAddr (writeEntry page k addr) j a :=
  ⟨(writeEntry_of_ne page addr (by omega)).trans h.1, (writeEntry_of_ne page addr (by omega)).trans h.2⟩

/-! ### The loops -/

/-- The table memory, the cursor, the address written last, and what is left of the offset. -/
structure Fill where
  page : ℕ → BitVec 32
  k : ℕ
  addr : BitVec 64
  offset : ℤ

/-- The writes of one page, between its two `BUG_ON`s; `none` is a `BUG`. -/
def fillEntry (s : Fill) (addr : BitVec 64) : Option Fill :=
  if addr = 0 then none
  else
    let page := writeEntry s.page s.k addr
    if (page (s.k * 2)).toNat % pageSize ≠ 0 then none
    else some { s with page := page, k := s.k + 1, addr := addr }

/-- A round of the inner loop; the comparison is one of unsigned numbers. -/
def fillPage (sg : SgMapped) (s : Fill) (j : ℕ) : Option Fill :=
  if (s.offset + sg.offset) % 2 ^ 32 ≥ (pageSize : ℤ) then some { s with offset := s.offset - pageSize }
  else fillEntry s (sg.dmaAddress + BitVec.ofNat 64 (j * pageSize) - BitVec.ofNat 64 sg.offset)

def sgRounds (sg : SgMapped) : ℕ := (sg.dmaLen + (pageSize - 1)) / pageSize

def fillSegment (s : Fill) (sg : SgMapped) : Option Fill := (List.range (sgRounds sg)).foldlM (fillPage sg) s

def fillNext (s : Fill) (sg : SgMapped) : Option Fill := if sg.offset ≠ 0 then none else fillSegment s sg

/-- The loop that fills the table up, for so many entries from the cursor on. -/
def fillRest (addr : BitVec 64) : ℕ → ℕ → (ℕ → BitVec 32) → ℕ → BitVec 32
  | 0, _, page => page
  | n + 1, k, page => fillRest addr n (k + 1) (writeEntry page k addr)

/-- `saa7231_dmabuf_sgpagefill`: the offset of the buffer and the table. -/
def saa7231DmabufSgpagefill (page : ℕ → BitVec 32) (offset : ℤ) : List SgMapped → Option (ℕ × (ℕ → BitVec 32))
  | [] => none
  | sg :: sgs => do
    let s ← fillSegment ⟨page, 0, 0, offset⟩ sg
    let s ← sgs.foldlM fillNext s
    pure (dmabufOffset sg.toSgEntry, fillRest s.addr (ptEntries - s.k) s.k s.page)

/-! ### One loop over the pages -/

def SgMapped.pages (sg : SgMapped) : List (BitVec 64) :=
  (List.range (sg.dmaLen / pageSize)).map fun j => sg.dmaAddress + BitVec.ofNat 64 (j * pageSize)

/-- The addresses of the pages of a mapped buffer, in their order. -/
def mappedPages (sgs : List SgMapped) : List (BitVec 64) := sgs.flatMap SgMapped.pages

/-- A segment of whole pages, as it is mapped for the driver. -/
structure SgMapped.Whole (sg : SgMapped) : Prop where
  offset_eq : sg.offset = 0
  pos : 0 < sg.dmaLen
  dvd : sg.dmaLen % pageSize = 0

variable {s s' : Fill} {addrs : List (BitVec 64)} {sg : SgMapped} {sgs : List SgMapped} {orig : ℕ → BitVec 32}
    {pages : ℕ}

theorem fillEntry_offset {addr : BitVec 64} (h : fillEntry s addr = some s') : s'.offset = s.offset := by
  unfold fillEntry at h
  split at h
  · exact absurd h (Option.some_ne_none _).symm
  · dsimp only at h
    split at h
    · exact absurd h (Option.some_ne_none _).symm
    · rw [← Option.some.inj h]

theorem foldlM_fillEntry_offset (h : addrs.foldlM fillEntry s = some s') : s'.offset = s.offset := by
  induction addrs generalizing s with
  | nil => rw [← Option.some.inj h]
  | cons addr addrs ih =>
    rw [List.foldlM_cons] at h
    obtain ⟨t, ht, hrest⟩ := Option.bind_eq_some_iff.mp h
    rw [ih hrest, fillEntry_offset ht]

theorem fillPage_eq (hsg : sg.offset = 0) (hs : s.offset = 0) (j : ℕ) :
    fillPage sg s j = fillEntry s (sg.dmaAddress + BitVec.ofNat 64 (j * pageSize)) := by
  rw [fillPage, hsg, hs, if_neg (by decide)]
  exact congrArg (fillEntry s) (BitVec.sub_zero _)

theorem fillPages_eq (hsg : sg.offset = 0) (js : List ℕ) (hs : s.offset = 0) :
    js.foldlM (fillPage sg) s =
      (js.map fun j => sg.dmaAddress + BitVec.ofNat 64 (j * pageSize)).foldlM fillEntry s := by
  induction js generalizing s with
  | nil => rfl
  | cons j js ih =>
    rw [List.map_cons, List.foldlM_cons, List.foldlM_cons, fillPage_eq hsg hs]
    cases hentry : fillEntry s (sg.dmaAddress + BitVec.ofNat 64 (j * pageSize)) with
    | none => rfl
    | some t => exact ih ((fillEntry_offset hentry).trans hs)

theorem fillSegment_eq (hsg : sg.Whole) (hs : s.offset = 0) : fillSegment s sg = sg.pages.foldlM fillEntry s := by
  have hrounds : sgRounds sg = sg.dmaLen / pageSize := by
    have hdvd := hsg.dvd
    unfold sgRounds pageSize at *
    omega
  rw [fillSegment, hrounds, fillPages_eq hsg.offset_eq _ hs]
  rfl

theorem fillNexts_eq (hsgs : ∀ sg ∈ sgs, sg.Whole) (hs : s.offset = 0) :
    sgs.foldlM fillNext s = (mappedPages sgs).foldlM fillEntry s := by
  induction sgs generalizing s with
  | nil => rfl
  | cons sg sgs ih =>
    have hsg := hsgs sg List.mem_cons_self
    have hrest : mappedPages (sg :: sgs) = sg.pages ++ mappedPages sgs := List.flatMap_cons
    rw [hrest, List.foldlM_cons, List.foldlM_append, fillNext, if_neg (not_not.mpr hsg.offset_eq), fillSegment_eq hsg hs]
    cases hseg : sg.pages.foldlM fillEntry s with
    | none => rfl
    | some t => exact ih (fun x hx => hsgs x (List.mem_cons_of_mem _ hx)) ((foldlM_fillEntry_offset hseg).trans hs)

theorem sgpagefill_eq (page : ℕ → BitVec 32) (hsgs : ∀ x ∈ sg :: sgs, x.Whole) :
    saa7231DmabufSgpagefill page 0 (sg :: sgs) =
      ((mappedPages (sg :: sgs)).foldlM fillEntry ⟨page, 0, 0, 0⟩).map fun s =>
        (dmabufOffset sg.toSgEntry, fillRest s.addr (ptEntries - s.k) s.k s.page) := by
  have hsg := hsgs sg List.mem_cons_self
  have hrest : mappedPages (sg :: sgs) = sg.pages ++ mappedPages sgs := List.flatMap_cons
  rw [saa7231DmabufSgpagefill, hrest, List.foldlM_append, fillSegment_eq hsg rfl]
  cases hseg : sg.pages.foldlM fillEntry ⟨page, 0, 0, 0⟩ with
  | none => rfl
  | some t =>
    show (sgs.foldlM fillNext t >>= _) = Option.map _ ((mappedPages sgs).foldlM fillEntry t)
    rw [fillNexts_eq (fun x hx => hsgs x (List.mem_cons_of_mem _ hx)) (foldlM_fillEntry_offset hseg)]
    cases (mappedPages sgs).foldlM fillEntry t with
    | none => rfl
    | some u => rfl

/-! ### What the table holds -/

/-- An address that no `BUG_ON` stops: that of a page, and not 0. -/
def PageAddr (addr : BitVec 64) : Prop := addr ≠ 0 ∧ addr.toNat % pageSize = 0

instance (addr : BitVec 64) : Decidable (PageAddr addr) := inferInstanceAs (Decidable (_ ∧ _))

theorem addrLsb_mod (addr : BitVec 64) : (addrLsb addr).toNat % pageSize = addr.toNat % pageSize := by
  rw [addrLsb, BitVec.toNat_setWidth]
  exact Nat.mod_mod_of_dvd _ (by decide)

theorem fillEntry_eq (s : Fill) (addr : BitVec 64) : fillEntry s addr =
    if PageAddr addr then some { s with page := writeEntry s.page s.k addr, k := s.k + 1, addr := addr } else none := by
  have hlsb : writeEntry s.page s.k addr (s.k * 2) = addrLsb addr := (holdsAddr_writeEntry s.page s.k addr).1
  unfold fillEntry
  dsimp only
  rw [hlsb, addrLsb_mod]
  by_cases hzero : addr = 0
  · rw [if_pos hzero, if_neg fun h => h.1 hzero]
  · rw [if_neg hzero]
    by_cases hmod : addr.toNat % pageSize = 0
    · rw [if_neg (not_not.mpr hmod), if_pos ⟨hzero, hmod⟩]
    · rw [if_pos hmod, if_neg fun h => hmod h.2]

theorem foldlM_fillEntry_isSome (addrs : List (BitVec 64)) (s : Fill) :
    (addrs.foldlM fillEntry s).isSome = true ↔ ∀ addr ∈ addrs, PageAddr addr := by
  induction addrs generalizing s with
  | nil => exact iff_of_true rfl fun addr haddr => absurd haddr List.not_mem_nil
  | cons addr addrs ih =>
    rw [List.foldlM_cons, fillEntry_eq, List.forall_mem_cons]
    by_cases haddr : PageAddr addr
    · rw [if_pos haddr, and_iff_right haddr]
      exact ih _
    · rw [if_neg haddr]
      exact iff_of_false Bool.false_ne_true fun h => haddr h.1

/-- The table after some pages, in memory that was `orig`. -/
structure Filled (orig : ℕ → BitVec 32) (addrs : List (BitVec 64)) (s : Fill) : Prop where
  k_eq : s.k = addrs.length
  addr_eq : s.addr = addrs.getLastD 0
  holds : ∀ (k : ℕ) (h : k < addrs.length), HoldsAddr s.page k addrs[k]
  outside : ∀ m, addrs.length ≤ m / 2 → s.page m = orig m

theorem Filled.entry {addr : BitVec 64} (h : Filled orig addrs s) (hs : fillEntry s addr = some s') :
    Filled orig (addrs ++ [addr]) s' := by
  rw [fillEntry_eq] at hs
  split at hs
  · rw [← Option.some.inj hs]
    refine ⟨?_, ?_, fun k hk => ?_, fun m hm => ?_⟩
    · rw [List.length_append, ← h.k_eq]
      rfl
    · rw [List.getLastD_concat]
    · show HoldsAddr (writeEntry s.page s.k addr) k (addrs ++ [addr])[k]
      rw [List.length_append, List.length_singleton] at hk
      rcases Nat.lt_succ_iff_lt_or_eq.mp hk with hlt | rfl
      · rw [List.getElem_append_left hlt]
        exact (h.holds k hlt).writeEntry (by rw [h.k_eq]; omega) addr
      · rw [List.getElem_concat_length rfl, h.k_eq]
        exact holdsAddr_writeEntry s.page _ addr
    · rw [List.length_append, List.length_singleton] at hm
      show writeEntry s.page s.k addr m = orig m
      rw [writeEntry_of_ne _ _ (by rw [h.k_eq]; omega)]
      exact h.outside m (by omega)
  · exact absurd hs (Option.some_ne_none _).symm

theorem Filled.entries {done : List (BitVec 64)} (h : Filled orig done s) (hs : addrs.foldlM fillEntry s = some s') :
    Filled orig (done ++ addrs) s' := by
  induction addrs generalizing done s with
  | nil =>
    rw [List.append_nil, ← Option.some.inj hs]
    exact h
  | cons addr addrs ih =>
    rw [List.foldlM_cons] at hs
    obtain ⟨t, ht, hrest⟩ := Option.bind_eq_some_iff.mp hs
    rw [List.append_cons]
    exact ih (h.entry ht) hrest

theorem fillRest_holds (addr : BitVec 64) (n k : ℕ) (page : ℕ → BitVec 32) {j : ℕ} (hk : k ≤ j) (hj : j < k + n) :
    HoldsAddr (fillRest addr n k page) j addr := by
  have hkeep : ∀ (n k : ℕ) (page : ℕ → BitVec 32), j < k → HoldsAddr page j addr →
      HoldsAddr (fillRest addr n k page) j addr := by
    intro n
    induction n with
    | zero => exact fun k page hk h => h
    | succ n ih => exact fun k page hk h => ih (k + 1) _ (by omega) (h.writeEntry (by omega) addr)
  induction n generalizing k page with
  | zero => omega
  | succ n ih =>
    rcases Nat.eq_or_lt_of_le hk with rfl | hlt
    · exact hkeep n (k + 1) _ (by omega) (holdsAddr_writeEntry page k addr)
    · exact ih (k + 1) _ hlt (by omega)

theorem fillRest_other (addr : BitVec 64) (n k : ℕ) (page : ℕ → BitVec 32) {m : ℕ} (hm : m / 2 < k ∨ k + n ≤ m / 2) :
    fillRest addr n k page m = page m := by
  induction n generalizing k page with
  | zero => rfl
  | succ n ih =>
    rw [fillRest, ih (k + 1) _ (by omega)]
    exact writeEntry_of_ne page addr (by omega)

/-- The whole table of a buffer. -/
structure TableOf (orig page : ℕ → BitVec 32) (addrs : List (BitVec 64)) : Prop where
  pages : ∀ (k : ℕ) (h : k < addrs.length), HoldsAddr page k addrs[k]
  last : ∀ k, addrs.length ≤ k → k < ptEntries → HoldsAddr page k (addrs.getLastD 0)
  outside : ∀ m, ptEntries * 2 ≤ m → page m = orig m

theorem Filled.table (h : Filled orig addrs s) (hlen : addrs.length ≤ ptEntries) :
    TableOf orig (fillRest s.addr (ptEntries - s.k) s.k s.page) addrs := by
  rw [h.k_eq, h.addr_eq]
  refine ⟨fun k hk => ?_, fun k hk hlt => ?_, fun m hm => ?_⟩
  · have hholds := h.holds k hk
    refine ⟨?_, ?_⟩
    · rw [fillRest_other _ _ _ _ (Or.inl (by omega))]
      exact hholds.1
    · rw [fillRest_other _ _ _ _ (Or.inl (by omega))]
      exact hholds.2
  · exact fillRest_holds _ _ _ _ hk (by omega)
  · rw [fillRest_other _ _ _ _ (Or.inr (by omega))]
    exact h.outside m (by omega)

/-- **PROVED**: the code gets through exactly if no page is at address 0 or off a page boundary. -/
theorem sgpagefill_isSome_iff (page : ℕ → BitVec 32) (hsgs : ∀ sg ∈ sgs, sg.Whole)
    (hpos : 1 ≤ (mappedPages sgs).length) :
    (saa7231DmabufSgpagefill page 0 sgs).isSome = true ↔ ∀ addr ∈ mappedPages sgs, PageAddr addr := by
  cases sgs with
  | nil => exact absurd hpos (by decide)
  | cons sg sgs =>
    rw [sgpagefill_eq page hsgs, Option.isSome_map]
    exact foldlM_fillEntry_isSome _ _

theorem sgpagefill_tableOf {page : ℕ → BitVec 32} {r : ℕ × (ℕ → BitVec 32)} (hsgs : ∀ x ∈ sg :: sgs, x.Whole)
    (hlen : (mappedPages (sg :: sgs)).length ≤ ptEntries) (hr : saa7231DmabufSgpagefill page 0 (sg :: sgs) = some r) :
    r.1 = dmabufOffset sg.toSgEntry ∧ TableOf page r.2 (mappedPages (sg :: sgs)) := by
  rw [sgpagefill_eq page hsgs] at hr
  obtain ⟨s, hs, rfl⟩ := Option.map_eq_some_iff.mp hr
  have hstart : Filled page [] ⟨page, 0, 0, 0⟩ :=
    ⟨rfl, rfl, fun k hk => absurd hk (Nat.not_lt_zero k), fun m _ => rfl⟩
  exact ⟨rfl, (hstart.entries hs).table hlen⟩

/-- **PROVED**: for every mapped scatterlist of at most 512 pages, at page addresses other than 0, the table holds the
pages in their order, then the last page, and nothing else is written. -/
theorem sgpagefill_table (page : ℕ → BitVec 32) {sgs : List SgMapped} (hsgs : ∀ sg ∈ sgs, sg.Whole)
    (hpos : 1 ≤ (mappedPages sgs).length) (hlen : (mappedPages sgs).length ≤ 512)
    (haddr : ∀ addr ∈ mappedPages sgs, PageAddr addr) :
    ∃ r, saa7231DmabufSgpagefill page 0 sgs = some r ∧ TableOf page r.2 (mappedPages sgs) := by
  obtain ⟨r, hr⟩ := Option.isSome_iff_exists.mp ((sgpagefill_isSome_iff page hsgs hpos).mpr haddr)
  cases sgs with
  | nil => exact absurd hpos (by decide)
  | cons sg sgs => exact ⟨r, hr, (sgpagefill_tableOf hsgs hlen hr).2⟩

/-- Two segments of two pages and one, the second beyond 4 GiB. -/
def threePages : List SgMapped := [⟨⟨4096, 0⟩, 0x10000, 8192⟩, ⟨⟨4096, 0⟩, 0x100000000, 4096⟩]

theorem sgpagefill_table_three : ∃ r, saa7231DmabufSgpagefill (fun _ => 0) 0 threePages = some r ∧
    TableOf (fun _ => 0) r.2 (mappedPages threePages) := by
  have hpages : mappedPages threePages = [0x10000#64, 0x11000#64, 0x100000000#64] := by
    simp [mappedPages, threePages, SgMapped.pages, pageSize, List.range_succ]
  refine sgpagefill_table (fun _ => 0) ?_ (by simp [hpages]) (by simp [hpages]) (by simp [hpages, PageAddr, pageSize])
  intro sg hsg
  rcases List.mem_pair.mp hsg with rfl | rfl
  · exact ⟨rfl, by decide, rfl⟩
  · exact ⟨rfl, by decide, rfl⟩

/-- A page that is mapped to address 0 is refused by `BUG_ON(!addr)`. -/
theorem not_sgpagefill_table : ¬∀ (page : ℕ → BitVec 32) (sgs : List SgMapped), (∀ sg ∈ sgs, sg.Whole) →
    1 ≤ (mappedPages sgs).length → (mappedPages sgs).length ≤ 512 →
    ∃ r, saa7231DmabufSgpagefill page 0 sgs = some r ∧ TableOf page r.2 (mappedPages sgs) := by
  intro hall
  have hwhole : ∀ sg ∈ [(⟨⟨4096, 0⟩, 0, 4096⟩ : SgMapped)], sg.Whole := by
    intro sg hsg
    rw [List.mem_singleton.mp hsg]
    exact ⟨rfl, by decide, rfl⟩
  have hpages : mappedPages [⟨⟨4096, 0⟩, 0, 4096⟩] = [0#64] := by simp [mappedPages, SgMapped.pages, pageSize]
  have hone : (mappedPages [⟨⟨4096, 0⟩, 0, 4096⟩]).length = 1 := congrArg List.length hpages
  obtain ⟨r, hr, -⟩ := hall (fun _ => 0) _ hwhole (by omega) (by omega)
  have hsome := (sgpagefill_isSome_iff (fun _ => 0) hwhole (by omega)).mp (Option.isSome_iff_exists.mpr ⟨r, hr⟩)
  rw [hpages] at hsome
  exact (hsome 0 List.mem_cons_self).1 rfl

/-! ### The buffers of the driver -/

/-- What `dma_map_sg` makes of a number of pages: segments of whole pages, as many bytes as there were, in at most as many
entries. -/
structure DmaMapping (pages : ℕ) where
  segments : List (BitVec 64 × ℕ)
  length_le : segments.length ≤ pages
  whole : ∀ x ∈ segments, 0 < x.2 ∧ x.2 % pageSize = 0
  total : (segments.map Prod.snd).sum = pages * pageSize

/-- The scatterlist of `saa7231_dmabuf_sgalloc`, with the first entries filled in by `dma_map_sg`. -/
def mapSg {pages : ℕ} (m : DmaMapping pages) : List SgMapped :=
  m.segments.zipWith (fun x sg => ⟨sg, x.1, x.2⟩) (List.replicate pages sgSetPage)

theorem mapSg_eq (m : DmaMapping pages) : mapSg m = m.segments.map fun x => ⟨sgSetPage, x.1, x.2⟩ := by
  have hzip : ∀ (xs : List (BitVec 64 × ℕ)) (n : ℕ), xs.length ≤ n →
      xs.zipWith (fun x sg => (⟨sg, x.1, x.2⟩ : SgMapped)) (List.replicate n sgSetPage) =
        xs.map fun x => ⟨sgSetPage, x.1, x.2⟩ := by
    intro xs
    induction xs with
    | nil => exact fun n _ => List.zipWith_nil_left
    | cons x xs ih =>
      intro n hn
      cases n with
      | zero => exact absurd hn (Nat.not_succ_le_zero _)
      | succ n =>
        rw [List.replicate_succ, List.zipWith_cons_cons, List.map_cons, ih n (Nat.le_of_succ_le_succ hn)]
  exact hzip m.segments pages m.length_le

theorem mapSg_whole (m : DmaMapping pages) : ∀ sg ∈ mapSg m, sg.Whole := by
  rw [mapSg_eq]
  intro sg hsg
  obtain ⟨x, hx, rfl⟩ := List.mem_map.mp hsg
  exact ⟨rfl, (m.whole x hx).1, (m.whole x hx).2⟩

theorem length_mappedPages (xs : List (BitVec 64 × ℕ)) (h : ∀ x ∈ xs, x.2 % pageSize = 0) :
    (mappedPages (xs.map fun x => ⟨sgSetPage, x.1, x.2⟩)).length * pageSize = (xs.map Prod.snd).sum := by
  induction xs with
  | nil => rfl
  | cons x xs ih =>
    have hx := h x List.mem_cons_self
    have hrest := ih fun y hy => h y (List.mem_cons_of_mem _ hy)
    rw [List.map_cons, List.map_cons, List.sum_cons, ← hrest, mappedPages, List.flatMap_cons, List.length_append,
      Nat.add_mul, SgMapped.pages, List.length_map, List.length_range]
    exact congrArg (· + _) (Nat.div_mul_cancel (Nat.dvd_of_mod_eq_zero hx))

/-- **PROVED**: a buffer of `saa7231_dmabuf_alloc` has as many pages in its table as it was asked for, for every mapping. -/
theorem dmabufAlloc_table (page : ℕ → BitVec 32) (m : DmaMapping pages) (hpos : 1 ≤ pages) (hle : pages ≤ 512)
    (haddr : ∀ addr ∈ mappedPages (mapSg m), PageAddr addr) :
    (mappedPages (mapSg m)).length = pages ∧
      ∃ r, saa7231DmabufSgpagefill page 0 (mapSg m) = some r ∧ r.1 = 0 ∧ TableOf page r.2 (mappedPages (mapSg m)) := by
  have hlen : (mappedPages (mapSg m)).length = pages := by
    have hmul := length_mappedPages m.segments fun x hx => (m.whole x hx).2
    rw [m.total, ← mapSg_eq] at hmul
    exact Nat.eq_of_mul_eq_mul_right (by decide) hmul
  refine ⟨hlen, ?_⟩
  obtain ⟨r, hr⟩ := Option.isSome_iff_exists.mp ((sgpagefill_isSome_iff page (mapSg_whole m) (by omega)).mpr haddr)
  cases hsgs : mapSg m with
  | nil =>
    rw [hsgs] at hlen
    exact absurd hlen (by simp only [mappedPages, List.flatMap_nil, List.length_nil]; omega)
  | cons sg sgs =>
    have hwhole := mapSg_whole m
    rw [hsgs] at hwhole hlen hr
    obtain ⟨hoffset, htable⟩ := sgpagefill_tableOf hwhole (hlen.trans_le hle) hr
    refine ⟨r, hr, hoffset.trans ?_, htable⟩
    have hsg : sg ∈ mapSg m := by
      rw [hsgs]
      exact List.mem_cons_self
    rw [mapSg_eq] at hsg
    obtain ⟨x, -, rfl⟩ := List.mem_map.mp hsg
    exact (by decide : dmabufOffset sgSetPage = 0)

/-- Three pages from 0x1000 on and two above 4 GB, each joined into one segment. -/
def joinedMapping : DmaMapping 5 := ⟨[(0x1000, 12288), (0x120000000, 8192)], by decide, by decide, by decide⟩

theorem dmabufAlloc_table_joined :
    mappedPages (mapSg joinedMapping) = [0x1000, 0x2000, 0x3000, 0x120000000, 0x120001000] ∧
    ∃ r, saa7231DmabufSgpagefill (fun _ => 0) 0 (mapSg joinedMapping) = some r ∧ r.1 = 0 ∧
      TableOf (fun _ => 0) r.2 (mappedPages (mapSg joinedMapping)) := by
  have hpages : mappedPages (mapSg joinedMapping) = [0x1000, 0x2000, 0x3000, 0x120000000, 0x120001000] := by
    simp [mapSg, joinedMapping, mappedPages, SgMapped.pages, pageSize, List.range_succ]
  have haddr : ∀ addr ∈ mappedPages (mapSg joinedMapping), PageAddr addr := by
    simp only [hpages, List.forall_mem_cons]
    exact ⟨by decide, by decide, by decide, by decide, by decide, fun _ hno => absurd hno List.not_mem_nil⟩
  exact ⟨hpages, (dmabufAlloc_table _ joinedMapping (by decide) (by decide) haddr).2⟩

end BgtDvb.Saa7231
