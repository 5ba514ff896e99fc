import BgtDvb.AlevtLang

/-!
# The accesses of enhancements

`enhance` of alevt looks up characters in four tables and strings, at places that come from received words. Here the
same functions fail where they reach outside of an array.

* `addEnhances_spec`, `enhanceIn_eq` — **PROVED**: what is kept of the packets, and when an access fails;
* `Addressed`, `enhances_frame` — **PROVED**: the cells that triplets change;
* `enhanced_iff` — **PROVED**: everything stays inside exactly if no such triplet is used.
-/

namespace BgtDvb.Alevt

/-! ### Accesses that are checked -/

def charAt (s : List UInt8) (i : ℤ) : Option UInt8 := if 0 ≤ i then (s ++ [0])[i.toNat]? else none

/-- `add_enhance`; `trip` has 13 * 16 places. -/
def addEnhanceIn (eh : Enhance) (dcode : ℕ) (t : List ℕ) : Option Enhance :=
  if (dcode : ℤ) = eh.nextDes then
    if dcode * 13 + 13 ≤ 13 * 16 then some (addEnhance eh dcode t) else none
  else some { eh with nextDes := -1 }

/-- A character of the G2 set. -/
def g2CharIn (env : LangEnv) (data : ℕ) : Option (Option UInt8) :=
  if env.latin1 = LATIN1 then (charAt g2mapLatin1 ((data : ℤ) - 32)).map some
  else if env.latin1 = LATIN2 then (charAt g2mapLatin2 ((data : ℤ) - 32)).map some
  else some none

/-- A character of the G0 set with a mark. -/
def markedCharIn (env : LangEnv) (mark : List UInt8 × List UInt8 × List UInt8) (data : ℕ) : Option UInt8 :=
  match strchr mark.1 (UInt8.ofNat data) with
  | none => some (UInt8.ofNat data)
  | some x =>
    if env.latin1 = LATIN1 then charAt mark.2.1 x
    else if env.latin1 = LATIN2 then charAt mark.2.2 x
    else some (UInt8.ofNat data)

/-- `vtp->data[row][adr] = c` -/
def VtPage.setCellIn (vtp : VtPage) (row adr : ℕ) (c : UInt8) : Option VtPage :=
  if row < 25 ∧ adr < 40 then some (vtp.setCell row adr c) else none

def enhanceTripletIn (env : LangEnv) (st : ℕ × VtPage) (t : ℕ) : Option (ℕ × VtPage) :=
  if t % 2048 = 2047 then some st
  else
    let adr := t % 64
    let mode := t / 64 % 32
    let data := t / 2048 % 128
    if adr < 40 then
      if mode = 15 then
        if adr < 40 ∧ st.1 < 25 then
          (g2CharIn env data).bind fun g2 =>
            match g2 with
            | some c => (st.2.setCellIn st.1 adr c).map fun vtp => (st.1, vtp)
            | none => some st
        else some st
      else if 16 ≤ mode then
        if adr < 40 ∧ st.1 < 25 then
          (marks[mode - 16]?).bind fun mark => (markedCharIn env mark data).bind fun c =>
            (st.2.setCellIn st.1 adr c).map fun vtp => (st.1, vtp)
        else some st
      else some st
    else
      let adr := if adr - 40 = 0 then 24 else adr - 40
      if mode = 1 ∨ mode = 4 then some (adr, st.2)
      else if mode = 7 ∧ adr = 23 then some (0, st.2)
      else some st

/-- The triplets that `enhance` looks at. -/
def Enhance.tripIn (eh : Enhance) (i : ℕ) : Option ℕ := if i < 13 * 16 then some (eh.trip i) else none

/-- `enhance` -/
def enhanceIn (env : LangEnv) (eh : Enhance) (vtp : VtPage) : Option VtPage :=
  if eh.nextDes < 1 then some vtp
  else
    ((List.range (eh.nextDes.toNat * 13)).foldlM
      (fun st i => (eh.tripIn i).bind fun t => enhanceTripletIn env st t) (0, vtp)).map Prod.snd

/-! ### One triplet -/

def rowAfter (row t : ℕ) : ℕ :=
  if t % 2048 = 2047 ∨ t % 64 < 40 then row
  else
    let adr := if t % 64 - 40 = 0 then 24 else t % 64 - 40
    if t / 64 % 32 = 1 ∨ t / 64 % 32 = 4 then adr else if t / 64 % 32 = 7 ∧ adr = 23 then 0 else row

/-- A character of the G2 set in front of the table. -/
def Beyond (env : LangEnv) (t : ℕ) : Prop :=
  t % 64 < 40 ∧ t / 64 % 32 = 15 ∧ t / 2048 % 128 < 32 ∧ (env.latin1 = LATIN1 ∨ env.latin1 = LATIN2)

instance (env : LangEnv) (t : ℕ) : Decidable (Beyond env t) := inferInstanceAs (Decidable (_ ∧ _ ∧ _ ∧ (_ ∨ _)))

section Triplet

variable {env : LangEnv} {st : ℕ × VtPage} {t : ℕ}

theorem charAt_inside {i : ℕ} (hi : i ≤ s.length) : charAt s i = some (s.getD i 0) := by
  unfold charAt
  rw [if_pos (Int.natCast_nonneg i), Int.toNat_natCast, List.getD_eq_getElem?_getD]
  rcases Nat.lt_or_eq_of_le hi with hlt | rfl
  · rw [List.getElem?_append_left hlt, List.getElem?_eq_getElem hlt]
    rfl
  · rw [List.getElem?_append_right le_rfl, Nat.sub_self, List.getElem?_eq_none le_rfl]
    rfl

theorem charAt_before {i : ℤ} (hi : i < 0) : charAt s i = none := if_neg (by omega)

theorem strchr_le {c : UInt8} (h : strchr s c = some x) : x ≤ s.length := by
  unfold strchr at h
  obtain ⟨hlt, -⟩ := List.findIdx?_eq_some_iff_getElem.mp h
  rw [List.length_append] at hlt
  exact Nat.le_of_lt_succ hlt

theorem marks_length : ∀ mark ∈ marks, mark.2.1.length = mark.1.length ∧ mark.2.2.length = mark.1.length := by decide

theorem g2map_length : g2mapLatin1.length = 96 ∧ g2mapLatin2.length = 96 := ⟨rfl, rfl⟩

theorem g2CharIn_eq {data : ℕ} (hdata : data < 128) : g2CharIn env data =
    if data < 32 ∧ (env.latin1 = LATIN1 ∨ env.latin1 = LATIN2) then none else some (g2Char env data) := by
  obtain ⟨hfirst, hsecond⟩ := g2map_length
  have hchar : ∀ s : List UInt8, s.length = 96 →
      charAt s ((data : ℤ) - 32) = if data < 32 then none else some (s.getD (data - 32) 0) := by
    intro s hs
    split
    next hlow => exact charAt_before (by omega)
    next hhigh =>
      have hcast : (data : ℤ) - 32 = (data - 32 : ℕ) := by omega
      rw [hcast]
      exact charAt_inside (by omega)
  unfold g2CharIn g2Char
  by_cases h1 : env.latin1 = LATIN1
  · rw [if_pos h1, if_pos h1, hchar _ hfirst]
    by_cases hlow : data < 32
    · rw [if_pos hlow, if_pos ⟨hlow, Or.inl h1⟩]
      rfl
    · rw [if_neg hlow, if_neg fun hno => hlow hno.1, if_neg hlow]
      rfl
  · rw [if_neg h1, if_neg h1]
    by_cases h2 : env.latin1 = LATIN2
    · rw [if_pos h2, if_pos h2, hchar _ hsecond]
      by_cases hlow : data < 32
      · rw [if_pos hlow, if_pos ⟨hlow, Or.inr h2⟩]
        rfl
      · rw [if_neg hlow, if_neg fun hno => hlow hno.1, if_neg hlow]
        rfl
    · rw [if_neg h2, if_neg h2, if_neg fun hno => hno.2.elim h1 h2]

theorem markedCharIn_eq {mark : List UInt8 × List UInt8 × List UInt8} (hmark : mark ∈ marks) (data : ℕ) :
    markedCharIn env mark data = some (markedChar env mark data) := by
  obtain ⟨hfirst, hsecond⟩ := marks_length mark hmark
  unfold markedCharIn markedChar
  cases hx : strchr mark.1 (UInt8.ofNat data) with
  | none => rfl
  | some x =>
    have hle : x ≤ mark.1.length := strchr_le hx
    dsimp only
    rw [charAt_inside (hfirst ▸ hle), charAt_inside (hsecond ▸ hle)]
    split
    · rfl
    · split
      · rfl
      · rfl

/-- **One triplet**: an access fails exactly if it looks in front of a G2 table. -/
theorem enhanceTripletIn_eq (hrow : st.1 < 25) :
    enhanceTripletIn env st t = if Beyond env t then none else some (enhanceTriplet env st t) := by
  unfold enhanceTripletIn enhanceTriplet
  by_cases hskip : t % 2048 = 2047
  · have hcol : ¬Beyond env t := fun hno => absurd hno.1 (by omega)
    rw [if_pos hskip, if_pos hskip, if_neg hcol]
  · rw [if_neg hskip, if_neg hskip]
    dsimp only
    by_cases hcol : t % 64 < 40
    · have hin : t % 64 < 40 ∧ st.1 < 25 := ⟨hcol, hrow⟩
      have hset : ∀ c, st.2.setCellIn st.1 (t % 64) c = some (st.2.setCell st.1 (t % 64) c) :=
        fun c => if_pos ⟨hrow, hcol⟩
      rw [if_pos hcol, if_pos hcol]
      by_cases hmode : t / 64 % 32 = 15
      · rw [if_pos hmode, if_pos hmode, if_pos hin, g2CharIn_eq (Nat.mod_lt _ (by decide))]
        by_cases hlow : t / 2048 % 128 < 32 ∧ (env.latin1 = LATIN1 ∨ env.latin1 = LATIN2)
        · have hbeyond : Beyond env t := ⟨hcol, hmode, hlow⟩
          rw [if_pos hlow, if_pos hbeyond]
          rfl
        · have hbeyond : ¬Beyond env t := fun hno => hlow hno.2.2
          rw [if_neg hlow, if_neg hbeyond, Option.bind_some]
          cases g2Char env (t / 2048 % 128) with
          | none => rfl
          | some c =>
            dsimp only
            rw [hset, Option.map_some]
      · have hbeyond : ¬Beyond env t := fun hno => hmode hno.2.1
        rw [if_neg hmode, if_neg hmode, if_neg hbeyond]
        by_cases hmark : 16 ≤ t / 64 % 32
        · have hlen : marks.length = 16 := rfl
          have hlt : t / 64 % 32 - 16 < marks.length := by omega
          rw [if_pos hmark, if_pos hmark, if_pos hin, List.getElem?_eq_getElem hlt, Option.bind_some,
            List.getD_eq_getElem _ _ hlt, markedCharIn_eq (List.getElem_mem hlt), Option.bind_some, hset,
            Option.map_some]
        · rw [if_neg hmark, if_neg hmark]
    · have hbeyond : ¬Beyond env t := fun hno => hcol hno.1
      rw [if_neg hcol, if_neg hcol, if_neg hbeyond]
      generalize (if t % 64 - 40 = 0 then 24 else t % 64 - 40) = adr
      split
      · rfl
      · split
        · rfl
        · rfl

theorem enhanceTriplet_row : (enhanceTriplet env st t).1 = rowAfter st.1 t := by
  unfold enhanceTriplet rowAfter
  by_cases hskip : t % 2048 = 2047
  · rw [if_pos hskip, if_pos (Or.inl hskip)]
  · rw [if_neg hskip]
    dsimp only
    by_cases hcol : t % 64 < 40
    · rw [if_pos hcol, if_pos (Or.inr hcol)]
      split
      · cases g2Char env (t / 2048 % 128) with
        | none => rfl
        | some c => rfl
      · split
        · rfl
        · rfl
    · have hrow : ¬(t % 2048 = 2047 ∨ t % 64 < 40) := fun hno => hno.elim hskip hcol
      rw [if_neg hcol, if_neg hrow]
      generalize (if t % 64 - 40 = 0 then 24 else t % 64 - 40) = adr
      split
      · rfl
      · split
        · rfl
        · rfl

theorem rowAfter_lt {row : ℕ} (hrow : row < 25) : rowAfter row t < 25 := by
  unfold rowAfter
  dsimp only
  have hadr : (if t % 64 - 40 = 0 then 24 else t % 64 - 40) < 25 := by
    have hmod : t % 64 < 64 := Nat.mod_lt t (by decide)
    split
    · decide
    · omega
  generalize (if t % 64 - 40 = 0 then 24 else t % 64 - 40) = adr at hadr
  split
  · exact hrow
  · split
    · exact hadr
    · split
      · decide
      · exact hrow

theorem enhanceTriplet_frame (h : (enhanceTriplet env st t).2.data l c ≠ st.2.data l c) :
    l.val = st.1 ∧ c.val = t % 64 := by
  by_contra hno
  apply h
  have hset : ∀ ch, (st.2.setCell st.1 (t % 64) ch).data l c = st.2.data l c := fun ch => if_neg hno
  unfold enhanceTriplet
  split
  · rfl
  · dsimp only
    split
    · split
      · cases g2Char env (t / 2048 % 128) with
        | none => rfl
        | some ch => exact hset ch
      · split
        · exact hset _
        · rfl
    · generalize (if t % 64 - 40 = 0 then 24 else t % 64 - 40) = adr
      split
      · rfl
      · split
        · rfl
        · rfl

end Triplet

/-! ### Triplets one after another -/

/-- The cell in a row and column is addressed by one of the triplets, which begin with some row. -/
def Addressed (row : ℕ) (ts : List ℕ) (l : Fin 25) (c : Fin 40) : Prop :=
  ∃ before t after, ts = before ++ t :: after ∧ l.val = before.foldl rowAfter row ∧ c.val = t % 64

section Triplets

variable {env : LangEnv}

theorem foldlM_triplets {st : ℕ × VtPage} (hrow : st.1 < 25) (ts : List ℕ) :
    ts.foldlM (enhanceTripletIn env) st =
      if ∃ t ∈ ts, Beyond env t then none else some (ts.foldl (enhanceTriplet env) st) := by
  induction ts generalizing st with
  | nil =>
    rw [if_neg fun hno => absurd hno.choose_spec.1 List.not_mem_nil]
    rfl
  | cons t ts ih =>
    have hrow' : (enhanceTriplet env st t).1 < 25 := by
      rw [enhanceTriplet_row]
      exact rowAfter_lt hrow
    rw [List.foldlM_cons, enhanceTripletIn_eq hrow]
    by_cases ht : Beyond env t
    · rw [if_pos ht, if_pos ⟨t, List.mem_cons_self, ht⟩]
      rfl
    · rw [if_neg ht]
      show ts.foldlM (enhanceTripletIn env) (enhanceTriplet env st t) = _
      rw [ih hrow']
      refine if_congr ?_ rfl rfl
      rw [List.exists_mem_cons_iff, or_iff_right ht]

theorem enhances_frame (ts : List ℕ) (st : ℕ × VtPage) {l : Fin 25} {c : Fin 40}
    (h : (ts.foldl (enhanceTriplet env) st).2.data l c ≠ st.2.data l c) : Addressed st.1 ts l c := by
  induction ts generalizing st with
  | nil => exact absurd rfl h
  | cons t ts ih =>
    by_cases hsame : (enhanceTriplet env st t).2.data l c = st.2.data l c
    · rw [List.foldl_cons, ← hsame] at h
      obtain ⟨before, u, after, hts, hrow, hcol⟩ := ih _ h
      refine ⟨t :: before, u, after, ?_, ?_, hcol⟩
      · rw [hts, List.cons_append]
      · rw [List.foldl_cons, ← @enhanceTriplet_row env]
        exact hrow
    · obtain ⟨hrow, hcol⟩ := enhanceTriplet_frame hsame
      exact ⟨[], t, ts, rfl, hrow, hcol⟩

end Triplets

/-! ### What is received -/

/-- A packet 26 as it is received: a designation code of four bits and 13 triplets. -/
structure Packet26 where
  dcode : ℕ
  trip : List ℕ
  dcode_lt : dcode < 16
  trip_length : trip.length = 13

/-- The packets of a page came with designation codes 0, 1, 2, ... -/
def Gapless (packets : List Packet26) : Prop := packets.map Packet26.dcode = List.range packets.length

instance (packets : List Packet26) : Decidable (Gapless packets) := inferInstanceAs (Decidable (_ = _))

def triplets (packets : List Packet26) : List ℕ := if Gapless packets then packets.flatMap Packet26.trip else []

/-- `add_enhance` for packets one after another. -/
def addEnhances (eh : Enhance) (packets : List Packet26) : Option Enhance :=
  packets.foldlM (fun eh p => addEnhanceIn eh p.dcode p.trip) eh

/-- The triplets that `enhance` looks at. -/
def Enhance.used (eh : Enhance) : List ℕ := (List.range (eh.nextDes.toNat * 13)).map eh.trip

section Packets

variable {packets : List Packet26} {eh : Enhance}

theorem gapless_append {p : Packet26} : Gapless (packets ++ [p]) ↔ Gapless packets ∧ p.dcode = packets.length := by
  unfold Gapless
  rw [List.map_append, List.length_append, List.length_singleton, List.range_succ]
  constructor
  · intro h
    obtain ⟨hfront, hlast⟩ := List.append_inj' h rfl
    exact ⟨hfront, List.singleton_inj.mp hlast⟩
  · intro h
    rw [h.1, List.map_singleton, h.2]

/-- What is kept of some packets. -/
structure Keeps (eh : Enhance) (packets : List Packet26) : Prop where
  next : eh.nextDes = if Gapless packets then (packets.length : ℤ) else -1
  trip : Gapless packets → (List.range (packets.length * 13)).map eh.trip = packets.flatMap Packet26.trip

theorem Keeps.add {eh : Enhance} {packets : List Packet26} (h : Keeps eh packets) (p : Packet26) :
    ∃ eh', addEnhanceIn eh p.dcode p.trip = some eh' ∧ Keeps eh' (packets ++ [p]) := by
  unfold addEnhanceIn
  by_cases hnext : (p.dcode : ℤ) = eh.nextDes
  · -- the packet that was expected
    have hgapless : Gapless packets := by
      by_contra hno
      rw [h.next, if_neg hno] at hnext
      omega
    have hcode : p.dcode = packets.length := by
      rw [h.next, if_pos hgapless] at hnext
      exact Int.ofNat_inj.mp hnext
    have hdcode := p.dcode_lt
    have htrip := p.trip_length
    have hall : Gapless (packets ++ [p]) := gapless_append.mpr ⟨hgapless, hcode⟩
    rw [if_pos hnext, if_pos (by omega)]
    refine ⟨_, rfl, ?_, ?_⟩
    · unfold addEnhance
      rw [if_pos hnext, if_pos hall, List.length_append, List.length_singleton, h.next, if_pos hgapless]
      push_cast
      rfl
    · intro _
      unfold addEnhance
      rw [if_pos hnext, List.flatMap_append, List.length_append, List.length_singleton, Nat.succ_mul,
        List.range_add, List.map_append, List.map_map, ← h.trip hgapless]
      congr 1
      · apply List.map_congr_left
        intro i hi
        have hlt : i < packets.length * 13 := List.mem_range.mp hi
        exact if_neg (by omega)
      · rw [List.flatMap_singleton]
        apply List.ext_getElem
        · simp [htrip]
        · intro i hi hi'
          rw [List.getElem_map, List.getElem_range, Function.comp_apply]
          show (if _ then _ else _) = _
          rw [if_pos (by omega), hcode, Nat.add_sub_cancel_left, List.getD_eq_getElem _ _ hi']
  · have hgap : ¬Gapless (packets ++ [p]) := by
      intro hno
      obtain ⟨hgapless, hcode⟩ := gapless_append.mp hno
      rw [h.next, if_pos hgapless, hcode] at hnext
      exact hnext rfl
    rw [if_neg hnext]
    refine ⟨_, rfl, ?_, ?_⟩
    · rw [if_neg hgap]
    · intro hno
      exact absurd hno hgap

/-- **What is kept of the packets**: every store is inside of the array. -/
theorem addEnhances_spec (eh : Enhance) (packets : List Packet26) :
    ∃ eh', addEnhances (initEnhance eh) packets = some eh' ∧ Keeps eh' packets := by
  induction packets using List.reverseRecOn with
  | nil => exact ⟨initEnhance eh, rfl, rfl, fun _ => rfl⟩
  | append_singleton packets p ih =>
    obtain ⟨eh₁, hrun, hkeeps⟩ := ih
    obtain ⟨eh', hadd, hkeeps'⟩ := hkeeps.add p
    refine ⟨eh', ?_, hkeeps'⟩
    unfold addEnhances at hrun ⊢
    rw [List.foldlM_append, hrun]
    show (addEnhanceIn eh₁ p.dcode p.trip).bind _ = some eh'
    rw [hadd]
    rfl

theorem Keeps.length_le (h : Keeps eh packets) : eh.nextDes ≤ 16 := by
  rw [h.next]
  split
  next hgapless =>
    by_contra hno
    have hmem : 16 ∈ packets.map Packet26.dcode := by
      rw [hgapless]
      exact List.mem_range.mpr (by omega)
    obtain ⟨p, -, hp⟩ := List.mem_map.mp hmem
    have hlt := p.dcode_lt
    omega
  · omega

theorem Keeps.used_eq (h : Keeps eh packets) : eh.used = triplets packets := by
  unfold Enhance.used triplets
  rw [h.next]
  split
  next hgapless => exact h.trip hgapless
  · rfl

theorem foldlM_trip {env : LangEnv} {is : List ℕ} (his : ∀ i ∈ is, i < 13 * 16) (st : ℕ × VtPage) :
    is.foldlM (fun st i => (eh.tripIn i).bind fun t => enhanceTripletIn env st t) st =
      (is.map eh.trip).foldlM (enhanceTripletIn env) st := by
  induction is generalizing st with
  | nil => rfl
  | cons i is ih =>
    have hi : eh.tripIn i = some (eh.trip i) := if_pos (his i List.mem_cons_self)
    rw [List.map_cons, List.foldlM_cons, List.foldlM_cons, hi, Option.bind_some]
    congr 1
    funext st'
    exact ih (fun j hj => his j (List.mem_cons_of_mem i hj)) st'

theorem enhanceIn_eq {env : LangEnv} {eh : Enhance} (hle : eh.nextDes ≤ 16) (vtp : VtPage) : enhanceIn env eh vtp =
    if ∃ t ∈ eh.used, Beyond env t then none else some (eh.used.foldl (enhanceTriplet env) (0, vtp)).2 := by
  unfold enhanceIn
  by_cases hnone : eh.nextDes < 1
  · have hused : eh.used = [] := by
      unfold Enhance.used
      rw [Int.toNat_of_nonpos (by omega)]
      rfl
    rw [if_pos hnone, hused, if_neg fun hno => absurd hno.choose_spec.1 List.not_mem_nil]
    rfl
  · have hin : ∀ i ∈ List.range (eh.nextDes.toNat * 13), i < 13 * 16 := by
      intro i hi
      have hlt := List.mem_range.mp hi
      omega
    rw [if_neg hnone, foldlM_trip hin]
    show (eh.used.foldlM (enhanceTripletIn env) (0, vtp)).map Prod.snd = _
    rw [foldlM_triplets (Nat.zero_lt_succ 24 : (0, vtp).1 < 25)]
    split
    · rfl
    · rfl

end Packets

/-- What is received of a page is kept inside of the array, and changes the addressed cells of the page and nothing else,
with accesses that are inside. -/
structure Enhanced (env : LangEnv) (eh : Enhance) (packets : List Packet26) (vtp : VtPage) : Prop where
  kept : ∃ eh', addEnhances (initEnhance eh) packets = some eh' ∧ eh'.used = triplets packets ∧
    ∃ data, enhanceIn env eh' vtp = some (vtp.withData data) ∧ enhance env eh' vtp = vtp.withData data ∧
      ∀ l c, data l c ≠ vtp.data l c → Addressed 0 (triplets packets) l c

theorem Enhanced.not_beyond {env : LangEnv} {eh : Enhance} {packets : List Packet26} {vtp : VtPage}
    (h : Enhanced env eh packets vtp) : ∀ t ∈ triplets packets, ¬Beyond env t := by
  intro t ht hbeyond
  obtain ⟨eh', hrun, hkeeps⟩ := addEnhances_spec eh packets
  obtain ⟨eh₁, hrun₁, hused, data, hdata, -⟩ := h.kept
  obtain rfl : eh' = eh₁ := Option.some.inj (hrun.symm.trans hrun₁)
  rw [enhanceIn_eq hkeeps.length_le, if_pos ⟨t, hused ▸ ht, hbeyond⟩] at hdata
  cases hdata

/-- **PROVED**: all of that, for any packets and any font, exactly if in a font with G2 tables no triplet that is used
puts a character of the G2 set with a code below 32. -/
theorem enhanced_iff (env : LangEnv) (eh : Enhance) (packets : List Packet26) (vtp : VtPage) :
    Enhanced env eh packets vtp ↔ ∀ t ∈ triplets packets, ¬Beyond env t := by
  constructor
  · exact Enhanced.not_beyond
  · intro h
    obtain ⟨eh', hrun, hkeeps⟩ := addEnhances_spec eh packets
    have hused := hkeeps.used_eq
    have hin := @enhanceIn_eq env eh' hkeeps.length_le vtp
    have hnone : ¬∃ t ∈ eh'.used, Beyond env t := by
      intro hno
      obtain ⟨t, ht, hbeyond⟩ := hno
      exact h t (hused ▸ ht) hbeyond
    rw [if_neg hnone] at hin
    obtain ⟨data, hdata⟩ := @enhance_cells env eh' vtp
    have hsame : enhance env eh' vtp = (eh'.used.foldl (enhanceTriplet env) (0, vtp)).2 := by
      unfold enhance Enhance.used
      split
      next hno =>
        rw [Int.toNat_of_nonpos (by omega)]
        rfl
      · rfl
    refine ⟨eh', hrun, hused, data, ?_, hdata, ?_⟩
    · rw [hin, ← hsame, hdata]
    · intro l c hne
      rw [← hused]
      apply @enhances_frame env eh'.used (0, vtp)
      rw [← hsame, hdata]
      exact hne

/-- A triplet for column 0 with mode 15 and character 0, and twelve that say nothing. -/
def lowPacket : Packet26 := ⟨0, 960 :: List.replicate 12 2047, by decide, by decide⟩

/-- In the Latin 1 font the character is 32 bytes in front of the table. -/
theorem not_enhanced_low : ¬∀ env eh packets vtp, Enhanced env eh packets vtp := by
  intro h
  have henhanced := h ⟨LATIN1, fun _ => false, fun _ => 0⟩ ⟨0, fun _ => 0⟩ [lowPacket]
    ⟨0x100, 0, 0, 0, 0, 0, fun _ _ => 0x20, 0, []⟩
  exact henhanced.not_beyond 960 (by decide) (by decide)

end BgtDvb.Alevt
