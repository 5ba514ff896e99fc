import BgtDvb.DescriptorWalk

/-!
# The linkage descriptor

`dvb_linkage_descriptor_codec` of `libucsi/dvb/linkage_descriptor.h`, and the iterators over the platform ids and their
names that a linkage of type 0x0b has.  The codec turns a platform id round before it has seen that its four bytes are
inside the descriptor, and looks at none of the names; both iterators stop in front of the end.

* `platformIds_run` — **PROVED**: how the loop of the codec ends;
* `linkageSound_iff` — **PROVED**: the descriptors with which it is.
-/

namespace BgtDvb.Ucsi.Descriptor.Linkage

open BgtDvb.Walks
open BgtDvb.Words
open BgtDvb.Ucsi.Table
open BgtDvb.Ucsi.Table.Transports (plain_ok_iff)

/-! ### The codec -/

section Codec

variable (order : ByteOrder)

def wordIf (p : Prop) [Decidable p] (stop pos : ℕ) : Walk ℕ := if p then plain order [(0, 2)] 2 stop pos else pure pos

/-- `struct dvb_linkage_data_08` -/
def linkageData08 (stop pos : ℕ) : Walk Unit := do
  require (pos + 1 ≤ stop)
  let d08 ← read pos 1
  let handOverType := beNat d08 / 2 ^ 4
  let originType := beNat d08 % 2
  let pos ← wordIf order (handOverType = 1 ∨ handOverType = 2 ∨ handOverType = 3) stop (pos + 1)
  let _ ← wordIf order (originType = 0) stop pos
  pure ()

/-- One round of the loop over the platform ids; `pos` is in front of `stop`. -/
def platformId (stop pos : ℕ) : Walk ℕ := do
  bswap order pos 4
  let id ← word order pos 4
  require (id % 2 ^ 8 ≤ stop - pos)
  pure (pos + 4 + id % 2 ^ 8)

/-- `struct dvb_linkage_data_0b` -/
def linkageData0b (stop pos : ℕ) : Walk Unit := do
  require (pos + 1 ≤ stop)
  let platformIdDataLength ← read pos 1
  require (pos + 1 + beNat platformIdDataLength ≤ stop)
  let _ ← whileBelow (pos + 1 + beNat platformIdDataLength) (platformId order stop) (beNat platformIdDataLength) (pos + 1)
  pure ()

/-- `struct dvb_linkage_data_0c` -/
def linkageData0c (stop pos : ℕ) : Walk Unit := do
  require (pos + 1 ≤ stop)
  let tableType ← read pos 1
  let _ ← wordIf order (beNat tableType = 2) stop (pos + 1)
  pure ()

/-- `dvb_linkage_descriptor_codec` -/
def dvbLinkageDescriptorCodec : Walk Unit := do
  let len ← read 1 1
  let _ ← plain order [(0, 2), (2, 2), (4, 2)] 7 (2 + beNat len) 2
  let linkageType ← read 8 1
  if beNat linkageType = 0x08 then linkageData08 order (2 + beNat len) 9
  else if beNat linkageType = 0x0b then linkageData0b order (2 + beNat len) 9
  else if beNat linkageType = 0x0c then linkageData0c order (2 + beNat len) 9
  else pure ()

end Codec

/-! ### The iterators -/

section Iterators

variable (order : ByteOrder) (buf : List UInt8)

/-- `platform_name_loop_length` -/
def platformNameLoopLength (id : ℕ) : ℕ := host order buf id 4 % 2 ^ 8

/-- `dvb_platform_id_first` -/
def platformIdFirst (data : ℕ) : Option ℕ := if be buf data 1 = 0 then none else some (data + 1)

/-- `dvb_platform_id_next` -/
def platformIdNext (data pos : ℕ) : Option ℕ :=
  if data + be buf data 1 ≤ pos + 4 + platformNameLoopLength order buf pos then none
  else some (pos + 4 + platformNameLoopLength order buf pos)

/-- `dvb_platform_name_first` -/
def platformNameFirst (id : ℕ) : Option ℕ := if platformNameLoopLength order buf id = 0 then none else some (id + 4)

/-- `dvb_platform_name_next` -/
def platformNameNext (id pos : ℕ) : Option ℕ :=
  if id + platformNameLoopLength order buf id ≤ pos + 4 + be buf (pos + 3) 1 then none else some (pos + 4 + be buf (pos + 3) 1)

end Iterators

/-! ### What the codec comes to -/

/-- `platform_name_loop_length` as it was sent. -/
def nameLoop (buf : List UInt8) (id : ℕ) : ℕ := be buf id 4 % 2 ^ 8

section Walked

variable (buf : List UInt8) (last stop : ℕ)

/-- The platform ids from a position on: they begin in front of `last`, and the codec gets through. -/
inductive Walked : ℕ → List ℕ → Prop
  | done {pos : ℕ} (behind : last ≤ pos) : Walked pos []
  | id {pos : ℕ} {ids : List ℕ} (before : pos < last) (room : pos + 4 ≤ stop) (loop : nameLoop buf pos ≤ stop - pos)
    (rest : Walked (pos + 4 + nameLoop buf pos) ids) : Walked pos (pos :: ids)

/-- The codec comes to a platform id that is not all in the descriptor. -/
inductive Overrun : ℕ → Prop
  | here {pos : ℕ} (before : pos < last) (outside : stop < pos + 4) : Overrun pos
  | next {pos : ℕ} (before : pos < last) (room : pos + 4 ≤ stop) (loop : nameLoop buf pos ≤ stop - pos)
    (rest : Overrun (pos + 4 + nameLoop buf pos)) : Overrun pos

end Walked

def idWords (ids : List ℕ) : List (ℕ × ℕ) := ids.map fun id => (id, 4)

section Facts

variable {buf buf' : List UInt8} {last stop pos : ℕ} {ids ids' : List ℕ}

theorem nameLoop_eq_of_drop (hdrop : buf.drop a = buf'.drop a) (hpos : a ≤ pos) :
    nameLoop buf pos = nameLoop buf' pos :=
  congrArg (· % 2 ^ 8) (be_eq_of_drop hdrop hpos)

theorem Walked.ahead (hdrop : buf.drop a = buf'.drop a) (hpos : a ≤ pos) (h : Walked buf last stop pos ids) :
    Walked buf' last stop pos ids := by
  induction h with
  | done behind => exact .done behind
  | id before room loop rest ih =>
    have heq := nameLoop_eq_of_drop hdrop hpos
    rw [heq] at loop ih
    exact .id before room loop (ih (by omega))

theorem Overrun.ahead (hdrop : buf.drop a = buf'.drop a) (hpos : a ≤ pos) (h : Overrun buf last stop pos) :
    Overrun buf' last stop pos := by
  induction h with
  | here before outside => exact .here before outside
  | next before room loop rest ih =>
    have heq := nameLoop_eq_of_drop hdrop hpos
    rw [heq] at loop ih
    exact .next before room loop (ih (by omega))

theorem Walked.unique (h : Walked buf last stop pos ids) (h' : Walked buf last stop pos ids') : ids = ids' := by
  induction h generalizing ids' with
  | done behind =>
    cases h' with
    | done => rfl
    | id before => exact absurd behind (Nat.not_le.mpr before)
  | id before room loop rest ih =>
    cases h' with
    | done behind => exact absurd behind (Nat.not_le.mpr before)
    | id _ _ _ rest' => rw [ih rest']

theorem Walked.not_overrun (h : Walked buf last stop pos ids) : ¬Overrun buf last stop pos := by
  induction h with
  | done behind =>
    intro hover
    cases hover with
    | here before => omega
    | next before => omega
  | id before room loop rest ih =>
    intro hover
    cases hover with
    | here _ outside => omega
    | next _ _ _ rest' => exact ih rest'

theorem Walked.apart (h : Walked buf last stop pos ids) (hpos : a ≤ pos) (hstop : a ≤ stop) :
    Apart a stop (idWords ids) := by
  induction h generalizing a with
  | done behind => exact hstop
  | id before room loop rest ih => exact ⟨hpos, ih (Nat.le_add_right _ _) room⟩

theorem Walked.le (h : Walked buf last stop pos ids) {id : ℕ} (hid : id ∈ ids) : pos ≤ id ∧ id < last := by
  induction h with
  | done behind => exact absurd hid List.not_mem_nil
  | id before room loop rest ih =>
    rcases List.mem_cons.mp hid with rfl | hmem
    · exact ⟨le_rfl, before⟩
    · obtain ⟨hle, hlt⟩ := ih hmem
      exact ⟨by omega, hlt⟩

theorem Walked.clear (h : Walked buf last stop pos ids) {id : ℕ} (hid : id ∈ ids) {f : ℕ × ℕ} (hf : f ∈ idWords ids) :
    f.1 + f.2 ≤ id + 4 ∨ id + 4 + nameLoop buf id ≤ f.1 := by
  induction h with
  | done behind => exact absurd hid List.not_mem_nil
  | @id pos ids before room loop rest ih =>
    have hbehind : ∀ g ∈ idWords ids, pos + 4 + nameLoop buf pos ≤ g.1 := by
      intro g hg
      obtain ⟨i, hi, rfl⟩ := List.mem_map.mp hg
      exact (rest.le hi).1
    rcases List.mem_cons.mp hid with rfl | hmem
    · rcases List.mem_cons.mp hf with rfl | hf
      · exact .inl le_rfl
      · exact .inr (hbehind f hf)
    · rcases List.mem_cons.mp hf with rfl | hf
      · have hle := (rest.le hmem).1
        exact .inl (by show pos + 4 ≤ id + 4; omega)
      · exact ih hmem hf

end Facts

/-! ### The loop over the platform ids -/

section Loop

variable {order : ByteOrder} {buf : List UInt8} {last pos : ℕ}

theorem platformId_fault (order : ByteOrder) (h : buf.length < pos + 4) :
    (platformId order buf.length pos).run buf = .error .fault := by
  unfold platformId
  cases order with
  | big =>
    have hword : (word .big pos 4).run buf = .error .fault := run_bind_error (run_read_fault h)
    have hswap : (bswap .big pos 4).run buf = .ok ((), buf) := rfl
    rw [run_bind_ok hswap]
    exact run_bind_error hword
  | little =>
    have hreverse : (reverse pos 4).run buf = .error .fault := if_neg (Nat.not_le.mpr h)
    exact run_bind_error hreverse

theorem platformId_run (order : ByteOrder) {stop : ℕ} (h : pos + 4 ≤ buf.length) :
    (platformId order stop pos).run buf =
      if nameLoop buf pos ≤ stop - pos then .ok (pos + 4 + nameLoop buf pos, swapped order [(pos, 4)] buf)
      else .error .refused := by
  have hapart : Apart pos (pos + 4) [(pos, 4)] := ⟨le_rfl, le_rfl⟩
  have hkept := (swapped_keeps order hapart h).1
  have hword : (word order pos 4).run (swapped order [(pos, 4)] buf) = .ok (be buf pos 4, swapped order [(pos, 4)] buf) := by
    rw [word_ok_iff]
    refine ⟨hkept.symm ▸ h, ?_⟩
    rw [host_swapped hapart h List.mem_cons_self]
  rw [platformId, run_bind_ok (bswap_run h), run_bind_ok hword]
  show (require (nameLoop buf pos ≤ stop - pos) >>= fun _ => pure (pos + 4 + nameLoop buf pos)).run _ = _
  split_ifs with hloop
  · rw [run_bind_ok (run_require hloop _)]
    rfl
  · exact run_bind_error (run_require_not hloop _)

/-- **How the loop ends**: it gets through and has turned round the platform ids that it has come to, or it leaves the
descriptor at one, or it gives the descriptor up. -/
theorem platformIds_run (order : ByteOrder) (fuel : ℕ) (hfuel : last - pos ≤ fuel) :
    (∃ ids, Walked buf last buf.length pos ids ∧ ∃ pos', (whileBelow last (platformId order buf.length) fuel pos).run buf =
        .ok (pos', swapped order (idWords ids) buf))
      ∨ (Overrun buf last buf.length pos
        ∧ (whileBelow last (platformId order buf.length) fuel pos).run buf = .error .fault)
      ∨ ((∀ ids, ¬Walked buf last buf.length pos ids) ∧ ¬Overrun buf last buf.length pos
        ∧ (whileBelow last (platformId order buf.length) fuel pos).run buf = .error .refused) := by
  induction fuel generalizing pos buf with
  | zero =>
    have hdone : ¬pos < last := by omega
    rw [whileBelow_of_not_lt hdone]
    refine .inl ⟨[], .done (Nat.not_lt.mp hdone), pos, ?_⟩
    cases order <;> rfl
  | succ fuel ih =>
    by_cases hlt : pos < last
    · rw [whileBelow, if_pos hlt]
      rcases Nat.lt_or_ge buf.length (pos + 4) with houtside | hroom
      · exact .inr (.inl ⟨.here hlt houtside, run_bind_error (platformId_fault order houtside)⟩)
      · have hrun : (platformId order buf.length pos).run buf = _ := platformId_run order hroom
        by_cases hloop : nameLoop buf pos ≤ buf.length - pos
        · rw [if_pos hloop] at hrun
          rw [run_bind_ok hrun]
          have hapart : Apart pos (pos + 4) [(pos, 4)] := ⟨le_rfl, le_rfl⟩
          obtain ⟨hkept, -, hdrop⟩ := swapped_keeps order hapart hroom
          have hahead : pos + 4 ≤ pos + 4 + nameLoop buf pos := Nat.le_add_right _ _
          have hrest := @ih (swapped order [(pos, 4)] buf) (pos + 4 + nameLoop buf pos) (by omega)
          rw [hkept] at hrest
          rcases hrest with ⟨ids, hids, pos', hok⟩ | ⟨hover, hfault⟩ | ⟨hnone, hclear, hrefused⟩
          · refine .inl ⟨pos :: ids, .id hlt hroom hloop (hids.ahead hdrop hahead), pos', ?_⟩
            rw [hok, ← swapped_append]
            rfl
          · exact .inr (.inl ⟨.next hlt hroom hloop (hover.ahead hdrop hahead), hfault⟩)
          · refine .inr (.inr ⟨fun ids hids => ?_, fun hover => ?_, hrefused⟩)
            · cases hids with
              | done behind => exact absurd behind (Nat.not_le.mpr hlt)
              | id _ _ _ rest => exact hnone _ (rest.ahead hdrop.symm hahead)
            · cases hover with
              | here _ outside => omega
              | next _ _ _ rest => exact hclear (rest.ahead hdrop.symm hahead)
        · rw [if_neg hloop] at hrun
          refine .inr (.inr ⟨fun ids hids => ?_, fun hover => ?_, run_bind_error hrun⟩)
          · cases hids with
            | done behind => exact absurd behind (Nat.not_le.mpr hlt)
            | id _ _ loop _ => exact hloop loop
          · cases hover with
            | here _ outside => omega
            | next _ _ loop _ => exact hloop loop
    · rw [whileBelow_of_not_lt hlt]
      refine .inl ⟨[], .done (Nat.not_lt.mp hlt), pos, ?_⟩
      cases order <;> rfl

end Loop

/-! ### The descriptor -/

/-- `transport_stream_id`, `original_network_id` and `service_id` -/
def headerWords : List (ℕ × ℕ) := [(2, 2), (4, 2), (6, 2)]

/-- The names of a platform id: they are inside the descriptor, and the iterator over them goes over records that fill
the loop of the platform id. -/
structure NamesFound (order : ByteOrder) (buf : List UInt8) (id : ℕ) : Prop where
  inside : id + 4 + platformNameLoopLength order buf id ≤ buf.length
  names : ∃ names, Tiles (CountedAt 3 buf) (id + 4) (id + 4 + platformNameLoopLength order buf id) names
    ∧ ForEach (fun pos _ => platformNameNext order buf id pos) 0 (platformNameFirst order buf id) names

/-- All is well with a descriptor: the codec ends, and stays inside; and where it accepts platform ids, the iterators
come to those that it has swapped, and to the names of each. -/
structure LinkageSound (order : ByteOrder) (buf : List UInt8) : Prop where
  stays : Stays (dvbLinkageDescriptorCodec order) buf
  platforms : ∀ buf', (dvbLinkageDescriptorCodec order).run buf = .ok ((), buf') → be buf 8 1 = 0x0b →
    ∃ ids, Walked buf (10 + be buf 9 1) buf.length 10 ids
      ∧ buf' = swapped order (headerWords ++ idWords ids) buf
      ∧ ForEach (fun pos _ => platformIdNext order buf' 9 pos) 0 (platformIdFirst buf' 9) ids
      ∧ ∀ id ∈ ids, NamesFound order buf' id

/-- The names of a platform id in the bytes as they were sent: they fill its loop, and none but the first begins with
the last four bytes of it. -/
def NamesFit (buf : List UInt8) (id : ℕ) : Prop :=
  id + 4 + nameLoop buf id ≤ buf.length ∧
    ∃ names, Tiles (CountedAt 3 buf) (id + 4) (id + 4 + nameLoop buf id) names
      ∧ ∀ name ∈ names.tail, name ≠ id + nameLoop buf id

/-- The codec comes to no platform id that is not all in the descriptor; and if it gets through, none but the first
begins with the last byte of their data, and the names of each fit. -/
def LinkageFits (buf : List UInt8) : Prop :=
  be buf 8 1 = 0x0b → 10 + be buf 9 1 ≤ buf.length →
    ¬Overrun buf (10 + be buf 9 1) buf.length 10 ∧
      ∀ ids, Walked buf (10 + be buf 9 1) buf.length 10 ids →
        (∀ id ∈ ids.tail, id ≠ 9 + be buf 9 1) ∧ ∀ id ∈ ids, NamesFit buf id

/-! ### The iterators -/

section Iterated

variable {order : ByteOrder} {buf sent : List UInt8}

theorem idsIterated_iff {data stop pos : ℕ} {ids : List ℕ} (hlast : last = data + 1 + be buf data 1)
    (h : Walked sent last stop pos ids) (hloop : ∀ id ∈ ids, platformNameLoopLength order buf id = nameLoop sent id)
    (idx : ℕ) :
    ForEach (fun pos _ => platformIdNext order buf data pos) idx (if data + be buf data 1 ≤ pos then none else some pos) ids
      ↔ ∀ id ∈ ids, id ≠ data + be buf data 1 := by
  induction h generalizing idx with
  | done behind =>
    rw [if_pos (by omega)]
    exact iff_of_true .stop fun id hid => absurd hid List.not_mem_nil
  | @id pos ids before room loop rest ih =>
    by_cases hend : data + be buf data 1 ≤ pos
    · rw [if_pos hend]
      refine iff_of_false (fun hfor => by cases hfor) fun hne => hne pos List.mem_cons_self ?_
      omega
    · have hnext : platformIdNext order buf data pos =
          if data + be buf data 1 ≤ pos + 4 + nameLoop sent pos then none else some (pos + 4 + nameLoop sent pos) := by
        rw [platformIdNext, hloop pos List.mem_cons_self]
      rw [if_neg hend, forEach_cons_iff, hnext, ih (fun id hid => hloop id (List.mem_cons_of_mem pos hid)) (idx + 1)]
      constructor
      · intro h id hid
        rcases List.mem_cons.mp hid with rfl | hmem
        · omega
        · exact h.2 id hmem
      · exact fun h => ⟨rfl, fun id hid => h id (List.mem_cons_of_mem pos hid)⟩

theorem platformIds_iff {data last stop : ℕ} {ids : List ℕ} (hlast : last = data + 1 + be buf data 1)
    (h : Walked sent last stop (data + 1) ids)
    (hloop : ∀ id ∈ ids, platformNameLoopLength order buf id = nameLoop sent id) :
    ForEach (fun pos _ => platformIdNext order buf data pos) 0 (platformIdFirst buf data) ids
      ↔ ∀ id ∈ ids.tail, id ≠ data + be buf data 1 := by
  unfold platformIdFirst
  cases h with
  | done behind =>
    rw [if_pos (by omega)]
    exact iff_of_true .stop fun id hid => absurd hid List.not_mem_nil
  | @id pos ids before room loop rest =>
    have hnext : platformIdNext order buf data (data + 1) =
        if data + be buf data 1 ≤ data + 1 + 4 + nameLoop sent (data + 1) then none
        else some (data + 1 + 4 + nameLoop sent (data + 1)) := by
      rw [platformIdNext, hloop _ List.mem_cons_self]
    rw [if_neg (by omega), forEach_cons_iff, hnext,
      idsIterated_iff hlast rest (fun id hid => hloop id (List.mem_cons_of_mem _ hid)), and_iff_right rfl]
    rfl

theorem names_iff {id : ℕ} (h : Tiles (CountedAt 3 buf) (id + 4) (id + 4 + platformNameLoopLength order buf id) names) :
    ForEach (fun pos _ => platformNameNext order buf id pos) 0 (platformNameFirst order buf id) names
      ↔ ∀ name ∈ names.tail, name ≠ id + platformNameLoopLength order buf id := by
  have hpos : ∀ {i j x : ℕ}, CountedAt 3 buf i j x → x = i ∧ i < j := by
    intro i j x hx
    have hlt := hx.lt
    exact ⟨hx.1, by omega⟩
  have hnext : ∀ {i j x : ℕ}, CountedAt 3 buf i j x → platformNameNext order buf id i =
      if id + platformNameLoopLength order buf id ≤ j then none else some j := by
    intro i j x hx
    rw [hx.2]
    rfl
  unfold platformNameFirst
  generalize hstop : id + 4 + platformNameLoopLength order buf id = stop at h
  generalize hstart : id + 4 = start at h
  cases h with
  | nil =>
    rw [if_pos (by omega)]
    exact iff_of_true .stop fun name hname => absurd hname List.not_mem_nil
  | @cons _ b _ x xs first rest =>
    obtain rfl := (hpos first).1
    have hlt := (hpos first).2
    have hle := rest.le_of_lt hpos
    have hmem : ∀ name ∈ xs, name ≤ id + platformNameLoopLength order buf id := by
      intro name hname
      obtain ⟨i, j, -, hj, hx⟩ := rest.of_mem (fun hx => (hpos hx).2.le) hname
      have hend := hx.lt
      have heq := hx.1
      omega
    rw [if_neg (by omega), forEach_cons_iff, hnext first, and_iff_right rfl]
    constructor
    · intro hfor name hname
      have huntil := @Tiles.until_of_forEach _ _ _ _ _ _ (fun x => x) _ rest hpos (fun idx hx => hnext hx) _ _ hfor
        (fun x hx => hx) fun hstop' => by
          have hlast := hmem stop hstop'
          omega
      exact (huntil.1 name hname).ne
    · intro hne
      have hfor := @Tiles.forEach_until _ _ _ _ _ _ (fun x => x) _ rest hpos (fun idx hx => hnext hx)
        (fun name hname => lt_of_le_of_ne (hmem name hname) (hne name hname)) (by omega) 1
      rwa [List.map_id'] at hfor

end Iterated

/-! ### Where the codec gets through -/

section Accepted

variable {order : ByteOrder} {buf : List UInt8} {ids : List ℕ}

theorem headerWords_apart : Apart 2 8 headerWords := by decide

/-- What the codec has swapped where it gets through, as the host reads it. -/
structure Standing (order : ByteOrder) (sent buf : List UInt8) (ids : List ℕ) : Prop where
  length_eq : buf.length = sent.length
  data_eq : be buf 9 1 = be sent 9 1
  loops : ∀ id ∈ ids, platformNameLoopLength order buf id = nameLoop sent id
  names : ∀ id ∈ ids, SameOn (id + 4) (id + 4 + nameLoop sent id) buf sent

theorem standing (hsize : 10 ≤ buf.length) (h : Walked buf last buf.length 10 ids) :
    Standing order buf (swapped order (headerWords ++ idWords ids) buf) ids := by
  have hids : Apart 10 buf.length (idWords ids) := h.apart le_rfl hsize
  have hall : Apart 2 buf.length (headerWords ++ idWords ids) := (headerWords_apart.mono le_rfl (by omega)).append hids
  have hinside : ∀ f ∈ headerWords ++ idWords ids, f.1 + f.2 ≤ buf.length := fun f hf => (hall.mem hf).2
  refine ⟨(swapped_keeps order hall le_rfl).1, ?_, fun id hid => ?_, fun id hid i k hi hk => ?_⟩
  · refine congrArg beNat (slice_swapped_other order hinside fun f hf => ?_)
    rcases List.mem_append.mp hf with hf | hf
    · exact .inr ((headerWords_apart.mem hf).2.trans (by omega))
    · exact .inl (hids.mem hf).1
  · have hmem : (id, 4) ∈ headerWords ++ idWords ids := List.mem_append_right _ (List.mem_map.mpr ⟨id, hid, rfl⟩)
    exact congrArg (· % 2 ^ 8) (host_swapped hall le_rfl hmem)
  · refine slice_swapped_other order hinside fun f hf => ?_
    rcases List.mem_append.mp hf with hf | hf
    · have hend := (headerWords_apart.mem hf).2
      have hle := (h.le hid).1
      exact .inr (by omega)
    · rcases h.clear hid hf with hbefore | hbehind
      · exact .inr (hbefore.trans hi)
      · exact .inl (hk.trans hbehind)

theorem namesFound_iff (h : Standing order sent buf ids) {id : ℕ} (hid : id ∈ ids) :
    NamesFound order buf id ↔ NamesFit sent id := by
  have hloop := h.loops id hid
  have hsame := h.names id hid
  unfold NamesFit
  constructor
  · intro hfound
    obtain ⟨hinside, names, hnames, hfor⟩ := hfound
    have htail := (names_iff hnames).mp hfor
    rw [hloop] at hinside hnames htail
    exact ⟨h.length_eq ▸ hinside, names, counted_sameOn hsame hnames, htail⟩
  · intro hfit
    obtain ⟨hinside, names, hnames, htail⟩ := hfit
    have hnames' := counted_sameOn hsame.symm hnames
    rw [← hloop] at hinside hnames' htail
    exact ⟨h.length_eq.symm ▸ hinside, names, hnames', (names_iff hnames').mpr htail⟩

end Accepted

/-! ### Linkage descriptors -/

section Sound

variable {order : ByteOrder} {n : ℕ}

theorem safe_wordIf (order : ByteOrder) {stop : ℕ} (hstop : stop ≤ n) (p : Prop) [Decidable p] (pos : ℕ) :
    Safe n (wordIf order p stop pos) fun _ => True := by
  have hinside : ∀ f ∈ [(0, 2)], f.1 + f.2 ≤ 2 := by decide
  unfold wordIf
  split_ifs
  · exact (safe_plain order hstop hinside).mono fun _ _ => trivial
  · exact safe_pure trivial

theorem safe_linkageData08 (order : ByteOrder) {stop pos : ℕ} (hstop : stop ≤ n) :
    Safe n (linkageData08 order stop pos) fun _ => True := by
  refine (safe_require _).bind fun _ hroom => (safe_read (hroom.trans hstop)).bind fun d08 _ => ?_
  apply Safe.bind (Q := fun _ => True)
  · exact safe_wordIf order hstop _ _
  · intro pos _
    apply Safe.bind (Q := fun _ => True)
    · exact safe_wordIf order hstop _ _
    · exact fun _ _ => safe_pure trivial

theorem safe_linkageData0c (order : ByteOrder) {stop pos : ℕ} (hstop : stop ≤ n) :
    Safe n (linkageData0c order stop pos) fun _ => True := by
  refine (safe_require _).bind fun _ hroom => (safe_read (hroom.trans hstop)).bind fun tableType _ => ?_
  apply Safe.bind (Q := fun _ => True)
  · exact safe_wordIf order hstop _ _
  · exact fun _ _ => safe_pure trivial

variable {buf : List UInt8}

theorem headerWords_keeps (order : ByteOrder) (hsize : 9 ≤ buf.length) :
    (swapped order headerWords buf).length = buf.length
      ∧ (swapped order headerWords buf).drop 8 = buf.drop 8 := by
  obtain ⟨hlen, -, hdrop⟩ := swapped_keeps order headerWords_apart (by omega : 8 ≤ buf.length)
  exact ⟨hlen, hdrop⟩

theorem codec_run (order : ByteOrder) (h : IsDescriptor buf) :
    (dvbLinkageDescriptorCodec order).run buf =
      if 9 ≤ buf.length then
        (if be buf 8 1 = 0x08 then linkageData08 order buf.length 9
          else if be buf 8 1 = 0x0b then linkageData0b order buf.length 9
          else if be buf 8 1 = 0x0c then linkageData0c order buf.length 9
          else pure ()).run (swapped order headerWords buf)
      else .error .refused := by
  have hread : 1 + 1 ≤ buf.length := by
    unfold IsDescriptor at h
    omega
  have hlenByte : 2 + beNat (slice buf 1 1) = buf.length := h.symm
  rw [dvbLinkageDescriptorCodec, run_bind_ok (read_ok_iff.mpr ⟨hread, rfl⟩), hlenByte]
  by_cases hsize : 9 ≤ buf.length
  · have hhead : Apart 0 7 [(0, 2), (2, 2), (4, 2)] := by decide
    have hplain : (plain order [(0, 2), (2, 2), (4, 2)] 7 buf.length 2).run buf = .ok (9, swapped order headerWords buf) :=
      (plain_ok_iff hhead le_rfl).mpr ⟨hsize, rfl⟩
    obtain ⟨hlen, hdrop⟩ := headerWords_keeps order hsize
    have hread' : 8 + 1 ≤ (swapped order headerWords buf).length := hlen.symm ▸ hsize
    have htype : beNat (slice (swapped order headerWords buf) 8 1) = be buf 8 1 := be_eq_of_drop hdrop le_rfl
    rw [run_bind_ok hplain, run_bind_ok (read_ok_iff.mpr ⟨hread', rfl⟩), htype, if_pos hsize]
  · rw [if_neg hsize]
    exact run_bind_error (run_bind_error (run_require_not hsize buf))

theorem stays_other (order : ByteOrder) (h : IsDescriptor buf) (htype : be buf 8 1 ≠ 0x0b) :
    Stays (dvbLinkageDescriptorCodec order) buf := by
  unfold Stays
  rw [codec_run order h, if_neg htype]
  split_ifs with hsize
  · exact (safe_linkageData08 order le_rfl _ (headerWords_keeps order hsize).1).stays
  · exact (safe_linkageData0c order le_rfl _ (headerWords_keeps order hsize).1).stays
  · exact stays_pure ()
  · intro s hs
    cases hs
    rfl

theorem codec_run_0b (order : ByteOrder) (h : IsDescriptor buf) (htype : be buf 8 1 = 0x0b) :
    (10 + be buf 9 1 ≤ buf.length ∧ (dvbLinkageDescriptorCodec order).run buf =
        (whileBelow (10 + be buf 9 1) (platformId order buf.length) (be buf 9 1) 10 >>= fun _ => pure ()).run
          (swapped order headerWords buf))
      ∨ ¬10 + be buf 9 1 ≤ buf.length ∧ (dvbLinkageDescriptorCodec order).run buf = .error .refused := by
  rw [codec_run order h, if_neg (by omega : ¬be buf 8 1 = 0x08), if_pos htype]
  by_cases hsize : 9 ≤ buf.length
  · rw [if_pos hsize, linkageData0b]
    obtain ⟨hlen, hdrop⟩ := headerWords_keeps order hsize
    by_cases hroom : 9 + 1 ≤ buf.length
    · have hread : 9 + 1 ≤ (swapped order headerWords buf).length := hlen.symm ▸ hroom
      have hdata : beNat (slice (swapped order headerWords buf) 9 1) = be buf 9 1 := be_eq_of_drop hdrop (by decide)
      rw [run_bind_ok (run_require hroom _), run_bind_ok (read_ok_iff.mpr ⟨hread, rfl⟩), hdata]
      by_cases hdataRoom : 10 + be buf 9 1 ≤ buf.length
      · exact .inl ⟨hdataRoom, run_bind_ok (run_require hdataRoom _)⟩
      · exact .inr ⟨hdataRoom, run_bind_error (run_require_not hdataRoom _)⟩
    · exact .inr ⟨by omega, run_bind_error (run_require_not hroom _)⟩
  · rw [if_neg hsize]
    exact .inr ⟨by omega, rfl⟩

/-- **Linkage descriptors** are read soundly exactly if they fit. -/
theorem linkageSound_iff {order : ByteOrder} {buf : List UInt8} (h : IsDescriptor buf) :
    LinkageSound order buf ↔ LinkageFits buf := by
  by_cases htype : be buf 8 1 = 0x0b
  · rcases codec_run_0b order h htype with ⟨hroom, hrun⟩ | ⟨hnone, hrun⟩
    · obtain ⟨hlen, hdrop⟩ := headerWords_keeps order (by omega : 9 ≤ buf.length)
      have hcut : (swapped order headerWords buf).drop 10 = buf.drop 10 := drop_eq_of_le hdrop (by decide)
      have hloop := @platformIds_run (swapped order headerWords buf) (10 + be buf 9 1) 10 order (be buf 9 1) (by omega)
      rw [hlen] at hloop
      rcases hloop with ⟨ids, hids, pos, hok⟩ | ⟨hover, hfault⟩ | ⟨hnone, hclear, hrefused⟩
      · -- the codec gets through
        have hidsSent := hids.ahead hcut le_rfl
        have hstanding : Standing order buf (swapped order (headerWords ++ idWords ids) buf) ids :=
          standing (by omega) hidsSent
        have hlast : 10 + be buf 9 1 = 9 + 1 + be (swapped order (headerWords ++ idWords ids) buf) 9 1 := by
          rw [hstanding.data_eq]
        have hiter := @platformIds_iff order _ _ 9 _ _ _ hlast hidsSent hstanding.loops
        rw [hstanding.data_eq] at hiter
        rw [run_bind_ok hok, ← swapped_append] at hrun
        constructor
        · intro hsound _ _
          obtain ⟨ids', hids', -, hfor, hnames⟩ := hsound.platforms _ hrun htype
          obtain rfl := hids'.unique hidsSent
          refine ⟨hidsSent.not_overrun, fun ids'' hids'' => ?_⟩
          obtain rfl := hids''.unique hidsSent
          exact ⟨hiter.mp hfor, fun id hid => (namesFound_iff hstanding hid).mp (hnames id hid)⟩
        · intro hfits
          obtain ⟨hends, hnames⟩ := (hfits htype hroom).2 ids hidsSent
          refine ⟨fun s hs => ?_, fun buf' hok' _ => ?_⟩
          · rw [hrun] at hs
            cases hs
          · rw [hrun] at hok'
            cases hok'
            exact ⟨ids, hidsSent, rfl, hiter.mpr hends, fun id hid => (namesFound_iff hstanding hid).mpr (hnames id hid)⟩
      · -- it leaves the descriptor
        rw [run_bind_error hfault] at hrun
        refine iff_of_false (fun hsound => ?_) fun hfits => (hfits htype hroom).1 (hover.ahead hcut le_rfl)
        have hs := hsound.stays _ hrun
        cases hs
      · -- it gives the descriptor up
        rw [run_bind_error hrefused] at hrun
        refine iff_of_true ⟨fun s hs => ?_, fun buf' hok' => ?_⟩ fun _ _ => ⟨fun hover => ?_, fun ids hids => ?_⟩
        · rw [hrun] at hs
          cases hs
          rfl
        · rw [hrun] at hok'
          cases hok'
        · exact hclear (hover.ahead hcut.symm le_rfl)
        · exact absurd (hids.ahead hcut.symm le_rfl) (hnone ids)
    · refine iff_of_true ⟨fun s hs => ?_, fun buf' hok' => ?_⟩ fun _ hroom => absurd hroom hnone
      · rw [hrun] at hs
        cases hs
        rfl
      · rw [hrun] at hok'
        cases hok'
  · exact iff_of_true ⟨stays_other order h htype, fun _ _ htype' => absurd htype' htype⟩ fun htype' => absurd htype' htype

/-- A linkage with a byte for a platform id, where the descriptor ends. -/
def shortId : List UInt8 := [0x4a, 9, 0, 1, 0, 2, 0, 3, 0x0b, 1, 0]

theorem linkageSound_iff_shortId : IsDescriptor shortId ∧ (LinkageSound .little shortId ↔ LinkageFits shortId) :=
  ⟨by decide, linkageSound_iff (by decide)⟩

/-- Its four bytes are turned round all the same. -/
theorem not_linkageSound_shortId : ¬∀ order buf, IsDescriptor buf → LinkageSound order buf := by
  intro h
  have hfault : (dvbLinkageDescriptorCodec .little).run shortId = .error .fault := by rfl
  have hs := (h .little shortId (by decide)).stays _ hfault
  cases hs

end Sound

end BgtDvb.Ucsi.Descriptor.Linkage
