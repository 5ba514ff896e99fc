import BgtDvb.AtscTextSyntax
import BgtDvb.DccsctWay

/-!
# The syntax of DCC selection code tables

A table is made of updates, each with data of its type, some with a name, and with descriptors; descriptors of the
whole table stand behind them.  The iterator and the accessors of `libucsi/atsc/dccsct_section.h` go over the updates
that `atsc_dccsct_section_codec` has left.

* `iterated_iff` — **PROVED**: what the iterator and the accessors need to come there;
* `dccsct_iff` — **PROVED**: which sections lead the codec out, and which tables are parsed.
-/

namespace BgtDvb.Ucsi.Table.Dccsct

open BgtDvb.Walks
open BgtDvb.Words
open BgtDvb.Ucsi.Table.Dcct (Descriptors noDescriptors be_of_drop drop_of_cons)

/-! ### The syntax -/

/-- The data of an update, by its type. -/
inductive DataSyntax
  | newGenre (genreCategoryCode : UInt8) (name : Name)
  | newState (dccStateLocationCode : UInt8) (name : Name)
  | newCounty (stateCode : UInt8) (reserved : Fin 64) (dccCountyLocationCode : Fin 1024) (name : Name)
  | other (updateType : UInt8) (unnamed : updateType ∉ [1, 2, 3]) (data : List UInt8)

def DataSyntax.updateType : DataSyntax → UInt8
  | .newGenre _ _ => 1
  | .newState _ _ => 2
  | .newCounty _ _ _ _ => 3
  | .other updateType _ _ => updateType

def DataSyntax.bytes : DataSyntax → List UInt8
  | .newGenre code name => code :: name.bytes
  | .newState code name => code :: name.bytes
  | .newCounty stateCode reserved code name => stateCode :: (beBytes 2 (reserved * 2 ^ 10 + code) ++ name.bytes)
  | .other _ _ data => data

/-- `struct atsc_dccsct_update`, its data and its second part -/
structure UpdateSyntax where
  data : DataSyntax
  short : data.bytes.length < 2 ^ 8
  reserved : Fin 64
  descriptors : Descriptors

def UpdateSyntax.bytes (s : UpdateSyntax) : List UInt8 :=
  s.data.updateType :: UInt8.ofNat s.data.bytes.length ::
    (s.data.bytes ++ (s.descriptors.lengthWord s.reserved ++ s.descriptors.bytes))

structure DccsctSyntax where
  protocolVersion : UInt8
  updates : List UpdateSyntax
  short : updates.length < 2 ^ 8
  reserved : Fin 64
  descriptors : Descriptors

/-- What stands between `struct section_ext` and the CRC. -/
def DccsctSyntax.bytes (d : DccsctSyntax) : List UInt8 :=
  d.protocolVersion :: UInt8.ofNat d.updates.length :: (d.updates.flatMap UpdateSyntax.bytes ++
    (d.descriptors.lengthWord d.reserved ++ d.descriptors.bytes))

/-- A section that holds a table, as `section_ext_decode` leaves it. -/
structure IsSection (order : ByteOrder) (d : DccsctSyntax) (buf : List UInt8) : Prop where
  length_eq : buf.length = lengthField order buf + 3
  parts : ∃ head crc, head.length = 8 ∧ crc.length = 4 ∧ buf = head ++ (d.bytes ++ crc)

def starts : ℕ → List UpdateSyntax → List ℕ
  | _, [] => []
  | pos, s :: updates => pos :: starts (pos + s.bytes.length) updates

/-! ### The iterator and the accessors -/

section Iterators

variable (order : ByteOrder) (buf : List UInt8)

def updatesDefined : ℕ := be buf 9 1

/-- `atsc_dccsct_update_part2` -/
def updatePart2 (update : ℕ) : ℕ := update + (2 + be buf (update + 1) 1)

/-- `descriptors_length` of a second part. -/
def part2Length (part2 : ℕ) : ℕ := host order buf part2 2 % 2 ^ 10

/-- `atsc_dccsct_section_updates_first` -/
def updatesFirst : Option ℕ := if updatesDefined buf = 0 then none else some 10

/-- `atsc_dccsct_section_updates_next` -/
def updatesNext (pos idx : ℕ) : Option ℕ :=
  if updatesDefined buf ≤ idx then none
  else some (updatePart2 buf pos + (2 + part2Length order buf (updatePart2 buf pos)))

/-- The accessors of a name: they leave out the codes in front of it, but not the two bytes in front of these. -/
def nameBehind (size update : ℕ) : Option ℕ :=
  if (be buf (update + 1) 1 : ℤ) - size = 0 then none else some (update + size)

/-- `atsc_dccsct_update_new_genre_name` -/
def newGenreName (update : ℕ) : Option ℕ := nameBehind buf 1 update

/-- `atsc_dccsct_update_new_state_name` -/
def newStateName (update : ℕ) : Option ℕ := nameBehind buf 1 update

/-- `atsc_dccsct_update_new_county_name` -/
def newCountyName (update : ℕ) : Option ℕ := nameBehind buf 3 update

end Iterators

/-! ### A table that is parsed -/

def nameAt (name : Name) (pos : ℕ) : Option ℕ := if name.bytes = [] then none else some pos

def DataSyntax.NameFound (buf : List UInt8) (update : ℕ) : DataSyntax → Prop
  | .newGenre _ name => newGenreName buf update = nameAt name (update + 2 + 1)
  | .newState _ name => newStateName buf update = nameAt name (update + 2 + 1)
  | .newCounty _ _ _ name => newCountyName buf update = nameAt name (update + 2 + 3)
  | .other _ _ _ => True

/-- The accessors give the length word and the name of the update at a position. -/
structure UpdateFound (buf : List UInt8) (pos : ℕ) (s : UpdateSyntax) : Prop where
  part2 : updatePart2 buf pos = pos + 2 + s.data.bytes.length
  name : s.data.NameFound buf pos

/-- **What a table should come to**: it is accepted, the iterator goes over its updates where they stand, and the
accessors give their parts. -/
def Parsed (order : ByteOrder) (d : DccsctSyntax) (buf : List UInt8) : Prop :=
  ∃ buf', (atscDccsctSectionCodec order).run buf = .ok ((), buf')
    ∧ ForEach (updatesNext order buf') 0 (updatesFirst buf') (starts 10 d.updates)
    ∧ List.Forall₂ (UpdateFound buf') (starts 10 d.updates) d.updates

def DataSyntax.Nameless : DataSyntax → Prop
  | .newGenre _ name | .newState _ name | .newCounty _ _ _ name => name.bytes = []
  | .other _ _ _ => True

/-- The host reads the lengths that lead from update to update as they were written. -/
def Readable (order : ByteOrder) (buf : List UInt8) : ℕ → List UpdateSyntax → Prop
  | _, [] => True
  | pos, s :: updates =>
    be buf (pos + 1) 1 = s.data.bytes.length
      ∧ (updates = [] ∨ part2Length order buf (pos + 2 + s.data.bytes.length) = s.descriptors.bytes.length)
      ∧ Readable order buf (pos + s.bytes.length) updates

/-- No update has a name, the lengths twice as far on lead to the end of the section, and turning round the words that
stand on this way leaves the lengths readable that lead from update to update. -/
def DccsctSyntax.Fits (order : ByteOrder) (d : DccsctSyntax) (buf : List UInt8) : Prop :=
  (∀ s ∈ d.updates, s.data.Nameless) ∧
    ∃ words, Led order buf words ∧ Readable order (swapped order words buf) 10 d.updates

/-! ### What the iterator and the accessors need -/

variable {order : ByteOrder} {buf : List UInt8}

theorem UpdateSyntax.length_bytes (s : UpdateSyntax) :
    s.bytes.length = 2 + s.data.bytes.length + (2 + s.descriptors.bytes.length) := by
  rw [UpdateSyntax.bytes, List.length_cons, List.length_cons, List.length_append, List.length_append,
    s.descriptors.length_lengthWord]
  omega

/-- A name accessor gives `NULL` for a name of no length, and no name where it stands. -/
theorem nameBehind_iff {name : Name} {size pos i : ℕ} (hlength : be buf (pos + 1) 1 = size + name.bytes.length)
    (hi : pos + size ≠ i) : nameBehind buf size pos = nameAt name i ↔ name.bytes = [] := by
  unfold nameBehind nameAt
  by_cases hname : name.bytes = []
  · rw [hname, List.length_nil] at hlength
    have hzero : (be buf (pos + 1) 1 : ℤ) - size = 0 := by omega
    rw [if_pos hzero, if_pos hname]
    exact iff_of_true rfl hname
  · have hpos := List.length_pos_iff.mpr hname
    have hsome : ¬ (be buf (pos + 1) 1 : ℤ) - size = 0 := by omega
    rw [if_neg hsome, if_neg hname]
    exact iff_of_false (fun heq => hi (Option.some.inj heq)) hname

theorem nameFound_iff {data : DataSyntax} {pos : ℕ} (hlength : be buf (pos + 1) 1 = data.bytes.length) :
    data.NameFound buf pos ↔ data.Nameless := by
  cases data with
  | newGenre code name =>
    have hsize : be buf (pos + 1) 1 = 1 + name.bytes.length := hlength.trans (Nat.add_comm _ 1)
    exact nameBehind_iff hsize (by omega)
  | newState code name =>
    have hsize : be buf (pos + 1) 1 = 1 + name.bytes.length := hlength.trans (Nat.add_comm _ 1)
    exact nameBehind_iff hsize (by omega)
  | newCounty stateCode reserved code name =>
    have hsize : be buf (pos + 1) 1 = 3 + name.bytes.length := by
      rw [hlength, DataSyntax.bytes, List.length_cons, List.length_append, length_beBytes]
      omega
    exact nameBehind_iff hsize (by omega)
  | other updateType unnamed data => exact Iff.rfl

theorem updateFound_iff {s : UpdateSyntax} {pos : ℕ} :
    UpdateFound buf pos s ↔ be buf (pos + 1) 1 = s.data.bytes.length ∧ s.data.Nameless := by
  have hpart : updatePart2 buf pos = pos + 2 + s.data.bytes.length ↔ be buf (pos + 1) 1 = s.data.bytes.length := by
    unfold updatePart2
    omega
  constructor
  · rintro ⟨hpart2, hname⟩
    have hlength := hpart.mp hpart2
    exact ⟨hlength, (nameFound_iff hlength).mp hname⟩
  · rintro ⟨hlength, hname⟩
    exact ⟨hpart.mpr hlength, (nameFound_iff hlength).mpr hname⟩

theorem forEach_start {next : ℕ → ℕ → Option ℕ} {idx : ℕ} {start : Option ℕ} {ps : List ℕ}
    (h : ForEach next idx start ps) : start = ps.head? := by
  cases h with
  | stop => rfl
  | go => rfl

theorem head?_starts (pos : ℕ) (updates : List UpdateSyntax) :
    (starts pos updates).head? = if updates = [] then none else some pos := by
  cases updates with
  | nil => rfl
  | cons s updates => rfl

theorem updatesNext_eq_iff {s : UpdateSyntax} {updates : List UpdateSyntax} {pos idx : ℕ}
    (hcount : idx + updates.length = updatesDefined buf) (hlength : be buf (pos + 1) 1 = s.data.bytes.length) :
    updatesNext order buf pos idx = (if updates = [] then none else some (pos + s.bytes.length)) ↔
      (updates = [] ∨ part2Length order buf (pos + 2 + s.data.bytes.length) = s.descriptors.bytes.length) := by
  unfold updatesNext
  by_cases hnone : updates = []
  · have hlast : updatesDefined buf ≤ idx := by
      rw [hnone] at hcount
      exact hcount.ge
    rw [if_pos hlast, if_pos hnone]
    exact iff_of_true rfl (.inl hnone)
  · have hpos := List.length_pos_iff.mpr hnone
    have hmore : ¬ updatesDefined buf ≤ idx := by omega
    have hpart : updatePart2 buf pos = pos + 2 + s.data.bytes.length := by
      rw [updatePart2, hlength, Nat.add_assoc]
    have hsize := s.length_bytes
    rw [if_neg hmore, if_neg hnone, hpart, Option.some_inj, or_iff_right hnone]
    omega

/-- **The iterator and the accessors** come to the updates exactly if these have no names and their lengths are
readable. -/
theorem iterated_iff {updates : List UpdateSyntax} {idx pos : ℕ} (hcount : idx + updates.length = updatesDefined buf) :
    (ForEach (updatesNext order buf) idx (if updates = [] then none else some pos) (starts pos updates)
        ∧ List.Forall₂ (UpdateFound buf) (starts pos updates) updates) ↔
      (∀ s ∈ updates, s.data.Nameless) ∧ Readable order buf pos updates := by
  induction updates generalizing idx pos with
  | nil => exact iff_of_true ⟨.stop, .nil⟩ ⟨fun _ hs => absurd hs List.not_mem_nil, trivial⟩
  | cons s updates ih =>
    rw [List.length_cons] at hcount
    have hrest : idx + 1 + updates.length = updatesDefined buf := by omega
    have hnone : ¬ s :: updates = [] := List.cons_ne_nil s updates
    rw [if_neg hnone, starts]
    constructor
    · rintro ⟨hfor, hall⟩
      cases hall with
      | cons hs hall =>
        cases hfor with
        | go hfor =>
          obtain ⟨hlength, hname⟩ := updateFound_iff.mp hs
          have hnext := forEach_start hfor
          rw [head?_starts] at hnext
          rw [hnext] at hfor
          obtain ⟨hnames, hreadable⟩ := (ih hrest).mp ⟨hfor, hall⟩
          refine ⟨fun t ht => ?_, hlength, (updatesNext_eq_iff hrest hlength).mp hnext, hreadable⟩
          rcases List.mem_cons.mp ht with rfl | ht
          · exact hname
          · exact hnames t ht
    · rintro ⟨hnames, hlength, hword, hreadable⟩
      obtain ⟨hfor, hall⟩ := (ih hrest).mpr ⟨fun t ht => hnames t (List.mem_cons_of_mem s ht), hreadable⟩
      rw [← (updatesNext_eq_iff hrest hlength).mpr hword] at hfor
      exact ⟨.go hfor, .cons (updateFound_iff.mpr ⟨hlength, hnames s List.mem_cons_self⟩) hall⟩

/-! ### A section -/

theorem IsSection.whole {d : DccsctSyntax} (h : IsSection order d buf) : Whole order buf := by
  obtain ⟨head, crc, hhead, hcrc, hbuf⟩ := h.parts
  have hlen : buf.length = 8 + (d.bytes.length + 4) := by
    rw [hbuf, List.length_append, List.length_append, hhead, hcrc]
  have hlength := h.length_eq
  exact ⟨hlength, by omega⟩

theorem IsSection.count_eq {d : DccsctSyntax} (h : IsSection order d buf) : updatesDefined buf = d.updates.length := by
  obtain ⟨head, crc, hhead, hcrc, hbuf⟩ := h.parts
  have hdrop : buf.drop 8 = d.bytes ++ crc := by rw [hbuf, ← hhead, List.drop_left]
  rw [DccsctSyntax.bytes, List.cons_append, List.cons_append] at hdrop
  exact be_of_drop d.short (drop_of_cons hdrop)

theorem Led.updatesDefined_eq {words : List (ℕ × ℕ)} (h : Led order buf words) :
    updatesDefined (swapped order words buf) = updatesDefined buf := by
  have hfront := (swapped_keeps order h.apart (Nat.sub_le _ _)).2.1
  exact congrArg beNat (slice_eq_of_take hfront le_rfl)

/-- **DCCSCT.**  The codec leaves a section exactly if some update's `part2` stands so far on that twice its position
is outside; a section made by the syntax is accepted, and iterator and accessors come to its parts, exactly if it
fits. -/
theorem dccsct_iff (order : ByteOrder) {buf : List UInt8} (h : Whole order buf) :
    (Stays (atscDccsctSectionCodec order) buf ↔ ¬ DccsctSectionOverrun order buf) ∧
      ∀ d, IsSection order d buf → (Parsed order d buf ↔ d.Fits order buf) := by
  refine ⟨stays_atscDccsctSectionCodec_iff h, fun d hd => ?_⟩
  have hiterated {words : List (ℕ × ℕ)} (hled : Led order buf words) :
      (ForEach (updatesNext order (swapped order words buf)) 0 (updatesFirst (swapped order words buf)) (starts 10 d.updates)
          ∧ List.Forall₂ (UpdateFound (swapped order words buf)) (starts 10 d.updates) d.updates) ↔
        (∀ s ∈ d.updates, s.data.Nameless) ∧ Readable order (swapped order words buf) 10 d.updates := by
    have hcount : updatesDefined (swapped order words buf) = d.updates.length := hled.updatesDefined_eq.trans hd.count_eq
    have hfirst : updatesFirst (swapped order words buf) = if d.updates = [] then none else some 10 := by
      rw [updatesFirst, hcount]
      exact if_congr List.length_eq_zero_iff rfl rfl
    rw [hfirst]
    exact iterated_iff ((Nat.zero_add _).trans hcount.symm)
  constructor
  · rintro ⟨buf', hrun, hparts⟩
    obtain ⟨words, hled, rfl⟩ := (atscDccsctSectionCodec_ok_iff h).mp hrun
    obtain ⟨hnames, hreadable⟩ := (hiterated hled).mp hparts
    exact ⟨hnames, words, hled, hreadable⟩
  · rintro ⟨hnames, words, hled, hreadable⟩
    exact ⟨_, (atscDccsctSectionCodec_ok_iff h).mpr ⟨words, hled, rfl⟩, (hiterated hled).mpr ⟨hnames, hreadable⟩⟩

/-- A table with a new genre without a name, and a descriptor of zeros, as `section_ext_decode` leaves it on a
little-endian host. -/
def unnamed : List UInt8 :=
  [0xd4, 0x1d, 0xf0, 0x01, 0x00, 0xc1, 0x00, 0x00, 0x00, 0x01, 0x01, 0x01, 0x20, 0xfc, 0x00, 0xfc, 0x0b, 0x40, 0x09,
    0x00, 0x00, 0x00, 0x00, 0x00, 0x00, 0x00, 0x00, 0x00, 0xaa, 0xbb, 0xcc, 0xdd]

def zeros (size : UInt8) : List UInt8 := 0x40 :: size :: List.replicate size.toNat 0

def unnamedSyntax : DccsctSyntax where
  protocolVersion := 0
  updates := [⟨.newGenre 0x20 .absent, by decide, Fin.last 63, noDescriptors⟩]
  short := by decide
  reserved := Fin.last 63
  descriptors := ⟨[zeros 9], fun _ h => ⟨0x40, 9, List.replicate 9 0, List.mem_singleton.mp h, rfl⟩, by decide⟩

theorem isSection_unnamed : IsSection .little unnamedSyntax unnamed :=
  ⟨by decide, [0xd4, 0x1d, 0xf0, 0x01, 0x00, 0xc1, 0x00, 0x00], [0xaa, 0xbb, 0xcc, 0xdd], rfl, rfl, by decide⟩

theorem dccsct_iff_unnamed :
    (Stays (atscDccsctSectionCodec .little) unnamed ↔ ¬ DccsctSectionOverrun .little unnamed) ∧
      (Parsed .little unnamedSyntax unnamed ↔ unnamedSyntax.Fits .little unnamed) :=
  have h := dccsct_iff .little isSection_unnamed.whole
  ⟨h.1, h.2 unnamedSyntax isSection_unnamed⟩

/-- Its `part2` stands at 13, and the length is read at 26, from the zeros. -/
example : unnamedSyntax.Fits .little unnamed := by
  have hround : Round .little unnamed 28 10 13 15 :=
    ⟨⟨by decide, by decide, ⟨by decide, rfl⟩, by decide⟩, by decide, by decide, by decide, [], .nil⟩
  have hlast : BlockAt Dcct.part2Header unnamed 15 28 ⟨15, [17]⟩ := ⟨rfl, by decide, .cons ⟨rfl, by decide⟩ .nil⟩
  refine ⟨fun s hs => ?_, _, ⟨by decide, _, 15, _, .round hround .done, hlast, rfl⟩, by decide, .inl rfl, trivial⟩
  rw [List.mem_singleton.mp hs]
  rfl

/-- A table with a new genre whose name is a text without strings. -/
def named : List UInt8 :=
  [0xd4, 0x1f, 0xf0, 0x01, 0x00, 0xc1, 0x00, 0x00, 0x00, 0x01, 0x01, 0x02, 0x20, 0x00, 0xfc, 0x00, 0xfc, 0x0c, 0x40,
    0x0a, 0x00, 0x00, 0x00, 0x00, 0x00, 0x00, 0x00, 0x00, 0x00, 0x00, 0xaa, 0xbb, 0xcc, 0xdd]

def namedSyntax : DccsctSyntax where
  protocolVersion := 0
  updates := [⟨.newGenre 0x20 ⟨some ⟨[], by decide⟩, by decide⟩, by decide, Fin.last 63, noDescriptors⟩]
  short := by decide
  reserved := Fin.last 63
  descriptors := ⟨[zeros 10], fun _ h => ⟨0x40, 10, List.replicate 10 0, List.mem_singleton.mp h, rfl⟩, by decide⟩

/-- A table with one update without data, whose `part2` stands at 12: the length is read at 24, behind the section. -/
def oneUpdate : List UInt8 :=
  [0xd4, 0x11, 0xf0, 0x01, 0x00, 0xc1, 0x00, 0x00, 0x00, 0x01, 0x00, 0x00, 0xfc, 0x00, 0xfc, 0x00, 0xaa, 0xbb, 0xcc,
    0xdd]

def oneUpdateSyntax : DccsctSyntax where
  protocolVersion := 0
  updates := [⟨.other 0 (by decide) [], by decide, Fin.last 63, noDescriptors⟩]
  short := by decide
  reserved := Fin.last 63
  descriptors := noDescriptors

/-- The codec leaves the one section; in the other it comes to the end, but the name is not where the accessor says. -/
theorem not_parsed_oneUpdate :
    (IsSection .little oneUpdateSyntax oneUpdate ∧ ¬ Stays (atscDccsctSectionCodec .little) oneUpdate
        ∧ ¬ Parsed .little oneUpdateSyntax oneUpdate)
      ∧ IsSection .little namedSyntax named ∧ newGenreName named 10 = some 11 ∧ ¬ Parsed .little namedSyntax named := by
  have hfault : (atscDccsctSectionCodec .little).run oneUpdate = .error .fault := by decide +kernel
  refine ⟨⟨⟨by decide, ?_⟩, fun hstays => ?_, ?_⟩, ⟨by decide, ?_⟩, by decide, ?_⟩
  · exact ⟨[0xd4, 0x11, 0xf0, 0x01, 0x00, 0xc1, 0x00, 0x00], [0xaa, 0xbb, 0xcc, 0xdd], rfl, rfl, by decide⟩
  · exact absurd (hstays .fault hfault) (by decide)
  · rintro ⟨buf', hrun, -⟩
    rw [hfault] at hrun
    cases hrun
  · exact ⟨[0xd4, 0x1f, 0xf0, 0x01, 0x00, 0xc1, 0x00, 0x00], [0xaa, 0xbb, 0xcc, 0xdd], rfl, rfl, by decide⟩
  · rintro ⟨buf', -, -, hall⟩
    cases hall with
    | cons hs _ =>
      obtain ⟨-, hname⟩ := updateFound_iff.mp hs
      exact List.cons_ne_nil _ _ hname

end BgtDvb.Ucsi.Table.Dccsct
