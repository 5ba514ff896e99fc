import BgtDvb.EsgDecoders

/-!
# What the decoders of an ESG look at

The decoders trust most of the counts and lengths that they read.  Here is what a buffer has to be like so that each of
them comes back and has looked at no byte outside.

* `inside_iff` — **PROVED**: each decoder comes back with bytes of its own only exactly if they lie inside.
-/

namespace BgtDvb.Esg

open CheckedRead

/-- What a `uint32_t` can be the size of. -/
structure Buffer where
  bytes : List UInt8
  size_lt : bytes.length < 2 ^ 32

def Buffer.size (b : Buffer) : ℕ := b.bytes.length

/-! ### Where the parts lie -/

section Layout

variable (b : List UInt8)

def num (i : ℕ) : ℕ := (b.getD i 0).toNat

def num16 (i : ℕ) : ℕ := num b i <<< 8 ||| num b (i + 1)

def num24 (i : ℕ) : ℕ := num b i <<< 16 ||| num b (i + 1) <<< 8 ||| num b (i + 2)

def EncapsulationFits : Prop := b.length ≤ 2 ∨ b.getD 1 0 = 0x21 ∧ 8 ∣ b.length - 2

/-- The values of a field that is `n` bytes long: where the next field is. -/
def valueEnd (encoding n pos : ℕ) : Option ℕ :=
  if encoding = 0x0000 then if pos + n ≤ b.length then some (pos + n) else none
  else if encoding = 0x0101 then if pos + 2 ≤ b.length then some ((pos + n) % 2 ^ 32) else none
  else none

/-- The length of a field, declared or in front of the values, and where the values are. -/
def lengthAt (field : SessionField) (pos : ℕ) : Option (ℕ × ℕ) :=
  if field.length ≠ 0 then some (field.length.toNat, pos) else (numberAt (b.drop pos)).map fun r => (r.2, pos + r.1)

/-- One field of a stream: a value, or two if the fields overlap. -/
def fieldEnd (overlapping : Bool) (field : SessionField) (pos : ℕ) : Option ℕ :=
  (lengthAt b field pos).bind fun r =>
    (if overlapping then valueEnd b field.encoding r.1 r.2 else some r.2).bind fun pos => valueEnd b field.encoding r.1 pos

/-- One stream: the id, two addresses, the port and the session, and the fields. -/
def streamEnd (overlapping ipVersion6 : Bool) (fields : List SessionField) (pos : ℕ) : Option ℕ :=
  if pos + 5 + 2 * ipBytes ipVersion6 ≤ b.length then
    fields.foldlM (fun pos field => fieldEnd b overlapping field pos) (pos + 5 + 2 * ipBytes ipVersion6)
  else none

def StreamsFit (overlapping ipVersion6 : Bool) (fields : List SessionField) : ℕ → ℕ → Prop
  | 0, _ => True
  | n + 1, pos => ∃ pos', streamEnd b overlapping ipVersion6 fields pos = some pos' ∧
      StreamsFit overlapping ipVersion6 fields n pos'

def declaredFields : ℕ → ℕ → List SessionField
  | 0, _ => []
  | n + 1, pos => ⟨num16 b pos, num16 b (pos + 2), b.getD (pos + 4) 0⟩ :: declaredFields n (pos + 5)

/-- The fields do not fit, which is noticed, or the counts of the streams and all streams do. -/
def PartitionFits : Prop :=
  b.length ≤ 2 ∨ b.length < 2 + 5 * num b 0 ∨
    4 + 5 * num b 0 ≤ b.length ∧
      StreamsFit b (high (b.getD 1 0)) (high (b.getD (3 + 5 * num b 0) 0)) (declaredFields b (num b 0) 2)
        (num b (2 + 5 * num b 0)) (4 + 5 * num b 0)

/-- There is a length, which is too long, or both lists with their counts lie inside. -/
def TextualFits : Prop :=
  b.length ≤ 1 ∨ ∃ r, numberAt (b.drop 1) = some r ∧
    (b.length < (1 + r.1 + r.2) % 2 ^ 32 ∨
      ∃ p, p = 2 + r.1 + 4 * num b (1 + r.1) ∧ p < b.length ∧ p + 1 + 4 * num b p ≤ b.length)

/-- The optional parts of the header lie inside, and the decoder init fits. -/
def InitMessageFits : Prop :=
  b.length ≤ 3 ∨ ∃ pos, pos = (if high (b.getD 1 0) then 4 else 3) ∧
    if b.getD 0 0 = 0xF1 then pos + (if high (b.getD pos 0) then 5 else 2) ≤ b.length
    else if b.getD 0 0 = 0xF2 ∨ b.getD 0 0 = 0xF3 then
      pos < b.length ∧ num b 2 ≤ b.length ∧ TextualFits (b.drop (num b 2))
    else True

def StructureFits (part : List UInt8) : StructureKind → Prop
  | .todo | .strings | .repository => True
  | .encapsulation => EncapsulationFits part
  | .partition => PartitionFits part
  | .initMessage => InitMessageFits part

def StructuresFit : ℕ → ℕ → Prop
  | 0, _ => True
  | n + 1, pos => b.length < num24 b (pos + 2) + num24 b (pos + 5) ∨
      ∀ kind, structureKind (b.getD pos 0) (b.getD (pos + 1) 0) = some kind →
        StructureFits (partOf b (num24 b (pos + 2)) (num24 b (pos + 5))) kind ∧ StructuresFit n (pos + 8)

def ContainerFits : Prop := b.length ≤ 1 ∨ b.length < 1 + num b 0 * 8 ∨ StructuresFit b (num b 0) 1

def EntriesFit : ℕ → ℕ → Prop
  | 0, _ => True
  | n + 1, pos => ∃ r, numberAt (b.drop (pos + 1)) = some r ∧
      (b.length < (pos + 1 + r.1 + r.2) % 2 ^ 32 ∨
        ∃ p, p = pos + 1 + r.1 + 7 + 2 * ipBytes (b.getD (pos + 1 + r.1) 0 &&& 0x40 != 0) ∧
          p ≤ b.length ∧ EntriesFit n p)

def AccessFits : Prop := b.length ≤ 2 ∨ EntriesFit b (num16 b 0) 2

end Layout

/-! ### Reads -/

section Reads

variable {γ : Type} {b : List UInt8} {pos n : ℕ}

theorem ends_u8_bind {f : UInt8 → Decode γ} :
    Ends (u8 b pos >>= f) ↔ pos < b.length ∧ Ends (f (b.getD pos 0)) := ends_byte_bind 0

theorem ends_be16_bind {f : ℕ → Decode γ} :
    Ends (be16 b pos >>= f) ↔ pos + 2 ≤ b.length ∧ Ends (f (num16 b pos)) := by
  rw [be16, bind_assoc, ends_u8_bind, bind_assoc, ends_u8_bind]
  constructor
  · rintro ⟨-, hlt, h⟩
    exact ⟨hlt, h⟩
  · rintro ⟨hle, h⟩
    exact ⟨by omega, by omega, h⟩

theorem ends_be24_bind {f : ℕ → Decode γ} :
    Ends (be24 b pos >>= f) ↔ pos + 3 ≤ b.length ∧ Ends (f (num24 b pos)) := by
  rw [be24, bind_assoc, ends_u8_bind, bind_assoc, ends_u8_bind, bind_assoc, ends_u8_bind]
  constructor
  · rintro ⟨-, -, hlt, h⟩
    exact ⟨hlt, h⟩
  · rintro ⟨hle, h⟩
    exact ⟨by omega, by omega, by omega, h⟩

theorem ends_copy_bind {f : List UInt8 → Decode γ} :
    Ends (copy b pos n >>= f) ↔ (n = 0 ∨ pos + n ≤ b.length) ∧ Ends (f ((b.drop pos).take n)) := ends_span_bind

end Reads

/-! ### The encapsulation structure -/

section Encapsulation

variable {b : List UInt8} {format : UInt8} {pos : ℕ}

theorem ends_encapsulationEntry : Ends (encapsulationEntry b format pos) ↔ format = 0x21 ∧ pos + 8 ≤ b.length := by
  unfold encapsulationEntry
  by_cases hformat : format = 0x21
  · rw [if_pos hformat, ends_u8_bind, ends_be24_bind, ends_u8_bind, ends_be24_bind]
    constructor
    · rintro ⟨-, -, -, hle, -⟩
      exact ⟨hformat, hle⟩
    · rintro ⟨-, hle⟩
      exact ⟨by omega, by omega, by omega, by omega, ends_ok _⟩
  · rw [if_neg hformat]
    exact iff_of_false (ends_error _) fun h => hformat h.1

theorem ends_encapsulationEntries (n : ℕ) (hpos : pos + n = b.length) :
    Ends (encapsulationEntries b b.length format pos) ↔ n = 0 ∨ format = 0x21 ∧ 8 ∣ n := by
  induction n using Nat.strong_induction_on generalizing pos with
  | _ n ih =>
    rw [encapsulationEntries]
    by_cases hlt : pos < b.length
    · rw [if_pos hlt, ends_bind_const fun entry => ends_bind_pure, ends_encapsulationEntry, or_iff_right (by omega)]
      constructor
      · rintro ⟨⟨hformat, hle⟩, hrest⟩
        rcases (ih (n - 8) (by omega) (by omega)).mp hrest with hzero | ⟨-, hdvd⟩
        · exact ⟨hformat, by omega⟩
        · exact ⟨hformat, by omega⟩
      · rintro ⟨hformat, hdvd⟩
        exact ⟨⟨hformat, by omega⟩, (ih (n - 8) (by omega) (by omega)).mpr (.inr ⟨hformat, by omega⟩)⟩
    · rw [if_neg hlt]
      exact iff_of_true (ends_ok _) (.inl (by omega))

theorem encapsulation_ends_iff (b : List UInt8) :
    Ends (encapsulationStructureDecode b b.length) ↔ EncapsulationFits b := by
  unfold encapsulationStructureDecode EncapsulationFits
  by_cases hsize : b.length ≤ 2
  · rw [if_pos hsize]
    exact iff_of_true (ends_ok _) (.inl hsize)
  · rw [if_neg hsize, ends_u8_bind, ends_bind_pure, ends_encapsulationEntries (b.length - 2) (by omega),
      or_iff_right (by omega), or_iff_right hsize]
    exact and_iff_right (by omega)

end Encapsulation

/-! ### The repositories -/

theorem stringRepository_ends (b : List UInt8) : Ends (stringRepositoryDecode b b.length) := by
  unfold stringRepositoryDecode
  split
  · exact ends_ok _
  · rw [ends_u8_bind, ends_copy_bind]
    exact ⟨by omega, .inr (by omega), ends_ok _⟩

theorem dataRepository_ends (b : List UInt8) : Ends (dataRepositoryDecode b b.length) := by
  unfold dataRepositoryDecode
  split
  · exact ends_ok _
  · rw [ends_copy_bind]
    exact ⟨.inr (by omega), ends_ok _⟩

/-! ### The textual decoder init -/

theorem ends_pairs {b : List UInt8} {n pos : ℕ} (hpos : pos ≤ b.length) :
    Ends (pairs b n pos) ↔ pos + 4 * n ≤ b.length := by
  induction n generalizing pos with
  | zero => exact iff_of_true (ends_ok _) hpos
  | succ n ih =>
    rw [pairs, ends_be16_bind, ends_be16_bind, ends_bind_pure]
    constructor
    · rintro ⟨-, hle, hrest⟩
      have := (ih (by omega)).mp hrest
      omega
    · intro hle
      exact ⟨by omega, by omega, (ih (by omega)).mpr (by omega)⟩

theorem textual_ends_iff (b : List UInt8) : Ends (textualDecoderInitDecode b b.length) ↔ TextualFits b := by
  unfold textualDecoderInitDecode TextualFits
  by_cases hsize : b.length ≤ 1
  · rw [if_pos hsize]
    exact iff_of_true (ends_ok _) (.inl hsize)
  · rw [if_neg hsize, ends_u8_bind, ends_vluimsbf8_bind (by rw [List.length_drop]), and_iff_right (by omega),
      or_iff_right hsize]
    refine exists_congr fun r => and_congr_right fun _ => ?_
    dsimp only
    by_cases hlong : b.length < (1 + r.1 + r.2) % 2 ^ 32
    · rw [if_pos hlong]
      exact iff_of_true (ends_ok _) (.inl hlong)
    · rw [if_neg hlong, or_iff_right hlong, ends_u8_bind,
        ends_bind_const fun prefixes => ends_u8_bind.trans (and_congr_right' ends_bind_pure)]
      constructor
      · rintro ⟨hcount, hprefixes, hcount', htypes⟩
        refine ⟨_, rfl, ?_, ?_⟩
        · unfold num
          omega
        · have hle := (ends_pairs (by omega)).mp htypes
          unfold num
          rw [show 2 + r.1 = 1 + r.1 + 1 by omega]
          exact hle
      · rintro ⟨p, rfl, hp, hle⟩
        unfold num at hp hle
        rw [show 2 + r.1 = 1 + r.1 + 1 by omega] at hp hle
        exact ⟨by omega, (ends_pairs (by omega)).mpr (by omega), by omega, (ends_pairs (by omega)).mpr hle⟩

/-! ### The init message -/

section InitMessage

variable {b : List UInt8} {pos : ℕ}

theorem minus_of_le {size : ℕ} (hpos : pos ≤ size) (hsize : size < 2 ^ 32) : minus size pos = size - pos := by
  unfold minus
  omega

theorem minus_of_lt {size : ℕ} (hpos : size < pos) (hle : pos < size + 2 ^ 32) :
    minus size pos = size + 2 ^ 32 - pos := by
  unfold minus
  omega

theorem ends_bimParameters : Ends (bimParameters b pos) ↔ pos + (if high (b.getD pos 0) then 5 else 2) ≤ b.length := by
  unfold bimParameters
  rw [ends_u8_bind, ends_u8_bind]
  by_cases hflag : high (b.getD pos 0)
  · rw [if_pos hflag, if_pos hflag, ends_be24_bind]
    exact ⟨fun h => h.2.2.1, fun h => ⟨by omega, by omega, h, ends_ok _⟩⟩
  · rw [if_neg hflag, if_neg hflag]
    exact ⟨fun h => h.2.1, fun h => ⟨by omega, h, ends_ok _⟩⟩

/-- The decoder init behind a pointer of eight bits: one that points behind the message makes the size come round, and the
first byte is outside. -/
theorem ends_decoderInit (hlt : b.length < 2 ^ 32) (ptr : UInt8) :
    Ends (textualDecoderInitDecode (b.drop ptr.toNat) (minus b.length ptr.toNat)) ↔
      ptr.toNat ≤ b.length ∧ TextualFits (b.drop ptr.toNat) := by
  have hptr : ptr.toNat < 2 ^ 8 := ptr.toNat_lt
  rcases Nat.lt_or_ge b.length ptr.toNat with hbehind | hle
  · rw [minus_of_lt hbehind (by omega), textualDecoderInitDecode, if_neg (by omega), ends_u8_bind, List.length_drop]
    exact iff_of_false (by omega) (by omega)
  · rw [minus_of_le hle hlt, ← List.length_drop, textual_ends_iff]
    exact (and_iff_right hle).symm

theorem initMessage_ends_iff (hlt : b.length < 2 ^ 32) : Ends (initMessageDecode b b.length) ↔ InitMessageFits b := by
  unfold initMessageDecode InitMessageFits
  by_cases hsize : b.length ≤ 3
  · rw [if_pos hsize]
    exact iff_of_true (ends_ok _) (.inl hsize)
  · have hversion : Ends (indexingVersion b (high (b.getD 1 0))) := by
      unfold indexingVersion
      split
      · exact ⟨_, byte_inside (by omega) 0⟩
      · exact ends_ok _
    rw [if_neg hsize, ends_u8_bind, ends_u8_bind, ends_u8_bind, or_iff_right hsize, and_iff_right (by omega),
      and_iff_right (by omega), and_iff_right (by omega), ends_bind_const fun version => ends_bind_pure,
      and_iff_right hversion, exists_eq_left]
    unfold encodingDecode
    generalize (if high (b.getD 1 0) then 4 else 3) = pos
    by_cases hbim : b.getD 0 0 = 0xF1
    · rw [if_pos hbim, if_pos hbim, ends_bind_pure, ends_bimParameters]
    · rw [if_neg hbim, if_neg hbim]
      by_cases htext : b.getD 0 0 = 0xF2 ∨ b.getD 0 0 = 0xF3
      · rw [if_pos htext, if_pos htext, ends_u8_bind, ends_bind_pure, ends_decoderInit hlt]
        rfl
      · rw [if_neg htext, if_neg htext]
        exact iff_of_true (ends_ok _) trivial

end InitMessage

/-! ### The session partition declaration -/

section Partition

variable {γ : Type} {b : List UInt8} {pos n : ℕ}

theorem be16_inside (hle : pos + 2 ≤ b.length) : be16 b pos = .ok (num16 b pos) := by
  rw [be16, u8, byte_inside (by omega) 0, u8, byte_inside (by omega) 0]
  rfl

theorem sessionFields_inside (hle : pos + 5 * n ≤ b.length) : sessionFields b n pos = .ok (declaredFields b n pos) := by
  induction n generalizing pos with
  | zero => rfl
  | succ n ih =>
    rw [sessionFields, be16_inside (by omega), be16_inside (by omega), u8, byte_inside (by omega) 0, ih (by omega)]
    rfl

variable {encoding : ℕ} {p : ℕ → Prop} {field : SessionField} {overlapping : Bool}

theorem ends_fieldValue (hzero : n = 0 → pos ≤ b.length) :
    Ends (fieldValue b encoding n pos) ↔ (valueEnd b encoding n pos).isSome := by
  unfold fieldValue valueEnd
  by_cases hstring : encoding = 0x0000
  · rw [if_pos hstring, if_pos hstring, ends_copy_bind, and_iff_left (ends_ok _)]
    by_cases hle : pos + n ≤ b.length
    · rw [if_pos hle]
      exact iff_of_true (.inr hle) rfl
    · rw [if_neg hle]
      exact iff_of_false (by omega) (by simp)
  · rw [if_neg hstring, if_neg hstring]
    by_cases hshort : encoding = 0x0101
    · rw [if_pos hshort, if_pos hshort, ends_be16_bind, and_iff_left (ends_ok _)]
      by_cases hle : pos + 2 ≤ b.length
      · rw [if_pos hle]
        exact iff_of_true hle rfl
      · rw [if_neg hle]
        exact iff_of_false hle (by simp)
    · rw [if_neg hshort, if_neg hshort]
      exact iff_of_false (ends_error _) (by simp)

theorem valueEnd_eq {pos' : ℕ} (hlt : b.length < 2 ^ 32) (h : valueEnd b encoding n pos = some pos') :
    pos' = (pos + n) % 2 ^ 32 := by
  unfold valueEnd at h
  split_ifs at h with hstring hle hshort hle
  · rw [← Option.some.inj h]
    exact (Nat.mod_eq_of_lt (by omega)).symm
  · exact (Option.some.inj h).symm

theorem ends_fieldValue_bind (hlt : b.length < 2 ^ 32) (hzero : n = 0 → pos ≤ b.length) {f : FieldValue → Decode γ}
    (hf : ∀ value, Ends (f value) ↔ p ((pos + n) % 2 ^ 32)) :
    Ends (fieldValue b encoding n pos >>= f) ↔ ∃ pos', valueEnd b encoding n pos = some pos' ∧ p pos' := by
  rw [ends_bind_const hf, ends_fieldValue hzero, Option.isSome_iff_exists]
  constructor
  · rintro ⟨⟨pos', hend⟩, hp⟩
    exact ⟨pos', hend, valueEnd_eq hlt hend ▸ hp⟩
  · rintro ⟨pos', hend, hp⟩
    exact ⟨⟨pos', hend⟩, valueEnd_eq hlt hend ▸ hp⟩

theorem lengthAt_zero {r : ℕ × ℕ} (h : lengthAt b field pos = some r) (hzero : r.1 = 0) : r.2 ≤ b.length := by
  unfold lengthAt at h
  split_ifs at h with hfield
  · rw [← Option.some.inj h] at hzero
    exact absurd (UInt8.toNat_inj.mp hzero) hfield
  · obtain ⟨s, hs, rfl⟩ := Option.map_eq_some_iff.mp h
    have hle := numberAt_le hs
    have hlt := (numberAt_eq_some hs).1
    rw [List.length_drop] at hle hlt
    dsimp only
    omega

theorem ends_fieldLength_bind (hlt : b.length < 2 ^ 32) {f : ℕ × ℕ → Decode γ} :
    Ends (fieldLength b b.length field pos >>= f) ↔ ∃ r, lengthAt b field pos = some r ∧ Ends (f r) := by
  unfold fieldLength lengthAt
  by_cases hfield : field.length ≠ 0
  · rw [if_pos hfield, if_pos hfield]
    simp only [Option.some.injEq, exists_eq_left']
    rfl
  · rw [if_neg hfield, if_neg hfield, bind_assoc, ends_vluimsbf8_bind]
    · constructor
      · rintro ⟨r, hr, h⟩
        have hle := numberAt_le hr
        have hne := (numberAt_eq_some hr).1
        rw [List.length_drop] at hle hne
        refine ⟨(r.2, pos + r.1), by rw [hr]; rfl, ?_⟩
        rw [Nat.mod_eq_of_lt (by omega)] at h
        exact h
      · rintro ⟨r', hr', h⟩
        obtain ⟨r, hr, rfl⟩ := Option.map_eq_some_iff.mp hr'
        have hle := numberAt_le hr
        have hne := (numberAt_eq_some hr).1
        rw [List.length_drop] at hle hne
        refine ⟨r, hr, ?_⟩
        rw [Nat.mod_eq_of_lt (by omega)]
        exact h
    · rw [List.length_drop]
      unfold minus
      omega

theorem exists_bind_iff {o : Option ℕ} {next : ℕ → Option ℕ} :
    (∃ q, o = some q ∧ ∃ pos', next q = some pos' ∧ p pos') ↔ ∃ pos', o.bind next = some pos' ∧ p pos' := by
  cases o with
  | none => simp
  | some q => simp

theorem ends_values_bind (hlt : b.length < 2 ^ 32) (hzero : n = 0 → pos ≤ b.length) {f : IpStreamField × ℕ → Decode γ}
    (hf : ∀ value pos', Ends (f (value, pos')) ↔ p pos') :
    Ends (ipStreamValues b overlapping encoding n pos >>= f) ↔
      ∃ pos', ((if overlapping then valueEnd b encoding n pos else some pos).bind fun pos => valueEnd b encoding n pos) =
        some pos' ∧ p pos' := by
  unfold ipStreamValues
  cases overlapping with
  | false =>
    simp only [Bool.false_eq_true, if_false, Option.bind_some, bind_assoc]
    exact ends_fieldValue_bind hlt hzero fun value => hf _ _
  | true =>
    simp only [if_true, bind_assoc]
    -- the second value starts where the first one ends
    have hsecond : ∀ start, Ends (fieldValue b encoding n ((pos + n) % 2 ^ 32) >>= fun value =>
        Except.ok (⟨some start, value⟩, ((pos + n) % 2 ^ 32 + n) % 2 ^ 32) >>= f) ↔
        ∃ pos', valueEnd b encoding n ((pos + n) % 2 ^ 32) = some pos' ∧ p pos' := by
      intro start
      refine ends_fieldValue_bind hlt (fun hn => ?_) fun value => hf _ _
      have hpos := hzero hn
      rw [hn]
      exact (Nat.mod_le _ _).trans hpos
    rw [ends_fieldValue_bind (p := fun q => ∃ pos', valueEnd b encoding n q = some pos' ∧ p pos') hlt hzero hsecond]
    exact exists_bind_iff

theorem ends_ipStreamField_bind (hlt : b.length < 2 ^ 32) {f : IpStreamField × ℕ → Decode γ}
    (hf : ∀ value pos', Ends (f (value, pos')) ↔ p pos') :
    Ends (ipStreamField b b.length overlapping field pos >>= f) ↔
      ∃ pos', fieldEnd b overlapping field pos = some pos' ∧ p pos' := by
  unfold ipStreamField fieldEnd
  rw [bind_assoc, ends_fieldLength_bind hlt]
  constructor
  · rintro ⟨r, hr, h⟩
    obtain ⟨pos', hpos', hp⟩ := (ends_values_bind hlt (lengthAt_zero hr) hf).mp h
    exact ⟨pos', by rw [hr]; exact hpos', hp⟩
  · rintro ⟨pos', hbind, hp⟩
    obtain ⟨r, hr, hpos'⟩ := Option.bind_eq_some_iff.mp hbind
    exact ⟨r, hr, (ends_values_bind hlt (lengthAt_zero hr) hf).mpr ⟨pos', hpos', hp⟩⟩

theorem ends_ipStreamFields_bind (hlt : b.length < 2 ^ 32) (fields : List SessionField)
    {f : List IpStreamField × ℕ → Decode γ} (hf : ∀ values pos', Ends (f (values, pos')) ↔ p pos') :
    Ends (ipStreamFields b b.length overlapping fields pos >>= f) ↔
      ∃ pos', fields.foldlM (fun pos field => fieldEnd b overlapping field pos) pos = some pos' ∧ p pos' := by
  induction fields generalizing pos f with
  | nil =>
    rw [ipStreamFields]
    simp only [List.foldlM_nil, Option.pure_def, Option.some.injEq, exists_eq_left']
    exact hf [] pos
  | cons field fields ih =>
    rw [ipStreamFields, bind_assoc, List.foldlM_cons, ends_ipStreamField_bind hlt fun first pos' => by
      rw [bind_assoc]
      exact ih fun rest pos'' => hf (first :: rest) pos'']
    exact exists_bind_iff

theorem ends_ipStreams (hlt : b.length < 2 ^ 32) {ipVersion6 : Bool} (fields : List SessionField) :
    Ends (ipStreams b b.length overlapping ipVersion6 fields n pos) ↔
      StreamsFit b overlapping ipVersion6 fields n pos := by
  induction n generalizing pos with
  | zero => exact iff_of_true (ends_ok _) trivial
  | succ n ih =>
    have hip : ipBytes ipVersion6 ≠ 0 := by cases ipVersion6 <;> decide
    rw [ipStreams, StreamsFit]
    unfold streamEnd
    dsimp only
    rw [ends_u8_bind, ends_copy_bind, ends_copy_bind, ends_be16_bind, ends_be16_bind,
      ends_ipStreamFields_bind hlt fields fun values pos' => ends_bind_pure.trans ih]
    by_cases hle : pos + 5 + 2 * ipBytes ipVersion6 ≤ b.length
    · rw [if_pos hle, and_iff_right (by omega), and_iff_right (by omega), and_iff_right (by omega), and_iff_right (by omega),
        and_iff_right (by omega), show pos + 5 + 2 * ipBytes ipVersion6 = pos + (5 + 2 * ipBytes ipVersion6) by omega]
    · rw [if_neg hle]
      exact iff_of_false (fun h => by omega) fun ⟨pos', h, _⟩ => by cases h

theorem partition_ends_iff (hlt : b.length < 2 ^ 32) :
    Ends (sessionPartitionDeclarationDecode b b.length) ↔ PartitionFits b := by
  unfold sessionPartitionDeclarationDecode PartitionFits
  by_cases hsize : b.length ≤ 2
  · rw [if_pos hsize]
    exact iff_of_true (ends_ok _) (.inl hsize)
  · rw [if_neg hsize, or_iff_right hsize, ends_u8_bind, ends_u8_bind, and_iff_right (by omega), and_iff_right (by omega)]
    show Ends (if b.length < 2 + 5 * num b 0 then _ else _) ↔ _
    by_cases hfields : b.length < 2 + 5 * num b 0
    · rw [if_pos hfields]
      exact iff_of_true (ends_ok _) (.inl hfields)
    · have hinside : sessionFields b (num b 0) 2 = .ok (declaredFields b (num b 0) 2) := sessionFields_inside (by omega)
      rw [if_neg hfields, or_iff_right hfields]
      show Ends (sessionFields b (num b 0) 2 >>= _) ↔ _
      rw [hinside]
      show Ends (u8 b (2 + 5 * num b 0) >>= _) ↔ _
      have hnum : (b.getD 0 0).toNat = num b 0 := rfl
      rw [ends_u8_bind, ends_u8_bind, ends_bind_pure, ends_ipStreams hlt, ← and_assoc, hnum,
        show 2 + 5 * num b 0 + 1 = 3 + 5 * num b 0 by omega, show 2 + 5 * num b 0 + 2 = 4 + 5 * num b 0 by omega]
      exact and_congr_left' (by omega)

end Partition

/-! ### The container -/

section Container

variable {b : List UInt8} {pos n : ℕ}

theorem ends_map {α β : Type} {c : Decode α} {g : α → β} : Ends (g <$> c) ↔ Ends c := by
  rw [map_eq_pure_bind]
  exact ends_bind_pure

theorem structure_ends_iff (part : List UInt8) (hlt : part.length < 2 ^ 32) (kind : StructureKind) :
    Ends (structureDecode kind part part.length) ↔ StructureFits part kind := by
  unfold structureDecode StructureFits
  cases kind with
  | todo => exact iff_of_true (ends_ok _) trivial
  | encapsulation => exact ends_map.trans (encapsulation_ends_iff part)
  | strings => exact iff_of_true (ends_map.mpr (stringRepository_ends part)) trivial
  | repository => exact iff_of_true (ends_map.mpr (dataRepository_ends part)) trivial
  | partition => exact ends_map.trans (partition_ends_iff hlt)
  | initMessage => exact ends_map.trans (initMessage_ends_iff hlt)

theorem length_partOf {ptr length : ℕ} (hle : ptr + length ≤ b.length) : (partOf b ptr length).length = length := by
  rw [partOf, List.length_take, List.length_drop]
  omega

theorem ends_containerStructures (hlt : b.length < 2 ^ 32) (hle : pos + 8 * n ≤ b.length) :
    Ends (containerStructures b b.length n pos) ↔ StructuresFit b n pos := by
  induction n generalizing pos with
  | zero => exact iff_of_true (ends_ok _) trivial
  | succ n ih =>
    rw [containerStructures, StructuresFit, ends_u8_bind, ends_u8_bind, ends_be24_bind, ends_be24_bind,
      and_iff_right (by omega), and_iff_right (by omega), and_iff_right (by omega), and_iff_right (by omega)]
    by_cases hlong : b.length < num24 b (pos + 2) + num24 b (pos + 5)
    · rw [if_pos hlong]
      exact iff_of_true (ends_ok _) (.inl hlong)
    · have hpart : (partOf b (num24 b (pos + 2)) (num24 b (pos + 5))).length = num24 b (pos + 5) :=
        length_partOf (by omega)
      rw [if_neg hlong, or_iff_right hlong]
      cases hkind : structureKind (b.getD pos 0) (b.getD (pos + 1) 0) with
      | none => exact iff_of_true (ends_ok _) fun kind hk => by cases hk
      | some kind =>
        have hdecode := structure_ends_iff (partOf b (num24 b (pos + 2)) (num24 b (pos + 5))) (by omega) kind
        rw [hpart] at hdecode
        rw [ends_bind_const fun data => ends_bind_pure, hdecode, ih (by omega)]
        simp only [Option.some.injEq, forall_eq']

theorem container_ends_iff (hlt : b.length < 2 ^ 32) : Ends (containerDecode b b.length) ↔ ContainerFits b := by
  unfold containerDecode ContainerFits
  by_cases hsize : b.length ≤ 1
  · rw [if_pos hsize]
    exact iff_of_true (ends_ok _) (.inl hsize)
  · rw [if_neg hsize, or_iff_right hsize, ends_u8_bind, and_iff_right (by omega)]
    show Ends (if b.length < 1 + num b 0 * 8 then _ else _) ↔ _
    by_cases hcount : b.length < 1 + num b 0 * 8
    · rw [if_pos hcount]
      exact iff_of_true (ends_ok _) (.inl hcount)
    · rw [if_neg hcount, or_iff_right hcount]
      refine (ends_bind_const (p := True) fun structures => ?_).trans ?_
      · cases structures with
        | none => exact iff_of_true (ends_ok _) trivial
        | some structures =>
          refine iff_of_true (ends_copy_bind.mpr ⟨.inr ?_, ends_ok _⟩) trivial
          show 1 + num b 0 * 8 + (b.length - (1 + num b 0 * 8)) ≤ b.length
          omega
      · rw [and_iff_left trivial]
        exact ends_containerStructures hlt (by unfold num at *; omega)

end Container

/-! ### The access descriptor -/

section Access

variable {b : List UInt8} {pos n : ℕ}

theorem ends_accessEntries (hlt : b.length < 2 ^ 32) : Ends (accessEntries b b.length n pos) ↔ EntriesFit b n pos := by
  induction n generalizing pos with
  | zero => exact iff_of_true (ends_ok _) trivial
  | succ n ih =>
    have hminus : (b.drop (pos + 1)).length ≤ minus b.length (pos + 1) := by
      rw [List.length_drop]
      unfold minus
      omega
    rw [accessEntries, EntriesFit, ends_u8_bind, ends_vluimsbf8_bind hminus]
    -- a number in front of the entry means that its version lies inside
    have hinside : ∀ r, numberAt (b.drop (pos + 1)) = some r → pos < b.length := by
      intro r hr
      have hne := (numberAt_eq_some hr).1
      rw [List.length_drop] at hne
      omega
    refine (and_iff_right_of_imp fun ⟨r, hr, _⟩ => hinside r hr).trans ?_
    refine exists_congr fun r => and_congr_right fun hr => ?_
    dsimp only
    by_cases hlong : b.length < (pos + 1 + r.1 + r.2) % 2 ^ 32
    · rw [if_pos hlong]
      exact iff_of_true (ends_ok _) (.inl hlong)
    · rw [if_neg hlong, or_iff_right hlong, exists_eq_left, ends_u8_bind, ends_be16_bind, ends_copy_bind, ends_copy_bind,
        ends_be16_bind, ends_be16_bind, ends_bind_pure, ih]
      generalize ipBytes (b.getD (pos + 1 + r.1) 0 &&& 0x40 != 0) = ip
      constructor
      · rintro ⟨-, -, -, -, -, hle, hrest⟩
        exact ⟨by omega, hrest⟩
      · rintro ⟨hle, hrest⟩
        exact ⟨by omega, by omega, .inr (by omega), .inr (by omega), by omega, by omega, hrest⟩

theorem access_ends_iff (hlt : b.length < 2 ^ 32) : Ends (accessDescriptorDecode b b.length) ↔ AccessFits b := by
  unfold accessDescriptorDecode AccessFits
  by_cases hsize : b.length ≤ 2
  · rw [if_pos hsize]
    exact iff_of_true (ends_ok _) (.inl hsize)
  · rw [if_neg hsize, or_iff_right hsize, ends_be16_bind, and_iff_right (by omega), ends_bind_pure, ends_accessEntries hlt]

end Access

/-! ### The library -/

/-- What the functions of the library should do on a buffer: each comes back and has looked at no byte outside, and a number
of variable length is told or refused. -/
structure Inside (b : Buffer) : Prop where
  number : VluRight b.bytes
  encapsulation : Ends (encapsulationStructureDecode b.bytes b.size)
  partition : Ends (sessionPartitionDeclarationDecode b.bytes b.size)
  textual : Ends (textualDecoderInitDecode b.bytes b.size)
  initMessage : Ends (initMessageDecode b.bytes b.size)
  container : Ends (containerDecode b.bytes b.size)
  access : Ends (accessDescriptorDecode b.bytes b.size)

/-- **Each function of the library keeps inside its buffer exactly if** the parts that the bytes tell of lie there. -/
theorem inside_iff (b : Buffer) :
    (VluRight b.bytes ↔ NumberFits b.bytes) ∧
    (Ends (encapsulationStructureDecode b.bytes b.size) ↔ EncapsulationFits b.bytes) ∧
    (Ends (sessionPartitionDeclarationDecode b.bytes b.size) ↔ PartitionFits b.bytes) ∧
    (Ends (textualDecoderInitDecode b.bytes b.size) ↔ TextualFits b.bytes) ∧
    (Ends (initMessageDecode b.bytes b.size) ↔ InitMessageFits b.bytes) ∧
    (Ends (containerDecode b.bytes b.size) ↔ ContainerFits b.bytes) ∧
    (Ends (accessDescriptorDecode b.bytes b.size) ↔ AccessFits b.bytes) :=
  ⟨vluRight_iff b.bytes, encapsulation_ends_iff b.bytes, partition_ends_iff b.size_lt, textual_ends_iff b.bytes,
    initMessage_ends_iff b.size_lt, container_ends_iff b.size_lt, access_ends_iff b.size_lt⟩

/-- A container with an encapsulation structure whose only entry has one byte. -/
def shortEntry : Buffer := ⟨[1, 0x01, 0x00, 0, 0, 9, 0, 0, 3, 0, 0x21, 0], by decide⟩

/-- The entry is read as if it had eight bytes. -/
theorem not_inside_shortEntry : ¬ Inside shortEntry := by
  intro h
  rcases (container_ends_iff shortEntry.size_lt).mp h.container with hsize | hcount | hfits
  · exact absurd hsize (by decide)
  · exact absurd hcount (by decide)
  · rcases hfits with hlong | hkind
    · exact absurd hlong (by decide)
    · rcases (hkind .encapsulation rfl).1 with hsmall | ⟨-, hdvd⟩
      · exact absurd hsmall (by decide)
      · exact absurd hdvd (by decide)

end BgtDvb.Esg
