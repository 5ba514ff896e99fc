import Mathlib
import BgtDvb.Lib.CheckedRead

/-!
# Numbers of variable length in an ESG

`libesg/types.c`: a number is written seven bits a byte, the highest first, and every byte but the last has its high bit
set.  `vluimsbf8` reads one from the front of a buffer; it counts the bytes in eight bits and collects the number in 32, and
lets a byte at the end of the buffer pass.

* `vluRight_iff` — **PROVED**: when the function stays inside the buffer and tells the number.
-/

namespace BgtDvb.Esg

open CheckedRead

/-! ### The source -/

/-- A byte outside of what a decoder was given, a block that is freed twice or a `NULL` that is followed, a loop that goes
on and on. -/
inductive Fault where
  | outside
  | badFree
  | endless
  deriving Repr, DecidableEq

abbrev Decode := Except Fault

def high (x : UInt8) : Bool := x &&& 0x80 != 0

/-- The loop of `vluimsbf8`; the offset it returns with `*length`. -/
def vluLoop (buffer : List UInt8) (size : ℕ) : ℕ → ℕ → ℕ → Decode (ℕ × ℕ)
  | 0, _, _ => .error .endless
  | rounds + 1, offset, length =>
    if size < offset then .ok (0, 0)
    else do
      let x ← byte .outside buffer offset
      let length := (length <<< 7 % 2 ^ 32 + (x &&& 0x7F).toNat) % 2 ^ 32
      if high x then vluLoop buffer size rounds ((offset + 1) % 2 ^ 8) length
      else .ok ((offset + 1) % 2 ^ 8, length)

/-- After 256 rounds `offset` has been at every place it can be at. -/
def vluimsbf8 (buffer : List UInt8) (size : ℕ) : Decode (ℕ × ℕ) := vluLoop buffer size 256 0 0

/-! ### Numbers -/

def valueOf (xs : List UInt8) : ℕ := xs.foldl (fun v x => v * 128 + (x &&& 0x7F).toNat) 0

def IsNumber (xs : List UInt8) : Prop := ∃ lead last, xs = lead ++ [last] ∧ (∀ x ∈ lead, high x) ∧ ¬ high last

/-- The number at the front, if it has at most 256 bytes: their count in eight bits, and the value in 32. -/
def numberAt (b : List UInt8) : Option (ℕ × ℕ) :=
  let n := (b.takeWhile high).length
  if n < b.length ∧ n < 2 ^ 8 then some ((n + 1) % 2 ^ 8, valueOf (b.take (n + 1)) % 2 ^ 32) else none

/-- The function comes back, has looked at bytes of the buffer only, and tells a number at the front or signals failure. -/
def VluRight (b : List UInt8) : Prop :=
  ∃ rounds offset length, vluLoop b b.length rounds 0 0 = .ok (offset, length) ∧
    (offset = 0 ∨ IsNumber (b.take offset) ∧ length = valueOf (b.take offset))

/-- There is a number at the front, of at most 256 bytes, which fits into 32 bits or has exactly 256 bytes. -/
def NumberFits (b : List UInt8) : Prop :=
  ∃ xs rest, b = xs ++ rest ∧ IsNumber xs ∧ xs.length ≤ 256 ∧ (xs.length = 256 ∨ valueOf xs < 2 ^ 32)

theorem valueOf_append (xs : List UInt8) (x : UInt8) : valueOf (xs ++ [x]) = valueOf xs * 128 + (x &&& 0x7F).toNat := by
  rw [valueOf, valueOf, List.foldl_append]
  rfl

/-! ### The loop -/

section Loop

variable {b : List UInt8} {size : ℕ} {rounds offset length : ℕ}

theorem shift_mod (v d : ℕ) : ((v % 2 ^ 32) <<< 7 % 2 ^ 32 + d) % 2 ^ 32 = (v * 128 + d) % 2 ^ 32 := by
  rw [Nat.shiftLeft_eq]
  omega

theorem high_of_lt_lead (h : offset < (b.takeWhile high).length) : high (b.getD offset 0) := by
  have hlt : offset < b.length := lt_of_lt_of_le h (List.takeWhile_prefix _).length_le
  have hmem : (b.takeWhile high)[offset] ∈ b.takeWhile high := List.getElem_mem h
  rw [List.getD_eq_getElem _ _ hlt]
  have heq : (b.takeWhile high)[offset] = b[offset] := (List.takeWhile_prefix high).getElem h
  exact heq ▸ List.mem_takeWhile_imp hmem

theorem low_at_lead (h : (b.takeWhile high).length < b.length) : ¬ high (b.getD (b.takeWhile high).length 0) := by
  induction b with
  | nil => exact absurd h (Nat.lt_irrefl 0)
  | cons x b ih =>
    by_cases hx : high x
    · rw [List.takeWhile_cons_of_pos hx, List.length_cons] at h ⊢
      rw [List.getD_cons_succ]
      exact ih (Nat.lt_of_succ_lt_succ h)
    · rw [List.takeWhile_cons_of_neg hx, List.length_nil, List.getD_cons_zero]
      exact hx

theorem vluLoop_succ (hsize : b.length ≤ size) (hlt : offset < b.length) :
    vluLoop b size (rounds + 1) offset length =
      if high (b.getD offset 0) then vluLoop b size rounds ((offset + 1) % 2 ^ 8)
        ((length <<< 7 % 2 ^ 32 + (b.getD offset 0 &&& 0x7F).toNat) % 2 ^ 32)
      else .ok ((offset + 1) % 2 ^ 8, (length <<< 7 % 2 ^ 32 + (b.getD offset 0 &&& 0x7F).toNat) % 2 ^ 32) := by
  rw [vluLoop, if_neg (by omega), byte_inside hlt 0]
  rfl

theorem length_succ (hlt : offset < b.length) (hlength : length = valueOf (b.take offset) % 2 ^ 32) :
    (length <<< 7 % 2 ^ 32 + (b.getD offset 0 &&& 0x7F).toNat) % 2 ^ 32 = valueOf (b.take (offset + 1)) % 2 ^ 32 := by
  have htake : b.take (offset + 1) = b.take offset ++ [b.getD offset 0] := by
    rw [List.take_succ_eq_append_getElem hlt, List.getD_eq_getElem _ _ hlt]
  rw [hlength, shift_mod, htake, valueOf_append]

/-- **A number at the front** is read in as many rounds as it has bytes, and not before. -/
theorem vluLoop_number (hsize : b.length ≤ size) (hn : n = (b.takeWhile high).length) (hlt : n < b.length)
    (hle : n < 2 ^ 8) (hoffset : offset ≤ n) (hlength : length = valueOf (b.take offset) % 2 ^ 32) :
    vluLoop b size rounds offset length =
      if n < offset + rounds then .ok ((n + 1) % 2 ^ 8, valueOf (b.take (n + 1)) % 2 ^ 32) else .error .endless := by
  induction rounds generalizing offset length with
  | zero => rw [vluLoop, if_neg (by omega)]
  | succ rounds ih =>
    rw [vluLoop_succ hsize (by omega), length_succ (by omega) hlength]
    rcases Nat.lt_or_eq_of_le hoffset with hlead | rfl
    · rw [if_pos (high_of_lt_lead (hn ▸ hlead)), Nat.mod_eq_of_lt (by omega), ih (by omega) rfl]
      exact if_congr (by omega) rfl rfl
    · have hlow : ¬ high (b.getD offset 0) := by
        rw [hn]
        exact low_at_lead (hn ▸ hlt)
      rw [if_neg hlow, if_pos (by omega)]

theorem vluLoop_start (hsize : b.length ≤ size) (hlt : (b.takeWhile high).length < b.length)
    (hle : (b.takeWhile high).length < 2 ^ 8) :
    vluLoop b size rounds 0 0 =
      if (b.takeWhile high).length < 0 + rounds then
        .ok (((b.takeWhile high).length + 1) % 2 ^ 8, valueOf (b.take ((b.takeWhile high).length + 1)) % 2 ^ 32)
      else .error .endless :=
  vluLoop_number hsize rfl hlt hle (Nat.zero_le _) rfl

/-- **No number at the front**, and fewer than 256 bytes: the loop runs over the end. -/
theorem vluLoop_over (hsize : b.length ≤ size) (hall : b.length = (b.takeWhile high).length) (hle : b.length < 2 ^ 8)
    (hoffset : offset ≤ b.length) : ¬ Ends (vluLoop b size rounds offset length) := by
  induction rounds generalizing offset length with
  | zero => exact ends_error _
  | succ rounds ih =>
    rcases Nat.lt_or_eq_of_le hoffset with hlt | rfl
    · rw [vluLoop_succ hsize hlt, if_pos (high_of_lt_lead (hall ▸ hlt)), Nat.mod_eq_of_lt (by omega)]
      exact ih (by omega)
    · rw [vluLoop, if_neg (by omega), byte_outside (Nat.le_refl _)]
      exact ends_error _

/-- **256 bytes that go on**: the offset comes round. -/
theorem vluLoop_round (hsize : b.length ≤ size) (hlead : 2 ^ 8 ≤ (b.takeWhile high).length) (hoffset : offset < 2 ^ 8) :
    ¬ Ends (vluLoop b size rounds offset length) := by
  have hle : (b.takeWhile high).length ≤ b.length := (List.takeWhile_prefix _).length_le
  induction rounds generalizing offset length with
  | zero => exact ends_error _
  | succ rounds ih =>
    rw [vluLoop_succ hsize (by omega), if_pos (high_of_lt_lead (by omega))]
    exact ih (Nat.mod_lt _ (by decide))

/-! ### The function -/

theorem numberAt_eq_some (h : numberAt b = some r) :
    (b.takeWhile high).length < b.length ∧ (b.takeWhile high).length < 2 ^ 8 ∧
      r = (((b.takeWhile high).length + 1) % 2 ^ 8, valueOf (b.take ((b.takeWhile high).length + 1)) % 2 ^ 32) := by
  unfold numberAt at h
  dsimp only at h
  split_ifs at h with hn
  exact ⟨hn.1, hn.2, (Option.some.inj h).symm⟩

theorem numberAt_of_vluLoop (hsize : b.length ≤ size) (h : vluLoop b size rounds 0 0 = .ok r) :
    numberAt b = some r := by
  have hle : (b.takeWhile high).length ≤ b.length := (List.takeWhile_prefix _).length_le
  by_cases hround : 2 ^ 8 ≤ (b.takeWhile high).length
  · exact absurd ⟨r, h⟩ (vluLoop_round hsize hround (by decide))
  · rcases Nat.lt_or_eq_of_le hle with hlt | hall
    · rw [vluLoop_start hsize hlt (by omega)] at h
      split_ifs at h with hrounds
      rw [numberAt, if_pos ⟨hlt, by omega⟩]
      exact congrArg some (Except.ok.inj h)
    · exact absurd ⟨r, h⟩ (vluLoop_over hsize hall.symm (by omega) (Nat.zero_le _))

theorem vluimsbf8_of_numberAt (hsize : b.length ≤ size) (h : numberAt b = some r) : vluimsbf8 b size = .ok r := by
  obtain ⟨hlt, hle, rfl⟩ := numberAt_eq_some h
  rw [vluimsbf8, vluLoop_start hsize hlt hle, if_pos (by omega)]

theorem vluimsbf8_eq_ok (hsize : b.length ≤ size) : vluimsbf8 b size = .ok r ↔ numberAt b = some r :=
  ⟨numberAt_of_vluLoop hsize, vluimsbf8_of_numberAt hsize⟩

theorem ends_vluimsbf8_bind (hsize : b.length ≤ size) {f : ℕ × ℕ → Decode γ} :
    Ends (vluimsbf8 b size >>= f) ↔ ∃ r, numberAt b = some r ∧ Ends (f r) := by
  rw [ends_bind]
  exact exists_congr fun r => and_congr_left' (vluimsbf8_eq_ok hsize)

theorem numberAt_le (h : numberAt b = some r) : r.1 ≤ b.length := by
  obtain ⟨hlt, -, rfl⟩ := numberAt_eq_some h
  exact (Nat.mod_le _ _).trans hlt

/-! ### When it is right -/

theorem takeWhile_number {lead rest : List UInt8} {last : UInt8} (hlead : ∀ x ∈ lead, high x) (hlast : ¬ high last) :
    (lead ++ [last] ++ rest).takeWhile high = lead := by
  rw [List.append_assoc, List.takeWhile_append_of_pos hlead, List.singleton_append, List.takeWhile_cons_of_neg hlast,
    List.append_nil]

theorem isNumber_take (h : (b.takeWhile high).length < b.length) : IsNumber (b.take ((b.takeWhile high).length + 1)) := by
  refine ⟨b.takeWhile high, b.getD (b.takeWhile high).length 0, ?_, fun x hx => List.mem_takeWhile_imp hx, low_at_lead h⟩
  rw [List.take_succ_eq_append_getElem h, List.getD_eq_getElem _ _ h]
  rw [← List.prefix_iff_eq_take.mp (List.takeWhile_prefix high)]

end Loop

/-- **`vluimsbf8` comes back, looks at bytes of its buffer only, and tells the number or signals failure exactly if** there
is a number of at most 256 bytes at the front that fits into 32 bits, or has 256 bytes. -/
theorem vluRight_iff (b : List UInt8) : VluRight b ↔ NumberFits b := by
  constructor
  · rintro ⟨rounds, offset, length, hloop, hright⟩
    obtain ⟨hlt, hle, hr⟩ := numberAt_eq_some (numberAt_of_vluLoop (Nat.le_refl _) hloop)
    obtain ⟨hoffset, hlength⟩ := Prod.mk.inj hr
    refine ⟨b.take ((b.takeWhile high).length + 1), b.drop ((b.takeWhile high).length + 1), (List.take_append_drop _ b).symm,
      isNumber_take hlt, ?_, ?_⟩
    · rw [List.length_take]
      omega
    · rcases hright with hzero | ⟨-, hvalue⟩
      · left
        rw [List.length_take]
        omega
      · by_cases hfull : (b.takeWhile high).length + 1 = 256
        · left
          rw [List.length_take]
          omega
        · right
          have hmod : offset = (b.takeWhile high).length + 1 := by rw [hoffset, Nat.mod_eq_of_lt (by omega)]
          rw [hmod] at hvalue
          rw [← hvalue, hlength]
          exact Nat.mod_lt _ (by decide)
  · rintro ⟨xs, rest, rfl, ⟨lead, last, rfl, hlead, hlast⟩, hle, hfits⟩
    have htake : (lead ++ [last] ++ rest).takeWhile high = lead := takeWhile_number hlead hlast
    have hfront : (lead ++ [last] ++ rest).take (lead.length + 1) = lead ++ [last] := by
      rw [List.take_append_of_le_length (by simp)]
      exact List.take_of_length_le (by simp)
    have hlength : (lead ++ [last]).length = lead.length + 1 := by simp
    have hnumber : numberAt (lead ++ [last] ++ rest) =
        some ((lead.length + 1) % 2 ^ 8, valueOf (lead ++ [last]) % 2 ^ 32) := by
      rw [numberAt, htake, hfront, if_pos ⟨by simp, by omega⟩]
    refine ⟨256, _, _, vluimsbf8_of_numberAt (Nat.le_refl _) hnumber, ?_⟩
    by_cases hfull : lead.length + 1 = 256
    · exact .inl (by omega)
    · right
      rw [Nat.mod_eq_of_lt (by omega), hfront]
      exact ⟨⟨lead, last, rfl, hlead, hlast⟩, Nat.mod_eq_of_lt (hfits.resolve_left (by omega))⟩

end BgtDvb.Esg
