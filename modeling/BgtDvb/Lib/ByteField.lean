import Mathlib

/-!
# Fields of a register

A register of eight bits is cut into fields.  Drivers change a field with a macro that clears it and ors
the value in at its place; the value itself is not masked.

* `ByteField`, `ByteField.of` — a field, inside its register, and one that is written down;
* `ByteField.set`, `ByteField.get` — the macros;
* `sound_iff` — **PROVED**: that is so exactly for the values that fit.

Nothing here names a particular register.
-/

namespace BgtDvb

/-- A field, by the position of its lowest bit and the number of its bits. -/
structure ByteField where
  offset : ℕ
  width : ℕ
  inside : offset + width ≤ 8
deriving DecidableEq

namespace ByteField

/-- A field that is checked where it is written down. -/
def of (offset width : ℕ) (h : (offset + width).ble 8 = true := by exact Eq.refl true) : ByteField :=
  ⟨offset, width, Nat.le_of_ble_eq_true h⟩

variable (f g : ByteField)

/-- `((1 << width) - 1) << offset` -/
def mask : UInt8 := UInt8.ofNat ((2 ^ f.width - 1) <<< f.offset)

/-- `(reg & ~mask) | (val << offset)`, stored in eight bits. -/
def set (reg : UInt8) (val : ℕ) : UInt8 := (reg &&& ~~~f.mask) ||| UInt8.ofNat (val <<< f.offset)

/-- `(reg >> offset) & ((1 << width) - 1)` -/
def get (reg : UInt8) : ℕ := (reg.toNat >>> f.offset) &&& (2 ^ f.width - 1)

/-- A bit of the register is in the field. -/
def Covers (i : ℕ) : Prop := f.offset ≤ i ∧ i < f.offset + f.width

instance (i : ℕ) : Decidable (f.Covers i) := inferInstanceAs (Decidable (_ ∧ _))

theorem testBit_ofNat_shiftLeft (val : ℕ) {i : ℕ} (hi : i < 8) (k : ℕ) :
    (UInt8.ofNat (val <<< k)).toNat.testBit i = (decide (k ≤ i) && val.testBit (i - k)) := by
  rw [UInt8.toNat_ofNat', Nat.testBit_mod_two_pow, Nat.testBit_shiftLeft, decide_eq_true hi, Bool.true_and]

theorem testBit_mask {i : ℕ} (hi : i < 8) : f.mask.toNat.testBit i = decide (f.Covers i) := by
  have hsub : i - f.offset < f.width ∧ f.offset ≤ i ↔ f.Covers i := by
    unfold Covers
    omega
  rw [mask, testBit_ofNat_shiftLeft _ hi, Nat.testBit_two_pow_sub_one, Bool.and_comm, ← Bool.decide_and]
  exact decide_eq_decide.mpr hsub

variable (reg : UInt8)

/-- **The bits after an update**: those of the value from the field on, over the others. -/
theorem testBit_set (val : ℕ) {i : ℕ} (hi : i < 8) :
    (f.set reg val).toNat.testBit i =
      ((reg.toNat.testBit i && !decide (f.Covers i)) || (decide (f.offset ≤ i) && val.testBit (i - f.offset))) := by
  have hnot : (~~~f.mask).toNat.testBit i = !decide (f.Covers i) := by
    have hbit : (~~~f.mask).toNat.testBit i = (~~~f.mask.toBitVec).getLsbD i := rfl
    have hmask : f.mask.toBitVec.getLsbD i = decide (f.Covers i) := f.testBit_mask hi
    rw [hbit, BitVec.getLsbD_not, decide_eq_true hi, Bool.true_and, hmask]
  rw [set, UInt8.toNat_or, Nat.testBit_or, UInt8.toNat_and, Nat.testBit_and, hnot, testBit_ofNat_shiftLeft _ hi]

theorem testBit_get (i : ℕ) : (f.get reg).testBit i = (reg.toNat.testBit (f.offset + i) && decide (i < f.width)) := by
  rw [get, Nat.testBit_and, Nat.testBit_shiftRight, Nat.testBit_two_pow_sub_one]

theorem get_lt : f.get reg < 2 ^ f.width := by
  rw [get, Nat.and_two_pow_sub_one_eq_mod]
  exact Nat.mod_lt _ (Nat.two_pow_pos _)

theorem get_set (val : ℕ) : f.get (f.set reg val) = val % 2 ^ f.width := by
  have hinside := f.inside
  apply Nat.eq_of_testBit_eq
  intro i
  rw [testBit_get, Nat.testBit_mod_two_pow]
  by_cases hi : i < f.width
  · have hcovers : f.Covers (f.offset + i) := ⟨Nat.le_add_right _ i, Nat.add_lt_add_left hi _⟩
    rw [testBit_set _ _ _ (by omega), decide_eq_true hcovers, decide_eq_true hi,
      decide_eq_true (Nat.le_add_right f.offset i), Nat.add_sub_cancel_left]
    simp
  · rw [decide_eq_false hi, Bool.and_false, Bool.false_and]

theorem testBit_set_of_not_covers {val : ℕ} (hval : val < 2 ^ f.width) {i : ℕ} (hi : i < 8) (hout : ¬ f.Covers i) :
    (f.set reg val).toNat.testBit i = reg.toNat.testBit i := by
  rw [testBit_set _ _ _ hi, decide_eq_false hout, Bool.not_false, Bool.and_true]
  by_cases hle : f.offset ≤ i
  · have hhigh : f.width ≤ i - f.offset := by
      unfold Covers at hout
      omega
    rw [Nat.testBit_lt_two_pow (hval.trans_le (Nat.pow_le_pow_right (by decide) hhigh)), Bool.and_false, Bool.or_false]
  · rw [decide_eq_false hle, Bool.false_and, Bool.or_false]

/-- An update leaves all bits outside the field alone, and the field reads back as the value. -/
structure Sound (reg : UInt8) (val : ℕ) : Prop where
  others : ∀ i < 8, ¬ f.Covers i → (f.set reg val).toNat.testBit i = reg.toNat.testBit i
  reads : f.get (f.set reg val) = val

/-- **The updates that are sound**: those with a value that fits. -/
theorem sound_iff (val : ℕ) : f.Sound reg val ↔ val < 2 ^ f.width := by
  constructor
  · intro hsound
    have hreads := hsound.reads
    rw [get_set] at hreads
    rw [← hreads]
    exact Nat.mod_lt _ (Nat.two_pow_pos _)
  · intro hval
    exact ⟨fun i hi => f.testBit_set_of_not_covers reg hval hi, by rw [get_set, Nat.mod_eq_of_lt hval]⟩

/-- No bit is in both fields. -/
def Apart : Prop := f.offset + f.width ≤ g.offset ∨ g.offset + g.width ≤ f.offset

instance : Decidable (f.Apart g) := inferInstanceAs (Decidable (_ ∨ _))

variable {f g}

theorem get_set_of_apart (h : f.Apart g) (reg : UInt8) {val : ℕ} (hval : val < 2 ^ f.width) :
    g.get (f.set reg val) = g.get reg := by
  have hinside := g.inside
  apply Nat.eq_of_testBit_eq
  intro i
  rw [testBit_get, testBit_get]
  by_cases hi : i < g.width
  · have hout : ¬ f.Covers (g.offset + i) := by
      unfold Covers
      unfold Apart at h
      omega
    rw [f.testBit_set_of_not_covers reg hval (by omega) hout]
  · rw [decide_eq_false hi, Bool.and_false, Bool.and_false]

end ByteField

end BgtDvb
