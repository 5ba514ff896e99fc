import Mathlib

/-!
# Bitfields in bytes

A set of small numbers kept as the bits of an array of bytes, the lowest bit of a byte first.  The
operations are partial: a bit outside the array is a fault.

* `setBit_spec`, `scanBits_spec` — **PROVED**: inside the array none of them is a fault.
-/

namespace BgtDvb.Bitfield

/-- `(bitfield[bit / 8] >> (bit % 8)) & 1` -/
def getBit (bits : List UInt8) (bit : ℕ) : Option Bool :=
  bits[bit / 8]?.map fun b => b.toNat.testBit (bit % 8)

/-- `bitfield[bit / 8] |= 1 << (bit % 8)` -/
def setBit (bits : List UInt8) (bit : ℕ) : Option (List UInt8) :=
  bits[bit / 8]?.map fun b => bits.set (bit / 8) (b ||| UInt8.ofNat (1 <<< (bit % 8)))

/-- The position of the first clear bit among `n` from `i` on, or `i + n`. -/
def scanBits (bits : List UInt8) : ℕ → ℕ → Option ℕ
  | 0, i => some i
  | n + 1, i =>
    match getBit bits i with
    | none => none
    | some false => some i
    | some true => scanBits bits n (i + 1)

theorem exists_getBit (bits : List UInt8) (bit : ℕ) (h : bit < 8 * bits.length) :
    ∃ b, getBit bits bit = some b := by
  have hlt : bit / 8 < bits.length := by omega
  exact ⟨_, by rw [getBit, List.getElem?_eq_getElem hlt]; rfl⟩

theorem getBit_zeros {n bit : ℕ} (h : bit < 8 * n) : getBit (List.replicate n 0) bit = some false := by
  have hlt : bit / 8 < n := by omega
  rw [getBit, List.getElem?_replicate, if_pos hlt]
  simp

theorem testBit_or_one_shiftLeft (b : UInt8) {i j : ℕ} (hi : i < 8) :
    (b ||| UInt8.ofNat (1 <<< i)).toNat.testBit j = (b.toNat.testBit j || decide (i = j)) := by
  have hpow : 2 ^ i < 2 ^ 8 := Nat.pow_lt_pow_right (by decide) hi
  rw [UInt8.toNat_or, Nat.testBit_or, UInt8.toNat_ofNat', Nat.one_shiftLeft, Nat.mod_eq_of_lt hpow,
    Nat.testBit_two_pow]

/-- **Raising a bit** raises that bit and no other. -/
theorem setBit_spec (bits : List UInt8) (bit : ℕ) (h : bit < 8 * bits.length) :
    ∃ bits', setBit bits bit = some bits' ∧ bits'.length = bits.length ∧
      ∀ j, getBit bits' j = if j = bit then some true else getBit bits j := by
  have hlt : bit / 8 < bits.length := by omega
  refine ⟨_, by rw [setBit, List.getElem?_eq_getElem hlt]; rfl, List.length_set, fun j => ?_⟩
  unfold getBit
  by_cases hbyte : bit / 8 = j / 8
  · rw [List.getElem?_set, if_pos hbyte, if_pos hlt, Option.map_some,
      testBit_or_one_shiftLeft _ (Nat.mod_lt _ (by decide)), ← hbyte, List.getElem?_eq_getElem hlt]
    by_cases hj : j = bit
    · rw [if_pos hj, hj]
      simp
    · have hne : bit % 8 ≠ j % 8 := by omega
      rw [if_neg hj, decide_eq_false hne, Bool.or_false]
      rfl
  · have hj : j ≠ bit := fun hj => hbyte (by rw [hj])
    rw [if_neg hj, List.getElem?_set_ne hbyte]

/-- **The loop** runs to the end exactly if every bit of the stretch is set. -/
theorem scanBits_spec (bits : List UInt8) (n i : ℕ) (h : i + n ≤ 8 * bits.length) :
    ∃ r, scanBits bits n i = some r ∧ r ≤ i + n ∧
      (r = i + n ↔ ∀ j, i ≤ j → j < i + n → getBit bits j = some true) := by
  induction n generalizing i with
  | zero => exact ⟨i, rfl, le_rfl, iff_of_true rfl fun j hi hj => absurd hj (by omega)⟩
  | succ n ih =>
    obtain ⟨b, hb⟩ := exists_getBit bits i (by omega)
    rw [scanBits, hb]
    cases b with
    | false =>
      refine ⟨i, rfl, by omega, iff_of_false (by omega) fun hall => ?_⟩
      rw [hall i le_rfl (by omega)] at hb
      exact absurd hb (by simp)
    | true =>
      obtain ⟨r, hr, hle, hiff⟩ := ih (i + 1) (by omega)
      refine ⟨r, hr, by omega, ?_⟩
      rw [show i + (n + 1) = i + 1 + n by omega, hiff]
      constructor
      · intro hall j hi hj
        rcases Nat.eq_or_lt_of_le hi with rfl | hlt
        · exact hb
        · exact hall j hlt hj
      · exact fun hall j hi hj => hall j (by omega) hj

end BgtDvb.Bitfield
