import Mathlib

/-!
# Digits read in another radix

The digits of a number in one radix, put down as the digits of a number in another: packed decimal
and its kin.

* `recode a b k n` — the last `k` digits of `n` in radix `a`, read in radix `b`;
* `recode_succ_top`, `recode_succ_bottom` — one more digit, at either end;
* `recode_lt`, `recode_le` — the size of what comes out;
* `recode_recode` — **PROVED**: reading back gives the last `k` digits again, if every digit is one
  of the other radix too.
-/

namespace BgtDvb.Recode

/-- The last `k` digits of `n` in radix `a`, read in radix `b`. -/
def recode (a b : ℕ) : ℕ → ℕ → ℕ
  | 0, _ => 0
  | k + 1, n => n % a + b * recode a b k (n / a)

theorem recode_zero (a b n : ℕ) : recode a b 0 n = 0 := rfl

theorem recode_succ_bottom (a b k n : ℕ) :
    recode a b (k + 1) n = n % a + b * recode a b k (n / a) := rfl

theorem recode_succ_top (a b k n : ℕ) :
    recode a b (k + 1) n = recode a b k n + b ^ k * (n / a ^ k % a) := by
  induction k generalizing n with
  | zero => simp [recode]
  | succ k ih =>
    have hdiv : n / a / a ^ k = n / a ^ (k + 1) := by
      rw [Nat.div_div_eq_div_mul, pow_succ']
    calc recode a b (k + 2) n
        = n % a + b * (recode a b k (n / a) + b ^ k * (n / a / a ^ k % a)) := by
          rw [recode_succ_bottom, ih]
      _ = n % a + b * recode a b k (n / a) + b ^ (k + 1) * (n / a ^ (k + 1) % a) := by
          rw [hdiv]
          ring
      _ = recode a b (k + 1) n + b ^ (k + 1) * (n / a ^ (k + 1) % a) := by
          rw [recode_succ_bottom]

/-- Every one of the last `k` digits of `n` in radix `a` is a digit of radix `b`. -/
def Fits (a b k n : ℕ) : Prop := ∀ i < k, n / a ^ i % a < b

variable {a b k n : ℕ}

theorem fits_of_le (ha : 0 < a) (hab : a ≤ b) (k n : ℕ) : Fits a b k n := by
  intro i _
  exact lt_of_lt_of_le (Nat.mod_lt _ ha) hab

theorem Fits.head (h : Fits a b (k + 1) n) : n % a < b := by
  have h0 := h 0 (Nat.succ_pos k)
  rwa [pow_zero, Nat.div_one] at h0

theorem Fits.tail (h : Fits a b (k + 1) n) : Fits a b k (n / a) := by
  intro i hi
  have hi1 := h (i + 1) (Nat.succ_lt_succ hi)
  rwa [pow_succ', ← Nat.div_div_eq_div_mul] at hi1

/-- What comes out has `k` digits. -/
theorem recode_lt (h : Fits a b k n) : recode a b k n < b ^ k := by
  induction k generalizing n with
  | zero => exact Nat.one_pos
  | succ k ih =>
    have hhead := h.head
    have htail := ih h.tail
    calc n % a + b * recode a b k (n / a)
        < b * (recode a b k (n / a) + 1) := by
          rw [Nat.mul_succ]
          omega
      _ ≤ b * b ^ k := Nat.mul_le_mul_left b htail
      _ = b ^ (k + 1) := (pow_succ' b k).symm

theorem recode_le (hba : b ≤ a) (k n : ℕ) : recode a b k n ≤ n := by
  induction k generalizing n with
  | zero => exact Nat.zero_le n
  | succ k ih =>
    calc n % a + b * recode a b k (n / a)
        ≤ n % a + a * (n / a) := Nat.add_le_add_left (Nat.mul_le_mul hba (ih (n / a))) (n % a)
      _ = n := Nat.mod_add_div n a

/-- **Reading back** gives the digits that were there. -/
theorem recode_recode (h : Fits a b k n) : recode b a k (recode a b k n) = n % a ^ k := by
  induction k generalizing n with
  | zero => rw [recode_zero, pow_zero, Nat.mod_one]
  | succ k ih =>
    have hhead := h.head
    have hmod : (n % a + b * recode a b k (n / a)) % b = n % a := by
      rw [Nat.add_mul_mod_self_left, Nat.mod_eq_of_lt hhead]
    have hdiv : (n % a + b * recode a b k (n / a)) / b = recode a b k (n / a) := by
      rw [Nat.add_mul_div_left _ _ (by omega), Nat.div_eq_of_lt hhead, Nat.zero_add]
    rw [recode_succ_bottom, recode_succ_bottom, hmod, hdiv, ih h.tail, pow_succ', Nat.mod_mul]

end BgtDvb.Recode
