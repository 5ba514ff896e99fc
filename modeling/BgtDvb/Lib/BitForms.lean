import Mathlib.Data.Nat.Bitwise
import Mathlib.Tactic.Ring

/-!
# Linear maps over the bits of a number

A number is read as the list of its bits, and a list of columns as the map that takes it to the exclusive
or of the columns whose bit is set.  This file provides the little linear algebra that parity-check codes
need, on numbers as they are:

* `xorSum cols w` — the exclusive or of the columns whose bit of `w` is set;
* `xorSum_xor`, `xorSum_append`, `xorSum_mod` — it is linear, and reads a number part by part;
* `xorSum_comp`, `xorSum_zip` — composition and sum are given by columns again;
* `xorSum_units` — **PROVED**: the map whose columns are the powers of two is the identity;
* `low_xor_high`, `xorSum_lt` — low and high bits are added, and the size of the result.

Nothing here names a particular code.
-/

namespace BgtDvb.BitForms

/-- The exclusive or of the columns whose bit is set. -/
def xorSum : List ℕ → ℕ → ℕ
  | [], _ => 0
  | col :: cols, w => (if w % 2 = 1 then col else 0) ^^^ xorSum cols (w / 2)

/-- The columns of the identity. -/
def units (n : ℕ) : List ℕ := (List.range n).map fun i => 2 ^ i

variable (cols as : List ℕ)

theorem xorSum_zero : xorSum cols 0 = 0 := by
  induction cols with
  | nil => rfl
  | cons col cols ih =>
    show (if 0 % 2 = 1 then col else 0) ^^^ xorSum cols (0 / 2) = 0
    rw [if_neg (by decide), Nat.zero_div, ih]
    rfl

/-- **The map is linear.** -/
theorem xorSum_xor (v w : ℕ) : xorSum cols (v ^^^ w) = xorSum cols v ^^^ xorSum cols w := by
  induction cols generalizing v w with
  | nil => exact (Nat.xor_self 0).symm
  | cons col cols ih =>
    have hlow : (if (v ^^^ w) % 2 = 1 then col else 0) =
        (if v % 2 = 1 then col else 0) ^^^ (if w % 2 = 1 then col else 0) := by
      rw [Nat.xor_mod_two_eq]
      rcases Nat.mod_two_eq_zero_or_one v with hv | hv <;> rcases Nat.mod_two_eq_zero_or_one w with hw | hw <;>
        simp [hv, hw, Nat.add_mod]
    show (if (v ^^^ w) % 2 = 1 then col else 0) ^^^ xorSum cols ((v ^^^ w) / 2) =
      ((if v % 2 = 1 then col else 0) ^^^ xorSum cols (v / 2)) ^^^
        ((if w % 2 = 1 then col else 0) ^^^ xorSum cols (w / 2))
    rw [hlow, Nat.xor_div_two, ih]
    ac_rfl

theorem xorSum_append (bs : List ℕ) (w : ℕ) : xorSum (as ++ bs) w = xorSum as w ^^^ xorSum bs (w / 2 ^ as.length) := by
  induction as generalizing w with
  | nil =>
    show xorSum bs w = 0 ^^^ xorSum bs (w / 2 ^ 0)
    rw [Nat.pow_zero, Nat.div_one, Nat.zero_xor]
  | cons a as ih =>
    show (if w % 2 = 1 then a else 0) ^^^ xorSum (as ++ bs) (w / 2) =
      ((if w % 2 = 1 then a else 0) ^^^ xorSum as (w / 2)) ^^^ xorSum bs (w / 2 ^ (as.length + 1))
    rw [ih, Nat.div_div_eq_div_mul, Nat.pow_succ', Nat.xor_assoc]

theorem xorSum_mod (w : ℕ) : xorSum cols (w % 2 ^ cols.length) = xorSum cols w := by
  induction cols generalizing w with
  | nil => rfl
  | cons col cols ih =>
    have hlow : w % 2 ^ (cols.length + 1) % 2 = w % 2 :=
      Nat.mod_mod_of_dvd w (Dvd.intro_left (2 ^ cols.length) (Nat.pow_succ ..).symm)
    have hhigh : w % 2 ^ (cols.length + 1) / 2 = w / 2 % 2 ^ cols.length := by
      rw [Nat.pow_succ', Nat.mod_mul_right_div_self]
    show (if w % 2 ^ (cols.length + 1) % 2 = 1 then col else 0) ^^^ xorSum cols (w % 2 ^ (cols.length + 1) / 2) = _
    rw [hlow, hhigh, ih]
    rfl

theorem xorSum_comp (bs : List ℕ) (w : ℕ) : xorSum as (xorSum bs w) = xorSum (bs.map (xorSum as)) w := by
  induction bs generalizing w with
  | nil => exact xorSum_zero as
  | cons b bs ih =>
    show xorSum as ((if w % 2 = 1 then b else 0) ^^^ xorSum bs (w / 2)) =
      (if w % 2 = 1 then xorSum as b else 0) ^^^ xorSum (bs.map (xorSum as)) (w / 2)
    rw [xorSum_xor, ih]
    congr 1
    split
    · rfl
    · exact xorSum_zero as

theorem xorSum_zip (bs : List ℕ) (hlen : as.length = bs.length) (w : ℕ) :
    xorSum as w ^^^ xorSum bs w = xorSum (List.zipWith (· ^^^ ·) as bs) w := by
  induction as generalizing bs w with
  | nil =>
    rw [List.length_eq_zero_iff.mp hlen.symm]
    exact Nat.xor_self 0
  | cons a as ih =>
    cases bs with
    | nil => exact absurd hlen (Nat.succ_ne_zero _)
    | cons b bs =>
      have htail := ih bs (Nat.succ.inj hlen) (w / 2)
      show ((if w % 2 = 1 then a else 0) ^^^ xorSum as (w / 2)) ^^^
          ((if w % 2 = 1 then b else 0) ^^^ xorSum bs (w / 2)) =
        (if w % 2 = 1 then a ^^^ b else 0) ^^^ xorSum (List.zipWith (· ^^^ ·) as bs) (w / 2)
      rw [← htail]
      split
      · ac_rfl
      · rw [Nat.zero_xor, Nat.zero_xor, Nat.zero_xor]

theorem low_xor_high {k a : ℕ} (ha : a < 2 ^ k) (b : ℕ) : a ^^^ 2 ^ k * b = a + 2 ^ k * b := by
  have hpos : 0 < 2 ^ k := Nat.two_pow_pos k
  have hlow : (a ^^^ 2 ^ k * b) % 2 ^ k = a := by
    rw [Nat.xor_mod_two_pow, Nat.mod_eq_of_lt ha, Nat.mul_mod_right, Nat.xor_zero]
  have hhigh : (a ^^^ 2 ^ k * b) / 2 ^ k = b := by
    rw [Nat.xor_div_two_pow, Nat.div_eq_of_lt ha, Nat.mul_div_cancel_left b hpos, Nat.zero_xor]
  have hparts := Nat.mod_add_div (a ^^^ 2 ^ k * b) (2 ^ k)
  rw [hlow, hhigh] at hparts
  exact hparts.symm

theorem xorSum_double (w : ℕ) : xorSum (cols.map (2 * ·)) w = 2 * xorSum cols w := by
  induction cols generalizing w with
  | nil => rfl
  | cons col cols ih =>
    have hmul : ∀ a b : ℕ, 2 * a ^^^ 2 * b = 2 * (a ^^^ b) := by
      intro a b
      have hlow : (2 * a ^^^ 2 * b) % 2 = 0 := by
        rw [Nat.xor_mod_two_eq]
        omega
      have hhigh : (2 * a ^^^ 2 * b) / 2 = a ^^^ b := by
        rw [Nat.xor_div_two, Nat.mul_div_cancel_left a (by decide), Nat.mul_div_cancel_left b (by decide)]
      omega
    show (if w % 2 = 1 then 2 * col else 0) ^^^ xorSum (cols.map (2 * ·)) (w / 2) =
      2 * ((if w % 2 = 1 then col else 0) ^^^ xorSum cols (w / 2))
    rw [ih, ← hmul]
    congr 1
    split
    · rfl
    · rfl

/-- **The identity.** -/
theorem xorSum_units {n w : ℕ} (hw : w < 2 ^ n) : xorSum (units n) w = w := by
  induction n generalizing w with
  | zero =>
    have hzero : w = 0 := by simpa using hw
    rw [hzero]
    rfl
  | succ n ih =>
    have hunits : units (n + 1) = 1 :: (units n).map (2 * ·) := by
      unfold units
      rw [List.range_succ_eq_map, List.map_cons, List.map_map, List.map_map]
      congr 1
      apply List.map_congr_left
      intro i _
      exact Nat.pow_succ'
    have hhalf : w / 2 < 2 ^ n := by
      rw [Nat.pow_succ] at hw
      omega
    rw [hunits]
    show (if w % 2 = 1 then 1 else 0) ^^^ xorSum ((units n).map (2 * ·)) (w / 2) = w
    have hbit : (if w % 2 = 1 then 1 else 0) = w % 2 := by
      split
      · omega
      · omega
    have hparts : w % 2 ^^^ 2 * (w / 2) = w % 2 + 2 * (w / 2) :=
      low_xor_high (k := 1) (Nat.mod_lt w (by decide)) (w / 2)
    rw [xorSum_double, ih hhalf, hbit]
    omega

theorem xorSum_lt {cols : List ℕ} {n : ℕ} (hcols : ∀ col ∈ cols, col < 2 ^ n) (w : ℕ) : xorSum cols w < 2 ^ n := by
  induction cols generalizing w with
  | nil => exact Nat.two_pow_pos n
  | cons col cols ih =>
    apply Nat.xor_lt_two_pow
    · split
      · exact hcols col List.mem_cons_self
      · exact Nat.two_pow_pos n
    · exact ih (fun c hc => hcols c (List.mem_cons_of_mem col hc)) (w / 2)

end BgtDvb.BitForms
