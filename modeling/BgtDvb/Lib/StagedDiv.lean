import Mathlib

/-!
# A division in stages

A quotient of a product that does not fit in a word is taken factor by factor: quotient and remainder are multiplied by
the next factor, and the remainder is divided again.

* `mul`, `add`, `shl`, `div`, `mod` — word arithmetic; `none` is a result that does not fit, a shift as wide as the
  word or a division by zero;
* `stage`, `stages` — the next factor, and all of them;
* `stages_eq` — **PROVED**: with a divisor small enough, the stages give quotient and remainder of the whole product;
* `halfUp_nearest_iff` — **PROVED**: this is the nearest integer unless the divisor is odd and the remainder its half,
  rounded down.

Nothing here names a particular machine or program.
-/

namespace BgtDvb.StagedDiv

variable (w : ℕ)

/-! ### Word arithmetic -/

/-- A result that fits in `w` bits. -/
def fit (x : ℕ) : Option ℕ := if x < 2 ^ w then some x else none

def mul (x y : ℕ) : Option ℕ := fit w (x * y)

def add (x y : ℕ) : Option ℕ := fit w (x + y)

/-- `1 << n` -/
def shl (n : ℕ) : Option ℕ := if n < w then some (2 ^ n) else none

def div (x y : ℕ) : Option ℕ := if y = 0 then none else some (x / y)

def mod (x y : ℕ) : Option ℕ := if y = 0 then none else some (x % y)

/-- The next factor: `r *= m; q = q * m + r / d; r = r % d`. -/
def stage (d m : ℕ) (s : ℕ × ℕ) : Option (ℕ × ℕ) := do
  let r ← mul w s.2 m
  let q ← mul w s.1 m
  let c ← div r d
  let q ← add w q c
  let r ← mod r d
  return (q, r)

def stages (d : ℕ) : List ℕ → ℕ × ℕ → Option (ℕ × ℕ)
  | [], s => some s
  | m :: ms, s => (stage w d m s).bind (stages d ms)

/-- The quotient, and one more if the remainder is at least the half of the divisor. -/
def halfUp (d : ℕ) (s : ℕ × ℕ) : Option ℕ := if s.2 ≥ d / 2 then add w s.1 1 else some s.1

/-! ### The stages together -/

section Stages

variable {w}

theorem fit_eq {x : ℕ} (h : x < 2 ^ w) : fit w x = some x := if_pos h

theorem fit_none {x : ℕ} (h : ¬x < 2 ^ w) : fit w x = none := if_neg h

theorem div_mul_add (n d m : ℕ) : n / d * m + n % d * m / d = n * m / d := by
  rcases Nat.eq_zero_or_pos d with rfl | hd
  · simp
  · have hsplit : n * m = d * (n / d * m) + n % d * m := by
      calc n * m = (d * (n / d) + n % d) * m := by rw [Nat.div_add_mod]
        _ = d * (n / d * m) + n % d * m := by ring
    rw [hsplit, Nat.mul_add_div hd]

theorem mod_mul_mod_eq (n d m : ℕ) : n % d * m % d = n * m % d := by
  rw [Nat.mul_mod, Nat.mod_mod, ← Nat.mul_mod]

theorem stage_eq {n d m : ℕ} (hd : 0 < d) (hr : n % d * m < 2 ^ w) (hq : n * m / d < 2 ^ w) :
    stage w d m (n / d, n % d) = some (n * m / d, n * m % d) := by
  have hsum := div_mul_add n d m
  have hle : n / d * m < 2 ^ w := lt_of_le_of_lt (hsum ▸ Nat.le_add_right _ _) hq
  unfold stage mul add div mod
  dsimp only
  simp only [fit_eq hr, fit_eq hle, if_neg hd.ne', Option.bind_eq_bind, Option.bind_some, hsum, fit_eq hq,
    mod_mul_mod_eq]
  rfl

theorem stage_none {d m : ℕ} {s : ℕ × ℕ} (hr : ¬s.2 * m < 2 ^ w) : stage w d m s = none := by
  unfold stage mul
  rw [fit_none hr]
  rfl

/-- **PROVED**: with a divisor that fits in a word with each factor, and a quotient that fits, the stages give quotient and
remainder of the product. -/
theorem stages_eq {d : ℕ} (hd : 0 < d) (ms : List ℕ) (n : ℕ) (hpos : ∀ m ∈ ms, 0 < m)
    (hfit : ∀ m ∈ ms, d * m ≤ 2 ^ w) (hq : n * ms.prod / d < 2 ^ w) :
    stages w d ms (n / d, n % d) = some (n * ms.prod / d, n * ms.prod % d) := by
  induction ms generalizing n with
  | nil => rw [List.prod_nil, Nat.mul_one]; rfl
  | cons m ms ih =>
    rw [List.prod_cons, ← Nat.mul_assoc] at hq ⊢
    have hm : n * m ≤ n * m * ms.prod := Nat.le_mul_of_pos_right _
      (List.prod_pos fun x hx => hpos x (List.mem_cons_of_mem m hx))
    have hr : n % d * m < 2 ^ w := lt_of_lt_of_le
      (Nat.mul_lt_mul_of_pos_right (Nat.mod_lt n hd) (hpos m List.mem_cons_self)) (hfit m List.mem_cons_self)
    rw [stages, stage_eq hd hr (lt_of_le_of_lt (Nat.div_le_div_right hm) hq), Option.bind_some]
    exact ih (n * m) (fun x hx => hpos x (List.mem_cons_of_mem m hx)) (fun x hx => hfit x (List.mem_cons_of_mem m hx)) hq

theorem halfUp_eq {d n : ℕ} (hq : n / d + 1 < 2 ^ w) :
    halfUp w d (n / d, n % d) = some (if n % d ≥ d / 2 then n / d + 1 else n / d) := by
  unfold halfUp add
  rw [fit_eq hq]
  split <;> rfl

end Stages

/-! ### The nearest integer -/

/-- No integer is nearer to the quotient. -/
def IsNearest (x : ℚ) (r : ℕ) : Prop := |(r : ℚ) - x| ≤ 1 / 2

theorem isNearest_iff {n d r : ℕ} (hd : 0 < d) :
    IsNearest (n / d) r ↔ 2 * (r * d) ≤ 2 * n + d ∧ 2 * n ≤ 2 * (r * d) + d := by
  have hdq : (0 : ℚ) < d := Nat.cast_pos.mpr hd
  have hsub : (r : ℚ) - n / d = (r * d - n) / d := by
    field_simp
  rw [IsNearest, hsub, abs_le, le_div_iff₀ hdq, div_le_iff₀ hdq]
  constructor
  · rintro ⟨hlo, hhi⟩
    exact ⟨by exact_mod_cast (by linarith : 2 * ((r : ℚ) * d) ≤ 2 * n + d),
      by exact_mod_cast (by linarith : 2 * (n : ℚ) ≤ 2 * (r * d) + d)⟩
  · rintro ⟨hhi, hlo⟩
    have hhi' : 2 * ((r : ℚ) * d) ≤ 2 * n + d := by exact_mod_cast hhi
    have hlo' : 2 * (n : ℚ) ≤ 2 * (r * d) + d := by exact_mod_cast hlo
    constructor <;> linarith

/-- **PROVED**: rounding from the half of the divisor on misses the nearest integer exactly if the divisor is odd and the
remainder is its half, rounded down. -/
theorem halfUp_nearest_iff {n d : ℕ} (hd : 0 < d) :
    IsNearest (n / d) (if n % d ≥ d / 2 then n / d + 1 else n / d) ↔ ¬(d % 2 = 1 ∧ n % d = d / 2) := by
  have hn := Nat.div_add_mod n d
  have hlt := Nat.mod_lt n hd
  rw [isNearest_iff hd]
  obtain ⟨q, hq⟩ : ∃ q, q = n / d * d := ⟨_, rfl⟩
  rw [Nat.mul_comm, ← hq] at hn
  split
  · rw [Nat.add_mul, Nat.one_mul, ← hq]
    omega
  · rw [← hq]
    omega

end BgtDvb.StagedDiv
