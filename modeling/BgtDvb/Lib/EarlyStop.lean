import Mathlib

/-!
# A search that stops early

A loop goes through candidates and keeps each one that is no worse than the one it has; at the first
that is worse it stops.  It has found the best of all candidates if their badness falls and then rises.

* `lastFall_spec` — **PROVED**: the loop finds a candidate that is best among all.
-/

namespace BgtDvb.EarlyStop

variable {α β : Type} [LinearOrder β]

/-- The candidates `f i`, `f (i + 1)`, .. as far as `n` of them, with `m` in hand. -/
def lastFall (key : α → β) (f : ℕ → α) : ℕ → ℕ → α → α
  | 0, _, m => m
  | n + 1, i, m => if key (f i) ≤ key m then lastFall key f n (i + 1) (f i) else m

/-- Between two places nothing is higher than both. -/
def Valley (d : ℕ → β) : Prop := ∀ i j k, i ≤ j → j ≤ k → d j ≤ max (d i) (d k)

theorem valley_abs {γ : Type} [AddCommGroup γ] [LinearOrder γ] [IsOrderedAddMonoid γ] {f : ℕ → γ} (hf : Monotone f) :
    Valley fun i => |f i| := by
  intro i j k hij hjk
  exact abs_le_max_abs_abs (hf hij) (hf hjk)

theorem Valley.le_of_rise {d : ℕ → β} (hd : Valley d) {i j k : ℕ} (hij : i ≤ j) (hjk : j ≤ k) (hrise : d i < d j) :
    d j ≤ d k := by
  rcases le_max_iff.mp (hd i j k hij hjk) with h | h
  · exact absurd hrise (not_lt.mpr h)
  · exact h

variable {key : α → β} {f : ℕ → α}

/-- **The search**, with the candidate `f i` in hand, which is best so far. -/
theorem lastFall_spec (hd : Valley fun i => key (f i)) (n : ℕ) {i : ℕ} (hbest : ∀ j ≤ i, key (f i) ≤ key (f j)) :
    ∃ k ≤ i + n, lastFall key f n (i + 1) (f i) = f k ∧ ∀ j ≤ i + n, key (f k) ≤ key (f j) := by
  induction n generalizing i with
  | zero => exact ⟨i, le_rfl, rfl, hbest⟩
  | succ n ih =>
    by_cases hstep : key (f (i + 1)) ≤ key (f i)
    · have hbest' : ∀ j ≤ i + 1, key (f (i + 1)) ≤ key (f j) := by
        intro j hj
        rcases Nat.le_succ_iff.mp hj with hj | rfl
        · exact hstep.trans (hbest j hj)
        · exact le_rfl
      obtain ⟨k, hk, heq, hall⟩ := ih hbest'
      rw [lastFall, if_pos hstep]
      exact ⟨k, by omega, heq, fun j hj => hall j (by omega)⟩
    · have hrise := not_le.mp hstep
      rw [lastFall, if_neg hstep]
      refine ⟨i, Nat.le_add_right i _, rfl, fun j hj => ?_⟩
      rcases Nat.lt_or_ge i j with hj | hj
      · exact hrise.le.trans (hd.le_of_rise (Nat.le_succ i) hj hrise)
      · exact hbest j hj

theorem lastFall_start (hd : Valley fun i => key (f i)) (n : ℕ) {m : α} (hm : key (f 0) ≤ key m) :
    ∃ k < n + 1, lastFall key f (n + 1) 0 m = f k ∧ ∀ j < n + 1, key (f k) ≤ key (f j) := by
  have hbest : ∀ j ≤ 0, key (f 0) ≤ key (f j) := by
    intro j hj
    rw [Nat.le_zero.mp hj]
  obtain ⟨k, hk, heq, hall⟩ := lastFall_spec hd n hbest
  rw [lastFall, if_pos hm]
  exact ⟨k, by omega, heq, fun j hj => hall j (by omega)⟩

end BgtDvb.EarlyStop
