import Mathlib

/-!
# Register files

A register file maps register names to 32-bit values.  Device code is a sequence of reads and
writes of single registers; what a proof needs of such a sequence is which registers it leaves
alone and what the ones it wrote hold afterwards:

* `wrAll_of_mem` — **PROVED**: if no register is written twice, each holds what was written.

The names `κ` are arbitrary.
-/

namespace BgtDvb.RegFile

variable {κ : Type*} [DecidableEq κ]

/-- A register keeps the low 32 bits of what is written. -/
def wr (r : κ → ℕ) (k : κ) (v : ℕ) : κ → ℕ := Function.update r k (v % 2 ^ 32)

@[simp] theorem wr_self (r : κ → ℕ) (k : κ) (v : ℕ) : wr r k v k = v % 2 ^ 32 :=
  Function.update_self _ _ _

theorem wr_of_ne {k k' : κ} (h : k' ≠ k) (r : κ → ℕ) (v : ℕ) : wr r k v k' = r k' :=
  Function.update_of_ne h _ _

/-- A sequence of writes, first to last. -/
def wrAll (r : κ → ℕ) : List (κ × ℕ) → κ → ℕ
  | [] => r
  | w :: ws => wrAll (wr r w.1 w.2) ws

theorem wrAll_of_notMem {k : κ} (r : κ → ℕ) (ws : List (κ × ℕ)) (h : k ∉ ws.map Prod.fst) :
    wrAll r ws k = r k := by
  induction ws generalizing r with
  | nil => rfl
  | cons w ws ih =>
    rw [List.map_cons, List.mem_cons, not_or] at h
    rw [wrAll, ih _ h.2, wr_of_ne h.1]

theorem wrAll_of_mem {k : κ} {v : ℕ} (r : κ → ℕ) (ws : List (κ × ℕ))
    (hn : (ws.map Prod.fst).Nodup) (h : (k, v) ∈ ws) : wrAll r ws k = v % 2 ^ 32 := by
  induction ws generalizing r with
  | nil => exact absurd h List.not_mem_nil
  | cons w ws ih =>
    rw [List.map_cons, List.nodup_cons] at hn
    rw [wrAll]
    rcases List.mem_cons.mp h with heq | hmem
    · subst heq
      rw [wrAll_of_notMem _ _ hn.1, wr_self]
    · exact ih _ hn.2 hmem

end BgtDvb.RegFile
