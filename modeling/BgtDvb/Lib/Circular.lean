import Mathlib.Data.List.Basic
import Mathlib.Logic.Function.Basic
import Mathlib.Data.Nat.ModEq

/-!
# Lists in circular arrays

An array of `size` places in which the entries of a list stand one behind another from some place on, round the end of
the array.

* `Holds size slots head xs` — where the entries of `xs` are;
* `Holds.push`, `Holds.front`, `Holds.pop` — **PROVED**: an entry is put behind the list, or taken from its front;
* `Holds.append`, `Holds.drop` — **PROVED**: the same for a block;
* `Holds.forget` — **PROVED**: an array of one place holds what was written last.

Nothing here names a particular buffer.
-/

namespace BgtDvb.Circular

variable {α : Type*}

/-- The entries of the list stand one behind another from `head` on. -/
def Holds (size : ℕ) (slots : ℕ → α) (head : ℕ) (xs : List α) : Prop :=
  ∀ i (hi : i < xs.length), slots ((head + i) % size) = xs[i]

theorem holds_nil (size : ℕ) (slots : ℕ → α) (head : ℕ) : Holds size slots head [] :=
  fun _ hi => absurd hi (Nat.not_lt_zero _)

variable {size head : ℕ} {slots : ℕ → α} {xs : List α} {x : α}

theorem place_ne {i j : ℕ} (hij : i < j) (hj : j < size) : (head + i) % size ≠ (head + j) % size := by
  intro h
  have hdvd : size ∣ head + j - (head + i) := (Nat.modEq_iff_dvd' (by omega)).mp h
  have hle := Nat.le_of_dvd (by omega) hdvd
  omega

theorem Holds.push (h : Holds size slots head xs) (hroom : xs.length < size) (a : α) :
    Holds size (Function.update slots ((head + xs.length) % size) a) head (xs ++ [a]) := by
  intro i hi
  rw [List.length_append, List.length_singleton] at hi
  rcases Nat.lt_or_eq_of_le (Nat.lt_succ_iff.mp hi) with hlt | rfl
  · rw [Function.update_of_ne (place_ne hlt hroom), List.getElem_append_left hlt]
    exact h i hlt
  · rw [Function.update_self, List.getElem_concat_length rfl]

theorem Holds.front (h : Holds size slots head (x :: xs)) (hhead : head < size) : slots head = x := by
  have hfirst := h 0 (Nat.succ_pos _)
  rwa [Nat.add_zero, Nat.mod_eq_of_lt hhead] at hfirst

theorem Holds.pop (h : Holds size slots head (x :: xs)) : Holds size slots ((head + 1) % size) xs := by
  intro i hi
  have hnext := h (i + 1) (Nat.succ_lt_succ hi)
  rw [List.getElem_cons_succ] at hnext
  rw [Nat.mod_add_mod, Nat.add_assoc, Nat.add_comm 1 i]
  exact hnext

theorem Holds.drop (h : Holds size slots head xs) (n : ℕ) : Holds size slots ((head + n) % size) (xs.drop n) := by
  intro i hi
  rw [List.length_drop] at hi
  rw [Nat.mod_add_mod, Nat.add_assoc, List.getElem_drop]
  exact h (n + i) (by omega)

/-- A block is put behind the list; where the list stands nothing changes. -/
theorem Holds.append {slots' : ℕ → α} {ys : List α} (h : Holds size slots head xs) (hroom : xs.length + ys.length ≤ size)
    (hnew : ∀ k (hk : k < ys.length), slots' ((head + xs.length + k) % size) = ys[k])
    (hold : ∀ p, (∀ k < ys.length, p ≠ (head + xs.length + k) % size) → slots' p = slots p) :
    Holds size slots' head (xs ++ ys) := by
  intro i hi
  rw [List.length_append] at hi
  by_cases hlt : i < xs.length
  · rw [List.getElem_append_left hlt, ← h i hlt]
    refine hold _ fun k hk => ?_
    rw [Nat.add_assoc]
    exact place_ne (by omega) (by omega)
  · rw [List.getElem_append_right (not_lt.mp hlt), ← hnew (i - xs.length) (by omega)]
    congr 2
    omega

theorem Holds.forget (slots : ℕ → α) (place head : ℕ) (a : α) :
    Holds 1 (Function.update slots (place % 1) a) head [a] := by
  intro i hi
  obtain rfl := Nat.lt_one_iff.mp hi
  rw [Nat.mod_one, Nat.mod_one, Function.update_self, List.getElem_singleton]

/-- An entry is put behind the others; the oldest is given up if there are `size` of them. -/
def keepLast (size : ℕ) (xs : List α) (a : α) : List α := (if xs.length < size then xs else xs.tail) ++ [a]

theorem keepLast_room (h : xs.length < size) (a : α) : keepLast size xs a = xs ++ [a] := by rw [keepLast, if_pos h]

theorem keepLast_full (h : xs.length = size) (a : α) : keepLast size xs a = xs.tail ++ [a] := by
  rw [keepLast, if_neg (by omega)]

end BgtDvb.Circular
