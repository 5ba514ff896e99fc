import Mathlib.Data.List.Basic

/-!
# The positions a computation looks at

Code that may fail, with a record of the positions that it reads.

The record is only added to: what the code comes to does not depend on it.
-/

namespace BgtDvb.Looks

variable {ε α β γ : Type}

/-- Code that may fail, in front of the positions that were read so far. -/
abbrev Look (ε α : Type) : Type := List ℕ → Except ε α × List ℕ

namespace Look

def pure (a : α) : Look ε α := fun log => (.ok a, log)

def fail (e : ε) : Look ε α := fun log => (.error e, log)

def bind (c : Look ε α) (f : α → Look ε β) : Look ε β := fun log =>
  match c log with
  | (.ok a, log') => f a log'
  | (.error e, log') => (.error e, log')

end Look

instance : Monad (Look ε) where
  pure := Look.pure
  bind := Look.bind

/-- A byte of a memory. -/
def look (mem : ℕ → α) (i : ℕ) : Look ε α := fun log => (.ok (mem i), log ++ [i])

/-- Several positions. -/
def lookAll (is : List ℕ) : Look ε Unit := fun log => (.ok (), log ++ is)

/-- What code comes to, and that it has only read positions of a kind. -/
def Sees (P : ℕ → Prop) (c : Look ε α) (r : Except ε α) : Prop :=
  ∀ log : List ℕ, (c log).1 = r ∧ ∀ i ∈ (c log).2, i ∈ log ∨ P i

section Rules

variable {P : ℕ → Prop}

theorem sees_pure (a : α) : Sees P (pure a : Look ε α) (.ok a) := fun _ => ⟨rfl, fun _ hi => .inl hi⟩

theorem sees_fail (e : ε) : Sees P (Look.fail e : Look ε α) (.error e) := fun _ => ⟨rfl, fun _ hi => .inl hi⟩

theorem sees_look {mem : ℕ → α} {i : ℕ} (hi : P i) : Sees P (look mem i : Look ε α) (.ok (mem i)) := by
  intro log
  refine ⟨rfl, fun j hj => ?_⟩
  rcases List.mem_append.mp hj with hj | hj
  · exact .inl hj
  · exact .inr (List.mem_singleton.mp hj ▸ hi)

theorem sees_lookAll {is : List ℕ} (h : ∀ i ∈ is, P i) : Sees P (lookAll is : Look ε Unit) (.ok ()) := by
  intro log
  refine ⟨rfl, fun j hj => ?_⟩
  rcases List.mem_append.mp hj with hj | hj
  · exact .inl hj
  · exact .inr (h j hj)

theorem Sees.bind {c : Look ε α} {f : α → Look ε β} {r : Except ε α} {g : α → Except ε β} (hc : Sees P c r)
    (hf : ∀ a, r = .ok a → Sees P (f a) (g a)) : Sees P (c >>= f) (r >>= g) := by
  intro log
  obtain ⟨hval, hlog⟩ := hc log
  have hbind : (c >>= f) log = Look.bind c f log := rfl
  rw [hbind, Look.bind]
  cases hrun : c log with
  | mk r' log' =>
    rw [hrun] at hval hlog
    subst hval
    cases r' with
    | error e => exact ⟨rfl, hlog⟩
    | ok a =>
      obtain ⟨hval', hlog'⟩ := hf a rfl log'
      refine ⟨hval', fun i hi => ?_⟩
      rcases hlog' i hi with hi | hi
      · exact hlog i hi
      · exact .inr hi

theorem Sees.after_look {mem : ℕ → α} {i : ℕ} {f : α → Look ε β} {r : Except ε β} (hi : P i)
    (h : Sees P (f (mem i)) r) : Sees P (look mem i >>= f) r :=
  (sees_look hi).bind (g := fun _ => r) fun _ ha => by
    cases ha
    exact h

theorem Sees.after_lookAll {is : List ℕ} {c : Look ε β} {r : Except ε β} (hi : ∀ i ∈ is, P i) (h : Sees P c r) :
    Sees P (lookAll is >>= fun _ => c) r :=
  (sees_lookAll hi).bind (g := fun _ => r) fun _ _ => h

theorem sees_ite {p : Prop} [Decidable p] {c d : Look ε α} {r s : Except ε α} (hc : p → Sees P c r)
    (hd : ¬ p → Sees P d s) : Sees P (if p then c else d) (if p then r else s) := by
  split_ifs with hp
  · exact hc hp
  · exact hd hp

end Rules

end BgtDvb.Looks
