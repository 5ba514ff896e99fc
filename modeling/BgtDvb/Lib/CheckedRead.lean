import Mathlib.Data.List.Basic
import Mathlib.Data.List.GetD
import Mathlib.Logic.Basic

/-!
# Reads that are checked

Code that takes a piece apart by positions and runs into a fault where a position is not one of the piece.

* `ends_bind`, `ends_byte_bind`, `ends_span_bind`, … — **PROVED**: when each construct ends.

A stretch of no bytes may lie anywhere.
-/

namespace BgtDvb.CheckedRead

variable {ε α β γ : Type}

/-! ### Reads -/

/-- A read at a position of a piece. -/
def byte (outside : ε) (piece : List β) (i : ℕ) : Except ε β :=
  match piece[i]? with
  | some x => .ok x
  | none => .error outside

/-- A read of `n` positions from `i` on. -/
def span (outside : ε) (piece : List β) : ℕ → ℕ → Except ε (List β)
  | _, 0 => .ok []
  | i, n + 1 => do
    let x ← byte outside piece i
    let xs ← span outside piece (i + 1) n
    .ok (x :: xs)

/-! ### Ends -/

/-- The code comes to a value. -/
def Ends (c : Except ε α) : Prop := ∃ a, c = .ok a

section Rules

variable {c d : Except ε α} {f : α → Except ε γ}

@[simp] theorem ends_ok (a : α) : Ends (.ok a : Except ε α) := ⟨a, rfl⟩

@[simp] theorem ends_error (e : ε) : ¬ Ends (.error e : Except ε α) := by
  rintro ⟨a, ha⟩
  cases ha

theorem ends_bind : Ends (c >>= f) ↔ ∃ a, c = .ok a ∧ Ends (f a) := by
  cases c with
  | error e => exact iff_of_false (ends_error e) (by rintro ⟨a, ha, -⟩; cases ha)
  | ok a =>
    constructor
    · exact fun h => ⟨a, rfl, h⟩
    · rintro ⟨a', ha', h⟩
      cases ha'
      exact h

theorem ends_bind_const {p : Prop} (h : ∀ a, Ends (f a) ↔ p) : Ends (c >>= f) ↔ Ends c ∧ p := by
  rw [ends_bind]
  constructor
  · rintro ⟨a, ha, hf⟩
    exact ⟨⟨a, ha⟩, (h a).mp hf⟩
  · rintro ⟨⟨a, ha⟩, hp⟩
    exact ⟨a, ha, (h a).mpr hp⟩

theorem ends_bind_pure {g : α → γ} : Ends (c >>= fun a => .ok (g a)) ↔ Ends c :=
  (ends_bind_const fun a => iff_true_intro (ends_ok (g a))).trans (iff_of_eq (and_true _))

end Rules

section Reads

variable {outside : ε} {piece : List β} {i n : ℕ}

theorem byte_inside (hi : i < piece.length) (x : β) : byte outside piece i = .ok (piece.getD i x) := by
  rw [byte, List.getElem?_eq_getElem hi, List.getD_eq_getElem _ _ hi]

theorem byte_outside (hi : piece.length ≤ i) : byte outside piece i = .error outside := by
  rw [byte, List.getElem?_eq_none hi]

theorem ends_byte_bind {f : β → Except ε γ} (x : β) :
    Ends (byte outside piece i >>= f) ↔ i < piece.length ∧ Ends (f (piece.getD i x)) := by
  rcases Nat.lt_or_ge i piece.length with hi | hi
  · rw [byte_inside hi x]
    exact (and_iff_right hi).symm
  · rw [byte_outside hi]
    exact iff_of_false (ends_error outside) fun h => absurd h.1 (Nat.not_lt.mpr hi)

theorem span_inside (h : i + n ≤ piece.length) : span outside piece i n = .ok ((piece.drop i).take n) := by
  induction n generalizing i with
  | zero => rw [span, List.take_zero]
  | succ n ih =>
    have hi : i < piece.length := by omega
    have hrest : span outside piece (i + 1) n = .ok ((piece.drop (i + 1)).take n) := ih (by omega)
    rw [span, byte_inside hi piece[i], hrest, List.drop_eq_getElem_cons hi, List.take_succ_cons,
      List.getD_eq_getElem _ _ hi]
    rfl

theorem ends_span : Ends (span outside piece i n) ↔ n = 0 ∨ i + n ≤ piece.length := by
  induction n generalizing i with
  | zero => exact iff_of_true (ends_ok []) (.inl rfl)
  | succ n ih =>
    have hne : ¬ n + 1 = 0 := Nat.succ_ne_zero n
    rw [span, or_iff_right hne, ends_bind]
    rcases Nat.lt_or_ge i piece.length with hi | hi
    · rw [byte_inside hi piece[i]]
      constructor
      · rintro ⟨x, -, hx⟩
        rcases ih.mp (ends_bind_pure.mp hx) with rfl | hle <;> omega
      · exact fun hle => ⟨_, rfl, ends_bind_pure.mpr (ih.mpr (.inr (by omega)))⟩
    · rw [byte_outside hi]
      refine iff_of_false ?_ (by omega)
      rintro ⟨x, hx, -⟩
      cases hx

theorem ends_span_bind {f : List β → Except ε γ} :
    Ends (span outside piece i n >>= f) ↔ (n = 0 ∨ i + n ≤ piece.length) ∧ Ends (f ((piece.drop i).take n)) := by
  by_cases h : n = 0 ∨ i + n ≤ piece.length
  · have hspan : span outside piece i n = .ok ((piece.drop i).take n) := by
      rcases h with rfl | hle
      · rw [span, List.take_zero]
      · exact span_inside hle
    rw [hspan]
    exact (and_iff_right h).symm
  · refine iff_of_false (fun hends => h ?_) fun hand => h hand.1
    obtain ⟨xs, hxs, -⟩ := ends_bind.mp hends
    exact ends_span.mp ⟨xs, hxs⟩

end Reads

end BgtDvb.CheckedRead
