import BgtDvb.Lib.GuardedRun

/-!
# Machines with an output for each symbol

A machine reads the symbols of a list one after another and puts out something for each of them.  This
file provides what is needed to compare two of them:

* `outputs step s l`, `finish step s l` — what the machine puts out for the symbols of `l`, and the
  state it ends in;
* `finish_append`, `outputs_append`, `outputs_drop` — one list after another;
* `cascade`, `outputs_cascade` — one machine behind another;
* `outputs_length`, `forall_outputs`, `isChain_outputs` — one output for each symbol, and what holds of all of them;
* `finish_rel` — **PROVED**: two machines in related states that keep the relation for some symbols
  are in related states after any list of them;
* `outputs_rel` — **PROVED**: and with the same outputs at each symbol they have the same outputs;
* `outputs_map` — **PROVED**: a machine that another one abstracts puts out the images of its outputs;
* `forall₂_outputs_iff` — **PROVED**: if under a relation of the states a guard decides at each symbol
  whether the outputs match, and keeps the relation where they do, then the outputs of whole runs
  match exactly along the guarded runs.

Nothing here names a particular machine.
-/

namespace BgtDvb.Mealy

open GuardedRun

variable {σ τ α β γ : Type*}

/-- What is put out for the symbols of a list. -/
def outputs (step : σ → α → σ × β) : σ → List α → List β
  | _, [] => []
  | s, a :: l => (step s a).2 :: outputs step (step s a).1 l

/-- The state after the symbols of a list. -/
def finish (step : σ → α → σ × β) : σ → List α → σ
  | s, [] => s
  | s, a :: l => finish step (step s a).1 l

theorem finish_append (step : σ → α → σ × β) (s : σ) (l l' : List α) :
    finish step s (l ++ l') = finish step (finish step s l) l' := by
  induction l generalizing s with
  | nil => rfl
  | cons a l ih => exact ih (step s a).1

theorem outputs_append (step : σ → α → σ × β) (s : σ) (l l' : List α) :
    outputs step s (l ++ l') = outputs step s l ++ outputs step (finish step s l) l' := by
  induction l generalizing s with
  | nil => rfl
  | cons a l ih => exact congrArg ((step s a).2 :: ·) (ih (step s a).1)

/-- Two machines one behind the other: what the first one puts out is read by the second one at once. -/
def cascade (first : σ → α → σ × List β) (second : τ → β → τ × γ) (s : σ × τ) (a : α) : (σ × τ) × List γ :=
  (((first s.1 a).1, finish second s.2 (first s.1 a).2), outputs second s.2 (first s.1 a).2)

theorem outputs_cascade (first : σ → α → σ × List β) (second : τ → β → τ × γ) (s : σ) (t : τ) (l : List α) :
    (outputs (cascade first second) (s, t) l).flatten = outputs second t (outputs first s l).flatten := by
  induction l generalizing s t with
  | nil => rfl
  | cons a l ih =>
    rw [outputs, List.flatten_cons, outputs, List.flatten_cons, outputs_append, ← ih]
    rfl

theorem outputs_drop (step : σ → α → σ × β) (s : σ) (l : List α) (n : ℕ) :
    (outputs step s l).drop n = outputs step (finish step s (l.take n)) (l.drop n) := by
  induction l generalizing s n with
  | nil =>
    rw [List.drop_nil]
    exact List.drop_nil
  | cons a l ih =>
    cases n with
    | zero => rfl
    | succ n => exact ih (step s a).1 n

theorem outputs_length (step : σ → α → σ × β) (s : σ) (l : List α) : (outputs step s l).length = l.length := by
  induction l generalizing s with
  | nil => rfl
  | cons a l ih => exact congrArg (· + 1) (ih _)

variable {step : σ → α → σ × β} {P : α → Prop} {step' : τ → α → τ × γ}

theorem forall_outputs {I : σ → Prop} {P : β → Prop} (hstep : ∀ s a, I s → I (step s a).1 ∧ P (step s a).2)
    (l : List α) (s : σ) (hs : I s) : ∀ b ∈ outputs step s l, P b := by
  induction l generalizing s with
  | nil => exact fun b hb => absurd hb List.not_mem_nil
  | cons a l ih => exact List.forall_mem_cons.mpr ⟨(hstep s a hs).2, ih _ (hstep s a hs).1⟩

theorem isChain_outputs {R : β → β → Prop} (hstep : ∀ s a a', R (step s a).2 (step (step s a).1 a').2) (l : List α)
    (s : σ) : (outputs step s l).IsChain R := by
  induction l generalizing s with
  | nil => exact .nil
  | cons a l ih =>
    cases l with
    | nil => exact .singleton _
    | cons a' l => exact .cons_cons (hstep s a a') (ih (step s a).1)

theorem finish_rel {R : σ → τ → Prop} (hstep : ∀ s t a, P a → R s t → R (step s a).1 (step' t a).1) :
    ∀ (l : List α) (s : σ) (t : τ), (∀ a ∈ l, P a) → R s t → R (finish step s l) (finish step' t l) := by
  intro l
  induction l with
  | nil =>
    intro s t _ h
    exact h
  | cons a l ih =>
    intro s t hl h
    have ha : R (step s a).1 (step' t a).1 := hstep s t a (hl a List.mem_cons_self) h
    exact ih _ _ (fun b hb => hl b (List.mem_cons_of_mem a hb)) ha

theorem outputs_rel {step' : τ → α → τ × β} {R : σ → τ → Prop}
    (hstep : ∀ s t a, R s t → R (step s a).1 (step' t a).1 ∧ (step s a).2 = (step' t a).2) (l : List α) :
    ∀ (s : σ) (t : τ), R s t → outputs step s l = outputs step' t l := by
  induction l with
  | nil => exact fun _ _ _ => rfl
  | cons a l ih =>
    intro s t h
    obtain ⟨hnext, hout⟩ := hstep s t a h
    rw [outputs, outputs, hout, ih _ _ hnext]

/-- **An abstraction by functions.**  If each step of a machine is the image of a step of another one,
so are its outputs. -/
theorem outputs_map {f : σ → τ} {g : β → γ} (hstep : ∀ s a, P a → step' (f s) a = (f (step s a).1, g (step s a).2)) :
    ∀ (l : List α) (s : σ), (∀ a ∈ l, P a) → outputs step' (f s) l = (outputs step s l).map g := by
  intro l
  induction l with
  | nil =>
    intro s _
    rfl
  | cons a l ih =>
    intro s hl
    show (step' (f s) a).2 :: outputs step' (step' (f s) a).1 l = g (step s a).2 :: (outputs step (step s a).1 l).map g
    rw [hstep s a (hl a List.mem_cons_self), ih _ fun b hb => hl b (List.mem_cons_of_mem a hb)]

/-- **Outputs match along the guarded runs.** -/
theorem forall₂_outputs_iff {R : σ → τ → Prop} {Match : β → γ → Prop} {G : σ → α → Prop}
    (hgood : ∀ s t a, P a → R s t → G s a → R (step s a).1 (step' t a).1 ∧ Match (step s a).2 (step' t a).2)
    (hbad : ∀ s t a, P a → R s t → ¬G s a → ¬Match (step s a).2 (step' t a).2) :
    ∀ (l : List α) (s : σ) (t : τ), (∀ a ∈ l, P a) → R s t →
      (List.Forall₂ Match (outputs step s l) (outputs step' t l) ↔
        Along (fun s a => some (step s a).1) G s l) := by
  intro l
  induction l with
  | nil =>
    intro s t _ _
    exact iff_of_true .nil trivial
  | cons a l ih =>
    intro s t hl h
    have ha : P a := hl a List.mem_cons_self
    rw [along_cons_total]
    show List.Forall₂ Match ((step s a).2 :: outputs step (step s a).1 l)
      ((step' t a).2 :: outputs step' (step' t a).1 l) ↔ _
    rw [List.forall₂_cons]
    by_cases hg : G s a
    · obtain ⟨hrel, hmatch⟩ := hgood s t a ha h hg
      have htail := ih _ _ (fun b hb => hl b (List.mem_cons_of_mem a hb)) hrel
      rw [and_iff_right hmatch, and_iff_right hg]
      exact htail
    · exact iff_of_false (fun hboth => hbad s t a ha h hg hboth.1) fun hboth => hg hboth.1

end BgtDvb.Mealy
