import Mathlib

/-!
# Guarded runs of a partial transition function

A system is a partial transition function `step : σ → ω → Option σ` over operations `ω`; `none`
is a step that never returns.  A property of a run is rarely a property of its last state: it
speaks of every step that was taken.  This file provides the one predicate such statements need:

* `Along step P s ops` — `P` holds at every step of the run of `ops` from `s`, each time of the
  state **before** the step and of the operation;
* `Along.invariant` — **PROVED**: an invariant kept by every guarded step holds at the end of
  every guarded run;
* `Along.of_invariant` — **PROVED**: what the guard gives at every single step under such an invariant
  holds along every guarded run;
* `along_iff_of_invariant` — **PROVED**: if, under an invariant that guarded steps keep, the guard
  and a property agree step by step, then they agree on whole runs.

Nothing here names a particular machine.
-/

namespace BgtDvb.GuardedRun

variable {σ ω : Type*}

/-- `P` holds at every step of the run of the operations from `s`. -/
def Along (step : σ → ω → Option σ) (P : σ → ω → Prop) : σ → List ω → Prop
  | _, [] => True
  | s, o :: os => P s o ∧ ∀ s', step s o = some s' → Along step P s' os

variable {step : σ → ω → Option σ}

theorem along_cons {P : σ → ω → Prop} {s : σ} {o : ω} {os : List ω} :
    Along step P s (o :: os) ↔ P s o ∧ ∀ s', step s o = some s' → Along step P s' os := Iff.rfl

theorem along_cons_total {f : σ → ω → σ} {P : σ → ω → Prop} {s : σ} {o : ω} {os : List ω} :
    Along (fun s o => some (f s o)) P s (o :: os) ↔
      P s o ∧ Along (fun s o => some (f s o)) P (f s o) os := by
  constructor
  · rintro ⟨h, hs⟩
    exact ⟨h, hs _ rfl⟩
  · rintro ⟨h, hs⟩
    refine ⟨h, fun s' hs' => ?_⟩
    cases hs'
    exact hs

/-- Along a concrete run a decidable property can be evaluated. -/
instance instDecidableAlong {step : σ → ω → Option σ} {P : σ → ω → Prop} [∀ s o, Decidable (P s o)] :
    ∀ (s : σ) (ops : List ω), Decidable (Along step P s ops)
  | _, [] => isTrue trivial
  | s, o :: os =>
    match h : step s o with
    | none => decidable_of_iff (P s o) (by simp [along_cons, h])
    | some s' =>
      have : Decidable (Along step P s' os) := instDecidableAlong s' os
      decidable_of_iff (P s o ∧ Along step P s' os) (by simp [along_cons, h])

/-- **The invariant rule.**  What every guarded step keeps holds after every guarded run. -/
theorem Along.invariant {step : σ → ω → Option σ} {G : σ → ω → Prop} {I : σ → Prop}
    (hstep : ∀ s o s', I s → G s o → step s o = some s' → I s') :
    ∀ (ops : List ω) (s s' : σ), I s → Along step G s ops → ops.foldlM step s = some s' → I s' := by
  intro ops
  induction ops with
  | nil =>
    intro s s' hI _ hrun
    cases hrun
    exact hI
  | cons o os ih =>
    intro s s' hI hG hrun
    rw [List.foldlM_cons] at hrun
    obtain ⟨s₁, hs₁, hrest⟩ := Option.bind_eq_some_iff.mp hrun
    exact ih s₁ s' (hstep s o s₁ hI hG.1 hs₁) (hG.2 s₁ hs₁) hrest

/-- **The guard carries a property along runs.**  Under an invariant that the guarded steps keep, a
property that the guard gives at each single step holds along every guarded run. -/
theorem Along.of_invariant {G Q : σ → ω → Prop} {I : σ → Prop}
    (hstep : ∀ s o s', I s → G s o → step s o = some s' → I s') (himp : ∀ s o, I s → G s o → Q s o) :
    ∀ (ops : List ω) (s : σ), I s → Along step G s ops → Along step Q s ops := by
  intro ops
  induction ops with
  | nil =>
    intro s _ _
    trivial
  | cons o os ih =>
    intro s hI hG
    exact ⟨himp s o hI hG.1, fun s' hs' => ih s' (hstep s o s' hI hG.1 hs') (hG.2 s' hs')⟩

/-- **Guard and property agree on runs.**  Under an invariant that the guarded steps keep, a
property that agrees with the guard at each single step agrees with it along every run. -/
theorem along_iff_of_invariant {G Q : σ → ω → Prop} {I : σ → Prop}
    (hstep : ∀ s o s', I s → G s o → step s o = some s' → I s') (hiff : ∀ s o, I s → (Q s o ↔ G s o)) :
    ∀ (ops : List ω) (s : σ), I s → (Along step Q s ops ↔ Along step G s ops) := by
  intro ops
  induction ops with
  | nil => intro s _; exact Iff.rfl
  | cons o os ih =>
    intro s hI
    rw [along_cons, along_cons, hiff s o hI]
    constructor
    · rintro ⟨hG, hrest⟩
      exact ⟨hG, fun s' hs' => (ih s' (hstep s o s' hI hG hs')).mp (hrest s' hs')⟩
    · rintro ⟨hG, hrest⟩
      exact ⟨hG, fun s' hs' => (ih s' (hstep s o s' hI hG hs')).mpr (hrest s' hs')⟩

end BgtDvb.GuardedRun
