import Mathlib

/-!
# Code that takes and releases a mutex by hand

A call of a component whose data are protected by one mutex, which is not recursive: a call that locks it while
it is held never returns.  What C does not define has no result either, but that is not the mutex.

* `Guarded`, `Outcome`, `Code` — the data with the mutex, what becomes of a call, code over them; it is a monad;
* `Code.lock`, `Code.unlock`, `Code.read`, `Code.change`, `Code.undefined`, `Code.attempt` — the steps there are;
* `Code.Goes a m b` — from the mutex in state `a` the code does not block, and where it returns the mutex is in
  state `b`; `Code.GoesAt` is the same from given data;
* `Code.goes_bind`, `Code.goes_read_bind`, … — one rule for each way to put code together.

Nothing here names a particular component.
-/

namespace BgtDvb.Mutex

/-- The data, and whether the mutex is held. -/
structure Guarded (σ : Type) where
  data : σ
  locked : Bool

inductive Outcome (α : Type)
  | returns (a : α)
  | blocks
  | undefined

/-- Code with a value. -/
def Code (σ α : Type) : Type := Guarded σ → Outcome (α × Guarded σ)

namespace Code

variable {σ α β : Type} {a b c : Bool}

instance : Monad (Code σ) where
  pure v := fun s => .returns (v, s)
  bind m k := fun s =>
    match m s with
    | .returns (v, s) => k v s
    | .blocks => .blocks
    | .undefined => .undefined

def lock : Code σ Unit := fun s => if s.locked then .blocks else .returns ((), { s with locked := true })

def unlock : Code σ Unit := fun s => .returns ((), { s with locked := false })

/-- Something of the data. -/
def read (f : σ → α) : Code σ α := fun s => .returns (f s.data, s)

def change (f : σ → σ) : Code σ Unit := fun s => .returns ((), { s with data := f s.data })

/-- What C does not define. -/
def undefined : Code σ α := fun _ => .undefined

/-- A function of the data that C may not define. -/
def attempt (f : σ → Option (α × σ)) : Code σ α := fun s =>
  match f s.data with
  | none => .undefined
  | some (v, data) => .returns (v, { s with data := data })

/-- From these data. -/
def GoesAt (data : σ) (a : Bool) (m : Code σ α) (b : Bool) : Prop :=
  m ⟨data, a⟩ ≠ .blocks ∧ ∀ v s, m ⟨data, a⟩ = .returns (v, s) → s.locked = b

/-- From any data. -/
def Goes (a : Bool) (m : Code σ α) (b : Bool) : Prop := ∀ data, GoesAt data a m b

theorem goes_pure (a : Bool) (v : α) : Goes a (pure v : Code σ α) a :=
  fun _ => ⟨fun h => (by cases h), fun _ _ h => (by cases h; rfl)⟩

theorem goes_lock : Goes false (lock : Code σ Unit) true :=
  fun _ => ⟨fun h => (by cases h), fun _ _ h => (by cases h; rfl)⟩

theorem goes_unlock (a : Bool) : Goes a (unlock : Code σ Unit) false :=
  fun _ => ⟨fun h => (by cases h), fun _ _ h => (by cases h; rfl)⟩

theorem goes_read (a : Bool) (f : σ → α) : Goes a (read f) a :=
  fun _ => ⟨fun h => (by cases h), fun _ _ h => (by cases h; rfl)⟩

theorem goes_change (a : Bool) (f : σ → σ) : Goes a (change f) a :=
  fun _ => ⟨fun h => (by cases h), fun _ _ h => (by cases h; rfl)⟩

theorem goes_undefined (a b : Bool) : Goes a (undefined : Code σ α) b :=
  fun _ => ⟨fun h => (by cases h), fun _ _ h => (by cases h)⟩

theorem goes_attempt (a : Bool) (f : σ → Option (α × σ)) : Goes a (attempt f) a := by
  intro data
  rw [GoesAt, attempt]
  cases f data with
  | none => exact ⟨fun h => (by cases h), fun _ _ h => (by cases h)⟩
  | some r => exact ⟨fun h => (by cases h), fun _ _ h => (by cases h; rfl)⟩

variable {k : α → Code σ β}

theorem goesAt_bind {data : σ} {m : Code σ α} (hm : GoesAt data a m b)
    (hk : ∀ v data', m ⟨data, a⟩ = .returns (v, ⟨data', b⟩) → GoesAt data' b (k v) c) : GoesAt data a (m >>= k) c := by
  obtain ⟨hblocks, hreturns⟩ := hm
  show (match m ⟨data, a⟩ with | .returns (v, s) => k v s | .blocks => .blocks | .undefined => .undefined) ≠ .blocks ∧
    ∀ v s, (match m ⟨data, a⟩ with | .returns (v, s) => k v s | .blocks => .blocks | .undefined => .undefined) =
      .returns (v, s) → s.locked = c
  cases hout : m ⟨data, a⟩ with
  | blocks => exact absurd hout hblocks
  | undefined => exact ⟨fun h => (by cases h), fun _ _ h => (by cases h)⟩
  | returns r =>
    obtain ⟨v, data', locked⟩ := r
    obtain rfl : locked = b := hreturns v _ hout
    exact hk v data' hout

/-- **One step after another.** -/
theorem goes_bind {m : Code σ α} (hm : Goes a m b) (hk : ∀ v, Goes b (k v) c) :
    Goes a (m >>= k) c := fun data => goesAt_bind (hm data) fun v data' _ => hk v data'

theorem goesAt_read_bind {data : σ} {f : σ → α} (h : GoesAt data a (k (f data)) b) : GoesAt data a (read f >>= k) b :=
  goesAt_bind (goes_read a f data) fun _ _ hr => (by cases hr; exact h)

theorem goes_attempt_bind {f : σ → Option (α × σ)}
    (h : ∀ data v data', f data = some (v, data') → GoesAt data' a (k v) b) : Goes a (attempt f >>= k) b := by
  intro data
  refine goesAt_bind (goes_attempt a f data) fun v data' hr => ?_
  cases hf : f data with
  | none =>
    rw [attempt, hf] at hr
    cases hr
  | some r =>
    rw [attempt, hf] at hr
    cases hr
    exact h data _ _ hf

theorem goes_ite {p : Prop} [Decidable p] {m k : Code σ α} (hm : p → Goes a m b) (hk : ¬p → Goes a k b) :
    Goes a (if p then m else k) b := by
  split
  · exact hm ‹p›
  · exact hk ‹¬p›

theorem goes_unlock_pure (a : Bool) (v : α) : Goes a (unlock >>= fun _ => (pure v : Code σ α)) false :=
  goes_bind (goes_unlock a) fun _ => goes_pure false v

end Code

end BgtDvb.Mutex
