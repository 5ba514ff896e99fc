import Mathlib

/-!
# Steps that record what they do

A driver routine is a sequence of steps on a device.  A step may give up, and the routine with it; what
it did until then was done.  Steps here return a value or nothing, the state after them, and the events
they recorded on the way, so that a statement can be made about every single event of every run.

* `Act σ ε α` — a step on states `σ` with events `ε` and a value `α`; it is a monad;
* `Act.read`, `Act.record`, `Act.fail`, `Act.attempt`, `Act.onlyIf` — the steps there are;
* `Act.Emits P m` — all events of `m`, from any state, meet `P`;
* `Act.emits_bind`, `Act.emits_ite`, … — one rule for each way to put steps together;
* `Act.repeatUntil` — a loop of at most so many rounds.

Nothing here names a particular device.
-/

namespace BgtDvb

/-- A step: its value, if it does not give up, the state after it, and its events. -/
def Act (σ ε α : Type) : Type := σ → Option α × σ × List ε

namespace Act

variable {σ ε α β : Type} {P : ε → Prop}

instance : Monad (Act σ ε) where
  pure a := fun s => (some a, s, [])
  bind m k := fun s =>
    match (m s).1 with
    | none => (none, (m s).2)
    | some a => ((k a (m s).2.1).1, (k a (m s).2.1).2.1, (m s).2.2 ++ (k a (m s).2.1).2.2)

/-- Something of the state. -/
def read (f : σ → α) : Act σ ε α := fun s => (some (f s), s, [])

/-- The next state, with an event that depends on the state before. -/
def record (event : σ → ε) (next : σ → σ) : Act σ ε Unit := fun s => (some (), next s, [event s])

/-- The next state, and nothing to record. -/
def change (next : σ → σ) : Act σ ε Unit := fun s => (some (), next s, [])

def fail : Act σ ε α := fun s => (none, s, [])

/-- A step whose outcome nobody looks at. -/
def attempt (m : Act σ ε α) : Act σ ε Unit := fun s => (some (), (m s).2)

/-- A step that is taken under a condition. -/
def onlyIf (c : Bool) (m : Act σ ε Unit) : Act σ ε Unit := if c = true then m else pure ()

/-- At most so many rounds; a round says whether to go on.  The value says whether the loop ended early. -/
def repeatUntil (round : Act σ ε Bool) : ℕ → Act σ ε Bool
  | 0 => pure false
  | n + 1 => do
    let last ← round
    if last = true then pure true else repeatUntil round n

/-! ### Events -/

/-- All events of a step from a state. -/
def EmitsAt (P : ε → Prop) (m : Act σ ε α) (s : σ) : Prop := ∀ e ∈ (m s).2.2, P e

/-- All events of a step. -/
def Emits (P : ε → Prop) (m : Act σ ε α) : Prop := ∀ s, EmitsAt P m s

theorem emits_pure (a : α) : Emits P (pure a : Act σ ε α) := fun _ _ he => absurd he List.not_mem_nil

theorem emits_read (f : σ → α) : Emits P (read f : Act σ ε α) := fun _ _ he => absurd he List.not_mem_nil

theorem emits_change (next : σ → σ) : Emits P (change next : Act σ ε Unit) := fun _ _ he => absurd he List.not_mem_nil

theorem emits_fail : Emits P (fail : Act σ ε α) := fun _ _ he => absurd he List.not_mem_nil

theorem emits_record {event : σ → ε} {next : σ → σ} (h : ∀ s, P (event s)) : Emits P (record event next) := by
  intro s e he
  rw [List.mem_singleton.mp he]
  exact h s

variable {m : Act σ ε α} {k : α → Act σ ε β}

theorem emits_attempt (h : Emits P m) : Emits P (attempt m) := h

theorem emitsAt_bind {s : σ} (hm : EmitsAt P m s) (hk : ∀ a, (m s).1 = some a → EmitsAt P (k a) (m s).2.1) :
    EmitsAt P (m >>= k) s := by
  intro e he
  dsimp only [bind] at he
  cases hval : (m s).1 with
  | none =>
    rw [hval] at he
    exact hm e he
  | some a =>
    rw [hval] at he
    rcases List.mem_append.mp he with he | he
    · exact hm e he
    · exact hk a hval e he

/-- **One step after another.** -/
theorem emits_bind (hm : Emits P m) (hk : ∀ a, Emits P (k a)) : Emits P (m >>= k) :=
  fun s => emitsAt_bind (hm s) fun a _ => hk a _

theorem emits_read_bind {f : σ → α} (h : ∀ s, EmitsAt P (k (f s)) s) : Emits P (read f >>= k) := by
  intro s
  refine emitsAt_bind (emits_read f s) fun a ha => ?_
  cases ha
  exact h s

theorem emits_ite {c : Prop} [Decidable c] {k : Act σ ε α} (hm : c → Emits P m) (hk : ¬ c → Emits P k) :
    Emits P (if c then m else k) := by
  split
  · exact hm ‹c›
  · exact hk ‹¬ c›

theorem emits_onlyIf (c : Bool) {m : Act σ ε Unit} (h : Emits P m) : Emits P (onlyIf c m) :=
  emits_ite (fun _ => h) fun _ => emits_pure ()

/-- **A loop**: what every round emits. -/
theorem emits_repeatUntil {round : Act σ ε Bool} (h : Emits P round) (n : ℕ) : Emits P (repeatUntil round n) := by
  induction n with
  | zero => exact emits_pure false
  | succ n ih => exact emits_bind h fun last => emits_ite (fun _ => emits_pure true) fun _ => ih

theorem Emits.mono {Q : ε → Prop} (h : Emits P m) (hPQ : ∀ e, P e → Q e) : Emits Q m :=
  fun s e he => hPQ e (h s e he)

/-- The events of steps one after another, whatever becomes of each. -/
def runAll (ms : List (Act σ ε α)) (s : σ) : List ε :=
  match ms with
  | [] => []
  | m :: ms => (m s).2.2 ++ runAll ms (m s).2.1

/-- **Runs**: what each step emits. -/
theorem mem_runAll {ms : List (Act σ ε α)} (h : ∀ m ∈ ms, Emits P m) (s : σ) : ∀ e ∈ runAll ms s, P e := by
  induction ms generalizing s with
  | nil => exact fun _ he => absurd he List.not_mem_nil
  | cons m ms ih =>
    intro e he
    rcases List.mem_append.mp he with he | he
    · exact h m List.mem_cons_self s e he
    · exact ih (fun m' hm' => h m' (List.mem_cons_of_mem _ hm')) _ e he

end Act

end BgtDvb
