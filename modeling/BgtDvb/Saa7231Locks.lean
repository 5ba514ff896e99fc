import BgtDvb.Saa7231Ts2dtl
import BgtDvb.Saa7231I2c

/-!
# `dev_lock` of the SAA7231

The functions that take `saa7231->dev_lock`, with their exits in front of the lock, under it and behind it.  Nothing that
they call touches this lock.

* `Locked`, `mutexLock`, `mutexUnlock` — code that takes and releases one lock; a second lock of the same thread and a
  release without the lock have no result;
* `acquire_balanced_iff`, `ts2dtlInit_balanced_iff`, `i2cInit_balanced_iff` — **PROVED**: each is balanced exactly on the
  inputs that do not reach its one exit on the wrong side of the lock;
* `devLock_balanced_iff` — **PROVED**: all of them together.
-/

namespace BgtDvb.Saa7231

/-! ### Code under a lock -/

/-- What a thread must not do with a lock. -/
inductive LockMisuse where
  | lockedTwice | notHeld
  deriving Repr, DecidableEq

abbrev Locked (α : Type) := StateT Bool (Except LockMisuse) α

def mutexLock : Locked Unit := fun held => if held then .error .lockedTwice else .ok ((), true)

def mutexUnlock : Locked Unit := fun held => if held then .ok ((), false) else .error .notHeld

/-- The label that the exits under the lock go to: release it and return. -/
def unlockReturn {α : Type} (a : α) : Locked α := do
  mutexUnlock
  pure a

def Balanced {α : Type} (f : Locked α) (held : Bool) : Prop := ∃ a, f.run held = .ok (a, held)

section Locked

variable {α : Type} (a : α)

theorem balanced_region_iff {held : Bool} :
    Balanced (mutexLock >>= fun _ => unlockReturn a) held ↔ held = false := by
  cases held with
  | false => exact iff_of_true ⟨a, rfl⟩ rfl
  | true =>
    refine iff_of_false ?_ (fun h => Bool.false_ne_true h.symm)
    rintro ⟨b, hb⟩
    cases hb

theorem not_balanced_unlock {held : Bool} : ¬Balanced (unlockReturn a) held := by
  rintro ⟨b, hb⟩
  cases held <;> cases hb

theorem not_balanced_lock {held : Bool} : ¬Balanced (mutexLock >>= fun _ => pure a) held := by
  rintro ⟨b, hb⟩
  cases held <;> cases hb

end Locked

/-! ### `saa7231_ts2dtl_acquire` -/

/-- `!params->pitch || !params->lines || !params->bps || !params->spl` -/
def StreamParams.Invalid (p : StreamParams) : Prop := p.pitch = 0 ∨ p.lines = 0 ∨ p.bps = 0 ∨ p.spl = 0

instance (p : StreamParams) : Decidable p.Invalid := inferInstanceAs (Decidable (_ ∨ _ ∨ _ ∨ _))

/-- `saa7231_ts2dtl_acquire`: the code up to the label `err` and, behind the label, the release. -/
def ts2dtlAcquireLocked (o : StartOutcome) (s : Stream) : Locked (ℤ × Stream) :=
  if s.params.Invalid then
    -- `goto err`, in front of `mutex_lock`
    unlockReturn (0, s)
  else do
    mutexLock
    if !s.dtl.clockRun && !o.clocksOk then unlockReturn (0, s)
    else
      let s := { s with dtl := { s.dtl with clockRun := true } }
      let r := saa7231Ts2dtlSetparams s
      if r.1 < 0 then unlockReturn (0, r.2)
      else
        let r' := saa7231Ts2dtlRunPrepare o.preload r.2
        if r'.1 < 0 then unlockReturn (0, r'.2)
        else unlockReturn (0, r'.2)

theorem ts2dtlAcquireLocked_eq (o : StartOutcome) (s : Stream) : ts2dtlAcquireLocked o s =
    if s.params.Invalid then unlockReturn (saa7231Ts2dtlAcquire o s)
    else mutexLock >>= fun _ => unlockReturn (saa7231Ts2dtlAcquire o s) := by
  rw [ts2dtlAcquireLocked, saa7231Ts2dtlAcquire]
  by_cases hinv : s.params.Invalid
  · have hsteps : acquireSteps o s = (-einval, s) := if_pos hinv
    rw [if_pos hinv, if_pos hinv, hsteps]
  · rw [if_neg hinv, if_neg hinv]
    refine congrArg (mutexLock >>= ·) (funext fun _ => ?_)
    rw [acquireSteps, if_neg (c := _ ∨ _ ∨ _ ∨ _) hinv]
    split
    · rfl
    · dsimp only
      split
      · rfl
      · split <;> rfl

theorem acquire_balanced_iff (o : StartOutcome) (s : Stream) (held : Bool) :
    Balanced (ts2dtlAcquireLocked o s) held ↔ held = false ∧ ¬s.params.Invalid := by
  rw [ts2dtlAcquireLocked_eq]
  by_cases hinv : s.params.Invalid
  · rw [if_pos hinv]
    exact iff_of_false (not_balanced_unlock _) fun h => h.2 hinv
  · rw [if_neg hinv, balanced_region_iff]
    exact (and_iff_left hinv).symm

/-! ### `saa7231_ts2dtl_init` -/

/-- The results of what `saa7231_ts2dtl_init` calls. -/
structure Ts2dtlInitOutcome where
  kzallocOk : Bool
  dmabufAlloc : ℕ → ℤ
  ringOk : Bool

def allocBuffers (dmabufAlloc : ℕ → ℤ) : ℕ → ℕ → ℤ
  | 0, _ => 0
  | n + 1, i => if dmabufAlloc i < 0 then -enomem else allocBuffers dmabufAlloc n (i + 1)

/-- `saa7231_ts2dtl_init`: the first switch returns from a port that is none of its own, the others exits go to `err`. -/
def ts2dtlInitLocked (cfg : TsConfig) (x : Ts2dtlInitOutcome) (port : StreamPort) : Locked ℤ := do
  mutexLock
  if (initPort cfg port).isNone then
    -- `return -EINVAL`
    pure (-einval)
  else if !x.kzallocOk then unlockReturn (-enomem)
  else if allocBuffers x.dmabufAlloc ringSiz 0 < 0 then unlockReturn (-enomem)
  else if !x.ringOk then unlockReturn (-enomem)
  else unlockReturn 0

def StreamPort.IsTs (port : StreamPort) : Prop :=
  port = .ts2dDtv0 ∨ port = .ts2dDtv1 ∨ port = .ts2dExt0 ∨ port = .ts2dExt1 ∨ port = .ts2dCam

theorem initPort_isNone_iff (cfg : TsConfig) (port : StreamPort) :
    (initPort cfg port).isNone = true ↔ ¬port.IsTs := by
  unfold StreamPort.IsTs
  cases port <;> simp [initPort]

theorem ts2dtlInit_balanced_iff (cfg : TsConfig) (x : Ts2dtlInitOutcome) (port : StreamPort) (held : Bool) :
    Balanced (ts2dtlInitLocked cfg x port) held ↔ held = false ∧ port.IsTs := by
  rw [ts2dtlInitLocked]
  by_cases hport : (initPort cfg port).isNone = true
  · simp only [if_pos hport]
    exact iff_of_false (not_balanced_lock _) fun h => (initPort_isNone_iff cfg port).mp hport h.2
  · simp only [if_neg hport]
    rw [and_iff_left (not_not.mp (mt (initPort_isNone_iff cfg port).mpr hport))]
    split
    · exact balanced_region_iff _
    · split
      · exact balanced_region_iff _
      · split
        · exact balanced_region_iff _
        · exact balanced_region_iff _

/-! ### `saa7231_i2c_init` -/

/-- `SAA7231_I2C_ADAPTERS` -/
def i2cAdapters : ℕ := 4

/-- The results of what `saa7231_i2c_init` calls. -/
structure I2cInitOutcome where
  kzallocOk : Bool
  addAdapter : ℕ → ℤ

/-- The loop over the adapters, from an adapter on: the error of the first that cannot be added. -/
def addAdapters (addAdapter : ℕ → ℤ) : ℕ → ℕ → ℤ
  | 0, _ => 0
  | n + 1, i => if addAdapter i < 0 then addAdapter i else addAdapters addAdapter n (i + 1)

/-- `saa7231_i2c_init` -/
def i2cInitLocked (x : I2cInitOutcome) : Locked ℤ := do
  mutexLock
  if !x.kzallocOk then
    -- `return -ENOMEM`
    pure (-enomem)
  else
    let err := addAdapters x.addAdapter i2cAdapters 0
    if err < 0 then unlockReturn err
    else unlockReturn 0

theorem i2cInit_balanced_iff (x : I2cInitOutcome) (held : Bool) :
    Balanced (i2cInitLocked x) held ↔ held = false ∧ x.kzallocOk = true := by
  rw [i2cInitLocked]
  cases hok : x.kzallocOk with
  | false => exact iff_of_false (not_balanced_lock _) fun h => Bool.false_ne_true h.2
  | true =>
    rw [and_iff_left rfl]
    simp only [Bool.not_true, Bool.false_eq_true, if_false]
    split
    · exact balanced_region_iff _
    · exact balanced_region_iff _

/-! ### All three -/

/-- **PROVED**: for all parameters and all outcomes of the calls inside them, the functions are balanced exactly if
entered without the lock, with valid stream parameters, a port of TS, and memory for the I2C adapters. -/
theorem devLock_balanced_iff (o : StartOutcome) (s : Stream) (cfg : TsConfig) (x : Ts2dtlInitOutcome)
    (port : StreamPort) (y : I2cInitOutcome) (held : Bool) :
    (Balanced (ts2dtlAcquireLocked o s) held ↔ held = false ∧ ¬s.params.Invalid) ∧
      (Balanced (ts2dtlInitLocked cfg x port) held ↔ held = false ∧ port.IsTs) ∧
      (Balanced (i2cInitLocked y) held ↔ held = false ∧ y.kzallocOk = true) :=
  ⟨acquire_balanced_iff o s held, ts2dtlInit_balanced_iff cfg x port held, i2cInit_balanced_iff y held⟩

/-- Without memory for the adapters the lock stays taken. -/
theorem not_devLock_balanced : ¬∀ (o : StartOutcome) (s : Stream) (cfg : TsConfig) (x : Ts2dtlInitOutcome)
    (port : StreamPort) (y : I2cInitOutcome), Balanced (ts2dtlAcquireLocked o s) false ∧
      Balanced (ts2dtlInitLocked cfg x port) false ∧ Balanced (i2cInitLocked y) false := by
  intro hall
  have hbal := (hall ⟨true, fun _ => 0⟩ (freshStream .ts2dDtv0 0 0 (fun _ => ⟨0, 0, 0⟩) fun _ => 0) ⟨0, 0, 0, 0⟩
    ⟨true, fun _ => 0, true⟩ .ts2dDtv0 ⟨false, fun _ => 0⟩).2.2
  have hmem := (i2cInit_balanced_iff ⟨false, fun _ => 0⟩ false).mp hbal
  exact Bool.false_ne_true hmem.2

end BgtDvb.Saa7231
