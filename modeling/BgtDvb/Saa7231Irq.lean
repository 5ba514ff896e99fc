import BgtDvb.Saa7231Msi

/-!
# The interrupt handler of the SAA7231

`saa7231_irq_handler` samples the four status words, then runs over their bits: for each pending
vector it writes the **whole** sampled word to `MSI_INT_STATUS_CLR`, clears an access violation of
the DCSN if its vector 52 is pending, and calls the handler of the vector.  The hardware raises
vectors at any time.

* `IrqState.NoLoss`, `IrqState.OncePerRun` — a raise is answered by a later call or still recorded;
  a run calls every pending vector once;
* `irq_sound` — **PROVED**: both hold in every state of every interleaving in which no vector is
  raised again between its own call and the last clearing of its word, vector 52 is not pending
  together with a lower one, and the words do not read as those of an unplugged device.

The two loops run through the vectors in order, so a position is one vector: `i` is `vector / 32`
and `j` is `vector % 32`.
-/

namespace BgtDvb.Saa7231

open BgtDvb.GuardedRun

/-! ### Words of vectors -/

/-- Bit `v % 32` of word `v / 32`. -/
def bitAt (w : ℕ → BitVec 32) (v : ℕ) : Bool := (w (v / 32)).getLsbD (v % 32)

/-- A raise of `v` in the status words. -/
def raiseBit (w : ℕ → BitVec 32) (v : ℕ) : ℕ → BitVec 32 :=
  Function.update w (v / 32) (w (v / 32) ||| 1#32 <<< (v % 32))

/-- A write of `x` to `MSI_INT_STATUS_CLR(i)`. -/
def clrWord (w : ℕ → BitVec 32) (i : ℕ) (x : BitVec 32) : ℕ → BitVec 32 :=
  Function.update w i (w i &&& ~~~x)

/-- `status[1] &= ~0x100000`. -/
def dcsnMask (w : ℕ → BitVec 32) : ℕ → BitVec 32 :=
  Function.update w 1 (w 1 &&& ~~~(1#32 <<< 20))

def dcsnVector : ℕ := 52

theorem bitAt_raiseBit (w : ℕ → BitVec 32) (v u : ℕ) :
    bitAt (raiseBit w v) u = (bitAt w u || decide (u = v)) := by
  have hk := Nat.mod_lt v (by decide : 0 < 32)
  rw [bitAt, bitAt, raiseBit]
  by_cases hbank : u / 32 = v / 32
  · rw [hbank, Function.update_self, BitVec.getLsbD_or, getLsbD_one_shiftLeft hk]
    congr 1
    rw [decide_eq_decide]
    omega
  · rw [Function.update_of_ne hbank, decide_eq_false (fun h => hbank (by rw [h])), Bool.or_false]

theorem bitAt_clrWord (w : ℕ → BitVec 32) (i : ℕ) (x : BitVec 32) (u : ℕ) :
    bitAt (clrWord w i x) u = (bitAt w u && !(decide (u / 32 = i) && x.getLsbD (u % 32))) := by
  have hk := Nat.mod_lt u (by decide : 0 < 32)
  rw [bitAt, bitAt, clrWord]
  by_cases hbank : u / 32 = i
  · rw [hbank, Function.update_self, BitVec.getLsbD_and, BitVec.getLsbD_not, decide_eq_true hk,
      decide_eq_true rfl, Bool.true_and, Bool.true_and]
  · rw [Function.update_of_ne hbank, decide_eq_false hbank, Bool.false_and, Bool.not_false,
      Bool.and_true]

theorem bitAt_dcsnMask (w : ℕ → BitVec 32) (u : ℕ) :
    bitAt (dcsnMask w) u = (bitAt w u && decide (u ≠ dcsnVector)) := by
  show bitAt (clrWord w 1 (1#32 <<< 20)) u = _
  rw [bitAt_clrWord, getLsbD_one_shiftLeft (by decide)]
  congr 1
  rw [Bool.eq_iff_iff, dcsnVector]
  simp only [Bool.not_eq_true', Bool.and_eq_false_iff, decide_eq_false_iff_not, decide_eq_true_eq]
  omega

/-! ### The handler, step by step -/

/-- The table of events as the registration functions leave it: an entry with a handler carries its
own vector. -/
structure EventTable (η : Type*) where
  entry : ℕ → IrqEntry η
  vector_eq : ∀ v, (entry v).handler.isSome = true → (entry v).vector = v

theorem vector_eq_step {η : Type*} {s : Msi η}
    (h : ∀ v, (s.event v).handler.isSome = true → (s.event v).vector = v) (op : VectorOp η) :
    ∀ v, ((s.step op).event v).handler.isSome = true → ((s.step op).event v).vector = v := by
  intro v hv
  cases op with
  | addIrqevent u e hd =>
    rw [Msi.step, saa7231AddIrqevent] at hv ⊢
    by_cases huv : v = u
    · subst huv
      simp only [Function.update_self]
    · simp only [Function.update_of_ne huv] at hv ⊢
      exact h v hv
  | addMsivector u e hd => exact h v hv
  | removeIrqevent u =>
    by_cases hu : (s.event u).handler.isSome = true
    · rw [Msi.step, saa7231RemoveIrqevent, if_pos hu] at hv ⊢
      have hev : (saa7231VectorCtl { s with
          event := Function.update s.event u ⟨0, none⟩
          handlers := (s.handlers + 255) % 256 } u false).event = Function.update s.event u ⟨0, none⟩ := rfl
      rw [hev] at hv ⊢
      by_cases huv : v = u
      · rw [huv, Function.update_self] at hv
        exact absurd hv (by simp)
      · rw [Function.update_of_ne huv] at hv ⊢
        exact h v hv
    · rw [Msi.step, removeIrqevent_of_none s u hu] at hv ⊢
      exact h v hv
  | removeMsivector u =>
    rw [Msi.step, removeMsivector_eq_body] at hv ⊢
    by_cases hu : (s.msix u).vector = u ∧ (s.msix u).handler.isSome = true
    · rw [removeMsivectorBody, if_pos hu.1, if_pos hu.2] at hv ⊢
      exact h v hv
    · rw [removeMsivectorBody_of_none u s hu] at hv ⊢
      exact h v hv

def eventTableOfRun {η : Type*} (s : Msi η) (ops : List (VectorOp η))
    (h : ∀ v, (s.event v).handler.isSome = true → (s.event v).vector = v) : EventTable η where
  entry := (ops.foldl Msi.step s).event
  vector_eq := by
    induction ops generalizing s with
    | nil => exact h
    | cons op ops ih => exact ih (s.step op) (vector_eq_step h op)

/-- Where `saa7231_irq_handler` is: outside, about to sample word `i`, at the top of the inner loop
for a vector, or between the clearing of the word and the call for the vector. -/
inductive IrqPhase where
  | idle
  | sample (i : ℕ) (saved : ℕ → BitVec 32)
  | loop (vector : ℕ) (saved : ℕ → BitVec 32)
  | dispatch (vector : ℕ) (saved : ℕ → BitVec 32)

/-- The status words, the DCSN status, the position of the handler, and what a run is judged by: the
words as sampled, the calls of the run, and the vectors raised since their last call. -/
structure IrqState where
  status : ℕ → BitVec 32
  dcsn : BitVec 32
  phase : IrqPhase
  sampled : ℕ → BitVec 32
  calls : ℕ → ℕ
  owed : ℕ → Bool

/-- `SAA7231_IRQNONE`. -/
def irqNone (w : ℕ → BitVec 32) : Bool := w 0 ||| w 1 ||| w 2 ||| w 3 == 0

/-- `SAA7231_UNPLUGD`. -/
def irqUnplugd (w : ℕ → BitVec 32) : Bool :=
  w 0 == 0xffffffff && w 1 == 0xffffffff && w 2 == 0xffffffff && w 3 == 0xffffffff

/-- A raise by the hardware, or the next step of the handler. -/
inductive IrqOp where
  | raise (v : ℕ)
  | tick

variable {η : Type*}

/-- One access: the entry, a sample, the decision after the samples, the clearing of a word, a call.
`none` is the call of a `NULL` handler. -/
def IrqState.tick (T : EventTable η) (s : IrqState) : Option IrqState :=
  match s.phase with
  | .idle => some { s with phase := .sample 0 fun _ => 0, sampled := fun _ => 0, calls := fun _ => 0 }
  | .sample i saved =>
    if i < 4 then
      some { s with
        phase := .sample (i + 1) (Function.update saved i (s.status i))
        sampled := Function.update s.sampled i (s.status i) }
    else if irqNone saved || irqUnplugd saved then some { s with phase := .idle }
    else some { s with phase := .loop 0 saved }
  | .loop v saved =>
    if v < msiVectors then
      if bitAt saved v then
        let s := { s with status := clrWord s.status (v / 32) (saved (v / 32)) }
        if saved 1 &&& 0x100000 ≠ 0 then
          some { s with dcsn := s.dcsn &&& ~~~s.dcsn, phase := .dispatch v (dcsnMask saved) }
        else some { s with phase := .dispatch v saved }
      else some { s with phase := .loop (v + 1) saved }
    else some { s with phase := .idle }
  | .dispatch v saved =>
    if (T.entry v).vector = v then
      if (T.entry v).handler.isSome then
        some { s with
          phase := .loop (v + 1) saved
          calls := Function.update s.calls v (s.calls v + 1)
          owed := Function.update s.owed v false }
      else none
    else some { s with phase := .loop (v + 1) saved }

def IrqState.raise (s : IrqState) (v : ℕ) : IrqState :=
  { s with status := raiseBit s.status v, owed := Function.update s.owed v true }

def IrqState.step (T : EventTable η) (s : IrqState) : IrqOp → Option IrqState
  | .raise v => some (s.raise v)
  | .tick => s.tick T

/-! ### What a state owes -/

/-- The dispatch of the vector from the saved words is still to come. -/
def StillToCome (v : ℕ) : IrqPhase → Prop
  | .idle => False
  | .sample i saved => v / 32 < i ∧ bitAt saved v = true
  | .loop p saved => p ≤ v ∧ bitAt saved v = true
  | .dispatch p saved => v = p ∨ p < v ∧ bitAt saved v = true

instance (v : ℕ) : ∀ ph : IrqPhase, Decidable (StillToCome v ph)
  | .idle => isFalse id
  | .sample i saved => inferInstanceAs (Decidable (v / 32 < i ∧ bitAt saved v = true))
  | .loop p saved => inferInstanceAs (Decidable (p ≤ v ∧ bitAt saved v = true))
  | .dispatch p saved => inferInstanceAs (Decidable (v = p ∨ p < v ∧ bitAt saved v = true))

/-- The vector is set in the status words, or its dispatch is still to come. -/
def IrqState.Recorded (s : IrqState) (v : ℕ) : Prop :=
  bitAt s.status v = true ∨ StillToCome v s.phase

instance (s : IrqState) (v : ℕ) : Decidable (s.Recorded v) := inferInstanceAs (Decidable (_ ∨ _))

def IrqState.NoLoss (T : EventTable η) (s : IrqState) : Prop :=
  ∀ v, v < msiVectors → (T.entry v).handler.isSome = true → s.owed v = true → s.Recorded v

/-- No vector is called twice in a run, and when the handler has returned, every vector pending in
the words it sampled was called. -/
def IrqState.OncePerRun (T : EventTable η) (s : IrqState) : Prop :=
  ∀ v, v < msiVectors → (T.entry v).handler.isSome = true →
    s.calls v ≤ 1 ∧ (s.phase = .idle → bitAt s.sampled v = true → s.calls v = 1)

/-! ### The condition -/

/-- The word of `v` was sampled with `v` pending, and a vector of the word from `p` on is still to be
dispatched: its clearing wipes out a new raise of `v`. -/
def WipedLater (saved : ℕ → BitVec 32) (v p : ℕ) : Prop :=
  bitAt saved v = true ∧ ∃ u, u < msiVectors ∧ p ≤ u ∧ u / 32 = v / 32 ∧ bitAt saved u = true

instance (saved : ℕ → BitVec 32) (v p : ℕ) : Decidable (WipedLater saved v p) :=
  inferInstanceAs (Decidable (_ ∧ _))

/-- `v` is not raised between its own call and the last clearing of its word. -/
def RaiseSafe (v : ℕ) : IrqPhase → Prop
  | .idle => True
  | .sample _ _ => True
  | .loop p saved => v < p → ¬ WipedLater saved v p
  | .dispatch p saved => v < p → ¬ WipedLater saved v (p + 1)

instance (v : ℕ) : ∀ ph : IrqPhase, Decidable (RaiseSafe v ph)
  | .idle => isTrue trivial
  | .sample _ _ => isTrue trivial
  | .loop p saved => inferInstanceAs (Decidable (v < p → ¬ WipedLater saved v p))
  | .dispatch p saved => inferInstanceAs (Decidable (v < p → ¬ WipedLater saved v (p + 1)))

/-- The complete samples do not look like an unplugged device, and a registered vector 52 is not
pending together with a lower vector. -/
def SamplesSound (T : EventTable η) : IrqPhase → Prop
  | .sample i saved => i = 4 → irqUnplugd saved = false ∧
      ((T.entry dcsnVector).handler.isSome = true → bitAt saved dcsnVector = true →
        ∀ u, u < dcsnVector → bitAt saved u = false)
  | _ => True

instance (T : EventTable η) : ∀ ph : IrqPhase, Decidable (SamplesSound T ph)
  | .idle => isTrue trivial
  | .sample i _ => inferInstanceAs (Decidable (i = 4 → _ ∧ (_ → _ → ∀ u, u < dcsnVector → _)))
  | .loop _ _ => isTrue trivial
  | .dispatch _ _ => isTrue trivial

def IrqGuard (T : EventTable η) (s : IrqState) : IrqOp → Prop
  | .raise v => (T.entry v).handler.isSome = true → RaiseSafe v s.phase
  | .tick => SamplesSound T s.phase

instance (T : EventTable η) (s : IrqState) : ∀ o : IrqOp, Decidable (IrqGuard T s o)
  | .raise v => inferInstanceAs (Decidable (_ → RaiseSafe v s.phase))
  | .tick => inferInstanceAs (Decidable (SamplesSound T s.phase))

/-! ### The invariant, phase by phase -/

section Invariant

variable (T : EventTable η)

/-- Outside the handler every owed vector is in the status words. -/
structure IdleInv (s : IrqState) : Prop where
  kept : ∀ v, v < msiVectors → (T.entry v).handler.isSome = true → s.owed v = true →
    bitAt s.status v = true
  once : ∀ v, v < msiVectors → (T.entry v).handler.isSome = true →
    s.calls v ≤ 1 ∧ (bitAt s.sampled v = true → s.calls v = 1)

/-- Nothing is cleared while the words are sampled. -/
structure SampleInv (s : IrqState) (i : ℕ) (saved : ℕ → BitVec 32) : Prop where
  le : i ≤ 4
  kept : ∀ v, v < msiVectors → (T.entry v).handler.isSome = true → s.owed v = true →
    bitAt s.status v = true
  calls_eq : ∀ v, s.calls v = 0
  saved_eq : saved = s.sampled

/-- What the loop knows of the sampled words at position `p`: `q` is the first vector that is still
to be looked at. -/
structure ScanInv (s : IrqState) (p q : ℕ) (saved : ℕ → BitVec 32) : Prop where
  calls_eq : ∀ v, v < msiVectors → (T.entry v).handler.isSome = true →
    s.calls v = if v < p ∧ bitAt s.sampled v = true then 1 else 0
  saved_eq : ∀ v, v < msiVectors → (T.entry v).handler.isSome = true → q ≤ v →
    bitAt saved v = bitAt s.sampled v
  saved_le : ∀ v, bitAt saved v = true → bitAt s.sampled v = true
  dcsn : (T.entry dcsnVector).handler.isSome = true → bitAt s.sampled dcsnVector = true →
    ∀ u, u < dcsnVector → bitAt s.sampled u = false
  safe : ∀ v, v < msiVectors → (T.entry v).handler.isSome = true → s.owed v = true → v < p →
    ¬ WipedLater saved v q

/-- At the top of the inner loop an owed vector is in the status words or ahead. -/
structure LoopInv (s : IrqState) (p : ℕ) (saved : ℕ → BitVec 32) : Prop where
  le : p ≤ msiVectors
  kept : ∀ v, v < msiVectors → (T.entry v).handler.isSome = true → s.owed v = true →
    bitAt s.status v = true ∨ p ≤ v ∧ bitAt saved v = true
  scan : ScanInv T s p p saved

/-- After the clearing an owed vector may also be the one that is called next. -/
structure DispatchInv (s : IrqState) (p : ℕ) (saved : ℕ → BitVec 32) : Prop where
  lt : p < msiVectors
  due : bitAt s.sampled p = true
  kept : ∀ v, v < msiVectors → (T.entry v).handler.isSome = true → s.owed v = true →
    bitAt s.status v = true ∨ v = p ∨ p < v ∧ bitAt saved v = true
  scan : ScanInv T s p (p + 1) saved

def IrqInv (s : IrqState) : Prop :=
  match s.phase with
  | .idle => IdleInv T s
  | .sample i saved => SampleInv T s i saved
  | .loop p saved => LoopInv T s p saved
  | .dispatch p saved => DispatchInv T s p saved

end Invariant

variable {T : EventTable η}

variable {s : IrqState} {u v p : ℕ} {saved : ℕ → BitVec 32}

theorem IrqInv.sound (h : IrqInv T s) : s.NoLoss T ∧ s.OncePerRun T := by
  cases hp : s.phase with
  | idle =>
    rw [IrqInv, hp] at h
    exact ⟨fun v hv hr ho => Or.inl (h.kept v hv hr ho),
      fun v hv hr => ⟨(h.once v hv hr).1, fun _ => (h.once v hv hr).2⟩⟩
  | sample i saved =>
    rw [IrqInv, hp] at h
    refine ⟨fun v hv hr ho => Or.inl (h.kept v hv hr ho), fun v hv hr => ⟨?_, fun hx => ?_⟩⟩
    · rw [h.calls_eq]
      exact Nat.zero_le 1
    · rw [hp] at hx
      exact absurd hx IrqPhase.noConfusion
  | loop p saved =>
    rw [IrqInv, hp] at h
    refine ⟨fun v hv hr ho => ?_, fun v hv hr => ⟨?_, fun hx => ?_⟩⟩
    · rw [IrqState.Recorded, hp]
      exact h.kept v hv hr ho
    · rw [h.scan.calls_eq v hv hr]
      split <;> omega
    · rw [hp] at hx
      exact absurd hx IrqPhase.noConfusion
  | dispatch p saved =>
    rw [IrqInv, hp] at h
    refine ⟨fun v hv hr ho => ?_, fun v hv hr => ⟨?_, fun hx => ?_⟩⟩
    · rw [IrqState.Recorded, hp]
      exact h.kept v hv hr ho
    · rw [h.scan.calls_eq v hv hr]
      split <;> omega
    · rw [hp] at hx
      exact absurd hx IrqPhase.noConfusion

/-! ### Raises -/

theorem bitAt_status_raise (h : bitAt s.status v = true) : bitAt (s.raise u).status v = true := by
  show bitAt (raiseBit s.status u) v = true
  rw [bitAt_raiseBit, h, Bool.true_or]

theorem raise_kept {P : Prop} (h : s.owed v = true → bitAt s.status v = true ∨ P) (ho : (s.raise u).owed v = true) :
    bitAt (s.raise u).status v = true ∨ P := by
  by_cases huv : v = u
  · left
    show bitAt (raiseBit s.status u) v = true
    rw [bitAt_raiseBit, decide_eq_true huv, Bool.or_true]
  · have ho' : s.owed v = true := by
      rw [← ho]
      exact (Function.update_of_ne huv _ _).symm
    exact (h ho').imp bitAt_status_raise id

theorem ScanInv.raise {q : ℕ} (h : ScanInv T s p q saved)
    (hg : (T.entry u).handler.isSome = true → u < p → ¬ WipedLater saved u q) : ScanInv T (s.raise u) p q saved := by
  refine ⟨h.calls_eq, h.saved_eq, h.saved_le, h.dcsn, fun v hv hr ho hlt => ?_⟩
  by_cases huv : v = u
  · subst huv
    exact hg hr hlt
  · refine h.safe v hv hr ?_ hlt
    rw [← ho]
    exact (Function.update_of_ne huv _ _).symm

theorem IrqInv.raise (h : IrqInv T s) (u : ℕ) (hg : IrqGuard T s (.raise u)) : IrqInv T (s.raise u) := by
  have hphase : (s.raise u).phase = s.phase := rfl
  rw [IrqInv, hphase]
  cases hp : s.phase with
  | idle =>
    rw [IrqInv, hp] at h
    refine ⟨fun v hv hr ho => ?_, h.once⟩
    exact (raise_kept (P := False) (fun ho => Or.inl (h.kept v hv hr ho)) ho).resolve_right id
  | sample i saved =>
    rw [IrqInv, hp] at h
    refine ⟨h.le, fun v hv hr ho => ?_, h.calls_eq, h.saved_eq⟩
    exact (raise_kept (P := False) (fun ho => Or.inl (h.kept v hv hr ho)) ho).resolve_right id
  | loop p saved =>
    rw [IrqInv, hp] at h
    rw [IrqGuard, hp] at hg
    exact ⟨h.le, fun v hv hr ho => raise_kept (h.kept v hv hr) ho, h.scan.raise hg⟩
  | dispatch p saved =>
    rw [IrqInv, hp] at h
    rw [IrqGuard, hp] at hg
    exact ⟨h.lt, h.due, fun v hv hr ho => raise_kept (h.kept v hv hr) ho, h.scan.raise hg⟩

/-! ### Steps of the handler -/

theorem bitAt_of_irqNone {w : ℕ → BitVec 32} (h : irqNone w = true) (hv : v < msiVectors) : bitAt w v = false := by
  rw [irqNone, beq_iff_eq] at h
  have hor : w 0 ||| w 1 ||| w 2 ||| w 3 = 0#32 := h
  rw [BitVec.or_eq_zero_iff, BitVec.or_eq_zero_iff, BitVec.or_eq_zero_iff] at hor
  obtain ⟨⟨⟨h0, h1⟩, h2⟩, h3⟩ := hor
  have hz : w (v / 32) = 0#32 := by
    rw [msiVectors] at hv
    have hcases : v / 32 = 0 ∨ v / 32 = 1 ∨ v / 32 = 2 ∨ v / 32 = 3 := by omega
    rcases hcases with hk | hk | hk | hk <;> rw [hk] <;> assumption
  rw [bitAt, hz]
  exact BitVec.getLsbD_zero

theorem SampleInv.check (h : SampleInv T s 4 saved) (hun : irqUnplugd saved = false)
    (hd : (T.entry dcsnVector).handler.isSome = true → bitAt saved dcsnVector = true →
      ∀ u, u < dcsnVector → bitAt saved u = false) :
    (irqNone saved || irqUnplugd saved) = true ∧ IdleInv T { s with phase := .idle } ∨
      (irqNone saved || irqUnplugd saved) = false ∧
        LoopInv T { s with phase := .loop 0 saved } 0 saved := by
  have hs := h.saved_eq
  subst hs
  cases hn : irqNone s.sampled with
  | true =>
    refine Or.inl ⟨rfl, h.kept, fun v hv hr => ⟨?_, fun hb => ?_⟩⟩
    · show s.calls v ≤ 1
      rw [h.calls_eq]
      exact Nat.zero_le 1
    · rw [bitAt_of_irqNone hn hv] at hb
      exact absurd hb (by decide)
  | false =>
    refine Or.inr ⟨by rw [hun]; rfl, Nat.zero_le _, fun v hv hr ho => Or.inl (h.kept v hv hr ho), ?_⟩
    refine ⟨fun v hv hr => ?_, fun _ _ _ _ => rfl, fun _ hb => hb, hd, fun v _ _ _ hlt => ?_⟩
    · rw [if_neg fun hx => absurd hx.1 (Nat.not_lt_zero v)]
      exact h.calls_eq v
    · exact absurd hlt (Nat.not_lt_zero v)

theorem bitAt_of_not_dcsn {w : ℕ → BitVec 32} (h : ¬ w 1 &&& 0x100000 ≠ 0) (u : ℕ) :
    bitAt w u = (bitAt w u && decide (u ≠ dcsnVector)) := by
  have hz : bitAt w dcsnVector = false := by
    have hbit := congrArg (fun x => BitVec.getLsbD x 20) (not_not.mp h)
    simpa [bitAt, dcsnVector] using hbit
  by_cases hu : u = dcsnVector
  · rw [hu, hz, Bool.false_and]
  · rw [decide_eq_true hu, Bool.and_true]

theorem LoopInv.clear {saved' : ℕ → BitVec 32} {d : BitVec 32} (h : LoopInv T s p saved) (hlt : p < msiVectors)
    (hb : bitAt saved p = true) (hs : ∀ u, bitAt saved' u = (bitAt saved u && decide (u ≠ dcsnVector))) :
    DispatchInv T { s with
      status := clrWord s.status (p / 32) (saved (p / 32)), dcsn := d
      phase := .dispatch p saved' } p saved' := by
  have hdue := h.scan.saved_le p hb
  -- a registered vector 52 ahead of `p` was not pending, so the mask changes nothing
  have hmask : ∀ v, v < msiVectors → (T.entry v).handler.isSome = true → p < v →
      bitAt saved' v = bitAt saved v := by
    intro v hv hr hpv
    rw [hs]
    by_cases h52 : v = dcsnVector
    · subst h52
      cases hbv : bitAt saved dcsnVector with
      | false => rfl
      | true =>
        have hlow := h.scan.dcsn hr (h.scan.saved_le _ hbv) p hpv
        rw [hdue] at hlow
        exact absurd hlow (by decide)
    · rw [decide_eq_true h52, Bool.and_true]
  have hle : ∀ v, bitAt saved' v = true → bitAt saved v = true := by
    intro v hv
    rw [hs, Bool.and_eq_true] at hv
    exact hv.1
  refine ⟨hlt, hdue, fun v hv hr ho => ?_, h.scan.calls_eq, fun v hv hr hq => ?_,
    fun v hv => h.scan.saved_le v (hle v hv), h.scan.dcsn, fun v hv hr ho hvp hw => ?_⟩
  · rcases Nat.lt_trichotomy v p with hvp | hvp | hvp
    · -- behind `p`: a clearing of its bit would have made the raise unsafe
      left
      have hst := (h.kept v hv hr ho).resolve_right fun hx => by omega
      show bitAt (clrWord s.status (p / 32) (saved (p / 32))) v = true
      rw [bitAt_clrWord, hst, Bool.true_and]
      cases hc : (decide (v / 32 = p / 32) && (saved (p / 32)).getLsbD (v % 32)) with
      | false => rfl
      | true =>
        rw [Bool.and_eq_true, decide_eq_true_eq] at hc
        have hbv : bitAt saved v = true := by
          rw [bitAt, hc.1]
          exact hc.2
        exact absurd ⟨hbv, p, hlt, le_refl p, hc.1.symm, hb⟩ (h.scan.safe v hv hr ho hvp)
    · exact Or.inr (Or.inl hvp)
    · -- ahead of `p`: in the saved word, or not cleared
      cases hbv : bitAt saved v with
      | true => exact Or.inr (Or.inr ⟨hvp, by rw [hmask v hv hr hvp]; exact hbv⟩)
      | false =>
        left
        have hst := (h.kept v hv hr ho).resolve_right fun hx => by
          rw [hbv] at hx
          exact absurd hx.2 (by decide)
        show bitAt (clrWord s.status (p / 32) (saved (p / 32))) v = true
        rw [bitAt_clrWord, hst, Bool.true_and]
        by_cases hbank : v / 32 = p / 32
        · rw [decide_eq_true hbank, Bool.true_and, ← hbank]
          rw [bitAt] at hbv
          rw [hbv]
          rfl
        · rw [decide_eq_false hbank, Bool.false_and]
          rfl
  · rw [hmask v hv hr hq]
    exact h.scan.saved_eq v hv hr (Nat.le_of_lt hq)
  · obtain ⟨hb1, u, hu, hpu, hbank, hbu⟩ := hw
    exact h.scan.safe v hv hr ho hvp ⟨hle v hb1, u, hu, Nat.le_of_lt hpu, hbank, hle u hbu⟩

theorem LoopInv.skip (h : LoopInv T s p saved) (hlt : p < msiVectors) (hb : bitAt saved p = false) :
    LoopInv T { s with phase := .loop (p + 1) saved } (p + 1) saved := by
  have hlater : ∀ v, WipedLater saved v (p + 1) → WipedLater saved v p :=
    fun v ⟨hv, u, hu, hpu, hbank, hbu⟩ => ⟨hv, u, hu, Nat.le_of_lt hpu, hbank, hbu⟩
  have hne : ∀ v, bitAt saved v = true → v ≠ p := by
    intro v hv hvp
    rw [hvp, hb] at hv
    exact absurd hv (by decide)
  refine ⟨hlt, fun v hv hr ho => (h.kept v hv hr ho).imp id fun hx => ⟨?_, hx.2⟩,
    fun v hv hr => ?_, fun v hv hr hq => h.scan.saved_eq v hv hr (Nat.le_of_lt hq), h.scan.saved_le,
    h.scan.dcsn, fun v hv hr ho hvp hw => ?_⟩
  · have := hne v hx.2
    omega
  · show s.calls v = _
    rw [h.scan.calls_eq v hv hr]
    by_cases hvp : v = p
    · subst hvp
      have hsv := h.scan.saved_eq v hv hr (le_refl v)
      rw [hb] at hsv
      simp [← hsv]
    · exact if_congr (and_congr (by omega) Iff.rfl) rfl rfl
  · have hvp' : v < p := by
      have := hne v hw.1
      omega
    exact h.scan.safe v hv hr ho hvp' (hlater v hw)

theorem LoopInv.finish (h : LoopInv T s p saved) (hge : ¬ p < msiVectors) : IdleInv T { s with phase := .idle } := by
  have hp : p = msiVectors := Nat.le_antisymm h.le (Nat.le_of_not_lt hge)
  refine ⟨fun v hv hr ho => (h.kept v hv hr ho).resolve_right fun hx => by omega, fun v hv hr => ?_⟩
  show s.calls v ≤ 1 ∧ (bitAt s.sampled v = true → s.calls v = 1)
  rw [h.scan.calls_eq v hv hr, hp]
  refine ⟨by split <;> omega, fun hb => ?_⟩
  rw [if_pos ⟨hv, hb⟩]

theorem DispatchInv.call (h : DispatchInv T s p saved) :
    LoopInv T { s with
      phase := .loop (p + 1) saved
      calls := Function.update s.calls p (s.calls p + 1)
      owed := Function.update s.owed p false } (p + 1) saved := by
  have howed : ∀ v, Function.update s.owed p false v = true → v ≠ p ∧ s.owed v = true := by
    intro v hv
    by_cases hvp : v = p
    · rw [hvp, Function.update_self] at hv
      exact absurd hv (by decide)
    · rw [Function.update_of_ne hvp] at hv
      exact ⟨hvp, hv⟩
  refine ⟨h.lt, fun v hv hr ho => ?_, fun v hv hr => ?_, h.scan.saved_eq, h.scan.saved_le,
    h.scan.dcsn, fun v hv hr ho hvp => ?_⟩
  · obtain ⟨hne, ho'⟩ := howed v ho
    rcases h.kept v hv hr ho' with hst | hvp | hahead
    · exact Or.inl hst
    · exact absurd hvp hne
    · exact Or.inr hahead
  · show Function.update s.calls p (s.calls p + 1) v = _
    by_cases hvp : v = p
    · subst hvp
      rw [Function.update_self, h.scan.calls_eq v hv hr, if_neg (fun hx => absurd hx.1 (lt_irrefl v)),
        if_pos ⟨Nat.lt_succ_self v, h.due⟩]
    · rw [Function.update_of_ne hvp, h.scan.calls_eq v hv hr]
      exact if_congr (and_congr (by omega) Iff.rfl) rfl rfl
  · obtain ⟨hne, ho'⟩ := howed v ho
    exact h.scan.safe v hv hr ho' (by omega)

theorem DispatchInv.noCall (h : DispatchInv T s p saved) (hreg : ¬ (T.entry p).handler.isSome = true) :
    LoopInv T { s with phase := .loop (p + 1) saved } (p + 1) saved := by
  have hne : ∀ v, (T.entry v).handler.isSome = true → v ≠ p := fun v hv hvp => hreg (hvp ▸ hv)
  refine ⟨h.lt, fun v hv hr ho => ?_, fun v hv hr => ?_, h.scan.saved_eq, h.scan.saved_le,
    h.scan.dcsn, fun v hv hr ho hvp => ?_⟩
  · rcases h.kept v hv hr ho with hst | hvp | hahead
    · exact Or.inl hst
    · exact absurd hvp (hne v hr)
    · exact Or.inr hahead
  · show s.calls v = _
    rw [h.scan.calls_eq v hv hr]
    have hvp := hne v hr
    exact if_congr (and_congr (by omega) Iff.rfl) rfl rfl
  · have := hne v hr
    exact h.scan.safe v hv hr ho (by omega)

/-- **Every step of the handler keeps the invariant.** -/
theorem IrqInv.tick {s' : IrqState} (h : IrqInv T s) (hg : IrqGuard T s .tick) (hstep : s.tick T = some s') :
    IrqInv T s' := by
  rw [IrqState.tick] at hstep
  cases hp : s.phase with
  | idle =>
    rw [IrqInv, hp] at h
    simp only [hp] at hstep
    obtain rfl := Option.some.inj hstep
    exact ⟨Nat.zero_le 4, h.kept, fun _ => rfl, rfl⟩
  | sample i saved =>
    rw [IrqInv, hp] at h
    simp only [hp] at hstep
    by_cases hi : i < 4
    · rw [if_pos hi] at hstep
      obtain rfl := Option.some.inj hstep
      exact ⟨hi, h.kept, h.calls_eq, by rw [h.saved_eq]⟩
    · have hi4 : i = 4 := Nat.le_antisymm h.le (Nat.le_of_not_lt hi)
      subst hi4
      rw [IrqGuard, hp] at hg
      rw [if_neg hi] at hstep
      rcases h.check (hg rfl).1 (hg rfl).2 with ⟨hret, hinv⟩ | ⟨hret, hinv⟩
      · rw [if_pos hret] at hstep
        obtain rfl := Option.some.inj hstep
        exact hinv
      · rw [if_neg (by rw [hret]; decide)] at hstep
        obtain rfl := Option.some.inj hstep
        exact hinv
  | loop p saved =>
    rw [IrqInv, hp] at h
    simp only [hp] at hstep
    by_cases hlt : p < msiVectors
    · rw [if_pos hlt] at hstep
      cases hb : bitAt saved p with
      | true =>
        rw [if_pos hb] at hstep
        by_cases hd : saved 1 &&& 0x100000 ≠ 0
        · rw [if_pos hd] at hstep
          obtain rfl := Option.some.inj hstep
          exact h.clear hlt hb (bitAt_dcsnMask saved)
        · rw [if_neg hd] at hstep
          obtain rfl := Option.some.inj hstep
          exact h.clear hlt hb (bitAt_of_not_dcsn hd)
      | false =>
        rw [if_neg (by rw [hb]; decide)] at hstep
        obtain rfl := Option.some.inj hstep
        exact h.skip hlt hb
    · rw [if_neg hlt] at hstep
      obtain rfl := Option.some.inj hstep
      exact h.finish hlt
  | dispatch p saved =>
    rw [IrqInv, hp] at h
    simp only [hp] at hstep
    by_cases hv : (T.entry p).vector = p
    · rw [if_pos hv] at hstep
      by_cases hr : (T.entry p).handler.isSome = true
      · rw [if_pos hr] at hstep
        obtain rfl := Option.some.inj hstep
        exact h.call
      · rw [if_neg hr] at hstep
        exact absurd hstep (by simp)
    · rw [if_neg hv] at hstep
      obtain rfl := Option.some.inj hstep
      exact h.noCall fun hr => hv (T.vector_eq p hr)

/-! ### Interleavings -/

/-- The device before the first interrupt: whatever is pending, no raise is owed yet. -/
def IrqState.start (status : ℕ → BitVec 32) (dcsn : BitVec 32) : IrqState :=
  ⟨status, dcsn, .idle, fun _ => 0, fun _ => 0, fun _ => false⟩

theorem irqInv_start (status : ℕ → BitVec 32) (dcsn : BitVec 32) :
    IrqInv T (IrqState.start status dcsn) := by
  refine ⟨fun v _ _ ho => absurd ho Bool.false_ne_true, fun v _ _ => ⟨Nat.zero_le 1, fun hb => ?_⟩⟩
  have hz : bitAt (fun _ => 0) v = false := BitVec.getLsbD_zero
  exact absurd (hb.symm.trans hz) (by decide)

/-- **No lost events.**  In every state of every guarded interleaving, a raise of a registered vector
is answered by a later call or still recorded, and a run calls each pending vector once. -/
theorem irq_sound (T : EventTable η) (status : ℕ → BitVec 32) (dcsn : BitVec 32) (ops : List IrqOp)
    (s : IrqState) (hrun : ops.foldlM (IrqState.step T) (IrqState.start status dcsn) = some s)
    (hg : Along (IrqState.step T) (IrqGuard T) (IrqState.start status dcsn) ops) :
    s.NoLoss T ∧ s.OncePerRun T := by
  have hstep : ∀ s o s', IrqInv T s → IrqGuard T s o → IrqState.step T s o = some s' →
      IrqInv T s' := by
    intro s o s' hs hgo hso
    cases o with
    | raise v =>
      obtain rfl := Option.some.inj hso
      exact hs.raise v hgo
    | tick => exact hs.tick hgo hso
  exact (Along.invariant hstep ops _ s (irqInv_start status dcsn) hg hrun).sound

/-- Handlers for the vectors 3 and 5. -/
def twoEvents : EventTable Unit where
  entry v := if v = 3 ∨ v = 5 then ⟨v, some ()⟩ else ⟨0, none⟩
  vector_eq := by
    intro v hv
    split at hv
    · rw [if_pos ‹_›]
    · exact absurd hv (by decide)

/-- Vector 3 is raised and handled; vector 5 arrives during the run. -/
def raiseInPassing : List IrqOp :=
  IrqOp.raise 3 :: List.replicate 11 IrqOp.tick ++ [IrqOp.raise 5]

theorem irq_sound_raiseInPassing :
    ∃ s, raiseInPassing.foldlM (IrqState.step twoEvents) (IrqState.start (fun _ => 0) 0) = some s ∧
      s.NoLoss twoEvents ∧ s.OncePerRun twoEvents := by
  have hsome : (raiseInPassing.foldlM (IrqState.step twoEvents)
      (IrqState.start (fun _ => 0) 0)).isSome = true := by decide
  obtain ⟨s, hs⟩ := Option.isSome_iff_exists.mp hsome
  exact ⟨s, hs, irq_sound twoEvents _ _ _ s hs (by decide)⟩

/-- Vectors 3 and 5 are sampled together, and 3 is raised again after its call. -/
def raiseAgain : List IrqOp :=
  [IrqOp.raise 3, IrqOp.raise 5] ++ List.replicate 11 IrqOp.tick ++
    [IrqOp.raise 3, IrqOp.tick, IrqOp.tick]

/-- The clearing for vector 5 takes the second raise of 3 away. -/
theorem irq_lost_event :
    ∃ s, raiseAgain.foldlM (IrqState.step twoEvents) (IrqState.start (fun _ => 0) 0) = some s ∧
      ¬ s.NoLoss twoEvents := by
  have hlost : (raiseAgain.foldlM (IrqState.step twoEvents) (IrqState.start (fun _ => 0) 0)).map
      (fun s => decide (s.owed 3 = true ∧ ¬ s.Recorded 3)) = some true := by decide
  obtain ⟨s, hs, hdec⟩ := Option.map_eq_some_iff.mp hlost
  obtain ⟨howed, hrec⟩ := of_decide_eq_true hdec
  exact ⟨s, hs, fun h => hrec (h 3 (by decide) rfl howed)⟩

end BgtDvb.Saa7231
