import BgtDvb.Saa7231Irq

/-!
# Calls of `NULL` handlers by the SAA7231

`saa7231_irq_handler` calls the handler of an entry whose `vector` is the position of the pending bit, without a look at
the handler.  Entries start as zeros, and `dvbstr_tbl` has streams without a handler.

* `irqLoop_ticks` — **PROVED**: they are the calls that the steps of `Saa7231Irq` make;
* `mem_irqCalls_iff` — **PROVED**: which vectors are called, and with what;
* `registration`, `event_of_ops` — **PROVED**: the table after any history of registrations and removals;
* `noNullCall_iff` — **PROVED**: no call is one of `NULL` exactly if every vector dispatched is registered with a handler,
  or not at all and not vector 0;
* `dvbInit_nullCall_iff` — **PROVED**: after the attach code of DVB `NULL` is called exactly if vector 0 or that of an
  internal adapter is dispatched.
-/

namespace BgtDvb.Saa7231

variable {η : Type*}

/-! ### The calls of a run -/

/-- The two loops of `saa7231_irq_handler` from a vector on, for so many vectors: the vectors called, with their handlers. -/
def irqLoop (event : ℕ → IrqEntry η) : ℕ → ℕ → (ℕ → BitVec 32) → List (ℕ × Option η)
  | 0, _, _ => []
  | n + 1, vector, status =>
    if bitAt status vector then
      let status := if status 1 &&& 0x100000 ≠ 0 then dcsnMask status else status
      if (event vector).vector = vector then
        (vector, (event vector).handler) :: irqLoop event n (vector + 1) status
      else irqLoop event n (vector + 1) status
    else irqLoop event n (vector + 1) status

/-- `saa7231_irq_handler` on the words it samples. -/
def irqCalls (event : ℕ → IrqEntry η) (status : ℕ → BitVec 32) : List (ℕ × Option η) :=
  if irqNone status || irqUnplugd status then [] else irqLoop event msiVectors 0 status

/-- The vector is still pending when the loops come to it: the bit of the DCSN is taken away at the first vector. -/
def PendingFrom (start : ℕ) (w : ℕ → BitVec 32) (v : ℕ) : Prop :=
  bitAt w v = true ∧ (v = dcsnVector → ∀ u, start ≤ u → u < dcsnVector → bitAt w u = false)

theorem bitAt_masked (w : ℕ → BitVec 32) (u : ℕ) :
    bitAt (if w 1 &&& 0x100000 ≠ 0 then dcsnMask w else w) u = (bitAt w u && decide (u ≠ dcsnVector)) := by
  split
  · exact bitAt_dcsnMask w u
  · exact bitAt_of_not_dcsn ‹_› u

variable {w : ℕ → BitVec 32} {T : EventTable η} {s s' : IrqState}

theorem pendingFrom_masked {v u : ℕ} (hv : bitAt w v = true) (hu : v + 1 ≤ u) :
    PendingFrom (v + 1) (if w 1 &&& 0x100000 ≠ 0 then dcsnMask w else w) u ↔ PendingFrom v w u := by
  unfold PendingFrom
  rw [bitAt_masked, Bool.and_eq_true, decide_eq_true_eq]
  constructor
  · rintro ⟨⟨hbit, hne⟩, -⟩
    exact ⟨hbit, fun he => absurd he hne⟩
  · rintro ⟨hbit, hdcsn⟩
    have hne : u ≠ dcsnVector := by
      intro he
      have hlow := hdcsn he v le_rfl (by omega)
      rw [hv] at hlow
      exact absurd hlow (by decide)
    exact ⟨⟨hbit, hne⟩, fun he => absurd he hne⟩

theorem pendingFrom_skip {v u : ℕ} (hv : bitAt w v = false) : PendingFrom (v + 1) w u ↔ PendingFrom v w u := by
  unfold PendingFrom
  refine and_congr_right fun _ => imp_congr_right fun _ => ?_
  constructor
  · intro h x hx hlt
    rcases Nat.eq_or_lt_of_le hx with rfl | hx
    · exact hv
    · exact h x hx hlt
  · intro h x hx hlt
    exact h x (Nat.le_of_lt hx) hlt

/-- The loops call the vectors that are pending and whose entries carry their own number. -/
theorem mem_irqLoop_iff (event : ℕ → IrqEntry η) (n v : ℕ) (w : ℕ → BitVec 32) (u : ℕ) (h : Option η) :
    (u, h) ∈ irqLoop event n v w ↔
      (v ≤ u ∧ u < v + n) ∧ PendingFrom v w u ∧ (event u).vector = u ∧ (event u).handler = h := by
  induction n generalizing v w with
  | zero =>
    constructor
    · intro hmem
      exact absurd hmem List.not_mem_nil
    · intro hmem
      omega
  | succ n ih =>
    rw [irqLoop]
    cases hv : bitAt w v with
    | false =>
      rw [if_neg (by decide), ih, pendingFrom_skip hv]
      constructor
      · rintro ⟨hrange, hrest⟩
        exact ⟨by omega, hrest⟩
      · rintro ⟨hrange, hpend, hrest⟩
        have hne : u ≠ v := by
          rintro rfl
          rw [hpend.1] at hv
          exact absurd hv (by decide)
        exact ⟨by omega, hpend, hrest⟩
    | true =>
      rw [if_pos rfl]
      have htail : (u, h) ∈ irqLoop event n (v + 1) (if w 1 &&& 0x100000 ≠ 0 then dcsnMask w else w) ↔
          (v + 1 ≤ u ∧ u < v + 1 + n) ∧ PendingFrom v w u ∧ (event u).vector = u ∧ (event u).handler = h := by
        rw [ih]
        refine and_congr_right fun hrange => ?_
        rw [pendingFrom_masked hv hrange.1]
      have hself : PendingFrom v w v := ⟨hv, fun _ x hx hlt => by omega⟩
      by_cases hvec : (event v).vector = v
      · rw [if_pos hvec, List.mem_cons, htail, Prod.mk.injEq]
        constructor
        · rintro (⟨rfl, rfl⟩ | ⟨hrange, hrest⟩)
          · exact ⟨by omega, hself, hvec, rfl⟩
          · exact ⟨by omega, hrest⟩
        · rintro ⟨hrange, hpend, hrest⟩
          by_cases he : u = v
          · exact Or.inl ⟨he, by rw [← hrest.2, he]⟩
          · exact Or.inr ⟨by omega, hpend, hrest⟩
      · rw [if_neg hvec, htail]
        constructor
        · rintro ⟨hrange, hrest⟩
          exact ⟨by omega, hrest⟩
        · rintro ⟨hrange, hpend, hown, hrest⟩
          have hne : u ≠ v := by
            rintro rfl
            exact hvec hown
          exact ⟨by omega, hpend, hown, hrest⟩

/-- The handler looks at the entry of the vector. -/
structure Dispatched (w : ℕ → BitVec 32) (v : ℕ) : Prop where
  run : irqNone w = false ∧ irqUnplugd w = false
  lt : v < msiVectors
  pending : PendingFrom 0 w v

theorem mem_irqCalls_iff {event : ℕ → IrqEntry η} {v : ℕ} {h : Option η} :
    (v, h) ∈ irqCalls event w ↔ Dispatched w v ∧ (event v).vector = v ∧ (event v).handler = h := by
  unfold irqCalls
  cases hrun : irqNone w || irqUnplugd w with
  | true =>
    rw [if_pos rfl]
    constructor
    · intro hmem
      exact absurd hmem List.not_mem_nil
    · rintro ⟨hd, -⟩
      rw [hd.run.1, hd.run.2] at hrun
      exact absurd hrun (by decide)
  | false =>
    rw [if_neg (by decide), mem_irqLoop_iff, Nat.zero_add]
    constructor
    · rintro ⟨hrange, hpend, hrest⟩
      exact ⟨⟨Bool.or_eq_false_iff.mp hrun, hrange.2, hpend⟩, hrest⟩
    · rintro ⟨hd, hrest⟩
      exact ⟨⟨Nat.zero_le v, hd.lt⟩, hd.pending, hrest⟩

/-! ### The steps of the handler -/

def IrqState.ticks (T : EventTable η) (n : ℕ) (s : IrqState) : Option IrqState :=
  (List.replicate n IrqOp.tick).foldlM (IrqState.step T) s

theorem IrqState.ticks_succ (n : ℕ) (h : s.tick T = some s') : s.ticks T (n + 1) = s'.ticks T n := by
  show (IrqState.step T s .tick).bind (fun s => (List.replicate n IrqOp.tick).foldlM (IrqState.step T) s) = _
  rw [IrqState.step, h]
  rfl

/-- A run of the handler that ends by itself, having called what the list says, or stops in the call of a `NULL`. -/
def RunsTo (T : EventTable η) (s : IrqState) (calls : List (ℕ × Option η)) : Prop :=
  if ∀ c ∈ calls, c.2.isSome = true then
    ∃ n s', s.ticks T n = some s' ∧ s'.phase = .idle ∧
      ∀ v, s'.calls v = s.calls v + (calls.map Prod.fst).count v
  else ∃ n, s.ticks T n = none

theorem RunsTo.step {calls : List (ℕ × Option η)} (h : s.tick T = some s') (hcalls : s'.calls = s.calls)
    (hrest : RunsTo T s' calls) : RunsTo T s calls := by
  unfold RunsTo at hrest ⊢
  split at hrest
  · rename_i hall
    rw [if_pos hall]
    obtain ⟨n, t, hn, hidle, hcount⟩ := hrest
    exact ⟨n + 1, t, (IrqState.ticks_succ n h).trans hn, hidle, fun v => by rw [hcount v, hcalls]⟩
  · rename_i hnull
    rw [if_neg hnull]
    obtain ⟨n, hn⟩ := hrest
    exact ⟨n + 1, (IrqState.ticks_succ n h).trans hn⟩

theorem RunsTo.call {calls : List (ℕ × Option η)} {v : ℕ} {hd : Option η}
    (h : s.tick T = if hd.isSome = true then some s' else none)
    (hcalls : s'.calls = Function.update s.calls v (s.calls v + 1)) (hrest : RunsTo T s' calls) :
    RunsTo T s ((v, hd) :: calls) := by
  unfold RunsTo at hrest ⊢
  cases hd with
  | none =>
    rw [if_neg (fun hall => Bool.false_ne_true (hall _ List.mem_cons_self))]
    refine ⟨1, ?_⟩
    show (IrqState.step T s .tick).bind _ = none
    rw [IrqState.step, h]
    rfl
  | some hd =>
    rw [if_pos Option.isSome_some] at h
    split at hrest
    · rename_i hall
      rw [if_pos (fun c hc => by
        rcases List.mem_cons.mp hc with rfl | hc
        · rfl
        · exact hall c hc)]
      obtain ⟨n, t, hn, hidle, hcount⟩ := hrest
      refine ⟨n + 1, t, (IrqState.ticks_succ n h).trans hn, hidle, fun u => ?_⟩
      rw [hcount u, hcalls, List.map_cons]
      by_cases hu : u = v
      · rw [hu, Function.update_self, List.count_cons_self]
        omega
      · rw [Function.update_of_ne hu, List.count_cons_of_ne (Ne.symm hu)]
    · rename_i hnull
      rw [if_neg (fun hall => hnull fun c hc => hall c (List.mem_cons_of_mem _ hc))]
      obtain ⟨n, hn⟩ := hrest
      exact ⟨n + 1, (IrqState.ticks_succ n h).trans hn⟩

/-- **PROVED**: the steps of the handler make the calls of the loops. -/
theorem irqLoop_ticks (T : EventTable η) (n : ℕ) (s : IrqState) (v : ℕ) (w : ℕ → BitVec 32) (hn : v + n = msiVectors)
    (hs : s.phase = .loop v w) : RunsTo T s (irqLoop T.entry n v w) := by
  induction n generalizing s v w with
  | zero =>
    have hend : s.tick T = some { s with phase := .idle } := by
      rw [IrqState.tick, hs]
      exact if_neg (by omega)
    refine RunsTo.step hend rfl ?_
    unfold RunsTo
    rw [irqLoop, if_pos (fun c hc => absurd hc List.not_mem_nil)]
    exact ⟨0, _, rfl, rfl, fun u => rfl⟩
  | succ n ih =>
    rw [irqLoop]
    have hlt : v < msiVectors := by omega
    cases hv : bitAt w v with
    | false =>
      have hskip : s.tick T = some { s with phase := .loop (v + 1) w } := by
        rw [IrqState.tick, hs]
        show (if v < msiVectors then if bitAt w v = true then _ else _ else _) = _
        rw [if_pos hlt, hv, if_neg (by decide)]
      rw [if_neg (by decide)]
      exact RunsTo.step hskip rfl (ih _ (v + 1) w (by omega) rfl)
    | true =>
      rw [if_pos rfl]
      obtain ⟨t, hclear, hphase, hcalls⟩ : ∃ t, s.tick T = some t ∧
          t.phase = .dispatch v (if w 1 &&& 0x100000 ≠ 0 then dcsnMask w else w) ∧ t.calls = s.calls := by
        rw [IrqState.tick, hs]
        show ∃ t, (if v < msiVectors then if bitAt w v = true then _ else _ else _) = some t ∧ _
        rw [if_pos hlt, hv, if_pos rfl]
        split
        · exact ⟨_, rfl, rfl, rfl⟩
        · exact ⟨_, rfl, rfl, rfl⟩
      refine RunsTo.step hclear hcalls ?_
      by_cases hvec : (T.entry v).vector = v
      · rw [if_pos hvec]
        have hcall : t.tick T = if (T.entry v).handler.isSome = true then
            some { t with
              phase := .loop (v + 1) (if w 1 &&& 0x100000 ≠ 0 then dcsnMask w else w)
              calls := Function.update t.calls v (t.calls v + 1)
              owed := Function.update t.owed v false } else none := by
          rw [IrqState.tick, hphase]
          exact if_pos hvec
        exact RunsTo.call hcall rfl (ih _ (v + 1) _ (by omega) rfl)
      · rw [if_neg hvec]
        have hpass : t.tick T =
            some { t with phase := .loop (v + 1) (if w 1 &&& 0x100000 ≠ 0 then dcsnMask w else w) } := by
          rw [IrqState.tick, hphase]
          exact if_neg hvec
        exact RunsTo.step hpass rfl (ih _ (v + 1) _ (by omega) rfl)

/-- Vectors 0, 31, 33 and 127. -/
def fourPending : ℕ → BitVec 32
  | 0 => 0x80000001
  | 1 => 2
  | 3 => 0x80000000
  | _ => 0

/-- From the first vector on, with four that are pending and have handlers. -/
theorem irqLoop_ticks_four : RunsTo (⟨fun v => ⟨v, some ()⟩, fun _ _ => rfl⟩ : EventTable Unit)
    ⟨fourPending, 0, .loop 0 fourPending, fun _ => 0, fun _ => 0, fun _ => false⟩
    [(0, some ()), (31, some ()), (33, some ()), (127, some ())] := by
  have hcalls : irqLoop (fun v => ⟨v, some ()⟩) 128 0 fourPending =
      [(0, some ()), (31, some ()), (33, some ()), (127, some ())] := by
    decide +kernel
  rw [← hcalls]
  exact irqLoop_ticks ⟨fun v => ⟨v, some ()⟩, fun _ _ => rfl⟩ 128 _ 0 fourPending rfl rfl

/-! ### The table after a history of calls -/

/-- What a call does to the registration of the vector: `none` is no registration, `some none` one of a `NULL` handler,
which cannot be removed. -/
def holdsAfter (v : ℕ) (cur : Option (Option η)) : VectorOp η → Option (Option η)
  | .addIrqevent u _ handler => if u = v then some handler else cur
  | .removeIrqevent u => if u = v ∧ cur.join.isSome = true then none else cur
  | .addMsivector _ _ _ => cur
  | .removeMsivector _ => cur

def registration (ops : List (VectorOp η)) (v : ℕ) : Option (Option η) := ops.foldl (holdsAfter v) none

def entryOf (v : ℕ) : Option (Option η) → IrqEntry η
  | none => ⟨0, none⟩
  | some handler => ⟨v, handler⟩

theorem entryOf_handler (v : ℕ) (cur : Option (Option η)) : (entryOf v cur).handler = cur.join := by
  cases cur <;> rfl

theorem removeMsivector_event (s : Msi η) (u : ℕ) : (saa7231RemoveMsivector s u).event = s.event := by
  rw [removeMsivector_eq_body]
  by_cases hu : (s.msix u).vector = u ∧ (s.msix u).handler.isSome = true
  · rw [removeMsivectorBody, if_pos hu.1, if_pos hu.2]
    rfl
  · rw [removeMsivectorBody_of_none u s hu]

theorem event_step {s : Msi η} {v : ℕ} {cur : Option (Option η)} (h : s.event v = entryOf v cur) (op : VectorOp η) :
    (s.step op).event v = entryOf v (holdsAfter v cur op) := by
  cases op with
  | addIrqevent u e handler =>
    rw [Msi.step, saa7231AddIrqevent, holdsAfter]
    show Function.update s.event u ⟨u, handler⟩ v = _
    by_cases huv : u = v
    · rw [if_pos huv, huv, Function.update_self]
      rfl
    · rw [if_neg huv, Function.update_of_ne (Ne.symm huv), h]
  | addMsivector u e handler => exact h
  | removeIrqevent u =>
    rw [Msi.step, holdsAfter]
    by_cases huv : u = v
    · subst huv
      by_cases hsome : cur.join.isSome = true
      · rw [if_pos ⟨rfl, hsome⟩, saa7231RemoveIrqevent, h, entryOf_handler, if_pos hsome]
        exact Function.update_self u _ _
      · rw [if_neg fun hx => hsome hx.2, removeIrqevent_of_none s u (by rwa [h, entryOf_handler]), h]
    · rw [if_neg fun hx => huv hx.1, ← h]
      by_cases hu : (s.event u).handler.isSome = true
      · rw [saa7231RemoveIrqevent, if_pos hu]
        exact Function.update_of_ne (Ne.symm huv) _ _
      · rw [removeIrqevent_of_none s u hu]
  | removeMsivector u =>
    rw [Msi.step, removeMsivector_event]
    exact h

/-- `saa7231_msi_init` leaves a table of zeros, whatever it answers. -/
theorem msiInit_event (id : ℕ) (s : Msi η) (v : ℕ) : (saa7231MsiInit id s).2.event v = ⟨0, none⟩ := by
  have hclear : ∀ (n : ℕ) (s : Msi η), (msiClear n s).event = s.event := by
    intro n s
    induction n with
    | zero => rfl
    | succ n ih =>
      rw [← ih, msiClear, msiClearBank]
      split <;> split <;> rfl
  rw [saa7231MsiInit]
  by_cases hid : (id &&& (2 ^ 32 - 1 - 0x00000F00)) ≠ 0xa1090000
  · rw [if_pos hid]
  · rw [if_neg hid]
    by_cases hreset : ∃ i < 4, (msiClear 4 (msiFresh s)).ena i &&& (msiClear 4 (msiFresh s)).status i ≠ 0
    · rw [if_pos hreset]
      dsimp only
      rw [hclear, msiFresh]
    · rw [if_neg hreset]
      dsimp only
      rw [hclear, msiFresh]

/-- The table of the events after a history of calls on an initialised device. -/
def eventsAfter (id : ℕ) (s : Msi η) (ops : List (VectorOp η)) : ℕ → IrqEntry η :=
  (ops.foldl Msi.step (saa7231MsiInit id s).2).event

theorem event_of_ops (id : ℕ) (s : Msi η) (ops : List (VectorOp η)) (v : ℕ) :
    eventsAfter id s ops v = entryOf v (registration ops v) := by
  have hrun : ∀ (ops : List (VectorOp η)) (s : Msi η) (cur : Option (Option η)), s.event v = entryOf v cur →
      (ops.foldl Msi.step s).event v = entryOf v (ops.foldl (holdsAfter v) cur) := by
    intro ops
    induction ops with
    | nil => exact fun s cur h => h
    | cons op ops ih => exact fun s cur h => ih (s.step op) _ (event_step h op)
  exact hrun ops _ none (msiInit_event id s v)

/-! ### No call of `NULL` -/

/-- A vector that may be dispatched: registered with a handler, or not registered and not 0, which is the vector that an
entry of zeros carries. -/
def MayDispatch (ops : List (VectorOp η)) (v : ℕ) : Prop :=
  (registration ops v).elim (v ≠ 0) fun handler => handler.isSome = true

/-- No call of the run is a call of `NULL`. -/
def NoNullCall (event : ℕ → IrqEntry η) (w : ℕ → BitVec 32) : Prop := ∀ c ∈ irqCalls event w, c.2 ≠ none

theorem nullEntry_iff (v : ℕ) (cur : Option (Option η)) :
    ((entryOf v cur).vector = v ∧ (entryOf v cur).handler = none) ↔
      ¬cur.elim (v ≠ 0) fun handler => handler.isSome = true := by
  cases cur with
  | none =>
    constructor
    · rintro ⟨hzero, -⟩ hne
      exact hne hzero.symm
    · intro hne
      exact ⟨(not_not.mp hne).symm, rfl⟩
  | some handler =>
    constructor
    · rintro ⟨-, rfl⟩ hsome
      exact Bool.false_ne_true hsome
    · intro hnone
      exact ⟨rfl, Option.not_isSome_iff_eq_none.mp hnone⟩

/-- **PROVED**: after every history of registrations and removals, the calls of `NULL` come from the vectors that are
dispatched and should not be. -/
theorem nullCall_iff (id : ℕ) (s : Msi η) (ops : List (VectorOp η)) (w : ℕ → BitVec 32) :
    (∃ c ∈ irqCalls (eventsAfter id s ops) w, c.2 = none) ↔ ∃ v, Dispatched w v ∧ ¬MayDispatch ops v := by
  constructor
  · rintro ⟨⟨v, handler⟩, hmem, rfl⟩
    obtain ⟨hd, hnull⟩ := mem_irqCalls_iff.mp hmem
    rw [event_of_ops] at hnull
    exact ⟨v, hd, (nullEntry_iff v _).mp hnull⟩
  · rintro ⟨v, hd, hnot⟩
    have hnull := (nullEntry_iff v (registration ops v)).mpr hnot
    rw [← event_of_ops id s] at hnull
    exact ⟨(v, none), mem_irqCalls_iff.mpr ⟨hd, hnull⟩, rfl⟩

/-- **PROVED**: after every history of registrations and removals, and for all words sampled, the handler calls no `NULL`
exactly if every vector that it dispatches may be. -/
theorem noNullCall_iff (id : ℕ) (s : Msi η) (ops : List (VectorOp η)) (w : ℕ → BitVec 32) :
    NoNullCall (eventsAfter id s ops) w ↔ ∀ v, Dispatched w v → MayDispatch ops v := by
  have hnull := not_congr (nullCall_iff id s ops w)
  constructor
  · intro hno v hd
    by_contra hnot
    refine hnull.mp ?_ ⟨v, hd, hnot⟩
    rintro ⟨c, hc, hnone⟩
    exact hno c hc hnone
  · intro hall c hc hnone
    refine hnull.mpr ?_ ⟨c, hc, hnone⟩
    rintro ⟨v, hd, hnot⟩
    exact hnot (hall v hd)

/-! ### The registrations of DVB -/

/-- The handlers of `dvbstr_tbl`. -/
inductive DvbEvhandler where
  | dvbts2d0 | dvbts2d1
  deriving Repr, DecidableEq

/-- `struct dvb_vecstr` -/
structure DvbVecstr where
  vector : ℕ
  stream : ℕ
  evhandler : Option DvbEvhandler
  deriving Repr, DecidableEq

def dvbstrTbl : List DvbVecstr :=
  [⟨0x45, 0x2, none⟩, ⟨0x46, 0x3, none⟩, ⟨0x47, 0x0, some .dvbts2d0⟩, ⟨0x48, 0x1, some .dvbts2d1⟩]

/-- What `saa7231_dvb_init` attaches: the internal adapters that the device has, and the external ones of the board, which
are two at most. -/
structure DvbAdapters where
  dvbs : Bool
  dvbt : Bool
  extDvbAdapters : Fin 3

/-- `BUILTIN_ADAPTERS` -/
def DvbAdapters.builtin (c : DvbAdapters) : ℕ := c.dvbs.toNat + c.dvbt.toNat

/-- `dvb->vector` of an adapter. -/
def DvbAdapters.vector (c : DvbAdapters) (i : ℕ) : ℕ := if i < c.builtin then 45 + i else 47 + (i - c.builtin)

/-- `dvbstr_tbl[vector - 45].saa7231_dvb_evhandler` -/
def dvbEvhandler (vector : ℕ) : Option DvbEvhandler := dvbstrTbl[vector - 45]?.bind DvbVecstr.evhandler

/-- The registrations of `saa7231_dvb_init`, one at the end of a round; it may give up after some rounds. -/
def saa7231DvbInit (c : DvbAdapters) (rounds : ℕ) : List (VectorOp DvbEvhandler) :=
  (List.range (min rounds (c.builtin + c.extDvbAdapters))).map fun i =>
    .addIrqevent (c.vector i) .rising (dvbEvhandler (c.vector i))

def DvbAdapters.Internal (c : DvbAdapters) (rounds v : ℕ) : Prop := 45 ≤ v ∧ v < 45 + min rounds c.builtin

theorem DvbAdapters.builtin_le (c : DvbAdapters) : c.builtin ≤ 2 :=
  Nat.add_le_add (Bool.toNat_le c.dvbs) (Bool.toNat_le c.dvbt)

theorem registration_rounds (c : DvbAdapters) (n v : ℕ) :
    registration ((List.range n).map fun i => .addIrqevent (c.vector i) .rising (dvbEvhandler (c.vector i))) v =
      if ∃ i < n, c.vector i = v then some (dvbEvhandler v) else none := by
  unfold registration
  induction n with
  | zero =>
    rw [if_neg]
    · rfl
    · rintro ⟨i, hi, -⟩
      exact absurd hi (Nat.not_lt_zero i)
  | succ n ih =>
    rw [List.range_succ, List.map_append, List.foldl_append, ih]
    show holdsAfter v _ (.addIrqevent (c.vector n) .rising (dvbEvhandler (c.vector n))) = _
    rw [holdsAfter]
    by_cases hn : c.vector n = v
    · rw [if_pos hn, if_pos ⟨n, Nat.lt_succ_self n, hn⟩, hn]
    · rw [if_neg hn]
      refine if_congr ⟨?_, ?_⟩ rfl rfl
      · rintro ⟨i, hi, hv⟩
        exact ⟨i, Nat.lt_succ_of_lt hi, hv⟩
      · rintro ⟨i, hi, hv⟩
        have hne : i ≠ n := by
          rintro rfl
          exact hn hv
        exact ⟨i, by omega, hv⟩

theorem mayDispatch_dvbInit (c : DvbAdapters) (rounds v : ℕ) :
    MayDispatch (saa7231DvbInit c rounds) v ↔ v ≠ 0 ∧ ¬c.Internal rounds v := by
  have hbuiltin := c.builtin_le
  have hext := c.extDvbAdapters.isLt
  unfold MayDispatch
  rw [saa7231DvbInit, registration_rounds]
  by_cases hreg : ∃ i < min rounds (c.builtin + c.extDvbAdapters), c.vector i = v
  · rw [if_pos hreg]
    obtain ⟨i, hi, hv⟩ := hreg
    rw [DvbAdapters.vector] at hv
    by_cases hint : i < c.builtin
    · -- an internal adapter: its stream has no handler
      rw [if_pos hint] at hv
      have hnull : dvbEvhandler v = none := by
        rcases (by omega : v = 45 ∨ v = 46) with rfl | rfl <;> rfl
      rw [hnull]
      refine iff_of_false Bool.false_ne_true fun hnot => hnot.2 ⟨by omega, by omega⟩
    · rw [if_neg hint] at hv
      have hsome : (dvbEvhandler v).isSome = true := by
        rcases (by omega : v = 47 ∨ v = 48) with rfl | rfl <;> rfl
      refine iff_of_true hsome ⟨by omega, fun hin => ?_⟩
      have := hin.2
      omega
  · rw [if_neg hreg]
    refine ⟨fun hne => ⟨hne, fun hin => ?_⟩, fun h => h.1⟩
    obtain ⟨hlow, hhigh⟩ := hin
    refine hreg ⟨v - 45, by omega, ?_⟩
    rw [DvbAdapters.vector, if_pos (by omega)]
    omega

/-- **PROVED**: when the DVB adapters are attached and nothing else is registered, `NULL` is called exactly if vector 0 or
that of an internal adapter is dispatched. -/
theorem dvbInit_nullCall_iff (id : ℕ) (s : Msi DvbEvhandler) (c : DvbAdapters) (rounds : ℕ) (w : ℕ → BitVec 32) :
    (∃ call ∈ irqCalls (eventsAfter id s (saa7231DvbInit c rounds)) w, call.2 = none) ↔
      ∃ v, Dispatched w v ∧ (v = 0 ∨ c.Internal rounds v) := by
  rw [nullCall_iff]
  refine exists_congr fun v => and_congr_right fun _ => ?_
  rw [mayDispatch_dvbInit, not_and_or, not_not, not_not]

/-- Only vector 45 is pending. -/
def pending45 : ℕ → BitVec 32 := fun i => if i = 1 then 0x2000 else 0

/-- A device with an internal DVB-S adapter calls `NULL` for its first buffer. -/
theorem dvbs_nullCall : ¬∀ (id : ℕ) (s : Msi DvbEvhandler) (ops : List (VectorOp DvbEvhandler)) (w : ℕ → BitVec 32),
    NoNullCall (eventsAfter id s ops) w := by
  intro hall
  have hd : Dispatched pending45 45 := ⟨⟨by decide, by decide⟩, by decide, by decide, by decide⟩
  have hin : (⟨true, false, 0⟩ : DvbAdapters).Internal 1 45 := ⟨by decide, by decide⟩
  obtain ⟨call, hcall, hnone⟩ := (dvbInit_nullCall_iff 0xa1090000
    ⟨fun _ => 0, fun _ => 0, fun _ => 0, fun _ => ⟨0, none⟩, fun _ => ⟨0, none⟩, 0⟩ ⟨true, false, 0⟩ 1 pending45).mpr
    ⟨45, hd, Or.inr hin⟩
  exact hall _ _ _ _ call hcall hnone

end BgtDvb.Saa7231
