import BgtDvb.Lib.GuardedRun
import BgtDvb.Saa7231Dvb

/-!
# The hand-off of filled buffers

The hardware fills its eight slots cyclically, each time into the buffer whose page table the slot
names, and raises one interrupt per fill; the handler takes one buffer off the ring per interrupt.
A run is a sequence of fills, stops and starts of the feed.

* `handedOver_iff_firstRound` — **PROVED**: the handler delivers what the hardware filled exactly as long
  as the run is in its first eight fills, with no restart between two of them.  From the ninth on
  the slot names the buffer loaded eight fills ago while the ring has moved on by eight;
* `offsetSound_iff_pointerInside` — **PROVED**: `DMAADDR` adds the slot to a pointer that already moved
  with the ring, so its reads stay inside the array exactly as long as the sum of the two counters
  does.
-/

namespace BgtDvb.Saa7231

open BgtDvb.RegFile BgtDvb.GuardedRun

/-! ### The board -/

/-- The page table that slot `i` of the stream names. -/
def slotPta (s : Stream) (i : ℕ) : ℕ :=
  s.regs (mmuPtaLsb i (dmach s.port)) + 2 ^ 32 * s.regs (mmuPtaMsb i (dmach s.port))

/-- The driver's stream, the number of fills so far, the page tables the hardware filled and the
buffers the handler delivered, oldest first. -/
structure Board where
  stream : Stream
  fills : ℕ
  filled : List ℕ
  delivered : List ℕ

/-- A fill with its interrupt, or a stop or start of the feed. -/
inductive DmaEvent where
  | fill (rd : BufferReadings)
  | stop
  | start (o : StartOutcome)

/-- The hardware writes slot `k mod 8` on the `k`-th fill since its reset, then the handler runs. -/
def Board.fill (b : Board) (rd : BufferReadings) : Board :=
  let pt := slotPta b.stream (b.stream.fillsSinceReset % ts2dBuffers)
  let r := saa7231Dvbts2dEvhandler rd
    { b.stream with fillsSinceReset := b.stream.fillsSinceReset + 1 }
  ⟨r.2, b.fills + 1, b.filled ++ [pt], b.delivered ++ r.1.toList⟩

def Board.step (b : Board) : DmaEvent → Board
  | .fill rd => b.fill rd
  | .stop => { b with stream := (dmaStopStream b.stream).2 }
  | .start o => { b with stream := (dmaStartStream o b.stream).2 }

def Board.run (b : Board) (es : List DmaEvent) : Board := es.foldl Board.step b

/-- The board after `saa7231_ts2dtl_init`, acquire and run. -/
def Board.started (o : StartOutcome) (s : Stream) : Board := ⟨(dmaStartStream o s).2, 0, [], []⟩

/-! ### Page table registers -/

theorem pta_recombine {pt : ℕ} (h : pt < 2 ^ 64) :
    ptaLsb pt % 2 ^ 32 + 2 ^ 32 * (ptaMsb pt % 2 ^ 32) = pt := by
  rw [ptaLsb, ptaMsb]
  omega

/-- The registers that `saa7231_init_ptables` writes are distinct. -/
theorem initPtables_keys_nodup (port : StreamPort) (dmabuf : ℕ → Dmabuf) :
    ((initPtablesWrites port dmabuf).map Prod.fst).Nodup := by
  have hkeys : (initPtablesWrites port dmabuf).map Prod.fst
      = mmuDmaConfig (dmach port) :: (List.range ts2dBuffers).flatMap fun i =>
          [mmuPtaLsb i (dmach port), mmuPtaMsb i (dmach port)] := rfl
  rw [hkeys]
  cases port <;> decide

theorem slotPta_initPtables (s : Stream) {i : ℕ} (hi : i < ts2dBuffers)
    (hpt : (s.dmabuf i).ptPhys < 2 ^ 64) :
    slotPta (saa7231InitPtables s) i = (s.dmabuf i).ptPhys := by
  have hmem : ∀ w ∈ [(mmuPtaLsb i (dmach s.port), ptaLsb (s.dmabuf i).ptPhys),
      (mmuPtaMsb i (dmach s.port), ptaMsb (s.dmabuf i).ptPhys)],
      w ∈ initPtablesWrites s.port s.dmabuf := by
    intro w hw
    apply List.mem_cons_of_mem
    exact List.mem_flatMap.mpr ⟨i, List.mem_range.mpr hi, hw⟩
  have hn := initPtables_keys_nodup s.port s.dmabuf
  have hl := wrAll_of_mem s.regs _ hn
    (hmem (mmuPtaLsb i (dmach s.port), ptaLsb (s.dmabuf i).ptPhys) (by simp))
  have hm := wrAll_of_mem s.regs _ hn
    (hmem (mmuPtaMsb i (dmach s.port), ptaMsb (s.dmabuf i).ptPhys) (by simp))
  show wrAll s.regs (initPtablesWrites s.port s.dmabuf) (mmuPtaLsb i (dmach s.port))
    + 2 ^ 32 * wrAll s.regs (initPtablesWrites s.port s.dmabuf) (mmuPtaMsb i (dmach s.port)) = _
  rw [hl, hm, pta_recombine hpt]

variable {s s' s'' : Stream} {b : Board} {m : PtMapping}

theorem slotPta_congr (hport : s'.port = s.port)
    (hregs : ∀ a, ptaBase (dmach s.port) ≤ a → s'.regs (.mmu, a) = s.regs (.mmu, a)) (i : ℕ) :
    slotPta s' i = slotPta s i := by
  have hl := hregs (ptaBase (dmach s.port) + i * 8 + 0) (by omega)
  have hm := hregs (ptaBase (dmach s.port) + i * 8 + 4) (by omega)
  rw [slotPta, slotPta, hport, mmuPtaLsb, mmuPtaMsb, hl, hm]

/-! ### What a start does -/

/-- The ring and the array behind it, which only the interrupt handler moves. -/
structure SameRing (s s' : Stream) : Prop where
  port_eq : s'.port = s.port
  ring_eq : s'.ring = s.ring
  dmabuf_eq : s'.dmabuf = s.dmabuf
  reads_eq : s'.offsetReads = s.offsetReads

/-- Ring, counters and slots stay as they are. -/
structure SlotsKept (s s' : Stream) : Prop extends SameRing s s' where
  fills_eq : s'.fillsSinceReset = s.fillsSinceReset
  indexW_eq : s'.indexW = s.indexW
  slots_eq : ∀ i, slotPta s' i = slotPta s i

/-- The S2D was reset and the slots were loaded from the first buffers of the array. -/
structure SlotsReloaded (s s' : Stream) : Prop extends SameRing s s' where
  fills_eq : s'.fillsSinceReset = 0
  indexW_eq : s'.indexW = s.indexW + 8
  slots_eq : ∀ i, i < ts2dBuffers → (s.dmabuf i).ptPhys < 2 ^ 64 → slotPta s' i = (s.dmabuf i).ptPhys

theorem SlotsKept.refl (s : Stream) : SlotsKept s s := ⟨⟨rfl, rfl, rfl, rfl⟩, rfl, rfl, fun _ => rfl⟩

theorem slotsKept_soft (s : Stream) (d : Dtl) (p : StreamParams) :
    SlotsKept s { s with dtl := d, params := p } := ⟨⟨rfl, rfl, rfl, rfl⟩, rfl, rfl, fun _ => rfl⟩

theorem SameRing.trans (h : SameRing s s') (h' : SameRing s' s'') : SameRing s s'' :=
  ⟨h'.port_eq.trans h.port_eq, h'.ring_eq.trans h.ring_eq, h'.dmabuf_eq.trans h.dmabuf_eq,
    h'.reads_eq.trans h.reads_eq⟩

theorem SlotsKept.trans (h : SlotsKept s s') (h' : SlotsKept s' s'') : SlotsKept s s'' :=
  ⟨h.toSameRing.trans h'.toSameRing, h'.fills_eq.trans h.fills_eq, h'.indexW_eq.trans h.indexW_eq,
    fun i => (h'.slots_eq i).trans (h.slots_eq i)⟩

theorem SlotsReloaded.trans_kept (h : SlotsReloaded s s') (h' : SlotsKept s' s'') : SlotsReloaded s s'' :=
  ⟨h.toSameRing.trans h'.toSameRing, h'.fills_eq.trans h.fills_eq, h'.indexW_eq.trans h.indexW_eq,
    fun i hi hpt => (h'.slots_eq i).trans (h.slots_eq i hi hpt)⟩

def StartMoves (s s' : Stream) : Prop := SlotsKept s s' ∨ SlotsReloaded s s'

theorem StartMoves.then_kept (h : StartMoves s s') (h' : SlotsKept s' s'') : StartMoves s s'' :=
  h.imp (fun hk => hk.trans h') (fun hr => hr.trans_kept h')

theorem SlotsKept.then_moves (h : SlotsKept s s') (h' : StartMoves s' s'') : StartMoves s s'' := by
  rcases h' with hk | hr
  · exact Or.inl (h.trans hk)
  · refine Or.inr ⟨h.toSameRing.trans hr.toSameRing, hr.fills_eq, ?_, fun i hi hpt => ?_⟩
    · rw [hr.indexW_eq, h.indexW_eq]
    · rw [← h.dmabuf_eq] at hpt ⊢
      exact hr.slots_eq i hi hpt

theorem slotsReloaded_setparamsReset (s : Stream) (ws : List (Reg × ℕ)) :
    SlotsReloaded s (setparamsReset s ws) :=
  ⟨⟨rfl, rfl, rfl, rfl⟩, rfl, rfl, fun _ hi hpt => slotPta_initPtables _ hi hpt⟩

theorem slotsKept_setparamsBlock (s : Stream) : SlotsKept s (setparamsBlock s) := by
  refine ⟨⟨rfl, rfl, rfl, rfl⟩, rfl, rfl, slotPta_congr rfl fun a _ => ?_⟩
  apply wrAll_of_module
  intro w hw
  rw [setparamsBlockWrites_module s w hw]
  exact Module.noConfusion

theorem startMoves_setparams (s : Stream) :
    StartMoves s (saa7231Ts2dtlSetparams s).2 := by
  rw [saa7231Ts2dtlSetparams]
  cases setparamsPortWrites s with
  | none => exact Or.inl (SlotsKept.refl s)
  | some ws =>
    right
    by_cases ht : s.params.type ≠ .ts
    · simp only [if_pos ht]
      exact slotsReloaded_setparamsReset s ws
    · simp only [if_neg ht]
      exact (slotsReloaded_setparamsReset s ws).trans_kept (slotsKept_setparamsBlock _)

theorem mmuDmaConfig_lt_ptaBase {ch : ℕ} (a : ℕ) (ha : ptaBase ch ≤ a) :
    ((.mmu, a) : Reg) ≠ mmuDmaConfig ch := by
  intro h
  have : a = 0x0080 + 0x0004 * ch := congrArg Prod.snd h
  rw [ptaBase] at ha
  omega

theorem slotsKept_preload (s : Stream) : SlotsKept s (preload s) := by
  refine ⟨⟨rfl, rfl, rfl, rfl⟩, rfl, rfl, slotPta_congr rfl fun a ha => ?_⟩
  have hne := mmuDmaConfig_lt_ptaBase a ha
  simp only [preload]
  rw [wrAll_of_notMem _ _ (by simp [hne]), wrAll_of_module _ _ _ (by simp [s2dBStartAddress])]

theorem slotsKept_run (s : Stream) : SlotsKept s (saa7231Ts2dtlRun s).2 := by
  refine ⟨⟨rfl, rfl, rfl, rfl⟩, rfl, rfl, slotPta_congr rfl fun a _ => ?_⟩
  simp only [saa7231Ts2dtlRun]
  rw [wrAll_of_module _ _ _ (by simp [s2dIntClrStatus, s2dIntSetEnable, s2dS2dCtrl]),
    wr_of_ne (by simp [s2dChxCtrl])]

theorem slotsKept_runPrepare (rd : ℕ → ℕ) (s : Stream) :
    SlotsKept s (saa7231Ts2dtlRunPrepare rd s).2 := by
  rw [saa7231Ts2dtlRunPrepare]
  split <;> exact slotsKept_preload s

theorem startMoves_acquireSteps (o : StartOutcome) (s : Stream) :
    StartMoves s (acquireSteps o s).2 := by
  rw [acquireSteps]
  split
  · exact Or.inl (SlotsKept.refl s)
  · split
    · exact Or.inl (SlotsKept.refl s)
    · have hset : StartMoves s
          (saa7231Ts2dtlSetparams { s with dtl := { s.dtl with clockRun := true } }).2 :=
        (slotsKept_soft s { s.dtl with clockRun := true } s.params).then_moves (startMoves_setparams _)
      have hprep := hset.then_kept (slotsKept_runPrepare o.preload _)
      dsimp only
      split
      · exact hset
      · split <;> exact hprep

theorem startMoves_dmaStart (o : StartOutcome) (s : Stream) :
    StartMoves s (dmaStartStream o s).2 := by
  have hacq : StartMoves s (saa7231Ts2dtlAcquire o { s with params := tsParams }).2 :=
    (slotsKept_soft s s.dtl tsParams).then_moves (startMoves_acquireSteps o _)
  exact hacq.then_kept (slotsKept_run _)

theorem slotsKept_dmaStop (s : Stream) : SlotsKept s (dmaStopStream s).2 :=
  ⟨⟨rfl, rfl, rfl, rfl⟩, rfl, rfl, fun _ => rfl⟩

/-! ### What an interrupt does -/

theorem slotsKept_getBuffer (rd : BufferReadings) (s : Stream) :
    SlotsKept s (saa7231Ts2dtlGetBuffer rd s).2.2 := by
  have hclr : SlotsKept s
      { s with
        regs := wr s.regs (s2dIntClrStatus s.port) rd.stat
        dtl := countErrors rd.stat s.dtl } := by
    refine ⟨⟨rfl, rfl, rfl, rfl⟩, rfl, rfl, slotPta_congr rfl fun a _ => ?_⟩
    show wr s.regs (s2dIntClrStatus s.port) rd.stat (.mmu, a) = s.regs (.mmu, a)
    rw [wr_of_ne (by simp [s2dIntClrStatus])]
  rw [saa7231Ts2dtlGetBuffer]
  split
  · exact SlotsKept.refl s
  · dsimp only
    by_cases hs : rd.stat = 0
    · rw [if_pos hs]
      split
      · exact SlotsKept.refl s
      · exact slotsKept_soft s _ s.params
    · rw [if_neg hs]
      split
      · exact hclr
      · exact hclr.trans (slotsKept_soft _ _ s.params)

theorem setBuffer_keys_nodup (s : Stream) (i buf : ℕ) :
    ((setBufferWrites s i buf).map Prod.fst).Nodup := by
  simp [setBufferWrites, mmuPtaLsb, mmuPtaMsb, s2dBStartAddress]

theorem slotPta_setBuffer (s : Stream) {i buf : ℕ} (hi : i < ts2dBuffers)
    (hpt : (s.dmabuf buf).ptPhys < 2 ^ 64) (j : ℕ) :
    slotPta (saa7231Ts2dtlSetBuffer s i buf) j
      = if j = i then (s.dmabuf buf).ptPhys else slotPta s j := by
  have hn := setBuffer_keys_nodup s i buf
  rw [saa7231Ts2dtlSetBuffer, if_pos hi]
  show wrAll s.regs (setBufferWrites s i buf) (mmuPtaLsb j (dmach s.port))
    + 2 ^ 32 * wrAll s.regs (setBufferWrites s i buf) (mmuPtaMsb j (dmach s.port)) = _
  by_cases hj : j = i
  · subst hj
    rw [if_pos rfl, wrAll_of_mem _ _ hn (v := ptaLsb (s.dmabuf buf).ptPhys),
      wrAll_of_mem _ _ hn (v := ptaMsb (s.dmabuf buf).ptPhys), pta_recombine hpt]
    · simp [setBufferWrites]
    · simp [setBufferWrites]
  · rw [if_neg hj, slotPta, wrAll_of_notMem, wrAll_of_notMem]
    · simp only [setBufferWrites, mmuPtaLsb, mmuPtaMsb, s2dBStartAddress, List.map_cons, List.map_nil,
        List.mem_cons, Prod.mk.injEq, reduceCtorEq, true_and, false_and, List.not_mem_nil,
        or_false]
      omega
    · simp only [setBufferWrites, mmuPtaLsb, mmuPtaMsb, s2dBStartAddress, List.map_cons, List.map_nil,
        List.mem_cons, Prod.mk.injEq, reduceCtorEq, true_and, false_and, List.not_mem_nil,
        or_false]
      omega

theorem bStart_setBuffer (s : Stream) {i buf : ℕ} (hi : i < ts2dBuffers) :
    (saa7231Ts2dtlSetBuffer s i buf).regs (s2dBStartAddress s.port i)
      = dmaaddr 0 s.port s.dmabuf buf i % 2 ^ 32 := by
  rw [saa7231Ts2dtlSetBuffer, if_pos hi]
  exact wrAll_of_mem _ _ (setBuffer_keys_nodup s i buf) (by simp [setBufferWrites])

/-- The interrupt handler on an empty ring whose next buffer is `d`, with slot `i` due. -/
structure Handled (s s' : Stream) (i d : ℕ) : Prop where
  port_eq : s'.port = s.port
  dmabuf_eq : s'.dmabuf = s.dmabuf
  fills_eq : s'.fillsSinceReset = s.fillsSinceReset
  ring_eq : s'.ring = ⟨ringSiz, (d + 1) % ringSiz, (d + 1) % ringSiz, 0⟩
  indexW_eq : s'.indexW = i + 1
  reads_eq : s'.offsetReads = s.offsetReads ++ [d + i]
  bStart_eq : s'.regs (s2dBStartAddress s.port i) = dmaaddr 0 s.port s.dmabuf d i % 2 ^ 32
  slots_eq : (s.dmabuf d).ptPhys < 2 ^ 64 → ∀ j,
    slotPta s' j = if j = i then (s.dmabuf d).ptPhys else slotPta s j

theorem slotIndex_lt (w : ℕ) : slotIndex w < ts2dBuffers := by
  rw [slotIndex, ts2dBuffers]
  split <;> omega

theorem setBuffer_frame (s : Stream) {i : ℕ} (hi : i < ts2dBuffers) (buf : ℕ) :
    (saa7231Ts2dtlSetBuffer s i buf).port = s.port ∧
      (saa7231Ts2dtlSetBuffer s i buf).dmabuf = s.dmabuf ∧
      (saa7231Ts2dtlSetBuffer s i buf).fillsSinceReset = s.fillsSinceReset ∧
      (saa7231Ts2dtlSetBuffer s i buf).offsetReads = s.offsetReads ++ [buf + i] := by
  rw [saa7231Ts2dtlSetBuffer, if_pos hi]
  exact ⟨rfl, rfl, rfl, rfl⟩

theorem slotIndex_mod_succ (n : ℕ) : slotIndex (n % ts2dBuffers + 1) = (n + 1) % ts2dBuffers := by
  rw [slotIndex, ts2dBuffers]
  by_cases h : 8 - 1 < n % 8 + 1
  · rw [if_pos h]
    omega
  · rw [if_neg h]
    omega

theorem handled_evhandler (rd : BufferReadings) (s : Stream) {d : ℕ}
    (hr : s.ring = ⟨ringSiz, d, d, 0⟩) :
    (saa7231Dvbts2dEvhandler rd s).1 = some d ∧
      Handled s (saa7231Dvbts2dEvhandler rd s).2 (slotIndex s.indexW) d := by
  have hk := slotsKept_getBuffer rd s
  rw [saa7231Dvbts2dEvhandler]
  generalize (saa7231Ts2dtlGetBuffer rd s).2.2 = g at hk
  rw [← hk.indexW_eq]
  have hring : g.ring = ⟨ringSiz, d, d, 0⟩ := hk.ring_eq.trans hr
  have hnf : ¬ ringFull g.ring = true := by simp [ringFull, hring, ringSiz]
  have hpass := @ringRead_ringWrite_of_empty g.ring (by simp [hring, ringSiz])
    (by rw [hring]) (by rw [hring])
  have hw : (saa7231RingWrite g.ring).1 = d := by rw [hring]; rfl
  have hne : ¬ ringEmpty (saa7231RingWrite g.ring).2 = true := by
    simp [ringEmpty, saa7231RingWrite, hring, ringSiz]
  have hi := slotIndex_lt g.indexW
  obtain ⟨hport, hbuf, hfills, hreads⟩ := setBuffer_frame g hi (saa7231RingWrite g.ring).1
  rw [evhandlerWrite, if_neg hnf, evhandlerRead, if_neg hne, ← hw]
  refine ⟨congrArg some (hpass.1.trans ?_), hport.trans hk.port_eq, hbuf.trans hk.dmabuf_eq,
    hfills.trans hk.fills_eq, hpass.2.trans ?_, rfl, ?_, ?_, ?_⟩
  · rw [hw, hring]
  · rw [hw, hring]
  · rw [← hk.reads_eq]
    exact hreads
  · rw [← hk.port_eq, ← hk.dmabuf_eq]
    exact bStart_setBuffer g hi
  · intro hpt j
    rw [← hk.dmabuf_eq] at hpt ⊢
    rw [← hk.slots_eq j]
    exact slotPta_setBuffer g hi hpt j

/-! ### What every run keeps -/

/-- The ring is empty between two interrupts and has moved once per fill; the array is as allocated;
the slot due next is the one the hardware fills next. -/
structure Synced (m : PtMapping) (b : Board) : Prop where
  ring_eq : b.stream.ring = ⟨ringSiz, b.fills % ringSiz, b.fills % ringSiz, 0⟩
  pt_eq : ∀ i, i < ringSiz → (b.stream.dmabuf i).ptPhys = m.pt i
  offset_eq : ∀ i, i < ringSiz → (b.stream.dmabuf i).offset = 0
  index_eq : slotIndex b.stream.indexW = b.stream.fillsSinceReset % ts2dBuffers

theorem mod_ringSiz_lt (n : ℕ) : n % ringSiz < ringSiz := Nat.mod_lt _ (by decide)

theorem Synced.handled (h : Synced m b) (rd : BufferReadings) :
    (b.fill rd).delivered = b.delivered ++ [b.fills % ringSiz] ∧
      Handled { b.stream with fillsSinceReset := b.stream.fillsSinceReset + 1 } (b.fill rd).stream
        (b.stream.fillsSinceReset % ts2dBuffers) (b.fills % ringSiz) := by
  obtain ⟨hd, hh⟩ := handled_evhandler rd
    { b.stream with fillsSinceReset := b.stream.fillsSinceReset + 1 } h.ring_eq
  rw [← h.index_eq]
  refine ⟨?_, hh⟩
  rw [Board.fill]
  simp only [hd, Option.toList_some]

theorem SlotsKept.synced (hk : SlotsKept b.stream s') (h : Synced m b) : Synced m { b with stream := s' } := by
  refine ⟨hk.ring_eq.trans h.ring_eq, ?_, ?_, ?_⟩
  · rw [hk.dmabuf_eq]
    exact h.pt_eq
  · rw [hk.dmabuf_eq]
    exact h.offset_eq
  · rw [hk.indexW_eq, hk.fills_eq]
    exact h.index_eq

theorem SlotsReloaded.synced (hr : SlotsReloaded b.stream s') (h : Synced m b) : Synced m { b with stream := s' } := by
  refine ⟨hr.ring_eq.trans h.ring_eq, ?_, ?_, ?_⟩
  · rw [hr.dmabuf_eq]
    exact h.pt_eq
  · rw [hr.dmabuf_eq]
    exact h.offset_eq
  · rw [hr.indexW_eq, hr.fills_eq, slotIndex, if_pos (by rw [ts2dBuffers]; omega)]
    rfl

theorem Synced.fill (h : Synced m b) (rd : BufferReadings) : Synced m (b.fill rd) := by
  obtain ⟨-, hh⟩ := h.handled rd
  refine ⟨?_, ?_, ?_, ?_⟩
  · rw [hh.ring_eq]
    show _ = (⟨ringSiz, (b.fills + 1) % ringSiz, (b.fills + 1) % ringSiz, 0⟩ : Ring)
    rw [Nat.mod_add_mod]
  · rw [hh.dmabuf_eq]
    exact h.pt_eq
  · rw [hh.dmabuf_eq]
    exact h.offset_eq
  · rw [hh.indexW_eq, hh.fills_eq]
    exact slotIndex_mod_succ _

/-- **Every event keeps the counters in step.** -/
theorem Synced.step (h : Synced m b) (e : DmaEvent) : Synced m (b.step e) := by
  cases e with
  | fill rd => exact h.fill rd
  | stop => exact (slotsKept_dmaStop b.stream).synced h
  | start o =>
    rcases startMoves_dmaStart o b.stream with hk | hr
    · exact hk.synced h
    · exact hr.synced h

/-! ### The started board -/

theorem initPort_module {cfg : TsConfig} {port : StreamPort} {p : ℕ × ℕ × List (Reg × ℕ)}
    (h : initPort cfg port = some p) : ∀ w ∈ p.2.2, w.1.1 = .stream := by
  cases port <;> simp only [initPort, reduceCtorEq, Option.some.injEq] at h <;> subst h <;> simp

section Started

variable {cfg : TsConfig} {port : StreamPort} {m : PtMapping} {virt : ℕ → ℕ} {beyond : ℕ → Dmabuf}
  {regs : Reg → ℕ} {s : Stream}

theorem synced_of_init
    (hs : saa7231Ts2dtlInit cfg port (allocRing m virt beyond) regs = some s) :
    Synced m ⟨s, 0, [], []⟩ ∧ (∀ i, i < ts2dBuffers → slotPta s i = m.pt i) ∧
      s.fillsSinceReset = 0 := by
  rw [saa7231Ts2dtlInit] at hs
  obtain ⟨p, hp, rfl⟩ := Option.map_eq_some_iff.mp hs
  have hpt : ∀ i, i < ringSiz → (allocRing m virt beyond i).ptPhys = m.pt i := by
    intro i hi
    rw [allocRing, if_pos hi]
  refine ⟨⟨rfl, hpt, ?_, rfl⟩, ?_, rfl⟩
  · intro i hi
    show (allocRing m virt beyond i).offset = 0
    rw [allocRing, if_pos hi]
    rfl
  · intro i hi
    have hi' : i < ringSiz := lt_of_lt_of_le hi (by decide)
    have hinit : slotPta (saa7231InitPtables
        (freshStream port p.1 p.2.1 (allocRing m virt beyond) regs)) i = m.pt i := by
      rw [slotPta_initPtables _ hi ((hpt i hi').symm ▸ m.pt_lt i hi')]
      exact hpt i hi'
    rw [← hinit]
    refine slotPta_congr ?_ ?_ i
    · rfl
    intro a _
    apply wrAll_of_module
    intro w hw
    rw [initPort_module hp w hw]
    exact Module.noConfusion

theorem synced_started (o : StartOutcome)
    (hs : saa7231Ts2dtlInit cfg port (allocRing m virt beyond) regs = some s) :
    Synced m (Board.started o s) ∧
      (∀ i, i < ts2dBuffers → slotPta (Board.started o s).stream i = m.pt i) ∧
      (Board.started o s).stream.fillsSinceReset = 0 ∧
      (Board.started o s).stream.offsetReads = s.offsetReads := by
  obtain ⟨hsync, hslots, hfills⟩ := synced_of_init hs
  rcases startMoves_dmaStart o s with hk | hr
  · exact ⟨hk.synced hsync, fun i hi => (hk.slots_eq i).trans (hslots i hi),
      hk.fills_eq.trans hfills, hk.reads_eq⟩
  · refine ⟨hr.synced hsync, fun i hi => ?_, hr.fills_eq, hr.reads_eq⟩
    have hi' : i < ringSiz := lt_of_lt_of_le hi (by decide)
    have hpt : (s.dmabuf i).ptPhys = m.pt i := hsync.pt_eq i hi'
    exact (hr.slots_eq i hi (hpt.symm ▸ m.pt_lt i hi')).trans hpt

end Started

/-! ### Hand-off -/

/-- The buffers delivered are array elements, and they are the ones the hardware filled, in order. -/
def HandedOver (m : PtMapping) (b : Board) : Prop :=
  (∀ d ∈ b.delivered, d < ringSiz) ∧ b.delivered.map m.pt = b.filled

def FillDelivered (m : PtMapping) (b : Board) : DmaEvent → Prop
  | .fill rd => ∃ d, d < ringSiz ∧ (b.fill rd).delivered = b.delivered ++ [d] ∧
      (b.fill rd).filled = b.filled ++ [m.pt d]
  | _ => True

/-- A fill is in the first round: fewer than eight fills so far, none of them before a reset. -/
def FirstRound (b : Board) : DmaEvent → Prop
  | .fill _ => b.stream.fillsSinceReset = b.fills ∧ b.fills < ts2dBuffers
  | _ => True

/-- What the first round keeps: slot `i` still names buffer `i`. -/
structure FirstRoundInv (m : PtMapping) (b : Board) : Prop where
  synced : Synced m b
  slots_eq : ∀ i, i < ts2dBuffers → slotPta b.stream i = m.pt i
  since : b.stream.fillsSinceReset = b.fills ∨ b.stream.fillsSinceReset = 0
  fills_le : b.fills ≤ ts2dBuffers

theorem FirstRoundInv.moves (h : FirstRoundInv m b) (hs : StartMoves b.stream s') :
    FirstRoundInv m { b with stream := s' } := by
  rcases hs with hk | hr
  · refine ⟨hk.synced h.synced, fun i hi => (hk.slots_eq i).trans (h.slots_eq i hi), ?_, h.fills_le⟩
    rw [hk.fills_eq]
    exact h.since
  · refine ⟨hr.synced h.synced, fun i hi => ?_, Or.inr hr.fills_eq, h.fills_le⟩
    have hi' : i < ringSiz := lt_of_lt_of_le hi (by decide)
    have hpt := h.synced.pt_eq i hi'
    exact (hr.slots_eq i hi (hpt.symm ▸ m.pt_lt i hi')).trans hpt

theorem FirstRoundInv.fill {rd : BufferReadings} (h : FirstRoundInv m b) (hg : FirstRound b (.fill rd)) :
    FirstRoundInv m (b.fill rd) := by
  obtain ⟨hsince, hlt⟩ := hg
  obtain ⟨-, hh⟩ := h.synced.handled rd
  have hd : b.fills % ringSiz = b.fills := Nat.mod_eq_of_lt (lt_of_lt_of_le hlt (by decide))
  have hi : b.stream.fillsSinceReset % ts2dBuffers = b.fills := by
    rw [hsince, Nat.mod_eq_of_lt hlt]
  have hlt' : b.fills < ringSiz := lt_of_lt_of_le hlt (by decide)
  rw [hd, hi] at hh
  have hpt : (b.stream.dmabuf b.fills).ptPhys = m.pt b.fills := h.synced.pt_eq b.fills hlt'
  refine ⟨h.synced.fill rd, fun i hi => ?_, Or.inl ?_, hlt⟩
  · rw [hh.slots_eq (hpt.symm ▸ m.pt_lt b.fills hlt') i]
    by_cases hif : i = b.fills
    · rw [if_pos hif, hif]
      exact hpt
    · rw [if_neg hif]
      exact h.slots_eq i hi
  · rw [hh.fills_eq, hsince]
    rfl

theorem FirstRoundInv.step {e : DmaEvent} (h : FirstRoundInv m b) (hg : FirstRound b e) :
    FirstRoundInv m (b.step e) := by
  cases e with
  | fill rd => exact h.fill hg
  | stop => exact h.moves (Or.inl (slotsKept_dmaStop b.stream))
  | start o => exact h.moves (startMoves_dmaStart o b.stream)

theorem FirstRoundInv.fillDelivered_iff (h : FirstRoundInv m b) (e : DmaEvent) :
    FillDelivered m b e ↔ FirstRound b e := by
  cases e with
  | stop => exact Iff.rfl
  | start o => exact Iff.rfl
  | fill rd =>
    obtain ⟨hdel, -⟩ := h.synced.handled rd
    have hmod : b.stream.fillsSinceReset % ts2dBuffers < ts2dBuffers := Nat.mod_lt _ (by decide)
    have hfill : (b.fill rd).filled
        = b.filled ++ [m.pt (b.stream.fillsSinceReset % ts2dBuffers)] := by
      rw [← h.slots_eq _ hmod]
      rfl
    have hle := h.fills_le
    have hsince := h.since
    have hsame : b.fills % ringSiz = b.stream.fillsSinceReset % ts2dBuffers ↔
        b.stream.fillsSinceReset = b.fills ∧ b.fills < ts2dBuffers := by
      rw [ringSiz, ts2dBuffers] at *
      omega
    show (∃ d, d < ringSiz ∧ _ ∧ _) ↔ _ ∧ _
    rw [hdel, hfill, ← hsame]
    constructor
    · intro ⟨d, hd, hd₁, hd₂⟩
      have hd₁' : b.fills % ringSiz = d := List.singleton_injective (List.append_cancel_left hd₁)
      have hd₂' : m.pt (b.stream.fillsSinceReset % ts2dBuffers) = m.pt d :=
        List.singleton_injective (List.append_cancel_left hd₂)
      rw [hd₁']
      exact (m.pt_inj _ _ (lt_of_lt_of_le hmod (by decide)) hd hd₂').symm
    · intro heq
      exact ⟨b.fills % ringSiz, mod_ringSiz_lt _, rfl, by rw [heq]⟩

theorem Synced.run_logs (es : List DmaEvent) :
    ∀ b : Board, Synced m b → b.delivered <+: (b.run es).delivered ∧
      b.filled <+: (b.run es).filled := by
  induction es with
  | nil => intro b _; exact ⟨List.prefix_rfl, List.prefix_rfl⟩
  | cons e es ih =>
    intro b h
    obtain ⟨hd, hf⟩ := ih (b.step e) (h.step e)
    cases e with
    | fill rd =>
      refine ⟨List.IsPrefix.trans ?_ hd, List.IsPrefix.trans (List.prefix_append _ _) hf⟩
      show b.delivered <+: (b.fill rd).delivered
      rw [(h.handled rd).1]
      exact List.prefix_append _ _
    | stop => exact ⟨hd, hf⟩
    | start o => exact ⟨hd, hf⟩

theorem HandedOver.of_run {es : List DmaEvent} (h : Synced m b) (hlen : b.delivered.length = b.filled.length)
    (hrun : HandedOver m (b.run es)) : HandedOver m b := by
  obtain ⟨hd, hf⟩ := h.run_logs es
  refine ⟨fun d hmem => hrun.1 d (hd.subset hmem), ?_⟩
  rw [List.prefix_iff_eq_take.mp hd, List.prefix_iff_eq_take.mp hf, List.map_take, hrun.2, hlen]

/-- Over a run: everything was handed over exactly if every fill was delivered. -/
theorem HandedOver.run_iff (es : List DmaEvent) :
    ∀ b : Board, Synced m b → HandedOver m b →
      (HandedOver m (b.run es) ↔ Along (fun b e => some (b.step e)) (FillDelivered m) b es) := by
  induction es with
  | nil =>
    intro b _ hb
    exact iff_of_true hb trivial
  | cons e es ih =>
    intro b h hb
    rw [along_cons_total]
    cases e with
    | stop =>
      rw [← ih (b.step .stop) (h.step _) hb]
      exact (and_iff_right trivial).symm
    | start o =>
      rw [← ih (b.step (.start o)) (h.step _) hb]
      exact (and_iff_right trivial).symm
    | fill rd =>
      obtain ⟨hdel, -⟩ := h.handled rd
      have hstep : HandedOver m (b.fill rd) ↔ FillDelivered m b (.fill rd) := by
        constructor
        · intro hh
          refine ⟨b.fills % ringSiz, mod_ringSiz_lt _, hdel, ?_⟩
          rw [← hh.2, ← hb.2, hdel, List.map_append]
          rfl
        · intro ⟨d, hd, hd₁, hd₂⟩
          refine ⟨fun x hx => ?_, ?_⟩
          · rw [hd₁, List.mem_append, List.mem_singleton] at hx
            rcases hx with hx | hx
            · exact hb.1 x hx
            · exact hx ▸ hd
          · rw [hd₁, hd₂, List.map_append, hb.2]
            rfl
      constructor
      · intro hrun
        have hlen : (b.fill rd).delivered.length = (b.fill rd).filled.length := by
          rw [hdel, List.length_append, Board.fill, List.length_append, ← hb.2, List.length_map]
          rfl
        have hrun' : HandedOver m ((b.fill rd).run es) := hrun
        have hfill := HandedOver.of_run (h.fill rd) hlen hrun'
        exact ⟨hstep.mp hfill, (ih _ (h.fill rd) hfill).mp hrun'⟩
      · intro ⟨hfd, hrest⟩
        exact (ih _ (h.fill rd) (hstep.mpr hfd)).mpr hrest

theorem along_firstRound_fills (rds : List BufferReadings) :
    ∀ b : Board, Synced m b → b.stream.fillsSinceReset = b.fills →
      (Along (fun b e => some (b.step e)) FirstRound b (rds.map DmaEvent.fill) ↔
        b.fills + rds.length ≤ max b.fills ts2dBuffers) := by
  induction rds with
  | nil =>
    intro b _ _
    exact iff_of_true trivial (le_max_left _ _)
  | cons rd rds ih =>
    intro b h hsince
    obtain ⟨-, hh⟩ := h.handled rd
    have hnext : (b.fill rd).stream.fillsSinceReset = (b.fill rd).fills := by
      rw [hh.fills_eq, hsince]
      rfl
    rw [List.map_cons, along_cons_total]
    show (b.stream.fillsSinceReset = b.fills ∧ b.fills < ts2dBuffers) ∧
      Along _ FirstRound (b.fill rd) _ ↔ _
    rw [ih (b.fill rd) (h.fill rd) hnext, List.length_cons, ts2dBuffers]
    show _ ∧ b.fills + 1 + rds.length ≤ max (b.fills + 1) 8 ↔ _
    omega

/-- **The hand-off, exactly.**  On a started stream the handler hands over what the hardware filled
as long as every fill is in the first round; without stop or start in between these are the first
eight. -/
theorem handedOver_iff_firstRound (cfg : TsConfig) (port : StreamPort) (m : PtMapping) (virt : ℕ → ℕ)
    (beyond : ℕ → Dmabuf) (regs : Reg → ℕ) (s : Stream) (o : StartOutcome)
    (hs : saa7231Ts2dtlInit cfg port (allocRing m virt beyond) regs = some s) :
    (∀ es : List DmaEvent, HandedOver m ((Board.started o s).run es) ↔
      Along (fun b e => some (b.step e)) FirstRound (Board.started o s) es) ∧
    (∀ rds : List BufferReadings, HandedOver m ((Board.started o s).run (rds.map DmaEvent.fill)) ↔
      rds.length ≤ ts2dBuffers) := by
  obtain ⟨hsync, hslots, hsince, -⟩ := synced_started o hs
  have hinv : FirstRoundInv m (Board.started o s) :=
    ⟨hsync, hslots, Or.inr hsince, Nat.zero_le _⟩
  have hstart : HandedOver m (Board.started o s) :=
    ⟨fun d hd => absurd hd List.not_mem_nil, rfl⟩
  have hmain : ∀ es : List DmaEvent, HandedOver m ((Board.started o s).run es) ↔
      Along (fun b e => some (b.step e)) FirstRound (Board.started o s) es := by
    intro es
    rw [HandedOver.run_iff es _ hsync hstart]
    refine along_iff_of_invariant (I := FirstRoundInv m) ?_ ?_ es _ hinv
    · intro b e b' hb hg hstep
      cases hstep
      exact hb.step hg
    · intro b e hb
      exact hb.fillDelivered_iff e
  refine ⟨hmain, fun rds => ?_⟩
  rw [hmain, along_firstRound_fills rds _ hsync hsince]
  show 0 + rds.length ≤ max 0 ts2dBuffers ↔ _
  rw [Nat.zero_add, Nat.zero_max]

def lowPages : PtMapping where
  pt i := (i + 1) * pageSize
  pt_lt := by
    intro i hi
    rw [ringSiz] at hi
    rw [pageSize]
    omega
  pt_inj := by
    intro i j _ _ h
    rw [pageSize] at h
    omega

def smoothStart : StartOutcome := ⟨true, fun _ => 0x80⟩

def demoStream : Stream :=
  let s := saa7231InitPtables (freshStream .ts2dExt0 1 1 (allocRing lowPages id fun _ => ⟨0, 0, 0⟩) 0)
  { s with regs := wrAll s.regs [((.stream, 0x009C), 0)] }

theorem handedOver_three_fills :
    HandedOver lowPages ((Board.started smoothStart demoStream).run
      (List.replicate 3 (DmaEvent.fill ⟨0, 0, 0, 0⟩))) :=
  ((handedOver_iff_firstRound ⟨1, 0, 1, 0⟩ .ts2dExt0 lowPages id (fun _ => ⟨0, 0, 0⟩) 0 demoStream
    smoothStart rfl).2 (List.replicate 3 ⟨0, 0, 0, 0⟩)).mpr (by decide)

/-- The ninth fill goes to buffer 0 again, while the handler delivers buffer 8. -/
theorem not_handedOver_nine_fills :
    saa7231Ts2dtlInit ⟨1, 0, 1, 0⟩ .ts2dExt0 (allocRing lowPages id fun _ => ⟨0, 0, 0⟩) 0
      = some demoStream ∧
    ¬ HandedOver lowPages ((Board.started smoothStart demoStream).run
      (List.replicate 9 (DmaEvent.fill ⟨0, 0, 0, 0⟩))) := by
  refine ⟨rfl, ?_⟩
  rw [HandedOver]
  decide

/-! ### The offsets that are read -/

/-- An interrupt reads inside the array, and the slot it loads gets the page table and the offset of
one and the same buffer. -/
def OffsetSound (b : Board) : DmaEvent → Prop
  | .fill rd => (∀ e ∈ (b.fill rd).stream.offsetReads, e < ringSiz) ∧ ∃ d, d < ringSiz ∧
      slotPta (b.fill rd).stream (slotIndex b.stream.indexW) = (b.stream.dmabuf d).ptPhys ∧
      (b.fill rd).stream.regs (s2dBStartAddress b.stream.port (slotIndex b.stream.indexW)) =
        ((slotIndex b.stream.indexW <<< 26) ||| (dmach b.stream.port <<< 21) |||
          (b.stream.dmabuf d).offset) % 2 ^ 32
  | _ => True

/-- The ring position and the slot do not add up past the end of the array. -/
def PointerInside (b : Board) : DmaEvent → Prop
  | .fill _ => b.fills % ringSiz + b.stream.fillsSinceReset % ts2dBuffers < ringSiz
  | _ => True

/-- What the runs with sound offsets keep. -/
structure ReadsInside (m : PtMapping) (b : Board) : Prop where
  synced : Synced m b
  reads_lt : ∀ e ∈ b.stream.offsetReads, e < ringSiz

theorem ReadsInside.moves (h : ReadsInside m b) (hs : StartMoves b.stream s') :
    ReadsInside m { b with stream := s' } := by
  rcases hs with hk | hr
  · exact ⟨hk.synced h.synced, hk.reads_eq.symm ▸ h.reads_lt⟩
  · exact ⟨hr.synced h.synced, hr.reads_eq.symm ▸ h.reads_lt⟩

theorem ReadsInside.reads_fill (h : ReadsInside m b) (rd : BufferReadings) :
    (∀ e ∈ (b.fill rd).stream.offsetReads, e < ringSiz) ↔ PointerInside b (.fill rd) := by
  obtain ⟨-, hh⟩ := h.synced.handled rd
  rw [hh.reads_eq]
  constructor
  · intro hall
    exact hall _ (List.mem_append_right _ (List.mem_singleton_self _))
  · intro hin e he
    rcases List.mem_append.mp he with he | he
    · exact h.reads_lt e he
    · rw [List.mem_singleton.mp he]
      exact hin

theorem ReadsInside.step {e : DmaEvent} (h : ReadsInside m b) (hg : PointerInside b e) : ReadsInside m (b.step e) := by
  cases e with
  | fill rd => exact ⟨h.synced.fill rd, (h.reads_fill rd).mpr hg⟩
  | stop => exact h.moves (Or.inl (slotsKept_dmaStop b.stream))
  | start o => exact h.moves (startMoves_dmaStart o b.stream)

/-- As every offset is 0, the element read for the offset only has to exist. -/
theorem ReadsInside.offsetSound_iff (h : ReadsInside m b) (e : DmaEvent) : OffsetSound b e ↔ PointerInside b e := by
  cases e with
  | stop => exact Iff.rfl
  | start o => exact Iff.rfl
  | fill rd =>
    constructor
    · intro hs
      exact (h.reads_fill rd).mp hs.1
    · intro hin
      obtain ⟨-, hh⟩ := h.synced.handled rd
      have hd := mod_ringSiz_lt b.fills
      have hpt := h.synced.pt_eq _ hd
      rw [← h.synced.index_eq] at hh
      refine ⟨(h.reads_fill rd).mpr hin, b.fills % ringSiz, hd, ?_, ?_⟩
      · rw [hh.slots_eq (hpt.symm ▸ m.pt_lt _ hd), if_pos rfl]
      · have hin' : b.fills % ringSiz + slotIndex b.stream.indexW < ringSiz := by
          rw [h.synced.index_eq]
          exact hin
        refine hh.bStart_eq.trans ?_
        simp only [dmaaddr, ptaElem, h.synced.offset_eq _ hin', h.synced.offset_eq _ hd,
          Nat.zero_shiftLeft, Nat.zero_or]

theorem along_pointerInside_fills (rds : List BufferReadings) :
    ∀ b : Board, Synced m b →
      (Along (fun b e => some (b.step e)) PointerInside b (rds.map DmaEvent.fill) ↔
        ∀ k, k < rds.length →
          (b.fills + k) % ringSiz + (b.stream.fillsSinceReset + k) % ts2dBuffers < ringSiz) := by
  induction rds with
  | nil =>
    intro b _
    exact iff_of_true trivial fun k hk => absurd hk (Nat.not_lt_zero k)
  | cons rd rds ih =>
    intro b h
    have hf : (b.fill rd).stream.fillsSinceReset = b.stream.fillsSinceReset + 1 :=
      (h.handled rd).2.fills_eq
    have hn : (b.fill rd).fills = b.fills + 1 := rfl
    rw [List.map_cons, along_cons_total]
    show b.fills % ringSiz + b.stream.fillsSinceReset % ts2dBuffers < ringSiz ∧
      Along _ PointerInside (b.fill rd) _ ↔ _
    rw [ih (b.fill rd) (h.fill rd), hf, hn, List.length_cons, Nat.forall_lt_succ_left]
    simp only [Nat.add_zero, Nat.add_comm _ 1, ← Nat.add_assoc]

/-- **The offsets, exactly.**  `DMAADDR` stays inside the array, and with it slot and offset belong
together, as long as ring position and slot add up to less than the ring size; in an undisturbed
run these are the first twelve interrupts. -/
theorem offsetSound_iff_pointerInside (cfg : TsConfig) (port : StreamPort) (m : PtMapping)
    (virt : ℕ → ℕ) (beyond : ℕ → Dmabuf) (regs : Reg → ℕ) (s : Stream) (o : StartOutcome)
    (hs : saa7231Ts2dtlInit cfg port (allocRing m virt beyond) regs = some s) :
    (∀ es : List DmaEvent,
      Along (fun b e => some (b.step e)) OffsetSound (Board.started o s) es ↔
        Along (fun b e => some (b.step e)) PointerInside (Board.started o s) es) ∧
    (∀ rds : List BufferReadings,
      Along (fun b e => some (b.step e)) OffsetSound (Board.started o s) (rds.map DmaEvent.fill) ↔
        rds.length ≤ 12) := by
  obtain ⟨hsync, -, hsince, hreads⟩ := synced_started o hs
  have hnil : s.offsetReads = [] := by
    obtain ⟨p, -, rfl⟩ := Option.map_eq_some_iff.mp hs
    rfl
  have hinv : ReadsInside m (Board.started o s) := by
    refine ⟨hsync, fun e he => ?_⟩
    rw [hreads, hnil] at he
    exact absurd he List.not_mem_nil
  have hmain : ∀ es : List DmaEvent,
      Along (fun b e => some (b.step e)) OffsetSound (Board.started o s) es ↔
        Along (fun b e => some (b.step e)) PointerInside (Board.started o s) es := by
    intro es
    refine along_iff_of_invariant (I := ReadsInside m) ?_ ?_ es _ hinv
    · intro b e b' hb hg hstep
      cases hstep
      exact hb.step hg
    · intro b e hb
      exact hb.offsetSound_iff e
  refine ⟨hmain, fun rds => ?_⟩
  rw [hmain, along_pointerInside_fills rds _ hsync, hsince]
  show (∀ k, k < rds.length → (0 + k) % 16 + (0 + k) % 8 < 16) ↔ _
  constructor
  · intro hall
    by_contra hlen
    have := hall 12 (by omega)
    omega
  · intro hlen k hk
    omega

theorem offsetSound_twelve_fills :
    Along (fun b e => some (b.step e)) OffsetSound (Board.started smoothStart demoStream)
      ((List.replicate 12 ⟨0, 0, 0, 0⟩).map DmaEvent.fill) :=
  ((offsetSound_iff_pointerInside ⟨1, 0, 1, 0⟩ .ts2dExt0 lowPages id (fun _ => ⟨0, 0, 0⟩) 0 demoStream
    smoothStart rfl).2 (List.replicate 12 ⟨0, 0, 0, 0⟩)).mpr (by decide)

/-- On the thirteenth interrupt the ring is at 12 and the slot is 4: element 16 is read. -/
theorem offsets_outside_thirteen_fills :
    saa7231Ts2dtlInit ⟨1, 0, 1, 0⟩ .ts2dExt0 (allocRing lowPages id fun _ => ⟨0, 0, 0⟩) 0
      = some demoStream ∧
    ¬ ∀ e ∈ ((Board.started smoothStart demoStream).run
      (List.replicate 13 (DmaEvent.fill ⟨0, 0, 0, 0⟩))).stream.offsetReads, e < ringSiz := by
  refine ⟨rfl, ?_⟩
  decide +kernel

end BgtDvb.Saa7231
