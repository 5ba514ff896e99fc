import BgtDvb.Lib.GuardedRun
import BgtDvb.Saa7231Dvb

/-!
# Feeds: the start/stop transaction

The demultiplexer opens and closes feeds; the first one to open starts the stream and the last one
to close stops it.  A run is a sequence of `saa7231_dvb_start_feed` and `saa7231_dvb_stop_feed`, and
next to the driver stands the number of feeds that are open: started without a failing step, and
not yet stopped.

* `s2dEnabled_run` — **PROVED**: `run` enables the S2D engine;
* `along_feedSound_iff` — **PROVED**: result, counter and engine agree exactly along the runs in
  which no step of a start fails, the counter does not overflow and the last feed is never closed.
-/

namespace BgtDvb.Saa7231

open BgtDvb.RegFile BgtDvb.GuardedRun

/-! ### Where a start can fail -/

/-- A step of the stream start fails: clock activation, parameter setup or preload. -/
def StreamStartFails (o : StartOutcome) (s : Stream) : Prop :=
  (s.dtl.clockRun = false ∧ o.clocksOk = false) ∨ setparamsPortWrites s = none ∨
    preloadRun o.preload 1000 0 = false

instance (o : StartOutcome) (s : Stream) : Decidable (StreamStartFails o s) :=
  inferInstanceAs (Decidable (_ ∨ _ ∨ _))

variable (s : Stream) (o : StartOutcome)

theorem neg_einval_neg : -einval < 0 := by decide

/-! ### The S2D engine -/

theorem s2dEnabled_run : s2dEnabled (saa7231Ts2dtlRun s).2 = true := by
  rw [s2dEnabled]
  show (wr _ (s2dS2dCtrl s.port) (_ ||| 0x1) (s2dS2dCtrl s.port)).testBit 0 = true
  rw [wr_self, Nat.testBit_mod_two_pow, Nat.testBit_or]
  simp

theorem s2dEnabled_dmaStart (s : Stream) :
    s2dEnabled (dmaStartStream o s).2 = true := s2dEnabled_run _

/-! ### Runs of feeds -/

/-- The adapter and the number of open feeds. -/
structure FeedRun where
  dvb : Dvb
  opened : ℕ

inductive FeedOp where
  | start (o : StartOutcome)
  | stop

/-- A step of the start fails: no frontend, or this is the first feed and the stream is missing or
one of its steps fails. -/
def StartFails (o : StartOutcome) (d : Dvb) : Prop :=
  d.frontend = false ∨ d.feeds = 0 ∧ d.stream.elim True (StreamStartFails o)

instance (o : StartOutcome) (d : Dvb) : Decidable (StartFails o d) :=
  match h : d.stream with
  | none => decidable_of_iff (d.frontend = false ∨ d.feeds = 0) (by simp [StartFails, h])
  | some s => decidable_of_iff (d.frontend = false ∨ d.feeds = 0 ∧ StreamStartFails o s)
      (by simp [StartFails, h])

/-- `saa7231_dvb_start_feed` or `saa7231_dvb_stop_feed`; a feed counts as open when no step of its
start failed. -/
def FeedRun.step (r : FeedRun) : FeedOp → FeedRun
  | .start o => ⟨(saa7231DvbStartFeed o r.dvb).2, if StartFails o r.dvb then r.opened else r.opened + 1⟩
  | .stop => ⟨(saa7231DvbStopFeed r.dvb).2, if r.dvb.frontend then r.opened - 1 else r.opened⟩

def dvbEnabled (d : Dvb) : Bool := d.stream.elim false s2dEnabled

/-- The counter is the number of open feeds, and the engine runs exactly while there are some. -/
def FeedsCoherent (r : FeedRun) : Prop :=
  r.dvb.feeds = r.opened ∧ (dvbEnabled r.dvb = true ↔ 0 < r.dvb.feeds)

/-- What a transaction owes: a truthful result, an unchanged counter on failure, coherence after. -/
def FeedSound (r : FeedRun) : FeedOp → Prop
  | .start o => ((saa7231DvbStartFeed o r.dvb).1 < 0 ↔ StartFails o r.dvb) ∧
      (StartFails o r.dvb → (saa7231DvbStartFeed o r.dvb).2.feeds = r.dvb.feeds) ∧
      FeedsCoherent (r.step (.start o))
  | .stop => FeedsCoherent (r.step .stop)

/-- No step of a start fails, the 8-bit counter has room, and the last feed stays open. -/
def FeedGuard (r : FeedRun) : FeedOp → Prop
  | .start o => r.dvb.frontend = true → ¬ StartFails o r.dvb ∧ r.dvb.feeds < 255
  | .stop => r.dvb.frontend = true → 2 ≤ r.dvb.feeds

/-- What holds before every guarded operation. -/
structure FeedInv (r : FeedRun) : Prop where
  coherent : FeedsCoherent r
  feeds_lt : r.dvb.feeds < 256

/-! Without a frontend nothing happens. -/

variable {d : Dvb} {r : FeedRun}

theorem startFeed_noFrontend (h : d.frontend = false) : saa7231DvbStartFeed o d = (-einval, d) := by
  rw [saa7231DvbStartFeed, h]
  rfl

theorem stopFeed_noFrontend (h : d.frontend = false) : saa7231DvbStopFeed d = (-einval, d) := by
  rw [saa7231DvbStopFeed, h]
  rfl

theorem step_noFrontend (h : r.dvb.frontend = false) (op : FeedOp) : r.step op = r := by
  cases op with
  | start o =>
    have hfail : StartFails o r.dvb := Or.inl h
    rw [FeedRun.step, startFeed_noFrontend o h, if_pos hfail]
  | stop =>
    rw [FeedRun.step, stopFeed_noFrontend h, h]
    rfl

/-! With one, the counter moves and the engine follows the first start only. -/

theorem dmaStart_feeds (d : Dvb) : (saa7231DmaStart o d).2.feeds = d.feeds := by
  rw [saa7231DmaStart]
  cases d.stream <;> rfl

theorem dmaStop_feeds (d : Dvb) : (saa7231DmaStop d).2.feeds = d.feeds := by
  rw [saa7231DmaStop]
  cases d.stream <;> rfl

theorem dvbEnabled_dmaStop (d : Dvb) : dvbEnabled (saa7231DmaStop d).2 = dvbEnabled d := by
  rw [saa7231DmaStop]
  cases h : d.stream with
  | none => rfl
  | some s => rw [dvbEnabled, dvbEnabled, h]; rfl

theorem dvbEnabled_dmaStart (h : d.stream.isSome = true) : dvbEnabled (saa7231DmaStart o d).2 = true := by
  obtain ⟨s, hs⟩ := Option.isSome_iff_exists.mp h
  rw [saa7231DmaStart, hs]
  exact s2dEnabled_dmaStart o s

/-- `saa7231_dvb_start_feed` with a frontend returns the counter, whatever happened. -/
theorem startFeed_frontend (h : d.frontend = true) :
    (saa7231DvbStartFeed o d).1 = ((d.feeds + 1) % 256 : ℕ) ∧
      (saa7231DvbStartFeed o d).2.feeds = (d.feeds + 1) % 256 := by
  rw [saa7231DvbStartFeed, h]
  simp only [Bool.not_true, Bool.false_eq_true, if_false]
  split
  · exact ⟨by rw [dmaStart_feeds], dmaStart_feeds o _⟩
  · exact ⟨rfl, rfl⟩

theorem dvbEnabled_startFeed (h : d.frontend = true) :
    dvbEnabled (saa7231DvbStartFeed o d).2
      = if (d.feeds + 1) % 256 = 1 then dvbEnabled (saa7231DmaStart o d).2 else dvbEnabled d := by
  rw [saa7231DvbStartFeed, h]
  simp only [Bool.not_true, Bool.false_eq_true, if_false]
  split
  · rw [saa7231DmaStart, saa7231DmaStart]
    cases hs : d.stream with
    | none => simp only [dvbEnabled, hs]
    | some s => rfl
  · rfl

theorem stopFeed_frontend (h : d.frontend = true) :
    (saa7231DvbStopFeed d).2.feeds = (d.feeds + 255) % 256 ∧
      dvbEnabled (saa7231DvbStopFeed d).2 = dvbEnabled d := by
  rw [saa7231DvbStopFeed, h]
  simp only [Bool.not_true, Bool.false_eq_true, if_false]
  split
  · exact ⟨dmaStop_feeds _, dvbEnabled_dmaStop _⟩
  · exact ⟨rfl, rfl⟩

theorem stream_isSome_of_not_startFails {o : StartOutcome} (h : ¬ StartFails o d) (h0 : d.feeds = 0) :
    d.stream.isSome = true := by
  cases hs : d.stream with
  | none => exact absurd (Or.inr ⟨h0, by rw [hs]; trivial⟩) h
  | some s => rfl

theorem FeedInv.startSound_iff (h : FeedInv r) (o : StartOutcome) :
    FeedSound r (.start o) ↔ FeedGuard r (.start o) := by
  obtain ⟨⟨hcount, hen⟩, hlt⟩ := h
  by_cases hf : r.dvb.frontend = true
  · obtain ⟨hret, hfeeds⟩ := startFeed_frontend o hf
    show (_ ∧ _ ∧ _) ↔ (_ → _)
    rw [hret, hfeeds, forall_prop_of_true hf]
    by_cases hfail : StartFails o r.dvb
    · -- the result is the counter, which is never negative
      refine iff_of_false ?_ (fun hg => hg.1 hfail)
      intro hs
      have := hs.1.mpr hfail
      omega
    · have hstep : FeedsCoherent (r.step (.start o)) ↔ r.dvb.feeds < 255 := by
        rw [FeedsCoherent, FeedRun.step, if_neg hfail, hfeeds, dvbEnabled_startFeed o hf]
        show (r.dvb.feeds + 1) % 256 = r.opened + 1 ∧ _ ↔ _
        constructor
        · intro hc
          omega
        · intro hroom
          refine ⟨by omega, iff_of_true ?_ (by omega)⟩
          split
          · exact dvbEnabled_dmaStart o (stream_isSome_of_not_startFails hfail (by omega))
          · exact hen.mpr (by omega)
      rw [hstep]
      have hnonneg : ¬ (((r.dvb.feeds + 1) % 256 : ℕ) : ℤ) < 0 := by omega
      exact ⟨fun hs => ⟨hfail, hs.2.2⟩,
        fun hg => ⟨iff_of_false hnonneg hfail, fun hx => absurd hx hfail, hg.2⟩⟩
  · have hf' : r.dvb.frontend = false := Bool.eq_false_iff.mpr hf
    have hfail : StartFails o r.dvb := Or.inl hf'
    refine iff_of_true ⟨?_, ?_, ?_⟩ (fun hx => absurd hx hf)
    · rw [startFeed_noFrontend o hf']
      exact iff_of_true neg_einval_neg hfail
    · intro _
      rw [startFeed_noFrontend o hf']
    · rw [step_noFrontend hf']
      exact ⟨hcount, hen⟩

theorem FeedInv.stopSound_iff (h : FeedInv r) : FeedSound r .stop ↔ FeedGuard r .stop := by
  obtain ⟨⟨hcount, hen⟩, hlt⟩ := h
  by_cases hf : r.dvb.frontend = true
  · obtain ⟨hfeeds, henabled⟩ := stopFeed_frontend hf
    show FeedsCoherent _ ↔ (_ → _)
    rw [forall_prop_of_true hf, FeedsCoherent, FeedRun.step, hfeeds, henabled, hen, if_pos hf]
    show (r.dvb.feeds + 255) % 256 = r.opened - 1 ∧ _ ↔ _
    omega
  · have hf' : r.dvb.frontend = false := Bool.eq_false_iff.mpr hf
    refine iff_of_true ?_ (fun hx => absurd hx hf)
    show FeedsCoherent _
    rw [step_noFrontend hf']
    exact ⟨hcount, hen⟩

theorem FeedInv.step {r : FeedRun} (h : FeedInv r) {op : FeedOp} (hg : FeedGuard r op) :
    FeedInv (r.step op) := by
  cases op with
  | start o =>
    refine ⟨((h.startSound_iff o).mpr hg).2.2, ?_⟩
    by_cases hf : r.dvb.frontend = true
    · show (saa7231DvbStartFeed o r.dvb).2.feeds < 256
      rw [(startFeed_frontend o hf).2]
      exact Nat.mod_lt _ (by decide)
    · rw [step_noFrontend (Bool.eq_false_iff.mpr hf)]
      exact h.feeds_lt
  | stop =>
    refine ⟨h.stopSound_iff.mpr hg, ?_⟩
    by_cases hf : r.dvb.frontend = true
    · show (saa7231DvbStopFeed r.dvb).2.feeds < 256
      rw [(stopFeed_frontend hf).1]
      exact Nat.mod_lt _ (by decide)
    · rw [step_noFrontend (Bool.eq_false_iff.mpr hf)]
      exact h.feeds_lt

/-- **Feed transactions, exactly.**  From an idle adapter, result, counter and engine agree at every
step of a run exactly if no step of a start fails, the counter has room, and no stop closes the
last feed. -/
theorem along_feedSound_iff (d : Dvb) (h0 : d.feeds = 0) (hoff : dvbEnabled d = false)
    (ops : List FeedOp) :
    Along (fun r op => some (FeedRun.step r op)) FeedSound ⟨d, 0⟩ ops ↔
      Along (fun r op => some (FeedRun.step r op)) FeedGuard ⟨d, 0⟩ ops := by
  refine along_iff_of_invariant (I := FeedInv) ?_ ?_ ops _ ?_
  · intro r op r' hr hg hstep
    cases hstep
    exact hr.step hg
  · intro r op hr
    cases op with
    | start o => exact hr.startSound_iff o
    | stop => exact hr.stopSound_iff
  · refine ⟨⟨h0, ?_⟩, ?_⟩
    · show dvbEnabled d = true ↔ 0 < d.feeds
      rw [hoff, h0]
      decide
    · show d.feeds < 256
      rw [h0]
      decide

def idleDvb : Dvb := ⟨true, 0, some (freshStream .ts2dExt0 1 1 (fun _ => ⟨0, 0, 0⟩) 0)⟩

theorem feedSound_two_starts :
    Along (fun r op => some (FeedRun.step r op)) FeedSound ⟨idleDvb, 0⟩
      [.start ⟨true, fun _ => 0x80⟩, .start ⟨true, fun _ => 0x80⟩, .stop] :=
  (along_feedSound_iff idleDvb rfl (by decide) _).mpr
    ⟨fun _ => by decide, fun r h => by
      cases h
      exact ⟨fun _ => by decide, fun r h => by
        cases h
        exact ⟨fun _ => by decide, fun r h => trivial⟩⟩⟩

/-- If the clocks cannot be activated, the start reports feed 1, which never ran; and after the last
stop the engine still runs. -/
theorem not_feedSound_failed_start :
    ¬ Along (fun r op => some (FeedRun.step r op)) FeedSound ⟨idleDvb, 0⟩
        [.start ⟨false, fun _ => 0x80⟩] ∧
      ¬ Along (fun r op => some (FeedRun.step r op)) FeedSound ⟨idleDvb, 0⟩
        [.start ⟨true, fun _ => 0x80⟩, .stop] := by
  refine ⟨fun h => ?_, fun h => ?_⟩
  · exact absurd (h.1.1.mpr (by decide)) (by decide)
  · have hstop : FeedSound _ .stop := (h.2 _ rfl).1
    exact absurd (hstop.2.mp (by decide)) (by decide)

end BgtDvb.Saa7231
