import BgtDvb.AtscEpgEit
import BgtDvb.Lib.GuardedRun

/-!
# What `atsc_epg` collects

The guide should have the sections of every instance in order and once, should wait for all of them and no longer, should
keep its pointers inside the event array, and should take an event that goes on from one instance to the next in once.

* `parseEvents_spec` — **PROVED**: what the events of a section do to the channel;
* `step_inv` — **PROVED**: one call of `atsc_scan_table` that meets the condition;
* `run_right` — **PROVED**: every run of such calls leaves a guide that is right.
-/

namespace BgtDvb.AtscEpg

open Collected GuardedRun

/-! ### Events -/

/-- How many events of a section get a place in the array: those that are not skipped, up to a title that cannot be
decoded. -/
def Channel.stored (ch : Channel) (first : Bool) (events : List EitEvent) : ℕ :=
  match events with
  | [] => 0
  | event :: rest =>
    let left := if ch.skips first event then rest else events
    min left.length ((left.takeWhile EitEvent.titleDecodes).length + 1)

section Events

variable {ch : Channel} {first : Bool} {event : EitEvent} {events : List EitEvent} {p : ℕ}

theorem skips_false : ch.skips false event = false := rfl

theorem stored_rest : ch.stored false events = min events.length ((events.takeWhile EitEvent.titleDecodes).length + 1) := by
  cases events with
  | nil => rfl
  | cons event events => rw [Channel.stored, skips_false]; rfl

theorem stored_cons : ch.stored first (event :: events) =
    if ch.skips first event then ch.stored false events
    else if event.titleDecodes then 1 + ch.stored false events else 1 := by
  rw [stored_rest, Channel.stored]
  by_cases hskip : ch.skips first event
  · simp only [hskip, if_true]
  · simp only [hskip]
    by_cases htitle : event.titleDecodes
    · simp only [htitle, if_true, List.length_cons, List.takeWhile_cons_of_pos, Bool.false_eq_true, if_false]
      omega
    · simp only [htitle, List.length_cons, Bool.false_eq_true, if_false, List.takeWhile_cons_of_neg, not_false_eq_true,
        List.length_nil]
      omega

/-- What `parse_events` leaves of the channel, and where its pointers go. -/
structure ParsedFrom (ch : Channel) (first : Bool) (events : List EitEvent) (r : Parsed) : Prop where
  srcId : r.ch.srcId = ch.srcId
  eit : r.ch.eit = ch.eit
  lastEvent : r.ch.lastEvent = ch.lastEvent
  index : r.ch.eventInfoIndex = ch.eventInfoIndex + ch.stored first events
  inside : ∀ p, some p ∈ r.events → p < r.ch.eventInfoIndex
  head : ∀ event, events.head? = some event → ch.skips first event → r.events.head? = some none

/-- **`parse_events`**: the induction is over the events, with the channel as the events before have left it. -/
theorem parseEvents_spec (ch : Channel) (first : Bool) (events : List EitEvent) :
    ParsedFrom ch first events (parseEvents ch first events) := by
  induction events generalizing ch first with
  | nil => exact ⟨rfl, rfl, rfl, rfl, fun p hp => absurd hp List.not_mem_nil, fun event hevent => by cases hevent⟩
  | cons event events ih =>
    rw [parseEvents]
    by_cases hskip : ch.skips first event
    · rw [if_pos hskip]
      have hrest := ih ch false
      refine ⟨hrest.srcId, hrest.eit, hrest.lastEvent, ?_, fun p hp => ?_, fun _ _ _ => rfl⟩
      · rw [stored_cons, if_pos hskip]
        exact hrest.index
      · rcases List.mem_cons.mp hp with hp | hp
        · cases hp
        · exact hrest.inside p hp
    · rw [if_neg hskip]
      have hhead : ∀ event', (event :: events).head? = some event' → ch.skips first event' → False := by
        intro event' hevent' hskip'
        cases hevent'
        exact hskip hskip'
      by_cases htitle : event.titleDecodes
      · rw [if_pos htitle]
        have hrest := ih (ch.store event) false
        have hindex : (parseEvents (ch.store event) false events).ch.eventInfoIndex =
            ch.eventInfoIndex + ch.stored first (event :: events) := by
          rw [hrest.index, stored_cons, if_neg hskip, if_pos htitle, stored_rest, stored_rest]
          show ch.eventInfoIndex + 1 + _ = _
          omega
        refine ⟨hrest.srcId, hrest.eit, hrest.lastEvent, hindex, fun p hp => ?_,
          fun event' hevent' hskip' => (hhead event' hevent' hskip').elim⟩
        rcases List.mem_cons.mp hp with hp | hp
        · obtain rfl := Option.some.inj hp
          show ch.eventInfoIndex < (parseEvents (ch.store event) false events).ch.eventInfoIndex
          rw [hrest.index]
          show ch.eventInfoIndex < ch.eventInfoIndex + 1 + _
          omega
        · exact hrest.inside p hp
      · rw [if_neg htitle]
        refine ⟨rfl, rfl, rfl, ?_, fun p hp => ?_, fun event' hevent' hskip' => (hhead event' hevent' hskip').elim⟩
        · rw [stored_cons, if_neg hskip, if_neg htitle]
          rfl
        · rcases List.mem_cons.mp hp with hp | hp
          · obtain rfl := Option.some.inj hp
            exact Nat.lt_succ_self _
          · obtain ⟨_, -, hnone⟩ := List.mem_map.mp hp
            cases hnone

end Events

/-! ### The guide as it should be -/

/-- All sections of an instance, from 0 to its last one. -/
def AllEntered (sections : List SectionInfo) : Prop :=
  ∃ last, (∀ t ∈ sections, t.sec.lastSectionNumber = last) ∧ sections.map SectionInfo.sectionNum = List.range (last + 1)

/-- `u` does not enter the event again that `t`, the last section of its instance, ends with. -/
def EntersOnce (t u : SectionInfo) : Prop :=
  t.sec.sectionNumber = t.sec.lastSectionNumber → ∀ e f, t.sec.events.getLast? = some e → u.sec.events.head? = some f →
    f.eventId = e.eventId → u.events.head? = some none

/-- The sections of an instance are in order and different, pointers lie in the array, the inner loop was left for instances
that are complete and goes on for one that is not, and an event that one instance ends with and the next begins with is
entered once. -/
structure Right (s : State) : Prop where
  defined : s.phase ≠ .undefined
  sorted : ∀ c n, Sorted SectionInfo.sectionNum ((s.ch c).eit n)
  inside : ∀ c n, ∀ t ∈ (s.ch c).eit n, ∀ p, some p ∈ t.events → p < maxNumEventsPerChannel
  ended : ∀ r ∈ s.ended, AllEntered ((s.ch r.1).eit r.2)
  running : s.phase = .receiving → s.numSections ≠ none → ¬ AllEntered ((s.ch s.curr).eit s.index)
  once : ∀ c n, ∀ t ∈ (s.ch c).eit n, ∀ u ∈ (s.ch c).eit (n + 1), EntersOnce t u

/-! ### The condition -/

/-- Section numbers go up to that of the last section, and that is at most 31. -/
def EitSection.Proper (sec : EitSection) : Prop :=
  sec.sectionNumber ≤ sec.lastSectionNumber ∧ sec.lastSectionNumber ≤ 31

def State.target (s : State) (source : UInt16) : Option ℕ :=
  if s.sourceId = 0xFFFF then s.find source else if s.sourceId = source then some s.curr else none

/-- The section is new for channel `k`. -/
structure State.Enters (s : State) (sec : EitSection) (k : ℕ) : Prop where
  target : s.target sec.sourceId = some k
  instance_new : s.eitInstancePattern.testBit k = false
  sections : ∀ n, s.numSections = some n → n = 1 + sec.lastSectionNumber
  section_new : s.sectionPattern.testBit sec.sectionNumber = false

/-- If the section begins with the event that the instance before ends with, `last_event` tells so. -/
def State.Continues (s : State) (sec : EitSection) (k : ℕ) : Prop :=
  ∀ n, s.index = n + 1 → ∀ t ∈ (s.ch k).eit n, t.sec.sectionNumber = t.sec.lastSectionNumber →
    ∀ e f, t.sec.events.getLast? = some e → sec.events.head? = some f → f.eventId = e.eventId → (s.ch k).skips true f

/-- A section for which the code does what it should. -/
structure State.Admits (s : State) (sec : EitSection) : Prop where
  proper : sec.Proper
  source : s.numSections ≠ none → s.sourceId = 0xFFFF → sec.sourceId = 0xFFFF
  below : ∀ k, s.Enters sec k → sec.lastSectionNumber ≤ 30
  room : ∀ k, s.Enters sec k → (s.ch k).eventInfoIndex + (s.ch k).stored true sec.events ≤ maxNumEventsPerChannel
  continues : ∀ k, s.Enters sec k → s.Continues sec k

/-- What a call of `atsc_scan_table` may return. -/
def Meets (s : State) (scan : Scan) : Prop :=
  s.phase = .receiving → ∀ sec, scan = .received sec → s.Admits sec

/-! ### The invariant -/

/-- What is right about the guide whether or not the loop goes on. -/
structure Core (s : State) : Prop where
  defined : s.phase ≠ .undefined
  sorted : ∀ c n, Sorted SectionInfo.sectionNum ((s.ch c).eit n)
  inside : ∀ c n, ∀ t ∈ (s.ch c).eit n, ∀ p, some p ∈ t.events → p < maxNumEventsPerChannel
  ended : ∀ r ∈ s.ended, AllEntered ((s.ch r.1).eit r.2)
  once : ∀ c n, ∀ t ∈ (s.ch c).eit n, ∀ u ∈ (s.ch c).eit (n + 1), EntersOnce t u

/-- Nothing of a later instance is there, the instance pattern marks the channels that are done, and the others have nothing
of this instance but for the one that is collected. -/
structure Base (s : State) : Prop where
  future : ∀ c n, s.index < n → (s.ch c).eit n = []
  past : ∀ r ∈ s.ended, r.2 ≤ s.index
  done : ∀ c, s.eitInstancePattern.testBit c = true ↔ (c, s.index) ∈ s.ended
  others : ∀ c, s.eitInstancePattern.testBit c = false → c ≠ s.curr → (s.ch c).eit s.index = []
  first : s.index = 0 → ∀ c, (s.ch c).lastEvent = none

/-- The channel that is collected has the sections that the section pattern marks, out of `n`. -/
structure Mid (s : State) (n : ℕ) : Prop where
  short : n < 32
  current : s.eitInstancePattern.testBit s.curr = false
  found : s.find s.sourceId = some s.curr
  marks : Marks SectionInfo.sectionNum s.sectionPattern ((s.ch s.curr).eit s.index)
  lasts : ∀ t ∈ (s.ch s.curr).eit s.index, 1 + t.sec.lastSectionNumber = n

/-- No section of a round has come yet. -/
structure Unbegun (s : State) : Prop where
  fresh : s.eitInstancePattern.testBit s.curr = false → (s.ch s.curr).eit s.index = []
  empty : s.sectionPattern = 0

/-- What the variables say while the code waits. -/
structure Book (s : State) : Prop extends Base s where
  unbegun : s.numSections = none → Unbegun s
  mid : ∀ n, s.numSections = some n → Mid s n ∧ (s.ch s.curr).eit s.index ≠ []

/-- Between two calls of `atsc_scan_table`. -/
structure Inv (s : State) : Prop where
  core : Core s
  book : s.phase = .receiving → Book s
  idle : s.phase = .receiving → s.numSections = none → s.sourceId = 0xFFFF
  running : s.phase = .receiving → s.numSections ≠ none → ¬ AllEntered ((s.ch s.curr).eit s.index)

theorem Inv.right {s : State} (h : Inv s) : Right s :=
  ⟨h.core.defined, h.core.sorted, h.core.inside, h.core.ended, h.running, h.core.once⟩

section Steps

variable {s : State}

theorem inv_stop (h : Core s) {phase : Phase} (hdefined : phase ≠ .undefined) (hstop : phase ≠ .receiving) :
    Inv { s with phase := phase } :=
  ⟨⟨hdefined, h.sorted, h.inside, h.ended, h.once⟩, fun hphase => absurd hphase hstop, fun hphase => absurd hphase hstop,
    fun hphase => absurd hphase hstop⟩

theorem inv_startEit (h : Core s) (hfuture : ∀ c n, s.index < n → (s.ch c).eit n = [])
    (hpast : ∀ r ∈ s.ended, r.2 ≤ s.index) : Inv (s.startEit (s.index + 1)) := by
  unfold State.startEit
  split
  · refine ⟨⟨nofun, h.sorted, h.inside, h.ended, h.once⟩, fun _ => ?_, fun _ _ => rfl, fun _ hnone => absurd rfl hnone⟩
    refine
      { future := fun c n hn => hfuture c n (Nat.lt_of_succ_lt hn)
        past := fun r hr => (hpast r hr).trans (Nat.le_succ _)
        done := fun c => ?_
        others := fun c _ _ => hfuture c _ (Nat.lt_succ_self _)
        first := fun hzero => absurd hzero (Nat.succ_ne_zero _)
        unbegun := fun _ => ⟨fun _ => hfuture _ _ (Nat.lt_succ_self _), rfl⟩
        mid := nofun }
    -- nothing is marked yet
    refine iff_of_false (by show ¬ Nat.testBit 0 c = true; rw [Nat.zero_testBit]; decide) fun hmem => ?_
    have hle : s.index + 1 ≤ s.index := hpast (c, s.index + 1) hmem
    omega
  · exact ⟨⟨nofun, h.sorted, h.inside, h.ended, h.once⟩, nofun, nofun, nofun⟩

theorem inv_finishEit (h : Core s) (hfuture : ∀ c n, s.index < n → (s.ch c).eit n = [])
    (hpast : ∀ r ∈ s.ended, r.2 ≤ s.index) : Inv s.finishEit := by
  have heit : ∀ c, (if c < s.numChannels then { s.ch c with lastEvent := State.lastStored ((s.ch c).eit s.index) }
      else s.ch c).eit = (s.ch c).eit := by
    intro c
    split <;> rfl
  unfold State.finishEit
  refine inv_startEit ⟨h.defined, fun c n => ?_, fun c n => ?_, fun r hr => ?_, fun c n => ?_⟩ (fun c n hn => ?_) hpast
  all_goals dsimp only
  · rw [heit]
    exact h.sorted c n
  · rw [heit]
    exact h.inside c n
  · rw [heit]
    exact h.ended r hr
  · rw [heit]
    exact h.once c n
  · rw [heit]
    exact hfuture c n hn

theorem Book.fresh (hb : Book s) (hnone : s.numSections = none) (c : ℕ)
    (hc : s.eitInstancePattern.testBit c = false) : (s.ch c).eit s.index = [] := by
  by_cases hcurr : c = s.curr
  · rw [hcurr] at hc ⊢
    exact (hb.unbegun hnone).fresh hc
  · exact hb.others c hc hcurr

theorem inv_endRound (h : Core s) (hb : Base s) (hall : AllEntered ((s.ch s.curr).eit s.index)) : Inv s.endRound := by
  have hended : ∀ r ∈ (s.curr, s.index) :: s.ended, AllEntered ((s.ch r.1).eit r.2) :=
    List.forall_mem_cons.mpr ⟨hall, h.ended⟩
  have hpast : ∀ r ∈ (s.curr, s.index) :: s.ended, r.2 ≤ s.index := List.forall_mem_cons.mpr ⟨Nat.le_refl _, hb.past⟩
  have hbit : ∀ c, (s.eitInstancePattern ||| 2 ^ s.curr).testBit c = true ↔
      s.eitInstancePattern.testBit c = true ∨ c = s.curr := by
    intro c
    rw [Nat.testBit_or, Nat.testBit_two_pow, Bool.or_eq_true, decide_eq_true_iff, eq_comm (a := c)]
  unfold State.endRound
  dsimp only
  split
  · exact inv_finishEit ⟨h.defined, h.sorted, h.inside, hended, h.once⟩ hb.future hpast
  · refine ⟨⟨h.defined, h.sorted, h.inside, hended, h.once⟩, fun _ => ?_, fun _ _ => rfl, fun _ hnone => absurd rfl hnone⟩
    refine
      { future := hb.future
        past := hpast
        done := fun c => ?_
        others := fun c hc hne => ?_
        first := hb.first
        unbegun := fun _ => ⟨fun hc => ?_, rfl⟩
        mid := nofun }
    · refine (hbit c).trans ?_
      rw [hb.done c]
      show _ ↔ (c, s.index) ∈ (s.curr, s.index) :: s.ended
      rw [List.mem_cons, Prod.mk.injEq, and_iff_left rfl, or_comm]
    · refine hb.others c (Bool.eq_false_iff.mpr fun hold => ?_) hne
      have hfalse : (s.eitInstancePattern ||| 2 ^ s.curr).testBit c = false := hc
      rw [(hbit c).mpr (.inl hold)] at hfalse
      cases hfalse
    · have hfalse : (s.eitInstancePattern ||| 2 ^ s.curr).testBit s.curr = false := hc
      rw [(hbit s.curr).mpr (.inr rfl)] at hfalse
      cases hfalse

theorem allEntered_iff (h : Core s) {n : ℕ} (hmid : Mid s n) (hne : (s.ch s.curr).eit s.index ≠ []) :
    AllEntered ((s.ch s.curr).eit s.index) ↔ s.sectionPattern = 2 ^ n - 1 := by
  rw [hmid.marks.full_iff (h.sorted s.curr s.index)]
  obtain ⟨t, ht⟩ := List.exists_mem_of_ne_nil _ hne
  have hlast := hmid.lasts t ht
  constructor
  · rintro ⟨last, hlasts, hrange⟩
    rw [hlasts t ht] at hlast
    rw [hrange, ← hlast, Nat.add_comm]
  · intro hrange
    refine ⟨t.sec.lastSectionNumber, fun u hu => ?_, ?_⟩
    · have hu' := hmid.lasts u hu
      omega
    · rw [hrange, ← hlast, Nat.add_comm]

theorem inv_testLoop (h : Core s) (hb : Book s) {n : ℕ} (hn : s.numSections = some n) : Inv s.testLoop := by
  obtain ⟨hmid, hne⟩ := hb.mid n hn
  unfold State.testLoop
  rw [hn]
  dsimp only
  rw [if_pos hmid.short]
  by_cases hfull : s.sectionPattern = 2 ^ n - 1
  · rw [if_pos hfull]
    exact inv_endRound h hb.toBase ((allEntered_iff h hmid hne).mpr hfull)
  · rw [if_neg hfull]
    refine ⟨h, fun _ => hb, fun _ hnone => ?_, fun _ _ hall => hfull ((allEntered_iff h hmid hne).mp hall)⟩
    rw [hn] at hnone
    cases hnone

/-! ### A section that is entered -/

/-- Everything is prepared for a section. -/
structure Ready (s : State) (sec : EitSection) : Prop where
  numSections : s.numSections = some (1 + sec.lastSectionNumber)
  mid : Mid s (1 + sec.lastSectionNumber)
  new : s.sectionPattern.testBit sec.sectionNumber = false
  room : (s.ch s.curr).eventInfoIndex + (s.ch s.curr).stored true sec.events ≤ maxNumEventsPerChannel
  continues : s.Continues sec s.curr

variable {sec : EitSection} {r : Parsed}

theorem eit_put (hr : r.ch.eit = (s.ch s.curr).eit) (c n : ℕ) :
    ((s.put sec r).ch c).eit n =
      if c = s.curr ∧ n = s.index then
        insert SectionInfo.sectionNum ((s.ch s.curr).eit s.index) (infoOf sec r)
      else (s.ch c).eit n := by
  unfold State.put
  dsimp only
  by_cases hc : c = s.curr
  · rw [hc, Function.update_self]
    dsimp only
    by_cases hn : n = s.index
    · rw [hn, Function.update_self, if_pos ⟨rfl, rfl⟩, hr]
    · rw [Function.update_of_ne hn, if_neg fun hand => hn hand.2, hr]
  · rw [Function.update_of_ne hc, if_neg fun hand => hc hand.1]

theorem mem_put (hr : r.ch.eit = (s.ch s.curr).eit) {c n : ℕ} {t : SectionInfo} (ht : t ∈ ((s.put sec r).ch c).eit n) :
    (c = s.curr ∧ n = s.index ∧ t = infoOf sec r) ∨ t ∈ (s.ch c).eit n := by
  rw [eit_put hr] at ht
  split_ifs at ht with hat
  · obtain ⟨rfl, rfl⟩ := hat
    exact (mem_insert.mp ht).imp_left fun heq => ⟨rfl, rfl, heq⟩
  · exact .inr ht

theorem srcId_put (hr : r.ch.srcId = (s.ch s.curr).srcId) (c : ℕ) : ((s.put sec r).ch c).srcId = (s.ch c).srcId := by
  unfold State.put
  dsimp only
  by_cases hc : c = s.curr
  · rw [hc, Function.update_self]
    exact hr
  · rw [Function.update_of_ne hc]

theorem lastEvent_put (hr : r.ch.lastEvent = (s.ch s.curr).lastEvent) (c : ℕ) :
    ((s.put sec r).ch c).lastEvent = (s.ch c).lastEvent := by
  unfold State.put
  dsimp only
  by_cases hc : c = s.curr
  · rw [hc, Function.update_self]
    exact hr
  · rw [Function.update_of_ne hc]

theorem find_put (hr : r.ch.srcId = (s.ch s.curr).srcId) (source : UInt16) : (s.put sec r).find source = s.find source := by
  unfold State.find
  simp only [srcId_put hr]
  rfl

theorem core_put (h : Core s) (hb : Base s) (hready : Ready s sec)
    (hparsed : ParsedFrom (s.ch s.curr) true sec.events r) : Core (s.put sec r) where
  defined := h.defined
  sorted := by
    intro c n
    rw [eit_put hparsed.eit]
    split
    · exact (h.sorted s.curr s.index).insert (hready.mid.marks.new hready.new)
    · exact h.sorted c n
  inside := by
    intro c n t ht p hp
    rcases mem_put hparsed.eit ht with ⟨-, -, rfl⟩ | hold
    · have hlt : p < r.ch.eventInfoIndex := hparsed.inside p hp
      rw [hparsed.index] at hlt
      exact hlt.trans_le hready.room
    · exact h.inside c n t hold p hp
  ended := by
    intro x hx
    have hne : ¬ (x.1 = s.curr ∧ x.2 = s.index) := by
      rintro ⟨hc, hn⟩
      have hx' : (s.curr, s.index) ∈ s.ended := by
        rw [← hc, ← hn]
        exact hx
      rw [← hb.done s.curr, hready.mid.current] at hx'
      cases hx'
    rw [eit_put hparsed.eit, if_neg hne]
    exact h.ended x hx
  once := by
    intro c n t ht u hu
    rcases mem_put hparsed.eit hu with ⟨rfl, hn, rfl⟩ | hold'
    · -- the section that is entered, behind the instance before
      intro hlast e f he hf hid
      have hold : t ∈ (s.ch s.curr).eit n := by
        rcases mem_put hparsed.eit ht with ⟨-, hn', -⟩ | hold
        · omega
        · exact hold
      exact hparsed.head f hf (hready.continues n hn.symm t hold hlast e f he hf hid)
    · rcases mem_put hparsed.eit ht with ⟨rfl, rfl, -⟩ | hold
      · rw [hb.future s.curr (s.index + 1) (Nat.lt_succ_self _)] at hold'
        exact absurd hold' List.not_mem_nil
      · exact h.once c n t hold u hold'

theorem base_put (hb : Base s) (hparsed : ParsedFrom (s.ch s.curr) true sec.events r) : Base (s.put sec r) where
  future := by
    intro c n hn
    have hlt : s.index < n := hn
    rw [eit_put hparsed.eit, if_neg (by omega)]
    exact hb.future c n hlt
  past := hb.past
  done := hb.done
  others := by
    intro c hc hne
    have hne' : c ≠ s.curr := hne
    rw [eit_put hparsed.eit, if_neg fun hand => hne' hand.1]
    exact hb.others c hc hne
  first := by
    intro hzero c
    rw [lastEvent_put hparsed.lastEvent]
    exact hb.first hzero c

theorem mid_put (hready : Ready s sec) (hparsed : ParsedFrom (s.ch s.curr) true sec.events r) :
    Mid (s.put sec r) (1 + sec.lastSectionNumber) where
  short := hready.mid.short
  current := hready.mid.current
  found := (find_put hparsed.srcId _).trans hready.mid.found
  marks := by
    rw [eit_put hparsed.eit, if_pos ⟨rfl, rfl⟩]
    exact hready.mid.marks.insert (x := infoOf sec r)
  lasts := by
    intro t ht
    rcases mem_put hparsed.eit ht with ⟨-, -, rfl⟩ | hold
    · rfl
    · exact hready.mid.lasts t hold

theorem inv_enter (h : Core s) (hb : Base s) (hready : Ready s sec) : Inv (s.enter sec) := by
  have hparsed := parseEvents_spec (s.ch s.curr) true sec.events
  have hcore := core_put h hb hready hparsed
  have hbase := base_put hb hparsed
  have hmid := mid_put hready hparsed
  have hn : (s.put sec (parseEvents (s.ch s.curr) true sec.events)).numSections = some (1 + sec.lastSectionNumber) :=
    hready.numSections
  unfold State.enter
  dsimp only
  split
  · refine inv_testLoop hcore ⟨hbase, fun hnone => ?_, fun n hn' => ?_⟩ hn
    · rw [hn] at hnone
      cases hnone
    · rw [hn] at hn'
      obtain rfl := Option.some.inj hn'
      refine ⟨hmid, fun hnil => ?_⟩
      rw [eit_put hparsed.eit, if_pos ⟨rfl, rfl⟩] at hnil
      exact insert_ne_nil hnil
  · exact inv_stop hcore (by decide) (by decide)

/-! ### A section that is received -/

theorem inv_collect (h : Core s) (hb : Book s) (hfound : s.find s.sourceId = some s.curr) (hproper : sec.Proper)
    (hready : s.eitInstancePattern.testBit s.curr = false →
      (∀ n, s.numSections = some n → n = 1 + sec.lastSectionNumber) →
      s.sectionPattern.testBit sec.sectionNumber = false →
        sec.lastSectionNumber ≤ 30 ∧
        (s.ch s.curr).eventInfoIndex + (s.ch s.curr).stored true sec.events ≤ maxNumEventsPerChannel ∧
        s.Continues sec s.curr) :
    Inv (s.collect sec) := by
  obtain ⟨hle, hlast⟩ := hproper
  have hnumber : ¬ 32 ≤ sec.sectionNumber := by omega
  have hstop : Inv { s with phase := .failed } := inv_stop h (by decide) (by decide)
  unfold State.collect
  cases hbit : s.eitInstancePattern.testBit s.curr with
  | true =>
    rw [if_pos rfl]
    exact inv_endRound h hb.toBase (h.ended _ ((hb.done s.curr).mp hbit))
  | false =>
    rw [if_neg Bool.false_ne_true]
    cases hn : s.numSections with
    | none =>
      -- the first section of a round
      have hunbegun := hb.unbegun hn
      have hnew : s.sectionPattern.testBit sec.sectionNumber = false := by
        rw [hunbegun.empty]
        exact Nat.zero_testBit _
      obtain ⟨hshort, hroom, hcontinues⟩ := hready hbit (fun n hn' => by rw [hn] at hn'; cases hn') hnew
      have hnil := hunbegun.fresh hbit
      dsimp only
      rw [if_neg (by omega), State.tryEnter, if_neg hnumber, if_neg (by rw [hnew]; exact Bool.false_ne_true)]
      refine inv_enter ⟨h.defined, h.sorted, h.inside, h.ended, h.once⟩
        ⟨hb.future, hb.past, hb.done, hb.others, hb.first⟩ ⟨rfl, ⟨by omega, hbit, hfound, ?_, ?_⟩, hnew, hroom, hcontinues⟩
      · show Marks _ s.sectionPattern ((s.ch s.curr).eit s.index)
        rw [hnil, hunbegun.empty]
        exact marks_nil
      · intro t ht
        have ht' : t ∈ (s.ch s.curr).eit s.index := ht
        rw [hnil] at ht'
        exact absurd ht' List.not_mem_nil
    | some n =>
      dsimp only
      by_cases hsame : n = 1 + sec.lastSectionNumber
      · subst hsame
        rw [if_neg (not_not_intro rfl), State.tryEnter, if_neg hnumber]
        cases hnew : s.sectionPattern.testBit sec.sectionNumber with
        | true =>
          rw [if_pos rfl]
          exact inv_testLoop h hb hn
        | false =>
          rw [if_neg Bool.false_ne_true]
          obtain ⟨-, hroom, hcontinues⟩ := hready hbit (fun n hn' => by rw [hn] at hn'; exact (Option.some.inj hn').symm) hnew
          exact inv_enter h hb.toBase ⟨hn, (hb.mid _ hn).1, hnew, hroom, hcontinues⟩
      · rw [if_pos hsame]
        rw [hn] at hstop
        exact hstop

/-- No event is saved while the first instances are received, so that there is none to forget. -/
theorem identify_eq (hfirst : s.index = 0 → ∀ c, (s.ch c).lastEvent = none) (k : ℕ) (source : UInt16) :
    s.identify k source = { s with sourceId := source, curr := k } := by
  unfold State.identify
  by_cases hzero : s.index = 0
  · have hsame : Function.update s.ch k { s.ch k with lastEvent := none } = s.ch := by
      rw [Function.update_eq_self_iff, ← hfirst hzero k]
    rw [if_pos hzero, hsame]
  · rw [if_neg hzero]

theorem inv_receive (h : Inv s) (hreceiving : s.phase = .receiving) (hadmits : s.Admits sec) : Inv (s.receive sec) := by
  have hb := h.book hreceiving
  have hcore := h.core
  unfold State.receive
  by_cases hsource : s.sourceId = 0xFFFF
  · rw [if_pos hsource]
    have htarget : s.target sec.sourceId = s.find sec.sourceId := if_pos hsource
    cases hfind : s.find sec.sourceId with
    | none => exact ⟨⟨nofun, hcore.sorted, hcore.inside, hcore.ended, hcore.once⟩, nofun, nofun, nofun⟩
    | some k =>
      dsimp only
      rw [identify_eq hb.first]
      cases hn : s.numSections with
      | none =>
        have hbook : Book { s with sourceId := sec.sourceId, curr := k } :=
          { future := hb.future
            past := hb.past
            done := hb.done
            others := fun c hc _ => hb.fresh hn c hc
            first := hb.first
            unbegun := fun _ => ⟨hb.fresh hn k, (hb.unbegun hn).empty⟩
            mid := fun n hn' => by rw [show s.numSections = some n from hn'] at hn; cases hn }
        rw [← hn]
        refine inv_collect ⟨hcore.defined, hcore.sorted, hcore.inside, hcore.ended, hcore.once⟩ hbook hfind hadmits.proper ?_
        intro hbit hsections hnew
        have henters : s.Enters sec k := ⟨htarget.trans hfind, hbit, hsections, hnew⟩
        exact ⟨hadmits.below k henters, hadmits.room k henters, hadmits.continues k henters⟩
      | some n =>
        -- the source of the round is 0xFFFF, and so is that of the section
        have hsame : sec.sourceId = s.sourceId := by
          rw [hsource]
          exact hadmits.source (by rw [hn]; exact Option.some_ne_none n) hsource
        have hfound := (hb.mid n hn).1.found
        have hk : k = s.curr := by
          rw [hsame, hfound] at hfind
          exact (Option.some.inj hfind).symm
        rw [← hn, hk, hsame]
        refine inv_collect hcore hb hfound hadmits.proper fun hbit hsections hnew => ?_
        have henters : s.Enters sec s.curr := by
          refine ⟨htarget.trans ?_, hbit, hsections, hnew⟩
          rw [hsame]
          exact hfound
        exact ⟨hadmits.below _ henters, hadmits.room _ henters, hadmits.continues _ henters⟩
  · rw [if_neg hsource]
    cases hn : s.numSections with
    | none => exact absurd (h.idle hreceiving hn) hsource
    | some n =>
      by_cases hother : s.sourceId ≠ sec.sourceId
      · rw [if_pos hother]
        exact inv_testLoop hcore hb hn
      · rw [if_neg hother]
        refine inv_collect hcore hb (hb.mid n hn).1.found hadmits.proper fun hbit hsections hnew => ?_
        have henters : s.Enters sec s.curr := by
          refine ⟨?_, hbit, hsections, hnew⟩
          rw [State.target, if_neg hsource, if_pos (not_not.mp hother)]
        exact ⟨hadmits.below _ henters, hadmits.room _ henters, hadmits.continues _ henters⟩

/-- **One call of `atsc_scan_table`** that meets the condition keeps the guide right. -/
theorem step_inv (h : Inv s) {scan : Scan} (hmeets : Meets s scan) : Inv (s.step scan) := by
  unfold State.step
  by_cases hreceiving : s.phase = .receiving
  · rw [if_pos hreceiving]
    cases scan with
    | failed => exact inv_stop h.core (by decide) (by decide)
    | timeout => exact inv_startEit h.core (h.book hreceiving).future (h.book hreceiving).past
    | received sec => exact inv_receive h hreceiving (hmeets hreceiving sec rfl)
  · rw [if_neg hreceiving]
    exact h

end Steps

theorem core_of_empty {s : State} (hdefined : s.phase ≠ .undefined) (hnil : ∀ c n, (s.ch c).eit n = [])
    (hended : s.ended = []) : Core s := by
  refine ⟨hdefined, fun c n => ?_, fun c n t ht => ?_, fun r hr => ?_, fun c n t ht => ?_⟩
  · rw [hnil]
    exact List.Pairwise.nil
  · rw [hnil] at ht
    exact absurd ht List.not_mem_nil
  · rw [hended] at hr
    exact absurd hr List.not_mem_nil
  · rw [hnil] at ht
    exact absurd ht List.not_mem_nil

theorem inv_startEit_zero {s : State} (hnil : ∀ c n, (s.ch c).eit n = []) (hlast : ∀ c, (s.ch c).lastEvent = none)
    (hended : s.ended = []) : Inv (s.startEit 0) := by
  unfold State.startEit
  split
  · refine ⟨core_of_empty nofun hnil hended, fun _ => ?_, fun _ _ => rfl, fun _ hnone => absurd rfl hnone⟩
    refine
      { future := fun c n _ => hnil c n
        past := fun r hr => absurd (hended ▸ hr) List.not_mem_nil
        done := fun c => iff_of_false ?_ fun hr => absurd (hended ▸ hr) List.not_mem_nil
        others := fun c _ _ => hnil c 0
        first := fun _ => hlast
        unbegun := fun _ => ⟨fun _ => hnil _ 0, rfl⟩
        mid := nofun }
    show ¬ Nat.testBit 0 c = true
    rw [Nat.zero_testBit]
    decide
  · exact ⟨core_of_empty nofun hnil hended, nofun, nofun, nofun⟩

theorem init_inv (guide : Guide) : Inv (State.init guide) :=
  inv_startEit_zero (fun _ _ => rfl) (fun _ => rfl) rfl

/-! ### Runs -/

def MeetsAlong (guide : Guide) (scans : List Scan) : Prop :=
  Along (fun s scan => some (State.step s scan)) Meets (State.init guide) scans

theorem run_inv (guide : Guide) (scans : List Scan) (h : MeetsAlong guide scans) : Inv (State.run guide scans) := by
  have hrun : scans.foldlM (fun s scan => some (State.step s scan)) (State.init guide) = some (State.run guide scans) :=
    List.foldlM_pure
  refine Along.invariant (fun s scan s' hs hmeets hstep => ?_) scans (State.init guide) _ (init_inv guide) h hrun
  rw [← Option.some.inj hstep]
  exact step_inv hs hmeets

/-- **The guide is right after every run** all of whose calls meet the condition. -/
theorem run_right (guide : Guide) (scans : List Scan) (h : MeetsAlong guide scans) : Right (State.run guide scans) :=
  (run_inv guide scans h).right

/-- An instance whose event is that which the instance before ends with, and one more. -/
def continuedSection : EitSection := ⟨5, 0, 0, [⟨8, 1000, 0, 3600, true⟩, ⟨9, 4600, 1, 600, true⟩]⟩

/-- Two sections of an instance, the second of which comes first, and the next instance. -/
def swappedScans : List Scan :=
  [.received ⟨5, 1, 1, [⟨8, 1000, 0, 3600, true⟩]⟩, .received ⟨5, 0, 1, [⟨7, 0, 0, 1000, true⟩]⟩,
    .received continuedSection]

def oneChannel : Guide := ⟨[5], 3, by decide, by decide⟩

theorem run_right_swapped :
    MeetsAlong oneChannel swappedScans ∧ Right (State.run oneChannel swappedScans) ∧
      ((State.run oneChannel swappedScans).ch 0).eit 1 = [⟨0, 2, 1, 0, [none, some 2], continuedSection⟩] := by
  have hmeets : MeetsAlong oneChannel swappedScans := by
    refine ⟨fun _ sec hsec => ?_, fun s hs => ⟨fun _ sec hsec => ?_, fun s' hs' => ⟨fun _ sec hsec => ?_,
      fun _ _ => trivial⟩⟩⟩
    · cases hsec
      exact ⟨⟨by decide, by decide⟩, fun hnone => absurd rfl hnone, fun _ _ => by decide, fun k _ => by show 0 + 1 ≤ _; decide,
        fun k _ n hn => nomatch hn⟩
    · cases hs
      cases hsec
      refine ⟨⟨by decide, by decide⟩, fun _ hsource => absurd hsource (by decide), fun _ _ => by decide, fun k hk => ?_,
        fun k _ n hn => nomatch hn⟩
      obtain rfl : 0 = k := Option.some.inj hk.target
      decide
    · cases hs
      cases hs'
      cases hsec
      refine ⟨⟨by decide, by decide⟩, fun hnone => absurd rfl hnone, fun _ _ => by decide, fun k hk => ?_,
        fun k hk n _ t _ _ e f _ hf _ => ?_⟩
      · obtain rfl : 0 = k := Option.some.inj hk.target
        decide
      · obtain rfl : 0 = k := Option.some.inj hk.target
        cases hf
        decide
  exact ⟨hmeets, run_right oneChannel swappedScans hmeets, rfl⟩

/-- An instance of one section with one event, which has the id of that of the instances before. -/
def longSection : EitSection := ⟨5, 0, 0, [⟨7, 0, 0, 30000, true⟩]⟩

def longScans : List Scan := [.received longSection, .received longSection, .received longSection]

/-- The second instance skips the event and has none to save, so that the third one enters it again. -/
theorem not_right_long : ¬ Right (State.run oneChannel longScans) := by
  intro h
  have hsecond : ((State.run oneChannel longScans).ch 0).eit 1 = [⟨0, 1, 0, 0, [none], longSection⟩] := rfl
  have hthird : ((State.run oneChannel longScans).ch 0).eit 2 = [⟨0, 1, 0, 0, [some 1], longSection⟩] := rfl
  have hmem : ∀ t : SectionInfo, t ∈ [t] := fun t => List.mem_singleton.mpr rfl
  have honce := h.once 0 1 _ (hsecond ▸ hmem _) _ (hthird ▸ hmem _) rfl _ _ rfl rfl rfl
  cases honce

end BgtDvb.AtscEpg
