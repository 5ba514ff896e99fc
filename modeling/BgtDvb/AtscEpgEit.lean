import Mathlib
import BgtDvb.Lib.Collected

/-!
# The guide of `atsc_epg`

`util/atsc_epg/atsc_epg.c`: `main` calls `parse_eit` for one EIT instance after the other.  It waits for sections, settles on
the channel of the first one, and enters the sections of that channel's instance until a pattern says that all are there;
then the next channel, in the order in which sections happen to come.  `parse_events` takes the events of a section into the
channel's array, but for a first event that the channel's last instance ended with.

A pattern is an `int` shifted and compared as a `uint32_t`; a shift by 32 is undefined.  Memory is always there, and the
texts of the titles are not followed: only whether they can be decoded.
-/

namespace BgtDvb.AtscEpg

open Collected

/-! ### Sections -/

/-- `struct atsc_eit_event`, and whether the text of its title can be decoded. -/
structure EitEvent where
  eventId : UInt16
  startTime : UInt32
  etmLocation : ℕ
  lengthInSeconds : ℕ
  titleDecodes : Bool
  deriving Repr, DecidableEq

/-- A section of an EIT: its `table_id_ext` is the source. -/
structure EitSection where
  sourceId : UInt16
  sectionNumber : ℕ
  lastSectionNumber : ℕ
  events : List EitEvent
  deriving Repr, DecidableEq

/-! ### The guide -/

def maxNumEventsPerChannel : ℕ := 4 * 24 * 7

def maxNumChannels : ℕ := 16

def maxNumEventTables : ℕ := 128

/-- `struct atsc_event_info`; the times are those that `localtime_r` gets. -/
structure EventInfo where
  id : UInt16
  start : ℕ
  stop : ℕ
  deriving Repr, DecidableEq

/-- `struct atsc_eit_section_info`, with pointers into the event array of the channel.  `sec` is not in the source: the
section that was entered. -/
structure SectionInfo where
  sectionNum : ℕ
  numEvents : ℕ
  numEtms : ℕ
  numReceivedEtms : ℕ
  events : List (Option ℕ)
  sec : EitSection
  deriving Repr, DecidableEq

/-- `struct atsc_channel_info`; the sections of an instance are those of `struct atsc_eit_info`. -/
structure Channel where
  srcId : UInt16
  eit : ℕ → List SectionInfo
  lastEvent : Option ℕ
  eventInfoIndex : ℕ
  e : ℕ → EventInfo

/-- What `parse_tvct` leaves. -/
structure Guide where
  srcIds : List UInt16
  numEits : ℕ
  channels_le : srcIds.length ≤ maxNumChannels
  eits_le : numEits ≤ maxNumEventTables

/-! ### Events -/

/-- `atsctime_to_unixtime` -/
def atsctimeToUnixtime (t : UInt32) : ℕ := (t.toNat + 315964800) % 2 ^ 32

def Channel.skips (ch : Channel) (first : Bool) (event : EitEvent) : Bool :=
  first && ch.lastEvent.any fun p => event.eventId == (ch.e p).id

def Channel.store (ch : Channel) (event : EitEvent) : Channel :=
  { ch with
    eventInfoIndex := ch.eventInfoIndex + 1
    e := Function.update ch.e ch.eventInfoIndex
      ⟨event.eventId, atsctimeToUnixtime event.startTime, atsctimeToUnixtime event.startTime + event.lengthInSeconds⟩ }

/-- What `parse_events` leaves, and whether it returns 0. -/
structure Parsed where
  ch : Channel
  events : List (Option ℕ)
  numEtms : ℕ
  ok : Bool

/-- `parse_events`; where a title cannot be decoded, the pointers behind are `NULL` as `calloc` left them. -/
def parseEvents (ch : Channel) (first : Bool) : List EitEvent → Parsed
  | [] => ⟨ch, [], 0, true⟩
  | event :: events =>
    if ch.skips first event then
      let r := parseEvents ch false events
      { r with events := none :: r.events }
    else
      let etm := if event.etmLocation ≠ 0 ∧ event.etmLocation ≠ 3 then 1 else 0
      if event.titleDecodes then
        let r := parseEvents (ch.store event) false events
        { r with events := some ch.eventInfoIndex :: r.events, numEtms := etm + r.numEtms }
      else ⟨ch.store event, some ch.eventInfoIndex :: events.map fun _ => none, etm, false⟩

def infoOf (sec : EitSection) (r : Parsed) : SectionInfo :=
  ⟨sec.sectionNumber, sec.events.length, r.numEtms, 0, r.events, sec⟩

/-! ### States -/

/-- Waiting for a section, at the end of the loop in `main`, left with -1, or in what C does not define. -/
inductive Phase where
  | receiving
  | finished
  | failed
  | undefined
  deriving Repr, DecidableEq

/-- The guide and the local variables of `parse_eit`; `numSections` is `none` for -1.  `ended` is not in the source: the
channels and instances for which the inner loop was left. -/
structure State where
  numChannels : ℕ
  numEits : ℕ
  ch : ℕ → Channel
  index : ℕ
  eitInstancePattern : ℕ
  sourceId : UInt16
  sectionPattern : ℕ
  numSections : Option ℕ
  curr : ℕ
  phase : Phase
  ended : List (ℕ × ℕ)

namespace State

def startRound (s : State) : State := { s with sourceId := 0xFFFF, sectionPattern := 0, numSections := none }

/-- The head of the loop in `main`, and `parse_eit` up to its first section: there is a channel, so that the outer loop is
entered. -/
def startEit (s : State) (index : ℕ) : State :=
  if index < s.numEits then startRound { s with index := index, eitInstancePattern := 0, phase := .receiving }
  else { s with index := index, phase := .finished }

/-- The event that an instance ends with, as the end of `parse_eit` looks for it. -/
def lastStored (sections : List SectionInfo) : Option ℕ :=
  sections.getLast?.bind fun t => if t.numEvents = 0 then none else (t.events[t.numEvents - 1]?).join

/-- The end of `parse_eit` that has seen all channels. -/
def finishEit (s : State) : State :=
  startEit { s with ch := fun c =>
    if c < s.numChannels then { s.ch c with lastEvent := lastStored ((s.ch c).eit s.index) } else s.ch c } (s.index + 1)

def endRound (s : State) : State :=
  let s := { s with
    eitInstancePattern := s.eitInstancePattern ||| 2 ^ s.curr
    ended := (s.curr, s.index) :: s.ended }
  if s.eitInstancePattern = 2 ^ s.numChannels - 1 then s.finishEit else s.startRound

def testLoop (s : State) : State :=
  match s.numSections with
  | none => { s with phase := .undefined }
  | some n =>
    if n < 32 then if s.sectionPattern = 2 ^ n - 1 then s.endRound else s
    else { s with phase := .undefined }

def find (s : State) (source : UInt16) : Option ℕ :=
  (List.range s.numChannels).find? fun k => source = (s.ch k).srcId

def identify (s : State) (k : ℕ) (source : UInt16) : State :=
  { s with
    sourceId := source
    curr := k
    ch := if s.index = 0 then Function.update s.ch k { s.ch k with lastEvent := none } else s.ch }

def put (s : State) (sec : EitSection) (r : Parsed) : State :=
  let sections := insert SectionInfo.sectionNum (r.ch.eit s.index) (infoOf sec r)
  { s with
    sectionPattern := s.sectionPattern ||| 2 ^ sec.sectionNumber
    ch := Function.update s.ch s.curr { r.ch with eit := Function.update r.ch.eit s.index sections } }

def enter (s : State) (sec : EitSection) : State :=
  let r := parseEvents (s.ch s.curr) true sec.events
  if r.ok then (s.put sec r).testLoop else { s.put sec r with phase := .failed }

def tryEnter (s : State) (sec : EitSection) : State :=
  if 32 ≤ sec.sectionNumber then { s with phase := .undefined }
  else if s.sectionPattern.testBit sec.sectionNumber then s.testLoop
  else s.enter sec

def collect (s : State) (sec : EitSection) : State :=
  if s.eitInstancePattern.testBit s.curr then s.endRound
  else
    match s.numSections with
    | none =>
      if 32 < 1 + sec.lastSectionNumber then { s with phase := .failed }
      else tryEnter { s with numSections := some (1 + sec.lastSectionNumber) } sec
    | some n => if n ≠ 1 + sec.lastSectionNumber then { s with phase := .failed } else s.tryEnter sec

def receive (s : State) (sec : EitSection) : State :=
  if s.sourceId = 0xFFFF then
    match s.find sec.sourceId with
    | none => { s with sourceId := sec.sourceId, phase := .failed }
    | some k => (s.identify k sec.sourceId).collect sec
  else if s.sourceId ≠ sec.sourceId then s.testLoop
  else s.collect sec

end State

/-- What `atsc_scan_table` returns: -1, 0, or 1 with a section. -/
inductive Scan where
  | failed
  | timeout
  | received (sec : EitSection)
  deriving Repr, DecidableEq

namespace State

def step (s : State) (scan : Scan) : State :=
  if s.phase = .receiving then
    match scan with
    | .failed => { s with phase := .failed }
    | .timeout => s.startEit (s.index + 1)
    | .received sec => s.receive sec
  else s

/-- Before the first call of `parse_eit`; without a channel `guide.ch[0]` has no instances. -/
def init (guide : Guide) : State :=
  startEit
    { numChannels := guide.srcIds.length
      numEits := if guide.srcIds = [] then 0 else guide.numEits
      ch := fun c => ⟨guide.srcIds.getD c 0, fun _ => [], none, 0, fun _ => ⟨0, 0, 0⟩⟩
      index := 0
      eitInstancePattern := 0
      sourceId := 0xFFFF
      sectionPattern := 0
      numSections := none
      curr := 0
      phase := .receiving
      ended := [] } 0

def run (guide : Guide) (scans : List Scan) : State := scans.foldl step (init guide)

end State

end BgtDvb.AtscEpg
