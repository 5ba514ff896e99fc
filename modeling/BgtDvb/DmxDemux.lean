import BgtDvb.DmxFraming
import BgtDvb.DmxSection

/-!
# From the stream to the feeds

The list of feeds of `dvb-core/dvb_demux.c`: each packet of the stream goes to all feeds of its PID, and to one of those
that write to the DVR device.

* `feedLoop_dvr_once` — **PROVED**: a packet is copied to the DVR device at most once;
* `demux_delivers` — **PROVED**: wherever the stream is cut and whatever else it carries, a section feed delivers the
  sections of its PID.
-/

namespace BgtDvb.Dmx

open Ucsi Mealy

/-! ### The feeds -/

def tsPid (buf : List UInt8) : ℕ := ((buf.getD 1 0 &&& 0x1f).toNat <<< 8) + (buf.getD 2 0).toNat

/-- A feed of packets, with the flags `TS_PACKET`, `TS_PAYLOAD_ONLY`, `TS_DECODER` and `TS_DEMUX`. -/
structure TsFeed where
  pid : ℕ
  isFiltering : Bool
  packet : Bool
  payloadOnly : Bool
  decoder : Bool
  demux : Bool

inductive Feed
  | ts (f : TsFeed)
  | sec (f : SectionFeed) (sec : SecState)

inductive Callback
  | ts (bytes : List UInt8)
  | sec (d : Delivery)
  | decoder (bytes : List UInt8)

def Feed.pid : Feed → ℕ
  | .ts f => f.pid
  | .sec f _ => f.pid

/-- `dvb_dmx_swfilter_payload`. -/
def swfilterPayload (buf : List UInt8) : List Callback :=
  if payloadCount buf = 0 then [] else [.ts (buf.drop (188 - payloadCount buf))]

/-- `dvb_dmx_swfilter_packet_type`; `decoder` is whether the driver has a `write_to_decoder`. -/
def packetType (decoder : Bool) (buf : List UInt8) : Feed → Feed × List Callback
  | .ts f =>
    (.ts f, if f.isFiltering then
      (if f.packet then if f.payloadOnly then swfilterPayload buf else [.ts buf] else []) ++
        (if f.decoder && decoder then [.decoder buf] else [])
      else [])
  | .sec f sec =>
    if f.isFiltering then
      let r := sectionPacket f sec buf
      (.sec f r.1, r.2.map .sec)
    else (.sec f sec, [])

/-- `DVR_FEED`. -/
def dvrFeed : Feed → Bool
  | .ts f => f.isFiltering && f.packet && !f.demux
  | .sec _ _ => false

/-- `list_for_each_entry` of `dvb_dmx_swfilter_packet`: the feeds, and what each of them is called with. -/
def feedLoop (decoder : Bool) (buf : List UInt8) : Bool → List Feed → List Feed × List (List Callback)
  | _, [] => ([], [])
  | dvrDone, f :: fs =>
    if f.pid ≠ tsPid buf ∧ f.pid ≠ 0x2000 ∨ dvrFeed f ∧ dvrDone then
      let r := feedLoop decoder buf dvrDone fs
      (f :: r.1, [] :: r.2)
    else
      let c := if f.pid = tsPid buf then packetType decoder buf f else (f, [.ts buf])
      let r := feedLoop decoder buf (dvrDone || dvrFeed f) fs
      (c.1 :: r.1, c.2 :: r.2)

/-- The transport error indicator is set, and such packets are dropped. -/
def dropped (feedErrPkts : Bool) (buf : List UInt8) : Bool := buf.getD 1 0 &&& 0x80 != 0 && !feedErrPkts

/-- `dvb_dmx_swfilter_packet`. -/
def swfilterPacket (feedErrPkts decoder : Bool) (feeds : List Feed) (buf : List UInt8) : List Feed × List (List Callback) :=
  if dropped feedErrPkts buf then (feeds, feeds.map fun _ => []) else feedLoop decoder buf false feeds

/-- `dvb_dmx_swfilter` or `dvb_dmx_swfilter_204`, with the callbacks that each packet leads to. -/
def demuxCall (ps : PktSize) (feedErrPkts decoder : Bool) :
    List UInt8 × List Feed → List UInt8 → (List UInt8 × List Feed) × List (List (List Callback)) :=
  cascade (swfilter ps) (swfilterPacket feedErrPkts decoder)

variable {ps : PktSize} {feedErrPkts decoder : Bool} {feeds : List Feed} {f : SectionFeed} {sec : SecState} {i : ℕ}
    {buf : List UInt8}

/-! ### The DVR device -/

/-- **A packet is copied at most once.** -/
theorem feedLoop_dvr_once (decoder : Bool) (buf : List UInt8) (feeds : List Feed) :
    (feeds.zip (feedLoop decoder buf false feeds).2).countP (fun x => dvrFeed x.1 && !x.2.isEmpty) ≤ 1 := by
  have hall : ∀ (feeds : List Feed) (dvrDone : Bool),
      (feeds.zip (feedLoop decoder buf dvrDone feeds).2).countP (fun x => dvrFeed x.1 && !x.2.isEmpty) ≤
        if dvrDone then 0 else 1 := by
    intro feeds
    induction feeds with
    | nil => exact fun _ => Nat.zero_le _
    | cons f fs ih =>
      intro dvrDone
      rw [feedLoop]
      by_cases hskip : f.pid ≠ tsPid buf ∧ f.pid ≠ 0x2000 ∨ dvrFeed f ∧ dvrDone
      · rw [if_pos hskip, List.zip_cons_cons, List.countP_cons_of_neg (by simp)]
        exact ih dvrDone
      · rw [if_neg hskip]
        dsimp only
        rw [List.zip_cons_cons, List.countP_cons]
        have hrest := ih (dvrDone || dvrFeed f)
        cases hf : dvrFeed f with
        | false =>
          rw [hf, Bool.or_false] at hrest
          simpa using hrest
        | true =>
          have hd : dvrDone = false := Bool.eq_false_iff.mpr fun hd => hskip (.inr ⟨hf, hd⟩)
          rw [hf, hd] at hrest
          subst hd
          simp only [Bool.or_true, if_true, Nat.le_zero] at hrest
          rw [Bool.or_true, hrest, Nat.zero_add, if_neg Bool.false_ne_true]
          split_ifs <;> decide
  exact hall feeds false

/-! ### A section feed among the others -/

/-- The packets that a section feed gets. -/
def mine (feedErrPkts : Bool) (f : SectionFeed) (buf : List UInt8) : Bool := f.pid == tsPid buf && !dropped feedErrPkts buf

theorem feedLoop_section (hpid : f.pid ≤ 0x1fff) (hfilter : f.isFiltering = true) (dvrDone : Bool)
    (h : feeds[i]? = some (.sec f sec)) :
    (feedLoop decoder buf dvrDone feeds).1[i]? =
        some (.sec f (if f.pid = tsPid buf then (sectionPacket f sec buf).1 else sec)) ∧
      (feedLoop decoder buf dvrDone feeds).2.getD i [] =
        if f.pid = tsPid buf then (sectionPacket f sec buf).2.map .sec else [] := by
  induction feeds generalizing i dvrDone with
  | nil => exact absurd h (by simp)
  | cons g gs ih =>
    rw [feedLoop]
    cases i with
    | zero =>
      obtain rfl : g = .sec f sec := by simpa using h
      have hno : f.pid ≠ 0x2000 := by omega
      by_cases hp : f.pid = tsPid buf
      · simp [Feed.pid, dvrFeed, packetType, hfilter, hp]
      · simp [Feed.pid, dvrFeed, hp, hno]
    | succ i =>
      have h' : gs[i]? = some (.sec f sec) := by simpa using h
      by_cases hskip : g.pid ≠ tsPid buf ∧ g.pid ≠ 0x2000 ∨ dvrFeed g ∧ dvrDone
      · rw [if_pos hskip]
        exact ih _ h'
      · rw [if_neg hskip]
        exact ih _ h'

theorem swfilterPacket_section (feedErrPkts decoder : Bool) (buf : List UInt8) (hpid : f.pid ≤ 0x1fff) (hfilter : f.isFiltering = true) (h : feeds[i]? = some (.sec f sec)) :
    (swfilterPacket feedErrPkts decoder feeds buf).1[i]? =
        some (.sec f (if mine feedErrPkts f buf then (sectionPacket f sec buf).1 else sec)) ∧
      (swfilterPacket feedErrPkts decoder feeds buf).2.getD i [] =
        if mine feedErrPkts f buf then (sectionPacket f sec buf).2.map .sec else [] := by
  unfold swfilterPacket mine
  cases dropped feedErrPkts buf with
  | true => simp [h]
  | false => simpa using feedLoop_section hpid hfilter false h

/-- Among the callbacks of a run, those of a section feed are made by the packets of its PID. -/
theorem outputs_section (hpid : f.pid ≤ 0x1fff) (hfilter : f.isFiltering = true) (packets : List (List UInt8)) :
    ∀ (feeds : List Feed) (sec : SecState), feeds[i]? = some (.sec f sec) →
      ((outputs (swfilterPacket feedErrPkts decoder) feeds packets).flatMap fun calls => calls.getD i []) =
        (outputs (sectionPacket f) sec (packets.filter (mine feedErrPkts f))).flatten.map .sec := by
  induction packets with
  | nil => exact fun _ _ _ => rfl
  | cons buf packets ih =>
    intro feeds sec h
    obtain ⟨hstate, hout⟩ := swfilterPacket_section feedErrPkts decoder buf hpid hfilter h
    rw [outputs, List.flatMap_cons, hout, ih _ _ hstate, List.filter_cons]
    split_ifs with hmine
    · rw [outputs, List.flatten_cons, List.map_append]
    · rfl

/-! ### The whole way -/

/-- **From the stream to the filters.** -/
theorem demux_delivers {secs : List (PsiSection maxSectionSize)} {pkts : List Packet} {cc : ℕ} (hp : Packing none secs pkts)
    (hfeed : feeds[i]? = some (.sec f (startFiltering sec))) (hpid : f.pid ≤ 0x1fff) (hfilter : f.isFiltering = true)
    (hsec : sec.secbufBase.length = maxSecfeedSize) (hf : ∀ s ∈ secs, Within f s.bytes) (noise : List UInt8)
    (hnoise : ∀ b ∈ noise, isSync ps b = false) (packets : List (List UInt8)) (hpackets : ∀ a ∈ packets, IsPacket ps a)
    (hbufs : CarriedFrom cc pkts ((packets.map (handedOn ps)).filter (mine feedErrPkts f))) (part : List UInt8)
    (hpart : Begins ps part) (chunks : List (List UInt8)) (hstream : chunks.flatten = noise ++ (packets.flatten ++ part)) :
    ((outputs (demuxCall ps feedErrPkts decoder) ([], feeds) chunks).flatten.flatMap fun calls => calls.getD i []) =
      (secs.flatMap fun s => accepted f s.bytes).map .sec := by
  have hstart : Awaits ps [] chunks.flatten packets part :=
    ⟨noise, [], hnoise, begins_nil ps, rfl, fun h => absurd rfl h, by rw [List.nil_append, hstream]⟩
  have hbegin : Buffered (startFiltering sec) none :=
    ⟨⟨hsec, Nat.zero_le _, [], sec.secbufBase, rfl, rfl, 0, rfl⟩, fun hne => absurd rfl hne⟩
  rw [demuxCall, outputs_cascade, (swfilter_run hpart chunks packets [] hpackets hstart).1,
    outputs_section hpid hfilter _ feeds _ hfeed, ← List.flatMap_map]
  exact congrArg _ (delivers_packing hp _ _ _ hbegin (fun hne => absurd rfl hne) hbufs (List.forall_mem_map.mpr hf))

set_option maxRecDepth 4000 in
/-- A section of 200 bytes. -/
def longSection : PsiSection maxSectionSize :=
  ⟨[0x40, 0x30, 0xc5] ++ List.replicate 197 0xaa, by decide, by decide, by decide, by decide⟩

/-- Its first packet, one of another PID, and its second packet. -/
def firstPacket : List UInt8 := [0x47, 0x40, 0x10, 0x10, 0] ++ longSection.bytes.take 183

def otherPacket : List UInt8 := [0x47, 0x40, 0x11, 0x10] ++ List.replicate 184 0xff

def secondPacket : List UInt8 := [0x47, 0, 0x10, 0x11] ++ longSection.bytes.drop 183 ++ List.replicate 167 0xff

def anySection : SectionFeed := ⟨0x10, true, true, fun _ => 0, [prepareSecfilter ⟨fun _ => 0, fun _ => 0, fun _ => 0⟩]⟩

def cutStream : List UInt8 := [0x12, 0x34] ++ (firstPacket ++ (otherPacket ++ secondPacket) ++ [0x47, 0x40])

set_option maxRecDepth 8000 in
/-- Behind noise and with another feed in front, in three parts; the third ends in the beginning of a packet. -/
theorem demux_delivers_cut :
    ((outputs (demuxCall .plain true false)
      ([], [.ts ⟨0x11, true, true, false, false, false⟩, .sec anySection ⟨0, false, List.replicate 4284 0, 0, 0⟩])
      [cutStream.take 100, (cutStream.drop 100).take 300, cutStream.drop 400]).flatten.flatMap fun calls => calls.getD 1 []) =
      [.sec (0, longSection.bytes)] := by
  have hpacking : Packing none [longSection]
      [⟨true, 0 :: longSection.bytes.take 183⟩, ⟨false, longSection.bytes.drop 183 ++ List.replicate 167 sectionPad⟩] :=
    .start (by decide) (.cut longSection [] 183 (by decide) (by decide)) (by decide) (.last longSection 183 167 .done)
  have hpackets : ∀ a ∈ [firstPacket, otherPacket, secondPacket], IsPacket .plain a := by
    simp only [List.forall_mem_cons]
    exact ⟨⟨by decide, by decide⟩, ⟨by decide, by decide⟩, ⟨by decide, by decide⟩, fun _ h => absurd h List.not_mem_nil⟩
  have hmine : ([firstPacket, otherPacket, secondPacket].map (handedOn .plain)).filter (mine true anySection) =
      [firstPacket, secondPacket] := by
    decide
  have hfilter : Within anySection longSection.bytes := by
    intro f hf i _
    rw [List.mem_singleton.mp hf]
    exact ⟨UInt8.zero_and, UInt8.zero_and⟩
  have hcarried : CarriedFrom 0
      [⟨true, 0 :: longSection.bytes.take 183⟩, ⟨false, longSection.bytes.drop 183 ++ List.replicate 167 sectionPad⟩]
      [firstPacket, secondPacket] :=
    ⟨⟨by decide, by decide, by decide, by decide, by decide, by decide⟩,
      ⟨by decide, by decide, by decide, by decide, by decide, by decide⟩, trivial⟩
  have haccepted : [longSection].flatMap (fun s => accepted anySection s.bytes) = [(0, longSection.bytes)] := by
    decide
  have hall := @demux_delivers .plain true false
    [.ts ⟨0x11, true, true, false, false, false⟩, .sec anySection ⟨0, false, List.replicate 4284 0, 0, 0⟩] anySection ⟨0, false, List.replicate 4284 0, 0, 0⟩ 1 _ _ 0 hpacking
    rfl (by decide) rfl List.length_replicate (List.forall_mem_singleton.mpr hfilter) [0x12, 0x34] (by decide)
    [firstPacket, otherPacket, secondPacket] hpackets (by rw [hmine]; exact hcarried) [0x47, 0x40]
    ⟨by decide, by decide⟩ [cutStream.take 100, (cutStream.drop 100).take 300, cutStream.drop 400] (by decide)
  rw [haccepted] at hall
  exact hall

end BgtDvb.Dmx
