import BgtDvb.ScanTransponder
import BgtDvb.ScanDescriptors

/-!
# The virtual channel table of the scan utility

`parse_psip_vct` of `util/scan/scan.c` goes over the channels of a VCT section and makes a service of each
channel of a type it knows.

* `vctLoop_holds` — **PROVED**: the loop comes to the channels in front of the first of another type;
* `parsePsipVct_iff` — **PROVED**: that is right exactly if no service stands behind it, and no program number is
  a pseudo number.
-/

namespace BgtDvb.Dvbscan.Vct

open BgtDvb.Dvbscan (Memory)
open BgtDvb.Dvbscan.Loops (Descriptor)

/-! ### Channel records -/

def word (buf : Memory) : ℕ → ℕ
  | 0 => 0
  | n + 1 => word buf n * 256 + (buf n).toNat

/-- `getBits` of `section.c`, where the bits lie in the bytes that it takes. -/
def getBits (buf : Memory) (startbit bitlen : ℕ) : ℕ :=
  let bytes := (bitlen - 1) / 8 + 1
  word (buf.advance (startbit / 8)) bytes / 2 ^ (8 * bytes - startbit % 8 - bitlen) % 2 ^ bitlen

/-- The fields of `tvct_channel` that are used. -/
structure TvctChannel where
  shortName : List ℕ
  majorChannelNumber : ℕ
  minorChannelNumber : ℕ
  programNumber : ℕ
  hidden : ℕ
  serviceType : ℕ
  descriptorsLength : ℕ
  deriving DecidableEq

/-- `read_tvct_channel` -/
def readTvctChannel (b : Memory) : TvctChannel where
  shortName := (List.range 7).map fun i => getBits b (16 * i) 16
  majorChannelNumber := getBits b 116 10
  minorChannelNumber := getBits b 126 10
  programNumber := getBits b 192 16
  hidden := getBits b 211 1
  serviceType := getBits b 218 6
  descriptorsLength := getBits b 246 10

/-! ### Services -/

/-- `running_mode`; `none` is the 0 of a new service. -/
inductive RunningMode
  | none | notRunning | startsSoon | pausing | running
  deriving DecidableEq, Repr

/-- `struct service`, as far as the parser writes it; `audio` is the pids with their languages, `audio_num` of
them. -/
structure Service where
  serviceId : ℕ
  transportStreamId : ℕ
  serviceName : Option (List UInt8) := none
  pcrPid : ℕ := 0
  videoPid : ℕ := 0
  audio : List (ℕ × List ℕ) := []
  running : RunningMode := .none
  channelNum : ℕ := 0
  deriving DecidableEq

/-- The current transponder. -/
structure Tp where
  transportStreamId : ℕ
  services : List Service
  deriving DecidableEq

/-- What is done to the service with the number: it is found, or allocated at the end. -/
def withService (serviceId : ℕ) (f : Service → Service) (tp : Tp) : List Service → List Service
  | [] => [f { serviceId := serviceId, transportStreamId := tp.transportStreamId }]
  | s :: services => if s.serviceId = serviceId then f s :: services else s :: withService serviceId f tp services

/-- `find_service` and `alloc_service`, and what the caller does with the service. -/
def Tp.onService (tp : Tp) (serviceId : ℕ) (f : Service → Service) : Tp :=
  { tp with services := withService serviceId f tp tp.services }

/-! ### Descriptors -/

def audioChanMax : ℕ := 32

/-- An element of `parse_atsc_service_loc_desc`. -/
def serviceLocElement (b : Memory) (s : Service) : Service :=
  if b 0 = 0x02 then { s with videoPid := getBits b 11 13 }
  else if b 0 = 0x81 then
    if s.audio.length < audioChanMax then
      { s with audio := s.audio ++ [(getBits b 11 13, [getBits b 24 8, getBits b 32 8, getBits b 40 8])] }
    else s
  else s

def serviceLocElements : ℕ → Memory → Service → Service
  | 0, _, s => s
  | n + 1, b, s => serviceLocElements n (b.advance 6) (serviceLocElement b s)

/-- `parse_atsc_service_loc_desc` -/
def parseAtscServiceLocDesc (buf : Memory) (s : Service) : Service :=
  serviceLocElements (getBits buf 32 8) (buf.advance 5) { s with pcrPid := getBits buf 19 13 }

/-- The segments of a string of `parse_atsc_ext_chan_name_desc`; a segment that is not compressed is the name,
with a terminator. -/
def extChanNameSegments : ℕ → Memory → Service → Memory × Service
  | 0, b, s => (b, s)
  | n + 1, b, s =>
    let numBytes := (b 2).toNat
    extChanNameSegments n (b.advance (3 + numBytes))
      (if b 0 = 0 then { s with serviceName := some ((List.range numBytes).map (fun i => b (3 + i)) ++ [0]) } else s)

def extChanNameStrings : ℕ → Memory → Service → Service
  | 0, _, s => s
  | n + 1, b, s =>
    let r := extChanNameSegments (b 3).toNat (b.advance 4) s
    extChanNameStrings n r.1 r.2

/-- `parse_atsc_ext_chan_name_desc` -/
def parseAtscExtChanNameDesc (buf : Memory) (s : Service) : Service :=
  extChanNameStrings (buf 2).toNat (buf.advance 3) s

/-- The switch of `parse_psip_descriptors`. -/
def parsePsipDescriptor (b : Memory) (s : Service) : Service :=
  if b 0 = 0xa1 then parseAtscServiceLocDesc b s
  else if b 0 = 0xa0 then parseAtscExtChanNameDesc b s
  else s

/-- `parse_psip_descriptors` -/
def parsePsipDescriptors (s : Service) (b : Memory) (len : ℕ) : Service :=
  if len = 0 then s
  else parsePsipDescriptors (parsePsipDescriptor b s) (b.advance (2 + (b 1).toNat)) (len - (2 + (b 1).toNat))
termination_by len

/-! ### The section -/

/-- The types of `service_type` behind which the switch goes on. -/
def knownType (serviceType : ℕ) : Bool := serviceType = 0x01 ∨ serviceType = 0x02 ∨ serviceType = 0x03

/-- What the body of the loop does to the service of a channel; the name is seven bytes. -/
def setChannel (ch : TvctChannel) (b : Memory) (s : Service) : Service :=
  let s := { s with serviceName := some (ch.shortName.map UInt8.ofNat) }
  let s := parsePsipDescriptors s (b.advance 32) ch.descriptorsLength
  { s with
    channelNum := ch.majorChannelNumber <<< 10 ||| ch.minorChannelNumber
    running := if ch.hidden ≠ 0 then .notRunning else .running }

/-- A round that comes to a service: where its record is, and the number of the service. -/
structure Touch where
  offset : ℕ
  serviceId : ℕ
  deriving DecidableEq

/-- The loop; `off` is the cursor, which the `continue` leaves where it is. -/
def vctLoop (buf : Memory) : ℕ → ℕ → ℕ → Tp → List Touch × Tp
  | 0, _, _, tp => ([], tp)
  | n + 1, pseudoId, off, tp =>
    let ch := readTvctChannel (buf.advance off)
    if knownType ch.serviceType then
      let pseudoId := if ch.programNumber = 0 then pseudoId - 1 else pseudoId
      let programNumber := if ch.programNumber = 0 then pseudoId else ch.programNumber
      let r := vctLoop buf n pseudoId (off + (32 + ch.descriptorsLength))
        (tp.onService programNumber (setChannel ch (buf.advance off)))
      (⟨off, programNumber⟩ :: r.1, r.2)
    else vctLoop buf n pseudoId off tp

/-- `parse_psip_vct` -/
def parsePsipVct (buf : Memory) (tp : Tp) : List Touch × Tp := vctLoop buf (buf 1).toNat 0xffff 2 tp

/-! ### Bytes in memory -/

/-- The bytes stand in memory from `off` on. -/
def Holds (buf : Memory) (off : ℕ) (bytes : List UInt8) : Prop := ∀ i, (h : i < bytes.length) → buf (off + i) = bytes[i]

def beBytes : ℕ → ℕ → List UInt8
  | 0, _ => []
  | n + 1, v => beBytes n (v / 256) ++ [UInt8.ofNat v]

theorem beBytes_length (n v : ℕ) : (beBytes n v).length = n := by
  induction n generalizing v with
  | zero => rfl
  | succ n ih => rw [beBytes, List.length_append, ih, List.length_singleton]

theorem holds_append_iff (buf : Memory) (off : ℕ) (xs ys : List UInt8) :
    Holds buf off (xs ++ ys) ↔ Holds buf off xs ∧ Holds buf (off + xs.length) ys := by
  constructor
  · intro h
    constructor
    · intro i hi
      rw [h i (by rw [List.length_append]; omega), List.getElem_append_left hi]
    · intro i hi
      rw [Nat.add_assoc, h (xs.length + i) (by rw [List.length_append]; omega), List.getElem_append_right (by omega)]
      simp
  · rintro ⟨hx, hy⟩ i hi
    by_cases hlt : i < xs.length
    · rw [hx i hlt, List.getElem_append_left hlt]
    · have := hy (i - xs.length) (by rw [List.length_append] at hi; omega)
      rw [List.getElem_append_right (by omega), ← this]
      congr 1
      omega

variable {buf : Memory} {off n v pseudoId : ℕ}

theorem holds_init (h : Holds buf off (beBytes (n + 1) v)) : Holds buf off (beBytes n (v / 256)) := by
  rw [beBytes, holds_append_iff] at h
  exact h.1

theorem holds_tail (h : Holds buf off (beBytes (n + 1) v)) : Holds buf (off + 1) (beBytes n v) := by
  induction n generalizing v with
  | zero =>
    intro i hi
    cases hi
  | succ n ih =>
    rw [beBytes, holds_append_iff, beBytes_length] at h
    obtain ⟨hfront, hlast⟩ := h
    rw [beBytes, holds_append_iff, beBytes_length]
    exact ⟨ih hfront, by rwa [Nat.add_assoc, Nat.add_comm 1 n]⟩

theorem holds_advance_iff (buf : Memory) (n off : ℕ) (bytes : List UInt8) :
    Holds (buf.advance n) off bytes ↔ Holds buf (n + off) bytes := by
  refine forall_congr' fun i => forall_congr' fun h => ?_
  rw [Memory.advance, Nat.add_comm (off + i) n, Nat.add_assoc]

theorem word_congr {buf' : Memory} (h : ∀ i < n, buf i = buf' i) : word buf n = word buf' n := by
  induction n with
  | zero => rfl
  | succ n ih => rw [word, word, ih fun i hi => h i (by omega), h n (by omega)]

/-- **A number in memory** is read back. -/
theorem word_beBytes (h : Holds buf 0 (beBytes n v)) : word buf n = v % 256 ^ n := by
  induction n generalizing v with
  | zero => rw [word, Nat.pow_zero, Nat.mod_one]
  | succ n ih =>
    rw [beBytes, holds_append_iff, beBytes_length] at h
    obtain ⟨hfront, hlast⟩ := h
    have hb := hlast 0 (by simp)
    rw [Nat.zero_add, Nat.add_zero] at hb
    have hsplit : v % 256 ^ (n + 1) = v % 256 + 256 * (v / 256 % 256 ^ n) := by rw [Nat.pow_succ', Nat.mod_mul]
    rw [word, ih hfront, hb, List.getElem_singleton, UInt8.toNat_ofNat', hsplit]
    omega

/-! ### Sections -/

/-- A channel, its numbers as wide as their fields; `tuning` is from `modulation_mode` to `channel_TSID`,
`access` and `guide` are what stands in front of and behind `hidden`. -/
structure Channel where
  shortName : List UInt16
  shortName_length : shortName.length = 7
  reserved0 : Fin 16
  majorChannelNumber : Fin 1024
  minorChannelNumber : Fin 1024
  tuning : List UInt8
  tuning_length : tuning.length = 7
  programNumber : UInt16
  access : Fin 8
  hidden : Bool
  guide : Fin 64
  serviceType : Fin 64
  sourceId : UInt16
  reserved3 : Fin 64
  descriptors : List Descriptor
  fits : (Loops.loopBytes descriptors).length < 1024

namespace Channel

/-- The 32 bytes of a record. -/
def record (c : Channel) : List UInt8 :=
  c.shortName.flatMap (fun u => beBytes 2 u.toNat) ++
  (beBytes 3 (c.reserved0 * 2 ^ 20 + c.majorChannelNumber * 2 ^ 10 + c.minorChannelNumber) ++
  (c.tuning ++
  (beBytes 2 c.programNumber.toNat ++
  (beBytes 2 (c.access * 2 ^ 13 + c.hidden.toNat * 2 ^ 12 + c.guide * 2 ^ 6 + c.serviceType) ++
  (beBytes 2 c.sourceId.toNat ++
  beBytes 2 (c.reserved3 * 2 ^ 10 + (Loops.loopBytes c.descriptors).length))))))

def bytes (c : Channel) : List UInt8 := c.record ++ Loops.loopBytes c.descriptors

def fields (c : Channel) : TvctChannel where
  shortName := c.shortName.map UInt16.toNat
  majorChannelNumber := c.majorChannelNumber
  minorChannelNumber := c.minorChannelNumber
  programNumber := c.programNumber.toNat
  hidden := c.hidden.toNat
  serviceType := c.serviceType
  descriptorsLength := (Loops.loopBytes c.descriptors).length

theorem flatMap_beBytes_length (us : List UInt16) : (us.flatMap fun u => beBytes 2 u.toNat).length = 2 * us.length := by
  induction us with
  | nil => rfl
  | cons u us ih =>
    rw [List.flatMap_cons, List.length_append, beBytes_length, ih, List.length_cons]
    omega

theorem record_length (c : Channel) : c.record.length = 32 := by
  simp only [record, List.length_append, flatMap_beBytes_length, beBytes_length, c.shortName_length, c.tuning_length]

end Channel

theorem word_units {us : List UInt16} (h : Holds buf 0 (us.flatMap fun u => beBytes 2 u.toNat)) {i : ℕ}
    (hi : i < us.length) : word (buf.advance (2 * i)) 2 = us[i].toNat := by
  induction us generalizing buf i with
  | nil => cases hi
  | cons u us ih =>
    rw [List.flatMap_cons, holds_append_iff, beBytes_length, Nat.zero_add] at h
    cases i with
    | zero =>
      rw [show buf.advance (2 * 0) = buf from rfl, word_beBytes h.1, List.getElem_cons_zero]
      exact Nat.mod_eq_of_lt u.toNat_lt
    | succ i =>
      have hrest := ih ((holds_advance_iff buf 2 0 _).mpr h.2) (Nat.lt_of_succ_lt_succ hi)
      rw [List.getElem_cons_succ, ← hrest]
      refine word_congr fun j _ => ?_
      rw [Memory.advance, Memory.advance, Memory.advance]
      congr 1

theorem getBits_beBytes (startbit bitlen : ℕ) (h : Holds buf (startbit / 8) (beBytes ((bitlen - 1) / 8 + 1) v)) :
    getBits buf startbit bitlen =
      v % 256 ^ ((bitlen - 1) / 8 + 1) / 2 ^ (8 * ((bitlen - 1) / 8 + 1) - startbit % 8 - bitlen) % 2 ^ bitlen := by
  have hword := word_beBytes ((holds_advance_iff buf (startbit / 8) 0 _).mpr h)
  rw [getBits, hword]

variable {c : Channel}

/-- **A record** is read as it is. -/
theorem readTvctChannel_record (h : Holds buf 0 c.record) : readTvctChannel buf = c.fields := by
  simp only [Channel.record, holds_append_iff, Channel.flatMap_beBytes_length, beBytes_length, c.shortName_length,
    c.tuning_length, Nat.zero_add] at h
  obtain ⟨hname, hnumbers, -, hprogram, hflags, -, hlength⟩ := h
  have hmajor := c.majorChannelNumber.isLt
  have hminor := c.minorChannelNumber.isLt
  have hhidden : c.hidden.toNat < 2 := Bool.toNat_lt c.hidden
  have hguide := c.guide.isLt
  have htype := c.serviceType.isLt
  have hfits := c.fits
  have hprog := c.programNumber.toNat_lt
  -- the words that fields lie in
  have hmajorAt := holds_init hnumbers
  have hminorAt := holds_tail hnumbers
  have hhiddenAt := holds_init hflags
  have htypeAt := holds_tail hflags
  rw [readTvctChannel, Channel.fields]
  congr 1
  · refine List.ext_getElem (by simp [c.shortName_length]) fun i hi₁ hi₂ => ?_
    rw [List.length_map] at hi₂
    have hunit := word_units hname hi₂
    have hlt := (c.shortName[i]).toNat_lt
    rw [List.getElem_map, List.getElem_range, List.getElem_map, getBits]
    rw [show 16 * i / 8 = 2 * i by omega, show 16 * i % 8 = 0 by omega, show (16 - 1) / 8 + 1 = 2 from rfl, hunit]
    omega
  · rw [getBits_beBytes 116 10 hmajorAt]
    norm_num
    omega
  · rw [getBits_beBytes 126 10 hminorAt]
    norm_num
    omega
  · rw [getBits_beBytes 192 16 hprogram]
    norm_num
  · rw [getBits_beBytes 211 1 hhiddenAt]
    norm_num
    omega
  · rw [getBits_beBytes 218 6 htypeAt]
    norm_num
    omega
  · rw [getBits_beBytes 246 10 hlength]
    norm_num
    omega

/-- The descriptors of a channel, one after another from `off` on. -/
def applyDescriptors (buf : Memory) : ℕ → List Descriptor → Service → Service
  | _, [], s => s
  | off, d :: ds, s => applyDescriptors buf (off + d.bytes.length) ds (parsePsipDescriptor (buf.advance off) s)

/-- **The descriptors** are gone over one by one. -/
theorem parsePsipDescriptors_holds {ds : List Descriptor} (h : Holds buf off (Loops.loopBytes ds)) (s : Service) :
    parsePsipDescriptors s (buf.advance off) (Loops.loopBytes ds).length = applyDescriptors buf off ds s := by
  induction ds generalizing off s with
  | nil =>
    rw [parsePsipDescriptors]
    rfl
  | cons d ds ih =>
    obtain ⟨hd, hds⟩ := (holds_append_iff buf off d.bytes (Loops.loopBytes ds)).mp h
    have hlen : d.bytes.length = 2 + d.payload.length := by
      rw [Descriptor.bytes, List.length_cons, List.length_cons]
      omega
    have hbyte : (buf.advance off 1).toNat = d.payload.length := by
      have := hd 1 (by omega)
      rw [Memory.advance, Nat.add_comm 1 off, this]
      show (UInt8.ofNat d.payload.length).toNat = d.payload.length
      rw [UInt8.toNat_ofNat', Nat.mod_eq_of_lt (Nat.lt_succ_of_le d.fits)]
    have hloop : (Loops.loopBytes (d :: ds)).length = 2 + d.payload.length + (Loops.loopBytes ds).length := by
      show (d.bytes ++ Loops.loopBytes ds).length = _
      rw [List.length_append, hlen]
    have hadvance : (buf.advance off).advance (2 + d.payload.length) = buf.advance (off + d.bytes.length) := by
      funext i
      rw [Memory.advance, Memory.advance, Memory.advance, hlen]
      congr 1
      omega
    rw [parsePsipDescriptors, if_neg (by omega), hbyte, hloop, Nat.add_sub_cancel_left, hadvance, ih hds,
      applyDescriptors]

def Channel.IsService (c : Channel) : Prop := c.serviceType = 1 ∨ c.serviceType = 2 ∨ c.serviceType = 3

instance (c : Channel) : Decidable c.IsService := inferInstanceAs (Decidable (_ ∨ _ ∨ _))

theorem knownType_iff (c : Channel) : knownType c.fields.serviceType = true ↔ c.IsService := by
  rw [knownType, decide_eq_true_iff, Channel.IsService, Fin.ext_iff, Fin.ext_iff, Fin.ext_iff]
  rfl

/-- What a channel says of its service: its name, its descriptors, its numbers and whether it is hidden. -/
def Channel.describe (c : Channel) (buf : Memory) (off : ℕ) (s : Service) : Service :=
  { applyDescriptors buf (off + 32) c.descriptors
      { s with serviceName := some (c.shortName.map fun u => UInt8.ofNat u.toNat) } with
    channelNum := c.majorChannelNumber * 2 ^ 10 + c.minorChannelNumber
    running := if c.hidden then .notRunning else .running }

theorem channelNum_eq (c : Channel) :
    c.majorChannelNumber.val <<< 10 ||| c.minorChannelNumber.val = c.majorChannelNumber * 2 ^ 10 + c.minorChannelNumber := by
  rw [← Nat.shiftLeft_add_eq_or_of_lt c.minorChannelNumber.isLt, Nat.shiftLeft_eq]

/-- **The body** of the loop does what the channel says. -/
theorem setChannel_holds (h : Holds buf off c.bytes) : setChannel c.fields (buf.advance off) = c.describe buf off := by
  have hds := ((holds_append_iff buf off c.record _).mp h).2
  rw [c.record_length] at hds
  funext s
  have hadvance : (buf.advance off).advance 32 = buf.advance (off + 32) := by
    funext i
    rw [Memory.advance, Memory.advance, Memory.advance]
    congr 1
    omega
  have hrunning : (if c.fields.hidden ≠ 0 then RunningMode.notRunning else .running) =
      if c.hidden then .notRunning else .running := by
    rw [Channel.fields]
    cases c.hidden <;> rfl
  rw [setChannel, Channel.describe, hadvance, hrunning, show c.fields.descriptorsLength = (Loops.loopBytes c.descriptors).length from rfl,
    parsePsipDescriptors_holds hds, show c.fields.majorChannelNumber = c.majorChannelNumber.val from rfl,
    show c.fields.minorChannelNumber = c.minorChannelNumber.val from rfl, channelNum_eq,
    show c.fields.shortName = c.shortName.map UInt16.toNat from rfl, List.map_map]
  rfl

/-! ### The loop -/

abbrev Placed := ℕ × Channel

/-- The channels from `off` on. -/
def placed : ℕ → List Channel → List Placed
  | _, [] => []
  | off, c :: cs => (off, c) :: placed (off + c.bytes.length) cs

def isService (x : Placed) : Bool := x.2.IsService

/-- The rounds over services, by the number that the next pseudo number is less than. -/
def touches : ℕ → List Placed → List Touch
  | _, [] => []
  | pseudoId, x :: xs =>
    if x.2.programNumber = 0 then ⟨x.1, pseudoId - 1⟩ :: touches (pseudoId - 1) xs
    else ⟨x.1, x.2.programNumber.toNat⟩ :: touches pseudoId xs

def describeAll (buf : Memory) (tp : Tp) (rounds : List (Placed × Touch)) : Tp :=
  rounds.foldl (fun tp x => tp.onService x.2.serviceId (x.1.2.describe buf x.1.1)) tp

theorem readTvctChannel_bytes (h : Holds buf off c.bytes) : readTvctChannel (buf.advance off) = c.fields :=
  readTvctChannel_record ((holds_advance_iff buf off 0 _).mpr ((holds_append_iff buf off c.record _).mp h).1)

/-- **At a channel of another type** the cursor stays, and the loop with it. -/
theorem vctLoop_stays (h : Holds buf off c.bytes) (hc : ¬c.IsService) (n pseudoId : ℕ) (tp : Tp) :
    vctLoop buf n pseudoId off tp = ([], tp) := by
  induction n with
  | zero => rfl
  | succ n ih =>
    rw [vctLoop, readTvctChannel_bytes h]
    rw [if_neg (mt (knownType_iff c).mp hc), ih]

theorem bytes_length (c : Channel) : c.bytes.length = 32 + (Loops.loopBytes c.descriptors).length := by
  rw [Channel.bytes, List.length_append, c.record_length]

theorem vctLoop_service (h : Holds buf off c.bytes) (hc : c.IsService) (n pseudoId : ℕ) (tp : Tp) :
    vctLoop buf (n + 1) pseudoId off tp =
      let pseudoId := if c.programNumber = 0 then pseudoId - 1 else pseudoId
      let programNumber := if c.programNumber = 0 then pseudoId else c.programNumber.toNat
      let r := vctLoop buf n pseudoId (off + c.bytes.length) (tp.onService programNumber (c.describe buf off))
      (⟨off, programNumber⟩ :: r.1, r.2) := by
  have hzero : c.programNumber.toNat = 0 ↔ c.programNumber = 0 := by rw [← UInt16.toNat_inj]; rfl
  rw [vctLoop, readTvctChannel_bytes h, if_pos ((knownType_iff c).mpr hc), bytes_length, setChannel_holds h]
  simp only [show c.fields.programNumber = c.programNumber.toNat from rfl,
    show c.fields.descriptorsLength = (Loops.loopBytes c.descriptors).length from rfl, hzero]

theorem vctLoop_holds {cs : List Channel} (h : Holds buf off (cs.flatMap Channel.bytes)) (pseudoId : ℕ) (tp : Tp) :
    vctLoop buf cs.length pseudoId off tp =
      (touches pseudoId ((placed off cs).takeWhile isService),
        describeAll buf tp (((placed off cs).takeWhile isService).zip
          (touches pseudoId ((placed off cs).takeWhile isService)))) := by
  induction cs generalizing off pseudoId tp with
  | nil => rfl
  | cons c cs ih =>
    obtain ⟨hc, hcs⟩ := (holds_append_iff buf off c.bytes _).mp h
    rw [placed]
    by_cases hservice : c.IsService
    · rw [List.takeWhile_cons_of_pos (by simpa [isService] using hservice), List.length_cons,
        vctLoop_service hc hservice, touches]
      dsimp only
      split_ifs with hzero
      · rw [ih hcs]
        rfl
      · rw [ih hcs]
        rfl
    · rw [List.takeWhile_cons_of_neg (by simpa [isService] using hservice), vctLoop_stays hc hservice]
      rfl

/-! ### What the parser has to do -/

def services (off : ℕ) (cs : List Channel) : List Placed := (placed off cs).filter isService

/-- Each round updates the service with its number, or creates one at the end if there is none. -/
inductive Describes (buf : Memory) : Tp → List (Placed × Touch) → Tp → Prop
  | done (tp : Tp) : Describes buf tp [] tp
  | updates {tp tp' : Tp} {x : Placed × Touch} {xs : List (Placed × Touch)} {front back : List Service} {s : Service}
      (hservices : tp.services = front ++ s :: back) (hfront : ∀ t ∈ front, t.serviceId ≠ x.2.serviceId)
      (hid : s.serviceId = x.2.serviceId)
      (hrest : Describes buf { tp with services := front ++ x.1.2.describe buf x.1.1 s :: back } xs tp') :
      Describes buf tp (x :: xs) tp'
  | creates {tp tp' : Tp} {x : Placed × Touch} {xs : List (Placed × Touch)}
      (hnone : ∀ t ∈ tp.services, t.serviceId ≠ x.2.serviceId)
      (hrest : Describes buf { tp with services := tp.services ++
        [x.1.2.describe buf x.1.1 { serviceId := x.2.serviceId, transportStreamId := tp.transportStreamId }] } xs tp') :
      Describes buf tp (x :: xs) tp'

theorem withService_updates {serviceId : ℕ} (f : Service → Service) (tp : Tp) {front back : List Service} {s : Service}
    (hfront : ∀ t ∈ front, t.serviceId ≠ serviceId) (hid : s.serviceId = serviceId) :
    withService serviceId f tp (front ++ s :: back) = front ++ f s :: back := by
  induction front with
  | nil => rw [List.nil_append, withService, if_pos hid, List.nil_append]
  | cons t front ih =>
    rw [List.cons_append, withService, if_neg (hfront t List.mem_cons_self),
      ih fun u hu => hfront u (List.mem_cons_of_mem t hu), List.cons_append]

theorem withService_creates {serviceId : ℕ} (f : Service → Service) (tp : Tp) {services : List Service}
    (hnone : ∀ t ∈ services, t.serviceId ≠ serviceId) :
    withService serviceId f tp services =
      services ++ [f { serviceId := serviceId, transportStreamId := tp.transportStreamId }] := by
  induction services with
  | nil => rfl
  | cons t services ih =>
    rw [withService, if_neg (hnone t List.mem_cons_self), ih fun u hu => hnone u (List.mem_cons_of_mem t hu),
      List.cons_append]

theorem first_service (serviceId : ℕ) (services : List Service) :
    (∀ t ∈ services, t.serviceId ≠ serviceId) ∨
      ∃ front s back, services = front ++ s :: back ∧ (∀ t ∈ front, t.serviceId ≠ serviceId) ∧ s.serviceId = serviceId := by
  induction services with
  | nil => exact .inl fun _ h => (by cases h)
  | cons t services ih =>
    by_cases ht : t.serviceId = serviceId
    · exact .inr ⟨[], t, services, rfl, fun _ h => (by cases h), ht⟩
    · obtain hnone | ⟨front, s, back, rfl, hfront, hid⟩ := ih
      · exact .inl (List.forall_mem_cons.mpr ⟨ht, hnone⟩)
      · exact .inr ⟨t :: front, s, back, rfl, List.forall_mem_cons.mpr ⟨ht, hfront⟩, hid⟩

/-- **Every round** creates or updates one service. -/
theorem describes_iff (buf : Memory) (tp tp' : Tp) (xs : List (Placed × Touch)) :
    Describes buf tp xs tp' ↔ tp' = describeAll buf tp xs := by
  constructor
  · intro h
    induction h with
    | done tp => rfl
    | updates hservices hfront hid _ ih =>
      rw [ih, describeAll, describeAll, List.foldl_cons, Tp.onService, hservices,
        withService_updates _ _ hfront hid]
    | creates hnone _ ih =>
      rw [ih, describeAll, describeAll, List.foldl_cons, Tp.onService, withService_creates _ _ hnone]
  · rintro rfl
    induction xs generalizing tp with
    | nil => exact .done tp
    | cons x xs ih =>
      rw [describeAll, List.foldl_cons, Tp.onService]
      obtain hnone | ⟨front, s, back, hservices, hfront, hid⟩ := first_service x.2.serviceId tp.services
      · rw [withService_creates _ _ hnone]
        exact .creates hnone (ih _)
      · rw [hservices, withService_updates _ _ hfront hid]
        exact .updates hservices hfront hid (ih _)

/-- One round for each service, in table order, on the service with the program number of the channel, or with a
pseudo number that is no number of another channel; and the services are described by them. -/
structure Scanned (cs : List Channel) (buf : Memory) (tp : Tp) (run : List Touch × Tp) : Prop where
  offsets : run.1.map Touch.offset = (services 2 cs).map Prod.fst
  own : ∀ x ∈ (services 2 cs).zip run.1, x.1.2.programNumber ≠ 0 → x.2.serviceId = x.1.2.programNumber.toNat
  distinct : ((services 2 cs).zip run.1).Pairwise fun x y =>
    x.1.2.programNumber = 0 ∨ y.1.2.programNumber = 0 → x.2.serviceId ≠ y.2.serviceId
  described : Describes buf tp ((services 2 cs).zip run.1) run.2

/-- A section. -/
structure Section where
  protocolVersion : UInt8
  channels : List Channel
  count : channels.length ≤ 255
  behind : Memory

namespace Section

def bytes (v : Section) : List UInt8 :=
  v.protocolVersion :: UInt8.ofNat v.channels.length :: v.channels.flatMap Channel.bytes

def memory (v : Section) : Memory := fun i => v.bytes.getD i (v.behind i)

def pseudos (v : Section) : ℕ := v.channels.countP fun c => c.IsService ∧ c.programNumber = 0

/-- Behind the first channel that is no service there is no service. -/
def InFront (v : Section) : Prop := ∀ c ∈ v.channels.dropWhile fun c => c.IsService, ¬c.IsService

/-- No service has a program number that is given as a pseudo number. -/
def Apart (v : Section) : Prop :=
  ∀ c ∈ v.channels, c.IsService → ¬(0xffff - v.pseudos ≤ c.programNumber.toNat ∧ c.programNumber.toNat < 0xffff)

theorem holds_channels (v : Section) : Holds v.memory 2 (v.channels.flatMap Channel.bytes) := by
  intro i hi
  have hlt : 2 + i < v.bytes.length := by
    rw [bytes, List.length_cons, List.length_cons]
    omega
  rw [memory, List.getD_eq_getElem _ _ hlt]
  simp only [bytes, Nat.add_comm 2 i, List.getElem_cons_succ]

theorem memory_count (v : Section) : (v.memory 1).toNat = v.channels.length := by
  show (UInt8.ofNat v.channels.length).toNat = _
  rw [UInt8.toNat_ofNat', Nat.mod_eq_of_lt (Nat.lt_succ_of_le v.count)]

end Section

/-! ### Pseudo numbers -/

theorem touches_offset (pseudoId : ℕ) (xs : List Placed) : (touches pseudoId xs).map Touch.offset = xs.map Prod.fst := by
  induction xs generalizing pseudoId with
  | nil => rfl
  | cons x xs ih =>
    rw [touches]
    split_ifs
    · rw [List.map_cons, List.map_cons, ih]
    · rw [List.map_cons, List.map_cons, ih]

def zeros (xs : List Placed) : ℕ := xs.countP fun x => x.2.programNumber = 0

def rounds (pseudoId : ℕ) (xs : List Placed) : List (Placed × Touch) := xs.zip (touches pseudoId xs)

variable {x : Placed} {xs : List Placed}

theorem rounds_zero (h : x.2.programNumber = 0) (pseudoId : ℕ) (xs : List Placed) :
    rounds pseudoId (x :: xs) = (x, ⟨x.1, pseudoId - 1⟩) :: rounds (pseudoId - 1) xs := by
  rw [rounds, touches, if_pos h]
  rfl

theorem rounds_ne (h : x.2.programNumber ≠ 0) (pseudoId : ℕ) (xs : List Placed) :
    rounds pseudoId (x :: xs) = (x, ⟨x.1, x.2.programNumber.toNat⟩) :: rounds pseudoId xs := by
  rw [rounds, touches, if_neg h]
  rfl

theorem zeros_zero (h : x.2.programNumber = 0) (xs : List Placed) : zeros (x :: xs) = zeros xs + 1 :=
  List.countP_cons_of_pos (by simpa using h)

theorem zeros_ne (h : x.2.programNumber ≠ 0) (xs : List Placed) : zeros (x :: xs) = zeros xs :=
  List.countP_cons_of_neg (by simpa using h)

theorem rounds_own (pseudoId : ℕ) (xs : List Placed) :
    ∀ y ∈ rounds pseudoId xs, y.1.2.programNumber ≠ 0 → y.2.serviceId = y.1.2.programNumber.toNat := by
  induction xs generalizing pseudoId with
  | nil => exact fun y hy => (by cases hy)
  | cons x xs ih =>
    by_cases hx : x.2.programNumber = 0
    · rw [rounds_zero hx]
      exact List.forall_mem_cons.mpr ⟨fun h => absurd hx h, ih _⟩
    · rw [rounds_ne hx]
      exact List.forall_mem_cons.mpr ⟨fun _ => rfl, ih _⟩

theorem pseudo_iff (h : zeros xs < pseudoId) (k : ℕ) :
    (∃ y ∈ rounds pseudoId xs, y.1.2.programNumber = 0 ∧ y.2.serviceId = k) ↔
      pseudoId - zeros xs ≤ k ∧ k < pseudoId := by
  induction xs generalizing pseudoId with
  | nil =>
    refine iff_of_false ?_ (by simp [zeros])
    rintro ⟨y, hy, -⟩
    cases hy
  | cons x xs ih =>
    by_cases hx : x.2.programNumber = 0
    · rw [zeros_zero hx] at h ⊢
      rw [rounds_zero hx, List.exists_mem_cons_iff, ih (by omega)]
      dsimp only
      constructor
      · rintro (⟨-, rfl⟩ | hk) <;> omega
      · intro hk
        by_cases heq : pseudoId - 1 = k
        · exact .inl ⟨hx, heq⟩
        · exact .inr (by omega)
    · rw [zeros_ne hx] at h ⊢
      rw [rounds_ne hx, List.exists_mem_cons_iff, ih h]
      exact or_iff_right fun hy => hx hy.1

theorem forall_rounds_iff (pseudoId : ℕ) (xs : List Placed) (p : Placed → Prop) :
    (∀ y ∈ rounds pseudoId xs, p y.1) ↔ ∀ x ∈ xs, p x := by
  induction xs generalizing pseudoId with
  | nil => exact iff_of_true (fun _ h => (by cases h)) fun _ h => (by cases h)
  | cons x xs ih =>
    by_cases hx : x.2.programNumber = 0
    · rw [rounds_zero hx, List.forall_mem_cons, List.forall_mem_cons, ih]
    · rw [rounds_ne hx, List.forall_mem_cons, List.forall_mem_cons, ih]

/-- Two rounds one of which has a pseudo number are on two services. -/
def Apart (x y : Placed × Touch) : Prop :=
  x.1.2.programNumber = 0 ∨ y.1.2.programNumber = 0 → x.2.serviceId ≠ y.2.serviceId

theorem toNat_eq_zero {n : UInt16} : n.toNat = 0 ↔ n = 0 := by
  rw [← UInt16.toNat_inj]
  rfl

theorem apart_zero_iff (hx : x.2.programNumber = 0) (h : zeros xs + 1 < pseudoId) :
    (∀ y ∈ rounds (pseudoId - 1) xs, Apart (x, ⟨x.1, pseudoId - 1⟩) y) ↔
      ∀ y ∈ xs, y.2.programNumber.toNat ≠ pseudoId - 1 := by
  rw [← forall_rounds_iff (pseudoId - 1) xs]
  refine forall_congr' fun y => imp_congr_right fun hy => ?_
  rw [Apart, imp_iff_right (.inl hx)]
  by_cases hzero : y.1.2.programNumber = 0
  · have hless := (pseudo_iff (by omega) y.2.serviceId).mp ⟨y, hy, hzero, rfl⟩
    have hnat := toNat_eq_zero.mpr hzero
    exact iff_of_true (show pseudoId - 1 ≠ y.2.serviceId by omega) (by omega)
  · rw [rounds_own _ _ y hy hzero]
    exact ne_comm

theorem apart_ne_iff (hx : x.2.programNumber ≠ 0) (h : zeros xs < pseudoId) :
    (∀ y ∈ rounds pseudoId xs, Apart (x, ⟨x.1, x.2.programNumber.toNat⟩) y) ↔
      ¬(pseudoId - zeros xs ≤ x.2.programNumber.toNat ∧ x.2.programNumber.toNat < pseudoId) := by
  rw [← pseudo_iff h]
  constructor
  · rintro hall ⟨y, hy, hzero, heq⟩
    exact hall y hy (.inr hzero) heq.symm
  · intro hnone y hy hpseudo heq
    exact hnone ⟨y, hy, hpseudo.resolve_left hx, heq.symm⟩

/-- **The pseudo numbers** are no numbers of other channels exactly if no program number lies among them. -/
theorem pairwise_apart_iff (h : zeros xs < pseudoId) :
    (rounds pseudoId xs).Pairwise Apart ↔
      ∀ x ∈ xs, ¬(pseudoId - zeros xs ≤ x.2.programNumber.toNat ∧ x.2.programNumber.toNat < pseudoId) := by
  induction xs generalizing pseudoId with
  | nil => exact iff_of_true .nil fun _ h => (by cases h)
  | cons x xs ih =>
    by_cases hx : x.2.programNumber = 0
    · have hnat := toNat_eq_zero.mpr hx
      rw [zeros_zero hx] at h ⊢
      rw [rounds_zero hx, List.pairwise_cons, apart_zero_iff hx h, ih (by omega), List.forall_mem_cons, ← forall₂_and]
      rw [and_iff_right (show ¬(pseudoId - (zeros xs + 1) ≤ x.2.programNumber.toNat ∧ _) by omega)]
      refine forall_congr' fun y => imp_congr_right fun _ => ?_
      omega
    · rw [zeros_ne hx] at h ⊢
      rw [rounds_ne hx, List.pairwise_cons, apart_ne_iff hx h, ih h, List.forall_mem_cons]

/-! ### The section -/

theorem map_snd_placed (off : ℕ) (cs : List Channel) : (placed off cs).map Prod.snd = cs := by
  induction cs generalizing off with
  | nil => rfl
  | cons c cs ih => rw [placed, List.map_cons, ih]

theorem map_snd_services (off : ℕ) (cs : List Channel) :
    (services off cs).map Prod.snd = cs.filter fun c => c.IsService := by
  conv_rhs => rw [← map_snd_placed off cs, List.filter_map]
  rfl

theorem map_snd_dropWhile (off : ℕ) (cs : List Channel) :
    ((placed off cs).dropWhile isService).map Prod.snd = cs.dropWhile fun c => c.IsService := by
  conv_rhs => rw [← map_snd_placed off cs, List.dropWhile_map]
  rfl

theorem zeros_services (off : ℕ) (cs : List Channel) :
    zeros (services off cs) = cs.countP fun c => c.IsService ∧ c.programNumber = 0 := by
  have h : zeros (services off cs) = ((services off cs).map Prod.snd).countP fun c => c.programNumber = 0 := by
    rw [List.countP_map]
    rfl
  rw [h, map_snd_services, List.countP_filter]
  refine List.countP_congr fun c _ => ?_
  simp [and_comm]

theorem services_eq_append (off : ℕ) (cs : List Channel) :
    services off cs = (placed off cs).takeWhile isService ++ ((placed off cs).dropWhile isService).filter isService := by
  conv_lhs => rw [services, ← List.takeWhile_append_dropWhile (p := isService) (l := placed off cs), List.filter_append]
  rw [List.filter_eq_self.mpr fun x hx => List.mem_takeWhile_imp hx]

theorem parsePsipVct_eq (v : Section) (tp : Tp) :
    parsePsipVct v.memory tp =
      (touches 0xffff ((placed 2 v.channels).takeWhile isService),
        describeAll v.memory tp (rounds 0xffff ((placed 2 v.channels).takeWhile isService))) := by
  rw [parsePsipVct, v.memory_count, vctLoop_holds v.holds_channels]
  rfl

theorem inFront_iff (v : Section) :
    v.InFront ↔ ((placed 2 v.channels).dropWhile isService).filter isService = [] := by
  rw [Section.InFront, ← map_snd_dropWhile 2, List.forall_mem_map, List.filter_eq_nil_iff]
  refine forall_congr' fun x => imp_congr_right fun _ => ?_
  rw [isService, decide_eq_true_iff]

theorem apart_iff (v : Section) :
    v.Apart ↔ ∀ x ∈ services 2 v.channels,
      ¬(0xffff - zeros (services 2 v.channels) ≤ x.2.programNumber.toNat ∧ x.2.programNumber.toNat < 0xffff) := by
  have hmem : (∀ x ∈ services 2 v.channels, ¬(0xffff - zeros (services 2 v.channels) ≤ x.2.programNumber.toNat ∧
      x.2.programNumber.toNat < 0xffff)) ↔ ∀ c ∈ (services 2 v.channels).map Prod.snd,
        ¬(0xffff - zeros (services 2 v.channels) ≤ c.programNumber.toNat ∧ c.programNumber.toNat < 0xffff) := by
    rw [List.forall_mem_map]
  rw [hmem, map_snd_services, Section.Apart, Section.pseudos, zeros_services]
  simp only [List.mem_filter, decide_eq_true_eq, and_imp]

theorem zeros_lt (v : Section) : zeros (services 2 v.channels) < 0xffff := by
  have hcount := List.countP_le_length (p := fun c : Channel => decide (c.IsService ∧ c.programNumber = 0)) (l := v.channels)
  have hlen := v.count
  rw [zeros_services]
  omega

/-- **VCT sections**: each service of the list is described once, in table order, under its own number or a pseudo
number of its own, exactly if none stands behind a channel of another type, and no program number of a service is
given as a pseudo number. -/
theorem parsePsipVct_iff (v : Section) (tp : Tp) :
    Scanned v.channels v.memory tp (parsePsipVct v.memory tp) ↔ v.InFront ∧ v.Apart := by
  rw [parsePsipVct_eq, inFront_iff, apart_iff]
  have hservices := services_eq_append 2 v.channels
  constructor
  · intro h
    have hoffsets := h.offsets
    rw [touches_offset] at hoffsets
    have hlen := congrArg List.length hoffsets
    rw [List.length_map, List.length_map, hservices, List.length_append] at hlen
    have hnil : ((placed 2 v.channels).dropWhile isService).filter isService = [] :=
      List.eq_nil_of_length_eq_zero (by omega)
    rw [hnil, List.append_nil] at hservices
    refine ⟨hnil, (pairwise_apart_iff (zeros_lt v)).mp ?_⟩
    have hdistinct := h.distinct
    rw [← hservices] at hdistinct
    exact hdistinct
  · rintro ⟨hnil, hapart⟩
    rw [hnil, List.append_nil] at hservices
    rw [← hservices]
    exact ⟨touches_offset _ _, rounds_own _ _, (pairwise_apart_iff (zeros_lt v)).mpr hapart,
      (describes_iff _ _ _ _).mpr rfl⟩

def plainChannel (programNumber : UInt16) (serviceType : Fin 64) : Channel where
  shortName := List.replicate 7 65
  shortName_length := List.length_replicate ..
  reserved0 := 15
  majorChannelNumber := 5
  minorChannelNumber := 1
  tuning := List.replicate 7 0
  tuning_length := List.length_replicate ..
  programNumber := programNumber
  access := ⟨0, Nat.zero_lt_succ _⟩
  hidden := false
  guide := 0
  serviceType := serviceType
  sourceId := 1
  reserved3 := 63
  descriptors := []
  fits := Nat.zero_lt_succ 1023

/-- A data channel, and an ATSC TV channel behind it, which is not scanned. -/
theorem not_scanned_behind_data : ¬∀ (v : Section) (tp : Tp), Scanned v.channels v.memory tp (parsePsipVct v.memory tp) := by
  intro h
  have hlist := h ⟨0, [plainChannel 2 4, plainChannel 3 2], Nat.le_add_left 2 253, fun _ => 0⟩ ⟨0, []⟩
  have hoffsets := hlist.offsets
  rw [parsePsipVct_eq, touches_offset] at hoffsets
  revert hoffsets
  decide

end BgtDvb.Dvbscan.Vct
