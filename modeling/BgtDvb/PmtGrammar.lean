import BgtDvb.SectionWalk

/-!
# The grammar of program map sections

`mpeg_pmt_section_codec` and the iterators of `libucsi/mpeg/pmt_section.h`, on a section where it lies in memory.

* `mpegPmtSectionCodec_ok_iff` — **PROVED**: the codec accepts exactly these sections;
* `mpegPmtSection_grammar` — **PROVED**: and the iterators go over these parts.
-/

namespace BgtDvb.Ucsi.Table.Pmt

open BgtDvb.Walks
open BgtDvb.Words

/-! ### The codec -/

/-- `pcr_pid` and `program_info_length`, behind `struct section_ext`. -/
def infoHeader : Header := ⟨4, [(0, 2), (2, 2)], (2, 2), 12⟩

/-- `struct mpeg_pmt_stream` -/
def streamHeader : Header := ⟨5, [(1, 2), (3, 2)], (3, 2), 12⟩

theorem infoHeader_wf : infoHeader.Wf := ⟨by decide, by decide, by decide⟩

theorem streamHeader_wf : streamHeader.Wf := ⟨by decide, by decide, by decide⟩

/-- `mpeg_pmt_section_codec` -/
def mpegPmtSectionCodec (order : ByteOrder) : Walk Unit := do
  let len ← sectionExtLength order
  let pos ← block order infoHeader len 8
  let pos ← whileBelow len (block order streamHeader len) len pos
  require (pos = len)

/-! ### The iterators -/

section Iterators

variable (order : ByteOrder) (buf : List UInt8)

def pcrPid : ℕ := host order buf 8 2 % 2 ^ 13

def programInfoLength : ℕ := host order buf 10 2 % 2 ^ 12

def streamType (stream : ℕ) : ℕ := be buf stream 1

def pid (stream : ℕ) : ℕ := host order buf (stream + 1) 2 % 2 ^ 13

def esInfoLength (stream : ℕ) : ℕ := host order buf (stream + 3) 2 % 2 ^ 12

/-- `mpeg_pmt_section_descriptors_first` -/
def sectionDescriptorsFirst : Option ℕ := descriptorsFirst 12 (programInfoLength order buf)

/-- `mpeg_pmt_section_descriptors_next` -/
def sectionDescriptorsNext (pos : ℕ) : Option ℕ := nextDescriptor buf 12 (programInfoLength order buf) pos

/-- `mpeg_pmt_section_streams_first` -/
def streamsFirst : Option ℕ :=
  let pos := 12 + programInfoLength order buf
  if extLength order buf ≤ pos then none else some pos

/-- `mpeg_pmt_section_streams_next` -/
def streamsNext (pos : ℕ) : Option ℕ :=
  let next := pos + 5 + esInfoLength order buf pos
  if extLength order buf ≤ next then none else some next

/-- `mpeg_pmt_stream_descriptors_first` -/
def streamDescriptorsFirst (stream : ℕ) : Option ℕ := descriptorsFirst (stream + 5) (esInfoLength order buf stream)

/-- `mpeg_pmt_stream_descriptors_next` -/
def streamDescriptorsNext (stream pos : ℕ) : Option ℕ :=
  nextDescriptor buf (stream + 5) (esInfoLength order buf stream) pos

end Iterators

/-! ### The grammar -/

/-- The parts of a program map, by their positions. -/
structure Parts where
  info : Block
  streams : List Block

/-- Where the parts stand between the header of a section and its CRC. -/
def PmtAt (buf : List UInt8) (stop : ℕ) (p : Parts) : Prop :=
  ∃ mid, BlockAt infoHeader buf 8 mid p.info ∧ Tiles (BlockAt streamHeader buf) mid stop p.streams

def swappedParts (order : ByteOrder) (p : Parts) (buf : List UInt8) : List UInt8 :=
  effects (fun x => swapped order (x.fields streamHeader)) p.streams
    (swapped order (p.info.fields infoHeader) buf)

variable {order : ByteOrder}

theorem mpegPmtSectionCodec_ok_iff {buf : List UInt8} (h : Whole order buf) {r : Unit × List UInt8} :
    (mpegPmtSectionCodec order).run buf = .ok r ↔
      ∃ p, PmtAt buf (buf.length - 4) p ∧ r.2 = swappedParts order p buf := by
  rw [mpegPmtSectionCodec, run_bind_ok h.sectionExtLength_run, bind_ok_iff]
  have hstop : buf.length - 4 ≤ buf.length := Nat.sub_le _ _
  constructor
  · rintro ⟨mid, buf₁, hinfo, hrest⟩
    obtain ⟨hmid, info, hinfoAt, hbuf₁⟩ := (block_ok_iff infoHeader_wf hstop).mp hinfo
    obtain ⟨pos, buf₂, hloop, hrequire⟩ := bind_ok_iff.mp hrest
    obtain ⟨rfl, rfl⟩ := require_ok_iff.mp hrequire
    obtain ⟨hlen, -, hdrop⟩ := (takes_block order infoHeader_wf hstop).keeps rfl hmid hinfoAt
    dsimp only at hmid hbuf₁ hinfoAt
    rw [← hbuf₁] at hlen hdrop
    obtain ⟨streams, hstreams, hbuf₂⟩ := ((takes_block order streamHeader_wf hstop).whileBelow_iff _ hmid (Nat.sub_le _ _)
      hlen).mp hloop
    exact ⟨⟨info, streams⟩, ⟨mid, hinfoAt, (takes_block order streamHeader_wf hstop).tiles_ahead hdrop hstreams⟩,
      hbuf₂.trans (by rw [hbuf₁]; rfl)⟩
  · rintro ⟨⟨info, streams⟩, ⟨mid, hinfoAt, hstreams⟩, hr⟩
    have hmid : mid ≤ buf.length - 4 := (takes_block order streamHeader_wf hstop).tiles_le hstreams
    obtain ⟨hlen, -, hdrop⟩ := (takes_block order infoHeader_wf hstop).keeps rfl hmid hinfoAt
    refine ⟨mid, swapped order (info.fields infoHeader) buf, (block_ok_iff infoHeader_wf hstop).mpr ⟨hmid, info, hinfoAt, rfl⟩, ?_⟩
    have hloop := ((takes_block order streamHeader_wf hstop).whileBelow_iff (buf.length - 4) hmid (Nat.sub_le _ _) hlen).mpr
      ⟨streams, (takes_block order streamHeader_wf hstop).tiles_ahead hdrop.symm hstreams, rfl⟩
    rw [run_bind_ok hloop]
    exact require_ok_iff.mpr ⟨rfl, Prod.ext rfl hr⟩

/-! ### What the iterators go over -/

/-- A stream that an iterator comes to. -/
structure StreamIterated (order : ByteOrder) (sent buf : List UInt8) (stop : ℕ) (s : Block) : Prop where
  inside : s.pos + 5 + esInfoLength order buf s.pos ≤ stop
  streamType_eq : streamType buf s.pos = be sent s.pos 1
  pid_eq : pid order buf s.pos = be sent (s.pos + 1) 2 % 2 ^ 13
  esInfoLength_eq : esInfoLength order buf s.pos = be sent (s.pos + 3) 2 % 2 ^ 12
  descriptors : Iterated sent buf (s.pos + 5) (esInfoLength order buf s.pos) (streamDescriptorsFirst order buf s.pos)
    (streamDescriptorsNext order buf s.pos) s.descriptors

/-- The parts of a program map as the iterators come to them in the section that the codec leaves. -/
structure PartsIterated (order : ByteOrder) (sent buf : List UInt8) (stop : ℕ) (p : Parts) : Prop where
  pcrPid_eq : pcrPid order buf = be sent 8 2 % 2 ^ 13
  programInfoLength_eq : programInfoLength order buf = be sent 10 2 % 2 ^ 12
  inside : 12 + programInfoLength order buf ≤ stop
  descriptors : Iterated sent buf 12 (programInfoLength order buf) (sectionDescriptorsFirst order buf)
    (sectionDescriptorsNext order buf) p.info.descriptors
  streams : ForEach (fun pos _ => streamsNext order buf pos) 0 (streamsFirst order buf) (p.streams.map Block.pos)
  each : ∀ s ∈ p.streams, StreamIterated order sent buf stop s

theorem streamIterated_of_blockDone {sent buf : List UInt8} {a b stop : ℕ} (hb : b ≤ stop) {s : Block}
    (hs : BlockDone order streamHeader sent buf a b s) : StreamIterated order sent buf stop s := by
  have hend : b = s.pos + 5 + esInfoLength order buf s.pos := by
    rw [hs.pos_eq]
    exact hs.stop_eq
  have hpid := hs.fields (1, 2) (by decide)
  have hlength := hs.fields (3, 2) (by decide)
  have htype := hs.others 0 1 (by decide) (by decide)
  have hiterated := iterated_of_blockDone hs
  rw [← hs.pos_eq] at hpid hlength htype hiterated
  exact ⟨hend ▸ hb, congrArg beNat htype, congrArg (· % 2 ^ 13) hpid, congrArg (· % 2 ^ 12) hlength, hiterated⟩

theorem partsIterated {buf : List UInt8} (h : Whole order buf) {p : Parts} (hp : PmtAt buf (buf.length - 4) p) :
    PartsIterated order buf (swappedParts order p buf) (buf.length - 4) p := by
  obtain ⟨info, streams⟩ := p
  obtain ⟨mid, hinfo, hstreams⟩ := hp
  dsimp only at hinfo hstreams
  have hstop : buf.length - 4 ≤ buf.length := Nat.sub_le _ _
  have hmid : mid ≤ buf.length - 4 := (takes_block order streamHeader_wf hstop).tiles_le hstreams
  obtain ⟨hlen, htake, hdrop⟩ := (takes_block order infoHeader_wf hstop).keeps rfl hmid hinfo
  have hrest := (takes_block order streamHeader_wf hstop).tiles_ahead hdrop.symm hstreams
  obtain ⟨-, hfront, -⟩ := (takes_block order streamHeader_wf hstop).effects_keeps hlen le_rfl hrest
  set buf' := swappedParts order ⟨info, streams⟩ buf with hbuf'
  have hinfoDone : BlockDone order infoHeader buf buf' 8 mid info :=
    blockDone_sameOn infoHeader_wf (sameOn_of_take hfront.symm)
      (blockDone_of_blockAt infoHeader_wf (hmid.trans hstop) rfl hinfo)
  have hdone : Tiles (BlockDone order streamHeader buf buf') mid (buf.length - 4) streams :=
    blocksDone streamHeader_wf hstop hlen le_rfl hdrop hrest
  have hext : extLength order buf' = buf.length - 4 := by
    have hhead : 8 ≤ mid := by
      have hend := hinfo.stop_eq
      omega
    have hsection : buf'.take 8 = buf.take 8 := (take_eq_of_le hfront hhead).trans htake
    rw [extLength_eq_of_take hsection, extLength_eq h.length_eq h.length_pos]
  have hmidEq : mid = 12 + programInfoLength order buf' := hinfoDone.stop_eq
  refine ⟨congrArg (· % 2 ^ 13) (hinfoDone.fields (0, 2) (by decide)),
    congrArg (· % 2 ^ 12) (hinfoDone.fields (2, 2) (by decide)), hmidEq ▸ hmid, iterated_of_blockDone hinfoDone, ?_, ?_⟩
  · have hfor := (hdone.forEach_below Block.pos (fun pos _ => streamsNext order buf' pos)
      (fun {i j s} hs => ⟨hs.pos_eq, by
        have hend := hs.stop_eq
        have hsize : 0 < streamHeader.size := by decide
        omega⟩)
      (fun {i j s} idx hs => by
        rw [streamsNext, hext, ← show j = i + 5 + esInfoLength order buf' i from hs.stop_eq]) 0).2
    have hfirst : streamsFirst order buf' = if buf.length - 4 ≤ mid then none else some mid := by
      rw [streamsFirst, hext, hmidEq]
    rw [hfirst]
    exact hfor
  · intro s hs
    obtain ⟨i, j, -, hj, hdoneAt⟩ := hdone.of_mem (fun {i j x} hx => by
      have hend := hx.stop_eq
      omega) hs
    exact streamIterated_of_blockDone hj hdoneAt

theorem safe_mpegPmtSectionCodec {buf : List UInt8} (h : Whole order buf) :
    Ends buf.length (fun _ => True) ((mpegPmtSectionCodec order).run buf) := by
  rw [mpegPmtSectionCodec, run_bind_ok h.sectionExtLength_run]
  have hstop : buf.length - 4 ≤ buf.length := Nat.sub_le _ _
  refine ((infoHeader_wf.safe_block order hstop).bind fun pos hpos => ?_) buf rfl
  refine (safe_whileBelow (I := fun _ => True) (fun p _ _ => ?_) _ trivial (Nat.sub_le _ _)).bind fun _ _ => ?_
  · exact (streamHeader_wf.safe_block order hstop).mono fun _ hp => ⟨hp.1, trivial⟩
  · exact (safe_require _).mono fun _ _ => trivial

/-- **The grammar of program maps.**  In a section of length at least 9 the codec accepts exactly the bytes that a
program map tiles up to the CRC; and the iterators come to its descriptors and streams, in their order, inside the
section, with the values that were sent. -/
theorem mpegPmtSection_grammar (order : ByteOrder) {buf : List UInt8} (hlength : buf.length = lengthField order buf + 3)
    (hnine : 9 ≤ lengthField order buf) :
    ((∃ buf', (mpegPmtSectionCodec order).run buf = .ok ((), buf')) ↔ ∃ p, PmtAt buf (buf.length - 4) p)
      ∧ ((mpegPmtSectionCodec order).run buf = .error .refused ↔ ¬ ∃ p, PmtAt buf (buf.length - 4) p)
      ∧ ∀ buf', (mpegPmtSectionCodec order).run buf = .ok ((), buf') →
        ∃ p, PmtAt buf (buf.length - 4) p ∧ PartsIterated order buf buf' (buf.length - 4) p := by
  have h : Whole order buf := ⟨hlength, le_trans (by decide) hnine⟩
  have haccepted : (∃ buf', (mpegPmtSectionCodec order).run buf = .ok ((), buf')) ↔
      ∃ p, PmtAt buf (buf.length - 4) p := by
    constructor
    · rintro ⟨buf', hrun⟩
      obtain ⟨p, hp, -⟩ := (mpegPmtSectionCodec_ok_iff h).mp hrun
      exact ⟨p, hp⟩
    · rintro ⟨p, hp⟩
      exact ⟨swappedParts order p buf, (mpegPmtSectionCodec_ok_iff h).mpr ⟨p, hp, rfl⟩⟩
  refine ⟨haccepted, ?_, fun buf' hrun => ?_⟩
  · rw [← haccepted]
    have hends := safe_mpegPmtSectionCodec h
    cases hrun : (mpegPmtSectionCodec order).run buf with
    | error s =>
      rw [hrun] at hends
      exact ⟨fun _ ⟨buf', hok⟩ => (by cases hok), fun _ => congrArg Except.error hends⟩
    | ok r => exact ⟨fun hrefused => (by cases hrefused), fun hnot => absurd ⟨r.2, rfl⟩ hnot⟩
  · obtain ⟨p, hp, hbuf'⟩ := (mpegPmtSectionCodec_ok_iff h).mp hrun
    have hswapped : buf' = swappedParts order p buf := hbuf'
    subst hswapped
    exact ⟨p, hp, partsIterated h hp⟩

/-- A program map with one stream, as `section_ext_decode` leaves it on a little-endian host. -/
def oneStream : List UInt8 :=
  [0x02, 0x14, 0xb0, 0x01, 0x00, 0xc1, 0x00, 0x00, 0xe1, 0x00, 0xf0, 0x00, 0x1b, 0xe1, 0x01, 0xf0, 0x02, 0x52, 0x00,
    0xaa, 0xbb, 0xcc, 0xdd]

def oneStreamSwapped : List UInt8 :=
  [0x02, 0x14, 0xb0, 0x01, 0x00, 0xc1, 0x00, 0x00, 0x00, 0xe1, 0x00, 0xf0, 0x1b, 0x01, 0xe1, 0x02, 0xf0, 0x52, 0x00,
    0xaa, 0xbb, 0xcc, 0xdd]

theorem mpegPmtSection_grammar_oneStream :
    ∃ p, PmtAt oneStream 19 p ∧ PartsIterated .little oneStream oneStreamSwapped 19 p :=
  (mpegPmtSection_grammar .little (by decide) (by decide)).2.2 oneStreamSwapped (by decide +kernel)

end BgtDvb.Ucsi.Table.Pmt
