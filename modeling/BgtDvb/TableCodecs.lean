import BgtDvb.AtscDcct
import BgtDvb.PmtGrammar

/-!
# The table codecs of libucsi

`section_codec` and `section_ext_decode` of `libucsi/section.h` and the codecs of the MPEG, DVB and ATSC tables, on a
section where it lies in memory.

Lengths are `size_t`, and differences of them wrap around.
-/

namespace BgtDvb.Ucsi.Table

open BgtDvb.Walks
open BgtDvb.Words

/-- A difference of two `size_t`. -/
def sizeSub (a b : ℕ) : ℕ := (a + (2 ^ 64 - b)) % 2 ^ 64

/-! ### The header of a section -/

/-- `section_codec`; `none` is the `NULL` result. -/
def sectionCodec (order : ByteOrder) (buf : List UInt8) : Option (List UInt8) :=
  if buf.length < 3 then none
  else
    let buf := bswap16 order 1 buf
    if buf.length ≠ lengthField order buf + 3 then none else some buf

section

variable (order : ByteOrder)

/-- `section_length` -/
def sectionLength : Walk ℕ := do
  let w ← word order 1 2
  pure (w % 2 ^ 12 + 3)

/-- `section_check_crc` -/
def sectionCheckCrc : Walk Unit := do
  let len ← sectionLength order
  bswap order 1 2
  let bytes ← read 0 len
  bswap order 1 2
  require (crc32 crc32Init bytes = 0)

/-- `section_ext_decode` -/
def sectionExtDecode (checkCrc : Bool) : Walk Unit := do
  let w ← word order 1 2
  require (w / 2 ^ 15 ≠ 0)
  (if checkCrc then sectionCheckCrc order else pure ())
  bswap order 3 2

end

/-! ### Texts -/

def textSegment (start len pos : ℕ) : Walk ℕ := do
  require (pos + 3 ≤ len)
  let numberBytes ← read (start + pos + 2) 1
  require (pos + 3 + beNat numberBytes ≤ len)
  pure (pos + 3 + beNat numberBytes)

def textString (start len pos : ℕ) : Walk ℕ := do
  require (pos + 4 ≤ len)
  let numberSegments ← read (start + pos + 3) 1
  times (textSegment start len) (beNat numberSegments) (pos + 4)

/-- `atsc_text_validate`; the caller gives the section up if it fails. -/
def atscTextValidate (start len : ℕ) : Walk Unit :=
  if len = 0 then pure ()
  else do
    let numberStrings ← read start 1
    let _ ← times (textString start len) (beNat numberStrings) 1
    pure ()

def text (len pos textLength : ℕ) : Walk ℕ := do
  require (pos + textLength ≤ len)
  atscTextValidate pos textLength
  pure (pos + textLength)

def countedText (len pos : ℕ) : Walk ℕ := do
  require (pos + 1 ≤ len)
  let textLength ← read pos 1
  text len (pos + 1) (beNat textLength)

def plain (order : ByteOrder) (fields : List (ℕ × ℕ)) (size len pos : ℕ) : Walk ℕ := do
  require (pos + size ≤ len)
  bswapAll order pos fields
  pure (pos + size)

section

variable (order : ByteOrder)

/-! ### MPEG tables -/

def descriptorSectionCodec : Walk Unit := do
  let len ← sectionExtLength order
  verifyDescriptors 8 (sizeSub len 8)

def mpegCatSectionCodec : Walk Unit := descriptorSectionCodec order

def mpegTsdtSectionCodec : Walk Unit := descriptorSectionCodec order

/-- `struct mpeg_odsmt_stream_multi`, whose last byte is the length. -/
def odsmtHeader : Header := ⟨4, [(0, 2)], (3, 1), 8⟩

/-- The streams; `struct mpeg_odsmt_stream_single` if there are none. -/
def odsmtStreams (len streamCount : ℕ) : Walk ℕ :=
  if streamCount = 0 then do
    require (9 + 3 ≤ len)
    bswap order 9 2
    let esInfoLength ← read (9 + 2) 1
    require (9 + 3 + beNat esInfoLength < len)
    verifyDescriptors (9 + 3) (beNat esInfoLength)
    pure (9 + 3 + beNat esInfoLength)
  else times (block order odsmtHeader len) streamCount 9

/-- `mpeg_odsmt_section_codec` -/
def mpegOdsmtSectionCodec : Walk Unit := do
  let len ← sectionExtLength order
  require (9 ≤ len)
  let streamCount ← read 8 1
  let pos ← odsmtStreams order len (beNat streamCount)
  require (pos = len)

/-- `mpeg_pat_section_codec` -/
def mpegPatSectionCodec : Walk Unit := do
  let len ← sectionExtLength order
  require (8 ≤ len)
  let pos ← whileBelow len (plain order [(0, 2), (2, 2)] 4 len) len 8
  require (pos = len)

/-! ### DVB tables -/

/-- A length of 12 bits, of the descriptors behind it. -/
def lengthHeader : Header := ⟨2, [(0, 2)], (0, 2), 12⟩

theorem lengthHeader_wf : lengthHeader.Wf := ⟨by decide, by decide, by decide⟩

/-- `struct dvb_bat_transport` and `struct dvb_nit_transport` -/
def transportHeader : Header := ⟨6, [(0, 2), (2, 2), (4, 2)], (4, 2), 12⟩

theorem transportHeader_wf : transportHeader.Wf := ⟨by decide, by decide, by decide⟩

def transportSectionCodec : Walk Unit := do
  let len ← sectionExtLength order
  let pos ← block order lengthHeader len 8
  let pos ← plain order [(0, 2)] 2 len pos
  let pos ← whileBelow len (block order transportHeader len) len pos
  require (pos = len)

def dvbBatSectionCodec : Walk Unit := transportSectionCodec order

def dvbNitSectionCodec : Walk Unit := transportSectionCodec order

/-- `struct dvb_eit_event` -/
def eventHeader : Header := ⟨12, [(0, 2), (10, 2)], (10, 2), 12⟩

/-- `dvb_eit_section_codec` -/
def dvbEitSectionCodec : Walk Unit := do
  let len ← sectionExtLength order
  let pos ← plain order [(0, 2), (2, 2)] 6 len 8
  let pos ← whileBelow len (block order eventHeader len) len pos
  require (pos = len)

/-- A length and its descriptors; there is no check that the length itself has room. -/
def intLoop (len pos : ℕ) : Walk ℕ := do
  bswap order pos 2
  let w ← word order pos 2
  require (w % 2 ^ 12 ≤ sizeSub len pos)
  verifyDescriptors (pos + 2) (w % 2 ^ 12)
  pure (pos + 2 + w % 2 ^ 12)

/-- One round of the loop of `dvb_int_section_codec`: a target and the operational loop behind it. -/
def intTarget (len pos : ℕ) : Walk ℕ := do
  let pos ← intLoop order len pos
  intLoop order len pos

/-- `struct dvb_int_section`, behind `struct section_ext`. -/
def intHeader : Header := ⟨6, [(0, 4), (4, 2)], (4, 2), 12⟩

/-- `dvb_int_section_codec`; what the loop comes to is not compared with the length. -/
def dvbIntSectionCodec : Walk Unit := do
  let len ← sectionExtLength order
  let pos ← block order intHeader len 8
  let _ ← whileBelow len (intTarget order len) len pos
  pure ()

/-- `struct dvb_sdt_service` -/
def serviceHeader : Header := ⟨5, [(0, 2), (3, 2)], (3, 2), 12⟩

/-- `dvb_sdt_section_codec` -/
def dvbSdtSectionCodec : Walk Unit := do
  let len ← sectionExtLength order
  let pos ← plain order [(0, 2)] 3 len 8
  let pos ← whileBelow len (block order serviceHeader len) len pos
  require (pos = len)

/-- `struct dvb_sit_service`; the third word that is swapped stands behind it. -/
def sitServiceHeader : Header := ⟨4, [(0, 2), (2, 2), (4, 2)], (2, 2), 12⟩

/-- `dvb_sit_section_codec` -/
def dvbSitSectionCodec : Walk Unit := do
  let len ← sectionExtLength order
  let pos ← block order lengthHeader len 8
  let pos ← whileBelow len (block order sitServiceHeader len) len pos
  require (pos = len)

/-- `dvb_tva_container_section_codec` -/
def dvbTvaContainerSectionCodec : Walk Unit := do
  let len ← sectionExtLength order
  require (8 ≤ len)

/-- `dvb_dit_section_codec` -/
def dvbDitSectionCodec : Walk Unit := do
  let len ← sectionLength order
  require (3 + 1 ≤ len)

/-- `dvb_rst_section_codec`; `struct dvb_rst_status` is not packed. -/
def dvbRstSectionCodec : Walk Unit := do
  let len ← sectionLength order
  let pos ← whileBelow len (plain order [(0, 2), (2, 2), (4, 2), (6, 2)] 10 len) len 3
  require (pos = len)

/-- `dvb_tdt_section_codec` -/
def dvbTdtSectionCodec : Walk Unit := do
  let len ← sectionLength order
  require (len = 8)

/-- `dvb_tot_section_codec` -/
def dvbTotSectionCodec : Walk Unit := do
  let whole ← sectionLength order
  let len := sizeSub whole 4
  let pos ← block order lengthHeader len 8
  require (pos = len)

/-! ### ATSC tables -/

/-- `atsc_section_psip_decode` -/
def atscSectionPsipDecode : Walk Unit := do
  let len ← sectionExtLength order
  require (9 ≤ len)

/-- `struct atsc_cvct_channel` and `struct atsc_tvct_channel` -/
def channelHeader : Header :=
  ⟨32, [(14, 4), (18, 4), (22, 2), (24, 2), (26, 2), (28, 2), (30, 2)], (30, 2), 10⟩

def channelSectionCodec : Walk Unit := do
  let len ← sectionExtLength order
  require (10 ≤ len)
  let numChannels ← read 9 1
  let pos ← times (block order channelHeader len) (beNat numChannels) 10
  let pos ← block order Dcct.part2Header len pos
  require (pos = len)

def atscCvctSectionCodec : Walk Unit := channelSectionCodec order

def atscTvctSectionCodec : Walk Unit := channelSectionCodec order

def updateData (pos dataLength updateType : ℕ) : Walk Unit :=
  if updateType = 1 ∨ updateType = 2 then do
    require (1 ≤ dataLength)
    atscTextValidate (pos + 1) (dataLength - 1)
  else if updateType = 3 then do
    require (3 ≤ dataLength)
    bswap order (pos + 1) 2
    atscTextValidate (pos + 3) (dataLength - 3)
  else pure ()

/-- One round of the loop over the updates.  The cast of `part2` binds tighter than the sum behind it, so that the
length is read twice as far on, where nothing is swapped yet. -/
def dccsctUpdate (len pos : ℕ) : Walk ℕ := do
  require (pos + 2 ≤ len)
  let updateType ← read pos 1
  let dataLength ← read (pos + 1) 1
  require (pos + 2 + beNat dataLength ≤ len)
  updateData order (pos + 2) (beNat dataLength) (beNat updateType)
  let part2 := pos + 2 + beNat dataLength
  require (part2 + 2 ≤ len)
  bswap order part2 2
  let w ← word order (2 * part2) 2
  require (part2 + 2 + w % 2 ^ 10 ≤ len)
  verifyDescriptors (part2 + 2) (w % 2 ^ 10)
  pure (part2 + 2 + w % 2 ^ 10)

/-- `atsc_dccsct_section_codec` -/
def atscDccsctSectionCodec : Walk Unit := do
  let len ← sectionExtLength order
  require (10 ≤ len)
  let updatesDefined ← read 9 1
  let pos ← times (dccsctUpdate order len) (beNat updatesDefined) 10
  let pos ← block order Dcct.part2Header len pos
  require (pos = len)

def atscEvent (len pos : ℕ) : Walk ℕ := do
  let pos' ← plain order [(0, 2), (2, 4), (6, 4)] 10 len pos
  let w ← word order (pos + 6) 4
  let pos ← text len pos' (w % 2 ^ 8)
  block order lengthHeader len pos

/-- `atsc_eit_section_codec` -/
def atscEitSectionCodec : Walk Unit := do
  let len ← sectionExtLength order
  require (10 ≤ len)
  let numEvents ← read 9 1
  let pos ← times (atscEvent order len) (beNat numEvents) 10
  require (pos = len)

/-- `atsc_ett_section_codec` -/
def atscEttSectionCodec : Walk Unit := do
  let len ← sectionExtLength order
  require (13 ≤ len)
  bswap order 9 4
  atscTextValidate 13 (sizeSub len 13)

/-- `struct atsc_mgt_table` -/
def mgtTableHeader : Header := ⟨11, [(0, 2), (2, 2), (5, 4), (9, 2)], (9, 2), 12⟩

/-- `atsc_mgt_section_codec` -/
def atscMgtSectionCodec : Walk Unit := do
  let len ← sectionExtLength order
  let pos ← plain order [(0, 2)] 2 len 9
  let tablesDefined ← word order 9 2
  let pos ← times (block order mgtTableHeader len) tablesDefined pos
  let pos ← block order lengthHeader len pos
  require (pos = len)

def rrtValue (len pos : ℕ) : Walk ℕ := do
  let pos ← countedText len pos
  countedText len pos

def rrtDimension (len pos : ℕ) : Walk ℕ := do
  let pos ← countedText len pos
  require (pos + 1 ≤ len)
  let valuesDefined ← read pos 1
  times (rrtValue len) (beNat valuesDefined % 2 ^ 4) (pos + 1)

/-- `struct atsc_rrt_section_part3`, which is not swapped. -/
def part3Header : Header := ⟨2, [], (0, 2), 10⟩

/-- `atsc_rrt_section_codec` -/
def atscRrtSectionCodec : Walk Unit := do
  let len ← sectionExtLength order
  require (10 ≤ len)
  let pos ← countedText len 9
  require (pos + 1 ≤ len)
  let dimensionsDefined ← read pos 1
  let pos ← times (rrtDimension len) (beNat dimensionsDefined) (pos + 1)
  let pos ← block order part3Header len pos
  require (pos = len)

/-- `atsc_stt_section_codec` -/
def atscSttSectionCodec : Walk Unit := do
  let len ← sectionExtLength order
  require (16 ≤ len)
  bswapAll order 9 [(0, 4), (5, 2)]
  verifyDescriptors 16 (sizeSub len 16)

end

/-! ### The families -/

/-- The tables whose codecs take a `struct section`. -/
inductive SectionTable
  | datagram | dit | rst | st | tdt | tot
  deriving DecidableEq, Repr

/-- The tables whose codecs take a `struct section_ext`. -/
inductive ExtTable
  | cat | metadata | odsmt | pat | pmt | tsdt | bat | eit | int | nit | sdt | sit | tvaContainer
  deriving DecidableEq, Repr

/-- The tables whose codecs take a `struct atsc_section_psip`. -/
inductive PsipTable
  | cvct | dccsct | dcct | eit | ett | mgt | rrt | stt | tvct
  deriving DecidableEq, Repr

/-- The codecs; a datagram, an ST and a metadata section are left as they are. -/
def SectionTable.codec (order : ByteOrder) : SectionTable → Walk Unit
  | .datagram | .st => pure ()
  | .dit => dvbDitSectionCodec order
  | .rst => dvbRstSectionCodec order
  | .tdt => dvbTdtSectionCodec order
  | .tot => dvbTotSectionCodec order

def ExtTable.codec (order : ByteOrder) : ExtTable → Walk Unit
  | .cat => mpegCatSectionCodec order
  | .tsdt => mpegTsdtSectionCodec order
  | .metadata => pure ()
  | .odsmt => mpegOdsmtSectionCodec order
  | .pat => mpegPatSectionCodec order
  | .pmt => Pmt.mpegPmtSectionCodec order
  | .bat => dvbBatSectionCodec order
  | .nit => dvbNitSectionCodec order
  | .eit => dvbEitSectionCodec order
  | .int => dvbIntSectionCodec order
  | .sdt => dvbSdtSectionCodec order
  | .sit => dvbSitSectionCodec order
  | .tvaContainer => dvbTvaContainerSectionCodec order

def PsipTable.codec (order : ByteOrder) : PsipTable → Walk Unit
  | .cvct => atscCvctSectionCodec order
  | .tvct => atscTvctSectionCodec order
  | .dccsct => atscDccsctSectionCodec order
  | .dcct => Dcct.atscDcctSectionCodec order
  | .eit => atscEitSectionCodec order
  | .ett => atscEttSectionCodec order
  | .mgt => atscMgtSectionCodec order
  | .rrt => atscRrtSectionCodec order
  | .stt => atscSttSectionCodec order

end BgtDvb.Ucsi.Table
