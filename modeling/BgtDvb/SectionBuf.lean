import Mathlib

/-!
# The section buffer

The reassembly buffer of `libucsi/section_buf.c` and the loop by which a caller drives it: TS
packet payloads go in, complete PSI sections come out.  The definitions follow the source
statement by statement:

* `sectionBufAdd` — accumulate one fragment: skip padding, complete the 3-byte header, work out
  the section length, accumulate the body.

A `memcpy` into the data area is `store`; bytes of the area beyond `count` are never read.
-/

namespace BgtDvb.Ucsi

/-- `EINVAL` and `ERANGE` as the source returns them (negated). -/
def einval : ℤ := 22

def erange : ℤ := 34

def sectionHdrSize : ℕ := 3

def sectionPad : UInt8 := 0xff

/-- `struct section_buf` with the data area that follows it in memory. -/
@[ext]
structure SectionBuf where
  max : ℕ
  count : ℕ
  len : ℕ
  header : Bool
  waitPdu : Bool
  data : List UInt8
  deriving Repr, DecidableEq

/-- Returns the C result and the buffer; a `max` below the header size is refused. -/
def sectionBufInit (buf : SectionBuf) (max : ℕ) : ℤ × SectionBuf :=
  if max < sectionHdrSize then (-einval, buf)
  else (0, { buf with max := max, count := 0, len := sectionHdrSize, header := false, waitPdu := true })

def sectionBufReset (buf : SectionBuf) : SectionBuf :=
  { (sectionBufInit buf buf.max).2 with waitPdu := buf.waitPdu }

def sectionBufRemaining (buf : SectionBuf) : ℤ := buf.len - buf.count

/-- The bytes a caller reads at `section_buf_data` once the section is complete. -/
def sectionBufData (buf : SectionBuf) : List UInt8 := buf.data.take buf.len

/-- `memcpy(pos, frag, copy); count += copy` with `pos` at the current count. -/
def SectionBuf.store (buf : SectionBuf) (frag : List UInt8) (copy : ℕ) : SectionBuf :=
  { buf with data := buf.data.take buf.count ++ frag.take copy, count := buf.count + copy }

/-- What one call returns: the buffer, the bytes consumed and `*section_status`. -/
@[ext]
structure AddResult where
  buf : SectionBuf
  used : ℕ
  status : ℤ
  deriving Repr, DecidableEq

/-- `section->header && (section->len == section->count)`. -/
def SectionBuf.finished (buf : SectionBuf) : Bool := buf.header && buf.len == buf.count

/-- `while (len && *frag == SECTION_PAD)`, counting the bytes skipped. -/
def skipPadding : List UInt8 → ℕ → List UInt8 × ℕ
  | [], used => ([], used)
  | b :: frag, used => if b = sectionPad then skipPadding frag (used + 1) else (b :: frag, used)

/-- `((data[1] & 0x0f) << 8) | data[2]`. -/
def sectionLengthField (data : List UInt8) : ℕ :=
  (((data.getD 1 0) &&& 0x0f).toNat <<< 8) ||| (data.getD 2 0).toNat

/-- The tail of `section_buf_add`: accumulate what the section still lacks. -/
def accumulate (buf : SectionBuf) (frag : List UInt8) (used : ℕ) : AddResult :=
  let copy := min (buf.len - buf.count) frag.length
  let buf := buf.store frag copy
  ⟨buf, used + copy, if buf.finished then 1 else 0⟩

/-- The header part of `section_buf_add`, entered while `header` is clear. -/
def grabHeader (buf : SectionBuf) (frag : List UInt8) (used : ℕ) : AddResult :=
  let copy := min (sectionHdrSize - buf.count) frag.length
  let buf := buf.store frag copy
  let frag := frag.drop copy
  let used := used + copy
  if buf.count ≠ sectionHdrSize then ⟨buf, used, 0⟩
  else
    let buf := { buf with len := sectionHdrSize + sectionLengthField buf.data }
    if buf.max < buf.len then ⟨buf, frag.length + used, -erange⟩
    else accumulate { buf with header := true } frag used

def sectionBufAdd (buf : SectionBuf) (frag : List UInt8) : AddResult :=
  if buf.finished then ⟨buf, 0, 1⟩
  else
    let skipped := if buf.count = 0 then skipPadding frag 0 else (frag, 0)
    if buf.count = 0 ∧ skipped.1 = [] then ⟨buf, skipped.2, 0⟩
    else if buf.header then accumulate buf skipped.1 skipped.2
    else grabHeader buf skipped.1 skipped.2

/-- The last statements of `section_buf_add_transport_payload`: accumulate from `used` on. -/
def addFrom (buf : SectionBuf) (payload : List UInt8) (used : ℕ) : AddResult :=
  let r := sectionBufAdd buf (payload.drop used)
  ⟨if r.status < 0 then { r.buf with waitPdu := true } else r.buf, used + r.used, r.status⟩

def sectionBufAddTransportPayload (buf : SectionBuf) (payload : List UInt8) (pduStart : Bool) :
    AddResult :=
  if buf.finished then ⟨buf, 0, 1⟩
  else if buf.waitPdu && !pduStart then ⟨buf, payload.length, 0⟩
  else if pduStart then
    let buf := { buf with waitPdu := false }
    let offset := (payload.headD 0).toNat
    if payload.length < offset + 1 then ⟨{ buf with waitPdu := true }, payload.length, -einval⟩
    else if buf.count ≠ 0 then
      -- the pointer field promises that exactly `offset` bytes complete the pending section
      let r := sectionBufAdd buf ((payload.drop 1).take offset)
      if r.used ≠ offset ∨ sectionBufRemaining r.buf ≠ 0 ∨ r.status ≠ 1 then
        ⟨{ r.buf with waitPdu := true }, 1 + r.used, -erange⟩
      else ⟨r.buf, 1 + r.used, r.status⟩
    else addFrom buf payload (1 + offset)
  else addFrom buf payload 0

/-! ### The caller loop -/

/-- What the caller does with a non-zero status. -/
inductive Event where
  | complete : List UInt8 → Event
  | bad : ℤ → Event
  deriving Repr, DecidableEq

/-- `while (payload_length)`: one call on what is left of the payload, `pdu_start` only for the
first, a reset after each non-zero status.  `none` when the iterations run out. -/
def receivePayload : ℕ → SectionBuf → List UInt8 → Bool → Option (SectionBuf × List Event)
  | _, buf, [], _ => some (buf, [])
  | 0, _, _ :: _, _ => none
  | n + 1, buf, b :: bs, pduStart =>
    let r := sectionBufAddTransportPayload buf (b :: bs) pduStart
    let rest := (b :: bs).drop r.used
    if r.status = 1 then
      (receivePayload n (sectionBufReset r.buf) rest false).map
        fun p => (p.1, .complete (sectionBufData r.buf) :: p.2)
    else if r.status < 0 then
      (receivePayload n (sectionBufReset r.buf) rest false).map fun p => (p.1, .bad r.status :: p.2)
    else receivePayload n r.buf rest false

/-- The payload of one TS packet with its `payload_unit_start_indicator`. -/
structure Packet where
  pduStart : Bool
  payload : List UInt8
  deriving Repr, DecidableEq

/-- The caller loop over a sequence of packets; each payload gets as many iterations as bytes. -/
def receivePackets : SectionBuf → List Packet → Option (SectionBuf × List Event)
  | buf, [] => some (buf, [])
  | buf, p :: ps => do
    let r ← receivePayload p.payload.length buf p.payload p.pduStart
    let rs ← receivePackets r.1 ps
    return (rs.1, r.2 ++ rs.2)

end BgtDvb.Ucsi
