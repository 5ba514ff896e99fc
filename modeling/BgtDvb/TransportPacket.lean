import Mathlib

/-!
# Values of a transport packet

`transport_packet_values_extract` of `libucsi/transport_packet.c`: the adaptation field of a TS
packet is walked from front to back, each optional field is checked against the end of the
adaptation field, and those the caller asked for are decoded.

* `clockReference`, `ltwOffsetOf`, `piecewiseRateOf`, `dtsNextAuOf` — the values, in the C types they are
  computed in: the clock references in 64 bits, the others in `int`.

Pointers into the packet are offsets from its first byte.
-/

namespace BgtDvb.Ucsi

/-- `TRANSPORT_PACKET_LENGTH`. -/
def transportPacketLength : ℕ := 188

structure TransportPacket where
  bytes : List UInt8
  length_eq : bytes.length = transportPacketLength

def TransportPacket.at (pkt : TransportPacket) (i : ℕ) : UInt8 := pkt.bytes.getD i 0

/-- The bits of the mask a caller passes and gets back. -/
inductive TransportValue where
  | pcr
  | opcr
  | spliceCountdown
  | privateData
  | ltw
  | piecewiseRate
  | seamlessSplice
  deriving Repr, DecidableEq

/-- `enum transport_value`. -/
def TransportValue.bit : TransportValue → BitVec 32
  | .pcr => 0x0001
  | .opcr => 0x0002
  | .spliceCountdown => 0x0004
  | .privateData => 0x0008
  | .ltw => 0x0100
  | .piecewiseRate => 0x0200
  | .seamlessSplice => 0x0400

/-- `mask & f`. -/
def Wants (mask : BitVec 32) (f : TransportValue) : Prop := mask &&& f.bit ≠ 0

instance (mask : BitVec 32) (f : TransportValue) : Decidable (Wants mask f) :=
  inferInstanceAs (Decidable (_ ≠ _))

/-- `struct transport_values`. -/
structure TransportValues where
  flags : UInt8
  payload : Option ℕ
  payloadLength : ℕ
  pcr : BitVec 64
  opcr : BitVec 64
  spliceCountdown : UInt8
  privateDataLength : UInt8
  privateData : ℕ
  ltwOffset : BitVec 16
  piecewiseRate : BitVec 32
  spliceType : UInt8
  dtsNextAu : BitVec 64
  deriving Repr, DecidableEq

/-! ### Header and flags -/

/-- `adaptation_field_control`, two bits of the fourth header byte. -/
def TransportPacket.adaptationFieldControl (pkt : TransportPacket) : UInt8 := (pkt.at 3 >>> 4) &&& 3

def TransportPacket.hasAdaptation (pkt : TransportPacket) : Bool := pkt.adaptationFieldControl &&& 2 ≠ 0

def TransportPacket.hasPayload (pkt : TransportPacket) : Bool := pkt.adaptationFieldControl &&& 1 ≠ 0

/-- `enum transport_adaptation_flags` and `enum transport_adaptation_extension_flags`: the flag that
announces a field, in the flags byte of the adaptation field or of its extension. -/
def TransportValue.flag : TransportValue → UInt8
  | .pcr => 0x10
  | .opcr => 0x08
  | .spliceCountdown => 0x04
  | .privateData => 0x02
  | .ltw => 0x80
  | .piecewiseRate => 0x40
  | .seamlessSplice => 0x20

/-- `transport_adaptation_flag_extension`. -/
def extensionFlag : UInt8 := 0x01

/-! ### Values -/

/-- A byte promoted to `int`. -/
def byte32 (b : UInt8) : BitVec 32 := b.toBitVec.setWidth 32

/-- A byte cast to `uint64_t`. -/
def byte64 (b : UInt8) : BitVec 64 := b.toBitVec.setWidth 64

def clockReference (pkt : TransportPacket) (pos : ℕ) : BitVec 64 :=
  let base := (byte64 (pkt.at pos) <<< 25) ||| (byte64 (pkt.at (pos + 1)) <<< 17) |||
    (byte64 (pkt.at (pos + 2)) <<< 9) ||| (byte64 (pkt.at (pos + 3)) <<< 1) |||
    (byte64 (pkt.at (pos + 4)) >>> 7)
  let ext := ((byte64 (pkt.at (pos + 4)) &&& 1#64) <<< 8) ||| byte64 (pkt.at (pos + 5))
  base * 300#64 + ext

/-- Computed in `int`, stored in a `uint16_t`. -/
def ltwOffsetOf (pkt : TransportPacket) (pos : ℕ) : BitVec 16 :=
  (((byte32 (pkt.at pos) &&& 0x7f#32) <<< 8) ||| byte32 (pkt.at (pos + 1))).setWidth 16

def piecewiseRateOf (pkt : TransportPacket) (pos : ℕ) : BitVec 32 :=
  ((byte32 (pkt.at pos) &&& 0x3f#32) <<< 16) ||| (byte32 (pkt.at (pos + 1)) <<< 8) |||
    byte32 (pkt.at (pos + 2))

/-- Computed in `int`, which loses what the first shift moves beyond 32 bits, and sign-extended to
the `uint64_t` it is stored in. -/
def dtsNextAuOf (pkt : TransportPacket) (pos : ℕ) : BitVec 64 :=
  (((byte32 (pkt.at pos) &&& 0x0e#32) <<< 29) ||| (byte32 (pkt.at (pos + 1)) <<< 22) |||
    ((byte32 (pkt.at (pos + 2)) &&& 0xfe#32) <<< 14) ||| (byte32 (pkt.at (pos + 3)) <<< 7) |||
    ((byte32 (pkt.at (pos + 4)) &&& 0xfe#32) >>> 1)).signExtend 64

/-- The values of a field that starts at `pos`, written to the output structure. -/
def TransportValues.store (out : TransportValues) (pkt : TransportPacket) (pos : ℕ) :
    TransportValue → TransportValues
  | .pcr => { out with pcr := clockReference pkt pos }
  | .opcr => { out with opcr := clockReference pkt pos }
  | .spliceCountdown => { out with spliceCountdown := pkt.at pos }
  | .privateData => { out with privateDataLength := pkt.at pos, privateData := pos + 1 }
  | .ltw => { out with ltwOffset := ltwOffsetOf pkt pos }
  | .piecewiseRate => { out with piecewiseRate := piecewiseRateOf pkt pos }
  | .seamlessSplice =>
    { out with spliceType := pkt.at pos >>> 4, dtsNextAu := dtsNextAuOf pkt pos }

/-! ### The walk -/

/-- `pos`, `extracted` and the output structure. -/
structure Cursor where
  pos : ℕ
  extracted : BitVec 32
  out : TransportValues
  deriving Repr, DecidableEq

/-- The field at the cursor is decoded and its bit added to the result. -/
def Cursor.take (c : Cursor) (pkt : TransportPacket) (f : TransportValue) : Cursor :=
  { c with out := c.out.store pkt c.pos f, extracted := c.extracted ||| f.bit }

/-- One optional field: if announced it must end before `adapend`, is decoded if wanted, and is
skipped.  An error leaves the output as it is so far. -/
def field (pkt : TransportPacket) (adapend : ℕ) (f : TransportValue) (announced wanted : Bool)
    (size : ℕ) (c : Cursor) : Except TransportValues Cursor :=
  if announced = true then
    if c.pos + size > adapend then .error c.out
    else
      let c' := if wanted = true then c.take pkt f else c
      .ok { c' with pos := c.pos + size }
  else .ok c

/-- Private data: its length byte must be there before it is read. -/
def privateDataField (pkt : TransportPacket) (adapend : ℕ) (announced wanted : Bool) (c : Cursor) :
    Except TransportValues Cursor :=
  if announced = true ∧ c.pos + 1 > adapend then .error c.out
  else field pkt adapend .privateData announced wanted (1 + (pkt.at c.pos).toNat) c

/-- The three fields of the extension.  The last of them is decoded when `piecewise_rate` is
wanted. -/
def extensionFields (pkt : TransportPacket) (extract : BitVec 32) (adapend : ℕ) (c : Cursor) :
    Except TransportValues Cursor := do
  let adapextflags := pkt.at c.pos
  let c := { c with pos := c.pos + 1 }
  let c ← field pkt adapend .ltw (adapextflags &&& TransportValue.ltw.flag ≠ 0)
    (Wants extract .ltw ∧ pkt.at c.pos &&& 0x80 ≠ 0) 2 c
  let c ← field pkt adapend .piecewiseRate (adapextflags &&& TransportValue.piecewiseRate.flag ≠ 0)
    (Wants extract .piecewiseRate) 3 c
  field pkt adapend .seamlessSplice (adapextflags &&& TransportValue.seamlessSplice.flag ≠ 0)
    (Wants extract .piecewiseRate) 5 c

/-- The extension, if the flags announce one: its length is checked in any case. -/
def adaptationExtension (pkt : TransportPacket) (extract : BitVec 32) (adapend : ℕ)
    (adapflags : UInt8) (c : Cursor) : Except TransportValues Cursor :=
  if adapflags &&& extensionFlag = 0 then .ok c
  else if c.pos ≥ adapend then .error c.out
  else
    let adapextlength := (pkt.at c.pos).toNat
    let c := { c with pos := c.pos + 1 }
    if c.pos + adapextlength > adapend then .error c.out
    else if extract &&& 0xff00 = 0 ∨ adapextlength = 0 then .ok c
    else extensionFields pkt extract adapend c

def adaptationFields (pkt : TransportPacket) (extract : BitVec 32) (adapend : ℕ)
    (adapflags : UInt8) (c : Cursor) : Except TransportValues Cursor := do
  let c ← field pkt adapend .pcr (adapflags &&& TransportValue.pcr.flag ≠ 0) (Wants extract .pcr) 6 c
  let c ← field pkt adapend .opcr (adapflags &&& TransportValue.opcr.flag ≠ 0) (Wants extract .opcr) 6 c
  let c ← field pkt adapend .spliceCountdown (adapflags &&& TransportValue.spliceCountdown.flag ≠ 0)
    (Wants extract .spliceCountdown) 1 c
  let c ← privateDataField pkt adapend (adapflags &&& TransportValue.privateData.flag ≠ 0)
    (Wants extract .privateData) c
  adaptationExtension pkt extract adapend adapflags c

/-- The code behind the label `extract_payload`. -/
def extractPayload (pkt : TransportPacket) (adaplength : ℕ) (adapflags : UInt8)
    (out : TransportValues) : TransportValues :=
  if pkt.hasPayload = true then
    let off := (if pkt.hasAdaptation = true then 4 + 1 else 4) + adaplength
    { out with payload := some off, payloadLength := transportPacketLength - off, flags := adapflags }
  else { out with payload := none, payloadLength := 0, flags := adapflags }

/-- `transport_packet_values_extract`: the mask and the output structure; an error is the result
`-1`. -/
def transportPacketValuesExtract (pkt : TransportPacket) (out : TransportValues)
    (extract : BitVec 32) : Except TransportValues (BitVec 32 × TransportValues) :=
  if pkt.hasAdaptation = false then .ok (0, extractPayload pkt 0 0 out)
  else
    let adaplength := (pkt.at 4).toNat
    if adaplength = 0 then .ok (0, extractPayload pkt 0 0 out)
    else
      let adapend := 5 + adaplength
      if adapend > transportPacketLength then .error out
      else
        let adapflags := pkt.at 5
        if extract &&& 0xffff = 0 then .ok (0, extractPayload pkt adaplength adapflags out)
        else do
          let c ← adaptationFields pkt extract adapend adapflags { pos := 6, extracted := 0, out := out }
          .ok (c.extracted, extractPayload pkt adaplength adapflags c.out)

end BgtDvb.Ucsi
