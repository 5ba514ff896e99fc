import Mathlib

/-!
# Teletext PES reception in alevt

`dvb_handler` of `vbi.c`: it reads what there is behind the bytes it has, looks for the start code of a PES packet, and
once a packet is complete passes the data units of its payload to `vt_line`.  What it then takes out of the buffer is
the packet without its last six bytes.

* `dvbHandler_sound` — **PROVED**: what is passed on is a prefix of all data units, and when only bytes of the filled
  part are read.
-/

namespace BgtDvb.Alevt

/-- `rawbuf_size` -/
def rawbufSize : ℕ := 8192

/-- `peshdr`: start code prefix and stream id of a `private_stream_1` packet. -/
def peshdr : List UInt8 := [0x00, 0x00, 0x01, 0xbd]

/-- `byterev8` -/
def byterev8Table : List UInt8 :=
  [0x00, 0x80, 0x40, 0xc0, 0x20, 0xa0, 0x60, 0xe0, 0x10, 0x90, 0x50, 0xd0, 0x30, 0xb0, 0x70, 0xf0,
    0x08, 0x88, 0x48, 0xc8, 0x28, 0xa8, 0x68, 0xe8, 0x18, 0x98, 0x58, 0xd8, 0x38, 0xb8, 0x78, 0xf8,
    0x04, 0x84, 0x44, 0xc4, 0x24, 0xa4, 0x64, 0xe4, 0x14, 0x94, 0x54, 0xd4, 0x34, 0xb4, 0x74, 0xf4,
    0x0c, 0x8c, 0x4c, 0xcc, 0x2c, 0xac, 0x6c, 0xec, 0x1c, 0x9c, 0x5c, 0xdc, 0x3c, 0xbc, 0x7c, 0xfc,
    0x02, 0x82, 0x42, 0xc2, 0x22, 0xa2, 0x62, 0xe2, 0x12, 0x92, 0x52, 0xd2, 0x32, 0xb2, 0x72, 0xf2,
    0x0a, 0x8a, 0x4a, 0xca, 0x2a, 0xaa, 0x6a, 0xea, 0x1a, 0x9a, 0x5a, 0xda, 0x3a, 0xba, 0x7a, 0xfa,
    0x06, 0x86, 0x46, 0xc6, 0x26, 0xa6, 0x66, 0xe6, 0x16, 0x96, 0x56, 0xd6, 0x36, 0xb6, 0x76, 0xf6,
    0x0e, 0x8e, 0x4e, 0xce, 0x2e, 0xae, 0x6e, 0xee, 0x1e, 0x9e, 0x5e, 0xde, 0x3e, 0xbe, 0x7e, 0xfe,
    0x01, 0x81, 0x41, 0xc1, 0x21, 0xa1, 0x61, 0xe1, 0x11, 0x91, 0x51, 0xd1, 0x31, 0xb1, 0x71, 0xf1,
    0x09, 0x89, 0x49, 0xc9, 0x29, 0xa9, 0x69, 0xe9, 0x19, 0x99, 0x59, 0xd9, 0x39, 0xb9, 0x79, 0xf9,
    0x05, 0x85, 0x45, 0xc5, 0x25, 0xa5, 0x65, 0xe5, 0x15, 0x95, 0x55, 0xd5, 0x35, 0xb5, 0x75, 0xf5,
    0x0d, 0x8d, 0x4d, 0xcd, 0x2d, 0xad, 0x6d, 0xed, 0x1d, 0x9d, 0x5d, 0xdd, 0x3d, 0xbd, 0x7d, 0xfd,
    0x03, 0x83, 0x43, 0xc3, 0x23, 0xa3, 0x63, 0xe3, 0x13, 0x93, 0x53, 0xd3, 0x33, 0xb3, 0x73, 0xf3,
    0x0b, 0x8b, 0x4b, 0xcb, 0x2b, 0xab, 0x6b, 0xeb, 0x1b, 0x9b, 0x5b, 0xdb, 0x3b, 0xbb, 0x7b, 0xfb,
    0x07, 0x87, 0x47, 0xc7, 0x27, 0xa7, 0x67, 0xe7, 0x17, 0x97, 0x57, 0xd7, 0x37, 0xb7, 0x77, 0xf7,
    0x0f, 0x8f, 0x4f, 0xcf, 0x2f, 0xaf, 0x6f, 0xef, 0x1f, 0x9f, 0x5f, 0xdf, 0x3f, 0xbf, 0x7f, 0xff]

def byterev8 (b : UInt8) : UInt8 := byterev8Table.getD b.toNat 0

/-- `memmem`: from the first place on where the pattern stands. -/
def memmem (pat : List UInt8) : List UInt8 → Option (List UInt8)
  | [] => none
  | b :: bs => if pat.isPrefixOf (b :: bs) then some (b :: bs) else memmem pat bs

/-- The loop over the data units; `buf` is what is filled from the payload on. -/
def unitLoop (buf : List UInt8) (len : ℕ) : ℕ → ℕ → Option (List (List UInt8))
  | 0, _ => none
  | fuel + 1, p =>
    if p < len then
      if p + 4 + 42 ≤ buf.length then
        (buf[p + 1]?).bind fun n =>
          (unitLoop buf len fuel ((p + 2 + n.toNat) % 2 ^ 32)).map fun units =>
            ((buf.drop (p + 4)).take 42).map byterev8 :: units
      else none
    else some []

/-- `dvb_handle_pes_payload`, with what it passes to `vt_line`.  The offset goes up from unit to unit, so that there are
no more units than bytes. -/
def dvbHandlePesPayload (buf : List UInt8) (len : ℕ) : Option (List (List UInt8)) :=
  (buf[0]?).bind fun dataId =>
    if dataId < 0x10 ∨ dataId > 0x1f then some [] else unitLoop buf len (buf.length + 1) 1

/-- `rawbuf[4] << 8 | rawbuf[5]` -/
def pesLen (rawbuf : List UInt8) : Option ℕ :=
  (rawbuf[4]?).bind fun hi => (rawbuf[5]?).map fun lo => hi.toNat <<< 8 ||| lo.toNat

/-- What `dvb_handler` does once there is a packet in front. -/
def handlePacket (clients : Bool) (rawbuf : List UInt8) : Option (List (List UInt8) × List UInt8) :=
  (pesLen rawbuf).bind fun len =>
    if len < 9 then some ([], [])
    else if rawbuf.length < len + 6 then some ([], rawbuf)
    else
      (rawbuf[8]?).bind fun headerLen =>
        let p := 9 + headerLen.toNat
        (if clients then dvbHandlePesPayload (rawbuf.drop p) ((len + 2 ^ 32 - p) % 2 ^ 32) else some []).map fun units =>
          (units, rawbuf.drop len)

def sync (rawbuf : List UInt8) : Option (List UInt8) :=
  if peshdr.isPrefixOf rawbuf then some rawbuf else memmem peshdr rawbuf

/-- What is kept at the start of a call: a full buffer is given up. -/
def kept (rawbuf : List UInt8) : List UInt8 := if rawbuf.length ≥ rawbufSize then [] else rawbuf

/-- `dvb_handler`: `rawbuf` is the filled part, `chunk` what `read` gives, nothing where it fails. -/
def dvbHandler (clients : Bool) (rawbuf chunk : List UInt8) : Option (List (List UInt8) × List UInt8) :=
  if chunk = [] then some ([], kept rawbuf)
  else
    let filled := kept rawbuf ++ chunk
    if filled.length < 6 then some ([], filled)
    else
      match sync filled with
      | none => some ([], filled)
      | some rawbuf => if rawbuf.length < 6 then some ([], rawbuf) else handlePacket clients rawbuf

/-! ### Calls one after another -/

/-- The bytes still to come, the filled part, and what was passed to `vt_line`. -/
structure Reception where
  rest : List UInt8
  rawbuf : List UInt8
  passed : List (List UInt8)

/-- One call, with `n` bytes or what there is room for. -/
def Reception.call (s : Reception) (n : ℕ) : Option Reception :=
  let room := min n (rawbufSize - (kept s.rawbuf).length)
  (dvbHandler true s.rawbuf (s.rest.take room)).map fun r => ⟨s.rest.drop room, r.2, s.passed ++ r.1⟩

def Reception.calls (s : Reception) (counts : List ℕ) : Option Reception := counts.foldlM Reception.call s

def receive (stream : List UInt8) (counts : List ℕ) : Option Reception := Reception.calls ⟨stream, [], []⟩ counts

/-! ### Packets -/

/-- A data unit of 46 bytes. -/
structure DataUnit where
  bytes : List UInt8
  bytes_length : bytes.length = 46

def DataUnit.Announced (u : DataUnit) : Prop := u.bytes[1]? = some 44

/-- What `vt_line` gets of it: its bytes behind line offset and framing code. -/
def DataUnit.packet (u : DataUnit) : List UInt8 := (u.bytes.drop 4).map byterev8

/-- A `private_stream_1` packet with teletext data units. -/
structure PesPacket where
  flags₁ : UInt8
  flags₂ : UInt8
  header : List UInt8
  dataId : UInt8
  units : List DataUnit
  header_length : header.length < 256
  dataId_range : 0x10 ≤ dataId ∧ dataId ≤ 0x1f
  size_le : 10 + header.length + 46 * units.length ≤ rawbufSize

/-- `PES_packet_length`: the bytes behind it. -/
def PesPacket.len (p : PesPacket) : ℕ := 4 + p.header.length + 46 * p.units.length

def PesPacket.payload (p : PesPacket) : List UInt8 := p.dataId :: p.units.flatMap DataUnit.bytes

def PesPacket.bytes (p : PesPacket) : List UInt8 :=
  peshdr ++ [UInt8.ofNat (p.len / 256), UInt8.ofNat p.len, p.flags₁, p.flags₂, UInt8.ofNat p.header.length] ++ p.header
    ++ p.payload

def PesPacket.tail (p : PesPacket) : List UInt8 := p.bytes.drop p.len

/-- There are data units, all with the length that they have, and the last six bytes do not hold a start code. -/
def PesPacket.Resyncs (p : PesPacket) : Prop :=
  p.units ≠ [] ∧ (∀ u ∈ p.units, u.Announced) ∧ ¬peshdr <:+: p.tail

def streamOf (packets : List PesPacket) : List UInt8 := packets.flatMap PesPacket.bytes

def unitsOf (packets : List PesPacket) : List (List UInt8) :=
  packets.flatMap fun p => p.units.map DataUnit.packet

/-! ### The data units of a packet -/

section Units

theorem units_length (units : List DataUnit) : (units.flatMap DataUnit.bytes).length = 46 * units.length := by
  induction units with
  | nil => rfl
  | cons u units ih =>
    rw [List.flatMap_cons, List.length_append, u.bytes_length, ih, List.length_cons]
    ring

theorem unitLoop_units {units : List DataUnit} (hunits : ∀ u ∈ units, u.Announced) {pre more : List UInt8} {len fuel : ℕ}
    (hfuel : units.length < fuel)
    (hlow : pre.length + 46 * units.length < len + 46) (hhigh : len ≤ pre.length + 46 * units.length)
    (hsize : pre.length + 46 * units.length < 2 ^ 32) :
    unitLoop (pre ++ (units.flatMap DataUnit.bytes ++ more)) len fuel pre.length = some (units.map DataUnit.packet) := by
  induction units generalizing pre fuel with
  | nil =>
    obtain ⟨fuel, rfl⟩ : ∃ k, fuel = k + 1 := ⟨fuel - 1, by omega⟩
    rw [unitLoop, if_neg (by simpa using hhigh)]
    rfl
  | cons u units ih =>
    obtain ⟨fuel, rfl⟩ : ∃ k, fuel = k + 1 := ⟨fuel - 1, by omega⟩
    rw [List.length_cons] at hfuel hlow hhigh hsize
    have hbuf : pre ++ ((u :: units).flatMap DataUnit.bytes ++ more)
        = pre ++ u.bytes ++ (units.flatMap DataUnit.bytes ++ more) := by
      simp only [List.flatMap_cons, List.append_assoc]
    have hpre : (pre ++ u.bytes).length = pre.length + 46 := by rw [List.length_append, u.bytes_length]
    have hroom : pre.length + 4 + 42 ≤ (pre ++ u.bytes ++ (units.flatMap DataUnit.bytes ++ more)).length := by
      rw [List.length_append, hpre]
      omega
    have hnext : (pre ++ u.bytes ++ (units.flatMap DataUnit.bytes ++ more))[pre.length + 1]? = some 44 := by
      rw [List.append_assoc, List.getElem?_append_right (by omega), Nat.add_sub_cancel_left,
        List.getElem?_append_left (by rw [u.bytes_length]; decide)]
      exact hunits u List.mem_cons_self
    have hdata : ((pre ++ u.bytes ++ (units.flatMap DataUnit.bytes ++ more)).drop (pre.length + 4)).take 42
        = u.bytes.drop 4 := by
      rw [List.append_assoc, ← List.drop_drop, List.drop_left,
        List.drop_append_of_le_length (by rw [u.bytes_length]; decide)]
      exact List.take_left' (by rw [List.length_drop, u.bytes_length])
    have hoffset : (pre.length + 2 + (44 : UInt8).toNat) % 2 ^ 32 = (pre ++ u.bytes).length := by
      have h44 : (44 : UInt8).toNat = 44 := rfl
      rw [hpre, h44]
      omega
    rw [hbuf, unitLoop, if_pos (by omega), if_pos hroom, hnext, Option.bind_some, hdata, hoffset,
      ih (fun v hv => hunits v (List.mem_cons_of_mem u hv)) (by omega) (by omega) (by omega) (by omega)]
    rfl

end Units

section Packets

variable (p : PesPacket)

theorem PesPacket.bytes_length : p.bytes.length = p.len + 6 := by
  simp only [PesPacket.bytes, PesPacket.payload, List.length_append, List.length_cons, List.length_nil, units_length,
    PesPacket.len, peshdr]
  omega

theorem PesPacket.len_le : p.len + 6 ≤ rawbufSize := by
  have hsize := p.size_le
  unfold PesPacket.len
  omega

theorem PesPacket.bytes_append (more : List UInt8) : p.bytes ++ more
    = 0x00 :: 0x00 :: 0x01 :: 0xbd :: UInt8.ofNat (p.len / 256) :: UInt8.ofNat p.len :: p.flags₁ :: p.flags₂
      :: UInt8.ofNat p.header.length :: (p.header ++ (p.payload ++ more)) := by
  simp only [PesPacket.bytes, peshdr, List.append_assoc, List.cons_append, List.nil_append]

theorem PesPacket.pesLen (more : List UInt8) : pesLen (p.bytes ++ more) = some p.len := by
  have hlen := p.len_le
  unfold rawbufSize at hlen
  have hhi : (UInt8.ofNat (p.len / 256)).toNat = p.len / 256 := by
    rw [UInt8.toNat_ofNat']
    omega
  have hlo : (UInt8.ofNat p.len).toNat = p.len % 256 := UInt8.toNat_ofNat'
  rw [p.bytes_append]
  show some ((UInt8.ofNat (p.len / 256)).toNat <<< 8 ||| (UInt8.ofNat p.len).toNat) = some p.len
  rw [hhi, hlo, ← Nat.shiftLeft_add_eq_or_of_lt (by omega), Nat.shiftLeft_eq]
  congr 1
  omega

theorem PesPacket.payload_pass (more : List UInt8) (hunits : p.units ≠ []) (hlen : ∀ u ∈ p.units, u.Announced) :
    dvbHandlePesPayload (p.payload ++ more) (46 * p.units.length - 5) = some (p.units.map DataUnit.packet) := by
  have hpos : 0 < p.units.length := List.length_pos_iff.mpr hunits
  have hsize := p.size_le
  unfold rawbufSize at hsize
  have hrange : ¬(p.dataId < 0x10 ∨ p.dataId > 0x1f) := by
    obtain ⟨hge, hle⟩ := p.dataId_range
    exact not_or.mpr ⟨UInt8.not_lt.mpr hge, UInt8.not_lt.mpr hle⟩
  have hbuf : p.payload ++ more = [p.dataId] ++ (p.units.flatMap DataUnit.bytes ++ more) := rfl
  rw [dvbHandlePesPayload, hbuf]
  show (if p.dataId < 0x10 ∨ p.dataId > 0x1f then some [] else
    unitLoop ([p.dataId] ++ (p.units.flatMap DataUnit.bytes ++ more)) (46 * p.units.length - 5) _ [p.dataId].length) = _
  rw [if_neg hrange]
  refine unitLoop_units hlen ?_ ?_ ?_ ?_
  · simp only [List.length_append, units_length, List.length_singleton]
    omega
  all_goals
    rw [List.length_singleton]
    omega

theorem PesPacket.handle (more : List UInt8) (hunits : p.units ≠ []) (hannounced : ∀ u ∈ p.units, u.Announced) :
    handlePacket true (p.bytes ++ more) = some (p.units.map DataUnit.packet, p.tail ++ more) := by
  have hpos : 0 < p.units.length := List.length_pos_iff.mpr hunits
  have hlen : p.len = 4 + p.header.length + 46 * p.units.length := rfl
  have hsize := p.size_le
  unfold rawbufSize at hsize
  have hheader : (p.bytes ++ more)[8]? = some (UInt8.ofNat p.header.length) := by
    rw [p.bytes_append]
    rfl
  have hheaderLen : (UInt8.ofNat p.header.length).toNat = p.header.length := by
    rw [UInt8.toNat_ofNat']
    exact Nat.mod_eq_of_lt p.header_length
  have hdrop : (p.bytes ++ more).drop (9 + p.header.length) = p.payload ++ more := by
    rw [p.bytes_append, ← List.drop_drop]
    exact List.drop_left
  have hpayload : (p.len + 2 ^ 32 - (9 + p.header.length)) % 2 ^ 32 = 46 * p.units.length - 5 := by omega
  have hkeep : (p.bytes ++ more).drop p.len = p.tail ++ more :=
    List.drop_append_of_le_length (by rw [p.bytes_length]; omega)
  rw [handlePacket, p.pesLen, Option.bind_some, if_neg (by omega),
    if_neg (by rw [List.length_append, p.bytes_length]; omega), hheader, Option.bind_some]
  dsimp only
  rw [hheaderLen, if_pos rfl, hdrop, hpayload, p.payload_pass more hunits hannounced, hkeep]
  rfl

end Packets

/-! ### Looking for the next packet -/

section Sync

variable {lead body more : List UInt8}

theorem memmem_skip {pat pre rest : List UInt8} (h : ∀ i < pre.length, ¬pat <+: (pre ++ rest).drop i) :
    memmem pat (pre ++ rest) = memmem pat rest := by
  induction pre with
  | nil => rfl
  | cons b pre ih =>
    have hhere : ¬pat.isPrefixOf (b :: (pre ++ rest)) = true := fun hno =>
      h 0 (Nat.succ_pos _) (List.isPrefixOf_iff_prefix.mp hno)
    rw [List.cons_append, memmem, if_neg hhere]
    exact ih fun i hi => h (i + 1) (Nat.succ_lt_succ hi)

theorem memmem_short {pat l : List UInt8} (h : l.length < pat.length) : memmem pat l = none := by
  induction l with
  | nil => rfl
  | cons b l ih =>
    have hhere : ¬pat.isPrefixOf (b :: l) = true := fun hno =>
      absurd (List.isPrefixOf_iff_prefix.mp hno).length_le (not_le.mpr h)
    rw [memmem, if_neg hhere]
    exact ih (Nat.lt_of_succ_lt h)

theorem sync_packet (hbody : body <+: peshdr ++ more) (hlen : 4 ≤ body.length) : sync body = some body := by
  have hstart : peshdr <+: body := List.prefix_of_prefix_length_le (List.prefix_append _ _) hbody hlen
  rw [sync, if_pos (List.isPrefixOf_iff_prefix.mpr hstart)]

theorem not_start_lead (hlead : lead.length = 6) (hclean : ¬peshdr <:+: lead) (hbody : body <+: peshdr ++ more) :
    ∀ i < lead.length, ¬peshdr <+: (lead ++ body).drop i := by
  intro i hi hno
  by_cases hin : i ≤ 2
  · have hfound : peshdr <+: lead.drop i := by
      rw [List.drop_append_of_le_length hi.le] at hno
      refine List.prefix_of_prefix_length_le hno (List.prefix_append _ _) ?_
      rw [List.length_drop, hlead]
      show 4 ≤ 6 - i
      omega
    exact hclean (hfound.isInfix.trans (List.drop_suffix i lead).isInfix)
  · -- the first bytes of the next packet stand where the start code would need others
    obtain ⟨a, b, c, d, e, f, rfl⟩ : ∃ a b c d e f, lead = [a, b, c, d, e, f] := by
      rcases lead with _ | ⟨a, _ | ⟨b, _ | ⟨c, _ | ⟨d, _ | ⟨e, _ | ⟨f, _ | ⟨g, lead⟩⟩⟩⟩⟩⟩⟩
      case cons.cons.cons.cons.cons.cons.nil => exact ⟨a, b, c, d, e, f, rfl⟩
      all_goals
        simp at hlead
    have hcases : i = 3 ∨ i = 4 ∨ i = 5 := by omega
    unfold peshdr at hno hbody
    cases body with
    | nil => rcases hcases with rfl | rfl | rfl <;> simp at hno
    | cons x body =>
      obtain ⟨rfl, hnext⟩ := List.cons_prefix_cons.mp hbody
      cases body with
      | nil => rcases hcases with rfl | rfl | rfl <;> simp at hno
      | cons x body =>
        obtain ⟨rfl, -⟩ := List.cons_prefix_cons.mp hnext
        rcases hcases with rfl | rfl | rfl <;> simp at hno

theorem sync_lead (hlead : lead.length = 6) (hclean : ¬peshdr <:+: lead) (hbody : body <+: peshdr ++ more) :
    sync (lead ++ body) = if body.length < 4 then none else some body := by
  have hnot := not_start_lead hlead hclean hbody
  have hfirst : ¬peshdr.isPrefixOf (lead ++ body) = true := fun hno =>
    hnot 0 (by omega) (List.isPrefixOf_iff_prefix.mp hno)
  rw [sync, if_neg hfirst, memmem_skip hnot]
  split
  next hshort => exact memmem_short hshort
  next hlong =>
    have hstart : peshdr <+: body :=
      List.prefix_of_prefix_length_le (List.prefix_append _ _) hbody (not_lt.mp hlong)
    obtain ⟨rest, rfl⟩ := hstart
    rfl

end Sync

/-! ### Reception -/

/-- Where a reception stands: `done` were passed on, `todo` are still to come, and before the first of them there may be
the last bytes of the packet before. -/
structure Between (packets done todo : List PesPacket) (lead : List UInt8) (s : Reception) : Prop where
  packets_eq : packets = done ++ todo
  passed : s.passed = unitsOf done
  bytes : s.rawbuf ++ s.rest = lead ++ streamOf todo
  lead_prefix : lead <+: s.rawbuf
  lead_clean : lead = [] ∨ lead.length = 6 ∧ ¬peshdr <:+: lead
  room : s.rawbuf.length < rawbufSize

section Calls

variable {packets done todo : List PesPacket} {lead : List UInt8} {s : Reception}

theorem pesLen_append {a b : List UInt8} (h : 6 ≤ a.length) : pesLen (a ++ b) = pesLen a := by
  rw [pesLen, pesLen, List.getElem?_append_left (by omega), List.getElem?_append_left (by omega)]

theorem PesPacket.tail_length (p : PesPacket) : p.tail.length = 6 := by
  rw [PesPacket.tail, List.length_drop, p.bytes_length, Nat.add_sub_cancel_left]

theorem streamOf_prefix (todo : List PesPacket) : ∃ more, streamOf todo <+: peshdr ++ more := by
  cases todo with
  | nil => exact ⟨[], List.nil_prefix⟩
  | cons p todo =>
    have hcons : streamOf (p :: todo) = p.bytes ++ streamOf todo := List.flatMap_cons
    rw [hcons, p.bytes_append]
    exact ⟨_, List.prefix_rfl⟩

/-- What `handlePacket` does with the bytes from the start of a packet on. -/
theorem Between.handle {body rest : List UInt8} (hpackets : packets = done ++ todo) (hclean : ∀ p ∈ packets, p.Resyncs)
    (hbytes : body ++ rest = streamOf todo) (hlow : 6 ≤ body.length) (hhigh : body.length ≤ rawbufSize) :
    ∃ r done' todo' lead', handlePacket true body = some r ∧
      Between packets done' todo' lead' ⟨rest, r.2, unitsOf done ++ r.1⟩ := by
  cases todo with
  | nil =>
    have hnil : body = [] := (List.append_eq_nil_iff.mp hbytes).1
    rw [hnil] at hlow
    exact absurd hlow (by decide)
  | cons p todo =>
    have hcons : streamOf (p :: todo) = p.bytes ++ streamOf todo := List.flatMap_cons
    obtain ⟨hunits, hannounced, htail⟩ := hclean p (by rw [hpackets]; simp)
    have hlen := p.bytes_length
    have hpos : 4 ≤ p.len := by
      unfold PesPacket.len
      omega
    by_cases hshort : body.length < p.len + 6
    · refine ⟨([], body), done, p :: todo, [], ?_, ⟨hpackets, List.append_nil _, hbytes, List.nil_prefix, Or.inl rfl, ?_⟩⟩
      · have hpesLen : pesLen body = some p.len := by
          rw [← pesLen_append hlow, hbytes, hcons, p.pesLen]
        have hnine : ¬p.len < 9 := by
          have hunit : 0 < p.units.length := List.length_pos_iff.mpr hunits
          unfold PesPacket.len
          omega
        rw [handlePacket, hpesLen, Option.bind_some, if_neg hnine, if_pos hshort]
      · exact hshort.trans_le p.len_le
    · have hfirst : p.bytes <+: streamOf (p :: todo) := hcons ▸ List.prefix_append _ _
      have hbody : body <+: streamOf (p :: todo) := hbytes ▸ List.prefix_append _ _
      obtain ⟨more, rfl⟩ := List.prefix_of_prefix_length_le hfirst hbody (by rw [hlen]; exact not_lt.mp hshort)
      rw [List.append_assoc, hcons, List.append_cancel_left_eq] at hbytes
      refine ⟨_, done ++ [p], todo, p.tail, p.handle more hunits hannounced,
        ⟨by rw [hpackets, List.append_assoc, List.singleton_append], ?_, ?_, List.prefix_append _ _,
          Or.inr ⟨p.tail_length, htail⟩, ?_⟩⟩
      · simp only [unitsOf, List.flatMap_append, List.flatMap_cons, List.flatMap_nil, List.append_nil]
      · rw [List.append_assoc, hbytes]
      · rw [List.length_append, p.tail_length]
        rw [List.length_append, hlen] at hhigh
        omega

/-- **One call.** -/
theorem Between.call (h : Between packets done todo lead s) (hclean : ∀ p ∈ packets, p.Resyncs) (n : ℕ) :
    ∃ s' done' todo' lead', s.call n = some s' ∧ Between packets done' todo' lead' s' := by
  have hkept : kept s.rawbuf = s.rawbuf := if_neg (not_le.mpr h.room)
  set room := min n (rawbufSize - s.rawbuf.length) with hroom
  have hcall : s.call n = (dvbHandler true s.rawbuf (s.rest.take room)).map fun r =>
      ⟨s.rest.drop room, r.2, s.passed ++ r.1⟩ := by
    rw [Reception.call, hkept]
  rw [hcall, dvbHandler, hkept]
  by_cases hchunk : s.rest.take room = []
  · have hrest : s.rest.drop room = s.rest := by
      have hsplit := List.take_append_drop room s.rest
      rwa [hchunk, List.nil_append] at hsplit
    rw [if_pos hchunk, Option.map_some, hrest]
    exact ⟨_, done, todo, lead, rfl,
      ⟨h.packets_eq, (List.append_nil _).trans h.passed, h.bytes, h.lead_prefix, h.lead_clean, h.room⟩⟩
  · obtain ⟨old, hold⟩ := h.lead_prefix
    obtain ⟨more, hmore⟩ := streamOf_prefix todo
    have hbytes : old ++ s.rest.take room ++ s.rest.drop room = streamOf todo := by
      have hall := h.bytes
      rw [← hold, List.append_assoc, List.append_cancel_left_eq] at hall
      rw [List.append_assoc, List.take_append_drop]
      exact hall
    have hfilled : s.rawbuf ++ s.rest.take room = lead ++ (old ++ s.rest.take room) := by
      rw [← hold, List.append_assoc]
    have hhigh : (s.rawbuf ++ s.rest.take room).length ≤ rawbufSize := by
      have hlt := h.room
      rw [List.length_append, List.length_take]
      omega
    have hbody : old ++ s.rest.take room <+: peshdr ++ more :=
      (hbytes ▸ List.prefix_append _ _ : _ <+: streamOf todo).trans hmore
    rw [if_neg hchunk]
    dsimp only
    rw [h.passed, hfilled]
    rw [hfilled] at hhigh
    set body := old ++ s.rest.take room with hbodyDef
    by_cases hsix : (lead ++ body).length < 6
    · have hempty : lead = [] := h.lead_clean.resolve_right fun hno => by
        rw [List.length_append, hno.1] at hsix
        omega
      rw [if_pos hsix]
      refine ⟨_, done, todo, lead, rfl, ⟨h.packets_eq, List.append_nil _, ?_, List.prefix_append _ _, h.lead_clean, ?_⟩⟩
      · rw [List.append_assoc, hbytes]
      · exact hsix.trans (by decide)
    · rw [if_neg hsix]
      rcases h.lead_clean with hempty | ⟨hlead, hclear⟩
      · subst hempty
        rw [List.nil_append] at hsix hhigh ⊢
        rw [sync_packet hbody (by omega)]
        dsimp only
        rw [if_neg hsix]
        obtain ⟨r, done', todo', lead', hhandle, hbetween⟩ :=
          Between.handle h.packets_eq hclean hbytes (not_lt.mp hsix) hhigh
        exact ⟨_, done', todo', lead', by rw [hhandle]; rfl, hbetween⟩
      · rw [sync_lead hlead hclear hbody]
        by_cases hfour : body.length < 4
        · rw [if_pos hfour]
          refine ⟨_, done, todo, lead, rfl,
            ⟨h.packets_eq, List.append_nil _, ?_, List.prefix_append _ _, h.lead_clean, ?_⟩⟩
          · rw [List.append_assoc, hbytes]
          · rw [List.length_append, hlead]
            unfold rawbufSize
            omega
        · rw [if_neg hfour]
          dsimp only
          rw [List.length_append, hlead] at hhigh
          by_cases hsix' : body.length < 6
          · rw [if_pos hsix']
            refine ⟨_, done, todo, [], rfl,
              ⟨h.packets_eq, List.append_nil _, hbytes, List.nil_prefix, Or.inl rfl, hsix'.trans (by decide)⟩⟩
          · rw [if_neg hsix']
            obtain ⟨r, done', todo', lead', hhandle, hbetween⟩ :=
              Between.handle h.packets_eq hclean hbytes (not_lt.mp hsix') (by omega)
            exact ⟨_, done', todo', lead', by rw [hhandle]; rfl, hbetween⟩

theorem Between.calls (h : Between packets done todo lead s) (hclean : ∀ p ∈ packets, p.Resyncs) (counts : List ℕ) :
    ∃ s' done' todo' lead', s.calls counts = some s' ∧ Between packets done' todo' lead' s' := by
  induction counts generalizing done todo lead s with
  | nil => exact ⟨s, done, todo, lead, rfl, h⟩
  | cons n counts ih =>
    obtain ⟨s₁, done₁, todo₁, lead₁, hcall, h₁⟩ := h.call hclean n
    obtain ⟨s', done', todo', lead', hcalls, h'⟩ := ih h₁
    refine ⟨s', done', todo', lead', ?_, h'⟩
    rw [Reception.calls, List.foldlM_cons, hcall]
    exact hcalls

theorem receive_prefix (hclean : ∀ p ∈ packets, p.Resyncs) (counts : List ℕ) :
    ∃ s, receive (streamOf packets) counts = some s ∧ s.passed <+: unitsOf packets := by
  have hstart : Between packets [] packets [] ⟨streamOf packets, [], []⟩ :=
    ⟨rfl, rfl, rfl, List.nil_prefix, Or.inl rfl, Nat.succ_pos 8191⟩
  obtain ⟨s, done, todo, lead, hcalls, h⟩ := hstart.calls hclean counts
  refine ⟨s, hcalls, ?_⟩
  rw [h.passed, h.packets_eq, unitsOf, unitsOf, List.flatMap_append]
  exact List.prefix_append _ _

end Calls

/-! ### Reads inside the filled part -/

/-- Where data units start, from `p` on: behind each data unit the next one. -/
inductive UnitFrom (buf : List UInt8) (p : ℕ) : ℕ → Prop
  | here : UnitFrom buf p p
  | next {o : ℕ} {n : UInt8} (h : UnitFrom buf p o) (hn : buf[o + 1]? = some n) : UnitFrom buf p (o + 2 + n.toNat)

/-- The payload of a packet with teletext data units: its header does not reach over its end, and the data units that
start before `len` are there. -/
def PayloadFits (rawbuf : List UInt8) (len : ℕ) : Prop :=
  ∀ headerLen, rawbuf[8]? = some headerLen → ∃ dataId, rawbuf[9 + headerLen.toNat]? = some dataId ∧
    (0x10 ≤ dataId ∧ dataId ≤ 0x1f → 9 + headerLen.toNat ≤ len ∧
      ∀ o, UnitFrom (rawbuf.drop (9 + headerLen.toNat)) 1 o → 9 + headerLen.toNat + o < len →
        9 + headerLen.toNat + o + 46 ≤ rawbuf.length)

def FrontFits (filled : List UInt8) : Prop :=
  ∀ rawbuf len, sync filled = some rawbuf → pesLen rawbuf = some len → 9 ≤ len → len + 6 ≤ rawbuf.length →
    PayloadFits rawbuf len

section Inside

variable {buf : List UInt8} {len p : ℕ}

theorem UnitFrom.le {o : ℕ} (h : UnitFrom buf p o) : p ≤ o := by
  induction h with
  | here => exact le_refl p
  | next _ _ ih => omega

theorem UnitFrom.cons {o : ℕ} {n : UInt8} (hn : buf[p + 1]? = some n) (h : UnitFrom buf (p + 2 + n.toNat) o) :
    UnitFrom buf p o := by
  induction h with
  | here => exact .next .here hn
  | next _ hm ih => exact .next ih hm

theorem UnitFrom.cases_head {o : ℕ} (h : UnitFrom buf p o) :
    o = p ∨ ∃ n, buf[p + 1]? = some n ∧ UnitFrom buf (p + 2 + n.toNat) o := by
  induction h with
  | here => exact Or.inl rfl
  | next _ hm ih =>
    rcases ih with rfl | ⟨n, hn, h⟩
    · exact Or.inr ⟨_, hm, .here⟩
    · exact Or.inr ⟨n, hn, .next h hm⟩

theorem unitLoop_isSome (hbuf : buf.length ≤ rawbufSize) {fuel : ℕ} (hfuel : buf.length ≤ fuel + p) :
    (unitLoop buf len (fuel + 1) p).isSome = true ↔ ∀ o, UnitFrom buf p o → o < len → o + 46 ≤ buf.length := by
  induction fuel generalizing p with
  | zero =>
    rw [unitLoop]
    split
    next hlt =>
      rw [if_neg (by omega)]
      refine iff_of_false Bool.false_ne_true fun hall => ?_
      have hfit := hall p .here hlt
      omega
    next hge => exact iff_of_true rfl fun o ho hlt => absurd (ho.le.trans_lt hlt) hge
  | succ fuel ih =>
    rw [unitLoop]
    split
    next hlt =>
      by_cases hroom : p + 4 + 42 ≤ buf.length
      · have hin : p + 1 < buf.length := by omega
        have hn : buf[p + 1]? = some buf[p + 1] := List.getElem?_eq_getElem hin
        have hword : (p + 2 + buf[p + 1].toNat) % 2 ^ 32 = p + 2 + buf[p + 1].toNat := by
          have hbyte := buf[p + 1].toNat_lt
          unfold rawbufSize at hbuf
          omega
        rw [if_pos hroom, hn, Option.bind_some, Option.isSome_map, hword, ih (by omega)]
        constructor
        · intro hall o ho hlt'
          rcases ho.cases_head with rfl | ⟨n, hn', ho'⟩
          · exact hroom
          · obtain rfl := Option.some.inj (hn.symm.trans hn')
            exact hall o ho' hlt'
        · intro hall o ho hlt'
          exact hall o (.cons hn ho) hlt'
      · rw [if_neg hroom]
        refine iff_of_false Bool.false_ne_true fun hall => ?_
        have hfit := hall p .here hlt
        omega
    next hge => exact iff_of_true rfl fun o ho hlt => absurd (ho.le.trans_lt hlt) hge

theorem exists_unit_over (hp : p < buf.length + 256) :
    ∃ o, UnitFrom buf p o ∧ buf.length < o + 46 ∧ o < buf.length + 256 := by
  induction hleft : buf.length + 256 - p using Nat.strong_induction_on generalizing p with
  | _ left ih =>
    by_cases hover : buf.length < p + 46
    · exact ⟨p, .here, hover, hp⟩
    · have hin : p + 1 < buf.length := by omega
      have hn : buf[p + 1]? = some buf[p + 1] := List.getElem?_eq_getElem hin
      have hbyte := buf[p + 1].toNat_lt
      obtain ⟨o, ho, hover', hlt⟩ := ih _ (by omega) (p := p + 2 + buf[p + 1].toNat) (by omega) rfl
      exact ⟨o, .cons hn ho, hover', hlt⟩

theorem memmem_suffix {pat l : List UInt8} {r : List UInt8} (h : memmem pat l = some r) : r <:+ l := by
  induction l with
  | nil => exact absurd h (by simp [memmem])
  | cons b l ih =>
    rw [memmem] at h
    split at h
    · obtain rfl := Option.some.inj h
      exact List.suffix_refl _
    · exact (ih h).trans (List.suffix_cons b l)

theorem sync_suffix {filled rawbuf : List UInt8} (h : sync filled = some rawbuf) : rawbuf <:+ filled := by
  unfold sync at h
  split at h
  · obtain rfl := Option.some.inj h
    exact List.suffix_refl _
  · exact memmem_suffix h

theorem payload_isSome {rawbuf : List UInt8} (hbuf : rawbuf.length ≤ rawbufSize) (hlen : len + 6 ≤ rawbuf.length) :
    (dvbHandlePesPayload (rawbuf.drop p) ((len + 2 ^ 32 - p) % 2 ^ 32)).isSome = true ↔
      ∃ dataId, rawbuf[p]? = some dataId ∧ (0x10 ≤ dataId ∧ dataId ≤ 0x1f → p ≤ len ∧
        ∀ o, UnitFrom (rawbuf.drop p) 1 o → p + o < len → p + o + 46 ≤ rawbuf.length) := by
  have hlength : (rawbuf.drop p).length = rawbuf.length - p := List.length_drop
  rw [dvbHandlePesPayload, List.getElem?_drop, Nat.add_zero]
  cases hid : rawbuf[p]? with
  | none => exact iff_of_false Bool.false_ne_true fun hno => absurd hno.choose_spec.1 (Option.some_ne_none _).symm
  | some dataId =>
    obtain ⟨hp, -⟩ := List.getElem?_eq_some_iff.mp hid
    unfold rawbufSize at hbuf
    rw [Option.bind_some]
    split
    next hother =>
      refine iff_of_true rfl ⟨dataId, rfl, fun hrange => ?_⟩
      rcases hother with hlow | hhigh
      · exact absurd hlow (UInt8.not_lt.mpr hrange.1)
      · exact absurd hhigh (UInt8.not_lt.mpr hrange.2)
    next hrange =>
      obtain ⟨hge, hle⟩ := not_or.mp hrange
      have hteletext : 0x10 ≤ dataId ∧ dataId ≤ 0x1f := ⟨UInt8.not_lt.mp hge, UInt8.not_lt.mp hle⟩
      rw [unitLoop_isSome (by rw [hlength]; unfold rawbufSize; omega) (by omega), hlength]
      by_cases hheader : p ≤ len
      · have hword : (len + 2 ^ 32 - p) % 2 ^ 32 = len - p := by omega
        rw [hword]
        constructor
        · intro hall
          refine ⟨dataId, rfl, fun _ => ⟨hheader, fun o ho hlt => ?_⟩⟩
          have hfit := hall o ho (by omega)
          omega
        · rintro ⟨id', hid', hunits⟩ o ho hlt
          obtain rfl := Option.some.inj hid'
          have hfit := (hunits hteletext).2 o ho (by omega)
          omega
      · refine iff_of_false (fun hall => ?_) fun hunits => ?_
        · obtain ⟨o, ho, hover, hlt⟩ := @exists_unit_over (rawbuf.drop p) 1 (by omega)
          rw [hlength] at hover hlt
          have hfit := hall o ho (by omega)
          omega
        · obtain ⟨id', hid', hrest⟩ := hunits
          obtain rfl := Option.some.inj hid'
          exact hheader (hrest hteletext).1

theorem handlePacket_isSome {clients : Bool} {rawbuf : List UInt8} (hbuf : rawbuf.length ≤ rawbufSize)
    (hsix : 6 ≤ rawbuf.length) : (handlePacket clients rawbuf).isSome = true ↔
      (clients = true → ∀ len, pesLen rawbuf = some len → 9 ≤ len → len + 6 ≤ rawbuf.length → PayloadFits rawbuf len) := by
  obtain ⟨len, hlen⟩ : ∃ len, pesLen rawbuf = some len := by
    rw [pesLen, List.getElem?_eq_getElem (by omega), List.getElem?_eq_getElem (by omega)]
    exact ⟨_, rfl⟩
  rw [handlePacket, hlen, Option.bind_some]
  split
  next hshort =>
    refine iff_of_true rfl fun _ len' hlen' hnine => ?_
    obtain rfl := Option.some.inj hlen'
    exact absurd hshort (not_lt.mpr hnine)
  next hnine =>
    split
    next hshort =>
      refine iff_of_true rfl fun _ len' hlen' _ hsize => ?_
      obtain rfl := Option.some.inj hlen'
      exact absurd hshort (not_lt.mpr hsize)
    next hsize =>
      have hheader : rawbuf[8]? = some rawbuf[8] := List.getElem?_eq_getElem (by omega)
      rw [hheader, Option.bind_some, Option.isSome_map]
      cases clients with
      | false => exact iff_of_true rfl fun hno => absurd hno Bool.false_ne_true
      | true =>
        rw [if_pos rfl, payload_isSome hbuf (not_lt.mp hsize)]
        constructor
        · intro hfits _ len' hlen' _ _ headerLen hheader'
          obtain rfl := Option.some.inj hlen'
          obtain rfl := Option.some.inj (hheader.symm.trans hheader')
          exact hfits
        · intro hfits
          exact hfits rfl len rfl (not_lt.mp hnine) (not_lt.mp hsize) _ hheader

/-- One call reads only what is filled, exactly if the payload of a complete packet in front fits. -/
theorem dvbHandler_isSome {clients : Bool} {rawbuf chunk : List UInt8}
    (hchunk : chunk.length ≤ rawbufSize - (kept rawbuf).length) : (dvbHandler clients rawbuf chunk).isSome = true ↔
      (clients = true → chunk ≠ [] → FrontFits (kept rawbuf ++ chunk)) := by
  have hkept : (kept rawbuf).length ≤ rawbufSize := by
    unfold kept
    split
    · exact Nat.zero_le _
    next hlt => exact (not_le.mp hlt).le
  have hfilled : (kept rawbuf ++ chunk).length ≤ rawbufSize := by
    rw [List.length_append]
    omega
  rw [dvbHandler]
  by_cases hempty : chunk = []
  · rw [if_pos hempty]
    exact iff_of_true rfl fun _ hno => absurd hempty hno
  · rw [if_neg hempty]
    dsimp only
    unfold FrontFits
    split
    next hsix =>
      refine iff_of_true rfl fun _ _ b len hsync _ _ hsize => ?_
      have hle := (sync_suffix hsync).length_le
      omega
    next hsix =>
      cases hsync : sync (kept rawbuf ++ chunk) with
      | none => exact iff_of_true rfl fun _ _ b len hno => absurd hno (Option.some_ne_none b).symm
      | some b =>
        have hle := (sync_suffix hsync).length_le
        dsimp only
        split
        next hshort =>
          refine iff_of_true rfl fun _ _ b' len hb _ _ hsize => ?_
          obtain rfl := Option.some.inj hb
          omega
        next hlong =>
          rw [handlePacket_isSome (hle.trans hfilled) (not_lt.mp hlong)]
          constructor
          · intro hfits hclients _ b' len hb
            obtain rfl := Option.some.inj hb
            exact hfits hclients len
          · intro hfits hclients len
            exact hfits hclients hempty b len rfl

end Inside

/-- **PROVED**: what is passed on is at every moment a prefix of all data units, for packets with data units whose last
six bytes hold no start code; and whatever is received, a call reads only bytes of the filled part exactly if the
payload of a complete packet in front fits. -/
theorem dvbHandler_sound (packets : List PesPacket) (counts : List ℕ) (clients : Bool) (rawbuf chunk : List UInt8)
    (hchunk : chunk.length ≤ rawbufSize - (kept rawbuf).length) :
    ((∀ p ∈ packets, p.Resyncs) → ∃ s, receive (streamOf packets) counts = some s ∧ s.passed <+: unitsOf packets) ∧
      ((dvbHandler clients rawbuf chunk).isSome = true ↔
        (clients = true → chunk ≠ [] → FrontFits (kept rawbuf ++ chunk))) :=
  ⟨fun hclean => receive_prefix hclean counts, dvbHandler_isSome hchunk⟩

def onePacket (bytes : List UInt8) (h : bytes.length = 46) : PesPacket where
  flags₁ := 0
  flags₂ := 0
  header := []
  dataId := 0x10
  units := [⟨bytes, h⟩]
  header_length := by decide
  dataId_range := by decide
  size_le := by
    show 56 ≤ rawbufSize
    decide

/-- Two data units behind a header of three bytes. -/
def twoUnits : PesPacket where
  flags₁ := 0x84
  flags₂ := 0x80
  header := [0x21, 0, 1]
  dataId := 0x10
  units := [⟨2 :: List.replicate 45 44, by decide⟩, ⟨3 :: 44 :: List.replicate 44 7, by decide⟩]
  header_length := by decide
  dataId_range := by decide
  size_le := by
    show 105 ≤ rawbufSize
    decide

/-- Two packets, read in four parts; and the call that reads the rest of the second one. -/
theorem dvbHandler_sound_twoPackets :
    (∃ s, receive (streamOf [onePacket (2 :: List.replicate 45 44) (by decide), twoUnits]) [20, 60, 30, 51] = some s ∧
      s.passed <+: unitsOf [onePacket (2 :: List.replicate 45 44) (by decide), twoUnits] ∧ s.passed.length = 3) ∧
    FrontFits (kept (twoUnits.bytes.take 60) ++ twoUnits.bytes.drop 60) := by
  have hboth := dvbHandler_sound [onePacket (2 :: List.replicate 45 44) (by decide), twoUnits] [20, 60, 30, 51] true
    (twoUnits.bytes.take 60) (twoUnits.bytes.drop 60) (by decide)
  have hclean : ∀ p ∈ [onePacket (2 :: List.replicate 45 44) (by decide), twoUnits], p.Resyncs := by
    intro p hp
    rcases List.mem_pair.mp hp with rfl | rfl
    · refine ⟨List.cons_ne_nil _ _, fun u hu => ?_, by decide⟩
      obtain rfl := List.mem_singleton.mp hu
      rfl
    · refine ⟨List.cons_ne_nil _ _, fun u hu => ?_, by decide⟩
      rcases List.mem_pair.mp hu with rfl | rfl
      · rfl
      · rfl
  obtain ⟨s, hs, hprefix⟩ := hboth.1 hclean
  have hcount : (receive (streamOf [onePacket (2 :: List.replicate 45 44) (by decide), twoUnits])
      [20, 60, 30, 51]).map (·.passed.length) = some 3 := by
    decide
  rw [hs] at hcount
  exact ⟨⟨s, hs, hprefix, Option.some.inj hcount⟩, hboth.2.mp (by decide) rfl (by decide)⟩

/-- A packet that ends in a start code: the next one is not passed on, but the one behind it is. -/
theorem not_dvbHandler_prefix : ¬∀ (packets : List PesPacket) (counts : List ℕ),
    ∃ s, receive (streamOf packets) counts = some s ∧ s.passed <+: unitsOf packets := by
  intro hall
  obtain ⟨s, hreceive, hprefix⟩ := hall
    [onePacket (2 :: List.replicate 41 44 ++ peshdr) (by decide), onePacket (3 :: List.replicate 45 44) (by decide),
      onePacket (2 :: 44 :: List.replicate 44 7) (by decide)] [111, 1, 56]
  have hpassed : (receive (streamOf [onePacket (2 :: List.replicate 41 44 ++ peshdr) (by decide),
      onePacket (3 :: List.replicate 45 44) (by decide), onePacket (2 :: 44 :: List.replicate 44 7) (by decide)])
        [111, 1, 56]).map Reception.passed
      = some [(List.replicate 38 44 ++ peshdr).map byterev8, (List.replicate 42 7).map byterev8] := by
    decide
  rw [hreceive] at hpassed
  rw [Option.some.inj hpassed] at hprefix
  exact absurd hprefix (by decide)

end BgtDvb.Alevt
