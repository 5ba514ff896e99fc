import BgtDvb.Lib.Words
import BgtDvb.TransportPacket

/-!
# The adaptation field of ISO 13818-1

What `transport_packet_values_extract` is for: the layout of the adaptation field, written down from
the syntax tables of the standard and not from the code, and the code against it.

* `clockReference_toNat`, `ltwOffsetOf_toNat`, `piecewiseRateOf_toNat`, `dtsNextAuOf_toNat_iff` — **PROVED**:
  the assembled words against the fields; the decoding time stamp is right exactly if its two top
  bits are zero;
* `field_ok_iff` — **PROVED**: what one optional field does to the cursor;
* `isoDecoded_iff` — **PROVED**: a packet and a mask are decoded as the standard says exactly if
  no seamless splice is decoded in place of a piecewise rate or with a large time stamp.
-/

namespace BgtDvb.Ucsi

open BgtDvb.Words

/-! ### Layout -/

/-- The first `k` bytes at `pos` as one number, most significant first. -/
def isoBytes (pkt : TransportPacket) (pos : ℕ) : ℕ → ℕ
  | 0 => 0
  | k + 1 => isoBytes pkt pos k * 256 + (pkt.at (pos + k)).toNat

/-- The `n` bits that begin `off` bits into the `k` bytes at `pos`. -/
def isoBits (pkt : TransportPacket) (pos k off n : ℕ) : ℕ :=
  isoBytes pkt pos k / 2 ^ (8 * k - off - n) % 2 ^ n

def isoAdaptationEnd (pkt : TransportPacket) : ℕ := 5 + (pkt.at 4).toNat

def isoFlag (pkt : TransportPacket) (f : TransportValue) : Bool := pkt.at 5 &&& f.flag ≠ 0

def isoOpcrOffset (pkt : TransportPacket) : ℕ := if isoFlag pkt .pcr = true then 6 + 6 else 6

def isoSpliceOffset (pkt : TransportPacket) : ℕ :=
  if isoFlag pkt .opcr = true then isoOpcrOffset pkt + 6 else isoOpcrOffset pkt

def isoPrivateOffset (pkt : TransportPacket) : ℕ :=
  if isoFlag pkt .spliceCountdown = true then isoSpliceOffset pkt + 1 else isoSpliceOffset pkt

def isoExtensionOffset (pkt : TransportPacket) : ℕ :=
  if isoFlag pkt .privateData = true then
    isoPrivateOffset pkt + (1 + (pkt.at (isoPrivateOffset pkt)).toNat)
  else isoPrivateOffset pkt

def isoExtFlag (pkt : TransportPacket) (f : TransportValue) : Bool :=
  pkt.at (isoExtensionOffset pkt + 1) &&& f.flag ≠ 0

def isoPiecewiseOffset (pkt : TransportPacket) : ℕ :=
  if isoExtFlag pkt .ltw = true then isoExtensionOffset pkt + 2 + 2 else isoExtensionOffset pkt + 2

def isoSeamlessOffset (pkt : TransportPacket) : ℕ :=
  if isoExtFlag pkt .piecewiseRate = true then isoPiecewiseOffset pkt + 3 else isoPiecewiseOffset pkt

def isoOffset (pkt : TransportPacket) : TransportValue → ℕ
  | .pcr => 6
  | .opcr => isoOpcrOffset pkt
  | .spliceCountdown => isoSpliceOffset pkt
  | .privateData => isoPrivateOffset pkt
  | .ltw => isoExtensionOffset pkt + 2
  | .piecewiseRate => isoPiecewiseOffset pkt
  | .seamlessSplice => isoSeamlessOffset pkt

def isoSize (pkt : TransportPacket) : TransportValue → ℕ
  | .pcr => 6
  | .opcr => 6
  | .spliceCountdown => 1
  | .privateData => 1 + (pkt.at (isoPrivateOffset pkt)).toNat
  | .ltw => 2
  | .piecewiseRate => 3
  | .seamlessSplice => 5

def isoHasFlags (pkt : TransportPacket) : Prop := pkt.hasAdaptation = true ∧ (pkt.at 4).toNat ≠ 0

def isoHasExtFlags (pkt : TransportPacket) : Prop :=
  isoHasFlags pkt ∧ pkt.at 5 &&& extensionFlag ≠ 0 ∧ (pkt.at (isoExtensionOffset pkt)).toNat ≠ 0

def isoAnnounced (pkt : TransportPacket) : TransportValue → Prop
  | .pcr => isoHasFlags pkt ∧ isoFlag pkt .pcr = true
  | .opcr => isoHasFlags pkt ∧ isoFlag pkt .opcr = true
  | .spliceCountdown => isoHasFlags pkt ∧ isoFlag pkt .spliceCountdown = true
  | .privateData => isoHasFlags pkt ∧ isoFlag pkt .privateData = true
  | .ltw => isoHasExtFlags pkt ∧ isoExtFlag pkt .ltw = true
  | .piecewiseRate => isoHasExtFlags pkt ∧ isoExtFlag pkt .piecewiseRate = true
  | .seamlessSplice => isoHasExtFlags pkt ∧ isoExtFlag pkt .seamlessSplice = true

/-! ### Values -/

def IsoValue (pkt : TransportPacket) (v : TransportValues) : TransportValue → Prop
  | .pcr => v.pcr.toNat = isoBits pkt 6 6 0 33 * 300 + isoBits pkt 6 6 39 9
  | .opcr => v.opcr.toNat = isoBits pkt (isoOpcrOffset pkt) 6 0 33 * 300 +
      isoBits pkt (isoOpcrOffset pkt) 6 39 9
  | .spliceCountdown => v.spliceCountdown.toNat = isoBits pkt (isoSpliceOffset pkt) 1 0 8
  | .privateData => v.privateDataLength.toNat = isoBits pkt (isoPrivateOffset pkt) 1 0 8 ∧
      v.privateData = isoPrivateOffset pkt + 1
  | .ltw => isoBits pkt (isoExtensionOffset pkt + 2) 2 0 1 = 1 ∧
      v.ltwOffset.toNat = isoBits pkt (isoExtensionOffset pkt + 2) 2 1 15
  | .piecewiseRate => v.piecewiseRate.toNat = isoBits pkt (isoPiecewiseOffset pkt) 3 2 22
  | .seamlessSplice => v.spliceType.toNat = isoBits pkt (isoSeamlessOffset pkt) 5 0 4 ∧
      v.dtsNextAu.toNat = isoBits pkt (isoSeamlessOffset pkt) 5 4 3 * 2 ^ 30 +
        isoBits pkt (isoSeamlessOffset pkt) 5 8 15 * 2 ^ 15 +
        isoBits pkt (isoSeamlessOffset pkt) 5 24 15

def IsoPayload (pkt : TransportPacket) (v : TransportValues) : Prop :=
  if pkt.hasPayload = true then
    v.payload = some (if pkt.hasAdaptation = true then isoAdaptationEnd pkt else 4) ∧
    v.payloadLength = transportPacketLength - (if pkt.hasAdaptation = true then isoAdaptationEnd pkt else 4)
  else v.payload = none ∧ v.payloadLength = 0

/-- What a caller may rely on: nothing that was not asked for, only fields the packet announces and
that fit in the adaptation field, and their values. -/
structure IsoDecoded (pkt : TransportPacket) (extract mask : BitVec 32) (v : TransportValues) : Prop where
  requested : mask &&& extract = mask
  announced : ∀ f, Wants mask f → isoAnnounced pkt f
  fits : ∀ f, Wants mask f → isoOffset pkt f + isoSize pkt f ≤ isoAdaptationEnd pkt
  inside : mask ≠ 0 → isoAdaptationEnd pkt ≤ transportPacketLength
  value : ∀ f, Wants mask f → IsoValue pkt v f
  payload : IsoPayload pkt v

/-! ### Words assembled from bytes -/

theorem byte32_toNat (b : UInt8) : (byte32 b).toNat = b.toNat :=
  BitVec.toNat_setWidth_of_le (by omega)

theorem byte64_toNat (b : UInt8) : (byte64 b).toNat = b.toNat :=
  BitVec.toNat_setWidth_of_le (by omega)

theorem clockReference_toNat (pkt : TransportPacket) (pos : ℕ) : (clockReference pkt pos).toNat =
    isoBits pkt pos 6 0 33 * 300 + isoBits pkt pos 6 39 9 := by
  have h0 := (pkt.at pos).toNat_lt
  have h1 := (pkt.at (pos + 1)).toNat_lt
  have h2 := (pkt.at (pos + 2)).toNat_lt
  have h3 := (pkt.at (pos + 3)).toNat_lt
  have h4 := (pkt.at (pos + 4)).toNat_lt
  have h5 := (pkt.at (pos + 5)).toNat_lt
  have hbase : ((byte64 (pkt.at pos) <<< 25) ||| (byte64 (pkt.at (pos + 1)) <<< 17) |||
      (byte64 (pkt.at (pos + 2)) <<< 9) ||| (byte64 (pkt.at (pos + 3)) <<< 1) |||
      (byte64 (pkt.at (pos + 4)) >>> 7)).toNat = isoBits pkt pos 6 0 33 := by
    simp only [BitVec.toNat_or, BitVec.toNat_ushiftRight, Nat.shiftRight_eq_div_pow]
    rw [toNat_shiftLeft_of_lt _ _ (by rw [byte64_toNat]; omega),
      toNat_shiftLeft_of_lt _ _ (by rw [byte64_toNat]; omega),
      toNat_shiftLeft_of_lt _ _ (by rw [byte64_toNat]; omega),
      toNat_shiftLeft_of_lt _ _ (by rw [byte64_toNat]; omega)]
    simp only [byte64_toNat]
    rw [or_eq_add (a := _ * _) 25 (by omega) (by omega), or_eq_add (a := _ + _) 17 (by omega) (by omega),
      or_eq_add (a := _ + _) 9 (by omega) (by omega), or_eq_add (a := _ + _) 1 (by omega) (by omega)]
    simp only [isoBits, isoBytes, Nat.add_zero]
    omega
  have hext : (((byte64 (pkt.at (pos + 4)) &&& 1#64) <<< 8) ||| byte64 (pkt.at (pos + 5))).toNat
      = isoBits pkt pos 6 39 9 := by
    have hone : (byte64 (pkt.at (pos + 4)) &&& 1#64).toNat = (pkt.at (pos + 4)).toNat % 2 := by
      rw [BitVec.toNat_and, byte64_toNat]
      exact Nat.and_two_pow_sub_one_eq_mod _ 1
    rw [BitVec.toNat_or, toNat_shiftLeft_of_lt _ _ (by rw [hone]; omega), hone, byte64_toNat,
      or_eq_add 8 (by omega) (by omega)]
    simp only [isoBits, isoBytes, Nat.add_zero]
    omega
  have hlt33 : isoBits pkt pos 6 0 33 < 2 ^ 33 := Nat.mod_lt _ (Nat.two_pow_pos 33)
  have hlt9 : isoBits pkt pos 6 39 9 < 2 ^ 9 := Nat.mod_lt _ (Nat.two_pow_pos 9)
  simp only [clockReference]
  rw [BitVec.toNat_add, BitVec.toNat_mul, hbase, hext]
  show (isoBits pkt pos 6 0 33 * 300 % 2 ^ 64 + isoBits pkt pos 6 39 9) % 2 ^ 64 = _
  omega

theorem byte32_and_low (b : UInt8) (k : ℕ) (m : BitVec 32) (hm : m.toNat = 2 ^ k - 1) :
    (byte32 b &&& m).toNat = b.toNat % 2 ^ k := by
  rw [BitVec.toNat_and, byte32_toNat, hm, Nat.and_two_pow_sub_one_eq_mod]

theorem ltwOffsetOf_toNat (pkt : TransportPacket) (pos : ℕ) :
    (ltwOffsetOf pkt pos).toNat = isoBits pkt pos 2 1 15 := by
  have h0 := (pkt.at pos).toNat_lt
  have h1 := (pkt.at (pos + 1)).toNat_lt
  have hlow := byte32_and_low (pkt.at pos) 7 0x7f#32 rfl
  rw [ltwOffsetOf, BitVec.toNat_setWidth, BitVec.toNat_or,
    toNat_shiftLeft_of_lt _ _ (by rw [hlow]; omega), hlow, byte32_toNat,
    or_eq_add 8 (by omega) (by omega)]
  simp only [isoBits, isoBytes, Nat.add_zero]
  omega

theorem piecewiseRateOf_toNat (pkt : TransportPacket) (pos : ℕ) :
    (piecewiseRateOf pkt pos).toNat = isoBits pkt pos 3 2 22 := by
  have h0 := (pkt.at pos).toNat_lt
  have h1 := (pkt.at (pos + 1)).toNat_lt
  have h2 := (pkt.at (pos + 2)).toNat_lt
  have hlow := byte32_and_low (pkt.at pos) 6 0x3f#32 rfl
  rw [piecewiseRateOf, BitVec.toNat_or, BitVec.toNat_or,
    toNat_shiftLeft_of_lt _ _ (by rw [hlow]; omega),
    toNat_shiftLeft_of_lt _ _ (by rw [byte32_toNat]; omega), hlow, byte32_toNat, byte32_toNat,
    or_eq_add (a := _ * _) 16 (by omega) (by omega), or_eq_add (a := _ + _) 8 (by omega) (by omega)]
  simp only [isoBits, isoBytes, Nat.add_zero]
  omega

/-! ### The decoding time stamp -/

theorem and_0e (b : UInt8) : b.toNat &&& 0x0e = b.toNat / 2 % 8 * 2 := by
  have hall : ∀ n : Fin 256, n.val &&& 0x0e = n.val / 2 % 8 * 2 := by decide +kernel
  exact hall ⟨b.toNat, b.toNat_lt⟩

theorem and_fe (b : UInt8) : b.toNat &&& 0xfe = b.toNat / 2 * 2 := by
  have hall : ∀ n : Fin 256, n.val &&& 0xfe = n.val / 2 * 2 := by decide +kernel
  exact hall ⟨b.toNat, b.toNat_lt⟩

/-- The time stamp in 32 bits: the standard's value without its top bit. -/
def dtsWord (pkt : TransportPacket) (pos : ℕ) : BitVec 32 :=
  ((byte32 (pkt.at pos) &&& 0x0e#32) <<< 29) ||| (byte32 (pkt.at (pos + 1)) <<< 22) |||
    ((byte32 (pkt.at (pos + 2)) &&& 0xfe#32) <<< 14) ||| (byte32 (pkt.at (pos + 3)) <<< 7) |||
    ((byte32 (pkt.at (pos + 4)) &&& 0xfe#32) >>> 1)

/-- `DTS_next_AU` of the standard. -/
def isoDts (pkt : TransportPacket) (pos : ℕ) : ℕ :=
  isoBits pkt pos 5 4 3 * 2 ^ 30 + isoBits pkt pos 5 8 15 * 2 ^ 15 + isoBits pkt pos 5 24 15

theorem dtsWord_toNat (pkt : TransportPacket) (pos : ℕ) :
    (dtsWord pkt pos).toNat = isoDts pkt pos % 2 ^ 32 := by
  have h0 := (pkt.at pos).toNat_lt
  have h1 := (pkt.at (pos + 1)).toNat_lt
  have h2 := (pkt.at (pos + 2)).toNat_lt
  have h3 := (pkt.at (pos + 3)).toNat_lt
  have h4 := (pkt.at (pos + 4)).toNat_lt
  have ha0 : (byte32 (pkt.at pos) &&& 0x0e#32).toNat = (pkt.at pos).toNat / 2 % 8 * 2 := by
    rw [BitVec.toNat_and, byte32_toNat]
    exact and_0e _
  have ha2 : (byte32 (pkt.at (pos + 2)) &&& 0xfe#32).toNat = (pkt.at (pos + 2)).toNat / 2 * 2 := by
    rw [BitVec.toNat_and, byte32_toNat]
    exact and_fe _
  have ha4 : (byte32 (pkt.at (pos + 4)) &&& 0xfe#32).toNat = (pkt.at (pos + 4)).toNat / 2 * 2 := by
    rw [BitVec.toNat_and, byte32_toNat]
    exact and_fe _
  have htop : ((byte32 (pkt.at pos) &&& 0x0e#32) <<< 29).toNat
      = (pkt.at pos).toNat / 2 % 4 * 2 ^ 30 := by
    rw [BitVec.toNat_shiftLeft, Nat.shiftLeft_eq, ha0]
    omega
  simp only [dtsWord, BitVec.toNat_or, BitVec.toNat_ushiftRight, Nat.shiftRight_eq_div_pow]
  rw [htop, toNat_shiftLeft_of_lt _ _ (by rw [byte32_toNat]; omega),
    toNat_shiftLeft_of_lt _ _ (by rw [ha2]; omega),
    toNat_shiftLeft_of_lt _ _ (by rw [byte32_toNat]; omega), ha2, ha4, byte32_toNat, byte32_toNat,
    or_eq_add (a := _ * _) 30 (by omega) (by omega), or_eq_add (a := _ + _) 22 (by omega) (by omega),
    or_eq_add (a := _ + _) 15 (by omega) (by omega), or_eq_add (a := _ + _) 7 (by omega) (by omega)]
  have hbits3 : isoBits pkt pos 5 4 3 = (pkt.at pos).toNat / 2 % 8 := by
    simp only [isoBits, isoBytes, Nat.add_zero]
    omega
  have hbits15 : isoBits pkt pos 5 8 15 = (pkt.at (pos + 1)).toNat * 2 ^ 7 + (pkt.at (pos + 2)).toNat / 2 := by
    simp only [isoBits, isoBytes, Nat.add_zero]
    omega
  have hbits15' : isoBits pkt pos 5 24 15
      = (pkt.at (pos + 3)).toNat * 2 ^ 7 + (pkt.at (pos + 4)).toNat / 2 := by
    simp only [isoBits, isoBytes, Nat.add_zero]
    omega
  rw [isoDts, hbits3, hbits15, hbits15']
  omega

theorem dtsNextAuOf_toNat_iff (pkt : TransportPacket) (pos : ℕ) :
    (dtsNextAuOf pkt pos).toNat = isoDts pkt pos ↔ isoBits pkt pos 5 4 2 = 0 := by
  have hlt3 : isoBits pkt pos 5 4 3 < 2 ^ 3 := Nat.mod_lt _ (Nat.two_pow_pos 3)
  have hlt15 : isoBits pkt pos 5 8 15 < 2 ^ 15 := Nat.mod_lt _ (Nat.two_pow_pos 15)
  have hlt15' : isoBits pkt pos 5 24 15 < 2 ^ 15 := Nat.mod_lt _ (Nat.two_pow_pos 15)
  have hhalf : isoBits pkt pos 5 4 2 = isoBits pkt pos 5 4 3 / 2 := by
    simp only [isoBits]
    omega
  have hsigned : (dtsNextAuOf pkt pos).toNat
      = isoDts pkt pos % 2 ^ 32 + if isoDts pkt pos % 2 ^ 32 < 2 ^ 31 then 0 else 2 ^ 64 - 2 ^ 32 := by
    show ((dtsWord pkt pos).signExtend 64).toNat = _
    rw [BitVec.toNat_signExtend, BitVec.toNat_setWidth_of_le (by omega), BitVec.msb_eq_decide,
      dtsWord_toNat]
    simp only [decide_eq_true_eq]
    split <;> split <;> omega
  rw [hsigned, hhalf]
  unfold isoDts
  split <;> omega

/-! ### Masks -/

theorem wants_zero (f : TransportValue) : ¬ Wants 0 f := by
  simp [Wants]

theorem wants_or_bit (m : BitVec 32) (f g : TransportValue) :
    Wants (m ||| f.bit) g ↔ Wants m g ∨ g = f := by
  have hbits : f.bit &&& g.bit ≠ 0 ↔ g = f := by cases f <;> cases g <;> decide
  unfold Wants
  rw [BitVec.and_or_distrib_right, ← hbits]
  show ¬ (_ = 0#32) ↔ ¬ (_ = 0#32) ∨ ¬ (_ = 0#32)
  rw [BitVec.or_eq_zero_iff]
  tauto

theorem bit_eq_twoPow (f : TransportValue) : ∃ i, f.bit = BitVec.twoPow 32 i := by
  cases f with
  | pcr => exact ⟨0, rfl⟩
  | opcr => exact ⟨1, rfl⟩
  | spliceCountdown => exact ⟨2, rfl⟩
  | privateData => exact ⟨3, rfl⟩
  | ltw => exact ⟨8, rfl⟩
  | piecewiseRate => exact ⟨9, rfl⟩
  | seamlessSplice => exact ⟨10, rfl⟩

theorem wants_iff_and_eq (m : BitVec 32) (f : TransportValue) : Wants m f ↔ f.bit &&& m = f.bit := by
  have hne : f.bit ≠ 0 := by cases f <;> decide
  obtain ⟨i, hi⟩ := bit_eq_twoPow f
  unfold Wants
  rw [BitVec.and_comm f.bit, hi, BitVec.and_twoPow, ← hi]
  split
  · exact iff_of_true hne rfl
  · exact iff_of_false (fun h => h rfl) hne.symm

variable {f : TransportValue} {announced wanted : Bool} {pkt : TransportPacket}

theorem wants_of_requested {mask extract : BitVec 32} (h : mask &&& extract = mask) (hf : Wants mask f) :
    Wants extract f := by
  rw [wants_iff_and_eq] at hf ⊢
  calc f.bit &&& extract = f.bit &&& mask &&& extract := by rw [hf]
    _ = f.bit &&& (mask &&& extract) := BitVec.and_assoc _ _ _
    _ = f.bit := by rw [h, hf]

/-! ### One optional field -/

def Cursor.advance (c : Cursor) (pkt : TransportPacket) (f : TransportValue) (announced wanted : Bool)
    (size : ℕ) : Cursor :=
  if announced = true then
    { (if wanted = true then c.take pkt f else c) with pos := c.pos + size }
  else c

variable {c c' : Cursor}

/-- **One optional field** succeeds exactly if it ends in time, and moves the cursor behind it. -/
theorem field_ok_iff {adapend : ℕ} {size : ℕ} : field pkt adapend f announced wanted size c = .ok c' ↔
      (announced = true → c.pos + size ≤ adapend) ∧ c' = c.advance pkt f announced wanted size := by
  unfold field Cursor.advance
  by_cases ha : announced = true
  · rw [if_pos ha, if_pos ha]
    by_cases hs : c.pos + size > adapend
    · simp [ha, hs]
    · simp only [hs, if_false, Except.ok.injEq, ha, forall_const]
      exact ⟨fun h => ⟨by omega, h.symm⟩, fun h => h.2.symm⟩
  · rw [if_neg ha, if_neg ha]
    simp only [ha, Except.ok.injEq]
    exact ⟨fun h => ⟨fun h' => absurd h' (by simp), h.symm⟩, fun h => h.2.symm⟩

theorem privateDataField_ok_iff {adapend : ℕ} :
    privateDataField pkt adapend announced wanted c = .ok c' ↔
      (announced = true → c.pos + (1 + (pkt.at c.pos).toNat) ≤ adapend) ∧
      c' = c.advance pkt .privateData announced wanted (1 + (pkt.at c.pos).toNat) := by
  unfold privateDataField
  split
  · rename_i h
    constructor
    · intro h'
      exact absurd h' (by simp)
    · rintro ⟨h', _⟩
      have := h' h.1
      omega
  · exact field_ok_iff

theorem advance_pos (c : Cursor) (pkt : TransportPacket) (f : TransportValue) (announced wanted : Bool)
    (size : ℕ) : (c.advance pkt f announced wanted size).pos
      = if announced = true then c.pos + size else c.pos := by
  unfold Cursor.advance
  split <;> rfl

theorem advance_extracted (c : Cursor) (pkt : TransportPacket) (f : TransportValue)
    (announced wanted : Bool) (size : ℕ) : (c.advance pkt f announced wanted size).extracted
      = if announced = true ∧ wanted = true then c.extracted ||| f.bit else c.extracted := by
  unfold Cursor.advance
  cases announced <;> cases wanted <;> rfl

theorem advance_out (c : Cursor) (pkt : TransportPacket) (f : TransportValue) (announced wanted : Bool)
    (size : ℕ) : (c.advance pkt f announced wanted size).out
      = if announced = true ∧ wanted = true then c.out.store pkt c.pos f else c.out := by
  unfold Cursor.advance
  cases announced <;> cases wanted <;> rfl

/-! ### The invariant of the walk -/

/-- Everything decoded so far was asked for, is announced, fits and is right. -/
structure Sound (pkt : TransportPacket) (extract : BitVec 32) (c : Cursor) : Prop where
  requested : c.extracted &&& extract = c.extracted
  decoded : ∀ f, Wants c.extracted f → isoAnnounced pkt f ∧
    isoOffset pkt f + isoSize pkt f ≤ isoAdaptationEnd pkt ∧ IsoValue pkt c.out f

theorem isoValue_store_of_ne {out : TransportValues} {pos : ℕ} {g : TransportValue} (h : g ≠ f) :
    IsoValue pkt (out.store pkt pos f) g ↔ IsoValue pkt out g := by
  cases f <;> cases g <;> first | exact absurd rfl h | exact Iff.rfl

/-- The decoded values are those of the standard, up to the time stamp. -/
theorem isoValue_store (pkt : TransportPacket) (out : TransportValues) (f : TransportValue)
    (hltw : f = .ltw → pkt.at (isoExtensionOffset pkt + 2) &&& 0x80 ≠ 0) :
    IsoValue pkt (out.store pkt (isoOffset pkt f) f) f ↔
      (f = .seamlessSplice → isoBits pkt (isoSeamlessOffset pkt) 5 4 2 = 0) := by
  have hbyte : ∀ pos, (pkt.at pos).toNat = isoBits pkt pos 1 0 8 := by
    intro pos
    have := (pkt.at pos).toNat_lt
    simp only [isoBits, isoBytes, Nat.add_zero]
    omega
  cases f with
  | pcr => exact iff_of_true (clockReference_toNat pkt _) (by simp)
  | opcr => exact iff_of_true (clockReference_toNat pkt _) (by simp)
  | spliceCountdown => exact iff_of_true (hbyte _) (by simp)
  | privateData => exact iff_of_true ⟨hbyte _, rfl⟩ (by simp)
  | ltw =>
    refine iff_of_true ⟨?_, ltwOffsetOf_toNat pkt _⟩ (by simp)
    have hbit : ∀ n : Fin 256, n.val &&& 0x80 ≠ 0 → n.val / 2 ^ 7 = 1 := by decide +kernel
    have hvalid := hltw rfl
    generalize isoExtensionOffset pkt + 2 = pos at hvalid ⊢
    have h1 := (pkt.at (pos + 1)).toNat_lt
    have h0 := hbit ⟨(pkt.at pos).toNat, (pkt.at pos).toNat_lt⟩ (fun h => hvalid (UInt8.toNat_inj.mp h))
    simp only [isoBits, isoBytes, Nat.add_zero]
    simp only at h0
    omega
  | piecewiseRate => exact iff_of_true (piecewiseRateOf_toNat pkt _) (by simp)
  | seamlessSplice =>
    have htype : (pkt.at (isoSeamlessOffset pkt) >>> 4).toNat
        = isoBits pkt (isoSeamlessOffset pkt) 5 0 4 := by
      generalize isoSeamlessOffset pkt = pos
      have h0 := (pkt.at pos).toNat_lt
      have h1 := (pkt.at (pos + 1)).toNat_lt
      have h2 := (pkt.at (pos + 2)).toNat_lt
      have h3 := (pkt.at (pos + 3)).toNat_lt
      have h4 := (pkt.at (pos + 4)).toNat_lt
      rw [UInt8.toNat_shiftRight, Nat.shiftRight_eq_div_pow]
      simp only [isoBits, isoBytes, Nat.add_zero]
      show (pkt.at pos).toNat / 2 ^ 4 = _
      omega
    rw [← dtsNextAuOf_toNat_iff]
    simp only [forall_const]
    exact ⟨fun h => h.2, fun h => ⟨htype, h⟩⟩

/-- **One optional field keeps the invariant**, if what it decodes is sound. -/
theorem sound_advance {extract : BitVec 32} (hc : Sound pkt extract c) {size : ℕ} (hpos : c.pos = isoOffset pkt f)
    (h : announced = true → wanted = true → Wants extract f ∧ isoAnnounced pkt f ∧
      isoOffset pkt f + isoSize pkt f ≤ isoAdaptationEnd pkt ∧
      IsoValue pkt (c.out.store pkt (isoOffset pkt f) f) f) :
    Sound pkt extract (c.advance pkt f announced wanted size) := by
  by_cases hd : announced = true ∧ wanted = true
  · obtain ⟨hw, ha, hfit, hval⟩ := h hd.1 hd.2
    constructor
    · rw [advance_extracted, if_pos hd, BitVec.and_or_distrib_right, hc.requested,
        (wants_iff_and_eq extract f).mp hw]
    · intro g hg
      rw [advance_extracted, if_pos hd, wants_or_bit] at hg
      rw [advance_out, if_pos hd, hpos]
      by_cases hgf : g = f
      · subst hgf
        exact ⟨ha, hfit, hval⟩
      · obtain ⟨h1, h2, h3⟩ := hc.decoded g (hg.resolve_right hgf)
        exact ⟨h1, h2, (isoValue_store_of_ne hgf).mpr h3⟩
  · constructor
    · rw [advance_extracted, if_neg hd]
      exact hc.requested
    · intro g hg
      rw [advance_extracted, if_neg hd] at hg
      rw [advance_out, if_neg hd]
      exact hc.decoded g hg

/-! ### The walk -/

theorem bind_eq_ok {ε α β : Type} {x : Except ε α} {k : α → Except ε β} {b : β} :
    x >>= k = .ok b ↔ ∃ a, x = .ok a ∧ k a = .ok b := by
  cases x with
  | error e => exact ⟨fun h => absurd h (by simp [bind, Except.bind]), fun ⟨_, h, _⟩ => absurd h (by simp)⟩
  | ok a => exact ⟨fun h => ⟨a, rfl, h⟩, fun ⟨a', ha, h⟩ => by cases ha; exact h⟩

variable (pkt : TransportPacket) (extract : BitVec 32)

/-- The cursor behind each of the fields in front of the extension. -/
def pcrWalk (out : TransportValues) : Cursor :=
  (⟨6, 0, out⟩ : Cursor).advance pkt .pcr (isoFlag pkt .pcr) (Wants extract .pcr) 6

def opcrWalk (out : TransportValues) : Cursor :=
  (pcrWalk pkt extract out).advance pkt .opcr (isoFlag pkt .opcr) (Wants extract .opcr) 6

def spliceWalk (out : TransportValues) : Cursor :=
  (opcrWalk pkt extract out).advance pkt .spliceCountdown (isoFlag pkt .spliceCountdown)
    (Wants extract .spliceCountdown) 1

def frontWalk (out : TransportValues) : Cursor :=
  (spliceWalk pkt extract out).advance pkt .privateData (isoFlag pkt .privateData)
    (Wants extract .privateData) (isoSize pkt .privateData)

def ltwWalk (c : Cursor) : Cursor :=
  c.advance pkt .ltw (isoExtFlag pkt .ltw)
    (Wants extract .ltw ∧ pkt.at (isoExtensionOffset pkt + 2) &&& 0x80 ≠ 0) 2

def piecewiseWalk (c : Cursor) : Cursor :=
  (ltwWalk pkt extract c).advance pkt .piecewiseRate (isoExtFlag pkt .piecewiseRate)
    (Wants extract .piecewiseRate) 3

def extWalk (c : Cursor) : Cursor :=
  (piecewiseWalk pkt extract c).advance pkt .seamlessSplice (isoExtFlag pkt .seamlessSplice)
    (Wants extract .piecewiseRate) 5

theorem pcrWalk_pos (out : TransportValues) : (pcrWalk pkt extract out).pos = isoOpcrOffset pkt :=
  advance_pos _ _ _ _ _ _

theorem opcrWalk_pos (out : TransportValues) : (opcrWalk pkt extract out).pos = isoSpliceOffset pkt := by
  rw [opcrWalk, advance_pos, pcrWalk_pos]
  rfl

theorem spliceWalk_pos (out : TransportValues) :
    (spliceWalk pkt extract out).pos = isoPrivateOffset pkt := by
  rw [spliceWalk, advance_pos, opcrWalk_pos]
  rfl

theorem frontWalk_pos (out : TransportValues) :
    (frontWalk pkt extract out).pos = isoExtensionOffset pkt := by
  rw [frontWalk, advance_pos, spliceWalk_pos]
  rfl

theorem ltwWalk_pos (hc : c.pos = isoExtensionOffset pkt + 2) :
    (ltwWalk pkt extract c).pos = isoPiecewiseOffset pkt := by
  rw [ltwWalk, advance_pos, hc]
  rfl

theorem piecewiseWalk_pos (hc : c.pos = isoExtensionOffset pkt + 2) :
    (piecewiseWalk pkt extract c).pos = isoSeamlessOffset pkt := by
  rw [piecewiseWalk, advance_pos, ltwWalk_pos pkt extract hc]
  rfl

def FrontFits : Prop :=
  ∀ f ∈ [TransportValue.pcr, .opcr, .spliceCountdown, .privateData], isoFlag pkt f = true →
    isoOffset pkt f + isoSize pkt f ≤ isoAdaptationEnd pkt

def ExtFits : Prop :=
  ∀ f ∈ [TransportValue.ltw, .piecewiseRate, .seamlessSplice], isoExtFlag pkt f = true →
    isoOffset pkt f + isoSize pkt f ≤ isoAdaptationEnd pkt

theorem adaptationFields_ok_iff {out : TransportValues} :
    adaptationFields pkt extract (isoAdaptationEnd pkt) (pkt.at 5) ⟨6, 0, out⟩ = .ok c' ↔
      FrontFits pkt ∧ adaptationExtension pkt extract (isoAdaptationEnd pkt) (pkt.at 5)
        (frontWalk pkt extract out) = .ok c' := by
  have hp1 := pcrWalk_pos pkt extract out
  have hp2 := opcrWalk_pos pkt extract out
  have hp3 := spliceWalk_pos pkt extract out
  have hsize : 1 + (pkt.at (spliceWalk pkt extract out).pos).toNat = isoSize pkt .privateData := by
    rw [hp3]
    rfl
  unfold adaptationFields
  simp only [bind_eq_ok, field_ok_iff, privateDataField_ok_iff]
  constructor
  · rintro ⟨c1, ⟨h1, rfl⟩, c2, ⟨h2, rfl⟩, c3, ⟨h3, rfl⟩, c4, ⟨h4, rfl⟩, h5⟩
    change _ → (pcrWalk pkt extract out).pos + 6 ≤ _ at h2
    change _ → (opcrWalk pkt extract out).pos + 1 ≤ _ at h3
    change _ → (spliceWalk pkt extract out).pos + (1 + (pkt.at (spliceWalk pkt extract out).pos).toNat) ≤ _ at h4
    change adaptationExtension pkt extract _ _ ((spliceWalk pkt extract out).advance pkt .privateData _ _
      (1 + (pkt.at (spliceWalk pkt extract out).pos).toNat)) = _ at h5
    rw [hsize] at h4 h5
    rw [hp1] at h2
    rw [hp2] at h3
    rw [hp3] at h4
    refine ⟨?_, h5⟩
    intro f hf
    simp only [List.mem_cons, List.not_mem_nil, or_false] at hf
    rcases hf with rfl | rfl | rfl | rfl
    · exact h1
    · exact h2
    · exact h3
    · exact h4
  · rintro ⟨hfit, h5⟩
    refine ⟨_, ⟨hfit .pcr (by simp), rfl⟩, _, ⟨?_, rfl⟩, _, ⟨?_, rfl⟩, _, ⟨?_, rfl⟩, ?_⟩
    · show _ → (pcrWalk pkt extract out).pos + 6 ≤ _
      rw [hp1]
      exact hfit .opcr (by simp)
    · show _ → (opcrWalk pkt extract out).pos + 1 ≤ _
      rw [hp2]
      exact hfit .spliceCountdown (by simp)
    · show _ → (spliceWalk pkt extract out).pos + (1 + (pkt.at (spliceWalk pkt extract out).pos).toNat) ≤ _
      rw [hsize, hp3]
      exact hfit .privateData (by simp)
    · show adaptationExtension pkt extract _ _ ((spliceWalk pkt extract out).advance pkt .privateData _ _
        (1 + (pkt.at (spliceWalk pkt extract out).pos).toNat)) = _
      rw [hsize]
      exact h5

theorem extensionFields_ok_iff (hc : c.pos = isoExtensionOffset pkt + 1) :
    extensionFields pkt extract (isoAdaptationEnd pkt) c = .ok c' ↔
      ExtFits pkt ∧ c' = extWalk pkt extract { c with pos := c.pos + 1 } := by
  have hpos : ({ c with pos := c.pos + 1 } : Cursor).pos = isoExtensionOffset pkt + 2 := by
    show c.pos + 1 = _
    omega
  have hp1 := ltwWalk_pos pkt extract hpos
  have hp2 := piecewiseWalk_pos pkt extract hpos
  unfold extensionFields
  simp only [bind_eq_ok, field_ok_iff, hc]
  rw [hc] at hp1 hp2
  constructor
  · rintro ⟨c1, ⟨h1, rfl⟩, c2, ⟨h2, rfl⟩, h3, rfl⟩
    change _ → (ltwWalk pkt extract _).pos + 3 ≤ _ at h2
    change _ → (piecewiseWalk pkt extract _).pos + 5 ≤ _ at h3
    rw [hp1] at h2
    rw [hp2] at h3
    refine ⟨?_, rfl⟩
    intro f hf
    simp only [List.mem_cons, List.not_mem_nil, or_false] at hf
    rcases hf with rfl | rfl | rfl
    · exact h1
    · exact h2
    · exact h3
  · rintro ⟨hfit, rfl⟩
    refine ⟨_, ⟨hfit .ltw (by simp), rfl⟩, _, ⟨?_, rfl⟩, ?_, rfl⟩
    · show _ → (ltwWalk pkt extract _).pos + 3 ≤ _
      rw [hp1]
      exact hfit .piecewiseRate (by simp)
    · show _ → (piecewiseWalk pkt extract _).pos + 5 ≤ _
      rw [hp2]
      exact hfit .seamlessSplice (by simp)

/-! ### Soundness of the walk -/

theorem sound_front (out : TransportValues) (hflags : isoHasFlags pkt) (hfit : FrontFits pkt) :
    Sound pkt extract (frontWalk pkt extract out) := by
  have h0 : Sound pkt extract ⟨6, 0, out⟩ :=
    ⟨BitVec.zero_and, fun f hf => absurd hf (wants_zero f)⟩
  have hval : ∀ (v : TransportValues) f, f ∈ [TransportValue.pcr, .opcr, .spliceCountdown, .privateData] →
      IsoValue pkt (v.store pkt (isoOffset pkt f) f) f := by
    intro v f hf
    refine (isoValue_store pkt v f ?_).mpr ?_
    all_goals
      rintro rfl
      exact absurd hf (by decide)
  have h1 : Sound pkt extract (pcrWalk pkt extract out) :=
    sound_advance h0 rfl fun ha hw =>
      ⟨of_decide_eq_true hw, ⟨hflags, ha⟩, hfit .pcr (by simp) ha, hval _ _ (by simp)⟩
  have h2 : Sound pkt extract (opcrWalk pkt extract out) :=
    sound_advance h1 (pcrWalk_pos pkt extract out) fun ha hw =>
      ⟨of_decide_eq_true hw, ⟨hflags, ha⟩, hfit .opcr (by simp) ha, hval _ _ (by simp)⟩
  have h3 : Sound pkt extract (spliceWalk pkt extract out) :=
    sound_advance h2 (opcrWalk_pos pkt extract out) fun ha hw =>
      ⟨of_decide_eq_true hw, ⟨hflags, ha⟩, hfit .spliceCountdown (by simp) ha, hval _ _ (by simp)⟩
  exact sound_advance h3 (spliceWalk_pos pkt extract out) fun ha hw =>
    ⟨of_decide_eq_true hw, ⟨hflags, ha⟩, hfit .privateData (by simp) ha, hval _ _ (by simp)⟩

theorem sound_ext (hc : Sound pkt extract c) (hpos : c.pos = isoExtensionOffset pkt + 2) (hflags : isoHasExtFlags pkt)
    (hfit : ExtFits pkt) (hseam : isoExtFlag pkt .seamlessSplice = true → Wants extract .piecewiseRate →
      Wants extract .seamlessSplice ∧ isoBits pkt (isoSeamlessOffset pkt) 5 4 2 = 0) :
    Sound pkt extract (extWalk pkt extract c) := by
  have h1 : Sound pkt extract (ltwWalk pkt extract c) := by
    refine sound_advance hc hpos fun ha hw => ?_
    obtain ⟨hwant, hvalid⟩ := of_decide_eq_true hw
    exact ⟨hwant, ⟨hflags, ha⟩, hfit .ltw (by simp) ha,
      (isoValue_store pkt c.out .ltw fun _ => hvalid).mpr (by simp)⟩
  have h2 : Sound pkt extract (piecewiseWalk pkt extract c) :=
    sound_advance h1 (ltwWalk_pos pkt extract hpos) fun ha hw =>
      ⟨of_decide_eq_true hw, ⟨hflags, ha⟩, hfit .piecewiseRate (by simp) ha,
        (isoValue_store pkt _ .piecewiseRate (by simp)).mpr (by simp)⟩
  refine sound_advance h2 (piecewiseWalk_pos pkt extract hpos) fun ha hw => ?_
  obtain ⟨hwant, htop⟩ := hseam ha (of_decide_eq_true hw)
  exact ⟨hwant, ⟨hflags, ha⟩, hfit .seamlessSplice (by simp) ha,
    (isoValue_store pkt _ .seamlessSplice (by simp)).mpr fun _ => htop⟩

/-! ### The payload -/

theorem isoPayload_extractPayload (n : ℕ) (fl : UInt8) (out : TransportValues)
    (hn : n = if pkt.hasAdaptation = true then (pkt.at 4).toNat else 0) :
    IsoPayload pkt (extractPayload pkt n fl out) := by
  unfold IsoPayload extractPayload isoAdaptationEnd
  by_cases hp : pkt.hasPayload = true
  · by_cases ha : pkt.hasAdaptation = true
    · simp [hp, ha, hn]
    · simp [hp, ha, hn]
  · simp [hp]

theorem isoValue_extractPayload (n : ℕ) (fl : UInt8) (out : TransportValues) (f : TransportValue) :
    IsoValue pkt (extractPayload pkt n fl out) f ↔ IsoValue pkt out f := by
  unfold extractPayload
  split <;> cases f <;> exact Iff.rfl

theorem isoDecoded_empty (n : ℕ) (fl : UInt8) (out : TransportValues)
    (hn : n = if pkt.hasAdaptation = true then (pkt.at 4).toNat else 0) :
    IsoDecoded pkt extract 0 (extractPayload pkt n fl out) where
  requested := BitVec.zero_and
  announced := fun f hf => absurd hf (wants_zero f)
  fits := fun f hf => absurd hf (wants_zero f)
  inside := fun h => absurd rfl h
  value := fun f hf => absurd hf (wants_zero f)
  payload := isoPayload_extractPayload pkt n fl out hn

/-! ### The whole function -/

/-- The packet carries a seamless splice field that the walk gets to: it is announced, and it and
the extension end in time. -/
structure SeamlessReadable : Prop where
  announced : isoAnnounced pkt .seamlessSplice
  inside : isoAdaptationEnd pkt ≤ transportPacketLength
  extension : isoExtensionOffset pkt + 1 + (pkt.at (isoExtensionOffset pkt)).toNat ≤ isoAdaptationEnd pkt
  fits : isoOffset pkt .seamlessSplice + isoSize pkt .seamlessSplice ≤ isoAdaptationEnd pkt

/-- The offsets only grow, so the fields before it end in time as well. -/
theorem SeamlessReadable.frontFits {pkt : TransportPacket} (h : SeamlessReadable pkt) : FrontFits pkt := by
  have hend : isoExtensionOffset pkt ≤ isoAdaptationEnd pkt := by
    have := h.extension
    omega
  have h4 : isoPrivateOffset pkt ≤ isoExtensionOffset pkt := by
    unfold isoExtensionOffset
    split <;> omega
  have h3 : isoSpliceOffset pkt ≤ isoPrivateOffset pkt := by
    unfold isoPrivateOffset
    split <;> omega
  have h2 : isoOpcrOffset pkt ≤ isoSpliceOffset pkt := by
    unfold isoSpliceOffset
    split <;> omega
  intro f hf ha
  simp only [List.mem_cons, List.not_mem_nil, or_false] at hf
  rcases hf with rfl | rfl | rfl | rfl
  · have : isoOpcrOffset pkt = 6 + 6 := if_pos ha
    show 6 + 6 ≤ _
    omega
  · have : isoSpliceOffset pkt = isoOpcrOffset pkt + 6 := if_pos ha
    show isoOpcrOffset pkt + 6 ≤ _
    omega
  · have : isoPrivateOffset pkt = isoSpliceOffset pkt + 1 := if_pos ha
    show isoSpliceOffset pkt + 1 ≤ _
    omega
  · have : isoExtensionOffset pkt = isoPrivateOffset pkt + isoSize pkt .privateData := if_pos ha
    show isoPrivateOffset pkt + isoSize pkt .privateData ≤ _
    omega

theorem SeamlessReadable.extFits {pkt : TransportPacket} (h : SeamlessReadable pkt) : ExtFits pkt := by
  have hend : isoSeamlessOffset pkt + 5 ≤ isoAdaptationEnd pkt := h.fits
  have h2 : isoPiecewiseOffset pkt ≤ isoSeamlessOffset pkt := by
    unfold isoSeamlessOffset
    split <;> omega
  intro f hf ha
  simp only [List.mem_cons, List.not_mem_nil, or_false] at hf
  rcases hf with rfl | rfl | rfl
  · have : isoPiecewiseOffset pkt = isoExtensionOffset pkt + 2 + 2 := if_pos ha
    show isoExtensionOffset pkt + 2 + 2 ≤ _
    omega
  · have : isoSeamlessOffset pkt = isoPiecewiseOffset pkt + 3 := if_pos ha
    show isoPiecewiseOffset pkt + 3 ≤ _
    omega
  · exact h.fits

theorem adaptationExtension_ok (hc : c.pos = isoExtensionOffset pkt)
    (h : adaptationExtension pkt extract (isoAdaptationEnd pkt) (pkt.at 5) c = .ok c') :
    (c'.extracted = c.extracted ∧ c'.out = c.out) ∨
    (pkt.at 5 &&& extensionFlag ≠ 0 ∧ (pkt.at (isoExtensionOffset pkt)).toNat ≠ 0 ∧
      isoExtensionOffset pkt + 1 + (pkt.at (isoExtensionOffset pkt)).toNat ≤ isoAdaptationEnd pkt ∧
      ExtFits pkt ∧ c' = extWalk pkt extract { c with pos := c.pos + 1 + 1 }) := by
  unfold adaptationExtension at h
  split at h
  · obtain rfl := Except.ok.inj h
    exact Or.inl ⟨rfl, rfl⟩
  rename_i hext
  split at h
  · exact absurd h (by simp)
  simp only [hc] at h
  split at h
  · exact absurd h (by simp)
  rename_i hfit
  split at h
  · obtain rfl := Except.ok.inj h
    exact Or.inl ⟨rfl, rfl⟩
  rename_i hwant
  rw [extensionFields_ok_iff pkt extract rfl] at h
  refine Or.inr ⟨hext, fun h0 => hwant (Or.inr h0), by omega, h.1, ?_⟩
  rw [h.2, hc]

/-- **A seamless splice that the walk gets to** is decoded if `piecewise_rate` is wanted. -/
theorem extract_seamless (out : TransportValues) (hr : SeamlessReadable pkt)
    (hw : Wants extract .piecewiseRate) : ∃ c : Cursor,
      transportPacketValuesExtract pkt out extract =
        .ok (c.extracted ||| TransportValue.seamlessSplice.bit,
          extractPayload pkt (pkt.at 4).toNat (pkt.at 5)
            (c.out.store pkt (isoSeamlessOffset pkt) .seamlessSplice)) := by
  have hfront := hr.frontFits
  have hextfits := hr.extFits
  obtain ⟨⟨⟨hflags, hext, hlen⟩, hseam⟩, hin, hfit, _⟩ := hr
  have hmask : ∀ m : BitVec 32, m &&& TransportValue.piecewiseRate.bit = TransportValue.piecewiseRate.bit →
      extract &&& m ≠ 0 := by
    intro m hm h0
    refine hw ?_
    rw [← hm, ← BitVec.and_assoc, h0]
    exact BitVec.zero_and
  set front := frontWalk pkt extract out
  have hfpos : front.pos = isoExtensionOffset pkt := frontWalk_pos pkt extract out
  have hpos : ({ front with pos := front.pos + 1 + 1 } : Cursor).pos = isoExtensionOffset pkt + 2 := by
    show front.pos + 1 + 1 = _
    omega
  have hexto : adaptationExtension pkt extract (isoAdaptationEnd pkt) (pkt.at 5) front
      = .ok (extWalk pkt extract { front with pos := front.pos + 1 + 1 }) := by
    unfold adaptationExtension
    rw [if_neg hext, if_neg (by omega)]
    simp only [hfpos]
    rw [if_neg (by omega), if_neg (not_or.mpr ⟨hmask 0xff00 (by decide), hlen⟩),
      extensionFields_ok_iff pkt extract rfl]
    exact ⟨hextfits, rfl⟩
  have hall := (adaptationFields_ok_iff pkt extract).mpr ⟨hfront, hexto⟩
  refine ⟨piecewiseWalk pkt extract { front with pos := front.pos + 1 + 1 }, ?_⟩
  unfold transportPacketValuesExtract
  rw [if_neg (by simp [hflags.1])]
  simp only
  rw [if_neg hflags.2, if_neg (by unfold isoAdaptationEnd at hin; omega),
    if_neg (hmask 0xffff (by decide))]
  show (adaptationFields pkt extract (isoAdaptationEnd pkt) (pkt.at 5) ⟨6, 0, out⟩ >>= _) = _
  rw [hall]
  have hdone : isoExtFlag pkt .seamlessSplice = true ∧
      decide (Wants extract .piecewiseRate) = true := ⟨hseam, decide_eq_true hw⟩
  show Except.ok ((extWalk pkt extract _).extracted, extractPayload pkt _ _ (extWalk pkt extract _).out) = _
  rw [extWalk, advance_extracted, advance_out, if_pos hdone, if_pos hdone,
    piecewiseWalk_pos pkt extract hpos]

/-- **Adaptation field decoding.**  Whatever the function returns is what the standard says,
exactly if a seamless splice it gets to is decoded only where it is wanted, and has a time stamp
whose two top bits are zero. -/
theorem isoDecoded_iff (out : TransportValues) :
    (∀ mask v, transportPacketValuesExtract pkt out extract = .ok (mask, v) →
      IsoDecoded pkt extract mask v) ↔
    (SeamlessReadable pkt → Wants extract .piecewiseRate →
      Wants extract .seamlessSplice ∧ isoBits pkt (isoSeamlessOffset pkt) 5 4 2 = 0) := by
  constructor
  · intro h hr hw
    obtain ⟨c, hc⟩ := extract_seamless pkt extract out hr hw
    have hd := h _ _ hc
    have hin : Wants (c.extracted ||| TransportValue.seamlessSplice.bit) .seamlessSplice :=
      (wants_or_bit _ _ _).mpr (Or.inr rfl)
    have hval := (isoValue_extractPayload pkt _ _ _ _).mp (hd.value _ hin)
    exact ⟨wants_of_requested hd.requested hin, (isoValue_store pkt c.out .seamlessSplice (by simp)).mp hval rfl⟩
  · intro hcond mask v h
    unfold transportPacketValuesExtract at h
    split at h
    · rename_i ha
      obtain ⟨rfl, rfl⟩ := Prod.mk.inj (Except.ok.inj h)
      exact isoDecoded_empty pkt extract 0 0 out (by simp [ha])
    rename_i ha
    have ha : pkt.hasAdaptation = true := by simpa using ha
    simp only at h
    split at h
    · rename_i h0
      obtain ⟨rfl, rfl⟩ := Prod.mk.inj (Except.ok.inj h)
      exact isoDecoded_empty pkt extract 0 0 out (by simp [ha, h0])
    rename_i h0
    split at h
    · exact absurd h (by simp)
    rename_i hin
    split at h
    · obtain ⟨rfl, rfl⟩ := Prod.mk.inj (Except.ok.inj h)
      exact isoDecoded_empty pkt extract _ _ out (by simp [ha])
    obtain ⟨c, hc, hres⟩ := bind_eq_ok.mp h
    obtain ⟨rfl, rfl⟩ := Prod.mk.inj (Except.ok.inj hres)
    obtain ⟨hfront, hext⟩ := (adaptationFields_ok_iff pkt extract).mp hc
    have hsf := sound_front pkt extract out ⟨ha, h0⟩ hfront
    have hs : Sound pkt extract c := by
      rcases adaptationExtension_ok pkt extract (frontWalk_pos pkt extract out) hext with
        ⟨he, ho⟩ | ⟨hflag, hlen, hroom, hfit, rfl⟩
      · refine ⟨by rw [he]; exact hsf.requested, ?_⟩
        rw [he, ho]
        exact hsf.decoded
      · refine sound_ext pkt extract ⟨hsf.requested, hsf.decoded⟩ ?_ ⟨⟨ha, h0⟩, hflag, hlen⟩ hfit ?_
        · show (frontWalk pkt extract out).pos + 1 + 1 = _
          rw [frontWalk_pos]
        · intro hseam hw
          exact hcond ⟨⟨⟨⟨ha, h0⟩, hflag, hlen⟩, hseam⟩, by unfold isoAdaptationEnd; omega, hroom,
            hfit .seamlessSplice (by simp) hseam⟩ hw
    refine ⟨hs.requested, fun f hf => (hs.decoded f hf).1, fun f hf => (hs.decoded f hf).2.1,
      fun _ => by unfold isoAdaptationEnd; omega, ?_, isoPayload_extractPayload pkt _ _ _ (by simp [ha])⟩
    intro f hf
    exact (isoValue_extractPayload pkt _ _ _ _).mpr (hs.decoded f hf).2.2

/-- A packet whose adaptation field holds an extension with a seamless splice, of which `b` is the
first byte: splice type, top bits of the time stamp and a marker. -/
def splicePacket (b : UInt8) : TransportPacket where
  bytes := [0x47, 0x00, 0x64, 0x30, 8, 0x01, 6, 0x20, b, 0x00, 0x01, 0x00, 0x01] ++ List.replicate 175 0xff
  length_eq := rfl

def noValues : TransportValues := ⟨0, none, 0, 0, 0, 0, 0, 0, 0, 0, 0, 0⟩

/-- With `piecewise_rate` alone wanted a seamless splice is returned, and of a time stamp of `2 ^ 32`
nothing is left. -/
theorem not_isoDecoded_splice :
    ¬ (∀ mask v, transportPacketValuesExtract (splicePacket 0x21) noValues 0x0200 = .ok (mask, v) →
      IsoDecoded (splicePacket 0x21) 0x0200 mask v) ∧
    ¬ (∀ mask v, transportPacketValuesExtract (splicePacket 0x29) noValues 0x0600 = .ok (mask, v) →
      IsoDecoded (splicePacket 0x29) 0x0600 mask v) := by
  constructor
  · intro h
    have hd := h 0x0400 { noValues with
      payload := some 13, payloadLength := 175, flags := 0x01, spliceType := 2 } (by decide)
    exact absurd hd.requested (by decide)
  · intro h
    have hd := h 0x0400 { noValues with
      payload := some 13, payloadLength := 175, flags := 0x01, spliceType := 2 } (by decide)
    exact absurd (hd.value .seamlessSplice (by decide)).2 (by decide)

end BgtDvb.Ucsi
