import BgtDvb.En50221Asn1
import BgtDvb.Lib.Words

/-!
# Framing of application layer objects

The encoders of the application resources write a tag of three bytes, a length field and the arguments, in
a list of memory blocks (`struct iovec`) that the session layer sends one after another.

* `meets_iff_fits` — **PROVED**: which calls send a framed object whatever uninitialised memory holds, and
  leave the caller's memory as it is.

`asn_1_encode` takes the length as a `uint16_t`.  The pixel depths of a display reply are sent from behind
the block they were written to, and the smartcard reply writes its length field into the caller's data and
sends that in place of its header.
-/

namespace BgtDvb.En50221

open BgtDvb.Words

/-! ### Tags and blocks -/

def tagBytes (tag : UInt32) : List UInt8 :=
  [((tag >>> 16) &&& 0xff).toUInt8, ((tag >>> 8) &&& 0xff).toUInt8, (tag &&& 0xff).toUInt8]

def tagProfile : UInt32 := 0x9f8011

def tagCaPmt : UInt32 := 0x9f8032

def tagDisplayReply : UInt32 := 0x9f8802

def tagAnswer : UInt32 := 0x9f8808

def tagSmartcardReply : UInt32 := 0x9f8e01

def tagSmartcardRcv : UInt32 := 0x9f8e03

/-- How an encoder ends: it returns -1 before anything is sent, it passes bytes to the session layer, or it
writes outside its memory. -/
inductive ApduOutcome where
  | refused
  | sent (bytes : List UInt8)
  | overrun
  deriving Repr, DecidableEq

/-- What uninitialised memory holds: a header on the stack, and what lies behind a block. -/
structure Unset where
  hdr : ℕ → UInt8
  behind : ℕ → UInt8

/-- `length` bytes of memory. -/
def readMem (mem : ℕ → UInt8) (length : ℕ) : List UInt8 := (List.range length).map mem

/-- Tag, length field, and what follows; the length is passed as a `uint16_t`. -/
def sendFramed (tag : UInt32) (length : ℕ) (rest : List UInt8) : ApduOutcome :=
  match asn1Encode (length % 2 ^ 16) 3 with
  | none => .refused
  | some field => .sent (tagBytes tag ++ field ++ rest)

/-- Data with a length of type `uint32_t`. -/
abbrev Sized (α : Type) := { l : List α // l.length < 2 ^ 32 }

/-! ### The encoders -/

/-- `en50221_app_ca_pmt`. -/
def caPmt (data : Sized UInt8) : ApduOutcome := sendFramed tagCaPmt data.1.length data.1

/-- A resource id after `bswap32`. -/
def bswapId (id : UInt32) : List UInt8 :=
  [(id >>> 24).toUInt8, (id >>> 16).toUInt8, (id >>> 8).toUInt8, id.toUInt8]

/-- `en50221_app_rm_reply`.  The block is of `4 * resource_id_count` bytes, computed in 32 bits; the loop
over all ids runs out of it if that overflows. -/
def rmReply (ids : Sized UInt32) : ApduOutcome :=
  match asn1Encode (4 * ids.1.length % 2 ^ 32 % 2 ^ 16) 3 with
  | none => .refused
  | some _ =>
    if 4 * ids.1.length % 2 ^ 32 < 4 * ids.1.length then .overrun
    else sendFramed tagProfile (4 * ids.1.length % 2 ^ 32) (ids.1.flatMap bswapId)

def mmiAnswIdAnswer : UInt8 := 0x01

/-- `en50221_app_mmi_answ`. -/
def mmiAnsw (answId : UInt8) (text : Sized UInt8) : ApduOutcome :=
  if answId = mmiAnswIdAnswer then
    sendFramed tagAnswer ((text.1.length + 1) % 2 ^ 32) ([answId] ++ text.1)
  else .sent (tagBytes tagAnswer ++ [1] ++ [answId])

/-- `struct en50221_app_mmi_pixel_depth`. -/
structure PixelDepth where
  displayDepth : UInt8
  pixelsPerByte : UInt8
  regionOverhead : UInt8
  deriving Repr, DecidableEq

/-- The graphics characteristics; `num_pixel_depths` is an `uint8_t`. -/
structure Gfx where
  width : UInt16
  height : UInt16
  aspectRatio : UInt8
  gfxRelationToVideo : UInt8
  multipleDepths : UInt8
  displayBytes : UInt16
  compositionBufferBytes : UInt8
  objectCacheBytes : UInt8
  pixelDepths : List PixelDepth
  depths_lt : pixelDepths.length < 256

/-- `struct en50221_app_mmi_display_reply_details`: what its union holds for each kind of reply. -/
structure DisplayReplyDetails where
  gfx : Gfx
  charTable : Sized UInt8
  mmiMode : UInt8

def gfxBytes (g : Gfx) : List UInt8 :=
  [(g.width >>> 8).toUInt8, g.width.toUInt8, (g.height >>> 8).toUInt8, g.height.toUInt8,
    ((g.aspectRatio &&& 0x0f) <<< 4) ||| ((g.gfxRelationToVideo &&& 0x07) <<< 1) ||| (g.multipleDepths &&& 1),
    (g.displayBytes >>> 4).toUInt8,
    ((g.displayBytes &&& 0x0f) <<< 4).toUInt8 ||| ((g.compositionBufferBytes &&& 0xf0) >>> 4),
    ((g.compositionBufferBytes &&& 0x0f) <<< 4) ||| ((g.objectCacheBytes &&& 0xf0) >>> 4),
    ((g.objectCacheBytes &&& 0x0f) <<< 4) ||| (UInt8.ofNat g.pixelDepths.length &&& 0x0f)]

def pixelDepthBytes (p : PixelDepth) : List UInt8 :=
  [((p.displayDepth &&& 0x07) <<< 5) ||| ((p.pixelsPerByte &&& 0x07) <<< 2), p.regionOverhead]

/-- The kinds of display reply, by `MMI_DISPLAY_REPLY_ID_*`. -/
inductive DisplayReplyKind where
  | modeAck | charTable | gfx | other
  deriving Repr, DecidableEq

def displayReplyKind (replyId : UInt8) : DisplayReplyKind :=
  if replyId = 0x01 then .modeAck
  else if replyId = 0x02 ∨ replyId = 0x03 then .charTable
  else if replyId = 0x04 ∨ replyId = 0x05 then .gfx
  else .other

/-- `en50221_app_mmi_display_reply`.  The pointer that the pixel depths are written through has moved behind
them when it is put in the list of blocks. -/
def mmiDisplayReply (unset : Unset) (replyId : UInt8) (details : DisplayReplyDetails) : ApduOutcome :=
  match displayReplyKind replyId with
  | .modeAck => .sent (tagBytes tagDisplayReply ++ [2] ++ [replyId, details.mmiMode])
  | .charTable =>
    sendFramed tagDisplayReply ((details.charTable.1.length + 1) % 2 ^ 32) ([replyId] ++ details.charTable.1)
  | .gfx =>
    sendFramed tagDisplayReply (1 + 9 + details.gfx.pixelDepths.length * 2)
      ([replyId] ++ gfxBytes details.gfx ++ readMem unset.behind (details.gfx.pixelDepths.length * 2))
  | .other => .sent (tagBytes tagDisplayReply ++ [1] ++ [replyId])

def writeMem (mem : ℕ → UInt8) (offset : ℕ) (bytes : List UInt8) : ℕ → UInt8 :=
  fun i => if offset ≤ i ∧ i < offset + bytes.length then bytes.getD (i - offset) 0 else mem i

def smartcardReplyIdAnswToReset : UInt8 := 0x04

/-- `en50221_app_smartcard_command_reply`, with the memory at `data` after it.  For an answer to reset the
length field goes to `data + 3`; for the others the six bytes that are sent are those of `data`. -/
def smartcardCommandReply (unset : Unset) (replyId status : UInt8) (data : ℕ → UInt8) (dataLength : UInt32) :
    ApduOutcome × (ℕ → UInt8) :=
  if replyId = smartcardReplyIdAnswToReset then
    match asn1Encode ((dataLength + 2).toNat % 2 ^ 16) 3 with
    | none => (.refused, data)
    | some field =>
      let data := writeMem data 3 field
      (.sent (tagBytes tagSmartcardReply ++ (readMem unset.hdr (3 + field.length)).drop 3 ++
        ([replyId, status] ++ readMem data dataLength.toNat)), data)
  else (.sent (readMem data 6), data)

/-- `en50221_app_smartcard_receive`. -/
def smartcardReceive (data : Sized UInt8) (sw1 sw2 : UInt8) : ApduOutcome :=
  sendFramed tagSmartcardRcv ((data.1.length + 2) % 2 ^ 32) (data.1 ++ [sw1, sw2])

/-! ### Calls -/

/-- A call of one of the encoders. -/
inductive ApduCall where
  | caPmt (data : Sized UInt8)
  | rmReply (ids : Sized UInt32)
  | mmiAnsw (answId : UInt8) (text : Sized UInt8)
  | mmiDisplayReply (replyId : UInt8) (details : DisplayReplyDetails)
  | smartcardCommandReply (replyId status : UInt8) (data : ℕ → UInt8) (dataLength : UInt32)
  | smartcardReceive (data : Sized UInt8) (sw1 sw2 : UInt8)

def ApduCall.run (unset : Unset) : ApduCall → ApduOutcome
  | .caPmt data => En50221.caPmt data
  | .rmReply ids => En50221.rmReply ids
  | .mmiAnsw answId text => En50221.mmiAnsw answId text
  | .mmiDisplayReply replyId details => En50221.mmiDisplayReply unset replyId details
  | .smartcardCommandReply replyId status data dataLength =>
    (En50221.smartcardCommandReply unset replyId status data dataLength).1
  | .smartcardReceive data sw1 sw2 => En50221.smartcardReceive data sw1 sw2

/-- The caller's memory is as it was; the other encoders do not write to it. -/
def ApduCall.Unmodified (unset : Unset) : ApduCall → Prop
  | .smartcardCommandReply replyId status data dataLength =>
    (En50221.smartcardCommandReply unset replyId status data dataLength).2 = data
  | _ => True

/-! ### What an object is to be -/

def ApduCall.tag : ApduCall → UInt32
  | .caPmt _ => tagCaPmt
  | .rmReply _ => tagProfile
  | .mmiAnsw _ _ => tagAnswer
  | .mmiDisplayReply _ _ => tagDisplayReply
  | .smartcardCommandReply _ _ _ _ => tagSmartcardReply
  | .smartcardReceive _ _ _ => tagSmartcardRcv

def ApduCall.payload : ApduCall → List UInt8
  | .caPmt data => data.1
  | .rmReply ids => ids.1.flatMap bswapId
  | .mmiAnsw answId text => if answId = mmiAnswIdAnswer then answId :: text.1 else [answId]
  | .mmiDisplayReply replyId details =>
    match displayReplyKind replyId with
    | .modeAck => [replyId, details.mmiMode]
    | .charTable => replyId :: details.charTable.1
    | .gfx => [replyId] ++ gfxBytes details.gfx ++ details.gfx.pixelDepths.flatMap pixelDepthBytes
    | .other => [replyId]
  | .smartcardCommandReply replyId status data dataLength =>
    if replyId = smartcardReplyIdAnswToReset then replyId :: status :: readMem data dataLength.toNat
    else [replyId, status]
  | .smartcardReceive data sw1 sw2 => data.1 ++ [sw1, sw2]

/-- The tag, a length field that reads back as the number of bytes that follow it, and the payload. -/
def Framed (tag : UInt32) (payload bytes : List UInt8) : Prop :=
  ∃ field, bytes = tagBytes tag ++ field ++ payload ∧
    asn1Decode (field ++ payload) = some (payload.length, field.length)

/-- The call is refused or sends its object, whatever uninitialised memory holds, and leaves the caller's
memory as it is. -/
def ApduCall.Meets (c : ApduCall) : Prop :=
  ∀ unset, (c.run unset = .refused ∨ ∃ bytes, c.run unset = .sent bytes ∧ Framed c.tag c.payload bytes) ∧
    c.Unmodified unset

/-- The payload fits a 16-bit length; a graphics reply has no pixel depths; a smartcard reply is no answer
to reset, and the data passed with it are the object already. -/
def ApduCall.Fits : ApduCall → Prop
  | .caPmt data => data.1.length < 2 ^ 16
  | .rmReply ids => 4 * ids.1.length < 2 ^ 16
  | .mmiAnsw answId text => answId = mmiAnswIdAnswer → text.1.length + 1 < 2 ^ 16
  | .mmiDisplayReply replyId details =>
    (displayReplyKind replyId = .charTable → details.charTable.1.length + 1 < 2 ^ 16) ∧
    (displayReplyKind replyId = .gfx → details.gfx.pixelDepths = [])
  | .smartcardCommandReply replyId status data _ =>
    replyId ≠ smartcardReplyIdAnswToReset ∧
      readMem data 6 = tagBytes tagSmartcardReply ++ [2] ++ [replyId, status]
  | .smartcardReceive data _ _ => data.1.length + 2 < 2 ^ 16

/-! ### Ids and fields read back -/

/-- Resource ids, four bytes each. -/
def readIds : List UInt8 → List ℕ
  | b₀ :: b₁ :: b₂ :: b₃ :: bytes => beNat [b₀, b₁, b₂, b₃] :: readIds bytes
  | _ => []

theorem beNat_bswapId (id : UInt32) : beNat (bswapId id) = id.toNat := by
  have hlt := id.toNat_lt
  simp only [bswapId, beNat, List.foldl_cons, List.foldl_nil, UInt32.toNat_toUInt8, UInt32.toNat_shiftRight,
    UInt32.reduceToNat, Nat.shiftRight_eq_div_pow, Nat.reduceMod]
  omega

theorem readIds_flatMap (ids : List UInt32) : readIds (ids.flatMap bswapId) = ids.map UInt32.toNat := by
  induction ids with
  | nil => rfl
  | cons id ids ih =>
    rw [List.flatMap_cons, List.map_cons, ← ih, ← beNat_bswapId]
    rfl

theorem and_low (x : ℕ) : x &&& 15 = x % 16 := Nat.and_two_pow_sub_one_eq_mod x 4

theorem and_high (x : ℕ) : (x &&& 240) >>> 4 = x / 16 % 16 := by
  rw [Nat.shiftRight_and_distrib, Nat.shiftRight_eq_div_pow]
  exact and_low _

theorem nibbles_or (x : ℕ) {y : ℕ} (hy : y < 16) : (x &&& 15) <<< 4 % 256 ||| y = x % 16 * 16 + y := by
  have hhigh : (x &&& 15) <<< 4 % 256 = x % 16 * 16 := by
    rw [and_low, Nat.shiftLeft_eq]
    omega
  rw [hhigh]
  exact or_eq_add 4 (Nat.dvd_mul_left 16 _) hy

theorem bits_or (x y : ℕ) : (x &&& 7) <<< 1 % 256 ||| y % 2 = x % 8 * 2 + y % 2 := by
  have hlow : x &&& 7 = x % 8 := Nat.and_two_pow_sub_one_eq_mod x 3
  have hhigh : (x &&& 7) <<< 1 % 256 = x % 8 * 2 := by
    rw [hlow, Nat.shiftLeft_eq]
    omega
  rw [hhigh]
  exact or_eq_add 1 (Nat.dvd_mul_left 2 _) (Nat.mod_lt _ (by decide))

theorem beNat_gfxBytes (g : Gfx) : beNat (gfxBytes g) =
    (((((((g.width.toNat * 2 ^ 16 + g.height.toNat) * 2 ^ 4 + g.aspectRatio.toNat % 2 ^ 4) * 2 ^ 3
      + g.gfxRelationToVideo.toNat % 2 ^ 3) * 2 + g.multipleDepths.toNat % 2) * 2 ^ 12 + g.displayBytes.toNat % 2 ^ 12)
      * 2 ^ 8 + g.compositionBufferBytes.toNat) * 2 ^ 8 + g.objectCacheBytes.toNat) * 2 ^ 4
      + g.pixelDepths.length % 2 ^ 4 := by
  have hwidth := g.width.toNat_lt
  have hheight := g.height.toNat_lt
  have hcomposition := g.compositionBufferBytes.toNat_lt
  have hcache := g.objectCacheBytes.toNat_lt
  simp only [gfxBytes, beNat, List.foldl_cons, List.foldl_nil, UInt8.toNat_or, UInt8.toNat_and, UInt8.toNat_shiftLeft,
    UInt8.toNat_shiftRight, UInt16.toNat_toUInt8, UInt16.toNat_shiftRight, UInt16.toNat_shiftLeft, UInt16.toNat_and,
    UInt8.reduceToNat, UInt16.reduceToNat, Nat.reduceMod, Nat.reducePow, UInt8.toNat_ofNat', Nat.or_assoc,
    Nat.and_one_is_mod]
  have hdisplay : (g.displayBytes.toNat &&& 15) <<< 4 % 65536 % 256 = (g.displayBytes.toNat &&& 15) <<< 4 % 256 :=
    Nat.mod_mod_of_dvd _ (by decide)
  rw [bits_or, nibbles_or _ (by omega), hdisplay, and_high, and_high, and_low (_ % 256), nibbles_or _ (by omega),
    nibbles_or _ (by omega), nibbles_or _ (by omega)]
  simp only [Nat.shiftRight_eq_div_pow]
  omega

/-- Fields of so many bits in a number, the last one first. -/
def readFields : List ℕ → ℕ → List ℕ
  | [], _ => []
  | w :: ws, x => x % 2 ^ w :: readFields ws (x / 2 ^ w)

/-- **The fields come back**, each as far as it has bits in the object. -/
theorem readFields_gfxBytes (g : Gfx) : readFields [4, 8, 8, 12, 1, 3, 4, 16, 16] (beNat (gfxBytes g)) =
    [g.pixelDepths.length % 16, g.objectCacheBytes.toNat, g.compositionBufferBytes.toNat, g.displayBytes.toNat % 4096,
      g.multipleDepths.toNat % 2, g.gfxRelationToVideo.toNat % 8, g.aspectRatio.toNat % 16, g.height.toNat,
      g.width.toNat] := by
  have hwidth := g.width.toNat_lt
  have hheight := g.height.toNat_lt
  have hcomposition := g.compositionBufferBytes.toNat_lt
  have hcache := g.objectCacheBytes.toNat_lt
  rw [beNat_gfxBytes]
  simp only [readFields, List.cons.injEq, and_true]
  omega

/-! ### One object -/

theorem sendFramed_eq (tag : UInt32) (length : ℕ) (rest : List UInt8) :
    sendFramed tag length rest =
      .sent (tagBytes tag ++ (LengthForm.shortest (length % 2 ^ 16)).field (length % 2 ^ 16) ++ rest) := by
  unfold sendFramed
  rw [asn1Encode_eq]

theorem framed_append_iff (tag : UInt32) (field payload : List UInt8) :
    Framed tag payload (tagBytes tag ++ field ++ payload) ↔
      asn1Decode (field ++ payload) = some (payload.length, field.length) := by
  constructor
  · rintro ⟨field', heq, hdec⟩
    have hfield : field = field' := by
      have h := List.append_cancel_right heq
      exact List.append_cancel_left h
    rw [hfield]
    exact hdec
  · exact fun hdec => ⟨field, rfl, hdec⟩

/-- **The announced length** is right exactly if it is the length of the payload and fits 16 bits. -/
theorem sendFramed_iff (tag : UInt32) (length : ℕ) (payload : List UInt8) :
    (sendFramed tag length payload = .refused ∨
      ∃ bytes, sendFramed tag length payload = .sent bytes ∧ Framed tag payload bytes) ↔
      length % 2 ^ 16 = payload.length := by
  rw [sendFramed_eq]
  have hlt : length % 2 ^ 16 < 2 ^ 16 := Nat.mod_lt _ (by decide)
  have hdec := asn1Decode_field _ (LengthForm.lt_limit_shortest hlt) payload
  constructor
  · rintro (h | ⟨bytes, h, hframed⟩)
    · exact absurd h (by simp)
    · obtain rfl := ApduOutcome.sent.inj h
      rw [framed_append_iff, hdec] at hframed
      exact (Prod.mk.inj (Option.some.inj hframed)).1
  · intro h
    refine .inr ⟨_, rfl, ?_⟩
    rw [framed_append_iff, hdec, h]

theorem framed_short (tag : UInt32) (payload : List UInt8) (h : payload.length < 0x80) :
    Framed tag payload (tagBytes tag ++ [UInt8.ofNat payload.length] ++ payload) := by
  rw [framed_append_iff]
  exact asn1Decode_field .short h payload

/-! ### The encoders with a computed length -/

theorem meets_of_run_eq (c : ApduCall) (outcome : ApduOutcome) (hrun : ∀ unset, c.run unset = outcome)
    (hmem : ∀ unset, c.Unmodified unset) :
    c.Meets ↔ (outcome = .refused ∨ ∃ bytes, outcome = .sent bytes ∧ Framed c.tag c.payload bytes) := by
  constructor
  · intro h
    have h0 := (h ⟨fun _ => 0, fun _ => 0⟩).1
    rw [hrun] at h0
    exact h0
  · intro h unset
    rw [hrun]
    exact ⟨h, hmem unset⟩

theorem caPmt_meets_iff (data : Sized UInt8) : (ApduCall.caPmt data).Meets ↔ data.1.length < 2 ^ 16 := by
  refine (meets_of_run_eq (.caPmt data) (caPmt data) (fun _ => rfl) (fun _ => trivial)).trans ?_
  refine (sendFramed_iff tagCaPmt data.1.length data.1).trans ?_
  omega

theorem length_flatMap_bswapId (ids : List UInt32) : (ids.flatMap bswapId).length = 4 * ids.length := by
  induction ids with
  | nil => rfl
  | cons id ids ih =>
    rw [List.flatMap_cons, List.length_append, ih, List.length_cons]
    show 4 + 4 * ids.length = 4 * (ids.length + 1)
    ring

theorem rmReply_meets_iff (ids : Sized UInt32) : (ApduCall.rmReply ids).Meets ↔ 4 * ids.1.length < 2 ^ 16 := by
  refine (meets_of_run_eq (.rmReply ids) (rmReply ids) (fun _ => rfl) (fun _ => trivial)).trans ?_
  show rmReply ids = .refused ∨ (∃ bytes, rmReply ids = .sent bytes ∧
    Framed tagProfile (ids.1.flatMap bswapId) bytes) ↔ _
  by_cases hover : 4 * ids.1.length % 2 ^ 32 < 4 * ids.1.length
  · -- the block is too small for the loop
    have hrun : rmReply ids = .overrun := by
      unfold rmReply
      rw [asn1Encode_eq]
      exact if_pos hover
    rw [hrun]
    refine iff_of_false (by simp) ?_
    omega
  · have hrun : rmReply ids = sendFramed tagProfile (4 * ids.1.length % 2 ^ 32) (ids.1.flatMap bswapId) := by
      unfold rmReply
      rw [asn1Encode_eq]
      exact if_neg hover
    rw [hrun, sendFramed_iff, length_flatMap_bswapId]
    omega

theorem mmiAnsw_meets_iff (answId : UInt8) (text : Sized UInt8) :
    (ApduCall.mmiAnsw answId text).Meets ↔ (answId = mmiAnswIdAnswer → text.1.length + 1 < 2 ^ 16) := by
  refine (meets_of_run_eq (.mmiAnsw answId text) (mmiAnsw answId text) (fun _ => rfl) (fun _ => trivial)).trans ?_
  unfold ApduCall.payload mmiAnsw
  by_cases hid : answId = mmiAnswIdAnswer
  · simp only [hid, if_true, forall_const]
    refine (sendFramed_iff tagAnswer ((text.1.length + 1) % 2 ^ 32) ([mmiAnswIdAnswer] ++ text.1)).trans ?_
    rw [List.length_append, List.length_singleton]
    omega
  · simp only [hid, if_false, false_imp_iff, iff_true]
    exact .inr ⟨_, rfl, framed_short tagAnswer [answId] (by simp)⟩

theorem smartcardReceive_meets_iff (data : Sized UInt8) (sw1 sw2 : UInt8) :
    (ApduCall.smartcardReceive data sw1 sw2).Meets ↔ data.1.length + 2 < 2 ^ 16 := by
  refine (meets_of_run_eq (.smartcardReceive data sw1 sw2) (smartcardReceive data sw1 sw2) (fun _ => rfl)
    (fun _ => trivial)).trans ?_
  refine (sendFramed_iff tagSmartcardRcv ((data.1.length + 2) % 2 ^ 32) (data.1 ++ [sw1, sw2])).trans ?_
  rw [List.length_append]
  show _ = data.1.length + 2 ↔ _
  omega

/-! ### The display reply -/

theorem length_flatMap_pixelDepthBytes (ps : List PixelDepth) :
    (ps.flatMap pixelDepthBytes).length = ps.length * 2 := by
  induction ps with
  | nil => rfl
  | cons p ps ih =>
    rw [List.flatMap_cons, List.length_append, ih, List.length_cons]
    show 2 + ps.length * 2 = (ps.length + 1) * 2
    ring

theorem getD_readMem (mem : ℕ → UInt8) {n i : ℕ} (hi : i < n) : (readMem mem n).getD i 0 = mem i := by
  simp [readMem, List.getD, hi]

theorem payload_eq_of_framed {tag : UInt32} {length : ℕ} {rest payload bytes : List UInt8}
    (hsent : sendFramed tag length rest = .sent bytes) (hf : Framed tag payload bytes)
    (hlen : rest.length = payload.length) : rest = payload := by
  rw [sendFramed_eq] at hsent
  obtain rfl := ApduOutcome.sent.inj hsent
  obtain ⟨field, heq, -⟩ := hf
  exact (List.append_inj' heq hlen).2

/-- The bytes of a graphics reply do not depend on the pixel depths, but on what lies behind them: the reply
is right without pixel depths only. -/
theorem gfxReply_meets_iff {replyId : UInt8} (details : DisplayReplyDetails)
    (hkind : displayReplyKind replyId = .gfx) :
    (ApduCall.mmiDisplayReply replyId details).Meets ↔ details.gfx.pixelDepths = [] := by
  have hpayload : (ApduCall.mmiDisplayReply replyId details).payload =
      [replyId] ++ gfxBytes details.gfx ++ details.gfx.pixelDepths.flatMap pixelDepthBytes := by
    simp only [ApduCall.payload, hkind]
  have hrun : ∀ unset, (ApduCall.mmiDisplayReply replyId details).run unset =
      sendFramed tagDisplayReply (1 + 9 + details.gfx.pixelDepths.length * 2)
        ([replyId] ++ gfxBytes details.gfx ++ readMem unset.behind (details.gfx.pixelDepths.length * 2)) := by
    intro unset
    simp only [ApduCall.run, mmiDisplayReply, hkind]
  constructor
  · intro h
    cases hps : details.gfx.pixelDepths with
    | nil => rfl
    | cons p ps =>
      obtain ⟨b, b', hp⟩ : ∃ b b', pixelDepthBytes p = [b, b'] := ⟨_, _, rfl⟩
      -- memory that holds another byte than the first pixel depth
      have hwrong := (h ⟨fun _ => 0, fun _ => b + 1⟩).1
      rw [hrun, hps] at hwrong
      rcases hwrong with hr | ⟨bytes, hsent, hframed⟩
      · rw [sendFramed_eq] at hr
        exact absurd hr (by simp)
      · have hlength :
            ([replyId] ++ gfxBytes details.gfx ++ readMem (fun _ => b + 1) ((p :: ps).length * 2)).length =
            (ApduCall.mmiDisplayReply replyId details).payload.length := by
          have hdepths := length_flatMap_pixelDepthBytes (p :: ps)
          rw [hpayload, hps]
          simp only [List.length_append, hdepths, readMem, List.length_map, List.length_range]
        have heq := payload_eq_of_framed hsent hframed hlength
        rw [hpayload, hps] at heq
        have htail := List.append_cancel_left heq
        have hbyte := congrArg (fun l => l.getD 0 0) htail
        have hpos : 0 < (p :: ps).length * 2 := by simp
        dsimp only at hbyte
        rw [getD_readMem _ hpos, List.flatMap_cons, hp] at hbyte
        exact absurd (add_eq_left.mp hbyte) (by decide)
  · intro hnil unset
    refine ⟨?_, trivial⟩
    rw [hrun, hnil, hpayload, hnil]
    refine (sendFramed_iff tagDisplayReply _ ([replyId] ++ gfxBytes details.gfx ++ [])).mpr ?_
    simp [gfxBytes]

theorem mmiDisplayReply_meets_iff (replyId : UInt8) (details : DisplayReplyDetails) :
    (ApduCall.mmiDisplayReply replyId details).Meets ↔
      (displayReplyKind replyId = .charTable → details.charTable.1.length + 1 < 2 ^ 16) ∧
      (displayReplyKind replyId = .gfx → details.gfx.pixelDepths = []) := by
  cases hkind : displayReplyKind replyId with
  | modeAck =>
    rw [meets_of_run_eq (.mmiDisplayReply replyId details)
      (.sent (tagBytes tagDisplayReply ++ [2] ++ [replyId, details.mmiMode]))
      (fun unset => by simp only [ApduCall.run, mmiDisplayReply, hkind]) (fun _ => trivial)]
    simp only [ApduCall.payload, hkind]
    refine iff_of_true (.inr ⟨_, rfl, framed_short _ _ (by simp)⟩) ?_
    exact ⟨fun h => absurd h (by decide), fun h => absurd h (by decide)⟩
  | other =>
    rw [meets_of_run_eq (.mmiDisplayReply replyId details) (.sent (tagBytes tagDisplayReply ++ [1] ++ [replyId]))
      (fun unset => by simp only [ApduCall.run, mmiDisplayReply, hkind]) (fun _ => trivial)]
    simp only [ApduCall.payload, hkind]
    refine iff_of_true (.inr ⟨_, rfl, framed_short _ _ (by simp)⟩) ?_
    exact ⟨fun h => absurd h (by decide), fun h => absurd h (by decide)⟩
  | charTable =>
    rw [meets_of_run_eq (.mmiDisplayReply replyId details)
      (sendFramed tagDisplayReply ((details.charTable.1.length + 1) % 2 ^ 32)
        ([replyId] ++ details.charTable.1))
      (fun unset => by simp only [ApduCall.run, mmiDisplayReply, hkind]) (fun _ => trivial)]
    simp only [ApduCall.payload, hkind, forall_const]
    refine (sendFramed_iff tagDisplayReply _ (replyId :: details.charTable.1)).trans ?_
    rw [List.length_cons]
    constructor
    · intro h
      exact ⟨by omega, fun hg => absurd hg (by decide)⟩
    · rintro ⟨h, -⟩
      omega
  | gfx =>
    refine (gfxReply_meets_iff details hkind).trans ?_
    exact ⟨fun h => ⟨fun hc => absurd hc (by decide), fun _ => h⟩, fun h => h.2 rfl⟩

/-! ### The smartcard reply -/

theorem framed_six_iff {tag : UInt32} {a b : UInt8} {bytes : List UInt8} (hlen : bytes.length = 6) :
    Framed tag [a, b] bytes ↔ bytes = tagBytes tag ++ [2] ++ [a, b] := by
  constructor
  · rintro ⟨field, rfl, hdec⟩
    obtain ⟨c, rfl⟩ : ∃ c, field = [c] := by
      refine List.length_eq_one_iff.mp ?_
      simp only [List.length_append, tagBytes, List.length_cons, List.length_nil] at hlen
      omega
    have hc : c = 2 := by
      have hdec : (if c < 0x80 then some ((c &&& 0x7f).toNat, 1)
          else if c = 0x81 then some (a.toNat, 2)
          else if c = 0x82 then some ((a.toNat <<< 8) ||| b.toNat, 3)
          else none) = some (2, 1) := hdec
      split_ifs at hdec with hlt h81 h82
      · have hall : ∀ m : Fin 256, (UInt8.ofNat m.val &&& 0x7f).toNat = 2 → UInt8.ofNat m.val < 0x80 →
            UInt8.ofNat m.val = 2 := by
          decide +kernel
        have hself : UInt8.ofNat c.toNat = c := UInt8.ofNat_toNat
        have hm := hall ⟨c.toNat, c.toNat_lt⟩
        rw [hself] at hm
        exact hm (Prod.mk.inj (Option.some.inj hdec)).1 hlt
      · exact absurd (Prod.mk.inj (Option.some.inj hdec)).2 (by decide)
      · exact absurd (Prod.mk.inj (Option.some.inj hdec)).2 (by decide)
    rw [hc]
  · rintro rfl
    exact framed_short tag [a, b] (by simp)

theorem exists_length_field (form : LengthForm) (n : ℕ) : ∃ k, (form.field n).length = k + 1 := by
  cases form <;> exact ⟨_, rfl⟩

theorem smartcardCommandReply_meets_iff (replyId status : UInt8) (data : ℕ → UInt8) (dataLength : UInt32) :
    (ApduCall.smartcardCommandReply replyId status data dataLength).Meets ↔
      replyId ≠ smartcardReplyIdAnswToReset ∧
        readMem data 6 = tagBytes tagSmartcardReply ++ [2] ++ [replyId, status] := by
  by_cases hid : replyId = smartcardReplyIdAnswToReset
  · -- the length field on the stack is not written
    refine iff_of_false (fun h => ?_) (fun h => h.1 hid)
    have hwrong := (h ⟨fun _ => 0xff, fun _ => 0⟩).1
    have hrun : ∃ rest bytes, (ApduCall.smartcardCommandReply replyId status data dataLength).run
        ⟨fun _ => 0xff, fun _ => 0⟩ = .sent bytes ∧ bytes = tagBytes tagSmartcardReply ++ 0xff :: rest := by
      simp only [ApduCall.run, smartcardCommandReply, hid, if_true, asn1Encode_eq]
      obtain ⟨k, hk⟩ := exists_length_field (LengthForm.shortest ((dataLength + 2).toNat % 2 ^ 16))
        ((dataLength + 2).toNat % 2 ^ 16)
      have hunset : (readMem (fun _ => 0xff) (3 + (k + 1))).drop 3 = (0xff : UInt8) :: List.replicate k 0xff := by
        simp [readMem, List.map_const', ← List.replicate_succ]
      rw [hk, hunset]
      exact ⟨_, _, rfl, by rw [List.append_assoc, List.cons_append]⟩
    obtain ⟨rest, bytes, hsent, hbytes⟩ := hrun
    rw [hsent] at hwrong
    rcases hwrong with hr | ⟨bytes', hbytes', field, heq, hdec⟩
    · exact absurd hr (by simp)
    · obtain rfl := ApduOutcome.sent.inj hbytes'
      rw [hbytes, List.append_assoc] at heq
      rw [← List.append_cancel_left heq] at hdec
      exact absurd hdec (by simp [asn1Decode])
  · have hrun : ∀ unset, (ApduCall.smartcardCommandReply replyId status data dataLength).run unset =
        .sent (readMem data 6) := by
      intro unset
      simp only [ApduCall.run, smartcardCommandReply, hid, if_false]
    have hmem : ∀ unset, (ApduCall.smartcardCommandReply replyId status data dataLength).Unmodified unset := by
      intro unset
      simp only [ApduCall.Unmodified, smartcardCommandReply, hid, if_false]
    rw [meets_of_run_eq _ _ hrun hmem]
    simp only [ApduCall.payload, hid, if_false]
    constructor
    · rintro (h | ⟨bytes, hsent, hframed⟩)
      · exact absurd h (by simp)
      · obtain rfl := ApduOutcome.sent.inj hsent
        exact ⟨hid, (framed_six_iff (by simp [readMem])).mp hframed⟩
    · rintro ⟨-, hdata⟩
      exact .inr ⟨_, rfl, (framed_six_iff (by simp [readMem])).mpr hdata⟩

/-! ### Every call -/

/-- **Framing.**  A call sends its object framed, or is refused, whatever uninitialised memory holds, and
leaves the caller's memory as it is, exactly if it fits. -/
theorem meets_iff_fits (c : ApduCall) : c.Meets ↔ c.Fits := by
  cases c with
  | caPmt data => exact caPmt_meets_iff data
  | rmReply ids => exact rmReply_meets_iff ids
  | mmiAnsw answId text => exact mmiAnsw_meets_iff answId text
  | mmiDisplayReply replyId details => exact mmiDisplayReply_meets_iff replyId details
  | smartcardCommandReply replyId status data dataLength =>
    exact smartcardCommandReply_meets_iff replyId status data dataLength
  | smartcardReceive data sw1 sw2 => exact smartcardReceive_meets_iff data sw1 sw2

def oneDepth : DisplayReplyDetails where
  gfx := ⟨720, 576, 3, 7, 0, 256, 0, 0, [⟨4, 2, 0⟩], by decide⟩
  charTable := ⟨[], by decide⟩
  mmiMode := 0

/-- A card that is connected, an overlay with one pixel depth, and a CA PMT of 65536 bytes. -/
theorem not_meets_reply_depth_long :
    ¬ (ApduCall.smartcardCommandReply 0x01 0x01 (fun _ => 0) 0).Meets ∧
    ¬ (ApduCall.mmiDisplayReply 0x04 oneDepth).Meets ∧
    ¬ (ApduCall.caPmt ⟨List.replicate 65536 0, by rw [List.length_replicate]; decide⟩).Meets := by
  refine ⟨fun h => ?_, fun h => ?_, fun h => ?_⟩
  · exact absurd ((smartcardCommandReply_meets_iff 0x01 0x01 (fun _ => 0) 0).mp h).2 (by decide)
  · exact absurd (((mmiDisplayReply_meets_iff 0x04 oneDepth).mp h).2 (by decide)) (by simp [oneDepth])
  · have hlt := (caPmt_meets_iff _).mp h
    rw [List.length_replicate] at hlt
    exact absurd hlt (by decide)

end BgtDvb.En50221
