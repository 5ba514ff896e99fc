import BgtDvb.Lib.Words

/-!
# Session layer objects

The session protocol data units of `en50221_session.c`: a tag, a length byte and a few fields.  The
headers are written and read byte by byte, with the offsets in the code:

* `decodeOpenSessionRequest` … `decodeCloseSessionResponse`, `decodeSpdu` — the checks and reads at
  the beginning of each handler, and the switch over the tag;
* `Spdu`, `spduForm` — the objects of the standard, a tag, the number of bytes that follow and the
  fields one after another, whoever sends them;
* `spdu_agreement_iff` — **PROVED**: code and standard agree on an object exactly if it is not a
  close_session_response, and not a create_session_response unless three of its bytes are equal.
-/

namespace BgtDvb.En50221

open BgtDvb.Words

/-! ### Bytes of a word -/

/-- `x >> 8, x` as the code stores a session number. -/
def hdr16 (x : UInt16) : List UInt8 := [(x >>> 8).toUInt8, x.toUInt8]

/-- `x >> 24, x >> 16, x >> 8, x` as the code stores a resource id. -/
def hdr32 (x : UInt32) : List UInt8 :=
  [(x >>> 24).toUInt8, (x >>> 16).toUInt8, (x >>> 8).toUInt8, x.toUInt8]

/-- `(hi << 8) | lo`. -/
def word16 (hi lo : UInt8) : UInt16 := (hi.toUInt16 <<< 8) ||| lo.toUInt16

/-- `(a << 24) | (b << 16) | (c << 8) | d`. -/
def word32 (a b c d : UInt8) : UInt32 :=
  (a.toUInt32 <<< 24) ||| (b.toUInt32 <<< 16) ||| (c.toUInt32 <<< 8) ||| d.toUInt32

/-! ### What is sent -/

/-- `ST_*`. -/
def stSessionNumber : UInt8 := 0x90

def stOpenSessionReq : UInt8 := 0x91

def stOpenSessionRes : UInt8 := 0x92

def stCreateSession : UInt8 := 0x93

def stCreateSessionRes : UInt8 := 0x94

def stCloseSessionReq : UInt8 := 0x95

def stCloseSessionRes : UInt8 := 0x96

/-- In `en50221_sl_handle_open_session_request`. -/
def openSessionResHdr (status : UInt8) (resourceId : UInt32) (sessionNumber : UInt16) : List UInt8 :=
  [stOpenSessionRes, 7, status] ++ hdr32 resourceId ++ hdr16 sessionNumber

/-- In `en50221_sl_create_session`. -/
def createSessionHdr (resourceId : UInt32) (sessionNumber : UInt16) : List UInt8 :=
  [stCreateSession, 6] ++ hdr32 resourceId ++ hdr16 sessionNumber

/-- In `en50221_sl_destroy_session`. -/
def closeSessionReqHdr (sessionNumber : UInt16) : List UInt8 :=
  [stCloseSessionReq, 2] ++ hdr16 sessionNumber

/-- In `en50221_sl_handle_close_session_request`. -/
def closeSessionResHdr (code : UInt8) (sessionNumber : UInt16) : List UInt8 :=
  [stCloseSessionRes, 3, code] ++ hdr16 sessionNumber

/-- In `en50221_sl_send_data` and `en50221_sl_send_datav`. -/
def sessionNumberHdr (sessionNumber : UInt16) : List UInt8 :=
  [stSessionNumber, 2] ++ hdr16 sessionNumber

/-! ### What is read

`data` begins behind the tag; `none` is the message about an invalid length. -/

def decodeOpenSessionRequest (data : List UInt8) : Option UInt32 :=
  if data.length < 5 then none
  else if data.getD 0 0 ≠ 4 then none
  else some (word32 (data.getD 1 0) (data.getD 2 0) (data.getD 3 0) (data.getD 4 0))

def decodeCloseSessionRequest (data : List UInt8) : Option UInt16 :=
  if data.length < 3 then none
  else if data.getD 0 0 ≠ 2 then none
  else some (word16 (data.getD 1 0) (data.getD 2 0))

def decodeCreateSessionResponse (data : List UInt8) : Option (UInt8 × UInt16) :=
  if data.length < 8 then none
  else if data.getD 0 0 ≠ 7 then none
  else some (data.getD 1 0, word16 (data.getD 5 0) (data.getD 6 0))

def decodeCloseSessionResponse (data : List UInt8) : Option (UInt8 × UInt16) :=
  if data.length < 5 then none
  else if data.getD 0 0 ≠ 4 then none
  else some (data.getD 1 0, word16 (data.getD 2 0) (data.getD 3 0))

def decodeSessionPackage (data : List UInt8) : Option (UInt16 × List UInt8) :=
  if data.length < 3 then none
  else if data.getD 0 0 ≠ 2 then none
  else some (word16 (data.getD 1 0) (data.getD 2 0), data.drop 3)

/-- What a handler has read before it looks at the session table. -/
inductive Received where
  | openSessionRequest (resourceId : UInt32)
  | closeSessionRequest (sessionNumber : UInt16)
  | sessionPackage (sessionNumber : UInt16) (apdus : List UInt8)
  | createSessionResponse (status : UInt8) (sessionNumber : UInt16)
  | closeSessionResponse (status : UInt8) (sessionNumber : UInt16)
  deriving Repr, DecidableEq

/-- The switch over the tag at the end of `en50221_sl_transport_callback`. -/
def decodeSpdu : List UInt8 → Option Received
  | [] => none
  | tag :: data =>
    if tag = stOpenSessionReq then (decodeOpenSessionRequest data).map .openSessionRequest
    else if tag = stCloseSessionReq then (decodeCloseSessionRequest data).map .closeSessionRequest
    else if tag = stSessionNumber then (decodeSessionPackage data).map fun p => .sessionPackage p.1 p.2
    else if tag = stCreateSessionRes then
      (decodeCreateSessionResponse data).map fun p => .createSessionResponse p.1 p.2
    else if tag = stCloseSessionRes then
      (decodeCloseSessionResponse data).map fun p => .closeSessionResponse p.1 p.2
    else none

/-! ### The objects of the standard -/

inductive Spdu where
  | sessionNumber (sessionNb : UInt16)
  | openSessionRequest (resourceId : UInt32)
  | openSessionResponse (status : UInt8) (resourceId : UInt32) (sessionNb : UInt16)
  | createSession (resourceId : UInt32) (sessionNb : UInt16)
  | createSessionResponse (status : UInt8) (resourceId : UInt32) (sessionNb : UInt16)
  | closeSessionRequest (sessionNb : UInt16)
  | closeSessionResponse (status : UInt8) (sessionNb : UInt16)
  deriving Repr, DecidableEq

def Spdu.tag : Spdu → UInt8
  | .sessionNumber _ => 0x90
  | .openSessionRequest _ => 0x91
  | .openSessionResponse _ _ _ => 0x92
  | .createSession _ _ => 0x93
  | .createSessionResponse _ _ _ => 0x94
  | .closeSessionRequest _ => 0x95
  | .closeSessionResponse _ _ => 0x96

def Spdu.fields : Spdu → List UInt8
  | .sessionNumber nb => beBytes 2 nb.toNat
  | .openSessionRequest res => beBytes 4 res.toNat
  | .openSessionResponse status res nb => status :: (beBytes 4 res.toNat ++ beBytes 2 nb.toNat)
  | .createSession res nb => beBytes 4 res.toNat ++ beBytes 2 nb.toNat
  | .createSessionResponse status res nb => status :: (beBytes 4 res.toNat ++ beBytes 2 nb.toNat)
  | .closeSessionRequest nb => beBytes 2 nb.toNat
  | .closeSessionResponse status nb => status :: beBytes 2 nb.toNat

def spduForm (o : Spdu) : List UInt8 := o.tag :: UInt8.ofNat o.fields.length :: o.fields

/-- The bytes the library sends for an object, if it is one that it sends. -/
def emitted : Spdu → Option (List UInt8)
  | .sessionNumber nb => some (sessionNumberHdr nb)
  | .openSessionRequest _ => none
  | .openSessionResponse status res nb => some (openSessionResHdr status res nb)
  | .createSession res nb => some (createSessionHdr res nb)
  | .createSessionResponse _ _ _ => none
  | .closeSessionRequest nb => some (closeSessionReqHdr nb)
  | .closeSessionResponse status nb => some (closeSessionResHdr status nb)

/-- What has to be read from an object, if it is one that the library receives. -/
def expected : Spdu → Option Received
  | .sessionNumber nb => some (.sessionPackage nb [])
  | .openSessionRequest res => some (.openSessionRequest res)
  | .openSessionResponse _ _ _ => none
  | .createSession _ _ => none
  | .createSessionResponse status _ nb => some (.createSessionResponse status nb)
  | .closeSessionRequest nb => some (.closeSessionRequest nb)
  | .closeSessionResponse status nb => some (.closeSessionResponse status nb)

/-- Sent as the standard says, and read back from what the standard says. -/
structure Agreement (o : Spdu) : Prop where
  sent : ∀ bytes, emitted o = some bytes → bytes = spduForm o
  read : ∀ r, expected o = some r → decodeSpdu (spduForm o) = some r

/-! ### Words and bytes -/

theorem word16_toNat (hi lo : UInt8) : (word16 hi lo).toNat = beNat [hi, lo] := by
  have h1 := hi.toNat_lt
  have h2 := lo.toNat_lt
  rw [word16, UInt16.toNat_or, UInt16.toNat_shiftLeft]
  show (hi.toNat <<< 8) % 2 ^ 16 ||| lo.toNat = (0 * 256 + hi.toNat) * 256 + lo.toNat
  rw [Nat.shiftLeft_eq, Nat.mod_eq_of_lt (by omega), or_eq_add 8 (by omega) h2]
  omega

theorem word32_toNat (a b c d : UInt8) : (word32 a b c d).toNat = beNat [a, b, c, d] := toNat_or_shiftLeft a b c d

theorem hdr16_eq (x : UInt16) : hdr16 x = beBytes 2 x.toNat := by
  have hlow : x.toUInt8 = UInt8.ofNat (x.toNat / 256 ^ 0) := by
    apply UInt8.toNat_inj.mp
    rw [UInt8.toNat_ofNat', UInt16.toNat_toUInt8]
    omega
  have hhigh : (x >>> 8).toUInt8 = UInt8.ofNat (x.toNat / 256 ^ 1) := by
    apply UInt8.toNat_inj.mp
    rw [UInt8.toNat_ofNat', UInt16.toNat_toUInt8, UInt16.toNat_shiftRight, Nat.shiftRight_eq_div_pow]
    rfl
  rw [hdr16, hlow, hhigh]
  rfl

theorem hdr32_eq (x : UInt32) : hdr32 x = beBytes 4 x.toNat := by
  have hlow : x.toUInt8 = UInt8.ofNat (x.toNat / 256 ^ 0) := by
    apply UInt8.toNat_inj.mp
    rw [UInt8.toNat_ofNat', UInt32.toNat_toUInt8]
    omega
  have hbyte : ∀ k : UInt32, k.toNat % 32 = k.toNat → ∀ n, 256 ^ n = 2 ^ k.toNat →
      (x >>> k).toUInt8 = UInt8.ofNat (x.toNat / 256 ^ n) := by
    intro k hk n hn
    apply UInt8.toNat_inj.mp
    rw [UInt8.toNat_ofNat', UInt32.toNat_toUInt8, UInt32.toNat_shiftRight, Nat.shiftRight_eq_div_pow, hk, hn]
  rw [hdr32, hlow, hbyte 24 rfl 3 rfl, hbyte 16 rfl 2 rfl, hbyte 8 rfl 1 rfl]
  rfl

theorem word16_beBytes (x : UInt16) :
    word16 (UInt8.ofNat (x.toNat / 256 ^ 1)) (UInt8.ofNat (x.toNat / 256 ^ 0)) = x := by
  apply UInt16.toNat_inj.mp
  rw [word16_toNat]
  exact beNat_beBytes (n := 2) x.toNat_lt

theorem word32_beBytes (x : UInt32) :
    word32 (UInt8.ofNat (x.toNat / 256 ^ 3)) (UInt8.ofNat (x.toNat / 256 ^ 2))
      (UInt8.ofNat (x.toNat / 256 ^ 1)) (UInt8.ofNat (x.toNat / 256 ^ 0)) = x := by
  apply UInt32.toNat_inj.mp
  rw [word32_toNat]
  exact beNat_beBytes (n := 4) x.toNat_lt

/-! ### Agreement -/

theorem emitted_form (o : Spdu) (bytes : List UInt8) (h : emitted o = some bytes) :
    bytes = spduForm o := by
  cases o with
  | openSessionRequest res => exact absurd h (by simp [emitted])
  | createSessionResponse status res nb => exact absurd h (by simp [emitted])
  | sessionNumber nb =>
    obtain rfl := Option.some.inj h
    rw [sessionNumberHdr, hdr16_eq]
    rfl
  | openSessionResponse status res nb =>
    obtain rfl := Option.some.inj h
    rw [openSessionResHdr, hdr16_eq, hdr32_eq]
    rfl
  | createSession res nb =>
    obtain rfl := Option.some.inj h
    rw [createSessionHdr, hdr16_eq, hdr32_eq]
    rfl
  | closeSessionRequest nb =>
    obtain rfl := Option.some.inj h
    rw [closeSessionReqHdr, hdr16_eq]
    rfl
  | closeSessionResponse status nb =>
    obtain rfl := Option.some.inj h
    rw [closeSessionResHdr, hdr16_eq]
    rfl

/-- The session number is read one byte early: from the last byte of the resource id and the first
of the session number. -/
theorem decodeSpdu_createSessionResponse (status : UInt8) (res : UInt32) (nb : UInt16) :
    decodeSpdu (spduForm (.createSessionResponse status res nb)) =
      some (.createSessionResponse status
        (word16 (UInt8.ofNat (res.toNat / 256 ^ 0)) (UInt8.ofNat (nb.toNat / 256 ^ 1)))) := rfl

theorem decodeSpdu_closeSessionResponse (status : UInt8) (nb : UInt16) :
    decodeSpdu (spduForm (.closeSessionResponse status nb)) = none := rfl

def Spdu.agreed : Spdu → Prop
  | .closeSessionResponse _ _ => False
  | .createSessionResponse _ res nb =>
    res.toNat % 256 = nb.toNat / 256 ∧ nb.toNat / 256 = nb.toNat % 256
  | _ => True

instance : DecidablePred Spdu.agreed := fun o =>
  match o with
  | .closeSessionResponse _ _ => isFalse id
  | .createSessionResponse _ _ _ => inferInstanceAs (Decidable (_ ∧ _))
  | .sessionNumber _ | .openSessionRequest _ | .openSessionResponse _ _ _ | .createSession _ _
  | .closeSessionRequest _ => isTrue trivial

/-- **Encoder and decoder.**  What the library sends is what the standard says, and what the standard says is read
back, exactly if the object is no close_session_response and no create_session_response unless its last resource id
byte and the two bytes of its session number are equal. -/
theorem spdu_agreement_iff (o : Spdu) : Agreement o ↔ o.agreed := by
  constructor
  · intro h
    cases o with
    | closeSessionResponse status nb =>
      have hread := h.read _ rfl
      rw [decodeSpdu_closeSessionResponse] at hread
      exact absurd hread (by simp)
    | createSessionResponse status res nb =>
      have hread := h.read _ rfl
      rw [decodeSpdu_createSessionResponse] at hread
      have hword := (Received.createSessionResponse.inj (Option.some.inj hread)).2
      have hnat := congrArg UInt16.toNat hword
      rw [word16_toNat] at hnat
      have hnb := nb.toNat_lt
      simp only [beNat, List.foldl_cons, List.foldl_nil, UInt8.toNat_ofNat', pow_zero, Nat.div_one] at hnat
      show res.toNat % 256 = nb.toNat / 256 ∧ nb.toNat / 256 = nb.toNat % 256
      omega
    | sessionNumber nb => trivial
    | openSessionRequest res => trivial
    | openSessionResponse status res nb => trivial
    | createSession res nb => trivial
    | closeSessionRequest nb => trivial
  · intro h
    refine ⟨emitted_form o, ?_⟩
    intro r hr
    cases o with
    | closeSessionResponse status nb => exact absurd h id
    | createSessionResponse status res nb =>
      obtain rfl := Option.some.inj hr
      rw [decodeSpdu_createSessionResponse]
      have hnb := nb.toNat_lt
      have hword : word16 (UInt8.ofNat (res.toNat / 256 ^ 0)) (UInt8.ofNat (nb.toNat / 256 ^ 1)) = nb := by
        apply UInt16.toNat_inj.mp
        rw [word16_toNat]
        simp only [beNat, List.foldl_cons, List.foldl_nil, UInt8.toNat_ofNat']
        obtain ⟨h1, h2⟩ := h
        omega
      rw [hword]
    | sessionNumber nb =>
      obtain rfl := Option.some.inj hr
      exact congrArg (fun n => some (Received.sessionPackage n [])) (word16_beBytes nb)
    | openSessionRequest res =>
      obtain rfl := Option.some.inj hr
      exact congrArg (fun n => some (Received.openSessionRequest n)) (word32_beBytes res)
    | openSessionResponse status res nb => exact absurd hr (by simp [expected])
    | createSession res nb => exact absurd hr (by simp [expected])
    | closeSessionRequest nb =>
      obtain rfl := Option.some.inj hr
      exact congrArg (fun n => some (Received.closeSessionRequest n)) (word16_beBytes nb)

/-- The answer to a close_session_request is not accepted as one, and the answer to a create_session
for session 1 of the resource manager is taken for session 0x4100. -/
theorem not_agreement_responses :
    ¬ Agreement (.closeSessionResponse 0x00 1) ∧ ¬ Agreement (.createSessionResponse 0x00 0x00010041 1) := by
  constructor
  · intro h
    exact absurd (h.read _ rfl) (by decide)
  · intro h
    exact absurd (h.read _ rfl) (by decide)

end BgtDvb.En50221
