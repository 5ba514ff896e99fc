import BgtDvb.En50221Asn1

/-!
# The receiving side of the EN50221 transport layer

`en50221_transport.c`: a slot has numbered connections; what a module sends is a sequence of TPDUs, each
a tag, a length field, a connection number and a payload.  `en50221_tl_process_data` walks over a buffer
and hands each TPDU to the handler of its tag; a handler that fails ends the buffer.

* `processData_bytes` — **PROVED**: the walk over encoded TPDUs hands each of them to its handler.
-/

namespace BgtDvb.En50221

/-! ### The state -/

/-- `T_STATE_*`. -/
inductive TcState where
  | idle | active | activeDeletequeued | inCreation | inDeletion
  deriving Repr, DecidableEq

/-- `chain_buffer`: no buffer, a buffer with its bytes, or a pointer to freed memory. -/
inductive ChainPtr where
  | null
  | alloc (bytes : List UInt8)
  | dangling
  deriving Repr, DecidableEq

/-- `struct en50221_connection`, as far as the receiving side uses it; `tx_time` by its seconds. -/
structure Connection where
  state : TcState
  txTime : ℕ
  chain : ChainPtr
  bufferLength : ℕ
  deriving Repr, DecidableEq

/-- `T_CALLBACK_REASON_*`. -/
inductive Reason where
  | connectionOpen | camConnectionOpen | data | connectionClose | slotClose
  deriving Repr, DecidableEq

abbrev ConnId := ℕ × ℕ

/-- A call of the callback. -/
structure TlCall where
  reason : Reason
  data : List UInt8
  conn : ConnId
  deriving Repr, DecidableEq

/-- `struct en50221_transport_layer`, with the callbacks made and the messages written. -/
structure Tl where
  maxConnections : ℕ
  conn : ConnId → Connection
  callback : Bool
  errorSlot : ℕ
  error : ℤ
  calls : List TlCall
  sent : List (ConnId × List UInt8)

/-- What the device does: whether the n-th write succeeds, and the time after it. -/
structure Link where
  ok : ℕ → Bool
  now : ℕ → ℕ

def caWrite : ℤ := -2

def badConnectionId : ℤ := -5

def badCamData : ℤ := -7

def outOfMemory : ℤ := -8

def Tl.setConn (tl : Tl) (k : ConnId) (c : Connection) : Tl :=
  { tl with conn := Function.update tl.conn k c }

def Tl.setState (tl : Tl) (k : ConnId) (s : TcState) : Tl := tl.setConn k { tl.conn k with state := s }

def Tl.setTxTime (tl : Tl) (k : ConnId) (t : ℕ) : Tl := tl.setConn k { tl.conn k with txTime := t }

/-- `error_slot` and `error` set, and -1 returned. -/
def Tl.fail (tl : Tl) (slot : ℕ) (err : ℤ) : ℤ × Tl := (-1, { tl with errorSlot := slot, error := err })

def Tl.call (tl : Tl) (reason : Reason) (data : List UInt8) (k : ConnId) : Tl :=
  if tl.callback then { tl with calls := tl.calls ++ [⟨reason, data, k⟩] } else tl

/-- `dvbca_link_write`. -/
def Tl.write (tl : Tl) (link : Link) (k : ConnId) (msg : List UInt8) : Bool × Tl :=
  (link.ok tl.sent.length, { tl with sent := tl.sent ++ [(k, msg)] })

/-! ### Memory -/

/-- A value of type `int` passed as a `size_t`. -/
def sizeOfInt (n : ℕ) : ℕ := if n % 2 ^ 32 < 2 ^ 31 then n % 2 ^ 32 else 2 ^ 64 - (2 ^ 32 - n % 2 ^ 32)

/-- The bytes kept in the new block (`none` for `NULL`) and what the old pointer points to then.  A freed
pointer must not be passed; size 0 frees a block; more than `PTRDIFF_MAX` bytes are never given. -/
def realloc (p : ChainPtr) (size : ℕ) : Option (Option (List UInt8) × ChainPtr) :=
  match p with
  | .dangling => none
  | .null => if size < 2 ^ 63 then some (some [], .null) else some (none, .null)
  | .alloc bytes =>
    if size = 0 then some (none, .dangling)
    else if size < 2 ^ 63 then some (some (bytes.take size), .dangling)
    else some (none, .alloc bytes)

/-! ### The handlers -/

def handleCreateTcReply (tl : Tl) (k : ConnId) : ℤ × Tl :=
  if (tl.conn k).state = .inCreation then
    (0, (tl.setConn k { tl.conn k with state := .active, txTime := 0 }).call .connectionOpen [] k)
  else tl.fail k.1 badCamData

/-- The chain buffer is freed: one that was freed before must not be. -/
def handleDeleteTc (link : Link) (tl : Tl) (k : ConnId) : Option (ℤ × Tl) :=
  if (tl.conn k).state = .active ∨ (tl.conn k).state = .inDeletion then
    if (tl.conn k).chain = .dangling then none
    else
      let tl := tl.setConn k { tl.conn k with state := .idle, chain := .null, bufferLength := 0 }
      let r := tl.write link k [0x85, 1, UInt8.ofNat k.2]
      if !r.1 then some (r.2.fail k.1 caWrite) else some (0, r.2.call .connectionClose [] k)
  else some (tl.fail k.1 badCamData)

def handleDeleteTcReply (tl : Tl) (k : ConnId) : ℤ × Tl :=
  if (tl.conn k).state = .inDeletion then (0, tl.setState k .idle) else tl.fail k.1 badCamData

/-- `en50221_tl_alloc_new_tc`: the first idle connection from 1 on, if there is one. -/
def allocNewTc (tl : Tl) (slot : ℕ) : Option (ℕ × Tl) :=
  match (List.range' 1 (tl.maxConnections - 1)).find? fun i => (tl.conn (slot, i)).state = .idle with
  | none => none
  | some conid =>
    some (conid, tl.setConn (slot, conid)
      { tl.conn (slot, conid) with state := .inCreation, chain := .null, bufferLength := 0 })

/-- The end of `en50221_tl_handle_request_tc` for a new connection. -/
def openNewTc (link : Link) (tl : Tl) (k : ConnId) (conid : ℕ) : ℤ × Tl :=
  let r := tl.write link k [0x87, 2, UInt8.ofNat k.2, UInt8.ofNat conid]
  if !r.1 then (r.2.setState (k.1, conid) .idle).fail k.1 caWrite
  else
    let r := (r.2.setTxTime k 0).write link (k.1, conid) [0x82, 1, UInt8.ofNat conid]
    if !r.1 then (r.2.setState (k.1, conid) .idle).fail k.1 caWrite
    else (0, (r.2.setTxTime (k.1, conid) (link.now r.2.sent.length)).call .camConnectionOpen []
      (k.1, conid))

def handleRequestTc (link : Link) (tl : Tl) (k : ConnId) : ℤ × Tl :=
  match allocNewTc tl k.1 with
  | none =>
    let r := tl.write link k [0x77, 2, UInt8.ofNat k.2, 1]
    if !r.1 then r.2.fail k.1 caWrite else (0, r.2.setTxTime k 0)
  | some (conid, tl) => openNewTc link tl k conid

/-- `memcpy` of a chunk behind the bytes kept by `realloc`. -/
def joinChunk (kept : List UInt8) (bufferLength : ℕ) (data : List UInt8) : List UInt8 :=
  kept.take bufferLength ++ data

def handleDataMore (tl : Tl) (k : ConnId) (data : List UInt8) : Option (ℤ × Tl) :=
  if (tl.conn k).state ≠ .active then some (tl.fail k.1 badCamData)
  else
    let c := { tl.conn k with txTime := 0 }
    match realloc c.chain (sizeOfInt (c.bufferLength + data.length)) with
    | none => none
    | some (none, p) => some ((tl.setConn k { c with chain := p }).fail k.1 outOfMemory)
    | some (some kept, _) =>
      some (0, tl.setConn k
        { c with
          chain := .alloc (joinChunk kept c.bufferLength data)
          bufferLength := (c.bufferLength + data.length) % 2 ^ 32 })

/-- The callback is made only `if (cb && data_length)`, with the length of the last chunk. -/
def handleDataLast (tl : Tl) (k : ConnId) (data : List UInt8) : Option (ℤ × Tl) :=
  if (tl.conn k).state ≠ .active then some (tl.fail k.1 badCamData)
  else
    let c := { tl.conn k with txTime := 0 }
    if c.chain = .null then
      let tl := tl.setConn k c
      some (0, if data.length ≠ 0 then tl.call .data data k else tl)
    else
      match realloc c.chain (sizeOfInt (c.bufferLength + data.length)) with
      | none => none
      | some (none, p) => some ((tl.setConn k { c with chain := p }).fail k.1 outOfMemory)
      | some (some kept, _) =>
        let tl := tl.setConn k { c with chain := .null, bufferLength := 0 }
        some (0, if data.length ≠ 0 then tl.call .data (joinChunk kept c.bufferLength data) k else tl)

def handleSb (link : Link) (tl : Tl) (k : ConnId) (data : List UInt8) : ℤ × Tl :=
  if (tl.conn k).state ≠ .active then tl.fail k.1 badCamData
  else
    match data with
    | [b] =>
      if b &&& 0x80 ≠ 0 then
        let r := tl.write link k [0x81, 1, UInt8.ofNat k.2]
        if !r.1 then r.2.fail k.1 caWrite else (0, r.2.setTxTime k (link.now r.2.sent.length))
      else (0, tl.setTxTime k 0)
    | _ => tl.fail k.1 badCamData

/-! ### The walk over a buffer -/

/-- Tag, connection and payload. -/
structure Tpdu where
  tag : UInt8
  conn : UInt8
  payload : List UInt8
  deriving Repr, DecidableEq

def tDataLast : UInt8 := 0xA0

def tDataMore : UInt8 := 0xA1

def Tpdu.id (slot : ℕ) (t : Tpdu) : ConnId := (slot, t.conn.toNat)

def handleTpdu (link : Link) (tl : Tl) (k : ConnId) (tag : UInt8) (data : List UInt8) :
    Option (ℤ × Tl) :=
  if tag = 0x83 then some (handleCreateTcReply tl k)
  else if tag = 0x84 then handleDeleteTc link tl k
  else if tag = 0x85 then some (handleDeleteTcReply tl k)
  else if tag = 0x86 then some (handleRequestTc link tl k)
  else if tag = tDataMore then handleDataMore tl k data
  else if tag = tDataLast then handleDataLast tl k data
  else if tag = 0x80 then some (handleSb link tl k data)
  else some (tl.fail k.1 badCamData)

def dispatch (link : Link) (slot : ℕ) (tl : Tl) (t : Tpdu) : Option (ℤ × Tl) :=
  if tl.maxConnections ≤ t.conn.toNat then some (tl.fail slot badConnectionId)
  else handleTpdu link tl (t.id slot) t.tag t.payload

def parseTpdu (data : List UInt8) : Option (Tpdu × List UInt8) :=
  match data with
  | [] => none
  | tag :: rest =>
    match asn1Decode rest with
    | none => none
    | some (len, fieldLen) =>
      if len < 1 ∨ rest.length - fieldLen < len then none
      else
        match rest.drop fieldLen with
        | [] => none
        | conn :: body => some (⟨tag, conn, body.take (len - 1)⟩, body.drop (len - 1))

/-- The loop; every round takes at least a byte, so there are at most as many rounds as bytes. -/
def processLoop (link : Link) (slot : ℕ) : ℕ → Tl → List UInt8 → Option (ℤ × Tl)
  | _, tl, [] => some (0, tl)
  | 0, _, _ :: _ => none
  | n + 1, tl, b :: bs =>
    match parseTpdu (b :: bs) with
    | none => some (tl.fail slot badCamData)
    | some (t, rest) =>
      match dispatch link slot tl t with
      | none => none
      | some (ret, tl) => if ret < 0 then some (-1, tl) else processLoop link slot n tl rest

/-- `en50221_tl_process_data`. -/
def processData (link : Link) (slot : ℕ) (tl : Tl) (data : List UInt8) : Option (ℤ × Tl) :=
  processLoop link slot data.length tl data

/-- Buffers of several slots one after the other, whatever each of them returns. -/
def receive (link : Link) (tl : Tl) (bufs : List (ℕ × List UInt8)) : Option Tl :=
  bufs.foldlM (fun tl b => (processData link b.1 tl b.2).map Prod.snd) tl

/-! ### Encoded TPDUs -/

/-- A TPDU as a module sends it, with a length field that can express its length. -/
structure WireTpdu where
  tpdu : Tpdu
  form : LengthForm
  fits : tpdu.payload.length + 1 < form.limit

def WireTpdu.bytes (w : WireTpdu) : List UInt8 :=
  w.tpdu.tag :: (w.form.field (w.tpdu.payload.length + 1) ++ w.tpdu.conn :: w.tpdu.payload)

/-- **Round trip of a TPDU.** -/
theorem parseTpdu_bytes (w : WireTpdu) (rest : List UInt8) :
    parseTpdu (w.bytes ++ rest) = some (w.tpdu, rest) := by
  have hdec := asn1Decode_field w.form w.fits (w.tpdu.conn :: w.tpdu.payload ++ rest)
  have hbytes : w.bytes ++ rest = w.tpdu.tag :: (w.form.field (w.tpdu.payload.length + 1) ++
      (w.tpdu.conn :: w.tpdu.payload ++ rest)) := by
    rw [WireTpdu.bytes, List.cons_append, List.append_assoc]
  rw [hbytes, parseTpdu, hdec]
  dsimp only
  rw [if_neg, List.drop_left]
  · show some ((⟨w.tpdu.tag, w.tpdu.conn, (w.tpdu.payload ++ rest).take (w.tpdu.payload.length + 1 - 1)⟩ :
      Tpdu), (w.tpdu.payload ++ rest).drop (w.tpdu.payload.length + 1 - 1)) = some (w.tpdu, rest)
    rw [Nat.add_sub_cancel, List.take_left, List.drop_left]
  · rw [List.length_append, List.cons_append, List.length_cons, List.length_append]
    omega

def handleAll (link : Link) (slot : ℕ) : Tl → List Tpdu → Option (ℤ × Tl)
  | tl, [] => some (0, tl)
  | tl, t :: ts =>
    match dispatch link slot tl t with
    | none => none
    | some (ret, tl) => if ret < 0 then some (-1, tl) else handleAll link slot tl ts

theorem processLoop_bytes (link : Link) (slot : ℕ) (ws : List WireTpdu) (n : ℕ) (tl : Tl)
    (hn : (ws.flatMap WireTpdu.bytes).length ≤ n) :
    processLoop link slot n tl (ws.flatMap WireTpdu.bytes)
      = handleAll link slot tl (ws.map WireTpdu.tpdu) := by
  induction ws generalizing n tl with
  | nil =>
    cases n with
    | zero => rfl
    | succ n => rfl
  | cons w ws ih =>
    have hparse := parseTpdu_bytes w (ws.flatMap WireTpdu.bytes)
    rw [List.flatMap_cons] at hn ⊢
    have hlen : (w.bytes ++ ws.flatMap WireTpdu.bytes).length
        = w.bytes.length + (ws.flatMap WireTpdu.bytes).length := List.length_append
    have hpos : 0 < w.bytes.length := Nat.succ_pos _
    cases n with
    | zero => omega
    | succ n =>
      have hcons : w.bytes ++ ws.flatMap WireTpdu.bytes = w.tpdu.tag ::
          ((w.form.field (w.tpdu.payload.length + 1) ++ w.tpdu.conn :: w.tpdu.payload) ++
            ws.flatMap WireTpdu.bytes) := rfl
      rw [hcons, processLoop, ← hcons, hparse, List.map_cons, handleAll]
      dsimp only
      cases dispatch link slot tl w.tpdu with
      | none => rfl
      | some r =>
        dsimp only
        rw [ih n r.2 (by omega)]

/-- **The walk over encoded TPDUs** hands each of them to its handler. -/
theorem processData_bytes (link : Link) (slot : ℕ) (tl : Tl) (ws : List WireTpdu) :
    processData link slot tl (ws.flatMap WireTpdu.bytes)
      = handleAll link slot tl (ws.map WireTpdu.tpdu) :=
  processLoop_bytes link slot ws _ tl (le_refl _)

end BgtDvb.En50221
