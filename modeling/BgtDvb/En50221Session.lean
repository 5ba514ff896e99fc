import BgtDvb.En50221Spdu
import BgtDvb.En50221Transport

/-!
# The session table of EN50221

`en50221_session.c` keeps a table of sessions, each on a connection of a slot.  Objects from a module
open and close sessions; the transport layer reports connections and slots that have gone.

* `closeLoop_spec` — **PROVED**: what such a loop does to the table and which callbacks it makes;
* `teardown_iff` — **PROVED**: the two reasons tear down exactly the sessions they name, exactly if no
  session of that connection number is in use on another slot.

Each handler returns the table and the calls it made, in their order.  A callback is recorded with its
arguments; that it may call back into the layer is left out.
-/

namespace BgtDvb.En50221

/-! ### The state -/

/-- `S_STATE_*`. -/
inductive SessionState where
  | idle | active | inCreation | inDeletion
  deriving Repr, DecidableEq

/-- `struct en50221_session`; the resource callback by a number for it. -/
structure Session where
  state : SessionState
  resourceId : UInt32
  slotId : UInt8
  connectionId : UInt8
  callback : Option ℕ
  deriving Repr, DecidableEq

/-- `struct en50221_session_layer`. -/
structure Sl where
  maxSessions : ℕ
  sessions : ℕ → Session
  hasSessionCallback : Bool
  error : ℤ

/-- `S_SCALLBACK_REASON_*`. -/
inductive SessionReason where
  | camConnecting | camConnected | camConnectFail | connected | connectFail | close | tcConnect | tcCamConnect
  deriving Repr, DecidableEq

/-- The calls that leave the layer: the lookup callback, the session callback (with the session or, for
the last two reasons, the connection number), the callback of a resource, and a message given to the
transport layer with its outcome. -/
inductive SlEvent where
  | lookup (slotId : UInt8) (resourceId : UInt32)
  | callback (reason : SessionReason) (slotId : UInt8) (number : ℕ) (resourceId : UInt32)
  | resource (callback : ℕ) (slotId : UInt8) (number : ℕ) (resourceId : UInt32) (apdu : List UInt8)
  | send (slotId connectionId : UInt8) (bytes : List UInt8) (ok : Bool)
  deriving Repr, DecidableEq

/-- The outside of one call: result and resource callback of the lookup callback if there is one, what
`connected_resource_id` holds after it (stored by it or never initialised), whether the session callback
objects to a connecting session, and whether the transport layer takes the answer. -/
structure SlEnv where
  lookup : Option (ℤ × Option ℕ)
  connectedResourceId : UInt32
  objects : Bool
  sendOk : Bool
  deriving Repr, DecidableEq

def Sl.setSession (sl : Sl) (n : ℕ) (s : Session) : Sl :=
  { sl with sessions := Function.update sl.sessions n s }

def Sl.setSessionState (sl : Sl) (n : ℕ) (st : SessionState) : Sl :=
  sl.setSession n { sl.sessions n with state := st }

/-- `if (cb) cb(cb_arg, reason, …)`. -/
def Sl.callSession (sl : Sl) (reason : SessionReason) (slot : UInt8) (n : ℕ) (res : UInt32) :
    List SlEvent :=
  if sl.hasSessionCallback = true then [.callback reason slot n res] else []

def outOfSessions : ℤ := -14

/-- `en50221_sl_alloc_new_session`; number 0 is never given out. -/
def slAllocNewSession (sl : Sl) (resourceId : UInt32) (slot conn : UInt8) (callback : Option ℕ) :
    Option ℕ × Sl :=
  match (List.range sl.maxSessions).find? fun i => 1 ≤ i && (sl.sessions i).state == .idle with
  | none => (none, { sl with error := outOfSessions })
  | some n => (some n, sl.setSession n ⟨.inCreation, resourceId, slot, conn, callback⟩)

/-! ### Opening -/

/-- `S_STATUS_*`. -/
def statusOpen : ℤ := 0x00

def statusNoRes : ℤ := 0xF0

def statusResUnavailable : ℤ := 0xF1

def statusResLowVersion : ℤ := 0xF2

def statusResBusy : ℤ := 0xF3

/-- The switch over the result of the lookup; another result is the status itself. -/
def lookupStatus : Option (ℤ × Option ℕ) → ℤ
  | none => statusNoRes
  | some (ret, _) =>
    if ret = 0 then statusOpen
    else if ret = -1 then statusNoRes
    else if ret = -2 then statusResLowVersion
    else if ret = -3 then statusResUnavailable
    else ret

/-- The status after the session callback was asked, and the call. -/
def askSession (sl : Sl) (env : SlEnv) (slot : UInt8) (n : ℕ) (res : UInt32) : ℤ × List SlEvent :=
  if sl.hasSessionCallback = true then
    (if env.objects = true then statusResBusy else statusOpen, [.callback .camConnecting slot n res])
  else (statusResUnavailable, [])

/-- Lookup, allocation and the question to the session callback: status, session number, table and
calls. -/
def openSession (sl : Sl) (env : SlEnv) (slot conn : UInt8) : ℤ × Option ℕ × Sl × List SlEvent :=
  if lookupStatus env.lookup = statusOpen then
    let a := slAllocNewSession sl env.connectedResourceId slot conn (env.lookup.bind (·.2))
    match a.1 with
    | none => (statusNoRes, none, a.2, [])
    | some n =>
      let q := askSession a.2 env slot n env.connectedResourceId
      (q.1, some n, a.2, q.2)
  else (lookupStatus env.lookup, none, sl, [])

/-- The session number as the answer carries it; `-1` where there is none. -/
def answerNumber : Option ℕ → UInt16
  | none => 0xffff
  | some n => UInt16.ofNat n

/-- The end of the handler: the state of the session, and the callback, which is reached only with the
state just made active. -/
def settleSession (sl : Sl) (status : ℤ) (slot : UInt8) (n : ℕ) (res : UInt32) : Sl × List SlEvent :=
  let sl := sl.setSessionState n (if status ≠ statusOpen then .idle else .active)
  if (sl.sessions n).state = .active then
    if status = statusOpen then (sl, sl.callSession .camConnected slot n res)
    else (sl.setSessionState n .idle, sl.callSession .camConnectFail slot n res)
  else (sl, [])

/-- `en50221_sl_handle_open_session_request`, behind its length checks. -/
def slHandleOpenSessionRequest (sl : Sl) (env : SlEnv) (slot conn : UInt8) (resourceId : UInt32) :
    Sl × List SlEvent :=
  let asked := if env.lookup.isSome = true then [SlEvent.lookup slot resourceId] else []
  let o := openSession sl env slot conn
  let bytes := openSessionResHdr (UInt8.ofInt o.1) env.connectedResourceId (answerNumber o.2.1)
  let status := if env.sendOk = true then o.1 else statusNoRes
  let sent := asked ++ o.2.2.2 ++ [SlEvent.send slot conn bytes env.sendOk]
  match o.2.1 with
  | none => (o.2.2.1, sent)
  | some n =>
    let s := settleSession o.2.2.1 status slot n env.connectedResourceId
    (s.1, sent ++ s.2)

/-! ### Closing, and host-originated sessions -/

def Session.isOn (s : Session) (slot conn : UInt8) : Bool := slot == s.slotId && conn == s.connectionId

/-- `en50221_sl_handle_close_session_request`, behind its length checks. -/
def slHandleCloseSessionRequest (sl : Sl) (sendOk : Bool) (slot conn : UInt8) (nb : UInt16) :
    Sl × List SlEvent :=
  let n := nb.toNat
  let s := sl.sessions n
  let ok := decide (n < sl.maxSessions) && s.isOn slot conn && (s.state == .active || s.state == .inDeletion)
  let code : UInt8 := if ok = true then 0x00 else 0xF0
  let sl' := if ok = true then sl.setSessionState n .idle else sl
  let sent := [SlEvent.send slot conn (closeSessionResHdr code nb) sendOk]
  if ok = true then (sl', sent ++ sl'.callSession .close slot n s.resourceId) else (sl', sent)

/-- `en50221_sl_handle_create_session_response`, behind its length checks. -/
def slHandleCreateSessionResponse (sl : Sl) (slot conn : UInt8) (status : UInt8) (nb : UInt16) :
    Sl × List SlEvent :=
  let n := nb.toNat
  let s := sl.sessions n
  if decide (n < sl.maxSessions) && s.isOn slot conn && s.state == .inCreation then
    if status ≠ 0x00 then
      let sl := sl.setSessionState n .idle
      (sl, sl.callSession .connectFail slot n s.resourceId)
    else
      let sl := sl.setSessionState n .active
      (sl, sl.callSession .connected slot n s.resourceId)
  else (sl, [])

/-- `en50221_sl_handle_close_session_response`, behind its length checks; the status is only
printed. -/
def slHandleCloseSessionResponse (sl : Sl) (slot conn : UInt8) (nb : UInt16) : Sl × List SlEvent :=
  let n := nb.toNat
  let s := sl.sessions n
  if decide (n < sl.maxSessions) && s.isOn slot conn && s.state == .inDeletion then
    (sl.setSessionState n .idle, [])
  else (sl, [])

/-- The APDUs of a session package; the walk ends at the first that is incomplete.  Each takes at least
four bytes, so the length of the data is fuel enough. -/
def apdus : ℕ → List UInt8 → List (List UInt8)
  | 0, _ => []
  | fuel + 1, data =>
    if data.length < 3 then []
    else
      match asn1Decode (data.drop 3) with
      | none => []
      | some (asnDataLength, lengthFieldLen) =>
        let apduLength := 3 + lengthFieldLen + asnDataLength
        if apduLength > data.length then []
        else data.take apduLength :: apdus fuel (data.drop apduLength)

/-- `en50221_sl_handle_session_package`, behind its length checks. -/
def slHandleSessionPackage (sl : Sl) (slot conn : UInt8) (nb : UInt16) (data : List UInt8) :
    Sl × List SlEvent :=
  let n := nb.toNat
  let s := sl.sessions n
  if decide (n < sl.maxSessions) && s.isOn slot conn && s.state == .active then
    match s.callback with
    | none => (sl, [])
    | some cb => (sl, (apdus data.length data).map (.resource cb slot n s.resourceId))
  else (sl, [])

/-! ### The transport callback -/

/-- The loops over the session table: every session in use that is selected becomes idle and is announced
as closed. -/
def closeLoop (select : Session → Bool) : List ℕ → Sl → Sl × List SlEvent
  | [], sl => (sl, [])
  | i :: is, sl =>
    let s := sl.sessions i
    if s.state = .idle then closeLoop select is sl
    else if select s = false then closeLoop select is sl
    else
      let sl := sl.setSessionState i .idle
      let r := closeLoop select is sl
      (r.1, sl.callSession .close s.slotId i s.resourceId ++ r.2)

/-- `T_CALLBACK_REASON_CONNECTIONCLOSE`: the connection number alone is compared. -/
def slConnectionClose (sl : Sl) (_slot conn : UInt8) : Sl × List SlEvent :=
  closeLoop (fun s => s.connectionId == conn) (List.range sl.maxSessions) sl

/-- `T_CALLBACK_REASON_SLOTCLOSE`. -/
def slSlotClose (sl : Sl) (slot : UInt8) : Sl × List SlEvent :=
  closeLoop (fun s => s.slotId == slot) (List.range sl.maxSessions) sl

/-- `en50221_sl_transport_callback` for data: the switch over the tag. -/
def slReceive (sl : Sl) (env : SlEnv) (slot conn : UInt8) (data : List UInt8) : Sl × List SlEvent :=
  match decodeSpdu data with
  | none => (sl, [])
  | some (.openSessionRequest res) => slHandleOpenSessionRequest sl env slot conn res
  | some (.closeSessionRequest nb) => slHandleCloseSessionRequest sl env.sendOk slot conn nb
  | some (.sessionPackage nb rest) => slHandleSessionPackage sl slot conn nb rest
  | some (.createSessionResponse status nb) => slHandleCreateSessionResponse sl slot conn status nb
  | some (.closeSessionResponse _ nb) => slHandleCloseSessionResponse sl slot conn nb

/-- `en50221_sl_transport_callback`. -/
def slTransportCallback (sl : Sl) (env : SlEnv) (reason : Reason) (slot conn : UInt8)
    (data : List UInt8) : Sl × List SlEvent :=
  match reason with
  | .data => slReceive sl env slot conn data
  | .connectionOpen => (sl, sl.callSession .tcConnect slot conn.toNat 0)
  | .camConnectionOpen => (sl, sl.callSession .tcCamConnect slot conn.toNat 0)
  | .connectionClose => slConnectionClose sl slot conn
  | .slotClose => slSlotClose sl slot

/-! ### Tearing down -/

def closes (select : Session → Bool) (s : Session) : Bool := s.state ≠ .idle && select s

def closeEvent (sl : Sl) (i : ℕ) : SlEvent :=
  .callback .close (sl.sessions i).slotId i (sl.sessions i).resourceId

theorem setSessionState_of_ne (sl : Sl) {i j : ℕ} (st : SessionState) (h : j ≠ i) :
    (sl.setSessionState i st).sessions j = sl.sessions j :=
  Function.update_of_ne h _ _

theorem setSessionState_self (sl : Sl) (i : ℕ) (st : SessionState) :
    (sl.setSessionState i st).sessions i = { sl.sessions i with state := st } :=
  Function.update_self i _ _

theorem closeLoop_skip {select : Session → Bool} {i : ℕ} {is : List ℕ} {sl : Sl}
    (h : closes select (sl.sessions i) = false) : closeLoop select (i :: is) sl = closeLoop select is sl := by
  rw [closeLoop]
  by_cases hidle : (sl.sessions i).state = .idle
  · rw [if_pos hidle]
  · have hsel : select (sl.sessions i) = false := by simpa [closes, hidle] using h
    rw [if_neg hidle, if_pos hsel]

theorem closeLoop_close {select : Session → Bool} {i : ℕ} {is : List ℕ} {sl : Sl}
    (h : closes select (sl.sessions i) = true) : closeLoop select (i :: is) sl =
      ((closeLoop select is (sl.setSessionState i .idle)).1,
        (if sl.hasSessionCallback = true then [closeEvent sl i] else []) ++
          (closeLoop select is (sl.setSessionState i .idle)).2) := by
  obtain ⟨huse, hsel⟩ : (sl.sessions i).state ≠ .idle ∧ select (sl.sessions i) = true := by
    simpa [closes] using h
  rw [closeLoop, if_neg huse, if_neg (by simp [hsel])]
  rfl

/-- **A loop over the table.**  It closes the selected sessions of the list, each once and in its order,
and touches no other. -/
theorem closeLoop_spec (select : Session → Bool) (is : List ℕ) (sl : Sl) (hnd : is.Nodup) :
    (closeLoop select is sl).1.sessions = (fun i =>
      if i ∈ is ∧ closes select (sl.sessions i) = true then { sl.sessions i with state := .idle }
      else sl.sessions i) ∧
    (closeLoop select is sl).2 =
      if sl.hasSessionCallback = true then
        (is.filter fun i => closes select (sl.sessions i)).map (closeEvent sl)
      else [] := by
  induction is generalizing sl with
  | nil => simp [closeLoop]
  | cons i is ih =>
    obtain ⟨hi, hnd'⟩ := List.nodup_cons.mp hnd
    by_cases h : closes select (sl.sessions i) = true
    · obtain ⟨ihs, ihe⟩ := ih (sl.setSessionState i .idle) hnd'
      have hother : ∀ j ∈ is, (sl.setSessionState i .idle).sessions j = sl.sessions j := by
        intro j hj
        exact setSessionState_of_ne sl .idle (fun hji => hi (hji ▸ hj))
      rw [closeLoop_close h]
      constructor
      · rw [ihs]
        funext j
        by_cases hji : j = i
        · subst hji
          simp only [hi, false_and, if_false, List.mem_cons, true_or, h, and_self, if_true]
          exact setSessionState_self sl j .idle
        · simp only [setSessionState_of_ne sl .idle hji, List.mem_cons, hji, false_or]
      · show _ ++ (closeLoop select is (sl.setSessionState i .idle)).2 = _
        rw [ihe]
        show _ ++ (if sl.hasSessionCallback = true then _ else []) = _
        split
        · rw [List.filter_cons_of_pos (p := fun j => closes select (sl.sessions j)) h, List.map_cons]
          have hfilter : (is.filter fun j => closes select ((sl.setSessionState i .idle).sessions j))
              = is.filter fun j => closes select (sl.sessions j) := by
            apply List.filter_congr
            intro j hj
            rw [hother j hj]
          rw [hfilter, List.singleton_append]
          refine congrArg (closeEvent sl i :: ·) ?_
          apply List.map_congr_left
          intro j hj
          have hj' := List.mem_of_mem_filter hj
          show SlEvent.callback .close _ j _ = _
          rw [hother j hj']
          rfl
        · rfl
    · have hf : closes select (sl.sessions i) = false := by simpa using h
      obtain ⟨ihs, ihe⟩ := ih sl hnd'
      rw [closeLoop_skip hf]
      constructor
      · rw [ihs]
        funext j
        by_cases hji : j = i
        · subst hji
          simp [h]
        · simp [hji]
      · rw [ihe, List.filter_cons_of_neg (p := fun j => closes select (sl.sessions j)) h]

/-- What a teardown owes: exactly the sessions in use that are named become idle, with one CLOSE
callback each, and every other session is as before. -/
structure TornDown (sl : Sl) (named : Session → Prop) [DecidablePred named] (r : Sl × List SlEvent) :
    Prop where
  sessions_eq : ∀ i, r.1.sessions i =
    if i < sl.maxSessions ∧ (sl.sessions i).state ≠ .idle ∧ named (sl.sessions i) then
      { sl.sessions i with state := .idle }
    else sl.sessions i
  events_eq : r.2 =
    if sl.hasSessionCallback = true then
      ((List.range sl.maxSessions).filter fun i =>
        decide ((sl.sessions i).state ≠ .idle ∧ named (sl.sessions i))).map (closeEvent sl)
    else []

theorem tornDown_closeLoop {sl : Sl} {select : Session → Bool} {named : Session → Prop}
    [DecidablePred named] (h : ∀ i < sl.maxSessions, (sl.sessions i).state ≠ .idle →
      (select (sl.sessions i) = true ↔ named (sl.sessions i))) :
    TornDown sl named (closeLoop select (List.range sl.maxSessions) sl) := by
  obtain ⟨hs, he⟩ := closeLoop_spec select (List.range sl.maxSessions) sl List.nodup_range
  have hiff : ∀ i < sl.maxSessions, (closes select (sl.sessions i) = true ↔
      (sl.sessions i).state ≠ .idle ∧ named (sl.sessions i)) := by
    intro i hi
    unfold closes
    rw [Bool.and_eq_true, decide_eq_true_eq]
    exact and_congr_right fun huse => h i hi huse
  constructor
  · intro i
    rw [hs]
    refine if_congr ?_ rfl rfl
    rw [List.mem_range]
    exact and_congr_right fun hi => hiff i hi
  · rw [he]
    split
    · congr 1
      apply List.filter_congr
      intro i hi
      rw [Bool.eq_iff_iff, decide_eq_true_eq]
      exact hiff i (List.mem_range.mp hi)
    · rfl

/-- **Connection teardown.**  The reasons CONNECTIONCLOSE and SLOTCLOSE tear down exactly the sessions of
their connection and slot, exactly if no session with that connection number is in use on another
slot. -/
theorem teardown_iff (sl : Sl) (env : SlEnv) (slot conn : UInt8) (data : List UInt8) :
    (TornDown sl (fun s => s.slotId = slot ∧ s.connectionId = conn)
        (slTransportCallback sl env .connectionClose slot conn data) ∧
      TornDown sl (fun s => s.slotId = slot) (slTransportCallback sl env .slotClose slot conn data)) ↔
    ∀ i < sl.maxSessions, (sl.sessions i).state ≠ .idle → (sl.sessions i).connectionId = conn →
      (sl.sessions i).slotId = slot := by
  constructor
  · rintro ⟨hc, -⟩ i hi huse hconn
    by_contra hslot
    have hcode := (closeLoop_spec (fun s => s.connectionId == conn) (List.range sl.maxSessions) sl
      List.nodup_range).1
    have hclosed : ((closeLoop (fun s => s.connectionId == conn) (List.range sl.maxSessions) sl).1.sessions
        i).state = .idle := by
      rw [hcode]
      have hsel : closes (fun s => s.connectionId == conn) (sl.sessions i) = true := by
        simp [closes, huse, hconn]
      simp only [List.mem_range, hi, hsel, and_self, if_true]
    have hkept := hc.sessions_eq i
    rw [if_neg (fun h => hslot h.2.2.1)] at hkept
    exact huse (by rw [← hkept]; exact hclosed)
  · intro h
    constructor
    · refine tornDown_closeLoop fun i hi huse => ?_
      rw [beq_iff_eq]
      exact ⟨fun hc => ⟨h i hi huse hc, hc⟩, fun hn => hn.2⟩
    · exact tornDown_closeLoop fun i _ _ => beq_iff_eq

/-- Two CAMs with a session each on their connection 1; the first connection goes down. -/
def twoSlots : Sl where
  maxSessions := 3
  sessions i := if i = 1 then ⟨.active, 0x00010041, 0, 1, none⟩
    else if i = 2 then ⟨.active, 0x00010041, 1, 1, none⟩ else ⟨.idle, 0, 0, 0, none⟩
  hasSessionCallback := true
  error := 0

theorem not_tornDown_two_slots :
    ¬ TornDown twoSlots (fun s => s.slotId = 0 ∧ s.connectionId = 1)
      (slTransportCallback twoSlots ⟨none, 0, false, true⟩ .connectionClose 0 1 []) := by
  intro h
  exact absurd (h.sessions_eq 2) (by decide)

end BgtDvb.En50221
