import BgtDvb.En50221MmiMenu
import BgtDvb.Lib.Mutex

/-!
# The locks of the MMI and low-speed resources

The public calls of `en50221_app_mmi.c` and `en50221_app_lowspeed.c` with the mutex of their resource, exit by
exit.

* `Mmi.goes_message`, `Lowspeed.goes_message` — **PROVED**: a message leaves the mutex free;
* `Mmi.clearSession_iff`, `Lowspeed.clearSession_iff` — **PROVED**: the end of a session does so exactly if there
  is no record of it;
* `appLocks_iff` — **PROVED**: along every run of either resource.

A callback is called behind the lock, so what the application does in it is not looked at.
-/

namespace BgtDvb.En50221.AppLocks

open BgtDvb.GuardedRun
open BgtDvb.Mutex
open BgtDvb.Mutex.Code

/-- What becomes of a call: the resource after it, where it returns. -/
def Outcome.state {σ α : Type} : Outcome (α × Guarded σ) → Option (Guarded σ)
  | .returns (_, s) => some s
  | .blocks => none
  | .undefined => none

def Balanced {σ α : Type} (outcome : Outcome (α × Guarded σ)) : Prop :=
  outcome ≠ .blocks ∧ ∀ v s, outcome = .returns (v, s) → s.locked = false

namespace Mmi

/-! ### MMI -/

/-- The callbacks of `struct en50221_app_mmi`. -/
inductive Callback
  | close | displayControl | keypadControl | subtitleSegment | sceneEndMark | sceneControl | subtitleDownload
  | flushDownload | enq | menu | list
  deriving DecidableEq, Repr

/-- `struct en50221_app_mmi` without its lock: the records, and the callbacks that are registered. -/
structure Resource where
  sessions : AList (fun _ : UInt16 => MmiSession)
  registered : Callback → Bool

/-- `en50221_app_mmi_create` -/
def create : Guarded Resource := ⟨⟨∅, fun _ => false⟩, false⟩

/-- What a callback is told, behind the slot and the session. -/
inductive AppCall
  | close (cmdId delay : UInt8)
  | displayControl (cmdId mmiMode : UInt8)
  | keypadControl (cmdId : UInt8) (keycodes : List UInt8)
  | enq (blindAnswer : Bool) (answerLength : UInt8) (text : List UInt8)
  | menu (call : MenuCall)
  | subtitle (kind : ObjectKind) (data : List UInt8)
  | sceneEndMark (decoderContinue sceneReveal sendSceneDone : Bool) (sceneTag : UInt8)
  | sceneControl (decoderContinue sceneReveal : Bool) (sceneTag : UInt8)
  | flushDownload

/-- What a message meets: whether there is memory, and what the application returns. -/
structure World where
  mem : MmiMemory
  app : UInt8 → UInt16 → AppCall → ℤ

variable (w : World) (slotId : UInt8) (number : UInt16)

/-- The callback is fetched under the lock, and called behind it. -/
def tellApp (which : Callback) (call : AppCall) : Code Resource ℤ := do
  lock
  let cb ← read fun mmi => mmi.registered which
  unlock
  if cb then pure (w.app slotId number call) else pure 0

/-- `en50221_app_mmi_parse_close` -/
def parseClose (data : List UInt8) : Code Resource ℤ :=
  match data with
  | len :: cmdId :: rest =>
    if len.toNat > rest.length + 1 then pure (-1)
    else if cmdId = 0x01 then
      if len ≠ 2 then pure (-1) else tellApp w slotId number .close (.close cmdId (rest.headD 0))
    else tellApp w slotId number .close (.close cmdId 0)
  | _ => pure (-1)

/-- `en50221_app_mmi_parse_display_control` -/
def parseDisplayControl (data : List UInt8) : Code Resource ℤ :=
  match data with
  | len :: cmdId :: rest =>
    if len.toNat > rest.length + 1 then pure (-1)
    else if cmdId = 0x01 then
      if len ≠ 2 then pure (-1)
      else tellApp w slotId number .displayControl (.displayControl cmdId (rest.headD 0))
    else tellApp w slotId number .displayControl (.displayControl cmdId 0)
  | _ => pure (-1)

/-- `en50221_app_mmi_parse_keypad_control` -/
def parseKeypadControl (data : List UInt8) : Code Resource ℤ :=
  match objectData data with
  | some (cmdId :: keycodes) => tellApp w slotId number .keypadControl (.keypadControl cmdId keycodes)
  | _ => pure (-1)

/-- `en50221_app_mmi_parse_enq` -/
def parseEnq (data : List UInt8) : Code Resource ℤ :=
  match objectData data with
  | some (flags :: answerLength :: text) =>
    tellApp w slotId number .enq (.enq (flags &&& 0x01 ≠ 0) answerLength text)
  | _ => pure (-1)

/-- `en50221_app_mmi_defragment` on the resource. -/
def defragment (kind : ObjectKind) (last : Bool) (indata : List UInt8) :
    Code Resource (ℤ × Option (List UInt8)) :=
  attempt fun mmi =>
    (mmiDefragment ⟨mmi.sessions, mmi.registered .menu, mmi.registered .list, true⟩ number kind last w.mem indata).map
      fun r => ((r.1, r.2.2), { mmi with sessions := r.2.1.sessions })

/-- The switch over the tag in front of the callback of `en50221_app_mmi_parse_list_menu`. -/
def tellMenu (which : Callback) (last : Bool) (call : MenuCall) : Code Resource ℤ :=
  if last then do
    let cb ← read fun mmi => mmi.registered which
    unlock
    if cb then pure (w.app slotId number (.menu call)) else pure 0
  else do
    unlock
    pure 0

/-- `en50221_app_mmi_parse_list_menu`; `alloca` does not fail. -/
def parseListMenu (kind : ObjectKind) (which : Callback) (last : Bool) (data : List UInt8) : Code Resource ℤ :=
  match objectData data with
  | none => pure (-1)
  | some indata => do
    lock
    let (dfstatus, outdata) ← defragment w number kind last indata
    if dfstatus ≤ 0 then do
      unlock
      pure dfstatus
    else
      match outdata.getD [] with
      | [] => do
        unlock
        pure (-1)
      | choiceNb :: data =>
        match readTexts w.mem.block (textCount choiceNb).toNat data with
        | none => undefined
        | some none => do
          unlock
          pure (-1)
        | some (some (texts, data)) =>
          tellMenu w slotId number which last ⟨kind, slotId, number, texts[0]?, texts[1]?, texts[2]?,
            (((textCount choiceNb).toNat : ℤ) - 3).natMod (2 ^ 32), texts.drop 3,
            if choiceNb = 0xff then some data else none⟩

/-- `en50221_app_mmi_parse_subtitle`; its switch has no default. -/
def parseSubtitle (kind : ObjectKind) (which : Callback) (last : Bool) (data : List UInt8) : Code Resource ℤ :=
  match objectData data with
  | none => pure (-1)
  | some indata => do
    lock
    let (dfstatus, outdata) ← defragment w number kind last indata
    if dfstatus ≤ 0 then do
      unlock
      pure dfstatus
    else if last then do
      let cb ← read fun mmi => mmi.registered which
      unlock
      if cb then pure (w.app slotId number (.subtitle kind (outdata.getD []))) else pure 0
    else pure 0

/-- `en50221_app_mmi_parse_scene_end_mark` -/
def parseSceneEndMark (data : List UInt8) : Code Resource ℤ :=
  match data with
  | [len, flags] =>
    if len ≠ 1 then pure (-1)
    else tellApp w slotId number .sceneEndMark
      (.sceneEndMark (flags &&& 0x80 ≠ 0) (flags &&& 0x40 ≠ 0) (flags &&& 0x20 ≠ 0) (flags &&& 0x0f))
  | _ => pure (-1)

/-- `en50221_app_mmi_parse_scene_control` -/
def parseSceneControl (data : List UInt8) : Code Resource ℤ :=
  match data with
  | [len, flags] =>
    if len ≠ 1 then pure (-1)
    else tellApp w slotId number .sceneControl
      (.sceneControl (flags &&& 0x80 ≠ 0) (flags &&& 0x40 ≠ 0) (flags &&& 0x0f))
  | _ => pure (-1)

/-- `en50221_app_mmi_parse_flush_download` -/
def parseFlushDownload (data : List UInt8) : Code Resource ℤ :=
  match data with
  | [len] => if len ≠ 0 then pure (-1) else tellApp w slotId number .flushDownload .flushDownload
  | _ => pure (-1)

/-- `en50221_app_mmi_message` -/
def message (data : List UInt8) : Code Resource ℤ :=
  match data with
  | b₀ :: b₁ :: b₂ :: data =>
    let tag := tagOf b₀ b₁ b₂
    if tag = 0x9f8800 then parseClose w slotId number data
    else if tag = 0x9f8801 then parseDisplayControl w slotId number data
    else if tag = 0x9f8805 then parseKeypadControl w slotId number data
    else if tag = 0x9f8807 then parseEnq w slotId number data
    else if tag = tagMenuLast then parseListMenu w slotId number .menu .menu true data
    else if tag = tagMenuMore then parseListMenu w slotId number .menu .menu false data
    else if tag = tagListLast then parseListMenu w slotId number .list .list true data
    else if tag = tagListMore then parseListMenu w slotId number .list .list false data
    else if tag = 0x9f880e then parseSubtitle w slotId number .subtitleSegment .subtitleSegment true data
    else if tag = 0x9f880f then parseSubtitle w slotId number .subtitleSegment .subtitleSegment false data
    else if tag = 0x9f8811 then parseSceneEndMark w slotId number data
    else if tag = 0x9f8813 then parseSceneControl w slotId number data
    else if tag = 0x9f8814 then parseSubtitle w slotId number .subtitleDownload .subtitleDownload true data
    else if tag = 0x9f8815 then parseSubtitle w slotId number .subtitleDownload .subtitleDownload false data
    else if tag = 0x9f8816 then parseFlushDownload w slotId number data
    else pure (-1)
  | _ => pure (-1)

def register (which : Callback) (callback : Bool) : Code Resource Unit := do
  lock
  change fun mmi => { mmi with registered := Function.update mmi.registered which callback }
  unlock

/-- The loop of `en50221_app_mmi_clear_session` over the records; its return does not unlock. -/
def clearFound (found : Option MmiSession) : Code Resource Unit :=
  match found with
  | none => unlock
  | some s =>
    if [ObjectKind.menu, .list, .subtitleSegment, .subtitleDownload].any fun k => (s k).chain = .dangling then
      undefined
    else change fun mmi => { mmi with sessions := mmi.sessions.erase number }

/-- `en50221_app_mmi_clear_session` -/
def clearSession : Code Resource Unit := do
  lock
  let found ← read fun mmi => mmi.sessions.lookup number
  clearFound number found

/-- A public call. -/
inductive Call
  | message (w : World) (slotId : UInt8) (number : UInt16) (data : List UInt8)
  | clearSession (number : UInt16)
  | register (which : Callback) (callback : Bool)

def call : Call → Code Resource Unit
  | .message w slotId number data => do
    let _ ← message w slotId number data
    pure ()
  | .clearSession number => clearSession number
  | .register which callback => register which callback

/-! ### Every exit -/

variable (which : Callback) (data : List UInt8) (kind : ObjectKind)

theorem goes_tellApp (call : AppCall) : Goes false (tellApp w slotId number which call) false :=
  goes_bind goes_lock fun _ => goes_bind (goes_read true _) fun _ => goes_bind (goes_unlock true) fun _ =>
    goes_ite (fun _ => goes_pure false _) fun _ => goes_pure false _

theorem goes_parseClose : Goes false (parseClose w slotId number data) false := by
  unfold parseClose
  split
  · exact goes_ite (fun _ => goes_pure false _) fun _ =>
      goes_ite (fun _ => goes_ite (fun _ => goes_pure false _) fun _ => goes_tellApp _ _ _ _ _) fun _ => goes_tellApp _ _ _ _ _
  · exact goes_pure false _

theorem goes_parseDisplayControl : Goes false (parseDisplayControl w slotId number data) false := by
  unfold parseDisplayControl
  split
  · exact goes_ite (fun _ => goes_pure false _) fun _ =>
      goes_ite (fun _ => goes_ite (fun _ => goes_pure false _) fun _ => goes_tellApp _ _ _ _ _) fun _ => goes_tellApp _ _ _ _ _
  · exact goes_pure false _

theorem goes_parseKeypadControl : Goes false (parseKeypadControl w slotId number data) false := by
  unfold parseKeypadControl
  split
  · exact goes_tellApp _ _ _ _ _
  · exact goes_pure false _

theorem goes_parseEnq : Goes false (parseEnq w slotId number data) false := by
  unfold parseEnq
  split
  · exact goes_tellApp _ _ _ _ _
  · exact goes_pure false _

theorem goes_tellMenu (last : Bool) (call : MenuCall) : Goes true (tellMenu w slotId number which last call) false := by
  unfold tellMenu
  refine goes_ite (fun _ => ?_) fun _ => goes_unlock_pure true 0
  exact goes_bind (goes_read true _) fun _ => goes_bind (goes_unlock true) fun _ =>
    goes_ite (fun _ => goes_pure false _) fun _ => goes_pure false _

theorem goes_defragment (last : Bool) (indata : List UInt8) :
    Goes true (defragment w number kind last indata) true := goes_attempt true _

theorem goes_parseListMenu (which : Callback) (last : Bool) (data : List UInt8) :
    Goes false (parseListMenu w slotId number kind which last data) false := by
  unfold parseListMenu
  split
  · exact goes_pure false _
  · refine goes_bind goes_lock fun _ => goes_bind (goes_defragment _ _ _ _ _) fun r => ?_
    refine goes_ite (fun _ => goes_unlock_pure true _) fun _ => ?_
    split
    · exact goes_unlock_pure true _
    · split
      · exact goes_undefined true false
      · exact goes_unlock_pure true _
      · exact goes_tellMenu _ _ _ _ _ _

theorem status_of_more {mmi : En50221.Mmi} {kind : ObjectKind} {indata : List UInt8}
    (h : mmiDefragment mmi number kind false mem indata = some (status, mmi', outdata)) : status ≤ 0 := by
  unfold mmiDefragment at h
  rw [if_pos rfl] at h
  split at h
  · cases h
    decide
  · dsimp only at h
    split at h
    · cases h
    · cases h
      decide
    · cases h
      decide

theorem goes_parseSubtitle (which : Callback) (last : Bool) (data : List UInt8) :
    Goes false (parseSubtitle w slotId number kind which last data) false := by
  unfold parseSubtitle
  split
  · exact goes_pure false _
  · refine goes_bind goes_lock fun _ => goes_attempt_bind fun mmi r mmi' hr => ?_
    obtain ⟨out, hout, heq⟩ := Option.map_eq_some_iff.mp hr
    cases heq
    dsimp only
    by_cases hstatus : out.1 ≤ 0
    · rw [if_pos hstatus]
      exact goes_unlock_pure true _ _
    · rw [if_neg hstatus]
      cases last with
      | true =>
        refine goes_bind (goes_read true _) (fun _ => ?_) _
        exact goes_bind (goes_unlock true) fun _ => goes_ite (fun _ => goes_pure false _) fun _ => goes_pure false _
      | false => exact absurd (status_of_more number hout) hstatus

theorem goes_parseSceneEndMark : Goes false (parseSceneEndMark w slotId number data) false := by
  unfold parseSceneEndMark
  split
  · exact goes_ite (fun _ => goes_pure false _) fun _ => goes_tellApp _ _ _ _ _
  · exact goes_pure false _

theorem goes_parseSceneControl : Goes false (parseSceneControl w slotId number data) false := by
  unfold parseSceneControl
  split
  · exact goes_ite (fun _ => goes_pure false _) fun _ => goes_tellApp _ _ _ _ _
  · exact goes_pure false _

theorem goes_parseFlushDownload : Goes false (parseFlushDownload w slotId number data) false := by
  unfold parseFlushDownload
  split
  · exact goes_ite (fun _ => goes_pure false _) fun _ => goes_tellApp _ _ _ _ _
  · exact goes_pure false _

/-- **A message**, whatever its bytes, leaves the mutex free. -/
theorem goes_message : Goes false (message w slotId number data) false := by
  unfold message
  split
  · refine goes_ite (fun _ => goes_parseClose _ _ _ _) fun _ => ?_
    refine goes_ite (fun _ => goes_parseDisplayControl _ _ _ _) fun _ => ?_
    refine goes_ite (fun _ => goes_parseKeypadControl _ _ _ _) fun _ => ?_
    refine goes_ite (fun _ => goes_parseEnq _ _ _ _) fun _ => ?_
    refine goes_ite (fun _ => goes_parseListMenu _ _ _ _ _ _ _) fun _ => ?_
    refine goes_ite (fun _ => goes_parseListMenu _ _ _ _ _ _ _) fun _ => ?_
    refine goes_ite (fun _ => goes_parseListMenu _ _ _ _ _ _ _) fun _ => ?_
    refine goes_ite (fun _ => goes_parseListMenu _ _ _ _ _ _ _) fun _ => ?_
    refine goes_ite (fun _ => goes_parseSubtitle _ _ _ _ _ _ _) fun _ => ?_
    refine goes_ite (fun _ => goes_parseSubtitle _ _ _ _ _ _ _) fun _ => ?_
    refine goes_ite (fun _ => goes_parseSceneEndMark _ _ _ _) fun _ => ?_
    refine goes_ite (fun _ => goes_parseSceneControl _ _ _ _) fun _ => ?_
    refine goes_ite (fun _ => goes_parseSubtitle _ _ _ _ _ _ _) fun _ => ?_
    refine goes_ite (fun _ => goes_parseSubtitle _ _ _ _ _ _ _) fun _ => ?_
    exact goes_ite (fun _ => goes_parseFlushDownload _ _ _ _) fun _ => goes_pure false _
  · exact goes_pure false _

theorem goes_register (callback : Bool) : Goes false (register which callback) false :=
  goes_bind goes_lock fun _ => goes_bind (goes_change true _) fun _ => goes_unlock true

/-- The end of this session frees a record: all four of its chains can be freed. -/
def Freed (mmi : Resource) (number : UInt16) : Prop :=
  ∃ s, mmi.sessions.lookup number = some s ∧
    ([ObjectKind.menu, .list, .subtitleSegment, .subtitleDownload].any fun k => (s k).chain = .dangling) = false

/-- **The end of a session** leaves the mutex free exactly if no record is freed. -/
theorem clearSession_iff (mmi : Resource) : GoesAt mmi false (clearSession number) false ↔ ¬Freed mmi number := by
  constructor
  · intro h hfreed
    obtain ⟨s, hs, hchains⟩ := hfreed
    have hout : clearSession number ⟨mmi, false⟩ =
        .returns ((), ⟨{ mmi with sessions := mmi.sessions.erase number }, true⟩) := by
      show clearFound number (mmi.sessions.lookup number) ⟨mmi, true⟩ = _
      rw [hs, clearFound, if_neg (Bool.eq_false_iff.mp hchains)]
      rfl
    exact Bool.noConfusion (h.2 () _ hout)
  · intro hkept
    refine goesAt_bind (goes_lock mmi) fun _ mmi' hr => ?_
    cases hr
    refine goesAt_read_bind ?_
    unfold clearFound
    split
    · exact goes_unlock true mmi
    · rename_i s hs
      refine goes_ite (fun _ => goes_undefined true false) (fun hchains => ?_) mmi
      exact absurd ⟨s, hs, Bool.eq_false_of_not_eq_true hchains⟩ hkept

def Kept (mmi : Guarded Resource) : Call → Prop
  | .clearSession number => ¬Freed mmi.data number
  | _ => True

theorem call_iff (mmi : Resource) (c : Call) : GoesAt mmi false (call c) false ↔ Kept ⟨mmi, false⟩ c := by
  cases c with
  | message w slotId number data =>
    exact iff_of_true (goes_bind (goes_message w slotId number data) (fun _ => goes_pure false _) mmi) trivial
  | clearSession number => exact clearSession_iff number mmi
  | register which callback => exact iff_of_true (goes_register which callback mmi) trivial

/-- A call on the resource; `none` is one that never returns, or is not defined. -/
def step (mmi : Guarded Resource) (c : Call) : Option (Guarded Resource) := Outcome.state (call c mmi)

end Mmi

namespace Lowspeed

/-! ### Low-speed communications -/

/-- `struct en50221_app_lowspeed` without its lock. -/
structure Resource where
  sessions : AList (fun _ : UInt16 => Block)
  commandCallback : Bool
  sendCallback : Bool

/-- `en50221_app_lowspeed_create` -/
def create : Guarded Resource := ⟨⟨∅, false, false⟩, false⟩

/-- The descriptor in front of the last two bytes of CONNECT_ON_CHANNEL. -/
inductive Connection
  | telephone (descriptor : List UInt8)
  | cable (channelId : UInt8)

/-- `struct en50221_app_lowspeed_command` with the command id. -/
inductive Command
  | connectOnChannel (connection : Connection) (retryCount timeout : UInt8)
  | disconnectOnChannel
  | setParams (bufferSize timeout : UInt8)
  | enquireStatus
  | getNextBuffer (phaseId : UInt8)

inductive AppCall
  | command (command : Command)
  | send (phaseId : UInt8) (data : List UInt8)

/-- What a message meets: whether there is memory, and what the application returns. -/
structure World where
  mem : MmiMemory
  app : UInt8 → UInt16 → AppCall → ℤ

/-- `dvb_telephone_descriptor_codec` on the bytes behind the length: five lengths of two to four bits. -/
def dvbTelephoneDescriptorCodec (len : ℕ) (body : List UInt8) : Bool :=
  match body with
  | _ :: b₁ :: b₂ :: _ =>
    3 ≤ len ∧ 3 + ((b₁ >>> 5) &&& 0x03).toNat + ((b₁ >>> 2) &&& 0x07).toNat + (b₁ &&& 0x03).toNat +
      ((b₂ >>> 4) &&& 0x07).toNat + (b₂ &&& 0x0f).toNat = len
  | _ => false

/-- The switch over the descriptor type: the descriptor, and the bytes behind it. -/
def parseConnection (descriptorType : UInt8) (asnDataLength : ℕ) (data : List UInt8) :
    Option (Connection × List UInt8) :=
  if descriptorType = 0x01 then
    match data with
    | tag :: len :: body =>
      if asnDataLength < 2 then none
      else if asnDataLength ≠ 2 + len.toNat then none
      else if tag ≠ 0x57 then none
      else if dvbTelephoneDescriptorCodec len.toNat body = false then none
      else some (.telephone (data.take (2 + len.toNat)), data.drop (2 + len.toNat))
    | _ => none
  else if descriptorType = 0x02 then
    match data with
    | channelId :: data => if asnDataLength ≠ 1 then none else some (.cable channelId, data)
    | [] => none
  else none

/-- `en50221_app_lowspeed_parse_connect_on_channel` -/
def parseConnectOnChannel (data : List UInt8) : Option Command :=
  match data with
  | b₀ :: b₁ :: b₂ :: data =>
    if tagOf b₀ b₁ b₂ ≠ 0x9f8c01 then none
    else
      match asn1Decode data with
      | none => none
      | some (asnDataLength, lengthFieldLen) =>
        let data := data.drop lengthFieldLen
        if data.length < asnDataLength then none
        else
          match asnDataLength, data with
          | asnDataLength + 1, descriptorType :: data =>
            match parseConnection descriptorType asnDataLength data with
            | some (connection, [retryCount, timeout]) => some (.connectOnChannel connection retryCount timeout)
            | _ => none
          | _, _ => none
  | _ => none

def parseCommandId (commandId : UInt8) (data : List UInt8) : Option Command :=
  if commandId = 0x01 then parseConnectOnChannel data
  else if commandId = 0x03 then
    match data with
    | [bufferSize, timeout] => some (.setParams bufferSize timeout)
    | _ => none
  else if commandId = 0x05 then
    match data with
    | [phaseId] => some (.getNextBuffer phaseId)
    | _ => none
  else if commandId = 0x02 then some .disconnectOnChannel
  else if commandId = 0x04 then some .enquireStatus
  else none

variable (w : World) (slotId : UInt8) (number : UInt16)

/-- `en50221_app_lowspeed_parse_command` -/
def parseCommand (data : List UInt8) : Code Resource ℤ :=
  match objectData data with
  | some (commandId :: data) =>
    match parseCommandId commandId data with
    | none => pure (-1)
    | some command => do
      lock
      let cb ← read fun lowspeed => lowspeed.commandCallback
      unlock
      if cb then pure (w.app slotId number (.command command)) else pure 0
  | _ => pure (-1)

/-- The fragment is appended to the chain of the record, which a LAST takes away. -/
def append (b : Block) (last : Bool) (indata : List UInt8) : Code Resource (Option (List UInt8)) :=
  attempt fun lowspeed =>
    (appendBlock b w.mem.block indata).map fun r =>
      match r with
      | (none, p) => (none, { lowspeed with sessions := lowspeed.sessions.insert number ⟨p, b.length⟩ })
      | (some bytes, _) =>
        (some bytes, { lowspeed with
          sessions := lowspeed.sessions.insert number
            (if last then .empty else ⟨.alloc bytes, (b.length + indata.length) % 2 ^ 32⟩) })

/-- The end of `en50221_app_lowspeed_parse_send`. -/
def tellSend (data : List UInt8) : Code Resource ℤ :=
  match data with
  | [] => do
    unlock
    pure (-1)
  | phaseId :: data => do
    let cb ← read fun lowspeed => lowspeed.sendCallback
    unlock
    if cb then pure (w.app slotId number (.send phaseId data)) else pure 0

/-- `en50221_app_lowspeed_parse_send`; the reassembled length is a sum of 16 bits. -/
def parseSend (last : Bool) (data : List UInt8) : Code Resource ℤ :=
  match objectData data with
  | none => pure (-1)
  | some indata => do
    lock
    let found ← read fun lowspeed => lowspeed.sessions.lookup number
    if last = false then
      if found.isNone = true ∧ w.mem.session = false then do
        unlock
        pure (-1)
      else do
        let newData ← append w number (found.getD .empty) false indata
        unlock
        pure (if newData.isSome then 0 else -1)
    else
      match found with
      | none => tellSend w slotId number indata
      | some b => do
        let newData ← append w number b true indata
        match newData with
        | none => do
          unlock
          pure (-1)
        | some bytes => tellSend w slotId number (bytes.take ((b.length + indata.length) % 2 ^ 16))

/-- `en50221_app_lowspeed_message` -/
def message (data : List UInt8) : Code Resource ℤ :=
  match data with
  | b₀ :: b₁ :: b₂ :: data =>
    let tag := tagOf b₀ b₁ b₂
    if tag = 0x9f8c00 then parseCommand w slotId number data
    else if tag = 0x9f8c03 then parseSend w slotId number true data
    else if tag = 0x9f8c04 then parseSend w slotId number false data
    else pure (-1)
  | _ => pure (-1)

/-- `en50221_app_lowspeed_register_command_callback` -/
def registerCommandCallback (callback : Bool) : Code Resource Unit := do
  lock
  change fun lowspeed => { lowspeed with commandCallback := callback }
  unlock

/-- `en50221_app_lowspeed_register_send_callback` -/
def registerSendCallback (callback : Bool) : Code Resource Unit := do
  lock
  change fun lowspeed => { lowspeed with sendCallback := callback }
  unlock

/-- The loop of `en50221_app_lowspeed_clear_session` over the records; its return does not unlock. -/
def clearFound (found : Option Block) : Code Resource Unit :=
  match found with
  | none => unlock
  | some b =>
    if b.chain = .dangling then undefined
    else change fun lowspeed => { lowspeed with sessions := lowspeed.sessions.erase number }

/-- `en50221_app_lowspeed_clear_session` -/
def clearSession : Code Resource Unit := do
  lock
  let found ← read fun lowspeed => lowspeed.sessions.lookup number
  clearFound number found

/-- A public call. -/
inductive Call
  | message (w : World) (slotId : UInt8) (number : UInt16) (data : List UInt8)
  | clearSession (number : UInt16)
  | registerCommandCallback (callback : Bool)
  | registerSendCallback (callback : Bool)

def call : Call → Code Resource Unit
  | .message w slotId number data => do
    let _ ← message w slotId number data
    pure ()
  | .clearSession number => clearSession number
  | .registerCommandCallback callback => registerCommandCallback callback
  | .registerSendCallback callback => registerSendCallback callback

/-! ### Every exit -/

variable (data : List UInt8)

theorem goes_parseCommand : Goes false (parseCommand w slotId number data) false := by
  unfold parseCommand
  split
  · split
    · exact goes_pure false _
    · exact goes_bind goes_lock fun _ => goes_bind (goes_read true _) fun _ => goes_bind (goes_unlock true) fun _ =>
        goes_ite (fun _ => goes_pure false _) fun _ => goes_pure false _
  · exact goes_pure false _

theorem goes_append (b : Block) (last : Bool) (indata : List UInt8) :
    Goes true (append w number b last indata) true := goes_attempt true _

theorem goes_tellSend : Goes true (tellSend w slotId number data) false := by
  unfold tellSend
  split
  · exact goes_unlock_pure true _
  · exact goes_bind (goes_read true _) fun _ => goes_bind (goes_unlock true) fun _ =>
      goes_ite (fun _ => goes_pure false _) fun _ => goes_pure false _

theorem goes_parseSend (last : Bool) (data : List UInt8) : Goes false (parseSend w slotId number last data) false := by
  unfold parseSend
  split
  · exact goes_pure false _
  · refine goes_bind goes_lock fun _ => goes_bind (goes_read true _) fun found => ?_
    refine goes_ite (fun _ => ?_) fun _ => ?_
    · refine goes_ite (fun _ => goes_unlock_pure true _) fun _ => ?_
      exact goes_bind (goes_append _ _ _ _ _) fun _ => goes_unlock_pure true _
    · split
      · exact goes_tellSend _ _ _ _
      · refine goes_bind (goes_append _ _ _ _ _) fun newData => ?_
        cases newData with
        | none => exact goes_unlock_pure true _
        | some bytes => exact goes_tellSend _ _ _ _

/-- **A message**, whatever its bytes, leaves the mutex free. -/
theorem goes_message : Goes false (message w slotId number data) false := by
  unfold message
  split
  · refine goes_ite (fun _ => goes_parseCommand _ _ _ _) fun _ => ?_
    refine goes_ite (fun _ => goes_parseSend _ _ _ _ _) fun _ => ?_
    exact goes_ite (fun _ => goes_parseSend _ _ _ _ _) fun _ => goes_pure false _
  · exact goes_pure false _

theorem goes_registerCommandCallback (callback : Bool) : Goes false (registerCommandCallback callback) false :=
  goes_bind goes_lock fun _ => goes_bind (goes_change true _) fun _ => goes_unlock true

theorem goes_registerSendCallback (callback : Bool) : Goes false (registerSendCallback callback) false :=
  goes_bind goes_lock fun _ => goes_bind (goes_change true _) fun _ => goes_unlock true

def Freed (lowspeed : Resource) (number : UInt16) : Prop :=
  ∃ b, lowspeed.sessions.lookup number = some b ∧ b.chain ≠ .dangling

/-- **The end of a session** leaves the mutex free exactly if no record is freed. -/
theorem clearSession_iff (lowspeed : Resource) :
    GoesAt lowspeed false (clearSession number) false ↔ ¬Freed lowspeed number := by
  constructor
  · intro h hfreed
    obtain ⟨b, hb, hchain⟩ := hfreed
    have hout : clearSession number ⟨lowspeed, false⟩ =
        .returns ((), ⟨{ lowspeed with sessions := lowspeed.sessions.erase number }, true⟩) := by
      show clearFound number (lowspeed.sessions.lookup number) ⟨lowspeed, true⟩ = _
      rw [hb, clearFound, if_neg hchain]
      rfl
    exact Bool.noConfusion (h.2 () _ hout)
  · intro hkept
    refine goesAt_bind (goes_lock lowspeed) fun _ lowspeed' hr => ?_
    cases hr
    refine goesAt_read_bind ?_
    unfold clearFound
    split
    · exact goes_unlock true lowspeed
    · rename_i b hb
      refine goes_ite (fun _ => goes_undefined true false) (fun hchain => ?_) lowspeed
      exact absurd ⟨b, hb, hchain⟩ hkept

def Kept (lowspeed : Guarded Resource) : Call → Prop
  | .clearSession number => ¬Freed lowspeed.data number
  | _ => True

theorem call_iff (lowspeed : Resource) (c : Call) :
    GoesAt lowspeed false (call c) false ↔ Kept ⟨lowspeed, false⟩ c := by
  cases c with
  | message w slotId number data =>
    exact iff_of_true (goes_bind (goes_message w slotId number data) (fun _ => goes_pure false _) lowspeed) trivial
  | clearSession number => exact clearSession_iff number lowspeed
  | registerCommandCallback callback => exact iff_of_true (goes_registerCommandCallback callback lowspeed) trivial
  | registerSendCallback callback => exact iff_of_true (goes_registerSendCallback callback lowspeed) trivial

/-- A call on the resource; `none` is one that never returns, or is not defined. -/
def step (lowspeed : Guarded Resource) (c : Call) : Option (Guarded Resource) := Outcome.state (call c lowspeed)

end Lowspeed

/-! ### Runs -/

theorem along_balanced_iff {σ ω : Type} (call : ω → Code σ Unit) (Kept : Guarded σ → ω → Prop)
    (hcall : ∀ data c, GoesAt data false (call c) false ↔ Kept ⟨data, false⟩ c) (data : σ) (calls : List ω) :
    Along (fun s c => Outcome.state (call c s)) (fun s c => Balanced (call c s)) ⟨data, false⟩ calls ↔
      Along (fun s c => Outcome.state (call c s)) Kept ⟨data, false⟩ calls := by
  refine along_iff_of_invariant (I := fun s => s.locked = false) ?_ ?_ calls _ rfl
  · intro s c s' hfree hkept hstep
    obtain ⟨data, locked⟩ := s
    obtain rfl : locked = false := hfree
    have hbalanced := (hcall data c).mpr hkept
    cases hout : call c ⟨data, false⟩ with
    | returns r =>
      rw [hout] at hstep
      cases hstep
      exact hbalanced.2 _ _ hout
    | blocks =>
      rw [hout] at hstep
      cases hstep
    | undefined =>
      rw [hout] at hstep
      cases hstep
  · intro s c hfree
    obtain ⟨data, locked⟩ := s
    obtain rfl : locked = false := hfree
    exact hcall data c

/-- **The locks.**  Along every run of either resource each call returns with the mutex free, exactly if no call
ends a session whose record it frees. -/
theorem appLocks_iff (calls : List Mmi.Call) (calls' : List Lowspeed.Call) :
    (Along Mmi.step (fun s c => Balanced (Mmi.call c s)) Mmi.create calls ↔
      Along Mmi.step Mmi.Kept Mmi.create calls) ∧
    (Along Lowspeed.step (fun s c => Balanced (Lowspeed.call c s)) Lowspeed.create calls' ↔
      Along Lowspeed.step Lowspeed.Kept Lowspeed.create calls') :=
  ⟨along_balanced_iff Mmi.call Mmi.Kept Mmi.call_iff _ calls,
    along_balanced_iff Lowspeed.call Lowspeed.Kept Lowspeed.call_iff _ calls'⟩

/-- A MENU_MORE and a SEND_MORE of one byte, then the end of their session. -/
theorem not_balanced_clear :
    (¬∀ calls, Along Mmi.step (fun s c => Balanced (Mmi.call c s)) Mmi.create calls) ∧
    ¬∀ calls, Along Lowspeed.step (fun s c => Balanced (Lowspeed.call c s)) Lowspeed.create calls := by
  constructor
  · intro h
    have hrun := h [.message ⟨⟨true, true⟩, fun _ _ _ => 0⟩ 0 1 [0x9f, 0x88, 0x0a, 0x01, 0x42], .clearSession 1]
    exact Bool.noConfusion (((hrun.2 _ rfl).1).2 _ _ rfl)
  · intro h
    have hrun := h [.message ⟨⟨true, true⟩, fun _ _ _ => 0⟩ 0 1 [0x9f, 0x8c, 0x04, 0x01, 0x42], .clearSession 1]
    exact Bool.noConfusion (((hrun.2 _ rfl).1).2 _ _ rfl)

end BgtDvb.En50221.AppLocks
