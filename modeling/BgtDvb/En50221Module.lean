import BgtDvb.En50221Effect
import BgtDvb.En50221Send

/-!
# The transport layer and its modules

The host on one side, a module in every slot on the other, and messages under way in both directions.  A
module takes what was written to it in order, and answers each TPDU as EN50221 prescribes: T_CREATE_T_C with
T_C_T_C_REPLY, T_DELETE_T_C with T_D_T_C_REPLY, and data, a poll or T_RCV with data, T_SB or both.  Each
handler of the host checks the state of the connection against its own list.  T_SB and data are accepted in
the state ACTIVE only, but `en50221_tl_del_tc` leaves that state at once: the answer to what is still under
way is taken for an error of the module.

* `Ordered.call`, `Ordered.answered` — **PROVED**: calls, rounds of the poll and answers keep that;
* `takes_dispatch` — **PROVED**: an answer is refused in no state in which it is awaited.
-/

namespace BgtDvb.En50221

open BgtDvb.GuardedRun

/-! ### A module that follows the standard -/

/-- What a TPDU of the host asks for. -/
inductive Request where
  | create | delete | data
  deriving Repr, DecidableEq

def requestOf (msg : List UInt8) : Option Request :=
  match msg with
  | [] => none
  | tag :: _ =>
    if tag = 0x82 then some .create
    else if tag = 0x84 then some .delete
    else if tag = tDataLast ∨ tag = tDataMore ∨ tag = 0x81 then some .data
    else none

def isData (conn : UInt8) (t : Tpdu) : Bool :=
  decide ((t.tag = tDataMore ∨ t.tag = tDataLast) ∧ t.conn = conn)

def isStatus (conn : UInt8) (t : Tpdu) : Bool :=
  decide (t.tag = 0x80 ∧ t.conn = conn ∧ t.payload.length = 1)

def conforms (conn : UInt8) : Request → List Tpdu → Bool
  | .create, [t] => decide (t = ⟨0x83, conn, []⟩)
  | .delete, [t] => decide (t = ⟨0x85, conn, []⟩)
  | .data, [t] => isData conn t || isStatus conn t
  | .data, [d, t] => isData conn d && isStatus conn t
  | _, _ => false

/-- The answer to a request, on its way to the host. -/
structure Reply where
  conn : ℕ
  request : Request
  tpdus : List WireTpdu
  conforming : conforms (UInt8.ofNat conn) request (tpdus.map WireTpdu.tpdu) = true

def Reply.bytes (r : Reply) : List UInt8 := r.tpdus.flatMap WireTpdu.bytes

/-! ### The system -/

/-- A buffer that `en50221_tl_process_data` is going through, and what it answers. -/
structure Reading where
  conn : ℕ
  request : Request
  bytes : List UInt8
  deriving Repr, DecidableEq

/-- For every slot the messages to its module, oldest first, the answers of the module, oldest first, and
the buffer being processed. -/
structure System where
  host : Host
  toModule : ℕ → List (ℕ × List UInt8)
  toHost : ℕ → List Reply
  reading : ℕ → Option Reading

/-- One round of the loop of `en50221_tl_process_data`: the result, the state and what is left. -/
def processOne (link : Link) (s : ℕ) (tl : Tl) (data : List UInt8) : Option (ℤ × Tl × List UInt8) :=
  match parseTpdu data with
  | none => some (-1, (tl.fail s badCamData).2, [])
  | some (t, rest) => (dispatch link s tl t).map fun r => if r.1 < 0 then (-1, r.2, []) else (0, r.2, rest)

def System.setHost (sys : System) (link : Link) (h : Host) : System :=
  { sys with
    host := h
    toModule := fun s => sys.toModule s ++
      ((written link sys.host.tl h.tl).filter fun w => w.1.1 = s).map fun w => (w.1.2, w.2) }

/-- The calls of the application, and what `en50221_tl_poll` does with a connection. -/
inductive HostCall where
  | newTc (s : UInt8) (mem : Bool)
  | delTc (s conn : UInt8) (mem : Bool)
  | sendData (s conn : UInt8) (mem : Bool) (data : List UInt8)
  | transmit (k : ConnId)
  | askPoll (k : ConnId) (due : Bool)
  | timeout (k : ConnId) (late : Bool)

def HostCall.op : HostCall → HostOp
  | .newTc s mem => .newTc s mem
  | .delTc s conn mem => .delTc s conn mem
  | .sendData s conn mem data => .sendData s conn mem data
  | .transmit k => .transmit k
  | .askPoll k due => .askPoll k due
  | .timeout k late => .timeout k late

/-- A call; the module in slot `s` answers; `en50221_tl_poll`, at slot `s`, reads what the module in slot
`s'` sent on the same handle; or it processes the next TPDU of what it has read. -/
inductive SysOp where
  | call (c : HostCall)
  | answer (s : ℕ) (tpdus : List WireTpdu)
  | read (s s' : ℕ)
  | process (s : ℕ)

/-- The module takes the oldest message; it answers a request with TPDUs that conform. -/
def System.answer (sys : System) (s : ℕ) (tpdus : List WireTpdu) : System :=
  match sys.toModule s with
  | [] => sys
  | (conn, msg) :: rest =>
    match requestOf msg with
    | none => { sys with toModule := Function.update sys.toModule s rest }
    | some request =>
      if h : conforms (UInt8.ofNat conn) request (tpdus.map WireTpdu.tpdu) = true then
        { sys with
          toModule := Function.update sys.toModule s rest
          toHost := Function.update sys.toHost s (sys.toHost s ++ [⟨conn, request, tpdus, h⟩]) }
      else sys

/-- The read of `en50221_tl_poll`: at most 4096 bytes, handed to the slot that `route` finds. -/
def System.read (sys : System) (s s' : ℕ) : System :=
  if sys.host.inUse s ∧ s' < sys.host.maxSlots ∧
      (sys.host.slots s').caHndl = (sys.host.slots s).caHndl then
    match sys.toHost s' with
    | [] => sys
    | r :: rest =>
      match route sys.host s (sys.host.slots s').slot with
      | none =>
        { sys with host := sys.host.setError badSlotId, toHost := Function.update sys.toHost s' rest }
      | some s'' =>
        if (sys.reading s'').isSome then sys
        else
          { sys with
            toHost := Function.update sys.toHost s' rest
            reading := Function.update sys.reading s''
              (some ⟨r.conn, r.request, r.bytes.take 4096⟩) }
  else sys

/-- The buffer is done when it is used up or a handler has failed. -/
def System.process (sys : System) (link : Link) (s : ℕ) : Option System :=
  match sys.reading s with
  | none => some sys
  | some m =>
    (processOne link s sys.host.tl m.bytes).map fun r =>
      let sys := sys.setHost link { sys.host with tl := r.2.1 }
      { sys with
        reading := Function.update sys.reading s
          (if r.2.2 = [] then none else some ⟨m.conn, m.request, r.2.2⟩) }

def System.step (link : Link) (sys : System) : SysOp → Option System
  | .call c => (sys.host.step link c.op).map (sys.setHost link)
  | .answer s tpdus => some (sys.answer s tpdus)
  | .read s s' => some (sys.read s s')
  | .process s => sys.process link s

/-- The CAMs of a system, each registered once. -/
structure Cams where
  slots : List Slot
  nodup : slots.Nodup

/-- The transport layer after `en50221_tl_create` and the registration of slots. -/
def registerAll (h : Host) (slots : List Slot) : Host :=
  slots.foldl (fun h c => (registerSlot h c.caHndl c.slot).2) h

def System.create (maxSlots maxConnections : UInt8) (callback : Bool) (cams : Cams) : System where
  host := registerAll (tlCreate maxSlots maxConnections callback) cams.slots
  toModule := fun _ => []
  toHost := fun _ => []
  reading := fun _ => none

/-! ### Pending requests -/

def sentTo (k : ConnId) (msgs : List (ℕ × List UInt8)) : List Request :=
  msgs.filterMap fun m => if m.1 = k.2 then requestOf m.2 else none

def answeredTo (k : ConnId) (replies : List Reply) : List Request :=
  replies.filterMap fun r => if r.conn = k.2 then some r.request else none

def readFor (k : ConnId) (m : Option Reading) : List Request :=
  m.toList.filterMap fun m => if m.conn = k.2 then some m.request else none

/-- The requests on a connection whose answers the host has not seen, or not to the end. -/
def System.pending (sys : System) (k : ConnId) : List Request :=
  sentTo k (sys.toModule k.1) ++ answeredTo k (sys.toHost k.1) ++ readFor k (sys.reading k.1)

/-- The condition on a step: `en50221_tl_del_tc` finds an empty queue and nothing pending, no timeout ends a
connection in creation or in deletion whose answer is pending, and 4096 bytes hold an answer. -/
def Orderly (sys : System) : SysOp → Prop
  | .call (.delTc s conn mem) => mem = true →
      (sys.host.view (s.toNat, conn.toNat)).state = .active ∨
        (sys.host.view (s.toNat, conn.toNat)).state = .inDeletion →
      (sys.host.view (s.toNat, conn.toNat)).queue = [] ∧ sys.pending (s.toNat, conn.toNat) = []
  | .call (.timeout k late) => late = true → (sys.host.view k).txTime ≠ 0 →
      (sys.host.view k).state = .inCreation ∨ (sys.host.view k).state = .inDeletion → sys.pending k = []
  | .read _ s' => ∀ r ∈ (sys.toHost s').head?, r.bytes.length ≤ 4096
  | _ => True

/-- `en50221_tl_process_data` does not fail with EN50221ERR_BADCAMDATA or EN50221ERR_BADSTATE. -/
def Accepted (link : Link) (sys : System) : SysOp → Prop
  | .process s => ∀ m, sys.reading s = some m → ∀ ret tl rest,
      processOne link s sys.host.tl m.bytes = some (ret, tl, rest) → ret < 0 →
        tl.error ≠ badCamData ∧ tl.error ≠ badState
  | _ => True

/-! ### The invariant of a connection -/

/-- What can be queued and pending on a connection, state by state.  At most one answer decides about the
state; only an active connection awaits data, and all that it awaits is data. -/
inductive Ordered (k : ConnId) : View → List Request → Prop
  | idle {v : View} (hstate : v.state = .idle) (hqueue : v.queue = [] ∨ v.txTime ≠ 0) : Ordered k v []
  | unsent {v : View} (hstate : v.state = .inCreation)
      (hqueue : v.queue = [] ∨ v.queue = [createMsg k] ∨ v.txTime ≠ 0) : Ordered k v []
  | creating {v : View} (hstate : v.state = .inCreation) (hqueue : v.queue = []) : Ordered k v [.create]
  | active {v : View} {ps : List Request} (hstate : v.state = .active) (hps : ∀ p ∈ ps, p = .data)
      (hqueue : ∀ m ∈ v.queue, m = [] ∨ m.head? = some tDataLast) : Ordered k v ps
  | deleteQueued {v : View} (hstate : v.state = .activeDeletequeued)
      (hqueue : v.queue = [] ∨ v.queue = [deleteMsg k]) : Ordered k v []
  | deleting {v : View} (hstate : v.state = .inDeletion) (hqueue : v.queue = []) : Ordered k v [.delete]
  | undeleted {v : View} (hstate : v.state = .inDeletion) (hqueue : v.queue = []) : Ordered k v []

section Ordered

variable {k : ConnId} {v v' : View} {ps : List Request}

theorem Ordered.perm {qs : List Request} (ho : Ordered k v ps) (hperm : ps.Perm qs) : Ordered k v qs := by
  cases ho with
  | idle hstate hqueue =>
    rw [List.nil_perm.mp hperm]
    exact .idle hstate hqueue
  | unsent hstate hqueue =>
    rw [List.nil_perm.mp hperm]
    exact .unsent hstate hqueue
  | creating hstate hqueue =>
    rw [← List.singleton_perm.mp hperm]
    exact .creating hstate hqueue
  | active hstate hps hqueue =>
    exact .active hstate (fun p hp => hps p (hperm.mem_iff.mpr hp)) hqueue
  | deleteQueued hstate hqueue =>
    rw [List.nil_perm.mp hperm]
    exact .deleteQueued hstate hqueue
  | deleting hstate hqueue =>
    rw [← List.singleton_perm.mp hperm]
    exact .deleting hstate hqueue
  | undeleted hstate hqueue =>
    rw [List.nil_perm.mp hperm]
    exact .undeleted hstate hqueue

theorem requestOf_data {msg : List UInt8} (hmsg : msg = [] ∨ msg.head? = some tDataLast) :
    requestOf (linkBytes msg) = none ∨ requestOf (linkBytes msg) = some .data := by
  unfold linkBytes
  rcases hmsg with rfl | hhead
  · exact .inl rfl
  · cases msg with
    | nil => exact absurd hhead (by simp)
    | cons tag rest =>
      obtain rfl := Option.some.inj hhead
      cases (tDataLast :: rest).length % 2 ^ 16 with
      | zero => exact .inl rfl
      | succ n => exact .inr rfl

variable {ws : List (List UInt8)} {chosen : Bool} {req : Request}

theorem Ordered.active_append (hps : ∀ p ∈ ps, p = .data)
    (hws : ∀ w ∈ ws, requestOf w = none ∨ requestOf w = some .data) :
    ∀ p ∈ ps ++ ws.filterMap requestOf, p = .data := by
  intro p hp
  rcases List.mem_append.mp hp with hp | hp
  · exact hps p hp
  · obtain ⟨w, hw, hreq⟩ := List.mem_filterMap.mp hp
    rcases hws w hw with h | h
    · rw [h] at hreq
      exact absurd hreq (by simp)
    · rw [h] at hreq
      exact (Option.some.inj hreq).symm

theorem Ordered.created (ho : Ordered k v ps) (hidle : v.state = .idle) (mem : Bool) :
    Ordered k ⟨.inCreation, v.txTime, .null, v.queue ++ if mem then [createMsg k] else []⟩ ps := by
  cases ho with
  | idle hstate hqueue =>
    refine .unsent rfl ?_
    rcases hqueue with hqueue | htx
    · rw [hqueue]
      cases mem with
      | false => exact .inl rfl
      | true => exact .inr (.inl rfl)
    · exact .inr (.inr htx)
  | active hstate _ _ =>
    rw [hstate] at hidle
    exact absurd hidle (by decide)
  | unsent hstate _ | creating hstate _ | deleteQueued hstate _ | deleting hstate _ | undeleted hstate _ =>
    rw [hstate] at hidle
    exact absurd hidle (by decide)

theorem Ordered.head_cases (ho : Ordered k v ps) (hsends : v.state.sends = true) (htx : v.txTime = 0)
    {msg : List UInt8} {rest : List (List UInt8)} (hqueue : v.queue = msg :: rest) :
    (v.state = .inCreation ∧ msg = createMsg k ∧ rest = [] ∧ ps = []) ∨
    (v.state = .active ∧ (∀ p ∈ ps, p = .data) ∧
      ∀ m ∈ msg :: rest, m = [] ∨ m.head? = some tDataLast) ∨
    (v.state = .activeDeletequeued ∧ msg = deleteMsg k ∧ rest = [] ∧ ps = []) := by
  cases ho with
  | unsent hstate hq =>
    rw [hqueue] at hq
    rcases hq with h | h | h
    · exact absurd h (by simp)
    · obtain ⟨hmsg, hrest⟩ := List.cons.inj h
      exact .inl ⟨hstate, hmsg, hrest, rfl⟩
    · exact absurd htx h
  | creating _ hq =>
    rw [hqueue] at hq
    exact absurd hq (by simp)
  | active hstate hps hq =>
    rw [hqueue] at hq
    exact .inr (.inl ⟨hstate, hps, hq⟩)
  | deleteQueued hstate hq =>
    rw [hqueue] at hq
    rcases hq with h | h
    · exact absurd h (by simp)
    · obtain ⟨hmsg, hrest⟩ := List.cons.inj h
      exact .inr (.inr ⟨hstate, hmsg, hrest, rfl⟩)
  | idle hstate _ | deleting hstate _ | undeleted hstate _ =>
    rw [hstate] at hsends
    exact absurd hsends (by decide)

/-- **The head of the queue is sent**, or lost: a create goes out on an empty link, data behind the answers
that are out, a delete when nothing else is. -/
theorem Ordered.transmit {j : ConnId} (ho : Ordered k v ps) (he : Effect k chosen (HostCall.transmit j).op v v' ws) :
    Ordered k v' (ps ++ ws.filterMap requestOf) := by
  cases he with
  | same =>
    rw [List.filterMap_nil, List.append_nil]
    exact ho
  | queued hop _ _ => exact hop.elim
  | lost hsends hqueue htx =>
    rw [List.filterMap_nil, List.append_nil]
    obtain ⟨hstate, -, rfl, rfl⟩ | ⟨hstate, hps, hdata⟩ | ⟨hstate, -, rfl, rfl⟩ :=
      ho.head_cases hsends htx hqueue
    · exact .unsent hstate (.inl rfl)
    · exact .active hstate hps fun m hm => hdata m (List.mem_cons_of_mem _ hm)
    · exact .deleteQueued hstate (.inl rfl)
  | sent hsends hqueue htx hmsg =>
    obtain ⟨hstate, rfl, rfl, rfl⟩ | ⟨hstate, hps, hdata⟩ | ⟨-, rfl, -, -⟩ :=
      ho.head_cases hsends htx hqueue
    · exact .creating hstate rfl
    · refine .active hstate (Ordered.active_append hps fun w hw => ?_)
        fun m hm => hdata m (List.mem_cons_of_mem _ hm)
      rw [List.mem_singleton.mp hw]
      exact requestOf_data (hdata _ List.mem_cons_self)
    · exact absurd rfl hmsg
  | deleteSent hsends hqueue htx hmsg =>
    obtain ⟨-, rfl, -, -⟩ | ⟨-, -, hdata⟩ | ⟨-, rfl, rfl, rfl⟩ := ho.head_cases hsends htx hqueue
    · exact absurd (Option.some.inj hmsg) (by decide)
    · rcases hdata _ List.mem_cons_self with h | h
      · rw [h] at hmsg
        exact absurd hmsg (by simp)
      · rw [h] at hmsg
        exact absurd (Option.some.inj hmsg) (by decide)
    · exact .deleting rfl rfl

/-- **A call of the application, or a round of the poll**, keeps a connection ordered. -/
theorem Ordered.call {c : HostCall} (ho : Ordered k v ps) (he : Effect k chosen c.op v v' ws)
    (hdel : ∀ s conn, c = .delTc s conn true → k = (s.toNat, conn.toNat) →
      v.state = .active ∨ v.state = .inDeletion → v.queue = [] ∧ ps = [])
    (htime : c = .timeout k true → v.txTime ≠ 0 →
      v.state = .inCreation ∨ v.state = .inDeletion → ps = []) : Ordered k v' (ps ++ ws.filterMap requestOf) := by
  have hsame : Ordered k v (ps ++ List.filterMap requestOf []) := by
    rw [List.filterMap_nil, List.append_nil]
    exact ho
  cases c with
  | newTc s mem =>
    cases he with
    | same => exact hsame
    | created hidle _ =>
      rw [List.filterMap_nil, List.append_nil]
      exact ho.created hidle mem
    | queued hop _ _ => exact hop.elim
  | delTc s conn mem =>
    cases he with
    | same => exact hsame
    | deleteQueued hk hstate =>
      obtain ⟨hqueue, rfl⟩ := hdel s conn rfl hk hstate
      rw [hqueue]
      exact .deleteQueued rfl (.inr rfl)
    | queued hop _ _ => exact hop.elim
  | sendData s conn mem data =>
    cases he with
    | same => exact hsame
    | queued _ hstate hmsg =>
      rw [List.filterMap_nil, List.append_nil]
      cases ho with
      | active _ hps hqueue =>
        refine .active rfl hps fun m hm => ?_
        rcases List.mem_append.mp hm with hm | hm
        · exact hqueue m hm
        · rw [List.mem_singleton.mp hm]
          exact hmsg
      | idle h _ | unsent h _ | creating h _ | deleteQueued h _ | deleting h _ | undeleted h _ =>
        rw [h] at hstate
        exact absurd hstate (by decide)
  | transmit j => exact ho.transmit he
  | askPoll j due =>
    cases he with
    | same => exact hsame
    | queued hop _ _ => exact hop.elim
    | polled hstate hws =>
      cases ho with
      | active _ hps hqueue =>
        refine .active rfl (Ordered.active_append hps fun w hw => ?_) hqueue
        rcases hws with rfl | rfl
        · exact absurd hw (by simp)
        · rw [List.mem_singleton.mp hw]
          exact .inr rfl
      | idle h _ | unsent h _ | creating h _ | deleteQueued h _ | deleting h _ | undeleted h _ =>
        rw [h] at hstate
        exact absurd hstate (by decide)
  | timeout j late =>
    cases he with
    | same => exact hsame
    | queued hop _ _ => exact hop.elim
    | expired hstate htx =>
      obtain rfl := htime rfl htx hstate
      exact .idle rfl (.inr htx)

/-! ### Answers -/

def AnswerTpdu : Request → Tpdu → Prop
  | .create, t => t.tag = 0x83
  | .delete, t => t.tag = 0x85
  | .data, t => t.tag = tDataMore ∨ t.tag = tDataLast ∨ t.tag = 0x80 ∧ t.payload.length = 1

def Request.state : Request → TcState
  | .create => .inCreation
  | .delete => .inDeletion
  | .data => .active

theorem Ordered.state_of_mem (ho : Ordered k v ps) (hreq : req ∈ ps) : v.state = req.state := by
  cases ho with
  | creating hstate _ =>
    rw [List.mem_singleton.mp hreq]
    exact hstate
  | active hstate hps _ =>
    rw [hps req hreq]
    exact hstate
  | deleting hstate _ =>
    rw [List.mem_singleton.mp hreq]
    exact hstate
  | idle _ _ | unsent _ _ | deleteQueued _ _ | undeleted _ _ => exact absurd hreq (by simp)

theorem Effect.answer_cases {slot : ℕ} {t : Tpdu} (he : Effect k chosen (.received slot t) v v' ws)
    (ht : AnswerTpdu req t) :
    (v' = v ∧ ws = []) ∨
    (t.id slot = k ∧
      ((req = .create ∧ v'.state = .active ∧ v'.queue = v.queue ∧ ws = []) ∨
        (req = .delete ∧ v'.state = .idle ∧ v'.queue = v.queue ∧ ws = []) ∨
        (req = .data ∧ v'.state = .active ∧ v'.queue = v.queue ∧ (ws = [] ∨ ws = [rcvMsg k])))) := by
  -- the tags of an answer are not those of the module's own requests
  have htags : t.tag ≠ 0x84 ∧ t.tag ≠ 0x86 ∧ (t.tag = 0x83 → req = .create) ∧ (t.tag = 0x85 → req = .delete) ∧
      (t.tag = tDataMore ∨ t.tag = tDataLast ∨ t.tag = 0x80 → req = .data) := by
    cases req with
    | create =>
      have htag : t.tag = 0x83 := ht
      rw [htag]
      decide
    | delete =>
      have htag : t.tag = 0x85 := ht
      rw [htag]
      decide
    | data =>
      rcases ht with htag | htag | ⟨htag, -⟩
      all_goals
        rw [htag]
        decide
  obtain ⟨h84, h86, hcreate, hdelete, hdata⟩ := htags
  cases he with
  | same => exact .inl ⟨rfl, rfl⟩
  | queued hop _ _ => exact hop.elim
  | opened hk htag _ => exact .inr ⟨hk, .inl ⟨hcreate htag, rfl, rfl, rfl⟩⟩
  | deleted hk htag _ => exact .inr ⟨hk, .inr (.inl ⟨hdelete htag, rfl, rfl, rfl⟩)⟩
  | dataReceived hk htag _ =>
    refine .inr ⟨hk, .inr (.inr ⟨hdata ?_, rfl, rfl, .inl rfl⟩)⟩
    rcases htag with h | h
    · exact .inl h
    · exact .inr (.inl h)
  | status hk htag _ hws => exact .inr ⟨hk, .inr (.inr ⟨hdata (.inr (.inr htag)), rfl, rfl, hws⟩)⟩
  | moduleDeleted _ htag _ => exact absurd htag h84
  | requested _ htag _ | requestOpened _ htag _ _ | requestFailed htag _ _ | requestedItself _ htag _ _ =>
    exact absurd htag h86

/-- **An answer** keeps its connection ordered, without the request; data may be answered in two parts. -/
theorem Ordered.answered {slot : ℕ} {t : Tpdu} (ho : Ordered k v (req :: ps))
    (he : Effect k chosen (.received slot t) v v' ws) (ht : AnswerTpdu req t) :
    Ordered k v' (ps ++ ws.filterMap requestOf) ∧
      (req = .data → Ordered k v' (req :: ps ++ ws.filterMap requestOf)) := by
  have hcases := he.answer_cases ht
  cases ho with
  | creating hstate hqueue =>
    obtain ⟨rfl, rfl⟩ | ⟨-, ⟨-, hv', hq', rfl⟩ | ⟨h, -⟩ | ⟨h, -⟩⟩ := hcases
    · exact ⟨.unsent hstate (.inl hqueue), fun h => absurd h (by decide)⟩
    · refine ⟨.active hv' (fun p hp => absurd hp (by simp)) (fun m hm => ?_), fun h => absurd h (by decide)⟩
      rw [hq', hqueue] at hm
      exact absurd hm (by simp)
    · exact absurd h (by decide)
    · exact absurd h (by decide)
  | deleting hstate hqueue =>
    obtain ⟨rfl, rfl⟩ | ⟨-, ⟨h, -⟩ | ⟨-, hv', hq', rfl⟩ | ⟨h, -⟩⟩ := hcases
    · exact ⟨.undeleted hstate hqueue, fun h => absurd h (by decide)⟩
    · exact absurd h (by decide)
    · exact ⟨.idle hv' (.inl (hq'.trans hqueue)), fun h => absurd h (by decide)⟩
    · exact absurd h (by decide)
  | active hstate hps hqueue =>
    have hreq := hps req List.mem_cons_self
    have hout : v'.state = .active ∧ v'.queue = v.queue ∧
        ∀ w ∈ ws, requestOf w = none ∨ requestOf w = some .data := by
      obtain ⟨rfl, rfl⟩ | ⟨-, ⟨h, -⟩ | ⟨h, -⟩ | ⟨-, hv', hq', hws⟩⟩ := hcases
      · exact ⟨hstate, rfl, fun w hw => absurd hw (by simp)⟩
      · rw [hreq] at h
        exact absurd h (by decide)
      · rw [hreq] at h
        exact absurd h (by decide)
      · refine ⟨hv', hq', fun w hw => ?_⟩
        rcases hws with rfl | rfl
        · exact absurd hw (by simp)
        · rw [List.mem_singleton.mp hw]
          exact .inr rfl
    obtain ⟨hv', hq', hws⟩ := hout
    rw [← hq'] at hqueue
    exact ⟨.active hv' (Ordered.active_append (fun p hp => hps p (List.mem_cons_of_mem _ hp)) hws) hqueue,
      fun _ => .active hv' (Ordered.active_append hps hws) hqueue⟩

end Ordered

/-- A handler has not refused what the module sent, and the layer has the same connections. -/
def Takes (tl : Tl) (r : ℤ × Tl) : Prop :=
  (r.1 < 0 → r.2.error ≠ badCamData ∧ r.2.error ≠ badState) ∧ r.2.maxConnections = tl.maxConnections

theorem takes_of_ok {tl tl' : Tl} (hmax : tl'.maxConnections = tl.maxConnections) : Takes tl (0, tl') :=
  ⟨fun h => absurd h (Int.lt_irrefl 0), hmax⟩

theorem takes_fail {tl tl' : Tl} (slot : ℕ) {err : ℤ} (herr : err ≠ badCamData ∧ err ≠ badState)
    (hmax : tl'.maxConnections = tl.maxConnections) : Takes tl (tl'.fail slot err) :=
  ⟨fun _ => herr, hmax⟩

theorem maxConnections_call (tl : Tl) (reason : Reason) (data : List UInt8) (k : ConnId) :
    (tl.call reason data k).maxConnections = tl.maxConnections := by
  unfold Tl.call
  split
  · rfl
  · rfl

section Takes

variable {link : Link} {tl : Tl} {k : ConnId} {r : ℤ × Tl}

theorem takes_createTcReply (hstate : (tl.conn k).state = .inCreation) :
    Takes tl (handleCreateTcReply tl k) := by
  rw [handleCreateTcReply, if_pos hstate]
  exact takes_of_ok (maxConnections_call _ _ _ _)

theorem takes_deleteTcReply (hstate : (tl.conn k).state = .inDeletion) :
    Takes tl (handleDeleteTcReply tl k) := by
  rw [handleDeleteTcReply, if_pos hstate]
  exact takes_of_ok rfl

variable {data : List UInt8}

theorem takes_dataMore (hstate : (tl.conn k).state = .active) (h : handleDataMore tl k data = some r) : Takes tl r := by
  rw [handleDataMore, if_neg (not_not_intro hstate)] at h
  dsimp only at h
  split at h
  · exact absurd h (by simp)
  · obtain rfl := Option.some.inj h
    exact takes_fail _ (by decide) rfl
  · obtain rfl := Option.some.inj h
    exact takes_of_ok rfl

theorem takes_dataLast (hstate : (tl.conn k).state = .active) (h : handleDataLast tl k data = some r) : Takes tl r := by
  have hcall : ∀ (c : Connection) (n : ℕ) (d : List UInt8),
      (if n ≠ 0 then (tl.setConn k c).call .data d k else tl.setConn k c).maxConnections
        = tl.maxConnections := by
    intro c n d
    split
    · exact maxConnections_call _ _ _ _
    · rfl
  rw [handleDataLast, if_neg (not_not_intro hstate)] at h
  dsimp only at h
  split at h
  · obtain rfl := Option.some.inj h
    exact takes_of_ok (hcall _ _ _)
  · split at h
    · exact absurd h (by simp)
    · obtain rfl := Option.some.inj h
      exact takes_fail _ (by decide) rfl
    · obtain rfl := Option.some.inj h
      exact takes_of_ok (hcall _ _ _)

theorem takes_sb (hstate : (tl.conn k).state = .active) (hlen : data.length = 1) :
    Takes tl (handleSb link tl k data) := by
  obtain ⟨b, rfl⟩ := List.length_eq_one_iff.mp hlen
  rw [handleSb, if_neg (not_not_intro hstate)]
  dsimp only
  split
  · split
    · exact takes_fail _ (by decide) rfl
    · exact takes_of_ok rfl
  · exact takes_of_ok rfl

end Takes

theorem takes_dispatch {link : Link} {s : ℕ} {tl : Tl} {t : Tpdu} {req : Request} {r : ℤ × Tl}
    (hmax : t.conn.toNat < tl.maxConnections) (hstate : (tl.conn (t.id s)).state = req.state)
    (ht : AnswerTpdu req t) (hd : dispatch link s tl t = some r) : Takes tl r := by
  rw [dispatch, if_neg (Nat.not_le_of_lt hmax), handleTpdu] at hd
  cases req with
  | create =>
    have htag : t.tag = 0x83 := ht
    rw [htag, if_pos rfl] at hd
    obtain rfl := Option.some.inj hd
    exact takes_createTcReply hstate
  | delete =>
    have htag : t.tag = 0x85 := ht
    rw [htag, if_neg (by decide), if_neg (by decide), if_pos rfl] at hd
    obtain rfl := Option.some.inj hd
    exact takes_deleteTcReply hstate
  | data =>
    rcases ht with htag | htag | ⟨htag, hlen⟩
    · rw [htag, if_neg (by decide), if_neg (by decide), if_neg (by decide), if_neg (by decide),
        if_pos rfl] at hd
      exact takes_dataMore hstate hd
    · rw [htag, if_neg (by decide), if_neg (by decide), if_neg (by decide), if_neg (by decide),
        if_neg (by decide), if_pos rfl] at hd
      exact takes_dataLast hstate hd
    · rw [htag, if_neg (by decide), if_neg (by decide), if_neg (by decide), if_neg (by decide),
        if_neg (by decide), if_neg (by decide), if_pos rfl] at hd
      obtain rfl := Option.some.inj hd
      exact takes_sb hstate hlen

theorem conforms_cons {conn : UInt8} {req : Request} {ts : List Tpdu} (hc : conforms conn req ts = true) :
    ∃ t rest, ts = t :: rest ∧ AnswerTpdu req t ∧ t.conn = conn ∧
      (rest = [] ∨ req = .data ∧ conforms conn req rest = true) := by
  unfold conforms at hc
  split at hc
  · obtain rfl := of_decide_eq_true hc
    exact ⟨_, [], rfl, rfl, rfl, .inl rfl⟩
  · obtain rfl := of_decide_eq_true hc
    exact ⟨_, [], rfl, rfl, rfl, .inl rfl⟩
  · rename_i t
    rcases Bool.or_eq_true_iff.mp hc with h | h
    · obtain ⟨htag, hconn⟩ := of_decide_eq_true h
      refine ⟨t, [], rfl, ?_, hconn, .inl rfl⟩
      rcases htag with htag | htag
      · exact .inl htag
      · exact .inr (.inl htag)
    · obtain ⟨htag, hconn, hlen⟩ := of_decide_eq_true h
      exact ⟨t, [], rfl, .inr (.inr ⟨htag, hlen⟩), hconn, .inl rfl⟩
  · rename_i d t
    obtain ⟨hd, ht⟩ := Bool.and_eq_true_iff.mp hc
    obtain ⟨htag, hconn⟩ := of_decide_eq_true hd
    refine ⟨d, [t], rfl, ?_, hconn, .inr ⟨rfl, ?_⟩⟩
    · rcases htag with htag | htag
      · exact .inl htag
      · exact .inr (.inl htag)
    · show (isData conn t || isStatus conn t) = true
      rw [ht, Bool.or_true]
  · exact absurd hc (by simp)

end BgtDvb.En50221
