import BgtDvb.En50221Chain
import BgtDvb.En50221Host

/-!
# What a step does to a connection

Calls of the application, TPDUs of the module and the rounds of `en50221_tl_poll` meet in the connections.
This file says once, for every single step and every connection, what can happen to the connection's state,
its `tx_time`, its chain buffer and its send queue, and which messages reach the module on it.

* `step_effect` — **PROVED**: every step does one of them to every connection.
-/

namespace BgtDvb.En50221

/-! ### Connections and what is written on them -/

/-- A connection as the sending side sees it. -/
structure View where
  state : TcState
  txTime : ℕ
  chain : ChainPtr
  queue : List (List UInt8)
  deriving Repr, DecidableEq

def Tl.view (tl : Tl) (queue : ConnId → List (List UInt8)) (k : ConnId) : View :=
  ⟨(tl.conn k).state, (tl.conn k).txTime, (tl.conn k).chain, queue k⟩

def Host.view (h : Host) (k : ConnId) : View := h.tl.view h.queue k

/-- The messages, the first of them the `n`-th write, that the link takes. -/
def Link.taken (link : Link) : ℕ → List (ConnId × List UInt8) → List (ConnId × List UInt8)
  | _, [] => []
  | n, w :: ws => if link.ok n then w :: link.taken (n + 1) ws else link.taken (n + 1) ws

def written (link : Link) (tl tl' : Tl) : List (ConnId × List UInt8) :=
  link.taken tl.sent.length (tl'.sent.drop tl.sent.length)

def onConn (k : ConnId) (ws : List (ConnId × List UInt8)) : List (List UInt8) :=
  (ws.filter fun w => w.1 = k).map Prod.snd

def writtenOn (link : Link) (tl tl' : Tl) (k : ConnId) : List (List UInt8) := onConn k (written link tl tl')

/-- T_CREATE_T_C, T_DELETE_T_C, T_RCV and the poll of a connection. -/
def createMsg (k : ConnId) : List UInt8 := [0x82, 1, UInt8.ofNat k.2]

def deleteMsg (k : ConnId) : List UInt8 := [0x84, 1, UInt8.ofNat k.2]

def rcvMsg (k : ConnId) : List UInt8 := [0x81, 1, UInt8.ofNat k.2]

def pollMsg (k : ConnId) : List UInt8 := [0xA0, 1, UInt8.ofNat k.2]

def HostOp.sendsOn (k : ConnId) : HostOp → Prop
  | .sendData s conn _ _ => k = (s.toNat, conn.toNat)
  | .sendDatav s conn _ _ => k = (s.toNat, conn.toNat)
  | _ => False

/-- Whether `en50221_tl_alloc_new_tc` would take the connection. -/
def Tl.chooses (tl : Tl) (k : ConnId) : Bool := decide ((allocNewTc tl k.1).map Prod.fst = some k.2)

/-- What a step can do to connection `k`, with the messages that reach the module on it; `chosen` tells
whether it is the connection that would be allocated next. -/
inductive Effect (k : ConnId) (chosen : Bool) : HostOp → View → View → List (List UInt8) → Prop
  | same {op : HostOp} {v : View} : Effect k chosen op v v []
  | cleared {s : UInt8} {v : View} : Effect k chosen (.destroySlot s) v ⟨.idle, 0, .null, []⟩ []
  | created {s : UInt8} {mem : Bool} {v : View} (hidle : v.state = .idle) (hchosen : chosen) :
    Effect k chosen (.newTc s mem) v
      ⟨.inCreation, v.txTime, .null, v.queue ++ if mem then [createMsg k] else []⟩ []
  | deleteQueued {s conn : UInt8} {v : View} (hk : k = (s.toNat, conn.toNat))
      (hstate : v.state = .active ∨ v.state = .inDeletion) :
    Effect k chosen (.delTc s conn true) v
      ⟨.activeDeletequeued, v.txTime, v.chain, v.queue ++ [deleteMsg k]⟩ []
  | queued {op : HostOp} {v : View} {msg : List UInt8} (hop : op.sendsOn k) (hstate : v.state = .active)
      (hmsg : msg = [] ∨ msg.head? = some tDataLast) :
    Effect k chosen op v ⟨.active, v.txTime, v.chain, v.queue ++ [msg]⟩ []
  | lost {v : View} {msg : List UInt8} {rest : List (List UInt8)} (hsends : v.state.sends)
      (hqueue : v.queue = msg :: rest) (htx : v.txTime = 0) :
    Effect k chosen (.transmit k) v ⟨v.state, v.txTime, v.chain, rest⟩ []
  | sent {v : View} {msg : List UInt8} {rest : List (List UInt8)} {t : ℕ} (hsends : v.state.sends)
      (hqueue : v.queue = msg :: rest) (htx : v.txTime = 0) (hmsg : msg.head? ≠ some 0x84) :
    Effect k chosen (.transmit k) v ⟨v.state, t, v.chain, rest⟩ [linkBytes msg]
  | deleteSent {v : View} {msg : List UInt8} {rest : List (List UInt8)} {t : ℕ} (hsends : v.state.sends)
      (hqueue : v.queue = msg :: rest) (htx : v.txTime = 0) (hmsg : msg.head? = some 0x84) :
    Effect k chosen (.transmit k) v ⟨.inDeletion, t, .null, rest⟩ [linkBytes msg]
  | polled {due : Bool} {v : View} {t : ℕ} {ws : List (List UInt8)} (hstate : v.state = .active)
      (hws : ws = [] ∨ ws = [pollMsg k]) :
    Effect k chosen (.askPoll k due) v ⟨.active, t, v.chain, v.queue⟩ ws
  | expired {v : View} (hstate : v.state = .inCreation ∨ v.state = .inDeletion) (htx : v.txTime ≠ 0) :
    Effect k chosen (.timeout k true) v ⟨.idle, v.txTime, v.chain, v.queue⟩ []
  | opened {s : ℕ} {t : Tpdu} {v : View} (hk : t.id s = k) (htag : t.tag = 0x83)
      (hstate : v.state = .inCreation) :
    Effect k chosen (.received s t) v ⟨.active, 0, v.chain, v.queue⟩ []
  | moduleDeleted {s : ℕ} {t : Tpdu} {v : View} {ws : List (List UInt8)} (hk : t.id s = k)
      (htag : t.tag = 0x84) (hstate : v.state = .active ∨ v.state = .inDeletion) :
    Effect k chosen (.received s t) v ⟨.idle, v.txTime, .null, v.queue⟩ ws
  | deleted {s : ℕ} {t : Tpdu} {v : View} (hk : t.id s = k) (htag : t.tag = 0x85)
      (hstate : v.state = .inDeletion) :
    Effect k chosen (.received s t) v ⟨.idle, v.txTime, v.chain, v.queue⟩ []
  | requested {s : ℕ} {t : Tpdu} {v : View} {n : ℕ} {ws : List (List UInt8)} (hk : t.id s = k)
      (htag : t.tag = 0x86) (htx : n = v.txTime ∨ n = 0) :
    Effect k chosen (.received s t) v ⟨v.state, n, v.chain, v.queue⟩ ws
  | requestOpened {s : ℕ} {t : Tpdu} {v : View} {n : ℕ} (hk : t.id s ≠ k) (htag : t.tag = 0x86)
      (hidle : v.state = .idle) (hchosen : chosen) :
    Effect k chosen (.received s t) v ⟨.inCreation, n, .null, v.queue⟩ [createMsg k]
  | requestFailed {s : ℕ} {t : Tpdu} {v : View} {n : ℕ} {ws : List (List UInt8)} (htag : t.tag = 0x86)
      (hidle : v.state = .idle) (htx : n = v.txTime ∨ n = 0) :
    Effect k chosen (.received s t) v ⟨.idle, n, .null, v.queue⟩ ws
  | requestedItself {s : ℕ} {t : Tpdu} {v : View} {n : ℕ} {ws : List (List UInt8)} (hk : t.id s = k)
      (htag : t.tag = 0x86) (hidle : v.state = .idle) (hchosen : chosen) :
    Effect k chosen (.received s t) v ⟨.inCreation, n, .null, v.queue⟩ ws
  | dataReceived {s : ℕ} {t : Tpdu} {v : View} {p : ChainPtr} (hk : t.id s = k)
      (htag : t.tag = tDataMore ∨ t.tag = tDataLast) (hstate : v.state = .active) :
    Effect k chosen (.received s t) v ⟨.active, 0, p, v.queue⟩ []
  | status {s : ℕ} {t : Tpdu} {v : View} {n : ℕ} {ws : List (List UInt8)} (hk : t.id s = k)
      (htag : t.tag = 0x80) (hstate : v.state = .active) (hws : ws = [] ∨ ws = [rcvMsg k]) :
    Effect k chosen (.received s t) v ⟨.active, n, v.chain, v.queue⟩ ws

/-! ### Single changes of the state -/

section Changes

variable (tl : Tl) (q : ConnId → List (List UInt8)) {k j : ConnId}

theorem view_setConn_of_ne (hk : j ≠ k) (c : Connection) : (tl.setConn j c).view q k = tl.view q k := by
  have hconn : (tl.setConn j c).conn k = tl.conn k := Function.update_of_ne hk.symm _ _
  unfold Tl.view
  rw [hconn]

theorem view_setConn (c : Connection) :
    (tl.setConn k c).view q k = ⟨c.state, c.txTime, c.chain, q k⟩ := by
  unfold Tl.view
  rw [conn_setConn]

@[simp] theorem conn_call (reason : Reason) (data : List UInt8) : (tl.call reason data j).conn = tl.conn := by
  unfold Tl.call
  split
  · rfl
  · rfl

@[simp] theorem sent_call (reason : Reason) (data : List UInt8) : (tl.call reason data j).sent = tl.sent := by
  unfold Tl.call
  split
  · rfl
  · rfl

theorem conn_setTxTime (n : ℕ) :
    (tl.setTxTime j n).conn k
      = { tl.conn k with txTime := if j = k then n else (tl.conn k).txTime } := by
  unfold Tl.setTxTime
  by_cases hk : j = k
  · subst hk
    rw [conn_setConn, if_pos rfl]
  · have hconn : (tl.setConn j { tl.conn j with txTime := n }).conn k = tl.conn k :=
      Function.update_of_ne (Ne.symm hk) _ _
    rw [hconn, if_neg hk]

theorem conn_setState (st : TcState) :
    (tl.setState j st).conn k = { tl.conn k with state := if j = k then st else (tl.conn k).state } := by
  unfold Tl.setState
  by_cases hk : j = k
  · subst hk
    rw [conn_setConn, if_pos rfl]
  · have hconn : (tl.setConn j { tl.conn j with state := st }).conn k = tl.conn k :=
      Function.update_of_ne (Ne.symm hk) _ _
    rw [hconn, if_neg hk]

theorem view_call (reason : Reason) (data : List UInt8) :
    (tl.call reason data j).view q k = tl.view q k := by
  unfold Tl.view
  rw [conn_call]

end Changes

section Writes

variable {link : Link} {tl tl' : Tl} {k : ConnId}

theorem written_of_append {ws : List (ConnId × List UInt8)} (h : tl'.sent = tl.sent ++ ws) :
    written link tl tl' = link.taken tl.sent.length ws := by
  unfold written
  rw [h, List.drop_left]

theorem writtenOn_of_same (h : tl'.sent = tl.sent) : writtenOn link tl tl' k = [] := by
  have happ : tl'.sent = tl.sent ++ [] := by rw [h, List.append_nil]
  unfold writtenOn
  rw [written_of_append happ]
  rfl

variable {j : ConnId}

theorem writtenOn_of_one (h : tl'.sent = tl.sent ++ [(j, msg)]) :
    writtenOn link tl tl' k = if link.ok tl.sent.length ∧ j = k then [msg] else [] := by
  unfold writtenOn
  rw [written_of_append h, Link.taken]
  by_cases hok : link.ok tl.sent.length = true
  · rw [if_pos hok]
    by_cases hk : j = k
    · rw [if_pos ⟨hok, hk⟩]
      simp [onConn, Link.taken, hk]
    · rw [if_neg fun hboth => hk hboth.2]
      simp [onConn, Link.taken, hk]
  · rw [if_neg hok, if_neg fun hboth => hok hboth.1]
    rfl

theorem writtenOn_of_others (h : tl'.sent = tl.sent ++ [(j, msg), (j', msg')]) (hj : j ≠ k) (hj' : j' ≠ k) :
    writtenOn link tl tl' k = [] := by
  unfold writtenOn
  rw [written_of_append h]
  unfold Link.taken Link.taken Link.taken onConn
  split_ifs
  · simp [hj, hj']
  · simp [hj]
  · simp [hj']
  · rfl

theorem writtenOn_of_two (h : tl'.sent = tl.sent ++ [(j, msg), (j', msg')]) (hok : link.ok tl.sent.length = true)
    (hok' : link.ok (tl.sent.length + 1) = true) : writtenOn link tl tl' k = onConn k [(j, msg), (j', msg')] := by
  unfold writtenOn
  rw [written_of_append h, Link.taken, if_pos hok, Link.taken, if_pos hok']
  rfl

end Writes

variable {chosen : Bool} {k j : ConnId} {op : HostOp} {v v' : View} {link : Link} {tl tl' : Tl} {s conid : ℕ}
    {q : ConnId → List (List UInt8)} {t : Tpdu}

/-- An idle connection comes into use only if it is the one to be allocated. -/
theorem Effect.chosen_of_used {ws : List (List UInt8)} (he : Effect k chosen op v v' ws) (hv : v.state = .idle)
    (hv' : v'.state ≠ .idle) : chosen = true := by
  cases he with
  | created _ hchosen => exact hchosen
  | requestOpened _ _ _ hchosen => exact hchosen
  | requestedItself _ _ _ hchosen => exact hchosen
  | same | requested _ _ _ => exact absurd hv hv'
  | cleared | expired _ _ | moduleDeleted _ _ _ | deleted _ _ _ | requestFailed _ _ _ =>
    exact absurd rfl hv'
  | lost hsends _ _ | sent hsends _ _ _ | deleteSent hsends _ _ _ =>
    rw [hv] at hsends
    exact absurd hsends (by decide)
  | deleteQueued _ hstate | queued _ hstate _ | polled hstate _ | opened _ _ hstate
  | dataReceived _ _ hstate | status _ _ hstate _ =>
    rw [hv] at hstate
    exact absurd hstate (by decide)

theorem Effect.of_eq {w : View} {ws us : List (List UInt8)} (hv : v' = w) (hws : ws = us)
    (he : Effect k chosen op v w us) : Effect k chosen op v v' ws := by
  rw [hv, hws]
  exact he

theorem effect_on (hsent : tl'.sent = tl.sent) (hother : j ≠ k → v' = v) (hself : j = k → Effect k chosen op v v' []) :
    Effect k chosen op v v' (writtenOn link tl tl' k) := by
  rw [writtenOn_of_same hsent]
  by_cases hk : j = k
  · exact hself hk
  · rw [hother hk]
    exact .same

theorem effect_on_write {msg : List UInt8} (hsent : tl'.sent = tl.sent ++ [(j, msg)]) (hother : j ≠ k → v' = v)
    (hself : j = k → Effect k chosen op v v' (if link.ok tl.sent.length then [msg] else [])) :
    Effect k chosen op v v' (writtenOn link tl tl' k) := by
  rw [writtenOn_of_one hsent]
  by_cases hk : j = k
  · simp only [hk, and_true]
    exact hself hk
  · rw [if_neg fun hboth => hk hboth.2, hother hk]
    exact .same

theorem effect_of_same (hv : v' = v) (hsent : tl'.sent = tl.sent) : Effect k chosen op v v' (writtenOn link tl tl' k) :=
  .of_eq hv (writtenOn_of_same hsent) .same

/-! ### TPDUs of the module -/

section Received

variable {link : Link} {tl : Tl} {q : ConnId → List (List UInt8)} {s : ℕ} {t : Tpdu} {j : ConnId}
  {chosen : Bool} (hj : t.id s = j) (k : ConnId)

theorem effect_fail (slot : ℕ) (err : ℤ) :
    Effect k chosen (.received s t) (tl.view q k) ((tl.fail slot err).2.view q k)
      (writtenOn link tl (tl.fail slot err).2 k) :=
  effect_of_same rfl rfl

include hj

theorem effect_createTcReply (htag : t.tag = 0x83) :
    Effect k chosen (.received s t) (tl.view q k) ((handleCreateTcReply tl j).2.view q k)
      (writtenOn link tl (handleCreateTcReply tl j).2 k) := by
  unfold handleCreateTcReply
  split
  · rename_i hstate
    dsimp only
    rw [view_call]
    refine effect_on (sent_call _ _ _) (fun hk => view_setConn_of_ne tl q hk _) ?_
    intro hk
    subst hk
    exact .of_eq (view_setConn tl q _) rfl (.opened hj htag hstate)
  · exact effect_fail k _ _

variable {r : ℤ × Tl}

theorem effect_deleteTc (htag : t.tag = 0x84) (h : handleDeleteTc link tl j = some r) :
    Effect k chosen (.received s t) (tl.view q k) (r.2.view q k) (writtenOn link tl r.2 k) := by
  unfold handleDeleteTc at h
  split at h
  · rename_i hstate
    split at h
    · exact absurd h (by simp)
    · -- both ends of the handler have the same connections, and one write
      have hout : r.2.view q k = (tl.setConn j
            { tl.conn j with state := .idle, chain := .null, bufferLength := 0 }).view q k ∧
          r.2.sent = tl.sent ++ [(j, [0x85, 1, UInt8.ofNat j.2])] := by
        dsimp only at h
        split at h
        · obtain rfl := Option.some.inj h
          exact ⟨rfl, rfl⟩
        · obtain rfl := Option.some.inj h
          exact ⟨view_call _ _ _ _, sent_call _ _ _⟩
      rw [hout.1]
      refine effect_on_write hout.2 (fun hk => view_setConn_of_ne tl q hk _) ?_
      intro hk
      subst hk
      exact .of_eq (view_setConn tl q _) rfl (.moduleDeleted hj htag hstate)
  · obtain rfl := Option.some.inj h
    exact effect_fail k _ _

theorem effect_deleteTcReply (htag : t.tag = 0x85) :
    Effect k chosen (.received s t) (tl.view q k) ((handleDeleteTcReply tl j).2.view q k)
      (writtenOn link tl (handleDeleteTcReply tl j).2 k) := by
  unfold handleDeleteTcReply
  split
  · rename_i hstate
    refine effect_on rfl (fun hk => view_setConn_of_ne tl q hk _) ?_
    intro hk
    subst hk
    exact .of_eq (view_setConn tl q _) rfl (.deleted hj htag hstate)
  · exact effect_fail k _ _

/-- A chunk of data changes at most the `tx_time` and the chain of its connection. -/
theorem effect_of_data (htag : t.tag = tDataMore ∨ t.tag = tDataLast) (hactive : (tl.conn j).state = .active)
    (hout : ∃ c : Connection, (tl'.view q k = (tl.setConn j c).view q k ∧ tl'.sent = tl.sent) ∧
      c.state = .active ∧ c.txTime = 0) :
    Effect k chosen (.received s t) (tl.view q k) (tl'.view q k) (writtenOn link tl tl' k) := by
  obtain ⟨c, ⟨hview, hsent⟩, hc, htx⟩ := hout
  rw [hview]
  refine effect_on hsent (fun hk => view_setConn_of_ne tl q hk _) ?_
  intro hk
  subst hk
  refine .of_eq ?_ rfl (.dataReceived (p := c.chain) hj htag hactive)
  rw [view_setConn, hc, htx]
  rfl

theorem effect_dataMore (htag : t.tag = tDataMore) {data : List UInt8} (h : handleDataMore tl j data = some r) :
    Effect k chosen (.received s t) (tl.view q k) (r.2.view q k) (writtenOn link tl r.2 k) := by
  unfold handleDataMore at h
  split at h
  · obtain rfl := Option.some.inj h
    exact effect_fail k _ _
  · rename_i hstate
    have hactive := not_not.mp hstate
    have hout : ∃ c : Connection, (r.2.view q k = (tl.setConn j c).view q k ∧ r.2.sent = tl.sent) ∧
        c.state = .active ∧ c.txTime = 0 := by
      dsimp only at h
      split at h
      · exact absurd h (by simp)
      · obtain rfl := Option.some.inj h
        exact ⟨_, ⟨rfl, rfl⟩, hactive, rfl⟩
      · obtain rfl := Option.some.inj h
        exact ⟨_, ⟨rfl, rfl⟩, hactive, rfl⟩
    exact effect_of_data hj k (.inl htag) hactive hout

theorem effect_dataLast (htag : t.tag = tDataLast) {data : List UInt8} (h : handleDataLast tl j data = some r) :
    Effect k chosen (.received s t) (tl.view q k) (r.2.view q k) (writtenOn link tl r.2 k) := by
  unfold handleDataLast at h
  split at h
  · obtain rfl := Option.some.inj h
    exact effect_fail k _ _
  · rename_i hstate
    have hactive := not_not.mp hstate
    have hcall : ∀ (c : Connection) (n : ℕ) (d : List UInt8),
        (if n ≠ 0 then (tl.setConn j c).call .data d j else tl.setConn j c).view q k
            = (tl.setConn j c).view q k ∧
          (if n ≠ 0 then (tl.setConn j c).call .data d j else tl.setConn j c).sent = tl.sent := by
      intro c n d
      split
      · exact ⟨view_call _ _ _ _, sent_call _ _ _⟩
      · exact ⟨rfl, rfl⟩
    have hout : ∃ c : Connection, (r.2.view q k = (tl.setConn j c).view q k ∧ r.2.sent = tl.sent) ∧
        c.state = .active ∧ c.txTime = 0 := by
      dsimp only at h
      split at h
      · obtain rfl := Option.some.inj h
        exact ⟨_, hcall _ _ _, hactive, rfl⟩
      · split at h
        · exact absurd h (by simp)
        · obtain rfl := Option.some.inj h
          exact ⟨_, ⟨rfl, rfl⟩, hactive, rfl⟩
        · obtain rfl := Option.some.inj h
          exact ⟨_, hcall _ _ _, hactive, rfl⟩
    exact effect_of_data hj k (.inr htag) hactive hout

theorem effect_sb (htag : t.tag = 0x80) (data : List UInt8) :
    Effect k chosen (.received s t) (tl.view q k) ((handleSb link tl j data).2.view q k)
      (writtenOn link tl (handleSb link tl j data).2 k) := by
  rw [handleSb.eq_def]
  split
  · exact effect_fail k _ _
  · rename_i hstate
    have hactive := not_not.mp hstate
    have hsame : (tl.view q j).state = .active := hactive
    split
    · rename_i b
      split
      · dsimp only
        split
        · -- the write of T_RCV fails
          rename_i hfailed
          refine effect_on_write (j := j) rfl (fun _ => rfl) fun _ => ?_
          have hnot : (!link.ok tl.sent.length) = true := hfailed
          rw [if_neg (by simpa using hnot)]
          exact .same
        · refine effect_on_write (j := j) rfl (fun hk => view_setConn_of_ne _ q hk _) ?_
          intro hk
          subst hk
          refine .of_eq ?_ rfl (.status (n := link.now (tl.write link j (rcvMsg j)).2.sent.length) hj htag
            hsame ?_)
          · exact (view_setConn _ q _).trans (by rw [← hactive]; rfl)
          · split
            · exact .inr rfl
            · exact .inl rfl
      · refine effect_on (j := j) rfl (fun hk => view_setConn_of_ne tl q hk _) ?_
        intro hk
        subst hk
        refine .of_eq ?_ rfl (.status (n := 0) hj htag hsame (.inl rfl))
        exact (view_setConn _ q _).trans (by rw [← hactive]; rfl)
    · exact effect_fail k _ _

end Received

theorem openNewTc_cases (link : Link) (tl : Tl) (j : ConnId) (conid : ℕ) :
    ((openNewTc link tl j conid).2.sent
        = tl.sent ++ [(j, [0x87, 2, UInt8.ofNat j.2, UInt8.ofNat conid])] ∧
      ∀ k, (openNewTc link tl j conid).2.conn k
        = { tl.conn k with state := if (j.1, conid) = k then .idle else (tl.conn k).state }) ∨
    ((openNewTc link tl j conid).2.sent
        = tl.sent ++ [(j, [0x87, 2, UInt8.ofNat j.2, UInt8.ofNat conid]),
            ((j.1, conid), createMsg (j.1, conid))] ∧
      ∀ k, (openNewTc link tl j conid).2.conn k
        = { tl.conn k with
            state := if (j.1, conid) = k then .idle else (tl.conn k).state
            txTime := if j = k then 0 else (tl.conn k).txTime }) ∨
    (link.ok tl.sent.length = true ∧ link.ok (tl.sent.length + 1) = true ∧
      (openNewTc link tl j conid).2.sent
        = tl.sent ++ [(j, [0x87, 2, UInt8.ofNat j.2, UInt8.ofNat conid]),
            ((j.1, conid), createMsg (j.1, conid))] ∧
      ∃ now, ∀ k, (openNewTc link tl j conid).2.conn k
        = { tl.conn k with
            txTime := if (j.1, conid) = k then now else if j = k then 0 else (tl.conn k).txTime }) := by
  unfold openNewTc
  dsimp only
  split
  · refine .inl ⟨rfl, fun k => ?_⟩
    show ((tl.write link j _).2.setState (j.1, conid) .idle).conn k = _
    rw [conn_setState]
    rfl
  · rename_i hok
    have hok : link.ok tl.sent.length = true := by
      have hok' : ¬ (!link.ok tl.sent.length) = true := hok
      simpa using hok'
    split
    · refine .inr (.inl ⟨?_, fun k => ?_⟩)
      · show (tl.sent ++ [_]) ++ [_] = _
        rw [List.append_assoc]
        rfl
      · show ((((tl.write link j _).2.setTxTime j 0).write link (j.1, conid) _).2.setState
          (j.1, conid) .idle).conn k = _
        rw [conn_setState]
        show ({ ((tl.write link j _).2.setTxTime j 0).conn k with
          state := if (j.1, conid) = k then .idle
            else (((tl.write link j _).2.setTxTime j 0).conn k).state } : Connection) = _
        rw [conn_setTxTime]
        rfl
    · rename_i hok₂
      refine .inr (.inr ⟨hok, ?_, ?_, ?_⟩)
      · have hok₂' : ¬ (!link.ok (tl.sent ++ [(j, [0x87, 2, UInt8.ofNat j.2, UInt8.ofNat conid])]).length)
            = true := hok₂
        rw [List.length_append, List.length_singleton] at hok₂'
        simpa using hok₂'
      · rw [sent_call]
        show (tl.sent ++ [_]) ++ [_] = _
        rw [List.append_assoc]
        rfl
      · refine ⟨link.now (((tl.write link j [0x87, 2, UInt8.ofNat j.2, UInt8.ofNat conid]).2.setTxTime
          j 0).write link (j.1, conid) [0x82, 1, UInt8.ofNat conid]).2.sent.length, fun k => ?_⟩
        rw [conn_call, conn_setTxTime]
        show ({ ((tl.write link j _).2.setTxTime j 0).conn k with
          txTime := if (j.1, conid) = k then _
            else (((tl.write link j _).2.setTxTime j 0).conn k).txTime } : Connection) = _
        rw [conn_setTxTime]
        rfl

theorem chooses_of_alloc (h : allocNewTc tl s = some (conid, tl')) : tl.chooses (s, conid) = true := by
  unfold Tl.chooses
  rw [h]
  exact decide_eq_true rfl

theorem effect_openNewTc_new (hj : t.id s = j) (htag : t.tag = 0x86) (halloc : allocNewTc tl j.1 = some (conid, tl')) :
    Effect (j.1, conid) (tl.chooses (j.1, conid)) (.received s t) (tl.view q (j.1, conid))
      ((openNewTc link tl' j conid).2.view q (j.1, conid))
      (writtenOn link tl (openNewTc link tl' j conid).2 (j.1, conid)) := by
  obtain ⟨hidle, -, rfl⟩ := allocNewTc_eq halloc
  have hstate : (tl.view q (j.1, conid)).state = .idle := hidle
  obtain ⟨-, hconn⟩ | ⟨-, hconn⟩ | ⟨hok, hok', hsent, now, hconn⟩ := openNewTc_cases link
    (tl.setConn (j.1, conid)
      { tl.conn (j.1, conid) with state := .inCreation, chain := .null, bufferLength := 0 }) j conid
  · refine .of_eq ?_ rfl (.requestFailed htag hstate (.inl rfl))
    unfold Tl.view
    rw [hconn, conn_setConn, if_pos rfl]
  · refine .of_eq ?_ rfl (.requestFailed (n := if j = (j.1, conid) then 0
      else (tl.conn (j.1, conid)).txTime) htag hstate ?_)
    · unfold Tl.view
      rw [hconn, conn_setConn, if_pos rfl]
    · by_cases hself : j = (j.1, conid)
      · exact .inr (if_pos hself)
      · exact .inl (if_neg hself)
  · have hview : (openNewTc link (tl.setConn (j.1, conid)
        { tl.conn (j.1, conid) with state := .inCreation, chain := .null, bufferLength := 0 }) j
          conid).2.view q (j.1, conid) = ⟨.inCreation, now, .null, q (j.1, conid)⟩ := by
      unfold Tl.view
      rw [hconn, conn_setConn, if_pos rfl]
    by_cases hself : j = (j.1, conid)
    · exact .of_eq hview rfl
        (.requestedItself (hj.trans hself) htag hstate (chooses_of_alloc halloc))
    · refine .of_eq hview ?_ (.requestOpened (fun h => hself (hj.symm.trans h)) htag hstate
        (chooses_of_alloc halloc))
      refine (writtenOn_of_two hsent hok hok').trans ?_
      simp [onConn, hself]

theorem effect_openNewTc_other (hj : t.id s = j) (htag : t.tag = 0x86)
    (halloc : allocNewTc tl j.1 = some (conid, tl')) (hnew : (j.1, conid) ≠ k) :
    Effect k chosen (.received s t) (tl.view q k) ((openNewTc link tl' j conid).2.view q k)
      (writtenOn link tl (openNewTc link tl' j conid).2 k) := by
  obtain ⟨-, -, rfl⟩ := allocNewTc_eq halloc
  have hsame : ∀ c, (tl.setConn (j.1, conid) c).conn k = tl.conn k :=
    fun c => Function.update_of_ne hnew.symm _ _
  obtain ⟨hsent, hconn⟩ | ⟨hsent, hconn⟩ | ⟨-, -, hsent, now, hconn⟩ := openNewTc_cases link
    (tl.setConn (j.1, conid)
      { tl.conn (j.1, conid) with state := .inCreation, chain := .null, bufferLength := 0 }) j conid
  · have hview : (openNewTc link (tl.setConn (j.1, conid)
        { tl.conn (j.1, conid) with state := .inCreation, chain := .null, bufferLength := 0 }) j
          conid).2.view q k = tl.view q k := by
      unfold Tl.view
      rw [hconn, hsame, if_neg hnew]
    rw [hview]
    exact effect_on_write hsent (fun _ => rfl) fun hk =>
      .of_eq rfl rfl (.requested (hj.trans hk) htag (.inl rfl))
  all_goals
    by_cases hk : j = k
    · refine .of_eq ?_ rfl (.requested (n := 0) (hj.trans hk) htag (.inr rfl))
      unfold Tl.view
      rw [hconn, hsame, if_neg hnew, if_pos hk]
    · refine .of_eq ?_ (writtenOn_of_others hsent hk hnew) .same
      unfold Tl.view
      rw [hconn, hsame, if_neg hnew, if_neg hk]

theorem effect_requestTc (hj : t.id s = j) (k : ConnId) (htag : t.tag = 0x86) :
    Effect k (tl.chooses k) (.received s t) (tl.view q k) ((handleRequestTc link tl j).2.view q k)
      (writtenOn link tl (handleRequestTc link tl j).2 k) := by
  unfold handleRequestTc
  cases halloc : allocNewTc tl j.1 with
  | none =>
    dsimp only
    split
    · refine effect_on_write (j := j) rfl (fun _ => rfl) fun hk => ?_
      exact .of_eq rfl rfl (.requested (hj.trans hk) htag (.inl rfl))
    · refine effect_on_write (j := j) rfl (fun hk => view_setConn_of_ne _ q hk _) ?_
      intro hk
      subst hk
      exact .of_eq (view_setConn _ q _) rfl (.requested (n := 0) hj htag (.inr rfl))
  | some p =>
    obtain ⟨conid, tl'⟩ := p
    dsimp only
    by_cases hnew : (j.1, conid) = k
    · subst hnew
      exact effect_openNewTc_new hj htag halloc
    · exact effect_openNewTc_other hj htag halloc hnew

/-- **A TPDU of the module** does one of the effects to every connection. -/
theorem effect_dispatch {r : ℤ × Tl} (h : dispatch link s tl t = some r) (k : ConnId) :
    Effect k (tl.chooses k) (.received s t) (tl.view q k) (r.2.view q k) (writtenOn link tl r.2 k) := by
  rw [dispatch] at h
  split at h
  · obtain rfl := Option.some.inj h
    exact effect_fail k _ _
  · rw [handleTpdu] at h
    split at h
    · rename_i htag
      obtain rfl := Option.some.inj h
      exact effect_createTcReply rfl k htag
    · split at h
      · rename_i htag
        exact effect_deleteTc rfl k htag h
      · split at h
        · rename_i htag
          obtain rfl := Option.some.inj h
          exact effect_deleteTcReply rfl k htag
        · split at h
          · rename_i htag
            obtain rfl := Option.some.inj h
            exact effect_requestTc rfl k htag
          · split at h
            · rename_i htag
              exact effect_dataMore rfl k htag h
            · split at h
              · rename_i htag
                exact effect_dataLast rfl k htag h
              · split at h
                · rename_i htag
                  obtain rfl := Option.some.inj h
                  exact effect_sb rfl k htag _
                · obtain rfl := Option.some.inj h
                  exact effect_fail k _ _

/-! ### Calls of the application -/

section Calls

variable {link : Link} {h : Host} (k : ConnId)

theorem view_setQueue_of_ne (hk : j ≠ k) (msgs : List (List UInt8)) : (h.setQueue j msgs).view k = h.view k := by
  have hqueue : (h.setQueue j msgs).queue k = h.queue k := Function.update_of_ne hk.symm _ _
  unfold Host.view Tl.view
  rw [hqueue]
  rfl

theorem queue_setQueue {msgs : List (List UInt8)} : (h.setQueue k msgs).queue k = msgs :=
  Function.update_self _ _ _

theorem effect_registerSlot (caHndl : ℤ) (slot : UInt8) :
    Effect k chosen op (h.view k) ((registerSlot h caHndl slot).2.view k)
      (writtenOn link h.tl (registerSlot h caHndl slot).2.tl k) := by
  unfold registerSlot
  split
  · exact effect_of_same rfl rfl
  · exact effect_of_same rfl rfl

theorem effect_destroySlot {s : UInt8} (hd : destroySlot h s.toNat = some h') :
    Effect k chosen (.destroySlot s) (h.view k) (h'.view k) (writtenOn link h.tl h'.tl k) := by
  unfold destroySlot at hd
  split at hd
  · obtain rfl := Option.some.inj hd
    exact effect_of_same rfl rfl
  · split at hd
    · exact absurd hd (by simp)
    · obtain rfl := Option.some.inj hd
      by_cases hk : k.1 = s.toNat ∧ k.2 < h.tl.maxConnections
      · refine .of_eq ?_ (writtenOn_of_same (sent_call _ _ _)) .cleared
        unfold Host.view Tl.view
        rw [conn_call]
        unfold Host.clearSlot
        dsimp only
        rw [if_pos hk, if_pos hk]
        rfl
      · refine effect_of_same ?_ (sent_call _ _ _)
        unfold Host.view Tl.view
        rw [conn_call]
        unfold Host.clearSlot
        dsimp only
        rw [if_neg hk, if_neg hk]

theorem effect_newTc (s : UInt8) (mem : Bool) :
    Effect k (h.tl.chooses k) (.newTc s mem) (h.view k) ((newTc h s.toNat mem).2.view k)
      (writtenOn link h.tl (newTc h s.toNat mem).2.tl k) := by
  unfold newTc
  split
  · exact effect_of_same rfl rfl
  · split
    · exact effect_of_same rfl rfl
    · cases halloc : allocNewTc h.tl s.toNat with
      | none => exact effect_of_same rfl rfl
      | some p =>
        obtain ⟨conid, tl'⟩ := p
        obtain ⟨hidle, -, rfl⟩ := allocNewTc_eq halloc
        have hstate : (h.view (s.toNat, conid)).state = .idle := hidle
        dsimp only
        cases mem with
        | false =>
          refine effect_on (j := (s.toNat, conid)) rfl (fun hk => view_setConn_of_ne h.tl h.queue hk _) ?_
          intro hk
          subst hk
          refine .of_eq ?_ rfl (.created hstate (chooses_of_alloc halloc))
          refine (view_setConn h.tl h.queue _).trans ?_
          rw [if_neg (by decide), List.append_nil]
          rfl
        | true =>
          refine effect_on (j := (s.toNat, conid)) rfl (fun hk =>
            (view_setQueue_of_ne k hk _).trans (view_setConn_of_ne h.tl h.queue hk _)) ?_
          intro hk
          subst hk
          refine .of_eq ?_ rfl (.created hstate (chooses_of_alloc halloc))
          show (h.tl.setConn (s.toNat, conid) _).view (Function.update h.queue (s.toNat, conid) _)
            (s.toNat, conid) = _
          rw [view_setConn, Function.update_self]
          rfl

theorem effect_delTc (s conn : UInt8) (mem : Bool) :
    Effect k chosen (.delTc s conn mem) (h.view k) ((delTc h (s.toNat, conn.toNat) mem).2.view k)
      (writtenOn link h.tl (delTc h (s.toNat, conn.toNat) mem).2.tl k) := by
  unfold delTc
  split_ifs with hslot hhndl hconn hstate hmem
  · exact effect_of_same rfl rfl
  · exact effect_of_same rfl rfl
  · exact effect_of_same rfl rfl
  · exact effect_of_same rfl rfl
  · cases mem with
    | false => exact absurd rfl hmem
    | true =>
      dsimp only
      refine effect_on (j := (s.toNat, conn.toNat)) rfl
        (fun hk => (view_setConn_of_ne h.tl _ hk _).trans (view_setQueue_of_ne k hk _)) ?_
      intro hk
      subst hk
      refine .of_eq ?_ rfl (.deleteQueued rfl hstate)
      show (h.tl.setConn (s.toNat, conn.toNat) _).view
        (Function.update h.queue (s.toNat, conn.toNat) _) (s.toNat, conn.toNat) = _
      rw [view_setConn, Function.update_self]
      rfl
  · exact effect_of_same rfl rfl

theorem head_dataMessage (field : List UInt8) (conn : UInt8) (n : ℕ) (payload : List UInt8) :
    dataMessage field conn n payload = [] ∨
      (dataMessage field conn n payload).head? = some tDataLast := by
  unfold dataMessage
  cases (1 + field.length + 1 + n) % 2 ^ 32 with
  | zero => exact .inl rfl
  | succ m => exact .inr rfl

theorem effect_queueData (hop : op.sendsOn j) (hr : sendRefused h j = none)
    (hmsg : msg = [] ∨ msg.head? = some tDataLast) :
    Effect k chosen op (h.view k) ((queueMessage h j msg).view k)
      (writtenOn link h.tl (queueMessage h j msg).tl k) := by
  refine effect_on rfl (fun hk => view_setQueue_of_ne k hk _) ?_
  intro hk
  subst hk
  have hactive : (h.view j).state = .active := by
    unfold sendRefused at hr
    split_ifs at hr with _ _ _ hstate
    exact not_not.mp hstate
  refine .of_eq ?_ rfl (.queued hop hactive hmsg)
  rw [← hactive]
  unfold queueMessage Host.view Tl.view
  rw [queue_setQueue]
  rfl

theorem sendRefused_same (hr : sendRefused h j = some h') : h'.view k = h.view k ∧ h'.tl.sent = h.tl.sent := by
  unfold sendRefused at hr
  split_ifs at hr
  all_goals
    obtain rfl := Option.some.inj hr
    exact ⟨rfl, rfl⟩

theorem effect_sendData (s conn : UInt8) (mem : Bool) (data : List UInt8) :
    Effect k chosen (.sendData s conn mem data) (h.view k) ((sendData h s conn mem data).2.view k)
      (writtenOn link h.tl (sendData h s conn mem data).2.tl k) := by
  unfold sendData
  dsimp only
  cases hr : sendRefused h (s.toNat, conn.toNat) with
  | some h' =>
    obtain ⟨hview, hsent⟩ := sendRefused_same k hr
    exact effect_of_same hview hsent
  | none =>
    dsimp only
    split
    · exact effect_of_same rfl rfl
    · split
      · exact effect_of_same rfl rfl
      · have hop : (HostOp.sendData s conn mem data).sendsOn (s.toNat, conn.toNat) := rfl
        exact effect_queueData k hop hr (head_dataMessage _ _ _ _)

theorem effect_sendDatav {s conn : UInt8} {mem : Bool} {iov : List (List UInt8)}
    (hs : sendDatav h s conn mem iov = some r) :
    Effect k chosen (.sendDatav s conn mem iov) (h.view k) (r.2.view k) (writtenOn link h.tl r.2.tl k) := by
  unfold sendDatav at hs
  dsimp only at hs
  cases hr : sendRefused h (s.toNat, conn.toNat) with
  | some h' =>
    rw [hr] at hs
    obtain rfl := Option.some.inj hs
    obtain ⟨hview, hsent⟩ := sendRefused_same k hr
    exact effect_of_same hview hsent
  | none =>
    rw [hr] at hs
    dsimp only at hs
    split at hs
    · obtain rfl := Option.some.inj hs
      exact effect_of_same rfl rfl
    · split at hs
      · obtain rfl := Option.some.inj hs
        exact effect_of_same rfl rfl
      · split at hs
        · exact absurd hs (by simp)
        · obtain rfl := Option.some.inj hs
          have hop : (HostOp.sendDatav s conn mem iov).sendsOn (s.toNat, conn.toNat) := rfl
          exact effect_queueData k hop hr (head_dataMessage _ _ _ _)

end Calls

/-! ### Rounds of the poll -/

section Rounds

variable {link : Link} {h : Host} (k : ConnId)

theorem sentMessage_cases (hs : sentMessage link tl j msg = some tl') :
    tl'.sent = tl.sent ∧ ∃ n,
      (msg.head? ≠ some 0x84 ∧ tl' = tl.setConn j { tl.conn j with txTime := n } ∨
        msg.head? = some 0x84 ∧ ∃ c : Connection, c.state = .inDeletion ∧ c.txTime = n ∧ c.chain = .null ∧
          ∀ q i, tl'.view q i = (tl.setConn j c).view q i) := by
  unfold sentMessage at hs
  dsimp only at hs
  split at hs
  · rename_i hmsg
    split at hs
    · exact absurd hs (by simp)
    · obtain rfl := Option.some.inj hs
      refine ⟨rfl, link.now tl.sent.length, .inr ⟨hmsg, ⟨.inDeletion, link.now tl.sent.length, .null, 0⟩,
        rfl, rfl, rfl, ?_⟩⟩
      intro q i
      by_cases hi : j = i
      · subst hi
        rw [view_setConn, view_setConn, conn_setTxTime, if_pos rfl]
      · rw [view_setConn_of_ne _ q hi, view_setConn_of_ne _ q hi]
        exact view_setConn_of_ne tl q hi _
  · rename_i hmsg
    obtain rfl := Option.some.inj hs
    exact ⟨rfl, link.now tl.sent.length, .inl ⟨hmsg, rfl⟩⟩

theorem effect_transmit (ht : transmit link h j = some r) :
    Effect k chosen (.transmit j) (h.view k) (r.2.view k) (writtenOn link h.tl r.2.tl k) := by
  obtain ⟨ret, h'⟩ := r
  obtain rfl | ⟨msg, rest, hsends, hqueue, htx, ⟨hok, rfl⟩ | ⟨tl, hok, hsent, rfl⟩⟩ := transmit_cases ht
  · exact effect_of_same rfl rfl
  · -- the write failed
    refine effect_on_write (j := j) rfl (fun hk => view_setQueue_of_ne k hk rest) ?_
    intro hk
    subst hk
    rw [if_neg (by rw [hok]; decide)]
    refine .of_eq ?_ rfl (.lost hsends hqueue htx)
    show h.tl.view (Function.update h.queue j rest) j = _
    unfold Tl.view
    rw [Function.update_self]
    rfl
  · -- the write succeeded
    obtain ⟨hsame, n, ⟨hmsg, rfl⟩ | ⟨hmsg, c, hc, htime, hchain, hview⟩⟩ := sentMessage_cases hsent
    · refine effect_on_write (j := j) rfl
        (fun hk => (view_setConn_of_ne _ _ hk _).trans (view_setQueue_of_ne k hk rest)) ?_
      intro hk
      subst hk
      rw [if_pos hok]
      refine .of_eq ?_ rfl (.sent (t := n) hsends hqueue htx hmsg)
      refine (view_setConn _ _ _).trans ?_
      rw [queue_setQueue]
      rfl
    · have hone : tl.sent = h.tl.sent ++ [(j, linkBytes msg)] := hsame
      refine effect_on_write hone (fun hk => (hview _ k).trans
        ((view_setConn_of_ne _ _ hk _).trans (view_setQueue_of_ne k hk rest))) ?_
      intro hk
      subst hk
      rw [if_pos hok]
      refine .of_eq ?_ rfl (.deleteSent (t := n) hsends hqueue htx hmsg)
      refine (hview _ j).trans ((view_setConn _ _ _).trans ?_)
      rw [queue_setQueue, hc, htime, hchain]

theorem effect_askPoll (j : ConnId) (due : Bool) :
    Effect k chosen (.askPoll j due) (h.view k) ((askPoll link h j due).2.view k)
      (writtenOn link h.tl (askPoll link h j due).2.tl k) := by
  obtain heq | ⟨hactive, -, heq⟩ := askPoll_cases link h j due
  · rw [heq]
    exact effect_of_same rfl rfl
  · rw [heq]
    have hout : ∀ i, (pollTc link h.tl j).2.view h.queue i
          = (h.tl.setTxTime j (link.now h.tl.sent.length)).view h.queue i ∧
        (pollTc link h.tl j).2.sent = h.tl.sent ++ [(j, pollMsg j)] := by
      intro i
      unfold pollTc
      dsimp only
      split
      · exact ⟨rfl, rfl⟩
      · exact ⟨rfl, rfl⟩
    refine effect_on_write (hout k).2 (fun hk => (hout k).1.trans (view_setConn_of_ne _ _ hk _)) ?_
    intro hk
    subst hk
    refine .of_eq ?_ rfl (.polled (t := link.now h.tl.sent.length) hactive ?_)
    · refine (hout j).1.trans ((view_setConn _ _ _).trans ?_)
      rw [← hactive]
      rfl
    · split
      · exact .inr rfl
      · exact .inl rfl

theorem effect_timeout (j : ConnId) (late : Bool) :
    Effect k chosen (.timeout j late) (h.view k) ((checkTimeout h j late).2.view k)
      (writtenOn link h.tl (checkTimeout h j late).2.tl k) := by
  unfold checkTimeout
  split_ifs with hlate hstate hstate'
  · obtain ⟨htx, rfl⟩ := hlate
    refine effect_on rfl (fun hk => view_setConn_of_ne _ _ hk _) ?_
    intro hk
    subst hk
    exact .of_eq (view_setConn _ _ _) rfl (.expired hstate htx)
  · exact effect_of_same rfl rfl
  · exact effect_of_same rfl rfl
  · exact effect_of_same rfl rfl

end Rounds

theorem step_effect {h h' : Host} (hs : h.step link op = some h') (k : ConnId) :
    Effect k (h.tl.chooses k) op (h.view k) (h'.view k) (writtenOn link h.tl h'.tl k) := by
  cases op with
  | registerSlot caHndl slot =>
    obtain rfl := Option.some.inj hs
    exact effect_registerSlot k caHndl slot
  | destroySlot s => exact effect_destroySlot k hs
  | newTc s mem =>
    obtain rfl := Option.some.inj hs
    exact effect_newTc k s mem
  | delTc s conn mem =>
    obtain rfl := Option.some.inj hs
    exact effect_delTc k s conn mem
  | sendData s conn mem data =>
    obtain rfl := Option.some.inj hs
    exact effect_sendData k s conn mem data
  | sendDatav s conn mem iov =>
    obtain ⟨r, hr, rfl⟩ := Option.map_eq_some_iff.mp hs
    exact effect_sendDatav k hr
  | received s t =>
    rw [Host.step] at hs
    split at hs
    · obtain ⟨r, hr, rfl⟩ := Option.map_eq_some_iff.mp hs
      exact effect_dispatch hr k
    · obtain rfl := Option.some.inj hs
      exact effect_of_same rfl rfl
  | error slot err =>
    cases slot with
    | none =>
      obtain rfl := Option.some.inj hs
      exact effect_of_same rfl rfl
    | some s =>
      obtain rfl := Option.some.inj hs
      exact effect_of_same rfl rfl
  | transmit j =>
    rw [Host.step] at hs
    split at hs
    · obtain ⟨r, hr, rfl⟩ := Option.map_eq_some_iff.mp hs
      exact effect_transmit k hr
    · obtain rfl := Option.some.inj hs
      exact effect_of_same rfl rfl
  | askPoll j due =>
    rw [Host.step] at hs
    split at hs
    · obtain rfl := Option.some.inj hs
      exact effect_askPoll k j due
    · obtain rfl := Option.some.inj hs
      exact effect_of_same rfl rfl
  | timeout j late =>
    rw [Host.step] at hs
    split at hs
    · obtain rfl := Option.some.inj hs
      exact effect_timeout k j late
    · obtain rfl := Option.some.inj hs
      exact effect_of_same rfl rfl

end BgtDvb.En50221
