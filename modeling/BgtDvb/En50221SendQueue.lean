import BgtDvb.En50221Host
import BgtDvb.Lib.LinkedQueue

/-!
# The send queues of the EN50221 transport layer

`en50221_transport.c`: the messages of a connection hang in a list between `send_queue` and `send_queue_tail`.
`queue_message` puts one behind the last, `en50221_tl_poll` takes the first off, hands it to `dvbca_link_write` and frees it
whether it was written or not, and `en50221_tl_destroy_slot` frees all of them.  `dvbca_link_write` takes the length of a
message as a `uint16_t`.

* `Holds`, `step_holds` — the lists are such queues; **PROVED**: one call keeps them so;
* `handed_inOrder_iff` — **PROVED**: the device is given the messages in the order of the calls that queued them, exactly
  if none that was handed over has 65536 bytes or more;
* `Host.sendOps`, `SendQueues.mirrors_run` — **PROVED**: the queues of `Host` are such lists in every run.
-/

namespace BgtDvb.En50221

open LinkedQueue

/-! ### The lists -/

/-- `handed` is not in the source: the bytes that the device was given since the slot was last destroyed, with whether the
write succeeded. -/
structure SendQueues where
  heap : Heap (List UInt8)
  ends : ConnId → Ends
  handed : ConnId → List (List UInt8 × Bool)

namespace SendQueues

/-- The lists that `en50221_tl_create` sets up. -/
def create : SendQueues := ⟨[], fun _ => .empty, fun _ => []⟩

/-- `queue_message` with a message that was allocated for it; `wish` is where `malloc` would like to put it. -/
def queueMessage (q : SendQueues) (k : ConnId) (wish : ℕ) (msg : List UInt8) : Option SendQueues :=
  ((q.ends k).push q.heap (q.heap.malloc wish) msg).map fun r =>
    { q with heap := r.1, ends := Function.update q.ends k r.2 }

/-- "send queued data" in `en50221_tl_poll`, with what it reads of the connection and whether the write succeeds. -/
def sendQueued (q : SendQueues) (k : ConnId) (state : TcState) (txTime : ℕ) (ok : Bool) : Option SendQueues :=
  if state.sends ∧ txTime = 0 then
    match (q.ends k).pop q.heap with
    | none => none
    | some (none, _) => some q
    | some (some (a, msg), e) => some {
        heap := q.heap.free a
        ends := Function.update q.ends k e
        handed := Function.update q.handed k (q.handed k ++ [(linkBytes msg, ok)]) }
  else some q

def freeQueue (q : SendQueues) (k : ConnId) : Option SendQueues :=
  (freeAll q.heap (q.ends k).head).map fun heap =>
    ⟨heap, Function.update q.ends k .empty, Function.update q.handed k []⟩

/-- The loop of `en50221_tl_destroy_slot` over the connections of a slot. -/
def destroyQueues (q : SendQueues) (s : ℕ) (js : List ℕ) : Option SendQueues :=
  js.foldlM (fun q j => q.freeQueue (s, j)) q

end SendQueues

inductive SendOp where
  | queueMessage (k : ConnId) (wish : ℕ) (msg : List UInt8)
  | poll (k : ConnId) (state : TcState) (txTime : ℕ) (ok : Bool)
  | destroySlot (s maxConnections : ℕ)
  deriving Repr, DecidableEq

/-! ### What the calls ask for -/

/-- The messages that wait on a connection, and those that were handed over. -/
structure Fifo where
  waiting : List (List UInt8)
  handed : List (List UInt8 × Bool)
  deriving DecidableEq

def Fifo.hand (f : Fifo) (ok : Bool) : Fifo :=
  match f.waiting with
  | [] => f
  | msg :: rest => ⟨rest, f.handed ++ [(msg, ok)]⟩

def Fifo.step (k : ConnId) (f : Fifo) : SendOp → Fifo
  | .queueMessage k' _ msg => if k = k' then { f with waiting := f.waiting ++ [msg] } else f
  | .poll k' state txTime ok => if k = k' ∧ state.sends = true ∧ txTime = 0 then f.hand ok else f
  | .destroySlot s maxConnections => if k.1 = s ∧ k.2 < maxConnections then ⟨[], []⟩ else f

def fifo (k : ConnId) (ops : List SendOp) : Fifo := ops.foldl (Fifo.step k) ⟨[], []⟩

/-- The messages that were queued since the slot was last destroyed. -/
def asked (k : ConnId) (ops : List SendOp) : List (List UInt8) :=
  ops.foldl (fun msgs op =>
    match op with
    | .queueMessage k' _ msg => if k = k' then msgs ++ [msg] else msgs
    | .poll .. => msgs
    | .destroySlot s maxConnections => if k.1 = s ∧ k.2 < maxConnections then [] else msgs) []

theorem Fifo.hand_order (f : Fifo) (ok : Bool) :
    (f.hand ok).handed.map Prod.fst ++ (f.hand ok).waiting = f.handed.map Prod.fst ++ f.waiting := by
  unfold Fifo.hand
  cases hwaiting : f.waiting with
  | nil => rw [hwaiting]
  | cons msg rest => rw [List.map_append, List.append_assoc]; rfl

theorem Fifo.hand_waiting (f : Fifo) (ok : Bool) : (f.hand ok).waiting = f.waiting.tail := by
  unfold Fifo.hand
  cases hwaiting : f.waiting with
  | nil => exact hwaiting
  | cons msg rest => rfl

/-- What was queued is what was handed over, followed by what waits. -/
theorem asked_eq (k : ConnId) (ops : List SendOp) :
    asked k ops = (fifo k ops).handed.map Prod.fst ++ (fifo k ops).waiting := by
  induction ops using List.reverseRecOn with
  | nil => rfl
  | append_singleton ops op ih =>
    unfold asked fifo at ih ⊢
    rw [List.foldl_append, List.foldl_append, List.foldl_cons, List.foldl_nil, List.foldl_cons, List.foldl_nil, ih]
    cases op with
    | queueMessage k' wish msg =>
      dsimp only [Fifo.step]
      split_ifs
      · rw [List.append_assoc]
      · rfl
    | poll k' state txTime ok =>
      dsimp only [Fifo.step]
      split_ifs
      · exact (Fifo.hand_order _ ok).symm
      · rfl
    | destroySlot s maxConnections =>
      dsimp only [Fifo.step]
      split_ifs <;> rfl

theorem linkBytes_eq_iff (msg : List UInt8) : linkBytes msg = msg ↔ msg.length < 2 ^ 16 := by
  rw [linkBytes, List.take_eq_self_iff]
  omega

namespace SendQueues

def step (q : SendQueues) : SendOp → Option SendQueues
  | .queueMessage k wish msg => q.queueMessage k wish msg
  | .poll k state txTime ok => q.sendQueued k state txTime ok
  | .destroySlot s maxConnections => q.destroyQueues s (List.range maxConnections)

def run (ops : List SendOp) : Option SendQueues := ops.foldlM step create

/-! ### The lists as they should be -/

/-- The nodes of all lists hold what waits, and the device was given the bytes of what was handed over. -/
structure Holds (q : SendQueues) (f : ConnId → Fifo) : Prop where
  queues : ∃ nodes, Queues q.heap q.ends nodes ∧ ∀ k, (nodes k).map Prod.snd = (f k).waiting
  handed : ∀ k, q.handed k = (f k).handed.map fun m => (linkBytes m.1, m.2)

theorem create_holds : create.Holds fun _ => ⟨[], []⟩ := ⟨⟨fun _ => [], queues_empty, fun _ => rfl⟩, fun _ => rfl⟩

section Steps

variable {q : SendQueues} {f : ConnId → Fifo} (h : q.Holds f)
include h

theorem queueMessage_holds (k : ConnId) (wish : ℕ) (msg : List UInt8) :
    ∃ q', q.queueMessage k wish msg = some q' ∧ q'.Holds fun k' => (f k').step k' (.queueMessage k wish msg) := by
  obtain ⟨nodes, hqueues, hwaiting⟩ := h.queues
  obtain ⟨heap, e, hpush, hqueues'⟩ := hqueues.push k (q.heap.node_malloc wish) msg
  refine ⟨_, by rw [queueMessage, hpush]; rfl, ⟨_, hqueues', fun k' => ?_⟩, fun k' => ?_⟩
  · dsimp only [Fifo.step]
    by_cases hk : k' = k
    · subst hk
      rw [Function.update_self, List.map_append, hwaiting k', if_pos rfl]
      rfl
    · rw [Function.update_of_ne hk, if_neg hk]
      exact hwaiting k'
  · dsimp only [Fifo.step]
    split_ifs <;> exact h.handed k'

theorem sendQueued_holds (k : ConnId) (state : TcState) (txTime : ℕ) (ok : Bool) :
    ∃ q', q.sendQueued k state txTime ok = some q' ∧ q'.Holds fun k' => (f k').step k' (.poll k state txTime ok) := by
  obtain ⟨nodes, hqueues, hwaiting⟩ := h.queues
  have hothers : ∀ k', k' ≠ k → (f k').step k' (.poll k state txTime ok) = f k' := fun k' hk => if_neg fun hall => hk hall.1
  by_cases hsend : state.sends = true ∧ txTime = 0
  · have hself : (f k).step k (.poll k state txTime ok) = (f k).hand ok := if_pos ⟨rfl, hsend⟩
    have hwaitingk := hwaiting k
    cases hnodes : nodes k with
    | nil =>
      rw [hnodes] at hwaitingk
      have hsame : (fun k' => (f k').step k' (.poll k state txTime ok)) = f := by
        funext k'
        by_cases hk : k' = k
        · rw [hk, hself, Fifo.hand, ← hwaitingk]
          rfl
        · exact hothers k' hk
      refine ⟨q, ?_, by rw [hsame]; exact h⟩
      rw [sendQueued, if_pos hsend, hqueues.pop_nil hnodes]
    | cons node rest =>
      obtain ⟨a, msg⟩ := node
      rw [hnodes] at hwaitingk
      obtain ⟨e, hpop, hqueues'⟩ := hqueues.pop hnodes
      have hhand : (f k).hand ok = ⟨rest.map Prod.snd, (f k).handed ++ [(msg, ok)]⟩ := by
        rw [Fifo.hand, ← hwaitingk]
        rfl
      refine ⟨_, by rw [sendQueued, if_pos hsend, hpop], ⟨_, hqueues', fun k' => ?_⟩, fun k' => ?_⟩
      · by_cases hk : k' = k
        · rw [hk, Function.update_self, hself, hhand]
        · rw [Function.update_of_ne hk, hothers k' hk]
          exact hwaiting k'
      · show Function.update q.handed k _ k' = _
        by_cases hk : k' = k
        · rw [hk, Function.update_self, hself, hhand, h.handed k, List.map_append]
          rfl
        · rw [Function.update_of_ne hk, hothers k' hk]
          exact h.handed k'
  · have hsame : (fun k' => (f k').step k' (.poll k state txTime ok)) = f :=
      funext fun k' => if_neg fun hall => hsend hall.2
    exact ⟨q, by rw [sendQueued, if_neg hsend], by rw [hsame]; exact h⟩

theorem freeQueue_holds (k : ConnId) :
    ∃ q', q.freeQueue k = some q' ∧ q'.Holds fun k' => if k' = k then ⟨[], []⟩ else f k' := by
  obtain ⟨nodes, hqueues, hwaiting⟩ := h.queues
  obtain ⟨heap, hfree, hqueues'⟩ := hqueues.freeAll k
  refine ⟨_, by rw [freeQueue, hfree]; rfl, ⟨_, hqueues', fun k' => ?_⟩, fun k' => ?_⟩
  · by_cases hk : k' = k
    · rw [hk, Function.update_self, if_pos rfl]
      rfl
    · rw [Function.update_of_ne hk, if_neg hk]
      exact hwaiting k'
  · show Function.update q.handed k _ k' = _
    by_cases hk : k' = k
    · rw [hk, Function.update_self, if_pos rfl]
      rfl
    · rw [Function.update_of_ne hk, if_neg hk]
      exact h.handed k'

omit h in
theorem destroyQueues_holds (s : ℕ) (js : List ℕ) : ∀ {q : SendQueues} {f : ConnId → Fifo}, q.Holds f →
    ∃ q', q.destroyQueues s js = some q' ∧ q'.Holds fun k => if k.1 = s ∧ k.2 ∈ js then ⟨[], []⟩ else f k := by
  induction js with
  | nil =>
    intro q f h
    refine ⟨q, rfl, ?_⟩
    simpa only [List.not_mem_nil, and_false, if_false] using h
  | cons j js ih =>
    intro q f h
    obtain ⟨q₁, hfree, h₁⟩ := freeQueue_holds h (s, j)
    obtain ⟨q', hrest, h'⟩ := ih h₁
    refine ⟨q', by rw [destroyQueues, List.foldlM_cons, hfree]; exact hrest, ?_⟩
    convert h' using 2 with k
    by_cases hk : k = (s, j)
    · rw [if_pos hk, hk, ite_self, if_pos ⟨rfl, List.mem_cons_self⟩]
    · rw [if_neg hk]
      have hne : k.1 = s → k.2 ≠ j := fun hs hj => hk (Prod.ext hs hj)
      by_cases hs : k.1 = s
      · simp only [hs, true_and, List.mem_cons, hne hs, false_or]
      · simp only [hs, false_and, if_false]

theorem step_holds (op : SendOp) : ∃ q', q.step op = some q' ∧ q'.Holds fun k => (f k).step k op := by
  cases op with
  | queueMessage k wish msg => exact queueMessage_holds h k wish msg
  | poll k state txTime ok => exact sendQueued_holds h k state txTime ok
  | destroySlot s maxConnections =>
    have hfrees := destroyQueues_holds s (List.range maxConnections) h
    simp only [List.mem_range] at hfrees
    exact hfrees

theorem run_holds (ops : List SendOp) :
    ∃ q', ops.foldlM step q = some q' ∧ q'.Holds fun k => ops.foldl (Fifo.step k) (f k) := by
  induction ops generalizing q f with
  | nil => exact ⟨q, rfl, h⟩
  | cons op ops ih =>
    obtain ⟨q₁, hstep, h₁⟩ := step_holds h op
    obtain ⟨q', hrun, h'⟩ := ih h₁
    exact ⟨q', by rw [List.foldlM_cons, hstep]; exact hrun, h'⟩

theorem Holds.contents_eq (k : ConnId) : contents q.heap (q.ends k) = (f k).waiting := by
  obtain ⟨nodes, hqueues, hwaiting⟩ := h.queues
  rw [(hqueues.each k).contents_eq]
  exact hwaiting k

end Steps

/-- The device was given the messages that were queued on a connection, in that order, and those that it was not given
still wait. -/
def InOrder (q : SendQueues) (ops : List SendOp) (k : ConnId) : Prop :=
  asked k ops = (q.handed k).map Prod.fst ++ contents q.heap (q.ends k)

theorem Holds.inOrder_iff {q : SendQueues} {ops : List SendOp} (h : q.Holds fun k => fifo k ops) (k : ConnId) :
    q.InOrder ops k ↔ ∀ m ∈ (fifo k ops).handed, m.1.length < 2 ^ 16 := by
  rw [InOrder, h.contents_eq k, asked_eq, List.append_left_inj, h.handed k, List.map_map, List.map_inj_left]
  simp only [Function.comp_apply]
  exact forall₂_congr fun m _ => eq_comm.trans (linkBytes_eq_iff m.1)

/-- **Messages are handed over in order.**  Whatever is queued and polled, no freed message is looked at, the tail is
the last message, and a list holds what waits; the device is given what was queued, in that order, exactly if no
message that it was to be given has 65536 bytes or more. -/
theorem handed_inOrder_iff (ops : List SendOp) :
    ∃ q, run ops = some q ∧ ∀ k,
      ((q.ends k).tail = none ↔ (q.ends k).head = none) ∧
      (q.ends k).tail = ((nodesOf q.heap (q.ends k)).map Prod.fst).getLast? ∧
      (∀ t, (q.ends k).tail = some t → ∃ msg, q.heap.node t = some ⟨msg, none⟩) ∧
      contents q.heap (q.ends k) = (fifo k ops).waiting ∧
      (q.InOrder ops k ↔ ∀ m ∈ (fifo k ops).handed, m.1.length < 2 ^ 16) := by
  obtain ⟨q, hrun, h⟩ := run_holds create_holds ops
  refine ⟨q, hrun, fun k => ?_⟩
  obtain ⟨nodes, hqueues, -⟩ := h.queues
  have hk := hqueues.each k
  refine ⟨hk.tail_none_iff, ?_, fun t ht => hk.last_node ht, h.contents_eq k, h.inOrder_iff k⟩
  rw [hk.nodesOf_eq]
  exact hk.last

/-- The message that `en50221_tl_send_data` makes of 65531 bytes on connection 1, and the poll that sends it. -/
def longOps : List SendOp :=
  [.queueMessage (0, 1) 0 (dataMessage [0x82, 0xff, 0xfc] 1 65531 (List.replicate 65531 0)), .poll (0, 1) .active 0 true]

theorem length_dataMessage (field : List UInt8) (conn : UInt8) {payload : List UInt8} {n : ℕ} (hn : payload.length = n)
    (hlt : field.length + 2 + n < 2 ^ 32) : (dataMessage field conn n payload).length = field.length + 2 + n := by
  rw [dataMessage, List.length_take, Nat.mod_eq_of_lt (by omega)]
  simp only [List.length_cons, List.length_append, hn]
  omega

theorem linkBytes_of_length {msg : List UInt8} (h : msg.length = 2 ^ 16) : linkBytes msg = [] := by
  rw [linkBytes, h, Nat.mod_self, List.take_zero]

/-- The device is given no byte of it. -/
theorem not_inOrder_long : ∃ q, run longOps = some q ∧ (q.handed (0, 1)).map Prod.fst = [[]] ∧
    ¬q.InOrder longOps (0, 1) := by
  obtain ⟨q, hrun, h⟩ := run_holds create_holds longOps
  have hlength : (dataMessage [0x82, 0xff, 0xfc] 1 65531 (List.replicate 65531 0)).length = 2 ^ 16 :=
    length_dataMessage [0x82, 0xff, 0xfc] 1 List.length_replicate (by decide)
  have hhanded : (fifo (0, 1) longOps).handed =
      [(dataMessage [0x82, 0xff, 0xfc] 1 65531 (List.replicate 65531 0), true)] := rfl
  refine ⟨q, hrun, ?_, fun hin => ?_⟩
  · have hgiven : q.handed (0, 1) = (fifo (0, 1) longOps).handed.map fun m => (linkBytes m.1, m.2) := h.handed (0, 1)
    rw [hgiven, hhanded, List.map_singleton, List.map_singleton, linkBytes_of_length hlength]
  · have hall := (h.inOrder_iff (0, 1)).mp hin
    rw [hhanded] at hall
    exact absurd (hall _ List.mem_cons_self) (by rw [hlength]; decide)

end SendQueues

/-! ### The queues of the transport layer -/

section Host

variable {link : Link} {h h' : Host} {op : HostOp}

def queueOp (k : ConnId) (ret : ℤ) (msg : List UInt8) : List SendOp :=
  if ret < 0 then [] else [.queueMessage k 0 msg]

/-- What a call of the application or a step of `en50221_tl_poll` asks of the queues, by what it is called with, what it
returns, and what it reads of the connection. -/
def Host.sendOps (link : Link) (h : Host) : HostOp → List SendOp
  | .newTc s mem =>
    let ret := (newTc h s.toNat mem).1
    queueOp (s.toNat, ret.toNat) ret [0x82, 1, UInt8.ofNat ret.toNat]
  | .delTc s conn mem =>
    queueOp (s.toNat, conn.toNat) (delTc h (s.toNat, conn.toNat) mem).1 [0x84, 1, UInt8.ofNat conn.toNat]
  | .sendData s conn mem data =>
    let dataSize := data.length % 2 ^ 32
    queueOp (s.toNat, conn.toNat) (sendData h s conn mem data).1
      (dataMessage ((asn1Encode ((dataSize + 1) % 2 ^ 16) 3).getD []) conn dataSize (data.take dataSize))
  | .sendDatav s conn mem iov =>
    let dataSize := iov.foldl (fun size piece => (size + piece.length) % 2 ^ 32) 0
    queueOp (s.toNat, conn.toNat) ((sendDatav h s conn mem iov).elim (-1) Prod.fst)
      (dataMessage ((asn1Encode ((dataSize + 1) % 2 ^ 16) 3).getD []) conn dataSize iov.flatten)
  | .transmit k =>
    if h.polled k then [.poll k (h.tl.conn k).state (h.tl.conn k).txTime (link.ok h.tl.sent.length)] else []
  | .destroySlot s => if h.maxSlots ≤ s.toNat then [] else [.destroySlot s.toNat h.tl.maxConnections]
  | .registerSlot .. | .received .. | .error .. | .askPoll .. | .timeout .. => []

def Host.sendOpsOf (link : Link) : Host → List HostOp → List SendOp
  | _, [] => []
  | h, op :: ops => h.sendOps link op ++ (h.step link op).elim [] fun h' => sendOpsOf link h' ops

/-- The queues after a call that queues a message unless it fails. -/
def Queued (queue queue' : ConnId → List (List UInt8)) (k : ConnId) (ret : ℤ) (msg : List UInt8) : Prop :=
  if ret < 0 then queue' = queue else queue' = Function.update queue k (queue k ++ [msg])

theorem queued_failed (queue : ConnId → List (List UInt8)) (k : ConnId) (msg : List UInt8) : Queued queue queue k (-1) msg :=
  (if_pos (by decide : (-1 : ℤ) < 0)).mpr rfl

theorem queued_zero (queue : ConnId → List (List UInt8)) (k : ConnId) (msg : List UInt8) :
    Queued queue (Function.update queue k (queue k ++ [msg])) k 0 msg :=
  (if_neg (by decide : ¬(0 : ℤ) < 0)).mpr rfl

theorem sendRefused_queue {k : ConnId} (hr : sendRefused h k = some h') : h'.queue = h.queue := by
  unfold sendRefused at hr
  split_ifs at hr <;> (obtain rfl := Option.some.inj hr; rfl)

theorem newTc_queued (h : Host) (s : ℕ) (mem : Bool) :
    Queued h.queue (newTc h s mem).2.queue (s, (newTc h s mem).1.toNat) (newTc h s mem).1
      [0x82, 1, UInt8.ofNat (newTc h s mem).1.toNat] := by
  unfold newTc
  split
  · exact queued_failed _ _ _
  · split
    · exact queued_failed _ _ _
    · cases allocNewTc h.tl s with
      | none => exact queued_failed _ _ _
      | some r =>
        cases mem with
        | false => exact queued_failed _ _ _
        | true => exact (if_neg (not_lt.mpr (Int.natCast_nonneg r.1))).mpr rfl

theorem delTc_queued (h : Host) (k : ConnId) (mem : Bool) :
    Queued h.queue (delTc h k mem).2.queue k (delTc h k mem).1 [0x84, 1, UInt8.ofNat k.2] := by
  unfold delTc
  repeat' split
  any_goals exact queued_failed _ _ _
  exact queued_zero _ _ _

theorem sendData_queued (h : Host) (s conn : UInt8) (mem : Bool) (data : List UInt8) :
    Queued h.queue (sendData h s conn mem data).2.queue (s.toNat, conn.toNat) (sendData h s conn mem data).1
      (dataMessage ((asn1Encode ((data.length % 2 ^ 32 + 1) % 2 ^ 16) 3).getD []) conn (data.length % 2 ^ 32)
        (data.take (data.length % 2 ^ 32))) := by
  unfold sendData
  dsimp only
  cases hr : sendRefused h (s.toNat, conn.toNat) with
  | some h₁ =>
    dsimp only
    rw [sendRefused_queue hr]
    exact queued_failed _ _ _
  | none =>
    dsimp only
    split_ifs
    · exact queued_failed _ _ _
    · cases asn1Encode ((data.length % 2 ^ 32 + 1) % 2 ^ 16) 3 with
      | none => exact queued_failed _ _ _
      | some field => exact queued_zero _ _ _

theorem sendDatav_queued {s conn : UInt8} {mem : Bool} (hs : sendDatav h s conn mem iov = some (ret, h')) :
    Queued h.queue h'.queue (s.toNat, conn.toNat) ret
      (dataMessage ((asn1Encode ((iov.foldl (fun size piece => (size + piece.length) % 2 ^ 32) 0 + 1) % 2 ^ 16) 3).getD [])
        conn (iov.foldl (fun size piece => (size + piece.length) % 2 ^ 32) 0) iov.flatten) := by
  unfold sendDatav at hs
  dsimp only at hs
  cases hr : sendRefused h (s.toNat, conn.toNat) with
  | some h₁ =>
    rw [hr] at hs
    obtain ⟨rfl, rfl⟩ := Prod.mk.inj (Option.some.inj hs)
    rw [sendRefused_queue hr]
    exact queued_failed _ _ _
  | none =>
    rw [hr] at hs
    dsimp only at hs
    split at hs
    · obtain ⟨rfl, rfl⟩ := Prod.mk.inj (Option.some.inj hs)
      exact queued_failed _ _ _
    · split at hs
      · obtain ⟨rfl, rfl⟩ := Prod.mk.inj (Option.some.inj hs)
        exact queued_failed _ _ _
      next field hfield =>
        split at hs
        · cases hs
        · obtain ⟨rfl, rfl⟩ := Prod.mk.inj (Option.some.inj hs)
          rw [hfield]
          exact queued_zero _ _ _

theorem transmit_queue {j : ConnId} (hs : transmit link h j = some (ret, h')) : h'.queue =
    if (h.tl.conn j).state.sends = true ∧ (h.tl.conn j).txTime = 0 then Function.update h.queue j (h.queue j).tail
    else h.queue := by
  unfold transmit at hs
  by_cases hsends : (h.tl.conn j).state.sends = true
  · rw [if_pos hsends] at hs
    cases hq : h.queue j with
    | nil =>
      rw [hq] at hs
      obtain ⟨-, rfl⟩ := Prod.mk.inj (Option.some.inj hs)
      rw [List.tail_nil, ← hq, Function.update_eq_self, ite_self]
    | cons msg rest =>
      rw [hq] at hs
      dsimp only at hs
      by_cases htx : (h.tl.conn j).txTime = 0
      · rw [if_neg (not_not.mpr htx)] at hs
        rw [if_pos ⟨hsends, htx⟩, List.tail_cons]
        split at hs
        · obtain ⟨-, rfl⟩ := Prod.mk.inj (Option.some.inj hs)
          rfl
        · obtain ⟨tl, -, heq⟩ := Option.map_eq_some_iff.mp hs
          obtain ⟨-, rfl⟩ := Prod.mk.inj heq
          rfl
      · rw [if_pos htx] at hs
        obtain ⟨-, rfl⟩ := Prod.mk.inj (Option.some.inj hs)
        rw [if_neg fun hall => htx hall.2]
  · rw [if_neg hsends] at hs
    obtain ⟨-, rfl⟩ := Prod.mk.inj (Option.some.inj hs)
    rw [if_neg fun hall => hsends hall.1]

theorem checkTimeout_queue (h : Host) (k : ConnId) (late : Bool) : (checkTimeout h k late).2.queue = h.queue := by
  unfold checkTimeout
  split_ifs <;> rfl

open SendQueues

variable {f : ConnId → Fifo}

theorem Queued.waiting {k : ConnId} {ret : ℤ} {msg : List UInt8} (hq : Queued h.queue h'.queue k ret msg)
    (hf : ∀ k, (f k).waiting = h.queue k) (k' : ConnId) :
    ((queueOp k ret msg).foldl (Fifo.step k') (f k')).waiting = h'.queue k' := by
  unfold Queued at hq
  unfold queueOp
  split_ifs at hq ⊢
  · rw [hq]
    exact hf k'
  · rw [hq]
    by_cases hk : k' = k
    · rw [hk, Function.update_self, ← hf k]
      exact congrArg Fifo.waiting (if_pos rfl)
    · rw [Function.update_of_ne hk, ← hf k']
      exact congrArg Fifo.waiting (if_neg hk)

theorem destroySlot_waiting {s : ℕ} (hs : destroySlot h s = some h') (hf : ∀ k, (f k).waiting = h.queue k) (k : ConnId) :
    ((if h.maxSlots ≤ s then [] else [SendOp.destroySlot s h.tl.maxConnections]).foldl (Fifo.step k) (f k)).waiting
      = h'.queue k := by
  unfold destroySlot at hs
  split_ifs at hs ⊢
  · obtain rfl := Option.some.inj hs
    exact hf k
  · obtain rfl := Option.some.inj hs
    show (if k.1 = s ∧ k.2 < h.tl.maxConnections then (⟨[], []⟩ : Fifo) else f k).waiting =
      if k.1 = s ∧ k.2 < h.tl.maxConnections then [] else h.queue k
    split_ifs
    · rfl
    · exact hf k

theorem transmit_waiting {j : ConnId} (hs : transmit link h j = some (ret, h')) (hf : ∀ k, (f k).waiting = h.queue k)
    (ok : Bool) (k : ConnId) :
    ((f k).step k (.poll j (h.tl.conn j).state (h.tl.conn j).txTime ok)).waiting = h'.queue k := by
  rw [transmit_queue hs]
  dsimp only [Fifo.step]
  by_cases hpolled : (h.tl.conn j).state.sends = true ∧ (h.tl.conn j).txTime = 0
  · rw [if_pos hpolled]
    by_cases hk : k = j
    · rw [if_pos ⟨hk, hpolled⟩, hk, Function.update_self, Fifo.hand_waiting, hf j]
    · rw [if_neg fun hall => hk hall.1, Function.update_of_ne hk]
      exact hf k
  · rw [if_neg fun hall => hpolled hall.2, if_neg hpolled]
    exact hf k

/-- **A step** does to the queues what it asks for. -/
theorem Host.step_waiting (hs : h.step link op = some h') (hf : ∀ k, (f k).waiting = h.queue k) (k : ConnId) :
    ((h.sendOps link op).foldl (Fifo.step k) (f k)).waiting = h'.queue k := by
  cases op with
  | registerSlot caHndl slot =>
    obtain rfl := Option.some.inj hs
    unfold En50221.registerSlot
    split <;> exact hf k
  | destroySlot s => exact destroySlot_waiting hs hf k
  | newTc s mem =>
    obtain rfl := Option.some.inj hs
    exact (newTc_queued h s.toNat mem).waiting hf k
  | delTc s conn mem =>
    obtain rfl := Option.some.inj hs
    exact (delTc_queued h (s.toNat, conn.toNat) mem).waiting hf k
  | sendData s conn mem data =>
    obtain rfl := Option.some.inj hs
    exact (sendData_queued h s conn mem data).waiting hf k
  | sendDatav s conn mem iov =>
    obtain ⟨⟨ret, h₁⟩, hr, rfl⟩ := Option.map_eq_some_iff.mp hs
    dsimp only [Host.sendOps]
    rw [hr]
    exact (sendDatav_queued hr).waiting hf k
  | received s t =>
    simp only [Host.step] at hs
    split at hs
    · obtain ⟨r, -, rfl⟩ := Option.map_eq_some_iff.mp hs
      exact hf k
    · obtain rfl := Option.some.inj hs
      exact hf k
  | error slot err =>
    cases slot with
    | none =>
      obtain rfl := Option.some.inj hs
      exact hf k
    | some s =>
      obtain rfl := Option.some.inj hs
      exact hf k
  | transmit j =>
    simp only [Host.step, Host.sendOps] at hs ⊢
    split_ifs at hs ⊢
    · obtain ⟨⟨ret, h₁⟩, hr, rfl⟩ := Option.map_eq_some_iff.mp hs
      exact transmit_waiting hr hf _ k
    · obtain rfl := Option.some.inj hs
      exact hf k
  | askPoll j due =>
    simp only [Host.step] at hs
    split at hs
    · obtain rfl := Option.some.inj hs
      obtain heq | ⟨-, -, heq⟩ := askPoll_cases link h j due
      · rw [heq]
        exact hf k
      · rw [heq]
        exact hf k
    · obtain rfl := Option.some.inj hs
      exact hf k
  | timeout j late =>
    simp only [Host.step] at hs
    split at hs
    · obtain rfl := Option.some.inj hs
      rw [checkTimeout_queue h j late]
      exact hf k
    · obtain rfl := Option.some.inj hs
      exact hf k

theorem Host.run_waiting {hostOps : List HostOp} (hrun : hostOps.foldlM (Host.step link) h = some h')
    (hf : ∀ k, (f k).waiting = h.queue k) (k : ConnId) :
    ((h.sendOpsOf link hostOps).foldl (Fifo.step k) (f k)).waiting = h'.queue k := by
  induction hostOps generalizing h f with
  | nil =>
    obtain rfl := Option.some.inj hrun
    exact hf k
  | cons op hostOps ih =>
    rw [List.foldlM_cons] at hrun
    obtain ⟨h₁, hstep, hrest⟩ := Option.bind_eq_some_iff.mp hrun
    rw [Host.sendOpsOf, hstep, List.foldl_append]
    exact ih hrest (f := fun k => (h.sendOps link op).foldl (Fifo.step k) (f k)) fun k => Host.step_waiting hstep hf k

/-- **The queues of every run** of a transport layer are linked lists: what its steps ask of the queues makes lists that
hold the queued messages. -/
theorem SendQueues.mirrors_run {maxSlots maxConnections : UInt8} {callback : Bool} {hostOps : List HostOp}
    (hrun : hostOps.foldlM (Host.step link) (tlCreate maxSlots maxConnections callback) = some h') :
    ∃ q, SendQueues.run ((tlCreate maxSlots maxConnections callback).sendOpsOf link hostOps) = some q ∧
      ∀ k, contents q.heap (q.ends k) = h'.queue k := by
  obtain ⟨q, hq, hholds⟩ := run_holds create_holds ((tlCreate maxSlots maxConnections callback).sendOpsOf link hostOps)
  exact ⟨q, hq, fun k => (hholds.contents_eq k).trans (Host.run_waiting hrun (f := fun _ => ⟨[], []⟩) (fun _ => rfl) k)⟩

/-- A connection is opened, and a second one: the request of the first is sent. -/
theorem SendQueues.mirrors_run_newTc : ∃ h' q, [HostOp.registerSlot 5 0, .newTc 0 true, .newTc 0 true, .transmit (0, 1)].foldlM
      (Host.step ⟨fun _ => true, fun n => n + 1⟩) (tlCreate 1 3 true) = some h' ∧
    SendQueues.run [.queueMessage (0, 1) 0 [0x82, 1, 1], .queueMessage (0, 2) 0 [0x82, 1, 2],
      .poll (0, 1) .inCreation 0 true] = some q ∧
    contents q.heap (q.ends (0, 1)) = [] ∧ contents q.heap (q.ends (0, 2)) = [[0x82, 1, 2]] := by
  obtain ⟨q, hq, hcontents⟩ := @SendQueues.mirrors_run ⟨fun _ => true, fun n => n + 1⟩ _ 1 3 true
    [.registerSlot 5 0, .newTc 0 true, .newTc 0 true, .transmit (0, 1)] rfl
  exact ⟨_, q, rfl, hq, hcontents (0, 1), hcontents (0, 2)⟩

end Host

end BgtDvb.En50221
