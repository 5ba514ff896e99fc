import BgtDvb.En50221Transport

/-!
# The sending side of the EN50221 transport layer

`en50221_transport.c`: the application registers slots, opens and closes connections and queues data on
them; `en50221_tl_poll` reads what the modules sent, sends one queued message per connection when no answer
is awaited, asks an active connection for data when its time has come, and looks for answers that are late.

* `poll_steps` — **PROVED**: every run of `poll` is a run of such steps.
-/

namespace BgtDvb.En50221

/-! ### The state -/

/-- `struct en50221_slot`: `ca_hndl`, -1 while the slot is unused, and the number of the CAM. -/
structure Slot where
  caHndl : ℤ
  slot : UInt8
  deriving Repr, DecidableEq

/-- `struct en50221_transport_layer` as a whole; a queued message is its bytes, `length` of them. -/
structure Host where
  tl : Tl
  maxSlots : ℕ
  slots : ℕ → Slot
  queue : ConnId → List (List UInt8)

def caRead : ℤ := -1

def timedOutError : ℤ := -3

def badSlotId : ℤ := -4

def badState : ℤ := -6

def asnEncodeError : ℤ := -9

def outOfConnections : ℤ := -10

def outOfSlots : ℤ := -11

/-- Only `error` is set. -/
def Host.setError (h : Host) (err : ℤ) : Host := { h with tl := { h.tl with error := err } }

/-- `error_slot` and `error` are set. -/
def Host.fail (h : Host) (slot : ℕ) (err : ℤ) : Host := { h with tl := (h.tl.fail slot err).2 }

def Host.setQueue (h : Host) (k : ConnId) (msgs : List (List UInt8)) : Host :=
  { h with queue := Function.update h.queue k msgs }

def queueMessage (h : Host) (k : ConnId) (msg : List UInt8) : Host := h.setQueue k (h.queue k ++ [msg])

/-! ### Slots -/

def freshConnection : Connection := ⟨.idle, 0, .null, 0⟩

/-- `en50221_tl_create`. -/
def tlCreate (maxSlots maxConnections : UInt8) (callback : Bool) : Host where
  tl := ⟨maxConnections.toNat, fun _ => freshConnection, callback, 0, 0, [], []⟩
  maxSlots := maxSlots.toNat
  slots := fun _ => ⟨-1, 0⟩
  queue := fun _ => []

/-- The first unused slot is taken; its connections are not looked at. -/
def registerSlot (h : Host) (caHndl : ℤ) (slot : UInt8) : ℤ × Host :=
  match (List.range h.maxSlots).find? fun i => (h.slots i).caHndl = -1 with
  | none => (-1, h.setError outOfSlots)
  | some i => (i, { h with slots := Function.update h.slots i ⟨caHndl, slot⟩ })

/-- The connections of a slot as `en50221_tl_destroy_slot` leaves them. -/
def Host.clearSlot (h : Host) (s : ℕ) : Host where
  tl := { h.tl with
    conn := fun k => if k.1 = s ∧ k.2 < h.tl.maxConnections then freshConnection else h.tl.conn k }
  maxSlots := h.maxSlots
  slots := Function.update h.slots s { h.slots s with caHndl := -1 }
  queue := fun k => if k.1 = s ∧ k.2 < h.tl.maxConnections then [] else h.queue k

/-- `none` if a chain buffer that was freed before is freed again. -/
def destroySlot (h : Host) (s : ℕ) : Option Host :=
  if h.maxSlots ≤ s then some h
  else if (List.range h.tl.maxConnections).any fun j => (h.tl.conn (s, j)).chain = .dangling then none
  else
    let h := h.clearSlot s
    some { h with tl := h.tl.call .slotClose [] (s, 0) }

/-! ### Sending data -/

/-- The checks of `en50221_tl_send_data` and `en50221_tl_send_datav`: the state with the error, if one
of them fails. -/
def sendRefused (h : Host) (k : ConnId) : Option Host :=
  if h.maxSlots ≤ k.1 then some (h.setError badSlotId)
  else if (h.slots k.1).caHndl = -1 then some (h.setError badSlotId)
  else if h.tl.maxConnections ≤ k.2 then some (h.fail k.1 badConnectionId)
  else if (h.tl.conn k).state ≠ .active then some (h.setError badConnectionId)
  else none

/-- The message made of a length field and the payload; `length` is a `uint32_t`. -/
def dataMessage (field : List UInt8) (conn : UInt8) (dataSize : ℕ) (payload : List UInt8) : List UInt8 :=
  (tDataLast :: (field ++ conn :: payload)).take ((1 + field.length + 1 + dataSize) % 2 ^ 32)

/-- `mem`: whether `malloc` succeeds.  `data_size` is a `uint32_t`, `asn_1_encode` takes a `uint16_t`. -/
def sendData (h : Host) (slot conn : UInt8) (mem : Bool) (data : List UInt8) : ℤ × Host :=
  let k : ConnId := (slot.toNat, conn.toNat)
  match sendRefused h k with
  | some h => (-1, h)
  | none =>
    if !mem then (-1, h.fail k.1 outOfMemory)
    else
      let dataSize := data.length % 2 ^ 32
      match asn1Encode ((dataSize + 1) % 2 ^ 16) 3 with
      | none => (-1, h.fail k.1 asnEncodeError)
      | some field =>
        (0, queueMessage h k (dataMessage field conn dataSize (data.take dataSize)))

/-- `data_size` is the sum of the lengths as a `uint32_t`, and the pieces are copied whole into a block of
`data_size + 10` bytes; `none` if they do not fit. -/
def sendDatav (h : Host) (slot conn : UInt8) (mem : Bool) (iov : List (List UInt8)) : Option (ℤ × Host) :=
  let k : ConnId := (slot.toNat, conn.toNat)
  match sendRefused h k with
  | some h => some (-1, h)
  | none =>
    let dataSize := iov.foldl (fun size piece => (size + piece.length) % 2 ^ 32) 0
    if !mem then some (-1, h.fail k.1 outOfMemory)
    else
      match asn1Encode ((dataSize + 1) % 2 ^ 16) 3 with
      | none => some (-1, h.fail k.1 asnEncodeError)
      | some field =>
        if dataSize + 10 < 1 + field.length + 1 + iov.flatten.length then none
        else some (0, queueMessage h k (dataMessage field conn dataSize iov.flatten))

/-! ### Opening and closing connections -/

def newTc (h : Host) (s : ℕ) (mem : Bool) : ℤ × Host :=
  if h.maxSlots ≤ s then (-1, h.setError badSlotId)
  else if (h.slots s).caHndl = -1 then (-1, h.setError badSlotId)
  else
    match allocNewTc h.tl s with
    | none => (-1, h.fail s outOfConnections)
    | some (conid, tl) =>
      let h := { h with tl := tl }
      if !mem then (-1, h.fail s outOfMemory)
      else (conid, queueMessage h (s, conid) [0x82, 1, UInt8.ofNat conid])

def delTc (h : Host) (k : ConnId) (mem : Bool) : ℤ × Host :=
  if h.maxSlots ≤ k.1 then (-1, h.setError badSlotId)
  else if (h.slots k.1).caHndl = -1 then (-1, h.setError badSlotId)
  else if h.tl.maxConnections ≤ k.2 then (-1, h.fail k.1 badConnectionId)
  else if ¬ ((h.tl.conn k).state = .active ∨ (h.tl.conn k).state = .inDeletion) then
    (-1, h.fail k.1 badState)
  else if !mem then (-1, h.fail k.1 outOfMemory)
  else
    let h := queueMessage h k [0x84, 1, UInt8.ofNat k.2]
    (0, { h with tl := h.tl.setState k .activeDeletequeued })

/-! ### Polling a connection -/

/-- `dvbca_link_write` takes the length as a `uint16_t`. -/
def linkBytes (msg : List UInt8) : List UInt8 := msg.take (msg.length % 2 ^ 16)

/-- After a message was written: the time of it, and for T_DELETE_T_C the state and the chain buffer. -/
def sentMessage (link : Link) (tl : Tl) (k : ConnId) (msg : List UInt8) : Option Tl :=
  let tl := tl.setTxTime k (link.now tl.sent.length)
  if msg.head? = some 0x84 then
    if (tl.conn k).chain = .dangling then none
    else some (tl.setConn k { tl.conn k with state := .inDeletion, chain := .null, bufferLength := 0 })
  else some tl

def TcState.sends : TcState → Bool
  | .inCreation | .active | .activeDeletequeued => true
  | .idle | .inDeletion => false

/-- The first queued message is sent if no answer is awaited; it leaves the queue even if the write fails. -/
def transmit (link : Link) (h : Host) (k : ConnId) : Option (ℤ × Host) :=
  if (h.tl.conn k).state.sends then
    match h.queue k with
    | [] => some (0, h)
    | msg :: rest =>
      if (h.tl.conn k).txTime ≠ 0 then some (0, h)
      else
        let h := h.setQueue k rest
        let r := h.tl.write link k (linkBytes msg)
        if !r.1 then some (-1, { h with tl := (r.2.fail k.1 caWrite).2 })
        else (sentMessage link r.2 k msg).map fun tl => (0, { h with tl := tl })
  else some (0, h)

/-- `en50221_tl_poll_tc`. -/
def pollTc (link : Link) (tl : Tl) (k : ConnId) : ℤ × Tl :=
  let r := (tl.setTxTime k (link.now tl.sent.length)).write link k [0xA0, 1, UInt8.ofNat k.2]
  if !r.1 then r.2.fail k.1 caWrite else (0, r.2)

/-- `due`: whether the poll time has elapsed. -/
def askPoll (link : Link) (h : Host) (k : ConnId) (due : Bool) : ℤ × Host :=
  if (h.tl.conn k).state = .active ∧ (h.tl.conn k).txTime = 0 ∧ due then
    ((pollTc link h.tl k).1, { h with tl := (pollTc link h.tl k).2 })
  else (0, h)

/-- `late`: whether the response timeout has run out since `tx_time`. -/
def checkTimeout (h : Host) (k : ConnId) (late : Bool) : ℤ × Host :=
  if (h.tl.conn k).txTime ≠ 0 ∧ late then
    if (h.tl.conn k).state = .inCreation ∨ (h.tl.conn k).state = .inDeletion then
      (0, { h with tl := h.tl.setState k .idle })
    else if (h.tl.conn k).state = .active ∨ (h.tl.conn k).state = .activeDeletequeued then
      (-1, h.fail k.1 timedOutError)
    else (0, h)
  else (0, h)

/-- What the clock says about a connection in one round. -/
structure Clock where
  due : Bool
  late : Bool
  deriving Repr, DecidableEq

def service (link : Link) (h : Host) (k : ConnId) (clock : Clock) : Option (ℤ × Host) :=
  if (h.tl.conn k).state = .idle then some (0, h)
  else
    match transmit link h k with
    | none => none
    | some (ret, h) =>
      if ret < 0 then some (-1, h)
      else
        let r := askPoll link h k clock.due
        if r.1 < 0 then some (-1, r.2) else some (checkTimeout r.2 k clock.late)

/-! ### Polling -/

/-- What there is to read in a slot: nothing, a failed read, an error event, or the number of a CAM and
what it sent. -/
inductive SlotRead where
  | nothing
  | failed
  | pollErr
  | data (rSlot : UInt8) (bytes : List UInt8)
  deriving Repr, DecidableEq

/-- The slot whose CAM has the number, on the handle of slot `s`. -/
def route (h : Host) (s : ℕ) (rSlot : UInt8) : Option ℕ :=
  if (h.slots s).slot ≠ rSlot then
    (List.range h.maxSlots).find? fun i =>
      (h.slots i).caHndl = (h.slots s).caHndl ∧ (h.slots i).slot = rSlot
  else some s

/-- The read in a slot; at most 4096 bytes of a message are read. -/
def pollRead (link : Link) (h : Host) (s : ℕ) : SlotRead → Option (ℤ × Host)
  | .nothing => some (0, h)
  | .failed | .pollErr => some (-1, h.fail s caRead)
  | .data rSlot bytes =>
    if bytes = [] then some (0, h)
    else
      match route h s rSlot with
      | none => some (-1, h.setError badSlotId)
      | some s' =>
        (processData link s' h.tl (bytes.take 4096)).map fun r => (r.1, { h with tl := r.2 })

def serviceAll (link : Link) (clock : ConnId → Clock) (s : ℕ) : List ℕ → Host → Option (ℤ × Host)
  | [], h => some (0, h)
  | j :: js, h =>
    match service link h (s, j) (clock (s, j)) with
    | none => none
    | some (ret, h) => if ret < 0 then some (-1, h) else serviceAll link clock s js h

def pollSlot (link : Link) (clock : ConnId → Clock) (h : Host) (s : ℕ) (rd : SlotRead) :
    Option (ℤ × Host) :=
  if (h.slots s).caHndl = -1 then some (0, h)
  else
    match pollRead link h s rd with
    | none => none
    | some (ret, h) =>
      if ret < 0 then some (-1, h) else serviceAll link clock s (List.range h.tl.maxConnections) h

def pollSlots (link : Link) (clock : ConnId → Clock) (rd : ℕ → SlotRead) :
    List ℕ → Host → Option (ℤ × Host)
  | [], h => some (0, h)
  | s :: ss, h =>
    match pollSlot link clock h s (rd s) with
    | none => none
    | some (ret, h) => if ret < 0 then some (-1, h) else pollSlots link clock rd ss h

/-- `en50221_tl_poll`, after the system call has returned. -/
def poll (link : Link) (clock : ConnId → Clock) (rd : ℕ → SlotRead) (h : Host) : Option (ℤ × Host) :=
  pollSlots link clock rd (List.range h.maxSlots) h

/-! ### Single steps -/

/-- A call of the application, or one thing that `en50221_tl_poll` does. -/
inductive HostOp where
  | registerSlot (caHndl : ℤ) (slot : UInt8)
  | destroySlot (s : UInt8)
  | newTc (s : UInt8) (mem : Bool)
  | delTc (s conn : UInt8) (mem : Bool)
  | sendData (s conn : UInt8) (mem : Bool) (data : List UInt8)
  | sendDatav (s conn : UInt8) (mem : Bool) (iov : List (List UInt8))
  | received (s : ℕ) (t : Tpdu)
  | error (slot : Option ℕ) (err : ℤ)
  | transmit (k : ConnId)
  | askPoll (k : ConnId) (due : Bool)
  | timeout (k : ConnId) (late : Bool)
  deriving Repr, DecidableEq

/-- A slot that `en50221_tl_poll` does not skip. -/
def Host.inUse (h : Host) (s : ℕ) : Bool := decide ((h.slots s).caHndl ≠ -1)

/-- A connection that the loop of `en50221_tl_poll` comes to. -/
def Host.polled (h : Host) (k : ConnId) : Bool := h.inUse k.1 && decide (k.2 < h.tl.maxConnections)

/-- Steps of `en50221_tl_poll` at slots and connections it does not come to change nothing. -/
def Host.step (link : Link) (h : Host) : HostOp → Option Host
  | .registerSlot caHndl slot => some (En50221.registerSlot h caHndl slot).2
  | .destroySlot s => En50221.destroySlot h s.toNat
  | .newTc s mem => some (En50221.newTc h s.toNat mem).2
  | .delTc s conn mem => some (En50221.delTc h (s.toNat, conn.toNat) mem).2
  | .sendData s conn mem data => some (En50221.sendData h s conn mem data).2
  | .sendDatav s conn mem iov => (En50221.sendDatav h s conn mem iov).map Prod.snd
  | .received s t =>
    if h.inUse s then (dispatch link s h.tl t).map fun r => { h with tl := r.2 } else some h
  | .error (some s) err => some (h.fail s err)
  | .error none err => some (h.setError err)
  | .transmit k => if h.polled k then (En50221.transmit link h k).map Prod.snd else some h
  | .askPoll k due => if h.polled k then some (En50221.askPoll link h k due).2 else some h
  | .timeout k late => if h.polled k then some (checkTimeout h k late).2 else some h

/-! ### Polls are runs of single steps -/

def Host.SameSlots (h h' : Host) : Prop :=
  h'.slots = h.slots ∧ h'.maxSlots = h.maxSlots ∧ h'.tl.maxConnections = h.tl.maxConnections

theorem Host.SameSlots.refl (h : Host) : h.SameSlots h := ⟨rfl, rfl, rfl⟩

variable {h h' h'' : Host} {k : ConnId} {link : Link} {ret : ℤ} {s : ℕ} {clock : ConnId → Clock} {rd : ℕ → SlotRead}

theorem Host.SameSlots.trans (h₁ : h.SameSlots h') (h₂ : h'.SameSlots h'') : h.SameSlots h'' :=
  ⟨h₂.1.trans h₁.1, h₂.2.1.trans h₁.2.1, h₂.2.2.trans h₁.2.2⟩

theorem Host.SameSlots.inUse (hs : h.SameSlots h') (s : ℕ) : h'.inUse s = h.inUse s := by
  unfold Host.inUse
  rw [hs.1]

theorem Host.SameSlots.polled (hs : h.SameSlots h') (k : ConnId) : h'.polled k = h.polled k := by
  unfold Host.polled
  rw [hs.inUse, hs.2.2]

theorem sentMessage_maxConnections {tl tl' : Tl} {msg : List UInt8} (h : sentMessage link tl k msg = some tl') :
    tl'.maxConnections = tl.maxConnections := by
  unfold sentMessage at h
  dsimp only at h
  split at h
  · split at h
    · exact absurd h (by simp)
    · obtain rfl := Option.some.inj h
      rfl
  · obtain rfl := Option.some.inj h
    rfl

/-- Everything `transmit` can do: nothing, or the first message leaves the queue and is written; the
write fails, or it succeeds and the connection is brought up to date. -/
theorem transmit_cases (ht : transmit link h k = some (ret, h')) :
    h' = h ∨
    ∃ msg rest, (h.tl.conn k).state.sends ∧ h.queue k = msg :: rest ∧ (h.tl.conn k).txTime = 0 ∧
      ((link.ok h.tl.sent.length = false ∧
          h' = { h.setQueue k rest with
            tl := ((h.tl.write link k (linkBytes msg)).2.fail k.1 caWrite).2 }) ∨
        ∃ tl, link.ok h.tl.sent.length = true ∧
          sentMessage link (h.tl.write link k (linkBytes msg)).2 k msg = some tl ∧
          h' = { h.setQueue k rest with tl := tl }) := by
  unfold transmit at ht
  by_cases hsends : (h.tl.conn k).state.sends
  · rw [if_pos hsends] at ht
    cases hq : h.queue k with
    | nil =>
      rw [hq] at ht
      obtain ⟨-, rfl⟩ := Prod.mk.inj (Option.some.inj ht)
      exact .inl rfl
    | cons msg rest =>
      rw [hq] at ht
      dsimp only at ht
      by_cases htx : (h.tl.conn k).txTime = 0
      · rw [if_neg (not_not_intro htx)] at ht
        refine .inr ⟨msg, rest, hsends, rfl, htx, ?_⟩
        cases hok : link.ok h.tl.sent.length with
        | false =>
          rw [if_pos (by show (!link.ok h.tl.sent.length) = true; rw [hok]; rfl)] at ht
          obtain ⟨-, rfl⟩ := Prod.mk.inj (Option.some.inj ht)
          exact .inl ⟨rfl, rfl⟩
        | true =>
          rw [if_neg (by show ¬ (!link.ok h.tl.sent.length) = true; rw [hok]; decide)] at ht
          obtain ⟨tl, htl, heq⟩ := Option.map_eq_some_iff.mp ht
          obtain ⟨-, rfl⟩ := Prod.mk.inj heq
          exact .inr ⟨tl, rfl, htl, rfl⟩
      · rw [if_pos htx] at ht
        obtain ⟨-, rfl⟩ := Prod.mk.inj (Option.some.inj ht)
        exact .inl rfl
  · rw [if_neg hsends] at ht
    obtain ⟨-, rfl⟩ := Prod.mk.inj (Option.some.inj ht)
    exact .inl rfl

theorem transmit_sameSlots (ht : transmit link h k = some (ret, h')) : h.SameSlots h' := by
  obtain rfl | ⟨msg, rest, -, -, -, ⟨-, rfl⟩ | ⟨tl, -, htl, rfl⟩⟩ := transmit_cases ht
  · exact .refl h'
  · exact ⟨rfl, rfl, rfl⟩
  · have hmax : tl.maxConnections = (h.tl.write link k (linkBytes msg)).2.maxConnections :=
      sentMessage_maxConnections htl
    exact ⟨rfl, rfl, hmax⟩

/-- Everything `askPoll` can do: nothing, or a poll is written on an active connection. -/
theorem askPoll_cases (link : Link) (h : Host) (k : ConnId) (due : Bool) :
    (askPoll link h k due).2 = h ∨
      ((h.tl.conn k).state = .active ∧ (h.tl.conn k).txTime = 0 ∧
        (askPoll link h k due).2 = { h with tl := (pollTc link h.tl k).2 }) := by
  unfold askPoll
  by_cases hc : (h.tl.conn k).state = .active ∧ (h.tl.conn k).txTime = 0 ∧ due
  · rw [if_pos hc]
    exact .inr ⟨hc.1, hc.2.1, rfl⟩
  · rw [if_neg hc]
    exact .inl rfl

theorem askPoll_sameSlots (link : Link) (h : Host) (k : ConnId) (due : Bool) :
    h.SameSlots (askPoll link h k due).2 := by
  obtain heq | ⟨-, -, heq⟩ := askPoll_cases link h k due
  · rw [heq]
    exact .refl h
  · rw [heq]
    refine ⟨rfl, rfl, ?_⟩
    show (pollTc link h.tl k).2.maxConnections = h.tl.maxConnections
    unfold pollTc
    dsimp only
    split
    · rfl
    · rfl

/-- `h'` is reached from `h` by single steps. -/
def Steps (link : Link) (h h' : Host) : Prop :=
  ∃ ops : List HostOp, ops.foldlM (Host.step link) h = some h'

theorem Steps.refl (link : Link) (h : Host) : Steps link h h := ⟨[], rfl⟩

theorem Steps.single (op : HostOp) (hs : h.step link op = some h') : Steps link h h' := by
  refine ⟨[op], ?_⟩
  rw [List.foldlM_cons, hs]
  rfl

theorem Steps.trans (h₁ : Steps link h h') (h₂ : Steps link h' h'') : Steps link h h'' := by
  obtain ⟨ops, hops⟩ := h₁
  obtain ⟨ops', hops'⟩ := h₂
  refine ⟨ops ++ ops', ?_⟩
  rw [List.foldlM_append, hops]
  exact hops'

theorem processLoop_steps (huse : h.inUse s) :
    ∀ (n : ℕ) (tl tl' : Tl) (data : List UInt8) (ret : ℤ),
      processLoop link s n tl data = some (ret, tl') →
        Steps link { h with tl := tl } { h with tl := tl' } := by
  intro n
  induction n with
  | zero =>
    intro tl tl' data ret hp
    cases data with
    | nil =>
      obtain ⟨-, rfl⟩ := Prod.mk.inj (Option.some.inj hp)
      exact .refl link _
    | cons b bs => exact absurd hp (by simp [processLoop])
  | succ n ih =>
    intro tl tl' data ret hp
    cases data with
    | nil =>
      obtain ⟨-, rfl⟩ := Prod.mk.inj (Option.some.inj hp)
      exact .refl link _
    | cons b bs =>
      rw [processLoop] at hp
      cases hparse : parseTpdu (b :: bs) with
      | none =>
        rw [hparse] at hp
        obtain ⟨-, rfl⟩ := Prod.mk.inj (Option.some.inj hp)
        exact .single (.error (some s) badCamData) rfl
      | some p =>
        obtain ⟨t, rest⟩ := p
        rw [hparse] at hp
        dsimp only at hp
        cases hdisp : dispatch link s tl t with
        | none =>
          rw [hdisp] at hp
          exact absurd hp (by simp)
        | some r =>
          obtain ⟨r, tl₁⟩ := r
          rw [hdisp] at hp
          have hone : Steps link { h with tl := tl } { h with tl := tl₁ } := by
            refine .single (.received s t) ?_
            have huse' : ({ h with tl := tl } : Host).inUse s = true := huse
            simp only [Host.step, huse', if_true, hdisp, Option.map_some]
          dsimp only at hp
          split at hp
          · obtain ⟨-, rfl⟩ := Prod.mk.inj (Option.some.inj hp)
            exact hone
          · exact hone.trans (ih tl₁ tl' rest ret hp)

theorem service_steps {clock : Clock} (hk : h.polled k) (hs : service link h k clock = some (ret, h')) :
    Steps link h h' ∧ h.SameSlots h' := by
  unfold service at hs
  split at hs
  · obtain ⟨-, rfl⟩ := Prod.mk.inj (Option.some.inj hs)
    exact ⟨.refl link _, .refl _⟩
  · cases ht : transmit link h k with
    | none =>
      rw [ht] at hs
      exact absurd hs (by simp)
    | some r =>
      obtain ⟨r, h₁⟩ := r
      rw [ht] at hs
      dsimp only at hs
      have hsame₁ : h.SameSlots h₁ := transmit_sameSlots ht
      have hstep₁ : Steps link h h₁ := by
        refine .single (.transmit k) ?_
        simp only [Host.step, hk, if_true, ht, Option.map_some]
      split at hs
      · obtain ⟨-, rfl⟩ := Prod.mk.inj (Option.some.inj hs)
        exact ⟨hstep₁, hsame₁⟩
      · have hsame₂ := hsame₁.trans (askPoll_sameSlots link h₁ k clock.due)
        have hstep₂ : Steps link h (askPoll link h₁ k clock.due).2 := by
          refine hstep₁.trans (.single (.askPoll k clock.due) ?_)
          simp only [Host.step, (hsame₁.polled k).trans hk, if_true]
        split at hs
        · obtain ⟨-, rfl⟩ := Prod.mk.inj (Option.some.inj hs)
          exact ⟨hstep₂, hsame₂⟩
        · have heq := Option.some.inj hs
          have hh' : h' = (checkTimeout (askPoll link h₁ k clock.due).2 k clock.late).2 := by rw [heq]
          rw [hh']
          constructor
          · refine hstep₂.trans (.single (.timeout k clock.late) ?_)
            simp only [Host.step, (hsame₂.polled k).trans hk, if_true]
          · refine hsame₂.trans ?_
            unfold checkTimeout
            split_ifs
            · exact ⟨rfl, rfl, rfl⟩
            · exact ⟨rfl, rfl, rfl⟩
            · exact .refl _
            · exact .refl _

theorem serviceAll_steps :
    ∀ (js : List ℕ) (h h' : Host) (ret : ℤ), (∀ j ∈ js, h.polled (s, j)) →
      serviceAll link clock s js h = some (ret, h') → Steps link h h' ∧ h.SameSlots h' := by
  intro js
  induction js with
  | nil =>
    intro h h' ret _ hs
    obtain ⟨-, rfl⟩ := Prod.mk.inj (Option.some.inj hs)
    exact ⟨.refl link _, .refl _⟩
  | cons j js ih =>
    intro h h' ret hpolled hs
    rw [serviceAll] at hs
    cases hone : service link h (s, j) (clock (s, j)) with
    | none =>
      rw [hone] at hs
      exact absurd hs (by simp)
    | some r =>
      obtain ⟨r, h₁⟩ := r
      rw [hone] at hs
      dsimp only at hs
      obtain ⟨hsteps, hsame⟩ := service_steps (hpolled j List.mem_cons_self) hone
      split at hs
      · obtain ⟨-, rfl⟩ := Prod.mk.inj (Option.some.inj hs)
        exact ⟨hsteps, hsame⟩
      · have hpolled₁ : ∀ i ∈ js, h₁.polled (s, i) := by
          intro i hi
          rw [hsame.polled]
          exact hpolled i (List.mem_cons_of_mem j hi)
        obtain ⟨hrest, hsame'⟩ := ih h₁ h' ret hpolled₁ hs
        exact ⟨hsteps.trans hrest, hsame.trans hsame'⟩

theorem inUse_of_route {s' : ℕ} {rSlot : UInt8} (huse : h.inUse s) (hr : route h s rSlot = some s') : h.inUse s' := by
  unfold route at hr
  split at hr
  · have hfound := List.find?_some hr
    have hboth : (h.slots s').caHndl = (h.slots s).caHndl ∧ (h.slots s').slot = rSlot :=
      of_decide_eq_true hfound
    unfold Host.inUse
    rw [hboth.1]
    exact huse
  · obtain rfl := Option.some.inj hr
    exact huse

def Host.SameRegistered (h h' : Host) : Prop := h'.slots = h.slots ∧ h'.maxSlots = h.maxSlots

theorem Host.SameRegistered.trans (h₁ : h.SameRegistered h') (h₂ : h'.SameRegistered h'') : h.SameRegistered h'' :=
  ⟨h₂.1.trans h₁.1, h₂.2.trans h₁.2⟩

theorem pollRead_steps {rd : SlotRead} (huse : h.inUse s) (hr : pollRead link h s rd = some (ret, h')) :
    Steps link h h' ∧ h.SameRegistered h' := by
  cases rd with
  | nothing =>
    obtain ⟨-, rfl⟩ := Prod.mk.inj (Option.some.inj hr)
    exact ⟨.refl link _, rfl, rfl⟩
  | failed =>
    obtain ⟨-, rfl⟩ := Prod.mk.inj (Option.some.inj hr)
    exact ⟨.single (.error (some s) caRead) rfl, rfl, rfl⟩
  | pollErr =>
    obtain ⟨-, rfl⟩ := Prod.mk.inj (Option.some.inj hr)
    exact ⟨.single (.error (some s) caRead) rfl, rfl, rfl⟩
  | data rSlot bytes =>
    rw [pollRead] at hr
    split at hr
    · obtain ⟨-, rfl⟩ := Prod.mk.inj (Option.some.inj hr)
      exact ⟨.refl link _, rfl, rfl⟩
    · cases hroute : route h s rSlot with
      | none =>
        rw [hroute] at hr
        obtain ⟨-, rfl⟩ := Prod.mk.inj (Option.some.inj hr)
        exact ⟨.single (.error none badSlotId) rfl, rfl, rfl⟩
      | some s' =>
        rw [hroute] at hr
        obtain ⟨r, hp, heq⟩ := Option.map_eq_some_iff.mp hr
        obtain ⟨-, rfl⟩ := Prod.mk.inj heq
        exact ⟨processLoop_steps (inUse_of_route huse hroute) _ h.tl r.2 _ r.1 hp, rfl, rfl⟩

theorem pollSlot_steps {rd : SlotRead} (hp : pollSlot link clock h s rd = some (ret, h')) :
    Steps link h h' ∧ h.SameRegistered h' := by
  unfold pollSlot at hp
  split at hp
  · obtain ⟨-, rfl⟩ := Prod.mk.inj (Option.some.inj hp)
    exact ⟨.refl link _, rfl, rfl⟩
  · rename_i huse
    have huse : h.inUse s := decide_eq_true huse
    cases hread : pollRead link h s rd with
    | none =>
      rw [hread] at hp
      exact absurd hp (by simp)
    | some r =>
      obtain ⟨r, h₁⟩ := r
      rw [hread] at hp
      dsimp only at hp
      obtain ⟨hsteps, hslots⟩ := pollRead_steps huse hread
      split at hp
      · obtain ⟨-, rfl⟩ := Prod.mk.inj (Option.some.inj hp)
        exact ⟨hsteps, hslots⟩
      · have hpolled : ∀ j ∈ List.range h₁.tl.maxConnections, h₁.polled (s, j) := by
          intro j hj
          have huse₁ : h₁.inUse s = h.inUse s := by
            unfold Host.inUse
            rw [hslots.1]
          show (h₁.inUse s && decide (j < h₁.tl.maxConnections)) = true
          rw [huse₁, huse, decide_eq_true (List.mem_range.mp hj)]
          rfl
        obtain ⟨hrest, hsame⟩ := serviceAll_steps _ h₁ h' ret hpolled hp
        exact ⟨hsteps.trans hrest, hslots.trans ⟨hsame.1, hsame.2.1⟩⟩

theorem pollSlots_steps :
    ∀ (ss : List ℕ) (h : Host), pollSlots link clock rd ss h = some (ret, h') →
      Steps link h h' ∧ h.SameRegistered h' := by
  intro ss
  induction ss with
  | nil =>
    intro h hp
    obtain ⟨-, rfl⟩ := Prod.mk.inj (Option.some.inj hp)
    exact ⟨.refl link _, rfl, rfl⟩
  | cons s ss ih =>
    intro h hp
    rw [pollSlots] at hp
    cases hone : pollSlot link clock h s (rd s) with
    | none =>
      rw [hone] at hp
      exact absurd hp (by simp)
    | some r =>
      obtain ⟨r, h₁⟩ := r
      rw [hone] at hp
      dsimp only at hp
      obtain ⟨hsteps, hslots⟩ := pollSlot_steps hone
      split at hp
      · obtain ⟨-, rfl⟩ := Prod.mk.inj (Option.some.inj hp)
        exact ⟨hsteps, hslots⟩
      · obtain ⟨hrest, hslots'⟩ := ih h₁ hp
        exact ⟨hsteps.trans hrest, hslots.trans hslots'⟩

/-- **Every poll is a run of single steps**, whatever the modules sent and the clock says. -/
theorem poll_steps (hp : poll link clock rd h = some (ret, h')) : Steps link h h' :=
  (pollSlots_steps _ h hp).1

theorem poll_sameRegistered (hp : poll link clock rd h = some (ret, h')) : h.SameRegistered h' :=
  (pollSlots_steps _ h hp).2

end BgtDvb.En50221
