import BgtDvb.En50221Stdcam
import BgtDvb.En50221SessionOpen

/-!
# The session numbers of a standard CAM

`en50221_stdcam_llci.c` gives out five resources.  For four of them one session is allowed at a time, and
the object keeps its number: `llci_lookup_callback` refuses a second one, `llci_session_callback` stores
and clears the number.

* `camPoll_delivers` — **PROVED**: its poll is that of the object above the transport layer, with the
  calls that the transport layer makes;
* `sessionTable_of_exactVersion` — **PROVED**: it is, in every run in which a limited resource that has a
  session is requested in the supported version only.

The limit is decided on the id that is requested, the bookkeeping on the id that is connected: a request
with another version passes the limit.
-/

namespace BgtDvb.En50221

open BgtDvb.GuardedRun

/-! ### The resources -/

/-- `MKRID`. -/
def mkrid (cls type version : UInt32) : UInt32 :=
  ((cls &&& 0xffff) <<< 16) ||| ((type &&& 0x3ff) <<< 6) ||| (version &&& 0x3f)

/-- The resources with one session at a time. -/
inductive Limited where
  | datetime | ai | ca | mmi
  deriving Repr, DecidableEq

/-- `EN50221_APP_*_RESOURCEID`. -/
def Limited.id : Limited → UInt32
  | .datetime => mkrid 36 1 1
  | .ai => mkrid 2 1 1
  | .ca => mkrid 3 1 1
  | .mmi => mkrid 64 1 1

def rmResourceId : UInt32 := mkrid 1 1 1

def Limited.ofId (id : UInt32) : Option Limited :=
  if id = Limited.datetime.id then some .datetime
  else if id = Limited.ai.id then some .ai
  else if id = Limited.ca.id then some .ca
  else if id = Limited.mmi.id then some .mmi
  else none

def Numbers.get (n : Numbers) : Limited → ℤ
  | .datetime => n.datetime
  | .ai => n.ai
  | .ca => n.ca
  | .mmi => n.mmi

def Numbers.set (n : Numbers) (l : Limited) (v : ℤ) : Numbers :=
  match l with
  | .datetime => { n with datetime := v }
  | .ai => { n with ai := v }
  | .ca => { n with ca := v }
  | .mmi => { n with mmi := v }

/-- `struct en50221_app_public_resource_id`. -/
structure PublicResourceId where
  resourceClass : UInt32
  resourceType : UInt32
  resourceVersion : UInt32
  deriving Repr, DecidableEq

/-- `en50221_app_decode_public_resource_id`. -/
def decodePublicResourceId (id : UInt32) : Option PublicResourceId :=
  if id &&& 0xc0000000 = 0xc0000000 then none
  else some ⟨(id >>> 16) &&& 0xffff, (id >>> 6) &&& 0x3ff, id &&& 0x3f⟩

/-- The table `resources`: the number of the message callback, and the id. -/
def resources : List (ℕ × UInt32) :=
  [(0, rmResourceId), (1, Limited.datetime.id), (2, Limited.ai.id), (3, Limited.ca.id), (4, Limited.mmi.id)]

def sameResource (requested id : UInt32) : Bool :=
  match decodePublicResourceId requested, decodePublicResourceId id with
  | some a, some b => a.resourceClass == b.resourceClass && a.resourceType == b.resourceType
  | _, _ => false

/-! ### The callbacks -/

def limitReached (numbers : Numbers) (requested : UInt32) : Bool :=
  match Limited.ofId requested with
  | some l => numbers.get l ≠ -1
  | none => false

/-- `llci_lookup_callback`: the result, and the resource that is connected. -/
def llciLookup (numbers : Numbers) (requested : UInt32) : ℤ × Option (ℕ × UInt32) :=
  match decodePublicResourceId requested with
  | none => (-1, none)
  | some _ =>
    match resources.find? fun r => sameResource requested r.2 with
    | none => (-1, none)
    | some r => if limitReached numbers requested = true then (-3, none) else (0, some r)

/-- `llci_session_callback`, as far as it touches the object; the number is passed as a `uint16_t`. -/
def llciSessionCallback (llci : Llci) : SlEvent → Llci
  | .callback .camConnected _ n res =>
    match Limited.ofId res with
    | some l => { llci with numbers := llci.numbers.set l (UInt16.ofNat n).toNat }
    | none => llci
  | .callback .close _ _ res =>
    match Limited.ofId res with
    | some l => { llci with numbers := llci.numbers.set l (-1) }
    | none => llci
  | _ => llci

/-! ### The object above the session table -/

structure CamStack where
  llci : Llci
  sl : Sl

/-- What the session layer meets outside itself: the two callbacks, and whether the answer is taken.
`unset`: what `connected_resource_id` holds if nothing is stored there. -/
def llciEnv (numbers : Numbers) (data : List UInt8) (unset : UInt32) (sendOk : Bool) : SlEnv :=
  match decodeSpdu data with
  | some (.openSessionRequest requested) =>
    match llciLookup numbers requested with
    | (ret, none) => ⟨some (ret, none), unset, false, sendOk⟩
    | (ret, some (cb, id)) => ⟨some (ret, some cb), id, false, sendOk⟩
  | _ => ⟨none, unset, false, sendOk⟩

/-- A call of `en50221_sl_transport_callback`, with the callbacks it makes. -/
def CamStack.transport (s : CamStack) (reason : Reason) (slot conn : UInt8) (data : List UInt8)
    (unset : UInt32) (sendOk : Bool) : CamStack :=
  let r := slTransportCallback s.sl (llciEnv s.llci.numbers data unset sendOk) reason slot conn data
  ⟨r.2.foldl llciSessionCallback s.llci, r.1⟩

def badSessionNumber : ℤ := -13

/-- `en50221_sl_destroy_session`, called by the application. -/
def slDestroySession (sl : Sl) (nb : UInt16) (sendOk : Bool) : Sl :=
  let n := nb.toNat
  if sl.maxSessions ≤ n then { sl with error := badSessionNumber }
  else if ¬ ((sl.sessions n).state = .active ∨ (sl.sessions n).state = .inDeletion) then
    { sl with error := badSessionNumber }
  else
    let sl := sl.setSessionState n .inDeletion
    if sendOk = true then sl else sl.setSessionState n .idle

/-- `llci_cam_removed`: the transport layer reports the slot that is destroyed. -/
def CamStack.removed (s : CamStack) : CamStack :=
  if s.llci.tlSlotId ≠ -1 then
    let s := s.transport .slotClose (UInt8.ofInt s.llci.tlSlotId) 0 [] 0 true
    { s with llci := { s.llci with tlSlotId := -1, numbers := .clear, state := .none } }
  else { s with llci := { s.llci with state := .none } }

/-- `llci_cam_added`. -/
def CamStack.added (s : CamStack) : CamStack :=
  let s := if s.llci.tlSlotId ≠ -1 then s.removed else s
  { s with llci := { s.llci with state := .inReset } }

/-- `llci_cam_in_reset`, with the slot that `en50221_tl_register_slot` gives, if it does, and whether
`en50221_tl_new_tc` succeeds. -/
def CamStack.inReset (s : CamStack) (cam : CamState) (slot : Option UInt8) (tc : Bool) : CamStack :=
  if cam ≠ .ready then s
  else
    match slot with
    | none => { s with llci := { s.llci with tlSlotId := -1, state := .bad } }
    | some i =>
      if tc = true then { s with llci := { s.llci with tlSlotId := i.toNat, state := .ok } }
      else { s with llci := { s.llci with tlSlotId := -1, state := .bad } }

/-- What can happen: a call of the transport callback, the switch of a poll, or the application destroys a
session. -/
inductive CamOp where
  | transport (reason : Reason) (slot conn : UInt8) (data : List UInt8) (unset : UInt32) (sendOk : Bool)
  | poll (cam camAgain : CamState) (slot : Option UInt8) (tc : Bool)
  | destroySession (nb : UInt16) (sendOk : Bool)
  deriving Repr, DecidableEq

def CamStack.step (s : CamStack) : CamOp → CamStack
  | .transport reason slot conn data unset sendOk => s.transport reason slot conn data unset sendOk
  | .poll cam camAgain slot tc =>
    match cam with
    | .missing => if s.llci.state ≠ .none then s.removed else s
    | .ready =>
      if s.llci.state = .none then s.added
      else if s.llci.state = .inReset then s.inReset camAgain slot tc
      else s
    | .initialising | .failed => s
  | .destroySession nb sendOk => { s with sl := slDestroySession s.sl nb sendOk }

/-! ### The property -/

def Sl.isOpen (sl : Sl) (l : Limited) (n : ℕ) : Prop :=
  n < sl.maxSessions ∧ (sl.sessions n).state = .active ∧ (sl.sessions n).resourceId = l.id

/-- **The session table**: a number is -1 exactly if no session of the resource is open, and otherwise it
is the number of the one that is. -/
structure SessionTable (s : CamStack) : Prop where
  none_iff : ∀ l, s.llci.numbers.get l = -1 ↔ ∀ n, ¬ s.sl.isOpen l n
  number_eq : ∀ l n, s.sl.isOpen l n → s.llci.numbers.get l = n
  one : ∀ l m n, s.sl.isOpen l m → s.sl.isOpen l n → m = n

/-- A request comes from the slot of this object, and asks for a limited resource in another version only
if it has no session; and the application does not destroy a session of a limited resource. -/
def ExactVersion (s : CamStack) : CamOp → Prop
  | .transport .data slot _ data _ _ =>
    ∀ requested, decodeSpdu data = some (.openSessionRequest requested) →
      (slot.toNat : ℤ) = s.llci.tlSlotId ∧
      ∀ l : Limited, sameResource requested l.id = true → requested ≠ l.id → s.llci.numbers.get l = -1
  | .destroySession nb _ => ∀ l : Limited, (s.sl.sessions nb.toNat).resourceId ≠ l.id
  | _ => True

/-! ### Ids and numbers -/

@[simp] theorem Limited.ofId_id (l : Limited) : Limited.ofId l.id = some l := by
  cases l <;> rfl

variable {l : Limited} {numbers : Numbers} {requested : UInt32} {sl sl' : Sl} {n : ℕ} {s : CamStack}
    {r : Sl × List SlEvent} {es : List SlEvent} {cb : Option ℕ} {slot conn : UInt8} {data : List UInt8}

theorem Limited.ofId_eq_some_iff {id : UInt32} : Limited.ofId id = some l ↔ id = l.id := by
  constructor
  · intro h
    unfold Limited.ofId at h
    split_ifs at h with h₁ h₂ h₃ h₄
    all_goals
      obtain rfl := Option.some.inj h
      assumption
  · rintro rfl
    exact Limited.ofId_id l

@[simp] theorem Numbers.get_set_self (n : Numbers) (l : Limited) (v : ℤ) : (n.set l v).get l = v := by
  cases l <;> rfl

theorem Numbers.get_set_of_ne (n : Numbers) {l' : Limited} (v : ℤ) (h : l' ≠ l) : (n.set l v).get l' = n.get l' := by
  cases l <;> cases l' <;> first | rfl | exact absurd rfl h

@[simp] theorem Numbers.get_clear (l : Limited) : Numbers.clear.get l = -1 := by
  cases l <;> rfl

theorem llciLookup_connected {ret : ℤ} {r : ℕ × UInt32} (h : llciLookup numbers requested = (ret, some r)) :
    ret = 0 ∧ sameResource requested r.2 = true ∧ limitReached numbers requested = false := by
  unfold llciLookup at h
  split at h
  · exact absurd h (by simp)
  · split at h
    · exact absurd h (by simp)
    · rename_i r' hf
      split at h
      · exact absurd h (by simp)
      · rename_i hlimit
        obtain ⟨rfl, hr⟩ := Prod.mk.inj h
        obtain rfl := Option.some.inj hr
        have hsame := List.find?_some (p := fun r : ℕ × UInt32 => sameResource requested r.2) hf
        exact ⟨rfl, hsame, by simpa using hlimit⟩

theorem llciLookup_refused {ret : ℤ} (h : llciLookup numbers requested = (ret, none)) : ret ≠ 0 := by
  unfold llciLookup at h
  split at h
  · rw [← (Prod.mk.inj h).1]
    decide
  · split at h
    · rw [← (Prod.mk.inj h).1]
      decide
    · split at h
      · rw [← (Prod.mk.inj h).1]
        decide
      · exact absurd h (by simp)

/-! ### The session callback over a list of calls -/

def SlEvent.sets (l : Limited) : SlEvent → Bool
  | .callback .camConnected _ _ res | .callback .close _ _ res => res == l.id
  | _ => false

theorem llciSessionCallback_of_not_sets {llci : Llci} {e : SlEvent} (h : e.sets l = false) :
    (llciSessionCallback llci e).numbers.get l = llci.numbers.get l := by
  have hset : ∀ (res : UInt32) (v : ℤ), (res == l.id) = false →
      ((match Limited.ofId res with
        | some l' => { llci with numbers := llci.numbers.set l' v }
        | none => llci).numbers.get l) = llci.numbers.get l := by
    intro res v hne
    cases hl : Limited.ofId res with
    | none => rfl
    | some l' =>
      refine Numbers.get_set_of_ne llci.numbers v ?_
      rintro rfl
      rw [Limited.ofId_eq_some_iff.mp hl] at hne
      exact absurd hne (by simp)
  cases e with
  | callback reason slot n res =>
    cases reason with
    | camConnected => exact hset res _ h
    | close => exact hset res _ h
    | camConnecting => rfl
    | camConnectFail => rfl
    | connected => rfl
    | connectFail => rfl
    | tcConnect => rfl
    | tcCamConnect => rfl
  | lookup slot res => rfl
  | resource cb slot n res apdu => rfl
  | send slot conn bytes ok => rfl

theorem llciSessionCallback_frame (llci : Llci) (e : SlEvent) :
    ∃ numbers, llciSessionCallback llci e = { llci with numbers := numbers } := by
  unfold llciSessionCallback
  split
  · split
    · exact ⟨_, rfl⟩
    · exact ⟨_, rfl⟩
  · split
    · exact ⟨_, rfl⟩
    · exact ⟨_, rfl⟩
  · exact ⟨_, rfl⟩

theorem foldl_llciSessionCallback_frame (es : List SlEvent) (llci : Llci) :
    ∃ numbers, es.foldl llciSessionCallback llci = { llci with numbers := numbers } := by
  induction es generalizing llci with
  | nil => exact ⟨_, rfl⟩
  | cons e es ih =>
    obtain ⟨numbers, hone⟩ := llciSessionCallback_frame llci e
    rw [List.foldl_cons, hone]
    exact ih { llci with numbers := numbers }

theorem foldl_llciSessionCallback_tlSlotId (es : List SlEvent) (llci : Llci) :
    (es.foldl llciSessionCallback llci).tlSlotId = llci.tlSlotId := by
  obtain ⟨numbers, h⟩ := foldl_llciSessionCallback_frame es llci
  rw [h]

theorem foldl_llciSessionCallback_state (es : List SlEvent) (llci : Llci) :
    (es.foldl llciSessionCallback llci).state = llci.state := by
  obtain ⟨numbers, h⟩ := foldl_llciSessionCallback_frame es llci
  rw [h]

theorem foldl_llciSessionCallback_of_not_sets (es : List SlEvent) (llci : Llci) (h : ∀ e ∈ es, e.sets l = false) :
    (es.foldl llciSessionCallback llci).numbers.get l = llci.numbers.get l := by
  induction es generalizing llci with
  | nil => rfl
  | cons e es ih =>
    rw [List.foldl_cons, ih _ fun e' he' => h e' (List.mem_cons_of_mem e he')]
    exact llciSessionCallback_of_not_sets (h e List.mem_cons_self)

/-- Closings only: the number is cleared if one of them names the resource. -/
theorem foldl_llciSessionCallback_close (es : List SlEvent) (llci : Llci)
    (hes : ∀ e ∈ es, ∃ slot n res, e = .callback .close slot n res) :
    (es.foldl llciSessionCallback llci).numbers.get l =
      if es.any (SlEvent.sets l) = true then -1 else llci.numbers.get l := by
  induction es generalizing llci with
  | nil => rfl
  | cons e es ih =>
    obtain ⟨slot, n, res, rfl⟩ := hes e List.mem_cons_self
    rw [List.foldl_cons, ih _ fun e' he' => hes e' (List.mem_cons_of_mem _ he'), List.any_cons]
    by_cases hres : res = l.id
    · have hself : (llciSessionCallback llci (.callback .close slot n res)).numbers.get l = -1 := by
        simp [llciSessionCallback, hres]
      have hsets : SlEvent.sets l (.callback .close slot n res) = true := by
        simp [SlEvent.sets, hres]
      rw [hself, hsets]
      simp
    · have hsets : SlEvent.sets l (.callback .close slot n res) = false := by
        simp [SlEvent.sets, hres]
      rw [llciSessionCallback_of_not_sets hsets, hsets]
      simp

/-! ### The invariant -/

def Session.uses (s : Session) (l : Limited) : Prop := s.state ≠ .idle ∧ s.resourceId = l.id

/-- The books of one resource are right: no session is in use and there is no number, or one session is
in use, is open, and has the number. -/
def Booked (s : CamStack) (l : Limited) : Prop :=
  (s.llci.numbers.get l = -1 ∧ ∀ n < s.sl.maxSessions, ¬ (s.sl.sessions n).uses l) ∨
  ∃ n : ℕ, s.llci.numbers.get l = n ∧ s.sl.isOpen l n ∧
    ∀ m < s.sl.maxSessions, (s.sl.sessions m).uses l → m = n

/-- Sessions are on the slot of the object, and the books are right. -/
structure CamInv (s : CamStack) : Prop where
  max_le : s.sl.maxSessions ≤ 2 ^ 16
  callback : s.sl.hasSessionCallback = true
  reset : s.llci.state = .inReset → s.llci.tlSlotId = -1
  slot : ∀ n < s.sl.maxSessions, (s.sl.sessions n).state ≠ .idle →
    ((s.sl.sessions n).slotId.toNat : ℤ) = s.llci.tlSlotId
  booked : ∀ l, Booked s l

theorem Sl.isOpen.uses (h : sl.isOpen l n) : (sl.sessions n).uses l := by
  refine ⟨?_, h.2.2⟩
  rw [h.2.1]
  decide

theorem CamInv.sessionTable (hi : CamInv s) : SessionTable s := by
  have hone : ∀ l n, s.sl.isOpen l n → s.llci.numbers.get l = n := by
    intro l n hn
    rcases hi.booked l with ⟨-, hnone⟩ | ⟨m, hget, -, huniq⟩
    · exact absurd hn.uses (hnone n hn.1)
    · rw [hget, huniq n hn.1 hn.uses]
  refine ⟨fun l => ⟨?_, ?_⟩, hone, fun l m n hm hn => ?_⟩
  · intro hget n hn
    have := hone l n hn
    omega
  · intro hnone
    rcases hi.booked l with ⟨hget, -⟩ | ⟨n, -, hn, -⟩
    · exact hget
    · exact absurd hn (hnone n)
  · have := (hone l m hm).symm.trans (hone l n hn)
    omega

theorem CamInv.idle {s : CamStack} (hi : CamInv s) (hid : s.llci.tlSlotId = -1) :
    ∀ n < s.sl.maxSessions, (s.sl.sessions n).state = .idle := by
  intro n hn
  by_contra huse
  have := hi.slot n hn huse
  omega

theorem camInv_of_idle (hmax : s.sl.maxSessions ≤ 2 ^ 16) (hcb : s.sl.hasSessionCallback = true)
    (hreset : s.llci.state = .inReset → s.llci.tlSlotId = -1)
    (hidle : ∀ n < s.sl.maxSessions, (s.sl.sessions n).state = .idle) (hnumbers : ∀ l, s.llci.numbers.get l = -1) :
    CamInv s :=
  ⟨hmax, hcb, hreset, fun n hn huse => absurd (hidle n hn) huse,
    fun l => .inl ⟨hnumbers l, fun n hn huse => huse.1 (hidle n hn)⟩⟩

theorem CamInv.numbers_of_idle (hi : CamInv s) (hidle : ∀ n < s.sl.maxSessions, (s.sl.sessions n).state = .idle)
    (l : Limited) : s.llci.numbers.get l = -1 := by
  rcases hi.booked l with ⟨hget, -⟩ | ⟨n, -, hn, -⟩
  · exact hget
  · exact absurd (hidle n hn.1) hn.uses.1

/-- The state after a call of the session layer with its callbacks. -/
def CamStack.after (s : CamStack) (r : Sl × List SlEvent) : CamStack :=
  ⟨r.2.foldl llciSessionCallback s.llci, r.1⟩

theorem CamStack.after_sl (s : CamStack) (r : Sl × List SlEvent) : (s.after r).sl = r.1 := rfl

/-- The session layer keeps the size of the table and the registration of the callback. -/
structure Sl.SameTable (sl sl' : Sl) : Prop where
  max_eq : sl'.maxSessions = sl.maxSessions
  callback_eq : sl'.hasSessionCallback = sl.hasSessionCallback

theorem CamInv.after (hi : CamInv s) (ht : s.sl.SameTable r.1)
    (hslot : ∀ n < s.sl.maxSessions, (r.1.sessions n).state ≠ .idle →
      ((r.1.sessions n).slotId.toNat : ℤ) = s.llci.tlSlotId) (hbooked : ∀ l, Booked (s.after r) l) :
    CamInv (s.after r) := by
  refine ⟨?_, ht.callback_eq.trans hi.callback, ?_, ?_, hbooked⟩
  · show r.1.maxSessions ≤ 2 ^ 16
    rw [ht.max_eq]
    exact hi.max_le
  · show (r.2.foldl llciSessionCallback s.llci).state = .inReset →
      (r.2.foldl llciSessionCallback s.llci).tlSlotId = -1
    rw [foldl_llciSessionCallback_state, foldl_llciSessionCallback_tlSlotId]
    exact hi.reset
  · intro n hn
    show _ → _ = (r.2.foldl llciSessionCallback s.llci).tlSlotId
    rw [foldl_llciSessionCallback_tlSlotId]
    refine hslot n ?_
    rw [← ht.max_eq]
    exact hn

theorem Booked.after (hb : Booked s l) (ht : s.sl.SameTable r.1) (hes : ∀ e ∈ r.2, e.sets l = false)
    (hsess : ∀ n < s.sl.maxSessions, r.1.sessions n = s.sl.sessions n ∨
      ¬ (s.sl.sessions n).uses l ∧ ¬ (r.1.sessions n).uses l) : Booked (s.after r) l := by
  have hget : (s.after r).llci.numbers.get l = s.llci.numbers.get l :=
    foldl_llciSessionCallback_of_not_sets r.2 s.llci hes
  have huses : ∀ n < s.sl.maxSessions, (r.1.sessions n).uses l → (s.sl.sessions n).uses l := by
    intro n hn huse
    rcases hsess n hn with heq | ⟨-, hno⟩
    · rw [← heq]
      exact huse
    · exact absurd huse hno
  unfold Booked
  rw [hget, CamStack.after_sl, ht.max_eq]
  rcases hb with ⟨hnone, hno⟩ | ⟨n, hn, hopen, huniq⟩
  · exact .inl ⟨hnone, fun m hm huse => hno m hm (huses m hm huse)⟩
  · refine .inr ⟨n, hn, ?_, fun m hm huse => huniq m hm (huses m hm huse)⟩
    rcases hsess n hopen.1 with heq | ⟨hno, -⟩
    · unfold Sl.isOpen
      rw [heq, ht.max_eq]
      exact hopen
    · exact absurd hopen.uses hno

theorem CamInv.close (hi : CamInv s) (ht : s.sl.SameTable r.1) (c : ℕ → Prop)
    (hclosed : ∀ n < s.sl.maxSessions, c n → (r.1.sessions n).state = .idle)
    (hkept : ∀ n < s.sl.maxSessions, ¬ c n → r.1.sessions n = s.sl.sessions n)
    (hcleared : ∀ l, (∃ n < s.sl.maxSessions, c n ∧ (s.sl.sessions n).uses l) →
      (s.after r).llci.numbers.get l = -1) (hleft : ∀ l, (¬ ∃ n < s.sl.maxSessions, c n ∧ (s.sl.sessions n).uses l) →
      (s.after r).llci.numbers.get l = s.llci.numbers.get l) : CamInv (s.after r) := by
  have huses : ∀ n < s.sl.maxSessions, ∀ l, (r.1.sessions n).uses l → ¬ c n ∧ (s.sl.sessions n).uses l := by
    intro n hn l huse
    have hc : ¬ c n := fun hc => huse.1 (hclosed n hn hc)
    rw [hkept n hn hc] at huse
    exact ⟨hc, huse⟩
  refine hi.after ht ?_ fun l => ?_
  · intro n hn huse
    have hc : ¬ c n := fun hc => huse (hclosed n hn hc)
    rw [hkept n hn hc] at huse ⊢
    exact hi.slot n hn huse
  · unfold Booked
    rw [CamStack.after_sl, ht.max_eq]
    by_cases hex : ∃ n < s.sl.maxSessions, c n ∧ (s.sl.sessions n).uses l
    · -- the session of the resource is among them
      refine .inl ⟨hcleared l hex, fun m hm huse => ?_⟩
      obtain ⟨n, hn, hc, hn'⟩ := hex
      obtain ⟨hcm, hm'⟩ := huses m hm l huse
      rcases hi.booked l with ⟨-, hno⟩ | ⟨k, -, -, huniq⟩
      · exact hno m hm hm'
      · rw [huniq m hm hm', ← huniq n hn hn'] at hcm
        exact hcm hc
    · rw [hleft l hex]
      rcases hi.booked l with ⟨hnone, hno⟩ | ⟨n, hget, hopen, huniq⟩
      · exact .inl ⟨hnone, fun m hm huse => hno m hm (huses m hm l huse).2⟩
      · have hc : ¬ c n := fun hc => hex ⟨n, hopen.1, hc, hopen.uses⟩
        refine .inr ⟨n, hget, ?_, fun m hm huse => huniq m hm (huses m hm l huse).2⟩
        unfold Sl.isOpen
        rw [hkept n hopen.1 hc, ht.max_eq]
        exact hopen

/-! ### Closing -/

theorem closeLoop_sameTable (select : Session → Bool) (is : List ℕ) (sl : Sl) :
    sl.SameTable (closeLoop select is sl).1 := by
  induction is generalizing sl with
  | nil => exact ⟨rfl, rfl⟩
  | cons i is ih =>
    by_cases h : closes select (sl.sessions i) = true
    · rw [closeLoop_close h]
      obtain ⟨hmax, hcb⟩ := ih (sl.setSessionState i .idle)
      exact ⟨hmax, hcb⟩
    · rw [closeLoop_skip (by simpa using h)]
      exact ih sl

/-- **A loop over the table** keeps the books right. -/
theorem CamInv.closeLoop {s : CamStack} (hi : CamInv s) (select : Session → Bool) :
    CamInv (s.after (closeLoop select (List.range s.sl.maxSessions) s.sl)) := by
  obtain ⟨hsess, hev⟩ := closeLoop_spec select (List.range s.sl.maxSessions) s.sl List.nodup_range
  rw [if_pos hi.callback] at hev
  have hclose : ∀ e ∈ (En50221.closeLoop select (List.range s.sl.maxSessions) s.sl).2,
      ∃ slot n res, e = .callback .close slot n res := by
    intro e he
    rw [hev] at he
    obtain ⟨n, -, rfl⟩ := List.mem_map.mp he
    exact ⟨_, _, _, rfl⟩
  have hany : ∀ l, (En50221.closeLoop select (List.range s.sl.maxSessions) s.sl).2.any (SlEvent.sets l) = true ↔
      ∃ n < s.sl.maxSessions, closes select (s.sl.sessions n) = true ∧ (s.sl.sessions n).uses l := by
    intro l
    have huse : ∀ n, closes select (s.sl.sessions n) = true → (s.sl.sessions n).state ≠ .idle := by
      intro n hn
      simp only [closes, Bool.and_eq_true, decide_eq_true_eq] at hn
      exact hn.1
    rw [hev, List.any_eq_true]
    constructor
    · rintro ⟨e, he, hsets⟩
      obtain ⟨n, hn, rfl⟩ := List.mem_map.mp he
      obtain ⟨hlt, hc⟩ := List.mem_filter.mp hn
      exact ⟨n, List.mem_range.mp hlt, hc, huse n hc, beq_iff_eq.mp hsets⟩
    · rintro ⟨n, hlt, hc, -, hres⟩
      exact ⟨closeEvent s.sl n, List.mem_map_of_mem (List.mem_filter.mpr ⟨List.mem_range.mpr hlt, hc⟩),
        beq_iff_eq.mpr hres⟩
  have hfold := fun l => foldl_llciSessionCallback_close (l := l) _ s.llci hclose
  refine hi.close (closeLoop_sameTable _ _ _) (fun n => closes select (s.sl.sessions n) = true) ?_ ?_ ?_ ?_
  · intro n hn hc
    rw [hsess]
    simp only [List.mem_range, hn, hc, and_self, if_true]
  · intro n hn hc
    rw [hsess]
    exact if_neg fun h => hc h.2
  · intro l hex
    exact (hfold l).trans (if_pos ((hany l).mpr hex))
  · intro l hex
    exact (hfold l).trans (if_neg fun h => hex ((hany l).mp h))

theorem CamInv.unchanged (hi : CamInv s) (hes : ∀ l, ∀ e ∈ es, e.sets l = false) : CamInv (s.after (s.sl, es)) :=
  hi.after ⟨rfl, rfl⟩ hi.slot fun l => (hi.booked l).after ⟨rfl, rfl⟩ (hes l) fun _ _ => .inl rfl

theorem CamInv.closeRequest (hi : CamInv s) (sendOk : Bool) (slot conn : UInt8) (nb : UInt16) :
    CamInv (s.after (slHandleCloseSessionRequest s.sl sendOk slot conn nb)) := by
  by_cases hok : (decide (nb.toNat < s.sl.maxSessions) && (s.sl.sessions nb.toNat).isOn slot conn &&
      ((s.sl.sessions nb.toNat).state == .active || (s.sl.sessions nb.toNat).state == .inDeletion)) = true
  · simp only [slHandleCloseSessionRequest, hok, if_true]
    simp only [Bool.and_eq_true, decide_eq_true_eq, Bool.or_eq_true, beq_iff_eq] at hok
    have hlt := hok.1.1
    have hstate : (s.sl.sessions nb.toNat).state ≠ .idle := by
      rcases hok.2 with h | h
      all_goals
        rw [h]
        decide
    have hnum : ∀ l, (s.after (s.sl.setSessionState nb.toNat .idle,
        [SlEvent.send slot conn (closeSessionResHdr 0x00 nb) sendOk] ++
          (s.sl.setSessionState nb.toNat .idle).callSession .close slot nb.toNat
            (s.sl.sessions nb.toNat).resourceId)).llci.numbers.get l =
        if (s.sl.sessions nb.toNat).resourceId = l.id then -1 else s.llci.numbers.get l := by
      intro l
      have hcb : (s.sl.setSessionState nb.toNat .idle).hasSessionCallback = true := hi.callback
      unfold CamStack.after Sl.callSession
      rw [if_pos hcb]
      show (llciSessionCallback s.llci (.callback .close slot nb.toNat _)).numbers.get l = _
      have hfold := foldl_llciSessionCallback_close (l := l)
        [.callback .close slot nb.toNat (s.sl.sessions nb.toNat).resourceId] s.llci
        (fun e he => ⟨_, _, _, List.mem_singleton.mp he⟩)
      refine hfold.trans ?_
      simp [SlEvent.sets]
    refine hi.close ⟨rfl, rfl⟩ (fun n => n = nb.toNat) ?_ ?_ ?_ ?_
    · rintro n - rfl
      rw [setSessionState_self]
    · intro n _ hne
      exact setSessionState_of_ne s.sl .idle hne
    · rintro l ⟨n, -, rfl, huse⟩
      rw [hnum l, if_pos huse.2]
    · intro l hex
      rw [hnum l, if_neg fun hres => hex ⟨nb.toNat, hlt, rfl, hstate, hres⟩]
  · simp only [slHandleCloseSessionRequest, hok, Bool.false_eq_true, if_false]
    refine hi.unchanged fun l e he => ?_
    rw [List.mem_singleton.mp he]
    rfl

theorem CamInv.setOther (hi : CamInv s) {st : SessionState} (huse : (s.sl.sessions n).state ≠ .idle)
    (hother : ∀ l, n < s.sl.maxSessions → (s.sl.sessions n).resourceId ≠ Limited.id l)
    (hes : ∀ l, ∀ e ∈ es, e.sets l = false) : CamInv (s.after (s.sl.setSessionState n st, es)) := by
  refine hi.after ⟨rfl, rfl⟩ ?_ fun l => (hi.booked l).after ⟨rfl, rfl⟩ (hes l) ?_
  · intro m hm hst
    by_cases hmn : m = n
    · subst hmn
      rw [setSessionState_self]
      exact hi.slot m hm huse
    · rw [setSessionState_of_ne s.sl st hmn] at hst ⊢
      exact hi.slot m hm hst
  · intro m hm
    by_cases hmn : m = n
    · subst hmn
      rw [setSessionState_self]
      exact .inr ⟨fun h => hother l hm h.2, fun h => hother l hm h.2⟩
    · exact .inl (setSessionState_of_ne s.sl st hmn)

theorem CamInv.resource_ne (hi : CamInv s) (hidle : (s.sl.sessions n).state ≠ .idle)
    (hact : (s.sl.sessions n).state ≠ .active) (l : Limited) (hn : n < s.sl.maxSessions) :
    (s.sl.sessions n).resourceId ≠ l.id := by
  intro hres
  rcases hi.booked l with ⟨-, hno⟩ | ⟨m, -, hopen, huniq⟩
  · exact hno n hn ⟨hidle, hres⟩
  · rw [huniq n hn ⟨hidle, hres⟩] at hact
    exact hact hopen.2.1

theorem callSession_quiet (sl : Sl) {reason : SessionReason} (slot : UInt8) (n : ℕ) (res : UInt32)
    (h₁ : reason ≠ .camConnected) (h₂ : reason ≠ .close) :
    ∀ l, ∀ e ∈ sl.callSession reason slot n res, e.sets l = false := by
  intro l e he
  unfold Sl.callSession at he
  split at he
  · rw [List.mem_singleton.mp he]
    cases reason <;> first | rfl | exact absurd rfl h₁ | exact absurd rfl h₂
  · exact absurd he (by simp)

theorem CamInv.createResponse (hi : CamInv s) (slot conn status : UInt8) (nb : UInt16) :
    CamInv (s.after (slHandleCreateSessionResponse s.sl slot conn status nb)) := by
  by_cases hok : (decide (nb.toNat < s.sl.maxSessions) && (s.sl.sessions nb.toNat).isOn slot conn &&
      (s.sl.sessions nb.toNat).state == .inCreation) = true
  · simp only [slHandleCreateSessionResponse, hok, if_true]
    simp only [Bool.and_eq_true, decide_eq_true_eq, beq_iff_eq] at hok
    have hidle : (s.sl.sessions nb.toNat).state ≠ .idle := by
      rw [hok.2]
      decide
    have hact : (s.sl.sessions nb.toNat).state ≠ .active := by
      rw [hok.2]
      decide
    split
    · exact hi.setOther hidle (hi.resource_ne hidle hact) (callSession_quiet _ _ _ _ (by decide) (by decide))
    · exact hi.setOther hidle (hi.resource_ne hidle hact) (callSession_quiet _ _ _ _ (by decide) (by decide))
  · simp only [slHandleCreateSessionResponse, hok]
    exact hi.unchanged (by simp)

theorem CamInv.closeResponse (hi : CamInv s) (slot conn : UInt8) (nb : UInt16) :
    CamInv (s.after (slHandleCloseSessionResponse s.sl slot conn nb)) := by
  by_cases hok : (decide (nb.toNat < s.sl.maxSessions) && (s.sl.sessions nb.toNat).isOn slot conn &&
      (s.sl.sessions nb.toNat).state == .inDeletion) = true
  · simp only [slHandleCloseSessionResponse, hok, if_true]
    simp only [Bool.and_eq_true, decide_eq_true_eq, beq_iff_eq] at hok
    have hidle : (s.sl.sessions nb.toNat).state ≠ .idle := by
      rw [hok.2]
      decide
    have hact : (s.sl.sessions nb.toNat).state ≠ .active := by
      rw [hok.2]
      decide
    exact hi.setOther hidle (hi.resource_ne hidle hact) (by simp)
  · simp only [slHandleCloseSessionResponse, hok]
    exact hi.unchanged (by simp)

theorem CamInv.package (hi : CamInv s) (slot conn : UInt8) (nb : UInt16) (data : List UInt8) :
    CamInv (s.after (slHandleSessionPackage s.sl slot conn nb data)) := by
  simp only [slHandleSessionPackage]
  split
  · split
    · exact hi.unchanged (by simp)
    · refine hi.unchanged fun l e he => ?_
      obtain ⟨apdu, -, rfl⟩ := List.mem_map.mp he
      rfl
  · exact hi.unchanged (by simp)

/-! ### Opening -/

theorem alloc_none {res : UInt32} (h : slAllocNewSession sl res slot conn cb = (none, sl')) :
    sl.SameTable sl' ∧ sl'.sessions = sl.sessions := by
  unfold slAllocNewSession at h
  split at h
  · obtain ⟨-, rfl⟩ := Prod.mk.inj h
    exact ⟨⟨rfl, rfl⟩, rfl⟩
  · exact absurd (Prod.mk.inj h).1 (by simp)

theorem alloc_some {res : UInt32} (h : slAllocNewSession sl res slot conn cb = (some n, sl')) :
    n < sl.maxSessions ∧ (sl.sessions n).state = .idle ∧
      sl' = sl.setSession n ⟨.inCreation, res, slot, conn, cb⟩ := by
  unfold slAllocNewSession at h
  split at h
  · exact absurd (Prod.mk.inj h).1 (by simp)
  · rename_i i hf
    obtain ⟨hn, rfl⟩ := Prod.mk.inj h
    obtain rfl := Option.some.inj hn
    have hidle := List.find?_some hf
    simp only [Bool.and_eq_true, decide_eq_true_eq, beq_iff_eq] at hidle
    exact ⟨List.mem_range.mp (List.mem_of_find?_eq_some hf), hidle.2, rfl⟩

theorem askSession_quiet (sl : Sl) (env : SlEnv) (slot : UInt8) (n : ℕ) (res : UInt32) (l : Limited) :
    ∀ e ∈ (askSession sl env slot n res).2, e.sets l = false := by
  intro e he
  unfold askSession at he
  split at he
  · rw [List.mem_singleton.mp he]
    rfl
  · exact absurd he List.not_mem_nil

theorem request_quiet (env : SlEnv) (slot conn : UInt8) (requested : UInt32) (bytes : List UInt8)
    {asked : List SlEvent} (ha : ∀ e ∈ asked, e.sets l = false) :
    ∀ e ∈ (if env.lookup.isSome = true then [SlEvent.lookup slot requested] else []) ++ asked ++
      [SlEvent.send slot conn bytes env.sendOk], e.sets l = false := by
  intro e he
  simp only [List.mem_append, List.mem_singleton] at he
  rcases he with (he | he) | rfl
  · split at he
    · rw [List.mem_singleton.mp he]
      rfl
    · exact absurd he List.not_mem_nil
  · exact ha e he
  · rfl

theorem openRequest_unnumbered {env : SlEnv} {status : ℤ}
    (ho : openSession sl env slot conn = (status, none, sl', [])) (requested : UInt32) :
    (slHandleOpenSessionRequest sl env slot conn requested).1 = sl' ∧
      ∀ l, ∀ e ∈ (slHandleOpenSessionRequest sl env slot conn requested).2, e.sets l = false := by
  unfold slHandleOpenSessionRequest
  simp only [ho]
  exact ⟨trivial, fun l => request_quiet env slot conn requested _ fun _ he => absurd he List.not_mem_nil⟩

/-- What a request does to the table: nothing that is in use changes, and nothing is told; or a free
number becomes active for the resource that was found. -/
theorem openRequest_table (env : SlEnv) (hcb : sl.hasSessionCallback = true) (slot conn : UInt8) (requested : UInt32) :
    sl.SameTable (slHandleOpenSessionRequest sl env slot conn requested).1 ∧
    (((∀ l, ∀ e ∈ (slHandleOpenSessionRequest sl env slot conn requested).2, e.sets l = false) ∧
        ∀ m, (slHandleOpenSessionRequest sl env slot conn requested).1.sessions m = sl.sessions m ∨
          (sl.sessions m).state = .idle ∧
            ((slHandleOpenSessionRequest sl env slot conn requested).1.sessions m).state = .idle) ∨
      ∃ n es, lookupStatus env.lookup = statusOpen ∧ n < sl.maxSessions ∧ (sl.sessions n).state = .idle ∧
        (∀ l, ∀ e ∈ es, SlEvent.sets l e = false) ∧
        (slHandleOpenSessionRequest sl env slot conn requested).2 =
          es ++ [.callback .camConnected slot n env.connectedResourceId] ∧
        ∃ cb, (slHandleOpenSessionRequest sl env slot conn requested).1.sessions =
          Function.update sl.sessions n ⟨.active, env.connectedResourceId, slot, conn, cb⟩) := by
  by_cases hst : lookupStatus env.lookup = statusOpen
  · rcases halloc : slAllocNewSession sl env.connectedResourceId slot conn (env.lookup.bind (·.2)) with
      ⟨- | n, sl'⟩
    · have ho : openSession sl env slot conn = (statusNoRes, none, sl', []) := by
        simp only [openSession, if_pos hst, halloc]
      obtain ⟨htable, hquiet⟩ := openRequest_unnumbered ho requested
      obtain ⟨ht, hs⟩ := alloc_none halloc
      rw [htable]
      exact ⟨ht, .inl ⟨hquiet, fun m => .inl (congrFun hs m)⟩⟩
    · obtain ⟨hlt, hidle, hsl'⟩ := alloc_some halloc
      have ho : openSession sl env slot conn = ((askSession sl' env slot n env.connectedResourceId).1, some n, sl',
          (askSession sl' env slot n env.connectedResourceId).2) := by
        simp only [openSession, if_pos hst, halloc]
      have hcb' : sl'.hasSessionCallback = true := by
        rw [hsl']
        exact hcb
      have hupdate : ∀ st, (sl'.setSessionState n st).sessions = Function.update sl.sessions n
          ⟨st, env.connectedResourceId, slot, conn, env.lookup.bind (·.2)⟩ := by
        intro st
        simp [hsl', Sl.setSessionState, Sl.setSession]
      have ht : ∀ st, sl.SameTable (sl'.setSessionState n st) := by
        intro st
        rw [hsl']
        exact ⟨rfl, rfl⟩
      have hquiet (l : Limited) (bytes : List UInt8) := request_quiet env slot conn requested bytes
        (askSession_quiet sl' env slot n env.connectedResourceId l)
      unfold slHandleOpenSessionRequest
      simp only [ho, settleSession_eq]
      by_cases hopen : (if env.sendOk = true then (askSession sl' env slot n env.connectedResourceId).1
          else statusNoRes) = statusOpen
      · -- it is opened
        simp only [hopen, if_true, Sl.callSession, hcb']
        exact ⟨ht .active, .inr ⟨n, _, hst, hlt, hidle, fun l => hquiet l _, rfl, _, hupdate .active⟩⟩
      · simp only [hopen, if_false]
        refine ⟨ht .idle, .inl ⟨fun l => ?_, fun m => ?_⟩⟩
        · rw [List.append_nil]
          exact hquiet l _
        · rw [hupdate .idle]
          by_cases hmn : m = n
          · subst hmn
            rw [Function.update_self]
            exact .inr ⟨hidle, rfl⟩
          · exact .inl (Function.update_of_ne hmn _ _)
  · have ho : openSession sl env slot conn = (lookupStatus env.lookup, none, sl, []) := if_neg hst
    obtain ⟨htable, hquiet⟩ := openRequest_unnumbered ho requested
    rw [htable]
    exact ⟨⟨rfl, rfl⟩, .inl ⟨hquiet, fun _ => .inl rfl⟩⟩

theorem llciEnv_connected (hd : decodeSpdu data = some (.openSessionRequest requested)) (unset : UInt32)
    (sendOk : Bool) (hst : lookupStatus (llciEnv numbers data unset sendOk).lookup = statusOpen) :
    sameResource requested (llciEnv numbers data unset sendOk).connectedResourceId = true ∧
      limitReached numbers requested = false := by
  unfold llciEnv at hst ⊢
  rw [hd] at hst ⊢
  dsimp only at hst ⊢
  cases hl : llciLookup numbers requested with
  | mk ret r =>
    rw [hl] at hst
    cases r with
    | none =>
      refine absurd ?_ (llciLookup_refused hl)
      have := (lookupStatus_open_iff ⟨[], 0, 0, ⟨some (ret, none), 0, false, true⟩⟩).mp hst
      exact Option.some.inj this
    | some r => exact (llciLookup_connected hl).2

theorem Booked.opened (hb : Booked s l) (hmax : s.sl.maxSessions ≤ 2 ^ 16) (ht : s.sl.SameTable r.1) {id : UInt32}
    (hlt : n < s.sl.maxSessions) (hidle : (s.sl.sessions n).state = .idle) (hes : ∀ e ∈ es, SlEvent.sets l e = false)
    (hev : r.2 = es ++ [.callback .camConnected slot n id])
    (hupdate : r.1.sessions = Function.update s.sl.sessions n ⟨.active, id, slot, conn, cb⟩)
    (hfree : id = l.id → s.llci.numbers.get l = -1) : Booked (s.after r) l := by
  by_cases hl : id = l.id
  · have hno : ∀ m < s.sl.maxSessions, ¬ (s.sl.sessions m).uses l := by
      rcases hb with ⟨-, hno⟩ | ⟨m, hget, -⟩
      · exact hno
      · have := hfree hl
        omega
    refine .inr ⟨n, ?_, ⟨?_, ?_, ?_⟩, ?_⟩
    · show (List.foldl llciSessionCallback s.llci r.2).numbers.get l = n
      rw [hev, List.foldl_append]
      have hn : (UInt16.ofNat n).toNat = n := by
        rw [UInt16.toNat_ofNat']
        omega
      simp [llciSessionCallback, hl, hn]
    · rw [CamStack.after_sl, ht.max_eq]
      exact hlt
    · rw [CamStack.after_sl, hupdate, Function.update_self]
    · rw [CamStack.after_sl, hupdate, Function.update_self]
      exact hl
    · intro m hm huse
      by_contra hmn
      rw [CamStack.after_sl, ht.max_eq] at hm
      rw [CamStack.after_sl, hupdate, Function.update_of_ne hmn] at huse
      exact hno m hm huse
  · refine hb.after ht ?_ ?_
    · intro e he
      rw [hev] at he
      rcases List.mem_append.mp he with he | he
      · exact hes e he
      · rw [List.mem_singleton.mp he]
        exact beq_eq_false_iff_ne.mpr hl
    · intro m _
      by_cases hmn : m = n
      · subst hmn
        rw [hupdate, Function.update_self]
        exact .inr ⟨fun h => h.1 hidle, fun h => hl h.2⟩
      · rw [hupdate]
        exact .inl (Function.update_of_ne hmn _ _)

/-- **A request** keeps the books right, if its version is the supported one or the resource has no
session. -/
theorem CamInv.openRequest (hi : CamInv s) {unset : UInt32} {sendOk : Bool}
    (hd : decodeSpdu data = some (.openSessionRequest requested)) (hslot : (slot.toNat : ℤ) = s.llci.tlSlotId)
    (hexact : ∀ l : Limited, sameResource requested l.id = true → requested ≠ l.id → s.llci.numbers.get l = -1) :
    CamInv (s.after (slHandleOpenSessionRequest s.sl (llciEnv s.llci.numbers data unset sendOk) slot conn
      requested)) := by
  obtain ⟨ht, ⟨hes, hsess⟩ | ⟨n, es, hst, hlt, hidle, hes, hev, cb, hupdate⟩⟩ :=
    openRequest_table (llciEnv s.llci.numbers data unset sendOk) hi.callback slot conn requested
  · refine hi.after ht ?_ fun l => (hi.booked l).after ht (hes l) ?_
    · intro m hm huse
      rcases hsess m with heq | ⟨-, hidle⟩
      · rw [heq] at huse ⊢
        exact hi.slot m hm huse
      · exact absurd hidle huse
    · intro m _
      rcases hsess m with heq | ⟨hidle, hidle'⟩
      · exact .inl heq
      · exact .inr ⟨fun h => h.1 hidle, fun h => h.1 hidle'⟩
  · obtain ⟨hsame, hlimit⟩ := llciEnv_connected hd unset sendOk hst
    refine hi.after ht ?_ fun l => ?_
    · intro m hm huse
      rw [hupdate] at huse ⊢
      by_cases hmn : m = n
      · subst hmn
        rw [Function.update_self]
        exact hslot
      · rw [Function.update_of_ne hmn] at huse ⊢
        exact hi.slot m hm huse
    · refine (hi.booked l).opened hi.max_le ht hlt hidle (hes l) hev hupdate fun hl => ?_
      by_cases hreq : requested = l.id
      · unfold limitReached at hlimit
        rw [hreq, Limited.ofId_id] at hlimit
        simpa using hlimit
      · refine hexact l ?_ hreq
        rw [← hl]
        exact hsame

/-! ### One step -/

theorem CamInv.transport (hi : CamInv s) {reason : Reason} {unset : UInt32} {sendOk : Bool}
    (hg : ExactVersion s (.transport reason slot conn data unset sendOk)) :
    CamInv (s.transport reason slot conn data unset sendOk) := by
  have hquiet : ∀ (reason : SessionReason) (n : ℕ), reason ≠ .camConnected → reason ≠ .close →
      ∀ l, ∀ e ∈ s.sl.callSession reason slot n 0, e.sets l = false := by
    intro reason n h₁ h₂
    exact callSession_quiet s.sl slot n 0 h₁ h₂
  show CamInv (s.after (slTransportCallback s.sl (llciEnv s.llci.numbers data unset sendOk) reason slot conn data))
  cases reason with
  | connectionOpen => exact hi.unchanged (hquiet _ _ (by decide) (by decide))
  | camConnectionOpen => exact hi.unchanged (hquiet _ _ (by decide) (by decide))
  | connectionClose => exact hi.closeLoop _
  | slotClose => exact hi.closeLoop _
  | data =>
    show CamInv (s.after (slReceive s.sl (llciEnv s.llci.numbers data unset sendOk) slot conn data))
    unfold slReceive
    cases hd : decodeSpdu data with
    | none => exact hi.unchanged (by simp)
    | some m =>
      cases m with
      | openSessionRequest requested =>
        obtain ⟨hslot, hexact⟩ := hg requested hd
        exact hi.openRequest hd hslot hexact
      | closeSessionRequest nb => exact hi.closeRequest _ slot conn nb
      | sessionPackage nb rest => exact hi.package slot conn nb rest
      | createSessionResponse status nb => exact hi.createResponse slot conn status nb
      | closeSessionResponse status nb => exact hi.closeResponse slot conn nb

theorem CamInv.removed {s : CamStack} (hi : CamInv s) : CamInv s.removed ∧ s.removed.llci.tlSlotId = -1 := by
  unfold CamStack.removed
  split
  · rename_i hid
    have ht : CamInv (s.transport .slotClose (UInt8.ofInt s.llci.tlSlotId) 0 [] 0 true) := hi.transport trivial
    refine ⟨camInv_of_idle ht.max_le ht.callback (fun _ => rfl) ?_ Numbers.get_clear, rfl⟩
    intro n hn
    have hmax := closeLoop_sameTable (fun x => x.slotId == UInt8.ofInt s.llci.tlSlotId)
      (List.range s.sl.maxSessions) s.sl
    have hlt : n < s.sl.maxSessions := by
      rw [← hmax.max_eq]
      exact hn
    show ((En50221.closeLoop (fun x => x.slotId == UInt8.ofInt s.llci.tlSlotId)
      (List.range s.sl.maxSessions) s.sl).1.sessions n).state = .idle
    rw [(closeLoop_spec _ (List.range s.sl.maxSessions) s.sl List.nodup_range).1]
    dsimp only
    by_cases huse : (s.sl.sessions n).state = .idle
    · split
      · rfl
      · exact huse
    · have hbyte : (s.sl.sessions n).slotId = UInt8.ofInt s.llci.tlSlotId := by
        rw [← hi.slot n hlt huse, UInt8.ofInt, ← UInt8.toNat_inj, UInt8.toNat_ofNat']
        have := (s.sl.sessions n).slotId.toNat_lt
        omega
      rw [if_pos ⟨List.mem_range.mpr hlt, by simp [closes, huse, hbyte]⟩]
  · rename_i hid
    have hid : s.llci.tlSlotId = -1 := not_not.mp hid
    exact ⟨camInv_of_idle hi.max_le hi.callback (fun _ => hid) (hi.idle hid)
      (hi.numbers_of_idle (hi.idle hid)), hid⟩

theorem CamInv.setSlot (hi : CamInv s) (hid : s.llci.tlSlotId = -1) {llci : Llci}
    (hreset : llci.state = .inReset → llci.tlSlotId = -1) (hnumbers : llci.numbers = s.llci.numbers) :
    CamInv { s with llci := llci } := by
  refine camInv_of_idle hi.max_le hi.callback hreset (hi.idle hid) fun l => ?_
  show llci.numbers.get l = -1
  rw [hnumbers]
  exact hi.numbers_of_idle (hi.idle hid) l

theorem CamInv.added {s : CamStack} (hi : CamInv s) : CamInv s.added := by
  unfold CamStack.added
  split
  · exact hi.removed.1.setSlot hi.removed.2 (fun _ => hi.removed.2) rfl
  · rename_i hid
    exact hi.setSlot (not_not.mp hid) (fun _ => not_not.mp hid) rfl

theorem CamInv.inReset (hi : CamInv s) (hstate : s.llci.state = .inReset) (cam : CamState) (slot : Option UInt8)
    (tc : Bool) : CamInv (s.inReset cam slot tc) := by
  have hid := hi.reset hstate
  unfold CamStack.inReset
  split
  · exact hi
  · split
    · exact hi.setSlot hid (fun _ => rfl) rfl
    · split
      · exact hi.setSlot hid (fun h => absurd h (by simp)) rfl
      · exact hi.setSlot hid (fun _ => rfl) rfl

/-- **One step.** -/
theorem camInv_step {op : CamOp} (hi : CamInv s) (hg : ExactVersion s op) : CamInv (s.step op) := by
  cases op with
  | transport reason slot conn data unset sendOk => exact hi.transport hg
  | destroySession nb sendOk =>
    show CamInv (s.after (slDestroySession s.sl nb sendOk, []))
    unfold slDestroySession
    by_cases hlt : s.sl.maxSessions ≤ nb.toNat
    · simp only [hlt, if_true]
      exact hi.after ⟨rfl, rfl⟩ hi.slot fun l =>
        (hi.booked l).after ⟨rfl, rfl⟩ (by simp) fun _ _ => .inl rfl
    · simp only [hlt, if_false]
      split
      · exact hi.after ⟨rfl, rfl⟩ hi.slot fun l =>
          (hi.booked l).after ⟨rfl, rfl⟩ (by simp) fun _ _ => .inl rfl
      · rename_i hstate
        have huse : (s.sl.sessions nb.toNat).state ≠ .idle := by
          intro hidle
          refine hstate ?_
          rw [hidle]
          decide
        split
        · exact hi.setOther huse (fun l _ => hg l) (by simp)
        · have htwice : (s.sl.setSessionState nb.toNat .inDeletion).setSessionState nb.toNat .idle =
              s.sl.setSessionState nb.toNat .idle := by
            simp [Sl.setSessionState, Sl.setSession]
          rw [htwice]
          exact hi.setOther huse (fun l _ => hg l) (by simp)
  | poll cam camAgain slot tc =>
    cases cam with
    | missing =>
      show CamInv (if s.llci.state ≠ .none then s.removed else s)
      split
      · exact hi.removed.1
      · exact hi
    | ready =>
      show CamInv (if s.llci.state = .none then s.added else
        if s.llci.state = .inReset then s.inReset camAgain slot tc else s)
      split
      · exact hi.added
      · split
        · rename_i hstate
          exact hi.inReset hstate camAgain slot tc
        · exact hi
    | initialising => exact hi
    | failed => exact hi

/-! ### The switch above the transport layer -/

/-- The calls of the callback by the transport layer, delivered to the session layer. -/
def deliver (sl : Sl) (calls : List TlCall) : Sl :=
  calls.foldl (fun sl c => (slTransportCallback sl ⟨none, 0, false, true⟩ c.reason (UInt8.ofNat c.conn.1)
    (UInt8.ofNat c.conn.2) c.data).1) sl

theorem destroySlot_calls {h h' : Host} {i : ℕ} (hcb : h.tl.callback = true) (hi : i < h.maxSlots)
    (hd : destroySlot h i = some h') : h'.tl.calls = h.tl.calls ++ [⟨.slotClose, [], (i, 0)⟩] := by
  unfold destroySlot at hd
  rw [if_neg (by omega)] at hd
  split at hd
  · exact absurd hd (by simp)
  · obtain rfl := Option.some.inj hd
    show ((h.clearSlot i).tl.call .slotClose [] (i, 0)).calls = _
    unfold Tl.call
    rw [if_pos (show (h.clearSlot i).tl.callback = true from hcb)]
    rfl

theorem newTc_calls (h : Host) (i : ℕ) (mem : Bool) : (newTc h i mem).2.tl.calls = h.tl.calls := by
  unfold newTc
  split
  · rfl
  · split
    · rfl
    · cases halloc : allocNewTc h.tl i with
      | none => rfl
      | some p =>
        obtain ⟨conid, tl⟩ := p
        obtain ⟨-, -, rfl⟩ := allocNewTc_eq halloc
        dsimp only
        split
        · rfl
        · rfl

/-- The removal of the CAM is the removal above the session table, with the call that the transport layer
makes. -/
theorem camRemoved_delivers {s s' : Stdcam} (sl : Sl) (hcb : s.host.tl.callback = true)
    (hid : s.llci.tlSlotId = -1 ∨ ∃ i : ℕ, i < s.host.maxSlots ∧ s.llci.tlSlotId = i)
    (hmax : s.host.maxSlots < 256) (h : camRemoved s = some s') :
    ∃ calls, s'.host.tl.calls = s.host.tl.calls ++ calls ∧
      (CamStack.mk s.llci sl).removed = ⟨s'.llci, deliver sl calls⟩ := by
  unfold camRemoved at h
  rcases hid with hid | ⟨i, hi, hid⟩
  · rw [if_neg (by simp [hid])] at h
    obtain rfl := Option.some.inj h
    refine ⟨[], by simp, ?_⟩
    simp [CamStack.removed, hid, deliver]
  · have hne : s.llci.tlSlotId ≠ -1 := by omega
    rw [if_pos hne] at h
    obtain ⟨s₁, hs₁, rfl⟩ := Option.map_eq_some_iff.mp h
    obtain ⟨h₁, hd, rfl⟩ := Option.map_eq_some_iff.mp hs₁
    have hbyte : (UInt8.ofInt s.llci.tlSlotId).toNat = i := by
      rw [hid, UInt8.ofInt, UInt8.toNat_ofNat']
      omega
    rw [hbyte] at hd
    refine ⟨_, destroySlot_calls hcb hi hd, ?_⟩
    unfold CamStack.removed
    rw [if_pos hne]
    have hofNat : UInt8.ofNat i = UInt8.ofInt s.llci.tlSlotId := by
      rw [← hbyte, UInt8.ofNat_toNat]
    obtain ⟨numbers, hfold⟩ :=
      foldl_llciSessionCallback_frame (slSlotClose sl (UInt8.ofInt s.llci.tlSlotId)).2 s.llci
    simp only [CamStack.transport, deliver, List.foldl_cons, List.foldl_nil, slTransportCallback, hofNat, hfold]

theorem unchanged_delivers (sl : Sl) {s x : Stdcam} (h : some s = some x) :
    ∃ calls, x.host.tl.calls = s.host.tl.calls ++ calls ∧
      CamStack.mk s.llci sl = ⟨x.llci, deliver sl calls⟩ := by
  obtain rfl := Option.some.inj h
  exact ⟨[], (List.append_nil _).symm, rfl⟩

theorem camAdded_delivers {s s' : Stdcam} (sl : Sl) (hcb : s.host.tl.callback = true)
    (hid : s.llci.tlSlotId = -1 ∨ ∃ i : ℕ, i < s.host.maxSlots ∧ s.llci.tlSlotId = i)
    (hmax : s.host.maxSlots < 256) (h : camAdded s = some s') :
    ∃ calls, s'.host.tl.calls = s.host.tl.calls ++ calls ∧
      (CamStack.mk s.llci sl).added = ⟨s'.llci, deliver sl calls⟩ := by
  unfold camAdded at h
  obtain ⟨s₁, hs₁, rfl⟩ := Option.map_eq_some_iff.mp h
  have hadd : ∃ calls, s₁.host.tl.calls = s.host.tl.calls ++ calls ∧
      (if s.llci.tlSlotId ≠ -1 then (CamStack.mk s.llci sl).removed else CamStack.mk s.llci sl) =
        ⟨s₁.llci, deliver sl calls⟩ := by
    by_cases hne : s.llci.tlSlotId ≠ -1
    · rw [if_pos hne] at hs₁ ⊢
      exact camRemoved_delivers sl hcb hid hmax hs₁
    · rw [if_neg hne] at hs₁ ⊢
      exact unchanged_delivers sl hs₁
  obtain ⟨calls, hcalls, heq⟩ := hadd
  refine ⟨calls, hcalls, ?_⟩
  unfold CamStack.added
  dsimp only
  rw [heq]

/-- The registration makes no call, nor does a new connection; the slot 255 that is destroyed when there is
none is not there. -/
theorem camInReset_delivers {s s' : Stdcam} (sl : Sl) (cam : CamState) (mem : Bool)
    (hmax : s.host.maxSlots < 256) (h : camInReset s cam mem = some s') :
    ∃ slot tc calls, s'.host.tl.calls = s.host.tl.calls ++ calls ∧
      (CamStack.mk s.llci sl).inReset cam slot tc = ⟨s'.llci, deliver sl calls⟩ := by
  unfold camInReset at h
  unfold CamStack.inReset
  by_cases hagain : cam ≠ .ready
  · rw [if_pos hagain] at h
    simp only [if_pos hagain]
    exact ⟨none, true, unchanged_delivers sl h⟩
  rw [if_neg hagain] at h
  simp only [if_neg hagain]
  rcases camRegister_cases s with hreg | ⟨i, hlt, hreg⟩
  · rw [hreg] at h
    obtain rfl := Option.some.inj h
    exact ⟨none, true, [], by simp [Host.setError], rfl⟩
  · have hneg : ¬ (i : ℤ) < 0 := by omega
    have hbyte : (UInt8.ofNat i).toNat = i := by
      rw [UInt8.toNat_ofNat']
      omega
    rw [hreg] at h
    simp only [hneg, if_false] at h
    split at h
    · -- the slot is left, slot 255 is named
      obtain ⟨h₁, hd, rfl⟩ := Option.map_eq_some_iff.mp h
      have h255 : (UInt8.ofInt (-1)).toNat = 255 := by decide
      have hkept : h₁.tl.calls = s.host.tl.calls := by
        rw [h255] at hd
        unfold destroySlot at hd
        rw [if_pos (by
          show Host.maxSlots _ ≤ 255
          rw [(newTc_spec _ _ _).2.1]
          show s.host.maxSlots ≤ 255
          omega)] at hd
        obtain rfl := Option.some.inj hd
        exact newTc_calls _ _ _
      exact ⟨some (UInt8.ofNat i), false, [], by simpa using hkept, rfl⟩
    · obtain rfl := Option.some.inj h
      refine ⟨some (UInt8.ofNat i), true, [], by simpa using newTc_calls _ _ _, ?_⟩
      simp only [hbyte, if_true]
      rfl

/-- **The switch of the poll** above the transport layer is the switch above the session table, for some
outcome of the registration and of the new connection, with the calls that the transport layer makes. -/
theorem camPoll_delivers {s s' : Stdcam} (sl : Sl) {env : PollEnv} (hcb : s.host.tl.callback = true)
    (hid : s.llci.tlSlotId = -1 ∨ ∃ i : ℕ, i < s.host.maxSlots ∧ s.llci.tlSlotId = i)
    (hmax : s.host.maxSlots < 256) (h : camPoll s env = some s') :
    ∃ slot tc calls, s'.host.tl.calls = s.host.tl.calls ++ calls ∧
      (CamStack.mk s.llci sl).step (.poll env.cam env.camAgain slot tc) = ⟨s'.llci, deliver sl calls⟩ := by
  unfold camPoll at h
  unfold CamStack.step
  cases hcam : env.cam with
  | missing =>
    simp only [hcam] at h ⊢
    by_cases hstate : s.llci.state ≠ .none
    · rw [if_pos hstate] at h
      simp only [if_pos hstate]
      exact ⟨none, true, camRemoved_delivers sl hcb hid hmax h⟩
    · rw [if_neg hstate] at h
      simp only [if_neg hstate]
      exact ⟨none, true, unchanged_delivers sl h⟩
  | ready =>
    simp only [hcam] at h ⊢
    by_cases hstate : s.llci.state = .none
    · rw [if_pos hstate] at h
      simp only [if_pos hstate]
      exact ⟨none, true, camAdded_delivers sl hcb hid hmax h⟩
    · rw [if_neg hstate] at h
      simp only [if_neg hstate]
      by_cases hreset : s.llci.state = .inReset
      · rw [if_pos hreset] at h
        simp only [if_pos hreset]
        exact camInReset_delivers sl _ _ hmax h
      · rw [if_neg hreset] at h
        simp only [if_neg hreset]
        exact ⟨none, true, unchanged_delivers sl h⟩
  | initialising =>
    simp only [hcam] at h ⊢
    exact ⟨none, true, unchanged_delivers sl h⟩
  | failed =>
    simp only [hcam] at h ⊢
    exact ⟨none, true, unchanged_delivers sl h⟩

theorem camPoll_delivers_added : ∃ s', camPoll (.create (tlCreate 1 2 true) 5 0) (readyEnv true) = some s' ∧
    ∃ slot tc calls, s'.host.tl.calls = [] ++ calls ∧
      (CamStack.mk (.create 5 0) ⟨2, fun _ => ⟨.idle, 0, 0, 0, none⟩, true, 0⟩).step (.poll .ready .ready slot tc) =
        ⟨s'.llci, deliver ⟨2, fun _ => ⟨.idle, 0, 0, 0, none⟩, true, 0⟩ calls⟩ := by
  obtain ⟨s', hs'⟩ : ∃ s', camPoll (.create (tlCreate 1 2 true) 5 0) (readyEnv true) = some s' := ⟨_, rfl⟩
  exact ⟨s', hs', camPoll_delivers _ rfl (.inl rfl) (by decide) hs'⟩

/-! ### Runs -/

def CamStack.create (cafd : ℕ) (slotnum : UInt8) (sl : Sl) : CamStack := ⟨Llci.create cafd slotnum, sl⟩

/-- **The session numbers.**  Above every empty table with 16-bit numbers, in every run in which no other
version of a limited resource is requested while it has a session, every state has its numbers right. -/
theorem sessionTable_of_exactVersion {sl : Sl} (hmax : sl.maxSessions ≤ 2 ^ 16)
    (hcb : sl.hasSessionCallback = true) (hidle : ∀ n < sl.maxSessions, (sl.sessions n).state = .idle)
    (cafd : ℕ) (slotnum : UInt8) (ops : List CamOp)
    (hg : Along (fun s o => some (CamStack.step s o)) ExactVersion (CamStack.create cafd slotnum sl) ops) :
    SessionTable (ops.foldl CamStack.step (CamStack.create cafd slotnum sl)) := by
  have hcreate : CamInv (CamStack.create cafd slotnum sl) :=
    camInv_of_idle hmax hcb (fun _ => rfl) hidle Numbers.get_clear
  have hrun : ∀ (ops : List CamOp) (s : CamStack),
      ops.foldlM (fun s o => some (CamStack.step s o)) s = some (ops.foldl CamStack.step s) := by
    intro ops
    induction ops with
    | nil => exact fun _ => rfl
    | cons o os ih => exact fun s => ih (s.step o)
  have hinv := Along.invariant (I := CamInv) (G := ExactVersion)
    (fun s o s' hi hgo hs => by
      obtain rfl := Option.some.inj hs
      exact camInv_step hi hgo) ops _ _ hcreate hg (hrun ops _)
  exact hinv.sessionTable

/-- A CAM on slot 0, and requests for the application information resource on connection 1: the bytes
`91 04`, and the id. -/
def insertAnd (ids : List (List UInt8)) : List CamOp :=
  [.poll .ready .ready none true, .poll .ready .ready (some 0) true] ++
    ids.map fun id => .transport .data 0 1 ([0x91, 4] ++ id) 0 true

/-- The resource is requested in the supported version, twice: the second request is refused. -/
theorem sessionTable_of_same_version :
    Along (fun s o => some (CamStack.step s o)) ExactVersion (CamStack.create 3 0 ⟨4, oneSession.sessions, true, 0⟩)
      (insertAnd [[0, 2, 0, 0x41], [0, 2, 0, 0x41]]) ∧
    SessionTable ((insertAnd [[0, 2, 0, 0x41], [0, 2, 0, 0x41]]).foldl CamStack.step
      (CamStack.create 3 0 ⟨4, oneSession.sessions, true, 0⟩)) := by
  have hg : Along (fun s o => some (CamStack.step s o)) ExactVersion
      (CamStack.create 3 0 ⟨4, oneSession.sessions, true, 0⟩) (insertAnd [[0, 2, 0, 0x41], [0, 2, 0, 0x41]]) := by
    have hid : ∀ requested, decodeSpdu [0x91, 4, 0, 2, 0, 0x41] = some (.openSessionRequest requested) →
        requested = Limited.ai.id := by
      intro requested hd
      exact (Received.openSessionRequest.inj (Option.some.inj hd)).symm
    have hsame : ∀ l : Limited, sameResource Limited.ai.id l.id = true → l = .ai := by
      intro l hs
      cases l <;> first | rfl | exact absurd hs (by decide)
    have hexact : ∀ s : CamStack, s.llci.tlSlotId = 0 →
        ExactVersion s (.transport .data 0 1 [0x91, 4, 0, 2, 0, 0x41] 0 true) := by
      intro s hs requested hd
      rw [hid requested hd]
      refine ⟨hs.symm, fun l hl hne => absurd ?_ hne⟩
      rw [hsame l hl]
    simp only [insertAnd, List.map_cons, List.map_nil, List.cons_append, List.nil_append, along_cons_total]
    exact ⟨trivial, trivial, hexact _ rfl, hexact _ rfl, trivial⟩
  exact ⟨hg, sessionTable_of_exactVersion (by decide) rfl (fun _ _ => rfl) 3 0 _ hg⟩

/-- While a session of version 1 is open version 2 is requested: there are two sessions, and the number of
the first is lost. -/
theorem not_sessionTable_other_version :
    ¬ SessionTable ((insertAnd [[0, 2, 0, 0x41], [0, 2, 0, 0x42]]).foldl CamStack.step
      (CamStack.create 3 0 ⟨4, oneSession.sessions, true, 0⟩)) := by
  intro h
  exact absurd (h.one .ai 1 2 ⟨by decide, by decide, by decide⟩ ⟨by decide, by decide, by decide⟩) (by decide)

end BgtDvb.En50221
