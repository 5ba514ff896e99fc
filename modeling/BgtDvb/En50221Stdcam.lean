import BgtDvb.En50221Chain
import BgtDvb.En50221Host
import BgtDvb.Lib.GuardedRun

/-!
# The slot of a standard CAM

`en50221_stdcam_llci.c` watches one CAM: when it is there it is reset, a slot is registered for it with the
transport layer and a connection is opened on the slot; when it is gone the slot is destroyed.

* `slotSound_of_connects` — **PROVED**: it does in every run in which a slot that was registered gets its
  connection, and keeps one while the CAM is there.

When the connection fails, `tl_slot_id` is set to -1 before it is passed to `en50221_tl_destroy_slot`.
-/

namespace BgtDvb.En50221

open BgtDvb.GuardedRun

/-! ### The state -/

/-- `EN50221_STDCAM_CAM_*`. -/
inductive CamStatus where
  | none | inReset | ok | bad
  deriving Repr, DecidableEq

/-- `DVBCA_CAMSTATE_*`, or a failed request. -/
inductive CamState where
  | missing | initialising | ready | failed
  deriving Repr, DecidableEq

/-- The session numbers, -1 for none. -/
structure Numbers where
  datetime : ℤ
  ai : ℤ
  ca : ℤ
  mmi : ℤ
  deriving Repr, DecidableEq

def Numbers.clear : Numbers := ⟨-1, -1, -1, -1⟩

/-- `struct en50221_stdcam_llci`. -/
structure Llci where
  cafd : ℕ
  slotnum : UInt8
  state : CamStatus
  tlSlotId : ℤ
  numbers : Numbers
  deriving Repr, DecidableEq

/-- `en50221_stdcam_llci_create`. -/
def Llci.create (cafd : ℕ) (slotnum : UInt8) : Llci := ⟨cafd, slotnum, .none, -1, .clear⟩

/-- The object and the transport layer.  `owned`: the slots that the object has registered and that were
not destroyed since; `destroys`: the ids it passed to `en50221_tl_destroy_slot`, each with the slots owned
at that time. -/
structure Stdcam where
  host : Host
  llci : Llci
  owned : List ℕ
  destroys : List (ℕ × List ℕ)

/-! ### The functions -/

/-- `en50221_tl_destroy_slot` with an `int`, which becomes a `uint8_t`. -/
def Stdcam.destroy (s : Stdcam) (id : ℤ) : Option Stdcam :=
  let i := (UInt8.ofInt id).toNat
  (destroySlot s.host i).map fun h =>
    { s with host := h, owned := s.owned.erase i, destroys := s.destroys ++ [(i, s.owned)] }

/-- `llci_cam_removed`. -/
def camRemoved (s : Stdcam) : Option Stdcam :=
  if s.llci.tlSlotId ≠ -1 then
    (s.destroy s.llci.tlSlotId).map fun s =>
      { s with llci := { s.llci with tlSlotId := -1, numbers := .clear, state := .none } }
  else some { s with llci := { s.llci with state := .none } }

/-- `llci_cam_added`. -/
def camAdded (s : Stdcam) : Option Stdcam :=
  (if s.llci.tlSlotId ≠ -1 then camRemoved s else some s).map fun s =>
    { s with llci := { s.llci with state := .inReset } }

/-- The slot that `llci_cam_in_reset` registers. -/
def camRegister (s : Stdcam) : ℤ × Stdcam :=
  let r := registerSlot s.host s.llci.cafd s.llci.slotnum
  (r.1, { s with
    host := r.2
    llci := { s.llci with tlSlotId := r.1 }
    owned := if r.1 < 0 then s.owned else r.1.toNat :: s.owned })

/-- `llci_cam_in_reset`.  `cam`: the state of the CAM as it asks for it again; `mem`: whether
`en50221_tl_new_tc` gets memory. -/
def camInReset (s : Stdcam) (cam : CamState) (mem : Bool) : Option Stdcam :=
  if cam ≠ .ready then some s
  else
    let r := camRegister s
    if r.1 < 0 then some { r.2 with llci := { r.2.llci with state := .bad } }
    else
      let t := newTc r.2.host (UInt8.ofInt r.2.llci.tlSlotId).toNat mem
      let s := { r.2 with host := t.2 }
      if t.1 < 0 then
        Stdcam.destroy { s with llci := { s.llci with state := .bad, tlSlotId := -1 } } (-1)
      else some { s with llci := { s.llci with state := .ok } }

/-- What happens outside during a poll: the state of the CAM, once and again, memory for a connection, the
device, the clock and what the modules sent for `en50221_tl_poll`; the session numbers as the callbacks
made by it leave them; and what the date and time resource passes down to `en50221_tl_send_data`, if it is
due. -/
structure PollEnv where
  cam : CamState
  camAgain : CamState
  mem : Bool
  link : Link
  clock : ConnId → Clock
  rd : ℕ → SlotRead
  numbers : Numbers
  datetime : Option (UInt8 × UInt8 × Bool × List UInt8)

/-- The switch of `en50221_stdcam_llci_poll`. -/
def camPoll (s : Stdcam) (env : PollEnv) : Option Stdcam :=
  match env.cam with
  | .missing => if s.llci.state ≠ .none then camRemoved s else some s
  | .ready =>
    if s.llci.state = .none then camAdded s
    else if s.llci.state = .inReset then camInReset s env.camAgain env.mem
    else some s
  | .initialising | .failed => some s

def sendDatetime (h : Host) (llci : Llci) (msg : Option (UInt8 × UInt8 × Bool × List UInt8)) : Host :=
  if llci.numbers.datetime ≠ -1 then
    match msg with
    | none => h
    | some (slot, conn, mem, data) => (sendData h slot conn mem data).2
  else h

/-- `en50221_stdcam_llci_poll`. -/
def llciPoll (s : Stdcam) (env : PollEnv) : Option Stdcam :=
  match camPoll s env with
  | none => none
  | some s =>
    match poll env.link env.clock env.rd s.host with
    | none => none
    | some (_, h) =>
      let llci := { s.llci with numbers := env.numbers }
      some { s with host := sendDatetime h llci env.datetime, llci := llci }

/-! ### Runs -/

/-- A poll, or a call that another user of the transport layer makes. -/
inductive StdcamOp where
  | poll (env : PollEnv)
  | other (link : Link) (op : HostOp)

def Stdcam.step (s : Stdcam) : StdcamOp → Option Stdcam
  | .poll env => llciPoll s env
  | .other link op => (s.host.step link op).map fun h => { s with host := h }

def Host.connected (h : Host) (i : ℕ) : Prop :=
  ∃ j < h.tl.maxConnections, (h.tl.conn (i, j)).state ≠ .idle

/-- **Slot ownership**: at most one slot is held, `tl_slot_id` names it, and the transport layer has it
registered; an object that is in order has a connection on it; an object without a CAM holds none; only
slots that were held were destroyed. -/
structure SlotSound (s : Stdcam) : Prop where
  one : s.owned.length ≤ 1
  held_iff : s.owned ≠ [] ↔ s.llci.tlSlotId ≠ -1
  id_eq : ∀ i ∈ s.owned, s.llci.tlSlotId = i
  registered : ∀ i ∈ s.owned, s.host.inUse i = true
  connected : s.llci.state = .ok → ∃ i ∈ s.owned, s.host.connected i
  removed : s.llci.state = .none → s.owned = []
  destroyed : ∀ e ∈ s.destroys, e.1 ∈ e.2

/-- A call of another user that is not about a slot of this object. -/
def HostOp.leaves (owned : List ℕ) : HostOp → Prop
  | .registerSlot _ _ | .sendData _ _ _ _ | .sendDatav _ _ _ _ => True
  | .destroySlot i | .newTc i _ | .delTc i _ _ => i.toNat ∉ owned
  | .received _ _ | .error _ _ | .transmit _ | .askPoll _ _ | .timeout _ _ => False

/-- A slot that is registered gets its connection; `en50221_tl_poll` does not end the last connection of the
slot; other users of the transport layer keep to their own slots. -/
def Connects (s : Stdcam) : StdcamOp → Prop
  | .poll env =>
    (env.cam = .ready → s.llci.state = .inReset → env.camAgain = .ready → 0 ≤ (camRegister s).1 →
      0 ≤ (newTc (camRegister s).2.host (camRegister s).1.toNat env.mem).1) ∧
    ∀ s₁ ret h, camPoll s env = some s₁ → poll env.link env.clock env.rd s₁.host = some (ret, h) →
      ∀ i ∈ s₁.owned, s₁.host.connected i → h.connected i
  | .other _ op => op.leaves s.owned

/-! ### What the calls leave of a slot -/

/-- The slot and its connections are as they were. -/
structure Host.KeepsSlot (i : ℕ) (h h' : Host) : Prop where
  max_eq : h'.maxSlots = h.maxSlots
  slot_eq : h'.slots i = h.slots i
  conns_eq : h'.tl.maxConnections = h.tl.maxConnections
  state_eq : ∀ j, (h'.tl.conn (i, j)).state = (h.tl.conn (i, j)).state

theorem Host.KeepsSlot.refl (i : ℕ) (h : Host) : h.KeepsSlot i h := ⟨rfl, rfl, rfl, fun _ => rfl⟩

variable {h h' : Host} {i : ℕ} {s s' : Stdcam}

theorem Host.KeepsSlot.inUse (hk : h.KeepsSlot i h') : h'.inUse i = h.inUse i := by
  unfold Host.inUse
  rw [hk.slot_eq]

theorem Host.KeepsSlot.connected (hk : h.KeepsSlot i h') (hc : h.connected i) : h'.connected i := by
  obtain ⟨j, hj, hstate⟩ := hc
  refine ⟨j, ?_, ?_⟩
  · rw [hk.conns_eq]
    exact hj
  · rw [hk.state_eq]
    exact hstate

theorem keepsSlot_sendRefused {k : ConnId} (i : ℕ) (hr : sendRefused h k = some h') : h.KeepsSlot i h' := by
  unfold sendRefused at hr
  split_ifs at hr
  all_goals
    obtain rfl := Option.some.inj hr
    exact ⟨rfl, rfl, rfl, fun _ => rfl⟩

theorem keepsSlot_sendData (i : ℕ) (h : Host) (slot conn : UInt8) (mem : Bool) (data : List UInt8) :
    h.KeepsSlot i (sendData h slot conn mem data).2 := by
  unfold sendData
  dsimp only
  split
  · rename_i h' hr
    exact keepsSlot_sendRefused i hr
  · split
    · exact ⟨rfl, rfl, rfl, fun _ => rfl⟩
    · split
      · exact ⟨rfl, rfl, rfl, fun _ => rfl⟩
      · exact ⟨rfl, rfl, rfl, fun _ => rfl⟩

theorem keepsSlot_sendDatav {slot conn : UInt8} {mem : Bool} {iov : List (List UInt8)} {r : ℤ × Host}
    (hr : sendDatav h slot conn mem iov = some r) : h.KeepsSlot i r.2 := by
  unfold sendDatav at hr
  dsimp only at hr
  split at hr
  · rename_i h' href
    obtain rfl := Option.some.inj hr
    exact keepsSlot_sendRefused i href
  · split at hr
    · obtain rfl := Option.some.inj hr
      exact ⟨rfl, rfl, rfl, fun _ => rfl⟩
    · split at hr
      · obtain rfl := Option.some.inj hr
        exact ⟨rfl, rfl, rfl, fun _ => rfl⟩
      · split at hr
        · exact absurd hr (by simp)
        · obtain rfl := Option.some.inj hr
          exact ⟨rfl, rfl, rfl, fun _ => rfl⟩

/-- What `en50221_tl_register_slot` does: there is no slot left, or the first unused one is taken. -/
theorem registerSlot_cases (h : Host) (caHndl : ℤ) (slot : UInt8) :
    (registerSlot h caHndl slot = (-1, h.setError outOfSlots)) ∨
    ∃ i : ℕ, i < h.maxSlots ∧ h.inUse i = false ∧ registerSlot h caHndl slot =
      ((i : ℤ), { h with slots := Function.update h.slots i ⟨caHndl, slot⟩ }) := by
  unfold registerSlot
  cases hf : (List.range h.maxSlots).find? fun i => (h.slots i).caHndl = -1 with
  | none => exact .inl rfl
  | some i =>
    have hfree : (h.slots i).caHndl = -1 := by simpa using List.find?_some hf
    refine .inr ⟨i, List.mem_range.mp (List.mem_of_find?_eq_some hf), ?_, rfl⟩
    simp [Host.inUse, hfree]

theorem keepsSlot_registerSlot (huse : h.inUse i = true) (caHndl : ℤ) (slot : UInt8) :
    h.KeepsSlot i (registerSlot h caHndl slot).2 := by
  rcases registerSlot_cases h caHndl slot with heq | ⟨j, -, hfree, heq⟩
  · rw [heq]
    exact ⟨rfl, rfl, rfl, fun _ => rfl⟩
  · rw [heq]
    have hne : i ≠ j := by
      intro hij
      rw [hij, hfree] at huse
      exact absurd huse (by decide)
    exact ⟨rfl, Function.update_of_ne hne _ _, rfl, fun _ => rfl⟩

/-- What `en50221_tl_destroy_slot` leaves of the transport layer. -/
theorem destroySlot_cases {s : ℕ} (hd : destroySlot h s = some h') :
    h' = h ∨ (s < h.maxSlots ∧ h'.maxSlots = h.maxSlots ∧ h'.tl.maxConnections = h.tl.maxConnections ∧
      h'.slots = Function.update h.slots s { h.slots s with caHndl := -1 } ∧
      ∀ k : ConnId, k.1 ≠ s → h'.tl.conn k = h.tl.conn k) := by
  unfold destroySlot at hd
  split at hd
  · exact .inl (Option.some.inj hd).symm
  · rename_i hs
    split at hd
    · exact absurd hd (by simp)
    · obtain rfl := Option.some.inj hd
      have hcall : ∀ (tl : Tl) (k : ConnId), (tl.call .slotClose [] k).maxConnections = tl.maxConnections ∧
          (tl.call .slotClose [] k).conn = tl.conn := by
        intro tl k
        unfold Tl.call
        split
        · exact ⟨rfl, rfl⟩
        · exact ⟨rfl, rfl⟩
      refine .inr ⟨Nat.not_le.mp hs, rfl, (hcall _ _).1, rfl, ?_⟩
      intro k hk
      show ((h.clearSlot s).tl.call .slotClose [] (s, 0)).conn k = h.tl.conn k
      rw [(hcall _ _).2]
      exact if_neg fun hc => hk hc.1

theorem keepsSlot_destroySlot {s : ℕ} (hne : i ≠ s) (hd : destroySlot h s = some h') : h.KeepsSlot i h' := by
  rcases destroySlot_cases hd with rfl | ⟨-, hmax, hconns, hslots, hconn⟩
  · exact .refl i h'
  · refine ⟨hmax, ?_, hconns, fun j => ?_⟩
    · rw [hslots]
      exact Function.update_of_ne hne _ _
    · rw [hconn (i, j) hne]

/-- What `en50221_tl_new_tc` does: the slots stay; connections of other slots stay; if it succeeds, the slot
has a connection. -/
theorem newTc_spec (h : Host) (s : ℕ) (mem : Bool) :
    (newTc h s mem).2.slots = h.slots ∧ (newTc h s mem).2.maxSlots = h.maxSlots ∧
    (∀ i, i ≠ s → h.KeepsSlot i (newTc h s mem).2) ∧
    (0 ≤ (newTc h s mem).1 → (newTc h s mem).2.connected s) := by
  have hfails : ¬ (0 : ℤ) ≤ -1 := by decide
  unfold newTc
  split
  · exact ⟨rfl, rfl, fun i _ => ⟨rfl, rfl, rfl, fun _ => rfl⟩, fun h0 => absurd h0 hfails⟩
  · split
    · exact ⟨rfl, rfl, fun i _ => ⟨rfl, rfl, rfl, fun _ => rfl⟩, fun h0 => absurd h0 hfails⟩
    · cases halloc : allocNewTc h.tl s with
      | none =>
        exact ⟨rfl, rfl, fun i _ => ⟨rfl, rfl, rfl, fun _ => rfl⟩, fun h0 => absurd h0 hfails⟩
      | some p =>
        obtain ⟨conid, tl⟩ := p
        obtain ⟨-, hlt, rfl⟩ := allocNewTc_eq halloc
        have hother : ∀ i, i ≠ s → ∀ j, ((h.tl.setConn (s, conid)
            { h.tl.conn (s, conid) with state := .inCreation, chain := .null, bufferLength := 0 }).conn
            (i, j)).state = (h.tl.conn (i, j)).state := by
          intro i hi j
          have hne : (i, j) ≠ (s, conid) := fun heq => hi (Prod.mk.inj heq).1
          exact congrArg Connection.state (Function.update_of_ne hne _ _)
        dsimp only
        split
        · exact ⟨rfl, rfl, fun i hi => ⟨rfl, rfl, rfl, hother i hi⟩, fun h0 => absurd h0 hfails⟩
        · refine ⟨rfl, rfl, fun i hi => ⟨rfl, rfl, rfl, hother i hi⟩, fun _ => ⟨conid, hlt, ?_⟩⟩
          show (Function.update h.tl.conn (s, conid) _ (s, conid)).state ≠ .idle
          rw [Function.update_self]
          simp

theorem delTc_spec (h : Host) (k : ConnId) (mem : Bool) :
    (delTc h k mem).2.maxSlots = h.maxSlots ∧ ∀ i, i ≠ k.1 → h.KeepsSlot i (delTc h k mem).2 := by
  have hset : ∀ i, i ≠ k.1 → h.KeepsSlot i
      { queueMessage h k [0x84, 1, UInt8.ofNat k.2] with
        tl := (queueMessage h k [0x84, 1, UInt8.ofNat k.2]).tl.setState k .activeDeletequeued } := by
    refine fun i hne => ⟨rfl, rfl, rfl, fun j => ?_⟩
    have hk : (i, j) ≠ k := fun heq => hne (congrArg Prod.fst heq)
    show (Function.update h.tl.conn k _ (i, j)).state = _
    rw [Function.update_of_ne hk]
  unfold delTc
  split_ifs
  all_goals
    refine ⟨rfl, ?_⟩
    first | exact hset | exact fun i _ => ⟨rfl, rfl, rfl, fun _ => rfl⟩

theorem maxSlots_other {link : Link} {op : HostOp} {owned : List ℕ} (hop : op.leaves owned)
    (hs : h.step link op = some h') : h'.maxSlots = h.maxSlots := by
  cases op with
  | registerSlot caHndl slot =>
    obtain rfl := Option.some.inj hs
    rcases registerSlot_cases h caHndl slot with heq | ⟨j, -, -, heq⟩
    · rw [heq]
      rfl
    · rw [heq]
  | destroySlot s =>
    rcases destroySlot_cases hs with rfl | ⟨-, hmax, -⟩
    · rfl
    · exact hmax
  | newTc s mem =>
    obtain rfl := Option.some.inj hs
    exact (newTc_spec h s.toNat mem).2.1
  | delTc s conn mem =>
    obtain rfl := Option.some.inj hs
    exact (delTc_spec h (s.toNat, conn.toNat) mem).1
  | sendData s conn mem data =>
    obtain rfl := Option.some.inj hs
    exact (keepsSlot_sendData 0 h s conn mem data).max_eq
  | sendDatav s conn mem iov =>
    obtain ⟨r, hr, rfl⟩ := Option.map_eq_some_iff.mp hs
    exact (keepsSlot_sendDatav (i := 0) hr).max_eq
  | received | error | transmit | askPoll | timeout => exact absurd hop (by simp [HostOp.leaves])

/-- **Another user's call** leaves a slot of this object as it is. -/
theorem keepsSlot_other {link : Link} {op : HostOp} {owned : List ℕ} (hi : i ∈ owned) (huse : h.inUse i = true)
    (hop : op.leaves owned) (hs : h.step link op = some h') : h.KeepsSlot i h' := by
  cases op with
  | registerSlot caHndl slot =>
    obtain rfl := Option.some.inj hs
    exact keepsSlot_registerSlot huse caHndl slot
  | destroySlot s =>
    refine keepsSlot_destroySlot (fun his => hop ?_) hs
    rw [← his]
    exact hi
  | newTc s mem =>
    obtain rfl := Option.some.inj hs
    refine (newTc_spec h s.toNat mem).2.2.1 i (fun his => hop ?_)
    rw [← his]
    exact hi
  | delTc s conn mem =>
    obtain rfl := Option.some.inj hs
    refine (delTc_spec h _ mem).2 i (fun his => hop ?_)
    rw [← show i = s.toNat from his]
    exact hi
  | sendData s conn mem data =>
    obtain rfl := Option.some.inj hs
    exact keepsSlot_sendData i h s conn mem data
  | sendDatav s conn mem iov =>
    obtain ⟨r, hr, rfl⟩ := Option.map_eq_some_iff.mp hs
    exact keepsSlot_sendDatav hr
  | received | error | transmit | askPoll | timeout => exact absurd hop (by simp [HostOp.leaves])

/-! ### The invariant -/

/-- Either nothing is held, or the slot is held that `tl_slot_id` names, with a connection. -/
inductive Held (s : Stdcam) : Prop
  | nothing (id : s.llci.tlSlotId = -1) (owned : s.owned = []) (state : s.llci.state ≠ .ok)
  | slot (i : ℕ) (id : s.llci.tlSlotId = i) (owned : s.owned = [i]) (lt : i < s.host.maxSlots)
      (inUse : s.host.inUse i = true) (connected : s.host.connected i) (state : s.llci.state = .ok)

structure StdcamInv (s : Stdcam) : Prop where
  max_lt : s.host.maxSlots < 256
  held : Held s
  destroyed : ∀ e ∈ s.destroys, e.1 ∈ e.2

theorem StdcamInv.slotSound (hi : StdcamInv s) : SlotSound s := by
  cases hi.held with
  | nothing id owned state =>
    refine ⟨?_, ?_, ?_, ?_, fun hok => absurd hok state, fun _ => owned, hi.destroyed⟩
    · simp [owned]
    · simp [owned, id]
    · simp [owned]
    · simp [owned]
  | slot i id owned lt inUse connected state =>
    refine ⟨?_, ?_, ?_, ?_, ?_, ?_, hi.destroyed⟩
    · simp [owned]
    · refine iff_of_true (by simp [owned]) ?_
      rw [id]
      omega
    · simp [owned, id]
    · simp [owned, inUse]
    · exact fun _ => ⟨i, by simp [owned], connected⟩
    · intro hnone
      rw [state] at hnone
      exact absurd hnone (by decide)

theorem StdcamInv.of_host (hi : StdcamInv s) (numbers : Numbers) (hmax : h.maxSlots = s.host.maxSlots)
    (huse : ∀ i ∈ s.owned, h.inUse i = s.host.inUse i) (hconn : ∀ i ∈ s.owned, s.host.connected i → h.connected i) :
    StdcamInv { s with host := h, llci := { s.llci with numbers := numbers } } := by
  refine ⟨?_, ?_, hi.destroyed⟩
  · show h.maxSlots < 256
    rw [hmax]
    exact hi.max_lt
  · cases hi.held with
    | nothing id owned state => exact .nothing id owned state
    | slot i id owned lt inUse connected state =>
      have hmem : i ∈ s.owned := by simp [owned]
      refine .slot i id owned ?_ ?_ (hconn i hmem connected) state
      · show i < h.maxSlots
        rw [hmax]
        exact lt
      · show h.inUse i = true
        rw [huse i hmem]
        exact inUse

theorem camRemoved_spec (hi : StdcamInv s) (h : camRemoved s = some s') :
    StdcamInv s' ∧ s'.llci.tlSlotId = -1 ∧ s'.owned = [] := by
  unfold camRemoved at h
  cases hi.held with
  | nothing id owned state =>
    rw [if_neg (by simp [id])] at h
    obtain rfl := Option.some.inj h
    exact ⟨⟨hi.max_lt, .nothing id owned (by simp), hi.destroyed⟩, id, owned⟩
  | slot i id owned lt inUse connected state =>
    rw [if_pos (by rw [id]; omega)] at h
    obtain ⟨s₁, hs₁, rfl⟩ := Option.map_eq_some_iff.mp h
    obtain ⟨h₁, hd, rfl⟩ := Option.map_eq_some_iff.mp hs₁
    have hbyte : (UInt8.ofInt s.llci.tlSlotId).toNat = i := by
      have hlt := hi.max_lt
      rw [id, UInt8.ofInt, UInt8.toNat_ofNat']
      omega
    rw [hbyte] at hd
    have hmax : h₁.maxSlots = s.host.maxSlots := by
      rcases destroySlot_cases hd with rfl | ⟨-, hmax, -⟩
      · rfl
      · exact hmax
    have hempty : s.owned.erase (UInt8.ofInt s.llci.tlSlotId).toNat = [] := by
      rw [hbyte, owned]
      simp
    refine ⟨⟨?_, .nothing rfl hempty (by simp), ?_⟩, rfl, hempty⟩
    · show h₁.maxSlots < 256
      rw [hmax]
      exact hi.max_lt
    · intro e he
      rcases List.mem_append.mp he with he | he
      · exact hi.destroyed e he
      · rw [List.mem_singleton.mp he, hbyte, owned]
        simp

theorem camAdded_inv (hi : StdcamInv s) (h : camAdded s = some s') : StdcamInv s' := by
  unfold camAdded at h
  obtain ⟨s₁, hs₁, rfl⟩ := Option.map_eq_some_iff.mp h
  have hspec : StdcamInv s₁ ∧ s₁.llci.tlSlotId = -1 ∧ s₁.owned = [] := by
    split at hs₁
    · exact camRemoved_spec hi hs₁
    · rename_i hid
      obtain rfl := Option.some.inj hs₁
      cases hi.held with
      | nothing id owned state => exact ⟨hi, id, owned⟩
      | slot i id owned lt inUse connected state => exact absurd (by rw [id]; omega) hid
  exact ⟨hspec.1.max_lt, .nothing hspec.2.1 hspec.2.2 (by simp), hspec.1.destroyed⟩

theorem camRegister_cases (s : Stdcam) :
    camRegister s = (-1, { s with
      host := s.host.setError outOfSlots
      llci := { s.llci with tlSlotId := -1 } }) ∨
    ∃ i : ℕ, i < s.host.maxSlots ∧ camRegister s = ((i : ℤ), { s with
      host := { s.host with slots := Function.update s.host.slots i ⟨s.llci.cafd, s.llci.slotnum⟩ }
      llci := { s.llci with tlSlotId := i }
      owned := i :: s.owned }) := by
  rcases registerSlot_cases s.host s.llci.cafd s.llci.slotnum with heq | ⟨i, hlt, -, heq⟩
  · exact .inl (by simp [camRegister, heq])
  · have hneg : ¬ (i : ℤ) < 0 := by omega
    exact .inr ⟨i, hlt, by simp [camRegister, heq, hneg]⟩

/-- The CAM is ready after its reset: a slot is registered, and it gets its connection. -/
theorem camInReset_inv {cam : CamState} {mem : Bool} (hi : StdcamInv s) (hstate : s.llci.state = .inReset)
    (hconnects : cam = .ready → 0 ≤ (camRegister s).1 →
      0 ≤ (newTc (camRegister s).2.host (camRegister s).1.toNat mem).1) (h : camInReset s cam mem = some s') :
    StdcamInv s' := by
  have hid : s.llci.tlSlotId = -1 ∧ s.owned = [] := by
    cases hi.held with
    | nothing id owned state => exact ⟨id, owned⟩
    | slot i id owned lt inUse connected state =>
      rw [state] at hstate
      exact absurd hstate (by decide)
  unfold camInReset at h
  split at h
  · obtain rfl := Option.some.inj h
    exact hi
  · rename_i hcam
    have hready : cam = .ready := not_not.mp hcam
    rcases camRegister_cases s with hreg | ⟨i, hlt, hreg⟩
    · -- no slot is left
      rw [hreg] at h
      obtain rfl := Option.some.inj h
      exact ⟨hi.max_lt, .nothing rfl hid.2 (by simp), hi.destroyed⟩
    · have hneg : ¬ (i : ℤ) < 0 := by omega
      rw [hid.2] at hreg
      have hbyte : (UInt8.ofInt (i : ℤ)).toNat = i := by
        have hmax := hi.max_lt
        rw [UInt8.ofInt, UInt8.toNat_ofNat']
        omega
      rw [hreg] at h hconnects
      have hnew := hconnects hready (by show (0 : ℤ) ≤ i; omega)
      simp only [hneg, if_false, hbyte] at h
      rw [if_neg (by simpa using hnew)] at h
      obtain rfl := Option.some.inj h
      obtain ⟨hslots, hmax, -, hconn⟩ := newTc_spec
        { s.host with slots := Function.update s.host.slots i ⟨s.llci.cafd, s.llci.slotnum⟩ } i mem
      refine ⟨?_, .slot i rfl rfl ?_ ?_ (hconn (by simpa using hnew)) rfl, hi.destroyed⟩
      · show Host.maxSlots _ < 256
        rw [hmax]
        exact hi.max_lt
      · show i < Host.maxSlots _
        rw [hmax]
        exact hlt
      · show Host.inUse _ i = true
        unfold Host.inUse
        rw [hslots]
        show decide ((Function.update s.host.slots i ⟨s.llci.cafd, s.llci.slotnum⟩ i).caHndl ≠ -1) = true
        rw [Function.update_self]
        exact decide_eq_true (by show (s.llci.cafd : ℤ) ≠ -1; omega)

theorem camPoll_inv {env : PollEnv} (hi : StdcamInv s) (hc : Connects s (.poll env)) (h : camPoll s env = some s') :
    StdcamInv s' := by
  unfold camPoll at h
  split at h
  · split at h
    · exact (camRemoved_spec hi h).1
    · obtain rfl := Option.some.inj h
      exact hi
  · rename_i hcam
    split at h
    · exact camAdded_inv hi h
    · split at h
      · rename_i hstate
        exact camInReset_inv hi hstate (fun hagain => hc.1 hcam hstate hagain) h
      · obtain rfl := Option.some.inj h
        exact hi
  · obtain rfl := Option.some.inj h
    exact hi
  · obtain rfl := Option.some.inj h
    exact hi

theorem keepsSlot_sendDatetime (i : ℕ) (h : Host) (llci : Llci)
    (msg : Option (UInt8 × UInt8 × Bool × List UInt8)) : h.KeepsSlot i (sendDatetime h llci msg) := by
  unfold sendDatetime
  split
  · split
    · exact .refl i h
    · exact keepsSlot_sendData i h _ _ _ _
  · exact .refl i h

/-- **One step.** -/
theorem stdcamInv_step {op : StdcamOp} (hi : StdcamInv s) (hc : Connects s op) (h : s.step op = some s') :
    StdcamInv s' := by
  cases op with
  | poll env =>
    have h : llciPoll s env = some s' := h
    unfold llciPoll at h
    cases hcam : camPoll s env with
    | none =>
      rw [hcam] at h
      exact absurd h (by simp)
    | some s₁ =>
      rw [hcam] at h
      have hi₁ := camPoll_inv hi hc hcam
      cases hpoll : poll env.link env.clock env.rd s₁.host with
      | none =>
        simp only [hpoll] at h
        exact absurd h (by simp)
      | some r =>
        obtain ⟨ret, h₁⟩ := r
        simp only [hpoll] at h
        obtain rfl := Option.some.inj h
        obtain ⟨hslots, hmax⟩ := poll_sameRegistered hpoll
        have hkeep := fun i => keepsSlot_sendDatetime i h₁ { s₁.llci with numbers := env.numbers } env.datetime
        refine hi₁.of_host env.numbers ((hkeep 0).max_eq.trans hmax) (fun i _ => ?_) (fun i hi hconn => ?_)
        · rw [(hkeep i).inUse]
          unfold Host.inUse
          rw [hslots]
        · exact (hkeep i).connected (hc.2 s₁ ret h₁ hcam hpoll i hi hconn)
  | other link op =>
    obtain ⟨h₁, hstep, rfl⟩ := Option.map_eq_some_iff.mp h
    have huse : ∀ i ∈ s.owned, s.host.inUse i = true := hi.slotSound.registered
    have hkeep : ∀ i ∈ s.owned, s.host.KeepsSlot i h₁ := fun i hmem =>
      keepsSlot_other hmem (huse i hmem) hc hstep
    exact hi.of_host s.llci.numbers (maxSlots_other hc hstep) (fun i hmem => (hkeep i hmem).inUse)
      (fun i hmem => (hkeep i hmem).connected)

/-! ### Runs -/

def Stdcam.create (h : Host) (cafd : ℕ) (slotnum : UInt8) : Stdcam := ⟨h, Llci.create cafd slotnum, [], []⟩

theorem stdcamInv_create (hmax : h.maxSlots < 256) (cafd : ℕ) (slotnum : UInt8) :
    StdcamInv (Stdcam.create h cafd slotnum) :=
  ⟨hmax, .nothing rfl rfl (by simp [Stdcam.create, Llci.create]), by simp [Stdcam.create]⟩

/-- **Slot ownership.**  On any transport layer, in every run in which a registered slot gets its
connection and keeps one during `en50221_tl_poll`, every state is sound. -/
theorem slotSound_of_connects {h : Host} (hmax : h.maxSlots < 256) (cafd : ℕ) (slotnum : UInt8)
    (ops : List StdcamOp) (s : Stdcam)
    (hc : Along Stdcam.step Connects (Stdcam.create h cafd slotnum) ops)
    (hrun : ops.foldlM Stdcam.step (Stdcam.create h cafd slotnum) = some s) : SlotSound s :=
  (Along.invariant (fun _ _ _ hi hg hs => stdcamInv_step hi hg hs) ops _ s
    (stdcamInv_create hmax cafd slotnum) hc hrun).slotSound

def readyEnv (mem : Bool) : PollEnv where
  cam := .ready
  camAgain := .ready
  mem := mem
  link := ⟨fun _ => true, fun _ => 0⟩
  clock := fun _ => ⟨false, false⟩
  rd := fun _ => .nothing
  numbers := .clear
  datetime := none

/-- A CAM is put in and gets its slot and connection. -/
theorem slotSound_of_inserted :
    Along Stdcam.step Connects (Stdcam.create (tlCreate 1 2 true) 3 0) [.poll (readyEnv true), .poll (readyEnv true)] ∧
    ∃ s, [StdcamOp.poll (readyEnv true), .poll (readyEnv true)].foldlM Stdcam.step
      (Stdcam.create (tlCreate 1 2 true) 3 0) = some s ∧ s.llci.state = .ok ∧ SlotSound s := by
  have hc : Along Stdcam.step Connects (Stdcam.create (tlCreate 1 2 true) 3 0)
      [.poll (readyEnv true), .poll (readyEnv true)] := by
    refine ⟨⟨fun _ hstate => absurd hstate (by decide), ?_⟩, ?_⟩
    · intro s₁ ret h hcam _ i hi
      obtain rfl := Option.some.inj hcam
      exact absurd hi (by simp [Stdcam.create])
    · intro s₁ hs₁
      obtain rfl := Option.some.inj hs₁
      refine ⟨⟨fun _ _ _ _ => by decide, ?_⟩, fun _ _ => trivial⟩
      intro s₂ ret h hcam hpoll i hi _
      obtain rfl := Option.some.inj hcam
      have hi : i = 0 := List.mem_singleton.mp hi
      rw [hi]
      obtain ⟨-, rfl⟩ := Prod.mk.inj (Option.some.inj hpoll)
      exact ⟨1, by decide, by decide⟩
  refine ⟨hc, _, rfl, rfl, ?_⟩
  exact slotSound_of_connects (by decide) 3 0 _ _ hc rfl

/-- A CAM is put in and there is no memory for the connection: the slot stays registered, nothing names
it, and slot 255 is destroyed in its place. -/
theorem not_slotSound_no_memory :
    ∃ s, [StdcamOp.poll (readyEnv true), .poll (readyEnv false)].foldlM Stdcam.step
      (Stdcam.create (tlCreate 1 2 true) 3 0) = some s ∧ s.owned = [0] ∧ s.host.inUse 0 = true ∧
      s.llci.tlSlotId = -1 ∧ s.destroys = [(255, [0])] ∧ ¬ SlotSound s := by
  refine ⟨_, rfl, rfl, rfl, rfl, rfl, fun hs => ?_⟩
  exact absurd rfl (hs.held_iff.mp (by decide))

end BgtDvb.En50221
