import BgtDvb.En50221Effect
import BgtDvb.En50221Send

/-!
# Connections that are used again

A connection number is given out again once its connection is idle.  `en50221_tl_alloc_new_tc` sets the
state and the chain buffer of the new connection, and takes the send queue and `tx_time` as it finds them:
whoever made the connection idle is to have emptied them.  `en50221_tl_destroy_slot` does.  A T_DELETE_T_C of
the module, its T_D_T_C_REPLY and a response timeout do not; after a deletion `tx_time` is always set.

* `kept_next` — **PROVED**: one quiet step keeps the invariant of every connection;
* `reusable_of_quiet` — **PROVED**: every state of every quiet run has reusable connections only.
-/

namespace BgtDvb.En50221

open BgtDvb.GuardedRun

/-! ### The history of a connection -/

/-- The messages queued on a connection, taken from its queue, and sent on it, since its allocation. -/
structure Since where
  queued : List (List UInt8)
  taken : List (List UInt8)
  wire : List (List UInt8)
  deriving Repr, DecidableEq

/-- The history after a step: it begins anew when an idle connection is allocated. -/
def Since.next (s : Since) (v v' : View) (ws : List (List UInt8)) : Since :=
  let s := if v.state = .idle ∧ v'.state ≠ .idle then ⟨[], [], []⟩ else s
  ⟨s.queued ++ v'.queue.drop v.queue.length,
    s.taken ++ v.queue.take (v.queue.length - v'.queue.length), s.wire ++ ws⟩

/-- The transport layer with the history of its connections. -/
structure Tracked where
  host : Host
  since : ConnId → Since

def Tracked.step (link : Link) (r : Tracked) (op : HostOp) : Option Tracked :=
  (r.host.step link op).map fun h =>
    ⟨h, fun k => (r.since k).next (r.host.view k) (h.view k) (writtenOn link r.host.tl h.tl k)⟩

/-- `en50221_tl_create`. -/
def Tracked.create (maxSlots maxConnections : UInt8) (callback : Bool) : Tracked :=
  ⟨tlCreate maxSlots maxConnections callback, fun _ => ⟨[], [], []⟩⟩

/-- An idle connection is as new; on any other, what was taken from the queue was queued since the
allocation, and T_CREATE_T_C was sent first. -/
structure Reusable (k : ConnId) (v : View) (s : Since) : Prop where
  clean : v.state = .idle → v.queue = [] ∧ v.txTime = 0 ∧ v.chain = .null
  own : v.state ≠ .idle → s.taken <+: s.queued
  first : v.state ≠ .idle → s.wire = [] ∨ s.wire.head? = some (createMsg k)

def QuietTpdu (chosen : Bool) (v : View) (s : Since) (tag : UInt8) : Prop :=
  (tag = 0x83 → v.state = .inCreation → s.wire ≠ []) ∧
  (tag = 0x84 → v.state = .active ∨ v.state = .inDeletion → v.queue = [] ∧ v.txTime = 0) ∧
  (tag = 0x85 → v.state = .inDeletion → v.queue = [] ∧ v.txTime = 0) ∧
  (tag = 0x86 → chosen = false ∧ (v.state ≠ .idle → s.wire ≠ []))

/-- The condition on a step: it does not reach the places where a connection becomes idle without being
cleared, and the module does not use a connection that was not announced to it. -/
def Quiet (r : Tracked) : HostOp → Prop
  | .timeout k late => late = true → (r.host.view k).txTime ≠ 0 →
      (r.host.view k).state ≠ .inCreation ∧ (r.host.view k).state ≠ .inDeletion
  | .received s t => r.host.inUse s = true →
      QuietTpdu (r.host.tl.chooses (t.id s)) (r.host.view (t.id s)) (r.since (t.id s)) t.tag
  | _ => True

instance (chosen : Bool) (v : View) (s : Since) (tag : UInt8) : Decidable (QuietTpdu chosen v s tag) := by
  unfold QuietTpdu
  infer_instance

instance (r : Tracked) (op : HostOp) : Decidable (Quiet r op) := by
  cases op
  all_goals
    unfold Quiet
    infer_instance

/-! ### The invariant of a connection -/

/-- What carries `Reusable` over a step: the queue is what was queued and not yet taken, and a connection on
which nothing was sent is in creation with its T_CREATE_T_C still to come. -/
structure Kept (k : ConnId) (v : View) (s : Since) : Prop where
  clean : v.state = .idle → v.queue = [] ∧ v.txTime = 0 ∧ v.chain = .null
  no_chain : v.state = .inCreation ∨ v.state = .inDeletion → v.chain = .null
  split : v.state ≠ .idle → s.taken ++ v.queue = s.queued
  unsent : v.state ≠ .idle → s.wire = [] → v.state = .inCreation ∧ (v.queue = [] ∨ v.queue = [createMsg k])
  first : v.state ≠ .idle → s.wire ≠ [] → s.wire.head? = some (createMsg k)

theorem Kept.reusable {k : ConnId} {v : View} {s : Since} (h : Kept k v s) : Reusable k v s where
  clean := h.clean
  own := fun hv => ⟨v.queue, h.split hv⟩
  first := fun hv => by
    by_cases hw : s.wire = []
    · exact .inl hw
    · exact .inr (h.first hv hw)

section Next

variable {s : Since} {v v' : View} {ws : List (List UInt8)}

theorem next_of_same_queue (hna : ¬ (v.state = .idle ∧ v'.state ≠ .idle)) (hq : v'.queue = v.queue) :
    s.next v v' ws = ⟨s.queued, s.taken, s.wire ++ ws⟩ := by
  unfold Since.next
  rw [if_neg hna]
  dsimp only
  rw [hq, List.drop_length, Nat.sub_self, List.take_zero, List.append_nil, List.append_nil]

theorem next_of_queued (hna : ¬ (v.state = .idle ∧ v'.state ≠ .idle)) (hq : v'.queue = v.queue ++ [msg]) :
    s.next v v' ws = ⟨s.queued ++ [msg], s.taken, s.wire ++ ws⟩ := by
  unfold Since.next
  rw [if_neg hna]
  dsimp only
  rw [hq, List.drop_left, List.length_append, Nat.sub_eq_zero_of_le (Nat.le_add_right _ _),
    List.take_zero, List.append_nil]

theorem next_of_taken (hna : ¬ (v.state = .idle ∧ v'.state ≠ .idle)) (hq : v.queue = msg :: v'.queue) :
    s.next v v' ws = ⟨s.queued, s.taken ++ [msg], s.wire ++ ws⟩ := by
  have hdrop : v'.queue.drop (v'.queue.length + 1) = [] := List.drop_eq_nil_of_le (Nat.le_succ _)
  unfold Since.next
  rw [if_neg hna]
  dsimp only
  rw [hq, List.length_cons, hdrop, Nat.add_sub_cancel_left, List.append_nil]
  rfl

theorem next_of_alloc (hidle : v.state = .idle) (hv' : v'.state ≠ .idle) (hq : v.queue = []) :
    s.next v v' ws = ⟨v'.queue, [], ws⟩ := by
  unfold Since.next
  rw [if_pos ⟨hidle, hv'⟩]
  dsimp only
  rw [hq, List.take_nil]
  rfl

end Next

def QuietOn (k : ConnId) (chosen : Bool) (v : View) (s : Since) : HostOp → Prop
  | .timeout j late => j = k → late = true → v.txTime ≠ 0 →
      v.state ≠ .inCreation ∧ v.state ≠ .inDeletion
  | .received slot t => t.id slot = k → QuietTpdu chosen v s t.tag
  | _ => True

section Steps

variable {k : ConnId} {v : View} {s : Since}

variable {ws : List (List UInt8)} {v' : View}

/-- A connection in use on which something was sent, before and after: only the queue and the chain matter. -/
theorem Kept.of_sent (hk : Kept k v s) (hv : v.state ≠ .idle) (hw : s.wire ≠ []) (hv' : v'.state ≠ .idle)
    (hchain : v'.state = .inCreation ∨ v'.state = .inDeletion → v'.chain = .null)
    (hsplit : taken ++ v'.queue = queued) : Kept k v' ⟨queued, taken, s.wire ++ ws⟩ where
  clean := fun hidle => absurd hidle hv'
  no_chain := hchain
  split := fun _ => hsplit
  unsent := fun _ hnil => absurd (List.append_eq_nil_iff.mp hnil).1 hw
  first := fun _ _ => by
    rw [List.head?_append_of_ne_nil _ hw]
    exact hk.first hv hw

theorem Kept.wire_ne (hk : Kept k v s) (hv : v.state ≠ .idle) (hc : v.state ≠ .inCreation) : s.wire ≠ [] :=
  fun hw => hc (hk.unsent hv hw).1

theorem kept_of_idle (hidle : v'.state = .idle) (hclean : v'.queue = [] ∧ v'.txTime = 0 ∧ v'.chain = .null) :
    Kept k v' s' where
  clean := fun _ => hclean
  no_chain := fun _ => hclean.2.2
  split := fun h => absurd hidle h
  unsent := fun h => absurd hidle h
  first := fun h => absurd hidle h

theorem Kept.next_unchanged (hk : Kept k v s) : Kept k v (s.next v v []) := by
  rw [next_of_same_queue (fun h => h.2 h.1) rfl, List.append_nil]
  exact hk

theorem Kept.next_same (hk : Kept k v s) (hv : v.state ≠ .idle) (hw : s.wire ≠ []) (hv' : v'.state ≠ .idle)
    (hchain : v'.state = .inCreation ∨ v'.state = .inDeletion → v'.chain = .null) (hqueue : v'.queue = v.queue) :
    Kept k v' (s.next v v' ws) := by
  rw [next_of_same_queue (fun h => hv h.1) hqueue]
  refine hk.of_sent hv hw hv' hchain ?_
  rw [hqueue]
  exact hk.split hv

theorem Kept.next_active (hk : Kept k v s) (hstate : v.state = .active) (hstate' : v'.state = .active)
    (hqueue : v'.queue = v.queue) : Kept k v' (s.next v v' ws) := by
  have hv : v.state ≠ .idle ∧ v.state ≠ .inCreation := by
    rw [hstate]
    decide
  refine hk.next_same hv.1 (hk.wire_ne hv.1 hv.2) ?_ ?_ hqueue
  · rw [hstate']
    decide
  · rw [hstate']
    exact fun h => absurd h (by decide)

theorem Kept.next_queued (hk : Kept k v s) (hstate : v.state = .active ∨ v.state = .inDeletion)
    (hstate' : v'.state = .active ∨ v'.state = .activeDeletequeued) (hqueue : v'.queue = v.queue ++ [msg]) :
    Kept k v' (s.next v v' []) := by
  have hv : v.state ≠ .idle ∧ v.state ≠ .inCreation := by
    rcases hstate with h | h
    all_goals
      rw [h]
      decide
  have hv' : v'.state ≠ .idle ∧ ¬ (v'.state = .inCreation ∨ v'.state = .inDeletion) := by
    rcases hstate' with h | h
    all_goals
      rw [h]
      decide
  rw [next_of_queued (fun h => hv.1 h.1) hqueue]
  refine hk.of_sent hv.1 (hk.wire_ne hv.1 hv.2) hv'.1 (fun h => absurd h hv'.2) ?_
  rw [hqueue, ← hk.split hv.1, List.append_assoc]

theorem ne_idle_of_sends (hsends : v.state.sends = true) : v.state ≠ .idle := by
  intro h
  rw [h] at hsends
  exact absurd hsends (by decide)

theorem Kept.split_taken (hk : Kept k v s) (hsends : v.state.sends = true) (hqueue : v.queue = msg :: rest) :
    (s.taken ++ [msg]) ++ rest = s.queued := by
  rw [← hk.split (ne_idle_of_sends hsends), hqueue, List.append_assoc]
  rfl

theorem Kept.unsent_msg (hk : Kept k v s) (hsends : v.state.sends = true) (hqueue : v.queue = msg :: rest)
    (hw : s.wire = []) : v.state = .inCreation ∧ msg = createMsg k ∧ rest = [] := by
  obtain ⟨hc, hq | hq⟩ := hk.unsent (ne_idle_of_sends hsends) hw
  · rw [hq] at hqueue
    exact absurd hqueue (by simp)
  · rw [hq] at hqueue
    obtain ⟨hmsg, hrest⟩ := List.cons.inj hqueue
    exact ⟨hc, hmsg.symm, hrest.symm⟩

theorem Kept.next_alloc (hk : Kept k v s) (hidle : v.state = .idle) (hstate' : v'.state = .inCreation)
    (hchain : v'.chain = .null) (hunsent : ws = [] → v'.queue = [] ∨ v'.queue = [createMsg k])
    (hfirst : ws ≠ [] → ws.head? = some (createMsg k)) : Kept k v' (s.next v v' ws) := by
  have hv' : v'.state ≠ .idle := by
    rw [hstate']
    decide
  rw [next_of_alloc hidle hv' (hk.clean hidle).1]
  exact ⟨fun h => absurd h hv', fun _ => hchain, fun _ => rfl, fun _ hw => ⟨hstate', hunsent hw⟩,
    fun _ hw => hfirst hw⟩

theorem kept_next (he : Effect k chosen op v v' ws) (hq : QuietOn k chosen v s op) (hk : Kept k v s) :
    Kept k v' (s.next v v' ws) := by
  cases he with
  | same => exact hk.next_unchanged
  | cleared => exact kept_of_idle rfl ⟨rfl, rfl, rfl⟩
  | @created slot mem _ hidle hchosen =>
    refine hk.next_alloc hidle rfl rfl (fun _ => ?_) (fun h => absurd rfl h)
    show v.queue ++ _ = [] ∨ v.queue ++ _ = _
    rw [(hk.clean hidle).1, List.nil_append]
    cases mem with
    | false => exact .inl rfl
    | true => exact .inr rfl
  | deleteQueued _ hstate => exact hk.next_queued hstate (.inr rfl) rfl
  | queued _ hstate _ => exact hk.next_queued (.inl hstate) (.inl rfl) rfl
  | lost hsends hqueue htx =>
    have hv := ne_idle_of_sends hsends
    rw [next_of_taken (fun h => hv h.1) hqueue, List.append_nil]
    refine ⟨fun h => absurd h hv, hk.no_chain, fun _ => hk.split_taken hsends hqueue, fun _ hw => ?_,
      hk.first⟩
    obtain ⟨hc, -, hrest⟩ := hk.unsent_msg hsends hqueue hw
    exact ⟨hc, .inl hrest⟩
  | @sent _ msg rest t hsends hqueue htx hmsg =>
    have hv := ne_idle_of_sends hsends
    rw [next_of_taken (fun h => hv h.1) hqueue]
    by_cases hw : s.wire = []
    · obtain ⟨-, hcreate, -⟩ := hk.unsent_msg hsends hqueue hw
      refine ⟨fun h => absurd h hv, hk.no_chain, fun _ => hk.split_taken hsends hqueue,
        fun _ h => absurd h (by simp), fun _ _ => ?_⟩
      show (s.wire ++ [linkBytes msg]).head? = some (createMsg k)
      rw [hw, hcreate]
      rfl
    · exact hk.of_sent hv hw hv hk.no_chain (hk.split_taken hsends hqueue)
  | @deleteSent _ msg rest t hsends hqueue htx hmsg =>
    have hv := ne_idle_of_sends hsends
    have hw : s.wire ≠ [] := by
      intro hw
      obtain ⟨-, hcreate, -⟩ := hk.unsent_msg hsends hqueue hw
      rw [hcreate] at hmsg
      exact absurd (Option.some.inj hmsg) (by decide)
    rw [next_of_taken (fun h => hv h.1) hqueue]
    exact hk.of_sent hv hw (by simp) (fun _ => rfl) (hk.split_taken hsends hqueue)
  | polled hstate _ => exact hk.next_active hstate rfl rfl
  | expired hstate htx =>
    -- a connection in creation or in deletion that is given up
    obtain ⟨hc, hd⟩ := hq rfl rfl htx
    rcases hstate with h | h
    · exact absurd h hc
    · exact absurd h hd
  | opened hid htag hstate =>
    have hv : v.state ≠ .idle := by
      rw [hstate]
      decide
    exact hk.next_same hv ((hq hid).1 htag hstate) (by simp) (fun h => absurd h (by simp)) rfl
  | moduleDeleted hid htag hstate =>
    obtain ⟨hqueue, htx⟩ := (hq hid).2.1 htag hstate
    exact kept_of_idle rfl ⟨hqueue, htx, rfl⟩
  | deleted hid htag hstate =>
    obtain ⟨hqueue, htx⟩ := (hq hid).2.2.1 htag hstate
    exact kept_of_idle rfl ⟨hqueue, htx, hk.no_chain (.inr hstate)⟩
  | requested hid htag htx =>
    obtain ⟨-, hwire⟩ := (hq hid).2.2.2 htag
    by_cases hidle : v.state = .idle
    · obtain ⟨hqueue, htime, hchain⟩ := hk.clean hidle
      refine kept_of_idle hidle ⟨hqueue, ?_, hchain⟩
      rcases htx with h | h
      · exact h.trans htime
      · exact h
    · exact hk.next_same hidle (hwire hidle) hidle hk.no_chain rfl
  | requestOpened _ _ hidle _ =>
    exact hk.next_alloc hidle rfl rfl (fun h => absurd h (by simp)) (fun _ => rfl)
  | requestFailed _ hidle htx =>
    obtain ⟨hqueue, htime, -⟩ := hk.clean hidle
    refine kept_of_idle rfl ⟨hqueue, ?_, rfl⟩
    rcases htx with h | h
    · exact h.trans htime
    · exact h
  | requestedItself hid htag _ hchosen =>
    obtain ⟨hnot, -⟩ := (hq hid).2.2.2 htag
    rw [hnot] at hchosen
    exact absurd hchosen (by decide)
  | dataReceived _ _ hstate => exact hk.next_active hstate rfl rfl
  | status _ _ hstate _ => exact hk.next_active hstate rfl rfl

end Steps

/-! ### Runs -/

theorem Quiet.on {r : Tracked} {op : HostOp} (hq : Quiet r op)
    (huse : ∀ s t, op = .received s t → r.host.inUse s = true) (k : ConnId) :
    QuietOn k (r.host.tl.chooses k) (r.host.view k) (r.since k) op := by
  cases op with
  | timeout j late =>
    intro hk
    subst hk
    exact hq
  | received s t =>
    intro hk
    subst hk
    exact hq (huse s t rfl)
  | _ => trivial

def AllKept (r : Tracked) : Prop := ∀ k, Kept k (r.host.view k) (r.since k)

theorem allKept_create (maxSlots maxConnections : UInt8) (callback : Bool) :
    AllKept (.create maxSlots maxConnections callback) :=
  fun _ => kept_of_idle rfl ⟨rfl, rfl, rfl⟩

theorem allKept_step {link : Link} {r r' : Tracked} {op : HostOp} (hk : AllKept r) (hq : Quiet r op)
    (hs : r.step link op = some r') : AllKept r' := by
  obtain ⟨h, hh, rfl⟩ := Option.map_eq_some_iff.mp hs
  intro k
  have he := step_effect hh k
  by_cases huse : ∀ s t, op = .received s t → r.host.inUse s = true
  · exact kept_next he (hq.on huse k) (hk k)
  · -- a TPDU of a slot that is not in use is not looked at
    have hsame : h = r.host := by
      by_contra hne
      refine huse fun s t hop => ?_
      by_contra hnot
      rw [hop, Host.step, if_neg hnot] at hh
      exact hne (Option.some.inj hh).symm
    subst hsame
    show Kept k (r.host.view k) ((r.since k).next (r.host.view k) (r.host.view k)
      (writtenOn link r.host.tl r.host.tl k))
    rw [writtenOn_of_same rfl]
    exact (hk k).next_unchanged

/-- **Quiet runs keep connections reusable.**  Whatever the application calls, the modules send and the clock
says, in every state that a quiet run reaches an idle connection is as new, and a connection in use has
sent only its own messages, T_CREATE_T_C first. -/
theorem reusable_of_quiet (link : Link) (maxSlots maxConnections : UInt8) (callback : Bool)
    (ops : List HostOp) (r : Tracked)
    (hquiet : Along (Tracked.step link) Quiet (.create maxSlots maxConnections callback) ops)
    (hrun : ops.foldlM (Tracked.step link) (.create maxSlots maxConnections callback) = some r) :
    ∀ k, Reusable k (r.host.view k) (r.since k) := by
  have hkept : AllKept r :=
    Along.invariant (fun _ _ _ hI hG hs => allKept_step hI hG hs) ops _ r
      (allKept_create maxSlots maxConnections callback) hquiet hrun
  exact fun k => (hkept k).reusable

/-- Connection 1 is opened, sends a byte that is answered, is deleted by the module and opened again. -/
def quietOps : List HostOp :=
  openOps ++ [.sendData 0 1 true [7], .transmit (0, 1), .received 0 ⟨0x80, 1, [0]⟩, .timeout (0, 1) true,
    .received 0 ⟨0x84, 1, []⟩, .newTc 0 true, .transmit (0, 1)]

theorem reusable_quietOps :
    ∃ r, quietOps.foldlM (Tracked.step steadyLink) (.create 1 2 true) = some r ∧
      Along (Tracked.step steadyLink) Quiet (.create 1 2 true) quietOps ∧
      ∀ k, Reusable k (r.host.view k) (r.since k) := by
  have hquiet : Along (Tracked.step steadyLink) Quiet (.create 1 2 true) quietOps := by decide
  exact ⟨_, rfl, hquiet, reusable_of_quiet steadyLink 1 2 true quietOps _ hquiet rfl⟩

/-- A byte is queued, and the module deletes the connection before the byte is sent. -/
def staleOps : List HostOp := openOps ++ [.sendData 0 1 true [7], .received 0 ⟨0x84, 1, []⟩]

/-- The idle connection keeps the byte, and the next connection with its number sends it first. -/
theorem not_reusable_staleOps :
    ∃ r r', staleOps.foldlM (Tracked.step steadyLink) (.create 1 2 true) = some r ∧
      (r.host.view (0, 1)).state = .idle ∧ (r.host.view (0, 1)).queue = [[0xA0, 2, 1, 7]] ∧
      ¬ Reusable (0, 1) (r.host.view (0, 1)) (r.since (0, 1)) ∧
      [HostOp.newTc 0 true, .transmit (0, 1)].foldlM (Tracked.step steadyLink) r = some r' ∧
      (r'.host.view (0, 1)).state = .inCreation ∧ (r'.since (0, 1)).wire = [[0xA0, 2, 1, 7]] ∧
      ¬ Reusable (0, 1) (r'.host.view (0, 1)) (r'.since (0, 1)) := by
  refine ⟨_, _, rfl, rfl, by decide, ?_, rfl, rfl, by decide, ?_⟩
  · intro hr
    exact absurd (hr.clean rfl).1 (by decide)
  · intro hr
    exact absurd (hr.first (by decide)) (by decide)

end BgtDvb.En50221
