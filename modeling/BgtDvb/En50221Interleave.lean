import BgtDvb.En50221Module

/-!
# Interleavings of the host with conforming modules

Host and modules take their steps in any order.  The invariant joins the connections: what is pending on
each of them, in the channels and in the buffer that is being read, is what its state allows.

* `pending_setHost`, `pending_answer`, `pending_read` — **PROVED**: how a step moves the pending requests;
* `sysInv_step` — **PROVED**: an orderly step keeps it;
* `accepted_of_orderly` — **PROVED**: along every orderly run no answer of a module is refused.
-/

namespace BgtDvb.En50221

open BgtDvb.GuardedRun

/-! ### How pending requests move -/

variable (k : ConnId) (sys : System)

theorem sentTo_cons (m : ℕ × List UInt8) (ms : List (ℕ × List UInt8)) :
    sentTo k (m :: ms) = (if m.1 = k.2 then (requestOf m.2).toList else []) ++ sentTo k ms := by
  unfold sentTo
  rw [List.filterMap_cons]
  by_cases hconn : m.1 = k.2
  · rw [if_pos hconn, if_pos hconn]
    cases requestOf m.2 with
    | none => rfl
    | some req => rfl
  · rw [if_neg hconn, if_neg hconn]
    rfl

theorem answeredTo_cons (r : Reply) (rs : List Reply) :
    answeredTo k (r :: rs) = (if r.conn = k.2 then [r.request] else []) ++ answeredTo k rs := by
  unfold answeredTo
  rw [List.filterMap_cons]
  by_cases hconn : r.conn = k.2
  · rw [if_pos hconn, if_pos hconn]
    rfl
  · rw [if_neg hconn, if_neg hconn]
    rfl

theorem answeredTo_concat (rs : List Reply) (r : Reply) :
    answeredTo k (rs ++ [r]) = answeredTo k rs ++ if r.conn = k.2 then [r.request] else [] := by
  have hone : answeredTo k [r] = if r.conn = k.2 then [r.request] else [] := by
    rw [answeredTo_cons]
    exact List.append_nil _
  rw [← hone]
  exact List.filterMap_append

theorem readFor_some (m : Reading) : readFor k (some m) = if m.conn = k.2 then [m.request] else [] := by
  show (List.filterMap _ [m]) = _
  by_cases hconn : m.conn = k.2
  · rw [if_pos hconn, List.filterMap_cons, if_pos hconn]
    rfl
  · rw [if_neg hconn, List.filterMap_cons, if_neg hconn]
    rfl

theorem sentTo_written (ws : List (ConnId × List UInt8)) :
    sentTo k ((ws.filter fun w => w.1.1 = k.1).map fun w => (w.1.2, w.2))
      = (onConn k ws).filterMap requestOf := by
  induction ws with
  | nil => rfl
  | cons w ws ih =>
    by_cases hk : w.1 = k
    · have hslot : w.1.1 = k.1 := by rw [hk]
      rw [List.filter_cons_of_pos (by simpa using hslot), List.map_cons, sentTo_cons, if_pos (by rw [hk]), ih]
      unfold onConn
      rw [List.filter_cons_of_pos (by simpa using hk), List.map_cons, List.filterMap_cons]
      cases requestOf w.2 with
      | none => rfl
      | some req => rfl
    · have hother : onConn k (w :: ws) = onConn k ws := by
        unfold onConn
        rw [List.filter_cons_of_neg (by simpa using hk)]
      rw [hother, ← ih]
      by_cases hslot : w.1.1 = k.1
      · have hconn : w.1.2 ≠ k.2 := fun h => hk (Prod.ext hslot h)
        rw [List.filter_cons_of_pos (by simpa using hslot), List.map_cons, sentTo_cons, if_neg hconn]
        rfl
      · rw [List.filter_cons_of_neg (by simpa using hslot)]

theorem sentTo_setHost (link : Link) (h : Host) (k : ConnId) :
    sentTo k ((sys.setHost link h).toModule k.1) = sentTo k (sys.toModule k.1) ++
      (writtenOn link sys.host.tl h.tl k).filterMap requestOf := by
  refine (List.filterMap_append).trans ?_
  rw [writtenOn, ← sentTo_written]
  rfl

theorem pending_setHost (link : Link) (h : Host) (k : ConnId) :
    (sys.pending k ++ (writtenOn link sys.host.tl h.tl k).filterMap requestOf).Perm
      ((sys.setHost link h).pending k) := by
  unfold System.pending
  rw [sentTo_setHost]
  show (sentTo k (sys.toModule k.1) ++ answeredTo k (sys.toHost k.1) ++ readFor k (sys.reading k.1) ++ _).Perm
    (sentTo k (sys.toModule k.1) ++ _ ++ answeredTo k (sys.toHost k.1) ++ readFor k (sys.reading k.1))
  simp only [List.append_assoc]
  refine List.Perm.append_left _ ?_
  rw [← List.append_assoc]
  exact List.perm_append_comm

theorem pending_answer (s : ℕ) (tpdus : List WireTpdu) (k : ConnId) :
    (sys.pending k).Perm ((sys.answer s tpdus).pending k) := by
  unfold System.answer
  cases hmod : sys.toModule s with
  | nil => exact .refl _
  | cons m rest =>
    obtain ⟨conn, msg⟩ := m
    dsimp only
    cases hreq : requestOf msg with
    | none =>
      by_cases hk : k.1 = s
      · subst hk
        unfold System.pending
        dsimp only
        rw [Function.update_self, hmod, sentTo_cons, hreq]
        simp
      · unfold System.pending
        dsimp only
        rw [Function.update_of_ne hk]
    | some request =>
      dsimp only
      split
      · by_cases hk : k.1 = s
        · subst hk
          unfold System.pending
          dsimp only
          rw [Function.update_self, Function.update_self, hmod, sentTo_cons, hreq, answeredTo_concat]
          simp only [List.append_assoc, Option.toList_some]
          rw [← List.append_assoc (sentTo k rest), ← List.append_assoc (sentTo k rest),
            ← List.append_assoc (sentTo k rest ++ _), ← List.append_assoc]
          exact List.perm_append_comm.append_right _
        · unfold System.pending
          dsimp only
          rw [Function.update_of_ne hk, Function.update_of_ne hk]
      · exact .refl _

variable {sys sys' : System} {s : ℕ} {link : Link} {m : Reading} {left : List UInt8} {t : Tpdu} {r : ℤ × Tl}

theorem pending_read {r : Reply} {rest : List Reply} (hto : sys.toHost s = r :: rest) (hnone : sys.reading s = none)
    (bytes : List UInt8) (k : ConnId) :
    (sys.pending k).Perm (({ sys with
      toHost := Function.update sys.toHost s rest
      reading := Function.update sys.reading s (some ⟨r.conn, r.request, bytes⟩) } : System).pending k) := by
  unfold System.pending
  dsimp only
  by_cases hk : k.1 = s
  · subst hk
    rw [Function.update_self, Function.update_self, hto, hnone, answeredTo_cons, readFor_some]
    show (_ ++ (_ ++ _) ++ []).Perm _
    rw [List.append_nil, List.append_assoc]
    exact List.perm_append_comm.append_left _
  · rw [Function.update_of_ne hk, Function.update_of_ne hk]

/-! ### Slots -/

def Host.Distinct (h : Host) : Prop :=
  ∀ i j, (h.slots i).caHndl ≠ -1 → h.slots i = h.slots j → i = j

theorem route_eq {h : Host} (hd : h.Distinct) {s' : ℕ} (huse : h.inUse s = true) (hlt : s' < h.maxSlots)
    (hhndl : (h.slots s').caHndl = (h.slots s).caHndl) : route h s (h.slots s').slot = some s' := by
  have hne : (h.slots s).caHndl ≠ -1 := of_decide_eq_true huse
  have hsame : ∀ i, (h.slots i).caHndl = (h.slots s).caHndl → (h.slots i).slot = (h.slots s').slot →
      i = s' := by
    intro i hi hslot
    refine hd i s' (by rw [hi]; exact hne) ?_
    have heq : h.slots i = ⟨(h.slots i).caHndl, (h.slots i).slot⟩ := rfl
    rw [heq, hi, hslot, ← hhndl]
  unfold route
  split
  · cases hfind : (List.range h.maxSlots).find? fun i =>
        decide ((h.slots i).caHndl = (h.slots s).caHndl ∧ (h.slots i).slot = (h.slots s').slot) with
    | none =>
      have hnone := List.find?_eq_none.mp hfind s' (List.mem_range.mpr hlt)
      exact absurd (decide_eq_true ⟨hhndl, rfl⟩) hnone
    | some i =>
      have hfound := List.find?_some hfind
      have hboth : (h.slots i).caHndl = (h.slots s).caHndl ∧ (h.slots i).slot = (h.slots s').slot :=
        of_decide_eq_true hfound
      rw [hsame i hboth.1 hboth.2]
  · rename_i hslot
    rw [hsame s rfl (not_not.mp hslot)]

theorem distinct_registerSlot {h : Host} {done : List Slot} {c : Slot} (hd : h.Distinct)
    (hdone : ∀ i, (h.slots i).caHndl ≠ -1 → h.slots i ∈ done) (hc : c ∉ done) :
    (registerSlot h c.caHndl c.slot).2.Distinct ∧
      ∀ i, ((registerSlot h c.caHndl c.slot).2.slots i).caHndl ≠ -1 →
        (registerSlot h c.caHndl c.slot).2.slots i ∈ c :: done := by
  unfold registerSlot
  split
  · exact ⟨hd, fun i hi => List.mem_cons_of_mem c (hdone i hi)⟩
  · rename_i i₀ _
    have hslots : ∀ i, (i = i₀ ∧ Function.update h.slots i₀ (⟨c.caHndl, c.slot⟩ : Slot) i = c) ∨
        (i ≠ i₀ ∧ Function.update h.slots i₀ (⟨c.caHndl, c.slot⟩ : Slot) i = h.slots i) := by
      intro i
      by_cases hi : i = i₀
      · exact .inl ⟨hi, by rw [hi]; exact Function.update_self _ _ _⟩
      · exact .inr ⟨hi, Function.update_of_ne hi _ _⟩
    constructor
    · intro i j hi hij
      dsimp only at hi hij
      obtain ⟨rfl, hi'⟩ | ⟨hne, hi'⟩ := hslots i
      · obtain ⟨rfl, -⟩ | ⟨-, hj'⟩ := hslots j
        · rfl
        · rw [hi'] at hi hij
          rw [hj'] at hij
          rw [hij] at hi
          exact absurd (hij ▸ hdone j hi) hc
      · rw [hi'] at hi hij
        obtain ⟨rfl, hj'⟩ | ⟨-, hj'⟩ := hslots j
        · rw [hj'] at hij
          exact absurd (hij ▸ hdone i hi) hc
        · rw [hj'] at hij
          exact hd i j hi hij
    · intro i hi
      dsimp only at hi ⊢
      obtain ⟨-, hi'⟩ | ⟨-, hi'⟩ := hslots i
      · rw [hi']
        exact List.mem_cons_self
      · rw [hi'] at hi ⊢
        exact List.mem_cons_of_mem c (hdone i hi)

theorem distinct_registerAll (slots : List Slot) :
    ∀ (h : Host) (done : List Slot), h.Distinct → (∀ i, (h.slots i).caHndl ≠ -1 → h.slots i ∈ done) →
      slots.Nodup → (∀ c ∈ slots, c ∉ done) → (registerAll h slots).Distinct := by
  induction slots with
  | nil =>
    intro h done hd _ _ _
    exact hd
  | cons c slots ih =>
    intro h done hd hdone hnodup hnew
    obtain ⟨hd', hdone'⟩ := distinct_registerSlot hd hdone (hnew c List.mem_cons_self)
    obtain ⟨hc, hnodup'⟩ := List.nodup_cons.mp hnodup
    refine ih _ (c :: done) hd' hdone' hnodup' fun c' hc' hmem => ?_
    rcases List.mem_cons.mp hmem with rfl | hmem
    · exact hc hc'
    · exact hnew c' (List.mem_cons_of_mem c hc') hmem

theorem registerAll_view (slots : List Slot) (h : Host) (k : ConnId) :
    (registerAll h slots).view k = h.view k ∧
      (registerAll h slots).tl.maxConnections = h.tl.maxConnections := by
  induction slots generalizing h with
  | nil => exact ⟨rfl, rfl⟩
  | cons c slots ih =>
    have hone : (registerSlot h c.caHndl c.slot).2.view k = h.view k ∧
        (registerSlot h c.caHndl c.slot).2.tl.maxConnections = h.tl.maxConnections := by
      unfold registerSlot
      split
      · exact ⟨rfl, rfl⟩
      · exact ⟨rfl, rfl⟩
    obtain ⟨hview, hmax⟩ := ih (registerSlot h c.caHndl c.slot).2
    exact ⟨hview.trans hone.1, hmax.trans hone.2⟩

section SameSlots

variable (h : Host)

theorem newTc_sameSlots (s : ℕ) (mem : Bool) : h.SameSlots (newTc h s mem).2 := by
  unfold newTc
  split
  · exact ⟨rfl, rfl, rfl⟩
  · split
    · exact ⟨rfl, rfl, rfl⟩
    · split
      · exact ⟨rfl, rfl, rfl⟩
      · rename_i conid tl' halloc
        obtain ⟨-, -, rfl⟩ := allocNewTc_eq halloc
        dsimp only
        split
        · exact ⟨rfl, rfl, rfl⟩
        · exact ⟨rfl, rfl, rfl⟩

theorem delTc_sameSlots (k : ConnId) (mem : Bool) : h.SameSlots (delTc h k mem).2 := by
  unfold delTc
  split_ifs
  all_goals exact ⟨rfl, rfl, rfl⟩

theorem sendRefused_sameSlots {h : Host} {k : ConnId} (hr : sendRefused h k = some h') : h.SameSlots h' := by
  unfold sendRefused at hr
  split_ifs at hr
  all_goals
    obtain rfl := Option.some.inj hr
    exact ⟨rfl, rfl, rfl⟩

theorem sendData_sameSlots (slot conn : UInt8) (mem : Bool) (data : List UInt8) :
    h.SameSlots (sendData h slot conn mem data).2 := by
  unfold sendData
  dsimp only
  cases hr : sendRefused h (slot.toNat, conn.toNat) with
  | some h' => exact sendRefused_sameSlots hr
  | none =>
    dsimp only
    split
    · exact ⟨rfl, rfl, rfl⟩
    · split
      · exact ⟨rfl, rfl, rfl⟩
      · exact ⟨rfl, rfl, rfl⟩

theorem checkTimeout_sameSlots (k : ConnId) (late : Bool) : h.SameSlots (checkTimeout h k late).2 := by
  unfold checkTimeout
  split_ifs
  all_goals exact ⟨rfl, rfl, rfl⟩

end SameSlots

theorem call_sameSlots {h h' : Host} {c : HostCall} (hs : h.step link c.op = some h') : h.SameSlots h' := by
  cases c with
  | newTc s mem =>
    obtain rfl := Option.some.inj hs
    exact newTc_sameSlots h _ mem
  | delTc s conn mem =>
    obtain rfl := Option.some.inj hs
    exact delTc_sameSlots h _ mem
  | sendData s conn mem data =>
    obtain rfl := Option.some.inj hs
    exact sendData_sameSlots h s conn mem data
  | transmit k =>
    rw [HostCall.op, Host.step] at hs
    split at hs
    · obtain ⟨r, hr, rfl⟩ := Option.map_eq_some_iff.mp hs
      exact transmit_sameSlots hr
    · obtain rfl := Option.some.inj hs
      exact .refl _
  | askPoll k due =>
    rw [HostCall.op, Host.step] at hs
    split at hs
    · obtain rfl := Option.some.inj hs
      exact askPoll_sameSlots link h k due
    · obtain rfl := Option.some.inj hs
      exact .refl _
  | timeout k late =>
    rw [HostCall.op, Host.step] at hs
    split at hs
    · obtain rfl := Option.some.inj hs
      exact checkTimeout_sameSlots h k late
    · obtain rfl := Option.some.inj hs
      exact .refl _

/-! ### The invariant of the system -/

/-- A buffer that is being read is an answer, or the rest of one. -/
def Reading.Conforms (m : Reading) : Prop :=
  ∃ ws : List WireTpdu, m.bytes = ws.flatMap WireTpdu.bytes ∧
    conforms (UInt8.ofNat m.conn) m.request (ws.map WireTpdu.tpdu) = true

structure SysInv (sys : System) : Prop where
  distinct : sys.host.Distinct
  max_lt : sys.host.tl.maxConnections < 256
  ordered : ∀ k, Ordered k (sys.host.view k) (sys.pending k)
  used : ∀ k, (sys.host.view k).state ≠ .idle → k.2 < sys.host.tl.maxConnections
  reading : ∀ s m, sys.reading s = some m → m.Conforms

theorem sysInv_create (maxSlots maxConnections : UInt8) (callback : Bool) (cams : Cams) :
    SysInv (.create maxSlots maxConnections callback cams) := by
  have hview : ∀ k, (registerAll (tlCreate maxSlots maxConnections callback) cams.slots).view k
      = ⟨.idle, 0, .null, []⟩ := fun k => (registerAll_view cams.slots _ k).1
  refine ⟨?_, ?_, fun k => ?_, fun k hk => ?_, fun s m hm => absurd hm (by simp [System.create])⟩
  · refine distinct_registerAll cams.slots _ [] ?_ ?_ cams.nodup fun c _ h => absurd h (by simp)
    · exact fun i j hi => absurd rfl hi
    · exact fun i hi => absurd rfl hi
  · show (registerAll (tlCreate maxSlots maxConnections callback) cams.slots).tl.maxConnections < 256
    rw [(registerAll_view cams.slots _ (0, 0)).2]
    exact maxConnections.toNat_lt
  · refine .idle ?_ (.inl ?_)
    · show ((registerAll (tlCreate maxSlots maxConnections callback) cams.slots).view k).state = .idle
      rw [hview]
    · show ((registerAll (tlCreate maxSlots maxConnections callback) cams.slots).view k).queue = []
      rw [hview]
  · refine absurd ?_ hk
    show ((registerAll (tlCreate maxSlots maxConnections callback) cams.slots).view k).state = .idle
    rw [hview]

theorem Host.SameSlots.distinct {h h' : Host} (hs : h.SameSlots h') (hd : h.Distinct) : h'.Distinct := by
  unfold Host.Distinct
  rw [hs.1]
  exact hd

theorem lt_of_chooses {tl : Tl} {k : ConnId} (h : tl.chooses k = true) : k.2 < tl.maxConnections := by
  have hmap : (allocNewTc tl k.1).map Prod.fst = some k.2 := of_decide_eq_true h
  obtain ⟨⟨conid, tl'⟩, halloc, heq⟩ := Option.map_eq_some_iff.mp hmap
  have hlt := (allocNewTc_eq halloc).2.1
  have hid : conid = k.2 := heq
  rw [hid] at hlt
  exact hlt

theorem sysInv_call {c : HostCall} (hI : SysInv sys) (hG : Orderly sys (.call c))
    (hs : sys.step link (.call c) = some sys') : SysInv sys' := by
  obtain ⟨h, hh, rfl⟩ := Option.map_eq_some_iff.mp hs
  have hsame := call_sameSlots hh
  refine ⟨hsame.distinct hI.distinct, ?_, fun k => ?_, fun k hk => ?_, hI.reading⟩
  · show h.tl.maxConnections < 256
    rw [hsame.2.2]
    exact hI.max_lt
  · refine Ordered.perm ?_ (pending_setHost sys link h k)
    refine (hI.ordered k).call (step_effect hh k) ?_ ?_
    · rintro s conn rfl rfl hstate
      exact hG rfl hstate
    · rintro rfl htx hstate
      exact hG rfl htx hstate
  · show k.2 < h.tl.maxConnections
    rw [hsame.2.2]
    by_cases hidle : (sys.host.view k).state = .idle
    · exact lt_of_chooses ((step_effect hh k).chosen_of_used hidle hk)
    · exact hI.used k hidle

theorem sysInv_answer (hI : SysInv sys) (s : ℕ) (tpdus : List WireTpdu) : SysInv (sys.answer s tpdus) := by
  have hhost : (sys.answer s tpdus).host = sys.host ∧ (sys.answer s tpdus).reading = sys.reading := by
    unfold System.answer
    split
    · exact ⟨rfl, rfl⟩
    · split
      · exact ⟨rfl, rfl⟩
      · split
        · exact ⟨rfl, rfl⟩
        · exact ⟨rfl, rfl⟩
  refine ⟨?_, ?_, fun k => ?_, ?_, ?_⟩
  · rw [hhost.1]
    exact hI.distinct
  · rw [hhost.1]
    exact hI.max_lt
  · rw [hhost.1]
    exact (hI.ordered k).perm (pending_answer sys s tpdus k)
  · rw [hhost.1]
    exact hI.used
  · rw [hhost.2]
    exact hI.reading

theorem sysInv_read {s' : ℕ} (hI : SysInv sys) (hG : Orderly sys (.read s s')) : SysInv (sys.read s s') := by
  unfold System.read
  split
  · rename_i hguard
    obtain ⟨huse, hlt, hhndl⟩ := hguard
    cases hto : sys.toHost s' with
    | nil => exact hI
    | cons r rest =>
      rw [route_eq hI.distinct huse hlt hhndl]
      dsimp only
      split
      · exact hI
      · rename_i hfree
        have hnone : sys.reading s' = none := by simpa using hfree
        have hfits : r.bytes.length ≤ 4096 := hG r (by rw [hto]; rfl)
        refine ⟨hI.distinct, hI.max_lt, fun k => (hI.ordered k).perm (pending_read hto hnone _ k), hI.used,
          fun i m hm => ?_⟩
        dsimp only at hm
        by_cases hi : i = s'
        · subst hi
          rw [Function.update_self] at hm
          obtain rfl := Option.some.inj hm
          exact ⟨r.tpdus, List.take_of_length_le hfits, r.conforming⟩
        · rw [Function.update_of_ne hi] at hm
          exact hI.reading i m hm
  · exact hI

/-- The next TPDU of a buffer answers what the state of its connection awaits. -/
structure NextTpdu (sys : System) (s : ℕ) (m : Reading) (t : Tpdu) (left : List UInt8) : Prop where
  parsed : parseTpdu m.bytes = some (t, left)
  answers : AnswerTpdu m.request t
  id_eq : t.id s = (s, m.conn)
  conn_lt : t.conn.toNat < sys.host.tl.maxConnections
  state_eq : (sys.host.view (s, m.conn)).state = m.request.state
  rest : left = [] ∨ m.request = .data ∧ Reading.Conforms ⟨m.conn, m.request, left⟩

theorem nextTpdu (hI : SysInv sys) (hm : sys.reading s = some m) : ∃ t left, NextTpdu sys s m t left := by
  obtain ⟨ws, hbytes, hconf⟩ := hI.reading s m hm
  obtain ⟨t, ts, hts, hans, hconn, hrest⟩ := conforms_cons hconf
  obtain ⟨w, ws', rfl, rfl, rfl⟩ := List.map_eq_cons_iff.mp hts
  have hpending : m.request ∈ sys.pending (s, m.conn) := by
    unfold System.pending
    refine List.mem_append_right _ ?_
    dsimp only
    rw [hm, readFor_some, if_pos rfl]
    exact List.mem_singleton_self _
  have hstate := (hI.ordered (s, m.conn)).state_of_mem hpending
  have hused : m.conn < sys.host.tl.maxConnections := by
    refine hI.used (s, m.conn) ?_
    rw [hstate]
    cases m.request with
    | create => decide
    | delete => decide
    | data => decide
  have hnat : (UInt8.ofNat m.conn).toNat = m.conn := toNat_ofNat_of_lt (hused.trans hI.max_lt)
  refine ⟨w.tpdu, ws'.flatMap WireTpdu.bytes, ?_, hans, ?_, ?_, hstate, ?_⟩
  · rw [hbytes, List.flatMap_cons]
    exact parseTpdu_bytes w _
  · unfold Tpdu.id
    rw [hconn, hnat]
  · rw [hconn, hnat]
    exact hused
  · rcases hrest with hnil | ⟨hdata, hconf'⟩
    · left
      rw [List.map_eq_nil_iff.mp hnil]
      rfl
    · exact .inr ⟨hdata, ws', rfl, hconf'⟩

theorem NextTpdu.processOne_eq (hn : NextTpdu sys s m t left) (link : Link) :
    processOne link s sys.host.tl m.bytes = (dispatch link s sys.host.tl t).map fun r =>
      if r.1 < 0 then (-1, r.2, []) else (0, r.2, left) := by
  unfold processOne
  rw [hn.parsed]

theorem NextTpdu.takes (hn : NextTpdu sys s m t left) (hd : dispatch link s sys.host.tl t = some r) :
    Takes sys.host.tl r := by
  refine takes_dispatch hn.conn_lt ?_ hn.answers hd
  rw [hn.id_eq]
  exact hn.state_eq

/-- **No answer is refused**, in a state of the invariant. -/
theorem accepted_of_sysInv (hI : SysInv sys) (op : SysOp) : Accepted link sys op := by
  cases op with
  | process s =>
    intro m hm ret tl rest hp hret
    obtain ⟨t, left, hn⟩ := nextTpdu hI hm
    rw [hn.processOne_eq] at hp
    obtain ⟨r, hd, hr⟩ := Option.map_eq_some_iff.mp hp
    by_cases hneg : r.1 < 0
    · rw [if_pos hneg] at hr
      obtain ⟨-, htl, -⟩ : (-1 : ℤ) = ret ∧ r.2 = tl ∧ [] = rest := by simpa using hr
      rw [← htl]
      exact (hn.takes hd).1 hneg
    · rw [if_neg hneg] at hr
      obtain ⟨hzero, -⟩ : (0 : ℤ) = ret ∧ r.2 = tl ∧ left = rest := by simpa using hr
      rw [← hzero] at hret
      exact absurd hret (Int.lt_irrefl 0)
  | call c => trivial
  | answer s tpdus => trivial
  | read s s' => trivial

def System.goOn (sys : System) (link : Link) (s : ℕ) (m : Reading) (tl : Tl) (left : List UInt8) : System :=
  { sys.setHost link { sys.host with tl := tl } with
    reading := Function.update sys.reading s
      (if left = [] then none else some ⟨m.conn, m.request, left⟩) }

theorem pending_goOn (sys : System) (link : Link) (s : ℕ) (m : Reading) (tl : Tl) (left : List UInt8) :
    (sys.goOn link s m tl left).pending (s, m.conn)
      = sentTo (s, m.conn) (sys.toModule s) ++
          (writtenOn link sys.host.tl tl (s, m.conn)).filterMap requestOf ++
        answeredTo (s, m.conn) (sys.toHost s) ++ if left = [] then [] else [m.request] := by
  have hsent := sentTo_setHost sys link { sys.host with tl := tl } (s, m.conn)
  have hread : readFor (s, m.conn) ((sys.goOn link s m tl left).reading s)
      = if left = [] then [] else [m.request] := by
    unfold System.goOn
    dsimp only
    rw [Function.update_self]
    split
    · rfl
    · rw [readFor_some, if_pos rfl]
  unfold System.pending
  rw [hread, ← hsent]
  rfl

theorem pending_goOn_of_ne {tl : Tl} (hm : sys.reading s = some m) {k : ConnId} (hk : (s, m.conn) ≠ k)
    (hws : writtenOn link sys.host.tl tl k = []) : (sys.goOn link s m tl left).pending k = sys.pending k := by
  have hsent := sentTo_setHost sys link { sys.host with tl := tl } k
  rw [hws, List.filterMap_nil, List.append_nil] at hsent
  have hread : readFor k ((sys.goOn link s m tl left).reading k.1) = readFor k (sys.reading k.1) := by
    unfold System.goOn
    dsimp only
    by_cases hs : k.1 = s
    · subst hs
      have hconn : m.conn ≠ k.2 := fun h => hk (by rw [h])
      rw [Function.update_self, hm, readFor_some, if_neg hconn]
      split
      · rfl
      · rw [readFor_some, if_neg hconn]
    · rw [Function.update_of_ne hs]
  unfold System.pending
  rw [hread, ← hsent]
  rfl

theorem ordered_goOn {left' : List UInt8} (hI : SysInv sys) (hm : sys.reading s = some m)
    (hn : NextTpdu sys s m t left) (hd : dispatch link s sys.host.tl t = some r)
    (hleft : left' = [] ∨ m.request = .data) (k : ConnId) :
    Ordered k (r.2.view sys.host.queue k) ((sys.goOn link s m r.2 left').pending k) := by
  have he := effect_dispatch (q := sys.host.queue) hd k
  by_cases hk : (s, m.conn) = k
  · subst hk
    -- the answer is the last of what is pending
    have hbefore : sys.pending (s, m.conn) = sentTo (s, m.conn) (sys.toModule s) ++
        answeredTo (s, m.conn) (sys.toHost s) ++ [m.request] := by
      unfold System.pending
      dsimp only
      rw [hm, readFor_some, if_pos rfl]
    have hfirst : Ordered (s, m.conn) (sys.host.view (s, m.conn))
        (m.request :: (sentTo (s, m.conn) (sys.toModule s) ++ answeredTo (s, m.conn) (sys.toHost s))) := by
      refine (hI.ordered (s, m.conn)).perm ?_
      rw [hbefore]
      exact List.perm_append_singleton _ _
    obtain ⟨hdone, hmore⟩ := hfirst.answered he hn.answers
    rw [pending_goOn]
    by_cases hnil : left' = []
    · rw [if_pos hnil, List.append_nil]
      refine hdone.perm ?_
      rw [List.append_assoc, List.append_assoc]
      exact List.perm_append_comm.append_left _
    · rw [if_neg hnil]
      refine (hmore (hleft.resolve_left hnil)).perm ?_
      refine List.Perm.trans ?_ (List.perm_append_singleton _ _).symm
      rw [List.cons_append]
      refine List.Perm.cons _ ?_
      rw [List.append_assoc, List.append_assoc]
      exact List.perm_append_comm.append_left _
  · have hother : r.2.view sys.host.queue k = sys.host.view k ∧ writtenOn link sys.host.tl r.2 k = [] := by
      rcases he.answer_cases hn.answers with hsame | ⟨hid, -⟩
      · exact hsame
      · exact absurd (hn.id_eq.symm.trans hid) hk
    rw [pending_goOn_of_ne hm hk hother.2, hother.1]
    exact hI.ordered k

theorem sysInv_goOn {left' : List UInt8} (hI : SysInv sys) (hm : sys.reading s = some m)
    (hn : NextTpdu sys s m t left) (hd : dispatch link s sys.host.tl t = some r) (hleft : left' = [] ∨ left' = left) :
    SysInv (sys.goOn link s m r.2 left') := by
  have hmax : r.2.maxConnections = sys.host.tl.maxConnections := (hn.takes hd).2
  have hrest : left' = [] ∨ m.request = .data ∧ Reading.Conforms ⟨m.conn, m.request, left'⟩ := by
    rcases hleft with h | h
    · exact .inl h
    · rw [h]
      exact hn.rest
  refine ⟨hI.distinct, ?_, ?_, ?_, ?_⟩
  · show r.2.maxConnections < 256
    rw [hmax]
    exact hI.max_lt
  · exact ordered_goOn hI hm hn hd (hrest.imp_right fun h => h.1)
  · intro k hk
    show k.2 < r.2.maxConnections
    rw [hmax]
    have he := effect_dispatch (q := sys.host.queue) hd k
    rcases he.answer_cases hn.answers with ⟨hsame, -⟩ | ⟨hid, -⟩
    · have hview : sys.host.view k = r.2.view sys.host.queue k := hsame.symm
      refine hI.used k ?_
      rw [hview]
      exact hk
    · rw [← hid]
      exact hn.conn_lt
  · intro i m' hm'
    unfold System.goOn at hm'
    dsimp only at hm'
    by_cases hi : i = s
    · subst hi
      rw [Function.update_self] at hm'
      split at hm'
      · exact absurd hm' (by simp)
      · rename_i hne
        obtain rfl := Option.some.inj hm'
        exact (hrest.resolve_left hne).2
    · rw [Function.update_of_ne hi] at hm'
      exact hI.reading i m' hm'

theorem sysInv_process (hI : SysInv sys) (hs : sys.process link s = some sys') : SysInv sys' := by
  unfold System.process at hs
  cases hm : sys.reading s with
  | none =>
    rw [hm] at hs
    obtain rfl := Option.some.inj hs
    exact hI
  | some m =>
    rw [hm] at hs
    obtain ⟨t, left, hn⟩ := nextTpdu hI hm
    dsimp only at hs
    rw [hn.processOne_eq] at hs
    obtain ⟨p, hp, rfl⟩ := Option.map_eq_some_iff.mp hs
    obtain ⟨r, hd, rfl⟩ := Option.map_eq_some_iff.mp hp
    by_cases hneg : r.1 < 0
    · rw [if_pos hneg]
      exact sysInv_goOn hI hm hn hd (.inl rfl)
    · rw [if_neg hneg]
      exact sysInv_goOn hI hm hn hd (.inr rfl)

theorem sysInv_step {op : SysOp} (hI : SysInv sys) (hG : Orderly sys op) (hs : sys.step link op = some sys') :
    SysInv sys' := by
  cases op with
  | call c => exact sysInv_call hI hG hs
  | answer s tpdus =>
    obtain rfl := Option.some.inj hs
    exact sysInv_answer hI s tpdus
  | read s s' =>
    obtain rfl := Option.some.inj hs
    exact sysInv_read hI hG
  | process s => exact sysInv_process hI hs

/-! ### Runs -/

/-- **The transport layer gets on with conforming modules** along every orderly run: whatever the order of
calls, polls and answers, no answer is refused with EN50221ERR_BADCAMDATA or EN50221ERR_BADSTATE. -/
theorem accepted_of_orderly (link : Link) (maxSlots maxConnections : UInt8) (callback : Bool) (cams : Cams)
    (ops : List SysOp)
    (horderly : Along (System.step link) Orderly (.create maxSlots maxConnections callback cams) ops) :
    Along (System.step link) (Accepted link) (.create maxSlots maxConnections callback cams) ops :=
  Along.of_invariant (fun _ _ _ hI hG hs => sysInv_step hI hG hs)
    (fun _ op hI _ => accepted_of_sysInv hI op) ops _
    (sysInv_create maxSlots maxConnections callback cams) horderly

instance (sys : System) (op : SysOp) : Decidable (Orderly sys op) :=
  match op with
  | .call (.delTc s conn mem) => inferInstanceAs (Decidable (mem = true →
      (sys.host.view (s.toNat, conn.toNat)).state = .active ∨
        (sys.host.view (s.toNat, conn.toNat)).state = .inDeletion →
      (sys.host.view (s.toNat, conn.toNat)).queue = [] ∧ sys.pending (s.toNat, conn.toNat) = []))
  | .call (.timeout k late) => inferInstanceAs (Decidable (late = true → (sys.host.view k).txTime ≠ 0 →
      (sys.host.view k).state = .inCreation ∨ (sys.host.view k).state = .inDeletion →
        sys.pending k = []))
  | .read s s' =>
    match h : (sys.toHost s').head? with
    | none => isTrue (by simp [Orderly, h])
    | some r => decidable_of_iff (r.bytes.length ≤ 4096) (by simp [Orderly, h])
  | .call (.newTc _ _) | .call (.sendData _ _ _ _) | .call (.transmit _) | .call (.askPoll _ _)
  | .answer _ _ | .process _ => isTrue trivial

def oneCam : Cams := ⟨[⟨3, 0⟩], by decide⟩

def createReply : WireTpdu := ⟨⟨0x83, 1, []⟩, .short, by decide⟩

def deleteReply : WireTpdu := ⟨⟨0x85, 1, []⟩, .short, by decide⟩

def statusReply : WireTpdu := ⟨⟨0x80, 1, [0]⟩, .short, by decide⟩

/-- A module answers, and the host reads and processes the answer. -/
def exchange (tpdu : WireTpdu) : List SysOp := [.answer 0 [tpdu], .read 0 0, .process 0]

def openTc : List SysOp := [.call (.newTc 0 true), .call (.transmit (0, 1))] ++ exchange createReply

/-- A connection is opened and polled, and deleted after the poll was answered. -/
def orderlyOps : List SysOp :=
  openTc ++ [.call (.askPoll (0, 1) true)] ++ exchange statusReply ++
    [.call (.delTc 0 1 true), .call (.transmit (0, 1))] ++ exchange deleteReply

theorem accepted_orderlyOps :
    Along (System.step steadyLink) Orderly (.create 1 2 true oneCam) orderlyOps ∧
      Along (System.step steadyLink) (Accepted steadyLink) (.create 1 2 true oneCam) orderlyOps := by
  have horderly : Along (System.step steadyLink) Orderly (.create 1 2 true oneCam) orderlyOps := by
    decide
  exact ⟨horderly, accepted_of_orderly steadyLink 1 2 true oneCam orderlyOps horderly⟩

/-- A connection is opened and polled, and its deletion is asked for before the poll is answered. -/
def crossingOps : List SysOp :=
  openTc ++ [.call (.askPoll (0, 1) true), .call (.delTc 0 1 true), .answer 0 [statusReply], .read 0 0]

/-- The answer to the poll is refused. -/
theorem not_accepted_crossingOps :
    ∃ sys m tl, crossingOps.foldlM (System.step steadyLink) (.create 1 2 true oneCam) = some sys ∧
      sys.reading 0 = some m ∧ m.bytes = statusReply.bytes ∧
      processOne steadyLink 0 sys.host.tl m.bytes = some (-1, tl, []) ∧ tl.error = badCamData ∧
      ¬ Accepted steadyLink sys (.process 0) := by
  refine ⟨_, _, _, rfl, rfl, by decide, rfl, rfl, ?_⟩
  intro ha
  exact (ha _ rfl _ _ _ rfl (by decide)).1 rfl

end BgtDvb.En50221
