import BgtDvb.Lib.GuardedRun
import BgtDvb.En50221Session

/-!
# Opening sessions from the module

`en50221_sl_handle_open_session_request` tells the layer above that a session is connecting, and owes it
an answer: connected, or failed.  The branch that reports a failure stands behind a test that the session
is active, which it is not after a failure:

* `open_cases` — **PROVED**: all that a request can lead to;
* `along_openKept_iff` — **PROVED**: the protocol is kept along a sequence of requests exactly if every
  request of it is answered.
-/

namespace BgtDvb.En50221

open BgtDvb.GuardedRun

/-- An open_session_request as it is received, behind its tag, and what is outside while it is handled. -/
structure OpenRequest where
  data : List UInt8
  slot : UInt8
  conn : UInt8
  env : SlEnv
  deriving Repr, DecidableEq

/-- `en50221_sl_handle_open_session_request` with its length checks. -/
def openRequest (sl : Sl) (q : OpenRequest) : Sl × List SlEvent :=
  match decodeOpenSessionRequest q.data with
  | none => (sl, [])
  | some res => slHandleOpenSessionRequest sl q.env q.slot q.conn res

/-! ### The protocol -/

def SlEvent.isCallback : SlEvent → Bool
  | .callback _ _ _ _ => true
  | _ => false

/-- An answer with status 0x00 was given to the transport layer and taken. -/
def SlEvent.isOpened : SlEvent → Bool
  | .send _ _ bytes ok => ok && bytes.getD 2 0xff == 0x00
  | _ => false

def callbacksOf (sl : Sl) (q : OpenRequest) : List SlEvent :=
  (openRequest sl q).2.filter SlEvent.isCallback

/-- What a request owes the layer above: a CAMCONNECTING is followed by one CAMCONNECTED or
CAMCONNECTFAIL and nothing else, CAMCONNECTED is given exactly if a status 0x00 was queued, and the
session is active exactly then and idle otherwise. -/
structure OpenKept (sl : Sl) (q : OpenRequest) : Prop where
  answered : ∀ slot n res, .callback .camConnecting slot n res ∈ callbacksOf sl q →
    callbacksOf sl q = [.callback .camConnecting slot n res, .callback .camConnected slot n res] ∨
    callbacksOf sl q = [.callback .camConnecting slot n res, .callback .camConnectFail slot n res]
  connected_iff : (∃ slot n res, .callback .camConnected slot n res ∈ callbacksOf sl q) ↔
    ∃ e ∈ (openRequest sl q).2, e.isOpened = true
  state : ∀ slot n res, .callback .camConnecting slot n res ∈ callbacksOf sl q →
    if .callback .camConnected slot n res ∈ callbacksOf sl q then
      ((openRequest sl q).1.sessions n).state = .active
    else ((openRequest sl q).1.sessions n).state = .idle

def Sl.hasFree (sl : Sl) : Prop := ∃ i, 1 ≤ i ∧ i < sl.maxSessions ∧ (sl.sessions i).state = .idle

def OpenRequest.lookupRet (q : OpenRequest) : Option ℤ := q.env.lookup.map (·.1)

/-- The request is well formed, and whenever it is found, has a session number and a session callback to
ask, the callback does not object and the answer is taken; and no other result of the lookup looks like
0 in a byte. -/
def OpenAnswered (sl : Sl) (q : OpenRequest) : Prop :=
  decodeOpenSessionRequest q.data ≠ none →
    (q.lookupRet = some 0 → sl.hasFree → sl.hasSessionCallback = true →
      q.env.objects = false ∧ q.env.sendOk = true) ∧
    (∀ ret, q.lookupRet = some ret → ret ≠ 0 → q.env.sendOk = true → ret % 256 ≠ 0)

/-! ### Lookup, allocation, answer -/

theorem lookupStatus_open_iff (q : OpenRequest) :
    lookupStatus q.env.lookup = statusOpen ↔ q.lookupRet = some 0 := by
  unfold OpenRequest.lookupRet
  cases hl : q.env.lookup with
  | none => simp [lookupStatus, statusNoRes, statusOpen]
  | some l =>
    obtain ⟨ret, cb⟩ := l
    simp only [lookupStatus, Option.map_some, Option.some.injEq]
    by_cases h0 : ret = 0
    · simp [h0]
    · rw [if_neg h0]
      simp only [h0, iff_false]
      split
      · decide
      split
      · decide
      split
      · decide
      · exact h0

/-- The status byte of a request that was not found is 0 only for a lookup result that is a multiple of
256. -/
theorem lookupStatus_byte_iff (q : OpenRequest) (h : lookupStatus q.env.lookup ≠ statusOpen) :
    UInt8.ofInt (lookupStatus q.env.lookup) = 0 ↔
      ∃ ret, q.lookupRet = some ret ∧ ret ≠ 0 ∧ ret % 256 = 0 := by
  have hbyte : ∀ x : ℤ, UInt8.ofInt x = 0 ↔ x % 256 = 0 := by
    intro x
    rw [← UInt8.toNat_inj, UInt8.ofInt, UInt8.toNat_ofNat']
    show (x % 2 ^ 8).toNat % 2 ^ 8 = 0 ↔ _
    omega
  rw [hbyte]
  unfold OpenRequest.lookupRet
  cases hl : q.env.lookup with
  | none => simp [lookupStatus, statusNoRes]
  | some l =>
    obtain ⟨ret, cb⟩ := l
    simp only [Option.map_some, Option.some.injEq, exists_eq_left']
    rw [hl] at h
    simp only [lookupStatus] at h ⊢
    split at h
    · exact absurd rfl h
    rename_i h0
    rw [if_neg h0]
    split
    · rename_i h1
      simp [h1, statusNoRes]
    split
    · rename_i h1
      simp [h1, statusResLowVersion]
    split
    · rename_i h1
      simp [h1, statusResUnavailable]
    · simp [h0]

theorem alloc_cases (sl : Sl) (res : UInt32) (slot conn : UInt8) (cb : Option ℕ) :
    (¬ sl.hasFree ∧ ∃ sl', slAllocNewSession sl res slot conn cb = (none, sl')) ∨
    (sl.hasFree ∧ ∃ n sl', slAllocNewSession sl res slot conn cb = (some n, sl') ∧
      sl'.hasSessionCallback = sl.hasSessionCallback) := by
  unfold slAllocNewSession
  cases hf : (List.range sl.maxSessions).find? fun i => 1 ≤ i && (sl.sessions i).state == .idle with
  | none =>
    refine Or.inl ⟨?_, _, rfl⟩
    rintro ⟨i, h1, hlt, hidle⟩
    have := List.find?_eq_none.mp hf i (List.mem_range.mpr hlt)
    simp [h1, hidle] at this
  | some n =>
    have hp := List.find?_some hf
    have hm := List.mem_range.mp (List.mem_of_find?_eq_some hf)
    simp only [Bool.and_eq_true, decide_eq_true_eq, beq_iff_eq] at hp
    exact Or.inr ⟨⟨n, hp.1, hm, hp.2⟩, n, _, rfl, rfl⟩

theorem settleSession_eq (sl : Sl) (status : ℤ) (slot : UInt8) (n : ℕ) (res : UInt32) :
    settleSession sl status slot n res =
      if status = statusOpen then (sl.setSessionState n .active, sl.callSession .camConnected slot n res)
      else (sl.setSessionState n .idle, []) := by
  unfold settleSession
  by_cases h : status = statusOpen
  · simp only [h, ne_eq, not_true, if_false, if_true, setSessionState_self]
    rfl
  · simp only [h, ne_eq, not_false_iff, if_true, if_false, setSessionState_self]
    rfl

/-! ### One request -/

def Opened (sl : Sl) (q : OpenRequest) : Prop := ∃ e ∈ (openRequest sl q).2, e.isOpened = true

/-- The calls of a request: the lookup, the question to the session callback, the answer, the report. -/
def openEvents (b : Bool) (slot conn : UInt8) (res : UInt32) (asked told : List SlEvent) (status : UInt8)
    (id : UInt32) (nb : UInt16) (ok : Bool) : List SlEvent :=
  (if b = true then [SlEvent.lookup slot res] else []) ++ asked ++
    [.send slot conn (openSessionResHdr status id nb) ok] ++ told

theorem openEvents_callbacks {b ok : Bool} {slot conn status : UInt8} {res id : UInt32} {nb : UInt16}
    {asked told : List SlEvent} (ha : ∀ e ∈ asked, e.isCallback = true)
    (ht : ∀ e ∈ told, e.isCallback = true) :
    (openEvents b slot conn res asked told status id nb ok).filter SlEvent.isCallback = asked ++ told := by
  unfold openEvents
  rw [List.filter_append, List.filter_append, List.filter_append, List.filter_eq_self.mpr ha,
    List.filter_eq_self.mpr ht]
  cases b <;> simp [SlEvent.isCallback]

theorem not_isOpened_of_isCallback {e : SlEvent} (h : e.isCallback = true) : e.isOpened = false := by
  cases e with
  | callback reason slot n res => rfl
  | lookup | resource | send => exact absurd h (by simp [SlEvent.isCallback])

theorem openEvents_opened {b ok : Bool} {slot conn status : UInt8} {res id : UInt32} {nb : UInt16}
    {asked told : List SlEvent} (ha : ∀ e ∈ asked, e.isCallback = true)
    (ht : ∀ e ∈ told, e.isCallback = true) :
    (∃ e ∈ openEvents b slot conn res asked told status id nb ok, e.isOpened = true) ↔
      ok = true ∧ status = 0 := by
  have hsend : (SlEvent.send slot conn (openSessionResHdr status id nb) ok).isOpened = true ↔
      ok = true ∧ status = 0 := by
    show (ok && status == 0x00) = true ↔ _
    rw [Bool.and_eq_true, beq_iff_eq]
  constructor
  · rintro ⟨e, he, hopen⟩
    simp only [openEvents, List.mem_append, List.mem_singleton] at he
    rcases he with ((he | he) | rfl) | he
    · cases b with
      | false => exact absurd he (by simp)
      | true =>
        obtain rfl := List.mem_singleton.mp he
        exact absurd hopen (by simp [SlEvent.isOpened])
    · rw [not_isOpened_of_isCallback (ha e he)] at hopen
      exact absurd hopen (by simp)
    · exact hsend.mp hopen
    · rw [not_isOpened_of_isCallback (ht e he)] at hopen
      exact absurd hopen (by simp)
  · intro h
    exact ⟨_, by simp [openEvents], hsend.mpr h⟩

theorem openRequest_unnumbered_events {sl sl' : Sl} {q : OpenRequest} {status : ℤ}
    (ho : openSession sl q.env q.slot q.conn = (status, none, sl', [])) (res : UInt32) :
    (slHandleOpenSessionRequest sl q.env q.slot q.conn res).2 =
      openEvents q.env.lookup.isSome q.slot q.conn res [] [] (UInt8.ofInt status)
        q.env.connectedResourceId 0xffff q.env.sendOk := by
  simp only [slHandleOpenSessionRequest, ho, answerNumber, openEvents, List.append_nil]

theorem openRequest_numbered {sl sl' : Sl} {q : OpenRequest} {status : ℤ} {n : ℕ} {asked : List SlEvent}
    (ho : openSession sl q.env q.slot q.conn = (status, some n, sl', asked)) (res : UInt32) :
    slHandleOpenSessionRequest sl q.env q.slot q.conn res =
      ((settleSession sl' (if q.env.sendOk = true then status else statusNoRes) q.slot n
          q.env.connectedResourceId).1,
        openEvents q.env.lookup.isSome q.slot q.conn res asked
          (settleSession sl' (if q.env.sendOk = true then status else statusNoRes) q.slot n
            q.env.connectedResourceId).2 (UInt8.ofInt status)
          q.env.connectedResourceId (answerNumber (some n)) q.env.sendOk) := by
  simp only [slHandleOpenSessionRequest, ho, openEvents]

/-- **All that a request can lead to**: it is not found; there is no number for it or nobody to ask; the
session callback is asked and then left without an answer; or the session is opened. -/
theorem open_cases (sl : Sl) (q : OpenRequest) {res : UInt32}
    (hd : decodeOpenSessionRequest q.data = some res) :
    (lookupStatus q.env.lookup ≠ statusOpen ∧ callbacksOf sl q = [] ∧
      (Opened sl q ↔ q.env.sendOk = true ∧ UInt8.ofInt (lookupStatus q.env.lookup) = 0)) ∨
    (q.lookupRet = some 0 ∧ ¬ (sl.hasFree ∧ sl.hasSessionCallback = true) ∧ callbacksOf sl q = [] ∧
      ¬ Opened sl q) ∨
    (q.lookupRet = some 0 ∧ (sl.hasFree ∧ sl.hasSessionCallback = true) ∧
      ¬ (q.env.objects = false ∧ q.env.sendOk = true) ∧
      ∃ n, callbacksOf sl q = [.callback .camConnecting q.slot n q.env.connectedResourceId]) ∨
    (q.lookupRet = some 0 ∧ (sl.hasFree ∧ sl.hasSessionCallback = true) ∧
      (q.env.objects = false ∧ q.env.sendOk = true) ∧
      ∃ n, callbacksOf sl q = [.callback .camConnecting q.slot n q.env.connectedResourceId,
          .callback .camConnected q.slot n q.env.connectedResourceId] ∧
        Opened sl q ∧ ((openRequest sl q).1.sessions n).state = .active) := by
  have hreq : openRequest sl q = slHandleOpenSessionRequest sl q.env q.slot q.conn res := by
    rw [openRequest, hd]
  unfold callbacksOf Opened
  rw [hreq]
  by_cases hst : lookupStatus q.env.lookup = statusOpen
  · have hret := (lookupStatus_open_iff q).mp hst
    right
    rcases alloc_cases sl q.env.connectedResourceId q.slot q.conn (q.env.lookup.bind (·.2)) with
      ⟨hfree, sl', halloc⟩ | ⟨hfree, n, sl', halloc, hcb⟩
    · have hopen : openSession sl q.env q.slot q.conn = (statusNoRes, none, sl', []) := by
        simp only [openSession, if_pos hst, halloc]
      rw [openRequest_unnumbered_events hopen, openEvents_callbacks (by simp) (by simp), openEvents_opened (by simp) (by simp)]
      exact Or.inl ⟨hret, fun h => hfree h.1, rfl, fun h => absurd h.2 (by decide)⟩
    · have hopen : openSession sl q.env q.slot q.conn =
          ((askSession sl' q.env q.slot n q.env.connectedResourceId).1, some n, sl',
            (askSession sl' q.env q.slot n q.env.connectedResourceId).2) := by
        simp only [openSession, if_pos hst, halloc]
      rw [openRequest_numbered hopen]
      simp only [settleSession_eq]
      by_cases hc : sl.hasSessionCallback = true
      · rw [hc] at hcb
        right
        simp only [askSession, hcb, if_true]
        by_cases hgood : q.env.objects = false ∧ q.env.sendOk = true
        · simp only [hgood.1, hgood.2, if_true, Bool.false_eq_true, if_false]
          refine Or.inr ⟨hret, ⟨hfree, hc⟩, ⟨trivial, trivial⟩, n, ?_, ?_, ?_⟩
          · rw [openEvents_callbacks]
            · simp [Sl.callSession, hcb]
            · simp [SlEvent.isCallback]
            · simp [Sl.callSession, hcb, SlEvent.isCallback]
          · rw [openEvents_opened]
            · exact ⟨rfl, rfl⟩
            · simp [SlEvent.isCallback]
            · simp [Sl.callSession, hcb, SlEvent.isCallback]
          · rw [setSessionState_self]
        · have hclosed : (if q.env.sendOk = true then
              (if q.env.objects = true then statusResBusy else statusOpen) else statusNoRes) ≠ statusOpen := by
            cases hok : q.env.sendOk <;> cases hob : q.env.objects
            · decide
            · decide
            · exact absurd ⟨hob, hok⟩ hgood
            · decide
          refine Or.inl ⟨hret, ⟨hfree, hc⟩, hgood, n, ?_⟩
          rw [if_neg hclosed, openEvents_callbacks (by simp [SlEvent.isCallback]) (by simp)]
          rfl
      · have hc' : sl'.hasSessionCallback = false := by rw [hcb]; simpa using hc
        left
        have hclosed : (if q.env.sendOk = true then statusResUnavailable else statusNoRes) ≠ statusOpen := by
          cases q.env.sendOk <;> decide
        simp only [askSession, hc', Bool.false_eq_true, if_false]
        rw [if_neg hclosed, openEvents_callbacks (by simp) (by simp), openEvents_opened (by simp) (by simp)]
        exact ⟨hret, fun h => hc h.2, rfl, fun h => absurd h.2 (by decide)⟩
  · have hopen : openSession sl q.env q.slot q.conn = (lookupStatus q.env.lookup, none, sl, []) := if_neg hst
    rw [openRequest_unnumbered_events hopen, openEvents_callbacks (by simp) (by simp), openEvents_opened (by simp) (by simp)]
    exact Or.inl ⟨hst, rfl, Iff.rfl⟩

theorem openKept_of_no_callbacks {sl : Sl} {q : OpenRequest} (hcb : callbacksOf sl q = []) :
    OpenKept sl q ↔ ¬ Opened sl q := by
  constructor
  · intro h ho
    obtain ⟨slot, n, r, hm⟩ := h.connected_iff.mpr ho
    rw [hcb] at hm
    exact absurd hm List.not_mem_nil
  · intro ho
    refine ⟨?_, ⟨?_, fun h => absurd h ho⟩, ?_⟩
    all_goals
      rw [hcb]
      simp

theorem openKept_of_connected {sl : Sl} {q : OpenRequest} {slot : UInt8} {n : ℕ} {res : UInt32}
    (hcb : callbacksOf sl q = [.callback .camConnecting slot n res, .callback .camConnected slot n res])
    (hop : Opened sl q) (hact : ((openRequest sl q).1.sessions n).state = .active) : OpenKept sl q := by
  have hask : ∀ slot' m r, SlEvent.callback .camConnecting slot' m r ∈ callbacksOf sl q →
      slot' = slot ∧ m = n ∧ r = res := by
    intro slot' m r hm
    rw [hcb] at hm
    simpa using hm
  refine ⟨?_, iff_of_true ?_ hop, ?_⟩
  · intro slot' m r hm
    obtain ⟨rfl, rfl, rfl⟩ := hask slot' m r hm
    exact .inl hcb
  · exact ⟨slot, n, res, by rw [hcb]; simp⟩
  · intro slot' m r hm
    obtain ⟨rfl, rfl, rfl⟩ := hask slot' m r hm
    rw [if_pos (by rw [hcb]; simp)]
    exact hact

/-- **One request** keeps the protocol exactly if it is answered. -/
theorem openKept_iff (sl : Sl) (q : OpenRequest) : OpenKept sl q ↔ OpenAnswered sl q := by
  unfold OpenAnswered
  cases hd : decodeOpenSessionRequest q.data with
  | none =>
    have hreq : openRequest sl q = (sl, []) := by rw [openRequest, hd]
    have hcb : callbacksOf sl q = [] := by rw [callbacksOf, hreq]; rfl
    refine iff_of_true ((openKept_of_no_callbacks hcb).mpr ?_) (fun h => absurd rfl h)
    rw [Opened, hreq]
    simp
  | some res =>
    simp only [ne_eq, reduceCtorEq, not_false_iff, forall_const]
    have hfound : q.lookupRet = some 0 →
        ∀ ret, q.lookupRet = some ret → ret ≠ 0 → q.env.sendOk = true → ret % 256 ≠ 0 := by
      intro hret ret hr hr0
      rw [hret] at hr
      exact absurd (Option.some.inj hr).symm hr0
    rcases open_cases sl q hd with ⟨hst, hcb, hop⟩ | ⟨hret, hno, hcb, hop⟩ | ⟨hret, hyes, hbad, n, hcb⟩ |
      ⟨hret, hyes, hgood, n, hcb, hop, hact⟩
    · -- not found: only the status byte can be wrong
      have hne : q.lookupRet ≠ some 0 := fun h => hst ((lookupStatus_open_iff q).mpr h)
      rw [openKept_of_no_callbacks hcb, hop, lookupStatus_byte_iff q hst]
      constructor
      · intro h
        exact ⟨fun h0 => absurd h0 hne, fun ret hret hr0 hok hm => h ⟨hok, ret, hret, hr0, hm⟩⟩
      · rintro ⟨-, h⟩ ⟨hok, ret, hret, hr0, hm⟩
        exact h ret hret hr0 hok hm
    · -- no number, or nobody to ask: no callbacks at all
      exact iff_of_true ((openKept_of_no_callbacks hcb).mpr hop)
        ⟨fun _ hf hc => absurd ⟨hf, hc⟩ hno, hfound hret⟩
    · -- asked, and no answer
      refine iff_of_false ?_ (fun h => hbad (h.1 hret hyes.1 hyes.2))
      intro h
      have hans := h.answered q.slot n q.env.connectedResourceId (by rw [hcb]; simp)
      rw [hcb] at hans
      exact absurd hans (by simp)
    · -- opened
      exact iff_of_true (openKept_of_connected hcb hop hact) ⟨fun _ _ _ => hgood, hfound hret⟩

/-! ### Every sequence of requests -/

/-- **The session open protocol.**  From every session table it is kept along a sequence of requests
exactly if every request of the sequence is answered. -/
theorem along_openKept_iff (qs : List OpenRequest) (sl : Sl) :
    Along (fun sl q => some (openRequest sl q).1) OpenKept sl qs ↔
      Along (fun sl q => some (openRequest sl q).1) OpenAnswered sl qs :=
  along_iff_of_invariant (fun _ _ _ _ _ _ => trivial) (fun sl q _ => openKept_iff sl q) qs sl trivial

def oneSession : Sl := ⟨2, fun _ => ⟨.idle, 0, 0, 0, none⟩, true, 0⟩

/-- The session callback objects to the session of the resource manager, and is never told that it
failed. -/
theorem not_openKept_objection :
    ¬ Along (fun sl q => some (openRequest sl q).1) OpenKept oneSession
      [⟨[4, 0x00, 0x01, 0x00, 0x41], 0, 1, ⟨some (0, none), 0x00010041, true, true⟩⟩] := by
  intro h
  have hans := h.1.answered 0 1 0x00010041 (by decide)
  exact absurd hans (by decide)

end BgtDvb.En50221
