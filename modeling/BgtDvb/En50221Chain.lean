import BgtDvb.Lib.GuardedRun
import BgtDvb.En50221Transport

/-!
# Chained data on a connection

A module may cut data into chunks: `T_DATA_MORE` TPDUs and a `T_DATA_LAST`.  The connection collects the
chunks in its chain buffer, and the last one hands the whole up.  Two things go wrong.  The callback is
made only if the **last chunk** has a byte, so an empty last chunk loses the chain.  And a chain of no
bytes is a block of size 0: the next `realloc` to size 0 frees it and returns `NULL`, which is taken for
a lack of memory and leaves a freed pointer behind.

* `frame_dispatch` — **PROVED**: a TPDU of another connection leaves a connection and its data alone;
* `more_spec`, `last_spec` — **PROVED**: what a chunk does, in every state of the chain;
* `delivered_iff_chainFits` — **PROVED**: the chunks are handed up as one, once, exactly if the last one
  is not empty, the chain does not begin with two empty ones, and the whole is shorter than 2^31 bytes.
-/

namespace BgtDvb.En50221

open BgtDvb.GuardedRun

/-! ### Receptions and what is handed up -/

def dataCalls (k : ConnId) (tl : Tl) : List (List UInt8) :=
  (tl.calls.filter fun e => decide (e.reason = .data) && decide (e.conn = k)).map TlCall.data

abbrev Buf := ℕ × List Tpdu

def mineOf (k : ConnId) (slot : ℕ) (ts : List Tpdu) : List Tpdu := ts.filter fun t => t.id slot = k

def mine (k : ConnId) (bufs : List Buf) : List Tpdu := bufs.flatMap fun b => mineOf k b.1 b.2

def encoded (bufs : List (ℕ × List WireTpdu)) : List (ℕ × List UInt8) :=
  bufs.map fun b => (b.1, b.2.flatMap WireTpdu.bytes)

def decoded (bufs : List (ℕ × List WireTpdu)) : List Buf := bufs.map fun b => (b.1, b.2.map WireTpdu.tpdu)

def bufStep (link : Link) (tl : Tl) (b : Buf) : Option Tl := (handleAll link b.1 tl b.2).map Prod.snd

def stopsAt (link : Link) (slot : ℕ) : Tl → List Tpdu → Option Tpdu
  | _, [] => none
  | tl, t :: ts =>
    match dispatch link slot tl t with
    | none => some t
    | some (ret, tl) => if ret < 0 then some t else stopsAt link slot tl ts

def OthersAccepted (link : Link) (k : ConnId) (tl : Tl) (b : Buf) : Prop :=
  ∀ t ∈ stopsAt link b.1 tl b.2, t.id b.1 = k

instance instDecidableOthersAccepted (link : Link) (k : ConnId) (tl : Tl) (b : Buf) :
    Decidable (OthersAccepted link k tl b) :=
  match h : stopsAt link b.1 tl b.2 with
  | none => isTrue fun t ht => by rw [h] at ht; exact absurd ht (by simp)
  | some t => decidable_of_iff (t.id b.1 = k) (by simp [OthersAccepted, h])

/-- An active connection without a pending chain receives the chunks, in any buffers and between TPDUs of
other connections that are accepted. -/
structure Reception (link : Link) (tl : Tl) (k : ConnId) (bufs : List (ℕ × List WireTpdu))
    (ds : List (List UInt8)) (d : List UInt8) : Prop where
  active : (tl.conn k).state = .active
  chain_null : (tl.conn k).chain = .null
  length_zero : (tl.conn k).bufferLength = 0
  callback : tl.callback = true
  id_lt : k.2 < tl.maxConnections
  mine_eq : (mine k (decoded bufs)).map (fun t => (t.tag, t.payload))
    = ds.map (fun x => (tDataMore, x)) ++ [(tDataLast, d)]
  others : Along (bufStep link) (OthersAccepted link k) tl (decoded bufs)

/-- The data is handed up once (not at all if there is none), and no chain is left. -/
def Delivered (link : Link) (tl : Tl) (k : ConnId) (bufs : List (ℕ × List WireTpdu))
    (data : List UInt8) : Prop :=
  ∃ tl', receive link tl (encoded bufs) = some tl' ∧
    dataCalls k tl' = dataCalls k tl ++ (if data = [] then [] else [data]) ∧
    (tl'.conn k).chain = .null ∧ (tl'.conn k).bufferLength = 0

/-- A single package; or the last chunk is not empty, the first two of several are not both empty, and an
`int` holds the length. -/
def ChainFits (ds : List (List UInt8)) (d : List UInt8) : Prop :=
  ds = [] ∨ d ≠ [] ∧ (ds.length = 1 ∨ (ds.take 2).flatten ≠ []) ∧ (ds.flatten ++ d).length < 2 ^ 31

/-! ### TPDUs of other connections -/

/-- A connection, its data calls and what is common to all connections are as before. -/
structure Frame (k : ConnId) (tl tl' : Tl) : Prop where
  conn_eq : tl'.conn k = tl.conn k
  callback_eq : tl'.callback = tl.callback
  max_eq : tl'.maxConnections = tl.maxConnections
  calls_eq : dataCalls k tl' = dataCalls k tl

theorem Frame.refl (k : ConnId) (tl : Tl) : Frame k tl tl := ⟨rfl, rfl, rfl, rfl⟩

variable {tl : Tl} {link : Link} {slot n : ℕ} {ch : Option (List UInt8)} {c : Connection} {bs : List Buf}
    {ts : List Tpdu}

theorem Frame.trans {k : ConnId} {tl' tl'' : Tl} (h : Frame k tl tl') (h' : Frame k tl' tl'') : Frame k tl tl'' :=
  ⟨h'.conn_eq.trans h.conn_eq, h'.callback_eq.trans h.callback_eq, h'.max_eq.trans h.max_eq,
    h'.calls_eq.trans h.calls_eq⟩

variable {k j : ConnId}

theorem frame_setConn (hk : j ≠ k) (tl : Tl) (c : Connection) : Frame k tl (tl.setConn j c) :=
  ⟨Function.update_of_ne hk.symm _ _, rfl, rfl, rfl⟩

theorem frame_write (link : Link) (tl : Tl) (msg : List UInt8) : Frame k tl (tl.write link j msg).2 :=
  ⟨rfl, rfl, rfl, rfl⟩

theorem frame_fail (tl : Tl) (slot : ℕ) (err : ℤ) : Frame k tl (tl.fail slot err).2 :=
  ⟨rfl, rfl, rfl, rfl⟩

theorem dataCalls_call (tl : Tl) (reason : Reason) (data : List UInt8) (hcb : tl.callback = true) :
    dataCalls k (tl.call reason data j)
      = dataCalls k tl ++ (if reason = .data ∧ j = k then [data] else []) := by
  rw [Tl.call, if_pos hcb, dataCalls, dataCalls, List.filter_append, List.map_append]
  by_cases hr : reason = .data
  · by_cases hk : j = k
    · simp [hr, hk]
    · simp [hr, hk]
  · simp [hr]

theorem frame_call (tl : Tl) (reason : Reason) (data : List UInt8) (h : reason ≠ .data ∨ j ≠ k) :
    Frame k tl (tl.call reason data j) := by
  cases hcb : tl.callback with
  | false =>
    rw [Tl.call, hcb]
    exact Frame.refl k tl
  | true =>
    have hcalls := dataCalls_call (k := k) (j := j) tl reason data hcb
    have hnone : ¬ (reason = .data ∧ j = k) := by
      rcases h with hr | hk
      · exact fun hboth => hr hboth.1
      · exact fun hboth => hk hboth.2
    rw [if_neg hnone, List.append_nil] at hcalls
    rw [Tl.call, if_pos hcb] at hcalls ⊢
    exact ⟨rfl, rfl, rfl, hcalls⟩

theorem frame_createTcReply (hk : j ≠ k) (tl : Tl) : Frame k tl (handleCreateTcReply tl j).2 := by
  rw [handleCreateTcReply]
  split
  · exact (frame_setConn hk tl _).trans (frame_call _ _ _ (Or.inl (by decide)))
  · exact frame_fail tl _ _

theorem frame_deleteTc (hk : j ≠ k) (link : Link) (tl : Tl) (h : handleDeleteTc link tl j = some r) :
    Frame k tl r.2 := by
  rw [handleDeleteTc] at h
  split at h
  · split at h
    · exact absurd h (by simp)
    · have hset := (frame_setConn hk tl
        { tl.conn j with state := .idle, chain := .null, bufferLength := 0 }).trans
          (frame_write (j := j) link _ [0x85, 1, UInt8.ofNat j.2])
      dsimp only at h
      split at h
      · obtain rfl := Option.some.inj h
        exact hset.trans (frame_fail _ _ _)
      · obtain rfl := Option.some.inj h
        exact hset.trans (frame_call _ _ _ (Or.inl (by decide)))
  · obtain rfl := Option.some.inj h
    exact frame_fail tl _ _

theorem frame_deleteTcReply (hk : j ≠ k) (tl : Tl) : Frame k tl (handleDeleteTcReply tl j).2 := by
  rw [handleDeleteTcReply]
  split
  · exact frame_setConn hk tl _
  · exact frame_fail tl _ _

theorem allocNewTc_eq {conid : ℕ} (h : allocNewTc tl s = some (conid, tl')) :
    (tl.conn (s, conid)).state = .idle ∧ conid < tl.maxConnections ∧
      tl' = tl.setConn (s, conid)
        { tl.conn (s, conid) with state := .inCreation, chain := .null, bufferLength := 0 } := by
  rw [allocNewTc] at h
  split at h
  · exact absurd h (by simp)
  · rename_i conid' hfind
    obtain ⟨rfl, rfl⟩ := Prod.mk.inj (Option.some.inj h)
    have hmem := List.mem_of_find?_eq_some hfind
    rw [List.mem_range'_1] at hmem
    exact ⟨by simpa using List.find?_some hfind, by omega, rfl⟩

theorem frame_openNewTc (hk : j ≠ k) {conid : ℕ} (hnew : (j.1, conid) ≠ k) (link : Link) (tl : Tl) :
    Frame k tl (openNewTc link tl j conid).2 := by
  have hfirst := frame_write (k := k) (j := j) link tl [0x87, 2, UInt8.ofNat j.2, UInt8.ofNat conid]
  rw [openNewTc]
  dsimp only
  split
  · exact (hfirst.trans (frame_setConn hnew _ _)).trans (frame_fail _ _ _)
  · have hsecond := (hfirst.trans (frame_setConn hk _ _)).trans (frame_write (k := k)
      (j := (j.1, conid)) link ((tl.write link j [0x87, 2, UInt8.ofNat j.2,
        UInt8.ofNat conid]).2.setTxTime j 0) [0x82, 1, UInt8.ofNat conid])
    split
    · exact (hsecond.trans (frame_setConn hnew _ _)).trans (frame_fail _ _ _)
    · exact (hsecond.trans (frame_setConn hnew _ _)).trans (frame_call _ _ _ (Or.inl (by decide)))

theorem frame_requestTc (hk : j ≠ k) (link : Link) (tl : Tl) (hactive : (tl.conn k).state = .active) :
    Frame k tl (handleRequestTc link tl j).2 := by
  rw [handleRequestTc]
  split
  · have hwrite := frame_write (k := k) (j := j) link tl [0x77, 2, UInt8.ofNat j.2, 1]
    dsimp only
    split
    · exact hwrite.trans (frame_fail _ _ _)
    · exact hwrite.trans (frame_setConn hk _ _)
  · rename_i conid tl' halloc
    obtain ⟨hidle, -, rfl⟩ := allocNewTc_eq halloc
    have hnew : (j.1, conid) ≠ k := by
      intro heq
      rw [heq, hactive] at hidle
      exact absurd hidle (by decide)
    exact (frame_setConn hnew tl _).trans (frame_openNewTc hk hnew link _)

theorem frame_dataMore (hk : j ≠ k) (tl : Tl) (data : List UInt8) (h : handleDataMore tl j data = some r) :
    Frame k tl r.2 := by
  rw [handleDataMore] at h
  split at h
  · obtain rfl := Option.some.inj h
    exact frame_fail tl _ _
  · dsimp only at h
    split at h
    · exact absurd h (by simp)
    · obtain rfl := Option.some.inj h
      exact (frame_setConn hk tl _).trans (frame_fail _ _ _)
    · obtain rfl := Option.some.inj h
      exact frame_setConn hk tl _

theorem frame_lastCall (hk : j ≠ k) (tl : Tl) (c : Connection) (n : ℕ) (data : List UInt8) :
    Frame k tl (if n ≠ 0 then (tl.setConn j c).call .data data j else tl.setConn j c) := by
  split
  · exact (frame_setConn hk tl c).trans (frame_call _ _ _ (Or.inr hk))
  · exact frame_setConn hk tl c

theorem frame_dataLast (hk : j ≠ k) (tl : Tl) (data : List UInt8) (h : handleDataLast tl j data = some r) :
    Frame k tl r.2 := by
  rw [handleDataLast] at h
  split at h
  · obtain rfl := Option.some.inj h
    exact frame_fail tl _ _
  · dsimp only at h
    split at h
    · obtain rfl := Option.some.inj h
      exact frame_lastCall hk tl _ _ _
    · split at h
      · exact absurd h (by simp)
      · obtain rfl := Option.some.inj h
        exact (frame_setConn hk tl _).trans (frame_fail _ _ _)
      · obtain rfl := Option.some.inj h
        exact frame_lastCall hk tl _ _ _

theorem frame_sb (hk : j ≠ k) (link : Link) (tl : Tl) (data : List UInt8) :
    Frame k tl (handleSb link tl j data).2 := by
  rw [handleSb.eq_def]
  split
  · exact frame_fail tl _ _
  · split
    · rename_i b
      split
      · have hwrite := frame_write (k := k) (j := j) link tl [0x81, 1, UInt8.ofNat j.2]
        dsimp only
        split
        · exact hwrite.trans (frame_fail _ _ _)
        · exact hwrite.trans (frame_setConn hk _ _)
      · exact frame_setConn hk tl _
    · exact frame_fail tl _ _

/-- **A TPDU of another connection** leaves an active connection and its data alone. -/
theorem frame_dispatch (hk : t.id slot ≠ k) (hactive : (tl.conn k).state = .active)
    (h : dispatch link slot tl t = some r) : Frame k tl r.2 := by
  rw [dispatch] at h
  split at h
  · obtain rfl := Option.some.inj h
    exact frame_fail tl _ _
  · rw [handleTpdu] at h
    repeat' split at h
    · obtain rfl := Option.some.inj h
      exact frame_createTcReply hk tl
    · exact frame_deleteTc hk link tl h
    · obtain rfl := Option.some.inj h
      exact frame_deleteTcReply hk tl
    · obtain rfl := Option.some.inj h
      exact frame_requestTc hk link tl hactive
    · exact frame_dataMore hk tl _ h
    · exact frame_dataLast hk tl _ h
    · obtain rfl := Option.some.inj h
      exact frame_sb hk link tl _
    · obtain rfl := Option.some.inj h
      exact frame_fail tl _ _

/-! ### A chunk -/

/-- The chain of an active connection: none, or the bytes collected so far. -/
structure Holds (tl : Tl) (k : ConnId) (ch : Option (List UInt8)) : Prop where
  active : (tl.conn k).state = .active
  callback : tl.callback = true
  id_lt : k.2 < tl.maxConnections
  chain_eq : (tl.conn k).chain = ch.elim .null .alloc
  length_eq : (tl.conn k).bufferLength = (ch.getD []).length
  length_lt : (ch.getD []).length < 2 ^ 31

theorem Holds.of_frame (h : Holds tl k ch) (hf : Frame k tl tl') :
    Holds tl' k ch where
  active := by rw [hf.conn_eq]; exact h.active
  callback := hf.callback_eq.trans h.callback
  id_lt := by rw [hf.max_eq]; exact h.id_lt
  chain_eq := by rw [hf.conn_eq]; exact h.chain_eq
  length_eq := by rw [hf.conn_eq]; exact h.length_eq
  length_lt := h.length_lt

@[simp] theorem conn_setConn (tl : Tl) (k : ConnId) (c : Connection) : (tl.setConn k c).conn k = c := by
  show Function.update tl.conn k c k = c
  rw [Function.update_self]

theorem holds_setConn (h : Holds tl k ch) (hstate : c.state = .active) (hchain : c.chain = ch'.elim .null .alloc)
    (hlen : c.bufferLength = (ch'.getD []).length) (hlt : (ch'.getD []).length < 2 ^ 31) :
    Holds (tl.setConn k c) k ch' := by
  exact ⟨by rw [conn_setConn]; exact hstate, h.callback, h.id_lt, by rw [conn_setConn]; exact hchain,
    by rw [conn_setConn]; exact hlen, hlt⟩

theorem holds_none (h : Holds tl k ch) (hstate : c.state = .active) (hchain : c.chain = .null)
    (hlen : c.bufferLength = 0) : Holds (tl.setConn k c) k none :=
  holds_setConn h hstate hchain hlen (by decide)

/-- A connection whose chain buffer was freed. -/
structure Dangling (tl : Tl) (k : ConnId) : Prop where
  active : (tl.conn k).state = .active
  id_lt : k.2 < tl.maxConnections
  chain_eq : (tl.conn k).chain = .dangling

theorem Dangling.of_frame (h : Dangling tl k) (hf : Frame k tl tl') : Dangling tl' k where
  active := by rw [hf.conn_eq]; exact h.active
  id_lt := by rw [hf.max_eq]; exact h.id_lt
  chain_eq := by rw [hf.conn_eq]; exact h.chain_eq

theorem dangling_setConn (h : Holds tl k ch) (hstate : c.state = .active) (hchain : c.chain = .dangling) :
    Dangling (tl.setConn k c) k :=
  ⟨by rw [conn_setConn]; exact hstate, h.id_lt, by rw [conn_setConn]; exact hchain⟩

theorem sizeOfInt_of_lt (h : n < 2 ^ 31) : sizeOfInt n = n := by
  have hmod : n % 2 ^ 32 = n := Nat.mod_eq_of_lt (lt_trans h (by decide))
  rw [sizeOfInt, hmod, if_pos h]

/-- A length that an `int` cannot hold is a size beyond all memory. -/
theorem sizeOfInt_of_ge (h : 2 ^ 31 ≤ n) (h' : n < 2 ^ 32) : 2 ^ 63 ≤ sizeOfInt n := by
  rw [sizeOfInt, Nat.mod_eq_of_lt h', if_neg (Nat.not_lt.mpr h)]
  omega

theorem realloc_alloc {acc : List UInt8} (hacc : acc.length < 2 ^ 31) (hn : n < 2 ^ 16) :
    realloc (.alloc acc) (sizeOfInt (acc.length + n))
      = if acc.length + n = 0 then some (none, .dangling)
        else if acc.length + n < 2 ^ 31 then some (some acc, .dangling)
        else some (none, .alloc acc) := by
  by_cases hlt : acc.length + n < 2 ^ 31
  · rw [sizeOfInt_of_lt hlt, realloc, if_pos hlt]
    by_cases hzero : acc.length + n = 0
    · rw [if_pos hzero, if_pos hzero]
    · rw [if_neg hzero, if_neg hzero, if_pos (lt_trans hlt (by decide)),
        List.take_of_length_le (Nat.le_add_right _ _)]
  · have hsize := sizeOfInt_of_ge (Nat.not_lt.mp hlt) (by omega)
    rw [realloc, if_neg (by omega), if_neg (by omega), if_neg (by omega), if_neg hlt]

theorem realloc_null (hn : n < 2 ^ 16) : realloc .null (sizeOfInt n) = some (some [], .null) := by
  have hlt : n < 2 ^ 31 := lt_trans hn (by decide)
  rw [sizeOfInt_of_lt hlt, realloc, if_pos (lt_trans hlt (by decide))]

theorem joinChunk_length (acc data : List UInt8) : joinChunk acc acc.length data = acc ++ data := by
  rw [joinChunk, List.take_length]

/-- What a chunk that is not the last one can do: run into a block of size 0, be added, or find no room
in an `int`. -/
inductive MoreResult (tl : Tl) (k : ConnId) (ch : Option (List UInt8)) (data : List UInt8) :
    ℤ × Tl → Prop where
  | freed {tl' : Tl} (hch : ch = some []) (hdata : data = []) (h : Dangling tl' k)
      (hcalls : dataCalls k tl' = dataCalls k tl) : MoreResult tl k ch data (-1, tl')
  | added {tl' : Tl} (hne : ¬ (ch = some [] ∧ data = [])) (hlt : (ch.getD [] ++ data).length < 2 ^ 31)
      (h : Holds tl' k (some (ch.getD [] ++ data))) (hcalls : dataCalls k tl' = dataCalls k tl) :
      MoreResult tl k ch data (0, tl')
  | tooLong {tl' : Tl} (hge : 2 ^ 31 ≤ (ch.getD [] ++ data).length) (h : Holds tl' k ch)
      (hcalls : dataCalls k tl' = dataCalls k tl) : MoreResult tl k ch data (-1, tl')

theorem more_spec (h : Holds tl k ch) (hn : data.length < 2 ^ 16) :
    ∃ r, handleDataMore tl k data = some r ∧ MoreResult tl k ch data r := by
  rw [handleDataMore, if_neg (not_not.mpr h.active)]
  dsimp only
  rw [h.chain_eq, h.length_eq]
  cases ch with
  | none =>
    have hlt : data.length < 2 ^ 31 := lt_trans hn (by decide)
    have hmod : data.length % 2 ^ 32 = data.length := Nat.mod_eq_of_lt (lt_trans hn (by decide))
    rw [Option.getD_none, List.length_nil, Nat.zero_add, Option.elim_none, realloc_null hn]
    refine ⟨_, rfl, MoreResult.added (by simp) (by simpa using hlt) ?_ rfl⟩
    exact holds_setConn h h.active rfl hmod (by simpa using hlt)
  | some acc =>
    have hlen : (acc ++ data).length = acc.length + data.length := List.length_append
    have hacc : acc.length < 2 ^ 31 := h.length_lt
    rw [Option.getD_some, Option.elim_some, realloc_alloc hacc hn]
    by_cases hzero : acc.length + data.length = 0
    · obtain ⟨rfl, rfl⟩ : acc = [] ∧ data = [] := by simpa using hzero
      rw [if_pos hzero]
      refine ⟨_, rfl, MoreResult.freed rfl rfl ?_ rfl⟩
      exact (dangling_setConn (c := ⟨(tl.conn k).state, 0, .dangling, _⟩) h h.active rfl).of_frame
        (frame_fail _ _ _)
    · rw [if_neg hzero]
      by_cases hlt : acc.length + data.length < 2 ^ 31
      · have hmod : (acc.length + data.length) % 2 ^ 32 = (acc ++ data).length := by
          rw [hlen]
          exact Nat.mod_eq_of_lt (lt_trans hlt (by decide))
        rw [if_pos hlt]
        refine ⟨_, rfl, MoreResult.added ?_ (hlen ▸ hlt) ?_ rfl⟩
        · rintro ⟨hnil, rfl⟩
          obtain rfl := Option.some.inj hnil
          exact hzero rfl
        · refine holds_setConn h h.active ?_ hmod (hlen ▸ hlt)
          rw [joinChunk_length]
          rfl
      · rw [if_neg hlt]
        refine ⟨_, rfl, MoreResult.tooLong ?_ ?_ rfl⟩
        · exact hlen ▸ Nat.not_lt.mp hlt
        · exact (holds_setConn (c := ⟨(tl.conn k).state, 0, .alloc acc, acc.length⟩) h h.active rfl rfl
            h.length_lt).of_frame (frame_fail _ _ _)

/-- What a last chunk can do: be handed up at once, run into a block of size 0, hand up the chain unless
it is empty itself, or find no room in an `int`. -/
inductive LastResult (tl : Tl) (k : ConnId) (ch : Option (List UInt8)) (data : List UInt8) :
    ℤ × Tl → Prop where
  | single {tl' : Tl} (hch : ch = none) (h : Holds tl' k none)
      (hcalls : dataCalls k tl' = dataCalls k tl ++ if data = [] then [] else [data]) :
      LastResult tl k ch data (0, tl')
  | freed {tl' : Tl} (hch : ch = some []) (hdata : data = []) (h : Dangling tl' k)
      (hcalls : dataCalls k tl' = dataCalls k tl) : LastResult tl k ch data (-1, tl')
  | whole {tl' : Tl} {acc : List UInt8} (hch : ch = some acc) (hne : ¬ (acc = [] ∧ data = []))
      (hlt : (acc ++ data).length < 2 ^ 31) (h : Holds tl' k none)
      (hcalls : dataCalls k tl' = dataCalls k tl ++ if data = [] then [] else [acc ++ data]) :
      LastResult tl k ch data (0, tl')
  | tooLong {tl' : Tl} {acc : List UInt8} (hch : ch = some acc) (hge : 2 ^ 31 ≤ (acc ++ data).length)
      (h : Holds tl' k ch) (hcalls : dataCalls k tl' = dataCalls k tl) : LastResult tl k ch data (-1, tl')

theorem lastCall_spec (h : Holds tl k ch) (data whole : List UInt8) :
    Holds (if data.length ≠ 0 then tl.call .data whole k else tl) k ch ∧
      dataCalls k (if data.length ≠ 0 then tl.call .data whole k else tl)
        = dataCalls k tl ++ if data = [] then [] else [whole] := by
  by_cases hdata : data = []
  · rw [if_neg (not_not.mpr (by rw [hdata]; rfl)), if_pos hdata, List.append_nil]
    exact ⟨h, rfl⟩
  · have hpos : data.length ≠ 0 := fun hzero => hdata (List.eq_nil_of_length_eq_zero hzero)
    rw [if_pos hpos, if_neg hdata, dataCalls_call tl .data whole h.callback, if_pos ⟨rfl, rfl⟩]
    refine ⟨?_, rfl⟩
    rw [Tl.call, if_pos h.callback]
    exact ⟨h.active, h.callback, h.id_lt, h.chain_eq, h.length_eq, h.length_lt⟩

theorem last_spec (h : Holds tl k ch) (hn : data.length < 2 ^ 16) :
    ∃ r, handleDataLast tl k data = some r ∧ LastResult tl k ch data r := by
  rw [handleDataLast, if_neg (not_not.mpr h.active)]
  dsimp only
  cases ch with
  | none =>
    have hchain : (tl.conn k).chain = .null := h.chain_eq
    rw [if_pos hchain]
    obtain ⟨hholds, hcalls⟩ := lastCall_spec
      (holds_setConn (c := { tl.conn k with txTime := 0 }) h h.active h.chain_eq h.length_eq h.length_lt)
      data data
    exact ⟨_, rfl, LastResult.single rfl hholds hcalls⟩
  | some acc =>
    have hlen : (acc ++ data).length = acc.length + data.length := List.length_append
    have hacc : acc.length < 2 ^ 31 := h.length_lt
    have hchain : (tl.conn k).chain = .alloc acc := h.chain_eq
    have hblen : (tl.conn k).bufferLength = acc.length := h.length_eq
    rw [hchain, hblen, if_neg (by simp), realloc_alloc hacc hn]
    by_cases hzero : acc.length + data.length = 0
    · obtain ⟨rfl, rfl⟩ : acc = [] ∧ data = [] := by simpa using hzero
      rw [if_pos hzero]
      refine ⟨_, rfl, LastResult.freed rfl rfl ?_ rfl⟩
      exact (dangling_setConn (c := ⟨(tl.conn k).state, 0, .dangling, _⟩) h h.active rfl).of_frame
        (frame_fail _ _ _)
    · rw [if_neg hzero]
      by_cases hlt : acc.length + data.length < 2 ^ 31
      · rw [if_pos hlt]
        dsimp only
        rw [joinChunk_length]
        obtain ⟨hholds, hcalls⟩ := lastCall_spec
          (holds_none (c := { tl.conn k with txTime := 0, chain := .null, bufferLength := 0 })
            h h.active rfl rfl) data (acc ++ data)
        refine ⟨_, rfl, LastResult.whole rfl ?_ (hlen ▸ hlt) hholds hcalls⟩
        rintro ⟨rfl, rfl⟩
        exact hzero rfl
      · rw [if_neg hlt]
        refine ⟨_, rfl, LastResult.tooLong rfl (hlen ▸ Nat.not_lt.mp hlt) ?_ rfl⟩
        exact (holds_setConn (c := ⟨(tl.conn k).state, 0, .alloc acc, acc.length⟩) h h.active rfl rfl
          h.length_lt).of_frame (frame_fail _ _ _)

/-! ### The TPDUs of a connection -/

def IsChunk (t : Tpdu) : Prop := (t.tag = tDataMore ∨ t.tag = tDataLast) ∧ t.payload.length < 2 ^ 16

theorem dispatch_mine (hid : t.id slot = k) (hlt : k.2 < tl.maxConnections) :
    dispatch link slot tl t = handleTpdu link tl k t.tag t.payload := by
  subst hid
  have hle : ¬ tl.maxConnections ≤ t.conn.toNat := Nat.not_le.mpr hlt
  rw [dispatch, if_neg hle]

theorem dispatch_more (hid : t.id slot = k) (hlt : k.2 < tl.maxConnections) (htag : t.tag = tDataMore) :
    dispatch link slot tl t = handleDataMore tl k t.payload := by
  rw [dispatch_mine hid hlt, htag]
  rfl

theorem dispatch_last (hid : t.id slot = k) (hlt : k.2 < tl.maxConnections) (htag : t.tag = tDataLast) :
    dispatch link slot tl t = handleDataLast tl k t.payload := by
  rw [dispatch_mine hid hlt, htag]
  rfl

theorem dispatch_dangling (h : Dangling tl k) (hid : t.id slot = k) (ht : IsChunk t) :
    dispatch link slot tl t = none := by
  rcases ht.1 with htag | htag
  · rw [dispatch_more hid h.id_lt htag, handleDataMore, if_neg (not_not.mpr h.active)]
    dsimp only
    rw [h.chain_eq]
    rfl
  · rw [dispatch_last hid h.id_lt htag, handleDataLast, if_neg (not_not.mpr h.active)]
    dsimp only
    rw [h.chain_eq, if_neg (by decide)]
    rfl

/-- Data handed up in pieces that each fit into an `int`. -/
def GrowsShort (k : ConnId) (tl tl' : Tl) : Prop :=
  ∃ new : List (List UInt8), dataCalls k tl' = dataCalls k tl ++ new ∧ ∀ x ∈ new, x.length < 2 ^ 31

theorem GrowsShort.of_eq (h : dataCalls k tl' = dataCalls k tl) : GrowsShort k tl tl' :=
  ⟨[], by rw [h, List.append_nil], fun _ hx => absurd hx List.not_mem_nil⟩

theorem GrowsShort.trans (h : GrowsShort k tl tl') (h' : GrowsShort k tl' tl'') : GrowsShort k tl tl'' := by
  obtain ⟨new, heq, hshort⟩ := h
  obtain ⟨new', heq', hshort'⟩ := h'
  refine ⟨new ++ new', by rw [heq', heq, List.append_assoc], fun x hx => ?_⟩
  rcases List.mem_append.mp hx with hx | hx
  · exact hshort x hx
  · exact hshort' x hx

theorem GrowsShort.of_one (h : dataCalls k tl' = dataCalls k tl ++ if data = [] then [] else [x])
    (hx : x.length < 2 ^ 31) : GrowsShort k tl tl' := by
  refine ⟨_, h, fun y hy => ?_⟩
  split at hy
  · exact absurd hy List.not_mem_nil
  · rw [List.mem_singleton.mp hy]
    exact hx

/-- A chain or a freed pointer: what an active connection is left with, whatever chunks arrive. -/
def Chained (tl : Tl) (k : ConnId) : Prop := (∃ ch, Holds tl k ch) ∨ Dangling tl k

theorem dispatch_chunk (h : Chained tl k) (hid : t.id slot = k) (ht : IsChunk t)
    (hd : dispatch link slot tl t = some r) : Chained r.2 k ∧ GrowsShort k tl r.2 := by
  rcases h with ⟨ch, h⟩ | h
  · rcases ht.1 with htag | htag
    · obtain ⟨r', hr', hres⟩ := more_spec h ht.2
      rw [dispatch_more hid h.id_lt htag, hr'] at hd
      obtain rfl := Option.some.inj hd
      cases hres with
      | freed _ _ hdang hcalls => exact ⟨Or.inr hdang, GrowsShort.of_eq hcalls⟩
      | added _ _ hholds hcalls => exact ⟨Or.inl ⟨_, hholds⟩, GrowsShort.of_eq hcalls⟩
      | tooLong _ hholds hcalls => exact ⟨Or.inl ⟨_, hholds⟩, GrowsShort.of_eq hcalls⟩
    · obtain ⟨r', hr', hres⟩ := last_spec h ht.2
      rw [dispatch_last hid h.id_lt htag, hr'] at hd
      obtain rfl := Option.some.inj hd
      cases hres with
      | single _ hholds hcalls =>
        exact ⟨Or.inl ⟨_, hholds⟩, GrowsShort.of_one hcalls (lt_trans ht.2 (by decide))⟩
      | freed _ _ hdang hcalls => exact ⟨Or.inr hdang, GrowsShort.of_eq hcalls⟩
      | whole _ _ hlt hholds hcalls => exact ⟨Or.inl ⟨_, hholds⟩, GrowsShort.of_one hcalls hlt⟩
      | tooLong _ _ hholds hcalls => exact ⟨Or.inl ⟨_, hholds⟩, GrowsShort.of_eq hcalls⟩
  · rw [dispatch_dangling h hid ht] at hd
    exact absurd hd (by simp)

/-! ### Sequences of buffers -/

def runFrom (link : Link) (slot : ℕ) (tl : Tl) (ts : List Tpdu) (bs : List Buf) : Option Tl :=
  (handleAll link slot tl ts).bind fun r => bs.foldlM (bufStep link) r.2

def mineFrom (k : ConnId) (slot : ℕ) (ts : List Tpdu) (bs : List Buf) : List Tpdu :=
  mineOf k slot ts ++ mine k bs

def OthersFrom (link : Link) (k : ConnId) (slot : ℕ) (tl : Tl) (ts : List Tpdu) (bs : List Buf) : Prop :=
  OthersAccepted link k tl (slot, ts) ∧
    ∀ r, handleAll link slot tl ts = some r → Along (bufStep link) (OthersAccepted link k) r.2 bs

/-- Induction over the TPDUs of a sequence of buffers.  After a TPDU comes the rest of the buffer or, if
it is refused, the next buffer. -/
@[elab_as_elim]
theorem buffers_induction {P : ℕ → List Tpdu → List Buf → Prop} (done : ∀ slot, P slot [] [])
    (next : ∀ slot b bs, P b.1 b.2 bs → P slot [] (b :: bs))
    (tpdu : ∀ slot t ts bs, P slot ts bs → P slot [] bs → P slot (t :: ts) bs)
    (slot : ℕ) (ts : List Tpdu) (bs : List Buf) : P slot ts bs := by
  induction bs generalizing slot ts with
  | nil =>
    induction ts with
    | nil => exact done slot
    | cons t ts ih => exact tpdu slot t ts [] ih (done slot)
  | cons b bs ihb =>
    induction ts with
    | nil => exact next slot b bs (ihb b.1 b.2)
    | cons t ts ih => exact tpdu slot t ts (b :: bs) ih (next slot b bs (ihb b.1 b.2))

section Run

variable {link : Link} {slot : ℕ} {tl tl' : Tl} {t : Tpdu} {ts : List Tpdu} {bs : List Buf} {ret : ℤ}

theorem runFrom_nil (link : Link) (slot : ℕ) (tl : Tl) (bs : List Buf) :
    runFrom link slot tl [] bs = bs.foldlM (bufStep link) tl := rfl

theorem runFrom_next (link : Link) (slot : ℕ) (tl : Tl) (b : Buf) (bs : List Buf) :
    runFrom link slot tl [] (b :: bs) = runFrom link b.1 tl b.2 bs := by
  rw [runFrom_nil, List.foldlM_cons, runFrom, bufStep]
  cases handleAll link b.1 tl b.2 with
  | none => rfl
  | some r => rfl

theorem runFrom_accepted (h : dispatch link slot tl t = some (ret, tl')) (hret : ¬ ret < 0) :
    runFrom link slot tl (t :: ts) bs = runFrom link slot tl' ts bs := by
  rw [runFrom, handleAll, h]
  dsimp only
  rw [if_neg hret, runFrom]

theorem runFrom_refused (h : dispatch link slot tl t = some (ret, tl')) (hret : ret < 0) :
    runFrom link slot tl (t :: ts) bs = runFrom link slot tl' [] bs := by
  rw [runFrom, handleAll, h]
  dsimp only
  rw [if_pos hret, runFrom_nil]
  rfl

theorem runFrom_none (h : dispatch link slot tl t = none) :
    runFrom link slot tl (t :: ts) bs = none := by
  rw [runFrom, handleAll, h]
  rfl

theorem OthersFrom.next {b : Buf} (h : OthersFrom link k slot tl [] (b :: bs)) :
    OthersFrom link k b.1 tl b.2 bs := by
  obtain ⟨hacc, hrest⟩ := h.2 (0, tl) rfl
  refine ⟨hacc, fun r hr => hrest r.2 ?_⟩
  rw [bufStep, hr]
  rfl

theorem OthersFrom.accepted (h : OthersFrom link k slot tl (t :: ts) bs)
    (hd : dispatch link slot tl t = some (ret, tl')) (hret : ¬ ret < 0) :
    OthersFrom link k slot tl' ts bs := by
  obtain ⟨hstop, hrest⟩ := h
  rw [OthersAccepted, stopsAt, hd] at hstop
  dsimp only at hstop
  rw [if_neg hret] at hstop
  refine ⟨hstop, fun r hr => hrest r ?_⟩
  rw [handleAll, hd]
  dsimp only
  rw [if_neg hret, hr]

theorem OthersFrom.other (h : OthersFrom link k slot tl (t :: ts) bs) (hid : t.id slot ≠ k) :
    ∃ r, dispatch link slot tl t = some r ∧ ¬ r.1 < 0 := by
  obtain ⟨hstop, -⟩ := h
  rw [OthersAccepted, stopsAt] at hstop
  cases hd : dispatch link slot tl t with
  | none =>
    rw [hd] at hstop
    exact absurd (hstop t rfl) hid
  | some r =>
    refine ⟨r, rfl, fun hneg => ?_⟩
    rw [hd] at hstop
    dsimp only at hstop
    rw [if_pos hneg] at hstop
    exact absurd (hstop t rfl) hid

theorem mineFrom_other (hid : t.id slot ≠ k) : mineFrom k slot (t :: ts) bs = mineFrom k slot ts bs := by
  rw [mineFrom, mineOf, List.filter_cons_of_neg (by simpa using hid)]
  rfl

theorem mineFrom_mine (hid : t.id slot = k) :
    mineFrom k slot (t :: ts) bs = t :: mineFrom k slot ts bs := by
  rw [mineFrom, mineOf, List.filter_cons_of_pos (by simpa using hid), List.cons_append]
  rfl

theorem mem_mineFrom_nil {x : Tpdu} (h : x ∈ mineFrom k slot [] bs) : x ∈ mineFrom k slot (t :: ts) bs :=
  List.mem_append_right _ h

theorem mem_mineFrom_cons {x : Tpdu} (h : x ∈ mineFrom k slot ts bs) :
    x ∈ mineFrom k slot (t :: ts) bs := by
  by_cases hid : t.id slot = k
  · rw [mineFrom_mine hid]
    exact List.mem_cons_of_mem t h
  · rw [mineFrom_other hid]
    exact h

end Run

/-- **A freed pointer stays**: no later chunk repairs the connection. -/
theorem dangling_runFrom (h : Dangling tl k) (hchunk : ∀ t ∈ mineFrom k slot ts bs, IsChunk t)
    (hrun : runFrom link slot tl ts bs = some tl') : Dangling tl' k := by
  induction slot, ts, bs using buffers_induction generalizing tl with
  | done slot =>
    obtain rfl := Option.some.inj hrun
    exact h
  | next slot b bs ih =>
    rw [runFrom_next] at hrun
    exact ih h hchunk hrun
  | tpdu slot t ts bs ih ihnext =>
    cases hd : dispatch link slot tl t with
    | none =>
      rw [runFrom_none hd] at hrun
      exact absurd hrun (by simp)
    | some r =>
      have hid : t.id slot ≠ k := by
        intro hid
        have ht := hchunk t (by rw [mineFrom_mine hid]; exact List.mem_cons_self)
        rw [dispatch_dangling h hid ht] at hd
        exact absurd hd (by simp)
      have hdang := h.of_frame (frame_dispatch hid h.active hd)
      by_cases hret : r.1 < 0
      · rw [runFrom_refused hd hret] at hrun
        exact ihnext hdang (fun x hx => hchunk x (mem_mineFrom_nil hx)) hrun
      · rw [runFrom_accepted hd hret] at hrun
        exact ih hdang (fun x hx => hchunk x (mem_mineFrom_cons hx)) hrun

theorem Chained.active (h : Chained tl k) : (tl.conn k).state = .active := by
  rcases h with ⟨ch, h⟩ | h
  · exact h.active
  · exact h.active

theorem Chained.of_frame (h : Chained tl k) (hf : Frame k tl tl') : Chained tl' k := by
  rcases h with ⟨ch, h⟩ | h
  · exact Or.inl ⟨ch, h.of_frame hf⟩
  · exact Or.inr (h.of_frame hf)

/-- Whatever happens to the chunks, nothing that an `int` cannot count is handed up. -/
theorem growsShort_runFrom (h : Chained tl k) (hchunk : ∀ t ∈ mineFrom k slot ts bs, IsChunk t)
    (hrun : runFrom link slot tl ts bs = some tl') : GrowsShort k tl tl' := by
  induction slot, ts, bs using buffers_induction generalizing tl with
  | done slot =>
    obtain rfl := Option.some.inj hrun
    exact GrowsShort.of_eq rfl
  | next slot b bs ih =>
    rw [runFrom_next] at hrun
    exact ih h hchunk hrun
  | tpdu slot t ts bs ih ihnext =>
    cases hd : dispatch link slot tl t with
    | none =>
      rw [runFrom_none hd] at hrun
      exact absurd hrun (by simp)
    | some r =>
      have hstep : Chained r.2 k ∧ GrowsShort k tl r.2 := by
        by_cases hid : t.id slot = k
        · exact dispatch_chunk h hid (hchunk t (by rw [mineFrom_mine hid]; exact List.mem_cons_self)) hd
        · have hf := frame_dispatch hid h.active hd
          exact ⟨h.of_frame hf, GrowsShort.of_eq hf.calls_eq⟩
      by_cases hret : r.1 < 0
      · rw [runFrom_refused hd hret] at hrun
        exact hstep.2.trans (ihnext hstep.1 (fun x hx => hchunk x (mem_mineFrom_nil hx)) hrun)
      · rw [runFrom_accepted hd hret] at hrun
        exact hstep.2.trans (ih hstep.1 (fun x hx => hchunk x (mem_mineFrom_cons hx)) hrun)

theorem frame_runFrom (hactive : (tl.conn k).state = .active) (hmine : mineFrom k slot ts bs = [])
    (hothers : OthersFrom link k slot tl ts bs) : ∃ tl', runFrom link slot tl ts bs = some tl' ∧ Frame k tl tl' := by
  induction slot, ts, bs using buffers_induction generalizing tl with
  | done slot => exact ⟨tl, rfl, Frame.refl k tl⟩
  | next slot b bs ih =>
    rw [runFrom_next]
    exact ih hactive hmine hothers.next
  | tpdu slot t ts bs ih _ =>
    have hid : t.id slot ≠ k := by
      intro hid
      rw [mineFrom_mine hid] at hmine
      exact absurd hmine (List.cons_ne_nil _ _)
    obtain ⟨r, hd, hret⟩ := hothers.other hid
    have hf := frame_dispatch hid hactive hd
    rw [mineFrom_other hid] at hmine
    rw [runFrom_accepted hd hret]
    obtain ⟨tl', hrun, hf'⟩ := ih (by rw [hf.conn_eq]; exact hactive) hmine (hothers.accepted hd hret)
    exact ⟨tl', hrun, hf.trans hf'⟩

/-! ### Chunks up to the last one -/

/-- The chunks that are still to come are handed up with the chain, chunk by chunk: no step to size 0, no
length beyond an `int`, and a last chunk that is not empty if there is a chain. -/
def ChainOk : Option (List UInt8) → List (List UInt8) → List UInt8 → Prop
  | none, [], _ => True
  | some acc, [], d => d ≠ [] ∧ (acc ++ d).length < 2 ^ 31
  | ch, x :: ds, d =>
    ¬ (ch = some [] ∧ x = []) ∧ (ch.getD [] ++ x).length < 2 ^ 31 ∧ ChainOk (some (ch.getD [] ++ x)) ds d

/-- `Delivered` for the rest of a buffer and the buffers after it. -/
def DeliveredFrom (link : Link) (k : ConnId) (slot : ℕ) (tl : Tl) (ts : List Tpdu) (bs : List Buf)
    (data : List UInt8) : Prop :=
  ∃ tl', runFrom link slot tl ts bs = some tl' ∧
    dataCalls k tl' = dataCalls k tl ++ (if data = [] then [] else [data]) ∧
    (tl'.conn k).chain = .null ∧ (tl'.conn k).bufferLength = 0

theorem not_deliveredFrom_dangling {tl₁ : Tl} {ts₁ : List Tpdu}
    (hrun : runFrom link slot tl ts bs = runFrom link slot tl₁ ts₁ bs) (h : Dangling tl₁ k)
    (hchunk : ∀ t ∈ mineFrom k slot ts₁ bs, IsChunk t) : ¬ DeliveredFrom link k slot tl ts bs data := by
  rintro ⟨tl', hrun', -, hnull, -⟩
  rw [hrun] at hrun'
  have hdang := dangling_runFrom h hchunk hrun'
  rw [hdang.chain_eq] at hnull
  exact absurd hnull (by decide)

theorem not_deliveredFrom_long (h : Chained tl k) (hchunk : ∀ t ∈ mineFrom k slot ts bs, IsChunk t)
    (hlong : 2 ^ 31 ≤ data.length) : ¬ DeliveredFrom link k slot tl ts bs data := by
  rintro ⟨tl', hrun, hcalls, -, -⟩
  obtain ⟨new, heq, hshort⟩ := growsShort_runFrom h hchunk hrun
  have hne : data ≠ [] := by
    rintro rfl
    exact absurd hlong (by decide)
  rw [if_neg hne, heq] at hcalls
  have hnew : new = [data] := List.append_cancel_left hcalls
  have hlt := hshort data (by rw [hnew]; exact List.mem_singleton_self data)
  omega

theorem deliveredFrom_last {tl₁ : Tl} {new : List (List UInt8)} (hd : dispatch link slot tl t = some (0, tl₁))
    (h : Holds tl₁ k none) (hmine : mineFrom k slot ts bs = []) (hothers : OthersFrom link k slot tl (t :: ts) bs)
    (hcalls : dataCalls k tl₁ = dataCalls k tl ++ new) :
    DeliveredFrom link k slot tl (t :: ts) bs data ↔ new = if data = [] then [] else [data] := by
  have hret : ¬ (0 : ℤ) < 0 := lt_irrefl 0
  obtain ⟨tl', hrun, hf⟩ := frame_runFrom h.active hmine (hothers.accepted hd hret)
  have hall : dataCalls k tl' = dataCalls k tl ++ new := hf.calls_eq.trans hcalls
  constructor
  · rintro ⟨tl'', hrun', hcalls', -, -⟩
    rw [runFrom_accepted hd hret, hrun] at hrun'
    obtain rfl := Option.some.inj hrun'
    rw [hall] at hcalls'
    exact List.append_cancel_left hcalls'
  · intro hnew
    refine ⟨tl', by rw [runFrom_accepted hd hret, hrun], by rw [hall, hnew], ?_, ?_⟩
    · rw [hf.conn_eq]
      exact h.chain_eq
    · rw [hf.conn_eq]
      exact h.length_eq

def Tpdu.chunk (t : Tpdu) : UInt8 × List UInt8 := (t.tag, t.payload)

theorem deliveredFrom_lastChunk (h : Holds tl k ch) (hid : t.id slot = k) (ht : IsChunk t) (htag : t.tag = tDataLast)
    (hmine : mineFrom k slot ts bs = []) (hothers : OthersFrom link k slot tl (t :: ts) bs) :
    DeliveredFrom link k slot tl (t :: ts) bs (ch.getD [] ++ t.payload) ↔ ChainOk ch [] t.payload := by
  have hnone : ∀ x ∈ mineFrom k slot [] bs, IsChunk x := by
    have hnil : mineFrom k slot [] bs = [] := (List.append_eq_nil_iff.mp hmine).2
    rw [hnil]
    exact fun x hx => absurd hx List.not_mem_nil
  obtain ⟨r, hr, hres⟩ := last_spec h ht.2
  have hd : dispatch link slot tl t = some r := (dispatch_last hid h.id_lt htag).trans hr
  cases hres with
  | single hch hholds hcalls =>
    subst hch
    exact iff_of_true ((deliveredFrom_last hd hholds hmine hothers hcalls).mpr rfl) trivial
  | freed hch hdata hdang hcalls =>
    subst hch
    refine iff_of_false ?_ (fun hok => hok.1 hdata)
    exact not_deliveredFrom_dangling (runFrom_refused hd (by decide)) hdang hnone
  | @whole _ acc hch hne hlt hholds hcalls =>
    subst hch
    rw [deliveredFrom_last hd hholds hmine hothers hcalls, Option.getD_some]
    by_cases hdata : t.payload = []
    · -- the chain is lost: the test is on the last chunk
      have hacc : acc ++ t.payload ≠ [] := fun happ =>
        hne ⟨(List.append_eq_nil_iff.mp happ).1, hdata⟩
      rw [if_pos hdata, if_neg hacc]
      exact iff_of_false (fun hnil => absurd hnil (by simp)) (fun hok => hok.1 hdata)
    · have hacc : acc ++ t.payload ≠ [] := fun happ => hdata (List.append_eq_nil_iff.mp happ).2
      rw [if_neg hdata, if_neg hacc]
      exact iff_of_true rfl ⟨hdata, hlt⟩
  | @tooLong _ acc hch hge hholds hcalls =>
    subst hch
    refine iff_of_false ?_ (fun hok => absurd hok.2 (Nat.not_lt.mpr hge))
    refine not_deliveredFrom_long (Or.inl ⟨_, h⟩) (fun x hx => ?_) hge
    rw [mineFrom_mine hid, hmine] at hx
    rw [List.mem_singleton.mp hx]
    exact ht

variable {ds : List (List UInt8)} {d : List UInt8}

theorem deliveredFrom_moreChunk (h : Holds tl k ch) (hid : t.id slot = k) (htag : t.tag = tDataMore)
    (hchunk : ∀ x ∈ mineFrom k slot (t :: ts) bs, IsChunk x) (hothers : OthersFrom link k slot tl (t :: ts) bs)
    (ih : ∀ tl', Holds tl' k (some (ch.getD [] ++ t.payload)) → OthersFrom link k slot tl' ts bs →
      (DeliveredFrom link k slot tl' ts bs ((ch.getD [] ++ t.payload) ++ (ds.flatten ++ d)) ↔
        ChainOk (some (ch.getD [] ++ t.payload)) ds d)) :
    DeliveredFrom link k slot tl (t :: ts) bs (ch.getD [] ++ ((t.payload :: ds).flatten ++ d)) ↔
      ChainOk ch (t.payload :: ds) d := by
  have ht : IsChunk t := hchunk t (by rw [mineFrom_mine hid]; exact List.mem_cons_self)
  have hdata : ch.getD [] ++ ((t.payload :: ds).flatten ++ d)
      = (ch.getD [] ++ t.payload) ++ (ds.flatten ++ d) := by
    rw [List.flatten_cons, List.append_assoc, List.append_assoc]
  have hok : ChainOk ch (t.payload :: ds) d ↔ ¬ (ch = some [] ∧ t.payload = []) ∧
      (ch.getD [] ++ t.payload).length < 2 ^ 31 ∧ ChainOk (some (ch.getD [] ++ t.payload)) ds d := by
    cases ch <;> exact Iff.rfl
  rw [hdata, hok]
  obtain ⟨r, hr, hres⟩ := more_spec h ht.2
  have hd : dispatch link slot tl t = some r := (dispatch_more hid h.id_lt htag).trans hr
  cases hres with
  | freed hch hpayload hdang hcalls =>
    refine iff_of_false ?_ (fun hall => hall.1 ⟨hch, hpayload⟩)
    exact not_deliveredFrom_dangling (runFrom_refused hd (by decide)) hdang
      (fun x hx => hchunk x (mem_mineFrom_nil hx))
  | @added tl₁ hne hlt hholds hcalls =>
    have hret : ¬ (0 : ℤ) < 0 := lt_irrefl 0
    have hiff := ih tl₁ hholds (hothers.accepted hd hret)
    rw [DeliveredFrom, hcalls, ← runFrom_accepted hd hret] at hiff
    rw [DeliveredFrom, hiff]
    exact ⟨fun hall => ⟨hne, hlt, hall⟩, fun hall => hall.2.2⟩
  | tooLong hge hholds hcalls =>
    refine iff_of_false ?_ (fun hall => absurd hall.2.1 (Nat.not_lt.mpr hge))
    refine not_deliveredFrom_long (Or.inl ⟨_, h⟩) hchunk ?_
    rw [List.length_append]
    omega

/-- **The chunks of a connection**, wherever they stand in the buffers. -/
theorem deliveredFrom_iff (h : Holds tl k ch) (hchunk : ∀ t ∈ mineFrom k slot ts bs, IsChunk t)
    (hmine : (mineFrom k slot ts bs).map Tpdu.chunk
      = ds.map (fun x => (tDataMore, x)) ++ [(tDataLast, d)]) (hothers : OthersFrom link k slot tl ts bs) :
    DeliveredFrom link k slot tl ts bs (ch.getD [] ++ (ds.flatten ++ d)) ↔ ChainOk ch ds d := by
  induction slot, ts, bs using buffers_induction generalizing tl ch ds with
  | done slot => exact absurd hmine (by simp [mineFrom, mineOf, mine])
  | next slot b bs ih =>
    rw [DeliveredFrom, runFrom_next]
    exact ih h hchunk hmine hothers.next
  | tpdu slot t ts bs ih _ =>
    by_cases hid : t.id slot = k
    · rw [mineFrom_mine hid, List.map_cons] at hmine
      cases ds with
      | nil =>
        obtain ⟨hhead, htail⟩ := List.cons.inj hmine
        obtain ⟨htag, rfl⟩ := Prod.mk.inj hhead
        have ht : IsChunk t := hchunk t (by rw [mineFrom_mine hid]; exact List.mem_cons_self)
        exact deliveredFrom_lastChunk h hid ht htag (List.map_eq_nil_iff.mp htail) hothers
      | cons x ds =>
        obtain ⟨hhead, htail⟩ := List.cons.inj hmine
        obtain ⟨htag, rfl⟩ := Prod.mk.inj hhead
        refine deliveredFrom_moreChunk h hid htag hchunk hothers fun tl' h' hothers' => ?_
        exact ih h' (fun x hx => hchunk x (mem_mineFrom_cons hx)) htail hothers'
    · obtain ⟨r, hd, hret⟩ := hothers.other hid
      have hf := frame_dispatch hid h.active hd
      rw [mineFrom_other hid] at hmine
      have hiff := ih (h.of_frame hf) (fun x hx => hchunk x (mem_mineFrom_cons hx)) hmine
        (hothers.accepted hd hret)
      rw [DeliveredFrom, hf.calls_eq, ← runFrom_accepted hd hret] at hiff
      exact hiff

/-- From a chain with a byte on, only the last chunk and the total matter. -/
theorem chainOk_some_iff (ds : List (List UInt8)) (acc d : List UInt8) (hacc : acc ≠ []) :
    ChainOk (some acc) ds d ↔ d ≠ [] ∧ (acc ++ (ds.flatten ++ d)).length < 2 ^ 31 := by
  induction ds generalizing acc with
  | nil => exact Iff.rfl
  | cons x ds ih =>
    have hne : acc ++ x ≠ [] := fun happ => hacc (List.append_eq_nil_iff.mp happ).1
    have hdata : acc ++ ((x :: ds).flatten ++ d) = (acc ++ x) ++ (ds.flatten ++ d) := by
      rw [List.flatten_cons, List.append_assoc, List.append_assoc]
    show ¬ (some acc = some [] ∧ x = []) ∧ (acc ++ x).length < 2 ^ 31 ∧ ChainOk (some (acc ++ x)) ds d ↔ _
    rw [ih (acc ++ x) hne, hdata]
    constructor
    · exact fun hall => hall.2.2
    · refine fun hall => ⟨fun hnil => hacc (Option.some.inj hnil.1), ?_, hall⟩
      have hlen := hall.2
      rw [List.length_append] at hlen
      omega

theorem chainOk_none_iff (ds : List (List UInt8)) (d : List UInt8) : ChainOk none ds d ↔ ChainFits ds d := by
  rw [ChainFits]
  match ds with
  | [] => exact iff_of_true trivial (Or.inl rfl)
  | [x] =>
    show ¬ (none = some [] ∧ x = []) ∧ x.length < 2 ^ 31 ∧ d ≠ [] ∧ (x ++ d).length < 2 ^ 31 ↔ _
    rw [List.flatten_singleton]
    constructor
    · rintro ⟨-, -, hd, hlt⟩
      exact Or.inr ⟨hd, Or.inl rfl, hlt⟩
    · rintro (hnil | ⟨hd, -, hlt⟩)
      · exact absurd hnil (List.cons_ne_nil _ _)
      · refine ⟨fun hnone => absurd hnone.1 (by simp), ?_, hd, hlt⟩
        rw [List.length_append] at hlt
        omega
  | x :: y :: ds =>
    have htwo : (List.take 2 (x :: y :: ds)).flatten = x ++ y := by simp
    have hdata : (x :: y :: ds).flatten ++ d = (x ++ y) ++ (ds.flatten ++ d) := by simp
    show ¬ (none = some [] ∧ x = []) ∧ x.length < 2 ^ 31 ∧ ¬ (some x = some [] ∧ y = []) ∧
      (x ++ y).length < 2 ^ 31 ∧ ChainOk (some (x ++ y)) ds d ↔ _
    rw [htwo, hdata]
    by_cases hxy : x ++ y = []
    · obtain ⟨rfl, rfl⟩ := List.append_eq_nil_iff.mp hxy
      refine iff_of_false (fun hall => hall.2.2.1 ⟨rfl, rfl⟩) ?_
      rintro (hnil | ⟨-, hone | hne, -⟩)
      · exact absurd hnil (List.cons_ne_nil _ _)
      · exact absurd hone (by simp)
      · exact hne rfl
    · rw [chainOk_some_iff ds (x ++ y) d hxy]
      constructor
      · rintro ⟨-, -, -, -, hd, hlt⟩
        exact Or.inr ⟨hd, Or.inr hxy, hlt⟩
      · rintro (hnil | ⟨hd, -, hlt⟩)
        · exact absurd hnil (List.cons_ne_nil _ _)
        · have hlen := hlt
          rw [List.length_append, List.length_append] at hlen
          refine ⟨fun hnone => absurd hnone.1 (by simp), by omega, ?_, ?_, hd, hlt⟩
          · rintro ⟨hx, rfl⟩
            exact hxy (by rw [Option.some.inj hx]; rfl)
          · rw [List.length_append]
            omega

/-! ### Whole receptions -/

theorem receive_encoded (link : Link) (slot : ℕ) (bufs : List (ℕ × List WireTpdu)) (tl : Tl) :
    receive link tl (encoded bufs) = runFrom link slot tl [] (decoded bufs) := by
  rw [runFrom_nil]
  induction bufs generalizing tl with
  | nil => rfl
  | cons b bufs ih =>
    show (((processData link b.1 tl (b.2.flatMap WireTpdu.bytes)).map Prod.snd).bind fun tl =>
      receive link tl (encoded bufs)) = ((bufStep link tl (b.1, b.2.map WireTpdu.tpdu)).bind fun tl =>
        (decoded bufs).foldlM (bufStep link) tl)
    rw [processData_bytes, bufStep]
    congr 1
    funext tl'
    exact ih tl'

theorem limit_le (form : LengthForm) : form.limit ≤ 2 ^ 16 := by
  cases form <;> decide

theorem Reception.isChunk {bufs : List (ℕ × List WireTpdu)} (h : Reception link tl k bufs ds d) :
    ∀ t ∈ mine k (decoded bufs), IsChunk t := by
  intro t ht
  constructor
  · have hmem : (t.tag, t.payload) ∈ ds.map (fun x => (tDataMore, x)) ++ [(tDataLast, d)] :=
      h.mine_eq ▸ List.mem_map_of_mem ht
    rcases List.mem_append.mp hmem with hmore | hlast
    · obtain ⟨x, -, heq⟩ := List.mem_map.mp hmore
      exact Or.inl (congrArg Prod.fst heq).symm
    · exact Or.inr (congrArg Prod.fst (List.mem_singleton.mp hlast))
  · obtain ⟨b, hb, hmine⟩ := List.mem_flatMap.mp ht
    obtain ⟨b', -, rfl⟩ := List.mem_map.mp hb
    obtain ⟨w, -, rfl⟩ := List.mem_map.mp (List.mem_filter.mp hmine).1
    have hfits := w.fits
    have hlimit := limit_le w.form
    omega

/-- **Chained data, exactly.**  The chunks of an active connection are handed up as one, once, and leave no chain, if
and only if they came in a single package, or the last is not empty, the first two of several are not both empty, and
the whole is shorter than 2^31 bytes. -/
theorem delivered_iff_chainFits {link : Link} {tl : Tl} {bufs : List (ℕ × List WireTpdu)}
    {ds : List (List UInt8)} {d : List UInt8} (h : Reception link tl k bufs ds d) :
    Delivered link tl k bufs (ds.flatten ++ d) ↔ ChainFits ds d := by
  have hholds : Holds tl k none :=
    ⟨h.active, h.callback, h.id_lt, h.chain_null, h.length_zero, by decide⟩
  have hothers : OthersFrom link k 0 tl [] (decoded bufs) := by
    refine ⟨fun t ht => absurd ht (by simp [stopsAt]), fun r hr => ?_⟩
    obtain rfl := Option.some.inj hr
    exact h.others
  rw [← chainOk_none_iff, Delivered, receive_encoded link 0]
  exact deliveredFrom_iff hholds h.isChunk h.mine_eq hothers

/-! ### Two receptions -/

/-- Connections 1 and 2 of the first slot, both active. -/
def twoActive : Tl where
  maxConnections := 3
  conn := fun k => if k.2 = 0 then ⟨.idle, 0, .null, 0⟩ else ⟨.active, 0, .null, 0⟩
  callback := true
  errorSlot := 0
  error := 0
  calls := []
  sent := []

def goodLink : Link := ⟨fun _ => true, fun n => n + 1⟩

def chunkTpdu (tag conn : UInt8) (payload : List UInt8) (h : payload.length + 1 < 0x80) : WireTpdu :=
  ⟨⟨tag, conn, payload⟩, .short, h⟩

/-- An empty chunk and one of two bytes, then a last one, with data of connection 2 in between. -/
def interleavedChunks : List (ℕ × List WireTpdu) :=
  [(0, [chunkTpdu tDataMore 1 [] (by decide), chunkTpdu tDataLast 2 [9] (by decide)]),
    (0, [chunkTpdu tDataMore 1 [1, 2] (by decide), chunkTpdu tDataLast 1 [3] (by decide)])]

theorem delivered_interleavedChunks :
    Reception goodLink twoActive (0, 1) interleavedChunks [[], [1, 2]] [3] ∧
      Delivered goodLink twoActive (0, 1) interleavedChunks [1, 2, 3] := by
  have h : Reception goodLink twoActive (0, 1) interleavedChunks [[], [1, 2]] [3] :=
    ⟨rfl, rfl, rfl, rfl, by decide, by decide, by decide⟩
  exact ⟨h, (delivered_iff_chainFits h).mpr (Or.inr (by decide))⟩

def emptyLast : List (ℕ × List WireTpdu) :=
  [(0, [chunkTpdu tDataMore 1 [1] (by decide), chunkTpdu tDataLast 1 [] (by decide)])]

/-- The byte is never handed up. -/
theorem not_delivered_emptyLast :
    Reception goodLink twoActive (0, 1) emptyLast [[1]] [] ∧
      ¬ Delivered goodLink twoActive (0, 1) emptyLast [1] := by
  refine ⟨⟨rfl, rfl, rfl, rfl, by decide, by decide, by decide⟩, ?_⟩
  rintro ⟨tl', hrun, hcalls, -, -⟩
  have hnone : (receive goodLink twoActive (encoded emptyLast)).map (dataCalls (0, 1)) = some [] := by
    decide
  rw [hrun] at hnone
  rw [Option.some.inj hnone] at hcalls
  exact absurd hcalls (by decide)

end BgtDvb.En50221
