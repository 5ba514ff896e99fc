import Mathlib

/-!
# The network output of gnutv

`udpoutputthread_func` of `util/gnutv/gnutv_data.c` reads from the DVR device into a buffer of seven transport packets,
behind a header if RTP is used, and sends the buffer when it is full; what is left is sent at the end.

* `filling_round`, `filling_loop` — **PROVED**: what every round, and every run of rounds, keeps;
* `udp_delivered` — **PROVED**: everything that was read is sent.
-/

namespace BgtDvb.Gnutv

/-! ### The thread -/

/-- `TS_PAYLOAD_SIZE` -/
def tsPayloadSize : ℕ := 188 * 7

/-- Bytes are written to an array; `none` if one of them lands outside. -/
def storeAt (buf : List UInt8) (pos : ℕ) (bytes : List UInt8) : Option (List UInt8) :=
  if pos + bytes.length ≤ buf.length then some (buf.take pos ++ (bytes ++ buf.drop (pos + bytes.length))) else none

/-- The variables of the thread; and everything that `read` has returned, and the datagrams that `sendto` has taken. -/
structure UdpThread where
  buf : List UInt8
  bufsize : ℕ
  bufbase : ℕ
  rtpseq : UInt16
  got : List UInt8
  sent : List (List UInt8)

inductive SendResult where
  | sent
  | interrupted
  | failed
  deriving DecidableEq

/-- A round of the loop: `poll` has nothing, or reports an error; `read` fails, or has some bytes. `interrupted` says
whether `errno` is EINTR; the result of `sendto` counts if it is called. -/
inductive Round where
  | idle
  | pollErr (interrupted : Bool)
  | readErr (interrupted : Bool)
  | read (available : List UInt8) (send : SendResult)

section Thread

variable (usertp : Bool)

/-- The twelve bytes of the header, by the two bytes of the sequence number. -/
def rtpBytes (ssrc : UInt32) (high low : UInt8) : List UInt8 :=
  [0x80, 0x21, high, low, 0x00, 0x00, 0x00, 0x00, (ssrc >>> 24).toUInt8, (ssrc >>> 16).toUInt8, (ssrc >>> 8).toUInt8,
    ssrc.toUInt8]

/-- In front of the loop; `stack` is what is in the buffer, `ssrc` and `seq` are the random numbers. -/
def udpStart (ssrc : UInt32) (seq : UInt16) (stack : ℕ → UInt8) : Option UdpThread :=
  let buf := (List.range (12 + tsPayloadSize)).map stack
  if usertp then
    (storeAt buf 0 [0x80, 0x21]).bind fun buf =>
      (storeAt buf 4 ((rtpBytes ssrc 0 0).drop 4)).map fun buf => ⟨buf, 0, 12, seq, [], []⟩
  else some ⟨buf, 0, 0, 0, [], []⟩

/-- `buf[2]` and `buf[3]` -/
def putSeq (s : UdpThread) : Option UdpThread :=
  if usertp then
    (storeAt s.buf 2 [(s.rtpseq >>> 8).toUInt8, s.rtpseq.toUInt8]).map fun buf => { s with buf := buf }
  else some s

/-- `sendto` -/
def sendBuf (s : UdpThread) (send : SendResult) : UdpThread :=
  if send = .sent then { s with sent := s.sent ++ [s.buf.take (s.bufbase + s.bufsize)] } else s

def flushFull (s : UdpThread) (send : SendResult) : Option (Bool × UdpThread) :=
  (putSeq usertp s).map fun s =>
    if send = .failed then (false, sendBuf s send)
    else (true, { sendBuf s send with rtpseq := s.rtpseq + 1, bufsize := 0 })

def udpRound (s : UdpThread) : Round → Option (Bool × UdpThread)
  | .idle => some (true, s)
  | .pollErr interrupted | .readErr interrupted => some (interrupted, s)
  | .read available send =>
    let bytes := available.take (tsPayloadSize - s.bufsize)
    (storeAt s.buf (s.bufbase + s.bufsize) bytes).bind fun buf =>
      let s := { s with buf := buf, bufsize := s.bufsize + bytes.length, got := s.got ++ bytes }
      if s.bufsize = tsPayloadSize then flushFull usertp s send else some (true, s)

def udpLoop : List Round → UdpThread → Option (Bool × UdpThread)
  | [], s => some (true, s)
  | r :: rounds, s => (udpRound usertp s r).bind fun out => if out.1 then udpLoop rounds out.2 else some out

/-- `udpoutputthread_func`; `last` is the result of the `sendto` behind the loop. -/
def udpoutputthreadFunc (ssrc : UInt32) (seq : UInt16) (stack : ℕ → UInt8) (rounds : List Round) (last : SendResult) :
    Option UdpThread :=
  (udpStart usertp ssrc seq stack).bind fun s =>
    (udpLoop usertp rounds s).bind fun out =>
      if out.1 = true ∧ out.2.bufsize ≠ 0 then (putSeq usertp out.2).map fun s => sendBuf s last else some out.2

end Thread

/-! ### What is to be sent -/

section Statement

variable (usertp : Bool) (ssrc : UInt32) (seq : UInt16)

def udpHeader (seq : UInt16) : List UInt8 :=
  if usertp then rtpBytes ssrc (seq >>> 8).toUInt8 seq.toUInt8 else []

/-- The datagrams for some payloads: the sequence numbers follow one another. -/
def packets (payloads : List (List UInt8)) : List (List UInt8) :=
  payloads.mapIdx fun i payload => udpHeader usertp ssrc (seq + UInt16.ofNat i) ++ payload

/-- **What is sent**: payloads that make up what was read, all full but possibly the last, and none empty. -/
def Delivered (s : UdpThread) : Prop :=
  ∃ payloads, s.sent = packets usertp ssrc seq payloads ∧ payloads.flatten = s.got ∧
    (∀ payload ∈ payloads.dropLast, payload.length = tsPayloadSize) ∧
    ∀ payload ∈ payloads, payload ≠ [] ∧ payload.length ≤ tsPayloadSize

def Round.Goes : Round → Prop
  | .idle => True
  | .pollErr interrupted | .readErr interrupted => interrupted = true
  | .read _ send => send = .sent

/-- What `read` returns, of what is available, when `n` bytes of a datagram are there already: at most what is missing. -/
def Round.bytes (n : ℕ) : Round → List UInt8
  | .read available _ => available.take (tsPayloadSize - n)
  | .idle | .pollErr _ | .readErr _ => []

def readBytes (n : ℕ) : List Round → List UInt8
  | [] => []
  | r :: rounds => r.bytes n ++ readBytes ((n + (r.bytes n).length) % tsPayloadSize) rounds

theorem packets_concat (payloads : List (List UInt8)) (payload : List UInt8) :
    packets usertp ssrc seq (payloads ++ [payload]) =
      packets usertp ssrc seq payloads ++ [udpHeader usertp ssrc (seq + UInt16.ofNat payloads.length) ++ payload] :=
  List.mapIdx_concat

end Statement

/-! ### The buffer between two rounds -/

theorem storeAt_append {front old rest bytes : List UInt8} {pos : ℕ} (hpos : pos = front.length)
    (hlen : bytes.length = old.length) :
    storeAt (front ++ (old ++ rest)) pos bytes = some (front ++ (bytes ++ rest)) := by
  subst hpos
  have hroom : front.length + bytes.length ≤ (front ++ (old ++ rest)).length := by
    rw [List.length_append, List.length_append, hlen]
    omega
  have hfront : (front ++ (old ++ rest)).take front.length = front := List.take_left
  have hrest : (front ++ (old ++ rest)).drop (front.length + bytes.length) = rest := by
    rw [← List.drop_drop, List.drop_left, hlen, List.drop_left]
  rw [storeAt, if_pos hroom, hfront, hrest]

/-- The header, whatever number is in it, what has been read since the last datagram, and the rest of the buffer. -/
structure Parts (usertp : Bool) (ssrc : UInt32) (s : UdpThread) (high low : UInt8) (pending rest : List UInt8) :
    Prop where
  buf : s.buf = (if usertp then rtpBytes ssrc high low else []) ++ (pending ++ rest)
  base : s.bufbase = if usertp then 12 else 0
  size : s.bufsize = pending.length
  whole : tsPayloadSize ≤ pending.length + rest.length

/-- Between two rounds: the payloads that were sent, and what has been read since. -/
structure Filling (usertp : Bool) (ssrc : UInt32) (seq : UInt16) (s : UdpThread) (payloads : List (List UInt8))
    (pending : List UInt8) : Prop where
  parts : ∃ high low rest, Parts usertp ssrc s high low pending rest
  full : ∀ payload ∈ payloads, payload.length = tsPayloadSize
  sent : s.sent = packets usertp ssrc seq payloads
  got : s.got = payloads.flatten ++ pending
  number : usertp = true → s.rtpseq = seq + UInt16.ofNat payloads.length

section Rounds

variable {usertp : Bool} {ssrc : UInt32} {seq : UInt16} {s : UdpThread} {high low : UInt8} {pending rest : List UInt8}
  {payloads : List (List UInt8)}

theorem length_header (high low : UInt8) :
    (if usertp then rtpBytes ssrc high low else []).length = if usertp then 12 else 0 := by
  cases usertp <;> rfl

theorem Parts.read (h : Parts usertp ssrc s high low pending rest) {bytes : List UInt8}
    (hlen : pending.length + bytes.length ≤ tsPayloadSize) :
    ∃ buf, storeAt s.buf (s.bufbase + s.bufsize) bytes = some buf ∧
      Parts usertp ssrc { s with buf := buf, bufsize := s.bufsize + bytes.length, got := s.got ++ bytes } high low
        (pending ++ bytes) (rest.drop bytes.length) := by
  have hwhole := h.whole
  have hsplit : s.buf =
      ((if usertp then rtpBytes ssrc high low else []) ++ pending) ++ (rest.take bytes.length ++ rest.drop bytes.length) := by
    rw [h.buf, List.take_append_drop, List.append_assoc]
  have hpos : s.bufbase + s.bufsize = ((if usertp then rtpBytes ssrc high low else []) ++ pending).length := by
    rw [List.length_append, length_header, h.base, h.size]
  have hold : bytes.length = (rest.take bytes.length).length := by
    rw [List.length_take]
    omega
  refine ⟨_, by rw [hsplit]; exact storeAt_append hpos hold, ?_, h.base, ?_, ?_⟩
  · rw [List.append_assoc, List.append_assoc]
  · rw [List.length_append, ← h.size]
  · rw [List.length_append, List.length_drop]
    omega

theorem Parts.putSeq (h : Parts usertp ssrc s high low pending rest) :
    ∃ s', putSeq usertp s = some s' ∧ s' = { s with buf := s'.buf } ∧
      Parts usertp ssrc s' (s.rtpseq >>> 8).toUInt8 s.rtpseq.toUInt8 pending rest := by
  unfold Gnutv.putSeq
  cases usertp with
  | false => exact ⟨s, rfl, rfl, h.buf, h.base, h.size, h.whole⟩
  | true =>
    have hbuf : s.buf = [0x80, 0x21] ++ ([high, low] ++ ((rtpBytes ssrc 0 0).drop 4 ++ (pending ++ rest))) := h.buf
    have hstore := @storeAt_append [0x80, 0x21] [high, low] ((rtpBytes ssrc 0 0).drop 4 ++ (pending ++ rest))
      [(s.rtpseq >>> 8).toUInt8, s.rtpseq.toUInt8] 2 rfl rfl
    rw [if_pos rfl, hbuf, hstore]
    exact ⟨_, rfl, rfl, rfl, h.base, h.size, h.whole⟩

/-- What `sendto` is given: the header and what has been read. -/
theorem Parts.datagram (h : Parts usertp ssrc s (s.rtpseq >>> 8).toUInt8 s.rtpseq.toUInt8 pending rest) :
    s.buf.take (s.bufbase + s.bufsize) = udpHeader usertp ssrc s.rtpseq ++ pending := by
  have hlen : s.bufbase + s.bufsize = (udpHeader usertp ssrc s.rtpseq ++ pending).length := by
    rw [List.length_append, h.base, h.size]
    exact congrArg (· + pending.length) (length_header _ _).symm
  rw [hlen, h.buf, ← List.append_assoc]
  exact List.take_left

theorem Filling.size (h : Filling usertp ssrc seq s payloads pending) : s.bufsize = pending.length := by
  obtain ⟨_, _, _, hparts⟩ := h.parts
  exact hparts.size

theorem Filling.header (h : Filling usertp ssrc seq s payloads pending) :
    udpHeader usertp ssrc s.rtpseq = udpHeader usertp ssrc (seq + UInt16.ofNat payloads.length) := by
  cases usertp with
  | false => rfl
  | true => rw [h.number rfl]

theorem Filling.send (h : Filling usertp ssrc seq s payloads pending) :
    ∃ s', putSeq usertp s = some s' ∧ s' = { s with buf := s'.buf } ∧
      (∃ high low rest, Parts usertp ssrc s' high low pending rest) ∧
      (sendBuf s' .sent).sent = packets usertp ssrc seq (payloads ++ [pending]) := by
  obtain ⟨high, low, rest, hparts⟩ := h.parts
  obtain ⟨s', hput, hs', hparts'⟩ := hparts.putSeq
  have hseq : s'.rtpseq = s.rtpseq := by rw [hs']
  have hsent : s'.sent = s.sent := by rw [hs']
  rw [← hseq] at hparts'
  refine ⟨s', hput, hs', ⟨_, _, rest, hparts'⟩, ?_⟩
  show s'.sent ++ [s'.buf.take (s'.bufbase + s'.bufsize)] = _
  rw [hparts'.datagram, hseq, h.header, hsent, h.sent, packets_concat]

theorem filling_start (stack : ℕ → UInt8) :
    ∃ s, udpStart usertp ssrc seq stack = some s ∧ Filling usertp ssrc seq s [] [] := by
  unfold udpStart
  have hsplit : (List.range (12 + tsPayloadSize)).map stack =
      (List.range 12).map stack ++ (List.range tsPayloadSize).map fun i => stack (12 + i) := by
    rw [List.range_add, List.map_append, List.map_map]
    rfl
  have hrest : tsPayloadSize ≤ ((List.range tsPayloadSize).map fun i => stack (12 + i)).length := by
    rw [List.length_map, List.length_range]
  rw [hsplit]
  generalize (List.range tsPayloadSize).map (fun i => stack (12 + i)) = rest at hrest
  have whole : ∀ front : List UInt8, tsPayloadSize ≤ ([] : List UInt8).length + (front ++ rest).length := fun front => by
    rw [List.length_append]
    exact hrest.trans ((Nat.le_add_left _ _).trans (Nat.le_add_left _ _))
  cases usertp with
  | false =>
    exact ⟨_, rfl, ⟨0, 0, (List.range 12).map stack ++ rest, rfl, rfl, rfl, whole _⟩, nofun, rfl, rfl, nofun⟩
  | true =>
    have hmark := @storeAt_append [] [stack 0, stack 1]
      ([stack 2, stack 3] ++ ([stack 4, stack 5, stack 6, stack 7, stack 8, stack 9, stack 10, stack 11] ++ rest))
      [0x80, 0x21] 0 rfl rfl
    have hsource := @storeAt_append [0x80, 0x21, stack 2, stack 3]
      [stack 4, stack 5, stack 6, stack 7, stack 8, stack 9, stack 10, stack 11] rest ((rtpBytes ssrc 0 0).drop 4) 4 rfl rfl
    have hstart : (storeAt ((List.range 12).map stack ++ rest) 0 [0x80, 0x21]).bind (fun buf =>
        storeAt buf 4 ((rtpBytes ssrc 0 0).drop 4)) = some (rtpBytes ssrc (stack 2) (stack 3) ++ rest) :=
      (congrArg (Option.bind · _) hmark).trans hsource
    refine ⟨⟨rtpBytes ssrc (stack 2) (stack 3) ++ rest, 0, 12, seq, [], []⟩, ?_, ⟨stack 2, stack 3, rest, rfl, rfl, rfl, ?_⟩,
      nofun, rfl, rfl, fun _ => (UInt16.add_zero seq).symm⟩
    · exact (Option.map_bind ..).symm.trans (congrArg _ hstart)
    · exact whole []

theorem filling_read (h : Filling usertp ssrc seq s payloads pending) {bytes : List UInt8}
    (hlen : pending.length + bytes.length ≤ tsPayloadSize) :
    ∃ buf, storeAt s.buf (s.bufbase + s.bufsize) bytes = some buf ∧
      Filling usertp ssrc seq { s with buf := buf, bufsize := s.bufsize + bytes.length, got := s.got ++ bytes } payloads
        (pending ++ bytes) := by
  obtain ⟨high, low, rest, hparts⟩ := h.parts
  obtain ⟨buf, hstore, hread⟩ := hparts.read hlen
  refine ⟨buf, hstore, ⟨high, low, _, hread⟩, h.full, h.sent, ?_, h.number⟩
  rw [← List.append_assoc, ← h.got]

theorem filling_flush (h : Filling usertp ssrc seq s payloads pending) (hfull : pending.length = tsPayloadSize) :
    ∃ s', flushFull usertp s .sent = some (true, s') ∧ Filling usertp ssrc seq s' (payloads ++ [pending]) [] ∧
      s'.got = s.got := by
  obtain ⟨s', hput, hs', ⟨high, low, rest, hparts⟩, hsent⟩ := h.send
  have hgot : s'.got = s.got := by rw [hs']
  have hseq : s'.rtpseq = s.rtpseq := by rw [hs']
  have hnot : SendResult.sent ≠ .failed := nofun
  refine ⟨{ sendBuf s' .sent with rtpseq := s'.rtpseq + 1, bufsize := 0 }, ?_, ⟨?_, ?_, hsent, ?_, fun hrtp => ?_⟩, hgot⟩
  · rw [flushFull, hput, Option.map_some, if_neg hnot]
  · refine ⟨high, low, pending ++ rest, hparts.buf, hparts.base, rfl, ?_⟩
    rw [List.length_append]
    exact hparts.whole.trans (Nat.le_add_left _ _)
  · exact List.forall_mem_append.mpr ⟨h.full, List.forall_mem_singleton.mpr hfull⟩
  · show s'.got = _
    rw [hgot, h.got, List.flatten_concat, List.append_nil]
  · show s'.rtpseq + 1 = _
    rw [hseq, h.number hrtp, List.length_append, List.length_singleton, UInt16.ofNat_add, ← UInt16.add_assoc]
    rfl

/-- **Every round** in which nothing fails: the loop goes on, and the buffer is filled up or has been sent. -/
theorem filling_round (h : Filling usertp ssrc seq s payloads pending) (hroom : pending.length < tsPayloadSize) {r : Round}
    (hgoes : r.Goes) :
    ∃ s' payloads' pending', udpRound usertp s r = some (true, s') ∧ Filling usertp ssrc seq s' payloads' pending' ∧
      pending'.length = (pending.length + (r.bytes pending.length).length) % tsPayloadSize ∧
      s'.got = s.got ++ r.bytes pending.length := by
  have hsame : pending.length = (pending.length + ([] : List UInt8).length) % tsPayloadSize :=
    (Nat.mod_eq_of_lt hroom).symm
  have hnone : s.got = s.got ++ [] := (List.append_nil _).symm
  cases r with
  | idle => exact ⟨s, payloads, pending, rfl, h, hsame, hnone⟩
  | pollErr interrupted =>
    cases hgoes
    exact ⟨s, payloads, pending, rfl, h, hsame, hnone⟩
  | readErr interrupted =>
    cases hgoes
    exact ⟨s, payloads, pending, rfl, h, hsame, hnone⟩
  | read available send =>
    cases hgoes
    have hlen : pending.length + (available.take (tsPayloadSize - s.bufsize)).length ≤ tsPayloadSize := by
      rw [List.length_take, h.size]
      omega
    obtain ⟨buf, hstore, hread⟩ := filling_read h hlen
    have hsize := hread.size
    have hbytes : (Round.read available .sent).bytes pending.length = available.take (tsPayloadSize - s.bufsize) := by
      rw [Round.bytes, h.size]
    unfold udpRound
    dsimp only at hsize ⊢
    rw [hstore, Option.bind_some, hbytes]
    by_cases hfull : s.bufsize + (available.take (tsPayloadSize - s.bufsize)).length = tsPayloadSize
    · obtain ⟨s', hflush, hfilling, hgot⟩ := filling_flush hread (hsize.symm.trans hfull)
      rw [if_pos hfull]
      refine ⟨s', _, [], hflush, hfilling, ?_, hgot⟩
      rw [← h.size, hfull, Nat.mod_self]
      rfl
    · rw [if_neg hfull]
      refine ⟨_, payloads, _, rfl, hread, ?_, rfl⟩
      rw [List.length_append, Nat.mod_eq_of_lt]
      exact lt_of_le_of_ne hlen fun heq => hfull ((congrArg (· + _) h.size).trans heq)

theorem filling_loop (rounds : List Round) (hgoes : ∀ r ∈ rounds, r.Goes)
    (h : Filling usertp ssrc seq s payloads pending) (hroom : pending.length < tsPayloadSize) :
    ∃ s' payloads' pending', udpLoop usertp rounds s = some (true, s') ∧
      Filling usertp ssrc seq s' payloads' pending' ∧ pending'.length < tsPayloadSize ∧
      s'.got = s.got ++ readBytes pending.length rounds := by
  induction rounds generalizing s payloads pending with
  | nil => exact ⟨s, payloads, pending, rfl, h, hroom, (List.append_nil _).symm⟩
  | cons r rounds ih =>
    obtain ⟨hr, hrounds⟩ := List.forall_mem_cons.mp hgoes
    obtain ⟨s₁, payloads₁, pending₁, hround, h₁, hlen₁, hgot₁⟩ := filling_round h hroom hr
    have hroom₁ : pending₁.length < tsPayloadSize := hlen₁ ▸ Nat.mod_lt _ (by decide)
    obtain ⟨s₂, payloads₂, pending₂, hloop, h₂, hroom₂, hgot₂⟩ := ih hrounds h₁ hroom₁
    refine ⟨s₂, payloads₂, pending₂, ?_, h₂, hroom₂, ?_⟩
    · rw [udpLoop, hround, Option.bind_some, if_pos rfl, hloop]
    · rw [hgot₂, hgot₁, hlen₁, readBytes, List.append_assoc]

end Rounds

/-! ### The whole thread -/

theorem full_payload {payload : List UInt8} (h : payload.length = tsPayloadSize) :
    payload ≠ [] ∧ payload.length ≤ tsPayloadSize :=
  ⟨List.ne_nil_of_length_pos (h ▸ by decide), h.le⟩

/-- **Everything that is read is sent**, until the shutdown: what `read` returns in the rounds, in order, in full
datagrams but possibly the last, with sequence numbers one after another; no byte is written outside the buffer. -/
theorem udp_delivered (usertp : Bool) (ssrc : UInt32) (seq : UInt16) (stack : ℕ → UInt8) (rounds : List Round)
    (hgoes : ∀ r ∈ rounds, r.Goes) :
    ∃ s, udpoutputthreadFunc usertp ssrc seq stack rounds .sent = some s ∧ s.got = readBytes 0 rounds ∧
      Delivered usertp ssrc seq s := by
  obtain ⟨s₀, hstart, h₀⟩ := @filling_start usertp ssrc seq stack
  obtain ⟨s, payloads, pending, hloop, h, hroom, hread⟩ := filling_loop rounds hgoes h₀ (by decide)
  rw [h₀.got] at hread
  unfold udpoutputthreadFunc
  rw [hstart, Option.bind_some, hloop, Option.bind_some]
  by_cases hempty : s.bufsize = 0
  · have hpending : pending = [] := List.length_eq_zero_iff.mp (h.size.symm.trans hempty)
    rw [if_neg fun hboth => hboth.2 hempty]
    refine ⟨s, rfl, hread, payloads, h.sent, ?_, fun payload hp => h.full payload (List.mem_of_mem_dropLast hp),
      fun payload hp => full_payload (h.full payload hp)⟩
    rw [h.got, hpending, List.append_nil]
  · have hpending : pending ≠ [] := fun hnil => hempty (by rw [h.size, hnil]; rfl)
    obtain ⟨s', hput, hs', -, hsent⟩ := h.send
    have hgot : s'.got = s.got := by rw [hs']
    rw [if_pos ⟨rfl, hempty⟩, hput]
    refine ⟨_, rfl, hgot.trans hread, payloads ++ [pending], hsent, ?_, ?_, ?_⟩
    · show _ = s'.got
      rw [hgot, h.got, List.flatten_concat]
    · rw [List.dropLast_concat]
      exact h.full
    · exact List.forall_mem_append.mpr
        ⟨fun payload hp => full_payload (h.full payload hp), List.forall_mem_singleton.mpr ⟨hpending, hroom.le⟩⟩

/-- With RTP: three bytes, an interruption, and two more, which are one datagram. -/
theorem udp_delivered_short :
    (∀ r ∈ [Round.read [0x47, 0x1f, 0xff] .sent, .pollErr true, .read [0x10, 0x00] .sent], r.Goes) ∧
      ∃ s, udpoutputthreadFunc true 0x01020304 0xffff (fun _ => 0)
        [.read [0x47, 0x1f, 0xff] .sent, .pollErr true, .read [0x10, 0x00] .sent] .sent = some s ∧
        s.got = [0x47, 0x1f, 0xff, 0x10, 0x00] ∧ Delivered true 0x01020304 0xffff s := by
  have hgoes : ∀ r ∈ [Round.read [0x47, 0x1f, 0xff] .sent, .pollErr true, .read [0x10, 0x00] .sent], r.Goes := by
    intro r hr
    simp only [List.mem_cons, List.not_mem_nil, or_false] at hr
    rcases hr with rfl | rfl | rfl <;> rfl
  obtain ⟨s, hs, hgot, hsent⟩ := udp_delivered true 0x01020304 0xffff (fun _ => 0) _ hgoes
  exact ⟨hgoes, s, hs, hgot.trans (by decide), hsent⟩

end BgtDvb.Gnutv
