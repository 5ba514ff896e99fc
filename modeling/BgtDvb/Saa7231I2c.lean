import BgtDvb.Saa7231Dev

/-!
# The I2C master of the SAA7231

`saa7231_i2c.c`: a transfer is a list of messages; each is written to the TX FIFO as a START word
with the address and one word per byte, and the last byte of the last message carries STOP.  The
device answers every register read: the readings are a sequence, and every function takes them in
order.  The state is the number of reads, the writes made, and the results of the send and receive
steps.

* `send_cases`, `recv_cases` — **PROVED**: a successful send writes its word and nothing else to the
  TX FIFO, a receive writes nothing, whatever resets happen on the way;
* `sends_xferMsgs` — **PROVED**: a successful transfer writes the words of its messages;
* `xfer_sound_iff` — **PROVED**: the transfer is framed as I2C wants it, with any readings, exactly
  if every address has seven bits and the last message is not empty.
-/

namespace BgtDvb.Saa7231

/-! ### The device -/

inductive I2cReg where
  | txFifo | control | clockDivisorHigh | clockDivisorLow | sdaHold | intClrEnable | intClrStatus
  deriving Repr, DecidableEq

/-- Reads so far, writes so far, and the results of the send and receive steps so far. -/
structure I2c where
  reads : ℕ
  writes : List (I2cReg × ℕ)
  steps : List ℤ
  deriving Repr, DecidableEq

def I2c.next (s : I2c) : I2c := { s with reads := s.reads + 1 }

def I2c.wr (s : I2c) (ws : List (I2cReg × ℕ)) : I2c := { s with writes := s.writes ++ ws }

def I2c.note (s : I2c) (err : ℤ) : I2c := { s with steps := s.steps ++ [err] }

def I2c.txWords (s : I2c) : List ℕ := (s.writes.filter fun w => w.1 = .txFifo).map Prod.snd

/-- `enum saa7231_i2c_rate`, `unknown` being any other value. -/
inductive I2cRate where
  | rate400 | rate100 | unknown
  deriving Repr, DecidableEq

/-- What `saa7231_i2c_hwinit` looks up in the configuration. -/
structure I2cConfig where
  rate : I2cRate
  rootClk : RootClk
  deriving Repr, DecidableEq

/-! ### Reset, send and receive -/

/-- `TX_FIFO_BLOCK | TX_FIFO_FULL`. -/
def i2cTxbusy : ℕ := 0x880

/-- `RX_FIFO_BLOCK | RX_FIFO_EMPTY`. -/
def i2cRxbusy : ℕ := 0x410

def txFifoEmpty : ℕ := 0x40

def i2cStartBit : ℕ := 0x100

def i2cStopBit : ℕ := 0x200

def saa7231TermXfer (s : I2c) : I2c :=
  s.wr [(.control, 0x00c0), (.control, 0x0080), (.control, 0x0000), (.control, 0x0080),
    (.control, 0x00c0)]

/-- The clock divisors and the hold time of a rate at a root clock. -/
def rateWrites (c : I2cConfig) : List (I2cReg × ℕ) :=
  match c.rate, c.rootClk with
  | .rate400, .clk54MHz => [(.clockDivisorHigh, 0x0021), (.clockDivisorLow, 0x0047), (.sdaHold, 0x001f)]
  | .rate400, .clk27MHz => [(.clockDivisorHigh, 0x001a), (.clockDivisorLow, 0x0021), (.sdaHold, 0x0019)]
  | .rate100, .clk54MHz => [(.clockDivisorHigh, 0x00d0), (.clockDivisorLow, 0x010e), (.sdaHold, 0x007c)]
  | .rate100, .clk27MHz => [(.clockDivisorHigh, 0x0068), (.clockDivisorLow, 0x0087), (.sdaHold, 0x0060)]
  | _, _ => []

/-- Polls a register at most so many times, until a reading is as wanted. -/
def poll (o : ℕ → ℕ) (ok : ℕ → Bool) : ℕ → I2c → Bool × I2c
  | 0, s => (false, s)
  | n + 1, s => if ok (o s.reads) then (true, s.next) else poll o ok n s.next

def saa7231I2cHwinit (o : ℕ → ℕ) (c : I2cConfig) (s : I2c) : ℤ × I2c :=
  if o s.reads &&& 0xd = 0 then (-eio, s.next)
  else
    let r := poll o (fun reg => reg == 0xc0) 100 (s.next.wr
      [(.control, 0x00cc), (.intClrEnable, 0x1fff), (.intClrStatus, 0x1fff), (.control, 0x00c1)])
    if !r.1 then (-eio, saa7231TermXfer r.2)
    else
      let s := r.2.wr (rateWrites c ++ [(.intClrEnable, 0x1fff), (.intClrStatus, 0x1fff)])
      if o s.reads &&& 0xd = 0 then (-eio, s.next) else (0, s.next)

/-- The loop of `saa7231_i2c_send` on a busy FIFO: look again and reset, at most so many times. -/
def sendWait (o : ℕ → ℕ) (c : I2cConfig) : ℕ → I2c → ℤ × I2c
  | 0, s => (0, s)
  | n + 1, s =>
    if o s.reads &&& i2cTxbusy ≠ 0 then
      let r := saa7231I2cHwinit o c s.next
      if r.1 < 0 then (-eio, r.2) else sendWait o c n r.2
    else (0, s.next)

def saa7231I2cSend (o : ℕ → ℕ) (c : I2cConfig) (data : ℕ) (s : I2c) : ℤ × I2c :=
  let r := if o s.reads &&& i2cTxbusy ≠ 0 then sendWait o c 5 s.next else (0, s.next)
  if r.1 < 0 then (-eio, r.2)
  else
    let p := poll o (fun reg => reg &&& txFifoEmpty != 0) 1000 (r.2.wr [(.txFifo, data)])
    if !p.1 then (-eio, p.2) else (0, p.2)

def saa7231I2cRecv (o : ℕ → ℕ) (s : I2c) : ℤ × ℕ × I2c :=
  let p := poll o (fun reg => reg &&& i2cRxbusy == 0) 100 s
  if !p.1 then (-eio, 0, p.2) else (0, o p.2.reads, p.2.next)

/-! ### The transfer -/

/-- `struct i2c_msg`: the address, whether `I2C_M_RD` is set, and the buffer. -/
structure I2cMsg where
  addr : ℕ
  rd : Bool
  buf : List (Fin 256)
  deriving Repr, DecidableEq

def I2cMsg.rdBit (m : I2cMsg) : ℕ := if m.rd then 1 else 0

/-- `(msgs[i].addr << 1) | I2C_START_BIT`, with the read bit. -/
def startWord (m : I2cMsg) : ℕ := (m.addr <<< 1) ||| i2cStartBit ||| m.rdBit

/-- The word of a byte; `last` is `i == num - 1 && j == len - 1`. -/
def byteWord (rd last : Bool) (b : Fin 256) : ℕ :=
  (if rd then 0 else b.val) ||| (if last then i2cStopBit else 0)

/-- The loop over the bytes of a message: the result, the bytes of the buffer and the state. -/
def xferBytes (o : ℕ → ℕ) (c : I2cConfig) (rd lastMsg : Bool) :
    List (Fin 256) → I2c → ℤ × List (Fin 256) × I2c
  | [], s => (0, [], s)
  | b :: bs, s =>
    let r := saa7231I2cSend o c (byteWord rd (lastMsg && bs.isEmpty) b) s
    let s := r.2.note r.1
    if r.1 < 0 then (-eio, b :: bs, s)
    else if rd then
      let q := saa7231I2cRecv o s
      let s := q.2.2.note q.1
      if q.1 < 0 then (-eio, b :: bs, s)
      else
        let t := xferBytes o c rd lastMsg bs s
        (t.1, Fin.ofNat 256 q.2.1 :: t.2.1, t.2.2)
    else
      let t := xferBytes o c rd lastMsg bs s
      (t.1, b :: t.2.1, t.2.2)

def xferMsgs (o : ℕ → ℕ) (c : I2cConfig) : List I2cMsg → I2c → ℤ × List I2cMsg × I2c
  | [], s => (0, [], s)
  | m :: ms, s =>
    let r := saa7231I2cSend o c (startWord m) s
    let s := r.2.note r.1
    if r.1 < 0 then (-eio, m :: ms, s)
    else
      let q := xferBytes o c m.rd ms.isEmpty m.buf s
      if q.1 < 0 then (-eio, { m with buf := q.2.1 } :: ms, q.2.2)
      else
        let t := xferMsgs o c ms q.2.2
        (t.1, { m with buf := q.2.1 } :: t.2.1, t.2.2)

def saa7231I2cXfer (o : ℕ → ℕ) (c : I2cConfig) (msgs : List I2cMsg) (s : I2c) :
    ℤ × List I2cMsg × I2c :=
  let r := xferMsgs o c msgs (s.next.wr [(.control, o s.reads ||| 0x01)])
  (if r.1 ≠ 0 then r.1 else msgs.length, r.2.1, r.2.2)

/-! ### What the steps write to the TX FIFO -/

variable (s : I2c) (c : I2cConfig) (ms : List I2cMsg)

@[simp] theorem txWords_note (e : ℤ) : (s.note e).txWords = s.txWords := rfl

theorem txWords_wr (ws : List (I2cReg × ℕ)) :
    (s.wr ws).txWords = s.txWords ++ (ws.filter fun w => w.1 = .txFifo).map Prod.snd := by
  rw [I2c.txWords, I2c.wr, List.filter_append, List.map_append]
  rfl

/-- What a step other than a send may do: neither the FIFO nor the results change. -/
structure Quiet (s s' : I2c) : Prop where
  words_eq : s'.txWords = s.txWords
  steps_eq : s'.steps = s.steps

theorem Quiet.trans {s s' s'' : I2c} (h : Quiet s s') (h' : Quiet s' s'') : Quiet s s'' :=
  ⟨h'.words_eq.trans h.words_eq, h'.steps_eq.trans h.steps_eq⟩

theorem quiet_next : Quiet s s.next := ⟨rfl, rfl⟩

theorem quiet_wr {ws : List (I2cReg × ℕ)} (h : ∀ w ∈ ws, w.1 ≠ .txFifo) : Quiet s (s.wr ws) := by
  refine ⟨?_, rfl⟩
  have hnone : ws.filter (fun w => w.1 = .txFifo) = [] := by
    apply List.filter_eq_nil_iff.mpr
    intro w hw
    simpa using h w hw
  rw [txWords_wr, hnone, List.map_nil, List.append_nil]

theorem quiet_poll (o : ℕ → ℕ) (ok : ℕ → Bool) (n : ℕ) (s : I2c) : Quiet s (poll o ok n s).2 := by
  induction n generalizing s with
  | zero => exact ⟨rfl, rfl⟩
  | succ n ih =>
    rw [poll]
    split
    · exact quiet_next s
    · exact (quiet_next s).trans (ih s.next)

theorem rateWrites_ne_txFifo : ∀ w ∈ rateWrites c, w.1 ≠ .txFifo := by
  cases c with
  | mk rate clk => cases rate <;> cases clk <;> simp [rateWrites]

theorem quiet_hwinit (o : ℕ → ℕ) (c : I2cConfig) (s : I2c) :
    Quiet s (saa7231I2cHwinit o c s).2 := by
  rw [saa7231I2cHwinit]
  split
  · exact quiet_next s
  · have hreset : Quiet s (s.next.wr [(.control, 0x00cc), (.intClrEnable, 0x1fff),
        (.intClrStatus, 0x1fff), (.control, 0x00c1)]) :=
      (quiet_next s).trans (quiet_wr _ (by simp))
    have hpoll := hreset.trans (quiet_poll o (fun reg => reg == 0xc0) 100 _)
    have hrate : ∀ s' : I2c, Quiet s'
        (s'.wr (rateWrites c ++ [(.intClrEnable, 0x1fff), (.intClrStatus, 0x1fff)])) := by
      intro s'
      apply quiet_wr
      intro w hw
      rcases List.mem_append.mp hw with hw | hw
      · exact rateWrites_ne_txFifo c w hw
      · rcases List.mem_pair.mp hw with hw | hw <;> rw [hw] <;> decide
    dsimp only
    split
    · exact hpoll.trans (quiet_wr _ (by simp))
    · split
      · exact (hpoll.trans (hrate _)).trans (quiet_next _)
      · exact (hpoll.trans (hrate _)).trans (quiet_next _)

theorem neg_eio_neg : -eio < 0 := by decide

theorem quiet_sendWait (o : ℕ → ℕ) (c : I2cConfig) (n : ℕ) (s : I2c) :
    Quiet s (sendWait o c n s).2 := by
  induction n generalizing s with
  | zero => exact ⟨rfl, rfl⟩
  | succ n ih =>
    rw [sendWait]
    split
    · have hinit := (quiet_next s).trans (quiet_hwinit o c s.next)
      dsimp only
      split
      · exact hinit
      · exact hinit.trans (ih _)
    · exact quiet_next s

/-- **A send**: it succeeds and its word is the only one added to the FIFO, or it reports `-EIO`. -/
theorem send_cases (o : ℕ → ℕ) (c : I2cConfig) (w : ℕ) (s : I2c) :
    ((saa7231I2cSend o c w s).1 = 0 ∧ (saa7231I2cSend o c w s).2.txWords = s.txWords ++ [w] ∨
      (saa7231I2cSend o c w s).1 = -eio) ∧
    (saa7231I2cSend o c w s).2.steps = s.steps := by
  rw [saa7231I2cSend]
  have hwait : Quiet s (if o s.reads &&& i2cTxbusy ≠ 0 then sendWait o c 5 s.next else (0, s.next)).2 := by
    split
    · exact (quiet_next s).trans (quiet_sendWait o c 5 s.next)
    · exact quiet_next s
  generalize (if o s.reads &&& i2cTxbusy ≠ 0 then sendWait o c 5 s.next else (0, s.next)) = r at hwait
  dsimp only
  split
  · exact ⟨Or.inr rfl, hwait.steps_eq⟩
  · have hpoll := quiet_poll o (fun reg => reg &&& txFifoEmpty != 0) 1000 (r.2.wr [(.txFifo, w)])
    have hsteps : (poll o (fun reg => reg &&& txFifoEmpty != 0) 1000
        (r.2.wr [(.txFifo, w)])).2.steps = s.steps := hpoll.steps_eq.trans hwait.steps_eq
    split
    · exact ⟨Or.inr rfl, hsteps⟩
    · refine ⟨Or.inl ⟨rfl, ?_⟩, hsteps⟩
      rw [hpoll.words_eq, txWords_wr, hwait.words_eq]
      rfl

theorem recv_cases (o : ℕ → ℕ) (s : I2c) :
    ((saa7231I2cRecv o s).1 = 0 ∨ (saa7231I2cRecv o s).1 = -eio) ∧
      Quiet s (saa7231I2cRecv o s).2.2 := by
  have hpoll := quiet_poll o (fun reg => reg &&& i2cRxbusy == 0) 100 s
  rw [saa7231I2cRecv]
  split
  · exact ⟨Or.inr rfl, hpoll⟩
  · exact ⟨Or.inl rfl, hpoll.trans (quiet_next _)⟩

/-! ### What a transfer writes -/

def byteWords (rd lastMsg : Bool) : List (Fin 256) → List ℕ
  | [] => []
  | b :: bs => byteWord rd (lastMsg && bs.isEmpty) b :: byteWords rd lastMsg bs

def xferWords : List I2cMsg → List ℕ
  | [] => []
  | m :: ms => startWord m :: (byteWords m.rd ms.isEmpty m.buf ++ xferWords ms)

def I2c.StepsOk (s : I2c) : Prop := ∀ e ∈ s.steps, 0 ≤ e

theorem I2c.StepsOk.note {s s' : I2c} (h : s.StepsOk) (hs : s'.steps = s.steps) {e : ℤ} (he : 0 ≤ e) :
    (s'.note e).StepsOk := by
  intro x hx
  rw [I2c.note, hs] at hx
  rcases List.mem_append.mp hx with hx | hx
  · exact h x hx
  · rw [List.mem_singleton.mp hx]
    exact he

/-- What a loop of steps owes: it succeeds with exactly these words and no failed step, or it
reports `-EIO`. -/
def Sends (s : I2c) (ws : List ℕ) (err : ℤ) (s' : I2c) : Prop :=
  err = 0 ∧ s'.txWords = s.txWords ++ ws ∧ (s.StepsOk → s'.StepsOk) ∨ err = -eio

theorem Sends.nil (s : I2c) : Sends s [] 0 s := Or.inl ⟨rfl, (List.append_nil _).symm, id⟩

theorem Sends.after_send {o : ℕ → ℕ} {c : I2cConfig} {w : ℕ} {s s' : I2c} {ws : List ℕ} {err : ℤ}
    (hneg : ¬ (saa7231I2cSend o c w s).1 < 0)
    (h : Sends ((saa7231I2cSend o c w s).2.note (saa7231I2cSend o c w s).1) ws err s') :
    Sends s (w :: ws) err s' := by
  obtain ⟨hcase | hcase, hsteps⟩ := send_cases o c w s
  · rcases h with ⟨herr, hws, hok⟩ | herr
    · refine Or.inl ⟨herr, ?_, fun hs => hok (hs.note hsteps (Int.not_lt.mp hneg))⟩
      rw [hws, txWords_note, hcase.2, List.append_assoc]
      rfl
    · exact Or.inr herr
  · rw [hcase] at hneg
    exact absurd neg_eio_neg hneg

theorem Sends.after_recv {o : ℕ → ℕ} {s s' : I2c} {ws : List ℕ} {err : ℤ}
    (hneg : ¬ (saa7231I2cRecv o s).1 < 0)
    (h : Sends ((saa7231I2cRecv o s).2.2.note (saa7231I2cRecv o s).1) ws err s') :
    Sends s ws err s' := by
  obtain ⟨-, hquiet⟩ := recv_cases o s
  rcases h with ⟨herr, hws, hok⟩ | herr
  · refine Or.inl ⟨herr, ?_, fun hs => hok (hs.note hquiet.steps_eq (Int.not_lt.mp hneg))⟩
    rw [hws, txWords_note, hquiet.words_eq]
  · exact Or.inr herr

theorem Sends.append {s s' s'' : I2c} {ws ws' : List ℕ} {e e' : ℤ} (h : Sends s ws e s')
    (hneg : ¬ e < 0) (h' : Sends s' ws' e' s'') : Sends s (ws ++ ws') e' s'' := by
  rcases h with ⟨-, hws, hok⟩ | he
  · rcases h' with ⟨herr, hws', hok'⟩ | herr
    · refine Or.inl ⟨herr, ?_, fun hs => hok' (hok hs)⟩
      rw [hws', hws, List.append_assoc]
    · exact Or.inr herr
  · rw [he] at hneg
    exact absurd neg_eio_neg hneg

theorem sends_xferBytes (o : ℕ → ℕ) (c : I2cConfig) (rd lastMsg : Bool) (bs : List (Fin 256)) (s : I2c) :
    Sends s (byteWords rd lastMsg bs) (xferBytes o c rd lastMsg bs s).1
      (xferBytes o c rd lastMsg bs s).2.2 := by
  induction bs generalizing s with
  | nil => exact Sends.nil s
  | cons b bs ih =>
    rw [xferBytes, byteWords]
    dsimp only
    by_cases hneg : (saa7231I2cSend o c (byteWord rd (lastMsg && bs.isEmpty) b) s).1 < 0
    · rw [if_pos hneg]
      exact Or.inr rfl
    · rw [if_neg hneg]
      apply Sends.after_send hneg
      cases rd with
      | false => exact ih _
      | true =>
        rw [if_pos rfl]
        split
        · exact Or.inr rfl
        · rename_i hneg'
          exact Sends.after_recv hneg' (ih _)

/-- **A transfer**: it succeeds with the words of its messages, or it reports `-EIO`. -/
theorem sends_xferMsgs (o : ℕ → ℕ) (c : I2cConfig) (ms : List I2cMsg) (s : I2c) :
    Sends s (xferWords ms) (xferMsgs o c ms s).1 (xferMsgs o c ms s).2.2 := by
  induction ms generalizing s with
  | nil => exact Sends.nil s
  | cons m ms ih =>
    rw [xferMsgs, xferWords]
    dsimp only
    by_cases hneg : (saa7231I2cSend o c (startWord m) s).1 < 0
    · rw [if_pos hneg]
      exact Or.inr rfl
    · rw [if_neg hneg]
      apply Sends.after_send hneg
      have hbytes := sends_xferBytes o c m.rd ms.isEmpty m.buf
        ((saa7231I2cSend o c (startWord m) s).2.note (saa7231I2cSend o c (startWord m) s).1)
      split
      · exact Or.inr rfl
      · rename_i hneg'
        exact hbytes.append hneg' (ih _)

/-! ### Framing -/

/-- A word of the TX FIFO as the controller takes it. -/
structure FifoWord where
  start : Bool
  stop : Bool
  data : ℕ
  deriving Repr, DecidableEq

def decodeWord (w : ℕ) : FifoWord := ⟨w.testBit 8, w.testBit 9, w % 256⟩

def startData (w : ℕ) : Bool × ℕ := ((decodeWord w).start, (decodeWord w).data)

def msgFrame (m : I2cMsg) : List (Bool × ℕ) :=
  (true, (m.addr <<< 1) ||| m.rdBit) :: m.buf.map fun b => (false, if m.rd then 0 else b.val)

/-- Message by message a START word with the address and a word per byte; the last word and no other
carries STOP. -/
def Framed (msgs : List I2cMsg) (ws : List ℕ) : Prop :=
  ws.map startData = msgs.flatMap msgFrame ∧
    ∃ n, ws.map (fun w => (decodeWord w).stop) = List.replicate n false ++ [true]

theorem startData_byteWord (rd last : Bool) (b : Fin 256) :
    startData (byteWord rd last b) = (false, if rd then 0 else b.val) := by
  revert rd last b
  decide +kernel

theorem stop_byteWord (rd last : Bool) (b : Fin 256) : (decodeWord (byteWord rd last b)).stop = last := by
  revert rd last b
  decide +kernel

theorem startWord_of_lt (m : I2cMsg) (h : m.addr < 128) :
    startData (startWord m) = (true, (m.addr <<< 1) ||| m.rdBit) ∧
      (decodeWord (startWord m)).stop = false := by
  have hall : ∀ (a : Fin 128) (rd : Bool),
      startData ((a.val <<< 1) ||| i2cStartBit ||| (if rd then 1 else 0))
          = (true, (a.val <<< 1) ||| (if rd then 1 else 0)) ∧
        (decodeWord ((a.val <<< 1) ||| i2cStartBit ||| (if rd then 1 else 0))).stop = false := by
    decide
  exact hall ⟨m.addr, h⟩ m.rd

theorem startWord_iff (m : I2cMsg) :
    startData (startWord m) = (true, (m.addr <<< 1) ||| m.rdBit) ↔ m.addr < 128 := by
  constructor
  · intro h
    have hdata : startWord m % 256 = (m.addr <<< 1) ||| m.rdBit := congrArg Prod.snd h
    have hlt : startWord m % 256 < 256 := Nat.mod_lt _ (by decide)
    have hle : m.addr <<< 1 ≤ (m.addr <<< 1) ||| m.rdBit := Nat.left_le_or
    have hshift : m.addr <<< 1 = m.addr * 2 := Nat.shiftLeft_eq m.addr 1
    omega
  · intro h
    exact (startWord_of_lt m h).1

theorem startData_byteWords (rd lastMsg : Bool) (bs : List (Fin 256)) :
    (byteWords rd lastMsg bs).map startData = bs.map fun b => (false, if rd then 0 else b.val) := by
  induction bs with
  | nil => rfl
  | cons b bs ih => rw [byteWords, List.map_cons, List.map_cons, startData_byteWord, ih]

theorem startData_xferWords_iff : (xferWords ms).map startData = ms.flatMap msgFrame ↔ ∀ m ∈ ms, m.addr < 128 := by
  induction ms with
  | nil => exact iff_of_true rfl fun m hm => absurd hm List.not_mem_nil
  | cons m ms ih =>
    rw [xferWords, List.map_cons, List.map_append, startData_byteWords, List.flatMap_cons, msgFrame,
      List.cons_append, List.cons.injEq, startWord_iff, List.append_cancel_left_eq, ih,
      List.forall_mem_cons]

theorem stop_byteWords (rd lastMsg : Bool) (bs : List (Fin 256)) :
    (byteWords rd lastMsg bs).map (fun w => (decodeWord w).stop)
      = if lastMsg = true ∧ bs ≠ [] then List.replicate (bs.length - 1) false ++ [true]
        else List.replicate bs.length false := by
  induction bs with
  | nil => simp [byteWords]
  | cons b bs ih =>
    rw [byteWords, List.map_cons, stop_byteWord, ih]
    cases lastMsg with
    | false => simp [List.replicate_succ]
    | true =>
      cases bs with
      | nil => simp
      | cons b' bs' => simp [List.replicate_succ]

theorem stop_xferWords (hne : ms ≠ []) (haddr : ∀ m ∈ ms, m.addr < 128) :
    ∃ n, (xferWords ms).map (fun w => (decodeWord w).stop)
      = List.replicate n false ++ [decide ((ms.getLast hne).buf ≠ [])] := by
  induction ms with
  | nil => exact absurd rfl hne
  | cons m ms ih =>
    have hstart := (startWord_of_lt m (haddr m List.mem_cons_self)).2
    rw [xferWords, List.map_cons, List.map_append, hstart, stop_byteWords]
    cases ms with
    | nil =>
      rw [List.getLast_singleton]
      by_cases hbuf : m.buf = []
      · exact ⟨0, by simp [hbuf, xferWords]⟩
      · exact ⟨m.buf.length - 1 + 1, by simp [hbuf, xferWords, List.replicate_succ]⟩
    | cons m' ms' =>
      obtain ⟨n, hn⟩ := ih (List.cons_ne_nil _ _) fun x hx => haddr x (List.mem_cons_of_mem _ hx)
      refine ⟨m.buf.length + n + 1, ?_⟩
      rw [hn, List.getLast_cons (List.cons_ne_nil _ _)]
      simp only [List.isEmpty_cons, Bool.false_eq_true, false_and, if_false]
      rw [List.replicate_succ, List.replicate_add, List.cons_append, List.append_assoc]

/-- **Framing, exactly**, of the words that a successful transfer writes. -/
theorem framed_xferWords_iff (hne : ms ≠ []) :
    Framed ms (xferWords ms) ↔ (∀ m ∈ ms, m.addr < 128) ∧ (ms.getLast hne).buf ≠ [] := by
  rw [Framed, startData_xferWords_iff]
  constructor
  · intro ⟨haddr, n, hn⟩
    refine ⟨haddr, fun hbuf => ?_⟩
    obtain ⟨n', hn'⟩ := stop_xferWords ms hne haddr
    rw [hn, hbuf] at hn'
    have hlast := congrArg List.getLast? hn'
    simp at hlast
  · intro ⟨haddr, hbuf⟩
    obtain ⟨n, hn⟩ := stop_xferWords ms hne haddr
    rw [decide_eq_true hbuf] at hn
    exact ⟨haddr, n, hn⟩

/-! ### Transfers -/

def I2c.idle : I2c := ⟨0, [], []⟩

/-- A transfer that succeeds returns the number of messages and is framed; a transfer with a failed
step returns a negative value. -/
def XferSound (o : ℕ → ℕ) (c : I2cConfig) (msgs : List I2cMsg) : Prop :=
  (0 ≤ (saa7231I2cXfer o c msgs I2c.idle).1 →
    (saa7231I2cXfer o c msgs I2c.idle).1 = msgs.length ∧
      Framed msgs (saa7231I2cXfer o c msgs I2c.idle).2.2.txWords) ∧
  ((∃ e ∈ (saa7231I2cXfer o c msgs I2c.idle).2.2.steps, e < 0) →
    (saa7231I2cXfer o c msgs I2c.idle).1 < 0)

/-- A transfer succeeds with the words of its messages, or returns `-EIO`. -/
theorem xfer_cases (o : ℕ → ℕ) (c : I2cConfig) (msgs : List I2cMsg) :
    (saa7231I2cXfer o c msgs I2c.idle).1 = msgs.length ∧
        (saa7231I2cXfer o c msgs I2c.idle).2.2.txWords = xferWords msgs ∧
        (saa7231I2cXfer o c msgs I2c.idle).2.2.StepsOk ∨
      (saa7231I2cXfer o c msgs I2c.idle).1 = -eio := by
  have hs := sends_xferMsgs o c msgs (I2c.idle.next.wr [(.control, o I2c.idle.reads ||| 0x01)])
  rw [saa7231I2cXfer]
  dsimp only
  rcases hs with ⟨herr, hws, hok⟩ | herr
  · refine Or.inl ⟨?_, hws, hok fun e he => absurd he List.not_mem_nil⟩
    rw [if_neg (not_not.mpr herr)]
  · rw [herr]
    exact Or.inr rfl

theorem poll_ready (o : ℕ → ℕ) (ok : ℕ → Bool) (n : ℕ) (s : I2c) (h : ok (o s.reads) = true) :
    poll o ok (n + 1) s = (true, s.next) := by
  rw [poll, if_pos h]

theorem send_ready (w : ℕ) (s : I2c) : (saa7231I2cSend (fun _ => txFifoEmpty) c w s).1 = 0 := by
  have hbusy : ¬ txFifoEmpty &&& i2cTxbusy ≠ 0 := by decide
  rw [saa7231I2cSend]
  simp only [if_neg hbusy]
  rw [if_neg (lt_irrefl (0 : ℤ)), poll_ready _ _ 999 _ (by decide)]
  rfl

theorem recv_ready : (saa7231I2cRecv (fun _ => txFifoEmpty) s).1 = 0 := by
  rw [saa7231I2cRecv, poll_ready _ _ 99 _ (by decide)]
  rfl

theorem xferBytes_ready (rd lastMsg : Bool) (bs : List (Fin 256)) (s : I2c) :
    (xferBytes (fun _ => txFifoEmpty) c rd lastMsg bs s).1 = 0 := by
  induction bs generalizing s with
  | nil => rfl
  | cons b bs ih =>
    rw [xferBytes]
    dsimp only
    rw [if_neg (by rw [send_ready]; decide)]
    cases rd with
    | false => exact ih _
    | true =>
      rw [if_pos rfl, if_neg (by rw [recv_ready]; decide)]
      exact ih _

theorem xferMsgs_ready (ms : List I2cMsg) (s : I2c) : (xferMsgs (fun _ => txFifoEmpty) c ms s).1 = 0 := by
  induction ms generalizing s with
  | nil => rfl
  | cons m ms ih =>
    rw [xferMsgs]
    dsimp only
    rw [if_neg (by rw [send_ready]; decide), if_neg (by rw [xferBytes_ready]; decide)]
    exact ih _

theorem xfer_ready (msgs : List I2cMsg) : (saa7231I2cXfer (fun _ => txFifoEmpty) c msgs I2c.idle).1 = msgs.length := by
  rw [saa7231I2cXfer]
  dsimp only
  rw [xferMsgs_ready, if_neg (by decide)]

/-- **The I2C master, exactly.**  Whatever the device answers, a transfer is framed and its result
truthful if and only if every address has seven bits and the last message has a byte. -/
theorem xfer_sound_iff (c : I2cConfig) (msgs : List I2cMsg) (hne : msgs ≠ []) :
    (∀ o : ℕ → ℕ, XferSound o c msgs) ↔
      (∀ m ∈ msgs, m.addr < 128) ∧ (msgs.getLast hne).buf ≠ [] := by
  rw [← framed_xferWords_iff msgs hne]
  constructor
  · intro hall
    have hres := xfer_ready c msgs
    have hframed := ((hall fun _ => txFifoEmpty).1 (by rw [hres]; exact Int.natCast_nonneg _)).2
    rcases xfer_cases (fun _ => txFifoEmpty) c msgs with ⟨-, hws, -⟩ | hbad
    · rwa [hws] at hframed
    · rw [hres] at hbad
      exact absurd (hbad ▸ Int.natCast_nonneg msgs.length) (by decide)
  · intro hframed o
    rcases xfer_cases o c msgs with ⟨hres, hws, hok⟩ | hbad
    · refine ⟨fun _ => ⟨hres, by rw [hws]; exact hframed⟩, fun ⟨e, he, hneg⟩ => ?_⟩
      exact absurd hneg (Int.not_lt.mpr (hok e he))
    · refine ⟨fun h => ?_, fun _ => by rw [hbad]; exact neg_eio_neg⟩
      rw [hbad] at h
      exact absurd h (by decide)

/-- A register read of a chip at address 0x1b: write one byte, read one. -/
def registerRead : List I2cMsg := [⟨0x1b, false, [0x10]⟩, ⟨0x1b, true, [0]⟩]

theorem xfer_sound_registerRead :
    registerRead ≠ [] ∧ ∀ o : ℕ → ℕ, XferSound o ⟨.rate400, .clk54MHz⟩ registerRead :=
  ⟨by decide, (xfer_sound_iff ⟨.rate400, .clk54MHz⟩ registerRead (by decide)).mpr (by decide)⟩

/-- The quick command that the SMBus emulation sends: one message without data. -/
def quickCommand : List I2cMsg := [⟨0x1b, false, []⟩]

/-- It succeeds with a START word and nothing else: the bus is never released. -/
theorem not_xfer_sound_quickCommand :
    quickCommand ≠ [] ∧ ¬ XferSound (fun _ => txFifoEmpty) ⟨.rate400, .clk54MHz⟩ quickCommand := by
  refine ⟨by decide, fun h => ?_⟩
  obtain ⟨-, -, n, hn⟩ := h.1 (by decide)
  have hlast := congrArg List.getLast? hn
  rw [List.getLast?_append, List.getLast?_singleton, Option.some_or] at hlast
  exact absurd hlast (by decide)

end BgtDvb.Saa7231
