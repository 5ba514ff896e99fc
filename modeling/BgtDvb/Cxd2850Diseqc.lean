import BgtDvb.Cxd2850

/-!
# DiSEqC messages of the CXD2850

`cxd2850_send_diseqc_msg` hands a message to the FIFO of the demodulator in chunks of twelve bytes: the
length of a chunk into one register, its bytes into the next, and a trigger.  A message is the memory
from `cmd->msg[0]` on, as the length is not compared with the size of the array.

* `fifoWrites_passes` — **PROVED**: the chunks that the loop makes;
* `send_diseqc_iff` — **PROVED**: the lengths with which the chunks are the message.
-/

namespace BgtDvb.Cxd2850

/-! ### The function -/

/-- `SEC_REPEAT` -/
def secRepeat : UInt8 := 1

/-- The `len` bytes from `cmd->msg[indx]` on. -/
def msgBytes (mem : ℕ → UInt8) (indx len : ℕ) : List UInt8 := (List.range len).map fun j => mem (indx + j)

def chunkWrites (mem : ℕ → UInt8) (indx len : ℕ) : List Write :=
  [⟨0xFB3D, [UInt8.ofNat len]⟩, ⟨0xFB3E, msgBytes mem indx len⟩, ⟨0xFB37, [secRepeat]⟩]

/-- The pass of the loop at `i`: its writes, and `indx` after it. -/
def pass (mem : ℕ → UInt8) (loops rem i indx : ℕ) : List Write × ℕ :=
  if i ≠ loops - 1 then (chunkWrites mem indx 12, indx + 12)
  else (chunkWrites mem indx rem, indx + rem)

/-- The writes of the first passes, and `indx` after them. -/
def passes (mem : ℕ → UInt8) (loops rem : ℕ) : ℕ → List Write × ℕ
  | 0 => ([], 0)
  | i + 1 =>
    let s := passes mem loops rem i
    let p := pass mem loops rem i s.2
    (s.1 ++ p.1, p.2)

/-- `loops` -/
def loopsOf (msgLen : UInt8) : ℕ :=
  let loops := msgLen.toNat / 12
  if msgLen.toNat % 12 ≠ 0 then loops + 1 else loops

/-- The writes of `cxd2850_send_diseqc_msg`. -/
def diseqcWrites (mem : ℕ → UInt8) (msgLen : UInt8) : List Write :=
  let rem := msgLen.toNat % 12
  [⟨0xFB33, [0x01]⟩] ++ (passes mem (loopsOf msgLen) rem (loopsOf msgLen)).1 ++ [⟨0xFB33, [0x00]⟩]

/-- `cxd2850_send_diseqc_msg` -/
def sendDiseqcMsg (ok : ℕ → Bool) (mem : ℕ → UInt8) (msgLen : UInt8) : ℤ × List Write :=
  runWrites ok 0 (diseqcWrites mem msgLen)

/-! ### What the demodulator sees -/

/-- A write to the FIFO, and the length register at that time. -/
structure Chunk where
  length : Option UInt8
  bytes : List UInt8
deriving DecidableEq

/-- The writes to the FIFO, from a content of the length register on. -/
def fifoWrites (length : Option UInt8) : List Write → List Chunk
  | [] => []
  | w :: ws =>
    if w.addr = 0xFB3D then fifoWrites w.data.head? ws
    else if w.addr = 0xFB3E then ⟨length, w.data⟩ :: fifoWrites length ws
    else fifoWrites length ws

/-- The chunks are the message, unless a transfer failed; each has its length in the register and
between one and twelve bytes. -/
structure Chunked (mem : ℕ → UInt8) (msgLen : UInt8) (r : ℤ × List Write) : Prop where
  concat : r.1 = 0 → ((fifoWrites none r.2).map Chunk.bytes).flatten = msgBytes mem 0 msgLen.toNat
  size : ∀ c ∈ fifoWrites none r.2, 0 < c.bytes.length ∧ c.bytes.length ≤ 12
  length : ∀ c ∈ fifoWrites none r.2, c.length = some (UInt8.ofNat c.bytes.length)

theorem fifoWrites_begin {ws ws' : List Write} (h : ws <+: ws') (length : Option UInt8) :
    fifoWrites length ws <+: fifoWrites length ws' := by
  induction ws generalizing ws' length with
  | nil => exact List.nil_prefix
  | cons w ws ih =>
    obtain ⟨rest, rfl⟩ := h
    have htail : ws <+: ws ++ rest := List.prefix_append ws rest
    show fifoWrites length (w :: ws) <+: fifoWrites length (w :: (ws ++ rest))
    unfold fifoWrites
    split_ifs
    · exact ih htail _
    · exact List.cons_prefix_cons.mpr ⟨rfl, ih htail _⟩
    · exact ih htail _

def announced (mem : ℕ → UInt8) (indx len : ℕ) : Chunk := ⟨some (UInt8.ofNat len), msgBytes mem indx len⟩

theorem fifoWrites_chunkWrites (mem : ℕ → UInt8) (indx len : ℕ) (length : Option UInt8) (ws : List Write) :
    fifoWrites length (chunkWrites mem indx len ++ ws) =
      announced mem indx len :: fifoWrites (some (UInt8.ofNat len)) ws := rfl

/-! ### The chunks -/

section Chunks

variable (mem : ℕ → UInt8) (loops rem : ℕ)

theorem passes_full {n : ℕ} (hn : n ≤ loops - 1) :
    passes mem loops rem n = ((List.range n).flatMap fun i => chunkWrites mem (12 * i) 12, 12 * n) := by
  induction n with
  | zero => rfl
  | succ i ih =>
    have hne : i ≠ loops - 1 := by omega
    show ((passes mem loops rem i).1 ++ (pass mem loops rem i (passes mem loops rem i).2).1,
      (pass mem loops rem i (passes mem loops rem i).2).2) = _
    rw [ih (by omega), pass, if_pos hne, List.range_succ, List.flatMap_append, List.flatMap_singleton]
    rfl

theorem passes_all (hloops : 0 < loops) :
    (passes mem loops rem loops).1 =
      ((List.range (loops - 1)).flatMap fun i => chunkWrites mem (12 * i) 12) ++
        chunkWrites mem (12 * (loops - 1)) rem := by
  obtain ⟨n, rfl⟩ : ∃ n, loops = n + 1 := ⟨loops - 1, by omega⟩
  rw [Nat.add_sub_cancel]
  show (passes mem (n + 1) rem n).1 ++ (pass mem (n + 1) rem n (passes mem (n + 1) rem n).2).1 = _
  rw [passes_full mem (n + 1) rem (by omega), pass, if_neg (by omega)]

theorem fifoWrites_full (n : ℕ) (length : Option UInt8) (ws : List Write) :
    ∃ length', fifoWrites length (((List.range n).flatMap fun i => chunkWrites mem (12 * i) 12) ++ ws) =
      ((List.range n).map fun i => announced mem (12 * i) 12) ++ fifoWrites length' ws := by
  induction n generalizing ws with
  | zero => exact ⟨length, rfl⟩
  | succ n ih =>
    obtain ⟨length', heq⟩ := ih (chunkWrites mem (12 * n) 12 ++ ws)
    refine ⟨some (UInt8.ofNat 12), ?_⟩
    rw [List.range_succ, List.flatMap_append, List.flatMap_singleton, List.append_assoc, heq,
      fifoWrites_chunkWrites, List.map_append, List.append_assoc]
    rfl

end Chunks

theorem fifoWrites_passes (mem : ℕ → UInt8) {msgLen : UInt8} (hloops : 0 < loopsOf msgLen) :
    fifoWrites none (diseqcWrites mem msgLen) =
      ((List.range (loopsOf msgLen - 1)).map fun i => announced mem (12 * i) 12) ++
        [announced mem (12 * (loopsOf msgLen - 1)) (msgLen.toNat % 12)] := by
  obtain ⟨length', heq⟩ := fifoWrites_full mem (loopsOf msgLen - 1) none
    (chunkWrites mem (12 * (loopsOf msgLen - 1)) (msgLen.toNat % 12) ++ [⟨0xFB33, [0x00]⟩])
  show fifoWrites none ((passes mem (loopsOf msgLen) (msgLen.toNat % 12) (loopsOf msgLen)).1 ++ [⟨0xFB33, [0x00]⟩]) = _
  rw [passes_all mem _ _ hloops, List.append_assoc, heq]
  rfl

theorem length_msgBytes (mem : ℕ → UInt8) (indx len : ℕ) : (msgBytes mem indx len).length = len := by
  rw [msgBytes, List.length_map, List.length_range]

theorem msgBytes_append (mem : ℕ → UInt8) (indx a b : ℕ) :
    msgBytes mem indx a ++ msgBytes mem (indx + a) b = msgBytes mem indx (a + b) := by
  unfold msgBytes
  rw [List.range_add, List.map_append, List.map_map]
  congr 1
  apply List.map_congr_left
  intro j _
  show mem (indx + a + j) = mem (indx + (a + j))
  rw [Nat.add_assoc]

theorem flatten_full (mem : ℕ → UInt8) (n : ℕ) :
    (((List.range n).map fun i => announced mem (12 * i) 12).map Chunk.bytes).flatten = msgBytes mem 0 (12 * n) := by
  induction n with
  | zero => rfl
  | succ n ih =>
    rw [List.range_succ, List.map_append, List.map_append, List.flatten_append, ih]
    show msgBytes mem 0 (12 * n) ++ (msgBytes mem (12 * n) 12 ++ []) = _
    rw [List.append_nil, Nat.mul_succ, ← msgBytes_append, Nat.zero_add]

theorem announced_sized (mem : ℕ → UInt8) (indx : ℕ) {len : ℕ} (hpos : 0 < len) (hlen : len ≤ 12) :
    (0 < (announced mem indx len).bytes.length ∧ (announced mem indx len).bytes.length ≤ 12) ∧
      (announced mem indx len).length = some (UInt8.ofNat (announced mem indx len).bytes.length) := by
  have hlength : (announced mem indx len).bytes.length = len := length_msgBytes mem indx len
  rw [hlength]
  exact ⟨⟨hpos, hlen⟩, rfl⟩

theorem chunks_of_rest (mem : ℕ → UInt8) {msgLen : UInt8} (hrem : msgLen.toNat % 12 ≠ 0) :
    ((fifoWrites none (diseqcWrites mem msgLen)).map Chunk.bytes).flatten = msgBytes mem 0 msgLen.toNat ∧
      ∀ c ∈ fifoWrites none (diseqcWrites mem msgLen),
        (0 < c.bytes.length ∧ c.bytes.length ≤ 12) ∧ c.length = some (UInt8.ofNat c.bytes.length) := by
  have hloops : loopsOf msgLen = msgLen.toNat / 12 + 1 := if_pos hrem
  have hchunks := fifoWrites_passes mem (hloops ▸ Nat.succ_pos _ : 0 < loopsOf msgLen)
  rw [hloops, Nat.add_sub_cancel] at hchunks
  rw [hchunks]
  constructor
  · rw [List.map_append, List.flatten_append, flatten_full]
    show msgBytes mem 0 (12 * (msgLen.toNat / 12)) ++
      (msgBytes mem (12 * (msgLen.toNat / 12)) (msgLen.toNat % 12) ++ []) = _
    have happend := msgBytes_append mem 0 (12 * (msgLen.toNat / 12)) (msgLen.toNat % 12)
    rwa [Nat.zero_add, Nat.div_add_mod, ← List.append_nil (msgBytes mem _ (msgLen.toNat % 12))] at happend
  · intro c hc
    rcases List.mem_append.mp hc with hc | hc
    · obtain ⟨i, -, rfl⟩ := List.mem_map.mp hc
      exact announced_sized mem (12 * i) (by decide) le_rfl
    · rw [List.mem_singleton.mp hc]
      exact announced_sized mem _ (Nat.pos_of_ne_zero hrem) (Nat.mod_lt _ (by decide)).le

theorem chunked_of_chunks {mem : ℕ → UInt8} {msgLen : UInt8} (ok : ℕ → Bool)
    (hconcat : ((fifoWrites none (diseqcWrites mem msgLen)).map Chunk.bytes).flatten = msgBytes mem 0 msgLen.toNat)
    (hsized : ∀ c ∈ fifoWrites none (diseqcWrites mem msgLen),
      (0 < c.bytes.length ∧ c.bytes.length ≤ 12) ∧ c.length = some (UInt8.ofNat c.bytes.length)) :
    Chunked mem msgLen (sendDiseqcMsg ok mem msgLen) := by
  obtain ⟨hbegin, hall⟩ := runWrites_begin ok 0 (diseqcWrites mem msgLen)
  have hmem := (fifoWrites_begin hbegin none).subset
  refine ⟨fun hret => ?_, fun c hc => (hsized c (hmem hc)).1, fun c hc => (hsized c (hmem hc)).2⟩
  show ((fifoWrites none (runWrites ok 0 (diseqcWrites mem msgLen)).2).map Chunk.bytes).flatten = _
  rw [hall hret, hconcat]

/-- **The chunks are the message**, whatever becomes of the transfers, exactly if its length is not a
positive multiple of twelve: the last chunk of such a message would be empty. -/
theorem send_diseqc_iff (mem : ℕ → UInt8) (msgLen : UInt8) :
    (∀ ok, Chunked mem msgLen (sendDiseqcMsg ok mem msgLen)) ↔ (12 ∣ msgLen.toNat → msgLen = 0) := by
  constructor
  · intro hall hdvd
    by_contra hne
    have hrem : msgLen.toNat % 12 = 0 := Nat.mod_eq_zero_of_dvd hdvd
    have hpos : 0 < msgLen.toNat := Nat.pos_of_ne_zero fun h => hne (UInt8.toNat_inj.mp h)
    have hloops : loopsOf msgLen = msgLen.toNat / 12 := if_neg fun h => h hrem
    have hsize := (hall fun _ => true).size
    rw [sendDiseqcMsg, runWrites_true] at hsize
    have hlast : announced mem (12 * (loopsOf msgLen - 1)) 0 ∈ fifoWrites none (diseqcWrites mem msgLen) := by
      rw [fifoWrites_passes mem (by omega), hrem]
      exact List.mem_append_right _ (List.mem_singleton_self _)
    exact absurd (hsize _ hlast).1 (lt_irrefl 0)
  · intro hcond ok
    by_cases hrem : msgLen.toNat % 12 = 0
    · obtain rfl := hcond (Nat.dvd_of_mod_eq_zero hrem)
      exact chunked_of_chunks ok rfl fun c hc => absurd hc List.not_mem_nil
    · obtain ⟨hconcat, hsized⟩ := chunks_of_rest mem hrem
      exact chunked_of_chunks ok hconcat hsized

/-- Twelve bytes are announced as none. -/
theorem not_chunked_twelve :
    ¬ Chunked (fun i => UInt8.ofNat i) 12 (sendDiseqcMsg (fun _ => true) (fun i => UInt8.ofNat i) 12) := by
  intro h
  have hsize := h.size ⟨some 0, []⟩ (by decide)
  exact absurd hsize.1 (lt_irrefl 0)

end BgtDvb.Cxd2850
