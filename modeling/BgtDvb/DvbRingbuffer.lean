import BgtDvb.Lib.Circular
import BgtDvb.Lib.Mealy

/-!
# The ring buffer of the DVB core

`dvb-core/dvb_ringbuffer.c`: blocks are copied into an array, and out of it, in two parts if they go round its end.  The
calls do not look whether there is room, which the header leaves to the caller.

* `ringbuffer_fifo` — **PROVED**: every sequence of calls reads what a queue gives.
-/

namespace BgtDvb.Ringbuffer

open Circular Mealy

/-! ### The functions -/

structure DvbRingbuffer where
  data : ℕ → UInt8
  size : ℕ
  pread : ℕ
  pwrite : ℕ

/-- `dvb_ringbuffer_init`. -/
def init (data : ℕ → UInt8) (len : ℕ) : DvbRingbuffer := ⟨data, len, 0, 0⟩

/-- `dvb_ringbuffer_free`. -/
def free (rbuf : DvbRingbuffer) : ℤ :=
  let free : ℤ := rbuf.pread - rbuf.pwrite
  (if free ≤ 0 then free + rbuf.size else free) - 1

/-- `dvb_ringbuffer_avail`. -/
def avail (rbuf : DvbRingbuffer) : ℤ :=
  let avail : ℤ := rbuf.pwrite - rbuf.pread
  if avail < 0 then avail + rbuf.size else avail

/-- `dvb_ringbuffer_flush`. -/
def flush (rbuf : DvbRingbuffer) : DvbRingbuffer := { rbuf with pread := rbuf.pwrite }

/-- `dvb_ringbuffer_reset`. -/
def reset (rbuf : DvbRingbuffer) : DvbRingbuffer := { rbuf with pread := 0, pwrite := 0 }

/-- `memcpy` into the array. -/
def memcpy (data : ℕ → UInt8) (start : ℕ) (buf : List UInt8) : ℕ → UInt8 := fun p =>
  if start ≤ p ∧ p < start + buf.length then buf.getD (p - start) 0 else data p

/-- `memcpy` out of the array. -/
def copied (data : ℕ → UInt8) (start len : ℕ) : List UInt8 := (List.range len).map fun i => data (start + i)

/-- `dvb_ringbuffer_write`. -/
def write (rbuf : DvbRingbuffer) (buf : List UInt8) : DvbRingbuffer :=
  let split := if rbuf.size < rbuf.pwrite + buf.length then rbuf.size - rbuf.pwrite else 0
  let rbuf := if 0 < split then { rbuf with data := memcpy rbuf.data rbuf.pwrite (buf.take split), pwrite := 0 } else rbuf
  let buf := buf.drop split
  { rbuf with data := memcpy rbuf.data rbuf.pwrite buf, pwrite := (rbuf.pwrite + buf.length) % rbuf.size }

/-- `dvb_ringbuffer_read`. -/
def read (rbuf : DvbRingbuffer) (len : ℕ) : DvbRingbuffer × List UInt8 :=
  let split := if rbuf.size < rbuf.pread + len then rbuf.size - rbuf.pread else 0
  let pread := if 0 < split then 0 else rbuf.pread
  ({ rbuf with pread := (pread + (len - split)) % rbuf.size },
    copied rbuf.data rbuf.pread split ++ copied rbuf.data pread (len - split))

inductive Op
  | write (buf : List UInt8)
  | read (len : ℕ)
  | flush
  | reset

/-- A call, with what is read: nothing is written without room for it, or read before it is there. -/
def step (rbuf : DvbRingbuffer) : Op → DvbRingbuffer × List UInt8
  | .write buf => (if buf.length ≤ free rbuf then write rbuf buf else rbuf, [])
  | .read len => if len ≤ avail rbuf then read rbuf len else (rbuf, [])
  | .flush => (flush rbuf, [])
  | .reset => (reset rbuf, [])

/-- The same calls on a queue of less than `size` bytes. -/
def queueStep (size : ℕ) (queue : List UInt8) : Op → List UInt8 × List UInt8
  | .write buf => (if queue.length + buf.length < size then queue ++ buf else queue, [])
  | .read len => if len ≤ queue.length then (queue.drop len, queue.take len) else (queue, [])
  | .flush | .reset => ([], [])

/-! ### The list in the array -/

structure Ring (size : ℕ) (rbuf : DvbRingbuffer) (queue : List UInt8) : Prop where
  size_eq : rbuf.size = size
  pread_lt : rbuf.pread < size
  length_lt : queue.length < size
  pwrite_eq : rbuf.pwrite = (rbuf.pread + queue.length) % size
  holds : Holds size rbuf.data rbuf.pread queue

variable {size : ℕ} {rbuf : DvbRingbuffer} {queue buf : List UInt8} {len : ℕ}

theorem add_mod_cases {a b n : ℕ} (ha : a < n) (hb : b ≤ n) :
    a + b < n ∧ (a + b) % n = a + b ∨ n ≤ a + b ∧ (a + b) % n = a + b - n := by
  rcases Nat.lt_or_ge (a + b) n with h | h
  · exact .inl ⟨h, Nat.mod_eq_of_lt h⟩
  · refine .inr ⟨h, ?_⟩
    rw [Nat.mod_eq_sub_mod h, Nat.mod_eq_of_lt (by omega)]

theorem Ring.free_eq (h : Ring size rbuf queue) : free rbuf = size - 1 - queue.length := by
  have hp := h.pread_lt
  have hl := h.length_lt
  unfold free
  rw [h.pwrite_eq, h.size_eq]
  rcases add_mod_cases hp hl.le with ⟨_, hmod⟩ | ⟨_, hmod⟩ <;> rw [hmod] <;> dsimp only <;> split_ifs <;> omega

theorem Ring.avail_eq (h : Ring size rbuf queue) : avail rbuf = queue.length := by
  have hp := h.pread_lt
  have hl := h.length_lt
  unfold avail
  rw [h.pwrite_eq, h.size_eq]
  rcases add_mod_cases hp hl.le with ⟨_, hmod⟩ | ⟨_, hmod⟩ <;> rw [hmod] <;> dsimp only <;> split_ifs <;> omega

theorem memcpy_inside (data : ℕ → UInt8) (start : ℕ) {k : ℕ} (hk : k < buf.length) :
    memcpy data start buf (start + k) = buf[k] := by
  rw [memcpy, if_pos ⟨Nat.le_add_right _ _, by omega⟩, Nat.add_sub_cancel_left, List.getD_eq_getElem _ _ hk]

theorem memcpy_outside (data : ℕ → UInt8) {start p : ℕ} (h : ∀ k < buf.length, p ≠ start + k) :
    memcpy data start buf p = data p :=
  if_neg fun hin => h (p - start) (by omega) (by omega)

/-- The two parts of a block: its bytes one behind another round the end, and everything else as it was. -/
theorem write_spec (buf : List UInt8) (hsize : rbuf.pwrite < rbuf.size) (hlen : buf.length ≤ rbuf.size) :
    ∃ data', write rbuf buf = { rbuf with data := data', pwrite := (rbuf.pwrite + buf.length) % rbuf.size } ∧
      (∀ k (hk : k < buf.length), data' ((rbuf.pwrite + k) % rbuf.size) = buf[k]) ∧
      ∀ p, (∀ k < buf.length, p ≠ (rbuf.pwrite + k) % rbuf.size) → data' p = rbuf.data p := by
  unfold write
  by_cases hround : rbuf.size < rbuf.pwrite + buf.length
  · -- the first part ends with the array, the second one starts with it
    obtain ⟨split, hsplit⟩ : ∃ split, split = rbuf.size - rbuf.pwrite := ⟨_, rfl⟩
    rw [if_pos hround, ← hsplit]
    dsimp only
    rw [if_pos (by omega)]
    refine ⟨memcpy (memcpy rbuf.data rbuf.pwrite (buf.take split)) 0 (buf.drop split), ?_, fun k hk => ?_, fun p hp => ?_⟩
    · rw [List.length_drop, Nat.zero_add, Nat.mod_eq_sub_mod hround.le,
        show rbuf.pwrite + buf.length - rbuf.size = buf.length - split by omega]
    · by_cases hfirst : k < split
      · rw [Nat.mod_eq_of_lt (by omega), memcpy_outside _ fun j hj => by rw [List.length_drop] at hj; omega,
          memcpy_inside _ _ (by rw [List.length_take]; omega), List.getElem_take]
      · have hmod : (rbuf.pwrite + k) % rbuf.size = 0 + (k - split) := by
          rw [Nat.mod_eq_sub_mod (by omega), Nat.mod_eq_of_lt (by omega)]
          omega
        rw [hmod, memcpy_inside _ _ (by rw [List.length_drop]; omega), List.getElem_drop]
        congr 1
        omega
    · rw [memcpy_outside _ fun j hj => ?_, memcpy_outside _ fun j hj => ?_]
      · rw [List.length_take] at hj
        have := hp j (by omega)
        rwa [Nat.mod_eq_of_lt (by omega)] at this
      · rw [List.length_drop] at hj
        have := hp (j + split) (by omega)
        rwa [Nat.mod_eq_sub_mod (by omega), Nat.mod_eq_of_lt (by omega),
          show rbuf.pwrite + (j + split) - rbuf.size = 0 + j by omega] at this
  · rw [if_neg hround]
    have hmod : ∀ k < buf.length, (rbuf.pwrite + k) % rbuf.size = rbuf.pwrite + k :=
      fun k hk => Nat.mod_eq_of_lt (by omega)
    refine ⟨memcpy rbuf.data rbuf.pwrite buf, rfl, fun k hk => ?_, fun p hp => memcpy_outside _ fun k hk => ?_⟩
    · rw [hmod k hk, memcpy_inside]
    · rw [← hmod k hk]
      exact hp k hk

theorem Ring.write (h : Ring size rbuf queue) (hroom : queue.length + buf.length < size) :
    Ring size (Ringbuffer.write rbuf buf) (queue ++ buf) := by
  have hpos : 0 < size := by omega
  have hlt : rbuf.pwrite < rbuf.size := by
    rw [h.pwrite_eq, h.size_eq]
    exact Nat.mod_lt _ hpos
  obtain ⟨data', hwrite, hnew, hold⟩ := write_spec buf hlt (by rw [h.size_eq]; omega)
  rw [h.size_eq, h.pwrite_eq] at hwrite hnew hold
  simp only [Nat.mod_add_mod] at hwrite hnew hold
  rw [hwrite]
  refine ⟨rfl, h.pread_lt, by rwa [List.length_append], ?_, h.holds.append (by omega) hnew hold⟩
  rw [List.length_append, ← Nat.add_assoc]

theorem read_eq (hsize : rbuf.pread < rbuf.size) (hlen : len ≤ rbuf.size) :
    read rbuf len = ({ rbuf with pread := (rbuf.pread + len) % rbuf.size },
      (List.range len).map fun i => rbuf.data ((rbuf.pread + i) % rbuf.size)) := by
  unfold read copied
  by_cases hround : rbuf.size < rbuf.pread + len
  · obtain ⟨todo, rfl⟩ : ∃ todo, len = rbuf.size - rbuf.pread + todo := ⟨len - (rbuf.size - rbuf.pread), by omega⟩
    rw [if_pos hround]
    dsimp only
    rw [if_pos (by omega), Nat.add_sub_cancel_left, Nat.zero_add, List.range_add, List.map_append,
      List.map_map, show rbuf.pread + (rbuf.size - rbuf.pread + todo) = todo + rbuf.size by omega, Nat.add_mod_right]
    congr 2
    · exact List.map_congr_left fun i hi => by rw [Nat.mod_eq_of_lt (by have := List.mem_range.mp hi; omega)]
    · refine List.map_congr_left fun i hi => ?_
      have := List.mem_range.mp hi
      rw [Function.comp, show rbuf.pread + (rbuf.size - rbuf.pread + i) = i + rbuf.size by omega, Nat.add_mod_right,
        Nat.mod_eq_of_lt (by omega), Nat.zero_add]
  · rw [if_neg hround]
    refine congrArg (Prod.mk _) (List.map_congr_left fun i hi => ?_)
    rw [Nat.mod_eq_of_lt (by have := List.mem_range.mp hi; omega)]
    rfl

theorem Ring.read (h : Ring size rbuf queue) (hlen : len ≤ queue.length) :
    Ring size (Ringbuffer.read rbuf len).1 (queue.drop len) ∧ (Ringbuffer.read rbuf len).2 = queue.take len := by
  have hl := h.length_lt
  rw [read_eq (by rw [h.size_eq]; exact h.pread_lt) (by rw [h.size_eq]; omega), h.size_eq]
  refine ⟨⟨rfl, Nat.mod_lt _ (by omega), by rw [List.length_drop]; omega, ?_, h.holds.drop len⟩, ?_⟩
  · show rbuf.pwrite = ((rbuf.pread + len) % size + (queue.drop len).length) % size
    rw [h.pwrite_eq, Nat.mod_add_mod, List.length_drop]
    congr 1
    omega
  · refine List.ext_getElem (by simp [hlen]) fun i hi hi' => ?_
    rw [List.getElem_map, List.getElem_range, List.getElem_take]
    exact h.holds i _

/-! ### All calls -/

theorem step_ring (hsize : 0 < size) (rbuf : DvbRingbuffer) (queue : List UInt8) (op : Op) (h : Ring size rbuf queue) :
    Ring size (step rbuf op).1 (queueStep size queue op).1 ∧ (step rbuf op).2 = (queueStep size queue op).2 := by
  have hl := h.length_lt
  have hmod : rbuf.pwrite < size := h.pwrite_eq ▸ Nat.mod_lt _ hsize
  cases op with
  | write buf =>
    have hroom : ((buf.length : ℤ) ≤ free rbuf) ↔ queue.length + buf.length < size := by
      rw [h.free_eq]
      omega
    refine ⟨?_, rfl⟩
    show Ring size (if _ then _ else _) (if _ then _ else _)
    by_cases hfits : queue.length + buf.length < size
    · rw [if_pos (hroom.mpr hfits), if_pos hfits]
      exact h.write hfits
    · rw [if_neg (mt hroom.mp hfits), if_neg hfits]
      exact h
  | read len =>
    have hthere : ((len : ℤ) ≤ avail rbuf) ↔ len ≤ queue.length := by rw [h.avail_eq, Nat.cast_le]
    rw [step, queueStep]
    by_cases hlen : len ≤ queue.length
    · rw [if_pos (hthere.mpr hlen), if_pos hlen]
      exact h.read hlen
    · rw [if_neg (mt hthere.mp hlen), if_neg hlen]
      exact ⟨h, rfl⟩
  | flush => exact ⟨⟨h.size_eq, hmod, hsize, (Nat.mod_eq_of_lt hmod).symm, holds_nil _ _ _⟩, rfl⟩
  | reset => exact ⟨⟨h.size_eq, hsize, hsize, (Nat.zero_mod _).symm, holds_nil _ _ _⟩, rfl⟩

/-- **It is a queue.** -/
theorem ringbuffer_fifo (hsize : 0 < size) (data : ℕ → UInt8) (ops : List Op) :
    outputs step (init data size) ops = outputs (queueStep size) [] ops :=
  outputs_rel (step_ring hsize) ops _ _ ⟨rfl, hsize, hsize, (Nat.zero_mod _).symm, holds_nil _ _ _⟩

theorem ringbuffer_fifo_four :
    outputs step (init (fun _ => 0) 4) [.write [1, 2, 3], .read 2, .write [4, 5], .read 3] = [[], [1, 2], [], [3, 4, 5]] :=
  ringbuffer_fifo (by decide) _ _

end BgtDvb.Ringbuffer
