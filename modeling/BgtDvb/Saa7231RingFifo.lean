import BgtDvb.Lib.Circular
import BgtDvb.Lib.GuardedRun
import BgtDvb.Saa7231Ring

/-!
# The buffer ring as a queue

`saa7231_ring_write`, `saa7231_ring_read` and `saa7231_ring_reinit` in any order. What is filled into the buffer that a
write returns is found in it when a read returns it. Next to the ring goes the queue that it is to be: `size` entries
at most, of which the oldest are given up.

* `Queued`, `queued_apply` — **PROVED**: what each call keeps as long as there is a buffer to spare;
* `inOrder_iff_spare` — **PROVED**: a single call;
* `along_inOrder_iff` — **PROVED**: every sequence of calls.
-/

namespace BgtDvb.Saa7231

open Circular GuardedRun

variable {α : Type}

/-! ### The calls -/

inductive RingOp (α : Type) where
  /-- A write, and what is filled into the buffer. -/
  | write (a : α)
  /-- A read; it is left out on an empty ring. -/
  | read
  | reinit
  deriving DecidableEq

/-- The ring, what is in its buffers, and what was written and neither read nor given up. -/
structure RingRun (α : Type) where
  ring : Ring
  slots : ℕ → α
  kept : List α

def RingRun.start (size : ℕ) (slots : ℕ → α) : RingRun α := ⟨saa7231RingInit size, slots, []⟩

def RingRun.apply (s : RingRun α) : RingOp α → RingRun α
  | .write a =>
    { ring := (saa7231RingWrite s.ring).2
      slots := Function.update s.slots (saa7231RingWrite s.ring).1 a
      kept := keepLast s.ring.size s.kept a }
  | .read => if ringEmpty s.ring then s else { s with ring := (saa7231RingRead s.ring).2, kept := s.kept.tail }
  | .reinit => { s with ring := saa7231RingReinit s.ring, kept := [] }

def RingRun.found (s : RingRun α) : Option α :=
  if ringEmpty s.ring then none else some (s.slots (saa7231RingRead s.ring).1)

def RingRun.next (s : RingRun α) (op : RingOp α) : Option (RingRun α) := some (s.apply op)

/-- The four words fit together. -/
structure Ring.Fits (ring : Ring) : Prop where
  count_le : ring.count ≤ ring.size
  tail_eq : ring.tail = (ring.head + ring.count) % ring.size

/-- **A call in order**: it leaves the words fitting together, and a read returns the oldest entry of the queue. -/
structure InOrder (s : RingRun α) (op : RingOp α) : Prop where
  fits : (s.apply op).ring.Fits
  oldest : op = .read → s.found = s.kept.head?

instance (ring : Ring) : Decidable ring.Fits :=
  decidable_of_iff (ring.count ≤ ring.size ∧ ring.tail = (ring.head + ring.count) % ring.size)
    ⟨fun h => ⟨h.1, h.2⟩, fun h => ⟨h.count_le, h.tail_eq⟩⟩

instance [DecidableEq α] (s : RingRun α) (op : RingOp α) : Decidable (InOrder s op) :=
  decidable_of_iff ((s.apply op).ring.Fits ∧ (op = .read → s.found = s.kept.head?))
    ⟨fun h => ⟨h.1, h.2⟩, fun h => ⟨h.fits, h.oldest⟩⟩

def Spare (s : RingRun α) : RingOp α → Prop
  | .write _ => ringFull s.ring = false ∨ s.ring.size = 1
  | .read | .reinit => True

/-! ### What each call keeps -/

/-- The ring holds the queue. -/
structure Queued (s : RingRun α) : Prop where
  size_pos : 0 < s.ring.size
  size_lt : s.ring.size < 2 ^ 32
  head_lt : s.ring.head < s.ring.size
  fits : s.ring.Fits
  count_eq : s.ring.count = s.kept.length
  holds : Holds s.ring.size s.slots s.ring.head s.kept

theorem queued_start {size : ℕ} (hpos : 0 < size) (hlt : size < 2 ^ 32) (slots : ℕ → α) :
    Queued (RingRun.start size slots) where
  size_pos := hpos
  size_lt := hlt
  head_lt := hpos
  fits := ⟨Nat.zero_le _, (Nat.zero_mod _).symm⟩
  count_eq := rfl
  holds := holds_nil _ _ _

section Calls

variable {s : RingRun α}

theorem ringFull_iff (ring : Ring) : ringFull ring = true ↔ ring.size ≤ ring.count := decide_eq_true_iff

theorem ringEmpty_iff (ring : Ring) : ringEmpty ring = true ↔ ring.count = 0 := beq_iff_eq

theorem queued_write (h : Queued s) (hroom : s.ring.count < s.ring.size) (a : α) : Queued (s.apply (.write a)) := by
  have hlen : s.kept.length < s.ring.size := h.count_eq ▸ hroom
  have hkept : (s.apply (.write a)).kept = s.kept ++ [a] := keepLast_room hlen a
  have hring : (s.apply (.write a)).ring =
      { s.ring with tail := (s.ring.tail + 1) % s.ring.size, count := s.ring.count + 1 } := by
    show (saa7231RingWrite s.ring).2 = _
    rw [saa7231RingWrite, if_pos hroom]
  have hslots : (s.apply (.write a)).slots =
      Function.update s.slots ((s.ring.head + s.kept.length) % s.ring.size) a := by
    show Function.update s.slots s.ring.tail a = _
    rw [h.fits.tail_eq, h.count_eq]
  refine ⟨?_, ?_, ?_, ⟨?_, ?_⟩, ?_, ?_⟩
  · exact hring ▸ h.size_pos
  · exact hring ▸ h.size_lt
  · exact hring ▸ h.head_lt
  · exact hring ▸ hroom
  · rw [hring]
    show (s.ring.tail + 1) % s.ring.size = (s.ring.head + (s.ring.count + 1)) % s.ring.size
    rw [h.fits.tail_eq, Nat.mod_add_mod, Nat.add_assoc]
  · rw [hring, hkept, List.length_append, ← h.count_eq]
    rfl
  · rw [hring, hkept, hslots]
    exact h.holds.push hlen a

theorem queued_write_only (h : Queued s) (hone : s.ring.size = 1) (hfull : s.ring.count = 1) (a : α) :
    Queued (s.apply (.write a)) := by
  have hkept : (s.apply (.write a)).kept = [a] := by
    have htail : s.kept.tail = [] := by
      rw [← List.length_eq_zero_iff, List.length_tail, ← h.count_eq, hfull]
    show keepLast s.ring.size s.kept a = [a]
    rw [keepLast_full (by rw [← h.count_eq, hfull, hone]), htail]
    rfl
  have hring : (s.apply (.write a)).ring = { s.ring with tail := 0 } := by
    have hplace : (s.ring.tail + 1) % s.ring.size = 0 := by rw [hone, Nat.mod_one]
    show (saa7231RingWrite s.ring).2 = _
    rw [saa7231RingWrite, if_neg (by omega), hplace]
  refine ⟨?_, ?_, ?_, ⟨?_, ?_⟩, ?_, ?_⟩
  · exact hring ▸ h.size_pos
  · exact hring ▸ h.size_lt
  · exact hring ▸ h.head_lt
  · exact hring ▸ h.fits.count_le
  · rw [hring]
    show 0 = (s.ring.head + s.ring.count) % s.ring.size
    rw [hone, Nat.mod_one]
  · rw [hring, hkept]
    exact hfull
  · have hslots : (s.apply (.write a)).slots = Function.update s.slots (s.ring.tail % 1) a := by
      show Function.update s.slots s.ring.tail a = _
      rw [Nat.mod_one, h.fits.tail_eq, hone, Nat.mod_one]
    rw [hring, hkept, hslots]
    show Holds s.ring.size _ s.ring.head [a]
    rw [hone]
    exact Holds.forget s.slots s.ring.tail s.ring.head a

theorem queued_read (h : Queued s) : Queued (s.apply .read) := by
  by_cases hempty : ringEmpty s.ring = true
  · rw [RingRun.apply, if_pos hempty]
    exact h
  have hcount : s.ring.count ≠ 0 := fun hzero => hempty ((ringEmpty_iff _).mpr hzero)
  obtain ⟨x, xs, hkept⟩ : ∃ x xs, s.kept = x :: xs :=
    List.exists_cons_of_length_pos (by rw [← h.count_eq]; omega)
  have hlen : s.ring.count = xs.length + 1 := by rw [h.count_eq, hkept, List.length_cons]
  have hle := h.fits.count_le
  have hlt := h.size_lt
  have hless : (s.ring.count + (2 ^ 32 - 1)) % 2 ^ 32 = xs.length := by omega
  have happly : s.apply .read =
      ⟨{ s.ring with head := (s.ring.head + 1) % s.ring.size, count := xs.length }, s.slots, xs⟩ := by
    rw [RingRun.apply, if_neg hempty, saa7231RingRead, hless, hkept]
    rfl
  rw [happly]
  refine ⟨h.size_pos, hlt, Nat.mod_lt _ h.size_pos, ⟨?_, ?_⟩, rfl, ?_⟩
  · show xs.length ≤ s.ring.size
    omega
  · show s.ring.tail = ((s.ring.head + 1) % s.ring.size + xs.length) % s.ring.size
    rw [h.fits.tail_eq, hlen, Nat.mod_add_mod, Nat.add_assoc, Nat.add_comm 1]
  · exact (hkept ▸ h.holds).pop

theorem queued_reinit (h : Queued s) : Queued (s.apply .reinit) where
  size_pos := h.size_pos
  size_lt := h.size_lt
  head_lt := h.size_pos
  fits := ⟨Nat.zero_le _, (Nat.zero_mod _).symm⟩
  count_eq := rfl
  holds := holds_nil _ _ _

theorem queued_apply (h : Queued s) {op : RingOp α} (hspare : Spare s op) : Queued (s.apply op) := by
  cases op with
  | write a =>
    by_cases hroom : s.ring.count < s.ring.size
    · exact queued_write h hroom a
    · have hfull : ringFull s.ring = true := (ringFull_iff _).mpr (Nat.not_lt.mp hroom)
      have hone : s.ring.size = 1 := hspare.resolve_left fun hnot => Bool.false_ne_true (hnot.symm.trans hfull)
      have hle := h.fits.count_le
      exact queued_write_only h hone (by omega) a
  | read => exact queued_read h
  | reinit => exact queued_reinit h

theorem Queued.found_eq (h : Queued s) : s.found = s.kept.head? := by
  unfold RingRun.found
  by_cases hempty : ringEmpty s.ring = true
  · have hnil : s.kept = [] := by
      rw [← List.length_eq_zero_iff, ← h.count_eq]
      exact (ringEmpty_iff _).mp hempty
    rw [if_pos hempty, hnil]
    rfl
  · have hcount : s.ring.count ≠ 0 := fun hzero => hempty ((ringEmpty_iff _).mpr hzero)
    obtain ⟨x, xs, hkept⟩ : ∃ x xs, s.kept = x :: xs :=
      List.exists_cons_of_length_pos (by rw [← h.count_eq]; omega)
    have hfront : s.slots s.ring.head = x := (hkept ▸ h.holds).front h.head_lt
    rw [if_neg hempty, hkept]
    exact congrArg some hfront

/-- A write to a full ring of more than one buffer moves `tail` off `head`. -/
theorem not_fits_write (h : Queued s) (hfull : s.ring.count = s.ring.size) (hmore : s.ring.size ≠ 1) (a : α) :
    ¬(s.apply (.write a)).ring.Fits := by
  intro hfits
  have hring : (s.apply (.write a)).ring = { s.ring with tail := (s.ring.tail + 1) % s.ring.size } := by
    show (saa7231RingWrite s.ring).2 = _
    rw [saa7231RingWrite, if_neg (by omega)]
  have htail : (s.ring.tail + 1) % s.ring.size = (s.ring.head + s.ring.count) % s.ring.size := by
    have heq := hfits.tail_eq
    rwa [hring] at heq
  have hpos := h.size_pos
  rw [h.fits.tail_eq, Nat.mod_add_mod, hfull, Nat.add_assoc] at htail
  -- one step further is another place
  have hdvd : s.ring.size ∣ s.ring.head + (s.ring.size + 1) - (s.ring.head + s.ring.size) :=
    (Nat.modEq_iff_dvd' (by omega)).mp htail.symm
  have hone : s.ring.size ∣ 1 := by
    rwa [show s.ring.head + (s.ring.size + 1) - (s.ring.head + s.ring.size) = 1 by omega] at hdvd
  exact hmore (Nat.dvd_one.mp hone)

/-- **A single call** is in order exactly if there is a buffer to spare. -/
theorem inOrder_iff_spare (h : Queued s) (op : RingOp α) : InOrder s op ↔ Spare s op := by
  constructor
  · intro horder
    cases op with
    | write a =>
      by_contra hnot
      obtain ⟨hfull, hmore⟩ := not_or.mp hnot
      have hle : s.ring.size ≤ s.ring.count := (ringFull_iff _).mp (Bool.eq_true_of_not_eq_false hfull)
      exact not_fits_write h (Nat.le_antisymm h.fits.count_le hle) hmore a horder.fits
    | read => trivial
    | reinit => trivial
  · exact fun hspare => ⟨(queued_apply h hspare).fits, fun _ => h.found_eq⟩

end Calls

/-! ### Every sequence of calls -/

/-- **Every sequence of calls** on a new ring: the words keep fitting together, and the reads return the entries in
the order of the writes without those given up, exactly if no write finds a ring of more than one buffer full. -/
theorem along_inOrder_iff {size : ℕ} (hpos : 0 < size) (hlt : size < 2 ^ 32) (slots : ℕ → α) (ops : List (RingOp α)) :
    Along RingRun.next InOrder (RingRun.start size slots) ops ↔
      Along RingRun.next Spare (RingRun.start size slots) ops := by
  refine along_iff_of_invariant (I := Queued) (fun s op s' h hspare hstep => ?_) (fun s op h => inOrder_iff_spare h op)
    ops _ (queued_start hpos hlt slots)
  cases hstep
  exact queued_apply h hspare

/-- The ring of the driver, with three writes and a read. -/
theorem along_inOrder_driver :
    (0 < ringSiz ∧ ringSiz < 2 ^ 32) ∧
      (Along RingRun.next InOrder (RingRun.start ringSiz fun _ => 0) [.write 1, .write 2, .read, .write 3] ↔
        Along RingRun.next Spare (RingRun.start ringSiz fun _ => 0) [.write 1, .write 2, .read, .write 3]) :=
  ⟨by decide, along_inOrder_iff (by decide) (by decide) _ _⟩

/-- Seventeen writes to the ring of the driver. -/
theorem not_inOrder_seventeen :
    ¬∀ ops : List (RingOp ℕ), Along RingRun.next InOrder (RingRun.start ringSiz fun _ => 0) ops := by
  intro h
  have hrun := h ((List.range 17).map .write)
  revert hrun
  decide

end BgtDvb.Saa7231
