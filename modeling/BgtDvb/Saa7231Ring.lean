import Mathlib

/-!
# The SAA7231 buffer ring

`saa7231_ring.c`: `size` DMA buffers in an array, of which `head` is the next to be read, `tail`
the next to be written and `count` the number written and not yet read.  The ring is modelled by
these four words; a buffer is its index in the array.  `saa7231_ring_write` never refuses: on a
full ring it advances `tail` and leaves `count`.
-/

namespace BgtDvb.Saa7231

/-- `RINGSIZ`. -/
def ringSiz : ℕ := 16

/-- `struct saa7231_ring` without its array and caches. -/
@[ext]
structure Ring where
  size : ℕ
  head : ℕ
  tail : ℕ
  count : ℕ
  deriving Repr, DecidableEq

def saa7231RingInit (size : ℕ) : Ring := ⟨size, 0, 0, 0⟩

def saa7231RingReinit (ring : Ring) : Ring := { ring with head := 0, tail := 0, count := 0 }

def ringEmpty (ring : Ring) : Bool := ring.count == 0

def ringFull (ring : Ring) : Bool := ring.size ≤ ring.count

/-- `count` is a 32-bit word: reading an empty ring wraps it. -/
def saa7231RingRead (ring : Ring) : ℕ × Ring :=
  (ring.head,
    { ring with head := (ring.head + 1) % ring.size, count := (ring.count + (2 ^ 32 - 1)) % 2 ^ 32 })

def saa7231RingWrite (ring : Ring) : ℕ × Ring :=
  (ring.tail,
    { ring with
      tail := (ring.tail + 1) % ring.size
      count := if ring.count < ring.size then ring.count + 1 else ring.count })

theorem ringRead_ringWrite_of_empty {ring : Ring} (hsize : 0 < ring.size) (hc : ring.count = 0)
    (ht : ring.tail = ring.head) :
    (saa7231RingRead (saa7231RingWrite ring).2).1 = ring.head ∧
      (saa7231RingRead (saa7231RingWrite ring).2).2
        = { ring with head := (ring.head + 1) % ring.size, tail := (ring.head + 1) % ring.size } := by
  refine ⟨rfl, ?_⟩
  ext <;> simp [saa7231RingRead, saa7231RingWrite, hc, ht, hsize]

end BgtDvb.Saa7231
