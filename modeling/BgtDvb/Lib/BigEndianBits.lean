import Mathlib.Data.Nat.Bitwise
import Mathlib.Data.List.Induction

/-!
# Numbers by their bits, the highest first

Formats count the bits of a message from the highest bit of its first byte on, and read some of them as a number.

* `testBit_value` — **PROVED**: its bits, counted from the last one on;
* `testBit_value_bitsAt` — **PROVED**: the bits of a number that stands in a list of bytes.

Nothing here names a particular format.
-/

namespace BgtDvb.BigEndianBits

/-- A bit of the bytes, counted from the highest bit of the first byte on. -/
def bitAt (bytes : List UInt8) (k : ℕ) : Bool := (bytes.getD (k / 8) 0).toNat.testBit (7 - k % 8)

/-- The `len` bits from `start` on. -/
def bitsAt (bytes : List UInt8) (start len : ℕ) : List Bool := (List.range len).map fun k => bitAt bytes (start + k)

/-- The number that bits stand for, the highest first. -/
def value (bits : List Bool) : ℕ := bits.foldl (fun v b => 2 * v + b.toNat) 0

theorem value_concat (bits : List Bool) (b : Bool) : value (bits ++ [b]) = 2 * value bits + b.toNat := by
  rw [value, List.foldl_append]
  rfl

theorem testBit_value (bits : List Bool) (i : ℕ) : (value bits).testBit i = bits.reverse.getD i false := by
  induction bits using List.reverseRecOn generalizing i with
  | nil => exact Nat.zero_testBit i
  | append_singleton bits b ih =>
    have hbit : value (bits ++ [b]) = Nat.bit b (value bits) := by
      rw [value_concat, Nat.bit_val]
    rw [hbit, List.reverse_append, List.reverse_singleton, List.singleton_append]
    cases i with
    | zero => exact Nat.testBit_bit_zero b _
    | succ i =>
      rw [Nat.testBit_bit_succ, ih]
      rfl

theorem testBit_value_bitsAt (bytes : List UInt8) (start len i : ℕ) :
    (value (bitsAt bytes start len)).testBit i = (decide (i < len) && bitAt bytes (start + (len - 1 - i))) := by
  rw [testBit_value, List.getD_eq_getElem?_getD]
  by_cases hi : i < len
  · have hlen : (bitsAt bytes start len).length = len := by rw [bitsAt, List.length_map, List.length_range]
    have hrev : i < (bitsAt bytes start len).reverse.length := by rw [List.length_reverse, hlen]; exact hi
    rw [List.getElem?_eq_getElem hrev, Option.getD_some, List.getElem_reverse, decide_eq_true hi, Bool.true_and]
    unfold bitsAt
    rw [List.getElem_map, List.getElem_range, List.length_map, List.length_range]
  · have hrev : (bitsAt bytes start len).reverse.length ≤ i := by
      rw [List.length_reverse, bitsAt, List.length_map, List.length_range]
      omega
    rw [List.getElem?_eq_none hrev, decide_eq_false hi, Bool.false_and]
    rfl

end BgtDvb.BigEndianBits
