import BgtDvb.Lib.BigEndianBits
import BgtDvb.ScanVct

/-!
# Bits out of bytes

`getBits` of `util/scan/section.c`, which `util/atsc_epg/atsc_epg.c` has as `get_bits`. As many bytes are put together as
the number of bits asks for, wherever the first of them stands in its byte; then the bits behind the last one are shifted
out. With one byte too few that is a shift by a negative number.

* `gather_bit`, `bitsOf_some`, `bitsOf_none` — **PROVED**: what comes out, and when nothing does;
* `getBits_iff` — **PROVED**: when that is the value of the bits;
* `getBits_vct` — **PROVED**: and then it is what the reader of the channel tables makes of them.
-/

namespace BgtDvb.Bits

open BigEndianBits

/-! ### The function -/

/-- `x >> n` for an `int`; C defines it for the width of the word only. -/
def shiftRight (x : BitVec 32) (n : ℤ) : Option (BitVec 32) := if 0 ≤ n ∧ n < 32 then some (x >>> n.toNat) else none

/-- `tmp_long` after so many rounds of the loop; `none` if a byte is not there. -/
def gather (b : List UInt8) : ℕ → Option (BitVec 32)
  | 0 => b[0]?.map fun byte => byte.toBitVec.setWidth 32
  | n + 1 =>
    (gather b n).bind fun tmpLong => b[n + 1]?.map fun byte => tmpLong <<< 8 ||| byte.toBitVec.setWidth 32

def bitsOf (buf : List UInt8) (startbit bitlen : ℕ) : Option (BitVec 32) :=
  let rounds := (bitlen - 1) / 8
  let bitHigh := 8 + 8 * rounds
  (gather (buf.drop (startbit / 8)) rounds).bind fun tmpLong =>
    (shiftRight tmpLong (bitHigh - startbit % 8 - bitlen)).map fun tmpLong => tmpLong &&& BitVec.ofNat 32 (2 ^ bitlen - 1)

/-- The bits reach no further than the fewest bytes that so many bits need. -/
def WithinBytes (startbit bitlen : ℕ) : Prop := startbit % 8 + bitlen ≤ 8 * ((bitlen - 1) / 8 + 1)

instance (startbit bitlen : ℕ) : Decidable (WithinBytes startbit bitlen) := inferInstanceAs (Decidable (_ ≤ _))

/-! ### The bytes that are put together -/

theorem gather_bit {b : List UInt8} {n : ℕ} (hn : n < 4) (hb : n < b.length) :
    ∃ tmpLong, gather b n = some tmpLong ∧
      ∀ i < 8 * (n + 1), tmpLong.getLsbD i = (b.getD (n - i / 8) 0).toNat.testBit (i % 8) := by
  induction n with
  | zero =>
    refine ⟨_, by rw [gather, List.getElem?_eq_getElem hb]; rfl, fun i hi => ?_⟩
    have hdiv : i / 8 = 0 := Nat.div_eq_of_lt (by omega)
    rw [BitVec.getLsbD_setWidth, hdiv, Nat.mod_eq_of_lt (by omega : i < 8), List.getD_eq_getElem _ _ hb,
      decide_eq_true (by omega : i < 32), Bool.true_and]
    rfl
  | succ n ih =>
    obtain ⟨tmpLong, hgather, hbits⟩ := ih (by omega) (by omega)
    refine ⟨_, by rw [gather, hgather, List.getElem?_eq_getElem hb]; rfl, fun i hi => ?_⟩
    rw [BitVec.getLsbD_or, BitVec.getLsbD_shiftLeft, BitVec.getLsbD_setWidth, decide_eq_true (by omega : i < 32),
      Bool.true_and, Bool.true_and]
    by_cases hlow : i < 8
    · -- the byte of this round
      have hdiv : i / 8 = 0 := Nat.div_eq_of_lt hlow
      rw [decide_eq_true hlow, Bool.not_true, Bool.false_and, Bool.false_or, hdiv, Nat.mod_eq_of_lt hlow, Nat.sub_zero,
        List.getD_eq_getElem _ _ hb]
      rfl
    · -- the bytes of the rounds before
      have hhigh : b[n + 1].toBitVec.getLsbD i = false := BitVec.getLsbD_of_ge _ i (by omega)
      rw [decide_eq_false hlow, Bool.not_false, Bool.true_and, hhigh, Bool.or_false, hbits (i - 8) (by omega)]
      have hbyte : n - (i - 8) / 8 = n + 1 - i / 8 := by omega
      have hbit : (i - 8) % 8 = i % 8 := by omega
      rw [hbyte, hbit]

/-! ### What comes out -/

theorem bitsOf_none {buf : List UInt8} {startbit bitlen : ℕ} (h : ¬WithinBytes startbit bitlen) :
    bitsOf buf startbit bitlen = none := by
  unfold WithinBytes at h
  have hshift : ¬(0 ≤ (((8 + 8 * ((bitlen - 1) / 8) : ℕ) : ℤ) - (startbit % 8 : ℕ) - bitlen) ∧
      (((8 + 8 * ((bitlen - 1) / 8) : ℕ) : ℤ) - (startbit % 8 : ℕ) - bitlen) < 32) := by omega
  unfold bitsOf
  dsimp only
  cases gather (buf.drop (startbit / 8)) ((bitlen - 1) / 8) with
  | none => rfl
  | some tmpLong =>
    rw [Option.bind_some, shiftRight]
    push_cast at hshift ⊢
    rw [if_neg hshift]
    rfl

section Extraction

variable {buf : List UInt8} {startbit bitlen : ℕ} (hpos : 1 ≤ bitlen) (hlen : bitlen ≤ 32)
  (hin : startbit + bitlen ≤ 8 * buf.length)
include hpos hlen hin

theorem bitsOf_some (h : WithinBytes startbit bitlen) :
    bitsOf buf startbit bitlen = some (BitVec.ofNat 32 (value (bitsAt buf startbit bitlen))) := by
  unfold WithinBytes at h
  have hrounds : (bitlen - 1) / 8 < 4 := by omega
  have hbytes : (bitlen - 1) / 8 < (buf.drop (startbit / 8)).length := by
    rw [List.length_drop]
    omega
  obtain ⟨tmpLong, hgather, hbits⟩ := gather_bit hrounds hbytes
  have hshift : 0 ≤ (((8 + 8 * ((bitlen - 1) / 8) : ℕ) : ℤ) - (startbit % 8 : ℕ) - bitlen) ∧
      (((8 + 8 * ((bitlen - 1) / 8) : ℕ) : ℤ) - (startbit % 8 : ℕ) - bitlen) < 32 := by omega
  unfold bitsOf
  dsimp only
  rw [hgather, Option.bind_some, shiftRight]
  push_cast at hshift ⊢
  rw [if_pos hshift, Option.map_some]
  refine congrArg some (BitVec.eq_of_getLsbD_eq fun i hi => ?_)
  have hmask : (BitVec.ofNat 32 (2 ^ bitlen - 1)).getLsbD i = decide (i < bitlen) := by
    rw [BitVec.getLsbD_ofNat, decide_eq_true hi, Bool.true_and, Nat.testBit_two_pow_sub_one]
  have hvalue : (BitVec.ofNat 32 (value (bitsAt buf startbit bitlen))).getLsbD i =
      (decide (i < bitlen) && bitAt buf (startbit + (bitlen - 1 - i))) := by
    rw [BitVec.getLsbD_ofNat, decide_eq_true hi, Bool.true_and, testBit_value_bitsAt]
  rw [hvalue, BitVec.getLsbD_and, hmask, Bool.and_comm]
  by_cases hfield : i < bitlen
  · rw [decide_eq_true hfield, Bool.true_and, Bool.true_and, BitVec.getLsbD_ushiftRight, hbits _ (by omega)]
    -- counted from the front, the place of the bit
    unfold bitAt
    rw [List.getD_eq_getElem?_getD, List.getElem?_drop, ← List.getD_eq_getElem?_getD]
    congr 2
    · congr 1
      omega
    · omega
  · rw [decide_eq_false hfield, Bool.false_and, Bool.false_and]

theorem bitsOf_iff : bitsOf buf startbit bitlen = some (BitVec.ofNat 32 (value (bitsAt buf startbit bitlen))) ↔
    WithinBytes startbit bitlen := by
  refine ⟨fun h => ?_, bitsOf_some hpos hlen hin⟩
  by_contra hnot
  rw [bitsOf_none hnot] at h
  cases h

end Extraction

/-! ### The channel tables -/

theorem testBit_word (m : Dvbscan.Memory) (n i : ℕ) (hi : i < 8 * n) :
    (Dvbscan.Vct.word m n).testBit i = (m (n - 1 - i / 8)).toNat.testBit (i % 8) := by
  induction n generalizing i with
  | zero => omega
  | succ n ih =>
    have hbyte : (m n).toNat < 2 ^ 8 := (m n).toNat_lt
    rw [Dvbscan.Vct.word, Nat.mul_comm, show 256 = 2 ^ 8 from rfl, Nat.testBit_two_pow_mul_add _ hbyte]
    by_cases hlow : i < 8
    · have hdiv : i / 8 = 0 := Nat.div_eq_of_lt hlow
      rw [if_pos hlow, hdiv, Nat.mod_eq_of_lt hlow]
      rfl
    · rw [if_neg hlow, ih (i - 8) (by omega)]
      have hplace : n - 1 - (i - 8) / 8 = n + 1 - 1 - i / 8 := by omega
      have hbit : (i - 8) % 8 = i % 8 := by omega
      rw [hplace, hbit]

theorem getBits_vct {buf : List UInt8} {startbit bitlen : ℕ} (h : WithinBytes startbit bitlen)
    {m : Dvbscan.Memory} (hm : ∀ i, m i = buf.getD i 0) :
    Dvbscan.Vct.getBits m startbit bitlen = value (bitsAt buf startbit bitlen) := by
  unfold WithinBytes at h
  refine Nat.eq_of_testBit_eq fun i => ?_
  unfold Dvbscan.Vct.getBits
  dsimp only
  rw [Nat.testBit_mod_two_pow, Nat.testBit_div_two_pow, testBit_value_bitsAt]
  by_cases hfield : i < bitlen
  · rw [decide_eq_true hfield, Bool.true_and, Bool.true_and, testBit_word _ _ _ (by omega)]
    unfold bitAt
    show (m _).toNat.testBit _ = _
    rw [hm]
    congr 2
    · congr 1
      omega
    · omega
  · rw [decide_eq_false hfield, Bool.false_and, Bool.false_and]

end BgtDvb.Bits

namespace BgtDvb

open Bits BigEndianBits

/-! ### The two copies -/

/-- `getBits` of `section.c` -/
def Dvbscan.getBits (buf : List UInt8) (startbit bitlen : ℕ) : Option (BitVec 32) := bitsOf buf startbit bitlen

/-- `get_bits` of `atsc_epg.c` -/
def AtscEpg.getBits (buf : List UInt8) (startbit bitlen : ℕ) : Option (BitVec 32) := bitsOf buf startbit bitlen

/-- **Both copies** return the value of the bits exactly if these reach no further than the fewest bytes for so many. -/
theorem getBits_iff {buf : List UInt8} {startbit bitlen : ℕ} (hpos : 1 ≤ bitlen) (hlen : bitlen ≤ 32)
    (hin : startbit + bitlen ≤ 8 * buf.length) :
    (Dvbscan.getBits buf startbit bitlen = some (BitVec.ofNat 32 (value (bitsAt buf startbit bitlen))) ↔
      WithinBytes startbit bitlen) ∧
    (AtscEpg.getBits buf startbit bitlen = some (BitVec.ofNat 32 (value (bitsAt buf startbit bitlen))) ↔
      WithinBytes startbit bitlen) :=
  ⟨bitsOf_iff hpos hlen hin, bitsOf_iff hpos hlen hin⟩

/-- Ten bits of two bytes. -/
theorem getBits_ten :
    (1 ≤ 10 ∧ 10 ≤ 32 ∧ 4 + 10 ≤ 8 * [(0x12 : UInt8), 0x34].length) ∧
      (Dvbscan.getBits [0x12, 0x34] 4 10 = some (BitVec.ofNat 32 (value (bitsAt [0x12, 0x34] 4 10))) ↔
        WithinBytes 4 10) ∧
      (AtscEpg.getBits [0x12, 0x34] 4 10 = some (BitVec.ofNat 32 (value (bitsAt [0x12, 0x34] 4 10))) ↔
        WithinBytes 4 10) :=
  ⟨by decide, getBits_iff (by decide) (by decide) (by decide)⟩

/-- Eight bits in the middle of two bytes: nothing is defined, and their value is 0x23. -/
theorem not_getBits_straddling :
    Dvbscan.getBits [0x12, 0x34] 4 8 = none ∧ AtscEpg.getBits [0x12, 0x34] 4 8 = none ∧
      value (bitsAt [0x12, 0x34] 4 8) = 0x23 := by decide

end BgtDvb
