import BgtDvb.Lib.Recode
import BgtDvb.Lib.Words

/-!
# Packed decimal and durations

`lib/libucsi/dvb/types.c` converts between integers and packed decimal words, eight digits of four
bits each, and between seconds and the durations of EPG tables, which are two or three packed
decimal bytes.  Words are `UInt32` and bytes `UInt8`; a C `int` is an `ℤ` that its callers keep in
range.

* `toNat_integerToBcd`, `toNat_bcdToInteger` — **PROVED**: the loops put down the digits of a word in
  the other radix, and nothing overflows;
* `bcd_roundtrips` — **PROVED**: each pair of functions is inverse on the range it can represent.
-/

namespace BgtDvb.Ucsi.Bcd

open BgtDvb.Recode

/-! ### Words -/

/-- `val` and `intval` after so many passes of the loop of `integer_to_bcd`; pass `j` has `i` at
`4 * j`. -/
def integerToBcdPasses (intval : UInt32) : ℕ → UInt32 × UInt32
  | 0 => (0, intval)
  | j + 1 =>
    let s := integerToBcdPasses intval j
    (s.1 ||| ((s.2 % 10) <<< UInt32.ofNat (4 * j)), s.2 / 10)

/-- `integer_to_bcd` -/
def integerToBcd (intval : UInt32) : UInt32 := (integerToBcdPasses intval 8).1

/-- `val` after so many passes of the loop of `bcd_to_integer`; pass `j` has `i` at `28 - 4 * j`. -/
def bcdToIntegerPasses (bcdval : UInt32) : ℕ → UInt32
  | 0 => 0
  | j + 1 =>
    let i := 28 - 4 * j
    let val := bcdToIntegerPasses bcdval j + ((bcdval >>> UInt32.ofNat i) &&& 0x0f)
    if i ≠ 0 then val * 10 else val

/-- `bcd_to_integer` -/
def bcdToInteger (bcdval : UInt32) : UInt32 := bcdToIntegerPasses bcdval 8

theorem sixteen_pow (j : ℕ) : (16 : ℕ) ^ j = 2 ^ (4 * j) := (pow_mul 2 4 j).symm

/-- One pass of the loop of `integer_to_bcd` adds a digit at the top. -/
theorem integerToBcdPasses_spec (intval : UInt32) {j : ℕ} (hj : j ≤ 8) :
    (integerToBcdPasses intval j).1.toNat = recode 10 16 j intval.toNat ∧
      (integerToBcdPasses intval j).2.toNat = intval.toNat / 10 ^ j := by
  induction j with
  | zero => simp [integerToBcdPasses, recode]
  | succ j ih =>
    obtain ⟨hval, hint⟩ := ih (by omega)
    have hlow : recode 10 16 j intval.toNat < 16 ^ j :=
      recode_lt (fits_of_le (by decide) (by decide) j intval.toNat)
    have hpow : (16 : ℕ) ^ j = 2 ^ (4 * j) := sixteen_pow j
    have hdigit : intval.toNat / 10 ^ j % 10 < 10 := Nat.mod_lt _ (by decide)
    have hfit : intval.toNat / 10 ^ j % 10 * 2 ^ (4 * j) < 2 ^ 32 := by
      calc intval.toNat / 10 ^ j % 10 * 2 ^ (4 * j)
          < 16 * 2 ^ (4 * j) := Nat.mul_lt_mul_of_pos_right (by omega) (Nat.two_pow_pos _)
        _ = 2 ^ (4 + 4 * j) := (pow_add 2 4 (4 * j)).symm
        _ ≤ 2 ^ 32 := Nat.pow_le_pow_right (by decide) (by omega)
    have hamount : (UInt32.ofNat (4 * j)).toNat % 32 = 4 * j := by
      rw [UInt32.toNat_ofNat']
      omega
    constructor
    · show ((integerToBcdPasses intval j).1 |||
          (((integerToBcdPasses intval j).2 % 10) <<< UInt32.ofNat (4 * j))).toNat = _
      rw [UInt32.toNat_or, UInt32.toNat_shiftLeft, hamount, UInt32.toNat_mod, hval, hint,
        Nat.shiftLeft_eq]
      show recode 10 16 j intval.toNat ||| intval.toNat / 10 ^ j % 10 * 2 ^ (4 * j) % 2 ^ 32 = _
      rw [Nat.mod_eq_of_lt hfit, Nat.lor_comm,
        Words.or_eq_add (4 * j) (Dvd.intro_left _ rfl) (hpow ▸ hlow), recode_succ_top, hpow]
      ring
    · show ((integerToBcdPasses intval j).2 / 10).toNat = _
      rw [UInt32.toNat_div, hint, pow_succ]
      exact Nat.div_div_eq_div_mul _ _ _

theorem toNat_integerToBcd (intval : UInt32) :
    (integerToBcd intval).toNat = recode 10 16 8 intval.toNat :=
  (integerToBcdPasses_spec intval le_rfl).1

theorem toNat_nibble (bcdval : UInt32) {i : ℕ} (hi : i < 8) :
    ((bcdval >>> UInt32.ofNat (4 * i)) &&& 0x0f).toNat = bcdval.toNat / 16 ^ i % 16 := by
  have hamount : (UInt32.ofNat (4 * i)).toNat % 32 = 4 * i := by
    rw [UInt32.toNat_ofNat']
    omega
  rw [UInt32.toNat_and, UInt32.toNat_shiftRight, hamount, Nat.shiftRight_eq_div_pow,
    ← sixteen_pow]
  exact Nat.and_two_pow_sub_one_eq_mod _ 4

/-- Before the last pass of the loop of `bcd_to_integer`, `val` is ten times the number that the
nibbles so far stand for. -/
theorem bcdToIntegerPasses_spec (bcdval : UInt32) {j : ℕ} (hj : j ≤ 7) :
    (bcdToIntegerPasses bcdval j).toNat = 10 * recode 16 10 j (bcdval.toNat / 16 ^ (8 - j)) := by
  induction j with
  | zero => rfl
  | succ j ih =>
    have hprev := ih (by omega)
    have hnibble := toNat_nibble bcdval (show 7 - j < 8 by omega)
    have hi : 28 - 4 * j = 4 * (7 - j) := by omega
    have hdiv : bcdval.toNat / 16 ^ (7 - j) / 16 = bcdval.toNat / 16 ^ (8 - j) := by
      rw [Nat.div_div_eq_div_mul, ← pow_succ, show 7 - j + 1 = 8 - j by omega]
    have hsum : recode 16 10 (j + 1) (bcdval.toNat / 16 ^ (7 - j)) =
        bcdval.toNat / 16 ^ (7 - j) % 16 + 10 * recode 16 10 j (bcdval.toNat / 16 ^ (8 - j)) := by
      rw [recode_succ_bottom, hdiv]
    have hle := recode_le (show 10 ≤ 16 by decide) (j + 1) (bcdval.toNat / 16 ^ (7 - j))
    have htop : bcdval.toNat / 16 ^ (7 - j) ≤ bcdval.toNat / 16 :=
      Nat.div_le_div_left (Nat.le_self_pow (by omega) 16) (by decide)
    have hword := bcdval.toNat_lt
    show (if 28 - 4 * j ≠ 0 then
      (bcdToIntegerPasses bcdval j + ((bcdval >>> UInt32.ofNat (28 - 4 * j)) &&& 0x0f)) * 10 else _).toNat = _
    rw [if_pos (by omega), hi, UInt32.toNat_mul, UInt32.toNat_add, hprev, hnibble,
      show 8 - (j + 1) = 7 - j by omega]
    show (10 * recode 16 10 j (bcdval.toNat / 16 ^ (8 - j)) + bcdval.toNat / 16 ^ (7 - j) % 16) % 2 ^ 32 * 10 % 2 ^ 32 = _
    rw [Nat.add_comm (10 * _), ← hsum]
    omega

/-- **`bcd_to_integer`** reads the nibbles of a word as digits in radix ten, whatever they are. -/
theorem toNat_bcdToInteger (bcdval : UInt32) :
    (bcdToInteger bcdval).toNat = recode 16 10 8 bcdval.toNat := by
  have hseven := bcdToIntegerPasses_spec bcdval le_rfl
  have hnibble := toNat_nibble bcdval (show 0 < 8 by decide)
  have hsum := recode_succ_bottom 16 10 7 bcdval.toNat
  have hle := recode_le (show 10 ≤ 16 by decide) 8 bcdval.toNat
  have hword := bcdval.toNat_lt
  rw [show 8 - 7 = 1 by decide, pow_one] at hseven
  rw [pow_zero, Nat.div_one] at hnibble
  show (bcdToIntegerPasses bcdval 7 + ((bcdval >>> UInt32.ofNat (4 * 0)) &&& 0x0f)).toNat = _
  rw [UInt32.toNat_add, hseven, hnibble, Nat.add_comm, ← hsum]
  exact Nat.mod_eq_of_lt (lt_of_le_of_lt hle hword)

def Decimal (w : UInt32) : Prop := ∀ i < 8, ((w >>> UInt32.ofNat (4 * i)) &&& 0x0f) < 10

theorem Decimal.fits {w : UInt32} (h : Decimal w) : Fits 16 10 8 w.toNat := by
  intro i hi
  rw [← toNat_nibble w hi]
  exact UInt32.lt_iff_toNat_lt.mp (h i hi)

theorem bcdToInteger_integerToBcd {n : UInt32} (h : n < 100000000) :
    bcdToInteger (integerToBcd n) = n := by
  apply UInt32.toNat_inj.mp
  rw [toNat_bcdToInteger, toNat_integerToBcd,
    recode_recode (fits_of_le (by decide) (by decide) 8 n.toNat)]
  exact Nat.mod_eq_of_lt (UInt32.lt_iff_toNat_lt.mp h)

theorem integerToBcd_bcdToInteger {w : UInt32} (h : Decimal w) :
    integerToBcd (bcdToInteger w) = w := by
  apply UInt32.toNat_inj.mp
  rw [toNat_integerToBcd, toNat_bcdToInteger, recode_recode h.fits]
  exact Nat.mod_eq_of_lt w.toNat_lt

/-! ### Durations -/

/-- `dvbduration_t`, three packed decimal bytes. -/
structure Dvbduration where
  hours : UInt8
  mins : UInt8
  secs : UInt8
deriving DecidableEq

/-- `dvbhhmm_t`, two packed decimal bytes. -/
structure Dvbhhmm where
  hours : UInt8
  mins : UInt8
deriving DecidableEq

/-- `integer_to_bcd` of an `int`, stored in a byte. -/
def bcdByte (n : ℤ) : UInt8 := (integerToBcd (UInt32.ofInt n)).toUInt8

/-- `bcd_to_integer` of a byte. -/
def byteBcd (b : UInt8) : UInt32 := bcdToInteger b.toUInt32

/-- An unsigned sum that is stored in an `int` comes back as the number it is modulo `2 ^ 32`. -/
def toInt (x : UInt32) : ℤ := x.toBitVec.toInt

/-- `dvbduration_to_seconds`; `seconds += x` is an unsigned addition, as `x` is unsigned. -/
def dvbdurationToSeconds (d : Dvbduration) : ℤ :=
  toInt (0 + byteBcd d.hours * 60 * 60 + byteBcd d.mins * 60 + byteBcd d.secs)

/-- `seconds_to_dvbduration` -/
def secondsToDvbduration (seconds : ℤ) : Dvbduration :=
  let hours := seconds.tdiv (60 * 60)
  let seconds := seconds - hours * 60 * 60
  let mins := seconds.tdiv 60
  let seconds := seconds - mins * 60
  ⟨bcdByte hours, bcdByte mins, bcdByte seconds⟩

/-- `dvbhhmm_to_seconds` -/
def dvbhhmmToSeconds (d : Dvbhhmm) : ℤ :=
  toInt (0 + byteBcd d.hours * 60 * 60 + byteBcd d.mins * 60)

/-- `seconds_to_dvbhhmm` -/
def secondsToDvbhhmm (seconds : ℤ) : Dvbhhmm :=
  let hours := seconds.tdiv (60 * 60)
  let seconds := seconds - hours * 60 * 60
  let mins := seconds.tdiv 60
  ⟨bcdByte hours, bcdByte mins⟩

theorem toNat_byteBcd_bcdByte {n : ℤ} (h0 : 0 ≤ n) (hn : n < 100) :
    ((byteBcd (bcdByte n)).toNat : ℤ) = n := by
  obtain ⟨m, rfl⟩ := Int.eq_ofNat_of_zero_le h0
  have hm : m < 100 := by exact_mod_cast hn
  have hword : (UInt32.ofInt (m : ℤ)).toNat = m := by
    rw [UInt32.ofInt]
    simp
    omega
  have hrec : recode 10 16 8 m = m % 10 + 16 * (m / 10) := by
    have htens : m / 10 % 10 = m / 10 := Nat.mod_eq_of_lt (by omega)
    have hzero : m / 10 / 10 = 0 := by omega
    simp only [recode_succ_bottom, recode_zero, htens, hzero, Nat.zero_div, Nat.zero_mod]
    omega
  have hbyte : (bcdByte m).toUInt32 = integerToBcd (UInt32.ofInt m) := by
    apply UInt32.toNat_inj.mp
    rw [bcdByte, UInt8.toNat_toUInt32, UInt32.toNat_toUInt8, toNat_integerToBcd, hword, hrec]
    omega
  have hlt : UInt32.ofInt (m : ℤ) < 100000000 := by
    apply UInt32.lt_iff_toNat_lt.mpr
    rw [hword]
    exact lt_of_lt_of_le hm (by decide)
  rw [byteBcd, hbyte, bcdToInteger_integerToBcd hlt, hword]

theorem toInt_of_lt {x : UInt32} (h : x.toNat < 2 ^ 31) : toInt x = x.toNat := by
  exact BitVec.toInt_eq_toNat_of_lt (by show 2 * x.toNat < 2 ^ 32; omega)

theorem toInt_parts {h m s : ℤ} (hh : 0 ≤ h ∧ h < 100) (hm : 0 ≤ m ∧ m < 100) (hs : 0 ≤ s ∧ s < 100) :
    toInt (0 + byteBcd (bcdByte h) * 60 * 60 + byteBcd (bcdByte m) * 60 + byteBcd (bcdByte s)) =
      h * 3600 + m * 60 + s := by
  have hhb := toNat_byteBcd_bcdByte hh.1 hh.2
  have hmb := toNat_byteBcd_bcdByte hm.1 hm.2
  have hsb := toNat_byteBcd_bcdByte hs.1 hs.2
  have hsixty : (60 : UInt32).toNat = 60 := by decide
  have hzero : (0 : UInt32).toNat = 0 := by decide
  have hsum : (0 + byteBcd (bcdByte h) * 60 * 60 + byteBcd (bcdByte m) * 60 + byteBcd (bcdByte s)).toNat =
      (byteBcd (bcdByte h)).toNat * 3600 + (byteBcd (bcdByte m)).toNat * 60 + (byteBcd (bcdByte s)).toNat := by
    simp only [UInt32.toNat_add, UInt32.toNat_mul, hsixty, hzero]
    omega
  rw [toInt_of_lt (by omega), hsum]
  push_cast
  omega

theorem dvbdurationToSeconds_secondsToDvbduration {s : ℤ} (h0 : 0 ≤ s) (hs : s < 360000) :
    dvbdurationToSeconds (secondsToDvbduration s) = s := by
  have hhours : s.tdiv (60 * 60) = s / 3600 := Int.tdiv_eq_ediv_of_nonneg h0
  have hmins : (s - s / 3600 * 60 * 60).tdiv 60 = s % 3600 / 60 := by
    rw [Int.tdiv_eq_ediv_of_nonneg (by omega)]
    omega
  show toInt (0 + byteBcd (bcdByte (s.tdiv (60 * 60))) * 60 * 60 +
    byteBcd (bcdByte ((s - s.tdiv (60 * 60) * 60 * 60).tdiv 60)) * 60 +
    byteBcd (bcdByte (s - s.tdiv (60 * 60) * 60 * 60 - (s - s.tdiv (60 * 60) * 60 * 60).tdiv 60 * 60))) = s
  rw [hhours, hmins, toInt_parts (by omega) (by omega) (by omega)]
  omega

theorem dvbhhmmToSeconds_secondsToDvbhhmm {s : ℤ} (h0 : 0 ≤ s) (hs : s < 360000) (hmul : 60 ∣ s) :
    dvbhhmmToSeconds (secondsToDvbhhmm s) = s := by
  have hduration := dvbdurationToSeconds_secondsToDvbduration h0 hs
  have hsecs : (secondsToDvbduration s).secs = bcdByte 0 := by
    have hzero : s - s.tdiv (60 * 60) * 60 * 60 - (s - s.tdiv (60 * 60) * 60 * 60).tdiv 60 * 60 = 0 := by
      rw [Int.tdiv_eq_ediv_of_nonneg h0, Int.tdiv_eq_ediv_of_nonneg (by omega)]
      omega
    show bcdByte _ = bcdByte 0
    rw [hzero]
  have hnone : byteBcd (bcdByte 0) = 0 := by decide
  rw [dvbdurationToSeconds, hsecs, hnone, add_zero] at hduration
  exact hduration

/-- **The conversions are inverse** to each other: words of eight digits, durations below a hundred
hours, and those of full minutes without their seconds. -/
theorem bcd_roundtrips :
    (∀ n : UInt32, n < 100000000 → bcdToInteger (integerToBcd n) = n) ∧
      (∀ w : UInt32, Decimal w → integerToBcd (bcdToInteger w) = w) ∧
      (∀ s : ℤ, 0 ≤ s → s < 360000 → dvbdurationToSeconds (secondsToDvbduration s) = s) ∧
      (∀ s : ℤ, 0 ≤ s → s < 360000 → 60 ∣ s → dvbhhmmToSeconds (secondsToDvbhhmm s) = s) :=
  ⟨fun _ => bcdToInteger_integerToBcd, fun _ => integerToBcd_bcdToInteger,
    fun _ => dvbdurationToSeconds_secondsToDvbduration, fun _ => dvbhhmmToSeconds_secondsToDvbhhmm⟩

theorem bcd_roundtrips_witness :
    bcdToInteger (integerToBcd 20380422) = 20380422 ∧
      integerToBcd (bcdToInteger 0x99990000) = 0x99990000 ∧
      dvbdurationToSeconds (secondsToDvbduration 359999) = 359999 ∧
      dvbhhmmToSeconds (secondsToDvbhhmm 359940) = 359940 :=
  ⟨bcd_roundtrips.1 _ (by decide), bcd_roundtrips.2.1 _ (by intro i hi; interval_cases i <;> decide),
    bcd_roundtrips.2.2.1 _ (by decide) (by decide), bcd_roundtrips.2.2.2 _ (by decide) (by decide) (by decide)⟩

end BgtDvb.Ucsi.Bcd
