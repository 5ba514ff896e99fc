import BgtDvb.AlevtVtLine
import BgtDvb.Lib.BitForms

/-!
# What Hamming codes correct in teletext packets

The codes as they are sent, and what the decoder of alevt says of them after bit errors; then what the sum of its
error marks says of whole packets.

* `hamm24_eq` — **PROVED**: the tables of the decoder are linear maps over the bits of the word;
* `hamm24_flip`, `hamm24_flips` — **PROVED**: one wrong bit is corrected, two are found;
* `uncorrectable_sum` — **PROVED**: what the sum of up to 16 marks says;
* `rejected_iff` — **PROVED**: a packet is rejected exactly if a word is lost or all 16 of a packet 26 are corrected.
-/

namespace BgtDvb.Alevt

open BitForms

/-! ### Words of 24 bits -/

/-- What the bits count for in the checks: bit `i` for those in the binary digits of `i + 1` and for the parity of the
whole word, the last bit for that parity only. -/
def checkColumns : List ℕ := (List.range 23).map (33 + ·) ++ [32]

def checks (w : ℕ) : ℕ := xorSum checkColumns w

/-- The places of the data bits, between the protection bits at 0, 1, 3, 7, 15 and 23. -/
def dataPlaces : List ℕ := [2, 4, 5, 6, 8, 9, 10, 11, 12, 13, 14, 16, 17, 18, 19, 20, 21, 22]

def spread (n : ℕ) : ℕ := xorSum (dataPlaces.map fun i => 2 ^ i) n

def protect (s : ℕ) : ℕ :=
  xorSum [2 ^ 0 ^^^ 2 ^ 23, 2 ^ 1 ^^^ 2 ^ 23, 2 ^ 3 ^^^ 2 ^ 23, 2 ^ 7 ^^^ 2 ^ 23, 2 ^ 15 ^^^ 2 ^ 23, 2 ^ 23] s

/-- The Hamming 24/18 code of a number: its data bits, and protection bits that make all checks odd. -/
def hammEncode24 (n : ℕ) : ℕ := spread n ^^^ protect (63 ^^^ checks (spread n))

def dataColumns : List ℕ := (List.range 24).map fun i => if i ∈ dataPlaces then 2 ^ dataPlaces.idxOf i else 0

def dataOf (w : ℕ) : ℕ := xorSum dataColumns w

/-- `hamm24` for a word. -/
def hamm24Word (w err : ℕ) : ℕ × ℕ := hamm24 (UInt8.ofNat w) (UInt8.ofNat (w / 256)) (UInt8.ofNat (w / 65536)) err

section Word

set_option maxRecDepth 4000 in
theorem hamm24Par0_eq : hamm24Par0 = (List.range 256).map (xorSum (checkColumns.take 8)) := by decide

set_option maxRecDepth 4000 in
theorem hamm24Par1_eq : hamm24Par1 = (List.range 256).map (xorSum ((checkColumns.drop 8).take 8)) := by decide

set_option maxRecDepth 4000 in
theorem hamm24Par2_eq : hamm24Par2 = (List.range 256).map fun d => 63 ^^^ xorSum (checkColumns.drop 16) d := by decide

set_option maxRecDepth 4000 in
theorem hamm24Val_eq : hamm24Val = (List.range 256).map (xorSum (dataColumns.take 8)) := by decide

theorem getD_table {f : ℕ → ℕ} {b : ℕ} (hb : b < 256) : ((List.range 256).map f).getD b 0 = f b := by
  have hlt : b < ((List.range 256).map f).length := by simpa using hb
  rw [List.getD_eq_getElem _ _ hlt, List.getElem_map, List.getElem_range]

theorem xorSum_byte {cols : List ℕ} (hlen : cols.length = 8) (w : ℕ) : xorSum cols (w % 256) = xorSum cols w := by
  have hmod := xorSum_mod cols w
  rw [hlen] at hmod
  exact hmod

theorem xorSum_bytes {cols : List ℕ} (hlen : cols.length = 24) (w : ℕ) : xorSum cols w =
    xorSum (cols.take 8) w ^^^ xorSum ((cols.drop 8).take 8) (w / 256) ^^^ xorSum (cols.drop 16) (w / 65536) := by
  have hsplit : cols = cols.take 8 ++ ((cols.drop 8).take 8 ++ cols.drop 16) := by
    have hdrop : cols.drop 16 = (cols.drop 8).drop 8 := by rw [List.drop_drop]
    rw [hdrop, List.take_append_drop, List.take_append_drop]
  have hfirst : (cols.take 8).length = 8 := by rw [List.length_take]; omega
  have hsecond : ((cols.drop 8).take 8).length = 8 := by rw [List.length_take, List.length_drop]; omega
  conv_lhs => rw [hsplit]
  rw [xorSum_append, xorSum_append, hfirst, hsecond, Nat.div_div_eq_div_mul, Nat.xor_assoc]
  rfl

set_option maxRecDepth 4000 in
theorem dataColumns_second : (List.range 256).map (xorSum ((dataColumns.drop 8).take 8)) =
    (List.range 256).map fun c => 2 ^ 4 * (c % 128) := by decide

set_option maxRecDepth 4000 in
theorem dataColumns_third : (List.range 256).map (xorSum (dataColumns.drop 16)) =
    (List.range 256).map fun d => 2 ^ 11 * (d % 128) := by decide

variable {w n : ℕ}

theorem hamm24_eq (hw : w < 2 ^ 24) (err : ℕ) : hamm24Word w err =
    (dataOf w ^^^ hamm24Cor.getD (63 ^^^ checks w) 0, err + hamm24Err.getD (63 ^^^ checks w) 0) := by
  have hb : (UInt8.ofNat w).toNat = w % 256 := UInt8.toNat_ofNat'
  have hc : (UInt8.ofNat (w / 256)).toNat = w / 256 % 256 := UInt8.toNat_ofNat'
  have hd : (UInt8.ofNat (w / 65536)).toNat = w / 65536 % 256 := UInt8.toNat_ofNat'
  have hd' : w / 65536 % 256 = w / 65536 := Nat.mod_eq_of_lt (by omega)
  have hlt : ∀ x : ℕ, x % 256 < 256 := fun x => Nat.mod_lt x (by decide)
  have hpar : hamm24Par0.getD (w % 256) 0 ^^^ hamm24Par1.getD (w / 256 % 256) 0 ^^^
      hamm24Par2.getD (w / 65536 % 256) 0 = 63 ^^^ checks w := by
    have hsum : checks w = _ := @xorSum_bytes checkColumns (by decide) w
    rw [hamm24Par0_eq, hamm24Par1_eq, hamm24Par2_eq, getD_table (hlt _), getD_table (hlt _), getD_table (hlt _),
      xorSum_byte (by decide), xorSum_byte (by decide), hd', hsum]
    ac_rfl
  have hdata : hamm24Val.getD (w % 256) 0 + w / 256 % 256 % 128 * 16 + w / 65536 % 256 % 128 * 2048 = dataOf w := by
    have hsecond : xorSum ((dataColumns.drop 8).take 8) (w / 256 % 256) = 2 ^ 4 * (w / 256 % 256 % 128) := by
      have htable := congrArg (fun l : List ℕ => l.getD (w / 256 % 256) 0) dataColumns_second
      beta_reduce at htable
      rw [getD_table (hlt _), getD_table (hlt _)] at htable
      exact htable
    have hthird : xorSum (dataColumns.drop 16) (w / 65536 % 256) = 2 ^ 11 * (w / 65536 % 256 % 128) := by
      have htable := congrArg (fun l : List ℕ => l.getD (w / 65536 % 256) 0) dataColumns_third
      beta_reduce at htable
      rw [getD_table (hlt _), getD_table (hlt _)] at htable
      exact htable
    have hfirst : xorSum (dataColumns.take 8) w < 2 ^ 4 := xorSum_lt (by decide) w
    have hlow : xorSum (dataColumns.take 8) w + 2 ^ 4 * (w / 256 % 256 % 128) < 2 ^ 11 := by omega
    have hsum : dataOf w = _ := @xorSum_bytes dataColumns (by decide) w
    have hmid : xorSum ((dataColumns.drop 8).take 8) (w / 256) = 2 ^ 4 * (w / 256 % 256 % 128) :=
      (xorSum_byte (by decide) _).symm.trans hsecond
    have hhigh : xorSum (dataColumns.drop 16) (w / 65536) = 2 ^ 11 * (w / 65536 % 256 % 128) := by
      rw [hd'] at hthird ⊢
      exact hthird
    rw [hamm24Val_eq, getD_table (hlt _), xorSum_byte (by decide), hsum, hmid, hhigh, low_xor_high hfirst,
      low_xor_high hlow]
    omega
  unfold hamm24Word hamm24
  dsimp only
  rw [hb, hc, hd, hpar, hdata]

/-! ### Code words -/

theorem checks_lt (w : ℕ) : checks w < 64 := xorSum_lt (n := 6) (by decide) w

theorem checks_protect : ∀ s < 64, checks (protect s) = s := by decide

theorem dataOf_protect : ∀ s < 64, dataOf (protect s) = 0 := by decide

theorem xor_lt_64 {s : ℕ} (hs : s < 64) : 63 ^^^ s < 64 := Nat.xor_lt_two_pow (n := 6) (by decide) hs

theorem dataOf_spread (hn : n < 2 ^ 18) : dataOf (spread n) = n := by
  have hcols : (dataPlaces.map fun i => 2 ^ i).map dataOf = units 18 := by decide
  unfold spread
  show xorSum dataColumns (xorSum _ n) = n
  rw [xorSum_comp]
  show xorSum ((dataPlaces.map fun i => 2 ^ i).map dataOf) n = n
  rw [hcols, xorSum_units hn]

theorem hammEncode24_lt (n : ℕ) : hammEncode24 n < 2 ^ 24 :=
  Nat.xor_lt_two_pow (xorSum_lt (by decide) n) (xorSum_lt (by decide) _)

theorem checks_encode (n : ℕ) : checks (hammEncode24 n) = 63 := by
  have hs := xor_lt_64 (checks_lt (spread n))
  unfold hammEncode24
  have hlin : ∀ v w, checks (v ^^^ w) = checks v ^^^ checks w := xorSum_xor checkColumns
  rw [hlin, checks_protect _ hs]
  calc checks (spread n) ^^^ (63 ^^^ checks (spread n)) = 63 ^^^ (checks (spread n) ^^^ checks (spread n)) := by ac_rfl
    _ = 63 := by rw [Nat.xor_self, Nat.xor_zero]

theorem dataOf_encode (hn : n < 2 ^ 18) : dataOf (hammEncode24 n) = n := by
  have hs := xor_lt_64 (checks_lt (spread n))
  have hlin : ∀ v w, dataOf (v ^^^ w) = dataOf v ^^^ dataOf w := xorSum_xor dataColumns
  unfold hammEncode24
  rw [hlin, dataOf_protect _ hs, dataOf_spread hn, Nat.xor_zero]

theorem word_eq (hw : w < 2 ^ 24) : w = spread (dataOf w) ^^^ protect (checks w ^^^ checks (spread (dataOf w))) := by
  have hcols : List.zipWith (· ^^^ ·) (dataColumns.map spread)
      ((List.zipWith (· ^^^ ·) checkColumns ((dataColumns.map spread).map checks)).map protect) = units 24 := by decide
  have hspread : spread (dataOf w) = xorSum (dataColumns.map spread) w := xorSum_comp _ _ _
  have hchecks : checks (spread (dataOf w)) = xorSum ((dataColumns.map spread).map checks) w := by
    rw [hspread]
    exact xorSum_comp _ _ _
  have hprotect : protect (checks w ^^^ checks (spread (dataOf w))) =
      xorSum ((List.zipWith (· ^^^ ·) checkColumns ((dataColumns.map spread).map checks)).map protect) w := by
    rw [hchecks]
    show protect (xorSum checkColumns w ^^^ _) = _
    rw [xorSum_zip _ _ (by decide)]
    exact xorSum_comp _ _ _
  rw [hprotect, hspread, xorSum_zip _ _ (by decide), hcols, xorSum_units hw]

theorem encode_of_checks (hw : w < 2 ^ 24) (h : checks w = 63) : w = hammEncode24 (dataOf w) := by
  have hparts := word_eq hw
  rw [h] at hparts
  exact hparts

theorem dataOf_lt (w : ℕ) : dataOf w < 2 ^ 18 := xorSum_lt (by decide) w

/-! ### Wrong bits -/

theorem flip_tables : ∀ i < 24, checks (2 ^ i) < 64 ∧ hamm24Err.getD (checks (2 ^ i)) 0 = 0x100 ∧
    hamm24Cor.getD (checks (2 ^ i)) 0 = dataOf (2 ^ i) := by decide

theorem flips_tables : ∀ i < 24, ∀ j < 24, i ≠ j → hamm24Err.getD (checks (2 ^ i) ^^^ checks (2 ^ j)) 0 = 0x1000 := by
  decide

theorem checks_flip (n i : ℕ) : 63 ^^^ checks (hammEncode24 n ^^^ 2 ^ i) = checks (2 ^ i) := by
  have hlin : ∀ v w, checks (v ^^^ w) = checks v ^^^ checks w := xorSum_xor checkColumns
  rw [hlin, checks_encode, ← Nat.xor_assoc, Nat.xor_self, Nat.zero_xor]

theorem hamm24_flip {i : ℕ} (hn : n < 2 ^ 18) (hi : i < 24) (err : ℕ) :
    hamm24Word (hammEncode24 n ^^^ 2 ^ i) err = (n, err + 0x100) := by
  obtain ⟨-, herr, hcor⟩ := flip_tables i hi
  have hlt : hammEncode24 n ^^^ 2 ^ i < 2 ^ 24 :=
    Nat.xor_lt_two_pow (hammEncode24_lt n) (Nat.pow_lt_pow_right (by decide) hi)
  have hlin : ∀ v w, dataOf (v ^^^ w) = dataOf v ^^^ dataOf w := xorSum_xor dataColumns
  rw [hamm24_eq hlt, checks_flip, herr, hcor, hlin, dataOf_encode hn, Nat.xor_assoc, Nat.xor_self, Nat.xor_zero]

theorem hamm24_flips {i j : ℕ} (hi : i < 24) (hj : j < 24) (hne : i ≠ j) (err : ℕ) :
    (hamm24Word (hammEncode24 n ^^^ 2 ^ i ^^^ 2 ^ j) err).2 = err + 0x1000 := by
  have hlt : hammEncode24 n ^^^ 2 ^ i ^^^ 2 ^ j < 2 ^ 24 :=
    Nat.xor_lt_two_pow (Nat.xor_lt_two_pow (hammEncode24_lt n) (Nat.pow_lt_pow_right (by decide) hi))
      (Nat.pow_lt_pow_right (by decide) hj)
  have hlin : ∀ v w, checks (v ^^^ w) = checks v ^^^ checks w := xorSum_xor checkColumns
  rw [hamm24_eq hlt, hlin, ← Nat.xor_assoc, checks_flip, flips_tables i hi j hj hne]

end Word

/-! ### Words that are lost -/

def OneWrong8 (b : UInt8) : Prop := ∃ d < 16, ∃ i < 8, b = hammEncode d ^^^ UInt8.ofNat (2 ^ i)

instance (b : UInt8) : Decidable (OneWrong8 b) := inferInstanceAs (Decidable (∃ d < 16, ∃ i < 8, _))

/-- A byte that differs from every code word in two bits or more. -/
def Lost8 (b : UInt8) : Prop := ∀ d < 16, b ≠ hammEncode d ∧ ∀ i < 8, b ≠ hammEncode d ^^^ UInt8.ofNat (2 ^ i)

instance (b : UInt8) : Decidable (Lost8 b) := inferInstanceAs (Decidable (∀ d < 16, _ ∧ ∀ i < 8, _))

def OneWrong24 (w : ℕ) : Prop := ∃ n < 2 ^ 18, ∃ i < 24, w = hammEncode24 n ^^^ 2 ^ i

/-- A word that differs from every code word in two bits or more. -/
def Lost24 (w : ℕ) : Prop := ∀ n < 2 ^ 18, w ≠ hammEncode24 n ∧ ∀ i < 24, w ≠ hammEncode24 n ^^^ 2 ^ i

/-- What a word may add to the errors: up to 15, with a single-error mark, or with an uncorrectable mark. -/
def IsMark (m : ℕ) : Prop := m ≤ 15 ∨ 0x100 ≤ m ∧ m ≤ 0x10f ∨ 0x1000 ≤ m ∧ m ≤ 0x100f

instance (m : ℕ) : Decidable (IsMark m) := inferInstanceAs (Decidable (_ ∨ _ ∧ _ ∨ _ ∧ _))

section Lost

theorem hammtab_table : ∀ b : BitVec 8, IsMark (hammtab ⟨b⟩) ∧ (Lost8 ⟨b⟩ ↔ 0x1000 ≤ hammtab ⟨b⟩) ∧
    (OneWrong8 ⟨b⟩ ↔ 0x100 ≤ hammtab ⟨b⟩ ∧ hammtab ⟨b⟩ < 0x1000) := by decide +kernel

theorem hammtab_mark (b : UInt8) : IsMark (hammtab b) := (hammtab_table b.toBitVec).1

theorem lost8_iff (b : UInt8) : Lost8 b ↔ 0x1000 ≤ hammtab b := (hammtab_table b.toBitVec).2.1

theorem oneWrong8_iff (b : UInt8) : OneWrong8 b ↔ 0x100 ≤ hammtab b ∧ hammtab b < 0x1000 :=
  (hammtab_table b.toBitVec).2.2

/-- What `hamm24` adds to the errors. -/
def mark24 (w : ℕ) : ℕ := hamm24Err.getD (63 ^^^ checks w) 0

theorem err_table : ∀ e < 64, hamm24Err.getD e 0 = 0 ∧ e = 0 ∨
    hamm24Err.getD e 0 = 0x100 ∧ (∃ i < 24, e = checks (2 ^ i)) ∨ hamm24Err.getD e 0 = 0x1000 := by decide

theorem xor_cancel_left {a b c : ℕ} (h : a ^^^ b = c) : b = a ^^^ c := by
  rw [← h, ← Nat.xor_assoc, Nat.xor_self, Nat.zero_xor]

variable {w : ℕ}

/-- **The mark of a word** says how far from the code words it is. -/
theorem mark24_cases (hw : w < 2 ^ 24) : mark24 w = 0 ∧ (∃ n < 2 ^ 18, w = hammEncode24 n) ∨
    mark24 w = 0x100 ∧ OneWrong24 w ∨ mark24 w = 0x1000 := by
  rcases err_table _ (xor_lt_64 (checks_lt w)) with ⟨herr, hzero⟩ | ⟨herr, i, hi, hbit⟩ | herr
  · left
    refine ⟨herr, dataOf w, dataOf_lt w, encode_of_checks hw ?_⟩
    rw [xor_cancel_left hzero, Nat.xor_zero]
  · right
    left
    -- with the bit turned the checks are odd
    have hflip : w ^^^ 2 ^ i < 2 ^ 24 := Nat.xor_lt_two_pow hw (Nat.pow_lt_pow_right (by decide) hi)
    have hlin : checks (w ^^^ 2 ^ i) = checks w ^^^ checks (2 ^ i) := xorSum_xor checkColumns w (2 ^ i)
    have hodd : checks (w ^^^ 2 ^ i) = 63 := by
      rw [hlin, ← hbit]
      calc checks w ^^^ (63 ^^^ checks w) = 63 ^^^ (checks w ^^^ checks w) := by ac_rfl
        _ = 63 := by rw [Nat.xor_self, Nat.xor_zero]
    refine ⟨herr, dataOf (w ^^^ 2 ^ i), dataOf_lt _, i, hi, ?_⟩
    rw [← encode_of_checks hflip hodd, Nat.xor_assoc, Nat.xor_self, Nat.xor_zero]
  · right
    right
    exact herr

theorem mark24_encode (n : ℕ) : mark24 (hammEncode24 n) = 0 := by
  unfold mark24
  rw [checks_encode]
  rfl

theorem mark24_oneWrong (h : OneWrong24 w) : mark24 w = 0x100 := by
  obtain ⟨n, -, i, hi, rfl⟩ := h
  unfold mark24
  rw [checks_flip]
  exact (flip_tables i hi).2.1

theorem mark24_isMark (hw : w < 2 ^ 24) : IsMark (mark24 w) := by
  rcases mark24_cases hw with ⟨h, -⟩ | ⟨h, -⟩ | h
  · rw [h]
    decide
  · rw [h]
    decide
  · rw [h]
    decide

theorem lost24_iff (hw : w < 2 ^ 24) : Lost24 w ↔ 0x1000 ≤ mark24 w := by
  constructor
  · intro hlost
    rcases mark24_cases hw with ⟨-, n, hn, hcode⟩ | ⟨-, n, hn, i, hi, hflip⟩ | h
    · exact absurd hcode (hlost n hn).1
    · exact absurd hflip ((hlost n hn).2 i hi)
    · exact h.ge
  · intro hle n hn
    constructor
    · intro hcode
      rw [hcode, mark24_encode] at hle
      exact absurd hle (by decide)
    · intro i hi hflip
      rw [mark24_oneWrong ⟨n, hn, i, hi, hflip⟩] at hle
      exact absurd hle (by decide)

theorem oneWrong24_iff (hw : w < 2 ^ 24) : OneWrong24 w ↔ 0x100 ≤ mark24 w ∧ mark24 w < 0x1000 := by
  constructor
  · intro h
    rw [mark24_oneWrong h]
    decide
  · intro h
    rcases mark24_cases hw with ⟨hmark, -⟩ | ⟨-, hone⟩ | hmark
    · rw [hmark] at h
      exact absurd h (by decide)
    · exact hone
    · rw [hmark] at h
      exact absurd h (by decide)

end Lost

/-! ### Sums of marks -/

section Sums

theorem sum_marks {ms : List ℕ} (hms : ∀ m ∈ ms, IsMark m) :
    ∃ low single double, ms.sum = low + 0x100 * single + 0x1000 * double ∧ low ≤ 15 * ms.length ∧
      single + double ≤ ms.length ∧ (0 < double ↔ ∃ m ∈ ms, 0x1000 ≤ m) ∧
      (double = ms.length ↔ ∀ m ∈ ms, 0x1000 ≤ m) ∧ (single = ms.length ↔ ∀ m ∈ ms, 0x100 ≤ m ∧ m < 0x1000) := by
  induction ms with
  | nil => exact ⟨0, 0, 0, rfl, le_rfl, le_rfl, by simp, by simp, by simp⟩
  | cons m ms ih =>
    obtain ⟨low, single, double, hsum, hlow, hcount, hsome, hall, hsingle⟩ :=
      ih fun n hn => hms n (List.mem_cons_of_mem m hn)
    rw [List.sum_cons, List.length_cons, List.exists_mem_cons_iff, List.forall_mem_cons, List.forall_mem_cons,
      ← hsome, ← hall, ← hsingle]
    rcases hms m List.mem_cons_self with hm | hm | hm
    · exact ⟨low + m, single, double, by omega, by omega, by omega, by omega, by omega, by omega⟩
    · exact ⟨low + (m - 0x100), single + 1, double, by omega, by omega, by omega, by omega, by omega, by omega⟩
    · exact ⟨low + (m - 0x1000), single, double + 1, by omega, by omega, by omega, by omega, by omega, by omega⟩

theorem uncorrectable_div (err : ℕ) : uncorrectable err = true ↔ err / 0x1000 % 16 ≠ 0 := by
  have hmask : err &&& 0xf000 = 2 ^ 12 * (err / 2 ^ 12 % 2 ^ 4) := by
    apply Nat.eq_of_testBit_eq
    intro i
    have hbits : Nat.testBit 0xf000 i = (decide (12 ≤ i) && decide (i - 12 < 4)) := by
      by_cases hi : i < 16
      · revert i
        decide
      · have hpow : 0xf000 < 2 ^ i := Nat.lt_of_lt_of_le (by decide : 0xf000 < 2 ^ 16)
          (Nat.pow_le_pow_right (by decide) (not_lt.mp hi))
        rw [Nat.testBit_lt_two_pow hpow, decide_eq_false (by omega : ¬i - 12 < 4), Bool.and_false]
    rw [Nat.testBit_and, hbits, Nat.testBit_two_pow_mul, Nat.testBit_mod_two_pow, Nat.testBit_div_two_pow]
    by_cases hi : 12 ≤ i
    · have hback : i - 12 + 12 = i := Nat.sub_add_cancel hi
      rw [decide_eq_true hi, hback, Bool.true_and, Bool.true_and, Bool.and_comm]
    · rw [decide_eq_false hi, Bool.false_and, Bool.false_and, Bool.and_false]
  unfold uncorrectable
  rw [hmask, decide_eq_true_iff]
  omega

/-- **What the sum of up to 16 marks says**: there is an uncorrectable one, or there are 16 single ones, unless all are
uncorrectable. -/
theorem uncorrectable_sum {ms : List ℕ} (hms : ∀ m ∈ ms, IsMark m) (hlen : ms.length ≤ 16)
    (hsome : ms.length = 16 → ∃ m ∈ ms, m < 0x1000) : uncorrectable ms.sum = true ↔
      (∃ m ∈ ms, 0x1000 ≤ m) ∨ ms.length = 16 ∧ ∀ m ∈ ms, 0x100 ≤ m ∧ m < 0x1000 := by
  obtain ⟨low, single, double, hsum, hlow, hcount, hdouble, hall, hsingle⟩ := sum_marks hms
  have hnotall : double < 16 := by
    by_contra hno
    have heq : double = ms.length := by omega
    obtain ⟨m, hm, hlt⟩ := hsome (by omega)
    have hle := hall.mp heq m hm
    omega
  rw [uncorrectable_div, hsum, ← hdouble, ← hsingle]
  omega

end Sums

/-! ### Packets -/

/-- Packets 0, packets 26 of a page that is assembled, and packets 30 of magazine 8. -/
def Processed (vbi : Vbi) (p : List UInt8) : Prop :=
  linePkt p = 0 ∨ linePkt p = 26 ∧ (vbi.rpage (lineMag p)).page.active = true ∨ linePkt p = 30 ∧ mag8 (lineMag p) = 8

instance (vbi : Vbi) (p : List UInt8) : Decidable (Processed vbi p) :=
  inferInstanceAs (Decidable (_ ∨ _ ∧ _ ∨ _ ∧ _))

/-- How many bytes of a packet are in Hamming 8/4 code: the address, and the page data or designation behind it. -/
def codedBytes (p : List UInt8) : ℕ := if linePkt p = 0 then 10 else if linePkt p = 26 then 3 else 9

/-- A triplet of packet 26, as a word of 24 bits. -/
def word24 (p : List UInt8) (i : ℕ) : ℕ :=
  (p.getD (3 + 3 * i) 0).toNat + 256 * (p.getD (4 + 3 * i) 0).toNat + 65536 * (p.getD (5 + 3 * i) 0).toNat

def Damaged (p : List UInt8) : Prop :=
  (∃ i < codedBytes p, Lost8 (p.getD i 0)) ∨ linePkt p = 26 ∧ ∃ i < 13, Lost24 (word24 p i)

/-- All 16 protected words of a packet 26 have one wrong bit. -/
def AllCorrected (p : List UInt8) : Prop :=
  linePkt p = 26 ∧ (∀ i < 3, OneWrong8 (p.getD i 0)) ∧ ∀ i < 13, OneWrong24 (word24 p i)

/-- `vt_line` returns an error. -/
def Rejected (r : Vbi × List VtEvent × ℤ) : Prop := r.2.2 = 4 ∨ r.2.2 = -4

section Packets

variable {env : LangEnv} {vbi : Vbi} {p : List UInt8}

def byteMarks (p : List UInt8) (n : ℕ) : List ℕ := (List.range n).map fun i => hammtab (p.getD i 0)

theorem byteMarks_isMark (p : List UInt8) (n : ℕ) : ∀ m ∈ byteMarks p n, IsMark m := by
  intro m hm
  obtain ⟨i, -, rfl⟩ := List.mem_map.mp hm
  exact hammtab_mark _

theorem byteMarks_lost (p : List UInt8) (n : ℕ) :
    (∃ m ∈ byteMarks p n, 0x1000 ≤ m) ↔ ∃ i < n, Lost8 (p.getD i 0) := by
  constructor
  · intro h
    obtain ⟨m, hm, hle⟩ := h
    obtain ⟨i, hi, rfl⟩ := List.mem_map.mp hm
    exact ⟨i, List.mem_range.mp hi, (lost8_iff _).mpr hle⟩
  · intro h
    obtain ⟨i, hi, hlost⟩ := h
    exact ⟨_, List.mem_map_of_mem (List.mem_range.mpr hi), (lost8_iff _).mp hlost⟩

theorem byteMarks_sum {n : ℕ} (hn : n < 16) :
    uncorrectable (byteMarks p n).sum = true ↔ ∃ i < n, Lost8 (p.getD i 0) := by
  have hlen : (byteMarks p n).length = n := by simp [byteMarks]
  rw [uncorrectable_sum (byteMarks_isMark p n) (by omega) (by omega), byteMarks_lost]
  exact or_iff_left fun hno => by omega

theorem getD_behind (i : ℕ) : (p.drop 2).getD i 0 = p.getD (2 + i) 0 := by
  rw [List.getD_eq_getElem?_getD, List.getD_eq_getElem?_getD, List.getElem?_drop]

theorem word24_lt (p : List UInt8) (i : ℕ) : word24 p i < 2 ^ 24 := by
  have h1 := (p.getD (3 + 3 * i) 0).toNat_lt
  have h2 := (p.getD (4 + 3 * i) 0).toNat_lt
  have h3 := (p.getD (5 + 3 * i) 0).toNat_lt
  unfold word24
  omega

theorem hamm24_mark (i : ℕ) : (hamm24 (p.getD (3 + 3 * i) 0) (p.getD (4 + 3 * i) 0) (p.getD (5 + 3 * i) 0) 0).2 =
    mark24 (word24 p i) := by
  have h1 := (p.getD (3 + 3 * i) 0).toNat_lt
  have h2 := (p.getD (4 + 3 * i) 0).toNat_lt
  have hbyte : ∀ (b : UInt8) (w : ℕ), w % 256 = b.toNat → UInt8.ofNat w = b := by
    intro b w hw
    apply UInt8.toNat_inj.mp
    rw [UInt8.toNat_ofNat']
    exact hw
  have hfirst : UInt8.ofNat (word24 p i) = p.getD (3 + 3 * i) 0 := by
    apply hbyte
    unfold word24
    omega
  have hsecond : UInt8.ofNat (word24 p i / 256) = p.getD (4 + 3 * i) 0 := by
    apply hbyte
    unfold word24
    omega
  have hthird : UInt8.ofNat (word24 p i / 65536) = p.getD (5 + 3 * i) 0 := by
    apply hbyte
    have h3 := (p.getD (5 + 3 * i) 0).toNat_lt
    unfold word24
    omega
  have heq := congrArg Prod.snd (hamm24_eq (word24_lt p i) 0)
  unfold hamm24Word at heq
  rw [hfirst, hsecond, hthird] at heq
  exact heq.trans (Nat.zero_add _)

/-- The marks of a packet 26. -/
def marks26 (p : List UInt8) : List ℕ := byteMarks p 3 ++ (List.range 13).map fun i => mark24 (word24 p i)

theorem marks26_isMark (p : List UInt8) : ∀ m ∈ marks26 p, IsMark m := by
  intro m hm
  rcases List.mem_append.mp hm with hm | hm
  · exact byteMarks_isMark p 3 m hm
  · obtain ⟨i, -, rfl⟩ := List.mem_map.mp hm
    exact mark24_isMark (word24_lt p i)

theorem marks26_lost : (∃ m ∈ marks26 p, 0x1000 ≤ m) ↔
    (∃ i < 3, Lost8 (p.getD i 0)) ∨ ∃ i < 13, Lost24 (word24 p i) := by
  rw [← byteMarks_lost]
  unfold marks26
  simp only [List.mem_append, or_and_right, exists_or]
  refine or_congr_right ?_
  constructor
  · intro h
    obtain ⟨m, hm, hle⟩ := h
    obtain ⟨i, hi, rfl⟩ := List.mem_map.mp hm
    exact ⟨i, List.mem_range.mp hi, (lost24_iff (word24_lt p i)).mpr hle⟩
  · intro h
    obtain ⟨i, hi, hlost⟩ := h
    exact ⟨_, List.mem_map_of_mem (List.mem_range.mpr hi), (lost24_iff (word24_lt p i)).mp hlost⟩

theorem marks26_single : (∀ m ∈ marks26 p, 0x100 ≤ m ∧ m < 0x1000) ↔
    (∀ i < 3, OneWrong8 (p.getD i 0)) ∧ ∀ i < 13, OneWrong24 (word24 p i) := by
  unfold marks26 byteMarks
  rw [List.forall_mem_append, List.forall_mem_map, List.forall_mem_map]
  simp only [List.mem_range]
  refine and_congr ?_ ?_
  · exact forall_congr' fun i => imp_congr_right fun _ => (oneWrong8_iff _).symm
  · exact forall_congr' fun i => imp_congr_right fun _ => (oneWrong24_iff (word24_lt p i)).symm

theorem marks26_sum (hok : ¬∃ i < 3, Lost8 (p.getD i 0)) : uncorrectable (marks26 p).sum = true ↔
    (∃ i < 13, Lost24 (word24 p i)) ∨ (∀ i < 3, OneWrong8 (p.getD i 0)) ∧ ∀ i < 13, OneWrong24 (word24 p i) := by
  have hlen : (marks26 p).length = 16 := by simp [marks26, byteMarks]
  have hsome : ∃ m ∈ marks26 p, m < 0x1000 := by
    refine ⟨hammtab (p.getD 0 0), List.mem_append_left _ (List.mem_map_of_mem (List.mem_range.mpr (by decide))), ?_⟩
    by_contra hno
    exact hok ⟨0, by decide, (lost8_iff _).mpr (not_lt.mp hno)⟩
  rw [uncorrectable_sum (marks26_isMark p) hlen.le (fun _ => hsome), marks26_lost, marks26_single, or_iff_right hok,
    and_iff_right hlen]

/-! ### Which packets are rejected -/

theorem rejected_if (c : Bool) (v v' : Vbi) (e e' : List VtEvent) :
    Rejected (if c = true then (v, e, 4) else (v', e', 0)) ↔ c = true := by
  unfold Rejected
  cases c with
  | true => exact iff_of_true (Or.inl rfl) rfl
  | false => simp

theorem rejected_address (h : ∃ i < 2, Lost8 (p.getD i 0)) : Rejected (vtLine env vbi p) := by
  have herr : (hamm16 (p.getD 0 0) (p.getD 1 0) 0).2 = (byteMarks p 2).sum := by
    show 0 + hammtab (p.getD 0 0) + hammtab (p.getD 1 0) = hammtab (p.getD 0 0) + (hammtab (p.getD 1 0) + 0)
    omega
  right
  unfold vtLine
  dsimp only
  rw [herr, if_pos (byteMarks_sum (by decide) |>.mpr h)]

theorem vtLine_read (h : ¬∃ i < 2, Lost8 (p.getD i 0)) : vtLine env vbi p =
    if linePkt p = 0 then headerPacket env vbi (lineMag p) (byteMarks p 2).sum (p.drop 2)
    else if linePkt p ≤ 24 then rowPacket env vbi (lineMag p) (linePkt p) (p.drop 2)
    else if linePkt p = 26 then enhancePacket vbi (lineMag p) (byteMarks p 2).sum (p.drop 2)
    else if linePkt p = 27 then linkPacket vbi (lineMag p) (byteMarks p 2).sum (p.drop 2)
    else if linePkt p = 30 then xPacket env vbi (lineMag p) (byteMarks p 2).sum (p.drop 2)
    else (vbi, [], 0) := by
  have herr : (hamm16 (p.getD 0 0) (p.getD 1 0) 0).2 = (byteMarks p 2).sum := by
    show 0 + hammtab (p.getD 0 0) + hammtab (p.getD 1 0) = hammtab (p.getD 0 0) + (hammtab (p.getD 1 0) + 0)
    omega
  have hread : ¬uncorrectable (byteMarks p 2).sum = true := fun hno => h ((byteMarks_sum (by decide)).mp hno)
  unfold vtLine
  dsimp only
  rw [herr, if_neg hread]
  rfl

/-- The marks of the first `n` bytes, and of some behind them. -/
theorem byteMarks_add (p : List UInt8) (n k : ℕ) :
    (byteMarks p (n + k)).sum = (byteMarks p n).sum + ((List.range k).map fun i => hammtab (p.getD (n + i) 0)).sum := by
  unfold byteMarks
  rw [List.range_add, List.map_append, List.sum_append, List.map_map]
  rfl

theorem rejected_header (hread : ¬∃ i < 2, Lost8 (p.getD i 0)) (hpkt : linePkt p = 0) :
    Rejected (vtLine env vbi p) ↔ ∃ i < 10, Lost8 (p.getD i 0) := by
  rw [vtLine_read hread, if_pos hpkt, ← byteMarks_sum (by decide : 10 < 16)]
  have herr : (hamm16 ((p.drop 2).getD 6 0) ((p.drop 2).getD 7 0) (hamm16 ((p.drop 2).getD 4 0) ((p.drop 2).getD 5 0)
      (hamm16 ((p.drop 2).getD 2 0) ((p.drop 2).getD 3 0) (hamm16 ((p.drop 2).getD 0 0) ((p.drop 2).getD 1 0)
        (byteMarks p 2).sum).2).2).2).2 = (byteMarks p 10).sum := by
    rw [byteMarks_add p 2 8]
    simp only [hamm16, getD_behind, List.range, List.range.loop, List.map_cons, List.map_nil, List.sum_cons, List.sum_nil]
    omega
  unfold headerPacket
  dsimp only
  rw [herr]
  exact rejected_if _ _ _ _ _

theorem rejected_x (hread : ¬∃ i < 2, Lost8 (p.getD i 0)) (hpkt : linePkt p = 30) (hmag : mag8 (lineMag p) = 8) :
    Rejected (vtLine env vbi p) ↔ ∃ i < 9, Lost8 (p.getD i 0) := by
  rw [vtLine_read hread, if_neg (by omega), if_neg (by omega), if_neg (by omega), if_neg (by omega), if_pos hpkt,
    ← byteMarks_sum (by decide : 9 < 16)]
  have herr : (hamm16 ((p.drop 2).getD 5 0) ((p.drop 2).getD 6 0) (hamm16 ((p.drop 2).getD 3 0) ((p.drop 2).getD 4 0)
      (hamm16 ((p.drop 2).getD 1 0) ((p.drop 2).getD 2 0) (hamm8 ((p.drop 2).getD 0 0)
        (byteMarks p 2).sum).2).2).2).2 = (byteMarks p 9).sum := by
    rw [byteMarks_add p 2 7]
    simp only [hamm16, hamm8, getD_behind, List.range, List.range.loop, List.map_cons, List.map_nil, List.sum_cons,
      List.sum_nil]
    omega
  unfold xPacket
  rw [if_neg (not_not_intro hmag)]
  dsimp only
  rw [herr]
  exact rejected_if _ _ _ _ _

theorem rejected_enhance (hread : ¬∃ i < 2, Lost8 (p.getD i 0)) (hpkt : linePkt p = 26)
    (hactive : (vbi.rpage (lineMag p)).page.active = true) : Rejected (vtLine env vbi p) ↔
      (∃ i < 3, Lost8 (p.getD i 0)) ∨ uncorrectable (marks26 p).sum = true := by
  rw [vtLine_read hread, if_neg (by omega), if_neg (by omega), if_pos hpkt, ← byteMarks_sum (by decide : 3 < 16)]
  have herr : (hamm8 ((p.drop 2).getD 0 0) (byteMarks p 2).sum).2 = (byteMarks p 3).sum := by
    rw [byteMarks_add p 2 1]
    simp only [hamm8, getD_behind, List.range, List.range.loop, List.map_cons, List.map_nil, List.sum_cons, List.sum_nil]
    omega
  have htrip : (((List.range 13).map fun i => hamm24 ((p.drop 2).getD (1 + 3 * i) 0) ((p.drop 2).getD (2 + 3 * i) 0)
      ((p.drop 2).getD (3 + 3 * i) 0) 0).map Prod.snd) = (List.range 13).map fun i => mark24 (word24 p i) := by
    rw [List.map_map]
    apply List.map_congr_left
    intro i _
    have h1 : 2 + (1 + 3 * i) = 3 + 3 * i := by omega
    have h2 : 2 + (2 + 3 * i) = 4 + 3 * i := by omega
    have h3 : 2 + (3 + 3 * i) = 5 + 3 * i := by omega
    rw [Function.comp_apply, getD_behind, getD_behind, getD_behind, h1, h2, h3]
    exact hamm24_mark i
  have hsum : (byteMarks p 3).sum + ((List.range 13).map fun i => mark24 (word24 p i)).sum = (marks26 p).sum :=
    (List.sum_append).symm
  unfold enhancePacket
  dsimp only
  rw [hactive, if_neg Bool.noConfusion, herr, htrip, hsum]
  cases uncorrectable (byteMarks p 3).sum with
  | true => exact iff_of_true (Or.inl rfl) (Or.inl rfl)
  | false =>
    rw [if_neg Bool.false_ne_true, or_iff_right Bool.false_ne_true]
    exact rejected_if _ _ _ _ _

/-- **Which packets are rejected.** -/
theorem rejected_cases (hp : Processed vbi p) : Rejected (vtLine env vbi p) ↔ Damaged p ∨ AllCorrected p := by
  unfold Damaged AllCorrected codedBytes
  by_cases haddress : ∃ i < 2, Lost8 (p.getD i 0)
  · -- the address is one of the words, whatever the packet
    obtain ⟨i, hi, hlost⟩ := haddress
    refine iff_of_true (rejected_address ⟨i, hi, hlost⟩) (Or.inl (Or.inl ⟨i, ?_, hlost⟩))
    split
    · omega
    · split
      · omega
      · omega
  · rcases hp with hpkt | ⟨hpkt, hactive⟩ | ⟨hpkt, hmag⟩
    · rw [rejected_header haddress hpkt, if_pos hpkt]
      have hother : ¬linePkt p = 26 := by omega
      rw [or_iff_left fun hno => hother hno.1, or_iff_left fun hno => hother hno.1]
    · rw [rejected_enhance haddress hpkt hactive, if_neg (by omega), if_pos hpkt, and_iff_right hpkt, and_iff_right hpkt]
      by_cases hlost : ∃ i < 3, Lost8 (p.getD i 0)
      · exact iff_of_true (Or.inl hlost) (Or.inl (Or.inl hlost))
      · rw [marks26_sum hlost, or_assoc]
    · rw [rejected_x haddress hpkt hmag, if_neg (by omega), if_neg (by omega)]
      have hother : ¬linePkt p = 26 := by omega
      rw [or_iff_left fun hno => hother hno.1, or_iff_left fun hno => hother hno.1]

theorem not_damaged (h : AllCorrected p) : ¬Damaged p := by
  obtain ⟨hpkt, hbytes, htriplets⟩ := h
  intro hdamaged
  unfold Damaged codedBytes at hdamaged
  rw [if_neg (by omega), if_pos hpkt] at hdamaged
  rcases hdamaged with ⟨i, hi, hlost⟩ | ⟨-, i, hi, hlost⟩
  · obtain ⟨d, hd, j, hj, hflip⟩ := hbytes i hi
    exact (hlost d hd).2 j hj hflip
  · obtain ⟨n, hn, j, hj, hflip⟩ := htriplets i hi
    exact (hlost n hn).2 j hj hflip

end Packets

/-- What Hamming 24/18 code corrects and finds. -/
def HammingLaw : Prop :=
  ∀ n < 2 ^ 18, ∀ err, ∀ i < 24, hamm24Word (hammEncode24 n ^^^ 2 ^ i) err = (n, err + 0x100) ∧
    ∀ j < 24, i ≠ j → (hamm24Word (hammEncode24 n ^^^ 2 ^ i ^^^ 2 ^ j) err).2 = err + 0x1000

/-- **PROVED**: the decoder corrects one wrong bit and finds two; and a packet is rejected exactly if one of its
protected words cannot be corrected, unless it is a packet 26 all of whose 16 words have one wrong bit. -/
theorem rejected_iff {env : LangEnv} {vbi : Vbi} {p : List UInt8} (hp : Processed vbi p) :
    HammingLaw ∧ (Rejected (vtLine env vbi p) ↔ Damaged p) ↔ ¬AllCorrected p := by
  have hlaw : HammingLaw := by
    intro n hn err i hi
    exact ⟨hamm24_flip hn hi err, fun j hj hne => hamm24_flips hi hj hne err⟩
  rw [and_iff_right hlaw, rejected_cases hp]
  constructor
  · intro h hall
    exact not_damaged hall (h.mp (Or.inr hall))
  · intro h
    exact or_iff_left h

def activeVbi : Vbi :=
  { idleVbi with rpage := fun _ => ⟨⟨0x100, 0, 0, pgActive, 0, 1, fun _ _ => 0x20, 0, []⟩, ⟨0, fun _ => 0⟩⟩ }

/-- A header without errors. -/
theorem rejected_iff_header : HammingLaw ∧
    (Rejected (vtLine ⟨LATIN1, fun _ => false, fun _ => 0⟩ activeVbi (List.replicate 42 0x15)) ↔
      Damaged (List.replicate 42 0x15)) := by
  have hpkt : linePkt (List.replicate 42 0x15) = 0 := by decide
  apply (rejected_iff (Or.inl hpkt)).mpr
  intro hno
  exact absurd (hpkt.symm.trans hno.1) (by decide)

/-- A packet 26 of magazine 1 with one wrong bit in every word. -/
def worn : List UInt8 :=
  [hammEncode 1 ^^^ 1, hammEncode 13 ^^^ 1, hammEncode 0 ^^^ 1] ++
    (List.replicate 13 [UInt8.ofNat (hammEncode24 0 ^^^ 1), UInt8.ofNat ((hammEncode24 0 ^^^ 1) / 256),
      UInt8.ofNat ((hammEncode24 0 ^^^ 1) / 65536)]).flatten

/-- It is rejected, though every word is corrected. -/
theorem not_rejected_lost : ¬∀ env vbi p, Processed vbi p →
    HammingLaw ∧ (Rejected (vtLine env vbi p) ↔ Damaged p) := by
  intro h
  have hpkt : linePkt worn = 26 := by decide
  have hprocessed : Processed activeVbi worn := Or.inr (Or.inl ⟨hpkt, rfl⟩)
  have hwords : ∀ i < 13, word24 worn i = hammEncode24 0 ^^^ 2 ^ 0 := by decide
  have hall : AllCorrected worn :=
    ⟨hpkt, by decide, fun i hi => ⟨0, by decide, 0, by decide, hwords i hi⟩⟩
  obtain ⟨-, hiff⟩ := h ⟨LATIN1, fun _ => false, fun _ => 0⟩ activeVbi worn hprocessed
  exact not_damaged hall (hiff.mp ((rejected_cases hprocessed).mpr (Or.inr hall)))

end BgtDvb.Alevt
