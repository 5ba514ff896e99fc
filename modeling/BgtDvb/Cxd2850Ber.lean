import BgtDvb.Cxd2850
import BgtDvb.Lib.StagedDiv
import BgtDvb.Lib.Words

/-!
# The error rates of the CXD2850

`cxd2850_read_dvbs_ber`, `cxd2850_read_unc_dvbs` and `cxd2850_read_dvbs2_ber` scale the quotient of a counter and a number
of frames.  The divisions are made in stages, so that no product leaves 32 bits.

* `dvbsRate_eq`, `dvbs2Rate_eq` — **PROVED**: what the stages come to;
* `error_rates_iff` — **PROVED**: the registers with which each function rounds to the nearest integer.
-/

namespace BgtDvb.Cxd2850

open BgtDvb.StagedDiv BgtDvb.Words

def eio : ℤ := 5
def einval : ℤ := 22

/-! ### Accesses -/

/-- Which accesses of a call succeed, one after another, and what the registers hold.  No call reads a register twice. -/
structure Reads where
  ok : ℕ → Bool
  content : UInt32 → UInt8

/-- The result of `cxd2850_rd_regs` is that of its data transfer. -/
theorem rdRegs_outcome (d : Demod) (s : Dev) (addr : UInt32) {len : ℕ} (reply : List UInt8) (sel dat : Xfer)
    (hlen : len ≤ 256) :
    (rdRegs d s addr len reply sel dat).map (·.1) = some (if dat.ok = true then 0 else -eremoteio) := by
  rw [rdRegs, if_neg (Nat.not_lt.mpr hlen)]
  cases dat.ok <;> rfl

/-- A counter of three bytes: `((a & m) << 16) | ((b & 0xff) << 8) | (c & 0xff)`. -/
def counter (m : UInt32) (a b c : UInt8) : UInt32 :=
  ((a.toUInt32 &&& m) <<< 16) ||| ((b.toUInt32 &&& 0xff) <<< 8) ||| (c.toUInt32 &&& 0xff)

/-! ### DVB-S -/

/-- `cnt * 7812500 / (102 * frm)` as both functions of DVB-S take it. -/
def dvbsRate (cnt frm : ℕ) : Option (Except ℤ ℕ) := do
  let tmpDiv ← mul 32 frm 102
  if tmpDiv = 0 then return .error (-eio)
  let limit ← mul 32 frm 13056
  if cnt > limit then return .error (-eio)
  let n ← mul 32 cnt 125
  let q ← div n tmpDiv
  let r ← mod n tmpDiv
  let s ← stages 32 tmpDiv [625, 100] (q, r)
  let rate ← halfUp 32 tmpDiv s
  return .ok rate

section Functions

variable (t : Reads)

/-- `cxd2850_read_unc_dvbs` -/
def readUncDvbs : Option (Except ℤ ℕ) :=
  if t.ok 0 = false then some (.error (-eremoteio))
  else if t.content 0x0025 &&& 0x01 = 0 then some (.ok 0)
  else if t.ok 1 = false then some (.error (-eremoteio))
  else
    let berc := counter 0xff (t.content 0x002c) (t.content 0x002d) (t.content 0x002e)
    if t.ok 2 = false then some (.error (-eremoteio))
    else do
      let frmc ← shl 32 (t.content 0x00ba &&& 0xff).toNat
      dvbsRate berc.toNat frmc

/-- `cxd2850_read_dvbs_ber` -/
def readDvbsBer : Option (Except ℤ ℕ) :=
  if t.ok 0 = false then some (.error (-eremoteio))
  else if t.content 0x0025 &&& 0x01 = 0 then some (.error (-einval))
  else
    let berCnt := counter 0xff (t.content 0x0026) (t.content 0x0027) (t.content 0x0028)
    if t.ok 1 = false then some (.error (-eremoteio))
    else do
      let frmCnt ← shl 32 (t.content 0x00ba &&& 0x0f).toNat
      dvbsRate berCnt.toNat frmCnt

end Functions

/-! ### DVB-S2 -/

/-- `enum cxd2850_cr` -/
inductive Cr where
  | cr1_4 | cr1_3 | cr2_5 | cr1_2 | cr3_5 | cr2_3 | cr3_4 | cr4_5 | cr5_6 | cr7_8 | cr8_9 | cr9_10 | unknown
  deriving DecidableEq

/-- `enum cxd2850_mod` -/
inductive Mod where
  | qpsk | psk8 | apskxx | unknown
  deriving DecidableEq

/-- The code rate and the modulation of a `mdcd_typ`. -/
def fecOf (mdcdTyp : UInt8) : Except ℤ (Cr × Mod) :=
  if mdcdTyp ≥ 0x1d then .ok (.unknown, .unknown)
  else if mdcdTyp ≥ 0x12 then .ok (.unknown, .apskxx)
  else if mdcdTyp ≥ 0x0c then
    if mdcdTyp = 0x0c then .ok (.cr3_5, .psk8)
    else if mdcdTyp = 0x0d then .ok (.cr2_3, .psk8)
    else if mdcdTyp = 0x0e then .ok (.cr3_4, .psk8)
    else if mdcdTyp = 0x0f then .ok (.cr5_6, .psk8)
    else if mdcdTyp = 0x10 then .ok (.cr8_9, .psk8)
    else if mdcdTyp = 0x11 then .ok (.cr9_10, .psk8)
    else .error (-eio)
  else if mdcdTyp ≥ 0x01 then
    if mdcdTyp = 0x01 then .ok (.cr1_4, .qpsk)
    else if mdcdTyp = 0x02 then .ok (.cr1_3, .qpsk)
    else if mdcdTyp = 0x03 then .ok (.cr2_5, .qpsk)
    else if mdcdTyp = 0x04 then .ok (.cr1_2, .qpsk)
    else if mdcdTyp = 0x05 then .ok (.cr3_5, .qpsk)
    else if mdcdTyp = 0x06 then .ok (.cr2_3, .qpsk)
    else if mdcdTyp = 0x07 then .ok (.cr3_4, .qpsk)
    else if mdcdTyp = 0x08 then .ok (.cr4_5, .qpsk)
    else if mdcdTyp = 0x09 then .ok (.cr5_6, .qpsk)
    else if mdcdTyp = 0x0a then .ok (.cr8_9, .qpsk)
    else if mdcdTyp = 0x0b then .ok (.cr9_10, .qpsk)
    else .error (-eio)
  else .ok (.unknown, .unknown)

/-- `temp_a` and `temp_b` -/
def Cr.ratio : Cr → Option (ℕ × ℕ)
  | .cr1_4 => some (1, 4)
  | .cr1_3 => some (1, 3)
  | .cr2_5 => some (2, 5)
  | .cr1_2 => some (1, 2)
  | .cr3_5 => some (3, 5)
  | .cr2_3 => some (2, 3)
  | .cr3_4 => some (3, 4)
  | .cr4_5 => some (4, 5)
  | .cr5_6 => some (5, 6)
  | .cr8_9 => some (8, 9)
  | .cr9_10 => some (9, 10)
  | .cr7_8 | .unknown => none

/-- The check for a rate that is too high, which is made only if the limit fits in the counter. -/
def dvbs2TooHigh (cnt frm a b : ℕ) : Option Bool := do
  let x ← mul 32 frm 6480
  let x ← mul 32 x a
  if x < 8388607 then
    let n ← mul 32 cnt b
    let limit ← mul 32 frm 64800
    let limit ← mul 32 limit a
    return decide (n > limit)
  else return false

/-- `cnt * b * 1250000 / (81 * frm * a)` -/
def dvbs2Rate (cnt frm a b : ℕ) : Option (Except ℤ ℕ) := do
  let tmpDiv ← mul 32 frm 81
  let tmpDiv ← mul 32 tmpDiv a
  if tmpDiv = 0 then return .error (-eio)
  let high ← dvbs2TooHigh cnt frm a b
  if high = true then return .error (-eio)
  let n ← mul 32 cnt 25
  let n ← mul 32 n b
  let q ← div n tmpDiv
  let r ← mod n tmpDiv
  let s ← stages 32 tmpDiv [100, 50, 10] (q, r)
  let rate ← halfUp 32 tmpDiv s
  return .ok rate

section Functions2

variable (t : Reads)

/-- `(data >> 2) & 0x1F` -/
def Reads.mdcdTyp : UInt8 := (t.content 0x0021 >>> 2) &&& 0x1f

/-- `cxd2850_read_dvbs2_fec`, as the third and fourth access of `cxd2850_read_dvbs2_ber`. -/
def readDvbs2Fec : Except ℤ (Cr × Mod) :=
  if t.ok 2 = false then .error (-eremoteio)
  else if t.content 0x0011 &&& 0x04 = 0 then .error (-einval)
  else if t.ok 3 = false then .error (-eremoteio)
  else fecOf t.mdcdTyp

/-- `cxd2850_read_dvbs2_ber` -/
def readDvbs2Ber : Option (Except ℤ ℕ) :=
  if t.ok 0 = false then some (.error (-eremoteio))
  else if t.content 0x002f &&& 0x01 = 0 then some (.error (-eio))
  else
    let berCnt := counter 0x7f (t.content 0x0030) (t.content 0x0031) (t.content 0x0032)
    if t.ok 1 = false then some (.error (-eremoteio))
    else do
      let frmCnt ← shl 32 (t.content 0x00bc &&& 0x0f).toNat
      match readDvbs2Fec t with
      | .error e => some (.error e)
      | .ok (cr, _) =>
        match cr.ratio with
        | none => some (.error (-eio))
        | some (a, b) => dvbs2Rate berCnt.toNat frmCnt a b

end Functions2

/-! ### What the divisions come to -/

theorem and_ff (x : UInt8) : x &&& 0xff = x := UInt8.toBitVec_inj.mp BitVec.and_allOnes

theorem counter_toNat (m a b c : UInt8) : (counter m.toUInt32 a b c).toNat = beNat [a &&& m, b, c] := by
  have hbyte : ∀ x : UInt8, x.toUInt32 &&& 0xff = x.toUInt32 := by
    intro x
    rw [show (0xff : UInt32) = (0xff : UInt8).toUInt32 from rfl, ← UInt8.toUInt32_and, and_ff]
  have hfour := toNat_or_shiftLeft 0 (a &&& m) b c
  rw [show (0 : UInt8).toUInt32 <<< 24 = 0 from rfl, UInt32.zero_or] at hfour
  rw [counter, hbyte, hbyte, ← UInt8.toUInt32_and, hfour]
  simp [beNat]

theorem counter_full (a b c : UInt8) : (counter 0xff a b c).toNat = beNat [a, b, c] := by
  have h := counter_toNat 0xff a b c
  rwa [and_ff] at h

theorem counter_low (a b c : UInt8) : (counter 0x7f a b c).toNat = beNat [a &&& 0x7f, b, c] := counter_toNat 0x7f a b c

theorem beNat_three_lt (a b c : UInt8) : beNat [a, b, c] < (a.toNat + 1) * 65536 := by
  have hb := b.toNat_lt
  have hc := c.toNat_lt
  show ((0 * 256 + a.toNat) * 256 + b.toNat) * 256 + c.toNat < _
  omega

variable {cnt frm : ℕ}

theorem dvbs_products (hcnt : cnt < 2 ^ 24) (hpos : 0 < frm) (hfrm : frm ≤ 2 ^ 18) :
    0 < frm * 102 ∧ frm * 102 * 100 ≤ 2 ^ 32 ∧ frm * 13056 < 2 ^ 32 ∧ cnt * 125 < 2 ^ 32 := by
  omega

theorem dvbs_rate_le (hlow : cnt ≤ frm * 13056) : cnt * 7812500 / (frm * 102) ≤ 1000000000 :=
  Nat.div_le_of_le_mul (by omega)

theorem dvbsRate_eq (hcnt : cnt < 2 ^ 24) (hpos : 0 < frm) (hfrm : frm ≤ 2 ^ 18)
    (hfit : cnt * 125 % (frm * 102) * 625 < 2 ^ 32) :
    dvbsRate cnt frm = some (if cnt > frm * 13056 then .error (-eio)
      else .ok (if cnt * 7812500 % (frm * 102) ≥ frm * 102 / 2 then cnt * 7812500 / (frm * 102) + 1
        else cnt * 7812500 / (frm * 102))) := by
  obtain ⟨hd, hhundred, hlimit, hn⟩ := dvbs_products hcnt hpos hfrm
  have hdiv : frm * 102 < 2 ^ 32 := by omega
  unfold dvbsRate mul div mod
  rw [fit_eq hdiv, fit_eq hlimit, fit_eq hn]
  simp only [Option.bind_eq_bind, Option.bind_some, if_neg hd.ne']
  by_cases hhigh : cnt > frm * 13056
  · rw [if_pos hhigh, if_pos hhigh]
    rfl
  · have hq := dvbs_rate_le (Nat.not_lt.mp hhigh)
    have hq' : cnt * 7812500 / (frm * 102) + 1 < 2 ^ 32 := lt_of_le_of_lt (Nat.add_le_add_right hq 1) (by decide)
    have hprod : cnt * 125 * 625 * [100].prod = cnt * 7812500 := by
      rw [List.prod_singleton, Nat.mul_assoc, Nat.mul_assoc]
    have hfirst : cnt * 125 * 625 / (frm * 102) < 2 ^ 32 := by
      have hle : cnt * 125 * 625 ≤ cnt * 7812500 := by
        rw [Nat.mul_assoc]
        exact Nat.mul_le_mul_left cnt (by decide)
      exact lt_of_le_of_lt (Nat.div_le_div_right hle) (lt_of_le_of_lt (Nat.le_succ _) hq')
    have hsmall : ∀ m ∈ [100], frm * 102 * m ≤ 2 ^ 32 := by
      intro m hm
      rw [List.mem_singleton.mp hm]
      exact hhundred
    have hrest := stages_eq hd [100] (cnt * 125 * 625) (by decide) hsmall
      (by rw [hprod]; exact lt_of_le_of_lt (Nat.le_succ _) hq')
    rw [hprod] at hrest
    rw [if_neg hhigh, if_neg hhigh, stages, stage_eq hd hfit hfirst, Option.bind_some, hrest, Option.bind_some,
      halfUp_eq hq']
    rfl

/-- The bounds of what `dvbs2Rate` works with: a counter of 23 bits, up to `2 ^ 15` frames, and a rate. -/
structure Dvbs2Args (cnt frm a b : ℕ) : Prop where
  cnt_lt : cnt < 2 ^ 23
  frm_pos : 0 < frm
  frm_le : frm ≤ 2 ^ 15
  a_pos : 0 < a
  a_le : a ≤ 9
  b_le : b ≤ 10

section Dvbs2

variable {cnt frm a b : ℕ} (h : Dvbs2Args cnt frm a b)

include h

theorem frames_pos : 0 < frm * a := Nat.mul_pos h.frm_pos h.a_pos

theorem frames_le : frm * a ≤ 294912 := Nat.mul_le_mul h.frm_le h.a_le

theorem bits_le : cnt * b ≤ 83886070 := Nat.mul_le_mul (Nat.le_of_lt_succ h.cnt_lt) h.b_le

theorem dvbs2TooHigh_eq : dvbs2TooHigh cnt frm a b = some (decide (cnt * b > 64800 * (frm * a))) := by
  have hframes := frames_le h
  have hbits := bits_le h
  have hfrm := h.frm_le
  have hx : frm * 6480 < 2 ^ 32 := by omega
  have hx' : 6480 * (frm * a) < 2 ^ 32 := by omega
  have hn : cnt * b < 2 ^ 32 := by omega
  have hl : frm * 64800 < 2 ^ 32 := lt_of_le_of_lt (Nat.mul_le_mul_right 64800 hfrm) (by decide)
  have h6480 : frm * 6480 * a = 6480 * (frm * a) := by ring
  have h64800 : frm * 64800 * a = 64800 * (frm * a) := by ring
  unfold dvbs2TooHigh mul
  simp only [fit_eq hx, h6480, fit_eq hx', Option.bind_eq_bind, Option.bind_some]
  by_cases hcheck : 6480 * (frm * a) < 8388607
  · have hl' : 64800 * (frm * a) < 2 ^ 32 := by omega
    rw [if_pos hcheck, fit_eq hn, Option.bind_some, fit_eq hl, Option.bind_some, h64800, fit_eq hl', Option.bind_some]
    rfl
  · rw [if_neg hcheck, decide_eq_false (by omega)]
    rfl

theorem dvbs2Rate_eq : dvbs2Rate cnt frm a b = some (if cnt * b > 64800 * (frm * a) then .error (-eio)
    else .ok (if cnt * b * 1250000 % (81 * (frm * a)) ≥ 81 * (frm * a) / 2 then
      cnt * b * 1250000 / (81 * (frm * a)) + 1 else cnt * b * 1250000 / (81 * (frm * a)))) := by
  have hframes := frames_le h
  have hpos := frames_pos h
  have hbits := bits_le h
  have hfrm := h.frm_le
  have hcnt := h.cnt_lt
  have hd : 0 < 81 * (frm * a) := by omega
  have h81 : frm * 81 * a = 81 * (frm * a) := by ring
  have h25 : cnt * 25 * b = cnt * b * 25 := by ring
  have hx : frm * 81 < 2 ^ 32 := by omega
  have hx' : 81 * (frm * a) < 2 ^ 32 := by omega
  have hn : cnt * 25 < 2 ^ 32 := by omega
  have hn' : cnt * b * 25 < 2 ^ 32 := by omega
  unfold dvbs2Rate
  rw [dvbs2TooHigh_eq h]
  unfold mul div mod
  simp only [fit_eq hx, h81, fit_eq hx', fit_eq hn, h25, fit_eq hn', Option.bind_eq_bind, Option.bind_some,
    if_neg hd.ne', decide_eq_true_eq]
  by_cases hhigh : cnt * b > 64800 * (frm * a)
  · rw [if_pos hhigh, if_pos hhigh]
    rfl
  · have hq : cnt * b * 1250000 / (81 * (frm * a)) ≤ 1000000000 := Nat.div_le_of_le_mul (by omega)
    have hq' : cnt * b * 1250000 / (81 * (frm * a)) + 1 < 2 ^ 32 := lt_of_le_of_lt (Nat.add_le_add_right hq 1) (by decide)
    have hprod : cnt * b * 25 * [100, 50, 10].prod = cnt * b * 1250000 := by
      rw [show [100, 50, 10].prod = 50000 from rfl, Nat.mul_assoc]
    have hsmall : ∀ m ∈ [100, 50, 10], 81 * (frm * a) * m ≤ 2 ^ 32 := by
      intro m hm
      have hm100 : m ≤ 100 := by
        revert m
        decide
      exact le_trans (Nat.mul_le_mul (by omega : 81 * (frm * a) ≤ 23887872) hm100) (by decide)
    have hstages := stages_eq hd [100, 50, 10] (cnt * b * 25) (by decide) hsmall
      (by rw [hprod]; exact lt_of_le_of_lt (Nat.le_succ _) hq')
    rw [hprod] at hstages
    rw [if_neg hhigh, if_neg hhigh, hstages, Option.bind_some, halfUp_eq hq']
    rfl

end Dvbs2

/-! ### Errors and rates -/

/-- Nothing overflows, and the result is an error or a rate with the property. -/
def ErrorOr (P : ℕ → Prop) : Option (Except ℤ ℕ) → Prop
  | none => False
  | some (.error e) => e < 0
  | some (.ok rate) => P rate

def dvbsExact (cnt exponent : ℕ) : ℚ := cnt * 7812500 / (102 * 2 ^ exponent)

/-- The rate of DVB-S2. -/
def dvbs2Exact (cnt exponent a b : ℕ) : ℚ := cnt * b * 1250000 / (81 * 2 ^ exponent * a)

section Exact

variable {cnt e : ℕ}

theorem dvbsExact_eq : dvbsExact cnt e = ((cnt * 7812500 : ℕ) : ℚ) / ((2 ^ e * 102 : ℕ) : ℚ) := by
  rw [dvbsExact]
  push_cast
  rw [mul_comm (102 : ℚ)]

theorem dvbs2Exact_eq {a b : ℕ} :
    dvbs2Exact cnt e a b = ((cnt * b * 1250000 : ℕ) : ℚ) / ((81 * (2 ^ e * a) : ℕ) : ℚ) := by
  rw [dvbs2Exact]
  push_cast
  rw [mul_assoc (81 : ℚ)]

theorem dvbsRate_errorOr (hcnt : cnt < 2 ^ 24) (he : e ≤ 18) (hfit : cnt * 125 % (2 ^ e * 102) * 625 < 2 ^ 32) :
    ErrorOr (IsNearest (dvbsExact cnt e)) (dvbsRate cnt (2 ^ e)) := by
  have hpos : 0 < 2 ^ e := Nat.two_pow_pos e
  rw [dvbsRate_eq hcnt hpos (Nat.pow_le_pow_right (by decide) he) hfit]
  by_cases hhigh : cnt > 2 ^ e * 13056
  · rw [if_pos hhigh]
    show -eio < 0
    decide
  · rw [if_neg hhigh, dvbsExact_eq]
    exact (halfUp_nearest_iff (by omega)).mpr fun h => by omega

/-- A remainder that does not fit is met unless the rate is refused. -/
theorem dvbsRate_none (hcnt : cnt < 2 ^ 24) (hpos : 0 < frm) (hfrm : frm ≤ 2 ^ 18) (hlow : cnt ≤ frm * 13056)
    (hrem : ¬cnt * 125 % (frm * 102) * 625 < 2 ^ 32) : dvbsRate cnt frm = none := by
  obtain ⟨hd, hhundred, hlimit, hn⟩ := dvbs_products hcnt hpos hfrm
  have hdiv : frm * 102 < 2 ^ 32 := by omega
  unfold dvbsRate mul div mod
  rw [fit_eq hdiv, fit_eq hlimit, fit_eq hn]
  simp only [Option.bind_eq_bind, Option.bind_some, if_neg hd.ne', if_neg (Nat.not_lt.mpr hlow)]
  rw [stages, stage_none hrem]
  rfl

theorem dvbsRate_frames (hfrm : 2 ^ 19 ≤ frm) : dvbsRate cnt frm = none := by
  have hlimit : ¬frm * 13056 < 2 ^ 32 := by omega
  unfold dvbsRate mul
  rw [fit_none hlimit]
  by_cases hdiv : frm * 102 < 2 ^ 32
  · rw [fit_eq hdiv, Option.bind_eq_bind, Option.bind_some, if_neg (by omega)]
    rfl
  · rw [fit_none hdiv]
    rfl

end Exact

/-! ### The functions -/

section Functions3

variable (t : Reads)

def Reads.dvbsCnt : ℕ := beNat [t.content 0x0026, t.content 0x0027, t.content 0x0028]

def Reads.uncCnt : ℕ := beNat [t.content 0x002c, t.content 0x002d, t.content 0x002e]

def Reads.dvbs2Cnt : ℕ := beNat [t.content 0x0030 &&& 0x7f, t.content 0x0031, t.content 0x0032]

/-- The code rate `a/b` of the registers. -/
def Reads.codeRate : Option (ℕ × ℕ) :=
  match fecOf t.mdcdTyp with
  | .ok (cr, _) => cr.ratio
  | .error _ => none

/-- The exponent and the first remainder fit, if all accesses succeed. -/
def UncFits : Prop :=
  t.ok 0 = true → t.ok 1 = true → t.ok 2 = true → (t.content 0x00ba).toNat ≤ 18 ∧
    t.uncCnt * 125 % (2 ^ (t.content 0x00ba).toNat * 102) * 625 < 2 ^ 32

/-- A single frame, an odd divisor, and a remainder just below its half. -/
def Dvbs2Misrounds : Prop :=
  (t.ok 0 = true ∧ t.ok 1 = true ∧ t.ok 2 = true ∧ t.ok 3 = true) ∧
    (t.content 0x002f &&& 0x01 ≠ 0 ∧ t.content 0x0011 &&& 0x04 ≠ 0) ∧ t.content 0x00bc &&& 0x0f = 0 ∧
    ∃ a b, t.codeRate = some (a, b) ∧ a % 2 = 1 ∧ t.dvbs2Cnt * b ≤ 64800 * a ∧
      t.dvbs2Cnt * b * 1250000 % (81 * a) = 81 * a / 2

theorem uncCnt_lt : t.uncCnt < 2 ^ 24 := by
  have hlt := beNat_three_lt (t.content 0x002c) (t.content 0x002d) (t.content 0x002e)
  have ha := (t.content 0x002c).toNat_lt
  unfold Reads.uncCnt
  omega

theorem dvbsCnt_lt : t.dvbsCnt < 2 ^ 24 := by
  have hlt := beNat_three_lt (t.content 0x0026) (t.content 0x0027) (t.content 0x0028)
  have ha := (t.content 0x0026).toNat_lt
  unfold Reads.dvbsCnt
  omega

theorem dvbs2Cnt_lt : t.dvbs2Cnt < 2 ^ 23 := by
  have hlt := beNat_three_lt (t.content 0x0030 &&& 0x7f) (t.content 0x0031) (t.content 0x0032)
  have ha : (t.content 0x0030 &&& 0x7f).toNat ≤ 127 := by
    rw [UInt8.toNat_and]
    exact Nat.and_le_right
  unfold Reads.dvbs2Cnt
  omega

theorem nibble_lt (x : UInt8) : (x &&& 0x0f).toNat < 16 := by
  rw [UInt8.toNat_and]
  exact Nat.lt_succ_of_le Nat.and_le_right

theorem remainder_fits (n : ℕ) {e : ℕ} (he : e ≤ 16) : n % (2 ^ e * 102) * 625 < 2 ^ 32 := by
  have hpow : 2 ^ e ≤ 2 ^ 16 := Nat.pow_le_pow_right (by decide) he
  have hpos : 0 < 2 ^ e := Nat.two_pow_pos e
  have hlt := Nat.mod_lt n (show 0 < 2 ^ e * 102 by omega)
  omega

theorem shl_eq {e : ℕ} (he : e < 32) : shl 32 e = some (2 ^ e) := if_pos he

theorem errorOr_error {e : ℤ} (he : 0 < e) : ErrorOr P (some (.error (-e))) := Int.neg_neg_of_pos he

theorem readDvbsBer_exact :
    ErrorOr (IsNearest (dvbsExact t.dvbsCnt (t.content 0x00ba &&& 0x0f).toNat)) (readDvbsBer t) := by
  have he := nibble_lt (t.content 0x00ba)
  unfold readDvbsBer
  dsimp only
  split_ifs with h0 hvalid h1
  · exact errorOr_error (by decide)
  · exact errorOr_error (by decide)
  · exact errorOr_error (by decide)
  · rw [counter_full, shl_eq (by omega)]
    exact dvbsRate_errorOr (dvbsCnt_lt t) (by omega) (remainder_fits _ (by omega))

theorem readUncDvbs_exact_iff (hvalid : t.content 0x0025 &&& 0x01 ≠ 0) :
    ErrorOr (IsNearest (dvbsExact t.uncCnt (t.content 0x00ba).toNat)) (readUncDvbs t) ↔ UncFits t := by
  unfold readUncDvbs UncFits
  dsimp only
  rw [if_neg hvalid, and_ff, counter_full]
  split_ifs with h0 h1 h2
  · exact iff_of_true (errorOr_error (by decide)) fun h => absurd (h.symm.trans h0) Bool.noConfusion
  · exact iff_of_true (errorOr_error (by decide)) fun _ h => absurd (h.symm.trans h1) Bool.noConfusion
  · exact iff_of_true (errorOr_error (by decide)) fun _ _ h => absurd (h.symm.trans h2) Bool.noConfusion
  · rw [imp_iff_right (Bool.not_eq_false _ ▸ h0), imp_iff_right (Bool.not_eq_false _ ▸ h1),
      imp_iff_right (Bool.not_eq_false _ ▸ h2)]
    have hcnt := uncCnt_lt t
    obtain ⟨e, he⟩ : ∃ e, e = (t.content 0x00ba).toNat := ⟨_, rfl⟩
    rw [← he]
    by_cases h18 : e ≤ 18
    · have hpow : 2 ^ e ≤ 2 ^ 18 := Nat.pow_le_pow_right (by decide) h18
      rw [shl_eq (by omega), and_iff_right h18]
      constructor
      · intro hexact
        by_contra hrem
        have h17 : 17 ≤ e := by
          by_contra h16
          exact hrem (remainder_fits _ (by omega))
        have hpow17 : 2 ^ 17 ≤ 2 ^ e := Nat.pow_le_pow_right (by decide) h17
        have hnone := dvbsRate_none hcnt (Nat.two_pow_pos e) hpow (by omega) hrem
        have hnot : ErrorOr _ (dvbsRate t.uncCnt (2 ^ e)) := hexact
        rw [hnone] at hnot
        exact hnot
      · intro hfit
        exact dvbsRate_errorOr hcnt h18 hfit
    · refine iff_of_false ?_ fun h => h18 h.1
      by_cases h32 : e < 32
      · have hpow : 2 ^ 19 ≤ 2 ^ e := Nat.pow_le_pow_right (by decide) (by omega)
        rw [shl_eq h32, Option.bind_eq_bind, Option.bind_some, dvbsRate_frames hpow]
        exact id
      · rw [shl, if_neg h32]
        exact id

theorem codeRate_bounds {a b : ℕ} (h : t.codeRate = some (a, b)) : 0 < a ∧ a ≤ 9 ∧ b ≤ 10 := by
  have hratio : ∀ cr : Cr, cr.ratio = some (a, b) → 0 < a ∧ a ≤ 9 ∧ b ≤ 10 := by
    intro cr hcr
    cases cr <;> cases hcr <;> decide
  unfold Reads.codeRate at h
  split at h
  · exact hratio _ h
  · exact absurd h (Option.some_ne_none _).symm

theorem divisor_odd_iff (e a : ℕ) : 81 * (2 ^ e * a) % 2 = 1 ↔ e = 0 ∧ a % 2 = 1 := by
  cases e with
  | zero =>
    rw [pow_zero, Nat.one_mul]
    omega
  | succ e =>
    rw [pow_succ, show 2 ^ e * 2 * a = 2 * (2 ^ e * a) by ring]
    omega

/-- The rate with which `cxd2850_read_dvbs2_ber` rounds wrongly. -/
theorem dvbs2Rate_errorOr_iff {cnt e a b : ℕ} (h : Dvbs2Args cnt (2 ^ e) a b) :
    ErrorOr (IsNearest (dvbs2Exact cnt e a b)) (dvbs2Rate cnt (2 ^ e) a b) ↔
      ¬(e = 0 ∧ a % 2 = 1 ∧ cnt * b ≤ 64800 * a ∧ cnt * b * 1250000 % (81 * a) = 81 * a / 2) := by
  rw [dvbs2Rate_eq h]
  by_cases hhigh : cnt * b > 64800 * (2 ^ e * a)
  · rw [if_pos hhigh]
    refine iff_of_true (errorOr_error (by decide)) ?_
    rintro ⟨rfl, -, hlow, -⟩
    rw [pow_zero, Nat.one_mul] at hhigh
    exact Nat.not_lt.mpr hlow hhigh
  · rw [if_neg hhigh, dvbs2Exact_eq]
    refine (halfUp_nearest_iff (Nat.mul_pos (by decide) (frames_pos h))).trans (not_congr ?_)
    rw [divisor_odd_iff, and_assoc]
    refine and_congr_right fun he => and_congr_right fun _ => ?_
    subst he
    rw [pow_zero, Nat.one_mul] at hhigh ⊢
    exact (and_iff_right (Nat.not_lt.mp hhigh)).symm

theorem ite_error {p : Prop} [Decidable p] {x y : Except ℤ α} (hx : ∀ err, x = .error err → err = -eio)
    (hy : ∀ err, y = .error err → err = -eio) : ∀ err, (if p then x else y) = .error err → err = -eio := by
  by_cases hp : p
  · rwa [if_pos hp]
  · rwa [if_neg hp]

theorem ok_error (x : α) : ∀ err, (.ok x : Except ℤ α) = .error err → err = -eio :=
  fun _ h => nomatch h

theorem error_error : ∀ err, (.error (-eio) : Except ℤ α) = .error err → err = -eio :=
  fun _ h => (Except.error.inj h).symm

theorem fecOf_error : ∀ err, fecOf mdcdTyp = .error err → err = -eio := by
  unfold fecOf
  repeat' apply ite_error
  all_goals first
    | exact ok_error _
    | exact error_error

theorem dvbs2Rate_exact_iff {a b : ℕ} (hcode : t.codeRate = some (a, b)) :
    ErrorOr (fun rate => ∃ a b, t.codeRate = some (a, b) ∧
      IsNearest (dvbs2Exact t.dvbs2Cnt (t.content 0x00bc &&& 0x0f).toNat a b) rate)
        (dvbs2Rate t.dvbs2Cnt (2 ^ (t.content 0x00bc &&& 0x0f).toNat) a b) ↔
      ¬(t.content 0x00bc &&& 0x0f = 0 ∧ ∃ a b, t.codeRate = some (a, b) ∧ a % 2 = 1 ∧
        t.dvbs2Cnt * b ≤ 64800 * a ∧ t.dvbs2Cnt * b * 1250000 % (81 * a) = 81 * a / 2) := by
  have he := nibble_lt (t.content 0x00bc)
  obtain ⟨ha, ha9, hb⟩ := codeRate_bounds t hcode
  have hargs : Dvbs2Args t.dvbs2Cnt (2 ^ (t.content 0x00bc &&& 0x0f).toNat) a b :=
    ⟨dvbs2Cnt_lt t, Nat.two_pow_pos _, Nat.pow_le_pow_right (by decide) (by omega), ha, ha9, hb⟩
  have hspec : ∀ rate, (∃ a b, t.codeRate = some (a, b) ∧
      IsNearest (dvbs2Exact t.dvbs2Cnt (t.content 0x00bc &&& 0x0f).toNat a b) rate) ↔
      IsNearest (dvbs2Exact t.dvbs2Cnt (t.content 0x00bc &&& 0x0f).toNat a b) rate := by
    intro rate
    rw [hcode]
    constructor
    · rintro ⟨a, b, hab, hnear⟩
      cases hab
      exact hnear
    · intro hnear
      exact ⟨a, b, rfl, hnear⟩
  simp only [hspec]
  refine (dvbs2Rate_errorOr_iff hargs).trans (not_congr ?_)
  rw [hcode, show t.content 0x00bc &&& 0x0f = 0 ↔ (t.content 0x00bc &&& 0x0f).toNat = 0 from UInt8.toNat_inj.symm]
  refine and_congr_right fun _ => ?_
  constructor
  · intro h
    exact ⟨a, b, rfl, h⟩
  · rintro ⟨a, b, hab, h⟩
    cases hab
    exact h

theorem readDvbs2Ber_exact_iff :
    ErrorOr (fun rate => ∃ a b, t.codeRate = some (a, b) ∧
      IsNearest (dvbs2Exact t.dvbs2Cnt (t.content 0x00bc &&& 0x0f).toNat a b) rate) (readDvbs2Ber t) ↔
      ¬Dvbs2Misrounds t := by
  have he := nibble_lt (t.content 0x00bc)
  unfold readDvbs2Ber
  dsimp only
  rw [counter_low]
  by_cases h0 : t.ok 0 = false
  · rw [if_pos h0]
    exact iff_of_true (errorOr_error (by decide)) fun h => absurd (h.1.1.symm.trans h0) Bool.noConfusion
  rw [if_neg h0]
  by_cases hvalid : t.content 0x002f &&& 0x01 = 0
  · rw [if_pos hvalid]
    exact iff_of_true (errorOr_error (by decide)) fun h => h.2.1.1 hvalid
  rw [if_neg hvalid]
  by_cases h1 : t.ok 1 = false
  · rw [if_pos h1]
    exact iff_of_true (errorOr_error (by decide)) fun h => absurd (h.1.2.1.symm.trans h1) Bool.noConfusion
  rw [if_neg h1, shl_eq (by omega), Option.bind_eq_bind, Option.bind_some, readDvbs2Fec]
  by_cases h2 : t.ok 2 = false
  · rw [if_pos h2]
    exact iff_of_true (errorOr_error (by decide)) fun h => absurd (h.1.2.2.1.symm.trans h2) Bool.noConfusion
  rw [if_neg h2]
  by_cases hlock : t.content 0x0011 &&& 0x04 = 0
  · rw [if_pos hlock]
    exact iff_of_true (errorOr_error (by decide)) fun h => h.2.1.2 hlock
  rw [if_neg hlock]
  by_cases h3 : t.ok 3 = false
  · rw [if_pos h3]
    exact iff_of_true (errorOr_error (by decide)) fun h => absurd (h.1.2.2.2.symm.trans h3) Bool.noConfusion
  rw [if_neg h3]
  have hdone : t.ok 0 = true ∧ t.ok 1 = true ∧ t.ok 2 = true ∧ t.ok 3 = true :=
    ⟨Bool.not_eq_false _ ▸ h0, Bool.not_eq_false _ ▸ h1, Bool.not_eq_false _ ▸ h2, Bool.not_eq_false _ ▸ h3⟩
  have hgood : t.content 0x002f &&& 0x01 ≠ 0 ∧ t.content 0x0011 &&& 0x04 ≠ 0 := ⟨hvalid, hlock⟩
  unfold Dvbs2Misrounds
  rw [and_iff_right hdone, and_iff_right hgood]
  cases hfec : fecOf t.mdcdTyp with
  | error err =>
    have hnone : t.codeRate = none := by
      rw [Reads.codeRate, hfec]
    rw [fecOf_error err hfec]
    refine iff_of_true (errorOr_error (by decide)) ?_
    rintro ⟨-, a, b, hrate, -⟩
    exact absurd (hnone.symm.trans hrate) (Option.some_ne_none _).symm
  | ok fec =>
    have hrate : t.codeRate = fec.1.ratio := by
      rw [Reads.codeRate, hfec]
    dsimp only
    cases hratio : fec.1.ratio with
    | none =>
      refine iff_of_true (errorOr_error (by decide)) ?_
      rintro ⟨-, a, b, hsome, -⟩
      exact absurd (hratio.symm.trans (hrate.symm.trans hsome)) (Option.some_ne_none _).symm
    | some ab =>
      exact dvbs2Rate_exact_iff t (hrate.trans hratio)

/-- **PROVED**: the registers with which each function returns an error or the nearest integer, and nothing overflows. -/
theorem error_rates_iff :
    ErrorOr (IsNearest (dvbsExact t.dvbsCnt (t.content 0x00ba &&& 0x0f).toNat)) (readDvbsBer t) ∧
      (t.content 0x0025 &&& 0x01 ≠ 0 →
        (ErrorOr (IsNearest (dvbsExact t.uncCnt (t.content 0x00ba).toNat)) (readUncDvbs t) ↔ UncFits t)) ∧
      (ErrorOr (fun rate => ∃ a b, t.codeRate = some (a, b) ∧
        IsNearest (dvbs2Exact t.dvbs2Cnt (t.content 0x00bc &&& 0x0f).toNat a b) rate) (readDvbs2Ber t) ↔
        ¬Dvbs2Misrounds t) :=
  ⟨readDvbsBer_exact t, readUncDvbs_exact_iff t, readDvbs2Ber_exact_iff t⟩

end Functions3

def readsOf (content : UInt32 → UInt8) : Reads := ⟨fun _ => true, content⟩

theorem error_rates_ones : ErrorOr (IsNearest (dvbsExact (readsOf fun _ => 0x01).uncCnt 1))
    (readUncDvbs (readsOf fun _ => 0x01)) :=
  ((error_rates_iff (readsOf fun _ => 0x01)).2.1 (by decide)).mpr fun _ _ _ => by decide

/-- A demodulator that is locked at rate 1/4, with 62 errors in one frame. -/
def singleFrame : Reads := readsOf fun reg =>
  if reg = 0x002f then 0x01 else if reg = 0x0032 then 62 else if reg = 0x0011 ∨ reg = 0x0021 then 0x04 else 0

/-- An exponent that is not masked, and a remainder of 40 with the divisor 81. -/
theorem not_error_rates :
    (¬∀ t : Reads, t.content 0x0025 &&& 0x01 ≠ 0 →
      ErrorOr (IsNearest (dvbsExact t.uncCnt (t.content 0x00ba).toNat)) (readUncDvbs t)) ∧
    ¬∀ t : Reads, ErrorOr (fun rate => ∃ a b, t.codeRate = some (a, b) ∧
      IsNearest (dvbs2Exact t.dvbs2Cnt (t.content 0x00bc &&& 0x0f).toNat a b) rate) (readDvbs2Ber t) := by
  constructor
  · intro hall
    exact hall (readsOf fun reg => if reg = 0x00ba then 32 else 0x01) (by decide)
  · intro hall
    have hcnt : singleFrame.dvbs2Cnt = 62 := rfl
    refine (readDvbs2Ber_exact_iff singleFrame).mp (hall singleFrame)
      ⟨⟨rfl, rfl, rfl, rfl⟩, ⟨by decide, by decide⟩, by decide, 1, 4, rfl, rfl, ?_, ?_⟩
    · rw [hcnt]
      decide
    · rw [hcnt]

end BgtDvb.Cxd2850
