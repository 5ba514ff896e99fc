import BgtDvb.Cxd2817Stats
import BgtDvb.Lib.Words

/-!
# The carrier offset of the CXD2817

`cxd2817_comp` extends the sign of a field of bits, and `cxd2817_caroffst` takes the offset from the four registers of
DVB-T with it.  The mask of the first byte is shifted before it is applied, and the byte is lost.  The inversion bit is
looked for in register `0xc6` of bank 0.

* `comp_toInt` — **PROVED**: `cxd2817_comp` is that, for every width from 1 to 31;
* `carrier_offset_iff` — **PROVED**: the offset is right exactly if the two slips do no harm (`OffsetRight`): with the right
  inversion bit, the field's bits in the first byte are clear; with the wrong one, the quotients are each other's negative.
-/

namespace BgtDvb.Cxd2817

open BgtDvb.Words

/-! ### The sign of a field -/

def lowSigned (b : ℕ) (v : UInt32) : ℤ := (v.toBitVec.setWidth b).toInt

theorem toBitVec_shiftLeft_lt (a : UInt32) {w : UInt32} (hw : w.toNat < 32) :
    (a <<< w).toBitVec = a.toBitVec <<< w.toNat := by
  rw [UInt32.toBitVec_shiftLeft, BitVec.shiftLeft_eq', BitVec.toNat_umod]
  congr 1
  exact Nat.mod_eq_of_lt hw

theorem toBitVec_shiftRight_lt (a : UInt32) {w : UInt32} (hw : w.toNat < 32) :
    (a >>> w).toBitVec = a.toBitVec >>> w.toNat := by
  rw [UInt32.toBitVec_shiftRight, BitVec.ushiftRight_eq', BitVec.toNat_umod]
  congr 1
  exact Nat.mod_eq_of_lt hw

section Comp

variable {b : ℕ} (hpos : 0 < b) (hlt : b < 32)

include hpos hlt

theorem toNat_width : (UInt32.ofNat b).toNat = b :=
  UInt32.toNat_ofNat_of_lt' (by
    show b < 4294967296
    omega)

theorem toNat_width_sub_one : (UInt32.ofNat b - 1).toNat = b - 1 := by
  have hw := toNat_width hpos hlt
  rw [UInt32.toNat_sub_of_le _ _ (UInt32.le_iff_toNat_le.mpr ?_), hw]
  · rfl
  · rw [hw]
    exact hpos

theorem toNat_sub_width : (32 - UInt32.ofNat b).toNat = 32 - b := by
  have hw := toNat_width hpos hlt
  rw [UInt32.toNat_sub_of_le _ _ (UInt32.le_iff_toNat_le.mpr ?_), hw]
  · rfl
  · rw [hw]
    exact hlt.le

theorem maskHi_getLsbD {i : ℕ} (hi : i < 32) :
    (maskHi (32 - UInt32.ofNat b)).toBitVec.getLsbD i = decide (b ≤ i) := by
  have h32 := toNat_sub_width hpos hlt
  have hw := toNat_width hpos hlt
  have hne : 32 - UInt32.ofNat b ≠ 0 := by
    intro h0
    rw [h0] at h32
    have : (0 : UInt32).toNat = 0 := rfl
    omega
  have hback : 32 - (32 - UInt32.ofNat b) = UInt32.ofNat b := by
    apply UInt32.toNat_inj.mp
    rw [UInt32.toNat_sub_of_le _ _ (UInt32.le_iff_toNat_le.mpr (h32.symm ▸ Nat.sub_le _ _)), h32, hw]
    exact Nat.sub_sub_self hlt.le
  rw [maskHi, if_neg hne, hback, toBitVec_shiftLeft_lt _ (hw.symm ▸ hlt), hw, BitVec.getLsbD_shiftLeft]
  rw [show (0xffffffff : UInt32).toBitVec = BitVec.allOnes 32 from rfl, BitVec.getLsbD_allOnes]
  by_cases hbi : b ≤ i
  · simp [hi, hbi]
    omega
  · simp [hbi]

theorem maskLo_getLsbD {i : ℕ} : (maskLo (UInt32.ofNat b)).toBitVec.getLsbD i = decide (i < b) := by
  have h32 := toNat_sub_width hpos hlt
  have hw := toNat_width hpos hlt
  have hne : UInt32.ofNat b ≠ 0 := by
    intro h0
    rw [h0] at hw
    exact hpos.ne hw
  rw [maskLo, if_neg hne, toBitVec_shiftRight_lt _ (h32.symm ▸ by omega), h32, BitVec.getLsbD_ushiftRight,
    show (0xffffffff : UInt32).toBitVec = BitVec.allOnes 32 from rfl, BitVec.getLsbD_allOnes]
  exact decide_eq_decide.mpr (by omega)

theorem signBit_iff (v : UInt32) : v &&& (1 <<< (UInt32.ofNat b - 1)) ≠ 0 ↔ v.toBitVec.getLsbD (b - 1) = true := by
  have hb := toNat_width_sub_one hpos hlt
  have hone : (1 <<< (UInt32.ofNat b - 1) : UInt32).toBitVec = BitVec.twoPow 32 (b - 1) := by
    rw [toBitVec_shiftLeft_lt _ (hb.symm ▸ by omega), hb, BitVec.twoPow_eq]
    rfl
  have hzero : v &&& (1 <<< (UInt32.ofNat b - 1)) = 0 ↔ v.toBitVec.getLsbD (b - 1) = false := by
    rw [← UInt32.toBitVec_inj, UInt32.toBitVec_and, hone, BitVec.and_twoPow]
    cases v.toBitVec.getLsbD (b - 1) with
    | false => simp
    | true =>
      refine iff_of_false (fun h0 => ?_) (by simp)
      have hnat := congrArg BitVec.toNat h0
      rw [if_pos rfl, BitVec.toNat_twoPow_of_lt (by omega)] at hnat
      exact (Nat.two_pow_pos (b - 1)).ne' hnat
  rw [ne_eq, hzero, Bool.not_eq_false]

theorem comp_toBitVec (v : UInt32) : (comp v (UInt32.ofNat b)).toBitVec = (v.toBitVec.setWidth b).signExtend 32 := by
  have hw := toNat_width hpos hlt
  have hmsb : (v.toBitVec.setWidth b).msb = v.toBitVec.getLsbD (b - 1) := by
    rw [BitVec.msb_setWidth, decide_eq_true hpos, Bool.true_and]
  have hrange : ¬(UInt32.ofNat b = 0 ∨ UInt32.ofNat b ≥ 32) := by
    rintro (h0 | hge)
    · rw [h0] at hw
      exact hpos.ne hw
    · have := UInt32.le_iff_toNat_le.mp hge
      rw [hw] at this
      exact absurd this (Nat.not_le.mpr hlt)
  rw [comp, if_neg hrange]
  apply BitVec.eq_of_getLsbD_eq
  intro i hi
  rw [BitVec.getLsbD_signExtend, decide_eq_true hi, Bool.true_and, BitVec.getLsbD_setWidth, hmsb]
  by_cases hsign : v.toBitVec.getLsbD (b - 1) = true
  · rw [if_pos ((signBit_iff hpos hlt v).mpr hsign)]
    show (maskHi (32 - UInt32.ofNat b) ||| v).toBitVec.getLsbD i = _
    rw [UInt32.toBitVec_or, BitVec.getLsbD_or, maskHi_getLsbD hpos hlt hi, hsign]
    by_cases hib : i < b
    · simp [hib]
    · simp [hib, Nat.not_lt.mp hib]
  · rw [if_neg (fun h => hsign ((signBit_iff hpos hlt v).mp h))]
    show (maskLo (UInt32.ofNat b) &&& v).toBitVec.getLsbD i = _
    rw [UInt32.toBitVec_and, BitVec.getLsbD_and, maskLo_getLsbD hpos hlt]
    by_cases hib : i < b
    · simp [hib]
    · simp [hib, hsign]

theorem comp_toInt (v : UInt32) : (comp v (UInt32.ofNat b)).toInt = lowSigned b v := by
  show (comp v (UInt32.ofNat b)).toBitVec.toInt = _
  rw [comp_toBitVec hpos hlt, BitVec.toInt_signExtend_of_le hlt.le]
  rfl

end Comp

/-! ### The offset of DVB-T -/

def Transfers.offsetReg (t : Transfers) : UInt32 :=
  ((t.content 0x4c).toUInt32 <<< 24) ||| ((t.content 0x4d).toUInt32 <<< 16) ||| ((t.content 0x4e).toUInt32 <<< 8) |||
    (t.content 0x4f).toUInt32

def Transfers.Inverted (t : Transfers) : Prop := t.content 0x07c6 &&& 0x01 ≠ 0

instance (t : Transfers) : Decidable t.Inverted := inferInstanceAs (Decidable (_ ≠ _))

def Transfers.InvertedRead (t : Transfers) : Prop := t.content (reached 0x07c6) &&& 0x01 ≠ 0

instance (t : Transfers) : Decidable t.InvertedRead := inferInstanceAs (Decidable (_ ≠ _))

def Transfers.offsetOf (t : Transfers) (k : Int32) : ℤ :=
  let q := (-lowSigned 29 t.offsetReg).tdiv k.toInt
  if t.Inverted then -q else q

def Transfers.lowReg (t : Transfers) : UInt32 := caroffstVal (readInto t 0x0004c (fun _ => 0) 4)

section Offset

variable {t : Transfers}

theorem caroffst_dvbt (h0 : t.Ok 0) (h1 : t.Ok 1) (h2 : t.Ok 2) (hrel : t.release.ok = true) {bw : UInt32} {k : Int32}
    (hk : caroffstDiv bw = some k) (data : Data) : caroffst t data .dvbt bw =
      (0, if t.InvertedRead then -comp t.lowReg 29 / k * -1 else -comp t.lowReg 29 / k, ⟨3, none, false⟩) := by
  unfold caroffst
  dsimp only
  rw [freeze_ok h0, if_neg (not_not.mpr rfl)]
  dsimp only
  rw [rdRegs_ok h1, if_neg (not_not.mpr rfl), hk]
  dsimp only
  rw [rdRegs_ok h2]
  dsimp only
  rw [if_neg (not_not.mpr rfl), caroffstErr, unfreeze_eq hrel (Or.inr rfl)]
  rfl

theorem beNat_four (a b c d : UInt8) :
    beNat [a, b, c, d] = a.toNat * 2 ^ 24 + (b.toNat * 2 ^ 16 + c.toNat * 2 ^ 8 + d.toNat) := by
  show (((0 * 256 + a.toNat) * 256 + b.toNat) * 256 + c.toNat) * 256 + d.toNat = _
  omega

def Transfers.lowBytes (t : Transfers) : ℕ :=
  (t.content 0x4d).toNat * 2 ^ 16 + (t.content 0x4e).toNat * 2 ^ 8 + (t.content 0x4f).toNat

theorem lowBytes_lt : t.lowBytes < 2 ^ 24 := by
  have h1 := (t.content 0x4d).toNat_lt
  have h2 := (t.content 0x4e).toNat_lt
  have h3 := (t.content 0x4f).toNat_lt
  unfold Transfers.lowBytes
  omega

theorem and_mask_shifted (x : UInt8) : x.toUInt32 &&& ((0x1f : UInt32) <<< 24) = (0 : UInt8).toUInt32 <<< 24 := by
  apply UInt32.toNat_inj.mp
  rw [UInt32.toNat_and, UInt8.toNat_toUInt32]
  show x.toNat &&& 31 <<< 24 = 0
  rw [Nat.shiftLeft_eq, Nat.and_comm]
  exact Nat.eq_of_testBit_eq fun i => by
    rw [Nat.testBit_and, Nat.testBit_mul_two_pow, Nat.zero_testBit]
    by_cases hi : 24 ≤ i
    · have hx : x.toNat.testBit i = false :=
        Nat.testBit_lt_two_pow (lt_of_lt_of_le x.toNat_lt (Nat.pow_le_pow_right (by decide) (by omega)))
      rw [hx, Bool.and_false]
    · simp [hi]

theorem lowReg_toNat : t.lowReg.toNat = t.lowBytes := by
  show (caroffstVal _).toNat = _
  rw [caroffstVal, and_mask_shifted, toNat_or_shiftLeft, beNat_four]
  show 0 * 2 ^ 24 + t.lowBytes = t.lowBytes
  rw [Nat.zero_mul, Nat.zero_add]

theorem offsetReg_toNat : t.offsetReg.toNat = (t.content 0x4c).toNat * 2 ^ 24 + t.lowBytes := by
  rw [Transfers.offsetReg, toNat_or_shiftLeft, beNat_four]
  rfl

theorem lowSigned_eq {v : UInt32} {b : ℕ} : lowSigned b v = (v.toNat : ℤ).bmod (2 ^ b) := BitVec.toInt_setWidth _

theorem bmod_field {c low : ℕ} (hlow : low < 2 ^ 24) : ((c * 2 ^ 24 + low : ℕ) : ℤ).bmod (2 ^ 29) =
    (if c % 32 < 16 then (c % 32 : ℕ) * 2 ^ 24 + (low : ℤ) else ((c % 32 : ℕ) - 32) * 2 ^ 24 + (low : ℤ)) := by
  rw [Int.bmod_def]
  split <;> split <;> omega

theorem tdiv_eq_iff {c low : ℕ} (hlow : low < 2 ^ 24) {k : ℤ} (hk : 0 < k) (hk2 : 2 * k ≤ 2 ^ 24) :
    (((c * 2 ^ 24 + low : ℕ) : ℤ).bmod (2 ^ 29)).tdiv k = (low : ℤ).tdiv k ↔ c % 32 = 0 := by
  rw [bmod_field hlow, Int.tdiv_eq_ediv_of_nonneg (Int.natCast_nonneg low)]
  by_cases hs : c % 32 < 16
  · rw [if_pos hs, Int.tdiv_eq_ediv_of_nonneg (by omega)]
    constructor
    · intro heq
      by_contra hne
      have hle : ((low : ℤ) + k) / k ≤ ((c % 32 : ℕ) * 2 ^ 24 + (low : ℤ)) / k := Int.ediv_le_ediv hk (by omega)
      rw [Int.add_ediv_of_dvd_right (dvd_refl k), Int.ediv_self hk.ne'] at hle
      omega
    · intro h0
      rw [h0]
      norm_num
  · rw [if_neg hs]
    refine iff_of_false (fun heq => ?_) (by omega)
    -- a negative field: both quotients would have to be zero
    obtain ⟨m, hm⟩ : ∃ m : ℤ, m = -(((c % 32 : ℕ) - 32) * 2 ^ 24 + (low : ℤ)) := ⟨_, rfl⟩
    rw [show ((c % 32 : ℕ) - 32) * 2 ^ 24 + (low : ℤ) = -m by omega, Int.neg_tdiv,
      Int.tdiv_eq_ediv_of_nonneg (by omega)] at heq
    have hlow0 : 0 ≤ (low : ℤ) / k := Int.ediv_nonneg (by omega) hk.le
    have hm0 : 0 ≤ m / k := Int.ediv_nonneg (by omega) hk.le
    have hml : m < k := by
      have := Int.lt_ediv_add_one_mul_self m hk
      rwa [show m / k = 0 by omega, Int.zero_add, Int.one_mul] at this
    have hll : (low : ℤ) < k := by
      have := Int.lt_ediv_add_one_mul_self (low : ℤ) hk
      rwa [show (low : ℤ) / k = 0 by omega, Int.zero_add, Int.one_mul] at this
    omega

theorem tdiv_neg_iff {c low : ℕ} (hlow : low < 2 ^ 24) {k : ℤ} (hk : 0 < k) (hk2 : 2 * k ≤ 2 ^ 24) :
    (((c * 2 ^ 24 + low : ℕ) : ℤ).bmod (2 ^ 29)).tdiv k = -(low : ℤ).tdiv k ↔ (c % 32 = 0 ∧ (low : ℤ) < k) ∨
      (16 ≤ c % 32 ∧ ((32 - (c % 32 : ℕ)) * 2 ^ 24 - low : ℤ) / k = low / k) := by
  rw [bmod_field hlow, Int.tdiv_eq_ediv_of_nonneg (Int.natCast_nonneg low)]
  have hlow0 : 0 ≤ (low : ℤ) / k := Int.ediv_nonneg (by omega) hk.le
  by_cases hs : c % 32 < 16
  · -- neither quotient is negative, so both are zero
    rw [if_pos hs, Int.tdiv_eq_ediv_of_nonneg (by omega)]
    have hle : (low : ℤ) / k ≤ ((c % 32 : ℕ) * 2 ^ 24 + (low : ℤ)) / k := Int.ediv_le_ediv hk (by omega)
    constructor
    · intro heq
      have hlt := Int.lt_ediv_add_one_mul_self ((c % 32 : ℕ) * 2 ^ 24 + (low : ℤ)) hk
      rw [show ((c % 32 : ℕ) * 2 ^ 24 + (low : ℤ)) / k = 0 by omega, Int.zero_add, Int.one_mul] at hlt
      exact Or.inl ⟨by omega, by omega⟩
    · rintro (⟨hc, hlt⟩ | ⟨hc, -⟩)
      · rw [hc, Nat.cast_zero, Int.zero_mul, Int.zero_add, Int.ediv_eq_zero_of_lt (by omega) hlt, Int.neg_zero]
      · omega
  · rw [if_neg hs, show ((c % 32 : ℕ) - 32) * 2 ^ 24 + (low : ℤ) = -((32 - (c % 32 : ℕ)) * 2 ^ 24 - low : ℤ) by omega,
      Int.neg_tdiv, Int.tdiv_eq_ediv_of_nonneg (by omega), Int.neg_inj]
    exact ⟨fun h => Or.inr ⟨by omega, h⟩, fun h => h.elim (fun h0 => by omega) (fun h1 => h1.2)⟩

theorem caroffstDiv_bounds {bw : UInt32} {k : Int32} (hk : caroffstDiv bw = some k) :
    0 < k.toInt ∧ 2 * k.toInt ≤ 2 ^ 24 := by
  unfold caroffstDiv at hk
  split_ifs at hk with h6 h7 h8
  · rw [← Option.some.inj hk]
    decide
  · rw [← Option.some.inj hk]
    decide
  · rw [← Option.some.inj hk]
    decide

theorem bmod_small {x : ℤ} (hlo : -2 ^ 24 < x) (hhi : x < 2 ^ 24) : x.bmod (2 ^ 32) = x :=
  Int.bmod_eq_of_le (by norm_num; omega) (by norm_num; omega)

theorem natAbs_tdiv_le (low : ℕ) (k : ℤ) : ((-(low : ℤ)).tdiv k).natAbs ≤ low := by
  rw [Int.natAbs_tdiv, Int.natAbs_neg, Int.natAbs_natCast]
  exact Nat.div_le_self _ _

theorem quotient_toInt (k : Int32) : (-comp t.lowReg 29 / k).toInt = (-(t.lowBytes : ℤ)).tdiv k.toInt := by
  have hlow := lowBytes_lt (t := t)
  have hcomp : (comp t.lowReg 29).toInt = t.lowBytes := by
    have h29 := comp_toInt (b := 29) (by decide) (by decide) t.lowReg
    rw [lowSigned_eq, lowReg_toNat] at h29
    exact h29.trans (Int.bmod_eq_of_le (by norm_num) (by norm_num; omega))
  have hneg : (-comp t.lowReg 29).toInt = -(t.lowBytes : ℤ) := by
    rw [Int32.toInt_neg, hcomp]
    exact bmod_small (by omega) (by omega)
  have hle := natAbs_tdiv_le t.lowBytes k.toInt
  rw [Int32.toInt_div, hneg]
  exact bmod_small (by omega) (by omega)

theorem quotient_neg_toInt (k : Int32) : (-comp t.lowReg 29 / k * -1).toInt = -(-(t.lowBytes : ℤ)).tdiv k.toInt := by
  have hlow := lowBytes_lt (t := t)
  have hle := natAbs_tdiv_le t.lowBytes k.toInt
  rw [Int32.toInt_mul, quotient_toInt, show (-1 : Int32).toInt = -1 from rfl, Int.mul_neg_one]
  exact bmod_small (by omega) (by omega)

theorem firstByte_iff (x : UInt8) : x.toNat % 32 = 0 ↔ x &&& 0x1f = 0 := by
  rw [← UInt8.toNat_inj, UInt8.toNat_and]
  show _ ↔ x.toNat &&& (2 ^ 5 - 1) = 0
  rw [Nat.and_two_pow_sub_one_eq_mod]

/-- When the slips do no harm.  If `0xc6` of bank 0 has the bit of `0x07c6`, the field's bits in the first byte are clear;
if not, both quotients are zero, or the field is negative and its magnitude has the quotient of the other three bytes. -/
def Transfers.OffsetRight (t : Transfers) (k : ℤ) : Prop :=
  if t.Inverted ↔ t.InvertedRead then t.content 0x4c &&& 0x1f = 0
  else (t.content 0x4c &&& 0x1f = 0 ∧ (t.lowBytes : ℤ) < k) ∨
    (16 ≤ (t.content 0x4c).toNat % 32 ∧
      ((32 - ((t.content 0x4c).toNat % 32 : ℕ)) * 2 ^ 24 - t.lowBytes : ℤ) / k = t.lowBytes / k)

instance (t : Transfers) (k : ℤ) : Decidable (t.OffsetRight k) :=
  inferInstanceAs (Decidable (if t.Inverted ↔ t.InvertedRead then t.content 0x4c &&& 0x1f = 0 else _ ∧ _ ∨ _ ∧ _))

/-- **PROVED**: `cxd2817_comp` is two's complement; with all transfers done the reported offset is that of the registers
exactly if the slips do no harm. -/
theorem carrier_offset_iff (t : Transfers) (data : Data) (bw : UInt32) (k : Int32) (h0 : t.Ok 0) (h1 : t.Ok 1)
    (h2 : t.Ok 2) (hrel : t.release.ok = true) (hk : caroffstDiv bw = some k) :
    (∀ (v : UInt32) (b : ℕ), 0 < b → b < 32 → (comp v (UInt32.ofNat b)).toInt = lowSigned b v) ∧
      (caroffst t data .dvbt bw).1 = 0 ∧
      ((caroffst t data .dvbt bw).2.1.toInt = t.offsetOf k ↔ t.OffsetRight k.toInt) := by
  refine ⟨fun v b hpos hlt => comp_toInt hpos hlt v, ?_⟩
  rw [caroffst_dvbt h0 h1 h2 hrel hk]
  refine ⟨rfl, ?_⟩
  have hbounds := caroffstDiv_bounds hk
  have hspec : lowSigned 29 t.offsetReg = (((t.content 0x4c).toNat * 2 ^ 24 + t.lowBytes : ℕ) : ℤ).bmod (2 ^ 29) := by
    rw [lowSigned_eq, offsetReg_toNat]
  have hiff := tdiv_eq_iff (c := (t.content 0x4c).toNat) (lowBytes_lt (t := t)) hbounds.1 hbounds.2
  have hneg := tdiv_neg_iff (c := (t.content 0x4c).toNat) (lowBytes_lt (t := t)) hbounds.1 hbounds.2
  rw [firstByte_iff, ← hspec] at hiff hneg
  rw [Transfers.OffsetRight, ← hneg, ← hiff, Transfers.offsetOf, Int.neg_tdiv]
  dsimp only
  by_cases hinv : t.Inverted
  · by_cases hread : t.InvertedRead
    · rw [if_pos hread, if_pos hinv, if_pos (iff_of_true hinv hread), quotient_neg_toInt, Int.neg_tdiv, Int.neg_neg,
        Int.neg_neg]
      exact eq_comm
    · rw [if_neg hread, if_pos hinv, if_neg fun h => hread (h.mp hinv), quotient_toInt, Int.neg_tdiv, Int.neg_neg]
      exact eq_comm
  · by_cases hread : t.InvertedRead
    · rw [if_pos hread, if_neg hinv, if_neg fun h => hinv (h.mpr hread), quotient_neg_toInt, Int.neg_tdiv, Int.neg_neg]
      omega
    · rw [if_neg hread, if_neg hinv, if_pos (iff_of_false hinv hread), quotient_toInt, Int.neg_tdiv, Int.neg_inj]
      exact eq_comm

end Offset

/-- Registers that hold `6 * 29360 + 1`. -/
def smallOffset : Transfers :=
  ⟨fun _ => .done, .done,
    fun reg => if reg = 0x4d then 0x02 else if reg = 0x4e then 0xb0 else if reg = 0x4f then 0x21 else 0⟩

theorem carrier_offset_small :
    (caroffst smallOffset (fun _ => 0) .dvbt 8000000).2.1.toInt = smallOffset.offsetOf 29360 :=
  (carrier_offset_iff smallOffset (fun _ => 0) 8000000 29360 rfl rfl rfl rfl rfl).2.2.mpr (by decide)

/-- All ones are minus one, whose quotient is zero; the code reports `-571`. -/
theorem not_carrier_offset : ¬∀ (t : Transfers) (data : Data) (bw : UInt32) (k : Int32), t.Ok 0 → t.Ok 1 → t.Ok 2 →
    t.release.ok = true → caroffstDiv bw = some k → (caroffst t data .dvbt bw).2.1.toInt = t.offsetOf k := by
  intro hall
  have h := hall ⟨fun _ => .done, .done, fun reg => if reg = 0x07c6 ∨ reg = 0xc6 then 0 else 0xff⟩ (fun _ => 0) 8000000 29360
    rfl rfl rfl rfl rfl
  exact absurd h (by decide)

end BgtDvb.Cxd2817
