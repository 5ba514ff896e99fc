import BgtDvb.Cxd2850Ber
import BgtDvb.Lib.EarlyStop

/-!
# The spur of the sampling clock of the CXD2850

`cxd2850_tune` looks for the multiple of the sampling clock that is nearest to the frequency, and writes
its distance as a fraction of the clock into a pair of registers if it falls into the band of the signal.
Frequencies and clocks are in kHz, symbol rates in kS/s.

* `fSpur_nearest` — **PROVED**: the search finds the nearest multiple of all;
* `tune_spur` — **PROVED**: no product is too large, and the registers hold the whole offset.
-/

namespace BgtDvb.Cxd2850

open BgtDvb.EarlyStop

/-! ### The search -/

/-- What the function reads: register `0x0050` twice, and register `0x00D0`. -/
structure TuneRegs where
  hsMode : UInt8
  clock : UInt8
  spurOn : UInt8

/-- `fck` -/
def fckOf (r : TuneRegs) : ℕ :=
  if r.clock &&& 0x20 ≠ 0 then
    if r.hsMode &&& 0x10 ≠ 0 then 97875 else 65250
  else
    if r.hsMode &&& 0x10 ≠ 0 then 96000 else 64000

/-- `tmp` in the pass at `N`: `(s32)(N * fck) - (s32)frequency`. -/
def spurTmp (fck frequency : ℕ) (N : ℕ) : ℤ := ((N * fck : ℕ) : ℤ) - frequency

/-- `f_spur`: the loop begins with the frequency in hand, and breaks off where a distance is larger
than the one before. -/
def fSpur (fck frequency : ℕ) : ℤ := lastFall (fun x : ℤ => |x|) (spurTmp fck frequency) 50 0 frequency

theorem monotone_spurTmp (fck frequency : ℕ) : Monotone (spurTmp fck frequency) := by
  intro N M hNM
  apply sub_le_sub_right
  exact Int.ofNat_le.mpr (Nat.mul_le_mul_right fck hNM)

theorem fckOf_range (r : TuneRegs) : 64000 ≤ fckOf r ∧ fckOf r ≤ 97875 := by
  unfold fckOf
  split_ifs <;> decide

/-- **The nearest multiple** is found: no other one that is tried is nearer, and none behind them. -/
theorem fSpur_nearest {fck frequency : ℕ} (hfck : 64000 ≤ fck) (hfreq : frequency ≤ 2150000) :
    ∃ N < 50, fSpur fck frequency = spurTmp fck frequency N ∧
      ∀ M, |spurTmp fck frequency N| ≤ |spurTmp fck frequency M| := by
  have hmono := monotone_spurTmp fck frequency
  have hstart : |spurTmp fck frequency 0| ≤ |(frequency : ℤ)| := by
    rw [spurTmp, Nat.zero_mul, Nat.cast_zero, zero_sub, abs_neg]
  obtain ⟨N, hN, heq, hall⟩ := lastFall_start (valley_abs hmono) 49 hstart
  refine ⟨N, hN, heq, fun M => ?_⟩
  rcases Nat.lt_or_ge M 50 with hM | hM
  · exact hall M hM
  · have hlast : 0 ≤ spurTmp fck frequency 49 := by
      have hfar : frequency ≤ 49 * fck := by omega
      exact sub_nonneg.mpr (Int.ofNat_le.mpr hfar)
    have hle : spurTmp fck frequency 49 ≤ spurTmp fck frequency M := hmono (by omega)
    calc |spurTmp fck frequency N| ≤ |spurTmp fck frequency 49| := hall 49 (by decide)
      _ ≤ |spurTmp fck frequency M| := abs_le_abs_of_nonneg hlast hle

/-! ### The function -/

/-- A product of two `s32`. -/
def mulS32 (a b : ℤ) : Option ℤ := if -2 ^ 31 ≤ a * b ∧ a * b < 2 ^ 31 then some (a * b) else none

/-- `(u8)((u16)Nsf >> 8)` -/
def highByte (nsf : BitVec 16) : UInt8 := UInt8.ofNat (nsf >>> 8).toNat

/-- `(u8)((u16)Nsf & 0xFF)` -/
def lowByte (nsf : BitVec 16) : UInt8 := UInt8.ofNat (nsf &&& 0xff).toNat

/-- The writes about the spur; `Nsf` is an `s16`. -/
def spurWrites (r : TuneRegs) (fck : ℕ) (fspur : ℤ) (srate : ℕ) : Option (List Write) :=
  if |fspur| ≤ (srate / 2 : ℕ) ∧ r.spurOn &&& 0x01 = 0x01 then do
    let p ← mulS32 fspur 65536
    let nsf := BitVec.ofInt 16 (p.tdiv fck)
    return [⟨0x4520, [0x00]⟩, ⟨0x4522, [0x0C]⟩, ⟨0x4523, [highByte nsf]⟩, ⟨0x4524, [lowByte nsf]⟩]
  else some [⟨0x4520, [0x01]⟩]

/-- `cxd2850_set_srate` -/
def setSrate (ok : ℕ → Bool) (srate : UInt32) : ℤ × List Write :=
  let val := (srate * 16384 + 500) / 1000
  if val > 0x0FFFFF then (-einval, [])
  else runWrites ok 0 [⟨0x4420, [((val >>> 16) &&& 0x0F).toUInt8, ((val >>> 8) &&& 0xFF).toUInt8, (val &&& 0xFF).toUInt8]⟩]

/-- `cxd2850_tune`: the result and the writes; `ok i` says whether the `i`-th transfer succeeds, the
symbol rate's first, three reads, and the other writes. -/
def tune (ok : ℕ → Bool) (r : TuneRegs) (frequency srate : UInt32) : Option (ℤ × List Write) :=
  let s := setSrate ok srate
  if s.1 ≠ 0 then some s
  else if ok 1 = false ∨ ok 2 = false then some (-eremoteio, s.2)
  else
    let fspur := fSpur (fckOf r) frequency.toNat
    if ok 3 = false then some (-eremoteio, s.2)
    else do
      let ws ← spurWrites r (fckOf r) fspur srate.toNat
      let t := runWrites ok 4 (ws ++ [⟨0x00FF, [0x01]⟩, ⟨0x00E6, [0x00]⟩])
      return (t.1, s.2 ++ t.2)

/-! ### The offset -/

def offsetOf (hi lo : UInt8) : ℤ := (BitVec.ofNat 16 (hi.toNat * 256 + lo.toNat)).toInt

theorem offsetOf_bytes (nsf : BitVec 16) : offsetOf (highByte nsf) (lowByte nsf) = nsf.toInt := by
  have hlt := nsf.isLt
  have hhigh : (highByte nsf).toNat = nsf.toNat / 256 := by
    rw [highByte, UInt8.toNat_ofNat', BitVec.toNat_ushiftRight, Nat.shiftRight_eq_div_pow]
    omega
  have hlow : (lowByte nsf).toNat = nsf.toNat % 256 := by
    rw [lowByte, UInt8.toNat_ofNat', BitVec.toNat_and]
    have hmask : nsf.toNat &&& (0xff : BitVec 16).toNat = nsf.toNat % 256 := Nat.and_two_pow_sub_one_eq_mod _ 8
    rw [hmask]
    omega
  have hsum : nsf.toNat / 256 * 256 + nsf.toNat % 256 = nsf.toNat := by omega
  rw [offsetOf, hhigh, hlow, hsum, BitVec.ofNat_toNat, BitVec.setWidth_eq]

theorem offset_range {fck : ℕ} (hfck : 64000 ≤ fck) {fspur : ℤ} (hband : |fspur| ≤ 22500) :
    (-2 ^ 31 ≤ fspur * 65536 ∧ fspur * 65536 < 2 ^ 31) ∧
      -2 ^ 15 ≤ (fspur * 65536).tdiv fck ∧ (fspur * 65536).tdiv fck < 2 ^ 15 := by
  obtain ⟨hlo, hhi⟩ := abs_le.mp hband
  have hnat : ((fspur * 65536).tdiv fck).natAbs = (fspur * 65536).natAbs / fck := Int.natAbs_tdiv _ _
  have hsmall : (fspur * 65536).natAbs / fck ≤ 1474560000 / 64000 := Nat.div_le_div (by omega) hfck (by decide)
  omega

/-- The spur is in the band of the signal, and the demodulator has it switched on. -/
def InBand (r : TuneRegs) (fspur : ℤ) (srate : ℕ) : Prop := |fspur| ≤ (srate / 2 : ℕ) ∧ r.spurOn &&& 0x01 = 0x01

theorem spurWrites_spec (r : TuneRegs) {fck : ℕ} (hfck : 64000 ≤ fck) (fspur : ℤ) {srate : ℕ} (hsrate : srate ≤ 45000) :
    ∃ ws, spurWrites r fck fspur srate = some ws ∧
      (InBand r fspur srate → ∃ hi lo, ⟨0x4523, [hi]⟩ ∈ ws ∧ ⟨0x4524, [lo]⟩ ∈ ws) ∧
      ∀ hi lo, ⟨0x4523, [hi]⟩ ∈ ws → ⟨0x4524, [lo]⟩ ∈ ws →
        (-2 ^ 31 ≤ fspur * 65536 ∧ fspur * 65536 < 2 ^ 31) ∧ offsetOf hi lo = (fspur * 65536).tdiv fck := by
  unfold spurWrites
  by_cases hguard : |fspur| ≤ (srate / 2 : ℕ) ∧ r.spurOn &&& 0x01 = 0x01
  · obtain ⟨hprod, hword⟩ := offset_range hfck (hguard.1.trans (by omega) : |fspur| ≤ 22500)
    rw [if_pos hguard, mulS32, if_pos hprod]
    refine ⟨_, rfl, fun _ => ⟨highByte (BitVec.ofInt 16 ((fspur * 65536).tdiv fck)),
      lowByte (BitVec.ofInt 16 ((fspur * 65536).tdiv fck)), by simp, by simp⟩, fun hi lo hhi hlo => ⟨hprod, ?_⟩⟩
    have hhigh : hi = highByte (BitVec.ofInt 16 ((fspur * 65536).tdiv fck)) := by simpa using hhi
    have hlow : lo = lowByte (BitVec.ofInt 16 ((fspur * 65536).tdiv fck)) := by simpa using hlo
    rw [hhigh, hlow, offsetOf_bytes, BitVec.toInt_ofInt, Int.bmod_def]
    omega
  · rw [if_neg hguard]
    refine ⟨_, rfl, fun h => absurd h hguard, fun hi lo hhi _ => ?_⟩
    simp at hhi

theorem setSrate_addr (ok : ℕ → Bool) (srate : UInt32) {w : Write} (hw : w ∈ (setSrate ok srate).2) :
    w.addr = 0x4420 := by
  dsimp only [setSrate] at hw
  split_ifs at hw
  · cases hw
  · have hmem := (runWrites_begin ok 0 _).1.subset hw
    rw [List.mem_singleton.mp hmem]

def tuneEnd : List Write := [⟨0x00FF, [0x01]⟩, ⟨0x00E6, [0x00]⟩]

theorem tuneEnd_addr {w : Write} (hw : w ∈ tuneEnd) : w.addr = 0x00FF ∨ w.addr = 0x00E6 := by
  rcases List.mem_cons.mp hw with rfl | hw
  · exact .inl rfl
  · rw [List.mem_singleton.mp hw]
    exact .inr rfl

theorem tune_cases (ok : ℕ → Bool) (r : TuneRegs) (frequency srate : UInt32) {ws : List Write}
    (hws : spurWrites r (fckOf r) (fSpur (fckOf r) frequency.toNat) srate.toNat = some ws) :
    ∃ ret log, tune ok r frequency srate = some (ret, log) ∧
      (ret ≠ 0 ∧ log = (setSrate ok srate).2 ∨
        ret = (runWrites ok 4 (ws ++ tuneEnd)).1 ∧
          log = (setSrate ok srate).2 ++ (runWrites ok 4 (ws ++ tuneEnd)).2) := by
  have hio : -eremoteio ≠ 0 := by decide
  dsimp only [tune]
  by_cases hrate : (setSrate ok srate).1 ≠ 0
  · exact ⟨_, _, if_pos hrate, .inl ⟨hrate, rfl⟩⟩
  rw [if_neg hrate]
  by_cases hreads : ok 1 = false ∨ ok 2 = false
  · exact ⟨_, _, if_pos hreads, .inl ⟨hio, rfl⟩⟩
  rw [if_neg hreads]
  by_cases hread : ok 3 = false
  · exact ⟨_, _, if_pos hread, .inl ⟨hio, rfl⟩⟩
  rw [if_neg hread, hws]
  exact ⟨_, _, rfl, .inr ⟨rfl, rfl⟩⟩

theorem mem_spurWrites {ok : ℕ → Bool} {srate : UInt32} {ws : List Write} {w : Write}
    (hw : w ∈ (setSrate ok srate).2 ++ (runWrites ok 4 (ws ++ tuneEnd)).2) (hrate : w.addr ≠ 0x4420)
    (hff : w.addr ≠ 0x00FF) (he6 : w.addr ≠ 0x00E6) : w ∈ ws := by
  rcases List.mem_append.mp hw with hw | hw
  · exact absurd (setSrate_addr ok srate hw) hrate
  · rcases List.mem_append.mp ((runWrites_begin ok 4 _).1.subset hw) with hw | hw
    · exact hw
    · rcases tuneEnd_addr hw with h | h
      · exact absurd h hff
      · exact absurd h he6

/-- **The spur of the sampling clock**, for every frequency and symbol rate of the demodulator: the search finds the
nearest multiple; whatever becomes of the transfers no product overflows and an offset that is written is the one
computed.  A call that succeeds writes each spur in the band. -/
theorem tune_spur (ok : ℕ → Bool) (r : TuneRegs) (frequency srate : UInt32) (hmax : frequency ≤ 2150000)
    (hsrate : srate ≤ 45000) :
    (∃ N < 50, fSpur (fckOf r) frequency.toNat = spurTmp (fckOf r) frequency.toNat N ∧
        ∀ M, |spurTmp (fckOf r) frequency.toNat N| ≤ |spurTmp (fckOf r) frequency.toNat M|) ∧
      ∃ ret ws, tune ok r frequency srate = some (ret, ws) ∧
        (ret = 0 → InBand r (fSpur (fckOf r) frequency.toNat) srate.toNat →
          ∃ hi lo, ⟨0x4523, [hi]⟩ ∈ ws ∧ ⟨0x4524, [lo]⟩ ∈ ws) ∧
        ∀ hi lo, ⟨0x4523, [hi]⟩ ∈ ws → ⟨0x4524, [lo]⟩ ∈ ws →
          (-2 ^ 31 ≤ fSpur (fckOf r) frequency.toNat * 65536 ∧ fSpur (fckOf r) frequency.toNat * 65536 < 2 ^ 31) ∧
            offsetOf hi lo = (fSpur (fckOf r) frequency.toNat * 65536).tdiv (fckOf r) := by
  obtain ⟨hfck, -⟩ := fckOf_range r
  have hfreq : frequency.toNat ≤ 2150000 := UInt32.le_iff_toNat_le.mp hmax
  have hrate : srate.toNat ≤ 45000 := UInt32.le_iff_toNat_le.mp hsrate
  refine ⟨fSpur_nearest hfck hfreq, ?_⟩
  obtain ⟨ws, hws, hwritten, hspec⟩ := spurWrites_spec r hfck (fSpur (fckOf r) frequency.toNat) hrate
  have hnone : ∀ {w : Write}, w.addr ≠ 0x4420 → w ∉ (setSrate ok srate).2 := fun haddr hw =>
    haddr (setSrate_addr ok srate hw)
  have hhigh : ∀ hi, (⟨0x4523, [hi]⟩ : Write).addr ≠ 0x4420 := fun _ => by simp
  obtain ⟨ret, log, htune, ⟨hret, rfl⟩ | ⟨rfl, rfl⟩⟩ := tune_cases ok r frequency srate hws
  · exact ⟨ret, _, htune, fun h => absurd h hret, fun hi _ hhi => absurd hhi (hnone (hhigh hi))⟩
  · refine ⟨_, _, htune, fun hret hband => ?_, fun hi lo hhi hlo => ?_⟩
    · obtain ⟨hi, lo, hhi, hlo⟩ := hwritten hband
      rw [(runWrites_begin ok 4 (ws ++ tuneEnd)).2 hret]
      exact ⟨hi, lo, List.mem_append_right _ (List.mem_append_left _ hhi),
        List.mem_append_right _ (List.mem_append_left _ hlo)⟩
    · exact hspec hi lo (mem_spurWrites hhi (hhigh hi) (by simp) (by simp))
        (mem_spurWrites hlo (by simp) (by simp) (by simp))

/-- 1100 MHz at 27500 kS/s with a clock of 64 MHz: the seventeenth multiple is 12 MHz away. -/
theorem tune_spur_1100 :
    (1100000 : UInt32) ≤ 2150000 ∧ (27500 : UInt32) ≤ 45000 ∧
      ∃ N < 50, fSpur (fckOf ⟨0, 0, 1⟩) (1100000 : UInt32).toNat = spurTmp (fckOf ⟨0, 0, 1⟩) (1100000 : UInt32).toNat N :=
  ⟨by decide, by decide, by
    obtain ⟨⟨N, hN, heq, -⟩, -⟩ := tune_spur (fun _ => true) ⟨0, 0, 1⟩ 1100000 27500 (by decide) (by decide)
    exact ⟨N, hN, heq⟩⟩

end BgtDvb.Cxd2850
