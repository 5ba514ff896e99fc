import BgtDvb.Lib.ByteField
import BgtDvb.Lib.StagedDiv
import BgtDvb.Lib.Words

/-!
# Frequencies of the STV6110

`frontends/stv6110x.c` keeps a copy of the eight registers of the tuner.  `stv6110x_set_frequency`
packs a divider into fields of the copy and writes the registers; `stv6110x_get_frequency` reads them
again and takes the divider apart.  Frequencies are in kHz, and neither function looks at the result of
a transfer.

* `setFrequency_spec`, `getFrequency_spec` — **PROVED**: what each of them does;
* `frequency_roundtrip` — **PROVED**: the frequency that comes back is the nearest multiple of a MHz.
-/

namespace BgtDvb.Stv6110x

open BgtDvb.StagedDiv

/-! ### Registers -/

/-- The registers by their numbers. -/
inductive Reg where
  | ctrl1 | ctrl2 | tng0 | tng1 | ctrl3 | stat1 | stat2 | stat3
deriving DecidableEq

def ctrl1K : ByteField := .of 3 5
def tng0NDiv7_0 : ByteField := .of 0 8
def tng1RDiv : ByteField := .of 6 2
def tng1Presc32On : ByteField := .of 5 1
def tng1Div4Sel : ByteField := .of 4 1
def tng1NDiv11_8 : ByteField := .of 0 4
def stat1CalvcoStrt : ByteField := .of 2 1

/-- The copy of the registers, and the registers of the tuner. -/
structure Dev where
  regs : Reg → UInt8
  tuner : Reg → UInt8

/-- `STV6110x_SETFIELD` on the copy. -/
def setField (regs : Reg → UInt8) (r : Reg) (f : ByteField) (val : ℕ) : Reg → UInt8 :=
  Function.update regs r (f.set (regs r) val)

/-! ### The functions -/

/-- `R_DIV` -/
def rDivOf (d : ℕ) : ℕ := 1 <<< (d + 1)

/-- `STV6110x_DIV4SEL`, `STV6110x_PRESC32_ON` and `pVal` for a frequency. -/
def bandOf (frequency : ℕ) : ℕ × ℕ × ℕ :=
  if frequency ≤ 1023000 then (1, 0, 40)
  else if frequency ≤ 1300000 then (1, 1, 40)
  else if frequency ≤ 2046000 then (0, 0, 20)
  else (0, 1, 20)

/-- One pass of the loop over the reference dividers, on `rDivOpt` and `pCalcOpt`. -/
def rDivPass (refKHz pVal : ℕ) (s : ℕ × ℤ) (rDiv : ℕ) : ℕ × ℤ :=
  let pCalc : ℤ := (refKHz / 100 / rDivOf rDiv : ℕ)
  let rDivOpt := if |pCalc - pVal| < |s.2 - pVal| then rDiv else s.1
  (rDivOpt, ((refKHz / 100 / rDivOf rDivOpt : ℕ) : ℤ))

/-- `rDivOpt` after the loop. -/
def rDivOpt (refKHz pVal : ℕ) : ℕ := ((List.range 4).foldl (rDivPass refKHz pVal) (0, 1000)).1

/-- `divider` -/
def dividerOf (refKHz frequency : ℕ) : Option ℕ := do
  let pVal := (bandOf frequency).2.2
  let p ← mul 32 frequency (rDivOf (rDivOpt refKHz pVal))
  let p ← mul 32 p pVal
  return (p / refKHz + 5) / 10

/-- The updates of the copy; `LSB` and `MSB` of the divider go to two registers. -/
def setFields (refclk frequency divider : ℕ) (regs : Reg → UInt8) : Reg → UInt8 :=
  let b := bandOf frequency
  let regs := setField regs .ctrl1 ctrl1K ((refclk / 1000000 + (2 ^ 32 - 16)) % 2 ^ 32)
  let regs := setField regs .tng1 tng1Div4Sel b.1
  let regs := setField regs .tng1 tng1Presc32On b.2.1
  let regs := setField regs .tng1 tng1RDiv (rDivOpt (refclk / 1000) b.2.2)
  let regs := setField regs .tng1 tng1NDiv11_8 ((divider >>> 8) &&& 0xff)
  let regs := setField regs .tng0 tng0NDiv7_0 (divider &&& 0xff)
  setField regs .stat1 stat1CalvcoStrt 1

/-- `stv6110x_write_reg` for a register of the copy, which the tuner takes or not. -/
def writeReg (took : Reg → Bool) (d : Dev) (r : Reg) : Dev :=
  if took r = true then { d with tuner := Function.update d.tuner r (d.regs r) } else d

/-- The loop that waits for the calibration: what each read of `STV6110x_STAT1` brings, nothing if the
transfer fails. -/
def waitCalvco : List (Option UInt8) → (Reg → UInt8) → Reg → UInt8
  | [], regs => regs
  | reading :: readings, regs =>
    let regs := match reading with
      | none => regs
      | some data => Function.update regs .stat1 data
    if stat1CalvcoStrt.get (regs .stat1) = 0 then regs else waitCalvco readings regs

/-- `stv6110x_set_frequency`; `status i` is the `i`-th read of `STV6110x_STAT1`. -/
def setFrequency (refclk : ℕ) (took : Reg → Bool) (status : ℕ → Option UInt8) (d : Dev) (frequency : ℕ) :
    Option (ℤ × Dev) := do
  let divider ← dividerOf (refclk / 1000) frequency
  let d := { d with regs := setFields refclk frequency divider d.regs }
  let d := [Reg.ctrl1, .tng1, .tng0, .stat1].foldl (writeReg took) d
  return (0, { d with regs := waitCalvco ((List.range 10).map status) d.regs })

/-- `stv6110x_read_reg` into the copy. -/
def readReg (read : Reg → Bool) (d : Dev) (r : Reg) : Dev :=
  if read r = true then { d with regs := Function.update d.regs r (d.tuner r) } else d

/-- `stv6110x_get_frequency` -/
def getFrequency (refclk : ℕ) (read : Reg → Bool) (d : Dev) : Option (ℤ × ℕ × Dev) := do
  let d := readReg read (readReg read d .tng1) .tng0
  let n := (tng1NDiv11_8.get (d.regs .tng1) <<< 8) ||| tng0NDiv7_0.get (d.regs .tng0)
  let p ← mul 32 n (refclk / 1000)
  let frequency := p / 1 <<< (tng1RDiv.get (d.regs .tng1) + tng1Div4Sel.get (d.regs .tng1))
  return (0, frequency >>> 2, d)

/-! ### Fields -/

/-- The fields of each register that `stv6110x_set_frequency` is meant to change. -/
def intended : Reg → List ByteField
  | .ctrl1 => [ctrl1K]
  | .tng0 => [tng0NDiv7_0]
  | .tng1 => [tng1RDiv, tng1Presc32On, tng1Div4Sel, tng1NDiv11_8]
  | .stat1 => [stat1CalvcoStrt]
  | .ctrl2 | .ctrl3 | .stat2 | .stat3 => []

def OnlyFields (r : Reg) (before after : UInt8) : Prop :=
  ∀ i < 8, (∀ f ∈ intended r, ¬ f.Covers i) → after.toNat.testBit i = before.toNat.testBit i

theorem OnlyFields.refl (r : Reg) (b : UInt8) : OnlyFields r b b := fun _ _ _ => rfl

theorem OnlyFields.trans {r : Reg} {a b c : UInt8} (h : OnlyFields r a b) (h' : OnlyFields r b c) : OnlyFields r a c :=
  fun i hi hout => (h' i hi hout).trans (h i hi hout)

theorem onlyFields_setField {regs : Reg → UInt8} {r : Reg} {f : ByteField} {val : ℕ} (hf : f ∈ intended r)
    (hval : val < 2 ^ f.width) (q : Reg) : OnlyFields q (regs q) (setField regs r f val q) := by
  by_cases hq : q = r
  · subst hq
    intro i hi hout
    rw [setField, Function.update_self]
    exact f.testBit_set_of_not_covers _ hval hi (hout f hf)
  · rw [setField, Function.update_of_ne hq]
    exact OnlyFields.refl q _

/-! ### The divider -/

theorem bandOf_cases (frequency : ℕ) :
    (bandOf frequency).1 = 1 ∧ (bandOf frequency).2.1 ≤ 1 ∧ (bandOf frequency).2.2 = 40 ∨
      (bandOf frequency).1 = 0 ∧ (bandOf frequency).2.1 ≤ 1 ∧ (bandOf frequency).2.2 = 20 := by
  unfold bandOf
  split_ifs <;> decide

theorem rDivOpt_forty : rDivOpt 16000 40 = 1 := by decide

theorem rDivOpt_twenty : rDivOpt 16000 20 = 2 := by decide

theorem band_shift (frequency : ℕ) : rDivOpt 16000 (bandOf frequency).2.2 + (bandOf frequency).1 = 2 := by
  rcases bandOf_cases frequency with ⟨hsel, -, hpVal⟩ | ⟨hsel, -, hpVal⟩
  · rw [hsel, hpVal, rDivOpt_forty]
  · rw [hsel, hpVal, rDivOpt_twenty]

variable {frequency divider : ℕ}

theorem dividerOf_eq (hmax : frequency ≤ 2150000) : dividerOf 16000 frequency = some ((frequency / 100 + 5) / 10) := by
  have hquot : frequency * 160 / 16000 = frequency / 100 := by omega
  unfold dividerOf
  rcases bandOf_cases frequency with ⟨-, -, hpVal⟩ | ⟨-, -, hpVal⟩
  · have hfit : frequency * rDivOf 1 * 40 = frequency * 160 := by
      show frequency * 4 * 40 = _
      ring
    have hfour : frequency * rDivOf 1 < 2 ^ 32 := by
      show frequency * 4 < 2 ^ 32
      omega
    simp only [hpVal, rDivOpt_forty, mul, fit, if_pos hfour, Option.bind_eq_bind, Option.bind_some, hfit]
    rw [if_pos (by omega), Option.bind_some, hquot]
    rfl
  · have hfit : frequency * rDivOf 2 * 20 = frequency * 160 := by
      show frequency * 8 * 20 = _
      ring
    have height : frequency * rDivOf 2 < 2 ^ 32 := by
      show frequency * 8 < 2 ^ 32
      omega
    simp only [hpVal, rDivOpt_twenty, mul, fit, if_pos height, Option.bind_eq_bind, Option.bind_some, hfit]
    rw [if_pos (by omega), Option.bind_some, hquot]
    rfl

theorem nearest (frequency : ℕ) :
    |(((frequency / 100 + 5) / 10 * 1000 : ℕ) : ℤ) - frequency| ≤ 500 ∧
      ∀ k : ℕ, |(((frequency / 100 + 5) / 10 * 1000 : ℕ) : ℤ) - frequency| ≤ |((k * 1000 : ℕ) : ℤ) - frequency| := by
  have hlo : frequency ≤ (frequency / 100 + 5) / 10 * 1000 + 500 := by omega
  have hhi : (frequency / 100 + 5) / 10 * 1000 ≤ frequency + 500 := by omega
  have hdist : |(((frequency / 100 + 5) / 10 * 1000 : ℕ) : ℤ) - frequency| ≤ 500 := by
    rw [abs_le]
    omega
  refine ⟨hdist, fun k => ?_⟩
  by_cases hk : k = (frequency / 100 + 5) / 10
  · rw [hk]
  · refine hdist.trans (le_abs.mpr ?_)
    omega

/-! ### The registers after an update -/

theorem band_fits (frequency : ℕ) :
    (bandOf frequency).1 < 2 ∧ (bandOf frequency).2.1 < 2 ∧ rDivOpt 16000 (bandOf frequency).2.2 < 4 := by
  rcases bandOf_cases frequency with ⟨h1, h2, h3⟩ | ⟨h1, h2, h3⟩
  · rw [h1, h3, rDivOpt_forty]
    omega
  · rw [h1, h3, rDivOpt_twenty]
    omega

theorem divider_parts (hdivider : divider < 2 ^ 12) :
    (divider >>> 8) &&& 0xff = divider / 256 ∧ divider &&& 0xff = divider % 256 ∧
      divider / 256 < 2 ^ tng1NDiv11_8.width ∧ divider % 256 < 2 ^ tng0NDiv7_0.width := by
  have hmask : (divider >>> 8) &&& 0xff = divider >>> 8 % 2 ^ 8 := Nat.and_two_pow_sub_one_eq_mod _ 8
  have hhigh : divider / 256 < 2 ^ 4 := by omega
  refine ⟨?_, Nat.and_two_pow_sub_one_eq_mod _ 8, hhigh, Nat.mod_lt _ (by decide)⟩
  rw [hmask, Nat.shiftRight_eq_div_pow]
  omega

theorem setFields_only (frequency : ℕ) (hdivider : divider < 2 ^ 12) (regs : Reg → UInt8) (r : Reg) :
    OnlyFields r (regs r) (setFields 16000000 frequency divider regs r) := by
  obtain ⟨hdiv4, hpresc, hrdiv⟩ := band_fits frequency
  obtain ⟨hhigh, hlow, hnhigh, hnlow⟩ := divider_parts hdivider
  rw [← hhigh] at hnhigh
  rw [← hlow] at hnlow
  exact (onlyFields_setField (by decide) (by decide) r).trans <|
    (onlyFields_setField (by decide) hdiv4 r).trans <|
    (onlyFields_setField (by decide) hpresc r).trans <|
    (onlyFields_setField (by decide) hrdiv r).trans <|
    (onlyFields_setField (by decide) hnhigh r).trans <|
    (onlyFields_setField (by decide) hnlow r).trans (onlyFields_setField (by decide) (by decide) r)

theorem setFields_spec (frequency : ℕ) (hdivider : divider < 2 ^ 12) (regs : Reg → UInt8) :
    let after := setFields 16000000 frequency divider regs
    tng1Div4Sel.get (after .tng1) = (bandOf frequency).1 ∧
      tng1RDiv.get (after .tng1) = rDivOpt 16000 (bandOf frequency).2.2 ∧
      tng1NDiv11_8.get (after .tng1) = divider / 256 ∧ tng0NDiv7_0.get (after .tng0) = divider % 256 ∧
      ∀ r, OnlyFields r (regs r) (after r) := by
  intro after
  obtain ⟨hdiv4, hpresc, hrdiv⟩ := band_fits frequency
  obtain ⟨hhigh, hlow, hnhigh, hnlow⟩ := divider_parts hdivider
  have htng1 : after .tng1 = tng1NDiv11_8.set (tng1RDiv.set (tng1Presc32On.set (tng1Div4Sel.set (regs .tng1)
      (bandOf frequency).1) (bandOf frequency).2.1) (rDivOpt 16000 (bandOf frequency).2.2)) (divider / 256) := by
    rw [← hhigh]
    rfl
  have htng0 : after .tng0 = tng0NDiv7_0.set (regs .tng0) (divider % 256) := by
    rw [← hlow]
    rfl
  refine ⟨?_, ?_, ?_, ?_, setFields_only frequency hdivider regs⟩
  · rw [htng1, ByteField.get_set_of_apart (by decide) _ hnhigh, ByteField.get_set_of_apart (by decide) _ hrdiv,
      ByteField.get_set_of_apart (by decide) _ hpresc, ByteField.get_set]
    exact Nat.mod_eq_of_lt hdiv4
  · rw [htng1, ByteField.get_set_of_apart (by decide) _ hnhigh, ByteField.get_set]
    exact Nat.mod_eq_of_lt hrdiv
  · rw [htng1, ByteField.get_set]
    exact Nat.mod_eq_of_lt hnhigh
  · rw [htng0, ByteField.get_set]
    exact Nat.mod_eq_of_lt hnlow

/-! ### The functions -/

/-- Waiting changes the copy of the status register only, to a status that the tuner reported. -/
theorem waitCalvco_spec (readings : List (Option UInt8)) (regs : Reg → UInt8) :
    (∀ r, r ≠ .stat1 → waitCalvco readings regs r = regs r) ∧
      (waitCalvco readings regs .stat1 = regs .stat1 ∨ some (waitCalvco readings regs .stat1) ∈ readings) := by
  induction readings generalizing regs with
  | nil => exact ⟨fun _ _ => rfl, .inl rfl⟩
  | cons reading readings ih =>
    cases reading with
    | none =>
      obtain ⟨hothers, hstat1⟩ := ih regs
      dsimp only [waitCalvco]
      split_ifs
      · exact ⟨fun _ _ => rfl, .inl rfl⟩
      · exact ⟨hothers, hstat1.imp_right (List.mem_cons_of_mem _)⟩
    | some data =>
      obtain ⟨hothers, hstat1⟩ := ih (Function.update regs .stat1 data)
      dsimp only [waitCalvco]
      split_ifs
      · exact ⟨fun r hr => Function.update_of_ne hr _ _, .inr (List.mem_cons.mpr (.inl (by rw [Function.update_self])))⟩
      · refine ⟨fun r hr => (hothers r hr).trans (Function.update_of_ne hr _ _), .inr ?_⟩
        rcases hstat1 with hkept | hmem
        · rw [hkept, Function.update_self]
          exact List.mem_cons_self
        · exact List.mem_cons_of_mem _ hmem

/-- The copy of the registers after `stv6110x_set_frequency`: the intended fields, and the last status. -/
structure Copied (status : ℕ → Option UInt8) (before after : Reg → UInt8) : Prop where
  others : ∀ r, r ≠ .stat1 → OnlyFields r (before r) (after r)
  stat1 : OnlyFields .stat1 (before .stat1) (after .stat1) ∨ ∃ i < 10, status i = some (after .stat1)

theorem Copied.read_back {status : ℕ → Option UInt8} {before after back : Reg → UInt8} (h : Copied status before after)
    (h1 : OnlyFields .tng1 (before .tng1) (back .tng1)) (h0 : OnlyFields .tng0 (before .tng0) (back .tng0))
    (hothers : ∀ r, r ≠ .tng1 → r ≠ .tng0 → back r = after r) : Copied status before back := by
  constructor
  · intro r hr
    by_cases hr1 : r = .tng1
    · rw [hr1]
      exact h1
    · by_cases hr0 : r = .tng0
      · rw [hr0]
        exact h0
      · rw [hothers r hr1 hr0]
        exact h.others r hr
  · rw [hothers .stat1 (by decide) (by decide)]
    exact h.stat1

theorem writeRegs_spec (took : Reg → Bool) (rs : List Reg) (d : Dev) :
    (rs.foldl (writeReg took) d).regs = d.regs ∧
      ∀ r, took r = true → r ∈ rs ∨ d.tuner r = d.regs r → (rs.foldl (writeReg took) d).tuner r = d.regs r := by
  induction rs generalizing d with
  | nil => exact ⟨rfl, fun r _ hr => hr.resolve_left List.not_mem_nil⟩
  | cons q rs ih =>
    obtain ⟨hregs, htuner⟩ := ih (writeReg took d q)
    have hkept : (writeReg took d q).regs = d.regs := by
      unfold writeReg
      split_ifs <;> rfl
    rw [List.foldl_cons]
    rw [hkept] at hregs htuner
    refine ⟨hregs, fun r htook hr => htuner r htook ?_⟩
    by_cases hq : r = q
    · subst hq
      right
      rw [writeReg, if_pos htook]
      exact Function.update_self _ _ _
    · rcases hr with hr | hr
      · exact .inl ((List.mem_cons.mp hr).resolve_left hq)
      · right
        unfold writeReg
        split_ifs
        · exact (Function.update_of_ne hq _ _).trans hr
        · exact hr

/-- **`stv6110x_set_frequency`**: whatever becomes of the transfers, it succeeds. -/
theorem setFrequency_eq (took : Reg → Bool) (status : ℕ → Option UInt8) (d : Dev) (hmax : frequency ≤ 2150000) :
    let regs := setFields 16000000 frequency ((frequency / 100 + 5) / 10) d.regs
    setFrequency 16000000 took status d frequency =
      some (0, ⟨waitCalvco ((List.range 10).map status) regs,
        ([Reg.ctrl1, .tng1, .tng0, .stat1].foldl (writeReg took) ⟨regs, d.tuner⟩).tuner⟩) := by
  intro regs
  obtain ⟨hcopy, -⟩ := writeRegs_spec took [.ctrl1, .tng1, .tng0, .stat1] ⟨regs, d.tuner⟩
  have hwaited : waitCalvco ((List.range 10).map status)
      ([Reg.ctrl1, .tng1, .tng0, .stat1].foldl (writeReg took) ⟨regs, d.tuner⟩).regs =
        waitCalvco ((List.range 10).map status) regs := by rw [hcopy]
  rw [setFrequency, dividerOf_eq hmax, ← hwaited]
  rfl

theorem setFrequency_spec (took : Reg → Bool) (status : ℕ → Option UInt8) (d : Dev) (hmax : frequency ≤ 2150000) :
    ∃ d', setFrequency 16000000 took status d frequency = some (0, d') ∧ Copied status d.regs d'.regs ∧
      (took .tng1 = true → d'.tuner .tng1 =
        setFields 16000000 frequency ((frequency / 100 + 5) / 10) d.regs .tng1) ∧
      (took .tng0 = true → d'.tuner .tng0 =
        setFields 16000000 frequency ((frequency / 100 + 5) / 10) d.regs .tng0) ∧
      ∀ r, r ≠ .stat1 → d'.regs r = setFields 16000000 frequency ((frequency / 100 + 5) / 10) d.regs r := by
  obtain ⟨-, -, -, -, honly⟩ := setFields_spec frequency (show (frequency / 100 + 5) / 10 < 2 ^ 12 by omega) d.regs
  set regs := setFields 16000000 frequency ((frequency / 100 + 5) / 10) d.regs with hregs
  obtain ⟨-, htuner⟩ := writeRegs_spec took [.ctrl1, .tng1, .tng0, .stat1] ⟨regs, d.tuner⟩
  obtain ⟨hothers, hstat1⟩ := waitCalvco_spec ((List.range 10).map status) regs
  refine ⟨_, setFrequency_eq took status d hmax, ⟨fun r hr => ?_, ?_⟩, fun htook => htuner _ htook (.inl (by decide)),
    fun htook => htuner _ htook (.inl (by decide)), hothers⟩
  · show OnlyFields r (d.regs r) (waitCalvco _ regs r)
    rw [hothers r hr]
    exact honly r
  · rcases hstat1 with hkept | hmem
    · left
      show OnlyFields .stat1 (d.regs .stat1) (waitCalvco _ regs .stat1)
      rw [hkept]
      exact honly .stat1
    · obtain ⟨i, hi, heq⟩ := List.mem_map.mp hmem
      exact .inr ⟨i, List.mem_range.mp hi, heq⟩

/-- **`stv6110x_get_frequency`**: its product fits, whatever the registers hold. -/
theorem getFrequency_eq (read : Reg → Bool) (d : Dev) :
    let e := readReg read (readReg read d .tng1) .tng0
    getFrequency 16000000 read d =
      some (0, ((tng1NDiv11_8.get (e.regs .tng1) * 256 + tng0NDiv7_0.get (e.regs .tng0)) * 16000 /
        2 ^ (tng1RDiv.get (e.regs .tng1) + tng1Div4Sel.get (e.regs .tng1))) / 4, e) := by
  intro e
  have hhigh : tng1NDiv11_8.get (e.regs .tng1) < 16 := ByteField.get_lt _ _
  have hlow : tng0NDiv7_0.get (e.regs .tng0) < 256 := ByteField.get_lt _ _
  have hfit : (tng1NDiv11_8.get (e.regs .tng1) * 256 + tng0NDiv7_0.get (e.regs .tng0)) * 16000 < 2 ^ 32 := by omega
  have hmul : mul 32 ((tng1NDiv11_8.get (e.regs .tng1) <<< 8) ||| tng0NDiv7_0.get (e.regs .tng0)) (16000000 / 1000) =
      some ((tng1NDiv11_8.get (e.regs .tng1) * 256 + tng0NDiv7_0.get (e.regs .tng0)) * 16000) := by
    rw [Words.shiftLeft_or_byte _ hlow]
    exact if_pos hfit
  dsimp only [getFrequency]
  rw [hmul, Option.bind_eq_bind, Option.bind_some, Nat.shiftRight_eq_div_pow, Nat.one_shiftLeft]
  rfl

/-- A read that fails leaves what was written, where that is in the copy too. -/
theorem getFrequency_spec {d : Dev} (read : Reg → Bool) (hsame1 : d.regs .tng1 = d.tuner .tng1)
    (hsame0 : d.regs .tng0 = d.tuner .tng0) (hhigh : tng1NDiv11_8.get (d.tuner .tng1) = divider / 256)
    (hlow : tng0NDiv7_0.get (d.tuner .tng0) = divider % 256)
    (hfour : tng1RDiv.get (d.tuner .tng1) + tng1Div4Sel.get (d.tuner .tng1) = 2) :
    ∃ d', getFrequency 16000000 read d = some (0, divider * 1000, d') ∧ d'.regs .tng1 = d.tuner .tng1 ∧
      d'.regs .tng0 = d.tuner .tng0 ∧ ∀ r, r ≠ .tng1 → r ≠ .tng0 → d'.regs r = d.regs r := by
  have hone : ∀ (e : Dev) (q r : Reg), (readReg read e q).regs r = e.regs r ∨
      r = q ∧ (readReg read e q).regs r = e.tuner r := by
    intro e q r
    unfold readReg
    split_ifs
    · by_cases hq : r = q
      · exact .inr ⟨hq, by rw [hq]; exact Function.update_self _ _ _⟩
      · exact .inl (Function.update_of_ne hq _ _)
    · exact .inl rfl
  have htuner : (readReg read d .tng1).tuner = d.tuner := by
    unfold readReg
    split_ifs <;> rfl
  have hall : ∀ r, (readReg read (readReg read d .tng1) .tng0).regs r = d.regs r ∨
      (r = .tng1 ∨ r = .tng0) ∧ (readReg read (readReg read d .tng1) .tng0).regs r = d.tuner r := by
    intro r
    rcases hone (readReg read d .tng1) .tng0 r with hkept | ⟨hr, hcopied⟩
    · rw [hkept]
      exact (hone d .tng1 r).imp_right fun h => ⟨.inl h.1, h.2⟩
    · exact .inr ⟨.inr hr, by rw [hcopied, htuner]⟩
  have htng1 : (readReg read (readReg read d .tng1) .tng0).regs .tng1 = d.tuner .tng1 :=
    (hall .tng1).elim (fun h => h.trans hsame1) And.right
  have htng0 : (readReg read (readReg read d .tng1) .tng0).regs .tng0 = d.tuner .tng0 :=
    (hall .tng0).elim (fun h => h.trans hsame0) And.right
  have hdown : divider * 16000 / 2 ^ 2 / 4 = divider * 1000 := by omega
  refine ⟨readReg read (readReg read d .tng1) .tng0, ?_, htng1, htng0, fun r hr1 hr0 => ?_⟩
  · rw [getFrequency_eq, htng1, htng0, hhigh, hlow, hfour, Nat.div_add_mod', hdown]
  · exact (hall r).resolve_right fun h => h.1.elim hr1 hr0

/-! ### The round trip -/

/-- **A frequency comes back as the nearest multiple of a MHz**, once the divider went to the tuner, whether or not it
is read back: no product leaves 32 bits, the divider fits its fields, and of the copy only the meant fields have
changed, and the status, to one that was reported. -/
theorem frequency_roundtrip (took read : Reg → Bool) (status : ℕ → Option UInt8) (d : Dev) (frequency : ℕ)
    (hmax : frequency ≤ 2150000) (htook1 : took .tng1 = true) (htook0 : took .tng0 = true) :
    ∃ divider d₁ got d₂, dividerOf 16000 frequency = some divider ∧ divider < 2 ^ 12 ∧
      setFrequency 16000000 took status d frequency = some (0, d₁) ∧ Copied status d.regs d₁.regs ∧
      getFrequency 16000000 read d₁ = some (0, got, d₂) ∧ Copied status d.regs d₂.regs ∧
      |(got : ℤ) - frequency| ≤ 500 ∧ ∀ k : ℕ, |(got : ℤ) - frequency| ≤ |((k * 1000 : ℕ) : ℤ) - frequency| := by
  have hdivider : (frequency / 100 + 5) / 10 < 2 ^ 12 := by omega
  obtain ⟨hdiv4, hrdiv, hhigh, hlow, honly⟩ := setFields_spec frequency hdivider d.regs
  obtain ⟨d₁, hset, hcopied, htng1, htng0, hregs⟩ := setFrequency_spec took status d hmax
  have hsame1 : d₁.regs .tng1 = d₁.tuner .tng1 := (hregs .tng1 (by decide)).trans (htng1 htook1).symm
  have hsame0 : d₁.regs .tng0 = d₁.tuner .tng0 := (hregs .tng0 (by decide)).trans (htng0 htook0).symm
  have honly1 := honly .tng1
  have honly0 := honly .tng0
  rw [← htng1 htook1] at hdiv4 hrdiv hhigh honly1
  rw [← htng0 htook0] at hlow honly0
  have hfour : tng1RDiv.get (d₁.tuner .tng1) + tng1Div4Sel.get (d₁.tuner .tng1) = 2 := by
    rw [hrdiv, hdiv4]
    exact band_shift frequency
  obtain ⟨d₂, hget, hcopy1, hcopy0, hothers⟩ := getFrequency_spec read hsame1 hsame0 hhigh hlow hfour
  obtain ⟨hclose, hnearest⟩ := nearest frequency
  rw [← hcopy1] at honly1
  rw [← hcopy0] at honly0
  have hcopied' : Copied status d.regs d₂.regs := hcopied.read_back honly1 honly0 hothers
  exact ⟨_, d₁, _, d₂, dividerOf_eq hmax, hdivider, hset, hcopied, hget, hcopied', hclose, hnearest⟩

/-- The copy as `stv6110x_attach` leaves it. -/
def attached : Reg → UInt8
  | .ctrl1 => 0x07
  | .ctrl2 => 0x11
  | .tng0 => 0xdc
  | .tng1 => 0x85
  | .ctrl3 => 0x17
  | .stat1 => 0x01
  | .stat2 => 0xe6
  | .stat3 => 0x1e

theorem frequency_roundtrip_1550 :
    ∃ divider d₁ got d₂, dividerOf 16000 1550499 = some divider ∧ divider < 2 ^ 12 ∧
      setFrequency 16000000 (fun _ => true) (fun _ => some 0x01) ⟨attached, attached⟩ 1550499 = some (0, d₁) ∧
      Copied (fun _ => some 0x01) attached d₁.regs ∧
      getFrequency 16000000 (fun _ => true) d₁ = some (0, got, d₂) ∧ Copied (fun _ => some 0x01) attached d₂.regs ∧
      |(got : ℤ) - (1550499 : ℕ)| ≤ 500 ∧ ∀ k : ℕ, |(got : ℤ) - (1550499 : ℕ)| ≤ |((k * 1000 : ℕ) : ℤ) - (1550499 : ℕ)| :=
  frequency_roundtrip (fun _ => true) (fun _ => true) (fun _ => some 0x01) ⟨attached, attached⟩ 1550499
    (by norm_num) rfl rfl

/-- The copy of the status changes outside the field that starts the calibration, when the tuner has not
locked yet; and a tuner that takes no write is not noticed. -/
theorem not_roundtrip_attached :
    (∃ d₁, setFrequency 16000000 (fun _ => true) (fun _ => some 0x00) ⟨attached, attached⟩ 1550000 = some (0, d₁) ∧
      ¬ OnlyFields .stat1 (attached .stat1) (d₁.regs .stat1)) ∧
    ∃ d₁ d₂, setFrequency 16000000 (fun _ => false) (fun _ => none) ⟨attached, attached⟩ 1550000 = some (0, d₁) ∧
      getFrequency 16000000 (fun _ => true) d₁ = some (0, 1500000, d₂) := by
  refine ⟨⟨_, setFrequency_eq _ _ _ (by norm_num), fun honly => ?_⟩,
    _, _, setFrequency_eq _ _ _ (by norm_num), getFrequency_eq _ _⟩
  exact absurd (honly 0 (by decide) (by decide)) (by decide)

end BgtDvb.Stv6110x
