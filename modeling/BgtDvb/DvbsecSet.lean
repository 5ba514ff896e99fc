import BgtDvb.DvbsecCfg
import BgtDvb.DvbsecCommand
import Mathlib.Data.Nat.Dist

/-!
# Tuning with satellite equipment

`dvbsec_set` of `libdvbsec/dvbsec_api.c` switches the satellite equipment to a band, subtracts the frequency of
the local oscillator of a band, and tunes the frontend to the difference.

* `adjust_iff` — **PROVED**: the difference is right exactly if it is less than `2 ^ 31`;
* `dvbsecSet_iff` — **PROVED**: the equipment is told the band of the oscillator exactly if the frequency is not
  the switching frequency itself.
-/

namespace BgtDvb.Dvbsec

open BgtDvb.Dvbcfg (Parameters)

/-! ### The calls -/

def anyDevice : BitVec 32 := 0

/-- `EINVAL` -/
def einval : ℤ := 22

def Polarization.voltage : Polarization → SecVoltage
  | .v | .r => .v13
  | .h | .l => .v18

def Switch.burst : Switch → List Op
  | .a => [.setToneDataBurst false, .usleep 15000]
  | .b => [.setToneDataBurst true, .usleep 15000]
  | .unchanged => []

def Oscillator.tone : Oscillator → List Op
  | .low => [.set22kTone false]
  | .high => [.set22kTone true]
  | .unchanged => []

/-- `dvbsec_std_sequence`: what is performed, and the return value; `none` is a polarization that is none of
the four. -/
def stdSequence (oscillator : Oscillator) (polarization : Option Polarization) (satPos switchOption : Switch) :
    List Op × ℤ :=
  match polarization with
  | none => ([.set22kTone false], -einval)
  | some p =>
    ([.set22kTone false, .setVoltage p.voltage,
      .setCommittedSwitches anyDevice oscillator (some p) satPos switchOption, .usleep 15000] ++
      satPos.burst ++ oscillator.tone, 0)

/-- What `dvbsec_set` calls; a command is the string that the configuration has for a slot. -/
inductive SetCall (Sat : Type)
  | setVoltage (voltage : SecVoltage)
  | stdSequence (oscillator : Oscillator) (polarization : Option Polarization) (satPos switchOption : Switch)
  | command (slot : Slot)
  | feSet (params : Parameters Sat) (timeout : ℤ)
  deriving DecidableEq

def slotOf (high : Bool) : Polarization → Slot
  | .h => if high then .hiH else .loH
  | .v => if high then .hiV else .loV
  | .l => if high then .hiL else .loL
  | .r => if high then .hiR else .loR

/-! ### The function -/

/-- How a part of the function ends. -/
inductive Ends (α : Type)
  | goesOn (value : α)
  | returns (ret : ℤ)
  | undefined
  deriving DecidableEq

def signalsHigh (c : SecConfig) (frequency : BitVec 32) : Bool :=
  c.switchFrequency ≠ 0 ∧ c.switchFrequency < frequency

def subtractsHigh (c : SecConfig) (frequency : BitVec 32) : Bool :=
  ¬(c.switchFrequency = 0 ∨ frequency < c.switchFrequency)

section
variable {Sat : Type}

/-- The switch over the type of the configuration; `regs` are the variables of `dvbsec_command`. -/
def sec (regs : Regs) (c : SecConfig) (polarization : Option Polarization) (satPos switchOption : Switch)
    (frequency : BitVec 32) : List (SetCall Sat) × Ends Unit :=
  match c.configType with
  | .none => ([], .goesOn ())
  | .power => ([.setVoltage .v13], .goesOn ())
  | .standard =>
    let osc := if signalsHigh c frequency then .high else .low
    let tmp := (stdSequence osc polarization satPos switchOption).2
    ([.stdSequence osc polarization satPos switchOption], if tmp < 0 then .returns tmp else .goesOn ())
  | .advanced =>
    match polarization with
    | none => ([], .returns (-einval))
    | some p =>
      let slot := slotOf (signalsHigh c frequency) p
      ([.command slot],
        match dvbsecCommand regs (c.advCmd slot) with
        | none => .undefined
        | some (_, tmp) => if tmp < 0 then .returns tmp else .goesOn ())

def lofOf (c : SecConfig) (polarization : Option Polarization) (frequency : BitVec 32) : BitVec 32 :=
  match polarization with
  | none => 0
  | some p => c.lof (slotOf (subtractsHigh c frequency) p)

/-- The frequency adjustment; `tmpfreq` is an `int`, and C does not define the product of -1 with the least. -/
def adjust (frequency lof : BitVec 32) : Option (BitVec 32) :=
  if lof = 0 then some frequency
  else
    let tmpfreq := frequency - lof
    if 0 ≤ tmpfreq.toInt then some tmpfreq
    else if tmpfreq.toInt = -2 ^ 31 then none
    else some (-tmpfreq)

/-- The calls, and the return value; it is `none` where C does not define what the function does. -/
structure SetRun (Sat : Type) where
  calls : List (SetCall Sat)
  ret : Option ℤ
  deriving DecidableEq

/-- `dvbsec_set`; `dvbfeSet` is what `dvbfe_set` returns. -/
def dvbsecSet (regs : Regs) (dvbfeSet : Parameters Sat → ℤ → ℤ) (secConfig : Option SecConfig)
    (polarization : Option Polarization) (satPos switchOption : Switch) (params : Parameters Sat) (timeout : ℤ) :
    SetRun Sat :=
  match secConfig with
  | none => ⟨[.feSet params timeout], some (dvbfeSet params timeout)⟩
  | some c =>
    match sec regs c polarization satPos switchOption params.frequency with
    | (calls, .undefined) => ⟨calls, none⟩
    | (calls, .returns tmp) => ⟨calls, some tmp⟩
    | (calls, .goesOn ()) =>
      match adjust params.frequency (lofOf c polarization params.frequency) with
      | none => ⟨calls, none⟩
      | some frequency =>
        let topass := { params with frequency := frequency }
        ⟨calls ++ [.feSet topass timeout], some (dvbfeSet topass timeout)⟩

end

/-! ### The bands -/

/-- The band of a frequency, as `dvbsec_cfg.h` documents the switching frequency. -/
def HighBand (c : SecConfig) (frequency : BitVec 32) : Prop :=
  c.switchFrequency ≠ 0 ∧ c.switchFrequency ≤ frequency

instance (c : SecConfig) (frequency : BitVec 32) : Decidable (HighBand c frequency) :=
  inferInstanceAs (Decidable (_ ∧ _))

def bandOscillator (c : SecConfig) (frequency : BitVec 32) : Oscillator :=
  if HighBand c frequency then .high else .low

def bandSlot (c : SecConfig) (frequency : BitVec 32) (p : Polarization) : Slot := slotOf (HighBand c frequency) p

def bandLof (c : SecConfig) (polarization : Option Polarization) (frequency : BitVec 32) : BitVec 32 :=
  match polarization with
  | none => 0
  | some p => c.lof (bandSlot c frequency p)

theorem subtractsHigh_eq (c : SecConfig) (frequency : BitVec 32) :
    subtractsHigh c frequency = decide (HighBand c frequency) := by
  apply decide_eq_decide.mpr
  rw [HighBand, not_or, BitVec.not_lt]

theorem lofOf_eq (c : SecConfig) (polarization : Option Polarization) (frequency : BitVec 32) :
    lofOf c polarization frequency = bandLof c polarization frequency := by
  cases polarization with
  | none => rfl
  | some p => rw [lofOf, bandLof, bandSlot, subtractsHigh_eq]

theorem signalsHigh_eq_iff (c : SecConfig) (frequency : BitVec 32) :
    signalsHigh c frequency = decide (HighBand c frequency) ↔ ¬(c.switchFrequency ≠ 0 ∧ frequency = c.switchFrequency) := by
  simp only [signalsHigh, HighBand, decide_eq_decide, ne_eq, ← BitVec.toNat_inj, BitVec.lt_def, BitVec.le_def]
  omega

theorem toInt_difference (frequency lof : BitVec 32) :
    (frequency - lof).toInt =
      if 2 * ((2 ^ 32 - lof.toNat + frequency.toNat) % 2 ^ 32) < 2 ^ 32 then
        (((2 ^ 32 - lof.toNat + frequency.toNat) % 2 ^ 32 : ℕ) : ℤ)
      else (((2 ^ 32 - lof.toNat + frequency.toNat) % 2 ^ 32 : ℕ) : ℤ) - 2 ^ 32 := by
  rw [BitVec.toInt_eq_toNat_cond, BitVec.toNat_sub]
  rfl

/-- **The adjustment** gives the absolute difference exactly if that is less than `2 ^ 31`. -/
theorem adjust_iff {frequency lof : BitVec 32} (h : lof ≠ 0) :
    (∃ r, adjust frequency lof = some r ∧ r.toNat = Nat.dist frequency.toNat lof.toNat) ↔
      Nat.dist frequency.toNat lof.toNat < 2 ^ 31 := by
  have hf := frequency.isLt
  have hl := lof.isLt
  have hint := toInt_difference frequency lof
  have hsub : (frequency - lof).toNat = (2 ^ 32 - lof.toNat + frequency.toNat) % 2 ^ 32 := BitVec.toNat_sub _ _
  have hneg : (-(frequency - lof)).toNat = (2 ^ 32 - (frequency - lof).toNat) % 2 ^ 32 := BitVec.toNat_neg _
  have hdist : Nat.dist frequency.toNat lof.toNat =
    frequency.toNat - lof.toNat + (lof.toNat - frequency.toNat) := rfl
  rw [adjust, if_neg h]
  dsimp only
  by_cases hpos : 0 ≤ (frequency - lof).toInt
  · simp only [if_pos hpos, Option.some.injEq, exists_eq_left']
    omega
  · by_cases hmin : (frequency - lof).toInt = -2 ^ 31
    · simp only [if_neg hpos, if_pos hmin, reduceCtorEq, false_and, exists_false, false_iff]
      omega
    · simp only [if_neg hpos, if_neg hmin, Option.some.injEq, exists_eq_left']
      omega

/-! ### The switching of the equipment -/

section
variable {Sat : Type}

def Tells (c : SecConfig) (polarization : Option Polarization) : Prop :=
  c.configType = .standard ∨ c.configType = .advanced ∧ polarization ≠ none

/-- The equipment can be switched for the polarization, by the command string of the band where the
configuration has strings. -/
def Switches (regs : Regs) (c : SecConfig) (polarization : Option Polarization) (frequency : BitVec 32) : Prop :=
  match c.configType with
  | .none | .power => True
  | .standard => polarization ≠ none
  | .advanced => ∃ p r, polarization = some p ∧ dvbsecCommand regs (c.advCmd (bandSlot c frequency p)) = some r ∧ 0 ≤ r.2

/-- What `dvbsec_set` has to do: each signal is for the band of the frequency, and where the equipment can be
switched the frontend is tuned to the absolute difference to the oscillator of the band. -/
structure BandsAgree (regs : Regs) (c : SecConfig) (polarization : Option Polarization) (params : Parameters Sat)
    (timeout : ℤ) (run : SetRun Sat) : Prop where
  oscillator : ∀ osc pol satPos switchOption, .stdSequence osc pol satPos switchOption ∈ run.calls →
    osc = bandOscillator c params.frequency
  command : ∀ slot, .command slot ∈ run.calls →
    ∃ p, polarization = some p ∧ slot = bandSlot c params.frequency p
  tuned : ∀ topass t, .feSet topass t ∈ run.calls →
    topass = { params with frequency := topass.frequency } ∧ t = timeout ∧
    topass.frequency.toNat =
      if bandLof c polarization params.frequency = 0 then params.frequency.toNat
      else Nat.dist params.frequency.toNat (bandLof c polarization params.frequency).toNat
  reached : Switches regs c polarization params.frequency → ∃ topass, .feSet topass timeout ∈ run.calls

/-- The frequency is the switching frequency, and the equipment is told a band. -/
def AtSwitch (c : SecConfig) (polarization : Option Polarization) (frequency : BitVec 32) : Prop :=
  Tells c polarization ∧ c.switchFrequency ≠ 0 ∧ frequency = c.switchFrequency

/-- The difference is an `int`. -/
def DistanceFits (c : SecConfig) (polarization : Option Polarization) (frequency : BitVec 32) : Prop :=
  bandLof c polarization frequency = 0 ∨
    Nat.dist frequency.toNat (bandLof c polarization frequency).toNat < 2 ^ 31

variable {frequency : BitVec 32} {polarization : Option Polarization} {c : SecConfig}

theorem signalsHigh_of_not_atSwitch (hn : ¬AtSwitch c polarization frequency) (h : Tells c polarization) :
    signalsHigh c frequency = decide (HighBand c frequency) :=
  (signalsHigh_eq_iff c frequency).mpr fun hat => hn ⟨h, hat⟩

theorem stdSequence_neg_iff (osc : Oscillator) (polarization : Option Polarization) (satPos switchOption : Switch) :
    (stdSequence osc polarization satPos switchOption).2 < 0 ↔ polarization = none := by
  cases polarization with
  | none => simp [stdSequence, einval]
  | some p => simp [stdSequence]

theorem sec_signals (regs : Regs) (satPos switchOption : Switch) (hn : ¬AtSwitch c polarization frequency)
    {call : SetCall Sat} (hcall : call ∈ (sec regs c polarization satPos switchOption frequency).1) :
    call = .setVoltage .v13 ∨
    call = .stdSequence (bandOscillator c frequency) polarization satPos switchOption ∨
    ∃ p, polarization = some p ∧ call = .command (bandSlot c frequency p) := by
  unfold sec at hcall
  cases htype : c.configType with
  | none =>
    rw [htype] at hcall
    cases hcall
  | power =>
    rw [htype] at hcall
    exact .inl (List.mem_singleton.mp hcall)
  | standard =>
    rw [htype] at hcall
    have hhigh := signalsHigh_of_not_atSwitch hn (.inl htype)
    dsimp only at hcall
    simp only [hhigh, decide_eq_true_eq] at hcall
    exact .inr (.inl (List.mem_singleton.mp hcall))
  | advanced =>
    rw [htype] at hcall
    cases hpol : polarization with
    | none =>
      rw [hpol] at hcall
      cases hcall
    | some p =>
      have hhigh := signalsHigh_of_not_atSwitch hn (.inr ⟨htype, by simp [hpol]⟩)
      rw [hpol] at hcall
      dsimp only at hcall
      rw [hhigh] at hcall
      exact .inr (.inr ⟨p, rfl, List.mem_singleton.mp hcall⟩)

theorem sec_atSwitch (regs : Regs) (satPos switchOption : Switch) (h : AtSwitch c polarization frequency) :
    (.stdSequence .low polarization satPos switchOption : SetCall Sat) ∈
        (sec regs c polarization satPos switchOption frequency).1 ∧ bandOscillator c frequency = .high ∨
    ∃ p, polarization = some p ∧
      (.command (slotOf false p) : SetCall Sat) ∈ (sec regs c polarization satPos switchOption frequency).1 ∧
      bandSlot c frequency p = slotOf true p := by
  obtain ⟨htells, hne, hfreq⟩ := h
  have hlow : signalsHigh c frequency = false := by simp [signalsHigh, hfreq]
  have hband : HighBand c frequency := ⟨hne, by simp [hfreq]⟩
  obtain htype | ⟨htype, hpol⟩ := htells
  · refine .inl ⟨?_, if_pos hband⟩
    simp [sec, htype, hlow]
  · obtain ⟨p, hp⟩ := Option.ne_none_iff_exists'.mp hpol
    refine .inr ⟨p, hp, ?_, by simp [bandSlot, hband]⟩
    simp [sec, htype, hp, hlow]

theorem sec_goesOn_iff (regs : Regs) (satPos switchOption : Switch) (hn : ¬AtSwitch c polarization frequency) :
    (sec regs c polarization satPos switchOption frequency : List (SetCall Sat) × Ends Unit).2 = .goesOn () ↔
      Switches regs c polarization frequency := by
  unfold sec Switches
  cases htype : c.configType with
  | none => exact iff_of_true rfl trivial
  | power => exact iff_of_true rfl trivial
  | standard =>
    dsimp only
    by_cases hneg : polarization = none
    · simp [hneg, stdSequence, einval]
    · rw [if_neg (mt (stdSequence_neg_iff _ _ _ _).mp hneg)]
      exact iff_of_true rfl hneg
  | advanced =>
    cases hpol : polarization with
    | none => simp
    | some p =>
      have hhigh := signalsHigh_of_not_atSwitch hn (.inr ⟨htype, by simp [hpol]⟩)
      dsimp only
      rw [hhigh, show slotOf (decide (HighBand c frequency)) p = bandSlot c frequency p from rfl]
      cases hcommand : dvbsecCommand regs (c.advCmd (bandSlot c frequency p)) with
      | none => simp [hcommand]
      | some r =>
        obtain ⟨ops, tmp⟩ := r
        by_cases hneg : tmp < 0
        · simp [hneg, hcommand]
        · simp [hneg, hcommand, not_lt.mp hneg]

theorem dvbsecSet_calls (regs : Regs) (dvbfeSet : Parameters Sat → ℤ → ℤ) (c : SecConfig)
    (polarization : Option Polarization) (satPos switchOption : Switch) (params : Parameters Sat) (timeout : ℤ) :
    (dvbsecSet regs dvbfeSet (some c) polarization satPos switchOption params timeout).calls =
      (sec regs c polarization satPos switchOption params.frequency).1 ++
        (if (sec regs c polarization satPos switchOption params.frequency : List (SetCall Sat) × Ends Unit).2 =
            .goesOn () then
          ((adjust params.frequency (lofOf c polarization params.frequency)).map fun frequency =>
            .feSet { params with frequency := frequency } timeout).toList
        else []) := by
  obtain ⟨⟨calls, ends⟩, hsec⟩ : ∃ r : List (SetCall Sat) × Ends Unit,
      sec regs c polarization satPos switchOption params.frequency = r := ⟨_, rfl⟩
  rw [dvbsecSet, hsec]
  cases ends with
  | undefined => simp
  | returns tmp => simp
  | goesOn value =>
    dsimp only
    cases adjust params.frequency (lofOf c polarization params.frequency) with
    | none => simp
    | some frequency => simp

theorem adjust_eq_of_zero {lof : BitVec 32} (h : lof = 0) : adjust frequency lof = some frequency := if_pos h

theorem adjust_tunes_iff (c : SecConfig) (polarization : Option Polarization) (frequency : BitVec 32) :
    (∃ r, adjust frequency (lofOf c polarization frequency) = some r ∧
      r.toNat = if bandLof c polarization frequency = 0 then frequency.toNat
        else Nat.dist frequency.toNat (bandLof c polarization frequency).toNat) ↔
      DistanceFits c polarization frequency := by
  rw [lofOf_eq, DistanceFits]
  by_cases hzero : bandLof c polarization frequency = 0
  · exact iff_of_true ⟨frequency, adjust_eq_of_zero hzero, (if_pos hzero).symm⟩ (.inl hzero)
  · rw [if_neg hzero, adjust_iff hzero]
    exact (or_iff_right hzero).symm

/-- **SEC bands**: the signals are for the band of the oscillator that is subtracted, and the frontend is tuned
to the difference, exactly if no band is told at the switching frequency itself and the difference fits. -/
theorem dvbsecSet_iff (regs : Regs) (dvbfeSet : Parameters Sat → ℤ → ℤ) (c : SecConfig)
    (polarization : Option Polarization) (satPos switchOption : Switch) (params : Parameters Sat) (timeout : ℤ) :
    BandsAgree regs c polarization params timeout
        (dvbsecSet regs dvbfeSet (some c) polarization satPos switchOption params timeout) ↔
      ¬AtSwitch c polarization params.frequency ∧
        (Switches regs c polarization params.frequency → DistanceFits c polarization params.frequency) := by
  have hcalls := dvbsecSet_calls regs dvbfeSet c polarization satPos switchOption params timeout
  constructor
  · intro h
    have hn : ¬AtSwitch c polarization params.frequency := by
      intro hat
      obtain ⟨hmem, hband⟩ | ⟨p, hp, hmem, hband⟩ := sec_atSwitch regs satPos switchOption hat
      · have hosc := h.oscillator _ _ _ _ (hcalls ▸ List.mem_append_left _ hmem)
        rw [hband] at hosc
        cases hosc
      · obtain ⟨p', hp', hslot⟩ := h.command _ (hcalls ▸ List.mem_append_left _ hmem)
        cases hp.symm.trans hp'
        rw [hband] at hslot
        cases p <;> cases hslot
    refine ⟨hn, fun hswitch => ?_⟩
    obtain ⟨topass, hmem⟩ := h.reached hswitch
    have htuned := (h.tuned topass timeout hmem).2.2
    rw [hcalls, if_pos ((sec_goesOn_iff regs satPos switchOption hn).mpr hswitch), List.mem_append] at hmem
    obtain hmem | hmem := hmem
    · obtain hcall | hcall | ⟨p, -, hcall⟩ := sec_signals regs satPos switchOption hn hmem
      all_goals cases hcall
    · obtain ⟨r, hr, hcall⟩ := Option.map_eq_some_iff.mp (Option.mem_toList.mp hmem)
      cases hcall
      exact (adjust_tunes_iff c polarization params.frequency).mp ⟨r, hr, htuned⟩
  · rintro ⟨hn, hfits⟩
    -- a call is a signal, or the tuning
    have hmem : ∀ call ∈ (dvbsecSet regs dvbfeSet (some c) polarization satPos switchOption params timeout).calls,
        (call = .setVoltage .v13 ∨
          call = .stdSequence (bandOscillator c params.frequency) polarization satPos switchOption ∨
          ∃ p, polarization = some p ∧ call = .command (bandSlot c params.frequency p)) ∨
        Switches regs c polarization params.frequency ∧
          ∃ r, adjust params.frequency (lofOf c polarization params.frequency) = some r ∧
            .feSet { params with frequency := r } timeout = call := by
      intro call hcall
      rw [hcalls, List.mem_append] at hcall
      obtain hcall | hcall := hcall
      · exact .inl (sec_signals regs satPos switchOption hn hcall)
      · by_cases hgoes :
          (sec regs c polarization satPos switchOption params.frequency : List (SetCall Sat) × Ends Unit).2 = .goesOn ()
        · rw [if_pos hgoes] at hcall
          exact .inr ⟨(sec_goesOn_iff regs satPos switchOption hn).mp hgoes,
            Option.map_eq_some_iff.mp (Option.mem_toList.mp hcall)⟩
        · rw [if_neg hgoes] at hcall
          cases hcall
    constructor
    · intro osc pol pos opt hcall
      obtain (hc | hc | ⟨p, -, hc⟩) | ⟨-, r, -, hc⟩ := hmem _ hcall <;> cases hc
      rfl
    · intro slot hcall
      obtain (hc | hc | ⟨p, hp, hc⟩) | ⟨-, r, -, hc⟩ := hmem _ hcall <;> cases hc
      exact ⟨p, hp, rfl⟩
    · intro topass t hcall
      obtain (hc | hc | ⟨p, -, hc⟩) | ⟨hswitch, r, hr, hc⟩ := hmem _ hcall <;> cases hc
      obtain ⟨r', hr', htuned⟩ := (adjust_tunes_iff c polarization params.frequency).mpr (hfits hswitch)
      cases hr.symm.trans hr'
      exact ⟨rfl, rfl, htuned⟩
    · intro hswitch
      obtain ⟨r, hr, -⟩ := (adjust_tunes_iff c polarization params.frequency).mpr (hfits hswitch)
      refine ⟨{ params with frequency := r }, ?_⟩
      rw [hcalls, if_pos ((sec_goesOn_iff regs satPos switchOption hn).mpr hswitch), hr]
      exact List.mem_append_right _ (List.mem_singleton_self _)

def standardUniversal : SecConfig where
  id := []
  switchFrequency := 11700000
  lof := fun slot =>
    match slot with
    | .loV | .loH | .loL | .loR => 9750000
    | .hiV | .hiH | .hiL | .hiR => 10600000
  configType := .standard
  advCmd := fun _ => []

/-- At 11700 MHz it is told the low band, and the oscillator of the high band is subtracted. -/
theorem not_bandsAgree_switch :
    ¬∀ (regs : Regs) (dvbfeSet : Parameters Unit → ℤ → ℤ) (c : SecConfig) (polarization : Option Polarization)
      (satPos switchOption : Switch) (params : Parameters Unit) (timeout : ℤ),
      BandsAgree regs c polarization params timeout
        (dvbsecSet regs dvbfeSet (some c) polarization satPos switchOption params timeout) := by
  intro h
  have hosc := (h ⟨0, 0, 0, 0, 0⟩ (fun _ _ => 0) standardUniversal (some .h) .unchanged .unchanged
    ⟨11700000, .auto, .dvbs 27500000 .auto ()⟩ 0).oscillator .low (some .h) .unchanged .unchanged (.head _)
  revert hosc
  decide

end

end BgtDvb.Dvbsec
