import Mathlib

/-!
# Parameters of the CXD2861 tuner

`frontends/cxd2861.c` has a table of coefficients, one set for each delivery system and bandwidth.
`cxd2861_set_params` chooses a set and tunes with it; `cxd2861_get_ifreq` reports the intermediate
frequency of the set that is loaded.

* `set_params_iff` — **PROVED**: the pairs that are refused or tuned with a set of their own.
-/

namespace BgtDvb.Cxd2861

def einval : ℤ := 22
def eremoteio : ℤ := 121

/-! ### Coefficients -/

/-- `enum cxd2861_delsys` -/
inductive Delsys where
  | vsb8 | qam | isdbt6 | isdbt7 | isdbt8 | dvbt5 | dvbt6 | dvbt7 | dvbt8 | dvbt2_1_7 | dvbt2_5 | dvbt2_6 | dvbt2_7
  | dvbt2_8 | dvbc | dvbc2_6 | dvbc2_8 | dtmb
  deriving DecidableEq, Repr

/-- `struct cxd2861_coe` -/
structure Coe where
  delsys : Delsys
  ifOutSel : UInt8
  agcSel : UInt8
  mixOll : UInt8
  rfGain : UInt8
  ifBpfGc : UInt8
  fifOffst : UInt8
  bwOffst : UInt8
  bw : UInt8
  rfOldet : UInt8
  ifBpfF0 : UInt8
  deriving DecidableEq

/-- `AUTO` -/
def auto : UInt8 := 0xff

/-- `OFFSET` -/
def offset (ofs : ℤ) : UInt8 := UInt8.ofInt ofs &&& 0x1F

def bw1_7 : UInt8 := 0x03
def bw6 : UInt8 := 0x00
def bw7 : UInt8 := 0x01
def bw8 : UInt8 := 0x02

/-- The table `coe`. -/
def coeTable : List Coe :=
  [⟨.vsb8, auto, auto, 0x03, auto, 0x06, offset (-6), offset (-6), bw6, 0x0B, 0x00⟩,
    ⟨.qam, auto, auto, 0x03, auto, 0x06, offset (-6), offset (-6), bw6, 0x0B, 0x00⟩,
    ⟨.isdbt6, auto, auto, 0x03, auto, 0x06, offset (-3), offset 0, bw6, 0x0B, 0x00⟩,
    ⟨.isdbt7, auto, auto, 0x03, auto, 0x06, offset (-7), offset (-5), bw7, 0x0B, 0x00⟩,
    ⟨.isdbt8, auto, auto, 0x03, auto, 0x06, offset (-5), offset (-3), bw8, 0x0B, 0x00⟩,
    ⟨.dvbt5, auto, auto, 0x03, auto, 0x06, offset (-2), offset (-4), bw6, 0x0B, 0x00⟩,
    ⟨.dvbt6, auto, auto, 0x03, auto, 0x06, offset (-2), offset (-4), bw6, 0x0B, 0x00⟩,
    ⟨.dvbt7, auto, auto, 0x03, auto, 0x06, offset (-3), offset 0, bw7, 0x0B, 0x00⟩,
    ⟨.dvbt8, auto, auto, 0x03, auto, 0x06, offset (-3), offset 0, bw8, 0x0B, 0x00⟩,
    ⟨.dvbt2_1_7, auto, auto, 0x03, auto, 0x06, offset (-5), offset 0, bw1_7, 0x0B, 0x00⟩,
    ⟨.dvbt2_5, auto, auto, 0x03, auto, 0x06, offset 0, offset 0, bw6, 0x0B, 0x00⟩,
    ⟨.dvbt2_6, auto, auto, 0x03, auto, 0x06, offset 0, offset 0, bw6, 0x0B, 0x00⟩,
    ⟨.dvbt2_7, auto, auto, 0x03, auto, 0x06, offset (-6), offset (-2), bw7, 0x0B, 0x00⟩,
    ⟨.dvbt2_8, auto, auto, 0x03, auto, 0x06, offset (-6), offset (-3), bw8, 0x0B, 0x00⟩,
    ⟨.dvbc, auto, auto, 0x02, auto, 0x03, offset (-1), offset 3, bw8, 0x09, 0x00⟩,
    ⟨.dvbc2_6, auto, auto, 0x03, auto, 0x01, offset (-6), offset (-4), bw6, 0x09, 0x00⟩,
    ⟨.dvbc2_8, auto, auto, 0x03, auto, 0x01, offset (-2), offset 2, bw8, 0x09, 0x00⟩,
    ⟨.dtmb, auto, auto, 0x03, auto, 0x02, offset 2, offset 3, bw8, 0x0B, 0x00⟩]

def Delsys.toIdx : Delsys → Fin coeTable.length
  | .vsb8 => ⟨0, by decide⟩
  | .qam => ⟨1, by decide⟩
  | .isdbt6 => ⟨2, by decide⟩
  | .isdbt7 => ⟨3, by decide⟩
  | .isdbt8 => ⟨4, by decide⟩
  | .dvbt5 => ⟨5, by decide⟩
  | .dvbt6 => ⟨6, by decide⟩
  | .dvbt7 => ⟨7, by decide⟩
  | .dvbt8 => ⟨8, by decide⟩
  | .dvbt2_1_7 => ⟨9, by decide⟩
  | .dvbt2_5 => ⟨10, by decide⟩
  | .dvbt2_6 => ⟨11, by decide⟩
  | .dvbt2_7 => ⟨12, by decide⟩
  | .dvbt2_8 => ⟨13, by decide⟩
  | .dvbc => ⟨14, by decide⟩
  | .dvbc2_6 => ⟨15, by decide⟩
  | .dvbc2_8 => ⟨16, by decide⟩
  | .dtmb => ⟨17, by decide⟩

/-- `coe[delsys]` -/
def coe (delsys : Delsys) : Coe := coeTable.get delsys.toIdx

theorem coe_delsys (delsys : Delsys) : (coe delsys).delsys = delsys := by
  cases delsys <;> rfl

/-! ### The tuner -/

/-- An access: `cxd2861_wr_regs` or `cxd2861_wr`, or a masked write, which reads first. -/
inductive Access where
  | wrRegs (reg : UInt8) (data : List UInt8)
  | wrMask (reg val mask : UInt8)
  deriving DecidableEq

/-- A call of an accessor; `checked` is whether `if (ret) goto err` follows. -/
structure Call where
  access : Access
  checked : Bool
  deriving DecidableEq

/-- Calls one after another: the result, and the calls that were made.  `ok i` says whether the `i`-th
call succeeds. -/
def runCalls (ok : ℕ → Bool) : ℕ → List Call → ℤ × List Call
  | _, [] => (0, [])
  | i, c :: cs =>
    if ok i = false ∧ c.checked = true then (-eremoteio, [c])
    else
      let r := runCalls ok (i + 1) cs
      (r.1, c :: r.2)

/-- What `struct cxd2861_cfg` and `struct cxd2861_dev` say about a call: `agc2Dtv` and `if2Dtv` stand for
`CXD2861_AGC2_DTV` and `CXD2861_IF2_DTV`. -/
structure Cfg where
  fXtal : UInt32
  extOsc : Bool
  agc2Dtv : Bool
  if2Dtv : Bool

/-- `cxd2861_dev`: the set that was loaded last, if there was one. -/
structure Dev where
  coe : Option Coe

/-- What a call comes to. -/
structure Outcome where
  ret : ℤ
  calls : List Call
  dev : Dev

/-- `frequency` in kHz, a multiple of 25 Hz. -/
def tuneFrequency (frequency : UInt32) : UInt32 := ((frequency + 25 / 2) / 25) * 25 / 1000

def tuneStart : List Call := [⟨.wrRegs 0x14 [0xfb, 0x0f], true⟩, ⟨.wrRegs 0x50 [0x00], true⟩]

/-- The bits of register `0x05`. -/
def tuneSel (cfg : Cfg) (c : Coe) : UInt8 :=
  let agc : UInt8 := if c.agcSel = auto then if cfg.agc2Dtv = true then 0x08 else 0x00 else (c.agcSel &&& 0x03) <<< 3
  let ifOut : UInt8 := if c.ifOutSel = auto then if cfg.if2Dtv = true then 0x04 else 0x00 else (c.ifOutSel &&& 0x01) <<< 2
  agc ||| ifOut

/-- The ten bytes from register `0x06` on. -/
def tuneData (cfg : Cfg) (frequency : UInt32) (delsys : Delsys) (c : Coe) : List UInt8 :=
  let high := frequency > 500000
  let fXtal := cfg.fXtal
  let ref : UInt32 :=
    if delsys = .dvbc then
      if high then if fXtal = 41 then 40 else fXtal
      else if fXtal = 41 then 82 else fXtal * 2
    else if high then fXtal / 8
    else fXtal / 4
  let filter : List UInt8 := if delsys = .dvbc then [18, 120, 20] else [48, 10, 30]
  [ref.toUInt8, if cfg.extOsc = true then 0x00 else 0x04] ++ filter ++
    [if delsys = .dvbc then if high then 0x08 else 0x0C else if high then 0x30 else 0x38, c.mixOll,
      if c.rfGain = auto then 0x00 else c.rfGain, (c.fifOffst <<< 3) ||| (c.ifBpfGc &&& 0x07), c.bwOffst]

def tuneCoe (cfg : Cfg) (frequency : UInt32) (delsys : Delsys) (vcoCal : UInt8) : List Call :=
  let c := coe delsys
  [⟨.wrMask 0x05 (tuneSel cfg c) 0x1c, true⟩,
    ⟨.wrRegs 0x4E [if c.rfGain = auto then 0x01 else 0x00], false⟩,
    ⟨.wrRegs 0x06 (tuneData cfg frequency delsys c), true⟩,
    ⟨.wrRegs 0x45 (if delsys = .dvbc then [0x0F, 0x00, 0x01] else [0x0F, 0x00, 0x03]), true⟩,
    ⟨.wrRegs 0x49 [c.rfOldet, c.ifBpfF0], true⟩,
    ⟨.wrMask 0x0C (if vcoCal ≠ 0 then 0x90 else 0x10) 0xB0, false⟩,
    ⟨.wrRegs 0x03 [0xc4, 0x40], true⟩,
    ⟨.wrRegs 0x10 [(frequency &&& 0xFF).toUInt8, ((frequency >>> 8) &&& 0xFF).toUInt8,
      ((frequency >>> 16) &&& 0x0F).toUInt8 ||| (c.bw <<< 4), if vcoCal ≠ 0 then 0xFF else 0x8F, 0xFF], true⟩,
    ⟨.wrRegs 0x04 [0x00], true⟩, ⟨.wrRegs 0x03 [0xC0], true⟩, ⟨.wrMask 0x0C 0x00 0x30, true⟩]

/-- `cxd2861_tune` -/
def tune (ok : ℕ → Bool) (cfg : Cfg) (dev : Dev) (frequency : UInt32) (delsys : Delsys) (vcoCal : UInt8) : Outcome :=
  let frequency := tuneFrequency frequency
  let s := runCalls ok 0 tuneStart
  if s.1 ≠ 0 then ⟨s.1, s.2, dev⟩
  else
    let r := runCalls ok 2 (tuneCoe cfg frequency delsys vcoCal)
    ⟨r.1, s.2 ++ r.2, ⟨some (coe delsys)⟩⟩

/-! ### Parameters -/

/-- `enum fe_delivery_system`, where `SYS_DVBC_ANNEX_AC` is `SYS_DVBC_ANNEX_A` and `SYS_DMBTH` is
`SYS_DTMB`. -/
inductive Sys where
  | undefined | dvbcAnnexA | dvbcAnnexB | dvbt | dss | dvbs | dvbs2 | dvbh | isdbt | isdbs | isdbc | atsc | atscmh
  | dtmb | cmmb | dab | dvbt2 | turbo | dvbcAnnexC
  deriving DecidableEq, Repr

/-- `delsys` before the switch: `SYS_UNDEFINED` is 0, and so is `CXD2861_8VSB`. -/
def undefinedDelsys : Delsys := .vsb8

/-- The switches of `cxd2861_set_params`; `none` is the `default` branch, which gives up. -/
def selectDelsys (sys : Sys) (bandwidthHz : UInt32) : Option Delsys :=
  match sys with
  | .dvbcAnnexA => some .dvbc
  | .dvbcAnnexB => some .qam
  | .dvbt =>
    some (if bandwidthHz = 5000000 then .dvbt5
      else if bandwidthHz = 6000000 then .dvbt6
      else if bandwidthHz = 7000000 then .dvbt7
      else if bandwidthHz = 8000000 then .dvbt8
      else undefinedDelsys)
  | .isdbt =>
    some (if bandwidthHz = 6000000 then .isdbt6
      else if bandwidthHz = 7000000 then .isdbt7
      else if bandwidthHz = 8000000 then .isdbt8
      else undefinedDelsys)
  | .atsc => some .vsb8
  | .dtmb => some .dtmb
  | .dvbt2 =>
    some (if bandwidthHz = 1700000 then .dvbt2_1_7
      else if bandwidthHz = 5000000 then .dvbt2_5
      else if bandwidthHz = 6000000 then .dvbt2_6
      else if bandwidthHz = 7000000 then .dvbt2_7
      else if bandwidthHz = 8000000 then .dvbt2_8
      else undefinedDelsys)
  | _ => none

/-- `cxd2861_set_params` -/
def setParams (ok : ℕ → Bool) (cfg : Cfg) (dev : Dev) (sys : Sys) (bandwidthHz frequency : UInt32) : Outcome :=
  match selectDelsys sys bandwidthHz with
  | none => ⟨-einval, [], dev⟩
  | some delsys => tune ok cfg dev frequency delsys 1

/-- The switch of `cxd2861_get_ifreq`. -/
def Delsys.ifreq : Delsys → UInt32
  | .vsb8 | .qam => 3700000
  | .isdbt6 => 3550000
  | .isdbt7 => 4150000
  | .isdbt8 => 4750000
  | .dvbt2_1_7 => 3500000
  | .dvbt5 | .dvbt6 | .dvbt2_5 | .dvbt2_6 => 3600000
  | .dvbt7 | .dvbt2_7 => 4200000
  | .dvbt8 | .dvbt2_8 => 4800000
  | .dvbc => 4900000
  | .dvbc2_6 => 3700000
  | .dvbc2_8 => 4900000
  | .dtmb => 5100000

/-- `cxd2861_get_ifreq`; `none` is the access through a pointer that no call has set. -/
def getIfreq (dev : Dev) : Option UInt32 := dev.coe.map fun c => c.delsys.ifreq

/-! ### Sets and the parameters they are for -/

/-- The delivery system and the bandwidth of each set; cable, ATSC and DTMB have one set for all
bandwidths, and the sets for DVB-C2 are for no system of the interface. -/
def Delsys.params : Delsys → Option (Sys × Option UInt32)
  | .vsb8 => some (.atsc, none)
  | .qam => some (.dvbcAnnexB, none)
  | .isdbt6 => some (.isdbt, some 6000000)
  | .isdbt7 => some (.isdbt, some 7000000)
  | .isdbt8 => some (.isdbt, some 8000000)
  | .dvbt5 => some (.dvbt, some 5000000)
  | .dvbt6 => some (.dvbt, some 6000000)
  | .dvbt7 => some (.dvbt, some 7000000)
  | .dvbt8 => some (.dvbt, some 8000000)
  | .dvbt2_1_7 => some (.dvbt2, some 1700000)
  | .dvbt2_5 => some (.dvbt2, some 5000000)
  | .dvbt2_6 => some (.dvbt2, some 6000000)
  | .dvbt2_7 => some (.dvbt2, some 7000000)
  | .dvbt2_8 => some (.dvbt2, some 8000000)
  | .dvbc => some (.dvbcAnnexA, none)
  | .dvbc2_6 | .dvbc2_8 => none
  | .dtmb => some (.dtmb, none)

def Delsys.Serves (delsys : Delsys) (sys : Sys) (bandwidthHz : UInt32) : Prop :=
  delsys.params = some (sys, none) ∨ delsys.params = some (sys, some bandwidthHz)

instance (delsys : Delsys) (sys : Sys) (bandwidthHz : UInt32) : Decidable (delsys.Serves sys bandwidthHz) :=
  inferInstanceAs (Decidable (_ ∨ _))

/-- A pair is refused with nothing done, or tuned with a set that is for it; if that succeeds, the
intermediate frequency of that set is reported. -/
def ParamsSound (sys : Sys) (bandwidthHz : UInt32) : Prop :=
  ∀ ok cfg dev frequency,
    (setParams ok cfg dev sys bandwidthHz frequency).ret ≠ 0 ∧
        (setParams ok cfg dev sys bandwidthHz frequency).calls = [] ∧
        (setParams ok cfg dev sys bandwidthHz frequency).dev = dev ∨
      ∃ delsys, delsys.Serves sys bandwidthHz ∧
        setParams ok cfg dev sys bandwidthHz frequency = tune ok cfg dev frequency delsys 1 ∧
        ((setParams ok cfg dev sys bandwidthHz frequency).ret = 0 →
          getIfreq (setParams ok cfg dev sys bandwidthHz frequency).dev = some delsys.ifreq)

def listed : Sys → List UInt32
  | .dvbt => [5000000, 6000000, 7000000, 8000000]
  | .isdbt => [6000000, 7000000, 8000000]
  | .dvbt2 => [1700000, 5000000, 6000000, 7000000, 8000000]
  | _ => []

/-- The delivery system has no inner switch, or its switch lists the bandwidth. -/
def Listed (sys : Sys) (bandwidthHz : UInt32) : Prop := listed sys = [] ∨ bandwidthHz ∈ listed sys

/-! ### The choice -/

theorem runCalls_true (i : ℕ) (cs : List Call) : runCalls (fun _ => true) i cs = (0, cs) := by
  induction cs generalizing i with
  | nil => rfl
  | cons c cs ih =>
    have hgo : ¬ (true = false ∧ c.checked = true) := fun h => Bool.noConfusion h.1
    rw [runCalls, if_neg hgo, ih]

theorem tune_coe {ok : ℕ → Bool} {cfg : Cfg} {dev : Dev} {frequency : UInt32} {delsys : Delsys} {vcoCal : UInt8}
    (hret : (tune ok cfg dev frequency delsys vcoCal).ret = 0) :
    (tune ok cfg dev frequency delsys vcoCal).dev = ⟨some (coe delsys)⟩ := by
  by_cases hstart : (runCalls ok 0 tuneStart).1 ≠ 0
  · dsimp only [tune] at hret
    rw [if_pos hstart] at hret
    exact absurd hret hstart
  · dsimp only [tune]
    rw [if_neg hstart]

theorem tune_true (cfg : Cfg) (dev : Dev) (frequency : UInt32) (delsys : Delsys) (vcoCal : UInt8) :
    (tune (fun _ => true) cfg dev frequency delsys vcoCal).ret = 0 := by
  dsimp only [tune]
  rw [runCalls_true, runCalls_true, if_neg (fun h => h rfl)]

theorem select_serves {sys : Sys} {bandwidthHz : UInt32} (hlisted : Listed sys bandwidthHz) {delsys : Delsys}
    (hsel : selectDelsys sys bandwidthHz = some delsys) : delsys.Serves sys bandwidthHz := by
  have hcases : listed sys = [] ∨ bandwidthHz ∈ listed sys := hlisted
  cases sys
  case dvbt =>
    have hmem := hcases.resolve_left (by decide)
    simp only [listed, List.mem_cons, List.not_mem_nil, or_false] at hmem
    rcases hmem with rfl | rfl | rfl | rfl <;> cases hsel <;> decide
  case isdbt =>
    have hmem := hcases.resolve_left (by decide)
    simp only [listed, List.mem_cons, List.not_mem_nil, or_false] at hmem
    rcases hmem with rfl | rfl | rfl <;> cases hsel <;> decide
  case dvbt2 =>
    have hmem := hcases.resolve_left (by decide)
    simp only [listed, List.mem_cons, List.not_mem_nil, or_false] at hmem
    rcases hmem with rfl | rfl | rfl | rfl | rfl <;> cases hsel <;> decide
  all_goals cases hsel
  all_goals exact .inl rfl

theorem select_unlisted {sys : Sys} {bandwidthHz : UInt32} (hunlisted : ¬ Listed sys bandwidthHz) :
    selectDelsys sys bandwidthHz = some .vsb8 ∧ sys ≠ .atsc := by
  obtain ⟨hinner, hmem⟩ := not_or.mp hunlisted
  cases sys
  case dvbt =>
    simp only [listed, List.mem_cons, List.not_mem_nil, or_false, not_or] at hmem
    simp [selectDelsys, hmem, undefinedDelsys]
  case isdbt =>
    simp only [listed, List.mem_cons, List.not_mem_nil, or_false, not_or] at hmem
    simp [selectDelsys, hmem, undefinedDelsys]
  case dvbt2 =>
    simp only [listed, List.mem_cons, List.not_mem_nil, or_false, not_or] at hmem
    simp [selectDelsys, hmem, undefinedDelsys]
  all_goals exact absurd rfl hinner

/-- **The parameters**: a pair is refused, or tuned with a set that is for it, exactly if it is listed.
Any other bandwidth is tuned with the set for ATSC. -/
theorem set_params_iff (sys : Sys) (bandwidthHz : UInt32) :
    ParamsSound sys bandwidthHz ↔ Listed sys bandwidthHz := by
  constructor
  · intro hsound
    by_contra hunlisted
    obtain ⟨hsel, hatsc⟩ := select_unlisted hunlisted
    have hset : ∀ ok cfg dev frequency, setParams ok cfg dev sys bandwidthHz frequency = tune ok cfg dev frequency .vsb8 1 := by
      intro ok cfg dev frequency
      rw [setParams, hsel]
    obtain ⟨hret, -⟩ | ⟨delsys, hserves, heq, -⟩ := hsound (fun _ => true) ⟨41, false, false, false⟩ ⟨none⟩ 0
    · rw [hset] at hret
      exact hret (tune_true _ _ _ _ _)
    · rw [hset] at heq
      have hdev := congrArg Outcome.dev heq
      rw [tune_coe (tune_true _ _ _ _ _), tune_coe (tune_true _ _ _ _ _)] at hdev
      have hcoe : coe .vsb8 = coe delsys := Option.some.inj (congrArg Dev.coe hdev)
      have hname : Delsys.vsb8 = delsys := by
        rw [← coe_delsys .vsb8, hcoe, coe_delsys]
      rw [← hname] at hserves
      rcases hserves with h | h
      · exact hatsc (Prod.mk.inj (Option.some.inj h)).1.symm
      · exact hatsc (Prod.mk.inj (Option.some.inj h)).1.symm
  · intro hlisted ok cfg dev frequency
    cases hsel : selectDelsys sys bandwidthHz with
    | none =>
      refine .inl ?_
      rw [setParams, hsel]
      exact ⟨(by decide : -einval ≠ 0), rfl, rfl⟩
    | some delsys =>
      refine .inr ⟨delsys, select_serves hlisted hsel, ?_, fun hret => ?_⟩
      · rw [setParams, hsel]
      · rw [setParams, hsel] at hret ⊢
        rw [tune_coe hret, getIfreq, Option.map_some, coe_delsys]

/-- DVB-T with 10 MHz is tuned as ATSC. -/
theorem not_params_sound : ¬ ParamsSound .dvbt 10000000 := by
  intro hsound
  obtain ⟨hret, -⟩ | ⟨delsys, hserves, heq, -⟩ := hsound (fun _ => true) ⟨41, false, false, false⟩ ⟨none⟩ 474000000
  · exact hret (by decide)
  · cases delsys <;> exact absurd hserves (by decide)

end BgtDvb.Cxd2861
