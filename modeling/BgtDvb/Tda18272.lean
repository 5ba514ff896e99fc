import BgtDvb.Lib.ByteField
import BgtDvb.Lib.Traced
import BgtDvb.Tda18272Coeff

/-!
# Fields of the TDA18272

`frontends/tda18272.c` keeps a copy of the registers of the tuner and changes it field by field, with
`TDA18272_SETFIELD`, which does not mask the value.  A routine ends with the first transfer that fails,
except where it does not look.

* `updates_sound_iff` — **PROVED**: these are the sound ones, in every run; the others clear an interrupt,
  or step a gain out of its four bits.
-/

namespace BgtDvb.Tda18272

/-! ### Registers -/

def idByte1 : ℕ := 0x00
def powerstateByte2 : ℕ := 0x06
def irqStatus : ℕ := 0x08
def irqClear : ℕ := 0x0a
def agc1Byte1 : ℕ := 0x0c
def agc2Byte1 : ℕ := 0x0d
def agckByte1 : ℕ := 0x0e
def rfagcByte1 : ℕ := 0x0f
def irmixerByte1 : ℕ := 0x10
def agc5Byte1 : ℕ := 0x11
def ifagc : ℕ := 0x12
def ifByte1 : ℕ := 0x13
def reference : ℕ := 0x14
def ifFrequency : ℕ := 0x15
def rfFrequencyByte1 : ℕ := 0x16
def rfFrequencyByte2 : ℕ := 0x17
def rfFrequencyByte3 : ℕ := 0x18
def msmByte1 : ℕ := 0x19
def msmByte2 : ℕ := 0x1a
def psmByte1 : ℕ := 0x1b
def floMaxByte : ℕ := 0x1d
def irmixerByte2 : ℕ := 0x23
def agc1Byte2 : ℕ := 0x24
def rfFilterByte1 : ℕ := 0x2c
def rfFilterByte3 : ℕ := 0x2e
def cpCurrent : ℕ := 0x30
def agcDetOut : ℕ := 0x31
def rfAgcGainByte1 : ℕ := 0x32
def powerByte2 : ℕ := 0x36

/-- `TDA18272_REGMAPSIZ` -/
def regmapsiz : ℕ := 68

def powerstateByte2SmLna : ByteField := .of 1 1
def powerstateByte2SmPll : ByteField := .of 2 1
def powerstateByte2Sm : ByteField := .of 3 1
def irqStatusIrqStatus : ByteField := .of 7 1
def irqStatusXtalcalStatus : ByteField := .of 5 1
def irqClearIrqClear : ByteField := .of 7 1
def agc1Byte1LtEnable : ByteField := .of 7 1
def agc1Byte1Agc1_6_15Db : ByteField := .of 6 1
def agc1Byte1Agc1Top : ByteField := .of 0 4
def agc2Byte1Agc2Top : ByteField := .of 0 5
def agc1Byte1AgcsUpStepAsym : ByteField := .of 6 2
def agckByte1AgckStep : ByteField := .of 2 2
def agckByte1AgckMode : ByteField := .of 0 2
def rfagcByte1PdRfagcAdapt : ByteField := .of 7 1
def rfagcByte1RfagcAdaptTop : ByteField := .of 5 2
def rfagcByte1RfAtten3Db : ByteField := .of 3 1
def rfagcByte1Agc3Top : ByteField := .of 0 3
def irmixerByte1Agc4Top : ByteField := .of 0 4
def agc5Byte1Agc5Top : ByteField := .of 0 4
def agc5Byte1Agc5Hpf : ByteField := .of 4 1
def agc5Byte1AgcsDoStepAsym : ByteField := .of 5 2
def ifagcIfLevel : ByteField := .of 0 3
def ifByte1IfHpFc : ByteField := .of 6 2
def ifByte1IfNotch : ByteField := .of 5 1
def ifByte1LpFcOffset : ByteField := .of 3 2
def ifByte1LpFc : ByteField := .of 0 3
def referenceXtout : ByteField := .of 0 2
def referenceDigitalClock : ByteField := .of 6 1
def ifFrequencyIfFreq : ByteField := .of 0 8
def psmByte1PsmAgc1 : ByteField := .of 6 2
def psmByte1PsmStob : ByteField := .of 5 1
def floMaxByteFmaxLo : ByteField := .of 0 6
def irmixerByte2HiPass : ByteField := .of 1 1
def irmixerByte2DcNotch : ByteField := .of 0 1
def agc1Byte2Agc1LoopOff : ByteField := .of 7 1
def agc1Byte2Agc1DoStep : ByteField := .of 5 2
def agc1Byte2ForceAgc1Gain : ByteField := .of 4 1
def agc1Byte2Agc1Gain : ByteField := .of 0 4
def rfFilterByte1ForceAgc2Gain : ByteField := .of 4 1
def rfFilterByte1RfFilterGv : ByteField := .of 2 2
def rfFilterByte3Agc2DoStep : ByteField := .of 6 2
def cpCurrentNCpCurrent : ByteField := .of 0 7
def agcDetOutUpAgc1 : ByteField := .of 1 1
def agcDetOutDoAgc1 : ByteField := .of 0 1
def rfAgcGainByte1RfFilterGain : ByteField := .of 4 2
def powerByte2RssiCkSpeed : ByteField := .of 1 1

/-! ### The device -/

/-- What becomes of a transfer: whether it succeeds, and what a read leaves in the buffer. -/
structure Transfer where
  ok : Bool
  data : ℕ → UInt8

/-- The copy of the registers, and the transfers to come. -/
structure Dev where
  regs : ℕ → UInt8
  transfers : ℕ → Transfer

/-- The updates to be told apart. -/
inductive Site where
  | clearIrq | gainUp | gainDown | other

/-- A use of `TDA18272_SETFIELD`: where, the register before it, the field and the value. -/
structure Update where
  site : Site
  before : UInt8
  field : ByteField
  val : ℕ

/-- The field reads back as the value, and the other bits are as they were. -/
def Update.Sound (u : Update) : Prop := u.field.Sound u.before u.val

abbrev Step := Act Dev Update

def setFieldAt (site : Site) (r : ℕ) (f : ByteField) (val : ℕ) : Step Unit :=
  Act.record (fun d => ⟨site, d.regs r, f, val⟩)
    fun d => { d with regs := Function.update d.regs r (f.set (d.regs r) val) }

/-- `TDA18272_SETFIELD` on a register of the copy. -/
def setField (r : ℕ) (f : ByteField) (val : ℕ) : Step Unit := setFieldAt .other r f val

/-- `TDA18272_GETFIELD` of a register of the copy. -/
def getField (r : ℕ) (f : ByteField) : Step ℕ := Act.read fun d => f.get (d.regs r)

def setReg (r : ℕ) (b : UInt8) : Step Unit := Act.change fun d => { d with regs := Function.update d.regs r b }

/-- `if (ret) goto err;` -/
def check (ok : Bool) : Step Unit := if ok = true then pure () else Act.fail

def nextTransfer : Step Transfer := do
  let t ← Act.read fun d => d.transfers 0
  Act.change fun d => { d with transfers := fun n => d.transfers (n + 1) }
  pure t

/-- `tda18272_rd_regs` into the copy. -/
def rdRegs (reg count : ℕ) : Step Unit := do
  let t ← nextTransfer
  Act.change fun d =>
    { d with regs := fun r => if reg ≤ r ∧ r < reg + count then t.data (r - reg) else d.regs r }
  check t.ok

/-- `tda18272_wr_regs`; what the tuner makes of it is seen when it is read. -/
def wrRegs (_reg _count : ℕ) : Step Unit := do
  let t ← nextTransfer
  check t.ok

def rd (reg : ℕ) : Step Unit := rdRegs reg 1

def wr (reg : ℕ) : Step Unit := wrRegs reg 1

/-- One field after another: `TDA18272_SETFIELD`, and `tda18272_wr` of the register. -/
def putFields : List (ℕ × ByteField × ℕ) → Step Unit
  | [] => pure ()
  | w :: ws => do
    setField w.1 w.2.1 w.2.2
    wr w.1
    putFields ws

/-! ### Power and initialisation -/

/-- What `tda18272_attach` finds out about the tuner: `mode` and `ms`. -/
structure Tuner where
  mode : Bool
  ms : Bool

/-- `lna_top`, `psm_agc` and `agc1` are set in `tda18272_attach`, to these. -/
def lnaTop : ℕ := 0
def psmAgc : ℕ := 1
def agc1 : ℕ := 0

/-- `tda18272_cal_wait` -/
def calWait : Step Unit := do
  let calibrated ← Act.repeatUntil (do
    rd irqStatus
    let xtalCal ← getField irqStatus irqStatusXtalcalStatus
    pure (decide (xtalCal ≠ 0))) 20
  check calibrated

/-- `enum tda18272_power` -/
inductive Power where
  | normal | stdby1 | stdby2 | stdby
deriving DecidableEq

/-- `POWERSTATE_BYTE_2_SM`, `POWERSTATE_BYTE_2_SM_PLL` and `POWERSTATE_BYTE_2_SM_LNA` of a state. -/
def Power.bits : Power → ℕ × ℕ × ℕ
  | .normal => (0x00, 0x00, 0x00)
  | .stdby1 => (0x01, 0x00, 0x00)
  | .stdby2 => (0x01, 0x01, 0x00)
  | .stdby => (0x01, 0x01, 0x01)

/-- `tda18272_pstate` -/
def pstate (t : Tuner) (p : Power) : Step Unit := do
  rdRegs powerstateByte2 15
  Act.onlyIf (decide (p ≠ .normal)) (putFields [(reference, referenceDigitalClock, 0)])
  setField powerstateByte2 powerstateByte2Sm p.bits.1
  setField powerstateByte2 powerstateByte2SmPll p.bits.2.1
  setField powerstateByte2 powerstateByte2SmLna p.bits.2.2
  wr powerstateByte2
  Act.onlyIf (decide (p = .normal)) (do
    Act.onlyIf t.ms (setField reference referenceXtout 0x03)
    putFields [(reference, referenceDigitalClock, 0x01)])

/-- `tda18272_wait_irq` -/
def waitIrq (timeout step : ℕ) (status : UInt8) : Step Unit := do
  let raised ← Act.repeatUntil (do
    rd irqStatus
    let irq ← getField irqStatus irqStatusIrqStatus
    let seen ← Act.read fun d => d.regs irqStatus &&& 0x1f
    pure (decide (irq ≠ 0 ∨ status ≠ 0 ∧ status = seen))) (timeout / step)
  check raised

/-- `tda18272_reset` -/
def reset (t : Tuner) : Step Unit := do
  rdRegs idByte1 regmapsiz
  putFields [(powerByte2, powerByte2RssiCkSpeed, 0x00), (agc1Byte2, agc1Byte2Agc1DoStep, 0x02),
    (rfFilterByte3, rfFilterByte3Agc2DoStep, 0x01), (agckByte1, agc1Byte1AgcsUpStepAsym, 0x03),
    (agc5Byte1, agc5Byte1AgcsDoStepAsym, 0x02)]
  wr irqClear
  pstate t .normal
  setReg msmByte1 0x38
  setReg msmByte2 0x01
  wrRegs msmByte1 2
  waitIrq 1500 50 0x1f

/-- The first part of `tda18272_init`; nobody looks at the transfer of `TDA18272_CP_CURRENT`. -/
def initMode (t : Tuner) : Step Unit :=
  if t.mode = true then calWait
  else do
    putFields [(floMaxByte, floMaxByteFmaxLo, 0x00)]
    setField cpCurrent cpCurrentNCpCurrent 0x68
    Act.attempt (wr cpCurrent)

/-- `tda18272_init` -/
def init (t : Tuner) : Step Unit := do
  initMode t
  reset t
  putFields [(floMaxByte, floMaxByteFmaxLo, 0x0a), (agc1Byte1, agc1Byte1LtEnable, lnaTop),
    (psmByte1, psmByte1PsmAgc1, psmAgc), (agc1Byte1, agc1Byte1Agc1_6_15Db, agc1)]

/-! ### Tuning -/

/-- `tda18272_clear_irq` -/
def clearIrq (status : UInt8) : Step Unit := do
  setReg irqClear (status &&& 0x1f)
  setFieldAt .clearIrq irqClear irqClearIrqClear 0x80
  wr irqClear

/-- `tda18272_set_rf` -/
def setRf (t : Tuner) (freq : UInt32) : Step Unit := do
  clearIrq 0x0c
  pstate t .normal
  setReg rfFrequencyByte1 (((freq / 1000) &&& 0xff0000) >>> 16).toUInt8
  setReg rfFrequencyByte2 (((freq / 1000) &&& 0x00ff00) >>> 8).toUInt8
  setReg rfFrequencyByte3 ((freq / 1000) &&& 0x0000ff).toUInt8
  wrRegs rfFrequencyByte1 3
  setReg msmByte1 0x41
  setReg msmByte2 0x01
  wrRegs msmByte1 2
  waitIrq 50 5 0x0c

/-- The fields that `tda18272_set_frequency` begins with; `lo` is `frequency < TDA18272_AGC3_RF_AGC_TOP_FREQ_LIM`. -/
def coeffFields (coe : Coeff) (lo : Bool) : List (ℕ × ByteField × ℕ) :=
  [(ifByte1, ifByte1LpFc, coe.lpf.ctorIdx), (ifByte1, ifByte1LpFcOffset, coe.lpfOff.ctorIdx),
    (ifagc, ifagcIfLevel, coe.ifGain.ctorIdx), (ifByte1, ifByte1IfNotch, coe.ifNotch.ctorIdx)] ++
  (if coe.ifHpf = .disabled then [(irmixerByte2, irmixerByte2HiPass, 0x0)]
    else [(irmixerByte2, irmixerByte2HiPass, 0x1), (ifByte1, ifByte1IfHpFc, coe.ifHpf.ctorIdx - 1)]) ++
  [(irmixerByte2, irmixerByte2DcNotch, coe.dcNotch.ctorIdx), (agc1Byte1, agc1Byte1Agc1Top, coe.lnaTop.ctorIdx),
    (agc2Byte1, agc2Byte1Agc2Top, coe.rfattTop.ctorIdx),
    (rfagcByte1, rfagcByte1Agc3Top, if lo = true then coe.lobandRfagcTop.ctorIdx else coe.hibandRfagcTop.ctorIdx),
    (irmixerByte1, irmixerByte1Agc4Top, coe.irmixTop.ctorIdx), (agc5Byte1, agc5Byte1Agc5Top, coe.ifagcTop.ctorIdx),
    (rfagcByte1, rfagcByte1PdRfagcAdapt, coe.agc3Adapt.ctorIdx),
    (rfagcByte1, rfagcByte1RfagcAdaptTop, coe.agc3AdaptTop.ctorIdx),
    (rfagcByte1, rfagcByte1RfAtten3Db, coe.att3db.ctorIdx), (agc5Byte1, agc5Byte1Agc5Hpf, coe.detHpf.ctorIdx),
    (agckByte1, agckByte1AgckMode, (coe.gsk &&& 0x03).toNat),
    (agckByte1, agckByte1AgckStep, ((coe.gsk &&& 0x0c) >>> 2).toNat), (psmByte1, psmByte1PsmStob, coe.filter.ctorIdx),
    (ifFrequency, ifFrequencyIfFreq, ((coe.ifVal - coe.cfOff.toUInt32) / 50000).toNat)]

/-- The loop that takes `RF_FILTER_GV` down, one by one. -/
def rampDown : ℕ → Step Unit
  | 0 => pure ()
  | rffiltGv + 1 => do
    putFields [(rfFilterByte1, rfFilterByte1RfFilterGv, rffiltGv)]
    rampDown rffiltGv

/-- Before tuning, for a set that is immune to a gain step of the tuner. -/
def holdFilterGain : Step Unit := do
  rd rfAgcGainByte1
  let rffiltGv ← getField rfAgcGainByte1 rfAgcGainByte1RfFilterGain
  putFields [(rfFilterByte1, rfFilterByte1RfFilterGv, rffiltGv), (rfFilterByte1, rfFilterByte1ForceAgc2Gain, 0x1)]
  rampDown rffiltGv
  putFields [(rfagcByte1, rfagcByte1RfAtten3Db, 0x01)]

/-- `REFERENCE_DIGITAL_CLOCK` for a frequency. -/
def digitalClock (frequency : UInt32) : ℕ :=
  let ratioL : UInt8 := (frequency / 16000000).toUInt8
  let ratioH : UInt8 := ratioL + 1
  let deltaL := frequency - ratioL.toUInt32 * 16000000
  let deltaH := ratioH.toUInt32 * 16000000 - frequency
  if frequency < 72000000 then 0x1
  else if frequency < 104000000 then 0x0
  else if frequency ≤ 120000000 then 0x1
  else if deltaL ≤ deltaH then (if ratioL &&& 1 ≠ 0 then 0x0 else 0x1)
  else if ratioL &&& 1 ≠ 0 then 0x1 else 0x0

/-- The readings of the detectors: `steps_down` and `steps_up`. -/
def detect : ℕ → ℤ × ℤ → Step (ℤ × ℤ)
  | 0, steps => pure steps
  | n + 1, steps => do
    rd agcDetOut
    let down ← getField agcDetOut agcDetOutDoAgc1
    let up ← getField agcDetOut agcDetOutUpAgc1
    detect n (steps.1 + (if down ≠ 0 then 14 else -1), steps.2 + (if up ≠ 0 then 1 else -4))

/-- One step of the gain; `delta` is added in eight bits. -/
def stepGain (site : Site) (delta : ℕ) : Step Unit := do
  let gain ← getField agc1Byte2 agc1Byte2Agc1Gain
  setFieldAt site agc1Byte2 agc1Byte2Agc1Gain ((gain + delta) % 2 ^ 8)
  wr agc1Byte2

/-- The loop over `agc1_steps`; it ends when the detectors want no step. -/
def stepsAgc1 (agc1 : ℕ) : ℕ → Step Unit
  | 0 => pure ()
  | left + 1 => do
    let steps ← detect 40 (0, 0)
    let gain ← getField agc1Byte2 agc1Byte2Agc1Gain
    if 15 ≤ steps.2 ∧ gain ≠ 9 then do
      stepGain .gainUp 1
      stepsAgc1 agc1 left
    else if 10 ≤ steps.1 ∧ gain ≠ agc1 then do
      stepGain .gainDown (2 ^ 8 - 1)
      stepsAgc1 agc1 left
    else pure ()

/-- The gain that is frozen for a set with `agc1_freeze`; nobody looks at the first transfer. -/
def freezeAgc1 : Step Unit := do
  Act.attempt (rd agc1Byte2)
  let loopOff ← getField agc1Byte2 agc1Byte2Agc1LoopOff
  Act.onlyIf (decide (loopOff = 0))
    (putFields [(agc1Byte2, agc1Byte2Agc1LoopOff, 0x1), (agc1Byte2, agc1Byte2ForceAgc1Gain, 0x01)])
  let low ← getField agc1Byte1 agc1Byte1Agc1_6_15Db
  if low = 0 then stepsAgc1 0 10 else stepsAgc1 6 4

/-- `tda18272_set_frequency` -/
def setFrequency (t : Tuner) (coe : Coeff) (frequency : UInt32) : Step Unit := do
  putFields (coeffFields coe (decide (frequency < 291000000)))
  Act.onlyIf (coe.ltostoImmune && t.mode) holdFilterGain
  setRf t (frequency + coe.cfOff.toUInt32)
  Act.onlyIf (coe.ltostoImmune && t.mode)
    (putFields [(rfagcByte1, rfagcByte1RfAtten3Db, 0x00), (rfFilterByte1, rfFilterByte1ForceAgc2Gain, 0x1)])
  putFields [(reference, referenceDigitalClock, digitalClock frequency)]
  if coe.agc1Freeze = true then freezeAgc1
  else putFields [(agc1Byte2, agc1Byte2ForceAgc1Gain, 0x00), (agc1Byte2, agc1Byte2Agc1LoopOff, 0x00)]

/-! ### Runs -/

/-- What is asked of the driver. -/
inductive Op where
  | init
  | clearIrq (status : UInt8)
  | pstate (p : Power)
  | setFrequency (coe : Fin coeft.length) (frequency : UInt32)

def Op.step (t : Tuner) : Op → Step Unit
  | .init => Tda18272.init t
  | .clearIrq status => Tda18272.clearIrq status
  | .pstate p => Tda18272.pstate t p
  | .setFrequency coe frequency => Tda18272.setFrequency t (coeft.get coe) frequency

def updates (t : Tuner) (ops : List Op) (d : Dev) : List Update := Act.runAll (ops.map (Op.step t)) d

/-! ### Updates that fit -/

/-- The value fits the field: never where an interrupt is cleared, and for a step of the gain as long as
the gain has room for it. -/
def Update.Fits (u : Update) : Prop :=
  match u.site with
  | .clearIrq => False
  | .gainUp => agc1Byte2Agc1Gain.get u.before ≠ 15
  | .gainDown => agc1Byte2Agc1Gain.get u.before ≠ 0
  | .other => True

def Update.SoundIffFits (u : Update) : Prop := u.Sound ↔ u.Fits

/-- An update that is none of those to be told apart, and sound. -/
structure Update.Plain (u : Update) : Prop where
  site : u.site = .other
  sound : u.Sound

theorem Update.Plain.fits {u : Update} (h : u.Plain) : u.Fits := by
  rw [Update.Fits, h.site]
  trivial

theorem Update.Plain.soundIffFits {u : Update} (h : u.Plain) : u.SoundIffFits :=
  iff_of_true h.sound h.fits

/-! ### What the steps emit -/

section Emits

variable {P : Update → Prop}

theorem emits_check (ok : Bool) : Act.Emits P (check ok) :=
  Act.emits_ite (fun _ => Act.emits_pure ()) fun _ => Act.emits_fail

theorem emits_nextTransfer : Act.Emits P nextTransfer :=
  Act.emits_bind (Act.emits_read _) fun _ => Act.emits_bind (Act.emits_change _) fun _ => Act.emits_pure _

theorem emits_rdRegs (reg count : ℕ) : Act.Emits P (rdRegs reg count) :=
  Act.emits_bind emits_nextTransfer fun _ => Act.emits_bind (Act.emits_change _) fun _ => emits_check _

theorem emits_wrRegs (reg count : ℕ) : Act.Emits P (wrRegs reg count) :=
  Act.emits_bind emits_nextTransfer fun _ => emits_check _

theorem emits_setReg (r : ℕ) (b : UInt8) : Act.Emits P (setReg r b) := Act.emits_change _

theorem emits_getField_bind {α : Type} {r : ℕ} {f : ByteField} {k : ℕ → Step α}
    (h : ∀ val < 2 ^ f.width, Act.Emits P (k val)) : Act.Emits P (getField r f >>= k) :=
  Act.emits_read_bind fun d => h _ (f.get_lt _) d

theorem emits_calWait : Act.Emits P calWait := by
  refine Act.emits_bind (Act.emits_repeatUntil ?_ 20) emits_check
  exact Act.emits_bind (emits_rdRegs _ _) fun _ => Act.emits_bind (Act.emits_read _) fun _ => Act.emits_pure _

theorem emits_waitIrq (timeout step : ℕ) (status : UInt8) : Act.Emits P (waitIrq timeout step status) := by
  refine Act.emits_bind (Act.emits_repeatUntil ?_ _) emits_check
  refine Act.emits_bind (emits_rdRegs _ _) fun _ => Act.emits_bind (Act.emits_read _) fun _ => ?_
  exact Act.emits_bind (Act.emits_read _) fun _ => Act.emits_pure _

theorem emits_detect (n : ℕ) (steps : ℤ × ℤ) : Act.Emits P (detect n steps) := by
  induction n generalizing steps with
  | zero => exact Act.emits_pure steps
  | succ n ih =>
    refine Act.emits_bind (emits_rdRegs _ _) fun _ => Act.emits_bind (Act.emits_read _) fun _ => ?_
    exact Act.emits_bind (Act.emits_read _) fun _ => ih _

end Emits

/-! ### Plain updates -/

def Fit (ws : List (ℕ × ByteField × ℕ)) : Prop := ∀ w ∈ ws, w.2.2 < 2 ^ w.2.1.width

instance (ws : List (ℕ × ByteField × ℕ)) : Decidable (Fit ws) := inferInstanceAs (Decidable (∀ w ∈ ws, _))

theorem plain_setField (r : ℕ) {f : ByteField} {val : ℕ} (hval : val < 2 ^ f.width) :
    Act.Emits Update.Plain (setField r f val) :=
  Act.emits_record fun d => ⟨rfl, (f.sound_iff (d.regs r) val).mpr hval⟩

theorem plain_putFields {ws : List (ℕ × ByteField × ℕ)} (h : Fit ws) : Act.Emits Update.Plain (putFields ws) := by
  induction ws with
  | nil => exact Act.emits_pure ()
  | cons w ws ih =>
    refine Act.emits_bind (plain_setField w.1 (h w List.mem_cons_self)) fun _ => ?_
    refine Act.emits_bind (emits_wrRegs _ _) fun _ => ih fun w' hw' => h w' (List.mem_cons_of_mem _ hw')

variable (t : Tuner)

theorem plain_pstate (p : Power) : Act.Emits Update.Plain (pstate t p) := by
  have hbits : p.bits.1 < 2 ∧ p.bits.2.1 < 2 ∧ p.bits.2.2 < 2 := by
    cases p <;> decide
  refine Act.emits_bind (emits_rdRegs _ _) fun _ => ?_
  refine Act.emits_bind (Act.emits_onlyIf _ (plain_putFields (by decide))) fun _ => ?_
  refine Act.emits_bind (plain_setField _ hbits.1) fun _ => ?_
  refine Act.emits_bind (plain_setField _ hbits.2.1) fun _ => ?_
  refine Act.emits_bind (plain_setField _ hbits.2.2) fun _ => ?_
  refine Act.emits_bind (emits_wrRegs _ _) fun _ => Act.emits_onlyIf _ ?_
  refine Act.emits_bind (Act.emits_onlyIf _ (plain_setField _ (by decide))) fun _ => ?_
  exact plain_putFields (by decide)

theorem plain_reset : Act.Emits Update.Plain (reset t) := by
  refine Act.emits_bind (emits_rdRegs _ _) fun _ => ?_
  refine Act.emits_bind (plain_putFields (by decide)) fun _ => ?_
  refine Act.emits_bind (emits_wrRegs _ _) fun _ => ?_
  refine Act.emits_bind (plain_pstate t .normal) fun _ => ?_
  refine Act.emits_bind (emits_setReg _ _) fun _ => Act.emits_bind (emits_setReg _ _) fun _ => ?_
  exact Act.emits_bind (emits_wrRegs _ _) fun _ => emits_waitIrq _ _ _

theorem plain_init : Act.Emits Update.Plain (init t) := by
  refine Act.emits_bind (Act.emits_ite (fun _ => emits_calWait) fun _ => ?_) fun _ => ?_
  · refine Act.emits_bind (plain_putFields (by decide)) fun _ => ?_
    exact Act.emits_bind (plain_setField _ (by decide)) fun _ => Act.emits_attempt (emits_wrRegs _ _)
  · exact Act.emits_bind (plain_reset t) fun _ => plain_putFields (by decide)

theorem coeft_fit : ∀ coe ∈ coeft, ∀ lo, Fit (coeffFields coe lo) := by decide

theorem plain_rampDown {rffiltGv : ℕ} (h : rffiltGv < 2 ^ 2) : Act.Emits Update.Plain (rampDown rffiltGv) := by
  induction rffiltGv with
  | zero => exact Act.emits_pure ()
  | succ gv ih =>
    have hgv : gv < 2 ^ 2 := by omega
    refine Act.emits_bind (plain_putFields ?_) fun _ => ih hgv
    intro w hw
    rw [List.mem_singleton.mp hw]
    exact hgv

theorem plain_holdFilterGain : Act.Emits Update.Plain holdFilterGain := by
  refine Act.emits_bind (emits_rdRegs _ _) fun _ => emits_getField_bind fun gv hgv => ?_
  have hfit : Fit [(rfFilterByte1, rfFilterByte1RfFilterGv, gv), (rfFilterByte1, rfFilterByte1ForceAgc2Gain, 0x1)] := by
    intro w hw
    rcases List.mem_cons.mp hw with hw | hw
    · rw [hw]
      exact hgv
    · rw [List.mem_singleton.mp hw]
      decide
  refine Act.emits_bind (plain_putFields hfit) fun _ => ?_
  exact Act.emits_bind (plain_rampDown hgv) fun _ => plain_putFields (by decide)

theorem digitalClock_lt (frequency : UInt32) : digitalClock frequency < 2 := by
  unfold digitalClock
  dsimp only
  split_ifs <;> decide

/-! ### The others -/

/-- `0x80` is a bit of the register already, and is shifted once more. -/
theorem irqClear_not_sound (before : UInt8) : ¬ irqClearIrqClear.Sound before 0x80 := by
  intro hsound
  exact absurd ((irqClearIrqClear.sound_iff before 0x80).mp hsound) (by decide)

theorem emits_clearIrq (status : UInt8) : Act.Emits Update.SoundIffFits (clearIrq status) := by
  refine Act.emits_bind (emits_setReg _ _) fun _ => Act.emits_bind (Act.emits_record fun d => ?_) fun _ => emits_wrRegs _ _
  exact iff_of_false (irqClear_not_sound _) id

theorem emits_stepGain {site : Site} {delta : ℕ}
    (h : ∀ before, agc1Byte2Agc1Gain.get before < 16 →
      ((agc1Byte2Agc1Gain.get before + delta) % 256 < 16 ↔
        Update.Fits ⟨site, before, agc1Byte2Agc1Gain, (agc1Byte2Agc1Gain.get before + delta) % 256⟩)) :
    Act.Emits Update.SoundIffFits (stepGain site delta) := by
  refine Act.emits_read_bind fun d => Act.emitsAt_bind ?_ fun _ _ => emits_wrRegs _ _ _
  intro u hu
  rw [List.mem_singleton.mp hu]
  exact (agc1Byte2Agc1Gain.sound_iff _ _).trans (h _ (agc1Byte2Agc1Gain.get_lt _))

theorem emits_stepGain_up : Act.Emits Update.SoundIffFits (stepGain .gainUp 1) := by
  apply emits_stepGain
  intro before hgain
  show _ ↔ agc1Byte2Agc1Gain.get before ≠ 15
  omega

theorem emits_stepGain_down : Act.Emits Update.SoundIffFits (stepGain .gainDown (2 ^ 8 - 1)) := by
  apply emits_stepGain
  intro before hgain
  show (agc1Byte2Agc1Gain.get before + 255) % 256 < 16 ↔ agc1Byte2Agc1Gain.get before ≠ 0
  omega

theorem emits_stepsAgc1 (agc1 left : ℕ) : Act.Emits Update.SoundIffFits (stepsAgc1 agc1 left) := by
  induction left with
  | zero => exact Act.emits_pure ()
  | succ left ih =>
    refine Act.emits_bind (emits_detect _ _) fun _ => Act.emits_bind (Act.emits_read _) fun _ => ?_
    refine Act.emits_ite (fun _ => Act.emits_bind emits_stepGain_up fun _ => ih) fun _ => ?_
    exact Act.emits_ite (fun _ => Act.emits_bind emits_stepGain_down fun _ => ih) fun _ => Act.emits_pure ()

theorem Plain.emits {α : Type} {m : Step α} (h : Act.Emits Update.Plain m) : Act.Emits Update.SoundIffFits m :=
  h.mono fun _ hu => hu.soundIffFits

theorem emits_freezeAgc1 : Act.Emits Update.SoundIffFits freezeAgc1 := by
  refine Act.emits_bind (Act.emits_attempt (emits_rdRegs _ _)) fun _ => Act.emits_bind (Act.emits_read _) fun _ => ?_
  refine Act.emits_bind (Act.emits_onlyIf _ (Plain.emits (plain_putFields (by decide)))) fun _ => ?_
  refine Act.emits_bind (Act.emits_read _) fun _ => ?_
  exact Act.emits_ite (fun _ => emits_stepsAgc1 0 10) fun _ => emits_stepsAgc1 6 4

theorem emits_setRf (freq : UInt32) : Act.Emits Update.SoundIffFits (setRf t freq) := by
  refine Act.emits_bind (emits_clearIrq 0x0c) fun _ => ?_
  refine Act.emits_bind (Plain.emits (plain_pstate t .normal)) fun _ => ?_
  refine Act.emits_bind (emits_setReg _ _) fun _ => Act.emits_bind (emits_setReg _ _) fun _ => ?_
  refine Act.emits_bind (emits_setReg _ _) fun _ => Act.emits_bind (emits_wrRegs _ _) fun _ => ?_
  refine Act.emits_bind (emits_setReg _ _) fun _ => Act.emits_bind (emits_setReg _ _) fun _ => ?_
  exact Act.emits_bind (emits_wrRegs _ _) fun _ => emits_waitIrq _ _ _

theorem emits_setFrequency {coe : Coeff} (hcoe : coe ∈ coeft) (frequency : UInt32) :
    Act.Emits Update.SoundIffFits (setFrequency t coe frequency) := by
  have hclock : Fit [(reference, referenceDigitalClock, digitalClock frequency)] := by
    intro w hw
    rw [List.mem_singleton.mp hw]
    exact digitalClock_lt frequency
  refine Act.emits_bind (Plain.emits (plain_putFields (coeft_fit coe hcoe _))) fun _ => ?_
  refine Act.emits_bind (Act.emits_onlyIf _ (Plain.emits plain_holdFilterGain)) fun _ => ?_
  refine Act.emits_bind (emits_setRf t _) fun _ => ?_
  refine Act.emits_bind (Act.emits_onlyIf _ (Plain.emits (plain_putFields (by decide)))) fun _ => ?_
  refine Act.emits_bind (Plain.emits (plain_putFields hclock)) fun _ => ?_
  exact Act.emits_ite (fun _ => emits_freezeAgc1) fun _ => Plain.emits (plain_putFields (by decide))

/-! ### All runs -/

theorem emits_step (o : Op) : Act.Emits Update.SoundIffFits (o.step t) := by
  cases o with
  | init => exact Plain.emits (plain_init t)
  | clearIrq status => exact emits_clearIrq status
  | pstate p => exact Plain.emits (plain_pstate t p)
  | setFrequency coe frequency => exact emits_setFrequency t (List.get_mem coeft coe) frequency

theorem clearIrq_mem_updates (status : UInt8) (d : Dev) :
    ∃ before, Update.mk .clearIrq before irqClearIrqClear 0x80 ∈ updates t [.clearIrq status] d :=
  ⟨_, List.mem_cons_self⟩

/-- **The updates of every run**: an update is sound exactly if its value fits.  Initialisation and power
changes make no other updates; clearing an interrupt makes one that is not sound. -/
theorem updates_sound_iff (t : Tuner) (ops : List Op) (d : Dev) :
    (∀ u ∈ updates t ops d, (u.Sound ↔ u.Fits)) ∧
      ((∀ u ∈ updates t ops d, u.Sound) ↔ ∀ u ∈ updates t ops d, u.Fits) ∧
      (∀ p, ∀ u ∈ updates t [.init, .pstate p] d, u.Sound) ∧
      ∀ status, ¬ ∀ u ∈ updates t [.clearIrq status] d, u.Sound := by
  have heach : ∀ u ∈ updates t ops d, (u.Sound ↔ u.Fits) := by
    refine Act.mem_runAll (fun m hm => ?_) d
    obtain ⟨o, -, rfl⟩ := List.mem_map.mp hm
    exact emits_step t o
  refine ⟨heach, forall₂_congr heach, fun p => ?_, fun status hsound => ?_⟩
  · have hplain : ∀ u ∈ updates t [.init, .pstate p] d, u.Plain := by
      refine Act.mem_runAll (fun m hm => ?_) d
      rcases List.mem_cons.mp hm with hm | hm
      · rw [hm]
        exact plain_init t
      · rw [List.mem_singleton.mp hm]
        exact plain_pstate t p
    exact fun u hu => (hplain u hu).sound
  · obtain ⟨before, hmem⟩ := clearIrq_mem_updates t status d
    exact irqClear_not_sound before (hsound _ hmem)

/-- The interrupts of `tda18272_set_rf`: the field that clears them stays 0. -/
theorem not_updates_sound_0c :
    ∃ u ∈ updates ⟨true, true⟩ [.clearIrq 0x0c] ⟨fun _ => 0, fun _ => ⟨true, fun _ => 0⟩⟩,
      u.before = 0x0c ∧ u.val = 0x80 ∧ u.field.set u.before u.val = 0x0c ∧ ¬ u.Sound := by
  exact ⟨_, List.mem_cons_self, rfl, rfl, by decide, irqClear_not_sound _⟩

end BgtDvb.Tda18272
