import BgtDvb.Saa7231Dev

/-!
# The clock generation unit of the SAA7231

`saa7231_cgu.c`: nineteen clock domains, each with an output register, ten ports that ask for clocks
and three ADCs.  The driver keeps a shadow of what it wrote (`clk_status`) and the setup of the ports
(`port_setup`).  A `BUG_ON` that fires is `none`.

* `setClk_cases`, `activate_cases` — **PROVED**: what setting a clock and activating a port can do.
-/

namespace BgtDvb.Saa7231

open BgtDvb.RegFile

/-! ### Enumerations -/

/-- `enum saa7231_clk_domain`. -/
inductive ClkDomain where
  | xtalDcsn | vadcaMscd | vadcbMscd | tsMscd | mscd | mscdAxi | vcp | refPllAud | fs128Aud | fs128Adc
  | epicsAud | pcc | ctrlPcc | streamPcc | tsoutCaextPcc | rsv0 | rsv1 | extCa | fs128Bbadc
  deriving Repr, DecidableEq

def ClkDomain.all : List ClkDomain :=
  [.xtalDcsn, .vadcaMscd, .vadcbMscd, .tsMscd, .mscd, .mscdAxi, .vcp, .refPllAud, .fs128Aud, .fs128Adc,
    .epicsAud, .pcc, .ctrlPcc, .streamPcc, .tsoutCaextPcc, .rsv0, .rsv1, .extCa, .fs128Bbadc]

def ClkDomain.id (d : ClkDomain) : ℕ := ClkDomain.all.idxOf d

/-- The three domains that `cgu_system_setup` leaves alone. -/
def ClkDomain.isSystem (d : ClkDomain) : Bool :=
  match d with
  | .pcc | .ctrlPcc | .xtalDcsn => true
  | _ => false

/-- `enum clk_frequency`. -/
inductive ClkFrequency where
  | off | low | usecase | no
  deriving Repr, DecidableEq

/-- `enum clkport`, `CLKPORTS` aside. -/
inductive ClkPort where
  | audio | rds | video | vbi | digital0 | digital1 | ts0 | ts1 | tsin | tsout
  deriving Repr, DecidableEq

def ClkPort.all : List ClkPort :=
  [.audio, .rds, .video, .vbi, .digital0, .digital1, .ts0, .ts1, .tsin, .tsout]

/-- `enum avis_adcmode`. -/
inductive AdcMode where
  | none | cvbs1 | cvbs2 | cvbs3 | cvbs4 | cvbsAtv | yc1 | yc2 | rgb1 | rgb2 | ypbpr1 | ypbpr2
  | atvDif | atvLowIf | atvBb | dvbtDif3 | dvbtDif1 | dvbtLowIf3 | dvbtLowIf1 | dvbsZif | fmIf | audBb
  deriving Repr, DecidableEq

/-- The flag of a mode, `1 << index` of its clock for all but `ADCIN_NONE`. -/
def AdcMode.flag : AdcMode → ℕ
  | .none => 0x00000000
  | .cvbs1 => 0x00000001
  | .cvbs2 => 0x00000002
  | .cvbs3 => 0x00000004
  | .cvbs4 => 0x00000008
  | .cvbsAtv => 0x00000010
  | .yc1 => 0x00000020
  | .yc2 => 0x00000040
  | .rgb1 => 0x00000080
  | .rgb2 => 0x00000100
  | .ypbpr1 => 0x00000200
  | .ypbpr2 => 0x00000400
  | .atvDif => 0x00000800
  | .atvLowIf => 0x00001000
  | .atvBb => 0x00002000
  | .dvbtDif3 => 0x00004000
  | .dvbtDif1 => 0x00008000
  | .dvbtLowIf3 => 0x00010000
  | .dvbtLowIf1 => 0x00020000
  | .dvbsZif => 0x00040000
  | .fmIf => 0x00080000
  | .audBb => 0x00100000

inductive Adc where
  | adc1 | adc2 | adc3
  deriving Repr, DecidableEq

inductive Pll550Index where
  | ad | refa
  deriving Repr, DecidableEq

inductive Pll160Index where
  | dsp | cdec
  deriving Repr, DecidableEq

inductive Divider where
  | divider0 | divider1 | divider2
  deriving Repr, DecidableEq

/-- `enum clk_input`. -/
inductive ClkInput where
  | xtalDel | xtalH | clk250M | pcieRefout | tsinA | tsinB | tsinCa | fs128 | pci | spi
  | pllDel | pllRefa | pllDsp | pllCdec | fdiv0 | fdiv1 | fdiv2
  deriving Repr, DecidableEq

def ClkInput.all : List ClkInput :=
  [.xtalDel, .xtalH, .clk250M, .pcieRefout, .tsinA, .tsinB, .tsinCa, .fs128, .pci, .spi,
    .pllDel, .pllRefa, .pllDsp, .pllCdec, .fdiv0, .fdiv1, .fdiv2]

/-- `enum clock_type`, with the index of the source of that type. -/
inductive ClockType where
  | direct
  | divider (i : Divider)
  | pll550 (i : Pll550Index)
  | pll160 (i : Pll160Index)
  deriving Repr, DecidableEq

/-! ### The state -/

structure Pll550Setup where
  m : ℕ
  n : ℕ
  p : ℕ
  selR : ℕ
  selI : ℕ
  selP : ℕ
  deriving Repr, DecidableEq

structure Pll160Setup where
  m : ℕ
  n : ℕ
  p : ℕ
  direct : ℕ
  deriving Repr, DecidableEq

/-- `struct clk_setup`. -/
structure ClkSetup where
  clkIn : ℕ
  div : ℕ
  preset : ℕ
  deriving Repr, DecidableEq

/-- `struct clk_in`. -/
structure ClkIn where
  active : Bool
  preset : ℕ
  deriving Repr, DecidableEq

/-- `struct port_setup`. -/
structure PortSetup where
  active : Bool
  lastCfg : AdcMode
  index : ℕ
  deriving Repr, DecidableEq

/-- The registers of the device, `struct saa7231_cgu` and the version of the chip. -/
structure Cgu where
  regs : Reg → ℕ
  version : Fin 2
  pll160 : Fin 3 → Pll160Setup
  pll550 : Fin 3 → Pll550Setup
  adcIn : Adc → ℕ
  clkIn : ClkInput → ClkIn
  freq : ClkDomain → ClkFrequency
  setup : ClkDomain → ClkSetup
  clkinSetup : ℕ
  clkoutSetup : ℕ
  port : ClkPort → PortSetup

/-- `SAA7231_WR` in a row. -/
def Cgu.wrRegs (c : Cgu) (ws : List (Reg × ℕ)) : Cgu := { c with regs := wrAll c.regs ws }

def Cgu.wrOut (c : Cgu) (k : Reg) (val : ℕ) (d : ClkDomain) (s : ClkSetup) (f : ClkFrequency) : Cgu :=
  { c with
    regs := wr c.regs k val
    setup := Function.update c.setup d s
    freq := Function.update c.freq d f }

def Cgu.setPort (c : Cgu) (p : ClkPort) (s : PortSetup) : Cgu :=
  { c with port := Function.update c.port p s }

/-! ### The PLLs and dividers -/

def pll160Clk54 : Fin 3 → Pll160Setup := ![⟨21, 3, 1, 1⟩, ⟨15, 2, 1, 0⟩, ⟨10, 2, 0, 1⟩]

def pll160Clk27 : Fin 3 → Pll160Setup := ![⟨0, 0, 0, 0⟩, ⟨0, 0, 0, 0⟩, ⟨0, 0, 0, 0⟩]

def pll550Clk54 : Fin 3 → Pll550Setup :=
  ![⟨10922, 88, 66, 0, 32, 15⟩, ⟨511, 1, 66, 0, 12, 5⟩, ⟨3, 770, 66, 0, 4, 1⟩]

def pll550Clk27 : Fin 3 → Pll550Setup :=
  ![⟨0, 0, 0, 0, 32, 15⟩, ⟨0, 0, 0, 0, 12, 5⟩, ⟨0, 0, 0, 0, 4, 1⟩]

/-- The control, multiplier and divider registers of a 550 MHz PLL. -/
def Pll550Index.regC : Pll550Index → Reg
  | .ad => (.cgu, 0x0020)
  | .refa => (.cgu, 0x0030)

def Pll550Index.regM : Pll550Index → Reg
  | .ad => (.cgu, 0x0024)
  | .refa => (.cgu, 0x0034)

def Pll550Index.regN : Pll550Index → Reg
  | .ad => (.cgu, 0x0028)
  | .refa => (.cgu, 0x0038)

def saa7231Pll550Setup (c : Cgu) (i : Pll550Index) (enable : Bool) (freq : Fin 3) : Cgu :=
  let t := c.pll550 freq
  let m := (t.selR <<< 28) ||| (t.selI <<< 22) ||| (t.selP <<< 17) ||| (t.m <<< 0)
  let n := (t.n <<< 12) ||| (t.p <<< 0)
  let ctl := (1 <<< 11) ||| (1 <<< 4) ||| (1 <<< 10) ||| (1 <<< 9) ||| (1 <<< 8) ||| (0 <<< 0)
  if enable then c.wrRegs [(i.regC, 1 <<< 0), (i.regM, m), (i.regN, n), (i.regC, ctl)]
  else c.wrRegs [(i.regM, m), (i.regN, n), (i.regC, ctl ||| (1 <<< 0))]

def Pll160Index.regC : Pll160Index → Reg
  | .dsp => (.cgu, 0x0040)
  | .cdec => (.cgu, 0x0048)

def saa7231Pll160Setup (c : Cgu) (i : Pll160Index) (enable : Bool) (freq : Fin 3) : Cgu :=
  let t := c.pll160 freq
  let ctl := (1 <<< 11) ||| (t.direct <<< 7) ||| (t.m <<< 16) ||| (t.n <<< 12) ||| (t.p <<< 8) |||
    (0 <<< 0)
  if enable then c.wrRegs [(i.regC, ctl ||| (1 <<< 0)), (i.regC, ctl)]
  else c.wrRegs [(i.regC, ctl ||| (1 <<< 0))]

def Divider.reg : Divider → Reg
  | .divider0 => (.cgu, 0x004C)
  | .divider1 => (.cgu, 0x0050)
  | .divider2 => (.cgu, 0x0054)

def saa7231DividerSetup (c : Cgu) (i : Divider) (val : ℕ) : Cgu := c.wrRegs [(i.reg, val)]

/-! ### A clock output -/

/-- `CLKOUT(module)`. -/
def clkout (k : ℕ) : ℕ := 0x0058 + k * 4

/-- The output register of a domain: the outputs of the tests and of the debugger lie between
`TSOUT_CAEXT_PCC` and the rest. -/
def outReg (d : ClkDomain) : Reg :=
  (.cgu, if d.id ≤ ClkDomain.tsoutCaextPcc.id then clkout d.id else clkout (d.id + 8))

/-- `clk_out_setup`: clock input and divider. -/
def clkOutSetup : ClkDomain → List (ℕ × ℕ)
  | .xtalDcsn => [(0, 1), (0, 1), (0, 0), (0, 0)]
  | .vadcaMscd => [(10, 2), (10, 1), (0, 0), (0, 0)]
  | .vadcbMscd => [(0, 1), (10, 1), (10, 2), (0, 0)]
  | .tsMscd => [(15, 8), (0, 4), (0, 0), (0, 0)]
  | .mscd => [(15, 1), (15, 1), (0, 0), (0, 0)]
  | .mscdAxi => [(0, 1), (0, 1), (0, 0), (0, 0)]
  | .vcp => [(0, 1), (0, 1), (0, 0), (0, 0)]
  | .refPllAud => [(11, 1), (11, 1), (0, 0), (0, 0)]
  | .fs128Aud => [(18, 1), (18, 1), (0, 0), (0, 0)]
  | .fs128Adc => [(0, 8), (0, 8), (0, 0), (0, 0)]
  | .epicsAud => [(11, 1), (11, 1), (0, 0), (0, 0)]
  | .pcc => [(0, 1), (0, 1), (0, 0), (0, 0)]
  | .ctrlPcc => [(0, 1), (0, 1), (0, 0), (0, 0)]
  | .streamPcc => [(11, 1), (11, 1), (0, 0), (0, 0)]
  | .tsoutCaextPcc => [(12, 1), (12, 1), (0, 0), (0, 0)]
  | .rsv0 => [(0, 1), (0, 1), (0, 0), (0, 0)]
  | .rsv1 => [(0, 1), (0, 1), (0, 0), (0, 0)]
  | .extCa => [(0, 1), (0, 1), (0, 0), (0, 0)]
  | .fs128Bbadc => [(0, 8), (0, 8), (0, 0), (0, 0)]

/-- `clk_out_setup[d][i]`. -/
def outSetup (d : ClkDomain) (i : ℕ) : ℕ × ℕ := (clkOutSetup d).getD i (0, 0)

/-- `CLOCKOUT_DIVIDER_LOW`. -/
def clockoutDividerLow : ℕ := 0x07

def clockEnable : ℕ := 0

def clockDisable : ℕ := 1

/-- The word of an output: source, divider, autoblock and the disable bit. -/
def outClock (src div ena : ℕ) : ℕ := (src <<< 24) ||| (div <<< 2) ||| (1 <<< 11) ||| (ena <<< 0)

/-- Divider and disable bit of a frequency; `CLK_NO` has none. -/
def divEna (d : ClkDomain) : ClkFrequency → Option (ℕ × ℕ)
  | .off => some (clockoutDividerLow, clockDisable)
  | .low => some (clockoutDividerLow, clockEnable)
  | .usecase => some ((outSetup d 0).2 - 1, clockEnable)
  | .no => none

def saa7231SetClk (c : Cgu) (d : ClkDomain) (f : ClkFrequency) : ℤ × Cgu :=
  if f = .off ∧ (d = .pcc ∨ d = .xtalDcsn) then
    (0, { c with freq := Function.update c.freq d f })
  else if d = .pcc then (0, c)
  else if f ≠ c.freq d then
    match divEna d f with
    | none => (-einval, c)
    | some (div, ena) =>
      let src := (outSetup d 0).1
      (0, c.wrOut (outReg d) (outClock src div ena) d ⟨src, div, 0⟩ f)
  -- the recorded frequency: `val`, `src` and `div` still hold their initial zeros
  else (0, c.wrOut (outReg d) 0 d ⟨0, 0, 0⟩ f)

/-! ### Initialisation -/

/-- What the device answers to the two reads of `RGU_RESET_ACTIVE0` and `RGU_RESET_ACTIVE1`. -/
structure ResetActive where
  active0 : ℕ
  active1 : ℕ
  deriving Repr, DecidableEq

/-- `~val` on 32 bits. -/
def not32 (v : ℕ) : ℕ := 2 ^ 32 - 1 - v % 2 ^ 32

/-- The outputs of the tests and of the debugger: `TEST1` to `DBG_3`. -/
def testOutputs : List Reg :=
  [(.cgu, 0x0094), (.cgu, 0x0098), (.cgu, 0x009C), (.cgu, 0x00A0), (.cgu, 0x00A4), (.cgu, 0x00A8),
    (.cgu, 0x00AC), (.cgu, 0x00B0)]

def gcr5MonitorSbSelect : Reg := (.cgu, 0x0D14)

/-- The clock gates of the stream module, in the order in which they are opened. -/
def streamClgates : List Reg :=
  [(.stream, 0x0094), (.stream, 0x0098), (.stream, 0x009C), (.stream, 0x00A0), (.stream, 0x00A4),
    (.stream, 0x0080), (.stream, 0x0084), (.stream, 0x0088), (.stream, 0x008C), (.stream, 0x0090),
    (.stream, 0x00A8), (.stream, 0x00AC), (.stream, 0x00B0)]

/-- The writes of `saa7231_cgu_init` between the first settings of the clocks and the last one. -/
def cguInitWrites (gcr5 : ℕ) (a : ResetActive) : List (Reg × ℕ) :=
  testOutputs.map (fun k => (k, clockoutDividerLow <<< 2 ||| clockDisable <<< 0))
    ++ [(gcr5MonitorSbSelect, gcr5 &&& not32 0x1F000000 ||| 0x1F000000)]
    ++ streamClgates.map (fun k => (k, 0x01))
    ++ [((.rgu, 0x0100), not32 a.active0 ||| 0x00780268), ((.rgu, 0x0100), not32 a.active0 &&& 0xff87fd97),
      ((.rgu, 0x0100), 0x00), ((.rgu, 0x0104), not32 a.active1 ||| 0x0000041A),
      ((.rgu, 0x0104), not32 a.active1 &&& 0xFFFFFBE5), ((.stream, 0x0004), 0x1f)]

/-- The state that `kzalloc` gives, with the tables of the root clock. -/
def Cgu.zeroed (regs : Reg → ℕ) (version : Fin 2) (pll160 : Fin 3 → Pll160Setup)
    (pll550 : Fin 3 → Pll550Setup) : Cgu where
  regs := regs
  version := version
  pll160 := pll160
  pll550 := pll550
  adcIn := fun _ => 0
  clkIn := fun _ => ⟨false, 0⟩
  freq := fun _ => .off
  setup := fun _ => ⟨0, 0, 0⟩
  clkinSetup := 0
  clkoutSetup := 0
  port := fun _ => ⟨false, .none, 0⟩

def cguInitPlls (c : Cgu) : Cgu :=
  let c := saa7231Pll550Setup c .ad true 0
  let c := saa7231Pll550Setup c .refa true 2
  let c := saa7231Pll160Setup c .dsp true 1
  saa7231Pll160Setup c .cdec true 2

/-- `saa7231_set_clk` over a list of domains. -/
def setClks (c : Cgu) (ds : List ClkDomain) (f : ClkFrequency) : Cgu :=
  ds.foldl (fun c d => (saa7231SetClk c d f).2) c

/-- What is left of `saa7231_cgu_init` once the tables are chosen. -/
def cguInitClocks (c : Cgu) (a : ResetActive) : Cgu :=
  let c := setClks (cguInitPlls c) ClkDomain.all .usecase
  let c := c.wrRegs (cguInitWrites (c.regs gcr5MonitorSbSelect) a)
  (saa7231SetClk c .extCa .off).2

/-- With a custom root clock the tables stay null and the first PLL setup reads through them. -/
def saa7231CguInit (clk : RootClk) (regs : Reg → ℕ) (version : Fin 2) (a : ResetActive) : Option Cgu :=
  match clk with
  | .clk27MHz => some (cguInitClocks (.zeroed regs version pll160Clk27 pll550Clk27) a)
  | .clk54MHz => some (cguInitClocks (.zeroed regs version pll160Clk54 pll550Clk54) a)
  | .custom => none

/-! ### The clocks of a use case -/

/-- `input_clktype`. -/
def inputClktype : ClkInput → ClockType
  | .pllDel => .pll550 .ad
  | .pllRefa => .pll550 .refa
  | .pllDsp => .pll160 .dsp
  | .pllCdec => .pll160 .cdec
  | .fdiv0 => .divider .divider0
  | .fdiv1 => .divider .divider1
  | .fdiv2 => .divider .divider2
  | _ => .direct

/-- `clkin_presets[clk_in][0]`, the one column that is read. -/
def clkinPresets : ClkInput → Fin 3
  | .pllRefa => 2
  | .pllDsp => 1
  | .pllCdec => 2
  | _ => 0

def divPreset : Fin 3 → ℕ := ![0x0009350c, 0, 0]

/-- `SAA7231_CLOCKS`. -/
def saa7231Clocks : ℕ := 24

/-- `clk_sel`. -/
def clkSel (index : ℕ) : ℕ :=
  [1, 1, 1, 1, 1, 1, 1, 1, 1, 1, 1, 2, 2, 2, 3, 7, 3, 8, 6, 4, 4, 5, 5, 5].getD index 0

/-- `clkin_sel`. -/
def clkinSel (i : ClkInput) (preset : ℕ) : ℕ :=
  match i with
  | .xtalDel | .clk250M | .pcieRefout | .pci | .pllRefa => [0, 1, 1, 1, 1, 1, 1, 1, 1].getD preset 0
  | .fs128 => [0, 0, 0, 0, 1, 0, 0, 0, 0].getD preset 0
  | .pllDel | .pllCdec => [0, 0, 0, 1, 0, 0, 1, 1, 1].getD preset 0
  | .pllDsp => [0, 0, 0, 0, 0, 1, 0, 0, 0].getD preset 0
  | .fdiv0 => [0, 0, 1, 0, 1, 0, 0, 0, 0].getD preset 0
  | .xtalH | .tsinA | .tsinB | .tsinCa | .spi | .fdiv1 | .fdiv2 => 0

def clkinPresetMask (preset : ℕ) : ℕ :=
  [0x00000, 0x0090D, 0x0490D, 0x0290D, 0x0498D, 0x0190D, 0x02D0D, 0x0290D, 0x0290D].getD preset 0

def clkoutPresetMask (preset : ℕ) : ℕ :=
  [0x01000, 0x03041, 0x035C1, 0x0301E, 0x43781, 0x03001, 0x0301F, 0x0301B, 0x0301B].getD preset 0

/-- `clkout_sel`. -/
def clkoutSel (d : ClkDomain) (preset : ℕ) : ℕ :=
  match d with
  | .xtalDcsn | .streamPcc => [0, 1, 1, 1, 1, 1, 1, 1, 1].getD preset 0
  | .vadcaMscd => [0, 0, 0, 0, 0, 0, 0, 1, 1].getD preset 0
  | .vadcbMscd => [0, 0, 0, 3, 0, 0, 2, 3, 0].getD preset 0
  | .tsMscd => [0, 0, 0, 1, 0, 0, 2, 1, 2].getD preset 0
  | .mscd => [0, 0, 0, 1, 0, 0, 1, 1, 1].getD preset 0
  | .vcp => [0, 1, 1, 0, 0, 0, 0, 0, 0].getD preset 0
  | .refPllAud | .fs128Aud | .epicsAud => [0, 0, 1, 0, 1, 0, 0, 0, 0].getD preset 0
  | .fs128Adc | .fs128Bbadc => [0, 0, 0, 0, 1, 0, 0, 0, 0].getD preset 0
  | .ctrlPcc => [1, 1, 1, 1, 1, 1, 1, 1, 1].getD preset 0
  | .tsoutCaextPcc => [0, 0, 0, 0, 0, 1, 0, 0, 0].getD preset 0
  | .mscdAxi | .pcc | .rsv0 | .rsv1 | .extCa => 0

def inputSetup (c : Cgu) (i : ClkInput) : Cgu :=
  match inputClktype i with
  | .pll160 j => saa7231Pll160Setup c j true (clkinPresets i)
  | .pll550 j => saa7231Pll550Setup c j true (clkinPresets i)
  | .divider j => saa7231DividerSetup c j (divPreset (clkinPresets i))
  | .direct => c

def inputStep (preset : ℕ) (c : Cgu) (i : ClkInput) : Cgu :=
  if clkinSel i preset ≠ 0 ∧ (c.clkIn i).active then
    let c := inputSetup c i
    { c with clkIn := Function.update c.clkIn i ⟨true, clkinPresets i⟩ }
  else c

def inputsSetup (preset : ℕ) (c : Cgu) : Cgu :=
  if clkinPresetMask preset ≠ c.clkinSetup &&& clkinPresetMask preset then
    let c := ClkInput.all.foldl (inputStep preset) c
    { c with clkinSetup := c.clkinSetup ||| clkinPresetMask preset }
  else c

/-- A preset of a domain differs from the shadow.  `div_out - 1` is a `u32`. -/
def SetupDiffers (c : Cgu) (d : ClkDomain) (sel : ℕ) : Prop :=
  ((outSetup d (sel - 1)).2 + (2 ^ 32 - 1)) % 2 ^ 32 ≠ (c.setup d).div ∨
    (outSetup d (sel - 1)).1 ≠ (c.setup d).clkIn ∨ sel - 1 ≠ (c.setup d).preset

instance (c : Cgu) (d : ClkDomain) (sel : ℕ) : Decidable (SetupDiffers c d sel) :=
  inferInstanceAs (Decidable (_ ∨ _ ∨ _))

def Cgu.orClkout (c : Cgu) (preset : ℕ) : Cgu :=
  { c with clkoutSetup := c.clkoutSetup ||| clkoutPresetMask preset }

/-- One round of the loop over the domains.  The register is `CLKOUT(d)` for every domain. -/
def outputStep (preset : ℕ) (c : Cgu) (d : ClkDomain) : Cgu :=
  if d.isSystem then c
  else if clkoutSel d preset = 0 then c
  else if SetupDiffers c d (clkoutSel d preset) then
    let s := outSetup d (clkoutSel d preset - 1)
    (c.wrOut (.cgu, clkout d.id) (outClock s.1 (s.2 - 1) 0) d
      ⟨s.1, s.2 - 1, clkoutSel d preset - 1⟩ .usecase).orClkout preset
  else c

def cguSystemSetup (c : Cgu) (index : ℕ) : Cgu :=
  (ClkDomain.all.foldl (outputStep (clkSel index)) (inputsSetup (clkSel index) c)).orClkout
    (clkSel index)

/-! ### The clocks of the ADCs -/

/-- `adc_sel`: the ADC preset of a clock. -/
def adcSel (index : ℕ) (version : Fin 2) : ℕ :=
  match version with
  | 0 => [1, 1, 2, 2, 1, 1, 1, 4, 4, 4, 4, 1, 1, 1, 5, 7, 5, 7, 5, 2, 0, 0, 0, 0].getD index 0
  | 1 => [1, 1, 2, 2, 1, 1, 1, 4, 4, 4, 4, 1, 1, 1, 3, 6, 3, 6, 5, 2, 0, 0, 0, 0].getD index 0

/-- `adc_clksel`; 8 leaves the ADC as it is. -/
def adcClksel : Adc → ℕ → ℕ
  | .adc1, sel => [8, 2, 8, 8, 2, 8, 0, 0].getD sel 0
  | .adc2, sel => [8, 8, 2, 8, 2, 0, 8, 0].getD sel 0
  | .adc3, sel => [8, 8, 8, 0, 8, 0, 8, 8].getD sel 0

def gcr9AnaClockDivSel : Reg := (.cgu, 0x0D24)

/-- Mask and position of an ADC in `GCR9`. -/
def vadcMask : Adc → ℕ
  | .adc1 => 0x00000003
  | .adc2 => 0x0000000C
  | .adc3 => 0x00000030

def vadcPos : Adc → ℕ
  | .adc1 => 0
  | .adc2 => 2
  | .adc3 => 4

def saa7231AdcSetup (c : Cgu) (adc : Adc) (clk : ℕ) (force : Bool) : Cgu :=
  if !force ∧ c.adcIn adc = clk then c
  else
    { c.wrRegs [(gcr9AnaClockDivSel,
        c.regs gcr9AnaClockDivSel &&& not32 (vadcMask adc) ||| clk <<< vadcPos adc)] with
      adcIn := Function.update c.adcIn adc clk }

def adcStep (sel : ℕ) (c : Cgu) (adc : Adc) : Cgu :=
  if adcClksel adc sel ≠ 8 then saa7231AdcSetup c adc (adcClksel adc sel) false else c

/-- `saa7231_adc_clksetup` for a clock of the table. -/
def saa7231AdcClksetup (c : Cgu) (index : ℕ) : Cgu :=
  [Adc.adc1, .adc2, .adc3].foldl (adcStep (adcSel index c.version)) c

/-- A clock beyond the table is a `BUG_ON`. -/
def cguUpdateClk (c : Cgu) (index : ℕ) : Option (ℤ × Cgu) :=
  if saa7231Clocks ≤ index then none else some (0, saa7231AdcClksetup (cguSystemSetup c index) index)

/-! ### Ports -/

/-- The result and the port; `none` is `CLKPORTS`. -/
def cguGetclkInstance (mode : Mode) (dmaport : StreamPort) : ℤ × Option ClkPort :=
  match mode with
  | .audioCapture => if dmaport = .as2dLocal then (0, some .audio) else (-einval, none)
  | .rdsCapture => if dmaport.id = 0 then (0, some .rds) else (-einval, none)
  | .vbiCapture => if dmaport = .ds2dAvis then (0, some .vbi) else (-einval, none)
  | .videoCapture => if dmaport = .vs2dAvis then (0, some .video) else (-einval, none)
  | .digitalCapture =>
    match dmaport with
    | .ts2dDtv0 => (0, some .digital0)
    | .ts2dDtv1 => (0, some .digital1)
    | .ts2dExt0 => (0, some .ts0)
    | .ts2dExt1 => (0, some .ts1)
    | .ts2dCam => (0, some .tsin)
    | _ => (-einval, none)
  | .digitalRender => if dmaport = .tsoifPc then (0, some .tsout) else (-einval, none)
  | .remoteControl => if dmaport.id = 0 then (0, none) else (-einval, none)
  | .none | .encoderCapture => (-einval, none)

/-- `adcuse_ex`: 1 if two ADC presets may be used together. -/
def adcuseEx (i j : ℕ) : ℕ :=
  ([[1, 1, 1, 1, 1, 1, 1, 1],
    [1, 0, 1, 1, 0, 1, 0, 0],
    [1, 1, 0, 1, 0, 0, 1, 0],
    [1, 1, 1, 0, 1, 0, 1, 0],
    [1, 0, 0, 1, 0, 0, 0, 0],
    [1, 1, 0, 0, 0, 0, 1, 0],
    [1, 0, 1, 1, 0, 1, 0, 0],
    [1, 0, 0, 0, 0, 0, 0, 0]].getD i []).getD j 0

def clkuseMask : ClkPort → List ClkPort
  | .audio | .rds | .video | .vbi => [.digital0, .digital1]
  | .digital0 => [.audio, .rds, .video, .vbi, .digital1]
  | .digital1 => [.audio, .rds, .video, .vbi, .digital0]
  | _ => []

/-- The test of the loop of `cgu_clkupdate_instance` at a port. -/
def clkClash (c : Cgu) (p : ClkPort) (index : ℕ) (q : ClkPort) : Bool :=
  decide (q ∈ clkuseMask p) && (c.port q).active &&
    decide (adcuseEx (adcSel index c.version) (adcSel (c.port q).index c.version) = 0)

def cguClkupdateInstance (c : Cgu) (p : ClkPort) (index : ℕ) : ℤ :=
  if saa7231Clocks ≤ index then -einval
  else
    match ClkPort.all.find? (clkClash c p index) with
    -- the loop is left by `break`; nothing after it asks why it ended
    | some _ => 0
    | none => 0

def altPath : AdcMode → Option AdcMode
  | .dvbtLowIf1 => some .dvbtLowIf3
  | .dvbtLowIf3 => some .dvbtLowIf1
  | .dvbtDif1 => some .dvbtDif3
  | .dvbtDif3 => some .dvbtDif1
  | _ => none

/-- `for (i = alt_path >> 1; i; i >>= 1) alt_index++`. -/
def altIndex (m : AdcMode) : ℕ := (m.flag >>> 1).size

/-- The end of `saa7231_activate_clocks`: set the clocks up and mark the port. -/
def finishActivate (c : Cgu) (p : ClkPort) : Option (ℤ × Cgu) :=
  match cguUpdateClk c (c.port p).index with
  | none => none
  | some (ret, c) =>
    if ret ≠ 0 then some (ret, c) else some (ret, c.setPort p { c.port p with active := true })

def saa7231ActivateClocks (c : Cgu) (mode : Mode) (port : StreamPort) : Option (ℤ × Cgu) :=
  let r := cguGetclkInstance mode port
  if r.1 < 0 then none
  else
    match r.2 with
    | none => some (r.1, c)
    | some p =>
      if (c.port p).active then some (0, c)
      else
        let ret := cguClkupdateInstance c p (c.port p).index
        if ret ≠ 0 then
          match altPath (c.port p).lastCfg with
          | none => some (ret, c)
          | some alt =>
            let ret := cguClkupdateInstance c p (altIndex alt)
            if ret < 0 then none
            else if ret ≠ 0 then some (ret, c)
            else finishActivate (c.setPort p ⟨(c.port p).active, alt, altIndex alt⟩) p
        else finishActivate c p

/-- The condition of `disable_clocks` for stopping the clock of the TS output: the call names the TS
output or the CAM and the other of the two is not active. -/
def tsoutClkOff (c : Cgu) (mode : Mode) (port : StreamPort) (p : ClkPort) : Bool :=
  (decide (port = .tsoifPc) && decide (mode = .digitalRender) ||
    decide (port = .ts2dCam) && decide (mode = .digitalCapture)) &&
    match p with
    | .tsin => !(c.port .tsout).active
    | .tsout => !(c.port .tsin).active
    | _ => false

def saa7231DisableClocks (c : Cgu) (mode : Mode) (port : StreamPort) : ℤ × Cgu :=
  match cguGetclkInstance mode port with
  | (ret, clkport) =>
    if ret ≠ 0 then (-einval, c)
    else
      match clkport with
      | none => (-einval, c)
      | some p =>
        let c := c.setPort p { c.port p with active := false }
        if tsoutClkOff c mode port p then (ret, (saa7231SetClk c .tsoutCaextPcc .off).2) else (ret, c)

/-! ### Runs -/

inductive CguOp where
  | setClk (d : ClkDomain) (f : ClkFrequency)
  | activate (mode : Mode) (port : StreamPort)
  | disable (mode : Mode) (port : StreamPort)
  deriving Repr, DecidableEq

def cguStep (c : Cgu) : CguOp → Option Cgu
  | .setClk d f => some (saa7231SetClk c d f).2
  | .activate mode port => (saa7231ActivateClocks c mode port).map Prod.snd
  | .disable mode port => some (saa7231DisableClocks c mode port).2

/-- A board with a 54 MHz root clock after `saa7231_cgu_init`. -/
def boardCgu : Cgu := cguInitClocks (.zeroed (fun _ => 0) 0 pll160Clk54 pll550Clk54) ⟨0, 0⟩

/-! ### What the operations can do -/

/-- **A clock setting**: a system clock only notes its frequency, nothing happens, the word of the new
frequency is written, or the frequency is the recorded one and the word is 0. -/
theorem setClk_cases (c : Cgu) (d : ClkDomain) (f : ClkFrequency) :
    (d.isSystem = true ∧ (saa7231SetClk c d f).2 = { c with freq := Function.update c.freq d f }) ∨
    ((d.isSystem = true ∨ f = .no) ∧ (saa7231SetClk c d f).2 = c) ∨
    (f ≠ c.freq d ∧ ∃ div ena, divEna d f = some (div, ena) ∧
      (saa7231SetClk c d f).2 = c.wrOut (outReg d) (outClock (outSetup d 0).1 div ena) d
        ⟨(outSetup d 0).1, div, 0⟩ f) ∨
    (f = c.freq d ∧ (saa7231SetClk c d f).2 = c.wrOut (outReg d) 0 d ⟨0, 0, 0⟩ f) := by
  rw [saa7231SetClk]
  split
  · rename_i hsys
    refine Or.inl ⟨?_, rfl⟩
    rcases hsys.2 with rfl | rfl <;> rfl
  · split
    · rename_i hpcc
      exact Or.inr (Or.inl ⟨Or.inl (by rw [hpcc]; rfl), rfl⟩)
    · by_cases hf : f = c.freq d
      · rw [if_neg (not_not.mpr hf)]
        exact Or.inr (Or.inr (Or.inr ⟨hf, rfl⟩))
      · rw [if_pos hf]
        cases f with
        | no => exact Or.inr (Or.inl ⟨Or.inr rfl, rfl⟩)
        | off => exact Or.inr (Or.inr (Or.inl ⟨hf, _, _, rfl, rfl⟩))
        | low => exact Or.inr (Or.inr (Or.inl ⟨hf, _, _, rfl, rfl⟩))
        | usecase => exact Or.inr (Or.inr (Or.inl ⟨hf, _, _, rfl, rfl⟩))

theorem getclk_cases (mode : Mode) (port : StreamPort) :
    cguGetclkInstance mode port = (-einval, none) ∨ cguGetclkInstance mode port = (0, none) ∨
      ∃ p, cguGetclkInstance mode port = (0, some p) := by
  cases mode <;> cases port <;>
    first
      | exact Or.inl rfl
      | exact Or.inr (Or.inl rfl)
      | exact Or.inr (Or.inr ⟨_, rfl⟩)

theorem clkupdate_eq_zero (c : Cgu) (p : ClkPort) {index : ℕ} (h : index < saa7231Clocks) :
    cguClkupdateInstance c p index = 0 := by
  rw [cguClkupdateInstance, if_neg (Nat.not_le.mpr h)]
  split <;> rfl

def updated (c : Cgu) (p : ClkPort) : Cgu :=
  saa7231AdcClksetup (cguSystemSetup c (c.port p).index) (c.port p).index

def activated (c : Cgu) (p : ClkPort) : Cgu :=
  (updated c p).setPort p { (updated c p).port p with active := true }

variable {mode : Mode} {port : StreamPort}

/-- **An activation** of a port that is not active sets up its clocks, whatever the other ports do. -/
theorem activate_eq (c : Cgu) {p : ClkPort} (hget : cguGetclkInstance mode port = (0, some p))
    (hidle : (c.port p).active = false) (hlt : (c.port p).index < saa7231Clocks) :
    saa7231ActivateClocks c mode port = some (0, activated c p) := by
  rw [saa7231ActivateClocks, hget]
  dsimp only
  rw [if_neg (lt_irrefl (0 : ℤ)), hidle, if_neg Bool.false_ne_true, clkupdate_eq_zero c p hlt,
    if_neg (not_not.mpr rfl), finishActivate, cguUpdateClk, if_neg (Nat.not_le.mpr hlt)]
  rfl

theorem activate_cases {c c' : Cgu} {ret : ℤ} (hlt : ∀ p, (c.port p).index < saa7231Clocks)
    (h : saa7231ActivateClocks c mode port = some (ret, c')) :
    ret = 0 ∧ (c' = c ∨ ∃ p, cguGetclkInstance mode port = (0, some p) ∧
      (c.port p).active = false ∧ c' = activated c p) := by
  rcases getclk_cases mode port with hget | hget | ⟨p, hget⟩
  · rw [saa7231ActivateClocks, hget] at h
    exact absurd h (by simp [einval])
  · rw [saa7231ActivateClocks, hget] at h
    obtain ⟨rfl, rfl⟩ := Prod.mk.inj (Option.some.inj h)
    exact ⟨rfl, Or.inl rfl⟩
  · cases hidle : (c.port p).active with
    | true =>
      rw [saa7231ActivateClocks, hget] at h
      dsimp only at h
      rw [if_neg (lt_irrefl (0 : ℤ)), if_pos hidle] at h
      obtain ⟨rfl, rfl⟩ := Prod.mk.inj (Option.some.inj h)
      exact ⟨rfl, Or.inl rfl⟩
    | false =>
      rw [activate_eq c hget hidle (hlt p)] at h
      obtain ⟨rfl, rfl⟩ := Prod.mk.inj (Option.some.inj h)
      exact ⟨rfl, Or.inr ⟨p, hget, hidle, rfl⟩⟩

def released (c : Cgu) (p : ClkPort) : Cgu := c.setPort p { c.port p with active := false }

/-- **A disabling** releases the port and may stop the clock of the TS output. -/
theorem disable_eq (c : Cgu) {p : ClkPort} (hget : cguGetclkInstance mode port = (0, some p)) :
    (saa7231DisableClocks c mode port).2
      = if tsoutClkOff c mode port p then (saa7231SetClk (released c p) .tsoutCaextPcc .off).2
        else released c p := by
  -- the test reads the other of the two ports
  have htest : tsoutClkOff (released c p) mode port p = tsoutClkOff c mode port p := by
    cases p <;> rfl
  rw [saa7231DisableClocks, hget, ← htest]
  dsimp only
  rw [if_neg (not_not.mpr rfl), released]
  split <;> rfl

theorem disable_cases (c : Cgu) (mode : Mode) (port : StreamPort) :
    (saa7231DisableClocks c mode port).2 = c ∨ ∃ p, cguGetclkInstance mode port = (0, some p) := by
  rcases getclk_cases mode port with hget | hget | hget
  · rw [saa7231DisableClocks, hget]
    exact Or.inl rfl
  · rw [saa7231DisableClocks, hget]
    exact Or.inl rfl
  · exact Or.inr hget

end BgtDvb.Saa7231
