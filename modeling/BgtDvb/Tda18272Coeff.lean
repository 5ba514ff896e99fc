import Mathlib

/-!
# Coefficients of the TDA18272

`frontends/tda18272.c` has a set of coefficients for each standard, in a table.  Most of them go into a
field of a register as they are: an enumerator is the number that the field takes.
-/

namespace BgtDvb.Tda18272

/-- `enum tda18272_lpf` -/
inductive Lpf where
  | lpf6MHz | lpf7MHz | lpf8MHz | lpf9MHz | lpf1_5MHz

/-- `enum tda18272_lpf_offset` -/
inductive LpfOffset where
  | offset0PC | offset4PC | offset8PC | offset12PC

/-- `enum tda18272_agcgain` -/
inductive AgcGain where
  | gain2VPP | gain1_25VPP | gain1VPP | gain0_8VPP | gain0_85VPP | gain0_7VPP | gain0_6VPP | gain0_5VPP

/-- `enum tda18272_notch` -/
inductive Notch where
  | disabled | enabled

/-- `enum tda18272_hpf` -/
inductive Hpf where
  | disabled | hpf0_4MHz | hpf0_85MHz | hpf1MHz | hpf1_5Mhz
deriving DecidableEq

/-- `enum tda18272_lnatop` -/
inductive LnaTop where
  | top95_89 | top95_93 | top95_94 | top95_95 | top99_89 | top99_93 | top99_94 | top99_95 | top99_95s
  | top100_93 | top100_94 | top100_95 | top100_95s | top101_93d | top101_94d | top101_95 | top101_95s

/-- `enum tda18272_rfatttop` -/
inductive RfattTop where
  | top89_81 | top91_83 | top93_85 | top95_87 | top88_88 | top89_82 | top90_83 | top91_84 | top92_85
  | top93_86 | top94_87 | top95_88 | top87_81 | top88_82 | top89_83 | top90_84 | top91_85 | top92_86
  | top93_87 | top94_88 | top95_89

/-- `enum tda18272_rfagctop` -/
inductive RfagcTop where
  | top94 | top96 | top98 | top100 | top102 | top104 | top106 | top107

/-- `enum tda18272_irmixtop` -/
inductive IrmixTop where
  | top105_99 | top105_100 | top105_101 | top107_101 | top107_102 | top107_103 | top108_103 | top109_103
  | top109_104 | top109_105 | top110_104 | top110_105 | top110_106 | top112_106 | top112_107 | top112_108

/-- `enum tda18272_ifagctop` -/
inductive IfagcTop where
  | top105_99 | top105_100 | top105_101 | top107_101 | top107_102 | top107_103 | top108_103 | top109_103
  | top109_104 | top109_105 | top110_104 | top110_105 | top110_106 | top112_106 | top112_107 | top112_108

/-- `enum tda18272_dethpf` -/
inductive DetHpf where
  | disabled | enabled

/-- `enum tda18272_agc3adapt` -/
inductive Agc3Adapt where
  | enabled | disabled

/-- `enum tda18272_agc3adapt_top` -/
inductive Agc3AdaptTop where
  | top0 | top1 | top2 | top3

/-- `enum tda18272_3dbatt` -/
inductive Att3db where
  | disabled | enabled

/-- `enum tda18272_vhffilt6` -/
inductive VhfFilt6 where
  | disabled | enabled

/-- `struct tda18272_coeff`, as far as tuning reads it. -/
structure Coeff where
  ifVal : UInt32
  cfOff : Int32
  lpf : Lpf
  lpfOff : LpfOffset
  ifGain : AgcGain
  ifNotch : Notch
  ifHpf : Hpf
  dcNotch : Notch
  lnaTop : LnaTop
  rfattTop : RfattTop
  lobandRfagcTop : RfagcTop
  hibandRfagcTop : RfagcTop
  irmixTop : IrmixTop
  ifagcTop : IfagcTop
  detHpf : DetHpf
  agc3Adapt : Agc3Adapt
  agc3AdaptTop : Agc3AdaptTop
  att3db : Att3db
  gsk : UInt8
  filter : VhfFilt6
  agc1Freeze : Bool
  ltostoImmune : Bool

/-- `coeft` -/
def coeft : List Coeff :=
  [ -- DVB-T 6MHz
    ⟨3250000, 0, .lpf6MHz, .offset0PC, .gain1VPP, .enabled, .hpf0_4MHz, .enabled, .top95_89, .top90_84,
     .top100, .top102, .top110_105, .top110_105, .disabled, .enabled, .top2, .enabled, 0x02, .enabled, false,
     false⟩,
    -- DVB-T 7MHz
    ⟨3500000, 0, .lpf7MHz, .offset8PC, .gain1VPP, .enabled, .disabled, .enabled, .top95_89, .top90_84, .top100,
     .top102, .top110_105, .top110_105, .disabled, .enabled, .top2, .enabled, 0x02, .enabled, false, false⟩,
    -- DVB-T 8MHz
    ⟨4000000, 0, .lpf8MHz, .offset0PC, .gain1VPP, .enabled, .disabled, .enabled, .top95_89, .top90_84, .top100,
     .top102, .top110_105, .top110_105, .disabled, .enabled, .top2, .enabled, 0x02, .enabled, false, false⟩,
    -- QAM 6MHz
    ⟨3600000, 0, .lpf6MHz, .offset8PC, .gain1VPP, .disabled, .disabled, .enabled, .top95_89, .top90_84,
     .top100, .top100, .top110_105, .top110_105, .disabled, .disabled, .top0, .disabled, 0x02, .disabled, true,
     true⟩,
    -- QAM 8MHz
    ⟨5000000, 0, .lpf9MHz, .offset8PC, .gain1VPP, .disabled, .hpf0_85MHz, .enabled, .top95_89, .top90_84,
     .top100, .top100, .top110_105, .top110_105, .disabled, .disabled, .top0, .disabled, 0x02, .disabled, true,
     true⟩,
    -- ISDB-T 6MHz
    ⟨3250000, 0, .lpf6MHz, .offset0PC, .gain0_6VPP, .enabled, .hpf0_4MHz, .enabled, .top95_89, .top90_84,
     .top100, .top102, .top110_105, .top110_105, .disabled, .enabled, .top2, .enabled, 0x02, .enabled, false,
     false⟩,
    -- ATSC 6MHz
    ⟨3250000, 0, .lpf6MHz, .offset0PC, .gain0_6VPP, .enabled, .hpf0_4MHz, .enabled, .top100_94, .top90_84,
     .top104, .top104, .top112_107, .top112_107, .disabled, .enabled, .top3, .enabled, 0x02, .enabled, false,
     false⟩,
    -- DMB-T 8MHz
    ⟨4000000, 0, .lpf8MHz, .offset0PC, .gain1VPP, .enabled, .disabled, .enabled, .top95_89, .top90_84, .top100,
     .top102, .top110_105, .top110_105, .disabled, .enabled, .top2, .enabled, 0x02, .enabled, false, false⟩,
    -- ATV M/N
    ⟨5400000, 1750000, .lpf6MHz, .offset0PC, .gain0_7VPP, .disabled, .disabled, .disabled, .top95_89,
     .top90_84, .top96, .top96, .top105_100, .top105_100, .enabled, .disabled, .top0, .disabled, 0x01,
     .disabled, false, false⟩,
    -- ATV B
    ⟨6400000, 2250000, .lpf7MHz, .offset0PC, .gain0_7VPP, .disabled, .disabled, .disabled, .top95_89,
     .top90_84, .top96, .top96, .top105_100, .top105_100, .enabled, .disabled, .top0, .disabled, 0x01,
     .disabled, false, false⟩,
    -- ATV G/H
    ⟨6750000, 2750000, .lpf8MHz, .offset0PC, .gain0_7VPP, .disabled, .disabled, .disabled, .top95_89,
     .top90_84, .top96, .top96, .top105_100, .top105_100, .enabled, .disabled, .top0, .disabled, 0x01,
     .disabled, false, false⟩,
    -- ATV I
    ⟨7250000, 2750000, .lpf8MHz, .offset0PC, .gain0_7VPP, .disabled, .disabled, .disabled, .top95_89,
     .top90_84, .top96, .top96, .top105_100, .top105_100, .enabled, .disabled, .top0, .disabled, 0x01,
     .disabled, false, false⟩,
    -- ATV DK
    ⟨6850000, 2750000, .lpf8MHz, .offset0PC, .gain0_7VPP, .enabled, .disabled, .disabled, .top95_89, .top90_84,
     .top96, .top96, .top105_100, .top105_100, .enabled, .disabled, .top0, .disabled, 0x01, .disabled, false,
     false⟩,
    -- ATV L
    ⟨6750000, 2750000, .lpf8MHz, .offset0PC, .gain0_7VPP, .enabled, .disabled, .disabled, .top95_89, .top90_84,
     .top96, .top96, .top105_100, .top105_100, .enabled, .disabled, .top0, .disabled, 0x01, .disabled, false,
     false⟩,
    -- ATV Lc
    ⟨1250000, (-2750000), .lpf8MHz, .offset0PC, .gain0_7VPP, .disabled, .disabled, .disabled, .top95_89,
     .top90_84, .top96, .top96, .top105_100, .top105_100, .disabled, .disabled, .top0, .disabled, 0x01,
     .disabled, false, false⟩,
    -- FM Radio
    ⟨1250000, 0, .lpf1_5MHz, .offset0PC, .gain0_7VPP, .disabled, .hpf0_85MHz, .enabled, .top95_89, .top90_84,
     .top96, .top96, .top105_100, .top105_100, .disabled, .disabled, .top0, .disabled, 0x02, .disabled, false,
     false⟩,
    -- PAL I Blindscan
    ⟨7250000, 2750000, .lpf8MHz, .offset0PC, .gain0_7VPP, .disabled, .disabled, .disabled, .top95_89,
     .top90_84, .top96, .top96, .top105_100, .top105_100, .enabled, .disabled, .top0, .disabled, 0x01,
     .disabled, false, false⟩,
    -- XpressScan
    ⟨5000000, 0, .lpf9MHz, .offset0PC, .gain1VPP, .enabled, .disabled, .enabled, .top95_89, .top90_84, .top100,
     .top102, .top110_105, .top110_105, .disabled, .enabled, .top2, .enabled, 0x0e, .enabled, false, false⟩,
    -- the end of the table
    ⟨0, 0, .lpf6MHz, .offset0PC, .gain2VPP, .disabled, .disabled, .disabled, .top95_89, .top89_81, .top94,
     .top94, .top105_99, .top105_99, .disabled, .enabled, .top0, .disabled, 0x00, .disabled, false, false⟩]

end BgtDvb.Tda18272
