import BgtDvb.DvbcfgCommon

/-!
# Scan files

A line for each transponder, the frontend type as its first character and blanks between the fields.

* `scanfileLine_local` — **PROVED**: a line is read without a look behind its end.

The names in the setting tables are not those of the zap channel files.
-/

namespace BgtDvb.Dvbcfg

open BgtDvb.CString
open BgtDvb.CString.Reader

def space : UInt8 := 32

/-! ### The setting tables -/

namespace Scan

def fecList : SettingTable space CodeRate where
  rows := [
    ⟨ascii ['1', '/', '2'], .fec12⟩,
    ⟨ascii ['2', '/', '3'], .fec23⟩,
    ⟨ascii ['3', '/', '4'], .fec34⟩,
    ⟨ascii ['4', '/', '5'], .fec45⟩,
    ⟨ascii ['5', '/', '6'], .fec56⟩,
    ⟨ascii ['6', '/', '7'], .fec67⟩,
    ⟨ascii ['7', '/', '8'], .fec78⟩,
    ⟨ascii ['8', '/', '9'], .fec89⟩,
    ⟨ascii ['A', 'U', 'T', 'O'], .auto⟩,
    ⟨ascii ['N', 'O', 'N', 'E'], .none⟩]

def dvbcModulationList : SettingTable space DvbcMod where
  rows := [
    ⟨ascii ['Q', 'A', 'M', '1', '6'], .qam16⟩,
    ⟨ascii ['Q', 'A', 'M', '3', '2'], .qam32⟩,
    ⟨ascii ['Q', 'A', 'M', '6', '4'], .qam64⟩,
    ⟨ascii ['Q', 'A', 'M', '1', '2', '8'], .qam128⟩,
    ⟨ascii ['Q', 'A', 'M', '2', '5', '6'], .qam256⟩,
    ⟨ascii ['A', 'U', 'T', 'O'], .auto⟩]

def bandwidthList : SettingTable space Bandwidth where
  rows := [
    ⟨ascii ['6', 'M', 'H', 'z'], .mhz6⟩,
    ⟨ascii ['7', 'M', 'H', 'z'], .mhz7⟩,
    ⟨ascii ['8', 'M', 'H', 'z'], .mhz8⟩,
    ⟨ascii ['A', 'U', 'T', 'O'], .auto⟩]

def constellationList : SettingTable space DvbtConst where
  rows := [
    ⟨ascii ['Q', 'A', 'M', '1', '6'], .qam16⟩,
    ⟨ascii ['Q', 'A', 'M', '3', '2'], .qam32⟩,
    ⟨ascii ['Q', 'A', 'M', '6', '4'], .qam64⟩,
    ⟨ascii ['Q', 'A', 'M', '1', '2', '8'], .qam128⟩,
    ⟨ascii ['Q', 'A', 'M', '2', '5', '6'], .qam256⟩,
    ⟨ascii ['Q', 'P', 'S', 'K'], .qpsk⟩,
    ⟨ascii ['A', 'U', 'T', 'O'], .auto⟩]

def transmissionModeList : SettingTable space TransmitMode where
  rows := [
    ⟨ascii ['2', 'k'], .mode2k⟩,
    ⟨ascii ['8', 'k'], .mode8k⟩,
    ⟨ascii ['A', 'U', 'T', 'O'], .auto⟩]

def guardIntervalList : SettingTable space GuardInterval where
  rows := [
    ⟨ascii ['1', '/', '3', '2'], .guard32⟩,
    ⟨ascii ['1', '/', '1', '6'], .guard16⟩,
    ⟨ascii ['1', '/', '8'], .guard8⟩,
    ⟨ascii ['1', '/', '4'], .guard4⟩,
    ⟨ascii ['A', 'U', 'T', 'O'], .auto⟩]

def hierarchyList : SettingTable space Hierarchy where
  rows := [
    ⟨ascii ['1'], .one⟩,
    ⟨ascii ['2'], .two⟩,
    ⟨ascii ['4'], .four⟩,
    ⟨ascii ['A', 'U', 'T', 'O'], .auto⟩,
    ⟨ascii ['N', 'O', 'N', 'E'], .none⟩]

def atscModulationList : SettingTable space AtscMod where
  rows := [
    ⟨ascii ['8', 'V', 'S', 'B'], .vsb8⟩,
    ⟨ascii ['1', '6', 'V', 'S', 'B'], .vsb16⟩,
    ⟨ascii ['Q', 'A', 'M', '6', '4'], .qam64⟩,
    ⟨ascii ['Q', 'A', 'M', '2', '5', '6'], .qam256⟩]

end Scan

/-! ### Reading -/

/-- The two switches over the first character and the frontend type: T, C, S, A.  A record keeps the
polarization for DVB-S only; its code rate is stored through the union of DVB-C, at the same place. -/
def scanSettings (feType : UInt8) : Reader UInt8 (Parameters UInt8) :=
  if feType = 84 then do
    let frequency ← parseInt space
    let bandwidth ← parseSetting Scan.bandwidthList
    let codeRateHP ← parseSetting Scan.fecList
    let codeRateLP ← parseSetting Scan.fecList
    let constellation ← parseSetting Scan.constellationList
    let transmissionMode ← parseSetting Scan.transmissionModeList
    let guardInterval ← parseSetting Scan.guardIntervalList
    let hierarchyInformation ← parseSetting Scan.hierarchyList
    pure ⟨frequency, .auto, .dvbt bandwidth codeRateHP codeRateLP constellation transmissionMode
      guardInterval hierarchyInformation⟩
  else if feType = 67 then do
    let frequency ← parseInt space
    let symbolRate ← parseInt space
    let fecInner ← parseSetting Scan.fecList
    let modulation ← parseSetting Scan.dvbcModulationList
    pure ⟨frequency, .auto, .dvbc symbolRate fecInner modulation⟩
  else if feType = 83 then do
    let frequency ← parseInt space
    let polarization ← tolower <$> parseChar space
    if polarization ∈ polarizations then
      let symbolRate ← parseInt space
      let fecInner ← parseSetting Scan.fecList
      pure ⟨frequency, .auto, .dvbs symbolRate fecInner polarization⟩
    else failure
  else if feType = 65 then do
    let frequency ← parseInt space
    let modulation ← parseSetting Scan.atscModulationList
    pure ⟨frequency, .auto, .atsc modulation⟩
  else failure

/-- One line of `dvbcfg_scanfile_parse`. -/
def scanfileLine : Reader UInt8 (Parameters UInt8) := do
  let feType ← parseChar space
  scanSettings feType

/-- `dvbcfg_scanfile_parse` -/
def scanfileParse {σ : Type} (callback : σ → Parameters UInt8 → ℤ × σ) (left : ℕ → List UInt8)
    (file : List UInt8) (s : σ) : ℤ × σ :=
  parseLines scanfileLine callback left 0 (getlines file) s

/-! ### What a line is read from -/

theorem scanSettings_local (feType : UInt8) : Local (scanSettings feType) := by
  unfold scanSettings
  split_ifs
  · refine (parseInt_local space).bind fun frequency => ?_
    refine (parseSetting_local Scan.bandwidthList).bind fun bandwidth => ?_
    refine (parseSetting_local Scan.fecList).bind fun codeRateHP => ?_
    refine (parseSetting_local Scan.fecList).bind fun codeRateLP => ?_
    refine (parseSetting_local Scan.constellationList).bind fun constellation => ?_
    refine (parseSetting_local Scan.transmissionModeList).bind fun transmissionMode => ?_
    refine (parseSetting_local Scan.guardIntervalList).bind fun guardInterval => ?_
    exact (parseSetting_local Scan.hierarchyList).bind fun hierarchyInformation => Local.pure _
  · refine (parseInt_local space).bind fun frequency => ?_
    refine (parseInt_local space).bind fun symbolRate => ?_
    refine (parseSetting_local Scan.fecList).bind fun fecInner => ?_
    exact (parseSetting_local Scan.dvbcModulationList).bind fun modulation => Local.pure _
  · refine (parseInt_local space).bind fun frequency => ?_
    refine ((parseChar_local space).map tolower).bind fun polarization => ?_
    split_ifs
    · refine (parseInt_local space).bind fun symbolRate => ?_
      exact (parseSetting_local Scan.fecList).bind fun fecInner => Local.pure _
    · exact Local.failure
  · refine (parseInt_local space).bind fun frequency => ?_
    exact (parseSetting_local Scan.atscModulationList).bind fun modulation => Local.pure _
  · exact Local.failure

theorem scanfileLine_local : Local scanfileLine :=
  (parseChar_local space).bind scanSettings_local

end BgtDvb.Dvbcfg
