import BgtDvb.DvbcfgCommon

/-!
# Zap channel files

A line for each channel, `:` between the fields.  The frontend type is not written: the reader guesses it
from the names of the settings in the rest of the line.

* `guessType_save` — **PROVED**: the guess is right for every line that was written;
* `zapchannelParse_save` — **PROVED**: what was written is read back, but for the code rate of DVB-S, which
  has no field.
-/

namespace BgtDvb.Dvbcfg

open BgtDvb.CString
open BgtDvb.CString.Reader
open BgtDvb.ScanInt

/-- The fields that a zap channel has for DVB-S only. -/
structure ZapSat where
  polarization : UInt8
  diseqcSwitch : BitVec 32
  deriving DecidableEq, Repr

/-- `dvbcfg_zapchannel`; the name is the text in front of its terminator. -/
structure Zapchannel where
  name : List UInt8
  videoPid : BitVec 32
  audioPid : BitVec 32
  serviceId : BitVec 32
  feParams : Parameters ZapSat
  deriving DecidableEq, Repr

/-! ### The setting tables -/

def colon : UInt8 := 58

def inversionList : SettingTable colon SpectralInversion where
  rows := [
    ⟨ascii ['I', 'N', 'V', 'E', 'R', 'S', 'I', 'O', 'N', '_', 'O', 'N'], .on⟩,
    ⟨ascii ['I', 'N', 'V', 'E', 'R', 'S', 'I', 'O', 'N', '_', 'O', 'F', 'F'], .off⟩,
    ⟨ascii ['I', 'N', 'V', 'E', 'R', 'S', 'I', 'O', 'N', '_', 'A', 'U', 'T', 'O'], .auto⟩]

def fecList : SettingTable colon CodeRate where
  rows := [
    ⟨ascii ['F', 'E', 'C', '_', '1', '_', '2'], .fec12⟩,
    ⟨ascii ['F', 'E', 'C', '_', '2', '_', '3'], .fec23⟩,
    ⟨ascii ['F', 'E', 'C', '_', '3', '_', '4'], .fec34⟩,
    ⟨ascii ['F', 'E', 'C', '_', '4', '_', '5'], .fec45⟩,
    ⟨ascii ['F', 'E', 'C', '_', '5', '_', '6'], .fec56⟩,
    ⟨ascii ['F', 'E', 'C', '_', '6', '_', '7'], .fec67⟩,
    ⟨ascii ['F', 'E', 'C', '_', '7', '_', '8'], .fec78⟩,
    ⟨ascii ['F', 'E', 'C', '_', '8', '_', '9'], .fec89⟩,
    ⟨ascii ['F', 'E', 'C', '_', 'A', 'U', 'T', 'O'], .auto⟩,
    ⟨ascii ['F', 'E', 'C', '_', 'N', 'O', 'N', 'E'], .none⟩]

def dvbcModulationList : SettingTable colon DvbcMod where
  rows := [
    ⟨ascii ['Q', 'A', 'M', '_', '1', '6'], .qam16⟩,
    ⟨ascii ['Q', 'A', 'M', '_', '3', '2'], .qam32⟩,
    ⟨ascii ['Q', 'A', 'M', '_', '6', '4'], .qam64⟩,
    ⟨ascii ['Q', 'A', 'M', '_', '1', '2', '8'], .qam128⟩,
    ⟨ascii ['Q', 'A', 'M', '_', '2', '5', '6'], .qam256⟩,
    ⟨ascii ['Q', 'A', 'M', '_', 'A', 'U', 'T', 'O'], .auto⟩]

def bandwidthList : SettingTable colon Bandwidth where
  rows := [
    ⟨ascii ['B', 'A', 'N', 'D', 'W', 'I', 'D', 'T', 'H', '_', '6', '_', 'M', 'H', 'Z'], .mhz6⟩,
    ⟨ascii ['B', 'A', 'N', 'D', 'W', 'I', 'D', 'T', 'H', '_', '7', '_', 'M', 'H', 'Z'], .mhz7⟩,
    ⟨ascii ['B', 'A', 'N', 'D', 'W', 'I', 'D', 'T', 'H', '_', '8', '_', 'M', 'H', 'Z'], .mhz8⟩,
    ⟨ascii ['B', 'A', 'N', 'D', 'W', 'I', 'D', 'T', 'H', '_', 'A', 'U', 'T', 'O'], .auto⟩]

def constellationList : SettingTable colon DvbtConst where
  rows := [
    ⟨ascii ['Q', 'A', 'M', '_', '1', '6'], .qam16⟩,
    ⟨ascii ['Q', 'A', 'M', '_', '3', '2'], .qam32⟩,
    ⟨ascii ['Q', 'A', 'M', '_', '6', '4'], .qam64⟩,
    ⟨ascii ['Q', 'A', 'M', '_', '1', '2', '8'], .qam128⟩,
    ⟨ascii ['Q', 'A', 'M', '_', '2', '5', '6'], .qam256⟩,
    ⟨ascii ['Q', 'P', 'S', 'K'], .qpsk⟩,
    ⟨ascii ['Q', 'A', 'M', '_', 'A', 'U', 'T', 'O'], .auto⟩]

def transmissionModeList : SettingTable colon TransmitMode where
  rows := [
    ⟨ascii ['T', 'R', 'A', 'N', 'S', 'M', 'I', 'S', 'S', 'I', 'O', 'N', '_', 'M', 'O', 'D', 'E', '_',
      '2', 'K'], .mode2k⟩,
    ⟨ascii ['T', 'R', 'A', 'N', 'S', 'M', 'I', 'S', 'S', 'I', 'O', 'N', '_', 'M', 'O', 'D', 'E', '_',
      '8', 'K'], .mode8k⟩,
    ⟨ascii ['T', 'R', 'A', 'N', 'S', 'M', 'I', 'S', 'S', 'I', 'O', 'N', '_', 'M', 'O', 'D', 'E', '_',
      'A', 'U', 'T', 'O'], .auto⟩]

def guardIntervalList : SettingTable colon GuardInterval where
  rows := [
    ⟨ascii ['G', 'U', 'A', 'R', 'D', '_', 'I', 'N', 'T', 'E', 'R', 'V', 'A', 'L', '_', '1', '_', '3',
      '2'], .guard32⟩,
    ⟨ascii ['G', 'U', 'A', 'R', 'D', '_', 'I', 'N', 'T', 'E', 'R', 'V', 'A', 'L', '_', '1', '_', '1',
      '6'], .guard16⟩,
    ⟨ascii ['G', 'U', 'A', 'R', 'D', '_', 'I', 'N', 'T', 'E', 'R', 'V', 'A', 'L', '_', '1', '_', '8'],
      .guard8⟩,
    ⟨ascii ['G', 'U', 'A', 'R', 'D', '_', 'I', 'N', 'T', 'E', 'R', 'V', 'A', 'L', '_', '1', '_', '4'],
      .guard4⟩,
    ⟨ascii ['G', 'U', 'A', 'R', 'D', '_', 'I', 'N', 'T', 'E', 'R', 'V', 'A', 'L', '_', 'A', 'U', 'T',
      'O'], .auto⟩]

def hierarchyList : SettingTable colon Hierarchy where
  rows := [
    ⟨ascii ['H', 'I', 'E', 'R', 'A', 'R', 'C', 'H', 'Y', '_', '1'], .one⟩,
    ⟨ascii ['H', 'I', 'E', 'R', 'A', 'R', 'C', 'H', 'Y', '_', '2'], .two⟩,
    ⟨ascii ['H', 'I', 'E', 'R', 'A', 'R', 'C', 'H', 'Y', '_', '4'], .four⟩,
    ⟨ascii ['H', 'I', 'E', 'R', 'A', 'R', 'C', 'H', 'Y', '_', 'A', 'U', 'T', 'O'], .auto⟩,
    ⟨ascii ['H', 'I', 'E', 'R', 'A', 'R', 'C', 'H', 'Y', '_', 'N', 'O', 'N', 'E'], .none⟩]

def atscModulationList : SettingTable colon AtscMod where
  rows := [
    ⟨ascii ['8', 'V', 'S', 'B'], .vsb8⟩,
    ⟨ascii ['1', '6', 'V', 'S', 'B'], .vsb16⟩,
    ⟨ascii ['Q', 'A', 'M', '_', '6', '4'], .qam64⟩,
    ⟨ascii ['Q', 'A', 'M', '_', '2', '5', '6'], .qam256⟩]

/-! ### Writing -/

/-- `%s` of a looked up name. -/
def printSetting {α : Type} [DecidableEq α] (setting : α) (settings : SettingTable colon α) : List UInt8 :=
  (lookupSetting setting settings).getD (ascii ['(', 'n', 'u', 'l', 'l', ')'])

/-- Fields with a `:` behind each. -/
def fields (texts : List (List UInt8)) : List UInt8 := texts.flatMap fun text => text ++ [colon]

def settingFields (p : Parameters ZapSat) : List (List UInt8) :=
  match p.u with
  | .atsc modulation => [printInt p.frequency.toInt, printSetting modulation atscModulationList]
  | .dvbc symbolRate fecInner modulation =>
    [printInt p.frequency.toInt, printSetting p.inversion inversionList, printInt symbolRate.toInt,
      printSetting fecInner fecList, printSetting modulation dvbcModulationList]
  | .dvbs symbolRate _ sat =>
    [printInt (p.frequency / 1000).toInt, [tolower sat.polarization], printInt sat.diseqcSwitch.toInt,
      printInt (symbolRate / 1000).toInt]
  | .dvbt bandwidth codeRateHP codeRateLP constellation transmissionMode guardInterval
      hierarchyInformation =>
    [printInt p.frequency.toInt, printSetting p.inversion inversionList,
      printSetting bandwidth bandwidthList, printSetting codeRateHP fecList,
      printSetting codeRateLP fecList, printSetting constellation constellationList,
      printSetting transmissionMode transmissionModeList, printSetting guardInterval guardIntervalList,
      printSetting hierarchyInformation hierarchyList]

/-- One channel of `dvbcfg_zapchannel_save`, without the newline. -/
def saveText (c : Zapchannel) : List UInt8 :=
  fields (c.name :: settingFields c.feParams)
    ++ (fields [printInt c.videoPid.toInt, printInt c.audioPid.toInt] ++ printInt c.serviceId.toInt)

/-- `dvbcfg_zapchannel_save`: the callback hands out the channels and then returns `last`, which is not 0; no
write fails.  The text written and the return value. -/
def zapchannelSave (channels : List Zapchannel) (last : ℤ) : List UInt8 × ℤ :=
  (channels.flatMap fun c => saveText c ++ [newline], if last < 0 then 0 else last)

/-! ### Reading -/

inductive FeType
  | dvbs | dvbc | dvbt | atsc
  deriving DecidableEq, Repr

def Frontend.feType {Sat : Type} : Frontend Sat → FeType
  | .dvbs .. => .dvbs
  | .dvbc .. => .dvbc
  | .dvbt .. => .dvbt
  | .atsc .. => .atsc

def strstr (haystack needle : List UInt8) : Bool := needle <:+: haystack

def fecMark : List UInt8 := ascii [':', 'F', 'E', 'C', '_']

def hierarchyMark : List UInt8 := ascii [':', 'H', 'I', 'E', 'R', 'A', 'R', 'C', 'H', 'Y', '_']

def vsbMark : List UInt8 := ascii ['V', 'S', 'B', ':']

def qamMark : List UInt8 := ascii ['Q', 'A', 'M', '_']

/-- The frontend type, guessed from the rest of the line behind the frequency. -/
def guessType (rest : List UInt8) : FeType :=
  if strstr rest fecMark then
    if strstr rest hierarchyMark then .dvbt else .dvbc
  else if strstr rest vsbMark || strstr rest qamMark then .atsc
  else .dvbs

def zapSettings (frequency : BitVec 32) : FeType → Reader UInt8 (Parameters ZapSat)
  | .atsc => do
    let modulation ← parseSetting atscModulationList
    pure ⟨frequency, .auto, .atsc modulation⟩
  | .dvbc => do
    let inversion ← parseSetting inversionList
    let symbolRate ← parseInt colon
    let fecInner ← parseSetting fecList
    let modulation ← parseSetting dvbcModulationList
    pure ⟨frequency, inversion, .dvbc symbolRate fecInner modulation⟩
  | .dvbs => do
    let polarization ← tolower <$> parseChar colon
    if polarization ∈ polarizations then
      let diseqcSwitch ← parseInt colon
      let symbolRate ← parseInt colon
      pure ⟨frequency * 1000, .auto, .dvbs (symbolRate * 1000) .auto ⟨polarization, diseqcSwitch⟩⟩
    else failure
  | .dvbt => do
    let inversion ← parseSetting inversionList
    let bandwidth ← parseSetting bandwidthList
    let codeRateHP ← parseSetting fecList
    let codeRateLP ← parseSetting fecList
    let constellation ← parseSetting constellationList
    let transmissionMode ← parseSetting transmissionModeList
    let guardInterval ← parseSetting guardIntervalList
    let hierarchyInformation ← parseSetting hierarchyList
    pure ⟨frequency, inversion, .dvbt bandwidth codeRateHP codeRateLP constellation transmissionMode
      guardInterval hierarchyInformation⟩

def orZero (p : Reader UInt8 (BitVec 32)) : Reader UInt8 (BitVec 32) := fun mem =>
  some ((p.run mem).getD (0, mem))

def zapRest : Reader UInt8 (List UInt8 → Zapchannel) := do
  let frequency ← parseInt colon
  let rest ← peek
  let feParams ← zapSettings frequency (guessType rest)
  let videoPid ← parseInt colon
  let audioPid ← parseInt colon
  let serviceId ← orZero (parseInt colon)
  pure fun name => ⟨name, videoPid, audioPid, serviceId, feParams⟩

/-- One line of `dvbcfg_zapchannel_parse`. -/
def zapchannelLine : Reader UInt8 Zapchannel := do
  let name ← parseString colon 128
  let channel ← zapRest
  pure (channel name)

/-- `dvbcfg_zapchannel_parse` -/
def zapchannelParse {σ : Type} (callback : σ → Zapchannel → ℤ × σ) (left : ℕ → List UInt8)
    (file : List UInt8) (s : σ) : ℤ × σ :=
  parseLines zapchannelLine callback left 0 (getlines file) s

/-! ### Which bytes a field holds -/

def NoNumber (bad : List UInt8) : Prop := ∀ c ∈ bad, c ≠ 45 ∧ ¬ (48 ≤ c ∧ c ≤ 57)

instance (bad : List UInt8) : Decidable (NoNumber bad) :=
  inferInstanceAs (Decidable (∀ c ∈ bad, c ≠ 45 ∧ ¬ (48 ≤ c ∧ c ≤ 57)))

/-- The capitals that tell the four types apart: `F`, `H`, `Q`, `V`. -/
def capitals : List UInt8 := [70, 72, 81, 86]

theorem noNumber_ends : NoNumber ends := by decide +kernel

theorem colon_notMem_ends : colon ∉ ends := by decide

theorem colon_notMem_capitals : colon ∉ capitals := by decide

theorem noNumber_capitals : NoNumber capitals := by decide +kernel

theorem polarizations_lower : ∀ c ∈ polarizations,
    tolower c = c ∧ Avoids (colon :: ends) [c] ∧ Avoids capitals [c] := by decide +kernel

theorem Avoids.mono {bad bad' text : List UInt8} (h : Avoids bad text) (hsub : bad' ⊆ bad) :
    Avoids bad' text :=
  fun c hc => h c (hsub hc)

theorem Avoids.append {bad xs ys : List UInt8} (hxs : Avoids bad xs) (hys : Avoids bad ys) :
    Avoids bad (xs ++ ys) := by
  intro c hc hmem
  rcases List.mem_append.mp hmem with h | h
  · exact hxs c hc h
  · exact hys c hc h

theorem Avoids.printInt {bad : List UInt8} (h : NoNumber bad) (v : ℤ) : Avoids bad (printInt v) := by
  intro c hc hmem
  rcases mem_printInt hmem with hsign | hdigit
  · exact (h c hc).1 hsign
  · exact (h c hc).2 hdigit

theorem Avoids.printSetting {bad : List UInt8} {α : Type} [DecidableEq α] {settings : SettingTable colon α}
    (h : ∀ row ∈ settings.rows, Avoids bad row.name)
    (hnull : Avoids bad (ascii ['(', 'n', 'u', 'l', 'l', ')'])) (setting : α) :
    Avoids bad (printSetting setting settings) := by
  unfold Dvbcfg.printSetting
  cases hlookup : lookupSetting setting settings with
  | none => exact hnull
  | some name =>
    obtain ⟨row, hmem, hname, -, -⟩ := find?_lookup hlookup
    exact hname ▸ h row hmem

theorem Avoids.fields {bad : List UInt8} (hcolon : colon ∉ bad) {texts : List (List UInt8)}
    (h : ∀ text ∈ texts, Avoids bad text) : Avoids bad (fields texts) := by
  intro c hc hmem
  obtain ⟨text, htext, hin⟩ := List.mem_flatMap.mp hmem
  rcases List.mem_append.mp hin with hfield | hsep
  · exact h text htext c hc hfield
  · exact hcolon (List.mem_singleton.mp hsep ▸ hc)

theorem strstr_eq_false {haystack bad : List UInt8} (needle : List UInt8) (h : Avoids bad haystack)
    (hneedle : ¬ Avoids bad needle) : strstr haystack needle = false := by
  have hnot : ¬ needle <:+: haystack := fun hfound =>
    hneedle fun c hbad hc => h c hbad (hfound.subset hc)
  exact decide_eq_false hnot

theorem strstr_eq_true {haystack needle : List UInt8} (front behind : List UInt8)
    (h : haystack = front ++ needle ++ behind) : strstr haystack needle = true :=
  decide_eq_true ⟨front, behind, h.symm⟩

theorem strstr_append {text needle : List UInt8} (h : strstr text needle = true) (mem : List UInt8) :
    strstr (text ++ mem) needle = true := by
  obtain ⟨front, behind, heq⟩ := of_decide_eq_true h
  exact strstr_eq_true front (behind ++ mem) (by rw [← heq, List.append_assoc])

/-! ### The channels a file can hold -/

def Listed {α : Type} (setting : α) (settings : SettingTable colon α) : Prop :=
  ∃ row ∈ settings.rows, row.value = setting

instance {α : Type} [DecidableEq α] (setting : α) (settings : SettingTable colon α) :
    Decidable (Listed setting settings) :=
  inferInstanceAs (Decidable (∃ row ∈ settings.rows, row.value = setting))

/-- The settings are in their tables; DVB-S stores kHz and kilosymbols. -/
def Parameters.Savable (p : Parameters ZapSat) : Prop :=
  Listed p.inversion inversionList ∧
  match p.u with
  | .atsc modulation => Listed modulation atscModulationList
  | .dvbc _ fecInner modulation => Listed fecInner fecList ∧ Listed modulation dvbcModulationList
  | .dvbs symbolRate fecInner sat =>
    Listed fecInner fecList ∧ sat.polarization ∈ polarizations
      ∧ (1000 ∣ p.frequency.toNat ∧ p.frequency.toNat < 0x80000000)
      ∧ (1000 ∣ symbolRate.toNat ∧ symbolRate.toNat < 0x80000000)
  | .dvbt bandwidth codeRateHP codeRateLP constellation transmissionMode guardInterval
      hierarchyInformation =>
    Listed bandwidth bandwidthList ∧ Listed codeRateHP fecList ∧ Listed codeRateLP fecList
      ∧ Listed constellation constellationList ∧ Listed transmissionMode transmissionModeList
      ∧ Listed guardInterval guardIntervalList ∧ Listed hierarchyInformation hierarchyList

instance : (p : Parameters ZapSat) → Decidable p.Savable
  | ⟨_, _, .atsc _⟩ | ⟨_, _, .dvbc ..⟩ | ⟨_, _, .dvbs ..⟩ | ⟨_, _, .dvbt ..⟩ =>
    inferInstanceAs (Decidable (_ ∧ _))

structure Zapchannel.Savable (c : Zapchannel) : Prop where
  length : c.name.length ≤ 127
  plain : Avoids [colon, hash, newline, 0] c.name
  settings : c.feParams.Savable

instance (c : Zapchannel) : Decidable c.Savable :=
  decidable_of_iff (c.name.length ≤ 127 ∧ Avoids [colon, hash, newline, 0] c.name ∧ c.feParams.Savable)
    ⟨fun h => ⟨h.1, h.2.1, h.2.2⟩, fun h => ⟨h.length, h.plain, h.settings⟩⟩

/-- The settings are in their tables, and of DVB-S nothing is lost. -/
def Parameters.Readable (p : Parameters ZapSat) : Prop :=
  Listed p.inversion inversionList ∧
  match p.u with
  | .atsc modulation => Listed modulation atscModulationList
  | .dvbc _ fecInner modulation => Listed fecInner fecList ∧ Listed modulation dvbcModulationList
  | .dvbs symbolRate _ sat =>
    sat.polarization ∈ polarizations ∧ 1000 ∣ p.frequency.toNat ∧ 1000 ∣ symbolRate.toNat
  | .dvbt bandwidth codeRateHP codeRateLP constellation transmissionMode guardInterval
      hierarchyInformation =>
    Listed bandwidth bandwidthList ∧ Listed codeRateHP fecList ∧ Listed codeRateLP fecList
      ∧ Listed constellation constellationList ∧ Listed transmissionMode transmissionModeList
      ∧ Listed guardInterval guardIntervalList ∧ Listed hierarchyInformation hierarchyList

structure Zapchannel.Readable (c : Zapchannel) : Prop where
  length : c.name.length ≤ 127
  plain : Avoids [colon, hash, newline, 0] c.name
  settings : c.feParams.Readable

theorem Parameters.Savable.readable {p : Parameters ZapSat} (h : p.Savable) : p.Readable := by
  obtain ⟨frequency, inversion, u⟩ := p
  obtain ⟨hinv, hu⟩ := h
  cases u with
  | atsc modulation => exact ⟨hinv, hu⟩
  | dvbc symbolRate fecInner modulation => exact ⟨hinv, hu⟩
  | dvbs symbolRate fecInner sat => exact ⟨hinv, hu.2.1, hu.2.2.1.1, hu.2.2.2.1⟩
  | dvbt => exact ⟨hinv, hu⟩

variable {c : Zapchannel}

theorem Zapchannel.Savable.readable (h : c.Savable) : c.Readable :=
  ⟨h.length, h.plain, h.settings.readable⟩

def Parameters.autoInversion (p : Parameters ZapSat) : Parameters ZapSat :=
  match p.u with
  | .atsc _ | .dvbs .. => { p with inversion := .auto }
  | .dvbc .. | .dvbt .. => p

def Parameters.autoFec (p : Parameters ZapSat) : Parameters ZapSat :=
  match p.u with
  | .dvbs symbolRate _ sat => { p with u := .dvbs symbolRate .auto sat }
  | .atsc _ | .dvbc .. | .dvbt .. => p

def Zapchannel.autoInversion (c : Zapchannel) : Zapchannel :=
  { c with feParams := c.feParams.autoInversion }

def Zapchannel.readBack (c : Zapchannel) : Zapchannel :=
  { c with feParams := c.feParams.autoInversion.autoFec }

/-- The file delivers what is expected of the channels, whatever the callback does and whatever the line
buffer held. -/
def RoundTrip (expected : Zapchannel → Zapchannel) (channels : List Zapchannel) : Prop :=
  ∀ (σ : Type) (callback : σ → Zapchannel → ℤ × σ) (left : ℕ → List UInt8) (last : ℤ) (s : σ),
    zapchannelParse callback left (zapchannelSave channels last).1 s
      = deliver callback (channels.map expected) s

/-! ### The guess -/

theorem lookup_of_listed {α : Type} [DecidableEq α] {setting : α} {settings : SettingTable colon α}
    (h : Listed setting settings) : lookupSetting setting settings = some (printSetting setting settings) := by
  obtain ⟨row, hmem, hvalue⟩ := h
  unfold printSetting
  cases hlookup : lookupSetting setting settings with
  | some name => rfl
  | none =>
    have hnone := List.find?_eq_none.mp (Option.map_eq_none_iff.mp hlookup) row hmem
    exact absurd hvalue.symm (by simpa using hnone)

theorem fields_cons (text : List UInt8) (texts : List (List UInt8)) (mem : List UInt8) :
    fields (text :: texts) ++ mem = text ++ colon :: (fields texts ++ mem) := by
  simp [fields]

theorem fields_nil (mem : List UInt8) : fields [] ++ mem = mem := rfl

theorem fecMark_eq : fecMark = colon :: fecMark.tail := by decide

theorem hierarchyMark_eq : hierarchyMark = colon :: hierarchyMark.tail := by decide

theorem printSetting_fec (fec : CodeRate) :
    ∃ name, printSetting fec fecList = fecMark.tail ++ name :=
  ⟨(printSetting fec fecList).drop 4, by cases fec <;> decide⟩

theorem printSetting_hierarchy (hierarchy : Hierarchy) :
    ∃ name, printSetting hierarchy hierarchyList = hierarchyMark.tail ++ name :=
  ⟨(printSetting hierarchy hierarchyList).drop 10, by cases hierarchy <;> decide⟩

theorem strstr_field {needle start : List UInt8} (hneedle : needle = colon :: start)
    (front : List (List UInt8)) (first name : List UInt8) (after : List (List UInt8)) (mem : List UInt8) :
    strstr (fields (front ++ first :: (start ++ name) :: after) ++ mem) needle = true :=
  strstr_eq_true (fields front ++ first) (name ++ colon :: (fields after ++ mem)) (by simp [fields, hneedle])

section

variable {pids : List UInt8} (hpids : Avoids capitals pids)

include hpids

theorem guessType_marked (hfec : Avoids [70] name)
    (hname : (strstr (fields [name]) vsbMark || strstr (fields [name]) qamMark) = true) :
    guessType (fields [name] ++ pids) = .atsc := by
  have havoid : Avoids [70] (fields [name] ++ pids) := by
    refine .append (.fields (by decide) ?_) (hpids.mono (by decide))
    intro text htext
    exact List.mem_singleton.mp htext ▸ hfec
  have hnofec : strstr (fields [name] ++ pids) fecMark = false :=
    strstr_eq_false fecMark havoid (by decide)
  rcases (Bool.or_eq_true _ _).mp hname with hvsb | hqam
  · simp [guessType, hnofec, strstr_append hvsb]
  · simp [guessType, hnofec, strstr_append hqam]

theorem guessType_atsc {modulation : AtscMod} (h : Listed modulation atscModulationList) :
    guessType (fields [printSetting modulation atscModulationList] ++ pids) = .atsc := by
  refine guessType_marked hpids (.printSetting (by decide) (by decide) modulation) ?_
  cases modulation with
  | vsb8 | vsb16 | qam64 | qam256 => decide
  | auto =>
    have hnot : ¬ Listed AtscMod.auto atscModulationList := by
      unfold Listed
      decide
    exact absurd h hnot

theorem guessType_dvbs (h : polarization ∈ polarizations) (diseqcSwitch symbolRate : ℤ) :
    guessType (fields [[tolower polarization], printInt diseqcSwitch, printInt symbolRate] ++ pids) = .dvbs := by
  obtain ⟨hlower, -, hpol⟩ := polarizations_lower polarization h
  rw [← hlower] at hpol
  have havoid : Avoids capitals
      (fields [[tolower polarization], printInt diseqcSwitch, printInt symbolRate] ++ pids) := by
    refine .append (.fields (by decide) ?_) hpids
    have hnum (v : ℤ) : Avoids capitals (printInt v) := .printInt noNumber_capitals v
    simp [hpol, hnum]
  have hfec := strstr_eq_false fecMark havoid (by decide)
  have hvsb := strstr_eq_false vsbMark havoid (by decide)
  have hqam := strstr_eq_false qamMark havoid (by decide)
  simp [guessType, hfec, hvsb, hqam]

theorem guessType_dvbc (inversion : SpectralInversion) (symbolRate : ℤ) (fecInner : CodeRate)
    (hmod : Avoids [72] modulation) :
    guessType (fields [printSetting inversion inversionList, printInt symbolRate,
      printSetting fecInner fecList, modulation] ++ pids) = .dvbc := by
  have hfec : strstr (fields [printSetting inversion inversionList, printInt symbolRate,
      printSetting fecInner fecList, modulation] ++ pids) fecMark = true := by
    obtain ⟨name, hname⟩ := printSetting_fec fecInner
    rw [hname]
    exact strstr_field fecMark_eq [_] _ name [_] pids
  have havoid : Avoids [72] (fields [printSetting inversion inversionList, printInt symbolRate,
      printSetting fecInner fecList, modulation] ++ pids) := by
    refine .append (.fields (by decide) ?_) (hpids.mono (by decide))
    have hinv : Avoids [72] (printSetting inversion inversionList) :=
      .printSetting (by decide) (by decide) inversion
    have hrate : Avoids [72] (printInt symbolRate) := .printInt (by decide +kernel) symbolRate
    have hfec : Avoids [72] (printSetting fecInner fecList) :=
      .printSetting (by decide) (by decide) fecInner
    simp [hinv, hrate, hfec, hmod]
  have hhierarchy := strstr_eq_false hierarchyMark havoid (by decide)
  simp [guessType, hfec, hhierarchy]

omit hpids in
theorem guessType_dvbt (inversion : SpectralInversion) (bandwidth : Bandwidth) (codeRateHP : CodeRate)
    (middle : List (List UInt8)) (guardInterval : List UInt8) (hierarchyInformation : Hierarchy) :
    guessType (fields (printSetting inversion inversionList :: printSetting bandwidth bandwidthList ::
      printSetting codeRateHP fecList :: (middle ++ [guardInterval,
        printSetting hierarchyInformation hierarchyList])) ++ pids) = .dvbt := by
  obtain ⟨fec, hfec⟩ := printSetting_fec codeRateHP
  obtain ⟨name, hname⟩ := printSetting_hierarchy hierarchyInformation
  rw [hfec, hname]
  have hfound := strstr_field fecMark_eq
    [printSetting inversion inversionList] (printSetting bandwidth bandwidthList) fec
    (middle ++ [guardInterval, hierarchyMark.tail ++ name]) pids
  have hhierarchy := strstr_field
    hierarchyMark_eq
    (printSetting inversion inversionList :: printSetting bandwidth bandwidthList ::
      (fecMark.tail ++ fec) :: middle) guardInterval name [] pids
  simp only [List.cons_append, List.nil_append] at hfound hhierarchy
  rw [guessType, if_pos hfound, if_pos hhierarchy]

theorem guessType_save {p : Parameters ZapSat} (h : p.Readable) :
    guessType (fields (settingFields p).tail ++ pids) = p.u.feType := by
  obtain ⟨frequency, inversion, u⟩ := p
  obtain ⟨-, hu⟩ := h
  cases u with
  | atsc modulation => exact guessType_atsc hpids hu
  | dvbs symbolRate fecInner sat =>
    exact guessType_dvbs hpids hu.1 sat.diseqcSwitch.toInt (symbolRate / 1000).toInt
  | dvbc symbolRate fecInner modulation =>
    exact guessType_dvbc hpids inversion symbolRate.toInt fecInner
      (.printSetting (by decide) (by decide) modulation)
  | dvbt bandwidth codeRateHP codeRateLP constellation transmissionMode guardInterval
      hierarchyInformation =>
    exact guessType_dvbt inversion bandwidth codeRateHP [printSetting codeRateLP fecList,
      printSetting constellation constellationList, printSetting transmissionMode transmissionModeList]
      (printSetting guardInterval guardIntervalList) hierarchyInformation

end

/-! ### Lines are read back -/

def storedFrequency (p : Parameters ZapSat) : BitVec 32 :=
  match p.u with
  | .dvbs .. => p.frequency / 1000
  | .dvbc .. | .dvbt .. | .atsc .. => p.frequency

theorem settingFields_eq (p : Parameters ZapSat) :
    settingFields p = printInt (storedFrequency p).toInt :: (settingFields p).tail := by
  obtain ⟨frequency, inversion, u⟩ := p
  cases u <;> rfl

theorem div_mul_thousand {x : BitVec 32} (h : 1000 ∣ x.toNat) : x / 1000 * 1000 = x := by
  apply BitVec.eq_of_toNat_eq
  have hlt := x.isLt
  rw [BitVec.toNat_mul, BitVec.toNat_udiv]
  show x.toNat / 1000 * 1000 % 2 ^ 32 = x.toNat
  omega

theorem colon_ne_zero : colon ≠ 0 := by decide

theorem colon_noNumber : colon ≠ 45 ∧ ¬ (48 ≤ colon ∧ colon ≤ 57) := by decide

theorem parseInt_fields (x : BitVec 32) (texts : List (List UInt8)) (mem : List UInt8) :
    (parseInt colon).run (fields (printInt x.toInt :: texts) ++ mem) = some (x, fields texts ++ mem) := by
  rw [fields_cons, parseInt_print colon_ne_zero colon_noNumber]

theorem parseSetting_fields {α : Type} [DecidableEq α] {setting : α} {settings : SettingTable colon α}
    (h : Listed setting settings) (texts : List (List UInt8)) (mem : List UInt8) :
    (parseSetting settings).run (fields (printSetting setting settings :: texts) ++ mem)
      = some (setting, fields texts ++ mem) := by
  rw [fields_cons, parseSetting_lookup colon_ne_zero (lookup_of_listed h)]

/-- **The settings are read back.** -/
theorem zapSettings_save {p : Parameters ZapSat} (h : p.Readable) (mem : List UInt8) :
    (zapSettings (storedFrequency p) p.u.feType).run (fields (settingFields p).tail ++ mem)
      = some (p.autoInversion.autoFec, mem) := by
  obtain ⟨frequency, inversion, u⟩ := p
  obtain ⟨hinv, hu⟩ := h
  cases u with
  | atsc modulation =>
    simp only [Frontend.feType, zapSettings, settingFields, List.tail_cons]
    rw [run_bind_some (parseSetting_fields hu _ _)]
    rfl
  | dvbc symbolRate fecInner modulation =>
    obtain ⟨hfec, hmod⟩ := hu
    simp only [Frontend.feType, zapSettings, settingFields, List.tail_cons]
    rw [run_bind_some (parseSetting_fields hinv _ _), run_bind_some (parseInt_fields symbolRate _ _),
      run_bind_some (parseSetting_fields hfec _ _), run_bind_some (parseSetting_fields hmod _ _)]
    rfl
  | dvbs symbolRate fecInner sat =>
    obtain ⟨hpol, hfreq, hrate⟩ := hu
    obtain ⟨hlower, havoid, -⟩ := polarizations_lower sat.polarization hpol
    have hplain : Plain colon [sat.polarization] :=
      ⟨havoid 0 (by simp [ends]), havoid colon List.mem_cons_self⟩
    have hchar (texts : List (List UInt8)) : (tolower <$> parseChar colon).run
        (fields ([sat.polarization] :: texts) ++ mem) = some (sat.polarization, fields texts ++ mem) := by
      rw [fields_cons, StateT.run_map, parseChar_print colon_ne_zero hplain]
      exact congrArg (fun c => some (c, fields texts ++ mem)) hlower
    simp only [Frontend.feType, zapSettings, settingFields, List.tail_cons, hlower]
    rw [run_bind_some (hchar _), if_pos hpol, run_bind_some (parseInt_fields sat.diseqcSwitch _ _),
      run_bind_some (parseInt_fields (symbolRate / 1000) _ _), div_mul_thousand hrate]
    show some (_, mem) = some (_, mem)
    rw [storedFrequency, div_mul_thousand hfreq]
    rfl
  | dvbt bandwidth codeRateHP codeRateLP constellation transmissionMode guardInterval
      hierarchyInformation =>
    obtain ⟨hbandwidth, hHP, hLP, hconstellation, hmode, hguard, hhierarchy⟩ := hu
    simp only [Frontend.feType, zapSettings, settingFields, List.tail_cons]
    rw [run_bind_some (parseSetting_fields hinv _ _), run_bind_some (parseSetting_fields hbandwidth _ _),
      run_bind_some (parseSetting_fields hHP _ _), run_bind_some (parseSetting_fields hLP _ _),
      run_bind_some (parseSetting_fields hconstellation _ _), run_bind_some (parseSetting_fields hmode _ _),
      run_bind_some (parseSetting_fields hguard _ _), run_bind_some (parseSetting_fields hhierarchy _ _)]
    rfl

theorem Avoids.printSetting_ends {α : Type} [DecidableEq α] (setting : α) (settings : SettingTable colon α) :
    Avoids ends (Dvbcfg.printSetting setting settings) :=
  .printSetting (fun row hrow => (settings.plain row hrow).mono (List.subset_cons_self _ _))
    (by decide) setting

theorem Avoids.settingFields {p : Parameters ZapSat} (h : p.Readable) :
    ∀ text ∈ settingFields p, Avoids ends text := by
  obtain ⟨frequency, inversion, u⟩ := p
  have hnum (v : ℤ) : Avoids ends (ScanInt.printInt v) := .printInt noNumber_ends v
  cases u with
  | atsc modulation => simp [Dvbcfg.settingFields, hnum, printSetting_ends]
  | dvbc symbolRate fecInner modulation => simp [Dvbcfg.settingFields, hnum, printSetting_ends]
  | dvbs symbolRate fecInner sat =>
    obtain ⟨hlower, hpol, -⟩ := polarizations_lower sat.polarization h.2.1
    have hpol := hpol.mono (List.subset_cons_self colon ends)
    simp [Dvbcfg.settingFields, hnum, hlower, hpol]
  | dvbt bandwidth codeRateHP codeRateLP constellation transmissionMode guardInterval
      hierarchyInformation => simp [Dvbcfg.settingFields, hnum, printSetting_ends]

def pidText (c : Zapchannel) : List UInt8 :=
  fields [printInt c.videoPid.toInt, printInt c.audioPid.toInt] ++ printInt c.serviceId.toInt

theorem Avoids.pidText {bad : List UInt8} (hnum : NoNumber bad) (hcolon : colon ∉ bad) (c : Zapchannel) :
    Avoids bad (pidText c) := by
  refine .append (.fields hcolon ?_) (.printInt hnum _)
  intro text htext
  rcases List.mem_pair.mp htext with rfl | rfl
  · exact .printInt hnum _
  · exact .printInt hnum _

theorem Avoids.saveText {c : Zapchannel} (h : c.Readable) : Avoids ends (saveText c) := by
  refine .append (.fields colon_notMem_ends ?_) (.pidText noNumber_ends colon_notMem_ends c)
  intro text htext
  rcases List.mem_cons.mp htext with rfl | htext
  · exact h.plain.mono (by simp [ends])
  · exact .settingFields h.settings text htext

/-- **The fields behind the name are read back.** -/
theorem zapRest_save (h : c.feParams.Readable) (mem : List UInt8) :
    zapRest.run (fields (settingFields c.feParams) ++ (pidText c ++ 0 :: mem))
      = some (fun name => ⟨name, c.videoPid, c.audioPid, c.serviceId, c.feParams.autoInversion.autoFec⟩,
          0 :: mem) := by
  have hstr : cstr (fields (settingFields c.feParams).tail ++ (pidText c ++ 0 :: mem))
      = fields (settingFields c.feParams).tail ++ pidText c := by
    have hzero : (0 : UInt8) ∉ fields (settingFields c.feParams).tail ++ pidText c := by
      refine Avoids.append (.fields colon_notMem_ends ?_) (.pidText noNumber_ends colon_notMem_ends c)
        0 (by simp)
      exact fun text htext => .settingFields h text (List.mem_of_mem_tail htext)
    rw [← List.append_assoc, cstr_append hzero, cstr_zero, List.append_nil]
  have hguess : guessType (fields (settingFields c.feParams).tail ++ pidText c) = c.feParams.u.feType :=
    guessType_save (.pidText noNumber_capitals colon_notMem_capitals c) h
  have hservice : (orZero (parseInt colon)).run (printInt c.serviceId.toInt ++ 0 :: mem)
      = some (c.serviceId, 0 :: mem) := by
    show some (((parseInt colon).run _).getD _) = _
    rw [parseInt_last colon_noNumber]
    rfl
  rw [zapRest, settingFields_eq, run_bind_some (parseInt_fields _ _ _)]
  rw [run_bind_some (show peek.run _ = some (_, _) from rfl), hstr, hguess,
    run_bind_some (zapSettings_save h _), pidText, List.append_assoc,
    run_bind_some (parseInt_fields c.videoPid _ _), run_bind_some (parseInt_fields c.audioPid _ _),
    fields_nil, run_bind_some hservice]
  rfl

/-- **A line is read back.** -/
theorem lineValue_save (h : c.Readable) (left : List UInt8) :
    lineValue zapchannelLine (saveText c ++ [newline]) left = some c.readBack := by
  have hends := Avoids.saveText h
  have hplain : Plain colon c.name := ⟨h.plain 0 (by simp), h.plain colon (by simp)⟩
  have hcut : lineBuf (saveText c ++ [newline]) left = saveText c ++ 0 :: 0 :: left := by
    rw [lineBuf, List.append_assoc, List.singleton_append]
    exact cutLine_append hends (by simp) (0 :: left)
  have hname : (parseString colon 128).run
      (c.name ++ colon :: (fields (settingFields c.feParams) ++ (pidText c ++ 0 :: 0 :: left)))
        = some (c.name, fields (settingFields c.feParams) ++ (pidText c ++ 0 :: 0 :: left)) := by
    rw [parseString_stop hplain (.inr rfl), if_pos (Nat.succ_le_succ h.length)]
  have hrun : zapchannelLine.run (lineBuf (saveText c ++ [newline]) left)
      = some (c.readBack, 0 :: 0 :: left) := by
    rw [hcut, saveText, List.append_assoc, fields_cons, ← pidText, zapchannelLine, run_bind_some hname,
      run_bind_some (zapRest_save h.settings _)]
    rfl
  rw [lineValue, hrun]
  rfl

/-- **What was written is read back**, the code rate of DVB-S as AUTO. -/
theorem zapchannelParse_save {channels : List Zapchannel} (h : ∀ c ∈ channels, c.Savable) :
    RoundTrip Zapchannel.readBack channels := by
  intro σ callback left last s
  show parseLines zapchannelLine callback left 0 (getlines _) s = _
  have hnewline : ∀ c ∈ channels, newline ∉ saveText c := fun c hc =>
    Avoids.saveText (h c hc).readable newline (by simp)
  rw [parseLines_eq_deliver, zapchannelSave, getlines_flatMap hnewline,
    yields_map zapchannelLine left (fun c => saveText c ++ [newline]) Zapchannel.readBack channels
      fun c hc left => lineValue_save (h c hc).readable left]

def fourChannels : List Zapchannel := [
  ⟨ascii ['A'], 101, 102, 28106, ⟨11837000, .on, .dvbs 27500000 .fec34 ⟨104, 0⟩⟩⟩,
  ⟨ascii ['B'], 101, 102, 28106, ⟨346000000, .off, .dvbc 6900000 .none .qam256⟩⟩,
  ⟨ascii ['C'], 101, 102, 0, ⟨4294967295, .auto, .dvbt .mhz8 .fec12 .auto .qpsk .mode8k .guard4 .one⟩⟩,
  ⟨ascii [], 101, 102, 28106, ⟨57028615, .on, .atsc .vsb8⟩⟩]

theorem zapchannelParse_save_four :
    (∀ c ∈ fourChannels, c.Savable) ∧ RoundTrip Zapchannel.readBack fourChannels := by
  have hsavable : ∀ c ∈ fourChannels, c.Savable := by decide
  exact ⟨hsavable, zapchannelParse_save hsavable⟩

/-- A satellite channel with a code rate of its own is read back with another. -/
theorem not_roundTrip_fec :
    ¬ ∀ channels : List Zapchannel, (∀ c ∈ channels, c.Savable) →
      RoundTrip Zapchannel.autoInversion channels := by
  intro h
  have hsavable : ∀ c ∈ fourChannels.take 1, c.Savable := by decide
  have hsame := h (fourChannels.take 1) hsavable (List Zapchannel) (fun s c => (0, s ++ [c])) (fun _ => []) 1 []
  have hdiffers : (zapchannelParse (fun s c => (0, s ++ [c])) (fun _ => [])
      (zapchannelSave (fourChannels.take 1) 1).1 []).2
        ≠ (deliver (fun s c => (0, s ++ [c])) ((fourChannels.take 1).map Zapchannel.autoInversion) []).2 := by
    decide
  exact hdiffers (congrArg Prod.snd hsame)

end BgtDvb.Dvbcfg
