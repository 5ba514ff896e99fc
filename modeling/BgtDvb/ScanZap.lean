import BgtDvb.DvbcfgZapchannel
import BgtDvb.ScanTransponder

/-!
# The zap lines of the scan utility

`dump_lists` of `util/scan/scan.c` writes a line for each service that was found, in the format of
`util/scan/dump-zap.c`.  `dvbcfg_zapchannel_parse` of libdvbcfg reads such lines; the two have their own tables of
names, and only the reader has comments.

* `lineValue_zapText` — **PROVED**: a line is read as this channel;
* `zapchannelParse_dumpLists` — **PROVED**: and so is all that is written.

DVB-S lines have no code rate, and their numbers are thousands.
-/

namespace BgtDvb.Dvbscan

open BgtDvb.CString
open BgtDvb.CString.Reader
open BgtDvb.Dvbcfg
open BgtDvb.ScanInt

/-! ### The names -/

/-- `inv_name` -/
def invName : FeSpectralInversion → List UInt8
  | .off => ascii ['I', 'N', 'V', 'E', 'R', 'S', 'I', 'O', 'N', '_', 'O', 'F', 'F']
  | .on => ascii ['I', 'N', 'V', 'E', 'R', 'S', 'I', 'O', 'N', '_', 'O', 'N']
  | .auto => ascii ['I', 'N', 'V', 'E', 'R', 'S', 'I', 'O', 'N', '_', 'A', 'U', 'T', 'O']

/-- `fec_name` -/
def fecName : FeCodeRate → List UInt8
  | .none => ascii ['F', 'E', 'C', '_', 'N', 'O', 'N', 'E']
  | .fec12 => ascii ['F', 'E', 'C', '_', '1', '_', '2']
  | .fec23 => ascii ['F', 'E', 'C', '_', '2', '_', '3']
  | .fec34 => ascii ['F', 'E', 'C', '_', '3', '_', '4']
  | .fec45 => ascii ['F', 'E', 'C', '_', '4', '_', '5']
  | .fec56 => ascii ['F', 'E', 'C', '_', '5', '_', '6']
  | .fec67 => ascii ['F', 'E', 'C', '_', '6', '_', '7']
  | .fec78 => ascii ['F', 'E', 'C', '_', '7', '_', '8']
  | .fec89 => ascii ['F', 'E', 'C', '_', '8', '_', '9']
  | .auto => ascii ['F', 'E', 'C', '_', 'A', 'U', 'T', 'O']

/-- `qam_name` -/
def qamName : FeModulation → List UInt8
  | .qpsk => ascii ['Q', 'P', 'S', 'K']
  | .qam16 => ascii ['Q', 'A', 'M', '_', '1', '6']
  | .qam32 => ascii ['Q', 'A', 'M', '_', '3', '2']
  | .qam64 => ascii ['Q', 'A', 'M', '_', '6', '4']
  | .qam128 => ascii ['Q', 'A', 'M', '_', '1', '2', '8']
  | .qam256 => ascii ['Q', 'A', 'M', '_', '2', '5', '6']
  | .auto => ascii ['Q', 'A', 'M', '_', 'A', 'U', 'T', 'O']
  | .vsb8 => ascii ['8', 'V', 'S', 'B']
  | .vsb16 => ascii ['1', '6', 'V', 'S', 'B']

/-- `bw_name` -/
def bwName : FeBandwidth → List UInt8
  | .mhz8 => ascii ['B', 'A', 'N', 'D', 'W', 'I', 'D', 'T', 'H', '_', '8', '_', 'M', 'H', 'Z']
  | .mhz7 => ascii ['B', 'A', 'N', 'D', 'W', 'I', 'D', 'T', 'H', '_', '7', '_', 'M', 'H', 'Z']
  | .mhz6 => ascii ['B', 'A', 'N', 'D', 'W', 'I', 'D', 'T', 'H', '_', '6', '_', 'M', 'H', 'Z']
  | .auto => ascii ['B', 'A', 'N', 'D', 'W', 'I', 'D', 'T', 'H', '_', 'A', 'U', 'T', 'O']

/-- `mode_name` -/
def modeName : FeTransmitMode → List UInt8
  | .mode2k => ascii ['T', 'R', 'A', 'N', 'S', 'M', 'I', 'S', 'S', 'I', 'O', 'N', '_', 'M', 'O', 'D', 'E', '_', '2', 'K']
  | .mode8k => ascii ['T', 'R', 'A', 'N', 'S', 'M', 'I', 'S', 'S', 'I', 'O', 'N', '_', 'M', 'O', 'D', 'E', '_', '8', 'K']
  | .auto => ascii ['T', 'R', 'A', 'N', 'S', 'M', 'I', 'S', 'S', 'I', 'O', 'N', '_', 'M', 'O', 'D', 'E', '_', 'A', 'U',
      'T', 'O']

/-- `guard_name` -/
def guardName : FeGuardInterval → List UInt8
  | .guard32 => ascii ['G', 'U', 'A', 'R', 'D', '_', 'I', 'N', 'T', 'E', 'R', 'V', 'A', 'L', '_', '1', '_', '3', '2']
  | .guard16 => ascii ['G', 'U', 'A', 'R', 'D', '_', 'I', 'N', 'T', 'E', 'R', 'V', 'A', 'L', '_', '1', '_', '1', '6']
  | .guard8 => ascii ['G', 'U', 'A', 'R', 'D', '_', 'I', 'N', 'T', 'E', 'R', 'V', 'A', 'L', '_', '1', '_', '8']
  | .guard4 => ascii ['G', 'U', 'A', 'R', 'D', '_', 'I', 'N', 'T', 'E', 'R', 'V', 'A', 'L', '_', '1', '_', '4']
  | .auto => ascii ['G', 'U', 'A', 'R', 'D', '_', 'I', 'N', 'T', 'E', 'R', 'V', 'A', 'L', '_', 'A', 'U', 'T', 'O']

/-- `hierarchy_name` -/
def hierarchyName : FeHierarchy → List UInt8
  | .none => ascii ['H', 'I', 'E', 'R', 'A', 'R', 'C', 'H', 'Y', '_', 'N', 'O', 'N', 'E']
  | .one => ascii ['H', 'I', 'E', 'R', 'A', 'R', 'C', 'H', 'Y', '_', '1']
  | .two => ascii ['H', 'I', 'E', 'R', 'A', 'R', 'C', 'H', 'Y', '_', '2']
  | .four => ascii ['H', 'I', 'E', 'R', 'A', 'R', 'C', 'H', 'Y', '_', '4']
  | .auto => ascii ['H', 'I', 'E', 'R', 'A', 'R', 'C', 'H', 'Y', '_', 'A', 'U', 'T', 'O']

/-! ### Writing -/

/-- `sat_polarisation` -/
def satPolarisation (t : Transponder) : UInt8 := if t.polarisation = .vertical then 118 else 104

/-- `%i` of an unsigned number. -/
def printUnsigned (x : UInt32) : List UInt8 := printInt x.toBitVec.toInt

/-- `%i` of a 16-bit number. -/
def printPid (x : UInt16) : List UInt8 := printInt x.toNat

/-- `zap_dump_dvb_parameters` -/
def zapDumpDvbParameters (t : Transponder) (satNumber : BitVec 32) : List UInt8 :=
  match t.u with
  | some (.qpsk symbolRate _) =>
    fields [printUnsigned (t.frequency / 1000), [satPolarisation t], printInt satNumber.toInt] ++
      printUnsigned (symbolRate / 1000)
  | some (.qam symbolRate fecInner modulation) =>
    fields [printUnsigned t.frequency, invName t.inversion, printUnsigned symbolRate, fecName fecInner] ++
      qamName modulation
  | some (.ofdm bandwidth codeRateHP codeRateLP constellation transmissionMode guardInterval hierarchyInformation) =>
    fields [printUnsigned t.frequency, invName t.inversion, bwName bandwidth, fecName codeRateHP, fecName codeRateLP,
      qamName constellation, modeName transmissionMode, guardName guardInterval] ++ hierarchyName hierarchyInformation
  | some (.vsb modulation) => fields [printUnsigned t.frequency] ++ qamName modulation
  | none => []

/-- A service as it was found; `audio_pid` as far as `audio_num`, in memory that is 0 at first. -/
structure ZapService where
  serviceName : Option (List UInt8)
  serviceId : UInt16
  videoPid : UInt16
  audioPid : List UInt16
  scrambled : Bool
  deriving DecidableEq, Repr

/-- A transponder with its services. -/
structure Scanned where
  transponder : Transponder
  services : List ZapService
  deriving DecidableEq, Repr

/-- The options that `dump_lists` looks at. -/
structure DumpOptions where
  uniqueAnonServices : Bool
  servSelect : UInt32
  caSelect : Bool
  switchPos : BitVec 32
  deriving DecidableEq, Repr

def ZapService.firstAudioPid (s : ZapService) : UInt16 := s.audioPid.headD 0

/-- `zap_dump_service_parameter_set`, without the newline. -/
def zapText (serviceName : List UInt8) (t : Transponder) (satNumber : BitVec 32) (s : ZapService) : List UInt8 :=
  serviceName ++ [colon] ++ zapDumpDvbParameters t satNumber ++ [colon] ++ printPid s.videoPid ++ [colon]
    ++ printPid s.firstAudioPid ++ [colon] ++ printPid s.serviceId

def hexDigit (d : ℕ) : UInt8 := if d < 10 then UInt8.ofNat (48 + d) else UInt8.ofNat (87 + d)

/-- `%0nx` -/
def printHex (width n : ℕ) : List UInt8 :=
  let digits := (Nat.digits 16 n).reverse.map hexDigit
  List.replicate (width - digits.length) 48 ++ digits

/-- The name of a service that is not in the SDT, as `snprintf` writes it to `sn`. -/
def anonName (o : DumpOptions) (anonServices : ℕ) (serviceId : UInt16) : List UInt8 :=
  (if o.uniqueAnonServices then [91] ++ printHex 3 anonServices ++ [45] ++ printHex 4 serviceId.toNat ++ [93]
    else [91] ++ printHex 4 serviceId.toNat ++ [93]).take 19

/-- `:` is the field separator. -/
def spaceForColon (name : List UInt8) : List UInt8 := name.map fun c => if c = colon then 32 else c

def DumpOptions.selects (o : DumpOptions) (s : ZapService) : Bool :=
  !(s.videoPid != 0 && o.servSelect &&& 1 == 0)
    && !(s.videoPid == 0 && !s.audioPid.isEmpty && o.servSelect &&& 2 == 0)
    && !(s.videoPid == 0 && s.audioPid.isEmpty && o.servSelect &&& 4 == 0)
    && !(s.scrambled && !o.caSelect)

def dumped (o : DumpOptions) : ℕ → List (Transponder × ZapService) → List (List UInt8 × Transponder × ZapService)
  | _, [] => []
  | anonServices, (t, s) :: rest =>
    let name := spaceForColon (s.serviceName.getD (anonName o anonServices s.serviceId))
    let anonServices := if s.serviceName.isNone then anonServices + 1 else anonServices
    if o.selects s then (name, t, s) :: dumped o anonServices rest else dumped o anonServices rest

def listed (scanned : List Scanned) : List (Transponder × ZapService) :=
  (scanned.filter fun x => !x.transponder.wrongFrequency).flatMap fun x => x.services.map (x.transponder, ·)

/-- `dump_lists` with `OUTPUT_ZAP`. -/
def dumpLists (o : DumpOptions) (scanned : List Scanned) : List UInt8 :=
  (dumped o 0 (listed scanned)).flatMap fun d => zapText d.1 d.2.1 o.switchPos d.2.2 ++ [newline]

/-! ### The channel of a line -/

def FeSpectralInversion.dvbfe : FeSpectralInversion → SpectralInversion
  | .off => .off
  | .on => .on
  | .auto => .auto

def FeCodeRate.dvbfe : FeCodeRate → CodeRate
  | .none => .none
  | .fec12 => .fec12
  | .fec23 => .fec23
  | .fec34 => .fec34
  | .fec45 => .fec45
  | .fec56 => .fec56
  | .fec67 => .fec67
  | .fec78 => .fec78
  | .fec89 => .fec89
  | .auto => .auto

def FeBandwidth.dvbfe : FeBandwidth → Bandwidth
  | .mhz8 => .mhz8
  | .mhz7 => .mhz7
  | .mhz6 => .mhz6
  | .auto => .auto

def FeTransmitMode.dvbfe : FeTransmitMode → TransmitMode
  | .mode2k => .mode2k
  | .mode8k => .mode8k
  | .auto => .auto

def FeGuardInterval.dvbfe : FeGuardInterval → GuardInterval
  | .guard32 => .guard32
  | .guard16 => .guard16
  | .guard8 => .guard8
  | .guard4 => .guard4
  | .auto => .auto

def FeHierarchy.dvbfe : FeHierarchy → Hierarchy
  | .none => .none
  | .one => .one
  | .two => .two
  | .four => .four
  | .auto => .auto

def FeModulation.dvbc : FeModulation → Option DvbcMod
  | .qam16 => some .qam16
  | .qam32 => some .qam32
  | .qam64 => some .qam64
  | .qam128 => some .qam128
  | .qam256 => some .qam256
  | .auto => some .auto
  | .qpsk | .vsb8 | .vsb16 => none

def FeModulation.dvbt : FeModulation → Option DvbtConst
  | .qpsk => some .qpsk
  | .qam16 => some .qam16
  | .qam32 => some .qam32
  | .qam64 => some .qam64
  | .qam128 => some .qam128
  | .qam256 => some .qam256
  | .auto => some .auto
  | .vsb8 | .vsb16 => none

def FeModulation.atsc : FeModulation → Option AtscMod
  | .vsb8 => some .vsb8
  | .vsb16 => some .vsb16
  | .qam64 => some .qam64
  | .qam256 => some .qam256
  | .qpsk | .qam16 | .qam32 | .qam128 | .auto => none

/-- The parameters that a line stands for: of DVB-S the thousands, without a code rate. -/
def zapParameters (t : Transponder) (satNumber : BitVec 32) : Option (Parameters ZapSat) :=
  match t.u with
  | some (.qpsk symbolRate _) =>
    some ⟨(t.frequency / 1000 * 1000).toBitVec, .auto,
      .dvbs (symbolRate / 1000 * 1000).toBitVec .auto ⟨satPolarisation t, satNumber⟩⟩
  | some (.qam symbolRate fecInner modulation) =>
    modulation.dvbc.map fun m =>
      ⟨t.frequency.toBitVec, t.inversion.dvbfe, .dvbc symbolRate.toBitVec fecInner.dvbfe m⟩
  | some (.ofdm bandwidth codeRateHP codeRateLP constellation transmissionMode guardInterval hierarchyInformation) =>
    constellation.dvbt.map fun m =>
      ⟨t.frequency.toBitVec, t.inversion.dvbfe, .dvbt bandwidth.dvbfe codeRateHP.dvbfe codeRateLP.dvbfe m
        transmissionMode.dvbfe guardInterval.dvbfe hierarchyInformation.dvbfe⟩
  | some (.vsb modulation) => modulation.atsc.map fun m => ⟨t.frequency.toBitVec, .auto, .atsc m⟩
  | none => none

/-- A 16-bit number as an int. -/
def pidInt (x : UInt16) : BitVec 32 := x.toBitVec.setWidth 32

def zapChannel (serviceName : List UInt8) (t : Transponder) (satNumber : BitVec 32) (s : ZapService) :
    Option Zapchannel :=
  (zapParameters t satNumber).map fun p =>
    ⟨serviceName, pidInt s.videoPid, pidInt s.firstAudioPid, pidInt s.serviceId, p⟩

theorem invName_eq (inversion : FeSpectralInversion) : invName inversion = printSetting inversion.dvbfe inversionList := by
  cases inversion <;> rfl

theorem fecName_eq (fec : FeCodeRate) : fecName fec = printSetting fec.dvbfe fecList := by
  cases fec <;> rfl

theorem bwName_eq (bandwidth : FeBandwidth) : bwName bandwidth = printSetting bandwidth.dvbfe bandwidthList := by
  cases bandwidth <;> rfl

theorem modeName_eq (mode : FeTransmitMode) : modeName mode = printSetting mode.dvbfe transmissionModeList := by
  cases mode <;> rfl

theorem guardName_eq (guard : FeGuardInterval) : guardName guard = printSetting guard.dvbfe guardIntervalList := by
  cases guard <;> rfl

theorem hierarchyName_eq (hierarchy : FeHierarchy) :
    hierarchyName hierarchy = printSetting hierarchy.dvbfe hierarchyList := by
  cases hierarchy <;> rfl

variable {m : FeModulation} {satNumber : BitVec 32} {t : Transponder} {name : List UInt8}

theorem qamName_dvbc {m' : DvbcMod} (h : m.dvbc = some m') : qamName m = printSetting m' dvbcModulationList := by
  cases m <;> cases h <;> rfl

theorem qamName_dvbt {m' : DvbtConst} (h : m.dvbt = some m') : qamName m = printSetting m' constellationList := by
  cases m <;> cases h <;> rfl

theorem qamName_atsc {m' : AtscMod} (h : m.atsc = some m') : qamName m = printSetting m' atscModulationList := by
  cases m <;> cases h <;> rfl

theorem listed_inversion (i : SpectralInversion) : Listed i inversionList := by
  cases i <;> simp [Listed, inversionList]

theorem listed_fec (c : CodeRate) : Listed c fecList := by
  cases c <;> simp [Listed, fecList]

theorem listed_bandwidth (b : Bandwidth) : Listed b bandwidthList := by
  cases b <;> simp [Listed, bandwidthList]

theorem listed_transmissionMode (m : TransmitMode) : Listed m transmissionModeList := by
  cases m <;> simp [Listed, transmissionModeList]

theorem listed_guardInterval (g : GuardInterval) : Listed g guardIntervalList := by
  cases g <;> simp [Listed, guardIntervalList]

theorem listed_hierarchy (h : Hierarchy) : Listed h hierarchyList := by
  cases h <;> simp [Listed, hierarchyList]

theorem listed_dvbc (m : DvbcMod) : Listed m dvbcModulationList := by
  cases m <;> simp [Listed, dvbcModulationList]

theorem listed_dvbt (m : DvbtConst) : Listed m constellationList := by
  cases m <;> simp [Listed, constellationList]

theorem listed_atsc {m' : AtscMod} (h : m.atsc = some m') : Listed m' atscModulationList := by
  cases m <;> cases h <;> simp [Listed, atscModulationList]

def modulations : List FeModulation := [.qpsk, .qam16, .qam32, .qam64, .qam128, .qam256, .auto, .vsb8, .vsb16]

theorem mem_modulations (m : FeModulation) : m ∈ modulations := by
  cases m <;> simp [modulations]

theorem qamName_plain (m : FeModulation) :
    Avoids (colon :: ends) (qamName m) ∧ Avoids [70] (qamName m) ∧ Avoids [72] (qamName m) := by
  have hall : ∀ m ∈ modulations,
      Avoids (colon :: ends) (qamName m) ∧ Avoids [70] (qamName m) ∧ Avoids [72] (qamName m) := by decide
  exact hall m (mem_modulations m)

theorem qamName_unlisted (m : FeModulation) :
    (m.dvbc = none → ∀ row ∈ dvbcModulationList.rows, qamName m ≠ row.name)
      ∧ (m.dvbt = none → ∀ row ∈ constellationList.rows, qamName m ≠ row.name)
      ∧ (m.atsc = none → ∀ row ∈ atscModulationList.rows, qamName m ≠ row.name) := by
  have hall : ∀ m ∈ modulations,
      (m.dvbc = none → ∀ row ∈ dvbcModulationList.rows, qamName m ≠ row.name)
        ∧ (m.dvbt = none → ∀ row ∈ constellationList.rows, qamName m ≠ row.name)
        ∧ (m.atsc = none → ∀ row ∈ atscModulationList.rows, qamName m ≠ row.name) := by decide
  exact hall m (mem_modulations m)

/-! ### Lines that are read -/

theorem printPid_eq (x : UInt16) : printPid x = printInt (pidInt x).toInt := by
  have hlt := x.toNat_lt
  have hnat : (pidInt x).toNat = x.toNat := by
    rw [pidInt, BitVec.toNat_setWidth, UInt16.toNat_toBitVec]
    omega
  rw [printPid, BitVec.toInt_eq_toNat_of_lt (by omega), hnat]

theorem toNat_thousands (x : UInt32) : (x / 1000 * 1000).toBitVec.toNat = x.toNat / 1000 * 1000 := by
  have hlt := x.toNat_lt
  rw [UInt32.toNat_toBitVec, UInt32.toNat_mul, UInt32.toNat_div]
  show x.toNat / 1000 * 1000 % 2 ^ 32 = x.toNat / 1000 * 1000
  omega

theorem thousands_div (x : UInt32) : (x / 1000 * 1000).toBitVec / 1000 = (x / 1000).toBitVec := by
  apply BitVec.eq_of_toNat_eq
  rw [BitVec.toNat_udiv, toNat_thousands]
  show x.toNat / 1000 * 1000 / 1000 = (x / 1000).toNat
  rw [UInt32.toNat_div]
  show x.toNat / 1000 * 1000 / 1000 = x.toNat / 1000
  omega

theorem satPolarisation_mem (t : Transponder) : satPolarisation t ∈ polarizations := by
  unfold satPolarisation
  split <;> decide

theorem readable_of_zapParameters {p : Parameters ZapSat} (h : zapParameters t satNumber = some p) :
    p.Readable ∧ p.autoInversion.autoFec = p := by
  unfold zapParameters at h
  cases hu : t.u with
  | none =>
    rw [hu] at h
    cases h
  | some u =>
    rw [hu] at h
    cases u with
    | qpsk symbolRate fecInner =>
      cases h
      refine ⟨⟨listed_inversion _, satPolarisation_mem t, ?_, ?_⟩, rfl⟩
      · exact ⟨_, (toNat_thousands t.frequency).trans (Nat.mul_comm _ _)⟩
      · exact ⟨_, (toNat_thousands symbolRate).trans (Nat.mul_comm _ _)⟩
    | qam symbolRate fecInner modulation =>
      obtain ⟨m, hm, rfl⟩ := Option.map_eq_some_iff.mp h
      exact ⟨⟨listed_inversion _, listed_fec _, listed_dvbc m⟩, rfl⟩
    | ofdm bandwidth codeRateHP codeRateLP constellation transmissionMode guardInterval hierarchyInformation =>
      obtain ⟨m, hm, rfl⟩ := Option.map_eq_some_iff.mp h
      exact ⟨⟨listed_inversion _, listed_bandwidth _, listed_fec _, listed_fec _, listed_dvbt m,
        listed_transmissionMode _, listed_guardInterval _, listed_hierarchy _⟩, rfl⟩
    | vsb modulation =>
      obtain ⟨m, hm, rfl⟩ := Option.map_eq_some_iff.mp h
      exact ⟨⟨listed_inversion _, listed_atsc hm⟩, rfl⟩

theorem zapDumpDvbParameters_eq {p : Parameters ZapSat} (h : zapParameters t satNumber = some p) :
    zapDumpDvbParameters t satNumber ++ [colon] = fields (settingFields p) := by
  unfold zapParameters at h
  unfold zapDumpDvbParameters
  cases hu : t.u with
  | none =>
    rw [hu] at h
    cases h
  | some u =>
    rw [hu] at h
    cases u with
    | qpsk symbolRate fecInner =>
      cases h
      obtain ⟨hlower, -⟩ := polarizations_lower _ (satPolarisation_mem t)
      simp only [settingFields, thousands_div, hlower, fields, printUnsigned, List.flatMap_cons, List.flatMap_nil,
        List.append_assoc, List.append_nil]
    | qam symbolRate fecInner modulation =>
      obtain ⟨m, hm, rfl⟩ := Option.map_eq_some_iff.mp h
      simp only [settingFields, fields, printUnsigned, invName_eq, fecName_eq, qamName_dvbc hm,
        List.flatMap_cons, List.flatMap_nil, List.append_assoc, List.append_nil]
    | ofdm bandwidth codeRateHP codeRateLP constellation transmissionMode guardInterval hierarchyInformation =>
      obtain ⟨m, hm, rfl⟩ := Option.map_eq_some_iff.mp h
      simp only [settingFields, fields, printUnsigned, invName_eq, fecName_eq, bwName_eq, modeName_eq, guardName_eq,
        hierarchyName_eq, qamName_dvbt hm, List.flatMap_cons, List.flatMap_nil, List.append_assoc,
        List.append_nil]
    | vsb modulation =>
      obtain ⟨m, hm, rfl⟩ := Option.map_eq_some_iff.mp h
      simp only [settingFields, fields, printUnsigned, qamName_atsc hm, List.flatMap_cons, List.flatMap_nil,
        List.append_assoc, List.append_nil]

theorem zapText_eq {s : ZapService} {c : Zapchannel} (h : zapChannel name t satNumber s = some c) :
    zapText name t satNumber s = saveText c := by
  obtain ⟨p, hp, rfl⟩ := Option.map_eq_some_iff.mp h
  have hparams := zapDumpDvbParameters_eq hp
  rw [zapText, List.append_assoc (name ++ [colon]), hparams]
  simp only [saveText, printPid_eq, fields, List.flatMap_cons, List.flatMap_nil, List.append_assoc, List.append_nil]

/-! ### Lines that are not read -/

theorem qamName_ends (m : FeModulation) : Avoids ends (qamName m) :=
  (qamName_plain m).1.mono (List.subset_cons_self _ _)

theorem qamName_field (m : FeModulation) : Plain colon (qamName m) :=
  ⟨(qamName_plain m).1 0 (by simp), (qamName_plain m).1 colon List.mem_cons_self⟩

theorem avoids_zapDumpDvbParameters (t : Transponder) (satNumber : BitVec 32) :
    Avoids ends (zapDumpDvbParameters t satNumber) := by
  have hnum (v : ℤ) : Avoids ends (printInt v) := .printInt noNumber_ends v
  unfold zapDumpDvbParameters
  cases t.u with
  | none => exact fun c hc => List.not_mem_nil
  | some u =>
    cases u with
    | qpsk symbolRate fecInner =>
      obtain ⟨-, hpol, -⟩ := polarizations_lower _ (satPolarisation_mem t)
      have hpol := hpol.mono (List.subset_cons_self colon ends)
      exact .append (.fields colon_notMem_ends (by simp [printUnsigned, hnum, hpol])) (hnum _)
    | qam symbolRate fecInner modulation =>
      refine .append (.fields colon_notMem_ends ?_) (qamName_ends modulation)
      simp [printUnsigned, hnum, invName_eq, fecName_eq, Avoids.printSetting_ends]
    | ofdm bandwidth codeRateHP codeRateLP constellation transmissionMode guardInterval hierarchyInformation =>
      refine .append (.fields colon_notMem_ends ?_) (hierarchyName_eq hierarchyInformation ▸ .printSetting_ends _ _)
      simp [printUnsigned, hnum, invName_eq, fecName_eq, bwName_eq, modeName_eq, guardName_eq, qamName_ends,
        Avoids.printSetting_ends]
    | vsb modulation =>
      exact .append (.fields colon_notMem_ends (by simp [printUnsigned, hnum])) (qamName_ends modulation)

def zapPids (s : ZapService) : List UInt8 :=
  printPid s.videoPid ++ [colon] ++ printPid s.firstAudioPid ++ [colon] ++ printPid s.serviceId

theorem avoids_zapPids {bad : List UInt8} (hnum : NoNumber bad) (hcolon : colon ∉ bad) (s : ZapService) :
    Avoids bad (zapPids s) := by
  have hsep : Avoids bad [colon] := fun c hc hmem => hcolon (List.mem_singleton.mp hmem ▸ hc)
  exact .append (.append (.append (.append (.printInt hnum _) hsep) (.printInt hnum _)) hsep) (.printInt hnum _)

theorem zapText_parts (name : List UInt8) (t : Transponder) (satNumber : BitVec 32) (s : ZapService) :
    zapText name t satNumber s = name ++ colon :: (zapDumpDvbParameters t satNumber ++ colon :: zapPids s) := by
  simp [zapText, zapPids]

theorem avoids_zapText (hname : Avoids ends name) (t : Transponder) (satNumber : BitVec 32) (s : ZapService) :
    Avoids ends (zapText name t satNumber s) := by
  have hcolon : Avoids ends [colon] := by decide
  have hsep {text : List UInt8} (h : Avoids ends text) : Avoids ends (colon :: text) := Avoids.append hcolon h
  rw [zapText_parts]
  exact .append hname (hsep (.append (avoids_zapDumpDvbParameters t satNumber)
    (hsep (avoids_zapPids noNumber_ends colon_notMem_ends s))))

theorem avoids_rest {texts : List (List UInt8)} (h : ∀ text ∈ texts, Avoids ends text) (s : ZapService) :
    (0 : UInt8) ∉ fields texts ++ zapPids s :=
  Avoids.append (.fields colon_notMem_ends h) (avoids_zapPids noNumber_ends colon_notMem_ends s) 0 (by simp)

theorem parseSetting_none {α : Type} {settings : SettingTable colon α} (hname : Plain colon name)
    (h : ∀ row ∈ settings.rows, name ≠ row.name) (texts : List (List UInt8)) (mem : List UInt8) :
    (parseSetting settings).run (fields (name :: texts) ++ mem) = none := by
  have hfind : settings.rows.find? (fun row => name = row.name) = none :=
    List.find?_eq_none.mpr fun row hrow => by simpa using h row hrow
  rw [fields_cons, parseSetting, StateT.run_bind, token_append colon_ne_zero hname]
  simp [hfind]

theorem zapRest_none {frequency : BitVec 32} {texts : List (List UInt8)} {pids mem : List UInt8}
    (hzero : (0 : UInt8) ∉ fields texts ++ pids)
    (h : (zapSettings frequency (guessType (fields texts ++ pids))).run (fields texts ++ (pids ++ 0 :: mem)) = none) :
    zapRest.run (fields (printInt frequency.toInt :: texts) ++ (pids ++ 0 :: mem)) = none := by
  have hstr : cstr (fields texts ++ (pids ++ 0 :: mem)) = fields texts ++ pids := by
    rw [← List.append_assoc, cstr_append hzero, cstr_zero, List.append_nil]
  rw [zapRest, run_bind_some (parseInt_fields frequency texts _)]
  rw [run_bind_some (show peek.run _ = some (_, _) from rfl), hstr]
  refine run_bind_none.mpr fun feParams mem' hsome => ?_
  rw [h] at hsome
  cases hsome

theorem fields_concat (texts : List (List UInt8)) (last mem : List UInt8) :
    fields texts ++ last ++ colon :: mem = fields (texts ++ [last]) ++ mem := by
  simp [fields]

section Unlisted

variable {t : Transponder} (s : ZapService) (mem : List UInt8)

theorem zapRest_qam_none {symbolRate : UInt32} {fecInner : FeCodeRate} {modulation : FeModulation}
    (hm : modulation.dvbc = none) :
    zapRest.run (fields [printUnsigned t.frequency, printSetting t.inversion.dvbfe inversionList,
      printUnsigned symbolRate, printSetting fecInner.dvbfe fecList, qamName modulation] ++ (zapPids s ++ 0 :: mem)) =
        none := by
  have hnum (v : ℤ) : Avoids ends (printInt v) := .printInt noNumber_ends v
  have hcapitals := avoids_zapPids noNumber_capitals colon_notMem_capitals s
  have hguess := guessType_dvbc hcapitals t.inversion.dvbfe symbolRate.toBitVec.toInt fecInner.dvbfe
    (qamName_plain modulation).2.2
  refine zapRest_none (avoids_rest ?_ s) ?_
  · simp [printUnsigned, hnum, Avoids.printSetting_ends, qamName_ends]
  · rw [printUnsigned, hguess, zapSettings, run_bind_some (parseSetting_fields (listed_inversion _) _ _),
      run_bind_some (parseInt_fields _ _ _), run_bind_some (parseSetting_fields (listed_fec _) _ _)]
    refine run_bind_none.mpr fun b mem' hrun => ?_
    rw [parseSetting_none (qamName_field _) ((qamName_unlisted _).1 hm)] at hrun
    cases hrun

theorem zapRest_ofdm_none {bandwidth : FeBandwidth} {codeRateHP codeRateLP : FeCodeRate} {constellation : FeModulation}
    {transmissionMode : FeTransmitMode} {guardInterval : FeGuardInterval} {hierarchyInformation : FeHierarchy}
    (hm : constellation.dvbt = none) :
    zapRest.run (fields [printUnsigned t.frequency, printSetting t.inversion.dvbfe inversionList,
      printSetting bandwidth.dvbfe bandwidthList, printSetting codeRateHP.dvbfe fecList,
      printSetting codeRateLP.dvbfe fecList, qamName constellation,
      printSetting transmissionMode.dvbfe transmissionModeList, printSetting guardInterval.dvbfe guardIntervalList,
      printSetting hierarchyInformation.dvbfe hierarchyList] ++ (zapPids s ++ 0 :: mem)) = none := by
  have hnum (v : ℤ) : Avoids ends (printInt v) := .printInt noNumber_ends v
  have hguess := @guessType_dvbt (zapPids s) t.inversion.dvbfe bandwidth.dvbfe codeRateHP.dvbfe
    [printSetting codeRateLP.dvbfe fecList, qamName constellation,
      printSetting transmissionMode.dvbfe transmissionModeList]
    (printSetting guardInterval.dvbfe guardIntervalList) hierarchyInformation.dvbfe
  refine zapRest_none (avoids_rest ?_ s) ?_
  · simp [Avoids.printSetting_ends, qamName_ends]
  · rw [List.cons_append, List.cons_append, List.cons_append, List.nil_append] at hguess
    rw [hguess, zapSettings, run_bind_some (parseSetting_fields (listed_inversion _) _ _),
      run_bind_some (parseSetting_fields (listed_bandwidth _) _ _), run_bind_some (parseSetting_fields (listed_fec _) _ _),
      run_bind_some (parseSetting_fields (listed_fec _) _ _)]
    refine run_bind_none.mpr fun b mem' hrun => ?_
    rw [parseSetting_none (qamName_field _) ((qamName_unlisted _).2.1 hm)] at hrun
    cases hrun

theorem zapRest_vsb_none {modulation : FeModulation} (hm : modulation.atsc = none) :
    zapRest.run (fields [printUnsigned t.frequency, qamName modulation] ++ (zapPids s ++ 0 :: mem)) = none := by
  have hcapitals := avoids_zapPids noNumber_capitals colon_notMem_capitals s
  refine zapRest_none (avoids_rest (by simp [qamName_ends]) s) ?_
  have hfec := (qamName_plain modulation).2.1
  have hmarked (hguess : guessType (fields [qamName modulation] ++ zapPids s) = .atsc) :
      (zapSettings t.frequency.toBitVec (guessType (fields [qamName modulation] ++ zapPids s))).run
        (fields [qamName modulation] ++ (zapPids s ++ 0 :: mem)) = none := by
    rw [hguess, zapSettings]
    refine run_bind_none.mpr fun b mem' hrun => ?_
    rw [parseSetting_none (qamName_field _) ((qamName_unlisted _).2.2 hm)] at hrun
    cases hrun
  cases modulation with
  | vsb8 | vsb16 | qam64 | qam256 => cases hm
  | qam16 | qam32 | qam128 | auto =>
    exact hmarked (guessType_marked hcapitals hfec (by decide))
  | qpsk =>
    -- the name has no mark, and its first letter is no polarization
    have hmarks : Avoids [77] (fields [qamName .qpsk] ++ zapPids s) :=
      .append (by decide +kernel) (avoids_zapPids (by decide +kernel) (by decide +kernel) s)
    have hletters : Avoids [86] (fields [qamName .qpsk] ++ zapPids s) :=
      .append (by decide +kernel) (avoids_zapPids (by decide +kernel) (by decide +kernel) s)
    have hfecs : Avoids [70] (fields [qamName .qpsk] ++ zapPids s) :=
      .append (by decide +kernel) (avoids_zapPids (by decide +kernel) (by decide +kernel) s)
    have hnofec := strstr_eq_false fecMark hfecs (by decide)
    have hnovsb := strstr_eq_false vsbMark hletters (by decide)
    have hnoqam := strstr_eq_false qamMark hmarks (by decide)
    have hguess : guessType (fields [qamName .qpsk] ++ zapPids s) = .dvbs := by
      simp [guessType, hnofec, hnovsb, hnoqam]
    rw [hguess]
    rfl

end Unlisted

theorem zapRest_unlisted (h : zapParameters t satNumber = none) (s : ZapService) (mem : List UInt8) :
    zapRest.run (zapDumpDvbParameters t satNumber ++ colon :: (zapPids s ++ 0 :: mem)) = none := by
  unfold zapParameters at h
  unfold zapDumpDvbParameters
  cases hu : t.u with
  | none => rfl
  | some u =>
    rw [hu] at h
    cases u with
    | qpsk symbolRate fecInner => cases h
    | qam symbolRate fecInner modulation =>
      rw [fields_concat, invName_eq, fecName_eq]
      exact zapRest_qam_none s mem (Option.map_eq_none_iff.mp h)
    | ofdm bandwidth codeRateHP codeRateLP constellation transmissionMode guardInterval hierarchyInformation =>
      rw [fields_concat, invName_eq, fecName_eq, fecName_eq, bwName_eq, modeName_eq, guardName_eq, hierarchyName_eq]
      exact zapRest_ofdm_none s mem (Option.map_eq_none_iff.mp h)
    | vsb modulation =>
      rw [fields_concat]
      exact zapRest_vsb_none s mem (Option.map_eq_none_iff.mp h)

/-! ### All that is written -/

theorem lineValue_zapText (hlength : name.length ≤ 127) (hname : Avoids [colon, hash, newline, 0] name)
    (t : Transponder) (satNumber : BitVec 32) (s : ZapService) (left : List UInt8) :
    lineValue zapchannelLine (zapText name t satNumber s ++ [newline]) left = zapChannel name t satNumber s := by
  cases hparams : zapParameters t satNumber with
  | some p =>
    have hchannel : zapChannel name t satNumber s =
        some ⟨name, pidInt s.videoPid, pidInt s.firstAudioPid, pidInt s.serviceId, p⟩ := by
      rw [zapChannel, hparams]
      rfl
    obtain ⟨hreadable, hall⟩ := readable_of_zapParameters hparams
    rw [zapText_eq hchannel, hchannel, lineValue_save ⟨hlength, hname, hreadable⟩, Zapchannel.readBack, hall]
  | none =>
    have hends : Avoids ends (zapText name t satNumber s) := avoids_zapText (hname.mono (by simp [ends])) t satNumber s
    have hplain : Plain colon name := ⟨hname 0 (by simp), hname colon (by simp)⟩
    have hcut : lineBuf (zapText name t satNumber s ++ [newline]) left = zapText name t satNumber s ++ 0 :: 0 :: left := by
      rw [lineBuf, List.append_assoc, List.singleton_append]
      exact cutLine_append hends (by simp) (0 :: left)
    have hnone : zapchannelLine.run (lineBuf (zapText name t satNumber s ++ [newline]) left) = none := by
      rw [hcut, zapText_parts, List.append_assoc, List.cons_append, List.append_assoc, List.cons_append]
      refine run_bind_none.mpr fun b mem' hrun => ?_
      rw [parseString_stop hplain (.inr rfl), if_pos (Nat.succ_le_succ hlength)] at hrun
      cases hrun
      refine run_bind_none.mpr fun channel mem' hrun => ?_
      rw [zapRest_unlisted hparams] at hrun
      cases hrun
    rw [lineValue, hnone, zapChannel, hparams]
    rfl

theorem avoids_spaceForColon (h : Avoids [hash, newline, 0] name) :
    Avoids [colon, hash, newline, 0] (spaceForColon name) := by
  intro c hc hmem
  obtain ⟨d, hd, heq⟩ := List.mem_map.mp hmem
  by_cases hcolon : d = colon
  · rw [if_pos hcolon] at heq
    subst heq
    exact absurd hc (by decide)
  · rw [if_neg hcolon] at heq
    subst heq
    rcases List.mem_cons.mp hc with heq | hc
    · exact hcolon heq
    · exact h d hc hd

theorem hexDigit_avoids {d : ℕ} (hd : d < 16) : hexDigit d ∉ [hash, newline, 0] := by
  have hall : ∀ d ∈ List.range 16, hexDigit d ∉ [hash, newline, 0] := by decide
  exact hall d (List.mem_range.mpr hd)

theorem avoids_printHex (width n : ℕ) : Avoids [hash, newline, 0] (printHex width n) := by
  refine .append (fun c hc hmem => ?_) fun c hc hmem => ?_
  · rw [List.eq_of_mem_replicate hmem] at hc
    exact absurd hc (by decide)
  · obtain ⟨d, hd, rfl⟩ := List.mem_map.mp hmem
    exact hexDigit_avoids (Nat.digits_lt_base (by decide) (List.mem_reverse.mp hd)) hc

theorem anonName_readable (o : DumpOptions) (anonServices : ℕ) (serviceId : UInt16) :
    (anonName o anonServices serviceId).length ≤ 127
      ∧ Avoids [hash, newline, 0] (anonName o anonServices serviceId) := by
  have hbrackets : Avoids [hash, newline, 0] [91] ∧ Avoids [hash, newline, 0] [45]
      ∧ Avoids [hash, newline, 0] [93] := by decide
  obtain ⟨hopen, hdash, hclose⟩ := hbrackets
  refine ⟨(List.length_take_le _ _).trans (by decide), fun c hc hmem => ?_⟩
  have hmem := List.mem_of_mem_take hmem
  split at hmem
  · exact Avoids.append (.append (.append (.append hopen (avoids_printHex _ _)) hdash) (avoids_printHex _ _)) hclose
      c hc hmem
  · exact Avoids.append (.append hopen (avoids_printHex _ _)) hclose c hc hmem

/-- The name of a service fits the reader, and holds nothing that ends a line for it. -/
def ZapService.Readable (s : ZapService) : Prop :=
  ∀ name ∈ s.serviceName, name.length ≤ 127 ∧ Avoids [hash, newline, 0] name

instance (s : ZapService) : Decidable s.Readable :=
  inferInstanceAs (Decidable (∀ name ∈ s.serviceName, name.length ≤ 127 ∧ Avoids [hash, newline, 0] name))

theorem name_readable {o : DumpOptions} {ss : List (Transponder × ZapService)} (h : ∀ x ∈ ss, x.2.Readable) (anonServices : ℕ) :
    ∀ d ∈ dumped o anonServices ss, d.1.length ≤ 127 ∧ Avoids [colon, hash, newline, 0] d.1 := by
  induction ss generalizing anonServices with
  | nil => exact fun d hd => absurd hd List.not_mem_nil
  | cons x ss ih =>
    obtain ⟨t, s⟩ := x
    intro d hd
    have hrest := fun d => ih (fun x hx => h x (List.mem_cons_of_mem _ hx))
      (if s.serviceName.isNone then anonServices + 1 else anonServices) d
    have hname : (s.serviceName.getD (anonName o anonServices s.serviceId)).length ≤ 127
        ∧ Avoids [hash, newline, 0] (s.serviceName.getD (anonName o anonServices s.serviceId)) := by
      have hs := h (t, s) List.mem_cons_self
      cases hserviceName : s.serviceName with
      | none => exact anonName_readable o anonServices s.serviceId
      | some name => exact hs name hserviceName
    unfold dumped at hd
    dsimp only at hd
    split at hd
    · rcases List.mem_cons.mp hd with rfl | hd
      · exact ⟨(List.length_map _).le.trans hname.1, avoids_spaceForColon hname.2⟩
      · exact hrest d hd
    · exact hrest d hd

/-- **What the scan utility writes is read by the library.**  Each line is read as the channel that it stands for, the
whole as these channels, in their order, for names without a comment sign. -/
theorem zapchannelParse_dumpLists (o : DumpOptions) {scanned : List Scanned}
    (h : ∀ x ∈ scanned, ∀ s ∈ x.services, s.Readable) :
    (∀ d ∈ dumped o 0 (listed scanned), ∀ left,
      lineValue zapchannelLine (zapText d.1 d.2.1 o.switchPos d.2.2 ++ [newline]) left =
        zapChannel d.1 d.2.1 o.switchPos d.2.2)
      ∧ ∀ (σ : Type) (callback : σ → Zapchannel → ℤ × σ) (left : ℕ → List UInt8) (s : σ),
        zapchannelParse callback left (dumpLists o scanned) s =
          deliver callback ((dumped o 0 (listed scanned)).filterMap fun d => zapChannel d.1 d.2.1 o.switchPos d.2.2) s := by
  have hlisted : ∀ x ∈ listed scanned, x.2.Readable := by
    intro x hx
    obtain ⟨y, hy, hx⟩ := List.mem_flatMap.mp hx
    obtain ⟨s, hs, rfl⟩ := List.mem_map.mp hx
    exact h y (List.mem_of_mem_filter hy) s hs
  have hnames := name_readable (o := o) hlisted 0
  have hlines : ∀ d ∈ dumped o 0 (listed scanned), ∀ left,
      lineValue zapchannelLine (zapText d.1 d.2.1 o.switchPos d.2.2 ++ [newline]) left =
        zapChannel d.1 d.2.1 o.switchPos d.2.2 :=
    fun d hd left => lineValue_zapText (hnames d hd).1 (hnames d hd).2 d.2.1 o.switchPos d.2.2 left
  refine ⟨hlines, fun σ callback left s => ?_⟩
  have hnewline : ∀ d ∈ dumped o 0 (listed scanned), newline ∉ zapText d.1 d.2.1 o.switchPos d.2.2 := fun d hd =>
    avoids_zapText ((hnames d hd).2.mono (by simp [ends])) d.2.1 o.switchPos d.2.2 newline (by simp)
  rw [zapchannelParse, dumpLists, getlines_flatMap hnewline, parseLines_eq_deliver,
    yields_filterMap zapchannelLine left _ _ (dumped o 0 (listed scanned)) hlines]

/-- A service of each type of transponder; the name of one has a `:`, and one has none. -/
def fourScanned : List Scanned := [
  ⟨⟨[], 0, 0, 0, 11836500, .auto, some (.qpsk 27500000 .fec34), .vertical, 0, false, false, false, false, false, []⟩,
    [⟨some (ascii ['A', ':', 'B']), 28106, 101, [102, 103], false⟩]⟩,
  ⟨⟨[], 0, 0, 0, 346000000, .off, some (.qam 6900000 .none .qam256), .horizontal, 0, false, false, false, false, false,
    []⟩, [⟨none, 28107, 201, [], false⟩]⟩,
  ⟨⟨[], 0, 0, 0, 4294967295, .auto, some (.ofdm .mhz8 .fec12 .auto .qpsk .mode8k .guard4 .one), .horizontal, 0, false,
    false, false, false, false, []⟩, [⟨some (ascii ['C']), 28108, 0, [301], true⟩]⟩,
  ⟨⟨[], 0, 0, 0, 57028615, .off, some (.vsb .vsb8), .horizontal, 0, false, false, false, false, false, []⟩,
    [⟨some (ascii ['D']), 28109, 401, [402], false⟩]⟩]

def fourRead : List Zapchannel := [
  ⟨ascii ['A', ' ', 'B'], 101, 102, 28106, ⟨11836000, .auto, .dvbs 27500000 .auto ⟨118, 1⟩⟩⟩,
  ⟨ascii ['[', '6', 'd', 'c', 'b', ']'], 201, 0, 28107, ⟨346000000, .off, .dvbc 6900000 .none .qam256⟩⟩,
  ⟨ascii ['C'], 0, 301, 28108, ⟨4294967295, .auto, .dvbt .mhz8 .fec12 .auto .qpsk .mode8k .guard4 .one⟩⟩,
  ⟨ascii ['D'], 401, 402, 28109, ⟨57028615, .auto, .atsc .vsb8⟩⟩]

theorem zapchannelParse_dumpLists_four :
    zapchannelParse (fun s c => (0, s ++ [c])) (fun _ => []) (dumpLists ⟨false, 7, true, 1⟩ fourScanned) [] =
      (0, fourRead) := by
  have hreadable : ∀ x ∈ fourScanned, ∀ s ∈ x.services, s.Readable := by decide
  exact ((zapchannelParse_dumpLists ⟨false, 7, true, 1⟩ hreadable).2 _ _ _ _).trans (by decide)

/-- The parameters are those of the transponder, DVB-S frequencies but for what is less than a thousand. -/
def SameParameters (t : Transponder) (p : Parameters ZapSat) : Prop :=
  match t.u with
  | some (.qpsk symbolRate fecInner) =>
    p.frequency = (t.frequency / 1000 * 1000).toBitVec
      ∧ ∃ sat, p.u = .dvbs symbolRate.toBitVec fecInner.dvbfe sat
  | some (.qam symbolRate fecInner modulation) =>
    p.frequency = t.frequency.toBitVec ∧ p.inversion = t.inversion.dvbfe
      ∧ ∃ m ∈ modulation.dvbc, p.u = .dvbc symbolRate.toBitVec fecInner.dvbfe m
  | some (.ofdm bandwidth codeRateHP codeRateLP constellation transmissionMode guardInterval hierarchyInformation) =>
    p.frequency = t.frequency.toBitVec ∧ p.inversion = t.inversion.dvbfe
      ∧ ∃ m ∈ constellation.dvbt, p.u = .dvbt bandwidth.dvbfe codeRateHP.dvbfe codeRateLP.dvbfe m
        transmissionMode.dvbfe guardInterval.dvbfe hierarchyInformation.dvbfe
  | some (.vsb modulation) => p.frequency = t.frequency.toBitVec ∧ ∃ m ∈ modulation.atsc, p.u = .atsc m
  | none => False

/-- A line is read as a channel with the name, the PIDs, the service id and the parameters that were written. -/
def ReadAsWritten (name : List UInt8) (t : Transponder) (satNumber : BitVec 32) (s : ZapService) : Prop :=
  ∃ c, (∀ left, lineValue zapchannelLine (zapText (spaceForColon name) t satNumber s ++ [newline]) left = some c)
    ∧ c.name = spaceForColon name ∧ c.videoPid = pidInt s.videoPid ∧ c.audioPid = pidInt s.firstAudioPid
    ∧ c.serviceId = pidInt s.serviceId ∧ SameParameters t c.feParams

/-- The code rate of a DVB-S transponder is not written, the line of a DVB-C transponder with QPSK is not read, and a
comment sign in a name cuts the line. -/
theorem not_readAsWritten :
    ¬ ReadAsWritten (ascii ['A']) ⟨[], 0, 0, 0, 11836000, .auto, some (.qpsk 27500000 .fec34), .vertical, 0, false, false,
        false, false, false, []⟩ 0 ⟨some (ascii ['A']), 28106, 101, [102], false⟩
      ∧ ¬ ReadAsWritten (ascii ['A']) ⟨[], 0, 0, 0, 346000000, .off, some (.qam 6900000 .none .qpsk), .horizontal, 0,
        false, false, false, false, false, []⟩ 0 ⟨some (ascii ['A']), 28106, 101, [102], false⟩
      ∧ ¬ ReadAsWritten (ascii ['C', '#']) ⟨[], 0, 0, 0, 57028615, .off, some (.vsb .vsb8), .horizontal, 0, false, false,
        false, false, false, []⟩ 0 ⟨some (ascii ['C', '#']), 28106, 101, [102], false⟩ := by
  refine ⟨?_, ?_, ?_⟩
  · rintro ⟨c, hline, -, -, -, -, -, sat, hu⟩
    have hvalue := hline []
    rw [show lineValue zapchannelLine _ [] = some ⟨ascii ['A'], 101, 102, 28106,
      ⟨11836000, .auto, .dvbs 27500000 .auto ⟨118, 0⟩⟩⟩ from by decide] at hvalue
    cases hvalue
    cases hu
  · rintro ⟨c, hline, -⟩
    have hvalue := hline []
    rw [show lineValue zapchannelLine _ [] = none from by decide] at hvalue
    cases hvalue
  · rintro ⟨c, hline, -⟩
    have hvalue := hline []
    rw [show lineValue zapchannelLine _ [] = none from by decide] at hvalue
    cases hvalue

end BgtDvb.Dvbscan
