import BgtDvb.Lib.GuardedRun

/-!
# Transponders of the scan utility

`util/scan/scan.c` knows transponders by their frequency: two of them are the same if their frequencies are
less than 2000 apart.  An entry of a NIT is looked up by its frequency and written over the transponder that
was found, frequency included, or becomes a new one.

* `addEntry_separated_iff` — **PROVED**: an entry keeps that exactly if it is the same as at most one;
* `parseNits_separated_iff` — **PROVED**: and so along every sequence of sections.
-/

namespace BgtDvb.Dvbscan

open BgtDvb.GuardedRun

/-! ### Frontend parameters -/

/-- `fe_type` -/
inductive FeType
  | qpsk | qam | ofdm | atsc
  deriving DecidableEq, Repr

/-- `fe_spectral_inversion` -/
inductive FeSpectralInversion
  | off | on | auto
  deriving DecidableEq, Repr

/-- `fe_code_rate` -/
inductive FeCodeRate
  | none | fec12 | fec23 | fec34 | fec45 | fec56 | fec67 | fec78 | fec89 | auto
  deriving DecidableEq, Repr

/-- `fe_modulation` -/
inductive FeModulation
  | qpsk | qam16 | qam32 | qam64 | qam128 | qam256 | auto | vsb8 | vsb16
  deriving DecidableEq, Repr

/-- `fe_transmit_mode` -/
inductive FeTransmitMode
  | mode2k | mode8k | auto
  deriving DecidableEq, Repr

/-- `fe_bandwidth` -/
inductive FeBandwidth
  | mhz8 | mhz7 | mhz6 | auto
  deriving DecidableEq, Repr

/-- `fe_guard_interval` -/
inductive FeGuardInterval
  | guard32 | guard16 | guard8 | guard4 | auto
  deriving DecidableEq, Repr

/-- `fe_hierarchy` -/
inductive FeHierarchy
  | none | one | two | four | auto
  deriving DecidableEq, Repr

/-- The union of `dvb_frontend_parameters`, by the type. -/
inductive FeUnion
  | qpsk (symbolRate : UInt32) (fecInner : FeCodeRate)
  | qam (symbolRate : UInt32) (fecInner : FeCodeRate) (modulation : FeModulation)
  | ofdm (bandwidth : FeBandwidth) (codeRateHP codeRateLP : FeCodeRate) (constellation : FeModulation)
      (transmissionMode : FeTransmitMode) (guardInterval : FeGuardInterval) (hierarchyInformation : FeHierarchy)
  | vsb (modulation : FeModulation)
  deriving DecidableEq, Repr

def FeUnion.type : FeUnion → FeType
  | .qpsk .. => .qpsk
  | .qam .. => .qam
  | .ofdm .. => .ofdm
  | .vsb .. => .atsc

inductive Polarisation
  | horizontal | vertical | circularLeft | circularRight
  deriving DecidableEq, Repr

/-- `struct transponder`; `u` is `none` while the type is -1, and of the services their
`transport_stream_id` is kept. -/
structure Transponder where
  services : List ℕ := []
  networkId : ℕ := 0
  originalNetworkId : ℕ := 0
  transportStreamId : ℕ := 0
  frequency : UInt32
  inversion : FeSpectralInversion := .off
  u : Option FeUnion := none
  polarisation : Polarisation := .horizontal
  orbitalPos : ℕ := 0
  weFlag : Bool := false
  scanDone : Bool := false
  lastTuningFailed : Bool := false
  otherFrequencyFlag : Bool := false
  wrongFrequency : Bool := false
  otherF : List UInt32 := []
  deriving DecidableEq, Repr

/-! ### Delivery descriptors -/

abbrev Memory := ℕ → UInt8

def Memory.advance (buf : Memory) (n : ℕ) : Memory := fun i => buf (i + n)

def highDigit (b : UInt8) : UInt32 := ((b >>> 4) &&& 0x0f).toUInt32

def lowDigit (b : UInt8) : UInt32 := (b &&& 0x0f).toUInt32

/-- `bcd32_to_cpu` -/
def bcd32ToCpu (b0 b1 b2 b3 : UInt8) : UInt32 :=
  highDigit b0 * 10000000 + lowDigit b0 * 1000000 + highDigit b1 * 100000 + lowDigit b1 * 10000 +
    highDigit b2 * 1000 + lowDigit b2 * 100 + highDigit b3 * 10 + lowDigit b3

def fecTab : List FeCodeRate := [.auto, .fec12, .fec23, .fec34, .fec56, .fec78, .none, .none]

def qamTab : List FeModulation := [.auto, .qam16, .qam32, .qam64, .qam128, .qam256]

def mTab : List FeModulation := [.qpsk, .qam16, .qam64, .auto]

def ofecTab : List FeCodeRate := [.fec12, .fec23, .fec34, .fec56, .fec78]

/-- `parse_cable_delivery_system_descriptor` -/
def parseCableDelivery (spectralInversion : FeSpectralInversion) (buf : Memory) (t : Transponder) : Transponder :=
  { t with
    frequency := bcd32ToCpu (buf 2) (buf 3) (buf 4) (buf 5) * 100
    inversion := spectralInversion
    u := some (.qam (10 * bcd32ToCpu (buf 9) (buf 10) (buf 11) (buf 12 &&& 0xf0))
      (fecTab.getD (buf 12 &&& 0x07).toNat .none)
      -- what is behind the table is `QAM_AUTO`
      (qamTab.getD (buf 8 &&& 0x0f).toNat .auto)) }

/-- `parse_satellite_delivery_system_descriptor` -/
def parseSatelliteDelivery (spectralInversion : FeSpectralInversion) (buf : Memory) (t : Transponder) :
    Transponder :=
  { t with
    frequency := 10 * bcd32ToCpu (buf 2) (buf 3) (buf 4) (buf 5)
    inversion := spectralInversion
    u := some (.qpsk (10 * bcd32ToCpu (buf 9) (buf 10) (buf 11) (buf 12 &&& 0xf0))
      (fecTab.getD (buf 12 &&& 0x07).toNat .none))
    polarisation := [.horizontal, .vertical, .circularLeft, .circularRight].getD
      ((buf 8 >>> 5) &&& 0x03).toNat .horizontal
    orbitalPos := (bcd32ToCpu 0 0 (buf 6) (buf 7)).toNat
    weFlag := decide (buf 8 >>> 7 = 1) }

/-- `parse_terrestrial_delivery_system_descriptor` -/
def parseTerrestrialDelivery (spectralInversion : FeSpectralInversion) (buf : Memory) (t : Transponder) :
    Transponder :=
  { t with
    frequency := ((buf 2).toUInt32 <<< 24 ||| (buf 3).toUInt32 <<< 16 |||
      ((buf 4).toUInt32 <<< 8 ||| (buf 5).toUInt32)) * 10
    inversion := spectralInversion
    u := some (.ofdm
      ([.mhz8, .mhz7, .mhz6, .auto].getD ((buf 6 >>> 5) &&& 0x3).toNat .auto)
      (ofecTab.getD (buf 7 &&& 0x7).toNat .auto)
      (ofecTab.getD ((buf 8 >>> 5) &&& 0x7).toNat .auto)
      (mTab.getD ((buf 7 >>> 6) &&& 0x3).toNat .auto)
      (if buf 8 &&& 0x2 = 0 then .mode2k else .mode8k)
      ([.guard32, .guard16, .guard8, .guard4].getD ((buf 8 >>> 3) &&& 0x3).toNat .auto)
      ([.none, .one, .two, .four].getD ((buf 7 >>> 3) &&& 0x3).toNat .auto))
    otherFrequencyFlag := decide (buf 8 &&& 0x01 = 1) }

/-- `parse_frequency_list_descriptor` -/
def parseFrequencyList (buf : Memory) (t : Transponder) : Transponder :=
  let n := ((buf 1).toNat - 1) / 4
  if t.otherF ≠ [] then t
  else if n < 1 ∨ buf 2 &&& 0x03 ≠ 3 then t
  else
    { t with
      otherF := (List.range n).map fun i =>
        ((buf (3 + 4 * i)).toUInt32 <<< 24 ||| (buf (4 + 4 * i)).toUInt32 <<< 16 |||
          (buf (5 + 4 * i)).toUInt32 <<< 8 ||| (buf (6 + 4 * i)).toUInt32) * 10 }

/-- The switch of `parse_descriptors` for a NIT. -/
def parseDescriptor (spectralInversion : FeSpectralInversion) (buf : Memory) (t : Transponder) : Transponder :=
  if buf 0 = 0x43 then parseSatelliteDelivery spectralInversion buf t
  else if buf 0 = 0x44 then parseCableDelivery spectralInversion buf t
  else if buf 0 = 0x5a then parseTerrestrialDelivery spectralInversion buf t
  else if buf 0 = 0x62 then parseFrequencyList buf t
  else t

/-- `parse_descriptors` for a NIT; the length of a descriptor is kept in a byte. -/
def parseDescriptors (spectralInversion : FeSpectralInversion) (buf : Memory) (loopLen : ℕ) (t : Transponder) :
    Transponder :=
  if loopLen = 0 then t
  else if buf 1 + 2 = 0 then t
  else
    parseDescriptors spectralInversion (buf.advance (buf 1 + 2).toNat) (loopLen - (buf 1 + 2).toNat)
      (parseDescriptor spectralInversion buf t)
termination_by loopLen
decreasing_by
  rename_i hloop hlen
  have hpos : (buf 1 + 2).toNat ≠ 0 := fun h => hlen (UInt8.toNat_inj.mp h)
  omega

/-! ### The lists of transponders -/

/-- `scanned_transponders` and `new_transponders`. -/
structure Tps where
  scanned : List Transponder
  new : List Transponder
  deriving DecidableEq, Repr

/-- `is_same_transponder` -/
def isSameTransponder (f1 f2 : UInt32) : Bool :=
  if f1 = f2 then true
  else
    let diff := if f1 > f2 then f1 - f2 else f2 - f1
    decide (diff < 2000)

/-- `copy_transponder` -/
def copyTransponder (d s : Transponder) : Transponder :=
  { s with
    services := if d.transportStreamId ≠ s.transportStreamId then d.services.map fun _ => s.transportStreamId
      else d.services
    wrongFrequency := d.wrongFrequency }

def changeSame (frequency : UInt32) (f : Transponder → Transponder) : List Transponder → Option (List Transponder)
  | [] => none
  | t :: tps =>
    if isSameTransponder t.frequency frequency = true then some (f t :: tps)
    else (changeSame frequency f tps).map fun tps => t :: tps

/-- `find_transponder` or else `alloc_transponder`, and `copy_transponder`; `current_tp_only` is not set. -/
def Tps.copyEntry (st : Tps) (tn : Transponder) : Tps :=
  match changeSame tn.frequency (fun t => copyTransponder t tn) st.scanned with
  | some scanned => { st with scanned := scanned }
  | none =>
    match changeSame tn.frequency (fun t => copyTransponder t tn) st.new with
    | some new => { st with new := new }
    | none => { st with new := st.new ++ [copyTransponder { frequency := tn.frequency } tn] }

def Tps.addEntry (feType : FeType) (st : Tps) (tn : Transponder) : Tps :=
  if tn.u.map FeUnion.type = some feType then st.copyEntry tn else st

def nitEntry (spectralInversion : FeSpectralInversion) (buf : Memory) (networkId : ℕ) : Transponder :=
  parseDescriptors spectralInversion (buf.advance 6) ((buf 4 &&& 0x0f).toNat * 256 + (buf 5).toNat)
    { frequency := 0
      networkId := networkId
      originalNetworkId := (buf 2).toNat * 256 + (buf 3).toNat
      transportStreamId := (buf 0).toNat * 256 + (buf 1).toNat }

/-- The loop of `parse_nit`. -/
def nitLoop (feType : FeType) (spectralInversion : FeSpectralInversion) (networkId : ℕ) (st : Tps) (buf : Memory)
    (sectionLength : ℕ) : Tps :=
  let loopLen := (buf 4 &&& 0x0f).toNat * 256 + (buf 5).toNat
  if sectionLength ≤ 6 then st
  else if sectionLength < loopLen + 4 then st
  else
    nitLoop feType spectralInversion networkId (st.addEntry feType (nitEntry spectralInversion buf networkId))
      (buf.advance (loopLen + 6)) (sectionLength - (loopLen + 6))
termination_by sectionLength

/-- `parse_nit` -/
def parseNit (feType : FeType) (spectralInversion : FeSpectralInversion) (st : Tps) (buf : Memory)
    (sectionLength networkId : ℕ) : Tps :=
  let loopLen := (buf 0 &&& 0x0f).toNat * 256 + (buf 1).toNat
  if sectionLength < loopLen + 4 then st
  else
    nitLoop feType spectralInversion networkId st (buf.advance (loopLen + 4)) (sectionLength - (loopLen + 4))

/-- A NIT section, as `parse_section` hands it over. -/
structure NitSection where
  buf : Memory
  sectionLength : ℕ
  networkId : ℕ

def parseNits (feType : FeType) (spectralInversion : FeSpectralInversion) (st : Tps) (sections : List NitSection) :
    Tps :=
  sections.foldl (fun st s => parseNit feType spectralInversion st s.buf s.sectionLength s.networkId) st

/-! ### Entries -/

/-- The entries that the loop of `parse_nit` finds. -/
def loopEntries (spectralInversion : FeSpectralInversion) (networkId : ℕ) (buf : Memory) (sectionLength : ℕ) :
    List Transponder :=
  let loopLen := (buf 4 &&& 0x0f).toNat * 256 + (buf 5).toNat
  if sectionLength ≤ 6 then []
  else if sectionLength < loopLen + 4 then []
  else
    nitEntry spectralInversion buf networkId ::
      loopEntries spectralInversion networkId (buf.advance (loopLen + 6)) (sectionLength - (loopLen + 6))
termination_by sectionLength

def nitEntries (spectralInversion : FeSpectralInversion) (s : NitSection) : List Transponder :=
  let loopLen := (s.buf 0 &&& 0x0f).toNat * 256 + (s.buf 1).toNat
  if s.sectionLength < loopLen + 4 then []
  else
    loopEntries spectralInversion s.networkId (s.buf.advance (loopLen + 4)) (s.sectionLength - (loopLen + 4))

theorem nitLoop_eq_foldl (feType : FeType) (spectralInversion : FeSpectralInversion) (networkId : ℕ) (st : Tps)
    (buf : Memory) (sectionLength : ℕ) :
    nitLoop feType spectralInversion networkId st buf sectionLength =
      (loopEntries spectralInversion networkId buf sectionLength).foldl (Tps.addEntry feType) st := by
  induction sectionLength using Nat.strong_induction_on generalizing st buf with
  | _ n ih =>
    unfold nitLoop loopEntries
    dsimp only
    split_ifs with hshort htruncated
    · rfl
    · rfl
    · rw [List.foldl_cons]
      exact ih _ (by omega) _ _

/-- **The sections do what their entries do**, one after the other. -/
theorem parseNits_eq_foldl (feType : FeType) (spectralInversion : FeSpectralInversion) (st : Tps)
    (sections : List NitSection) :
    parseNits feType spectralInversion st sections =
      (sections.flatMap (nitEntries spectralInversion)).foldl (Tps.addEntry feType) st := by
  induction sections generalizing st with
  | nil => rfl
  | cons s sections ih =>
    have hnit : parseNit feType spectralInversion st s.buf s.sectionLength s.networkId =
        (nitEntries spectralInversion s).foldl (Tps.addEntry feType) st := by
      unfold parseNit nitEntries
      dsimp only
      split_ifs with hshort
      · rfl
      · exact nitLoop_eq_foldl feType spectralInversion s.networkId st _ _
    rw [List.flatMap_cons, List.foldl_append, ← hnit]
    exact ih _

/-! ### No two are the same -/

def Tps.all (st : Tps) : List Transponder := st.scanned ++ st.new

def Tps.Separated (st : Tps) : Prop :=
  st.all.Pairwise fun t t' => isSameTransponder t.frequency t'.frequency = false

instance (st : Tps) : Decidable st.Separated :=
  inferInstanceAs (Decidable (st.all.Pairwise fun t t' => isSameTransponder t.frequency t'.frequency = false))

def Tps.countSame (st : Tps) (frequency : UInt32) : ℕ :=
  st.all.countP fun t => isSameTransponder t.frequency frequency

theorem isSameTransponder_comm (f1 f2 : UInt32) : isSameTransponder f1 f2 = isSameTransponder f2 f1 := by
  unfold isSameTransponder
  by_cases heq : f1 = f2
  · rw [if_pos heq, if_pos heq.symm]
  · rw [if_neg heq, if_neg (Ne.symm heq)]
    have hne : f1.toNat ≠ f2.toNat := fun h => heq (UInt32.toNat_inj.mp h)
    by_cases hgt : f1 > f2
    · have hnot : ¬ f2 > f1 := by
        rw [gt_iff_lt, UInt32.lt_iff_toNat_lt] at hgt ⊢
        omega
      simp only [if_pos hgt, if_neg hnot]
    · have hlt : f2 > f1 := by
        rw [gt_iff_lt, UInt32.lt_iff_toNat_lt] at hgt ⊢
        omega
      simp only [if_neg hgt, if_pos hlt]

theorem changeSame_eq_none {frequency : UInt32} {f : Transponder → Transponder} {tps : List Transponder} :
    changeSame frequency f tps = none ↔ ∀ t ∈ tps, isSameTransponder t.frequency frequency = false := by
  induction tps with
  | nil => simp [changeSame]
  | cons t tps ih =>
    unfold changeSame
    cases hsame : isSameTransponder t.frequency frequency with
    | true => simp [hsame]
    | false => simp [hsame, ih]

theorem changeSame_eq_some {frequency : UInt32} {f : Transponder → Transponder} {tps tps' : List Transponder}
    (h : changeSame frequency f tps = some tps') :
    ∃ front t behind, tps = front ++ t :: behind ∧ tps' = front ++ f t :: behind ∧
      isSameTransponder t.frequency frequency = true := by
  induction tps generalizing tps' with
  | nil => cases h
  | cons t tps ih =>
    unfold changeSame at h
    cases hsame : isSameTransponder t.frequency frequency with
    | true =>
      rw [if_pos hsame] at h
      cases h
      exact ⟨[], t, tps, rfl, rfl, hsame⟩
    | false =>
      rw [if_neg (by simp [hsame])] at h
      obtain ⟨tps₁, hrest, rfl⟩ := Option.map_eq_some_iff.mp h
      obtain ⟨front, t', behind, rfl, rfl, hsame'⟩ := ih hrest
      exact ⟨t :: front, t', behind, rfl, rfl, hsame'⟩

/-- **What an entry does to the two lists together**: it is written over a transponder that is the same, or
is a new one. -/
theorem copyEntry_all (st : Tps) (tn : Transponder) :
    (∃ front t behind, st.all = front ++ t :: behind ∧
      (st.copyEntry tn).all = front ++ copyTransponder t tn :: behind ∧
      isSameTransponder t.frequency tn.frequency = true) ∨
    ((∀ t ∈ st.all, isSameTransponder t.frequency tn.frequency = false) ∧
      (st.copyEntry tn).all = st.all ++ [copyTransponder { frequency := tn.frequency } tn]) := by
  unfold Tps.copyEntry
  cases hscanned : changeSame tn.frequency (fun t => copyTransponder t tn) st.scanned with
  | some scanned =>
    obtain ⟨front, t, behind, heq, rfl, hsame⟩ := changeSame_eq_some hscanned
    refine .inl ⟨front, t, behind ++ st.new, ?_, ?_, hsame⟩
    · rw [Tps.all, heq, List.append_assoc, List.cons_append]
    · rw [Tps.all, List.append_assoc, List.cons_append]
  | none =>
    cases hnew : changeSame tn.frequency (fun t => copyTransponder t tn) st.new with
    | some new =>
      obtain ⟨front, t, behind, heq, rfl, hsame⟩ := changeSame_eq_some hnew
      refine .inl ⟨st.scanned ++ front, t, behind, ?_, ?_, hsame⟩
      · rw [Tps.all, heq, List.append_assoc]
      · rw [Tps.all, List.append_assoc]
    | none =>
      refine .inr ⟨fun t ht => ?_, ?_⟩
      · rcases List.mem_append.mp ht with ht | ht
        · exact changeSame_eq_none.mp hscanned t ht
        · exact changeSame_eq_none.mp hnew t ht
      · rw [Tps.all, Tps.all, List.append_assoc]

theorem pairwise_middle_iff {front behind : List Transponder} {t : Transponder} :
    (front ++ t :: behind).Pairwise (fun t t' => isSameTransponder t.frequency t'.frequency = false) ↔
      (∀ t' ∈ front ++ behind, isSameTransponder t'.frequency t.frequency = false) ∧
        (front ++ behind).Pairwise fun t t' => isSameTransponder t.frequency t'.frequency = false := by
  rw [List.pairwise_middle fun {a b} h => by rw [isSameTransponder_comm]; exact h, List.pairwise_cons]
  exact and_congr_left' (forall₂_congr fun t' _ => by rw [isSameTransponder_comm])

/-- **One entry** keeps the transponders apart exactly if it is the same as at most one of them. -/
theorem copyEntry_separated_iff {st : Tps} (h : st.Separated) (tn : Transponder) :
    (st.copyEntry tn).Separated ↔ st.countSame tn.frequency ≤ 1 := by
  unfold Tps.Separated at h ⊢
  unfold Tps.countSame
  rcases copyEntry_all st tn with ⟨front, t, behind, hall, hall', hsame⟩ | ⟨hnone, hall'⟩
  · rw [hall] at h ⊢
    rw [hall', pairwise_middle_iff, and_iff_left (pairwise_middle_iff.mp h).2]
    have hcount : (front ++ t :: behind).countP (fun t => isSameTransponder t.frequency tn.frequency) =
        (front ++ behind).countP (fun t => isSameTransponder t.frequency tn.frequency) + 1 := by
      rw [List.countP_append, List.countP_cons, if_pos hsame, List.countP_append]
      omega
    rw [hcount, Nat.add_one_le_iff, Nat.lt_one_iff, List.countP_eq_zero]
    simp only [Bool.not_eq_true]
    exact Iff.rfl
  · have hzero : st.all.countP (fun t => isSameTransponder t.frequency tn.frequency) = 0 :=
      List.countP_eq_zero.mpr fun t ht => by rw [hnone t ht]; decide
    rw [hall', hzero]
    refine iff_of_true (List.pairwise_append.mpr ⟨h, List.pairwise_singleton _ _, ?_⟩) (Nat.zero_le 1)
    intro t ht t' ht'
    rw [List.mem_singleton.mp ht']
    exact hnone t ht

/-- The entry is for another frontend, or is the same as at most one transponder. -/
def Tps.Distinct (feType : FeType) (st : Tps) (tn : Transponder) : Prop :=
  tn.u.map FeUnion.type = some feType → st.countSame tn.frequency ≤ 1

instance (feType : FeType) (st : Tps) (tn : Transponder) : Decidable (st.Distinct feType tn) :=
  inferInstanceAs (Decidable (_ → _))

theorem addEntry_separated_iff (feType : FeType) {st : Tps} (h : st.Separated) (tn : Transponder) :
    (st.addEntry feType tn).Separated ↔ st.Distinct feType tn := by
  unfold Tps.addEntry Tps.Distinct
  split_ifs with htype
  · rw [copyEntry_separated_iff h, imp_iff_right htype]
  · exact iff_of_true h fun hsame => absurd hsame htype

/-- **No transponder twice**: from separated lists, the lists stay separated at every entry of every sequence
of sections exactly if every entry is the same as at most one transponder that is known by then. -/
theorem parseNits_separated_iff (feType : FeType) (spectralInversion : FeSpectralInversion) {st : Tps}
    (h : st.Separated) (sections : List NitSection) :
    parseNits feType spectralInversion st sections =
        (sections.flatMap (nitEntries spectralInversion)).foldl (Tps.addEntry feType) st ∧
      (Along (fun st tn => some (st.addEntry feType tn)) (fun st tn => (st.addEntry feType tn).Separated) st
          (sections.flatMap (nitEntries spectralInversion)) ↔
        Along (fun st tn => some (st.addEntry feType tn)) (Tps.Distinct feType) st
          (sections.flatMap (nitEntries spectralInversion))) := by
  refine ⟨parseNits_eq_foldl feType spectralInversion st sections, ?_⟩
  refine along_iff_of_invariant (I := Tps.Separated) ?_ (fun st tn hst => addEntry_separated_iff feType hst tn) _ st h
  intro st tn st' hst hdistinct hstep
  cases hstep
  exact (addEntry_separated_iff feType hst tn).mpr hdistinct

/-- Two transponders 3 MHz apart. -/
def twoTps : Tps := ⟨[{ frequency := 11000000 }], [{ frequency := 11003000 }]⟩

/-- A NIT with one satellite delivery descriptor, for 11001.5 MHz. -/
def satelliteNit : NitSection where
  buf i := [0xf0, 0, 0xf0, 19, 0, 1, 0, 1, 0xf0, 13,
    0x43, 11, 0x01, 0x10, 0x01, 0x50, 0, 0, 0, 0x02, 0x75, 0, 0x03].getD i 0
  sectionLength := 23
  networkId := 1

def satelliteEntry : Transponder where
  networkId := 1
  originalNetworkId := 1
  transportStreamId := 1
  frequency := 11001500
  inversion := .auto
  u := some (.qpsk 27500000 .fec34)

theorem nitEntries_satelliteNit : nitEntries .auto satelliteNit = [satelliteEntry] := by
  have hentry : nitEntry .auto (satelliteNit.buf.advance 4) 1 = satelliteEntry := by
    unfold nitEntry
    rw [parseDescriptors, parseDescriptors]
    decide
  have hnetwork : (satelliteNit.buf 0 &&& 0x0f).toNat * 256 + (satelliteNit.buf 1).toNat = 0 := by decide
  have hloop : ((satelliteNit.buf.advance 4) 4 &&& 0x0f).toNat * 256 + ((satelliteNit.buf.advance 4) 5).toNat = 13 := by
    decide
  have hlength : satelliteNit.sectionLength = 23 := rfl
  have hid : satelliteNit.networkId = 1 := rfl
  have hend : ∀ buf, loopEntries .auto 1 buf 0 = [] := fun buf => by
    rw [loopEntries]
    exact if_pos (Nat.zero_le 6)
  unfold nitEntries
  dsimp only
  rw [hnetwork, hlength, hid, loopEntries, Nat.zero_add, hloop, hentry, if_neg (by decide), if_neg (by decide), if_neg (by decide)]
  exact congrArg _ (hend _)

theorem parseNits_separated_one :
    twoTps.Separated ∧
      (Along (fun st tn => some (st.addEntry .qpsk tn)) (fun st tn => (st.addEntry .qpsk tn).Separated) twoTps
          ([satelliteNit].flatMap (nitEntries .auto)) ↔
        Along (fun st tn => some (st.addEntry .qpsk tn)) (Tps.Distinct .qpsk) twoTps
          ([satelliteNit].flatMap (nitEntries .auto))) :=
  ⟨by decide, (parseNits_separated_iff .qpsk .auto (by decide) [satelliteNit]).2⟩

/-- An entry half way between two transponders is written over the first. -/
theorem not_forall_separated :
    ¬ ∀ (feType : FeType) (spectralInversion : FeSpectralInversion) (st : Tps), st.Separated →
      ∀ sections, (parseNits feType spectralInversion st sections).Separated := by
  intro hall
  have hsep := hall .qpsk .auto twoTps (by decide) [satelliteNit]
  rw [parseNits_eq_foldl, List.flatMap_singleton, nitEntries_satelliteNit] at hsep
  exact absurd hsep (by decide)

end BgtDvb.Dvbscan
