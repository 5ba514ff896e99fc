import BgtDvb.Lib.GuardedRun

/-!
# The PMT filter of gnutv

`process_pat` of `util/gnutv/gnutv_dvb.c` looks for the requested service in each section of a PAT whose version it does
not remember, opens a filter on the pid of its PMT and puts it in the poll set; `process_pmt` hands on each version of the
PMT once.

* `tracked_step` — **PROVED**: steps that meet `StepOk` keep the invariant;
* `along_tracks` — **PROVED**: in every run of such steps the filter follows the PAT.
-/

namespace BgtDvb.Gnutv

open BgtDvb.GuardedRun

/-- `struct mpeg_pat_program` -/
structure Program where
  programNumber : ℕ
  pid : ℕ
  deriving DecidableEq

/-- A section of a PAT; it has no programs if `mpeg_pat_section_codec` refuses it. -/
structure PatSection where
  versionNumber : ℕ
  programs : Option (List Program)

/-- A section of a PMT, and whether `mpeg_pmt_section_codec` accepts it. -/
structure PmtSection where
  tableIdExt : ℕ
  versionNumber : ℕ
  valid : Bool

/-- A section filter that is open, with the PMT versions that were handled of the sections it gave. -/
structure Filter where
  fd : ℕ
  pid : ℕ
  dataHandled : Option ℕ
  caHandled : Option ℕ
  deriving DecidableEq

/-- The variables of the thread, and the PMT filter that is open. -/
structure State where
  patVersion : ℤ
  dataPmtVersion : ℤ
  caPmtVersion : ℤ
  pmtFd : ℤ
  pollFd : ℤ
  pollEvents : Bool
  opened : Option Filter

/-- Before the loop of `dvbthread_func`. -/
def State.start : State := ⟨-1, -1, -1, -1, 0, false, none⟩

/-! ### The functions -/

section Functions

variable (serviceId : ℕ)

/-- `process_pat`, with the section that was read, if any, and the result of `create_section_filter`. -/
def processPat (sec : Option PatSection) (filter : Option ℕ) (s : State) : State :=
  match sec with
  | none => s
  | some pat =>
    if s.patVersion = pat.versionNumber then s
    else
      match pat.programs with
      | none => s
      | some programs =>
        match programs.find? (·.programNumber = serviceId) with
        | none => { s with patVersion := pat.versionNumber }
        | some curProgram =>
          let closed := if s.pmtFd ≠ -1 then s.opened.filter (fun f => (f.fd : ℤ) ≠ s.pmtFd) else s.opened
          match filter with
          | none => { s with pmtFd := -1, opened := closed }
          | some fd =>
            { patVersion := pat.versionNumber, dataPmtVersion := -1, caPmtVersion := -1, pmtFd := fd, pollFd := fd,
              pollEvents := true, opened := some ⟨fd, curProgram.pid, none, none⟩ }

/-- `data_pmt_version = version` -/
def State.handleData (s : State) (version : ℕ) : State :=
  { s with
    dataPmtVersion := version
    opened := s.opened.map fun f => { f with dataHandled := some version } }

/-- `ca_pmt_version = version` -/
def State.handleCa (s : State) (version : ℕ) : State :=
  { s with
    caPmtVersion := version
    opened := s.opened.map fun f => { f with caHandled := some version } }

/-- `process_pmt`, with the section that was read, if any, and the results of `gnutv_data_new_pmt` and
`gnutv_ca_new_pmt`.  Nothing is read from descriptor -1. -/
def processPmt (sec : Option PmtSection) (dataRet caRet : ℤ) (s : State) : State :=
  match sec with
  | none => s
  | some pmt =>
    if s.pmtFd = -1 then s
    else if pmt.tableIdExt ≠ serviceId ∨
        (pmt.versionNumber : ℤ) = s.dataPmtVersion ∧ (pmt.versionNumber : ℤ) = s.caPmtVersion then s
    else if pmt.valid = false then s
    else
      let s := if (pmt.versionNumber : ℤ) ≠ s.dataPmtVersion ∧ dataRet = 1 then s.handleData pmt.versionNumber else s
      if (pmt.versionNumber : ℤ) ≠ s.caPmtVersion ∧ caRet = 1 then s.handleCa pmt.versionNumber else s

end Functions

/-! ### Runs -/

/-- A PAT as it is transmitted. -/
structure Pat where
  version : ℕ
  sections : List (List Program)

/-- A PAT takes the place of the last one; a section of it is received, or one that is not a PAT; a PMT is received. -/
inductive Event where
  | transmit (pat : Pat)
  | receive (i : ℕ) (filter : Option ℕ)
  | refused (versionNumber : Option ℕ)
  | pmt (sec : Option PmtSection) (dataRet caRet : ℤ)

/-- The state, the PAT that is transmitted, and the sections of it that have been received. -/
structure World where
  state : State
  pat : Option Pat
  received : List ℕ

def World.start : World := ⟨.start, none, []⟩

section Runs

variable (serviceId : ℕ)

def step (w : World) : Event → World
  | .transmit pat => { w with pat := some pat, received := [] }
  | .receive i filter =>
    match w.pat with
    | none => w
    | some pat =>
      match pat.sections[i]? with
      | none => w
      | some programs =>
        { w with
          state := processPat serviceId (some ⟨pat.version, some programs⟩) filter w.state
          received := i :: w.received }
  | .refused versionNumber =>
    { w with state := processPat serviceId (versionNumber.map (⟨·, none⟩)) none w.state }
  | .pmt sec dataRet caRet => { w with state := processPmt serviceId sec dataRet caRet w.state }

def InSection (programs : List Program) : Prop := ∃ p ∈ programs, p.programNumber = serviceId

def Listed (pat : Pat) : Prop := ∃ programs ∈ pat.sections, InSection serviceId programs

def ListedWith (pat : Pat) (pid : ℕ) : Prop :=
  ∃ programs ∈ pat.sections, ∃ p ∈ programs, p.programNumber = serviceId ∧ p.pid = pid

instance (programs : List Program) : Decidable (InSection serviceId programs) :=
  inferInstanceAs (Decidable (∃ p ∈ programs, _))

instance (pat : Pat) : Decidable (Listed serviceId pat) := inferInstanceAs (Decidable (∃ programs ∈ pat.sections, _))

/-- The poll entry holds the filter that is open, and is empty if there is none. -/
def PollHolds (s : State) : Prop :=
  (∀ f, s.opened = some f → s.pollFd = f.fd ∧ s.pollEvents = true) ∧ (s.opened = none → s.pollEvents = false)

/-- A PMT version is passed over only after it was handled of the filter that is open. -/
def NotSuppressed (s : State) : Prop :=
  (∀ v : ℕ, s.dataPmtVersion = v → ∃ f, s.opened = some f ∧ f.dataHandled = some v) ∧
    ∀ v : ℕ, s.caPmtVersion = v → ∃ f, s.opened = some f ∧ f.caHandled = some v

/-- Once all sections of the PAT have been received: the filter is on the pid it lists for the service, the poll entry
holds it, and no version of an earlier pid suppresses its PMT. -/
def Tracks (w : World) : Prop :=
  ∀ pat, w.pat = some pat → (∀ i < pat.sections.length, i ∈ w.received) →
    (Listed serviceId pat → ∃ f, w.state.opened = some f ∧ ListedWith serviceId pat f.pid) ∧
      PollHolds w.state ∧ NotSuppressed w.state

/-- A PAT with the service has another version than the one remembered; the first section of it to be received is the one
with the service, and the filter is created. -/
def StepOk (w : World) : Event → Prop
  | .transmit pat => Listed serviceId pat → w.state.patVersion ≠ pat.version
  | .receive i filter =>
    match w.pat with
    | none => True
    | some pat =>
      match pat.sections[i]? with
      | none => True
      | some programs => Listed serviceId pat → w.state.patVersion ≠ pat.version →
          InSection serviceId programs ∧ filter.isSome = true
  | .refused _ => True
  | .pmt _ _ _ => True

/-- What holds in between. -/
structure Tracked (w : World) : Prop where
  opened_some : ∀ f, w.state.opened = some f →
    w.state.pmtFd = f.fd ∧ w.state.pollFd = f.fd ∧ w.state.pollEvents = true
  opened_none : w.state.opened = none → w.state.pmtFd = -1 ∧ w.state.pollEvents = false
  notSuppressed : NotSuppressed w.state
  remembered : ∀ pat, w.pat = some pat → Listed serviceId pat → w.received ≠ [] → w.state.patVersion = pat.version
  followed : ∀ pat, w.pat = some pat → Listed serviceId pat → w.state.patVersion = pat.version →
    ∃ f, w.state.opened = some f ∧ ListedWith serviceId pat f.pid

end Runs

/-! ### What the functions do -/

section Steps

variable {serviceId : ℕ} {s : State}

theorem processPat_known {pat : PatSection} (h : s.patVersion = pat.versionNumber) (filter : Option ℕ) :
    processPat serviceId (some pat) filter s = s := if_pos h

theorem processPat_absent {version : ℕ} (h : s.patVersion ≠ version) (hin : ¬InSection serviceId programs)
    (filter : Option ℕ) :
    processPat serviceId (some ⟨version, some programs⟩) filter s = { s with patVersion := version } := by
  have hfind : programs.find? (·.programNumber = serviceId) = none := by
    rw [List.find?_eq_none]
    intro p hp heq
    exact hin ⟨p, hp, of_decide_eq_true heq⟩
  unfold processPat
  dsimp only
  rw [if_neg h, hfind]

theorem processPat_found {version : ℕ} (h : s.patVersion ≠ version) (hin : InSection serviceId programs) (fd : ℕ) :
    ∃ p ∈ programs, p.programNumber = serviceId ∧
      processPat serviceId (some ⟨version, some programs⟩) (some fd) s =
        ⟨version, -1, -1, fd, fd, true, some ⟨fd, p.pid, none, none⟩⟩ := by
  cases hfind : programs.find? (·.programNumber = serviceId) with
  | none =>
    obtain ⟨p, hp, heq⟩ := hin
    exact absurd (decide_eq_true heq) (List.find?_eq_none.mp hfind p hp)
  | some p =>
    refine ⟨p, List.mem_of_find?_eq_some hfind, by simpa using List.find?_some hfind, ?_⟩
    unfold processPat
    dsimp only
    rw [if_neg h, hfind]

theorem processPat_refused (version : Option ℕ) :
    processPat serviceId (version.map (⟨·, none⟩)) none s = s := by
  cases version with
  | none => rfl
  | some version =>
    show (if _ then s else s) = s
    exact ite_self s

/-- What `process_pmt` leaves as it is: all but the versions handled. -/
structure SameFilter (s s' : State) : Prop where
  patVersion : s'.patVersion = s.patVersion
  pmtFd : s'.pmtFd = s.pmtFd
  pollFd : s'.pollFd = s.pollFd
  pollEvents : s'.pollEvents = s.pollEvents
  opened : s'.opened.map (fun f => (f.fd, f.pid)) = s.opened.map (fun f => (f.fd, f.pid))

theorem SameFilter.refl (s : State) : SameFilter s s := ⟨rfl, rfl, rfl, rfl, rfl⟩

theorem SameFilter.trans {s s' : State} (h : SameFilter s s') (h' : SameFilter s' s'') : SameFilter s s'' :=
  ⟨h'.patVersion.trans h.patVersion, h'.pmtFd.trans h.pmtFd, h'.pollFd.trans h.pollFd,
    h'.pollEvents.trans h.pollEvents, h'.opened.trans h.opened⟩

theorem sameFilter_handleData (s : State) (version : ℕ) : SameFilter s (s.handleData version) :=
  ⟨rfl, rfl, rfl, rfl, by
    rw [State.handleData, Option.map_map]
    rfl⟩

theorem sameFilter_handleCa (s : State) (version : ℕ) : SameFilter s (s.handleCa version) :=
  ⟨rfl, rfl, rfl, rfl, by
    rw [State.handleCa, Option.map_map]
    rfl⟩

theorem notSuppressed_handleData {f : Filter} (hopen : s.opened = some f) (h : NotSuppressed s) (version : ℕ) :
    NotSuppressed (s.handleData version) := by
  have hnew : (s.handleData version).opened = some { f with dataHandled := some version } := by
    rw [State.handleData, hopen]
    rfl
  constructor
  · intro v hv
    have hversion : (version : ℤ) = v := hv
    exact ⟨_, hnew, congrArg some (Int.natCast_inj.mp hversion)⟩
  · intro v hv
    obtain ⟨f', hf', hca⟩ := h.2 v hv
    cases hopen.symm.trans hf'
    exact ⟨_, hnew, hca⟩

theorem notSuppressed_handleCa {f : Filter} (hopen : s.opened = some f) (h : NotSuppressed s) (version : ℕ) :
    NotSuppressed (s.handleCa version) := by
  have hnew : (s.handleCa version).opened = some { f with caHandled := some version } := by
    rw [State.handleCa, hopen]
    rfl
  constructor
  · intro v hv
    obtain ⟨f', hf', hdata⟩ := h.1 v hv
    cases hopen.symm.trans hf'
    exact ⟨_, hnew, hdata⟩
  · intro v hv
    have hversion : (version : ℤ) = v := hv
    exact ⟨_, hnew, congrArg some (Int.natCast_inj.mp hversion)⟩

theorem processPmt_keeps (hopen : s.pmtFd ≠ -1 → ∃ f, s.opened = some f) (h : NotSuppressed s)
    (sec : Option PmtSection) (dataRet caRet : ℤ) :
    SameFilter s (processPmt serviceId sec dataRet caRet s) ∧
      NotSuppressed (processPmt serviceId sec dataRet caRet s) := by
  unfold processPmt
  cases sec with
  | none => exact ⟨.refl s, h⟩
  | some pmt =>
    dsimp only
    split
    · exact ⟨.refl s, h⟩
    next hfd =>
    split
    · exact ⟨.refl s, h⟩
    split
    · exact ⟨.refl s, h⟩
    obtain ⟨f, hf⟩ := hopen hfd
    -- first the data, then the conditional access
    obtain ⟨s', hs'⟩ : ∃ s', s' = if (pmt.versionNumber : ℤ) ≠ s.dataPmtVersion ∧ dataRet = 1 then
        s.handleData pmt.versionNumber else s := ⟨_, rfl⟩
    have hdata : SameFilter s s' ∧ NotSuppressed s' ∧ ∃ f', s'.opened = some f' := by
      rw [hs']
      split
      · refine ⟨sameFilter_handleData s _, notSuppressed_handleData hf h _,
          { f with dataHandled := some pmt.versionNumber }, ?_⟩
        rw [State.handleData, hf]
        rfl
      · exact ⟨.refl s, h, f, hf⟩
    obtain ⟨hsame, hns, f', hf'⟩ := hdata
    rw [← hs']
    split
    · exact ⟨hsame.trans (sameFilter_handleCa _ _), notSuppressed_handleCa hf' hns _⟩
    · exact ⟨hsame, hns⟩

end Steps

/-! ### The invariant -/

section Invariant

variable {serviceId : ℕ}

theorem tracked_start : Tracked serviceId .start where
  opened_some f hf := absurd hf (Option.some_ne_none f).symm
  opened_none _ := ⟨rfl, rfl⟩
  notSuppressed := ⟨fun v hv => absurd hv (by show (-1 : ℤ) ≠ v; omega),
    fun v hv => absurd hv (by show (-1 : ℤ) ≠ v; omega)⟩
  remembered _ hpat := absurd hpat (Option.some_ne_none _).symm
  followed _ hpat := absurd hpat (Option.some_ne_none _).symm

theorem Tracked.tracks {w : World} (h : Tracked serviceId w) : Tracks serviceId w := by
  intro pat hpat hall
  refine ⟨fun hlisted => ?_, ⟨fun f hf => (h.opened_some f hf).2, fun hnone => (h.opened_none hnone).2⟩,
    h.notSuppressed⟩
  have hne : w.received ≠ [] := by
    obtain ⟨programs, hin, -⟩ := hlisted
    have hzero := hall 0 (List.length_pos_of_mem hin)
    exact List.ne_nil_of_mem hzero
  exact h.followed pat hpat hlisted (h.remembered pat hpat hlisted hne)

theorem Tracked.of_sameFilter {w : World} (h : Tracked serviceId w) {s' : State} (hsame : SameFilter w.state s')
    (hns : NotSuppressed s') : Tracked serviceId { w with state := s' } := by
  have hback : ∀ f', s'.opened = some f' → ∃ f, w.state.opened = some f ∧ f'.fd = f.fd ∧ f'.pid = f.pid := by
    intro f' hf'
    have hmap := hsame.opened
    rw [hf', Option.map_some] at hmap
    obtain ⟨f, hf, heq⟩ := Option.map_eq_some_iff.mp hmap.symm
    exact ⟨f, hf, (congrArg Prod.fst heq).symm, (congrArg Prod.snd heq).symm⟩
  have hforth : ∀ f, w.state.opened = some f → ∃ f', s'.opened = some f' ∧ f'.pid = f.pid := by
    intro f hf
    have hmap := hsame.opened
    rw [hf, Option.map_some] at hmap
    obtain ⟨f', hf', heq⟩ := Option.map_eq_some_iff.mp hmap
    exact ⟨f', hf', congrArg Prod.snd heq⟩
  refine ⟨?_, ?_, hns, ?_, ?_⟩
  · intro f' hf'
    obtain ⟨f, hf, hfd, -⟩ := hback f' hf'
    have hw := h.opened_some f hf
    show s'.pmtFd = f'.fd ∧ s'.pollFd = f'.fd ∧ s'.pollEvents = true
    rw [hfd, hsame.pmtFd, hsame.pollFd, hsame.pollEvents]
    exact hw
  · intro hnone
    have hw : w.state.opened = none := by
      cases hf : w.state.opened with
      | none => rfl
      | some f =>
        obtain ⟨f', hf', -⟩ := hforth f hf
        exact absurd (hf'.symm.trans hnone) (Option.some_ne_none _)
    show s'.pmtFd = -1 ∧ s'.pollEvents = false
    rw [hsame.pmtFd, hsame.pollEvents]
    exact h.opened_none hw
  · intro pat hpat hlisted hne
    exact hsame.patVersion.trans (h.remembered pat hpat hlisted hne)
  · intro pat hpat hlisted hversion
    obtain ⟨f, hf, hwith⟩ := h.followed pat hpat hlisted (hsame.patVersion.symm.trans hversion)
    obtain ⟨f', hf', hpid⟩ := hforth f hf
    exact ⟨f', hf', hpid ▸ hwith⟩

theorem Tracked.receive {w : World} (h : Tracked serviceId w) (hpat : w.pat = some pat) {i : ℕ}
    (hmem : programs ∈ pat.sections) (hok : Listed serviceId pat → w.state.patVersion ≠ pat.version →
      InSection serviceId programs ∧ filter.isSome = true) :
    Tracked serviceId ⟨processPat serviceId (some ⟨pat.version, some programs⟩) filter w.state, w.pat,
      i :: w.received⟩ := by
  have hsame : ∀ pat', w.pat = some pat' → pat' = pat := fun pat' hpat' => Option.some.inj (hpat'.symm.trans hpat)
  by_cases hknown : w.state.patVersion = pat.version
  · have hsame' : processPat serviceId (some ⟨pat.version, some programs⟩) filter w.state = w.state :=
      processPat_known hknown filter
    rw [hsame']
    refine ⟨h.opened_some, h.opened_none, h.notSuppressed, fun pat' hpat' _ _ => ?_, h.followed⟩
    rw [hsame pat' hpat']
    exact hknown
  by_cases hlisted : Listed serviceId pat
  · -- the filter is made anew
    obtain ⟨hin, hfilter⟩ := hok hlisted hknown
    obtain ⟨fd, rfl⟩ := Option.isSome_iff_exists.mp hfilter
    obtain ⟨p, hp, hnumber, heq⟩ := processPat_found hknown hin fd
    rw [heq]
    refine ⟨?_, fun hnone => absurd hnone (Option.some_ne_none _), ⟨?_, ?_⟩, ?_, ?_⟩
    · intro f hf
      cases hf
      exact ⟨rfl, rfl, rfl⟩
    · exact fun v hv => absurd hv (by show (-1 : ℤ) ≠ v; omega)
    · exact fun v hv => absurd hv (by show (-1 : ℤ) ≠ v; omega)
    · intro pat' hpat' _ _
      rw [hsame pat' hpat']
    · intro pat' hpat' _ _
      rw [hsame pat' hpat']
      exact ⟨_, rfl, programs, hmem, p, hp, hnumber, rfl⟩
  · -- the service is in no section, and the filter stays
    have hin : ¬InSection serviceId programs := fun hin => hlisted ⟨programs, hmem, hin⟩
    rw [processPat_absent hknown hin]
    refine ⟨h.opened_some, h.opened_none, h.notSuppressed, ?_, ?_⟩
    · intro pat' hpat' hlisted'
      rw [hsame pat' hpat'] at hlisted'
      exact absurd hlisted' hlisted
    · intro pat' hpat' hlisted'
      rw [hsame pat' hpat'] at hlisted'
      exact absurd hlisted' hlisted

theorem tracked_step {w : World} (h : Tracked serviceId w) (e : Event) (hok : StepOk serviceId w e) :
    Tracked serviceId (step serviceId w e) := by
  cases e with
  | transmit pat =>
    refine ⟨h.opened_some, h.opened_none, h.notSuppressed, fun _ _ _ hne => absurd rfl hne, ?_⟩
    intro pat' hpat' hlisted hversion
    cases hpat'
    exact absurd hversion (hok hlisted)
  | refused version =>
    show Tracked serviceId { w with state := _ }
    rw [processPat_refused]
    exact h
  | pmt sec dataRet caRet =>
    have hopen : w.state.pmtFd ≠ -1 → ∃ f, w.state.opened = some f := by
      intro hfd
      cases hf : w.state.opened with
      | none => exact absurd (h.opened_none hf).1 hfd
      | some f => exact ⟨f, rfl⟩
    obtain ⟨s', hs'⟩ : ∃ s', s' = processPmt serviceId sec dataRet caRet w.state := ⟨_, rfl⟩
    obtain ⟨hsame, hns⟩ : SameFilter w.state s' ∧ NotSuppressed s' := by
      rw [hs']
      exact processPmt_keeps hopen h.notSuppressed sec dataRet caRet
    have hstep : step serviceId w (.pmt sec dataRet caRet) = { w with state := s' } := by
      rw [hs']
      rfl
    rw [hstep]
    exact h.of_sameFilter hsame hns
  | receive i filter =>
    unfold StepOk at hok
    unfold step
    dsimp only at hok ⊢
    cases hpat : w.pat with
    | none => exact h
    | some pat =>
      rw [hpat] at hok
      dsimp only at hok ⊢
      cases hsec : pat.sections[i]? with
      | none => exact h
      | some programs =>
        rw [hsec] at hok
        rw [← hpat]
        exact h.receive hpat (List.mem_of_getElem? hsec) hok

end Invariant

/-- **PROVED**: in every run whose steps meet the condition the filter, the poll entry and the PMT versions follow the PAT
after each step. -/
theorem along_tracks (serviceId : ℕ) (events : List Event)
    (hok : Along (fun w e => some (step serviceId w e)) (StepOk serviceId) .start events) :
    Along (fun w e => some (step serviceId w e)) (fun w e => Tracks serviceId (step serviceId w e)) .start events := by
  refine Along.of_invariant (I := Tracked serviceId) ?_ ?_ events .start tracked_start hok
  · intro w e w' h he hstep
    cases hstep
    exact tracked_step h e he
  · intro w e h he
    exact (tracked_step h e he).tracks

/-- Service 5 in the first of two sections, then a PMT of it, then another version with another pid. -/
theorem along_tracks_two : Along (fun w e => some (step 5 w e)) (fun w e => Tracks 5 (step 5 w e)) .start
    [.transmit ⟨0, [[⟨5, 100⟩], [⟨1, 200⟩]]⟩, .receive 0 (some 7), .receive 1 none,
      .pmt (some ⟨5, 3, true⟩) 1 1,
      .transmit ⟨1, [[⟨5, 101⟩]]⟩, .receive 0 (some 8)] :=
  along_tracks 5 _ (by simp [Along, StepOk, step, World.start, State.start, processPat, processPmt,
    InSection, Listed, State.handleData, State.handleCa])

/-- Service 5 in the second section: the version is remembered with the first. -/
theorem not_along_tracks : ¬∀ (serviceId : ℕ) (events : List Event),
    Along (fun w e => some (step serviceId w e)) (fun w e => Tracks serviceId (step serviceId w e)) .start events := by
  intro hall
  have hrun := hall 5 [.transmit ⟨0, [[⟨1, 200⟩], [⟨5, 100⟩]]⟩, .receive 0 none, .receive 1 (some 7)]
  rw [along_cons_total, along_cons_total, along_cons_total] at hrun
  obtain ⟨-, -, hlast, -⟩ := hrun
  obtain ⟨f, hf, -⟩ := (hlast ⟨0, [[⟨1, 200⟩], [⟨5, 100⟩]]⟩ rfl (by decide)).1 (by decide)
  exact absurd hf (Option.some_ne_none f).symm

end BgtDvb.Gnutv
