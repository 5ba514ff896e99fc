import Mathlib

/-!
# Collecting the sections of a PSI table

`section_ext_useful` of `libucsi/section.h` tells a caller, section header by section header,
which sections of a repeated and versioned table to keep.  The state it works on is reset by
`psi_table_state_reset`, which writes the version only:

* `collect_collecting` — **PROVED**: it holds after every stream of headers.
-/

namespace BgtDvb.Ucsi

/-- `struct psi_table_state`. -/
structure PsiTableState where
  versionNumber : UInt8
  nextSectionNumber : UInt16
  complete : Bool
  newTable : Bool
  deriving Repr, DecidableEq

/-- The fields of `struct section_ext` that are read here; `version_number` has five bits. -/
structure SectionExtHeader where
  versionNumber : Fin 32
  sectionNumber : UInt8
  lastSectionNumber : UInt8
  deriving Repr, DecidableEq

/-- `psi_table_state_reset`: the version alone is written. -/
def psiTableStateReset (tstate : PsiTableState) : PsiTableState :=
  { tstate with versionNumber := 0xff }

/-- The end of `section_ext_useful`, common to both accepting branches. -/
def countSection (hdr : SectionExtHeader) (tstate : PsiTableState) : PsiTableState :=
  let tstate := { tstate with nextSectionNumber := tstate.nextSectionNumber + 1 }
  if hdr.lastSectionNumber.toNat < tstate.nextSectionNumber.toNat then { tstate with complete := true }
  else tstate

/-- `section_ext_useful`: the result, as a truth value, and the state. -/
def sectionExtUseful (hdr : SectionExtHeader) (tstate : PsiTableState) : Bool × PsiTableState :=
  if hdr.versionNumber.val = tstate.versionNumber.toNat ∧ tstate.complete = true then (false, tstate)
  else if hdr.versionNumber.val ≠ tstate.versionNumber.toNat then
    if hdr.sectionNumber ≠ 0 then (false, tstate)
    else
      (true, countSection hdr
        { versionNumber := UInt8.ofNat hdr.versionNumber.val, nextSectionNumber := 0,
          complete := false, newTable := true })
  else if hdr.sectionNumber.toNat = tstate.nextSectionNumber.toNat then
    (true, countSection hdr { tstate with newTable := false })
  else (false, tstate)

/-! ### The caller -/

/-- The state and the headers accepted since `new_table` was last set. -/
structure Collector where
  state : PsiTableState
  accepted : List SectionExtHeader
  deriving Repr, DecidableEq

/-- One header: an accepted one that set `new_table` begins a new collection. -/
def Collector.feed (c : Collector) (hdr : SectionExtHeader) : Collector :=
  let r := sectionExtUseful hdr c.state
  if r.1 = true then
    if r.2.newTable = true then { state := r.2, accepted := [hdr] }
    else { state := r.2, accepted := c.accepted ++ [hdr] }
  else { c with state := r.2 }

def collect (tstate : PsiTableState) (hdrs : List SectionExtHeader) : Collector :=
  hdrs.foldl Collector.feed { state := psiTableStateReset tstate, accepted := [] }

/-! ### One section -/

/-- `last_section_number <= section_number`: the section ends its table. -/
def SectionExtHeader.final (hdr : SectionExtHeader) : Prop :=
  hdr.lastSectionNumber ≤ hdr.sectionNumber

instance (hdr : SectionExtHeader) : Decidable hdr.final :=
  inferInstanceAs (Decidable (hdr.lastSectionNumber ≤ hdr.sectionNumber))

theorem countSection_due (hdr : SectionExtHeader) (tstate : PsiTableState)
    (h : hdr.sectionNumber.toNat = tstate.nextSectionNumber.toNat) (hc : tstate.complete = false) :
    (countSection hdr tstate).nextSectionNumber.toNat = hdr.sectionNumber.toNat + 1 ∧
    ((countSection hdr tstate).complete = true ↔ hdr.final) ∧
    (countSection hdr tstate).versionNumber = tstate.versionNumber ∧
    (countSection hdr tstate).newTable = tstate.newTable := by
  have hlt := hdr.sectionNumber.toNat_lt
  have hnext : (tstate.nextSectionNumber + 1).toNat = hdr.sectionNumber.toNat + 1 := by
    rw [UInt16.toNat_add, ← h]
    show (hdr.sectionNumber.toNat + 1) % 2 ^ 16 = _
    omega
  have hfinal : hdr.final ↔ hdr.lastSectionNumber.toNat < (tstate.nextSectionNumber + 1).toNat := by
    rw [hnext, SectionExtHeader.final, UInt8.le_iff_toNat_le]
    omega
  by_cases hl : hdr.lastSectionNumber.toNat < (tstate.nextSectionNumber + 1).toNat
  · have hcount : countSection hdr tstate =
        { tstate with nextSectionNumber := tstate.nextSectionNumber + 1, complete := true } := if_pos hl
    rw [hcount]
    exact ⟨hnext, iff_of_true rfl (hfinal.mpr hl), rfl, rfl⟩
  · have hcount : countSection hdr tstate =
        { tstate with nextSectionNumber := tstate.nextSectionNumber + 1 } := if_neg hl
    rw [hcount]
    refine ⟨hnext, iff_of_false ?_ (fun hf => hl (hfinal.mp hf)), rfl, rfl⟩
    rw [hc]
    exact Bool.false_ne_true

theorem ofNat_version_toNat (v : Fin 32) : (UInt8.ofNat v.val).toNat = v.val := by
  have := v.isLt
  rw [UInt8.toNat_ofNat']
  omega

/-- What one call can do: refuse and change nothing, open a table with its section `0`, or take
the section that is due. -/
theorem sectionExtUseful_cases (hdr : SectionExtHeader) (tstate : PsiTableState) :
    sectionExtUseful hdr tstate = (false, tstate) ∨
    (hdr.versionNumber.val ≠ tstate.versionNumber.toNat ∧ hdr.sectionNumber = 0 ∧
      ∃ t, sectionExtUseful hdr tstate = (true, t) ∧
        t.versionNumber.toNat = hdr.versionNumber.val ∧ t.nextSectionNumber.toNat = 1 ∧
        (t.complete = true ↔ hdr.final) ∧ t.newTable = true) ∨
    (hdr.versionNumber.val = tstate.versionNumber.toNat ∧ tstate.complete = false ∧
      hdr.sectionNumber.toNat = tstate.nextSectionNumber.toNat ∧
      ∃ t, sectionExtUseful hdr tstate = (true, t) ∧
        t.versionNumber = tstate.versionNumber ∧
        t.nextSectionNumber.toNat = hdr.sectionNumber.toNat + 1 ∧
        (t.complete = true ↔ hdr.final) ∧ t.newTable = false) := by
  unfold sectionExtUseful
  by_cases hv : hdr.versionNumber.val = tstate.versionNumber.toNat
  · by_cases hc : tstate.complete = true
    · exact Or.inl (by rw [if_pos ⟨hv, hc⟩])
    · rw [if_neg (fun h => hc h.2), if_neg (fun h => h hv)]
      by_cases hs : hdr.sectionNumber.toNat = tstate.nextSectionNumber.toNat
      · have hcf : tstate.complete = false := by simpa using hc
        rw [if_pos hs]
        obtain ⟨h1, h2, h3, h4⟩ :=
          countSection_due hdr { tstate with newTable := false } hs hcf
        exact Or.inr (Or.inr ⟨hv, hcf, hs, _, rfl, h3, h1, h2, h4⟩)
      · exact Or.inl (by rw [if_neg hs])
  · rw [if_neg (fun h => hv h.1), if_pos hv]
    by_cases hs : hdr.sectionNumber = 0
    · rw [if_neg (fun h => h hs)]
      obtain ⟨h1, h2, h3, h4⟩ := countSection_due hdr
        { versionNumber := UInt8.ofNat hdr.versionNumber.val, nextSectionNumber := 0,
          complete := false, newTable := true } (by rw [hs]; rfl) rfl
      refine Or.inr (Or.inl ⟨hv, hs, _, rfl, ?_, ?_, h2, h4⟩)
      · rw [h3]
        exact ofNat_version_toNat hdr.versionNumber
      · rw [h1, hs]
        rfl
    · exact Or.inl (by rw [if_pos hs])

/-! ### The invariant -/

/-- Before the first accepted section the version is one no section has.  Afterwards the sections
kept are `0 … k` of the version in the state, the next one is due, none but the last ended the
table, and `complete` says whether that one did. -/
structure Collecting (c : Collector) : Prop where
  fresh : c.accepted = [] → c.state.versionNumber = 0xff
  version : ∀ hdr ∈ c.accepted, hdr.versionNumber.val = c.state.versionNumber.toNat
  numbers : c.accepted.map (fun hdr => hdr.sectionNumber.toNat) = List.range c.accepted.length
  next : c.accepted ≠ [] → c.state.nextSectionNumber.toNat = c.accepted.length
  complete : c.accepted ≠ [] → (c.state.complete = true ↔ ∃ hdr ∈ c.accepted, hdr.final)

theorem collecting_reset (tstate : PsiTableState) :
    Collecting { state := psiTableStateReset tstate, accepted := [] } where
  fresh := fun _ => rfl
  version := by simp
  numbers := rfl
  next := fun h => absurd rfl h
  complete := fun h => absurd rfl h

/-- **One header keeps the invariant.** -/
theorem collecting_feed {c : Collector} (hc : Collecting c) (hdr : SectionExtHeader) :
    Collecting (c.feed hdr) := by
  rcases sectionExtUseful_cases hdr c.state with h | ⟨_, hs, t, h, hv, hn, hf, hnew⟩ |
    ⟨hv, hcf, hs, t, h, hv', hn, hf, hnew⟩
  · -- refused: nothing changes
    have hfeed : c.feed hdr = c := by simp [Collector.feed, h]
    rw [hfeed]
    exact hc
  · -- section 0 of another version: a new collection
    have hfeed : c.feed hdr = { state := t, accepted := [hdr] } := by
      simp [Collector.feed, h, hnew]
    rw [hfeed]
    refine ⟨fun h => absurd h (by simp), ?_, ?_, fun _ => hn, fun _ => ?_⟩
    · intro x hx
      rw [List.mem_singleton.mp hx, hv]
    · simp [hs, List.range_succ]
    · simp [hf]
  · -- the section that is due
    have hne : c.accepted ≠ [] := by
      intro he
      have h255 := hc.fresh he
      rw [h255] at hv
      have := hdr.versionNumber.isLt
      have h' : (0xff : UInt8).toNat = 255 := rfl
      omega
    have hfeed : c.feed hdr = { state := t, accepted := c.accepted ++ [hdr] } := by
      simp [Collector.feed, h, hnew]
    have hlen : hdr.sectionNumber.toNat = c.accepted.length := by rw [hs, hc.next hne]
    rw [hfeed]
    refine ⟨fun h => absurd h (by simp), ?_, ?_, fun _ => ?_, fun _ => ?_⟩
    · intro x hx
      show x.versionNumber.val = t.versionNumber.toNat
      rw [hv']
      rcases List.mem_append.mp hx with hx | hx
      · exact hc.version x hx
      · rw [List.mem_singleton.mp hx, hv]
    · simp [hc.numbers, hlen, List.range_succ]
    · simp [hn, hlen]
    · have hopen : ¬ ∃ hdr ∈ c.accepted, hdr.final := by
        rw [← hc.complete hne, hcf]
        simp
      show t.complete = true ↔ _
      rw [hf]
      constructor
      · intro hfin
        exact ⟨hdr, by simp, hfin⟩
      · rintro ⟨x, hx, hfin⟩
        rcases List.mem_append.mp hx with hx | hx
        · exact absurd ⟨x, hx, hfin⟩ hopen
        · rwa [List.mem_singleton.mp hx] at hfin

theorem collect_collecting (tstate : PsiTableState) (hdrs : List SectionExtHeader) :
    Collecting (collect tstate hdrs) := by
  unfold collect
  have hrun : ∀ (c : Collector), Collecting c → Collecting (hdrs.foldl Collector.feed c) := by
    induction hdrs with
    | nil =>
      intro c hc
      exact hc
    | cons hdr hdrs ih =>
      intro c hc
      exact ih (c.feed hdr) (collecting_feed hc hdr)
  exact hrun _ (collecting_reset tstate)

/-! ### The table that is collected -/

/-- **PSI table collection.**  At every point of every stream after a reset, the sections kept are `0 … k` of one
version, each once; `complete` is set exactly when the accepted section is its table's last, a refused one changes
nothing, and while complete another version is accepted from its section `0` on only. -/
theorem psiTable_collection (tstate : PsiTableState) (hdrs : List SectionExtHeader)
    (hdr : SectionExtHeader) :
    let c := collect tstate hdrs
    let r := sectionExtUseful hdr c.state
    c.accepted.map (fun x => x.sectionNumber.toNat) = List.range c.accepted.length ∧
    (∀ x ∈ c.accepted, x.versionNumber.val = c.state.versionNumber.toNat) ∧
    (c.accepted ≠ [] → (c.state.complete = true ↔ ∃ x ∈ c.accepted, x.final)) ∧
    (r.1 = true → (r.2.complete = true ↔ hdr.lastSectionNumber ≤ hdr.sectionNumber)) ∧
    (r.1 = false → r.2 = c.state) ∧
    (c.state.complete = true → hdr.versionNumber.val = c.state.versionNumber.toNat → r.1 = false) ∧
    (r.1 = true → hdr.versionNumber.val ≠ c.state.versionNumber.toNat →
      hdr.sectionNumber = 0 ∧ r.2.newTable = true ∧
      (collect tstate (hdrs ++ [hdr])).accepted = [hdr]) := by
  intro c r
  have hc : Collecting c := collect_collecting tstate hdrs
  have hnext : collect tstate (hdrs ++ [hdr]) = c.feed hdr := by
    simp only [collect, List.foldl_append, List.foldl_cons, List.foldl_nil]
    rfl
  refine ⟨hc.numbers, hc.version, hc.complete, ?_⟩
  rw [hnext]
  rcases sectionExtUseful_cases hdr c.state with h | ⟨hne, hs, t, h, _, _, hf, hnew⟩ |
    ⟨hv, hcf, _, t, h, _, _, hf, hnew⟩
  · have hr : r = (false, c.state) := h
    rw [hr]
    exact ⟨by simp, fun _ => rfl, fun _ _ => rfl, by simp⟩
  · have hr : r = (true, t) := h
    rw [hr]
    refine ⟨fun _ => hf, by simp, fun _ hv => absurd hv hne, fun _ _ => ⟨hs, hnew, ?_⟩⟩
    simp [Collector.feed, h, hnew]
  · have hr : r = (true, t) := h
    rw [hr]
    refine ⟨fun _ => hf, by simp, fun hcomplete => ?_, fun _ hne => absurd hv hne⟩
    rw [hcf] at hcomplete
    exact absurd hcomplete (by simp)

/-- A version change in the middle of a table: the new section `0` begins again. -/
example :
    let h := fun (v : Fin 32) (n l : UInt8) => (⟨v, n, l⟩ : SectionExtHeader)
    (collect ⟨3, 7, true, false⟩ [h 1 1 2, h 1 0 2, h 1 1 2, h 2 0 1, h 1 2 2, h 2 1 1, h 2 1 1]).accepted
      = [h 2 0 1, h 2 1 1] := by decide

end BgtDvb.Ucsi
