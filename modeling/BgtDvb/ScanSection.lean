import BgtDvb.Lib.Bitfield

/-!
# Section bookkeeping of the scan utility

`parse_section` of `util/scan/scan.c` is handed the sections that pass one demux filter, with repetitions,
and parses each of them once.  It keeps a record of the sections it has seen, and for a segmented filter one
record for each `table_id_ext`, in a chain behind the first.

* `parseSections_kept` — **PROVED**: the bookkeeping is right along every sequence of sections; a filter
  that is not segmented is done when a section that is new finds all sections up to the last one it names
  seen.
-/

namespace BgtDvb.Dvbscan

open BgtDvb.Bitfield

/-! ### Sections -/

/-- What `parse_section` reads of the eight bytes in front of a body. -/
structure SectionHdr where
  tableId : ℕ
  length : ℕ
  tableIdExt : ℕ
  version : ℕ
  number : ℕ
  last : ℕ
  deriving DecidableEq, Repr

def sectionHdr (buf : List UInt8) : SectionHdr where
  tableId := (buf.getD 0 0).toNat
  length := (buf.getD 1 0 &&& 0x0f).toNat * 256 + (buf.getD 2 0).toNat
  tableIdExt := (buf.getD 3 0).toNat * 256 + (buf.getD 4 0).toNat
  version := ((buf.getD 5 0 >>> 1) &&& 0x1f).toNat
  number := (buf.getD 6 0).toNat
  last := (buf.getD 7 0).toNat

def SectionHdr.Whole (h : SectionHdr) : Prop := 9 ≤ h.length

instance (h : SectionHdr) : Decidable h.Whole := inferInstanceAs (Decidable (9 ≤ h.length))

/-! ### Records -/

/-- The bookkeeping of a `struct section_buf`. -/
structure Seg where
  tableIdExt : ℤ
  version : ℤ
  sectionDone : List UInt8
  done : Bool
  deriving DecidableEq, Repr

def noneDone : List UInt8 := List.replicate 32 0

/-- A filter's `struct section_buf` and the chain of `next_seg`. -/
structure SectionBuf where
  tableId : ℤ
  segmented : Bool
  head : Seg
  nextSeg : List Seg
  deriving DecidableEq, Repr

/-- `setup_filter` -/
def setupFilter (tid tidExt : ℤ) (segmented : Bool) : SectionBuf :=
  ⟨tid, segmented, ⟨tidExt, -1, noneDone, false⟩, []⟩

/-- What is handed to the parser of a table: table id, `table_id_ext`, the buffer from the body on, and how
much of it is body. -/
structure Parsed where
  tableId : ℕ
  tableIdExt : ℕ
  buf : List UInt8
  sectionLength : ℕ
  deriving DecidableEq, Repr

/-- The record of a version and `table_id_ext`. -/
def Seg.reset (s : Seg) (h : SectionHdr) : Seg :=
  if s.version ≠ h.version ∨ s.tableIdExt ≠ h.tableIdExt then ⟨h.tableIdExt, h.version, noneDone, false⟩
  else s

/-- `parse_section` on the record it has found: what is parsed, and the record. -/
def parseOn (buf : List UInt8) (s : Seg) : Option (Option Parsed × Seg) :=
  let h := sectionHdr buf
  let s := s.reset h
  if h.length < 9 then some (none, s)
  else
    match getBit s.sectionDone h.number with
    | none => none
    | some true => some (none, s)
    | some false =>
      match setBit s.sectionDone h.number with
      | none => none
      | some bits =>
        match scanBits bits (h.last + 1) 0 with
        | none => none
        | some i =>
          some (some ⟨h.tableId, h.tableIdExt, buf.drop 8, h.length - 9⟩,
            { s with sectionDone := bits, done := if h.last < i then true else s.done })

/-- The search along `next_seg`, and the record that is made at its end. -/
def onSegment (h : SectionHdr) (f : Seg → Option (Option Parsed × Seg)) :
    List Seg → Option (Option Parsed × List Seg)
  | [] => (f ⟨h.tableIdExt, h.version, noneDone, false⟩).map fun r => (r.1, [r.2])
  | s :: segs =>
    if s.tableIdExt = h.tableIdExt then (f s).map fun r => (r.1, r.2 :: segs)
    else (onSegment h f segs).map fun r => (r.1, s :: r.2)

/-- `parse_section`: the result, what is parsed, and the records; `none` is an access outside
`section_done`. -/
def parseSection (s : SectionBuf) (buf : List UInt8) : Option (ℤ × Option Parsed × SectionBuf) :=
  let h := sectionHdr buf
  if s.tableId ≠ h.tableId then some (-1, none, s)
  else if s.segmented = true ∧ s.head.tableIdExt ≠ -1 ∧ s.head.tableIdExt ≠ h.tableIdExt then
    (onSegment h (parseOn buf) s.nextSeg).map fun r => (0, r.1, { s with nextSeg := r.2 })
  else
    (parseOn buf s.head).map fun r =>
      (if s.segmented = true ∨ h.length < 9 then 0 else if r.2.done = true then 1 else 0, r.1,
        { s with head := r.2 })

/-- A sequence of sections: the results, and the records after them. -/
def parseSections (s : SectionBuf) :
    List (List UInt8) → Option (List (ℤ × Option Parsed) × SectionBuf)
  | [] => some ([], s)
  | buf :: bufs =>
    match parseSection s buf with
    | none => none
    | some (ret, parsed, s) => (parseSections s bufs).map fun r => ((ret, parsed) :: r.1, r.2)

/-! ### One record -/

variable (buf : List UInt8) (segs : List Seg)

theorem sectionHdr_number_lt : (sectionHdr buf).number < 256 := UInt8.toNat_lt _

theorem sectionHdr_last_lt : (sectionHdr buf).last < 256 := UInt8.toNat_lt _

theorem Seg.reset_fresh (s : Seg) (h : SectionHdr) :
    (s.reset h).tableIdExt = h.tableIdExt ∧ (s.reset h).version = h.version := by
  unfold Seg.reset
  split
  · exact ⟨rfl, rfl⟩
  · rename_i hsame
    rw [not_or, not_not, not_not] at hsame
    exact ⟨hsame.2, hsame.1⟩

theorem Seg.reset_length {s : Seg} (h : SectionHdr) (hlen : s.sectionDone.length = 32) :
    (s.reset h).sectionDone.length = 32 := by
  unfold Seg.reset
  split
  · rfl
  · exact hlen

def Seg.Lacks (s : Seg) (h : SectionHdr) : Prop :=
  h.Whole ∧ getBit (s.reset h).sectionDone h.number = some false

/-- **One section on its record**: what is parsed, and what is kept of it. -/
theorem parseOn_spec {s : Seg} (hlen : s.sectionDone.length = 32) :
    ∃ parsed s', parseOn buf s = some (parsed, s') ∧ s'.sectionDone.length = 32 ∧
      s'.tableIdExt = (sectionHdr buf).tableIdExt ∧ s'.version = (sectionHdr buf).version ∧
      (parsed.isSome = true ↔ s.Lacks (sectionHdr buf)) ∧
      (∀ n, getBit s'.sectionDone n =
        if (sectionHdr buf).Whole ∧ n = (sectionHdr buf).number then some true
        else getBit (s.reset (sectionHdr buf)).sectionDone n) ∧
      (s'.done = true ↔ (s.reset (sectionHdr buf)).done = true ∨
        s.Lacks (sectionHdr buf) ∧
          ∀ n ≤ (sectionHdr buf).last, getBit s'.sectionDone n = some true) := by
  obtain ⟨hext, hversion⟩ := s.reset_fresh (sectionHdr buf)
  have hreset := Seg.reset_length (sectionHdr buf) hlen
  have hnumber := sectionHdr_number_lt buf
  have hlast := sectionHdr_last_lt buf
  unfold parseOn Seg.Lacks
  dsimp only
  by_cases hwhole : (sectionHdr buf).length < 9
  · rw [if_pos hwhole]
    have hnot : ¬ (sectionHdr buf).Whole := Nat.not_le.mpr hwhole
    exact ⟨_, _, rfl, hreset, hext, hversion, by simp [hnot], fun n => by simp [hnot], by simp [hnot]⟩
  have hw : (sectionHdr buf).Whole := Nat.not_lt.mp hwhole
  rw [if_neg hwhole]
  obtain ⟨seen, hseen⟩ := exists_getBit (s.reset (sectionHdr buf)).sectionDone (sectionHdr buf).number (by omega)
  rw [hseen]
  cases seen with
  | true =>
    refine ⟨_, _, rfl, hreset, hext, hversion, by simp, fun n => ?_, by simp⟩
    by_cases hn : n = (sectionHdr buf).number
    · rw [if_pos ⟨hw, hn⟩, hn]
      exact hseen
    · rw [if_neg fun h => hn h.2]
  | false =>
    obtain ⟨bits, hbits, hbitsLength, hget⟩ := setBit_spec (s.reset (sectionHdr buf)).sectionDone (sectionHdr buf).number
      (by omega)
    obtain ⟨i, hi, hle, hall⟩ := scanBits_spec bits ((sectionHdr buf).last + 1) 0 (by omega)
    simp only [hbits, hi]
    refine ⟨_, _, rfl, hbitsLength.trans hreset, hext, hversion, by simp [hw], fun n => ?_, ?_⟩
    · show getBit bits n = _
      rw [hget n]
      simp [hw]
    · have hdone : (sectionHdr buf).last < i ↔ ∀ n ≤ (sectionHdr buf).last, getBit bits n = some true := by
        rw [show (sectionHdr buf).last < i ↔ i = 0 + ((sectionHdr buf).last + 1) by omega, hall]
        exact ⟨fun h n hn => h n (Nat.zero_le n) (by omega), fun h n _ hn => h n (by omega)⟩
      show (if (sectionHdr buf).last < i then true else (s.reset (sectionHdr buf)).done) = true ↔ _
      by_cases hend : (sectionHdr buf).last < i
      · rw [if_pos hend]
        exact iff_of_true rfl (.inr ⟨⟨hw, trivial⟩, hdone.mp hend⟩)
      · rw [if_neg hend]
        exact ⟨.inl, fun h => h.resolve_right fun h => hend (hdone.mpr h.2)⟩

/-! ### The records of a filter -/

def findSeg (segs : List Seg) (e : ℕ) : Option Seg := segs.find? fun g => decide (g.tableIdExt = (e : ℤ))

theorem findSeg_cons_self {g : Seg} {e : ℕ} (h : g.tableIdExt = e) :
    findSeg (g :: segs) e = some g := List.find?_cons_of_pos (decide_eq_true h)

theorem findSeg_cons_of_ne {g : Seg} {e : ℕ} (h : g.tableIdExt ≠ e) :
    findSeg (g :: segs) e = findSeg segs e := List.find?_cons_of_neg (by simpa using h)

/-- The record of a `table_id_ext`. -/
def SectionBuf.record (s : SectionBuf) (e : ℕ) : Option Seg := findSeg (s.head :: s.nextSeg) e

/-- The record that keeps a `table_id_ext`; without segments there is only one. -/
def SectionBuf.kept (s : SectionBuf) (e : ℕ) : Option Seg :=
  if s.segmented = true then s.record e else some s.head

/-- A record for a `table_id_ext` of which nothing was seen. -/
def freshSeg (h : SectionHdr) : Seg := ⟨h.tableIdExt, h.version, noneDone, false⟩

/-- The chain begins when the first record has its `table_id_ext`. -/
structure SectionBuf.Wf (s : SectionBuf) : Prop where
  lengths : ∀ g ∈ s.head :: s.nextSeg, g.sectionDone.length = 32
  unsegmented : s.segmented = false → s.nextSeg = []
  unnamed : s.head.tableIdExt = -1 → s.nextSeg = []

variable {buf : List UInt8} {parsed : Option Parsed} {h : SectionHdr} {s s' : SectionBuf} {ret : ℤ}
    {hs : List SectionHdr}

theorem parseOn_congr {s s' : Seg} (h : s.reset (sectionHdr buf) = s'.reset (sectionHdr buf)) :
    parseOn buf s = parseOn buf s' := by
  simp only [parseOn, h]

theorem reset_freshSeg (h : SectionHdr) : (freshSeg h).reset h = freshSeg h := by
  unfold Seg.reset
  exact if_neg (by simp [freshSeg])

theorem onSegment_spec {f : Seg → Option (Option Parsed × Seg)} {g : Seg}
    (hf : f ((findSeg segs h.tableIdExt).getD (freshSeg h)) = some (parsed, g)) (hg : g.tableIdExt = h.tableIdExt) :
    ∃ segs', onSegment h f segs = some (parsed, segs') ∧ (∀ g' ∈ segs', g' = g ∨ g' ∈ segs) ∧
      ∀ e, findSeg segs' e = if e = h.tableIdExt then some g else findSeg segs e := by
  have hother : ∀ {g' : Seg} {e : ℕ}, g'.tableIdExt = h.tableIdExt → e ≠ h.tableIdExt → g'.tableIdExt ≠ e := by
    intro g' e hg' he heq
    omega
  induction segs with
  | nil =>
    refine ⟨[g], ?_, by simp, fun e => ?_⟩
    · show (f (freshSeg h)).map _ = _
      rw [show f (freshSeg h) = some (parsed, g) from hf]
      rfl
    · by_cases he : e = h.tableIdExt
      · rw [if_pos he, findSeg_cons_self _ (by rw [he]; exact hg)]
      · rw [if_neg he, findSeg_cons_of_ne _ (hother hg he)]
  | cons s segs ih =>
    unfold onSegment
    by_cases hs : s.tableIdExt = h.tableIdExt
    · rw [findSeg_cons_self _ hs] at hf
      rw [if_pos hs, show f s = some (parsed, g) from hf]
      refine ⟨g :: segs, rfl, fun g' hg' => ?_, fun e => ?_⟩
      · rcases List.mem_cons.mp hg' with rfl | hmem
        · exact .inl rfl
        · exact .inr (List.mem_cons_of_mem _ hmem)
      · by_cases he : e = h.tableIdExt
        · rw [if_pos he, findSeg_cons_self _ (by rw [he]; exact hg)]
        · rw [if_neg he, findSeg_cons_of_ne _ (hother hg he), findSeg_cons_of_ne _ (hother hs he)]
    · rw [findSeg_cons_of_ne _ hs] at hf
      obtain ⟨segs', heq, hmem, hfind⟩ := ih hf
      rw [if_neg hs, heq]
      refine ⟨s :: segs', rfl, fun g' hg' => ?_, fun e => ?_⟩
      · rcases List.mem_cons.mp hg' with rfl | hin
        · exact .inr List.mem_cons_self
        · exact (hmem g' hin).imp_right (List.mem_cons_of_mem _)
      · by_cases hse : s.tableIdExt = e
        · rw [findSeg_cons_self _ hse, findSeg_cons_self _ hse, if_neg]
          exact fun he => hs (by rw [hse, he])
        · rw [findSeg_cons_of_ne _ hse, findSeg_cons_of_ne _ hse]
          exact hfind e

theorem head_tableIdExt {e : ℕ} (hchain : ¬(s.segmented = true ∧ s.head.tableIdExt ≠ -1 ∧ s.head.tableIdExt ≠ e))
    (hseg : s.segmented = true) (hnamed : s.head.tableIdExt ≠ -1) : s.head.tableIdExt = e := by
  by_contra hne
  exact hchain ⟨hseg, hnamed, hne⟩

theorem parseOn_head (hw : s.Wf) {g' : Seg}
    (hchain : ¬(s.segmented = true ∧ s.head.tableIdExt ≠ -1 ∧ s.head.tableIdExt ≠ (sectionHdr buf).tableIdExt))
    (hparse : parseOn buf s.head = some (parsed, g')) :
    ∃ g, parseOn buf g = some (parsed, g') ∧ g.sectionDone.length = 32 ∧
      g = (s.kept (sectionHdr buf).tableIdExt).getD (freshSeg (sectionHdr buf)) := by
  have hhead := hw.lengths s.head List.mem_cons_self
  by_cases hseg : s.segmented = true
  · by_cases hminus : s.head.tableIdExt = -1
    · have hnone : s.kept (sectionHdr buf).tableIdExt = none := by
        rw [SectionBuf.kept, if_pos hseg, SectionBuf.record, hw.unnamed hminus, findSeg_cons_of_ne _ (by omega)]
        rfl
      have hreset : s.head.reset (sectionHdr buf) = freshSeg (sectionHdr buf) := if_pos (.inr (by omega))
      refine ⟨freshSeg (sectionHdr buf), ?_, rfl, by rw [hnone]; rfl⟩
      rw [← hparse]
      exact parseOn_congr (by rw [reset_freshSeg, hreset])
    · refine ⟨s.head, hparse, hhead, ?_⟩
      rw [SectionBuf.kept, if_pos hseg, SectionBuf.record, findSeg_cons_self _ (head_tableIdExt hchain hseg hminus)]
      rfl
  · refine ⟨s.head, hparse, hhead, ?_⟩
    rw [SectionBuf.kept, if_neg hseg]
    rfl

/-- **One section on the records of a filter**: the record of its `table_id_ext` takes it, the others are
left alone. -/
theorem parseSection_spec (hw : s.Wf) (htable : s.tableId = (sectionHdr buf).tableId) :
    ∃ g parsed g' ret s', parseOn buf g = some (parsed, g') ∧ g.sectionDone.length = 32 ∧
      g = (s.kept (sectionHdr buf).tableIdExt).getD (freshSeg (sectionHdr buf)) ∧
      parseSection s buf = some (ret, parsed, s') ∧ s'.Wf ∧ s'.tableId = s.tableId ∧
      s'.segmented = s.segmented ∧ s'.kept (sectionHdr buf).tableIdExt = some g' ∧
      (s.segmented = true → ∀ e, e ≠ (sectionHdr buf).tableIdExt → s'.record e = s.record e) ∧
      (s.segmented = false → ret = if (sectionHdr buf).length < 9 then 0 else if g'.done = true then 1 else 0) := by
  obtain ⟨h, hh⟩ : ∃ h, h = sectionHdr buf := ⟨_, rfl⟩
  rw [← hh] at htable ⊢
  unfold parseSection
  rw [← hh]
  dsimp only
  rw [if_neg (not_not.mpr htable)]
  by_cases hchain : s.segmented = true ∧ s.head.tableIdExt ≠ -1 ∧ s.head.tableIdExt ≠ h.tableIdExt
  · -- the record is in the chain, or is made
    obtain ⟨hseg, hnamed, hne⟩ := hchain
    have hkept : s.kept h.tableIdExt = findSeg s.nextSeg h.tableIdExt := by
      rw [SectionBuf.kept, if_pos hseg, SectionBuf.record, findSeg_cons_of_ne _ hne]
    have hlen : ((s.kept h.tableIdExt).getD (freshSeg h)).sectionDone.length = 32 := by
      rw [hkept]
      cases hfind : findSeg s.nextSeg h.tableIdExt with
      | none => rfl
      | some g => exact hw.lengths g (List.mem_cons_of_mem _ (List.mem_of_find?_eq_some hfind))
    obtain ⟨parsed, g', hparse, hlen', hext', -⟩ := parseOn_spec buf hlen
    rw [← hh] at hext'
    obtain ⟨segs', heq, hmem, hfind⟩ := onSegment_spec s.nextSeg (hkept ▸ hparse) hext'
    rw [if_pos ⟨hseg, hnamed, hne⟩, heq]
    have hun : s.segmented ≠ false := by
      rw [hseg]
      decide
    refine ⟨_, parsed, g', _, _, hparse, hlen, rfl, rfl, ⟨fun g hg => ?_, fun h => absurd h hun,
      fun h => absurd h hnamed⟩, rfl, rfl, ?_, fun _ e he => ?_, fun h => absurd h hun⟩
    · rcases List.mem_cons.mp hg with rfl | hg
      · exact hw.lengths _ List.mem_cons_self
      · rcases hmem g hg with rfl | hg
        · exact hlen'
        · exact hw.lengths g (List.mem_cons_of_mem _ hg)
    · rw [SectionBuf.kept, if_pos hseg, SectionBuf.record, findSeg_cons_of_ne _ hne, hfind, if_pos rfl]
    · unfold SectionBuf.record
      by_cases hhead : s.head.tableIdExt = e
      · rw [findSeg_cons_self _ hhead, findSeg_cons_self _ hhead]
      · rw [findSeg_cons_of_ne _ hhead, findSeg_cons_of_ne _ hhead, hfind, if_neg he]
  · -- the first record
    rw [if_neg hchain]
    have hhead := hw.lengths s.head List.mem_cons_self
    obtain ⟨parsed, g', hparse, hlen', hext', -⟩ := parseOn_spec buf hhead
    rw [← hh] at hext'
    rw [hparse]
    have hw' : SectionBuf.Wf { s with head := g' } := by
      refine ⟨fun g hg => ?_, hw.unsegmented, fun hminus => ?_⟩
      · rcases List.mem_cons.mp hg with rfl | hg
        · exact hlen'
        · exact hw.lengths g (List.mem_cons_of_mem _ hg)
      · have hminus : g'.tableIdExt = -1 := hminus
        omega
    obtain ⟨g, hg, hglen, hgeq⟩ := parseOn_head hw (hh ▸ hchain) hparse
    rw [← hh] at hgeq
    refine ⟨g, parsed, g', _, _, hg, hglen, hgeq, rfl, hw', rfl, rfl, ?_, fun hseg e he => ?_, fun hun => ?_⟩
    · unfold SectionBuf.kept SectionBuf.record
      dsimp only
      rw [findSeg_cons_self _ hext', ite_self]
    · unfold SectionBuf.record
      dsimp only
      rw [findSeg_cons_of_ne _ (by omega)]
      by_cases hminus : s.head.tableIdExt = -1
      · rw [findSeg_cons_of_ne _ (by omega)]
      · have hsame := head_tableIdExt hchain hseg hminus
        rw [findSeg_cons_of_ne _ (by omega)]
    · dsimp only
      rw [hun]
      simp only [Bool.false_eq_true, false_or]

/-! ### Runs -/

theorem setupFilter_wf (tid tidExt : ℤ) (segmented : Bool) : (setupFilter tid tidExt segmented).Wf where
  lengths g hg := by
    cases List.mem_singleton.mp hg
    rfl
  unsegmented _ := rfl
  unnamed _ := rfl

theorem parseSection_other (h : s.tableId ≠ (sectionHdr buf).tableId) :
    parseSection s buf = some (-1, none, s) := if_pos h

/-- **One section keeps the records well formed**, and no access is outside them. -/
theorem parseSection_wf (hw : s.Wf) (buf : List UInt8) :
    ∃ ret parsed s', parseSection s buf = some (ret, parsed, s') ∧ s'.Wf ∧ s'.tableId = s.tableId ∧
      s'.segmented = s.segmented := by
  by_cases htable : s.tableId = (sectionHdr buf).tableId
  · obtain ⟨-, parsed, -, ret, s', -, -, -, hrun, hw', htid, hseg, -⟩ := parseSection_spec hw htable
    exact ⟨ret, parsed, s', hrun, hw', htid, hseg⟩
  · exact ⟨_, _, _, parseSection_other htable, hw, rfl, rfl⟩

theorem parseSections_cons {s₁ : SectionBuf} (h : parseSection s buf = some (ret, parsed, s₁))
    (bufs : List (List UInt8)) :
    parseSections s (buf :: bufs) = (parseSections s₁ bufs).map fun r => ((ret, parsed) :: r.1, r.2) := by
  rw [parseSections, h]

/-- **A sequence of sections keeps the records well formed.** -/
theorem parseSections_wf (hw : s.Wf) (bufs : List (List UInt8)) :
    ∃ rs s', parseSections s bufs = some (rs, s') ∧ s'.Wf ∧ s'.tableId = s.tableId ∧
      s'.segmented = s.segmented := by
  induction bufs generalizing s with
  | nil => exact ⟨[], s, rfl, hw, rfl, rfl⟩
  | cons buf bufs ih =>
    obtain ⟨ret, parsed, s₁, hrun, hw₁, htid₁, hseg₁⟩ := parseSection_wf hw buf
    obtain ⟨rs, s', hrest, hw', htid', hseg'⟩ := ih hw₁
    exact ⟨(ret, parsed) :: rs, s', by rw [parseSections_cons hrun, hrest]; rfl, hw', htid'.trans htid₁,
      hseg'.trans hseg₁⟩

theorem parseSections_append {s₁ : SectionBuf} {bufs : List (List UInt8)} {rs : List (ℤ × Option Parsed)} (hw : s.Wf)
    (h : parseSections s bufs = some (rs, s₁)) (bufs' : List (List UInt8)) :
    parseSections s (bufs ++ bufs') = (parseSections s₁ bufs').map fun r => (rs ++ r.1, r.2) := by
  induction bufs generalizing s rs with
  | nil =>
    cases h
    rw [List.nil_append]
    exact Option.map_id'.symm
  | cons buf bufs ih =>
    obtain ⟨ret, parsed, s₂, hrun, hw₂, -, -⟩ := parseSection_wf hw buf
    rw [parseSections_cons hrun] at h
    obtain ⟨⟨rs', s'⟩, hrest, heq⟩ := Option.map_eq_some_iff.mp h
    cases heq
    rw [List.cons_append, parseSections_cons hrun, ih hw₂ hrest, Option.map_map]
    rfl

/-! ### A section is parsed once -/

/-- The body of `buf` is parsed when it comes after the sections `pre`. -/
def ParsedAfter (s : SectionBuf) (pre : List (List UInt8)) (buf : List UInt8) : Prop :=
  ∃ rs s₁ ret body s₂, parseSections s pre = some (rs, s₁) ∧ parseSection s₁ buf = some (ret, some body, s₂)

/-- `g` begins a new version of what `h` belongs to. -/
def Renews (segmented : Bool) (h g : SectionHdr) : Prop :=
  if segmented = true then g.tableIdExt = h.tableIdExt ∧ g.version ≠ h.version
  else g.version ≠ h.version ∨ g.tableIdExt ≠ h.tableIdExt

/-- The section is in the record that keeps its `table_id_ext`. -/
def SectionBuf.Marked (s : SectionBuf) (h : SectionHdr) : Prop :=
  ∃ g, s.kept h.tableIdExt = some g ∧ g.tableIdExt = h.tableIdExt ∧ g.version = h.version ∧
    getBit g.sectionDone h.number = some true

theorem marked_of_parsed (hw : s.Wf) {body : Parsed} (hrun : parseSection s buf = some (ret, some body, s')) :
    s.tableId = (sectionHdr buf).tableId ∧ s'.Marked (sectionHdr buf) := by
  by_cases htable : s.tableId = (sectionHdr buf).tableId
  · obtain ⟨g, parsed, g', ret', s'', hparse, hlen, -, hrun', -, -, -, hkept, -⟩ := parseSection_spec hw htable
    rw [hrun'] at hrun
    cases hrun
    obtain ⟨parsed', g'', hparse', -, hext, hversion, hnew, hget, -⟩ := parseOn_spec buf hlen
    rw [hparse] at hparse'
    cases hparse'
    have hwhole : (sectionHdr buf).Whole := (hnew.mp rfl).1
    exact ⟨htable, g', hkept, hext, hversion, by rw [hget, if_pos ⟨hwhole, rfl⟩]⟩
  · rw [parseSection_other htable] at hrun
    cases hrun

/-- The record in which `h` is marked, when a section that shares it does not renew it. -/
theorem kept_of_not_renews {g : SectionHdr} (hm : s.Marked h)
    (hsame : s.segmented = true → g.tableIdExt = h.tableIdExt) (hr : ¬ Renews s.segmented h g) :
    ∃ r, s.kept g.tableIdExt = some r ∧ r.reset g = r ∧ getBit r.sectionDone h.number = some true := by
  obtain ⟨r, hkept, hext, hversion, hbit⟩ := hm
  have hboth : g.tableIdExt = h.tableIdExt ∧ g.version = h.version := by
    unfold Renews at hr
    by_cases hseg : s.segmented = true
    · rw [if_pos hseg] at hr
      exact ⟨hsame hseg, by_contra fun hne => hr ⟨hsame hseg, hne⟩⟩
    · rw [if_neg hseg, not_or, not_not, not_not] at hr
      exact hr.symm
  refine ⟨r, by rw [hboth.1]; exact hkept, if_neg ?_, hbit⟩
  rw [hext, hversion, hboth.1, hboth.2]
  simp

/-- **One section leaves a marked section marked** unless it renews it, and is not parsed if it is the
same. -/
theorem parseSection_marked (hw : s.Wf) (hm : s.Marked h)
    (hr : s.tableId = (sectionHdr buf).tableId → ¬ Renews s.segmented h (sectionHdr buf))
    (hrun : parseSection s buf = some (ret, parsed, s')) :
    s'.Marked h ∧ ((sectionHdr buf).number = h.number →
      (s.segmented = true → (sectionHdr buf).tableIdExt = h.tableIdExt) → parsed = none) := by
  by_cases htable : s.tableId = (sectionHdr buf).tableId
  · obtain ⟨g, parsed', g', ret', s'', hparse, hlen, hg, hrun', -, -, hseg', hkept, hsep, -⟩ :=
      parseSection_spec hw htable
    rw [hrun'] at hrun
    cases hrun
    obtain ⟨parsed'', g'', hparse', -, hext, hversion, hnew, hget, -⟩ := parseOn_spec buf hlen
    rw [hparse] at hparse'
    cases hparse'
    by_cases hsame : s.segmented = true → (sectionHdr buf).tableIdExt = h.tableIdExt
    · obtain ⟨r, hr', hreset, hbit⟩ := kept_of_not_renews hm hsame (hr htable)
      rw [hr', Option.getD_some] at hg
      cases hg
      rw [hreset] at hget
      have hbit' : getBit g'.sectionDone h.number = some true := by
        rw [hget, hbit, ite_self]
      constructor
      · obtain ⟨r₀, hkept₀, hext₀, hversion₀, -⟩ := hm
        have hnot := hr htable
        unfold Renews at hnot
        by_cases hseg : s.segmented = true
        · rw [if_pos hseg] at hnot
          have hver : (sectionHdr buf).version = h.version := by_contra fun hne => hnot ⟨hsame hseg, hne⟩
          exact ⟨g', by rw [← hsame hseg]; exact hkept, by rw [hext, hsame hseg], by rw [hversion, hver], hbit'⟩
        · rw [if_neg hseg, not_or, not_not, not_not] at hnot
          exact ⟨g', by rw [← hnot.2]; exact hkept, by rw [hext, hnot.2], by rw [hversion, hnot.1], hbit'⟩
      · intro hnumber _
        by_contra hsome
        have hlacks := (hnew.mp (Option.isSome_iff_ne_none.mpr hsome)).2
        rw [hreset, hnumber, hbit] at hlacks
        cases hlacks
    · rw [Classical.not_imp] at hsame
      obtain ⟨hseg, hne⟩ := hsame
      refine ⟨?_, fun _ hsame => absurd (hsame hseg) hne⟩
      obtain ⟨r₀, hkept₀, hrest⟩ := hm
      refine ⟨r₀, ?_, hrest⟩
      unfold SectionBuf.kept at hkept₀ ⊢
      rw [if_pos hseg] at hkept₀
      rw [hseg', if_pos hseg, hsep hseg _ (Ne.symm hne)]
      exact hkept₀
  · rw [parseSection_other htable] at hrun
    cases hrun
    exact ⟨hm, fun _ _ => rfl⟩

/-- **Along a sequence** a marked section is not parsed again before something renews it. -/
theorem renews_of_parsedAfter (hw : s.Wf) (hm : s.Marked h) (mid : List (List UInt8)) (buf : List UInt8)
    (hparsed : ParsedAfter s mid buf) (hnumber : (sectionHdr buf).number = h.number)
    (hsame : s.segmented = true → (sectionHdr buf).tableIdExt = h.tableIdExt) :
    ∃ g ∈ mid ++ [buf], s.tableId = (sectionHdr g).tableId ∧ Renews s.segmented h (sectionHdr g) := by
  obtain ⟨rs, s₁, ret, body, s₂, hmid, hrun⟩ := hparsed
  induction mid generalizing s rs with
  | nil =>
    cases hmid
    by_contra hnone
    have hkeep := parseSection_marked hw hm
      (fun htable hr => hnone ⟨buf, List.mem_singleton_self buf, htable, hr⟩) hrun
    exact absurd (hkeep.2 hnumber hsame) (by simp)
  | cons b mid ih =>
    by_cases hb : s.tableId = (sectionHdr b).tableId ∧ Renews s.segmented h (sectionHdr b)
    · exact ⟨b, List.mem_cons_self, hb⟩
    · obtain ⟨ret', parsed, s', hrun', hw', htid, hseg⟩ := parseSection_wf hw b
      rw [parseSections_cons hrun'] at hmid
      obtain ⟨⟨rs', s₁'⟩, hrest, heq⟩ := Option.map_eq_some_iff.mp hmid
      cases heq
      have hm' := (parseSection_marked hw hm (fun htable hr => hb ⟨htable, hr⟩) hrun').1
      obtain ⟨g, hg, htable, hr⟩ := ih hw' hm' (hseg ▸ hsame) rs' hrest
      rw [htid] at htable
      rw [hseg] at hr
      exact ⟨g, List.mem_cons_of_mem _ hg, htable, hr⟩

/-! ### The result of a filter without segments -/

/-- The sections of the latest version and `table_id_ext`, the newest first. -/
def since : List SectionHdr → List SectionHdr
  | [] => []
  | h :: hs => h :: hs.takeWhile fun g => decide (g.version = h.version ∧ g.tableIdExt = h.tableIdExt)

def Seen (hs : List SectionHdr) (n : ℕ) : Prop := ∃ g ∈ hs, g.Whole ∧ g.number = n

/-- Some section was the first of its number, and with it all sections up to the last one it names were
seen. -/
def Complete (hs : List SectionHdr) : Prop :=
  ∃ newer h older, hs = newer ++ h :: older ∧ h.Whole ∧ ¬ Seen older h.number ∧
    ∀ n ≤ h.last, Seen (h :: older) n

theorem since_cons_of_same {h' : SectionHdr} (hs : List SectionHdr) (hv : h'.version = h.version)
    (he : h'.tableIdExt = h.tableIdExt) : since (h :: h' :: hs) = h :: since (h' :: hs) := by
  rw [since, since, List.takeWhile_cons_of_pos (by simp [hv, he]), hv, he]

theorem since_cons_of_renewed {h' : SectionHdr} (hs : List SectionHdr)
    (hne : ¬ (h'.version = h.version ∧ h'.tableIdExt = h.tableIdExt)) : since (h :: h' :: hs) = [h] := by
  rw [since, List.takeWhile_cons_of_neg (by simpa using hne)]

theorem seen_cons {n : ℕ} : Seen (h :: hs) n ↔ (h.Whole ∧ h.number = n) ∨ Seen hs n := by
  unfold Seen
  simp only [List.mem_cons, exists_eq_or_imp]

theorem not_seen_nil (n : ℕ) : ¬ Seen [] n := by simp [Seen]

theorem complete_cons :
    Complete (h :: hs) ↔
      Complete hs ∨ (h.Whole ∧ ¬ Seen hs h.number ∧ ∀ n ≤ h.last, Seen (h :: hs) n) := by
  constructor
  · rintro ⟨newer, g, older, heq, hrest⟩
    cases newer with
    | nil =>
      rw [List.nil_append] at heq
      cases heq
      exact .inr hrest
    | cons g' newer =>
      rw [List.cons_append] at heq
      cases heq
      exact .inl ⟨newer, g, older, rfl, hrest⟩
  · rintro (⟨newer, g, older, rfl, hrest⟩ | hrest)
    · exact ⟨h :: newer, g, older, rfl, hrest⟩
    · exact ⟨[], h, hs, rfl, hrest⟩

theorem not_complete_nil : ¬ Complete [] := by
  rintro ⟨newer, g, older, heq, -⟩
  simp at heq

/-- The record says what was seen. -/
structure Seg.Tracks (s : Seg) (hs : List SectionHdr) : Prop where
  length : s.sectionDone.length = 32
  seen : ∀ n, n < 256 → (getBit s.sectionDone n = some true ↔ Seen hs n)
  done : s.done = true ↔ Complete hs

theorem tracks_fresh {s : Seg} (hbits : s.sectionDone = noneDone) (hdone : s.done = false) : s.Tracks [] where
  length := by rw [hbits]; rfl
  seen n hn := by
    rw [hbits, noneDone, getBit_zeros (by omega)]
    exact iff_of_false (by simp) (not_seen_nil n)
  done := by
    rw [hdone]
    exact iff_of_false (by simp) not_complete_nil

/-- **One section on its record**, in terms of what was seen. -/
theorem parseOn_tracks {s s' : Seg} (ht : (s.reset (sectionHdr buf)).Tracks hs) (hlen : s.sectionDone.length = 32)
    (hrun : parseOn buf s = some (parsed, s')) : s'.Tracks (sectionHdr buf :: hs) := by
  obtain ⟨parsed', s'', hrun', hlen', -, -, -, hget, hdone⟩ := parseOn_spec buf hlen
  rw [hrun] at hrun'
  cases hrun'
  have hseen : ∀ n, n < 256 → (getBit s'.sectionDone n = some true ↔ Seen (sectionHdr buf :: hs) n) := by
    intro n hn
    rw [hget, seen_cons, ← ht.seen n hn]
    by_cases hnew : (sectionHdr buf).Whole ∧ n = (sectionHdr buf).number
    · rw [if_pos hnew]
      exact iff_of_true rfl (.inl ⟨hnew.1, hnew.2.symm⟩)
    · rw [if_neg hnew, or_iff_right fun h => hnew ⟨h.1, h.2.symm⟩]
  have hlacks : s.Lacks (sectionHdr buf) ↔ (sectionHdr buf).Whole ∧ ¬ Seen hs (sectionHdr buf).number := by
    have hnumber := sectionHdr_number_lt buf
    obtain ⟨b, hb⟩ := exists_getBit (s.reset (sectionHdr buf)).sectionDone (sectionHdr buf).number
      (by rw [ht.length]; omega)
    rw [Seg.Lacks, ← ht.seen _ hnumber, hb]
    cases b <;> simp
  refine ⟨hlen', hseen, ?_⟩
  have hlast := sectionHdr_last_lt buf
  have hall : (∀ n ≤ (sectionHdr buf).last, getBit s'.sectionDone n = some true) ↔
      ∀ n ≤ (sectionHdr buf).last, Seen (sectionHdr buf :: hs) n :=
    forall₂_congr fun n hn => hseen n (by omega)
  rw [hdone, ht.done, hlacks, hall, complete_cons, and_assoc]

def tableHeaders (tid : ℤ) (bufs : List (List UInt8)) : List SectionHdr :=
  ((bufs.map sectionHdr).filter fun h => decide (tid = h.tableId)).reverse

theorem tableHeaders_snoc (tid : ℤ) (bufs : List (List UInt8)) (buf : List UInt8) :
    tableHeaders tid (bufs ++ [buf]) =
      if tid = (sectionHdr buf).tableId then sectionHdr buf :: tableHeaders tid bufs else tableHeaders tid bufs := by
  unfold tableHeaders
  rw [List.map_append, List.filter_append, List.reverse_append]
  by_cases h : tid = (sectionHdr buf).tableId
  · rw [if_pos h, List.map_singleton, List.filter_cons_of_pos (by simpa using h)]
    rfl
  · rw [if_neg h, List.map_singleton, List.filter_cons_of_neg (by simpa using h)]
    rfl

/-- The record of a filter without segments, after the sections `hs` of its table. -/
structure SectionBuf.Follows (s : SectionBuf) (hs : List SectionHdr) : Prop where
  tracks : s.head.Tracks (since hs)
  named : ∀ h ∈ hs.head?, s.head.version = h.version ∧ s.head.tableIdExt = h.tableIdExt
  unnamed : hs = [] → s.head.version = -1

theorem setupFilter_follows (tid tidExt : ℤ) (segmented : Bool) : (setupFilter tid tidExt segmented).Follows [] where
  tracks := tracks_fresh rfl rfl
  named h hh := by cases hh
  unnamed _ := rfl

/-- What the record holds of the version and `table_id_ext` of the next section. -/
theorem reset_tracks (hf : s.Follows hs) (h : SectionHdr) :
    ∃ older, since (h :: hs) = h :: older ∧ (s.head.reset h).Tracks older := by
  cases hs with
  | nil =>
    have hversion := hf.unnamed rfl
    refine ⟨[], rfl, ?_⟩
    rw [Seg.reset, if_pos (.inl (by omega))]
    exact tracks_fresh rfl rfl
  | cons h' hs =>
    obtain ⟨hv, he⟩ := hf.named h' rfl
    by_cases hsame : h'.version = h.version ∧ h'.tableIdExt = h.tableIdExt
    · refine ⟨since (h' :: hs), since_cons_of_same hs hsame.1 hsame.2, ?_⟩
      rw [Seg.reset, if_neg (by rw [hv, he, hsame.1, hsame.2]; simp)]
      exact hf.tracks
    · refine ⟨[], since_cons_of_renewed hs hsame, ?_⟩
      rw [Seg.reset, if_pos (by rw [hv, he]; omega)]
      exact tracks_fresh rfl rfl

/-- **One section** of a filter without segments. -/
theorem parseSection_follows (hw : s.Wf) (hseg : s.segmented = false) (hf : s.Follows hs)
    (htable : s.tableId = (sectionHdr buf).tableId) (hrun : parseSection s buf = some (ret, parsed, s')) :
    s'.Follows (sectionHdr buf :: hs) ∧ (ret = 0 ∨ ret = 1) ∧
      (ret = 1 ↔ (sectionHdr buf).Whole ∧ Complete (since (sectionHdr buf :: hs))) := by
  obtain ⟨g, parsed', g', ret', s'', hparse, hlen, hg, hrun', -, -, hseg', hkept, -, hret⟩ :=
    parseSection_spec hw htable
  rw [hrun] at hrun'
  cases hrun'
  have hun : ¬ s.segmented = true := by simp [hseg]
  rw [SectionBuf.kept, if_neg hun, Option.getD_some] at hg
  cases hg
  rw [SectionBuf.kept, hseg', if_neg hun] at hkept
  cases hkept
  obtain ⟨older, hsince, ht⟩ := reset_tracks hf (sectionHdr buf)
  have htracks := parseOn_tracks ht hlen hparse
  rw [← hsince] at htracks
  obtain ⟨_, _, hparse', -, hext, hversion, -⟩ := parseOn_spec buf hlen
  rw [hparse] at hparse'
  cases hparse'
  refine ⟨⟨htracks, fun h hh => ?_, fun h => by cases h⟩, ?_, ?_⟩
  · cases hh
    exact ⟨hversion, hext⟩
  · rw [hret hseg]
    split_ifs <;> simp
  · rw [hret hseg, ← htracks.done, SectionHdr.Whole]
    split_ifs with h₁ h₂
    · exact iff_of_false (by simp) fun h => absurd h.1 (Nat.not_le.mpr h₁)
    · exact iff_of_true rfl ⟨Nat.not_lt.mp h₁, h₂⟩
    · exact iff_of_false (by simp) fun h => h₂ h.2

/-- **A sequence of sections** of a filter without segments. -/
theorem parseSections_follows (hw : s.Wf) (hseg : s.segmented = false) {old bufs : List (List UInt8)}
    (hf : s.Follows (tableHeaders s.tableId old)) {rs : List (ℤ × Option Parsed)}
    (hrun : parseSections s bufs = some (rs, s')) : s'.Follows (tableHeaders s.tableId (old ++ bufs)) := by
  induction bufs generalizing s old rs with
  | nil =>
    cases hrun
    rw [List.append_nil]
    exact hf
  | cons buf bufs ih =>
    obtain ⟨ret, parsed, s₁, hrun₁, hw₁, htid₁, hseg₁⟩ := parseSection_wf hw buf
    rw [parseSections_cons hrun₁] at hrun
    obtain ⟨⟨rs', s₂⟩, hrest, heq⟩ := Option.map_eq_some_iff.mp hrun
    cases heq
    have hf₁ : s₁.Follows (tableHeaders s₁.tableId (old ++ [buf])) := by
      rw [htid₁, tableHeaders_snoc]
      by_cases htable : s.tableId = (sectionHdr buf).tableId
      · rw [if_pos htable]
        exact (parseSection_follows hw hseg hf htable hrun₁).1
      · rw [parseSection_other htable] at hrun₁
        cases hrun₁
        rw [if_neg htable]
        exact hf
    have hrest' := ih hw₁ (hseg₁.trans hseg) hf₁ hrest
    rw [htid₁, List.append_assoc] at hrest'
    exact hrest'

/-- **The bookkeeping of sections.**  Along every sequence of sections of one filter no access is outside
`section_done`; only new bodies are parsed; with segments the records of other `table_id_ext`s are left alone; without
them the result is `1` exactly if some first section of its number found all up to the last one it names seen. -/
theorem parseSections_kept (tid tidExt : ℤ) (segmented : Bool) (bufs : List (List UInt8)) (buf : List UInt8) :
    ∃ rs s ret parsed s', parseSections (setupFilter tid tidExt segmented) bufs = some (rs, s) ∧
      parseSection s buf = some (ret, parsed, s') ∧
      (∀ pre a mid, bufs = pre ++ a :: mid → ParsedAfter (setupFilter tid tidExt segmented) pre a →
        parsed.isSome = true → (sectionHdr buf).number = (sectionHdr a).number →
        (segmented = true → (sectionHdr buf).tableIdExt = (sectionHdr a).tableIdExt) →
        ∃ g ∈ mid ++ [buf], tid = (sectionHdr g).tableId ∧
          Renews segmented (sectionHdr a) (sectionHdr g)) ∧
      (segmented = true → ∀ e, e ≠ (sectionHdr buf).tableIdExt → s'.record e = s.record e) ∧
      (segmented = false → tid = (sectionHdr buf).tableId →
        (ret = 0 ∨ ret = 1) ∧
        (ret = 1 ↔ (sectionHdr buf).Whole ∧ Complete (since (tableHeaders tid (bufs ++ [buf]))))) ∧
      (tid ≠ (sectionHdr buf).tableId → ret = -1 ∧ s' = s) := by
  have hw₀ := setupFilter_wf tid tidExt segmented
  obtain ⟨rs, s, hrun, hw, htid, hseg⟩ := parseSections_wf hw₀ bufs
  obtain ⟨ret, parsed, s', hnext, hw', htid', hseg'⟩ := parseSection_wf hw buf
  have htid : s.tableId = tid := htid
  have hseg : s.segmented = segmented := hseg
  refine ⟨rs, s, ret, parsed, s', hrun, hnext, ?_, ?_, ?_, ?_⟩
  · rintro pre a mid rfl ⟨rs₁, s₁, ret₁, body₁, s₂, hpre, ha⟩ hsome hnumber hsame
    obtain ⟨body, rfl⟩ := Option.isSome_iff_exists.mp hsome
    obtain ⟨_, _, hpre', hw₁, htid₁, hseg₁⟩ := parseSections_wf hw₀ pre
    rw [hpre] at hpre'
    cases hpre'
    obtain ⟨_, _, _, ha', hw₂, htid₂, hseg₂⟩ := parseSection_wf hw₁ a
    rw [ha] at ha'
    cases ha'
    have hm := (marked_of_parsed hw₁ ha).2
    have hstart : s₂.tableId = tid ∧ s₂.segmented = segmented := ⟨htid₂.trans htid₁, hseg₂.trans hseg₁⟩
    rw [parseSections_append hw₀ hpre, parseSections_cons ha, Option.map_map] at hrun
    obtain ⟨⟨rs₂, s₃⟩, hmid, heq⟩ := Option.map_eq_some_iff.mp hrun
    cases heq
    obtain ⟨g, hg, htable, hr⟩ := renews_of_parsedAfter hw₂ hm mid buf ⟨rs₂, _, ret, body, s', hmid, hnext⟩
      hnumber (by rw [hstart.2]; exact hsame)
    rw [hstart.1] at htable
    rw [hstart.2] at hr
    exact ⟨g, hg, htable, hr⟩
  · intro hsegmented e he
    by_cases htable : s.tableId = (sectionHdr buf).tableId
    · obtain ⟨_, _, _, _, _, -, -, -, hnext', -, -, -, -, hsep, -⟩ := parseSection_spec hw htable
      rw [hnext] at hnext'
      cases hnext'
      exact hsep (hseg.trans hsegmented) e he
    · rw [parseSection_other htable] at hnext
      cases hnext
      rfl
  · intro hun htable
    have hfresh : (setupFilter tid tidExt segmented).Follows (tableHeaders (setupFilter tid tidExt segmented).tableId []) :=
      setupFilter_follows tid tidExt segmented
    have hf := parseSections_follows hw₀ hun hfresh hrun
    rw [tableHeaders_snoc, if_pos htable]
    exact (parseSection_follows hw (hseg.trans hun) hf (htid.trans htable) hnext).2
  · intro htable
    rw [parseSection_other (by rw [htid]; exact htable)] at hnext
    cases hnext
    exact ⟨rfl, rfl⟩

/-- Some section was the first of its number, and all sections up to the last one it names have been seen
by now. -/
def CompleteByNow (hs : List SectionHdr) : Prop :=
  ∃ newer h older, hs = newer ++ h :: older ∧ h.Whole ∧ ¬ Seen older h.number ∧ ∀ n ≤ h.last, Seen hs n

/-- Section 0 names 1 as the last one, and section 1 names 5. -/
theorem not_forall_completeByNow :
    ¬ ∀ (tid tidExt : ℤ) (bufs : List (List UInt8)) (buf : List UInt8) rs s ret parsed s',
      parseSections (setupFilter tid tidExt false) bufs = some (rs, s) →
      parseSection s buf = some (ret, parsed, s') → tid = (sectionHdr buf).tableId → (sectionHdr buf).Whole →
      (ret = 1 ↔ CompleteByNow (since (tableHeaders tid (bufs ++ [buf])))) := by
  intro hall
  have hret := hall 0 (-1) [[0, 0xb0, 9, 0, 1, 0xc1, 0, 1, 0, 0, 0, 0]] [0, 0xb0, 9, 0, 1, 0xc1, 1, 5, 0, 0, 0, 0]
    _ _ _ _ _ rfl rfl (by decide) (by decide)
  have hnow : CompleteByNow (since (tableHeaders 0 ([[0, 0xb0, 9, 0, 1, 0xc1, 0, 1, 0, 0, 0, 0]] ++
      [[0, 0xb0, 9, 0, 1, 0xc1, 1, 5, 0, 0, 0, 0]]))) := by
    refine ⟨[⟨0, 9, 1, 0, 1, 5⟩], ⟨0, 9, 1, 0, 0, 1⟩, [], by decide, by decide, not_seen_nil _, ?_⟩
    intro n hn
    have hcases : n = 0 ∨ n = 1 := by
      have hn : n ≤ 1 := hn
      omega
    rcases hcases with rfl | rfl
    · exact ⟨⟨0, 9, 1, 0, 0, 1⟩, by decide, by decide, rfl⟩
    · exact ⟨⟨0, 9, 1, 0, 1, 5⟩, by decide, by decide, rfl⟩
  exact absurd (hret.mpr hnow) (by decide)

end BgtDvb.Dvbscan
