import BgtDvb.DvbcfgScanfile
import BgtDvb.DvbcfgZapchannel

/-!
# Comments in channel files

Two files that differ in comments only should be read alike, whatever the line buffer held before.

* `yields_congr` — **PROVED**: lines that are read alike make files that are read alike;
* `undisturbed` — **PROVED**: scan files always are, zap channel files if every name ends, and without NUL
  bytes only then.

A name that runs into the end of its line takes the cursor behind it, into the comment.
-/

namespace BgtDvb.Dvbcfg

open BgtDvb.CString
open BgtDvb.CString.Reader

/-! ### Files that agree -/

/-- The text of a line in front of the first `#` or newline. -/
def textBefore (line : List UInt8) : List UInt8 := line.takeWhile fun c => c ≠ newline ∧ c ≠ hash

def Agree (file file' : List UInt8) : Prop :=
  (getlines file).map textBefore = (getlines file').map textBefore

instance (file file' : List UInt8) : Decidable (Agree file file') :=
  inferInstanceAs (Decidable (_ = _))

/-- A scan file is read like every file that agrees with it, whatever the memory behind the lines holds. -/
def ScanUndisturbed (file : List UInt8) : Prop :=
  ∀ file', Agree file file' → ∀ (σ : Type) (callback : σ → Parameters UInt8 → ℤ × σ)
    (left left' : ℕ → List UInt8) (s : σ),
    scanfileParse callback left file s = scanfileParse callback left' file' s

def ZapUndisturbed (file : List UInt8) : Prop :=
  ∀ file', Agree file file' → ∀ (σ : Type) (callback : σ → Zapchannel → ℤ × σ)
    (left left' : ℕ → List UInt8) (s : σ),
    zapchannelParse callback left file s = zapchannelParse callback left' file' s

def lineText (line : List UInt8) : List UInt8 := cstr (textBefore line)

/-- The name field is closed inside the line, or it does not fit. -/
def NameEnds (line : List UInt8) : Prop := colon ∈ lineText line ∨ 128 ≤ (lineText line).length

theorem cstr_lineBuf (line left : List UInt8) : cstr (lineBuf line left) = lineText line := by
  unfold lineBuf lineText textBefore
  induction line with
  | nil => simp [cutLine]
  | cons c line ih =>
    rw [List.cons_append, cutLine, List.takeWhile_cons]
    by_cases hzero : c = 0
    · subst hzero
      simp [newline, hash]
    by_cases hend : c = newline ∨ c = hash
    · rw [if_pos (.inr hend), cstr_zero, if_neg (by simp; tauto), cstr_nil]
    · rw [not_or] at hend
      rw [if_neg (by simp [hzero, hend]), if_pos (by simp [hend]), cstr_cons hzero, cstr_cons hzero, ih]

/-! ### Files that are read alike -/

section

variable {β : Type} {reader : Reader UInt8 β} {left left' : ℕ → List UInt8}

theorem yields_congr (k : ℕ) (hagree : lines.map textBefore = lines'.map textBefore)
    (h : ∀ line ∈ lines, ∀ line', textBefore line = textBefore line' → ∀ left left',
      lineValue reader line left = lineValue reader line' left') :
    yields reader left k lines = yields reader left' k lines' := by
  induction lines generalizing lines' k with
  | nil =>
    rw [List.map_nil, eq_comm, List.map_eq_nil_iff] at hagree
    rw [hagree]
    rfl
  | cons line lines ih =>
    cases lines' with
    | nil => exact absurd hagree (List.cons_ne_nil _ _)
    | cons line' lines' =>
      obtain ⟨htext, hagree⟩ := List.cons.inj hagree
      rw [yields, yields, h line List.mem_cons_self line' htext,
        ih (k + 1) hagree fun l hl => h l (List.mem_cons_of_mem line hl)]

theorem Reader.Local.lineValue_eq (hlocal : Local reader) {line line' : List UInt8}
    (h : textBefore line = textBefore line') (left left' : List UInt8) :
    lineValue reader line left = lineValue reader line' left' :=
  value_eq_of_view (hlocal _ _ (by rw [cstr_lineBuf, cstr_lineBuf, lineText, h, lineText]))

end

/-- **Comments in scan files do not matter.** -/
theorem scan_undisturbed (file : List UInt8) : ScanUndisturbed file := by
  intro file' hagree σ callback left left' s
  unfold scanfileParse
  rw [parseLines_eq_deliver, parseLines_eq_deliver, yields_congr 0 hagree]
  intro line _ line' h left left'
  exact Reader.Local.lineValue_eq scanfileLine_local h left left'

/-! ### Zap channel files -/

theorem zapSettings_local (frequency : BitVec 32) (feType : FeType) : Local (zapSettings frequency feType) := by
  cases feType with
  | atsc => exact (parseSetting_local atscModulationList).bind fun modulation => Local.pure _
  | dvbc =>
    refine (parseSetting_local inversionList).bind fun inversion => ?_
    refine (parseInt_local colon).bind fun symbolRate => ?_
    refine (parseSetting_local fecList).bind fun fecInner => ?_
    exact (parseSetting_local dvbcModulationList).bind fun modulation => Local.pure _
  | dvbs =>
    refine ((parseChar_local colon).map tolower).bind fun polarization => ?_
    split_ifs
    · refine (parseInt_local colon).bind fun diseqcSwitch => ?_
      exact (parseInt_local colon).bind fun symbolRate => Local.pure _
    · exact Local.failure
  | dvbt =>
    refine (parseSetting_local inversionList).bind fun inversion => ?_
    refine (parseSetting_local bandwidthList).bind fun bandwidth => ?_
    refine (parseSetting_local fecList).bind fun codeRateHP => ?_
    refine (parseSetting_local fecList).bind fun codeRateLP => ?_
    refine (parseSetting_local constellationList).bind fun constellation => ?_
    refine (parseSetting_local transmissionModeList).bind fun transmissionMode => ?_
    refine (parseSetting_local guardIntervalList).bind fun guardInterval => ?_
    exact (parseSetting_local hierarchyList).bind fun hierarchyInformation => Local.pure _

theorem orZero_local {p : Reader UInt8 (BitVec 32)} (hp : Local p) : Local (orZero p) := by
  intro mem mem' h
  have hview := hp mem mem' h
  have horZero (mem : List UInt8) : view (orZero p) mem = some ((view p mem).getD (0, cstr mem)) := by
    show some _ = some _
    cases hrun : p.run mem <;> simp [view, hrun]
  rw [horZero, horZero, hview, h]

theorem zapRest_local : Local zapRest := by
  refine (parseInt_local colon).bind fun frequency => ?_
  refine peek_local.bind fun rest => ?_
  refine (zapSettings_local frequency (guessType rest)).bind fun feParams => ?_
  refine (parseInt_local colon).bind fun videoPid => ?_
  refine (parseInt_local colon).bind fun audioPid => ?_
  exact (orZero_local (parseInt_local colon)).bind fun serviceId => Local.pure _

variable {line file text : List UInt8}

/-- **Comments do not matter behind a name that ends.** -/
theorem lineValue_of_nameEnds {line' : List UInt8} (hends : NameEnds line) (h : textBefore line = textBefore line')
    (left left' : List UInt8) : lineValue zapchannelLine line left = lineValue zapchannelLine line' left' := by
  have hstr : cstr (lineBuf line left) = cstr (lineBuf line' left') := by
    rw [cstr_lineBuf, cstr_lineBuf, lineText, h, lineText]
  have hname : view (parseString colon 128) (lineBuf line left)
      = view (parseString colon 128) (lineBuf line' left') := by
    refine parseString_view colon_ne_zero hstr ?_
    rw [cstr_lineBuf]
    exact hends
  exact value_eq_of_view (view_bind_congr hname fun name => zapRest_local.bind fun channel => Local.pure _)

theorem zap_undisturbed (h : ∀ line ∈ getlines file, NameEnds line) : ZapUndisturbed file := by
  intro file' hagree σ callback left left' s
  unfold zapchannelParse
  rw [parseLines_eq_deliver, parseLines_eq_deliver, yields_congr 0 hagree]
  intro line hline line' htext left left'
  exact lineValue_of_nameEnds (h line hline) htext left left'

/-! ### A comment behind a name that does not end -/

def channelComment : List UInt8 :=
  ascii ['1', '0', '0', ':', 'h', ':', '0', ':', '2', '7', '5', '0', '0', ':', '1', ':', '2', ':', '3']

def commented (text comment : List UInt8) : List UInt8 := text ++ hash :: (comment ++ [newline])

theorem textBefore_commented (h : Avoids ends text) (comment : List UInt8) :
    textBefore (commented text comment) = text := by
  have htext : ∀ c ∈ text, decide (c ≠ newline ∧ c ≠ hash) = true := by
    intro c hc
    have hnewline : c ≠ newline := fun heq => h newline (by simp) (heq ▸ hc)
    have hhash : c ≠ hash := fun heq => h hash (by simp) (heq ▸ hc)
    simp [hnewline, hhash]
  rw [textBefore, commented, List.takeWhile_append_of_pos htext, List.takeWhile_cons, if_neg (by simp),
    List.append_nil]

theorem lineValue_commented (h : Avoids ends text) (hcolon : colon ∉ text) (hlength : text.length < 128)
    (comment : List UInt8) :
    lineValue zapchannelLine (commented text comment) []
      = (zapRest.run (comment ++ [newline, 0])).map fun r => r.1 text := by
  have hbuf : lineBuf (commented text comment) [] = text ++ 0 :: (comment ++ [newline, 0]) := by
    rw [lineBuf, commented, List.append_assoc, List.cons_append, cutLine_append h (by simp)]
    simp
  have hname : (parseString colon 128).run (text ++ 0 :: (comment ++ [newline, 0]))
      = some (text, comment ++ [newline, 0]) := by
    rw [parseString_stop ⟨h 0 (by simp), hcolon⟩ (.inl rfl), if_pos (Nat.succ_le_of_lt hlength)]
  rw [lineValue, hbuf, zapchannelLine, run_bind_some hname, StateT.run_bind]
  cases zapRest.run (comment ++ [newline, 0]) <;> rfl

theorem lineValue_commented_differs (h : Avoids ends text) (hcolon : colon ∉ text) (hlength : text.length < 128) :
    (lineValue zapchannelLine (commented text channelComment) []).isSome = true
      ∧ lineValue zapchannelLine (commented text []) [] = none := by
  have hsome : (zapRest.run (channelComment ++ [newline, 0])).isSome = true := by decide
  have hnone : (zapRest.run ([] ++ [newline, 0])).isNone = true := by decide
  rw [lineValue_commented h hcolon hlength, lineValue_commented h hcolon hlength, Option.isSome_map]
  exact ⟨hsome, Option.map_eq_none_iff.mpr (Option.isNone_iff_eq_none.mp hnone)⟩

theorem getlines_cons {rest : List (List UInt8)} (h : getlines file = line :: rest) :
    ∃ behind, getlines behind = rest
      ∧ (rest ≠ [] → ∃ text, newline ∉ text ∧ line = text ++ [newline]) := by
  induction file generalizing line rest with
  | nil => exact absurd h (List.cons_ne_nil _ _).symm
  | cons c file ih =>
    rw [getlines] at h
    split at h
    next hnewline =>
      obtain ⟨rfl, rfl⟩ := List.cons.inj h
      exact ⟨file, rfl, fun _ => ⟨[], List.not_mem_nil, by rw [hnewline, List.nil_append]⟩⟩
    next hnewline =>
      cases hfile : getlines file with
      | nil =>
        rw [hfile] at h
        obtain ⟨rfl, rfl⟩ := List.cons.inj h
        exact ⟨[], rfl, fun hne => absurd rfl hne⟩
      | cons l ls =>
        rw [hfile] at h
        obtain ⟨rfl, rfl⟩ := List.cons.inj h
        obtain ⟨behind, hbehind, hline⟩ := ih hfile
        refine ⟨behind, hbehind, fun hne => ?_⟩
        obtain ⟨text, htext, rfl⟩ := hline hne
        exact ⟨c :: text, by simp [htext, Ne.symm hnewline], rfl⟩

theorem getlines_replace {before behind : List (List UInt8)} (h : getlines file = before ++ line :: behind)
    (htext : newline ∉ text) : ∃ file', getlines file' = before ++ (text ++ [newline]) :: behind := by
  induction before generalizing file with
  | nil =>
    obtain ⟨rest, hrest, -⟩ := getlines_cons h
    exact ⟨text ++ newline :: rest, by rw [getlines_append htext, hrest, List.nil_append]⟩
  | cons first before ih =>
    obtain ⟨rest, hrest, hfirst⟩ := getlines_cons h
    obtain ⟨start, hstart, rfl⟩ := hfirst (by simp)
    obtain ⟨file', hfile'⟩ := ih hrest
    exact ⟨start ++ newline :: file', by rw [getlines_append hstart, hfile', List.cons_append]⟩

theorem deliver_collect {β : Type} (tmps s : List β) :
    deliver (fun s tmp => (0, s ++ [tmp])) tmps s = (0, s ++ tmps) := by
  induction tmps generalizing s with
  | nil => rw [List.append_nil, deliver]
  | cons tmp tmps ih =>
    rw [deliver]
    simp [ih]

theorem ZapUndisturbed.yields_eq {file' : List UInt8} (h : ZapUndisturbed file) (hagree : Agree file file') :
    yields zapchannelLine (fun _ => []) 0 (getlines file)
      = yields zapchannelLine (fun _ => []) 0 (getlines file') := by
  have hparse := h file' hagree (List Zapchannel) (fun s tmp => (0, s ++ [tmp])) (fun _ => []) (fun _ => []) []
  unfold zapchannelParse at hparse
  rw [parseLines_eq_deliver, parseLines_eq_deliver, deliver_collect, deliver_collect] at hparse
  simpa using congrArg Prod.snd hparse

theorem avoids_textBefore (h : 0 ∉ line) : Avoids ends (textBefore line) ∧ lineText line = textBefore line := by
  have hmem : ∀ c ∈ textBefore line, c ≠ 0 ∧ c ≠ newline ∧ c ≠ hash := by
    intro c hc
    have hzero : c ≠ 0 := fun heq => h (heq ▸ (List.takeWhile_subset _) hc)
    have htext : c ≠ newline ∧ c ≠ hash := by simpa using List.mem_takeWhile_imp hc
    exact ⟨hzero, htext⟩
  constructor
  · intro c hend hc
    obtain ⟨hzero, hnewline, hhash⟩ := hmem c hc
    rcases mem_ends.mp hend with heq | heq | heq
    · exact hzero heq
    · exact hnewline heq
    · exact hhash heq
  · have hcstr := cstr_append (fun hc => (hmem 0 hc).1 rfl) ([] : List UInt8)
    simpa [lineText] using hcstr

/-- **Every name ends** in a file that is undisturbed and holds no NUL byte. -/
theorem nameEnds_of_undisturbed (hzero : 0 ∉ file) (h : ZapUndisturbed file) :
    ∀ line ∈ getlines file, NameEnds line := by
  intro line hline
  by_contra hnot
  have hline0 : 0 ∉ line := fun hmem => hzero (getlines_flatten file ▸ List.mem_flatten_of_mem hline hmem)
  obtain ⟨hends, htext⟩ := avoids_textBefore hline0
  rw [NameEnds, htext, not_or, Nat.not_le] at hnot
  obtain ⟨hcolon, hlength⟩ := hnot
  obtain ⟨before, behind, hlines⟩ := List.append_of_mem hline
  -- the file with another comment on this line, and what it yields
  have hyields (comment : List UInt8) (hcomment : newline ∉ comment) :
      yields zapchannelLine (fun _ => []) 0 (getlines file)
        = yields zapchannelLine (fun _ => []) 0 before
          ++ ((lineValue zapchannelLine (commented (textBefore line) comment) []).toList
            ++ yields zapchannelLine (fun _ => []) (before.length + 1) behind) := by
    have hnewline : newline ∉ textBefore line ++ hash :: comment := by
      rw [List.mem_append, List.mem_cons, not_or, not_or]
      exact ⟨hends newline (by simp), by decide, hcomment⟩
    obtain ⟨file', hfile'⟩ := getlines_replace hlines hnewline
    rw [List.append_assoc, List.cons_append] at hfile'
    have hagree : Agree file file' := by
      rw [Agree, hlines, hfile', List.map_append, List.map_append, List.map_cons, List.map_cons,
        ← commented, textBefore_commented hends]
    rw [h.yields_eq hagree, hfile', yields_append, Nat.zero_add, yields]
    rfl
  obtain ⟨hsome, hnone⟩ := lineValue_commented_differs hends hcolon hlength
  have hone := hyields channelComment (by decide)
  rw [hyields [] List.not_mem_nil, hnone] at hone
  have hlen := congrArg List.length (List.append_cancel_left hone)
  obtain ⟨channel, hchannel⟩ := Option.isSome_iff_exists.mp hsome
  rw [hchannel] at hlen
  simp at hlen

/-- **Which files are undisturbed.** -/
theorem undisturbed (file : List UInt8) :
    ScanUndisturbed file
      ∧ ((∀ line ∈ getlines file, NameEnds line) → ZapUndisturbed file)
      ∧ (0 ∉ file → (ZapUndisturbed file ↔ ∀ line ∈ getlines file, NameEnds line)) :=
  ⟨scan_undisturbed file, zap_undisturbed,
    fun hzero => ⟨nameEnds_of_undisturbed hzero, zap_undisturbed⟩⟩

def nameOnly : List UInt8 := commented (ascii ['N', 'A', 'M', 'E']) []

theorem not_undisturbed_name : ¬ ZapUndisturbed nameOnly := by
  intro h
  have hagree : Agree nameOnly (commented (ascii ['N', 'A', 'M', 'E']) channelComment) := by decide
  have hsame := h.yields_eq hagree
  have hdiffers : (yields zapchannelLine (fun _ => []) 0 (getlines nameOnly)).length = 0
      ∧ (yields zapchannelLine (fun _ => []) 0
        (getlines (commented (ascii ['N', 'A', 'M', 'E']) channelComment))).length = 1 := by decide
  rw [hsame] at hdiffers
  exact absurd (hdiffers.1.symm.trans hdiffers.2) (by decide)

end BgtDvb.Dvbcfg
