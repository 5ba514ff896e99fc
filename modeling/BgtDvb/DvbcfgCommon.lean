import BgtDvb.Lib.CString
import BgtDvb.Lib.ScanInt

/-!
# The tokenisers of libdvbcfg

The channel files are text, a record on a line, fields between separators.  The parsers read a line into a
buffer that they reuse, cut it at a comment, and move a cursor over it from token to token.

* `parseSetting_lookup`, `parseInt_print` — **PROVED**: fields are read back as they were printed;
* `parseInt_local`, `parseChar_local`, `parseSetting_local` — **PROVED**: these three stay in front of the
  terminator;
* `parseString_view` — **PROVED**: when the fourth does.

The search for a separator in `dvbcfg_parse_string` also finds the terminator, and the cursor is put
behind what it finds.
-/

namespace BgtDvb.Dvbcfg

open BgtDvb.CString
open BgtDvb.CString.Reader
open BgtDvb.ScanInt

/-! ### The parameters of a frontend -/

inductive SpectralInversion
  | off | on | auto
  deriving DecidableEq, Repr

inductive CodeRate
  | none | fec12 | fec23 | fec34 | fec45 | fec56 | fec67 | fec78 | fec89 | auto
  deriving DecidableEq, Repr

inductive DvbtConst
  | qpsk | qam16 | qam32 | qam64 | qam128 | qam256 | auto
  deriving DecidableEq, Repr

inductive DvbcMod
  | qam16 | qam32 | qam64 | qam128 | qam256 | auto
  deriving DecidableEq, Repr

inductive AtscMod
  | qam64 | qam256 | vsb8 | vsb16 | auto
  deriving DecidableEq, Repr

inductive TransmitMode
  | mode2k | mode8k | auto
  deriving DecidableEq, Repr

inductive Bandwidth
  | mhz8 | mhz7 | mhz6 | auto
  deriving DecidableEq, Repr

inductive GuardInterval
  | guard32 | guard16 | guard8 | guard4 | auto
  deriving DecidableEq, Repr

inductive Hierarchy
  | none | one | two | four | auto
  deriving DecidableEq, Repr

/-- The union of `dvbfe_parameters`, by the frontend type.  `Sat` is what a record keeps for DVB-S only. -/
inductive Frontend (Sat : Type)
  | dvbs (symbolRate : BitVec 32) (fecInner : CodeRate) (sat : Sat)
  | dvbc (symbolRate : BitVec 32) (fecInner : CodeRate) (modulation : DvbcMod)
  | dvbt (bandwidth : Bandwidth) (codeRateHP codeRateLP : CodeRate) (constellation : DvbtConst)
      (transmissionMode : TransmitMode) (guardInterval : GuardInterval) (hierarchyInformation : Hierarchy)
  | atsc (modulation : AtscMod)
  deriving DecidableEq, Repr

structure Parameters (Sat : Type) where
  frequency : BitVec 32
  inversion : SpectralInversion
  u : Frontend Sat
  deriving DecidableEq, Repr

/-! ### Settings -/

def Avoids (bad text : List UInt8) : Prop := ∀ c ∈ bad, c ∉ text

theorem avoids_iff_all (bad text : List UInt8) :
    (text.all fun c => !bad.contains c) = true ↔ Avoids bad text := by
  simp only [List.all_eq_true, Bool.not_eq_true', List.contains_eq_mem, decide_eq_false_iff_not, Avoids]
  exact ⟨fun h c hbad hc => h c hc hbad, fun h c hc hbad => h c hbad hc⟩

instance (bad text : List UInt8) : Decidable (Avoids bad text) :=
  decidable_of_iff _ (avoids_iff_all bad text)

def Plain (sep : UInt8) (text : List UInt8) : Prop := 0 ∉ text ∧ sep ∉ text

instance (sep : UInt8) (text : List UInt8) : Decidable (Plain sep text) :=
  inferInstanceAs (Decidable (_ ∧ _))

variable {text : List UInt8} {sep c : UInt8} {size : ℕ}

theorem Plain.ne (h : Plain sep text) : ∀ c ∈ text, c ≠ 0 ∧ c ≠ sep :=
  fun _ hc => ⟨fun hzero => h.1 (hzero ▸ hc), fun hsep => h.2 (hsep ▸ hc)⟩

def hash : UInt8 := 35

def newline : UInt8 := 10

def ends : List UInt8 := [0, newline, hash]

@[simp] theorem mem_ends : c ∈ ends ↔ c = 0 ∨ c = newline ∨ c = hash := by
  simp [ends]

/-- A text as bytes; characters, since evaluating a string literal decodes it first. -/
def ascii (text : List Char) : List UInt8 := text.map fun c => UInt8.ofNat c.toNat

/-- `dvbcfg_setting` -/
structure Setting (α : Type) where
  name : List UInt8
  value : α

/-- A table of settings whose names can be told apart and end neither a field nor a line. -/
structure SettingTable (sep : UInt8) (α : Type) where
  rows : List (Setting α)
  nodup : (rows.map Setting.name).Nodup := by decide
  plain : ∀ row ∈ rows, Avoids (sep :: ends) row.name := by decide

theorem SettingTable.plain_row {α : Type} (settings : SettingTable sep α) (row : Setting α) (h : row ∈ settings.rows) :
    Plain sep row.name :=
  ⟨settings.plain row h 0 (by simp), settings.plain row h sep List.mem_cons_self⟩

/-- `dvbcfg_lookup_setting`; `none` for NULL. -/
def lookupSetting {sep : UInt8} {α : Type} [DecidableEq α] (setting : α) (settings : SettingTable sep α) :
    Option (List UInt8) :=
  (settings.rows.find? fun row => setting = row.value).map Setting.name

/-! ### Tokens -/

/-- `sscanf` with `%i`: `strtol` keeps the number within 64 bits, and the low 32 are stored. -/
def sscanfInt (text : List UInt8) : Option (BitVec 32) :=
  (scanInt text).map fun v => BitVec.ofInt 32 (max (-2 ^ 63) (min v (2 ^ 63 - 1)))

/-- `dvbcfg_parse_int` -/
def parseInt (sep : UInt8) : Reader UInt8 (BitVec 32) := do
  let start ← token [sep]
  match sscanfInt start with
  | some value => pure value
  | none => failure

/-- `dvbcfg_parse_char` -/
def parseChar (sep : UInt8) : Reader UInt8 UInt8 := do
  let start ← token [sep]
  match start with
  | value :: _ => pure value
  | [] => failure

/-- `dvbcfg_parse_setting` -/
def parseSetting {α : Type} {sep : UInt8} (settings : SettingTable sep α) : Reader UInt8 α := do
  let start ← token [sep]
  match settings.rows.find? fun row => start = row.name with
  | some row => pure row.value
  | none => failure

/-- `strchr(tokens, c)` found something; the terminator of `tokens` counts. -/
def strchr (tokens : List UInt8) (c : UInt8) : Bool := c ∈ tokens ∨ c = 0

/-- `dvbcfg_parse_string` with a buffer of `size` bytes. -/
def parseString (sep : UInt8) (size : ℕ) : Reader UInt8 (List UInt8) := fun mem =>
  let inside := fun c => c != 0 && !strchr [sep] c
  let dest := mem.takeWhile inside
  if dest.length + 1 ≤ size then
    match mem.dropWhile inside with
    | c :: behind => if strchr [sep] c then some (dest, behind) else some (dest, c :: behind)
    | [] => some (dest, [])
  else none

/-- `tolower` of the C locale. -/
def tolower (c : UInt8) : UInt8 := if 65 ≤ c ∧ c ≤ 90 then c + 32 else c

def polarizations : List UInt8 := [104, 118, 108, 114]

/-! ### Lines -/

/-- What `getline` returns until the end of the file. -/
def getlines : List UInt8 → List (List UInt8)
  | [] => []
  | c :: file =>
    if c = newline then [c] :: getlines file
    else
      match getlines file with
      | [] => [[c]]
      | line :: rest => (c :: line) :: rest

/-- The newline or the comment is cut off: a terminator is written there. -/
def cutLine : List UInt8 → List UInt8
  | [] => []
  | c :: mem => if c = 0 ∨ c = newline ∨ c = hash then 0 :: mem else c :: cutLine mem

/-- The line buffer after `getline` and the cut; `left` is the memory behind the terminator of `getline`, which
earlier lines or others may have written. -/
def lineBuf (line left : List UInt8) : List UInt8 := cutLine (line ++ 0 :: left)

def lineValue {β : Type} (reader : Reader UInt8 β) (line left : List UInt8) : Option β :=
  (reader.run (lineBuf line left)).map Prod.fst

section

variable {β σ : Type} (reader : Reader UInt8 β) (callback : σ → β → ℤ × σ) (left : ℕ → List UInt8)

/-- The loop of the parsers over the lines from number `k` on; a callback that does not return 0 ends it. -/
def parseLines : ℕ → List (List UInt8) → σ → ℤ × σ
  | _, [], s => (0, s)
  | k, line :: lines, s =>
    match lineValue reader line (left k) with
    | none => parseLines (k + 1) lines s
    | some tmp =>
      let (retVal, s) := callback s tmp
      if retVal ≠ 0 then (if retVal < 0 then 0 else retVal, s) else parseLines (k + 1) lines s

/-- Records handed to the callback until it does not return 0. -/
def deliver : List β → σ → ℤ × σ
  | [], s => (0, s)
  | tmp :: tmps, s =>
    let (retVal, s) := callback s tmp
    if retVal ≠ 0 then (if retVal < 0 then 0 else retVal, s) else deliver tmps s

/-- What the lines from number `k` on yield. -/
def yields : ℕ → List (List UInt8) → List β
  | _, [] => []
  | k, line :: lines => (lineValue reader line (left k)).toList ++ yields (k + 1) lines

theorem parseLines_eq_deliver (k : ℕ) (lines : List (List UInt8)) (s : σ) :
    parseLines reader callback left k lines s = deliver callback (yields reader left k lines) s := by
  induction lines generalizing k s with
  | nil => rfl
  | cons line lines ih =>
    rw [parseLines, yields]
    cases lineValue reader line (left k) with
    | none => exact ih (k + 1) s
    | some tmp =>
      rw [Option.toList_some, List.singleton_append, deliver]
      simp only [ih]

theorem yields_append (k : ℕ) (xs ys : List (List UInt8)) :
    yields reader left k (xs ++ ys)
      = yields reader left k xs ++ yields reader left (k + xs.length) ys := by
  induction xs generalizing k with
  | nil => rfl
  | cons line xs ih =>
    rw [List.cons_append, yields, yields, ih, List.append_assoc, List.length_cons, Nat.add_assoc,
      Nat.add_comm 1]

theorem yields_filterMap (line : ι → List UInt8) (value : ι → Option β) (items : List ι)
    (h : ∀ i ∈ items, ∀ left, lineValue reader (line i) left = value i) (k : ℕ) :
    yields reader left k (items.map line) = items.filterMap value := by
  induction items generalizing k with
  | nil => rfl
  | cons i items ih =>
    have hrest := ih (fun j hj => h j (List.mem_cons_of_mem i hj)) (k + 1)
    rw [List.map_cons, yields, h i List.mem_cons_self, hrest]
    cases hvalue : value i with
    | none => rw [List.filterMap_cons_none hvalue, Option.toList_none, List.nil_append]
    | some tmp => rw [List.filterMap_cons_some hvalue, Option.toList_some, List.singleton_append]

theorem yields_map (line : ι → List UInt8) (value : ι → β) (items : List ι)
    (h : ∀ i ∈ items, ∀ left, lineValue reader (line i) left = some (value i)) (k : ℕ) :
    yields reader left k (items.map line) = items.map value := by
  rw [yields_filterMap reader left line (fun i => some (value i)) items h k]
  exact congrFun List.filterMap_eq_map' items

end

theorem getlines_flatten (file : List UInt8) : (getlines file).flatten = file := by
  induction file with
  | nil => rfl
  | cons c file ih =>
    rw [getlines]
    split
    · rw [List.flatten_cons, ih, List.singleton_append]
    · cases hfile : getlines file with
      | nil =>
        rw [hfile] at ih
        rw [← ih]
        rfl
      | cons line rest =>
        rw [hfile, List.flatten_cons] at ih
        rw [List.flatten_cons, List.cons_append, ih]

theorem getlines_append (h : newline ∉ text) (file : List UInt8) :
    getlines (text ++ newline :: file) = (text ++ [newline]) :: getlines file := by
  induction text with
  | nil => simp [getlines]
  | cons c text ih =>
    rw [List.mem_cons, not_or] at h
    rw [List.cons_append, getlines, if_neg (Ne.symm h.1), ih h.2]
    rfl

theorem getlines_flatMap {ι : Type} {text : ι → List UInt8} {items : List ι}
    (h : ∀ i ∈ items, newline ∉ text i) :
    getlines (items.flatMap fun i => text i ++ [newline]) = items.map fun i => text i ++ [newline] := by
  induction items with
  | nil => rfl
  | cons i items ih =>
    rw [List.flatMap_cons, List.append_assoc, List.singleton_append,
      getlines_append (h i List.mem_cons_self), ih fun j hj => h j (List.mem_cons_of_mem i hj), List.map_cons]

theorem cutLine_append (h : Avoids ends text) (hc : c ∈ ends) (mem : List UInt8) :
    cutLine (text ++ c :: mem) = text ++ 0 :: mem := by
  induction text with
  | nil => simp [cutLine, mem_ends.mp hc]
  | cons d text ih =>
    have hd : d ∉ ends := fun hd => h d hd List.mem_cons_self
    have htext : Avoids ends text := fun e he hmem => h e he (List.mem_cons_of_mem d hmem)
    rw [List.cons_append, cutLine, if_neg (mem_ends.not.mp hd), ih htext, List.cons_append]

/-! ### Fields are read back -/

theorem token_append (hsep : sep ≠ 0) {field : List UInt8} (h : Plain sep field) (mem : List UInt8) :
    (token [sep]).run (field ++ sep :: mem) = some (field, mem) :=
  congrArg some (cutToken_append hsep (List.mem_singleton.mpr rfl)
    (fun c hc => ⟨(h.ne c hc).1, by simpa using (h.ne c hc).2⟩) mem)

theorem token_last {field : List UInt8} (h : Plain sep field) (mem : List UInt8) :
    (token [sep]).run (field ++ 0 :: mem) = some (field, 0 :: mem) :=
  congrArg some (cutToken_last (fun c hc => ⟨(h.ne c hc).1, by simpa using (h.ne c hc).2⟩) mem)

theorem sscanfInt_printInt (x : BitVec 32) : sscanfInt (printInt x.toInt) = some x := by
  have hlow := BitVec.le_toInt x
  have hhigh := BitVec.toInt_lt (x := x)
  have hclamp : max (-2 ^ 63) (min x.toInt (2 ^ 63 - 1)) = x.toInt := by omega
  rw [sscanfInt, scanInt_printInt, Option.map_some, hclamp, BitVec.ofInt_toInt]

theorem find?_lookup {α : Type} [DecidableEq α] {settings : SettingTable sep α} {setting : α} {name : List UInt8}
    (h : lookupSetting setting settings = some name) :
    ∃ row ∈ settings.rows, row.name = name ∧ row.value = setting
      ∧ settings.rows.find? (fun row => name = row.name) = some row := by
  obtain ⟨row, hrow, hname⟩ := Option.map_eq_some_iff.mp h
  have hmem : row ∈ settings.rows := List.mem_of_find?_eq_some hrow
  have hvalue : setting = row.value := by simpa using List.find?_some hrow
  refine ⟨row, hmem, hname, hvalue.symm, ?_⟩
  cases hfind : settings.rows.find? (fun row => name = row.name) with
  | none =>
    have hnone := List.find?_eq_none.mp hfind row hmem
    exact absurd hname.symm (by simpa using hnone)
  | some other =>
    have hother : name = other.name := by simpa using List.find?_some hfind
    have hsame : other = row :=
      List.inj_on_of_nodup_map settings.nodup (List.mem_of_find?_eq_some hfind) hmem
        (hother.symm.trans hname.symm)
    rw [hsame]

theorem printInt_plain (hsep : sep ≠ 45 ∧ ¬ (48 ≤ sep ∧ sep ≤ 57)) (v : ℤ) : Plain sep (printInt v) := by
  constructor
  · intro hzero
    exact absurd (mem_printInt hzero) (by decide)
  · intro hmem
    rcases mem_printInt hmem with heq | hdigit
    · exact hsep.1 heq
    · exact hsep.2 hdigit

section

variable {sep : UInt8} (hsep : sep ≠ 0)

include hsep

theorem parseInt_print (hnum : sep ≠ 45 ∧ ¬ (48 ≤ sep ∧ sep ≤ 57)) (x : BitVec 32) (mem : List UInt8) :
    (parseInt sep).run (printInt x.toInt ++ sep :: mem) = some (x, mem) := by
  rw [parseInt, StateT.run_bind, token_append hsep (printInt_plain hnum x.toInt)]
  simp [sscanfInt_printInt]

theorem parseChar_print {c : UInt8} (hc : Plain sep [c]) (mem : List UInt8) :
    (parseChar sep).run ([c] ++ sep :: mem) = some (c, mem) := by
  rw [parseChar, StateT.run_bind, token_append hsep hc]
  rfl

theorem parseSetting_lookup [DecidableEq α] {settings : SettingTable sep α} {setting : α} {name : List UInt8}
    (h : lookupSetting setting settings = some name) (mem : List UInt8) :
    (parseSetting settings).run (name ++ sep :: mem) = some (setting, mem) := by
  obtain ⟨row, hmem, hname, hvalue, hfind⟩ := find?_lookup h
  rw [parseSetting, StateT.run_bind, token_append hsep (hname ▸ settings.plain_row row hmem)]
  simp [hfind, hvalue]

end

theorem parseInt_last (hnum : sep ≠ 45 ∧ ¬ (48 ≤ sep ∧ sep ≤ 57)) (x : BitVec 32) (mem : List UInt8) :
    (parseInt sep).run (printInt x.toInt ++ 0 :: mem) = some (x, 0 :: mem) := by
  rw [parseInt, StateT.run_bind, token_last (printInt_plain hnum x.toInt)]
  simp [sscanfInt_printInt]

/-! ### What the tokenisers look at -/

theorem parseInt_local (sep : UInt8) : Local (parseInt sep) :=
  (token_local [sep]).bind fun start => by
    cases sscanfInt start with
    | none => exact Local.failure
    | some value => exact Local.pure value

theorem parseChar_local (sep : UInt8) : Local (parseChar sep) :=
  (token_local [sep]).bind fun start => by
    cases start with
    | nil => exact Local.failure
    | cons value _ => exact Local.pure value

theorem parseSetting_local {α : Type} (settings : SettingTable sep α) : Local (parseSetting settings) :=
  (token_local [sep]).bind fun start => by
    cases settings.rows.find? fun row => start = row.name with
    | none => exact Local.failure
    | some row => exact Local.pure row.value

theorem parseString_stop (h : Plain sep text) (hc : c = 0 ∨ c = sep) (mem : List UInt8) :
    (parseString sep size).run (text ++ c :: mem)
      = if text.length + 1 ≤ size then some (text, mem) else none := by
  have htext : ∀ d ∈ text, (d != 0 && !strchr [sep] d) = true := by
    intro d hd
    simp [strchr, h.ne d hd]
  have hfound : strchr [sep] c = true := by
    rcases hc with rfl | rfl <;> simp [strchr]
  have hstop : (c != 0 && !strchr [sep] c) = false := by
    rw [hfound, Bool.not_true, Bool.and_false]
  show parseString sep size (text ++ c :: mem) = _
  rw [parseString]
  simp only [List.takeWhile_append_of_pos htext, List.dropWhile_append_of_pos htext,
    List.takeWhile_cons, List.dropWhile_cons, hstop, Bool.false_eq_true, if_false, List.append_nil]
  rw [if_pos hfound]

theorem parseString_long (h : Plain sep text) (hsize : size ≤ text.length) (mem : List UInt8) :
    (parseString sep size).run (text ++ mem) = none := by
  have htext : ∀ d ∈ text, (d != 0 && !strchr [sep] d) = true := by
    intro d hd
    simp [strchr, h.ne d hd]
  show parseString sep size (text ++ mem) = _
  rw [parseString]
  simp only [List.takeWhile_append_of_pos htext, List.length_append]
  rw [if_neg (by omega)]

/-- **The string is enough** if it holds the separator or does not fit. -/
theorem parseString_view (hsep : sep ≠ 0) {mem mem' : List UInt8} (hstr : cstr mem = cstr mem')
    (h : sep ∈ cstr mem ∨ size ≤ (cstr mem).length) :
    view (parseString sep size) mem = view (parseString sep size) mem' := by
  have hsplit (mem : List UInt8) : ∃ behind, mem = cstr mem ++ behind :=
    ⟨mem.dropWhile (· ≠ 0), List.takeWhile_append_dropWhile.symm⟩
  by_cases hmem : sep ∈ cstr mem
  · obtain ⟨text, rest, heq, htext⟩ := List.eq_append_cons_of_mem hmem
    -- the separator stands in the string, so the cursor stays in it
    have hview (mem : List UInt8) (hcstr : cstr mem = text ++ sep :: rest) :
        view (parseString sep size) mem = if text.length + 1 ≤ size then some (text, rest) else none := by
      obtain ⟨behind, hbehind⟩ := hsplit mem
      have hzero := zero_notMem_cstr mem
      rw [hcstr] at hbehind hzero
      have hplain : Plain sep text := ⟨fun h => hzero (List.mem_append_left _ h), htext⟩
      have hrest : cstr (rest ++ behind) = rest := by
        have hcut : cstr mem = text ++ sep :: cstr (rest ++ behind) := by
          rw [hbehind, List.append_assoc, List.cons_append,
            cstr_append hplain.1, cstr_cons hsep]
        rw [hcstr] at hcut
        exact (List.cons.inj (List.append_cancel_left hcut)).2.symm
      rw [hbehind, List.append_assoc, List.cons_append, view, parseString_stop hplain (.inr rfl)]
      split
      · rw [Option.map_some, hrest]
      · rfl
    rw [hview mem heq, hview mem' (hstr ▸ heq)]
  · have hnone (mem : List UInt8) (hnot : sep ∉ cstr mem) (hsize : size ≤ (cstr mem).length) :
        view (parseString sep size) mem = none := by
      obtain ⟨behind, hbehind⟩ := hsplit mem
      rw [hbehind, view, parseString_long ⟨zero_notMem_cstr mem, hnot⟩ hsize]
      rfl
    have hsize := h.resolve_left hmem
    rw [hnone mem hmem hsize, hnone mem' (hstr ▸ hmem) (hstr ▸ hsize)]

end BgtDvb.Dvbcfg
