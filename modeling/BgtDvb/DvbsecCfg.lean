import BgtDvb.DvbcfgCommon

/-!
# SEC configuration files

`libdvbsec/dvbsec_cfg.c` keeps satellite equipment configurations in a file of sections: a header in
brackets, and lines of a key, `=` and a value.

* `loadLines_savedKeys` — **PROVED**: inside a section, the keys that were written are read back;
* `roundTrip_iff` — **PROVED**: but the section header that is written is not the one that is read, so
  only the empty array makes the round trip.
-/

namespace BgtDvb.Dvbsec

open BgtDvb.ScanInt
open BgtDvb.Dvbcfg (ascii getlines newline hash ends Avoids tolower)

/-! ### Configurations -/

/-- `dvbsec_config_type` -/
inductive ConfigType
  | none | power | standard | advanced
  deriving DecidableEq, Repr

/-- Band and polarisation: what the eight LOF values and the eight commands are for. -/
inductive Slot
  | loV | loH | loL | loR | hiV | hiH | hiL | hiR
  deriving DecidableEq, Repr

/-- `dvbsec_config`; a string is the text in front of its terminator. -/
structure SecConfig where
  id : List UInt8
  switchFrequency : BitVec 32
  lof : Slot → BitVec 32
  configType : ConfigType
  advCmd : Slot → List UInt8

/-- After `memset`. -/
def SecConfig.zero : SecConfig := ⟨[], 0, fun _ => 0, .none, fun _ => []⟩

def idSize : ℕ := 32

def maxSecCmdLen : ℕ := 100

/-! ### Keys -/

inductive Key
  | name
  | switchFrequency
  | lof (slot : Slot)
  | configType
  | cmd (slot : Slot)
  deriving DecidableEq, Repr

def Slot.text : Slot → List UInt8
  | .loV => ascii ['l', 'o', '-', 'v']
  | .loH => ascii ['l', 'o', '-', 'h']
  | .loL => ascii ['l', 'o', '-', 'l']
  | .loR => ascii ['l', 'o', '-', 'r']
  | .hiV => ascii ['h', 'i', '-', 'v']
  | .hiH => ascii ['h', 'i', '-', 'h']
  | .hiL => ascii ['h', 'i', '-', 'l']
  | .hiR => ascii ['h', 'i', '-', 'r']

def Key.text : Key → List UInt8
  | .name => ascii ['n', 'a', 'm', 'e']
  | .switchFrequency => ascii ['s', 'w', 'i', 't', 'c', 'h', '-', 'f', 'r', 'e', 'q', 'u', 'e', 'n', 'c', 'y']
  | .lof slot => ascii ['l', 'o', 'f', '-'] ++ slot.text
  | .configType => ascii ['c', 'o', 'n', 'f', 'i', 'g', '-', 't', 'y', 'p', 'e']
  | .cmd slot => ascii ['c', 'm', 'd', '-'] ++ slot.text

def ConfigType.text : ConfigType → List UInt8
  | .none => ascii ['n', 'o', 'n', 'e']
  | .power => ascii ['p', 'o', 'w', 'e', 'r']
  | .standard => ascii ['s', 't', 'a', 'n', 'd', 'a', 'r', 'd']
  | .advanced => ascii ['a', 'd', 'v', 'a', 'n', 'c', 'e', 'd']

def keys : List Key := [
  .name, .switchFrequency,
  .lof .loV, .lof .loH, .lof .loL, .lof .loR, .lof .hiV, .lof .hiH, .lof .hiL, .lof .hiR,
  .configType,
  .cmd .loV, .cmd .loH, .cmd .loR, .cmd .loL, .cmd .hiV, .cmd .hiH, .cmd .hiR, .cmd .hiL]

/-! ### Reading -/

def openBracket : UInt8 := 91

def closeBracket : UInt8 := 93

def equalsSign : UInt8 := 61

/-- What is left of a line: cut at a comment, trimmed on both sides. -/
def lineText (line : List UInt8) : List UInt8 :=
  ((line.takeWhile fun c => c ≠ 0 ∧ c ≠ hash).dropWhile isSpace).rdropWhile isSpace

/-- `dvbcfg_issection`; it is enough that the name starts the header. -/
def isSection (line sectionname : List UInt8) : Bool :=
  if line.length < 2 then false
  else if line.head? ≠ some openBracket ∨ line.getLast? ≠ some closeBracket then false
  else sectionname.isPrefixOf (line.tail.dropWhile isSpace)

/-- `dvbcfg_iskey`: the value, if the line is for the key. -/
def isKey (line keyname : List UInt8) : Option (List UInt8) :=
  if keyname.isPrefixOf line then
    match (line.drop keyname.length).dropWhile isSpace with
    | [] => none
    | c :: rest => if c = equalsSign then some (rest.dropWhile isSpace) else none
  else none

/-- `atoi`: `strtol` keeps the number within 64 bits, and the low 32 are stored. -/
def atoi (value : List UInt8) : BitVec 32 :=
  BitVec.ofInt 32 (max (-2 ^ 63) (min ((decimal value).getD 0) (2 ^ 63 - 1)))

/-- `strncpy` into a field of `size` bytes. -/
def strncpy (size : ℕ) (value : List UInt8) : List UInt8 := value.take size

/-- The comparisons with the names of the types, which ignore case. -/
def parseConfigType (value : List UInt8) : Option ConfigType :=
  [ConfigType.none, .power, .standard, .advanced].find? fun t => value.map tolower = t.text

/-- What a key does; `none` leaves the section. -/
def Key.set (tmpsec : SecConfig) (value : List UInt8) : Key → Option SecConfig
  | .name => some { tmpsec with id := strncpy idSize value }
  | .switchFrequency => some { tmpsec with switchFrequency := atoi value }
  | .lof slot => some { tmpsec with lof := Function.update tmpsec.lof slot (atoi value) }
  | .configType => (parseConfigType value).map fun t => { tmpsec with configType := t }
  | .cmd slot => some { tmpsec with advCmd := Function.update tmpsec.advCmd slot (strncpy maxSecCmdLen value) }

def lookupKey (line : List UInt8) : Option (Key × List UInt8) :=
  keys.findSome? fun key => (isKey line key.text).map fun value => (key, value)

def secName : List UInt8 := ascii ['s', 'e', 'c']

section

variable {σ : Type} (callback : σ → SecConfig → ℤ × σ)

/-- The loop of `dvbsec_cfg_load`; a callback that does not return 0 ends it. -/
def loadLines : Bool → SecConfig → List (List UInt8) → σ → σ
  | insection, tmpsec, [], s => if insection = true then (callback s tmpsec).2 else s
  | insection, tmpsec, line :: lines, s =>
    if lineText line = [] then loadLines insection tmpsec lines s
    else if isSection (lineText line) secName = true then
      if insection = true then
        if (callback s tmpsec).1 ≠ 0 then (callback s tmpsec).2
        else loadLines true .zero lines (callback s tmpsec).2
      else loadLines true .zero lines s
    else
      match lookupKey (lineText line) with
      | none => loadLines false tmpsec lines s
      | some (key, value) =>
        match key.set tmpsec value with
        | none => loadLines false tmpsec lines s
        | some tmpsec => loadLines insection tmpsec lines s

/-- `dvbsec_cfg_load`; `left` is what the stack holds where `tmpsec` lies. -/
def dvbsecCfgLoad (left : SecConfig) (file : List UInt8) (s : σ) : ℤ × σ :=
  (0, loadLines callback false left (getlines file) s)

end

/-! ### Writing -/

def lofSlots : List Slot := [.loV, .loH, .loL, .loR, .hiV, .hiH, .hiL, .hiR]

def cmdSlots : List Slot := [.loH, .loV, .loR, .loL, .hiH, .hiV, .hiR, .hiL]

/-- The keys that `dvbsec_cfg_save` writes for a configuration, and their values. -/
def savedKeys (c : SecConfig) : List (Key × List UInt8) :=
  [(.switchFrequency, printInt c.switchFrequency.toInt)]
    ++ (lofSlots.filter fun slot => decide (c.lof slot ≠ 0)).map (fun slot =>
      (.lof slot, printInt (c.lof slot).toInt))
    ++ [(.configType, c.configType.text)]
    ++ if c.configType = .advanced then
        (cmdSlots.filter fun slot => decide (c.advCmd slot ≠ [])).map fun slot => (.cmd slot, c.advCmd slot)
      else []

def keyLine (p : Key × List UInt8) : List UInt8 := p.1.text ++ equalsSign :: p.2

def lnbHeader : List UInt8 := ascii ['[', 'l', 'n', 'b', ']']

def savedLines (c : SecConfig) : List (List UInt8) :=
  lnbHeader :: (savedKeys c).map keyLine ++ [[]]

/-- `dvbsec_cfg_save`; no write fails. -/
def dvbsecCfgSave (secs : List SecConfig) : List UInt8 :=
  secs.flatMap fun c => (savedLines c).flatMap fun line => line ++ [newline]

/-! ### A line is read back -/

/-- No white space on either side. -/
structure Trimmed (text : List UInt8) : Prop where
  head : ∀ c ∈ text.head?, isSpace c = false
  last : ∀ c ∈ text.getLast?, isSpace c = false

theorem Trimmed.dropWhile {text : List UInt8} (h : Trimmed text) : text.dropWhile isSpace = text := by
  cases text with
  | nil => rfl
  | cons c text => exact List.dropWhile_cons_of_neg (by simp [h.head c rfl])

theorem lineText_append {text : List UInt8} (hends : Avoids ends text) (h : Trimmed text) :
    lineText (text ++ [newline]) = text := by
  have hcut : (text ++ [newline]).takeWhile (fun c => decide (c ≠ 0 ∧ c ≠ hash)) = text ++ [newline] := by
    refine List.takeWhile_eq_self_iff.mpr fun c hc => decide_eq_true ?_
    rcases List.mem_append.mp hc with hc | hc
    · exact ⟨fun hzero => hends 0 (by simp) (hzero ▸ hc), fun hhash => hends hash (by simp) (hhash ▸ hc)⟩
    · rw [List.mem_singleton.mp hc]
      decide
  unfold lineText
  rw [hcut]
  cases text with
  | nil => rfl
  | cons c text =>
    rw [List.cons_append, List.dropWhile_cons_of_neg (by simp [h.head c rfl]), ← List.cons_append,
      List.rdropWhile_concat_pos _ _ _ (by decide), List.rdropWhile_eq_self_iff]
    intro hne
    rw [h.last _ (List.getLast?_eq_some_getLast hne)]
    decide

theorem equalsSign_notMem_keys : ∀ key ∈ keys, equalsSign ∉ key.text := by decide

theorem keys_not_prefix : keys.Pairwise fun key key' => key.text.isPrefixOf key'.text = false := by decide

theorem keys_head : ∀ key ∈ keys, key.text ≠ [] ∧ Avoids ends key.text ∧
    (∀ c ∈ key.text.head?, isSpace c = false ∧ c ≠ openBracket) := by decide +kernel

variable {key : Key} {value : List UInt8} {c : SecConfig} {p : Key × List UInt8}

theorem isKey_keyLine (h : value.dropWhile isSpace = value) : isKey (keyLine (key, value)) key.text = some value := by
  have hstarts : key.text.isPrefixOf (keyLine (key, value)) = true :=
    List.isPrefixOf_iff_prefix.mpr (List.prefix_append _ _)
  have hdrop : (keyLine (key, value)).drop key.text.length = equalsSign :: value := List.drop_left
  rw [isKey, if_pos hstarts, hdrop, List.dropWhile_cons_of_neg (by decide)]
  dsimp only
  rw [if_pos rfl, h]

theorem isKey_keyLine_other {key' : Key} (hother : key'.text.isPrefixOf key.text = false)
    (hequals : equalsSign ∉ key'.text) : isKey (keyLine (key, value)) key'.text = none := by
  refine if_neg fun hstarts => ?_
  have hstarts := List.isPrefixOf_iff_prefix.mp hstarts
  rcases List.prefix_or_prefix_of_prefix hstarts (List.prefix_append key.text (equalsSign :: value)) with h | h
  · rw [List.isPrefixOf_iff_prefix.mpr h] at hother
    cases hother
  · obtain ⟨rest, hrest⟩ := h
    rw [← hrest, keyLine, List.prefix_append_right_inj] at hstarts
    cases rest with
    | nil =>
      rw [List.append_nil] at hrest
      rw [hrest, List.isPrefixOf_iff_prefix.mpr (List.prefix_refl _)] at hother
      cases hother
    | cons c rest =>
      rw [List.cons_prefix_cons] at hstarts
      rw [← hrest, hstarts.1] at hequals
      exact hequals (List.mem_append_right _ List.mem_cons_self)

theorem findSome_keyLine (h : value.dropWhile isSpace = value) {ks : List Key} (hkey : key ∈ ks)
    (hequals : ∀ k ∈ ks, equalsSign ∉ k.text) (hstarts : ks.Pairwise fun k k' => k.text.isPrefixOf k'.text = false) :
    (ks.findSome? fun k => (isKey (keyLine (key, value)) k.text).map fun v => (k, v)) = some (key, value) := by
  induction ks with
  | nil => cases hkey
  | cons k ks ih =>
    rw [List.findSome?_cons]
    rcases List.mem_cons.mp hkey with rfl | hmem
    · rw [isKey_keyLine h]
      rfl
    · rw [isKey_keyLine_other (List.rel_of_pairwise_cons hstarts hmem) (hequals k List.mem_cons_self)]
      exact ih hmem (fun k' hk' => hequals k' (List.mem_cons_of_mem k hk')) hstarts.of_cons

/-- **The line of a key** is found under that key, with its value. -/
theorem lookupKey_keyLine (hkey : key ∈ keys) (h : value.dropWhile isSpace = value) :
    lookupKey (keyLine (key, value)) = some (key, value) :=
  findSome_keyLine h hkey equalsSign_notMem_keys keys_not_prefix

/-! ### Configurations that can be kept in a file -/

def Value (text : List UInt8) : Prop := Avoids ends text ∧ Trimmed text

/-- The strings have no comment, newline, leading or trailing white space, and fit their fields. -/
structure SecConfig.Wf (c : SecConfig) : Prop where
  id : Value c.id ∧ c.id.length < idSize
  advCmd : ∀ slot, Value (c.advCmd slot) ∧ (c.advCmd slot).length < maxSecCmdLen

theorem value_printInt (v : ℤ) : Value (printInt v) := by
  refine ⟨fun c hc hmem => ?_, fun c hc => ?_, fun c hc => ?_⟩
  · rcases mem_printInt hmem with h | h <;> rcases Dvbcfg.mem_ends.mp hc with rfl | rfl | rfl <;>
      revert h <;> decide
  · exact not_isSpace_of_printInt (mem_printInt (List.mem_of_mem_head? hc))
  · exact not_isSpace_of_printInt (mem_printInt (List.mem_of_getLast? hc))

theorem value_configType (t : ConfigType) : Value t.text := by
  cases t <;> exact ⟨by decide +kernel, by decide +kernel, by decide +kernel⟩

theorem mem_keys_lof : ∀ slot, Key.lof slot ∈ keys := by
  intro slot
  cases slot <;> decide

theorem mem_keys_cmd : ∀ slot, Key.cmd slot ∈ keys := by
  intro slot
  cases slot <;> decide

theorem savedKeys_value (h : c.Wf) : ∀ p ∈ savedKeys c, p.1 ∈ keys ∧ Value p.2 := by
  intro p hp
  unfold savedKeys at hp
  rw [List.mem_append, List.mem_append, List.mem_append] at hp
  rcases hp with ((hp | hp) | hp) | hp
  · rw [List.mem_singleton.mp hp]
    have hkey : Key.switchFrequency ∈ keys := by decide
    exact ⟨hkey, value_printInt _⟩
  · obtain ⟨slot, -, rfl⟩ := List.mem_map.mp hp
    exact ⟨mem_keys_lof slot, value_printInt _⟩
  · rw [List.mem_singleton.mp hp]
    have hkey : Key.configType ∈ keys := by decide
    exact ⟨hkey, value_configType _⟩
  · split_ifs at hp
    · obtain ⟨slot, -, rfl⟩ := List.mem_map.mp hp
      exact ⟨mem_keys_cmd slot, (h.advCmd slot).1⟩
    · cases hp

theorem lineText_keyLine (hkey : p.1 ∈ keys) (hvalue : Value p.2) : lineText (keyLine p ++ [newline]) = keyLine p := by
  obtain ⟨hne, hends, hhead⟩ := keys_head p.1 hkey
  refine lineText_append (fun c hc hmem => ?_) ⟨fun c hc => ?_, fun c hc => ?_⟩
  · rcases List.mem_append.mp hmem with hmem | hmem
    · exact hends c hc hmem
    · rcases List.mem_cons.mp hmem with rfl | hmem
      · exact absurd hc (by decide)
      · exact hvalue.1 c hc hmem
  · rw [keyLine, List.head?_append_of_ne_nil _ hne] at hc
    exact (hhead c hc).1
  · rw [keyLine, List.getLast?_append_of_ne_nil _ (List.cons_ne_nil _ _)] at hc
    cases hp : p.2 with
    | nil =>
      rw [hp] at hc
      cases hc
      decide
    | cons d rest =>
      rw [hp, List.getLast?_cons_cons, ← hp] at hc
      exact hvalue.2.last c hc

theorem isSection_keyLine (hkey : p.1 ∈ keys) (name : List UInt8) : isSection (keyLine p) name = false := by
  obtain ⟨hne, -, hhead⟩ := keys_head p.1 hkey
  unfold isSection
  split_ifs with hshort hbrackets
  · rfl
  · rfl
  · rw [not_or, not_not, keyLine, List.head?_append_of_ne_nil _ hne] at hbrackets
    exact absurd rfl (hhead openBracket hbrackets.1).2

/-! ### The keys of a section -/

theorem atoi_printInt (x : BitVec 32) : atoi (printInt x.toInt) = x := by
  have hlow := BitVec.le_toInt x
  have hhigh := BitVec.toInt_lt (x := x)
  have hclamp : max (-2 ^ 63) (min x.toInt (2 ^ 63 - 1)) = x.toInt := by omega
  rw [atoi, decimal_printInt, Option.getD_some, hclamp, BitVec.ofInt_toInt]

theorem parseConfigType_text (t : ConfigType) : parseConfigType t.text = some t := by
  cases t <;> decide

theorem foldl_update_filter {α : Type} [DecidableEq α] (z : α) (f : Slot → α) (slots : List Slot) (g : Slot → α)
    (h : ∀ slot, g slot = z ∨ g slot = f slot) :
    (slots.filter fun slot => decide (f slot ≠ z)).foldl (fun g slot => Function.update g slot (f slot)) g =
      fun slot => if slot ∈ slots then f slot else g slot := by
  induction slots generalizing g with
  | nil => simp
  | cons slot slots ih =>
    by_cases hz : f slot = z
    · rw [List.filter_cons_of_neg (by simp [hz]), ih g h]
      funext slot'
      by_cases hslot : slot' = slot
      · have hg : g slot = f slot := by
          rcases h slot with hg | hg
          · rw [hg, hz]
          · exact hg
        simp [hslot, hg]
      · simp [hslot]
    · have hupdate : ∀ slot', Function.update g slot (f slot) slot' = z ∨
          Function.update g slot (f slot) slot' = f slot' := by
        intro slot'
        by_cases hslot : slot' = slot
        · rw [hslot, Function.update_self]
          exact .inr rfl
        · rw [Function.update_of_ne hslot]
          exact h slot'
      rw [List.filter_cons_of_pos (by simp [hz]), List.foldl_cons, ih _ hupdate]
      funext slot'
      by_cases hslot : slot' = slot
      · simp [hslot]
      · simp [hslot]

def setKeys (tmpsec : SecConfig) (ps : List (Key × List UInt8)) : Option SecConfig :=
  ps.foldlM (fun tmpsec p => p.1.set tmpsec p.2) tmpsec

theorem setKeys_append {tmpsec tmpsec' : SecConfig} {ps : List (Key × List UInt8)}
    (h : setKeys tmpsec ps = some tmpsec') (ps' : List (Key × List UInt8)) :
    setKeys tmpsec (ps ++ ps') = setKeys tmpsec' ps' := by
  unfold setKeys at h ⊢
  rw [List.foldlM_append, h]
  rfl

theorem setKeys_lof (c : SecConfig) (slots : List Slot) (tmpsec : SecConfig) :
    setKeys tmpsec (slots.map fun slot => (.lof slot, printInt (c.lof slot).toInt)) =
      some { tmpsec with lof := slots.foldl (fun g slot => Function.update g slot (c.lof slot)) tmpsec.lof } := by
  induction slots generalizing tmpsec with
  | nil => rfl
  | cons slot slots ih =>
    have hset : Key.set tmpsec (printInt (c.lof slot).toInt) (.lof slot) =
        some { tmpsec with lof := Function.update tmpsec.lof slot (c.lof slot) } := by
      rw [Key.set, atoi_printInt]
    unfold setKeys at ih ⊢
    rw [List.map_cons, List.foldlM_cons, hset]
    exact ih _

theorem setKeys_cmd (h : c.Wf) (slots : List Slot) (tmpsec : SecConfig) :
    setKeys tmpsec (slots.map fun slot => (.cmd slot, c.advCmd slot)) =
      some { tmpsec with
        advCmd := slots.foldl (fun g slot => Function.update g slot (c.advCmd slot)) tmpsec.advCmd } := by
  induction slots generalizing tmpsec with
  | nil => rfl
  | cons slot slots ih =>
    have hset : Key.set tmpsec (c.advCmd slot) (.cmd slot) =
        some { tmpsec with advCmd := Function.update tmpsec.advCmd slot (c.advCmd slot) } := by
      rw [Key.set, strncpy, List.take_of_length_le (h.advCmd slot).2.le]
    unfold setKeys at ih ⊢
    rw [List.map_cons, List.foldlM_cons, hset]
    exact ih _

def SecConfig.readBack (c : SecConfig) : SecConfig :=
  { c with
    id := []
    advCmd := if c.configType = .advanced then c.advCmd else fun _ => [] }

theorem setKeys_savedKeys (h : c.Wf) : setKeys .zero (savedKeys c) = some c.readBack := by
  have hall : ∀ slot, slot ∈ lofSlots ∧ slot ∈ cmdSlots := by
    intro slot
    cases slot <;> decide
  have hlof := foldl_update_filter 0 c.lof lofSlots (fun _ => 0) fun _ => .inl rfl
  have hcmd := foldl_update_filter [] c.advCmd cmdSlots (fun _ => []) fun _ => .inl rfl
  simp only [(hall _).1, (hall _).2, if_true] at hlof hcmd
  have hswitch : setKeys .zero [(.switchFrequency, printInt c.switchFrequency.toInt)] =
      some { SecConfig.zero with switchFrequency := c.switchFrequency } := by
    show (some _ : Option SecConfig) = _
    rw [atoi_printInt]
  unfold savedKeys
  rw [List.append_assoc, List.append_assoc, setKeys_append hswitch, setKeys_append (setKeys_lof c _ _)]
  have htype : ∀ tmpsec, setKeys tmpsec [(.configType, c.configType.text)] =
      some { tmpsec with configType := c.configType } := by
    intro tmpsec
    unfold setKeys
    rw [List.foldlM_cons, Key.set, parseConfigType_text]
    rfl
  rw [setKeys_append (htype _)]
  by_cases hadvanced : c.configType = .advanced
  · rw [if_pos hadvanced, setKeys_cmd h, SecConfig.readBack, if_pos hadvanced]
    dsimp only [SecConfig.zero]
    rw [hlof, hcmd]
  · rw [if_neg hadvanced, SecConfig.readBack, if_neg hadvanced]
    dsimp only [SecConfig.zero]
    rw [hlof]
    rfl

section

variable {σ : Type} (callback : σ → SecConfig → ℤ × σ)

theorem loadLines_keyLines (h : ∀ p ∈ ps, p.1 ∈ keys ∧ Value p.2) {tmpsec : SecConfig}
    (hset : setKeys tmpsec ps = some tmpsec') (insection : Bool) (lines : List (List UInt8)) (s : σ) :
    loadLines callback insection tmpsec (ps.map (fun p => keyLine p ++ [newline]) ++ lines) s =
      loadLines callback insection tmpsec' lines s := by
  induction ps generalizing tmpsec with
  | nil =>
    cases hset
    rfl
  | cons p ps ih =>
    obtain ⟨hkey, hvalue⟩ := h p List.mem_cons_self
    have hne : keyLine p ≠ [] := List.append_ne_nil_of_right_ne_nil _ (List.cons_ne_nil _ _)
    have hlookup : lookupKey (keyLine p) = some p := lookupKey_keyLine hkey hvalue.2.dropWhile
    unfold setKeys at hset
    rw [List.foldlM_cons] at hset
    obtain ⟨tmpsec₁, hfirst, hrest⟩ := Option.bind_eq_some_iff.mp hset
    rw [List.map_cons, List.cons_append, loadLines, lineText_keyLine hkey hvalue, if_neg hne,
      if_neg (by rw [isSection_keyLine hkey]; decide), hlookup]
    dsimp only
    rw [hfirst]
    exact ih (fun p' hp' => h p' (List.mem_cons_of_mem p hp')) hrest

/-- **Inside a section** everything that was written is read back; the id was not. -/
theorem loadLines_savedKeys {c : SecConfig} (h : c.Wf) (insection : Bool) (lines : List (List UInt8)) (s : σ) :
    loadLines callback insection .zero ((savedKeys c).map (fun p => keyLine p ++ [newline]) ++ lines) s =
      loadLines callback insection c.readBack lines s :=
  loadLines_keyLines callback (savedKeys_value h) (setKeys_savedKeys h) insection lines s

theorem loadLines_savedKeys_standard : loadLines (fun (n : ℕ) c => (0, n + c.switchFrequency.toNat)) true .zero
    ((savedKeys ⟨[], 11700000, fun _ => 0, .standard, fun _ => []⟩).map (fun p => keyLine p ++ [newline]) ++ []) 0 = 11700000 :=
  have hnil : Value [] := ⟨by simp [Avoids], by simp, by simp⟩
  have hroom : ([] : List UInt8).length < idSize ∧ ([] : List UInt8).length < maxSecCmdLen := by decide
  loadLines_savedKeys _ ⟨⟨hnil, hroom.1⟩, fun _ => ⟨hnil, hroom.2⟩⟩ true [] 0

/-! ### The header -/

/-- **Without a section** no callback is called. -/
theorem loadLines_no_section (h : ∀ line ∈ lines, isSection (lineText line) secName = false) (tmpsec : SecConfig)
    (s : σ) : loadLines callback false tmpsec lines s = s := by
  induction lines generalizing tmpsec with
  | nil => rfl
  | cons line lines ih =>
    have hrest := ih fun l hl => h l (List.mem_cons_of_mem line hl)
    have hsection : ¬ isSection (lineText line) secName = true := by
      rw [h line List.mem_cons_self]
      decide
    rw [loadLines]
    by_cases hblank : lineText line = []
    · rw [if_pos hblank]
      exact hrest tmpsec
    · rw [if_neg hblank, if_neg hsection]
      cases hlookup : lookupKey (lineText line) with
      | none => exact hrest tmpsec
      | some p =>
        obtain ⟨key, value⟩ := p
        dsimp only
        cases hset : key.set tmpsec value with
        | none => exact hrest tmpsec
        | some tmpsec' => exact hrest tmpsec'

end

theorem newline_notMem_keyLine (hkey : p.1 ∈ keys) (hvalue : Value p.2) : newline ∉ keyLine p := by
  intro hmem
  rcases List.mem_append.mp hmem with hmem | hmem
  · exact (keys_head p.1 hkey).2.1 newline (by simp) hmem
  · rcases List.mem_cons.mp hmem with heq | hmem
    · exact absurd heq (by decide)
    · exact hvalue.1 newline (by simp) hmem

theorem getlines_flatMap {lines : List (List UInt8)} (h : ∀ line ∈ lines, newline ∉ line) :
    getlines (lines.flatMap fun line => line ++ [newline]) = lines.map fun line => line ++ [newline] := by
  induction lines with
  | nil => rfl
  | cons line lines ih =>
    rw [List.flatMap_cons, List.append_assoc, List.singleton_append,
      Dvbcfg.getlines_append (h line List.mem_cons_self), ih fun l hl => h l (List.mem_cons_of_mem line hl)]
    rfl

theorem savedLines_no_section (h : c.Wf) :
    ∀ line ∈ savedLines c, newline ∉ line ∧ isSection (lineText (line ++ [newline])) secName = false := by
  intro line hline
  unfold savedLines at hline
  rw [List.mem_append, List.mem_cons, List.mem_map, List.mem_singleton] at hline
  rcases hline with (rfl | ⟨p, hp, rfl⟩) | rfl
  · exact ⟨by decide, by decide⟩
  · obtain ⟨hkey, hvalue⟩ := savedKeys_value h p hp
    exact ⟨newline_notMem_keyLine hkey hvalue, by rw [lineText_keyLine hkey hvalue, isSection_keyLine hkey]⟩
  · exact ⟨by decide, by decide⟩

/-- **The file that is written** holds nothing for the reader. -/
theorem load_save {σ : Type} (callback : σ → SecConfig → ℤ × σ) {secs : List SecConfig} (h : ∀ c ∈ secs, c.Wf)
    (left : SecConfig) (s : σ) : dvbsecCfgLoad callback left (dvbsecCfgSave secs) s = (0, s) := by
  have hlines : dvbsecCfgSave secs = (secs.flatMap savedLines).flatMap fun line => line ++ [newline] :=
    List.flatMap_assoc.symm
  have hsaved : ∀ line ∈ secs.flatMap savedLines,
      newline ∉ line ∧ isSection (lineText (line ++ [newline])) secName = false := by
    intro line hline
    obtain ⟨c, hc, hline⟩ := List.mem_flatMap.mp hline
    exact savedLines_no_section (h c hc) line hline
  rw [dvbsecCfgLoad, hlines, getlines_flatMap fun line hline => (hsaved line hline).1]
  refine congrArg _ (loadLines_no_section callback (fun line hline => ?_) left s)
  obtain ⟨line', hline', rfl⟩ := List.mem_map.mp hline
  exact (hsaved line' hline').2

/-! ### The round trip -/

/-- What the round trip keeps: the commands only for the advanced type. -/
structure Same (c c' : SecConfig) : Prop where
  id : c'.id = c.id
  switchFrequency : c'.switchFrequency = c.switchFrequency
  lof : c'.lof = c.lof
  configType : c'.configType = c.configType
  advCmd : c.configType = .advanced → c'.advCmd = c.advCmd

def collect (cs : List SecConfig) (c : SecConfig) : ℤ × List SecConfig := (0, cs ++ [c])

/-- The callback is called once for each configuration, in order, with what was written. -/
def RoundTrip (secs : List SecConfig) : Prop :=
  ∀ left, List.Forall₂ Same secs (dvbsecCfgLoad collect left (dvbsecCfgSave secs) []).2

/-- **Only the empty array makes the round trip.** -/
theorem roundTrip_iff {secs : List SecConfig} (h : ∀ c ∈ secs, c.Wf) : RoundTrip secs ↔ secs = [] := by
  have hload := fun left => congrArg Prod.snd (load_save collect h left [])
  constructor
  · intro hround
    have hempty := hround .zero
    rw [hload] at hempty
    exact List.forall₂_nil_right_iff.mp hempty
  · rintro rfl left
    rw [hload]
    exact List.Forall₂.nil

def universal : SecConfig where
  id := ascii ['U', 'N', 'I']
  switchFrequency := 11700000
  lof slot := if slot ∈ [Slot.loV, .loH, .loL, .loR] then 9750000 else 10600000
  configType := .power
  advCmd _ := []

theorem universal_wf : universal.Wf where
  id := ⟨⟨by decide +kernel, ⟨by decide +kernel, by decide +kernel⟩⟩, by decide +kernel⟩
  advCmd slot := by
    show Value [] ∧ ([] : List UInt8).length < maxSecCmdLen
    exact ⟨⟨by decide, ⟨fun c hc => (by cases hc), fun c hc => (by cases hc)⟩⟩, by decide⟩

theorem roundTrip_universal_iff :
    (∀ c ∈ [universal], c.Wf) ∧ (RoundTrip [universal] ↔ [universal] = []) :=
  have h : ∀ c ∈ [universal], c.Wf := fun c hc => by
    rw [List.mem_singleton.mp hc]
    exact universal_wf
  ⟨h, roundTrip_iff h⟩

theorem not_roundTrip_universal : ¬ ∀ secs : List SecConfig, (∀ c ∈ secs, c.Wf) → RoundTrip secs := by
  intro hall
  have h : ∀ c ∈ [universal], c.Wf := fun c hc => by
    rw [List.mem_singleton.mp hc]
    exact universal_wf
  have hround := hall [universal] h .zero
  rw [load_save collect h] at hround
  cases hround

end BgtDvb.Dvbsec
