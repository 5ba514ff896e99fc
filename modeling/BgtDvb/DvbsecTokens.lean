import BgtDvb.DvbsecLanguage

/-!
# Where the SEC tokeniser reads

The functions of `libdvbsec/dvbsec_api.c` that take a command string apart move a cursor over it; arguments are
read with a second pointer that says where they end.  Here the cursor is kept, together with the place of each
argument, and what else the string is used for.

* `readArgs_spec` — **PROVED**: with an end pointer the arguments are those of the text in the parentheses;
* `scan_contained_iff` — **PROVED**: the tokeniser keeps to the string and the parentheses exactly on those.
-/

namespace BgtDvb.Dvbsec.Tokens

open BgtDvb.CString
open BgtDvb.ScanInt
open BgtDvb.Dvbcfg (sscanfInt)

/-! ### The tokeniser -/

/-- A pointer into the string: the text from it on, or one place behind the terminator. -/
inductive Cursor
  | on (rest : List UInt8)
  | behind
  deriving DecidableEq

/-- The increment in front of which the code has not looked at the character. -/
def Cursor.next : List UInt8 → Cursor
  | _ :: rest => .on rest
  | [] => .behind

/-- The cursor has come to the end pointer; both are counted from the terminator. -/
def atEnd (end_ : Option ℕ) (line : List UInt8) : Bool :=
  match end_ with
  | none => false
  | some e => line.length ≤ e

/-- `skipwhite`; `none` is -1. -/
def skipwhite (end_ : Option ℕ) : List UInt8 → Option (List UInt8)
  | [] => none
  | c :: rest =>
    if atEnd end_ (c :: rest) then none
    else if isSpace c then skipwhite end_ rest
    else some (c :: rest)

/-- `getstringupto` one byte: the string, and the cursor. -/
def getstringupto (end_ : Option ℕ) (stop : UInt8) : List UInt8 → List UInt8 × List UInt8
  | [] => ([], [])
  | c :: rest =>
    if atEnd end_ (c :: rest) then ([], c :: rest)
    else if c = stop then ([], c :: rest)
    else (c :: (getstringupto end_ stop rest).1, (getstringupto end_ stop rest).2)

/-- What `parsefunction` finds; `args` is the text from the arguments on, `argslen` bytes are theirs. -/
inductive Parsed
  | stop
  | behind
  | call (name args : List UInt8) (argslen : ℕ) (line : Cursor)
  deriving DecidableEq

/-- `parsefunction`; `(*line) == 0` asks for the pointer, and is never the case. -/
def parsefunction : Cursor → Parsed
  | .behind => .behind
  | .on line =>
    match skipwhite none line with
    | none => .stop
    | some line =>
      let name := getstringupto none openParen line
      match Cursor.next name.2 with
      | .behind => .behind
      | .on line =>
        let args := getstringupto none closeParen line
        .call name.1 line args.1.length (Cursor.next args.2)

/-- What the argument parsers share: the text from the argument on, the argument, and the cursor. -/
def parsearg (argsend : ℕ) (args : List UInt8) : Option (List UInt8 × List UInt8 × List UInt8) :=
  (skipwhite (some argsend) args).map fun args =>
    let arg := getstringupto (some argsend) comma args
    (args, arg.1, if arg.2.head? = some comma then arg.2.tail else arg.2)

/-! ### The interpreter -/

/-- What is done with the string; places are counted from the terminator.  An argument is in front of `stop`,
and its command has the parentheses in front of `opens` and at `closes`. -/
inductive Touch
  | argument (opens closes start stop : ℕ)
  | write (place : ℕ)
  | readBehind
  deriving DecidableEq

/-- The end of the parsing of the arguments of a call. -/
inductive ArgsEnd
  | read (ints : List (BitVec 32))
  | refused
  | written
  deriving DecidableEq

/-- The value of an argument: `parseintarg` scans 31 bytes, `parsefloatarg` writes its terminator into the string,
behind the argument or its first 31 bytes. -/
def readArgs (opens closes : ℕ) : List Kind → List UInt8 → List Touch × ArgsEnd
  | [], _ => ([], .read [])
  | kind :: kinds, args =>
    match parsearg closes args with
    | none => ([], .refused)
    | some (start, arg, args) =>
      let touch := .argument opens closes start.length (start.length - arg.length)
      match kind with
      | .float => ([touch, .write (start.length - min arg.length 31)], .written)
      | .char =>
        let r := readArgs opens closes kinds args
        (touch :: r.1, r.2)
      | .int =>
        match sscanfInt (arg.take 31) with
        | none => ([touch], .refused)
        | some result =>
          let r := readArgs opens closes kinds args
          (touch :: r.1, match r.2 with | .read ints => .read (result :: ints) | e => e)

/-- One round of the loop of `dvbsec_command`: the chain of comparisons, the arguments, and the switch over the
voltage, which has a return of its own. -/
def runCall (name args : List UInt8) (argslen : ℕ) : List Touch × ArgsEnd :=
  match dispatch name with
  | none => ([], .refused)
  | some f =>
    let r := readArgs args.length (args.length - argslen) f.kinds args
    match f, r.2 with
    | .voltage, .read [iarg] => (r.1, if iarg = 0 ∨ iarg = 13 ∨ iarg = 18 then .read [iarg] else .refused)
    | _, e => (r.1, e)

/-- What comes to the touches of a run, and its return value; it is `none` once the string is not what it was,
or the code has read behind it. -/
abbrev Run := List Touch × Option ℤ

theorem getstringupto_length (end_ : Option ℕ) (stop : UInt8) (line : List UInt8) :
    (getstringupto end_ stop line).2.length ≤ line.length := by
  induction line with
  | nil => exact le_rfl
  | cons c rest ih =>
    rw [getstringupto]
    split_ifs
    · exact le_rfl
    · exact le_rfl
    · exact ih.trans (Nat.le_succ _)

theorem skipwhite_length {end_ : Option ℕ} {line line' : List UInt8} (h : skipwhite end_ line = some line') :
    line'.length ≤ line.length := by
  induction line with
  | nil => cases h
  | cons c rest ih =>
    rw [skipwhite] at h
    split_ifs at h
    · exact (ih h).trans (Nat.le_succ _)
    · cases h
      exact le_rfl

def Cursor.left : Cursor → ℕ
  | .on rest => rest.length + 1
  | .behind => 0

variable (line : List UInt8) (c stop : UInt8)

theorem Cursor.left_next : (Cursor.next line).left = line.length := by
  cases line with
  | nil => rfl
  | cons c rest => rfl

theorem parsefunction_left {line line' : Cursor} {name args : List UInt8} {argslen : ℕ}
    (h : parsefunction line = .call name args argslen line') : line'.left < line.left := by
  cases line with
  | behind => cases h
  | on line =>
    rw [parsefunction] at h
    cases hskip : skipwhite none line with
    | none =>
      rw [hskip] at h
      cases h
    | some line₁ =>
      rw [hskip] at h
      dsimp only at h
      cases hname : (getstringupto none openParen line₁).2 with
      | nil =>
        rw [hname] at h
        cases h
      | cons c line₂ =>
        rw [hname] at h
        cases h
        have h₁ := skipwhite_length hskip
        have h₂ := getstringupto_length none openParen line₁
        have h₃ := getstringupto_length none closeParen args
        rw [hname, List.length_cons] at h₂
        rw [Cursor.left_next, Cursor.left]
        omega

/-- `dvbsec_command` -/
def scan (command : Cursor) : Run :=
  match _h : parsefunction command with
  | .stop => ([], some 0)
  | .behind => ([.readBehind], none)
  | .call name args argslen line =>
    match runCall name args argslen with
    | (touches, .refused) => (touches, some (-1))
    | (touches, .written) => (touches, none)
    | (touches, .read _) => (touches ++ (scan line).1, (scan line).2)
termination_by command.left
decreasing_by all_goals exact parsefunction_left _h

/-! ### The property -/

/-- Only arguments are read, and those between the parentheses of the command. -/
def Touch.Inside : Touch → Prop
  | .argument opens closes start stop => closes ≤ stop ∧ stop ≤ start ∧ start ≤ opens
  | .write _ => False
  | .readBehind => False

def Contained (run : Run) : Prop := (∃ ret, run.2 = some ret) ∧ ∀ touch ∈ run.1, touch.Inside

/-- The strings of complete commands: white space at the end, or a command that is refused, whose closing
parenthesis may be missing.  A command that is not refused is complete, and no `Dgotobearing`. -/
inductive Tame : List UInt8 → Prop
  | blank {text} (h : ∀ c ∈ text, isSpace c = true) : Tame text
  | refused {gap name args tail : List UInt8} (hgap : ∀ c ∈ gap, isSpace c = true) (hname : IsName name)
      (hargs : closeParen ∉ args) (htail : ∀ c ∈ tail.head?, c = closeParen) (hunknown : Unknown name args) :
      Tame (gap ++ (name ++ openParen :: (args ++ tail)))
  | call {gap name args rest : List UInt8} (hgap : ∀ c ∈ gap, isSpace c = true) (hname : IsName name)
      (hargs : closeParen ∉ args) (hknown : ¬Unknown name args) (hbearing : dispatch name ≠ some .dgotobearing)
      (hrest : Tame rest) : Tame (gap ++ (name ++ openParen :: (args ++ closeParen :: rest)))

/-! ### The tokeniser inside an end pointer -/

theorem atEnd_nil (tail : List UInt8) : atEnd (some tail.length) tail = true := by
  simp [atEnd]

theorem atEnd_cons (args tail : List UInt8) : atEnd (some tail.length) (c :: (args ++ tail)) = false := by
  simp [atEnd]

theorem atEnd_none (rest : List UInt8) : atEnd none (c :: rest) = atEnd (some 0) (c :: rest) := by
  simp [atEnd]

theorem skipwhite_none : skipwhite none line = skipwhite (some 0) line := by
  induction line with
  | nil => rfl
  | cons c rest ih => rw [skipwhite, skipwhite, atEnd_none, ih]

theorem getstringupto_none (line : List UInt8) : getstringupto none stop line = getstringupto (some 0) stop line := by
  induction line with
  | nil => rfl
  | cons c rest ih => rw [getstringupto, getstringupto, atEnd_none, ih]

theorem skipwhite_cons (rest : List UInt8) :
    Dvbsec.skipwhite (c :: rest) = if isSpace c then Dvbsec.skipwhite rest else some (c :: rest) := by
  unfold Dvbsec.skipwhite
  by_cases h : isSpace c = true
  · rw [List.dropWhile_cons_of_pos h, if_pos h]
  · rw [List.dropWhile_cons_of_neg h, if_neg h]

theorem skipwhite_append (args tail : List UInt8) :
    skipwhite (some tail.length) (args ++ tail) = (Dvbsec.skipwhite args).map (· ++ tail) := by
  induction args with
  | nil =>
    cases tail with
    | nil => rfl
    | cons c tail =>
      rw [List.nil_append, skipwhite, atEnd_nil]
      rfl
  | cons c args ih =>
    rw [List.cons_append, skipwhite, atEnd_cons, if_neg Bool.false_ne_true, ih, skipwhite_cons]
    split_ifs
    · rfl
    · rfl

theorem getstringupto_append (args tail : List UInt8) :
    getstringupto (some tail.length) stop (args ++ tail) =
      ((Dvbsec.getstringupto stop args).1, (Dvbsec.getstringupto stop args).2 ++ tail) := by
  induction args with
  | nil =>
    cases tail with
    | nil => rfl
    | cons c tail =>
      rw [List.nil_append, getstringupto, atEnd_nil]
      rfl
  | cons c args ih =>
    rw [List.cons_append, getstringupto, atEnd_cons, if_neg Bool.false_ne_true, ih, Dvbsec.getstringupto, Dvbsec.getstringupto]
    by_cases hc : c = stop
    · rw [List.takeWhile_cons_of_neg (by simp [hc]), List.dropWhile_cons_of_neg (by simp [hc])]
      simp [hc]
    · rw [List.takeWhile_cons_of_pos (by simp [hc]), List.dropWhile_cons_of_pos (by simp [hc])]
      simp [hc]

theorem getstringupto_snd (line : List UInt8) :
    (Dvbsec.getstringupto stop line).2 = [] ∨ ∃ rest, (Dvbsec.getstringupto stop line).2 = stop :: rest := by
  induction line with
  | nil => exact .inl rfl
  | cons c rest ih =>
    by_cases hc : c = stop
    · refine .inr ⟨rest, ?_⟩
      rw [Dvbsec.getstringupto, List.dropWhile_cons_of_neg (by simp [hc]), hc]
    · rw [Dvbsec.getstringupto, List.dropWhile_cons_of_pos (by simp [hc])]
      exact ih

theorem nextarg_run (args : List UInt8) :
    nextarg.run args = (Dvbsec.skipwhite args).map fun args =>
      ((Dvbsec.getstringupto comma args).1, (Dvbsec.getstringupto comma args).2.tail) := rfl

variable {tail args name gap : List UInt8} {command : Cursor}

/-- **The argument parsers** inside an end pointer: what they find is what is found in the text up to it. -/
theorem parsearg_append (args : List UInt8) (htail : tail.head? ≠ some comma) :
    parsearg tail.length (args ++ tail) = (Dvbsec.skipwhite args).map fun args =>
      (args ++ tail, (Dvbsec.getstringupto comma args).1, (Dvbsec.getstringupto comma args).2.tail ++ tail) := by
  rw [parsearg, skipwhite_append, Option.map_map]
  congr 1
  funext args
  rw [Function.comp_apply]
  dsimp only
  rw [getstringupto_append]
  obtain hend | ⟨rest, hcomma⟩ := getstringupto_snd comma args
  · simp [hend, htail]
  · simp [hcomma]

theorem getstringupto_fst_length (line : List UInt8) :
    (Dvbsec.getstringupto stop line).1.length ≤ line.length := (List.takeWhile_sublist _).length_le

theorem inside_argument {opens : ℕ} {a : List UInt8} (hopens : (a ++ tail).length ≤ opens) :
    Touch.Inside (.argument opens tail.length (a ++ tail).length
      ((a ++ tail).length - (Dvbsec.getstringupto comma a).1.length)) := by
  have hlen := getstringupto_fst_length comma a
  rw [List.length_append] at hopens ⊢
  exact ⟨by omega, by omega, hopens⟩

theorem readable_cons_iff {kind : Kind} {kinds : List Kind} {arg rest : List UInt8}
    (h : nextarg.run args = some (arg, rest)) :
    Readable (kind :: kinds) args ↔ (kind = .int → sscanfInt (arg.take 31) ≠ none) ∧ Readable kinds rest := by
  constructor
  · rintro ⟨arg', rest', h', hint, hrest⟩
    cases h.symm.trans h'
    exact ⟨hint, hrest⟩
  · rintro ⟨hint, hrest⟩
    exact ⟨arg, rest, h, hint, hrest⟩

/-- **The arguments**, where a `float` can only be the last: they are read or refused as those of the text, a
`float` writes, and each lies inside. -/
theorem readArgs_spec {opens : ℕ} (htail : tail.head? ≠ some comma) {kinds : List Kind}
    (hfloat : .float ∉ kinds.dropLast) (args : List UInt8) (hopens : (args ++ tail).length ≤ opens) :
    ((readArgs opens tail.length kinds (args ++ tail)).2 = .refused ↔ ¬Readable kinds args) ∧
      ((readArgs opens tail.length kinds (args ++ tail)).2 = .written ↔ .float ∈ kinds ∧ Readable kinds args) ∧
      ((readArgs opens tail.length kinds (args ++ tail)).2 ≠ .written →
        ∀ touch ∈ (readArgs opens tail.length kinds (args ++ tail)).1, touch.Inside) := by
  induction kinds generalizing args with
  | nil => simp [readArgs, Readable]
  | cons kind kinds ih =>
    rw [readArgs, parsearg_append args htail]
    cases hskip : Dvbsec.skipwhite args with
    | none =>
      have hnone : ¬Readable (kind :: kinds) args := by
        rintro ⟨arg, rest, hnext, -, -⟩
        rw [nextarg_run, hskip] at hnext
        cases hnext
      simp [hnone]
    | some a =>
      have hnext : nextarg.run args = some ((Dvbsec.getstringupto comma a).1, (Dvbsec.getstringupto comma a).2.tail) := by
        rw [nextarg_run, hskip]
        rfl
      have hlen : (a ++ tail).length ≤ opens := by
        have := Dvbsec.skipwhite_length hskip
        rw [List.length_append] at hopens ⊢
        omega
      have hrest : ((Dvbsec.getstringupto comma a).2.tail ++ tail).length ≤ opens := by
        have : (Dvbsec.getstringupto comma a).2.length ≤ a.length := (List.dropWhile_sublist _).length_le
        rw [List.length_append] at hlen ⊢
        rw [List.length_tail]
        omega
      have hinside := inside_argument hlen
      have hlast : .float ∉ kinds.dropLast := by
        cases kinds with
        | nil => exact List.not_mem_nil
        | cons kind' kinds => exact fun h => hfloat (List.mem_cons_of_mem _ h)
      obtain ⟨hrefused, hwritten, hall⟩ := ih hlast _ hrest
      rw [readable_cons_iff hnext]
      dsimp only [Option.map_some]
      cases kind with
      | float =>
        cases kinds with
        | nil => simp [Readable]
        | cons kind' kinds => exact absurd (List.mem_cons_self ..) hfloat
      | char =>
        dsimp only
        rw [hrefused, hwritten, List.forall_mem_cons]
        exact ⟨by simp, by simp, fun h => ⟨hinside, hall h⟩⟩
      | int =>
        dsimp only
        cases hscan : sscanfInt ((Dvbsec.getstringupto comma a).1.take 31) with
        | none => simpa using hinside
        | some result =>
          dsimp only
          rw [List.forall_mem_cons]
          cases hend : (readArgs opens tail.length kinds ((Dvbsec.getstringupto comma a).2.tail ++ tail)).2 with
          | read ints =>
            rw [hend] at hrefused hwritten hall
            simp_all
          | refused =>
            rw [hend] at hrefused hwritten hall
            simp_all
          | written =>
            rw [hend] at hrefused hwritten hall
            simp_all

theorem dropLast_kinds (f : Function) : .float ∉ f.kinds.dropLast := by cases f <;> decide

theorem float_mem_kinds (f : Function) : .float ∈ f.kinds ↔ f = .dgotobearing := by cases f <;> decide

theorem parseintarg_run (args : List UInt8) :
    parseintarg.run args = (nextarg.run args).bind fun r => (sscanfInt (r.1.take 31)).map fun v => (v, r.2) := by
  rw [nextarg_run]
  change (Option.bind ((Dvbsec.skipwhite args).map _) _) = _
  cases Dvbsec.skipwhite args with
  | none => rfl
  | some a =>
    dsimp only [Option.map_some, Option.bind_some]
    cases sscanfInt ((Dvbsec.getstringupto comma a).1.take 31) with
    | none => rfl
    | some v => rfl

theorem readArgs_int {opens : ℕ} {tail : List UInt8} (htail : tail.head? ≠ some comma) (args : List UInt8) :
    (readArgs opens tail.length [.int] (args ++ tail)).2 =
      ((parseintarg.run args).map fun r => .read [r.1]).getD .refused := by
  rw [parseintarg_run, nextarg_run, readArgs, parsearg_append args htail]
  cases Dvbsec.skipwhite args with
  | none => rfl
  | some a =>
    dsimp only [Option.map_some, Option.bind_some]
    cases sscanfInt ((Dvbsec.getstringupto comma a).1.take 31) with
    | none => rfl
    | some v => rfl

theorem runCall_of_ne {f : Function} (h : dispatch name = some f) (hf : f ≠ .voltage) (args tail : List UInt8) :
    runCall name (args ++ tail) args.length = readArgs (args ++ tail).length tail.length f.kinds (args ++ tail) := by
  rw [runCall, h, List.length_append, Nat.add_sub_cancel_left]
  dsimp only
  cases f <;> first | rfl | exact absurd rfl hf

theorem runCall_voltage {name : List UInt8} (h : dispatch name = some .voltage) {args tail : List UInt8}
    (htail : tail.head? ≠ some comma) :
    ((runCall name (args ++ tail) args.length).2 = .refused ↔ Unknown name args) ∧
      (runCall name (args ++ tail) args.length).2 ≠ .written ∧
      ∀ touch ∈ (runCall name (args ++ tail) args.length).1, touch.Inside := by
  obtain ⟨hrefused, -, hall⟩ := readArgs_spec htail
    (dropLast_kinds .voltage) args le_rfl
  have hends := @readArgs_int (args ++ tail).length tail htail args
  have hunknown : Unknown name args ↔ (Readable [.int] args →
      ∀ volts rest, parseintarg.run args = some (volts, rest) → volts ≠ 0 ∧ volts ≠ 13 ∧ volts ≠ 18) := by
    constructor
    · exact fun hu hreadable => (hu _ h hreadable).2
    · intro hu f hf hreadable
      cases h.symm.trans hf
      exact ⟨rfl, hu hreadable⟩
  rw [hunknown, runCall, h, List.length_append, Nat.add_sub_cancel_left, ← List.length_append]
  change ((readArgs _ _ [Kind.int] _).2 = _ ↔ ¬Readable [.int] args) at hrefused
  change ((readArgs _ _ [Kind.int] _).2 ≠ _ → ∀ touch ∈ (readArgs _ _ [Kind.int] _).1, touch.Inside) at hall
  dsimp only [Function.kinds]
  rw [hends] at hrefused hall ⊢
  cases hvalue : parseintarg.run args with
  | none =>
    rw [hvalue] at hrefused hall
    refine ⟨iff_of_true rfl fun hreadable => absurd hreadable (hrefused.mp rfl), ?_, hall ?_⟩
    all_goals exact fun hw => (by cases hw)
  | some r =>
    obtain ⟨v, rest⟩ := r
    rw [hvalue] at hrefused hall
    have hreadable : Readable [.int] args := by
      by_contra hnot
      cases hrefused.mpr hnot
    dsimp only [Option.map_some, Option.getD_some]
    refine ⟨?_, ?_, hall fun hw => (by cases hw)⟩
    · split_ifs with hv
      · refine iff_of_false (fun h => (by cases h)) fun hu => ?_
        obtain ⟨h₀, h₁₃, h₁₈⟩ := hu hreadable v rest rfl
        exact hv.elim h₀ fun hv => hv.elim h₁₃ h₁₈
      · refine iff_of_true rfl fun _ volts rest' hvolts => ?_
        cases hvolts
        exact ⟨fun h => hv (.inl h), fun h => hv (.inr (.inl h)), fun h => hv (.inr (.inr h))⟩
    · split_ifs
      all_goals exact fun hw => (by cases hw)

/-- **One round** of the loop, where the closing parenthesis or the terminator is behind the arguments. -/
theorem runCall_spec (name : List UInt8) {args tail : List UInt8} (htail : tail.head? ≠ some comma) :
    ((runCall name (args ++ tail) args.length).2 = .refused ↔ Unknown name args) ∧
      ((runCall name (args ++ tail) args.length).2 = .written ↔
        dispatch name = some .dgotobearing ∧ ¬Unknown name args) ∧
      ((runCall name (args ++ tail) args.length).2 ≠ .written →
        ∀ touch ∈ (runCall name (args ++ tail) args.length).1, touch.Inside) := by
  cases hdispatch : dispatch name with
  | none =>
    have hunknown : Unknown name args := fun f hf => (Option.some_ne_none f (hf.symm.trans hdispatch)).elim
    simp [runCall, hdispatch, hunknown]
  | some f =>
    by_cases hf : f = .voltage
    · subst hf
      obtain ⟨hrefused, hwritten, hall⟩ := @runCall_voltage name hdispatch args tail htail
      exact ⟨hrefused, iff_of_false hwritten fun h => (by cases h.1), fun _ => hall⟩
    · have hunknown : Unknown name args ↔ ¬Readable f.kinds args := by
        constructor
        · exact fun hu hreadable => hf (hu f hdispatch hreadable).1
        · intro hu g hg hreadable
          cases hdispatch.symm.trans hg
          exact absurd hreadable hu
      rw [runCall_of_ne hdispatch hf, hunknown, not_not, Option.some_inj, ← float_mem_kinds]
      exact readArgs_spec htail (dropLast_kinds f) args le_rfl

/-! ### Commands in the string -/

theorem skipwhite_gap {line : List UInt8} (hgap : ∀ c ∈ gap, isSpace c = true)
    (hline : ∀ c ∈ line.head?, isSpace c = false) (hne : line ≠ []) : Dvbsec.skipwhite (gap ++ line) = some line := by
  cases line with
  | nil => exact absurd rfl hne
  | cons c line =>
    rw [Dvbsec.skipwhite, List.dropWhile_append_of_pos hgap,
      List.dropWhile_cons_of_neg (by simp [hline c rfl])]

theorem skipwhite_blank {text : List UInt8} (h : ∀ c ∈ text, isSpace c = true) : Dvbsec.skipwhite text = none := by
  rw [Dvbsec.skipwhite, List.dropWhile_eq_nil_iff.mpr h]

theorem skipwhite_split (text : List UInt8) :
    (∀ c ∈ text, isSpace c = true) ∨
      ∃ gap c line, text = gap ++ c :: line ∧ (∀ c ∈ gap, isSpace c = true) ∧ isSpace c = false := by
  induction text with
  | nil => exact .inl fun _ h => (by cases h)
  | cons c text ih =>
    cases hc : isSpace c with
    | false => exact .inr ⟨[], c, text, rfl, fun _ h => (by cases h), hc⟩
    | true =>
      obtain hall | ⟨gap, c', line, rfl, hgap, hc'⟩ := ih
      · exact .inl (List.forall_mem_cons.mpr ⟨hc, hall⟩)
      · exact .inr ⟨c :: gap, c', line, rfl, List.forall_mem_cons.mpr ⟨hc, hgap⟩, hc'⟩

theorem getstringupto_split (line : List UInt8) :
    stop ∉ line ∨ ∃ field rest, line = field ++ stop :: rest ∧ stop ∉ field := by
  induction line with
  | nil => exact .inl List.not_mem_nil
  | cons c line ih =>
    by_cases hc : c = stop
    · exact .inr ⟨[], line, by rw [hc]; rfl, List.not_mem_nil⟩
    · obtain hnot | ⟨field, rest, rfl, hfield⟩ := ih
      · exact .inl (List.not_mem_cons_of_ne_of_not_mem (Ne.symm hc) hnot)
      · exact .inr ⟨c :: field, rest, rfl, List.not_mem_cons_of_ne_of_not_mem (Ne.symm hc) hfield⟩

theorem skipwhite_end : skipwhite none line = Dvbsec.skipwhite line := by
  have h := skipwhite_append line []
  rw [List.append_nil, List.length_nil] at h
  rw [skipwhite_none, h]
  cases Dvbsec.skipwhite line with
  | none => rfl
  | some a => simp

theorem getstringupto_end (line : List UInt8) : getstringupto none stop line = Dvbsec.getstringupto stop line := by
  have h := getstringupto_append stop line []
  rw [List.append_nil, List.length_nil, List.append_nil] at h
  rw [getstringupto_none, h]

theorem parsefunction_blank {text : List UInt8} (h : ∀ c ∈ text, isSpace c = true) :
    parsefunction (.on text) = .stop := by
  rw [parsefunction, skipwhite_end, skipwhite_blank h]

theorem parsefunction_behind {gap line : List UInt8} {c : UInt8} (hgap : ∀ c ∈ gap, isSpace c = true)
    (hc : isSpace c = false) (hopen : openParen ∉ c :: line) : parsefunction (.on (gap ++ c :: line)) = .behind := by
  rw [parsefunction, skipwhite_end, skipwhite_gap hgap (by simp [hc]) (List.cons_ne_nil c line)]
  dsimp only
  rw [getstringupto_end, getstringupto_self hopen]
  rfl

theorem isName_split {rest : List UInt8} (hgap : ∀ c ∈ gap, isSpace c = true) (hname : IsName name) :
    Dvbsec.skipwhite (gap ++ (name ++ openParen :: rest)) = some (name ++ openParen :: rest) := by
  refine skipwhite_gap hgap ?_ (by simp)
  cases name with
  | nil =>
    intro c hc
    cases hc
    decide
  | cons c name => exact hname.1

theorem parsefunction_call (hgap : ∀ c ∈ gap, isSpace c = true) (hname : IsName name) (hargs : closeParen ∉ args)
    (htail : ∀ c ∈ tail.head?, c = closeParen) :
    parsefunction (.on (gap ++ (name ++ openParen :: (args ++ tail)))) =
      .call name (args ++ tail) args.length (Cursor.next tail) := by
  have hclose : Dvbsec.getstringupto closeParen (args ++ tail) = (args, tail) := by
    cases tail with
    | nil => rw [List.append_nil, getstringupto_self hargs]
    | cons c tail =>
      cases htail c rfl
      exact Dvbsec.getstringupto_append hargs tail
  rw [parsefunction, skipwhite_end, isName_split hgap hname]
  dsimp only
  rw [getstringupto_end, Dvbsec.getstringupto_append hname.2]
  simp only [Cursor.next, getstringupto_end, hclose]

/-- **The front of a string**: white space only, a text without an opening parenthesis, or a command. -/
theorem front (text : List UInt8) :
    (∀ c ∈ text, isSpace c = true) ∨ parsefunction (.on text) = .behind ∨
      ∃ gap name args tail, text = gap ++ (name ++ openParen :: (args ++ tail)) ∧ (∀ c ∈ gap, isSpace c = true) ∧
        IsName name ∧ closeParen ∉ args ∧ ∀ c ∈ tail.head?, c = closeParen := by
  obtain hblank | ⟨gap, c, line, rfl, hgap, hc⟩ := skipwhite_split text
  · exact .inl hblank
  · obtain hnot | ⟨name, more, hline, hopen⟩ := getstringupto_split openParen (c :: line)
    · exact .inr (.inl (parsefunction_behind hgap hc hnot))
    · have hname : IsName name := by
        refine ⟨fun d hd => ?_, hopen⟩
        cases name with
        | nil => cases hd
        | cons d' name =>
          cases hd
          cases hline
          exact hc
      obtain hnot | ⟨args, rest, rfl, hargs⟩ := getstringupto_split closeParen more
      · exact .inr (.inr ⟨gap, name, more, [], by rw [hline, List.append_nil], hgap, hname, hnot, fun _ h => (by cases h)⟩)
      · refine .inr (.inr ⟨gap, name, args, closeParen :: rest, by rw [hline], hgap, hname, hargs, ?_⟩)
        intro d hd
        cases hd
        rfl

/-! ### The loop -/

theorem scan_stop (h : parsefunction command = .stop) : scan command = ([], some 0) := by
  rw [scan]
  split
  · rfl
  all_goals
    rename_i heq
    cases h.symm.trans heq

theorem scan_behind (h : parsefunction command = .behind) : scan command = ([.readBehind], none) := by
  rw [scan]
  split
  · rename_i heq
    cases h.symm.trans heq
  · rfl
  · rename_i heq
    cases h.symm.trans heq

theorem scan_call {line : Cursor} {argslen : ℕ} (h : parsefunction command = .call name args argslen line) :
    scan command = match runCall name args argslen with
      | (touches, .refused) => (touches, some (-1))
      | (touches, .written) => (touches, none)
      | (touches, .read _) => (touches ++ (scan line).1, (scan line).2) := by
  rw [scan]
  split
  · rename_i heq
    cases h.symm.trans heq
  · rename_i heq
    cases h.symm.trans heq
  · rename_i heq
    cases h.symm.trans heq
    rfl

theorem head_ne_comma (h : ∀ c ∈ tail.head?, c = closeParen) : tail.head? ≠ some comma := by
  intro hhead
  have := h comma hhead
  revert this
  decide

theorem not_contained_undefined {run : Run} (h : run.2 = none) : ¬Contained run := by
  rintro ⟨⟨ret, hret⟩, -⟩
  cases h.symm.trans hret

theorem contained_append_iff {touches : List Touch} (h : ∀ touch ∈ touches, touch.Inside) (run : Run) :
    Contained (touches ++ run.1, run.2) ↔ Contained run := by
  simp only [Contained, List.forall_mem_append]
  exact and_congr_right fun _ => and_iff_right h

/-- **A command** in front of the string. -/
theorem contained_call_iff (hgap : ∀ c ∈ gap, isSpace c = true) (hname : IsName name) (hargs : closeParen ∉ args)
    (htail : ∀ c ∈ tail.head?, c = closeParen) :
    Contained (scan (.on (gap ++ (name ++ openParen :: (args ++ tail))))) ↔
      Unknown name args ∨ dispatch name ≠ some .dgotobearing ∧ Contained (scan (Cursor.next tail)) := by
  obtain ⟨hrefused, hwritten, hall⟩ := @runCall_spec name args _ (head_ne_comma htail)
  rw [scan_call (parsefunction_call hgap hname hargs htail)]
  obtain ⟨⟨touches, ends⟩, hrun⟩ : ∃ r, runCall name (args ++ tail) args.length = r := ⟨_, rfl⟩
  rw [hrun] at hrefused hwritten hall ⊢
  cases ends with
  | refused => exact iff_of_true ⟨⟨-1, rfl⟩, hall fun h => (by cases h)⟩ (.inl (hrefused.mp rfl))
  | written =>
    obtain ⟨hbearing, hknown⟩ := hwritten.mp rfl
    refine iff_of_false (not_contained_undefined rfl) ?_
    rintro (hunknown | ⟨hother, -⟩)
    · exact hknown hunknown
    · exact hother hbearing
  | read ints =>
    have hknown : ¬Unknown name args := fun hu => (by cases hrefused.mpr hu)
    have hother : dispatch name ≠ some .dgotobearing := fun hb => (by cases hwritten.mpr ⟨hb, hknown⟩)
    dsimp only
    rw [contained_append_iff (hall fun h => (by cases h)), or_iff_right hknown, and_iff_right hother]

/-- **The tokeniser** comes to its return, reads its arguments between the parentheses of their command, and
neither writes nor reads behind the terminator, exactly on strings of complete commands. -/
theorem scan_contained_iff (text : List UInt8) : Contained (scan (.on text)) ↔ Tame text := by
  constructor
  · intro h
    -- by induction on the length of what is left
    induction hlen : text.length using Nat.strong_induction_on generalizing text with
    | _ n ih =>
      obtain hblank | hbehind | ⟨gap, name, args, tail, rfl, hgap, hname, hargs, htail⟩ := front text
      · exact .blank hblank
      · rw [scan_behind hbehind] at h
        exact absurd h (not_contained_undefined rfl)
      · obtain hunknown | ⟨hother, hrest⟩ := (contained_call_iff hgap hname hargs htail).mp h
        · exact .refused hgap hname hargs htail hunknown
        · by_cases hunknown : Unknown name args
          · exact .refused hgap hname hargs htail hunknown
          · cases tail with
            | nil =>
              rw [Cursor.next, scan_behind rfl] at hrest
              exact absurd hrest (not_contained_undefined rfl)
            | cons c rest =>
              cases htail c rfl
              refine .call hgap hname hargs hunknown hother (ih rest.length ?_ rest hrest rfl)
              simp only [List.length_append, List.length_cons] at hlen
              omega
  · intro h
    induction h with
    | blank h =>
      rw [scan_stop (parsefunction_blank h)]
      exact ⟨⟨0, rfl⟩, fun _ htouch => (by cases htouch)⟩
    | refused hgap hname hargs htail hunknown =>
      exact (contained_call_iff hgap hname hargs htail).mpr (.inl hunknown)
    | call hgap hname hargs hknown hother hrest ih =>
      refine (contained_call_iff hgap hname hargs ?_).mpr (.inr ⟨hother, ih⟩)
      intro c hc
      cases hc
      rfl

/-- A text without parentheses is read on behind its terminator. -/
theorem not_contained_text : ¬∀ text : List UInt8, Contained (scan (.on text)) := by
  intro h
  have hbehind : parsefunction (.on [116, 111, 110, 101]) = .behind :=
    @parsefunction_behind [] _ _ (fun _ h => (by cases h)) (by decide) (by decide)
  have htext := h [116, 111, 110, 101]
  rw [scan_behind hbehind] at htext
  exact not_contained_undefined rfl htext

end BgtDvb.Dvbsec.Tokens
