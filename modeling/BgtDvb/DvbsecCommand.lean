import BgtDvb.DvbcfgCommon

/-!
# The SEC command interpreter

`dvbsec_command` of `libdvbsec/dvbsec_api.c` takes calls off the front of a text, looks the function up by a
comparison that stops at the end of the name given, reads its arguments, and performs it.

* `dvbsecCommand_call`, `dvbsecCommand_spaces` — **PROVED**: what the loop does with a call in front of the
  text, and with an end of white space.
-/

namespace BgtDvb.Dvbsec

open BgtDvb.CString
open BgtDvb.ScanInt
open BgtDvb.Dvbcfg (ascii sscanfInt tolower)

/-! ### Operations -/

inductive SecVoltage
  | off | v13 | v18
  deriving DecidableEq, Repr

inductive Oscillator
  | low | high | unchanged
  deriving DecidableEq, Repr

inductive Polarization
  | h | v | l | r
  deriving DecidableEq, Repr

inductive Switch
  | a | b | unchanged
  deriving DecidableEq, Repr

/-- The functions of libdvbapi and libdvbsec that `dvbsec_command` calls, with the arguments as they
receive them. -/
inductive Op
  | set22kTone (on : Bool)
  | setVoltage (voltage : SecVoltage)
  | setToneDataBurst (b : Bool)
  | setHighLnbVoltage (on : Bool)
  | dishnetworksLegacyCommand (cmd : BitVec 32)
  | usleep (usec : ℕ)
  | setReset (address : BitVec 32) (clear : Bool)
  | setPower (address : BitVec 32) (on : Bool)
  | setCommittedSwitches (address : BitVec 32) (oscillator : Oscillator) (polarization : Option Polarization)
      (satPos switchOption : Switch)
  | setUncommittedSwitches (address : BitVec 32) (s1 s2 s3 s4 : Switch)
  | setFrequency (address frequency : BitVec 32)
  | setChannel (address : BitVec 32) (channel : BitVec 16)
  | gotoSatposPreset (address : BitVec 32) (id : BitVec 8)
  deriving DecidableEq, Repr

/-! ### The tokeniser -/

def openParen : UInt8 := 40

def closeParen : UInt8 := 41

def comma : UInt8 := 44

/-- `skipwhite`: a text that ends first is an error. -/
def skipwhite (line : List UInt8) : Option (List UInt8) :=
  match line.dropWhile isSpace with
  | [] => none
  | c :: rest => some (c :: rest)

/-- `getstringupto` one byte: what is in front of it, and the rest from it on. -/
def getstringupto (stop : UInt8) (line : List UInt8) : List UInt8 × List UInt8 :=
  (line.takeWhile (· ≠ stop), line.dropWhile (· ≠ stop))

/-- What `parsefunction` finds. -/
inductive Parsed
  | stop
  | behind
  | call (name args rest : List UInt8)
  deriving DecidableEq, Repr

/-- `parsefunction`; its checks for the end of the text look at the pointer, so without a parenthesis the
cursor goes on behind the terminator. -/
def parsefunction (line : List UInt8) : Parsed :=
  match skipwhite line with
  | none => .stop
  | some line =>
    match getstringupto openParen line with
    | (_, []) => .behind
    | (name, _ :: line) =>
      match getstringupto closeParen line with
      | (_, []) => .behind
      | (args, _ :: rest) => .call name args rest

/-- The part that `parseintarg` and `parsechararg` share: the argument, and the cursor behind its `,`. -/
def nextarg : Reader UInt8 (List UInt8) := fun args =>
  (skipwhite args).map fun args => ((getstringupto comma args).1, (getstringupto comma args).2.tail)

/-- `parseintarg`; 31 bytes fit the buffer. -/
def parseintarg : Reader UInt8 (BitVec 32) := do
  let arg ← nextarg
  match sscanfInt (arg.take 31) with
  | some result => pure result
  | none => failure

/-- A `char` as an `int`. -/
def charInt (c : UInt8) : BitVec 32 := c.toBitVec.signExtend 32

/-- `parsechararg`; an argument without a byte leaves `result` as it was. -/
def parsechararg (result : BitVec 32) : Reader UInt8 (BitVec 32) := do
  let arg ← nextarg
  match arg with
  | c :: _ => pure (charInt c)
  | [] => pure result

/-- `toupper` -/
def toupper (c : BitVec 32) : BitVec 32 := if 97 ≤ c ∧ c ≤ 122 then c - 32 else c

/-- `parse_switch` -/
def parseSwitch (c : BitVec 32) : Switch :=
  if toupper c = 65 then .a else if toupper c = 66 then .b else .unchanged

/-! ### The functions -/

inductive Function
  | tone | voltage | toneburst | highvoltage | dishnetworks | wait | dreset | dpower | dcommitted | duncommitted
  | dfrequency | dchannel | dgotopreset | dgotobearing
  deriving DecidableEq, Repr

def Function.name : Function → List UInt8
  | .tone => ascii ['t', 'o', 'n', 'e']
  | .voltage => ascii ['v', 'o', 'l', 't', 'a', 'g', 'e']
  | .toneburst => ascii ['t', 'o', 'n', 'e', 'b', 'u', 'r', 's', 't']
  | .highvoltage => ascii ['h', 'i', 'g', 'h', 'v', 'o', 'l', 't', 'a', 'g', 'e']
  | .dishnetworks => ascii ['d', 'i', 's', 'h', 'n', 'e', 't', 'w', 'o', 'r', 'k', 's']
  | .wait => ascii ['w', 'a', 'i', 't']
  | .dreset => ascii ['D', 'r', 'e', 's', 'e', 't']
  | .dpower => ascii ['D', 'p', 'o', 'w', 'e', 'r']
  | .dcommitted => ascii ['D', 'c', 'o', 'm', 'm', 'i', 't', 't', 'e', 'd']
  | .duncommitted => ascii ['D', 'u', 'n', 'c', 'o', 'm', 'm', 'i', 't', 't', 'e', 'd']
  | .dfrequency => ascii ['D', 'f', 'r', 'e', 'q', 'u', 'e', 'n', 'c', 'y']
  | .dchannel => ascii ['D', 'c', 'h', 'a', 'n', 'n', 'e', 'l']
  | .dgotopreset => ascii ['D', 'g', 'o', 't', 'o', 'p', 'r', 'e', 's', 'e', 't']
  | .dgotobearing => ascii ['D', 'g', 'o', 't', 'o', 'b', 'e', 'a', 'r', 'i', 'n', 'g']

def functions : List Function := [.tone, .voltage, .toneburst, .highvoltage, .dishnetworks, .wait, .dreset, .dpower,
  .dcommitted, .duncommitted, .dfrequency, .dchannel, .dgotopreset, .dgotobearing]

/-- `strncasecmp` over the length of the name is 0. -/
def sameStart (name lit : List UInt8) : Bool := (name.map tolower).isPrefixOf (lit.map tolower)

def dispatch (name : List UInt8) : Option Function := functions.find? fun f => sameStart name f.name

/-- The variables of `dvbsec_command` that outlive a call. -/
structure Regs where
  address : BitVec 32
  iarg : BitVec 32
  iarg2 : BitVec 32
  iarg3 : BitVec 32
  iarg4 : BitVec 32
  deriving DecidableEq, Repr

/-- The switch over the band of `Dcommitted`. -/
def parseOscillator (c : BitVec 32) : Oscillator :=
  if toupper c = 72 then .high else if toupper c = 76 then .low else .unchanged

/-- The switch over the polarisation; `none` for -1. -/
def parsePolarization (c : BitVec 32) : Option Polarization :=
  if toupper c = 72 then some .h
  else if toupper c = 86 then some .v
  else if toupper c = 76 then some .l
  else if toupper c = 82 then some .r
  else none

def parseAddressInt : Reader UInt8 (BitVec 32 × BitVec 32) := do
  let address ← parseintarg
  let iarg ← parseintarg
  pure (address, iarg)

/-- One function on its arguments: what it performs, and the variables after it.  A reader that fails is
the return of -1; `none` is behaviour that C does not define. -/
def exec (f : Function) (regs : Regs) : Reader UInt8 (Option (List Op × Regs)) :=
  match f with
  | .tone => do
    let iarg ← parsechararg regs.iarg
    pure (some ([.set22kTone (toupper iarg = 66)], { regs with iarg := iarg }))
  | .voltage => do
    let iarg ← parseintarg
    if iarg = 0 then pure (some ([.setVoltage .off], { regs with iarg := iarg }))
    else if iarg = 13 then pure (some ([.setVoltage .v13], { regs with iarg := iarg }))
    else if iarg = 18 then pure (some ([.setVoltage .v18], { regs with iarg := iarg }))
    else failure
  | .toneburst => do
    let iarg ← parsechararg regs.iarg
    pure (some ([.setToneDataBurst (toupper iarg = 66)], { regs with iarg := iarg }))
  | .highvoltage => do
    let iarg ← parseintarg
    pure (some ([.setHighLnbVoltage (iarg ≠ 0)], { regs with iarg := iarg }))
  | .dishnetworks => do
    let iarg ← parseintarg
    pure (some ([.dishnetworksLegacyCommand iarg], { regs with iarg := iarg }))
  | .wait => do
    let iarg ← parseintarg
    if iarg = 0 then pure (some ([], { regs with iarg := iarg }))
    -- the product is an `int`
    else if -2 ^ 31 ≤ iarg.toInt * 1000 ∧ iarg.toInt * 1000 < 2 ^ 31 then
      pure (some ([.usleep (iarg * 1000).toNat], { regs with iarg := iarg }))
    else pure none
  | .dreset => do
    let (address, iarg) ← parseAddressInt
    pure (some ([.setReset address (iarg = 0)], { regs with address := address, iarg := iarg }))
  | .dpower => do
    let (address, iarg) ← parseAddressInt
    pure (some ([.setPower address (iarg ≠ 0)], { regs with address := address, iarg := iarg }))
  | .dcommitted => do
    let address ← parseintarg
    let iarg ← parsechararg regs.iarg
    let iarg2 ← parsechararg regs.iarg2
    let iarg3 ← parsechararg regs.iarg3
    let iarg4 ← parsechararg regs.iarg4
    pure (some ([.setCommittedSwitches address (parseOscillator iarg) (parsePolarization iarg2)
      (parseSwitch iarg3) (parseSwitch iarg4)], ⟨address, iarg, iarg2, iarg3, iarg4⟩))
  | .duncommitted => do
    let address ← parsechararg regs.address
    let iarg ← parsechararg regs.iarg
    let iarg2 ← parsechararg regs.iarg2
    let iarg3 ← parsechararg regs.iarg3
    let iarg4 ← parsechararg regs.iarg4
    pure (some ([.setUncommittedSwitches address (parseSwitch iarg) (parseSwitch iarg2) (parseSwitch iarg3)
      (parseSwitch iarg4)], ⟨address, iarg, iarg2, iarg3, iarg4⟩))
  | .dfrequency => do
    let (address, iarg) ← parseAddressInt
    pure (some ([.setFrequency address iarg], { regs with address := address, iarg := iarg }))
  | .dchannel => do
    let (address, iarg) ← parseAddressInt
    pure (some ([.setChannel address (iarg.setWidth 16)], { regs with address := address, iarg := iarg }))
  | .dgotopreset => do
    let (address, iarg) ← parseAddressInt
    pure (some ([.gotoSatposPreset address (iarg.setWidth 8)], { regs with address := address, iarg := iarg }))
  | .dgotobearing => do
    let _ ← parseintarg
    -- `parsefloatarg` writes the terminator into the text, and scans a buffer that has none
    let _ ← nextarg
    pure none

/-- What a call does. -/
inductive Result
  | refused
  | undefined
  | done (ops : List Op) (regs : Regs)
  deriving DecidableEq, Repr

def Result.ofExec : Option (Option (List Op × Regs) × List UInt8) → Result
  | none => .refused
  | some (none, _) => .undefined
  | some (some (ops, regs), _) => .done ops regs

/-- A call: the chain of comparisons, and the function that it finds. -/
def callResult (regs : Regs) (name args : List UInt8) : Result :=
  match dispatch name with
  | none => .refused
  | some f => .ofExec ((exec f regs).run args)

theorem skipwhite_length {line line' : List UInt8} (h : skipwhite line = some line') : line'.length ≤ line.length := by
  unfold skipwhite at h
  cases hdrop : line.dropWhile isSpace with
  | nil =>
    rw [hdrop] at h
    cases h
  | cons c rest =>
    rw [hdrop] at h
    cases h
    rw [← hdrop]
    exact (List.dropWhile_sublist _).length_le

theorem getstringupto_length {stop c : UInt8} {line field rest : List UInt8}
    (h : getstringupto stop line = (field, c :: rest)) : rest.length < line.length := by
  have hle := (List.dropWhile_sublist (l := line) fun x => decide (x ≠ stop)).length_le
  rw [show line.dropWhile (fun x => decide (x ≠ stop)) = c :: rest from congrArg Prod.snd h, List.length_cons] at hle
  exact hle

theorem parsefunction_length {line name args rest : List UInt8} (h : parsefunction line = .call name args rest) :
    rest.length < line.length := by
  unfold parsefunction at h
  cases hskip : skipwhite line with
  | none =>
    rw [hskip] at h
    cases h
  | some line₁ =>
    rw [hskip] at h
    dsimp only at h
    obtain ⟨⟨name', line₂⟩, hopen⟩ : ∃ r, getstringupto openParen line₁ = r := ⟨_, rfl⟩
    rw [hopen] at h
    cases line₂ with
    | nil => cases h
    | cons c line₂ =>
      dsimp only at h
      obtain ⟨⟨args', line₃⟩, hclose⟩ : ∃ r, getstringupto closeParen line₂ = r := ⟨_, rfl⟩
      rw [hclose] at h
      cases line₃ with
      | nil => cases h
      | cons c' line₃ =>
        cases h
        have hskip' := skipwhite_length hskip
        have hopen' := getstringupto_length hopen
        have hclose' := getstringupto_length hclose
        omega

/-- `dvbsec_command`: what each call performed, and the return value; `regs` are the variables, which are
not initialised. -/
def dvbsecCommand (regs : Regs) (command : List UInt8) : Option (List (List Op) × ℤ) :=
  match _h : parsefunction command with
  | .stop => some ([], 0)
  | .behind => none
  | .call name args rest =>
    match callResult regs name args with
    | .refused => some ([], -1)
    | .undefined => none
    | .done ops regs => (dvbsecCommand regs rest).map fun r => (ops :: r.1, r.2)
termination_by command.length
decreasing_by exact parsefunction_length _h

/-! ### One step of the loop -/

theorem dvbsecCommand_stop (regs : Regs) {command : List UInt8} (h : parsefunction command = .stop) :
    dvbsecCommand regs command = some ([], 0) := by
  rw [dvbsecCommand]
  split
  · rfl
  all_goals
    rename_i heq
    rw [h] at heq
    cases heq

theorem dvbsecCommand_parsed (regs : Regs) {command name args rest : List UInt8}
    (h : parsefunction command = .call name args rest) :
    dvbsecCommand regs command =
      match callResult regs name args with
      | .refused => some ([], -1)
      | .undefined => none
      | .done ops regs => (dvbsecCommand regs rest).map fun r => (ops :: r.1, r.2) := by
  rw [dvbsecCommand]
  split
  · rename_i heq
    rw [h] at heq
    cases heq
  · rename_i heq
    rw [h] at heq
    cases heq
  · rename_i heq
    rw [h] at heq
    cases heq
    rfl

theorem dropWhile_spaces (n : ℕ) (line : List UInt8) :
    (List.replicate n 32 ++ line).dropWhile isSpace = line.dropWhile isSpace := by
  induction n with
  | zero => rfl
  | succ n ih =>
    rw [List.replicate_succ, List.cons_append, List.dropWhile_cons_of_pos (by decide)]
    exact ih

theorem skipwhite_append (n : ℕ) {c : UInt8} (h : isSpace c = false) (line : List UInt8) :
    skipwhite (List.replicate n 32 ++ c :: line) = some (c :: line) := by
  rw [skipwhite, dropWhile_spaces, List.dropWhile_cons_of_neg (by simp [h])]

theorem getstringupto_append {stop : UInt8} {field : List UInt8} (h : stop ∉ field) (rest : List UInt8) :
    getstringupto stop (field ++ stop :: rest) = (field, stop :: rest) := by
  have hall : ∀ c ∈ field, decide (c ≠ stop) = true := fun c hc => decide_eq_true fun heq => h (heq ▸ hc)
  rw [getstringupto, List.takeWhile_append_of_pos hall, List.dropWhile_append_of_pos hall,
    List.takeWhile_cons_of_neg (by simp), List.dropWhile_cons_of_neg (by simp), List.append_nil]

theorem getstringupto_self {stop : UInt8} {field : List UInt8} (h : stop ∉ field) :
    getstringupto stop field = (field, []) := by
  have hall : ∀ c ∈ field, decide (c ≠ stop) = true := fun c hc => decide_eq_true fun heq => h (heq ▸ hc)
  rw [getstringupto, List.takeWhile_eq_self_iff.mpr hall, List.dropWhile_eq_nil_iff.mpr hall]

/-- The name of a function does not start with white space and has no parenthesis. -/
def IsName (name : List UInt8) : Prop :=
  (∀ c ∈ name.head?, isSpace c = false) ∧ openParen ∉ name

theorem dvbsecCommand_call (regs : Regs) (n : ℕ) {name args : List UInt8} (hname : IsName name)
    (hargs : closeParen ∉ args) (rest : List UInt8) :
    dvbsecCommand regs (List.replicate n 32 ++ (name ++ openParen :: (args ++ closeParen :: rest))) =
      match callResult regs name args with
      | .refused => some ([], -1)
      | .undefined => none
      | .done ops regs => (dvbsecCommand regs rest).map fun r => (ops :: r.1, r.2) := by
  refine dvbsecCommand_parsed regs ?_
  obtain ⟨hspace, hopen⟩ := hname
  have hskip : skipwhite (List.replicate n 32 ++ (name ++ openParen :: (args ++ closeParen :: rest))) =
      some (name ++ openParen :: (args ++ closeParen :: rest)) := by
    cases name with
    | nil => exact skipwhite_append n (by decide) _
    | cons c name => exact skipwhite_append n (hspace c rfl) _
  rw [parsefunction, hskip]
  dsimp only
  rw [getstringupto_append hopen]
  dsimp only
  rw [getstringupto_append hargs]

theorem dvbsecCommand_spaces (regs : Regs) (n : ℕ) :
    dvbsecCommand regs (List.replicate n 32) = some ([], 0) := by
  refine dvbsecCommand_stop regs ?_
  have hdrop := dropWhile_spaces n []
  rw [List.append_nil] at hdrop
  rw [parsefunction, skipwhite, hdrop]
  rfl

end BgtDvb.Dvbsec
