import BgtDvb.DvbsecCommand

/-!
# The documented SEC commands

`libdvbsec/dvbsec_cfg.h` describes the commands that a configuration may hold.  A command is written with
decimal numbers, or hexadecimal ones behind `0x`; what it means is said in terms of the operations of the
frontend.

* `exec_command` — **PROVED**: what the interpreter does on every command;
* `command_iff` — **PROVED**: it performs a sequence as documented exactly if it does so command by command,
  and refuses the first function that is not documented.
-/

namespace BgtDvb.Dvbsec

open BgtDvb.CString
open BgtDvb.CString.Reader
open BgtDvb.ScanInt
open BgtDvb.Dvbcfg (ascii sscanfInt tolower)

/-! ### Numerals -/

/-- Hexadecimal digits, at least one. -/
structure HexDigits where
  text : List UInt8
  nonempty : text ≠ []
  digits : ∀ c ∈ text, (digitVal c).isSome = true

def hexValue (text : List UInt8) : ℕ := text.foldl (fun v c => v * 16 + (digitVal c).getD 0) 0

/-- A number in a command. -/
inductive Numeral
  | dec (n : ℕ)
  | hex (ds : HexDigits)

def Numeral.text : Numeral → List UInt8
  | .dec n => printNat n
  | .hex ds => 48 :: 120 :: ds.text

def Numeral.value : Numeral → ℕ
  | .dec n => n
  | .hex ds => hexValue ds.text

/-- What `%i` reads of its first 31 bytes. -/
def Numeral.read : Numeral → ℕ
  | .dec n => n
  | .hex ds => hexValue (ds.text.take 29)

variable {c : UInt8} {n : Numeral}

theorem digitVal_lt {d : ℕ} (h : digitVal c = some d) : d < 16 := by
  unfold digitVal at h
  simp only [UInt8.le_iff_toNat_le, UInt8.reduceToNat] at h
  split_ifs at h with h₁ h₂ h₃ <;> cases h <;> omega

theorem scanDigits_hex {text : List UInt8} (h : ∀ c ∈ text, (digitVal c).isSome = true) (acc : ℕ) :
    scanDigits 16 (some acc) text = some (text.foldl (fun v c => v * 16 + (digitVal c).getD 0) acc) := by
  induction text generalizing acc with
  | nil => rfl
  | cons c text ih =>
    obtain ⟨d, hd⟩ := Option.isSome_iff_exists.mp (h c List.mem_cons_self)
    have hrest := ih fun c' hc' => h c' (List.mem_cons_of_mem c hc')
    rw [scanDigits, hd]
    show (if d < 16 then _ else _) = _
    rw [if_pos (digitVal_lt hd), Option.getD_some, hrest, List.foldl_cons, hd, Option.getD_some]

theorem scanDigits_hex_none {text : List UInt8} (h : ∀ c ∈ text, (digitVal c).isSome = true) (hne : text ≠ []) :
    scanDigits 16 none text = some (hexValue text) := by
  cases text with
  | nil => exact absurd rfl hne
  | cons c text =>
    obtain ⟨d, hd⟩ := Option.isSome_iff_exists.mp (h c List.mem_cons_self)
    rw [scanDigits, hd]
    show (if d < 16 then _ else _) = _
    rw [if_pos (digitVal_lt hd), Option.getD_none,
      scanDigits_hex (fun c' hc' => h c' (List.mem_cons_of_mem c hc')), hexValue, List.foldl_cons, hd,
      Option.getD_some]

theorem hexValue_take_le (text : List UInt8) (k : ℕ) : hexValue (text.take k) ≤ hexValue text := by
  have hgrow : ∀ (rest : List UInt8) (acc : ℕ),
      acc ≤ rest.foldl (fun v c => v * 16 + (digitVal c).getD 0) acc := by
    intro rest
    induction rest with
    | nil => exact fun acc => le_rfl
    | cons c rest ih =>
      intro acc
      have hacc : acc ≤ acc * 16 + (digitVal c).getD 0 := by omega
      exact le_trans hacc (ih _)
  have hsplit : hexValue text = (text.drop k).foldl (fun v c => v * 16 + (digitVal c).getD 0)
      (hexValue (text.take k)) := by
    unfold hexValue
    rw [← List.foldl_append, List.take_append_drop]
  rw [hsplit]
  exact hgrow _ _

theorem Numeral.read_le (n : Numeral) : n.read ≤ n.value := by
  cases n with
  | dec n => exact le_rfl
  | hex ds => exact hexValue_take_le ds.text 29

theorem length_printNat {n : ℕ} (h : n < 2 ^ 31) : (printNat n).length ≤ 31 := by
  unfold printNat
  split
  · decide
  · have hdigits : (Nat.digits 10 n).length ≤ 10 :=
      (Nat.digits_length_le_iff (by decide) n).mpr (by omega)
    rw [List.length_map, List.length_reverse]
    omega

/-- An `int` that is not negative. -/
def int32 (n : ℕ) : BitVec 32 := BitVec.ofNat 32 n

/-- **`%i` on a numeral** whose number is an `int`. -/
theorem sscanfInt_numeral (h : n.value < 2 ^ 31) : sscanfInt (n.text.take 31) = some (int32 n.read) := by
  have hread := n.read_le
  have hclamp : max (-2 ^ 63) (min (n.read : ℤ) (2 ^ 63 - 1)) = n.read := by omega
  have hscan : scanInt (n.text.take 31) = some (n.read : ℤ) := by
    cases n with
    | dec n =>
      have hlen : (printNat n).length ≤ 31 := length_printNat h
      rw [Numeral.text, List.take_of_length_le hlen]
      exact scanInt_printInt (n : ℤ)
    | hex ds =>
      have hne : ds.text.take 29 ≠ [] := by
        have hpos := List.length_pos_iff.mpr ds.nonempty
        refine List.ne_nil_of_length_pos ?_
        rw [List.length_take]
        omega
      have hdigits : ∀ c ∈ ds.text.take 29, (digitVal c).isSome = true := fun c hc =>
        ds.digits c (List.mem_of_mem_take hc)
      show (scanDigits 16 none (ds.text.take 29)).map (fun n => (n : ℤ)) = _
      rw [scanDigits_hex_none hdigits hne]
      rfl
  rw [sscanfInt, hscan, Option.map_some, hclamp]
  rfl

/-! ### Commands -/

inductive Band
  | h | l | x
  deriving DecidableEq, Repr

inductive Pol
  | v | h | l | r | x
  deriving DecidableEq, Repr

inductive Position
  | a | b | x
  deriving DecidableEq, Repr

def Band.char : Band → UInt8
  | .h => 104
  | .l => 108
  | .x => 120

def Pol.char : Pol → UInt8
  | .v => 118
  | .h => 104
  | .l => 108
  | .r => 114
  | .x => 120

def Position.char : Position → UInt8
  | .a => 97
  | .b => 98
  | .x => 120

/-- The commands; `ι` are the numbers. -/
inductive Cmd (ι : Type)
  | tone (on : ι)
  | voltage (volts : ι)
  | toneburst (b : Bool)
  | highvoltage (on : ι)
  | dishnetworks (cmd : ι)
  | wait (ms : ι)
  | dreset (address on : ι)
  | dpower (address on : ι)
  | dcommitted (address : ι) (band : Band) (pol : Pol) (satPos switchOption : Position)
  | duncommitted (address : ι) (s1 s2 s3 s4 : Position)
  | dfrequency (address frequency : ι)
  | dchannel (address channel : ι)
  | dgotopreset (address preset : ι)

def Cmd.function {ι : Type} : Cmd ι → Function
  | .tone _ => .tone
  | .voltage _ => .voltage
  | .toneburst _ => .toneburst
  | .highvoltage _ => .highvoltage
  | .dishnetworks _ => .dishnetworks
  | .wait _ => .wait
  | .dreset _ _ => .dreset
  | .dpower _ _ => .dpower
  | .dcommitted .. => .dcommitted
  | .duncommitted .. => .duncommitted
  | .dfrequency _ _ => .dfrequency
  | .dchannel _ _ => .dchannel
  | .dgotopreset _ _ => .dgotopreset

def Cmd.args : Cmd Numeral → List (List UInt8)
  | .tone on => [on.text]
  | .voltage volts => [volts.text]
  | .toneburst b => [[if b = true then 98 else 97]]
  | .highvoltage on => [on.text]
  | .dishnetworks cmd => [cmd.text]
  | .wait ms => [ms.text]
  | .dreset address on => [address.text, on.text]
  | .dpower address on => [address.text, on.text]
  | .dcommitted address band pol satPos switchOption =>
    [address.text, [band.char], [pol.char], [satPos.char], [switchOption.char]]
  | .duncommitted address s1 s2 s3 s4 => [address.text, [s1.char], [s2.char], [s3.char], [s4.char]]
  | .dfrequency address frequency => [address.text, frequency.text]
  | .dchannel address channel => [address.text, channel.text]
  | .dgotopreset address preset => [address.text, preset.text]

/-- The numbers are those of the documentation; an address is a byte, an integer an `int`. -/
def Cmd.Documented : Cmd Numeral → Prop
  | .tone on => on.value ≤ 1
  | .voltage volts => volts.value = 0 ∨ volts.value = 13 ∨ volts.value = 18
  | .toneburst _ => True
  | .highvoltage on => on.value ≤ 1
  | .dishnetworks cmd => cmd.value < 2 ^ 31
  | .wait ms => ms.value < 2 ^ 31
  | .dreset address on => address.value < 256 ∧ on.value ≤ 1
  | .dpower address on => address.value < 256 ∧ on.value ≤ 1
  | .dcommitted address .. => address.value < 256
  | .duncommitted address .. => address.value < 256
  | .dfrequency address frequency => address.value < 256 ∧ frequency.value < 2 ^ 31
  | .dchannel address channel => address.value < 256 ∧ channel.value < 65536
  | .dgotopreset address preset => address.value < 256 ∧ preset.value < 256

def Band.oscillator : Band → Oscillator
  | .h => .high
  | .l => .low
  | .x => .unchanged

def Pol.polarization : Pol → Option Polarization
  | .v => some .v
  | .h => some .h
  | .l => some .l
  | .r => some .r
  | .x => none

def Position.switch : Position → Switch
  | .a => .a
  | .b => .b
  | .x => .unchanged

def Cmd.meaning : Cmd Numeral → List Op
  | .tone on => [.set22kTone (on.value = 1)]
  | .voltage volts =>
    [.setVoltage (if volts.value = 0 then .off else if volts.value = 13 then .v13 else .v18)]
  | .toneburst b => [.setToneDataBurst b]
  | .highvoltage on => [.setHighLnbVoltage (on.value = 1)]
  | .dishnetworks cmd => [.dishnetworksLegacyCommand (int32 cmd.value)]
  | .wait ms => if ms.value = 0 then [] else [.usleep (ms.value * 1000)]
  | .dreset address on => [.setReset (int32 address.value) (on.value = 0)]
  | .dpower address on => [.setPower (int32 address.value) (on.value = 1)]
  | .dcommitted address band pol satPos switchOption =>
    [.setCommittedSwitches (int32 address.value) band.oscillator pol.polarization satPos.switch
      switchOption.switch]
  | .duncommitted address s1 s2 s3 s4 =>
    [.setUncommittedSwitches (int32 address.value) s1.switch s2.switch s3.switch s4.switch]
  | .dfrequency address frequency => [.setFrequency (int32 address.value) (int32 frequency.value)]
  | .dchannel address channel => [.setChannel (int32 address.value) (BitVec.ofNat 16 channel.value)]
  | .dgotopreset address preset => [.gotoSatposPreset (int32 address.value) (BitVec.ofNat 8 preset.value)]

/-! ### What the interpreter does -/

/-- The first byte of a numeral, as `parsechararg` gives it. -/
def Numeral.first (n : Numeral) : BitVec 32 := charInt (n.text.headD 0)

def Cmd.result (regs : Regs) : Cmd Numeral → Result
  | .tone on => .done [.set22kTone (toupper on.first = 66)] { regs with iarg := on.first }
  | .voltage volts =>
    let iarg := int32 volts.read
    if iarg = 0 then .done [.setVoltage .off] { regs with iarg := iarg }
    else if iarg = 13 then .done [.setVoltage .v13] { regs with iarg := iarg }
    else if iarg = 18 then .done [.setVoltage .v18] { regs with iarg := iarg }
    else .refused
  | .toneburst b =>
    .done [.setToneDataBurst b] { regs with iarg := charInt (if b = true then 98 else 97) }
  | .highvoltage on => .done [.setHighLnbVoltage (int32 on.read ≠ 0)] { regs with iarg := int32 on.read }
  | .dishnetworks cmd => .done [.dishnetworksLegacyCommand (int32 cmd.read)] { regs with iarg := int32 cmd.read }
  | .wait ms =>
    let iarg := int32 ms.read
    if iarg = 0 then .done [] { regs with iarg := iarg }
    else if -2 ^ 31 ≤ iarg.toInt * 1000 ∧ iarg.toInt * 1000 < 2 ^ 31 then
      .done [.usleep (iarg * 1000).toNat] { regs with iarg := iarg }
    else .undefined
  | .dreset address on =>
    .done [.setReset (int32 address.read) (int32 on.read = 0)]
      { regs with address := int32 address.read, iarg := int32 on.read }
  | .dpower address on =>
    .done [.setPower (int32 address.read) (int32 on.read ≠ 0)]
      { regs with address := int32 address.read, iarg := int32 on.read }
  | .dcommitted address band pol satPos switchOption =>
    .done [.setCommittedSwitches (int32 address.read) band.oscillator pol.polarization satPos.switch
        switchOption.switch]
      ⟨int32 address.read, charInt band.char, charInt pol.char, charInt satPos.char, charInt switchOption.char⟩
  | .duncommitted address s1 s2 s3 s4 =>
    .done [.setUncommittedSwitches address.first s1.switch s2.switch s3.switch s4.switch]
      ⟨address.first, charInt s1.char, charInt s2.char, charInt s3.char, charInt s4.char⟩
  | .dfrequency address frequency =>
    .done [.setFrequency (int32 address.read) (int32 frequency.read)]
      { regs with address := int32 address.read, iarg := int32 frequency.read }
  | .dchannel address channel =>
    .done [.setChannel (int32 address.read) ((int32 channel.read).setWidth 16)]
      { regs with address := int32 address.read, iarg := int32 channel.read }
  | .dgotopreset address preset =>
    .done [.gotoSatposPreset (int32 address.read) ((int32 preset.read).setWidth 8)]
      { regs with address := int32 address.read, iarg := int32 preset.read }

/-- Arguments with a `,` between them and spaces in front of each. -/
def argsText : (ℕ → ℕ) → List (List UInt8) → List UInt8
  | _, [] => []
  | gaps, [arg] => List.replicate (gaps 0) 32 ++ arg
  | gaps, arg :: arg' :: args =>
    List.replicate (gaps 0) 32 ++ (arg ++ comma :: argsText (fun i => gaps (i + 1)) (arg' :: args))

def IsArg (arg : List UInt8) : Prop :=
  (∃ c ∈ arg.head?, isSpace c = false) ∧ comma ∉ arg ∧ closeParen ∉ arg

theorem nextarg_argsText (gaps : ℕ → ℕ) {arg : List UInt8} (h : IsArg arg) (args : List (List UInt8)) :
    nextarg.run (argsText gaps (arg :: args)) = some (arg, argsText (fun i => gaps (i + 1)) args) := by
  obtain ⟨⟨c, hc, hspace⟩, hcomma, -⟩ := h
  cases arg with
  | nil => cases hc
  | cons c' arg =>
    cases hc
    cases args with
    | nil =>
      show (skipwhite (List.replicate (gaps 0) 32 ++ c :: arg)).map _ = _
      rw [skipwhite_append _ hspace, Option.map_some, getstringupto_self hcomma]
      rfl
    | cons arg' args =>
      show (skipwhite (List.replicate (gaps 0) 32 ++ (c :: (arg ++ comma :: argsText _ (arg' :: args))))).map _ = _
      rw [skipwhite_append _ hspace, Option.map_some, ← List.cons_append, getstringupto_append hcomma]
      rfl

theorem parseintarg_argsText (gaps : ℕ → ℕ) (harg : IsArg n.text) (h : n.value < 2 ^ 31) (args : List (List UInt8)) :
    parseintarg.run (argsText gaps (n.text :: args)) =
      some (int32 n.read, argsText (fun i => gaps (i + 1)) args) := by
  rw [parseintarg, run_bind_some (nextarg_argsText gaps harg args), sscanfInt_numeral h]
  rfl

theorem parsechararg_argsText (gaps : ℕ → ℕ) {arg : List UInt8} (harg : IsArg (c :: arg)) (result : BitVec 32)
    (args : List (List UInt8)) :
    (parsechararg result).run (argsText gaps ((c :: arg) :: args)) =
      some (charInt c, argsText (fun i => gaps (i + 1)) args) := by
  rw [parsechararg, run_bind_some (nextarg_argsText gaps harg args)]
  rfl

/-- The bytes of a numeral: digits, letters up to `f`, and `x`. -/
theorem mem_numeral (h : c ∈ n.text) : isSpace c = false ∧ c ≠ comma ∧ c ≠ closeParen := by
  have hrange : (48 ≤ c ∧ c ≤ 57) ∨ (97 ≤ c ∧ c ≤ 120) ∨ (65 ≤ c ∧ c ≤ 70) := by
    cases n with
    | dec n => exact .inl (mem_printNat h)
    | hex ds =>
      rcases List.mem_cons.mp h with rfl | h
      · exact .inl (by decide)
      · rcases List.mem_cons.mp h with rfl | h
        · exact .inr (.inl (by decide))
        · have hdigit := ds.digits c h
          unfold digitVal at hdigit
          split_ifs at hdigit with h₁ h₂ h₃
          · exact .inl h₁
          · exact .inr (.inl ⟨h₂.1, UInt8.le_trans h₂.2 (by decide)⟩)
          · exact .inr (.inr h₃)
          · cases hdigit
  simp only [isSpace, comma, closeParen, UInt8.le_iff_toNat_le, ← UInt8.toNat_inj, ne_eq] at hrange ⊢
  simp at hrange ⊢
  omega

theorem Numeral.text_eq (n : Numeral) : ∃ c rest, n.text = c :: rest := by
  cases n with
  | dec n =>
    cases hp : printNat n with
    | nil =>
      have hscan := scanDigits_printNat n
      rw [hp] at hscan
      cases hscan
    | cons c rest => exact ⟨c, rest, hp⟩
  | hex ds => exact ⟨_, _, rfl⟩

theorem Numeral.isArg (n : Numeral) : IsArg n.text := by
  obtain ⟨c, rest, heq⟩ := n.text_eq
  have hmem : ∀ d ∈ n.text, isSpace d = false ∧ d ≠ comma ∧ d ≠ closeParen := fun d hd => mem_numeral hd
  refine ⟨⟨c, by rw [heq]; rfl, (hmem c (by rw [heq]; exact List.mem_cons_self)).1⟩, fun h => ?_, fun h => ?_⟩
  · exact (hmem comma h).2.1 rfl
  · exact (hmem closeParen h).2.2 rfl

theorem isArg_letter (h : 97 ≤ c) : IsArg [c] := by
  rw [UInt8.le_iff_toNat_le] at h
  refine ⟨⟨c, rfl, ?_⟩, ?_, ?_⟩
  all_goals
    simp only [isSpace, comma, closeParen, List.mem_singleton, UInt8.le_iff_toNat_le, ← UInt8.toNat_inj]
    simp at h ⊢
    omega

theorem Band.isArg (band : Band) : IsArg [band.char] := isArg_letter (by cases band <;> decide)

theorem Pol.isArg (pol : Pol) : IsArg [pol.char] := isArg_letter (by cases pol <;> decide)

theorem Position.isArg (position : Position) : IsArg [position.char] := isArg_letter (by cases position <;> decide)

theorem parseOscillator_char (band : Band) : parseOscillator (charInt band.char) = band.oscillator := by
  cases band <;> decide

theorem parsePolarization_char (pol : Pol) : parsePolarization (charInt pol.char) = pol.polarization := by
  cases pol <;> decide

theorem parseSwitch_char (position : Position) : parseSwitch (charInt position.char) = position.switch := by
  cases position <;> decide

theorem dispatch_name (f : Function) : dispatch f.name = some f := by
  cases f <;> decide

variable (regs : Regs)

theorem callResult_name (f : Function) (args : List UInt8) :
    callResult regs f.name args = .ofExec ((exec f regs).run args) := by
  rw [callResult, dispatch_name]

theorem parsechararg_numeral (gaps : ℕ → ℕ) (n : Numeral) (result : BitVec 32) (args : List (List UInt8)) :
    (parsechararg result).run (argsText gaps (n.text :: args)) =
      some (n.first, argsText (fun i => gaps (i + 1)) args) := by
  obtain ⟨c, rest, heq⟩ := n.text_eq
  have harg := n.isArg
  rw [heq] at harg
  rw [Numeral.first, heq]
  exact parsechararg_argsText gaps harg result args

theorem parseAddressInt_argsText (gaps : ℕ → ℕ) {address : Numeral} (haddress : address.value < 2 ^ 31)
    (hn : n.value < 2 ^ 31) (args : List (List UInt8)) :
    parseAddressInt.run (argsText gaps (address.text :: n.text :: args)) =
      some ((int32 address.read, int32 n.read), argsText (fun i => gaps (i + 1 + 1)) args) := by
  rw [parseAddressInt, run_bind_some (parseintarg_argsText gaps address.isArg haddress _),
    run_bind_some (parseintarg_argsText _ n.isArg hn _)]
  rfl

/-- **The interpreter on a command**, however its arguments are spaced. -/
theorem exec_command {c : Cmd Numeral} (h : c.Documented) (gaps : ℕ → ℕ) :
    callResult regs c.function.name (argsText gaps c.args) = c.result regs := by
  rw [callResult_name]
  cases c with
  | tone on =>
    rw [Cmd.function, Cmd.args, exec, run_bind_some (parsechararg_numeral gaps on _ _)]
    rfl
  | voltage volts =>
    have hlt : volts.value < 2 ^ 31 := by
      rcases h with h | h | h <;> omega
    rw [Cmd.function, Cmd.args, exec, run_bind_some (parseintarg_argsText gaps volts.isArg hlt _)]
    unfold Cmd.result
    dsimp only
    split_ifs <;> rfl
  | toneburst b =>
    cases b with
    | false =>
      rw [Cmd.function, Cmd.args, exec, run_bind_some (parsechararg_argsText gaps (isArg_letter (by decide)) _ _)]
      rfl
    | true =>
      rw [Cmd.function, Cmd.args, exec, run_bind_some (parsechararg_argsText gaps (isArg_letter (by decide)) _ _)]
      rfl
  | highvoltage on =>
    have hlt : on.value < 2 ^ 31 := lt_of_le_of_lt h (by decide)
    rw [Cmd.function, Cmd.args, exec, run_bind_some (parseintarg_argsText gaps on.isArg hlt _)]
    rfl
  | dishnetworks cmd =>
    rw [Cmd.function, Cmd.args, exec, run_bind_some (parseintarg_argsText gaps cmd.isArg h _)]
    rfl
  | wait ms =>
    rw [Cmd.function, Cmd.args, exec, run_bind_some (parseintarg_argsText gaps ms.isArg h _)]
    unfold Cmd.result
    dsimp only
    split_ifs <;> rfl
  | dreset address on =>
    rw [Cmd.function, Cmd.args, exec, run_bind_some (parseAddressInt_argsText gaps (lt_trans h.1 (by decide))
      (lt_of_le_of_lt h.2 (by decide)) _)]
    rfl
  | dpower address on =>
    rw [Cmd.function, Cmd.args, exec, run_bind_some (parseAddressInt_argsText gaps (lt_trans h.1 (by decide))
      (lt_of_le_of_lt h.2 (by decide)) _)]
    rfl
  | dcommitted address band pol satPos switchOption =>
    rw [Cmd.function, Cmd.args, exec,
      run_bind_some (parseintarg_argsText gaps address.isArg (lt_trans h (by decide)) _),
      run_bind_some (parsechararg_argsText _ band.isArg _ _), run_bind_some (parsechararg_argsText _ pol.isArg _ _),
      run_bind_some (parsechararg_argsText _ satPos.isArg _ _),
      run_bind_some (parsechararg_argsText _ switchOption.isArg _ _), parseOscillator_char, parsePolarization_char,
      parseSwitch_char, parseSwitch_char]
    rfl
  | duncommitted address s1 s2 s3 s4 =>
    rw [Cmd.function, Cmd.args, exec, run_bind_some (parsechararg_numeral gaps address _ _),
      run_bind_some (parsechararg_argsText _ s1.isArg _ _), run_bind_some (parsechararg_argsText _ s2.isArg _ _),
      run_bind_some (parsechararg_argsText _ s3.isArg _ _), run_bind_some (parsechararg_argsText _ s4.isArg _ _),
      parseSwitch_char, parseSwitch_char, parseSwitch_char, parseSwitch_char]
    rfl
  | dfrequency address frequency =>
    rw [Cmd.function, Cmd.args, exec,
      run_bind_some (parseAddressInt_argsText gaps (lt_trans h.1 (by decide)) h.2 _)]
    rfl
  | dchannel address channel =>
    rw [Cmd.function, Cmd.args, exec, run_bind_some (parseAddressInt_argsText gaps (lt_trans h.1 (by decide))
      (lt_trans h.2 (by decide)) _)]
    rfl
  | dgotopreset address preset =>
    rw [Cmd.function, Cmd.args, exec, run_bind_some (parseAddressInt_argsText gaps (lt_trans h.1 (by decide))
      (lt_trans h.2 (by decide)) _)]
    rfl

/-! ### When that is what the documentation says -/

/-- The whole number is read: it is decimal, or its digits beyond the 31 bytes do not change it. -/
def Numeral.Whole (n : Numeral) : Prop := n.read = n.value

/-- When the interpreter does what the documentation says of a command.  `tone` looks for a `b`, and the
address of `Duncommitted` is read as a character. -/
def Cmd.Obeyed : Cmd Numeral → Prop
  | .tone on => on.value = 0
  | .voltage volts => volts.Whole
  | .toneburst _ => True
  | .highvoltage on => on.Whole
  | .dishnetworks cmd => cmd.Whole
  | .wait ms => ms.Whole ∧ ms.value * 1000 < 2 ^ 31
  | .dreset address on => address.Whole ∧ on.Whole
  | .dpower address on => address.Whole ∧ on.Whole
  | .dcommitted address .. => address.Whole
  | .duncommitted address .. => address.first = int32 address.value
  | .dfrequency address frequency => address.Whole ∧ frequency.Whole
  | .dchannel address channel => address.Whole ∧ channel.Whole
  | .dgotopreset address preset => address.Whole ∧ preset.Whole

theorem int32_inj {a b : ℕ} (ha : a < 2 ^ 31) (hb : b < 2 ^ 31) : int32 a = int32 b ↔ a = b := by
  refine ⟨fun h => ?_, fun h => congrArg int32 h⟩
  have htoNat := congrArg BitVec.toNat h
  unfold int32 at htoNat
  rw [BitVec.toNat_ofNat, BitVec.toNat_ofNat] at htoNat
  omega

theorem int32_eq_zero {a : ℕ} (ha : a < 2 ^ 31) : int32 a = 0 ↔ a = 0 := int32_inj ha (by decide)

/-- A numeral that is read whole gives the `int` of its number, and no other does. -/
theorem Numeral.int32_read (n : Numeral) (h : n.value < 2 ^ 31) : int32 n.read = int32 n.value ↔ n.Whole :=
  int32_inj (lt_of_le_of_lt n.read_le h) h

theorem Numeral.setWidth_read (n : Numeral) {w : ℕ} (hw : w ≤ 32) (hlt : n.value < 2 ^ w) :
    (int32 n.read).setWidth w = BitVec.ofNat w n.value ↔ n.Whole := by
  have hread := lt_of_le_of_lt n.read_le hlt
  have hpow : 2 ^ w ≤ 2 ^ 32 := Nat.pow_le_pow_right (by decide) hw
  rw [← BitVec.toNat_inj, BitVec.toNat_setWidth, int32, BitVec.toNat_ofNat, BitVec.toNat_ofNat,
    Nat.mod_eq_of_lt (lt_of_lt_of_le hread hpow), Nat.mod_eq_of_lt hread, Nat.mod_eq_of_lt hlt]
  rfl

theorem Numeral.headD_text (n : Numeral) : 48 ≤ n.text.headD 0 ∧ n.text.headD 0 ≤ 57 := by
  cases n with
  | dec n =>
    obtain ⟨c, rest, heq⟩ := (Numeral.dec n).text_eq
    have hmem : c ∈ printNat n := by
      rw [show printNat n = c :: rest from heq]
      exact List.mem_cons_self
    rw [heq]
    exact mem_printNat hmem
  | hex ds =>
    show (48 : UInt8) ≤ 48 ∧ (48 : UInt8) ≤ 57
    decide

theorem toupper_digit (h : 48 ≤ c ∧ c ≤ 57) : toupper (charInt c) ≠ 66 := by
  rw [UInt8.le_iff_toNat_le, UInt8.le_iff_toNat_le] at h
  have hall : ∀ d : Fin 10, toupper (charInt (UInt8.ofNat (48 + d))) ≠ 66 := by decide
  have hc := hall ⟨c.toNat - 48, by
    have hle : c.toNat ≤ 57 := h.2
    omega⟩
  have heq : 48 + (c.toNat - 48) = c.toNat := Nat.add_sub_cancel' h.1
  rwa [heq, UInt8.ofNat_toNat] at hc

def Cmd.after (regs : Regs) : Cmd Numeral → Regs
  | .tone on => { regs with iarg := on.first }
  | .voltage volts => { regs with iarg := int32 volts.read }
  | .toneburst b => { regs with iarg := charInt (if b = true then 98 else 97) }
  | .highvoltage on => { regs with iarg := int32 on.read }
  | .dishnetworks cmd => { regs with iarg := int32 cmd.read }
  | .wait ms => { regs with iarg := int32 ms.read }
  | .dreset address on => { regs with address := int32 address.read, iarg := int32 on.read }
  | .dpower address on => { regs with address := int32 address.read, iarg := int32 on.read }
  | .dcommitted address band pol satPos switchOption =>
    ⟨int32 address.read, charInt band.char, charInt pol.char, charInt satPos.char, charInt switchOption.char⟩
  | .duncommitted address s1 s2 s3 s4 =>
    ⟨address.first, charInt s1.char, charInt s2.char, charInt s3.char, charInt s4.char⟩
  | .dfrequency address frequency =>
    { regs with address := int32 address.read, iarg := int32 frequency.read }
  | .dchannel address channel => { regs with address := int32 address.read, iarg := int32 channel.read }
  | .dgotopreset address preset => { regs with address := int32 address.read, iarg := int32 preset.read }

theorem Numeral.decide_read (h : n.value ≤ 1) :
    (decide (int32 n.read ≠ 0) = decide (n.value = 1) ↔ n.Whole) ∧
      (decide (int32 n.read = 0) = decide (n.value = 0) ↔ n.Whole) := by
  have hread := n.read_le
  have hzero := int32_eq_zero (a := n.read) (by omega)
  rw [decide_eq_decide, decide_eq_decide, ne_eq, hzero, Numeral.Whole]
  omega

theorem Cmd.result_wait {ms : Numeral} (h : ms.value < 2 ^ 31) :
    (Cmd.wait ms).result regs =
      if ms.read = 0 then .done [] ((Cmd.wait ms).after regs)
      else if ms.read * 1000 < 2 ^ 31 then .done [.usleep (ms.read * 1000)] ((Cmd.wait ms).after regs)
      else .undefined := by
  have hread : ms.read < 2 ^ 31 := lt_of_le_of_lt ms.read_le h
  have htoNat : (int32 ms.read).toNat = ms.read := by
    rw [int32, BitVec.toNat_ofNat]
    omega
  have htoInt : (int32 ms.read).toInt = ms.read := by
    rw [BitVec.toInt_eq_toNat_of_lt (by omega), htoNat]
  have hmul : ms.read * 1000 < 2 ^ 31 → (int32 ms.read * 1000).toNat = ms.read * 1000 := by
    intro hlt
    rw [BitVec.toNat_mul, htoNat]
    exact Nat.mod_eq_of_lt (lt_trans hlt (by decide))
  have hbounds : (-2 ^ 31 ≤ (ms.read : ℤ) * 1000 ∧ (ms.read : ℤ) * 1000 < 2 ^ 31) ↔ ms.read * 1000 < 2 ^ 31 := by
    omega
  rw [Cmd.result, htoInt, if_congr (int32_eq_zero hread) rfl (if_congr hbounds rfl rfl)]
  split_ifs with hzero hlt
  · rfl
  · rw [hmul hlt]
    rfl
  · rfl

/-- **A command that is obeyed** does what the documentation says. -/
theorem Cmd.result_of_obeyed {c : Cmd Numeral} (hdoc : c.Documented) (h : c.Obeyed) :
    c.result regs = .done c.meaning (c.after regs) := by
  cases c with
  | tone on =>
    have hvalue : on.value = 0 := h
    have hfirst := toupper_digit on.headD_text
    rw [Cmd.result, Cmd.meaning, Numeral.first, decide_eq_false hfirst, hvalue]
    rfl
  | voltage volts =>
    have hwhole : volts.read = volts.value := h
    rw [Cmd.result, Cmd.meaning, Cmd.after, hwhole]
    rcases hdoc with hv | hv | hv <;> rw [hv] <;> rfl
  | toneburst b => rfl
  | highvoltage on =>
    rw [Cmd.result, Cmd.meaning, (Numeral.decide_read hdoc).1.mpr h]
    rfl
  | dishnetworks cmd =>
    rw [Cmd.result, Cmd.meaning, Cmd.after, (cmd.int32_read hdoc).mpr h]
  | wait ms =>
    have hwhole : ms.read = ms.value := h.1
    rw [Cmd.result_wait regs hdoc, Cmd.meaning, hwhole, if_pos h.2]
    split_ifs <;> rfl
  | dreset address on =>
    rw [Cmd.result, Cmd.meaning, (address.int32_read (lt_trans hdoc.1 (by decide))).mpr h.1,
      (Numeral.decide_read hdoc.2).2.mpr h.2, Cmd.after, (address.int32_read (lt_trans hdoc.1 (by decide))).mpr h.1]
  | dpower address on =>
    rw [Cmd.result, Cmd.meaning, (address.int32_read (lt_trans hdoc.1 (by decide))).mpr h.1,
      (Numeral.decide_read hdoc.2).1.mpr h.2, Cmd.after, (address.int32_read (lt_trans hdoc.1 (by decide))).mpr h.1]
  | dcommitted address band pol satPos switchOption =>
    rw [Cmd.result, Cmd.meaning, Cmd.after, (address.int32_read (lt_trans hdoc (by decide))).mpr h]
  | duncommitted address s1 s2 s3 s4 =>
    have hfirst : address.first = int32 address.value := h
    rw [Cmd.result, Cmd.meaning, Cmd.after, hfirst]
  | dfrequency address frequency =>
    rw [Cmd.result, Cmd.meaning, Cmd.after, (address.int32_read (lt_trans hdoc.1 (by decide))).mpr h.1,
      (frequency.int32_read hdoc.2).mpr h.2]
  | dchannel address channel =>
    rw [Cmd.result, Cmd.meaning, Cmd.after, (address.int32_read (lt_trans hdoc.1 (by decide))).mpr h.1,
      (channel.setWidth_read (by decide) hdoc.2).mpr h.2]
  | dgotopreset address preset =>
    rw [Cmd.result, Cmd.meaning, Cmd.after, (address.int32_read (lt_trans hdoc.1 (by decide))).mpr h.1,
      (preset.setWidth_read (by decide) hdoc.2).mpr h.2]

/-- **A command that is not obeyed** does something else. -/
theorem Cmd.obeyed_of_result {c : Cmd Numeral} (hdoc : c.Documented) {regs' : Regs}
    (h : c.result regs = .done c.meaning regs') : c.Obeyed := by
  cases c with
  | tone on =>
    rw [Cmd.result, Cmd.meaning, Numeral.first, decide_eq_false (toupper_digit on.headD_text)] at h
    injection h with hops
    injection hops with hop
    injection hop with hon
    have hne : on.value ≠ 1 := of_decide_eq_false hon.symm
    have hle : on.value ≤ 1 := hdoc
    show on.value = 0
    omega
  | voltage volts =>
    have hread : volts.read ≤ volts.value := volts.read_le
    have hlt : volts.value ≤ 18 := by
      rcases hdoc with hv | hv | hv <;> omega
    have hint (k : ℕ) (hk : k < 2 ^ 31) : int32 volts.read = int32 k ↔ volts.read = k :=
      int32_inj (by omega) hk
    have h₀ : int32 volts.read = 0 ↔ volts.read = 0 := hint 0 (by decide)
    have h₁₃ : int32 volts.read = 13 ↔ volts.read = 13 := hint 13 (by decide)
    have h₁₈ : int32 volts.read = 18 ↔ volts.read = 18 := hint 18 (by decide)
    rw [Cmd.result, Cmd.meaning, if_congr h₀ rfl (if_congr h₁₃ rfl (if_congr h₁₈ rfl rfl))] at h
    show volts.read = volts.value
    rcases hdoc with hv | hv | hv
    all_goals
      rw [hv] at h ⊢
      split_ifs at h <;> first | omega | contradiction | cases h
  | toneburst b => trivial
  | highvoltage on =>
    injection h with hops
    injection hops with hop
    injection hop with hon
    exact (Numeral.decide_read hdoc).1.mp hon
  | dishnetworks cmd =>
    injection h with hops
    injection hops with hop
    injection hop with hcmd
    exact (cmd.int32_read hdoc).mp hcmd
  | wait ms =>
    have hread : ms.read ≤ ms.value := ms.read_le
    rw [Cmd.result_wait regs hdoc, Cmd.meaning] at h
    split_ifs at h with hread₀ hvalue₀ hlt hvalue₀
    · refine ⟨show ms.read = ms.value by omega, ?_⟩
      rw [hvalue₀]
      decide
    · cases h
    · cases h
    · injection h with hops
      injection hops with hop
      injection hop with husec
      have hwhole : ms.read = ms.value := Nat.eq_of_mul_eq_mul_right (by decide) husec
      exact ⟨hwhole, hwhole ▸ hlt⟩
  | dreset address on =>
    injection h with hops
    injection hops with hop
    injection hop with haddress hon
    exact ⟨(address.int32_read (lt_trans hdoc.1 (by decide))).mp haddress, (Numeral.decide_read hdoc.2).2.mp hon⟩
  | dpower address on =>
    injection h with hops
    injection hops with hop
    injection hop with haddress hon
    exact ⟨(address.int32_read (lt_trans hdoc.1 (by decide))).mp haddress, (Numeral.decide_read hdoc.2).1.mp hon⟩
  | dcommitted address band pol satPos switchOption =>
    injection h with hops
    injection hops with hop
    injection hop with haddress
    exact (address.int32_read (lt_trans hdoc (by decide))).mp haddress
  | duncommitted address s1 s2 s3 s4 =>
    injection h with hops
    injection hops with hop
    injection hop with haddress
  | dfrequency address frequency =>
    injection h with hops
    injection hops with hop
    injection hop with haddress hfrequency
    exact ⟨(address.int32_read (lt_trans hdoc.1 (by decide))).mp haddress, (frequency.int32_read hdoc.2).mp hfrequency⟩
  | dchannel address channel =>
    injection h with hops
    injection hops with hop
    injection hop with haddress hchannel
    exact ⟨(address.int32_read (lt_trans hdoc.1 (by decide))).mp haddress,
      (channel.setWidth_read (by decide) hdoc.2).mp hchannel⟩
  | dgotopreset address preset =>
    injection h with hops
    injection hops with hop
    injection hop with haddress hpreset
    exact ⟨(address.int32_read (lt_trans hdoc.1 (by decide))).mp haddress,
      (preset.setWidth_read (by decide) hdoc.2).mp hpreset⟩

/-! ### Calls that are refused -/

/-- What a function wants of an argument. -/
inductive Kind
  | int | char | float
  deriving DecidableEq, Repr

def Function.kinds : Function → List Kind
  | .tone => [.char]
  | .voltage => [.int]
  | .toneburst => [.char]
  | .highvoltage => [.int]
  | .dishnetworks => [.int]
  | .wait => [.int]
  | .dreset => [.int, .int]
  | .dpower => [.int, .int]
  | .dcommitted => [.int, .char, .char, .char, .char]
  | .duncommitted => [.char, .char, .char, .char, .char]
  | .dfrequency => [.int, .int]
  | .dchannel => [.int, .int]
  | .dgotopreset => [.int, .int]
  | .dgotobearing => [.int, .float]

def Readable : List Kind → List UInt8 → Prop
  | [], _ => True
  | kind :: kinds, args => ∃ arg rest, nextarg.run args = some (arg, rest) ∧
      (kind = .int → sscanfInt (arg.take 31) ≠ none) ∧ Readable kinds rest

/-- No function has a name that starts so, or the one that has does not find its arguments. -/
def Unknown (name args : List UInt8) : Prop :=
  ∀ f, dispatch name = some f → Readable f.kinds args →
    f = .voltage ∧ ∀ volts rest, parseintarg.run args = some (volts, rest) → volts ≠ 0 ∧ volts ≠ 13 ∧ volts ≠ 18

section

variable {β : Type}

theorem parseintarg_none_iff {q : BitVec 32 → Reader UInt8 β}
    (h : ∀ result rest, (q result).run rest = none ↔ ¬Readable kinds rest) (args : List UInt8) :
    (parseintarg >>= q).run args = none ↔ ¬Readable (.int :: kinds) args := by
  rw [parseintarg, bind_assoc, run_bind_none]
  constructor
  · rintro hnone ⟨arg, rest, hnext, hint, hreadable⟩
    have hrest := hnone arg rest hnext
    cases hscan : sscanfInt (arg.take 31) with
    | none => exact hint rfl hscan
    | some result =>
      rw [hscan] at hrest
      exact (h result rest).mp hrest hreadable
  · intro hunreadable arg rest hnext
    cases hscan : sscanfInt (arg.take 31) with
    | none => rfl
    | some result =>
      refine (h result rest).mpr fun hreadable => hunreadable ⟨arg, rest, hnext, fun _ => ?_, hreadable⟩
      rw [hscan]
      exact Option.some_ne_none result

theorem nextarg_none_iff {kind : Kind} (hkind : kind ≠ .int) {q : List UInt8 → Reader UInt8 β}
    (h : ∀ arg rest, (q arg).run rest = none ↔ ¬Readable kinds rest) (args : List UInt8) :
    (nextarg >>= q).run args = none ↔ ¬Readable (kind :: kinds) args := by
  rw [run_bind_none]
  constructor
  · rintro hnone ⟨arg, rest, hnext, -, hreadable⟩
    exact (h arg rest).mp (hnone arg rest hnext) hreadable
  · intro hunreadable arg rest hnext
    exact (h arg rest).mpr fun hreadable =>
      hunreadable ⟨arg, rest, hnext, fun hint => absurd hint hkind, hreadable⟩

theorem parsechararg_none_iff {old : BitVec 32} {q : BitVec 32 → Reader UInt8 β}
    (h : ∀ result rest, (q result).run rest = none ↔ ¬Readable kinds rest) (args : List UInt8) :
    (parsechararg old >>= q).run args = none ↔ ¬Readable (.char :: kinds) args := by
  rw [parsechararg, bind_assoc]
  refine nextarg_none_iff (by decide) (fun arg rest => ?_) args
  cases arg with
  | nil => exact h old rest
  | cons c arg => exact h (charInt c) rest

theorem pure_none_iff (b : β) (rest : List UInt8) : (pure b : Reader UInt8 β).run rest = none ↔ ¬Readable [] rest :=
  ⟨fun h => (Option.some_ne_none _ h).elim, fun h => absurd trivial h⟩

theorem parseAddressInt_none_iff {q : BitVec 32 × BitVec 32 → Reader UInt8 β}
    (h : ∀ result rest, (q result).run rest ≠ none) (args : List UInt8) :
    (parseAddressInt >>= q).run args = none ↔ ¬Readable [.int, .int] args := by
  rw [parseAddressInt, bind_assoc]
  refine parseintarg_none_iff (fun address rest => ?_) args
  rw [bind_assoc]
  refine parseintarg_none_iff (fun iarg rest => ?_) rest
  rw [pure_bind]
  exact ⟨fun hnone => absurd hnone (h _ _), fun hreadable => absurd trivial hreadable⟩

end

/-- A function other than `voltage` is refused exactly if it does not find its arguments. -/
theorem exec_none_iff {f : Function} (hf : f ≠ .voltage) (regs : Regs) (args : List UInt8) :
    (exec f regs).run args = none ↔ ¬Readable f.kinds args := by
  cases f with
  | voltage => exact absurd rfl hf
  | tone => exact parsechararg_none_iff (fun iarg rest => pure_none_iff _ rest) args
  | toneburst => exact parsechararg_none_iff (fun iarg rest => pure_none_iff _ rest) args
  | highvoltage => exact parseintarg_none_iff (fun iarg rest => pure_none_iff _ rest) args
  | dishnetworks => exact parseintarg_none_iff (fun iarg rest => pure_none_iff _ rest) args
  | wait =>
    refine parseintarg_none_iff (fun iarg rest => ?_) args
    split_ifs <;> exact pure_none_iff _ rest
  | dreset | dpower | dfrequency | dchannel | dgotopreset =>
    exact parseAddressInt_none_iff (fun result rest => Option.some_ne_none _) args
  | dcommitted =>
    refine parseintarg_none_iff (fun address rest => ?_) args
    refine parsechararg_none_iff (fun iarg rest => ?_) rest
    refine parsechararg_none_iff (fun iarg2 rest => ?_) rest
    refine parsechararg_none_iff (fun iarg3 rest => ?_) rest
    exact parsechararg_none_iff (fun iarg4 rest => pure_none_iff _ rest) rest
  | duncommitted =>
    refine parsechararg_none_iff (fun address rest => ?_) args
    refine parsechararg_none_iff (fun iarg rest => ?_) rest
    refine parsechararg_none_iff (fun iarg2 rest => ?_) rest
    refine parsechararg_none_iff (fun iarg3 rest => ?_) rest
    exact parsechararg_none_iff (fun iarg4 rest => pure_none_iff _ rest) rest
  | dgotobearing =>
    refine parseintarg_none_iff (fun address rest => ?_) args
    exact nextarg_none_iff (by decide) (fun arg rest => pure_none_iff _ rest) rest

theorem exec_voltage_none_iff (args : List UInt8) :
    (exec .voltage regs).run args = none ↔ (Readable Function.voltage.kinds args →
      ∀ volts rest, parseintarg.run args = some (volts, rest) → volts ≠ 0 ∧ volts ≠ 13 ∧ volts ≠ 18) := by
  rw [exec, run_bind_none]
  constructor
  · intro hnone _ volts rest hvolts
    have hrefused := hnone volts rest hvolts
    refine ⟨?_, ?_, ?_⟩
    all_goals
      rintro rfl
      cases hrefused
  · intro hother volts rest hvolts
    have hreadable : Readable Function.voltage.kinds args := by
      by_contra hnot
      have hnone := (parseintarg_none_iff (fun _ rest => pure_none_iff () rest) args).mpr hnot
      rw [run_bind_some hvolts] at hnone
      cases hnone
    obtain ⟨h₀, h₁₃, h₁₈⟩ := hother hreadable volts rest hvolts
    rw [if_neg h₀, if_neg h₁₃, if_neg h₁₈]
    rfl

theorem Result.ofExec_refused_iff (r : Option (Option (List Op × Regs) × List UInt8)) :
    Result.ofExec r = .refused ↔ r = none := by
  rcases r with _ | ⟨_ | ⟨ops, regs⟩, rest⟩
  · exact ⟨fun _ => rfl, fun _ => rfl⟩
  · exact ⟨fun h => (by cases h), fun h => (by cases h)⟩
  · exact ⟨fun h => (by cases h), fun h => (by cases h)⟩

/-- **The calls that are refused.** -/
theorem callResult_refused_iff (name args : List UInt8) : callResult regs name args = .refused ↔ Unknown name args := by
  unfold callResult Unknown
  cases hdispatch : dispatch name with
  | none => exact ⟨fun _ f hf => (Option.some_ne_none f hf.symm).elim, fun _ => rfl⟩
  | some f =>
    dsimp only
    rw [Result.ofExec_refused_iff]
    by_cases hf : f = .voltage
    · subst hf
      rw [exec_voltage_none_iff]
      refine ⟨fun h g hg hreadable => ?_, fun h hreadable => (h _ rfl hreadable).2⟩
      cases hg
      exact ⟨rfl, h hreadable⟩
    · rw [exec_none_iff hf]
      refine ⟨fun h g hg hreadable => ?_, fun h hreadable => hf (h f rfl hreadable).1⟩
      cases hg
      exact absurd hreadable h

/-! ### Sequences -/

theorem mem_argsText {gaps : ℕ → ℕ} {args : List (List UInt8)} (h : c ∈ argsText gaps args) :
    c = 32 ∨ c = comma ∨ ∃ arg ∈ args, c ∈ arg := by
  induction args generalizing gaps with
  | nil => cases h
  | cons arg args ih =>
    cases args with
    | nil =>
      rcases List.mem_append.mp h with h | h
      · exact .inl (List.eq_of_mem_replicate h)
      · exact .inr (.inr ⟨arg, List.mem_cons_self, h⟩)
    | cons arg' args =>
      rcases List.mem_append.mp h with h | h
      · exact .inl (List.eq_of_mem_replicate h)
      · rcases List.mem_append.mp h with h | h
        · exact .inr (.inr ⟨arg, List.mem_cons_self, h⟩)
        · rcases List.mem_cons.mp h with rfl | h
          · exact .inr (.inl rfl)
          · rcases ih h with h | h | ⟨arg'', harg'', h⟩
            · exact .inl h
            · exact .inr (.inl h)
            · exact .inr (.inr ⟨arg'', List.mem_cons_of_mem arg harg'', h⟩)

theorem Cmd.isArg_args (c : Cmd Numeral) : ∀ arg ∈ c.args, IsArg arg := by
  intro arg h
  cases c <;> simp only [Cmd.args, List.mem_cons, List.not_mem_nil, or_false] at h
  case toneburst b =>
    subst h
    exact isArg_letter (by cases b <;> decide)
  case dcommitted =>
    rcases h with rfl | rfl | rfl | rfl | rfl
    exacts [Numeral.isArg _, Band.isArg _, Pol.isArg _, Position.isArg _, Position.isArg _]
  case duncommitted =>
    rcases h with rfl | rfl | rfl | rfl | rfl
    exacts [Numeral.isArg _, Position.isArg _, Position.isArg _, Position.isArg _, Position.isArg _]
  all_goals first
    | (subst h; exact Numeral.isArg _)
    | (rcases h with rfl | rfl <;> exact Numeral.isArg _)

theorem Cmd.closeParen_notMem (c : Cmd Numeral) (gaps : ℕ → ℕ) : closeParen ∉ argsText gaps c.args := by
  intro h
  rcases mem_argsText h with h | h | ⟨arg, harg, h⟩
  · cases h
  · cases h
  · exact (c.isArg_args arg harg).2.2 h

theorem Function.isName (f : Function) : IsName f.name := by
  cases f
  all_goals
    refine ⟨fun c hc => ?_, by decide⟩
    cases hc
    rfl

/-- A command as it stands in a sequence. -/
structure Call where
  spaces : ℕ
  cmd : Cmd Numeral
  documented : cmd.Documented
  gaps : ℕ → ℕ

/-- A call of another function, and what stands behind it. -/
structure Other where
  spaces : ℕ
  name : List UInt8
  args : List UInt8
  rest : List UInt8
  isName : IsName name
  closeParen_notMem : closeParen ∉ args
  zero_notMem : 0 ∉ name ++ args ++ rest
  ne_name : ∀ c : Cmd Numeral, name ≠ c.function.name

/-- A sequence ends with white space, or comes to another function. -/
inductive End
  | spaces (n : ℕ)
  | other (o : Other)

def End.text : End → List UInt8
  | .spaces n => List.replicate n 32
  | .other o => List.replicate o.spaces 32 ++ (o.name ++ openParen :: (o.args ++ closeParen :: o.rest))

def seqText : List Call → End → List UInt8
  | [], last => last.text
  | call :: calls, last =>
    List.replicate call.spaces 32 ++ (call.cmd.function.name ++
      openParen :: (argsText call.gaps call.cmd.args ++ closeParen :: seqText calls last))

def End.value : End → ℤ
  | .spaces _ => 0
  | .other _ => -1

def End.Refused : End → Prop
  | .spaces _ => True
  | .other o => Unknown o.name o.args

/-- What the documentation says of a sequence, command by command. -/
def promised (calls : List Call) (last : End) : List (List Op) × ℤ :=
  (calls.map fun call => call.cmd.meaning, last.value)

theorem dvbsecCommand_end (last : End) : dvbsecCommand regs last.text = some (promised [] last) ↔ last.Refused := by
  cases last with
  | spaces n => exact ⟨fun _ => trivial, fun _ => dvbsecCommand_spaces regs n⟩
  | other o =>
    rw [End.text, dvbsecCommand_call regs o.spaces o.isName o.closeParen_notMem, End.Refused,
      ← callResult_refused_iff regs]
    cases callResult regs o.name o.args with
    | refused => exact ⟨fun _ => rfl, fun _ => rfl⟩
    | undefined => exact ⟨fun h => (by cases h), fun h => (by cases h)⟩
    | done ops regs' =>
      refine ⟨fun h => ?_, fun h => (by cases h)⟩
      obtain ⟨r, -, hr⟩ := Option.map_eq_some_iff.mp h
      cases hr

/-- **The command language**: the operations are the documented ones, command by command, and the value the
promised one, exactly if every command is obeyed and the other function is not known. -/
theorem command_iff (regs : Regs) (calls : List Call) (last : End) :
    dvbsecCommand regs (seqText calls last) = some (promised calls last) ↔
      (∀ call ∈ calls, call.cmd.Obeyed) ∧ last.Refused := by
  induction calls generalizing regs with
  | nil =>
    rw [seqText, dvbsecCommand_end]
    exact ⟨fun h => ⟨fun _ hcall => (by cases hcall), h⟩, fun h => h.2⟩
  | cons call calls ih =>
    rw [seqText, dvbsecCommand_call regs call.spaces (Function.isName _) (call.cmd.closeParen_notMem _),
      exec_command regs call.documented]
    rw [List.forall_mem_cons, and_assoc]
    constructor
    · intro h
      cases hresult : call.cmd.result regs with
      | refused =>
        rw [hresult] at h
        cases h
      | undefined =>
        rw [hresult] at h
        cases h
      | done ops regs' =>
        rw [hresult] at h
        obtain ⟨⟨groups, value⟩, hrest, heq⟩ := Option.map_eq_some_iff.mp h
        injection heq with hgroups hvalue
        injection hgroups with hops hgroups
        refine ⟨Cmd.obeyed_of_result regs call.documented (hops ▸ hresult), (ih regs').mp ?_⟩
        rw [hrest]
        exact congrArg some (Prod.ext hgroups hvalue)
    · rintro ⟨hobeyed, hrest⟩
      rw [Cmd.result_of_obeyed regs call.documented hobeyed]
      dsimp only
      rw [(ih _).mpr hrest]
      rfl

/-- `tone(1)` -/
def toneOn : Call where
  spaces := 0
  cmd := .tone (.dec 1)
  documented := le_rfl
  gaps := fun _ => 0

/-- `tone(1)` switches the tone off. -/
theorem not_forall_command :
    ¬∀ (regs : Regs) (calls : List Call) (last : End),
      dvbsecCommand regs (seqText calls last) = some (promised calls last) := by
  intro h
  have htone := h ⟨0, 0, 0, 0, 0⟩ [toneOn] (.spaces 0)
  have hresult : toneOn.cmd.result ⟨0, 0, 0, 0, 0⟩ = .done [.set22kTone false] ⟨0, 49, 0, 0, 0⟩ := by
    decide
  rw [seqText, dvbsecCommand_call _ _ (Function.isName _) (toneOn.cmd.closeParen_notMem _),
    exec_command _ toneOn.documented, hresult] at htone
  obtain ⟨r, -, hr⟩ := Option.map_eq_some_iff.mp htone
  injection hr with hgroups
  injection hgroups with hops
  injection hops with hop
  injection hop with hon
  cases hon

end BgtDvb.Dvbsec
