import Mathlib

/-!
# Terminals with attributes

A terminal shows bytes one after another with the attributes of its pen. An escape and a bracket begin a sequence of
numbers; with `m` at its end the numbers change the pen, and one that is missing sets it back. An escape without a bracket
is shown as it is.

* `applyParam`, `applyParam_fg`, `applyParam_bg` — what a number does to the pen;
* `flush`, `readByte_flush` — an escape that turns out to be none;
* `decimal`, `sequence`, `read_sequence` — **PROVED**: how a sequence that changes the pen is read;
* `read_char` — **PROVED**: and how a character is.

Nothing here names a particular program.
-/

namespace BgtDvb.Terminal

/-! ### The terminal -/

/-- The attributes in which characters are shown. -/
structure Pen where
  fg : UInt8
  bg : UInt8
  bold : Bool
  blink : Bool
  deriving DecidableEq

inductive Mode
  | text
  /-- Behind an escape. -/
  | escape
  /-- In a sequence: the numbers before, and the one that is read. -/
  | numbers (before : List (Option ℕ)) (last : Option ℕ)
  deriving DecidableEq

structure Screen where
  shown : List (UInt8 × Pen)
  pen : Pen
  mode : Mode
  deriving DecidableEq

def escapeByte : UInt8 := 0x1b

def bracket : UInt8 := 0x5b

def separator : UInt8 := 0x3b

def finalByte : UInt8 := 0x6d

/-- A number of a sequence; the colours of the terminal itself are those of `default`. -/
def applyParam (default pen : Pen) (param : Option ℕ) : Pen :=
  match param with
  | none => default
  | some n =>
    if n = 0 then default
    else if n = 1 then { pen with bold := true }
    else if n = 5 then { pen with blink := true }
    else if 30 ≤ n ∧ n ≤ 37 then { pen with fg := UInt8.ofNat (n - 30) }
    else if 40 ≤ n ∧ n ≤ 47 then { pen with bg := UInt8.ofNat (n - 40) }
    else pen

/-- A byte that is no part of a sequence. -/
def Screen.take (s : Screen) (c : UInt8) : Screen :=
  if c = escapeByte then { s with mode := .escape } else { s with shown := s.shown ++ [(c, s.pen)], mode := .text }

/-- An escape that is pending is shown. -/
def flush (s : Screen) : Screen :=
  match s.mode with
  | .text => s
  | .escape => { s with shown := s.shown ++ [(escapeByte, s.pen)], mode := .text }
  | .numbers _ _ => s

/-- One byte. -/
def readByte (default : Pen) (s : Screen) (c : UInt8) : Screen :=
  match s.mode with
  | .text => s.take c
  | .escape => if c = bracket then { s with mode := .numbers [] none } else (flush s).take c
  | .numbers before last =>
    if 0x30 ≤ c ∧ c ≤ 0x39 then { s with mode := .numbers before (some (10 * last.getD 0 + (c.toNat - 48))) }
    else if c = separator then { s with mode := .numbers (before ++ [last]) none }
    else if c = finalByte then
      { s with pen := (before ++ [last]).foldl (applyParam default) s.pen, mode := .text }
    else { s with mode := .text }

/-- Bytes one after another. -/
def read (default : Pen) (s : Screen) (bytes : List UInt8) : Screen := bytes.foldl (readByte default) s

variable {default : Pen} {s : Screen} {c : UInt8}

theorem read_nil (s : Screen) : read default s [] = s := rfl

theorem read_cons (s : Screen) (c : UInt8) (w : List UInt8) :
    read default s (c :: w) = read default (readByte default s c) w := rfl

theorem read_append (s : Screen) (v w : List UInt8) : read default s (v ++ w) = read default (read default s v) w :=
  List.foldl_append

theorem readByte_text (h : s.mode = .text) : readByte default s c = s.take c := by simp only [readByte, h]

theorem readByte_escape (h : s.mode = .escape) :
    readByte default s c = if c = bracket then { s with mode := .numbers [] none } else (flush s).take c := by
  simp only [readByte, h]

variable {before params : List (Option ℕ)} {last : Option ℕ}

theorem readByte_numbers (h : s.mode = .numbers before last) :
    readByte default s c =
      if 0x30 ≤ c ∧ c ≤ 0x39 then { s with mode := .numbers before (some (10 * last.getD 0 + (c.toNat - 48))) }
      else if c = separator then { s with mode := .numbers (before ++ [last]) none }
      else if c = finalByte then
        { s with pen := (before ++ [last]).foldl (applyParam default) s.pen, mode := .text }
      else { s with mode := .text } := by simp only [readByte, h]

theorem applyParam_fg {pen : Pen} (hc : c < 8) : applyParam default pen (some (c.toNat + 30)) = { pen with fg := c } := by
  have hlt : c.toNat < 8 := UInt8.lt_iff_toNat_lt.mp hc
  simp only [applyParam]
  rw [if_neg (by omega), if_neg (by omega), if_neg (by omega), if_pos (by omega), Nat.add_sub_cancel, UInt8.ofNat_toNat]

theorem applyParam_bg {pen : Pen} (hc : c < 8) : applyParam default pen (some (c.toNat + 40)) = { pen with bg := c } := by
  have hlt : c.toNat < 8 := UInt8.lt_iff_toNat_lt.mp hc
  simp only [applyParam]
  rw [if_neg (by omega), if_neg (by omega), if_neg (by omega), if_neg (by omega), if_pos (by omega),
    Nat.add_sub_cancel, UInt8.ofNat_toNat]

/-- The terminal is in no sequence. -/
def Screen.Steady (s : Screen) : Prop := s.mode = .text ∨ s.mode = .escape

theorem flush_text (h : s.mode = .text) : flush s = s := by simp only [flush, h]

theorem flush_escape (h : s.mode = .escape) :
    flush s = { s with shown := s.shown ++ [(escapeByte, s.pen)], mode := .text } := by simp only [flush, h]

theorem flush_pen (s : Screen) : (flush s).pen = s.pen := by
  cases h : s.mode with
  | text => rw [flush_text h]
  | escape => rw [flush_escape h]
  | numbers before last => simp only [flush, h]

theorem Screen.Steady.flush_mode (h : s.Steady) : (flush s).mode = .text := by
  rcases h with htext | hescape
  · rw [flush_text htext, htext]
  · rw [flush_escape hescape]

theorem Screen.Steady.readByte_flush (h : s.Steady) (hc : s.mode = .escape → c ≠ bracket) :
    readByte default s c = (flush s).take c := by
  rcases h with htext | hescape
  · rw [readByte_text htext, flush_text htext]
  · rw [readByte_escape hescape, if_neg (hc hescape)]

theorem take_shown (s : Screen) (c : UInt8) :
    (s.take c).Steady ∧ (s.take c).pen = s.pen ∧ (flush (s.take c)).shown = s.shown ++ [(c, s.pen)]
      ∧ ((s.take c).mode = .escape → c = escapeByte) := by
  unfold Screen.take
  split
  next hescape =>
    rw [flush_escape rfl, hescape]
    exact ⟨.inr rfl, rfl, rfl, fun _ => rfl⟩
  · rw [flush_text rfl]
    exact ⟨.inl rfl, rfl, rfl, nofun⟩

/-! ### Sequences -/

/-- The digits of a number. -/
def decimal (n : ℕ) : List UInt8 := (Nat.digits 10 n).reverse.map fun d => UInt8.ofNat (48 + d)

/-- A number of a sequence, or nothing. -/
def paramBytes (param : Option ℕ) : List UInt8 := (param.map decimal).getD []

/-- A sequence with a separator behind each number; the last one makes room for the final byte. -/
def sequence (params : List (Option ℕ)) : List UInt8 :=
  escapeByte :: bracket :: ((params.flatMap fun p => paramBytes p ++ [separator]).dropLast ++ [finalByte])

theorem readByte_digit (h : s.mode = .numbers before last) {d : ℕ} (hd : d < 10) :
    readByte default s (UInt8.ofNat (48 + d)) =
      { s with mode := .numbers before (some (10 * last.getD 0 + d)) } := by
  have hnat : (UInt8.ofNat (48 + d)).toNat = 48 + d := UInt8.toNat_ofNat_of_lt' (by show 48 + d < 256; omega)
  have hrange : 0x30 ≤ UInt8.ofNat (48 + d) ∧ UInt8.ofNat (48 + d) ≤ 0x39 := by
    rw [UInt8.le_iff_toNat_le, UInt8.le_iff_toNat_le, hnat]
    exact ⟨Nat.le_add_right 48 d, by show 48 + d ≤ 57; omega⟩
  rw [readByte_numbers h, if_pos hrange, hnat, Nat.add_sub_cancel_left]

theorem read_digits (h : s.mode = .numbers before last) {ds : List ℕ} (hds : ∀ d ∈ ds, d < 10) (hne : ds ≠ []) :
    read default s (ds.map fun d => UInt8.ofNat (48 + d)) =
      { s with mode := .numbers before (some (ds.foldl (fun n d => 10 * n + d) (last.getD 0))) } := by
  induction ds generalizing s last with
  | nil => exact absurd rfl hne
  | cons d ds ih =>
    obtain ⟨hd, hds⟩ := List.forall_mem_cons.mp hds
    rw [List.map_cons, read_cons, readByte_digit h hd]
    by_cases hnil : ds = []
    · subst hnil
      rfl
    · rw [ih rfl hds hnil]
      rfl

theorem foldl_digits (n : ℕ) : (Nat.digits 10 n).reverse.foldl (fun n d => 10 * n + d) 0 = n := by
  have hfold : (Nat.digits 10 n).foldr (fun d n => 10 * n + d) 0 = Nat.ofDigits 10 (Nat.digits 10 n) := by
    rw [Nat.ofDigits_eq_foldr]
    congr 1
    funext d m
    exact Nat.add_comm _ _
  rw [List.foldl_reverse, hfold, Nat.ofDigits_digits]

theorem read_param (h : s.mode = .numbers before none) {param : Option ℕ} (hparam : param ≠ some 0) :
    read default s (paramBytes param) = { s with mode := .numbers before param } := by
  cases param with
  | none =>
    show s = _
    rw [← h]
  | some n =>
    have hn : n ≠ 0 := fun hzero => hparam (congrArg some hzero)
    have hne : (Nat.digits 10 n).reverse ≠ [] := by
      rw [Ne, List.reverse_eq_nil_iff, Nat.digits_eq_nil_iff_eq_zero]
      exact hn
    have hlt : ∀ d ∈ (Nat.digits 10 n).reverse, d < 10 := by
      intro d hd
      exact Nat.digits_lt_base (by omega) (List.mem_reverse.mp hd)
    show read default s ((Nat.digits 10 n).reverse.map _) = _
    rw [read_digits h hlt hne, Option.getD_none, foldl_digits]

theorem read_params (h : s.mode = .numbers before none) (hparams : ∀ p ∈ params, p ≠ some 0) :
    read default s (params.flatMap fun p => paramBytes p ++ [separator]) =
      { s with mode := .numbers (before ++ params) none } := by
  induction params generalizing s before with
  | nil =>
    rw [List.append_nil, ← h]
    rfl
  | cons p params ih =>
    obtain ⟨hp, hparams⟩ := List.forall_mem_cons.mp hparams
    have hsep : readByte default { s with mode := .numbers before p } separator =
        { s with mode := .numbers (before ++ [p]) none } := rfl
    rw [List.flatMap_cons, read_append, read_append, read_param h hp, read_cons, read_nil, hsep, ih rfl hparams,
      List.append_assoc]
    rfl

theorem sequence_eq (hne : params ≠ []) :
    ([escapeByte, bracket] ++ params.flatMap fun p => paramBytes p ++ [separator]).dropLast ++ [finalByte] =
      sequence params := by
  have hparts : (params.flatMap fun p => paramBytes p ++ [separator]) ≠ [] := by
    cases params with
    | nil => exact absurd rfl hne
    | cons p params => simp
  rw [List.dropLast_append_of_ne_nil hparts, List.append_assoc]
  rfl

/-- **PROVED**: a sequence changes the pen as its numbers say. -/
theorem read_sequence (h : s.Steady) (hne : params ≠ []) (hparams : ∀ p ∈ params, p ≠ some 0) :
    read default s (sequence params) =
      { flush s with pen := params.foldl (applyParam default) s.pen, mode := .text } := by
  obtain ⟨front, last, rfl⟩ := (List.eq_nil_or_concat params).resolve_left hne
  rw [List.concat_eq_append] at hparams ⊢
  have hfront : ∀ p ∈ front, p ≠ some 0 := fun p hp => hparams p (List.mem_append_left _ hp)
  have hlast : last ≠ some 0 := hparams last (List.mem_append_right _ (List.mem_singleton_self last))
  have hbytes : ((front ++ [last]).flatMap fun p => paramBytes p ++ [separator]).dropLast =
      (front.flatMap fun p => paramBytes p ++ [separator]) ++ paramBytes last := by
    rw [List.flatMap_append, List.flatMap_singleton, ← List.append_assoc, List.dropLast_concat]
  have hnot : escapeByte ≠ bracket := by decide
  have hescape : readByte default s escapeByte = { flush s with mode := .escape } := by
    rw [h.readByte_flush fun _ => hnot]
    exact if_pos rfl
  have hopen : readByte default { flush s with mode := .escape } bracket = { flush s with mode := .numbers [] none } := rfl
  have hend : readByte default { flush s with mode := .numbers front last } finalByte =
      { flush s with pen := (front ++ [last]).foldl (applyParam default) (flush s).pen, mode := .text } := rfl
  rw [sequence, hbytes, read_cons, hescape, read_cons, hopen, read_append, read_append, read_params rfl hfront,
    List.nil_append, read_param rfl hlast, read_cons, read_nil, hend, flush_pen]

/-- **PROVED**: a character is shown, as long as it does not make a sequence of an escape in front of it. -/
theorem read_char (h : s.Steady) (hc : s.mode = .escape → c ≠ bracket) :
    read default s [c] = (flush s).take c := h.readByte_flush hc

end BgtDvb.Terminal
