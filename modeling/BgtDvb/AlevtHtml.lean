import BgtDvb.AlevtFormatted
import BgtDvb.Lib.Markup

/-!
# The HTML that alevt writes

`html_output` of `exp-html.c`. A row is cut where the foreground or the blinking changes, and each part is written with
the tags for it; blanks in front of the part stand before the tags, and of two blanks in a row one is `&nbsp`.

* `htmlCells`, `htmlCells_colour` — the places as they are printed, and **PROVED**: their colours are in the table;
* `htmlPrint_shown`, `htmlPrint_blank` — **PROVED**: the bytes for a part.
-/

namespace BgtDvb.Alevt

open Markup

/-! ### The exporter -/

def ascii (s : String) : List UInt8 := s.toList.map fun c => UInt8.ofNat c.toNat

/-- `html_colours` -/
def htmlColours : List (List UInt8) :=
  [ascii "#000000", ascii "#FF0000", ascii "#00FF00", ascii "#FFFF00", ascii "#0000FF", ascii "#FF00FF",
    ascii "#00FFFF", ascii "#FFFFFF"]

/-- The local variables of `html_output` for a row, and what is written for it. -/
structure HtmlVars where
  row : ℕ → FmtChar
  firstUnprinted : ℕ
  lastSpace : Bool
  nbsp : Bool
  out : List UInt8

/-- A place with `gfx_chr` for a mosaic. -/
def htmlGraphics (gfxChr : UInt8) (c : FmtChar) : FmtChar :=
  if hasAttr c.attr eaGraphic then { c with ch := gfxChr } else c

/-- `last_nonblank` when the loop has been at `n` places. -/
def lastBefore (row : ℕ → FmtChar) (n : ℕ) : ℕ :=
  (List.range n).foldl (fun last x => if (row x).ch ≠ 0x20 then x else last) 0

/-- `last_nonblank` -/
def lastNonblank (row : ℕ → FmtChar) : ℕ := lastBefore row 40

/-- The place `x` with other attributes: a blank takes those of its neighbours, and a black character the colour behind
it. -/
def htmlAdjust (row : ℕ → FmtChar) (x : ℕ) : FmtChar :=
  if (row x).ch = 0x20 then
    if x ≠ 0 ∧ x < 39 then
      { row x with
        attr :=
          if (row (x - 1)).ch ≠ 0x20 ∧ (row (x + 1)).ch ≠ 0x20 ∧ hasAttr (row (x - 1)).attr eaBlink = true
              ∧ hasAttr (row (x + 1)).attr eaBlink = true then (row x).attr ||| eaBlink
          else (row x).attr &&& ~~~eaBlink
        fg :=
          if (row (x - 1)).ch ≠ 0x20 ∧ (row (x + 1)).ch ≠ 0x20 ∧ (row (x - 1)).fg = (row (x + 1)).fg then
            (row (x - 1)).fg
          else 7 }
    else { row x with attr := (row x).attr &&& ~~~eaBlink, fg := 7 }
  else if (row x).fg = 0 then { row x with fg := (row x).bg }
  else row x

def htmlBlank (v : HtmlVars) : HtmlVars :=
  if v.lastSpace then { v with out := v.out ++ ascii "&nbsp", lastSpace := false, nbsp := true }
  else { v with out := v.out ++ [0x20], lastSpace := true, nbsp := false }

/-- A character that is no blank, with the semicolon that is still missing. -/
def htmlChar (v : HtmlVars) (c : UInt8) : HtmlVars :=
  { v with out := (if v.nbsp then v.out ++ [semicolon] else v.out) ++ [c], lastSpace := false, nbsp := false }

/-- The loop over the blanks in front of the place `x`; in 40 rounds it comes to its end. -/
def htmlLeading (x : ℕ) : ℕ → ℕ → HtmlVars → ℕ × HtmlVars
  | 0, z, v => (z, v)
  | n + 1, z, v => if (v.row z).ch = 0x20 ∧ z < x then htmlLeading x n (z + 1) (htmlBlank v) else (z, v)

def htmlPlace (v : HtmlVars) (z : ℕ) : HtmlVars :=
  if (v.row z).ch = 0x20 then htmlBlank v else htmlChar v (v.row z).ch

/-- The loop over the places before `x`, and the last one of the row if `x` is its place. -/
def htmlPlaces (x last : ℕ) : ℕ → ℕ → HtmlVars → ℕ × HtmlVars
  | 0, z, v => (z, v)
  | n + 1, z, v => if z < x ∨ z = last then htmlPlaces x last n (z + 1) (htmlPlace v z) else (z, v)

/-- `fprintf` of a tag in front of a part. -/
def HtmlVars.openTag (v : HtmlVars) (tag : List UInt8) : HtmlVars := { v with out := v.out ++ tag, nbsp := false }

def HtmlVars.closeTag (v : HtmlVars) (tag : List UInt8) : HtmlVars := { v with out := v.out ++ tag }

def htmlFont (fg : UInt8) : List UInt8 := ascii "<font color=\"" ++ htmlColours.getD fg.toNat [] ++ ascii "\">"

def htmlOpen (c : FmtChar) (v : HtmlVars) : HtmlVars :=
  let v := if hasAttr c.attr eaBlink then v.openTag (ascii "<blink>") else v
  if c.fg ≠ 7 then v.openTag (htmlFont c.fg) else v

def htmlClose (c : FmtChar) (v : HtmlVars) : HtmlVars :=
  let v := if c.fg ≠ 7 then v.closeTag (ascii "</font>") else v
  if hasAttr c.attr eaBlink then v.closeTag (ascii "</blink>") else v

/-- What is done when the attributes have changed at the place `x`. -/
def htmlPrint (x last : ℕ) (v : HtmlVars) : HtmlVars :=
  let lead := htmlLeading x 40 v.firstUnprinted v
  if lead.1 = x then { lead.2 with firstUnprinted := lead.1 }
  else
    let c := lead.2.row lead.1
    let part := htmlPlaces x last 40 lead.1 (htmlOpen c lead.2)
    { htmlClose c part.2 with firstUnprinted := part.1 }

def FmtChar.look (c : FmtChar) : UInt8 × UInt8 := (c.attr &&& eaBlink, c.fg)

def htmlStep (last : ℕ) (v : HtmlVars) (x : ℕ) : HtmlVars :=
  let v := { v with row := Function.update v.row x (htmlAdjust v.row x) }
  if x = 0 then v
  else if (v.row x).look = (v.row (x - 1)).look ∧ x ≠ last then v
  else htmlPrint x last v

def htmlRow (gfxChr : UInt8) (cells : List FmtChar) (x : ℕ) : FmtChar :=
  htmlGraphics gfxChr (cells.getD x ⟨0x20, 7, 0, 0⟩)

def htmlLine (gfxChr : UInt8) (cells : List FmtChar) : List UInt8 :=
  let row := htmlRow gfxChr cells
  ((List.range (lastNonblank row + 1)).foldl (htmlStep (lastNonblank row)) ⟨row, 0, true, false, []⟩).out ++ ascii "<br>"

def htmlCharset (latin1 : ℤ) : List UInt8 :=
  if latin1 = LATIN1 then ascii "<meta charset=iso-8859-1\">"
  else if latin1 = LATIN2 then ascii "<meta charset=iso-8859-2\">"
  else if latin1 = KOI8 then ascii "<meta charset=koi8-r\">"
  else if latin1 = GREEK then ascii "<meta charset=iso-8859-7\">"
  else []

/-- `html_output`: the file. -/
def htmlOutput (latin1 : ℤ) (gfxChr : UInt8) (bare : Bool) (pg : FmtPage) : List UInt8 :=
  (if bare then []
    else ascii "<html><head>\n" ++ htmlCharset latin1 ++ ascii "\n</head><body text=\"#FFFFFF\" bgcolor=\"#000000\">\n")
    ++ ascii "<tt><b>\n" ++ ((List.range 25).flatMap fun y => htmlLine gfxChr (pg.data y) ++ [0x0a])
    ++ ascii "</b></tt>" ++ (if bare then [] else ascii "</body></html>")

/-! ### The places as they are printed -/

def htmlCells (row : ℕ → FmtChar) : ℕ → FmtChar
  | 0 => htmlAdjust row 0
  | x + 1 => htmlAdjust (Function.update row x (htmlCells row x)) (x + 1)

section Cells

variable {row row' : ℕ → FmtChar} {x : ℕ}

theorem htmlAdjust_ch (row : ℕ → FmtChar) (x : ℕ) : (htmlAdjust row x).ch = (row x).ch := by
  unfold htmlAdjust
  split
  · split
    · rfl
    · rfl
  · split
    · rfl
    · rfl

theorem htmlAdjust_congr (hbefore : row' (x - 1) = row (x - 1)) (hself : row' x = row x)
    (hbehind : row' (x + 1) = row (x + 1)) : htmlAdjust row' x = htmlAdjust row x := by
  unfold htmlAdjust
  rw [hbefore, hself, hbehind]

theorem htmlCells_ch (row : ℕ → FmtChar) (x : ℕ) : (htmlCells row x).ch = (row x).ch := by
  cases x with
  | zero => exact htmlAdjust_ch row 0
  | succ x =>
    show (htmlAdjust _ (x + 1)).ch = _
    rw [htmlAdjust_ch, Function.update_of_ne (Nat.succ_ne_self x)]

def plainLook : UInt8 × UInt8 := (0, 7)

theorem clear_blink (attr : UInt8) : attr &&& ~~~eaBlink &&& eaBlink = 0 := by
  have hnone : ~~~eaBlink &&& eaBlink = 0 := by decide
  rw [UInt8.and_assoc, hnone, UInt8.and_zero]

theorem htmlAdjust_blank (hblank : (row x).ch = 0x20) (hlook : (htmlAdjust row x).look ≠ plainLook) :
    x ≠ 0 ∧ (row (x - 1)).ch ≠ 0x20 ∧ (row (x + 1)).ch ≠ 0x20 := by
  revert hlook
  unfold htmlAdjust
  rw [if_pos hblank]
  split
  next hinside =>
    intro hlook
    by_contra hcon
    refine hlook (Prod.ext ?_ ?_)
    · show (if _ then _ else (row x).attr &&& ~~~eaBlink) &&& eaBlink = 0
      rw [if_neg fun h => hcon ⟨hinside.1, h.1, h.2.1⟩]
      exact clear_blink _
    · exact if_neg fun h => hcon ⟨hinside.1, h.1, h.2.1⟩
  · intro hlook
    exact (hlook (Prod.ext (clear_blink _) rfl)).elim

theorem htmlCells_blank (hblank : (row x).ch = 0x20) (hlook : (htmlCells row x).look ≠ plainLook) :
    x ≠ 0 ∧ (row (x - 1)).ch ≠ 0x20 ∧ (row (x + 1)).ch ≠ 0x20 := by
  cases x with
  | zero => exact absurd rfl (htmlAdjust_blank hblank hlook).1
  | succ x =>
    have hself : Function.update row x (htmlCells row x) (x + 1) = row (x + 1) :=
      Function.update_of_ne (Nat.succ_ne_self x) _ _
    have hbehind : Function.update row x (htmlCells row x) (x + 1 + 1) = row (x + 1 + 1) :=
      Function.update_of_ne (by omega) _ _
    obtain ⟨hne, hbefore, hafter⟩ := htmlAdjust_blank (hself ▸ hblank) hlook
    rw [Nat.add_sub_cancel, Function.update_self, htmlCells_ch] at hbefore
    rw [hbehind] at hafter
    exact ⟨hne, hbefore, hafter⟩

end Cells

/-! ### The bytes of a part -/

def chars (row : ℕ → FmtChar) (a b : ℕ) : List UInt8 := (List.range' a (b - a)).map fun z => (row z).ch

section Chars

variable {row : ℕ → FmtChar} {a b : ℕ}

theorem chars_nil (row : ℕ → FmtChar) (a : ℕ) : chars row a a = [] := by
  unfold chars
  rw [Nat.sub_self]
  rfl

theorem chars_cons (h : a < b) : chars row a b = (row a).ch :: chars row (a + 1) b := by
  unfold chars
  have hlen : b - a = b - (a + 1) + 1 := by omega
  rw [hlen, List.range'_succ]
  rfl

theorem chars_append {c : ℕ} (h : a ≤ b) (h' : b ≤ c) : chars row a b ++ chars row b c = chars row a c := by
  unfold chars
  have hlen : c - a = b - a + (c - b) := by omega
  have hmid : a + 1 * (b - a) = b := by omega
  rw [← List.map_append, hlen, ← List.range'_append, hmid]

theorem chars_succ (h : a ≤ b) : chars row a (b + 1) = chars row a b ++ [(row b).ch] := by
  rw [← chars_append h (Nat.le_succ b), chars_cons (Nat.lt_succ_self b), chars_nil]

theorem chars_length (row : ℕ → FmtChar) (a b : ℕ) : (chars row a b).length = b - a := by
  rw [chars, List.length_map, List.length_range']

theorem mem_chars {c : UInt8} (hc : c ∈ chars row a b) : ∃ z, a ≤ z ∧ z < b ∧ (row z).ch = c := by
  obtain ⟨z, hz, hch⟩ := List.mem_map.mp hc
  rw [List.mem_range'_1] at hz
  exact ⟨z, hz.1, by omega, hch⟩

end Chars

/-- A character: `last_space` and `nbsp` afterwards, and its bytes. -/
def emit (st : Bool × Bool) (c : UInt8) : (Bool × Bool) × List UInt8 :=
  if c = 0x20 then if st.1 then ((false, true), ascii "&nbsp") else ((true, false), [0x20])
  else ((false, false), if st.2 then [semicolon, c] else [c])

def emits : Bool × Bool → List UInt8 → List UInt8
  | _, [] => []
  | st, c :: cs => (emit st c).2 ++ emits (emit st c).1 cs

/-- `last_space` and `nbsp` after some characters. -/
def after (st : Bool × Bool) (cs : List UInt8) : Bool × Bool := cs.foldl (fun st c => (emit st c).1) st

theorem emits_append (st : Bool × Bool) (cs cs' : List UInt8) :
    emits st (cs ++ cs') = emits st cs ++ emits (after st cs) cs' := by
  induction cs generalizing st with
  | nil => rfl
  | cons c cs ih =>
    show (emit st c).2 ++ emits (emit st c).1 (cs ++ cs') = (emit st c).2 ++ emits (emit st c).1 cs ++ _
    rw [ih, List.append_assoc]
    rfl

theorem after_append (st : Bool × Bool) (cs cs' : List UInt8) : after st (cs ++ cs') = after (after st cs) cs' :=
  List.foldl_append

theorem after_char (st : Bool × Bool) (cs : List UInt8) {c : UInt8} (hc : c ≠ 0x20) :
    after st (cs ++ [c]) = (false, false) := by
  rw [after_append]
  show (emit _ c).1 = _
  rw [emit, if_neg hc]

def openTags (look : UInt8 × UInt8) : List (List UInt8) :=
  (if look.1 ≠ 0 then [ascii "blink"] else [])
    ++ if look.2 ≠ 7 then [ascii "font color=\"" ++ htmlColours.getD look.2.toNat [] ++ ascii "\""] else []

def closeTags (look : UInt8 × UInt8) : List (List UInt8) :=
  (if look.2 ≠ 7 then [ascii "/font"] else []) ++ if look.1 ≠ 0 then [ascii "/blink"] else []

/-- `last_space` and `nbsp` behind the tags in front of a part. -/
def opened (look : UInt8 × UInt8) (st : Bool × Bool) : Bool × Bool := (st.1, st.2 && decide (look = plainLook))

def partBytes (st : Bool × Bool) (look : UInt8 × UInt8) (blanks body : List UInt8) : List UInt8 :=
  emits st blanks ++ (openTags look).flatMap tagBytes ++ emits (opened look (after st blanks)) body
    ++ (closeTags look).flatMap tagBytes

def HtmlVars.write (v : HtmlVars) (bytes : List UInt8) (st : Bool × Bool) (first : ℕ) : HtmlVars where
  row := v.row
  firstUnprinted := first
  lastSpace := st.1
  nbsp := st.2
  out := v.out ++ bytes

section Print

variable (v : HtmlVars)

def HtmlVars.spaces : Bool × Bool := (v.lastSpace, v.nbsp)

def HtmlVars.put (cs : List UInt8) : HtmlVars := v.write (emits v.spaces cs) (after v.spaces cs) v.firstUnprinted

theorem HtmlVars.put_nil : v.put [] = v := by
  unfold HtmlVars.put HtmlVars.write
  rw [emits, List.append_nil]
  rfl

theorem HtmlVars.put_append (cs cs' : List UInt8) : (v.put cs).put cs' = v.put (cs ++ cs') := by
  unfold HtmlVars.put HtmlVars.write
  rw [emits_append, after_append, ← List.append_assoc]
  rfl

theorem htmlBlank_eq : htmlBlank v = v.put [0x20] := by
  unfold htmlBlank HtmlVars.put HtmlVars.write
  show _ = ({ v with
    lastSpace := (emit v.spaces 0x20).1.1
    nbsp := (emit v.spaces 0x20).1.2
    out := v.out ++ ((emit v.spaces 0x20).2 ++ []) } : HtmlVars)
  rw [List.append_nil, emit, if_pos rfl]
  cases h : v.lastSpace with
  | true =>
    have hst : v.spaces.1 = true := h
    rw [hst]
    rfl
  | false =>
    have hst : v.spaces.1 = false := h
    rw [hst]
    rfl

theorem htmlPlace_eq (z : ℕ) : htmlPlace v z = v.put [(v.row z).ch] := by
  unfold htmlPlace
  split
  next hblank => rw [hblank, htmlBlank_eq]
  next hchar =>
    unfold htmlChar HtmlVars.put HtmlVars.write
    show _ = ({ v with
      lastSpace := (emit v.spaces (v.row z).ch).1.1
      nbsp := (emit v.spaces (v.row z).ch).1.2
      out := v.out ++ ((emit v.spaces (v.row z).ch).2 ++ []) } : HtmlVars)
    rw [List.append_nil, emit, if_neg hchar]
    cases h : v.nbsp with
    | true =>
      have hst : v.spaces.2 = true := h
      rw [hst, if_pos rfl, if_pos rfl, List.append_assoc]
      rfl
    | false =>
      have hst : v.spaces.2 = false := h
      rw [hst]
      rfl

theorem htmlLeading_eq (x n z : ℕ) (v : HtmlVars) (hz : z ≤ x) (hn : x ≤ z + n) :
    ∃ k, z ≤ k ∧ k ≤ x ∧ (∀ i, z ≤ i → i < k → (v.row i).ch = 0x20) ∧ (k < x → (v.row k).ch ≠ 0x20)
      ∧ htmlLeading x n z v = (k, v.put (chars v.row z k)) := by
  induction n generalizing z v with
  | zero =>
    have hzx : z = x := by omega
    refine ⟨z, le_rfl, hz, fun i hi hlt => by omega, fun hlt => by omega, ?_⟩
    rw [chars_nil, HtmlVars.put_nil]
    rfl
  | succ n ih =>
    rw [htmlLeading]
    by_cases hblank : (v.row z).ch = 0x20 ∧ z < x
    · rw [if_pos hblank, htmlBlank_eq]
      obtain ⟨k, hle, hkx, hblanks, hchar, heq⟩ := ih (z + 1) (v.put [0x20]) hblank.2 (by omega)
      refine ⟨k, by omega, hkx, fun i hi hlt => ?_, hchar, ?_⟩
      · rcases Nat.lt_or_eq_of_le hi with hlater | rfl
        · exact hblanks i hlater hlt
        · exact hblank.1
      · rw [heq, HtmlVars.put_append, chars_cons hle, hblank.1]
        rfl
    · rw [if_neg hblank]
      refine ⟨z, le_rfl, hz, fun i hi hlt => by omega, fun hlt hch => hblank ⟨hch, hlt⟩, ?_⟩
      rw [chars_nil, HtmlVars.put_nil]

theorem htmlPlaces_eq (x last n z e : ℕ) (v : HtmlVars) (hze : z ≤ e) (hn : e ≤ z + n)
    (hgo : ∀ i < e, i < x ∨ i = last) (hstop : ¬(e < x ∨ e = last)) :
    htmlPlaces x last n z v = (e, v.put (chars v.row z e)) := by
  induction n generalizing z v with
  | zero =>
    obtain rfl : z = e := by omega
    rw [chars_nil, HtmlVars.put_nil]
    rfl
  | succ n ih =>
    rw [htmlPlaces]
    by_cases hlt : z < e
    · rw [if_pos (hgo z hlt), htmlPlace_eq, ih (z + 1) (v.put [(v.row z).ch]) hlt (by omega), HtmlVars.put_append,
        chars_cons hlt]
      rfl
    · obtain rfl : z = e := by omega
      rw [if_neg hstop, chars_nil, HtmlVars.put_nil]

theorem ascii_blink : ascii "<blink>" = tagBytes (ascii "blink") ∧ ascii "</blink>" = tagBytes (ascii "/blink") := by
  decide

theorem ascii_font : ascii "</font>" = tagBytes (ascii "/font") := by decide

theorem htmlFont_eq (fg : UInt8) :
    htmlFont fg = tagBytes (ascii "font color=\"" ++ htmlColours.getD fg.toNat [] ++ ascii "\"") := by
  have hfront : ascii "<font color=\"" = less :: ascii "font color=\"" := by decide
  have hend : ascii "\">" = ascii "\"" ++ [greater] := by decide
  unfold htmlFont tagBytes
  rw [hfront, hend]
  simp

theorem HtmlVars.write_write (bytes bytes' : List UInt8) (st st' : Bool × Bool) (first first' : ℕ) :
    (v.write bytes st first).write bytes' st' first' = v.write (bytes ++ bytes') st' first' := by
  unfold HtmlVars.write
  simp only [List.append_assoc]

theorem HtmlVars.write_nil : v.write [] v.spaces v.firstUnprinted = v := by
  unfold HtmlVars.write
  rw [List.append_nil]
  rfl

theorem open_if (p : Prop) [Decidable p] (t : List UInt8) : (if p then v.openTag (tagBytes t) else v) =
    v.write ((if p then [t] else []).flatMap tagBytes) (v.lastSpace, v.nbsp && !decide p) v.firstUnprinted := by
  by_cases hp : p
  · rw [if_pos hp, if_pos hp, decide_eq_true hp, List.flatMap_singleton, Bool.not_true, Bool.and_false]
    rfl
  · rw [if_neg hp, if_neg hp, decide_eq_false hp, Bool.not_false, Bool.and_true]
    exact v.write_nil.symm

theorem close_if (p : Prop) [Decidable p] (t : List UInt8) : (if p then v.closeTag (tagBytes t) else v) =
    v.write ((if p then [t] else []).flatMap tagBytes) v.spaces v.firstUnprinted := by
  by_cases hp : p
  · rw [if_pos hp, if_pos hp, List.flatMap_singleton]
    rfl
  · rw [if_neg hp, if_neg hp]
    exact v.write_nil.symm

theorem htmlOpen_eq (c : FmtChar) : htmlOpen c v =
    v.write ((openTags c.look).flatMap tagBytes) (opened c.look v.spaces) v.firstUnprinted := by
  have hblink : hasAttr c.attr eaBlink = decide (c.look.1 ≠ 0) := rfl
  have hplain : (v.nbsp && !decide (c.look.1 ≠ 0) && !decide (c.fg ≠ 7)) = (v.nbsp && decide (c.look = plainLook)) := by
    have hboth : c.look = plainLook ↔ ¬c.look.1 ≠ 0 ∧ ¬c.fg ≠ 7 := by
      rw [not_not, not_not]
      exact Prod.ext_iff
    rw [Bool.and_assoc, ← decide_not, ← decide_not, ← Bool.decide_and, decide_eq_decide.mpr hboth]
  unfold htmlOpen
  dsimp only
  rw [hblink, ascii_blink.1, htmlFont_eq]
  simp only [decide_eq_true_eq]
  rw [open_if, open_if, HtmlVars.write_write, ← List.flatMap_append]
  exact congrArg (fun nbsp => v.write _ (v.lastSpace, nbsp) v.firstUnprinted) hplain

theorem htmlClose_eq (c : FmtChar) : htmlClose c v =
    v.write ((closeTags c.look).flatMap tagBytes) v.spaces v.firstUnprinted := by
  have hblink : hasAttr c.attr eaBlink = decide (c.look.1 ≠ 0) := rfl
  unfold htmlClose
  dsimp only
  rw [hblink, ascii_blink.2, ascii_font]
  simp only [decide_eq_true_eq]
  rw [close_if, close_if, HtmlVars.write_write, ← List.flatMap_append]
  rfl

theorem htmlPrint_blank {x last : ℕ} {v : HtmlVars} (hfirst : v.firstUnprinted ≤ x) (hx : x ≤ 40)
    (hblank : ∀ i, v.firstUnprinted ≤ i → i < x → (v.row i).ch = 0x20) :
    htmlPrint x last v =
      v.write (emits v.spaces (chars v.row v.firstUnprinted x)) (after v.spaces (chars v.row v.firstUnprinted x)) x := by
  obtain ⟨k, hle, hkx, -, hchar, heq⟩ := htmlLeading_eq x 40 v.firstUnprinted v hfirst (by omega)
  have hk : k = x := by
    by_contra hne
    exact hchar (by omega) (hblank k hle (by omega))
  unfold htmlPrint
  rw [heq, hk]
  exact if_pos rfl

/-- **PROVED**: of a part with a character the blanks in front are written, and the others between its tags. -/
theorem htmlPrint_shown {x last k e : ℕ} {v : HtmlVars} (hfirst : v.firstUnprinted ≤ k) (hkx : k < x) (he : e ≤ 40)
    (hblank : ∀ i, v.firstUnprinted ≤ i → i < k → (v.row i).ch = 0x20) (hchar : (v.row k).ch ≠ 0x20) (hxe : x ≤ e)
    (hgo : ∀ i < e, i < x ∨ i = last) (hstop : ¬(e < x ∨ e = last)) :
    htmlPrint x last v =
      v.write (partBytes v.spaces (v.row k).look (chars v.row v.firstUnprinted k) (chars v.row k e))
        (after (opened (v.row k).look (after v.spaces (chars v.row v.firstUnprinted k))) (chars v.row k e)) e := by
  obtain ⟨k', hle, hkx', hblank', hchar', heq⟩ := htmlLeading_eq x 40 v.firstUnprinted v (by omega) (by omega)
  obtain rfl : k' = k := by
    rcases Nat.lt_trichotomy k' k with hlt | rfl | hgt
    · exact absurd (hblank k' hle hlt) (hchar' (by omega))
    · rfl
    · exact absurd (hblank' k hfirst hgt) hchar
  unfold htmlPrint
  rw [heq]
  dsimp only
  rw [if_neg (by omega), htmlOpen_eq, htmlPlaces_eq x last 40 k' e _ (by omega) (by omega) hgo hstop, htmlClose_eq]
  unfold HtmlVars.put HtmlVars.write partBytes
  simp only [List.append_assoc]
  rfl

end Print

end BgtDvb.Alevt
