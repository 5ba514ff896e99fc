import BgtDvb.AlevtFmtPage

/-!
# The two renderers of alevt

A page is seen in a window of `xio.c`, and it is exported as `fmt_page` of `export.c` formats it. Both go through the
same spacing attributes. They differ in the first eight places of row 0, where the formatter puts the number of the page,
in row 23, which has double height in the window only, and at a code for normal height, where the formatter keeps double
height and drops everything else.

* `Follows`, `follows_apply`, `fmtStep_follows` — **PROVED**: the loop of `fmt_page` follows the spacing attributes;
* `fmtStep_parts` — **PROVED**: but not at a code for normal height that ends something;
* `places_iff`, `row_iff` — **PROVED**: a row of the page;
* `renderedAlike_iff` — **PROVED**: the pages with a plain header that are drawn and formatted alike;
* `rendered_alike` — **PROVED**: those for which there is no difference are.
-/

namespace BgtDvb.Alevt

open Mealy GuardedRun

/-! ### What is compared -/

/-- A place of a window and a place of a formatted page are the same. -/
structure SamePlace (blinkOn reveal : Bool) (x : XioCell) (f : FmtChar) : Prop where
  ch : f.ch = if x.con then 0x20 else x.c
  fg : f.fg = x.fg
  bg : f.bg = x.bg
  double : hasAttr f.attr eaDouble = x.dbl
  blink : (hasAttr f.attr eaBlink && !blinkOn) = x.blk
  concealed : (hasAttr f.attr eaConcealed && !reveal) = x.con

/-- The places of a row that are not compared: the formatter has the number of the page there. -/
def numberPlaces (y : ℕ) : ℕ := if y = 0 then 8 else 0

/-- A page is drawn in a window and formatted alike. -/
structure RenderedAlike (blinkOn reveal : Bool) (screen : ℕ → Option (List XioCell)) (pg : FmtPage) : Prop where
  hidden : ∀ y < 25, screen y = none ↔ pg.hid.getLsbD y = true
  places : ∀ y < 25, ∀ cells, screen y = some cells →
    List.Forall₂ (SamePlace blinkOn reveal) (cells.drop (numberPlaces y)) ((pg.data y).drop (numberPlaces y))

/-! ### Masks of attributes -/

variable {attr mask m : UInt8}

theorem hasAttr_iff : hasAttr attr mask = true ↔ attr &&& mask ≠ 0 := decide_eq_true_iff

theorem hasAttr_eq_false : hasAttr attr mask = false ↔ attr &&& mask = 0 := by
  rw [hasAttr, decide_eq_false_iff_not, not_not]

theorem hasAttr_and_keep (h : m &&& mask = mask) : hasAttr (attr &&& m) mask = hasAttr attr mask := by
  unfold hasAttr
  rw [UInt8.and_assoc, h]

theorem hasAttr_and_clear (h : m &&& mask = 0) : hasAttr (attr &&& m) mask = false := by
  rw [hasAttr_eq_false, UInt8.and_assoc, h, UInt8.and_zero]

theorem or_and_mask (attr m mask : UInt8) : (attr ||| m) &&& mask = (attr &&& mask) ||| (m &&& mask) := by
  rw [← UInt8.toBitVec_inj]
  exact BitVec.and_or_distrib_right

theorem hasAttr_or_keep (h : m &&& mask = 0) : hasAttr (attr ||| m) mask = hasAttr attr mask := by
  unfold hasAttr
  rw [or_and_mask, h, UInt8.or_zero]

theorem hasAttr_or_set (h : m &&& mask ≠ 0) : hasAttr (attr ||| m) mask = true := by
  rw [hasAttr_iff, or_and_mask]
  exact fun hzero => h (UInt8.or_eq_zero_iff.mp hzero).2

/-! ### The attributes of a row -/

/-- The variables of a row follow the spacing attributes, as far as they are shown. -/
structure Follows (blinkOn reveal : Bool) (y : ℕ) (a : Attrs) (v : FmtVars) : Prop where
  fg : v.fg = a.fg
  bg : v.bg = a.bg
  double : hasAttr v.attr eaDouble = a.double
  blink : blinkOn = false → hasAttr v.attr eaBlink = a.flash
  concealed : reveal = false → hasAttr v.attr eaConcealed = a.conceal
  graphic : hasAttr v.attr eaGraphic = a.mosaic
  hold : v.hold = a.hold
  lastCh : v.lastCh = a.held
  low : 24 ≤ y → a.double = false

/-- The code for normal height ends nothing that is shown: neither double height nor what is none of its business. -/
def NormalIdle (blinkOn reveal : Bool) (a : Attrs) (c : UInt8) : Prop :=
  c = 0x0c → a.double = false ∧ a.mosaic = false ∧ (blinkOn = false → a.flash = false) ∧
    (reveal = false → a.conceal = false)

instance (blinkOn reveal : Bool) (a : Attrs) (c : UInt8) : Decidable (NormalIdle blinkOn reveal a c) :=
  inferInstanceAs (Decidable (_ → _))

/-- What the switch of `fmt_page` does for a code. -/
def fmtApply (y : ℕ) (v : FmtVars) : RowCode → FmtVars
  | .alpha fg => { v with fg := fg, attr := v.attr &&& ~~~(eaGraphic ||| eaConcealed) }
  | .flash => { v with attr := v.attr ||| eaBlink }
  | .steady => { v with attr := v.attr &&& ~~~eaBlink }
  | .normalHeight => { v with attr := v.attr &&& eaDouble }
  | .doubleHeight => if y < 25 - 2 then { v with attr := v.attr ||| eaDouble, dbl := true } else v
  | .mosaic fg => { v with fg := fg, attr := (v.attr ||| eaGraphic) &&& ~~~eaConcealed }
  | .conceal => { v with attr := v.attr ||| eaConcealed }
  | .contiguous => { v with attr := v.attr &&& ~~~eaSeparated }
  | .separated => { v with attr := v.attr ||| eaSeparated }
  | .blackBg => { v with bg := 0 }
  | .newBg => { v with bg := v.fg }
  | .holdMosaic => { v with hold := true }
  | .releaseMosaic => { v with hold := false }
  | .box | .reserved | .char _ => v

theorem fmtSwitch_eq (y : ℕ) (v : FmtVars) (ch : UInt8) :
    fmtSwitch y v ch = (fmtApply y v (rowCode ch), (rowCode ch).plain) := by
  show _ = (fun k : RowCode => (fmtApply y v k, k.plain)) (rowCode ch)
  unfold fmtSwitch rowCode
  simp only [apply_ite fun k : RowCode => (fmtApply y v k, k.plain)]
  rfl

section Codes

variable {blinkOn reveal : Bool} {y : ℕ} {a : Attrs} {v : FmtVars}

theorem follows_start : Follows blinkOn reveal y .start .start :=
  ⟨rfl, rfl, rfl, fun _ => rfl, fun _ => rfl, rfl, rfl, rfl, fun _ => rfl⟩

theorem follows_apply (h : Follows blinkOn reveal y a v) {k : RowCode} (hd : k = .doubleHeight → y ≠ 23)
    (hn : k = .normalHeight → NormalIdle blinkOn reveal a 0x0c) :
    Follows blinkOn reveal y (a.apply (y < 24) k) (fmtApply y v k) := by
  cases k with
  | alpha fg =>
    exact { h with
      fg := rfl
      double := (hasAttr_and_keep rfl).trans h.double
      blink := fun hb => (hasAttr_and_keep rfl).trans (h.blink hb)
      concealed := fun _ => hasAttr_and_clear rfl
      graphic := hasAttr_and_clear rfl }
  | flash =>
    exact { h with
      double := (hasAttr_or_keep rfl).trans h.double
      blink := fun _ => hasAttr_or_set (by decide)
      concealed := fun hr => (hasAttr_or_keep rfl).trans (h.concealed hr)
      graphic := (hasAttr_or_keep rfl).trans h.graphic }
  | steady =>
    exact { h with
      double := (hasAttr_and_keep rfl).trans h.double
      blink := fun _ => hasAttr_and_clear rfl
      concealed := fun hr => (hasAttr_and_keep rfl).trans (h.concealed hr)
      graphic := (hasAttr_and_keep rfl).trans h.graphic }
  | normalHeight =>
    obtain ⟨hdouble, hmosaic, hflash, hconceal⟩ := hn rfl rfl
    exact { h with
      double := (hasAttr_and_keep rfl).trans (h.double.trans hdouble)
      blink := fun hb => (hasAttr_and_clear rfl).trans (hflash hb).symm
      concealed := fun hr => (hasAttr_and_clear rfl).trans (hconceal hr).symm
      graphic := (hasAttr_and_clear rfl).trans hmosaic.symm
      low := fun _ => rfl }
  | doubleHeight =>
    by_cases hy : y < 23
    · have htall : decide (y < 24) = true := decide_eq_true (by omega)
      have hset : fmtApply y v .doubleHeight = { v with attr := v.attr ||| eaDouble, dbl := true } := if_pos hy
      rw [hset]
      exact { h with
        double := (hasAttr_or_set (by decide)).trans htall.symm
        blink := fun hb => (hasAttr_or_keep rfl).trans (h.blink hb)
        concealed := fun hr => (hasAttr_or_keep rfl).trans (h.concealed hr)
        graphic := (hasAttr_or_keep rfl).trans h.graphic
        low := fun hlow => by omega }
    · -- the last row has no double height in either
      have hlow : 24 ≤ y := by
        have := hd rfl
        omega
      have htall : decide (y < 24) = false := decide_eq_false (by omega)
      have hignored : fmtApply y v .doubleHeight = v := if_neg hy
      rw [hignored]
      exact { h with
        double := (h.double.trans (h.low hlow)).trans htall.symm
        low := fun _ => htall }
  | mosaic fg =>
    exact { h with
      fg := rfl
      double := (hasAttr_and_keep rfl).trans ((hasAttr_or_keep rfl).trans h.double)
      blink := fun hb => (hasAttr_and_keep rfl).trans ((hasAttr_or_keep rfl).trans (h.blink hb))
      concealed := fun _ => hasAttr_and_clear rfl
      graphic := (hasAttr_and_keep rfl).trans (hasAttr_or_set (by decide)) }
  | conceal =>
    exact { h with
      double := (hasAttr_or_keep rfl).trans h.double
      blink := fun hb => (hasAttr_or_keep rfl).trans (h.blink hb)
      concealed := fun _ => hasAttr_or_set (by decide)
      graphic := (hasAttr_or_keep rfl).trans h.graphic }
  | contiguous =>
    exact { h with
      double := (hasAttr_and_keep rfl).trans h.double
      blink := fun hb => (hasAttr_and_keep rfl).trans (h.blink hb)
      concealed := fun hr => (hasAttr_and_keep rfl).trans (h.concealed hr)
      graphic := (hasAttr_and_keep rfl).trans h.graphic }
  | separated =>
    exact { h with
      double := (hasAttr_or_keep rfl).trans h.double
      blink := fun hb => (hasAttr_or_keep rfl).trans (h.blink hb)
      concealed := fun hr => (hasAttr_or_keep rfl).trans (h.concealed hr)
      graphic := (hasAttr_or_keep rfl).trans h.graphic }
  | blackBg => exact { h with bg := rfl }
  | newBg => exact { h with bg := h.fg }
  | holdMosaic => exact { h with hold := rfl }
  | releaseMosaic => exact { h with hold := rfl }
  | box => exact h
  | reserved => exact h
  | char c => exact h

theorem Follows.samePlace (h : Follows blinkOn reveal y a v) (c : UInt8) :
    SamePlace blinkOn reveal ⟨c, a.fg, a.bg, a.double, a.flash && !blinkOn, a.conceal && !reveal⟩
      (v.char reveal c) := by
  have hconcealed : (hasAttr v.attr eaConcealed && !reveal) = (a.conceal && !reveal) := by
    cases reveal with
    | true => rw [Bool.not_true, Bool.and_false, Bool.and_false]
    | false => rw [h.concealed rfl]
  have hblink : (hasAttr v.attr eaBlink && !blinkOn) = (a.flash && !blinkOn) := by
    cases blinkOn with
    | true => rw [Bool.not_true, Bool.and_false, Bool.and_false]
    | false => rw [h.blink rfl]
  refine ⟨?_, h.fg, h.bg, h.double, hblink, hconcealed⟩
  show (if (hasAttr v.attr eaConcealed && !reveal) = true then _ else _) = _
  rw [hconcealed]

theorem Follows.mosaic (h : Follows blinkOn reveal y a v) (c : UInt8) :
    Follows blinkOn reveal y (a.keep c) (fmtMosaic reveal v c).1 ∧
      SamePlace blinkOn reveal ((a.cell c).shown blinkOn reveal) (fmtMosaic reveal v c).2 := by
  by_cases hc : a.mosaic = true ∧ IsMosaic c
  · have hcell : a.cell c = ⟨mosaicCode c, a.fg, a.bg, a.double, a.flash, a.conceal⟩ := by
      unfold Attrs.cell
      rw [if_pos hc]
    have hfmt : fmtMosaic reveal v c = ({ v with lastCh := c }, v.char reveal (mosaicCode c)) :=
      if_pos ⟨h.graphic.trans hc.1, hc.2⟩
    rw [Attrs.keep_mosaic hc, hcell, hfmt]
    exact ⟨{ h with lastCh := rfl }, h.samePlace (mosaicCode c)⟩
  · have hcell : a.cell c = ⟨c, a.fg, a.bg, a.double, a.flash, a.conceal⟩ := by
      unfold Attrs.cell
      rw [if_neg hc]
    have hfmt : fmtMosaic reveal v c = (v, v.char reveal c) :=
      if_neg fun hboth => hc ⟨h.graphic.symm.trans hboth.1, hboth.2⟩
    rw [Attrs.keep_other hc, hcell, hfmt]
    exact ⟨h, h.samePlace c⟩

theorem Follows.sign (h : Follows blinkOn reveal y a v) (plain : Option UInt8) :
    plain.getD (if v.hold && hasAttr v.attr eaGraphic then v.lastCh else 0x20) = a.sign plain := by
  rw [h.hold, h.graphic, h.lastCh]
  rfl

theorem rowCode_double {c : UInt8} (h : rowCode c = .doubleHeight) : c = 0x0d := by
  have hall : ∀ b : BitVec 8, rowCode ⟨b⟩ = .doubleHeight → (⟨b⟩ : UInt8) = 0x0d := by decide
  exact hall c.toBitVec h

theorem rowCode_normal {c : UInt8} (h : rowCode c = .normalHeight) : c = 0x0c := by
  have hall : ∀ b : BitVec 8, rowCode ⟨b⟩ = .normalHeight → (⟨b⟩ : UInt8) = 0x0c := by decide
  exact hall c.toBitVec h

theorem fmtStep_follows (h : Follows blinkOn reveal y a v) {c : UInt8} (hd : c = 0x0d → y ≠ 23)
    (hn : NormalIdle blinkOn reveal a c) :
    Follows blinkOn reveal y (rowStep (y < 24) a c).1 (fmtStep reveal y v c).1 ∧
      SamePlace blinkOn reveal ((rowStep (y < 24) a c).2.shown blinkOn reveal) (fmtStep reveal y v c).2 := by
  have happly : Follows blinkOn reveal y (a.apply (y < 24) (rowCode c)) (fmtApply y v (rowCode c)) :=
    follows_apply h (fun hk => hd (rowCode_double hk)) fun hk => rowCode_normal hk ▸ hn
  unfold fmtStep
  rw [fmtSwitch_eq]
  dsimp only
  rw [happly.sign]
  exact happly.mosaic _

theorem fmtStep_parts (h : Follows blinkOn reveal y a v) {c : UInt8} (hn : ¬NormalIdle blinkOn reveal a c) :
    ¬SamePlace blinkOn reveal ((rowStep (y < 24) a c).2.shown blinkOn reveal) (fmtStep reveal y v c).2 := by
  intro hsame
  refine hn fun hc => ?_
  subst hc
  have hgraphic : hasAttr (v.attr &&& eaDouble) eaGraphic = false := hasAttr_and_clear rfl
  have hconcealed : hasAttr (v.attr &&& eaDouble) eaConcealed = false := hasAttr_and_clear rfl
  have hblink : hasAttr (v.attr &&& eaDouble) eaBlink = false := hasAttr_and_clear rfl
  have hdouble : hasAttr (v.attr &&& eaDouble) eaDouble = a.double := (hasAttr_and_keep rfl).trans h.double
  -- a blank that has kept double height only
  have hfmt : (fmtStep reveal y v 0x0c).2 = ⟨0x20, v.fg, v.bg, v.attr &&& eaDouble⟩ := by
    have hstep : fmtStep reveal y v 0x0c = fmtMosaic reveal { v with attr := v.attr &&& eaDouble }
        (if v.hold && hasAttr (v.attr &&& eaDouble) eaGraphic then v.lastCh else 0x20) := rfl
    rw [hstep, hgraphic, Bool.and_false, if_neg Bool.false_ne_true]
    unfold fmtMosaic
    rw [if_neg fun hboth => Bool.false_ne_true (hgraphic.symm.trans hboth.1)]
    unfold FmtVars.char
    rw [hconcealed]
    rfl
  rw [hfmt] at hsame
  refine ⟨?_, ?_, fun hb => ?_, fun hr => ?_⟩
  · exact hdouble.symm.trans hsame.double
  · -- in the window the blank is a mosaic as well
    cases hmosaic : a.mosaic with
    | false => rfl
    | true =>
      obtain ⟨c, hc⟩ : ∃ c, c = if a.hold && a.mosaic then a.held else 0x20 := ⟨_, rfl⟩
      have hc' : IsMosaic c := by
        rw [hc]
        split
        · exact a.held_mosaic
        · decide
      have hshown : (a.conceal && !reveal) = false := by
        have hequal : (hasAttr (v.attr &&& eaDouble) eaConcealed && !reveal) = (a.conceal && !reveal) := hsame.concealed
        rw [← hequal, hconcealed]
        rfl
      have hglyph : 0x20 = if (a.conceal && !reveal) = true then 0x20 else
          if a.mosaic = true ∧ IsMosaic c then mosaicCode c else c := hc ▸ hsame.ch
      rw [hshown, if_neg Bool.false_ne_true, if_pos ⟨hmosaic, hc'⟩] at hglyph
      exact absurd hglyph.symm (mosaicCode_ne_blank hc')
  · have hshown : (hasAttr (v.attr &&& eaDouble) eaBlink && !blinkOn) = (a.flash && !blinkOn) := hsame.blink
    rw [hblink, hb] at hshown
    exact (Bool.and_true _).symm.trans hshown.symm
  · have hshown : (hasAttr (v.attr &&& eaDouble) eaConcealed && !reveal) = (a.conceal && !reveal) := hsame.concealed
    rw [hconcealed, hr] at hshown
    exact (Bool.and_true _).symm.trans hshown.symm

/-- **PROVED**: the places of a part of a row are the same if no code for normal height ends anything. -/
theorem places_iff (h : Follows blinkOn reveal y a v) (hd : ∀ c ∈ l, c = 0x0d → y ≠ 23) :
    List.Forall₂ (SamePlace blinkOn reveal)
        ((outputs (rowStep (y < 24)) a l).map (Cell.shown blinkOn reveal)) (outputs (fmtStep reveal y) v l) ↔
      Along (fun a c => some (rowStep (y < 24) a c).1) (NormalIdle blinkOn reveal) a l := by
  rw [List.forall₂_map_left_iff]
  exact forall₂_outputs_iff (R := Follows blinkOn reveal y) (P := fun c => c = 0x0d → y ≠ 23)
    (fun a v c hc hfollows hn => fmtStep_follows hfollows hc hn)
    (fun a v c _ hfollows hn => fmtStep_parts hfollows hn) l a v hd h

end Codes

/-! ### The rows of a page -/

def VtPage.Seen (vtp : VtPage) (y : ℕ) : Prop := hides (doubles vtp.row) y = false

/-- The first eight bytes of row 0 leave the attributes as they are at the start, and have no double height. -/
structure HeaderPlain (vtp : VtPage) : Prop where
  attrs : finish (rowStep true) .start ((vtp.row 0).take 8) = .start
  double : 0x0d ∉ (vtp.row 0).take 8

/-- In a row no code for normal height ends anything; in row 0 behind the first eight bytes. -/
def NormalsIdle (blinkOn reveal : Bool) (vtp : VtPage) (y : ℕ) : Prop :=
  Along (fun a c => some (rowStep (y < 24) a c).1) (NormalIdle blinkOn reveal) .start
    ((vtp.row y).drop (numberPlaces y))

/-- A page with a number of three digits, as all pages that are received, and with bytes that are used. -/
structure Numbered (vtp : VtPage) : Prop where
  pgno_ge : 0x100 ≤ vtp.pgno
  pgno_lt : vtp.pgno < 0x1000
  used : ∀ y x, Used (vtp.data y x)

theorem hexDigit_char {d : ℕ} (hd : d < 16) :
    rowCode (hexDigit d) = .char (hexDigit d) ∧ hexDigit d ≠ 0x0c ∧ hexDigit d ≠ 0x0d := by
  have hall : ∀ d ∈ List.range 16,
      rowCode (hexDigit d) = .char (hexDigit d) ∧ hexDigit d ≠ 0x0c ∧ hexDigit d ≠ 0x0d := by decide
  exact hall d (List.mem_range.mpr hd)

theorem pageNumber_eq {pgno : ℕ} (h : 0x100 ≤ pgno) (h' : pgno < 0x1000) (subno : ℤ) :
    ∃ l : List UInt8, l.length = 6 ∧ (∀ c ∈ l, rowCode c = .char c ∧ c ≠ 0x0c ∧ c ≠ 0x0d) ∧
      pageNumber pgno subno = 0x02 :: (l ++ [0x07]) := by
  have hdigits : Nat.digits 16 pgno = [pgno % 16, pgno / 16 % 16, pgno / 16 / 16] := by
    rw [Nat.digits_def' (by decide) (by omega), Nat.digits_def' (by decide) (by omega),
      Nat.digits_def' (by decide) (by omega), Nat.mod_eq_of_lt (by omega : pgno / 16 / 16 < 16),
      Nat.div_eq_of_lt (by omega : pgno / 16 / 16 < 16), Nat.digits_zero]
  refine ⟨[hexDigit (pgno / 16 / 16), hexDigit (pgno / 16 % 16), hexDigit (pgno % 16), 0x2e,
    hexDigit ((subno % 256).toNat / 16), hexDigit ((subno % 256).toNat % 16)], rfl, ?_, ?_⟩
  · intro c hc
    simp only [List.mem_cons, List.not_mem_nil, or_false] at hc
    rcases hc with rfl | rfl | rfl | rfl | rfl | rfl
    · exact hexDigit_char (by omega)
    · exact hexDigit_char (by omega)
    · exact hexDigit_char (by omega)
    · decide
    · exact hexDigit_char (by omega)
    · exact hexDigit_char (by omega)
  · unfold pageNumber
    rw [hdigits]
    rfl

theorem finish_chars {tall : Bool} {a : Attrs} (ha : a.mosaic = false) {l : List UInt8}
    (h : ∀ c ∈ l, rowCode c = .char c) : finish (rowStep tall) a l = a := by
  induction l with
  | nil => rfl
  | cons c l ih =>
    show finish (rowStep tall) (rowStep tall a c).1 l = a
    rw [rowStep_char (h c List.mem_cons_self) ha]
    exact ih fun c' hc' => h c' (List.mem_cons_of_mem c hc')

section Page

variable {blinkOn reveal : Bool} {vtp : VtPage}

theorem Numbered.take_number (h : Numbered vtp) : (pageNumber vtp.pgno vtp.subno).take 8 =
    pageNumber vtp.pgno vtp.subno ∧ (pageNumber vtp.pgno vtp.subno).length = 8 := by
  obtain ⟨l, hlength, -, hl⟩ := pageNumber_eq h.pgno_ge h.pgno_lt vtp.subno
  have h8 : (pageNumber vtp.pgno vtp.subno).length = 8 := by
    rw [hl, List.length_cons, List.length_append, hlength]
    rfl
  exact ⟨List.take_of_length_le h8.le, h8⟩

theorem Numbered.notMem_number (h : Numbered vtp) : ∀ c ∈ pageNumber vtp.pgno vtp.subno, c ≠ 0x0c ∧ c ≠ 0x0d := by
  obtain ⟨l, -, hchars, hl⟩ := pageNumber_eq h.pgno_ge h.pgno_lt vtp.subno
  intro c hc
  rw [hl, List.mem_cons, List.mem_append, List.mem_singleton] at hc
  rcases hc with rfl | hmem | rfl
  · decide
  · exact (hchars c hmem).2
  · decide

/-- **PROVED**: the number of the page leaves the variables as they are at the start of a row. -/
theorem Numbered.follows_number (h : Numbered vtp) :
    Follows blinkOn reveal 0 .start (finish (fmtStep reveal 0) .start (pageNumber vtp.pgno vtp.subno)) := by
  have hrun : Follows blinkOn reveal 0 (finish (rowStep true) .start (pageNumber vtp.pgno vtp.subno))
      (finish (fmtStep reveal 0) .start (pageNumber vtp.pgno vtp.subno)) :=
    finish_rel (R := Follows blinkOn reveal 0) (P := fun c => c ≠ 0x0c ∧ c ≠ 0x0d)
      (fun a v c hc hfollows => (fmtStep_follows hfollows (fun hd => absurd hd hc.2) fun hn => absurd hn hc.1).1)
      _ _ _ h.notMem_number follows_start
  have hattrs : finish (rowStep true) .start (pageNumber vtp.pgno vtp.subno) = .start := by
    obtain ⟨l, -, hchars, hl⟩ := pageNumber_eq h.pgno_ge h.pgno_lt vtp.subno
    rw [hl]
    show finish (rowStep true) { Attrs.start with fg := 2 } (l ++ [0x07]) = .start
    rw [finish_append, finish_chars rfl fun c hc => (hchars c hc).1]
    rfl
  rwa [hattrs] at hrun

theorem Numbered.row_used (h : Numbered vtp) {y : ℕ} : ∀ c ∈ vtp.row y, Used c := by
  intro c hc
  unfold VtPage.row at hc
  split at hc
  · obtain ⟨x, rfl⟩ := List.mem_ofFn.mp hc
    exact h.used _ x
  · exact absurd hc List.not_mem_nil

/-- The formatter finds double height in the same rows as the window but for row 23. -/
theorem fmtDoubles_eq (h : Numbered vtp) (hheader : HeaderPlain vtp) {y : ℕ} (hy : y ≠ 23) :
    vtp.fmtDoubles y = doubles vtp.row y := by
  refine decide_eq_decide.mpr (and_congr (by omega) ?_)
  unfold VtPage.fmtBytes
  split
  · next hzero =>
    have hnumber : (0x0d : UInt8) ∉ pageNumber vtp.pgno vtp.subno := fun hmem => (h.notMem_number _ hmem).2 rfl
    rw [h.take_number.1, List.mem_append, or_iff_right hnumber, hzero]
    refine ⟨List.mem_of_mem_drop, fun hmem => ?_⟩
    rw [← List.take_append_drop 8 (vtp.row 0), List.mem_append] at hmem
    exact hmem.resolve_left hheader.double
  · exact Iff.rfl

theorem fmtDoubles_last (vtp : VtPage) : vtp.fmtDoubles 23 = false := decide_eq_false fun h => by omega

theorem hides_fmtDoubles (h : Numbered vtp) (hheader : HeaderPlain vtp) {y : ℕ} (hy : y ≤ 23) :
    hides vtp.fmtDoubles y = hides (doubles vtp.row) y :=
  hides_congr fun _ hi => fmtDoubles_eq h hheader (by omega)

theorem samePlace_inDouble (x : XioCell) (f : FmtChar) :
    SamePlace blinkOn reveal x f.inDouble ↔ SamePlace blinkOn reveal x f := by
  unfold FmtChar.inDouble
  split
  · have hdouble : hasAttr (f.attr ||| eaHdouble) eaDouble = hasAttr f.attr eaDouble := hasAttr_or_keep rfl
    have hblink : hasAttr (f.attr ||| eaHdouble) eaBlink = hasAttr f.attr eaBlink := hasAttr_or_keep rfl
    have hconcealed : hasAttr (f.attr ||| eaHdouble) eaConcealed = hasAttr f.attr eaConcealed := hasAttr_or_keep rfl
    constructor
    · intro hs
      exact ⟨hs.ch, hs.fg, hs.bg, hdouble ▸ hs.double, hblink ▸ hs.blink, hconcealed ▸ hs.concealed⟩
    · intro hs
      exact ⟨hs.ch, hs.fg, hs.bg, hdouble ▸ hs.double, hblink ▸ hs.blink, hconcealed ▸ hs.concealed⟩
  · exact Iff.rfl

theorem forall₂_fmtCells (cells : List XioCell) (n y : ℕ) :
    List.Forall₂ (SamePlace blinkOn reveal) cells ((vtp.fmtCells reveal y).drop n) ↔
      List.Forall₂ (SamePlace blinkOn reveal) cells ((fmtRow reveal y (vtp.fmtBytes y)).drop n) := by
  unfold VtPage.fmtCells
  split
  · rw [← List.map_drop, List.forall₂_map_right_iff]
    simp only [samePlace_inDouble]
  · exact Iff.rfl

theorem row_begins (blinkOn reveal : Bool) (h : Numbered vtp) (hheader : HeaderPlain vtp) (y : ℕ) :
    finish (rowStep (y < 24)) .start ((vtp.row y).take (numberPlaces y)) = .start ∧
      Follows blinkOn reveal y .start (finish (fmtStep reveal y) .start ((vtp.fmtBytes y).take (numberPlaces y))) ∧
      (vtp.fmtBytes y).drop (numberPlaces y) = (vtp.row y).drop (numberPlaces y) := by
  cases y with
  | zero =>
    obtain ⟨htake, hlength⟩ := h.take_number
    have hbytes : vtp.fmtBytes 0 = pageNumber vtp.pgno vtp.subno ++ (vtp.row 0).drop 8 := by
      show (pageNumber vtp.pgno vtp.subno).take 8 ++ _ = _
      rw [htake]
    refine ⟨hheader.attrs, ?_, ?_⟩
    · rw [hbytes]
      show Follows blinkOn reveal 0 .start (finish _ .start (List.take 8 _))
      rw [List.take_left' hlength]
      exact h.follows_number
    · rw [hbytes]
      exact List.drop_left' hlength
  | succ y => exact ⟨rfl, follows_start, rfl⟩

/-- **PROVED**: the places of a row that is seen are the same if no code for normal height ends anything. -/
theorem row_iff (h : Numbered vtp) (hheader : HeaderPlain vtp) {y : ℕ} (hd : y = 23 → 0x0d ∉ vtp.row 23) :
    List.Forall₂ (SamePlace blinkOn reveal) ((xioRow blinkOn reveal y (vtp.row y)).drop (numberPlaces y))
        ((vtp.fmtCells reveal y).drop (numberPlaces y)) ↔
      NormalsIdle blinkOn reveal vtp y := by
  obtain ⟨hstart, hfollows, hbytes⟩ := row_begins blinkOn reveal h hheader y
  rw [forall₂_fmtCells, xioRow_eq h.row_used, ← List.map_drop, outputs_drop, hstart]
  unfold fmtRow
  rw [outputs_drop, hbytes]
  refine places_iff hfollows fun c hc hdouble h23 => ?_
  subst hdouble h23
  exact hd rfl (List.mem_of_mem_drop hc)

theorem hides_eq (h : Numbered vtp) (hheader : HeaderPlain vtp) (hlast : vtp.Seen 23 → 0x0d ∉ vtp.row 23) {y : ℕ}
    (hy : y < 25) : hides vtp.fmtDoubles y = hides (doubles vtp.row) y := by
  rcases Nat.lt_or_eq_of_le (Nat.le_of_lt_succ hy) with hlt | rfl
  · exact hides_fmtDoubles h hheader (by omega)
  · show (!hides vtp.fmtDoubles 23 && vtp.fmtDoubles 23) = (!hides (doubles vtp.row) 23 && doubles vtp.row 23)
    rw [fmtDoubles_last, Bool.and_false]
    cases hseen : hides (doubles vtp.row) 23 with
    | true => rfl
    | false =>
      have hnone : doubles vtp.row 23 = false := decide_eq_false fun hboth => hlast hseen hboth.2
      rw [hnone, Bool.and_false]

/-- **PROVED**: a page with a plain header is drawn and formatted alike exactly if row 23 has no double height and no code
for normal height ends anything. -/
theorem renderedAlike_iff (h : Numbered vtp) (hheader : HeaderPlain vtp) (xw : XioWin) (pg : FmtPage) {order : List ℕ}
    (horder : ∀ y, y ∈ order ↔ y < 25) :
    RenderedAlike xw.blinkOn xw.reveal (updateWin (putLines vtp.row order (clearWin xw))).2
        (fmtPage xw.reveal pg vtp) ↔
      (vtp.Seen 23 → 0x0d ∉ vtp.row 23) ∧ ∀ y < 25, vtp.Seen y → NormalsIdle xw.blinkOn xw.reveal vtp y := by
  have hscreen : ∀ y < 25, (updateWin (putLines vtp.row order (clearWin xw))).2 y =
      if hides (doubles vtp.row) y then none else some (xioRow xw.blinkOn xw.reveal y (vtp.row y)) :=
    fun y hy => updateWin_putLines xw vtp.row horder hy
  constructor
  · intro hsame
    have hlast : vtp.Seen 23 → 0x0d ∉ vtp.row 23 := by
      intro hseen hmem
      have hnone : (updateWin (putLines vtp.row order (clearWin xw))).2 24 = none := by
        have hhidden : hides (doubles vtp.row) 24 = true := by
          show (!hides (doubles vtp.row) 23 && doubles vtp.row 23) = true
          rw [hseen]
          exact decide_eq_true ⟨by omega, hmem⟩
        rw [hscreen 24 (by omega), hhidden]
        rfl
      have hhid := (hsame.hidden 24 (by omega)).mp hnone
      rw [fmtPage_hid pg vtp (by omega)] at hhid
      have hshown : hides vtp.fmtDoubles 24 = false := by
        show (!hides vtp.fmtDoubles 23 && vtp.fmtDoubles 23) = false
        rw [fmtDoubles_last, Bool.and_false]
      exact Bool.false_ne_true (hshown.symm.trans hhid)
    refine ⟨hlast, fun y hy hseen => ?_⟩
    have hplaces := hsame.places y hy (xioRow xw.blinkOn xw.reveal y (vtp.row y)) (by rw [hscreen y hy, hseen]; rfl)
    rw [fmtPage_data pg vtp hy ((hides_eq h hheader hlast hy).trans hseen)] at hplaces
    exact (row_iff h hheader fun h23 => hlast (h23 ▸ hseen)).mp hplaces
  · rintro ⟨hlast, hnormals⟩
    constructor
    · intro y hy
      rw [hscreen y hy, fmtPage_hid pg vtp hy, hides_eq h hheader hlast hy]
      cases hides (doubles vtp.row) y with
      | true => exact iff_of_true rfl rfl
      | false => exact iff_of_false (fun hsome => by cases hsome) Bool.false_ne_true
    · intro y hy cells hcells
      rw [hscreen y hy] at hcells
      cases hseen : hides (doubles vtp.row) y with
      | true =>
        rw [hseen] at hcells
        cases hcells
      | false =>
        rw [hseen] at hcells
        cases hcells
        rw [fmtPage_data pg vtp hy ((hides_eq h hheader hlast hy).trans hseen)]
        exact (row_iff h hheader fun h23 => hlast (h23 ▸ hseen)).mpr (hnormals y hy hseen)

/-- **PROVED**: a page with a plain header, with no double height in row 23 and with no code for normal height that ends
anything is drawn and formatted alike. -/
theorem rendered_alike (xw : XioWin) (pg : FmtPage) {order : List ℕ} (horder : ∀ y, y ∈ order ↔ y < 25)
    (h : Numbered vtp) (hheader : HeaderPlain vtp) (hlast : vtp.Seen 23 → 0x0d ∉ vtp.row 23)
    (hnormals : ∀ y < 25, vtp.Seen y → NormalsIdle xw.blinkOn xw.reveal vtp y) :
    RenderedAlike xw.blinkOn xw.reveal (updateWin (putLines vtp.row order (clearWin xw))).2
      (fmtPage xw.reveal pg vtp) :=
  (renderedAlike_iff h hheader xw pg horder).mpr ⟨hlast, hnormals⟩

end Page

def onePage (y : ℕ) (bytes : List UInt8) : VtPage where
  pgno := 0x100
  subno := 0
  lang := 0
  flags := 0
  errors := 0
  lines := 0
  data := fun i x => if i.val = y then bytes.getD x.val 0x20 else 0x20
  flof := 0
  link := []

def emptyWin : XioWin := ⟨fun _ => [], 0, 0, 0, 0, 0, 0, false, false⟩

def emptyPage : FmtPage := ⟨0, 0, fun _ => []⟩

theorem numbered_onePage (y : ℕ) {bytes : List UInt8} (h : (bytes.all fun c => Used c) = true) :
    Numbered (onePage y bytes) := by
  have hblank : Used 0x20 := by decide
  refine ⟨le_rfl, (by decide : 0x100 < 0x1000), fun i x => ?_⟩
  show Used (if i.val = y then bytes.getD x.val 0x20 else 0x20)
  split
  · rw [List.getD_eq_getElem?_getD]
    cases hc : bytes[x.val]? with
    | none => exact hblank
    | some c => exact of_decide_eq_true (List.all_eq_true.mp h c (List.mem_of_getElem? hc))
  · exact hblank

theorem onePage_row {y : ℕ} (hy : y < 25) (bytes : List UInt8) :
    (onePage y bytes).row y = (List.range 40).map fun x => bytes.getD x 0x20 := by
  have hrow : (onePage y bytes).row y = List.ofFn fun x : Fin 40 => bytes.getD x.val 0x20 := by
    unfold VtPage.row
    rw [dif_pos hy]
    exact congrArg List.ofFn (funext fun x => if_pos rfl)
  rw [hrow, List.ofFn_eq_map, ← List.map_coe_finRange_eq_range, List.map_map]
  rfl

theorem onePage_blank {y i : ℕ} (hi : i < 25) (h : i ≠ y) (bytes : List UInt8) :
    (onePage y bytes).row i = List.replicate 40 0x20 := by
  unfold VtPage.row
  rw [dif_pos hi, ← List.ofFn_const]
  exact congrArg List.ofFn (funext fun x => if_neg h)

theorem notMem_blank {c : UInt8} (h : c ≠ 0x20) : c ∉ List.replicate 40 (0x20 : UInt8) := fun hmem =>
  h (List.eq_of_mem_replicate hmem)

theorem headerPlain_onePage {y : ℕ} (hy : 0 ≠ y) (bytes : List UInt8) : HeaderPlain (onePage y bytes) := by
  have hrow : ((onePage y bytes).row 0).take 8 = List.replicate 8 0x20 := by
    rw [onePage_blank (by omega) hy]
    rfl
  constructor
  · rw [hrow]
    refine finish_chars rfl fun c hc => ?_
    rw [List.eq_of_mem_replicate hc]
    decide
  · rw [hrow]
    exact fun hmem => absurd (List.eq_of_mem_replicate hmem) (by decide)

theorem seen_onePage {y i : ℕ} (hy : y < 25) (hi : i ≤ y) (bytes : List UInt8) : (onePage y bytes).Seen i := by
  have hnone : ∀ j < i, doubles (onePage y bytes).row j = (fun _ => false) j := fun j hj => by
    refine decide_eq_false fun hboth => ?_
    rw [onePage_blank ((hj.trans_le hi).trans hy) (by omega)] at hboth
    exact notMem_blank (by decide) hboth.2
  exact (hides_congr hnone).trans (hides_none (fun _ => rfl) i)

theorem normals_of_notMem {blinkOn reveal tall : Bool} {l : List UInt8} (h : 0x0c ∉ l) (a : Attrs) :
    Along (fun a c => some (rowStep tall a c).1) (NormalIdle blinkOn reveal) a l := by
  induction l generalizing a with
  | nil => trivial
  | cons c l ih =>
    rw [along_cons_total]
    exact ⟨fun hc => absurd (hc ▸ List.mem_cons_self) h, ih (fun hmem => h (List.mem_cons_of_mem c hmem)) _⟩

/-- What is seen of a page in a window and what it is formatted to. -/
def OnePageAlike (y : ℕ) (bytes : List UInt8) : Prop :=
  RenderedAlike false false (updateWin (putLines (onePage y bytes).row (List.range 25) (clearWin emptyWin))).2
    (fmtPage false emptyPage (onePage y bytes))

theorem not_alike_normal : ¬OnePageAlike 1 [0x08, 0x0c] := by
  intro halike
  have hiff := renderedAlike_iff (numbered_onePage 1 rfl) (headerPlain_onePage (by decide) [0x08, 0x0c]) emptyWin
    emptyPage fun y => List.mem_range
  have hnormals := (hiff.mp halike).2 1 (by omega) (seen_onePage (by omega) le_rfl _)
  unfold NormalsIdle at hnormals
  rw [onePage_row (by omega)] at hnormals
  have hsecond := (along_cons_total.mp (along_cons_total.mp hnormals).2).1 rfl
  exact absurd (hsecond.2.2.1 rfl) (by decide)

theorem not_alike_last : ¬OnePageAlike 23 [0x0d] := by
  intro halike
  have hiff := renderedAlike_iff (numbered_onePage 23 rfl) (headerPlain_onePage (by decide) [0x0d]) emptyWin
    emptyPage fun y => List.mem_range
  refine (hiff.mp halike).1 (seen_onePage (by omega) le_rfl _) ?_
  rw [onePage_row (by omega)]
  exact List.mem_cons_self

theorem not_alike_header : ¬OnePageAlike 0 [0x0d] := by
  intro halike
  have hnumbered : Numbered (onePage 0 [0x0d]) := numbered_onePage 0 rfl
  have hmem : 0x0d ∈ (onePage 0 [0x0d]).row 0 := by
    rw [onePage_row (by omega)]
    exact List.mem_cons_self
  have hnone : (updateWin (putLines (onePage 0 [0x0d]).row (List.range 25) (clearWin emptyWin))).2 1 = none := by
    rw [updateWin_putLines emptyWin _ (fun y => List.mem_range) (by omega)]
    have hhidden : hides (doubles (onePage 0 [0x0d]).row) 1 = true := by
      show doubles (onePage 0 [0x0d]).row 0 = true
      exact decide_eq_true ⟨by omega, hmem⟩
    rw [hhidden]
    rfl
  have hhid := (halike.hidden 1 (by omega)).mp hnone
  rw [fmtPage_hid emptyPage _ (by omega)] at hhid
  have hfound : (onePage 0 [0x0d]).fmtDoubles 0 = true := hhid
  have hdouble : 0x0d ∈ (pageNumber (onePage 0 [0x0d]).pgno (onePage 0 [0x0d]).subno).take 8 ++
      ((onePage 0 [0x0d]).row 0).drop 8 := (of_decide_eq_true hfound).2
  rw [hnumbered.take_number.1, List.mem_append, onePage_row (by omega)] at hdouble
  rcases hdouble with hnumber | hrest
  · exact (hnumbered.notMem_number _ hnumber).2 rfl
  · exact absurd hrest (by decide)

/-- Pages whose bytes are all used are not always drawn and formatted alike. -/
theorem not_rendered_alike :
    (Numbered (onePage 1 [0x08, 0x0c]) ∧ ¬OnePageAlike 1 [0x08, 0x0c]) ∧
      (Numbered (onePage 23 [0x0d]) ∧ ¬OnePageAlike 23 [0x0d]) ∧
      Numbered (onePage 0 [0x0d]) ∧ ¬OnePageAlike 0 [0x0d] :=
  ⟨⟨numbered_onePage 1 rfl, not_alike_normal⟩, ⟨numbered_onePage 23 rfl, not_alike_last⟩, numbered_onePage 0 rfl,
    not_alike_header⟩

/-- Normal height, then mosaics and double height. -/
theorem rendered_alike_mosaics : OnePageAlike 1 [0x0c, 0x13, 0x35, 0x0d, 0x41] := by
  refine rendered_alike emptyWin emptyPage (fun y => List.mem_range) (numbered_onePage 1 rfl)
    (headerPlain_onePage (by decide) _) (fun _ => ?_) fun y hy _ => ?_
  · rw [onePage_blank (by omega) (by omega)]
    exact notMem_blank (by decide)
  · unfold NormalsIdle
    by_cases h1 : y = 1
    · subst h1
      rw [onePage_row hy]
      exact along_cons_total.mpr ⟨by decide, normals_of_notMem (by decide) _⟩
    · rw [onePage_blank hy h1]
      exact normals_of_notMem (fun hmem => notMem_blank (by decide) (List.mem_of_mem_drop hmem)) _

end BgtDvb.Alevt
