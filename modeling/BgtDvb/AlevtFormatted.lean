import BgtDvb.AlevtRenderers

/-!
# Formatted pages

What holds of every page that `fmt_page` has formatted, and what the exporters rely on: each row has 40 places, the
colours are those of the palette, only mosaics have codes below the blank, and behind a mosaic there is a mosaic or a
blank.

* `fmtRow_formatted`, `fmtRows_formatted` — **PROVED**: the rows that the loop writes are such rows;
* `fmtPage_formatted` — **PROVED**: so are all rows of a page with a number of three digits.
-/

namespace BgtDvb.Alevt

open Mealy

def FmtChar.HasColours (c : FmtChar) : Prop := c.fg < 8 ∧ c.bg < 8

def FmtChar.Leads (c d : FmtChar) : Prop :=
  hasAttr c.attr eaGraphic = true → hasAttr d.attr eaGraphic = true ∨ d.ch = 0x20

/-- A row of a formatted page. -/
structure IsFmtRow (cells : List FmtChar) : Prop where
  length : cells.length = 40
  colours : ∀ c ∈ cells, c.HasColours
  chars : ∀ c ∈ cells, hasAttr c.attr eaGraphic = true ∨ 0x20 ≤ c.ch
  leads : cells.IsChain FmtChar.Leads

/-- A page that has been formatted. -/
structure FormattedPage where
  page : FmtPage
  rows : ∀ y < 25, IsFmtRow (page.data y)

section Rows

variable {reveal : Bool}

theorem palette_and (c : UInt8) : c &&& 7 < 8 := by
  have hle : c &&& 7 ≤ 7 := UInt8.and_le_right
  exact UInt8.lt_of_le_of_lt hle (by decide)

def FmtVars.HasColours (v : FmtVars) : Prop := v.fg < 8 ∧ v.bg < 8

theorem fmtSwitch_colours {v : FmtVars} (h : v.HasColours) (y : ℕ) (ch : UInt8) : (fmtSwitch y v ch).1.HasColours := by
  have hif : ∀ {p : Prop} [Decidable p] {a b : FmtVars × Option UInt8},
      a.1.HasColours → b.1.HasColours → (if p then a else b).1.HasColours := by
    intro p _ a b ha hb
    split
    · exact ha
    · exact hb
  have hfg : ch &&& 7 < 8 := palette_and ch
  have hblack : (0 : UInt8) < 8 := by decide
  have hheight : (if y < 25 - 2 then { v with attr := v.attr ||| eaDouble, dbl := true } else v).HasColours := by
    split
    · exact h
    · exact h
  -- one branch of the switch after another: a colour, the attributes, and the two codes for the background
  refine hif ⟨hfg, h.2⟩ (hif h (hif h (hif h (hif h (hif hheight (hif ⟨hfg, h.2⟩ ?_))))))
  exact hif h (hif h (hif h (hif ⟨h.1, hblack⟩ (hif ⟨h.1, h.1⟩ (hif h (hif h (hif h h)))))))

theorem fmtStep_colours {v : FmtVars} (h : v.HasColours) (y : ℕ) (ch : UInt8) :
    (fmtStep reveal y v ch).1.HasColours ∧ (fmtStep reveal y v ch).2.HasColours := by
  have hswitch := fmtSwitch_colours h y ch
  unfold fmtStep fmtMosaic
  dsimp only
  generalize Option.getD _ _ = c
  split
  · exact ⟨hswitch, hswitch⟩
  · exact ⟨hswitch, hswitch⟩

theorem fmtSwitch_char (y : ℕ) (v : FmtVars) {ch c : UInt8} (h : (fmtSwitch y v ch).2 = some c) :
    (fmtSwitch y v ch).1 = v ∧ 0x20 ≤ c := by
  let Plain (r : FmtVars × Option UInt8) : Prop := ∀ c, r.2 = some c → r.1 = v ∧ 0x20 ≤ c
  have hif : ∀ {p : Prop} [Decidable p] {a b : FmtVars × Option UInt8},
      Plain a → (¬p → Plain b) → Plain (if p then a else b) := by
    intro p _ a b ha hb
    split
    next => exact ha
    next hp => exact hb hp
  have hcode : ∀ w, Plain (w, none) := fun w c hc => nomatch hc
  have hblank : Plain (v, some 0x20) := by
    intro c hc
    cases hc
    exact ⟨rfl, UInt8.le_refl _⟩
  have hall : Plain (fmtSwitch y v ch) := by
    refine hif (hcode _) fun h0 => hif (hcode _) fun h8 => hif (hcode _) fun h9 => hif (hcode _) fun ha => ?_
    refine hif (hcode _) fun hc => hif (hcode _) fun hd => hif (hcode _) fun h10 => hif (hcode _) fun h18 => ?_
    refine hif (hcode _) fun h19 => hif (hcode _) fun h1a => hif (hcode _) fun h1c => hif (hcode _) fun h1d => ?_
    refine hif (hcode _) fun h1e => hif (hcode _) fun h1f => hif hblank fun h1b => ?_
    intro c heq
    cases heq
    refine ⟨rfl, ?_⟩
    -- no code below the blank is left
    simp only [UInt8.le_iff_toNat_le, ← UInt8.toNat_inj, UInt8.reduceToNat] at *
    omega
  exact hall c h

theorem fmtMosaic_attr (v : FmtVars) (ch : UInt8) :
    (fmtMosaic reveal v ch).1.attr = v.attr ∧ (fmtMosaic reveal v ch).2.attr = v.attr := by
  unfold fmtMosaic
  split
  · exact ⟨rfl, rfl⟩
  · exact ⟨rfl, rfl⟩

theorem fmtStep_char (y : ℕ) (v : FmtVars) (ch : UInt8) :
    (fmtStep reveal y v ch).2.attr = (fmtStep reveal y v ch).1.attr
      ∧ (hasAttr (fmtStep reveal y v ch).2.attr eaGraphic = true ∨ (fmtStep reveal y v ch).2.ch = 0x20
        ∨ (fmtStep reveal y v ch).2.attr = v.attr ∧ 0x20 ≤ (fmtStep reveal y v ch).2.ch) := by
  have hchar := fun c => @fmtSwitch_char y v ch c
  unfold fmtStep
  dsimp only
  generalize fmtSwitch y v ch = r at hchar ⊢
  obtain ⟨w, o⟩ := r
  have hattr := fun c => @fmtMosaic_attr reveal w c
  refine ⟨(hattr _).2.trans (hattr _).1.symm, ?_⟩
  rw [(hattr _).2]
  cases hgraphic : hasAttr w.attr eaGraphic with
  | true => exact .inl rfl
  | false =>
    right
    unfold fmtMosaic
    rw [hgraphic, if_neg fun h => Bool.false_ne_true h.1]
    cases o with
    | none =>
      left
      rw [Bool.and_false, if_neg Bool.false_ne_true]
      exact ite_self _
    | some c =>
      obtain ⟨hw, hc⟩ := hchar c rfl
      show (if _ then 0x20 else c) = 0x20 ∨ w.attr = v.attr ∧ 0x20 ≤ if _ then 0x20 else c
      split
      · exact .inl rfl
      · exact .inr ⟨congrArg FmtVars.attr hw, hc⟩

theorem fmtRow_formatted (y : ℕ) {row : List UInt8} (hrow : row.length = 40) : IsFmtRow (fmtRow reveal y row) where
  length := (outputs_length _ _ row).trans hrow
  chars := by
    have hstep : ∀ (v : FmtVars) ch, True → True ∧ (hasAttr (fmtStep reveal y v ch).2.attr eaGraphic = true
        ∨ 0x20 ≤ (fmtStep reveal y v ch).2.ch) := by
      intro v ch _
      rcases (fmtStep_char y v ch).2 with hgraphic | hblank | ⟨-, hchar⟩
      · exact ⟨trivial, .inl hgraphic⟩
      · exact ⟨trivial, .inr (UInt8.le_of_eq hblank.symm)⟩
      · exact ⟨trivial, .inr hchar⟩
    exact forall_outputs hstep row FmtVars.start trivial
  leads := by
    refine isChain_outputs (fun v ch ch' hgraphic => ?_) row FmtVars.start
    rw [(fmtStep_char y v ch).1] at hgraphic
    rcases (fmtStep_char y (fmtStep reveal y v ch).1 ch').2 with hnext | hblank | ⟨hattr, -⟩
    · exact .inl hnext
    · exact .inr hblank
    · exact .inl (hattr ▸ hgraphic)
  colours := forall_outputs (fun v ch (hv : FmtVars.HasColours v) => fmtStep_colours hv y ch) row FmtVars.start
    ⟨by decide, by decide⟩

/-- What a place keeps when its row is made part of a row with double height. -/
structure FmtChar.Keeps (c d : FmtChar) : Prop where
  fg : d.fg = c.fg
  bg : d.bg = c.bg
  graphic : hasAttr d.attr eaGraphic = hasAttr c.attr eaGraphic
  ch : d.ch = c.ch ∨ d.ch = 0x20

theorem IsFmtRow.map {cells : List FmtChar} (h : IsFmtRow cells) {f : FmtChar → FmtChar} (hf : ∀ c : FmtChar, c.Keeps (f c)) :
    IsFmtRow (cells.map f) where
  length := (List.length_map f).trans h.length
  colours := by
    intro c hc
    obtain ⟨d, hd, rfl⟩ := List.mem_map.mp hc
    unfold FmtChar.HasColours
    rw [(hf d).fg, (hf d).bg]
    exact h.colours d hd
  chars := by
    intro c hc
    obtain ⟨d, hd, rfl⟩ := List.mem_map.mp hc
    rw [(hf d).graphic]
    rcases (hf d).ch with hsame | hblank
    · rw [hsame]
      exact h.chars d hd
    · exact .inr (UInt8.le_of_eq hblank.symm)
  leads := by
    refine List.isChain_map_of_isChain f (fun c d hlead hgraphic => ?_) h.leads
    rw [(hf c).graphic] at hgraphic
    rw [(hf d).graphic]
    rcases hlead hgraphic with hnext | hblank
    · exact .inl hnext
    · exact .inr ((hf d).ch.elim (fun hsame => hsame.trans hblank) id)

theorem inDouble_keeps (c : FmtChar) : c.Keeps c.inDouble := by
  unfold FmtChar.inDouble
  split
  · exact ⟨rfl, rfl, hasAttr_or_keep rfl, .inl rfl⟩
  · exact ⟨rfl, rfl, rfl, .inl rfl⟩

theorem fmtRows_formatted (vtp : VtPage) (hbytes : ∀ y < 25, (vtp.fmtBytes y).length = 40) (n y : ℕ) (pg : FmtPage)
    (hn : 25 ≤ y + n) (hpg : ∀ i < y, IsFmtRow (pg.data i)) :
    ∀ i < 25, IsFmtRow ((fmtRows reveal vtp n y pg).data i) := by
  induction n generalizing y pg with
  | zero => exact fun i hi => hpg i (by omega)
  | succ n ih =>
    unfold fmtRows
    split
    next hlt =>
      dsimp only
      have hrow : IsFmtRow (fmtRow reveal y (vtp.fmtBytes y)) := fmtRow_formatted y (hbytes y hlt)
      split
      · refine ih (y + 2) _ (by omega) fun i hi => ?_
        have hdouble := hrow.map inDouble_keeps
        show IsFmtRow (Function.update (Function.update pg.data y _) (y + 1) _ i)
        by_cases hbelow : i = y + 1
        · rw [hbelow, Function.update_self]
          exact hdouble.map fun c => ⟨rfl, rfl, rfl, .inr rfl⟩
        · rw [Function.update_of_ne hbelow]
          by_cases hsame : i = y
          · rw [hsame, Function.update_self]
            exact hdouble
          · rw [Function.update_of_ne hsame]
            exact hpg i (by omega)
      · refine ih (y + 1) _ (by omega) fun i hi => ?_
        show IsFmtRow (Function.update pg.data y _ i)
        by_cases hsame : i = y
        · rw [hsame, Function.update_self]
          exact hrow
        · rw [Function.update_of_ne hsame]
          exact hpg i (by omega)
    next hend => exact fun i hi => hpg i (by omega)

theorem fmtBytes_length {vtp : VtPage} (hpgno : 0x100 ≤ vtp.pgno) (hpgno' : vtp.pgno < 0x1000) {y : ℕ} (hy : y < 25) :
    (vtp.fmtBytes y).length = 40 := by
  have hrow : (vtp.row y).length = 40 := by
    unfold VtPage.row
    rw [dif_pos hy]
    exact List.length_ofFn
  unfold VtPage.fmtBytes
  split
  next hzero =>
    obtain ⟨l, hlength, -, hl⟩ := pageNumber_eq hpgno hpgno' vtp.subno
    rw [hzero] at hrow
    rw [List.length_append, List.length_take, List.length_drop, hrow, hl, List.length_cons, List.length_append, hlength]
    rfl
  · exact hrow

/-- **PROVED**: all rows of a formatted page. -/
theorem fmtPage_formatted (reveal : Bool) (pg : FmtPage) {vtp : VtPage} (hpgno : 0x100 ≤ vtp.pgno)
    (hpgno' : vtp.pgno < 0x1000) : ∀ y < 25, IsFmtRow ((fmtPage reveal pg vtp).data y) :=
  fmtRows_formatted vtp (fun _ hy => fmtBytes_length hpgno hpgno' hy) 25 0 _ (by omega) fun i hi => by omega

/-- Red mosaics of double height in row 1, and letters in the other rows. -/
def mosaicPage : VtPage :=
  ⟨0x100, 0, 0, 0, 0, 0, fun y x => if y.val = 1 then [0x11, 0x0d, 0x7f, 0x1e, 0x07].getD x.val 0x73 else 0x41, 0, []⟩

theorem fmtPage_formatted_mosaics :
    let pg := fmtPage false ⟨0, 0, fun _ => []⟩ mosaicPage
    pg.dbl = 2 ∧ pg.hid = 4 ∧ (pg.data 1)[2]? = some ⟨0x9f, 1, 0, eaGraphic ||| eaDouble⟩ ∧
      ∀ y < 25, IsFmtRow (pg.data y) :=
  ⟨by decide +kernel, by decide +kernel, by decide +kernel, fmtPage_formatted _ _ (by decide) (by decide)⟩

end Rows

end BgtDvb.Alevt
