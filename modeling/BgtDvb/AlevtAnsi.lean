import BgtDvb.AlevtFormatted
import BgtDvb.Lib.Terminal

/-!
# The text that alevt writes for terminals

`txt_output` of `exp-txt.c`. With colours a change of the attributes is put off over blanks, or drawn forward to the last
change of the background; then `put_attr` writes for each character the sequence that leads from the attributes before
to its own.

* `read_putAttr` — **PROVED**: the sequence leads to the attributes of the place;
* `Optimized`, `txtOptimize_optimized` — **PROVED**: what the two passes over a row keep;
* `PageShown`, `txtOutput_shown` — **PROVED**: the terminal shows the page.
-/

namespace BgtDvb.Alevt

open Mealy Terminal

/-! ### The exporter -/

/-- `struct txt_data`, as `txt_option` leaves it. -/
structure TxtData where
  color : Bool
  gfxChr : UInt8
  gfxChr_ne : gfxChr ≠ 0
  defFg : UInt8
  defBg : UInt8
  endline : ℕ
  endline_le : endline ≤ 25

variable (d : TxtData)

/-- `def_c`: the end of a line. -/
def TxtData.defC : FmtChar := ⟨0x0a, d.defFg, d.defBg, 0⟩

def txtConvert (c : FmtChar) : FmtChar :=
  if c.ch = 0x00 ∨ c.ch = 0xa0 then { c with ch := 0x20 }
  else if c.ch = 0x7f then { c with ch := 0x2a }
  else if c.ch = badChar then { c with ch := 0x3f }
  else if hasAttr c.attr eaGraphic then { c with ch := d.gfxChr }
  else c

/-- The parts of the sequence that `put_attr` puts together, each with its separator. -/
def attrParts (reset : Bool) (fg bg attr : UInt8) (new : FmtChar) : List UInt8 :=
  (if reset then [separator] else [])
    ++ (if hasAttr (attr &&& new.attr) eaBlink then decimal 5 ++ [separator] else [])
    ++ (if hasAttr (attr &&& new.attr) eaDouble then decimal 1 ++ [separator] else [])
    ++ (if fg ≠ 0 then decimal (new.fg.toNat + 30) ++ [separator] else [])
    ++ (if bg ≠ 0 then decimal (new.bg.toNat + 40) ++ [separator] else [])

/-- Whether everything is set back: an attribute ends, or a colour is that of the terminal. -/
def attrReset (fg bg attr : UInt8) (new : FmtChar) : Bool :=
  decide (~~~new.attr &&& attr ≠ 0) || decide (fg ≠ 0 ∧ new.fg = d.defFg) || decide (bg ≠ 0 ∧ new.bg = d.defBg)

/-- The sequence of `put_attr`; its last byte is replaced by `m`. -/
def attrSequence (fg bg attr : UInt8) (new : FmtChar) : List UInt8 :=
  ([escapeByte, bracket] ++
    if attrReset d fg bg attr new then attrParts true (new.fg ^^^ d.defFg) (new.bg ^^^ d.defBg) 0xff new
    else attrParts false fg bg attr new).dropLast ++ [finalByte]

/-- `put_attr`: `curr` afterwards, and what is written. -/
def putAttr (curr new : FmtChar) : FmtChar × List UInt8 :=
  let fg := curr.fg ^^^ new.fg
  let bg := curr.bg ^^^ new.bg
  let attr := (curr.attr ^^^ new.attr) &&& (eaBlink ||| eaDouble)
  if d.color = true ∧ fg ||| bg ||| attr ≠ 0 then (new, attrSequence d fg bg attr new ++ [new.ch]) else (curr, [new.ch])

/-- `l` with the places of a row; `L` is `l + 1`. -/
def txtFill (l : ℕ → FmtChar) (cells : List FmtChar) (i : ℕ) : FmtChar :=
  if 1 ≤ i ∧ i ≤ 40 then txtConvert d (cells.getD (i - 1) d.defC) else l i

/-- A blank takes the foreground of the place before; `l[x]` is that place itself. -/
def txtDelay (l : ℕ → FmtChar) (x : ℕ) : ℕ → FmtChar :=
  if (l (x + 1)).ch = 0x20 then
    let l := Function.update l (x + 1) { l (x + 1) with fg := (l x).fg }
    Function.update l x { l x with attr := (l x).attr }
  else l

/-- A blank takes the attributes of the next place, if it has the same background. -/
def txtAdvance (l : ℕ → FmtChar) (x : ℕ) : ℕ → FmtChar :=
  if (l (x + 1)).ch = 0x20 ∧ (l (x + 1)).bg = (l (x + 2)).bg then
    Function.update l (x + 1) { l (x + 1) with fg := (l (x + 2)).fg, attr := (l (x + 2)).attr }
  else l

def txtOptimize (l : ℕ → FmtChar) : ℕ → FmtChar :=
  (List.range 40).reverse.foldl txtAdvance ((List.range 40).foldl txtDelay l)

def txtCells (l : ℕ → FmtChar) : List FmtChar := (List.range 41).map fun x => l (x + 1)

/-- A row: `l` and `curr` afterwards, and what is written. -/
def txtRow (st : (ℕ → FmtChar) × FmtChar) (cells : List FmtChar) : ((ℕ → FmtChar) × FmtChar) × List UInt8 :=
  let l := if d.color then txtOptimize (txtFill d st.1 cells) else txtFill d st.1 cells
  ((l, finish (putAttr d) st.2 (txtCells l)), (outputs (putAttr d) st.2 (txtCells l)).flatten)

def txtLine (pg : FmtPage) (st : (ℕ → FmtChar) × FmtChar) (y : ℕ) : ((ℕ → FmtChar) × FmtChar) × List UInt8 :=
  if pg.hid.getLsbD y then (st, []) else txtRow d st (pg.data y)

/-- `txt_output`: the file. -/
def txtOutput (pg : FmtPage) : List UInt8 :=
  (outputs (txtLine d pg) (fun _ => d.defC, d.defC) (List.range d.endline)).flatten

/-! ### The attributes of a place -/

def penOf (c : FmtChar) : Pen := ⟨c.fg, c.bg, hasAttr c.attr eaDouble, hasAttr c.attr eaBlink⟩

/-- The colours that the sequences can name, and those of the terminal. -/
def TxtData.Sendable (c : FmtChar) : Prop := (c.fg = d.defFg ∨ c.fg < 8) ∧ (c.bg = d.defBg ∨ c.bg < 8)

section Attributes

variable {d}

def IsBit (mask : UInt8) : Prop := ∃ i < 8, ∀ a, hasAttr a mask = a.toBitVec.getLsbD i

theorem isBit_double : IsBit eaDouble := ⟨0, by omega, by decide +kernel⟩

theorem isBit_blink : IsBit eaBlink := ⟨2, by omega, by decide +kernel⟩

/-- The attributes that `put_attr` looks at. -/
def attrChange (a b : UInt8) : UInt8 := (a ^^^ b) &&& (eaBlink ||| eaDouble)

variable {mask a b : UInt8} (hbit : IsBit mask) (hmask : (eaBlink ||| eaDouble) &&& mask = mask)

include hbit hmask

theorem hasAttr_attrChange : hasAttr (attrChange a b) mask = (hasAttr a mask ^^ hasAttr b mask) := by
  obtain ⟨i, -, hi⟩ := hbit
  rw [attrChange, hasAttr_and_keep hmask]
  simp only [hi, UInt8.toBitVec_xor, BitVec.getLsbD_xor]

theorem hasAttr_same (h : attrChange a b = 0) : hasAttr a mask = hasAttr b mask := by
  have hchange := hasAttr_attrChange (a := a) (b := b) hbit hmask
  rw [h, hasAttr_eq_false.mpr UInt8.zero_and] at hchange
  revert hchange
  cases hasAttr a mask <;> cases hasAttr b mask <;> decide

theorem hasAttr_begins (h : ~~~b &&& attrChange a b = 0) :
    (hasAttr a mask || hasAttr (attrChange a b &&& b) mask) = hasAttr b mask := by
  have hchange := hasAttr_attrChange (a := a) (b := b) hbit hmask
  obtain ⟨i, hlt, hi⟩ := hbit
  have hends : hasAttr (~~~b &&& attrChange a b) mask = (!hasAttr b mask && hasAttr (attrChange a b) mask) := by
    simp only [hi, UInt8.toBitVec_and, UInt8.toBitVec_not, BitVec.getLsbD_and, BitVec.getLsbD_not, decide_eq_true hlt,
      Bool.true_and]
  have hbegins : hasAttr (attrChange a b &&& b) mask = (hasAttr (attrChange a b) mask && hasAttr b mask) := by
    simp only [hi, UInt8.toBitVec_and, BitVec.getLsbD_and]
  rw [h, hasAttr_eq_false.mpr UInt8.zero_and, hchange] at hends
  rw [hbegins, hchange]
  revert hends
  cases hasAttr a mask <;> cases hasAttr b mask <;> decide

omit hbit hmask

theorem attrChange_eq_zero (hdouble : hasAttr a eaDouble = hasAttr b eaDouble)
    (hblink : hasAttr a eaBlink = hasAttr b eaBlink) : attrChange a b = 0 := by
  have hdouble' : attrChange a b &&& eaDouble = 0 := by
    rw [← hasAttr_eq_false, hasAttr_attrChange isBit_double rfl, hdouble, Bool.xor_self]
  have hblink' : attrChange a b &&& eaBlink = 0 := by
    rw [← hasAttr_eq_false, hasAttr_attrChange isBit_blink rfl, hblink, Bool.xor_self]
  have hboth : attrChange a b &&& (eaBlink ||| eaDouble) = attrChange a b := by
    rw [attrChange, UInt8.and_assoc, UInt8.and_self]
  rw [← hboth, UInt8.and_comm, or_and_mask, UInt8.and_comm, hblink', UInt8.and_comm, hdouble']
  rfl

end Attributes

/-! ### The sequence between two places -/

def attrParams (reset blink bold fg bg : Bool) (new : FmtChar) : List (Option ℕ) :=
  (if reset then [none] else []) ++ (if blink then [some 5] else []) ++ (if bold then [some 1] else [])
    ++ (if fg then [some (new.fg.toNat + 30)] else []) ++ (if bg then [some (new.bg.toNat + 40)] else [])

section Sequence

variable {d}

theorem attrParts_eq (reset : Bool) (fg bg attr : UInt8) (new : FmtChar) :
    attrParts reset fg bg attr new =
      (attrParams reset (hasAttr (attr &&& new.attr) eaBlink) (hasAttr (attr &&& new.attr) eaDouble)
        (decide (fg ≠ 0)) (decide (bg ≠ 0)) new).flatMap fun p => paramBytes p ++ [separator] := by
  have hif : ∀ {p : Prop} [Decidable p] (param : Option ℕ),
      (if p then [param] else []).flatMap (fun p => paramBytes p ++ [separator]) =
        if p then paramBytes param ++ [separator] else [] := by
    intro p _ param
    split
    · exact List.flatMap_singleton _ _
    · rfl
  simp only [attrParts, attrParams, List.flatMap_append, hif, decide_eq_true_iff]
  rfl

variable {new : FmtChar} {s : Screen}

theorem attrParams_pen {default pen : Pen} {reset blink bold fg bg : Bool} (hfg : fg = true → new.fg < 8)
    (hbg : bg = true → new.bg < 8) :
    (attrParams reset blink bold fg bg new).foldl (applyParam default) pen =
      let base := if reset then default else pen
      { fg := if fg then new.fg else base.fg
        bg := if bg then new.bg else base.bg
        bold := base.bold || bold
        blink := base.blink || blink } := by
  have hif : ∀ {p : Prop} [Decidable p] (param : Option ℕ) (pen : Pen),
      (if p then [param] else []).foldl (applyParam default) pen = if p then applyParam default pen param else pen := by
    intro p _ param pen
    split
    · rfl
    · rfl
  have hfgs : ∀ pen : Pen, (if fg then applyParam default pen (some (new.fg.toNat + 30)) else pen) =
      { pen with fg := if fg then new.fg else pen.fg } := by
    intro pen
    cases fg with
    | false => rfl
    | true => exact @applyParam_fg default new.fg pen (hfg rfl)
  have hbgs : ∀ pen : Pen, (if bg then applyParam default pen (some (new.bg.toNat + 40)) else pen) =
      { pen with bg := if bg then new.bg else pen.bg } := by
    intro pen
    cases bg with
    | false => rfl
    | true => exact @applyParam_bg default new.bg pen (hbg rfl)
  simp only [attrParams, List.foldl_append, hif]
  rw [hfgs, hbgs]
  cases reset <;> cases blink <;> cases bold <;> simp [applyParam]

theorem attrParams_ne_zero {reset blink bold fg bg : Bool} :
    ∀ p ∈ attrParams reset blink bold fg bg new, p ≠ some 0 := by
  have hif : ∀ {c : Bool} {param p : Option ℕ}, param ≠ some 0 → p ∈ (if c then [param] else []) → p ≠ some 0 := by
    intro c param p hparam hp
    cases c with
    | false => exact absurd hp List.not_mem_nil
    | true => exact List.mem_singleton.mp hp ▸ hparam
  intro p hp
  simp only [attrParams, List.mem_append] at hp
  rcases hp with (((hp | hp) | hp) | hp) | hp
  · exact hif (by simp) hp
  · exact hif (by simp) hp
  · exact hif (by simp) hp
  · exact hif (by simp) hp
  · exact hif (by simp) hp

/-- The parts that `put_attr` puts together are read as one sequence. -/
theorem read_attrParts {default : Pen} (hs : s.Steady) {reset : Bool} {fg bg attr : UInt8} (hfg : fg ≠ 0 → new.fg < 8)
    (hbg : bg ≠ 0 → new.bg < 8)
    (hne : reset = true ∨ hasAttr (attr &&& new.attr) eaBlink = true ∨ hasAttr (attr &&& new.attr) eaDouble = true
      ∨ fg ≠ 0 ∨ bg ≠ 0) :
    read default s (([escapeByte, bracket] ++ attrParts reset fg bg attr new).dropLast ++ [finalByte]) =
      let base := if reset then default else s.pen
      { flush s with
        pen :=
          { fg := if fg ≠ 0 then new.fg else base.fg
            bg := if bg ≠ 0 then new.bg else base.bg
            bold := base.bold || hasAttr (attr &&& new.attr) eaDouble
            blink := base.blink || hasAttr (attr &&& new.attr) eaBlink }
        mode := .text } := by
  have hparams : attrParams reset (hasAttr (attr &&& new.attr) eaBlink) (hasAttr (attr &&& new.attr) eaDouble)
      (decide (fg ≠ 0)) (decide (bg ≠ 0)) new ≠ [] := by
    intro hnil
    simp only [attrParams, List.append_eq_nil_iff, ite_eq_right_iff, List.cons_ne_nil, imp_false, decide_eq_true_iff]
      at hnil
    tauto
  rw [attrParts_eq, sequence_eq hparams, read_sequence hs hparams attrParams_ne_zero, attrParams_pen]
  · simp only [decide_eq_true_iff]
  · exact fun h => hfg (of_decide_eq_true h)
  · exact fun h => hbg (of_decide_eq_true h)

theorem ite_xor_ne (a b : UInt8) : (if a ^^^ b ≠ 0 then b else a) = b := by
  split
  next => rfl
  next h => exact UInt8.xor_eq_zero_iff.mp (not_not.mp h)

/-- **PROVED**: the sequence leads to the attributes of the new place. -/
theorem read_attrSequence (hs : s.Steady) {curr : FmtChar} (hpen : s.pen = penOf curr) (hnew : d.Sendable new)
    (hchange : curr.fg ^^^ new.fg ||| curr.bg ^^^ new.bg ||| attrChange curr.attr new.attr ≠ 0) :
    read (penOf d.defC) s (attrSequence d (curr.fg ^^^ new.fg) (curr.bg ^^^ new.bg) (attrChange curr.attr new.attr) new) =
      { flush s with pen := penOf new, mode := .text } := by
  unfold attrSequence
  cases hreset : attrReset d (curr.fg ^^^ new.fg) (curr.bg ^^^ new.bg) (attrChange curr.attr new.attr) new with
  | true =>
    have hall : 0xff &&& new.attr = new.attr := by
      show -1 &&& new.attr = new.attr
      exact UInt8.neg_one_and
    rw [if_pos rfl, read_attrParts hs ?_ ?_ (.inl rfl), if_pos rfl, hall, UInt8.xor_comm new.fg, UInt8.xor_comm new.bg]
    · simp only [penOf, TxtData.defC, ite_xor_ne]
      rfl
    · exact fun h => hnew.1.resolve_left fun heq => h (UInt8.xor_eq_zero_iff.mpr heq)
    · exact fun h => hnew.2.resolve_left fun heq => h (UInt8.xor_eq_zero_iff.mpr heq)
  | false =>
    simp only [attrReset, Bool.or_eq_false_iff, decide_eq_false_iff_not, not_not, not_and] at hreset
    obtain ⟨⟨hends, hdefFg⟩, hdefBg⟩ := hreset
    have hdouble := hasAttr_begins isBit_double rfl hends
    have hblink := hasAttr_begins isBit_blink rfl hends
    rw [if_neg Bool.false_ne_true, read_attrParts hs (fun h => hnew.1.resolve_left (hdefFg h))
      (fun h => hnew.2.resolve_left (hdefBg h)) ?_, if_neg Bool.false_ne_true, hpen]
    · simp only [penOf, ite_xor_ne, hdouble, hblink]
    · -- with nothing to write nothing has changed
      by_contra hnothing
      simp only [Bool.false_eq_true, false_or, not_or, not_not, Bool.not_eq_true] at hnothing
      obtain ⟨hnoBlink, hnoDouble, hnoFg, hnoBg⟩ := hnothing
      rw [hnoDouble, Bool.or_false] at hdouble
      rw [hnoBlink, Bool.or_false] at hblink
      rw [hnoFg, hnoBg, attrChange_eq_zero hdouble hblink] at hchange
      exact hchange rfl

theorem putAttr_curr (hcolor : d.color = true) (curr new : FmtChar) : penOf (putAttr d curr new).1 = penOf new := by
  unfold putAttr
  dsimp only
  split
  next => rfl
  next h =>
    have hsame : curr.fg ^^^ new.fg ||| curr.bg ^^^ new.bg ||| attrChange curr.attr new.attr = 0 :=
      not_not.mp fun hne => h ⟨hcolor, hne⟩
    obtain ⟨hcolours, hattr⟩ := UInt8.or_eq_zero_iff.mp hsame
    obtain ⟨hfg, hbg⟩ := UInt8.or_eq_zero_iff.mp hcolours
    rw [UInt8.xor_eq_zero_iff] at hfg hbg
    unfold penOf
    rw [hfg, hbg, hasAttr_same isBit_double rfl hattr, hasAttr_same isBit_blink rfl hattr]

theorem read_putAttr (hcolor : d.color = true) (hs : s.Steady) {curr : FmtChar} (hpen : s.pen = penOf curr)
    (hnew : d.Sendable new) (hch : s.mode = .escape → new.ch ≠ bracket) :
    read (penOf d.defC) s (putAttr d curr new).2 = Screen.take { flush s with pen := penOf new } new.ch := by
  have hcurr := putAttr_curr hcolor curr new
  unfold putAttr at hcurr ⊢
  dsimp only at hcurr ⊢
  split
  next h =>
    have hseq : read (penOf d.defC) s (attrSequence d (curr.fg ^^^ new.fg) (curr.bg ^^^ new.bg)
        ((curr.attr ^^^ new.attr) &&& (eaBlink ||| eaDouble)) new) =
          { flush s with pen := penOf new, mode := .text } := read_attrSequence hs hpen hnew h.2
    have hmode : (flush s).mode = .text := hs.flush_mode
    rw [read_append, hseq]
    rw [← hmode]
    exact readByte_text hmode
  next h =>
    rw [if_neg h] at hcurr
    rw [← hcurr, ← hpen, ← flush_pen s]
    exact read_char hs hch

end Sequence

/-! ### The places of a row one after another -/

/-- The terminal has shown what was written so far. -/
structure Sync (s : Screen) (curr : FmtChar) (last : UInt8) : Prop where
  steady : s.Steady
  pen : s.pen = penOf curr
  last : s.mode = .escape → last = escapeByte

def NoSequence (c c' : UInt8) : Prop := c = escapeByte → c' ≠ bracket

section Cells

variable {d}

theorem Sync.putAttr (hcolor : d.color = true) {s : Screen} {curr new : FmtChar} {last : UInt8} (h : Sync s curr last)
    (hnew : d.Sendable new) (hlast : NoSequence last new.ch) :
    Sync (read (penOf d.defC) s (putAttr d curr new).2) (putAttr d curr new).1 new.ch
      ∧ (flush (read (penOf d.defC) s (putAttr d curr new).2)).shown = (flush s).shown ++ [(new.ch, penOf new)] := by
  rw [read_putAttr hcolor h.steady h.pen hnew fun hmode => hlast (h.last hmode)]
  obtain ⟨hsteady, hpen, hshown, hmode⟩ := take_shown { flush s with pen := penOf new } new.ch
  exact ⟨⟨hsteady, hpen.trans (putAttr_curr hcolor curr new).symm, hmode⟩, hshown⟩

/-- **PROVED**: the places one after another. -/
theorem Sync.cells (hcolor : d.color = true) {s : Screen} {curr : FmtChar} {last : UInt8} (h : Sync s curr last)
    {cells : List FmtChar} (hcells : ∀ c ∈ cells, d.Sendable c)
    (hchain : (last :: cells.map FmtChar.ch).IsChain NoSequence) :
    Sync (read (penOf d.defC) s (outputs (Alevt.putAttr d) curr cells).flatten) (finish (Alevt.putAttr d) curr cells)
        ((cells.map FmtChar.ch).getLastD last)
      ∧ (flush (read (penOf d.defC) s (outputs (Alevt.putAttr d) curr cells).flatten)).shown =
        (flush s).shown ++ cells.map fun c => (c.ch, penOf c) := by
  induction cells generalizing s curr last with
  | nil => exact ⟨h, (List.append_nil _).symm⟩
  | cons c cells ih =>
    obtain ⟨hc, hcells⟩ := List.forall_mem_cons.mp hcells
    obtain ⟨hfirst, hchain⟩ := List.isChain_cons_cons.mp hchain
    obtain ⟨hsync, hshown⟩ := h.putAttr hcolor hc hfirst
    obtain ⟨hsync', hshown'⟩ := ih hsync hcells hchain
    have hread : read (penOf d.defC) s (outputs (Alevt.putAttr d) curr (c :: cells)).flatten =
        read (penOf d.defC) (read (penOf d.defC) s (Alevt.putAttr d curr c).2)
          (outputs (Alevt.putAttr d) (Alevt.putAttr d curr c).1 cells).flatten := read_append _ _ _
    rw [hread, List.map_cons, List.getLastD_cons]
    refine ⟨hsync', ?_⟩
    rw [hshown', hshown, List.append_assoc]
    rfl

end Cells

/-! ### The two passes over a row -/

/-- A place whose attributes were moved: a blank may have changed them, but not its background. -/
structure FmtChar.Moved (c c' : FmtChar) : Prop where
  ch : c'.ch = c.ch
  bg : c'.bg = c.bg
  same : c.ch ≠ 0x20 → c' = c

/-- What the passes keep of the places. -/
structure Optimized (l l' : ℕ → FmtChar) : Prop where
  moved : ∀ x, (l x).Moved (l' x)
  sendable : ∀ x, d.Sendable (l' x)

section Passes

variable {d}

theorem FmtChar.Moved.refl (c : FmtChar) : c.Moved c := ⟨rfl, rfl, fun _ => rfl⟩

theorem FmtChar.Moved.trans {c c' c'' : FmtChar} (h : c.Moved c') (h' : c'.Moved c'') : c.Moved c'' where
  ch := h'.ch.trans h.ch
  bg := h'.bg.trans h.bg
  same := fun hch => (h'.same (h.ch ▸ hch)).trans (h.same hch)

variable {l l' : ℕ → FmtChar}

theorem Optimized.update (h : Optimized d l l') {x y : ℕ} (hblank : (l' x).ch = 0x20) (attr : UInt8) :
    Optimized d l (Function.update l' x { l' x with fg := (l' y).fg, attr := attr }) where
  moved := by
    intro z
    by_cases hz : z = x
    · subst hz
      rw [Function.update_self]
      exact (h.moved z).trans ⟨rfl, rfl, fun hch => absurd hblank hch⟩
    · rw [Function.update_of_ne hz]
      exact h.moved z
  sendable := by
    intro z
    by_cases hz : z = x
    · subst hz
      rw [Function.update_self]
      exact ⟨(h.sendable y).1, (h.sendable z).2⟩
    · rw [Function.update_of_ne hz]
      exact h.sendable z

theorem txtDelay_optimized (h : Optimized d l l') (x : ℕ) : Optimized d l (txtDelay l' x) := by
  unfold txtDelay
  split
  next hblank =>
    dsimp only
    rw [Function.update_eq_self]
    exact h.update hblank _
  next => exact h

theorem txtAdvance_optimized (h : Optimized d l l') (x : ℕ) : Optimized d l (txtAdvance l' x) := by
  unfold txtAdvance
  split
  next hblank => exact h.update hblank.1 _
  next => exact h

/-- **PROVED**: the passes leave everything but the foreground and the attributes of the blanks. -/
theorem txtOptimize_optimized (h : ∀ x, d.Sendable (l x)) : Optimized d l (txtOptimize l) := by
  have hdelay : ∀ (xs : List ℕ) (l' : ℕ → FmtChar), Optimized d l l' → Optimized d l (xs.foldl txtDelay l') := by
    intro xs
    induction xs with
    | nil => exact fun l' h => h
    | cons x xs ih => exact fun l' h => ih _ (txtDelay_optimized h x)
  have hadvance : ∀ (xs : List ℕ) (l' : ℕ → FmtChar), Optimized d l l' → Optimized d l (xs.foldl txtAdvance l') := by
    intro xs
    induction xs with
    | nil => exact fun l' h => h
    | cons x xs ih => exact fun l' h => ih _ (txtAdvance_optimized h x)
  exact hadvance _ _ (hdelay _ _ ⟨fun x => .refl (l x), h⟩)

end Passes

/-! ### A row -/

/-- How a place is shown: a blank in its background, everything else in all of its attributes. -/
structure CellShown (c : FmtChar) (e : UInt8 × Pen) : Prop where
  ch : e.1 = (txtConvert d c).ch
  bg : e.2.bg = c.bg
  pen : e.1 ≠ 0x20 → e.2 = penOf c

def LineShown (cells : List FmtChar) (line : List (UInt8 × Pen)) : Prop :=
  ∃ body, line = body ++ [(0x0a, penOf d.defC)] ∧ body.length = 40 ∧ List.Forall₂ (CellShown d) cells body

/-- Between two rows of the function. -/
structure Ready (st : (ℕ → FmtChar) × FmtChar) : Prop where
  margin : ∀ i, i = 0 ∨ 41 ≤ i → st.1 i = d.defC
  curr : penOf st.2 = penOf d.defC

/-- Between two rows on the terminal. -/
structure AtLineEnd (s : Screen) : Prop where
  mode : s.mode = .text
  pen : s.pen = penOf d.defC

section Rows

variable {d}

theorem txtConvert_rest (c : FmtChar) : penOf (txtConvert d c) = penOf c := by
  unfold txtConvert
  split_ifs
  · rfl
  · rfl
  · rfl
  · rfl
  · rfl

theorem txtConvert_ch (c : FmtChar) :
    (txtConvert d c).ch ∈ [0x20, 0x2a, 0x3f] ∨ hasAttr c.attr eaGraphic = true ∧ (txtConvert d c).ch = d.gfxChr
      ∨ hasAttr c.attr eaGraphic = false ∧ (txtConvert d c).ch = c.ch := by
  unfold txtConvert
  split_ifs with hzero hdel hbad hgraphic
  · exact .inl (.head _)
  · exact .inl (.tail _ (.head _))
  · exact .inl (.tail _ (.tail _ (.head _)))
  · exact .inr (.inl ⟨hgraphic, rfl⟩)
  · exact .inr (.inr ⟨Bool.eq_false_of_not_eq_true hgraphic, rfl⟩)

variable {cells : List FmtChar} {l : ℕ → FmtChar}

/-- An escape can only stand for a mosaic, and what follows is no bracket. -/
theorem IsFmtRow.noSequence (h : IsFmtRow cells) : (cells.map fun c => (txtConvert d c).ch).IsChain NoSequence := by
  refine (List.isChain_map _).mpr (h.leads.imp_of_mem_imp fun c c' hc _ hlead hescape => ?_)
  have hconverted : ∀ ch ∈ [(0x20 : UInt8), 0x2a, 0x3f], ch ≠ escapeByte ∧ ch ≠ bracket := by decide +kernel
  have hmosaic : hasAttr c.attr eaGraphic = true ∧ d.gfxChr = escapeByte := by
    rcases txtConvert_ch (d := d) c with hch | ⟨hgraphic, hch⟩ | ⟨hplain, hch⟩
    · exact absurd hescape (hconverted _ hch).1
    · exact ⟨hgraphic, hch.symm.trans hescape⟩
    · rcases h.chars c hc with hgraphic | hle
      · exact absurd (hplain.symm.trans hgraphic) Bool.false_ne_true
      · rw [hch] at hescape
        exact absurd (hescape ▸ hle) (by decide)
  rcases txtConvert_ch (d := d) c' with hch | ⟨-, hch⟩ | ⟨hplain, hch⟩
  · exact (hconverted _ hch).2
  · rw [hch, hmosaic.2]
    decide
  · rw [hch, (hlead hmosaic.1).resolve_left (hplain ▸ Bool.false_ne_true)]
    decide

theorem noSequence_line {w : List UInt8} (h : w.IsChain NoSequence) : (0x0a :: (w ++ [0x0a])).IsChain NoSequence := by
  have hnot : ∀ c, NoSequence 0x0a c := fun c hescape => absurd hescape (by decide)
  have hend : ∀ c, NoSequence c 0x0a := fun c _ => by decide
  have happ : (w ++ [0x0a]).IsChain NoSequence :=
    List.isChain_append.mpr ⟨h, .singleton _, fun c _ c' hc' => (Option.some.inj hc') ▸ hend c⟩
  cases hw : w ++ [0x0a] with
  | nil => exact .singleton _
  | cons c w' => exact .cons_cons (hnot c) (hw ▸ happ)

theorem txtFill_margin {i : ℕ} (hi : i = 0 ∨ 41 ≤ i) :
    txtFill d l cells i = l i := if_neg (by omega)

theorem txtFill_cell {x : ℕ} (hx : x < 40) : txtFill d l cells (x + 1) = txtConvert d (cells.getD x d.defC) := by
  unfold txtFill
  rw [if_pos (by omega), Nat.add_sub_cancel]

theorem getD_range (h : cells.length = 40) (c : FmtChar) : ((List.range 40).map fun x => cells.getD x c) = cells := by
  refine List.ext_getElem (by simp [h]) fun x hx hx' => ?_
  rw [List.getElem_map, List.getElem_range, List.getD_eq_getElem _ _ hx']

theorem txtFill_sendable (hl : ∀ i, i = 0 ∨ 41 ≤ i → l i = d.defC) (hcells : IsFmtRow cells) (i : ℕ) :
    d.Sendable (txtFill d l cells i) := by
  by_cases hi : i = 0 ∨ 41 ≤ i
  · rw [txtFill_margin hi, hl i hi]
    exact ⟨.inl rfl, .inl rfl⟩
  · obtain ⟨x, rfl⟩ : ∃ x, i = x + 1 := ⟨i - 1, by omega⟩
    have hx : x < cells.length := by rw [hcells.length]; omega
    rw [txtFill_cell (by omega), List.getD_eq_getElem _ _ hx]
    have hrest := txtConvert_rest (d := d) cells[x]
    obtain ⟨hfg, hbg⟩ := hcells.colours _ (List.getElem_mem hx)
    have hfg' : (txtConvert d cells[x]).fg = cells[x].fg := congrArg Pen.fg hrest
    have hbg' : (txtConvert d cells[x]).bg = cells[x].bg := congrArg Pen.bg hrest
    exact ⟨.inr (hfg' ▸ hfg), .inr (hbg' ▸ hbg)⟩

theorem Optimized.row (hlength : cells.length = 40) {l' : ℕ → FmtChar} (h : Optimized d (txtFill d l cells) l') :
    List.Forall₂ (fun c c' => (txtConvert d c).Moved c') cells ((List.range 40).map fun x => l' (x + 1)) := by
  rw [← getD_range hlength d.defC, List.forall₂_map_left_iff, List.forall₂_map_right_iff, List.forall₂_same]
  intro x hx
  rw [← txtFill_cell (List.mem_range.mp hx)]
  exact h.moved (x + 1)

theorem Optimized.margin {l' : ℕ → FmtChar} (h : Optimized d (txtFill d l cells) l')
    (hl : ∀ i, i = 0 ∨ 41 ≤ i → l i = d.defC) : ∀ i, i = 0 ∨ 41 ≤ i → l' i = d.defC := by
  intro i hi
  have hfill : txtFill d l cells i = d.defC := (txtFill_margin hi).trans (hl i hi)
  have hmoved := h.moved i
  rw [hfill] at hmoved
  exact hmoved.same (by show (0x0a : UInt8) ≠ 0x20; decide)

/-- **PROVED**: a row is shown, and the terminal is back at its colours. -/
theorem txtRow_shown (hcolor : d.color = true) {st : (ℕ → FmtChar) × FmtChar} (hst : Ready d st)
    (hcells : IsFmtRow cells) {s : Screen} (hs : AtLineEnd d s) :
    Ready d (txtRow d st cells).1 ∧ AtLineEnd d (read (penOf d.defC) s (txtRow d st cells).2)
      ∧ ∃ line, (read (penOf d.defC) s (txtRow d st cells).2).shown = s.shown ++ line ∧ LineShown d cells line := by
  have hopt := txtOptimize_optimized (txtFill_sendable hst.margin hcells)
  unfold txtRow
  rw [if_pos hcolor]
  dsimp only
  generalize txtOptimize (txtFill d st.1 cells) = l at hopt
  have hmargin := hopt.margin hst.margin
  have hrow := hopt.row hcells.length
  have hwritten : txtCells l = (List.range 40).map (fun x => l (x + 1)) ++ [d.defC] := by
    unfold txtCells
    rw [List.range_succ, List.map_append, List.map_singleton, hmargin (40 + 1) (.inr (by omega))]
  generalize (List.range 40).map (fun x => l (x + 1)) = body at hrow hwritten
  have hchars : (txtCells l).map FmtChar.ch = (cells.map fun c => (txtConvert d c).ch) ++ [0x0a] := by
    have hsame : List.Forall₂ (· = ·) (cells.map fun c => (txtConvert d c).ch) (body.map FmtChar.ch) := by
      rw [List.forall₂_map_left_iff, List.forall₂_map_right_iff]
      exact hrow.imp fun c c' hmoved => hmoved.ch.symm
    rw [List.forall₂_eq_eq_eq] at hsame
    rw [hwritten, List.map_append, hsame]
    rfl
  have hsync : Sync s st.2 0x0a :=
    ⟨.inl hs.mode, hs.pen.trans hst.curr.symm, fun hmode => by rw [hs.mode] at hmode; cases hmode⟩
  have hsend : ∀ c ∈ txtCells l, d.Sendable c := by
    intro c hc
    obtain ⟨x, -, rfl⟩ := List.mem_map.mp hc
    exact hopt.sendable (x + 1)
  obtain ⟨hsync', hshown⟩ := hsync.cells hcolor hsend (hchars ▸ noSequence_line hcells.noSequence)
  rw [hchars, List.getLastD_concat] at hsync'
  have hmode : (read (penOf d.defC) s (outputs (putAttr d) st.2 (txtCells l)).flatten).mode = .text :=
    hsync'.steady.resolve_right fun hmode => absurd (hsync'.last hmode) (by decide)
  have hcurr : penOf (finish (putAttr d) st.2 (txtCells l)) = penOf d.defC := by
    rw [hwritten, finish_append]
    exact putAttr_curr hcolor _ _
  refine ⟨⟨hmargin, hcurr⟩, ⟨hmode, hsync'.pen.trans hcurr⟩, (txtCells l).map fun c => (c.ch, penOf c), ?_, ?_⟩
  · rw [flush_text hmode, flush_text hs.mode] at hshown
    exact hshown
  · refine ⟨body.map fun c => (c.ch, penOf c), ?_, ?_, ?_⟩
    · rw [hwritten, List.map_append]
      rfl
    · rw [List.length_map, ← hrow.length_eq, hcells.length]
    · rw [List.forall₂_map_right_iff]
      refine hrow.imp fun c c' hmoved => ?_
      have hrest := txtConvert_rest (d := d) c
      refine ⟨hmoved.ch, hmoved.bg.trans (congrArg Pen.bg hrest), fun hblank => ?_⟩
      show penOf c' = _
      rw [hmoved.same fun hch => hblank (hmoved.ch.trans hch), hrest]

end Rows

/-! ### The page -/

/-- What `color` sets. -/
def TxtData.inColour : TxtData := { d with color := true }

def Screen.fresh : Screen := ⟨[], penOf d.defC, .text⟩

/-- The rows of the page that are not hidden, down to `endline`. -/
def TxtData.rows (pg : FmtPage) : List ℕ := (List.range d.endline).filter fun y => !pg.hid.getLsbD y

/-- The page is shown, and the terminal is back at its colours. -/
structure PageShown (pg : FmtPage) (s : Screen) : Prop where
  atEnd : AtLineEnd d s
  lines : ∃ lines, s.shown = lines.flatten ∧ List.Forall₂ (fun y line => LineShown d (pg.data y) line) (d.rows pg) lines

section Pages

variable {d}

theorem txtLines_shown (hcolor : d.color = true) (pg : FormattedPage) {ys : List ℕ} (hys : ∀ y ∈ ys, y < 25)
    {st : (ℕ → FmtChar) × FmtChar} (hst : Ready d st) {s : Screen} (hs : AtLineEnd d s) :
    AtLineEnd d (read (penOf d.defC) s (outputs (txtLine d pg.page) st ys).flatten)
      ∧ ∃ lines, (read (penOf d.defC) s (outputs (txtLine d pg.page) st ys).flatten).shown = s.shown ++ lines.flatten
        ∧ List.Forall₂ (fun y line => LineShown d (pg.page.data y) line)
          (ys.filter fun y => !pg.page.hid.getLsbD y) lines := by
  induction ys generalizing st s with
  | nil => exact ⟨hs, [], (List.append_nil _).symm, .nil⟩
  | cons y ys ih =>
    obtain ⟨hy, hys⟩ := List.forall_mem_cons.mp hys
    have hread : read (penOf d.defC) s (outputs (txtLine d pg.page) st (y :: ys)).flatten =
        read (penOf d.defC) (read (penOf d.defC) s (txtLine d pg.page st y).2)
          (outputs (txtLine d pg.page) (txtLine d pg.page st y).1 ys).flatten := read_append _ _ _
    rw [hread]
    cases hhid : pg.page.hid.getLsbD y with
    | true =>
      have hline : txtLine d pg.page st y = (st, []) := if_pos hhid
      rw [hline, List.filter_cons_of_neg (by rw [hhid]; exact Bool.false_ne_true)]
      exact ih hys hst hs
    | false =>
      have hline : txtLine d pg.page st y = txtRow d st (pg.page.data y) := if_neg (hhid ▸ Bool.false_ne_true)
      obtain ⟨hst', hs', line, hshown, hshows⟩ := txtRow_shown hcolor hst (pg.rows y hy) hs
      obtain ⟨hs'', lines, hshown', hshows'⟩ := ih hys hst' hs'
      rw [hline, List.filter_cons_of_pos (by rw [hhid]; rfl)]
      refine ⟨hs'', line :: lines, ?_, .cons hshows hshows'⟩
      rw [hshown', hshown, List.flatten_cons, List.append_assoc]

end Pages

/-- **PROVED**: on a terminal with the colours of the options, every row that is not hidden is shown with its 40 places
and the end of the line. -/
theorem txtOutput_shown (pg : FormattedPage) :
    PageShown d.inColour pg.page
      (read (penOf d.inColour.defC) (Screen.fresh d.inColour) (txtOutput d.inColour pg.page)) := by
  have hys : ∀ y ∈ List.range d.inColour.endline, y < 25 := fun y hy =>
    (List.mem_range.mp hy).trans_le d.inColour.endline_le
  obtain ⟨hend, lines, hshown, hlines⟩ := @txtLines_shown d.inColour rfl pg _ hys
    (fun _ => d.inColour.defC, d.inColour.defC) ⟨fun _ _ => rfl, rfl⟩ (Screen.fresh d.inColour) ⟨rfl, rfl⟩
  exact ⟨hend, lines, hshown, hlines⟩

end BgtDvb.Alevt
