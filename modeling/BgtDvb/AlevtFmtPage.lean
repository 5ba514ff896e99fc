import BgtDvb.AlevtXio
import BgtDvb.AlevtCache

/-!
# Pages to be exported from alevt

`fmt_page` of `export.c` makes of a page 25 rows of characters with colours and attributes. It puts the number of the
page in the first eight places of row 0, and after a row with double height it goes on behind the next one.

* `fmtDbl_eq` — **PROVED**: the rows that have double height;
* `fmtRows_spec`, `fmtPage_hid`, `fmtPage_data` — **PROVED**: the rows that are hidden, and the others.
-/

namespace BgtDvb.Alevt

open Mealy

/-! ### The formatter -/

def eaDouble : UInt8 := 1
def eaHdouble : UInt8 := 2
def eaBlink : UInt8 := 4
def eaConcealed : UInt8 := 8
def eaGraphic : UInt8 := 16
def eaSeparated : UInt8 := 32

/-- `struct fmt_char` -/
structure FmtChar where
  ch : UInt8
  fg : UInt8
  bg : UInt8
  attr : UInt8
  deriving DecidableEq

/-- `attr & mask` -/
def hasAttr (attr mask : UInt8) : Bool := attr &&& mask ≠ 0

/-- `struct fmt_page` -/
structure FmtPage where
  dbl : BitVec 32
  hid : BitVec 32
  data : ℕ → List FmtChar

/-- The local variables of `fmt_page` for a row; `c` without its character. -/
structure FmtVars where
  fg : UInt8
  bg : UInt8
  attr : UInt8
  lastCh : UInt8
  dbl : Bool
  hold : Bool

def FmtVars.start : FmtVars where
  fg := 7
  bg := 0
  attr := 0
  lastCh := 0x20
  dbl := false
  hold := false

/-- The switch of `fmt_page`: the variables, and the character or `none` for `goto ctrl`. -/
def fmtSwitch (y : ℕ) (v : FmtVars) (ch : UInt8) : FmtVars × Option UInt8 :=
  if ch ≤ 0x07 then ({ v with fg := ch &&& 7, attr := v.attr &&& ~~~(eaGraphic ||| eaConcealed) }, none)
  else if ch = 0x08 then ({ v with attr := v.attr ||| eaBlink }, none)
  else if ch = 0x09 then ({ v with attr := v.attr &&& ~~~eaBlink }, none)
  else if ch = 0x0a ∨ ch = 0x0b then (v, none)
  else if ch = 0x0c then ({ v with attr := v.attr &&& eaDouble }, none)
  else if ch = 0x0d then
    (if y < 25 - 2 then { v with attr := v.attr ||| eaDouble, dbl := true } else v, none)
  else if 0x10 ≤ ch ∧ ch ≤ 0x17 then
    ({ v with fg := ch &&& 7, attr := (v.attr ||| eaGraphic) &&& ~~~eaConcealed }, none)
  else if ch = 0x18 then ({ v with attr := v.attr ||| eaConcealed }, none)
  else if ch = 0x19 then ({ v with attr := v.attr &&& ~~~eaSeparated }, none)
  else if ch = 0x1a then ({ v with attr := v.attr ||| eaSeparated }, none)
  else if ch = 0x1c then ({ v with bg := 0 }, none)
  else if ch = 0x1d then ({ v with bg := v.fg }, none)
  else if ch = 0x1e then ({ v with hold := true }, none)
  else if ch = 0x1f then ({ v with hold := false }, none)
  else if ch = 0x0e ∨ ch = 0x0f ∨ ch = 0x1b then (v, some 0x20)
  else (v, some ch)

/-- A place of the page; concealed characters are blank unless they are revealed. -/
def FmtVars.char (reveal : Bool) (v : FmtVars) (ch : UInt8) : FmtChar :=
  ⟨if hasAttr v.attr eaConcealed && !reveal then 0x20 else ch, v.fg, v.bg, v.attr⟩

def fmtMosaic (reveal : Bool) (v : FmtVars) (ch : UInt8) : FmtVars × FmtChar :=
  if hasAttr v.attr eaGraphic = true ∧ ch &&& 0xa0 = 0x20 then
    ({ v with lastCh := ch }, v.char reveal (if ch &&& 0x40 ≠ 0 then ch + 32 else ch - 32))
  else (v, v.char reveal ch)

/-- One round of the loop of `fmt_page` over a row. -/
def fmtStep (reveal : Bool) (y : ℕ) (v : FmtVars) (ch : UInt8) : FmtVars × FmtChar :=
  let r := fmtSwitch y v ch
  fmtMosaic reveal r.1 (r.2.getD (if r.1.hold && hasAttr r.1.attr eaGraphic then r.1.lastCh else 0x20))

def VtPage.row (vtp : VtPage) (y : ℕ) : List UInt8 :=
  if h : y < 25 then List.ofFn (vtp.data ⟨y, h⟩) else []

def hexDigit (d : ℕ) : UInt8 := if d < 10 then UInt8.ofNat (48 + d) else UInt8.ofNat (87 + d)

/-- `sprintf` with the format `"\2%x.%02x\7"` -/
def pageNumber (pgno : ℕ) (subno : ℤ) : List UInt8 :=
  let sub := (subno % 256).toNat
  [0x02] ++ (Nat.digits 16 pgno).reverse.map hexDigit ++ [0x2e, hexDigit (sub / 16), hexDigit (sub % 16), 0x07]

def VtPage.fmtBytes (vtp : VtPage) (y : ℕ) : List UInt8 :=
  if y = 0 then (pageNumber vtp.pgno vtp.subno).take 8 ++ (vtp.row 0).drop 8 else vtp.row y

/-- A row of `fmt_page`. -/
def fmtRow (reveal : Bool) (y : ℕ) (row : List UInt8) : List FmtChar :=
  outputs (fmtStep reveal y) .start row

/-- `dbl` after a row. -/
def fmtDbl (reveal : Bool) (y : ℕ) (row : List UInt8) : Bool :=
  (finish (fmtStep reveal y) .start row).dbl

def FmtChar.inDouble (c : FmtChar) : FmtChar :=
  if hasAttr (~~~c.attr) eaDouble then { c with attr := c.attr ||| eaHdouble } else c

def FmtChar.blank (c : FmtChar) : FmtChar := { c with ch := 0x20 }

/-- The loop of `fmt_page` over the rows from `y` on. -/
def fmtRows (reveal : Bool) (vtp : VtPage) : ℕ → ℕ → FmtPage → FmtPage
  | 0, _, pg => pg
  | n + 1, y, pg =>
    if y < 25 then
      let cells := fmtRow reveal y (vtp.fmtBytes y)
      if fmtDbl reveal y (vtp.fmtBytes y) then
        let cells := cells.map FmtChar.inDouble
        fmtRows reveal vtp n (y + 2)
          { pg with
            dbl := pg.dbl ||| line y
            data := Function.update (Function.update pg.data y cells) (y + 1) (cells.map FmtChar.blank) }
      else fmtRows reveal vtp n (y + 1) { pg with data := Function.update pg.data y cells }
    else pg

/-- `fmt_page`; `pg` is what was there before. -/
def fmtPage (reveal : Bool) (pg : FmtPage) (vtp : VtPage) : FmtPage :=
  let pg := fmtRows reveal vtp 25 0 { pg with dbl := 0 }
  { pg with hid := pg.dbl <<< 1 }

/-! ### The rows of the page -/

def VtPage.fmtDoubles (vtp : VtPage) (y : ℕ) : Bool := y < 23 ∧ 0x0d ∈ vtp.fmtBytes y

section Rows

variable {reveal : Bool}

theorem fmtSwitch_dbl (y : ℕ) (v : FmtVars) (ch : UInt8) :
    (fmtSwitch y v ch).1.dbl = (v.dbl || decide (y < 23 ∧ ch = 0x0d)) := by
  by_cases hd : ch = 0x0d
  · subst hd
    show (if y < 23 then { v with attr := v.attr ||| eaDouble, dbl := true } else v).dbl = _
    by_cases hy : y < 23
    · rw [if_pos hy, decide_eq_true ⟨hy, rfl⟩, Bool.or_true]
    · rw [if_neg hy, decide_eq_false fun h => hy h.1, Bool.or_false]
  · rw [decide_eq_false fun h => hd h.2, Bool.or_false]
    unfold fmtSwitch
    rw [if_neg hd]
    simp only [apply_ite Prod.fst, apply_ite FmtVars.dbl, ite_self]

theorem fmtStep_dbl (y : ℕ) (v : FmtVars) (ch : UInt8) :
    (fmtStep reveal y v ch).1.dbl = (v.dbl || decide (y < 23 ∧ ch = 0x0d)) := by
  rw [← fmtSwitch_dbl]
  unfold fmtStep fmtMosaic
  dsimp only
  generalize Option.getD _ _ = c
  split
  · rfl
  · rfl

theorem fmtDbl_eq (y : ℕ) (row : List UInt8) : fmtDbl reveal y row = decide (y < 23 ∧ 0x0d ∈ row) := by
  have hrun : ∀ (l : List UInt8) (v : FmtVars),
      (finish (fmtStep reveal y) v l).dbl = (v.dbl || decide (y < 23 ∧ 0x0d ∈ l)) := by
    intro l
    induction l with
    | nil =>
      intro v
      rw [decide_eq_false fun h => List.not_mem_nil h.2, Bool.or_false]
      rfl
    | cons c l ih =>
      intro v
      show (finish (fmtStep reveal y) (fmtStep reveal y v c).1 l).dbl = _
      rw [ih, fmtStep_dbl, Bool.or_assoc, ← Bool.decide_or]
      congr 1
      rw [decide_eq_decide, List.mem_cons]
      tauto
  exact (hrun row .start).trans (Bool.false_or _)

def VtPage.fmtCells (reveal : Bool) (vtp : VtPage) (y : ℕ) : List FmtChar :=
  if vtp.fmtDoubles y then (fmtRow reveal y (vtp.fmtBytes y)).map FmtChar.inDouble
  else fmtRow reveal y (vtp.fmtBytes y)

/-- What the loop from row `y` on makes of the page. -/
structure Formats (reveal : Bool) (vtp : VtPage) (y : ℕ) (pg pg' : FmtPage) : Prop where
  before : ∀ i < y, pg'.dbl.getLsbD i = pg.dbl.getLsbD i ∧ pg'.data i = pg.data i
  dbl : ∀ i < 25, y ≤ i → pg'.dbl.getLsbD i = (pg.dbl.getLsbD i || (!hides vtp.fmtDoubles i && vtp.fmtDoubles i))
  data : ∀ i < 25, y ≤ i → hides vtp.fmtDoubles i = false → pg'.data i = vtp.fmtCells reveal i

theorem Formats.plain {vtp : VtPage} {pg : FmtPage} (hy : hides vtp.fmtDoubles y = false)
    (hd : vtp.fmtDoubles y = false)
    (h : Formats reveal vtp (y + 1) { pg with data := Function.update pg.data y (vtp.fmtCells reveal y) } pg') :
    Formats reveal vtp y pg pg' where
  before := fun i hi => by
    obtain ⟨hdbl, hdata⟩ := h.before i (by omega)
    exact ⟨hdbl, hdata.trans (Function.update_of_ne (by omega) _ _)⟩
  dbl := fun i hi hle => by
    rcases Nat.lt_or_eq_of_le hle with hlt | rfl
    · exact h.dbl i hi hlt
    · rw [hy, hd]
      exact (h.before y (by omega)).1.trans (Bool.or_false _).symm
  data := fun i hi hle hshown => by
    rcases Nat.lt_or_eq_of_le hle with hlt | rfl
    · exact h.data i hi hlt hshown
    · exact (h.before y (by omega)).2.trans (Function.update_self _ _ _)

theorem Formats.tall {vtp : VtPage} {pg : FmtPage} (hlt : y < 25) (hy : hides vtp.fmtDoubles y = false)
    (hd : vtp.fmtDoubles y = true) (h : Formats reveal vtp (y + 2)
      { pg with
        dbl := pg.dbl ||| line y
        data := Function.update (Function.update pg.data y (vtp.fmtCells reveal y)) (y + 1) below } pg') :
    Formats reveal vtp y pg pg' := by
  have hnext : hides vtp.fmtDoubles (y + 1) = true := by
    show (!hides vtp.fmtDoubles y && vtp.fmtDoubles y) = true
    rw [hy, hd]
    rfl
  have hbit : ∀ i, (pg.dbl ||| line y).getLsbD i = (pg.dbl.getLsbD i || decide (i = y)) := fun i => by
    rw [BitVec.getLsbD_or, line_bit (by omega)]
  have hother : ∀ i, i ≠ y → (pg.dbl ||| line y).getLsbD i = pg.dbl.getLsbD i := fun i hi => by
    rw [hbit, decide_eq_false hi, Bool.or_false]
  refine ⟨fun i hi => ?_, fun i hi hle => ?_, fun i hi hle hshown => ?_⟩
  · obtain ⟨hdbl, hdata⟩ := h.before i (by omega)
    refine ⟨hdbl.trans (hother i (by omega)), hdata.trans ?_⟩
    exact (Function.update_of_ne (by omega) _ _).trans (Function.update_of_ne (by omega) _ _)
  · rcases Nat.lt_trichotomy i (y + 1) with hbefore | heq | hafter
    · obtain rfl : i = y := by omega
      rw [(h.before i (by omega)).1, hy, hd]
      exact (hbit i).trans (by rw [decide_eq_true rfl]; rfl)
    · rw [heq, (h.before (y + 1) (by omega)).1, hnext]
      exact (hother (y + 1) (by omega)).trans (Bool.or_false _).symm
    · rw [h.dbl i hi (by omega)]
      exact congrArg (· || _) (hother i (by omega))
  · rcases Nat.lt_trichotomy i (y + 1) with hbefore | heq | hafter
    · obtain rfl : i = y := by omega
      rw [(h.before i (by omega)).2]
      exact (Function.update_of_ne (by omega) _ _).trans (Function.update_self _ _ _)
    · rw [heq, hnext] at hshown
      exact absurd hshown Bool.true_eq_false.mp
    · exact h.data i hi (by omega) hshown

theorem fmtRows_spec (reveal : Bool) (vtp : VtPage) (n y : ℕ) (pg : FmtPage) (hn : 25 ≤ y + n)
    (hy : hides vtp.fmtDoubles y = false) : Formats reveal vtp y pg (fmtRows reveal vtp n y pg) := by
  induction n generalizing y pg with
  | zero => exact ⟨fun i _ => ⟨rfl, rfl⟩, fun i hi hle => by omega, fun i hi hle _ => by omega⟩
  | succ n ih =>
    unfold fmtRows
    by_cases hend : y < 25
    · rw [if_pos hend]
      dsimp only
      have hdbl : fmtDbl reveal y (vtp.fmtBytes y) = vtp.fmtDoubles y := fmtDbl_eq y _
      have hnext : hides vtp.fmtDoubles (y + 1) = vtp.fmtDoubles y := by
        show (!hides vtp.fmtDoubles y && vtp.fmtDoubles y) = _
        rw [hy]
        rfl
      rw [hdbl]
      cases hd : vtp.fmtDoubles y with
      | true =>
        have hcells : (fmtRow reveal y (vtp.fmtBytes y)).map FmtChar.inDouble = vtp.fmtCells reveal y := by
          unfold VtPage.fmtCells
          rw [hd]
          rfl
        have hafter : hides vtp.fmtDoubles (y + 2) = false := by
          show (!hides vtp.fmtDoubles (y + 1) && _) = false
          rw [hnext, hd]
          rfl
        rw [if_pos rfl, hcells]
        exact Formats.tall hend hy hd (ih (y + 2) _ (by omega) hafter)
      | false =>
        have hcells : fmtRow reveal y (vtp.fmtBytes y) = vtp.fmtCells reveal y := by
          unfold VtPage.fmtCells
          rw [hd]
          rfl
        rw [if_neg Bool.false_ne_true, hcells]
        exact Formats.plain hy hd (ih (y + 1) _ (by omega) (hnext.trans hd))
    · rw [if_neg hend]
      exact ⟨fun i _ => ⟨rfl, rfl⟩, fun i hi hle => by omega, fun i hi hle _ => by omega⟩

theorem fmtPage_hid (pg : FmtPage) (vtp : VtPage) (hy : y < 25) :
    (fmtPage reveal pg vtp).hid.getLsbD y = hides vtp.fmtDoubles y := by
  have hspec := fmtRows_spec reveal vtp 25 0 { pg with dbl := 0 } (by omega) rfl
  show ((fmtRows reveal vtp 25 0 { pg with dbl := 0 }).dbl <<< 1).getLsbD y = _
  rw [BitVec.getLsbD_shiftLeft]
  cases y with
  | zero => rfl
  | succ y =>
    have hzero : (0 : BitVec 32).getLsbD y = false := BitVec.getLsbD_zero
    have hbit := hspec.dbl y (by omega) (by omega)
    rw [hzero, Bool.false_or] at hbit
    rw [Nat.add_sub_cancel, hbit, decide_eq_true (by omega), decide_eq_false (by omega)]
    rfl

theorem fmtPage_data (pg : FmtPage) (vtp : VtPage) (hy : y < 25) (hshown : hides vtp.fmtDoubles y = false) :
    (fmtPage reveal pg vtp).data y = vtp.fmtCells reveal y :=
  (fmtRows_spec reveal vtp 25 0 { pg with dbl := 0 } (by omega) rfl).data y hy (by omega) hshown

end Rows

end BgtDvb.Alevt
