import BgtDvb.AlevtAttrs
import BgtDvb.AlevtVtLine

/-!
# The window of alevt

`xio.c` has the 25 rows of a window with masks of the rows that changed, that are hidden below a row of double height
and that have something of double height in them. `xio_put_line` gives a row its contents, `xio_update_win` draws the
rows that changed. There is no cursor and no selection.

* `Laid`, `laid_putLine`, `laid_putLines` — **PROVED**: the masks follow the contents, whatever rows are put in whatever
  order;
* `xioStep_vars`, `xioRow_eq` — **PROVED**: the loop of `xio_update_win` is that of the spacing attributes;
* `updateWin_putLines` — **PROVED**: what is drawn after the rows of a page have been put.
-/

namespace BgtDvb.Alevt

open Mealy

/-! ### The window -/

/-- A bit of `lbits`. -/
def line (y : ℕ) : BitVec 32 := 1#32 <<< y

/-- `ALL_LINES` -/
def allLines : BitVec 32 := 0x1ffffff

/-- The part of `struct xio_win` that is drawn; `ch` by rows. -/
structure XioWin where
  ch : ℕ → List UInt8
  modified : BitVec 32
  hidden : BitVec 32
  lhidden : BitVec 32
  dheight : BitVec 32
  blink : BitVec 32
  concealed : BitVec 32
  blinkOn : Bool
  reveal : Bool

/-- `xio_clear_win` -/
def clearWin (xw : XioWin) : XioWin :=
  { xw with
    ch := fun _ => List.replicate 40 0x20
    dheight := 0
    blink := 0
    concealed := 0
    hidden := 0
    lhidden := 0
    modified := allLines }

/-- One byte of the loop of `xio_put_line`. -/
def scanByte (y : ℕ) (xw : XioWin) (c : UInt8) : XioWin :=
  if c = 0x08 then { xw with blink := xw.blink ||| line y }
  else if c = 0x0d then if y < 25 - 1 then { xw with dheight := xw.dheight ||| line y } else xw
  else if c = 0x18 then { xw with concealed := xw.concealed ||| line y }
  else xw

/-- The loop over the rows from `y` on in `xio_put_line`, with as many rounds as there are bits. -/
def recalcHidden (dheight : BitVec 32) : ℕ → ℕ → BitVec 32 → BitVec 32
  | 0, _, hidden => hidden
  | n + 1, y, hidden =>
    if line y &&& (allLines / 2) ≠ 0 then
      recalcHidden dheight n (y + 1)
        (if ~~~hidden &&& dheight &&& line y ≠ 0 then hidden ||| line (y + 1) else hidden)
    else hidden

/-- `xio_put_line` -/
def putLine (xw : XioWin) (y : ℕ) (data : List UInt8) : XioWin :=
  if 25 ≤ y then xw
  else if data = xw.ch y then xw
  else
    let x := xw.dheight
    let xw := { xw with
      modified := xw.modified ||| line y
      blink := xw.blink &&& ~~~line y
      dheight := xw.dheight &&& ~~~line y
      concealed := xw.concealed &&& ~~~line y
      ch := Function.update xw.ch y data }
    let xw := data.foldl (scanByte y) xw
    if (xw.dheight ^^^ x) &&& line y ≠ 0 then
      { xw with hidden := recalcHidden xw.dheight 32 y (xw.hidden &&& (line (y + 1) - 1)) }
    else xw

def putLines (data : ℕ → List UInt8) (order : List ℕ) (xw : XioWin) : XioWin :=
  order.foldl (fun xw y => putLine xw y (data y)) xw

/-! ### A row -/

/-- The local variables of `xio_update_win` for a row. -/
structure XioVars where
  fg : UInt8
  bg : UInt8
  dbl : Bool
  blk : Bool
  con : Bool
  gfx : Bool
  sep : Bool
  hld : Bool
  lastCh : UInt8

/-- A place as it goes to `draw_char`: `c` in `fg` on `bg`, dimmed by `blk`, in the colour of the ground by `con`. -/
structure XioCell where
  c : UInt8
  fg : UInt8
  bg : UInt8
  dbl : Bool
  blk : Bool
  con : Bool
  deriving DecidableEq

def XioVars.start : XioVars where
  fg := 7
  bg := 0
  dbl := false
  blk := false
  con := false
  gfx := false
  sep := false
  hld := false
  lastCh := 0x20

/-- The switch of `xio_update_win`: the variables, and the character or `none` for `goto ctrl`. -/
def xioSwitch (blinkOn reveal : Bool) (y : ℕ) (v : XioVars) (c : UInt8) : XioVars × Option UInt8 :=
  if c ≤ 0x07 then ({ v with fg := c &&& 7, gfx := false, con := false }, none)
  else if c = 0x08 then ({ v with blk := !blinkOn }, none)
  else if c = 0x09 then ({ v with blk := false }, none)
  else if c = 0x0a ∨ c = 0x0b then (v, none)
  else if c = 0x0c then ({ v with dbl := false }, none)
  else if c = 0x0d then ({ v with dbl := y < 25 - 1 }, none)
  else if 0x10 ≤ c ∧ c ≤ 0x17 then ({ v with fg := c &&& 7, gfx := true, con := false }, none)
  else if c = 0x18 then ({ v with con := !reveal }, none)
  else if c = 0x19 then ({ v with sep := false }, none)
  else if c = 0x1a then ({ v with sep := true }, none)
  else if c = 0x1c then ({ v with bg := 0 }, none)
  else if c = 0x1d then ({ v with bg := v.fg }, none)
  else if c = 0x1e then ({ v with hld := true }, none)
  else if c = 0x1f then ({ v with hld := false }, none)
  else if c = 0x0e ∨ c = 0x0f ∨ c = 0x1b then (v, some 0x20)
  else if 0x80 ≤ c ∧ c ≤ 0x9f then (v, some badChar)
  else (v, some c)

def XioVars.cell (v : XioVars) (c : UInt8) : XioCell := ⟨c, v.fg, v.bg, v.dbl, v.blk, v.con⟩

def xioMosaic (v : XioVars) (c : UInt8) : XioVars × XioCell :=
  if v.gfx = true ∧ c &&& 0xa0 = 0x20 then
    ({ v with lastCh := c }, v.cell (if c &&& 0x40 ≠ 0 then c + 32 else c - 32))
  else (v, v.cell c)

/-- One round of the loop of `xio_update_win` over a row. -/
def xioStep (blinkOn reveal : Bool) (y : ℕ) (v : XioVars) (c : UInt8) : XioVars × XioCell :=
  let r := xioSwitch blinkOn reveal y v c
  xioMosaic r.1 (r.2.getD (if r.1.hld && r.1.gfx then r.1.lastCh else 0x20))

/-- A row of `xio_update_win`. -/
def xioRow (blinkOn reveal : Bool) (y : ℕ) (row : List UInt8) : List XioCell :=
  outputs (xioStep blinkOn reveal y) .start row

/-- `xio_update_win`: the window, and the rows that are drawn. -/
def updateWin (xw : XioWin) : XioWin × (ℕ → Option (List XioCell)) :=
  if xw.modified = 0 then (xw, fun _ => none)
  else
    let redraw := (xw.modified ||| xw.lhidden) &&& ~~~xw.hidden
    let xw := { xw with lhidden := xw.hidden, modified := 0 }
    if redraw = 0 then (xw, fun _ => none)
    else
      (xw, fun y =>
        if y < 25 ∧ redraw &&& line y ≠ 0 then some (xioRow xw.blinkOn xw.reveal y (xw.ch y)) else none)

/-! ### The rows that are hidden -/

/-- The rows with something of double height in them; the last row has none. -/
def doubles (row : ℕ → List UInt8) (y : ℕ) : Bool := y < 24 ∧ 0x0d ∈ row y

/-- The rows below a row of double height that is not hidden itself. -/
def hides (d : ℕ → Bool) : ℕ → Bool
  | 0 => false
  | y + 1 => !hides d y && d y

variable {y : ℕ} {xw : XioWin}

theorem hides_congr {d d' : ℕ → Bool} (h : ∀ i < y, d i = d' i) : hides d y = hides d' y := by
  induction y with
  | zero => rfl
  | succ y ih =>
    show (!hides d y && d y) = (!hides d' y && d' y)
    rw [ih fun i hi => h i (by omega), h y (by omega)]

theorem hides_none {d : ℕ → Bool} (h : ∀ i, d i = false) (y : ℕ) : hides d y = false := by
  cases y with
  | zero => rfl
  | succ y =>
    show (!hides d y && d y) = false
    rw [h y, Bool.and_false]

/-- The masks follow the contents. -/
structure Laid (xw : XioWin) : Prop where
  dheight : ∀ i < 25, xw.dheight.getLsbD i = doubles xw.ch i
  hidden : ∀ i < 25, xw.hidden.getLsbD i = hides (doubles xw.ch) i

section Bits

theorem line_bit {y : ℕ} (hy : y < 32) (i : ℕ) : (line y).getLsbD i = decide (i = y) := by
  unfold line
  rw [← BitVec.twoPow_eq, BitVec.getLsbD_twoPow]
  simp only [hy, decide_true, Bool.true_and, eq_comm]

theorem and_line (x : BitVec 32) (y : ℕ) : x &&& line y ≠ 0 ↔ x.getLsbD y = true := by
  have h : decide (x &&& line y ≠ 0) = x.getLsbD y := and_mask_ne_zero (BitVec.twoPow_eq 32 y).symm
  rw [← h, decide_eq_true_iff]

theorem line_sub_one_bit {y : ℕ} (hy : y < 25) (i : ℕ) : (line (y + 1) - 1).getLsbD i = decide (i ≤ y) := by
  have hpow : 2 ^ (y + 1) ≤ 2 ^ 25 := Nat.pow_le_pow_right (by decide) (by omega)
  have hpos : 0 < 2 ^ (y + 1) := Nat.two_pow_pos _
  have hline : (line (y + 1)).toNat = 2 ^ (y + 1) := by
    unfold line
    rw [← BitVec.twoPow_eq, BitVec.toNat_twoPow]
    exact Nat.mod_eq_of_lt (by omega)
  have hnat : (line (y + 1) - 1).toNat = 2 ^ (y + 1) - 1 := by
    rw [BitVec.toNat_sub, hline]
    show (2 ^ 32 - 1 + 2 ^ (y + 1)) % 2 ^ 32 = _
    omega
  show (line (y + 1) - 1).toNat.testBit i = _
  rw [hnat, Nat.testBit_two_pow_sub_one]
  exact decide_eq_decide.mpr Nat.lt_succ_iff

theorem half_lines (y : ℕ) : line y &&& (allLines / 2) ≠ 0 ↔ y < 24 := by
  have hhalf : (allLines / 2).toNat = 2 ^ 24 - 1 := by decide
  rw [BitVec.and_comm, and_line]
  show (allLines / 2).toNat.testBit y = true ↔ _
  rw [hhalf, Nat.testBit_two_pow_sub_one, decide_eq_true_iff]

theorem allLines_bit {i : ℕ} (hi : i < 25) : allLines.getLsbD i = true := by
  have hall : allLines.toNat = 2 ^ 25 - 1 := by decide
  show allLines.toNat.testBit i = true
  rw [hall, Nat.testBit_two_pow_sub_one]
  exact decide_eq_true hi

end Bits

/-- **PROVED**: the loop over the rows below finds the hidden ones. -/
theorem recalcHidden_spec (dheight : BitVec 32) (n y : ℕ) (hidden : BitVec 32) (hy : y ≤ 24) (hn : 24 < y + n)
    (hlow : ∀ i ≤ y, hidden.getLsbD i = hides dheight.getLsbD i)
    (hhigh : ∀ i, y < i → hidden.getLsbD i = false) :
    ∀ i < 25, (recalcHidden dheight n y hidden).getLsbD i = hides dheight.getLsbD i := by
  induction n generalizing y hidden with
  | zero => omega
  | succ n ih =>
    intro i hi
    unfold recalcHidden
    by_cases hlast : y < 24
    · rw [if_pos ((half_lines y).mpr hlast)]
      -- the row below `y`
      have hnext : ∀ j, (if ~~~hidden &&& dheight &&& line y ≠ 0 then hidden ||| line (y + 1) else hidden).getLsbD j =
          (hidden.getLsbD j || decide (j = y + 1 ∧ hides dheight.getLsbD (y + 1) = true)) := by
        intro j
        have hcond : (~~~hidden &&& dheight &&& line y ≠ 0) ↔ hides dheight.getLsbD (y + 1) = true := by
          rw [and_line, BitVec.getLsbD_and, BitVec.getLsbD_not, hlow y le_rfl]
          show (decide (y < 32) && !_ && _) = true ↔ _
          rw [decide_eq_true (by omega : y < 32), Bool.true_and]
          rfl
        by_cases hset : hides dheight.getLsbD (y + 1) = true
        · rw [if_pos (hcond.mpr hset), BitVec.getLsbD_or, line_bit (by omega)]
          simp only [hset, and_true]
        · rw [if_neg fun h => hset (hcond.mp h), decide_eq_false fun h => hset h.2, Bool.or_false]
      refine ih (y + 1) _ (by omega) (by omega) ?_ ?_ i hi
      · intro j hj
        rw [hnext]
        rcases Nat.lt_or_eq_of_le hj with hlt | heq
        · rw [hlow j (by omega), decide_eq_false (by omega), Bool.or_false]
        · rw [heq, hhigh (y + 1) (by omega)]
          simp
      · intro j hj
        rw [hnext, hhigh j (by omega), decide_eq_false (by omega), Bool.or_false]
    · rw [if_neg fun h => hlast ((half_lines y).mp h)]
      exact hlow i (by omega)

/-- What the loop over the bytes of a row does to the window. -/
structure Scanned (y : ℕ) (data : List UInt8) (xw xw' : XioWin) : Prop where
  ch : xw'.ch = xw.ch
  modified : xw'.modified = xw.modified
  hidden : xw'.hidden = xw.hidden
  lhidden : xw'.lhidden = xw.lhidden
  blinkOn : xw'.blinkOn = xw.blinkOn
  reveal : xw'.reveal = xw.reveal
  dheight : ∀ i, xw'.dheight.getLsbD i = (xw.dheight.getLsbD i || decide (i = y ∧ y < 24 ∧ 0x0d ∈ data))

theorem scanned_nil (y : ℕ) (xw : XioWin) : Scanned y [] xw xw :=
  ⟨rfl, rfl, rfl, rfl, rfl, rfl, fun i => by simp⟩

theorem scanByte_scanned (hy : y < 25) (xw : XioWin) (c : UInt8) : Scanned y [c] xw (scanByte y xw c) := by
  unfold scanByte
  by_cases h8 : c = 0x08
  · rw [if_pos h8]
    exact ⟨rfl, rfl, rfl, rfl, rfl, rfl, fun i => by simp [h8]⟩
  by_cases hd : c = 0x0d
  · rw [if_neg h8, if_pos hd]
    by_cases hlast : y < 24
    · rw [if_pos hlast]
      refine ⟨rfl, rfl, rfl, rfl, rfl, rfl, fun i => ?_⟩
      show (xw.dheight ||| line y).getLsbD i = _
      rw [BitVec.getLsbD_or, line_bit (by omega)]
      simp [hlast, hd]
    · rw [if_neg hlast]
      exact ⟨rfl, rfl, rfl, rfl, rfl, rfl, fun i => by simp [hlast]⟩
  · have hmem : (0x0d : UInt8) ∉ [c] := fun h => hd (List.mem_singleton.mp h).symm
    rw [if_neg h8, if_neg hd]
    split
    · exact ⟨rfl, rfl, rfl, rfl, rfl, rfl, fun i => by simp [hmem]⟩
    · exact ⟨rfl, rfl, rfl, rfl, rfl, rfl, fun i => by simp [hmem]⟩

theorem Scanned.cons {y : ℕ} {c : UInt8} {data : List UInt8} {xw xw₁ xw₂ : XioWin} (h : Scanned y [c] xw xw₁)
    (h' : Scanned y data xw₁ xw₂) : Scanned y (c :: data) xw xw₂ where
  ch := h'.ch.trans h.ch
  modified := h'.modified.trans h.modified
  hidden := h'.hidden.trans h.hidden
  lhidden := h'.lhidden.trans h.lhidden
  blinkOn := h'.blinkOn.trans h.blinkOn
  reveal := h'.reveal.trans h.reveal
  dheight := fun i => by
    rw [h'.dheight i, h.dheight i, Bool.or_assoc, ← Bool.decide_or]
    congr 1
    simp only [List.mem_cons, decide_eq_decide]
    tauto

theorem scan_scanned (hy : y < 25) (data : List UInt8) (xw : XioWin) :
    Scanned y data xw (data.foldl (scanByte y) xw) := by
  induction data generalizing xw with
  | nil => exact scanned_nil y xw
  | cons c data ih => exact (scanByte_scanned hy xw c).cons (ih _)

/-- What a row that is put does to the rest of the window. -/
structure Put (y : ℕ) (data : List UInt8) (xw xw' : XioWin) : Prop where
  ch : xw'.ch = Function.update xw.ch y data
  modified : ∀ i, xw.modified.getLsbD i = true → xw'.modified.getLsbD i = true
  blinkOn : xw'.blinkOn = xw.blinkOn
  reveal : xw'.reveal = xw.reveal

theorem putLine_put (hy : y < 25) (data : List UInt8) (xw : XioWin) : Put y data xw (putLine xw y data) := by
  unfold putLine
  rw [if_neg (not_le.mpr hy)]
  by_cases hsame : data = xw.ch y
  · rw [if_pos hsame]
    exact ⟨by rw [hsame, Function.update_eq_self], fun _ h => h, rfl, rfl⟩
  rw [if_neg hsame]
  have hscan := scan_scanned hy data { xw with
    modified := xw.modified ||| line y
    blink := xw.blink &&& ~~~line y
    dheight := xw.dheight &&& ~~~line y
    concealed := xw.concealed &&& ~~~line y
    ch := Function.update xw.ch y data }
  have hmodified : ∀ i, xw.modified.getLsbD i = true → (xw.modified ||| line y).getLsbD i = true := fun i h => by
    rw [BitVec.getLsbD_or, h, Bool.true_or]
  dsimp only
  split
  · exact ⟨hscan.ch, fun i h => hscan.modified ▸ hmodified i h, hscan.blinkOn, hscan.reveal⟩
  · exact ⟨hscan.ch, fun i h => hscan.modified ▸ hmodified i h, hscan.blinkOn, hscan.reveal⟩

theorem laid_putLine (h : Laid xw) (y : ℕ) (data : List UInt8) : Laid (putLine xw y data) := by
  unfold putLine
  by_cases hy : 25 ≤ y
  · rw [if_pos hy]
    exact h
  rw [if_neg hy]
  by_cases hsame : data = xw.ch y
  · rw [if_pos hsame]
    exact h
  rw [if_neg hsame]
  have hscan := scan_scanned (not_le.mp hy) data { xw with
    modified := xw.modified ||| line y
    blink := xw.blink &&& ~~~line y
    dheight := xw.dheight &&& ~~~line y
    concealed := xw.concealed &&& ~~~line y
    ch := Function.update xw.ch y data }
  dsimp only
  generalize data.foldl (scanByte y) _ = xw' at hscan ⊢
  have hch : xw'.ch = Function.update xw.ch y data := hscan.ch
  have hhidden : xw'.hidden = xw.hidden := hscan.hidden
  have hother : ∀ i, i ≠ y → doubles xw'.ch i = doubles xw.ch i := fun i hi => by
    unfold doubles
    rw [hch, Function.update_of_ne hi]
  have hdheight : ∀ i < 25, xw'.dheight.getLsbD i = doubles xw'.ch i := by
    intro i hi
    have hbit : xw'.dheight.getLsbD i =
        ((xw.dheight &&& ~~~line y).getLsbD i || decide (i = y ∧ y < 24 ∧ 0x0d ∈ data)) := hscan.dheight i
    rw [hbit, BitVec.getLsbD_and, BitVec.getLsbD_not, line_bit (by omega)]
    by_cases hiy : i = y
    · unfold doubles
      rw [hch, hiy, Function.update_self]
      simp
    · rw [hother i hiy, h.dheight i hi]
      simp [hiy, show i < 32 by omega]
  by_cases hchanged : (xw'.dheight ^^^ xw.dheight) &&& line y ≠ 0
  · rw [if_pos hchanged]
    refine ⟨hdheight, fun i hi => ?_⟩
    have hmask := line_sub_one_bit (not_le.mp hy)
    rw [← hides_congr fun j hj => hdheight j (by omega)]
    refine recalcHidden_spec xw'.dheight 32 y _ (by omega) (by omega) ?_ ?_ i hi
    · intro j hj
      rw [BitVec.getLsbD_and, hmask, decide_eq_true hj, Bool.and_true, hhidden, h.hidden j (by omega)]
      refine hides_congr fun k hk => ?_
      rw [hdheight k (by omega), hother k (by omega)]
    · intro j hj
      rw [BitVec.getLsbD_and, hmask, decide_eq_false (not_le.mpr hj), Bool.and_false]
  · rw [if_neg hchanged]
    refine ⟨hdheight, fun i hi => ?_⟩
    -- also the row that was put has double height as before
    have hsameBit : doubles xw'.ch y = doubles xw.ch y := by
      rw [and_line, BitVec.getLsbD_xor, hdheight y (by omega), h.dheight y (by omega)] at hchanged
      by_contra hne
      exact hchanged (Bool.xor_iff_ne.mpr hne)
    rw [hhidden, h.hidden i hi]
    refine hides_congr fun j _ => ?_
    by_cases hjy : j = y
    · rw [hjy, hsameBit]
    · rw [hother j hjy]

theorem laid_clearWin (xw : XioWin) : Laid (clearWin xw) := by
  have hnone : ∀ i, doubles (clearWin xw).ch i = false := fun i =>
    decide_eq_false fun h => absurd (List.eq_of_mem_replicate h.2) (by decide)
  constructor
  · intro i _
    rw [hnone]
    exact BitVec.getLsbD_zero
  · intro i _
    rw [hides_none hnone]
    exact BitVec.getLsbD_zero

/-- What is there after rows have been put. -/
structure Filled (data : ℕ → List UInt8) (order : List ℕ) (xw xw' : XioWin) : Prop where
  ch : ∀ y < 25, y ∈ order ∨ xw.ch y = data y → xw'.ch y = data y
  modified : ∀ i, xw.modified.getLsbD i = true → xw'.modified.getLsbD i = true
  blinkOn : xw'.blinkOn = xw.blinkOn
  reveal : xw'.reveal = xw.reveal

theorem laid_putLines (data : ℕ → List UInt8) (order : List ℕ) (h : Laid xw) (horder : ∀ y ∈ order, y < 25) :
    Laid (putLines data order xw) ∧ Filled data order xw (putLines data order xw) := by
  induction order generalizing xw with
  | nil =>
    refine ⟨h, fun y _ hy => ?_, fun _ hi => hi, rfl, rfl⟩
    exact hy.resolve_left List.not_mem_nil
  | cons y order ih =>
    have hput := putLine_put (horder y List.mem_cons_self) (data y) xw
    obtain ⟨hlaid, hfilled⟩ := ih (laid_putLine h y (data y)) fun z hz => horder z (List.mem_cons_of_mem y hz)
    refine ⟨hlaid, fun z hz hor => hfilled.ch z hz ?_, fun i hi => hfilled.modified i (hput.modified i hi),
      hfilled.blinkOn.trans hput.blinkOn, hfilled.reveal.trans hput.reveal⟩
    rw [hput.ch]
    by_cases hzy : z = y
    · right
      rw [hzy, Function.update_self]
    · rw [Function.update_of_ne hzy]
      exact hor.imp_left fun hmem => (List.mem_cons.mp hmem).resolve_left hzy

theorem updateWin_rows (h : Laid xw) (hmodified : ∀ i < 25, xw.modified.getLsbD i = true) (hy : y < 25) :
    (updateWin xw).2 y = if hides (doubles xw.ch) y then none else some (xioRow xw.blinkOn xw.reveal y (xw.ch y)) := by
  have hredraw : ∀ i < 25, ((xw.modified ||| xw.lhidden) &&& ~~~xw.hidden).getLsbD i = !hides (doubles xw.ch) i := by
    intro i hi
    rw [BitVec.getLsbD_and, BitVec.getLsbD_or, BitVec.getLsbD_not, hmodified i hi, h.hidden i hi]
    simp [show i < 32 by omega]
  have hmod : xw.modified ≠ 0 := fun hzero => by
    have hbit := hmodified 0 (by omega)
    rw [hzero] at hbit
    exact absurd hbit (by decide)
  have hsome : (xw.modified ||| xw.lhidden) &&& ~~~xw.hidden ≠ 0 := fun hzero => by
    have hbit : ((xw.modified ||| xw.lhidden) &&& ~~~xw.hidden).getLsbD 0 = true := hredraw 0 (by omega)
    rw [hzero] at hbit
    exact absurd hbit (by decide)
  unfold updateWin
  rw [if_neg hmod]
  dsimp only
  rw [if_neg hsome]
  have hbit := hredraw y hy
  cases hhides : hides (doubles xw.ch) y with
  | true =>
    rw [hhides] at hbit
    exact if_neg fun hboth => Bool.false_ne_true (hbit.symm.trans ((and_line _ y).mp hboth.2))
  | false =>
    rw [hhides] at hbit
    exact if_pos ⟨hy, (and_line _ y).mpr hbit⟩

theorem updateWin_putLines (xw : XioWin) (data : ℕ → List UInt8) {order : List ℕ} (horder : ∀ y, y ∈ order ↔ y < 25)
    (hy : y < 25) :
    (updateWin (putLines data order (clearWin xw))).2 y =
      if hides (doubles data) y then none else some (xioRow xw.blinkOn xw.reveal y (data y)) := by
  obtain ⟨hlaid, hfilled⟩ := laid_putLines data order (laid_clearWin xw) fun y h => (horder y).mp h
  have hch : ∀ z < 25, (putLines data order (clearWin xw)).ch z = data z := fun z hz =>
    hfilled.ch z hz (.inl ((horder z).mpr hz))
  rw [updateWin_rows hlaid (fun i hi => hfilled.modified i (allLines_bit hi)) hy, hch y hy, hfilled.blinkOn,
    hfilled.reveal]
  have hhides : hides (doubles (putLines data order (clearWin xw)).ch) y = hides (doubles data) y :=
    hides_congr fun z hz => by
      unfold doubles
      rw [hch z (by omega)]
  rw [hhides]
  rfl

/-! ### The attributes of a row -/

/-- The variables of `xio_update_win` for the attributes of a row. -/
def Attrs.xioVars (blinkOn reveal : Bool) (a : Attrs) : XioVars :=
  ⟨a.fg, a.bg, a.double, a.flash && !blinkOn, a.conceal && !reveal, a.mosaic, a.separated, a.hold, a.held⟩

def Cell.shown (blinkOn reveal : Bool) (x : Cell) : XioCell :=
  ⟨x.glyph, x.fg, x.bg, x.double, x.flash && !blinkOn, x.conceal && !reveal⟩

def Used (c : UInt8) : Prop := ¬(0x80 ≤ c ∧ c ≤ 0x9f)

instance (c : UInt8) : Decidable (Used c) := inferInstanceAs (Decidable ¬_)

section Row

variable {blinkOn reveal : Bool} {y : ℕ}

theorem xioSwitch_vars (a : Attrs) {c : UInt8} (hc : Used c) :
    xioSwitch blinkOn reveal y (a.xioVars blinkOn reveal) c =
      ((a.apply (y < 24) (rowCode c)).xioVars blinkOn reveal, (rowCode c).plain) := by
  -- the two switches have the same cases
  show _ = (fun k : RowCode => ((a.apply (y < 24) k).xioVars blinkOn reveal, k.plain)) (rowCode c)
  unfold xioSwitch rowCode
  rw [if_neg (show ¬(0x80 ≤ c ∧ c ≤ 0x9f) from hc)]
  simp only [apply_ite fun k : RowCode => ((a.apply (y < 24) k).xioVars blinkOn reveal, k.plain)]
  rfl

theorem xioMosaic_vars (a : Attrs) (c : UInt8) :
    xioMosaic (a.xioVars blinkOn reveal) c = ((a.keep c).xioVars blinkOn reveal, (a.cell c).shown blinkOn reveal) := by
  by_cases h : a.mosaic = true ∧ IsMosaic c
  · have hcell : a.cell c = ⟨mosaicCode c, a.fg, a.bg, a.double, a.flash, a.conceal⟩ := by
      unfold Attrs.cell
      rw [if_pos h]
    rw [Attrs.keep_mosaic h, hcell]
    exact if_pos h
  · have hcell : a.cell c = ⟨c, a.fg, a.bg, a.double, a.flash, a.conceal⟩ := by
      unfold Attrs.cell
      rw [if_neg h]
    rw [Attrs.keep_other h, hcell]
    exact if_neg h

theorem xioStep_vars (a : Attrs) (c : UInt8) (hc : Used c) :
    xioStep blinkOn reveal y (a.xioVars blinkOn reveal) c =
      ((rowStep (y < 24) a c).1.xioVars blinkOn reveal, (rowStep (y < 24) a c).2.shown blinkOn reveal) := by
  unfold xioStep
  rw [xioSwitch_vars a hc]
  exact xioMosaic_vars _ _

theorem xioRow_eq {row : List UInt8} (h : ∀ c ∈ row, Used c) :
    xioRow blinkOn reveal y row = (outputs (rowStep (y < 24)) .start row).map (Cell.shown blinkOn reveal) :=
  outputs_map (f := Attrs.xioVars blinkOn reveal) (P := Used) (fun a c hc => xioStep_vars a c hc) row .start h

end Row

end BgtDvb.Alevt
