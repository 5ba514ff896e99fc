import BgtDvb.AlevtXio

/-!
# The row masks of the window

`xio_put_line` keeps three masks of what is in each row: double height, flashing and concealing. The fourth one, of the
rows that are hidden, is worked out again from the row that was put downwards, and only if the double height of that row
has changed.

* `RowMask`, `putLine_mask` — **PROVED**: a mask follows the row that is put, and no other bit of it changes;
* `recalcHidden_above`, `putLine_hidden_above` — **PROVED**: nothing is hidden below the last row;
* `Recorded`, `recorded_putLine` — **PROVED**: what each call keeps;
* `masks_run` — **PROVED**: the masks after any sequence of calls.
-/

namespace BgtDvb.Alevt

/-! ### The calls -/

/-- `xio_put_line` with the `int` that it is given. -/
def xioPutLine (xw : XioWin) (y : ℤ) (data : List UInt8) : XioWin := if y < 0 then xw else putLine xw y.toNat data

inductive XioOp where
  | clear
  | put (y : ℤ) (data : List UInt8)

def XioOp.apply (xw : XioWin) : XioOp → XioWin
  | .clear => clearWin xw
  | .put y data => xioPutLine xw y data

/-- The calls one after another, on a window that `xio_open_win` has cleared. -/
def runXio (xw : XioWin) (ops : List XioOp) : XioWin := ops.foldl XioOp.apply (clearWin xw)

/-! ### The masks of the contents -/

/-- The masks that say what is in a row. -/
inductive RowMask where
  | dheight
  | blink
  | concealed

namespace RowMask

def bits : RowMask → XioWin → BitVec 32
  | dheight => XioWin.dheight
  | blink => XioWin.blink
  | concealed => XioWin.concealed

def code : RowMask → UInt8
  | dheight => 0x0d
  | blink => 0x08
  | concealed => 0x18

def rows : RowMask → ℕ
  | dheight => 24
  | blink | concealed => 25

end RowMask

section Contents

variable (m : RowMask) {y : ℕ}

/-- One byte of the row: it sets the bit of the mask whose code it is. -/
theorem scanByte_mask (hy : y < 25) (xw : XioWin) (c : UInt8) (i : ℕ) :
    (m.bits (scanByte y xw c)).getLsbD i = ((m.bits xw).getLsbD i || decide (i = y ∧ y < m.rows ∧ c = m.code)) := by
  have hset : ∀ b : BitVec 32, (b ||| line y).getLsbD i = (b.getLsbD i || decide (i = y)) := fun b => by
    rw [BitVec.getLsbD_or, line_bit (by omega)]
  unfold scanByte
  by_cases h8 : c = 0x08
  · rw [if_pos h8, h8]
    cases m with
    | dheight => simp [RowMask.bits, RowMask.code]
    | blink =>
      have hbit := hset xw.blink
      simp [RowMask.bits, RowMask.code, RowMask.rows, hy, hbit]
    | concealed => simp [RowMask.bits, RowMask.code]
  rw [if_neg h8]
  by_cases hd : c = 0x0d
  · rw [if_pos hd, hd]
    by_cases hlast : y < 24
    · rw [if_pos hlast]
      cases m with
      | dheight =>
        have hbit := hset xw.dheight
        simp [RowMask.bits, RowMask.code, RowMask.rows, hlast, hbit]
      | blink => simp [RowMask.bits, RowMask.code]
      | concealed => simp [RowMask.bits, RowMask.code]
    · -- the last row has no double height
      rw [if_neg hlast]
      cases m with
      | dheight => simp [RowMask.rows, hlast]
      | blink => simp [RowMask.code]
      | concealed => simp [RowMask.code]
  rw [if_neg hd]
  by_cases hc : c = 0x18
  · rw [if_pos hc, hc]
    cases m with
    | dheight => simp [RowMask.bits, RowMask.code]
    | blink => simp [RowMask.bits, RowMask.code]
    | concealed =>
      have hbit := hset xw.concealed
      simp [RowMask.bits, RowMask.code, RowMask.rows, hy, hbit]
  · rw [if_neg hc]
    cases m with
    | dheight => simp [RowMask.code, hd]
    | blink => simp [RowMask.code, h8]
    | concealed => simp [RowMask.code, hc]

theorem scan_mask (hy : y < 25) (data : List UInt8) (xw : XioWin) (i : ℕ) :
    (m.bits (data.foldl (scanByte y) xw)).getLsbD i =
      ((m.bits xw).getLsbD i || decide (i = y ∧ y < m.rows ∧ m.code ∈ data)) := by
  induction data generalizing xw with
  | nil => simp
  | cons c data ih =>
    rw [List.foldl_cons, ih, scanByte_mask m hy, Bool.or_assoc, ← Bool.decide_or]
    congr 1
    simp only [List.mem_cons, decide_eq_decide, eq_comm (a := m.code)]
    tauto

theorem putLine_mask (hy : y < 25) {data : List UInt8} {xw : XioWin} (hchanged : data ≠ xw.ch y) (i : ℕ) :
    (m.bits (putLine xw y data)).getLsbD i =
      if i = y then decide (y < m.rows ∧ m.code ∈ data) else (m.bits xw).getLsbD i := by
  -- working out the hidden rows leaves the mask alone
  have hput : m.bits (putLine xw y data) = m.bits (data.foldl (scanByte y) { xw with
      modified := xw.modified ||| line y
      blink := xw.blink &&& ~~~line y
      dheight := xw.dheight &&& ~~~line y
      concealed := xw.concealed &&& ~~~line y
      ch := Function.update xw.ch y data }) := by
    unfold putLine
    rw [if_neg (Nat.not_le.mpr hy), if_neg hchanged]
    dsimp only
    split
    · cases m <;> rfl
    · rfl
  have hcleared : ∀ b : BitVec 32, (b &&& ~~~line y).getLsbD i = (b.getLsbD i && !decide (i = y)) := fun b => by
    rw [BitVec.getLsbD_and, BitVec.getLsbD_not, line_bit (by omega)]
    by_cases hi : i < 32
    · simp [hi]
    · simp [BitVec.getLsbD_of_ge b i (by omega)]
  rw [hput, scan_mask m hy]
  have hbase : ∀ xw' : XioWin, m.bits xw' = m.bits xw &&& ~~~line y →
      ((m.bits xw').getLsbD i || decide (i = y ∧ y < m.rows ∧ m.code ∈ data)) =
        if i = y then decide (y < m.rows ∧ m.code ∈ data) else (m.bits xw).getLsbD i := by
    intro xw' hxw'
    rw [hxw', hcleared]
    by_cases hiy : i = y
    · simp [hiy]
    · simp [hiy]
  cases m <;> exact hbase _ rfl

end Contents

/-! ### The rows that are hidden -/

theorem recalcHidden_above (dheight : BitVec 32) (n y : ℕ) (hidden : BitVec 32)
    (h : ∀ i, 25 ≤ i → hidden.getLsbD i = false) :
    ∀ i, 25 ≤ i → (recalcHidden dheight n y hidden).getLsbD i = false := by
  induction n generalizing y hidden with
  | zero => exact h
  | succ n ih =>
    unfold recalcHidden
    by_cases hlast : y < 24
    · rw [if_pos ((half_lines y).mpr hlast)]
      refine ih (y + 1) _ fun i hi => ?_
      split
      · rw [BitVec.getLsbD_or, line_bit (by omega), h i hi, decide_eq_false (by omega), Bool.or_false]
      · exact h i hi
    · rw [if_neg fun hline => hlast ((half_lines y).mp hline)]
      exact h

theorem putLine_hidden_above {xw : XioWin} (h : ∀ i, 25 ≤ i → xw.hidden.getLsbD i = false) {y : ℕ} (hy : y < 25)
    (data : List UInt8) : ∀ i, 25 ≤ i → (putLine xw y data).hidden.getLsbD i = false := by
  unfold putLine
  rw [if_neg (Nat.not_le.mpr hy)]
  split
  · exact h
  · have hscan := scan_scanned hy data { xw with
      modified := xw.modified ||| line y
      blink := xw.blink &&& ~~~line y
      dheight := xw.dheight &&& ~~~line y
      concealed := xw.concealed &&& ~~~line y
      ch := Function.update xw.ch y data }
    dsimp only
    split
    · refine recalcHidden_above _ _ _ _ fun i hi => ?_
      rw [BitVec.getLsbD_and, hscan.hidden, h i hi, Bool.false_and]
    · rw [hscan.hidden]
      exact h

/-! ### Every sequence of calls -/

/-- What each call keeps. -/
structure Recorded (xw : XioWin) : Prop where
  laid : Laid xw
  masks : ∀ (m : RowMask) (y : ℕ), (m.bits xw).getLsbD y = decide (y < m.rows ∧ m.code ∈ xw.ch y)
  above : ∀ i, 25 ≤ i → xw.hidden.getLsbD i = false

theorem recorded_clearWin (xw : XioWin) : Recorded (clearWin xw) where
  laid := laid_clearWin xw
  masks := fun m y => by
    have hzero : m.bits (clearWin xw) = 0 := by cases m <;> rfl
    have hblank : m.code ≠ 0x20 := by cases m <;> decide
    have hcode : m.code ∉ (clearWin xw).ch y := fun hmem => hblank (List.eq_of_mem_replicate hmem)
    rw [hzero, decide_eq_false fun hboth => hcode hboth.2]
    exact BitVec.getLsbD_zero
  above := fun _ _ => BitVec.getLsbD_zero

theorem recorded_putLine {xw : XioWin} (h : Recorded xw) (y : ℕ) (data : List UInt8) : Recorded (putLine xw y data) := by
  by_cases hy : 25 ≤ y
  · rw [putLine, if_pos hy]
    exact h
  by_cases hsame : data = xw.ch y
  · rw [putLine, if_neg hy, if_pos hsame]
    exact h
  have hlt : y < 25 := Nat.not_le.mp hy
  refine ⟨laid_putLine h.laid y data, fun m i => ?_, putLine_hidden_above h.above hlt data⟩
  rw [putLine_mask m hlt hsame, (putLine_put hlt data xw).ch]
  by_cases hiy : i = y
  · rw [if_pos hiy, hiy, Function.update_self]
  · rw [if_neg hiy, Function.update_of_ne hiy]
    exact h.masks m i

theorem recorded_apply {xw : XioWin} (h : Recorded xw) (op : XioOp) : Recorded (op.apply xw) := by
  cases op with
  | clear => exact recorded_clearWin xw
  | put y data =>
    show Recorded (xioPutLine xw y data)
    unfold xioPutLine
    split
    · exact h
    · exact recorded_putLine h y.toNat data

theorem recorded_runXio (xw : XioWin) (ops : List XioOp) : Recorded (runXio xw ops) :=
  List.foldlRecOn ops XioOp.apply (recorded_clearWin xw) fun _ h op _ => recorded_apply h op

/-- What the masks are to say; the hidden rows from the top downwards. -/
structure MasksFollow (xw : XioWin) : Prop where
  dheight : ∀ y, xw.dheight.getLsbD y = true ↔ 0x0d ∈ xw.ch y ∧ y < 24
  blink : ∀ y, xw.blink.getLsbD y = true ↔ 0x08 ∈ xw.ch y ∧ y < 25
  concealed : ∀ y, xw.concealed.getLsbD y = true ↔ 0x18 ∈ xw.ch y ∧ y < 25
  top : xw.hidden.getLsbD 0 = false
  below : ∀ y, xw.hidden.getLsbD (y + 1) = true ↔ xw.dheight.getLsbD y = true ∧ xw.hidden.getLsbD y = false

theorem Recorded.hidden_eq {xw : XioWin} (h : Recorded xw) (y : ℕ) :
    xw.hidden.getLsbD y = hides xw.dheight.getLsbD y := by
  have hdheight : ∀ i, xw.dheight.getLsbD i = doubles xw.ch i := h.masks .dheight
  by_cases hy : y < 25
  · rw [h.laid.hidden y hy]
    exact hides_congr fun i _ => (hdheight i).symm
  · obtain ⟨z, rfl⟩ : ∃ z, y = z + 1 := ⟨y - 1, by omega⟩
    have hlast : xw.dheight.getLsbD z = false := by
      rw [hdheight z]
      exact decide_eq_false fun hboth => absurd hboth.1 (by omega)
    show _ = (!hides xw.dheight.getLsbD z && xw.dheight.getLsbD z)
    rw [h.above (z + 1) (by omega), hlast, Bool.and_false]

theorem Recorded.masksFollow {xw : XioWin} (h : Recorded xw) : MasksFollow xw := by
  have hmask : ∀ (m : RowMask) (y : ℕ), (m.bits xw).getLsbD y = true ↔ m.code ∈ xw.ch y ∧ y < m.rows := fun m y => by
    rw [h.masks m y, decide_eq_true_iff]
    exact and_comm
  refine ⟨hmask .dheight, hmask .blink, hmask .concealed, h.hidden_eq 0, fun y => ?_⟩
  rw [h.hidden_eq (y + 1), h.hidden_eq y]
  show (!hides xw.dheight.getLsbD y && xw.dheight.getLsbD y) = true ↔ _
  rw [Bool.and_eq_true, Bool.not_eq_true', and_comm]

/-- **After every sequence of calls** the masks say what is in the rows, and the rows that are hidden are those that a
new calculation from the top would find. -/
theorem masks_run (xw : XioWin) (ops : List XioOp) : MasksFollow (runXio xw ops) := (recorded_runXio xw ops).masksFollow

end BgtDvb.Alevt
