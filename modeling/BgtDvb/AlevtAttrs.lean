import BgtDvb.Lib.Mealy

/-!
# Spacing attributes of a teletext row

What the bytes of a row of teletext mean, on its own: a byte is a character or a spacing attribute, and
the attributes hold from their place to the end of the row or to the next one of their kind.
-/

namespace BgtDvb.Alevt

/-- A spacing attribute, a byte without a meaning, or a character. -/
inductive RowCode where
  | alpha (fg : UInt8)
  | flash
  | steady
  | box
  | normalHeight
  | doubleHeight
  | mosaic (fg : UInt8)
  | conceal
  | contiguous
  | separated
  | blackBg
  | newBg
  | holdMosaic
  | releaseMosaic
  | reserved
  | char (c : UInt8)
  deriving DecidableEq

def rowCode (c : UInt8) : RowCode :=
  if c ≤ 0x07 then .alpha (c &&& 7)
  else if c = 0x08 then .flash
  else if c = 0x09 then .steady
  else if c = 0x0a ∨ c = 0x0b then .box
  else if c = 0x0c then .normalHeight
  else if c = 0x0d then .doubleHeight
  else if 0x10 ≤ c ∧ c ≤ 0x17 then .mosaic (c &&& 7)
  else if c = 0x18 then .conceal
  else if c = 0x19 then .contiguous
  else if c = 0x1a then .separated
  else if c = 0x1c then .blackBg
  else if c = 0x1d then .newBg
  else if c = 0x1e then .holdMosaic
  else if c = 0x1f then .releaseMosaic
  else if c = 0x0e ∨ c = 0x0f ∨ c = 0x1b then .reserved
  else .char c

/-- What stands in the place of a byte; nothing of its own for an attribute. -/
def RowCode.plain : RowCode → Option UInt8
  | .char c => some c
  | .reserved => some 0x20
  | _ => none

def IsMosaic (c : UInt8) : Prop := c &&& 0xa0 = 0x20

instance (c : UInt8) : Decidable (IsMosaic c) := inferInstanceAs (Decidable (c &&& 0xa0 = 0x20))

def mosaicCode (c : UInt8) : UInt8 := if c &&& 0x40 ≠ 0 then c + 32 else c - 32

/-- The attributes at a place of a row, and the mosaic that an attribute shows if mosaics are held. -/
structure Attrs where
  fg : UInt8
  bg : UInt8
  double : Bool
  flash : Bool
  conceal : Bool
  mosaic : Bool
  separated : Bool
  hold : Bool
  held : UInt8
  held_mosaic : IsMosaic held
  deriving DecidableEq

def Attrs.start : Attrs where
  fg := 7
  bg := 0
  double := false
  flash := false
  conceal := false
  mosaic := false
  separated := false
  hold := false
  held := 0x20
  held_mosaic := by decide

/-- What is seen in a place of a row. -/
structure Cell where
  glyph : UInt8
  fg : UInt8
  bg : UInt8
  double : Bool
  flash : Bool
  conceal : Bool

/-- The attributes from a code on; `tall` is for the rows that may have double height. -/
def Attrs.apply (tall : Bool) (a : Attrs) : RowCode → Attrs
  | .alpha fg => { a with fg := fg, mosaic := false, conceal := false }
  | .flash => { a with flash := true }
  | .steady => { a with flash := false }
  | .normalHeight => { a with double := false }
  | .doubleHeight => { a with double := tall }
  | .mosaic fg => { a with fg := fg, mosaic := true, conceal := false }
  | .conceal => { a with conceal := true }
  | .contiguous => { a with separated := false }
  | .separated => { a with separated := true }
  | .blackBg => { a with bg := 0 }
  | .newBg => { a with bg := a.fg }
  | .holdMosaic => { a with hold := true }
  | .releaseMosaic => { a with hold := false }
  | .box | .reserved | .char _ => a

/-- The character in a place; `plain` is what stands there, if it is no attribute. -/
def Attrs.sign (a : Attrs) (plain : Option UInt8) : UInt8 :=
  plain.getD (if a.hold && a.mosaic then a.held else 0x20)

def Attrs.keep (a : Attrs) (c : UInt8) : Attrs :=
  if h : a.mosaic = true ∧ IsMosaic c then { a with held := c, held_mosaic := h.2 } else a

def Attrs.cell (a : Attrs) (c : UInt8) : Cell where
  glyph := if a.mosaic = true ∧ IsMosaic c then mosaicCode c else c
  fg := a.fg
  bg := a.bg
  double := a.double
  flash := a.flash
  conceal := a.conceal

def rowStep (tall : Bool) (a : Attrs) (c : UInt8) : Attrs × Cell :=
  let a := a.apply tall (rowCode c)
  let c := a.sign (rowCode c).plain
  (a.keep c, a.cell c)

/-! ### What a place keeps -/

theorem Attrs.keep_mosaic {a : Attrs} {c : UInt8} (h : a.mosaic = true ∧ IsMosaic c) :
    a.keep c = { a with held := c, held_mosaic := h.2 } := dif_pos h

theorem Attrs.keep_other {a : Attrs} {c : UInt8} (h : ¬(a.mosaic = true ∧ IsMosaic c)) : a.keep c = a := dif_neg h

theorem rowStep_char {tall : Bool} {a : Attrs} {c : UInt8} (hcode : rowCode c = .char c) (h : a.mosaic = false) :
    (rowStep tall a c).1 = a := by
  have happly : a.apply tall (rowCode c) = a := by rw [hcode]; rfl
  show (a.apply tall (rowCode c)).keep _ = a
  rw [happly]
  exact Attrs.keep_other fun hboth => Bool.false_ne_true (h.symm.trans hboth.1)

theorem mosaicCode_ne_blank {c : UInt8} (h : IsMosaic c) : mosaicCode c ≠ 0x20 := by
  have hall : ∀ b : BitVec 8, IsMosaic ⟨b⟩ → mosaicCode ⟨b⟩ ≠ 0x20 := by decide
  exact hall c.toBitVec h

end BgtDvb.Alevt
