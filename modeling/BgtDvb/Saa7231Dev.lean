import BgtDvb.Lib.RegFile

/-!
# The SAA7231 device: names shared by the driver modules

Enumerations of `saa7231_priv.h`, `saa7231_cgu.h` and `saa7231_mod.h` that more than one part of
the driver uses.  A register is named by the module it belongs to and its offset in the module
(`SAA7231_WR(data, SAA7231_BAR0, module, addr)`); the modules occupy disjoint address ranges.
-/

namespace BgtDvb.Saa7231

open BgtDvb.RegFile

def eio : ℤ := 5

def enomem : ℤ := 12

def einval : ℤ := 22

/-- `enum saa7231_stream_port`. -/
inductive StreamPort where
  | vs2dAvis | vs2dItu | ds2dAvis | ds2dItu | as2dLocal | as2dExt | ts2dDtv0 | ts2dDtv1
  | ts2dExt0 | ts2dExt1 | ts2dCam | tsoifPc | tsoifDcsn
  deriving Repr, DecidableEq

def StreamPort.id : StreamPort → ℕ
  | .vs2dAvis => 0
  | .vs2dItu => 2
  | .ds2dAvis => 4
  | .ds2dItu => 5
  | .as2dLocal => 6
  | .as2dExt => 7
  | .ts2dDtv0 => 8
  | .ts2dDtv1 => 9
  | .ts2dExt0 => 10
  | .ts2dExt1 => 11
  | .ts2dCam => 12
  | .tsoifPc => 13
  | .tsoifDcsn => 14

/-- `enum saa7231_mode`. -/
inductive Mode where
  | none | audioCapture | vbiCapture | videoCapture | encoderCapture | rdsCapture
  | digitalCapture | digitalRender | remoteControl
  deriving Repr, DecidableEq

/-- The root clock of the board's configuration. -/
inductive RootClk where
  | clk27MHz | clk54MHz | custom
  deriving Repr, DecidableEq

/-- The modules of the register map that the modelled code writes. -/
inductive Module where
  | dcsn | msi | rgu | stream | mmu | cgu
  | s2d (port : StreamPort)
  deriving Repr, DecidableEq

abbrev Reg := Module × ℕ

theorem wrAll_of_module (r : Reg → ℕ) (ws : List (Reg × ℕ)) (k : Reg) (h : ∀ w ∈ ws, w.1.1 ≠ k.1) :
    wrAll r ws k = r k := by
  apply wrAll_of_notMem
  intro hmem
  obtain ⟨w, hw, heq⟩ := List.mem_map.mp hmem
  exact h w hw (by rw [heq])

/-- `SAA7231_SETFIELD(mask, field, val)` on a 32-bit word. -/
def setField (mask width offst val : ℕ) : ℕ :=
  (mask &&& (2 ^ 32 - 1 - ((2 ^ width - 1) <<< offst))) ||| (val <<< offst)

end BgtDvb.Saa7231
