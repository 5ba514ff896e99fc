import BgtDvb.Cxd2850

/-!
# Register banks of the CXD2817

The CXD2817 answers at two i2c addresses, one for DVB-T and the system registers and one for DVB-T2 and
DVB-C, each with a bank register of its own.  `frontends/cxd2817.c` remembers one bank for both, and its
select message announces one byte where two would be needed: the register number `0x00` without the bank.

* `selectBank_selected` — **PROVED**: a select selects nothing;
* `along_meets_iff` — **PROVED**: in a run every data transfer meets the bank of its address exactly if no
  access needed another bank than the one its address was in.

A transfer and the bank register of one address are those of the CXD2850.
-/

namespace BgtDvb.Cxd2817

open BgtDvb.GuardedRun
open BgtDvb.Cxd2850 (Xfer Demod eremoteio)

/-- `M_REG`. -/
def mReg (x : UInt32) : UInt8 := (x &&& 0xff).toUInt8

/-- `M_ADDR`, with `cfg->addr`. -/
def mAddr (addr : UInt8) (x : UInt32) : UInt8 := addr ||| (((x >>> 16) &&& 0x1) <<< 1).toUInt8

/-- `M_BANK`. -/
def mBank (x : UInt32) : UInt8 := ((x >>> 8) &&& 0xff).toUInt8

/-- The remembered bank, the bank selected at each i2c address, and the data transfers so far: the
register each was meant for and the bank it met at its address. -/
structure Bus where
  bank : UInt8
  selected : UInt8 → UInt8
  transfers : List (UInt32 × UInt8)

/-! ### The accessors -/

variable (d : Demod) (addr : UInt8)

/-- A message to an i2c address. -/
def Bus.put (s : Bus) (a : UInt8) (msg : List UInt8) (x : Xfer) : Bus :=
  if x.taken = true then { s with selected := Function.update s.selected a (d.write (s.selected a) msg) }
  else s

/-- The select that both accessors make first, and whether they go on.  `buf` holds the register number
and the bank; `msg.len` is 1. -/
def selectBank (s : Bus) (reg : UInt32) (sel : Xfer) : Bool × Bus :=
  if mBank reg ≠ s.bank then
    let s := s.put d (mAddr addr reg) ([0x00, mBank reg].take 1) sel
    if sel.ok = true then (true, { s with bank := mBank reg }) else (false, s)
  else (true, s)

/-- The data transfer for `reg`, put on record. -/
def dataTransfer (s : Bus) (reg : UInt32) (msg : List UInt8) (dat : Xfer) : Bus :=
  Bus.put d { s with transfers := s.transfers ++ [(reg, s.selected (mAddr addr reg))] } (mAddr addr reg) msg
    dat

/-- `cxd2817_wr_regs`.  The `WARN_ON` stops nothing: `none` is the `memcpy` past the 257 bytes of
`buf`. -/
def wrRegs (s : Bus) (reg : UInt32) (val : List UInt8) (sel dat : Xfer) : Option (ℤ × Bus) :=
  let r := selectBank d addr s reg sel
  if r.1 = false then some (-eremoteio, r.2)
  else if val.length > 256 then none
  else some (if dat.ok = true then 0 else -eremoteio, dataTransfer d addr r.2 reg (mReg reg :: val) dat)

/-- `cxd2817_rd_regs`, with the bytes the demodulator would send; `none` is a read past `buf`. -/
def rdRegs (s : Bus) (reg : UInt32) (len : ℕ) (reply : List UInt8) (sel dat : Xfer) :
    Option (ℤ × List UInt8 × Bus) :=
  let r := selectBank d addr s reg sel
  if r.1 = false then some (-eremoteio, [], r.2)
  else if len > 257 then none
  else
    let s := dataTransfer d addr r.2 reg [mReg reg] dat
    some (if dat.ok = true then (0, reply.take len, s) else (-eremoteio, [], s))

/-- `cxd2817_wr`. -/
def wr (s : Bus) (reg : UInt32) (val : UInt8) (sel dat : Xfer) : Option (ℤ × Bus) :=
  wrRegs d addr s reg [val] sel dat

/-- `cxd2817_rd`. -/
def rd (s : Bus) (reg : UInt32) (reply : UInt8) (sel dat : Xfer) : Option (ℤ × List UInt8 × Bus) :=
  rdRegs d addr s reg 1 [reply] sel dat

/-- `cxd2817_wr_mask`: a read first, unless the mask is full, and nothing more if it fails. -/
def wrMask (s : Bus) (reg : UInt32) (val mask reply : UInt8) (rsel rdat wsel wdat : Xfer) :
    Option (ℤ × Bus) :=
  if mask ≠ 0xff then
    match rd d addr s reg reply rsel rdat with
    | none => none
    | some (ret, data, s) =>
      if ret ≠ 0 then some (ret, s)
      else wr d addr s reg ((val &&& mask) ||| (data.getD 0 0 &&& ~~~mask)) wsel wdat
  else wr d addr s reg val wsel wdat

/-! ### Runs -/

/-- One call of an accessor with what becomes of its transfers. -/
inductive Op where
  | wrRegs (reg : UInt32) (val : List UInt8) (sel dat : Xfer)
  | rdRegs (reg : UInt32) (len : ℕ) (reply : List UInt8) (sel dat : Xfer)
  | wr (reg : UInt32) (val : UInt8) (sel dat : Xfer)
  | rd (reg : UInt32) (reply : UInt8) (sel dat : Xfer)

def step (s : Bus) : Op → Option Bus
  | .wrRegs reg val sel dat => (wrRegs d addr s reg val sel dat).map (·.2)
  | .rdRegs reg len reply sel dat => (rdRegs d addr s reg len reply sel dat).map (·.2.2)
  | .wr reg val sel dat => (wr d addr s reg val sel dat).map (·.2)
  | .rd reg reply sel dat => (rd d addr s reg reply sel dat).map (·.2.2)

namespace Op

def reg : Op → UInt32
  | .wrRegs reg _ _ _ | .rdRegs reg _ _ _ _ | .wr reg _ _ _ | .rd reg _ _ _ => reg

def msg : Op → List UInt8
  | .wrRegs reg val _ _ => mReg reg :: val
  | .rdRegs reg _ _ _ _ => [mReg reg]
  | .wr reg val _ _ => [mReg reg, val]
  | .rd reg _ _ _ => [mReg reg]

def sel : Op → Xfer
  | .wrRegs _ _ sel _ | .rdRegs _ _ _ sel _ | .wr _ _ sel _ | .rd _ _ sel _ => sel

def dat : Op → Xfer
  | .wrRegs _ _ _ dat | .rdRegs _ _ _ _ dat | .wr _ _ _ dat | .rd _ _ _ dat => dat

/-- The bytes go past the end of `buf`. -/
def overruns : Op → Prop
  | .wrRegs _ val _ _ => val.length > 256
  | .rdRegs _ len _ _ _ => len > 257
  | .wr _ _ _ _ | .rd _ _ _ _ => False

instance : DecidablePred overruns
  | .wrRegs _ val _ _ => inferInstanceAs (Decidable (val.length > 256))
  | .rdRegs _ len _ _ _ => inferInstanceAs (Decidable (len > 257))
  | .wr _ _ _ _ | .rd _ _ _ _ => inferInstanceAs (Decidable False)

end Op

/-- The access gets as far as its data transfer: it needs no select, or the select succeeds. -/
def GoesOn (s : Bus) (o : Op) : Prop := mBank o.reg = s.bank ∨ o.sel.ok = true

instance (s : Bus) (o : Op) : Decidable (GoesOn s o) := inferInstanceAs (Decidable (_ ∨ _))

/-! ### One access -/

variable (s : Bus)

theorem selectBank_goesOn (reg : UInt32) (sel : Xfer) :
    (selectBank d addr s reg sel).1 = true ↔ mBank reg = s.bank ∨ sel.ok = true := by
  unfold selectBank
  by_cases hb : mBank reg = s.bank
  · simp [hb]
  · rw [if_pos hb]
    by_cases hok : sel.ok = true
    · simp [hok]
    · simp [hok, hb]

theorem selectBank_selected (reg : UInt32) (sel : Xfer) : (selectBank d addr s reg sel).2.selected = s.selected := by
  have hput : (s.put d (mAddr addr reg) ([0x00, mBank reg].take 1) sel).selected = s.selected := by
    unfold Bus.put
    split
    · show Function.update s.selected _ (d.write (s.selected (mAddr addr reg)) [0x00]) = s.selected
      rw [d.write_pointer]
      exact Function.update_eq_self _ _
    · rfl
  unfold selectBank
  by_cases hb : mBank reg ≠ s.bank
  · rw [if_pos hb]
    by_cases hok : sel.ok = true
    · simp only [hok, if_true]
      exact hput
    · simp only [hok]
      exact hput
  · rw [if_neg hb]

theorem selectBank_transfers (reg : UInt32) (sel : Xfer) : (selectBank d addr s reg sel).2.transfers = s.transfers := by
  unfold selectBank Bus.put
  split_ifs <;> rfl

def access (s : Bus) (o : Op) : Bus :=
  dataTransfer d addr (selectBank d addr s o.reg o.sel).2 o.reg o.msg o.dat

theorem step_eq (o : Op) : step d addr s o =
    if (selectBank d addr s o.reg o.sel).1 = false then some (selectBank d addr s o.reg o.sel).2
    else if o.overruns then none
    else some (access d addr s o) := by
  have hwr : ∀ reg val sel dat, (wrRegs d addr s reg val sel dat).map (·.2) =
      if (selectBank d addr s reg sel).1 = false then some (selectBank d addr s reg sel).2
      else if val.length > 256 then none
      else some (access d addr s (.wrRegs reg val sel dat)) := by
    intro reg val sel dat
    unfold wrRegs
    dsimp only
    split_ifs <;> rfl
  have hrd : ∀ reg len reply sel dat, (rdRegs d addr s reg len reply sel dat).map (·.2.2) =
      if (selectBank d addr s reg sel).1 = false then some (selectBank d addr s reg sel).2
      else if len > 257 then none
      else some (access d addr s (.rdRegs reg len reply sel dat)) := by
    intro reg len reply sel dat
    unfold rdRegs
    dsimp only
    split_ifs <;> rfl
  cases o with
  | wrRegs reg val sel dat => exact hwr reg val sel dat
  | rdRegs reg len reply sel dat => exact hrd reg len reply sel dat
  | wr reg val sel dat => exact hwr reg [val] sel dat
  | rd reg reply sel dat => exact hrd reg 1 [reply] sel dat

theorem access_transfers (o : Op) :
    (access d addr s o).transfers = s.transfers ++ [(o.reg, s.selected (mAddr addr o.reg))] := by
  unfold access dataTransfer Bus.put
  rw [← selectBank_transfers d addr s o.reg o.sel, ← selectBank_selected d addr s o.reg o.sel]
  split <;> rfl

/-- **All that an access can do**: it ends after its select, it overruns the buffer, or it makes its data
transfer in the bank its address was in before. -/
theorem step_cases (o : Op) :
    (¬ GoesOn s o ∧ ∃ s', step d addr s o = some s' ∧ s'.transfers = s.transfers ∧
      s'.selected = s.selected) ∨
    (GoesOn s o ∧ o.overruns ∧ step d addr s o = none) ∨
    (GoesOn s o ∧ ¬ o.overruns ∧ step d addr s o = some (access d addr s o)) := by
  have hgo := selectBank_goesOn d addr s o.reg o.sel
  rw [step_eq]
  by_cases hg : GoesOn s o
  · rw [if_neg (by rw [hgo.mpr hg]; decide)]
    by_cases hover : o.overruns
    · exact .inr (.inl ⟨hg, hover, if_pos hover⟩)
    · exact .inr (.inr ⟨hg, hover, if_neg hover⟩)
  · have hsel : (selectBank d addr s o.reg o.sel).1 = false := by
      rw [← Bool.not_eq_true]
      exact fun h => hg (hgo.mp h)
    rw [if_pos hsel]
    exact .inl ⟨hg, _, rfl, selectBank_transfers d addr s o.reg o.sel,
      selectBank_selected d addr s o.reg o.sel⟩

/-! ### Register bank coherence -/

def InBank (s : Bus) : Prop := ∀ t ∈ s.transfers, t.2 = mBank t.1

/-- Every data transfer up to and including that of the call met the bank of its register. -/
def MeetsBank (s : Bus) (o : Op) : Prop := ∀ s', step d addr s o = some s' → InBank s'

/-- An access that comes to its data transfer is meant for the bank that its i2c address is in already. -/
def NeedsNoSwitch (s : Bus) (o : Op) : Prop :=
  GoesOn s o → ¬ o.overruns → s.selected (mAddr addr o.reg) = mBank o.reg

instance (s : Bus) (o : Op) : Decidable (NeedsNoSwitch addr s o) :=
  inferInstanceAs (Decidable (_ → _ → _))

theorem meetsBank_iff {s : Bus} (hin : InBank s) (o : Op) :
    MeetsBank d addr s o ↔ NeedsNoSwitch addr s o := by
  unfold MeetsBank NeedsNoSwitch
  rcases step_cases d addr s o with ⟨hg, s', hs', hlog, -⟩ | ⟨hg, hover, hs'⟩ | ⟨hg, hover, hs'⟩
  · refine iff_of_true (fun t ht => ?_) (fun h => absurd h hg)
    obtain rfl := Option.some.inj (hs'.symm.trans ht)
    unfold InBank
    rw [hlog]
    exact hin
  · refine iff_of_true (fun t ht => ?_) (fun _ h => absurd hover h)
    rw [hs'] at ht
    exact absurd ht (by simp)
  · rw [hs']
    simp only [Option.some.injEq, forall_eq', hg, hover, not_false_iff, forall_true_left]
    unfold InBank
    rw [access_transfers]
    constructor
    · intro h
      exact h (o.reg, s.selected (mAddr addr o.reg)) (by simp)
    · intro h t ht
      rcases List.mem_append.mp ht with ht | ht
      · exact hin t ht
      · rw [List.mem_singleton.mp ht]
        exact h

/-- **Every run.**  Whatever bank is remembered and whatever banks the two addresses are in, every data transfer of a
run meets the bank of its register exactly if no access needs another bank than the one its address is in when it
begins. -/
theorem along_meets_iff (ops : List Op) (bank : UInt8) (selected : UInt8 → UInt8) :
    Along (step d addr) (MeetsBank d addr) ⟨bank, selected, []⟩ ops ↔
      Along (step d addr) (NeedsNoSwitch addr) ⟨bank, selected, []⟩ ops := by
  refine along_iff_of_invariant ?_ (fun s o hin => meetsBank_iff d addr hin o) ops _ ?_
  · intro s o s' hin hneeds hstep
    exact (meetsBank_iff d addr hin o).mpr hneeds s' hstep
  · intro t ht
    exact absurd ht (by simp)

/-- Bank 4 of the first address is written; the select is answered, and the data goes to bank 0. -/
theorem not_meets_bank_four :
    ¬ Along (step Cxd2850.demod 0x6c) (MeetsBank Cxd2850.demod 0x6c) ⟨0, fun _ => 0, []⟩
      [Op.wr 0x0427 0x41 .done .done] := by
  intro h
  have hlog := h.1 _ rfl (0x0427, 0x00) (by decide)
  exact absurd hlog (by decide)

end BgtDvb.Cxd2817
