import BgtDvb.Lib.GuardedRun

/-!
# Register banks of the CXD2850

The demodulator has 256 banks of registers; `frontends/cxd2850.c` selects one by writing its number
to register `0x00` and remembers it in `bank`, so that accesses to the same bank need no further
select.  The remembered number is stored whether or not the select went through, and the data
transfer follows in either case:

* `access_bank_iff` — **PROVED**: one access meets its bank exactly if its select is taken;
* `along_inBank_iff` — **PROVED**: so does every run.
-/

namespace BgtDvb.Cxd2850

open BgtDvb.GuardedRun

def eremoteio : ℤ := 121

/-- `M_REG`. -/
def mReg (x : UInt32) : UInt8 := (x &&& 0xff).toUInt8

/-- `M_BANK`. -/
def mBank (x : UInt32) : UInt8 := ((x >>> 8) &&& 0xff).toUInt8

/-- One `i2c_transfer`.  A transfer that fails may or may not have reached the demodulator. -/
structure Xfer where
  ok : Bool
  taken : Bool
  taken_of_ok : ok = true → taken = true

def Xfer.done : Xfer := ⟨true, true, fun _ => rfl⟩

def Xfer.lost : Xfer := ⟨false, false, fun h => h⟩

/-- The bank register: what it holds after the demodulator took a written message.  The message
`[0x00, v]` selects bank `v`; a register number alone, which begins a read, selects nothing. -/
structure Demod where
  write : UInt8 → List UInt8 → UInt8
  write_select : ∀ b v, write b [0x00, v] = v
  write_pointer : ∀ b r, write b [r] = b

/-- The bank the driver remembers, the one that is selected, and the data transfers so far: the
address each was meant for and the bank it met. -/
structure Dev where
  bank : UInt8
  selected : UInt8
  transfers : List (UInt32 × UInt8)

/-! ### The accessors -/

variable (d : Demod)

def Dev.put (s : Dev) (msg : List UInt8) (x : Xfer) : Dev :=
  if x.taken = true then { s with selected := d.write s.selected msg } else s

/-- The select that both accessors make first; `bank` is stored after a failure too. -/
def selectBank (s : Dev) (bank : UInt8) (sel : Xfer) : Dev :=
  if bank ≠ s.bank then { s.put d [0x00, bank] sel with bank := bank } else s

/-- The data transfer for `addr`, put on record. -/
def dataTransfer (s : Dev) (addr : UInt32) (msg : List UInt8) (dat : Xfer) : Dev :=
  Dev.put d { s with transfers := s.transfers ++ [(addr, s.selected)] } msg dat

/-- `cxd2850_wr_regs`; `none` is the `BUG_ON`. -/
def wrRegs (s : Dev) (addr : UInt32) (data : List UInt8) (sel dat : Xfer) : Option (ℤ × Dev) :=
  if data.length > 256 then none
  else
    let s := selectBank d s (mBank addr) sel
    let s := dataTransfer d s addr (mReg addr :: data) dat
    some (if dat.ok = true then 0 else -eremoteio, s)

/-- `cxd2850_rd_regs`, with the bytes the demodulator would send; they are copied out only if both
messages went through. -/
def rdRegs (s : Dev) (addr : UInt32) (len : ℕ) (reply : List UInt8) (sel dat : Xfer) :
    Option (ℤ × List UInt8 × Dev) :=
  if len > 256 then none
  else
    let s := selectBank d s (mBank addr) sel
    let s := dataTransfer d s addr [mReg addr] dat
    some (if dat.ok = true then (0, reply.take len, s) else (-eremoteio, [], s))

/-- `cxd2850_wr_reg`. -/
def wrReg (s : Dev) (reg : UInt32) (val : UInt8) (sel dat : Xfer) : Option (ℤ × Dev) :=
  wrRegs d s reg [val] sel dat

/-- `cxd2850_rd_reg`. -/
def rdReg (s : Dev) (reg : UInt32) (reply : UInt8) (sel dat : Xfer) : Option (ℤ × List UInt8 × Dev) :=
  rdRegs d s reg 1 [reply] sel dat

/-- `cxd2850_wr_reg_mask`: a read first, unless the mask is full, and nothing more if it fails. -/
def wrRegMask (s : Dev) (reg : UInt32) (val mask reply : UInt8) (rsel rdat wsel wdat : Xfer) :
    Option (ℤ × Dev) :=
  if mask ≠ 0xff then
    match rdReg d s reg reply rsel rdat with
    | none => none
    | some (ret, data, s) =>
      if ret ≠ 0 then some (ret, s)
      else wrReg d s reg ((val &&& mask) ||| (data.getD 0 0 &&& ~~~mask)) wsel wdat
  else wrReg d s reg val wsel wdat

/-! ### Writes one after another -/

/-- A call of `cxd2850_wr_reg` or `cxd2850_wr_regs`. -/
structure Write where
  addr : UInt32
  data : List UInt8
deriving DecidableEq

/-- Writes one after another, each followed by `if (ret) goto err`: the result, and the writes that
were made.  `ok i` says whether the `i`-th transfer of the call succeeds. -/
def runWrites (ok : ℕ → Bool) : ℕ → List Write → ℤ × List Write
  | _, [] => (0, [])
  | i, w :: ws =>
    if ok i = true then
      let r := runWrites ok (i + 1) ws
      (r.1, w :: r.2)
    else (-eremoteio, [w])

/-- The result of `cxd2850_wr_regs` is that of its data transfer. -/
theorem wrRegs_outcome (s : Dev) (addr : UInt32) {data : List UInt8} (sel dat : Xfer) (hlen : data.length ≤ 256) :
    (wrRegs d s addr data sel dat).map (·.1) = some (if dat.ok = true then 0 else -eremoteio) := by
  rw [wrRegs, if_neg (Nat.not_lt.mpr hlen)]
  rfl

theorem runWrites_begin (ok : ℕ → Bool) (i : ℕ) (ws : List Write) :
    (runWrites ok i ws).2 <+: ws ∧ ((runWrites ok i ws).1 = 0 → (runWrites ok i ws).2 = ws) := by
  induction ws generalizing i with
  | nil => exact ⟨List.prefix_rfl, fun _ => rfl⟩
  | cons w ws ih =>
    obtain ⟨hbegin, hall⟩ := ih (i + 1)
    unfold runWrites
    by_cases hok : ok i = true
    · rw [if_pos hok]
      refine ⟨List.cons_prefix_cons.mpr ⟨rfl, hbegin⟩, fun hret => ?_⟩
      show w :: _ = w :: ws
      rw [hall hret]
    · rw [if_neg hok]
      refine ⟨List.cons_prefix_cons.mpr ⟨rfl, List.nil_prefix⟩, fun hret => ?_⟩
      have hneg : -eremoteio = 0 := hret
      exact absurd hneg (by decide)

theorem runWrites_true (i : ℕ) (ws : List Write) : runWrites (fun _ => true) i ws = (0, ws) := by
  induction ws generalizing i with
  | nil => rfl
  | cons w ws ih => rw [runWrites, if_pos rfl, ih]

/-! ### Runs -/

/-- One call of an accessor with what becomes of its transfers. -/
inductive Op where
  | wrRegs (addr : UInt32) (data : List UInt8) (sel dat : Xfer)
  | rdRegs (addr : UInt32) (len : ℕ) (reply : List UInt8) (sel dat : Xfer)
  | wrReg (reg : UInt32) (val : UInt8) (sel dat : Xfer)
  | rdReg (reg : UInt32) (reply : UInt8) (sel dat : Xfer)

def step (s : Dev) : Op → Option Dev
  | .wrRegs addr data sel dat => (wrRegs d s addr data sel dat).map (·.2)
  | .rdRegs addr len reply sel dat => (rdRegs d s addr len reply sel dat).map (·.2.2)
  | .wrReg reg val sel dat => (wrReg d s reg val sel dat).map (·.2)
  | .rdReg reg reply sel dat => (rdReg d s reg reply sel dat).map (·.2.2)

namespace Op

def addr : Op → UInt32
  | .wrRegs addr _ _ _ | .rdRegs addr _ _ _ _ | .wrReg addr _ _ _ | .rdReg addr _ _ _ => addr

def msg : Op → List UInt8
  | .wrRegs addr data _ _ => mReg addr :: data
  | .rdRegs addr _ _ _ _ => [mReg addr]
  | .wrReg addr val _ _ => [mReg addr, val]
  | .rdReg addr _ _ _ => [mReg addr]

def sel : Op → Xfer
  | .wrRegs _ _ sel _ | .rdRegs _ _ _ sel _ | .wrReg _ _ sel _ | .rdReg _ _ sel _ => sel

def dat : Op → Xfer
  | .wrRegs _ _ _ dat | .rdRegs _ _ _ _ dat | .wrReg _ _ _ dat | .rdReg _ _ _ dat => dat

/-- The count the `BUG_ON` looks at. -/
def len : Op → ℕ
  | .wrRegs _ data _ _ => data.length
  | .rdRegs _ len _ _ _ => len
  | .wrReg _ _ _ _ | .rdReg _ _ _ _ => 1

end Op

def access (s : Dev) (o : Op) : Dev :=
  dataTransfer d (selectBank d s (mBank o.addr) o.sel) o.addr o.msg o.dat

theorem rdRegs_dev (s : Dev) (addr : UInt32) (len : ℕ) (reply : List UInt8) (sel dat : Xfer)
    (h : ¬ len > 256) : (rdRegs d s addr len reply sel dat).map (·.2.2)
      = some (access d s (.rdRegs addr len reply sel dat)) := by
  unfold rdRegs
  rw [if_neg h]
  cases dat.ok <;> rfl

theorem step_eq (s : Dev) (o : Op) : step d s o = if o.len > 256 then none else some (access d s o) := by
  cases o with
  | wrRegs addr data sel dat =>
    by_cases h : data.length > 256
    · simp [step, wrRegs, Op.len, h]
    · simp only [step, wrRegs, Op.len, h, if_false]
      rfl
  | rdRegs addr len reply sel dat =>
    by_cases h : len > 256
    · simp [step, rdRegs, Op.len, h]
    · rw [step, rdRegs_dev d s addr len reply sel dat h]
      exact (if_neg h).symm
  | wrReg reg val sel dat => rfl
  | rdReg reg reply sel dat => exact rdRegs_dev d s reg 1 [reply] sel dat (by omega)

def InBank (s : Dev) : Prop := ∀ t ∈ s.transfers, t.2 = mBank t.1

/-- Every data transfer up to and including that of the call met the bank of its address. -/
def MeetsBank (s : Dev) (o : Op) : Prop := ∀ s', step d s o = some s' → InBank s'

/-- A select that the call puts on the bus is taken by the demodulator. -/
def SelectTaken (s : Dev) (o : Op) : Prop :=
  o.len ≤ 256 → mBank o.addr ≠ s.bank → o.sel.taken = true

instance (s : Dev) (o : Op) : Decidable (SelectTaken s o) :=
  inferInstanceAs (Decidable (_ → _ → _))

/-- The data message does not reach into the bank register behind the driver's back. -/
def KeepsBank (o : Op) : Prop := d.write (mBank o.addr) o.msg = mBank o.addr

/-! ### One access -/

theorem selectBank_selected_iff {s : Dev} (hs : s.selected = s.bank) (bank : UInt8) (sel : Xfer) :
    (selectBank d s bank sel).selected = bank ↔ (bank ≠ s.bank → sel.taken = true) := by
  unfold selectBank Dev.put
  by_cases hb : bank = s.bank
  · simp [hb, hs]
  · rw [if_pos hb]
    by_cases ht : sel.taken = true
    · simp [ht, d.write_select]
    · rw [if_neg ht]
      refine iff_of_false (fun h => hb ?_) (fun h => ht (h hb))
      rw [← h]
      exact hs

theorem selectBank_bank (s : Dev) (bank : UInt8) (sel : Xfer) :
    (selectBank d s bank sel).bank = bank := by
  unfold selectBank
  split
  · rfl
  · rename_i h
    exact (not_not.mp h).symm

theorem selectBank_transfers (s : Dev) (bank : UInt8) (sel : Xfer) :
    (selectBank d s bank sel).transfers = s.transfers := by
  unfold selectBank Dev.put
  split
  · split <;> rfl
  · rfl

theorem access_transfers (s : Dev) (o : Op) : (access d s o).transfers =
    s.transfers ++ [(o.addr, (selectBank d s (mBank o.addr) o.sel).selected)] := by
  unfold access dataTransfer Dev.put
  rw [selectBank_transfers]
  split <;> rfl

/-- **One access** meets its bank exactly if its select, where it makes one, is taken. -/
theorem access_bank_iff {s : Dev} (hs : s.selected = s.bank) (hin : InBank s) (o : Op) :
    InBank (access d s o) ↔ (mBank o.addr ≠ s.bank → o.sel.taken = true) := by
  rw [← selectBank_selected_iff d hs]
  unfold InBank
  rw [access_transfers]
  constructor
  · intro h
    exact h (o.addr, (selectBank d s (mBank o.addr) o.sel).selected) (by simp)
  · intro h t ht
    rcases List.mem_append.mp ht with ht | ht
    · exact hin t ht
    · rw [List.mem_singleton.mp ht]
      exact h

theorem access_coherent {s : Dev} (hs : s.selected = s.bank) {o : Op} (hk : KeepsBank d o)
    (ht : mBank o.addr ≠ s.bank → o.sel.taken = true) :
    (access d s o).selected = (access d s o).bank := by
  have hsel := (selectBank_selected_iff d hs (mBank o.addr) o.sel).mpr ht
  have hbank := selectBank_bank d s (mBank o.addr) o.sel
  unfold access dataTransfer Dev.put
  split
  · show d.write (selectBank d s (mBank o.addr) o.sel).selected o.msg = _
    rw [hsel, hk]
    exact hbank.symm
  · show (selectBank d s (mBank o.addr) o.sel).selected = (selectBank d s (mBank o.addr) o.sel).bank
    rw [hsel, hbank]

theorem meetsBank_iff {s : Dev} (hs : s.selected = s.bank) (hin : InBank s) (o : Op) :
    MeetsBank d s o ↔ SelectTaken s o := by
  unfold MeetsBank SelectTaken
  rw [step_eq]
  by_cases hl : o.len > 256
  · simp [hl, show ¬ o.len ≤ 256 by omega]
  · rw [if_neg hl]
    simp only [Option.some.injEq, forall_eq', show o.len ≤ 256 by omega, forall_true_left]
    exact access_bank_iff d hs hin o

/-! ### Register bank coherence -/

/-- **Every run.**  From a state in which the driver remembers the selected bank, with writes that
stay out of the bank register, every data transfer meets the bank of its address exactly if every
select that is put on the bus is taken. -/
theorem along_inBank_iff (ops : List Op) (s : Dev) (hs : s.selected = s.bank)
    (hin : s.transfers = []) (hk : ∀ o ∈ ops, KeepsBank d o) :
    Along (step d) (MeetsBank d) s ops ↔ Along (step d) SelectTaken s ops := by
  have hrun : ∀ s : Dev, s.selected = s.bank → InBank s →
      (Along (step d) (MeetsBank d) s ops ↔ Along (step d) SelectTaken s ops) := by
    clear hs hin s
    induction ops with
    | nil =>
      intro s _ _
      exact Iff.rfl
    | cons o os ih =>
      intro s hs hin
      rw [along_cons, along_cons, meetsBank_iff d hs hin]
      refine and_congr_right fun ht => forall_congr' fun s' => imp_congr_right fun hstep => ?_
      rw [step_eq] at hstep
      split at hstep
      · exact absurd hstep (by simp)
      · rename_i hl
        obtain rfl := Option.some.inj hstep
        have htaken := ht (by omega)
        exact ih (fun o ho => hk o (List.mem_cons_of_mem _ ho)) _
          (access_coherent d hs (hk o List.mem_cons_self) htaken)
          ((access_bank_iff d hs hin o).mpr htaken)
  exact hrun s hs (by rw [InBank, hin]; simp)

/-- The bank register of the chip: register `0x00` of every bank. -/
def demod : Demod where
  write b
    | 0x00 :: v :: _ => v
    | _ => b
  write_select _ _ := rfl
  write_pointer b r := by
    split
    · rename_i h
      exact absurd h (by simp)
    · rfl

/-- A tune that selects bank `0x44` and is answered. -/
theorem along_inBank_tune :
    (∀ o ∈ [Op.wrReg 0x4430 0x01 .done .done, .rdReg 0x4430 0x01 .done .lost], KeepsBank demod o) ∧
      Along (step demod) (MeetsBank demod) ⟨0, 0, []⟩
        [Op.wrReg 0x4430 0x01 .done .done, .rdReg 0x4430 0x01 .done .lost] := by
  have hk : ∀ o ∈ [Op.wrReg 0x4430 0x01 .done .done, .rdReg 0x4430 0x01 .done .lost],
      KeepsBank demod o := by
    intro o ho
    simp only [List.mem_cons, List.not_mem_nil, or_false] at ho
    rcases ho with rfl | rfl <;> rfl
  exact ⟨hk, (along_inBank_iff demod _ ⟨0, 0, []⟩ rfl rfl hk).mpr (by decide)⟩

/-- The select of bank `0x44` is lost; the data transfer goes to bank `0x00` all the same. -/
theorem not_inBank_lost_select :
    ¬ Along (step demod) (MeetsBank demod) ⟨0, 0, []⟩ [Op.wrReg 0x4430 0x01 .lost .done] := by
  intro h
  have hlog := h.1 _ rfl (0x4430, 0x00) (by decide)
  exact absurd hlog (by decide)

end BgtDvb.Cxd2850
