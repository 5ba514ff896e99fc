import BgtDvb.Cxd2817Tune

/-!
# The statistics of the CXD2817

`cxd2817_read_snr`, `cxd2817_read_ber`, `cxd2817_read_ucblocks` and `cxd2817_caroffst` freeze the registers by a write to
register 1, read, and release the freeze.  Their exits meet at labels in front of the release or behind it, and the result
of the release takes the place of that of a failed read.

* `rdRegs_outcome` — **PROVED**: an access of `Cxd2817` is one of these;
* `stats_sound_iff` — **PROVED**: the accesses with which each function is sound, for all outcomes.
-/

namespace BgtDvb.Cxd2817

open BgtDvb.Cxd2850 (Xfer Demod eremoteio)

def eagain : ℤ := 11

/-! ### Accesses -/

/-- What becomes of the accesses of a call, one after another, and of the release of the freeze, and what the registers
hold, by their full numbers.  No call reads a register twice. -/
structure Transfers where
  xfer : ℕ → Xfer
  release : Xfer
  content : UInt32 → UInt8

/-- The register that an access for `reg` meets: a select selects nothing (`selectBank_selected`), so it is the one of
that number in bank 0 at the address. -/
def reached (reg : UInt32) : UInt32 := reg &&& 0x100ff

/-- Select and data transfer of an access as one: it succeeds if both do, and reaches the register by the second. -/
def accessXfer (s : Bus) (reg : UInt32) (sel dat : Xfer) : Xfer where
  ok := (mBank reg == s.bank || sel.ok) && dat.ok
  taken := (mBank reg == s.bank || sel.ok) && dat.taken
  taken_of_ok h := by
    rw [Bool.and_eq_true] at h ⊢
    exact ⟨h.1, dat.taken_of_ok h.2⟩

theorem selectBank_fst (d : Demod) (addr : UInt8) (s : Bus) (reg : UInt32) (sel : Xfer) :
    (selectBank d addr s reg sel).1 = (mBank reg == s.bank || sel.ok) := by
  rw [Bool.eq_iff_iff, selectBank_goesOn, Bool.or_eq_true, beq_iff_eq]

theorem rdRegs_outcome (d : Demod) (addr : UInt8) (s : Bus) (reg : UInt32) {len : ℕ} (reply : List UInt8)
    (sel dat : Xfer) (hlen : len ≤ 257) : (rdRegs d addr s reg len reply sel dat).map (·.1) =
      some (if (accessXfer s reg sel dat).ok = true then 0 else -eremoteio) := by
  rw [rdRegs, selectBank_fst]
  cases hgo : mBank reg == s.bank || sel.ok with
  | false =>
    simp [accessXfer, hgo]
  | true =>
    simp only [accessXfer, hgo, Bool.true_and, Bool.true_eq_false, if_false, if_neg (Nat.not_lt.mpr hlen)]
    cases dat.ok <;> rfl

/-- The accesses made so far, the freeze that is set, and whether an access other than a release failed. -/
structure StatRun where
  accesses : ℕ
  frozen : Option UInt32
  failed : Bool

def StatRun.start : StatRun := ⟨0, none, false⟩

abbrev Data := ℕ → UInt8

section Access

variable (t : Transfers)

def StatRun.wr (r : StatRun) : ℤ × StatRun :=
  let x := t.xfer r.accesses
  (if x.ok = true then 0 else -eremoteio,
    { r with accesses := r.accesses + 1, failed := r.failed || !x.ok })

/-- `cxd2817_wr(cxd2817, reg, 0x01)` on a freeze register. -/
def StatRun.freeze (r : StatRun) (reg : UInt32) : ℤ × StatRun :=
  let x := t.xfer r.accesses
  ((r.wr t).1, { (r.wr t).2 with frozen := if x.taken = true then some reg else r.frozen })

/-- `cxd2817_wr(cxd2817, reg, 0x00)` on a freeze register. -/
def StatRun.unfreeze (r : StatRun) (reg : UInt32) : ℤ × StatRun :=
  (if t.release.ok = true then 0 else -eremoteio,
    { r with frozen := if t.release.taken = true ∧ r.frozen = some reg then none else r.frozen })

/-- `cxd2817_rd_regs`: the bytes are copied after a success only. -/
def StatRun.rdRegs (r : StatRun) (reg : UInt32) (data : Data) (len : ℕ) : ℤ × Data × StatRun :=
  let x := t.xfer r.accesses
  ((r.wr t).1, (fun i => if x.ok = true ∧ i < len then t.content (reached reg + UInt32.ofNat i) else data i),
    (r.wr t).2)

end Access

/-! ### The functions -/

section Stats

variable (t : Transfers)

/-- `enum cxd2817_qam_const`, by its numbers. -/
def qam16 : UInt8 := 0
def qam32 : UInt8 := 1
def qam64 : UInt8 := 2
def qam128 : UInt8 := 3
def qam256 : UInt8 := 4

/-- The signal to noise ratio of DVB-T from the label `errt` on. -/
def snrErrt (intlog10 : UInt32 → UInt32) (data : Data) (r : StatRun) : ℤ × UInt16 × StatRun :=
  let a := r.unfreeze t 0x00001
  if a.1 ≠ 0 then (a.1, 0, a.2)
  else
    let tmp := ((data 0 &&& 0x1f).toUInt16 <<< 8) ||| (data 1).toUInt16
    if tmp = 0 then (a.1, 0, a.2)
    else (a.1, (10 * 10 * intlog10 tmp.toUInt32).toUInt16 - 9031, a.2)

/-- The signal to noise ratio of DVB-C from the label `errc` on. -/
def snrErrc (intlog2 : UInt32 → UInt32) (qam : UInt8) (data : Data) (r : StatRun) : ℤ × UInt16 × StatRun :=
  let a := r.unfreeze t 0x10001
  if a.1 ≠ 0 then (a.1, 0, a.2)
  else if qam = qam16 ∨ qam = qam64 ∨ qam = qam256 then
    (a.1, ((0 - 95) * intlog2 (data 0).toUInt32 + 63017).toUInt16, a.2)
  else if qam = qam32 ∨ qam = qam128 then
    (a.1, (((0 - 875) * intlog2 (data 0).toUInt32 + 566735) / 10).toUInt16, a.2)
  else (-einval, 0, a.2)

/-- `cxd2817_read_snr` -/
def readSnr (intlog10 intlog2 : UInt32 → UInt32) (data : Data) (state : PowerState) (delsys : Delsys) :
    ℤ × UInt16 × StatRun :=
  if state ≠ .active then (-einval, 0, .start)
  else
    match delsys with
    | .dvbt =>
      let a := StatRun.start.freeze t 0x00001
      if a.1 ≠ 0 then snrErrt t intlog10 data a.2
      else
        let b := a.2.rdRegs t 0x00028 data 2
        snrErrt t intlog10 b.2.1 b.2.2
    | .dvbc =>
      let a := StatRun.start.freeze t 0x10001
      if a.1 ≠ 0 then (a.1, 0, a.2)
      else
        let b := a.2.rdRegs t 0x10088 data 1
        if b.1 ≠ 0 then (b.1, 0, b.2.2)
        else if b.2.1 0 &&& 0x03 = 0 then (-einval, 0, (b.2.2.unfreeze t 0x10001).2)
        else
          let c := b.2.2.rdRegs t 0x10019 b.2.1 1
          if c.1 ≠ 0 then snrErrc t intlog2 qam16 c.2.1 c.2.2
          else
            let qam := c.2.1 0 &&& 0x7
            let e := c.2.2.rdRegs t 0x1004d c.2.1 1
            snrErrc t intlog2 qam e.2.1 e.2.2
    | .none => (-einval, 0, .start)

/-- `((data[2] & 0x0f) << 16) | (data[1] << 8) | data[0]` -/
def berCount (data : Data) : UInt32 :=
  ((data 2 &&& 0x0f).toUInt32 <<< 16) ||| ((data 1).toUInt32 <<< 8) ||| (data 0).toUInt32

/-- The bit error rate of DVB-C from the label `errc` on. -/
def berErrc (data : Data) (r : StatRun) : ℤ × UInt32 × StatRun :=
  let a := r.unfreeze t 0x10001
  if a.1 ≠ 0 then (a.1, 0, a.2)
  else if data 2 &&& 0x80 = 0 then (-eagain, 0, a.2)
  else (a.1, berCount data, a.2)

/-- `cxd2817_read_ber`: the result, the bit error rate, `berc_run` and the run. -/
def readBer (state : PowerState) (delsys : Delsys) (bercRun : Bool) : (ℤ × UInt32 × StatRun) × Bool :=
  if state ≠ .active then ((-einval, 0, .start), bercRun)
  else
    match delsys with
    | .dvbt =>
      if bercRun then
        let a := StatRun.start.rdRegs t 0x00076 (fun _ => 0) 3
        if a.1 ≠ 0 then ((a.1, 0, a.2.2), bercRun)
        else if a.2.1 2 &&& 0x80 = 0 then ((-eagain, 0, a.2.2), bercRun)
        else ((a.1, berCount a.2.1, a.2.2), bercRun)
      else
        let a := StatRun.start.wr t
        ((a.1, 0, a.2), true)
    | .dvbc =>
      let a := StatRun.start.freeze t 0x10001
      if a.1 ≠ 0 then (berErrc t (fun _ => 0) a.2, bercRun)
      else
        let b := a.2.rdRegs t 0x10088 (fun _ => 0) 1
        if b.1 ≠ 0 then (berErrc t b.2.1 b.2.2, bercRun)
        else if b.2.1 0 &&& 0x03 = 0 then ((-einval, 0, b.2.2), bercRun)
        else if bercRun then
          let c := b.2.2.rdRegs t 0x10072 b.2.1 3
          (berErrc t c.2.1 c.2.2, bercRun)
        else
          let c := b.2.2.wr t
          ((c.1, 0, c.2), true)
    | .none => ((-einval, 0, .start), bercRun)

/-- The uncorrected blocks from the label in front of the release on. -/
def ucblocksErr (reg : UInt32) (data : Data) (r : StatRun) : ℤ × UInt32 × StatRun :=
  let a := r.unfreeze t reg
  if a.1 ≠ 0 then (a.1, 0, a.2)
  else (a.1, ((data 0 &&& 0x0f).toUInt32 <<< 8) ||| (data 1).toUInt32, a.2)

/-- `cxd2817_read_ucblocks` -/
def readUcblocks (data : Data) (delsys : Delsys) : ℤ × UInt32 × StatRun :=
  match delsys with
  | .dvbt =>
    let a := StatRun.start.freeze t 0x00001
    if a.1 ≠ 0 then ucblocksErr t 0x00001 data a.2
    else
      let b := a.2.rdRegs t 0x000ea data 2
      ucblocksErr t 0x00001 b.2.1 b.2.2
  | .dvbc =>
    let a := StatRun.start.freeze t 0x10001
    if a.1 ≠ 0 then ucblocksErr t 0x10001 data a.2
    else
      let b := a.2.rdRegs t 0x10088 data 1
      if b.1 ≠ 0 then ucblocksErr t 0x10001 b.2.1 b.2.2
      else if b.2.1 0 &&& 0x03 = 0 then (-einval, 0, b.2.2)
      else
        let c := b.2.2.rdRegs t 0x100ea b.2.1 2
        ucblocksErr t 0x10001 c.2.1 c.2.2
  | .none => (-einval, 0, .start)

/-! ### The carrier offset -/

/-- `MASK_HI` -/
def maskHi (n : UInt32) : UInt32 := if n = 0 then 0 else 0xffffffff <<< (32 - n)

/-- `MASK_LO` -/
def maskLo (n : UInt32) : UInt32 := if n = 0 then 0 else 0xffffffff >>> (32 - n)

/-- `cxd2817_comp` -/
def comp (val bLen : UInt32) : Int32 :=
  if bLen = 0 ∨ bLen ≥ 32 then val.toInt32
  else if val &&& (1 <<< (bLen - 1)) ≠ 0 then (maskHi (32 - bLen) ||| val).toInt32
  else (maskLo bLen &&& val).toInt32

/-- The four bytes of the carrier offset of DVB-T as they are put together: the shift of the mask comes before the `&`. -/
def caroffstVal (data : Data) : UInt32 :=
  ((data 0).toUInt32 &&& ((0x1f : UInt32) <<< 24)) ||| ((data 1).toUInt32 <<< 16) ||| ((data 2).toUInt32 <<< 8) |||
    (data 3).toUInt32

def caroffstDiv (bw : UInt32) : Option Int32 :=
  if bw = 6000000 then some 39147
  else if bw = 7000000 then some 33554
  else if bw = 8000000 then some 29360
  else none

def caroffstErr (reg : UInt32) (offst : Int32) (r : StatRun) : ℤ × Int32 × StatRun :=
  let a := r.unfreeze t reg
  (a.1, offst, a.2)

/-- `cxd2817_caroffst` -/
def caroffst (data : Data) (delsys : Delsys) (bw : UInt32) : ℤ × Int32 × StatRun :=
  match delsys with
  | .dvbt =>
    let a := StatRun.start.freeze t 0x00001
    if a.1 ≠ 0 then caroffstErr t 0x00001 0 a.2
    else
      let b := a.2.rdRegs t 0x0004c data 4
      if b.1 ≠ 0 then caroffstErr t 0x00001 0 b.2.2
      else
        let offst := -comp (caroffstVal b.2.1) 29
        match caroffstDiv bw with
        | none => (-einval, offst, b.2.2)
        | some k =>
          let offst := offst / k
          let c := b.2.2.rdRegs t 0x07c6 b.2.1 1
          if c.1 ≠ 0 then caroffstErr t 0x00001 offst c.2.2
          else caroffstErr t 0x00001 (if c.2.1 0 &&& 0x01 ≠ 0 then offst * -1 else offst) c.2.2
  | .dvbc =>
    let a := StatRun.start.freeze t 0x10001
    if a.1 ≠ 0 then caroffstErr t 0x10001 0 a.2
    else
      let b := a.2.rdRegs t 0x10015 data 2
      if b.1 ≠ 0 then caroffstErr t 0x10001 0 b.2.2
      else
        let val := ((b.2.1 0 &&& 0x3f).toUInt32 <<< 8) ||| (b.2.1 1).toUInt32
        let offst := comp val 14
        let c := b.2.2.rdRegs t 0x10019 b.2.1 1
        if c.1 ≠ 0 then caroffstErr t 0x10001 offst c.2.2
        else caroffstErr t 0x10001 (if c.2.1 0 &&& 0x80 = 0 then offst * -1 else offst) c.2.2
  | .none => (-einval, 0, .start)

end Stats

/-! ### When the freeze is released and failures are reported -/

def StatSound {α : Type} (x : ℤ × α × StatRun) : Prop := x.2.2.frozen = none ∧ (x.2.2.failed = true → x.1 < 0)

/-- A constellation that `cxd2817_read_snr` knows. -/
def IsQam (qam : UInt8) : Prop := (qam = qam16 ∨ qam = qam64 ∨ qam = qam256) ∨ qam = qam32 ∨ qam = qam128

def Transfers.Ok (t : Transfers) (n : ℕ) : Prop := (t.xfer n).ok = true

def Transfers.Locked (t : Transfers) : Prop := t.content 0x10088 &&& 0x03 ≠ 0

section Steps

variable {t : Transfers}

variable {r : StatRun} {reg : UInt32}

theorem freeze_ok (h : t.Ok r.accesses) : r.freeze t reg = (0, ⟨r.accesses + 1, some reg, r.failed⟩) := by
  have hok : (t.xfer r.accesses).ok = true := h
  simp [StatRun.freeze, StatRun.wr, hok, (t.xfer r.accesses).taken_of_ok hok]

theorem freeze_failed (h : ¬t.Ok r.accesses) : r.freeze t reg =
    (-eremoteio, ⟨r.accesses + 1, if (t.xfer r.accesses).taken = true then some reg else r.frozen, true⟩) := by
  have hok : (t.xfer r.accesses).ok = false := Bool.not_eq_true _ ▸ h
  simp [StatRun.freeze, StatRun.wr, hok]

theorem wr_ok (h : t.Ok r.accesses) : r.wr t = (0, ⟨r.accesses + 1, r.frozen, r.failed⟩) := by
  have hok : (t.xfer r.accesses).ok = true := h
  simp [StatRun.wr, hok]

theorem wr_failed (h : ¬t.Ok r.accesses) : r.wr t = (-eremoteio, ⟨r.accesses + 1, r.frozen, true⟩) := by
  have hok : (t.xfer r.accesses).ok = false := Bool.not_eq_true _ ▸ h
  simp [StatRun.wr, hok]

def readInto (t : Transfers) (reg : UInt32) (data : Data) (len : ℕ) : Data := fun i =>
  if i < len then t.content (reached reg + UInt32.ofNat i) else data i

theorem rdRegs_ok {data : Data} {len : ℕ} (h : t.Ok r.accesses) :
    r.rdRegs t reg data len = (0, readInto t reg data len, ⟨r.accesses + 1, r.frozen, r.failed⟩) := by
  have hok : (t.xfer r.accesses).ok = true := h
  unfold StatRun.rdRegs
  rw [wr_ok h]
  simp only [hok, true_and]
  rfl

theorem rdRegs_failed {data : Data} {len : ℕ} (h : ¬t.Ok r.accesses) :
    r.rdRegs t reg data len = (-eremoteio, data, ⟨r.accesses + 1, r.frozen, true⟩) := by
  have hok : (t.xfer r.accesses).ok = false := Bool.not_eq_true _ ▸ h
  unfold StatRun.rdRegs
  rw [wr_failed h]
  simp only [hok, Bool.false_eq_true, false_and, if_false]

theorem unfreeze_eq (hrel : t.release.ok = true) (hfree : r.frozen = none ∨ r.frozen = some reg) :
    r.unfreeze t reg = (0, { r with frozen := none }) := by
  unfold StatRun.unfreeze
  rw [if_pos hrel]
  rcases hfree with hfree | hfree
  · rw [hfree, ite_self]
  · rw [if_pos ⟨t.release.taken_of_ok hrel, hfree⟩]

theorem neg_eremoteio : -eremoteio < 0 := by decide

theorem neg_eremoteio_ne : -eremoteio ≠ 0 := by decide

theorem neg_einval : -einval < 0 := by decide

theorem neg_eagain : -eagain < 0 := by decide

end Steps

/-! The labels in front of the release: what is returned there is the result of the release. -/

section Labels

variable {t : Transfers} (hrel : t.release.ok = true) {r : StatRun} {reg : UInt32}

include hrel

theorem snrErrt_sound (intlog10 : UInt32 → UInt32) (data : Data) (hfree : r.frozen = none ∨ r.frozen = some 0x00001) :
    StatSound (snrErrt t intlog10 data r) ↔ r.failed = false := by
  have hret : (snrErrt t intlog10 data r).1 = 0 ∧ (snrErrt t intlog10 data r).2.2 = { r with frozen := none } := by
    unfold snrErrt
    rw [unfreeze_eq hrel hfree]
    dsimp only
    rw [if_neg (not_not.mpr rfl)]
    split <;> exact ⟨rfl, rfl⟩
  unfold StatSound
  rw [hret.1, hret.2]
  simp

theorem snrErrc_sound (intlog2 : UInt32 → UInt32) (qam : UInt8) (data : Data)
    (hfree : r.frozen = none ∨ r.frozen = some 0x10001) :
    StatSound (snrErrc t intlog2 qam data r) ↔ r.failed = false ∨ ¬IsQam qam := by
  unfold snrErrc
  rw [unfreeze_eq hrel hfree]
  dsimp only
  rw [if_neg (not_not.mpr rfl)]
  by_cases hlow : qam = qam16 ∨ qam = qam64 ∨ qam = qam256
  · have hqam : ¬¬IsQam qam := not_not.mpr (Or.inl hlow)
    rw [if_pos hlow, or_iff_left hqam]
    simp [StatSound]
  · rw [if_neg hlow]
    by_cases hhigh : qam = qam32 ∨ qam = qam128
    · have hqam : ¬¬IsQam qam := not_not.mpr (Or.inr hhigh)
      rw [if_pos hhigh, or_iff_left hqam]
      simp [StatSound]
    · rw [if_neg hhigh]
      exact iff_of_true ⟨rfl, fun _ => neg_einval⟩ (Or.inr fun h => h.elim hlow hhigh)

theorem berErrc_sound (data : Data) (hfree : r.frozen = none ∨ r.frozen = some 0x10001) :
    StatSound (berErrc t data r) ↔ r.failed = false ∨ data 2 &&& 0x80 = 0 := by
  unfold berErrc
  rw [unfreeze_eq hrel hfree]
  dsimp only
  rw [if_neg (not_not.mpr rfl)]
  by_cases hvalid : data 2 &&& 0x80 = 0
  · rw [if_pos hvalid]
    exact iff_of_true ⟨rfl, fun _ => neg_eagain⟩ (Or.inr hvalid)
  · rw [if_neg hvalid]
    unfold StatSound
    simp [hvalid]

theorem ucblocksErr_sound (data : Data) (hfree : r.frozen = none ∨ r.frozen = some reg) :
    StatSound (ucblocksErr t reg data r) ↔ r.failed = false := by
  unfold ucblocksErr
  rw [unfreeze_eq hrel hfree]
  unfold StatSound
  simp

theorem caroffstErr_sound (offst : Int32) (hfree : r.frozen = none ∨ r.frozen = some reg) :
    StatSound (caroffstErr t reg offst r) ↔ r.failed = false := by
  unfold caroffstErr
  rw [unfreeze_eq hrel hfree]
  unfold StatSound
  simp

/-- The last read in front of the label. -/
theorem ucblocksRead_sound {reg' : UInt32} (data : Data) (len : ℕ) (hfree : r.frozen = none ∨ r.frozen = some reg)
    (hgood : r.failed = false) :
    StatSound (ucblocksErr t reg (r.rdRegs t reg' data len).2.1 (r.rdRegs t reg' data len).2.2) ↔ t.Ok r.accesses := by
  by_cases h : t.Ok r.accesses
  · rw [rdRegs_ok h]
    exact (ucblocksErr_sound hrel _ (by exact hfree)).trans (iff_of_true hgood h)
  · rw [rdRegs_failed h]
    exact (ucblocksErr_sound hrel _ (by exact hfree)).trans (iff_of_false Bool.noConfusion h)

theorem caroffstRead_sound {reg' : UInt32} (data : Data) (len : ℕ) (offst : Int32) (f : Data → Int32)
    (hfree : r.frozen = none ∨ r.frozen = some reg) (hgood : r.failed = false) :
    StatSound (if (r.rdRegs t reg' data len).1 ≠ 0 then caroffstErr t reg offst (r.rdRegs t reg' data len).2.2
      else caroffstErr t reg (f (r.rdRegs t reg' data len).2.1) (r.rdRegs t reg' data len).2.2) ↔ t.Ok r.accesses := by
  by_cases h : t.Ok r.accesses
  · rw [rdRegs_ok h]
    dsimp only
    rw [if_neg (not_not.mpr rfl)]
    exact (caroffstErr_sound hrel _ (by exact hfree)).trans (iff_of_true hgood h)
  · rw [rdRegs_failed h]
    dsimp only
    rw [if_pos neg_eremoteio_ne]
    exact (caroffstErr_sound hrel _ (by exact hfree)).trans (iff_of_false Bool.noConfusion h)

end Labels

/-! ### The conditions -/

section Conditions

variable (t : Transfers)

/-- `cxd2817_read_snr`: nothing fails in DVB-T.  In DVB-C a freeze that fails did not reach the register, the lock is read,
and under a lock the constellation is read, and also the error, unless the constellation is refused. -/
def SnrGood (delsys : Delsys) : Prop :=
  match delsys with
  | .dvbt => t.Ok 0 ∧ t.Ok 1
  | .dvbc =>
    (¬t.Ok 0 → (t.xfer 0).taken = false) ∧
      (t.Ok 0 → t.Ok 1 ∧ (t.Locked → t.Ok 2 ∧ (t.Ok 3 ∨ ¬IsQam (t.content 0x10019 &&& 0x7))))
  | .none => True

/-- `cxd2817_read_ber`: in DVB-C, when the freeze is set and the lock is read, there is a lock and the counter runs. -/
def BerGood (delsys : Delsys) (bercRun : Bool) : Prop :=
  delsys = .dvbc → t.Ok 0 → t.Ok 1 → t.Locked ∧ bercRun = true

/-- `cxd2817_read_ucblocks`: nothing fails, and in DVB-C there is a lock. -/
def UcblocksGood (delsys : Delsys) : Prop :=
  match delsys with
  | .dvbt => t.Ok 0 ∧ t.Ok 1
  | .dvbc => t.Ok 0 ∧ t.Ok 1 ∧ t.Locked ∧ t.Ok 2
  | .none => True

/-- `cxd2817_caroffst`: nothing fails, and in DVB-T the bandwidth is one of the three. -/
def CaroffstGood (delsys : Delsys) (bw : UInt32) : Prop :=
  match delsys with
  | .dvbt => t.Ok 0 ∧ t.Ok 1 ∧ (caroffstDiv bw).isSome = true ∧ t.Ok 2
  | .dvbc => t.Ok 0 ∧ t.Ok 1 ∧ t.Ok 2
  | .none => True

end Conditions

section Sound

variable {t : Transfers} (hrel : t.release.ok = true)

theorem statSound_start {α : Type} (x : α) : StatSound (-einval, x, StatRun.start) :=
  ⟨rfl, fun h => absurd h Bool.false_ne_true⟩

theorem frozen_or {x : Xfer} {reg : UInt32} :
    (if x.taken = true then some reg else none) = none ∨ (if x.taken = true then some reg else none) = some reg := by
  by_cases htaken : x.taken = true
  · rw [if_pos htaken]
    exact Or.inr rfl
  · rw [if_neg htaken]
    exact Or.inl rfl

include hrel

theorem readSnr_sound_iff (intlog10 intlog2 : UInt32 → UInt32) (data : Data) (state : PowerState) (delsys : Delsys) :
    StatSound (readSnr t intlog10 intlog2 data state delsys) ↔ (state = .active → SnrGood t delsys) := by
  unfold readSnr
  by_cases hstate : state = .active
  · rw [if_neg (not_not.mpr hstate), imp_iff_right hstate]
    cases delsys with
    | none => exact iff_of_true (statSound_start _) trivial
    | dvbt =>
      show StatSound (if _ then _ else _) ↔ t.Ok 0 ∧ t.Ok 1
      by_cases h0 : t.Ok 0
      · rw [freeze_ok h0, if_neg (not_not.mpr rfl), and_iff_right h0]
        by_cases h1 : t.Ok 1
        · rw [rdRegs_ok h1, snrErrt_sound hrel _ _ (Or.inr rfl)]
          exact iff_of_true rfl h1
        · rw [rdRegs_failed h1, snrErrt_sound hrel _ _ (Or.inr rfl)]
          exact iff_of_false Bool.noConfusion h1
      · -- nothing is read, and the release succeeds
        rw [freeze_failed h0, if_pos neg_eremoteio_ne, snrErrt_sound hrel _ _ frozen_or]
        exact iff_of_false Bool.noConfusion fun h => h0 h.1
    | dvbc =>
      show StatSound (if _ then _ else _) ↔ (¬t.Ok 0 → _) ∧ (t.Ok 0 → _)
      by_cases h0 : t.Ok 0
      · rw [freeze_ok h0, if_neg (not_not.mpr rfl), and_iff_right (fun h => absurd h0 h), imp_iff_right h0]
        by_cases h1 : t.Ok 1
        · rw [rdRegs_ok h1, if_neg (not_not.mpr rfl), and_iff_right h1]
          dsimp only
          by_cases hlock : readInto t 0x10088 data 1 0 &&& 0x03 = 0
          · rw [if_pos hlock, unfreeze_eq hrel (Or.inr rfl)]
            exact iff_of_true ⟨rfl, fun h => absurd h Bool.false_ne_true⟩ fun h => absurd hlock h
          · have hlocked : t.Locked := hlock
            rw [if_neg hlock, imp_iff_right hlocked]
            by_cases h2 : t.Ok 2
            · rw [rdRegs_ok h2, if_neg (not_not.mpr rfl), and_iff_right h2]
              dsimp only
              by_cases h3 : t.Ok 3
              · rw [rdRegs_ok h3, snrErrc_sound hrel _ _ _ (Or.inr rfl)]
                exact iff_of_true (Or.inl rfl) (Or.inl h3)
              · rw [rdRegs_failed h3, snrErrc_sound hrel _ _ _ (Or.inr rfl)]
                exact ⟨fun h => h.imp (fun hf => absurd hf Bool.noConfusion) id,
                  fun h => Or.inr (h.resolve_left h3)⟩
            · -- the constellation is taken for the first one
              rw [rdRegs_failed h2, if_pos neg_eremoteio_ne, snrErrc_sound hrel _ _ _ (Or.inr rfl)]
              refine iff_of_false ?_ fun h => h2 h.1
              rintro (hf | hq)
              · exact absurd hf Bool.noConfusion
              · exact hq (Or.inl (Or.inl rfl))
        · -- the exit goes past the release
          rw [rdRegs_failed h1, if_pos neg_eremoteio_ne]
          exact iff_of_false (fun h => absurd h.1 (Option.some_ne_none _)) fun h => h1 h.1
      · rw [freeze_failed h0, if_pos neg_eremoteio_ne, and_iff_left (fun h => absurd h h0), imp_iff_right h0]
        unfold StatSound
        constructor
        · intro h
          cases htaken : (t.xfer 0).taken with
          | false => rfl
          | true =>
            have hnone := h.1
            rw [show (t.xfer StatRun.start.accesses).taken = true from htaken, if_pos rfl] at hnone
            exact absurd hnone (Option.some_ne_none _)
        · intro h
          refine ⟨?_, fun _ => neg_eremoteio⟩
          show (if (t.xfer 0).taken = true then _ else _) = none
          rw [h, if_neg Bool.false_ne_true]
          rfl
  · rw [if_pos hstate]
    exact iff_of_true (statSound_start _) fun h => absurd h hstate

theorem readBer_sound_iff (state : PowerState) (delsys : Delsys) (bercRun : Bool) :
    StatSound (readBer t state delsys bercRun).1 ↔ (state = .active → BerGood t delsys bercRun) := by
  unfold readBer
  by_cases hstate : state = .active
  · rw [if_neg (not_not.mpr hstate), imp_iff_right hstate]
    cases delsys with
    | none => exact iff_of_true (statSound_start _) fun h => absurd h (by decide)
    | dvbt =>
      refine iff_of_true ?_ fun h => absurd h (by decide)
      cases bercRun with
      | true =>
        rw [if_pos rfl]
        by_cases h0 : t.Ok 0
        · rw [rdRegs_ok h0, if_neg (not_not.mpr rfl)]
          dsimp only
          split <;> exact ⟨rfl, fun h => absurd h Bool.false_ne_true⟩
        · rw [rdRegs_failed h0, if_pos neg_eremoteio_ne]
          exact ⟨rfl, fun _ => neg_eremoteio⟩
      | false =>
        rw [if_neg Bool.false_ne_true]
        by_cases h0 : t.Ok 0
        · rw [wr_ok h0]
          exact ⟨rfl, fun h => absurd h Bool.false_ne_true⟩
        · rw [wr_failed h0]
          exact ⟨rfl, fun _ => neg_eremoteio⟩
    | dvbc =>
      show StatSound (Prod.fst (if _ then _ else _)) ↔
        (Delsys.dvbc = .dvbc → t.Ok 0 → t.Ok 1 → t.Locked ∧ bercRun = true)
      rw [imp_iff_right rfl]
      by_cases h0 : t.Ok 0
      · rw [freeze_ok h0, if_neg (not_not.mpr rfl), imp_iff_right h0]
        by_cases h1 : t.Ok 1
        · rw [rdRegs_ok h1, if_neg (not_not.mpr rfl), imp_iff_right h1]
          dsimp only
          by_cases hlock : readInto t 0x10088 (fun _ => 0) 1 0 &&& 0x03 = 0
          · -- the exit goes past the release
            rw [if_pos hlock]
            exact iff_of_false (fun h => absurd h.1 (Option.some_ne_none _)) fun h => h.1 hlock
          · have hlocked : t.Locked := hlock
            rw [if_neg hlock, and_iff_right hlocked]
            cases bercRun with
            | true =>
              rw [if_pos rfl]
              refine iff_of_true ?_ rfl
              by_cases h2 : t.Ok 2
              · rw [rdRegs_ok h2]
                exact (berErrc_sound hrel _ (Or.inr rfl)).mpr (Or.inl rfl)
              · rw [rdRegs_failed h2]
                exact (berErrc_sound hrel _ (Or.inr rfl)).mpr (Or.inr (show (0 : UInt8) &&& 0x80 = 0 by decide))
            | false =>
              -- no release here
              rw [if_neg Bool.false_ne_true]
              refine iff_of_false ?_ Bool.false_ne_true
              by_cases h2 : t.Ok 2
              · rw [wr_ok h2]
                exact fun h => absurd h.1 (Option.some_ne_none _)
              · rw [wr_failed h2]
                exact fun h => absurd h.1 (Option.some_ne_none _)
        · -- the array is still zero: the counter does not look valid
          rw [rdRegs_failed h1, if_pos neg_eremoteio_ne]
          exact iff_of_true ((berErrc_sound hrel _ (Or.inr rfl)).mpr (Or.inr (by decide))) fun h => absurd h h1
      · rw [freeze_failed h0, if_pos neg_eremoteio_ne]
        exact iff_of_true ((berErrc_sound hrel _ frozen_or).mpr (Or.inr (by decide))) fun h => absurd h h0
  · rw [if_pos hstate]
    exact iff_of_true (statSound_start _) fun h => absurd h hstate

theorem readUcblocks_sound_iff (data : Data) (delsys : Delsys) :
    StatSound (readUcblocks t data delsys) ↔ UcblocksGood t delsys := by
  unfold readUcblocks
  cases delsys with
  | none => exact iff_of_true (statSound_start _) trivial
  | dvbt =>
    show StatSound (if _ then _ else _) ↔ t.Ok 0 ∧ t.Ok 1
    by_cases h0 : t.Ok 0
    · rw [freeze_ok h0, if_neg (not_not.mpr rfl), and_iff_right h0]
      exact ucblocksRead_sound hrel data 2 (Or.inr rfl) rfl
    · rw [freeze_failed h0, if_pos neg_eremoteio_ne, ucblocksErr_sound hrel _ frozen_or]
      exact iff_of_false Bool.noConfusion fun h => h0 h.1
  | dvbc =>
    show StatSound (if _ then _ else _) ↔ t.Ok 0 ∧ t.Ok 1 ∧ t.Locked ∧ t.Ok 2
    by_cases h0 : t.Ok 0
    · rw [freeze_ok h0, if_neg (not_not.mpr rfl), and_iff_right h0]
      by_cases h1 : t.Ok 1
      · rw [rdRegs_ok h1, if_neg (not_not.mpr rfl), and_iff_right h1]
        dsimp only
        by_cases hlock : readInto t 0x10088 data 1 0 &&& 0x03 = 0
        · rw [if_pos hlock]
          exact iff_of_false (fun h => absurd h.1 (Option.some_ne_none _)) fun h => h.1 hlock
        · have hlocked : t.Locked := hlock
          rw [if_neg hlock, and_iff_right hlocked]
          exact ucblocksRead_sound hrel _ 2 (Or.inr rfl) rfl
      · rw [rdRegs_failed h1, if_pos neg_eremoteio_ne, ucblocksErr_sound hrel _ (Or.inr rfl)]
        exact iff_of_false Bool.noConfusion fun h => h1 h.1
    · rw [freeze_failed h0, if_pos neg_eremoteio_ne, ucblocksErr_sound hrel _ frozen_or]
      exact iff_of_false Bool.noConfusion fun h => h0 h.1

theorem caroffst_sound_iff (data : Data) (delsys : Delsys) (bw : UInt32) :
    StatSound (caroffst t data delsys bw) ↔ CaroffstGood t delsys bw := by
  unfold caroffst
  cases delsys with
  | none => exact iff_of_true (statSound_start _) trivial
  | dvbt =>
    show StatSound (if _ then _ else _) ↔ t.Ok 0 ∧ t.Ok 1 ∧ _ ∧ t.Ok 2
    by_cases h0 : t.Ok 0
    · rw [freeze_ok h0, if_neg (not_not.mpr rfl), and_iff_right h0]
      by_cases h1 : t.Ok 1
      · rw [rdRegs_ok h1, if_neg (not_not.mpr rfl), and_iff_right h1]
        dsimp only
        cases hdiv : caroffstDiv bw with
        | none => exact iff_of_false (fun h => absurd h.1 (Option.some_ne_none _)) fun h => absurd h.1 Bool.false_ne_true
        | some k =>
          rw [and_iff_right Option.isSome_some]
          exact @caroffstRead_sound t hrel ⟨2, some 0x00001, false⟩ 0x00001 0x07c6 _ 1 _
            (fun data => if data 0 &&& 0x01 ≠ 0 then _ else _) (Or.inr rfl) rfl
      · rw [rdRegs_failed h1, if_pos neg_eremoteio_ne, caroffstErr_sound hrel _ (Or.inr rfl)]
        exact iff_of_false Bool.noConfusion fun h => h1 h.1
    · rw [freeze_failed h0, if_pos neg_eremoteio_ne, caroffstErr_sound hrel _ frozen_or]
      exact iff_of_false Bool.noConfusion fun h => h0 h.1
  | dvbc =>
    show StatSound (if _ then _ else _) ↔ t.Ok 0 ∧ t.Ok 1 ∧ t.Ok 2
    by_cases h0 : t.Ok 0
    · rw [freeze_ok h0, if_neg (not_not.mpr rfl), and_iff_right h0]
      by_cases h1 : t.Ok 1
      · rw [rdRegs_ok h1, if_neg (not_not.mpr rfl), and_iff_right h1]
        dsimp only
        exact @caroffstRead_sound t hrel ⟨2, some 0x10001, false⟩ 0x10001 0x10019 _ 1 _
          (fun data => if data 0 &&& 0x80 = 0 then _ else _) (Or.inr rfl) rfl
      · rw [rdRegs_failed h1, if_pos neg_eremoteio_ne, caroffstErr_sound hrel _ (Or.inr rfl)]
        exact iff_of_false Bool.noConfusion fun h => h1 h.1
    · rw [freeze_failed h0, if_pos neg_eremoteio_ne, caroffstErr_sound hrel _ frozen_or]
      exact iff_of_false Bool.noConfusion fun h => h0 h.1

/-- **PROVED**: with every outcome of the accesses, and a release that goes through, each function leaves no freeze and
reports a failed access exactly under its condition. -/
theorem stats_sound_iff (intlog10 intlog2 : UInt32 → UInt32) (data : Data) (state : PowerState) (delsys : Delsys)
    (bercRun : Bool) (bw : UInt32) :
    (StatSound (readSnr t intlog10 intlog2 data state delsys) ↔ (state = .active → SnrGood t delsys)) ∧
      (StatSound (readBer t state delsys bercRun).1 ↔ (state = .active → BerGood t delsys bercRun)) ∧
      (StatSound (readUcblocks t data delsys) ↔ UcblocksGood t delsys) ∧
      (StatSound (caroffst t data delsys bw) ↔ CaroffstGood t delsys bw) :=
  ⟨readSnr_sound_iff hrel intlog10 intlog2 data state delsys, readBer_sound_iff hrel state delsys bercRun,
    readUcblocks_sound_iff hrel data delsys, caroffst_sound_iff hrel data delsys bw⟩

end Sound

def allDone : Transfers := ⟨fun _ => .done, .done, fun _ => 0x01⟩

theorem stats_sound_allDone :
    StatSound (readSnr allDone (fun _ => 0) (fun _ => 0) (fun _ => 0) .active .dvbc) ∧
      StatSound (readBer allDone .active .dvbc true).1 ∧ StatSound (readUcblocks allDone (fun _ => 0) .dvbc) ∧
      StatSound (caroffst allDone (fun _ => 0) .dvbc 8000000) := by
  have h := stats_sound_iff (t := allDone) rfl (fun _ => 0) (fun _ => 0) (fun _ => 0) .active .dvbc true 8000000
  have hok : ∀ n, allDone.Ok n := fun n => rfl
  have hlocked : allDone.Locked := by
    show (0x01 : UInt8) &&& 0x03 ≠ 0
    decide
  exact ⟨h.1.mpr fun _ => ⟨fun h0 => absurd (hok 0) h0, fun _ => ⟨hok 1, fun _ => ⟨hok 2, Or.inl (hok 3)⟩⟩⟩,
    h.2.1.mpr fun _ _ _ _ => ⟨hlocked, rfl⟩, h.2.2.1.mpr ⟨hok 0, hok 1, hlocked, hok 2⟩,
    h.2.2.2.mpr ⟨hok 0, hok 1, hok 2⟩⟩

/-- The read of the lock is lost: `cxd2817_read_snr` leaves the freeze. -/
theorem not_stats_sound : ¬∀ (t : Transfers) (intlog10 intlog2 : UInt32 → UInt32) (data : Data) (state : PowerState)
    (delsys : Delsys) (bercRun : Bool) (bw : UInt32), t.release.ok = true →
    StatSound (readSnr t intlog10 intlog2 data state delsys) ∧ StatSound (readBer t state delsys bercRun).1 ∧
      StatSound (readUcblocks t data delsys) ∧ StatSound (caroffst t data delsys bw) := by
  intro hall
  have hsound := (hall ⟨fun n => if n = 1 then .lost else .done, .done, fun _ => 0⟩ (fun _ => 0) (fun _ => 0)
    (fun _ => 0) .active .dvbc false 8000000 rfl).1
  have hgood := (readSnr_sound_iff rfl _ _ _ .active .dvbc).mp hsound rfl
  exact Bool.false_ne_true (hgood.2 rfl).1

end BgtDvb.Cxd2817
