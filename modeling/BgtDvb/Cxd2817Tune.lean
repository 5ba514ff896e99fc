import BgtDvb.Cxd2817

/-!
# Switching the delivery system of the CXD2817

`cxd2817_tune` of `frontends/cxd2817.c` is to put an active demodulator to sleep before it sets up another
delivery system.  It compares the recorded system with the requested one, after it has recorded the
requested one: the comparison never finds a difference.

* `chip` — the delivery system the chip is active in, by that record: only the stop registers end a setup,
  `cxd2817_init` writes none of them and `cxd2817_shutdown` does so in the active state;
* `tunePrepare_eq` — **PROVED**: the sleep sequence is never run;
* `along_switchSound_iff` — **PROVED**: a run is sound exactly if no tune finds the device or the chip active in
  another system.
-/

namespace BgtDvb.Cxd2817

open BgtDvb.GuardedRun
open BgtDvb.Cxd2850 (Xfer Demod eremoteio)

/-! ### The state -/

def einval : ℤ := 22

def eio : ℤ := 5

/-- `enum cxd2817_delsys`. -/
inductive Delsys where
  | none | dvbc | dvbt
  deriving Repr, DecidableEq

/-- `enum cxd2817_tun_ver`. -/
inductive TunVer where
  | none | a2e | a2d | a2s
  deriving Repr, DecidableEq

/-- `enum cxd2817_state`. -/
inductive PowerState where
  | shutdown | sleep | active
  deriving Repr, DecidableEq

/-- What the sequences have done: a setup was begun or completed, the sleep sequence was completed, or a
shutdown has written the stop registers or come to its end. -/
inductive Event where
  | sleepDone
  | setupStarted (delsys : Delsys)
  | setupDone (delsys : Delsys)
  | stopDone
  | shutdownDone
  deriving Repr, DecidableEq

/-- `struct cxd2817_dev`, with a count of the register accesses and the record. -/
structure Dev where
  bus : Bus
  accesses : ℕ
  ifShared : Bool
  tunVer : TunVer
  delsys : Delsys
  state : PowerState
  bercRun : Bool
  bw : UInt32
  gdeqEn : Bool
  rfmonEn : Bool
  log : List Event

/-- `struct cxd2817_config`. -/
structure Config where
  xtal : UInt32
  addr : UInt8

/-- The outside of one call: what becomes of the transfers of the n-th access and what it reads, the
tuner's `set_params` and `get_if_frequency` where it has them, the requested bandwidth, and the two bytes
that lie behind a `t_dly` table. -/
structure Env where
  sel : ℕ → Xfer
  dat : ℕ → Xfer
  reply : ℕ → UInt8
  setParams : Option ℤ
  getIfFrequency : Option (ℤ × UInt32)
  bandwidthHz : UInt32
  behindDly : List UInt8

/-! ### Register sequences -/

/-- A step of a sequence; `none` does not return. -/
abbrev Act := Dev → Option (ℤ × Dev)

/-- `if (ret) goto err` after every step. -/
def seq : List Act → Act
  | [], s => some (0, s)
  | a :: as, s =>
    match a s with
    | none => none
    | some (ret, s) => if ret ≠ 0 then some (ret, s) else seq as s

def choose (c : Dev → Bool) (as bs : List Act) : Act := fun s => if c s = true then seq as s else seq bs s

def mark (e : Event) : Act := fun s => some (0, { s with log := s.log ++ [e] })

variable (d : Demod) (cfg : Config) (env : Env)

def Dev.wrRegs (reg : UInt32) (val : List UInt8) : Act := fun s =>
  (Cxd2817.wrRegs d cfg.addr s.bus reg val (env.sel s.accesses) (env.dat s.accesses)).map fun r =>
    (r.1, { s with bus := r.2, accesses := s.accesses + 1 })

/-- A write through a table pointer that may be `NULL`: the select is made before the pointer is used. -/
def Dev.wrTable (reg : UInt32) (val : Option (List UInt8)) : Act := fun s =>
  match val with
  | some val => Dev.wrRegs d cfg env reg val s
  | none =>
    let r := selectBank d cfg.addr s.bus reg (env.sel s.accesses)
    if r.1 = false then some (-eremoteio, { s with bus := r.2, accesses := s.accesses + 1 }) else none

def Dev.wr (reg : UInt32) (val : UInt8) : Act := Dev.wrRegs d cfg env reg [val]

def Dev.wrMask (reg : UInt32) (val mask : UInt8) : Act := fun s =>
  (Cxd2817.wrMask d cfg.addr s.bus reg val mask (env.reply s.accesses) (env.sel s.accesses)
    (env.dat s.accesses) (env.sel (s.accesses + 1)) (env.dat (s.accesses + 1))).map fun r =>
    (r.1, { s with bus := r.2, accesses := s.accesses + 2 })

/-- `cxd2817_berm_ctl`. -/
def bermCtl (ctl : Bool) : Act := fun s =>
  let val : UInt8 := if ctl = true then 1 else 0
  let done : Act := fun s => some (0, { s with bercRun := ctl })
  match s.delsys with
  | .dvbt => seq [Dev.wr d cfg env 0x00079 val, done] s
  | .dvbc => seq [Dev.wr d cfg env 0x10079 val, done] s
  | .none => some (-einval, s)

/-! ### DVB-T -/

/-- The tables of `cxd2817_dvbt_params` for one bandwidth. -/
structure DvbtTables where
  aci : UInt8
  trl : List UInt8
  a2e : List UInt8
  a2s : List UInt8
  tsif : UInt8
  dly : List UInt8
  nf1 : List UInt8
  nf2 : List UInt8
  nf3 : List UInt8

def dvbtTables (bw : UInt32) : Option DvbtTables :=
  if bw = 6000000 then some {
    aci := 0x13
    trl := [0x17, 0xEA, 0xAA, 0xAA, 0xAA]
    a2e := [0x27, 0xA7, 0x28, 0xB3, 0x02, 0xF0, 0x01, 0xE8, 0x00, 0xCF, 0x00, 0xE6, 0x23, 0xA4]
    a2s := [0x19, 0x24, 0x2B, 0xB7, 0x2C, 0xAC, 0x29, 0xA6, 0x2A, 0x9F, 0x2A, 0x99, 0x2A, 0x9B]
    tsif := 0x80
    dly := [0x1F, 0xDC]
    nf1 := [0x00, 0x02]
    nf2 := [0x05, 0x05]
    nf3 := [0x91, 0xA0] }
  else if bw = 7000000 then some {
    aci := 0x13
    trl := [0x14, 0x80, 0x00, 0x00, 0x00]
    a2e := [0x2C, 0xBD, 0x02, 0xCF, 0x04, 0xF8, 0x23, 0xA6, 0x29, 0xB0, 0x26, 0xA9, 0x21, 0xA5]
    a2s := [0x1B, 0x22, 0x2B, 0xC1, 0x2C, 0xB3, 0x2B, 0xA9, 0x2B, 0xA0, 0x2B, 0x97, 0x2B, 0x9B]
    tsif := 0x40
    dly := [0x12, 0xF8]
    nf1 := [0x01, 0x02]
    nf2 := [0x03, 0x01]
    nf3 := [0x97, 0x00] }
  else if bw = 8000000 then some {
    aci := 0x11
    trl := [0x11, 0xF0, 0x00, 0x00, 0x00]
    a2e := [0x26, 0xAF, 0x06, 0xCD, 0x13, 0xBB, 0x28, 0xBA, 0x23, 0xA9, 0x1F, 0xA8, 0x2C, 0xC8]
    a2s := [0x1E, 0x1D, 0x29, 0xC9, 0x2A, 0xBA, 0x29, 0xAD, 0x29, 0xA4, 0x29, 0x9A, 0x28, 0x9E]
    tsif := 0x00
    dly := [0x01, 0xE0]
    nf1 := [0x01, 0x02]
    nf2 := [0x05, 0x05]
    nf3 := [0x91, 0xA0] }
  else none

/-- The equaliser table for the tuner; a `NULL` pointer for one that is not known. -/
def gdeqTable (a2e a2s : List UInt8) : TunVer → Option (List UInt8)
  | .a2d | .a2e => some a2e
  | .a2s => some a2s
  | .none => none

/-- `if_freq * COMP_WIDTH(n) / mclk`, in steps of 100 kHz. -/
def loFreq (width : UInt32) (ifFreq : UInt32) : UInt32 :=
  ifFreq / 100000 * ((0x02 : UInt32) <<< (width - 1)) / (cfg.xtal / 100000)

/-- `tuner_ops.set_params`, if there is one. -/
def tunerSetParams : Act := fun s =>
  match env.setParams with
  | none => some (0, s)
  | some ret => some (ret, s)

/-- `tuner_ops.get_if_frequency`, and what follows it; a crystal below 100 kHz is a division by zero. -/
def withIf (k : UInt32 → List Act) : Act := fun s =>
  match env.getIfFrequency with
  | none => some (-eio, s)
  | some (ret, ifFreq) =>
    if ret ≠ 0 then some (ret, s)
    else if cfg.xtal / 100000 = 0 then none
    else seq (k ifFreq) s

/-- `cxd2817_dvbt_params`, after the intermediate frequency is known; four bytes are read from the two of
`t_dly`. -/
def dvbtTableWrites (t : DvbtTables) (tunVer : TunVer) (ifFreq : UInt32) : List Act :=
  let lof := loFreq cfg 24 ifFreq
  [ choose (·.gdeqEn) [Dev.wr d cfg env 0x00c2 t.aci] [],
    Dev.wrRegs d cfg env 0x009f t.trl,
    Dev.wrTable d cfg env 0x00a6 (gdeqTable t.a2e t.a2s tunVer),
    Dev.wrRegs d cfg env 0x00b6 [(lof >>> 16).toUInt8, (lof >>> 8).toUInt8, lof.toUInt8],
    Dev.wrMask d cfg env 0x00d7 t.tsif 0xc0,
    Dev.wrRegs d cfg env 0x00d9 ((t.dly ++ env.behindDly).take 4),
    choose (·.gdeqEn)
      [ Dev.wrRegs d cfg env 0x0738 t.nf1, Dev.wrRegs d cfg env 0x073c t.nf2,
        Dev.wrRegs d cfg env 0x0744 t.nf3 ] [] ]

/-- `cxd2817_dvbt_params`, from the switch over the bandwidth on. -/
def dvbtBandwidth : Act := fun s =>
  match dvbtTables s.bw with
  | none => some (-einval, s)
  | some t => withIf cfg env (dvbtTableWrites d cfg env t s.tunVer) s

/-- `cxd2817_dvbt_params`. -/
def dvbtParams : Act := seq
  [ choose (·.gdeqEn)
      [Dev.wrMask d cfg env 0x00A5 0x01 0x01, Dev.wrMask d cfg env 0x0082 0x40 0x60]
      [ Dev.wrMask d cfg env 0x00A5 0x00 0x01, Dev.wrMask d cfg env 0x0082 0x20 0x60,
        Dev.wr d cfg env 0x00C2 0x11 ],
    Dev.wr d cfg env 0x016A 0x50,
    Dev.wrMask d cfg env 0x0148 0x10 0x10,
    Dev.wr d cfg env 0x0427 0x41,
    tunerSetParams env,
    dvbtBandwidth d cfg env ]

/-- `cxd2817_dvbt_setup`. -/
def dvbtSetup : Act := seq
  [ Dev.wr d cfg env 0x0080 0x00,
    choose (·.rfmonEn) [Dev.wr d cfg env 0x0081 0x13] [Dev.wr d cfg env 0x0081 0x03],
    Dev.wr d cfg env 0x0085 0x07,
    choose (·.rfmonEn) [Dev.wr d cfg env 0x0088 0x02] [],
    Dev.wr d cfg env 0x00070 0x08,
    Dev.wrMask d cfg env 0x000d7 0x01 0x01,
    Dev.wrMask d cfg env 0x000d7 0x02 0x02 ]

/-! ### DVB-C -/

/-- `cxd2817_dvbc_setup`, after the intermediate frequency is known. -/
def dvbcIfWrites (ifFreq : UInt32) : List Act :=
  let lof := loFreq cfg 14 ifFreq
  [ Dev.wrRegs d cfg env 0x010042 [((lof >>> 8) &&& 0x3f).toUInt8, lof.toUInt8],
    choose (·.gdeqEn) [Dev.wr d cfg env 0x010053 0x48] [],
    Dev.wr d cfg env 0x01016A 0x48,
    Dev.wr d cfg env 0x010427 0x41,
    Dev.wrMask d cfg env 0x010020 0x06 0x07,
    Dev.wr d cfg env 0x010059 0x50,
    Dev.wrMask d cfg env 0x010087 0x0C 0x3C,
    Dev.wr d cfg env 0x01008B 0x07,
    Dev.wr d cfg env 0x10070 0x08,
    Dev.wrMask d cfg env 0x000d7 0x01 0x01,
    Dev.wrMask d cfg env 0x000d7 0x02 0x02 ]

/-- `cxd2817_dvbc_setup`. -/
def dvbcSetup : Act := fun s =>
  match gdeqTable [0x2D, 0xC7, 0x04, 0xF4, 0x07, 0xC5, 0x2A, 0xB8, 0x27, 0x9E, 0x27, 0xA4, 0x29, 0xAB]
    [0x27, 0xD9, 0x27, 0xC5, 0x25, 0xBB, 0x24, 0xB1, 0x24, 0xA9, 0x23, 0xA4, 0x23, 0xA2] s.tunVer with
  | none => some (-einval, s)
  | some gdeq => seq
    [ Dev.wr d cfg env 0x0080 0x01,
      choose (·.rfmonEn) [Dev.wr d cfg env 0x0081 0x15] [Dev.wr d cfg env 0x0081 0x05],
      Dev.wr d cfg env 0x0085 0x07,
      choose (·.rfmonEn) [Dev.wr d cfg env 0x0088 0x02] [],
      choose (·.gdeqEn)
        [Dev.wrMask d cfg env 0x0100A5 0x01 0x01, Dev.wrMask d cfg env 0x000082 0x40 0x60]
        [Dev.wrMask d cfg env 0x0100A5 0x00 0x01, Dev.wrMask d cfg env 0x000082 0x20 0x60],
      Dev.wrRegs d cfg env 0x0100A6 gdeq,
      withIf cfg env (dvbcIfWrites d cfg env) ] s

/-! ### Sleep, tune, initialisation, shutdown -/

/-- The registers that `cxd2817_sleep` and `cxd2817_shutdown` write to stop the demodulator. -/
def stopWrites : List Act :=
  [ Dev.wr d cfg env 0x00FF 0x1F,
    fun s => Dev.wr d cfg env 0x0085 (if s.ifShared = true then 0x06 else 0x00) s,
    Dev.wr d cfg env 0x0088 0x01,
    Dev.wr d cfg env 0x0081 0x00,
    Dev.wr d cfg env 0x0080 0x00 ]

/-- `cxd2817_sleep`. -/
def sleep : Act := seq (bermCtl d cfg env false :: stopWrites d cfg env ++ [mark .sleepDone])

/-- The setup sequence of a delivery system, as `cxd2817_tune` runs it. -/
def setup : Delsys → Act
  | .dvbt => seq
    [ mark (.setupStarted .dvbt), fun s => some (0, { s with bw := env.bandwidthHz }), dvbtSetup d cfg env,
      dvbtParams d cfg env, mark (.setupDone .dvbt) ]
  | .dvbc => seq [mark (.setupStarted .dvbc), dvbcSetup d cfg env, mark (.setupDone .dvbc)]
  | .none => fun s => some (-einval, s)

def setState (st : PowerState) : Act := fun s => some (0, { s with state := st })

def validBandwidth (bw : UInt32) : Bool := bw == 6000000 || bw == 7000000 || bw == 8000000

/-- `cxd2817_tune` up to the setup sequence.  The requested system is recorded before it is compared with
the recorded one. -/
def tunePrepare (delsys : Delsys) : Act := fun s =>
  if delsys = .dvbt ∧ validBandwidth env.bandwidthHz = false then some (-einval, s)
  else
    let s := { s with delsys := delsys }
    if s.state = .active ∧ delsys ≠ s.delsys then seq [sleep d cfg env, setState .sleep] s
    else setState .sleep s

/-- `cxd2817_tune`. -/
def tune (delsys : Delsys) : Act := seq
  [ tunePrepare d cfg env delsys, setup d cfg env delsys, setState .active, Dev.wr d cfg env 0x00FF 0x08,
    Dev.wr d cfg env 0x00FE 0x01 ]

/-- `cxd2817_init`. -/
def init : Act := fun s => seq
  [ Dev.wr d cfg env 0x007E 0x02, Dev.wr d cfg env 0x007F 0x01, setState .sleep ]
  { s with gdeqEn := true, tunVer := .a2e, ifShared := false }

/-- `cxd2817_shutdown`. -/
def shutdown : Act := seq
  [ choose (fun s => s.state == .active)
      ((fun s => some (0, { s with bercRun := false })) :: stopWrites d cfg env ++ [mark .stopDone]) [],
    Dev.wr d cfg env 0x007F 0x00, Dev.wr d cfg env 0x007E 0x03, setState .shutdown, mark .shutdownDone ]

/-! ### What a sequence can do -/

variable {s : Dev}

theorem seq_cons {a : Act} (h : seq (a :: as) s = some (ret, s')) :
    (ret ≠ 0 ∧ a s = some (ret, s')) ∨ ∃ s₁, a s = some (0, s₁) ∧ seq as s₁ = some (ret, s') := by
  rw [seq] at h
  cases ha : a s with
  | none =>
    rw [ha] at h
    exact absurd h (by simp)
  | some r =>
    obtain ⟨r, s₁⟩ := r
    rw [ha] at h
    by_cases hr : r = 0
    · subst hr
      exact .inr ⟨s₁, rfl, by simpa using h⟩
    · simp only [ne_eq, hr, not_false_iff, if_true, Option.some.injEq, Prod.mk.injEq] at h
      obtain ⟨rfl, rfl⟩ := h
      exact .inl ⟨hr, rfl⟩

def Event.isSetup : Event → Bool
  | .setupStarted _ | .setupDone _ => true
  | .sleepDone | .stopDone | .shutdownDone => false

def lastSetup (log : List Event) : Option Event := (log.filter Event.isSetup).getLast?

/-- The step leaves state and delivery system alone and puts no setup on record. -/
def Quiet (a : Act) : Prop :=
  ∀ s ret s', a s = some (ret, s') →
    s'.delsys = s.delsys ∧ s'.state = s.state ∧ lastSetup s'.log = lastSetup s.log

theorem quiet_seq : ∀ as : List Act, (∀ a ∈ as, Quiet a) → Quiet (seq as) := by
  intro as
  induction as with
  | nil =>
    intro _ s ret s' h
    obtain ⟨-, rfl⟩ := Prod.mk.inj (Option.some.inj h)
    exact ⟨rfl, rfl, rfl⟩
  | cons a as ih =>
    intro hq s ret s' h
    rcases seq_cons h with ⟨-, ha⟩ | ⟨s₁, ha, hs⟩
    · exact hq a List.mem_cons_self s ret s' ha
    · obtain ⟨hd₁, hs₁, hl₁⟩ := hq a List.mem_cons_self s 0 s₁ ha
      obtain ⟨hd₂, hs₂, hl₂⟩ := ih (fun b hb => hq b (List.mem_cons_of_mem a hb)) s₁ ret s' hs
      exact ⟨hd₂.trans hd₁, hs₂.trans hs₁, hl₂.trans hl₁⟩

theorem quiet_choose {c : Dev → Bool} (ha : ∀ a ∈ as, Quiet a) (hb : ∀ b ∈ bs, Quiet b) : Quiet (choose c as bs) := by
  intro s ret s' h
  unfold choose at h
  split at h
  · exact quiet_seq as ha s ret s' h
  · exact quiet_seq bs hb s ret s' h

theorem quiet_mark (he : e.isSetup = false) : Quiet (mark e) := by
  intro s ret s' h
  obtain ⟨-, rfl⟩ := Prod.mk.inj (Option.some.inj h)
  refine ⟨rfl, rfl, ?_⟩
  unfold lastSetup
  rw [List.filter_append]
  simp [he]

theorem quiet_wrRegs (reg : UInt32) (val : List UInt8) : Quiet (Dev.wrRegs d cfg env reg val) := by
  intro s ret s' h
  obtain ⟨r, -, heq⟩ := Option.map_eq_some_iff.mp h
  obtain ⟨-, rfl⟩ := Prod.mk.inj heq
  exact ⟨rfl, rfl, rfl⟩

theorem quiet_wr (reg : UInt32) (val : UInt8) : Quiet (Dev.wr d cfg env reg val) :=
  quiet_wrRegs d cfg env reg [val]

theorem quiet_wrTable (reg : UInt32) (val : Option (List UInt8)) :
    Quiet (Dev.wrTable d cfg env reg val) := by
  intro s ret s' h
  cases val with
  | some val => exact quiet_wrRegs d cfg env reg val s ret s' h
  | none =>
    simp only [Dev.wrTable] at h
    split at h
    · obtain ⟨-, rfl⟩ := Prod.mk.inj (Option.some.inj h)
      exact ⟨rfl, rfl, rfl⟩
    · exact absurd h (by simp)

theorem quiet_wrMask (reg : UInt32) (val mask : UInt8) : Quiet (Dev.wrMask d cfg env reg val mask) := by
  intro s ret s' h
  obtain ⟨r, -, heq⟩ := Option.map_eq_some_iff.mp h
  obtain ⟨-, rfl⟩ := Prod.mk.inj heq
  exact ⟨rfl, rfl, rfl⟩

theorem quiet_tunerSetParams : Quiet (tunerSetParams env) := by
  intro s ret s' h
  unfold tunerSetParams at h
  split at h
  · obtain ⟨-, rfl⟩ := Prod.mk.inj (Option.some.inj h)
    exact ⟨rfl, rfl, rfl⟩
  · obtain ⟨-, rfl⟩ := Prod.mk.inj (Option.some.inj h)
    exact ⟨rfl, rfl, rfl⟩

theorem quiet_withIf {k : UInt32 → List Act} (hk : ∀ f, ∀ a ∈ k f, Quiet a) : Quiet (withIf cfg env k) := by
  intro s ret s' h
  unfold withIf at h
  split at h
  · obtain ⟨-, rfl⟩ := Prod.mk.inj (Option.some.inj h)
    exact ⟨rfl, rfl, rfl⟩
  · split at h
    · obtain ⟨-, rfl⟩ := Prod.mk.inj (Option.some.inj h)
      exact ⟨rfl, rfl, rfl⟩
    · split at h
      · exact absurd h (by simp)
      · exact quiet_seq _ (hk _) s ret s' h

theorem quiet_dvbtBandwidth : Quiet (dvbtBandwidth d cfg env) := by
  intro s ret s' h
  unfold dvbtBandwidth at h
  split at h
  · obtain ⟨-, rfl⟩ := Prod.mk.inj (Option.some.inj h)
    exact ⟨rfl, rfl, rfl⟩
  · rename_i t ht
    refine quiet_withIf cfg env (fun f => ?_) s ret s' h
    unfold dvbtTableWrites
    simp only [List.forall_mem_cons, List.not_mem_nil, false_implies, implies_true, and_true, true_and,
      quiet_wrRegs, quiet_wrTable, quiet_wrMask]
    exact ⟨quiet_choose (by simp [quiet_wr]) (by simp), quiet_choose (by simp [quiet_wrRegs]) (by simp)⟩

theorem quiet_dvbtParams : Quiet (dvbtParams d cfg env) := by
  refine quiet_seq _ ?_
  simp only [List.forall_mem_cons, List.not_mem_nil, false_implies, implies_true, and_true, quiet_wr,
    quiet_wrMask, quiet_tunerSetParams, quiet_dvbtBandwidth]
  exact quiet_choose (by simp [quiet_wrMask]) (by simp [quiet_wrMask, quiet_wr])

theorem quiet_dvbtSetup : Quiet (dvbtSetup d cfg env) := by
  refine quiet_seq _ ?_
  simp only [List.forall_mem_cons, List.not_mem_nil, false_implies, implies_true, and_true, quiet_wr,
    quiet_wrMask, true_and]
  exact ⟨quiet_choose (by simp [quiet_wr]) (by simp [quiet_wr]), quiet_choose (by simp [quiet_wr]) (by simp)⟩

theorem quiet_dvbcSetup : Quiet (dvbcSetup d cfg env) := by
  intro s ret s' h
  unfold dvbcSetup at h
  split at h
  · obtain ⟨-, rfl⟩ := Prod.mk.inj (Option.some.inj h)
    exact ⟨rfl, rfl, rfl⟩
  · refine quiet_seq _ ?_ s ret s' h
    have hif : ∀ f, ∀ a ∈ dvbcIfWrites d cfg env f, Quiet a := by
      intro f
      unfold dvbcIfWrites
      simp only [List.forall_mem_cons, List.not_mem_nil, false_implies, implies_true, and_true, quiet_wr,
        quiet_wrMask, quiet_wrRegs, true_and]
      exact quiet_choose (by simp [quiet_wr]) (by simp)
    simp only [List.forall_mem_cons, List.not_mem_nil, false_implies, implies_true, and_true, quiet_wr,
      quiet_wrRegs, true_and]
    exact ⟨quiet_choose (by simp [quiet_wr]) (by simp [quiet_wr]),
      quiet_choose (by simp [quiet_wr]) (by simp),
      quiet_choose (by simp [quiet_wrMask]) (by simp [quiet_wrMask]), quiet_withIf cfg env hif⟩

theorem quiet_stopWrites : ∀ a ∈ stopWrites d cfg env, Quiet a := by
  unfold stopWrites
  simp only [List.forall_mem_cons, List.not_mem_nil, false_implies, implies_true, and_true, quiet_wr,
    true_and]
  intro s ret s' h
  exact quiet_wr d cfg env 0x0085 _ s ret s' h

/-! ### The calls -/

inductive Call where
  | tune (delsys : Delsys) (env : Env)
  | init (env : Env)
  | shutdown (env : Env)

def call (s : Dev) : Call → Option Dev
  | .tune delsys env => (tune d cfg env delsys s).map (·.2)
  | .init env => (init d cfg env s).map (·.2)
  | .shutdown env => (shutdown d cfg env s).map (·.2)

/-- What an event means for the chip; `off` says whether the power-down at the end of a shutdown stops a chip
whose stop registers were not written. -/
def chipAfter (off : Bool) : Option Delsys → Event → Option Delsys
  | _, .setupDone delsys => some delsys
  | c, .setupStarted _ => c
  | _, .sleepDone | _, .stopDone => none
  | c, .shutdownDone => if off = true then none else c

def chip (off : Bool) (log : List Event) : Option Delsys := log.foldl (chipAfter off) none

/-- The recorded state is active only if the setup of the recorded system was the last one and was
completed. -/
def RecordSound (s : Dev) : Prop := s.state = .active → lastSetup s.log = some (.setupDone s.delsys)

/-- The setup sequence is begun after the sleep sequence if the state was active in another system, and
never while the chip is active in another system; afterwards the recorded state is sound. -/
def SwitchSound (off : Bool) (s : Dev) (c : Call) : Prop :=
  (∀ delsys env s₁, c = .tune delsys env → delsys ≠ .none → tunePrepare d cfg env delsys s = some (0, s₁) →
    (s.state = .active → s.delsys ≠ delsys → Event.sleepDone ∈ s₁.log.drop s.log.length) ∧
    (chip off s₁.log = none ∨ chip off s₁.log = some delsys)) ∧
  ∀ s', call d cfg s c = some s' → RecordSound s'

/-- A tune that comes to a setup sequence finds the chip at rest or active in the system it asks for, and the
state not active in another one. -/
def Rested (off : Bool) (s : Dev) : Call → Prop
  | .tune delsys env => delsys ≠ .none → (delsys = .dvbt → validBandwidth env.bandwidthHz = true) →
      (chip off s.log = none ∨ chip off s.log = some delsys) ∧ (s.state = .active → s.delsys = delsys)
  | .init _ | .shutdown _ => True

instance (off : Bool) (s : Dev) : ∀ c : Call, Decidable (Rested off s c)
  | .tune _ _ => inferInstanceAs (Decidable (_ → _ → _))
  | .init _ | .shutdown _ => inferInstanceAs (Decidable True)

/-- **The sleep sequence is never run**: what is compared is the requested system with itself. -/
theorem tunePrepare_eq (delsys : Delsys) (s : Dev) : tunePrepare d cfg env delsys s =
    if delsys = .dvbt ∧ validBandwidth env.bandwidthHz = false then some (-einval, s)
    else some (0, { s with delsys := delsys, state := .sleep }) := by
  unfold tunePrepare
  simp [setState]

theorem RecordSound.of_rested (h : s.state ≠ .active) : RecordSound s := fun ha => absurd ha h

theorem RecordSound.of_quiet (hi : RecordSound s)
    (hq : s'.delsys = s.delsys ∧ s'.state = s.state ∧ lastSetup s'.log = lastSetup s.log) : RecordSound s' := by
  obtain ⟨hd, hs, hl⟩ := hq
  intro ha
  rw [hl, hd]
  exact hi (hs ▸ ha)

theorem seq_append (h : seq (as ++ bs) s = some (ret, s')) :
    (ret ≠ 0 ∧ seq as s = some (ret, s')) ∨ ∃ s₁, seq as s = some (0, s₁) ∧ seq bs s₁ = some (ret, s') := by
  induction as generalizing s with
  | nil => exact .inr ⟨s, rfl, h⟩
  | cons a as ih =>
    rcases seq_cons h with ⟨hr, ha⟩ | ⟨s₁, ha, hs⟩
    · refine .inl ⟨hr, ?_⟩
      rw [seq, ha]
      exact if_pos hr
    · have hfirst : seq (a :: as) s = seq as s₁ := by simp [seq, ha]
      rw [hfirst]
      exact ih hs

theorem lastSetup_append_setup (log : List Event) (he : e.isSetup = true) : lastSetup (log ++ [e]) = some e := by
  unfold lastSetup
  rw [List.filter_append]
  simp [he]

theorem seq_marked {e' : Event} (he' : e'.isSetup = true) (hq : ∀ a ∈ as, Quiet a)
    (h : seq (mark e :: (as ++ [mark e'])) s = some (ret, s')) :
    s'.delsys = s.delsys ∧ s'.state = s.state ∧ (ret = 0 → lastSetup s'.log = some e') := by
  rcases seq_cons h with ⟨hr, hm⟩ | ⟨s₁, hm, hs⟩
  · obtain ⟨h0, -⟩ := Prod.mk.inj (Option.some.inj hm)
    exact absurd h0.symm hr
  · obtain ⟨-, rfl⟩ := Prod.mk.inj (Option.some.inj hm)
    rcases seq_append hs with ⟨hr, hq'⟩ | ⟨s₂, hq', hlast⟩
    · obtain ⟨hd, hst, -⟩ := quiet_seq as hq _ _ _ hq'
      exact ⟨hd, hst, fun h0 => absurd h0 hr⟩
    · obtain ⟨hd, hst, -⟩ := quiet_seq as hq _ _ _ hq'
      obtain ⟨-, rfl⟩ := Prod.mk.inj (Option.some.inj hlast)
      exact ⟨hd, hst, fun _ => lastSetup_append_setup s₂.log he'⟩

/-- **A setup sequence** leaves system and state alone and, if it returns 0, is the last one on record and
completed. -/
theorem setup_spec {delsys : Delsys} (hne : delsys ≠ .none) (h : setup d cfg env delsys s = some (ret, s')) :
    s'.delsys = s.delsys ∧ s'.state = s.state ∧
      (ret = 0 → lastSetup s'.log = some (.setupDone delsys)) := by
  cases delsys with
  | none => exact absurd rfl hne
  | dvbc =>
    have hq : ∀ a ∈ [dvbcSetup d cfg env], Quiet a := by simp [quiet_dvbcSetup]
    exact seq_marked rfl hq h
  | dvbt =>
    have hbw : Quiet fun s => some (0, { s with bw := env.bandwidthHz }) := by
      intro s ret s' h
      obtain ⟨-, rfl⟩ := Prod.mk.inj (Option.some.inj h)
      exact ⟨rfl, rfl, rfl⟩
    have hq : ∀ a ∈ [fun s => some (0, { s with bw := env.bandwidthHz }), dvbtSetup d cfg env,
        dvbtParams d cfg env], Quiet a := by
      simp [hbw, quiet_dvbtSetup, quiet_dvbtParams]
    exact seq_marked rfl hq h

/-! ### One call -/

theorem recordSound_tune {delsys : Delsys} (hi : RecordSound s) (h : tune d cfg env delsys s = some (ret, s')) :
    RecordSound s' := by
  rcases seq_cons h with ⟨hr, hprep⟩ | ⟨s₁, hprep, hrest⟩
  · rw [tunePrepare_eq] at hprep
    split at hprep
    · obtain ⟨-, rfl⟩ := Prod.mk.inj (Option.some.inj hprep)
      exact hi
    · obtain ⟨h0, -⟩ := Prod.mk.inj (Option.some.inj hprep)
      exact absurd h0.symm hr
  · rw [tunePrepare_eq] at hprep
    split at hprep
    · obtain ⟨h0, -⟩ := Prod.mk.inj (Option.some.inj hprep)
      exact absurd h0 (by decide)
    · obtain ⟨-, rfl⟩ := Prod.mk.inj (Option.some.inj hprep)
      by_cases hne : delsys = .none
      · -- no setup sequence: the state stays at sleep
        subst hne
        rcases seq_cons hrest with ⟨-, hset⟩ | ⟨s₂, hset, -⟩
        · obtain ⟨-, rfl⟩ := Prod.mk.inj (Option.some.inj hset)
          exact .of_rested (by simp)
        · obtain ⟨h0, -⟩ := Prod.mk.inj (Option.some.inj hset)
          exact absurd h0 (by decide)
      · rcases seq_cons hrest with ⟨-, hset⟩ | ⟨s₂, hset, hrest⟩
        · obtain ⟨-, hst, -⟩ := setup_spec d cfg env hne hset
          exact .of_rested (by rw [hst]; simp)
        · obtain ⟨hd, -, hl⟩ := setup_spec d cfg env hne hset
          have hdone : RecordSound { s₂ with state := .active } := by
            have hsys : s₂.delsys = delsys := hd
            intro _
            show lastSetup s₂.log = some (.setupDone s₂.delsys)
            rw [hsys]
            exact hl rfl
          rcases seq_cons hrest with ⟨hr, hact⟩ | ⟨s₃, hact, hrest⟩
          · obtain ⟨h0, -⟩ := Prod.mk.inj (Option.some.inj hact)
            exact absurd h0.symm hr
          · obtain ⟨-, rfl⟩ := Prod.mk.inj (Option.some.inj hact)
            exact hdone.of_quiet (quiet_seq _ (by simp [quiet_wr]) _ _ _ hrest)

theorem recordSound_writes {w m : List Act} (hst : st ≠ .active) (hw : ∀ a ∈ w, Quiet a) (hm : ∀ a ∈ m, Quiet a)
    (hi : RecordSound s) (h : seq (w ++ setState st :: m) s = some (ret, s')) : RecordSound s' := by
  rcases seq_append h with ⟨-, hs⟩ | ⟨s₁, -, hrest⟩
  · exact hi.of_quiet (quiet_seq w hw _ _ _ hs)
  · have hend : seq m { s₁ with state := st } = some (ret, s') := by simpa [seq, setState] using hrest
    obtain ⟨-, hs, -⟩ := quiet_seq m hm _ _ _ hend
    exact .of_rested (hs ▸ hst)

theorem recordSound_init (hi : RecordSound s) (h : init d cfg env s = some (ret, s')) : RecordSound s' := by
  have hi' : RecordSound { s with gdeqEn := true, tunVer := .a2e, ifShared := false } :=
    hi.of_quiet ⟨rfl, rfl, rfl⟩
  exact recordSound_writes (w := [Dev.wr d cfg env 0x007E 0x02, Dev.wr d cfg env 0x007F 0x01]) (by decide)
    (by simp [quiet_wr]) (by simp) hi' h

theorem recordSound_shutdown (hi : RecordSound s) (h : shutdown d cfg env s = some (ret, s')) : RecordSound s' := by
  have hstop : Quiet (choose (fun s => s.state == .active)
      ((fun s => some (0, { s with bercRun := false })) :: stopWrites d cfg env ++ [mark .stopDone]) []) := by
    refine quiet_choose ?_ (by simp)
    rw [List.cons_append, List.forall_mem_cons, List.forall_mem_append]
    refine ⟨?_, quiet_stopWrites d cfg env, by simpa using quiet_mark rfl⟩
    intro s ret s' h
    obtain ⟨-, rfl⟩ := Prod.mk.inj (Option.some.inj h)
    exact ⟨rfl, rfl, rfl⟩
  refine recordSound_writes (w := [_, Dev.wr d cfg env 0x007F 0x00, Dev.wr d cfg env 0x007E 0x03])
    (by decide) ?_ (by simpa using quiet_mark rfl) hi h
  simp only [List.forall_mem_cons, List.not_mem_nil, false_implies, implies_true, and_true, quiet_wr]
  exact hstop

theorem recordSound_call {c : Call} (hi : RecordSound s) (h : call d cfg s c = some s') : RecordSound s' := by
  cases c with
  | tune delsys env =>
    obtain ⟨r, hr, rfl⟩ := Option.map_eq_some_iff.mp h
    exact recordSound_tune d cfg env hi hr
  | init env =>
    obtain ⟨r, hr, rfl⟩ := Option.map_eq_some_iff.mp h
    exact recordSound_init d cfg env hi hr
  | shutdown env =>
    obtain ⟨r, hr, rfl⟩ := Option.map_eq_some_iff.mp h
    exact recordSound_shutdown d cfg env hi hr

/-- **One call** is sound exactly if it finds chip and state at rest or in the right system. -/
theorem switchSound_iff (off : Bool) (hi : RecordSound s) (c : Call) :
    SwitchSound d cfg off s c ↔ Rested off s c := by
  have hrec : ∀ s', call d cfg s c = some s' → RecordSound s' := fun s' h => recordSound_call d cfg hi h
  cases c with
  | init env => exact iff_of_true ⟨by simp, hrec⟩ trivial
  | shutdown env => exact iff_of_true ⟨by simp, hrec⟩ trivial
  | tune delsys env =>
    constructor
    · rintro ⟨h, -⟩ hne hbw
      have hprep : tunePrepare d cfg env delsys s =
          some (0, { s with delsys := delsys, state := .sleep }) := by
        rw [tunePrepare_eq, if_neg]
        rintro ⟨hd, hb⟩
        rw [hbw hd] at hb
        exact absurd hb (by decide)
      obtain ⟨hslept, hchip⟩ := h delsys env _ rfl hne hprep
      refine ⟨hchip, fun hact => ?_⟩
      -- nothing was put on record, so the sleep sequence was not run
      by_contra hdiff
      have hmem := hslept hact hdiff
      rw [List.drop_length] at hmem
      exact absurd hmem List.not_mem_nil
    · intro h
      refine ⟨?_, hrec⟩
      intro delsys' env' s₁ hc hne hprep
      cases hc
      rw [tunePrepare_eq] at hprep
      split at hprep
      · obtain ⟨h0, -⟩ := Prod.mk.inj (Option.some.inj hprep)
        exact absurd h0 (by decide)
      · rename_i hvalid
        obtain ⟨-, rfl⟩ := Prod.mk.inj (Option.some.inj hprep)
        obtain ⟨hchip, hsame⟩ := h hne fun hd => by
          rw [← Bool.not_eq_false]
          exact fun hb => hvalid ⟨hd, hb⟩
        exact ⟨fun hact hdiff => absurd (hsame hact) hdiff, hchip⟩

/-! ### Every run -/

/-- The device as `cxd2817_attach` allocates it. -/
def attached (bus : Bus) : Dev where
  bus := bus
  accesses := 0
  ifShared := false
  tunVer := .none
  delsys := .none
  state := .shutdown
  bercRun := false
  bw := 0
  gdeqEn := false
  rfmonEn := false
  log := []

/-- **Switching the delivery system.**  A run is sound at every call exactly if no tune that comes to a setup sequence
finds the recorded state or the chip active in another system, whatever a power-down without the stop registers does
to the chip. -/
theorem along_switchSound_iff (off : Bool) (calls : List Call) (bus : Bus) :
    Along (call d cfg) (SwitchSound d cfg off) (attached bus) calls ↔
      Along (call d cfg) (Rested off) (attached bus) calls :=
  along_iff_of_invariant (fun _ _ _ hi _ h => recordSound_call d cfg hi h)
    (fun _ c hi => switchSound_iff d cfg off hi c) calls _ (.of_rested (by simp [attached]))

/-- Every transfer succeeds, for a tuner with an intermediate frequency of 5 MHz. -/
def goodEnv : Env where
  sel _ := .done
  dat _ := .done
  reply _ := 0
  setParams := none
  getIfFrequency := some (0, 5000000)
  bandwidthHz := 8000000
  behindDly := [0, 0]

/-- DVB-T is tuned, and then DVB-C: its setup begins with the chip active in DVB-T. -/
theorem not_switchSound_dvbt_dvbc :
    ¬ Along (call Cxd2850.demod ⟨41000000, 0x6c⟩) (SwitchSound Cxd2850.demod ⟨41000000, 0x6c⟩ true)
      (attached ⟨0, fun _ => 0, []⟩) [.init goodEnv, .tune .dvbt goodEnv, .tune .dvbc goodEnv] := by
  intro h
  have hprep := ((h.2 _ rfl).2 _ rfl).1.1 .dvbc goodEnv _ rfl (by decide) rfl
  exact absurd hprep.2 (by decide)

end BgtDvb.Cxd2817
