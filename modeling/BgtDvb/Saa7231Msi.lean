import BgtDvb.Lib.GuardedRun
import BgtDvb.Saa7231Dev

/-!
# Interrupt vectors of the SAA7231

`saa7231_msi.c`: 128 vectors in four banks of 32.  The hardware holds an enable word per bank, which
is changed by writing ones to its SET and CLR registers; the driver holds two tables of handlers,
for events and for MSI-X, and a counter.

* `enabled_vectorCtl_set`, `enabled_vectorCtl_clr` — **PROVED**: enabling adds one vector, but
  disabling writes back the whole enable word and so disables the whole bank;
* `along_coherent_iff` — **PROVED**: coherence survives exactly the runs in which every vector added
  has a handler and had none, and every vector removed was alone in its bank.
-/

namespace BgtDvb.Saa7231

open BgtDvb.GuardedRun

/-! ### Tables and registers -/

/-- `SAA7231_MSI_VECTORS`. -/
def msiVectors : ℕ := 128

inductive Edge where
  | rising | falling | any
  deriving Repr, DecidableEq

/-- `struct saa7231_irq_entry` and `struct saa7231_msix_entry`: `none` is a `NULL` handler. -/
structure IrqEntry (η : Type*) where
  vector : ℕ
  handler : Option η

/-- The enable words, status words and configuration registers of the MSI module, and the tables and
the 8-bit counter of the driver. -/
structure Msi (η : Type*) where
  ena : ℕ → BitVec 32
  status : ℕ → BitVec 32
  config : ℕ → BitVec 32
  event : ℕ → IrqEntry η
  msix : ℕ → IrqEntry η
  handlers : ℕ

variable {η : Type*}

/-- A write to `MSI_INT_ENA_SET(i)`. -/
def Msi.wrEnaSet (s : Msi η) (i : ℕ) (w : BitVec 32) : Msi η :=
  { s with ena := Function.update s.ena i (s.ena i ||| w) }

/-- A write to `MSI_INT_ENA_CLR(i)`. -/
def Msi.wrEnaClr (s : Msi η) (i : ℕ) (w : BitVec 32) : Msi η :=
  { s with ena := Function.update s.ena i (s.ena i &&& ~~~w) }

/-- A write to `MSI_INT_STATUS_CLR(i)`. -/
def Msi.wrStatusClr (s : Msi η) (i : ℕ) (w : BitVec 32) : Msi η :=
  { s with status := Function.update s.status i (s.status i &&& ~~~w) }

/-! ### The operations -/

/-- One round of the clearing loop of `saa7231_msi_init`. -/
def msiClearBank (i : ℕ) (s : Msi η) : Msi η :=
  let s := if s.ena i ≠ 0 then s.wrEnaClr i (s.ena i) else s
  if s.status i ≠ 0 then s.wrStatusClr i (s.status i) else s

def msiClear : ℕ → Msi η → Msi η
  | 0, s => s
  | i + 1, s => msiClearBank i (msiClear i s)

/-- Tables from `kzalloc` and the configuration of every vector. -/
def msiFresh (s : Msi η) : Msi η :=
  { s with
    event := fun _ => ⟨0, none⟩
    msix := fun _ => ⟨0, none⟩
    config := fun v => if v < msiVectors then 0x01000000 else s.config v }

/-- `saa7231_msi_init`, with the module id the device returns. -/
def saa7231MsiInit (id : ℕ) (s : Msi η) : ℤ × Msi η :=
  if (id &&& (2 ^ 32 - 1 - 0x00000F00)) ≠ 0xa1090000 then
    (-einval, { s with event := fun _ => ⟨0, none⟩, msix := fun _ => ⟨0, none⟩ })
  else if ∃ i < 4, (msiClear 4 (msiFresh s)).ena i &&& (msiClear 4 (msiFresh s)).status i ≠ 0 then
    (-1, msiClear 4 (msiFresh s))
  else (0, { msiClear 4 (msiFresh s) with handlers := 0 })

def saa7231VectorCtl (s : Msi η) (vector : ℕ) (ctl : Bool) : Msi η :=
  let tmp := 1#32 <<< (vector % 32)
  let reg := s.ena (vector / 32)
  if ctl then s.wrEnaSet (vector / 32) (reg ||| tmp) else s.wrEnaClr (vector / 32) (reg ||| tmp)

/-- The edge bits of `MSI_CONFIG`. -/
def Edge.bits : Edge → BitVec 32
  | .falling => 0x02000000
  | .any => 0x03000000
  | .rising => 0x01000000

def saa7231SetupVector (s : Msi η) (vector : ℕ) (edge : Edge) : Msi η :=
  let config := (s.config vector &&& 0xfcffffff) ||| edge.bits
  saa7231VectorCtl { s with config := Function.update s.config vector config } vector true

def saa7231AddMsivector (s : Msi η) (vector : ℕ) (edge : Edge) (handler : Option η) : Msi η :=
  let s := saa7231SetupVector s vector edge
  { s with
    msix := Function.update s.msix vector { s.msix vector with handler := handler }
    handlers := (s.handlers + 1) % 256 }

def saa7231AddIrqevent (s : Msi η) (vector : ℕ) (edge : Edge) (handler : Option η) : Msi η :=
  let s := saa7231SetupVector s vector edge
  { s with
    event := Function.update s.event vector ⟨vector, handler⟩
    handlers := (s.handlers + 1) % 256 }

def saa7231RemoveIrqevent (s : Msi η) (vector : ℕ) : Msi η :=
  if (s.event vector).handler.isSome then
    saa7231VectorCtl { s with
      event := Function.update s.event vector ⟨0, none⟩
      handlers := (s.handlers + 255) % 256 } vector false
  else s

/-- The body of the loop of `saa7231_remove_msivector`; the pointer it looks at never moves. -/
def removeMsivectorBody (vector : ℕ) (s : Msi η) : Msi η :=
  if (s.msix vector).vector = vector then
    if (s.msix vector).handler.isSome then
      saa7231VectorCtl { s with
        msix := Function.update s.msix vector ⟨0, none⟩
        handlers := (s.handlers + 255) % 256 } vector false
    else s
  else s

def saa7231RemoveMsivector (s : Msi η) (vector : ℕ) : Msi η :=
  (removeMsivectorBody vector)^[128] s

/-! ### Enabled and registered vectors -/

def Msi.enabled (s : Msi η) (v : ℕ) : Bool := (s.ena (v / 32)).getLsbD (v % 32)

def Msi.registered (s : Msi η) (v : ℕ) : Bool :=
  (s.event v).handler.isSome || (s.msix v).handler.isSome

def Msi.registeredSet (s : Msi η) : Finset ℕ :=
  (Finset.range msiVectors).filter fun v => s.registered v = true

/-- The enabled vectors are the registered ones, and the counter is their number. -/
structure Msi.Coherent (s : Msi η) : Prop where
  enabled_eq : ∀ v, v < msiVectors → s.enabled v = s.registered v
  handlers_eq : s.handlers = s.registeredSet.card

theorem getLsbD_one_shiftLeft {k : ℕ} (hk : k < 32) (j : ℕ) :
    (1#32 <<< k).getLsbD j = decide (j = k) := by
  show (BitVec.twoPow 32 k).getLsbD j = decide (j = k)
  rw [BitVec.getLsbD_twoPow, decide_eq_true hk, Bool.true_and, decide_eq_decide]
  exact eq_comm

theorem enabled_vectorCtl_set (s : Msi η) (v u : ℕ) :
    (saa7231VectorCtl s v true).enabled u = (s.enabled u || decide (u = v)) := by
  have hk := Nat.mod_lt v (by decide : 0 < 32)
  rw [Msi.enabled, Msi.enabled, saa7231VectorCtl]
  simp only [if_true, Msi.wrEnaSet]
  by_cases hbank : u / 32 = v / 32
  · rw [hbank, Function.update_self, BitVec.getLsbD_or, BitVec.getLsbD_or,
      getLsbD_one_shiftLeft hk, ← Bool.or_assoc, Bool.or_self]
    congr 1
    rw [decide_eq_decide]
    omega
  · rw [Function.update_of_ne hbank, decide_eq_false (fun h => hbank (by rw [h])), Bool.or_false]

theorem enabled_vectorCtl_clr (s : Msi η) (v u : ℕ) :
    (saa7231VectorCtl s v false).enabled u = (s.enabled u && decide (u / 32 ≠ v / 32)) := by
  rw [Msi.enabled, Msi.enabled, saa7231VectorCtl]
  simp only [Bool.false_eq_true, if_false, Msi.wrEnaClr]
  by_cases hbank : u / 32 = v / 32
  · rw [hbank, Function.update_self, BitVec.getLsbD_and, BitVec.getLsbD_not, BitVec.getLsbD_or]
    cases (s.ena (v / 32)).getLsbD (u % 32) <;> simp
  · rw [Function.update_of_ne hbank, decide_eq_true hbank, Bool.and_true]

/-! ### What adding and removing do -/

/-- The effect of adding a vector that had no handler in the other table. -/
structure Added (s s' : Msi η) (v : ℕ) (handled : Bool) : Prop where
  enabled_eq : ∀ u, s'.enabled u = (s.enabled u || decide (u = v))
  registered_eq : ∀ u, s'.registered u = if u = v then handled else s.registered u
  handlers_eq : s'.handlers = (s.handlers + 1) % 256

/-- The effect of removing a vector that had a handler. -/
structure Removed (s s' : Msi η) (v : ℕ) : Prop where
  enabled_eq : ∀ u, s'.enabled u = (s.enabled u && decide (u / 32 ≠ v / 32))
  registered_eq : ∀ u, s'.registered u = if u = v then false else s.registered u
  handlers_eq : s'.handlers = (s.handlers + 255) % 256

def AloneInBank (s : Msi η) (v : ℕ) : Prop :=
  ∀ u, u < msiVectors → u ≠ v → u / 32 = v / 32 → s.registered u = false

variable {s s' : Msi η} {v : ℕ}

theorem mem_registeredSet : v ∈ s.registeredSet ↔ v < msiVectors ∧ s.registered v = true := by
  rw [Msi.registeredSet, Finset.mem_filter, Finset.mem_range]

theorem card_registeredSet_le (s : Msi η) : s.registeredSet.card ≤ msiVectors := by
  have h := Finset.card_filter_le (Finset.range msiVectors) fun v => s.registered v = true
  rwa [Finset.card_range] at h

theorem registeredSet_insert (hv : v < msiVectors) (h : ∀ u, s'.registered u = if u = v then true else s.registered u) :
    s'.registeredSet = insert v s.registeredSet := by
  ext u
  rw [Finset.mem_insert, mem_registeredSet, mem_registeredSet, h u]
  by_cases hu : u = v
  · simp [hu, hv]
  · simp [hu]

theorem registeredSet_erase (h : ∀ u, s'.registered u = if u = v then false else s.registered u) :
    s'.registeredSet = s.registeredSet.erase v := by
  ext u
  rw [Finset.mem_erase, mem_registeredSet, mem_registeredSet, h u]
  by_cases hu : u = v
  · simp [hu]
  · simp [hu]

theorem Added.coherent_iff (h : Added s s' v handled) (hc : s.Coherent) (hv : v < msiVectors) :
    s'.Coherent ↔ handled = true ∧ s.registered v = false := by
  have hcount := hc.handlers_eq
  have hle := card_registeredSet_le s
  rw [msiVectors] at hle
  constructor
  · intro hc'
    have hhandled : handled = true := by
      have hen := hc'.enabled_eq v hv
      rw [h.enabled_eq, h.registered_eq, if_pos rfl, decide_eq_true rfl, Bool.or_true] at hen
      exact hen.symm
    subst hhandled
    refine ⟨rfl, Bool.eq_false_iff.mpr fun hreg => ?_⟩
    -- the vector was counted before, so the set is the same and the counter is not
    have hset := registeredSet_insert hv h.registered_eq
    rw [Finset.insert_eq_of_mem (mem_registeredSet.mpr ⟨hv, hreg⟩)] at hset
    have hcount' := hc'.handlers_eq
    rw [hset, h.handlers_eq] at hcount'
    omega
  · intro ⟨hhandled, hreg⟩
    subst hhandled
    refine ⟨fun u hu => ?_, ?_⟩
    · rw [h.enabled_eq, h.registered_eq, hc.enabled_eq u hu]
      by_cases huv : u = v
      · simp [huv]
      · simp [huv]
    · rw [registeredSet_insert hv h.registered_eq, Finset.card_insert_of_notMem, h.handlers_eq]
      · omega
      · intro hmem
        rw [(mem_registeredSet.mp hmem).2] at hreg
        exact absurd hreg (by decide)

theorem Removed.coherent_iff (h : Removed s s' v) (hc : s.Coherent) (hv : v < msiVectors)
    (hreg : s.registered v = true) : s'.Coherent ↔ AloneInBank s v := by
  have hcount := hc.handlers_eq
  have hmem : v ∈ s.registeredSet := mem_registeredSet.mpr ⟨hv, hreg⟩
  have hpos := Finset.card_pos.mpr ⟨v, hmem⟩
  have hle := card_registeredSet_le s
  rw [msiVectors] at hle
  constructor
  · intro hc' u hu huv hbank
    have hen := hc'.enabled_eq u hu
    rw [h.enabled_eq, h.registered_eq, if_neg huv, decide_eq_false (not_not.mpr hbank),
      Bool.and_false] at hen
    exact hen.symm
  · intro halone
    refine ⟨fun u hu => ?_, ?_⟩
    · rw [h.enabled_eq, h.registered_eq, hc.enabled_eq u hu]
      by_cases huv : u = v
      · simp [huv]
      · by_cases hbank : u / 32 = v / 32
        · simp [huv, hbank, halone u hu huv hbank]
        · simp [huv, hbank]
    · rw [registeredSet_erase h.registered_eq, Finset.card_erase_of_mem hmem, h.handlers_eq]
      omega

theorem added_addIrqevent (s : Msi η) (v : ℕ) (e : Edge) (h : Option η)
    (hm : (s.msix v).handler.isSome = false) :
    Added s (saa7231AddIrqevent s v e h) v h.isSome := by
  refine ⟨fun u => enabled_vectorCtl_set _ v u, fun u => ?_, rfl⟩
  show ((Function.update s.event v ⟨v, h⟩ u).handler.isSome || (s.msix u).handler.isSome) = _
  by_cases hu : u = v
  · subst hu
    rw [Function.update_self, hm, Bool.or_false, if_pos rfl]
  · rw [Function.update_of_ne hu, if_neg hu]
    rfl

theorem added_addMsivector (s : Msi η) (v : ℕ) (e : Edge) (h : Option η)
    (he : (s.event v).handler.isSome = false) :
    Added s (saa7231AddMsivector s v e h) v h.isSome := by
  refine ⟨fun u => enabled_vectorCtl_set _ v u, fun u => ?_, rfl⟩
  show ((s.event u).handler.isSome ||
    (Function.update s.msix v { s.msix v with handler := h } u).handler.isSome) = _
  by_cases hu : u = v
  · subst hu
    rw [Function.update_self, he, Bool.false_or, if_pos rfl]
  · rw [Function.update_of_ne hu, if_neg hu]
    rfl

theorem removed_removeIrqevent (s : Msi η) (v : ℕ) (hreg : (s.event v).handler.isSome = true)
    (hm : (s.msix v).handler.isSome = false) : Removed s (saa7231RemoveIrqevent s v) v := by
  rw [saa7231RemoveIrqevent, if_pos hreg]
  refine ⟨fun u => enabled_vectorCtl_clr _ v u, fun u => ?_, rfl⟩
  show ((Function.update s.event v ⟨0, none⟩ u).handler.isSome || (s.msix u).handler.isSome) = _
  by_cases hu : u = v
  · subst hu
    rw [Function.update_self, hm, if_pos rfl]
    rfl
  · rw [Function.update_of_ne hu, if_neg hu]
    rfl

theorem removeIrqevent_of_none (s : Msi η) (v : ℕ) (hreg : ¬ (s.event v).handler.isSome = true) :
    saa7231RemoveIrqevent s v = s := by
  rw [saa7231RemoveIrqevent, if_neg hreg]

/-! The loop of `saa7231_remove_msivector` does its work in the first round. -/

theorem removeMsivectorBody_of_none (v : ℕ) (s : Msi η)
    (h : ¬ ((s.msix v).vector = v ∧ (s.msix v).handler.isSome = true)) :
    removeMsivectorBody v s = s := by
  rw [removeMsivectorBody]
  by_cases hv : (s.msix v).vector = v
  · rw [if_pos hv, if_neg fun hs => h ⟨hv, hs⟩]
  · rw [if_neg hv]

theorem msix_removeMsivectorBody (v : ℕ) (s : Msi η)
    (h : (s.msix v).vector = v ∧ (s.msix v).handler.isSome = true) :
    (removeMsivectorBody v s).msix = Function.update s.msix v ⟨0, none⟩ := by
  rw [removeMsivectorBody, if_pos h.1, if_pos h.2]
  rfl

theorem removeMsivector_eq_body (s : Msi η) (v : ℕ) :
    saa7231RemoveMsivector s v = removeMsivectorBody v s := by
  have hfix : removeMsivectorBody v (removeMsivectorBody v s) = removeMsivectorBody v s := by
    by_cases h : (s.msix v).vector = v ∧ (s.msix v).handler.isSome = true
    · apply removeMsivectorBody_of_none
      rw [msix_removeMsivectorBody v s h, Function.update_self]
      exact fun h' => absurd h'.2 (by simp)
    · rw [removeMsivectorBody_of_none v s h, removeMsivectorBody_of_none v s h]
  rw [saa7231RemoveMsivector, Function.iterate_succ_apply, Function.iterate_fixed hfix]

theorem removed_removeMsivector (s : Msi η) (v : ℕ)
    (h : (s.msix v).vector = v ∧ (s.msix v).handler.isSome = true)
    (he : (s.event v).handler.isSome = false) : Removed s (saa7231RemoveMsivector s v) v := by
  rw [removeMsivector_eq_body, removeMsivectorBody, if_pos h.1, if_pos h.2]
  refine ⟨fun u => enabled_vectorCtl_clr _ v u, fun u => ?_, rfl⟩
  show ((s.event u).handler.isSome || (Function.update s.msix v ⟨0, none⟩ u).handler.isSome) = _
  by_cases hu : u = v
  · subst hu
    rw [Function.update_self, he, if_pos rfl]
    rfl
  · rw [Function.update_of_ne hu, if_neg hu]
    rfl

/-! ### Runs -/

/-- A call of one of the two interfaces. -/
inductive VectorOp (η : Type*) where
  | addIrqevent (vector : ℕ) (edge : Edge) (handler : Option η)
  | removeIrqevent (vector : ℕ)
  | addMsivector (vector : ℕ) (edge : Edge) (handler : Option η)
  | removeMsivector (vector : ℕ)

def VectorOp.vector : VectorOp η → ℕ
  | .addIrqevent v _ _ => v
  | .removeIrqevent v => v
  | .addMsivector v _ _ => v
  | .removeMsivector v => v

def VectorOp.usesMsix : VectorOp η → Bool
  | .addIrqevent _ _ _ => false
  | .removeIrqevent _ => false
  | .addMsivector _ _ _ => true
  | .removeMsivector _ => true

/-- A call on a vector below 128 through the interface that `viaMsix` assigns to the vector. -/
def VectorCall (η : Type*) (viaMsix : ℕ → Bool) : Type _ :=
  { op : VectorOp η // op.vector < msiVectors ∧ op.usesMsix = viaMsix op.vector }

def Msi.step (s : Msi η) : VectorOp η → Msi η
  | .addIrqevent v e h => saa7231AddIrqevent s v e h
  | .removeIrqevent v => saa7231RemoveIrqevent s v
  | .addMsivector v e h => saa7231AddMsivector s v e h
  | .removeMsivector v => saa7231RemoveMsivector s v

/-- A vector added has a handler and had none before; a vector removed is alone in its bank. -/
def VectorGuard (s : Msi η) : VectorOp η → Prop
  | .addIrqevent v _ h => h.isSome = true ∧ (s.event v).handler.isSome = false
  | .removeIrqevent v => (s.event v).handler.isSome = true → AloneInBank s v
  | .addMsivector v _ h => h.isSome = true ∧ (s.msix v).handler.isSome = false
  | .removeMsivector v =>
    (s.msix v).vector = v ∧ (s.msix v).handler.isSome = true → AloneInBank s v

/-- Each table holds handlers for the vectors assigned to it only. -/
structure OneInterface (viaMsix : ℕ → Bool) (s : Msi η) : Prop where
  event : ∀ v, (s.event v).handler.isSome = true → viaMsix v = false
  msix : ∀ v, (s.msix v).handler.isSome = true → viaMsix v = true

theorem OneInterface.msix_none (h : OneInterface f s) (hv : f v = false) : (s.msix v).handler.isSome = false :=
  Bool.eq_false_iff.mpr fun hs => by rw [h.msix v hs] at hv; exact absurd hv (by decide)

theorem OneInterface.event_none (h : OneInterface f s) (hv : f v = true) : (s.event v).handler.isSome = false :=
  Bool.eq_false_iff.mpr fun hs => by rw [h.event v hs] at hv; exact absurd hv (by decide)

theorem OneInterface.update_event (h : OneInterface f s) {e : IrqEntry η} (hv : f v = false)
    (he : s'.event = Function.update s.event v e) (hm : s'.msix = s.msix) : OneInterface f s' := by
  refine ⟨fun u hu => ?_, fun u hu => h.msix u (by rwa [hm] at hu)⟩
  by_cases huv : u = v
  · exact huv ▸ hv
  · rw [he, Function.update_of_ne huv] at hu
    exact h.event u hu

theorem OneInterface.update_msix (h : OneInterface f s) {e : IrqEntry η} (hv : f v = true)
    (hm : s'.msix = Function.update s.msix v e) (he : s'.event = s.event) : OneInterface f s' := by
  refine ⟨fun u hu => h.event u (by rwa [he] at hu), fun u hu => ?_⟩
  by_cases huv : u = v
  · exact huv ▸ hv
  · rw [hm, Function.update_of_ne huv] at hu
    exact h.msix u hu

theorem OneInterface.step (h : OneInterface f s) (op : VectorOp η) (hop : op.usesMsix = f op.vector) :
    OneInterface f (s.step op) := by
  cases op with
  | addIrqevent v e hd => exact h.update_event hop.symm rfl rfl
  | addMsivector v e hd => exact h.update_msix hop.symm rfl rfl
  | removeIrqevent v =>
    by_cases hreg : (s.event v).handler.isSome = true
    · rw [Msi.step, saa7231RemoveIrqevent, if_pos hreg]
      exact h.update_event hop.symm rfl rfl
    · rw [Msi.step, removeIrqevent_of_none s v hreg]
      exact h
  | removeMsivector v =>
    rw [Msi.step, removeMsivector_eq_body]
    by_cases hreg : (s.msix v).vector = v ∧ (s.msix v).handler.isSome = true
    · rw [removeMsivectorBody, if_pos hreg.1, if_pos hreg.2]
      exact h.update_msix hop.symm rfl rfl
    · rw [removeMsivectorBody_of_none v s hreg]
      exact h

theorem coherent_step_iff (hf : OneInterface f s) (hc : s.Coherent) (op : VectorOp η) (hv : op.vector < msiVectors)
    (hop : op.usesMsix = f op.vector) : (s.step op).Coherent ↔ VectorGuard s op := by
  cases op with
  | addIrqevent v e h =>
    have hm : (s.msix v).handler.isSome = false := hf.msix_none hop.symm
    rw [Msi.step, (added_addIrqevent s v e h hm).coherent_iff hc hv, Msi.registered, VectorGuard]
    show _ ∧ (_ || (s.msix v).handler.isSome) = false ↔ _
    rw [hm, Bool.or_false]
  | addMsivector v e h =>
    have he : (s.event v).handler.isSome = false := hf.event_none hop.symm
    rw [Msi.step, (added_addMsivector s v e h he).coherent_iff hc hv, Msi.registered, VectorGuard]
    show _ ∧ ((s.event v).handler.isSome || _) = false ↔ _
    rw [he, Bool.false_or]
  | removeIrqevent v =>
    show (saa7231RemoveIrqevent s v).Coherent ↔ (_ → _)
    by_cases hreg : (s.event v).handler.isSome = true
    · have hr : s.registered v = true := by rw [Msi.registered, hreg, Bool.true_or]
      rw [(removed_removeIrqevent s v hreg (hf.msix_none hop.symm)).coherent_iff hc hv hr,
        forall_prop_of_true hreg]
    · rw [removeIrqevent_of_none s v hreg]
      exact iff_of_true hc fun h => absurd h hreg
  | removeMsivector v =>
    show (saa7231RemoveMsivector s v).Coherent ↔ (_ → _)
    by_cases hreg : (s.msix v).vector = v ∧ (s.msix v).handler.isSome = true
    · have hr : s.registered v = true := by rw [Msi.registered, hreg.2, Bool.or_true]
      rw [(removed_removeMsivector s v hreg (hf.event_none hop.symm)).coherent_iff hc hv hr,
        forall_prop_of_true hreg]
    · rw [removeMsivector_eq_body, removeMsivectorBody_of_none v s hreg]
      exact iff_of_true hc fun h => absurd h hreg

/-! ### After initialisation -/

theorem msiClearBank_spec (n : ℕ) (s : Msi η) :
    (msiClearBank n s).ena = Function.update s.ena n 0 ∧ (msiClearBank n s).event = s.event ∧
      (msiClearBank n s).msix = s.msix := by
  have hena : (if s.ena n ≠ 0 then s.wrEnaClr n (s.ena n) else s).ena = Function.update s.ena n 0 := by
    by_cases hz : s.ena n ≠ 0
    · rw [if_pos hz, Msi.wrEnaClr, BitVec.and_not_self]
    · rw [if_neg hz, ← not_not.mp hz, Function.update_eq_self]
  rw [← hena, msiClearBank]
  refine ⟨?_, ?_, ?_⟩
  · split <;> split <;> rfl
  · split <;> split <;> rfl
  · split <;> split <;> rfl

theorem msiClear_spec (n : ℕ) (s : Msi η) :
    (∀ i, i < n → (msiClear n s).ena i = 0) ∧ (msiClear n s).event = s.event ∧
      (msiClear n s).msix = s.msix := by
  induction n with
  | zero => exact ⟨fun i hi => absurd hi (Nat.not_lt_zero i), rfl, rfl⟩
  | succ n ih =>
    obtain ⟨hena, hevent, hmsix⟩ := ih
    obtain ⟨hena', hevent', hmsix'⟩ := msiClearBank_spec n (msiClear n s)
    refine ⟨fun i hi => ?_, hevent'.trans hevent, hmsix'.trans hmsix⟩
    rw [msiClear, hena']
    by_cases hin : i = n
    · rw [hin, Function.update_self]
    · rw [Function.update_of_ne hin]
      exact hena i (by omega)

theorem coherent_of_init {id : ℕ} (h : saa7231MsiInit id s = (0, s')) : s'.Coherent ∧ ∀ f, OneInterface f s' := by
  have hne : ∀ (x : ℤ) (t : Msi η), x ≠ 0 → ¬ (x, t) = (0, s') :=
    fun x t hx heq => hx (congrArg Prod.fst heq)
  rw [saa7231MsiInit] at h
  split at h
  · exact absurd h (hne _ _ (by decide))
  · split at h
    · exact absurd h (hne _ _ (by decide))
    · obtain ⟨hena, hevent, hmsix⟩ := msiClear_spec 4 (msiFresh s)
      generalize msiClear 4 (msiFresh s) = t at h hena hevent hmsix
      obtain ⟨-, rfl⟩ := Prod.mk.inj h
      have hreg : ∀ v, Msi.registered { t with handlers := 0 } v = false := by
        intro v
        simp only [Msi.registered, hevent, hmsix]
        rfl
      refine ⟨⟨fun v hv => ?_, ?_⟩, fun f => ⟨fun v hv => ?_, fun v hv => ?_⟩⟩
      · rw [hreg, Msi.enabled]
        show BitVec.getLsbD _ _ = false
        rw [hena (v / 32) (by rw [msiVectors] at hv; omega)]
        exact BitVec.getLsbD_zero
      · have hempty : Msi.registeredSet { t with handlers := 0 } = ∅ :=
          Finset.filter_false_of_mem fun v _ => by rw [hreg v]; decide
        rw [hempty, Finset.card_empty]
      · rw [hevent] at hv
        exact absurd hv (by simp [msiFresh])
      · rw [hmsix] at hv
        exact absurd hv (by simp [msiFresh])

/-- **Interrupt enables, exactly.**  After `saa7231_msi_init` and for calls that keep to one
interface per vector, enables, tables and counter agree after every call of a run exactly if the
guard holds at every call. -/
theorem along_coherent_iff (viaMsix : ℕ → Bool) (id : ℕ) (s s' : Msi η)
    (h : saa7231MsiInit id s = (0, s')) (ops : List (VectorCall η viaMsix)) :
    Along (fun s (op : VectorCall η viaMsix) => some (Msi.step s op.1))
        (fun s op => (s.step op.1).Coherent) s' ops ↔
      Along (fun s (op : VectorCall η viaMsix) => some (Msi.step s op.1))
        (fun s op => VectorGuard s op.1) s' ops := by
  obtain ⟨hc, hf⟩ := coherent_of_init h
  refine along_iff_of_invariant (I := fun s => s.Coherent ∧ OneInterface viaMsix s) ?_ ?_ ops s'
    ⟨hc, hf viaMsix⟩
  · intro s op s'' hs hg hstep
    cases hstep
    exact ⟨(coherent_step_iff hs.2 hs.1 op.1 op.2.1 op.2.2).mpr hg, hs.2.step op.1 op.2.2⟩
  · intro s op hs
    exact coherent_step_iff hs.2 hs.1 op.1 op.2.1 op.2.2

/-- The module as the device powers up, with one vector left enabled. -/
def powerUp : Msi Unit :=
  ⟨fun i => if i = 0 then 1 else 0, fun _ => 0, fun _ => 0, fun _ => ⟨0, none⟩, fun _ => ⟨0, none⟩, 0⟩

def addTs2d (v : ℕ) (h : v < msiVectors) : VectorCall Unit fun _ => false :=
  ⟨.addIrqevent v .rising (some ()), h, rfl⟩

def removeTs2d (v : ℕ) (h : v < msiVectors) : VectorCall Unit fun _ => false :=
  ⟨.removeIrqevent v, h, rfl⟩

instance (s : Msi η) (v : ℕ) : Decidable (AloneInBank s v) :=
  inferInstanceAs (Decidable (∀ u, u < msiVectors → u ≠ v → u / 32 = v / 32 → s.registered u = false))

theorem along_coherent_add_remove :
    Along (fun s (op : VectorCall Unit fun _ => false) => some (Msi.step s op.1))
      (fun s op => (s.step op.1).Coherent) (saa7231MsiInit 0xa1090000 powerUp).2
      [addTs2d 47 (by decide), removeTs2d 47 (by decide)] := by
  refine (along_coherent_iff (fun _ => false) 0xa1090000 powerUp _
    (Prod.ext (by decide) rfl) _).mpr
    ⟨⟨rfl, by decide⟩, fun s hs => ⟨?_, fun _ _ => trivial⟩⟩
  cases hs
  intro _
  decide

/-- Vectors 47 and 48 belong to the two TS ports; removing the first disables the second too. -/
theorem not_coherent_remove_one_of_two :
    ¬ Along (fun s (op : VectorCall Unit fun _ => false) => some (Msi.step s op.1))
      (fun s op => (s.step op.1).Coherent) (saa7231MsiInit 0xa1090000 powerUp).2
      [addTs2d 47 (by decide), addTs2d 48 (by decide), removeTs2d 47 (by decide)] := by
  intro h
  have hc := ((h.2 _ rfl).2 _ rfl).1
  exact absurd (hc.enabled_eq 48 (by decide)) (by decide)

end BgtDvb.Saa7231
