import BgtDvb.Lib.GuardedRun
import BgtDvb.Saa7231Cgu

/-!
# The shadow of the clock outputs

The driver decides what to write to a clock output from `clk_status`, so the two must agree.
`saa7231_set_clk` computes source, divider and word only when the frequency changes, but writes the
register and the shadow always: asking for the recorded frequency writes 0 to the output, which starts
a stopped clock.

* `inStep_setClk`, `touches_activated` — **PROVED**: one operation keeps the domains in step;
* `clkInv_cguInit` — **PROVED**: after the initialisation they are;
* `along_shadowSound_iff` — **PROVED**: shadow and registers agree along a run, and no other output is
  touched, exactly if no call asks for the frequency that is recorded.
-/

namespace BgtDvb.Saa7231

open BgtDvb.RegFile BgtDvb.GuardedRun

/-! ### What an operation owes -/

/-- The output register of a domain holds what its shadow entry records. -/
structure Coherent (c : Cgu) (d : ClkDomain) : Prop where
  source_eq : c.regs (outReg d) >>> 24 = (c.setup d).clkIn
  divider_eq : (c.regs (outReg d) >>> 2) % 2 ^ 9 = (c.setup d).div
  disabled_iff : (c.regs (outReg d)).testBit 0 = true ↔ c.freq d = .off

/-- The clock outputs `CLKOUT(0)` to `CLKOUT(26)`: those of the domains, of the tests and of the
debugger. -/
def IsOutput (k : Reg) : Prop := ∃ j, j ≤ 26 ∧ k = (.cgu, clkout j)

def useDomains (index : ℕ) : List ClkDomain :=
  ClkDomain.all.filter fun d => !d.isSystem && decide (clkoutSel d (clkSel index) ≠ 0)

def operatesOn (c : Cgu) : CguOp → List ClkDomain
  | .setClk d _ => [d]
  | .activate mode port =>
    match (cguGetclkInstance mode port).2 with
    | some p => useDomains (c.port p).index
    | none => []
  | .disable mode port =>
    match (cguGetclkInstance mode port).2 with
    | some .tsin | some .tsout => [.tsoutCaextPcc]
    | _ => []

/-- What an operation owes: shadow and registers agree, no other output is changed, and a repeated
clock setting changes nothing. -/
structure ShadowKept (c : Cgu) (op : CguOp) (c' : Cgu) : Prop where
  coherent : ∀ d, d.isSystem = false → Coherent c' d
  others_eq : ∀ k, IsOutput k → (∀ d ∈ operatesOn c op, k ≠ outReg d) → c'.regs k = c.regs k
  repeat_eq : ∀ d f, op = .setClk d f → d.isSystem = false → f = c.freq d →
    c'.regs (outReg d) = c.regs (outReg d)

def ShadowSound (c : Cgu) (op : CguOp) : Prop := ∀ c', cguStep c op = some c' → ShadowKept c op c'

/-- No call asks for the recorded frequency of a domain; the stop of the TS output clock inside
`saa7231_disable_clocks` counts as such a call. -/
def NewFrequency (c : Cgu) : CguOp → Prop
  | .setClk d f => d.isSystem = false → f ≠ c.freq d
  | .activate _ _ => True
  | .disable mode port =>
    match (cguGetclkInstance mode port).2 with
    | some p => tsoutClkOff c mode port p = true → c.freq .tsoutCaextPcc ≠ .off
    | none => True

instance instDecidableNewFrequency (c : Cgu) : (op : CguOp) → Decidable (NewFrequency c op)
  | .setClk _ _ => inferInstanceAs (Decidable (_ → _))
  | .activate _ _ => isTrue trivial
  | .disable mode port =>
    match h : (cguGetclkInstance mode port).2 with
    | some p =>
      decidable_of_iff (tsoutClkOff c mode port p = true → c.freq .tsoutCaextPcc ≠ .off)
        (by rw [NewFrequency, h])
    | none => isTrue (by rw [NewFrequency, h]; trivial)

/-! ### Output registers -/

theorem ClkDomain.mem_all (d : ClkDomain) : d ∈ ClkDomain.all := by
  cases d <;> decide

theorem outReg_injective : Function.Injective outReg := by
  intro d d' h
  have hnodup : (ClkDomain.all.map outReg).Nodup := by decide
  exact List.inj_on_of_nodup_map hnodup d.mem_all d'.mem_all h

theorem isOutput_outReg (d : ClkDomain) : IsOutput (outReg d) :=
  ⟨if d.id ≤ 14 then d.id else d.id + 8, by cases d <;> decide, by cases d <;> decide⟩

theorem not_isOutput_of_lt {a : ℕ} (h : a < 0x58) : ¬ IsOutput (.cgu, a) := by
  rintro ⟨j, -, heq⟩
  have ha : a = clkout j := congrArg Prod.snd heq
  rw [clkout] at ha
  omega

theorem not_isOutput_of_gt {a : ℕ} (h : 0xC0 < a) : ¬ IsOutput (.cgu, a) := by
  rintro ⟨j, hj, heq⟩
  have ha : a = clkout j := congrArg Prod.snd heq
  rw [clkout] at ha
  omega

theorem outClock_fields {src div ena : ℕ} (hsrc : src < 32) (hdiv : div < 8) (hena : ena < 2) :
    outClock src div ena % 2 ^ 32 = outClock src div ena ∧ outClock src div ena >>> 24 = src ∧
      (outClock src div ena >>> 2) % 2 ^ 9 = div ∧ (outClock src div ena).testBit 0 = decide (ena = 1) ∧
      outClock src div ena ≠ 0 := by
  have hall : ∀ (s : Fin 32) (d : Fin 8) (e : Fin 2),
      outClock s d e % 2 ^ 32 = outClock s d e ∧ outClock s d e >>> 24 = s ∧
        (outClock s d e >>> 2) % 2 ^ 9 = d ∧ (outClock s d e).testBit 0 = decide (e.val = 1) ∧
        outClock s d e ≠ 0 := by
    decide
  exact hall ⟨src, hsrc⟩ ⟨div, hdiv⟩ ⟨ena, hena⟩

/-! ### What an operation on some domains leaves alone -/

/-- Only outputs, shadow entries and frequencies of the given domains changed, and no port changed its
clock. -/
structure Touches (ds : List ClkDomain) (c c' : Cgu) : Prop where
  regs_eq : ∀ k, IsOutput k → (∀ d ∈ ds, k ≠ outReg d) → c'.regs k = c.regs k
  setup_eq : ∀ d, d ∉ ds → c'.setup d = c.setup d
  freq_eq : ∀ d, d ∉ ds → c'.freq d = c.freq d
  index_eq : ∀ p, (c'.port p).index = (c.port p).index

theorem Touches.refl (ds : List ClkDomain) (c : Cgu) : Touches ds c c :=
  ⟨fun _ _ _ => rfl, fun _ _ => rfl, fun _ _ => rfl, fun _ => rfl⟩

variable {c c' : Cgu} {ds : List ClkDomain} {d d' : ClkDomain} {f : ClkFrequency}

theorem Touches.trans {c'' : Cgu} (h : Touches ds c c') (h' : Touches ds c' c'') : Touches ds c c'' where
  regs_eq k hk hds := (h'.regs_eq k hk hds).trans (h.regs_eq k hk hds)
  setup_eq d hd := (h'.setup_eq d hd).trans (h.setup_eq d hd)
  freq_eq d hd := (h'.freq_eq d hd).trans (h.freq_eq d hd)
  index_eq p := (h'.index_eq p).trans (h.index_eq p)

theorem Touches.mono {ds' : List ClkDomain} (h : Touches ds c c') (hsub : ds ⊆ ds') :
    Touches ds' c c' where
  regs_eq k hk hds := h.regs_eq k hk fun d hd => hds d (hsub hd)
  setup_eq d hd := h.setup_eq d fun hmem => hd (hsub hmem)
  freq_eq d hd := h.freq_eq d fun hmem => hd (hsub hmem)
  index_eq := h.index_eq

theorem Touches.foldl {α : Type} {g : Cgu → α → Cgu} (hg : ∀ c a, Touches ds c (g c a)) (l : List α) (c : Cgu) :
    Touches ds c (l.foldl g c) := by
  induction l generalizing c with
  | nil => exact Touches.refl ds c
  | cons a l ih => exact (hg c a).trans (ih (g c a))

theorem touches_wrRegs (c : Cgu) (ws : List (Reg × ℕ)) (h : ∀ w ∈ ws, ¬ IsOutput w.1) :
    Touches [] c (c.wrRegs ws) := by
  refine ⟨fun k hk _ => ?_, fun _ _ => rfl, fun _ _ => rfl, fun _ => rfl⟩
  apply wrAll_of_notMem
  intro hmem
  obtain ⟨w, hw, rfl⟩ := List.mem_map.mp hmem
  exact h w hw hk

theorem touches_wrOut (c : Cgu) (val : ℕ) (d : ClkDomain) (s : ClkSetup) (f : ClkFrequency) :
    Touches [d] c (c.wrOut (outReg d) val d s f) where
  regs_eq _ _ hk := wr_of_ne (hk d (List.mem_singleton_self d)) c.regs val
  setup_eq _ hd := Function.update_of_ne (fun heq => hd (List.mem_singleton.mpr heq)) _ _
  freq_eq _ hd := Function.update_of_ne (fun heq => hd (List.mem_singleton.mpr heq)) _ _
  index_eq _ := rfl

theorem touches_setPort (c : Cgu) (p : ClkPort) (s : PortSetup) (h : s.index = (c.port p).index) :
    Touches [] c (c.setPort p s) := by
  refine ⟨fun _ _ _ => rfl, fun _ _ => rfl, fun _ _ => rfl, fun q => ?_⟩
  show (Function.update c.port p s q).index = (c.port q).index
  by_cases hq : q = p
  · rw [hq, Function.update_self, h]
  · rw [Function.update_of_ne hq]

theorem touches_orClkout (c : Cgu) (preset : ℕ) : Touches [] c (c.orClkout preset) :=
  ⟨fun _ _ _ => rfl, fun _ _ => rfl, fun _ _ => rfl, fun _ => rfl⟩

theorem touches_pll550 (c : Cgu) (i : Pll550Index) (enable : Bool) (freq : Fin 3) :
    Touches [] c (saa7231Pll550Setup c i enable freq) := by
  have hC : ¬ IsOutput i.regC := by cases i <;> exact not_isOutput_of_lt (by decide)
  have hM : ¬ IsOutput i.regM := by cases i <;> exact not_isOutput_of_lt (by decide)
  have hN : ¬ IsOutput i.regN := by cases i <;> exact not_isOutput_of_lt (by decide)
  rw [saa7231Pll550Setup]
  cases enable with
  | true => exact touches_wrRegs c _ (by simp [hC, hM, hN])
  | false => exact touches_wrRegs c _ (by simp [hC, hM, hN])

theorem touches_pll160 (c : Cgu) (i : Pll160Index) (enable : Bool) (freq : Fin 3) :
    Touches [] c (saa7231Pll160Setup c i enable freq) := by
  have hC : ¬ IsOutput i.regC := by cases i <;> exact not_isOutput_of_lt (by decide)
  rw [saa7231Pll160Setup]
  cases enable with
  | true => exact touches_wrRegs c _ (by simp [hC])
  | false => exact touches_wrRegs c _ (by simp [hC])

theorem touches_divider (c : Cgu) (i : Divider) (val : ℕ) : Touches [] c (saa7231DividerSetup c i val) := by
  have hC : ¬ IsOutput i.reg := by cases i <;> exact not_isOutput_of_lt (by decide)
  exact touches_wrRegs c _ (by simp [hC])

theorem touches_inputSetup (c : Cgu) (i : ClkInput) : Touches [] c (inputSetup c i) := by
  rw [inputSetup]
  split
  · exact touches_pll160 c _ true _
  · exact touches_pll550 c _ true _
  · exact touches_divider c _ _
  · exact Touches.refl [] c

theorem touches_inputStep (preset : ℕ) (c : Cgu) (i : ClkInput) :
    Touches [] c (inputStep preset c i) := by
  rw [inputStep]
  split
  · obtain ⟨hregs, hsetup, hfreq, hindex⟩ := touches_inputSetup c i
    exact ⟨hregs, hsetup, hfreq, hindex⟩
  · exact Touches.refl [] c

theorem touches_inputsSetup (preset : ℕ) (c : Cgu) : Touches [] c (inputsSetup preset c) := by
  rw [inputsSetup]
  split
  · obtain ⟨hregs, hsetup, hfreq, hindex⟩ :=
      Touches.foldl (touches_inputStep preset) ClkInput.all c
    exact ⟨hregs, hsetup, hfreq, hindex⟩
  · exact Touches.refl [] c

theorem touches_adcSetup (c : Cgu) (adc : Adc) (clk : ℕ) (force : Bool) :
    Touches [] c (saa7231AdcSetup c adc clk force) := by
  rw [saa7231AdcSetup]
  split
  · exact Touches.refl [] c
  · have hgcr : ¬ IsOutput gcr9AnaClockDivSel := not_isOutput_of_gt (by decide)
    obtain ⟨hregs, hsetup, hfreq, hindex⟩ := touches_wrRegs c [(gcr9AnaClockDivSel,
      c.regs gcr9AnaClockDivSel &&& not32 (vadcMask adc) ||| clk <<< vadcPos adc)] (by simp [hgcr])
    exact ⟨hregs, hsetup, hfreq, hindex⟩

theorem touches_adcClksetup (c : Cgu) (index : ℕ) : Touches [] c (saa7231AdcClksetup c index) := by
  refine Touches.foldl (fun c adc => ?_) _ c
  rw [adcStep]
  split
  · exact touches_adcSetup c adc _ false
  · exact Touches.refl [] c

theorem touches_setClk (c : Cgu) (d : ClkDomain) (f : ClkFrequency) :
    Touches [d] c (saa7231SetClk c d f).2 := by
  rcases setClk_cases c d f with ⟨-, heq⟩ | ⟨-, heq⟩ | ⟨-, div, ena, -, heq⟩ | ⟨-, heq⟩
  · rw [heq]
    refine ⟨fun _ _ _ => rfl, fun _ _ => rfl, fun d' hd => ?_, fun _ => rfl⟩
    exact Function.update_of_ne (fun h => hd (List.mem_singleton.mpr h)) _ _
  · rw [heq]
    exact Touches.refl [d] c
  · rw [heq]
    exact touches_wrOut c _ d _ f
  · rw [heq]
    exact touches_wrOut c _ d _ f

/-! ### Domains in step -/

/-- The register is the word of the shadow entry, and the entry fits into the fields of a word. -/
structure InStep (c : Cgu) (d : ClkDomain) : Prop where
  reg_eq : c.regs (outReg d)
    = outClock (c.setup d).clkIn (c.setup d).div (if c.freq d = .off then 1 else 0)
  clkIn_lt : (c.setup d).clkIn < 32
  div_lt : (c.setup d).div < 8
  freq_ne : c.freq d ≠ .no

theorem disableBit_lt (f : ClkFrequency) : (if f = .off then 1 else 0) < 2 := by
  split <;> decide

theorem InStep.coherent (h : InStep c d) : Coherent c d := by
  obtain ⟨-, hsrc, hdiv, hbit, -⟩ := outClock_fields h.clkIn_lt h.div_lt (disableBit_lt (c.freq d))
  refine ⟨?_, ?_, ?_⟩
  · rw [h.reg_eq, hsrc]
  · rw [h.reg_eq, hdiv]
  · rw [h.reg_eq, hbit]
    by_cases hoff : c.freq d = .off <;> simp [hoff]

theorem InStep.reg_ne_zero (h : InStep c d) : c.regs (outReg d) ≠ 0 := by
  rw [h.reg_eq]
  exact (outClock_fields h.clkIn_lt h.div_lt (disableBit_lt (c.freq d))).2.2.2.2

theorem InStep.of_touches (h : InStep c d) (ht : Touches ds c c') (hd : d ∉ ds) : InStep c' d := by
  have hreg : c'.regs (outReg d) = c.regs (outReg d) := by
    apply ht.regs_eq _ (isOutput_outReg d)
    intro d' hd' heq
    exact hd (outReg_injective heq ▸ hd')
  refine ⟨?_, ?_, ?_, ?_⟩
  · rw [hreg, ht.setup_eq d hd, ht.freq_eq d hd]
    exact h.reg_eq
  · rw [ht.setup_eq d hd]
    exact h.clkIn_lt
  · rw [ht.setup_eq d hd]
    exact h.div_lt
  · rw [ht.freq_eq d hd]
    exact h.freq_ne

theorem divEna_spec {div ena : ℕ} (h : divEna d f = some (div, ena)) :
    div < 8 ∧ ena = (if f = .off then 1 else 0) ∧ f ≠ .no := by
  cases f with
  | off =>
    obtain ⟨rfl, rfl⟩ := Prod.mk.inj (Option.some.inj h)
    decide
  | low =>
    obtain ⟨rfl, rfl⟩ := Prod.mk.inj (Option.some.inj h)
    decide
  | usecase =>
    obtain ⟨rfl, rfl⟩ := Prod.mk.inj (Option.some.inj h)
    cases d <;> decide
  | no => exact absurd h (by simp [divEna])

theorem outSetup_clkIn_lt (d : ClkDomain) : (outSetup d 0).1 < 32 := by
  cases d <;> decide

@[simp] theorem setup_wrOut (c : Cgu) (k : Reg) (val : ℕ) (d : ClkDomain) (s : ClkSetup)
    (f : ClkFrequency) : (c.wrOut k val d s f).setup d = s := by
  show Function.update c.setup d s d = s
  rw [Function.update_self]

@[simp] theorem freq_wrOut (c : Cgu) (k : Reg) (val : ℕ) (d : ClkDomain) (s : ClkSetup)
    (f : ClkFrequency) : (c.wrOut k val d s f).freq d = f := by
  show Function.update c.freq d f d = f
  rw [Function.update_self]

theorem inStep_wrOut (c : Cgu) (d : ClkDomain) {s : ClkSetup} (hsrc : s.clkIn < 32) (hdiv : s.div < 8) (hf : f ≠ .no) :
    InStep (c.wrOut (outReg d) (outClock s.clkIn s.div (if f = .off then 1 else 0)) d s f) d := by
  refine ⟨?_, ?_, ?_, ?_⟩
  · rw [setup_wrOut, freq_wrOut]
    exact (wr_self _ _ _).trans (outClock_fields hsrc hdiv (disableBit_lt f)).1
  · rw [setup_wrOut]
    exact hsrc
  · rw [setup_wrOut]
    exact hdiv
  · rw [freq_wrOut]
    exact hf

/-- **A clock setting to a new frequency** brings its domain into step. -/
theorem inStep_setClk_self (c : Cgu) (hd : d.isSystem = false) (hf : f ≠ c.freq d) (hno : f ≠ .no) :
    InStep (saa7231SetClk c d f).2 d := by
  rcases setClk_cases c d f with ⟨hsys, -⟩ | ⟨hsys | hbad, -⟩ | ⟨-, div, ena, hdiv, heq⟩ | ⟨hrep, -⟩
  · exact absurd (hsys.symm.trans hd) (by decide)
  · exact absurd (hsys.symm.trans hd) (by decide)
  · exact absurd hbad hno
  · obtain ⟨hlt, rfl, hne⟩ := divEna_spec hdiv
    rw [heq]
    exact inStep_wrOut c d (s := ⟨(outSetup d 0).1, div, 0⟩) (outSetup_clkIn_lt d) hlt hne
  · exact absurd hrep hf

/-- A clock setting to a new frequency, or to `CLK_NO`, keeps every domain in step. -/
theorem inStep_setClk (hs : InStep c d') (hd' : d'.isSystem = false) (hf : d.isSystem = false → f ≠ c.freq d) :
    InStep (saa7231SetClk c d f).2 d' := by
  by_cases hdd : d' = d
  · subst hdd
    by_cases hno : f = .no
    · rcases setClk_cases c d' f with ⟨hsys, -⟩ | ⟨-, heq⟩ | ⟨-, div, ena, hdiv, -⟩ | ⟨hrep, -⟩
      · exact absurd (hsys.symm.trans hd') (by decide)
      · rw [heq]
        exact hs
      · exact absurd hno (divEna_spec hdiv).2.2
      · exact absurd hrep (hf hd')
    · exact inStep_setClk_self c hd' (hf hd') hno
  · exact hs.of_touches (touches_setClk c d f) fun hmem => hdd (List.mem_singleton.mp hmem)

/-- **The defect**: a call for the recorded frequency writes 0. -/
theorem reg_setClk_recorded (hs : InStep c d) (hd : d.isSystem = false) (hf : f = c.freq d) :
    (saa7231SetClk c d f).2.regs (outReg d) = 0 ∧ (saa7231SetClk c d f).2.freq d = f := by
  rcases setClk_cases c d f with ⟨hsys, -⟩ | ⟨hsys | hbad, -⟩ | ⟨hne, -⟩ | ⟨-, heq⟩
  · exact absurd (hsys.symm.trans hd) (by decide)
  · exact absurd (hsys.symm.trans hd) (by decide)
  · exact absurd (hf.symm.trans hbad) hs.freq_ne
  · exact absurd hf hne
  · rw [heq]
    exact ⟨wr_self c.regs (outReg d) 0, freq_wrOut _ _ _ _ _ _⟩

/-! ### The clocks of a use case -/

theorem clkout_id_eq (h : clkoutSel d 1 ≠ 0) : ((.cgu, clkout d.id) : Reg) = outReg d := by
  cases d <;> first | rfl | exact absurd rfl h

theorem mem_useDomains_zero (hd : d.isSystem = false) (h : clkoutSel d 1 ≠ 0) : d ∈ useDomains 0 := by
  refine List.mem_filter.mpr ⟨d.mem_all, ?_⟩
  show (!d.isSystem && decide (clkoutSel d 1 ≠ 0)) = true
  rw [hd, decide_eq_true h]
  rfl

theorem outSetup_preset_lt (d : ClkDomain) :
    (outSetup d (clkoutSel d 1 - 1)).1 < 32 ∧ (outSetup d (clkoutSel d 1 - 1)).2 - 1 < 8 := by
  cases d <;> decide

theorem outputStep_cases (c : Cgu) (d : ClkDomain) :
    outputStep 1 c d = c ∨
      d.isSystem = false ∧ clkoutSel d 1 ≠ 0 ∧ ∃ s : ClkSetup, s.clkIn < 32 ∧ s.div < 8 ∧
        outputStep 1 c d
          = (c.wrOut (outReg d) (outClock s.clkIn s.div 0) d s .usecase).orClkout 1 := by
  rw [outputStep]
  by_cases hsys : d.isSystem = true
  · rw [if_pos hsys]
    exact Or.inl rfl
  · rw [if_neg hsys]
    by_cases hsel : clkoutSel d 1 = 0
    · rw [if_pos hsel]
      exact Or.inl rfl
    · rw [if_neg hsel]
      split
      · obtain ⟨hsrc, hdiv⟩ := outSetup_preset_lt d
        refine Or.inr ⟨Bool.eq_false_iff.mpr hsys, hsel, ⟨_, _, clkoutSel d 1 - 1⟩, hsrc, hdiv, ?_⟩
        rw [clkout_id_eq hsel]
      · exact Or.inl rfl

theorem touches_outputStep (c : Cgu) (d : ClkDomain) : Touches (useDomains 0) c (outputStep 1 c d) := by
  rcases outputStep_cases c d with heq | ⟨hd, hsel, s, -, -, heq⟩
  · rw [heq]
    exact Touches.refl _ c
  · rw [heq]
    have hmem := mem_useDomains_zero hd hsel
    have hsub : [d] ⊆ useDomains 0 := List.cons_subset.mpr ⟨hmem, List.nil_subset _⟩
    exact ((touches_wrOut c _ d s .usecase).mono hsub).trans
      ((touches_orClkout _ 1).mono (List.nil_subset _))

theorem inStep_outputStep (d : ClkDomain) (hs : InStep c d') : InStep (outputStep 1 c d) d' := by
  rcases outputStep_cases c d with heq | ⟨hd, hsel, s, hsrc, hdiv, heq⟩
  · rw [heq]
    exact hs
  · rw [heq]
    have hout : InStep (c.wrOut (outReg d) (outClock s.clkIn s.div 0) d s .usecase) d' := by
      by_cases hdd : d' = d
      · rw [hdd]
        exact inStep_wrOut c d (f := .usecase) hsrc hdiv (by decide)
      · exact hs.of_touches (touches_wrOut c _ d s .usecase) fun hmem => hdd (List.mem_singleton.mp hmem)
    exact hout.of_touches (touches_orClkout _ 1) List.not_mem_nil

theorem inStep_outputs (ds : List ClkDomain) (c : Cgu) (hs : InStep c d') : InStep (ds.foldl (outputStep 1) c) d' := by
  induction ds generalizing c with
  | nil => exact hs
  | cons d ds ih => exact ih (outputStep 1 c d) (inStep_outputStep d hs)

theorem touches_systemSetup (c : Cgu) : Touches (useDomains 0) c (cguSystemSetup c 0) :=
  (((touches_inputsSetup 1 c).mono (List.nil_subset _)).trans
    (Touches.foldl touches_outputStep ClkDomain.all _)).trans
      ((touches_orClkout _ 1).mono (List.nil_subset _))

theorem inStep_systemSetup (hs : InStep c d) : InStep (cguSystemSetup c 0) d := by
  have hin := hs.of_touches (touches_inputsSetup 1 c) List.not_mem_nil
  exact (inStep_outputs ClkDomain.all _ hin).of_touches (touches_orClkout _ 1) List.not_mem_nil

/-- The invariant: every domain is in step, and the ports have the clock that `kzalloc` gave them. -/
structure ClkInv (c : Cgu) : Prop where
  inStep : ∀ d, d.isSystem = false → InStep c d
  index_eq : ∀ p, (c.port p).index = 0

theorem ClkInv.index_lt (h : ClkInv c) (p : ClkPort) : (c.port p).index < saa7231Clocks := by
  rw [h.index_eq p]
  decide

/-- A step from an invariant state is over when the domains it touches are in step again. -/
theorem ClkInv.of_touches (h : ClkInv c) (ht : Touches ds c c') (hs : ∀ d, d.isSystem = false → InStep c' d) :
    ClkInv c' :=
  ⟨hs, fun p => (ht.index_eq p).trans (h.index_eq p)⟩

theorem touches_activated (hI : ClkInv c) (p : ClkPort) :
    Touches (useDomains 0) c (activated c p) ∧
      ∀ d, d.isSystem = false → InStep (activated c p) d := by
  have hupd : updated c p = saa7231AdcClksetup (cguSystemSetup c 0) 0 := by
    rw [updated, hI.index_eq p]
  have hadc := touches_adcClksetup (cguSystemSetup c 0) 0
  have hport := touches_setPort (updated c p) p { (updated c p).port p with active := true } rfl
  rw [activated]
  rw [hupd] at hport ⊢
  constructor
  · exact ((touches_systemSetup c).trans (hadc.mono (List.nil_subset _))).trans
      (hport.mono (List.nil_subset _))
  · intro d hd
    exact ((inStep_systemSetup (hI.inStep d hd)).of_touches hadc List.not_mem_nil).of_touches hport
      List.not_mem_nil

/-! ### The initialisation -/

theorem initWrites_ne_outReg (gcr5 : ℕ) (a : ResetActive) : ∀ w ∈ cguInitWrites gcr5 a, w.1 ≠ outReg d := by
  have hkeys : (cguInitWrites gcr5 a).map Prod.fst = testOutputs ++ [gcr5MonitorSbSelect] ++
      streamClgates ++ [(.rgu, 0x0100), (.rgu, 0x0100), (.rgu, 0x0100), (.rgu, 0x0104), (.rgu, 0x0104),
        (.stream, 0x0004)] := rfl
  intro w hw heq
  have hmem : outReg d ∈ (cguInitWrites gcr5 a).map Prod.fst := heq ▸ List.mem_map_of_mem hw
  rw [hkeys] at hmem
  revert hmem
  cases d <;> decide

theorem inStep_initWrites (hs : InStep c d) (gcr5 : ℕ) (a : ResetActive) :
    InStep (c.wrRegs (cguInitWrites gcr5 a)) d := by
  have hreg : (c.wrRegs (cguInitWrites gcr5 a)).regs (outReg d) = c.regs (outReg d) := by
    apply wrAll_of_notMem
    intro hmem
    obtain ⟨w, hw, heq⟩ := List.mem_map.mp hmem
    exact initWrites_ne_outReg gcr5 a w hw heq
  exact ⟨hreg.trans hs.reg_eq, hs.clkIn_lt, hs.div_lt, hs.freq_ne⟩

theorem freq_setClk (hd : d.isSystem = false) (hno : f ≠ .no) : (saa7231SetClk c d f).2.freq d = f := by
  rcases setClk_cases c d f with ⟨hsys, -⟩ | ⟨hsys | hbad, -⟩ | ⟨-, div, ena, -, heq⟩ | ⟨-, heq⟩
  · exact absurd (hsys.symm.trans hd) (by decide)
  · exact absurd (hsys.symm.trans hd) (by decide)
  · exact absurd hbad hno
  · rw [heq, freq_wrOut]
  · rw [heq, freq_wrOut]

theorem inStep_setClks (ds : List ClkDomain) (c : Cgu) (hnodup : ds.Nodup) (hoff : ∀ d ∈ ds, c.freq d = .off)
    (hd : d.isSystem = false) (h : d ∈ ds ∨ InStep c d ∧ c.freq d = .usecase) :
    InStep (setClks c ds .usecase) d ∧ (setClks c ds .usecase).freq d = .usecase := by
  induction ds generalizing c with
  | nil => exact h.resolve_left List.not_mem_nil
  | cons d₀ ds ih =>
    obtain ⟨hd₀, hnodup⟩ := List.nodup_cons.mp hnodup
    have hoff₀ : c.freq d₀ = .off := hoff d₀ List.mem_cons_self
    have ht := touches_setClk c d₀ .usecase
    have hne : ∀ {d'}, d' ≠ d₀ → d' ∉ [d₀] := fun hd' hmem => hd' (List.mem_singleton.mp hmem)
    refine ih (saa7231SetClk c d₀ .usecase).2 hnodup (fun d' hd' => ?_) ?_
    · have hdd : d' ≠ d₀ := fun heq => hd₀ (heq ▸ hd')
      rw [ht.freq_eq d' (hne hdd)]
      exact hoff d' (List.mem_cons_of_mem _ hd')
    · by_cases hdd : d = d₀
      · subst hdd
        exact Or.inr ⟨inStep_setClk_self c hd (by rw [hoff₀]; decide) (by decide),
          freq_setClk hd (by decide)⟩
      · rcases h with hmem | ⟨hs, hf⟩
        · exact Or.inl ((List.mem_cons.mp hmem).resolve_left hdd)
        · exact Or.inr ⟨hs.of_touches ht (hne hdd), (ht.freq_eq d (hne hdd)).trans hf⟩

theorem index_setClks (ds : List ClkDomain) (c : Cgu) (f : ClkFrequency) (p : ClkPort) :
    ((setClks c ds f).port p).index = (c.port p).index := by
  induction ds generalizing c with
  | nil => rfl
  | cons d ds ih => exact (ih _).trans ((touches_setClk c d f).index_eq p)

theorem touches_initPlls (c : Cgu) : Touches [] c (cguInitPlls c) :=
  (((touches_pll550 c .ad true 0).trans (touches_pll550 _ .refa true 2)).trans
    (touches_pll160 _ .dsp true 1)).trans (touches_pll160 _ .cdec true 2)

/-- The clocks are set from a zeroed state; `CLK_OFF` is the zero of the enumeration. -/
theorem clkInv_initClocks (c : Cgu) (hoff : ∀ d, c.freq d = .off) (hidx : ∀ p, (c.port p).index = 0)
    (a : ResetActive) : ClkInv (cguInitClocks c a) := by
  have hplls := touches_initPlls c
  have hloop : ∀ d, d.isSystem = false →
      InStep (setClks (cguInitPlls c) ClkDomain.all .usecase) d ∧
        (setClks (cguInitPlls c) ClkDomain.all .usecase).freq d = .usecase := by
    intro d hd
    refine inStep_setClks ClkDomain.all _ (by decide) (fun d' _ => ?_) hd (Or.inl d.mem_all)
    rw [hplls.freq_eq d' List.not_mem_nil]
    exact hoff d'
  have hindex : ∀ p, ((setClks (cguInitPlls c) ClkDomain.all .usecase).port p).index = 0 := by
    intro p
    rw [index_setClks, hplls.index_eq p, hidx p]
  show ClkInv (saa7231SetClk ((setClks (cguInitPlls c) ClkDomain.all .usecase).wrRegs _) .extCa .off).2
  generalize setClks (cguInitPlls c) ClkDomain.all .usecase = c₁ at hloop hindex
  refine ⟨fun d hd => ?_, fun p => ((touches_setClk _ _ _).index_eq p).trans (hindex p)⟩
  apply inStep_setClk (inStep_initWrites (hloop d hd).1 _ a) hd
  intro _
  show ClkFrequency.off ≠ c₁.freq .extCa
  rw [(hloop .extCa rfl).2]
  decide

theorem clkInv_cguInit {clk : RootClk} {regs : Reg → ℕ} {version : Fin 2} {a : ResetActive}
    (h : saa7231CguInit clk regs version a = some c) : ClkInv c := by
  cases clk with
  | clk27MHz =>
    obtain rfl := Option.some.inj h
    exact clkInv_initClocks _ (fun _ => rfl) (fun _ => rfl) a
  | clk54MHz =>
    obtain rfl := Option.some.inj h
    exact clkInv_initClocks _ (fun _ => rfl) (fun _ => rfl) a
  | custom => exact absurd h (by simp [saa7231CguInit])

/-! ### Whole runs -/

theorem operatesOn_disable {mode : Mode} {port : StreamPort} {p : ClkPort}
    (hget : cguGetclkInstance mode port = (0, some p)) (htest : tsoutClkOff c mode port p = true) :
    operatesOn c (.disable mode port) = [.tsoutCaextPcc] := by
  have hp : p = .tsin ∨ p = .tsout := by
    cases p <;>
      first
        | exact Or.inl rfl
        | exact Or.inr rfl
        | exact absurd (Bool.and_eq_true_iff.mp htest).2 Bool.false_ne_true
  rcases hp with rfl | rfl <;> rw [operatesOn, hget]

theorem newFrequency_step {op : CguOp} (hI : ClkInv c) (hnew : NewFrequency c op) (hstep : cguStep c op = some c') :
    Touches (operatesOn c op) c c' ∧ ∀ d, d.isSystem = false → InStep c' d := by
  cases op with
  | setClk d f =>
    obtain rfl := Option.some.inj hstep
    exact ⟨touches_setClk c d f, fun d' hd' => inStep_setClk (hI.inStep d' hd') hd' hnew⟩
  | activate mode port =>
    obtain ⟨⟨ret, c''⟩, hact, rfl⟩ := Option.map_eq_some_iff.mp hstep
    rcases (activate_cases hI.index_lt hact).2 with rfl | ⟨p, hget, -, rfl⟩
    · exact ⟨Touches.refl _ _, hI.inStep⟩
    · have hops : operatesOn c (.activate mode port) = useDomains 0 := by
        rw [operatesOn, hget]
        exact congrArg useDomains (hI.index_eq p)
      rw [hops]
      exact touches_activated hI p
  | disable mode port =>
    obtain rfl := Option.some.inj hstep
    rcases disable_cases c mode port with heq | ⟨p, hget⟩
    · rw [heq]
      exact ⟨Touches.refl _ c, hI.inStep⟩
    · have hport : Touches [] c (released c p) := touches_setPort c p _ rfl
      have hinStep := fun d hd => (hI.inStep d hd).of_touches hport List.not_mem_nil
      rw [disable_eq c hget]
      split
      · rename_i htest
        rw [NewFrequency, hget] at hnew
        rw [operatesOn_disable hget htest]
        exact ⟨(hport.mono (List.nil_subset _)).trans (touches_setClk _ _ _),
          fun d hd => inStep_setClk (hinStep d hd) hd fun _ => (hnew htest).symm⟩
      · exact ⟨hport.mono (List.nil_subset _), hinStep⟩

theorem clkInv_step {op : CguOp} (hI : ClkInv c) (hnew : NewFrequency c op) (hstep : cguStep c op = some c') :
    ClkInv c' := by
  obtain ⟨ht, hs⟩ := newFrequency_step hI hnew hstep
  exact hI.of_touches ht hs

/-- **One step**: an operation keeps shadow and registers together exactly if it does not ask for the
recorded frequency. -/
theorem shadowSound_iff (hI : ClkInv c) (op : CguOp) : ShadowSound c op ↔ NewFrequency c op := by
  constructor
  · intro h
    cases op with
    | setClk d f =>
      intro hd hf
      have hkept := (h _ rfl).repeat_eq d f rfl hd hf
      rw [(reg_setClk_recorded (hI.inStep d hd) hd hf).1] at hkept
      exact (hI.inStep d hd).reg_ne_zero hkept.symm
    | activate mode port => trivial
    | disable mode port =>
      rw [NewFrequency]
      rcases getclk_cases mode port with hget | hget | ⟨p, hget⟩
      · rw [hget]
        trivial
      · rw [hget]
        trivial
      · rw [hget]
        intro htest hoff
        have hport : Touches [] c (released c p) := touches_setPort c p _ rfl
        have hinStep := (hI.inStep .tsoutCaextPcc rfl).of_touches hport List.not_mem_nil
        obtain ⟨hreg, hfreq⟩ := reg_setClk_recorded hinStep rfl hoff.symm
        have hbit := ((h _ rfl).coherent .tsoutCaextPcc rfl).disabled_iff
        rw [disable_eq c hget, if_pos htest, hreg, hfreq] at hbit
        exact absurd (hbit.mpr rfl) (by decide)
  · intro hnew c' hstep
    obtain ⟨ht, hs⟩ := newFrequency_step hI hnew hstep
    refine ⟨fun d hd => (hs d hd).coherent, fun k hk hops => ht.regs_eq k hk hops, ?_⟩
    rintro d f rfl hd hf
    exact absurd hf (hnew hd)

/-- **The clock shadow, exactly.**  After the initialisation every domain is coherent, and along every
run from there each operation keeps shadow and registers together if and only if no operation asks for
the frequency that is recorded. -/
theorem along_shadowSound_iff {clk : RootClk} {regs : Reg → ℕ} {version : Fin 2} {a : ResetActive}
    {c : Cgu} (h : saa7231CguInit clk regs version a = some c) (ops : List CguOp) :
    (∀ d, d.isSystem = false → Coherent c d) ∧
      (Along cguStep ShadowSound c ops ↔ Along cguStep NewFrequency c ops) := by
  have hI := clkInv_cguInit h
  refine ⟨fun d hd => (hI.inStep d hd).coherent, ?_⟩
  exact along_iff_of_invariant (fun _ _ _ hI hnew hstep => clkInv_step hI hnew hstep)
    (fun _ op hI => shadowSound_iff hI op) ops c hI

theorem shadowSound_stop_and_start : Along cguStep ShadowSound boardCgu
    [.setClk .vcp .off, .activate .digitalCapture .ts2dCam, .setClk .vcp .low,
      .disable .digitalCapture .ts2dCam] :=
  ((along_shadowSound_iff (rfl : saa7231CguInit .clk54MHz (fun _ => 0) 0 ⟨0, 0⟩ = some boardCgu) _).2).mpr
    (by decide)

/-- A clock that is stopped twice runs: its output is 0, with the disable bit clear. -/
theorem not_shadowSound_stop_twice :
    saa7231CguInit .clk54MHz (fun _ => 0) 0 ⟨0, 0⟩ = some boardCgu ∧
      ¬ Along cguStep ShadowSound boardCgu [.setClk .vcp .off, .setClk .vcp .off] := by
  refine ⟨rfl, fun h => ?_⟩
  have hkept := (h.2 _ rfl).1 _ rfl
  have hbit := hkept.coherent .vcp rfl
  exact absurd (hbit.disabled_iff.mpr (by decide +kernel)) (by decide +kernel)

end BgtDvb.Saa7231
