import BgtDvb.Lib.GuardedRun
import BgtDvb.Saa7231Cgu

/-!
# Sharing the ADCs

Two ports may be active together only if `adcuse_ex` allows their ADC presets.  Before a port is
activated `cgu_clkupdate_instance` looks for an active port that excludes it; it leaves its loop when it
finds one, and then returns 0 as it does when it finds none.

* `clash_iff` — **PROVED**: the loop finds a port exactly if an active port of the mask excludes the new
  one;
* `along_adcSound_iff` — **PROVED**: along every run the activations respect the table exactly if none of
  them meets a conflict.
-/

namespace BgtDvb.Saa7231

open BgtDvb.GuardedRun

/-! ### What an activation owes -/

/-- An active port that the mask of `p` selects excludes a clock. -/
def Excluded (c : Cgu) (p : ClkPort) (index : ℕ) : Prop :=
  ∃ q ∈ clkuseMask p, (c.port q).active = true ∧
    adcuseEx (adcSel index c.version) (adcSel (c.port q).index c.version) = 0

/-- What the activation of an idle port owes: a port that is marked is not excluded, and a port that is
excluded on its own and on its alternative path is refused without a trace. -/
structure AdcKept (c : Cgu) (p : ClkPort) (ret : ℤ) (c' : Cgu) : Prop where
  exclusive : ret = 0 → (c'.port p).active = true → ∀ q ∈ clkuseMask p, (c'.port q).active = true →
    adcuseEx (adcSel (c'.port p).index c'.version) (adcSel (c'.port q).index c'.version) ≠ 0
  refused : Excluded c p (c.port p).index →
    (∀ alt, altPath (c.port p).lastCfg = some alt → Excluded c p (altIndex alt)) →
    ret < 0 ∧ c'.port = c.port ∧ c'.regs = c.regs

def AdcSound (c : Cgu) : CguOp → Prop
  | .activate mode port =>
    ∀ p ret c', cguGetclkInstance mode port = (0, some p) → (c.port p).active = false →
      saa7231ActivateClocks c mode port = some (ret, c') → AdcKept c p ret c'
  | _ => True

/-- The loop of `cgu_clkupdate_instance` is left early. -/
def clash (c : Cgu) (p : ClkPort) (index : ℕ) : Bool := (ClkPort.all.find? (clkClash c p index)).isSome

def NoClash (c : Cgu) : CguOp → Prop
  | .activate mode port =>
    match (cguGetclkInstance mode port).2 with
    | some p => (c.port p).active = false → clash c p (c.port p).index = false
    | none => True
  | _ => True

instance instDecidableNoClash (c : Cgu) : (op : CguOp) → Decidable (NoClash c op)
  | .setClk _ _ => isTrue trivial
  | .disable _ _ => isTrue trivial
  | .activate mode port =>
    match h : (cguGetclkInstance mode port).2 with
    | some p =>
      decidable_of_iff ((c.port p).active = false → clash c p (c.port p).index = false)
        (by rw [NoClash, h])
    | none => isTrue (by rw [NoClash, h]; trivial)

/-! ### The scan -/

theorem ClkPort.mem_all (p : ClkPort) : p ∈ ClkPort.all := by
  cases p <;> decide

variable (c : Cgu) (preset : ℕ)

theorem clkClash_iff (p q : ClkPort) (index : ℕ) :
    clkClash c p index q = true ↔ q ∈ clkuseMask p ∧ (c.port q).active = true ∧
      adcuseEx (adcSel index c.version) (adcSel (c.port q).index c.version) = 0 := by
  rw [clkClash, Bool.and_eq_true, Bool.and_eq_true, decide_eq_true_iff, decide_eq_true_iff, and_assoc]

theorem clash_iff (p : ClkPort) (index : ℕ) : clash c p index = true ↔ Excluded c p index := by
  rw [clash, List.find?_isSome]
  constructor
  · rintro ⟨q, -, hq⟩
    obtain ⟨hmem, hclash⟩ := (clkClash_iff c p q index).mp hq
    exact ⟨q, hmem, hclash⟩
  · rintro ⟨q, hmem, hclash⟩
    exact ⟨q, q.mem_all, (clkClash_iff c p q index).mpr ⟨hmem, hclash⟩⟩

theorem notMem_clkuseMask (p : ClkPort) : p ∉ clkuseMask p := by
  cases p <;> decide

/-! ### Setting up clocks changes no port -/

structure PortsKept (c c' : Cgu) : Prop where
  port_eq : c'.port = c.port
  version_eq : c'.version = c.version

theorem PortsKept.refl : PortsKept c c := ⟨rfl, rfl⟩

theorem PortsKept.trans {c c' c'' : Cgu} (h : PortsKept c c') (h' : PortsKept c' c'') : PortsKept c c'' :=
  ⟨h'.port_eq.trans h.port_eq, h'.version_eq.trans h.version_eq⟩

theorem PortsKept.foldl {α : Type} {g : Cgu → α → Cgu} (hg : ∀ c a, PortsKept c (g c a)) (l : List α)
    (c : Cgu) : PortsKept c (l.foldl g c) := by
  induction l generalizing c with
  | nil => exact PortsKept.refl c
  | cons a l ih => exact (hg c a).trans (ih (g c a))

theorem portsKept_inputSetup (i : ClkInput) : PortsKept c (inputSetup c i) := by
  rw [inputSetup]
  split
  · exact ⟨rfl, rfl⟩
  · exact ⟨rfl, rfl⟩
  · exact ⟨rfl, rfl⟩
  · exact PortsKept.refl c

theorem portsKept_inputStep (c : Cgu) (i : ClkInput) : PortsKept c (inputStep preset c i) := by
  rw [inputStep]
  split
  · obtain ⟨hport, hversion⟩ := portsKept_inputSetup c i
    exact ⟨hport, hversion⟩
  · exact PortsKept.refl c

theorem portsKept_inputsSetup (c : Cgu) : PortsKept c (inputsSetup preset c) := by
  rw [inputsSetup]
  split
  · obtain ⟨hport, hversion⟩ := PortsKept.foldl (portsKept_inputStep preset) ClkInput.all c
    exact ⟨hport, hversion⟩
  · exact PortsKept.refl c

theorem portsKept_outputStep (c : Cgu) (d : ClkDomain) : PortsKept c (outputStep preset c d) := by
  rw [outputStep]
  split
  · exact PortsKept.refl c
  · split
    · exact PortsKept.refl c
    · split
      · exact ⟨rfl, rfl⟩
      · exact PortsKept.refl c

theorem portsKept_systemSetup (index : ℕ) : PortsKept c (cguSystemSetup c index) := by
  have hloop := (portsKept_inputsSetup (clkSel index) c).trans
    (PortsKept.foldl (portsKept_outputStep (clkSel index)) ClkDomain.all _)
  exact hloop.trans ⟨rfl, rfl⟩

theorem portsKept_adcStep (sel : ℕ) (c : Cgu) (adc : Adc) : PortsKept c (adcStep sel c adc) := by
  rw [adcStep]
  split
  · rw [saa7231AdcSetup]
    split
    · exact PortsKept.refl c
    · exact ⟨rfl, rfl⟩
  · exact PortsKept.refl c

theorem portsKept_updated (p : ClkPort) : PortsKept c (updated c p) :=
  (portsKept_systemSetup c _).trans (PortsKept.foldl (portsKept_adcStep _) _ _)

theorem port_activated (p : ClkPort) :
    (activated c p).port = Function.update c.port p { c.port p with active := true } := by
  show Function.update (updated c p).port p { (updated c p).port p with active := true } = _
  rw [(portsKept_updated c p).port_eq]

theorem version_activated (p : ClkPort) : (activated c p).version = c.version :=
  (portsKept_updated c p).version_eq

/-! ### Whole runs -/

def IndexInv (c : Cgu) : Prop := ∀ p, (c.port p).index < saa7231Clocks

theorem index_update {c : Cgu} (h : IndexInv c) (p : ClkPort) (b : Bool) (q : ClkPort) :
    (Function.update c.port p { c.port p with active := b } q).index < saa7231Clocks := by
  by_cases hq : q = p
  · rw [hq, Function.update_self]
    exact h p
  · rw [Function.update_of_ne hq]
    exact h q

theorem port_setClk (d : ClkDomain) (f : ClkFrequency) : (saa7231SetClk c d f).2.port = c.port := by
  rcases setClk_cases c d f with ⟨-, heq⟩ | ⟨-, heq⟩ | ⟨-, div, ena, -, heq⟩ | ⟨-, heq⟩ <;> rw [heq] <;> rfl

theorem indexInv_step {c c' : Cgu} {op : CguOp} (hI : IndexInv c) (hstep : cguStep c op = some c') :
    IndexInv c' := by
  cases op with
  | setClk d f =>
    obtain rfl := Option.some.inj hstep
    intro p
    rw [port_setClk]
    exact hI p
  | activate mode port =>
    obtain ⟨⟨ret, c''⟩, hact, rfl⟩ := Option.map_eq_some_iff.mp hstep
    rcases (activate_cases hI hact).2 with rfl | ⟨p, -, -, rfl⟩
    · exact hI
    · intro q
      rw [port_activated]
      exact index_update hI p true q
  | disable mode port =>
    obtain rfl := Option.some.inj hstep
    rcases disable_cases c mode port with heq | ⟨p, hget⟩
    · rw [heq]
      exact hI
    · intro q
      rw [disable_eq c hget]
      split
      · rw [port_setClk]
        exact index_update hI p false q
      · exact index_update hI p false q

/-- **One activation**: it respects the table exactly if no active port excludes the new one. -/
theorem adcKept_activated_iff (p : ClkPort) : AdcKept c p 0 (activated c p) ↔ clash c p (c.port p).index = false := by
  have hself : (activated c p).port p = { c.port p with active := true } := by
    rw [port_activated, Function.update_self]
  have hother : ∀ q ∈ clkuseMask p, (activated c p).port q = c.port q := by
    intro q hq
    have hne : q ≠ p := fun heq => notMem_clkuseMask p (heq ▸ hq)
    rw [port_activated, Function.update_of_ne hne]
  rw [← Bool.not_eq_true, clash_iff]
  constructor
  · rintro ⟨hexcl, -⟩ ⟨q, hq, hactive, hzero⟩
    refine hexcl rfl (by rw [hself]) q hq (by rw [hother q hq]; exact hactive) ?_
    rw [hself, hother q hq, version_activated]
    exact hzero
  · intro hfree
    refine ⟨fun _ _ q hq hactive hzero => hfree ⟨q, hq, ?_, ?_⟩, fun hex _ => absurd hex hfree⟩
    · rwa [hother q hq] at hactive
    · rwa [hself, hother q hq, version_activated] at hzero

theorem adcSound_iff {c : Cgu} (hI : IndexInv c) (op : CguOp) : AdcSound c op ↔ NoClash c op := by
  cases op with
  | setClk d f => exact Iff.rfl
  | disable mode port => exact Iff.rfl
  | activate mode port =>
    rw [AdcSound, NoClash]
    rcases getclk_cases mode port with hget | hget | ⟨p, hget⟩
    · rw [hget]
      exact iff_of_true (fun p ret c' h => absurd h (by simp)) trivial
    · rw [hget]
      exact iff_of_true (fun p ret c' h => absurd h (by simp)) trivial
    · rw [hget]
      constructor
      · intro h hidle
        exact (adcKept_activated_iff c p).mp (h p 0 _ rfl hidle (activate_eq c hget hidle (hI p)))
      · intro hfree p' ret c' hp hidle hact
        obtain rfl := Option.some.inj (Prod.mk.inj hp).2
        rw [activate_eq c hget hidle (hI p)] at hact
        obtain ⟨rfl, rfl⟩ := Prod.mk.inj (Option.some.inj hact)
        exact (adcKept_activated_iff c p).mpr (hfree hidle)

/-- **ADC exclusion, exactly.**  From any state whose ports have clocks of the table, the activations of
a run respect `adcuse_ex` if and only if no activation of an idle port meets a conflict. -/
theorem along_adcSound_iff (c : Cgu) (h : ∀ p, (c.port p).index < saa7231Clocks) (ops : List CguOp) :
    Along cguStep AdcSound c ops ↔ Along cguStep NoClash c ops :=
  along_iff_of_invariant (I := IndexInv) (fun _ _ _ hI _ hstep => indexInv_step hI hstep)
    (fun _ op hI => adcSound_iff hI op) ops c h

theorem adcSound_one_after_the_other : Along cguStep AdcSound boardCgu
    [.activate .audioCapture .as2dLocal, .activate .digitalCapture .ts2dExt0,
      .disable .audioCapture .as2dLocal, .activate .digitalCapture .ts2dDtv0] :=
  (along_adcSound_iff boardCgu (fun p => by cases p <;> decide) _).mpr (by decide)

/-- Audio and the first demodulator both use preset 1, which excludes itself; both are activated. -/
theorem not_adcSound_audio_and_digital :
    saa7231CguInit .clk54MHz (fun _ => 0) 0 ⟨0, 0⟩ = some boardCgu ∧
      ¬ Along cguStep AdcSound boardCgu
        [.activate .audioCapture .as2dLocal, .activate .digitalCapture .ts2dDtv0] := by
  refine ⟨rfl, fun h => ?_⟩
  have hkept := (h.2 _ rfl).1 .digital0 0 _ rfl (by decide) rfl
  exact hkept.exclusive rfl (by decide) .audio (by decide) (by decide) (by decide)

end BgtDvb.Saa7231
