import Mathlib

/-!
# Strings with a terminator, cut into tokens

Text is read through a cursor into memory: the string it points at ends at the first terminator, and the
memory goes on behind it.

* `Reader.Local` — it depends on the string alone, not on the memory behind the terminator;
* `Reader.Local.bind` — **PROVED**: such readers may be run one after another;
* `cutToken_local` — **PROVED**: cutting tokens is one.

Nothing here names an alphabet or a format.
-/

namespace BgtDvb.CString

variable {α : Type} [DecidableEq α] [Zero α]

/-! ### The string under the cursor -/

/-- The string at the start of a memory. -/
def cstr (mem : List α) : List α := mem.takeWhile (· ≠ 0)

@[simp] theorem cstr_nil : cstr ([] : List α) = [] := rfl

@[simp] theorem cstr_zero (mem : List α) : cstr (0 :: mem) = [] := by
  simp [cstr]

theorem cstr_cons {c : α} (hc : c ≠ 0) (mem : List α) : cstr (c :: mem) = c :: cstr mem := by
  simp [cstr, hc]

theorem cstr_append {text : List α} (h : (0 : α) ∉ text) (mem : List α) :
    cstr (text ++ mem) = text ++ cstr mem := by
  induction text with
  | nil => rfl
  | cons c text ih =>
    rw [List.mem_cons, not_or] at h
    rw [List.cons_append, cstr_cons (Ne.symm h.1), ih h.2, List.cons_append]

theorem zero_notMem_cstr (mem : List α) : (0 : α) ∉ cstr mem := by
  intro h
  simpa using List.mem_takeWhile_imp h

/-! ### Tokens -/

/-- The token before the first separator, and the cursor: behind the separator, or on the terminator. -/
def cutToken (tokens : List α) : List α → List α × List α
  | [] => ([], [])
  | c :: mem =>
    if c = 0 then ([], c :: mem)
    else if c ∈ tokens then ([], mem)
    else (c :: (cutToken tokens mem).1, (cutToken tokens mem).2)

theorem cutToken_append {tokens field : List α} {c : α} (hc : c ≠ 0) (hmem : c ∈ tokens)
    (h : ∀ d ∈ field, d ≠ 0 ∧ d ∉ tokens) (mem : List α) :
    cutToken tokens (field ++ c :: mem) = (field, mem) := by
  induction field with
  | nil => simp [cutToken, hc, hmem]
  | cons d field ih =>
    have hd := h d List.mem_cons_self
    have ih := ih fun e he => h e (List.mem_cons_of_mem d he)
    simp [cutToken, hd.1, hd.2, ih]

theorem cutToken_last {tokens field : List α} (h : ∀ d ∈ field, d ≠ 0 ∧ d ∉ tokens)
    (mem : List α) : cutToken tokens (field ++ 0 :: mem) = (field, 0 :: mem) := by
  induction field with
  | nil => simp [cutToken]
  | cons d field ih =>
    have hd := h d List.mem_cons_self
    have ih := ih fun e he => h e (List.mem_cons_of_mem d he)
    simp [cutToken, hd.1, hd.2, ih]

theorem cutToken_cstr (tokens mem : List α) :
    ((cutToken tokens mem).1, cstr (cutToken tokens mem).2) = cutToken tokens (cstr mem) := by
  induction mem with
  | nil => rfl
  | cons c mem ih =>
    by_cases hc : c = 0
    · subst hc
      simp [cutToken]
    · rw [cstr_cons hc]
      by_cases hmem : c ∈ tokens
      · simp [cutToken, hc, hmem]
      · rw [cutToken, cutToken, if_neg hc, if_neg hmem, if_neg hc, if_neg hmem, ← ih]

/-! ### Readers -/

/-- A reader moves the cursor over the memory, or fails. -/
abbrev Reader (α β : Type) : Type := StateT (List α) Option β

namespace Reader

variable {β γ : Type}

variable {mem mem' : List α} {p : Reader α β} {q : β → Reader α γ}

omit [DecidableEq α] [Zero α] in
theorem run_bind_some {b : β} (h : p.run mem = some (b, mem')) : (p >>= q).run mem = (q b).run mem' := by
  rw [StateT.run_bind, h]
  rfl

omit [DecidableEq α] [Zero α] in
theorem run_bind_none : (p >>= q).run mem = none ↔ ∀ b mem', p.run mem = some (b, mem') → (q b).run mem' = none := by
  rw [StateT.run_bind]
  cases hrun : p.run mem with
  | none => exact ⟨fun _ b mem' hsome => (Option.some_ne_none _ hsome.symm).elim, fun _ => rfl⟩
  | some r =>
    refine ⟨fun h b mem' hsome => ?_, fun h => h r.1 r.2 rfl⟩
    cases hsome
    exact h

/-- What a run of a reader shows: its value and the string now under the cursor. -/
def view (p : Reader α β) (mem : List α) : Option (β × List α) :=
  (p.run mem).map fun r => (r.1, cstr r.2)

/-- The reader looks at the string alone. -/
def Local (p : Reader α β) : Prop :=
  ∀ mem mem' : List α, cstr mem = cstr mem' → view p mem = view p mem'

theorem Local.pure (b : β) : Local (Pure.pure b : Reader α β) := by
  intro mem mem' h
  simp [view, h]

theorem Local.failure : Local (Alternative.failure : Reader α β) := by
  intro mem mem' _
  rfl

theorem view_bind_congr (hview : view p mem = view p mem') (hq : ∀ b, Local (q b)) :
    view (p >>= q) mem = view (p >>= q) mem' := by
  simp only [view, StateT.run_bind] at hview ⊢
  cases hrun : p.run mem with
  | none =>
    rw [hrun, Option.map_none, eq_comm, Option.map_eq_none_iff] at hview
    rw [hview]
  | some r =>
    rw [hrun, Option.map_some, eq_comm, Option.map_eq_some_iff] at hview
    obtain ⟨r', hrun', hr⟩ := hview
    obtain ⟨hval, hstr⟩ := Prod.mk.inj hr
    rw [hrun']
    show view (q r.1) r.2 = view (q r'.1) r'.2
    rw [hval]
    exact hq r.1 r.2 r'.2 hstr.symm

/-- **One reader after another.** -/
theorem Local.bind (hp : Local p) (hq : ∀ b, Local (q b)) : Local (p >>= q) :=
  fun mem mem' h => view_bind_congr (hp mem mem' h) hq

theorem Local.map (f : β → γ) (hp : Local p) : Local (f <$> p) := by
  rw [← bind_pure_comp]
  exact hp.bind fun b => Local.pure (f b)

/-- The token under the cursor. -/
def token (tokens : List α) : Reader α (List α) := fun mem => some (cutToken tokens mem)

/-- The string under the cursor, which stays where it is. -/
def peek : Reader α (List α) := fun mem => some (cstr mem, mem)

theorem token_local (tokens : List α) : Local (token tokens) := by
  intro mem mem' h
  have hcut (mem : List α) : view (token tokens) mem = some (cutToken tokens (cstr mem)) :=
    congrArg some (cutToken_cstr tokens mem)
  rw [hcut, hcut, h]

theorem peek_local : Local (peek : Reader α (List α)) := by
  intro mem mem' h
  show some (cstr mem, cstr mem) = some (cstr mem', cstr mem')
  rw [h]

theorem value_eq_of_view (h : view p mem = view p mem') : (p.run mem).map Prod.fst = (p.run mem').map Prod.fst := by
  have hvalue := congrArg (Option.map Prod.fst) h
  simpa [view, Option.map_map, Function.comp_def] using hvalue

end Reader

end BgtDvb.CString
