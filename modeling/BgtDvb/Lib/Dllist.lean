import Mathlib

/-!
# Doubly linked lists in memory

Nodes with a link in each direction, between two sentinels: the one in front has no node before it and the one at the
back none behind it.  A read through a null link, or of memory that is not allocated, has no result.

* `Linked.init`, `Linked.remove`, `Linked.insertLast` — **PROVED**: the operations do to the list what they say;
* `Linked.search`, `Linked.walk` — **PROVED**: the loops see the list.
-/

namespace BgtDvb.Dllist

variable {α : Type*} [DecidableEq α]

/-- The links of a node; a null link is `none`. -/
@[ext]
structure Cell (α : Type*) where
  next : Option α
  prev : Option α
  deriving DecidableEq

/-- The memory of the nodes; what is not allocated is `none`. -/
abbrev Mem (α : Type*) := α → Option (Cell α)

/-- `a->next`, where that is a node. -/
def Mem.next (m : Mem α) (a : α) : Option α := (m a).bind Cell.next

def Mem.prev (m : Mem α) (a : α) : Option α := (m a).bind Cell.prev

/-- `a->next = b` -/
def setNext (m : Mem α) (a : α) (b : Option α) : Option (Mem α) :=
  (m a).map fun c => Function.update m a (some { c with next := b })

/-- `a->prev = b` -/
def setPrev (m : Mem α) (a : α) (b : Option α) : Option (Mem α) :=
  (m a).map fun c => Function.update m a (some { c with prev := b })

/-- An empty list between its sentinels. -/
def init (m : Mem α) (front back : α) : Mem α :=
  Function.update (Function.update m front (some ⟨some back, none⟩)) back (some ⟨none, some front⟩)

/-- Unlink a node: its own links stay. -/
def remove (m : Mem α) (n : α) : Option (Mem α) := do
  let p ← m.prev n
  let m ← setNext m p (m.next n)
  let q ← m.next n
  setPrev m q (m.prev n)

/-- Link a node behind another. -/
def insertAfter (m : Mem α) (p n : α) : Option (Mem α) := do
  let m ← setNext m n (m.next p)
  let m ← setPrev m n (some p)
  let m ← setNext m p (some n)
  let q ← m.next n
  setPrev m q (some n)

/-- From a node on, the first of a kind: `some none` when the back is reached without one. -/
def search (m : Mem α) (test : α → Bool) : ℕ → α → Option (Option α)
  | 0, _ => none
  | fuel + 1, a =>
    (m a).bind fun c =>
      match c.next with
      | none => some none
      | some b => if test a then some (some a) else search m test fuel b

/-- From a node on, all nodes up to the back. -/
def walk (m : Mem α) : ℕ → α → Option (List α)
  | 0, _ => none
  | fuel + 1, a =>
    (m a).bind fun c =>
      match c.next with
      | none => some []
      | some b => (walk m fuel b).map (a :: ·)

/-! ### Reads and writes -/

section Links

variable {m m' : Mem α} {a b x y : α}

theorem setNext_eq (h : ∃ c, m a = some c) (b : Option α) : ∃ m', setNext m a b = some m' ∧ m'.next a = b ∧
    m'.prev a = m.prev a ∧ ∀ x, x ≠ a → m' x = m x := by
  obtain ⟨c, hc⟩ := h
  refine ⟨_, by rw [setNext, hc, Option.map_some], ?_, ?_, fun x hx => Function.update_of_ne hx _ _⟩
  · simp [Mem.next]
  · simp [Mem.prev, hc]

theorem setPrev_eq (h : ∃ c, m a = some c) (b : Option α) : ∃ m', setPrev m a b = some m' ∧ m'.prev a = b ∧
    m'.next a = m.next a ∧ ∀ x, x ≠ a → m' x = m x := by
  obtain ⟨c, hc⟩ := h
  refine ⟨_, by rw [setPrev, hc, Option.map_some], ?_, ?_, fun x hx => Function.update_of_ne hx _ _⟩
  · simp [Mem.prev]
  · simp [Mem.next, hc]

omit [DecidableEq α] in
theorem allocated_of_next (h : m.next a = some b) : ∃ c, m a = some c := by
  obtain ⟨c, hc, -⟩ := Option.bind_eq_some_iff.mp h
  exact ⟨c, hc⟩

omit [DecidableEq α] in
theorem allocated_of_prev (h : m.prev a = some b) : ∃ c, m a = some c := by
  obtain ⟨c, hc, -⟩ := Option.bind_eq_some_iff.mp h
  exact ⟨c, hc⟩

/-- A link forward and the link back. -/
def Adjacent (m : Mem α) (a b : α) : Prop := m.next a = some b ∧ m.prev b = some a

omit [DecidableEq α] in
theorem next_congr (h : m' a = m a) : m'.next a = m.next a := by
  rw [Mem.next, h, Mem.next]

omit [DecidableEq α] in
theorem prev_congr (h : m' a = m a) : m'.prev a = m.prev a := by
  rw [Mem.prev, h, Mem.prev]

end Links

/-! ### The list in memory -/

/-- The memory holds the list `l` between its sentinels. -/
structure Linked (m : Mem α) (front back : α) (l : List α) : Prop where
  chain : (front :: (l ++ [back])).IsChain (Adjacent m)
  nodup : (front :: (l ++ [back])).Nodup
  last : m.next back = none

omit [DecidableEq α] in
theorem isChain_before {m m' : Mem α} {pre : List α} {p : α} (h : (pre ++ [p]).IsChain (Adjacent m))
    (hnext : ∀ a ∈ pre, m'.next a = m.next a) (hprev : ∀ a ∈ pre ++ [p], m'.prev a = m.prev a) :
    (pre ++ [p]).IsChain (Adjacent m') := by
  induction pre with
  | nil => exact List.isChain_singleton p
  | cons a pre ih =>
    have htail : (pre ++ [p]).IsChain (Adjacent m') :=
      ih h.tail (fun x hx => hnext x (List.mem_cons_of_mem _ hx)) (fun x hx => hprev x (List.mem_cons_of_mem _ hx))
    cases hrest : pre ++ [p] with
    | nil => exact absurd hrest (by simp)
    | cons b rest =>
      rw [List.cons_append, hrest] at h hprev ⊢
      obtain ⟨⟨hab, hba⟩, -⟩ := List.isChain_cons_cons.mp h
      refine List.isChain_cons_cons.mpr ⟨⟨?_, ?_⟩, hrest ▸ htail⟩
      · rw [hnext a List.mem_cons_self, hab]
      · rw [hprev b (List.mem_cons_of_mem _ List.mem_cons_self), hba]

omit [DecidableEq α] in
theorem isChain_behind {m m' : Mem α} {q : α} {suf : List α} (h : (q :: suf).IsChain (Adjacent m))
    (hnext : ∀ a ∈ q :: suf, m'.next a = m.next a) (hprev : ∀ a ∈ suf, m'.prev a = m.prev a) :
    (q :: suf).IsChain (Adjacent m') := by
  refine h.imp_of_mem_tail_imp ?_
  rintro a b ha hb ⟨hab, hba⟩
  exact ⟨(hnext a ha).trans hab, (hprev b hb).trans hba⟩

section Operations

variable {m : Mem α} {front back : α} {l : List α}

theorem Linked.init (m : Mem α) {front back : α} (h : front ≠ back) : Linked (init m front back) front back [] := by
  refine ⟨?_, by simpa using h, by simp [Dllist.init, Mem.next]⟩
  refine List.isChain_cons_cons.mpr ⟨⟨?_, ?_⟩, List.isChain_singleton back⟩
  · simp [Dllist.init, Mem.next, Function.update_of_ne h]
  · simp [Dllist.init, Mem.prev]

omit [DecidableEq α] in
/-- The links of the memory hold the list, whatever stands in nodes that are not in it. -/
theorem Linked.congr (h : Linked m front back l) (heq : ∀ a ∈ front :: (l ++ [back]), m' a = m a) :
    Linked m' front back l := by
  refine ⟨h.chain.imp_of_mem_imp ?_, h.nodup, ?_⟩
  · rintro a b ha hb ⟨hab, hba⟩
    exact ⟨(next_congr (heq a ha)).trans hab, (prev_congr (heq b hb)).trans hba⟩
  · exact (next_congr (heq back (by simp))).trans h.last

omit [DecidableEq α] in
theorem exists_last (x : α) (xs : List α) : ∃ ys y, x :: xs = ys ++ [y] := by
  rcases List.eq_nil_or_concat (x :: xs) with hnil | ⟨ys, y, hconcat⟩
  · exact absurd hnil (List.cons_ne_nil _ _)
  · exact ⟨ys, y, hconcat.trans List.concat_eq_append⟩

omit [DecidableEq α] in
theorem Linked.allocated (h : Linked m front back l) {a : α} (ha : a ∈ front :: (l ++ [back])) : ∃ c, m a = some c := by
  obtain ⟨pre, suf, hsplit⟩ := List.append_of_mem ha
  have hchain := h.chain
  cases suf with
  | nil =>
    rw [← List.cons_append] at hsplit
    obtain rfl : back = a := List.singleton_inj.mp (List.append_inj' hsplit (by simp)).2
    obtain ⟨before, p, hp⟩ := exists_last front l
    rw [← List.cons_append, hp, List.append_assoc] at hchain
    exact allocated_of_prev (List.isChain_append_cons_cons.mp hchain).2.1.2
  | cons b suf =>
    rw [hsplit] at hchain
    exact allocated_of_next (List.isChain_append_cons_cons.mp hchain).2.1.1

theorem remove_eq {p n q : α} (hpn : Adjacent m p n) (hnq : Adjacent m n q) (hnp : n ≠ p) (hqp : q ≠ p) :
    ∃ m', remove m n = some m' ∧ Adjacent m' p q ∧ m'.prev p = m.prev p ∧ m'.next q = m.next q ∧
      ∀ a, a ≠ p → a ≠ q → m' a = m a := by
  obtain ⟨m₁, hm₁, hnext₁, hprev₁, hframe₁⟩ := setNext_eq (allocated_of_next hpn.1) (some q)
  have hq₁ : m₁ q = m q := hframe₁ q hqp
  have hn₁ : m₁ n = m n := hframe₁ n hnp
  have hcellq : ∃ c, m₁ q = some c := by
    rw [hq₁]
    exact allocated_of_prev hnq.2
  obtain ⟨m₂, hm₂, hprev₂, hnext₂, hframe₂⟩ := setPrev_eq hcellq (some p)
  have hp₂ : m₂ p = m₁ p := hframe₂ p hqp.symm
  refine ⟨m₂, ?_, ⟨?_, hprev₂⟩, ?_, ?_, fun a hap haq => ?_⟩
  · simp only [Dllist.remove, hpn.2, hnq.1, Option.bind_eq_bind, Option.bind_some, hm₁, next_congr hn₁, prev_congr hn₁, hm₂]
  · rw [next_congr hp₂, hnext₁]
  · rw [prev_congr hp₂, hprev₁]
  · rw [hnext₂, next_congr hq₁]
  · rw [hframe₂ a haq, hframe₁ a hap]

theorem insertAfter_eq {p n q : α} (hpq : Adjacent m p q) (hcell : ∃ c, m n = some c) (hnp : n ≠ p) (hnq : n ≠ q)
    (hqp : q ≠ p) :
    ∃ m', insertAfter m p n = some m' ∧ Adjacent m' p n ∧ Adjacent m' n q ∧ m'.prev p = m.prev p ∧
      m'.next q = m.next q ∧ ∀ a, a ≠ p → a ≠ n → a ≠ q → m' a = m a := by
  obtain ⟨m₁, hm₁, hnext₁, hprev₁, hframe₁⟩ := setNext_eq hcell (some q)
  obtain ⟨m₂, hm₂, hprev₂, hnext₂, hframe₂⟩ := setPrev_eq (allocated_of_next hnext₁) (some p)
  have hp₂ : m₂ p = m p := by rw [hframe₂ p hnp.symm, hframe₁ p hnp.symm]
  have hcellp : ∃ c, m₂ p = some c := by
    rw [hp₂]
    exact allocated_of_next hpq.1
  obtain ⟨m₃, hm₃, hnext₃, hprev₃, hframe₃⟩ := setNext_eq hcellp (some n)
  have hn₃ : m₃.next n = some q := by rw [next_congr (hframe₃ n hnp), hnext₂, hnext₁]
  have hq₃ : m₃ q = m q := by rw [hframe₃ q hqp, hframe₂ q hnq.symm, hframe₁ q hnq.symm]
  have hcellq : ∃ c, m₃ q = some c := by
    rw [hq₃]
    exact allocated_of_prev hpq.2
  obtain ⟨m₄, hm₄, hprev₄, hnext₄, hframe₄⟩ := setPrev_eq hcellq (some n)
  have hp₄ : m₄ p = m₃ p := hframe₄ p hqp.symm
  have hn₄ : m₄ n = m₃ n := hframe₄ n hnq
  refine ⟨m₄, ?_, ⟨?_, ?_⟩, ⟨?_, hprev₄⟩, ?_, ?_, fun a hap han haq => ?_⟩
  · simp only [Dllist.insertAfter, hpq.1, hm₁, hm₂, hm₃, hn₃, hm₄, Option.bind_eq_bind, Option.bind_some]
  · rw [next_congr hp₄, hnext₃]
  · rw [prev_congr hn₄, prev_congr (hframe₃ n hnp), hprev₂]
  · rw [next_congr hn₄, hn₃]
  · rw [prev_congr hp₄, hprev₃, prev_congr hp₂]
  · rw [hnext₄, next_congr hq₃]
  · rw [hframe₄ a haq, hframe₃ a hap, hframe₂ a han, hframe₁ a han]

/-- **PROVED**: a node is taken out of the list, and no memory outside changes. -/
theorem Linked.remove {pre suf : List α} {n : α} (h : Linked m front back (pre ++ n :: suf)) :
    ∃ m', remove m n = some m' ∧ Linked m' front back (pre ++ suf) ∧
      ∀ a, a ∉ front :: (pre ++ suf ++ [back]) → m' a = m a := by
  obtain ⟨before, p, hp⟩ := exists_last front pre
  obtain ⟨q, behind, hq⟩ : ∃ q behind, suf ++ [back] = q :: behind := List.exists_cons_of_ne_nil (by simp)
  have hwhole : front :: ((pre ++ n :: suf) ++ [back]) = before ++ p :: n :: q :: behind := by
    rw [← List.cons_append, ← List.cons_append, hp, List.append_assoc, List.cons_append, hq]
    simp
  have hrest : front :: (pre ++ suf ++ [back]) = before ++ p :: q :: behind := by
    rw [← List.cons_append, ← List.cons_append, hp, List.append_assoc, hq]
    simp
  have hnodup := h.nodup
  have hchain := h.chain
  rw [hwhole] at hnodup hchain
  obtain ⟨hbefore, hpn, hnq⟩ := List.isChain_append_cons_cons.mp hchain
  obtain ⟨hnq, hbehind⟩ := List.isChain_cons_cons.mp hnq
  have hnodup' : (before ++ p :: q :: behind).Nodup :=
    hnodup.sublist (List.Sublist.append_left (List.Sublist.cons_cons _ (List.sublist_cons_self _ _)) _)
  simp only [List.nodup_append, List.nodup_cons, List.mem_cons, not_or] at hnodup
  obtain ⟨-, ⟨⟨hpn', hpq, hpbehind⟩, -, hqbehind, -⟩, hdisj⟩ := hnodup
  obtain ⟨m', hm', hlink, hprev, hnext, hframe⟩ := remove_eq hpn hnq (Ne.symm hpn') (Ne.symm hpq)
  have hkept : ∀ a ∈ before, m' a = m a := fun a ha =>
    hframe a (hdisj a ha p (Or.inl rfl)) (hdisj a ha q (Or.inr (Or.inr (Or.inl rfl))))
  have hkept' : ∀ a ∈ behind, m' a = m a := fun a ha =>
    hframe a (fun hno => hpbehind (hno ▸ ha)) fun hno => hqbehind (hno ▸ ha)
  refine ⟨m', hm', ⟨?_, hrest ▸ hnodup', ?_⟩, fun a ha => ?_⟩
  · rw [hrest]
    refine List.isChain_append_cons_cons.mpr
      ⟨isChain_before hbefore (fun a ha => next_congr (hkept a ha)) (fun a ha => ?_), hlink,
        isChain_behind hbehind (fun a ha => ?_) fun a ha => prev_congr (hkept' a ha)⟩
    · rcases List.mem_append.mp ha with ha | ha
      · exact prev_congr (hkept a ha)
      · rw [List.mem_singleton.mp ha, hprev]
    · rcases List.mem_cons.mp ha with rfl | ha
      · exact hnext
      · exact next_congr (hkept' a ha)
  · have hback : back ∈ q :: behind := hq ▸ List.mem_append_right _ (List.mem_singleton_self back)
    rcases List.mem_cons.mp hback with rfl | hback
    · rw [hnext, h.last]
    · rw [next_congr (hkept' back hback), h.last]
  · rw [hrest] at ha
    exact hframe a (fun hno => ha (hno ▸ by simp)) fun hno => ha (hno ▸ by simp)

/-- **PROVED**: a node is put in at the end of the list, and no memory outside changes. -/
theorem Linked.insertLast (h : Linked m front back l) {n : α} (hn : n ∉ front :: (l ++ [back])) (hcell : ∃ c, m n = some c) :
    ∃ p m', m.prev back = some p ∧ insertAfter m p n = some m' ∧ Linked m' front back (l ++ [n]) ∧
      ∀ a, a ∉ front :: ((l ++ [n]) ++ [back]) → m' a = m a := by
  obtain ⟨before, p, hp⟩ := exists_last front l
  have hwhole : front :: (l ++ [back]) = before ++ p :: [back] := by
    rw [← List.cons_append, hp, List.append_assoc]
    rfl
  have hrest : front :: ((l ++ [n]) ++ [back]) = before ++ p :: n :: [back] := by
    rw [← List.cons_append, ← List.cons_append, hp]
    simp
  have hnodup := h.nodup
  have hchain := h.chain
  rw [hwhole] at hnodup hchain hn
  obtain ⟨hbefore, hpb, -⟩ := List.isChain_append_cons_cons.mp hchain
  simp only [List.mem_append, List.mem_cons, List.not_mem_nil, or_false, not_or] at hn
  obtain ⟨hnbefore, hnp, hnback⟩ := hn
  simp only [List.nodup_append, List.nodup_cons, List.mem_cons, List.not_mem_nil, or_false] at hnodup
  obtain ⟨hnodup₁, ⟨hpback, -⟩, hdisj⟩ := hnodup
  obtain ⟨m', hm', hpn, hnb, hprev, hnext, hframe⟩ := insertAfter_eq hpb hcell hnp hnback (Ne.symm hpback)
  have hkept : ∀ a ∈ before, m' a = m a := fun a ha =>
    hframe a (hdisj a ha p (Or.inl rfl)) (fun hno => hnbefore (hno ▸ ha)) (hdisj a ha back (Or.inr rfl))
  refine ⟨p, m', hpb.2, hm', ⟨?_, ?_, hnext.trans h.last⟩, fun a ha => ?_⟩
  · rw [hrest]
    refine List.isChain_append_cons_cons.mpr
      ⟨isChain_before hbefore (fun a ha => next_congr (hkept a ha)) (fun a ha => ?_), hpn,
        List.isChain_cons_cons.mpr ⟨hnb, List.isChain_singleton back⟩⟩
    rcases List.mem_append.mp ha with ha | ha
    · exact prev_congr (hkept a ha)
    · rw [List.mem_singleton.mp ha, hprev]
  · rw [hrest]
    refine List.nodup_append.mpr ⟨hnodup₁, ?_, fun a ha b hb => ?_⟩
    · simp [hpback, hnback, Ne.symm hnp]
    · rcases List.mem_cons.mp hb with rfl | hb
      · exact hdisj a ha b (Or.inl rfl)
      · rcases List.mem_cons.mp hb with rfl | hb
        · exact fun hno => hnbefore (hno ▸ ha)
        · exact hdisj a ha b (Or.inr (List.mem_singleton.mp hb))
  · rw [hrest] at ha
    simp only [List.mem_append, List.mem_cons, List.not_mem_nil, or_false, not_or] at ha
    exact hframe a ha.2.1 ha.2.2.1 ha.2.2.2

end Operations

/-! ### Loops over the list -/

section Loops

omit [DecidableEq α]

variable {m : Mem α} {front back : α} {l : List α}

theorem Linked.next (h : Linked m front back l) (pre suf : List α) {a b : α}
    (hsplit : front :: (l ++ [back]) = pre ++ a :: b :: suf) : m.next a = some b :=
  (List.isChain_append_cons_cons.mp (hsplit ▸ h.chain)).2.1.1

theorem Linked.first (h : Linked m front back l) : m.next front = (l ++ [back]).head? := by
  cases l with
  | nil => exact h.next [] [] rfl
  | cons a l => exact h.next [] (l ++ [back]) rfl

theorem head_concat (t : List α) (back : α) : ∃ a, (t ++ [back]).head? = some a := by
  cases t with
  | nil => exact ⟨back, rfl⟩
  | cons a t => exact ⟨a, rfl⟩

theorem head_cell {b : α} (hchain : (b :: t ++ [back]).IsChain (Adjacent m)) :
    ∃ c cell, (t ++ [back]).head? = some c ∧ m b = some cell ∧ cell.next = some c := by
  obtain ⟨c, hc⟩ := head_concat t back
  have hnext : m.next b = some c := (hchain.rel_head? hc).1
  obtain ⟨cell, hcell, hcellnext⟩ := Option.bind_eq_some_iff.mp hnext
  exact ⟨c, cell, hc, hcell, hcellnext⟩

theorem search_of_chain {test : α → Bool} (hchain : (t ++ [back]).IsChain (Adjacent m))
    (hback : m back = some ⟨none, p⟩) (ha : (t ++ [back]).head? = some a) (hfuel : t.length < fuel) :
    search m test fuel a = some (t.find? test) := by
  induction t generalizing a fuel with
  | nil =>
    obtain ⟨fuel, rfl⟩ : ∃ k, fuel = k + 1 := ⟨fuel - 1, by omega⟩
    obtain rfl : back = a := Option.some.inj ha
    simp [search, hback]
  | cons b t ih =>
    obtain ⟨fuel, rfl⟩ : ∃ k, fuel = k + 1 := ⟨fuel - 1, by omega⟩
    obtain rfl : b = a := Option.some.inj ha
    obtain ⟨c, cell, hc, hcell, hcellnext⟩ := head_cell hchain
    rw [search, hcell, Option.bind_some, hcellnext, List.find?_cons]
    cases htest : test b with
    | true => rfl
    | false => exact ih hchain.tail hc (by simpa using hfuel)

theorem walk_of_chain (hchain : (t ++ [back]).IsChain (Adjacent m)) (hback : m back = some ⟨none, p⟩)
    (ha : (t ++ [back]).head? = some a) (hfuel : t.length < fuel) : walk m fuel a = some t := by
  induction t generalizing a fuel with
  | nil =>
    obtain ⟨fuel, rfl⟩ : ∃ k, fuel = k + 1 := ⟨fuel - 1, by omega⟩
    obtain rfl : back = a := Option.some.inj ha
    simp [walk, hback]
  | cons b t ih =>
    obtain ⟨fuel, rfl⟩ : ∃ k, fuel = k + 1 := ⟨fuel - 1, by omega⟩
    obtain rfl : b = a := Option.some.inj ha
    obtain ⟨c, cell, hc, hcell, hcellnext⟩ := head_cell hchain
    rw [walk, hcell, Option.bind_some, hcellnext]
    exact congrArg (Option.map (b :: ·)) (ih hchain.tail hc (by simpa using hfuel))

theorem Linked.back_cell (h : Linked m front back l) : ∃ p, m back = some ⟨none, p⟩ := by
  obtain ⟨c, hc⟩ := h.allocated (a := back) (by simp)
  have hlast := h.last
  rw [Mem.next, hc, Option.bind_some] at hlast
  exact ⟨c.prev, hc.trans (congrArg some (Cell.ext hlast rfl))⟩

/-- **PROVED**: the first node of the list of a kind. -/
theorem Linked.search (h : Linked m front back l) {test : α → Bool} {a : α} {fuel : ℕ} (ha : m.next front = some a)
    (hfuel : l.length < fuel) : search m test fuel a = some (l.find? test) := by
  obtain ⟨p, hback⟩ := h.back_cell
  exact search_of_chain h.chain.tail hback (h.first ▸ ha) hfuel

/-- **PROVED**: all nodes of the list. -/
theorem Linked.walk (h : Linked m front back l) {a : α} {fuel : ℕ} (ha : m.next front = some a)
    (hfuel : l.length < fuel) : walk m fuel a = some l := by
  obtain ⟨p, hback⟩ := h.back_cell
  exact walk_of_chain h.chain.tail hback (h.first ▸ ha) hfuel

end Loops

end BgtDvb.Dllist
