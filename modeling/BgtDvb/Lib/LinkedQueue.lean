import Mathlib.Data.List.Nodup
import Mathlib.Data.List.Perm.Subperm
import Mathlib.Order.Lattice
import Mathlib.Order.Nat

/-!
# Queues of linked nodes

Nodes with a link to the next one, in memory that is allocated and freed, and queues that know their first and their last
node. Following a link to memory that is not allocated has no result.

* `Node`, `Heap` — nodes, and what is allocated;
* `nodesOf`, `contents` — what a walk over a queue sees;
* `Queues.push`, `Queues.pop`, `Queues.freeAll` — **PROVED**: what the operations on one queue do to all of them;
* `IsQueue.nodesOf_eq` — **PROVED**: the walk sees the nodes.

Nothing here names a particular program.
-/

namespace BgtDvb.LinkedQueue

variable {α κ : Type*}

/-! ### Memory -/

structure Node (α : Type*) where
  data : α
  next : Option ℕ
  deriving DecidableEq

/-- The blocks that are allocated, with their addresses. -/
abbrev Heap (α : Type*) := List (ℕ × Node α)

namespace Heap

/-- The node at an address, if something is allocated there. -/
def node (heap : Heap α) (a : ℕ) : Option (Node α) := List.lookup a heap

def free (heap : Heap α) (a : ℕ) : Heap α := heap.filter fun block => block.1 ≠ a

def store (heap : Heap α) (a : ℕ) (node : Node α) : Heap α := (a, node) :: heap.free a

/-- An address behind all blocks. -/
def top (heap : Heap α) : ℕ := heap.foldr (fun block n => max (block.1 + 1) n) 0

/-- Where a new block is put: anywhere but on another block. -/
def malloc (heap : Heap α) (wish : ℕ) : ℕ := if (heap.node wish).isNone then wish else heap.top

theorem node_cons (b : ℕ) (node : Node α) (heap : Heap α) (a : ℕ) :
    Heap.node ((b, node) :: heap) a = if a = b then some node else heap.node a := by
  unfold Heap.node
  by_cases h : a = b
  · rw [if_pos h, h, List.lookup_cons_self]
  · rw [if_neg h, List.lookup_cons, beq_false_of_ne h]

theorem node_free (heap : Heap α) (a b : ℕ) : (heap.free a).node b = if b = a then none else heap.node b := by
  induction heap with
  | nil =>
    rw [free, List.filter_nil]
    exact (ite_self _).symm
  | cons block heap ih =>
    obtain ⟨c, node⟩ := block
    unfold free at ih ⊢
    by_cases hca : c = a
    · rw [List.filter_cons_of_neg (by simp [hca]), ih, node_cons, hca]
      split_ifs <;> rfl
    · rw [List.filter_cons_of_pos (by simp [hca]), node_cons, node_cons, ih]
      by_cases hbc : b = c
      · rw [if_pos hbc, if_pos hbc, if_neg (hbc ▸ hca)]
      · rw [if_neg hbc, if_neg hbc]

theorem node_store (heap : Heap α) (a : ℕ) (node : Node α) (b : ℕ) :
    (heap.store a node).node b = if b = a then some node else heap.node b := by
  rw [store, node_cons, node_free]
  split_ifs <;> rfl

theorem mem_of_node {heap : Heap α} {a : ℕ} (h : heap.node a ≠ none) : a ∈ heap.map Prod.fst := by
  induction heap with
  | nil => exact absurd rfl h
  | cons block heap ih =>
    obtain ⟨c, node⟩ := block
    rw [node_cons] at h
    by_cases hac : a = c
    · rw [hac]
      exact List.mem_cons_self
    · rw [if_neg hac] at h
      exact List.mem_cons_of_mem _ (ih h)

theorem lt_top {heap : Heap α} {a : ℕ} (h : a ∈ heap.map Prod.fst) : a < heap.top := by
  induction heap with
  | nil => exact absurd h List.not_mem_nil
  | cons block heap ih =>
    rcases List.mem_cons.mp h with rfl | hmem
    · exact lt_of_lt_of_le (Nat.lt_succ_self _) (le_max_left _ _)
    · exact lt_of_lt_of_le (ih hmem) (le_max_right _ _)

theorem node_malloc (heap : Heap α) (wish : ℕ) : heap.node (heap.malloc wish) = none := by
  unfold malloc
  split
  next hfree => exact Option.isNone_iff_eq_none.mp hfree
  · by_contra hused
    exact absurd (lt_top (mem_of_node hused)) (lt_irrefl _)

end Heap

/-! ### Queues -/

/-- The links to the first and to the last node. -/
structure Ends where
  head : Option ℕ
  tail : Option ℕ
  deriving DecidableEq

def Ends.empty : Ends := ⟨none, none⟩

/-- A new node at `a` is put behind the last one. -/
def Ends.push (q : Ends) (heap : Heap α) (a : ℕ) (x : α) : Option (Heap α × Ends) :=
  let heap := heap.store a ⟨x, none⟩
  match q.tail with
  | some t => (heap.node t).map fun node => (heap.store t { node with next := some a }, { q with tail := some a })
  | none => some (heap, ⟨some a, some a⟩)

/-- The first node is taken off; it stays allocated. -/
def Ends.pop (q : Ends) (heap : Heap α) : Option (Option (ℕ × α) × Ends) :=
  match q.head with
  | none => some (none, q)
  | some a => (heap.node a).map fun node =>
    (some (a, node.data), if node.next.isSome then { q with head := node.next } else .empty)

/-- Nodes are freed one after another; each of them makes the heap smaller. -/
def freeLoop : ℕ → Heap α → Option ℕ → Option (Heap α)
  | _, heap, none => some heap
  | 0, _, some _ => none
  | n + 1, heap, some a => (heap.node a).bind fun node => freeLoop n (heap.free a) node.next

/-- All nodes from one on are freed. -/
def freeAll (heap : Heap α) (p : Option ℕ) : Option (Heap α) := freeLoop heap.length heap p

/-- The nodes from one on, with what they hold. -/
def walk : ℕ → Heap α → Option ℕ → List (ℕ × α)
  | 0, _, _ => []
  | _ + 1, _, none => []
  | n + 1, heap, some a => (heap.node a).elim [] fun node => (a, node.data) :: walk n heap node.next

/-- The nodes of a queue, from the first on. -/
def nodesOf (heap : Heap α) (q : Ends) : List (ℕ × α) := walk heap.length heap q.head

def contents (heap : Heap α) (q : Ends) : List α := (nodesOf heap q).map Prod.snd

/-! ### The nodes of a queue -/

/-- The nodes from `p` on, each with the link to the next one. -/
inductive Chain (heap : Heap α) : Option ℕ → List (ℕ × α) → Prop
  | nil : Chain heap none []
  | cons {a : ℕ} {x : α} {next : Option ℕ} {nodes : List (ℕ × α)} (here : heap.node a = some ⟨x, next⟩)
      (rest : Chain heap next nodes) : Chain heap (some a) ((a, x) :: nodes)

/-- Where the nodes are. -/
def places (nodes : List (ℕ × α)) : List ℕ := nodes.map Prod.fst

/-- The nodes of a queue, the last of which is known. -/
structure IsQueue (heap : Heap α) (q : Ends) (nodes : List (ℕ × α)) : Prop where
  chain : Chain heap q.head nodes
  last : q.tail = (places nodes).getLast?
  apart : (places nodes).Nodup

/-- Queues that share a memory, and no node. -/
structure Queues (heap : Heap α) (ends : κ → Ends) (nodes : κ → List (ℕ × α)) : Prop where
  each : ∀ k, IsQueue heap (ends k) (nodes k)
  apart : ∀ k k', k ≠ k' → List.Disjoint (places (nodes k)) (places (nodes k'))

section Chains

variable {heap heap' : Heap α} {p : Option ℕ} {nodes : List (ℕ × α)} {a t : ℕ} {x y : α}

theorem Chain.frame (h : Chain heap p nodes) (hsame : ∀ b ∈ places nodes, heap'.node b = heap.node b) :
    Chain heap' p nodes := by
  induction h with
  | nil => exact .nil
  | cons here rest ih =>
    obtain ⟨hhere, hrest⟩ := List.forall_mem_cons.mp hsame
    exact .cons (hhere.trans here) (ih hrest)

theorem Chain.allocated (h : Chain heap p nodes) : ∀ b ∈ places nodes, heap.node b ≠ none := by
  induction h with
  | nil => exact fun b hb => absurd hb List.not_mem_nil
  | cons here rest ih =>
    refine List.forall_mem_cons.mpr ⟨?_, ih⟩
    rw [here]
    exact Option.some_ne_none _

theorem Chain.last (h : Chain heap p (nodes ++ [(t, x)])) : heap.node t = some ⟨x, none⟩ := by
  induction nodes generalizing p with
  | nil =>
    cases h with
    | cons here rest =>
      cases rest
      exact here
  | cons node nodes ih =>
    cases h with
    | cons here rest => exact ih rest

theorem Chain.link (h : Chain heap p (nodes ++ [(t, x)])) (hsame : ∀ b ∈ places nodes, heap'.node b = heap.node b)
    (ht : heap'.node t = some ⟨x, some a⟩) (ha : heap'.node a = some ⟨y, none⟩) :
    Chain heap' p (nodes ++ [(t, x)] ++ [(a, y)]) := by
  induction nodes generalizing p with
  | nil =>
    cases h with
    | cons here rest => exact .cons ht (.cons ha .nil)
  | cons node nodes ih =>
    obtain ⟨hnode, hnodes⟩ := List.forall_mem_cons.mp hsame
    cases h with
    | cons here rest => exact .cons (hnode.trans here) (ih rest hnodes)

theorem freeLoop_chain {n : ℕ} (h : Chain heap p nodes) (hapart : (places nodes).Nodup) (hn : nodes.length ≤ n) :
    ∃ heap', freeLoop n heap p = some heap' ∧ ∀ b, heap'.node b = if b ∈ places nodes then none else heap.node b := by
  induction nodes generalizing heap p n with
  | nil =>
    cases h
    refine ⟨heap, by cases n <;> rfl, fun b => ?_⟩
    rw [if_neg (show b ∉ places ([] : List (ℕ × α)) from List.not_mem_nil)]
  | cons node nodes ih =>
    cases h with
    | cons here rest =>
      rename_i a x next
      obtain ⟨m, rfl⟩ : ∃ m, n = m + 1 := ⟨n - 1, by rw [List.length_cons] at hn; omega⟩
      obtain ⟨hnot, hnodup⟩ := List.nodup_cons.mp hapart
      have hrest : Chain (heap.free a) next nodes := rest.frame fun b hb => by
        rw [Heap.node_free, if_neg (ne_of_mem_of_not_mem hb hnot)]
      obtain ⟨heap', hloop, hat⟩ := ih hrest hnodup (Nat.le_of_succ_le_succ hn)
      refine ⟨heap', by rw [freeLoop, here]; exact hloop, fun b => ?_⟩
      have hmem : b ∈ places ((a, x) :: nodes) ↔ b = a ∨ b ∈ places nodes := List.mem_cons
      rw [hat b, Heap.node_free]
      by_cases hb : b ∈ places nodes
      · rw [if_pos hb, if_pos (hmem.mpr (.inr hb))]
      · by_cases hba : b = a
        · rw [if_neg hb, if_pos hba, if_pos (hmem.mpr (.inl hba))]
        · rw [if_neg hb, if_neg hba, if_neg fun hor => (hmem.mp hor).elim hba hb]

theorem Chain.length_le (h : Chain heap p nodes) (hapart : (places nodes).Nodup) : nodes.length ≤ heap.length := by
  have hsub : places nodes ⊆ heap.map Prod.fst := fun b hb => Heap.mem_of_node (h.allocated b hb)
  have hle := (hapart.subperm hsub).length_le
  rwa [places, List.length_map, List.length_map] at hle

theorem Chain.walk_eq {n : ℕ} (h : Chain heap p nodes) (hn : nodes.length ≤ n) : walk n heap p = nodes := by
  induction h generalizing n with
  | nil => cases n <;> rfl
  | cons here rest ih =>
    obtain ⟨m, rfl⟩ : ∃ m, n = m + 1 := ⟨n - 1, by rw [List.length_cons] at hn; omega⟩
    rw [walk, here, Option.elim_some, ih (Nat.le_of_succ_le_succ hn)]

theorem IsQueue.nodesOf_eq {q : Ends} (h : IsQueue heap q nodes) : nodesOf heap q = nodes :=
  h.chain.walk_eq (h.chain.length_le h.apart)

theorem IsQueue.contents_eq {q : Ends} (h : IsQueue heap q nodes) : contents heap q = nodes.map Prod.snd := by
  rw [contents, h.nodesOf_eq]

theorem IsQueue.frame {q : Ends} (h : IsQueue heap q nodes) (hsame : ∀ b ∈ places nodes, heap'.node b = heap.node b) :
    IsQueue heap' q nodes :=
  ⟨h.chain.frame hsame, h.last, h.apart⟩

theorem IsQueue.tail_none_iff {q : Ends} (h : IsQueue heap q nodes) : q.tail = none ↔ q.head = none := by
  rw [h.last, List.getLast?_eq_none_iff]
  have hchain := h.chain
  generalize q.head = head at hchain
  cases hchain with
  | nil => exact iff_of_true rfl rfl
  | cons here rest => exact iff_of_false (List.cons_ne_nil _ _) (Option.some_ne_none _)

theorem IsQueue.last_node {q : Ends} (h : IsQueue heap q nodes) (ht : q.tail = some t) :
    ∃ y, heap.node t = some ⟨y, none⟩ := by
  have hlast := h.last.symm.trans ht
  rcases List.eq_nil_or_concat nodes with hnil | ⟨front, ⟨u, y⟩, hcat⟩
  · rw [hnil] at hlast
    cases hlast
  · rw [List.concat_eq_append] at hcat
    have hu : (places (front ++ [(u, y)])).getLast? = some u := by
      rw [places, List.map_append]
      exact List.getLast?_concat
    obtain rfl : u = t := Option.some.inj (hu.symm.trans (hcat ▸ hlast))
    exact ⟨y, (hcat ▸ h.chain).last⟩

end Chains

/-! ### The operations -/

section Operations

variable {heap : Heap α} {ends : κ → Ends} {nodes : κ → List (ℕ × α)}

theorem queues_empty : Queues ([] : Heap α) (fun _ : κ => .empty) fun _ => [] where
  each := fun _ => ⟨.nil, rfl, List.nodup_nil⟩
  apart := fun _ _ _ => List.disjoint_nil_left _

theorem Queues.pop_nil (h : Queues heap ends nodes) {k : κ} (hnil : nodes k = []) :
    (ends k).pop heap = some (none, ends k) := by
  have hchain := (h.each k).chain
  rw [hnil] at hchain
  have hhead : (ends k).head = none := by cases hchain' : (ends k).head with
    | none => rfl
    | some a => rw [hchain'] at hchain; cases hchain
  rw [Ends.pop, hhead]

variable [DecidableEq κ]

theorem Queues.replace (h : Queues heap ends nodes) {heap' : Heap α} (k : κ) {q : Ends} {nodes' : List (ℕ × α)}
    (hq : IsQueue heap' q nodes')
    (hothers : ∀ k', k' ≠ k → ∀ b ∈ places (nodes k'), heap'.node b = heap.node b ∧ b ∉ places nodes') :
    Queues heap' (Function.update ends k q) (Function.update nodes k nodes') := by
  constructor
  · intro k'
    by_cases hk : k' = k
    · rw [hk, Function.update_self, Function.update_self]
      exact hq
    · rw [Function.update_of_ne hk, Function.update_of_ne hk]
      exact (h.each k').frame fun b hb => (hothers k' hk b hb).1
  · intro k₁ k₂ hne
    by_cases h₁ : k₁ = k
    · have h₂ : k₂ ≠ k := fun h₂ => hne (h₁.trans h₂.symm)
      rw [h₁, Function.update_self, Function.update_of_ne h₂]
      exact fun b hb hb' => (hothers k₂ h₂ b hb').2 hb
    · rw [Function.update_of_ne h₁]
      by_cases h₂ : k₂ = k
      · rw [h₂, Function.update_self]
        exact fun b hb hb' => (hothers k₁ h₁ b hb).2 hb'
      · rw [Function.update_of_ne h₂]
        exact h.apart k₁ k₂ hne

/-- **A node is put behind a queue.** -/
theorem Queues.push (h : Queues heap ends nodes) (k : κ) {a : ℕ} (ha : heap.node a = none) (x : α) :
    ∃ heap' q, (ends k).push heap a x = some (heap', q) ∧
      Queues heap' (Function.update ends k q) (Function.update nodes k (nodes k ++ [(a, x)])) := by
  have hk := h.each k
  have hfresh : ∀ k', a ∉ places (nodes k') := fun k' hmem => (h.each k').chain.allocated a hmem ha
  have happart : (places (nodes k ++ [(a, x)])).Nodup := by
    rw [places, List.map_append]
    exact hk.apart.append (List.nodup_singleton _) (List.disjoint_singleton.mpr (hfresh k))
  have hlast : (places (nodes k ++ [(a, x)])).getLast? = some a := by
    rw [places, List.map_append]
    exact List.getLast?_concat
  have hmem : ∀ b, b ∈ places (nodes k ++ [(a, x)]) ↔ b ∈ places (nodes k) ∨ b = a := fun b => by
    rw [places, List.map_append, List.mem_append]
    exact or_congr_right List.mem_singleton
  have hother : ∀ k', k' ≠ k → ∀ b ∈ places (nodes k'), b ≠ a ∧ b ∉ places (nodes k) := fun k' hne b hb =>
    ⟨fun hba => hfresh k' (hba ▸ hb), fun hb' => h.apart k' k hne hb hb'⟩
  rcases List.eq_nil_or_concat (nodes k) with hnil | ⟨front, ⟨t, y⟩, hcat⟩
  · -- the first node
    have htail : (ends k).tail = none := by rw [hk.last, hnil]; rfl
    refine ⟨heap.store a ⟨x, none⟩, ⟨some a, some a⟩, by rw [Ends.push, htail], ?_⟩
    refine h.replace k ⟨?_, hlast.symm, happart⟩ fun k' hne b hb => ?_
    · rw [hnil]
      exact .cons (by rw [Heap.node_store, if_pos rfl]) .nil
    · obtain ⟨hba, hbk⟩ := hother k' hne b hb
      rw [Heap.node_store, if_neg hba]
      exact ⟨rfl, fun hb' => ((hmem b).mp hb').elim hbk hba⟩
  · rw [List.concat_eq_append] at hcat
    have hplaces : places (nodes k) = places front ++ [t] := by rw [hcat, places, List.map_append]; rfl
    have htail : (ends k).tail = some t := by rw [hk.last, hplaces]; exact List.getLast?_concat
    have hchain : Chain heap (ends k).head (front ++ [(t, y)]) := hcat ▸ hk.chain
    have hta : t ≠ a := fun hta => hfresh k (by rw [hplaces, hta]; exact List.mem_append_right _ List.mem_cons_self)
    have htfront : t ∉ places front := fun hmem => by
      have hnodup := hk.apart
      rw [hplaces] at hnodup
      exact List.disjoint_of_nodup_append hnodup hmem List.mem_cons_self
    have hat : (heap.store a ⟨x, none⟩).node t = some ⟨y, none⟩ := by
      rw [Heap.node_store, if_neg hta]
      exact hchain.last
    have hkeep : ∀ b, b ≠ t → b ≠ a →
        ((heap.store a ⟨x, none⟩).store t ⟨y, some a⟩).node b = heap.node b := fun b hbt hba => by
      rw [Heap.node_store, if_neg hbt, Heap.node_store, if_neg hba]
    refine ⟨(heap.store a ⟨x, none⟩).store t ⟨y, some a⟩, ⟨(ends k).head, some a⟩, by simp only [Ends.push, htail, hat, Option.map_some], ?_⟩
    refine h.replace k ⟨?_, hlast.symm, happart⟩ fun k' hne b hb => ?_
    · rw [hcat]
      refine hchain.link (fun b hb => hkeep b (fun hbt => htfront (hbt ▸ hb)) fun hba => hfresh k ?_) ?_ ?_
      · rw [hplaces, ← hba]
        exact List.mem_append_left _ hb
      · rw [Heap.node_store, if_pos rfl]
      · rw [Heap.node_store, if_neg hta.symm, Heap.node_store, if_pos rfl]
    · obtain ⟨hba, hbk⟩ := hother k' hne b hb
      have hbt : b ≠ t := fun hbt => hbk (by rw [hplaces, hbt]; exact List.mem_append_right _ List.mem_cons_self)
      exact ⟨hkeep b hbt hba, fun hb' => ((hmem b).mp hb').elim hbk hba⟩

/-- **The first node of a queue is taken off and freed.** -/
theorem Queues.pop (h : Queues heap ends nodes) {k : κ} {a : ℕ} {x : α} {rest : List (ℕ × α)}
    (hcons : nodes k = (a, x) :: rest) :
    ∃ q, (ends k).pop heap = some (some (a, x), q) ∧
      Queues (heap.free a) (Function.update ends k q) (Function.update nodes k rest) := by
  have hk := h.each k
  rw [hcons] at hk
  obtain ⟨hchain, hlast, hapart⟩ := hk
  obtain ⟨hnot, hnodup⟩ := List.nodup_cons.mp hapart
  generalize hhead : (ends k).head = head at hchain
  cases hchain with
  | cons here chain =>
    rename_i next
    have hfreed : Chain (heap.free a) next rest := chain.frame fun b hb => by
      rw [Heap.node_free, if_neg (ne_of_mem_of_not_mem hb hnot)]
    have hothers : ∀ k', k' ≠ k → ∀ b ∈ places (nodes k'), (heap.free a).node b = heap.node b ∧ b ∉ places rest := by
      intro k' hne b hb
      have hdisjoint := h.apart k' k hne hb
      rw [hcons] at hdisjoint
      refine ⟨?_, fun hb' => hdisjoint (List.mem_cons_of_mem _ hb')⟩
      rw [Heap.node_free, if_neg fun hba : b = a => hdisjoint (hba ▸ List.mem_cons_self)]
    refine ⟨if next.isSome then { ends k with head := next } else .empty,
      by simp only [Ends.pop, hhead, here, Option.map_some], h.replace k ⟨?_, ?_, hnodup⟩ hothers⟩
    · cases hfreed with
      | nil => exact .nil
      | cons here' rest' => exact .cons here' rest'
    · cases hfreed with
      | nil => rfl
      | cons here' rest' => exact hlast.trans List.getLast?_cons_cons

/-- **All nodes of a queue are freed.** -/
theorem Queues.freeAll (h : Queues heap ends nodes) (k : κ) :
    ∃ heap', LinkedQueue.freeAll heap (ends k).head = some heap' ∧
      Queues heap' (Function.update ends k .empty) (Function.update nodes k []) := by
  have hk := h.each k
  obtain ⟨heap', hfree, hat⟩ := freeLoop_chain hk.chain hk.apart (hk.chain.length_le hk.apart)
  refine ⟨heap', hfree, h.replace k ⟨.nil, rfl, List.nodup_nil⟩ fun k' hne b hb => ⟨?_, List.not_mem_nil⟩⟩
  rw [hat b, if_neg (h.apart k' k hne hb)]

end Operations

end BgtDvb.LinkedQueue
