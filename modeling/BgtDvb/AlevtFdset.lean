import BgtDvb.Lib.Dllist

/-!
# The descriptors of alevt and their dispatch

`fdset.c`: a list of descriptors with a handler each, and `fdset_select`, which calls the handlers of those that are
ready.  A handler may change the list that it is called from.

* `fdsetSelect_iff` — **PROVED**: the loop ends and calls each ready handler once, exactly when none of that happens.
-/

namespace BgtDvb.Alevt

open BgtDvb.Dllist

/-- The sentinels in the head of the list, and the nodes in the order of their allocation. -/
inductive Ptr where
  | front
  | back
  | node (n : ℕ)
  deriving DecidableEq, Repr

/-- A `struct fdset_node` without its links; a handler and its data are addresses. -/
structure FdsetNode where
  fd : ℤ
  handler : ℕ
  data : ℕ
  deriving DecidableEq, Repr

/-- `struct fdset`, with the memory of its nodes; `fresh` is the next node that `malloc` gives. -/
structure Fdset where
  links : Mem Ptr
  nodes : Ptr → Option FdsetNode
  fresh : ℕ
  delCount : BitVec 32

def fdsetInit : Fdset where
  links := Dllist.init (fun _ => none) .front .back
  nodes := fun _ => none
  fresh := 0
  delCount := 0

/-- `fn->fd == fd` -/
def Fdset.hasFd (s : Fdset) (fd : ℤ) (p : Ptr) : Bool := (s.nodes p).any (·.fd = fd)

def Fdset.find (s : Fdset) (fd : ℤ) : Option (Option Ptr) :=
  (s.links.next .front).bind (search s.links (s.hasFd fd) (s.fresh + 1))

/-- `malloc` and `dl_insert_last` -/
def Fdset.insert (s : Fdset) (n : FdsetNode) : Option Fdset := do
  let links : Mem Ptr := Function.update s.links (.node s.fresh) (some ⟨none, none⟩)
  let last ← links.prev .back
  let links ← insertAfter links last (.node s.fresh)
  return { s with links := links, nodes := Function.update s.nodes (.node s.fresh) (some n), fresh := s.fresh + 1 }

/-- `dl_remove` and `free` -/
def Fdset.delete (s : Fdset) (p : Ptr) : Option Fdset := do
  let links ← remove s.links p
  return { s with links := Function.update links p none, nodes := Function.update s.nodes p none,
                  delCount := s.delCount + 1 }

/-- `room` is whether `malloc` gives memory. -/
def fdsetAddFd (s : Fdset) (n : FdsetNode) (room : Bool) : Option (ℤ × Fdset) :=
  if n.fd < 0 then some (-1, s)
  else if n.handler = 0 then some (-1, s)
  else
    (s.find n.fd).bind fun found =>
      if found.isSome then some (-1, s)
      else if room = false then some (-1, s)
      else (s.insert n).map fun s => (0, s)

def fdsetDelFd (s : Fdset) (fd : ℤ) : Option (ℤ × Fdset) :=
  (s.find fd).bind fun found =>
    match found with
    | none => some (-1, s)
    | some p => (s.delete p).map fun s => (0, s)

/-- `FD_SETSIZE` -/
def fdSetsize : ℤ := 1024

/-- `fd_set` -/
structure FdSet where
  fds : Finset ℤ
  bounded : ∀ fd ∈ fds, 0 ≤ fd ∧ fd < fdSetsize

/-- `FD_ZERO` -/
def FdSet.zero : FdSet := ⟨∅, fun _ h => absurd h (Finset.notMem_empty _)⟩

/-- `FD_SET`; no result is a write outside of the set. -/
def FdSet.set (rfds : FdSet) (fd : ℤ) : Option FdSet :=
  if h : 0 ≤ fd ∧ fd < fdSetsize then
    some ⟨insert fd rfds.fds, fun a ha => (Finset.mem_insert.mp ha).elim (fun heq => heq ▸ h) (rfds.bounded a)⟩
  else none

/-- `FD_ISSET`; no result is a read outside of the set. -/
def FdSet.isset (rfds : FdSet) (fd : ℤ) : Option Bool :=
  if 0 ≤ fd ∧ fd < fdSetsize then some (fd ∈ rfds.fds) else none

/-- `FD_CLR` of a descriptor that is set. -/
def FdSet.clr (rfds : FdSet) (fd : ℤ) : FdSet :=
  ⟨rfds.fds.erase fd, fun a ha => rfds.bounded a (Finset.mem_of_mem_erase ha)⟩

/-- The first loop of `fdset_select`: the descriptors it asks for, and the bound it gives to `select`. -/
def fdsetWatched (s : Fdset) : Option (FdSet × ℤ) := do
  let first ← s.links.next .front
  let ps ← walk s.links (s.fresh + 1) first
  let fdsOf := ps.filterMap fun p => (s.nodes p).map FdsetNode.fd
  let rfds ← fdsOf.foldlM FdSet.set .zero
  return (rfds, fdsOf.foldl (fun max fd => if fd ≥ max then fd + 1 else max) 0)

/-- Every registered descriptor has a place in an `fd_set`. -/
def Fdset.Fits (s : Fdset) : Prop := ∀ p n, s.nodes p = some n → n.fd < fdSetsize

/-! ### What a handler does -/

inductive Op where
  | add (n : FdsetNode) (room : Bool)
  | del (fd : ℤ)
  deriving DecidableEq, Repr

def runOp (s : Fdset) : Op → Option (Fdset × List Ptr)
  | .add n room => (fdsetAddFd s n room).map fun r => (r.2, [])
  | .del fd => (s.find fd).bind fun found => (fdsetDelFd s fd).map fun r => (r.2, found.toList)

def runOps (s : Fdset) : List Op → Option (Fdset × List Ptr)
  | [] => some (s, [])
  | op :: ops => (runOp s op).bind fun r => (runOps r.1 ops).map fun rs => (rs.1, r.2 ++ rs.2)

/-! ### The loop -/

inductive Event where
  | called (p : Ptr) (n : FdsetNode)
  | removed (p : Ptr)
  deriving DecidableEq, Repr

/-- Where the loop is: at a node, back in the caller, or led away by a node that is no longer there or by a descriptor
outside of the `fd_set`. -/
inductive Phase where
  | at (fn : Ptr)
  | returned (x : ℤ)
  | lost
  deriving DecidableEq, Repr

/-- The variables of `fdset_select` once `select` has returned, with what has happened so far. -/
structure Select where
  fds : Fdset
  rfds : FdSet
  delCount : BitVec 32
  phase : Phase
  trace : List Event

/-- From a link on: a null link, or one that is not there, leads nowhere. -/
def Phase.follow : Option Ptr → Phase
  | none => .lost
  | some p => .at p

def Select.restart (st : Select) : Select :=
  { st with delCount := st.fds.delCount, phase := .follow (st.fds.links.next .front) }

def Select.advance (st : Select) (fn : Ptr) : Select := { st with phase := .follow (st.fds.links.next fn) }

/-- `select` is asked for the registered descriptors, and reports `x` of them, those of `rfds`. -/
def selectStart (s : Fdset) (x : ℤ) (rfds : FdSet) : Select :=
  match fdsetWatched s with
  | none => ⟨s, .zero, s.delCount, .lost, []⟩
  | some _ =>
    if x ≤ 0 then ⟨s, .zero, s.delCount, .returned x, []⟩
    else Select.restart ⟨s, rfds, s.delCount, .lost, []⟩

/-- The call of a handler, which does `ops`. -/
def Select.call (st : Select) (fn : Ptr) (n : FdsetNode) (ops : List Op) : Select :=
  match runOps st.fds ops with
  | none => { st with phase := .lost }
  | some (fds, gone) =>
    let st' := { st with fds := fds, rfds := st.rfds.clr n.fd,
                         trace := st.trace ++ Event.called fn n :: gone.map Event.removed }
    if fds.delCount ≠ st.delCount then st'.restart else st'.advance fn

/-- One round of the loop; `ops` is what the handler does if there is a call. -/
def step (ops : List Op) (st : Select) : Select :=
  match st.phase with
  | .returned _ => st
  | .lost => st
  | .at fn =>
    match st.fds.links fn, st.fds.nodes fn with
    | none, _ => { st with phase := .lost }
    | some ⟨none, _⟩, _ => { st with phase := .returned 1 }
    | some ⟨some _, _⟩, none => { st with phase := .lost }
    | some ⟨some _, _⟩, some n =>
      match st.rfds.isset n.fd with
      | none => { st with phase := .lost }
      | some true => st.call fn n ops
      | some false => st.advance fn

def run (ops : ℕ → List Op) (st : Select) : ℕ → Select
  | 0 => st
  | k + 1 => step (ops k) (run ops st k)

/-- The lists that a program comes to. -/
inductive Reachable : Fdset → Prop
  | init : Reachable fdsetInit
  | op {s s' : Fdset} {op : Op} {gone : List Ptr} (h : Reachable s) (hop : runOp s op = some (s', gone)) : Reachable s'

/-! ### The list in memory -/

/-- The memory holds the nodes of `l`, with a descriptor each, and nothing else. -/
structure Holds (s : Fdset) (l : List Ptr) : Prop where
  linked : Linked s.links .front .back l
  nodes : ∀ p, (∃ n, s.nodes p = some n) ↔ p ∈ l
  freed : ∀ p, p ∉ Ptr.front :: (l ++ [.back]) → s.links p = none
  distinct : ∀ p q n n', s.nodes p = some n → s.nodes q = some n' → n.fd = n'.fd → p = q
  fresh : ∀ p ∈ l, ∃ k, k < s.fresh ∧ p = .node k
  nonneg : ∀ p n, s.nodes p = some n → 0 ≤ n.fd

section List

variable {s : Fdset} {l : List Ptr}

theorem Holds.init : Holds fdsetInit [] where
  linked := Linked.init _ (by decide)
  nodes p := ⟨fun h => absurd h.choose_spec (Option.some_ne_none _).symm, fun hp => absurd hp List.not_mem_nil⟩
  freed p hp := by
    simp only [List.nil_append, List.mem_cons, List.not_mem_nil, or_false, not_or] at hp
    simp [fdsetInit, Dllist.init, hp.1, hp.2]
  distinct p q n n' hn := absurd hn (Option.some_ne_none n).symm
  fresh p hp := absurd hp List.not_mem_nil
  nonneg p n hn := absurd hn (Option.some_ne_none n).symm

theorem Holds.length_le (h : Holds s l) : l.length ≤ s.fresh := by
  have hsub : l ⊆ (List.range s.fresh).map Ptr.node := fun p hp => by
    obtain ⟨k, hk, rfl⟩ := h.fresh p hp
    exact List.mem_map_of_mem (List.mem_range.mpr hk)
  have hnodup : l.Nodup := (List.nodup_append.mp (List.nodup_cons.mp h.linked.nodup).2).1
  simpa using (List.subperm_of_subset hnodup hsub).length_le

theorem Holds.first (h : Holds s l) : ∃ a, s.links.next .front = some a := by
  rw [h.linked.first]
  exact head_concat l .back

theorem Holds.find (h : Holds s l) (fd : ℤ) : s.find fd = some (l.find? (s.hasFd fd)) := by
  obtain ⟨a, ha⟩ := h.first
  rw [Fdset.find, ha, Option.bind_some, h.linked.search ha (Nat.lt_succ_of_le h.length_le)]

theorem Holds.insert (h : Holds s l) {n : FdsetNode} (hfd : 0 ≤ n.fd)
    (hnew : ∀ p n', s.nodes p = some n' → n'.fd ≠ n.fd) :
    ∃ s', s.insert n = some s' ∧ Holds s' (l ++ [.node s.fresh]) ∧ s.nodes (.node s.fresh) = none ∧
      s'.nodes = Function.update s.nodes (.node s.fresh) (some n) ∧ s'.fresh = s.fresh + 1 ∧
      s'.delCount = s.delCount := by
  have hout : Ptr.node s.fresh ∉ l := fun hno => by
    obtain ⟨k, hk, heq⟩ := h.fresh _ hno
    injection heq with heq
    omega
  have hlist : Ptr.node s.fresh ∉ Ptr.front :: (l ++ [.back]) := by simpa using hout
  have hmalloc : Linked (Function.update s.links (.node s.fresh) (some ⟨none, none⟩)) .front .back l :=
    h.linked.congr fun a ha => Function.update_of_ne (ne_of_mem_of_not_mem ha hlist) _ _
  obtain ⟨last, links, hlast, hlinks, hlinked, hframe⟩ :=
    hmalloc.insertLast hlist ⟨_, Function.update_self _ _ _⟩
  have hnone : s.nodes (.node s.fresh) = none := by
    by_contra hno
    exact hout ((h.nodes _).mp (Option.ne_none_iff_exists'.mp hno))
  refine ⟨⟨links, Function.update s.nodes (.node s.fresh) (some n), s.fresh + 1, s.delCount⟩, ?_,
    ⟨hlinked, fun p => ?_, fun p hp => ?_, ?_, fun p hp => ?_, fun p n' hp => ?_⟩, hnone, rfl, rfl, rfl⟩
  · simp only [Fdset.insert, hlast, hlinks, Option.bind_eq_bind, Option.bind_some]
    rfl
  · simp only [Function.update_apply, List.mem_append, List.mem_singleton, ← h.nodes p]
    by_cases hp : p = .node s.fresh <;> simp [hp]
  · have hne : p ≠ .node s.fresh := fun hno => hp (by simp [hno])
    dsimp only
    rw [hframe p hp, Function.update_of_ne hne]
    exact h.freed p fun hno => hp (by
      simp only [List.mem_cons, List.mem_append, List.not_mem_nil, or_false] at hno ⊢
      tauto)
  · intro p q n₁ n₂ hp hq heq
    dsimp only at hp hq
    rw [Function.update_apply] at hp hq
    split at hp
    · split at hq
      next hp' hq' => exact hp'.trans hq'.symm
      · obtain rfl := Option.some.inj hp
        exact absurd heq.symm (hnew q n₂ hq)
    · split at hq
      · obtain rfl := Option.some.inj hq
        exact absurd heq (hnew p n₁ hp)
      · exact h.distinct p q n₁ n₂ hp hq heq
  · rcases List.mem_append.mp hp with hp | hp
    · obtain ⟨k, hk, rfl⟩ := h.fresh p hp
      exact ⟨k, Nat.lt_succ_of_lt hk, rfl⟩
    · exact ⟨s.fresh, Nat.lt_succ_self _, List.mem_singleton.mp hp⟩
  · dsimp only at hp
    rw [Function.update_apply] at hp
    split at hp
    · obtain rfl := Option.some.inj hp
      exact hfd
    · exact h.nonneg p n' hp

theorem Holds.delete {pre suf : List Ptr} {p : Ptr} (h : Holds s (pre ++ p :: suf)) :
    ∃ s', s.delete p = some s' ∧ Holds s' (pre ++ suf) ∧ s'.nodes = Function.update s.nodes p none ∧
      s'.fresh = s.fresh ∧ s'.delCount = s.delCount + 1 := by
  obtain ⟨links, hlinks, hlinked, hframe⟩ := h.linked.remove
  have hnodup := h.linked.nodup
  have hout : p ∉ Ptr.front :: (pre ++ suf ++ [.back]) := by
    have hperm : (Ptr.front :: (pre ++ p :: suf ++ [.back])).Perm (p :: Ptr.front :: (pre ++ suf ++ [.back])) := by
      simp only [List.append_assoc, List.cons_append]
      exact (List.Perm.cons _ List.perm_middle).trans (List.Perm.swap _ _ _)
    exact (List.nodup_cons.mp (hperm.nodup_iff.mp hnodup)).1
  refine ⟨⟨Function.update links p none, Function.update s.nodes p none, s.fresh, s.delCount + 1⟩, ?_,
    ⟨?_, fun q => ?_, fun q hq => ?_, ?_, fun q hq => ?_, fun q n hq => ?_⟩, rfl, rfl, rfl⟩
  · simp only [Fdset.delete, hlinks, Option.bind_eq_bind, Option.bind_some]
    rfl
  · exact hlinked.congr fun a ha => Function.update_of_ne (ne_of_mem_of_not_mem ha hout) _ _
  · dsimp only
    rw [Function.update_apply]
    by_cases hq : q = p
    · subst hq
      simp only [if_true, List.mem_append]
      refine ⟨fun hno => absurd hno (by simp), fun hno => absurd ?_ hout⟩
      simp only [List.mem_cons, List.mem_append]
      tauto
    · rw [if_neg hq, h.nodes q]
      simp [hq]
  · dsimp only
    rw [Function.update_apply]
    split
    · rfl
    next hne =>
      rw [hframe q hq]
      refine h.freed q fun hno => hq ?_
      simp only [List.mem_cons, List.mem_append, List.not_mem_nil, or_false] at hno ⊢
      tauto
  · intro q₁ q₂ n₁ n₂ h₁ h₂ heq
    dsimp only at h₁ h₂
    rw [Function.update_apply] at h₁ h₂
    split at h₁
    · exact absurd h₁ (Option.some_ne_none n₁).symm
    · split at h₂
      · exact absurd h₂ (Option.some_ne_none n₂).symm
      · exact h.distinct q₁ q₂ n₁ n₂ h₁ h₂ heq
  · refine h.fresh q ?_
    simp only [List.mem_append, List.mem_cons] at hq ⊢
    tauto
  · dsimp only at hq
    rw [Function.update_apply] at hq
    split at hq
    · exact absurd hq (Option.some_ne_none n).symm
    · exact h.nonneg q n hq

end List

theorem watched_bound (fds : List ℤ) (max : ℤ) :
    max ≤ fds.foldl (fun max fd => if fd ≥ max then fd + 1 else max) max ∧
      ∀ fd ∈ fds, fd < fds.foldl (fun max fd => if fd ≥ max then fd + 1 else max) max := by
  induction fds generalizing max with
  | nil => exact ⟨le_refl _, fun fd hfd => absurd hfd List.not_mem_nil⟩
  | cons a fds ih =>
    rw [List.foldl_cons]
    obtain ⟨hle, hlt⟩ := ih (if a ≥ max then a + 1 else max)
    refine ⟨le_trans ?_ hle, fun fd hfd => ?_⟩
    · split <;> omega
    · rcases List.mem_cons.mp hfd with rfl | hfd
      · refine lt_of_lt_of_le ?_ hle
        split <;> omega
      · exact hlt fd hfd

theorem foldlM_set_isSome (fds : List ℤ) (rfds : FdSet) :
    (fds.foldlM FdSet.set rfds).isSome = true ↔ ∀ fd ∈ fds, 0 ≤ fd ∧ fd < fdSetsize := by
  induction fds generalizing rfds with
  | nil => exact iff_of_true rfl fun fd hfd => absurd hfd List.not_mem_nil
  | cons fd fds ih =>
    rw [List.foldlM_cons, List.forall_mem_cons]
    by_cases hfd : 0 ≤ fd ∧ fd < fdSetsize
    · rw [FdSet.set, dif_pos hfd, and_iff_right hfd]
      exact ih _
    · rw [FdSet.set, dif_neg hfd]
      exact iff_of_false Bool.false_ne_true fun h => hfd h.1

theorem mem_foldlM_set {fds : List ℤ} {rfds rfds' : FdSet} (h : fds.foldlM FdSet.set rfds = some rfds') (fd : ℤ) :
    fd ∈ rfds'.fds ↔ fd ∈ rfds.fds ∨ fd ∈ fds := by
  induction fds generalizing rfds with
  | nil =>
    obtain rfl := Option.some.inj h
    simp
  | cons a fds ih =>
    rw [List.foldlM_cons] at h
    obtain ⟨rfds₁, hset, hrest⟩ := Option.bind_eq_some_iff.mp h
    rw [FdSet.set] at hset
    split_ifs at hset with ha
    obtain rfl := Option.some.inj hset
    rw [ih hrest, Finset.mem_insert, List.mem_cons]
    tauto

/-- `select` is asked for the descriptors that are registered, if they all fit into the set. -/
theorem Holds.watched {s : Fdset} {l : List Ptr} (h : Holds s l) : ((fdsetWatched s).isSome = true ↔ s.Fits) ∧
    ∀ rfds max, fdsetWatched s = some (rfds, max) →
      ∀ fd, (fd ∈ rfds.fds ↔ ∃ p n, s.nodes p = some n ∧ n.fd = fd) ∧ (fd ∈ rfds.fds → fd < max) := by
  obtain ⟨a, ha⟩ := h.first
  have hwalk := h.linked.walk ha (Nat.lt_succ_of_le h.length_le)
  obtain ⟨fds, hfds⟩ : ∃ fds, fds = l.filterMap fun p => (s.nodes p).map FdsetNode.fd := ⟨_, rfl⟩
  have hmem : ∀ fd, fd ∈ fds ↔ ∃ p n, s.nodes p = some n ∧ n.fd = fd := fun fd => by
    rw [hfds]
    simp only [List.mem_filterMap, Option.map_eq_some_iff]
    constructor
    · rintro ⟨p, -, n, hn, hfd⟩
      exact ⟨p, n, hn, hfd⟩
    · rintro ⟨p, n, hn, hfd⟩
      exact ⟨p, (h.nodes p).mp ⟨n, hn⟩, n, hn, hfd⟩
  have hwatched : fdsetWatched s = (fds.foldlM FdSet.set .zero).map fun rfds =>
      (rfds, fds.foldl (fun max fd => if fd ≥ max then fd + 1 else max) 0) := by
    rw [hfds]
    simp only [fdsetWatched, ha, hwalk, Option.bind_eq_bind, Option.bind_some]
    cases List.foldlM FdSet.set FdSet.zero _ <;> rfl
  refine ⟨?_, fun rfds max hsome fd => ?_⟩
  · rw [hwatched, Option.isSome_map, foldlM_set_isSome]
    constructor
    · intro hall p n hn
      exact (hall n.fd ((hmem n.fd).mpr ⟨p, n, hn, rfl⟩)).2
    · intro hfits fd hfd
      obtain ⟨p, n, hn, rfl⟩ := (hmem fd).mp hfd
      exact ⟨h.nonneg p n hn, hfits p n hn⟩
  · rw [hwatched] at hsome
    obtain ⟨rfds', hset, heq⟩ := Option.map_eq_some_iff.mp hsome
    obtain ⟨rfl, rfl⟩ := Prod.mk.inj heq
    have hin : fd ∈ rfds'.fds ↔ fd ∈ fds := by
      rw [mem_foldlM_set hset fd]
      exact or_iff_right (Finset.notMem_empty fd)
    exact ⟨hin.trans (hmem fd), fun hfd => (watched_bound fds 0).2 fd (hin.mp hfd)⟩

/-! ### One operation -/

/-- Everything that an operation can do: to the list, to the nodes, and to the count of removals. -/
inductive Effect (s : Fdset) (l : List Ptr) : Op → Fdset → List Ptr → List Ptr → Prop
  | refused (op : Op) : Effect s l op s l []
  | added (n : FdsetNode) (room : Bool) {s' : Fdset} (free : s.nodes (.node s.fresh) = none)
    (nodes : s'.nodes = Function.update s.nodes (.node s.fresh) (some n)) (fresh : s'.fresh = s.fresh + 1)
    (count : s'.delCount = s.delCount) : Effect s l (.add n room) s' (l ++ [.node s.fresh]) []
  | removed (n : FdsetNode) {s' : Fdset} {pre suf : List Ptr} {p : Ptr} (list : l = pre ++ p :: suf)
    (node : s.nodes p = some n) (nodes : s'.nodes = Function.update s.nodes p none) (fresh : s'.fresh = s.fresh)
    (count : s'.delCount = s.delCount + 1) : Effect s l (.del n.fd) s' (pre ++ suf) [p]

theorem hasFd_iff {s : Fdset} {fd : ℤ} {p : Ptr} : s.hasFd fd p = true ↔ ∃ n, s.nodes p = some n ∧ n.fd = fd := by
  unfold Fdset.hasFd
  cases s.nodes p <;> simp

section Operations

variable {s : Fdset} {l : List Ptr}

theorem Holds.add_new (h : Holds s l) {n : FdsetNode} (hfd : 0 ≤ n.fd) (hhandler : n.handler ≠ 0)
    (hnew : ∀ p n', s.nodes p = some n' → n'.fd ≠ n.fd) :
    ∃ s', fdsetAddFd s n true = some (0, s') ∧ Holds s' (l ++ [.node s.fresh]) ∧ s.nodes (.node s.fresh) = none ∧
      s'.nodes = Function.update s.nodes (.node s.fresh) (some n) ∧ s'.fresh = s.fresh + 1 ∧
      s'.delCount = s.delCount := by
  have hfind : l.find? (s.hasFd n.fd) = none := List.find?_eq_none.mpr fun p _ hp => by
    obtain ⟨n', hn', heq⟩ := hasFd_iff.mp hp
    exact hnew p n' hn' heq
  obtain ⟨s', hs', hholds, heffect⟩ := h.insert hfd hnew
  refine ⟨s', ?_, hholds, heffect⟩
  rw [fdsetAddFd, if_neg (not_lt.mpr hfd), if_neg hhandler, h.find, Option.bind_some, hfind, hs']
  rfl

theorem Holds.add (h : Holds s l) (n : FdsetNode) (room : Bool) :
    ∃ r s' l', fdsetAddFd s n room = some (r, s') ∧ Holds s' l' ∧ Effect s l (.add n room) s' l' [] := by
  unfold fdsetAddFd
  split
  · exact ⟨-1, s, l, rfl, h, .refused _⟩
  next hfd =>
    split
    · exact ⟨-1, s, l, rfl, h, .refused _⟩
    next hhandler =>
      rw [h.find, Option.bind_some]
      split
      · exact ⟨-1, s, l, rfl, h, .refused _⟩
      next hfind =>
        cases room with
        | false => exact ⟨-1, s, l, rfl, h, .refused _⟩
        | true =>
          have hnone := List.find?_eq_none.mp (Option.not_isSome_iff_eq_none.mp hfind)
          obtain ⟨s', hs', hholds, hfree, hnodes, hfresh, hcount⟩ := h.add_new (not_lt.mp hfd) hhandler
            fun p n' hp heq => hnone p ((h.nodes p).mp ⟨n', hp⟩) (hasFd_iff.mpr ⟨n', hp, heq⟩)
          refine ⟨0, s', _, ?_, hholds, .added n true hfree hnodes hfresh hcount⟩
          rw [← hs', fdsetAddFd, if_neg hfd, if_neg hhandler, h.find, Option.bind_some, if_neg hfind]

theorem Holds.del_there (h : Holds s l) {p : Ptr} {n : FdsetNode} (hn : s.nodes p = some n) :
    ∃ s' pre suf, l = pre ++ p :: suf ∧ runOp s (.del n.fd) = some (s', [p]) ∧ Holds s' (pre ++ suf) ∧
      s'.nodes = Function.update s.nodes p none ∧ s'.fresh = s.fresh ∧ s'.delCount = s.delCount + 1 := by
  obtain ⟨q, hq⟩ : ∃ q, l.find? (s.hasFd n.fd) = some q := by
    rw [← Option.isSome_iff_exists, List.find?_isSome]
    exact ⟨p, (h.nodes p).mp ⟨n, hn⟩, hasFd_iff.mpr ⟨n, hn, rfl⟩⟩
  obtain ⟨n', hn', heq⟩ := hasFd_iff.mp (List.find?_some hq)
  obtain rfl := h.distinct q p n' n hn' hn heq
  obtain ⟨pre, suf, rfl⟩ := List.append_of_mem (List.mem_of_find?_eq_some hq)
  obtain ⟨s', hs', hholds, heffect⟩ := h.delete
  refine ⟨s', pre, suf, rfl, ?_, hholds, heffect⟩
  rw [runOp, h.find, Option.bind_some, fdsetDelFd, h.find, Option.bind_some, hq]
  simp only [hs', Option.map_some, Option.toList_some]

theorem Holds.op (h : Holds s l) (op : Op) :
    ∃ s' l' gone, runOp s op = some (s', gone) ∧ Holds s' l' ∧ Effect s l op s' l' gone := by
  cases op with
  | add n room =>
    obtain ⟨r, s', l', hadd, hholds, heffect⟩ := h.add n room
    exact ⟨s', l', [], by rw [runOp, hadd, Option.map_some], hholds, heffect⟩
  | del fd =>
    cases hfind : l.find? (s.hasFd fd) with
    | none =>
      refine ⟨s, l, [], ?_, h, .refused _⟩
      rw [runOp, h.find, Option.bind_some, fdsetDelFd, h.find, Option.bind_some, hfind]
      rfl
    | some p =>
      obtain ⟨n, hn, rfl⟩ := hasFd_iff.mp (List.find?_some hfind)
      obtain ⟨s', pre, suf, hsplit, hrun, hholds, hnodes, hfresh, hcount⟩ := h.del_there hn
      exact ⟨s', pre ++ suf, [p], hrun, hholds, .removed n hsplit hn hnodes hfresh hcount⟩

theorem Reachable.holds (h : Reachable s) : ∃ l, Holds s l := by
  induction h with
  | init => exact ⟨[], Holds.init⟩
  | @op s s' op gone h hop ih =>
    obtain ⟨l, hl⟩ := ih
    obtain ⟨s₁, l', gone₁, hop₁, hholds, -⟩ := hl.op op
    obtain ⟨rfl, -⟩ := Prod.mk.inj (Option.some.inj (hop.symm.trans hop₁))
    exact ⟨l', hholds⟩

end Operations

/-! ### What has happened so far -/

def CalledOnce (p : Ptr) (n : FdsetNode) (trace : List Event) : Prop :=
  ∃ before after, trace = before ++ .called p n :: after ∧ (∀ n', Event.called p n' ∉ before ++ after) ∧
    Event.removed p ∉ before

/-- What the loop keeps: which descriptors are still to be called, and what was done to those that were ready. -/
structure Records (s₀ : Fdset) (ready : Finset ℤ) (fds : Fdset) (rfds : Finset ℤ) (trace : List Event) : Prop where
  within : rfds ⊆ ready
  old : ∀ p n, s₀.nodes p = some n → ∃ k, k < fds.fresh ∧ p = .node k
  origin : ∀ p n, fds.nodes p = some n → n.fd ∈ ready → s₀.nodes p = some n
  kept : ∀ p n, s₀.nodes p = some n → n.fd ∈ ready →
    fds.nodes p = some n ∧ Event.removed p ∉ trace ∨ fds.nodes p = none ∧ Event.removed p ∈ trace
  called : ∀ p n, Event.called p n ∈ trace → s₀.nodes p = some n ∧ n.fd ∈ ready ∧ n.fd ∉ rfds
  once : ∀ p n, s₀.nodes p = some n → n.fd ∈ ready → n.fd ∉ rfds → CalledOnce p n trace

theorem CalledOnce.append {p : Ptr} {n : FdsetNode} {trace more : List Event} (h : CalledOnce p n trace)
    (hmore : ∀ n', Event.called p n' ∉ more) : CalledOnce p n (trace ++ more) := by
  obtain ⟨before, after, rfl, hcalled, hremoved⟩ := h
  refine ⟨before, after ++ more, by simp, fun n' hno => ?_, hremoved⟩
  rw [← List.append_assoc] at hno
  rcases List.mem_append.mp hno with hno | hno
  · exact hcalled n' hno
  · exact hmore n' hno

section Records

variable {s₀ fds : Fdset} {ready rfds : Finset ℤ} {trace : List Event} {l : List Ptr}

theorem Records.start (h : Holds s₀ l) : Records s₀ ready s₀ ready [] where
  within := Finset.Subset.refl _
  old p n hp := h.fresh p ((h.nodes p).mp ⟨n, hp⟩)
  origin _ _ hp _ := hp
  kept _ _ hp _ := Or.inl ⟨hp, List.not_mem_nil⟩
  called _ _ hno := absurd hno List.not_mem_nil
  once _ _ _ hready hno := absurd hready hno

def Op.Outside (ready : Finset ℤ) : Op → Prop
  | .add n _ => n.fd ∉ ready
  | .del _ => True

theorem not_called_removed (gone : List Ptr) (p : Ptr) (n : FdsetNode) : Event.called p n ∉ gone.map Event.removed := by
  simp

theorem Records.op (h : Records s₀ ready fds rfds trace) {op : Op} (hop : op.Outside ready) {s' : Fdset}
    {l' gone : List Ptr} (heffect : Effect fds l op s' l' gone) :
    Records s₀ ready s' rfds (trace ++ gone.map Event.removed) := by
  have honce : ∀ p n, s₀.nodes p = some n → n.fd ∈ ready → n.fd ∉ rfds →
      CalledOnce p n (trace ++ gone.map Event.removed) :=
    fun p n hp hready hno => (h.once p n hp hready hno).append fun n' => not_called_removed gone p n'
  have hcalled : ∀ p n, Event.called p n ∈ trace ++ gone.map Event.removed →
      s₀.nodes p = some n ∧ n.fd ∈ ready ∧ n.fd ∉ rfds := fun p n hmem => by
    rcases List.mem_append.mp hmem with hmem | hmem
    · exact h.called p n hmem
    · exact absurd hmem (not_called_removed gone p n)
  cases heffect with
  | refused op => simpa using h
  | added n room hfree hnodes hfresh hcount =>
    refine ⟨h.within, fun p n₀ hp => ?_, fun p n₀ hp hready => ?_, fun p n₀ hp hready => ?_, hcalled, honce⟩
    · obtain ⟨k, hk, rfl⟩ := h.old p n₀ hp
      exact ⟨k, hfresh ▸ Nat.lt_succ_of_lt hk, rfl⟩
    · rw [hnodes, Function.update_apply] at hp
      split at hp
      · obtain rfl := Option.some.inj hp
        exact absurd hready hop
      · exact h.origin p n₀ hp hready
    · obtain ⟨k, hk, rfl⟩ := h.old p n₀ hp
      have hne : Ptr.node k ≠ Ptr.node fds.fresh := fun hno => by
        injection hno with hno
        omega
      rw [hnodes, Function.update_of_ne hne, List.map_nil, List.append_nil]
      exact h.kept _ n₀ hp hready
  | @removed n s' pre suf q hlist hnode hnodes hfresh hcount =>
    refine ⟨h.within, fun p n₀ hp => ?_, fun p n₀ hp hready => ?_, fun p n₀ hp hready => ?_, hcalled, honce⟩
    · rw [hfresh]
      exact h.old p n₀ hp
    · rw [hnodes, Function.update_apply] at hp
      split at hp
      · exact absurd hp (Option.some_ne_none n₀).symm
      · exact h.origin p n₀ hp hready
    · rw [hnodes]
      by_cases hpq : p = q
      · subst hpq
        exact Or.inr ⟨Function.update_self _ _ _, by simp⟩
      · rw [Function.update_of_ne hpq]
        have hmem : Event.removed p ∈ trace ++ [q].map Event.removed ↔ Event.removed p ∈ trace := by
          simp [hpq]
        rw [hmem]
        exact h.kept p n₀ hp hready

theorem Records.call (h : Records s₀ ready fds rfds trace) (hl : Holds s₀ l) {p : Ptr} {n : FdsetNode}
    (hp : fds.nodes p = some n) (hn : n.fd ∈ rfds) : Records s₀ ready fds (rfds.erase n.fd) (trace ++ [.called p n]) := by
  have hready := h.within hn
  have horigin := h.origin p n hp hready
  refine ⟨(Finset.erase_subset _ _).trans h.within, h.old, h.origin, fun q n₀ hq hq' => ?_, fun q n₀ hq => ?_,
    fun q n₀ hq hq' hno => ?_⟩
  · simpa using h.kept q n₀ hq hq'
  · rcases List.mem_append.mp hq with hq | hq
    · obtain ⟨hq, hq', hno⟩ := h.called q n₀ hq
      exact ⟨hq, hq', fun hmem => hno (Finset.mem_of_mem_erase hmem)⟩
    · injection List.mem_singleton.mp hq with hqp hnn
      subst hqp hnn
      exact ⟨horigin, hready, Finset.notMem_erase _ _⟩
  · by_cases hfd : n₀.fd = n.fd
    · obtain rfl := hl.distinct q p n₀ n hq horigin hfd
      obtain rfl : n₀ = n := Option.some.inj (hq.symm.trans horigin)
      refine ⟨trace, [], rfl, fun n' hmem => ?_, fun hmem => ?_⟩
      · rw [List.append_nil] at hmem
        obtain ⟨hq₁, -, hno₁⟩ := h.called q n' hmem
        obtain rfl : n' = n₀ := Option.some.inj (hq₁.symm.trans hq)
        exact hno₁ hn
      · rcases h.kept q n₀ hq hq' with ⟨-, hno⟩ | ⟨hnone, -⟩
        · exact hno hmem
        · exact absurd (hp.symm.trans hnone) (Option.some_ne_none _)
    · refine (h.once q n₀ hq hq' fun hmem => hno (Finset.mem_erase.mpr ⟨hfd, hmem⟩)).append fun n' hmem => ?_
      injection List.mem_singleton.mp hmem with hqp hnn
      subst hqp hnn
      exact hfd (congrArg FdsetNode.fd (Option.some.inj (hq.symm.trans horigin)))

end Records

/-! ### The node the loop is at -/

/-- The node is in the list, and no node in front of it is still to be called. -/
def Stands (fds : Fdset) (rfds : Finset ℤ) (l : List Ptr) (fn : Ptr) : Prop :=
  ∃ pre suf, l = pre ++ fn :: suf ∧ ∀ p ∈ pre, ∀ n, fds.nodes p = some n → n.fd ∉ rfds

def Gone (fds : Fdset) (l : List Ptr) (fn : Ptr) : Prop := fn ∉ l ∧ ∃ k, k < fds.fresh ∧ fn = .node k

section Position

variable {s : Fdset} {ready rfds : Finset ℤ} {l : List Ptr} {fn : Ptr}

theorem Gone.links (h : Gone s l fn) (hl : Holds s l) : s.links fn = none := by
  obtain ⟨hno, k, -, rfl⟩ := h
  exact hl.freed _ (by simpa using hno)

theorem Effect.gone {op : Op} {s' : Fdset} {l' gone : List Ptr} (heffect : Effect s l op s' l' gone) (h : Gone s l fn) :
    Gone s' l' fn ∧ fn ∉ gone := by
  obtain ⟨hno, k, hk, rfl⟩ := h
  cases heffect with
  | refused op => exact ⟨⟨hno, k, hk, rfl⟩, List.not_mem_nil⟩
  | added n room hfree hnodes hfresh hcount =>
    refine ⟨⟨fun hmem => ?_, k, hfresh ▸ Nat.lt_succ_of_lt hk, rfl⟩, List.not_mem_nil⟩
    rcases List.mem_append.mp hmem with hmem | hmem
    · exact hno hmem
    · injection List.mem_singleton.mp hmem with heq
      omega
  | @removed n s' pre suf p hlist hnode hnodes hfresh hcount =>
    simp only [hlist, List.mem_append, List.mem_cons, not_or] at hno
    refine ⟨⟨?_, k, hfresh ▸ hk, rfl⟩, ?_⟩
    · simp only [List.mem_append, not_or]
      exact ⟨hno.1, hno.2.2⟩
    · simpa using hno.2.1

/-- An operation removes the node, or leaves it where it stands. -/
theorem Effect.stands {op : Op} {s' : Fdset} {l' gone : List Ptr} (heffect : Effect s l op s' l' gone)
    (hl' : Holds s' l') (hl : Holds s l) (h : Stands s rfds l fn) :
    fn ∈ gone ∧ Gone s' l' fn ∨ fn ∉ gone ∧ Stands s' rfds l' fn := by
  obtain ⟨pre, suf, hsplit, hpre⟩ := h
  cases heffect with
  | refused op => exact Or.inr ⟨List.not_mem_nil, pre, suf, hsplit, hpre⟩
  | added n room hfree hnodes hfresh hcount =>
    refine Or.inr ⟨List.not_mem_nil, pre, suf ++ [.node s.fresh], by rw [hsplit]; simp, fun p hp n₀ hn₀ => ?_⟩
    rw [hnodes, Function.update_of_ne] at hn₀
    · exact hpre p hp n₀ hn₀
    · rintro rfl
      obtain ⟨n₁, hn₁⟩ := (hl.nodes _).mpr (hsplit ▸ List.mem_append_left _ hp)
      exact absurd (hn₁.symm.trans hfree) (Option.some_ne_none n₁)
  | @removed n s' a b q hlist hnode hnodes hfresh hcount =>
    have hpre' : ∀ p ∈ pre, ∀ n₀, s'.nodes p = some n₀ → n₀.fd ∉ rfds := fun p hp n₀ hn₀ => by
      rw [hnodes, Function.update_apply] at hn₀
      split at hn₀
      · exact absurd hn₀ (Option.some_ne_none n₀).symm
      · exact hpre p hp n₀ hn₀
    by_cases hq : fn = q
    · subst hq
      have hout : fn ∉ a ++ b := fun hmem => by
        obtain ⟨n₁, hn₁⟩ := (hl'.nodes fn).mpr hmem
        rw [hnodes, Function.update_self] at hn₁
        exact absurd hn₁ (Option.some_ne_none n₁).symm
      obtain ⟨k, hk, rfl⟩ := hl.fresh fn (hlist ▸ by simp)
      exact Or.inl ⟨List.mem_singleton_self _, hout, k, hfresh ▸ hk, rfl⟩
    · refine Or.inr ⟨by simpa using hq, ?_⟩
      rcases List.append_eq_append_iff.mp (hsplit.symm.trans hlist) with ⟨c, ha, hc⟩ | ⟨c, ha, hc⟩
      · cases c with
        | nil => exact absurd (List.cons.inj hc).1 hq
        | cons d c =>
          obtain ⟨rfl, hsuf⟩ := List.cons.inj hc
          refine ⟨pre, c ++ b, by rw [ha]; simp, hpre'⟩
      · cases c with
        | nil => exact absurd (List.cons.inj hc).1.symm hq
        | cons d c =>
          obtain ⟨rfl, hb⟩ := List.cons.inj hc
          refine ⟨a ++ c, suf, by rw [hb]; simp, fun p hp => hpre' p ?_⟩
          rw [ha]
          rcases List.mem_append.mp hp with hp | hp
          · exact List.mem_append_left _ hp
          · exact List.mem_append_right _ (List.mem_cons_of_mem _ hp)

theorem Effect.count {op : Op} {s' : Fdset} {l' gone : List Ptr} (heffect : Effect s l op s' l' gone) :
    s'.delCount = s.delCount + BitVec.ofNat 32 gone.length := by
  cases heffect with
  | refused op => simp
  | added n room hfree hnodes hfresh hcount => simpa using hcount
  | removed n hlist hnode hnodes hfresh hcount => simpa using hcount

theorem Records.ops {s₀ : Fdset} {trace : List Event} (fn : Ptr) (ops : List Op) (hops : ∀ op ∈ ops, op.Outside ready)
    (hl : Holds s l) (h : Records s₀ ready s rfds trace) :
    ∃ s' l' gone, runOps s ops = some (s', gone) ∧ Holds s' l' ∧
      Records s₀ ready s' rfds (trace ++ gone.map Event.removed) ∧
      s'.delCount = s.delCount + BitVec.ofNat 32 gone.length ∧
      (Gone s l fn → Gone s' l' fn ∧ fn ∉ gone) ∧
      (Stands s rfds l fn → fn ∈ gone ∧ Gone s' l' fn ∨ fn ∉ gone ∧ Stands s' rfds l' fn) := by
  induction ops generalizing s l trace with
  | nil =>
    exact ⟨s, l, [], rfl, hl, by simpa using h, by simp, fun hgone => ⟨hgone, List.not_mem_nil⟩,
      fun hstands => Or.inr ⟨List.not_mem_nil, hstands⟩⟩
  | cons op ops ih =>
    obtain ⟨s₁, l₁, gone₁, hop, hl₁, heffect⟩ := hl.op op
    have h₁ := h.op (hops op List.mem_cons_self) heffect
    obtain ⟨s₂, l₂, gone₂, hrest, hl₂, h₂, hcount₂, hgone₂, hstands₂⟩ :=
      ih (fun o ho => hops o (List.mem_cons_of_mem _ ho)) hl₁ h₁
    refine ⟨s₂, l₂, gone₁ ++ gone₂, ?_, hl₂, ?_, ?_, fun hgone => ?_, fun hstands => ?_⟩
    · rw [runOps, hop, Option.bind_some, hrest, Option.map_some]
    · rw [List.map_append, ← List.append_assoc]
      exact h₂
    · rw [hcount₂, heffect.count, List.length_append, BitVec.ofNat_add, BitVec.add_assoc]
    · obtain ⟨hgone, hno⟩ := heffect.gone hgone
      obtain ⟨hgone', hno'⟩ := hgone₂ hgone
      exact ⟨hgone', by simp [hno, hno']⟩
    · rcases heffect.stands hl₁ hl hstands with ⟨hmem, hgone⟩ | ⟨hno, hstands⟩
      · exact Or.inl ⟨List.mem_append_left _ hmem, (hgone₂ hgone).1⟩
      · rcases hstands₂ hstands with ⟨hmem, hgone⟩ | ⟨hno', hstands⟩
        · exact Or.inl ⟨List.mem_append_right _ hmem, hgone⟩
        · exact Or.inr ⟨by simp [hno, hno'], hstands⟩

end Position

/-! ### One round -/

/-- The handler that is called now removes the node it is called for, and the number of its removals is a multiple of
what the count can tell apart. -/
def Slips (st : Select) (ops : List Op) : Prop :=
  ∃ fn n fds gone, st.phase = .at fn ∧ st.fds.nodes fn = some n ∧ n.fd ∈ st.rfds.fds ∧
    runOps st.fds ops = some (fds, gone) ∧ fn ∈ gone ∧ 2 ^ 32 ∣ gone.length

/-- The loop is at a node whose descriptor has no place in an `fd_set`. -/
def Strays (st : Select) : Prop :=
  ∃ fn n, st.phase = .at fn ∧ st.fds.nodes fn = some n ∧ fdSetsize ≤ n.fd

def Fails (st : Select) (ops : List Op) : Prop := Slips st ops ∨ Strays st

/-- The loop is at a node of the list, with `suf` behind it. -/
structure AtNode (s₀ : Fdset) (ready : Finset ℤ) (st : Select) (l : List Ptr) (fn : Ptr) (suf : List Ptr) : Prop where
  holds : Holds st.fds l
  records : Records s₀ ready st.fds st.rfds.fds st.trace
  phase : st.phase = .at fn
  count : st.delCount = st.fds.delCount
  past : ∃ pre, l ++ [.back] = pre ++ fn :: suf ∧ ∀ p ∈ pre, ∀ n, st.fds.nodes p = some n → n.fd ∉ st.rfds.fds

/-- The loop has come to the end of the list. -/
structure AtEnd (s₀ : Fdset) (ready : Finset ℤ) (st : Select) : Prop where
  records : Records s₀ ready st.fds st.rfds.fds st.trace
  phase : st.phase = .returned 1
  past : ∀ p n, st.fds.nodes p = some n → n.fd ∉ st.rfds.fds

section Round

variable {s₀ : Fdset} {ready : Finset ℤ} {st : Select} {l₀ l suf : List Ptr} {fn : Ptr}

theorem restart_at (hl : Holds st.fds l) (h : Records s₀ ready st.fds st.rfds.fds st.trace) :
    ∃ fn suf, AtNode s₀ ready st.restart l fn suf := by
  obtain ⟨a, ha⟩ := hl.first
  have hhead := hl.linked.first.symm.trans ha
  obtain ⟨suf, hsuf⟩ : ∃ suf, l ++ [.back] = a :: suf := by
    cases hwhole : l ++ [.back] with
    | nil => exact absurd hwhole (by simp)
    | cons b suf =>
      rw [hwhole] at hhead
      exact ⟨suf, congrArg (· :: suf) (Option.some.inj hhead)⟩
  refine ⟨a, suf, hl, h, ?_, rfl, [], hsuf, fun p hp => absurd hp List.not_mem_nil⟩
  simp only [Select.restart, ha, Phase.follow]

variable {pre : List Ptr}

theorem next_of_split (hl : Holds st.fds l) (hsplit : l = pre ++ fn :: suf) :
    ∃ b suf', suf ++ [.back] = b :: suf' ∧ st.fds.links.next fn = some b := by
  obtain ⟨b, suf', hb⟩ : ∃ b suf', suf ++ [Ptr.back] = b :: suf' := List.exists_cons_of_ne_nil (by simp)
  refine ⟨b, suf', hb, hl.linked.next (Ptr.front :: pre) suf' ?_⟩
  rw [hsplit, List.append_assoc, List.cons_append, hb]
  rfl

theorem advance_at (hl : Holds st.fds l) (h : Records s₀ ready st.fds st.rfds.fds st.trace)
    (hcount : st.delCount = st.fds.delCount) (hsplit : l = pre ++ fn :: suf)
    (hpast : ∀ p ∈ pre ++ [fn], ∀ n, st.fds.nodes p = some n → n.fd ∉ st.rfds.fds) :
    ∃ fn' suf', AtNode s₀ ready (st.advance fn) l fn' suf' ∧ suf'.length = suf.length := by
  obtain ⟨b, suf', hb, hnext⟩ := next_of_split hl hsplit
  have hwhole : l ++ [.back] = pre ++ fn :: b :: suf' := by
    rw [hsplit, List.append_assoc, List.cons_append, hb]
  refine ⟨b, suf', ⟨hl, h, ?_, hcount, pre ++ [fn], by rw [hwhole]; simp, hpast⟩, ?_⟩
  · simp only [Select.advance, hnext, Phase.follow]
  · have hlength := congrArg List.length hb
    simpa using hlength.symm

theorem count_eq_iff (c : BitVec 32) (k : ℕ) : c + BitVec.ofNat 32 k = c ↔ 2 ^ 32 ∣ k := by
  rw [Nat.dvd_iff_mod_eq_zero, ← BitVec.toNat_ofNat]
  constructor
  · intro heq
    have hzero : BitVec.ofNat 32 k = 0 := left_eq_add.mp heq.symm
    rw [hzero]
    rfl
  · intro hzero
    rw [BitVec.eq_of_toNat_eq (y := 0#32) hzero, BitVec.add_zero]

/-- **A call.**  It slips and the loop follows a node that is gone, or the loop goes on with one descriptor less. -/
theorem call_at {n : FdsetNode} {ops : List Op} (hops : ∀ op ∈ ops, op.Outside ready) (hl₀ : Holds s₀ l₀)
    (hl : Holds st.fds l) (h : Records s₀ ready st.fds st.rfds.fds st.trace) (hphase : st.phase = .at fn)
    (hcount : st.delCount = st.fds.delCount) (hsplit : l = pre ++ fn :: suf)
    (hpast : ∀ p ∈ pre, ∀ n, st.fds.nodes p = some n → n.fd ∉ st.rfds.fds) (hn : st.fds.nodes fn = some n)
    (hready : n.fd ∈ st.rfds.fds) :
    Slips st ops ∧ (st.call fn n ops).phase = .lost ∨
      ¬Slips st ops ∧ ∃ l' fn' suf', AtNode s₀ ready (st.call fn n ops) l' fn' suf' ∧
        (st.call fn n ops).rfds.fds.card < st.rfds.fds.card := by
  have hstands : Stands st.fds (st.rfds.fds.erase n.fd) l fn :=
    ⟨pre, suf, hsplit, fun p hp n₀ hn₀ hmem => hpast p hp n₀ hn₀ (Finset.mem_of_mem_erase hmem)⟩
  obtain ⟨fds, l', gone, hrun, hl', h', hcount', -, hplace⟩ := (h.call hl₀ hn hready).ops fn ops hops hl
  have hslips : Slips st ops ↔ fn ∈ gone ∧ 2 ^ 32 ∣ gone.length := by
    refine ⟨?_, fun hyes => ⟨fn, n, fds, gone, hphase, hn, hready, hrun, hyes⟩⟩
    rintro ⟨fn', n', fds', gone', hphase', -, -, hrun', hyes⟩
    obtain rfl : fn = fn' := by
      rw [hphase] at hphase'
      injection hphase'
    obtain ⟨-, rfl⟩ := Prod.mk.inj (Option.some.inj (hrun.symm.trans hrun'))
    exact hyes
  have hcard : (st.rfds.fds.erase n.fd).card < st.rfds.fds.card := Finset.card_erase_lt_of_mem hready
  rw [List.append_assoc] at h'
  obtain ⟨st', hst'⟩ : ∃ st' : Select, st' = ⟨fds, st.rfds.clr n.fd, st.delCount, st.phase,
    st.trace ++ Event.called fn n :: gone.map Event.removed⟩ := ⟨_, rfl⟩
  have hcall : st.call fn n ops = if fds.delCount ≠ st.delCount then st'.restart else st'.advance fn := by
    rw [Select.call, hrun, hst']
  have hfds : st'.fds = fds := by rw [hst']
  have hrfds : st'.rfds.fds = st.rfds.fds.erase n.fd := by rw [hst', FdSet.clr]
  have hrecords : Records s₀ ready st'.fds st'.rfds.fds st'.trace := by
    rw [hst']
    exact h'
  rw [← hrfds] at hcard
  by_cases hwrap : 2 ^ 32 ∣ gone.length
  · have hsame : fds.delCount = st.delCount := by rw [hcount', hcount, (count_eq_iff _ _).mpr hwrap]
    rw [hcall, if_neg (not_not.mpr hsame), hslips]
    rcases hplace hstands with ⟨hmem, hgone⟩ | ⟨hno, pre', suf', hsplit', hpast'⟩
    · refine Or.inl ⟨⟨hmem, hwrap⟩, ?_⟩
      simp only [Select.advance, Mem.next, hfds, hgone.links hl', Option.bind_none, Phase.follow]
    · refine Or.inr ⟨fun hyes => hno hyes.1, l', ?_⟩
      have hpast'' : ∀ p ∈ pre' ++ [fn], ∀ n₀, st'.fds.nodes p = some n₀ → n₀.fd ∉ st'.rfds.fds := fun p hp n₀ hn₀ => by
        rw [hfds] at hn₀
        rw [hrfds]
        rcases List.mem_append.mp hp with hp | hp
        · exact hpast' p hp n₀ hn₀
        · obtain rfl := List.mem_singleton.mp hp
          intro hmem
          have horigin := h'.origin p n₀ hn₀ (h'.within hmem)
          have hsame := h.origin p n hn (h.within hready)
          obtain rfl : n₀ = n := Option.some.inj (horigin.symm.trans hsame)
          exact Finset.notMem_erase _ _ hmem
      obtain ⟨fn', suf'', hat, -⟩ := advance_at (hfds ▸ hl') hrecords (by rw [hfds, hsame, hst']) hsplit' hpast''
      exact ⟨fn', suf'', hat, hcard⟩
  · have hother : fds.delCount ≠ st.delCount := by
      rw [hcount', hcount]
      exact fun hno => hwrap ((count_eq_iff _ _).mp hno)
    rw [hcall, if_pos hother, hslips]
    obtain ⟨fn', suf', hat⟩ := restart_at (hfds ▸ hl') hrecords
    exact Or.inr ⟨fun hyes => hwrap hyes.2, l', fn', suf', hat, hcard⟩

/-- **A round of the loop.**  It ends, goes to the next node, calls a handler, follows a node that is gone, or leaves the
set. -/
theorem step_at {ops : List Op} (hops : ∀ op ∈ ops, op.Outside ready) (hl₀ : Holds s₀ l₀)
    (h : AtNode s₀ ready st l fn suf) :
    Fails st ops ∧ (step ops st).phase = .lost ∨
      ¬Fails st ops ∧ (AtEnd s₀ ready (step ops st) ∨
        (∃ fn' suf', AtNode s₀ ready (step ops st) l fn' suf' ∧ (step ops st).rfds.fds = st.rfds.fds ∧
          suf'.length < suf.length) ∨
        ∃ l' fn' suf', AtNode s₀ ready (step ops st) l' fn' suf' ∧ (step ops st).rfds.fds.card < st.rfds.fds.card) := by
  obtain ⟨pre, hsplit, hpast⟩ := h.past
  rcases List.eq_nil_or_concat suf with rfl | ⟨suf, b, rfl⟩
  · -- the back of the list
    obtain ⟨rfl, hfn⟩ := List.append_inj' hsplit rfl
    obtain rfl := List.singleton_inj.mp hfn
    obtain ⟨p, hback⟩ := h.holds.linked.back_cell
    have hstep : step ops st = { st with phase := .returned 1 } := by
      simp only [step, h.phase, hback]
    have hnone : ∀ n, st.fds.nodes .back ≠ some n := fun n hn => by
      obtain ⟨k, -, hk⟩ := h.holds.fresh _ ((h.holds.nodes _).mp ⟨n, hn⟩)
      exact Ptr.noConfusion hk
    refine Or.inr ⟨?_, Or.inl ?_⟩
    · rintro (⟨fn', n, fds, gone, hphase, hn, -⟩ | ⟨fn', n, hphase, hn, -⟩)
      · rw [h.phase] at hphase
        injection hphase with heq
        exact hnone n (heq ▸ hn)
      · rw [h.phase] at hphase
        injection hphase with heq
        exact hnone n (heq ▸ hn)
    · rw [hstep]
      exact ⟨h.records, rfl, fun p n hn => hpast p ((h.holds.nodes p).mp ⟨n, hn⟩) n hn⟩
  · rw [List.concat_eq_append, ← List.cons_append, ← List.append_assoc] at hsplit
    obtain ⟨hlist, -⟩ := List.append_inj' hsplit rfl
    obtain ⟨n, hn⟩ := (h.holds.nodes fn).mpr (hlist ▸ by simp)
    obtain ⟨q, suf', -, hnext⟩ := next_of_split h.holds hlist
    obtain ⟨cell, hcell, hcellnext⟩ := Option.bind_eq_some_iff.mp hnext
    have hstep : step ops st = match st.rfds.isset n.fd with
        | none => { st with phase := .lost }
        | some true => st.call fn n ops
        | some false => st.advance fn := by
      obtain ⟨next, prev⟩ := cell
      obtain rfl : next = some q := hcellnext
      simp only [step, h.phase, hcell, hn]
    by_cases hfit : n.fd < fdSetsize
    · have hstays : ¬Strays st := by
        rintro ⟨fn', n', hphase, hn', hge⟩
        rw [h.phase] at hphase
        injection hphase with heq
        subst heq
        rw [Option.some.inj (hn'.symm.trans hn)] at hge
        exact absurd hfit (not_lt.mpr hge)
      rw [FdSet.isset, if_pos ⟨h.holds.nonneg fn n hn, hfit⟩] at hstep
      by_cases hready : n.fd ∈ st.rfds.fds
      · rw [decide_eq_true hready] at hstep
        rw [hstep, Fails, or_iff_left hstays]
        rcases call_at hops hl₀ h.holds h.records h.phase h.count hlist hpast hn hready with hlost | ⟨hno, hcalled⟩
        · exact Or.inl hlost
        · exact Or.inr ⟨hno, Or.inr (Or.inr hcalled)⟩
      · rw [decide_eq_false hready] at hstep
        rw [hstep, Fails, or_iff_left hstays]
        have hno : ¬Slips st ops := by
          rintro ⟨fn', n', fds, gone, hphase, hn', hready', -⟩
          rw [h.phase] at hphase
          injection hphase with heq
          subst heq
          exact hready (Option.some.inj (hn'.symm.trans hn) ▸ hready')
        have hpast' : ∀ p ∈ pre ++ [fn], ∀ n₀, st.fds.nodes p = some n₀ → n₀.fd ∉ st.rfds.fds := fun p hp n₀ hn₀ => by
          rcases List.mem_append.mp hp with hp | hp
          · exact hpast p hp n₀ hn₀
          · obtain rfl := List.mem_singleton.mp hp
            exact Option.some.inj (hn₀.symm.trans hn) ▸ hready
        obtain ⟨fn', suf'', hat, hlength⟩ := advance_at h.holds h.records h.count hlist hpast'
        refine Or.inr ⟨hno, Or.inr (Or.inl ⟨fn', suf'', hat, rfl, ?_⟩)⟩
        rw [hlength, List.concat_eq_append, List.length_append]
        exact Nat.lt_succ_self _
    · -- the descriptor is looked for outside of the set
      rw [FdSet.isset, if_neg fun hin => hfit hin.2] at hstep
      exact Or.inl ⟨Or.inr ⟨fn, n, h.phase, hn, not_lt.mp hfit⟩, by rw [hstep]⟩

end Round

/-! ### The whole loop -/

/-- What is said of the calls: of the nodes that are registered with a ready descriptor, each is called once and not
after its removal, or was removed before its turn; and nothing else is called. -/
structure Dispatched (s₀ : Fdset) (ready : Finset ℤ) (trace : List Event) : Prop where
  each : ∀ p n, s₀.nodes p = some n → n.fd ∈ ready →
    CalledOnce p n trace ∨ (∀ n', Event.called p n' ∉ trace) ∧ Event.removed p ∈ trace
  only : ∀ p n, Event.called p n ∈ trace → s₀.nodes p = some n ∧ n.fd ∈ ready

section Loop

variable {s₀ : Fdset} {ready : Finset ℤ} {st : Select} {l₀ l suf : List Ptr} {fn : Ptr}

theorem AtEnd.dispatched (h : AtEnd s₀ ready st) : Dispatched s₀ ready st.trace where
  each p n hp hready := by
    by_cases hopen : n.fd ∈ st.rfds.fds
    · refine Or.inr ⟨fun n' hno => ?_, ?_⟩
      · obtain ⟨hp', -, hclosed⟩ := h.records.called p n' hno
        obtain rfl : n' = n := Option.some.inj (hp'.symm.trans hp)
        exact hclosed hopen
      · rcases h.records.kept p n hp hready with ⟨hthere, -⟩ | ⟨-, hremoved⟩
        · exact absurd hopen (h.past p n hthere)
        · exact hremoved
    · exact Or.inl (h.records.once p n hp hready hopen)
  only p n hmem := by
    obtain ⟨hp, hready, -⟩ := h.records.called p n hmem
    exact ⟨hp, hready⟩

variable {ops : ℕ → List Op}

theorem run_of_end {x : ℤ} {j k : ℕ} (hjk : j ≤ k)
    (h : (run ops st j).phase = .returned x ∨ (run ops st j).phase = .lost) : run ops st k = run ops st j := by
  induction k, hjk using Nat.le_induction with
  | base => rfl
  | succ k _ ih =>
    rw [run, ih]
    rcases h with h | h <;> simp only [step, h]

theorem not_fails_of_end {ops : List Op} {x : ℤ} (h : st.phase = .returned x) : ¬Fails st ops := by
  rintro (⟨fn, n, fds, gone, hphase, -⟩ | ⟨fn, n, hphase, -⟩)
  · rw [h] at hphase
    exact Phase.noConfusion hphase
  · rw [h] at hphase
    exact Phase.noConfusion hphase

/-- **The loop comes to its end**, from every node, if nothing fails: each call leaves one ready descriptor less, each
other round one node less. -/
theorem run_ends (hops : ∀ k, ∀ op ∈ ops k, op.Outside ready) (hl₀ : Holds s₀ l₀)
    (hfails : ∀ k, ¬Fails (run ops st k) (ops k)) (j : ℕ) (h : AtNode s₀ ready (run ops st j) l fn suf) :
    ∃ k, AtEnd s₀ ready (run ops st k) := by
  induction hcard : (run ops st j).rfds.fds.card using Nat.strong_induction_on generalizing j l fn suf with
  | _ card ihcard =>
    induction hlength : suf.length using Nat.strong_induction_on generalizing j l fn suf with
    | _ length ihlength =>
      rcases step_at (hops j) hl₀ h with ⟨hno, -⟩ | ⟨-, hend | ⟨fn', suf', hat, hrfds, hless⟩ | ⟨l', fn', suf', hat, hless⟩⟩
      · exact absurd hno (hfails j)
      · exact ⟨j + 1, hend⟩
      · exact ihlength suf'.length (hlength ▸ hless) (j + 1) hat (by rw [← hcard, ← hrfds]; rfl) rfl
      · exact ihcard (run ops st (j + 1)).rfds.fds.card (hcard ▸ hless) (j + 1) hat rfl

theorem run_place (hops : ∀ k, ∀ op ∈ ops k, op.Outside ready) (hl₀ : Holds s₀ l₀) (h : AtNode s₀ ready st l fn suf)
    (j : ℕ) :
    (∃ l fn suf, AtNode s₀ ready (run ops st j) l fn suf) ∨ AtEnd s₀ ready (run ops st j) ∨
      (run ops st j).phase = .lost := by
  induction j with
  | zero => exact Or.inl ⟨l, fn, suf, h⟩
  | succ j ih =>
    rcases ih with ⟨l, fn, suf, hat⟩ | hend | hlost
    · rcases step_at (hops j) hl₀ hat with ⟨-, hlost⟩ | ⟨-, hend | ⟨fn', suf', hat, -⟩ | ⟨l', fn', suf', hat, -⟩⟩
      · exact Or.inr (Or.inr hlost)
      · exact Or.inr (Or.inl hend)
      · exact Or.inl ⟨l, fn', suf', hat⟩
      · exact Or.inl ⟨l', fn', suf', hat⟩
    · have hsame := run_of_end (Nat.le_succ j) (Or.inl hend.phase)
      exact Or.inr (Or.inl (hsame ▸ hend))
    · have hsame := run_of_end (x := 0) (Nat.le_succ j) (Or.inr hlost)
      exact Or.inr (Or.inr (hsame ▸ hlost))

end Loop

/-- What `fdset_select` does with the handlers: it returns, and they were called as they should be. -/
def Dispatches (s : Fdset) (x : ℤ) (rfds : FdSet) (ops : ℕ → List Op) : Prop :=
  ∃ k, (run ops (selectStart s x rfds) k).phase = .returned (if x ≤ 0 then x else 1) ∧
    Dispatched s (if x ≤ 0 then ∅ else rfds.fds) (run ops (selectStart s x rfds) k).trace

section Dispatches

variable {s : Fdset} {l : List Ptr} {x : ℤ} {rfds : FdSet} {ops : ℕ → List Op}

theorem start_lost (hl : Holds s l) (hfits : ¬s.Fits) : (selectStart s x rfds).phase = .lost := by
  have hnone : fdsetWatched s = none := Option.not_isSome_iff_eq_none.mp fun h => hfits (hl.watched.1.mp h)
  rw [selectStart, hnone]

theorem start_returned (hl : Holds s l) (hfits : s.Fits) (hx : x ≤ 0) :
    selectStart s x rfds = ⟨s, .zero, s.delCount, .returned x, []⟩ := by
  obtain ⟨w, hw⟩ := Option.isSome_iff_exists.mp (hl.watched.1.mpr hfits)
  rw [selectStart, hw]
  exact if_pos hx

theorem start_at (hl : Holds s l) (hfits : s.Fits) (hx : ¬x ≤ 0) :
    ∃ fn suf, AtNode s rfds.fds (selectStart s x rfds) l fn suf := by
  obtain ⟨w, hw⟩ := Option.isSome_iff_exists.mp (hl.watched.1.mpr hfits)
  have hrecords : Records s rfds.fds s rfds.fds [] := Records.start hl
  obtain ⟨fn, suf, hat⟩ : ∃ fn suf, AtNode s rfds.fds (Select.restart ⟨s, rfds, s.delCount, .lost, []⟩) l fn suf :=
    restart_at hl hrecords
  refine ⟨fn, suf, ?_⟩
  rw [selectStart, hw]
  dsimp only
  rw [if_neg hx]
  exact hat

theorem dispatches_of_not_fails (hl : Holds s l) (hops : ∀ k, ∀ op ∈ ops k, op.Outside rfds.fds) (hfits : s.Fits)
    (hfails : ∀ k, ¬Fails (run ops (selectStart s x rfds) k) (ops k)) : Dispatches s x rfds ops := by
  by_cases hx : x ≤ 0
  · refine ⟨0, ?_, ?_⟩
    · rw [run, start_returned hl hfits hx, if_pos hx]
    · rw [run, start_returned hl hfits hx, if_pos hx]
      exact ⟨fun p n _ hno => absurd hno (Finset.notMem_empty _), fun p n hno => absurd hno List.not_mem_nil⟩
  · obtain ⟨fn, suf, hat⟩ := start_at hl hfits hx
    obtain ⟨k, hend⟩ := run_ends hops hl hfails 0 hat
    refine ⟨k, ?_, ?_⟩
    · rw [if_neg hx, hend.phase]
    · rw [if_neg hx]
      exact hend.dispatched

theorem Dispatches.not_lost (h : Dispatches s x rfds ops) (j : ℕ) : (run ops (selectStart s x rfds) j).phase ≠ .lost := by
  obtain ⟨k, hreturned, -⟩ := h
  intro hlost
  rcases Nat.le_total k j with hle | hle
  · rw [run_of_end hle (Or.inl hreturned), hreturned] at hlost
    exact Phase.noConfusion hlost
  · rw [run_of_end (x := 0) hle (Or.inr hlost), hlost] at hreturned
    exact Phase.noConfusion hreturned

theorem Dispatches.fits (hl : Holds s l) (h : Dispatches s x rfds ops) : s.Fits := by
  by_contra hfits
  exact h.not_lost 0 (start_lost hl hfits)

theorem Dispatches.not_fails (hl : Holds s l) (hops : ∀ k, ∀ op ∈ ops k, op.Outside rfds.fds)
    (h : Dispatches s x rfds ops) (j : ℕ) : ¬Fails (run ops (selectStart s x rfds) j) (ops j) := by
  have hfits := h.fits hl
  by_cases hx : x ≤ 0
  · have hstart : (run ops (selectStart s x rfds) 0).phase = .returned x := by rw [run, start_returned hl hfits hx]
    rw [run_of_end (Nat.zero_le j) (Or.inl hstart)]
    exact not_fails_of_end hstart
  · obtain ⟨fn, suf, hat⟩ := start_at hl hfits hx
    intro hfail
    rcases run_place hops hl hat j with ⟨l', fn', suf', hat'⟩ | hend | hlost
    · rcases step_at (hops j) hl hat' with ⟨-, hlost⟩ | ⟨hno, -⟩
      · exact h.not_lost (j + 1) hlost
      · exact absurd hfail hno
    · exact absurd hfail (not_fails_of_end hend.phase)
    · exact h.not_lost j hlost

end Dispatches

/-- **PROVED**: for every list, every set of ready descriptors and all handlers, the loop ends, calls each ready
descriptor once or never after its removal, and follows no removed node, exactly when every registered descriptor has
a place in an `fd_set`, no handler slips, and the loop comes to no descriptor without a place. -/
theorem fdsetSelect_iff {s : Fdset} (hs : Reachable s) (x : ℤ) (rfds : FdSet) {ops : ℕ → List Op}
    (hops : ∀ k, ∀ op ∈ ops k, op.Outside rfds.fds) :
    (s.Fits ∧ ∀ k, ¬Slips (run ops (selectStart s x rfds) k) (ops k) ∧ ¬Strays (run ops (selectStart s x rfds) k)) ↔
      Dispatches s x rfds ops := by
  obtain ⟨l, hl⟩ := hs.holds
  constructor
  · rintro ⟨hfits, hround⟩
    exact dispatches_of_not_fails hl hops hfits fun k hfail => hfail.elim (hround k).1 (hround k).2
  · intro h
    exact ⟨h.fits hl, fun k => not_or.mp (h.not_fails hl hops k)⟩

/-! ### A handler that slips -/

theorem runOps_append (s : Fdset) (ops more : List Op) :
    runOps s (ops ++ more) = (runOps s ops).bind fun r => (runOps r.1 more).map fun rs => (rs.1, r.2 ++ rs.2) := by
  induction ops generalizing s with
  | nil => simp [runOps]
  | cons op ops ih =>
    rw [List.cons_append, runOps, runOps, Option.bind_assoc]
    congr 1
    funext r
    rw [ih, Option.map_bind, Option.bind_map]
    congr 1
    funext r'
    simp [Option.map_map, Function.comp_def]

theorem Holds.add_del {s : Fdset} {l : List Ptr} (h : Holds s l) {n : FdsetNode} (hfd : 0 ≤ n.fd)
    (hhandler : n.handler ≠ 0) (hnew : ∀ p n', s.nodes p = some n' → n'.fd ≠ n.fd) (k : ℕ) :
    ∃ s' gone, runOps s (List.replicate k [Op.add n true, Op.del n.fd]).flatten = some (s', gone) ∧ Holds s' l ∧
      s'.nodes = s.nodes ∧ gone.length = k := by
  induction k generalizing s with
  | zero => exact ⟨s, [], rfl, h, rfl, rfl⟩
  | succ k ih =>
    obtain ⟨s₁, hs₁, hl₁, hfree, hnodes₁, -, -⟩ := h.add_new hfd hhandler hnew
    have hthere : s₁.nodes (.node s.fresh) = some n := by rw [hnodes₁, Function.update_self]
    obtain ⟨s₂, pre, suf, hsplit, hs₂, hl₂, hnodes₂, -, -⟩ := hl₁.del_there hthere
    have hnodes : s₂.nodes = s.nodes := by
      rw [hnodes₂, hnodes₁, Function.update_idem, ← hfree, Function.update_eq_self]
    have hlist : pre ++ suf = l := by
      have hnodup := (List.nodup_append.mp (List.nodup_cons.mp hl₁.linked.nodup).2).1
      have hl : Ptr.node s.fresh ∉ l := fun hno => (List.nodup_append.mp hnodup).2.2 _ hno _ (by simp) rfl
      have hpre : Ptr.node s.fresh ∉ pre := fun hno =>
        (List.nodup_append.mp (hsplit ▸ hnodup)).2.2 _ hno _ List.mem_cons_self rfl
      have herase := congrArg (List.erase · (Ptr.node s.fresh)) hsplit
      simpa [List.erase_append_right _ hl, List.erase_append_right _ hpre] using herase.symm
    rw [hlist] at hl₂
    obtain ⟨s', gone, hrun, hl', hnodes', hlength⟩ := ih hl₂ (hnodes ▸ hnew)
    refine ⟨s', Ptr.node s.fresh :: gone, ?_, hl', hnodes'.trans hnodes, congrArg (· + 1) hlength⟩
    rw [List.replicate_succ, List.flatten_cons, runOps_append, runOps, runOp, hs₁, Option.map_some, Option.bind_some,
      runOps, hs₂, Option.bind_some, runOps, Option.map_some, Option.map_some, Option.bind_some, hrun, Option.map_some]
    rfl

/-- One descriptor, 3, with the handler at address 1. -/
def lone : Fdset := ((runOp fdsetInit (.add ⟨3, 1, 0⟩ true)).map Prod.fst).getD fdsetInit

theorem lone_holds : Reachable lone ∧ Holds lone [.node 0] ∧
    lone.nodes = Function.update (fun _ => none) (.node 0) (some ⟨3, 1, 0⟩) := by
  obtain ⟨s', hs', hl', -, hnodes, -⟩ := Holds.init.add_new (n := ⟨3, 1, 0⟩) (by decide) (by decide)
    (fun p n' hp => absurd hp (Option.some_ne_none n').symm)
  have hrun : runOp fdsetInit (.add ⟨3, 1, 0⟩ true) = some (s', []) := by
    rw [runOp, hs', Option.map_some]
  have hlone : lone = s' := by rw [lone, hrun]; rfl
  rw [hlone]
  exact ⟨Reachable.init.op hrun, hl', hnodes⟩

/-- **In every list that a program comes to**, `select` is asked for the descriptors that are registered, exactly if each
has a place in an `fd_set`. -/
theorem Reachable.select_watches {s : Fdset} (h : Reachable s) : ((fdsetWatched s).isSome = true ↔ s.Fits) ∧
    ∀ rfds max, fdsetWatched s = some (rfds, max) →
      ∀ fd, (fd ∈ rfds.fds ↔ ∃ p n, s.nodes p = some n ∧ n.fd = fd) ∧ (fd ∈ rfds.fds → fd < max) := by
  obtain ⟨l, hl⟩ := h.holds
  exact hl.watched

theorem lone_fits : lone.Fits := by
  intro p n hp
  rw [lone_holds.2.2, Function.update_apply] at hp
  split at hp
  · rw [← Option.some.inj hp]
    decide
  · exact absurd hp (Option.some_ne_none n).symm

theorem Reachable.select_watches_lone : ∃ rfds max, fdsetWatched lone = some (rfds, max) ∧ 3 ∈ rfds.fds ∧ 3 < max := by
  obtain ⟨hsome, hwatched⟩ := Reachable.select_watches lone_holds.1
  obtain ⟨⟨rfds, max⟩, hw⟩ := Option.isSome_iff_exists.mp (hsome.mpr lone_fits)
  obtain ⟨hin, hlt⟩ := hwatched rfds max hw 3
  have hmem := hin.mpr ⟨.node 0, ⟨3, 1, 0⟩, by rw [lone_holds.2.2, Function.update_self], rfl⟩
  exact ⟨rfds, max, hw, hmem, hlt hmem⟩

/-- Descriptor 3 is ready. -/
def three : FdSet := ⟨{3}, fun fd h => by rw [Finset.mem_singleton.mp h]; decide⟩

/-- A handler that removes its own descriptor is called once. -/
theorem fdsetSelect_lone : (lone.Fits ∧ ∀ k, ¬Slips (run (fun _ => [.del 3]) (selectStart lone 1 three) k) [.del 3] ∧
      ¬Strays (run (fun _ => [.del 3]) (selectStart lone 1 three) k)) ↔ Dispatches lone 1 three fun _ => [.del 3] :=
  fdsetSelect_iff lone_holds.1 1 three fun _ op hop => by
    rw [List.mem_singleton.mp hop]
    trivial

/-- It adds and removes another descriptor `k` times, and then removes its own. -/
def comeAndGo (k : ℕ) : List Op := (List.replicate k [Op.add ⟨4, 1, 0⟩ true, Op.del 4]).flatten ++ [Op.del 3]

theorem comeAndGo_outside (k : ℕ) : ∀ op ∈ comeAndGo k, op.Outside {3} := by
  intro op hop
  simp only [comeAndGo, List.mem_append, List.mem_flatten, List.mem_replicate] at hop
  rcases hop with ⟨ops, ⟨-, rfl⟩, hop⟩ | hop
  · fin_cases hop
    · simp [Op.Outside]
    · trivial
  · rw [List.mem_singleton.mp hop]
    trivial

theorem comeAndGo_slips {k : ℕ} (hk : 2 ^ 32 ∣ k + 1) : Slips (selectStart lone 1 three) (comeAndGo k) := by
  obtain ⟨-, hl, hnodes⟩ := lone_holds
  have hnew : ∀ p n', lone.nodes p = some n' → n'.fd ≠ 4 := fun p n' hp => by
    rw [hnodes, Function.update_apply] at hp
    split at hp
    · rw [← Option.some.inj hp]
      decide
    · exact absurd hp (Option.some_ne_none n').symm
  obtain ⟨s₁, gone, hrun, hl₁, hnodes₁, hlength⟩ :=
    hl.add_del (n := ⟨4, 1, 0⟩) (by decide) (by decide) hnew k
  have hthere : s₁.nodes (.node 0) = some ⟨3, 1, 0⟩ := by rw [hnodes₁, hnodes, Function.update_self]
  obtain ⟨s₂, pre, suf, -, hs₂, -⟩ := hl₁.del_there hthere
  have hstart : selectStart lone 1 three = Select.restart ⟨lone, three, lone.delCount, .lost, []⟩ := by
    obtain ⟨w, hw⟩ := Option.isSome_iff_exists.mp (hl.watched.1.mpr lone_fits)
    rw [selectStart, hw]
    rfl
  have hfirst : lone.links.next .front = some (.node 0) := hl.linked.first
  refine ⟨.node 0, ⟨3, 1, 0⟩, s₂, gone ++ [.node 0], ?_, ?_, ?_, ?_, by simp, ?_⟩
  · rw [hstart, Select.restart]
    simp only [hfirst, Phase.follow]
  · rw [hstart, Select.restart, hnodes, Function.update_self]
  · rw [hstart, Select.restart]
    exact Finset.mem_singleton_self 3
  · have hfds : (selectStart lone 1 three).fds = lone := by rw [hstart]; rfl
    rw [hfds, comeAndGo, runOps_append, hrun, Option.bind_some, runOps, hs₂, Option.bind_some, runOps, Option.map_some,
      Option.map_some]
    rfl
  · rw [List.length_append, hlength]
    exact hk

/-- The loop then follows the node that is gone. -/
theorem not_fdsetSelect_comeAndGo : Reachable lone ∧ (∀ op ∈ comeAndGo (2 ^ 32 - 1), op.Outside {3}) ∧
    ¬Dispatches lone 1 three fun _ => comeAndGo (2 ^ 32 - 1) :=
  ⟨lone_holds.1, comeAndGo_outside _, fun h =>
    h.not_fails lone_holds.2.1 (fun _ => comeAndGo_outside _) 0 (Or.inl (comeAndGo_slips (dvd_refl _)))⟩

end BgtDvb.Alevt
