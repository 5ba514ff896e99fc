import Mathlib

/-!
# Collecting numbered items

Items with numbers come in any order and perhaps again and again.  They are put in the order of their numbers, and a word
marks which numbers have come.

* `Sorted`, `Sorted.insert` — **PROVED**: a number that is new leaves the numbers in order and different;
* `Marks`, `Marks.insert` — **PROVED**: the word with the bit of the number marks the new items;
* `Marks.full_iff` — **PROVED**: the word has all its bits exactly if every number has come.

Nothing here names what is collected.
-/

namespace BgtDvb.Collected

variable {α : Type} {key : α → ℕ} {l : List α} {x y : α} {mask k : ℕ}

/-- In front of the first item with a larger number. -/
def insert (key : α → ℕ) (l : List α) (x : α) : List α :=
  l.take (l.findIdx fun y => key x < key y) ++ x :: l.drop (l.findIdx fun y => key x < key y)

theorem insert_cons : insert key (y :: l) x = if key x < key y then x :: y :: l else y :: insert key l x := by
  unfold insert
  rw [List.findIdx_cons]
  by_cases h : key x < key y
  · rw [if_pos h, decide_eq_true h]
    rfl
  · rw [if_neg h, decide_eq_false h]
    rfl

theorem mem_insert : y ∈ insert key l x ↔ y = x ∨ y ∈ l := by
  unfold insert
  rw [List.mem_append, List.mem_cons, or_left_comm, ← List.mem_append, List.take_append_drop]

theorem insert_ne_nil : insert key l x ≠ [] := List.append_ne_nil_of_right_ne_nil _ (List.cons_ne_nil _ _)

/-- The numbers get larger from item to item. -/
def Sorted (key : α → ℕ) (l : List α) : Prop := l.Pairwise fun x y => key x < key y

theorem Sorted.insert (h : Sorted key l) (hnew : ∀ y ∈ l, key y ≠ key x) : Sorted key (insert key l x) := by
  induction l with
  | nil => exact List.pairwise_singleton _ _
  | cons y l ih =>
    obtain ⟨hy, hl⟩ := List.pairwise_cons.mp h
    obtain ⟨hyx, hnew⟩ := List.forall_mem_cons.mp hnew
    rw [insert_cons]
    by_cases hlt : key x < key y
    · rw [if_pos hlt]
      exact List.pairwise_cons.mpr ⟨List.forall_mem_cons.mpr ⟨hlt, fun z hz => hlt.trans (hy z hz)⟩, h⟩
    · rw [if_neg hlt]
      refine List.pairwise_cons.mpr ⟨fun z hz => ?_, ih hl hnew⟩
      rcases mem_insert.mp hz with rfl | hz
      · omega
      · exact hy z hz

/-- The bits of the word are the numbers of the items. -/
def Marks (key : α → ℕ) (mask : ℕ) (l : List α) : Prop := ∀ j, mask.testBit j = true ↔ ∃ x ∈ l, key x = j

theorem marks_nil : Marks key 0 [] := fun j => by simp

theorem Marks.insert (h : Marks key mask l) : Marks key (mask ||| 2 ^ key x) (insert key l x) := by
  intro j
  rw [Nat.testBit_or, Nat.testBit_two_pow, Bool.or_eq_true, decide_eq_true_iff, h j]
  constructor
  · rintro (⟨y, hy, hj⟩ | hj)
    · exact ⟨y, mem_insert.mpr (.inr hy), hj⟩
    · exact ⟨x, mem_insert.mpr (.inl rfl), hj⟩
  · rintro ⟨y, hy, hj⟩
    rcases mem_insert.mp hy with rfl | hy
    · exact .inr hj
    · exact .inl ⟨y, hy, hj⟩

theorem Marks.new (h : Marks key mask l) (hbit : mask.testBit (key x) = false) : ∀ y ∈ l, key y ≠ key x := by
  intro y hy heq
  rw [(h (key x)).mpr ⟨y, hy, heq⟩] at hbit
  cases hbit

/-- **All bits are set exactly if every number has come.** -/
theorem Marks.full_iff (h : Marks key mask l) (hsorted : Sorted key l) :
    mask = 2 ^ k - 1 ↔ l.map key = List.range k := by
  have hmem : ∀ j, mask.testBit j = true ↔ j ∈ l.map key := fun j => (h j).trans List.mem_map.symm
  constructor
  · intro hmask
    have hperm : (l.map key).Perm (List.range k) := by
      have hnodup : (l.map key).Nodup :=
        (List.pairwise_map.mpr hsorted).imp fun hxy => ne_of_lt hxy
      refine (List.perm_ext_iff_of_nodup hnodup List.nodup_range).mpr fun j => ?_
      rw [← hmem, hmask, Nat.testBit_two_pow_sub_one, decide_eq_true_iff, List.mem_range]
    refine hperm.eq_of_pairwise ?_ (List.pairwise_map.mpr hsorted) List.pairwise_lt_range
    exact fun i j _ _ hij hji => absurd hij (lt_asymm hji)
  · intro hrange
    refine Nat.eq_of_testBit_eq fun j => ?_
    rw [Bool.eq_iff_iff, hmem, hrange, List.mem_range, Nat.testBit_two_pow_sub_one, decide_eq_true_iff]

end BgtDvb.Collected
