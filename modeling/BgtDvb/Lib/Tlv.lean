import Mathlib

/-!
# Items that carry their length

A block of bytes is a sequence of items, each a tag, a length byte and as many bytes as it says.

* `split` — a block as its items, if its last item ends with the block;
* `split_flatten` — **PROVED**: items written one after another are split again;
* `split_eq_some` — **PROVED**: what a block is split into are items, and they make up the block;
* `filter_flatten_length` — **PROVED**: some of the items take no more room than all of them.

Nothing here names a particular set of tags.
-/

namespace BgtDvb.Tlv

/-- A tag, a length and that many bytes. -/
def IsItem (item : List UInt8) : Prop :=
  ∃ tag len payload, item = tag :: len :: payload ∧ payload.length = len.toNat

theorem IsItem.two_le {item : List UInt8} (h : IsItem item) : 2 ≤ item.length := by
  obtain ⟨tag, len, payload, rfl, -⟩ := h
  simp

/-- The items of a block, with fuel for as many items as it may have. -/
def splitFuel : ℕ → List UInt8 → Option (List (List UInt8))
  | _, [] => some []
  | fuel + 1, tag :: len :: rest =>
    if rest.length < len.toNat then none
    else (splitFuel fuel (rest.drop len.toNat)).map ((tag :: len :: rest.take len.toNat) :: ·)
  | _, _ => none

def split (block : List UInt8) : Option (List (List UInt8)) := splitFuel block.length block

variable {fuel : ℕ} {items : List (List UInt8)}

theorem splitFuel_cons {item : List UInt8} (h : IsItem item) (block : List UInt8) :
    splitFuel (fuel + 1) (item ++ block) = (splitFuel fuel block).map (item :: ·) := by
  obtain ⟨tag, len, payload, rfl, hlen⟩ := h
  rw [List.cons_append, List.cons_append, splitFuel, if_neg (by rw [List.length_append]; omega), ← hlen,
    List.take_left, List.drop_left]

theorem splitFuel_flatten (h : ∀ item ∈ items, IsItem item) (hfuel : items.flatten.length ≤ fuel) :
    splitFuel fuel items.flatten = some items := by
  induction items generalizing fuel with
  | nil => cases fuel <;> rfl
  | cons item items ih =>
    have hitem := h item List.mem_cons_self
    have htwo := hitem.two_le
    rw [List.flatten_cons, List.length_append] at hfuel
    cases fuel with
    | zero => omega
    | succ fuel =>
      rw [List.flatten_cons, splitFuel_cons hitem,
        ih (fun i hi => h i (List.mem_cons_of_mem item hi)) (by omega)]
      rfl

/-- **Items written one after another are split again.** -/
theorem split_flatten (h : ∀ item ∈ items, IsItem item) : split items.flatten = some items :=
  splitFuel_flatten h le_rfl

theorem splitFuel_eq_some {block : List UInt8} (h : splitFuel fuel block = some items) :
    (∀ item ∈ items, IsItem item) ∧ items.flatten = block := by
  induction fuel generalizing block items with
  | zero =>
    match block, h with
    | [], h =>
      obtain rfl := Option.some.inj h
      exact ⟨fun _ hmem => absurd hmem List.not_mem_nil, rfl⟩
    | _ :: _, h => exact absurd h (by simp [splitFuel])
  | succ fuel ih =>
    match block, h with
    | [], h =>
      obtain rfl := Option.some.inj h
      exact ⟨fun _ hmem => absurd hmem List.not_mem_nil, rfl⟩
    | [_], h => exact absurd h (by simp [splitFuel])
    | tag :: len :: rest, h =>
      rw [splitFuel] at h
      split at h
      · exact absurd h (by simp)
      next hroom =>
        obtain ⟨tail, htail, rfl⟩ := Option.map_eq_some_iff.mp h
        obtain ⟨hitems, hflat⟩ := ih htail
        constructor
        · intro item hitem
          rcases List.mem_cons.mp hitem with rfl | hitem
          · exact ⟨tag, len, rest.take len.toNat, rfl, by rw [List.length_take]; omega⟩
          · exact hitems item hitem
        · rw [List.flatten_cons, hflat, List.cons_append, List.cons_append, List.take_append_drop]

/-- **What a block is split into.** -/
theorem split_eq_some {block : List UInt8} (h : split block = some items) :
    (∀ item ∈ items, IsItem item) ∧ items.flatten = block :=
  splitFuel_eq_some h

theorem filter_flatten_length (p : List UInt8 → Bool) (items : List (List UInt8)) :
    (items.filter p).flatten.length ≤ items.flatten.length := by
  induction items with
  | nil => exact le_rfl
  | cons item items ih =>
    rw [List.filter_cons]
    split
    · rw [List.flatten_cons, List.flatten_cons, List.length_append, List.length_append]
      omega
    · rw [List.flatten_cons, List.length_append]
      omega

end BgtDvb.Tlv
