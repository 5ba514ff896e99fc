import Mathlib

/-!
# Walks around a cycle of places

A walk goes from place to place; some places have an item.  It offers the items as it meets them, ends with the first
that is taken, and ends with nothing when it meets the first item again.

* `walk_tour` — **PROVED**: if the places are passed twice, the walk offers the items of one round.

Steps may need fuel of their own: `eventually_tour` finds enough for all places of a tour at once.
-/

namespace BgtDvb.CyclicWalk

variable {α β : Type*} [DecidableEq β]

/-- From place `x`, with the first item that was met and the items offered so far. -/
def walk (next : α → Option α) (item : α → Option β) (func : List β → β → Bool) :
    ℕ → α → Option β → List β → Option (Option β × List β)
  | 0, _, _, _ => none
  | fuel + 1, x, start, offered =>
    (next x).bind fun y =>
      match item y with
      | none => walk next item func fuel y start offered
      | some b =>
        if start = some b then some (none, offered)
        else if func offered b then some (some b, offered ++ [b])
        else walk next item func fuel y (start.or (some b)) (offered ++ [b])

/-- The items of a list, one after another, up to the first that is taken. -/
def offer (func : List β → β → Bool) : List β → List β → Option β × List β
  | [], offered => (none, offered)
  | b :: bs, offered => if func offered b then (some b, offered ++ [b]) else offer func bs (offered ++ [b])

/-- The places in the order in which they are reached from `x`. -/
def Tour (next : α → Option α) (x : α) (places : List α) : Prop :=
  (x :: places).IsChain fun a b => next a = some b

omit [DecidableEq β] in
theorem eventually_tour {next : ℕ → α → Option α}
    (h : (x :: places).IsChain fun a b => ∃ n, ∀ m, n ≤ m → next m a = some b) :
    ∃ n, ∀ m, n ≤ m → Tour (next m) x places := by
  induction places generalizing x with
  | nil => exact ⟨0, fun m _ => List.isChain_singleton x⟩
  | cons y places ih =>
    obtain ⟨⟨n, hn⟩, hrest⟩ := List.isChain_cons_cons.mp h
    obtain ⟨n', hn'⟩ := ih hrest
    exact ⟨max n n', fun m hm => List.isChain_cons_cons.mpr
      ⟨hn m (le_of_max_le_left hm), hn' m (le_of_max_le_right hm)⟩⟩

section Walk

variable {next : α → Option α} {item : α → Option β} {func : List β → β → Bool}

theorem walk_skip {offered : List β} (hnext : next x = some y) (hitem : item y = none) :
    walk next item func (fuel + 1) x start offered = walk next item func fuel y start offered := by
  rw [walk, hnext, Option.bind_some, hitem]

theorem walk_item {offered : List β} (hnext : next x = some y) (hitem : item y = some b) :
    walk next item func (fuel + 1) x start offered =
      if start = some b then some (none, offered)
      else if func offered b then some (some b, offered ++ [b])
      else walk next item func fuel y (start.or (some b)) (offered ++ [b]) := by
  rw [walk, hnext, Option.bind_some, hitem]

theorem walk_offered {offered : List β} (hwalk : walk next item func fuel x start offered = some r) (hb : b ∈ r.2) :
    b ∈ offered ∨ ∃ y, item y = some b := by
  induction fuel generalizing x start offered with
  | zero => exact absurd hwalk (by simp [walk])
  | succ fuel ih =>
    rw [walk] at hwalk
    obtain ⟨y, hnext, hwalk⟩ := Option.bind_eq_some_iff.mp hwalk
    cases hitem : item y with
    | none =>
      rw [hitem] at hwalk
      exact ih hwalk
    | some c =>
      have hnew : b ∈ offered ++ [c] → b ∈ offered ∨ ∃ y, item y = some b := fun hmem => by
        rcases List.mem_append.mp hmem with hmem | hmem
        · exact Or.inl hmem
        · obtain rfl := List.mem_singleton.mp hmem
          exact Or.inr ⟨y, hitem⟩
      rw [hitem] at hwalk
      dsimp only at hwalk
      split at hwalk
      · obtain rfl := Option.some.inj hwalk
        exact Or.inl hb
      · split at hwalk
        · obtain rfl := Option.some.inj hwalk
          exact hnew hb
        · rcases ih hwalk with hmem | hplace
          · exact hnew hmem
          · exact Or.inr hplace

theorem walk_from {first : β} {rest offered : List β} (htour : Tour next x places)
    (hitems : places.filterMap item = rest ++ first :: again) (hnew : first ∉ rest) (hfuel : places.length ≤ fuel) :
    walk next item func fuel x (some first) offered = some (offer func rest offered) := by
  induction places generalizing x fuel rest offered with
  | nil => exact absurd hitems (by simp)
  | cons y places ih =>
    obtain ⟨hnext, htour⟩ := List.isChain_cons_cons.mp htour
    obtain ⟨fuel, rfl⟩ : ∃ k, fuel = k + 1 := ⟨fuel - 1, by simp only [List.length_cons] at hfuel; omega⟩
    have hfuel' : places.length ≤ fuel := by simpa using hfuel
    cases hitem : item y with
    | none =>
      rw [walk_skip hnext hitem]
      rw [List.filterMap_cons_none hitem] at hitems
      exact ih htour hitems hnew hfuel'
    | some b =>
      rw [walk_item hnext hitem]
      rw [List.filterMap_cons_some hitem] at hitems
      cases rest with
      | nil =>
        obtain ⟨rfl, -⟩ := List.cons.inj hitems
        rw [if_pos rfl]
        rfl
      | cons c rest =>
        obtain ⟨rfl, hrest⟩ := List.cons.inj hitems
        have hne : some first ≠ some b := fun hno => hnew (Option.some.inj hno ▸ List.mem_cons_self)
        rw [if_neg hne, offer]
        split
        · rfl
        · exact ih htour hrest (fun hno => hnew (List.mem_cons_of_mem _ hno)) hfuel'

/-- **PROVED**: a walk that passes its places twice offers the items of one round, in order. -/
theorem walk_tour {items offered : List β} (htour : Tour next x places)
    (hitems : places.filterMap item = items ++ again) (hagain : again.head? = items.head?) (hsome : items ≠ [])
    (hnodup : items.Nodup) (hfuel : places.length ≤ fuel) :
    walk next item func fuel x none offered = some (offer func items offered) := by
  induction places generalizing x fuel with
  | nil =>
    rw [List.filterMap_nil] at hitems
    exact absurd (List.append_eq_nil_iff.mp hitems.symm).1 hsome
  | cons y places ih =>
    obtain ⟨hnext, htour⟩ := List.isChain_cons_cons.mp htour
    obtain ⟨fuel, rfl⟩ : ∃ k, fuel = k + 1 := ⟨fuel - 1, by simp only [List.length_cons] at hfuel; omega⟩
    have hfuel' : places.length ≤ fuel := by simpa using hfuel
    cases hitem : item y with
    | none =>
      rw [walk_skip hnext hitem]
      rw [List.filterMap_cons_none hitem] at hitems
      exact ih htour hitems hfuel'
    | some b =>
      rw [walk_item hnext hitem]
      rw [List.filterMap_cons_some hitem] at hitems
      obtain ⟨c, rest, rfl⟩ := List.exists_cons_of_ne_nil hsome
      obtain ⟨rfl, hrest⟩ := List.cons.inj hitems
      obtain ⟨again, rfl⟩ : ∃ t, again = b :: t := by
        cases again with
        | nil => exact absurd hagain (by simp)
        | cons c again =>
          rw [List.head?_cons, List.head?_cons] at hagain
          exact ⟨again, congrArg (· :: again) (Option.some.inj hagain)⟩
      rw [if_neg (Option.some_ne_none b).symm, offer]
      split
      · rfl
      · exact walk_from htour hrest (List.nodup_cons.mp hnodup).1 hfuel'

end Walk

end BgtDvb.CyclicWalk
