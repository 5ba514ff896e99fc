import BgtDvb.AlevtCache
import BgtDvb.Lib.CyclicWalk

/-!
# The walk over the page cache of alevt

`cache_foreach_pg`: from a page and subpage number on, in either direction, through the numbers that may be cached and
round the end, until the callback takes a page or the first page comes again.

* `foreachLoop_eq_walk` — **PROVED**: the loop is a walk round a cycle of places;
* `places_tour` — **PROVED**: the order in which the loop comes to the places;
* `foreachPg_iff` — **PROVED**: then, and only then, the walk offers all pages in order.
-/

namespace BgtDvb.Alevt

open BgtDvb.CyclicWalk

/-- `hi_subno[pgno]` -/
def Cache.hiAt (ca : Cache) (pgno : ℤ) : Option ℤ :=
  if h : 0 ≤ pgno ∧ pgno < 0xa00 then some (ca.hiSubno ⟨pgno.toNat, by omega⟩).toNat else none

def turn (dir pgno : ℤ) : ℤ :=
  let pgno := pgno + dir
  let pgno := if pgno < 0x100 then 0x9ff else pgno
  if pgno > 0x9ff then 0x100 else pgno

def skip (ca : Cache) (dir : ℤ) : ℕ → ℤ → ℤ → Option (ℤ × ℤ)
  | 0, _, _ => none
  | fuel + 1, pgno, subno =>
    (if subno < 0 then some true else (ca.hiAt pgno).map fun hi => decide (subno ≥ hi)).bind fun out =>
      if out then
        (if dir < 0 then (ca.hiAt (turn dir pgno)).map (· - 1) else some 0).bind fun subno =>
          skip ca dir fuel (turn dir pgno) subno
      else some (pgno, subno)

/-- The outer loop, with the pages offered so far; `turns` bounds each inner loop. -/
def foreachLoop (ca : Cache) (dir : ℤ) (func : List VtPage → VtPage → Bool) (turns : ℕ) :
    ℕ → ℤ → ℤ → Option VtPage → List VtPage → Option (Option VtPage × List VtPage)
  | 0, _, _, _, _ => none
  | fuel + 1, pgno, subno, sVtp, offered =>
    (skip ca dir turns pgno (subno + dir)).bind fun place =>
      match cacheLookup ca place.1.toNat place.2 with
      | none => foreachLoop ca dir func turns fuel place.1 place.2 sVtp offered
      | some vtp =>
        if sVtp = some vtp then some (none, offered)
        else
          let sVtp := if sVtp = none then some vtp else sVtp
          if func offered vtp then some (some vtp, offered ++ [vtp])
          else foreachLoop ca dir func turns fuel place.1 place.2 sVtp (offered ++ [vtp])

def startSubno (ca : Cache) (pgno : ℕ) (subno dir : ℤ) : ℤ :=
  match cacheLookup ca pgno subno with
  | some vtp => vtp.subno
  | none => if subno = anySub then (if dir < 0 then 0 else 0xffff) else subno

/-- `cache_foreach_pg`; what the callback says may depend on the pages it was offered before. -/
def foreachPg (ca : Cache) (fuel : ℕ) (pgno : ℕ) (subno dir : ℤ) (func : List VtPage → VtPage → Bool) :
    Option (Option VtPage × List VtPage) :=
  if ca.npages = 0 then some (none, [])
  else foreachLoop ca dir func fuel fuel pgno (startSubno ca pgno subno dir) none []

def itemAt (ca : Cache) (x : ℤ × ℤ) : Option VtPage := cacheLookup ca x.1.toNat x.2

def nextPlace (ca : Cache) (dir : ℤ) (turns : ℕ) (x : ℤ × ℤ) : Option (ℤ × ℤ) := skip ca dir turns x.1 (x.2 + dir)

theorem foreachLoop_eq_walk (ca : Cache) (dir : ℤ) (func : List VtPage → VtPage → Bool) (turns fuel : ℕ) (x : ℤ × ℤ)
    (sVtp : Option VtPage) (offered : List VtPage) : foreachLoop ca dir func turns fuel x.1 x.2 sVtp offered
      = walk (nextPlace ca dir turns) (itemAt ca) func fuel x sVtp offered := by
  induction fuel generalizing x sVtp offered with
  | zero => rfl
  | succ fuel ih =>
    rw [foreachLoop, walk]
    refine congrArg (Option.bind (skip ca dir turns x.1 (x.2 + dir))) (funext fun y => ?_)
    have hitem : cacheLookup ca y.1.toNat y.2 = itemAt ca y := rfl
    rw [hitem]
    cases itemAt ca y with
    | none => exact ih y sVtp offered
    | some vtp =>
      have hstart : (if sVtp = none then some vtp else sVtp) = sVtp.or (some vtp) := by
        cases sVtp <;> simp
      simp only [hstart, ih]

/-! ### Places -/

/-- The number kept for a page number, 0 where there is none. -/
def Cache.hi (ca : Cache) (pgno : ℤ) : ℤ := (ca.hiAt pgno).getD 0

/-- `n` subpage numbers of a page number, from `s` on. -/
def part (dir p s : ℤ) (n : ℕ) : List (ℤ × ℤ) := (List.range n).map fun i : ℕ => (p, s + (i : ℤ) * dir)

def entry (ca : Cache) (dir p : ℤ) : ℤ := if dir < 0 then ca.hi p - 1 else 0

def block (ca : Cache) (dir p : ℤ) : List (ℤ × ℤ) := part dir p (entry ca dir p) (ca.hi p).toNat

def ring (i : ℤ) : ℤ := 0x100 + i % 0x900

section Places

variable {ca : Cache} {dir : ℤ}

theorem hi_nonneg (ca : Cache) (p : ℤ) : 0 ≤ ca.hi p := by
  unfold Cache.hi Cache.hiAt
  split
  · exact Int.natCast_nonneg _
  · exact le_refl _

theorem hiAt_eq (hlow : 0 ≤ p) (hhigh : p < 0xa00) : ca.hiAt p = some (ca.hi p) := by
  unfold Cache.hi Cache.hiAt
  rw [dif_pos ⟨hlow, hhigh⟩]
  rfl

theorem turn_ring (hdir : dir = 1 ∨ dir = -1) (i : ℤ) : turn dir (ring i) = ring (i + dir) := by
  unfold turn ring
  rcases hdir with rfl | rfl <;> dsimp only <;> split <;> split <;> omega

theorem turn_bounds (dir p : ℤ) : 0x100 ≤ turn dir p ∧ turn dir p ≤ 0x9ff := by
  unfold turn
  dsimp only
  split <;> split <;> omega

def Valid (ca : Cache) (x : ℤ × ℤ) : Prop := 0 ≤ x.2 ∧ x.2 < ca.hi x.1

theorem mem_block (hdir : dir = 1 ∨ dir = -1) {p : ℤ} {x : ℤ × ℤ} : x ∈ block ca dir p ↔ x.1 = p ∧ Valid ca x := by
  have hhi := hi_nonneg ca p
  obtain ⟨q, s⟩ := x
  simp only [block, part, List.mem_map, List.mem_range, Prod.mk.injEq, Valid]
  constructor
  · rintro ⟨i, hi, rfl, rfl⟩
    unfold entry
    rcases hdir with rfl | rfl
    · rw [if_neg (by decide)]
      omega
    · rw [if_pos (by decide)]
      omega
  · rintro ⟨rfl, hge, hlt⟩
    unfold entry
    rcases hdir with rfl | rfl
    · rw [if_neg (by decide)]
      exact ⟨s.toNat, by omega, rfl, by omega⟩
    · rw [if_pos (by decide)]
      exact ⟨(ca.hi q - 1 - s).toNat, by omega, rfl, by omega⟩

theorem part_append (p s : ℤ) (m n : ℕ) : part dir p s (m + n) = part dir p s m ++ part dir p (s + m * dir) n := by
  simp only [part, List.range_add, List.map_append, List.map_map]
  congr 1
  refine List.map_congr_left fun i _ => Prod.ext rfl ?_
  simp only [Function.comp_apply]
  push_cast
  ring

theorem part_succ (p s : ℤ) (n : ℕ) : part dir p s (n + 1) = (p, s) :: part dir p (s + dir) n := by
  simp only [part, List.range_succ_eq_map, List.map_cons, List.map_map]
  refine List.cons_eq_cons.mpr ⟨Prod.ext rfl (by simp), List.map_congr_left fun i _ => Prod.ext rfl ?_⟩
  simp only [Function.comp_apply]
  push_cast
  ring

/-! ### From place to place -/

/-- The loop goes from one place to the other, if the inner loop may take enough turns. -/
def Steps (ca : Cache) (dir : ℤ) (x y : ℤ × ℤ) : Prop := ∃ n, ∀ m, n ≤ m → nextPlace ca dir m x = some y

/-- From beyond the places of a page number, the inner loop comes to a place. -/
def Leads (ca : Cache) (dir p : ℤ) (y : ℤ × ℤ) : Prop :=
  ∃ n, ∀ m, n ≤ m → ∀ s, s < 0 ∨ ca.hi p ≤ s → skip ca dir m p s = some y

theorem skip_valid {s : ℤ} (hlow : 0 ≤ p) (hhigh : p < 0xa00) (hvalid : Valid ca (p, s)) (m : ℕ) :
    skip ca dir (m + 1) p s = some (p, s) := by
  have hout : ¬ca.hi p ≤ s := not_le.mpr hvalid.2
  rw [skip, if_neg (not_lt.mpr hvalid.1), hiAt_eq hlow hhigh]
  simp [hout]

theorem skip_out {s : ℤ} (hlow : 0 ≤ p) (hhigh : p < 0xa00) (hout : s < 0 ∨ ca.hi p ≤ s) (m : ℕ) :
    skip ca dir (m + 1) p s = skip ca dir m (turn dir p) (entry ca dir (turn dir p)) := by
  have hbounds := turn_bounds dir p
  have htest : (if s < 0 then some true else (ca.hiAt p).map fun hi => decide (s ≥ hi)) = some true := by
    rw [hiAt_eq hlow hhigh]
    rcases hout with hneg | hge
    · rw [if_pos hneg]
    · simp [hge]
  have hentry : (if dir < 0 then (ca.hiAt (turn dir p)).map (· - 1) else some 0) = some (entry ca dir (turn dir p)) := by
    rw [hiAt_eq (by omega) (by omega), entry]
    split <;> rfl
  rw [skip, htest, Option.bind_some, if_pos rfl, hentry, Option.bind_some]

def Turns (dir p : ℤ) (pages : List ℤ) : Prop := (p :: pages).IsChain fun a b => b = turn dir a

theorem leads_pages (hlow : 0 ≤ p) (hhigh : p < 0xa00) {pages : List ℤ} (hturns : Turns dir p pages) {y : ℤ × ℤ}
    (hy : (pages.flatMap (block ca dir)).head? = some y) : Leads ca dir p y := by
  induction pages generalizing p with
  | nil => exact absurd hy (by simp)
  | cons q pages ih =>
    obtain ⟨rfl, hrest⟩ := List.isChain_cons_cons.mp hturns
    have hbounds := turn_bounds dir p
    have hhi := hi_nonneg ca (turn dir p)
    rw [List.flatMap_cons] at hy
    rcases hhi.eq_or_lt with hzero | hpos
    · have hempty : block ca dir (turn dir p) = [] := by
        rw [block, ← hzero]
        rfl
      rw [hempty, List.nil_append] at hy
      obtain ⟨n, hn⟩ := ih (by omega) (by omega) hrest hy
      refine ⟨n + 1, fun m hm s hs => ?_⟩
      obtain ⟨m, rfl⟩ : ∃ k, m = k + 1 := ⟨m - 1, by omega⟩
      rw [skip_out hlow hhigh hs]
      refine hn m (by omega) _ ?_
      unfold entry
      split <;> omega
    · have hentry : Valid ca (turn dir p, entry ca dir (turn dir p)) := by
        unfold entry
        split
        · exact ⟨by dsimp only; omega, by dsimp only; omega⟩
        · exact ⟨le_refl _, hpos⟩
      obtain ⟨k, hk⟩ : ∃ k, (ca.hi (turn dir p)).toNat = k + 1 := ⟨(ca.hi (turn dir p)).toNat - 1, by omega⟩
      rw [block, hk, part_succ, List.cons_append, List.head?_cons] at hy
      refine ⟨2, fun m hm s hs => ?_⟩
      obtain ⟨m, rfl⟩ : ∃ k, m = k + 2 := ⟨m - 2, by omega⟩
      rw [skip_out hlow hhigh hs, skip_valid (by omega) (by omega) hentry, ← hy]

theorem steps_part {a : ℤ} (hlow : 0 ≤ p) (hhigh : p < 0xa00) {n : ℕ} (hrest : rest.IsChain (Steps ca dir))
    (hleads : ∀ y, rest.head? = some y → Leads ca dir p y) (hvalid : ∀ i : ℕ, i < n → Valid ca (p, a + dir + i * dir))
    (hend : a + dir + n * dir < 0 ∨ ca.hi p ≤ a + dir + n * dir) :
    ((p, a) :: (part dir p (a + dir) n ++ rest)).IsChain (Steps ca dir) := by
  induction n generalizing a with
  | zero =>
    refine List.isChain_cons.mpr ⟨fun y hy => ?_, hrest⟩
    obtain ⟨n, hn⟩ := hleads y hy
    exact ⟨n, fun m hm => hn m hm _ (by simpa using hend)⟩
  | succ n ih =>
    rw [part_succ]
    refine List.isChain_cons_cons.mpr ⟨⟨1, fun m hm => ?_⟩, ih ?_ ?_⟩
    · obtain ⟨m, rfl⟩ : ∃ k, m = k + 1 := ⟨m - 1, by omega⟩
      exact skip_valid hlow hhigh (by simpa using hvalid 0 (Nat.succ_pos n)) m
    · intro i hi
      have hnext := hvalid (i + 1) (by omega)
      push_cast at hnext
      have hsame : a + dir + (i + 1) * dir = a + dir + dir + i * dir := by ring
      rwa [hsame] at hnext
    · push_cast at hend
      have hsame : a + dir + (n + 1) * dir = a + dir + dir + n * dir := by ring
      rwa [hsame] at hend

theorem block_valid (hdir : dir = 1 ∨ dir = -1) (p : ℤ) :
    (∀ i : ℕ, i < (ca.hi p).toNat → Valid ca (p, entry ca dir p + i * dir)) ∧
      (entry ca dir p + (ca.hi p).toNat * dir < 0 ∨ ca.hi p ≤ entry ca dir p + (ca.hi p).toNat * dir) := by
  have hhi := hi_nonneg ca p
  unfold entry Valid
  rcases hdir with rfl | rfl
  · rw [if_neg (by decide)]
    exact ⟨fun i hi => ⟨by dsimp only; omega, by dsimp only; omega⟩, by omega⟩
  · rw [if_pos (by decide)]
    exact ⟨fun i hi => ⟨by dsimp only; omega, by dsimp only; omega⟩, by omega⟩

theorem steps_pages (hdir : dir = 1 ∨ dir = -1) {a : ℤ} (hlow : 0 ≤ p) (hhigh : p < 0xa00) {n : ℕ} {pages : List ℤ}
    (hturns : Turns dir p pages) (hvalid : ∀ i : ℕ, i < n → Valid ca (p, a + dir + i * dir))
    (hend : a + dir + n * dir < 0 ∨ ca.hi p ≤ a + dir + n * dir) :
    ((p, a) :: (part dir p (a + dir) n ++ pages.flatMap (block ca dir))).IsChain (Steps ca dir) := by
  induction pages generalizing p a n with
  | nil => exact steps_part hlow hhigh List.isChain_nil (fun y hy => absurd hy (by simp)) hvalid hend
  | cons q pages ih =>
    obtain ⟨rfl, hrest⟩ := List.isChain_cons_cons.mp hturns
    have hbounds := turn_bounds dir p
    obtain ⟨hblock, hblockend⟩ := @block_valid ca dir hdir (turn dir p)
    have hback : entry ca dir (turn dir p) - dir + dir = entry ca dir (turn dir p) := by ring
    have hblocks := ih (p := turn dir p) (a := entry ca dir (turn dir p) - dir) (n := (ca.hi (turn dir p)).toNat)
      (by omega) (by omega) hrest (by rw [hback]; exact hblock) (by rw [hback]; exact hblockend)
    rw [hback] at hblocks
    exact steps_part hlow hhigh hblocks.tail (fun y hy => leads_pages hlow hhigh hturns hy) hvalid hend

/-! ### Once round -/

/-- The page numbers from one on, each one turn after the one before. -/
def ringFrom (dir i : ℤ) (n : ℕ) : List ℤ := (List.range n).map fun k : ℕ => ring (i + (k + 1 : ℤ) * dir)

theorem turns_ringFrom (hdir : dir = 1 ∨ dir = -1) {i : ℤ} (hturn : turn dir p = ring (i + dir)) (n : ℕ) :
    Turns dir p (ringFrom dir i n) := by
  induction n generalizing p i with
  | zero => exact List.isChain_singleton _
  | succ n ih =>
    have hcons : ringFrom dir i (n + 1) = ring (i + dir) :: ringFrom dir (i + dir) n := by
      simp only [ringFrom, List.range_succ_eq_map, List.map_cons, List.map_map]
      refine List.cons_eq_cons.mpr ⟨by simp, List.map_congr_left fun k _ => ?_⟩
      simp only [Function.comp_apply]
      push_cast
      congr 1
      ring
    rw [hcons]
    exact List.isChain_cons_cons.mpr ⟨hturn.symm, ih (turn_ring hdir (i + dir))⟩

theorem ringFrom_append (i : ℤ) (m n : ℕ) : ringFrom dir i (m + n) = ringFrom dir i m ++ ringFrom dir (i + m * dir) n := by
  simp only [ringFrom, List.range_add, List.map_append, List.map_map]
  congr 1
  refine List.map_congr_left fun k _ => ?_
  simp only [Function.comp_apply]
  push_cast
  congr 1
  ring

theorem ringFrom_cycle (i : ℤ) (n : ℕ) : ringFrom dir (i + (0x900 : ℕ) * dir) n = ringFrom dir i n := by
  refine List.map_congr_left fun k _ => ?_
  have hsame : i + (0x900 : ℕ) * dir + (k + 1 : ℤ) * dir = i + (k + 1 : ℤ) * dir + 0x900 * dir := by
    push_cast
    ring
  unfold ring
  rw [hsame, Int.add_mul_emod_self_left]

end Places

/-- Where a page number stands in the cycle; one below all of them stands where the first turn from it needs it. -/
def ringIndex (dir p : ℤ) : ℤ := if 0x100 ≤ p then p - 0x100 else if dir < 0 then 0 else if p = 0xff then -1 else -2

/-- How many places of the page number lie behind a subpage number. -/
def restCount (ca : Cache) (dir p s : ℤ) : ℕ :=
  if 0 ≤ s + dir ∧ s + dir < ca.hi p then (if dir < 0 then s + dir + 1 else ca.hi p - (s + dir)).toNat else 0

def behind (ca : Cache) (dir p s : ℤ) : List (ℤ × ℤ) := part dir p (s + dir) (restCount ca dir p s)

def elsewhere (ca : Cache) (dir p : ℤ) : List (ℤ × ℤ) :=
  (ringFrom dir (ringIndex dir p) 0x8ff).flatMap (block ca dir)

def upTo (ca : Cache) (dir p s : ℤ) : List (ℤ × ℤ) :=
  (block ca dir (ring (ringIndex dir p))).take
    ((block ca dir (ring (ringIndex dir p))).length - restCount ca dir p s)

def round (ca : Cache) (dir p s : ℤ) : List (ℤ × ℤ) := behind ca dir p s ++ elsewhere ca dir p ++ upTo ca dir p s

section Round

variable {ca : Cache} {dir p s : ℤ}

theorem turn_ringIndex (hdir : dir = 1 ∨ dir = -1) (hlow : 0 ≤ p) (hhigh : p ≤ 0x9ff) :
    turn dir p = ring (ringIndex dir p + dir) := by
  unfold turn ringIndex ring
  rcases hdir with rfl | rfl <;> dsimp only <;> split_ifs <;> omega

theorem ring_ringIndex (hlow : 0x100 ≤ p) (hhigh : p ≤ 0x9ff) : ring (ringIndex dir p) = p := by
  unfold ring ringIndex
  rw [if_pos hlow]
  omega

theorem restCount_spec (hdir : dir = 1 ∨ dir = -1) :
    (∀ i : ℕ, i < restCount ca dir p s → Valid ca (p, s + dir + i * dir)) ∧
      (s + dir + restCount ca dir p s * dir < 0 ∨ ca.hi p ≤ s + dir + restCount ca dir p s * dir) := by
  unfold restCount Valid
  rcases hdir with rfl | rfl
  · simp only [show ¬(1 : ℤ) < 0 by decide, if_false]
    split
    · exact ⟨fun i hi => ⟨by omega, by omega⟩, by omega⟩
    · exact ⟨fun i hi => absurd hi (Nat.not_lt_zero i), by omega⟩
  · simp only [show (-1 : ℤ) < 0 by decide, if_true]
    split
    · exact ⟨fun i hi => ⟨by omega, by omega⟩, by omega⟩
    · exact ⟨fun i hi => absurd hi (Nat.not_lt_zero i), by omega⟩

theorem part_length (p s : ℤ) (n : ℕ) : (part dir p s n).length = n := by
  rw [part, List.length_map, List.length_range]

theorem upTo_behind (hdir : dir = 1 ∨ dir = -1) (hnone : p < 0x100 → ca.hi p = 0) (hhigh : p ≤ 0x9ff) :
    upTo ca dir p s ++ behind ca dir p s = block ca dir (ring (ringIndex dir p)) := by
  have hhi := hi_nonneg ca p
  unfold upTo behind
  by_cases hzero : restCount ca dir p s = 0
  · rw [hzero, Nat.sub_zero, List.take_length]
    exact List.append_nil _
  · have hlow : 0x100 ≤ p := by
      by_contra hno
      have hhi0 := hnone (not_le.mp hno)
      refine hzero ?_
      unfold restCount
      rw [if_neg (by omega)]
    rw [ring_ringIndex hlow hhigh, block, part_length]
    obtain ⟨m, hm⟩ : ∃ m, (ca.hi p).toNat = m + restCount ca dir p s := by
      refine ⟨(ca.hi p).toNat - restCount ca dir p s, ?_⟩
      unfold restCount
      rcases hdir with rfl | rfl <;> split_ifs <;> omega
    have hfrom : entry ca dir p + m * dir = s + dir := by
      unfold restCount at hm hzero
      unfold entry
      rcases hdir with rfl | rfl
      · simp only [show ¬(1 : ℤ) < 0 by decide, if_false] at hm hzero ⊢
        split at hm
        · omega
        next hno => exact absurd (if_neg hno) hzero
      · simp only [show (-1 : ℤ) < 0 by decide, if_true] at hm hzero ⊢
        split at hm
        · omega
        next hno => exact absurd (if_neg hno) hzero
    rw [hm, part_append, hfrom, Nat.add_sub_cancel, List.take_left' (part_length _ _ m)]

theorem places_tour (hdir : dir = 1 ∨ dir = -1) (hnone : p < 0x100 → ca.hi p = 0) (hlow : 0 ≤ p) (hhigh : p ≤ 0x9ff) :
    ((p, s) :: (round ca dir p s ++ (round ca dir p s ++ behind ca dir p s))).IsChain (Steps ca dir) := by
  have hturns := turns_ringFrom hdir (turn_ringIndex hdir hlow hhigh) (0x900 + 0x900)
  obtain ⟨hvalid, hend⟩ := @restCount_spec ca dir p s hdir
  have hsteps := steps_pages hdir hlow (by omega) hturns hvalid hend
  have hcycle : ringFrom dir (ringIndex dir p) 0x900
      = ringFrom dir (ringIndex dir p) 0x8ff ++ [ring (ringIndex dir p)] := by
    have hlast : ringFrom dir (ringIndex dir p + (0x8ff : ℕ) * dir) 1 = [ring (ringIndex dir p)] := by
      have hsame : ringIndex dir p + (0x8ff : ℕ) * dir + ((0 : ℕ) + 1 : ℤ) * dir = ringIndex dir p + 0x900 * dir := by
        push_cast
        ring
      simp only [ringFrom, List.range_one, List.map_cons, List.map_nil, hsame]
      unfold ring
      rw [Int.add_mul_emod_self_left]
    rw [← hlast, ← ringFrom_append]
  have hround : behind ca dir p s ++ (ringFrom dir (ringIndex dir p) (0x900 + 0x900)).flatMap (block ca dir)
      = round ca dir p s ++ (round ca dir p s ++ behind ca dir p s) := by
    rw [ringFrom_append, ringFrom_cycle, hcycle]
    simp only [List.flatMap_append, List.flatMap_cons, List.flatMap_nil, List.append_nil,
      ← upTo_behind hdir hnone hhigh (s := s), round, elsewhere, List.append_assoc]
  rw [← hround]
  exact hsteps

variable {x : ℤ × ℤ}

theorem mem_behind (hdir : dir = 1 ∨ dir = -1) (hx : x ∈ behind ca dir p s) : x.1 = p ∧ Valid ca x := by
  obtain ⟨i, hi, rfl⟩ := List.mem_map.mp hx
  exact ⟨rfl, (restCount_spec hdir).1 i (List.mem_range.mp hi)⟩

theorem mem_elsewhere (hdir : dir = 1 ∨ dir = -1) : x ∈ elsewhere ca dir p ↔
    Valid ca x ∧ ∃ k : ℕ, k < 0x8ff ∧ x.1 = ring (ringIndex dir p + (k + 1 : ℤ) * dir) := by
  simp only [elsewhere, ringFrom, List.mem_flatMap, List.mem_map, List.mem_range]
  constructor
  · rintro ⟨q, ⟨k, hk, rfl⟩, hx⟩
    obtain ⟨hpage, hvalid⟩ := (mem_block hdir).mp hx
    exact ⟨hvalid, k, hk, hpage⟩
  · rintro ⟨hvalid, k, hk, hpage⟩
    exact ⟨_, ⟨k, hk, rfl⟩, (mem_block hdir).mpr ⟨hpage, hvalid⟩⟩

theorem mem_upTo (hdir : dir = 1 ∨ dir = -1) (hx : x ∈ upTo ca dir p s) : x.1 = ring (ringIndex dir p) ∧ Valid ca x :=
  (mem_block hdir).mp (List.mem_of_mem_take hx)

theorem mem_round (hdir : dir = 1 ∨ dir = -1) (hnone : p < 0x100 → ca.hi p = 0) (hhigh : p ≤ 0x9ff)
    (hpages : ∀ x, Valid ca x → 0x100 ≤ x.1 ∧ x.1 ≤ 0x9ff) : x ∈ round ca dir p s ↔ Valid ca x := by
  simp only [round, List.mem_append]
  constructor
  · rintro ((hx | hx) | hx)
    · exact (mem_behind hdir hx).2
    · exact ((mem_elsewhere hdir).mp hx).1
    · exact (mem_upTo hdir hx).2
  · intro hvalid
    obtain ⟨hxlow, hxhigh⟩ := hpages x hvalid
    by_cases hpage : x.1 = ring (ringIndex dir p)
    · have hx : x ∈ upTo ca dir p s ++ behind ca dir p s := by
        rw [upTo_behind hdir hnone hhigh]
        exact (mem_block hdir).mpr ⟨hpage, hvalid⟩
      rcases List.mem_append.mp hx with hx | hx
      · exact Or.inr hx
      · exact Or.inl (Or.inl hx)
    · refine Or.inl (Or.inr ((mem_elsewhere hdir).mpr
        ⟨hvalid, (((x.1 - 0x100 - ringIndex dir p) * dir) % 0x900 - 1).toNat, ?_, ?_⟩))
      · omega
      · unfold ring at hpage ⊢
        rcases hdir with rfl | rfl <;> omega

end Round

/-! ### In order -/

def lexLt (a b : ℤ × ℤ) : Prop := a.1 < b.1 ∨ a.1 = b.1 ∧ a.2 < b.2

/-- `b` lies further on in the direction. -/
def Ahead (dir : ℤ) (a b : ℤ × ℤ) : Prop := if dir < 0 then lexLt b a else lexLt a b

/-- From the start on in the direction and round the end, `a` comes before `b`. -/
def Before (dir : ℤ) (start a b : ℤ × ℤ) : Prop :=
  Ahead dir start a ∧ ¬Ahead dir start b ∨ (Ahead dir start a ↔ Ahead dir start b) ∧ Ahead dir a b

section Order

variable {ca : Cache} {dir p s : ℤ}

theorem ahead_part (hdir : dir = 1 ∨ dir = -1) (p s : ℤ) (n : ℕ) : (part dir p s n).Pairwise (Ahead dir) := by
  rw [part, List.pairwise_map]
  refine List.pairwise_lt_range.imp fun {i j} hij => ?_
  unfold Ahead lexLt
  rcases hdir with rfl | rfl
  · rw [if_neg (by decide)]
    dsimp only
    omega
  · rw [if_pos (by decide)]
    dsimp only
    omega

theorem ahead_behind (hdir : dir = 1 ∨ dir = -1) {x : ℤ × ℤ} (hx : x ∈ behind ca dir p s) : Ahead dir (p, s) x := by
  obtain ⟨i, -, rfl⟩ := List.mem_map.mp hx
  unfold Ahead lexLt
  rcases hdir with rfl | rfl
  · rw [if_neg (by decide)]
    dsimp only
    omega
  · rw [if_pos (by decide)]
    dsimp only
    omega

def StartsOut (ca : Cache) (dir p s : ℤ) : Prop := dir < 0 ∧ ca.hi p ≠ 0 ∧ ca.hi p < s

theorem not_ahead_upTo (hdir : dir = 1 ∨ dir = -1) (hlow : 0x100 ≤ p) (hhigh : p ≤ 0x9ff) (hs : 0 ≤ s)
    (hout : ¬StartsOut ca dir p s) {x : ℤ × ℤ} (hx : x ∈ upTo ca dir p s) : ¬Ahead dir (p, s) x := by
  have hhi := hi_nonneg ca p
  rw [upTo, ring_ringIndex hlow hhigh, block, part_length, part, ← List.map_take, List.take_range] at hx
  obtain ⟨i, hi, rfl⟩ := List.mem_map.mp hx
  have hlt := List.mem_range.mp hi
  unfold restCount at hlt
  unfold StartsOut at hout
  unfold Ahead lexLt entry
  rcases hdir with rfl | rfl
  · simp only [show ¬(1 : ℤ) < 0 by decide, if_false] at hlt ⊢
    split at hlt <;> omega
  · simp only [show (-1 : ℤ) < 0 by decide, if_true, true_and] at hlt hout ⊢
    split at hlt <;> omega

/-- Upwards, the page number of the `j`-th turn: before the end of the numbers, or after it. -/
theorem ring_up (hlow : 1 ≤ p) (hhigh : p ≤ 0x9ff) {j : ℕ} (hj : 1 ≤ j) (hj' : j ≤ 0x900) {q : ℤ}
    (hq : q = ring (ringIndex 1 p + j * 1)) (hne : q ≠ 0x9ff) :
    0x100 ≤ q ∧ q < 0x9ff ∧ (p < q ∧ ringIndex 1 p + j = q - 0x100 ∨ q ≤ p ∧ ringIndex 1 p + j = q + 0x800) := by
  unfold ring ringIndex at *
  split_ifs at * <;> omega

theorem ring_down (hlow : 1 ≤ p) (hhigh : p ≤ 0x9ff) {j : ℕ} (hj : 1 ≤ j) (hj' : j ≤ 0x900) {q : ℤ}
    (hq : q = ring (ringIndex (-1) p + j * -1)) (hne : q ≠ 0x9ff) :
    0x100 ≤ q ∧ q < 0x9ff ∧ (q < p ∧ ringIndex (-1) p - j = q - 0x100 ∨ p ≤ q ∧ ringIndex (-1) p - j = q - 0xa00) := by
  unfold ring ringIndex at *
  split_ifs at * <;> omega

theorem before_pages (hdir : dir = 1 ∨ dir = -1) (hlow : 1 ≤ p) (hhigh : p ≤ 0x9ff) {j k : ℕ} (hj : 1 ≤ j)
    (hjk : j < k) (hk : k ≤ 0x900) (ha : a.1 = ring (ringIndex dir p + j * dir))
    (hb : b.1 = ring (ringIndex dir p + k * dir)) (ha' : a.1 ≠ 0x9ff) (hb' : b.1 ≠ 0x9ff)
    (hstart : b.1 = p → ¬Ahead dir (p, s) b) : Before dir (p, s) a b := by
  unfold Before Ahead lexLt at *
  rcases hdir with rfl | rfl
  · have hturna := ring_up hlow hhigh hj (by omega) ha ha'
    have hturnb := ring_up hlow hhigh (by omega) hk hb hb'
    simp only [show ¬(1 : ℤ) < 0 by decide, if_false] at *
    omega
  · have hturna := ring_down hlow hhigh hj (by omega) ha ha'
    have hturnb := ring_down hlow hhigh (by omega) hk hb hb'
    simp only [show (-1 : ℤ) < 0 by decide, if_true] at *
    omega

theorem before_same {start : ℤ × ℤ} (hpage : a.1 ≠ start.1) (hsame : b.1 = a.1) (hab : Ahead dir a b) :
    Before dir start a b := by
  unfold Before Ahead lexLt at *
  split_ifs at * <;> omega

theorem before_behind {start : ℤ × ℤ} (hpage : a.1 = start.1) (ha : Ahead dir start a)
    (hb : b.1 = start.1 → ¬Ahead dir start b) : Before dir start a b := by
  unfold Before Ahead lexLt at *
  split_ifs at * <;> omega

theorem before_irrefl (start a : ℤ × ℤ) : ¬Before dir start a a := by
  unfold Before Ahead lexLt
  split_ifs <;> omega

theorem before_start {s' : ℤ} (ha : a.1 ≠ p) (hb : b.1 ≠ p) : Before dir (p, s') a b ↔ Before dir (p, s) a b := by
  unfold Before Ahead lexLt
  split_ifs <;> omega

theorem elsewhere_page (hdir : dir = 1 ∨ dir = -1) (hlow : 1 ≤ p) (hhigh : p ≤ 0x9ff) {k : ℕ} (hk : k < 0x8ff) :
    ring (ringIndex dir p + (k + 1 : ℤ) * dir) ≠ p := by
  unfold ring ringIndex
  rcases hdir with rfl | rfl <;> split_ifs <;> omega

/-- Where no page number past 0x9fe is cached, the round is in order. -/
theorem round_before (hdir : dir = 1 ∨ dir = -1) (hlow : 1 ≤ p) (hhigh : p ≤ 0x9ff) (hs : 0 ≤ s)
    (hpages : ∀ x, Valid ca x → 0x100 ≤ x.1 ∧ x.1 < 0x9ff) (hout : ¬StartsOut ca dir p s) :
    (round ca dir p s).Pairwise (Before dir (p, s)) := by
  have hupTo : ∀ x ∈ upTo ca dir p s, x.1 = p → ¬Ahead dir (p, s) x := fun x hx hpage =>
    not_ahead_upTo hdir (hpage ▸ (hpages x (mem_upTo hdir hx).2).1) hhigh hs hout hx
  have hlast : ringIndex dir p + (0x900 : ℕ) * dir = ringIndex dir p + 0x900 * dir := by push_cast; rfl
  rw [round, List.pairwise_append, List.pairwise_append]
  refine ⟨⟨?_, ?_, fun a ha b hb => ?_⟩, ?_, fun a ha b hb => ?_⟩
  · refine (ahead_part hdir p (s + dir) (restCount ca dir p s)).imp_of_mem fun {a b} ha hb hab => ?_
    exact Or.inr ⟨iff_of_true (ahead_behind hdir ha) (ahead_behind hdir hb), hab⟩
  · refine List.pairwise_flatMap.mpr ⟨fun q hq => ?_, ?_⟩
    · obtain ⟨k, hk, rfl⟩ := List.mem_map.mp hq
      refine (ahead_part hdir _ _ _).imp_of_mem fun {a b} ha hb hab => ?_
      have ha' := ((@mem_block ca dir hdir _ _).mp ha).1
      have hb' := ((@mem_block ca dir hdir _ _).mp hb).1
      exact before_same (ha'.trans_ne (elsewhere_page hdir hlow hhigh (List.mem_range.mp hk))) (hb'.trans ha'.symm) hab
    · rw [ringFrom, List.pairwise_map]
      refine List.pairwise_lt_range.imp_of_mem fun {i j} hi hj hij a ha b hb => ?_
      obtain ⟨ha', havalid⟩ := (mem_block hdir).mp ha
      obtain ⟨hb', hbvalid⟩ := (mem_block hdir).mp hb
      have hj' := List.mem_range.mp hj
      exact before_pages hdir hlow hhigh (j := i + 1) (k := j + 1) (by omega) (by omega) (by omega)
        (by push_cast; exact ha') (by push_cast; exact hb') (hpages a havalid).2.ne (hpages b hbvalid).2.ne
        fun hno => absurd (hb'.symm.trans hno) (elsewhere_page hdir hlow hhigh hj')
  · have hb' := (mem_elsewhere hdir).mp hb
    obtain ⟨-, k, hk, hpage⟩ := hb'
    exact before_behind (mem_behind hdir ha).1 (ahead_behind hdir ha)
      fun hno => absurd (hpage.symm.trans hno) (elsewhere_page hdir hlow hhigh hk)
  · refine ((ahead_part hdir _ _ _).sublist (List.take_sublist _ _)).imp_of_mem fun {a b} ha hb hab => ?_
    have ha' := (mem_upTo hdir ha).1
    have hb' := (mem_upTo hdir hb).1
    by_cases hpage : a.1 = p
    · exact Or.inr ⟨iff_of_false (hupTo a ha hpage) (hupTo b hb (hb'.trans (ha'.symm.trans hpage))), hab⟩
    · exact before_same hpage (hb'.trans ha'.symm) hab
  · rcases List.mem_append.mp ha with ha | ha
    · exact before_behind (mem_behind hdir ha).1 (ahead_behind hdir ha) (hupTo b hb)
    · obtain ⟨havalid, k, hk, hapage⟩ := (mem_elsewhere hdir).mp ha
      obtain ⟨hbpage, hbvalid⟩ := mem_upTo hdir hb
      refine before_pages hdir hlow hhigh (j := k + 1) (k := 0x900) (by omega) (by omega) (by omega)
        (by push_cast; exact hapage) ?_ (hpages a havalid).2.ne (hpages b hbvalid).2.ne (hupTo b hb)
      rw [hbpage, hlast]
      unfold ring
      rw [Int.add_mul_emod_self_left]

theorem round_startsOut (hdir : dir = 1 ∨ dir = -1) (hout : StartsOut ca dir p s) :
    behind ca dir p s = [] ∧ round ca dir p s = round ca dir p 0 := by
  obtain ⟨hdown, hsome, habove⟩ := hout
  have hdir' : dir = -1 := by omega
  have hnone : restCount ca dir p s = 0 := by
    unfold restCount
    rw [if_neg (by omega)]
  have hnone' : restCount ca dir p 0 = 0 := by
    unfold restCount
    rw [if_neg (by omega)]
  have hbehind : behind ca dir p s = [] := by
    rw [behind, hnone]
    rfl
  have hbehind' : behind ca dir p 0 = [] := by
    rw [behind, hnone']
    rfl
  refine ⟨hbehind, ?_⟩
  rw [round, round, hbehind, hbehind', upTo, upTo, hnone, hnone']

theorem round_nodup (hdir : dir = 1 ∨ dir = -1) (hlow : 1 ≤ p) (hhigh : p ≤ 0x9ff) (hs : 0 ≤ s)
    (hpages : ∀ x, Valid ca x → 0x100 ≤ x.1 ∧ x.1 < 0x9ff) : (round ca dir p s).Nodup := by
  have hne : ∀ s, (round ca dir p s).Pairwise (Before dir (p, s)) → (round ca dir p s).Nodup := fun s hpair =>
    List.Pairwise.imp (fun {a b} hab (hno : a = b) => before_irrefl (p, s) b (hno ▸ hab)) hpair
  by_cases hout : StartsOut ca dir p s
  · rw [(round_startsOut hdir hout).2]
    refine hne 0 (round_before hdir hlow hhigh (le_refl 0) hpages fun hno => ?_)
    have hhi := hi_nonneg ca p
    exact absurd hno.2.2 (not_lt.mpr hhi)
  · exact hne s (round_before hdir hlow hhigh hs hpages hout)

end Order

/-! ### The pages at the places -/

def VtPage.place (e : VtPage) : ℤ × ℤ := ((e.pgno : ℤ), e.subno)

/-- A subpage with the number of the wildcard is the newest of its page number. -/
def NewestAny (ca : Cache) : Prop := ∀ e ∈ ca.entries, e.subno = anySub → cacheLookup ca e.pgno anySub = some e

def pages (ca : Cache) (dir p s : ℤ) : List VtPage := (round ca dir p s).filterMap (itemAt ca)

section Pages

variable {ca : Cache} {dir p s : ℤ}

theorem CacheInv.hi_spec (h : CacheInv ca) {q : ℤ} (hlow : 0 ≤ q) (hhigh : q < 0xa00) :
    (∀ e ∈ ca.entries, (e.pgno : ℤ) ≠ q) ∧ ca.hi q = 0 ∨
      ∃ e ∈ ca.entries, (e.pgno : ℤ) = q ∧ ca.hi q = e.subno + 1 ∧
        ∀ f ∈ ca.entries, (f.pgno : ℤ) = q → f.subno ≤ e.subno := by
  have hhi : ca.hi q = ((ca.hiSubno ⟨q.toNat, by omega⟩).toNat : ℤ) := by
    unfold Cache.hi Cache.hiAt
    rw [dif_pos ⟨hlow, hhigh⟩]
    rfl
  rcases h.highest ⟨q.toNat, by omega⟩ with ⟨hnone, hzero⟩ | ⟨subno, ⟨e, he, hkey⟩, hword, hmax⟩
  · refine Or.inl ⟨fun e he hno => hnone e.subno ⟨e, mem_entries.mp he, Prod.ext ?_ rfl⟩, by rw [hhi, hzero]; rfl⟩
    show e.pgno = q.toNat
    omega
  · have hpgno : e.pgno = q.toNat := congrArg Prod.fst hkey
    have hsubno : e.subno = subno := congrArg Prod.snd hkey
    refine Or.inr ⟨e, mem_entries.mpr he, by omega, by rw [hhi, hword, hsubno], fun f hf hpage => ?_⟩
    rw [hsubno]
    refine hmax f.subno ⟨f, mem_entries.mp hf, Prod.ext ?_ rfl⟩
    show f.pgno = q.toNat
    omega

variable {e : VtPage} {x : ℤ × ℤ}

theorem CacheInv.entry_stored (h : CacheInv ca) (he : e ∈ ca.entries) : e.Stored :=
  h.stored e (mem_entries.mp he)

theorem CacheInv.place_valid (h : CacheInv ca) (he : e ∈ ca.entries) : Valid ca e.place := by
  have hstored := h.entry_stored he
  have hpgno := hstored.pgno_le
  refine ⟨hstored.subno_ge, ?_⟩
  show e.subno < ca.hi (e.pgno : ℤ)
  rcases h.hi_spec (q := (e.pgno : ℤ)) (by omega) (by omega) with ⟨hnone, -⟩ | ⟨f, -, -, hhi, hmax⟩
  · exact absurd rfl (hnone e he)
  · have hle := hmax e he rfl
    omega

theorem CacheInv.valid_entry (h : CacheInv ca) (hx : Valid ca x) :
    ∃ e ∈ ca.entries, (e.pgno : ℤ) = x.1 ∧ ca.hi x.1 = e.subno + 1 := by
  have hpos : 0 < ca.hi x.1 := lt_of_le_of_lt hx.1 hx.2
  have hrange : 0 ≤ x.1 ∧ x.1 < 0xa00 := by
    by_contra hno
    unfold Cache.hi Cache.hiAt at hpos
    rw [dif_neg hno] at hpos
    exact absurd hpos (lt_irrefl 0)
  rcases h.hi_spec hrange.1 hrange.2 with ⟨-, hzero⟩ | ⟨e, he, hpage, hhi, -⟩
  · omega
  · exact ⟨e, he, hpage, hhi⟩

theorem CacheInv.valid_pages (h : CacheInv ca) (hlast : ∀ e ∈ ca.entries, e.pgno ≠ 0x9ff) (hx : Valid ca x) :
    0x100 ≤ x.1 ∧ x.1 < 0x9ff := by
  obtain ⟨e, he, hpage, -⟩ := h.valid_entry hx
  have hstored := h.entry_stored he
  have hge := hstored.pgno_ge
  have hle := hstored.pgno_le
  have hne := hlast e he
  omega

theorem lookup_mem {pgno : ℕ} {subno : ℤ} (hlookup : cacheLookup ca pgno subno = some e) :
    e ∈ ca.entries ∧ e.pgno = pgno ∧ (subno = anySub ∨ e.subno = subno) :=
  ⟨mem_entries.mpr ⟨_, List.mem_of_find?_eq_some hlookup⟩, wanted_iff.mp (List.find?_some hlookup)⟩

theorem CacheInv.lookup_isSome (h : CacheInv ca) (he : e ∈ ca.entries) {subno : ℤ}
    (hsub : subno = anySub ∨ e.subno = subno) : ∃ f, cacheLookup ca e.pgno subno = some f := by
  have hfound : ((ca.hash (hashPgno e.pgno)).find? (wanted e.pgno subno)).isSome = true :=
    List.find?_isSome.mpr ⟨e, h.has_bucket (mem_entries.mp he), wanted_iff.mpr ⟨rfl, hsub⟩⟩
  exact Option.isSome_iff_exists.mp hfound

theorem CacheInv.entry_ext (h : CacheInv ca) {f : VtPage} (he : e ∈ ca.entries) (hf : f ∈ ca.entries)
    (hkey : e.key = f.key) : e = f :=
  List.inj_on_of_nodup_map h.entries_nodup he hf hkey

theorem itemAt_iff (h : CacheInv ca) (hnew : NewestAny ca) (hx : Valid ca x) :
    itemAt ca x = some e ↔ e ∈ ca.entries ∧ e.place = x := by
  unfold itemAt
  constructor
  · intro hlookup
    obtain ⟨he, hpgno, hsub⟩ := lookup_mem hlookup
    obtain ⟨f, hf, hpage, hhi⟩ := h.valid_entry hx
    have hplace : (e.pgno : ℤ) = x.1 := by omega
    refine ⟨he, Prod.ext hplace ?_⟩
    show e.subno = x.2
    rcases hsub with hany | hsub
    · -- the highest subpage is the one with the number of the wildcard
      have hfsub : f.subno = anySub := by
        have hlt := hx.2
        have hle := (h.entry_stored hf).subno_le
        unfold anySub at *
        omega
      have hfound := hnew f hf hfsub
      have hsame : f.pgno = x.1.toNat := by omega
      rw [hsame, ← hany, hlookup] at hfound
      rw [Option.some.inj hfound, hfsub, hany]
    · exact hsub
  · rintro ⟨he, rfl⟩
    show cacheLookup ca (e.pgno : ℤ).toNat e.subno = some e
    rw [Int.toNat_natCast]
    by_cases hany : e.subno = anySub
    · rw [hany]
      exact hnew e he hany
    · obtain ⟨f, hf⟩ := h.lookup_isSome he (Or.inr rfl)
      obtain ⟨hfmem, hpgno, hsub⟩ := lookup_mem hf
      rw [hf, h.entry_ext he hfmem (Prod.ext hpgno.symm (hsub.resolve_left hany).symm)]

theorem CacheInv.hi_low (h : CacheInv ca) (hlast : ∀ e ∈ ca.entries, e.pgno ≠ 0x9ff) (hp : p < 0x100) : ca.hi p = 0 := by
  by_contra hno
  have hhi := hi_nonneg ca p
  have hge := (h.valid_pages hlast (x := (p, 0)) ⟨le_refl 0, by dsimp only; omega⟩).1
  dsimp only at hge
  omega

theorem CacheInv.mem_round (h : CacheInv ca) (hlast : ∀ e ∈ ca.entries, e.pgno ≠ 0x9ff) (hdir : dir = 1 ∨ dir = -1)
    (hhigh : p ≤ 0x9ff) : x ∈ round ca dir p s ↔ Valid ca x :=
  Alevt.mem_round hdir (h.hi_low hlast) hhigh fun _ hx =>
    ⟨(h.valid_pages hlast hx).1, (h.valid_pages hlast hx).2.le⟩

theorem pages_pairwise (h : CacheInv ca) (hnew : NewestAny ca) (hlast : ∀ e ∈ ca.entries, e.pgno ≠ 0x9ff)
    (hdir : dir = 1 ∨ dir = -1) (hhigh : p ≤ 0x9ff) {R : ℤ × ℤ → ℤ × ℤ → Prop} (hround : (round ca dir p s).Pairwise R) :
    (pages ca dir p s).Pairwise fun e f => R e.place f.place := by
  refine List.Pairwise.filterMap (itemAt ca) ?_ (hround.imp_of_mem (S := fun a b => Valid ca a ∧ Valid ca b ∧ R a b)
    fun ha hb hR => ⟨(h.mem_round hlast hdir hhigh).mp ha, (h.mem_round hlast hdir hhigh).mp hb, hR⟩)
  rintro a b ⟨ha, hb, hR⟩ e he f hf
  rw [((itemAt_iff h hnew ha).mp he).2, ((itemAt_iff h hnew hb).mp hf).2]
  exact hR

theorem pages_perm (h : CacheInv ca) (hnew : NewestAny ca) (hlast : ∀ e ∈ ca.entries, e.pgno ≠ 0x9ff)
    (hdir : dir = 1 ∨ dir = -1) (hlow : 1 ≤ p) (hhigh : p ≤ 0x9ff) (hs : 0 ≤ s) : (pages ca dir p s).Perm ca.entries := by
  have hnodup : (pages ca dir p s).Nodup :=
    (pages_pairwise h hnew hlast hdir hhigh (round_nodup hdir hlow hhigh hs fun x hx => h.valid_pages hlast hx)).imp
      fun hne hsame => hne (congrArg VtPage.place hsame)
  refine (List.perm_ext_iff_of_nodup hnodup h.entries_nodup.of_map).mpr fun e => ?_
  simp only [pages, List.mem_filterMap]
  constructor
  · rintro ⟨x, hx, hitem⟩
    exact ((itemAt_iff h hnew ((h.mem_round hlast hdir hhigh).mp hx)).mp hitem).1
  · intro he
    have hvalid := h.place_valid he
    exact ⟨e.place, (h.mem_round hlast hdir hhigh).mpr hvalid, (itemAt_iff h hnew hvalid).mpr ⟨he, rfl⟩⟩

end Pages

/-! ### The walk -/

/-- The place that the walk starts from: the page that was asked for, or where it would be. -/
def startPlace (ca : Cache) (pgno : ℕ) (subno : ℤ) : ℤ × ℤ :=
  (pgno, ((cacheLookup ca pgno subno).map VtPage.subno).getD subno)

/-- All cached pages, in cyclic order from just after the start, each offered once, up to the first that is taken. -/
def Traverses (ca : Cache) (pgno : ℕ) (subno dir : ℤ) (func : List VtPage → VtPage → Bool) : Prop :=
  ∃ all : List VtPage, all.Perm ca.entries ∧
    (all.Pairwise fun e f => Before dir (startPlace ca pgno subno) e.place f.place) ∧
    ∃ n, ∀ fuel, n ≤ fuel → foreachPg ca fuel pgno subno dir func = some (offer func all [])

/-- A start below which there are subpages of its page number, but not the one right below, and pages with other
numbers. -/
def StartsAbove (ca : Cache) (pgno : ℕ) (subno dir : ℤ) : Prop :=
  dir < 0 ∧ subno ≠ anySub ∧ ca.hi pgno ≠ 0 ∧ ca.hi pgno < subno ∧ ∃ e ∈ ca.entries, e.pgno ≠ pgno

section Walk

variable {ca : Cache} {pgno : ℕ} {subno dir : ℤ}

theorem CacheInv.startSubno_nonneg (h : CacheInv ca) (hsub : 0 ≤ subno) : 0 ≤ startSubno ca pgno subno dir := by
  unfold startSubno
  cases hlookup : cacheLookup ca pgno subno with
  | some e => exact (h.entry_stored (lookup_mem hlookup).1).subno_ge
  | none =>
    dsimp only
    split_ifs <;> omega

theorem foreachPg_eq (h : CacheInv ca) (hnew : NewestAny ca) (hlast : ∀ e ∈ ca.entries, e.pgno ≠ 0x9ff)
    (hdir : dir = 1 ∨ dir = -1) (hlow : 1 ≤ pgno) (hhigh : pgno ≤ 0x9ff) (hsub : 0 ≤ subno) :
    ∃ n, ∀ fuel, n ≤ fuel → ∀ func, foreachPg ca fuel pgno subno dir func
      = some (offer func (pages ca dir pgno (startSubno ca pgno subno dir)) []) := by
  have hlow' : (1 : ℤ) ≤ pgno := by omega
  have hhigh' : (pgno : ℤ) ≤ 0x9ff := by omega
  have hnonneg : 0 ≤ startSubno ca pgno subno dir := h.startSubno_nonneg hsub
  have hperm := pages_perm h hnew hlast hdir hlow' hhigh' hnonneg
  set s := startSubno ca pgno subno dir with hs
  by_cases hempty : ca.npages = 0
  · have hentries : ca.entries = [] := by
      rw [h.entries_length] at hempty
      exact List.eq_nil_of_length_eq_zero (by exact_mod_cast hempty)
    rw [hentries] at hperm
    refine ⟨0, fun fuel _ func => ?_⟩
    rw [foreachPg, if_pos hempty, hperm.eq_nil]
    rfl
  · obtain ⟨n, hn⟩ := eventually_tour (places_tour (s := s) hdir (h.hi_low hlast) (by omega) hhigh')
    refine ⟨max n (round ca dir pgno s ++ (round ca dir pgno s ++ behind ca dir pgno s)).length,
      fun fuel hfuel func => ?_⟩
    have hsome : pages ca dir pgno s ≠ [] := fun hno => hempty (by
      rw [h.entries_length, ← hperm.length_eq, hno]
      rfl)
    have hitems : (round ca dir pgno s ++ (round ca dir pgno s ++ behind ca dir pgno s)).filterMap (itemAt ca)
        = pages ca dir pgno s ++ (pages ca dir pgno s ++ (behind ca dir pgno s).filterMap (itemAt ca)) := by
      rw [List.filterMap_append, List.filterMap_append]
      rfl
    rw [foreachPg, if_neg hempty, ← hs]
    exact (foreachLoop_eq_walk ca dir func fuel fuel ((pgno : ℤ), s) none []).trans
      (walk_tour (hn fuel (le_of_max_le_left hfuel)) hitems (List.head?_append_of_ne_nil _ hsome) hsome
        (hperm.nodup_iff.mpr h.entries_nodup.of_map) (le_of_max_le_right hfuel))

theorem foreachPg_offered {func : List VtPage → VtPage → Bool}
    (hwalk : foreachPg ca fuel pgno subno dir func = some r) {e : VtPage} (he : e ∈ r.2) :
    ∃ x, itemAt ca x = some e := by
  unfold foreachPg at hwalk
  split at hwalk
  · obtain rfl := Option.some.inj hwalk
    exact absurd he List.not_mem_nil
  · have hsame := foreachLoop_eq_walk ca dir func fuel fuel ((pgno : ℤ), startSubno ca pgno subno dir) none []
    exact (walk_offered (hsame.symm.trans hwalk) he).resolve_left List.not_mem_nil

theorem offer_all (all offered : List VtPage) : offer (fun _ _ => false) all offered = (none, offered ++ all) := by
  induction all generalizing offered with
  | nil => rw [offer, List.append_nil]
  | cons e all ih => rw [offer, if_neg Bool.false_ne_true, ih, List.append_assoc, List.singleton_append]

theorem Traverses.newestAny (h : Traverses ca pgno subno dir fun _ _ => false) : NewestAny ca := by
  obtain ⟨all, hperm, -, n, hn⟩ := h
  intro e he hany
  have hwalk := hn n (le_refl n)
  rw [offer_all, List.nil_append] at hwalk
  obtain ⟨x, hitem⟩ := foreachPg_offered hwalk (hperm.mem_iff.mpr he)
  obtain ⟨-, hpgno, hsub⟩ := lookup_mem hitem
  have hx : x.2 = anySub := by
    rcases hsub with hx | hx
    · exact hx
    · exact hx.symm.trans hany
  rw [itemAt, hx, ← hpgno] at hitem
  exact hitem

end Walk

/-! ### When the walk is in order -/

section Condition

variable {ca : Cache} {pgno : ℕ} {subno dir : ℤ}

theorem before_startsOut {s : ℤ} (ha : a.1 = p) (hb : b.1 = p) (ha' : 0 ≤ a.2 ∧ a.2 < s) (hb' : 0 ≤ b.2 ∧ b.2 < s)
    (hab : Before (-1) (p, 0) a b) : Before (-1) (p, s) a b := by
  unfold Before Ahead lexLt at *
  simp only [show (-1 : ℤ) < 0 by decide, if_true] at *
  omega

theorem CacheInv.startsOut (h : CacheInv ca) (hout : StartsOut ca dir pgno (startSubno ca pgno subno dir)) :
    cacheLookup ca pgno subno = none ∧ subno ≠ anySub ∧ startSubno ca pgno subno dir = subno := by
  obtain ⟨hdown, hsome, habove⟩ := hout
  have hhi := hi_nonneg ca pgno
  unfold startSubno at habove ⊢
  cases hlookup : cacheLookup ca pgno subno with
  | some e =>
    rw [hlookup] at habove
    obtain ⟨he, hpgno, -⟩ := lookup_mem hlookup
    have hlt := (h.place_valid he).2
    unfold VtPage.place at hlt
    rw [hpgno] at hlt
    dsimp only at hlt habove
    omega
  | none =>
    rw [hlookup] at habove
    dsimp only at habove ⊢
    by_cases hany : subno = anySub
    · rw [if_pos hany, if_pos hdown] at habove
      omega
    · exact ⟨rfl, hany, if_neg hany⟩

/-- In order, unless the start lies above the subpages of its number and there are other numbers. -/
theorem pages_before (h : CacheInv ca) (hnew : NewestAny ca) (hlast : ∀ e ∈ ca.entries, e.pgno ≠ 0x9ff)
    (hdir : dir = 1 ∨ dir = -1) (hlow : 1 ≤ pgno) (hhigh : pgno ≤ 0x9ff) (hsub : 0 ≤ subno)
    (habove : ¬StartsAbove ca pgno subno dir) :
    (pages ca dir pgno (startSubno ca pgno subno dir)).Pairwise
      fun e f => Before dir (startPlace ca pgno subno) e.place f.place := by
  have hlow' : (1 : ℤ) ≤ pgno := by omega
  have hhigh' : (pgno : ℤ) ≤ 0x9ff := by omega
  have hvalid : ∀ x, Valid ca x → 0x100 ≤ x.1 ∧ x.1 < 0x9ff := fun x hx => h.valid_pages hlast hx
  have hnonneg : 0 ≤ startSubno ca pgno subno dir := h.startSubno_nonneg hsub
  have hmem : ∀ e ∈ pages ca dir pgno (startSubno ca pgno subno dir), e ∈ ca.entries := fun e he =>
    (pages_perm h hnew hlast hdir hlow' hhigh' hnonneg).mem_iff.mp he
  by_cases hout : StartsOut ca dir pgno (startSubno ca pgno subno dir)
  · obtain ⟨hlookup, hany, hs⟩ := h.startsOut hout
    have hdown : dir = -1 := by
      have hneg := hout.1
      omega
    subst hdown
    rw [hs] at hout hmem ⊢
    have honly : ∀ e ∈ ca.entries, (e.pgno : ℤ) = pgno := fun e he => by
      by_contra hno
      exact habove ⟨hout.1, hany, hout.2.1, hout.2.2, e, he, fun hsame => hno (congrArg Nat.cast hsame)⟩
    have hplace : startPlace ca pgno subno = ((pgno : ℤ), subno) := by
      rw [startPlace, hlookup]
      rfl
    have hplaces : ∀ e ∈ ca.entries, 0 ≤ e.place.2 ∧ e.place.2 < subno := fun e he => by
      obtain ⟨hge, hlt⟩ := h.place_valid he
      have hpage : e.place.1 = pgno := honly e he
      rw [hpage] at hlt
      exact ⟨hge, hlt.trans hout.2.2⟩
    have hround : (round ca (-1) pgno subno).Pairwise (Before (-1) ((pgno : ℤ), 0)) := by
      rw [(round_startsOut hdir hout).2]
      exact round_before hdir hlow' hhigh' (le_refl 0) hvalid fun hno => absurd hno.2.2 (not_lt.mpr (hi_nonneg ca pgno))
    rw [hplace]
    refine (pages_pairwise h hnew hlast hdir hhigh' hround).imp_of_mem fun {e f} he hf hef => ?_
    exact before_startsOut (honly e (hmem e he)) (honly f (hmem f hf)) (hplaces e (hmem e he)) (hplaces f (hmem f hf)) hef
  · have hpair := pages_pairwise h hnew hlast hdir hhigh' (round_before hdir hlow' hhigh' hnonneg hvalid hout)
    refine hpair.imp_of_mem fun {e f} he hf hef => ?_
    unfold startPlace
    unfold startSubno at hef
    cases hlookup : cacheLookup ca pgno subno with
    | some g =>
      rw [hlookup] at hef
      exact hef
    | none =>
      rw [hlookup] at hef
      dsimp only [Option.map_none, Option.getD_none] at hef ⊢
      by_cases hany : subno = anySub
      · rw [if_pos hany] at hef
        have hother : ∀ g ∈ ca.entries, g.place.1 ≠ pgno := fun g hg hpage => by
          obtain ⟨g', hg'⟩ := h.lookup_isSome hg (Or.inl hany)
          have hpgno : g.pgno = pgno := Int.ofNat_inj.mp hpage
          rw [hpgno, hlookup] at hg'
          exact absurd hg' (Option.some_ne_none g').symm
        exact (before_start (hother e (hmem e he)) (hother f (hmem f hf))).mp hef
      · rw [if_neg hany] at hef
        exact hef

/-- From a start that lies above the subpages of its number, these come last. -/
theorem not_startsAbove (h : CacheInv ca) (hnew : NewestAny ca) (hlast : ∀ e ∈ ca.entries, e.pgno ≠ 0x9ff)
    (hdir : dir = 1 ∨ dir = -1) (hlow : 1 ≤ pgno) (hhigh : pgno ≤ 0x9ff) (hsub : 0 ≤ subno)
    (htraverses : Traverses ca pgno subno dir fun _ _ => false) : ¬StartsAbove ca pgno subno dir := by
  rintro ⟨hdown, hany, hsome, habove, e, he, hother⟩
  have hlow' : (1 : ℤ) ≤ pgno := by omega
  have hhigh' : (pgno : ℤ) ≤ 0x9ff := by omega
  have hlookup : cacheLookup ca pgno subno = none := by
    cases hfound : cacheLookup ca pgno subno with
    | none => rfl
    | some g =>
      obtain ⟨hg, hpgno, hgsub⟩ := lookup_mem hfound
      have hlt := (h.place_valid hg).2
      have hgsub' := hgsub.resolve_left hany
      unfold VtPage.place at hlt
      rw [hpgno] at hlt
      dsimp only at hlt
      omega
  have hs : startSubno ca pgno subno dir = subno := by
    rw [startSubno, hlookup]
    exact if_neg hany
  have hplace : startPlace ca pgno subno = ((pgno : ℤ), subno) := by
    rw [startPlace, hlookup]
    rfl
  -- the pages that were offered are those of the round
  obtain ⟨n, hn⟩ := foreachPg_eq h hnew hlast hdir hlow hhigh hsub
  obtain ⟨all, -, hpair, n', hn'⟩ := htraverses
  have hall : all = pages ca dir pgno subno := by
    have hwalk := (hn' (max n n') (le_max_right n n')).symm.trans (hn (max n n') (le_max_left n n') fun _ _ => false)
    rw [offer_all, offer_all, hs] at hwalk
    exact congrArg Prod.snd (Option.some.inj hwalk)
  obtain ⟨hbehind, -⟩ := round_startsOut (s := subno) hdir ⟨hdown, hsome, habove⟩
  rw [hall, hplace, pages, round, hbehind, List.nil_append, List.filterMap_append] at hpair
  -- the highest subpage of the start's number comes after the page with the other number
  obtain ⟨f, hf, hfpage, hfhi⟩ := h.valid_entry (x := ((pgno : ℤ), 0)) ⟨le_refl 0, by
    have hhi := hi_nonneg ca pgno
    dsimp only
    omega⟩
  have hround : ∀ g ∈ ca.entries, g.place ∈ elsewhere ca dir pgno ∨ g.place ∈ upTo ca dir pgno subno := fun g hg => by
    have hmem := (h.mem_round (s := subno) hlast hdir hhigh').mpr (h.place_valid hg)
    rw [round, hbehind, List.nil_append] at hmem
    exact List.mem_append.mp hmem
  have hpages : ∀ g ∈ ca.entries, itemAt ca g.place = some g := fun g hg =>
    (itemAt_iff h hnew (h.place_valid hg)).mpr ⟨hg, rfl⟩
  have hein : e.place ∈ elsewhere ca dir pgno := (hround e he).resolve_right fun hno => by
    have hpage := (mem_upTo hdir hno).1
    have hstored := h.entry_stored hf
    have hge := hstored.pgno_ge
    rw [ring_ringIndex (by dsimp only at hfpage; omega) hhigh'] at hpage
    exact hother (Int.ofNat_inj.mp hpage)
  have hfin : f.place ∈ upTo ca dir pgno subno := (hround f hf).resolve_left fun hno => by
    obtain ⟨-, k, hk, hpage⟩ := (mem_elsewhere hdir).mp hno
    exact elsewhere_page hdir hlow' hhigh' hk (hpage.symm.trans hfpage)
  have hbefore := (List.pairwise_append.mp hpair).2.2 e (List.mem_filterMap.mpr ⟨_, hein, hpages e he⟩) f
    (List.mem_filterMap.mpr ⟨_, hfin, hpages f hf⟩)
  have hother' : (e.pgno : ℤ) ≠ pgno := fun hno => hother (by exact_mod_cast hno)
  unfold Before Ahead lexLt VtPage.place at hbefore
  simp only [hdown, if_true] at hbefore
  dsimp only at hfpage hfhi
  omega

theorem traverses_iff (h : CacheInv ca) (hlast : ∀ e ∈ ca.entries, e.pgno ≠ 0x9ff) (hdir : dir = 1 ∨ dir = -1)
    (hlow : 1 ≤ pgno) (hhigh : pgno ≤ 0x9ff) (hsub : 0 ≤ subno) :
    (∀ func, Traverses ca pgno subno dir func) ↔ NewestAny ca ∧ ¬StartsAbove ca pgno subno dir := by
  constructor
  · intro htraverses
    have hnew := (htraverses fun _ _ => false).newestAny
    exact ⟨hnew, not_startsAbove h hnew hlast hdir hlow hhigh hsub (htraverses _)⟩
  · rintro ⟨hnew, habove⟩ func
    obtain ⟨n, hn⟩ := foreachPg_eq h hnew hlast hdir hlow hhigh hsub
    exact ⟨_, pages_perm h hnew hlast hdir (by omega) (by omega) (h.startSubno_nonneg hsub),
      pages_before h hnew hlast hdir hlow hhigh hsub habove, n, fun fuel hfuel => hn fuel hfuel func⟩

end Condition

theorem CacheRun.pgno_ne {text : ℕ → Fin 25 → Fin 40 → UInt8} {room : ℕ → Bool} {ca : Cache} {log : List Touch}
    (h : CacheRun text room ca log) : ∀ e ∈ ca.entries, e.pgno ≠ 0x9ff := by
  intro e he hno
  obtain ⟨-, hremembers⟩ := h.inv
  have hall : ∀ key ∈ helpKeys, key.1 ≠ 0x9ff := by decide
  rcases (hremembers.there e.key).mp ⟨e, mem_entries.mp he, rfl⟩ with hput | hhelp
  · have hle := hremembers.puts e.key hput
    have hpgno : e.key.1 = 0x9ff := hno
    omega
  · exact hall e.key hhelp.1 hno

/-- **PROVED**: after every run of operations, the loop offers all pages in cyclic order from just after the start,
each once, exactly if a subpage with the wildcard's number is the newest of its page number and the start does not lie
above the subpages of its page number. -/
theorem foreachPg_iff {text : ℕ → Fin 25 → Fin 40 → UInt8} {room : ℕ → Bool} {ca : Cache} {log : List Touch}
    (h : CacheRun text room ca log) {pgno : ℕ} {subno dir : ℤ} (hlow : 1 ≤ pgno) (hhigh : pgno ≤ 0x9ff)
    (hsub : 0 ≤ subno) (hdir : dir = 1 ∨ dir = -1) :
    (∀ func, Traverses ca pgno subno dir func) ↔ NewestAny ca ∧ ¬StartsAbove ca pgno subno dir :=
  traverses_iff h.inv.1 h.pgno_ne hdir hlow hhigh hsub

/-! ### A page with the number of the wildcard -/

/-- Subpage 1 of page 100. -/
def firstPage : VtPage := ⟨0x100, 1, 0, 0, 0, 0, fun _ _ => 0, 0, []⟩

/-- Subpage 2 of page 100. -/
def secondPage : VtPage := ⟨0x100, 2, 0, 0, 0, 0, fun _ _ => 0, 0, []⟩

/-- Page 234. -/
def laterPage : VtPage := ⟨0x234, 0, 0, 0, 0, 0, fun _ _ => 0, 0, []⟩

def threePages : Cache := ((emptyCache.insert firstPage 0x100).insert laterPage 0x234).insert secondPage 0x100

/-- Subpage 3f7f of page 100. -/
def wildcardPage : VtPage := ⟨0x100, anySub, 0, 0, 0, 0, fun _ _ => 0, 0, []⟩

theorem emptyCache_run : CacheRun (fun _ _ _ => 0) (fun _ => false) emptyCache [] := CacheRun.opened rfl

theorem firstPage_allowed : (CacheOp.put firstPage true).Allowed := ⟨⟨by decide, by decide, by decide, by decide⟩, by decide⟩

theorem wildcardPage_allowed : (CacheOp.put wildcardPage true).Allowed :=
  ⟨⟨by decide, by decide, by decide, by decide⟩, by decide⟩

theorem threePages_run :
    CacheRun (fun _ _ _ => 0) (fun _ => false) threePages [.put secondPage.key, .put laterPage.key, .put firstPage.key] := by
  have hfirst : cacheStep emptyCache (.put firstPage true)
      = some (emptyCache.insert firstPage 0x100, some firstPage) := rfl
  have hlater : cacheStep (emptyCache.insert firstPage 0x100) (.put laterPage true)
      = some ((emptyCache.insert firstPage 0x100).insert laterPage 0x234, some laterPage) := rfl
  have hsecond : cacheStep ((emptyCache.insert firstPage 0x100).insert laterPage 0x234) (.put secondPage true)
      = some (threePages, some secondPage) := rfl
  have hallowed : (CacheOp.put laterPage true).Allowed := ⟨⟨by decide, by decide, by decide, by decide⟩, by decide⟩
  have hallowed' : (CacheOp.put secondPage true).Allowed := ⟨⟨by decide, by decide, by decide, by decide⟩, by decide⟩
  exact ((emptyCache_run.op firstPage_allowed hfirst).op hallowed hlater).op hallowed' hsecond

theorem wildcardPage_run : CacheRun (fun _ _ _ => 0) (fun _ => false)
    ((emptyCache.insert wildcardPage 0x100).insert firstPage 0x100) [.put firstPage.key, .put wildcardPage.key] := by
  have hput : cacheStep emptyCache (.put wildcardPage true)
      = some (emptyCache.insert wildcardPage 0x100, some wildcardPage) := rfl
  have hput' : cacheStep (emptyCache.insert wildcardPage 0x100) (.put firstPage true)
      = some ((emptyCache.insert wildcardPage 0x100).insert firstPage 0x100, some firstPage) := rfl
  exact (emptyCache_run.op wildcardPage_allowed hput).op firstPage_allowed hput'

/-- With three pages of two page numbers in it, the cache is traversed from the middle, in both directions. -/
theorem foreachPg_iff_threePages : NewestAny threePages ∧ (∀ func, Traverses threePages 0x100 1 1 func) ∧
    ∀ func, Traverses threePages 0x100 1 (-1) func := by
  have hnewest : NewestAny threePages := by
    intro e he hany
    rcases has_insert.mp (mem_entries.mp he) with rfl | he
    · exact absurd hany (by decide)
    · rcases has_insert.mp he with rfl | he
      · exact absurd hany (by decide)
      · rcases has_insert.mp he with rfl | hno
        · exact absurd hany (by decide)
        · exact absurd hno.choose_spec List.not_mem_nil
  have hbelow : ¬StartsAbove threePages 0x100 1 (-1) := by
    rintro ⟨-, -, -, hlt, -⟩
    exact absurd hlt (by decide)
  exact ⟨hnewest,
    (foreachPg_iff threePages_run (by decide) (by decide) (by decide) (Or.inl rfl)).mpr
      ⟨hnewest, fun hno => absurd hno.1 (by decide)⟩,
    (foreachPg_iff threePages_run (by decide) (by decide) (by decide) (Or.inr rfl)).mpr ⟨hnewest, hbelow⟩⟩

/-- Not every walk is in order: subpage 3f7f is never offered where subpage 1 was put after it. -/
theorem not_foreachPg_traverses : ¬∀ (text : ℕ → Fin 25 → Fin 40 → UInt8) (room : ℕ → Bool) (ca : Cache)
    (log : List Touch), CacheRun text room ca log → ∀ (pgno : ℕ) (subno dir : ℤ) (func : List VtPage → VtPage → Bool),
      1 ≤ pgno → pgno ≤ 0x9ff → 0 ≤ subno → dir = 1 ∨ dir = -1 → Traverses ca pgno subno dir func := by
  intro hall
  have hrun := wildcardPage_run
  obtain ⟨hnew, -⟩ := (traverses_iff hrun.inv.1 hrun.pgno_ne (Or.inl rfl) (by decide) (by decide) (by decide)).mp
    fun func => hall _ _ _ _ hrun 0x100 1 1 func (by decide) (by decide) (by decide) (Or.inl rfl)
  have hmem : wildcardPage ∈ ((emptyCache.insert wildcardPage 0x100).insert firstPage 0x100).entries :=
    mem_entries.mpr (has_insert.mpr (Or.inr (has_insert.mpr (Or.inl rfl))))
  exact absurd (hnew wildcardPage hmem rfl) (by decide)

end BgtDvb.Alevt
