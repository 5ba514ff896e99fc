import BgtDvb.AlevtRenderers

/-!
# Searching in teletext pages

`search.c`: a page is made into lines of text for `regexec`, without the rows that double height hides, and what was
found there is a place on the page again.

* `convertRows_spec`, `convert_eq` — **PROVED**: the text and the table;
* `sought_iff` — **PROVED**: so it is exactly if the rows before hidden ones are those with the code for normal height,
  and the match does not begin at the end of a line.
-/

namespace BgtDvb.Alevt

open Mealy

/-! ### The text -/

/-- The local variables of `convert`. -/
structure ConvertVars where
  gfx : Bool
  hid : Bool

def ConvertVars.start : ConvertVars := ⟨false, false⟩

/-- The switch of `convert`. -/
def convertStep (v : ConvertVars) (ch : UInt8) : ConvertVars × UInt8 :=
  if ch ≤ 0x07 then ({ v with gfx := false }, 0x20)
  else if 0x10 ≤ ch ∧ ch ≤ 0x17 then ({ v with gfx := true }, 0x20)
  else if ch = 0x0c then ({ v with hid := true }, 0x20)
  else if ch = 0x7f then (v, 0x2a)
  else if 0x20 ≤ ch ∧ ch ≤ 0x7e then (v, if v.gfx = true ∧ ch ≠ 0x20 ∧ ch &&& 0xa0 = 0x20 then 0x23 else ch)
  else if 0xa0 ≤ ch then (v, ch)
  else (v, 0x20)

def convertRow (vtp : VtPage) (y : ℕ) : List UInt8 := outputs convertStep .start (vtp.row y)

/-- The loop of `convert` over `n` rows from `y` on: what goes to `buf` and to `line`. -/
def convertRows (vtp : VtPage) : ℕ → ℕ → Bool → List UInt8 × List ℕ
  | 0, y, _ => ([0], [y])
  | n + 1, y, hid =>
    if hid = false then
      let rest := convertRows vtp n (y + 1) (finish convertStep .start (vtp.row y)).hid
      (convertRow vtp y ++ 0x0a :: rest.1, y :: rest.2)
    else convertRows vtp n (y + 1) false

/-- `convert` -/
def convert (vtp : VtPage) : List UInt8 × List ℕ := convertRows vtp 24 1 false

def stringOf (buf : List UInt8) : List UInt8 := buf.takeWhile (· ≠ 0)

/-- The place in `struct search`. -/
structure Place where
  y : ℕ
  x : ℤ
  len : ℤ

/-- `search_pg`; `regexec` finds the begin and the end of a match in a text. -/
def searchPg (regexec : List UInt8 → Option (ℤ × ℤ)) (s : Place) (vtp : VtPage) : Place × ℤ :=
  match regexec (stringOf (convert vtp).1) with
  | none => (s, 0)
  | some (so, eo) =>
    if 0 ≤ so then
      let x := so % 41
      let len := eo - so
      (⟨(convert vtp).2.getD (so / 41).toNat 0, x, if x + len > 40 then 40 - x else len⟩, 1)
    else ({ s with len := 0 }, 1)

/-! ### What the text is -/

/-- The rows behind which `convert` leaves one out. -/
def VtPage.searchDoubles (vtp : VtPage) (y : ℕ) : Bool := 1 ≤ y ∧ 0x0c ∈ vtp.row y

section Text

variable {vtp : VtPage}

theorem convertRow_length {y : ℕ} (hy : y < 25) : (convertRow vtp y).length = 40 := by
  unfold convertRow VtPage.row
  rw [outputs_length, dif_pos hy]
  exact List.length_ofFn

theorem convertStep_char (v : ConvertVars) (ch : UInt8) :
    (convertStep v ch).2 ≠ 0x0a ∧ (convertStep v ch).2 ≠ 0 := by
  have hlow : ∀ c : UInt8, 0x20 ≤ c → c ≠ 0x0a ∧ c ≠ 0 := by
    intro c hc
    constructor
    · intro hno
      subst hno
      exact absurd hc (by decide)
    · intro hno
      subst hno
      exact absurd hc (by decide)
  apply hlow
  unfold convertStep
  split
  · exact (by decide : (0x20 : UInt8) ≤ 0x20)
  · split
    · exact (by decide : (0x20 : UInt8) ≤ 0x20)
    · split
      · exact (by decide : (0x20 : UInt8) ≤ 0x20)
      · split
        · exact (by decide : (0x20 : UInt8) ≤ 0x2a)
        · split
          next hch =>
            show (0x20 : UInt8) ≤ if _ then 0x23 else ch
            split
            · exact (by decide : (0x20 : UInt8) ≤ 0x23)
            · exact hch.1
          next =>
            split
            next hch => exact UInt8.le_trans (by decide : (0x20 : UInt8) ≤ 0xa0) hch
            · exact (by decide : (0x20 : UInt8) ≤ 0x20)

theorem convertRow_char {y : ℕ} : ∀ c ∈ convertRow vtp y, c ≠ 0x0a ∧ c ≠ 0 := by
  have hall : ∀ (l : List UInt8) (v : ConvertVars), ∀ c ∈ outputs convertStep v l, c ≠ 0x0a ∧ c ≠ 0 := by
    intro l
    induction l with
    | nil =>
      intro v c hc
      exact absurd hc List.not_mem_nil
    | cons ch l ih =>
      intro v c hc
      rcases List.mem_cons.mp hc with heq | hc
      · rw [heq]
        exact convertStep_char v ch
      · exact ih _ c hc
  exact hall _ _

theorem convertStep_hid (v : ConvertVars) (ch : UInt8) :
    (convertStep v ch).1.hid = (v.hid || decide (ch = 0x0c)) := by
  by_cases hc : ch = 0x0c
  · subst hc
    show true = (v.hid || true)
    rw [Bool.or_true]
  · rw [decide_eq_false hc, Bool.or_false]
    unfold convertStep
    rw [if_neg hc]
    simp only [apply_ite Prod.fst, apply_ite ConvertVars.hid, ite_self]

theorem convertRow_hid {y : ℕ} (hy : 1 ≤ y) :
    (finish convertStep .start (vtp.row y)).hid = vtp.searchDoubles y := by
  have hrun : ∀ (l : List UInt8) (v : ConvertVars),
      (finish convertStep v l).hid = (v.hid || decide (0x0c ∈ l)) := by
    intro l
    induction l with
    | nil =>
      intro v
      rw [decide_eq_false List.not_mem_nil, Bool.or_false]
      rfl
    | cons c l ih =>
      intro v
      show (finish convertStep (convertStep v c).1 l).hid = _
      rw [ih, convertStep_hid, Bool.or_assoc, ← Bool.decide_or]
      congr 1
      rw [decide_eq_decide, List.mem_cons, eq_comm]
  rw [hrun]
  show (false || decide (0x0c ∈ vtp.row y)) = decide (1 ≤ y ∧ 0x0c ∈ vtp.row y)
  rw [Bool.false_or]
  simp [hy]

/-- The rows from `y` on that `convert` takes. -/
def VtPage.taken (vtp : VtPage) (y n : ℕ) : List ℕ :=
  (List.range' y n).filter fun i => !hides vtp.searchDoubles i

def convertLine (vtp : VtPage) (y : ℕ) : List UInt8 := convertRow vtp y ++ [0x0a]

theorem convertRows_spec (n y : ℕ) (hy : 1 ≤ y) :
    convertRows vtp n y (hides vtp.searchDoubles y) =
      ((vtp.taken y n).flatMap (convertLine vtp) ++ [0], vtp.taken y n ++ [y + n]) := by
  induction n generalizing y with
  | zero => rfl
  | succ n ih =>
    have hnext : hides vtp.searchDoubles (y + 1) = (!hides vtp.searchDoubles y && vtp.searchDoubles y) := rfl
    have hend : y + 1 + n = y + (n + 1) := by omega
    have htaken : vtp.taken y (n + 1) =
        if hides vtp.searchDoubles y = false then y :: vtp.taken (y + 1) n else vtp.taken (y + 1) n := by
      unfold VtPage.taken
      rw [List.range'_succ, List.filter_cons]
      cases hides vtp.searchDoubles y <;> rfl
    have hrest := ih (y + 1) (by omega)
    rw [hend] at hrest
    unfold convertRows
    cases hhid : hides vtp.searchDoubles y with
    | false =>
      rw [hhid] at hnext
      rw [hnext] at hrest
      have hrow : (finish convertStep .start (vtp.row y)).hid = (!false && vtp.searchDoubles y) := convertRow_hid hy
      rw [if_pos rfl, hrow, hrest, htaken, hhid, if_pos rfl, List.flatMap_cons]
      simp only [convertLine, List.append_assoc, List.cons_append, List.nil_append]
    | true =>
      rw [hhid] at hnext
      have hshown : hides vtp.searchDoubles (y + 1) = false := hnext
      rw [hshown] at hrest
      rw [if_neg Bool.noConfusion, hrest, htaken, hhid, if_neg Bool.noConfusion]

theorem convert_eq : convert vtp =
    ((vtp.taken 1 24).flatMap (convertLine vtp) ++ [0], vtp.taken 1 24 ++ [25]) := by
  have hfirst : hides vtp.searchDoubles 1 = false := by
    show (!false && decide (1 ≤ 0 ∧ 0x0c ∈ vtp.row 0)) = false
    simp
  have hspec := @convertRows_spec vtp 24 1 le_rfl
  rw [hfirst] at hspec
  exact hspec

theorem taken_lt {y : ℕ} (hy : y ∈ vtp.taken 1 24) : 1 ≤ y ∧ y < 25 := by
  have hrange := List.mem_range'_1.mp (List.mem_of_mem_filter hy)
  omega

theorem convertLine_length {y : ℕ} (hy : y ∈ vtp.taken 1 24) : (convertLine vtp y).length = 41 := by
  unfold convertLine
  rw [List.length_append, convertRow_length (taken_lt hy).2]
  rfl

theorem stringOf_convert : stringOf (convert vtp).1 = (vtp.taken 1 24).flatMap (convertLine vtp) := by
  rw [convert_eq]
  unfold stringOf
  rw [List.takeWhile_append_of_pos]
  · simp
  · intro c hc
    obtain ⟨y, -, hmem⟩ := List.mem_flatMap.mp hc
    have hne : c ≠ 0 := by
      rcases List.mem_append.mp hmem with hmem | hmem
      · exact (convertRow_char c hmem).2
      · rw [List.mem_singleton.mp hmem]
        decide
    exact decide_eq_true hne

end Text

/-! ### The place of a match -/

/-- The rows 1 to 24 that are seen of a formatted page. -/
def seenRows (pg : FmtPage) : List ℕ := (List.range' 1 24).filter fun y => !pg.hid.getLsbD y

def stretch (text : List UInt8) (so eo : ℤ) : List UInt8 := (text.drop so.toNat).take (eo - so).toNat

/-- `regexec` finds matches inside of the text. -/
def FindsInside (regexec : List UInt8 → Option (ℤ × ℤ)) : Prop :=
  ∀ text so eo, regexec text = some (so, eo) → 0 ≤ so ∧ so ≤ eo ∧ eo ≤ text.length

/-- A place on the page with the characters of a match, up to the end of the row. -/
structure PlaceOf (vtp : VtPage) (pg : FmtPage) (found : List UInt8) (s : Place) : Prop where
  row : s.y ∈ seenRows pg
  column : 0 ≤ s.x ∧ s.x < 40
  inside : 0 ≤ s.len ∧ s.x + s.len ≤ 40
  chars : ((convertRow vtp s.y).drop s.x.toNat).take s.len.toNat = found.takeWhile (· ≠ 0x0a)

/-- What is searched is what is seen, and what is found there is at its place on the page. -/
structure Sought (regexec : List UInt8 → Option (ℤ × ℤ)) (s : Place) (vtp : VtPage) (pg : FmtPage) : Prop where
  text : stringOf (convert vtp).1 = (seenRows pg).flatMap (convertLine vtp)
  table : (convert vtp).2 = seenRows pg ++ [25]
  buf : (convert vtp).1.length ≤ 25 * 41 + 1
  line : (convert vtp).2.length ≤ 25
  lookup : ∀ so eo, regexec (stringOf (convert vtp).1) = some (so, eo) → (so / 41).toNat < (convert vtp).2.length
  place : ∀ so eo, regexec (stringOf (convert vtp).1) = some (so, eo) → so < eo →
    PlaceOf vtp pg (stretch (stringOf (convert vtp).1) so eo) (searchPg regexec s vtp).1

section Match

variable {regexec : List UInt8 → Option (ℤ × ℤ)} {s : Place} {vtp : VtPage} {pg : FmtPage}

theorem drop_lines {f : ℕ → List UInt8} {w : ℕ} (ys : List ℕ) (hw : ∀ y ∈ ys, (f y).length = w) (i : ℕ) :
    (ys.flatMap f).drop (i * w) = (ys.drop i).flatMap f := by
  induction i generalizing ys with
  | zero => rw [Nat.zero_mul, List.drop_zero, List.drop_zero]
  | succ i ih =>
    cases ys with
    | nil => simp
    | cons y ys =>
      have hy : (f y).length = w := hw y List.mem_cons_self
      rw [List.flatMap_cons, List.drop_succ_cons, ← ih ys fun z hz => hw z (List.mem_cons_of_mem y hz),
        Nat.succ_mul, Nat.add_comm (i * w) w, ← List.drop_drop, ← hy, List.drop_left]

theorem flatMap_lines {f : ℕ → List UInt8} {w : ℕ} (ys : List ℕ) (hw : ∀ y ∈ ys, (f y).length = w) :
    (ys.flatMap f).length = ys.length * w := by
  induction ys with
  | nil => simp
  | cons y ys ih =>
    rw [List.flatMap_cons, List.length_append, hw y List.mem_cons_self,
      ih fun z hz => hw z (List.mem_cons_of_mem y hz), List.length_cons, Nat.succ_mul, Nat.add_comm]

theorem takeWhile_line {row rest : List UInt8} (hrow : ∀ c ∈ row, c ≠ 0x0a) (n : ℕ) :
    ((row ++ 0x0a :: rest).take n).takeWhile (· ≠ 0x0a) = row.take n := by
  induction row generalizing n with
  | nil =>
    cases n with
    | zero => rfl
    | succ n => simp
  | cons c row ih =>
    cases n with
    | zero => rfl
    | succ n =>
      have hc : c ≠ 0x0a := hrow c List.mem_cons_self
      show List.takeWhile _ (c :: (row ++ 0x0a :: rest).take n) = c :: row.take n
      rw [List.takeWhile_cons_of_pos (by simpa using hc), ih fun d hd => hrow d (List.mem_cons_of_mem c hd)]

theorem hides_eq_iff {d d' : ℕ → Bool} (n : ℕ) :
    (∀ y < n, 1 ≤ y → hides d y = hides d' y) ↔ ∀ y, y + 1 < n → hides d y = false → d y = d' y := by
  constructor
  · intro h y hy hshown
    have hnext : (!hides d y && d y) = (!hides d' y && d' y) := h (y + 1) hy (by omega)
    have hshown' : hides d' y = false := by
      cases y with
      | zero => rfl
      | succ y => exact (h (y + 1) (by omega) (by omega)).symm.trans hshown
    rw [hshown, hshown'] at hnext
    exact hnext
  · intro h y
    induction y with
    | zero =>
      intro _ hno
      omega
    | succ y ih =>
      intro hy _
      have hsame : hides d y = hides d' y := by
        cases y with
        | zero => rfl
        | succ y => exact ih (by omega) (by omega)
      show (!hides d y && d y) = (!hides d' y && d' y)
      cases hshown : hides d y with
      | false => rw [← hsame, hshown, h y hy hshown]
      | true => rw [← hsame, hshown, Bool.not_true, Bool.false_and, Bool.false_and]

/-- The rows with a row below that is left out are those with double height. -/
def SameDoubles (vtp : VtPage) : Prop :=
  ∀ y < 24, hides vtp.fmtDoubles y = false → vtp.fmtDoubles y = vtp.searchDoubles y

theorem seenRows_iff {reveal : Bool} {pg₀ : FmtPage} :
    vtp.taken 1 24 = seenRows (fmtPage reveal pg₀ vtp) ↔ SameDoubles vtp := by
  have hmem : ∀ y, y ∈ List.range' 1 24 ↔ y < 25 ∧ 1 ≤ y := by
    intro y
    rw [List.mem_range'_1]
    omega
  have hsame : vtp.taken 1 24 = seenRows (fmtPage reveal pg₀ vtp) ↔
      ∀ y < 25, 1 ≤ y → hides vtp.fmtDoubles y = hides vtp.searchDoubles y := by
    constructor
    · intro heq y hy hle
      have hiff : y ∈ vtp.taken 1 24 ↔ y ∈ seenRows (fmtPage reveal pg₀ vtp) := by rw [heq]
      unfold VtPage.taken seenRows at hiff
      rw [List.mem_filter, List.mem_filter, and_iff_right ((hmem y).mpr ⟨hy, hle⟩),
        and_iff_right ((hmem y).mpr ⟨hy, hle⟩), fmtPage_hid _ _ hy, Bool.eq_iff_iff.symm] at hiff
      exact (Bool.not_inj hiff).symm
    · intro h
      apply List.filter_congr
      intro y hy
      obtain ⟨hlt, hle⟩ := (hmem y).mp hy
      rw [fmtPage_hid _ _ hlt, h y hlt hle]
  rw [hsame, hides_eq_iff]
  unfold SameDoubles
  constructor
  · intro h y hy
    exact h y (by omega)
  · intro h y hy
    exact h y (by omega)

theorem table_iff {reveal : Bool} {pg₀ : FmtPage} :
    (convert vtp).2 = seenRows (fmtPage reveal pg₀ vtp) ++ [25] ↔ SameDoubles vtp := by
  rw [convert_eq, ← @seenRows_iff vtp reveal pg₀]
  exact List.append_left_inj [25]

/-- **The place of a match** that does not begin at the end of a line. -/
theorem placeOf_iff (hseen : vtp.taken 1 24 = seenRows pg) {so eo : ℤ}
    (hfound : regexec (stringOf (convert vtp).1) = some (so, eo)) (hso : 0 ≤ so) (hlt : so < eo)
    (heo : eo ≤ (stringOf (convert vtp).1).length) :
    PlaceOf vtp pg (stretch (stringOf (convert vtp).1) so eo) (searchPg regexec s vtp).1 ↔ so % 41 ≠ 40 := by
  have hplace : (searchPg regexec s vtp).1 = ⟨(convert vtp).2.getD (so / 41).toNat 0, so % 41,
      if so % 41 + (eo - so) > 40 then 40 - so % 41 else eo - so⟩ := by
    unfold searchPg
    rw [hfound]
    dsimp only
    rw [if_pos hso]
  have hwidth : ∀ y ∈ vtp.taken 1 24, (convertLine vtp y).length = 41 := fun y hy => convertLine_length hy
  rw [stringOf_convert, flatMap_lines _ hwidth] at heo
  -- the line in which the match begins, and the column
  obtain ⟨o, rfl⟩ := Int.eq_ofNat_of_zero_le hso
  have hrow : o / 41 < (vtp.taken 1 24).length := by omega
  obtain ⟨y, hy⟩ : ∃ y, (vtp.taken 1 24)[o / 41]? = some y := ⟨_, List.getElem?_eq_getElem hrow⟩
  have hmem : y ∈ vtp.taken 1 24 := List.mem_of_getElem? hy
  have hlook : (convert vtp).2.getD ((o : ℤ) / 41).toNat 0 = y := by
    have hdiv : ((o : ℤ) / 41).toNat = o / 41 := by omega
    rw [convert_eq, hdiv]
    show (vtp.taken 1 24 ++ [25]).getD (o / 41) 0 = y
    rw [List.getD_append _ _ _ _ hrow, List.getD_eq_getElem?_getD, hy]
    rfl
  have hmod : (o : ℤ) % 41 = (o % 41 : ℕ) := by omega
  have hcol : o % 41 < 41 := Nat.mod_lt _ (by decide)
  rw [hplace, hlook, hmod]
  constructor
  · intro h
    have hx := h.column.2
    dsimp only at hx
    omega
  · intro hne
    have hx : o % 41 < 40 := by omega
    have hlen : (convertRow vtp y).length = 40 := convertRow_length (taken_lt hmem).2
    -- the text from the match on
    have hdrop : ((vtp.taken 1 24).flatMap (convertLine vtp)).drop o =
        (convertRow vtp y).drop (o % 41) ++ 0x0a :: ((vtp.taken 1 24).drop (o / 41 + 1)).flatMap (convertLine vtp) := by
      have hsplit : o = o / 41 * 41 + o % 41 := by omega
      have hcons : (vtp.taken 1 24).drop (o / 41) = y :: (vtp.taken 1 24).drop (o / 41 + 1) := by
        rw [List.drop_eq_getElem_cons hrow]
        congr 1
        rw [List.getElem?_eq_getElem hrow] at hy
        exact Option.some.inj hy
      conv_lhs => rw [hsplit]
      rw [← List.drop_drop, drop_lines _ hwidth, hcons, List.flatMap_cons]
      unfold convertLine
      rw [List.append_assoc, List.drop_append_of_le_length (by omega)]
      rfl
    have hchars : ∀ n : ℕ, n = (eo - o).toNat ∨ 40 ≤ o % 41 + n ∧ o % 41 + (eo - o).toNat ≥ 40 →
        ((convertRow vtp y).drop (o % 41)).take n =
          (stretch ((vtp.taken 1 24).flatMap (convertLine vtp)) o eo).takeWhile (· ≠ 0x0a) := by
      intro n hn
      unfold stretch
      have hline : ∀ c ∈ (convertRow vtp y).drop (o % 41), c ≠ 0x0a :=
        fun c hc => (convertRow_char c (List.mem_of_mem_drop hc)).1
      rw [Int.toNat_natCast, hdrop, takeWhile_line hline]
      rcases hn with rfl | ⟨hle, hge⟩
      · rfl
      · have hrest : ((convertRow vtp y).drop (o % 41)).length = 40 - o % 41 := by rw [List.length_drop, hlen]
        rw [List.take_of_length_le (by omega), List.take_of_length_le (by omega)]
    refine ⟨hseen ▸ hmem, ⟨by dsimp only; omega, by dsimp only; omega⟩, ?_, ?_⟩
    · dsimp only
      split
      · omega
      · omega
    · rw [stringOf_convert]
      dsimp only
      rw [Int.toNat_natCast]
      apply hchars
      split
      · right
        omega
      · left
        rfl

end Match

/-- **PROVED**: what is searched is what is seen of the page, and a match is found at its place, exactly if of the
rows that are seen those with double height have the code for normal height, and a match that is not empty does not
begin at the end of a line. -/
theorem sought_iff {regexec : List UInt8 → Option (ℤ × ℤ)} (hinside : FindsInside regexec) (s : Place) (vtp : VtPage)
    (reveal : Bool) (pg : FmtPage) :
    Sought regexec s vtp (fmtPage reveal pg vtp) ↔ SameDoubles vtp ∧
      ∀ so eo, regexec (stringOf (convert vtp).1) = some (so, eo) → so < eo → so % 41 ≠ 40 := by
  have hcount : (vtp.taken 1 24).length ≤ 24 := (List.length_filter_le _ _).trans (List.length_range').le
  have hwidth : ∀ y ∈ vtp.taken 1 24, (convertLine vtp y).length = 41 := fun y hy => convertLine_length hy
  have hlength := flatMap_lines _ hwidth
  constructor
  · intro h
    have hsame : SameDoubles vtp := table_iff.mp h.table
    refine ⟨hsame, ?_⟩
    intro so eo hfound hlt
    obtain ⟨hso, -, heo⟩ := hinside _ so eo hfound
    exact (placeOf_iff (seenRows_iff.mpr hsame) hfound hso hlt heo).mp (h.place so eo hfound hlt)
  · intro h
    obtain ⟨hsame, hbegins⟩ := h
    have hseen := (@seenRows_iff vtp reveal pg).mpr hsame
    refine ⟨?_, table_iff.mpr hsame, ?_, ?_, ?_, ?_⟩
    · rw [stringOf_convert, hseen]
    · rw [convert_eq, List.length_append, hlength]
      show _ + 1 ≤ _
      omega
    · rw [convert_eq, List.length_append]
      show _ + 1 ≤ _
      omega
    · intro so eo hfound
      obtain ⟨hso, hle, heo⟩ := hinside _ so eo hfound
      rw [stringOf_convert, hlength] at heo
      rw [convert_eq, List.length_append]
      show _ < _ + 1
      omega
    · intro so eo hfound hlt
      obtain ⟨hso, -, heo⟩ := hinside _ so eo hfound
      exact (placeOf_iff hseen hfound hso hlt heo).mpr (hbegins so eo hfound hlt)

def findChar (c : UInt8) (text : List UInt8) : Option (ℤ × ℤ) :=
  (text.findIdx? (· = c)).map fun i : ℕ => ((i : ℤ), (i : ℤ) + 1)

theorem findChar_inside (c : UInt8) : FindsInside (findChar c) := by
  intro text so eo hfound
  obtain ⟨i, hi, hpair⟩ := Option.map_eq_some_iff.mp hfound
  obtain ⟨rfl, rfl⟩ := Prod.mk.inj hpair
  obtain ⟨hlt, -⟩ := List.findIdx?_eq_some_iff_getElem.mp hi
  omega

theorem onePage_doubles {bytes : List UInt8} (h : (bytes.all fun c => Used c) = true) {y : ℕ} (hy : y < 24) :
    (onePage 1 bytes).fmtDoubles y = decide (y ≠ 23 ∧ y = 1 ∧ 0x0d ∈ (onePage 1 bytes).row 1) ∧
      (onePage 1 bytes).searchDoubles y = decide (y = 1 ∧ 0x0c ∈ (onePage 1 bytes).row 1) := by
  have hblank : ∀ c : UInt8, c ≠ 0x20 → y ≠ 1 → c ∉ (onePage 1 bytes).row y := by
    intro c hc hne
    rw [onePage_blank (by omega) hne]
    exact notMem_blank hc
  constructor
  · by_cases hlast : y = 23
    · rw [hlast, fmtDoubles_last, decide_eq_false fun hno => hno.1 rfl]
    · rw [fmtDoubles_eq (numbered_onePage 1 h) (headerPlain_onePage (by decide) bytes) hlast]
      show decide (y < 24 ∧ 0x0d ∈ (onePage 1 bytes).row y) = _
      rw [decide_eq_decide]
      by_cases hone : y = 1
      · rw [hone]
        simp
      · exact iff_of_false (fun hno => hblank 0x0d (by decide) hone hno.2) fun hno => hone hno.2.1
  · show decide (1 ≤ y ∧ 0x0c ∈ (onePage 1 bytes).row y) = _
    rw [decide_eq_decide]
    by_cases hone : y = 1
    · rw [hone]
      simp
    · exact iff_of_false (fun hno => hblank 0x0c (by decide) hone hno.2) fun hno => hone hno.1

/-- A row in double height, and an `A` in it. -/
theorem sought_iff_tall : Sought (findChar 0x41) ⟨0, 0, 0⟩ (onePage 1 [0x0d, 0x41, 0x0c])
    (fmtPage false emptyPage (onePage 1 [0x0d, 0x41, 0x0c])) := by
  have hused : ([0x0d, 0x41, 0x0c].all fun c : UInt8 => Used c) = true := by decide
  have hcodes : 0x0d ∈ (onePage 1 [0x0d, 0x41, 0x0c]).row 1 ∧ 0x0c ∈ (onePage 1 [0x0d, 0x41, 0x0c]).row 1 := by
    rw [onePage_row (by decide)]
    decide
  apply (sought_iff (findChar_inside 0x41) ⟨0, 0, 0⟩ _ false emptyPage).mpr
  constructor
  · intro y hy _
    obtain ⟨hfmt, hsearch⟩ := onePage_doubles hused hy
    rw [hfmt, hsearch, decide_eq_decide, and_iff_left hcodes.1, and_iff_left hcodes.2]
    omega
  · intro so eo hfound _
    have hplace : findChar 0x41 (stringOf (convert (onePage 1 [0x0d, 0x41, 0x0c])).1) = some (1, 2) := by
      decide +kernel
    have hso : (1, 2) = (so, eo) := Option.some.inj (hplace.symm.trans hfound)
    obtain ⟨rfl, -⟩ := Prod.mk.inj hso
    decide

/-- A page with double height in row 1: row 2 is hidden, but it is searched. -/
theorem not_sought_double : ¬∀ regexec, FindsInside regexec → ∀ s vtp reveal pg,
    Sought regexec s vtp (fmtPage reveal pg vtp) := by
  intro h
  have hsought := h (findChar 0x41) (findChar_inside 0x41) ⟨0, 0, 0⟩ (onePage 1 [0x0d]) false emptyPage
  have hsame : SameDoubles (onePage 1 [0x0d]) := table_iff.mp hsought.table
  have hused : ([0x0d].all fun c : UInt8 => Used c) = true := by decide
  have hcodes : 0x0d ∈ (onePage 1 [0x0d]).row 1 ∧ 0x0c ∉ (onePage 1 [0x0d]).row 1 := by
    rw [onePage_row (by decide)]
    decide
  have hshown : hides (onePage 1 [0x0d]).fmtDoubles 1 = false := by
    show (!false && (onePage 1 [0x0d]).fmtDoubles 0) = false
    rw [(onePage_doubles hused (by decide)).1]
    rfl
  have hdiffer := hsame 1 (by decide) hshown
  rw [(onePage_doubles hused (by decide)).1, (onePage_doubles hused (by decide)).2, decide_eq_decide] at hdiffer
  exact hcodes.2 (hdiffer.mp ⟨by decide, rfl, hcodes.1⟩).2

end BgtDvb.Alevt
