import Mathlib

/-!
# The Gregorian calendar

Days are numbered from the first of January of the year 0, on both sides of it.  Months are counted from
0, as the C library does, and a month outside its year belongs to a year before or after.

* `yearStart_succ` — **PROVED**: years have 365 or 366 days;
* `ofDay_number` — **PROVED**: the date of a day has its number;
* `marchStart`, `dayNumber_march` — **PROVED**: in a year that begins in March, the months begin where
  they do in every year.

Nothing here names a particular data format.
-/

namespace BgtDvb.Calendar

/-- A leap year. -/
def leap (y : ℤ) : Bool := decide (y % 4 = 0 ∧ (y % 100 ≠ 0 ∨ y % 400 = 0))

/-- Days before a year. -/
def yearStart (y : ℤ) : ℤ := 365 * y + (y + 3) / 4 - (y + 99) / 100 + (y + 399) / 400

theorem yearStart_succ (y : ℤ) : yearStart (y + 1) = yearStart y + if leap y = true then 366 else 365 := by
  unfold yearStart leap
  split_ifs with h
  · have hy := of_decide_eq_true h
    omega
  · have hy := of_decide_eq_false (Bool.not_eq_true _ ▸ h)
    omega

def monthLength (leap : Bool) : ℕ → ℤ
  | 1 => if leap = true then 29 else 28
  | 3 | 5 | 8 | 10 => 30
  | _ => 31

/-- Days before a month, in its year. -/
def monthStart (leap : Bool) : ℕ → ℤ
  | 0 => 0
  | m + 1 => monthStart leap m + monthLength leap m

/-- The number of a day. -/
def dayNumber (y mon mday : ℤ) : ℤ :=
  yearStart (y + mon / 12) + monthStart (leap (y + mon / 12)) (mon % 12).toNat + (mday - 1)

theorem dayNumber_twelve (y mon mday : ℤ) : dayNumber (y + 1) (mon - 12) mday = dayNumber y mon mday := by
  have hyear : y + 1 + (mon - 12) / 12 = y + mon / 12 := by omega
  have hmon : (mon - 12) % 12 = mon % 12 := by omega
  rw [dayNumber, dayNumber, hyear, hmon]

/-! ### Dates -/

/-- A date. -/
structure Date where
  year : ℤ
  month : ℕ
  day : ℤ
  month_lt : month < 12
  day_pos : 1 ≤ day
  day_le : day ≤ monthLength (leap year) month

def Date.number (d : Date) : ℤ := dayNumber d.year d.month d.day

/-- The year of a day: the mean year is at most one off. -/
def yearOf (n : ℤ) : ℤ :=
  let y := 400 * n / 146097
  if n < yearStart y then y - 1 else if yearStart (y + 1) ≤ n then y + 1 else y

theorem yearOf_spec (n : ℤ) : yearStart (yearOf n) ≤ n ∧ n < yearStart (yearOf n + 1) := by
  unfold yearOf
  dsimp only
  split_ifs with hlow hhigh
  · refine ⟨?_, by rwa [sub_add_cancel]⟩
    unfold yearStart
    omega
  · refine ⟨hhigh, ?_⟩
    unfold yearStart
    omega
  · exact ⟨not_lt.mp hlow, not_le.mp hhigh⟩

/-- The last month up to `m` that begins on the day of the year or before. -/
def monthUpTo (leap : Bool) (yday : ℤ) : ℕ → ℕ
  | 0 => 0
  | m + 1 => if monthStart leap (m + 1) ≤ yday then m + 1 else monthUpTo leap yday m

theorem monthUpTo_spec (leap : Bool) {yday : ℤ} (hyday : 0 ≤ yday) (m : ℕ) (hm : yday < monthStart leap (m + 1)) :
    monthUpTo leap yday m ≤ m ∧ monthStart leap (monthUpTo leap yday m) ≤ yday ∧
      yday < monthStart leap (monthUpTo leap yday m + 1) := by
  induction m with
  | zero => exact ⟨le_rfl, hyday, hm⟩
  | succ m ih =>
    unfold monthUpTo
    split_ifs with hstart
    · exact ⟨le_rfl, hstart, hm⟩
    · obtain ⟨hle, hlow, hhigh⟩ := ih (not_le.mp hstart)
      exact ⟨hle.trans m.le_succ, hlow, hhigh⟩

theorem monthStart_twelve (leap : Bool) : monthStart leap 12 = if leap = true then 366 else 365 := by
  cases leap <;> rfl

theorem month_spec (n : ℤ) :
    let y := yearOf n
    let m := monthUpTo (leap y) (n - yearStart y) 11
    m < 12 ∧ monthStart (leap y) m ≤ n - yearStart y ∧ n - yearStart y < monthStart (leap y) m + monthLength (leap y) m := by
  intro y m
  obtain ⟨hlow, hhigh⟩ := yearOf_spec n
  have hend : n - yearStart y < monthStart (leap y) 12 := by
    rw [monthStart_twelve]
    rw [yearStart_succ] at hhigh
    exact sub_lt_iff_lt_add'.mpr hhigh
  obtain ⟨hle, hstart, hnext⟩ := monthUpTo_spec (leap y) (sub_nonneg.mpr hlow) 11 hend
  exact ⟨Nat.lt_succ_of_le hle, hstart, hnext⟩

/-- The date of a day. -/
def ofDay (n : ℤ) : Date where
  year := yearOf n
  month := monthUpTo (leap (yearOf n)) (n - yearStart (yearOf n)) 11
  day := n - yearStart (yearOf n) - monthStart (leap (yearOf n)) (monthUpTo (leap (yearOf n)) (n - yearStart (yearOf n)) 11) + 1
  month_lt := (month_spec n).1
  day_pos := by
    have hstart := (month_spec n).2.1
    omega
  day_le := by
    have hnext := (month_spec n).2.2
    omega

theorem dayNumber_natCast (y : ℤ) {m : ℕ} (hm : m < 12) (mday : ℤ) :
    dayNumber y m mday = yearStart y + monthStart (leap y) m + (mday - 1) := by
  have hdiv : (m : ℤ) / 12 = 0 := by omega
  have hmod : ((m : ℤ) % 12).toNat = m := by omega
  rw [dayNumber, hdiv, hmod, add_zero]

/-- **The date of a day has its number.** -/
theorem ofDay_number (n : ℤ) : (ofDay n).number = n := by
  have hyear : (ofDay n).year = yearOf n := rfl
  have hday : (ofDay n).day = n - yearStart (yearOf n) - monthStart (leap (yearOf n)) (ofDay n).month + 1 := rfl
  rw [Date.number, dayNumber_natCast _ (ofDay n).month_lt, hyear, hday]
  ring

/-! ### Years that begin in March -/

/-- The first of March. -/
def marchStart (y : ℤ) : ℤ := 365 * y + y / 4 - y / 100 + y / 400 + 60

theorem marchStart_eq (y : ℤ) : marchStart y = yearStart y + if leap y = true then 60 else 59 := by
  unfold marchStart yearStart leap
  split_ifs with h
  · have hy := of_decide_eq_true h
    omega
  · have hy := of_decide_eq_false (Bool.not_eq_true _ ▸ h)
    omega

theorem marchStart_succ (y : ℤ) : marchStart (y + 1) = marchStart y + if leap (y + 1) = true then 366 else 365 := by
  rw [marchStart_eq, marchStart_eq, yearStart_succ]
  split_ifs <;> ring

theorem monthStart_march (leap : Bool) {m : ℕ} (hlow : 2 ≤ m) (hhigh : m < 12) :
    monthStart leap m = (if leap = true then 60 else 59) + (153 * ((m : ℤ) - 2) + 2) / 5 := by
  interval_cases m <;> cases leap <;> rfl

/-- **The months from March to February**, in a year that begins in March. -/
theorem dayNumber_march (y : ℤ) {m : ℕ} (hlow : 2 ≤ m) (hhigh : m < 14) (mday : ℤ) :
    dayNumber y m mday = marchStart y + (153 * ((m : ℤ) - 2) + 2) / 5 + (mday - 1) := by
  by_cases hm : m < 12
  · rw [dayNumber_natCast y hm, monthStart_march _ hlow hm, marchStart_eq]
    ring
  · obtain ⟨k, rfl⟩ := Nat.exists_eq_add_of_le' (not_lt.mp hm)
    have hk : k < 2 := by omega
    have hshift : dayNumber y ((k + 12 : ℕ) : ℤ) mday = dayNumber (y + 1) (k : ℤ) mday := by
      rw [← dayNumber_twelve]
      push_cast
      rw [add_sub_cancel_right]
    have hmarch : yearStart (y + 1) = marchStart y + 306 := by
      rw [yearStart_succ, marchStart_eq]
      split_ifs <;> ring
    rw [hshift, dayNumber_natCast _ (by omega), hmarch]
    interval_cases k
    · show marchStart y + 306 + 0 + (mday - 1) = marchStart y + 306 + (mday - 1)
      ring
    · show marchStart y + 306 + (0 + 31) + (mday - 1) = marchStart y + 337 + (mday - 1)
      ring

/-- The year of a date that begins in March. -/
def Date.marchYear (d : Date) : ℤ := if d.month < 2 then d.year - 1 else d.year

/-- The month of a date in such a year, from 2 for March to 13 for February. -/
def Date.marchMonth (d : Date) : ℕ := if d.month < 2 then d.month + 12 else d.month

theorem Date.marchMonth_bounds (d : Date) : 2 ≤ d.marchMonth ∧ d.marchMonth < 14 := by
  have hlt := d.month_lt
  unfold Date.marchMonth
  split_ifs <;> omega

theorem Date.number_march (d : Date) :
    d.number = marchStart d.marchYear + (153 * ((d.marchMonth : ℤ) - 2) + 2) / 5 + (d.day - 1) := by
  rw [← dayNumber_march _ d.marchMonth_bounds.1 d.marchMonth_bounds.2, Date.number]
  unfold Date.marchYear Date.marchMonth
  split_ifs
  · have hshift := dayNumber_twelve (d.year - 1) ((d.month : ℤ) + 12) d.day
    rw [sub_add_cancel, add_sub_cancel_right] at hshift
    rw [hshift]
    push_cast
    rfl
  · rfl

theorem monthLength_le (leap : Bool) (m : ℕ) : monthLength leap m ≤ 31 := by
  unfold monthLength
  split <;> first | decide | (split_ifs <;> decide)

theorem Date.number_bounds (d : Date) : marchStart d.marchYear ≤ d.number ∧ d.number < marchStart (d.marchYear + 1) := by
  obtain ⟨hlow, hhigh⟩ := d.marchMonth_bounds
  have hpos := d.day_pos
  have hle := d.day_le
  have hmonths : 0 ≤ (153 * ((d.marchMonth : ℤ) - 2) + 2) / 5 := by omega
  rw [d.number_march, marchStart_succ]
  refine ⟨by linarith, ?_⟩
  by_cases hfeb : d.marchMonth = 13
  · have hmonth : d.month = 1 := by
      have hlt := d.month_lt
      unfold Date.marchMonth at hfeb
      split_ifs at hfeb <;> omega
    have hyear : d.marchYear + 1 = d.year := by
      unfold Date.marchYear
      rw [if_pos (by omega), sub_add_cancel]
    rw [hmonth] at hle
    rw [hyear, hfeb]
    have hlen : d.day ≤ if leap d.year = true then 29 else 28 := hle
    split_ifs at hlen ⊢ <;> omega
  · have hlen := hle.trans (monthLength_le _ _)
    split_ifs <;> omega

end BgtDvb.Calendar
