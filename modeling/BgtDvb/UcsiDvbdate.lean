import BgtDvb.Lib.Calendar
import BgtDvb.Lib.Words
import BgtDvb.UcsiBcd

/-!
# Dates of DVB tables

`lib/libucsi/dvb/types.c` converts between the time of the system and the five bytes of a DVB date: the
modified Julian day and the packed decimal time of day, in UTC.  Days come from the formulas of the
standard, whose products are rationals here, cut to integers.

* `mjdOf_eq`, `dateOf_number` — **PROVED**: the formulas are right from March 1900 on;
* `dvbdate_roundtrip_iff` — **PROVED**: which times come back.
-/

namespace BgtDvb.Ucsi.Dates

open BgtDvb.Calendar BgtDvb.Ucsi.Bcd

/-! ### The C library -/

/-- `struct tm`: years count from 1900, months from 0. -/
structure Tm where
  year : ℤ
  mon : ℤ
  mday : ℤ
  hour : ℤ
  min : ℤ
  sec : ℤ

def epoch : ℤ := 719528

/-- `gmtime_r` -/
def gmtime (unixtime : ℤ) : Tm :=
  let d := ofDay (epoch + unixtime / 86400)
  let s := unixtime % 86400
  ⟨d.year - 1900, d.month, d.day, s / 3600, s % 3600 / 60, s % 60⟩

/-- The time on the clock, in seconds; fields out of range carry over. -/
def clock (tm : Tm) : ℤ :=
  86400 * (dayNumber (1900 + tm.year) tm.mon tm.mday - epoch) + 3600 * tm.hour + 60 * tm.min + tm.sec

/-- `mktime` with `tm_isdst` 0, in a zone that is `zone w` seconds ahead of UTC when its clock, on standard
time, shows `w`. -/
def mktime (zone : ℤ → ℤ) (tm : Tm) : ℤ := clock tm - zone (clock tm)

/-- `(int)` of a `double`. -/
def truncate (q : ℚ) : ℤ := if 0 ≤ q then ⌊q⌋ else ⌈q⌉

/-! ### The conversions -/

/-- `dvbdate_t` -/
structure Dvbdate where
  mjdHigh : UInt8
  mjdLow : UInt8
  hour : UInt8
  min : UInt8
  sec : UInt8
deriving DecidableEq

def undefinedDate : Dvbdate := ⟨0xff, 0xff, 0xff, 0xff, 0xff⟩

/-- `tm_year`, `tm_mon` and `tm_mday` of a modified Julian day. -/
def dateOf (mjd : ℤ) : ℤ × ℤ × ℤ :=
  let year := truncate ((mjd - 15078.2) / 365.25)
  let mon := truncate (((mjd - 14956.1) - truncate (year * 365.25)) / 30.6001)
  let mday := mjd - 14956 - truncate (year * 365.25) - truncate (mon * 30.6001)
  let k := if mon = 14 ∨ mon = 15 then 1 else 0
  (year + k, mon - 2 - k * 12, mday)

/-- `dvbdate_to_unixtime` -/
def dvbdateToUnixtime (zone : ℤ → ℤ) (dvbdate : Dvbdate) : ℤ :=
  if dvbdate = undefinedDate then -1
  else
    let date := dateOf ((dvbdate.mjdHigh.toNat <<< 8) ||| dvbdate.mjdLow.toNat : ℕ)
    mktime zone ⟨date.1, date.2.1, date.2.2, (byteBcd dvbdate.hour).toNat, (byteBcd dvbdate.min).toNat,
      (byteBcd dvbdate.sec).toNat⟩

def mjdOf (tm : Tm) : ℤ :=
  let mon := tm.mon + 1
  let l : ℤ := if mon = 1 ∨ mon = 2 then 1 else 0
  14956 + tm.mday + truncate ((tm.year - l) * 365.25) + truncate ((mon + 1 + l * 12) * 30.6001)

/-- `unixtime_to_dvbdate` -/
def unixtimeToDvbdate (unixtime : ℤ) : Dvbdate :=
  if unixtime = -1 then undefinedDate
  else
    let tm := gmtime unixtime
    let mjd := UInt32.ofInt (mjdOf tm)
    ⟨((mjd &&& 0xff00) >>> 8).toUInt8, (mjd &&& 0xff).toUInt8, bcdByte tm.hour, bcdByte tm.min, bcdByte tm.sec⟩

/-! ### The products -/

theorem truncate_div (a : ℤ) {b : ℕ} (hb : 0 < b) : truncate ((a : ℚ) / b) = if 0 ≤ a then a / b else -(-a / b) := by
  have hsign : 0 ≤ (a : ℚ) / b ↔ 0 ≤ a := by
    have hpos : (0 : ℚ) < b := by exact_mod_cast hb
    rw [le_div_iff₀ hpos, zero_mul]
    exact Int.cast_nonneg_iff
  have hceil : ⌈(a : ℚ) / b⌉ = -(-a / b) := by
    rw [← Rat.floor_intCast_div_natCast, Int.cast_neg, neg_div, Int.floor_neg, neg_neg]
  unfold truncate
  rw [Rat.floor_intCast_div_natCast, hceil]
  exact if_congr hsign rfl rfl

theorem truncate_years (y : ℤ) : truncate (y * 365.25) = if 0 ≤ y then 1461 * y / 4 else -(1461 * -y / 4) := by
  have hquot : (y : ℚ) * 365.25 = ((1461 * y : ℤ) : ℚ) / (4 : ℕ) := by
    push_cast
    ring
  rw [hquot, truncate_div _ (by decide)]
  split_ifs <;> omega

theorem truncate_months (m : ℤ) :
    truncate (m * 30.6001) = if 0 ≤ m then 306001 * m / 10000 else -(306001 * -m / 10000) := by
  have hquot : (m : ℚ) * 30.6001 = ((306001 * m : ℤ) : ℚ) / (10000 : ℕ) := by
    push_cast
    ring
  rw [hquot, truncate_div _ (by decide)]
  split_ifs <;> omega

theorem truncate_year (mjd : ℤ) :
    truncate ((mjd - 15078.2) / 365.25) =
      if 301564 ≤ 20 * mjd then (20 * mjd - 301564) / 7305 else -((301564 - 20 * mjd) / 7305) := by
  have hquot : ((mjd : ℚ) - 15078.2) / 365.25 = ((20 * mjd - 301564 : ℤ) : ℚ) / (7305 : ℕ) := by
    push_cast
    ring
  rw [hquot, truncate_div _ (by decide)]
  split_ifs <;> omega

theorem truncate_month (mjd days : ℤ) :
    truncate (((mjd - 14956.1) - days) / 30.6001) =
      if 149561000 ≤ 10000 * (mjd - days) then (10000 * (mjd - days) - 149561000) / 306001
      else -((149561000 - 10000 * (mjd - days)) / 306001) := by
  have hquot : (((mjd : ℚ) - 14956.1) - days) / 30.6001 =
      ((10000 * (mjd - days) - 149561000 : ℤ) : ℚ) / (306001 : ℕ) := by
    push_cast
    ring
  rw [hquot, truncate_div _ (by decide)]
  split_ifs <;> omega

/-! ### The formulas -/

theorem mjdOf_date (d : Date) (hour min sec : ℤ) :
    mjdOf ⟨d.year - 1900, d.month, d.day, hour, min, sec⟩ =
      14956 + d.day + truncate ((d.marchYear - 1900 : ℤ) * 365.25) + truncate ((d.marchMonth + 2 : ℤ) * 30.6001) := by
  have hlt := d.month_lt
  unfold mjdOf Date.marchYear Date.marchMonth
  dsimp only
  by_cases hm : d.month < 2
  · have hl : ((d.month : ℤ) + 1 = 1 ∨ (d.month : ℤ) + 1 = 2) := by omega
    rw [if_pos hm, if_pos hm, if_pos hl]
    push_cast
    ring_nf
  · have hl : ¬ ((d.month : ℤ) + 1 = 1 ∨ (d.month : ℤ) + 1 = 2) := by omega
    rw [if_neg hm, if_neg hm, if_neg hl]
    push_cast
    ring_nf

def mjdEpoch : ℤ := 678941

theorem months_eq {m : ℕ} (hlow : 2 ≤ m) (hhigh : m < 14) :
    306001 * ((m : ℤ) + 2) / 10000 = (153 * ((m : ℤ) - 2) + 2) / 5 + 122 := by
  interval_cases m <;> rfl

theorem years_eq {y : ℤ} (hlow : 1900 ≤ y) (hhigh : y < 2100) :
    1461 * (y - 1900) / 4 = marchStart y - mjdEpoch - 15079 := by
  have hmod : y % 4 = 0 ∨ y % 4 = 1 ∨ y % 4 = 2 ∨ y % 4 = 3 := by omega
  unfold marchStart mjdEpoch
  rcases hmod with h | h | h | h <;> omega

theorem years_back_eq {y : ℤ} (hlow : 1858 ≤ y) (hhigh : y < 1900) :
    -(1461 * -(y - 1900) / 4) = marchStart y - mjdEpoch - 15079 - if y % 4 = 0 then 1 else 0 := by
  have hmod : y % 4 = 0 ∨ y % 4 = 1 ∨ y % 4 = 2 ∨ y % 4 = 3 := by omega
  unfold marchStart mjdEpoch
  rcases hmod with h | h | h | h <;> split_ifs <;> omega

/-- **The modified Julian day of a date**; before March 1900 it is one less in every fourth year. -/
theorem mjdOf_eq (d : Date) (hlow : 1858 ≤ d.marchYear) (hhigh : d.marchYear < 2100) (hour min sec : ℤ) :
    mjdOf ⟨d.year - 1900, d.month, d.day, hour, min, sec⟩ =
      d.number - mjdEpoch - if d.marchYear < 1900 ∧ d.marchYear % 4 = 0 then 1 else 0 := by
  obtain ⟨hmlow, hmhigh⟩ := d.marchMonth_bounds
  rw [mjdOf_date, truncate_years, truncate_months, d.number_march, if_pos (show (0 : ℤ) ≤ d.marchMonth + 2 by omega),
    months_eq hmlow hmhigh]
  by_cases h1900 : d.marchYear < 1900
  · have hyears := years_back_eq hlow h1900
    rw [if_neg (show ¬ 0 ≤ d.marchYear - 1900 by omega), hyears]
    split_ifs <;> omega
  · rw [if_pos (by omega), years_eq (by omega) hhigh, if_neg (fun h => h1900 h.1)]
    omega

theorem dayNumber_dateOf (mjd : ℤ) {y m : ℤ} (hy : truncate ((mjd - 15078.2) / 365.25) = y)
    (hm : truncate (((mjd - 14956.1) - truncate (y * 365.25)) / 30.6001) = m) :
    dayNumber (1900 + (dateOf mjd).1) (dateOf mjd).2.1 (dateOf mjd).2.2 =
      dayNumber (1900 + y) (m - 2) (mjd - 14956 - truncate (y * 365.25) - truncate (m * 30.6001)) := by
  unfold dateOf
  dsimp only
  rw [hy, hm]
  split_ifs
  · rw [one_mul, ← add_assoc, dayNumber_twelve]
  · rw [add_zero, zero_mul, sub_zero]

theorem dateOf_number {mjd : ℤ} (hlow : 15079 ≤ mjd) (hhigh : mjd < 65536) :
    dayNumber (1900 + (dateOf mjd).1) (dateOf mjd).2.1 (dateOf mjd).2.2 = mjdEpoch + mjd := by
  obtain ⟨y, hy⟩ : ∃ y, y = (20 * mjd - 301564) / 7305 := ⟨_, rfl⟩
  have hyear : truncate ((mjd - 15078.2) / 365.25) = y := by
    rw [truncate_year, if_pos (by omega), hy]
  have hdays : truncate (y * 365.25) = marchStart (1900 + y) - mjdEpoch - 15079 := by
    rw [truncate_years, if_pos (by omega), ← years_eq (by omega) (by omega), add_sub_cancel_left]
  have hrest : 15079 ≤ mjd - truncate (y * 365.25) ∧ mjd - truncate (y * 365.25) ≤ 15444 := by
    rw [truncate_years, if_pos (by omega)]
    omega
  obtain ⟨m, hm⟩ : ∃ m : ℕ, (m : ℤ) + 2 = (10000 * (mjd - truncate (y * 365.25)) - 149561000) / 306001 :=
    ⟨((10000 * (mjd - truncate (y * 365.25)) - 149561000) / 306001 - 2).toNat, by omega⟩
  have hmonth : truncate (((mjd - 14956.1) - truncate (y * 365.25)) / 30.6001) = m + 2 := by
    rw [truncate_month, if_pos (by omega), hm]
  have hmonths : truncate ((m + 2 : ℤ) * 30.6001) = (153 * ((m : ℤ) - 2) + 2) / 5 + 122 := by
    rw [truncate_months, if_pos (by omega), months_eq (by omega) (by omega)]
  rw [dayNumber_dateOf mjd hyear hmonth, hmonths, add_sub_cancel_right, dayNumber_march _ (by omega) (by omega), hdays]
  ring

/-! ### Before March 1900 -/

/-- The days by which the formulas are late, by the day of the year, from the first of March. -/
def lateFrom (q : ℤ) : ℤ :=
  if 29 ≤ q ∧ q ≤ 59 ∨ 91 ≤ q ∧ q ≤ 151 ∨ 182 ≤ q ∧ q ≤ 212 then 1 else if 335 ≤ q then 3 else 2

/-- The days by which a date comes back late: none from March 1900 on. -/
def lateBy (d : Date) : ℤ :=
  let r := d.number - marchStart d.marchYear
  if 1900 ≤ d.marchYear then 0
  else if r = 365 ∨ r = 364 ∧ (d.marchYear % 4 = 1 ∨ d.marchYear % 4 = 2) then 2
  else if d.marchYear % 4 = 0 then lateFrom r - 1
  else lateFrom (r + 1)

theorem months_back {u m : ℤ} (hlow : -243 ≤ u) (hhigh : u ≤ 122)
    (hm : m = if 1 ≤ u then (10000 * u - 1000) / 306001 else -((1000 - 10000 * u) / 306001)) :
    -7 ≤ m ∧ m ≤ 3 ∧
      (153 * (m + 8) + 2) / 5 - (if 0 ≤ m then 306001 * m / 10000 else -(306001 * -m / 10000)) =
        243 + lateFrom (u + 243) := by
  have hbounds : -7 ≤ m ∧ m ≤ 3 := by
    rw [hm]
    split_ifs <;> omega
  refine ⟨hbounds.1, hbounds.2, ?_⟩
  obtain ⟨hmlow, hmhigh⟩ := hbounds
  unfold lateFrom
  interval_cases m <;> split_ifs at hm ⊢ <;> omega

theorem dateOf_number_back {mjd z u : ℤ} (hyear : truncate ((mjd - 15078.2) / 365.25) = z - 1900)
    (hu : u = mjd - truncate ((z - 1900 : ℤ) * 365.25) - 14956) (hlow : -243 ≤ u) (hhigh : u ≤ 122) :
    dayNumber (1900 + (dateOf mjd).1) (dateOf mjd).2.1 (dateOf mjd).2.2 =
      marchStart (z - 1) + u + 242 + lateFrom (u + 243) := by
  obtain ⟨m, hm⟩ : ∃ m, m = if 1 ≤ u then (10000 * u - 1000) / 306001 else -((1000 - 10000 * u) / 306001) := ⟨_, rfl⟩
  obtain ⟨hmlow, hmhigh, hmonths⟩ := months_back hlow hhigh hm
  have hmonth : truncate (((mjd - 14956.1) - truncate ((z - 1900 : ℤ) * 365.25)) / 30.6001) = m := by
    rw [truncate_month, hm]
    split_ifs <;> omega
  obtain ⟨k, hk⟩ : ∃ k : ℕ, (k : ℤ) = m + 10 := ⟨(m + 10).toNat, by omega⟩
  have hshift := dayNumber_twelve (z - 1) k (u - truncate (m * 30.6001))
  rw [sub_add_cancel, hk, show m + 10 - 12 = m - 2 by ring] at hshift
  rw [dayNumber_dateOf mjd hyear hmonth, add_sub_cancel,
    show mjd - 14956 - truncate ((z - 1900 : ℤ) * 365.25) = u by omega, hshift, ← hk,
    dayNumber_march _ (by omega) (by omega), hk, truncate_months]
  linarith [hmonths, show (153 * (m + 10 - 2) + 2) / 5 = (153 * (m + 8) + 2) / 5 by ring_nf]

theorem truncate_years_back {z : ℤ} (hlow : 1858 ≤ z) (hhigh : z ≤ 1900) :
    truncate ((z - 1900 : ℤ) * 365.25) = marchStart z - mjdEpoch - 15079 - if z < 1900 ∧ z % 4 = 0 then 1 else 0 := by
  rw [truncate_years]
  rcases lt_or_eq_of_le hhigh with hz | rfl
  · rw [if_neg (by omega), years_back_eq hlow hz]
    split_ifs <;> omega
  · decide

theorem marchStart_back {y : ℤ} (hlow : 1858 ≤ y) (hhigh : y < 1900) :
    marchStart y = 365 * y + y / 4 + 46 ∧
      marchStart (y + 1) = marchStart y + if y % 4 = 3 ∧ y < 1899 then 366 else 365 := by
  unfold marchStart
  constructor
  · omega
  · split_ifs <;> omega

theorem truncate_year_back {y r mjd : ℤ} (hlow : 1858 ≤ y) (hhigh : y < 1900) (hr : 0 ≤ r)
    (hend : marchStart y + r < marchStart (y + 1))
    (hmjd : mjd = marchStart y + r - mjdEpoch - if y < 1900 ∧ y % 4 = 0 then 1 else 0) :
    truncate ((mjd - 15078.2) / 365.25) =
      (if r = 365 ∨ r = 364 ∧ (y % 4 = 1 ∨ y % 4 = 2) then y + 2 else y + 1) - 1900 := by
  obtain ⟨hstart, hnext⟩ := marchStart_back hlow hhigh
  rw [hnext] at hend
  rw [hstart] at hmjd
  unfold mjdEpoch at hmjd
  rw [truncate_year]
  obtain ⟨c, hc⟩ : ∃ c, c = y / 4 := ⟨_, rfl⟩
  have hmod : y = 4 * c ∨ y = 4 * c + 1 ∨ y = 4 * c + 2 ∨ y = 4 * c + 3 := by omega
  rw [← hc] at hmjd
  rcases hmod with rfl | rfl | rfl | rfl <;> split_ifs at hend hmjd ⊢ <;> omega

section

variable {y r mjd : ℤ} (hlow : 1858 ≤ y) (hhigh : y < 1900) (hr : 0 ≤ r) (hend : marchStart y + r < marchStart (y + 1))
  (hmjd : mjd = marchStart y + r - mjdEpoch - if y < 1900 ∧ y % 4 = 0 then 1 else 0)

include hlow hhigh hr hend hmjd

theorem dateOf_number_last (hlast : r = 365 ∨ r = 364 ∧ (y % 4 = 1 ∨ y % 4 = 2)) :
    dayNumber (1900 + (dateOf mjd).1) (dateOf mjd).2.1 (dateOf mjd).2.2 = marchStart y + r + 2 := by
  have hyear := truncate_year_back hlow hhigh hr hend hmjd
  obtain ⟨-, hnext⟩ := marchStart_back hlow hhigh
  rw [hnext] at hend
  rw [if_pos hlast] at hyear
  have hz : y + 2 ≤ 1900 := by split_ifs at hend <;> omega
  have hdays := truncate_years_back (show 1858 ≤ y + 2 by omega) hz
  obtain ⟨-, hnext'⟩ := marchStart_back (show 1858 ≤ y + 1 by omega) (show y + 1 < 1900 by omega)
  rw [add_assoc, one_add_one_eq_two] at hnext'
  have hu : -243 = mjd - truncate ((y + 2 - 1900 : ℤ) * 365.25) - 14956 := by
    rw [hdays, hmjd, hnext', hnext]
    split_ifs at hend ⊢ <;> omega
  have hsecond : y + 2 - 1 = y + 1 := by ring
  rw [dateOf_number_back hyear hu (by omega) (by omega), hsecond, hnext]
  have hlate : lateFrom (-243 + 243) = 2 := by decide
  rw [hlate]
  split_ifs at hend ⊢ <;> omega

theorem dateOf_number_inside (hlast : ¬ (r = 365 ∨ r = 364 ∧ (y % 4 = 1 ∨ y % 4 = 2))) :
    dayNumber (1900 + (dateOf mjd).1) (dateOf mjd).2.1 (dateOf mjd).2.2 =
      marchStart y + r + if y % 4 = 0 then lateFrom r - 1 else lateFrom (r + 1) := by
  have hyear := truncate_year_back hlow hhigh hr hend hmjd
  obtain ⟨-, hnext⟩ := marchStart_back hlow hhigh
  rw [hnext] at hend
  rw [if_neg hlast] at hyear
  have hdays := truncate_years_back (show 1858 ≤ y + 1 by omega) (show y + 1 ≤ 1900 by omega)
  have hu : r - 242 - (if y % 4 = 0 then 1 else 0) = mjd - truncate ((y + 1 - 1900 : ℤ) * 365.25) - 14956 := by
    rw [hdays, hmjd, hnext]
    split_ifs <;> omega
  rw [dateOf_number_back hyear hu (by split_ifs <;> omega) (by split_ifs at hend ⊢ <;> omega), add_sub_cancel_right]
  by_cases hfour : y % 4 = 0
  · have hq : r - 242 - 1 + 243 = r := by ring
    rw [if_pos hfour, if_pos hfour, hq]
    ring
  · have hq : r - 242 - 0 + 243 = r + 1 := by ring
    rw [if_neg hfour, if_neg hfour, hq]
    ring

end

/-- **The date that comes back** for a date before March 1900. -/
theorem dateOf_number_early (d : Date) (hlow : 1858 ≤ d.marchYear) (hhigh : d.marchYear < 1900) {mjd : ℤ}
    (hmjd : mjd = d.number - mjdEpoch - if d.marchYear < 1900 ∧ d.marchYear % 4 = 0 then 1 else 0) :
    dayNumber (1900 + (dateOf mjd).1) (dateOf mjd).2.1 (dateOf mjd).2.2 = d.number + lateBy d := by
  obtain ⟨hstart, hend⟩ := d.number_bounds
  obtain ⟨r, hr⟩ : ∃ r, r = d.number - marchStart d.marchYear := ⟨_, rfl⟩
  have hnumber : d.number = marchStart d.marchYear + r := by omega
  rw [hnumber] at hend hmjd
  unfold lateBy
  dsimp only
  rw [← hr, if_neg (not_le.mpr hhigh), hnumber]
  by_cases hlast : r = 365 ∨ r = 364 ∧ (d.marchYear % 4 = 1 ∨ d.marchYear % 4 = 2)
  · rw [if_pos hlast]
    exact dateOf_number_last hlow hhigh (by omega) hend hmjd hlast
  · rw [if_neg hlast]
    exact dateOf_number_inside hlow hhigh (by omega) hend hmjd hlast

/-- **The days of both formulas together.** -/
theorem dateOf_mjdOf (d : Date) (hlow : mjdEpoch ≤ d.number) (hhigh : d.number < mjdEpoch + 65536) (hour min sec : ℤ) :
    let mjd := mjdOf ⟨d.year - 1900, d.month, d.day, hour, min, sec⟩
    0 ≤ mjd ∧ mjd < 65536 ∧
      dayNumber (1900 + (dateOf mjd).1) (dateOf mjd).2.1 (dateOf mjd).2.2 = d.number + lateBy d := by
  intro mjd
  obtain ⟨hstart, hend⟩ := d.number_bounds
  have hyears : 1858 ≤ d.marchYear ∧ d.marchYear < 2100 := by
    unfold marchStart at hstart hend
    unfold mjdEpoch at hlow hhigh
    omega
  have hmjd := mjdOf_eq d hyears.1 hyears.2 hour min sec
  by_cases h1900 : d.marchYear < 1900
  · refine ⟨?_, ?_, dateOf_number_early d hyears.1 h1900 hmjd⟩
    · show 0 ≤ mjdOf _
      rw [hmjd]
      unfold marchStart at hstart
      unfold mjdEpoch at hlow ⊢
      split_ifs <;> omega
    · show mjdOf _ < _
      rw [hmjd]
      split_ifs <;> omega
  · have hexact : mjd = d.number - mjdEpoch := by
      show mjdOf _ = _
      rw [hmjd, if_neg (fun h => h1900 h.1), sub_zero]
    have hlate : lateBy d = 0 := if_pos (not_lt.mp h1900)
    have hfirst : mjdEpoch + 15079 ≤ d.number := by
      refine le_trans ?_ hstart
      unfold marchStart mjdEpoch
      omega
    rw [hexact, hlate, dateOf_number (by omega) (by omega)]
    omega

/-! ### The round trip -/

theorem mjd_bytes {mjd : ℤ} (hlow : 0 ≤ mjd) (hhigh : mjd < 65536) :
    (((((UInt32.ofInt mjd &&& 0xff00) >>> 8).toUInt8.toNat <<< 8) ||| (UInt32.ofInt mjd &&& 0xff).toUInt8.toNat : ℕ) : ℤ) =
      mjd := by
  obtain ⟨n, rfl⟩ := Int.eq_ofNat_of_zero_le hlow
  have hn : n < 65536 := by exact_mod_cast hhigh
  have hword : (UInt32.ofInt (n : ℤ)).toNat = n := by
    rw [UInt32.ofInt]
    simp
    omega
  have hlast : (UInt32.ofInt (n : ℤ) &&& 0xff).toUInt8.toNat = n % 256 := by
    have hand : n &&& 0xff = n % 256 := Nat.and_two_pow_sub_one_eq_mod n 8
    rw [UInt32.toNat_toUInt8, UInt32.toNat_and, hword]
    show (n &&& 0xff) % 256 = n % 256
    rw [hand, Nat.mod_mod]
  have hfirst : ((UInt32.ofInt (n : ℤ) &&& 0xff00) >>> 8).toUInt8.toNat = n / 256 := by
    have hand : n >>> 8 &&& 0xff = n >>> 8 % 256 := Nat.and_two_pow_sub_one_eq_mod _ 8
    rw [UInt32.toNat_toUInt8, UInt32.toNat_shiftRight, UInt32.toNat_and, hword]
    show (n &&& 0xff00) >>> 8 % 256 = n / 256
    rw [Nat.shiftRight_and_distrib]
    show (n >>> 8 &&& 0xff) % 256 = n / 256
    rw [hand, Nat.mod_mod, Nat.shiftRight_eq_div_pow]
    omega
  have hlt : n % 256 < 2 ^ 8 := Nat.mod_lt _ (by decide)
  rw [hlast, hfirst, Words.shiftLeft_or_byte _ hlt, Nat.div_add_mod']

theorem bcdByte_ne_ff {n : ℤ} (h0 : 0 ≤ n) (hn : n < 100) : bcdByte n ≠ 0xff := by
  intro hbyte
  have hback := toNat_byteBcd_bcdByte h0 hn
  have hff : (byteBcd 0xff).toNat = 165 := by decide
  rw [hbyte, hff] at hback
  omega

def dateAt (unixtime : ℤ) : Date := ofDay (epoch + unixtime / 86400)

theorem dvbdateToUnixtime_unixtimeToDvbdate (zone : ℤ → ℤ) {t : ℤ} (hlow : -3506716800 ≤ t) (hhigh : t < 2155593600)
    (hdefined : t ≠ -1) :
    dvbdateToUnixtime zone (unixtimeToDvbdate t) =
      t + 86400 * lateBy (dateAt t) - zone (t + 86400 * lateBy (dateAt t)) := by
  have hnumber : (dateAt t).number = epoch + t / 86400 := ofDay_number _
  have hhour := toNat_byteBcd_bcdByte (show 0 ≤ t % 86400 / 3600 by omega) (by omega)
  have hmin := toNat_byteBcd_bcdByte (show 0 ≤ t % 86400 % 3600 / 60 by omega) (by omega)
  have hsec := toNat_byteBcd_bcdByte (show 0 ≤ t % 86400 % 60 by omega) (by omega)
  obtain ⟨mjd, hmjd⟩ : ∃ mjd, mjd = mjdOf (gmtime t) := ⟨_, rfl⟩
  obtain ⟨hpos, hfit, hday⟩ : 0 ≤ mjd ∧ mjd < 65536 ∧
      dayNumber (1900 + (dateOf mjd).1) (dateOf mjd).2.1 (dateOf mjd).2.2 = epoch + t / 86400 + lateBy (dateAt t) := by
    rw [hmjd, ← hnumber]
    refine dateOf_mjdOf (dateAt t) ?_ ?_ _ _ _
    · rw [hnumber, epoch, mjdEpoch]
      omega
    · rw [hnumber, epoch, mjdEpoch]
      omega
  have hclock : clock ⟨(dateOf mjd).1, (dateOf mjd).2.1, (dateOf mjd).2.2, t % 86400 / 3600, t % 86400 % 3600 / 60,
      t % 86400 % 60⟩ = t + 86400 * lateBy (dateAt t) := by
    unfold clock
    dsimp only
    rw [hday]
    omega
  have hstored : unixtimeToDvbdate t ≠ undefinedDate := by
    have hhourByte := bcdByte_ne_ff (show 0 ≤ t % 86400 / 3600 by omega) (by omega)
    unfold unixtimeToDvbdate
    rw [if_neg hdefined]
    exact fun h => hhourByte (congrArg Dvbdate.hour h)
  unfold dvbdateToUnixtime
  rw [if_neg hstored]
  unfold unixtimeToDvbdate
  rw [if_neg hdefined]
  dsimp only
  rw [← hmjd, mjd_bytes hpos hfit]
  show mktime zone ⟨_, _, _, (byteBcd (bcdByte (t % 86400 / 3600))).toNat, (byteBcd (bcdByte (t % 86400 % 3600 / 60))).toNat,
    (byteBcd (bcdByte (t % 86400 % 60))).toNat⟩ = _
  rw [hhour, hmin, hsec, mktime, hclock]

theorem lateBy_eq_zero {t : ℤ} (h : -2203891200 ≤ t) : lateBy (dateAt t) = 0 := by
  have hnumber : (dateAt t).number = epoch + t / 86400 := ofDay_number _
  obtain ⟨-, hend⟩ := (dateAt t).number_bounds
  rw [hnumber, epoch, marchStart] at hend
  exact if_pos (by omega)

/-- **The times that come back**: the undefined one, and those for which the zone makes up for the days
that the formulas are late.  From March 1900 on that is a zone without an offset. -/
theorem dvbdate_roundtrip_iff (zone : ℤ → ℤ) (t : ℤ) (hlow : -3506716800 ≤ t) (hhigh : t < 2155593600) :
    (dvbdateToUnixtime zone (unixtimeToDvbdate t) = t ↔
      t = -1 ∨ zone (t + 86400 * lateBy (dateAt t)) = 86400 * lateBy (dateAt t)) ∧
      (-2203891200 ≤ t → (dvbdateToUnixtime zone (unixtimeToDvbdate t) = t ↔ t = -1 ∨ zone t = 0)) := by
  have hall : dvbdateToUnixtime zone (unixtimeToDvbdate t) = t ↔
      t = -1 ∨ zone (t + 86400 * lateBy (dateAt t)) = 86400 * lateBy (dateAt t) := by
    by_cases hdefined : t = -1
    · subst hdefined
      exact iff_of_true rfl (.inl rfl)
    · rw [dvbdateToUnixtime_unixtimeToDvbdate zone hlow hhigh hdefined]
      omega
  refine ⟨hall, fun hmarch => ?_⟩
  rw [hall, lateBy_eq_zero hmarch, mul_zero, add_zero]

/-- An hour ahead of UTC. -/
theorem dvbdate_roundtrip_iff_epoch :
    (dvbdateToUnixtime (fun _ => 3600) (unixtimeToDvbdate 0) = 0 ↔
      (0 : ℤ) = -1 ∨ (3600 : ℤ) = 86400 * lateBy (dateAt 0)) ∧
      ((-2203891200 : ℤ) ≤ 0 → (dvbdateToUnixtime (fun _ => 3600) (unixtimeToDvbdate 0) = 0 ↔ (0 : ℤ) = -1 ∨ (3600 : ℤ) = 0)) :=
  dvbdate_roundtrip_iff (fun _ => 3600) 0 (by norm_num) (by norm_num)

/-- The Epoch comes back an hour early, where clocks are an hour ahead of UTC. -/
theorem not_dvbdate_roundtrip_epoch : dvbdateToUnixtime (fun _ => 3600) (unixtimeToDvbdate 0) ≠ 0 := by
  rw [dvbdateToUnixtime_unixtimeToDvbdate _ (by norm_num) (by norm_num) (by norm_num), lateBy_eq_zero (by norm_num)]
  show (-3600 : ℤ) ≠ 0
  norm_num

end BgtDvb.Ucsi.Dates
