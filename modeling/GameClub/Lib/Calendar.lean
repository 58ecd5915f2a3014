import Mathlib.Tactic

/-! # The Gregorian calendar

Days as dates of the proleptic Gregorian calendar, counted from 1970-01-01. A year is taken to begin
in March, so that a leap day is its last one: four years have 1461 days, a century 36524 and four
centuries 146097, where the last year or century of a cycle takes the day that is left over.

* `days_civil`: the day is read back from its date.
* `civil_month`, `civil_day`, `civil_year`: how large the parts of a date are. -/

namespace GameClub.Lib.Calendar

/-- A date of the calendar. -/
@[ext] structure Date where
  year : ℤ
  month : ℤ
  day : ℤ
deriving DecidableEq

/-- The centuries before the day `doe` of four centuries. -/
def centuries (doe : ℤ) : ℤ := min (doe / 36524) 3

/-- The years before the day `d` of four years. -/
def yearsOfFour (d : ℤ) : ℤ := min (d / 365) 3

/-- The years before the day `doe` of four centuries, and the day of its year. -/
def yearAndDay (doe : ℤ) : ℤ × ℤ :=
  let doc := doe - centuries doe * 36524
  let d := doc % 1461
  (centuries doe * 100 + doc / 1461 * 4 + yearsOfFour d, d - yearsOfFour d * 365)

/-- The days before the year `y`. -/
def daysBefore (y : ℤ) : ℤ :=
  y / 400 * 146097 + y % 400 / 100 * 36524 + y % 100 / 4 * 1461 + y % 4 * 365

/-- The month that a day of the year is in; March is 0. -/
def monthOf (doy : ℤ) : ℤ := (5 * doy + 2) / 153

/-- The days of the year before the month `mp`. -/
def daysBeforeMonth (mp : ℤ) : ℤ := (153 * mp + 2) / 5

/-- **The date of a day.** -/
def civil (z : ℤ) : Date :=
  let (yoe, doy) := yearAndDay ((z + 719468) % 146097)
  let mp := monthOf doy
  let month := if mp < 10 then mp + 3 else mp - 9
  let y := (z + 719468) / 146097 * 400 + yoe
  ⟨if month ≤ 2 then y + 1 else y, month, doy - daysBeforeMonth mp + 1⟩

/-- **The day of a date.** -/
def days (d : Date) : ℤ :=
  let y := if d.month ≤ 2 then d.year - 1 else d.year
  let mp := if d.month ≤ 2 then d.month + 9 else d.month - 3
  daysBefore y + daysBeforeMonth mp + (d.day - 1) - 719468

/-! ### The parts of a date -/

/-- A day of four centuries is a day of one of their years. -/
theorem yearAndDay_bounds {doe : ℤ} (h : 0 ≤ doe) (h' : doe < 146097) :
    0 ≤ (yearAndDay doe).1 ∧ (yearAndDay doe).1 ≤ 399 ∧ 0 ≤ (yearAndDay doe).2 ∧
      (yearAndDay doe).2 ≤ 365 := by
  simp only [yearAndDay, centuries, yearsOfFour]
  omega

/-- The days before a year, from its place in the cycles. -/
theorem daysBefore_cycles {era c q n : ℤ} (hc : 0 ≤ c ∧ c ≤ 3) (hq : 0 ≤ q ∧ q ≤ 24)
    (hn : 0 ≤ n ∧ n ≤ 3) : daysBefore (era * 400 + (c * 100 + q * 4 + n)) =
      era * 146097 + c * 36524 + q * 1461 + n * 365 := by
  have hera : (era * 400 + (c * 100 + q * 4 + n)) / 400 = era := by omega
  have hcentury : (era * 400 + (c * 100 + q * 4 + n)) % 400 / 100 = c := by omega
  have hfour : (era * 400 + (c * 100 + q * 4 + n)) % 100 / 4 = q := by omega
  have hyear : (era * 400 + (c * 100 + q * 4 + n)) % 4 = n := by omega
  rw [daysBefore, hera, hcentury, hfour, hyear]

theorem daysBefore_yearAndDay {doe : ℤ} (era : ℤ) (h : 0 ≤ doe) (h' : doe < 146097) :
    daysBefore (era * 400 + (yearAndDay doe).1) + (yearAndDay doe).2 = era * 146097 + doe := by
  simp only [yearAndDay, centuries, yearsOfFour]
  rw [daysBefore_cycles (by omega) (by omega) (by omega)]
  omega

theorem monthOf_bounds {doy : ℤ} (h : 0 ≤ doy) (h' : doy ≤ 365) :
    0 ≤ monthOf doy ∧ monthOf doy ≤ 11 := by
  unfold monthOf
  omega

/-- A day lies in its month. -/
theorem dayOfMonth_bounds (doy : ℤ) :
    0 ≤ doy - daysBeforeMonth (monthOf doy) ∧ doy - daysBeforeMonth (monthOf doy) ≤ 30 := by
  unfold monthOf daysBeforeMonth
  omega

/-- The day of the four centuries a day lies in. -/
theorem dayOfEra_bounds (z : ℤ) :
    0 ≤ (z + 719468) % 146097 ∧ (z + 719468) % 146097 < 146097 := by omega

theorem civil_month (z : ℤ) : 1 ≤ (civil z).month ∧ (civil z).month ≤ 12 := by
  obtain ⟨h0, h1⟩ := dayOfEra_bounds z
  obtain ⟨-, -, hd0, hd1⟩ := yearAndDay_bounds h0 h1
  obtain ⟨hm0, hm1⟩ := monthOf_bounds hd0 hd1
  simp only [civil]
  split_ifs <;> omega

theorem civil_day (z : ℤ) : 1 ≤ (civil z).day ∧ (civil z).day ≤ 31 := by
  have hday := dayOfMonth_bounds (yearAndDay ((z + 719468) % 146097)).2
  simp only [civil]
  omega

/-- The years of the days up to `n` days from 1970-01-01 are that near to it. -/
theorem civil_year {z : ℤ} (h : |z| ≤ 100000000) : |(civil z).year| < 1000000 := by
  obtain ⟨h0, h1⟩ := dayOfEra_bounds z
  obtain ⟨hy0, hy1, -, -⟩ := yearAndDay_bounds h0 h1
  obtain ⟨hlo, hhi⟩ := abs_le.mp h
  rw [abs_lt]
  simp only [civil]
  split_ifs <;> omega

/-- **A day is read back from its date.** -/
theorem days_civil (z : ℤ) : days (civil z) = z := by
  obtain ⟨h0, h1⟩ := dayOfEra_bounds z
  obtain ⟨-, -, hd0, hd1⟩ := yearAndDay_bounds h0 h1
  obtain ⟨hm0, hm1⟩ := monthOf_bounds hd0 hd1
  have hdays := daysBefore_yearAndDay ((z + 719468) / 146097) h0 h1
  have hera : (z + 719468) / 146097 * 146097 + (z + 719468) % 146097 = z + 719468 := by omega
  by_cases hmp : monthOf (yearAndDay ((z + 719468) % 146097)).2 < 10
  · have hmonth : ¬ monthOf (yearAndDay ((z + 719468) % 146097)).2 + 3 ≤ 2 := by omega
    simp only [days, civil, if_pos hmp, if_neg hmonth, add_sub_cancel_right]
    omega
  · have hmonth : monthOf (yearAndDay ((z + 719468) % 146097)).2 - 9 ≤ 2 := by omega
    simp only [days, civil, if_neg hmp, if_pos hmonth, add_sub_cancel_right, sub_add_cancel]
    omega

example : civil 0 = ⟨1970, 1, 1⟩ ∧ civil 11016 = ⟨2000, 2, 29⟩ ∧ civil (-1) = ⟨1969, 12, 31⟩ := by
  decide

end GameClub.Lib.Calendar
