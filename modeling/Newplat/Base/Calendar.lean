import Mathlib

/-! The Gregorian calendar, counted in days from 1 January 1970. A year is taken to begin in
March, so that a leap day is the last one of it. -/
namespace Newplat.Base

@[ext] structure Date where
  year : Int
  month : Int
  day : Int
  deriving DecidableEq

/-- Days from 1970 to a date. The months from March on begin at multiples of 153/5. -/
def dayNumber (d : Date) : Int :=
  let y := if d.month ≤ 2 then d.year - 1 else d.year
  let m := if d.month ≤ 2 then d.month + 9 else d.month - 3
  365 * y + y / 4 - y / 100 + y / 400 + (153 * m + 2) / 5 + (d.day - 1) - 719468

/-- The date of day `n` of a year that begins in March. -/
def dateIn (y n : Int) : Date :=
  let m := (5 * n + 2) / 153
  let day := n - (153 * m + 2) / 5 + 1
  if m < 10 then ⟨y, m + 3, day⟩ else ⟨y + 1, m - 9, day⟩

/-- The date of a day: whole cycles of 400, 100, 4 and 1 years are taken off in turn. The last
century of a cycle, and the last year of four, can have a day more. -/
def dateOf (n : Int) : Date :=
  let cycle := (n + 719468) / 146097
  let inCycle := (n + 719468) % 146097
  let century := min (inCycle / 36524) 3
  let inCentury := inCycle - century * 36524
  let four := min (inCentury / 1461) 24
  let inFour := inCentury - four * 1461
  let one := min (inFour / 365) 3
  dateIn (400 * cycle + 100 * century + 4 * four + one) (inFour - one * 365)

theorem dateIn_bounds {y n : Int} (low : 0 ≤ n) (high : n ≤ 365) :
    1 ≤ (dateIn y n).month ∧ (dateIn y n).month ≤ 12 ∧ 1 ≤ (dateIn y n).day ∧ (dateIn y n).day ≤ 31 := by
  simp only [dateIn]
  split
  · dsimp only
    omega
  · dsimp only
    omega

theorem dayNumber_dateIn {y n : Int} (low : 0 ≤ n) (high : n ≤ 365) :
    dayNumber (dateIn y n) = 365 * y + y / 4 - y / 100 + y / 400 + n - 719468 := by
  simp only [dateIn]
  split
  · have late : ¬ (5 * n + 2) / 153 + 3 ≤ 2 := by omega
    simp only [dayNumber, late, if_false]
    omega
  · have early : (5 * n + 2) / 153 - 9 ≤ 2 := by omega
    simp only [dayNumber, early, if_true]
    omega

theorem dateOf_parts (n : Int) : ∃ cycle century four one rest : Int,
    (0 ≤ century ∧ century ≤ 3) ∧ (0 ≤ four ∧ four ≤ 24) ∧ (0 ≤ one ∧ one ≤ 3) ∧ (0 ≤ rest ∧ rest ≤ 365) ∧
    n + 719468 = 146097 * cycle + 36524 * century + 1461 * four + 365 * one + rest ∧
    dateOf n = dateIn (400 * cycle + 100 * century + 4 * four + one) rest := by
  have inCycle : 0 ≤ (n + 719468) % 146097 ∧ (n + 719468) % 146097 < 146097 := by omega
  have whole : n + 719468 = 146097 * ((n + 719468) / 146097) + (n + 719468) % 146097 := by omega
  simp only [dateOf]
  generalize (n + 719468) / 146097 = cycle at *
  generalize (n + 719468) % 146097 = r at *
  have centuries : 0 ≤ min (r / 36524) 3 ∧ min (r / 36524) 3 ≤ 3 := by omega
  have inCentury : 0 ≤ r - min (r / 36524) 3 * 36524 ∧ r - min (r / 36524) 3 * 36524 ≤ 36524 := by omega
  generalize min (r / 36524) 3 = century at *
  generalize left : r - century * 36524 = inCentury' at *
  have fours : 0 ≤ min (inCentury' / 1461) 24 ∧ min (inCentury' / 1461) 24 ≤ 24 := by omega
  have inFour : 0 ≤ inCentury' - min (inCentury' / 1461) 24 * 1461 ∧
      inCentury' - min (inCentury' / 1461) 24 * 1461 ≤ 1460 := by omega
  generalize min (inCentury' / 1461) 24 = four at *
  generalize left' : inCentury' - four * 1461 = inFour' at *
  have ones : 0 ≤ min (inFour' / 365) 3 ∧ min (inFour' / 365) 3 ≤ 3 := by omega
  have rest : 0 ≤ inFour' - min (inFour' / 365) 3 * 365 ∧ inFour' - min (inFour' / 365) 3 * 365 ≤ 365 := by
    omega
  generalize min (inFour' / 365) 3 = one at *
  exact ⟨cycle, century, four, one, _, centuries, fours, ones, rest, by omega, rfl⟩

theorem dateOf_bounds (n : Int) :
    1 ≤ (dateOf n).month ∧ (dateOf n).month ≤ 12 ∧ 1 ≤ (dateOf n).day ∧ (dateOf n).day ≤ 31 := by
  obtain ⟨cycle, century, four, one, rest, -, -, -, inside, -, date⟩ := dateOf_parts n
  rw [date]
  exact dateIn_bounds inside.1 inside.2

/-- A date determines its day. -/
theorem dayNumber_dateOf (n : Int) : dayNumber (dateOf n) = n := by
  obtain ⟨cycle, century, four, one, rest, centuries, fours, ones, inside, whole, date⟩ := dateOf_parts n
  rw [date, dayNumber_dateIn inside.1 inside.2]
  omega

/-- The first of January of a year. -/
def yearStart (y : Int) : Int := 365 * (y - 1) + (y - 1) / 4 - (y - 1) / 100 + (y - 1) / 400 - 719162

theorem year_bounds (n : Int) : yearStart (dateOf n).year ≤ n ∧ n < yearStart ((dateOf n).year + 1) := by
  have bounds := dateOf_bounds n
  have day := dayNumber_dateOf n
  simp only [dayNumber] at day
  unfold yearStart
  split at day
  · omega
  · omega

theorem yearStart_next (y : Int) : yearStart y + 364 ≤ yearStart (y + 1) := by
  unfold yearStart
  omega

theorem yearStart_mono : Monotone yearStart := by
  apply monotone_int_of_le_succ
  intro y
  have next := yearStart_next y
  omega

theorem year_range {n : Int} (low : -300000 ≤ n) (high : n ≤ 2900000) :
    1000 ≤ (dateOf n).year ∧ (dateOf n).year ≤ 9999 := by
  have bounds := year_bounds n
  unfold yearStart at bounds
  omega

theorem year_mono {n m : Int} (order : n ≤ m) : (dateOf n).year ≤ (dateOf m).year := by
  by_contra earlier
  have starts : yearStart ((dateOf m).year + 1) ≤ yearStart (dateOf n).year := yearStart_mono (by omega)
  have bounds := year_bounds n
  have bounds' := year_bounds m
  omega

/-- A whole year lies between two dates that are two years apart. -/
theorem years_apart {n m : Int} (later : (dateOf n).year + 2 ≤ (dateOf m).year) : n + 364 < m := by
  have next := yearStart_next ((dateOf n).year + 1)
  have starts : yearStart ((dateOf n).year + 1 + 1) ≤ yearStart (dateOf m).year := yearStart_mono (by omega)
  have bounds := year_bounds n
  have bounds' := year_bounds m
  omega

theorem month_apart {n m : Int} (year : (dateOf n).year = (dateOf m).year)
    (month : (dateOf n).month = (dateOf m).month) : m ≤ n + 30 := by
  have bounds := dateOf_bounds n
  have bounds' := dateOf_bounds m
  have day := dayNumber_dateOf n
  have day' := dayNumber_dateOf m
  simp only [dayNumber, year, month] at day
  simp only [dayNumber] at day'
  omega

example : dateOf 0 = ⟨1970, 1, 1⟩ ∧ dateOf 11016 = ⟨2000, 2, 29⟩ ∧ dateOf 47540 = ⟨2100, 2, 28⟩ ∧
    dateOf 47541 = ⟨2100, 3, 1⟩ := by decide

end Newplat.Base
