/-! # Civil dates — years, months and days of the proleptic Gregorian calendar

    Days are numbered from 1970-01-01, which is day 0.  `yearStart` counts the days before a
    year; the year of a day is estimated from the mean length of a year and corrected by one, and
    its month is read off the day of the year. -/

namespace CalendarFeeds.Civil

/-- Every fourth year, except the hundreds that 400 does not divide. -/
def isLeap (year : Int) : Bool :=
  year % 4 == 0 && (year % 100 != 0 || year % 400 == 0)

def yearLength (year : Int) : Nat :=
  if isLeap year then 366 else 365

/-- The number of days of a month; a month outside 1 to 12 has none. -/
def monthLength (year : Int) (month : Nat) : Nat :=
  match month with
  | 1 => 31
  | 2 => if isLeap year then 29 else 28
  | 3 => 31
  | 4 => 30
  | 5 => 31
  | 6 => 30
  | 7 => 31
  | 8 => 31
  | 9 => 30
  | 10 => 31
  | 11 => 30
  | 12 => 31
  | _ => 0

/-- Days of the year before the first of a month. -/
def daysBefore (year : Int) (month : Nat) : Nat :=
  let leap := if isLeap year then 1 else 0
  match month with
  | 0 | 1 => 0
  | 2 => 31
  | 3 => 59 + leap
  | 4 => 90 + leap
  | 5 => 120 + leap
  | 6 => 151 + leap
  | 7 => 181 + leap
  | 8 => 212 + leap
  | 9 => 243 + leap
  | 10 => 273 + leap
  | 11 => 304 + leap
  | _ => 334 + leap

/-- The day number of the first of January. -/
def yearStart (year : Int) : Int :=
  let before := year - 1
  365 * before + before / 4 - before / 100 + before / 400 - 719162

/-- The day number of the first of a month. -/
def monthStart (year : Int) (month : Nat) : Int :=
  yearStart year + daysBefore year month

def dayNumber (year : Int) (month day : Nat) : Int :=
  monthStart year month + (day : Int) - 1

def yearOf (n : Int) : Int :=
  let guess := 400 * n / 146097 + 1970
  if n < yearStart guess then guess - 1
  else if yearStart (guess + 1) ≤ n then guess + 1
  else guess

/-- Days since the first of January. -/
def dayOfYear (n : Int) : Nat :=
  (n - yearStart (yearOf n)).toNat

/-- The last month, up to a given one, that has begun by a day of the year. -/
def monthUpTo (year : Int) (d : Nat) : Nat → Nat
  | 0 => 0
  | m + 1 => if daysBefore year (m + 1) ≤ d then m + 1 else monthUpTo year d m

/-- The month that holds a day of the year. -/
def monthOfDay (year : Int) (d : Nat) : Nat :=
  monthUpTo year d 12

def monthOf (n : Int) : Nat :=
  monthOfDay (yearOf n) (dayOfYear n)

def dayOf (n : Int) : Nat :=
  dayOfYear n - daysBefore (yearOf n) (monthOf n) + 1

/-- The month after a month; the one after December, or after any number above it, is January
    of the next year. -/
def nextMonth (year : Int) (month : Nat) : Int × Nat :=
  if 12 ≤ month then (year + 1, 1) else (year, month + 1)

theorem monthLength_pos {year : Int} {month : Nat} (h₁ : 1 ≤ month) (h₂ : month ≤ 12) :
    28 ≤ monthLength year month := by
  have cases : month = 1 ∨ month = 2 ∨ month = 3 ∨ month = 4 ∨ month = 5 ∨ month = 6
      ∨ month = 7 ∨ month = 8 ∨ month = 9 ∨ month = 10 ∨ month = 11 ∨ month = 12 := by omega
  rcases cases with rfl | rfl | rfl | rfl | rfl | rfl | rfl | rfl | rfl | rfl | rfl | rfl <;>
    simp [monthLength]
  split <;> omega

theorem monthLength_le (year : Int) (month : Nat) : monthLength year month ≤ 31 := by
  simp only [monthLength]
  split
  case h_2 => split <;> omega
  all_goals omega

theorem dayNumber_one (year : Int) (month : Nat) : dayNumber year month 1 = monthStart year month := by
  simp only [dayNumber]
  omega

/-- Only a month has days. -/
theorem range_of_monthLength_pos {year : Int} {month : Nat} (h : 1 ≤ monthLength year month) :
    1 ≤ month ∧ month ≤ 12 := by
  simp only [monthLength] at h
  split at h <;> omega

end CalendarFeeds.Civil
