import CalendarFeeds.Text.Numeral
import CalendarFeeds.Calendar.Partition

/-! # Dates — days of the range that schedules may use

    A date is a day number between -262143-01-01 and +262142-12-31; the bounds are part of the
    type, so every operation that could leave the range returns an option.  Its text is
    `YYYY-MM-DD`, with a sign before a year outside 0 to 9999. -/

namespace CalendarFeeds

/-- A day of the proleptic Gregorian calendar. -/
structure Date where
  /-- Days since 1970-01-01. -/
  number : Int
  inRange : Civil.yearStart (-262143) ≤ number ∧ number < Civil.yearStart 262143
  deriving DecidableEq

namespace Date

/-- The date of a day number, if it is in range. -/
def ofNumber? (n : Int) : Option Date :=
  if h : Civil.yearStart (-262143) ≤ n ∧ n < Civil.yearStart 262143 then some ⟨n, h⟩ else none

/-- The date with a year, month and day, if there is one in range. -/
def ofCivil? (year : Int) (month day : Nat) : Option Date :=
  if 1 ≤ day ∧ day ≤ Civil.monthLength year month then
    ofNumber? (Civil.dayNumber year month day)
  else none

def year (d : Date) : Int := Civil.yearOf d.number

def month (d : Date) : Nat := Civil.monthOf d.number

def day (d : Date) : Nat := Civil.dayOf d.number

def weekday (d : Date) : Weekday := Weekday.ofDay d.number

instance : LE Date := ⟨fun a b => a.number ≤ b.number⟩

instance : LT Date := ⟨fun a b => a.number < b.number⟩

instance (a b : Date) : Decidable (a ≤ b) := inferInstanceAs (Decidable (a.number ≤ b.number))

instance (a b : Date) : Decidable (a < b) := inferInstanceAs (Decidable (a.number < b.number))

/-- The date some days later, if it is in range. -/
def addDays? (d : Date) (days : Nat) : Option Date :=
  ofNumber? (d.number + days)

/-- Which occurrence of its weekday in its month the date is, from 1. -/
def ordinal (d : Date) : Nat :=
  (d.day - 1) / 7 + 1

/-- The `n`-th of a weekday in a month, if the month has that many. -/
def nthWeekday? (year : Int) (month : Nat) (w : Weekday) (n : Nat) : Option Date :=
  if n = 0 then none
  else
    let first := Weekday.ofDay (Civil.dayNumber year month 1)
    let ahead := (w.index + 7 - first.index) % 7
    ofCivil? year month (7 * (n - 1) + ahead + 1)

/-- A year in four places, signed outside 0 to 9999. -/
def yearText (year : Int) : String :=
  if year < 0 then "-" ++ Text.padded 4 year.natAbs
  else if year ≤ 9999 then Text.padded 4 year.natAbs
  else "+" ++ Text.padded 4 year.natAbs

def numberText (n : Int) : String :=
  yearText (Civil.yearOf n) ++ "-" ++ Text.padded 2 (Civil.monthOf n) ++ "-"
    ++ Text.padded 2 (Civil.dayOf n)

def text (d : Date) : String := numberText d.number

def ofText? (s : String) : Option Date :=
  let (negative, rest) : Bool × List Char :=
    match s.toList with
    | '-' :: rest => (true, rest)
    | '+' :: rest => (false, rest)
    | rest => (false, rest)
  let year := rest.takeWhile (· != '-')
  match rest.dropWhile (· != '-') with
  | '-' :: m₁ :: m₂ :: '-' :: d₁ :: d₂ :: [] =>
    match Text.natural? year, Text.natural? [m₁, m₂], Text.natural? [d₁, d₂] with
    | some y, some m, some d => ofCivil? (if negative then -(y : Int) else y) m d
    | _, _, _ => none
  | _ => none

theorem le_def {a b : Date} : a ≤ b ↔ a.number ≤ b.number := Iff.rfl

theorem lt_def {a b : Date} : a < b ↔ a.number < b.number := Iff.rfl

theorem eq_of_number_eq {a b : Date} (h : a.number = b.number) : a = b := by
  cases a
  cases b
  simp only at h
  subst h
  rfl

theorem ofNumber?_eq_some_iff {n : Int} {d : Date} : ofNumber? n = some d ↔ d.number = n := by
  simp only [ofNumber?]
  constructor
  · intro h
    split at h
    · cases h
      rfl
    · cases h
  · rintro rfl
    rw [dif_pos d.inRange]

theorem number_of_ofNumber? {n : Int} {d : Date} (h : ofNumber? n = some d) : d.number = n :=
  ofNumber?_eq_some_iff.mp h

theorem month_range (d : Date) : 1 ≤ d.month ∧ d.month ≤ 12 := Civil.monthOf_range d.number

theorem day_range (d : Date) : 1 ≤ d.day ∧ d.day ≤ Civil.monthLength d.year d.month :=
  Civil.dayOf_range d.number

theorem day_eq (d : Date) : (d.day : Int) = d.number - Civil.monthStart d.year d.month + 1 :=
  Civil.dayOf_eq d.number

/-- Year, month and day name the date that has them. -/
theorem ofCivil?_eq_some_iff {year : Int} {month day : Nat} {d : Date} :
    ofCivil? year month day = some d ↔ d.year = year ∧ d.month = month ∧ d.day = day := by
  have place := d.day_eq
  simp only [ofCivil?, Civil.dayNumber]
  constructor
  · intro h
    split at h
    · next fits =>
        have number := ofNumber?_eq_some_iff.mp h
        have real : 1 ≤ month ∧ month ≤ 12 :=
          Civil.range_of_monthLength_pos (Nat.le_trans fits.1 fits.2)
        have held : Civil.InMonth year month d.number := by
          simp only [Civil.InMonth]
          omega
        obtain ⟨hy, hm⟩ : d.year = year ∧ d.month = month := (Civil.inMonth_iff real).mp held
        rw [hy, hm] at place
        exact ⟨hy, hm, by omega⟩
    · cases h
  · rintro ⟨rfl, rfl, rfl⟩
    rw [if_pos d.day_range]
    exact ofNumber?_eq_some_iff.mpr (by omega)

/-- A month that begins in range, on or before a date, has a first date. -/
theorem ofCivil?_one {year : Int} {month : Nat} (h : 1 ≤ month ∧ month ≤ 12)
    (after : Civil.yearStart (-262143) ≤ Civil.monthStart year month) {d : Date}
    (before : Civil.monthStart year month ≤ d.number) :
    ∃ first, ofCivil? year month 1 = some first
      ∧ first.number = Civil.monthStart year month := by
  have long : 28 ≤ Civil.monthLength year month := Civil.monthLength_pos h.1 h.2
  have upper := d.inRange.2
  refine ⟨⟨Civil.monthStart year month, by omega, by omega⟩, ?_, rfl⟩
  simp only [ofCivil?]
  rw [if_pos (by omega), Civil.dayNumber_one]
  exact ofNumber?_eq_some_iff.mpr rfl

/-- The range of dates begins with a month. -/
theorem monthStart_inRange (d : Date) :
    Civil.yearStart (-262143) ≤ Civil.monthStart d.year d.month := by
  have lower := d.inRange.1
  have first : ¬ d.year + 1 ≤ -262143 := by
    intro early
    have within : d.number < Civil.yearStart (d.year + 1) := (Civil.yearOf_bounds d.number).2
    have := Civil.yearStart_mono early
    omega
  have year := Civil.yearStart_mono (show -262143 ≤ d.year by omega)
  simp only [Civil.monthStart]
  omega

theorem number_of_ofCivil?_one {year : Int} {month : Nat} {first : Date}
    (h : ofCivil? year month 1 = some first) :
    (1 ≤ month ∧ month ≤ 12) ∧ first.number = Civil.monthStart year month := by
  obtain ⟨hy, hm, hd⟩ := ofCivil?_eq_some_iff.mp h
  have valid := first.month_range
  have place := first.day_eq
  rw [hy, hm, hd] at place
  rw [hm] at valid
  exact ⟨valid, by omega⟩

/-- **THE N-TH WEEKDAY OF A MONTH** is the date of the month with that weekday and that
    ordinal. -/
theorem nthWeekday?_eq_some_iff {year : Int} {month n : Nat} {w : Weekday} {d : Date} :
    nthWeekday? year month w n = some d
      ↔ d.year = year ∧ d.month = month ∧ d.weekday = w ∧ d.ordinal = n := by
  have place := d.day_eq
  have pos := d.day_range.1
  have weekday : d.weekday = w ↔ (d.number + 3) % 7 = w.index := Weekday.ofDay_eq_iff
  have first := Weekday.index_ofDay (Civil.monthStart year month)
  have bound := Weekday.index_lt w
  unfold nthWeekday? ordinal
  by_cases zero : n = 0
  · rw [if_pos zero]
    constructor
    · intro h
      cases h
    · rintro ⟨-, -, -, h⟩
      omega
  · rw [if_neg zero]
    simp only
    rw [ofCivil?_eq_some_iff, weekday, Civil.dayNumber_one]
    constructor
    · rintro ⟨hy, hm, hd⟩
      rw [hy, hm] at place
      exact ⟨hy, hm, by omega, by omega⟩
    · rintro ⟨hy, hm, hw, ho⟩
      rw [hy, hm] at place
      exact ⟨hy, hm, by omega⟩

end Date

end CalendarFeeds
