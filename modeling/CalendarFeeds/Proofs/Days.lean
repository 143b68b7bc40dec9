import CalendarFeeds.Schedule.Anchor

/-! # The days of a recurrence — which days a schedule calls for

    A recurrence falls on the days with its weekday that lie in an allowed month and that are,
    where it asks for ordinals, the right ones of their month.  Which one of its weekday a day is
    gets counted: `occurrence` is the number of days of the month, up to the day, that share the
    weekday.  The calendar repeats every 400 years, so a recurrence that falls on one day falls on
    days as late as one likes. -/

namespace CalendarFeeds

namespace Civil

/-- The number of days of a month, up to a day of it, that share the weekday of the day. -/
def occurrence (n : Int) : Nat :=
  ((List.range (dayOf n)).filter fun (back : Nat) =>
    decide (Weekday.ofDay (n - back) = Weekday.ofDay n)).length

/-- Of every seven numbers in a row one has a given remainder. -/
theorem length_filter_mod {r : Nat} (h : r < 7) (days : Nat) :
    ((List.range days).filter fun k => decide (k % 7 = r)).length = (days + 6 - r) / 7 := by
  induction days with
  | zero =>
      simp only [List.range_zero, List.filter_nil, List.length_nil]
      omega
  | succ days ih =>
      rw [List.range_succ, List.filter_append, List.length_append, ih]
      by_cases hit : days % 7 = r
      · rw [List.filter_cons_of_pos (by simpa using hit)]
        simp only [List.filter_nil, List.length_singleton]
        omega
      · rw [List.filter_cons_of_neg (by simpa using hit)]
        simp only [List.filter_nil, List.length_nil]
        omega

/-- **COUNTING WEEKS**: the same weekday comes back every seven days. -/
theorem occurrence_eq (n : Int) : occurrence n = (dayOf n - 1) / 7 + 1 := by
  have pos := (dayOf_range n).1
  have same : ∀ back : Nat, Weekday.ofDay (n - back) = Weekday.ofDay n ↔ back % 7 = 0 := by
    intro back
    have place := Weekday.index_ofDay n
    rw [Weekday.ofDay_eq_iff]
    omega
  simp only [occurrence]
  simp only [same]
  rw [length_filter_mod (by omega)]
  omega

-- ── The cycle of the calendar ────────────────────────────────────────────────────

/-- The days of 400 years, which are whole weeks. -/
def cycle : Int := 146097

/-- Leap years repeat after four hundred years. -/
theorem isLeap_add_cycle (year : Int) : isLeap (year + 400) = isLeap year := by
  have four : (year + 400) % 4 = year % 4 := by omega
  have hundred : (year + 400) % 100 = year % 100 := by omega
  have all : (year + 400) % 400 = year % 400 := by omega
  simp only [isLeap, four, hundred, all]

theorem daysBefore_add_cycle (year : Int) (month : Nat) :
    daysBefore (year + 400) month = daysBefore year month := by
  simp only [daysBefore, isLeap_add_cycle]

/-- Four hundred years are a whole cycle of days, whatever the year they start from. -/
theorem yearStart_add_cycle (year : Int) : yearStart (year + 400) = yearStart year + cycle := by
  simp only [yearStart, cycle]
  omega

/-- A cycle later it is the same day four hundred years on. -/
theorem yearOf_add_cycle (n : Int) : yearOf (n + cycle) = yearOf n + 400 := by
  have guess : 400 * (n + cycle) / 146097 + 1970 = 400 * n / 146097 + 1970 + 400 := by
    simp only [cycle]
    omega
  have next : 400 * n / 146097 + 1970 + 400 + 1 = 400 * n / 146097 + 1970 + 1 + 400 := by omega
  simp only [yearOf, guess, next, yearStart_add_cycle, Int.add_lt_add_iff_right,
    Int.add_le_add_iff_right]
  split
  · omega
  · split <;> omega

theorem dayOfYear_add_cycle (n : Int) : dayOfYear (n + cycle) = dayOfYear n := by
  simp only [dayOfYear, yearOf_add_cycle, yearStart_add_cycle]
  omega

theorem monthOf_add_cycle (n : Int) : monthOf (n + cycle) = monthOf n := by
  have upTo : ∀ d count, monthUpTo (yearOf n + 400) d count = monthUpTo (yearOf n) d count := by
    intro d count
    induction count with
    | zero => rfl
    | succ count ih => simp only [monthUpTo, daysBefore_add_cycle, ih]
  simp only [monthOf, monthOfDay, yearOf_add_cycle, dayOfYear_add_cycle, upTo]

theorem dayOf_add_cycle (n : Int) : dayOf (n + cycle) = dayOf n := by
  simp only [dayOf, dayOfYear_add_cycle, yearOf_add_cycle, monthOf_add_cycle, daysBefore_add_cycle]

theorem occurrence_add_cycle (n : Int) : occurrence (n + cycle) = occurrence n := by
  rw [occurrence_eq, occurrence_eq, dayOf_add_cycle]

/-- A cycle is a whole number of weeks. -/
theorem weekday_add_cycle (n : Int) : Weekday.ofDay (n + cycle) = Weekday.ofDay n := by
  have place := Weekday.index_ofDay n
  rw [Weekday.ofDay_eq_iff]
  simp only [cycle]
  omega

end Civil

/-- A date's ordinal is the place of its weekday in the month. -/
theorem Date.ordinal_eq_occurrence (d : Date) : d.ordinal = Civil.occurrence d.number :=
  (Civil.occurrence_eq d.number).symm

namespace Recurrence

/-- The days on which a recurrence falls within a limit; a yearly recurrence keeps to its own
    month, whatever the limit. -/
def FallsOn : Recurrence → AllowedMonths → Int → Prop
  | weekly w, limit, n =>
      Weekday.ofDay n = w ∧ limit.allows (Civil.monthOf n) = true
  | monthly o w, limit, n =>
      Weekday.ofDay n = w ∧ Civil.occurrence n ∈ o.values
        ∧ limit.allows (Civil.monthOf n) = true
  | yearly o w own, _, n =>
      Weekday.ofDay n = w ∧ Civil.occurrence n ∈ o.values ∧ Civil.monthOf n = own

/-- Every day of a recurrence is of its weekday. -/
theorem weekday_of_fallsOn {r : Recurrence} {limit : AllowedMonths} {n : Int}
    (h : r.FallsOn limit n) : Weekday.ofDay n = r.weekday := by
  cases r with
  | weekly w => exact h.1
  | monthly o w => exact h.1
  | yearly o w own => exact h.1

/-- A recurrence repeats with the cycle, whatever its shape and its limit. -/
theorem fallsOn_add_cycle {r : Recurrence} {limit : AllowedMonths} {n : Int} :
    r.FallsOn limit (n + Civil.cycle) ↔ r.FallsOn limit n := by
  cases r <;>
    simp only [FallsOn, Civil.weekday_add_cycle, Civil.occurrence_add_cycle,
      Civil.monthOf_add_cycle]

/-- **NO LAST DAY**: a recurrence that falls on a day falls on one after any other day. -/
theorem exists_later_fallsOn {r : Recurrence} {limit : AllowedMonths} {n : Int}
    (h : r.FallsOn limit n) (bound : Int) : ∃ day, bound ≤ day ∧ r.FallsOn limit day := by
  have cycles : ∀ count : Nat, r.FallsOn limit (n + count * Civil.cycle) := by
    intro count
    induction count with
    | zero => simpa using h
    | succ count ih =>
        have next : n + (count + 1 : Nat) * Civil.cycle
            = n + count * Civil.cycle + Civil.cycle := by
          rw [Int.natCast_succ, Int.add_mul, Int.one_mul, Int.add_assoc]
        rw [next]
        exact fallsOn_add_cycle.mpr ih
  refine ⟨n + (bound - n).toNat * Civil.cycle, ?_, cycles _⟩
  simp only [Civil.cycle]
  omega

end Recurrence

end CalendarFeeds
