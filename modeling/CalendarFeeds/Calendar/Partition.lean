import CalendarFeeds.Calendar.Civil
import CalendarFeeds.Calendar.Weekday

/-! # Years and months as intervals — how they divide the days

    The first days of years and of months follow each other at the lengths that `isLeap` and
    `monthLength` give.  So every day lies in exactly one year and in exactly one month, which are
    the ones that `yearOf` and `monthOf` name, and months counted through the years ascend with
    the days. -/

namespace CalendarFeeds.Civil

-- ── Years ────────────────────────────────────────────────────────────────────────

theorem isLeap_iff {y : Int} :
    isLeap y = true ↔ y % 4 = 0 ∧ (y % 100 ≠ 0 ∨ y % 400 = 0) := by
  simp [isLeap]

/-- A year ends where the next one starts. -/
theorem yearStart_succ (y : Int) :
    yearStart (y + 1) = yearStart y + yearLength y := by
  simp only [yearStart, yearLength]
  split
  · next leap =>
      have := isLeap_iff.mp leap
      omega
  · next common =>
      have := mt isLeap_iff.mpr common
      omega

theorem yearStart_mono {a b : Int} (h : a ≤ b) : yearStart a ≤ yearStart b := by
  simp only [yearStart]
  omega

/-- **THE YEAR OF A DAY** starts on or before the day and ends after it. -/
theorem yearOf_bounds (n : Int) : yearStart (yearOf n) ≤ n ∧ n < yearStart (yearOf n + 1) := by
  -- the mean length of a year puts the estimate at most one year off
  have low : yearStart (400 * n / 146097 + 1970 - 1) ≤ n := by
    simp only [yearStart]
    omega
  have high : n < yearStart (400 * n / 146097 + 1970 + 1 + 1) := by
    simp only [yearStart]
    omega
  simp only [yearOf]
  split
  · next early => exact ⟨low, by simpa using early⟩
  · next late =>
      split
      · next past => exact ⟨past, high⟩
      · next inside => exact ⟨Int.not_lt.mp late, Int.not_le.mp inside⟩

theorem yearOf_mono {a b : Int} (h : a ≤ b) : yearOf a ≤ yearOf b := by
  by_cases le : yearOf a ≤ yearOf b
  · exact le
  · have := yearStart_mono (a := yearOf b + 1) (b := yearOf a) (by omega)
    have := yearOf_bounds a
    have := yearOf_bounds b
    omega

theorem yearOf_eq {y n : Int} (h₁ : yearStart y ≤ n) (h₂ : n < yearStart (y + 1)) :
    yearOf n = y := by
  have bounds := yearOf_bounds n
  rcases Int.lt_trichotomy (yearOf n) y with lt | eq | gt
  · have := yearStart_mono (a := yearOf n + 1) (b := y) (by omega)
    omega
  · exact eq
  · have := yearStart_mono (a := y + 1) (b := yearOf n) (by omega)
    omega

-- ── Months of a year ─────────────────────────────────────────────────────────────

theorem cases_of_month {m : Nat} (h : 1 ≤ m ∧ m ≤ 12) :
    m = 1 ∨ m = 2 ∨ m = 3 ∨ m = 4 ∨ m = 5 ∨ m = 6 ∨ m = 7 ∨ m = 8 ∨ m = 9 ∨ m = 10 ∨ m = 11
      ∨ m = 12 := by
  omega

/-- The days before a month and its own days are the days before the next one. -/
theorem daysBefore_add_monthLength {y : Int} {m : Nat} (h : 1 ≤ m ∧ m ≤ 12) :
    daysBefore y m + monthLength y m
      = if m = 12 then yearLength y else daysBefore y (m + 1) := by
  rcases cases_of_month h with rfl | rfl | rfl | rfl | rfl | rfl | rfl | rfl | rfl | rfl | rfl | rfl
  all_goals
    cases leap : isLeap y <;> simp [daysBefore, monthLength, yearLength, leap]

theorem daysBefore_mono {y : Int} {a b : Nat} (h : a ≤ b) (hb : b ≤ 12) :
    daysBefore y a ≤ daysBefore y b := by
  induction b with
  | zero =>
      obtain rfl : a = 0 := by omega
      exact Nat.le_refl _
  | succ b ih =>
      by_cases eq : a = b + 1
      · cases eq
        exact Nat.le_refl _
      · have below := ih (by omega) (by omega)
        by_cases pos : 1 ≤ b
        · have step := daysBefore_add_monthLength (y := y) (m := b) ⟨pos, by omega⟩
          rw [if_neg (by omega)] at step
          omega
        · have : b = 0 := by omega
          subst this
          exact below

theorem monthUpTo_le {y : Int} {d : Nat} : ∀ last, monthUpTo y d last ≤ last
  | 0 => Nat.le_refl 0
  | last + 1 => by
      have := monthUpTo_le (y := y) (d := d) last
      simp only [monthUpTo]
      split <;> omega

theorem month_within_year {y : Int} {m : Nat} (h : 1 ≤ m ∧ m ≤ 12) :
    daysBefore y m + monthLength y m ≤ yearLength y := by
  have here := daysBefore_add_monthLength (y := y) h
  by_cases last : m = 12
  · rw [if_pos last] at here
    omega
  · rw [if_neg last] at here
    have later := daysBefore_mono (y := y) (a := m + 1) (b := 12) (by omega) (by omega)
    have december := daysBefore_add_monthLength (y := y) (m := 12) (by omega)
    rw [if_pos rfl] at december
    omega

/-- The month found for a day of the year is the last one that begins by then. -/
theorem le_monthUpTo_iff {y : Int} {d m : Nat} (h : 1 ≤ m) :
    ∀ last, m ≤ last → last ≤ 12 → (m ≤ monthUpTo y d last ↔ daysBefore y m ≤ d)
  | 0, hm, _ => absurd hm (by omega)
  | last + 1, hm, hl => by
      simp only [monthUpTo]
      by_cases begun : daysBefore y (last + 1) ≤ d
      · rw [if_pos begun]
        have := daysBefore_mono (y := y) hm hl
        omega
      · rw [if_neg begun]
        by_cases eq : m = last + 1
        · have := monthUpTo_le (y := y) (d := d) last
          rw [eq]
          omega
        · exact le_monthUpTo_iff h last (by omega) (by omega)

theorem le_monthOfDay_iff {y : Int} {d m : Nat} (h : 1 ≤ m ∧ m ≤ 12) :
    m ≤ monthOfDay y d ↔ daysBefore y m ≤ d :=
  le_monthUpTo_iff h.1 12 h.2 (Nat.le_refl 12)

theorem monthOfDay_range (y : Int) (d : Nat) : 1 ≤ monthOfDay y d ∧ monthOfDay y d ≤ 12 :=
  ⟨(le_monthOfDay_iff (by omega)).mpr (Nat.zero_le d), monthUpTo_le 12⟩

/-- A day of the year lies in a month exactly when it comes after the days before the month and
    among its own. -/
theorem monthOfDay_eq_iff {y : Int} {d m : Nat} (h : 1 ≤ m ∧ m ≤ 12)
    (hd : d < yearLength y) :
    monthOfDay y d = m ↔ daysBefore y m ≤ d ∧ d < daysBefore y m + monthLength y m := by
  have range := monthOfDay_range y d
  have here := le_monthOfDay_iff (y := y) (d := d) h
  rw [daysBefore_add_monthLength h]
  by_cases last : m = 12
  · rw [if_pos last]
    omega
  · have after := le_monthOfDay_iff (y := y) (d := d) (m := m + 1) (by omega)
    rw [if_neg last]
    omega

-- ── Months of all years ──────────────────────────────────────────────────────────

def InMonth (y : Int) (m : Nat) (n : Int) : Prop :=
  monthStart y m ≤ n ∧ n < monthStart y m + monthLength y m

theorem dayOfYear_eq (n : Int) : (dayOfYear n : Int) = n - yearStart (yearOf n) := by
  have := yearOf_bounds n
  simp only [dayOfYear]
  omega

theorem dayOfYear_lt (n : Int) : dayOfYear n < yearLength (yearOf n) := by
  have bounds := yearOf_bounds n
  have place := dayOfYear_eq n
  rw [yearStart_succ] at bounds
  omega

theorem monthOf_range (n : Int) : 1 ≤ monthOf n ∧ monthOf n ≤ 12 :=
  monthOfDay_range (yearOf n) (dayOfYear n)

/-- **THE MONTH OF A DAY** is the one month that holds it. -/
theorem inMonth_iff {y : Int} {m : Nat} (h : 1 ≤ m ∧ m ≤ 12) {n : Int} :
    InMonth y m n ↔ yearOf n = y ∧ monthOf n = m := by
  have place := dayOfYear_eq n
  have day := monthOfDay_eq_iff (y := yearOf n) h (dayOfYear_lt n)
  constructor
  · rintro ⟨low, high⟩
    have year : yearOf n = y := by
      have within := month_within_year (y := y) h
      have next := yearStart_succ y
      simp only [monthStart] at low high
      exact yearOf_eq (by omega) (by omega)
    refine ⟨year, day.mpr ?_⟩
    rw [year] at place ⊢
    simp only [monthStart] at low high
    omega
  · rintro ⟨rfl, held⟩
    have := day.mp held
    simp only [InMonth, monthStart]
    omega

theorem inMonth_self (n : Int) : InMonth (yearOf n) (monthOf n) n :=
  (inMonth_iff (monthOf_range n)).mpr ⟨rfl, rfl⟩

/-- A month ends where the next one starts, December included. -/
theorem monthStart_nextMonth {y : Int} {m : Nat} (h : 1 ≤ m ∧ m ≤ 12) :
    monthStart (nextMonth y m).1 (nextMonth y m).2 = monthStart y m + monthLength y m := by
  have within := daysBefore_add_monthLength (y := y) h
  simp only [nextMonth, monthStart]
  by_cases last : m = 12
  · rw [if_pos (by omega)]
    rw [if_pos last] at within
    have next := yearStart_succ y
    have first : daysBefore (y + 1) 1 = 0 := rfl
    simp only [first]
    omega
  · rw [if_neg (by omega)]
    rw [if_neg last] at within
    simp only
    omega

/-- The day of the month counts from the first. -/
theorem dayOf_eq (n : Int) : (dayOf n : Int) = n - monthStart (yearOf n) (monthOf n) + 1 := by
  have place := dayOfYear_eq n
  have own := inMonth_self n
  simp only [InMonth, monthStart] at own
  simp only [dayOf, monthStart]
  omega

theorem dayOf_range (n : Int) : 1 ≤ dayOf n ∧ dayOf n ≤ monthLength (yearOf n) (monthOf n) := by
  have own := inMonth_self n
  have day := dayOf_eq n
  simp only [InMonth] at own
  omega

-- ── Months in a row ──────────────────────────────────────────────────────────────

/-- Months counted through the years. -/
def monthIndex (y : Int) (m : Nat) : Int := 12 * y + m

/-- The count of the month of a day. -/
def indexOf (n : Int) : Int := monthIndex (yearOf n) (monthOf n)

theorem indexOf_mono {a b : Int} (h : a ≤ b) : indexOf a ≤ indexOf b := by
  have years := yearOf_mono h
  have ra := monthOf_range a
  have rb := monthOf_range b
  simp only [indexOf, monthIndex]
  by_cases same : yearOf a = yearOf b
  · have begun : daysBefore (yearOf b) (monthOf a) ≤ dayOfYear b := by
      have day := (monthOfDay_eq_iff ra (dayOfYear_lt a)).mp rfl
      have da := dayOfYear_eq a
      have db := dayOfYear_eq b
      rw [same] at day da
      omega
    have months : monthOf a ≤ monthOf b := (le_monthOfDay_iff ra).mpr begun
    omega
  · omega

theorem eq_of_monthIndex_eq {y y' : Int} {m m' : Nat} (h : 1 ≤ m ∧ m ≤ 12)
    (h' : 1 ≤ m' ∧ m' ≤ 12) (eq : monthIndex y m = monthIndex y' m') : y = y' ∧ m = m' := by
  simp only [monthIndex] at eq
  omega

/-- A day lies in a month or a later one exactly when it is not before the month's first day. -/
theorem monthIndex_le_indexOf_iff {y : Int} {m : Nat} (h : 1 ≤ m ∧ m ≤ 12) {n : Int} :
    monthIndex y m ≤ indexOf n ↔ monthStart y m ≤ n := by
  have pos : 28 ≤ monthLength y m := monthLength_pos h.1 h.2
  have first : InMonth y m (monthStart y m) := ⟨by omega, by omega⟩
  obtain ⟨hy, hm⟩ := (inMonth_iff h).mp first
  have own : indexOf (monthStart y m) = monthIndex y m := by
    simp only [indexOf]
    rw [hy, hm]
  constructor
  · intro later
    by_cases before : n < monthStart y m
    · -- a day before the month has its count only if it lies in it
      have index := indexOf_mono (Int.le_of_lt before)
      have range := monthOf_range n
      obtain ⟨hy', hm'⟩ := eq_of_monthIndex_eq range h (show indexOf n = monthIndex y m by omega)
      exact absurd ((inMonth_iff h).mpr ⟨hy', hm'⟩).1 (by omega)
    · omega
  · intro after
    have := indexOf_mono after
    omega

theorem monthIndex_nextMonth {y : Int} {m : Nat} (h : m ≤ 12) :
    monthIndex (nextMonth y m).1 (nextMonth y m).2 = monthIndex y m + 1 := by
  simp only [nextMonth, monthIndex]
  split <;> simp only <;> omega

theorem nextMonth_range {y : Int} {m : Nat} (h : m ≤ 12) :
    1 ≤ (nextMonth y m).2 ∧ (nextMonth y m).2 ≤ 12 := by
  simp only [nextMonth]
  split <;> simp only <;> omega

end CalendarFeeds.Civil
