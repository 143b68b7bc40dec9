import CalendarFeeds.Calendar.Date
import CalendarFeeds.Schedule.Error

/-! # Allowed months — in which months a schedule may fall

    A schedule may fall in every month or only in some.  A list of months is brought into normal
    form first: sorted, without repeats, and no limit at all when it is empty or names the whole
    year. -/

namespace CalendarFeeds

/-- The months that a schedule is limited to. -/
inductive AllowedMonths where
  | every
  | only (months : List Nat)
  deriving DecidableEq, Repr

namespace AllowedMonths

/-- The limit that a list of months states, or the first of them that is no month. -/
def ofList (months : List Nat) : Except ScheduleError AllowedMonths :=
  match months.find? fun m => m < 1 || 12 < m with
  | some bad => .error (.invalidMonth bad)
  | none =>
    let sorted := ascending months
    .ok (if sorted = [] ∨ sorted.length = 12 then every else only sorted)

def single (month : Nat) : Except ScheduleError AllowedMonths :=
  ofList [month]

/-- The months of the limit, if there is one. -/
def list? : AllowedMonths → Option (List Nat)
  | every => none
  | only months => some months

def allows (a : AllowedMonths) (month : Nat) : Bool :=
  match a with
  | every => true
  | only months => months.contains month

/-- The first of the next so many months after a month that is allowed. -/
def nextMonth? (a : AllowedMonths) : Nat → Int → Nat → Option (Int × Nat)
  | 0, _, _ => none
  | count + 1, year, month =>
    let next := Civil.nextMonth year month
    if a.allows next.2 then some next else nextMonth? a count next.1 next.2

/-- The first day of the next allowed month after the month of a date, at most a year ahead. -/
def nextStart? (a : AllowedMonths) (d : Date) : Option Date :=
  (a.nextMonth? 12 d.year d.month).bind fun (year, month) => Date.ofCivil? year month 1

/-- The month found is allowed and lies ahead, and no month on the way to it is allowed. -/
theorem nextMonth?_eq_some {a : AllowedMonths} {count : Nat} {year : Int} {month : Nat}
    (h : month ≤ 12) {y : Int} {m : Nat} (found : a.nextMonth? count year month = some (y, m)) :
    (1 ≤ m ∧ m ≤ 12) ∧ a.allows m = true ∧ Civil.monthIndex year month < Civil.monthIndex y m
      ∧ ∀ y' m', (1 ≤ m' ∧ m' ≤ 12) → Civil.monthIndex year month < Civil.monthIndex y' m' →
          Civil.monthIndex y' m' < Civil.monthIndex y m → a.allows m' = false := by
  induction count generalizing year month with
  | zero => cases found
  | succ count ih =>
      have step := Civil.monthIndex_nextMonth (y := year) h
      have range := Civil.nextMonth_range (y := year) h
      simp only [nextMonth?] at found
      split at found
      · next allowed =>
          have eq : Civil.nextMonth year month = (y, m) := Option.some.inj found
          simp only [eq] at step range allowed
          exact ⟨range, allowed, by omega, fun y' m' valid after before => by omega⟩
      · next refused =>
          obtain ⟨hm, ha, ahead, between⟩ := ih range.2 found
          refine ⟨hm, ha, by omega, fun y' m' valid after before => ?_⟩
          by_cases here : Civil.monthIndex y' m'
              = Civil.monthIndex (Civil.nextMonth year month).1 (Civil.nextMonth year month).2
          · rw [(Civil.eq_of_monthIndex_eq valid range here).2]
            exact Bool.eq_false_iff.mpr refused
          · exact between y' m' valid (by omega) before

/-- The start of the next allowed month is a later date. -/
theorem lt_of_nextStart? {a : AllowedMonths} {d start : Date} (h : a.nextStart? d = some start) :
    d < start := by
  unfold nextStart? at h
  obtain ⟨⟨year, month⟩, found, first⟩ := Option.bind_eq_some_iff.mp h
  obtain ⟨-, -, ahead, -⟩ := nextMonth?_eq_some d.month_range.2 found
  obtain ⟨hy, hm, -⟩ := Date.ofCivil?_eq_some_iff.mp first
  have order : ¬ start.number ≤ d.number := by
    intro le
    have := Civil.indexOf_mono le
    rw [← hy, ← hm] at ahead
    simp only [Civil.indexOf] at this
    simp only [Date.year, Date.month] at ahead
    omega
  exact Int.not_le.mp order

end AllowedMonths

end CalendarFeeds
