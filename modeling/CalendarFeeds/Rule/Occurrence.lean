import CalendarFeeds.Rule.Basic
import CalendarFeeds.Zone.Instant

/-! # Occurrences — the instants at which a rule repeats

    A rule is read together with the instant it starts from.  `selects` says which days the rule
    picks; what the rule leaves open is filled in from the first day.  Periods (weeks from Monday,
    months or years) are walked in order; on each day that a period holds, the occurrence is at
    the start's time of day. -/

namespace CalendarFeeds.Rule

/-- The ordinal of a day term; zero counts as none. -/
def placeOf (t : DayTerm) : Option Nat :=
  t.ordinal.filter (· != 0)

/-- The weekdays of the terms that have no ordinal. -/
def plainDays (r : Rule) : List Weekday :=
  (r.days.filter fun t => (placeOf t).isNone).map DayTerm.weekday

/-- The terms that have an ordinal. -/
def numberedDays (r : Rule) : List (Nat × Weekday) :=
  r.days.filterMap fun t => (placeOf t).map fun n => (n, t.weekday)

/-- Which one of its weekday a day is: in its year for a yearly rule that names no months, else in
    its month. -/
def place (r : Rule) (day : Int) : Nat :=
  if r.frequency = .yearly ∧ r.months = [] then Civil.dayOfYear day / 7 + 1
  else (Civil.dayOf day - 1) / 7 + 1

/-- Whether a day lies in a month of the rule.  A yearly rule that names neither months nor days
    keeps to the month of its first day. -/
def inMonths (r : Rule) (first day : Int) : Bool :=
  if r.months = [] then
    if r.frequency = .yearly ∧ r.days = [] then Civil.monthOf day == Civil.monthOf first else true
  else r.months.contains (Civil.monthOf day)

/-- Whether a day satisfies the day terms: the plain and the numbered ones each, where there are
    any.  A weekly rule has no use for ordinals.  Without terms the first day decides. -/
def onDays (r : Rule) (first day : Int) : Bool :=
  let weekday := Weekday.ofDay day
  if r.days = [] then
    if r.frequency = .weekly then weekday == Weekday.ofDay first
    else Civil.dayOf day == Civil.dayOf first
  else
    (r.plainDays = [] || r.plainDays.contains weekday)
      && (r.frequency = .weekly || r.numberedDays = []
        || r.numberedDays.any fun (n, w) => w == weekday && n == r.place day)

/-- Whether a rule whose first day is `first` picks a day. -/
def selects (r : Rule) (first day : Int) : Bool :=
  r.onDays first day && r.inMonths first day

/-- The first day of the period that the first day of a rule lies in; the first week is cut
    short. -/
def periodStart (f : Frequency) (first : Int) : Int :=
  match f with
  | .weekly => first
  | .monthly => Civil.monthStart (Civil.yearOf first) (Civil.monthOf first)
  | .yearly => Civil.yearStart (Civil.yearOf first)

/-- The number of days of the period that begins on a day. -/
def periodLength (f : Frequency) (day : Int) : Nat :=
  match f with
  | .weekly => 7 - (Weekday.ofDay day).index
  | .monthly => Civil.monthLength (Civil.yearOf day) (Civil.monthOf day)
  | .yearly => Civil.yearLength (Civil.yearOf day)

/-- The first day of the next period.  The search ends with the year that leaves -10000 to
    10000. -/
def nextPeriod? (f : Frequency) (day : Int) : Option Int :=
  let next := day + periodLength f day
  let year := Civil.yearOf next
  if year ≠ Civil.yearOf day ∧ ¬ (-10000 ≤ year ∧ year ≤ 10000) then none else some next

/-- The occurrence on a day: the instant that shows the time of day, if it is the only one; else
    that time counted from midnight, if midnight comes once; else none. -/
def occurrenceOn? (zone : Zone) (time : Int) (day : Int) : Option Instant :=
  match zone.instants (86400 * day + time) with
  | [utc] => some ⟨utc, false, zone⟩
  | _ =>
    match zone.instants (86400 * day) with
    | [midnight] => some ⟨midnight + time, false, zone⟩
    | _ => none

/-- The occurrences in the period that begins on a day, without those before the start. -/
def occurrencesIn (r : Rule) (start : Instant) (day : Int) : List Instant :=
  let first := start.shown / 86400
  let time := start.shown % 86400
  (List.range (periodLength r.frequency day)).filterMap fun (k : Nat) =>
    if r.selects first (day + (k : Int)) then
      (occurrenceOn? start.zone time (day + (k : Int))).filter (·.notBefore start)
    else none

/-- The first period with occurrences, among so many periods from a day on: its first occurrence,
    the others, and the period after it. -/
def findPeriod (r : Rule) (start : Instant) :
    Nat → Int → Option (Instant × List Instant × Option Int)
  | 0, _ => none
  | periods + 1, day =>
    match r.occurrencesIn start day with
    | i :: rest => some (i, rest, nextPeriod? r.frequency day)
    | [] =>
      match nextPeriod? r.frequency day with
      | none => none
      | some next => findPeriod r start periods next

/-- How many periods in a row may be without occurrences. -/
def patience : Nat := 100000

/-- At most so many occurrences: those at hand, then those of the periods from a day on. -/
def take (r : Rule) (start : Instant) : Nat → List Instant → Option Int → List Instant
  | 0, _, _ => []
  | n + 1, i :: rest, next => i :: take r start n rest next
  | _ + 1, [], none => []
  | n + 1, [], some day =>
    match r.findPeriod start patience day with
    | none => []
    | some (i, rest, next) => i :: take r start n rest next

/-- The first occurrences of a rule from an instant on, at most so many. -/
def occurrences (r : Rule) (start : Instant) (limit : Nat) : List Instant :=
  r.take start limit [] (some (periodStart r.frequency (start.shown / 86400)))

end CalendarFeeds.Rule
