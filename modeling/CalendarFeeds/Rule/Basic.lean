import CalendarFeeds.Text.Numeral
import CalendarFeeds.Calendar.Weekday

/-! # Recurrence rules — frequency, weekdays and months

    A rule repeats every week, month or year and may be limited to some days of the week and to
    some months.  A day term with an ordinal stands for one such weekday of a period, one without
    for all of them.  `text` writes the parts of a rule in the order FREQ, BYDAY, BYMONTH and
    leaves out the lists that are empty. -/

namespace CalendarFeeds

/-- How often a rule repeats. -/
inductive Frequency where
  | weekly
  | monthly
  | yearly
  deriving DecidableEq, Repr

def Frequency.word : Frequency → String
  | .weekly => "WEEKLY"
  | .monthly => "MONTHLY"
  | .yearly => "YEARLY"

/-- A weekday, or the n-th such weekday of a period. -/
structure DayTerm where
  ordinal : Option Nat
  weekday : Weekday
  deriving DecidableEq, Repr

namespace DayTerm

def every (w : Weekday) : DayTerm := ⟨none, w⟩

/-- The n-th such weekday of a month, for n from 1 to 5. -/
def nth? (n : Nat) (w : Weekday) : Option DayTerm :=
  if 1 ≤ n ∧ n ≤ 5 then some ⟨some n, w⟩ else none

/-- The ordinal in digits, if there is one, then the code of the weekday. -/
def text (t : DayTerm) : String :=
  match t.ordinal with
  | none => t.weekday.code
  | some n => Text.natural n ++ t.weekday.code

end DayTerm

structure Rule where
  frequency : Frequency
  days : List DayTerm
  months : List Nat
  deriving DecidableEq, Repr

namespace Rule

/-- A part of a rule's text: nothing for an empty list. -/
def part (key : String) (values : List String) : String :=
  if values.isEmpty then "" else key ++ String.intercalate "," values

def text (r : Rule) : String :=
  "FREQ=" ++ r.frequency.word ++ part ";BYDAY=" (r.days.map DayTerm.text)
    ++ part ";BYMONTH=" (r.months.map Text.natural)

end Rule

end CalendarFeeds
