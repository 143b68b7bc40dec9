import CalendarFeeds.Rule.Basic
import CalendarFeeds.Schedule.AllowedMonths

/-! # Rules of recurrences — a recurrence and its months as a recurrence rule

    A weekly recurrence that is limited to some months becomes a yearly rule over the weekday in
    those months; a monthly one keeps its frequency.  A yearly recurrence names its own month. -/

namespace CalendarFeeds.Recurrence

/-- The day terms for some occurrences of a weekday. -/
def dayTerms (o : Ordinals) (w : Weekday) : List DayTerm :=
  o.values.filterMap fun n => DayTerm.nth? n w

def rule (r : Recurrence) (allowed : AllowedMonths) : Rule :=
  match r with
  | weekly w =>
    match allowed.list? with
    | none => ⟨.weekly, [.every w], []⟩
    | some months => ⟨.yearly, [.every w], months⟩
  | monthly o w => ⟨.monthly, dayTerms o w, allowed.list?.getD []⟩
  | yearly o w month => ⟨.yearly, dayTerms o w, [month]⟩

end CalendarFeeds.Recurrence
