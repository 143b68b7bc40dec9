import CalendarFeeds.Schedule.Error

/-! # Generation windows — the days for which events are generated -/

namespace CalendarFeeds

/-- A range of days, both ends included. -/
structure Window where
  first : Date
  last : Date
  ordered : first ≤ last

namespace Window

/-- The window between two dates, which must not be out of order. -/
def between (first last : Date) : Except ScheduleError Window :=
  if h : first ≤ last then .ok ⟨first, last, h⟩ else .error (.invalidWindow first last)

def contains (w : Window) (d : Date) : Bool :=
  decide (w.first ≤ d) && decide (d ≤ w.last)

end Window

end CalendarFeeds
