import CalendarFeeds.Schedule.AllowedMonths
import CalendarFeeds.Schedule.Window

/-! # Anchors — the first day of a recurrence inside a window

    A weekly recurrence is searched with a cursor that starts on the first day of the window.  In
    a month that is not allowed the cursor jumps to the next allowed month; in an allowed one it
    moves to the next such weekday, which may lie in a month that is not allowed.  The others are
    searched month by month: in an allowed month the requested occurrences of the weekday are
    tried in ascending order, and those that the month does not have are passed over. -/

namespace CalendarFeeds

/-- The first such weekday on or after a date. -/
def Date.nextWeekday? (d : Date) (w : Weekday) : Option Date :=
  d.addDays? ((w.index + 7 - d.weekday.index) % 7)

theorem Date.le_of_nextWeekday? {d day : Date} {w : Weekday} (h : d.nextWeekday? w = some day) :
    d ≤ day := by
  have number := Date.number_of_ofNumber? h
  show d.number ≤ day.number
  omega

namespace Recurrence

/-- The first such weekday from a cursor on that lies in an allowed month, as long as the cursor
    is inside the window. -/
def weeklyAnchor? (w : Weekday) (window : Window) (limit : AllowedMonths) (cursor : Date) :
    Option Date :=
  if cursor ≤ window.last then
    if _ : limit.allows cursor.month then
      match _ : cursor.nextWeekday? w with
      | none => none
      | some day =>
        if limit.allows day.month then some day else weeklyAnchor? w window limit day
    else
      match _ : limit.nextStart? cursor with
      | none => none
      | some start => weeklyAnchor? w window limit start
  else none
termination_by (window.last.number + 1 - cursor.number).toNat
decreasing_by
  · -- the cursor stays only on a day in an allowed month
    next inside allowed forward refused =>
      have le : cursor.number ≤ day.number := Date.le_of_nextWeekday? forward
      have ne : cursor.number ≠ day.number := fun eq => refused (Date.eq_of_number_eq eq ▸ allowed)
      have last : cursor.number ≤ window.last.number := inside
      omega
  · next inside _ jump =>
      have lt : cursor.number < start.number := AllowedMonths.lt_of_nextStart? jump
      have last : cursor.number ≤ window.last.number := inside
      omega

/-- The first of some occurrences of a weekday in a month, if it is allowed, that is not before
    the window. -/
def firstInMonth? (o : Ordinals) (w : Weekday) (window : Window) (limit : AllowedMonths)
    (year : Int) (month : Nat) : Option Date :=
  if limit.allows month then
    (o.values.filterMap fun n => Date.nthWeekday? year month w n).find? fun d =>
      decide (window.first ≤ d)
  else none

/-- The first of some occurrences of a weekday in the allowed months, from a month on, as long as
    the months begin inside the window. -/
def ordinalAnchor? (o : Ordinals) (w : Weekday) (window : Window) (limit : AllowedMonths)
    (year : Int) (month : Nat) : Option Date :=
  match _ : Date.ofCivil? year month 1 with
  | none => none
  | some first =>
    if window.last < first then none
    else
      match firstInMonth? o w window limit year month with
      | some d => some d
      | none =>
        ordinalAnchor? o w window limit (Civil.nextMonth year month).1
          (Civil.nextMonth year month).2
termination_by (window.last.number + 1 - Civil.monthStart year month).toNat
decreasing_by
  next begins running =>
  obtain ⟨valid, place⟩ := Date.number_of_ofCivil?_one begins
  have later := Civil.monthStart_nextMonth (y := year) valid
  have long : 28 ≤ Civil.monthLength year month := Civil.monthLength_pos valid.1 valid.2
  have last : first.number ≤ window.last.number := Int.not_lt.mp running
  omega

/-- What the search of a recurrence finds in a window; a yearly recurrence keeps to its own
    month, whatever the limit. -/
def candidate? (r : Recurrence) (window : Window) (limit : AllowedMonths) :
    Except ScheduleError (Option Date) :=
  match r with
  | weekly w => .ok (weeklyAnchor? w window limit window.first)
  | monthly o w => .ok (ordinalAnchor? o w window limit window.first.year window.first.month)
  | yearly o w month =>
    (AllowedMonths.single month).map fun own =>
      ordinalAnchor? o w window own window.first.year window.first.month

/-- The earliest day of a window on which a recurrence falls in an allowed month. -/
def anchor (r : Recurrence) (window : Window) (limit : AllowedMonths) :
    Except ScheduleError Date :=
  match r.candidate? window limit with
  | .error e => .error e
  | .ok found =>
    match found.filter window.contains with
    | some d => .ok d
    | none => .error (.noValidAnchor r window.first window.last)

end Recurrence

end CalendarFeeds
