import CalendarFeeds.Text.Blank
import CalendarFeeds.Text.Numeral

/-! # Times of day — wall-clock readings of whole seconds

    A time is read as hours and minutes, or with seconds too.  Each number has one or two digits
    and may stand behind blanks; second 60 is an inserted leap second, which counts as the second
    before it plus one. -/

namespace CalendarFeeds

/-- A reading of a wall clock. -/
structure TimeOfDay where
  hour : Nat
  minute : Nat
  second : Nat
  inDay : hour ≤ 23 ∧ minute ≤ 59 ∧ second ≤ 60
  deriving DecidableEq, Repr

namespace TimeOfDay

/-- Seconds since midnight; a leap second counts as the one before it. -/
def seconds (t : TimeOfDay) : Nat :=
  3600 * t.hour + 60 * t.minute + min t.second 59

/-- Whether the reading lies in an inserted second. -/
def isLeap (t : TimeOfDay) : Bool :=
  t.second == 60

/-- Skips blanks and takes one or two digits off the front of a text. -/
def takeNumber? (s : List Char) : Option (Nat × List Char) :=
  match Text.trimStart s with
  | a :: b :: rest =>
    if a.isDigit then
      if b.isDigit then some (10 * Text.digitValue a + Text.digitValue b, rest)
      else some (Text.digitValue a, b :: rest)
    else none
  | [a] => if a.isDigit then some (Text.digitValue a, []) else none
  | [] => none

/-- The time of three numbers in range. -/
def ofNumbers? (hour minute second : Nat) : Option TimeOfDay :=
  if h : hour ≤ 23 ∧ minute ≤ 59 ∧ second ≤ 60 then some ⟨hour, minute, second, h⟩ else none

/-- Reads `hours:minutes` or `hours:minutes:seconds`. -/
def ofText? (s : List Char) : Option TimeOfDay :=
  match takeNumber? s with
  | some (hour, ':' :: afterHour) =>
    match takeNumber? afterHour with
    | some (minute, []) => ofNumbers? hour minute 0
    | some (minute, ':' :: afterMinute) =>
      match takeNumber? afterMinute with
      | some (second, []) => ofNumbers? hour minute second
      | _ => none
    | _ => none
  | _ => none

theorem seconds_lt (t : TimeOfDay) : t.seconds < 86400 := by
  have := t.inDay
  simp only [seconds]
  omega

end TimeOfDay

end CalendarFeeds
