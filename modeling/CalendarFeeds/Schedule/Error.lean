import CalendarFeeds.Calendar.Date
import CalendarFeeds.Duration
import CalendarFeeds.Rule.Check
import CalendarFeeds.Schedule.Recurrence

/-! # Schedule errors — why a definition gives no event -/

namespace CalendarFeeds

/-- Why a recurring definition cannot be turned into an event. -/
inductive ScheduleError where
  /-- The schedule is no phrase of the grammar. -/
  | unrecognizedSchedule (phrase : String)
  | unknownSeason (name : String)
  | invalidMonth (month : Nat)
  /-- The window holds no day of the recurrence. -/
  | noValidAnchor (recurrence : Recurrence) (first last : Date)
  | invalidWindow (first last : Date)
  | unknownTimezone (name : String)
  | invalidStartTime (text : String)
  | invalidDuration (text : String)
  /-- The rule of the event fails its check. -/
  | invalidRule (fault : RuleError)

def ScheduleError.message : ScheduleError → String
  | unrecognizedSchedule phrase => "Unrecognized schedule: '" ++ phrase ++ "'"
  | unknownSeason name => "Unknown season: '" ++ name ++ "'"
  | invalidMonth month => "Invalid month: " ++ Text.natural month ++ " (expected 1-12)"
  | noValidAnchor r first last =>
    "No valid anchor for '" ++ r.text ++ "' between " ++ first.text ++ " and " ++ last.text
  | invalidWindow first last =>
    "Invalid generation window: " ++ first.text ++ " is after " ++ last.text
  | unknownTimezone name => "Unknown timezone: '" ++ name ++ "'"
  | invalidStartTime text => "Invalid start time: '" ++ text ++ "' (expected HH:MM)"
  | invalidDuration text => "Invalid duration: Parse error: " ++ Duration.fault text
  | invalidRule fault => "Invalid recurrence rule: " ++ fault.message

end CalendarFeeds
