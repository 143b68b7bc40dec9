/-! # Recurring definitions — events as a file declares them -/

namespace CalendarFeeds

/-- A recurring event as it is declared; nothing in it is checked yet. -/
structure Definition where
  name : String
  friendlyName : Option String
  description : Option String
  /-- A schedule phrase. -/
  schedule : String
  timezone : String
  duration : String
  startTime : String
  location : Option String
  url : Option String
  seasonal : Option String
  /-- Months that take precedence over the season. -/
  months : Option (List Nat)
  tags : List String
  deriving DecidableEq, Repr

/-- The name shown to people: the friendly name if there is one. -/
def Definition.displayName (d : Definition) : String :=
  d.friendlyName.getD d.name

end CalendarFeeds
