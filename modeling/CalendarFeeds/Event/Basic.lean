import CalendarFeeds.Rule.Basic
import CalendarFeeds.Zone.Instant

/-! # Events, calendars and sources

    An event has a start in a time zone, a length and perhaps a rule by which it repeats.  Events
    with one identifier are the same event.  A source brings calendars of events; an external
    calendar is declared by its address, and has whatever events are already at hand. -/

namespace CalendarFeeds

structure Event where
  id : String
  summary : String
  location : Option String
  url : Option String
  description : Option String
  start : Instant
  /-- Milliseconds. -/
  length : Int
  rule : Option Rule
  tags : List String
  deriving DecidableEq

/-- A calendar that a source brought. -/
structure SourceCalendar where
  name : String
  friendlyName : String
  tags : List String
  events : List Event
  /-- What went wrong while the events were made. -/
  errors : List String
  deriving DecidableEq

structure Source where
  name : String
  friendlyName : String
  /-- Tags that every calendar of the source has too. -/
  tags : List String
  calendars : List SourceCalendar
  deriving DecidableEq

/-- What a file declares of a calendar elsewhere. -/
structure ExternalDeclaration where
  name : String
  friendlyName : String
  url : String
  infoUrl : Option String
  description : Option String
  disabled : Bool
  tags : List String
  deriving DecidableEq

/-- A calendar declared by its address. -/
structure ExternalCalendar extends ExternalDeclaration where
  events : List Event
  deriving DecidableEq

/-- The calendar of a declaration.  Nothing is fetched, so it has no events. -/
def ExternalDeclaration.calendar (x : ExternalDeclaration) : ExternalCalendar :=
  { x with events := [] }

end CalendarFeeds
