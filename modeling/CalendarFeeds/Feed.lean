import CalendarFeeds.Aggregate.Basic
import CalendarFeeds.Duration
import CalendarFeeds.ICalendar.Component

/-! # Feeds — events as calendar files

    The start of an event is written as local time with its zone; the time stamp repeats it in
    UTC, so that a feed is the same on every run. -/

namespace CalendarFeeds

open ICalendar

/-- The name of the product that writes the feeds. -/
def productId : String := "-//calripper//Calendar Feeds//EN"

/-- A property for a field that may be missing. -/
def optionalProperty (value : Option String) (make : String → Property) : List Property :=
  match value with
  | none => []
  | some s => [make s]

def Event.properties (e : Event) : List Property :=
  [.text "UID" e.id,
    .raw "DTSTAMP" e.start.utcStamp,
    { Property.raw "DTSTART" e.start.localStamp with
      parameters := [.single "TZID" e.start.zone.name] },
    .raw "DURATION" (Duration.ofMilliseconds e.length).text]
    ++ optionalProperty (e.rule.map Rule.text) (.raw "RRULE")
    ++ [.text "SUMMARY" e.summary]
    ++ optionalProperty e.description (.text "DESCRIPTION")
    ++ optionalProperty e.location (.text "LOCATION")
    ++ optionalProperty e.url (.raw "URL")
    ++ (if e.tags = [] then [] else [.ofValue "CATEGORIES" (.texts e.tags)])

def Event.component (e : Event) : Component :=
  .node .event e.properties []

namespace Feed

/-- The calendar of some events, with properties of its own after its name. -/
def document (friendlyName : String) (properties : List Property) (events : List Event) :
    Component :=
  .node .calendar
    (Component.calendarProperties productId ++ .text "X-WR-CALNAME" friendlyName :: properties)
    (events.map Event.component)

/-- The feed of a calendar. -/
def text (friendlyName : String) (events : List Event) : String :=
  (document friendlyName [] events).text

/-- The description of an aggregate: its tag and the calendars that contribute to it. -/
def contributors (tag : String) (names : List String) : List Property :=
  if names = [] then []
  else
    [.text "X-WR-CALDESC"
      ("Events tagged " ++ tag ++ " from " ++ String.intercalate ", " names)]

/-- The feed of an aggregate. -/
def ofAggregate (a : Aggregate) : String :=
  (document a.friendlyName (contributors a.tag (a.sources ++ a.externals)) a.events).text

end Feed

end CalendarFeeds
