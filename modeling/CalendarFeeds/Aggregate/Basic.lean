import CalendarFeeds.Aggregate.Tags
import CalendarFeeds.Ascending
import CalendarFeeds.Naming
import CalendarFeeds.Text.AsciiCase
import CalendarFeeds.Text.Slug

/-! # Aggregates — one calendar for every tag

    Every effective tag gets a calendar of the events of all calendars that carry it exactly.
    The events keep the order of the calendars, those of sources first, and of events with one
    identifier the first stays.  The contributors that an aggregate names are the calendars with
    a tag that is equal up to ASCII case. -/

namespace CalendarFeeds

/-- The events under one tag. -/
structure Aggregate where
  name : String
  friendlyName : String
  tag : String
  events : List Event
  /-- Names of contributing calendars of sources, ascending. -/
  sources : List String
  /-- Names of contributing external calendars, ascending. -/
  externals : List String
  deriving DecidableEq

namespace Aggregate

/-- Every effective tag, ascending. -/
def allTags (calendars : List TaggedCalendar) (externals : List TaggedExternal) : List String :=
  ascending (calendars.flatMap (·.tags) ++ externals.flatMap (·.tags))

/-- The stem of the name of an aggregate. -/
def stem (tag : String) : String :=
  "tag-" ++ Text.slug tag

/-- Whether one of some tags is equal to a tag up to ASCII case. -/
def mentions (tags : List String) (tag : String) : Bool :=
  tags.any fun t => Text.sameIgnoringCase t tag

/-- The events of the calendars that carry a tag. -/
def eventsTagged (calendars : List TaggedCalendar) (externals : List TaggedExternal)
    (tag : String) : List Event :=
  distinctBy Event.id
    ((calendars.filter fun c => c.tags.contains tag).flatMap (·.calendar.events)
      ++ (externals.filter fun c => c.tags.contains tag).flatMap (·.calendar.events))

def ofTag (calendars : List TaggedCalendar) (externals : List TaggedExternal)
    (tag name : String) : Aggregate :=
  { name := name
    friendlyName := tag
    tag := tag
    events := eventsTagged calendars externals tag
    sources :=
      ascending ((calendars.filter fun c => mentions c.tags tag).map (·.calendar.friendlyName))
    externals :=
      ascending ((externals.filter fun c => mentions c.tags tag).map (·.calendar.friendlyName)) }

/-- The aggregates of sources and external calendars, in ascending order of their tags. -/
def all (sources : List Source) (externals : List ExternalCalendar) : List Aggregate :=
  let calendars := tagSources sources
  let enabled := tagExternals externals
  let tags := allTags calendars enabled
  List.zipWith (ofTag calendars enabled) tags (Naming.assign "" (tags.map stem))

end Aggregate

end CalendarFeeds
