import CalendarFeeds.Aggregate.Basic
import CalendarFeeds.Feed
import CalendarFeeds.Json
import CalendarFeeds.Naming
import CalendarFeeds.Schedule.Window

/-! # Publications — feeds and their manifest

    Every aggregate gets a feed, and so does every recurring calendar that has an event.  The
    names of their files are given out in this order, so that aggregates have the first choice.
    The manifest says which file is what, and which recurring calendars have no feed and why. -/

namespace CalendarFeeds

/-- A feed of a recurring calendar. -/
structure FeedEntry where
  name : String
  friendlyName : String
  file : String
  tags : List String
  deriving DecidableEq, Repr

/-- A feed of an aggregate. -/
structure AggregateEntry where
  name : String
  tag : String
  file : String
  events : Nat
  sources : List String
  externals : List String
  deriving DecidableEq, Repr

/-- A recurring calendar without a feed. -/
structure ErrorEntry where
  name : String
  errors : List String
  deriving DecidableEq, Repr

/-- What a run made. -/
structure Manifest where
  window : Window
  calendars : List FeedEntry
  aggregates : List AggregateEntry
  errors : List ErrorEntry

namespace Manifest

def fileName : String := "manifest.json"

def feedJson (e : FeedEntry) : Json :=
  .object
    [("name", .string e.name), ("friendly_name", .string e.friendlyName),
      ("file", .string e.file), ("tags", .strings e.tags)]

def aggregateJson (e : AggregateEntry) : Json :=
  .object
    [("name", .string e.name), ("tag", .string e.tag), ("file", .string e.file),
      ("events", .number e.events), ("ripped_sources", .strings e.sources),
      ("external_sources", .strings e.externals)]

def errorJson (e : ErrorEntry) : Json :=
  .object [("name", .string e.name), ("errors", .strings e.errors)]

def json (m : Manifest) : Json :=
  .object
    [("window_start", .string m.window.first.text), ("window_end", .string m.window.last.text),
      ("calendars", .array (m.calendars.map feedJson)),
      ("aggregates", .array (m.aggregates.map aggregateJson)),
      ("errors", .array (m.errors.map errorJson))]

end Manifest

structure OutputFile where
  name : String
  text : String
  deriving DecidableEq, Repr

/-- A manifest and the feeds that it lists. -/
structure Publication where
  manifest : Manifest
  feeds : List OutputFile

namespace Publication

/-- The ending of the names of feeds. -/
def ending : String := ".ics"

/-- The calendars of a source that have an event. -/
def published (s : Source) : List SourceCalendar :=
  s.calendars.filter fun c => !c.events.isEmpty

/-- The calendars of a source that have no event. -/
def unpublished (s : Source) : List SourceCalendar :=
  s.calendars.filter fun c => c.events.isEmpty

/-- The names of the files for aggregates and after them for calendars. -/
def fileNames (aggregates : List Aggregate) (calendars : List SourceCalendar) : List String :=
  Naming.assign ending
    (aggregates.map Aggregate.name ++ calendars.map fun c => Text.slug c.name)

def aggregateEntry (a : Aggregate) (file : String) : AggregateEntry :=
  ⟨a.name, a.tag, file, a.events.length, a.sources, a.externals⟩

def feedEntry (c : SourceCalendar) (file : String) : FeedEntry :=
  ⟨c.name, c.friendlyName, file, c.tags⟩

def aggregateFile (a : Aggregate) (file : String) : OutputFile :=
  ⟨file, Feed.ofAggregate a⟩

def feedFile (c : SourceCalendar) (file : String) : OutputFile :=
  ⟨file, Feed.text c.friendlyName c.events⟩

def ofSource (window : Window) (s : Source) (aggregates : List Aggregate) : Publication :=
  let calendars := published s
  let names := fileNames aggregates calendars
  let later := names.drop aggregates.length
  { manifest :=
      { window := window
        calendars := List.zipWith feedEntry calendars later
        aggregates := List.zipWith aggregateEntry aggregates names
        errors := (unpublished s).map fun c => ⟨c.name, c.errors⟩ }
    feeds := List.zipWith aggregateFile aggregates names
      ++ List.zipWith feedFile calendars later }

/-- All files of a publication, in the order in which they are written. -/
def files (p : Publication) : List OutputFile :=
  p.feeds ++ [⟨Manifest.fileName, p.manifest.json.text⟩]

end Publication

end CalendarFeeds
