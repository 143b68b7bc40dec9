import CalendarFeeds.Event.Materialize

/-! # Generation — all definitions of a file at once

    A definition that fails is recorded with its error, and the others go on.  The outcome is
    wrapped as a source with one calendar per definition, so that recurring events take part in
    aggregation like any others. -/

namespace CalendarFeeds

/-- A definition without an event, and why. -/
structure Failure where
  name : String
  error : ScheduleError

/-- The outcome of a list of definitions. -/
structure Report where
  /-- In the order of the definitions. -/
  events : List Event
  failures : List Failure

namespace Report

def empty : Report := ⟨[], []⟩

/-- Whether every definition gave an event. -/
def isClean (r : Report) : Bool := r.failures.isEmpty

/-- The outcome of some definitions by an almanac. -/
def ofDefinitionsBy (almanac : Almanac) (window : Window) (seasons : SeasonTable) :
    List Definition → Report
  | [] => empty
  | d :: rest =>
    let others := ofDefinitionsBy almanac window seasons rest
    match d.materializeBy almanac window seasons with
    | .ok e => { others with events := e :: others.events }
    | .error e => { others with failures := ⟨d.name, e⟩ :: others.failures }

/-- The outcome of some definitions. -/
def ofDefinitions (window : Window) (seasons : SeasonTable) (definitions : List Definition) :
    Report :=
  ofDefinitionsBy .standard window seasons definitions

/-- The calendar of one definition: the events with its identifier and the errors under its
    name. -/
def calendarOf (r : Report) (d : Definition) : SourceCalendar :=
  { name := d.name
    friendlyName := d.displayName
    tags := d.tags
    events := r.events.filter fun e => e.id == Identifier.ofName d.name
    errors := (r.failures.filter fun f => f.name == d.name).map (·.error.message) }

/-- A report as a source with one calendar per definition. -/
def source (r : Report) (definitions : List Definition) : Source :=
  { name := "recurring"
    friendlyName := "Recurring Events"
    tags := []
    calendars := definitions.map r.calendarOf }

end Report

end CalendarFeeds
