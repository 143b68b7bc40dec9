import CalendarFeeds.Duration
import CalendarFeeds.Event.Basic
import CalendarFeeds.Event.Definition
import CalendarFeeds.Event.Identifier
import CalendarFeeds.Schedule.Anchor
import CalendarFeeds.Schedule.Phrase
import CalendarFeeds.Schedule.RuleOf
import CalendarFeeds.Season
import CalendarFeeds.Zone.Table

/-! # Materialization — from a definition to its event

    The parts of a definition are read in a fixed order, so the first faulty one names the error:
    schedule, months or season, time zone, start time, duration.  Then the first day in the
    window is chosen, the start is placed on it, and the rule is checked against that start.
    Time zones and the expansion of rules come from an almanac; `materialize` uses the standard
    one. -/

namespace CalendarFeeds

/-- What is known about the world outside: the time zones by their names, and the first
    occurrences of a rule from a start on. -/
structure Almanac where
  zone? : String → Option Zone
  expand : Rule → Instant → Nat → Except RuleError (List Instant)

/-- The zones of the table, and the occurrences that `Rule.occurrences` lists. -/
def Almanac.standard : Almanac :=
  ⟨Zone.ofName?, Rule.expand⟩

namespace Definition

/-- The months in which the recurrence of a definition may fall. -/
def allowedMonths (d : Definition) (seasons : SeasonTable) (r : Recurrence) :
    Except ScheduleError AllowedMonths :=
  match r with
  | .yearly _ _ month => AllowedMonths.single month
  | _ => AllowedMonths.resolve seasons d.seasonal d.months

def zone (d : Definition) (almanac : Almanac) : Except ScheduleError Zone :=
  match almanac.zone? (Text.trimmed d.timezone) with
  | some z => .ok z
  | none => .error (.unknownTimezone d.timezone)

theorem zone_eq_ok_iff {d : Definition} {almanac : Almanac} {z : Zone} :
    d.zone almanac = .ok z ↔ almanac.zone? (Text.trimmed d.timezone) = some z := by
  simp only [zone]
  cases almanac.zone? (Text.trimmed d.timezone) <;> simp

/-- The time of day at which the event of a definition starts. -/
def timeOfDay (d : Definition) : Except ScheduleError TimeOfDay :=
  match TimeOfDay.ofText? (Text.trim d.startTime.toList) with
  | some t => .ok t
  | none => .error (.invalidStartTime d.startTime)

theorem timeOfDay_eq_ok_iff {d : Definition} {t : TimeOfDay} :
    d.timeOfDay = .ok t ↔ TimeOfDay.ofText? (Text.trim d.startTime.toList) = some t := by
  simp only [timeOfDay]
  cases TimeOfDay.ofText? (Text.trim d.startTime.toList) <;> simp

def length (d : Definition) : Except ScheduleError Duration :=
  match Duration.ofText? d.duration with
  | some length => .ok length
  | none => .error (.invalidDuration d.duration)

theorem length_eq_ok_iff {d : Definition} {length : Duration} :
    d.length = .ok length ↔ Duration.ofText? d.duration = some length := by
  simp only [Definition.length]
  cases Duration.ofText? d.duration <;> simp

/-- The event of a definition that starts at an instant and repeats by a rule. -/
def eventAt (d : Definition) (start : Instant) (length : Duration) (rule : Rule) : Event :=
  { id := Identifier.ofName d.name
    summary := d.displayName
    location := d.location
    url := d.url
    description := d.description
    start := start
    length := 1000 * (length.totalSeconds : Int)
    rule := some rule
    tags := d.tags }

/-- The event that a definition has in a window, by an almanac. -/
def materializeBy (almanac : Almanac) (d : Definition) (window : Window) (seasons : SeasonTable) :
    Except ScheduleError Event := do
  let recurrence ← Phrase.read d.schedule
  let allowed ← d.allowedMonths seasons recurrence
  let zone ← d.zone almanac
  let time ← d.timeOfDay
  let length ← d.length
  let anchor ← recurrence.anchor window allowed
  let start := Instant.ofLocal zone anchor time
  let rule := recurrence.rule allowed
  match Rule.checkBy almanac.expand rule start with
  | .error fault => .error (.invalidRule fault)
  | .ok () => .ok (d.eventAt start length rule)

/-- The event that a definition has in a window. -/
def materialize (d : Definition) (window : Window) (seasons : SeasonTable) :
    Except ScheduleError Event :=
  materializeBy .standard d window seasons

end Definition

end CalendarFeeds
