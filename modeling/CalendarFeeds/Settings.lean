import CalendarFeeds.Catalogue.Basic
import CalendarFeeds.Environment.Assignments
import CalendarFeeds.Season
import CalendarFeeds.Toml.Document

/-! # Settings — what a run is told to do

    Every setting but the external calendars and the seasons has a default.  A configuration file
    overrides defaults, and the environment overrides both. -/

namespace CalendarFeeds

/-- What a run is told to do. -/
structure Settings where
  /-- The file of recurring definitions. -/
  recurring : String
  /-- The file of external calendars. -/
  external : Option String
  /-- The directory for feeds. -/
  directory : String
  /-- How many days after today feeds reach. -/
  lookaheadDays : Nat
  seasons : SeasonTable
  logLevel : String
  deriving DecidableEq, Repr

namespace Settings

open Decode

/-- The values that hold unless they are overridden. -/
def defaults : Value :=
  Value.setAll (.table none [])
    [("sources.recurring", .scalar none (.text "recurring.yaml")),
      ("output.dir", .scalar none (.text "output")),
      ("generation.lookahead_days", .scalar none (.integer 90)),
      ("logging.level", .scalar none (.text "debug"))]

/-- Reads where the sources are. -/
def sources : Reader (String × Option String) := fun place v => do
  let r ← record "SourcesConfig" 2 place v
  let recurring ← r.field? 0 "recurring" string
  let external ← r.field? 1 "external" (option string)
  return (← r.need 0 "recurring" recurring, ← r.allow 1 external)

/-- Reads a record of one field. -/
def single {α : Type} (name key : String) (read : Reader α) : Reader α := fun place v => do
  let r ← record name 1 place v
  r.need 0 key (← r.field? 0 key read)

/-- Reads seasons that replace or complete the default ones. -/
def overrides : Reader SeasonTable := fun place v => do
  return .withOverrides (← table (list (unsigned 8)) place v)

def read : Reader Settings := fun place v => do
  let r ← record "Settings" 5 place v
  let found ← r.field? 0 "sources" sources
  let output ← r.field? 1 "output" (single "OutputConfig" "dir" string)
  let generation ←
    r.field? 2 "generation" (single "GenerationConfig" "lookahead_days" (unsigned 32))
  let seasons ← r.field? 3 "seasons" overrides
  let logging ← r.field? 4 "logging" (single "LoggingConfig" "level" string)
  let (recurring, external) ← r.need 0 "sources" found
  return {
    recurring := recurring
    external := external
    directory := ← r.need 1 "output" output
    lookaheadDays := ← r.need 2 "generation" generation
    seasons := seasons.getD .default
    logLevel := ← r.need 4 "logging" logging }

/-- The entries of a configuration file; without the file there are none. -/
def fileEntries (file : TextFile) : Except DocumentError (List (String × Value)) :=
  match file.text with
  | none => .ok []
  | some text => Toml.read (some file.name) (Catalogue.withoutMark text)

/-- The settings of a configuration file, a file of assignments and an environment. -/
def load (file : TextFile) (assignments : Option String) (vs : Variables) :
    Except DocumentError Settings := do
  let environment := match assignments with
    | none => vs
    | some text => Assignments.apply text vs
  let entries ← fileEntries file
  read [] ((defaults.setAll entries).setAll environment.entries)

end Settings

end CalendarFeeds
