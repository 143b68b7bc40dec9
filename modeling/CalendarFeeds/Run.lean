import CalendarFeeds.Catalogue.Reader
import CalendarFeeds.Generation
import CalendarFeeds.Manifest
import CalendarFeeds.Season

/-! # Runs — from source files to a publication

    A run checks the seasons, fixes the window from today on, reads the sources, generates the
    recurring events and publishes them together with their aggregates.  A definition that fails
    is listed in the manifest; any other fault ends the run.

    The sources are read by a document reader and the events generated by an almanac; `run` uses
    the standard ones. -/

namespace CalendarFeeds

/-- Why files cannot be written. -/
inductive OutputFault where
  | directoryIsFile
  /-- The name of a file has more octets than the file system allows. -/
  | nameTooLong
  deriving DecidableEq, Repr

def OutputFault.message : OutputFault → String
  | directoryIsFile => "File exists (os error 17)"
  | nameTooLong => "File name too long (os error 36)"

/-- Why a run ends without a publication. -/
inductive RunError where
  | seasons (fault : SeasonTable.Fault)
  /-- The window would end after the last date. -/
  | lookahead (days : Nat) (today : Date)
  | source (e : LoadError)
  | output (fault : OutputFault)

def RunError.message : RunError → String
  | seasons fault => "Validation error: " ++ fault.message
  | lookahead days today =>
    "Configuration error: lookahead of " ++ Text.natural days ++ " days from " ++ today.text
      ++ " is out of range"
  | source e => e.message
  | output fault => "Output error: " ++ fault.message

namespace Window

theorem le_of_addDays? {d e : Date} {days : Nat} (h : d.addDays? days = some e) : d ≤ e := by
  have := Date.number_of_ofNumber? h
  rw [Date.le_def]
  omega

/-- The window from a day through some days later. -/
def ahead (today : Date) (days : Nat) : Except RunError Window :=
  match h : today.addDays? days with
  | some last => .ok ⟨today, last, le_of_addDays? h⟩
  | none => .error (.lookahead days today)

end Window

/-- What a run finds in the file system. -/
structure Surroundings where
  recurring : TextFile
  external : Option TextFile
  /-- Whether a file stands where the output directory should be. -/
  directoryIsFile : Bool

namespace Run

/-- The external calendars, if there is a file for them. -/
def externals (reader : DocumentReader) (file : Option TextFile) :
    Except LoadError (List ExternalCalendar) :=
  match file with
  | none => .ok []
  | some f => Catalogue.externalsBy reader f

/-- The source of the events that an almanac generates from some definitions. -/
def recurring (almanac : Almanac) (window : Window) (seasons : SeasonTable)
    (definitions : List Definition) : Source :=
  (Report.ofDefinitionsBy almanac window seasons definitions).source definitions

def publication (almanac : Almanac) (window : Window) (seasons : SeasonTable)
    (definitions : List Definition) (externals : List ExternalCalendar) : Publication :=
  let source := recurring almanac window seasons definitions
  .ofSource window source (Aggregate.all [source] externals)

/-- The greatest number of octets in the name of a file. -/
def maxNameSize : Nat := 255

/-- Why a publication cannot be written. -/
def outputFault? (around : Surroundings) (p : Publication) : Option OutputFault :=
  if around.directoryIsFile then some .directoryIsFile
  else if p.files.any fun f => maxNameSize < f.name.utf8ByteSize then some .nameTooLong
  else none

/-- Refuses seasons with a fault. -/
def checkSeasons (seasons : SeasonTable) : Except RunError Unit :=
  match seasons.fault? with
  | some fault => .error (.seasons fault)
  | none => .ok ()

/-- A publication, if it can be written. -/
def writable (around : Surroundings) (p : Publication) : Except RunError Publication :=
  match outputFault? around p with
  | some fault => .error (.output fault)
  | none => .ok p

/-- A run by an almanac and a document reader. -/
def runBy (almanac : Almanac) (reader : DocumentReader) (seasons : SeasonTable)
    (lookaheadDays : Nat) (around : Surroundings) (today : Date) : Except RunError Publication := do
  checkSeasons seasons
  let window ← Window.ahead today lookaheadDays
  let definitions ← (Catalogue.definitionsBy reader around.recurring).mapError .source
  let calendars ← (externals reader around.external).mapError .source
  writable around (publication almanac window seasons definitions calendars)

def run (seasons : SeasonTable) (lookaheadDays : Nat) (around : Surroundings) (today : Date) :
    Except RunError Publication :=
  runBy .standard .standard seasons lookaheadDays around today

end Run

end CalendarFeeds
