import CalendarFeeds.Run
import CalendarFeeds.Settings

/-! # Command line — one run in the current directory

    The only argument is the first day of the window.  Settings come from `config.toml`, `.env`
    and the environment; the feeds and the manifest are written to the output directory. -/

namespace CalendarFeeds.CommandLine

/-- A file with its text, if it can be read. -/
def readFile (name : String) : IO TextFile := do
  try
    return ⟨name, some (← IO.FS.readFile name)⟩
  catch _ => return ⟨name, none⟩

/-- The variable of an entry `NAME=text`. -/
def setting? (entry : String) : Option (String × String) :=
  match entry.splitOn "=" with
  | name :: first :: rest => some (name, String.intercalate "=" (first :: rest))
  | _ => none

/-- The environment of this process. -/
def environment : IO Variables := do
  let listing ← readFile "/proc/self/environ"
  return ((listing.text.getD "").splitOn "\x00").filterMap setting?

/-- Complains and fails. -/
def fail (message : String) : IO UInt32 := do
  IO.eprintln ("Error: " ++ message)
  return 1

def write (directory : String) (p : Publication) : IO Unit := do
  IO.FS.createDirAll directory
  for file in p.files do
    IO.FS.writeFile (directory ++ "/" ++ file.name) file.text

def runWith (settings : Settings) (today : Date) : IO UInt32 := do
  let external ← settings.external.mapM readFile
  let blocking ← readFile settings.directory
  let around : Surroundings := ⟨← readFile settings.recurring, external, blocking.text.isSome⟩
  match Run.run settings.seasons settings.lookaheadDays around today with
  | .error e => fail e.message
  | .ok p =>
    write settings.directory p
    return 0

end CalendarFeeds.CommandLine

open CalendarFeeds in
/-- Generates feeds from the day that is given. -/
def main (arguments : List String) : IO UInt32 := do
  match arguments.map Date.ofText? with
  | [some today] =>
    let file ← CommandLine.readFile "config.toml"
    let assignments ← CommandLine.readFile ".env"
    match Settings.load file assignments.text (← CommandLine.environment) with
    | .error e => CommandLine.fail e.message
    | .ok settings => CommandLine.runWith settings today
  | _ => CommandLine.fail "the first day is missing, as YYYY-MM-DD"
