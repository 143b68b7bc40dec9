import CalendarFeeds.Document.Decode
import CalendarFeeds.Distinct
import CalendarFeeds.Yaml.Document

/-! # Catalogues — YAML files that declare calendars

    A catalogue lists declarations under one key of its root; other keys are ignored, and without
    the key the list is empty.  No two declarations of a catalogue have the same name. -/

namespace CalendarFeeds

/-- A file by its name, and its text if it exists. -/
structure TextFile where
  name : String
  text : Option String
  deriving DecidableEq, Repr

/-- What a catalogue declares. -/
inductive Declared where
  | recurringEvent
  | externalCalendar
  deriving DecidableEq, Repr

def Declared.word : Declared → String
  | recurringEvent => "recurring event"
  | externalCalendar => "external calendar"

/-- Why a catalogue cannot be used. -/
inductive LoadError where
  | document (e : DocumentError)
  /-- Two declarations have one name. -/
  | duplicate (kind : Declared) (name : String)

def LoadError.message : LoadError → String
  | document e => "Source loading error: " ++ e.message
  | duplicate kind name => "Validation error: duplicate " ++ kind.word ++ " name '" ++ name ++ "'"

namespace Catalogue

/-- The text of a file without the byte order mark that may stand in front of it. -/
def withoutMark (text : String) : String :=
  match text.toList with
  | '\ufeff' :: rest => String.ofList rest
  | _ => text

/-- The root of a YAML text, with the keys of the text taken as paths. -/
def rootOfText (origin : Option String) (text : String) : Except DocumentError Value :=
  (Yaml.read origin text).map (Value.setAll (.table none []))

def rootOfFile (file : TextFile) : Except DocumentError Value :=
  match file.text with
  | none => .error (.noFile file.name)
  | some text => rootOfText (some file.name) (withoutMark text)

def declarations {α : Type} (record key : String) (read : Decode.Reader α) (root : Value) :
    Except DocumentError (List α) := do
  let r ← Decode.record record 1 [] root
  return (← r.field? 0 key (Decode.list read)).getD []

/-- Declarations whose names are all different. -/
def distinct {α : Type} (kind : Declared) (name : α → String) (xs : List α) :
    Except LoadError (List α) :=
  match firstRepeat? [] (xs.map name) with
  | some n => .error (.duplicate kind n)
  | none => .ok xs

/-- Declarations that can be read and whose names are all different. -/
def checked {α : Type} (kind : Declared) (name : α → String)
    (read : Except DocumentError (List α)) : Except LoadError (List α) :=
  match read with
  | .error e => .error (.document e)
  | .ok xs => distinct kind name xs

end Catalogue

end CalendarFeeds
