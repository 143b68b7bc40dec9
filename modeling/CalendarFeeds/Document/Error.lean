import CalendarFeeds.Document.Value
import CalendarFeeds.Number.Shortest
import CalendarFeeds.Text.Quoted

/-! # Document errors — why a document cannot be used

    A document may be missing, malformed, or hold something other than what is asked for.  An
    error about a value names its place, and its document where that is known. -/

namespace CalendarFeeds

/-- What stands where something else is expected. -/
inductive Found where
  | null
  | boolean (b : Bool)
  | integer (n : Int)
  | unsigned (n : Nat)
  | float (x : Binary64)
  | text (s : String)
  | list
  | table

namespace Found

def ofValue : Value → Found
  | .scalar _ .null => null
  | .scalar _ (.boolean b) => boolean b
  | .scalar _ (.integer n) => integer n
  | .scalar _ (.float x) => float x
  | .scalar _ (.text s) => text s
  | .list .. => list
  | .table .. => table

def truth (b : Bool) : String := if b then "true" else "false"

/-- What is found, with the width of numbers. -/
def withWidth : Found → String
  | null => "unit value"
  | boolean b => "boolean `" ++ truth b ++ "`"
  | integer n => "64-bit integer `" ++ Text.integer n ++ "`"
  | unsigned n => "64-bit unsigned integer `" ++ Text.natural n ++ "`"
  | float x => "floating point `" ++ x.text ++ "`"
  | text s => "string " ++ Text.quoted s
  | list => "sequence"
  | table => "map"

/-- What is found, in general words. -/
def plain : Found → String
  | null => "unit value"
  | boolean b => "boolean `" ++ truth b ++ "`"
  | integer n => "integer `" ++ Text.integer n ++ "`"
  | unsigned n => "integer `" ++ Text.natural n ++ "`"
  | float x => "floating point `" ++ x.pointedText ++ "`"
  | text s => "string " ++ Text.quoted s
  | list => "sequence"
  | table => "map"

end Found

/-- Why a document cannot be used. -/
inductive DocumentError where
  /-- A value that cannot be read as the scalar asked for. -/
  | wrongScalar (found : Found) (expected : String) (place : Path) (origin : Option String)
  /-- A value of another shape than the one asked for. -/
  | wrongShape (found : Found) (expected : String) (place : Path)
  /-- A list that is too short for the record it stands for. -/
  | tooShort (count : Nat) (record : String) (fields : Nat) (place : Path)
  | missing (place : Path)
  /-- Text that does not follow the format. -/
  | malformed (origin : Option String)
  /-- A document whose root is no table. -/
  | rootNoTable (found : Found) (origin : Option String)
  | severalDocuments (count : Nat) (origin : Option String)
  /-- A key that is not a scalar. -/
  | unsupportedKey (shown : String) (origin : Option String)
  /-- A number that has no value. -/
  | unreadableNumber (numeral : String) (origin : Option String)
  | noFile (name : String)

namespace DocumentError

/-- Where a value came from, in words. -/
def inOrigin : Option String → String
  | none => ""
  | some name => " in " ++ name

/-- The place of a value, in words. -/
def atPlace (place : Path) : String := " for key `" ++ place.text ++ "`"

def message : DocumentError → String
  | wrongScalar found expected place origin =>
    "invalid type: " ++ found.withWidth ++ ", expected " ++ expected ++ atPlace place
      ++ inOrigin origin
  | wrongShape found expected place =>
    "invalid type: " ++ found.plain ++ ", expected " ++ expected ++ atPlace place
  | tooShort count record fields place =>
    "invalid length " ++ Text.natural count ++ ", expected struct " ++ record ++ " with "
      ++ Text.natural fields ++ (if fields = 1 then " element" else " elements") ++ atPlace place
  | missing place => "missing configuration field " ++ Text.quoted place.text
  | malformed origin => "malformed document" ++ inOrigin origin
  | rootNoTable found origin =>
    "invalid type: " ++ found.withWidth ++ ", expected a map" ++ inOrigin origin
      ++ inOrigin origin
  | severalDocuments count origin =>
    "Got " ++ Text.natural count ++ " YAML documents, expected 1" ++ inOrigin origin
  | unsupportedKey shown origin =>
    "Cannot parse " ++ shown ++ " because it is an unsupported hash key type" ++ inOrigin origin
  | unreadableNumber numeral origin =>
    "Parsing " ++ numeral ++ " as floating point number failed" ++ inOrigin origin
  | noFile name => "configuration file " ++ Text.quoted name ++ " not found"

end DocumentError

end CalendarFeeds
