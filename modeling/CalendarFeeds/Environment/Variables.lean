import CalendarFeeds.Document.Value
import CalendarFeeds.Text.AsciiCase
import CalendarFeeds.Text.Slug

/-! # Environment variables — as configuration

    A variable whose name begins with `CALRIPPER_` sets a value.  The rest of its name is the
    place of the value, in small letters and with two underscores between steps.  Its text counts
    as a truth value, an integer or a number if it looks like one; an empty text sets nothing. -/

namespace CalendarFeeds

/-- The variables of an environment, each with its value. -/
abbrev Variables := List (String × String)

namespace Variables

/-- What the names of variables for configuration begin with, in small letters. -/
def leading : List Char := "calripper_".toList

/-- Dots for pairs of underscores, from left to right. -/
def dotted : List Char → List Char
  | '_' :: '_' :: rest => '.' :: dotted rest
  | c :: rest => c :: dotted rest
  | [] => []

/-- The place that a variable sets, if it is meant for configuration. -/
def place? (name : String) : Option String :=
  let small := name.toList.flatMap Text.smallForm
  if leading.isPrefixOf small then some (String.ofList (dotted (small.drop leading.length)))
  else none

/-- What the text of a variable stands for. -/
def scalar (text : String) : Scalar :=
  match Text.lowered text with
  | "true" => .boolean true
  | "false" => .boolean false
  | _ =>
    match Text.signed64? text.toList, Binary64.ofText? text.toList with
    | some n, _ => .integer n
    | none, some x => .float x
    | none, none => .text text

/-- The name of the environment as a source of values. -/
def origin : Option String := some "the environment"

/-- The value that a variable sets, with its place. -/
def entry? (name text : String) : Option (String × Value) :=
  if text = "" then none else (place? name).map fun key => (key, .scalar origin (scalar text))

/-- The values that an environment sets. -/
def entries (vs : Variables) : List (String × Value) :=
  vs.filterMap fun (name, text) => entry? name text

/-- Sets a variable unless it is set. -/
def setNew (vs : Variables) (name text : String) : Variables :=
  if (vs.lookup name).isSome then vs else vs ++ [(name, text)]

end Variables

end CalendarFeeds
