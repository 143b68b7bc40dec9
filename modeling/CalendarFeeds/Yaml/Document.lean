import CalendarFeeds.Document.Error
import CalendarFeeds.Yaml.Layout
import CalendarFeeds.Yaml.Node

/-! # YAML documents — as configuration

    A configuration document is a text with one YAML document, whose root is a mapping.  An empty
    text is an empty mapping.  Keys are scalars and are taken as text. -/

namespace CalendarFeeds.Yaml

/-- The text of a key, if it is a scalar that can be one. -/
def Datum.keyText? : Datum → Option String
  | text s => some s
  | integer n => some (Text.integer n)
  | boolean b => some (Found.truth b)
  | real numeral => some numeral
  | null => none
  | bad => none
  | sequence _ => none
  | mapping _ => none

mutual

/-- The value of a datum.  Bad data count as null. -/
def Datum.value (origin : Option String) : Datum → Except DocumentError Value
  | null => .ok (.scalar origin .null)
  | bad => .ok (.scalar origin .null)
  | boolean b => .ok (.scalar origin (.boolean b))
  | integer n => .ok (.scalar origin (.integer n))
  | text s => .ok (.scalar origin (.text s))
  | real numeral =>
    match Binary64.ofText? numeral.toList with
    | some x => .ok (.scalar origin (.float x))
    | none => .error (.unreadableNumber numeral origin)
  | sequence items => (Datum.values origin items).map (.list origin)
  | mapping pairs => (Datum.entries origin [] pairs).map (.table origin)

def Datum.values (origin : Option String) : List Datum → Except DocumentError (List Value)
  | [] => .ok []
  | d :: rest =>
    match d.value origin with
    | .error e => .error e
    | .ok v => (Datum.values origin rest).map (v :: ·)

/-- The entries of pairs, added to those so far; a key whose text comes again replaces its
    value. -/
def Datum.entries (origin : Option String) (found : List (String × Value)) :
    List (Datum × Datum) → Except DocumentError (List (String × Value))
  | [] => .ok found
  | (k, d) :: rest =>
    match k.keyText? with
    | none => .error (.unsupportedKey k.shown origin)
    | some key =>
      match d.value origin with
      | .error e => .error e
      | .ok v => Datum.entries origin (Value.changeEntry key (fun _ => v) found) rest

end

def documents? (s : String) : Option (List Datum) :=
  (tokens? s).bind Nodes.ofTokens?

/-- The entries of a root. -/
def rootEntries (origin : Option String) (v : Value) :
    Except DocumentError (List (String × Value)) :=
  match v with
  | .table _ entries => .ok entries
  | _ => .error (.rootNoTable (Found.ofValue v) origin)

def read (origin : Option String) (s : String) : Except DocumentError (List (String × Value)) :=
  match documents? s with
  | none => .error (.malformed origin)
  | some [] => .ok []
  | some [d] =>
    match d.value origin with
    | .error e => .error e
    | .ok v => rootEntries origin v
  | some ds => .error (.severalDocuments ds.length origin)

end CalendarFeeds.Yaml
