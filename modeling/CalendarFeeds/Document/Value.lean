import CalendarFeeds.Document.Path
import CalendarFeeds.Number.Binary64

/-! # Values — what configuration documents hold

    A value is a scalar, a list or a table, and knows the document it came from.  Documents are
    merged into one table: a table is merged entry by entry into what stands in its place, and
    every other value replaces it. -/

namespace CalendarFeeds

/-- A value without parts. -/
inductive Scalar where
  | null
  | boolean (b : Bool)
  | integer (n : Int)
  | float (x : Binary64)
  | text (s : String)
  deriving DecidableEq, Repr

/-- A value of a document. -/
inductive Value where
  | scalar (origin : Option String) (content : Scalar)
  | list (origin : Option String) (items : List Value)
  | table (origin : Option String) (entries : List (String × Value))

namespace Value

/-- The value that stands where nothing has been set. -/
def unset : Value := scalar none .null

/-- The document that a value came from. -/
def origin : Value → Option String
  | scalar o _ => o
  | list o _ => o
  | table o _ => o

/-- The value of a key; the last entry that has it counts. -/
def lookup? (key : String) : List (String × Value) → Option Value
  | [] => none
  | (k, v) :: rest =>
    match lookup? key rest with
    | some w => some w
    | none => if k = key then some v else none

/-- Changes the entry of a key, which is added when it is missing. -/
def changeEntry (key : String) (change : Value → Value) :
    List (String × Value) → List (String × Value)
  | [] => [(key, change unset)]
  | (k, v) :: rest =>
    if k = key then (k, change v) :: rest else (k, v) :: changeEntry key change rest

/-- Changes the item at a position. -/
def changeItem (position : Nat) (change : Value → Value) (items : List Value) : List Value :=
  items.mapIdx fun i v => if i = position then change v else v

/-- A list that is long enough for a position, and that position counted from the front. -/
def reach (items : List Value) (position : Int) : List Value × Nat :=
  if 0 ≤ position then
    (items ++ List.replicate (position.toNat + 1 - items.length) unset, position.toNat)
  else
    let back := position.natAbs
    if back ≤ items.length then (items, items.length - back)
    else (List.replicate (back - items.length) unset ++ items, 0)

/-- Changes the value at a path.  What stands in the way of a step is replaced by an empty table
    or list. -/
def change (f : Value → Value) : Path → Value → Value
  | [], v => f v
  | .key name :: rest, v =>
    match v with
    | table o entries => table o (changeEntry name (change f rest) entries)
    | _ => table none (changeEntry name (change f rest) [])
  | .index position :: rest, v =>
    match v with
    | list o items =>
      let (reached, i) := reach items position
      list o (changeItem i (change f rest) reached)
    | _ =>
      let (reached, i) := reach [] position
      list none (changeItem i (change f rest) reached)

/-- A table as it is, anything else as an empty table. -/
def asTable : Value → Value
  | table o entries => table o entries
  | _ => table none []

mutual

/-- Merges a value into the one that stands in its place. -/
def mergeInto : Value → Value → Value
  | table _ entries, old => mergeEntries entries old.asTable
  | scalar o content, _ => scalar o content
  | list o items, _ => list o items

/-- Merges entries into a table, one after another. -/
def mergeEntries : List (String × Value) → Value → Value
  | [], old => old
  | (key, v) :: rest, old => mergeEntries rest (change (mergeInto v) [.key key] old)

end

/-- Merges a value into a table at the place that a name stands for. -/
def set (root : Value) (name : String) (v : Value) : Value :=
  change (mergeInto v) (Path.ofName name) root

/-- Merges a document's entries into a table; the keys of the document are paths. -/
def setAll (root : Value) (entries : List (String × Value)) : Value :=
  entries.foldl (fun r (name, v) => r.set name v) root

end Value

end CalendarFeeds
