import CalendarFeeds.Document.Value

/-! # TOML trees — tables that are defined once

    A table comes into being by a header of its own, as a step on the way of a header or of a
    dotted key, or in braces.  The way it came into being decides what may still be added: only
    a table that a header merely passed through can get a header later, dotted keys add to no
    table that has a header, and nothing adds to a table in braces.  A header in double brackets
    adds a table to a list that such headers alone make up. -/

namespace CalendarFeeds.Toml

/-- How a table came into being. -/
inductive Making where
  /-- On the way of a header. -/
  | passed
  /-- On the way of a dotted key. -/
  | dotted
  | header
  | braces
  deriving DecidableEq, Repr

/-- A value with what may still be added to it. -/
inductive Tree where
  | scalar (content : Scalar)
  | list (items : List Tree)
  | table (making : Making) (entries : List (String × Tree))
  /-- A list of tables with headers, the last one first. -/
  | tables (last : List (String × Tree)) (earlier : List (List (String × Tree)))

abbrev Entries := List (String × Tree)

namespace Entries

def replace (key : String) (t : Tree) : Entries → Entries
  | [] => []
  | (k, old) :: rest => if k = key then (k, t) :: rest else (k, old) :: replace key t rest

/-- Changes the table that the path of a header leads to.  Of a list of tables, the last one is
    meant. -/
def change? (f : Entries → Option Entries) : List String → Entries → Option Entries
  | [], es => f es
  | key :: path, es =>
    match es.lookup key with
    | none => (change? f path []).map fun sub => es ++ [(key, .table .passed sub)]
    | some (.table .braces _) => none
    | some (.table making sub) =>
      (change? f path sub).map fun changed => replace key (.table making changed) es
    | some (.tables last earlier) =>
      (change? f path last).map fun changed => replace key (.tables changed earlier) es
    | some _ => none

/-- Opens the table of a header by its last key. -/
def openTable? (key : String) (es : Entries) : Option Entries :=
  match es.lookup key with
  | none => some (es ++ [(key, .table .header [])])
  | some (.table .passed sub) => some (replace key (.table .header sub) es)
  | some _ => none

/-- Opens one more table of a list by the last key of a header in double brackets. -/
def openItem? (key : String) (es : Entries) : Option Entries :=
  match es.lookup key with
  | none => some (es ++ [(key, .tables [] [])])
  | some (.tables last earlier) => some (replace key (.tables [] (last :: earlier)) es)
  | some _ => none

/-- Sets a value by a dotted key, which must be new. -/
def put? (t : Tree) : List String → Entries → Option Entries
  | [], _ => none
  | [key], es => if (es.lookup key).isSome then none else some (es ++ [(key, t)])
  | key :: path, es =>
    match es.lookup key with
    | none => (put? t path []).map fun sub => es ++ [(key, .table .dotted sub)]
    | some (.table .dotted sub) =>
      (put? t path sub).map fun changed => replace key (.table .dotted changed) es
    | some (.table .passed sub) =>
      (put? t path sub).map fun changed => replace key (.table .passed changed) es
    | some _ => none

end Entries

namespace Tree

mutual

def value (origin : Option String) : Tree → Value
  | scalar content => .scalar origin content
  | list items => .list origin (values origin items)
  | table _ entries => .table origin (entryValues origin entries)
  | tables last earlier =>
    .list origin (tableValues origin earlier [.table origin (entryValues origin last)])

def values (origin : Option String) : List Tree → List Value
  | [] => []
  | t :: rest => t.value origin :: values origin rest

def entryValues (origin : Option String) : List (String × Tree) → List (String × Value)
  | [] => []
  | (key, t) :: rest => (key, t.value origin) :: entryValues origin rest

/-- The values of tables, the last one first, in front of later ones. -/
def tableValues (origin : Option String) :
    List (List (String × Tree)) → List Value → List Value
  | [], later => later
  | entries :: rest, later =>
    tableValues origin rest (.table origin (entryValues origin entries) :: later)

end

end Tree

end CalendarFeeds.Toml
