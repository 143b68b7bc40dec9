import CalendarFeeds.Document.Error
import CalendarFeeds.Toml.Bare
import CalendarFeeds.Toml.Lexeme
import CalendarFeeds.Toml.Tree

/-! # TOML documents — as configuration

    A document is a list of statements: headers, each of which says which table the keys after it
    belong to, and keys with their values.  Whatever is against the rules makes the whole
    document malformed. -/

namespace CalendarFeeds.Toml

mutual

/-- Takes a value off the front of a text, in so many steps at most. -/
def takeValue? : Nat → List Char → Reading Tree
  | 0, _ => none
  | fuel + 1, s =>
    match s with
    | '[' :: rest => (takeItems? fuel (skipSpace rest)).map fun (items, tail) => (.list items, tail)
    | '\x7b' :: rest =>
      (takeFields? fuel [] (skipSpace rest)).map fun (es, tail) => (.table .braces es, tail)
    | '"' :: _ => (takeText? s).map fun (text, tail) => (.scalar (.text text), tail)
    | '\'' :: _ => (takeText? s).map fun (text, tail) => (.scalar (.text text), tail)
    | _ => (takeBare? s).map fun (content, tail) => (.scalar content, tail)

/-- Takes the items of a list and its closing bracket off the front of a text. -/
def takeItems? : Nat → List Char → Reading (List Tree)
  | _, ']' :: rest => some ([], rest)
  | 0, _ => none
  | fuel + 1, s =>
    (takeValue? fuel s).bind fun (item, afterItem) =>
      match skipSpace afterItem with
      | ',' :: rest =>
        (takeItems? fuel (skipSpace rest)).map fun (items, tail) => (item :: items, tail)
      | ']' :: rest => some ([item], rest)
      | _ => none

/-- Takes fields, which are added to those before them, and a closing brace off the front of a
    text. -/
def takeFields? : Nat → Entries → List Char → Reading Entries
  | _, es, '\x7d' :: rest => some (es, rest)
  | 0, _, _ => none
  | fuel + 1, es, s =>
    (takeKey? s).bind fun (key, afterKey) =>
      match afterKey with
      | '=' :: beforeValue =>
        (takeValue? fuel (skipBlanks beforeValue)).bind fun (t, afterValue) =>
          (es.put? t key).bind fun added =>
            match skipSpace afterValue with
            | ',' :: rest => takeFields? fuel added (skipSpace rest)
            | '\x7d' :: rest => some (added, rest)
            | _ => none
      | _ => none

end

/-- A document up to some line. -/
structure Draft where
  root : Entries
  /-- The path of the last header. -/
  current : List String

namespace Draft

def empty : Draft := ⟨[], []⟩

def openAt? (d : Draft) (path : List String)
    (f : String → Entries → Option Entries) : Option Draft :=
  match path.getLast? with
  | none => none
  | some key => (d.root.change? (f key) path.dropLast).map fun root => ⟨root, path⟩

/-- Adds a key with its value to the table of the last header. -/
def put? (d : Draft) (key : List String) (t : Tree) : Option Draft :=
  (d.root.change? (Entries.put? t key) d.current).map fun root => { d with root := root }

/-- Reads one statement, and gives the text of the lines after it. -/
def statement? (d : Draft) (s : List Char) : Reading Draft :=
  match s with
  | '[' :: '[' :: rest =>
    (takeKey? rest).bind fun (path, afterPath) =>
      match afterPath with
      | ']' :: ']' :: ending =>
        (d.openAt? path Entries.openItem?).bind fun e => (endLine? ending).map (e, ·)
      | _ => none
  | '[' :: rest =>
    (takeKey? rest).bind fun (path, afterPath) =>
      match afterPath with
      | ']' :: ending =>
        (d.openAt? path Entries.openTable?).bind fun e => (endLine? ending).map (e, ·)
      | _ => none
  | _ =>
    (takeKey? s).bind fun (key, afterKey) =>
      match afterKey with
      | '=' :: beforeValue =>
        (takeValue? (2 * s.length) (skipBlanks beforeValue)).bind fun (t, afterValue) =>
          (d.put? key t).bind fun e => (endLine? afterValue).map (e, ·)
      | _ => none

/-- Reads statements to the end of the text, at most so many. -/
def statements? : Nat → Draft → List Char → Option Draft
  | 0, _, _ => none
  | fuel + 1, d, s =>
    match skipSpace s with
    | [] => some d
    | rest => (d.statement? rest).bind fun (e, later) => statements? fuel e later

end Draft

def read (origin : Option String) (s : String) : Except DocumentError (List (String × Value)) :=
  match Draft.empty.statements? (s.length + 1) s.toList with
  | none => .error (.malformed origin)
  | some d => .ok (Tree.entryValues origin d.root)

end CalendarFeeds.Toml
