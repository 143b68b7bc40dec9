import CalendarFeeds.Text.Numeral

/-! # Paths — places inside a document

    A path is a list of keys and list positions.  Its text joins keys by dots and puts positions
    in brackets; there is no dot next to a bracket. -/

namespace CalendarFeeds

/-- One step into a document. -/
inductive Step where
  | key (name : String)
  /-- A position in a list; a negative one counts from the end. -/
  | index (position : Int)
  deriving DecidableEq, Repr

/-- A place inside a document, from the outside in. -/
abbrev Path := List Step

namespace Path

def stepText : Step → String
  | .key name => name
  | .index position => "[" ++ Text.integer position ++ "]"

def text : Path → String
  | [] => ""
  | [s] => stepText s
  | .key k :: .key l :: rest => k ++ "." ++ text (.key l :: rest)
  | s :: rest => stepText s ++ text rest

/-- The characters of a key that may stand in the text of a path. -/
def isKeyChar (c : Char) : Bool :=
  c.isAlphanum || c == '_' || c == '-'

/-- Takes a key off the front of a text. -/
def takeKey? (s : List Char) : Option (String × List Char) :=
  let name := s.takeWhile isKeyChar
  if name = [] then none else some (String.ofList name, s.dropWhile isKeyChar)

/-- Takes a position and its closing bracket off the front of a text. -/
def takeIndex? (s : List Char) : Option (Int × List Char) :=
  let isSpace (c : Char) : Bool := c == ' ' || c == '\t'
  let body := s.dropWhile isSpace
  let (negative, digits) : Bool × List Char :=
    match body with
    | '-' :: rest => (true, rest)
    | _ => (false, body)
  match Text.natural? (digits.takeWhile Char.isDigit),
      (digits.dropWhile Char.isDigit).dropWhile isSpace with
  | some n, ']' :: rest => some (if negative then -(n : Int) else n, rest)
  | _, _ => none

/-- Reads the steps after the first key, at most so many. -/
def readSteps? : Nat → List Char → Option Path
  | _, [] => some []
  | 0, _ => none
  | fuel + 1, '.' :: s =>
    (takeKey? s).bind fun (name, rest) => (readSteps? fuel rest).map (.key name :: ·)
  | fuel + 1, '[' :: s =>
    (takeIndex? s).bind fun (i, rest) => (readSteps? fuel rest).map (.index i :: ·)
  | _ + 1, _ => none

/-- Reads a path that begins with a key. -/
def ofText? (s : String) : Option Path :=
  (takeKey? s.toList).bind fun (name, rest) =>
    (readSteps? rest.length rest).map (.key name :: ·)

/-- The path that a name stands for; a name that is no path is a key by itself. -/
def ofName (name : String) : Path :=
  (ofText? name).getD [.key name]

end Path

end CalendarFeeds
