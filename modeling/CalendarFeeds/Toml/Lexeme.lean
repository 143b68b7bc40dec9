import CalendarFeeds.Text.Numeral

/-! # TOML lexemes — blanks, comments, quoted text and keys

    Each reader takes its lexeme off the front of a text and gives what it means and the text
    that remains.  Quoted text is basic, with escapes, or literal, without; either kind may go
    over several lines between three quotes.  No control character but the tab may stand in a
    comment or in quoted text. -/

namespace CalendarFeeds.Toml

/-- What a reader found, and the text after it. -/
abbrev Reading (α : Type) := Option (α × List Char)

/-- A blank inside a line. -/
def isBlank (c : Char) : Bool := c == ' ' || c == '\t'

/-- The characters that may stand in a comment or in quoted text. -/
def isShown (c : Char) : Bool :=
  c == '\t' || (0x20 ≤ c.toNat && c.toNat != 0x7F)

def skipBlanks (s : List Char) : List Char := s.dropWhile isBlank

def takeBreak? : List Char → Option (List Char)
  | '\n' :: rest => some rest
  | '\r' :: '\n' :: rest => some rest
  | _ => none

/-- The text after a comment, which goes on to the end of the line. -/
def skipComment : List Char → List Char
  | '#' :: rest => rest.dropWhile isShown
  | s => s

/-- The text after what may follow a statement on its line. -/
def endLine? (s : List Char) : Option (List Char) :=
  match skipComment (skipBlanks s) with
  | [] => some []
  | rest => takeBreak? rest

/-- The text after blanks, comments and line breaks, from a place that may be inside a comment. -/
def skipFrom (inComment : Bool) : List Char → List Char
  | [] => []
  | '\n' :: rest => skipFrom false rest
  | '\r' :: '\n' :: rest => skipFrom false rest
  | c :: rest =>
    if inComment then
      if isShown c then skipFrom true rest else c :: rest
    else if isBlank c then skipFrom false rest
    else if c = '#' then skipFrom true rest
    else c :: rest

/-- The text after all blanks, comments and line breaks. -/
def skipSpace (s : List Char) : List Char := skipFrom false s

def hexValue? (c : Char) : Option Nat :=
  if '0' ≤ c ∧ c ≤ '9' then some (c.toNat - 48)
  else if 'a' ≤ c ∧ c ≤ 'f' then some (c.toNat - 87)
  else if 'A' ≤ c ∧ c ≤ 'F' then some (c.toNat - 55)
  else none

/-- The character of a code point in so many hexadecimal digits. -/
def takeCode? (width : Nat) (s : List Char) : Reading Char :=
  let code := s.take width
  if code.length < width then none
  else
    (code.mapM hexValue?).bind fun ds =>
      let n := ds.foldl (fun n d => 16 * n + d) 0
      if n.isValidChar then some (Char.ofNat n, s.drop width) else none

/-- The character of an escape, after its backslash. -/
def takeEscape? : List Char → Reading Char
  | 'b' :: rest => some ('\x08', rest)
  | 't' :: rest => some ('\t', rest)
  | 'n' :: rest => some ('\n', rest)
  | 'f' :: rest => some ('\x0c', rest)
  | 'r' :: rest => some ('\r', rest)
  | 'e' :: rest => some ('\x1b', rest)
  | '"' :: rest => some ('"', rest)
  | '\\' :: rest => some ('\\', rest)
  | 'x' :: rest => takeCode? 2 rest
  | 'u' :: rest => takeCode? 4 rest
  | 'U' :: rest => takeCode? 8 rest
  | _ => none

/-- Basic text on one line, after its quote, in so many steps at most. -/
def takeBasic? : Nat → List Char → Reading (List Char)
  | _, '"' :: rest => some ([], rest)
  | fuel + 1, '\\' :: rest =>
    (takeEscape? rest).bind fun (c, later) =>
      (takeBasic? fuel later).map fun (text, tail) => (c :: text, tail)
  | fuel + 1, c :: rest =>
    if isShown c then (takeBasic? fuel rest).map fun (text, tail) => (c :: text, tail) else none
  | _, _ => none

/-- Literal text on one line, after its quote. -/
def takeLiteral? (s : List Char) : Reading (List Char) :=
  let body := s.takeWhile (· != '\'')
  match s.dropWhile (· != '\'') with
  | '\'' :: rest => if body.all isShown then some (body, rest) else none
  | _ => none

/-- The quotes that end a text of several lines: three, after one or two that belong to it. -/
def takeClosing? (quote : Char) (s : List Char) : Reading (List Char) :=
  let run := s.takeWhile (· == quote)
  if run.length < 3 then none
  else
    let owned := min (run.length - 3) 2
    some (List.replicate owned quote, s.drop (owned + 3))

/-- The text after a backslash at the end of a line: up to the next character that is not a
    blank. -/
def skipFold? (s : List Char) : Option (List Char) :=
  (takeBreak? (skipBlanks s)).map fun rest =>
    rest.dropWhile fun c => isBlank c || c == '\n' || c == '\r'

/-- Text of several lines, in so many steps at most.  A line break counts as a line feed. -/
def takeBlock? (quote : Char) (escapes : Bool) : Nat → List Char → Reading (List Char)
  | 0, _ => none
  | fuel + 1, s =>
    match takeClosing? quote s with
    | some ending => some ending
    | none =>
      match takeBreak? s, s with
      | some rest, _ =>
        (takeBlock? quote escapes fuel rest).map fun (text, tail) => ('\n' :: text, tail)
      | none, '\\' :: rest =>
        if escapes then
          match skipFold? rest with
          | some later => takeBlock? quote escapes fuel later
          | none =>
            (takeEscape? rest).bind fun (c, later) =>
              (takeBlock? quote escapes fuel later).map fun (text, tail) => (c :: text, tail)
        else (takeBlock? quote escapes fuel rest).map fun (text, tail) => ('\\' :: text, tail)
      | none, c :: rest =>
        if isShown c then
          (takeBlock? quote escapes fuel rest).map fun (text, tail) => (c :: text, tail)
        else none
      | none, [] => none

/-- Text of several lines, after its three quotes; a line break right after these is no part of
    it. -/
def takeLines? (quote : Char) (escapes : Bool) (s : List Char) : Reading (List Char) :=
  let body := (takeBreak? s).getD s
  takeBlock? quote escapes (body.length + 1) body

/-- Quoted text of one line. -/
def takeQuoted? : List Char → Reading String
  | '"' :: rest => (takeBasic? rest.length rest).map fun (text, tail) => (String.ofList text, tail)
  | '\'' :: rest => (takeLiteral? rest).map fun (text, tail) => (String.ofList text, tail)
  | _ => none

/-- Quoted text of any kind. -/
def takeText? : List Char → Reading String
  | '"' :: '"' :: '"' :: rest =>
    (takeLines? '"' true rest).map fun (text, tail) => (String.ofList text, tail)
  | '\'' :: '\'' :: '\'' :: rest =>
    (takeLines? '\'' false rest).map fun (text, tail) => (String.ofList text, tail)
  | s => takeQuoted? s

/-- The characters of bare keys. -/
def isBare (c : Char) : Bool := c.isAlphanum || c == '_' || c == '-'

def takePart? (s : List Char) : Reading String :=
  match s.takeWhile isBare with
  | [] => takeQuoted? s
  | name => some (String.ofList name, s.dropWhile isBare)

/-- The further parts of a key, each after a dot, at most so many. -/
def takeParts? : Nat → List Char → Reading (List String)
  | 0, _ => none
  | fuel + 1, s =>
    match skipBlanks s with
    | '.' :: rest =>
      (takePart? (skipBlanks rest)).bind fun (part, later) =>
        (takeParts? fuel later).map fun (parts, tail) => (part :: parts, tail)
    | rest => some ([], rest)

/-- A key with all its parts, and the text after the blanks behind it. -/
def takeKey? (s : List Char) : Reading (List String) :=
  (takePart? (skipBlanks s)).bind fun (part, rest) =>
    (takeParts? (rest.length + 1) rest).map fun (parts, tail) => (part :: parts, tail)

end CalendarFeeds.Toml
