import CalendarFeeds.Text.Numeral

/-! # JSON text — the form of the manifest

    Values are written over several lines, two spaces deeper for each level; an empty list stays
    on one line.  In a string, quotes, backslashes and the control characters below the space are
    escaped, by a letter where there is one; all other characters stand for themselves. -/

namespace CalendarFeeds

/-- A JSON value of the kinds that the manifest needs. -/
inductive Json where
  | string (s : String)
  | number (n : Nat)
  | array (items : List Json)
  | object (fields : List (String × Json))

namespace Json

/-- A digit of a number below 16. -/
def hexDigit (n : Nat) : Char :=
  if n < 10 then Char.ofNat (48 + n) else Char.ofNat (87 + n)

/-- A character inside quotes. -/
def escapeChar (c : Char) : List Char :=
  if c = '"' then ['\\', '"']
  else if c = '\\' then ['\\', '\\']
  else if c = '\n' then ['\\', 'n']
  else if c = '\r' then ['\\', 'r']
  else if c = '\t' then ['\\', 't']
  else if c = '\x08' then ['\\', 'b']
  else if c = '\x0c' then ['\\', 'f']
  else if c.toNat < 32 then
    ['\\', 'u', '0', '0', hexDigit (c.toNat / 16), hexDigit (c.toNat % 16)]
  else [c]

/-- A string in quotes. -/
def quoted (s : String) : String :=
  String.ofList ('"' :: s.toList.flatMap escapeChar ++ ['"'])

/-- A line break and the indentation of a level. -/
def newline (level : Nat) : String :=
  String.ofList ('\n' :: List.replicate (2 * level) ' ')

/-- Items between brackets, each on a line of its own. -/
def block (opening closing : String) (level : Nat) (items : List String) : String :=
  if items.isEmpty then opening ++ closing
  else
    opening ++ newline (level + 1)
      ++ String.intercalate ("," ++ newline (level + 1)) items
      ++ newline level ++ closing

mutual

/-- The text of a value inside so many levels. -/
def textAt (level : Nat) : Json → String
  | string s => quoted s
  | number n => Text.natural n
  | array items => block "[" "]" level (itemTexts (level + 1) items)
  | object fields => block "\x7b" "\x7d" level (fieldTexts (level + 1) fields)

def itemTexts (level : Nat) : List Json → List String
  | [] => []
  | j :: rest => textAt level j :: itemTexts level rest

def fieldTexts (level : Nat) : List (String × Json) → List String
  | [] => []
  | (key, j) :: rest => (quoted key ++ ": " ++ textAt level j) :: fieldTexts level rest

end

def text (j : Json) : String := textAt 0 j

def strings (ss : List String) : Json := array (ss.map string)

end Json

end CalendarFeeds
