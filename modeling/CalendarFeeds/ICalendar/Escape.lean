import CalendarFeeds.Text.Blank

/-! # Escapes — text inside content lines

    A text value may hold any character, but backslashes, commas, semicolons and line breaks have
    a meaning of their own in a content line and are written as escapes; a line break is one
    escape however it is spelled.  A raw value has no escapes, so its control characters are
    dropped.  A parameter value is quoted when it holds a separator, and inside quotes the caret
    introduces an escape. -/

namespace CalendarFeeds.ICalendar

/-- A character of a text value. -/
def escapeChar (c : Char) : List Char :=
  if c = '\\' then ['\\', '\\']
  else if c = ',' then ['\\', ',']
  else if c = ';' then ['\\', ';']
  else if c = '\n' ∨ c = '\r' then ['\\', 'n']
  else [c]

/-- A text value; a carriage return and the line feed after it are one line break. -/
def escapeText : List Char → List Char
  | [] => []
  | [c] => escapeChar c
  | c :: d :: rest =>
    if c = '\r' ∧ d = '\n' then '\\' :: 'n' :: escapeText rest
    else escapeChar c ++ escapeText (d :: rest)

/-- A raw value: the characters that are no control characters. -/
def stripControls (s : List Char) : List Char :=
  s.filter fun c => !Text.isControl c

/-- The characters that force a parameter value into quotes. -/
def needsQuotes (c : Char) : Bool :=
  c == ':' || c == ';' || c == ',' || c == '"' || c == '\n'

/-- A character of a quoted parameter value. -/
def quoteChar (c : Char) : List Char :=
  if c = '^' then ['^', '^']
  else if c = '\n' then ['^', 'n']
  else if c = '"' then ['^', '\'']
  else [c]

/-- A parameter value, quoted only where it must be. -/
def quoteParameter (s : List Char) : List Char :=
  if s.any needsQuotes then '"' :: s.flatMap quoteChar ++ ['"'] else s

end CalendarFeeds.ICalendar
