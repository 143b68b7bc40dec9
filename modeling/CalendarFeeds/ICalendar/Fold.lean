/-! # Folding — content lines of at most 75 octets

    A content line that is too long goes on in the next line after one space, which counts
    towards the length of that line.  A line breaks only between characters, and only where the
    next character would not fit. -/

namespace CalendarFeeds.ICalendar

/-- The greatest length of a line, in octets of UTF-8 and without its line break. -/
def maxOctets : Nat := 75

/-- Folds the rest of a content line when the current line already has some octets. -/
def foldFrom : Nat → List Char → List Char
  | _, [] => []
  | used, c :: rest =>
    if maxOctets < used + c.utf8Size then
      '\r' :: '\n' :: ' ' :: c :: foldFrom (1 + c.utf8Size) rest
    else c :: foldFrom (used + c.utf8Size) rest

/-- A content line, folded and ended by a line break. -/
def foldLine (line : List Char) : List Char :=
  foldFrom 0 line ++ ['\r', '\n']

end CalendarFeeds.ICalendar
