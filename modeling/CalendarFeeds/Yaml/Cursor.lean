/-! # Cursors — a place in a text, with its line and column

    Reading goes from character to character, and what is read next often depends on the column.
    A cursor holds the characters that remain and where they begin.  Past the end of the text
    stands a NUL, which no text contains. -/

namespace CalendarFeeds.Yaml

def isBreak (c : Char) : Bool := c == '\n' || c == '\r'

def isBlank (c : Char) : Bool := c == ' ' || c == '\t'

/-- Whether a character stands for the end of the text. -/
def isEnd (c : Char) : Bool := c == '\x00'

def isBreakOrEnd (c : Char) : Bool := isBreak c || isEnd c

/-- Whether a character ends a word: a blank, a line break or the end. -/
def isSpaceOrEnd (c : Char) : Bool := isBlank c || isBreakOrEnd c

/-- The characters that structure flow collections. -/
def isFlow (c : Char) : Bool :=
  c == ',' || c == '[' || c == ']' || c == '\x7b' || c == '\x7d'

/-- The characters of names. -/
def isWord (c : Char) : Bool := c.isAlphanum || c == '_' || c == '-'

def hexValue? (c : Char) : Option Nat :=
  if '0' ≤ c ∧ c ≤ '9' then some (c.toNat - 48)
  else if 'a' ≤ c ∧ c ≤ 'f' then some (c.toNat - 87)
  else if 'A' ≤ c ∧ c ≤ 'F' then some (c.toNat - 55)
  else none

/-- A place in a text. -/
structure Cursor where
  /-- The characters from here on. -/
  rest : List Char
  line : Nat
  column : Nat
  /-- How many characters stand before. -/
  offset : Nat
  /-- Whether only blanks stand before on the line. -/
  inMargin : Bool
  /-- More steps than there are characters in the text, a bound for every loop. -/
  limit : Nat

namespace Cursor

/-- The start of a text. -/
def start (s : List Char) : Cursor := ⟨s, 0, 0, 0, true, s.length + 1⟩

/-- The character that many places ahead. -/
def peekAt (c : Cursor) (n : Nat) : Char := (c.rest[n]?).getD '\x00'

def peek (c : Cursor) : Char := c.peekAt 0

/-- Past so many characters, none of which is a line break. -/
def advanceBy (c : Cursor) (n : Nat) : Cursor :=
  { c with rest := c.rest.drop n, column := c.column + n, offset := c.offset + n,
           inMargin := false }

/-- Past one character that is neither a blank nor a line break. -/
def advance (c : Cursor) : Cursor := c.advanceBy 1

def advanceBlank (c : Cursor) : Cursor :=
  { c.advanceBy 1 with inMargin := c.inMargin }

/-- Past a line break, which a carriage return and the line feed after it make together. -/
def advanceBreak (c : Cursor) : Cursor :=
  let width := if c.peekAt 0 = '\r' ∧ c.peekAt 1 = '\n' then 2 else 1
  { c with rest := c.rest.drop width, line := c.line + 1, column := 0, offset := c.offset + width,
           inMargin := true }

/-- The characters from here on that belong to a class. -/
def taken (c : Cursor) (p : Char → Bool) : List Char := c.rest.takeWhile p

/-- Past the characters of a class, which has no line breaks. -/
def skip (c : Cursor) (p : Char → Bool) : Cursor :=
  let n := (c.taken p).length
  if n = 0 then c else c.advanceBy n

def skipBlanks (c : Cursor) : Cursor :=
  { c.skip isBlank with inMargin := c.inMargin }

def skipLine (c : Cursor) : Cursor := c.skip fun d => !isBreakOrEnd d

/-- Whether three equal marks of a kind stand here as a word. -/
def atMark (c : Cursor) (mark : Char) : Bool :=
  c.peekAt 0 == mark && c.peekAt 1 == mark && c.peekAt 2 == mark && isSpaceOrEnd (c.peekAt 3)

/-- Whether a line that starts or ends a document stands here. -/
def atDocumentMark (c : Cursor) : Bool :=
  c.column == 0 && (c.atMark '-' || c.atMark '.')

/-- What stood between a token and the rest of its line. -/
structure Gap where
  spaces : Bool
  tabs : Bool
  cursor : Cursor

/-- Past blanks and a comment, in so many steps at most.  A comment must stand behind a blank. -/
def skipGap (tabsAllowed : Bool) : Nat → Gap → Option Gap
  | 0, g => some g
  | fuel + 1, g =>
    let d := g.cursor.peek
    if d = ' ' then skipGap tabsAllowed fuel ⟨true, g.tabs, g.cursor.advanceBlank⟩
    else if d = '\t' ∧ tabsAllowed then
      skipGap tabsAllowed fuel ⟨g.spaces, true, g.cursor.advanceBlank⟩
    else if d = '#' then
      if g.spaces || g.tabs then skipGap tabsAllowed fuel { g with cursor := g.cursor.skipLine }
      else none
    else some g

/-- What stands between here and the next token on the line or its end. -/
def gap? (c : Cursor) (tabsAllowed : Bool) : Option Gap :=
  skipGap tabsAllowed c.limit ⟨false, false, c⟩

/-- Past what stands between here and the next token on the line or its end. -/
def pastGap? (c : Cursor) : Option Cursor :=
  (c.gap? true).map Gap.cursor

end Cursor

end CalendarFeeds.Yaml
