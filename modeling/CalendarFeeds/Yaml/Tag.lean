import CalendarFeeds.Yaml.Cursor
import CalendarFeeds.Yaml.Token

/-! # Tags and directives — names that say what nodes are

    A tag is a handle and a suffix, or a whole name between angle brackets.  A directive may give
    a handle its meaning for one document.  Either may hold characters written by the octets of
    their encoding. -/

namespace CalendarFeeds.Yaml

def isNameChar (c : Char) : Bool :=
  c.isAlphanum || c == '-' || "#;/?:@&=+$,_.!~*'()[]%".toList.contains c

def isSuffixChar (c : Char) : Bool :=
  isNameChar c && !isFlow c && c != '!'

/-- How many octets a character takes up, by the first of them. -/
def octetCount? (first : Nat) : Option Nat :=
  if first < 0x80 then some 1
  else if first / 0x20 = 6 then some 2
  else if first / 0x10 = 14 then some 3
  else if first / 0x08 = 30 then some 4
  else none

/-- An octet written as a percent sign and two hexadecimal digits. -/
def readOctet? : List Char → Option (Nat × List Char)
  | '%' :: a :: b :: rest =>
    match hexValue? a, hexValue? b with
    | some high, some low => some (16 * high + low, rest)
    | _, _ => none
  | _ => none

/-- So many further octets of a character, each taken as eight more digits of its number. -/
def moreOctets? : Nat → Nat → List Char → Option (Nat × List Char)
  | 0, n, s => some (n, s)
  | count + 1, n, s =>
    (readOctet? s).bind fun (octet, rest) =>
      if octet / 0x40 = 2 then moreOctets? count (256 * n + octet) rest else none

/-- A character written by its octets. -/
def readOctets? (s : List Char) : Option (Char × List Char) :=
  (readOctet? s).bind fun (first, rest) =>
    (octetCount? first).bind fun count =>
      (moreOctets? (count - 1) first rest).bind fun (n, rest) =>
        if h : n.isValidChar then some (Char.ofNatAux n h, rest) else none

/-- The characters of a class that a text begins with, in so many steps at most. -/
def readName? (p : Char → Bool) : Nat → List Char → Option (List Char × List Char)
  | 0, s => some ([], s)
  | _ + 1, [] => some ([], [])
  | fuel + 1, c :: rest =>
    if !p c then some ([], c :: rest)
    else if c = '%' then
      (readOctets? (c :: rest)).bind fun (d, after) =>
        (readName? p fuel after).map fun (name, last) => (d :: name, last)
    else (readName? p fuel rest).map fun (name, last) => (c :: name, last)

def nameAt? (p : Char → Bool) (c : Cursor) : Option (List Char × Cursor) :=
  (readName? p c.rest.length c.rest).map fun (name, rest) =>
    (name, if rest.length = c.rest.length then c else c.advanceBy (c.rest.length - rest.length))

/-- Reads a handle: an exclamation mark, or a word between two.  A directive needs the second mark
    unless there is no word. -/
def handleAt? (inDirective : Bool) (c : Cursor) : Option (List Char × Cursor) :=
  if c.peek ≠ '!' then none
  else
    let word := c.advance.taken isWord
    let after := c.advanceBy (1 + word.length)
    if after.peek = '!' then some ('!' :: word ++ ['!'], after.advance)
    else if inDirective ∧ word ≠ [] then none
    else some ('!' :: word, after)

/-- Reads a tag between angle brackets, from the exclamation mark on. -/
def verbatimAt? (c : Cursor) : Option (Token × Cursor) :=
  (nameAt? isNameChar (c.advanceBy 2)).bind fun (name, after) =>
    if after.peek = '>' then some (.tag "" (String.ofList name), after.advance) else none

/-- Reads a tag of a handle and a suffix. -/
def shorthandAt? (c : Cursor) : Option (Token × Cursor) :=
  (handleAt? false c).bind fun (handle, afterHandle) =>
    let isHandle := handle.length ≥ 2 && handle.getLast? == some '!'
    (nameAt? isSuffixChar afterHandle).bind fun (suffix, after) =>
      if isHandle then
        if suffix = [] then none
        else some (.tag (String.ofList handle) (String.ofList suffix), after)
      else
        let whole := handle.drop 1 ++ suffix
        if whole = [] then some (.tag "" "!", after)
        else some (.tag "!" (String.ofList whole), after)

/-- Reads a tag, which must be followed by a blank, a line break, the end, or a sign of structure
    in brackets. -/
def tagAt? (inFlow : Bool) (c : Cursor) : Option (Token × Cursor) :=
  let found := if c.peekAt 1 = '<' then verbatimAt? c else shorthandAt? c
  found.filter fun (_, after) => isSpaceOrEnd after.peek || (inFlow && isFlow after.peek)

/-- Past a part of a version number, which has at most nine digits. -/
def pastVersionPart? (c : Cursor) : Option Cursor :=
  let digits := c.taken Char.isDigit
  if digits = [] ∨ 9 < digits.length then none else some (c.advanceBy digits.length)

def versionAt? (c : Cursor) : Option (Token × Cursor) :=
  (pastVersionPart? c.skipBlanks).bind fun afterMajor =>
    if afterMajor.peek = '.' then
      (pastVersionPart? afterMajor.advance).map fun after => (.versionDirective, after)
    else none

/-- Reads the handle and the meaning of a tag directive. -/
def meaningAt? (c : Cursor) : Option (Token × Cursor) :=
  (handleAt? true c.skipBlanks).bind fun (handle, afterHandle) =>
    let place := afterHandle.skipBlanks
    let start := place.peek
    if start ≠ '!' ∧ !isSuffixChar start then none
    else
      (nameAt? isNameChar place).bind fun (meaning, after) =>
        if isSpaceOrEnd after.peek then
          some (.tagDirective (String.ofList handle) (String.ofList meaning), after)
        else none

/-- Reads a directive from its percent sign to the end of its line. -/
def directiveAt? (c : Cursor) : Option (Token × Cursor) :=
  let name := c.advance.taken isWord
  let after := c.advanceBy (1 + name.length)
  if name = [] ∨ !isSpaceOrEnd after.peek then none
  else
    let found :=
      if name = "YAML".toList then versionAt? after
      else if name = "TAG".toList then meaningAt? after
      else some (.tagDirective "" "", after.skipLine)
    found.bind fun (token, after) =>
      after.pastGap?.bind fun lineEnd =>
        if isBreak lineEnd.peek then some (token, lineEnd.advanceBreak)
        else if isEnd lineEnd.peek then some (token, lineEnd)
        else none

end CalendarFeeds.Yaml
