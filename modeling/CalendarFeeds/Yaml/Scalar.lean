import CalendarFeeds.Yaml.Cursor

/-! # Scalars — the text of plain, quoted and block scalars

    A scalar may go on over several lines.  Between two pieces of a plain or quoted scalar, blanks
    on one line are kept; a line break with blanks around it becomes one space, and each further
    line break stays a line break.  A block scalar keeps its lines, and folds them if it is
    marked so. -/

namespace CalendarFeeds.Yaml

/-- How two pieces of a scalar are parted. -/
inductive Parting where
  | sameLine
  /-- By line breaks. -/
  | folded
  /-- By an escaped line break. -/
  | joined
  deriving DecidableEq, Repr

/-- What stands between two pieces of a scalar. -/
structure Space where
  parting : Parting
  /-- Blanks on the same line, the last one first. -/
  blanks : List Char
  /-- Line breaks after the first. -/
  breaks : Nat

namespace Space

def none : Space := ⟨.sameLine, [], 0⟩

/-- Adds a blank, which counts only on the same line. -/
def addBlank (s : Space) (c : Char) : Space :=
  if s.parting = .sameLine then { s with blanks := c :: s.blanks } else s

def addBreak (s : Space) : Space :=
  if s.parting = .sameLine then ⟨.folded, [], 0⟩ else { s with breaks := s.breaks + 1 }

/-- What the space contributes to the text. -/
def text (s : Space) : List Char :=
  match s.parting with
  | .sameLine => s.blanks.reverse
  | .folded => if s.breaks = 0 then [' '] else List.replicate s.breaks '\n'
  | .joined => List.replicate s.breaks '\n'

end Space

/-- A scalar that has been read, and the place after it. -/
structure ReadScalar where
  text : List Char
  cursor : Cursor
  /-- Whether the place after it is on a later line. -/
  brokeLine : Bool

-- ── Plain scalars ────────────────────────────────────────────────────────────────

/-- Whether a character ends a plain scalar, given what follows it. -/
def endsPlain (inFlow : Bool) (c : Char) (rest : List Char) : Bool :=
  let next := rest.headD '\x00'
  isSpaceOrEnd c || (c == ':' && (isSpaceOrEnd next || (inFlow && isFlow next)))
    || (inFlow && isFlow c)

/-- The piece of a plain scalar that a text begins with. -/
def plainPiece (inFlow : Bool) : List Char → List Char
  | [] => []
  | c :: rest => if endsPlain inFlow c rest then [] else c :: plainPiece inFlow rest

/-- Past the blanks and line breaks after a piece of a plain scalar.  A tab must not stand where
    indentation is due, unless the line is empty. -/
def plainSpace (indent : Int) : Nat → Space → Cursor → Option (Space × Cursor)
  | 0, s, c => some (s, c)
  | fuel + 1, s, c =>
    let d := c.peek
    if isBreak d then plainSpace indent fuel s.addBreak c.advanceBreak
    else if isBlank d then
      if s.parting ≠ .sameLine ∧ d = '\t' ∧ (c.column : Int) < indent then
        match c.pastGap? with
        | some after => if isBreakOrEnd after.peek then plainSpace indent fuel s after else none
        | none => none
      else plainSpace indent fuel (s.addBlank d) c.advanceBlank
    else some (s, c)

/-- A plain scalar whose reversed text ends at a place, unless it is empty. -/
def endPlain? (text : List Char) (c : Cursor) (brokeLine : Bool) : Option ReadScalar :=
  if text.isEmpty then none else some ⟨text.reverse, c, brokeLine⟩

/-- The pieces of a plain scalar from a place on; the text so far is reversed. -/
def plainPieces (inFlow : Bool) (indent : Int) :
    Nat → List Char → Space → Cursor → Option ReadScalar
  | 0, _, _, _ => none
  | fuel + 1, text, space, c =>
    if (space.parting ≠ .sameLine ∧ c.atDocumentMark) ∨ c.peek = '#' then
      endPlain? text c (space.parting != .sameLine)
    else if inFlow ∧ c.peek = '-' ∧ isFlow (c.peekAt 1) then none
    else
      let piece := plainPiece inFlow c.rest
      if !piece.isEmpty then
        plainPieces inFlow indent fuel (piece.reverse ++ space.text.reverse ++ text) .none
          (c.advanceBy piece.length)
      else if isBlank c.peek || isBreak c.peek then
        match plainSpace indent c.limit space c with
        | none => none
        | some (space, after) =>
          if !inFlow && decide ((after.column : Int) < indent) then
            endPlain? text after (space.parting != .sameLine)
          else plainPieces inFlow indent fuel text space after
      else endPlain? text c (space.parting != .sameLine)

/-- Reads a plain scalar that must be indented by so many columns outside brackets. -/
def readPlain? (inFlow : Bool) (indent : Int) (c : Cursor) : Option ReadScalar :=
  if inFlow ∧ (c.column : Int) < indent then none
  else plainPieces inFlow indent (2 * c.limit) [] .none c

-- ── Quoted scalars ───────────────────────────────────────────────────────────────

def letterEscape? : Char → Option Char
  | '0' => some '\x00'
  | 'a' => some '\x07'
  | 'b' => some '\x08'
  | 't' => some '\t'
  | '\t' => some '\t'
  | 'n' => some '\n'
  | 'v' => some '\x0b'
  | 'f' => some '\x0c'
  | 'r' => some '\r'
  | 'e' => some '\x1b'
  | ' ' => some ' '
  | '"' => some '"'
  | '/' => some '/'
  | '\\' => some '\\'
  | 'N' => some '\u0085'
  | '_' => some '\u00a0'
  | 'L' => some '\u2028'
  | 'P' => some '\u2029'
  | _ => none

/-- How many hexadecimal digits follow the letter of an escape. -/
def codeLength? : Char → Option Nat
  | 'x' => some 2
  | 'u' => some 4
  | 'U' => some 8
  | _ => none

/-- The character of a code point given in hexadecimal. -/
def codePoint? (digits : List Char) : Option Char :=
  (digits.mapM hexValue?).bind fun values =>
    let n := values.foldl (fun n d => 16 * n + d) 0
    if h : n.isValidChar then some (Char.ofNatAux n h) else none

/-- The escape after a backslash: its character, and how many characters it takes up. -/
def escape? : List Char → Option (Char × Nat)
  | [] => none
  | c :: rest =>
    match letterEscape? c, codeLength? c with
    | some d, _ => some (d, 1)
    | none, some n =>
      if rest.length < n then none else (codePoint? (rest.take n)).map fun d => (d, n + 1)
    | none, none => none

/-- A piece of a quoted scalar up to a blank, a line break, the closing quote or the end; also
    whether it ended in an escaped line break. -/
def quotedPiece (isSingle : Bool) : Nat → List Char → Cursor → Option (List Char × Bool × Cursor)
  | 0, text, c => some (text, false, c)
  | fuel + 1, text, c =>
    let d := c.peek
    if isSpaceOrEnd d then some (text, false, c)
    else if isSingle then
      if d = '\'' then
        if c.peekAt 1 = '\'' then quotedPiece isSingle fuel ('\'' :: text) (c.advanceBy 2)
        else some (text, false, c)
      else quotedPiece isSingle fuel (d :: text) c.advance
    else if d = '"' then some (text, false, c)
    else if d = '\\' then
      if isBreak (c.peekAt 1) then some (text, true, c.advance.advanceBreak)
      else
        match escape? (c.rest.drop 1) with
        | none => none
        | some (e, n) => quotedPiece isSingle fuel (e :: text) (c.advanceBy (n + 1))
    else quotedPiece isSingle fuel (d :: text) c.advance

/-- Past the blanks and line breaks after a piece of a quoted scalar. -/
def quotedSpace (indent : Int) : Nat → Space → Cursor → Option (Space × Cursor)
  | 0, s, c => some (s, c)
  | fuel + 1, s, c =>
    let d := c.peek
    if isBreak d then quotedSpace indent fuel s.addBreak c.advanceBreak
    else if isBlank d then
      if s.parting ≠ .sameLine ∧ d = '\t' ∧ (c.column : Int) < indent then none
      else quotedSpace indent fuel (s.addBlank d) c.advanceBlank
    else some (s, c)

/-- The pieces of a quoted scalar from a place on; the text so far is reversed. -/
def quotedPieces (isSingle : Bool) (indent : Int) :
    Nat → List Char → Cursor → Option (List Char × Cursor)
  | 0, _, _ => none
  | fuel + 1, text, c =>
    if c.atDocumentMark ∨ isEnd c.peek ∨ (c.column : Int) < indent then none
    else
      match quotedPiece isSingle c.limit text c with
      | none => none
      | some (text, joined, c) =>
        if c.peek = (if isSingle then '\'' else '"') then some (text.reverse, c.advance)
        else
          let space : Space := if joined then ⟨.joined, [], 0⟩ else .none
          match quotedSpace indent c.limit space c with
          | none => none
          | some (space, c) => quotedPieces isSingle indent fuel (space.text.reverse ++ text) c

/-- Reads a quoted scalar from its opening quote on. -/
def readQuoted? (isSingle : Bool) (indent : Int) (c : Cursor) : Option (List Char × Cursor) :=
  quotedPieces isSingle indent c.limit [] c.advance

-- ── Block scalars ────────────────────────────────────────────────────────────────

/-- What becomes of the line breaks at the end of a block scalar. -/
inductive Chomping where
  | strip
  | clip
  | keep
  deriving DecidableEq, Repr

/-- The sign for a way of chomping. -/
def chomping? : Char → Option Chomping
  | '+' => some .keep
  | '-' => some .strip
  | _ => none

/-- The digit that states the indentation of a block scalar: none when there is none, an error
    when it is zero. -/
def indentDigit? (c : Char) : Option (Option Nat) :=
  if c = '0' then none
  else if c.isDigit then some (some (c.toNat - 48))
  else some none

/-- The signs after the mark of a block scalar, in either order. -/
def blockSigns? (c : Cursor) : Option (Chomping × Nat × Cursor) :=
  match chomping? c.peek with
  | some chomping =>
    (indentDigit? (c.peekAt 1)).map fun digit =>
      match digit with
      | some n => (chomping, n, c.advanceBy 2)
      | none => (chomping, 0, c.advance)
  | none =>
    (indentDigit? c.peek).map fun digit =>
      match digit with
      | none => (.clip, 0, c)
      | some n =>
        match chomping? (c.peekAt 1) with
        | some chomping => (chomping, n, c.advanceBy 2)
        | none => (.clip, n, c.advance)

/-- Past indentation of at most so many spaces. -/
def skipIndent (indent : Nat) (c : Cursor) : Cursor :=
  let n := min (c.taken (· == ' ')).length (indent - c.column)
  if n = 0 then c else { c.advanceBy n with inMargin := c.inMargin }

/-- Past empty lines and the indentation of the next one; counts the lines. -/
def emptyLines (indent : Nat) : Nat → Nat → Cursor → Nat × Cursor
  | 0, count, c => (count, c)
  | fuel + 1, count, c =>
    let c := skipIndent indent c
    if isBreak c.peek then emptyLines indent fuel (count + 1) c.advanceBreak else (count, c)

/-- Past empty lines and the spaces before the first line with content; counts the lines and finds
    the greatest number of spaces. -/
def leadingLines : Nat → Nat → Nat → Cursor → Nat × Nat × Cursor
  | 0, count, widest, c => (count, widest, c)
  | fuel + 1, count, widest, c =>
    let n := (c.taken (· == ' ')).length
    let c := if n = 0 then c else { c.advanceBy n with inMargin := c.inMargin }
    let widest := max widest c.column
    if isBreak c.peek then leadingLines fuel (count + 1) widest c.advanceBreak
    else (count, widest, c)

/-- The lines of a block scalar that have been read. -/
structure BlockText where
  /-- Reversed. -/
  text : List Char
  /-- Whether a line break follows the last line. -/
  ended : Bool
  /-- How many empty lines follow it. -/
  breaks : Nat
  cursor : Cursor

/-- What parts two lines of a block scalar. -/
def lineParting (isFolded ended : Bool) (breaks : Nat) (blankBefore blankAfter : Bool) :
    List Char :=
  if isFolded && ended && !blankBefore && !blankAfter then
    if breaks = 0 then [' '] else List.replicate breaks '\n'
  else (if ended then ['\n'] else []) ++ List.replicate breaks '\n'

/-- The lines of a block scalar with an indentation. -/
def blockLines (isFolded : Bool) (indent : Nat) : Nat → Bool → BlockText → BlockText
  | 0, _, b => b
  | fuel + 1, blankBefore, b =>
    let c := b.cursor
    if c.column ≠ indent ∨ isEnd c.peek ∨ c.atDocumentMark then b
    else
      let blank := isBlank c.peek
      let content := c.taken fun d => !isBreakOrEnd d
      let text := content.reverse ++ (lineParting isFolded b.ended b.breaks blankBefore blank)
        ++ b.text
      let after := c.skipLine
      if isEnd after.peek then ⟨text, false, 0, after⟩
      else
        let (breaks, next) := emptyLines indent after.limit 0 after.advanceBreak
        blockLines isFolded indent fuel blank ⟨text, true, breaks, next⟩

/-- The text of a block scalar, its end chomped.  A last line without a line break counts as if
    it had one. -/
def chomp (chomping : Chomping) (indent : Nat) (b : BlockText) : List Char :=
  let ending := if b.ended then ['\n'] else []
  let missing :=
    if isEnd b.cursor.peek && decide (max indent 1 ≤ b.cursor.column) then ['\n'] else []
  match chomping with
  | .strip => b.text.reverse
  | .clip => b.text.reverse ++ ending ++ missing
  | .keep => b.text.reverse ++ ending ++ missing ++ List.replicate b.breaks '\n'

/-- The text of a block scalar that has no line with content. -/
def emptyBlock (chomping : Chomping) (brokeLine : Bool) (breaks : Nat) : List Char :=
  match chomping with
  | .strip => []
  | .clip => if brokeLine then ['\n'] else []
  | .keep => if brokeLine then List.replicate (max 1 breaks) '\n' else []

/-- Reads a block scalar from the place after its mark on, inside an indentation. -/
def readBlock? (isFolded : Bool) (outer : Int) (c : Cursor) : Option (List Char × Cursor) :=
  match blockSigns? c with
  | none => none
  | some (chomping, increment, afterSigns) =>
    match afterSigns.pastGap? with
    | none => none
    | some lineEnd =>
      if !isBreakOrEnd lineEnd.peek then none
      else
        let brokeLine := isBreak lineEnd.peek
        let first := if brokeLine then lineEnd.advanceBreak else lineEnd
        if first.peek = '\t' then none
        else
          let fuel := first.limit
          let stated := if 0 ≤ outer then outer.toNat + increment else increment
          let (breaks, indent, body) : Nat × Nat × Cursor :=
            if increment = 0 then
              let (count, widest, body) := leadingLines fuel 0 0 first
              let atLeast := (outer + 1).toNat
              let indent := max widest atLeast
              (count, (if 0 < outer then max indent 1 else indent), body)
            else
              let (count, body) := emptyLines stated fuel 0 first
              (count, stated, body)
          if isEnd body.peek then some (emptyBlock chomping brokeLine breaks, body)
          else if body.column < indent ∧ outer < (body.column : Int) then none
          else
            let b := blockLines isFolded indent fuel false ⟨[], false, breaks, body⟩
            some (chomp chomping indent b, b.cursor)

end CalendarFeeds.Yaml
