import CalendarFeeds.Yaml.Scalar
import CalendarFeeds.Yaml.Tag

/-! # Layout — from characters to tokens

    Tokens are read from left to right.  Outside brackets, columns decide where block collections
    start and end.  Whether a scalar is a key shows only at the colon behind it, so the place of
    a token that may be a key is kept until then, and the signs that belong in front of it are
    put in afterwards. -/

namespace CalendarFeeds.Yaml

/-- A token that turns out to be a key if a colon follows. -/
structure PendingKey where
  /-- Whether it still may be one. -/
  possible : Bool
  /-- Whether it has to be one, by its column. -/
  required : Bool
  /-- The number of the token. -/
  token : Nat
  line : Nat
  column : Nat
  offset : Nat

/-- A candidate that is given up. -/
def PendingKey.giveUp (k : PendingKey) : PendingKey := { k with possible := false }

/-- An indentation that has been left for a deeper one. -/
structure Indent where
  column : Int
  /-- Whether the deeper one is that of a block collection, which a token ends. -/
  isBlock : Bool

/-- What is known between two tokens. -/
structure Layout where
  cursor : Cursor
  tokens : Array Token
  /-- The column of the last token. -/
  lastColumn : Nat
  /-- The indentation in force, -1 before the first. -/
  indent : Int
  /-- The indentations left, the last one first. -/
  indents : List Indent
  /-- How many brackets are open. -/
  depth : Nat
  /-- Whether a key may start here. -/
  keyAllowed : Bool
  /-- A candidate for each open bracket and one outside, the innermost first. -/
  candidates : List PendingKey
  /-- Where a colon may stand without a blank after it. -/
  colonAt : Option Nat
  /-- Whether a mapping in brackets has been started by a sign of its own. -/
  mappingOpen : Bool
  /-- For each open square bracket, whether it holds a mapping of one pair right now. -/
  pairOpen : List Bool
  /-- Whether the end of the text has been reached. -/
  finished : Bool

namespace Layout

def noKey : PendingKey := ⟨false, false, 0, 0, 0, 0⟩

def start (s : List Char) : Layout :=
  { cursor := .start s
    tokens := #[]
    lastColumn := 0
    indent := -1
    indents := []
    depth := 0
    keyAllowed := true
    candidates := [noKey]
    colonAt := none
    mappingOpen := false
    pairOpen := []
    finished := false }

def column (l : Layout) : Nat := l.cursor.column

/-- Adds a token that began in a column. -/
def push (l : Layout) (t : Token) (column : Nat) : Layout :=
  { l with tokens := l.tokens.push t, lastColumn := column }

/-- Puts a token in front of the token with a number. -/
def insertAt (l : Layout) (number : Nat) (t : Token) : Layout :=
  { l with tokens := (l.tokens.extract 0 number).push t ++ l.tokens.extract number l.tokens.size }

-- ── Indentation ──────────────────────────────────────────────────────────────────

/-- Whether the indentation in force is that of a block collection. -/
def inBlock (l : Layout) : Bool :=
  match l.indents with
  | [] => false
  | i :: _ => i.isBlock

/-- Leaves the indentations deeper than a column, each block collection with a token. -/
def unrollList (target : Int) : Int → List Indent → Nat × Int × List Indent
  | current, [] => (0, current, [])
  | current, i :: rest =>
    if target < current then
      let (ends, indent, left) := unrollList target i.column rest
      (if i.isBlock then ends + 1 else ends, indent, left)
    else (0, current, i :: rest)

/-- Leaves the indentations deeper than a column; brackets suspend indentation. -/
def unroll (l : Layout) (target : Int) : Layout :=
  if 0 < l.depth then l
  else
    let (ends, indent, left) := unrollList target l.indent l.indents
    let l := { l with indent := indent, indents := left }
    (List.replicate ends Token.blockEnd).foldl (fun l t => l.push t l.column) l

/-- Leaves the indentations that no block collection made. -/
def dropOpenIndents (l : Layout) : Layout :=
  let rec go (indent : Int) : List Indent → Int × List Indent
    | [] => (indent, [])
    | i :: rest => if i.isBlock then (indent, i :: rest) else go i.column rest
  let (indent, left) := go l.indent l.indents
  { l with indent := indent, indents := left }

/-- Starts a block collection in a column, unless it is under way there.  Its token goes to the
    end, or in front of the token with a number. -/
def roll (l : Layout) (column : Nat) (number : Option Nat) (t : Token) : Layout :=
  if 0 < l.depth then l
  else
    let l :=
      match l.indents with
      | i :: rest =>
        if decide (l.indent ≤ (column : Int)) && !i.isBlock then
          { l with indent := i.column, indents := rest }
        else l
      | [] => l
    if l.indent < (column : Int) then
      let l := { l with indents := ⟨l.indent, true⟩ :: l.indents, indent := column }
      match number with
      | none => l.push t column
      | some n => l.insertAt n t
    else l

/-- Asks what belongs to an entry to be indented by one more column. -/
def rollOne (l : Layout) : Layout :=
  if l.depth = 0 ∧ l.inBlock then
    { l with indents := ⟨l.indent, false⟩ :: l.indents, indent := l.indent + 1 }
  else l

-- ── Candidates for keys ──────────────────────────────────────────────────────────

def candidate (l : Layout) : PendingKey := l.candidates.headD noKey

def setCandidate (l : Layout) (k : PendingKey) : Layout :=
  { l with candidates := k :: l.candidates.drop 1 }

/-- Makes the next token a candidate, if a key may start here. -/
def saveKey (l : Layout) : Layout :=
  if l.keyAllowed then
    let c := l.cursor
    l.setCandidate
      { possible := true
        required := l.depth = 0 && decide (l.indent = (c.column : Int)) && l.inBlock
        token := l.tokens.size
        line := c.line
        column := c.column
        offset := c.offset }
  else l

/-- Gives up the innermost candidate, which must not be one that has to be a key. -/
def removeKey? (l : Layout) : Option Layout :=
  let k := l.candidate
  if k.possible && k.required then none else some (l.setCandidate k.giveUp)

/-- Whether a candidate has been left behind: a key outside brackets stays on one line and within
    1024 characters. -/
def isStale (l : Layout) (k : PendingKey) : Bool :=
  k.possible && l.depth == 0
    && (decide (k.line < l.cursor.line) || decide (k.offset + 1024 < l.cursor.offset))

/-- Gives up the candidates that have been left behind. -/
def dropStale? (l : Layout) : Option Layout :=
  if l.candidates.any fun k => l.isStale k && k.required then none
  else
    some { l with candidates := l.candidates.map fun k =>
      if l.isStale k then k.giveUp else k }

-- ── Between tokens ───────────────────────────────────────────────────────────────

/-- Past blanks, comments and line breaks, in so many steps at most.  In the margin of a block a
    tab must not take the place of indentation. -/
def skipSpace : Nat → Layout → Option Layout
  | 0, l => some l
  | fuel + 1, l =>
    let c := l.cursor
    let d := c.peek
    if d = '\t' ∧ l.indents ≠ [] ∧ c.inMargin ∧ (c.column : Int) < l.indent then
      match c.pastGap? with
      | none => none
      | some after =>
        if isBreakOrEnd after.peek then skipSpace fuel { l with cursor := after } else none
    else if isBlank d then skipSpace fuel { l with cursor := c.advanceBlank }
    else if isBreak d then
      skipSpace fuel
        { l with cursor := c.advanceBreak, keyAllowed := l.keyAllowed || l.depth == 0 }
    else if d = '#' then skipSpace fuel { l with cursor := c.skipLine }
    else some l

/-- Past blanks, comments and line breaks. -/
def pastSpace? (l : Layout) : Option Layout :=
  skipSpace l.cursor.limit l

/-- Past what stands between here and the next token on the line. -/
def pastGap? (l : Layout) : Option Layout :=
  l.cursor.pastGap?.map fun c => { l with cursor := c }

/-- Past spaces, comments and line breaks after the sign of a key; something must stand there. -/
def skipAfterKey : Nat → Bool → Layout → Option Layout
  | 0, seen, l => if seen then some l else none
  | fuel + 1, seen, l =>
    let c := l.cursor
    let d := c.peek
    if d = ' ' then skipAfterKey fuel true { l with cursor := c.advanceBlank }
    else if isBreak d then
      skipAfterKey fuel true
        { l with cursor := c.advanceBreak, keyAllowed := l.keyAllowed || l.depth == 0 }
    else if d = '#' then skipAfterKey fuel seen { l with cursor := c.skipLine }
    else if seen then some l
    else none

-- ── Single tokens ────────────────────────────────────────────────────────────────

/-- The end of the text. -/
def readEnd? (l : Layout) : Option Layout :=
  if l.candidates.any fun k => k.possible && k.required then none
  else
    let l := { l with candidates := l.candidates.map PendingKey.giveUp }
    let l := l.unroll (-1)
    some { l.push .streamEnd l.column with keyAllowed := false, finished := true }

def readDirective? (l : Layout) : Option Layout := do
  let l ← (l.unroll (-1)).removeKey?
  let (token, after) ← directiveAt? l.cursor
  return { l.push token 0 with cursor := after, keyAllowed := false }

/-- A line that starts or ends a document; nothing but a comment may stand behind an end. -/
def readMark? (l : Layout) (t : Token) : Option Layout := do
  let l ← (l.unroll (-1)).removeKey?
  let l := { l.push t 0 with cursor := l.cursor.advanceBy 3, keyAllowed := false }
  if t = .documentEnd then
    let l ← l.pastGap?
    if isBreakOrEnd l.cursor.peek then return l else none
  else return l

/-- The greatest number of open brackets. -/
def maxDepth : Nat := 255

def readOpening? (l : Layout) (t : Token) : Option Layout := do
  let l := l.saveKey.rollOne
  if maxDepth ≤ l.depth then none
  else
    let column := l.column
    let l :=
      { l with
        depth := l.depth + 1
        candidates := noKey :: l.candidates
        keyAllowed := true
        cursor := l.cursor.advance
        mappingOpen := l.mappingOpen || t == Token.flowMappingStart
        pairOpen := if t = Token.flowMappingStart then l.pairOpen else false :: l.pairOpen }
    let l ← l.pastGap?
    return l.push t column

/-- Ends a mapping of one pair in square brackets. -/
def endPair (l : Layout) : Layout :=
  match l.pairOpen with
  | true :: rest =>
    { l.push .flowMappingEnd l.column with mappingOpen := false, pairOpen := false :: rest }
  | _ => l

def readClosing? (l : Layout) (t : Token) : Option Layout := do
  let l ← l.removeKey?
  let l :=
    if 0 < l.depth then { l with depth := l.depth - 1, candidates := l.candidates.drop 1 } else l
  let l := { l with keyAllowed := false }
  let l :=
    if t = .flowSequenceEnd then
      let l := l.endPair
      { l with pairOpen := l.pairOpen.drop 1 }
    else l
  let column := l.column
  let l ← { l with cursor := l.cursor.advance }.pastGap?
  let l := if 0 < l.depth then { l with colonAt := some l.cursor.offset } else l
  return l.push t column

def readFlowEntry? (l : Layout) : Option Layout := do
  let l ← l.removeKey?
  let l := { l with keyAllowed := true }.endPair
  let column := l.column
  let l ← { l with cursor := l.cursor.advance }.pastGap?
  return l.push .flowEntry column

/-- The dash of an entry of a block sequence. -/
def readBlockEntry? (l : Layout) : Option Layout := do
  let afterProperty :=
    match l.tokens.back? with
    | some t => t.isProperty && l.column == 0 && l.lastColumn == 0 && decide (-1 < l.indent)
    | none => false
  if 0 < l.depth || !l.keyAllowed || afterProperty then none
  else
    let column := l.column
    let l := { l with cursor := l.cursor.advance }.roll column none .blockSequenceStart
    let gap ← l.cursor.gap? true
    let c := gap.cursor
    if gap.tabs && c.peek == '-' && isSpaceOrEnd (c.peekAt 1) then none
    else
      let l := { l with cursor := c }
      let l := if isBreak c.peek || isFlow c.peek then l.rollOne else l
      let l ← l.removeKey?
      return { l.push .blockEntry l.column with keyAllowed := true }

/-- The sign of a key that is not a single line. -/
def readKey? (l : Layout) : Option Layout := do
  let column := l.column
  let l ←
    if l.depth = 0 then
      if l.keyAllowed then some (l.roll column none .blockMappingStart) else none
    else some { l with mappingOpen := true }
  let l ← l.removeKey?
  let l := { l with keyAllowed := l.depth == 0, cursor := l.cursor.advance }
  let l ← skipAfterKey l.cursor.limit false l
  if l.cursor.peek = '\t' then none else return l.push .key column

/-- Past the colon of a value and, if a tab follows, the gap after it; a tab alone must not part
    the colon from a word or a dash. -/
def pastColon? (c : Cursor) : Option Cursor :=
  let c := c.advance
  if c.peek = '\t' then
    match c.gap? true with
    | none => none
    | some gap =>
      let d := gap.cursor.peek
      if !gap.spaces && (d == '-' || isWord d) then none else some gap.cursor
  else some c

/-- The colon of a value.  If a candidate stands before it, that is the key; otherwise the key is
    one that was marked, or an empty one. -/
def readValue? (l : Layout) : Option Layout := do
  let k := l.candidate
  let column := l.column
  let line := l.cursor.line
  let isPair := !l.pairOpen.isEmpty && !l.mappingOpen
  let l := if isPair then { l with pairOpen := true :: l.pairOpen.drop 1 } else l
  let c ← pastColon? l.cursor
  let l := { l with cursor := c }
  if k.possible then
    if isPair && decide (k.line < line) then none
    else
      let l := l.insertAt k.token .key
      let l := if isPair then l.insertAt k.token .flowMappingStart else l
      let l := (l.roll k.column (some k.token) .blockMappingStart).rollOne
      let l := l.setCandidate k.giveUp
      return { l.push .value column with keyAllowed := false }
  else
    let l := if isPair then l.push .flowMappingStart l.column else l
    if l.depth = 0 then
      if l.keyAllowed then
        let l := (l.roll column none .blockMappingStart).rollOne
        return { l.push .value column with keyAllowed := true }
      else none
    else return { l.rollOne.push .value column with keyAllowed := false }

/-- An anchor or an alias. -/
def readName? (l : Layout) (make : String → Token) : Option Layout :=
  let l := { l.saveKey with keyAllowed := false }
  let column := l.column
  let c := l.cursor.advance
  let name := c.taken fun d => !isSpaceOrEnd d && !isFlow d && d != '\ufeff'
  if name = [] then none
  else some ({ l with cursor := c.advanceBy name.length }.push (make (String.ofList name)) column)

def readTag? (l : Layout) : Option Layout := do
  let l := { l.saveKey with keyAllowed := false }
  let column := l.column
  let (token, after) ← tagAt? (decide (0 < l.depth)) l.cursor
  return { l with cursor := after }.push token column

def readBlockScalar? (l : Layout) (isFolded : Bool) : Option Layout := do
  let l := { l.saveKey with keyAllowed := true }
  let column := l.column
  let l := { l with cursor := l.cursor.advance }.dropOpenIndents
  let (text, after) ← readBlock? isFolded l.indent l.cursor
  return { l with cursor := after }.push (.scalar false (String.ofList text)) column

/-- Whether a quoted scalar that began on a line may end here. -/
def quoteMayEnd (l : Layout) (line : Nat) : Bool :=
  let d := l.cursor.peek
  if 0 < l.depth then
    d == ',' || d == '\x7d' || d == ']' || d == ':' || isBreakOrEnd d
  else isBreakOrEnd d || (d == ':' && line == l.cursor.line)

def readQuotedScalar? (l : Layout) (isSingle : Bool) : Option Layout := do
  let l := { l.saveKey with keyAllowed := false }
  let column := l.column
  let line := l.cursor.line
  let (text, after) ← readQuoted? isSingle l.indent l.cursor
  let l ← { l with cursor := after }.pastGap?
  if !l.quoteMayEnd line then none
  else
    let l ← l.pastSpace?
    let l := { l with colonAt := some l.cursor.offset }
    return l.push (.scalar false (String.ofList text)) column

def readPlainScalar? (l : Layout) : Option Layout := do
  let l := { l.saveKey with keyAllowed := false }
  let column := l.column
  let l := l.dropOpenIndents
  let s ← readPlain? (decide (0 < l.depth)) (l.indent + 1) l.cursor
  return { l with cursor := s.cursor, keyAllowed := s.brokeLine }.push
    (.scalar true (String.ofList s.text)) column

/-- Whether a colon here stands before a value though no blank follows it. -/
def colonCounts (l : Layout) : Bool :=
  0 < l.depth
    && (isFlow (l.cursor.peekAt 1) || l.colonAt == some l.cursor.offset)

/-- A colon before a value in brackets.  A collection may follow it directly only if the key was
    quoted or a collection. -/
def readFlowValue? (l : Layout) : Option Layout :=
  let next := l.cursor.peekAt 1
  if l.colonAt ≠ some l.cursor.offset ∧ (next = '[' ∨ next = '\x7b') then none else l.readValue?

/-- The token that a character begins. -/
def readToken? (l : Layout) : Option Layout :=
  let d := l.cursor.peek
  let alone := isSpaceOrEnd (l.cursor.peekAt 1)
  if d = '[' then l.readOpening? .flowSequenceStart
  else if d = '\x7b' then l.readOpening? .flowMappingStart
  else if d = ']' then l.readClosing? .flowSequenceEnd
  else if d = '\x7d' then l.readClosing? .flowMappingEnd
  else if d = ',' then l.readFlowEntry?
  else if d = '-' ∧ alone then l.readBlockEntry?
  else if d = '?' ∧ alone then l.readKey?
  else if d = ':' ∧ alone then l.readValue?
  else if d = ':' ∧ l.colonCounts then l.readFlowValue?
  else if d = '*' then l.readName? .alias
  else if d = '&' then l.readName? .anchor
  else if d = '!' then l.readTag?
  else if d = '|' ∧ l.depth = 0 then l.readBlockScalar? false
  else if d = '>' ∧ l.depth = 0 then l.readBlockScalar? true
  else if d = '\'' then l.readQuotedScalar? true
  else if d = '"' then l.readQuotedScalar? false
  else if d = '%' ∨ d = '@' ∨ d = '\x60' then none
  else l.readPlainScalar?

def next? (l : Layout) : Option Layout := do
  let l ← l.pastSpace?
  let l ← l.dropStale?
  let l := l.unroll l.column
  let c := l.cursor
  if isEnd c.peek then l.readEnd?
  else if c.column = 0 ∧ c.peek = '%' then l.readDirective?
  else if c.column = 0 ∧ c.atMark '-' then l.readMark? .documentStart
  else if c.column = 0 ∧ c.atMark '.' then l.readMark? .documentEnd
  else if (c.column : Int) < l.indent then none
  else l.readToken?

/-- All tokens, in so many steps at most. -/
def readAll? : Nat → Layout → Option (Array Token)
  | 0, _ => none
  | fuel + 1, l =>
    match l.next? with
    | none => none
    | some l => if l.finished then some l.tokens else readAll? fuel l

end Layout

/-- The tokens of a text up to its first NUL; none if it is malformed.  Each token but the last
    takes up a character. -/
def tokens? (s : String) : Option (List Token) :=
  let text := s.toList.takeWhile fun c => !isEnd c
  (Layout.readAll? (text.length + 2) (.start text)).map Array.toList

end CalendarFeeds.Yaml
