import CalendarFeeds.Environment.Variables
import CalendarFeeds.Text.Blank

/-! # Assignments — files of environment variables

    A file of assignments has a line `NAME=text` for each variable, perhaps with `export` before
    it.  Text may be quoted: between double quotes, backslashes escape and a dollar sign puts in
    the text of another variable, as it does outside of quotes; between single quotes everything
    stands for itself.  A quoted text may go over several lines.  A variable that is set already
    keeps its text, so the first assignment of a name counts.  Reading ends at the first line that
    is no assignment; what stands before it counts. -/

namespace CalendarFeeds.Assignments

/-- Where the end of a line is looked for. -/
inductive Scan where
  | plain
  | escape
  /-- Behind a blank, where a comment may begin. -/
  | blank
  | weak
  | weakEscape
  | strong
  | strongEscape
  deriving DecidableEq, Repr

/-- How a character outside of quotes is taken. -/
def Scan.outside (c : Char) : Scan :=
  if c = '\\' then .escape
  else if c = '"' then .weak
  else if c = '\'' then .strong
  else .plain

/-- How a character changes the search. -/
def Scan.next (c : Char) : Scan → Scan
  | plain => if Text.isBlank c && c != '\n' && c != '\r' then blank else outside c
  | escape => plain
  | blank => outside c
  | weak => if c = '\\' then weakEscape else if c = '"' then plain else weak
  | weakEscape => weak
  | strong => if c = '\\' then strongEscape else if c = '\'' then plain else strong
  | strongEscape => strong

/-- The text after the next line break. -/
def afterBreak (s : List Char) : List Char :=
  (s.dropWhile (· != '\n')).drop 1

/-- A line up to its end or its comment, and the text after it.  A line break ends a line unless
    it is quoted, and so does the end of the text. -/
def takeLine? : Scan → List Char → Option (List Char × List Char)
  | scan, [] => if scan = .plain then some ([], []) else none
  | scan, c :: rest =>
    if scan = .blank ∧ c = '#' then some ([], afterBreak rest)
    else if c = '\n' ∧ scan.next c = .plain then some ([], rest)
    else (takeLine? (scan.next c) rest).map fun (line, later) => (c :: line, later)

/-- Where a character of an assigned text stands. -/
inductive Place where
  | bare
  /-- Between double quotes. -/
  | weak
  /-- Between single quotes. -/
  | strong
  /-- Behind a backslash. -/
  | escape (quoted : Bool)
  /-- In a name behind a dollar sign. -/
  | name (quoted : Bool) (letters : List Char)
  /-- In a name between braces. -/
  | braces (quoted : Bool) (letters : List Char)
  /-- Behind the text. -/
  | over

/-- The place outside of escapes and names. -/
def Place.ground (quoted : Bool) : Place := if quoted then weak else bare

/-- The character that an escape stands for. -/
def unescaped? (c : Char) : Option Char :=
  if c = 'n' then some '\n'
  else if ['\\', '\'', '"', '$', ' '].contains c then some c
  else none

/-- The text that is assigned.  A name that is open at the end is put in; quotes, braces and
    quoted escapes must not be open. -/
def textOf? (lookup : List Char → List Char) : Place → List Char → Option (List Char)
  | .bare, [] => some []
  | .over, [] => some []
  | .escape false, [] => some []
  | .name false letters, [] => some (lookup letters)
  | _, [] => none
  | .over, c :: rest =>
    if c = ' ' ∨ c = '\t' then textOf? lookup .over rest
    else if c = '#' then some []
    else none
  | .escape quoted, c :: rest =>
    (unescaped? c).bind fun d => (textOf? lookup (.ground quoted) rest).map (d :: ·)
  | .strong, c :: rest =>
    if c = '\'' then textOf? lookup .bare rest else (textOf? lookup .strong rest).map (c :: ·)
  | .name quoted letters, c :: rest =>
    if c.isAlphanum then textOf? lookup (.name quoted (letters ++ [c])) rest
    else if c = '\x7b' ∧ letters = [] then textOf? lookup (.braces quoted []) rest
    else if c = '$' then
      (textOf? lookup (.name quoted []) rest).map (lookup letters ++ ·)
    else (textOf? lookup (.ground quoted) rest).map (lookup letters ++ c :: ·)
  | .braces quoted letters, c :: rest =>
    if c = '\x7d' then (textOf? lookup (.ground quoted) rest).map (lookup letters ++ ·)
    else textOf? lookup (.braces quoted (letters ++ [c])) rest
  | .weak, c :: rest =>
    if c = '$' then textOf? lookup (.name true []) rest
    else if c = '"' then textOf? lookup .bare rest
    else if c = '\\' then textOf? lookup (.escape true) rest
    else (textOf? lookup .weak rest).map (c :: ·)
  | .bare, c :: rest =>
    if c = '$' then textOf? lookup (.name false []) rest
    else if c = '\'' then textOf? lookup .strong rest
    else if c = '"' then textOf? lookup .weak rest
    else if c = '\\' then textOf? lookup (.escape false) rest
    else if c = ' ' ∨ c = '\t' then textOf? lookup .over rest
    else (textOf? lookup .bare rest).map (c :: ·)

/-- Takes a name off the front of a text: a letter or underscore, and letters, digits,
    underscores and dots after it. -/
def takeName? (s : List Char) : Option (String × List Char) :=
  let isNameChar (c : Char) : Bool := c.isAlphanum || c == '_' || c == '.'
  match s with
  | [] => none
  | c :: _ =>
    if c.isAlpha || c == '_' then
      some (String.ofList (s.takeWhile isNameChar), Text.trimStart (s.dropWhile isNameChar))
    else none

/-- The name that a line assigns to and the text after its equals sign.  A variable may itself be
    called `export`. -/
def target? (s : List Char) : Option (String × List Char) :=
  match takeName? s with
  | some (name, '=' :: rest) => some (name, rest)
  | some ("export", rest) =>
    match takeName? rest with
    | some (name, '=' :: later) => some (name, later)
    | _ => none
  | _ => none

/-- The text of a variable, or nothing if it is not set. -/
def textIn (vs : Variables) (letters : List Char) : List Char :=
  ((vs.lookup (String.ofList letters)).getD "").toList

/-- The variables after a line, unless the line is against the rules. -/
def applyLine? (vs : Variables) (line : List Char) : Option Variables :=
  match Text.trim line with
  | [] => some vs
  | '#' :: _ => some vs
  | s =>
    (target? s).bind fun (name, rest) =>
      match Text.trimStart rest with
      | [] => some (vs.setNew name "")
      | '#' :: _ => some (vs.setNew name "")
      | body => (textOf? (textIn vs) .bare body).map fun text => vs.setNew name (String.ofList text)

/-- The variables after the lines of a text, at most so many. -/
def applyLines : Nat → Variables → List Char → Variables
  | 0, vs, _ => vs
  | _ + 1, vs, [] => vs
  | fuel + 1, vs, s =>
    let taken : Option (List Char × List Char) :=
      match Text.trimStart (s.takeWhile (· != '\n')) with
      | '#' :: _ => some ([], afterBreak s)
      | _ => takeLine? .plain s
    match taken with
    | none => vs
    | some (line, later) =>
      match applyLine? vs line with
      | none => vs
      | some changed => applyLines fuel changed later

/-- The variables after the assignments of a file. -/
def apply (file : String) (vs : Variables) : Variables :=
  let s := match file.toList with
    | '\ufeff' :: rest => rest
    | s => s
  applyLines s.length vs s

end CalendarFeeds.Assignments
