import CalendarFeeds.Number.Binary64
import CalendarFeeds.Text.Quoted

/-! # Data — what the nodes of a YAML document stand for

    A plain scalar is null, a truth value, an integer or a number if it looks like one, and text
    otherwise; other scalars are text.  A tag of the core schema asks for a type, and a scalar
    that does not fit it is bad data. -/

namespace CalendarFeeds.Yaml

/-- What a node stands for. -/
inductive Datum where
  | null
  /-- A scalar that does not fit its tag, or an alias of a node that is not complete. -/
  | bad
  | boolean (b : Bool)
  | integer (n : Int)
  /-- A number, as it is written. -/
  | real (numeral : String)
  | text (s : String)
  | sequence (items : List Datum)
  | mapping (pairs : List (Datum × Datum))

/-- The name of a type: a name space and a name in it. -/
structure TypeName where
  space : String
  name : String
  deriving DecidableEq, Repr

/-- The name space of the core schema. -/
def coreSpace : String := "tag:yaml.org,2002:"

/-- The spellings of infinity and of what is no number. -/
def namedNumbers : List String :=
  [".inf", ".Inf", ".INF", "+.inf", "+.Inf", "+.INF", "-.inf", "-.Inf", "-.INF", ".nan", ".NaN",
    ".NAN"]

/-- Whether a text is a number: a name of one, or a numeral with a digit in it. -/
def isReal (s : String) : Bool :=
  namedNumbers.contains s
    || (s.toList.any Char.isDigit && (Binary64.ofText? s.toList).isSome)

/-- A numeral in some base, of 64 bits, with an optional sign. -/
def inBase? (base : Nat) (s : List Char) : Option Int :=
  let (negative, digits) := Binary64.takeSign s
  let digit? (c : Char) : Option Nat :=
    let value :=
      if c.isDigit then c.toNat - 48
      else if 'a' ≤ c ∧ c ≤ 'f' then c.toNat - 87
      else if 'A' ≤ c ∧ c ≤ 'F' then c.toNat - 55
      else base
    if value < base then some value else none
  if digits = [] then none
  else
    (digits.mapM digit?).bind fun ds =>
      let n := ds.foldl (fun n d => base * n + d) 0
      let value : Int := if negative then -(n : Int) else n
      if -9223372036854775808 ≤ value ∧ value ≤ 9223372036854775807 then some value else none

/-- An integer with a sign of its base or a plus sign. -/
def markedInteger? : List Char → Option Int
  | '0' :: 'x' :: rest => inBase? 16 rest
  | '0' :: 'o' :: rest => inBase? 8 rest
  | '+' :: rest => Text.signed64? rest
  | _ => none

namespace Datum

/-- The datum of a plain scalar without a tag. -/
def ofPlain (s : String) : Datum :=
  match markedInteger? s.toList with
  | some n => integer n
  | none =>
    if s ∈ ["", "~", "null", "Null", "NULL"] then null
    else if s ∈ ["true", "True", "TRUE"] then boolean true
    else if s ∈ ["false", "False", "FALSE"] then boolean false
    else
      match Text.signed64? s.toList with
      | some n => integer n
      | none => if isReal s then real s else text s

/-- The datum of a plain scalar with a tag of the core schema. -/
def ofCore (name s : String) : Datum :=
  match name with
  | "bool" => if s = "true" then boolean true else if s = "false" then boolean false else bad
  | "int" =>
    match Text.signed64? s.toList with
    | some n => integer n
    | none => bad
  | "float" => if isReal s then real s else bad
  | "null" => if s = "~" ∨ s = "null" then null else bad
  | _ => text s

def ofScalar (isPlain : Bool) (tag : Option TypeName) (s : String) : Datum :=
  if !isPlain then text s
  else
    match tag with
    | none => ofPlain s
    | some t => if t.space = coreSpace then ofCore t.name s else text s

mutual

/-- A datum as error messages show it. -/
def shown : Datum → String
  | null => "Null"
  | bad => "BadValue"
  | boolean b => "Boolean(" ++ (if b then "true" else "false") ++ ")"
  | integer n => "Integer(" ++ Text.integer n ++ ")"
  | real numeral => "Real(" ++ Text.quoted numeral ++ ")"
  | text s => "String(" ++ Text.quoted s ++ ")"
  | sequence items => "Array([" ++ String.intercalate ", " (shownItems items) ++ "])"
  | mapping pairs => "Hash(\x7b" ++ String.intercalate ", " (shownPairs pairs) ++ "\x7d)"

def shownItems : List Datum → List String
  | [] => []
  | d :: rest => d.shown :: shownItems rest

def shownPairs : List (Datum × Datum) → List String
  | [] => []
  | (k, v) :: rest => (k.shown ++ ": " ++ v.shown) :: shownPairs rest

end

def isBad : Datum → Bool
  | bad => true
  | _ => false

/-- Pairs up the nodes of a mapping, keys and values in turn; a key must not come twice.  A bad
    node is no key, so the next one is. -/
def pairUp : Datum → List (Datum × Datum) → List Datum → Option Datum
  | _, pairs, [] => some (mapping pairs)
  | key, pairs, d :: rest =>
    if key.isBad then pairUp d pairs rest
    else if pairs.any fun (k, _) => k.shown == key.shown then none
    else pairUp bad (pairs ++ [(key, d)]) rest

/-- The mapping of nodes that are keys and values in turn. -/
def ofNodes? (nodes : List Datum) : Option Datum :=
  pairUp bad [] nodes

end Datum

end CalendarFeeds.Yaml
