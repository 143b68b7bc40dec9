import CalendarFeeds.Document.Value
import CalendarFeeds.Toml.Moment

/-! # TOML bare values — truth values, numbers and moments

    Underscores may stand between the digits of a number.  A decimal number has no leading zero;
    a number in another base has a mark in front and no sign.  Integers have 64 bits, and a
    numeral of a real number that would be infinite is refused. -/

namespace CalendarFeeds.Toml

/-- Digits of a class, with single underscores between them. -/
def plainDigits? (isDigit : Char → Bool) : List Char → Option (List Char)
  | [] => none
  | [c] => if isDigit c then some [c] else none
  | c :: '_' :: rest => if isDigit c then (plainDigits? isDigit rest).map (c :: ·) else none
  | c :: rest => if isDigit c then (plainDigits? isDigit rest).map (c :: ·) else none

/-- Decimal digits without a leading zero. -/
def wholeDigits? (s : List Char) : Option (List Char) :=
  match plainDigits? Char.isDigit s with
  | some ['0'] => some ['0']
  | some ('0' :: _) => none
  | other => other

/-- A sign as it is written, and the text after it. -/
def takeSign : List Char → List Char × List Char
  | '-' :: rest => (['-'], rest)
  | '+' :: rest => (['+'], rest)
  | s => ([], s)

def decimal? (s : List Char) : Option Int :=
  let (sign, body) := takeSign s
  (wholeDigits? body).bind fun ds => Text.signed64? (sign ++ ds)

/-- The value of a digit in a base up to 16. -/
def digitIn? (base : Nat) (c : Char) : Option Nat :=
  let value :=
    if '0' ≤ c ∧ c ≤ '9' then c.toNat - 48
    else if 'a' ≤ c ∧ c ≤ 'f' then c.toNat - 87
    else if 'A' ≤ c ∧ c ≤ 'F' then c.toNat - 55
    else base
  if value < base then some value else none

def inBase? (base : Nat) (s : List Char) : Option Int :=
  (plainDigits? (fun c => (digitIn? base c).isSome) s).bind fun ds =>
    (ds.mapM (digitIn? base)).bind fun values =>
      let n := values.foldl (fun n d => base * n + d) 0
      if n < Nat.pow 2 63 then some (n : Int) else none

def integer? : List Char → Option Int
  | '0' :: 'x' :: rest => inBase? 16 rest
  | '0' :: 'o' :: rest => inBase? 8 rest
  | '0' :: 'b' :: rest => inBase? 2 rest
  | s => decimal? s

/-- Whether a character opens the exponent of a number. -/
def isExponentMark (c : Char) : Bool := c == 'e' || c == 'E'

/-- The exponent of a number, as it is written but without underscores. -/
def exponent? : List Char → Option (List Char)
  | [] => some []
  | mark :: rest =>
    let (sign, body) := takeSign rest
    (plainDigits? Char.isDigit body).map fun ds => mark :: (sign ++ ds)

/-- The fraction of a number, as it is written but without underscores. -/
def fraction? : List Char → Option (List Char)
  | '.' :: rest => (plainDigits? Char.isDigit rest).map ('.' :: ·)
  | [] => some []
  | _ => none

/-- A real number, which has a fraction or an exponent, or a name. -/
def real? (s : List Char) : Option Binary64 :=
  let (sign, body) := takeSign s
  if body = "inf".toList ∨ body = "nan".toList then Binary64.ofText? s
  else
    let mantissa := body.takeWhile (!isExponentMark ·)
    match wholeDigits? (mantissa.takeWhile (· != '.')), fraction? (mantissa.dropWhile (· != '.')),
        exponent? (body.dropWhile (!isExponentMark ·)) with
    | some whole, some fraction, some exponent =>
      if fraction = [] ∧ exponent = [] then none
      else
        match Binary64.ofText? (sign ++ whole ++ fraction ++ exponent) with
        | some (.finite negative m e) => some (.finite negative m e)
        | _ => none
    | _, _, _ => none

/-- The characters of bare values. -/
def isBareChar (c : Char) : Bool :=
  c.isAlphanum || c == '_' || c == '-' || c == '+' || c == '.' || c == ':'

/-- The scalar that a bare word stands for. -/
def scalar? (s : List Char) : Option Scalar :=
  if s = "true".toList then some (.boolean true)
  else if s = "false".toList then some (.boolean false)
  else
    match integer? s, real? s with
    | some n, _ => some (.integer n)
    | none, some x => some (.float x)
    | none, none => (moment? s).map .text

/-- The length of a bare value at the front of a text.  A date goes on over one space if a digit
    follows. -/
def bareLength (s : List Char) : Nat :=
  let word := s.takeWhile isBareChar
  match takeDate? word, s.drop word.length with
  | some (_, []), ' ' :: c :: rest =>
    if c.isDigit then word.length + 1 + ((c :: rest).takeWhile isBareChar).length
    else word.length
  | _, _ => word.length

/-- Takes a bare value off the front of a text. -/
def takeBare? (s : List Char) : Option (Scalar × List Char) :=
  (scalar? (s.take (bareLength s))).map fun content => (content, s.drop (bareLength s))

end CalendarFeeds.Toml
