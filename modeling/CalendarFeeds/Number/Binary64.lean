import CalendarFeeds.Text.Numeral

/-! # Binary floating-point numbers — 64 bits, read from decimal

    A finite number is `± mantissa · 2 ^ exponent` with a mantissa below `2 ^ 53` and an exponent
    of at least -1074.  A decimal is read as the nearest such number, a tie going to the even
    mantissa; beyond the greatest one lies infinity.  Powers are written with `Nat.pow`, which means
    the same whatever algebra is in scope. -/

namespace CalendarFeeds

/-- A floating-point number of 64 bits. -/
inductive Binary64 where
  | finite (negative : Bool) (mantissa : Nat) (exponent : Int)
  | infinite (negative : Bool)
  | nan
  deriving DecidableEq, Repr

namespace Binary64

/-- The number of binary digits of a number. -/
def bitLength (n : Nat) : Nat :=
  if n = 0 then 0 else Nat.log2 n + 1

/-- A quotient rounded to the nearest whole number, a tie to the even one. -/
def roundEven (num den : Nat) : Nat :=
  let q := num / den
  let r := num % den
  if 2 * r < den then q
  else if den < 2 * r then q + 1
  else if q % 2 = 0 then q
  else q + 1

/-- A quotient divided by a power of two and rounded. -/
def scaled (num den : Nat) (exponent : Int) : Nat :=
  if 0 ≤ exponent then roundEven num (den * Nat.pow 2 exponent.toNat)
  else roundEven (num * Nat.pow 2 (-exponent).toNat) den

/-- The number nearest to a positive quotient.  The exponent is chosen so that the mantissa has
    53 digits; where the first choice gives it one too few, the next smaller exponent is right. -/
def ofQuotient (negative : Bool) (num den : Nat) : Binary64 :=
  let guess := (bitLength num : Int) - (bitLength den : Int) - 52
  let fits := Nat.pow 2 52 ≤ scaled num den guess
  let exponent := max (-1074) (if fits then guess else guess - 1)
  let mantissa := scaled num den exponent
  let carried : Nat × Int :=
    if mantissa = Nat.pow 2 53 then (Nat.pow 2 52, exponent + 1) else (mantissa, exponent)
  if 971 < carried.2 then infinite negative else finite negative carried.1 carried.2

/-- The number nearest to `± digits · 10 ^ power`.  Powers far outside the range of the format
    are decided without computing them. -/
def ofDecimal (negative : Bool) (digits : Nat) (power : Int) : Binary64 :=
  let places := (Text.digits digits).length
  if digits = 0 then finite negative 0 (-1074)
  else if 310 < places + power then infinite negative
  else if places + power < -330 then finite negative 0 (-1074)
  else if 0 ≤ power then ofQuotient negative (digits * Nat.pow 10 power.toNat) 1
  else ofQuotient negative digits (Nat.pow 10 (-power).toNat)

def isZero : Binary64 → Bool
  | finite _ mantissa _ => mantissa == 0
  | infinite _ => false
  | nan => false

/-- The magnitude of a finite number as a whole number, a half rounded up. -/
def roundedMagnitude (mantissa : Nat) (exponent : Int) : Nat :=
  if 0 ≤ exponent then mantissa * Nat.pow 2 exponent.toNat
  else
    let den := Nat.pow 2 (-exponent).toNat
    (2 * mantissa + den) / (2 * den)

/-- The nearest whole number from 0 to a limit, halves rounded away from zero. -/
def toNatUpTo (limit : Nat) : Binary64 → Nat
  | finite true _ _ => 0
  | finite false mantissa exponent => min limit (roundedMagnitude mantissa exponent)
  | infinite true => 0
  | infinite false => limit
  | nan => 0

/-- A sign and the text after it. -/
def takeSign : List Char → Bool × List Char
  | '-' :: rest => (true, rest)
  | '+' :: rest => (false, rest)
  | s => (false, s)

/-- The exponent part of a numeral: nothing, or an E with a signed number. -/
def readExponent? : List Char → Option Int
  | [] => some 0
  | c :: rest =>
    if c = 'e' ∨ c = 'E' then
      let (negative, digits) := takeSign rest
      (Text.natural? digits).map fun n => if negative then -(n : Int) else n
    else none

/-- Reads a numeral without sign: digits with or without a point, and perhaps an exponent. -/
def readNumeral? (negative : Bool) (s : List Char) : Option Binary64 :=
  let whole := s.takeWhile Char.isDigit
  let (fraction, tail) : List Char × List Char :=
    match s.dropWhile Char.isDigit with
    | '.' :: rest => (rest.takeWhile Char.isDigit, rest.dropWhile Char.isDigit)
    | rest => ([], rest)
  if whole = [] ∧ fraction = [] then none
  else
    (readExponent? tail).map fun e =>
      ofDecimal negative (Text.digitsValue (whole ++ fraction)) (e - fraction.length)

/-- Reads a number: a numeral, or infinity or a NaN by name, with an optional sign. -/
def ofText? (s : List Char) : Option Binary64 :=
  let (negative, body) := takeSign s
  let word := body.map Char.toLower
  if word = "inf".toList ∨ word = "infinity".toList then some (infinite negative)
  else if word = "nan".toList then some nan
  else readNumeral? negative body

end Binary64

end CalendarFeeds
