import CalendarFeeds.Number.Binary64

/-! # Shortest decimals — the fewest digits that read back

    The text of a number is the decimal with the fewest digits among those that lie closer to it
    than to any other number of the format, and the nearest to it of these.  It is written
    without an exponent, however long that makes it. -/

namespace CalendarFeeds.Binary64

/-- The decimals that read back as a number: an interval between two quotients over one
    denominator, and whether its ends belong to it. -/
structure Interval where
  low : Nat
  value : Nat
  high : Nat
  denominator : Nat
  closed : Bool

/-- The interval of `mantissa · 2 ^ exponent`.  The gap below a power of two is half the gap
    above it, except at the smallest exponent. -/
def interval (mantissa : Nat) (exponent : Int) : Interval :=
  let below := if mantissa = Nat.pow 2 52 ∧ -1074 < exponent then 1 else 2
  let shift := (exponent - 2)
  let factor := if 0 ≤ shift then Nat.pow 2 shift.toNat else 1
  { low := (4 * mantissa - below) * factor
    value := 4 * mantissa * factor
    high := (4 * mantissa + 2) * factor
    denominator := if 0 ≤ shift then 1 else Nat.pow 2 (-shift).toNat
    closed := mantissa % 2 = 0 }

/-- Whether the quotient of two numbers lies in an interval. -/
def Interval.contains (i : Interval) (num den : Nat) : Bool :=
  let low := i.low * den
  let high := i.high * den
  let x := num * i.denominator
  if i.closed then low ≤ x && x ≤ high else low < x && x < high

/-- A decimal: digits and the power of ten they are multiplied by. -/
structure Decimal where
  digits : Nat
  power : Int
  deriving DecidableEq, Repr

/-- The decimal as a quotient. -/
def Decimal.quotient (d : Decimal) : Nat × Nat :=
  if 0 ≤ d.power then (d.digits * Nat.pow 10 d.power.toNat, 1)
  else (d.digits, Nat.pow 10 (-d.power).toNat)

/-- The two neighbours of a value among the multiples of a power of ten, the nearer first; an
    exact tie begins with the even one. -/
def neighbours (i : Interval) (power : Int) : List Decimal :=
  let num := if 0 ≤ power then i.value else i.value * Nat.pow 10 (-power).toNat
  let den := if 0 ≤ power then i.denominator * Nat.pow 10 power.toNat else i.denominator
  let lower := num / den
  let rest := num % den
  if 2 * rest < den ∨ (2 * rest = den ∧ lower % 2 = 0) then [⟨lower, power⟩, ⟨lower + 1, power⟩]
  else [⟨lower + 1, power⟩, ⟨lower, power⟩]

/-- The first decimal that reads back among the neighbours on so many grids, each ten times as
    fine as the one before. -/
def search (i : Interval) : Nat → Int → Option Decimal
  | 0, _ => none
  | grids + 1, power =>
    match (neighbours i power).find? fun d => i.contains d.quotient.1 d.quotient.2 with
    | some d => some d
    | none => search i grids (power - 1)

/-- The shortest decimal of a positive number.  The first grid is coarser than the number itself,
    and 17 digits always suffice. -/
def shortest (mantissa : Nat) (exponent : Int) : Decimal :=
  let i := interval mantissa exponent
  let whole := (Text.digits (i.value / i.denominator)).length
  let first : Int :=
    if i.denominator ≤ i.value then whole
    else -((Text.digits (i.denominator / i.value)).length : Int) + 1
  (search i 20 first).getD ⟨0, 0⟩

/-- Digits with a decimal point before the last `places` of them. -/
def withPoint (digits : List Char) (places : Nat) : List Char :=
  let padded := List.replicate (places + 1 - digits.length) '0' ++ digits
  let whole := padded.take (padded.length - places)
  let fraction := padded.drop (padded.length - places)
  if fraction = [] then whole else whole ++ '.' :: fraction

def Decimal.text (d : Decimal) : List Char :=
  if 0 ≤ d.power then Text.digits d.digits ++ List.replicate d.power.toNat '0'
  else withPoint (Text.digits d.digits) (-d.power).toNat

def text : Binary64 → String
  | nan => "NaN"
  | infinite negative => if negative then "-inf" else "inf"
  | finite negative mantissa exponent =>
    let magnitude := if mantissa = 0 then ['0'] else (shortest mantissa exponent).text
    String.ofList (if negative then '-' :: magnitude else magnitude)

/-- The text of a number, in which a whole number keeps a decimal point. -/
def pointedText (x : Binary64) : String :=
  match x with
  | finite .. => if x.text.contains '.' then x.text else x.text ++ ".0"
  | _ => x.text

end CalendarFeeds.Binary64
