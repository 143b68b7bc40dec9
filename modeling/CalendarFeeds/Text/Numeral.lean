/-! # Decimal numerals — printing and bounded reading

    Numbers are printed without leading zeros unless a width is asked for.  Reading is by a
    bound: a numeral is a non-empty run of ASCII digits whose value does not pass it.  Where a
    sign is allowed, it is one `+` or `-` directly before the digits. -/

namespace CalendarFeeds.Text

/-- The digit of a value below ten. -/
def digitChar (d : Nat) : Char :=
  Char.ofNat (48 + d)

def digitValue (c : Char) : Nat :=
  c.toNat - 48

/-- The decimal digits of a number, most significant first. -/
def digits (n : Nat) : List Char :=
  if n < 10 then [digitChar n] else digits (n / 10) ++ [digitChar (n % 10)]

/-- The value of a run of digits. -/
def digitsValue (ds : List Char) : Nat :=
  ds.foldl (fun n c => 10 * n + digitValue c) 0

/-- A number in decimal. -/
def natural (n : Nat) : String :=
  String.ofList (digits n)

/-- An integer in decimal, with a minus sign when it is negative. -/
def integer (n : Int) : String :=
  if n < 0 then "-" ++ natural n.natAbs else natural n.natAbs

/-- Digits padded with zeros on the left to at least `width` places. -/
def paddedDigits (width n : Nat) : List Char :=
  let ds := digits n
  List.replicate (width - ds.length) '0' ++ ds

def padded (width n : Nat) : String :=
  String.ofList (paddedDigits width n)

/-- The value of a non-empty run of digits with nothing else. -/
def natural? (s : List Char) : Option Nat :=
  if s ≠ [] ∧ s.all Char.isDigit then some (digitsValue s) else none

/-- The text without one leading plus sign. -/
def dropPlus : List Char → List Char
  | '+' :: rest => rest
  | s => s

/-- A numeral up to `limit`, one leading plus sign allowed. -/
def unsigned? (limit : Nat) (s : List Char) : Option Nat :=
  (natural? (dropPlus s)).bind fun n => if n ≤ limit then some n else none

/-- A numeral from `low` to `high`, one leading sign allowed. -/
def signed? (low high : Int) (s : List Char) : Option Int :=
  let value : Option Int :=
    match s with
    | '-' :: rest => (natural? rest).map fun n => -(n : Int)
    | _ => (natural? (dropPlus s)).map fun n => (n : Int)
  value.bind fun n => if low ≤ n ∧ n ≤ high then some n else none

def max32 : Nat := 4294967295

def max64 : Nat := 18446744073709551615

def signed64? (s : List Char) : Option Int :=
  signed? (-9223372036854775808) 9223372036854775807 s

end CalendarFeeds.Text
