import CalendarFeeds.Document.Error
import CalendarFeeds.Text.AsciiCase

/-! # Decoding — values read as what a program needs

    Scalars are read generously: a string may be given as a number or a truth value, a number as
    a string, a truth value as a number.  A record is given by a table of its fields or by a list
    of them in order; fields that are present are read before missing ones are complained of. -/

namespace CalendarFeeds.Decode

/-- The outcome of reading a value. -/
abbrev Result (α : Type) := Except DocumentError α

/-- A way to read the value at a place. -/
abbrev Reader (α : Type) := Path → Value → Result α

/-- The complaint about a scalar. -/
def unfit {α : Type} (expected : String) (place : Path) (v : Value) : Result α :=
  .error (.wrongScalar (Found.ofValue v) expected place v.origin)

def yesWords : List String := ["true", "on", "yes"]

def noWords : List String := ["false", "off", "no"]

def string : Reader String := fun place v =>
  match v with
  | .scalar _ (.text s) => .ok s
  | .scalar _ (.boolean b) => .ok (Found.truth b)
  | .scalar _ (.integer n) => .ok (Text.integer n)
  | .scalar _ (.float x) => .ok x.text
  | _ => unfit "a string" place v

/-- The number that a text stands for. -/
def unsignedOfText? (s : String) : Option Nat :=
  let word := Text.lowered s
  if yesWords.contains word then some 1
  else if noWords.contains word then some 0
  else Text.unsigned? Text.max64 word.toList

/-- Reads a number of 64 bits that is not negative. -/
def unsigned64 : Reader Nat := fun place v =>
  match v with
  | .scalar _ (.integer n) =>
    if n < 0 then unfit "an unsigned 64 bit or less integer" place v else .ok n.toNat
  | .scalar _ (.boolean b) => .ok (if b then 1 else 0)
  | .scalar _ (.float x) => .ok (x.toNatUpTo Text.max64)
  | .scalar _ (.text s) =>
    match unsignedOfText? s with
    | some n => .ok n
    | none => unfit "an integer" place v
  | _ => unfit "an integer" place v

/-- Reads a number of so many bits that is not negative. -/
def unsigned (bits : Nat) : Reader Nat := fun place v =>
  match unsigned64 place v with
  | .error e => .error e
  | .ok n =>
    if n < Nat.pow 2 bits then .ok n
    else
      .error (.wrongScalar (.unsigned n) ("an unsigned " ++ Text.natural bits ++ " bit integer")
        place none)

def boolean : Reader Bool := fun place v =>
  match v with
  | .scalar _ (.boolean b) => .ok b
  | .scalar _ (.integer n) => .ok (n != 0)
  | .scalar _ (.float x) => .ok (!x.isZero)
  | .scalar _ (.text s) =>
    let word := Text.lowered s
    if word = "1" ∨ yesWords.contains word then .ok true
    else if word = "0" ∨ noWords.contains word then .ok false
    else unfit "a boolean" place v
  | _ => unfit "a boolean" place v

def option {α : Type} (read : Reader α) : Reader (Option α) := fun place v =>
  match v with
  | .scalar _ .null => .ok none
  | _ => (read place v).map some

/-- Reads the items of a list, from a position on. -/
def items {α : Type} (read : Reader α) (place : Path) : Nat → List Value → Result (List α)
  | _, [] => .ok []
  | i, v :: rest =>
    match read (place ++ [.index i]) v with
    | .error e => .error e
    | .ok x => (items read place (i + 1) rest).map (x :: ·)

def list {α : Type} (read : Reader α) : Reader (List α) := fun place v =>
  match v with
  | .list _ vs => items read place 0 vs
  | _ => .error (.wrongShape (Found.ofValue v) "a sequence" place)

def entries {α : Type} (read : Reader α) (place : Path) :
    List (String × Value) → Result (List (String × α))
  | [] => .ok []
  | (key, v) :: rest =>
    match read (place ++ [.key key]) v with
    | .error e => .error e
    | .ok x => (entries read place rest).map ((key, x) :: ·)

/-- Reads a table of any keys. -/
def table {α : Type} (read : Reader α) : Reader (List (String × α)) := fun place v =>
  match v with
  | .table _ es => entries read place es
  | _ => .error (.wrongShape (Found.ofValue v) "a map" place)

/-- A record before its fields are read. -/
structure Record where
  name : String
  /-- How many fields the record has. -/
  size : Nat
  place : Path
  /-- The fields by name, or in order. -/
  content : List (String × Value) ⊕ List Value

def record (name : String) (size : Nat) (place : Path) (v : Value) : Result Record :=
  match v with
  | .table _ es => .ok ⟨name, size, place, .inl es⟩
  | .list _ vs => .ok ⟨name, size, place, .inr vs⟩
  | _ => .error (.wrongShape (Found.ofValue v) ("struct " ++ name) place)

namespace Record

def fieldPlace (r : Record) (index : Nat) (key : String) : Path :=
  match r.content with
  | .inl _ => r.place ++ [.key key]
  | .inr _ => r.place ++ [.index index]

/-- Reads a field if it is there. -/
def field? {α : Type} (r : Record) (index : Nat) (key : String) (read : Reader α) :
    Result (Option α) :=
  let found : Option Value :=
    match r.content with
    | .inl es => Value.lookup? key es
    | .inr vs => vs[index]?
  match found with
  | none => .ok none
  | some v => (read (r.fieldPlace index key) v).map some

def complain (r : Record) (index : Nat) (key : String) : DocumentError :=
  match r.content with
  | .inl _ => .missing (r.fieldPlace index key)
  | .inr _ => .tooShort index r.name r.size r.place

/-- A field that has to be there. -/
def need {α : Type} (r : Record) (index : Nat) (key : String) : Option α → Result α
  | some x => .ok x
  | none => .error (r.complain index key)

/-- A field that a table may leave out, but a list may not. -/
def allow {α : Type} (r : Record) (index : Nat) (found : Option (Option α)) :
    Result (Option α) :=
  match r.content, found with
  | _, some x => .ok x
  | .inl _, none => .ok none
  | .inr _, none => .error (.tooShort index r.name r.size r.place)

end Record

end CalendarFeeds.Decode
