import CalendarFeeds.Text.Blank
import CalendarFeeds.Text.Numeral

/-! # Durations — lengths of time as feeds write them

    A duration is a number of weeks, or days, hours, minutes and seconds, each of 32 bits.  It is
    written `P2W`, `P1DT2H30M` or `P0D`; fields that are zero are left out.  Reading also takes
    blanks around the whole, and a plus sign before the P and before a number of weeks or
    days. -/

namespace CalendarFeeds

/-- A length of time, never negative. -/
structure Duration where
  weeks : UInt32
  days : UInt32
  hours : UInt32
  minutes : UInt32
  seconds : UInt32
  deriving DecidableEq, Repr

namespace Duration

def zero : Duration := ⟨0, 0, 0, 0, 0⟩

def totalSeconds (d : Duration) : Nat :=
  604800 * d.weeks.toNat + 86400 * d.days.toNat + 3600 * d.hours.toNat + 60 * d.minutes.toNat
    + d.seconds.toNat

/-- The greatest number of a field. -/
def maxField : Nat := 4294967295

/-- A number as a field; above the greatest one it stays there. -/
def field (n : Nat) : UInt32 :=
  UInt32.ofNat (min n maxField)

/-- A number of seconds as days, hours, minutes and seconds. -/
def ofSeconds (total : Nat) : Duration :=
  { weeks := 0
    days := field (total / 86400)
    hours := field (total % 86400 / 3600)
    minutes := field (total % 3600 / 60)
    seconds := field (total % 60) }

/-- The whole seconds of a number of milliseconds; none for a negative number. -/
def ofMilliseconds (ms : Int) : Duration :=
  ofSeconds (ms / 1000).toNat

/-- A number and its designator, unless the number is zero. -/
def item (n : UInt32) (designator : String) : String :=
  if n = 0 then "" else Text.natural n.toNat ++ designator

def text (d : Duration) : String :=
  if d.weeks ≠ 0 then "P" ++ item d.weeks "W"
  else
    let time := item d.hours "H" ++ item d.minutes "M" ++ item d.seconds "S"
    if time ≠ "" then "P" ++ item d.days "D" ++ "T" ++ time
    else if d.days = 0 then "P0D"
    else "P" ++ item d.days "D"

/-- Takes an item with a designator off the front of a text: nothing when the text begins
    otherwise.  A number too large for a field fails. -/
def takeItem? (designator : Char) (s : List Char) : Option (UInt32 × List Char) :=
  let number := s.takeWhile Char.isDigit
  match s.dropWhile Char.isDigit with
  | c :: rest =>
    if c = designator ∧ number ≠ [] then
      if Text.digitsValue number ≤ maxField then
        some (UInt32.ofNat (Text.digitsValue number), rest)
      else none
    else some (0, s)
  | [] => some (0, s)

/-- Reads the part after the T: hours, minutes and seconds in this order, at least one. -/
def readTime? (days : UInt32) (s : List Char) : Option Duration :=
  if s = [] then none
  else
    match takeItem? 'H' s with
    | none => none
    | some (hours, afterHours) =>
      match takeItem? 'M' afterHours with
      | none => none
      | some (minutes, afterMinutes) =>
        match takeItem? 'S' afterMinutes with
        | some (seconds, []) => some ⟨0, days, hours, minutes, seconds⟩
        | _ => none

/-- Reads a number as a field; one plus sign may precede it. -/
def readNumber? (s : List Char) : Option UInt32 :=
  (Text.unsigned? maxField s).map UInt32.ofNat

/-- Reads a number of days and its designator; nothing stands for no days. -/
def readDays? (s : List Char) : Option UInt32 :=
  if s = [] then some 0
  else
    match s.reverse with
    | 'D' :: number => readNumber? number.reverse
    | _ => none

/-- Reads days and a time part, which the first T begins. -/
def readDaysAndTime? (s : List Char) : Option Duration :=
  match readDays? (s.takeWhile (· != 'T')), s.dropWhile (· != 'T') with
  | some days, [] => some { zero with days := days }
  | some days, _ :: time => readTime? days time
  | none, _ => none

/-- Reads what stands after the P. -/
def readBody? (s : List Char) : Option Duration :=
  match s.reverse with
  | [] => none
  | 'W' :: number => (readNumber? number.reverse).map fun n => { zero with weeks := n }
  | _ => readDaysAndTime? s

def ofText? (s : String) : Option Duration :=
  match Text.dropPlus (Text.trim s.toList) with
  | 'P' :: body => readBody? body
  | _ => none

/-- The wording for a text that is no duration. -/
def fault (text : String) : String :=
  "invalid duration '" ++ text ++ "'"

/-- Reads a text, or says that it is no duration. -/
def read (s : String) : Except String Duration :=
  match ofText? s with
  | some d => .ok d
  | none => .error (fault s)

theorem read_eq_ok_iff {s : String} {d : Duration} : read s = .ok d ↔ ofText? s = some d := by
  simp only [read]
  cases ofText? s <;> simp

theorem read_eq_error_iff {s wording : String} :
    read s = .error wording ↔ ofText? s = none ∧ wording = fault s := by
  simp only [read]
  cases ofText? s <;> simp [eq_comm]

end Duration

end CalendarFeeds
