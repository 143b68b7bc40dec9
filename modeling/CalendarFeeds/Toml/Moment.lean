import CalendarFeeds.Calendar.Civil
import CalendarFeeds.Text.Numeral

/-! # TOML moments — dates and times as configuration

    A moment is a date, a time, or both with or without an offset from UTC.  Configuration takes
    a moment as text of one form: a `T` between date and time, a `Z` for UTC, and a fraction of
    a second without needless zeros and of at most nine digits. -/

namespace CalendarFeeds.Toml

/-- Takes a number of just so many digits off the front of a text. -/
def takeDigits? (width : Nat) (s : List Char) : Option (Nat × List Char) :=
  let ds := s.take width
  if ds.length = width ∧ (s.drop width).head?.all (!·.isDigit) then
    (Text.natural? ds).map fun n => (n, s.drop width)
  else none

/-- Takes a date off the front of a text. -/
def takeDate? (s : List Char) : Option (String × List Char) :=
  match takeDigits? 4 s with
  | some (year, '-' :: afterYear) =>
    match takeDigits? 2 afterYear with
    | some (month, '-' :: afterMonth) =>
      match takeDigits? 2 afterMonth with
      | some (day, rest) =>
        if 1 ≤ day ∧ day ≤ Civil.monthLength year month then
          some (Text.padded 4 year ++ "-" ++ Text.padded 2 month ++ "-" ++ Text.padded 2 day, rest)
        else none
      | none => none
    | _ => none
  | _ => none

/-- The text of a fraction of a second. -/
def fractionText (ds : List Char) : String :=
  let places := ((ds.take 9).reverse.dropWhile (· == '0')).reverse
  "." ++ (if places = [] then "0" else String.ofList places)

/-- Takes the fraction of a second off the front of a text, if there is one. -/
def takeFraction? : List Char → Option (String × List Char)
  | '.' :: rest =>
    let ds := rest.takeWhile Char.isDigit
    if ds = [] then none else some (fractionText ds, rest.dropWhile Char.isDigit)
  | s => some ("", s)

/-- Takes the seconds off the front of a text, if there are any. -/
def takeSeconds? : List Char → Option (String × List Char)
  | ':' :: rest =>
    (takeDigits? 2 rest).bind fun (second, afterSecond) =>
      if second ≤ 60 then
        (takeFraction? afterSecond).map fun (fraction, tail) =>
          (":" ++ Text.padded 2 second ++ fraction, tail)
      else none
  | s => some ("", s)

/-- Takes an hour and a minute with a colon between them off the front of a text. -/
def takeClock? (s : List Char) : Option (String × List Char) :=
  match takeDigits? 2 s with
  | some (hour, ':' :: afterHour) =>
    match takeDigits? 2 afterHour with
    | some (minute, rest) =>
      if hour ≤ 23 ∧ minute ≤ 59 then
        some (Text.padded 2 hour ++ ":" ++ Text.padded 2 minute, rest)
      else none
    | none => none
  | _ => none

/-- Takes a time off the front of a text. -/
def takeTime? (s : List Char) : Option (String × List Char) :=
  (takeClock? s).bind fun (clock, rest) =>
    (takeSeconds? rest).map fun (seconds, tail) => (clock ++ seconds, tail)

/-- The text of an offset from UTC.  An offset of no time has a plus sign. -/
def offset? : List Char → Option String
  | [] => some ""
  | ['Z'] => some "Z"
  | ['z'] => some "Z"
  | sign :: rest =>
    match takeClock? rest with
    | some (clock, []) =>
      if sign = '+' ∨ (sign = '-' ∧ clock = "00:00") then some ("+" ++ clock)
      else if sign = '-' then some ("-" ++ clock)
      else none
    | _ => none

/-- The text of the moment that a text stands for. -/
def moment? (s : List Char) : Option String :=
  match takeDate? s with
  | none =>
    match takeTime? s with
    | some (time, []) => some time
    | _ => none
  | some (date, []) => some date
  | some (date, mark :: rest) =>
    if mark = 'T' ∨ mark = 't' ∨ mark = ' ' then
      (takeTime? rest).bind fun (time, tail) =>
        (offset? tail).map fun offset => date ++ "T" ++ time ++ offset
    else none

end CalendarFeeds.Toml
