import CalendarFeeds.Text.AsciiCase
import CalendarFeeds.Text.Numeral

/-! # Month names -/

namespace CalendarFeeds.Month

def names : List String :=
  ["January", "February", "March", "April", "May", "June", "July", "August", "September",
    "October", "November", "December"]

/-- The name of a month, or its number in digits when no month has it. -/
def name (month : Nat) : String :=
  if month = 0 then Text.natural 0
  else (names[month - 1]?).getD (Text.natural month)

/-- The number of the month with this name, in any ASCII case. -/
def ofName? (word : String) : Option Nat :=
  (names.findIdx? (Text.sameIgnoringCase word)).map (· + 1)

end CalendarFeeds.Month
