import CalendarFeeds.Calendar.Date
import CalendarFeeds.Calendar.TimeOfDay
import CalendarFeeds.Zone.Basic

/-! # Instants — moments of time as the clocks of a zone show them

    An instant is a count of seconds in UTC together with the zone that shows it.  `ofLocal`
    resolves a local date and time: the earlier instant of a fold, and for a time that a gap
    skips the instant that the offset from before the gap gives. -/

namespace CalendarFeeds

/-- A moment of time in a zone. -/
structure Instant where
  /-- Seconds since 1970-01-01T00:00:00 UTC. -/
  utc : Int
  /-- Whether the moment lies in a leap second inserted after that second. -/
  leap : Bool
  zone : Zone
  deriving DecidableEq, Repr

/-- The date and time that a count of seconds stands for, with a separator between them and the
    given separators inside. -/
def clockText (seconds : Int) (leap : Bool) (dash middle colon : String) : String :=
  let day := seconds / 86400
  let rest := (seconds % 86400).toNat
  let second := rest % 60 + (if leap then 1 else 0)
  Date.yearText (Civil.yearOf day) ++ dash ++ Text.padded 2 (Civil.monthOf day) ++ dash
    ++ Text.padded 2 (Civil.dayOf day) ++ middle ++ Text.padded 2 (rest / 3600) ++ colon
    ++ Text.padded 2 (rest / 60 % 60) ++ colon ++ Text.padded 2 second

namespace Instant

def reading (i : Instant) : Reading := i.zone.readingAt i.utc

def offset (i : Instant) : Int := i.reading.offset

/-- Seconds since 1970-01-01T00:00:00 on the clocks of the zone. -/
def shown (i : Instant) : Int := i.utc + i.offset

/-- The number of the day on the clocks of the zone. -/
def date (i : Instant) : Int := i.shown / 86400

/-- `2024-03-10T09:30:00`, read in UTC. -/
def utcText (i : Instant) : String := clockText i.utc i.leap "-" "T" ":"

/-- `2024-03-10T02:30:00`, read in the zone. -/
def localText (i : Instant) : String := clockText i.shown i.leap "-" "T" ":"

/-- `20240310T093000Z`, the form of a UTC time in feeds. -/
def utcStamp (i : Instant) : String := clockText i.utc i.leap "" "T" "" ++ "Z"

/-- `20240310T023000`, the form of a local time in feeds. -/
def localStamp (i : Instant) : String := clockText i.shown i.leap "" "T" ""

/-- `2024-03-10 02:30:00 PST`, the form of a time in messages. -/
def text (i : Instant) : String :=
  clockText i.shown i.leap "-" " " ":" ++ " " ++ i.reading.label

/-- The same moment of time; zones do not count. -/
def sameMoment (a b : Instant) : Bool :=
  a.utc == b.utc && a.leap == b.leap

theorem sameMoment_self (i : Instant) : i.sameMoment i = true := by
  simp [sameMoment]

/-- Whether a moment is not before another. -/
def notBefore (a b : Instant) : Bool :=
  decide (b.utc < a.utc) || (a.utc == b.utc && (a.leap || !b.leap))

/-- The instant of a local time that a gap skips, read with the offset in force a day back.
    Moving a leap second by a whole number of seconds leaves the inserted second: it goes on from
    the next second when it moves back, and from the one before when it moves forward. -/
def inGap (zone : Zone) (shown : Int) (leap : Bool) : Instant :=
  let before := zone.offsetAt (shown + (if leap then 1 else 0) - 86400)
  if before = 0 then ⟨shown, leap, zone⟩
  else if 0 < before then ⟨shown + (if leap then 1 else 0) - before, false, zone⟩
  else ⟨shown - before, false, zone⟩

/-- The instant at which the clocks of a zone show a local time. -/
def ofShown (zone : Zone) (shown : Int) (leap : Bool) : Instant :=
  match zone.instants shown with
  | utc :: _ => ⟨utc, leap, zone⟩
  | [] => inGap zone shown leap

/-- The instant of a date and a time of day in a zone. -/
def ofLocal (zone : Zone) (date : Date) (time : TimeOfDay) : Instant :=
  ofShown zone (86400 * date.number + time.seconds) time.isLeap

end Instant

end CalendarFeeds
