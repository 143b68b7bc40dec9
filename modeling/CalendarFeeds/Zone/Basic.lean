/-! # Time zones — clock readings between transitions

    A zone is a first reading and a list of transitions in the order of time.  Between two
    transitions its clocks keep one offset from UTC.  A local time is then shown at the instants
    that `instants` lists: none inside a gap, two inside a fold, else one. -/

namespace CalendarFeeds

/-- What the clocks of a zone keep to for a while. -/
structure Reading where
  /-- Seconds east of UTC. -/
  offset : Int
  /-- The abbreviation printed after a local time. -/
  label : String
  /-- Clocks are less than a day ahead or behind. -/
  inDay : -86400 < offset ∧ offset < 86400
  deriving DecidableEq, Repr

def Reading.of (offset : Int) (label : String)
    (inDay : -86400 < offset ∧ offset < 86400 := by decide) : Reading :=
  ⟨offset, label, inDay⟩

/-- A change of the clocks. -/
structure Transition where
  /-- Seconds since 1970-01-01T00:00:00 UTC. -/
  instant : Int
  reading : Reading
  deriving DecidableEq, Repr

structure Zone where
  name : String
  /-- The reading before the first transition. -/
  initial : Reading
  transitions : List Transition
  ascends : transitions.Pairwise fun a b => a.instant ≤ b.instant
  deriving DecidableEq, Repr

namespace Zone

/-- The reading in force at an instant, given the one before the transitions that remain. -/
def readingFrom (r : Reading) : List Transition → Int → Reading
  | [], _ => r
  | t :: ts, utc => if t.instant ≤ utc then readingFrom t.reading ts utc else r

def readingAt (z : Zone) (utc : Int) : Reading :=
  readingFrom z.initial z.transitions utc

def offsetAt (z : Zone) (utc : Int) : Int :=
  (z.readingAt utc).offset

/-- Whether an instant is not before the start of a reading, if it has one. -/
def startedBy (since : Option Int) (utc : Int) : Bool :=
  match since with
  | none => true
  | some start => decide (start ≤ utc)

/-- The instants at which clocks show a local time, given the reading in force since `since` and
    the transitions that remain. -/
def instantsFrom (since : Option Int) (r : Reading) : List Transition → Int → List Int
  | [], shown => if startedBy since (shown - r.offset) then [shown - r.offset] else []
  | t :: ts, shown =>
    (if startedBy since (shown - r.offset) && decide (shown - r.offset < t.instant) then
        [shown - r.offset]
      else [])
      ++ instantsFrom (some t.instant) t.reading ts shown

/-- The instants at which the clocks of a zone show a local time, in ascending order. -/
def instants (z : Zone) (shown : Int) : List Int :=
  instantsFrom none z.initial z.transitions shown

end Zone

end CalendarFeeds
