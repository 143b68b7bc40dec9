import CalendarFeeds.Rule.Occurrence

/-! # Checked rules — rules that calendar readers accept

    Months must lie from 1 to 12 and ordinals within the bounds of the frequency before a rule can
    be expanded.  A published rule must also begin with the start of its event. -/

namespace CalendarFeeds

/-- Why a rule cannot be used. -/
inductive RuleError where
  /-- A month outside 1 to 12. -/
  | monthOutOfRange (rule : Rule)
  /-- An ordinal that the frequency does not allow. -/
  | ordinalOutOfRange (rule : Rule) (ordinal : Nat)
  /-- The rule does not begin with its start. -/
  | startsElsewhere (rule : Rule) (start first : Instant)
  /-- The rule has no occurrence at all. -/
  | neverOccurs (rule : Rule) (start : Instant)

/-- The ordinals that a frequency allows, as they are written in messages. -/
def Frequency.ordinalBounds : Frequency → String
  | .weekly => "-7..=8"
  | .monthly => "-4..=5"
  | .yearly => "-52..=53"

/-- The greatest ordinal that a frequency allows. -/
def Frequency.maxOrdinal : Frequency → Nat
  | .weekly => 8
  | .monthly => 5
  | .yearly => 53

namespace RuleError

def message : RuleError → String
  | monthOutOfRange r =>
    "Parse error: " ++ r.text ++ ": RRule parsing error: `"
      ++ String.intercalate "," (r.months.map Text.natural)
      ++ "` is not a valid BYMONTH value. Expected a comma-separated list of values in range "
      ++ "1..=12, e.g. `6,9,10`"
  | ordinalOutOfRange r n =>
    "Validation error: " ++ r.text ++ ": RRule validation error: `BYDAY` is `"
      ++ Text.natural n ++ "`, but with the current frequency (" ++ r.frequency.word
      ++ ") is not allowed outside the range: `" ++ r.frequency.ordinalBounds ++ "`."
  | startsElsewhere r start first =>
    "Validation error: " ++ r.text ++ " from " ++ start.text ++ " first occurs at " ++ first.text
  | neverOccurs r start =>
    "Validation error: " ++ r.text ++ " from " ++ start.text ++ " has no occurrences"

end RuleError

namespace Rule

/-- The first fault of a rule itself: its months are looked at before its ordinals. -/
def fault? (r : Rule) : Option RuleError :=
  if r.months.any fun m => m < 1 || 12 < m then some (.monthOutOfRange r)
  else
    (r.numberedDays.find? fun (n, _) => r.frequency.maxOrdinal < n).map fun (n, _) =>
      .ordinalOutOfRange r n

/-- The first occurrences of a rule that has no fault. -/
def expand (r : Rule) (start : Instant) (limit : Nat) : Except RuleError (List Instant) :=
  match r.fault? with
  | some e => .error e
  | none => .ok (r.occurrences start limit)

theorem expand_eq_ok {r : Rule} (sound : r.fault? = none) {start : Instant} {limit : Nat} :
    r.expand start limit = .ok (r.occurrences start limit) := by
  simp only [expand, sound]

/-- Accepts a rule whose first occurrence, as an expansion lists it, is its start. -/
def checkBy (expand : Rule → Instant → Nat → Except RuleError (List Instant)) (r : Rule)
    (start : Instant) : Except RuleError Unit :=
  match expand r start 1 with
  | .error e => .error e
  | .ok [] => .error (.neverOccurs r start)
  | .ok (first :: _) =>
    if first.sameMoment start then .ok () else .error (.startsElsewhere r start first)

/-- Accepts a rule whose first occurrence is its start. -/
def check (r : Rule) (start : Instant) : Except RuleError Unit :=
  checkBy expand r start

end Rule

end CalendarFeeds
