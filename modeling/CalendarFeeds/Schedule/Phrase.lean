import CalendarFeeds.Schedule.Error
import CalendarFeeds.Text.Blank

/-! # Schedule phrases — the grammar of schedules

    A phrase is a list of words between blanks, read without regard to ASCII case:

    * `every W` is weekly;
    * `O W` and `O and O W` are monthly;
    * `O W of M`, `O and O W of M`, and the same with `in`, are yearly,

    where `W` is a weekday, `M` a month and `O` one of `1st` to `5th` or `first` to `fifth`. -/

namespace CalendarFeeds.Phrase

/-- The words that name the ordinals, in figures and spelled out. -/
def ordinalWords : List (String × Nat) :=
  [("1st", 1), ("first", 1), ("2nd", 2), ("second", 2), ("3rd", 3), ("third", 3), ("4th", 4),
    ("fourth", 4), ("5th", 5), ("fifth", 5)]

/-- The ordinal of a word in small letters. -/
def ordinal? (word : String) : Option Nat :=
  ordinalWords.lookup word

/-- The weekday of a word, in any ASCII case. -/
def weekday? (word : String) : Option Weekday :=
  Weekday.all.find? fun w => Text.sameIgnoringCase w.name word

/-- The recurrence of a weekday, some ordinals and perhaps a month, given as words. -/
def onOrdinals? (ordinals : List String) (day : String) (month : Option String) :
    Option Recurrence :=
  match weekday? day, (ordinals.mapM ordinal?).bind Ordinals.ofList? with
  | some w, some o =>
    match month with
    | none => some (.monthly o w)
    | some m => (Month.ofName? m).map (.yearly o w)
  | _, _ => none

/-- The recurrence of a list of words in small letters. -/
def ofWords? : List String → Option Recurrence
  | ["every", day] => (weekday? day).map .weekly
  | [o, day] => onOrdinals? [o] day none
  | [o₁, "and", o₂, day] => onOrdinals? [o₁, o₂] day none
  | [o, day, "of", m] => onOrdinals? [o] day (some m)
  | [o, day, "in", m] => onOrdinals? [o] day (some m)
  | [o₁, "and", o₂, day, "of", m] => onOrdinals? [o₁, o₂] day (some m)
  | [o₁, "and", o₂, day, "in", m] => onOrdinals? [o₁, o₂] day (some m)
  | _ => none

/-- The words of a phrase in small letters. -/
def wordsOf (phrase : String) : List String :=
  (Text.words phrase.toList).map fun w => String.ofList (Text.lower w)

def read (phrase : String) : Except ScheduleError Recurrence :=
  match ofWords? (wordsOf phrase) with
  | some r => .ok r
  | none => .error (.unrecognizedSchedule phrase)

theorem read_eq_ok_iff {phrase : String} {r : Recurrence} :
    read phrase = .ok r ↔ ofWords? (wordsOf phrase) = some r := by
  simp only [read]
  cases ofWords? (wordsOf phrase) <;> simp

end CalendarFeeds.Phrase
