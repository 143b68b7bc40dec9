import CalendarFeeds.Ascending
import CalendarFeeds.Calendar.Month
import CalendarFeeds.Calendar.Weekday

/-! # Recurrences — what a schedule phrase means

    A recurrence is weekly on a weekday, monthly on some occurrences of a weekday, or yearly on
    some occurrences of a weekday in one month.  Ordinals are a set of numbers from 1 to 5 that is
    never empty; `text` writes the phrase that stands for a recurrence. -/

namespace CalendarFeeds

/-- A set of ordinals, at least one, each from 1 to 5, in ascending order. -/
structure Ordinals where
  values : List Nat
  nonempty : values ≠ []
  bounded : ∀ n ∈ values, 1 ≤ n ∧ n ≤ 5
  ascends : values.Pairwise (· < ·)
  deriving DecidableEq

namespace Ordinals

/-- The set of the numbers of a list; none for an empty list or one with a number outside
    1 to 5. -/
def ofList? (ns : List Nat) : Option Ordinals :=
  if h : ns ≠ [] ∧ ∀ n ∈ ns, 1 ≤ n ∧ n ≤ 5 then
    some
      { values := ascending ns
        nonempty := by
          obtain ⟨n, hn⟩ := List.exists_mem_of_ne_nil ns h.1
          exact List.ne_nil_of_mem (mem_ascending.mpr hn)
        bounded := fun n hn => h.2 n (mem_ascending.mp hn)
        ascends := pairwise_ascending_nat ns }
  else none

/-- An ordinal in digits with its English ending. -/
def label (n : Nat) : String :=
  let ending :=
    match n with
    | 1 => "st"
    | 2 => "nd"
    | 3 => "rd"
    | _ => "th"
  Text.natural n ++ ending

/-- The ordinals joined by the word and. -/
def text (o : Ordinals) : String :=
  String.intercalate " and " (o.values.map label)

end Ordinals

/-- On which days a schedule calls for an event. -/
inductive Recurrence where
  /-- Every such weekday. -/
  | weekly (weekday : Weekday)
  /-- Some of the occurrences of a weekday in every month. -/
  | monthly (ordinals : Ordinals) (weekday : Weekday)
  /-- Some of the occurrences of a weekday in one month of every year. -/
  | yearly (ordinals : Ordinals) (weekday : Weekday) (month : Nat)
  deriving DecidableEq

namespace Recurrence

def weekday : Recurrence → Weekday
  | weekly w => w
  | monthly _ w => w
  | yearly _ w _ => w

def ordinals? : Recurrence → Option Ordinals
  | weekly _ => none
  | monthly o _ => some o
  | yearly o _ _ => some o

def month? : Recurrence → Option Nat
  | weekly _ => none
  | monthly _ _ => none
  | yearly _ _ m => some m

def text : Recurrence → String
  | weekly w => "every " ++ w.name
  | monthly o w => o.text ++ " " ++ w.name
  | yearly o w m => o.text ++ " " ++ w.name ++ " of " ++ Month.name m

end Recurrence

end CalendarFeeds
