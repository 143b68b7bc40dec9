import CalendarFeeds.Text.Numeral

/-! # Numbered names — no name is given out twice

    A request names a stem.  It gets the stem itself if that is free, and otherwise the stem with
    the least number from 2 on that is free.  Names that a number produced count as given out like
    any other. -/

namespace CalendarFeeds.Naming

/-- The name of a stem: plain for number one, with the number after a hyphen for others. -/
def numbered (stem ending : String) (n : Nat) : String :=
  if n ≤ 1 then stem ++ ending else stem ++ "-" ++ Text.natural n ++ ending

/-- The first number from `n` on whose name is not in use, among so many numbers. -/
def firstFree (used : List String) (name : Nat → String) : Nat → Nat → Nat
  | 0, n => n
  | tries + 1, n => if used.contains (name n) then firstFree used name tries (n + 1) else n

/-- The name for a stem when some names are in use.  Of as many numbers as there are names in
    use, and one more, at least one is free. -/
def pick (used : List String) (ending stem : String) : String :=
  let name := numbered stem ending
  name (firstFree used name used.length 1)

/-- Names for a list of stems when some names are in use. -/
def assignFrom (used : List String) (ending : String) : List String → List String
  | [] => []
  | stem :: rest =>
    let name := pick used ending stem
    name :: assignFrom (name :: used) ending rest

/-- Names for a list of stems, in order. -/
def assign (ending : String) (stems : List String) : List String :=
  assignFrom [] ending stems

theorem length_assignFrom (used : List String) (ending : String) (stems : List String) :
    (assignFrom used ending stems).length = stems.length := by
  induction stems generalizing used with
  | nil => rfl
  | cons stem rest ih => exact congrArg (· + 1) (ih _)

theorem length_assign (ending : String) (stems : List String) :
    (assign ending stems).length = stems.length :=
  length_assignFrom [] ending stems

end CalendarFeeds.Naming
