import CalendarFeeds.Calendar.Civil
import CalendarFeeds.Calendar.Weekday
import CalendarFeeds.Zone.Basic

/-! # Yearly clock changes — the transitions that a repeated rule stands for

    Most zones change their clocks on the same Sunday every year.  A change names a span of
    years, a day of the year and a time of day in UTC; expanding it gives one transition a
    year. -/

namespace CalendarFeeds.Zone

/-- A day of a month that may depend on the year. -/
inductive DayRule where
  /-- The same day every year. -/
  | on (day : Nat)
  /-- The first such weekday that is not before the day. -/
  | onOrAfter (weekday : Weekday) (day : Nat)
  /-- The last such weekday of the month. -/
  | last (weekday : Weekday)
  deriving DecidableEq, Repr

/-- A change of the clocks that takes place once in each of a span of years. -/
structure Change where
  firstYear : Int
  lastYear : Int
  month : Nat
  day : DayRule
  /-- Seconds after 00:00 UTC of the day; negative when UTC is still on an earlier day. -/
  clock : Int
  reading : Reading
  deriving DecidableEq, Repr

/-- The day number that a rule picks in a month. -/
def DayRule.dayNumber (year : Int) (month : Nat) : DayRule → Int
  | .on day => Civil.dayNumber year month day
  | .onOrAfter w day =>
    let start := Civil.dayNumber year month day
    start + ((w.index + 7 - (Weekday.ofDay start).index) % 7 : Nat)
  | .last w =>
    let final := Civil.dayNumber year month (Civil.monthLength year month)
    final - (((Weekday.ofDay final).index + 7 - w.index) % 7 : Nat)

/-- The transition of a change in one year. -/
def Change.inYear (c : Change) (year : Int) : Transition :=
  ⟨86400 * c.day.dayNumber year c.month + c.clock, c.reading⟩

def Change.transitions (c : Change) : List Transition :=
  (List.range (c.lastYear - c.firstYear + 1).toNat).map
    fun (k : Nat) => c.inYear (c.firstYear + (k : Int))

/-- Puts a transition into its place in an ascending list. -/
def insertTransition (t : Transition) : List Transition → List Transition
  | [] => [t]
  | u :: us => if t.instant ≤ u.instant then t :: u :: us else u :: insertTransition t us

theorem mem_insertTransition {t u : Transition} {us : List Transition} :
    u ∈ insertTransition t us ↔ u = t ∨ u ∈ us := by
  induction us with
  | nil => simp [insertTransition]
  | cons v vs ih =>
      simp only [insertTransition]
      split
      · simp
      · simp only [List.mem_cons, ih]
        exact or_left_comm

theorem pairwise_insertTransition {t : Transition} {us : List Transition}
    (h : us.Pairwise fun a b => a.instant ≤ b.instant) :
    (insertTransition t us).Pairwise fun a b => a.instant ≤ b.instant := by
  induction us with
  | nil => simp [insertTransition]
  | cons v vs ih =>
      obtain ⟨below, rest⟩ := List.pairwise_cons.mp h
      simp only [insertTransition]
      split
      · next le =>
          refine List.pairwise_cons.mpr ⟨fun u hu => ?_, h⟩
          rcases List.mem_cons.mp hu with rfl | hu
          · exact le
          · exact Int.le_trans le (below u hu)
      · next gt =>
          refine List.pairwise_cons.mpr ⟨fun u hu => ?_, ih rest⟩
          rcases mem_insertTransition.mp hu with rfl | hu
          · omega
          · exact below u hu

def inOrder (ts : List Transition) : List Transition :=
  ts.foldr insertTransition []

theorem pairwise_inOrder (ts : List Transition) :
    (inOrder ts).Pairwise fun a b => a.instant ≤ b.instant := by
  induction ts with
  | nil => exact List.Pairwise.nil
  | cons t ts ih => exact pairwise_insertTransition ih

/-- The zone whose clocks make these changes. -/
def ofChanges (name : String) (initial : Reading) (changes : List Change) : Zone :=
  { name := name
    initial := initial
    transitions := inOrder (changes.flatMap Change.transitions)
    ascends := pairwise_inOrder _ }

def once (year : Int) (month day hour minute : Nat) (reading : Reading) : Change :=
  ⟨year, year, month, .on day, 3600 * hour + 60 * minute, reading⟩

end CalendarFeeds.Zone
