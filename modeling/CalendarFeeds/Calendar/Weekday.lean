/-! # Weekdays — names, codes and their place in the week

    A week starts on Monday.  Day number 0 is 1970-01-01, a Thursday. -/

namespace CalendarFeeds

inductive Weekday where
  | monday
  | tuesday
  | wednesday
  | thursday
  | friday
  | saturday
  | sunday
  deriving DecidableEq, Repr

namespace Weekday

/-- All weekdays, Monday first. -/
def all : List Weekday :=
  [monday, tuesday, wednesday, thursday, friday, saturday, sunday]

/-- Days since Monday. -/
def index : Weekday → Nat
  | monday => 0
  | tuesday => 1
  | wednesday => 2
  | thursday => 3
  | friday => 4
  | saturday => 5
  | sunday => 6

/-- The weekday that many days after Monday. -/
def ofIndex (n : Nat) : Weekday :=
  match n % 7 with
  | 0 => monday
  | 1 => tuesday
  | 2 => wednesday
  | 3 => thursday
  | 4 => friday
  | 5 => saturday
  | _ => sunday

def ofDay (day : Int) : Weekday :=
  ofIndex ((day + 3) % 7).toNat

/-- The two-letter code that recurrence rules use. -/
def code : Weekday → String
  | monday => "MO"
  | tuesday => "TU"
  | wednesday => "WE"
  | thursday => "TH"
  | friday => "FR"
  | saturday => "SA"
  | sunday => "SU"

def name : Weekday → String
  | monday => "Monday"
  | tuesday => "Tuesday"
  | wednesday => "Wednesday"
  | thursday => "Thursday"
  | friday => "Friday"
  | saturday => "Saturday"
  | sunday => "Sunday"

theorem ofIndex_index (w : Weekday) : ofIndex w.index = w := by
  cases w <;> rfl

theorem index_lt (w : Weekday) : w.index < 7 := by
  cases w <;> decide

theorem index_ofIndex (n : Nat) : (ofIndex n).index = n % 7 := by
  have : n % 7 < 7 := Nat.mod_lt n (by decide)
  have places : n % 7 = 0 ∨ n % 7 = 1 ∨ n % 7 = 2 ∨ n % 7 = 3 ∨ n % 7 = 4 ∨ n % 7 = 5
      ∨ n % 7 = 6 := by omega
  simp only [ofIndex]
  rcases places with h | h | h | h | h | h | h <;> rw [h] <;> rfl

/-- Weekdays go round with period seven. -/
theorem index_ofDay (n : Int) : ((ofDay n).index : Int) = (n + 3) % 7 := by
  simp only [ofDay]
  rw [index_ofIndex]
  omega

theorem index_inj {a b : Weekday} (h : a.index = b.index) : a = b := by
  rw [← ofIndex_index a, ← ofIndex_index b, h]

theorem ofDay_eq_iff {n : Int} {w : Weekday} : ofDay n = w ↔ (n + 3) % 7 = w.index := by
  have place := index_ofDay n
  constructor
  · rintro rfl
    exact place.symm
  · intro h
    exact index_inj (by omega)

end Weekday

end CalendarFeeds
