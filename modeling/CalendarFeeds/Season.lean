import CalendarFeeds.Schedule.AllowedMonths
import CalendarFeeds.Text.Blank

/-! # Seasons — names for lists of months

    A season table maps names in small letters to lists of months, in ascending order of the
    names.  The default table knows spring, summer, fall, autumn and winter; a configuration may
    replace these and add others.  A name is looked up without regard to ASCII case and to blanks
    around it. -/

namespace CalendarFeeds

/-- A mapping from season names to months. -/
structure SeasonTable where
  /-- Names in small letters, in ascending order, each once. -/
  entries : List (String × List Nat)
  deriving DecidableEq, Repr

namespace SeasonTable

/-- Sets the months of a name in a list of entries that is in order. -/
def insertEntry (name : String) (months : List Nat) :
    List (String × List Nat) → List (String × List Nat)
  | [] => [(name, months)]
  | (other, old) :: rest =>
    if name = other then (name, months) :: rest
    else if name < other then (name, months) :: (other, old) :: rest
    else (other, old) :: insertEntry name months rest

theorem lookup_insertEntry_self (name : String) (months : List Nat)
    (entries : List (String × List Nat)) :
    (insertEntry name months entries).lookup name = some months := by
  induction entries with
  | nil => simp [insertEntry]
  | cons entry rest ih =>
      obtain ⟨other, old⟩ := entry
      simp only [insertEntry]
      split
      · simp
      · next differs =>
          split
          · simp
          · rw [List.lookup_cons, beq_eq_false_iff_ne.mpr differs]
            exact ih

theorem lookup_insertEntry_of_ne {name query : String} (months : List Nat)
    (entries : List (String × List Nat)) (h : query ≠ name) :
    (insertEntry name months entries).lookup query = entries.lookup query := by
  induction entries with
  | nil => simp [insertEntry, List.lookup_cons, beq_eq_false_iff_ne.mpr h]
  | cons entry rest ih =>
      obtain ⟨other, old⟩ := entry
      simp only [insertEntry]
      split
      · next same =>
          subst same
          simp [List.lookup_cons, beq_eq_false_iff_ne.mpr h]
      · split
        · simp [List.lookup_cons, beq_eq_false_iff_ne.mpr h]
        · rw [List.lookup_cons, List.lookup_cons, ih]

/-- Sets the months of a season, whatever the case of its name. -/
def set (table : SeasonTable) (name : String) (months : List Nat) : SeasonTable :=
  ⟨insertEntry (Text.lowered name) months table.entries⟩

/-- Sets a list of seasons one after another, so that the last of two equal names counts. -/
def setAll (table : SeasonTable) (entries : List (String × List Nat)) : SeasonTable :=
  entries.foldl (fun t (name, months) => t.set name months) table

/-- The table of some entries alone. -/
def ofList (entries : List (String × List Nat)) : SeasonTable :=
  setAll ⟨[]⟩ entries

/-- The seasons known without configuration. -/
def default : SeasonTable :=
  ofList
    [("spring", [3, 4, 5]), ("summer", [6, 7, 8, 9]), ("fall", [10, 11]), ("autumn", [10, 11]),
      ("winter", [12, 1, 2])]

/-- Entries in ascending order of their names; of two equal names the last stays. -/
def inNameOrder (entries : List (String × List Nat)) : List (String × List Nat) :=
  entries.foldl (fun sorted (name, months) => insertEntry name months sorted) []

/-- The default table with overrides, which are set in ascending order of their names. -/
def withOverrides (overrides : List (String × List Nat)) : SeasonTable :=
  default.setAll (inNameOrder overrides)

def months? (table : SeasonTable) (name : String) : Option (List Nat) :=
  table.entries.lookup (Text.lowered (Text.trimmed name))

/-- Why a season table is refused. -/
inductive Fault where
  | noMonths (season : String)
  | invalidMonth (season : String) (month : Nat)
  deriving DecidableEq, Repr

def Fault.message : Fault → String
  | noMonths season => "season '" ++ season ++ "' covers no months"
  | invalidMonth season month =>
    "season '" ++ season ++ "' has invalid month " ++ Text.natural month

def entryFault? (name : String) (months : List Nat) : Option Fault :=
  if months = [] then some (.noMonths name)
  else (months.find? fun m => m < 1 || 12 < m).map (.invalidMonth name)

/-- The fault of the first season, in order of the names, that has one. -/
def fault? (table : SeasonTable) : Option Fault :=
  table.entries.findSome? fun (name, months) => entryFault? name months

end SeasonTable

namespace AllowedMonths

/-- The months that a season name stands for, or every month for a blank name. -/
def ofSeason (seasons : SeasonTable) (name : String) : Except ScheduleError AllowedMonths :=
  let season := Text.trimmed name
  if season = "" then .ok every
  else
    match seasons.months? season with
    | some months => ofList months
    | none => .error (.unknownSeason season)

/-- The limit of a definition: its own months if it lists any, else those of its season, else
    none. -/
def resolve (seasons : SeasonTable) (season : Option String) (months : Option (List Nat)) :
    Except ScheduleError AllowedMonths :=
  match months, season with
  | some (m :: ms), _ => ofList (m :: ms)
  | _, some name => ofSeason seasons name
  | _, none => .ok every

end AllowedMonths

end CalendarFeeds
