import CalendarFeeds.Proofs.LetterCase
import CalendarFeeds.Season
import Mathlib.Data.String.Basic

/-! # Season names — which season a name finds

    Seasons are stored under their names in small letters, so of those that share such a name the
    last one counts.  A name that is looked up loses the blanks around it first, but a name that
    is stored keeps them.  So a season is found by its name in any case and between any blanks if
    its own name has no blanks around it, and by no name at all if it has.

    Both kinds of table set a list of seasons one after another, from no seasons or from those
    known without configuration, and one induction on that list serves them both. -/

namespace CalendarFeeds.SeasonTable

open Text

/-- Alike up to ASCII case and the blanks around. -/
def Alike (query name : String) : Prop :=
  lowered (trimmed query) = lowered (trimmed name)

/-- No blanks stand around a name. -/
def Bare (name : String) : Prop :=
  trimmed name = name

instance (query name : String) : Decidable (Alike query name) :=
  inferInstanceAs (Decidable (lowered (trimmed query) = lowered (trimmed name)))

instance (name : String) : Decidable (Bare name) :=
  inferInstanceAs (Decidable (trimmed name = name))

/-- **A SEASON COUNTS** if no later one has its name, whatever the case. -/
def Counts (seasons : List (String × List Nat)) (name : String) (months : List Nat) : Prop :=
  ∃ before after, seasons = before ++ (name, months) :: after
    ∧ ∀ later ∈ after, lowered later.1 ≠ lowered name

-- ── Names ────────────────────────────────────────────────────────────────────────

/-- A name is stored as a query asks for it exactly if it is like the query and bare. -/
theorem lowered_eq_iff_alike {query name : String} :
    lowered name = lowered (trimmed query) ↔ Bare name ∧ Alike query name := by
  constructor
  · intro same
    have bare : Bare name := by
      refine String.toList_injective ?_
      rw [toList_trimmed]
      exact trim_eq_of_lower_eq (by simpa [lowered_eq_iff] using same)
    refine ⟨bare, ?_⟩
    rw [Alike, bare]
    exact same.symm
  · rintro ⟨bare, alike⟩
    rw [Alike, bare] at alike
    exact alike.symm

-- ── The seasons that count ───────────────────────────────────────────────────────

/-- A season counts unless a later one of the list takes its name. -/
theorem counts_cons_iff {seasons : List (String × List Nat)} {other name : String}
    {old months : List Nat} :
    Counts ((other, old) :: seasons) name months ↔ Counts seasons name months
      ∨ (name = other ∧ months = old ∧ ∀ later ∈ seasons, lowered later.1 ≠ lowered name) := by
  constructor
  · rintro ⟨before, after, split, last⟩
    cases before with
    | nil =>
        cases split
        exact .inr ⟨rfl, rfl, last⟩
    | cons first before =>
        obtain ⟨-, rest⟩ := List.cons.inj split
        exact .inl ⟨before, after, rest, last⟩
  · rintro (⟨before, after, rfl, last⟩ | ⟨rfl, rfl, last⟩)
    · exact ⟨(other, old) :: before, after, rfl, last⟩
    · exact ⟨[], seasons, rfl, last⟩

/-- Setting a season answers its own name and leaves every other key. -/
theorem lookup_set (table : SeasonTable) (name : String) (months : List Nat) (key : String) :
    (table.set name months).entries.lookup key
      = if key = lowered name then some months else table.entries.lookup key := by
  split
  · next same =>
      subst same
      exact lookup_insertEntry_self _ _ _
  · next differs => exact lookup_insertEntry_of_ne _ _ differs

/-- **SETTING SEASONS**: under a key stands the season of the list that counts, or what stood there
    before if the list has none for it. -/
theorem lookup_setAll_iff {table : SeasonTable} {seasons : List (String × List Nat)}
    {key : String} {months : List Nat} :
    (table.setAll seasons).entries.lookup key = some months
      ↔ (∃ name, lowered name = key ∧ Counts seasons name months)
        ∨ table.entries.lookup key = some months ∧ ∀ s ∈ seasons, lowered s.1 ≠ key := by
  induction seasons generalizing table with
  | nil => simp [setAll, Counts]
  | cons season seasons ih =>
      obtain ⟨other, old⟩ := season
      have step : table.setAll ((other, old) :: seasons) = (table.set other old).setAll seasons := rfl
      rw [step, ih, lookup_set]
      simp only [counts_cons_iff, List.forall_mem_cons]
      constructor
      · rintro (⟨name, stored, counts⟩ | ⟨found, none_⟩)
        · exact .inl ⟨name, stored, .inl counts⟩
        · split at found
          · next own =>
              cases found
              exact .inl ⟨other, own.symm, .inr ⟨rfl, rfl, own ▸ none_⟩⟩
          · next differs => exact .inr ⟨found, fun same => differs same.symm, none_⟩
      · rintro (⟨name, stored, counts | ⟨rfl, rfl, last⟩⟩ | ⟨found, differs, none_⟩)
        · exact .inl ⟨name, stored, counts⟩
        · rw [if_pos stored.symm, ← stored]
          exact .inr ⟨rfl, last⟩
        · rw [if_neg fun same => differs same.symm]
          exact .inr ⟨found, none_⟩

/-- After several seasons are set, a query finds the last one alike, else what the table held. -/
theorem months?_setAll_iff {table : SeasonTable} {seasons : List (String × List Nat)}
    {query : String} {months : List Nat} :
    (table.setAll seasons).months? query = some months
      ↔ (∃ name, Bare name ∧ Alike query name ∧ Counts seasons name months)
        ∨ table.months? query = some months
          ∧ ∀ s ∈ seasons, lowered s.1 ≠ lowered (trimmed query) := by
  simp only [months?, lookup_setAll_iff, lowered_eq_iff_alike, and_assoc]

-- ── Overrides ────────────────────────────────────────────────────────────────────

theorem forall_mem_insertEntry_iff {P : String → Prop} {name : String} {months : List Nat}
    {entries : List (String × List Nat)} :
    (∀ e ∈ insertEntry name months entries, P e.1) ↔ P name ∧ ∀ e ∈ entries, P e.1 := by
  induction entries with
  | nil => simp [insertEntry]
  | cons entry rest ih =>
      obtain ⟨other, old⟩ := entry
      simp only [insertEntry]
      split
      · next same =>
          subst same
          simp
      · split
        · simp
        · simp only [List.forall_mem_cons, ih]
          exact and_left_comm

theorem inNameOrder_append_singleton (overrides : List (String × List Nat))
    (last : String × List Nat) :
    inNameOrder (overrides ++ [last]) = insertEntry last.1 last.2 (inNameOrder overrides) := by
  simp [inNameOrder]

/-- Bringing overrides into the order of their names neither adds nor loses a name. -/
theorem forall_mem_inNameOrder_iff {P : String → Prop} {overrides : List (String × List Nat)} :
    (∀ e ∈ inNameOrder overrides, P e.1) ↔ ∀ e ∈ overrides, P e.1 := by
  induction overrides using List.reverseRecOn with
  | nil => exact Iff.rfl
  | append_singleton overrides last ih =>
      rw [inNameOrder_append_singleton, forall_mem_insertEntry_iff, ih, List.forall_mem_append,
        List.forall_mem_singleton, and_comm]

theorem insertEntry_of_lt {name : String} {months : List Nat} {entries : List (String × List Nat)}
    (below : ∀ e ∈ entries, e.1 < name) :
    insertEntry name months entries = entries ++ [(name, months)] := by
  induction entries with
  | nil => rfl
  | cons entry rest ih =>
      obtain ⟨other, old⟩ := entry
      obtain ⟨first, others⟩ := List.forall_mem_cons.mp below
      simp only [insertEntry]
      rw [if_neg (ne_of_gt first), if_neg (not_lt_of_gt first), ih others, List.cons_append]

/-- Overrides that stand in the order of their names stay as they are. -/
theorem inNameOrder_of_ascends {overrides : List (String × List Nat)}
    (ascends : overrides.Pairwise fun a b => a.1 < b.1) : inNameOrder overrides = overrides := by
  induction overrides using List.reverseRecOn with
  | nil => rfl
  | append_singleton overrides last ih =>
      obtain ⟨front, -, below⟩ := List.pairwise_append.mp ascends
      rw [inNameOrder_append_singleton, ih front]
      exact insertEntry_of_lt fun e he => below e he last List.mem_cons_self

-- ── Tables ───────────────────────────────────────────────────────────────────────

/-- A table of a list finds exactly its seasons with a bare name. -/
theorem months?_ofList_iff {seasons : List (String × List Nat)} {query : String}
    {months : List Nat} :
    (ofList seasons).months? query = some months
      ↔ ∃ name, Bare name ∧ Alike query name ∧ Counts seasons name months := by
  rw [ofList, months?_setAll_iff]
  exact or_iff_left fun none_ => nomatch none_.1

/-- A table with overrides finds these first, then the usual seasons. -/
theorem months?_withOverrides_iff {overrides : List (String × List Nat)} {query : String}
    {months : List Nat} :
    (withOverrides overrides).months? query = some months
      ↔ (∃ name, Bare name ∧ Alike query name ∧ Counts (inNameOrder overrides) name months)
        ∨ default.months? query = some months
          ∧ ∀ s ∈ overrides, lowered s.1 ≠ lowered (trimmed query) := by
  have names : (∀ s ∈ inNameOrder overrides, lowered s.1 ≠ lowered (trimmed query))
      ↔ ∀ s ∈ overrides, lowered s.1 ≠ lowered (trimmed query) :=
    forall_mem_inNameOrder_iff (P := fun name => lowered name ≠ lowered (trimmed query))
  rw [withOverrides, months?_setAll_iff, names]

/-- **LOOKING UP A SEASON** finds the season that counts under a bare name like the one asked for
    and, beside overrides, else the season that is known without them, unless an override has taken
    its place.  Overrides are set in the order of their names. -/
theorem months?_finds (seasons : List (String × List Nat)) (query : String) :
    (∀ months, (ofList seasons).months? query = some months
      ↔ ∃ name, Bare name ∧ Alike query name ∧ Counts seasons name months)
    ∧ (∀ months, (withOverrides seasons).months? query = some months
      ↔ (∃ name, Bare name ∧ Alike query name ∧ Counts (inNameOrder seasons) name months)
        ∨ default.months? query = some months
          ∧ ∀ s ∈ seasons, lowered s.1 ≠ lowered (trimmed query))
    ∧ (seasons.Pairwise (fun a b => a.1 < b.1) → inNameOrder seasons = seasons) :=
  ⟨fun _ => months?_ofList_iff, fun _ => months?_withOverrides_iff, inNameOrder_of_ascends⟩

/-- The later of two names that differ in case only. -/
theorem months?_finds_later_rainy :
    (ofList [("Rainy", [5]), ("RAINY", [6])]).months? " rainy " = some [6] := by
  refine ((months?_finds _ _).1 _).mpr ⟨"RAINY", by decide, by decide, ?_⟩
  exact ⟨[("Rainy", [5])], [], rfl, nofun⟩

/-- A season whose name has a blank before it is not found by that name. -/
theorem months?_misses_spaced_rainy :
    Counts [(" rainy", [5])] " rainy" [5] ∧ Alike " rainy" " rainy"
      ∧ (ofList [(" rainy", [5])]).fault? = none
      ∧ (ofList [(" rainy", [5])]).months? " rainy" = none :=
  ⟨⟨[], [], rfl, nofun⟩, rfl, by decide, by decide⟩

end CalendarFeeds.SeasonTable
