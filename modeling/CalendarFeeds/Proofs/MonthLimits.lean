import CalendarFeeds.Proofs.SeasonNames
import Mathlib.Data.List.Sort
import Mathlib.Order.Interval.Finset.Nat

/-! # Month limits — which months a definition is limited to

    A definition is limited to the months that it lists, else to those of the season that it
    names, else not at all.  A list with a number that is no month is refused, but the months of a
    season have passed the check of its table and never are.

    Every limit is in normal form, so the months that it allows determine it.  The only step that
    counts is that a sorted list of months has twelve of them exactly if it has them all. -/

namespace CalendarFeeds

open Text

/-- A number from 1 to 12. -/
def IsMonth (m : Nat) : Prop :=
  1 ≤ m ∧ m ≤ 12

instance (m : Nat) : Decidable (IsMonth m) :=
  inferInstanceAs (Decidable (1 ≤ m ∧ m ≤ 12))

theorem outside_iff {m : Nat} : (decide (m < 1) || decide (12 < m)) = true ↔ ¬ IsMonth m := by
  simp only [IsMonth, Bool.or_eq_true, decide_eq_true_iff]
  omega

theorem inside_iff {m : Nat} : (!(decide (m < 1) || decide (12 < m))) = true ↔ IsMonth m := by
  rw [Bool.not_eq_true', ← Bool.not_eq_true, outside_iff, not_not]

namespace AllowedMonths

-- ── Normal forms ─────────────────────────────────────────────────────────────────

/-- **THE NORMAL FORM OF A LIMIT**: none at all, or some months but not all in ascending order. -/
inductive Normal : AllowedMonths → Prop
  | every : Normal .every
  | only {months : List Nat} (some_ : months ≠ []) (ascends : months.Pairwise (· < ·))
      (real : ∀ m ∈ months, IsMonth m) (proper : ∃ m, IsMonth m ∧ m ∉ months) :
      Normal (.only months)

theorem allows_only_iff_mem {months : List Nat} {m : Nat} :
    (only months).allows m = true ↔ m ∈ months := by
  simp [allows]

/-- **NORMAL FORMS ARE UNIQUE**: limits that allow the same months are the same. -/
theorem Normal.eq_of_allows_iff {a b : AllowedMonths} (ha : Normal a) (hb : Normal b)
    (same : ∀ m, IsMonth m → (a.allows m = true ↔ b.allows m = true)) : a = b := by
  -- a limit that allows every month is no list, since some month is not on a list
  have not_all : ∀ {months : List Nat}, (∃ m, IsMonth m ∧ m ∉ months) →
      ¬ ∀ m, IsMonth m → (AllowedMonths.only months).allows m = true := by
    rintro months ⟨m, real, missing⟩ all
    exact missing (allows_only_iff_mem.mp (all m real))
  cases ha with
  | every =>
      cases hb with
      | every => rfl
      | only _ _ _ proper => exact absurd (fun m real => (same m real).mp rfl) (not_all proper)
  | only _ ascends real proper =>
      cases hb with
      | every => exact absurd (fun m real => (same m real).mpr rfl) (not_all proper)
      | only _ ascends' real' _ =>
          refine congrArg AllowedMonths.only (ascends.eq_of_mem_iff ascends' fun m => ?_)
          constructor
          · intro here
            exact allows_only_iff_mem.mp ((same m (real m here)).mp (allows_only_iff_mem.mpr here))
          · intro here
            exact allows_only_iff_mem.mp ((same m (real' m here)).mpr (allows_only_iff_mem.mpr here))

-- ── Lists of months ──────────────────────────────────────────────────────────────

/-- The first number of a list that is no month. -/
def FirstNoMonth (months : List Nat) (bad : Nat) : Prop :=
  ∃ before after, months = before ++ bad :: after ∧ (∀ m ∈ before, IsMonth m) ∧ ¬ IsMonth bad

/-- The search finds the first number that is no month. -/
theorem find?_eq_some_iff_firstNoMonth {months : List Nat} {bad : Nat} :
    (months.find? fun m => m < 1 || 12 < m) = some bad ↔ FirstNoMonth months bad := by
  rw [List.find?_eq_some_iff_append]
  simp only [outside_iff, inside_iff]
  constructor
  · rintro ⟨wrong, before, after, split, good⟩
    exact ⟨before, after, split, good, wrong⟩
  · rintro ⟨before, after, split, good, wrong⟩
    exact ⟨wrong, before, after, split, good⟩

theorem find?_eq_none_iff_isMonth {months : List Nat} :
    (months.find? fun m => m < 1 || 12 < m) = none ↔ ∀ m ∈ months, IsMonth m := by
  simp only [List.find?_eq_none, outside_iff, not_not]

theorem exists_firstNoMonth_iff {months : List Nat} :
    (∃ bad, FirstNoMonth months bad) ↔ ∃ m ∈ months, ¬ IsMonth m := by
  simp only [← find?_eq_some_iff_firstNoMonth]
  rw [← Option.ne_none_iff_exists', Ne, find?_eq_none_iff_isMonth]
  push Not
  exact Iff.rfl

/-- **COUNTING MONTHS**: exactly a list with every month has twelve of them. -/
theorem length_ascending_eq_twelve_iff {months : List Nat} (real : ∀ m ∈ months, IsMonth m) :
    (ascending months).length = 12 ↔ ∀ m, IsMonth m → m ∈ months := by
  have once : (ascending months).Nodup := (pairwise_ascending_nat months).imp Nat.ne_of_lt
  have count : (ascending months).toFinset.card = (ascending months).length :=
    List.toFinset_card_of_nodup once
  have within : (ascending months).toFinset ⊆ Finset.Icc 1 12 := by
    intro m hm
    exact Finset.mem_Icc.mpr (real m (mem_ascending.mp (List.mem_toFinset.mp hm)))
  constructor
  · intro twelve m valid
    have all : (ascending months).toFinset = Finset.Icc 1 12 :=
      Finset.eq_of_subset_of_card_le within (by rw [count, twelve]; simp)
    have here : m ∈ (ascending months).toFinset := by
      rw [all]
      exact Finset.mem_Icc.mpr valid
    exact mem_ascending.mp (List.mem_toFinset.mp here)
  · intro covers
    have all : (ascending months).toFinset = Finset.Icc 1 12 := by
      refine Finset.Subset.antisymm within fun m hm => ?_
      exact List.mem_toFinset.mpr (mem_ascending.mpr (covers m (Finset.mem_Icc.mp hm)))
    rw [← count, all]
    simp

/-- A list is refused for its first number that is no month, and for nothing else. -/
theorem ofList_eq_error_iff {months : List Nat} {e : ScheduleError} :
    ofList months = .error e ↔ ∃ bad, FirstNoMonth months bad ∧ e = .invalidMonth bad := by
  simp only [ofList, ← find?_eq_some_iff_firstNoMonth]
  cases months.find? fun m => m < 1 || 12 < m with
  | none => simp
  | some bad => simp [eq_comm]

/-- A list is accepted exactly when all its numbers are months. -/
theorem exists_ofList_eq_ok_iff {months : List Nat} :
    (∃ limit, ofList months = .ok limit) ↔ ∀ m ∈ months, IsMonth m := by
  rw [← find?_eq_none_iff_isMonth]
  simp only [ofList]
  cases months.find? fun m => m < 1 || 12 < m <;> simp

section

variable {months : List Nat} {limit : AllowedMonths}

/-- An accepted list becomes its months in order, or no limit when it has none or all twelve. -/
theorem ofList_eq_ok_iff :
    ofList months = .ok limit ↔ (∀ m ∈ months, IsMonth m)
      ∧ limit = if ascending months = [] ∨ (ascending months).length = 12 then every
        else only (ascending months) := by
  rw [← find?_eq_none_iff_isMonth]
  simp only [ofList]
  cases months.find? fun m => m < 1 || 12 < m <;> simp [eq_comm]

/-- The limit of a list is in normal form. -/
theorem normal_of_ofList (read : ofList months = .ok limit) : Normal limit := by
  obtain ⟨real, rfl⟩ := ofList_eq_ok_iff.mp read
  split
  · exact .every
  · next some_ =>
      obtain ⟨nonempty, fewer⟩ := not_or.mp some_
      refine .only nonempty (pairwise_ascending_nat months)
        (fun m hm => real m (mem_ascending.mp hm)) ?_
      rw [length_ascending_eq_twelve_iff real] at fewer
      push Not at fewer
      obtain ⟨m, valid, missing⟩ := fewer
      exact ⟨m, valid, fun here => missing (mem_ascending.mp here)⟩

/-- The limit of a list that is not empty allows its months. -/
theorem allows_iff_of_ofList (read : ofList months = .ok limit) (some_ : months ≠ []) {m : Nat}
    (valid : IsMonth m) : limit.allows m = true ↔ m ∈ months := by
  obtain ⟨real, rfl⟩ := ofList_eq_ok_iff.mp read
  obtain ⟨k, hk⟩ := List.exists_mem_of_ne_nil _ some_
  have nonempty : ascending months ≠ [] := List.ne_nil_of_mem (mem_ascending.mpr hk)
  split
  · next whole =>
      have covers := (length_ascending_eq_twelve_iff real).mp (whole.resolve_left nonempty)
      exact iff_of_true rfl (covers m valid)
  · rw [allows_only_iff_mem, mem_ascending]

/-- Exactly a list with every month states no limit, unless it is empty. -/
theorem eq_every_iff_of_ofList (read : ofList months = .ok limit) (some_ : months ≠ []) :
    limit = every ↔ ∀ m, IsMonth m → m ∈ months := by
  constructor
  · rintro rfl m valid
    exact (allows_iff_of_ofList read some_ valid).mp rfl
  · intro covers
    refine (normal_of_ofList read).eq_of_allows_iff .every fun m valid => ?_
    exact iff_of_true ((allows_iff_of_ofList read some_ valid).mpr (covers m valid)) rfl

end

end AllowedMonths

-- ── Seasons that passed the check ────────────────────────────────────────────────

/-- A season of a table without fault has months, and nothing else. -/
theorem SeasonTable.isMonth_of_fault? {table : SeasonTable} (valid : table.fault? = none)
    {key : String} {months : List Nat} (found : table.entries.lookup key = some months) :
    months ≠ [] ∧ ∀ m ∈ months, IsMonth m := by
  obtain ⟨before, after, split, -⟩ := List.lookup_eq_some_iff.mp found
  have listed : (key, months) ∈ table.entries := by
    rw [split]
    exact List.mem_append_right _ List.mem_cons_self
  have none_ : entryFault? key months = none := List.findSome?_eq_none_iff.mp valid _ listed
  simp only [entryFault?] at none_
  split at none_
  · cases none_
  · next some_ =>
      exact ⟨some_, AllowedMonths.find?_eq_none_iff_isMonth.mp (Option.map_eq_none_iff.mp none_)⟩

namespace AllowedMonths

-- ── What a definition asks for ───────────────────────────────────────────────────

/-- The months that a definition lists; no list is an empty one. -/
def listed (months : Option (List Nat)) : List Nat :=
  months.getD []

/-- The season that a definition names, without blanks around it; a blank name is none. -/
def namedSeason? : Option String → Option String
  | some name => if trimmed name = "" then none else some (trimmed name)
  | none => none

/-- **WHAT A DEFINITION ASKS FOR**: a month is on its list if it has one, else it is one of its
    season if it names one. -/
def AsksFor (seasons : SeasonTable) (season : Option String) (months : Option (List Nat)) (m : Nat) :
    Prop :=
  (listed months ≠ [] → m ∈ listed months)
    ∧ (listed months = [] → ∀ name, namedSeason? season = some name →
        ∃ ms, seasons.months? name = some ms ∧ m ∈ ms)

/-- A definition without a list names a season that nobody knows. -/
def NamesUnknown (seasons : SeasonTable) (season : Option String) (months : Option (List Nat))
    (name : String) : Prop :=
  listed months = [] ∧ namedSeason? season = some name ∧ seasons.months? name = none

/-- **THE WAYS TO A LIMIT**: the list of the definition, no limit, a season that nobody knows, or the
    months of a season. -/
inductive Resolution (seasons : SeasonTable) (season : Option String)
    (months : Option (List Nat)) : Except ScheduleError AllowedMonths → Prop
  | own (some_ : listed months ≠ []) : Resolution seasons season months (ofList (listed months))
  | unlimited (none_ : listed months = []) (unnamed : namedSeason? season = none) :
      Resolution seasons season months (.ok every)
  | unknown {name : String} (unknown : NamesUnknown seasons season months name) :
      Resolution seasons season months (.error (.unknownSeason name))
  | season {name : String} {ms : List Nat} (none_ : listed months = [])
      (named : namedSeason? season = some name) (found : seasons.months? name = some ms) :
      Resolution seasons season months (ofList ms)

section

variable {seasons : SeasonTable} {season : Option String} {months : Option (List Nat)}

/-- Without listed months the season decides. -/
theorem resolution_ofSeason {name : String} (none_ : listed months = []) :
    Resolution seasons (some name) months (ofSeason seasons name) := by
  by_cases blank : trimmed name = ""
  · have unnamed : namedSeason? (some name) = none := by simp [namedSeason?, blank]
    have free : ofSeason seasons name = .ok every := by simp [ofSeason, blank]
    rw [free]
    exact .unlimited none_ unnamed
  · have named : namedSeason? (some name) = some (trimmed name) := by simp [namedSeason?, blank]
    cases found : seasons.months? (trimmed name) with
    | none =>
        have failed : ofSeason seasons name = .error (.unknownSeason (trimmed name)) := by
          simp [ofSeason, blank, found]
        rw [failed]
        exact .unknown ⟨none_, named, found⟩
    | some ms =>
        have own : ofSeason seasons name = ofList ms := by simp [ofSeason, blank, found]
        rw [own]
        exact .season none_ named found

theorem resolution (seasons : SeasonTable) (season : Option String) (months : Option (List Nat)) :
    Resolution seasons season months (resolve seasons season months) := by
  match months, season with
  | some (m :: ms), _ =>
      have own : listed (some (m :: ms)) ≠ [] := List.cons_ne_nil m ms
      exact .own own
  | some [], some name => exact resolution_ofSeason rfl
  | some [], none => exact .unlimited rfl rfl
  | none, some name => exact resolution_ofSeason rfl
  | none, none => exact .unlimited rfl rfl

theorem not_firstNoMonth_of_isMonth {ms : List Nat} {bad : Nat} (real : ∀ m ∈ ms, IsMonth m) :
    ¬ FirstNoMonth ms bad := by
  intro first
  obtain ⟨m, hm, wrong⟩ := exists_firstNoMonth_iff.mp ⟨bad, first⟩
  exact wrong (real m hm)

/-- Only a list of the definition is refused, and with the first number that is no month. -/
theorem resolve_eq_invalidMonth_iff (valid : seasons.fault? = none) {bad : Nat} :
    resolve seasons season months = .error (.invalidMonth bad)
      ↔ FirstNoMonth (listed months) bad := by
  have way := resolution seasons season months
  have empty : listed months = [] → ¬ FirstNoMonth (listed months) bad := fun none_ =>
    none_ ▸ not_firstNoMonth_of_isMonth nofun
  generalize resolve seasons season months = outcome at way ⊢
  cases way with
  | own some_ =>
      rw [ofList_eq_error_iff]
      simp
  | unlimited none_ _ => exact iff_of_false nofun (empty none_)
  | unknown unknown => exact iff_of_false nofun (empty unknown.1)
  | season none_ _ found =>
      refine iff_of_false (fun failed => ?_) (empty none_)
      obtain ⟨bad, first, -⟩ := ofList_eq_error_iff.mp failed
      exact not_firstNoMonth_of_isMonth (SeasonTable.isMonth_of_fault? valid found).2 first

/-- Only a definition without a list fails for its season. -/
theorem resolve_eq_unknownSeason_iff {name : String} :
    resolve seasons season months = .error (.unknownSeason name)
      ↔ NamesUnknown seasons season months name := by
  have way := resolution seasons season months
  have other : ∀ {ms}, ofList ms ≠ .error (.unknownSeason name) := by
    intro ms failed
    obtain ⟨bad, -, same⟩ := ofList_eq_error_iff.mp failed
    cases same
  generalize resolve seasons season months = outcome at way ⊢
  cases way with
  | own some_ => exact iff_of_false other fun unknown => some_ unknown.1
  | unlimited _ unnamed =>
      refine iff_of_false nofun fun unknown => ?_
      have named := unknown.2.1
      rw [unnamed] at named
      cases named
  | @unknown own unknown =>
      constructor
      · intro same
        cases same
        exact unknown
      · intro asked
        cases Option.some.inj (unknown.2.1.symm.trans asked.2.1)
        rfl
  | season _ named found =>
      refine iff_of_false other fun unknown => ?_
      cases Option.some.inj (named.symm.trans unknown.2.1)
      have missing := unknown.2.2
      rw [found] at missing
      cases missing

/-- Whatever else is asked for gives a limit. -/
theorem exists_resolve_eq_ok (valid : seasons.fault? = none)
    (real : ∀ m ∈ listed months, IsMonth m)
    (known : ∀ name, ¬ NamesUnknown seasons season months name) :
    ∃ limit, resolve seasons season months = .ok limit := by
  have way := resolution seasons season months
  generalize resolve seasons season months = outcome at way ⊢
  cases way with
  | own _ => exact exists_ofList_eq_ok_iff.mpr real
  | unlimited _ _ => exact ⟨every, rfl⟩
  | unknown unknown => exact absurd unknown (known _)
  | season _ _ found =>
      exact exists_ofList_eq_ok_iff.mpr (SeasonTable.isMonth_of_fault? valid found).2

/-- The limit that is found is in normal form and allows the months that are asked for. -/
theorem normal_of_resolve (valid : seasons.fault? = none) {limit : AllowedMonths}
    (found : resolve seasons season months = .ok limit) :
    Normal limit
      ∧ ∀ m, IsMonth m → (limit.allows m = true ↔ AsksFor seasons season months m) := by
  have way := resolution seasons season months
  generalize resolve seasons season months = outcome at way found
  cases way with
  | own some_ =>
      refine ⟨normal_of_ofList found, fun m real => ?_⟩
      rw [allows_iff_of_ofList found some_ real]
      exact ⟨fun here => ⟨fun _ => here, fun none_ => absurd none_ some_⟩, fun asked => asked.1 some_⟩
  | unlimited none_ unnamed =>
      cases found
      refine ⟨.every, fun m _ => iff_of_true rfl ⟨fun some_ => absurd none_ some_, fun _ => ?_⟩⟩
      intro name named
      rw [unnamed] at named
      cases named
  | unknown _ => cases found
  | @season name ms none_ named known =>
      obtain ⟨some_, -⟩ := SeasonTable.isMonth_of_fault? valid known
      refine ⟨normal_of_ofList found, fun m real => ?_⟩
      rw [allows_iff_of_ofList found some_ real]
      constructor
      · intro here
        refine ⟨fun some_ => absurd none_ some_, fun _ other asked => ?_⟩
        cases Option.some.inj (named.symm.trans asked)
        exact ⟨ms, known, here⟩
      · rintro ⟨-, asked⟩
        obtain ⟨ms', known', here⟩ := asked none_ name named
        cases Option.some.inj (known.symm.trans known')
        exact here

/-- Lists with the same members give the same limit. -/
theorem resolve_eq_ok_of_mem_iff (valid : seasons.fault? = none) {other : Option (List Nat)}
    (same : ∀ m, m ∈ listed months ↔ m ∈ listed other) {limit : AllowedMonths}
    (found : resolve seasons season months = .ok limit) :
    resolve seasons season other = .ok limit := by
  have empty : listed months = [] ↔ listed other = [] := by
    simp only [List.eq_nil_iff_forall_not_mem, same]
  have real : ∀ m ∈ listed other, IsMonth m := by
    intro m hm
    by_contra wrong
    obtain ⟨bad, first⟩ := exists_firstNoMonth_iff.mpr ⟨m, (same m).mpr hm, wrong⟩
    have failed : resolve seasons season months = .error (.invalidMonth bad) :=
      (resolve_eq_invalidMonth_iff valid).mpr first
    rw [found] at failed
    cases failed
  have known : ∀ name, ¬ NamesUnknown seasons season other name := by
    rintro name ⟨none_, asked⟩
    have failed := resolve_eq_unknownSeason_iff.mpr ⟨empty.mpr none_, asked⟩
    rw [found] at failed
    cases failed
  obtain ⟨limit', found'⟩ := exists_resolve_eq_ok valid real known
  obtain ⟨normal, allows⟩ := normal_of_resolve valid found
  obtain ⟨normal', allows'⟩ := normal_of_resolve valid found'
  have eq : limit = limit' := normal.eq_of_allows_iff normal' fun m valid => by
    rw [allows m valid, allows' m valid]
    simp only [AsksFor, Ne, empty, same]
  rw [eq]
  exact found'

end

/-- **WHAT RESOLVING GIVES** for a season and a list of months. -/
structure Settled (seasons : SeasonTable) (season : Option String) (months : Option (List Nat)) :
    Prop where
  invalid : (∃ bad, resolve seasons season months = .error (.invalidMonth bad))
    ↔ ∃ m ∈ listed months, ¬ IsMonth m
  first : ∀ bad, resolve seasons season months = .error (.invalidMonth bad) →
    FirstNoMonth (listed months) bad
  unknown : ∀ name, resolve seasons season months = .error (.unknownSeason name)
    ↔ NamesUnknown seasons season months name
  otherwise : (∀ m ∈ listed months, IsMonth m) →
    (∀ name, ¬ NamesUnknown seasons season months name) →
      ∃ limit, resolve seasons season months = .ok limit
  normal : ∀ limit, resolve seasons season months = .ok limit → Normal limit
  allows : ∀ limit, resolve seasons season months = .ok limit →
    ∀ m, IsMonth m → (limit.allows m = true ↔ AsksFor seasons season months m)

/-- With a checked table every outcome is settled by the season's months and the list. -/
theorem settled {seasons : SeasonTable} (valid : seasons.fault? = none) (season : Option String)
    (months : Option (List Nat)) : Settled seasons season months where
  invalid := by
    simp only [resolve_eq_invalidMonth_iff valid]
    exact exists_firstNoMonth_iff
  first := fun _ => (resolve_eq_invalidMonth_iff valid).mp
  unknown := fun _ => resolve_eq_unknownSeason_iff
  otherwise := exists_resolve_eq_ok valid
  normal := fun _ found => (normal_of_resolve valid found).1
  allows := fun _ found => (normal_of_resolve valid found).2

/-- A name like that of a stored season finds it, with blanks around it or without. -/
theorem resolve_of_alike {seasons : SeasonTable} {name query : String} {ms : List Nat}
    (stored : seasons.entries.lookup (lowered name) = some ms) (bare : SeasonTable.Bare name)
    (some_ : name ≠ "") (alike : SeasonTable.Alike query name) :
    resolve seasons (some query) none = ofList ms := by
  have key : lowered (trimmed query) = lowered name := by
    rw [alike, bare]
  have shown : trimmed query ≠ "" := by
    intro blank
    rw [blank, lowered_eq_iff] at key
    refine some_ (String.toList_injective (List.map_eq_nil_iff.mp key.symm))
  have found : seasons.months? (trimmed query) = some ms := by
    rw [SeasonTable.months?, trimmed_trimmed, key, stored]
  show ofSeason seasons query = _
  simp only [ofSeason, found]
  rw [if_neg shown]

/-- **RESOLVING WITH A TABLE WITHOUT FAULT**: what it gives is settled by what is asked for; lists
    with the same members give the same limit, and limits that allow the same months are one.  A
    season that has a name and no blanks around it is never refused, and it is no limit only if it
    covers the year. -/
theorem resolve_settled {seasons : SeasonTable} (valid : seasons.fault? = none) :
    (∀ season months, Settled seasons season months)
    ∧ (∀ season months other limit, (∀ m, m ∈ listed months ↔ m ∈ listed other) →
        resolve seasons season months = .ok limit → resolve seasons season other = .ok limit)
    ∧ (∀ limit limit' : AllowedMonths, Normal limit → Normal limit' →
        (∀ m, IsMonth m → (limit.allows m = true ↔ limit'.allows m = true)) → limit = limit')
    ∧ ∀ name ms, seasons.entries.lookup (lowered name) = some ms → SeasonTable.Bare name →
        name ≠ "" → ∀ query, SeasonTable.Alike query name →
          ∃ limit, resolve seasons (some query) none = .ok limit
            ∧ (limit = every ↔ ∀ m, IsMonth m → m ∈ ms) := by
  refine ⟨settled valid, fun _ _ _ _ same found => resolve_eq_ok_of_mem_iff valid same found,
    fun _ _ ha hb same => ha.eq_of_allows_iff hb same, ?_⟩
  intro name ms stored bare some_ query alike
  obtain ⟨nonempty, real⟩ := SeasonTable.isMonth_of_fault? valid stored
  obtain ⟨limit, found⟩ := exists_ofList_eq_ok_iff.mpr real
  rw [resolve_of_alike stored bare some_ alike]
  exact ⟨limit, found, eq_every_iff_of_ofList found nonempty⟩

/-- The winter of the default table, by another spelling of its name. -/
theorem resolve_settled_winter :
    SeasonTable.default.fault? = none
      ∧ ∃ limit, resolve .default (some " Winter ") none = .ok limit ∧ limit ≠ every := by
  have valid : SeasonTable.default.fault? = none := by decide
  obtain ⟨-, -, -, seasons⟩ := resolve_settled valid
  obtain ⟨limit, found, whole⟩ :=
    seasons "winter" [12, 1, 2] (by decide) (by decide) (by decide) " Winter " (by decide)
  refine ⟨valid, limit, found, fun same => ?_⟩
  have april := whole.mp same 4 (by decide)
  revert april
  decide

/-- A season without a name passes the check of the table, but to name it is to name none. -/
theorem resolve_passes_over_nameless :
    (SeasonTable.ofList [("", [5])]).fault? = none
      ∧ (SeasonTable.ofList [("", [5])]).entries = [("", [5])]
      ∧ resolve (.ofList [("", [5])]) (some "") none = .ok every
      ∧ ¬ ∀ m, IsMonth m → m ∈ [5] := by
  refine ⟨by decide, by decide, rfl, fun all => ?_⟩
  have april := all 4 (by decide)
  revert april
  decide

end AllowedMonths

end CalendarFeeds
