import CalendarFeeds.Generation
import CalendarFeeds.Proofs.Materialize
import Mathlib.Data.List.Nodup

/-! # Generation — every definition by itself

    A report mixes the outcomes of all definitions, and its source takes them apart again: events
    by identifiers, errors by names.  As long as no two definitions share an identifier, and so
    no name either, each gets back what it would have had alone. -/

namespace CalendarFeeds

/-- Picking by a key gets back what one item gave, when no other item has its key. -/
theorem filter_flatMap_of_nodup {α β : Type} {xs : List α} {give : α → List β} {key : α → String}
    {keyOf : β → String} (apart : (xs.map key).Nodup) (keyed : ∀ x, ∀ b ∈ give x, keyOf b = key x)
    {x : α} (hx : x ∈ xs) : ((xs.flatMap give).filter fun b => keyOf b == key x) = give x := by
  have own : ∀ y, key y = key x → ((give y).filter fun b => keyOf b == key x) = give y := by
    intro y same
    exact List.filter_eq_self.mpr fun b hb => beq_iff_eq.mpr ((keyed y b hb).trans same)
  have other : ∀ y, key y ≠ key x → ((give y).filter fun b => keyOf b == key x) = [] := by
    intro y differs
    refine List.filter_eq_nil_iff.mpr fun b hb same => differs ?_
    exact (keyed y b hb).symm.trans (beq_iff_eq.mp same)
  induction xs with
  | nil => cases hx
  | cons y ys ih =>
      obtain ⟨new, rest⟩ := List.nodup_cons.mp apart
      rw [List.flatMap_cons, List.filter_append]
      rcases List.mem_cons.mp hx with rfl | later
      · -- nothing that the others gave has the key
        have none_ : ((ys.flatMap give).filter fun b => keyOf b == key x) = [] := by
          rw [List.filter_flatMap]
          refine List.flatMap_eq_nil_iff.mpr fun z hz => other z fun same => ?_
          exact new (same ▸ List.mem_map.mpr ⟨z, hz, rfl⟩)
        rw [own x rfl, none_, List.append_nil]
      · have differs : key y ≠ key x := fun same =>
          new (same ▸ List.mem_map.mpr ⟨x, later, rfl⟩)
        rw [other y differs, List.nil_append]
        exact ih rest later

namespace Definition

/-- The failure of a definition, if it has no event. -/
def failureBy? (almanac : Almanac) (window : Window) (seasons : SeasonTable) (d : Definition) :
    Option Failure :=
  match d.materializeBy almanac window seasons with
  | .ok _ => none
  | .error fault => some ⟨d.name, fault⟩

/-- The event of a definition, if it has one. -/
def eventsBy (almanac : Almanac) (window : Window) (seasons : SeasonTable) (d : Definition) :
    List Event :=
  (d.materializeBy almanac window seasons).toOption.toList

/-- The calendar of a definition by itself. -/
def calendarBy (almanac : Almanac) (window : Window) (seasons : SeasonTable) (d : Definition) :
    SourceCalendar :=
  { name := d.name
    friendlyName := d.displayName
    tags := d.tags
    events := d.eventsBy almanac window seasons
    errors := (d.failureBy? almanac window seasons).toList.map (·.error.message) }

section Outcomes

variable {almanac : Almanac} {d : Definition} {window : Window} {seasons : SeasonTable}

/-- The event of a definition has the identifier of its name. -/
theorem id_of_materializeBy {e : Event} (made : d.materializeBy almanac window seasons = .ok e) :
    e.id = Identifier.ofName d.name := by
  obtain ⟨p, rfl, -⟩ := exists_parts_of_materializeBy made
  rfl

theorem failureBy?_of_error {fault : ScheduleError}
    (refused : d.materializeBy almanac window seasons = .error fault) :
    d.failureBy? almanac window seasons = some ⟨d.name, fault⟩ := by
  rw [failureBy?, refused]

theorem name_of_failureBy? {f : Failure} (h : d.failureBy? almanac window seasons = some f) :
    f.name = d.name := by
  simp only [failureBy?] at h
  split at h
  · cases h
  · rw [← Option.some.inj h]

theorem eventsBy_of_ok {e : Event} (h : d.materializeBy almanac window seasons = .ok e) :
    d.eventsBy almanac window seasons = [e] := by
  rw [eventsBy, h]
  rfl

theorem eventsBy_of_error {e : ScheduleError}
    (h : d.materializeBy almanac window seasons = .error e) :
    d.eventsBy almanac window seasons = [] := by
  rw [eventsBy, h]
  rfl

/-- All events of a definition have the identifier of its name. -/
theorem id_of_mem_eventsBy {e : Event} (h : e ∈ d.eventsBy almanac window seasons) :
    e.id = Identifier.ofName d.name :=
  id_of_materializeBy (Outcome.eq_ok_of_toOption (Option.mem_toList.mp h))

end Outcomes

end Definition

namespace Report

variable {almanac : Almanac} {window : Window} {seasons : SeasonTable}
  {definitions : List Definition}

/-- The report's events are the successes, in the order of the definitions. -/
theorem events_ofDefinitionsBy :
    (ofDefinitionsBy almanac window seasons definitions).events
      = definitions.filterMap fun d => (d.materializeBy almanac window seasons).toOption := by
  induction definitions with
  | nil => rfl
  | cons d rest ih =>
      rw [List.filterMap_cons, ofDefinitionsBy, ← ih]
      cases d.materializeBy almanac window seasons <;> rfl

/-- The report's failures are the refusals, in the order of the definitions. -/
theorem failures_ofDefinitionsBy :
    (ofDefinitionsBy almanac window seasons definitions).failures
      = definitions.filterMap (Definition.failureBy? almanac window seasons) := by
  induction definitions with
  | nil => rfl
  | cons d rest ih =>
      rw [List.filterMap_cons, ofDefinitionsBy, ← ih]
      simp only [Definition.failureBy?]
      cases d.materializeBy almanac window seasons <;> rfl

/-- What the source of a report gives back to a definition is what it had alone. -/
theorem calendarOf_ofDefinitionsBy (names : (definitions.map Definition.name).Nodup)
    (ids : (definitions.map fun d => Identifier.ofName d.name).Nodup) {d : Definition}
    (hd : d ∈ definitions) :
    (ofDefinitionsBy almanac window seasons definitions).calendarOf d
      = d.calendarBy almanac window seasons := by
  have byId : ∀ x : Definition, ∀ e ∈ (x.materializeBy almanac window seasons).toOption.toList,
      e.id = Identifier.ofName x.name := fun x e made => Definition.id_of_mem_eventsBy made
  have byName : ∀ x : Definition, ∀ f ∈ (x.failureBy? almanac window seasons).toList,
      f.name = x.name :=
    fun x f failed => Definition.name_of_failureBy? (Option.mem_toList.mp failed)
  rw [calendarOf, events_ofDefinitionsBy, failures_ofDefinitionsBy,
    List.filterMap_eq_flatMap_toList, List.filterMap_eq_flatMap_toList,
    filter_flatMap_of_nodup ids byId hd, filter_flatMap_of_nodup names byName hd]
  rfl

/-- The calendars of a report are those that the definitions have alone, when neither names nor
    identifiers repeat. -/
theorem calendars_source (names : (definitions.map Definition.name).Nodup)
    (ids : (definitions.map fun d => Identifier.ofName d.name).Nodup) :
    ((ofDefinitionsBy almanac window seasons definitions).source definitions).calendars
      = definitions.map fun d => d.calendarBy almanac window seasons :=
  List.map_congr_left fun _ hd => calendarOf_ofDefinitionsBy names ids hd

end Report

/-- A definition with one tag, for two hours in UTC. -/
def inUtc (name schedule tag : String) : Definition :=
  { name := name
    friendlyName := none
    description := none
    schedule := schedule
    timezone := "UTC"
    duration := "PT2H"
    startTime := "19:00"
    location := none
    url := none
    seasonal := none
    months := none
    tags := [tag] }

/-- The week from 2024-01-02 on. -/
def firstWeek : Window := ⟨⟨19724, by decide⟩, ⟨19730, by decide⟩, by decide⟩

namespace Report

end Report

end CalendarFeeds
