import CalendarFeeds.Proofs.ZoneDays
import CalendarFeeds.Rule.Check

/-! # Expansion — from which days the occurrences of a rule come

    Every instant that the expansion of a rule lists belongs to a day that the rule selects, hence
    to a weekday of BYDAY.  It is not always shown on that day: a time of day that clocks skip is
    counted from midnight, and in a zone with a gap late in the evening the count ends after the
    next midnight.

    The start is such an instant only for its own day.  To open a rule from another day it would
    have to be shown at the same time of day, and clocks would have to move by a whole day in the
    hours that are counted.  The zones of the table never do that: where a zone crossed the date
    line, it did so at midnight. -/

namespace CalendarFeeds

namespace Rule

/-- Whether BYDAY, if there is one, has the weekday of a day, with an ordinal or without. -/
def HasWeekdayOf (r : Rule) (day : Int) : Prop :=
  r.days = [] ∨ ∃ t ∈ r.days, t.weekday = Weekday.ofDay day

/-- Whether an instant is the occurrence on a day. -/
structure OccursOn (r : Rule) (start : Instant) (day : Int) (i : Instant) : Prop where
  selected : r.selects start.date day = true
  placed : occurrenceOn? start.zone (start.shown % 86400) day = some i
  since : i.notBefore start = true

-- ── What is listed ───────────────────────────────────────────────────────────────

/-- What a period lists falls on a day that the rule selects in it. -/
theorem occursOn_of_mem_occurrencesIn {r : Rule} {start i : Instant} {first : Int}
    (listed : i ∈ r.occurrencesIn start first) : ∃ day, r.OccursOn start day i := by
  obtain ⟨k, -, here⟩ := List.mem_filterMap.mp listed
  split at here
  · next selected =>
      obtain ⟨placed, since⟩ := Option.filter_eq_some_iff.mp here
      exact ⟨_, selected, placed, since⟩
  · cases here

/-- The same of the first period that is not empty, wherever the search finds it. -/
theorem occursOn_of_findPeriod {r : Rule} {start i : Instant} {rest : List Instant}
    {periods : Nat} {first : Int} {next : Option Int}
    (found : r.findPeriod start periods first = some (i, rest, next)) :
    ∀ j ∈ i :: rest, ∃ day, r.OccursOn start day j := by
  induction periods generalizing first with
  | zero => cases found
  | succ periods ih =>
      dsimp only [findPeriod] at found
      split at found
      · next here =>
          cases found
          intro j member
          exact occursOn_of_mem_occurrencesIn (here ▸ member)
      · split at found
        · cases found
        · exact ih found

/-- Taking one occurrence after the other keeps to them: the induction is on how many are still
    wanted, over whatever is in hand. -/
theorem occursOn_of_mem_take {r : Rule} {start i : Instant} {limit : Nat} {hand : List Instant}
    {next : Option Int} (ready : ∀ j ∈ hand, ∃ day, r.OccursOn start day j)
    (listed : i ∈ r.take start limit hand next) : ∃ day, r.OccursOn start day i := by
  induction limit generalizing hand next with
  | zero => cases listed
  | succ limit ih =>
      match hand, next with
      | j :: rest, next =>
          rcases List.mem_cons.mp listed with rfl | later
          · exact ready i List.mem_cons_self
          · exact ih (fun k member => ready k (List.mem_cons_of_mem j member)) later
      | [], none => cases listed
      | [], some first =>
          simp only [take] at listed
          split at listed
          · cases listed
          · next j rest next found =>
              have period := occursOn_of_findPeriod found
              rcases List.mem_cons.mp listed with rfl | later
              · exact period i List.mem_cons_self
              · exact ih (fun k member => period k (List.mem_cons_of_mem j member)) later

/-- **WHAT AN EXPANSION LISTS** are occurrences on days that the rule selects. -/
theorem occursOn_of_mem_occurrences {r : Rule} {start i : Instant} {limit : Nat}
    (listed : i ∈ r.occurrences start limit) : ∃ day, r.OccursOn start day i :=
  occursOn_of_mem_take (fun _ none_ => absurd none_ List.not_mem_nil) listed

-- ── On which weekdays ────────────────────────────────────────────────────────────

theorem mem_plainDays_iff {r : Rule} {w : Weekday} :
    w ∈ r.plainDays ↔ ∃ t ∈ r.days, placeOf t = none ∧ t.weekday = w := by
  simp only [plainDays, List.mem_map, List.mem_filter, Option.isNone_iff_eq_none, and_assoc]

theorem mem_numberedDays_iff {r : Rule} {n : Nat} {w : Weekday} :
    (n, w) ∈ r.numberedDays ↔ ∃ t ∈ r.days, placeOf t = some n ∧ t.weekday = w := by
  simp only [numberedDays, List.mem_filterMap, Option.map_eq_some_iff, Prod.mk.injEq]
  constructor
  · rintro ⟨t, term, k, place, rfl, rfl⟩
    exact ⟨t, term, place, rfl⟩
  · rintro ⟨t, term, place, rfl⟩
    exact ⟨t, term, n, place, rfl, rfl⟩

/-- A selected day has a weekday of BYDAY.  A weekly rule passes over terms with ordinals, so it
    must not have any. -/
theorem hasWeekdayOf_of_selects {r : Rule} {first day : Int}
    (plain : r.frequency = .weekly → ∀ t ∈ r.days, t.ordinal = none)
    (selected : r.selects first day = true) : r.HasWeekdayOf day := by
  by_cases none_ : r.days = []
  · exact .inl none_
  · right
    have terms : r.onDays first day = true := (Bool.and_eq_true_iff.mp selected).1
    simp only [onDays, if_neg none_, Bool.and_eq_true_iff, Bool.or_eq_true, decide_eq_true_iff,
      List.contains_iff_mem, List.any_eq_true, beq_iff_eq] at terms
    obtain ⟨unnumbered | plainly, numbered⟩ := terms
    · -- every term has an ordinal, so the numbered ones decide
      obtain ⟨t, term⟩ := List.exists_mem_of_ne_nil _ none_
      obtain ⟨n, place⟩ : ∃ n, placeOf t = some n := by
        rw [← Option.ne_none_iff_exists']
        intro missing
        exact absurd (mem_plainDays_iff.mpr ⟨t, term, missing, rfl⟩) (unnumbered ▸ List.not_mem_nil)
      have listed : (n, t.weekday) ∈ r.numberedDays := mem_numberedDays_iff.mpr ⟨t, term, place, rfl⟩
      rcases numbered with (weekly | empty) | ⟨⟨k, w⟩, picked, weekday, -⟩
      · rw [placeOf, plain weekly t term] at place
        cases place
      · rw [empty] at listed
        cases listed
      · obtain ⟨t', term', -, own⟩ := mem_numberedDays_iff.mp picked
        exact ⟨t', term', own.trans weekday⟩
    · obtain ⟨t, term, -, weekday⟩ := mem_plainDays_iff.mp plainly
      exact ⟨t, term, weekday⟩

-- ── Shown on which day ───────────────────────────────────────────────────────────

/-- The occurrence on a day is shown on it at the time of day, or that time after its
    midnight. -/
theorem shown_or_utc_of_occurrenceOn? {zone : Zone} {time day : Int} {i : Instant}
    (placed : occurrenceOn? zone time day = some i) :
    i.utc + zone.offsetAt i.utc = 86400 * day + time
      ∨ ∃ midnight, midnight + zone.offsetAt midnight = 86400 * day ∧ i.utc = midnight + time := by
  simp only [occurrenceOn?] at placed
  split at placed
  · next utc listed =>
      cases placed
      exact .inl (Zone.mem_instants_iff.mp (listed ▸ List.mem_singleton_self utc))
  · split at placed
    · next midnight listed =>
        cases placed
        exact .inr ⟨midnight, Zone.mem_instants_iff.mp (listed ▸ List.mem_singleton_self midnight),
          rfl⟩
    · cases placed

/-- **THE START OPENS ITS OWN DAY**: an occurrence at the moment of the start is that of the day on
    which the start is shown. -/
theorem selects_date_of_occursOn {r : Rule} {start i : Instant} {day : Int}
    (keeps : start.zone.KeepsDays) (occurs : r.OccursOn start day i)
    (same : i.sameMoment start = true) : r.selects start.date start.date = true := by
  have placed := shown_or_utc_of_occurrenceOn? occurs.placed
  rw [Instant.utc_eq_of_sameMoment same] at placed
  have shown : start.shown = start.utc + start.zone.offsetAt start.utc := rfl
  have own : start.date = day := by
    simp only [Instant.date]
    obtain here | ⟨midnight, here, counted⟩ := placed
    · omega
    · have moved := keeps midnight start.utc (by omega) (by omega) (by omega) (by omega)
      omega
  have selected := occurs.selected
  rwa [own] at *

end Rule

end CalendarFeeds
