import CalendarFeeds.Proofs.Expansion
import CalendarFeeds.Proofs.Occurrences

/-! # The day of an event — on which date it first takes place

    Moving a start out of a gap can carry it past midnight, off the day that its schedule calls
    for.  No event comes of that: a start strays by two days at most, so it is on another weekday
    then, and the rule, which has no weekday but that of the schedule, does not open with it.

    All that is asked of the expansion of a rule is that its first occurrence is on a weekday of
    BYDAY.  The expansion of the standard almanac is not trusted for that: an occurrence that is
    the start itself is on such a weekday in every zone of the table. -/

namespace CalendarFeeds

/-- The number of the day that the clocks of a zone show. -/
def Instant.dateIn (i : Instant) (zone : Zone) : Int :=
  (i.utc + zone.offsetAt i.utc) / 86400

/-- What the expansion of a rule is relied on for: the first occurrence is on a weekday of
    BYDAY, on the clocks of the zone of the start. -/
def Almanac.KeepsWeekdays (almanac : Almanac) (r : Rule) (start : Instant) : Prop :=
  ∀ listed, almanac.expand r start 1 = .ok listed →
    ∀ i ∈ listed, r.HasWeekdayOf (i.dateIn start.zone)

/-- One moment has one date in each zone. -/
theorem Instant.dateIn_eq_of_sameMoment {a b : Instant} (same : a.sameMoment b = true) :
    a.dateIn b.zone = b.date := by
  simp only [dateIn]
  rw [utc_eq_of_sameMoment same]
  rfl

namespace Recurrence

theorem days_rule_ne_nil (r : Recurrence) (limit : AllowedMonths) : (r.rule limit).days ≠ [] := by
  have ordinals : ∀ (o : Ordinals) (w : Weekday), dayTerms o w ≠ [] := by
    intro o w
    obtain ⟨n, asked⟩ := List.exists_mem_of_ne_nil o.values o.nonempty
    exact List.ne_nil_of_mem (mem_dayTerms_iff.mpr ⟨n, asked, rfl⟩)
  cases r with
  | weekly w => cases limit <;> exact List.cons_ne_nil _ _
  | monthly o w => exact ordinals o w
  | yearly o w own => exact ordinals o w

theorem weekday_of_mem_days_rule {r : Recurrence} {limit : AllowedMonths} {t : DayTerm}
    (term : t ∈ (r.rule limit).days) : t.weekday = r.weekday := by
  have ordinals : ∀ {o : Ordinals} {w : Weekday}, t ∈ dayTerms o w → t.weekday = w := by
    intro o w numbered
    obtain ⟨n, -, rfl⟩ := mem_dayTerms_iff.mp numbered
    rfl
  cases r with
  | weekly w =>
      have every : t = .every w := by
        cases limit <;> exact List.mem_singleton.mp term
      rw [every]
      rfl
  | monthly o w => exact ordinals term
  | yearly o w own => exact ordinals term

theorem ordinal_of_mem_days_rule {r : Recurrence} {limit : AllowedMonths}
    (weekly : (r.rule limit).frequency = .weekly) :
    ∀ t ∈ (r.rule limit).days, t.ordinal = none := by
  intro t term
  cases r with
  | weekly w =>
      cases limit with
      | every =>
          rw [List.mem_singleton.mp term]
          rfl
      | only months => cases weekly
  | monthly o w => cases weekly
  | yearly o w own => cases weekly

/-- BYDAY has the weekday of the schedule and no other. -/
theorem hasWeekdayOf_rule_iff {r : Recurrence} {limit : AllowedMonths} {day : Int} :
    (r.rule limit).HasWeekdayOf day ↔ Weekday.ofDay day = r.weekday := by
  constructor
  · rintro (none_ | ⟨t, term, weekday⟩)
    · exact absurd none_ (days_rule_ne_nil r limit)
    · rw [← weekday]
      exact weekday_of_mem_days_rule term
  · intro weekday
    obtain ⟨t, term⟩ := List.exists_mem_of_ne_nil _ (days_rule_ne_nil r limit)
    exact .inr ⟨t, term, (weekday_of_mem_days_rule term).trans weekday.symm⟩

end Recurrence

namespace Definition

namespace Parts

variable {almanac : Almanac} {d : Definition} {window : Window} {seasons : SeasonTable}

/-- A start on a weekday of the rule is on the day of the anchor. -/
theorem date_eq_of_hasWeekdayOf (p : Parts almanac d window seasons)
    (weekday : p.rule.HasWeekdayOf p.start.date) : p.start.date = p.anchor.number := by
  obtain ⟨-, -, falls, -⟩ := Recurrence.anchor_spec p.found
  have own := Weekday.ofDay_eq_iff.mp (Recurrence.hasWeekdayOf_rule_iff.mp weekday)
  have asked := Weekday.ofDay_eq_iff.mp (Recurrence.weekday_of_fallsOn falls)
  have near := p.date_near
  omega

/-- With an almanac that keeps the weekdays, a start that passes the check is of the rule's
    weekday. -/
theorem hasWeekdayOf_of_checkBy (p : Parts almanac d window seasons)
    (keeps : almanac.KeepsWeekdays p.rule p.start)
    (checked : Rule.checkBy almanac.expand p.rule p.start = .ok ()) :
    p.rule.HasWeekdayOf p.start.date := by
  obtain ⟨first, rest, listed, same⟩ := Rule.checkBy_eq_ok_iff.mp checked
  have here := keeps _ listed first List.mem_cons_self
  rwa [Instant.dateIn_eq_of_sameMoment same] at here

/-- The expansion that comes with the standard almanac lists a start in a zone that keeps its days
    for no other day than its own. -/
theorem hasWeekdayOf_of_check (p : Parts almanac d window seasons) (keeps : p.zone.KeepsDays)
    (checked : p.rule.check p.start = .ok ()) : p.rule.HasWeekdayOf p.start.date := by
  obtain ⟨first, rest, listed, same⟩ := Rule.checkBy_eq_ok_iff.mp checked
  rw [Rule.expand_eq_ok p.fault?] at listed
  have member : first ∈ p.rule.occurrences p.start 1 := by
    rw [Except.ok.inj listed]
    exact List.mem_cons_self
  obtain ⟨day, occurs⟩ := Rule.occursOn_of_mem_occurrences member
  have own : p.start.zone.KeepsDays := by rwa [p.zone_start]
  exact Rule.hasWeekdayOf_of_selects Recurrence.ordinal_of_mem_days_rule
    (Rule.selects_date_of_occursOn own occurs same)

/-- Where the start is listed alone, its own weekday is all there is to check. -/
theorem keepsWeekdays_of_occurrences {d : Definition} (p : Parts .standard d window seasons)
    (listed : p.rule.occurrences p.start 1 = [p.start])
    (weekday : Weekday.ofDay p.start.date = p.recurrence.weekday) :
    ∀ r, p.event.rule = some r → Almanac.standard.KeepsWeekdays r p.event.start := by
  rintro r own instants expanded i member
  cases own
  have opened : p.rule.expand p.start 1 = .ok [p.start] :=
    (Rule.expand_eq_ok p.fault?).trans (congrArg _ listed)
  cases expanded.symm.trans opened
  cases List.mem_singleton.mp member
  exact Recurrence.hasWeekdayOf_rule_iff.mpr weekday

/-- **AN EVENT ON THE DAY OF ITS ANCHOR**: the local date of its start, on the clocks of the
    definition's zone, is the date that the search for an anchor picks. -/
structure IsHeld (p : Parts almanac d window seasons) (e : Event) : Prop where
  event : e = p.event
  zone : e.start.zone = p.zone
  date : e.start.date = p.anchor.number
  inWindow : window.first ≤ p.anchor ∧ p.anchor ≤ window.last
  /-- The date has the weekday and an ordinal of the schedule and lies in an allowed month. -/
  onSchedule : p.recurrence.FallsOn p.limit e.start.date

/-- A start of the rule's weekday is held on the anchor's day: it is less than a week away. -/
theorem isHeld_of_hasWeekdayOf (p : Parts almanac d window seasons)
    (weekday : p.rule.HasWeekdayOf p.start.date) : p.IsHeld p.event := by
  obtain ⟨first, last, falls, -⟩ := Recurrence.anchor_spec p.found
  have same : p.event.start.date = p.anchor.number := p.date_eq_of_hasWeekdayOf weekday
  refine ⟨rfl, p.zone_start, same, ⟨first, last⟩, ?_⟩
  rwa [same]

end Parts

/-- **THE DAY OF AN EVENT**: whatever gap its start was moved out of, an event is on the day of its
    anchor. -/
theorem isHeld_of_materializeBy {almanac : Almanac} {d : Definition} {window : Window}
    {seasons : SeasonTable} {e : Event} (ok : d.materializeBy almanac window seasons = .ok e)
    (keeps : ∀ r, e.rule = some r → almanac.KeepsWeekdays r e.start) :
    ∃ p : Parts almanac d window seasons, p.IsHeld e := by
  obtain ⟨p, rfl, checked⟩ := exists_parts_of_materializeBy ok
  exact ⟨p, p.isHeld_of_hasWeekdayOf (p.hasWeekdayOf_of_checkBy (keeps p.rule rfl) checked)⟩

/-- The gap of 2022 moves the start by an hour, to half past eleven on the same Saturday. -/
theorem isHeld_of_materializeBy_fourth_saturday :
    (inNuuk "4th Saturday of March" "22:30").materializeBy .standard in2022 .default
        = .ok fourthSaturday.event
      ∧ (∀ r, fourthSaturday.event.rule = some r
        → Almanac.standard.KeepsWeekdays r fourthSaturday.event.start)
      ∧ fourthSaturday.zone.Skips fourthSaturday.asked
      ∧ fourthSaturday.IsHeld fourthSaturday.event := by
  have listed : fourthSaturday.rule.occurrences fourthSaturday.start 1
      = [fourthSaturday.start] := by
    decide +kernel
  have keeps := fourthSaturday.keepsWeekdays_of_occurrences listed (by decide +kernel)
  have ok : (inNuuk "4th Saturday of March" "22:30").materializeBy .standard in2022 .default
      = .ok fourthSaturday.event := fourthSaturday.materialize_eq_ok listed
  obtain ⟨p, held⟩ := isHeld_of_materializeBy ok keeps
  cases Subsingleton.elim p fourthSaturday
  exact ⟨ok, keeps, Zone.instants_eq_nil_iff.mp (by decide +kernel), held⟩

/-- With the standard almanac there is nothing left to rely on. -/
theorem exists_isHeld_of_materialize {d : Definition} {window : Window} {seasons : SeasonTable}
    {e : Event} (ok : d.materialize window seasons = .ok e) :
    ∃ p : Parts .standard d window seasons, p.IsHeld e := by
  obtain ⟨p, rfl, checked⟩ := exists_parts_of_materializeBy ok
  have named : Zone.ofName? (Text.trimmed d.timezone) = some p.zone := zone_eq_ok_iff.mp p.reads_zone
  have keeps := Zone.keepsDays_of_mem_table p.zone (List.mem_of_find?_eq_some named)
  exact ⟨p, p.isHeld_of_hasWeekdayOf (p.hasWeekdayOf_of_check keeps checked)⟩

end Definition

end CalendarFeeds
