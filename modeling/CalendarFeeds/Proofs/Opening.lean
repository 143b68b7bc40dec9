import CalendarFeeds.Proofs.ClockChanges

/-! # Openings — when a rule opens with the start of its event

    A start is an occurrence of its rule if the rule generates its day and no earlier instant shows
    the same local time.  Starts are placed at first instants, outside gaps in any zone, and inside
    gaps too where transitions are 48 hours apart.  What is left to go wrong is the day: the rule
    generates the day of the anchor and no other near it, and a gap late in the evening moves a
    start past midnight. -/

namespace CalendarFeeds

namespace Rule

variable {r : Rule} {start : Instant}

theorem Recurs.self (generated : r.Generates start.date) (first : start.IsFirst) :
    r.Recurs start start.date start := by
  have own : 86400 * start.date + start.shown % 86400 = start.shown := by
    simp only [Instant.date]
    omega
  refine ⟨generated, Int.le_refl _, ?_, rfl, rfl⟩
  rw [own]
  exact .first rfl first

/-- **THE START AS AN OCCURRENCE**: a start belongs to its own day only, and is the occurrence on it
    exactly if no earlier instant shows its local time. -/
theorem exists_recurs_self_iff (spaced : start.zone.Spaced) :
    (∃ day, r.Recurs start day start) ↔ r.Generates start.date ∧ start.IsFirst := by
  constructor
  · rintro ⟨day, recurs⟩
    have since := recurs.since
    have here : start.utc + start.zone.offsetAt start.utc = start.shown := rfl
    simp only [Instant.date] at since
    -- a later day has a later local time, which is not read as an instant shown before it
    have shown : 86400 * day + start.shown % 86400 = start.shown := by
      by_cases skipped : start.zone.Skips (86400 * day + start.shown % 86400)
      · have := spaced.lt_of_reads skipped recurs.reads
        omega
      · simp only [Zone.Skips, not_forall, not_not] at skipped
        obtain ⟨_, there⟩ := skipped
        have least := (Zone.reads_iff_isLeast there).mp recurs.reads
        exact least.1.symm.trans here
    have own : start.date = day := by
      simp only [Instant.date]
      omega
    have reads := recurs.reads
    rw [shown, Zone.reads_iff_isLeast here] at reads
    exact ⟨own ▸ recurs.generated, fun utc same => reads.2 same⟩
  · rintro ⟨generated, first⟩
    exact ⟨start.date, .self generated first⟩

end Rule

namespace Definition

namespace Parts

variable {almanac : Almanac} {d : Definition} {window : Window} {seasons : SeasonTable}

/-- The start is an occurrence of its rule. -/
def Opens (p : Parts almanac d window seasons) : Prop :=
  ∃ day, p.rule.Recurs p.start day p.start

/-- A start that no gap moves opens its rule. -/
theorem opens_of_not_skips (p : Parts almanac d window seasons)
    (exists_ : ¬ p.zone.Skips p.asked) : p.Opens := by
  have generated := p.generates_start_iff.mpr fun strays => exists_ strays.1
  exact ⟨_, .self generated (Instant.isFirst_of_not_skips exists_)⟩

/-- A start that a gap moves opens its rule exactly if it stays on its day. -/
theorem opens_iff (p : Parts almanac d window seasons) (spaced : p.zone.Spaced) :
    p.Opens ↔ ¬ p.Strays := by
  have own : p.start.zone.Spaced := by rwa [p.zone_start]
  rw [Opens, Rule.exists_recurs_self_iff own, p.generates_start_iff]
  exact and_iff_left (Instant.isFirst_ofLocal spaced p.anchor p.time)

/-- With its first occurrence listed, a rule is accepted exactly if it opens with the start. -/
theorem materializeBy_eq_ok_iff_opens (p : Parts almanac d window seasons)
    (lists : almanac.Lists p.rule p.start 1) :
    d.materializeBy almanac window seasons = .ok p.event ↔ p.Opens := by
  have checked : Rule.checkBy almanac.expand p.rule p.start = .ok () ↔ p.Opens :=
    lists.checkBy_eq_ok_iff p.fault?
  rw [p.materializeBy_eq, ← checked]
  match check : Rule.checkBy almanac.expand p.rule p.start with
  | .ok () => exact ⟨fun _ => rfl, fun _ => rfl⟩
  | .error fault =>
      constructor
      · intro made
        cases made
      · intro accepted
        cases accepted

/-- The check of the rule is all that can fail. -/
theorem refused_of_ne_ok (p : Parts almanac d window seasons)
    (other : d.materializeBy almanac window seasons ≠ .ok p.event) :
    ∃ fault, d.materializeBy almanac window seasons = .error (.invalidRule fault) := by
  rw [p.materializeBy_eq] at other ⊢
  revert other
  match Rule.checkBy almanac.expand p.rule p.start with
  | .ok () => exact fun other => absurd rfl other
  | .error fault => exact fun _ => ⟨fault, rfl⟩

/-- **WHEN A DEFINITION HAS AN EVENT**: once its parts can be read and the window holds an anchor,
    it has one exactly if its start is an occurrence of its rule, and else the rule is refused.
    A time that clocks show is such a start, repeated or not.  Where transitions are 48 hours apart
    so is every other, but for one that a gap moves to another day. -/
theorem materializeBy_eq_ok_iff (p : Parts almanac d window seasons)
    (lists : almanac.Lists p.rule p.start 1) :
    (d.materializeBy almanac window seasons = .ok p.event ↔ p.Opens)
      ∧ (¬ p.Opens → ∃ fault, d.materializeBy almanac window seasons = .error (.invalidRule fault))
      ∧ (¬ p.zone.Skips p.asked → p.Opens)
      ∧ (p.zone.Spaced → (p.Opens ↔ ¬ p.Strays)) := by
  have made := p.materializeBy_eq_ok_iff_opens lists
  exact ⟨made, fun closed => p.refused_of_ne_ok fun ok => closed (made.mp ok),
    p.opens_of_not_skips, p.opens_iff⟩

/-- An expansion to one occurrence is that of the first, if the rule generates no day before it. -/
theorem lists_of_expand (p : Parts almanac d window seasons) {first : Instant} {day : Int}
    (expanded : almanac.expand p.rule p.start 1 = .ok [first])
    (recurs : p.rule.Recurs p.start day first) (since : p.start.utc ≤ first.utc)
    (exists_ : ¬ p.start.zone.Skips (86400 * day + p.start.shown % 86400))
    (least : ∀ n, p.start.date ≤ n → p.recurrence.FallsOn p.limit n → day ≤ n) :
    almanac.Lists p.rule p.start 1 := by
  obtain ⟨-, -, anchored, -⟩ := Recurrence.anchor_spec p.found
  have own := (Recurrence.rule_generates_iff anchored).mp recurs.generated
  refine fun _ => ⟨[first], expanded, Rule.firstOf_singleton recurs since exists_ ?_⟩
  intro n late generated
  have falls := (Recurrence.rule_generates_iff anchored).mp generated
  have after := least n late falls
  -- days of one weekday
  by_cases close : n < day + 2
  · exact .inl (Recurrence.eq_of_fallsOn_near own falls (by omega))
  · exact .inr (by omega)

end Parts

/-- The gap of 2022 leaves the start on its Saturday, and the definition has its event. -/
theorem materializeBy_eq_ok_iff_fourth_saturday :
    Almanac.standard.Lists fourthSaturday.rule fourthSaturday.start 1
      ∧ fourthSaturday.zone.Skips fourthSaturday.asked
      ∧ fourthSaturday.zone.Spaced
      ∧ (inNuuk "4th Saturday of March" "22:30").materialize in2022 .default
        = .ok fourthSaturday.event := by
  have spaced : fourthSaturday.zone.Spaced := by decide +kernel
  have stays : ¬ fourthSaturday.Strays := fourthSaturday.not_strays_iff.mpr (by decide +kernel)
  have listed : fourthSaturday.rule.occurrences fourthSaturday.start 1
      = [fourthSaturday.start] := by
    decide +kernel
  have generated := fourthSaturday.generates_start_iff.mpr stays
  have recurs : fourthSaturday.rule.Recurs fourthSaturday.start fourthSaturday.start.date
      fourthSaturday.start :=
    .self generated (Instant.isFirst_ofLocal spaced fourthSaturday.anchor fourthSaturday.time)
  have shown : ¬ fourthSaturday.start.zone.Skips (86400 * fourthSaturday.start.date
      + fourthSaturday.start.shown % 86400) := by
    rw [← Zone.instants_eq_nil_iff]
    decide +kernel
  have lists := fourthSaturday.lists_of_expand
    ((Rule.expand_eq_ok fourthSaturday.fault?).trans (congrArg _ listed)) recurs (Int.le_refl _)
    shown fun n late _ => late
  obtain ⟨made, -, -, opens⟩ := fourthSaturday.materializeBy_eq_ok_iff lists
  exact ⟨lists, Zone.instants_eq_nil_iff.mp (by decide +kernel), spaced,
    made.mpr ((opens spaced).mpr stays)⟩

/-- From 2024-03-31 to 2025-12-31. -/
def sinceTheFifthSaturday : Window :=
  { in2024And2025 with first := ⟨19813, by decide⟩, ordered := by decide }

/-- The next March with five Saturdays is that of 2025. -/
theorem anchor_nextFifthSaturday :
    (Recurrence.yearly Recurrence.fifthOnly .saturday 3).anchor sinceTheFifthSaturday (.only [3])
      = .ok ⟨20176, by decide⟩ :=
  Outcome.eq_ok_of_toOption (by decide +kernel)

/-- The gap of 2024 moves the start to a Sunday, which the rule does not generate: every part is
    read, occurrences are listed as they should be, and still the definition is refused. -/
theorem materialize_refuses_fifth_saturday :
    ∃ p : Parts .standard (inNuuk "5th Saturday of March" "23:00") in2024And2025 .default,
      p.time.isLeap = false ∧ Almanac.standard.Lists p.rule p.start 1 ∧ p.zone.Spaced
        ∧ ∃ fault, (inNuuk "5th Saturday of March" "23:00").materialize in2024And2025 .default
          = .error (.invalidRule fault) := by
  have spaced : fifthSaturday.zone.Spaced := by decide +kernel
  have zone : fifthSaturday.start.zone = fifthSaturday.zone := fifthSaturday.zone_start
  have midnight : fifthSaturday.start.shown = 86400 * 19813 := by decide +kernel
  have date : fifthSaturday.start.date = 19813 := by
    simp only [Instant.date]
    omega
  have moved : fifthSaturday.Strays := by
    by_contra stays
    cases date.symm.trans (fifthSaturday.not_strays_iff.mp stays)
  -- at midnight of that Saturday in 2025 the clocks are two hours behind
  have shown : fifthSaturday.start.zone.instants (86400 * 20176 + fifthSaturday.start.shown % 86400)
      = [1743213600] := by
    rw [zone, midnight]
    decide +kernel
  obtain ⟨-, -, next, -⟩ := Recurrence.anchor_spec anchor_nextFifthSaturday
  obtain ⟨-, -, anchored, -⟩ := Recurrence.anchor_spec fifthSaturday.found
  have recurs : fifthSaturday.rule.Recurs fifthSaturday.start 20176
      ⟨1743213600, false, fifthSaturday.zone⟩ :=
    ⟨(Recurrence.rule_generates_iff anchored).mpr next, by omega,
      .first (Zone.isLeast_of_instants shown).1
        fun _ same => (Zone.isLeast_of_instants shown).2 same,
      zone.symm, by decide +kernel⟩
  have listed : fifthSaturday.rule.occurrences fifthSaturday.start 1
      = [⟨1743213600, false, fifthSaturday.zone⟩] := by decide +kernel
  have lists := fifthSaturday.lists_of_expand
    ((Rule.expand_eq_ok fifthSaturday.fault?).trans (congrArg _ listed)) recurs
    (by decide +kernel) (fun gap => gap _ (Zone.isLeast_of_instants shown).1)
    fun n late falls => Recurrence.anchor_le_of_fallsOn anchor_nextFifthSaturday
      (Int.le_trans (Int.le_of_eq date.symm) late) falls
  have closed : ¬ fifthSaturday.Opens := fun opens =>
    (fifthSaturday.opens_iff spaced).mp opens moved
  refine ⟨fifthSaturday, rfl, lists, spaced, fifthSaturday.refused_of_ne_ok fun ok => ?_⟩
  exact closed ((fifthSaturday.materializeBy_eq_ok_iff_opens lists).mp ok)

end Definition

end CalendarFeeds
