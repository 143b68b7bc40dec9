import CalendarFeeds.Proofs.Materialize

/-! # Month precedence — which limit of a definition counts

    A definition may limit its months by a list, by a season or, in its schedule, by naming a
    month.  A month in the schedule goes before a list, and a list before a season; the limits
    behind the first are not looked at, so they cannot fail either.  All that follows sees of the
    three only the limit they come to: definitions that differ in nothing else have the same
    outcome, be it an event or an error. -/

namespace CalendarFeeds.Definition

/-- Definitions that differ in nothing but the season. -/
def SameButSeason (d e : Definition) : Prop :=
  ∃ season, e = { d with seasonal := season }

/-- Definitions that differ in nothing but the season and the list of months. -/
def SameButLimit (d e : Definition) : Prop :=
  ∃ season listed, e = { d with seasonal := season, months := listed }

theorem SameButSeason.sameButLimit {d e : Definition} (same : d.SameButSeason e) :
    d.SameButLimit e := by
  obtain ⟨season, rfl⟩ := same
  exact ⟨season, d.months, rfl⟩

section Outcomes

variable {almanac : Almanac} {d e : Definition} {window : Window} {seasons other : SeasonTable}

/-- **ALL THAT SHOWS OF THE LIMITS** of a definition, and of the season table, is the limit that
    they come to. -/
theorem materializeBy_eq_of_allowedMonths_eq (same : d.SameButLimit e)
    (limit : ∀ r, Phrase.read d.schedule = .ok r →
      d.allowedMonths seasons r = e.allowedMonths other r) :
    d.materializeBy almanac window seasons = e.materializeBy almanac window other := by
  obtain ⟨season, listed, rfl⟩ := same
  simp only [materializeBy]
  cases read : Phrase.read d.schedule with
  | error fault => rfl
  | ok r =>
      have first := limit r read
      show (d.allowedMonths seasons r >>= _) = (Definition.allowedMonths _ other r >>= _)
      rw [first]
      rfl

/-- A limit that is refused is the outcome, whatever else would be. -/
theorem materializeBy_of_refused_limit {r : Recurrence} {fault : ScheduleError}
    (schedule : Phrase.read d.schedule = .ok r)
    (refused : d.allowedMonths seasons r = .error fault) :
    d.materializeBy almanac window seasons = .error fault := by
  rw [materializeBy, schedule]
  show (d.allowedMonths seasons r >>= _) = _
  rw [refused]
  rfl

/-- A schedule that names its month leaves nothing to the other limits. -/
theorem allowedMonths_yearly (o : Ordinals) (w : Weekday) (month : Nat) :
    d.allowedMonths seasons (.yearly o w month) = e.allowedMonths other (.yearly o w month) :=
  rfl

/-- A list of months leaves nothing to the season. -/
theorem allowedMonths_listed (same : d.SameButSeason e) {ms : List Nat} (own : d.months = some ms)
    (some_ : ms ≠ []) (r : Recurrence) : d.allowedMonths seasons r = e.allowedMonths other r := by
  obtain ⟨season, rfl⟩ := same
  obtain ⟨m, rest, rfl⟩ := List.exists_cons_of_ne_nil some_
  cases r with
  | weekly w => simp only [allowedMonths, own, AllowedMonths.resolve]
  | monthly o w => simp only [allowedMonths, own, AllowedMonths.resolve]
  | yearly o w month => exact allowedMonths_yearly o w month

end Outcomes

/-- **WHAT IS NOT LOOKED AT DOES NOT COUNT**: beside a list of months the season changes nothing, and
    beside a month in the schedule neither the season nor the list does; nor does the season table,
    and be the season unknown or the list without a real month. -/
theorem materializeBy_by_precedence (almanac : Almanac) (window : Window)
    (seasons other : SeasonTable) (d e : Definition) :
    (∀ ms, d.SameButSeason e → d.months = some ms → ms ≠ [] →
      d.materializeBy almanac window seasons = e.materializeBy almanac window other)
    ∧ ∀ o w month, d.SameButLimit e → Phrase.read d.schedule = .ok (.yearly o w month) →
      d.materializeBy almanac window seasons = e.materializeBy almanac window other := by
  constructor
  · intro ms same own some_
    exact materializeBy_eq_of_allowedMonths_eq same.sameButLimit fun r _ =>
      allowedMonths_listed same own some_ r
  · intro o w month same yearly
    refine materializeBy_eq_of_allowedMonths_eq same fun r read => ?_
    cases read.symm.trans yearly
    exact allowedMonths_yearly o w month

/-- A season that the table does not know is missed where it counts, but not beside a list of
    months, even a list that is refused; and a schedule that names March hides them both. -/
theorem materializeBy_by_precedence_monsoon :
    Definition.materialize { inNuuk "every Sunday" "18:00" with seasonal := some "monsoon" }
        in2022 ⟨[]⟩ = .error (.unknownSeason "monsoon")
      ∧ Definition.materialize { inNuuk "every Sunday" "18:00" with
          seasonal := some "monsoon", months := some [13] } in2022 ⟨[]⟩ = .error (.invalidMonth 13)
      ∧ Definition.materialize { inNuuk "4th Saturday of March" "22:30" with
          seasonal := some "monsoon", months := some [13] } in2022 ⟨[]⟩ = .ok fourthSaturday.event := by
  have sundays : Phrase.read "every Sunday" = .ok (.weekly .sunday) :=
    Phrase.read_eq_ok_iff.mpr (by decide +kernel)
  have missed : Definition.materialize { inNuuk "every Sunday" "18:00" with
      seasonal := some "monsoon" } in2022 ⟨[]⟩ = .error (.unknownSeason "monsoon") :=
    materializeBy_of_refused_limit sundays rfl
  have refused : Definition.materialize { inNuuk "every Sunday" "18:00" with months := some [13] }
      in2022 .default = .error (.invalidMonth 13) :=
    materializeBy_of_refused_limit sundays rfl
  have held : (inNuuk "4th Saturday of March" "22:30").materialize in2022 .default
      = .ok fourthSaturday.event :=
    fourthSaturday.materialize_eq_ok (by decide +kernel)
  obtain ⟨listed, -⟩ := materializeBy_by_precedence .standard in2022 .default ⟨[]⟩
    { inNuuk "every Sunday" "18:00" with months := some [13] }
    { inNuuk "every Sunday" "18:00" with seasonal := some "monsoon", months := some [13] }
  obtain ⟨-, named⟩ := materializeBy_by_precedence .standard in2022 .default ⟨[]⟩
    (inNuuk "4th Saturday of March" "22:30")
    { inNuuk "4th Saturday of March" "22:30" with seasonal := some "monsoon", months := some [13] }
  exact ⟨missed,
    (listed [13] ⟨some "monsoon", rfl⟩ rfl (List.cons_ne_nil _ _)).symm.trans refused,
    (named _ _ _ ⟨some "monsoon", some [13], rfl⟩ fourthSaturday.reads_schedule).symm.trans held⟩

end CalendarFeeds.Definition
