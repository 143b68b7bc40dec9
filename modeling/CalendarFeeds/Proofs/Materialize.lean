import CalendarFeeds.Proofs.Outcome
import CalendarFeeds.Proofs.RecurrenceSet

/-! # Materialization — the parts of a definition and the day of its start

    A definition whose parts can be read, with an anchor in the window, has a rule without fault,
    so that only the check of the rule against the start can still refuse it.  The rule generates
    the anchor and no other day within two days of it.  So it generates the day of the start
    exactly when that is still the anchor's, and only a gap can move the start to another. -/

namespace CalendarFeeds

-- ── Rules without fault ──────────────────────────────────────────────────────────

namespace AllowedMonths

/-- A limit read from a list names months of the calendar only. -/
theorem range_of_ofList {months : List Nat} {limit : AllowedMonths}
    (read : ofList months = .ok limit) : ∀ m ∈ limit.list?.getD [], 1 ≤ m ∧ m ≤ 12 := by
  simp only [ofList] at read
  split at read
  · cases read
  · next none_bad =>
      cases read
      split
      · intro m hm
        cases hm
      · intro m hm
        have good := List.find?_eq_none.mp none_bad m (mem_ascending.mp hm)
        simp only [Bool.or_eq_true, decide_eq_true_iff] at good
        omega

theorem range_of_ofSeason {seasons : SeasonTable} {name : String} {limit : AllowedMonths}
    (read : ofSeason seasons name = .ok limit) : ∀ m ∈ limit.list?.getD [], 1 ≤ m ∧ m ≤ 12 := by
  simp only [ofSeason] at read
  split at read
  · cases read
    intro m hm
    cases hm
  · split at read
    · exact range_of_ofList read
    · cases read

/-- Whatever the season and the list come to names months of the calendar only. -/
theorem range_of_resolve {seasons : SeasonTable} {season : Option String}
    {months : Option (List Nat)} {limit : AllowedMonths}
    (read : resolve seasons season months = .ok limit) :
    ∀ m ∈ limit.list?.getD [], 1 ≤ m ∧ m ≤ 12 := by
  simp only [resolve] at read
  split at read
  · exact range_of_ofList read
  · exact range_of_ofSeason read
  · cases read
    intro m hm
    cases hm

end AllowedMonths

namespace Rule

/-- A rule is faultless when its months are months and its ordinals fit the frequency. -/
theorem fault?_eq_none {r : Rule} (months : ∀ m ∈ r.months, 1 ≤ m ∧ m ≤ 12)
    (ordinals : ∀ t ∈ r.days, ∀ n, t.ordinal = some n → n ≤ r.frequency.maxOrdinal) :
    r.fault? = none := by
  have real : ¬ (r.months.any fun m => decide (m < 1) || decide (12 < m)) = true := by
    rw [List.any_eq_true]
    rintro ⟨m, hm, bad⟩
    have := months m hm
    simp only [Bool.or_eq_true, decide_eq_true_iff] at bad
    omega
  simp only [fault?]
  rw [if_neg real, Option.map_eq_none_iff, List.find?_eq_none]
  rintro ⟨n, w⟩ listed
  obtain ⟨t, ht, place⟩ := List.mem_filterMap.mp listed
  obtain ⟨k, hk, made⟩ := Option.map_eq_some_iff.mp place
  cases made
  have := ordinals t ht n (Option.filter_eq_some_iff.mp hk).1
  rw [decide_eq_true_iff]
  omega

end Rule

namespace Recurrence

/-- No numbered weekday goes beyond the fifth. -/
theorem ordinal_of_mem_dayTerms {o : Ordinals} {w : Weekday} {t : DayTerm}
    (listed : t ∈ dayTerms o w) {n : Nat} (number : t.ordinal = some n) : n ≤ 5 := by
  obtain ⟨k, hk, rfl⟩ := mem_dayTerms_iff.mp listed
  cases number
  exact (o.bounded n hk).2

/-- The rule of a recurrence has no fault when its months are months. -/
theorem rule_fault? {r : Recurrence} {limit : AllowedMonths}
    (months : ∀ m ∈ (r.rule limit).months, 1 ≤ m ∧ m ≤ 12) : (r.rule limit).fault? = none := by
  refine Rule.fault?_eq_none months ?_
  cases r with
  | weekly w =>
      intro t ht n number
      have term : t = .every w := by
        cases limit with
        | every => exact List.mem_singleton.mp ht
        | only _ => exact List.mem_singleton.mp ht
      cases term
      cases number
  | monthly o w =>
      intro t ht n number
      exact ordinal_of_mem_dayTerms ht number
  | yearly o w own =>
      intro t ht n number
      have five := ordinal_of_mem_dayTerms ht number
      show n ≤ 53
      omega

/-- Two days of a recurrence are equal or at least a week apart. -/
theorem eq_of_fallsOn_near {r : Recurrence} {limit : AllowedMonths} {a b : Int}
    (ha : r.FallsOn limit a) (hb : r.FallsOn limit b) (near : a - 7 < b ∧ b < a + 7) : b = a := by
  have first := Weekday.ofDay_eq_iff.mp (weekday_of_fallsOn ha)
  have second := Weekday.ofDay_eq_iff.mp (weekday_of_fallsOn hb)
  omega

end Recurrence

-- ── The start of a definition ────────────────────────────────────────────────────

namespace Definition

/-- The parts of a definition, each read without error, with the anchor that they have in a
    window. -/
structure Parts (almanac : Almanac) (d : Definition) (window : Window) (seasons : SeasonTable)
    where
  recurrence : Recurrence
  limit : AllowedMonths
  zone : Zone
  time : TimeOfDay
  length : Duration
  anchor : Date
  reads_schedule : Phrase.read d.schedule = .ok recurrence
  reads_limit : d.allowedMonths seasons recurrence = .ok limit
  reads_zone : d.zone almanac = .ok zone
  reads_time : d.timeOfDay = .ok time
  reads_length : d.length = .ok length
  found : recurrence.anchor window limit = .ok anchor

namespace Parts

variable {almanac : Almanac} {d : Definition} {window : Window} {seasons : SeasonTable}

def rule (p : Parts almanac d window seasons) : Rule :=
  p.recurrence.rule p.limit

def start (p : Parts almanac d window seasons) : Instant :=
  Instant.ofLocal p.zone p.anchor p.time

def event (p : Parts almanac d window seasons) : Event :=
  d.eventAt p.start p.length p.rule

/-- The start lies in a gap of the zone, and moving it out of the gap moves it to another day. -/
def Strays (p : Parts almanac d window seasons) : Prop :=
  p.zone.Skips (86400 * p.anchor.number + p.time.seconds) ∧ p.start.date ≠ p.anchor.number

/-- Only the check of the rule is left to fail. -/
theorem materializeBy_eq (p : Parts almanac d window seasons) :
    d.materializeBy almanac window seasons =
      match Rule.checkBy almanac.expand p.rule p.start with
      | .error fault => .error (.invalidRule fault)
      | .ok () => .ok p.event := by
  simp only [materializeBy, p.reads_schedule, p.reads_limit, p.reads_zone, p.reads_time,
    p.reads_length, p.found, bind, Except.bind]
  rfl

/-- The rule of a definition has no fault: recurrence and limit were checked before. -/
theorem fault? (p : Parts almanac d window seasons) : p.rule.fault? = none := by
  refine Recurrence.rule_fault? ?_
  have limited := p.reads_limit
  match r : p.recurrence with
  | .weekly w =>
      rw [r] at limited
      have real := AllowedMonths.range_of_resolve limited
      match l : p.limit with
      | .every =>
          intro m hm
          cases hm
      | .only months =>
          -- the months of the yearly rule are those of the limit
          rw [l] at real
          exact real
  | .monthly o w =>
      rw [r] at limited
      exact AllowedMonths.range_of_resolve limited
  | .yearly o w own =>
      rw [r] at limited
      intro m hm
      cases List.mem_singleton.mp hm
      by_cases real : 1 ≤ own ∧ own ≤ 12
      · exact real
      · cases limited.symm.trans (AllowedMonths.single_eq_error real)

/-- Every start is within two days of the anchor. -/
theorem date_near (p : Parts almanac d window seasons) :
    p.anchor.number - 2 ≤ p.start.date ∧ p.start.date ≤ p.anchor.number + 2 := by
  have clock := p.time.seconds_lt
  have near : _ < p.start.shown ∧ p.start.shown < _ :=
    Instant.shown_ofShown_near p.zone (86400 * p.anchor.number + p.time.seconds) p.time.isLeap
  simp only [Instant.date]
  omega

/-- A start stays when its date is the anchor's. -/
theorem not_strays_iff (p : Parts almanac d window seasons) :
    ¬ p.Strays ↔ p.start.date = p.anchor.number := by
  constructor
  · intro stays
    by_contra other
    -- outside a gap the start is shown at the time asked for, on the anchor's day
    refine stays ⟨?_, other⟩
    intro utc same
    have shown : p.start.shown = 86400 * p.anchor.number + p.time.seconds :=
      Instant.shown_ofShown fun gap => gap utc same
    have clock := p.time.seconds_lt
    apply other
    simp only [Instant.date]
    omega
  · rintro same ⟨-, other⟩
    exact other same

/-- The rule generates the day of the start only if that is the day of the anchor. -/
theorem generates_start_iff (p : Parts almanac d window seasons) :
    p.rule.Generates p.start.date ↔ ¬ p.Strays := by
  obtain ⟨-, -, falls, -⟩ := Recurrence.anchor_spec p.found
  rw [not_strays_iff]
  show (p.recurrence.rule p.limit).Generates _ ↔ _
  rw [Recurrence.rule_generates_iff falls]
  constructor
  · intro here
    have near := p.date_near
    exact Recurrence.eq_of_fallsOn_near falls here (by omega)
  · intro same
    rw [same]
    exact falls

/-- With the standard almanac a definition has its event once the expansion opens with its
    start. -/
theorem materialize_eq_ok {d : Definition} (p : Parts .standard d window seasons)
    (opens : p.rule.occurrences p.start 1 = [p.start]) :
    d.materialize window seasons = .ok p.event := by
  have checked : Rule.checkBy Rule.expand p.rule p.start = .ok () :=
    Rule.checkBy_eq_ok_iff.mpr ⟨p.start, [], (Rule.expand_eq_ok p.fault?).trans (congrArg _ opens),
      Instant.sameMoment_self _⟩
  refine p.materializeBy_eq.trans ?_
  rw [show Almanac.standard.expand = Rule.expand from rfl, checked]

end Parts

/-- Every event of a definition is that of its parts. -/
theorem exists_parts_of_materializeBy {almanac : Almanac} {d : Definition} {window : Window}
    {seasons : SeasonTable} {e : Event} (h : d.materializeBy almanac window seasons = .ok e) :
    ∃ p : Parts almanac d window seasons,
      e = p.event ∧ Rule.checkBy almanac.expand p.rule p.start = .ok () := by
  obtain ⟨recurrence, schedule, reads⟩ := Outcome.bind_eq_ok_iff.mp h
  obtain ⟨limit, months, reads⟩ := Outcome.bind_eq_ok_iff.mp reads
  obtain ⟨zone, named, reads⟩ := Outcome.bind_eq_ok_iff.mp reads
  obtain ⟨time, clock, reads⟩ := Outcome.bind_eq_ok_iff.mp reads
  obtain ⟨length, lasts, reads⟩ := Outcome.bind_eq_ok_iff.mp reads
  obtain ⟨anchor, found, -⟩ := Outcome.bind_eq_ok_iff.mp reads
  obtain ⟨p⟩ : Nonempty (Parts almanac d window seasons) :=
    ⟨⟨recurrence, limit, zone, time, length, anchor, schedule, months, named, clock, lasts, found⟩⟩
  rw [p.materializeBy_eq] at h
  match check : Rule.checkBy almanac.expand p.rule p.start with
  | .error fault =>
      rw [check] at h
      cases h
  | .ok () =>
      rw [check] at h
      exact ⟨p, (Except.ok.inj h).symm, check⟩

/-- An event in Nuuk that has neither months nor a season of its own. -/
def inNuuk (schedule startTime : String) : Definition :=
  { name := "jam"
    friendlyName := none
    description := none
    schedule := schedule
    timezone := "America/Nuuk"
    duration := "PT2H"
    startTime := startTime
    location := none
    url := none
    seasonal := none
    months := none
    tags := [] }

/-- From 2022-01-01 to 2022-12-31. -/
def in2022 : Window := ⟨⟨18993, by decide⟩, ⟨19357, by decide⟩, by decide⟩

/-- From 2024-01-01 to 2025-12-31. -/
def in2024And2025 : Window := ⟨⟨19723, by decide⟩, ⟨20453, by decide⟩, by decide⟩

theorem anchor_fourthSaturday :
    (Recurrence.yearly ⟨[4], by decide, by decide, by decide⟩ .saturday 3).anchor in2022 (.only [3])
      = .ok ⟨19077, by decide⟩ :=
  Outcome.eq_ok_of_toOption (by decide +kernel)

theorem anchor_fifthSaturday :
    (Recurrence.yearly Recurrence.fifthOnly .saturday 3).anchor in2024And2025 (.only [3])
      = .ok ⟨19812, by decide⟩ :=
  Outcome.eq_ok_of_toOption (by decide +kernel)

/-- The clocks of Nuuk skip the hour from 22:00 on 2022-03-26, so the event starts at 23:30. -/
def fourthSaturday :
    Parts .standard (inNuuk "4th Saturday of March" "22:30") in2022 .default where
  recurrence := .yearly ⟨[4], by decide, by decide, by decide⟩ .saturday 3
  limit := .only [3]
  zone := Zone.nuuk "America/Nuuk"
  time := ⟨22, 30, 0, by decide⟩
  length := ⟨0, 0, 2, 0, 0⟩
  anchor := ⟨19077, by decide⟩
  reads_schedule := Phrase.read_eq_ok_iff.mpr (by decide +kernel)
  reads_limit := rfl
  reads_zone := zone_eq_ok_iff.mpr rfl
  reads_time := timeOfDay_eq_ok_iff.mpr (by decide +kernel)
  reads_length := length_eq_ok_iff.mpr (by decide +kernel)
  found := anchor_fourthSaturday

/-- The clocks of Nuuk skip the last hour of 2024-03-30, so the event starts on the next day. -/
def fifthSaturday :
    Parts .standard (inNuuk "5th Saturday of March" "23:00") in2024And2025 .default where
  recurrence := .yearly Recurrence.fifthOnly .saturday 3
  limit := .only [3]
  zone := Zone.nuuk "America/Nuuk"
  time := ⟨23, 0, 0, by decide⟩
  length := ⟨0, 0, 2, 0, 0⟩
  anchor := ⟨19812, by decide⟩
  reads_schedule := Phrase.read_eq_ok_iff.mpr (by decide +kernel)
  reads_limit := rfl
  reads_zone := zone_eq_ok_iff.mpr rfl
  reads_time := timeOfDay_eq_ok_iff.mpr (by decide +kernel)
  reads_length := length_eq_ok_iff.mpr (by decide +kernel)
  found := anchor_fifthSaturday

end Definition

end CalendarFeeds
