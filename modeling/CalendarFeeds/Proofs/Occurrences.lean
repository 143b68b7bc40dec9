import CalendarFeeds.Proofs.Materialize

/-! # Occurrences — at what time an event comes back

    A feed gives the start of an event as local time in a zone, and readers repeat that time on
    every later day of the rule.  So what a start in a gap is moved to becomes the time of all
    later occurrences, on days without a gap too: the event keeps the time that its definition
    asks for exactly if no gap changes the time of the start.

    The converse needs a later day on which both times are shown once.  There is one, as the
    schedule has no last day and each zone has a last transition. -/

namespace CalendarFeeds

/-- Whether clocks show an instant on a day at a time of day. -/
def Instant.IsAt (i : Instant) (day : Int) (time : TimeOfDay) : Prop :=
  i.shown = 86400 * day + time.seconds ∧ i.leap = time.isLeap

/-- **THE OCCURRENCES OF AN EVENT**, expanded as RFC 5545 has it: on the days of the rule, from the
    day of the start on, at the local time that the feed writes for the start, read in the zone
    that it names. -/
def Event.Occurs (e : Event) (day : Int) (i : Instant) : Prop :=
  ∃ r, e.rule = some r ∧ r.Recurs e.start day i

/-- The later occurrences are at a time of day, wherever clocks show that time exactly once. -/
def Event.KeepsTime (e : Event) (time : TimeOfDay) : Prop :=
  ∀ day i, e.Occurs day i → e.start.date < day
    → e.start.zone.ShowsOnce (86400 * day + time.seconds) → i.IsAt day time

theorem Instant.IsAt.clock {i : Instant} {day : Int} {time : TimeOfDay} (h : i.IsAt day time) :
    i.shown % 86400 = time.seconds := by
  have shown := h.1
  have := time.seconds_lt
  omega

/-- An event whose start is at a time of day has its later occurrences at it. -/
theorem Event.keepsTime_of_isAt {e : Event} {time : TimeOfDay}
    (start : e.start.IsAt e.start.date time) : e.KeepsTime time := by
  rintro day i ⟨r, -, recurs⟩ _ once
  have clock := start.clock
  refine ⟨?_, recurs.leap.trans start.2⟩
  rw [← clock]
  exact recurs.shown (by rwa [clock])

/-- An event that keeps a time of day starts at it, if its rule has days without end. -/
theorem Event.isAt_of_keepsTime {e : Event} {r : Rule} {time : TimeOfDay}
    (repeats : e.rule = some r) (endless : ∀ bound, ∃ day, bound ≤ day ∧ r.Generates day)
    (keeps : e.KeepsTime time) : e.start.IsAt e.start.date time := by
  obtain ⟨late, once⟩ := e.start.zone.exists_showsOnce_from
  obtain ⟨day, far, generated⟩ := endless (max (e.start.date + 1) (late / 86400 + 1))
  obtain ⟨i, recurs⟩ := Rule.Recurs.exists_of_generates generated
    (show e.start.date ≤ day by omega)
  -- on so late a day both the time of the start and the one asked for are shown once
  have here := recurs.shown (once _ (by omega))
  have asked := keeps day i ⟨r, repeats, recurs⟩ (by omega) (once _ (by omega))
  have clock := asked.clock
  refine ⟨?_, recurs.leap.symm.trans asked.2⟩
  simp only [Instant.date]
  omega

namespace Instant

/-- A local time that exists keeps its leap second. -/
theorem leap_ofShown {zone : Zone} {shown : Int} {leap : Bool} (exists_ : ¬ zone.Skips shown) :
    (ofShown zone shown leap).leap = leap := by
  simp only [ofShown]
  split
  · rfl
  · next missing => exact absurd (Zone.instants_eq_nil_iff.mp missing) exists_

theorem zone_ofShown (zone : Zone) (shown : Int) (leap : Bool) :
    (ofShown zone shown leap).zone = zone := by
  simp only [ofShown]
  split
  · rfl
  · simp only [inGap]
    split_ifs <;> rfl

/-- No instant is shown in a gap, not even the one that stands for it. -/
theorem shown_ofShown_ne {zone : Zone} {shown : Int} {leap : Bool} (gap : zone.Skips shown) :
    (ofShown zone shown leap).shown ≠ shown := by
  have never := gap (ofShown zone shown leap).utc
  simp only [Instant.shown, Instant.offset, Instant.reading]
  rw [zone_ofShown]
  exact never

end Instant

namespace Definition

namespace Parts

variable {almanac : Almanac} {d : Definition} {window : Window} {seasons : SeasonTable}

instance : Subsingleton (Parts almanac d window seasons) where
  allEq := by
    rintro ⟨r, l, z, t, len, a, hr, hl, hz, ht, hlen, ha⟩
      ⟨r', l', z', t', len', a', hr', hl', hz', ht', hlen', ha'⟩
    cases hr.symm.trans hr'
    cases hl.symm.trans hl'
    cases hz.symm.trans hz'
    cases ht.symm.trans ht'
    cases hlen.symm.trans hlen'
    cases ha.symm.trans ha'
    rfl

theorem zone_start (p : Parts almanac d window seasons) : p.start.zone = p.zone :=
  Instant.zone_ofShown _ _ _

/-- The local time at which the anchor's occurrence is to start. -/
def asked (p : Parts almanac d window seasons) : Int :=
  86400 * p.anchor.number + p.time.seconds

/-- The start lies in a gap of the zone, and moving it out of the gap changes its time of day. -/
def Shifts (p : Parts almanac d window seasons) : Prop :=
  p.zone.Skips p.asked ∧ ¬ p.start.IsAt p.start.date p.time

/-- A definition whose local time exists starts on the anchor's day at that time. -/
theorem isAt_of_not_skips {p : Parts almanac d window seasons} (shown : ¬ p.zone.Skips p.asked) :
    p.start.IsAt p.anchor.number p.time :=
  ⟨Instant.shown_ofShown shown, Instant.leap_ofShown shown⟩

/-- A start that is not shifted shows the definition's own time. -/
theorem not_shifts_iff {p : Parts almanac d window seasons} :
    ¬ p.Shifts ↔ p.start.IsAt p.start.date p.time := by
  constructor
  · intro stays
    by_contra other
    refine stays ⟨?_, other⟩
    by_contra shown
    have here := isAt_of_not_skips shown
    have clock := here.clock
    apply other
    refine ⟨?_, here.2⟩
    simp only [Instant.date]
    omega
  · rintro here ⟨-, other⟩
    exact other here

/-- A start that stays on the day of the anchor is at another time in every gap. -/
theorem shifts_iff_skips {p : Parts almanac d window seasons} (stays : ¬ p.Strays) :
    p.Shifts ↔ p.zone.Skips p.asked := by
  have same := p.not_strays_iff.mp stays
  refine ⟨fun shifts => shifts.1, fun gap => ⟨gap, fun here => ?_⟩⟩
  refine Instant.shown_ofShown_ne gap (here.1.trans ?_)
  rw [same]
  rfl

/-- The rule of a definition never ends. -/
theorem endless (p : Parts almanac d window seasons) (bound : Int) :
    ∃ day, bound ≤ day ∧ p.rule.Generates day := by
  obtain ⟨-, -, falls, -⟩ := Recurrence.anchor_spec p.found
  obtain ⟨day, far, here⟩ := Recurrence.exists_later_fallsOn falls bound
  exact ⟨day, far, (Recurrence.rule_generates_iff falls).mpr here⟩

/-- The event keeps the definition's time exactly when its first start was not shifted. -/
theorem keepsTime_iff (p : Parts almanac d window seasons) :
    p.event.KeepsTime p.time ↔ ¬ p.Shifts := by
  rw [not_shifts_iff]
  exact ⟨Event.isAt_of_keepsTime (e := p.event) rfl p.endless,
    Event.keepsTime_of_isAt (e := p.event)⟩

end Parts

/-- **WHAT A GAP DOES TO LATER OCCURRENCES**: an event keeps the time that its definition asks for
    exactly if no gap changes the time of its start, and every gap does that to a start which
    stays on its day. -/
theorem keepsTime_iff_of_materializeBy {almanac : Almanac} {d : Definition} {window : Window}
    {seasons : SeasonTable} {e : Event} (ok : d.materializeBy almanac window seasons = .ok e) :
    ∃ p : Parts almanac d window seasons, e = p.event
      ∧ (e.KeepsTime p.time ↔ ¬ p.Shifts)
      ∧ (¬ p.Strays → (p.Shifts ↔ p.zone.Skips (86400 * p.anchor.number + p.time.seconds))) := by
  obtain ⟨p, rfl, -⟩ := exists_parts_of_materializeBy ok
  exact ⟨p, rfl, p.keepsTime_iff, Parts.shifts_iff_skips⟩

/-- Half past two at night, every Sunday in Los Angeles. -/
def everySunday : Definition :=
  { name := "jam"
    friendlyName := none
    description := none
    schedule := "every Sunday"
    timezone := "America/Los_Angeles"
    duration := "PT2H"
    startTime := "02:30"
    location := none
    url := none
    seasonal := none
    months := none
    tags := [] }

/-- From 2024-03-04 to 2024-12-31: its first Sunday is the one on which clocks skip the hour from
    02:00. -/
def withTheChange : Window := ⟨⟨19786, by decide⟩, ⟨20088, by decide⟩, by decide⟩

/-- From 2024-03-11 to 2024-12-31, after the change. -/
def sinceTheChange : Window := ⟨⟨19793, by decide⟩, ⟨20088, by decide⟩, by decide⟩

def everySundayFrom {window : Window} (anchor : Date)
    (found : (Recurrence.weekly .sunday).anchor window .every = .ok anchor) :
    Parts .standard everySunday window .default where
  recurrence := .weekly .sunday
  limit := .every
  zone := Zone.losAngeles "America/Los_Angeles"
  time := ⟨2, 30, 0, by decide⟩
  length := ⟨0, 0, 2, 0, 0⟩
  anchor := anchor
  reads_schedule := Phrase.read_eq_ok_iff.mpr (by decide +kernel)
  reads_limit := rfl
  reads_zone := zone_eq_ok_iff.mpr rfl
  reads_time := timeOfDay_eq_ok_iff.mpr (by decide +kernel)
  reads_length := length_eq_ok_iff.mpr (by decide +kernel)
  found := found

def onChange : Parts .standard everySunday withTheChange .default :=
  everySundayFrom ⟨19792, by decide⟩ (Outcome.eq_ok_of_toOption (by decide +kernel))

def afterChange : Parts .standard everySunday sinceTheChange .default :=
  everySundayFrom ⟨19799, by decide⟩ (Outcome.eq_ok_of_toOption (by decide +kernel))

/-- First held on a Sunday without a gap, the event keeps its time. -/
theorem keepsTime_since_the_change :
    everySunday.materializeBy .standard sinceTheChange .default = .ok afterChange.event
      ∧ afterChange.event.KeepsTime ⟨2, 30, 0, by decide⟩ := by
  have ok : everySunday.materializeBy .standard sinceTheChange .default = .ok afterChange.event :=
    afterChange.materialize_eq_ok (by decide +kernel)
  obtain ⟨p, -, keeps, -⟩ := keepsTime_iff_of_materializeBy ok
  cases Subsingleton.elim p afterChange
  exact ⟨ok, keeps.mpr fun shifts => shifts.2 ⟨by decide +kernel, by decide +kernel⟩⟩

/-- First held on the Sunday of the change, when clocks skip half past two, the event is at half
    past three a week later too, on a day that has half past two. -/
theorem materialize_moves_every_sunday :
    ∃ e, everySunday.materialize withTheChange .default = .ok e
      ∧ everySunday.timeOfDay = .ok ⟨2, 30, 0, by decide⟩
      ∧ ¬ e.KeepsTime ⟨2, 30, 0, by decide⟩
      ∧ ∃ i, e.Occurs 19799 i ∧ i.IsAt 19799 ⟨3, 30, 0, by decide⟩ := by
  have starts : onChange.event.start.IsAt 19792 ⟨3, 30, 0, by decide⟩ :=
    ⟨by decide +kernel, by decide +kernel⟩
  have clock : onChange.event.start.shown % 86400 = 12600 := starts.clock
  have date : onChange.event.start.date = 19792 := by
    have shown : onChange.event.start.shown = 86400 * 19792 + 12600 := starts.1
    simp only [Instant.date]
    omega
  have listed : onChange.event.start.zone.instants (86400 * 19799 + 12600) = [1710671400] := by
    decide +kernel
  have asked : onChange.event.start.zone.instants (86400 * 19799 + 9000) = [1710667800] := by
    decide +kernel
  have generated : onChange.rule.Generates 19799 :=
    Rule.generates_weekly_iff.mpr (by decide)
  obtain ⟨i, recurs⟩ := Rule.Recurs.exists_of_generates generated
    (show onChange.event.start.date ≤ 19799 by omega)
  have moved : i.IsAt 19799 ⟨3, 30, 0, by decide⟩ := by
    have shown := recurs.shown (by
      rw [clock]
      exact Zone.showsOnce_of_instants listed)
    rw [clock] at shown
    exact ⟨shown, recurs.leap.trans starts.2⟩
  have occurs : onChange.event.Occurs 19799 i := ⟨onChange.rule, rfl, recurs⟩
  refine ⟨onChange.event, onChange.materialize_eq_ok (by decide +kernel), onChange.reads_time,
    fun keeps => ?_, i, occurs, moved⟩
  have kept := keeps 19799 i occurs (by omega) (Zone.showsOnce_of_instants asked)
  cases moved.clock.symm.trans kept.clock

end Definition

end CalendarFeeds
