import CalendarFeeds.Proofs.DurationForms
import CalendarFeeds.Proofs.EventProperties
import CalendarFeeds.Proofs.Occurrences

/-! # Event lengths — the duration that a feed gives

    The length of an event is the number of milliseconds that its definition's duration comes to.
    A feed writes it as days, hours, minutes and seconds.  All fields of a duration at their
    greatest come to less than 2^52 seconds, so the numbers on this way have room in 64 bits.  The
    field of days does not have it: from 2^32 days on the days that are written stay at the
    greatest number, and only the time of day is kept. -/

namespace CalendarFeeds

namespace Duration

/-- As many seconds as all fields together can come to. -/
theorem totalSeconds_le (d : Duration) : d.totalSeconds ≤ 694861 * maxField := by
  have weeks := toNat_le_maxField d.weeks
  have days := toNat_le_maxField d.days
  have hours := toNat_le_maxField d.hours
  have minutes := toNat_le_maxField d.minutes
  have seconds := toNat_le_maxField d.seconds
  simp only [totalSeconds]
  omega

theorem ofMilliseconds_thousand (total : Nat) :
    ofMilliseconds (1000 * (total : Int)) = ofSeconds total := by
  rw [ofMilliseconds, Int.mul_ediv_cancel_left _ (by decide), Int.toNat_natCast]

end Duration

open ICalendar

/-- The duration that a component gives. -/
def ICalendar.Component.duration? (c : Component) : Option Duration :=
  match c.property? "DURATION" with
  | some p => Duration.ofText? (String.ofList p.value.content)
  | none => none

/-- The duration of an event reads back as its length in whole seconds. -/
theorem Event.duration?_component (e : Event) :
    e.component.duration? = some (Duration.ofMilliseconds e.length) := by
  have listed : ⟨"DURATION", [], .raw (Duration.ofMilliseconds e.length).text⟩ ∈ e.properties :=
    mem_properties (by simp)
  have found := property?_of_mem listed
  have content := (Duration.ofMilliseconds e.length).plain_text.stripControls_eq
  simp only [Component.duration?, found, Value.content, content, String.ofList_toList]
  exact Duration.ofText?_text (.inl rfl)

namespace Definition

/-- **THE DURATION IN A FEED**: no number on the way to it is too large, and it comes to as many
    seconds as the duration of the definition, but for days beyond the greatest number of
    them. -/
theorem duration_of_materializeBy {almanac : Almanac} {d : Definition} {window : Window}
    {seasons : SeasonTable} {e : Event} (ok : d.materializeBy almanac window seasons = .ok e) :
    ∃ asked written, Duration.ofText? d.duration = some asked
      ∧ e.length = 1000 * asked.totalSeconds ∧ e.length ≤ 9223372036854775807
      ∧ e.component.duration? = some written
      ∧ written.totalSeconds
          = 86400 * min (asked.totalSeconds / 86400) 4294967295 + asked.totalSeconds % 86400
      ∧ (written.totalSeconds = asked.totalSeconds ↔ asked.totalSeconds < 86400 * 2 ^ 32) := by
  obtain ⟨p, rfl, -⟩ := exists_parts_of_materializeBy ok
  have length : p.event.length = 1000 * (p.length.totalSeconds : Int) := rfl
  have small := p.length.totalSeconds_le
  refine ⟨p.length, .ofSeconds p.length.totalSeconds, length_eq_ok_iff.mp p.reads_length, length,
    ?_, ?_, Duration.totalSeconds_ofSeconds _, Duration.totalSeconds_ofSeconds_iff⟩
  · rw [length]
    simp only [Duration.maxField] at small
    omega
  · rw [Event.duration?_component, length, Duration.ofMilliseconds_thousand]

/-- Two hours are given as two hours. -/
theorem duration_of_materializeBy_two_hours :
    everySunday.materializeBy .standard sinceTheChange .default = .ok afterChange.event
      ∧ ∃ written, afterChange.event.component.duration? = some written
        ∧ written.totalSeconds = 7200 := by
  have ok : everySunday.materializeBy .standard sinceTheChange .default = .ok afterChange.event :=
    afterChange.materialize_eq_ok (by decide +kernel)
  obtain ⟨asked, written, read, -, -, given, -, same⟩ := duration_of_materializeBy ok
  have hours : asked = ⟨0, 0, 2, 0, 0⟩ :=
    Option.some.inj (read.symm.trans (length_eq_ok_iff.mp afterChange.reads_length))
  have total : asked.totalSeconds = 7200 := by rw [hours]; decide
  exact ⟨ok, written, given, (same.mpr (by rw [total]; decide)).trans total⟩

/-- An event that lasts for 2^32 days and three more. -/
def forAges : Definition := { everySunday with duration := "P613566757W" }

def forAgesAfterChange : Parts .standard forAges sinceTheChange .default where
  recurrence := afterChange.recurrence
  limit := afterChange.limit
  zone := afterChange.zone
  time := afterChange.time
  length := ⟨613566757, 0, 0, 0, 0⟩
  anchor := afterChange.anchor
  reads_schedule := afterChange.reads_schedule
  reads_limit := afterChange.reads_limit
  reads_zone := afterChange.reads_zone
  reads_time := afterChange.reads_time
  reads_length := length_eq_ok_iff.mpr (by decide +kernel)
  found := afterChange.found

/-- The feed gives an event of 2^32 days and three more as long as the days have room for. -/
theorem materialize_shortens_forAges :
    ∃ e asked written, forAges.materialize sinceTheChange .default = .ok e
      ∧ Duration.ofText? forAges.duration = some asked
      ∧ e.component.duration? = some written
      ∧ asked.totalSeconds = 86400 * 4294967299 ∧ written.totalSeconds = 86400 * 4294967295 := by
  have length : forAgesAfterChange.event.length = 1000 * ((86400 * 4294967299 : Nat) : Int) := rfl
  refine ⟨forAgesAfterChange.event, ⟨613566757, 0, 0, 0, 0⟩, .ofSeconds (86400 * 4294967299),
    forAgesAfterChange.materialize_eq_ok (by decide +kernel),
    length_eq_ok_iff.mp forAgesAfterChange.reads_length, ?_, by decide, ?_⟩
  · rw [Event.duration?_component, length, Duration.ofMilliseconds_thousand]
  · exact Duration.totalSeconds_ofSeconds _

end Definition

end CalendarFeeds
