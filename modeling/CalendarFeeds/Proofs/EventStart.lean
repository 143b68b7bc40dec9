import CalendarFeeds.Proofs.EventProperties
import CalendarFeeds.Proofs.Stamps

/-! # Event starts — what the start lines of an event say

    An event gives its start twice: as a time stamp in UTC, and as local time with the name of a
    zone.  The time stamp reads back as the start.  Local time has no offset, and RFC 5545
    (§3.3.5) reads it as the first instant at which the zone shows it.  So it reads back too,
    unless the start is the later of two instants shown alike: then it reads as the earlier one.

    Starts that are placed from a date and a time of day are never such later ones. -/

namespace CalendarFeeds

open ICalendar

-- ── Readers of a component ───────────────────────────────────────────────────────

namespace ICalendar

/-- The value of a parameter that a property has once and with one value. -/
def Property.parameter? (p : Property) (name : String) : Option String :=
  match p.parameters.filter fun q => Text.sameIgnoringCase q.name name with
  | [⟨_, [value]⟩] => some value
  | _ => none

theorem Property.parameter?_single (own name value : String) (v : Value) :
    Property.parameter? ⟨own, [⟨name, [value]⟩], v⟩ name = some value := by
  have same := Text.sameIgnoringCase_self name
  rw [Property.parameter?, List.filter_cons_of_pos (by exact same), List.filter_nil]

namespace Component

/-- The seconds in UTC that the time stamp of a component gives. -/
def stamp? (c : Component) : Option Int :=
  match c.property? "DTSTAMP" with
  | some p => readSeconds? ['Z'] p.value.content
  | none => none

/-- The name of a zone, and the seconds on its clocks, that a component gives for its start. -/
def localStart? (c : Component) : Option (String × Int) :=
  match c.property? "DTSTART" with
  | some p =>
    match p.parameter? "TZID", readSeconds? [] p.value.content with
    | some zone, some shown => some (zone, shown)
    | _, _ => none
  | none => none

/-- **THE START OF A COMPONENT**, read as RFC 5545 has it in the zones that the names stand
    for. -/
def StartsAt (zones : String → Option Zone) (c : Component) (utc : Int) : Prop :=
  ∃ name shown zone,
    c.localStart? = some (name, shown) ∧ zones name = some zone ∧ zone.Reads shown utc

end Component

end ICalendar

-- ── What an event writes ─────────────────────────────────────────────────────────

/-- An instant is the first of its kind exactly when it is the earliest that shows the same local
    time. -/
theorem Instant.isFirst_iff_isLeast {i : Instant} :
    i.IsFirst ↔ IsLeast {utc | utc + i.zone.offsetAt utc = i.shown} i.utc :=
  ⟨fun first => ⟨rfl, fun utc same => first utc same⟩, fun least _ same => least.2 same⟩

namespace Event

variable {e : Event}

/-- Within four-digit years, and without a leap second, the stamp is read back as the start. -/
theorem stamp?_component (whole : e.start.leap = false) (years : InFourDigits e.start.utc) :
    e.component.stamp? = some e.start.utc := by
  have listed : ⟨"DTSTAMP", [], .raw e.start.utcStamp⟩ ∈ e.properties :=
    mem_properties (by simp)
  have found := property?_of_mem listed
  have content : stripControls e.start.utcStamp.toList
      = (clockText e.start.utc false "" "T" "").toList ++ ['Z'] := by
    rw [e.start.plain_utcStamp.stripControls_eq, Instant.utcStamp, whole, String.toList_append]
    rfl
  have read := readSeconds?_clockText years ['Z']
  rw [← content] at read
  simp only [Component.stamp?, found]
  exact read

theorem localStart?_component (whole : e.start.leap = false)
    (years : InFourDigits e.start.shown) :
    e.component.localStart? = some (e.start.zone.name, e.start.shown) := by
  have listed : ⟨"DTSTART", [⟨"TZID", [e.start.zone.name]⟩], .raw e.start.localStamp⟩
      ∈ e.properties := mem_properties (by simp)
  have found := property?_of_mem listed
  have content : stripControls e.start.localStamp.toList
      = (clockText e.start.shown false "" "T" "").toList ++ [] := by
    rw [e.start.plain_localStamp.stripControls_eq, Instant.localStamp, whole, List.append_nil]
  have read := readSeconds?_clockText years []
  rw [← content] at read
  simp only [Component.localStart?, found, Property.parameter?_single, Value.content, read]

/-- The start line of an event is read in its own zone. -/
theorem startsAt_component_iff {zones : String → Option Zone}
    (known : zones e.start.zone.name = some e.start.zone) (whole : e.start.leap = false)
    (years : InFourDigits e.start.shown) {utc : Int} :
    e.component.StartsAt zones utc
      ↔ IsLeast {other | other + e.start.zone.offsetAt other = e.start.shown} utc := by
  have written := localStart?_component whole years
  have here : e.start.utc + e.start.zone.offsetAt e.start.utc = e.start.shown := rfl
  rw [← Zone.reads_iff_isLeast here]
  constructor
  · rintro ⟨name, shown, zone, line, named, reads⟩
    cases written.symm.trans line
    cases known.symm.trans named
    exact reads
  · intro reads
    exact ⟨_, _, _, written, known, reads⟩

/-- **WHAT THE START LINES SAY**: the time stamp is the start, and the local time is always read as
    some instant, which is the start exactly if no earlier one is shown alike. -/
theorem component_tells_start {zones : String → Option Zone} {e : Event}
    (known : zones e.start.zone.name = some e.start.zone) (whole : e.start.leap = false)
    (utcYears : InFourDigits e.start.utc) (localYears : InFourDigits e.start.shown) :
    e.component.stamp? = some e.start.utc
      ∧ (∃ first, IsLeast {utc | utc + e.start.zone.offsetAt utc = e.start.shown} first
        ∧ ∀ utc, e.component.StartsAt zones utc ↔ utc = first)
      ∧ (e.component.StartsAt zones e.start.utc ↔ e.start.IsFirst) := by
  refine ⟨stamp?_component whole utcYears, ?_, ?_⟩
  · obtain ⟨first, reads⟩ := e.start.zone.exists_reads e.start.shown
    have here : e.start.utc + e.start.zone.offsetAt e.start.utc = e.start.shown := rfl
    have least := (Zone.reads_iff_isLeast here).mp reads
    refine ⟨first, least, fun utc => ?_⟩
    rw [startsAt_component_iff known whole localYears]
    exact ⟨fun also => also.unique least, fun same => same ▸ least⟩
  · rw [startsAt_component_iff known whole localYears, Instant.isFirst_iff_isLeast]

/-- A jam in Los Angeles. -/
def jamAt (utc : Int) : Event :=
  { id := "jam"
    summary := "Jam"
    location := none
    url := none
    description := none
    start := ⟨utc, false, Zone.losAngeles "America/Los_Angeles"⟩
    length := 7200000
    rule := none
    tags := [] }

/-- On 2024-11-03 the clocks of Los Angeles show 01:30 twice, first at 08:30 UTC. -/
theorem isLeast_halfPastOne :
    IsLeast {utc | utc + (Zone.losAngeles "America/Los_Angeles").offsetAt utc = 1730597400}
      1730622600 := by
  have listed : (Zone.losAngeles "America/Los_Angeles").instants 1730597400
      = [1730622600, 1730626200] := by decide +kernel
  exact Zone.isLeast_of_instants listed

/-- A start at the first 01:30 of that night is told by both lines. -/
theorem component_tells_first_halfPastOne :
    Zone.ofName? (jamAt 1730622600).start.zone.name = some (jamAt 1730622600).start.zone
      ∧ (jamAt 1730622600).start.leap = false
      ∧ InFourDigits (jamAt 1730622600).start.utc ∧ InFourDigits (jamAt 1730622600).start.shown
      ∧ (jamAt 1730622600).component.stamp? = some 1730622600
      ∧ (jamAt 1730622600).component.StartsAt Zone.ofName? 1730622600 := by
  have known : Zone.ofName? (jamAt 1730622600).start.zone.name
      = some (jamAt 1730622600).start.zone := rfl
  have utcYears : InFourDigits (jamAt 1730622600).start.utc := by decide +kernel
  have shown : (jamAt 1730622600).start.shown = 1730597400 := by decide +kernel
  have localYears : InFourDigits (jamAt 1730622600).start.shown := by
    rw [shown]
    decide +kernel
  obtain ⟨stamp, -, start⟩ := component_tells_start known rfl utcYears localYears
  have first : (jamAt 1730622600).start.IsFirst := by
    rw [Instant.isFirst_iff_isLeast, shown]
    exact isLeast_halfPastOne
  exact ⟨known, rfl, utcYears, localYears, stamp, start.mpr first⟩

/-- A start at the second 01:30 of that night is told by its time stamp, but its local time is
    read as the first. -/
theorem component_loses_second_halfPastOne :
    Zone.ofName? (jamAt 1730626200).start.zone.name = some (jamAt 1730626200).start.zone
      ∧ (jamAt 1730626200).start.leap = false
      ∧ InFourDigits (jamAt 1730626200).start.utc ∧ InFourDigits (jamAt 1730626200).start.shown
      ∧ (jamAt 1730626200).component.stamp? = some 1730626200
      ∧ (jamAt 1730626200).component.StartsAt Zone.ofName? 1730622600
      ∧ ¬ (jamAt 1730626200).component.StartsAt Zone.ofName? 1730626200 := by
  have known : Zone.ofName? (jamAt 1730626200).start.zone.name
      = some (jamAt 1730626200).start.zone := rfl
  have utcYears : InFourDigits (jamAt 1730626200).start.utc := by decide +kernel
  have shown : (jamAt 1730626200).start.shown = 1730597400 := by decide +kernel
  have localYears : InFourDigits (jamAt 1730626200).start.shown := by
    rw [shown]
    decide +kernel
  refine ⟨known, rfl, utcYears, localYears, stamp?_component rfl utcYears, ?_, fun starts => ?_⟩
  · rw [startsAt_component_iff known rfl localYears, shown]
    exact isLeast_halfPastOne
  · rw [startsAt_component_iff known rfl localYears, shown] at starts
    cases starts.unique isLeast_halfPastOne

end Event

/-- **DEFINED EVENTS TELL THEIR START**: where transitions are 48 hours apart, the local time that
    an event of a definition gives for its start is read as its start, moved by a gap or not. -/
theorem Definition.startsAt_of_materializeBy {almanac : Almanac} {d : Definition}
    {window : Window} {seasons : SeasonTable} {e : Event} {zones : String → Option Zone}
    (ok : d.materializeBy almanac window seasons = .ok e) (spaced : e.start.zone.Spaced)
    (known : zones e.start.zone.name = some e.start.zone) (whole : e.start.leap = false)
    (years : InFourDigits e.start.shown) : e.component.StartsAt zones e.start.utc := by
  obtain ⟨p, rfl, -⟩ := exists_parts_of_materializeBy ok
  have zone : p.event.start.zone = p.zone := Instant.zone_ofLocal _ _ _
  have apart : p.zone.Spaced := by rwa [zone] at spaced
  have first : p.event.start.IsFirst := Instant.isFirst_ofLocal apart p.anchor p.time
  rw [Event.startsAt_component_iff known whole years]
  exact Instant.isFirst_iff_isLeast.mp first

end CalendarFeeds
