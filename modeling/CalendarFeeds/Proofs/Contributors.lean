import CalendarFeeds.Proofs.Aggregate
import CalendarFeeds.Zone.Table

/-! # Contributors — which calendars an aggregate names

    Events are filed under tags exactly as they are written, but contributors are named up to
    ASCII case.  So a calendar that brings an event to an aggregate is always named, other
    calendars are named for a tag that differs in case, and tags that differ in nothing else name
    the same calendars.  As with events, all is stated over the sources and external calendars
    themselves. -/

namespace CalendarFeeds

namespace Text

/-- Texts that are equal up to ASCII case are equal to the same others. -/
theorem sameIgnoringCase_congr {s t : String} (same : sameIgnoringCase s t = true) (r : String) :
    sameIgnoringCase r s = sameIgnoringCase r t := by
  simp only [sameIgnoringCase]
  rw [sameIgnoringCase_iff.mp same]

end Text

namespace Aggregate

-- ── Who is to be named ───────────────────────────────────────────────────────────

/-- Whether one of some tags counts and is equal to a tag up to ASCII case. -/
def Matches (tags : List String) (tag : String) : Prop :=
  ∃ t ∈ tags, isTag t = true ∧ Text.sameIgnoringCase t tag = true

/-- Whether a calendar of a source has a friendly name, and a tag like this one, be it its own or
    the source's. -/
def SourceNamed (sources : List Source) (tag name : String) : Prop :=
  ∃ s ∈ sources, ∃ c ∈ s.calendars, Matches (c.tags ++ s.tags) tag ∧ c.friendlyName = name

/-- Whether an enabled external calendar has a friendly name, and a tag like this one. -/
def ExternalNamed (externals : List ExternalCalendar) (tag name : String) : Prop :=
  ∃ x ∈ externals, x.disabled = false ∧ Matches x.tags tag ∧ x.friendlyName = name

theorem matches_of_mem {tags : List String} {tag : String} (counts : isTag tag = true)
    (carried : tag ∈ tags) : Matches tags tag :=
  ⟨tag, carried, counts, Text.sameIgnoringCase_self tag⟩

/-- Blanks and repeats make no difference to what effective tags mention. -/
theorem mentions_mergeTags_iff {own inherited : List String} {tag : String} :
    mentions (mergeTags own inherited) tag = true ↔ Matches (own ++ inherited) tag := by
  simp only [mentions, Matches]
  rw [List.any_eq_true]
  refine exists_congr fun t => ?_
  rw [mem_mergeTags_iff, List.mem_append, and_comm (a := isTag t = true), and_assoc]

-- ── The names of an aggregate ────────────────────────────────────────────────────

section Listed

variable {sources : List Source} {externals : List ExternalCalendar} {a : Aggregate}

/-- The source names of an aggregate are those of the calendars whose tags mention its tag, in
    ascending order. -/
theorem sources_of_mem (listed : a ∈ all sources externals) :
    a.sources = ascending (((tagSources sources).filter fun c => mentions c.tags a.tag).map
      (·.calendar.friendlyName)) := by
  obtain ⟨name, eq⟩ := eq_ofTag_of_mem listed
  exact congrArg Aggregate.sources eq

theorem externals_of_mem (listed : a ∈ all sources externals) :
    a.externals = ascending (((tagExternals externals).filter fun c => mentions c.tags a.tag).map
      (·.calendar.friendlyName)) := by
  obtain ⟨name, eq⟩ := eq_ofTag_of_mem listed
  exact congrArg Aggregate.externals eq

/-- A source name is listed exactly when the input names it under the tag. -/
theorem mem_sources_iff (listed : a ∈ all sources externals) {name : String} :
    name ∈ a.sources ↔ SourceNamed sources a.tag name := by
  rw [sources_of_mem listed, mem_ascending, List.mem_map]
  constructor
  · rintro ⟨tagged, here, rfl⟩
    obtain ⟨kept, mentioned⟩ := List.mem_filter.mp here
    obtain ⟨s, hs, own⟩ := List.mem_flatMap.mp kept
    obtain ⟨c, hc, rfl⟩ := List.mem_map.mp own
    exact ⟨s, hs, c, hc, mentions_mergeTags_iff.mp mentioned, rfl⟩
  · rintro ⟨s, hs, c, hc, like_, rfl⟩
    refine ⟨⟨s, c, mergeTags c.tags s.tags⟩, List.mem_filter.mpr ⟨?_, ?_⟩, rfl⟩
    · exact List.mem_flatMap.mpr ⟨s, hs, List.mem_map.mpr ⟨c, hc, rfl⟩⟩
    · exact mentions_mergeTags_iff.mpr like_

theorem mem_externals_iff (listed : a ∈ all sources externals) {name : String} :
    name ∈ a.externals ↔ ExternalNamed externals a.tag name := by
  rw [externals_of_mem listed, mem_ascending, List.mem_map]
  constructor
  · rintro ⟨tagged, here, rfl⟩
    obtain ⟨kept, mentioned⟩ := List.mem_filter.mp here
    obtain ⟨x, enabled, rfl⟩ := List.mem_map.mp kept
    obtain ⟨hx, able⟩ := List.mem_filter.mp enabled
    have like_ := mentions_mergeTags_iff.mp mentioned
    rw [List.append_nil] at like_
    exact ⟨x, hx, (Bool.not_eq_true' _).mp able, like_, rfl⟩
  · rintro ⟨x, hx, able, like_, rfl⟩
    refine ⟨⟨x, mergeTags x.tags []⟩, List.mem_filter.mpr ⟨?_, ?_⟩, rfl⟩
    · exact List.mem_map.mpr ⟨x, List.mem_filter.mpr ⟨hx, (Bool.not_eq_true' _).mpr able⟩, rfl⟩
    · exact mentions_mergeTags_iff.mpr (by rwa [List.append_nil])

/-- Aggregates whose tags differ in case alone name the same contributors. -/
theorem contributors_congr {b : Aggregate} (ha : a ∈ all sources externals)
    (hb : b ∈ all sources externals) (same : Text.sameIgnoringCase a.tag b.tag = true) :
    a.sources = b.sources ∧ a.externals = b.externals := by
  have agree : ∀ tags, mentions tags a.tag = mentions tags b.tag := by
    intro tags
    simp only [mentions, Text.sameIgnoringCase_congr same]
  rw [sources_of_mem ha, sources_of_mem hb, externals_of_mem ha, externals_of_mem hb]
  simp only [agree, and_self]

end Listed

/-- **WHOM AN AGGREGATE NAMES**: the calendars with a tag like its own, each name once and in
    ascending order of bytes.  All that supply its events are among them. -/
structure NamesContributors (sources : List Source) (externals : List ExternalCalendar)
    (a : Aggregate) : Prop where
  sourcesAscend : a.sources.Pairwise fun s t => Text.bytes s < Text.bytes t
  externalsAscend : a.externals.Pairwise fun s t => Text.bytes s < Text.bytes t
  named : ∀ name, name ∈ a.sources ↔ SourceNamed sources a.tag name
  namedExternals : ∀ name, name ∈ a.externals ↔ ExternalNamed externals a.tag name
  /-- Every event comes from some calendar that carries the tag. -/
  supplied : ∀ e ∈ a.events,
    (∃ s ∈ sources, ∃ c ∈ s.calendars, (a.tag ∈ c.tags ∨ a.tag ∈ s.tags) ∧ e ∈ c.events)
      ∨ ∃ x ∈ externals, x.disabled = false ∧ a.tag ∈ x.tags ∧ e ∈ x.events
  /-- Every calendar that carries the tag is named. -/
  suppliers : ∀ s ∈ sources, ∀ c ∈ s.calendars, a.tag ∈ c.tags ∨ a.tag ∈ s.tags →
    c.friendlyName ∈ a.sources
  externalSuppliers : ∀ x ∈ externals, x.disabled = false → a.tag ∈ x.tags →
    x.friendlyName ∈ a.externals

/-- Each aggregate by itself names its contributors. -/
theorem namesContributors_of_mem {sources : List Source} {externals : List ExternalCalendar}
    {a : Aggregate} (listed : a ∈ all sources externals) :
    a.NamesContributors sources externals where
  sourcesAscend := by
    rw [sources_of_mem listed]
    exact pairwise_bytes_ascending _
  externalsAscend := by
    rw [externals_of_mem listed]
    exact pairwise_bytes_ascending _
  named _ := mem_sources_iff listed
  namedExternals _ := mem_externals_iff listed
  supplied _ he := mem_eventsUnder_iff.mp (mem_eventsUnder_of_mem_events listed he)
  suppliers s hs c hc carried := by
    have like_ := matches_of_mem (carried_of_mem listed).1 (List.mem_append.mpr carried)
    exact (mem_sources_iff listed).mpr ⟨s, hs, c, hc, like_, rfl⟩
  externalSuppliers x hx able carried := by
    have like_ := matches_of_mem (carried_of_mem listed).1 carried
    exact (mem_externals_iff listed).mpr ⟨x, hx, able, like_, rfl⟩

/-- **CONTRIBUTORS UP TO CASE**: every aggregate names the calendars with a tag like its own, and
    aggregates whose tags differ in case alone name the same ones. -/
theorem all_namesContributors (sources : List Source) (externals : List ExternalCalendar) :
    (∀ a ∈ all sources externals, a.NamesContributors sources externals)
      ∧ ∀ a ∈ all sources externals, ∀ b ∈ all sources externals,
          Text.sameIgnoringCase a.tag b.tag = true
            → a.sources = b.sources ∧ a.externals = b.externals :=
  ⟨fun _ => namesContributors_of_mem, fun _ ha _ hb => contributors_congr ha hb⟩

/-- An event at the turn of the year 2024, in Eastern Standard Time. -/
def newYear (id summary : String) : Event :=
  { id := id
    summary := summary
    location := none
    url := none
    description := none
    start := ⟨1704085200, false, Zone.fixed "EST" Zone.easternStandard⟩
    length := 7200000
    rule := none
    tags := [] }

/-- Two calendars whose tags differ in case alone; one of them also has a blank tag. -/
def venue : Source :=
  { name := "venue"
    friendlyName := "Venue"
    tags := []
    calendars :=
      [⟨"quiet", "Quiet hall", ["music", " "], [newYear "q1" "Quartet"], []⟩,
        ⟨"loud", "Loud hall", ["Music"], [newYear "l1" "Brass"], []⟩] }

/-- A disabled calendar with the same tag in capitals. -/
def radio : ExternalCalendar :=
  { name := "radio"
    friendlyName := "Radio"
    url := "https://radio.example/"
    infoUrl := none
    description := none
    disabled := true
    tags := ["MUSIC"]
    events := [newYear "r1" "Concert"] }

/-- Both halls are named under either tag, and the disabled calendar under none. -/
theorem all_namesContributors_two_halls :
    ∃ loud quiet : Aggregate, all [venue] [radio] = [loud, quiet]
      ∧ loud.tag = "Music" ∧ quiet.tag = "music"
      ∧ loud.events = [newYear "l1" "Brass"] ∧ quiet.events = [newYear "q1" "Quartet"]
      ∧ loud.sources = ["Loud hall", "Quiet hall"]
      ∧ loud.NamesContributors [venue] [radio] ∧ quiet.NamesContributors [venue] [radio]
      ∧ quiet.sources = loud.sources ∧ quiet.externals = loud.externals := by
  have listed : all [venue] [radio]
      = [⟨"tag-music", "Music", "Music", [newYear "l1" "Brass"], ["Loud hall", "Quiet hall"], []⟩,
        ⟨"tag-music-2", "music", "music", [newYear "q1" "Quartet"],
          ["Loud hall", "Quiet hall"], []⟩] := by
    decide +kernel
  obtain ⟨names, case⟩ := all_namesContributors [venue] [radio]
  rw [listed] at names case
  refine ⟨_, _, listed, rfl, rfl, rfl, rfl, rfl, names _ (by simp), names _ (by simp), ?_⟩
  exact case _ (by simp) _ (by simp) (by decide)

end Aggregate

end CalendarFeeds
