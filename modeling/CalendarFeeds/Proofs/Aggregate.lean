import CalendarFeeds.Aggregate.Basic
import CalendarFeeds.Proofs.ByteOrder
import Mathlib.Data.List.Sort

/-! # Aggregates — every event under each of its tags

    A calendar carries the tags of its own and those of its source; only blank ones do not count.
    The aggregates are one for each tag that some calendar carries, and an aggregate has the
    events of the calendars that carry its tag, in their order, each identifier once.  Both are
    stated over the sources and external calendars themselves, without their effective tags. -/

namespace CalendarFeeds

-- ── Ascending texts ──────────────────────────────────────────────────────────────

theorem pairwise_ascending_texts (texts : List String) : (ascending texts).Pairwise (· < ·) :=
  pairwise_ascending (fun _ _ _ => lt_trans)
    (fun _ _ ne ge => lt_of_le_of_ne (not_lt.mp ge) (Ne.symm ne)) texts

/-- Sorted texts ascend by their bytes. -/
theorem pairwise_bytes_ascending (texts : List String) :
    (ascending texts).Pairwise fun s t => Text.bytes s < Text.bytes t :=
  (pairwise_ascending_texts texts).imp Text.bytes_lt_bytes_iff.mpr

/-- Sorted lists with the same members are the same list. -/
theorem ascending_eq_of_mem_iff {xs ys : List String}
    (same : ∀ s, s ∈ ascending xs ↔ s ∈ ascending ys) : ascending xs = ascending ys :=
  (pairwise_ascending_texts xs).eq_of_mem_iff (pairwise_ascending_texts ys) same

-- ── Effective tags ───────────────────────────────────────────────────────────────

/-- Merging keeps the tags that count, from either of the two lists, and adds none. -/
theorem mem_mergeTags_iff {own inherited : List String} {tag : String} :
    tag ∈ mergeTags own inherited ↔ isTag tag = true ∧ (tag ∈ own ∨ tag ∈ inherited) := by
  have once : tag ∈ mergeTags own inherited ↔ tag ∈ (own ++ inherited).filter isTag := by
    constructor
    · intro kept
      exact List.mem_of_find?_eq_some (mem_distinctBy_iff.mp kept)
    · intro here
      obtain ⟨first, kept, same⟩ : ∃ other ∈ mergeTags own inherited, id other = id tag :=
        exists_mem_distinctBy here
      obtain rfl : first = tag := same
      exact kept
  rw [once, List.mem_filter, List.mem_append]
  exact And.comm

/-- The events of the calendars of a source that carry a tag, be it theirs or the source's. -/
def Source.eventsUnder (s : Source) (tag : String) : List Event :=
  (s.calendars.filter fun c => tag ∈ c.tags ∨ tag ∈ s.tags).flatMap (·.events)

/-- The events of an external calendar, if it is enabled and carries a tag. -/
def ExternalCalendar.eventsUnder (x : ExternalCalendar) (tag : String) : List Event :=
  if x.disabled = false ∧ tag ∈ x.tags then x.events else []

namespace Aggregate

/-- The events of all calendars that carry a tag, those of sources first. -/
def eventsUnder (sources : List Source) (externals : List ExternalCalendar) (tag : String) :
    List Event :=
  sources.flatMap (·.eventsUnder tag) ++ externals.flatMap (·.eventsUnder tag)

/-- Whether a tag counts and some calendar carries it: one of a source, or an enabled external
    one. -/
def Carried (sources : List Source) (externals : List ExternalCalendar) (tag : String) : Prop :=
  isTag tag = true
    ∧ ((∃ s ∈ sources, ∃ c ∈ s.calendars, tag ∈ c.tags ∨ tag ∈ s.tags)
      ∨ ∃ x ∈ externals, x.disabled = false ∧ tag ∈ x.tags)

/-- An effective tag is one that an enabled calendar carries or inherits. -/
theorem mem_allTags_iff {sources : List Source} {externals : List ExternalCalendar}
    {tag : String} :
    tag ∈ allTags (tagSources sources) (tagExternals externals)
      ↔ Carried sources externals tag := by
  simp only [allTags]
  rw [mem_ascending, List.mem_append]
  constructor
  · rintro (here | here)
    · obtain ⟨tagged, listed, mem⟩ := List.mem_flatMap.mp here
      obtain ⟨s, hs, own⟩ := List.mem_flatMap.mp listed
      obtain ⟨c, hc, rfl⟩ := List.mem_map.mp own
      obtain ⟨counts, carried⟩ := mem_mergeTags_iff.mp mem
      exact ⟨counts, .inl ⟨s, hs, c, hc, carried⟩⟩
    · obtain ⟨tagged, listed, mem⟩ := List.mem_flatMap.mp here
      obtain ⟨x, enabled, rfl⟩ := List.mem_map.mp listed
      obtain ⟨hx, able⟩ := List.mem_filter.mp enabled
      obtain ⟨counts, carried⟩ := mem_mergeTags_iff.mp mem
      refine ⟨counts, .inr ⟨x, hx, (Bool.not_eq_true' _).mp able, ?_⟩⟩
      exact carried.resolve_right List.not_mem_nil
  · rintro ⟨counts, ⟨s, hs, c, hc, carried⟩ | ⟨x, hx, able, carried⟩⟩
    · exact .inl (List.mem_flatMap.mpr ⟨_, List.mem_flatMap.mpr
        ⟨s, hs, List.mem_map.mpr ⟨c, hc, rfl⟩⟩, mem_mergeTags_iff.mpr ⟨counts, carried⟩⟩)
    · exact .inr (List.mem_flatMap.mpr ⟨_, List.mem_map.mpr
        ⟨x, List.mem_filter.mpr ⟨hx, (Bool.not_eq_true' _).mpr able⟩, rfl⟩,
        mem_mergeTags_iff.mpr ⟨counts, .inl carried⟩⟩)

-- ── Events ───────────────────────────────────────────────────────────────────────

/-- The events under a tag are those of the calendars that carry it: through themselves, through
    their source, or as enabled external calendars. -/
theorem mem_eventsUnder_iff {sources : List Source} {externals : List ExternalCalendar}
    {tag : String} {e : Event} :
    e ∈ eventsUnder sources externals tag
      ↔ (∃ s ∈ sources, ∃ c ∈ s.calendars, (tag ∈ c.tags ∨ tag ∈ s.tags) ∧ e ∈ c.events)
        ∨ ∃ x ∈ externals, x.disabled = false ∧ tag ∈ x.tags ∧ e ∈ x.events := by
  have ofSource : ∀ s : Source, e ∈ s.eventsUnder tag
      ↔ ∃ c ∈ s.calendars, (tag ∈ c.tags ∨ tag ∈ s.tags) ∧ e ∈ c.events := by
    intro s
    simp only [Source.eventsUnder, List.mem_flatMap, List.mem_filter, decide_eq_true_iff,
      and_assoc]
  have ofExternal : ∀ x : ExternalCalendar, e ∈ x.eventsUnder tag
      ↔ x.disabled = false ∧ tag ∈ x.tags ∧ e ∈ x.events := by
    intro x
    simp only [ExternalCalendar.eventsUnder]
    rw [List.mem_ite_nil_right, and_assoc]
  simp only [eventsUnder]
  simp only [List.mem_append, List.mem_flatMap, ofSource, ofExternal]

/-- For a tag that counts, effective tags say which calendars carry it. -/
theorem flatMap_tagSources {sources : List Source} {tag : String} (counts : isTag tag = true) :
    ((tagSources sources).filter fun c => c.tags.contains tag).flatMap (·.calendar.events)
      = sources.flatMap (·.eventsUnder tag) := by
  simp only [tagSources]
  rw [List.filter_flatMap, List.flatMap_assoc]
  refine List.flatMap_congr fun s _ => ?_
  simp only [Source.tagged, Source.eventsUnder]
  rw [List.filter_map, List.flatMap_map]
  congr 1
  refine List.filter_congr fun c _ => ?_
  show (mergeTags c.tags s.tags).contains tag = _
  rw [Bool.eq_iff_iff, List.contains_iff_mem, mem_mergeTags_iff, decide_eq_true_iff]
  exact ⟨fun here => here.2, fun carried => ⟨counts, carried⟩⟩

/-- Filtering the external calendars by a tag that counts finds the events declared under it. -/
theorem flatMap_tagExternals {externals : List ExternalCalendar} {tag : String}
    (counts : isTag tag = true) :
    ((tagExternals externals).filter fun c => c.tags.contains tag).flatMap (·.calendar.events)
      = externals.flatMap (·.eventsUnder tag) := by
  induction externals with
  | nil => rfl
  | cons x externals ih =>
      have carried : (mergeTags x.tags []).contains tag = decide (tag ∈ x.tags) := by
        rw [Bool.eq_iff_iff, List.contains_iff_mem, mem_mergeTags_iff, decide_eq_true_iff]
        exact ⟨fun here => here.2.resolve_right List.not_mem_nil,
          fun own => ⟨counts, .inl own⟩⟩
      rw [List.flatMap_cons, ← ih]
      simp only [tagExternals, ExternalCalendar.eventsUnder]
      by_cases able : x.disabled = true
      · rw [List.filter_cons_of_neg (by simp [able]), if_neg (by simp [able])]
        rfl
      · rw [List.filter_cons_of_pos (by simp [able]), List.map_cons]
        by_cases own : tag ∈ x.tags
        · rw [List.filter_cons_of_pos (by simp only [carried, own, decide_true]),
            if_pos ⟨Bool.eq_false_iff.mpr able, own⟩]
          rfl
        · rw [List.filter_cons_of_neg (by simp only [carried, own, decide_false]; simp),
            if_neg fun both => own both.2]
          rfl

/-- The events of an aggregate, read off the input: the first event of each id under the tag. -/
theorem eventsTagged_eq {sources : List Source} {externals : List ExternalCalendar}
    {tag : String} (counts : isTag tag = true) :
    eventsTagged (tagSources sources) (tagExternals externals) tag
      = distinctBy Event.id (eventsUnder sources externals tag) := by
  simp only [eventsTagged, eventsUnder]
  rw [flatMap_tagSources counts, flatMap_tagExternals counts]

-- ── The aggregates ───────────────────────────────────────────────────────────────

/-- Every aggregate belongs to a tag and has the name that its place in the order gives. -/
theorem all_eq_map_zip (sources : List Source) (externals : List ExternalCalendar) :
    all sources externals
      = ((allTags (tagSources sources) (tagExternals externals)).zip
          (Naming.assign ""
            ((allTags (tagSources sources) (tagExternals externals)).map stem))).map
        fun entry => ofTag (tagSources sources) (tagExternals externals) entry.1 entry.2 :=
  List.map_uncurry_zip_eq_zipWith.symm

/-- There is one aggregate for each effective tag, in the order of the tags. -/
theorem map_tag_all (sources : List Source) (externals : List ExternalCalendar) :
    (all sources externals).map (·.tag)
      = allTags (tagSources sources) (tagExternals externals) := by
  rw [all_eq_map_zip, List.map_map]
  refine List.map_fst_zip ?_
  rw [Naming.length_assign, List.length_map]

/-- Their names are assigned to the stems of the effective tags, in that order. -/
theorem map_name_all (sources : List Source) (externals : List ExternalCalendar) :
    (all sources externals).map (·.name)
      = Naming.assign "" ((allTags (tagSources sources) (tagExternals externals)).map stem) := by
  rw [all_eq_map_zip, List.map_map]
  refine List.map_snd_zip ?_
  rw [Naming.length_assign, List.length_map]

/-- An aggregate is built from its own tag: only its name depends on the other tags. -/
theorem eq_ofTag_of_mem {sources : List Source} {externals : List ExternalCalendar}
    {a : Aggregate} (listed : a ∈ all sources externals) :
    ∃ name, a = ofTag (tagSources sources) (tagExternals externals) a.tag name := by
  rw [all_eq_map_zip] at listed
  obtain ⟨entry, -, rfl⟩ := List.mem_map.mp listed
  exact ⟨entry.2, rfl⟩

/-- The tags of the aggregates are those that some calendar carries. -/
theorem mem_map_tag_all_iff {sources : List Source} {externals : List ExternalCalendar}
    {tag : String} :
    tag ∈ (all sources externals).map (·.tag) ↔ Carried sources externals tag := by
  rw [map_tag_all]
  exact mem_allTags_iff

theorem carried_of_mem {sources : List Source} {externals : List ExternalCalendar}
    {a : Aggregate} (listed : a ∈ all sources externals) : Carried sources externals a.tag :=
  mem_map_tag_all_iff.mp (List.mem_map.mpr ⟨a, listed, rfl⟩)

/-- The tags of the aggregates ascend in the order of their bytes. -/
theorem pairwise_tag_all (sources : List Source) (externals : List ExternalCalendar) :
    ((all sources externals).map (·.tag)).Pairwise
      fun a b => Text.bytes a < Text.bytes b := by
  rw [map_tag_all]
  exact pairwise_bytes_ascending _

/-- Each aggregate holds the first event of each id among those declared under its tag. -/
theorem events_of_mem {sources : List Source} {externals : List ExternalCalendar}
    {a : Aggregate} (listed : a ∈ all sources externals) :
    a.events = distinctBy Event.id (eventsUnder sources externals a.tag) := by
  obtain ⟨name, eq⟩ := eq_ofTag_of_mem listed
  rw [← eventsTagged_eq (carried_of_mem listed).1, eq]
  rfl

theorem mem_eventsUnder_of_mem_events {sources : List Source} {externals : List ExternalCalendar}
    {a : Aggregate} (listed : a ∈ all sources externals) {e : Event} (he : e ∈ a.events) :
    e ∈ eventsUnder sources externals a.tag := by
  rw [events_of_mem listed] at he
  exact List.mem_of_find?_eq_some (mem_distinctBy_iff.mp he)

/-- **ONE AGGREGATE FOR EVERY TAG**: the tags ascend by their bytes and are those that calendars
    carry.  An aggregate has the events of the calendars with its tag, of each identifier the
    first: none of them is lost, and no other gets in. -/
theorem all_tags_and_events (sources : List Source) (externals : List ExternalCalendar) :
    ((all sources externals).map (·.tag)).Pairwise (fun a b => Text.bytes a < Text.bytes b)
      ∧ (∀ tag, tag ∈ (all sources externals).map (·.tag) ↔ Carried sources externals tag)
      ∧ ∀ a ∈ all sources externals,
          a.events
              = (eventsUnder sources externals a.tag).eraseDupsBy (fun e f => e.id == f.id)
            ∧ (a.events.map (·.id)).Nodup
            ∧ (∀ e, e ∈ a.events
              ↔ (eventsUnder sources externals a.tag).find? (fun f => f.id == e.id) = some e)
            ∧ (∀ e, e ∈ eventsUnder sources externals a.tag → ∃ f ∈ a.events, f.id = e.id)
            ∧ ∀ e ∈ a.events,
              (∃ s ∈ sources, ∃ c ∈ s.calendars,
                  (a.tag ∈ c.tags ∨ a.tag ∈ s.tags) ∧ e ∈ c.events)
                ∨ ∃ x ∈ externals, x.disabled = false ∧ a.tag ∈ x.tags ∧ e ∈ x.events := by
  refine ⟨pairwise_tag_all sources externals, fun _ => mem_map_tag_all_iff,
    fun a listed => ?_⟩
  rw [events_of_mem listed]
  refine ⟨distinctBy_eq_eraseDupsBy _ _, nodup_distinctFrom _ _ _,
    fun _ => mem_distinctBy_iff, fun e here => ?_, fun e kept => ?_⟩
  · exact exists_mem_distinctBy here
  · exact mem_eventsUnder_iff.mp (List.mem_of_find?_eq_some (mem_distinctBy_iff.mp kept))

end Aggregate

end CalendarFeeds
