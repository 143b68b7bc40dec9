import CalendarFeeds.Proofs.Contributors
import Mathlib.Data.List.Perm.Basic

/-! # Reorderings — what aggregates owe to the order of their input

    Sources, calendars, events and tags are lists, and each of these may come in another order.
    Which tags are carried, by which calendars and with which events, does not depend on any
    order, and the tags and names of contributors are sorted before they are used.  So the
    aggregates are the same, numbered names included, and each has the same identifiers: order
    decides only how events follow each other and which record of an identifier comes first. -/

namespace CalendarFeeds

-- ── Lists in another order ───────────────────────────────────────────────────────

/-- Lists that agree item by item, as a relation asks, once one of them is put into another
    order. -/
def Reordered {α : Type} (R : α → α → Prop) (xs ys : List α) : Prop :=
  ∃ between, xs.Perm between ∧ List.Forall₂ R between ys

namespace Reordered

variable {α : Type} {R : α → α → Prop} {xs ys : List α}

/-- A reordering can be undone, as long as the relation between the elements can. -/
theorem symm (back : ∀ x y, R x y → R y x) (h : Reordered R xs ys) : Reordered R ys xs := by
  obtain ⟨between, perm, pairs⟩ := h
  obtain ⟨other, pairs', perm'⟩ := List.perm_comp_forall₂ perm pairs
  exact ⟨other, perm'.symm, (pairs'.imp back).flip⟩

/-- A permutation is a reordering that leaves the elements alone. -/
theorem of_perm (refl : ∀ x, R x x) (perm : xs.Perm ys) : Reordered R xs ys :=
  ⟨ys, perm, List.forall₂_same.mpr fun x _ => refl x⟩

/-- Every element has its counterpart. -/
theorem exists_of_mem (h : Reordered R xs ys) {x : α} (hx : x ∈ xs) : ∃ y ∈ ys, R x y := by
  obtain ⟨between, perm, pairs⟩ := h
  have moved := perm.mem_iff.mp hx
  clear perm hx
  induction pairs with
  | nil => cases moved
  | cons related _ ih =>
      rcases List.mem_cons.mp moved with rfl | later
      · exact ⟨_, List.mem_cons_self, related⟩
      · obtain ⟨y, hy, related⟩ := ih later
        exact ⟨y, List.mem_cons_of_mem _ hy, related⟩

end Reordered

/-- The same event with its tags in another order. -/
structure Event.Reorders (e f : Event) : Prop where
  rest : { e with tags := f.tags } = f
  tags : e.tags.Perm f.tags

/-- The same calendar with its tags and its events in another order. -/
structure SourceCalendar.Reorders (c d : SourceCalendar) : Prop where
  rest : { c with tags := d.tags, events := d.events } = d
  tags : c.tags.Perm d.tags
  events : Reordered Event.Reorders c.events d.events

/-- The same source with its tags and its calendars in another order. -/
structure Source.Reorders (s t : Source) : Prop where
  rest : { s with tags := t.tags, calendars := t.calendars } = t
  tags : s.tags.Perm t.tags
  calendars : Reordered SourceCalendar.Reorders s.calendars t.calendars

/-- The same external calendar with its tags and its events in another order. -/
structure ExternalCalendar.Reorders (x y : ExternalCalendar) : Prop where
  rest : { x with tags := y.tags, events := y.events } = y
  tags : x.tags.Perm y.tags
  events : Reordered Event.Reorders x.events y.events

theorem Event.Reorders.refl (e : Event) : e.Reorders e :=
  ⟨rfl, .refl _⟩

theorem SourceCalendar.Reorders.refl (c : SourceCalendar) : c.Reorders c :=
  ⟨rfl, .refl _, .of_perm Event.Reorders.refl (.refl _)⟩

theorem ExternalCalendar.Reorders.refl (x : ExternalCalendar) : x.Reorders x :=
  ⟨rfl, .refl _, .of_perm Event.Reorders.refl (.refl _)⟩

/-- Reordered tags leave an event's id. -/
theorem Event.Reorders.id_eq {e f : Event} (h : e.Reorders f) : e.id = f.id := by
  rw [← h.rest]

theorem Event.Reorders.symm {e f : Event} (h : e.Reorders f) : f.Reorders e :=
  ⟨by rw [← h.rest], h.tags.symm⟩

theorem SourceCalendar.Reorders.symm {c d : SourceCalendar} (h : c.Reorders d) : d.Reorders c :=
  ⟨by rw [← h.rest], h.tags.symm, h.events.symm fun _ _ => Event.Reorders.symm⟩

theorem Source.Reorders.symm {s t : Source} (h : s.Reorders t) : t.Reorders s :=
  ⟨by rw [← h.rest], h.tags.symm, h.calendars.symm fun _ _ => SourceCalendar.Reorders.symm⟩

theorem ExternalCalendar.Reorders.symm {x y : ExternalCalendar} (h : x.Reorders y) :
    y.Reorders x :=
  ⟨by rw [← h.rest], h.tags.symm, h.events.symm fun _ _ => Event.Reorders.symm⟩

/-- A reordered calendar keeps the name it is shown under. -/
theorem SourceCalendar.Reorders.friendlyName_eq {c d : SourceCalendar} (h : c.Reorders d) :
    c.friendlyName = d.friendlyName := by
  rw [← h.rest]

theorem ExternalCalendar.Reorders.friendlyName_eq {x y : ExternalCalendar} (h : x.Reorders y) :
    x.friendlyName = y.friendlyName := by
  rw [← h.rest]

theorem ExternalCalendar.Reorders.disabled_eq {x y : ExternalCalendar} (h : x.Reorders y) :
    x.disabled = y.disabled := by
  rw [← h.rest]

namespace Aggregate

/-- The sources and external calendars of aggregates in another order, on every level. -/
structure InputReordered (sources sources' : List Source)
    (externals externals' : List ExternalCalendar) : Prop where
  sources : Reordered Source.Reorders sources sources'
  externals : Reordered ExternalCalendar.Reorders externals externals'

variable {sources sources' : List Source} {externals externals' : List ExternalCalendar}

namespace InputReordered

theorem symm (h : InputReordered sources sources' externals externals') :
    InputReordered sources' sources externals' externals :=
  ⟨h.sources.symm fun _ _ => Source.Reorders.symm,
    h.externals.symm fun _ _ => ExternalCalendar.Reorders.symm⟩

variable (h : InputReordered sources sources' externals externals')
include h

-- ── What no order changes ────────────────────────────────────────────────────────

/-- Every calendar is found again, in its source. -/
theorem exists_calendar {s : Source} (hs : s ∈ sources) {c : SourceCalendar}
    (hc : c ∈ s.calendars) :
    ∃ s' ∈ sources', ∃ c' ∈ s'.calendars, s.tags.Perm s'.tags ∧ c.Reorders c' := by
  obtain ⟨s', hs', same⟩ := h.sources.exists_of_mem hs
  obtain ⟨c', hc', equal⟩ := same.calendars.exists_of_mem hc
  exact ⟨s', hs', c', hc', same.tags, equal⟩

/-- What carries a tag on one side has a counterpart that carries it on the other. -/
theorem carried {tag : String} (here : Carried sources externals tag) :
    Carried sources' externals' tag := by
  obtain ⟨counts, ⟨s, hs, c, hc, tagged⟩ | ⟨x, hx, able, tagged⟩⟩ := here
  · obtain ⟨s', hs', c', hc', inherited, own⟩ := h.exists_calendar hs hc
    refine ⟨counts, .inl ⟨s', hs', c', hc', ?_⟩⟩
    exact tagged.imp own.tags.mem_iff.mp inherited.mem_iff.mp
  · obtain ⟨x', hx', same⟩ := h.externals.exists_of_mem hx
    exact ⟨counts, .inr ⟨x', hx', same.disabled_eq ▸ able, same.tags.mem_iff.mp tagged⟩⟩

/-- Every event under a tag is found again, under the same tag. -/
theorem exists_event {tag : String} {e : Event} (here : e ∈ eventsUnder sources externals tag) :
    ∃ f ∈ eventsUnder sources' externals' tag, e.Reorders f := by
  rcases mem_eventsUnder_iff.mp here with ⟨s, hs, c, hc, tagged, he⟩ | ⟨x, hx, able, tagged, he⟩
  · obtain ⟨s', hs', c', hc', inherited, own⟩ := h.exists_calendar hs hc
    obtain ⟨f, hf, equal⟩ := own.events.exists_of_mem he
    refine ⟨f, mem_eventsUnder_iff.mpr (.inl ⟨s', hs', c', hc', ?_, hf⟩), equal⟩
    exact tagged.imp own.tags.mem_iff.mp inherited.mem_iff.mp
  · obtain ⟨x', hx', same⟩ := h.externals.exists_of_mem hx
    obtain ⟨f, hf, equal⟩ := same.events.exists_of_mem he
    refine ⟨f, mem_eventsUnder_iff.mpr (.inr ⟨x', hx', ?_, ?_, hf⟩), equal⟩
    · rwa [← same.disabled_eq]
    · exact same.tags.mem_iff.mp tagged

/-- A source calendar named on one side is named on the other. -/
theorem sourceNamed {tag name : String} (here : SourceNamed sources tag name) :
    SourceNamed sources' tag name := by
  obtain ⟨s, hs, c, hc, ⟨t, ht, counts, like_⟩, rfl⟩ := here
  obtain ⟨s', hs', c', hc', inherited, own⟩ := h.exists_calendar hs hc
  have tags : (c.tags ++ s.tags).Perm (c'.tags ++ s'.tags) := own.tags.append inherited
  exact ⟨s', hs', c', hc', ⟨t, tags.mem_iff.mp ht, counts, like_⟩,
    own.friendlyName_eq.symm⟩

/-- An external calendar named on one side is named on the other. -/
theorem externalNamed {tag name : String} (here : ExternalNamed externals tag name) :
    ExternalNamed externals' tag name := by
  obtain ⟨x, hx, able, ⟨t, ht, counts, like_⟩, rfl⟩ := here
  obtain ⟨x', hx', same⟩ := h.externals.exists_of_mem hx
  exact ⟨x', hx', same.disabled_eq ▸ able, ⟨t, same.tags.mem_iff.mp ht, counts, like_⟩,
    same.friendlyName_eq.symm⟩

/-- The tags come out the same, since they are sorted. -/
theorem allTags_eq : allTags (tagSources sources) (tagExternals externals)
    = allTags (tagSources sources') (tagExternals externals') := by
  refine ascending_eq_of_mem_iff fun tag => ?_
  show tag ∈ allTags (tagSources sources) (tagExternals externals)
    ↔ tag ∈ allTags (tagSources sources') (tagExternals externals')
  rw [mem_allTags_iff, mem_allTags_iff]
  exact ⟨h.carried, h.symm.carried⟩

end InputReordered

-- ── Aggregates ───────────────────────────────────────────────────────────────────

/-- No id repeats within an aggregate. -/
theorem nodup_ids {a : Aggregate} (listed : a ∈ all sources externals) :
    (a.events.map Event.id).Nodup := by
  rw [events_of_mem listed]
  exact nodup_distinctFrom _ _ _

/-- The identifiers of an aggregate are those of the events under its tag. -/
theorem mem_ids_iff {a : Aggregate} (listed : a ∈ all sources externals) {id : String} :
    id ∈ a.events.map Event.id ↔ ∃ e ∈ eventsUnder sources externals a.tag, e.id = id := by
  rw [List.mem_map]
  constructor
  · rintro ⟨e, kept, rfl⟩
    exact ⟨e, mem_eventsUnder_of_mem_events listed kept, rfl⟩
  · rintro ⟨e, here, rfl⟩
    rw [events_of_mem listed]
    exact exists_mem_distinctBy here

/-- All of an aggregate but its events. -/
def header (a : Aggregate) : String × String × String × List String × List String :=
  (a.name, a.friendlyName, a.tag, a.sources, a.externals)

/-- Aggregates that have the same identifiers, in whatever order.  A record that is the only one
    with its identifier under the tag is in both of them. -/
structure SameIdentifiers (sources : List Source) (externals : List ExternalCalendar)
    (a b : Aggregate) : Prop where
  ids : (a.events.map Event.id).Perm (b.events.map Event.id)
  records : ∀ e ∈ eventsUnder sources externals a.tag,
    (∀ f ∈ eventsUnder sources externals a.tag, f.id = e.id → f = e) →
      e ∈ a.events ∧ ∃ f ∈ b.events, e.Reorders f

namespace InputReordered

variable (h : InputReordered sources sources' externals externals')
include h

/-- Aggregates of the two inputs belong together by their tags, and these have the same places
    and so the same names. -/
theorem forall₂_all {R : Aggregate → Aggregate → Prop}
    (each : ∀ a ∈ all sources externals, ∀ b ∈ all sources' externals',
      a.tag = b.tag → a.name = b.name → R a b) :
    List.Forall₂ R (all sources externals) (all sources' externals') := by
  have left := all_eq_map_zip sources externals
  have right := all_eq_map_zip sources' externals'
  rw [← h.allTags_eq] at right
  rw [left, right, List.forall₂_map_left_iff, List.forall₂_map_right_iff, List.forall₂_same]
  intro entry here
  refine each _ ?_ _ ?_ rfl rfl
  · rw [left]
    exact List.mem_map.mpr ⟨entry, here, rfl⟩
  · rw [right]
    exact List.mem_map.mpr ⟨entry, here, rfl⟩

variable {a b : Aggregate} (ha : a ∈ all sources externals) (hb : b ∈ all sources' externals')
  (same : a.tag = b.tag)
include ha hb same

/-- The source names agree: both lists are the ascending arrangement of one set. -/
theorem sources_eq : a.sources = b.sources := by
  rw [sources_of_mem ha, sources_of_mem hb]
  refine ascending_eq_of_mem_iff fun name => ?_
  rw [← sources_of_mem ha, ← sources_of_mem hb, mem_sources_iff ha, mem_sources_iff hb, same]
  exact ⟨h.sourceNamed, h.symm.sourceNamed⟩

/-- The external names agree in the same way. -/
theorem externals_eq : a.externals = b.externals := by
  rw [externals_of_mem ha, externals_of_mem hb]
  refine ascending_eq_of_mem_iff fun name => ?_
  rw [← externals_of_mem ha, ← externals_of_mem hb, mem_externals_iff ha, mem_externals_iff hb,
    same]
  exact ⟨h.externalNamed, h.symm.externalNamed⟩

/-- Aggregates of one tag and one name have one header. -/
theorem header_eq (name : a.name = b.name) : a.header = b.header := by
  have friendly : ∀ {sources externals} {c : Aggregate}, c ∈ all sources externals →
      c.friendlyName = c.tag := by
    intro sources externals c listed
    obtain ⟨name, eq⟩ := eq_ofTag_of_mem listed
    exact congrArg Aggregate.friendlyName eq
  simp only [header, friendly ha, friendly hb, name, same, h.sources_eq ha hb same,
    h.externals_eq ha hb same]

/-- Aggregates of one tag hold the same ids, whichever record of an id comes first. -/
theorem sameIdentifiers : a.SameIdentifiers sources externals b := by
  have back : ∀ {f}, f ∈ eventsUnder sources' externals' b.tag →
      ∃ e ∈ eventsUnder sources externals a.tag, e.Reorders f := by
    intro f hf
    rw [← same] at hf
    obtain ⟨e, he, equal⟩ := h.symm.exists_event hf
    exact ⟨e, he, equal.symm⟩
  have ids : (a.events.map Event.id).Perm (b.events.map Event.id) := by
    refine (List.perm_ext_iff_of_nodup (nodup_ids ha) (nodup_ids hb)).mpr fun id => ?_
    rw [mem_ids_iff ha, mem_ids_iff hb]
    constructor
    · rintro ⟨e, he, rfl⟩
      obtain ⟨f, hf, equal⟩ := h.exists_event he
      exact ⟨f, same ▸ hf, equal.id_eq.symm⟩
    · rintro ⟨f, hf, rfl⟩
      obtain ⟨e, he, equal⟩ := back hf
      exact ⟨e, he, equal.id_eq⟩
  refine ⟨ids, fun e he alone => ?_⟩
  have listed := (mem_ids_iff ha).mpr ⟨e, he, rfl⟩
  -- whichever records keep the identifier, both of them stand for this one
  obtain ⟨kept, hkept, own⟩ := List.mem_map.mp listed
  obtain ⟨f, hf, moved⟩ := List.mem_map.mp (ids.mem_iff.mp listed)
  obtain ⟨other, ho, equal⟩ := back (mem_eventsUnder_of_mem_events hb hf)
  rw [alone other ho (equal.id_eq.trans moved)] at equal
  exact ⟨alone kept (mem_eventsUnder_of_mem_events ha hkept) own ▸ hkept, f, hf, equal⟩

end InputReordered

/-- **ORDER DECIDES NOTHING BUT ORDER**: when sources, calendars, events, external calendars and
    tags come in another order, the aggregates are the same one after another but for their
    events, and these have the same identifiers. -/
theorem all_agree_of_reordered (h : InputReordered sources sources' externals externals') :
    (all sources externals).map header = (all sources' externals').map header
      ∧ List.Forall₂ (SameIdentifiers sources externals) (all sources externals)
          (all sources' externals') := by
  refine ⟨?_, h.forall₂_all fun a ha b hb same _ => h.sameIdentifiers ha hb same⟩
  rw [← List.forall₂_eq_eq_eq, List.forall₂_map_left_iff, List.forall₂_map_right_iff]
  exact h.forall₂_all fun a ha b hb same name => h.header_eq ha hb same name

/-- A club that has an event of the loud hall under another summary. -/
def club : Source :=
  { name := "club"
    friendlyName := "Club"
    tags := ["Music"]
    calendars :=
      [⟨"late", "Late shows", ["music", "Jazz"], [newYear "j1" "Trio", newYear "l1" "Late brass"],
        []⟩] }

/-- The club with the tags and events of its calendar the other way round. -/
def clubTurned : Source :=
  { club with
    calendars :=
      [⟨"late", "Late shows", ["Jazz", "music"], [newYear "l1" "Late brass", newYear "j1" "Trio"],
        []⟩] }

/-- The venue with its calendars the other way round. -/
def venueTurned : Source :=
  { venue with calendars := venue.calendars.reverse }

/-- Named second or first, the club gets its record of the shared event into the aggregates or
    not; names, numbers, contributors and identifiers stay. -/
theorem all_agree_of_reordered_club_first :
    InputReordered [venue, club] [clubTurned, venueTurned] [radio] [radio]
      ∧ (all [venue, club] [radio]).map header
        = (all [clubTurned, venueTurned] [radio]).map header
      ∧ List.Forall₂ (SameIdentifiers [venue, club] [radio]) (all [venue, club] [radio])
        (all [clubTurned, venueTurned] [radio])
      ∧ (all [venue, club] [radio]).map (fun a => (a.name, a.events.map Event.summary))
        = [("tag-jazz", ["Trio", "Late brass"]), ("tag-music", ["Brass", "Trio"]),
          ("tag-music-2", ["Quartet", "Trio", "Late brass"])]
      ∧ (all [clubTurned, venueTurned] [radio]).map (fun a => (a.name, a.events.map Event.summary))
        = [("tag-jazz", ["Late brass", "Trio"]), ("tag-music", ["Late brass", "Trio"]),
          ("tag-music-2", ["Late brass", "Trio", "Quartet"])] := by
  have turned : club.Reorders clubTurned :=
    ⟨rfl, .refl _, ⟨_, .refl _, .cons ⟨rfl, .swap _ _ _,
      .of_perm Event.Reorders.refl (.swap _ _ _)⟩ .nil⟩⟩
  have venueToo : venue.Reorders venueTurned :=
    ⟨rfl, .refl _, .of_perm SourceCalendar.Reorders.refl (List.reverse_perm _).symm⟩
  have input : InputReordered [venue, club] [clubTurned, venueTurned] [radio] [radio] :=
    ⟨⟨[club, venue], .swap _ _ _, .cons turned (.cons venueToo .nil)⟩,
      .of_perm ExternalCalendar.Reorders.refl (.refl _)⟩
  obtain ⟨headers, ids⟩ := all_agree_of_reordered input
  exact ⟨input, headers, ids, by decide +kernel, by decide +kernel⟩

end Aggregate

end CalendarFeeds
