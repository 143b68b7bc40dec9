import CalendarFeeds.Run
import CalendarFeeds.Proofs.Aggregate
import CalendarFeeds.Proofs.Catalogue
import CalendarFeeds.Proofs.Generation
import CalendarFeeds.Proofs.OutputFiles

/-! # Publications — what a run leaves behind

    A run that succeeds has loaded definitions with different names.  If their identifiers differ
    too, each of them brings its own event or its own error, and nothing else has events.  What
    the manifest says of definitions and tags, and what the files hold, then follows from the
    definitions one by one.

    None of this depends on how files are read, on the time zones that there are or on how rules
    are expanded, so all results are about any document reader and any almanac. -/

namespace CalendarFeeds

-- ── What a run is to leave behind ────────────────────────────────────────────────

/-- **EVERY DEFINITION IS ACCOUNTED FOR**: those with an event are listed as calendars, the others
    with their error, both in the order of the file and each under a name of its own. -/
structure Manifest.ListsDefinitions (m : Manifest) (almanac : Almanac) (window : Window)
    (seasons : SeasonTable) (definitions : List Definition) : Prop where
  once : (definitions.map Definition.name).Nodup
  either : (m.calendars.map FeedEntry.name ++ m.errors.map ErrorEntry.name).Perm
    (definitions.map Definition.name)
  calendars : m.calendars.map (fun c => (c.name, c.friendlyName, c.tags))
    = (definitions.filter fun d => (d.materializeBy almanac window seasons).isOk).map
        fun d => (d.name, d.displayName, d.tags)
  errors : m.errors = definitions.filterMap fun d =>
    match d.materializeBy almanac window seasons with
    | .ok _ => none
    | .error e => some ⟨d.name, [e.message]⟩

/-- **EVERY TAG IS ACCOUNTED FOR**: the tags that count ascend by their bytes, and each says how
    many of the definitions with an event carry it. -/
structure Manifest.ListsTags (m : Manifest) (definitions : List Definition)
    (externals : List ExternalCalendar) : Prop where
  ascend : (m.aggregates.map AggregateEntry.tag).Pairwise fun a b => Text.bytes a < Text.bytes b
  carried : ∀ tag, tag ∈ m.aggregates.map AggregateEntry.tag
    ↔ isTag tag = true ∧ ((∃ d ∈ definitions, tag ∈ d.tags)
      ∨ ∃ x ∈ externals, x.disabled = false ∧ tag ∈ x.tags)
  counts : ∀ a ∈ m.aggregates, a.events = (definitions.filter fun d =>
    a.tag ∈ d.tags ∧ d.name ∈ m.calendars.map FeedEntry.name).length

/-- The files that the entries of a manifest name. -/
def Manifest.feedFiles (m : Manifest) : List String :=
  m.aggregates.map AggregateEntry.file ++ m.calendars.map FeedEntry.file

/-- **EVERY FILE IS WHAT ITS ENTRY SAYS**: all names differ, the directory has these files and the
    manifest and nothing else, and each holds what belongs to its entry. -/
structure Publication.Fills (p : Publication) (almanac : Almanac) (window : Window)
    (seasons : SeasonTable) (definitions : List Definition) : Prop where
  apart : p.manifest.feedFiles.Nodup
  noManifest : Manifest.fileName ∉ p.manifest.feedFiles
  plain : ∀ a ∈ p.manifest.aggregates, a.file = a.name ++ ".ics"
  exactly : ∀ name, (Directory.holding p.files name).isSome = true
    ↔ name = Manifest.fileName ∨ name ∈ p.manifest.feedFiles
  manifest : Directory.holding p.files Manifest.fileName = some p.manifest.json.text
  aggregates : ∀ a ∈ p.manifest.aggregates, Directory.holding p.files a.file
    = some (Feed.ofAggregate ⟨a.name, a.tag, a.tag,
        (definitions.filter fun d => a.tag ∈ d.tags).flatMap (·.eventsBy almanac window seasons),
        a.sources, a.externals⟩)
  calendars : ∀ c ∈ p.manifest.calendars, ∃ d ∈ definitions, ∃ e,
    d.name = c.name ∧ d.materializeBy almanac window seasons = .ok e
      ∧ Directory.holding p.files c.file = some (Feed.text d.displayName [e])

/-- The manifest and the feeds end in different letters. -/
theorem Manifest.fileName_ne_append_ending (front : String) :
    Manifest.fileName ≠ front ++ Publication.ending := by
  intro eq
  have last := congrArg (fun s => s.toList.getLast?) eq
  rw [String.toList_append, List.getLast?_append] at last
  cases last

-- ── What a run makes of its definitions ──────────────────────────────────────────

/-- A definition has no event exactly when it is not materialized. -/
theorem Definition.isEmpty_eventsBy (almanac : Almanac) (window : Window) (seasons : SeasonTable)
    (d : Definition) :
    (d.eventsBy almanac window seasons).isEmpty
      = !(d.materializeBy almanac window seasons).isOk := by
  rw [eventsBy]
  cases d.materializeBy almanac window seasons <;> rfl

section Loaded

variable {almanac : Almanac} {window : Window} {seasons : SeasonTable}
  {definitions : List Definition} {externals : List ExternalCalendar}

/-- The ids of the events are among those of the definitions, in their order: a definition has one
    event or none, under its own id. -/
theorem map_id_flatMap_events (ds : List Definition) :
    ((ds.flatMap (·.eventsBy almanac window seasons)).map Event.id).Sublist
      (ds.map fun d => Identifier.ofName d.name) := by
  induction ds with
  | nil => exact List.Sublist.refl []
  | cons d ds ih =>
      rw [List.flatMap_cons, List.map_append, List.map_cons]
      cases made : d.materializeBy almanac window seasons with
      | error fault =>
          rw [Definition.eventsBy_of_error made]
          exact ih.cons _
      | ok e =>
          have own : e ∈ d.eventsBy almanac window seasons := by
            rw [Definition.eventsBy_of_ok made]
            exact List.mem_singleton.mpr rfl
          rw [Definition.eventsBy_of_ok made, ← Definition.id_of_mem_eventsBy own]
          exact ih.cons_cons _

/-- There are as many events as definitions that succeed. -/
theorem length_flatMap_events (ds : List Definition) :
    (ds.flatMap (·.eventsBy almanac window seasons)).length
      = (ds.filter fun d => (d.materializeBy almanac window seasons).isOk).length := by
  induction ds with
  | nil => rfl
  | cons d ds ih =>
      rw [List.flatMap_cons, List.length_append, ih]
      cases made : d.materializeBy almanac window seasons with
      | error fault =>
          rw [Definition.eventsBy_of_error made,
            List.filter_cons_of_neg (by rw [made]; exact Bool.false_ne_true)]
          exact Nat.zero_add _
      | ok e =>
          rw [Definition.eventsBy_of_ok made, List.filter_cons_of_pos (by rw [made]; rfl)]
          exact Nat.add_comm 1 _

/-- The entries of the definitions without an event, each with its own error. -/
theorem map_failures_filter (ds : List Definition) :
    (ds.filter fun d => !(d.materializeBy almanac window seasons).isOk).map
        (fun d => (⟨d.name, (d.calendarBy almanac window seasons).errors⟩ : ErrorEntry))
      = ds.filterMap fun d =>
        match d.materializeBy almanac window seasons with
        | .ok _ => none
        | .error e => some ⟨d.name, [e.message]⟩ := by
  -- definitions with an event are left out on both sides
  induction ds with
  | nil => rfl
  | cons d ds ih =>
      cases made : d.materializeBy almanac window seasons with
      | ok e =>
          rw [List.filter_cons_of_neg (by rw [made]; exact Bool.false_ne_true),
            List.filterMap_cons_none (by rw [made]), ih]
      | error fault =>
          have failed : (d.calendarBy almanac window seasons).errors = [fault.message] := by
            rw [Definition.calendarBy, Definition.failureBy?_of_error made]
            rfl
          rw [List.filter_cons_of_pos (by rw [made]; rfl), List.map_cons, failed, ih,
            List.filterMap_cons_some (by rw [made])]

theorem nodup_name_all (sources : List Source) (externals : List ExternalCalendar) :
    ((Aggregate.all sources externals).map Aggregate.name).Nodup := by
  have all := Naming.nodup_assign "" ((Aggregate.allTags (tagSources sources)
    (tagExternals externals)).map Aggregate.stem)
  rwa [← Aggregate.map_name_all] at all

section Apart

variable (names : (definitions.map Definition.name).Nodup)
  (ids : (definitions.map fun d => Identifier.ofName d.name).Nodup)

include names ids

/-- Every definition has a calendar of its own in the source. -/
theorem calendars_recurring :
    (Run.recurring almanac window seasons definitions).calendars
      = definitions.map fun d => d.calendarBy almanac window seasons :=
  Report.calendars_source names ids

/-- The feeds of the recurring source are the calendars of the definitions that succeed. -/
theorem published_recurring :
    Publication.published (Run.recurring almanac window seasons definitions)
      = (definitions.filter fun d => (d.materializeBy almanac window seasons).isOk).map
          fun d => d.calendarBy almanac window seasons := by
  rw [Publication.published, calendars_recurring names ids, List.filter_map]
  congr 1
  refine List.filter_congr fun d _ => ?_
  show (!(d.eventsBy almanac window seasons).isEmpty) = _
  rw [d.isEmpty_eventsBy, Bool.not_not]

theorem unpublished_recurring :
    Publication.unpublished (Run.recurring almanac window seasons definitions)
      = (definitions.filter fun d => !(d.materializeBy almanac window seasons).isOk).map
          fun d => d.calendarBy almanac window seasons := by
  rw [Publication.unpublished, calendars_recurring names ids, List.filter_map]
  congr 1
  exact List.filter_congr fun d _ => d.isEmpty_eventsBy almanac window seasons

/-- Only definitions bring events under a tag. -/
theorem eventsUnder_recurring (none_ : ∀ x ∈ externals, x.events = []) (tag : String) :
    Aggregate.eventsUnder
        [Run.recurring almanac window seasons definitions] externals tag
      = (definitions.filter fun d => tag ∈ d.tags).flatMap (·.eventsBy almanac window seasons) := by
  have outside : externals.flatMap (·.eventsUnder tag) = [] := by
    refine List.flatMap_eq_nil_iff.mpr fun x hx => ?_
    rw [ExternalCalendar.eventsUnder, none_ x hx]
    exact ite_self _
  rw [Aggregate.eventsUnder, outside, List.append_nil, List.flatMap_singleton,
    Source.eventsUnder, calendars_recurring names ids, List.filter_map, List.flatMap_map]
  have carried : (definitions.filter ((fun c : SourceCalendar => decide (tag ∈ c.tags
      ∨ tag ∈ (Run.recurring almanac window seasons definitions).tags))
        ∘ fun d => d.calendarBy almanac window seasons))
      = definitions.filter fun d => tag ∈ d.tags := by
    refine List.filter_congr fun d _ => ?_
    show decide (tag ∈ d.tags ∨ tag ∈ []) = decide (tag ∈ d.tags)
    rw [decide_eq_decide]
    exact or_iff_left List.not_mem_nil
  rw [carried]
  rfl

/-- An aggregate is given by its entry and the definitions that carry its tag. -/
theorem eq_of_mem_all (none_ : ∀ x ∈ externals, x.events = []) {a : Aggregate}
    (listed : a ∈ Aggregate.all
      [Run.recurring almanac window seasons definitions] externals) :
    a = ⟨a.name, a.tag, a.tag,
      (definitions.filter fun d => a.tag ∈ d.tags).flatMap (·.eventsBy almanac window seasons),
      a.sources, a.externals⟩ := by
  have events : a.events
      = (definitions.filter fun d => a.tag ∈ d.tags).flatMap
          (·.eventsBy almanac window seasons) := by
    rw [Aggregate.events_of_mem listed, eventsUnder_recurring names ids none_]
    refine distinctBy_of_nodup ((map_id_flatMap_events _).nodup ?_)
    exact ids.sublist (List.filter_sublist.map _)
  obtain ⟨name, made⟩ := Aggregate.eq_ofTag_of_mem listed
  have friendly : a.friendlyName = a.tag := by
    rw [made]
    rfl
  calc a = ⟨a.name, a.friendlyName, a.tag, a.events, a.sources, a.externals⟩ := rfl
    _ = _ := by rw [friendly, events]

end Apart

-- ── What a publication is made of ────────────────────────────────────────────────

/-- What is made of some definitions and their aggregates: plain files for the aggregates, and
    files of other names for the definitions with an event. -/
structure Publication.MadeOf (p : Publication) (almanac : Almanac) (window : Window)
    (seasons : SeasonTable) (definitions : List Definition) (aggregates : List Aggregate)
    (later : List String) : Prop where
  length : later.length
    = (definitions.filter fun d => (d.materializeBy almanac window seasons).isOk).length
  apart : (aggregates.map Publication.ownFile ++ later).Nodup
  ends : ∀ name ∈ aggregates.map Publication.ownFile ++ later,
    ∃ front, name = front ++ Publication.ending
  calendars : p.manifest.calendars
    = List.zipWith (fun d => Publication.feedEntry (d.calendarBy almanac window seasons))
        (definitions.filter fun d => (d.materializeBy almanac window seasons).isOk) later
  entries : p.manifest.aggregates
    = aggregates.map fun a => Publication.aggregateEntry a (Publication.ownFile a)
  errors : p.manifest.errors
    = (definitions.filter fun d => !(d.materializeBy almanac window seasons).isOk).map
        fun d => ⟨d.name, (d.calendarBy almanac window seasons).errors⟩
  feeds : p.feeds
    = aggregates.map (fun a => Publication.aggregateFile a (Publication.ownFile a))
        ++ List.zipWith (fun d => Publication.feedFile (d.calendarBy almanac window seasons))
          (definitions.filter fun d => (d.materializeBy almanac window seasons).isOk) later

namespace Publication.MadeOf

variable {p : Publication} {aggregates : List Aggregate} {later : List String}

/-- The calendars of the manifest carry the names of the definitions that succeed. -/
theorem names_calendars (made : p.MadeOf almanac window seasons definitions aggregates later) :
    p.manifest.calendars.map FeedEntry.name
      = (definitions.filter fun d => (d.materializeBy almanac window seasons).isOk).map
          Definition.name := by
  rw [made.calendars]
  refine map_zipWith_left (fun d file => ?_) made.length
  rfl

theorem tags_aggregates (made : p.MadeOf almanac window seasons definitions aggregates later) :
    p.manifest.aggregates.map AggregateEntry.tag = aggregates.map Aggregate.tag := by
  rw [made.entries, List.map_map]
  rfl

/-- The manifest names the files of the aggregates first, then those of the definitions. -/
theorem feedFiles_eq (made : p.MadeOf almanac window seasons definitions aggregates later) :
    p.manifest.feedFiles = aggregates.map Publication.ownFile ++ later := by
  rw [Manifest.feedFiles, made.entries, made.calendars, List.map_map]
  refine congrArg₂ (· ++ ·) rfl (map_zipWith_right (fun d file => ?_) made.length)
  rfl

/-- Written are the files that the manifest names, and the manifest. -/
theorem names_files (made : p.MadeOf almanac window seasons definitions aggregates later) :
    p.files.map OutputFile.name = p.manifest.feedFiles ++ [Manifest.fileName] := by
  rw [made.feedFiles_eq, Publication.files, List.map_append, made.feeds, List.map_append,
    List.map_map]
  refine congrArg₂ (· ++ ·) (congrArg₂ (· ++ ·) rfl
    (map_zipWith_right (fun d file => ?_) made.length)) rfl
  rfl

theorem nodup_feedFiles (made : p.MadeOf almanac window seasons definitions aggregates later) :
    p.manifest.feedFiles.Nodup := by
  rw [made.feedFiles_eq]
  exact made.apart

/-- No feed takes the name of the manifest. -/
theorem fileName_not_mem (made : p.MadeOf almanac window seasons definitions aggregates later) :
    Manifest.fileName ∉ p.manifest.feedFiles := by
  rw [made.feedFiles_eq]
  intro here
  obtain ⟨front, eq⟩ := made.ends _ here
  exact Manifest.fileName_ne_append_ending front eq

/-- No file is written twice. -/
theorem nodup_files (made : p.MadeOf almanac window seasons definitions aggregates later) :
    (p.files.map OutputFile.name).Nodup := by
  rw [made.names_files]
  refine List.nodup_append.mpr
    ⟨made.nodup_feedFiles, List.nodup_singleton _, fun name here other there => ?_⟩
  rw [List.mem_singleton.mp there]
  exact fun same => made.fileName_not_mem (same ▸ here)

/-- Each aggregate of the manifest has its own feed in its file. -/
theorem holding_aggregate (made : p.MadeOf almanac window seasons definitions aggregates later)
    {a : AggregateEntry} (listed : a ∈ p.manifest.aggregates) :
    ∃ own ∈ aggregates, a = Publication.aggregateEntry own (Publication.ownFile own)
      ∧ Directory.holding p.files a.file = some (Feed.ofAggregate own) := by
  rw [made.entries] at listed
  obtain ⟨own, here, rfl⟩ := List.mem_map.mp listed
  have kept : Publication.aggregateFile own (Publication.ownFile own) ∈ p.files := by
    rw [Publication.files, made.feeds]
    exact List.mem_append_left _ (List.mem_append_left _ (List.mem_map.mpr ⟨own, here, rfl⟩))
  exact ⟨own, here, rfl, Directory.holding_of_mem made.nodup_files kept⟩

/-- Each calendar of the manifest has the event of its definition in its file. -/
theorem holding_calendar (made : p.MadeOf almanac window seasons definitions aggregates later)
    {c : FeedEntry} (listed : c ∈ p.manifest.calendars) :
    ∃ d ∈ definitions, ∃ e, d.name = c.name ∧ d.materializeBy almanac window seasons = .ok e
      ∧ Directory.holding p.files c.file = some (Feed.text d.displayName [e]) := by
  rw [made.calendars, ← List.map_uncurry_zip_eq_zipWith] at listed
  obtain ⟨⟨d, file⟩, pair, rfl⟩ := List.mem_map.mp listed
  obtain ⟨hd, succeeds⟩ := List.mem_filter.mp (List.of_mem_zip pair).1
  have kept : Publication.feedFile (d.calendarBy almanac window seasons) file ∈ p.files := by
    rw [Publication.files, made.feeds, ← List.map_uncurry_zip_eq_zipWith]
    exact List.mem_append_left _ (List.mem_append_right _ (List.mem_map.mpr ⟨_, pair, rfl⟩))
  match outcome : d.materializeBy almanac window seasons with
  | .error fault =>
      rw [outcome] at succeeds
      cases succeeds
  | .ok e =>
      refine ⟨d, hd, e, rfl, outcome, (Directory.holding_of_mem made.nodup_files kept).trans ?_⟩
      show some (Feed.text d.displayName (d.eventsBy almanac window seasons)) = _
      rw [Definition.eventsBy_of_ok outcome]

/-- Every definition is accounted for in the manifest, by its feed or by its failure. -/
theorem listsDefinitions (made : p.MadeOf almanac window seasons definitions aggregates later)
    (names : (definitions.map Definition.name).Nodup) :
    p.manifest.ListsDefinitions almanac window seasons definitions := by
  refine ⟨names, ?_, ?_, ?_⟩
  · have both := (List.filter_append_perm (fun d => (d.materializeBy almanac window seasons).isOk)
      definitions).map Definition.name
    rw [List.map_append] at both
    rw [made.names_calendars, made.errors, List.map_map]
    exact both
  · rw [made.calendars]
    refine map_zipWith_left (fun d file => ?_) made.length
    rfl
  · exact made.errors.trans (map_failures_filter definitions)

/-- Every effective tag is accounted for in the manifest, with the events that the definitions
    give it. -/
theorem listsTags
    (made : p.MadeOf almanac window seasons definitions
      (Aggregate.all [Run.recurring almanac window seasons definitions] externals) later)
    (names : (definitions.map Definition.name).Nodup)
    (ids : (definitions.map fun d => Identifier.ofName d.name).Nodup)
    (none_ : ∀ x ∈ externals, x.events = []) :
    p.manifest.ListsTags definitions externals := by
  refine ⟨?_, fun tag => ?_, fun a listed => ?_⟩
  · rw [made.tags_aggregates]
    exact Aggregate.pairwise_tag_all _ externals
  · rw [made.tags_aggregates, Aggregate.mem_map_tag_all_iff]
    refine and_congr_right fun _ => or_congr_left ?_
    constructor
    · rintro ⟨s, hs, c, hc, carried⟩
      cases List.mem_singleton.mp hs
      rw [calendars_recurring names ids] at hc
      obtain ⟨d, hd, rfl⟩ := List.mem_map.mp hc
      exact ⟨d, hd, carried.resolve_right List.not_mem_nil⟩
    · rintro ⟨d, hd, carried⟩
      refine ⟨_, List.mem_singleton.mpr rfl, d.calendarBy almanac window seasons, ?_, .inl carried⟩
      rw [calendars_recurring names ids]
      exact List.mem_map.mpr ⟨d, hd, rfl⟩
  · obtain ⟨own, here, rfl, -⟩ := made.holding_aggregate listed
    have events := congrArg Aggregate.events (eq_of_mem_all names ids none_ here)
    show own.events.length = _
    rw [events, length_flatMap_events, List.filter_filter]
    refine congrArg List.length (List.filter_congr fun d hd => ?_)
    rw [Bool.eq_iff_iff, Bool.and_eq_true, decide_eq_true_iff, decide_eq_true_iff, and_comm]
    refine and_congr_right fun _ => ?_
    rw [made.names_calendars]
    constructor
    · intro succeeds
      exact List.mem_map.mpr ⟨d, List.mem_filter.mpr ⟨hd, succeeds⟩, rfl⟩
    · intro there
      obtain ⟨other, kept, same⟩ := List.mem_map.mp there
      obtain ⟨there, succeeds⟩ := List.mem_filter.mp kept
      rwa [List.inj_on_of_nodup_map names there hd same] at succeeds

/-- Every feed that the manifest lists is written, under the name that it is listed with. -/
theorem fills
    (made : p.MadeOf almanac window seasons definitions
      (Aggregate.all [Run.recurring almanac window seasons definitions] externals) later)
    (names : (definitions.map Definition.name).Nodup)
    (ids : (definitions.map fun d => Identifier.ofName d.name).Nodup)
    (none_ : ∀ x ∈ externals, x.events = []) :
    p.Fills almanac window seasons definitions where
  apart := made.nodup_feedFiles
  noManifest := made.fileName_not_mem
  plain a listed := by
    obtain ⟨own, -, rfl, -⟩ := made.holding_aggregate listed
    rfl
  exactly name := by
    rw [Directory.isSome_holding_iff made.nodup_files, made.names_files, List.mem_append,
      List.mem_singleton, or_comm]
  manifest :=
    Directory.holding_of_mem made.nodup_files (List.mem_append_right _ (List.mem_singleton.mpr rfl))
  aggregates a listed := by
    obtain ⟨own, here, rfl, held⟩ := made.holding_aggregate listed
    exact held.trans (congrArg (some ∘ Feed.ofAggregate) (eq_of_mem_all names ids none_ here))
  calendars c listed := made.holding_calendar listed

end Publication.MadeOf

/-- The publication of some definitions is made of them and of the aggregates of their events. -/
theorem exists_madeOf (almanac : Almanac) (window : Window) (seasons : SeasonTable)
    (externals : List ExternalCalendar) (names : (definitions.map Definition.name).Nodup)
    (ids : (definitions.map fun d => Identifier.ofName d.name).Nodup) :
    ∃ later, (Run.publication almanac window seasons definitions externals).MadeOf almanac window
      seasons definitions
      (Aggregate.all [Run.recurring almanac window seasons definitions] externals) later := by
  obtain ⟨later, length, apart, ends, eq⟩ := Publication.exists_ofSource_eq window
    (Run.recurring almanac window seasons definitions)
    (nodup_name_all [Run.recurring almanac window seasons definitions] externals)
  rw [published_recurring names ids, unpublished_recurring names ids, List.zipWith_map_left,
    List.zipWith_map_left, List.map_map] at eq
  rw [published_recurring names ids, List.length_map] at length
  exact ⟨later, {
    length := length
    apart := apart
    ends := ends
    calendars := congrArg (·.manifest.calendars) eq
    entries := congrArg (·.manifest.aggregates) eq
    errors := congrArg (·.manifest.errors) eq
    feeds := congrArg (·.feeds) eq }⟩

/-- The external calendars of a run have no events, with a file that declares some or without. -/
theorem Run.events_of_mem_externals {reader : DocumentReader} {file : Option TextFile}
    {xs : List ExternalCalendar} (h : Run.externals reader file = .ok xs) {x : ExternalCalendar}
    (hx : x ∈ xs) : x.events = [] := by
  cases file with
  | none =>
      cases h
      cases hx
  | some f => exact Catalogue.events_of_mem_externalsBy h hx

/-- What a run publishes is determined by its definitions and external calendars. -/
theorem Run.runBy_eq_ok {reader : DocumentReader} {days : Nat} {around : Surroundings}
    {today : Date} {p : Publication}
    (h : Run.runBy almanac reader seasons days around today = .ok p) :
    ∃ window definitions externals,
      Window.ahead today days = .ok window
        ∧ Catalogue.definitionsBy reader around.recurring = .ok definitions
        ∧ Run.externals reader around.external = .ok externals
        ∧ p = Run.publication almanac window seasons definitions externals := by
  obtain ⟨_, -, h⟩ := Outcome.bind_eq_ok_iff.mp h
  obtain ⟨window, ahead, h⟩ := Outcome.bind_eq_ok_iff.mp h
  obtain ⟨definitions, loaded, h⟩ := Outcome.bind_eq_ok_iff.mp h
  obtain ⟨externals, listed, h⟩ := Outcome.bind_eq_ok_iff.mp h
  refine ⟨window, definitions, externals, ahead, Outcome.mapError_eq_ok_iff.mp loaded,
    Outcome.mapError_eq_ok_iff.mp listed, ?_⟩
  simp only [Run.writable] at h
  split at h
  · cases h
  · exact (Except.ok.inj h).symm

/-- **WHAT A RUN LEAVES BEHIND**: by whatever almanac and reader, if a run succeeds and no two of
    the definitions it loads have one identifier, then every definition, every tag and every file
    is accounted for. -/
theorem Run.run_accounts {reader : DocumentReader} {days : Nat} {around : Surroundings}
    {today : Date} {p : Publication}
    (h : Run.runBy almanac reader seasons days around today = .ok p) :
    ∃ window definitions externals,
      Window.ahead today days = .ok window
        ∧ Catalogue.definitionsBy reader around.recurring = .ok definitions
        ∧ Run.externals reader around.external = .ok externals
        ∧ ((definitions.map fun d => Identifier.ofName d.name).Nodup →
            p.manifest.ListsDefinitions almanac window seasons definitions
              ∧ p.manifest.ListsTags definitions externals
              ∧ p.Fills almanac window seasons definitions) := by
  obtain ⟨window, definitions, externals, ahead, loaded, listed, rfl⟩ := Run.runBy_eq_ok h
  refine ⟨window, definitions, externals, ahead, loaded, listed, fun ids => ?_⟩
  have names := Catalogue.nodup_definitionsBy loaded
  have none_ : ∀ x ∈ externals, x.events = [] := fun x hx =>
    Run.events_of_mem_externals listed hx
  obtain ⟨later, made⟩ := exists_madeOf almanac window seasons externals names ids
  exact ⟨made.listsDefinitions names, made.listsTags names ids none_,
    made.fills names ids none_⟩

end Loaded

/-- Two definitions with tags that differ in case only; the schedule of the second cannot be
    read. -/
def jamAndTalk : List Definition :=
  [inUtc "jam" "every Saturday" "Jazz", inUtc "talk" "now and then" "jazz"]

/-- The file that declares them. -/
def jamAndTalkFile : TextFile :=
  ⟨"events.yaml", some ("events: "
    ++ "[[jam, ~, ~, every Saturday, UTC, PT2H, '19:00', ~, ~, ~, ~, [Jazz]],"
    ++ " [talk, ~, ~, now and then, UTC, PT2H, '19:00', ~, ~, ~, ~, [jazz]]]")⟩

/-- The run of the command line on that file, with nothing declared elsewhere. -/
theorem Run.run_accounts_jam_and_talk :
    ∃ p, Run.run ⟨[]⟩ 6 ⟨jamAndTalkFile, none, false⟩ firstWeek.first = .ok p
      ∧ p.manifest.ListsDefinitions .standard firstWeek ⟨[]⟩ jamAndTalk
      ∧ p.manifest.ListsTags jamAndTalk []
      ∧ p.Fills .standard firstWeek ⟨[]⟩ jamAndTalk := by
  have loaded : Catalogue.definitionsBy .standard jamAndTalkFile = .ok jamAndTalk :=
    Outcome.eq_ok_of_toOption (by decide +kernel)
  have ahead : Window.ahead firstWeek.first 6 = .ok firstWeek := by rfl
  have short : ¬ ((Run.publication .standard firstWeek ⟨[]⟩ jamAndTalk []).files.any
      fun f => Run.maxNameSize < f.name.utf8ByteSize) = true := by decide +kernel
  have ids : (jamAndTalk.map fun d => Identifier.ofName d.name).Nodup := by decide +kernel
  have run : Run.runBy .standard .standard ⟨[]⟩ 6 ⟨jamAndTalkFile, none, false⟩ firstWeek.first
      = .ok (Run.publication .standard firstWeek ⟨[]⟩ jamAndTalk []) := by
    refine Outcome.bind_eq_ok_iff.mpr ⟨(), rfl, Outcome.bind_eq_ok_iff.mpr ⟨firstWeek, ahead,
      Outcome.bind_eq_ok_iff.mpr ⟨jamAndTalk, Outcome.mapError_eq_ok_iff.mpr loaded,
        Outcome.bind_eq_ok_iff.mpr ⟨[], rfl, ?_⟩⟩⟩⟩
    rw [Run.writable, Run.outputFault?, if_neg Bool.false_ne_true, if_neg short]
  obtain ⟨window, definitions, externals, ahead', loaded', listed, accounts⟩ :=
    Run.run_accounts run
  cases ahead.symm.trans ahead'
  cases loaded.symm.trans loaded'
  cases listed
  exact ⟨_, run, accounts ids⟩

end CalendarFeeds
