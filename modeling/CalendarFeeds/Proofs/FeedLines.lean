import CalendarFeeds.Feed
import CalendarFeeds.Proofs.Components
import CalendarFeeds.Proofs.PlainText
import CalendarFeeds.Zone.Table

/-! # Feed lines — the content lines of every feed

    A feed is its calendar's own lines and then a fixed run of lines for each event.  What the
    fields of an event hold decides only what those lines say: the lines that there are depend on
    which fields are present and on nothing else. -/

namespace CalendarFeeds

open ICalendar

-- ── The lines ────────────────────────────────────────────────────────────────────

/-- A content line with its value as it is. -/
def plainLine (name value : String) : List Char :=
  name.toList ++ ':' :: value.toList

/-- A content line with a text value. -/
def textLine (name value : String) : List Char :=
  name.toList ++ ':' :: escapeText value.toList

/-- A content line with a value that loses its control characters. -/
def rawLine (name value : String) : List Char :=
  name.toList ++ ':' :: stripControls value.toList

/-- The content line of a list of texts, unless there are none. -/
def textsLine (name : String) (values : List String) : List (List Char) :=
  if values = [] then []
  else [name.toList ++ ':' :: joinComma (values.map fun v => escapeText v.toList)]

def Event.startLine (e : Event) : List Char :=
  "DTSTART;TZID=".toList ++ quoteParameter e.start.zone.name.toList
    ++ ':' :: e.start.localStamp.toList

def Event.lines (e : Event) : List (List Char) :=
  [plainLine "BEGIN" "VEVENT",
    textLine "UID" e.id,
    plainLine "DTSTAMP" e.start.utcStamp,
    e.startLine,
    plainLine "DURATION" (Duration.ofMilliseconds e.length).text]
    ++ (e.rule.map fun r => plainLine "RRULE" r.text).toList
    ++ [textLine "SUMMARY" e.summary]
    ++ (e.description.map (textLine "DESCRIPTION")).toList
    ++ (e.location.map (textLine "LOCATION")).toList
    ++ (e.url.map (rawLine "URL")).toList
    ++ textsLine "CATEGORIES" e.tags
    ++ [plainLine "END" "VEVENT"]

namespace Feed

/-- The content lines of a calendar with a description or without one. -/
def lines (friendlyName : String) (description : Option String) (events : List Event) :
    List (List Char) :=
  [plainLine "BEGIN" "VCALENDAR",
    plainLine "VERSION" "2.0",
    textLine "PRODID" productId,
    plainLine "CALSCALE" "GREGORIAN",
    textLine "X-WR-CALNAME" friendlyName]
    ++ (description.map (textLine "X-WR-CALDESC")).toList
    ++ events.flatMap Event.lines
    ++ [plainLine "END" "VCALENDAR"]

/-- The description of an aggregate that has contributors. -/
def description? (a : Aggregate) : Option String :=
  if a.sources ++ a.externals = [] then none
  else some ("Events tagged " ++ a.tag ++ " from "
    ++ String.intercalate ", " (a.sources ++ a.externals))

end Feed

-- ── The lines of an event ────────────────────────────────────────────────────────

/-- A property without parameters is its name in capitals, a colon and its value. -/
theorem line_ofValue (name : String) (value : ICalendar.Value) :
    (Property.ofValue name value).line = (Text.uppered name).toList ++ ':' :: value.content :=
  congrArg (· ++ ':' :: value.content) (List.append_nil _)

theorem line_text {name : String} (capitals : Text.uppered name = name) (value : String) :
    (Property.text name value).line = textLine name value := by
  rw [Property.text, line_ofValue, capitals]
  rfl

theorem line_raw {name : String} (capitals : Text.uppered name = name) (value : String) :
    (Property.raw name value).line = rawLine name value := by
  rw [Property.raw, line_ofValue, capitals]
  rfl

theorem rawLine_eq {value : String} (h : Plain value) (name : String) :
    rawLine name value = plainLine name value := by
  rw [rawLine, h.stripControls_eq]
  rfl

/-- An optional property writes the line of its value, or no line. -/
theorem map_line_optionalProperty (value : Option String) {make : String → Property}
    {line : String → List Char} (h : ∀ s, (make s).line = line s) :
    (optionalProperty value make).map Property.line = (value.map line).toList := by
  cases value with
  | none => rfl
  | some s => exact congrArg ([·]) (h s)

/-- An optional property takes up its own name at most. -/
theorem names_optionalProperty {name : String} (value : Option String) {make : String → Property}
    (h : ∀ s, (make s).name = name) :
    ((optionalProperty value make).map Property.name).Sublist [name] := by
  cases value with
  | none => exact List.nil_sublist _
  | some s => exact (congrArg ([·]) (h s)) ▸ List.Sublist.refl [name]

/-- The properties of an event follow the order of events, each field in its place if it is
    there. -/
theorem Event.names_sublist (e : Event) :
    (e.properties.map Property.name).Sublist Kind.event.propertyOrder := by
  -- the end of an event has a place in the order, but events give their duration instead
  have order : Kind.event.propertyOrder
      = ["UID", "DTSTAMP", "DTSTART", "DTEND", "DURATION"] ++ ["RRULE"] ++ ["SUMMARY"]
        ++ ["DESCRIPTION"] ++ ["LOCATION"] ++ ["URL"] ++ ["CATEGORIES"] := rfl
  have always :
      ([.text "UID" e.id,
        .raw "DTSTAMP" e.start.utcStamp,
        { Property.raw "DTSTART" e.start.localStamp with
          parameters := [.single "TZID" e.start.zone.name] },
        .raw "DURATION" (Duration.ofMilliseconds e.length).text].map Property.name).Sublist
        ["UID", "DTSTAMP", "DTSTART", "DTEND", "DURATION"] := by
    show ["UID", "DTSTAMP", "DTSTART", "DURATION"].Sublist _
    decide
  have rule : ((optionalProperty (e.rule.map Rule.text) (.raw "RRULE")).map Property.name).Sublist
      ["RRULE"] := names_optionalProperty _ fun _ => rfl
  have summary : ([Property.text "SUMMARY" e.summary].map Property.name).Sublist ["SUMMARY"] :=
    List.Sublist.refl ["SUMMARY"]
  have description : ((optionalProperty e.description (.text "DESCRIPTION")).map
      Property.name).Sublist ["DESCRIPTION"] := names_optionalProperty _ fun _ => rfl
  have location : ((optionalProperty e.location (.text "LOCATION")).map Property.name).Sublist
      ["LOCATION"] := names_optionalProperty _ fun _ => rfl
  have url : ((optionalProperty e.url (.raw "URL")).map Property.name).Sublist ["URL"] :=
    names_optionalProperty _ fun _ => rfl
  have categories :
      ((if e.tags = [] then []
        else [Property.ofValue "CATEGORIES" (.texts e.tags)]).map Property.name).Sublist
        ["CATEGORIES"] := by
    split
    · exact List.nil_sublist _
    · exact List.Sublist.refl ["CATEGORIES"]
  simp only [Event.properties, List.map_append]
  rw [order]
  exact (((((always.append rule).append summary).append description).append location).append
    url).append categories

/-- The properties of an event write, in their order, the lines between BEGIN and END. -/
theorem Event.map_line_properties (e : Event) :
    plainLine "BEGIN" "VEVENT" :: e.properties.map Property.line ++ [plainLine "END" "VEVENT"]
      = e.lines := by
  have start : ({ Property.raw "DTSTART" e.start.localStamp with
      parameters := [.single "TZID" e.start.zone.name] } : Property).line = e.startLine := by
    have parameter : (Parameter.single "TZID" e.start.zone.name).content
        = "TZID=".toList ++ quoteParameter e.start.zone.name.toList := by
      show (Text.uppered "TZID").toList ++ '=' :: joinComma [quoteParameter _] = _
      rw [joinComma_cons, List.flatMap_nil, List.append_nil]
      rfl
    show (Text.uppered "DTSTART").toList
      ++ [Parameter.single "TZID" e.start.zone.name].flatMap (fun q => ';' :: q.content)
      ++ ':' :: stripControls e.start.localStamp.toList = e.startLine
    rw [List.flatMap_singleton, parameter, e.start.plain_localStamp.stripControls_eq]
    rfl
  have rule : (optionalProperty (e.rule.map Rule.text) (.raw "RRULE")).map Property.line
      = (e.rule.map fun r => plainLine "RRULE" r.text).toList := by
    cases e.rule with
    | none => rfl
    | some r => exact congrArg ([·]) ((line_raw rfl r.text).trans (rawLine_eq r.plain_text _))
  have categories :
      (if e.tags = [] then []
        else [Property.ofValue "CATEGORIES" (.texts e.tags)]).map Property.line
        = textsLine "CATEGORIES" e.tags := by
    simp only [textsLine]
    split
    · rfl
    · exact congrArg ([·]) (line_ofValue _ _)
  simp only [Event.properties, List.map_append, List.map_cons, List.map_nil]
  rw [rule, categories, start, line_text rfl, line_raw rfl, line_raw rfl, line_text rfl,
    map_line_optionalProperty _ (line_text rfl), map_line_optionalProperty _ (line_text rfl),
    map_line_optionalProperty _ (line_raw rfl), rawLine_eq e.start.plain_utcStamp,
    rawLine_eq (Duration.ofMilliseconds e.length).plain_text]
  simp only [Event.lines, List.cons_append]

/-- The lines of the component are those of the event: its properties already stand in order. -/
theorem Event.lines_component (e : Event) : e.component.lines = e.lines := by
  rw [← e.map_line_properties]
  simp only [Event.component, Component.lines, Component.allLines]
  rw [Kind.inOrder_of_sublist e.names_sublist, List.append_nil]
  rfl

/-- An optional property brings no parameter when its kind has none. -/
theorem parameters_optionalProperty (value : Option String) {make : String → Property}
    (h : ∀ s, (make s).parameters = []) :
    (optionalProperty value make).flatMap Property.parameters = [] := by
  cases value with
  | none => rfl
  | some s => exact (List.append_nil _).trans (h s)

/-- Only the start of an event has a parameter, the name of its zone. -/
theorem Event.parameters_properties (e : Event) :
    e.properties.flatMap Property.parameters = [.single "TZID" e.start.zone.name] := by
  have categories :
      (if e.tags = [] then []
        else [Property.ofValue "CATEGORIES" (.texts e.tags)]).flatMap Property.parameters = [] := by
    split <;> rfl
  simp only [Event.properties, List.flatMap_append]
  rw [categories, parameters_optionalProperty _ fun _ => rfl,
    parameters_optionalProperty _ fun _ => rfl, parameters_optionalProperty _ fun _ => rfl,
    parameters_optionalProperty _ fun _ => rfl]
  rfl

/-- Every property name that is ordered is a name in the sense of the grammar. -/
theorem isName_of_mem_propertyOrder {k : Kind} {name : String} (h : name ∈ k.propertyOrder) :
    IsName name := by
  have each : ∀ name ∈ k.propertyOrder, IsName name := by cases k <;> decide +kernel
  exact each name h

/-- An event keeps to its lines as long as its zone's name holds no carriage return. -/
theorem Event.onOneLine {e : Event} (zone : '\r' ∉ e.start.zone.name.toList) :
    ∀ p ∈ e.properties, p.OnOneLine := by
  intro p hp
  have parameter : ∀ q ∈ p.parameters, q = .single "TZID" e.start.zone.name := by
    intro q hq
    have here := List.mem_flatMap.mpr ⟨p, hp, hq⟩
    rw [e.parameters_properties] at here
    exact List.mem_singleton.mp here
  refine ⟨isName_of_mem_propertyOrder
    (e.names_sublist.subset (List.mem_map.mpr ⟨p, hp, rfl⟩)), fun q hq => ?_, fun q hq v hv => ?_⟩
  · have named : IsName (Text.uppered "TZID") := by decide
    rwa [parameter q hq]
  · rw [parameter q hq] at hv
    rwa [List.mem_singleton.mp hv]

-- ── The lines of a feed ──────────────────────────────────────────────────────────

/-- The lines of several events follow one another. -/
theorem allLines_map_component (events : List Event) :
    Component.allLines (events.map Event.component) = events.flatMap Event.lines := by
  induction events with
  | nil => rfl
  | cons e events ih =>
      rw [List.map_cons, List.flatMap_cons, Component.allLines, ih, e.lines_component]

theorem everyIn_map_component {events : List Event}
    (zones : ∀ e ∈ events, '\r' ∉ e.start.zone.name.toList) :
    Component.EveryIn Property.OnOneLine (events.map Event.component) := by
  induction events with
  | nil => trivial
  | cons e events ih =>
      exact ⟨⟨Event.onOneLine (zones e List.mem_cons_self), trivial⟩,
        ih fun f hf => zones f (List.mem_cons_of_mem e hf)⟩

namespace Feed

/-- The properties of a calendar: those of its product, its name and perhaps a description. -/
def properties (friendlyName : String) (description : Option String) : List Property :=
  Component.calendarProperties productId ++ .text "X-WR-CALNAME" friendlyName
    :: optionalProperty description (.text "X-WR-CALDESC")

/-- A calendar writes its properties in the canonical order, each at most once. -/
theorem names_sublist (friendlyName : String) (description : Option String) :
    ((properties friendlyName description).map Property.name).Sublist
      Kind.calendar.propertyOrder := by
  have order : Kind.calendar.propertyOrder
      = ["VERSION", "PRODID", "CALSCALE", "METHOD", "X-WR-CALNAME"]
        ++ ["X-WR-CALDESC", "X-WR-TIMEZONE"] := rfl
  have always : ((Component.calendarProperties productId
      ++ [Property.text "X-WR-CALNAME" friendlyName]).map Property.name).Sublist
      ["VERSION", "PRODID", "CALSCALE", "METHOD", "X-WR-CALNAME"] := by
    show ["VERSION", "PRODID", "CALSCALE", "X-WR-CALNAME"].Sublist _
    decide
  have described : ((optionalProperty description (.text "X-WR-CALDESC")).map
      Property.name).Sublist ["X-WR-CALDESC"] := names_optionalProperty _ fun _ => rfl
  rw [order, properties, List.append_cons, List.map_append]
  exact always.append (described.trans (List.sublist_append_left _ ["X-WR-TIMEZONE"]))

/-- The texts of a calendar never leave their line. -/
theorem onOneLine_properties (friendlyName : String) (description : Option String) :
    ∀ p ∈ properties friendlyName description, p.OnOneLine := by
  intro p hp
  have bare : (properties friendlyName description).flatMap Property.parameters = [] := by
    rw [properties, List.append_cons, List.flatMap_append,
      parameters_optionalProperty _ fun _ => rfl]
    rfl
  have parameter : ∀ q, q ∉ p.parameters := by
    intro q hq
    have here := List.mem_flatMap.mpr ⟨p, hp, hq⟩
    rw [bare] at here
    cases here
  exact ⟨isName_of_mem_propertyOrder
    ((names_sublist friendlyName description).subset (List.mem_map.mpr ⟨p, hp, rfl⟩)),
    fun q hq => absurd hq (parameter q), fun q hq => absurd hq (parameter q)⟩

theorem lines_node (friendlyName : String) (description : Option String) (events : List Event) :
    (Component.node .calendar (properties friendlyName description)
      (events.map Event.component)).lines = lines friendlyName description events := by
  have own : (properties friendlyName description).map Property.line
      = [plainLine "VERSION" "2.0", textLine "PRODID" productId,
          plainLine "CALSCALE" "GREGORIAN", textLine "X-WR-CALNAME" friendlyName]
        ++ (description.map (textLine "X-WR-CALDESC")).toList := by
    rw [properties, List.append_cons, List.map_append,
      map_line_optionalProperty _ (line_text rfl)]
    simp only [Component.calendarProperties, List.cons_append, List.nil_append, List.map_cons,
      List.map_nil]
    rw [line_raw rfl, line_raw rfl, line_text rfl, line_text rfl, rawLine_eq (by decide),
      rawLine_eq (by decide)]
  simp only [Component.lines]
  rw [Kind.inOrder_of_sublist (names_sublist friendlyName description), own,
    allLines_map_component]
  rfl

/-- What is written folds the calendar's lines; only the zones' names are asked anything. -/
theorem folds_document {friendlyName : String} {description : Option String} {events : List Event}
    (zones : ∀ e ∈ events, '\r' ∉ e.start.zone.name.toList) :
    Folds (document friendlyName (optionalProperty description (.text "X-WR-CALDESC"))
      events).text.toList (lines friendlyName description events) := by
  rw [document, ← properties, ← lines_node]
  exact Component.folds_lines
    ⟨onOneLine_properties friendlyName description, everyIn_map_component zones⟩

/-- The feed of a calendar is its document without a description. -/
theorem text_eq (friendlyName : String) (events : List Event) :
    text friendlyName events
      = (document friendlyName (optionalProperty none (.text "X-WR-CALDESC")) events).text := by
  rw [text, optionalProperty]

/-- The feed of an aggregate is its document with a description of its contributors, if there is
    one. -/
theorem ofAggregate_eq (a : Aggregate) :
    ofAggregate a = (document a.friendlyName
      (optionalProperty (description? a) (.text "X-WR-CALDESC")) a.events).text := by
  have described : contributors a.tag (a.sources ++ a.externals)
      = optionalProperty (description? a) (.text "X-WR-CALDESC") := by
    simp only [contributors, description?]
    split <;> rfl
  rw [ofAggregate, described]

/-- **THE LINES OF EVERY FEED**, of a calendar and of an aggregate: whatever text the fields of
    the events hold, the feed is well folded and its content lines are those listed.  Names of
    zones are the one thing asked about: that they hold no carriage return. -/
theorem folds_text_ofAggregate :
    (∀ (friendlyName : String) (events : List Event),
        (∀ e ∈ events, '\r' ∉ e.start.zone.name.toList) →
        Folds (text friendlyName events).toList (lines friendlyName none events))
      ∧ ∀ a : Aggregate, (∀ e ∈ a.events, '\r' ∉ e.start.zone.name.toList) →
        Folds (ofAggregate a).toList (lines a.friendlyName (description? a) a.events) := by
  constructor
  · intro friendlyName events zones
    rw [text_eq]
    exact folds_document zones
  · intro a zones
    rw [ofAggregate_eq]
    exact folds_document zones

/-- An event whose fields imitate line breaks, folds, marks and separators. -/
def imitator : Event :=
  { id := "a:b;c"
    summary := "Jam\r\nEND:VEVENT\r\nBEGIN:VEVENT"
    location := some "Hall\r\n 2"
    url := some "https://jam.example/\nSUMMARY:other"
    description := none
    start := ⟨1704067200, false, Zone.fixed "EST" Zone.easternStandard⟩
    length := 7200000
    rule := none
    tags := ["jazz, hot", "\\,"] }

theorem folds_text_ofAggregate_imitator :
    '\r' ∉ imitator.start.zone.name.toList
      ∧ Folds (text "Jams\r\nX:1" [imitator, imitator]).toList
          (lines "Jams\r\nX:1" none [imitator, imitator])
      ∧ Folds (ofAggregate ⟨"jazz", "jazz", "jazz", [imitator], ["Jam\r"], []⟩).toList
          (lines "jazz" (some "Events tagged jazz from Jam\r") [imitator])
      ∧ (lines "Jams\r\nX:1" none [imitator, imitator]).length = 6 + 2 * 10 := by
  have zone : ∀ e ∈ [imitator, imitator], '\r' ∉ e.start.zone.name.toList := by decide
  exact ⟨zone imitator List.mem_cons_self,
    folds_text_ofAggregate.1 "Jams\r\nX:1" [imitator, imitator] zone,
    folds_text_ofAggregate.2 ⟨"jazz", "jazz", "jazz", [imitator], ["Jam\r"], []⟩
      fun e he => zone e (List.mem_cons_of_mem imitator he),
    rfl⟩

end Feed

end CalendarFeeds
