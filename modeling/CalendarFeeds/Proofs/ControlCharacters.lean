import CalendarFeeds.Proofs.FeedLines

/-! # Control characters — which fields let them into a feed

    Each kind of value has its own way with control characters.  A raw value loses them all.  A
    text value has its line breaks written as escapes and keeps every other one, and a parameter
    value escapes only line feeds.  What the program writes of itself has none.

    Folding adds line breaks and spaces and nothing else, so a feed is as free of them as its
    content lines are, and these are settled line by line: the text fields decide, and an address
    may hold anything. -/

namespace CalendarFeeds

open ICalendar

/-- Every control character of a text is one of those allowed. -/
def ControlsWithin (allowed s : List Char) : Prop :=
  ∀ c ∈ s, Text.isControl c = true → c ∈ allowed

/-- A text field with no control characters but tabs and line breaks. -/
def Tame (s : String) : Prop :=
  ControlsWithin ['\t', '\n', '\r'] s.toList

/-- **A TEXT FREE OF CONTROL CHARACTERS** other than tabs: its line breaks are pairs of carriage
    return and line feed, each at the end of a line, and no line holds another one. -/
structure FreeOfControls (text : List Char) : Prop where
  breaks : text = (physicalLines text).flatMap ended
  lines : ∀ line ∈ physicalLines text, ControlsWithin ['\t'] line

namespace ControlsWithin

variable {allowed s t : List Char}

theorem nil : ControlsWithin allowed [] :=
  List.forall_mem_nil _

theorem singleton_iff {c : Char} :
    ControlsWithin allowed [c] ↔ (Text.isControl c = true → c ∈ allowed) :=
  List.forall_mem_singleton

theorem cons_iff {c : Char} :
    ControlsWithin allowed (c :: s)
      ↔ (Text.isControl c = true → c ∈ allowed) ∧ ControlsWithin allowed s :=
  List.forall_mem_cons

/-- What is put together is clean when both halves are. -/
theorem append_iff :
    ControlsWithin allowed (s ++ t) ↔ ControlsWithin allowed s ∧ ControlsWithin allowed t :=
  List.forall_mem_append

/-- What is no control character need not be allowed. -/
theorem of_shown {c : Char} (shown : Text.isControl c = false) :
    Text.isControl c = true → c ∈ allowed := by
  intro control
  rw [shown] at control
  cases control

/-- A plain text is within every bound. -/
theorem of_plain {s : String} (h : Plain s) : ControlsWithin allowed s.toList :=
  fun c hc => of_shown (h c hc)

/-- A character in front that is no control character does not count. -/
theorem cons_shown_iff {c : Char} (shown : Text.isControl c = false) :
    ControlsWithin allowed (c :: s) ↔ ControlsWithin allowed s := by
  rw [cons_iff, and_iff_right (of_shown shown)]

/-- A plain text in front does not matter. -/
theorem plain_append_iff {s : String} (h : Plain s) :
    ControlsWithin allowed (s.toList ++ t) ↔ ControlsWithin allowed t := by
  rw [append_iff, and_iff_right (of_plain h)]

/-- Joined texts are judged one by one, if their separator is plain. -/
theorem intercalate_iff {separator : List Char} (plain : ControlsWithin allowed separator)
    {items : List (List Char)} :
    ControlsWithin allowed (List.intercalate separator items)
      ↔ ∀ item ∈ items, ControlsWithin allowed item := by
  induction items with
  | nil => exact iff_of_true (List.forall_mem_nil _) (List.forall_mem_nil _)
  | cons x rest ih =>
      cases rest with
      | nil => rw [List.intercalate_singleton, List.forall_mem_singleton]
      | cons y rest =>
          rw [List.intercalate_cons_cons, append_iff, append_iff, and_iff_left plain, ih,
            List.forall_mem_cons (l := y :: rest)]

/-- A text written character by character is within bounds when every character's writing is. -/
theorem flatMap_iff {f : Char → List Char} :
    ControlsWithin allowed (s.flatMap f) ↔ ∀ c ∈ s, ControlsWithin allowed (f c) := by
  constructor
  · intro all c hc d hd
    exact all d (List.mem_flatMap.mpr ⟨c, hc, hd⟩)
  · intro all d hd
    obtain ⟨c, hc, here⟩ := List.mem_flatMap.mp hd
    exact all c hc d here

end ControlsWithin

-- ── Values ───────────────────────────────────────────────────────────────────────

namespace ICalendar

/-- An escaped character is as free of control characters as the character, line breaks apart. -/
theorem controlsWithin_escapeChar_iff {c : Char} :
    ControlsWithin ['\t'] (escapeChar c)
      ↔ (Text.isControl c = true → c ∈ ['\t', '\n', '\r']) := by
  have escaped : ∀ d, Text.isControl d = false → ControlsWithin ['\t'] ['\\', d] := by
    intro d shown
    rw [ControlsWithin.cons_shown_iff rfl, ControlsWithin.cons_shown_iff shown]
    exact .nil
  simp only [escapeChar]
  split_ifs with backslash comma semicolon br
  · subst backslash
    exact iff_of_true (escaped _ rfl) (ControlsWithin.of_shown rfl)
  · subst comma
    exact iff_of_true (escaped _ rfl) (ControlsWithin.of_shown rfl)
  · subst semicolon
    exact iff_of_true (escaped _ rfl) (ControlsWithin.of_shown rfl)
  · refine iff_of_true (escaped _ rfl) fun _ => ?_
    rcases br with rfl | rfl <;> decide
  · obtain ⟨noFeed, noReturn⟩ := not_or.mp br
    rw [ControlsWithin.singleton_iff]
    simp [noFeed, noReturn]

/-- **A TEXT VALUE** keeps the control characters of its text, but for line breaks. -/
theorem controlsWithin_escapeText_iff {s : List Char} :
    ControlsWithin ['\t'] (escapeText s) ↔ ControlsWithin ['\t', '\n', '\r'] s := by
  induction s using escapeText.induct with
  | case1 => exact iff_of_true .nil .nil
  | case2 c =>
      rw [escapeText, controlsWithin_escapeChar_iff, ControlsWithin.singleton_iff]
  | case3 c d rest pair ih =>
      obtain ⟨rfl, rfl⟩ := pair
      rw [escapeText, if_pos ⟨rfl, rfl⟩, ControlsWithin.cons_shown_iff rfl,
        ControlsWithin.cons_shown_iff rfl, ih, ControlsWithin.cons_iff, ControlsWithin.cons_iff,
        and_iff_right (by decide), and_iff_right (by decide)]
  | case4 c d rest single ih =>
      rw [escapeText, if_neg single, ControlsWithin.append_iff, ih,
        controlsWithin_escapeChar_iff, ← ControlsWithin.cons_iff]

/-- **A RAW VALUE** keeps none. -/
theorem controlsWithin_stripControls {allowed : List Char} (s : List Char) :
    ControlsWithin allowed (stripControls s) := by
  intro c hc control
  have shown := (List.mem_filter.mp hc).2
  rw [control] at shown
  cases shown

/-- Quoting takes away the line feed, and with it no other control character. -/
theorem controlsWithin_quoteChar_iff {c : Char} :
    ControlsWithin ['\t'] (quoteChar c) ↔ (Text.isControl c = true → c ∈ ['\t', '\n']) := by
  have escaped : ∀ d, Text.isControl d = false → ControlsWithin ['\t'] ['^', d] := by
    intro d shown
    rw [ControlsWithin.cons_shown_iff rfl, ControlsWithin.cons_shown_iff shown]
    exact .nil
  simp only [quoteChar]
  split_ifs with caret feed quote
  · subst caret
    exact iff_of_true (escaped _ rfl) (ControlsWithin.of_shown rfl)
  · subst feed
    exact iff_of_true (escaped _ rfl) fun _ => by decide
  · subst quote
    exact iff_of_true (escaped _ rfl) (ControlsWithin.of_shown rfl)
  · rw [ControlsWithin.singleton_iff]
    simp [feed]

/-- **A PARAMETER VALUE** keeps all but line feeds. -/
theorem controlsWithin_quoteParameter_iff {s : List Char} :
    ControlsWithin ['\t'] (quoteParameter s) ↔ ControlsWithin ['\t', '\n'] s := by
  simp only [quoteParameter]
  split
  · rw [List.cons_append, ControlsWithin.cons_shown_iff rfl, ControlsWithin.append_iff,
      ControlsWithin.flatMap_iff, and_iff_left]
    · exact forall₂_congr fun c _ => controlsWithin_quoteChar_iff
    · exact (ControlsWithin.cons_shown_iff rfl).mpr .nil
  · next bare =>
      -- a line feed would have made it quoted
      refine forall₂_congr fun c hc => ?_
      have noFeed : c ≠ '\n' := by
        rintro rfl
        exact bare (List.any_eq_true.mpr ⟨'\n', hc, rfl⟩)
      simp [noFeed]

end ICalendar

-- ── Folded lines ─────────────────────────────────────────────────────────────────

/-- Folding neither adds a control character to a line nor hides one. -/
theorem controlsWithin_foldedLines_iff {allowed line : List Char} :
    (∀ s ∈ foldedLines line, ControlsWithin allowed s) ↔ ControlsWithin allowed line := by
  constructor
  · intro all c hc control
    have whole := segmentsFrom_flatten 0 line
    rw [← whole] at hc
    rcases List.mem_append.mp hc with now | later
    · exact all _ List.mem_cons_self c now control
    · obtain ⟨s, hs, here⟩ := List.mem_flatten.mp later
      exact all (' ' :: s) (List.mem_cons_of_mem _ (List.mem_map_of_mem hs)) c
        (List.mem_cons_of_mem ' ' here) control
  · intro clean s hs c hc control
    rcases mem_foldedLines hs hc with rfl | inLine
    · cases control
    · exact clean c inLine control

/-- Folding is neutral: the written lines are free of control characters exactly when each content
    line has no more than tabs. -/
theorem freeOfControls_flatMap_foldLine_iff {lines : List (List Char)}
    (h : ∀ l ∈ lines, '\n' ∉ l) :
    FreeOfControls (lines.flatMap foldLine) ↔ ∀ l ∈ lines, ControlsWithin ['\t'] l := by
  have split := physicalLines_flatMap_foldLine h
  constructor
  · rintro ⟨-, clean⟩ l hl
    rw [split] at clean
    exact controlsWithin_foldedLines_iff.mp fun s hs =>
      clean s (List.mem_flatMap.mpr ⟨l, hl, hs⟩)
  · intro clean
    refine ⟨by rw [split, flatMap_foldLine], fun s hs => ?_⟩
    rw [split] at hs
    obtain ⟨l, hl, made⟩ := List.mem_flatMap.mp hs
    exact controlsWithin_foldedLines_iff.mpr (clean l hl) s made

-- ── Content lines ────────────────────────────────────────────────────────────────

/-- A line made of plain texts is clean. -/
theorem controlsWithin_plainLine {allowed : List Char} {name value : String} (hn : Plain name)
    (hv : Plain value) : ControlsWithin allowed (plainLine name value) := by
  rw [plainLine, ControlsWithin.plain_append_iff hn, ControlsWithin.cons_shown_iff rfl]
  exact .of_plain hv

/-- A text line is clean exactly when its value is tame. -/
theorem controlsWithin_textLine_iff {name value : String} (h : Plain name) :
    ControlsWithin ['\t'] (textLine name value) ↔ Tame value := by
  rw [textLine, ControlsWithin.plain_append_iff h, ControlsWithin.cons_shown_iff rfl]
  exact controlsWithin_escapeText_iff

/-- A raw line is always clean, since its value is stripped. -/
theorem controlsWithin_rawLine {allowed : List Char} {name : String} (h : Plain name)
    (value : String) : ControlsWithin allowed (rawLine name value) := by
  rw [rawLine, ControlsWithin.plain_append_iff h, ControlsWithin.cons_shown_iff rfl]
  exact controlsWithin_stripControls value.toList

/-- A list line is clean exactly when each of its values is tame; an empty list writes no line. -/
theorem controlsWithin_textsLine_iff {name : String} (h : Plain name) {values : List String} :
    (∀ l ∈ textsLine name values, ControlsWithin ['\t'] l) ↔ ∀ v ∈ values, Tame v := by
  have comma : ControlsWithin ['\t'] [','] :=
    ControlsWithin.singleton_iff.mpr (ControlsWithin.of_shown rfl)
  simp only [textsLine]
  split
  · next none_ =>
      subst none_
      exact iff_of_true (List.forall_mem_nil _) (List.forall_mem_nil _)
  · rw [List.forall_mem_singleton, ControlsWithin.plain_append_iff h,
      ControlsWithin.cons_shown_iff rfl, joinComma, ControlsWithin.intercalate_iff comma,
      List.forall_mem_map]
    exact forall₂_congr fun v _ => controlsWithin_escapeText_iff

/-- Only the zone's name can bring a control character into the start line. -/
theorem Event.controlsWithin_startLine_iff {e : Event} :
    ControlsWithin ['\t'] e.startLine ↔ ControlsWithin ['\t', '\n'] e.start.zone.name.toList := by
  have name : Plain "DTSTART;TZID=" := by decide
  have stamp : ControlsWithin ['\t'] (':' :: e.start.localStamp.toList) :=
    (ControlsWithin.cons_shown_iff rfl).mpr (.of_plain e.start.plain_localStamp)
  refine ControlsWithin.append_iff.trans ?_
  rw [and_iff_left stamp, ControlsWithin.plain_append_iff name]
  exact controlsWithin_quoteParameter_iff

/-- A line of a name and a value has a line feed only if the value has one. -/
theorem feed_not_mem_line {name : String} (h : Plain name) {content : List Char}
    (clean : '\n' ∉ content) : '\n' ∉ name.toList ++ ':' :: content := by
  intro here
  rcases List.mem_append.mp here with inName | after
  · cases h _ inName
  rcases List.mem_cons.mp after with colon | inContent
  · cases colon
  · exact clean inContent

/-- No value writes a line feed. -/
theorem feed_not_mem_content (v : ICalendar.Value) : '\n' ∉ v.content :=
  fun here => (ICalendar.Value.noBreak here).2 rfl

theorem Plain.feed_not_mem {s : String} (h : Plain s) : '\n' ∉ s.toList := by
  intro here
  cases h _ here

theorem feed_not_mem_plainLine {name value : String} (hn : Plain name) (hv : Plain value) :
    '\n' ∉ plainLine name value :=
  feed_not_mem_line hn hv.feed_not_mem

theorem feed_not_mem_textLine {name : String} (h : Plain name) (value : String) :
    '\n' ∉ textLine name value :=
  feed_not_mem_line h (feed_not_mem_content (.text value))

theorem feed_not_mem_rawLine {name : String} (h : Plain name) (value : String) :
    '\n' ∉ rawLine name value :=
  feed_not_mem_line h (feed_not_mem_content (.raw value))

theorem feed_not_mem_textsLine {name : String} (h : Plain name) (values : List String) :
    ∀ l ∈ textsLine name values, '\n' ∉ l := by
  intro l hl
  simp only [textsLine] at hl
  split at hl
  · cases hl
  · rw [List.mem_singleton.mp hl]
    exact feed_not_mem_line h (feed_not_mem_content (.texts values))

theorem Event.feed_not_mem_startLine (e : Event) : '\n' ∉ e.startLine := by
  intro here
  rcases List.mem_append.mp here with before | after
  · rcases List.mem_append.mp before with name | inZone
    · revert name
      decide
    · exact (mem_quoteParameter inZone).1 rfl
  · rcases List.mem_cons.mp after with colon | inStamp
    · cases colon
    · exact e.start.plain_localStamp.feed_not_mem inStamp

-- ── The lines of a feed ──────────────────────────────────────────────────────────

/-- What holds of an optional line holds of its value, if there is one. -/
theorem forall_mem_toList_map {α β : Type} {P : β → Prop} (value : Option α) (f : α → β) :
    (∀ x ∈ (value.map f).toList, P x) ↔ ∀ a ∈ value, P (f a) := by
  cases value with
  | none => exact iff_of_true (List.forall_mem_nil _) nofun
  | some a => simp

/-- What holds of all lines of an event, line by line. -/
theorem Event.forall_mem_lines {e : Event} {P : List Char → Prop} :
    (∀ l ∈ e.lines, P l)
      ↔ P (plainLine "BEGIN" "VEVENT") ∧ P (textLine "UID" e.id)
        ∧ P (plainLine "DTSTAMP" e.start.utcStamp) ∧ P e.startLine
        ∧ P (plainLine "DURATION" (Duration.ofMilliseconds e.length).text)
        ∧ (∀ r ∈ e.rule, P (plainLine "RRULE" r.text)) ∧ P (textLine "SUMMARY" e.summary)
        ∧ (∀ s ∈ e.description, P (textLine "DESCRIPTION" s))
        ∧ (∀ s ∈ e.location, P (textLine "LOCATION" s)) ∧ (∀ s ∈ e.url, P (rawLine "URL" s))
        ∧ (∀ l ∈ textsLine "CATEGORIES" e.tags, P l) ∧ P (plainLine "END" "VEVENT") := by
  simp only [lines, List.forall_mem_append, List.forall_mem_cons, forall_mem_toList_map,
    List.not_mem_nil, false_implies, implies_true, and_true, and_assoc]

/-- No line of an event holds a line feed, so that each is folded by itself. -/
theorem Event.feed_not_mem_lines (e : Event) : ∀ l ∈ e.lines, '\n' ∉ l := by
  refine Event.forall_mem_lines.mpr ⟨?_, ?_, ?_, ?_, ?_, ?_, ?_, ?_, ?_, ?_, ?_, ?_⟩
  · exact feed_not_mem_plainLine (by decide) (by decide)
  · exact feed_not_mem_textLine (by decide) _
  · exact feed_not_mem_plainLine (by decide) e.start.plain_utcStamp
  · exact e.feed_not_mem_startLine
  · exact feed_not_mem_plainLine (by decide) (Duration.plain_text _)
  · exact fun r _ => feed_not_mem_plainLine (by decide) r.plain_text
  · exact feed_not_mem_textLine (by decide) _
  · exact fun s _ => feed_not_mem_textLine (by decide) s
  · exact fun s _ => feed_not_mem_textLine (by decide) s
  · exact fun s _ => feed_not_mem_rawLine (by decide) s
  · exact feed_not_mem_textsLine (by decide) _
  · exact feed_not_mem_plainLine (by decide) (by decide)

/-- The fields of an event that are written as text. -/
def Event.textFields (e : Event) : List String :=
  [e.id, e.summary] ++ e.description.toList ++ e.location.toList ++ e.tags

/-- An event whose fields let no control character into its lines: the fields that are written as
    text have tabs and line breaks at most, and the name of its zone tabs and line feeds. -/
structure Event.IsTame (e : Event) : Prop where
  fields : ∀ s ∈ e.textFields, Tame s
  zone : ControlsWithin ['\t', '\n'] e.start.zone.name.toList

/-- **THE LINES OF AN EVENT** hold no control character but tabs exactly if its fields are tame. -/
theorem Event.controlsWithin_lines_iff {e : Event} :
    (∀ l ∈ e.lines, ControlsWithin ['\t'] l) ↔ e.IsTame := by
  have fields : (∀ s ∈ e.textFields, Tame s) ↔ Tame e.id ∧ Tame e.summary
      ∧ (∀ s ∈ e.description, Tame s) ∧ (∀ s ∈ e.location, Tame s) ∧ ∀ s ∈ e.tags, Tame s := by
    simp only [textFields, List.forall_mem_append, List.forall_mem_cons, Option.mem_toList,
      List.not_mem_nil, false_implies, implies_true, true_and, and_assoc, Option.mem_def]
  have text {name : String} (h : Plain name) (value : String) :
      ControlsWithin ['\t'] (textLine name value) ↔ Tame value := controlsWithin_textLine_iff h
  have description : Plain "DESCRIPTION" := by decide
  have location : Plain "LOCATION" := by decide
  rw [forall_mem_lines, text (by decide), text (by decide), controlsWithin_startLine_iff,
    controlsWithin_textsLine_iff (by decide)]
  simp only [text description, text location]
  constructor
  · rintro ⟨-, id, -, zone, -, -, summary, description, location, -, tags, -⟩
    exact ⟨fields.mpr ⟨id, summary, description, location, tags⟩, zone⟩
  · rintro ⟨each, zone⟩
    obtain ⟨id, summary, description, location, tags⟩ := fields.mp each
    refine ⟨?_, id, ?_, zone, ?_, ?_, summary, description, location, ?_, tags, ?_⟩
    · exact controlsWithin_plainLine (by decide) (by decide)
    · exact controlsWithin_plainLine (by decide) e.start.plain_utcStamp
    · exact controlsWithin_plainLine (by decide) (Duration.plain_text _)
    · exact fun r _ => controlsWithin_plainLine (by decide) r.plain_text
    · exact fun s _ => controlsWithin_rawLine (by decide) s
    · exact controlsWithin_plainLine (by decide) (by decide)

namespace Feed

/-- A property of all lines of a calendar, taken apart by line. -/
theorem forall_mem_lines {friendlyName : String} {description : Option String}
    {events : List Event} {P : List Char → Prop} :
    (∀ l ∈ lines friendlyName description events, P l)
      ↔ P (plainLine "BEGIN" "VCALENDAR") ∧ P (plainLine "VERSION" "2.0")
        ∧ P (textLine "PRODID" productId) ∧ P (plainLine "CALSCALE" "GREGORIAN")
        ∧ P (textLine "X-WR-CALNAME" friendlyName)
        ∧ (∀ s ∈ description, P (textLine "X-WR-CALDESC" s))
        ∧ (∀ e ∈ events, ∀ l ∈ e.lines, P l) ∧ P (plainLine "END" "VCALENDAR") := by
  simp only [lines, List.forall_mem_append, List.forall_mem_cons, forall_mem_toList_map,
    List.forall_mem_flatMap, List.not_mem_nil, false_implies, implies_true, and_true, and_assoc]

variable {friendlyName : String} {description : Option String} {events : List Event}

theorem feed_not_mem_lines : ∀ l ∈ lines friendlyName description events, '\n' ∉ l := by
  refine forall_mem_lines.mpr ⟨?_, ?_, ?_, ?_, ?_, ?_, ?_, ?_⟩
  · exact feed_not_mem_plainLine (by decide) (by decide)
  · exact feed_not_mem_plainLine (by decide) (by decide)
  · exact feed_not_mem_textLine (by decide) _
  · exact feed_not_mem_plainLine (by decide) (by decide)
  · exact feed_not_mem_textLine (by decide) _
  · exact fun s _ => feed_not_mem_textLine (by decide) s
  · exact fun e _ => e.feed_not_mem_lines
  · exact feed_not_mem_plainLine (by decide) (by decide)

/-- The lines of a calendar are clean exactly when its own texts and its events are tame. -/
theorem controlsWithin_lines_iff :
    (∀ l ∈ lines friendlyName description events, ControlsWithin ['\t'] l)
      ↔ Tame friendlyName ∧ (∀ s ∈ description, Tame s) ∧ ∀ e ∈ events, e.IsTame := by
  have product : Tame productId := ControlsWithin.of_plain (by decide)
  have name : Plain "X-WR-CALDESC" := by decide
  have described (s : String) :
      ControlsWithin ['\t'] (textLine "X-WR-CALDESC" s) ↔ Tame s := controlsWithin_textLine_iff name
  rw [forall_mem_lines, controlsWithin_textLine_iff (by decide),
    controlsWithin_textLine_iff (by decide)]
  simp only [described, Event.controlsWithin_lines_iff]
  constructor
  · rintro ⟨-, -, -, -, friendly, description, events, -⟩
    exact ⟨friendly, description, events⟩
  · rintro ⟨friendly, description, events⟩
    refine ⟨?_, ?_, product, ?_, friendly, description, events, ?_⟩
    · exact controlsWithin_plainLine (by decide) (by decide)
    · exact controlsWithin_plainLine (by decide) (by decide)
    · exact controlsWithin_plainLine (by decide) (by decide)
    · exact controlsWithin_plainLine (by decide) (by decide)

/-- The text of a calendar is its content lines, each folded, whatever its fields hold. -/
theorem toList_text_document :
    (document friendlyName (optionalProperty description (.text "X-WR-CALDESC"))
      events).text.toList = (lines friendlyName description events).flatMap foldLine := by
  rw [document, ← properties, Component.text, String.toList_ofList, Component.folded_eq,
    lines_node]

/-- A written calendar, with a description or without, is free of control characters exactly when
    its texts and its events are tame. -/
theorem freeOfControls_document_iff :
    FreeOfControls (document friendlyName (optionalProperty description (.text "X-WR-CALDESC"))
        events).text.toList
      ↔ Tame friendlyName ∧ (∀ s ∈ description, Tame s) ∧ ∀ e ∈ events, e.IsTame := by
  rw [toList_text_document, freeOfControls_flatMap_foldLine_iff feed_not_mem_lines,
    controlsWithin_lines_iff]

/-- Without a description the name and the events of a calendar decide. -/
theorem freeOfControls_text_iff :
    FreeOfControls (text friendlyName events).toList
      ↔ Tame friendlyName ∧ ∀ e ∈ events, e.IsTame := by
  have none_ : ∀ s ∈ (none : Option String), Tame s :=
    fun s listed => absurd listed (Option.not_mem_none s)
  rw [text_eq, freeOfControls_document_iff, and_iff_right none_]

/-- The description of an aggregate is as tame as its tag and the names of its contributors. -/
theorem tame_description_iff {a : Aggregate} :
    (∀ s ∈ description? a, Tame s)
      ↔ (a.sources ++ a.externals ≠ [] →
          Tame a.tag ∧ ∀ name ∈ a.sources ++ a.externals, Tame name) := by
  have before : Plain "Events tagged " := by decide
  have between : Plain " from " := by decide
  have separator : ControlsWithin ['\t', '\n', '\r'] ", ".toList := .of_plain (by decide)
  simp only [description?]
  split
  · next none_ =>
      exact iff_of_true (fun s listed => absurd listed (Option.not_mem_none s)) (absurd none_)
  · next some_ =>
      rw [imp_iff_right some_]
      simp only [Option.mem_some_iff, forall_eq', Tame, String.toList_append,
        String.toList_intercalate]
      rw [List.append_assoc, List.append_assoc, ControlsWithin.plain_append_iff before,
        ControlsWithin.append_iff, ControlsWithin.plain_append_iff between,
        ControlsWithin.intercalate_iff separator, List.forall_mem_map]

/-- **CONTROL CHARACTERS IN FEEDS**: the feed of a calendar or of an aggregate has none but tabs
    and the ends of its lines exactly if its name, its events and, where an aggregate names
    contributors, its tag and their names are tame.  Addresses do not count, as they lose
    theirs. -/
theorem freeOfControls_iff (friendlyName : String) (events : List Event) (a : Aggregate) :
    (FreeOfControls (text friendlyName events).toList
        ↔ Tame friendlyName ∧ ∀ e ∈ events, e.IsTame)
      ∧ (FreeOfControls (ofAggregate a).toList
        ↔ Tame a.friendlyName
          ∧ (a.sources ++ a.externals ≠ [] →
              Tame a.tag ∧ ∀ name ∈ a.sources ++ a.externals, Tame name)
          ∧ ∀ e ∈ a.events, e.IsTame) := by
  refine ⟨freeOfControls_text_iff, ?_⟩
  rw [ofAggregate_eq, freeOfControls_document_iff, tame_description_iff]

/-- An event with a bell in its summary. -/
def ringing : Event :=
  { id := "1"
    summary := "Jam\u0007session"
    location := none
    url := none
    description := none
    start := ⟨1704655800, false, Zone.fixed "EST" Zone.easternStandard⟩
    length := 3600000
    rule := none
    tags := [] }

/-- The bell of a summary stands in the feed. -/
theorem bell_reaches_text : ¬ FreeOfControls (text "Jam" [ringing]).toList := by
  rw [freeOfControls_text_iff]
  rintro ⟨-, tame⟩
  have summary : Tame ringing.summary :=
    (tame ringing List.mem_cons_self).fields _ (by decide)
  have bell : '\u0007' ∈ ringing.summary.toList := by decide
  have listed := summary '\u0007' bell (by decide)
  revert listed
  decide

end Feed

end CalendarFeeds
