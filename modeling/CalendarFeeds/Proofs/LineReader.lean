import CalendarFeeds.Proofs.Components
import CalendarFeeds.Proofs.Outcome

/-! # Content lines read — name, parameters and value of a property

    A reader cuts a content line at its first colon outside quotes, what stands before it at
    semicolons outside quotes, and a parameter at its first equals sign.  Names hold none of these
    and parameter values keep theirs in quotes, so each cut falls where the writer joined.  How
    the value reads depends on its type, which a content line does not tell. -/

namespace CalendarFeeds.ICalendar

-- ── Values ───────────────────────────────────────────────────────────────────────

inductive ValueType where
  | text
  | texts
  | raw
  deriving DecidableEq, Repr

def Value.type : Value → ValueType
  | text _ => .text
  | texts _ => .texts
  | raw _ => .raw

/-- What a reader takes for the value that some content stands for. -/
def ValueType.read : ValueType → List Char → Value
  | text, content => .text (String.ofList (unescapeText content))
  | texts, content =>
    .texts ((splitUnescaped content).map fun t => String.ofList (unescapeText t))
  | raw, content => .raw (String.ofList content)

/-- A text whose line breaks are all line feeds. -/
def normalText (s : String) : String :=
  String.ofList (normalBreaks s.toList)

/-- What is left of a value once it is written: line breaks in texts are line feeds, and a raw
    value has no control characters. -/
def Value.normal : Value → Value
  | text s => .text (normalText s)
  | texts ss => .texts (ss.map normalText)
  | raw s => .raw (String.ofList (stripControls s.toList))

/-- A value reads as what is left of it, unless it is a list of no texts, which reads as a list
    of one empty text. -/
theorem ValueType.read_content {v : Value} (h : v ≠ .texts []) :
    v.type.read v.content = v.normal := by
  cases v with
  | text s => exact congrArg (Value.text ∘ String.ofList) (unescapeText_escapeText s.toList)
  | texts ss =>
      have some_ : ss ≠ [] := fun none_ => h (congrArg Value.texts none_)
      show Value.texts _ = Value.texts _
      rw [splitUnescaped_texts some_, List.map_map]
      congr 1
      exact List.map_congr_left fun s _ => congrArg String.ofList (unescapeText_escapeText s.toList)
  | raw s => rfl

-- ── Lines ────────────────────────────────────────────────────────────────────────

/-- A content line with its value unread. -/
structure ContentLine where
  name : String
  parameters : List Parameter
  content : List Char

/-- Reads a parameter: a name, and after an equals sign values between commas. -/
def readParameter? (s : List Char) : Option Parameter :=
  match cutOutside '=' false s with
  | (_, none) => none
  | (name, some values) =>
    some ⟨String.ofList name,
      (splitOutside ',' false values).map fun v => String.ofList (uncaret (unquote v))⟩

/-- Reads a content line: a name, parameters after semicolons, and a value after a colon. -/
def readLine? (s : List Char) : Option ContentLine :=
  match cutOutside ':' false s with
  | (_, none) => none
  | (head, some content) =>
    match splitOutside ';' false head with
    | [] => none
    | name :: parameters =>
      (parameters.mapM readParameter?).map fun ps => ⟨String.ofList name, ps, content⟩

/-- A parameter that can be read back: a proper name, and at least one value; none of the values
    holds control characters or carets. -/
structure Parameter.WellFormed (q : Parameter) : Prop where
  name : IsName q.name
  values : q.values ≠ []
  shown : ∀ v ∈ q.values, ∀ c ∈ v.toList, Text.isControl c = false ∧ c ≠ '^'

instance (q : Parameter) : Decidable q.WellFormed :=
  decidable_of_iff (IsName q.name ∧ q.values ≠ []
      ∧ ∀ v ∈ q.values, (v.toList.all fun c => Text.isControl c = false ∧ c ≠ '^') = true)
    ⟨fun h => ⟨h.1, h.2.1, fun v hv c hc =>
        of_decide_eq_true (List.all_eq_true.mp (h.2.2 v hv) c hc)⟩,
      fun h => ⟨h.name, h.values, fun v hv =>
        List.all_eq_true.mpr fun c hc => decide_eq_true (h.shown v hv c hc)⟩⟩

theorem IsName.sealed {name : String} (h : IsName name) {separator : Char}
    (special : separator ∈ [' ', '\r', '\n', ':', ';', ',', '=', '"']) :
    Sealed separator name.toList := by
  refine sealed_of_plain fun c hc => ⟨?_, ?_⟩
  · rintro rfl
    exact h.not_special hc special
  · rintro rfl
    exact h.not_special hc (by decide)

theorem sealed_joinComma {separator : Char} (comma : ',' ≠ separator) {items : List (List Char)}
    (h : ∀ item ∈ items, Sealed separator item) : Sealed separator (joinComma items) := by
  induction items with
  | nil => rfl
  | cons x rest ih =>
      have first := h x List.mem_cons_self
      have later := ih fun item listed => h item (List.mem_cons_of_mem x listed)
      cases rest with
      | nil =>
          rw [joinComma_cons, List.flatMap_nil, List.append_nil]
          exact first
      | cons y rest =>
          have between : Sealed separator [','] :=
            sealed_of_plain fun c hc => by
              rw [List.mem_singleton.mp hc]
              exact ⟨comma, by decide⟩
          rw [joinComma_cons_cons]
          exact first.append (between.append later)

/-- A parameter can stand between semicolons and before a colon: its values quote what would part
    it. -/
theorem Parameter.sealed_content {q : Parameter} (name : IsName q.name) {separator : Char}
    (outer : separator = ':' ∨ separator = ';') : Sealed separator q.content := by
  have special : separator ∈ [' ', '\r', '\n', ':', ';', ',', '=', '"'] := by
    rcases outer with rfl | rfl <;> decide
  have equals : Sealed separator ['='] := by
    rcases outer with rfl | rfl <;> rfl
  have comma : ',' ≠ separator := by
    rcases outer with rfl | rfl <;> decide
  refine (name.sealed special).append (equals.append (sealed_joinComma comma fun item listed => ?_))
  obtain ⟨v, -, rfl⟩ := List.mem_map.mp listed
  exact sealed_quoteParameter (outer.imp_right .inl) v.toList

/-- A well-formed parameter is read back as it was. -/
theorem readParameter?_content {q : Parameter} (h : q.WellFormed) :
    readParameter? q.content = some q := by
  obtain ⟨v, vs, values⟩ := List.exists_cons_of_ne_nil h.values
  -- a name has no equals sign, so the first one is where the values begin
  have cut : cutOutside '=' false q.content
      = (q.name.toList, some (joinComma (q.values.map fun v => quoteParameter v.toList))) :=
    cutOutside_append (h.name.sealed (by decide)) _
  have split : splitOutside ',' false (joinComma (q.values.map fun v => quoteParameter v.toList))
      = q.values.map fun v => quoteParameter v.toList := by
    rw [values, List.map_cons, joinComma_cons]
    refine splitOutside_flatMap (sealed_quoteParameter (by decide) _) fun piece listed => ?_
    obtain ⟨w, -, rfl⟩ := List.mem_map.mp listed
    exact sealed_quoteParameter (by decide) w.toList
  have each : ∀ v ∈ q.values, String.ofList (uncaret (unquote (quoteParameter v.toList))) = v := by
    intro v hv
    have noCaret : '^' ∉ v.toList := fun here => (h.shown v hv '^' here).2 rfl
    rw [uncaret_unquote_quoteParameter noCaret, String.ofList_toList]
  have back : (q.values.map fun v => quoteParameter v.toList).map
      (fun v => String.ofList (uncaret (unquote v))) = q.values := by
    rw [List.map_map]
    exact (List.map_congr_left each).trans (List.map_id _)
  rw [readParameter?, cut]
  simp only
  rw [split, back, String.ofList_toList]

/-- The first bare colon of a line comes after the parameters. -/
theorem sealed_parameters {ps : List Parameter} (names : ∀ q ∈ ps, IsName q.name) :
    Sealed ':' (ps.flatMap fun q => ';' :: q.content) := by
  induction ps with
  | nil => rfl
  | cons q ps ih =>
      have semicolon : Sealed ':' [';'] := rfl
      have first := Parameter.sealed_content (names q List.mem_cons_self) (.inl rfl)
      rw [List.flatMap_cons]
      exact (semicolon.append first).append
        (ih fun r hr => names r (List.mem_cons_of_mem q hr))

/-- A property that can be read back: a proper name that is no mark of a component, parameters
    that can be read back, and a value other than a list of no texts. -/
structure Property.WellFormed (p : Property) : Prop where
  name : IsName p.name
  noBegin : p.isNamed "BEGIN" = false
  noEnd : p.isNamed "END" = false
  parameters : ∀ q ∈ p.parameters, q.WellFormed
  value : p.value ≠ .texts []

instance (p : Property) : Decidable p.WellFormed :=
  decidable_of_iff (IsName p.name ∧ p.isNamed "BEGIN" = false ∧ p.isNamed "END" = false
      ∧ (∀ q ∈ p.parameters, q.WellFormed) ∧ p.value ≠ .texts [])
    ⟨fun h => ⟨h.1, h.2.1, h.2.2.1, h.2.2.2.1, h.2.2.2.2⟩,
      fun h => ⟨h.name, h.noBegin, h.noEnd, h.parameters, h.value⟩⟩

/-- A well-formed property keeps to one line. -/
theorem Property.WellFormed.onOneLine {p : Property} (h : p.WellFormed) : p.OnOneLine := by
  refine ⟨h.name, fun q hq => (h.parameters q hq).name, fun q hq v hv here => ?_⟩
  cases ((h.parameters q hq).shown v hv '\r' here).1

/-- **A CONTENT LINE COMES APART** as it was put together. -/
theorem readLine?_line {p : Property} (h : p.WellFormed) :
    readLine? p.line = some ⟨p.name, p.parameters, p.value.content⟩ := by
  have names : ∀ q ∈ p.parameters, IsName q.name := fun q hq => (h.parameters q hq).name
  have cut : cutOutside ':' false p.line
      = (p.name.toList ++ (p.parameters.flatMap fun q => ';' :: q.content),
          some p.value.content) :=
    cutOutside_append ((h.name.sealed (by decide)).append (sealed_parameters names)) _
  have split : splitOutside ';' false
      (p.name.toList ++ (p.parameters.flatMap fun q => ';' :: q.content))
        = p.name.toList :: p.parameters.map Parameter.content := by
    rw [← List.flatMap_map (f := Parameter.content) (g := fun piece => ';' :: piece)]
    refine splitOutside_flatMap (h.name.sealed (by decide)) fun piece listed => ?_
    obtain ⟨q, hq, rfl⟩ := List.mem_map.mp listed
    exact Parameter.sealed_content (names q hq) (.inr rfl)
  have parameters : (p.parameters.map Parameter.content).mapM readParameter?
      = some p.parameters :=
    Outcome.mapM_map_eq_some fun q hq => readParameter?_content (h.parameters q hq)
  rw [readLine?, cut]
  simp only
  rw [split]
  simp only
  rw [parameters, Option.map_some, String.ofList_toList]

/-- A mark reads as a line without parameters. -/
theorem readLine?_mark (k : Kind) {word : String} (h : IsName word) :
    readLine? (k.mark word) = some ⟨word, [], k.name.toList⟩ := by
  have cut : cutOutside ':' false (k.mark word) = (word.toList, some k.name.toList) :=
    cutOutside_append (h.sealed (by decide)) _
  rw [readLine?, cut]
  simp only
  rw [splitOutside_sealed (h.sealed (by decide))]
  simp only
  rw [List.mapM_nil, Option.pure_def, Option.map_some, String.ofList_toList]

end CalendarFeeds.ICalendar
