import CalendarFeeds.Proofs.LineReader

/-! # Components read — the tree that a text holds

    A reader takes the content lines of a text one after another and keeps the components whose
    end it has not seen: a mark opens or closes one, any other line is a property of the innermost.
    Reading the lines of a component leaves the reader as it was, with that component received;
    this is what one induction over the tree shows, for whatever surrounds the component. -/

namespace CalendarFeeds.ICalendar

-- ── The reader ───────────────────────────────────────────────────────────────────

/-- What a reader knows between two content lines. -/
structure Reader where
  /-- The types of the values that are still to come, in the order of their lines. -/
  types : List ValueType
  /-- The components whose end is still to come, innermost first. -/
  opened : List Component
  /-- The components that are complete and inside no other. -/
  roots : List Component

/-- The kind of component that a mark names, in whichever case. -/
def Kind.ofName? (name : List Char) : Option Kind :=
  [calendar, event].find? fun k => Text.lower k.name.toList == Text.lower name

def Component.kind : Component → Kind
  | .node k _ _ => k

namespace Reader

/-- Takes a complete component to the innermost one that is open. -/
def receive (r : Reader) (c : Component) : Reader :=
  match r.opened with
  | [] => { r with roots := r.roots ++ [c] }
  | parent :: rest => { r with opened := parent.addChild c :: rest }

/-- Closes the innermost component, which must be of the kind that is named. -/
def close (r : Reader) (name : List Char) : Option Reader :=
  match r.opened with
  | [] => none
  | c :: rest => if Kind.ofName? name = some c.kind then some ({ r with opened := rest }.receive c)
    else none

/-- Adds a property to the innermost component. -/
def add (r : Reader) (l : ContentLine) : Option Reader :=
  match r.opened, r.types with
  | c :: rest, type :: types =>
    some { r with
      types := types
      opened := c.addProperty ⟨l.name, l.parameters, type.read l.content⟩ :: rest }
  | _, _ => none

def take (r : Reader) (l : ContentLine) : Option Reader :=
  if Text.sameIgnoringCase l.name "BEGIN" then
    (Kind.ofName? l.content).map fun k => { r with opened := .node k [] [] :: r.opened }
  else if Text.sameIgnoringCase l.name "END" then r.close l.content
  else r.add l

/-- Takes in the content line that some characters are. -/
def step (r : Reader) (line : List Char) : Option Reader :=
  (readLine? line).bind r.take

end Reader

/-- Reads the one component that a text holds, given the types of its values. -/
def Component.read (types : List ValueType) (text : String) : Option Component :=
  match (logicalLines (physicalLines text.toList)).foldlM Reader.step ⟨types, [], []⟩ with
  | some ⟨[], [], [c]⟩ => some c
  | _ => none

-- ── What is read ─────────────────────────────────────────────────────────────────

/-- What is left of a property once it is written. -/
def Property.normal (p : Property) : Property :=
  { p with value := p.value.normal }

mutual

/-- What is left of a component once it is written: its properties are in the order of its kind,
    and each value is in its normal form. -/
def Component.normal : Component → Component
  | .node kind properties children =>
    .node kind ((kind.sorted properties).map Property.normal) (Component.allNormal children)

def Component.allNormal : List Component → List Component
  | [] => []
  | c :: cs => c.normal :: Component.allNormal cs

end

mutual

/-- The types of the values of a component, in the order of their lines. -/
def Component.valueTypes : Component → List ValueType
  | .node kind properties children =>
    (kind.sorted properties).map (·.value.type) ++ Component.allValueTypes children

def Component.allValueTypes : List Component → List ValueType
  | [] => []
  | c :: cs => c.valueTypes ++ Component.allValueTypes cs

end

-- ── One line ─────────────────────────────────────────────────────────────────────

theorem Kind.ofName?_name (k : Kind) : ofName? k.name.toList = some k := by
  cases k <;> decide

section Lines

variable {types : List ValueType} {opened roots : List Component}

/-- A BEGIN line opens an empty component. -/
theorem Reader.step_begin (k : Kind) :
    Reader.step ⟨types, opened, roots⟩ (k.mark "BEGIN")
      = some ⟨types, .node k [] [] :: opened, roots⟩ := by
  have begins : Text.sameIgnoringCase "BEGIN" "BEGIN" = true := by decide
  rw [step, readLine?_mark k (by decide), Option.bind_some, take, if_pos begins, k.ofName?_name,
    Option.map_some]

/-- An END line closes the open component and hands it to the one around it. -/
theorem Reader.step_end (c : Component) :
    Reader.step ⟨types, c :: opened, roots⟩ (c.kind.mark "END")
      = some (Reader.receive ⟨types, opened, roots⟩ c) := by
  have other : ¬ Text.sameIgnoringCase "END" "BEGIN" = true := by decide
  have ends : Text.sameIgnoringCase "END" "END" = true := by decide
  rw [step, readLine?_mark c.kind (by decide), Option.bind_some, take, if_neg other, if_pos ends,
    close]
  simp only
  rw [if_pos c.kind.ofName?_name]

/-- A property's line goes to the open component, in normal form, and uses up one value type. -/
theorem Reader.step_line {p : Property} (h : p.WellFormed) {c : Component} :
    Reader.step ⟨p.value.type :: types, c :: opened, roots⟩ p.line
      = some ⟨types, c.addProperty p.normal :: opened, roots⟩ := by
  have noBegin : ¬ Text.sameIgnoringCase p.name "BEGIN" = true := Bool.eq_false_iff.mp h.noBegin
  have noEnd : ¬ Text.sameIgnoringCase p.name "END" = true := Bool.eq_false_iff.mp h.noEnd
  rw [step, readLine?_line h, Option.bind_some, take, if_neg noBegin, if_neg noEnd, add]
  simp only
  rw [ValueType.read_content h.value]
  rfl

/-- The lines of a list of properties are added in their order. -/
theorem Reader.foldlM_lines {ps : List Property} (h : ∀ p ∈ ps, p.WellFormed) {kind : Kind}
    {read : List Property} {children : List Component} :
    (ps.map Property.line).foldlM Reader.step
        ⟨ps.map (·.value.type) ++ types, .node kind read children :: opened, roots⟩
      = some ⟨types, .node kind (read ++ ps.map Property.normal) children :: opened, roots⟩ := by
  induction ps generalizing read with
  | nil =>
      simp only [List.map_nil, List.append_nil]
      rfl
  | cons p ps ih =>
      simp only [List.map_cons, List.cons_append, List.foldlM_cons]
      rw [step_line (h p List.mem_cons_self), Option.bind_eq_bind, Option.bind_some,
        Component.addProperty, ih fun q hq => h q (List.mem_cons_of_mem p hq), ← List.append_cons]

end Lines

-- ── All lines ────────────────────────────────────────────────────────────────────

mutual

/-- **A COMPONENT IS RECEIVED**: reading its lines takes the types of its values and leaves all
    else as it was, but for the component itself. -/
theorem Reader.foldlM_component : (c : Component) → c.Every Property.WellFormed →
    ∀ (types : List ValueType) (opened roots : List Component),
      c.lines.foldlM Reader.step ⟨c.valueTypes ++ types, opened, roots⟩
        = some (Reader.receive ⟨types, opened, roots⟩ c.normal)
  | .node kind properties children, ⟨own, inside⟩, types, opened, roots => by
      have sorted : ∀ p ∈ kind.sorted properties, p.WellFormed := by
        intro p hp
        rw [← kind.inOrder_eq_sorted, Kind.mem_inOrder_iff] at hp
        exact own p hp
      -- the first mark opens the component, its properties and those inside are added to it, and
      -- the last mark hands it on
      have ends : Reader.step ⟨types, Component.normal (.node kind properties children) :: opened,
          roots⟩ (kind.mark "END") = _ := step_end _
      rw [Component.lines, Component.valueTypes, kind.inOrder_eq_sorted, List.append_assoc,
        List.foldlM_append, List.foldlM_append, List.foldlM_cons, step_begin]
      simp only [Option.bind_eq_bind, Option.bind_some]
      rw [foldlM_lines sorted, Option.bind_some, foldlM_components children inside,
        Option.bind_some, List.nil_append, List.nil_append, List.foldlM_cons,
        ← Component.normal, ends]
      rfl

/-- A run over the lines of several components hands all of them to the component around them. -/
theorem Reader.foldlM_components : (cs : List Component) →
    Component.EveryIn Property.WellFormed cs →
    ∀ (types : List ValueType) (kind : Kind) (properties : List Property)
      (read opened roots : List Component),
      (Component.allLines cs).foldlM Reader.step
          ⟨Component.allValueTypes cs ++ types, .node kind properties read :: opened, roots⟩
        = some ⟨types, .node kind properties (read ++ Component.allNormal cs) :: opened, roots⟩
  | [], _, types, kind, properties, read, opened, roots => by
      rw [Component.allNormal, List.append_nil]
      rfl
  | c :: cs, ⟨first, rest⟩, types, kind, properties, read, opened, roots => by
      rw [Component.allLines, Component.allValueTypes, List.append_assoc, List.foldlM_append,
        foldlM_component c first, Option.bind_eq_bind, Option.bind_some, Reader.receive]
      simp only
      rw [Component.addChild, foldlM_components cs rest, Component.allNormal, ← List.append_cons]

end

/-- **READING UNDOES WRITING**: the text of a component reads as that component, with properties
    in the order of their kinds and values in normal form. -/
theorem Component.read_text {c : Component} (h : c.Every Property.WellFormed) :
    Component.read c.valueTypes c.text = some c.normal := by
  have oneLine : c.Every Property.OnOneLine := Component.Every.imp (fun p hp => hp.onOneLine) c h
  have run := Reader.foldlM_component c h [] [] []
  rw [List.append_nil] at run
  rw [Component.read, (Component.folds_lines oneLine).content, run]
  rfl

/-- A calendar inside an event inside a calendar, with separators, quotes and line breaks in
    parameters and values and its properties out of order. -/
def nested : Component :=
  .node .calendar
    [⟨"x-note", [⟨"ALTREP", ["a:b;c", "say \"hi\""]⟩], .raw "left\t\r\nright"⟩,
      ⟨"prodid", [], .text "one, two; \\n"⟩]
    [.node .event
      [⟨"CATEGORIES", [], .texts ["jazz, hot", "", "\r\r\n"]⟩, ⟨"UID", [⟨"X", [""]⟩], .text ""⟩]
      [.node .calendar [] []], .node .event [] []]

def nestedNormal : Component :=
  .node .calendar
    [⟨"prodid", [], .text "one, two; \\n"⟩,
      ⟨"x-note", [⟨"ALTREP", ["a:b;c", "say \"hi\""]⟩], .raw "leftright"⟩]
    [.node .event
      [⟨"UID", [⟨"X", [""]⟩], .text ""⟩, ⟨"CATEGORIES", [], .texts ["jazz, hot", "", "\n\n"]⟩]
      [.node .calendar [] []], .node .event [] []]

theorem Component.read_text_nested :
    nested.Every Property.WellFormed
      ∧ Component.read [.text, .raw, .text, .texts] nested.text = some nestedNormal := by
  have proper : nested.Every Property.WellFormed :=
    ⟨by decide +kernel, ⟨by decide +kernel, ⟨by decide, trivial⟩, trivial⟩, ⟨by decide, trivial⟩,
      trivial⟩
  have types : nested.valueTypes = [.text, .raw, .text, .texts] := by decide +kernel
  have normal : nested.normal = nestedNormal := by rfl
  have read := Component.read_text proper
  rw [types, normal] at read
  exact ⟨proper, read⟩

end CalendarFeeds.ICalendar
