import CalendarFeeds.Proofs.ContentLines
import CalendarFeeds.Proofs.Escapes
import CalendarFeeds.Proofs.PropertyOrder

/-! # Components — one content line for each property

    The text of a component folds a list of content lines: a mark where the component begins, a
    line for each property, the lines of the components inside, and a mark at the end.  Escapes
    keep line breaks out of values, so with proper names no property takes more than its line. -/

namespace CalendarFeeds.ICalendar

/-- A name of a property or a parameter: ASCII letters, digits and hyphens, at least one. -/
def IsName (name : String) : Prop :=
  name.toList ≠ [] ∧ ∀ c ∈ name.toList, (c.isAlphanum || c == '-') = true

instance (name : String) : Decidable (IsName name) :=
  decidable_of_iff
    (name.toList ≠ [] ∧ (name.toList.all fun c => c.isAlphanum || c == '-') = true)
    (and_congr_right fun _ => List.all_eq_true)

/-- What keeps a property on its line: proper names, and no carriage return in its parameters. -/
structure Property.OnOneLine (p : Property) : Prop where
  name : IsName p.name
  parameterNames : ∀ q ∈ p.parameters, IsName q.name
  noReturn : ∀ q ∈ p.parameters, ∀ v ∈ q.values, '\r' ∉ v.toList

/-- The content line of a mark around a component. -/
def Kind.mark (k : Kind) (word : String) : List Char :=
  word.toList ++ ':' :: k.name.toList

mutual

/-- The content lines of a component, before folding. -/
def Component.lines : Component → List (List Char)
  | .node kind properties children =>
    kind.mark "BEGIN" :: (kind.inOrder properties).map Property.line
      ++ Component.allLines children ++ [kind.mark "END"]

def Component.allLines : List Component → List (List Char)
  | [] => []
  | c :: cs => c.lines ++ Component.allLines cs

end

mutual

/-- Whether every property of a component has a property, at any depth. -/
def Component.Every (P : Property → Prop) : Component → Prop
  | .node _ properties children => (∀ p ∈ properties, P p) ∧ Component.EveryIn P children

def Component.EveryIn (P : Property → Prop) : List Component → Prop
  | [] => True
  | c :: cs => c.Every P ∧ Component.EveryIn P cs

end

mutual

/-- The text of a component is its content lines, each folded. -/
theorem Component.folded_eq : (c : Component) → c.folded = c.lines.flatMap foldLine
  | .node kind properties children => by
      simp only [folded, lines, List.flatMap_append, List.flatMap_cons, List.flatMap_nil,
        List.append_nil, List.flatMap_map]
      rw [foldedAll_eq children]
      rfl

/-- A list of components is written line by line, each line folded by itself. -/
theorem Component.foldedAll_eq :
    (cs : List Component) → Component.foldedAll cs = (Component.allLines cs).flatMap foldLine
  | [] => rfl
  | c :: cs => by
      rw [foldedAll, allLines, List.flatMap_append, folded_eq c, foldedAll_eq cs]

end

mutual

theorem Component.Every.imp {P Q : Property → Prop} (h : ∀ p, P p → Q p) :
    (c : Component) → c.Every P → c.Every Q
  | .node _ _ children, ⟨own, inside⟩ =>
      ⟨fun p hp => h p (own p hp), Component.EveryIn.imp h children inside⟩

theorem Component.EveryIn.imp {P Q : Property → Prop} (h : ∀ p, P p → Q p) :
    (cs : List Component) → Component.EveryIn P cs → Component.EveryIn Q cs
  | [], _ => trivial
  | c :: cs, ⟨first, rest⟩ => ⟨Component.Every.imp h c first, Component.EveryIn.imp h cs rest⟩

end

-- ── Every line is a content line ─────────────────────────────────────────────────

/-- A character of a name is none of those that have a meaning in a content line. -/
theorem IsName.not_special {name : String} (h : IsName name) {c : Char} (hc : c ∈ name.toList) :
    c ∉ [' ', '\r', '\n', ':', ';', ',', '=', '"'] := by
  intro special
  have shown := h.2 c hc
  have none_ : ([' ', '\r', '\n', ':', ';', ',', '=', '"'].all fun d =>
      !(d.isAlphanum || d == '-')) = true := by decide
  have other := List.all_eq_true.mp none_ c special
  rw [shown] at other
  cases other

/-- A name holds no character that ends a line. -/
theorem IsName.noBreak {name : String} (h : IsName name) {c : Char} (hc : c ∈ name.toList) :
    c ≠ '\r' ∧ c ≠ '\n' := by
  have := h.not_special hc
  simp only [List.mem_cons, not_or] at this
  exact ⟨this.2.1, this.2.2.1⟩

/-- No value brings a line break into its line: texts escape them and raw values drop them. -/
theorem Value.noBreak {v : Value} {c : Char} (hc : c ∈ v.content) : c ≠ '\r' ∧ c ≠ '\n' := by
  cases v with
  | text s => exact mem_escapeText hc
  | texts ss =>
      rcases mem_joinComma hc with rfl | ⟨item, listed, here⟩
      · decide
      · obtain ⟨s, -, rfl⟩ := List.mem_map.mp listed
        exact mem_escapeText here
  | raw s => exact mem_stripControls hc

/-- A parameter brings no line break into its line unless a value holds a bare carriage return,
    which quoting leaves alone. -/
theorem Parameter.noBreak {q : Parameter} (name : IsName q.name)
    (noReturn : ∀ v ∈ q.values, '\r' ∉ v.toList) {c : Char} (hc : c ∈ q.content) :
    c ≠ '\r' ∧ c ≠ '\n' := by
  rcases List.mem_append.mp hc with inName | after
  · exact name.noBreak inName
  rcases List.mem_cons.mp after with rfl | inValues
  · decide
  rcases mem_joinComma inValues with rfl | ⟨item, listed, here⟩
  · decide
  · obtain ⟨v, hv, rfl⟩ := List.mem_map.mp listed
    obtain ⟨feed, ret⟩ := mem_quoteParameter here
    exact ⟨fun same => noReturn v hv (ret same), feed⟩

/-- A line that begins with a name and goes on without line breaks. -/
theorem IsName.isContentLine {name : String} (h : IsName name) {rest : List Char}
    (clean : ∀ c ∈ rest, c ≠ '\r' ∧ c ≠ '\n') : IsContentLine (name.toList ++ rest) := by
  have all : ∀ c ∈ name.toList ++ rest, c ≠ '\r' ∧ c ≠ '\n' := by
    intro c hc
    rcases List.mem_append.mp hc with inName | after
    · exact h.noBreak inName
    · exact clean c after
  obtain ⟨c, more, split⟩ := List.exists_cons_of_ne_nil h.1
  refine ⟨fun here => (all _ here).1 rfl, fun here => (all _ here).2 rfl, c, more ++ rest, ?_, ?_⟩
  · rw [split, List.cons_append]
  · rintro rfl
    exact h.not_special (split ▸ List.mem_cons_self) List.mem_cons_self

/-- **ONE LINE FOR ONE PROPERTY**, whatever its value holds. -/
theorem Property.OnOneLine.isContentLine {p : Property} (h : p.OnOneLine) :
    IsContentLine p.line := by
  rw [Property.line, List.append_assoc]
  refine h.name.isContentLine fun c hc => ?_
  rcases List.mem_append.mp hc with inParameters | after
  · obtain ⟨q, hq, here⟩ := List.mem_flatMap.mp inParameters
    rcases List.mem_cons.mp here with rfl | inside
    · decide
    · exact Parameter.noBreak (h.parameterNames q hq) (h.noReturn q hq) inside
  · rcases List.mem_cons.mp after with rfl | inValue
    · decide
    · exact Value.noBreak inValue

/-- The BEGIN and END lines are content lines. -/
theorem Kind.isContentLine_mark (k : Kind) {word : String} (h : IsName word) :
    IsContentLine (k.mark word) := by
  have clean : ((':' :: k.name.toList).all fun c => c ≠ '\r' ∧ c ≠ '\n') = true := by
    cases k <;> decide
  exact h.isContentLine fun c hc => of_decide_eq_true (List.all_eq_true.mp clean c hc)

mutual

/-- Every line of a tree whose properties keep to one line is a content line. -/
theorem Component.isContentLine_of_mem_lines :
    (c : Component) → c.Every Property.OnOneLine → ∀ l ∈ c.lines, IsContentLine l
  | .node kind properties children, ⟨own, inside⟩, l, hl => by
      simp only [lines, List.cons_append] at hl
      rcases List.mem_cons.mp hl with rfl | hl
      · exact kind.isContentLine_mark (by decide)
      rcases List.mem_append.mp hl with hl | hl
      · rcases List.mem_append.mp hl with hl | hl
        · obtain ⟨p, hp, rfl⟩ := List.mem_map.mp hl
          exact (own p (Kind.mem_inOrder_iff.mp hp)).isContentLine
        · exact isContentLine_of_mem_allLines children inside l hl
      · rw [List.mem_singleton.mp hl]
        exact kind.isContentLine_mark (by decide)

theorem Component.isContentLine_of_mem_allLines :
    (cs : List Component) → Component.EveryIn Property.OnOneLine cs →
      ∀ l ∈ Component.allLines cs, IsContentLine l
  | [], _, l, hl => nomatch hl
  | c :: cs, ⟨first, rest⟩, l, hl => by
      rcases List.mem_append.mp hl with hl | hl
      · exact isContentLine_of_mem_lines c first l hl
      · exact isContentLine_of_mem_allLines cs rest l hl

end

/-- **THE TEXT OF A COMPONENT** folds its content lines. -/
theorem Component.folds_lines {c : Component} (h : c.Every Property.OnOneLine) :
    Folds c.text.toList c.lines := by
  rw [Component.text, String.toList_ofList, c.folded_eq]
  exact folds_flatMap_foldLine (c.isContentLine_of_mem_lines h)

end CalendarFeeds.ICalendar
