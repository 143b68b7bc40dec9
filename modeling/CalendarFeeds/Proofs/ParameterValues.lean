import CalendarFeeds.Proofs.Escapes

/-! # Parameter values — which of them can be read back

    RFC 6868 reads three escapes in a parameter value, quoted or not: two carets, a caret and an
    `n`, and a caret and an apostrophe.  A value is written with escapes only inside quotes, and
    it is quoted for its separators, quotes and line feeds but not for its carets.  So a value
    without any of these stands as it is, and comes back exactly if it spells no escape.

    Undoing an escape makes a text shorter and nothing else changes its length; that is why a text
    with an escape in it cannot come back. -/

namespace CalendarFeeds.ICalendar

/-- **AN ESCAPE**: a caret before a second one, an `n` or an apostrophe. -/
def HasEscape (s : List Char) : Prop :=
  ∃ before c after, s = before ++ '^' :: c :: after ∧ (c = '^' ∨ c = 'n' ∨ c = '\'')

/-- A text between quotes that has none inside. -/
def IsQuoted (s : List Char) : Prop :=
  ∃ inner, s = '"' :: inner ++ ['"'] ∧ '"' ∉ inner

-- ── Escapes in a text ────────────────────────────────────────────────────────────

/-- An escape stands at the front of a text, or in the rest of it. -/
theorem hasEscape_cons_cons_iff {c d : Char} {rest : List Char} :
    HasEscape (c :: d :: rest)
      ↔ (c = '^' ∧ (d = '^' ∨ d = 'n' ∨ d = '\'')) ∨ HasEscape (d :: rest) := by
  constructor
  · rintro ⟨before, e, after, split, escape⟩
    cases before with
    | nil =>
        cases split
        exact .inl ⟨rfl, escape⟩
    | cons first before =>
        obtain ⟨-, rest⟩ := List.cons.inj split
        exact .inr ⟨before, e, after, rest, escape⟩
  · rintro (⟨rfl, escape⟩ | ⟨before, e, after, split, escape⟩)
    · exact ⟨[], d, rest, rfl, escape⟩
    · exact ⟨c :: before, e, after, congrArg (c :: ·) split, escape⟩

theorem not_hasEscape_of_short {s : List Char} (short : s.length < 2) : ¬ HasEscape s := by
  rintro ⟨before, c, after, rfl, -⟩
  simp only [List.length_append, List.length_cons] at short
  omega

/-- Reading two characters either takes them for one escape or lets the first one stand. -/
theorem uncaret_cons_cons (c d : Char) (rest : List Char) :
    (∃ e, uncaret (c :: d :: rest) = e :: uncaret rest
        ∧ c = '^' ∧ (d = '^' ∨ d = 'n' ∨ d = '\''))
      ∨ uncaret (c :: d :: rest) = c :: uncaret (d :: rest)
        ∧ ¬ (c = '^' ∧ (d = '^' ∨ d = 'n' ∨ d = '\'')) := by
  rw [uncaret]
  split_ifs with caret feed quote
  · exact .inl ⟨_, rfl, caret.1, .inl caret.2⟩
  · exact .inl ⟨_, rfl, feed.1, .inr (.inl feed.2)⟩
  · exact .inl ⟨_, rfl, quote.1, .inr (.inr quote.2)⟩
  · refine .inr ⟨rfl, ?_⟩
    rintro ⟨first, second | second | second⟩
    · exact caret ⟨first, second⟩
    · exact feed ⟨first, second⟩
    · exact quote ⟨first, second⟩

/-- **UNDOING ESCAPES** leaves a text without escapes as it is and makes every other one shorter. -/
theorem uncaret_same_or_shorter : ∀ s : List Char,
    (¬ HasEscape s ∧ uncaret s = s) ∨ (HasEscape s ∧ (uncaret s).length < s.length)
  | [] => .inl ⟨not_hasEscape_of_short (by decide), rfl⟩
  | [_] => .inl ⟨not_hasEscape_of_short (by simp), rfl⟩
  | c :: d :: rest => by
      rcases uncaret_cons_cons c d rest with ⟨e, undone, escape⟩ | ⟨kept, plain⟩
      · -- two characters became one, and the rest did not grow
        have upto : (uncaret rest).length ≤ rest.length := by
          rcases uncaret_same_or_shorter rest with ⟨-, same⟩ | ⟨-, shorter⟩
          · exact Nat.le_of_eq (congrArg List.length same)
          · exact Nat.le_of_lt shorter
        refine .inr ⟨hasEscape_cons_cons_iff.mpr (.inl escape), ?_⟩
        rw [undone, List.length_cons, List.length_cons, List.length_cons]
        omega
      · rw [kept, hasEscape_cons_cons_iff, or_iff_right plain]
        rcases uncaret_same_or_shorter (d :: rest) with ⟨none_, same⟩ | ⟨escape, shorter⟩
        · exact .inl ⟨none_, congrArg (c :: ·) same⟩
        · exact .inr ⟨escape, Nat.succ_lt_succ shorter⟩

/-- A text is read as it stands exactly when it holds no escape. -/
theorem uncaret_eq_self_iff {s : List Char} : uncaret s = s ↔ ¬ HasEscape s := by
  rcases uncaret_same_or_shorter s with ⟨none_, same⟩ | ⟨escape, shorter⟩
  · exact iff_of_true same none_
  · refine iff_of_false (fun same => ?_) (not_not.mpr escape)
    rw [same] at shorter
    exact Nat.lt_irrefl _ shorter

-- ── Written values ───────────────────────────────────────────────────────────────

theorem isQuoted_quoteParameter {s : List Char} (some_ : ∃ c ∈ s, needsQuotes c = true) :
    IsQuoted (quoteParameter s) := by
  refine ⟨s.flatMap quoteChar, if_pos (List.any_eq_true.mpr some_), fun here => ?_⟩
  obtain ⟨c, -, made⟩ := List.mem_flatMap.mp here
  exact (mem_quoteChar made).1 rfl

/-- **READING A PARAMETER VALUE** gives the value back exactly if something in it made it quoted, or
    it spells no escape.  What is written has no line feed, no quotes but those around it, and
    always these around separators. -/
theorem quoteParameter_reads (s : List Char) :
    (uncaret (unquote (quoteParameter s)) = s
        ↔ (∃ c ∈ s, c = ':' ∨ c = ';' ∨ c = ',' ∨ c = '"' ∨ c = '\n') ∨ ¬ HasEscape s)
      ∧ '\n' ∉ quoteParameter s
      ∧ ('"' ∈ quoteParameter s → IsQuoted (quoteParameter s))
      ∧ ((∃ c ∈ s, c = ':' ∨ c = ';' ∨ c = ',') → IsQuoted (quoteParameter s)) := by
  have needs : ∀ {c : Char},
      needsQuotes c = true ↔ c = ':' ∨ c = ';' ∨ c = ',' ∨ c = '"' ∨ c = '\n' := by
    intro c
    simp [needsQuotes, or_assoc]
  refine ⟨?_, fun feed => (mem_quoteParameter feed).1 rfl, fun quote => ?_, ?_⟩
  · simp only [← needs]
    rw [unquote_quoteParameter]
    split
    · next quoted =>
        exact iff_of_true (uncaret_flatMap_quoteChar s) (.inl (List.any_eq_true.mp quoted))
    · next plain =>
        have none_ : ¬ ∃ c ∈ s, needsQuotes c = true := fun some_ =>
          plain (List.any_eq_true.mpr some_)
        rw [uncaret_eq_self_iff, or_iff_right none_]
  · by_cases some_ : ∃ c ∈ s, needsQuotes c = true
    · exact isQuoted_quoteParameter some_
    · have bare : quoteParameter s = s := if_neg fun any => some_ (List.any_eq_true.mp any)
      rw [bare] at quote
      exact absurd ⟨'"', quote, rfl⟩ some_
  · rintro ⟨c, hc, separator⟩
    refine isQuoted_quoteParameter ⟨c, hc, needs.mpr ?_⟩
    rcases separator with same | same | same
    · exact .inl same
    · exact .inr (.inl same)
    · exact .inr (.inr (.inl same))

/-- Carets, quotes and a separator in one value. -/
theorem quoteParameter_reads_hall :
    IsQuoted (quoteParameter "Hall ^n: \"A\"".toList)
      ∧ uncaret (unquote (quoteParameter "Hall ^n: \"A\"".toList)) = "Hall ^n: \"A\"".toList := by
  obtain ⟨back, -, -, quoted⟩ := quoteParameter_reads "Hall ^n: \"A\"".toList
  exact ⟨quoted ⟨':', by decide, .inl rfl⟩, back.mpr (.inl ⟨':', by decide, .inl rfl⟩)⟩

/-- A value that spells an escape and is not quoted is read as something else. -/
theorem quoteParameter_loses_caret :
    quoteParameter ['a', '^', 'n', 'b'] = ['a', '^', 'n', 'b']
      ∧ uncaret (unquote (quoteParameter ['a', '^', 'n', 'b'])) = ['a', '\n', 'b'] := by
  decide

end CalendarFeeds.ICalendar
