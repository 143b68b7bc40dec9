import CalendarFeeds.ICalendar.Component
import Mathlib.Data.List.Basic

/-! # Escapes — values read back from content lines

    Escaping a text writes every line break as a line feed and then each character for itself, so
    reading undoes it character by character.  Commas between the texts of a list are the only
    ones without a backslash before them.  In the part of a content line before its value,
    separators count only outside quotes; quoted parameter values keep theirs inside. -/

namespace CalendarFeeds.ICalendar

-- ── Texts ────────────────────────────────────────────────────────────────────────

/-- A text whose line breaks are all line feeds: a carriage return becomes one, together with the
    line feed after it if there is one. -/
def normalBreaks : List Char → List Char
  | [] => []
  | [c] => [if c = '\r' then '\n' else c]
  | c :: d :: rest =>
    if c = '\r' ∧ d = '\n' then '\n' :: normalBreaks rest
    else (if c = '\r' then '\n' else c) :: normalBreaks (d :: rest)

/-- What a character means after a backslash. -/
def meant (c : Char) : Char :=
  if c = 'n' ∨ c = 'N' then '\n' else c

/-- Reads a text value: a backslash and the character after it stand for one character. -/
def unescapeText : List Char → List Char
  | [] => []
  | [c] => [c]
  | c :: d :: rest =>
    if c = '\\' then meant d :: unescapeText rest else c :: unescapeText (d :: rest)

/-- Splits a list of text values at the commas that no backslash escapes. -/
def splitUnescaped : List Char → List (List Char)
  | [] => [[]]
  | [c] => if c = ',' then [[], []] else [[c]]
  | c :: d :: rest =>
    if c = '\\' then Text.prependToFirst c (Text.prependToFirst d (splitUnescaped rest))
    else if c = ',' then [] :: splitUnescaped (d :: rest)
    else Text.prependToFirst c (splitUnescaped (d :: rest))

/-- No carriage return is left once the breaks are normal. -/
theorem return_not_mem_normalBreaks (s : List Char) : '\r' ∉ normalBreaks s := by
  have other : ∀ c : Char, '\r' ≠ if c = '\r' then '\n' else c := by
    intro c
    split
    · decide
    · next no => exact fun same => no same.symm
  induction s using normalBreaks.induct with
  | case1 => exact List.not_mem_nil
  | case2 c =>
      rw [normalBreaks]
      exact fun here => other c (List.mem_singleton.mp here)
  | case3 c d rest pair ih =>
      rw [normalBreaks, if_pos pair]
      exact List.not_mem_cons_of_ne_of_not_mem (by decide) ih
  | case4 c d rest single ih =>
      rw [normalBreaks, if_neg single]
      exact List.not_mem_cons_of_ne_of_not_mem (other c) ih

/-- A character escapes alike as itself and as the line feed that it may become. -/
theorem escapeChar_normal (c : Char) : escapeChar (if c = '\r' then '\n' else c) = escapeChar c := by
  split
  · next same =>
      subst same
      decide
  · rfl

/-- **ESCAPING CHARACTER BY CHARACTER**: once line breaks are line feeds, each character of a text
    is escaped for itself. -/
theorem escapeText_eq_flatMap (s : List Char) :
    escapeText s = (normalBreaks s).flatMap escapeChar := by
  induction s using normalBreaks.induct with
  | case1 => rfl
  | case2 c =>
      rw [normalBreaks, escapeText, List.flatMap_singleton, escapeChar_normal]
  | case3 c d rest pair ih =>
      rw [normalBreaks, escapeText, if_pos pair, if_pos pair, ih]
      rfl
  | case4 c d rest single ih =>
      rw [normalBreaks, escapeText, if_neg single, if_neg single, ih, List.flatMap_cons,
        escapeChar_normal]

theorem mem_escapeChar {c d : Char} (h : d ∈ escapeChar c) : d ≠ '\r' ∧ d ≠ '\n' := by
  revert h
  simp only [escapeChar]
  split_ifs with backslash comma semicolon br
  case neg =>
    rw [List.mem_singleton]
    rintro rfl
    exact ⟨fun same => br (.inr same), fun same => br (.inl same)⟩
  all_goals
    rw [List.mem_pair]
    rintro (rfl | rfl) <;> decide

/-- An escaped text stays on its line. -/
theorem mem_escapeText {s : List Char} {d : Char} (h : d ∈ escapeText s) :
    d ≠ '\r' ∧ d ≠ '\n' := by
  rw [escapeText_eq_flatMap] at h
  obtain ⟨c, -, here⟩ := List.mem_flatMap.mp h
  exact mem_escapeChar here

theorem unescapeText_cons {c : Char} (h : c ≠ '\\') (rest : List Char) :
    unescapeText (c :: rest) = c :: unescapeText rest := by
  cases rest with
  | nil => rfl
  | cons d rest => rw [unescapeText, if_neg h]

/-- A character that is neither backslash nor comma goes to the first item. -/
theorem splitUnescaped_cons {c : Char} (backslash : c ≠ '\\') (comma : c ≠ ',')
    (rest : List Char) :
    splitUnescaped (c :: rest) = Text.prependToFirst c (splitUnescaped rest) := by
  cases rest with
  | nil => exact if_neg comma
  | cons d rest => rw [splitUnescaped, if_neg backslash, if_neg comma]

theorem splitUnescaped_comma (rest : List Char) :
    splitUnescaped (',' :: rest) = [] :: splitUnescaped rest := by
  cases rest with
  | nil => rfl
  | cons d rest => rw [splitUnescaped, if_neg (by decide), if_pos rfl]

/-- An escaped character is a backslash and a character that means it, or it is the character
    itself, which is neither a backslash nor a comma. -/
theorem escapeChar_cases (c : Char) (h : c ≠ '\r') :
    (∃ d, escapeChar c = ['\\', d] ∧ meant d = c)
      ∨ escapeChar c = [c] ∧ c ≠ '\\' ∧ c ≠ ',' := by
  simp only [escapeChar]
  split_ifs with backslash comma semicolon br
  · exact .inl ⟨'\\', rfl, by rw [backslash]; rfl⟩
  · exact .inl ⟨',', rfl, by rw [comma]; rfl⟩
  · exact .inl ⟨';', rfl, by rw [semicolon]; rfl⟩
  · exact .inl ⟨'n', rfl, (br.resolve_right h).symm⟩
  · exact .inr ⟨rfl, backslash, comma⟩

/-- What a character is escaped to is read back as that character, whatever follows; a carriage
    return is the exception, since it is dropped. -/
theorem unescapeText_escapeChar_append {c : Char} (h : c ≠ '\r') (rest : List Char) :
    unescapeText (escapeChar c ++ rest) = c :: unescapeText rest := by
  rcases escapeChar_cases c h with ⟨d, written, means⟩ | ⟨written, backslash, -⟩
  · rw [written]
    show unescapeText ('\\' :: d :: rest) = _
    rw [unescapeText, if_pos rfl, means]
  · rw [written]
    exact unescapeText_cons backslash rest

/-- **UNDOING ESCAPES** gives the text with its line breaks as line feeds. -/
theorem unescapeText_escapeText (s : List Char) : unescapeText (escapeText s) = normalBreaks s := by
  rw [escapeText_eq_flatMap]
  have noReturn := return_not_mem_normalBreaks s
  -- all that matters of the normal text is that it has no carriage return
  generalize normalBreaks s = t at noReturn ⊢
  induction t with
  | nil => rfl
  | cons c t ih =>
      rw [List.flatMap_cons,
        unescapeText_escapeChar_append fun same => noReturn (same ▸ List.mem_cons_self)]
      exact congrArg (c :: ·) (ih fun here => noReturn (List.mem_cons_of_mem c here))

theorem foldr_prependToFirst (p w : List Char) (ws : List (List Char)) :
    p.foldr Text.prependToFirst (w :: ws) = (p ++ w) :: ws := by
  induction p with
  | nil => rfl
  | cons c p ih =>
      rw [List.foldr_cons, ih]
      rfl

/-- No comma inside an escaped text splits it. -/
theorem splitUnescaped_escapeText_append (s rest : List Char) :
    splitUnescaped (escapeText s ++ rest)
      = (escapeText s).foldr Text.prependToFirst (splitUnescaped rest) := by
  rw [escapeText_eq_flatMap]
  have noReturn := return_not_mem_normalBreaks s
  generalize normalBreaks s = t at noReturn ⊢
  induction t with
  | nil => rfl
  | cons c t ih =>
      have tail := ih fun here => noReturn (List.mem_cons_of_mem c here)
      rw [List.flatMap_cons, List.append_assoc, List.foldr_append, ← tail]
      -- an escaped comma passes together with its backslash, any other character is no comma
      rcases escapeChar_cases c fun same => noReturn (same ▸ List.mem_cons_self) with
        ⟨d, written, -⟩ | ⟨written, backslash, comma⟩
      · rw [written]
        show splitUnescaped ('\\' :: d :: _) = _
        rw [splitUnescaped, if_pos rfl]
        rfl
      · rw [written]
        exact splitUnescaped_cons backslash comma _

theorem joinComma_cons_cons (x y : List Char) (rest : List (List Char)) :
    joinComma (x :: y :: rest) = x ++ ',' :: joinComma (y :: rest) := by
  simp [joinComma, List.intercalate]

/-- The commas between texts split a list of them into its texts, empty ones too. -/
theorem splitUnescaped_joinComma {texts : List (List Char)} (h : texts ≠ []) :
    splitUnescaped (joinComma (texts.map escapeText)) = texts.map escapeText := by
  induction texts with
  | nil => exact absurd rfl h
  | cons s texts ih =>
      cases texts with
      | nil =>
          have alone := splitUnescaped_escapeText_append s []
          rw [List.append_nil] at alone
          simp only [List.map_cons, List.map_nil, joinComma, List.intercalate_singleton]
          rw [alone, splitUnescaped, foldr_prependToFirst, List.append_nil]
      | cons t texts =>
          have tail := ih (List.cons_ne_nil t texts)
          rw [List.map_cons, List.map_cons, joinComma_cons_cons,
            splitUnescaped_escapeText_append, splitUnescaped_comma, foldr_prependToFirst,
            List.append_nil, ← List.map_cons, tail]

/-- The value of a list of texts splits into the escaped texts. -/
theorem splitUnescaped_texts {texts : List String} (h : texts ≠ []) :
    splitUnescaped (Value.texts texts).content = texts.map fun s => escapeText s.toList := by
  have some_ : texts.map String.toList ≠ [] := fun none_ => h (List.map_eq_nil_iff.mp none_)
  have split := splitUnescaped_joinComma some_
  rw [List.map_map] at split
  exact split

-- ── Raw values ───────────────────────────────────────────────────────────────────

/-- A stripped text stays on its line. -/
theorem mem_stripControls {s : List Char} {d : Char} (h : d ∈ stripControls s) :
    d ≠ '\r' ∧ d ≠ '\n' := by
  have shown := (List.mem_filter.mp h).2
  constructor
  · rintro rfl
    cases shown
  · rintro rfl
    cases shown

-- ── Separators outside quotes ────────────────────────────────────────────────────

/-- Whether quotes are open after a character. -/
def toggled (quoted : Bool) (c : Char) : Bool :=
  if c = '"' then !quoted else quoted

/-- Cuts some characters at the first separator outside quotes: what stands before it, and what
    stands after it if there is one. -/
def cutOutside (separator : Char) : Bool → List Char → List Char × Option (List Char)
  | _, [] => ([], none)
  | quoted, c :: rest =>
    if c = separator ∧ quoted = false then ([], some rest)
    else
      let (before, after) := cutOutside separator (toggled quoted c) rest
      (c :: before, after)

def splitOutside (separator : Char) : Bool → List Char → List (List Char)
  | _, [] => [[]]
  | quoted, c :: rest =>
    if c = separator ∧ quoted = false then [] :: splitOutside separator false rest
    else Text.prependToFirst c (splitOutside separator (toggled quoted c) rest)

/-- Whether quotes are open after some characters, unless one of them is a separator outside
    quotes. -/
def quotedAfter? (separator : Char) : Bool → List Char → Option Bool
  | quoted, [] => some quoted
  | quoted, c :: rest =>
    if c = separator ∧ quoted = false then none
    else quotedAfter? separator (toggled quoted c) rest

/-- No separator stands outside quotes, and all quotes are closed at the end. -/
def Sealed (separator : Char) (s : List Char) : Prop :=
  quotedAfter? separator false s = some false

/-- The state of the quotes is passed from one piece of a line to the next. -/
theorem quotedAfter?_append (separator : Char) (quoted : Bool) (s t : List Char) :
    quotedAfter? separator quoted (s ++ t)
      = (quotedAfter? separator quoted s).bind fun q => quotedAfter? separator q t := by
  induction s generalizing quoted with
  | nil => rfl
  | cons c s ih =>
      simp only [List.cons_append, quotedAfter?]
      split
      · rfl
      · exact ih _

theorem Sealed.append {separator : Char} {s t : List Char} (hs : Sealed separator s)
    (ht : Sealed separator t) : Sealed separator (s ++ t) := by
  simp only [Sealed] at *
  rw [quotedAfter?_append, hs]
  exact ht

theorem sealed_of_plain {separator : Char} {s : List Char}
    (h : ∀ c ∈ s, c ≠ separator ∧ c ≠ '"') : Sealed separator s := by
  induction s with
  | nil => rfl
  | cons c s ih =>
      obtain ⟨other, noQuote⟩ := h c List.mem_cons_self
      simp only [Sealed, quotedAfter?]
      rw [if_neg fun both => other both.1, toggled, if_neg noQuote]
      exact ih fun d hd => h d (List.mem_cons_of_mem c hd)

/-- Quotes seal what stands between them. -/
theorem sealed_quoted {separator : Char} (h : separator ≠ '"') {s : List Char}
    (noQuote : '"' ∉ s) : Sealed separator ('"' :: s ++ ['"']) := by
  -- between the quotes no separator counts
  have inside : ∀ t : List Char, '"' ∉ t →
      quotedAfter? separator true (t ++ ['"']) = some false := by
    intro t
    induction t with
    | nil => intro _; simp [quotedAfter?, toggled]
    | cons c t ih =>
        intro clean
        have other : c ≠ '"' := fun same => clean (same ▸ List.mem_cons_self)
        simp only [List.cons_append, quotedAfter?]
        rw [if_neg fun both => Bool.noConfusion both.2, toggled, if_neg other]
        exact ih fun here => clean (List.mem_cons_of_mem c here)
  simp only [Sealed, List.cons_append, quotedAfter?]
  rw [if_neg fun both => h both.1.symm]
  exact inside s noQuote

/-- A cut at a separator finds the first one outside the quotes. -/
theorem cutOutside_append {separator : Char} {quoted : Bool} {s : List Char}
    (h : quotedAfter? separator quoted s = some false) (rest : List Char) :
    cutOutside separator quoted (s ++ separator :: rest) = (s, some rest) := by
  induction s generalizing quoted with
  | nil =>
      cases h
      rw [List.nil_append, cutOutside, if_pos ⟨rfl, rfl⟩]
  | cons c s ih =>
      simp only [quotedAfter?] at h
      split at h
      · cases h
      · next inside => rw [List.cons_append, cutOutside, if_neg inside, ih h]

/-- Up to a separator outside the quotes stands one item. -/
theorem splitOutside_append {separator : Char} {quoted : Bool} {s : List Char}
    (h : quotedAfter? separator quoted s = some false) (rest : List Char) :
    splitOutside separator quoted (s ++ separator :: rest)
      = s :: splitOutside separator false rest := by
  induction s generalizing quoted with
  | nil =>
      cases h
      rw [List.nil_append, splitOutside, if_pos ⟨rfl, rfl⟩]
  | cons c s ih =>
      simp only [quotedAfter?] at h
      split at h
      · cases h
      · next inside =>
          rw [List.cons_append, splitOutside, if_neg inside, ih h]
          rfl

/-- A sealed text is one item. -/
theorem splitOutside_sealed {separator : Char} {quoted : Bool} {s : List Char}
    (h : quotedAfter? separator quoted s = some false) :
    splitOutside separator quoted s = [s] := by
  induction s generalizing quoted with
  | nil => rfl
  | cons c s ih =>
      simp only [quotedAfter?] at h
      split at h
      · cases h
      · next inside =>
          rw [splitOutside, if_neg inside, ih h]
          rfl

/-- Pieces between separators come apart again. -/
theorem splitOutside_flatMap {separator : Char} {piece : List Char} {pieces : List (List Char)}
    (first : Sealed separator piece) (others : ∀ p ∈ pieces, Sealed separator p) :
    splitOutside separator false (piece ++ pieces.flatMap (separator :: ·)) = piece :: pieces := by
  induction pieces generalizing piece with
  | nil =>
      rw [List.flatMap_nil, List.append_nil]
      exact splitOutside_sealed first
  | cons next pieces ih =>
      rw [List.flatMap_cons, List.cons_append, splitOutside_append first,
        ih (others next List.mem_cons_self) fun p hp => others p (List.mem_cons_of_mem next hp)]

theorem joinComma_cons (x : List Char) (rest : List (List Char)) :
    joinComma (x :: rest) = x ++ rest.flatMap (',' :: ·) :=
  Text.intercalate_cons ',' x rest

/-- A joined list holds its items and commas. -/
theorem mem_joinComma {items : List (List Char)} {c : Char} (h : c ∈ joinComma items) :
    c = ',' ∨ ∃ item ∈ items, c ∈ item := by
  cases items with
  | nil => cases h
  | cons x rest =>
      rw [joinComma_cons] at h
      rcases List.mem_append.mp h with first | later
      · exact .inr ⟨x, List.mem_cons_self, first⟩
      · obtain ⟨item, listed, here⟩ := List.mem_flatMap.mp later
        rcases List.mem_cons.mp here with comma | inside
        · exact .inl comma
        · exact .inr ⟨item, List.mem_cons_of_mem x listed, inside⟩

-- ── Parameter values ─────────────────────────────────────────────────────────────

/-- Undoes the escapes that a caret introduces; any other caret stands for itself. -/
def uncaret : List Char → List Char
  | [] => []
  | [c] => [c]
  | c :: d :: rest =>
    if c = '^' ∧ d = '^' then '^' :: uncaret rest
    else if c = '^' ∧ d = 'n' then '\n' :: uncaret rest
    else if c = '^' ∧ d = '\'' then '"' :: uncaret rest
    else c :: uncaret (d :: rest)

/-- What stands between quotes, or all of it when there are none. -/
def unquote : List Char → List Char
  | [] => []
  | c :: rest => if c = '"' then rest.dropLast else c :: rest

theorem uncaret_cons {c : Char} (h : c ≠ '^') (rest : List Char) :
    uncaret (c :: rest) = c :: uncaret rest := by
  cases rest with
  | nil => rfl
  | cons d rest =>
      rw [uncaret, if_neg fun both => h both.1, if_neg fun both => h both.1,
        if_neg fun both => h both.1]

/-- A text without a caret is read as it is written. -/
theorem uncaret_of_none {s : List Char} (h : '^' ∉ s) : uncaret s = s := by
  induction s with
  | nil => rfl
  | cons c s ih =>
      rw [uncaret_cons fun same => h (same ▸ List.mem_cons_self),
        ih fun here => h (List.mem_cons_of_mem c here)]

/-- Inside quotes every character can be read back, carets and quotes too. -/
theorem uncaret_flatMap_quoteChar (s : List Char) : uncaret (s.flatMap quoteChar) = s := by
  induction s with
  | nil => rfl
  | cons c s ih =>
      rw [List.flatMap_cons]
      simp only [quoteChar]
      split_ifs with caret feed quote
      · subst caret
        exact congrArg ('^' :: ·) ih
      · subst feed
        exact congrArg ('\n' :: ·) ih
      · subst quote
        exact congrArg ('"' :: ·) ih
      · exact (uncaret_cons caret _).trans (congrArg (c :: ·) ih)

/-- Quoting leaves no quote and no line feed, and a carriage return only where there was one. -/
theorem mem_quoteChar {c d : Char} (h : d ∈ quoteChar c) :
    d ≠ '"' ∧ d ≠ '\n' ∧ (d = '\r' → c = '\r') := by
  revert h
  simp only [quoteChar]
  split_ifs with caret feed quote
  case neg =>
    rw [List.mem_singleton]
    rintro rfl
    exact ⟨quote, feed, id⟩
  all_goals
    rw [List.mem_pair]
    rintro (rfl | rfl) <;> simp

/-- A parameter value holds no line feed, and a carriage return only where it had one. -/
theorem mem_quoteParameter {s : List Char} {d : Char} (h : d ∈ quoteParameter s) :
    d ≠ '\n' ∧ (d = '\r' → '\r' ∈ s) := by
  simp only [quoteParameter] at h
  split at h
  · rcases List.mem_cons.mp h with rfl | h
    · simp
    · rcases List.mem_append.mp h with h | h
      · obtain ⟨c, hc, here⟩ := List.mem_flatMap.mp h
        obtain ⟨-, feed, ret⟩ := mem_quoteChar here
        exact ⟨feed, fun same => ret same ▸ hc⟩
      · rw [List.mem_singleton.mp h]
        simp
  · next plain =>
      refine ⟨?_, fun same => same ▸ h⟩
      rintro rfl
      exact plain (List.any_eq_true.mpr ⟨'\n', h, rfl⟩)

/-- A parameter value keeps separators in quotes. -/
theorem sealed_quoteParameter {separator : Char}
    (h : separator = ':' ∨ separator = ';' ∨ separator = ',') (s : List Char) :
    Sealed separator (quoteParameter s) := by
  have noQuote : separator ≠ '"' := by
    rcases h with rfl | rfl | rfl <;> decide
  simp only [quoteParameter]
  split
  · refine sealed_quoted noQuote fun here => ?_
    obtain ⟨c, -, made⟩ := List.mem_flatMap.mp here
    exact (mem_quoteChar made).1 rfl
  · next plain =>
      refine sealed_of_plain fun c hc => ⟨?_, ?_⟩
      · rintro rfl
        refine plain (List.any_eq_true.mpr ⟨c, hc, ?_⟩)
        rcases h with rfl | rfl | rfl <;> rfl
      · rintro rfl
        exact plain (List.any_eq_true.mpr ⟨'"', hc, rfl⟩)

/-- Without its quotes a parameter value has its characters escaped if it needed quotes, and else
    stands as it is. -/
theorem unquote_quoteParameter (s : List Char) :
    unquote (quoteParameter s) = if s.any needsQuotes then s.flatMap quoteChar else s := by
  simp only [quoteParameter]
  split
  · rw [List.cons_append, unquote, if_pos rfl, List.dropLast_concat]
  · next plain =>
      cases s with
      | nil => rfl
      | cons c s =>
          rw [unquote, if_neg]
          rintro rfl
          exact plain (List.any_eq_true.mpr ⟨'"', List.mem_cons_self, rfl⟩)

/-- **A PARAMETER VALUE COMES BACK**, quoted or not, as long as it holds no caret. -/
theorem uncaret_unquote_quoteParameter {s : List Char} (h : '^' ∉ s) :
    uncaret (unquote (quoteParameter s)) = s := by
  rw [unquote_quoteParameter]
  split
  · exact uncaret_flatMap_quoteChar s
  · exact uncaret_of_none h

end CalendarFeeds.ICalendar
