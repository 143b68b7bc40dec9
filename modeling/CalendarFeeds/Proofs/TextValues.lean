import CalendarFeeds.Proofs.Escapes
import Mathlib.Algebra.Ring.Parity
import Mathlib.Data.List.DropRight
import Mathlib.Data.List.Forall2

/-! # Text values — what an escaped text means, and where a list of them parts

    A backslash escapes the character after it unless it is escaped itself, so a character is
    escaped exactly if an odd number of backslashes stands directly before it.  This can be seen
    from any place in a text where no escape is open: what stands before such a place does not
    matter (`endsInEscape_append`).  A list parts at the commas that are not escaped, and there is
    one way for it to do so, as the first of these commas stands in one place. -/

namespace CalendarFeeds.ICalendar

-- ── Line breaks ──────────────────────────────────────────────────────────────────

/-- **LINE BREAKS AS LINE FEEDS**: a carriage return with the line feed after it becomes one line
    feed, a carriage return without one becomes a line feed too, and nothing else changes. -/
inductive Normalizes : List Char → List Char → Prop
  | nil : Normalizes [] []
  | pair {s t : List Char} (rest : Normalizes s t) : Normalizes ('\r' :: '\n' :: s) ('\n' :: t)
  | lone {s t : List Char} (alone : s.head? ≠ some '\n') (rest : Normalizes s t) :
      Normalizes ('\r' :: s) ('\n' :: t)
  | other {c : Char} {s t : List Char} (noReturn : c ≠ '\r') (rest : Normalizes s t) :
      Normalizes (c :: s) (c :: t)

/-- A lone carriage return becomes a line feed. -/
theorem normalBreaks_return {s : List Char} (alone : s.head? ≠ some '\n') :
    normalBreaks ('\r' :: s) = '\n' :: normalBreaks s := by
  cases s with
  | nil => rfl
  | cons d s =>
      have single : ¬ ('\r' = '\r' ∧ d = '\n') := fun pair => alone (congrArg some pair.2)
      rw [normalBreaks, if_neg single, if_pos rfl]

theorem normalBreaks_cons {c : Char} (noReturn : c ≠ '\r') (s : List Char) :
    normalBreaks (c :: s) = c :: normalBreaks s := by
  cases s with
  | nil => exact congrArg (fun d => [d]) (if_neg noReturn)
  | cons d s => rw [normalBreaks, if_neg fun pair => noReturn pair.1, if_neg noReturn]

/-- Normal breaks are what the description of them asks for. -/
theorem normalizes_normalBreaks (s : List Char) : Normalizes s (normalBreaks s) := by
  induction s using normalBreaks.induct with
  | case1 => exact .nil
  | case2 c =>
      by_cases ret : c = '\r'
      · rw [ret]
        exact .lone (by simp) .nil
      · rw [normalBreaks_cons ret]
        exact .other ret .nil
  | case3 c d rest pair ih =>
      rw [normalBreaks, if_pos pair, pair.1, pair.2]
      exact .pair ih
  | case4 c d rest single ih =>
      by_cases ret : c = '\r'
      · have alone : (d :: rest).head? ≠ some '\n' := fun feed =>
          single ⟨ret, Option.some.inj feed⟩
        rw [ret, normalBreaks_return alone]
        exact .lone alone ih
      · rw [normalBreaks_cons ret]
        exact .other ret ih

/-- Every text has one normal form. -/
theorem normalizes_iff {s t : List Char} : Normalizes s t ↔ t = normalBreaks s := by
  constructor
  · intro h
    induction h with
    | nil => rfl
    | pair _ ih => rw [normalBreaks, if_pos ⟨rfl, rfl⟩, ← ih]
    | lone alone _ ih => rw [normalBreaks_return alone, ← ih]
    | other noReturn _ ih => rw [normalBreaks_cons noReturn, ← ih]
  · rintro rfl
    exact normalizes_normalBreaks s

-- ── Which characters are escaped ─────────────────────────────────────────────────

/-- Whether some characters leave an escape open, so that a character after them is escaped: an
    odd number of backslashes stands at their end. -/
def EndsInEscape (before : List Char) : Prop :=
  Odd (before.rtakeWhile (· == '\\')).length

/-- Every such separator in some characters is escaped. -/
def EscapesEvery (separator : Char) (w : List Char) : Prop :=
  ∀ before after, w = before ++ separator :: after → EndsInEscape before

theorem not_endsInEscape_nil : ¬ EndsInEscape [] := by
  simp [EndsInEscape]

/-- A backslash opens an escape or closes the one that is open; any other character closes it. -/
theorem endsInEscape_concat {s : List Char} {c : Char} :
    EndsInEscape (s ++ [c]) ↔ c = '\\' ∧ ¬ EndsInEscape s := by
  simp only [EndsInEscape, List.rtakeWhile_concat]
  by_cases backslash : c = '\\'
  · rw [if_pos (beq_iff_eq.mpr backslash), List.length_append, List.length_singleton,
      Nat.odd_add_one]
    simp [backslash]
  · rw [if_neg fun same => backslash (beq_iff_eq.mp same)]
    simp [backslash]

/-- **WHERE NO ESCAPE IS OPEN** a text can be cut: what stands before such a place decides nothing
    about what comes after it. -/
theorem endsInEscape_append {p : List Char} (closed : ¬ EndsInEscape p) (s : List Char) :
    EndsInEscape (p ++ s) ↔ EndsInEscape s := by
  induction s using List.reverseRecOn with
  | nil =>
      rw [List.append_nil]
      exact iff_of_false closed not_endsInEscape_nil
  | append_singleton s c ih =>
      rw [← List.append_assoc, endsInEscape_concat, endsInEscape_concat, ih]

theorem not_endsInEscape_singleton {c : Char} (h : c ≠ '\\') : ¬ EndsInEscape [c] := by
  intro opened
  exact h (endsInEscape_concat (s := []).mp opened).1

theorem endsInEscape_backslash : EndsInEscape ['\\'] :=
  endsInEscape_concat (s := []).mpr ⟨rfl, not_endsInEscape_nil⟩

/-- A backslash and the character after it, which may be another backslash, are one escape. -/
theorem not_endsInEscape_pair (d : Char) : ¬ EndsInEscape ['\\', d] := by
  intro opened
  exact (endsInEscape_concat (s := ['\\']).mp opened).2 endsInEscape_backslash

section

variable {separator : Char} {p s : List Char}

theorem escapesEvery_of_not_mem (h : separator ∉ s) : EscapesEvery separator s := by
  rintro before after rfl
  exact absurd (by simp) h

/-- Escaped pieces can be put together unless the first one ends in an open escape. -/
theorem EscapesEvery.append (hp : EscapesEvery separator p) (closed : ¬ EndsInEscape p)
    (hs : EscapesEvery separator s) : EscapesEvery separator (p ++ s) := by
  intro before after here
  rcases List.append_eq_append_iff.mp here with ⟨between, rfl, rest⟩ | ⟨between, inside, rest⟩
  · exact (endsInEscape_append closed between).mpr (hs between after rest)
  · -- the separator stands in the first part, unless that ends right before it
    cases between with
    | nil => exact absurd (hs [] after rest.symm) not_endsInEscape_nil
    | cons c between =>
        obtain ⟨rfl, -⟩ := List.cons.inj rest
        exact hp before between inside

theorem escapesEvery_pair (h : separator ≠ '\\') (d : Char) :
    EscapesEvery separator ['\\', d] := by
  intro before after here
  rcases List.cons_eq_append_iff.mp here with ⟨-, first⟩ | ⟨rest, rfl, tail⟩
  · exact absurd (List.cons.inj first).1 h
  · rcases List.cons_eq_append_iff.mp tail with ⟨rfl, -⟩ | ⟨rest, -, nothing⟩
    · exact endsInEscape_backslash
    · exact absurd nothing (by simp)

end

-- ── What an escaped text means ───────────────────────────────────────────────────

/-- **WHAT A TEXT VALUE SPELLS**: a backslash and one of five characters are an escape; any other
    character stands for itself, if it is no backslash, no separator and no line break. -/
inductive Spells : List Char → List Char → Prop
  | nil : Spells [] []
  | plain {c : Char} {w s : List Char} (safe : c ∉ ['\\', ',', ';', '\n', '\r'])
      (rest : Spells w s) : Spells (c :: w) (c :: s)
  | escape {d : Char} {w s : List Char} (known : d ∈ ['\\', ',', ';', 'n', 'N'])
      (rest : Spells w s) : Spells ('\\' :: d :: w) (meant d :: s)

namespace Spells

variable {w s : List Char}

/-- What a text value spells is what the reader makes of it. -/
theorem unescapeText_eq (h : Spells w s) : unescapeText w = s := by
  induction h with
  | nil => rfl
  | plain safe _ ih =>
      have noBackslash := List.ne_of_not_mem_cons safe
      rw [unescapeText_cons noBackslash, ih]
  | escape _ _ ih => rw [unescapeText, if_pos rfl, ih]

/-- No separator stands in a text value without an escape. -/
theorem escapesEvery (h : Spells w s) {separator : Char}
    (special : separator = ',' ∨ separator = ';') : EscapesEvery separator w := by
  have noBackslash : separator ≠ '\\' := by
    rcases special with rfl | rfl <;> decide
  induction h with
  | nil => exact escapesEvery_of_not_mem List.not_mem_nil
  | @plain c w s safe _ ih =>
      have other : separator ∉ [c] := by
        rw [List.mem_singleton]
        rintro rfl
        rcases special with rfl | rfl <;> exact safe (by decide)
      have closed := not_endsInEscape_singleton (List.ne_of_not_mem_cons safe)
      exact (escapesEvery_of_not_mem other).append closed ih
  | @escape d w s _ _ ih =>
      exact (escapesEvery_pair noBackslash d).append (not_endsInEscape_pair d) ih

end Spells

/-- The escape of a character spells that character in front of whatever the rest spells. -/
theorem spells_escapeChar_append {c : Char} (h : c ≠ '\r') {w s : List Char} (rest : Spells w s) :
    Spells (escapeChar c ++ w) (c :: s) := by
  simp only [escapeChar]
  split_ifs with backslash comma semicolon br
  · rw [backslash]
    exact .escape (d := '\\') (by decide) rest
  · rw [comma]
    exact .escape (d := ',') (by decide) rest
  · rw [semicolon]
    exact .escape (d := ';') (by decide) rest
  · rw [br.resolve_right h]
    exact .escape (d := 'n') (by decide) rest
  · refine .plain ?_ rest
    simp only [List.mem_cons, List.not_mem_nil, or_false]
    tauto

/-- **AN ESCAPED TEXT SPELLS THE TEXT**, with its line breaks as line feeds. -/
theorem spells_escapeText (s : List Char) : Spells (escapeText s) (normalBreaks s) := by
  rw [escapeText_eq_flatMap]
  have noReturn := return_not_mem_normalBreaks s
  generalize normalBreaks s = t at noReturn ⊢
  induction t with
  | nil => exact .nil
  | cons c t ih =>
      rw [List.flatMap_cons]
      have first : c ≠ '\r' := fun same => noReturn (same ▸ List.mem_cons_self)
      exact spells_escapeChar_append first (ih fun here => noReturn (List.mem_cons_of_mem c here))

/-- It spells nothing else. -/
theorem spells_escapeText_iff {s t : List Char} : Spells (escapeText s) t ↔ Normalizes s t := by
  rw [normalizes_iff]
  constructor
  · intro h
    rw [← h.unescapeText_eq, unescapeText_escapeText]
  · rintro rfl
    exact spells_escapeText s

-- ── Where a list parts ───────────────────────────────────────────────────────────

/-- **THE PARTS OF A LIST**: what stands between the commas that no backslash escapes. -/
inductive PartsAtCommas : List Char → List (List Char) → Prop
  | last {p : List Char} (inside : EscapesEvery ',' p) : PartsAtCommas p [p]
  | cons {p w : List Char} {ps : List (List Char)} (inside : EscapesEvery ',' p)
      (closed : ¬ EndsInEscape p) (rest : PartsAtCommas w ps) :
      PartsAtCommas (p ++ ',' :: w) (p :: ps)

/-- The first comma that is not escaped stands in one place: an earlier one would be escaped in
    what stands before the other. -/
theorem append_comma_inj {p q w v : List Char} (hp : EscapesEvery ',' p)
    (hq : EscapesEvery ',' q) (closedp : ¬ EndsInEscape p) (closedq : ¬ EndsInEscape q)
    (same : p ++ ',' :: w = q ++ ',' :: v) : p = q ∧ w = v := by
  rcases List.append_eq_append_iff.mp same with ⟨between, longer, rest⟩ | ⟨between, longer, rest⟩
  · cases between with
    | nil => exact ⟨(longer.trans (List.append_nil p)).symm, (List.cons.inj rest).2⟩
    | cons c between =>
        obtain ⟨rfl, -⟩ := List.cons.inj rest
        exact absurd (hq p between longer) closedp
  · cases between with
    | nil => exact ⟨longer.trans (List.append_nil q), (List.cons.inj rest).2.symm⟩
    | cons c between =>
        obtain ⟨rfl, -⟩ := List.cons.inj rest
        exact absurd (hp q between longer) closedq

namespace PartsAtCommas

/-- A text parts in one way. -/
theorem unique {w : List Char} {ps qs : List (List Char)} (hp : PartsAtCommas w ps)
    (hq : PartsAtCommas w qs) : ps = qs := by
  induction hp generalizing qs with
  | last inside =>
      cases hq with
      | last _ => rfl
      | @cons q v qs _ closed _ => exact absurd (inside q v rfl) closed
  | @cons p w ps inside closed _ ih =>
      generalize whole : p ++ ',' :: w = v at hq
      cases hq with
      | last other => exact absurd (other p w whole.symm) closed
      | @cons q v qs other closed' rest =>
          obtain ⟨rfl, rfl⟩ := append_comma_inj inside other closed closed' whole
          rw [ih rest]

/-- Characters that leave no escape open and no comma bare belong to the first part. -/
theorem append {p w : List Char} {ps : List (List Char)} (inside : EscapesEvery ',' p)
    (closed : ¬ EndsInEscape p) (h : PartsAtCommas w ps) :
    PartsAtCommas (p ++ w) (p.foldr Text.prependToFirst ps) := by
  cases h with
  | last other =>
      rw [foldr_prependToFirst]
      exact .last (inside.append closed other)
  | @cons q w ps other closed' rest =>
      rw [foldr_prependToFirst, ← List.append_assoc]
      exact .cons (inside.append closed other)
        (fun opened => closed' ((endsInEscape_append closed q).mp opened)) rest

end PartsAtCommas

/-- Splitting parts a text at its unescaped commas. -/
theorem partsAtCommas_splitUnescaped (w : List Char) : PartsAtCommas w (splitUnescaped w) := by
  have nothing : EscapesEvery ',' [] := escapesEvery_of_not_mem List.not_mem_nil
  have character : ∀ {c : Char}, c ≠ ',' → EscapesEvery ',' [c] := fun other =>
    escapesEvery_of_not_mem fun here => other (List.mem_singleton.mp here).symm
  induction w using splitUnescaped.induct with
  | case1 => exact .last nothing
  | case2 => exact .cons nothing not_endsInEscape_nil (.last nothing)
  | case3 c other =>
      rw [splitUnescaped, if_neg other]
      exact .last (character other)
  | case4 d rest ih =>
      -- whatever the character after a backslash is, the two go together
      rw [splitUnescaped, if_pos rfl]
      exact ih.append (escapesEvery_pair (by decide) d) (not_endsInEscape_pair d)
  | case5 d rest _ ih =>
      rw [splitUnescaped_comma]
      exact .cons nothing not_endsInEscape_nil ih
  | case6 c d rest backslash other ih =>
      rw [splitUnescaped_cons backslash other]
      exact ih.append (character other) (not_endsInEscape_singleton backslash)

/-- **SPLITTING FINDS THE PARTS** of any characters, and there are no others. -/
theorem partsAtCommas_iff {w : List Char} {ps : List (List Char)} :
    PartsAtCommas w ps ↔ ps = splitUnescaped w := by
  constructor
  · intro h
    exact h.unique (partsAtCommas_splitUnescaped w)
  · rintro rfl
    exact partsAtCommas_splitUnescaped w

/-- **TEXT VALUES READ BACK**: an escaped text spells the text with its line breaks as line feeds
    and nothing else, the reader finds that, and no line break and no bare separator is left in
    it; so a list of texts, unless it is empty, parts into as many texts, and each of them reads
    back. -/
theorem escaped_texts_read_back :
    (∀ s : List Char,
      (∀ t, Spells (escapeText s) t ↔ Normalizes s t)
        ∧ Normalizes s (unescapeText (escapeText s))
        ∧ ('\r' ∉ escapeText s ∧ '\n' ∉ escapeText s)
        ∧ EscapesEvery ',' (escapeText s) ∧ EscapesEvery ';' (escapeText s))
      ∧ ∀ texts : List String, texts ≠ [] →
          ∃ parts, (∀ ps, PartsAtCommas (Value.texts texts).content ps ↔ ps = parts)
            ∧ splitUnescaped (Value.texts texts).content = parts
            ∧ parts.length = texts.length
            ∧ List.Forall₂ (fun part s => Normalizes s.toList (unescapeText part)) parts texts := by
  have reads : ∀ s : List Char, Normalizes s (unescapeText (escapeText s)) := by
    intro s
    rw [unescapeText_escapeText]
    exact normalizes_normalBreaks s
  refine ⟨fun s => ?_, fun texts some_ => ?_⟩
  · have spelled := spells_escapeText s
    refine ⟨fun t => spells_escapeText_iff, reads s, ⟨?_, ?_⟩, ?_, ?_⟩
    · exact fun here => (mem_escapeText here).1 rfl
    · exact fun here => (mem_escapeText here).2 rfl
    · exact spelled.escapesEvery (.inl rfl)
    · exact spelled.escapesEvery (.inr rfl)
  · have split := splitUnescaped_texts some_
    refine ⟨texts.map fun s => escapeText s.toList, fun ps => ?_, split, List.length_map _, ?_⟩
    · rw [← split]
      exact partsAtCommas_iff
    · rw [List.forall₂_map_left_iff]
      exact List.forall₂_same.mpr fun s _ => reads s.toList

/-- A text that ends in a backslash, an empty one, and one with a comma, a line break and the
    letters of an escape. -/
theorem escaped_texts_read_back_backslash :
    ["C:\\", "", ",\r\n\\n"] ≠ []
      ∧ ∀ ps, PartsAtCommas (Value.texts ["C:\\", "", ",\r\n\\n"]).content ps
          ↔ ps = ["C:\\\\".toList, [], "\\,\\n\\\\n".toList] := by
  have some_ : ["C:\\", "", ",\r\n\\n"] ≠ [] := by decide
  obtain ⟨parts, only, split, -, -⟩ := escaped_texts_read_back.2 _ some_
  have found : parts = ["C:\\\\".toList, [], "\\,\\n\\\\n".toList] := by
    rw [← split]
    decide
  rw [← found]
  exact ⟨some_, only⟩

end CalendarFeeds.ICalendar
