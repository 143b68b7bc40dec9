import CalendarFeeds.Proofs.Runs
import CalendarFeeds.Text.Blank

/-! # Words — a text and what stands between its blanks

    The words of a text are its longest stretches without a blank.  `HasWords` says so of a text
    as it is written: gaps of blanks, and words that end where the text ends or a blank follows.
    The reader joins the characters of a word from behind, so both directions follow the text from
    its first character on. -/

namespace CalendarFeeds.Text

/-- One character or more, none of them a blank. -/
structure IsWord (w : List Char) : Prop where
  some_ : w ≠ []
  shown : ∀ c ∈ w, isBlank c = false

theorem isWord_of_all {w : List Char} (h : (!w.isEmpty && w.all fun c => !isBlank c) = true) :
    IsWord w := by
  obtain ⟨some_, shown⟩ := (Bool.and_eq_true _ _).mp h
  refine ⟨fun empty => ?_, fun c hc => ?_⟩
  · rw [empty] at some_
    cases some_
  · simpa using List.all_eq_true.mp shown c hc

/-- **THE WORDS OF A TEXT** are its longest stretches without a blank, in order. -/
inductive HasWords : List Char → List (List Char) → Prop
  | nothing {gap : List Char} (blank : ∀ c ∈ gap, isBlank c = true) : HasWords gap []
  | word {gap w rest : List Char} {ws : List (List Char)} (blank : ∀ c ∈ gap, isBlank c = true)
      (word : IsWord w) (ended : ∀ c ∈ rest.head?, isBlank c = true)
      (others : HasWords rest ws) : HasWords (gap ++ (w ++ rest)) (w :: ws)

namespace HasWords

variable {s rest w : List Char} {ws : List (List Char)} {c : Char}

/-- A blank in front adds no word. -/
theorem cons_blank (blank : isBlank c = true) (h : HasWords s ws) : HasWords (c :: s) ws := by
  cases h with
  | nothing gap => exact .nothing (List.forall_mem_cons.mpr ⟨blank, gap⟩)
  | word gap first ended others =>
      exact .word (List.forall_mem_cons.mpr ⟨blank, gap⟩) first ended others

/-- A text that begins with a word. -/
theorem begins (h : IsWord w) (ended : ∀ c ∈ rest.head?, isBlank c = true)
    (others : HasWords rest ws) : HasWords (w ++ rest) (w :: ws) := by
  have written : HasWords ([] ++ (w ++ rest)) (w :: ws) :=
    .word (List.forall_mem_nil _) h ended others
  exact written

/-- A word alone. -/
theorem alone (h : IsWord w) : HasWords w [w] := by
  have written : HasWords (w ++ []) [w] := begins h nofun (.nothing nofun)
  rwa [List.append_nil] at written

/-- A word, a space and more words. -/
theorem spaced (h : IsWord w) (others : HasWords rest ws) :
    HasWords (w ++ ' ' :: rest) (w :: ws) := by
  have space : isBlank ' ' = true := by decide
  exact begins h (by simpa using space) (others.cons_blank space)

/-- A character in front of a word belongs to it. -/
theorem cons_shown {d : Char} (shown : isBlank c = false) (joins : isBlank d = false)
    (h : HasWords (d :: s) ws) : HasWords (c :: d :: s) (prependToFirst c ws) := by
  generalize written : d :: s = t at h
  cases h with
  | nothing gap =>
      subst written
      rw [gap d List.mem_cons_self] at joins
      cases joins
  | @word gap w rest _ blank first ended others =>
      -- no blank stands before the word that begins with `d`
      have none_ : gap = [] := by
        cases gap with
        | nil => rfl
        | cons e gap =>
            cases written
            rw [blank d List.mem_cons_self] at joins
            cases joins
      subst none_
      have longer : IsWord (c :: w) :=
        ⟨List.cons_ne_nil _ _, List.forall_mem_cons.mpr ⟨shown, first.shown⟩⟩
      exact begins longer ended others

end HasWords

/-- The words that are computed are the words of the text. -/
theorem hasWords_words (s : List Char) : HasWords s (words s) := by
  induction s with
  | nil => exact .nothing (List.forall_mem_nil _)
  | cons c s ih =>
      cases blank : isBlank c with
      | true =>
          have same : words (c :: s) = words s := by simp [words, runs, blank]
          rw [same]
          exact ih.cons_blank blank
      | false =>
          have single : IsWord [c] := ⟨List.cons_ne_nil _ _, List.forall_mem_singleton.mpr blank⟩
          cases s with
          | nil =>
              have one : words [c] = [[c]] := by simp [words, runs, endsRun, blank]
              rw [one]
              exact .alone single
          | cons d s =>
              cases next : isBlank d with
              | true =>
                  have apart : words (c :: d :: s) = [c] :: words (d :: s) := by
                    simp [words, runs, endsRun, blank, next]
                  rw [apart]
                  exact .begins single (by simpa using next) ih
              | false =>
                  have joined : words (c :: d :: s) = prependToFirst c (words (d :: s)) := by
                    simp [words, runs, endsRun, blank, next]
                  rw [joined]
                  exact ih.cons_shown blank next

/-- Blanks in front are passed over. -/
theorem words_append_of_blank {gap : List Char} (blank : ∀ c ∈ gap, isBlank c = true)
    (s : List Char) : words (gap ++ s) = words s :=
  runs_append_of_none (fun c hc => by rw [blank c hc]; rfl) s

/-- A word that has ended comes first. -/
theorem words_append_of_isWord {w rest : List Char} (h : IsWord w)
    (ended : ∀ c ∈ rest.head?, isBlank c = true) : words (w ++ rest) = w :: words rest := by
  have run : IsRun (fun c => !isBlank c) w := ⟨h.some_, fun c hc => by rw [h.shown c hc]; rfl⟩
  have alone : words w = [w] := runs_of_isRun run
  cases rest with
  | nil => rw [List.append_nil, alone, words, runs]
  | cons c rest =>
      have blank : (!isBlank c) = false := by rw [ended c rfl]; rfl
      have parted : words (w ++ c :: rest) = words w ++ words rest := runs_append_cons blank w rest
      have passed : words (c :: rest) = words rest := runs_append_cons blank [] rest
      rw [parted, passed, alone]
      rfl

/-- **SPLITTING INTO WORDS** finds the words of a text. -/
theorem words_eq_iff {s : List Char} {ws : List (List Char)} : words s = ws ↔ HasWords s ws := by
  constructor
  · rintro rfl
    exact hasWords_words s
  · intro h
    induction h with
    | nothing blank => exact words_of_all_blank blank
    | word blank first ended _ ih =>
        rw [words_append_of_blank blank, words_append_of_isWord first ended, ih]

end CalendarFeeds.Text
