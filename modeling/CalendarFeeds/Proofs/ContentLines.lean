import CalendarFeeds.ICalendar.Component
import Mathlib.Algebra.GroupWithZero.Nat
import Mathlib.Data.List.Basic

/-! # Content lines — what a reader finds in a folded text

    A reader splits a text at its line breaks and joins a line that begins with a space to the one
    before it.  Folding cuts a content line into segments, and each segment but the first stands
    after a space of its own; so whatever the line holds, as long as it neither begins with a
    space nor holds a line break, the reader gets it back, and the lines around it too. -/

namespace CalendarFeeds.ICalendar

-- ── Reading lines ────────────────────────────────────────────────────────────────

/-- How long some characters are in UTF-8. -/
def octets (s : List Char) : Nat :=
  (s.map Char.utf8Size).sum

/-- A line together with the line break that ends it. -/
def ended (line : List Char) : List Char :=
  line ++ ['\r', '\n']

/-- The lines of a text: a carriage return and the line feed after it end a line.  What follows
    the last of them is a line if there is anything. -/
def physicalLines : List Char → List (List Char)
  | [] => []
  | [c] => [[c]]
  | c :: d :: rest =>
    if c = '\r' ∧ d = '\n' then [] :: physicalLines rest
    else Text.prependToFirst c (physicalLines (d :: rest))

/-- Joins to a line those after it that begin with a space, without the space. -/
def joinFolded (line : List Char) : List (List Char) → List (List Char)
  | [] => [line]
  | (' ' :: more) :: rest => joinFolded (line ++ more) rest
  | next :: rest => line :: joinFolded next rest

/-- The content lines that some lines fold. -/
def logicalLines : List (List Char) → List (List Char)
  | [] => []
  | line :: rest => joinFolded line rest

/-- **A WELL-FOLDED TEXT**: its line breaks are all pairs of carriage return and line feed, each
    at the end of a line; no line is too long; and joined they are the content lines. -/
structure Folds (text : List Char) (lines : List (List Char)) : Prop where
  breaks : text = (physicalLines text).flatMap ended
  plain : ∀ line ∈ physicalLines text, '\r' ∉ line ∧ '\n' ∉ line
  short : ∀ line ∈ physicalLines text, octets line ≤ maxOctets
  content : logicalLines (physicalLines text) = lines

/-- What may be folded: a line without line breaks that does not begin with a space. -/
structure IsContentLine (line : List Char) : Prop where
  noReturn : '\r' ∉ line
  noFeed : '\n' ∉ line
  begins : ∃ c rest, line = c :: rest ∧ c ≠ ' '

@[simp] theorem octets_cons (c : Char) (s : List Char) :
    octets (c :: s) = c.utf8Size + octets s := rfl

/-- A line that holds no line feed is read back as the first physical line. -/
theorem physicalLines_ended_append {line : List Char} (h : '\n' ∉ line) (rest : List Char) :
    physicalLines (ended line ++ rest) = line :: physicalLines rest := by
  simp only [ended, List.append_assoc]
  induction line with
  | nil => simp [physicalLines]
  | cons c line ih =>
      have tail := ih fun here => h (List.mem_cons_of_mem c here)
      -- the reader looks at two characters, so it matters whether the line goes on
      cases line with
      | nil =>
          have other : '\r' ≠ '\n' := by decide
          show physicalLines (c :: '\r' :: '\n' :: rest) = _
          rw [physicalLines, if_neg fun both => other both.2]
          exact congrArg (Text.prependToFirst c) tail
      | cons d line =>
          have other : d ≠ '\n' := fun same =>
            h (List.mem_cons_of_mem c (same ▸ List.mem_cons_self))
          show physicalLines (c :: d :: (line ++ '\r' :: '\n' :: rest)) = _
          rw [physicalLines, if_neg fun both => other both.2]
          exact congrArg (Text.prependToFirst c) tail

/-- Physical lines that hold no line feed are read back as written. -/
theorem physicalLines_flatMap_ended {lines : List (List Char)} (h : ∀ line ∈ lines, '\n' ∉ line) :
    physicalLines (lines.flatMap ended) = lines := by
  induction lines with
  | nil => rfl
  | cons line lines ih =>
      rw [List.flatMap_cons, physicalLines_ended_append (h line List.mem_cons_self)]
      exact congrArg (line :: ·) (ih fun l hl => h l (List.mem_cons_of_mem line hl))

/-- A line that does not start with a blank starts a logical line of its own. -/
theorem joinFolded_cons {line next : List Char} {c : Char} (h : c ≠ ' ')
    (rest : List (List Char)) :
    joinFolded line ((c :: next) :: rest) = line :: joinFolded (c :: next) rest := by
  simp [joinFolded, h]

/-- Segments after spaces are joined to the line before them, whatever they hold. -/
theorem joinFolded_spaced (line : List Char) (later rest : List (List Char)) :
    joinFolded line (later.map (' ' :: ·) ++ rest) = joinFolded (line ++ later.flatten) rest := by
  induction later generalizing line with
  | nil => simp
  | cons s later ih =>
      show joinFolded (line ++ s) (later.map (' ' :: ·) ++ rest) = _
      rw [ih, List.append_assoc, List.flatten_cons]

-- ── The segments of a content line ───────────────────────────────────────────────

/-- How folding cuts a content line when the current line already has some octets: what still
    goes into that line, and the segments for the lines after it. -/
def segmentsFrom : Nat → List Char → List Char × List (List Char)
  | _, [] => ([], [])
  | used, c :: rest =>
    if maxOctets < used + c.utf8Size then
      let (now, later) := segmentsFrom (1 + c.utf8Size) rest
      ([], (c :: now) :: later)
    else
      let (now, later) := segmentsFrom (used + c.utf8Size) rest
      (c :: now, later)

def foldedLines (line : List Char) : List (List Char) :=
  let (now, later) := segmentsFrom 0 line
  now :: later.map (' ' :: ·)

/-- A character that no longer fits opens the next segment, after the blank that marks a fold. -/
theorem segmentsFrom_fold {used : Nat} {c : Char} (full : maxOctets < used + c.utf8Size)
    (rest : List Char) :
    segmentsFrom used (c :: rest)
      = ([], (c :: (segmentsFrom (1 + c.utf8Size) rest).1)
          :: (segmentsFrom (1 + c.utf8Size) rest).2) := by
  rw [segmentsFrom, if_pos full]

/-- A character that fits stays on the segment. -/
theorem segmentsFrom_keep {used : Nat} {c : Char} (fits : ¬ maxOctets < used + c.utf8Size)
    (rest : List Char) :
    segmentsFrom used (c :: rest)
      = (c :: (segmentsFrom (used + c.utf8Size) rest).1,
          (segmentsFrom (used + c.utf8Size) rest).2) := by
  rw [segmentsFrom, if_neg fits]

/-- Folding writes the segments, each on a line of its own and all but the first after a space. -/
theorem foldFrom_ended (used : Nat) (line : List Char) :
    ended (foldFrom used line)
      = ((segmentsFrom used line).1 :: (segmentsFrom used line).2.map (' ' :: ·)).flatMap ended := by
  induction line generalizing used with
  | nil => rfl
  | cons c rest ih =>
      by_cases full : maxOctets < used + c.utf8Size
      · rw [foldFrom, if_pos full, segmentsFrom_fold full, List.flatMap_cons, List.map_cons]
        exact congrArg (fun text => '\r' :: '\n' :: ' ' :: c :: text) (ih _)
      · rw [foldFrom, if_neg full, segmentsFrom_keep full, List.flatMap_cons]
        exact congrArg (c :: ·) (ih _)

/-- The segments hold the line, all of it and in order. -/
theorem segmentsFrom_flatten (used : Nat) (line : List Char) :
    (segmentsFrom used line).1 ++ (segmentsFrom used line).2.flatten = line := by
  induction line generalizing used with
  | nil => rfl
  | cons c rest ih =>
      by_cases full : maxOctets < used + c.utf8Size
      · rw [segmentsFrom_fold full]
        exact congrArg (c :: ·) (ih _)
      · rw [segmentsFrom_keep full]
        exact congrArg (c :: ·) (ih _)

/-- A segment fits into its line, with the octets that are there already. -/
theorem segmentsFrom_octets {used : Nat} (fits : used ≤ maxOctets) (line : List Char) :
    used + octets (segmentsFrom used line).1 ≤ maxOctets
      ∧ ∀ s ∈ (segmentsFrom used line).2, 1 + octets s ≤ maxOctets := by
  induction line generalizing used with
  | nil => exact ⟨fits, fun s hs => nomatch hs⟩
  | cons c rest ih =>
      by_cases full : maxOctets < used + c.utf8Size
      · -- the character opens the next line, where a space precedes it
        have opens : 1 + c.utf8Size ≤ maxOctets := by
          have := c.utf8Size_le_four
          simp only [maxOctets]
          omega
        obtain ⟨now, later⟩ := ih opens
        rw [segmentsFrom_fold full]
        refine ⟨fits, fun s hs => ?_⟩
        rcases List.mem_cons.mp hs with rfl | hs
        · rw [octets_cons]
          omega
        · exact later s hs
      · obtain ⟨now, later⟩ := ih (Nat.le_of_not_lt full)
        rw [segmentsFrom_keep full]
        refine ⟨?_, later⟩
        rw [octets_cons]
        omega

theorem foldLine_eq (line : List Char) :
    foldLine line = (foldedLines line).flatMap ended :=
  foldFrom_ended 0 line

theorem mem_foldedLines {line s : List Char} (h : s ∈ foldedLines line) {c : Char} (hc : c ∈ s) :
    c = ' ' ∨ c ∈ line := by
  have whole := segmentsFrom_flatten 0 line
  rcases List.mem_cons.mp h with rfl | later
  · rw [← whole]
    exact .inr (List.mem_append_left _ hc)
  · obtain ⟨t, ht, rfl⟩ := List.mem_map.mp later
    rcases List.mem_cons.mp hc with rfl | hc
    · exact .inl rfl
    · rw [← whole]
      exact .inr (List.mem_append_right _ (List.mem_flatten.mpr ⟨t, ht, hc⟩))

theorem feed_not_mem_foldedLines {line s : List Char} (h : '\n' ∉ line)
    (hs : s ∈ foldedLines line) : '\n' ∉ s := by
  intro here
  rcases mem_foldedLines hs here with space | inLine
  · cases space
  · exact h inLine

/-- No physical line is longer than the limit. -/
theorem octets_of_mem_foldedLines {line s : List Char} (h : s ∈ foldedLines line) :
    octets s ≤ maxOctets := by
  obtain ⟨now, later⟩ := segmentsFrom_octets (Nat.zero_le maxOctets) line
  rcases List.mem_cons.mp h with rfl | here
  · omega
  · obtain ⟨t, ht, rfl⟩ := List.mem_map.mp here
    exact later t ht

-- ── Folded texts ─────────────────────────────────────────────────────────────────

/-- The first line of a folded content line begins as the content line does. -/
theorem foldedLines_cons (c : Char) (rest : List Char) :
    ∃ (now : List Char) (later : List (List Char)),
      foldedLines (c :: rest) = (c :: now) :: later.map (' ' :: ·)
        ∧ c :: now ++ later.flatten = c :: rest := by
  -- the first character always fits, so no line break comes before it
  have fits : ¬ maxOctets < 0 + c.utf8Size := by
    have := c.utf8Size_le_four
    simp only [maxOctets]
    omega
  have whole := segmentsFrom_flatten 0 (c :: rest)
  have split := segmentsFrom_keep fits rest
  rw [split] at whole
  refine ⟨_, _, ?_, whole⟩
  simp only [foldedLines]
  rw [split]

/-- Joining the physical lines of several content lines after a first line gives that line and
    them: the induction is on the lines still to come. -/
theorem joinFolded_foldedLines {lines : List (List Char)} (h : ∀ l ∈ lines, IsContentLine l)
    (line : List Char) : joinFolded line (lines.flatMap foldedLines) = line :: lines := by
  induction lines generalizing line with
  | nil => rfl
  | cons next lines ih =>
      obtain ⟨c, rest, rfl, other⟩ := (h next List.mem_cons_self).begins
      obtain ⟨now, later, folded, whole⟩ := foldedLines_cons c rest
      -- the next content line ends the one before it, as it does not begin with a space
      rw [List.flatMap_cons, folded, List.cons_append, joinFolded_cons other, joinFolded_spaced,
        whole, ih fun l hl => h l (List.mem_cons_of_mem _ hl)]

/-- Unfolding takes the physical lines of content lines back to those lines. -/
theorem logicalLines_foldedLines {lines : List (List Char)} (h : ∀ l ∈ lines, IsContentLine l) :
    logicalLines (lines.flatMap foldedLines) = lines := by
  cases lines with
  | nil => rfl
  | cons line lines =>
      obtain ⟨c, rest, rfl, -⟩ := (h line List.mem_cons_self).begins
      obtain ⟨now, later, folded, whole⟩ := foldedLines_cons c rest
      rw [List.flatMap_cons, folded]
      show joinFolded _ (later.map (' ' :: ·) ++ lines.flatMap foldedLines) = _
      rw [joinFolded_spaced, whole,
        joinFolded_foldedLines fun l hl => h l (List.mem_cons_of_mem _ hl)]

theorem flatMap_foldLine (lines : List (List Char)) :
    lines.flatMap foldLine = (lines.flatMap foldedLines).flatMap ended := by
  rw [List.flatMap_assoc]
  exact List.flatMap_congr fun line _ => foldLine_eq line

/-- Lines without line feeds fold into the lines that a reader splits the text into. -/
theorem physicalLines_flatMap_foldLine {lines : List (List Char)} (h : ∀ l ∈ lines, '\n' ∉ l) :
    physicalLines (lines.flatMap foldLine) = lines.flatMap foldedLines := by
  rw [flatMap_foldLine]
  refine physicalLines_flatMap_ended fun s hs => ?_
  obtain ⟨line, listed, made⟩ := List.mem_flatMap.mp hs
  exact feed_not_mem_foldedLines (h line listed) made

/-- **FOLDED LINES COME BACK**: the lines that folding makes are exactly those a reader splits the
    text into, and joining them gives the content lines. -/
theorem folds_flatMap_foldLine {lines : List (List Char)} (h : ∀ l ∈ lines, IsContentLine l) :
    Folds (lines.flatMap foldLine) lines := by
  have split := physicalLines_flatMap_foldLine fun l hl => (h l hl).noFeed
  have plain : ∀ s ∈ lines.flatMap foldedLines, '\r' ∉ s ∧ '\n' ∉ s := by
    intro s hs
    obtain ⟨line, listed, made⟩ := List.mem_flatMap.mp hs
    have good := h line listed
    refine ⟨fun here => ?_, feed_not_mem_foldedLines good.noFeed made⟩
    exact (mem_foldedLines made here).elim (fun space => by cases space) good.noReturn
  refine ⟨?_, ?_, ?_, ?_⟩
  · rw [split, flatMap_foldLine]
  · rwa [split]
  · rw [split]
    intro s hs
    obtain ⟨line, -, made⟩ := List.mem_flatMap.mp hs
    exact octets_of_mem_foldedLines made
  · rw [split]
    exact logicalLines_foldedLines h

end CalendarFeeds.ICalendar
