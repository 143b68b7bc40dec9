import CalendarFeeds.Proofs.ByteOrder
import CalendarFeeds.Proofs.ContentLines

/-! # Folding — the only way to break a line as late as possible

    A reader undoes folding by deleting every line break that a space follows, and that space
    with it.  A line without line feeds has no line break of its own, so this deletes what
    folding put in and nothing else, whatever stands next to a fold.

    A fold is forced when the character after it would not have fitted into the line before it.
    With every fold forced and every line short enough, the line breaks of a folded text can
    stand in one place only.  The induction carries what is already on the current line: its
    octets are all that folding knows of it. -/

namespace CalendarFeeds.ICalendar

/-- A text without its folds: without the line breaks that a space follows, and that space. -/
def unfolded : List Char → List Char
  | [] => []
  | '\r' :: '\n' :: ' ' :: rest => unfolded rest
  | c :: rest => c :: unfolded rest

/-- A line goes on in the next one, after its space; what comes there would not have fitted. -/
def GoesOn (before after : List Char) : Prop :=
  ∃ c rest, after = ' ' :: c :: rest ∧ maxOctets < octets before + c.utf8Size

/-- **A TEXT IS THE FOLD OF A LINE**: every line of it ends with a line break and is short enough;
    lines go on only where they must; and without its folds the text is the line. -/
structure IsFold (line text : List Char) : Prop where
  breaks : text = (physicalLines text).flatMap ended
  feeds : ∀ l ∈ physicalLines text, '\n' ∉ l
  /-- What stands between the octets of two line breaks are the octets of whole characters. -/
  whole : Text.bytes (String.ofList text)
    = (physicalLines text).flatMap fun l => Text.bytes (String.ofList l) ++ [13, 10]
  feedOctets : ∀ l ∈ physicalLines text, 10 ∉ Text.bytes (String.ofList l)
  short : ∀ l ∈ physicalLines text, (Text.bytes (String.ofList l)).length ≤ maxOctets
  forced : (physicalLines text).IsChain GoesOn
  content : unfolded text = ended line

-- ── Octets ───────────────────────────────────────────────────────────────────────

theorem bytes_ofList (s : List Char) :
    Text.bytes (String.ofList s) = s.flatMap String.utf8EncodeChar := by
  rw [Text.bytes_eq_flatMap, String.toList_ofList]

theorem octets_append (s t : List Char) : octets (s ++ t) = octets s + octets t := by
  simp only [octets, List.map_append, List.sum_append]

/-- The octets of a text are the bytes of its encoding. -/
theorem length_bytes (s : List Char) : (Text.bytes (String.ofList s)).length = octets s := by
  rw [bytes_ofList, List.length_flatMap]
  exact congrArg List.sum (List.map_congr_left fun c _ => String.length_utf8EncodeChar c)

theorem bytes_flatMap_ended (lines : List (List Char)) :
    Text.bytes (String.ofList (lines.flatMap ended))
      = lines.flatMap fun l => Text.bytes (String.ofList l) ++ [13, 10] := by
  rw [bytes_ofList, List.flatMap_assoc]
  refine List.flatMap_congr fun l _ => ?_
  rw [bytes_ofList, ended, List.flatMap_append]
  rfl

/-- The octet of a line feed encodes nothing else. -/
theorem eq_feed_of_mem_utf8EncodeChar {c : Char}
    (h : UInt8.ofNat 10 ∈ String.utf8EncodeChar c) : c = '\n' := by
  have code : c.val.toNat = 10 := by
    simp only [String.utf8EncodeChar] at h
    generalize c.val.toNat = v at *
    -- an encoding of more than one octet has none below 128
    split_ifs at h <;>
      simp (disch := omega) only [List.mem_cons, List.not_mem_nil, or_false,
        Text.ofNat_eq_ofNat_iff] at h <;>
      omega
  exact Char.ext (UInt32.toNat_inj.mp code)

/-- The byte of a line feed encodes nothing else. -/
theorem feed_not_mem_bytes {s : List Char} (h : '\n' ∉ s) : 10 ∉ Text.bytes (String.ofList s) := by
  rw [bytes_ofList]
  intro here
  obtain ⟨c, hc, octet⟩ := List.mem_flatMap.mp here
  exact h (eq_feed_of_mem_utf8EncodeChar octet ▸ hc)

-- ── Deleting the folds ───────────────────────────────────────────────────────────

/-- Up to a carriage return after it, a text without line feeds has nothing to delete. -/
theorem unfolded_append_return {s : List Char} (h : '\n' ∉ s) (rest : List Char) :
    unfolded (s ++ '\r' :: rest) = s ++ unfolded ('\r' :: rest) := by
  induction s with
  | nil => rfl
  | cons c s ih =>
      have tail := ih fun here => h (List.mem_cons_of_mem c here)
      -- no line break begins here, as no line feed comes next
      have other : ∀ more, s ++ '\r' :: rest ≠ '\n' :: ' ' :: more := by
        intro more same
        cases s with
        | nil => cases (List.cons.inj same).1
        | cons d s =>
            have feed : d = '\n' := (List.cons.inj same).1
            exact h (List.mem_cons_of_mem c (feed ▸ List.mem_cons_self))
      rw [List.cons_append, List.cons_append, unfolded, tail]
      intro more _ same
      exact other more same

/-- Without its folds, a text of lines that go on after spaces is one line. -/
theorem unfolded_spaced {now : List Char} {later : List (List Char)} (hn : '\n' ∉ now)
    (hl : ∀ s ∈ later, '\n' ∉ s) :
    unfolded ((now :: later.map (' ' :: ·)).flatMap ended) = ended (now ++ later.flatten) := by
  induction later generalizing now with
  | nil =>
      show unfolded (ended now ++ []) = ended (now ++ [])
      rw [List.append_nil, List.append_nil, ended, unfolded_append_return hn]
      rfl
  | cons s later ih =>
      have next := ih (hl s List.mem_cons_self) fun t ht => hl t (List.mem_cons_of_mem s ht)
      have split : ((now :: (s :: later).map (' ' :: ·)).flatMap ended)
          = now ++ '\r' :: '\n' :: ' ' :: (s :: later.map (' ' :: ·)).flatMap ended := by
        rw [List.flatMap_cons, ended, List.append_assoc]
        rfl
      rw [split, unfolded_append_return hn, List.flatten_cons]
      show now ++ unfolded ((s :: later.map (' ' :: ·)).flatMap ended) = _
      rw [next, ended, ended, ← List.append_assoc, ← List.append_assoc]

-- ── Where a line breaks ──────────────────────────────────────────────────────────

/-- **EVERY FOLD IS FORCED**, whatever is on the current line already. -/
theorem isChain_segmentsFrom (before line : List Char) :
    ((before ++ (segmentsFrom (octets before) line).1)
      :: (segmentsFrom (octets before) line).2.map (' ' :: ·)).IsChain GoesOn := by
  induction line generalizing before with
  | nil => exact .singleton _
  | cons c rest ih =>
      by_cases full : maxOctets < octets before + c.utf8Size
      · rw [segmentsFrom_fold full, List.append_nil, List.map_cons]
        exact .cons_cons ⟨c, _, rfl, full⟩ (ih [' ', c])
      · rw [segmentsFrom_keep full, List.append_cons]
        have next := ih (before ++ [c])
        rwa [octets_append] at next

/-- Lines that go on begin with spaces, but for the first. -/
theorem exists_spaced_of_isChain {first : List Char} {rest : List (List Char)}
    (forced : (first :: rest).IsChain GoesOn) :
    ∃ later : List (List Char), rest = later.map (' ' :: ·) := by
  induction rest generalizing first with
  | nil => exact ⟨[], rfl⟩
  | cons next rest ih =>
      obtain ⟨⟨c, s, rfl, -⟩, more⟩ := List.isChain_cons_cons.mp forced
      obtain ⟨later, rfl⟩ := ih more
      exact ⟨(c :: s) :: later, rfl⟩

/-- What fits stays on the current line. -/
theorem segmentsFrom_append {before now rest : List Char} {later : List (List Char)}
    (fits : octets (before ++ now) ≤ maxOctets)
    (next : segmentsFrom (octets (before ++ now)) rest = ([], later)) :
    segmentsFrom (octets before) (now ++ rest) = (now, later) := by
  induction now generalizing before with
  | nil =>
      rw [List.append_nil] at next
      exact next
  | cons c now ih =>
      rw [List.append_cons] at fits next
      have room : ¬ maxOctets < octets before + c.utf8Size := by
        rw [octets_append, octets_append] at fits
        have alone : octets [c] = c.utf8Size := Nat.add_zero _
        omega
      have own : octets (before ++ [c]) = octets before + c.utf8Size := octets_append before [c]
      rw [List.cons_append, segmentsFrom_keep room, ← own, ih fits next]

/-- **FORCED FOLDS ARE THOSE OF FOLDING** when every line is short enough. -/
theorem segmentsFrom_of_isChain (before : List Char) {now : List Char} {later : List (List Char)}
    (forced : ((before ++ now) :: later.map (' ' :: ·)).IsChain GoesOn)
    (short : ∀ l ∈ (before ++ now) :: later.map (' ' :: ·), octets l ≤ maxOctets) :
    segmentsFrom (octets before) (now ++ later.flatten) = (now, later) := by
  induction later generalizing before now with
  | nil => exact segmentsFrom_append (short _ List.mem_cons_self) rfl
  | cons s later ih =>
      obtain ⟨⟨c, more, same, full⟩, rest⟩ := List.isChain_cons_cons.mp forced
      obtain ⟨-, rfl⟩ := List.cons.inj same
      refine segmentsFrom_append (short _ List.mem_cons_self) ?_
      -- the next line has a space and this character when folding comes to the others
      have next := ih [' ', c] rest fun l hl => short l (List.mem_cons_of_mem _ hl)
      have two : octets [' ', c] = 1 + c.utf8Size := rfl
      rw [List.flatten_cons, List.cons_append, segmentsFrom_fold full, ← two, next]

-- ── Folding ──────────────────────────────────────────────────────────────────────

/-- The physical lines of a folded line are those that were written. -/
theorem physicalLines_foldLine {line : List Char} (h : '\n' ∉ line) :
    physicalLines (foldLine line) = foldedLines line := by
  rw [foldLine_eq]
  exact physicalLines_flatMap_ended fun s hs => feed_not_mem_foldedLines h hs

/-- **UNFOLDING** gives the line back, and the line break at its end. -/
theorem unfolded_foldLine {line : List Char} (h : '\n' ∉ line) :
    unfolded (foldLine line) = ended line := by
  have whole := segmentsFrom_flatten 0 line
  have clean : '\n' ∉ (segmentsFrom 0 line).1 ++ (segmentsFrom 0 line).2.flatten := by rwa [whole]
  rw [List.mem_append, not_or] at clean
  obtain ⟨now, later⟩ := clean
  rw [foldLine_eq]
  show unfolded (((segmentsFrom 0 line).1 :: (segmentsFrom 0 line).2.map (' ' :: ·)).flatMap ended)
    = _
  rw [unfolded_spaced now fun s hs here => later (List.mem_flatten.mpr ⟨s, hs, here⟩), whole]

/-- A folded line meets the description of a fold. -/
theorem isFold_foldLine {line : List Char} (h : '\n' ∉ line) : IsFold line (foldLine line) := by
  have lines := physicalLines_foldLine h
  have feeds : ∀ s ∈ foldedLines line, '\n' ∉ s := fun s hs => feed_not_mem_foldedLines h hs
  constructor
  · rw [lines, foldLine_eq]
  · rwa [lines]
  · rw [lines, foldLine_eq]
    exact bytes_flatMap_ended _
  · rw [lines]
    exact fun s hs => feed_not_mem_bytes (feeds s hs)
  · rw [lines]
    intro s hs
    rw [length_bytes]
    exact octets_of_mem_foldedLines hs
  · rw [lines]
    exact isChain_segmentsFrom [] line
  · exact unfolded_foldLine h

/-- A text that meets the description is the folded line: the description leaves nothing to
    choose. -/
theorem IsFold.eq_foldLine {line text : List Char} (h : IsFold line text) :
    text = foldLine line := by
  obtain ⟨breaks, feeds, -, -, short, forced, content⟩ := h
  generalize physicalLines text = lines at *
  cases lines with
  | nil =>
      rw [breaks] at content
      exact absurd content.symm (List.append_ne_nil_of_right_ne_nil line (by simp))
  | cons now rest =>
      obtain ⟨later, rfl⟩ := exists_spaced_of_isChain forced
      have clean : ∀ s ∈ later, '\n' ∉ s := fun s hs here =>
        feeds _ (List.mem_cons_of_mem now (List.mem_map_of_mem hs)) (List.mem_cons_of_mem ' ' here)
      -- without its folds the text is the segments, so these are those of the line
      rw [breaks, unfolded_spaced (feeds now List.mem_cons_self) clean] at content
      have whole : now ++ later.flatten = line := List.append_cancel_right content
      have cut : segmentsFrom 0 line = (now, later) := by
        rw [← whole]
        refine segmentsFrom_of_isChain [] forced fun l hl => ?_
        rw [← length_bytes]
        exact short l hl
      rw [breaks, foldLine_eq, foldedLines, cut]

/-- **FOLDING** is the only way to break a line without line feeds into lines that are short enough
    and go on only where they must. -/
theorem isFold_iff_eq_foldLine {line text : List Char} (h : '\n' ∉ line) :
    IsFold line text ↔ text = foldLine line := by
  constructor
  · exact IsFold.eq_foldLine
  · rintro rfl
    exact isFold_foldLine h

/-- A line with 75 octets before a carriage return and a space. -/
def spacedAtFold : List Char :=
  List.replicate 73 'L' ++ "ä\r 日本".toList

theorem isFold_spacedAtFold :
    '\n' ∉ spacedAtFold
      ∧ IsFold spacedAtFold (foldLine spacedAtFold)
      ∧ foldLine spacedAtFold = List.replicate 73 'L' ++ "ä\r\n \r 日本\r\n".toList := by
  have noFeed : '\n' ∉ spacedAtFold := by decide
  exact ⟨noFeed, (isFold_iff_eq_foldLine noFeed).mpr rfl, by decide⟩

end CalendarFeeds.ICalendar
