import CalendarFeeds.Text.Runs

/-! # Blank space — one class of white space for all trimming and splitting

    Phrases, season names, durations and zone names are trimmed before they are read, and a
    schedule phrase is split into words.  All of that uses the Unicode property White_Space and
    nothing else: a zero-width space or a byte order mark is no blank. -/

namespace CalendarFeeds.Text

/-- A code point with the Unicode property White_Space. -/
def isBlank (c : Char) : Bool :=
  let n := c.toNat
  (9 ≤ n && n ≤ 13) || n == 0x20 || n == 0x85 || n == 0xA0 || n == 0x1680
    || (0x2000 ≤ n && n ≤ 0x200A) || n == 0x2028 || n == 0x2029
    || n == 0x202F || n == 0x205F || n == 0x3000

/-- A code point of category Cc: the ASCII controls, delete and the C1 controls. -/
def isControl (c : Char) : Bool :=
  let n := c.toNat
  n ≤ 0x1F || (0x7F ≤ n && n ≤ 0x9F)

/-- The text after its leading blanks. -/
def trimStart (s : List Char) : List Char :=
  s.dropWhile isBlank

/-- The text before its trailing blanks. -/
def trimEnd (s : List Char) : List Char :=
  (s.reverse.dropWhile isBlank).reverse

/-- The text between its leading and its trailing blanks. -/
def trim (s : List Char) : List Char :=
  trimEnd (trimStart s)

def trimmed (s : String) : String :=
  String.ofList (trim s.toList)

/-- A text is its trimmed form between two runs of blanks. -/
theorem exists_eq_append_trim (s : List Char) :
    ∃ before after, (∀ c ∈ before, isBlank c = true) ∧ (∀ c ∈ after, isBlank c = true)
      ∧ s = before ++ trim s ++ after := by
  refine ⟨s.takeWhile isBlank, ((trimStart s).reverse.takeWhile isBlank).reverse,
    List.all_eq_true.mp List.all_takeWhile, fun c hc => ?_, ?_⟩
  · exact List.all_eq_true.mp List.all_takeWhile c (List.mem_reverse.mp hc)
  · have ends : trim s ++ ((trimStart s).reverse.takeWhile isBlank).reverse = trimStart s := by
      rw [trim, trimEnd, ← List.reverse_append, List.takeWhile_append_dropWhile,
        List.reverse_reverse]
    rw [List.append_assoc, ends]
    exact List.takeWhile_append_dropWhile.symm

/-- Trimming takes off the blanks around a text that neither begins nor ends with one. -/
theorem trim_append {before core after : List Char} {first last : Char}
    (leading : ∀ c ∈ before, isBlank c = true) (trailing : ∀ c ∈ after, isBlank c = true)
    (begins : core.head? = some first) (ends : core.getLast? = some last)
    (shownFirst : isBlank first = false) (shownLast : isBlank last = false) :
    trim (before ++ core ++ after) = core := by
  have start : trimStart (before ++ core ++ after) = core ++ after := by
    obtain ⟨rest, rfl⟩ := List.head?_eq_some_iff.mp begins
    rw [trimStart, List.append_assoc, List.dropWhile_append_of_pos leading, List.cons_append,
      List.dropWhile_cons_of_neg (by rw [shownFirst]; exact Bool.false_ne_true)]
  have finish : core.reverse.dropWhile isBlank = core.reverse := by
    obtain ⟨front, rfl⟩ := List.getLast?_eq_some_iff.mp ends
    rw [List.reverse_append, List.reverse_singleton, List.singleton_append,
      List.dropWhile_cons_of_neg (by rw [shownLast]; exact Bool.false_ne_true)]
  rw [trim, start, trimEnd, List.reverse_append,
    List.dropWhile_append_of_pos fun c hc => trailing c (List.mem_reverse.mp hc), finish,
    List.reverse_reverse]

/-- The maximal runs of characters that are not blank, in order. -/
def words (s : List Char) : List (List Char) :=
  runs (fun c => !isBlank c) s

/-- A text of blanks alone has no words. -/
theorem words_of_all_blank {s : List Char} (h : ∀ c ∈ s, isBlank c = true) : words s = [] :=
  runs_of_none fun c hc => by simp [h c hc]

end CalendarFeeds.Text
