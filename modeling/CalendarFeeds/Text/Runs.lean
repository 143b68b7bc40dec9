/-! # Runs — the pieces of a text between separators

    A run is a longest stretch of characters of one class; whatever stands between two runs only
    separates them.  So a text has no empty runs, and separators at its ends do not count. -/

namespace CalendarFeeds.Text

/-- Puts a character in front of the first run. -/
def prependToFirst (c : Char) : List (List Char) → List (List Char)
  | [] => [[c]]
  | w :: ws => (c :: w) :: ws

/-- Whether a run ends before this rest of a text. -/
def endsRun (keep : Char → Bool) : List Char → Bool
  | [] => true
  | c :: _ => !keep c

/-- The longest stretches of characters of a class, in order. -/
def runs (keep : Char → Bool) : List Char → List (List Char)
  | [] => []
  | c :: rest =>
    if keep c then
      if endsRun keep rest then [c] :: runs keep rest
      else prependToFirst c (runs keep rest)
    else runs keep rest

/-- A text without a character of the class has no runs. -/
theorem runs_of_none {keep : Char → Bool} {s : List Char} (h : ∀ c ∈ s, keep c = false) :
    runs keep s = [] := by
  induction s with
  | nil => rfl
  | cons c rest ih =>
      rw [runs, if_neg (by simp [h c List.mem_cons_self])]
      exact ih fun d hd => h d (List.mem_cons_of_mem c hd)

/-- The runs hold the characters of the class, all of them and in order. -/
theorem flatten_runs (keep : Char → Bool) (s : List Char) :
    (runs keep s).flatten = s.filter keep := by
  induction s with
  | nil => rfl
  | cons c rest ih =>
      by_cases h : keep c = true
      · rw [runs, if_pos h, List.filter_cons_of_pos h, ← ih]
        split
        · simp
        · cases runs keep rest <;> simp [prependToFirst]
      · rw [runs, if_neg h, List.filter_cons_of_neg h, ih]

/-- Joined by a separator, all pieces but the first stand after one. -/
theorem intercalate_cons (separator : Char) (x : List Char) (rest : List (List Char)) :
    List.intercalate [separator] (x :: rest) = x ++ rest.flatMap (separator :: ·) := by
  induction rest generalizing x with
  | nil => simp
  | cons y rest ih =>
      rw [List.intercalate_cons_cons, ih, List.flatMap_cons, List.append_assoc]
      rfl

end CalendarFeeds.Text
