import CalendarFeeds.Text.Runs
import Mathlib.Tactic.SplitIfs

/-! # Runs — where a text parts and what its pieces give back

    The runs of a text are pieces without a separator, and a separator is all it takes to part
    them.  So a text that joins runs has these runs, and two characters of the class that follow
    one another are in one run unless something stood between them. -/

namespace CalendarFeeds.Text

/-- One character or more, all of a class. -/
structure IsRun (keep : Char → Bool) (w : List Char) : Prop where
  some_ : w ≠ []
  kept : ∀ c ∈ w, keep c = true

/-- One of the runs ends where this front of all their characters ends. -/
def PartsAfter (rs : List (List Char)) (front : List Char) : Prop :=
  ∃ left right, rs = left ++ right ∧ left.flatten = front

variable {keep : Char → Bool} {s t w : List Char} {c d : Char}

/-- A character of the class begins the first run. -/
theorem exists_runs_cons (kept : keep c = true) (s : List Char) :
    ∃ w ws, runs keep (c :: s) = (c :: w) :: ws := by
  rw [runs, if_pos kept]
  split
  · exact ⟨[], _, rfl⟩
  · cases runs keep s with
    | nil => exact ⟨[], [], rfl⟩
    | cons w ws => exact ⟨w, ws, rfl⟩

theorem ne_nil_of_mem_prependToFirst {ws : List (List Char)} (h : w ∈ prependToFirst c ws)
    (some_ : ∀ v ∈ ws, v ≠ []) : w ≠ [] := by
  cases ws with
  | nil =>
      rw [List.mem_singleton.mp h]
      exact List.cons_ne_nil _ _
  | cons v ws =>
      rcases List.mem_cons.mp h with rfl | later
      · exact List.cons_ne_nil _ _
      · exact some_ w (List.mem_cons_of_mem v later)

theorem ne_nil_of_mem_runs : ∀ w ∈ runs keep s, w ≠ [] := by
  induction s with
  | nil => exact List.forall_mem_nil _
  | cons c s ih =>
      rw [runs]
      split_ifs
      · exact List.forall_mem_cons.mpr ⟨List.cons_ne_nil _ _, ih⟩
      · exact fun w hw => ne_nil_of_mem_prependToFirst hw ih
      · exact ih

/-- Every run is made of kept characters. -/
theorem isRun_of_mem_runs : ∀ w ∈ runs keep s, IsRun keep w := by
  intro w hw
  refine ⟨ne_nil_of_mem_runs w hw, fun c hc => ?_⟩
  have listed : c ∈ (runs keep s).flatten := List.mem_flatten.mpr ⟨w, hw, hc⟩
  rw [flatten_runs] at listed
  exact (List.mem_filter.mp listed).2

/-- A text has no run exactly when it keeps no character. -/
theorem runs_eq_nil_iff : runs keep s = [] ↔ s.filter keep = [] := by
  rw [← flatten_runs, List.flatten_eq_nil_iff]
  constructor
  · intro none_ w hw
    rw [none_] at hw
    cases hw
  · intro all
    refine List.eq_nil_iff_forall_not_mem.mpr fun w hw => ?_
    exact ne_nil_of_mem_runs w hw (all w hw)

/-- Classes that agree on a text give it the same runs. -/
theorem runs_congr {other : Char → Bool} (h : ∀ c ∈ s, keep c = other c) :
    runs keep s = runs other s := by
  induction s with
  | nil => rfl
  | cons c s ih =>
      obtain ⟨here, later⟩ := List.forall_mem_cons.mp h
      have ends : endsRun keep s = endsRun other s := by
        cases s with
        | nil => rfl
        | cons d s => rw [endsRun, endsRun, later d List.mem_cons_self]
      rw [runs, runs, here, ends, ih later]

/-- A character outside the class parts the runs. -/
theorem runs_append_cons (apart : keep c = false) (s t : List Char) :
    runs keep (s ++ c :: t) = runs keep s ++ runs keep t := by
  induction s with
  | nil => simp [runs, apart]
  | cons d s ih =>
      have same : endsRun keep (s ++ c :: t) = endsRun keep s := by
        cases s with
        | nil => simp [endsRun, apart]
        | cons e s => rfl
      rw [List.cons_append, runs, runs, same, ih]
      split_ifs with kept ends
      · rfl
      · -- the run that goes on is one of `s`
        cases s with
        | nil => exact absurd rfl ends
        | cons e s =>
            have goesOn : keep e = true := by simpa [endsRun] using ends
            obtain ⟨w, ws, first⟩ := exists_runs_cons goesOn s
            rw [first]
            rfl
      · rfl

/-- Characters that are not kept may stand in front. -/
theorem runs_append_of_none (gap : ∀ c ∈ w, keep c = false) (s : List Char) :
    runs keep (w ++ s) = runs keep s := by
  induction w with
  | nil => rfl
  | cons c w ih =>
      obtain ⟨here, later⟩ := List.forall_mem_cons.mp gap
      have apart := runs_append_cons here [] (w ++ s)
      rw [List.cons_append]
      exact apart.trans (ih later)

theorem runs_of_isRun (h : IsRun keep w) : runs keep w = [w] := by
  obtain ⟨some_, kept⟩ := h
  induction w with
  | nil => exact absurd rfl some_
  | cons c w ih =>
      obtain ⟨here, later⟩ := List.forall_mem_cons.mp kept
      cases w with
      | nil => simp [runs, endsRun, here]
      | cons d w =>
          have goesOn : endsRun keep (d :: w) = false := by
            simp [endsRun, later d List.mem_cons_self]
          rw [runs, if_pos here, goesOn, if_neg Bool.false_ne_true,
            ih (List.cons_ne_nil _ _) later]
          rfl

/-- **JOINED RUNS COME BACK**: runs with separators between them are the runs of that text. -/
theorem runs_intercalate (apart : keep c = false) {rs : List (List Char)}
    (h : ∀ r ∈ rs, IsRun keep r) : runs keep (List.intercalate [c] rs) = rs := by
  induction rs with
  | nil => rfl
  | cons r rest ih =>
      obtain ⟨first, others⟩ := List.forall_mem_cons.mp h
      cases rest with
      | nil => rw [List.intercalate_singleton, runs_of_isRun first]
      | cons q rest =>
          rw [List.intercalate_cons_cons, List.append_assoc, List.singleton_append,
            runs_append_cons apart, runs_of_isRun first, ih others]
          rfl

/-- Two texts have the same runs, also behind the same text. -/
structure SameRuns (keep : Char → Bool) (s t : List Char) : Prop where
  runs : runs keep s = runs keep t
  ends : endsRun keep s = endsRun keep t

/-- The same text in front of texts with the same runs leaves them with the same runs. -/
theorem SameRuns.append_left (h : SameRuns keep s t) (w : List Char) :
    SameRuns keep (w ++ s) (w ++ t) := by
  induction w with
  | nil => exact h
  | cons c w ih =>
      refine ⟨?_, rfl⟩
      rw [List.cons_append, List.cons_append, Text.runs, Text.runs, ih.runs, ih.ends]

/-- How one separator is written does not count. -/
theorem SameRuns.gaps {v : List Char} (someLeft : v ≠ []) (left : ∀ c ∈ v, keep c = false)
    (someRight : w ≠ []) (right : ∀ c ∈ w, keep c = false) (h : SameRuns keep s t) :
    SameRuns keep (v ++ s) (w ++ t) := by
  have ends {u : List Char} (some_ : u ≠ []) (gap : ∀ c ∈ u, keep c = false) (r : List Char) :
      endsRun keep (u ++ r) = true := by
    cases u with
    | nil => exact absurd rfl some_
    | cons c u => simp [endsRun, gap c List.mem_cons_self]
  refine ⟨?_, ?_⟩
  · rw [runs_append_of_none left, runs_append_of_none right, h.runs]
  · rw [ends someLeft left, ends someRight right]

/-- Two neighbours of the class stand in one run. -/
theorem exists_run_of_neighbours (hc : keep c = true) (hd : keep d = true) (s t : List Char) :
    ∃ before w v after, runs keep (s ++ c :: d :: t) = before ++ (w ++ c :: d :: v) :: after
      ∧ before.flatten ++ w = s.filter keep := by
  induction s with
  | nil =>
      have goesOn : endsRun keep (d :: t) = false := by simp [endsRun, hd]
      obtain ⟨v, after, first⟩ := exists_runs_cons hd t
      refine ⟨[], [], v, after, ?_, rfl⟩
      rw [List.nil_append, runs, if_pos hc, goesOn, if_neg Bool.false_ne_true, first]
      rfl
  | cons x s ih =>
      obtain ⟨before, w, v, after, split, front⟩ := ih
      rw [List.cons_append, runs, split]
      split_ifs with kept ends
      · refine ⟨[x] :: before, w, v, after, rfl, ?_⟩
        rw [List.filter_cons_of_pos kept, ← front]
        rfl
      · rw [List.filter_cons_of_pos kept, ← front]
        cases before with
        | nil => exact ⟨[], x :: w, v, after, rfl, rfl⟩
        | cons r before => exact ⟨(x :: r) :: before, w, v, after, rfl, rfl⟩
      · rw [List.filter_cons_of_neg kept]
        exact ⟨before, w, v, after, rfl, front⟩

/-- **WHERE RUNS PART**: between two characters of the class with none between them, exactly if
    another character stands there. -/
theorem partsAfter_runs_iff {before between after : List Char} (hc : keep c = true)
    (hd : keep d = true) (gap : ∀ x ∈ between, keep x = false) :
    PartsAfter (runs keep (before ++ c :: between ++ d :: after))
        ((before ++ [c]).filter keep) ↔ between ≠ [] := by
  cases between with
  | nil =>
      refine iff_of_false ?_ fun other => other rfl
      rintro ⟨left, right, parted, front⟩
      obtain ⟨first, w, v, last, whole, same⟩ := exists_run_of_neighbours hc hd before after
      have text : before ++ [c] ++ d :: after = before ++ c :: d :: after :=
        List.append_assoc before [c] (d :: after)
      rw [text, whole] at parted
      -- the runs on the left end with `c`, but the run that holds both goes on after it
      have short : left.flatten.length = first.flatten.length + w.length + 1 := by
        rw [front, List.filter_append, ← same, List.filter_cons_of_pos hc]
        simp [Nat.add_assoc]
      rcases List.append_eq_append_iff.mp parted with ⟨more, rfl, rest⟩ | ⟨more, rfl, -⟩
      · cases more with
        | nil =>
            simp only [List.append_nil] at short
            omega
        | cons r more =>
            obtain ⟨rfl, -⟩ := List.cons_eq_cons.mp rest
            simp only [List.flatten_append, List.flatten_cons, List.length_append,
              List.length_cons] at short
            omega
      · simp only [List.flatten_append, List.length_append] at short
        omega
  | cons x between =>
      refine iff_of_true ?_ (List.cons_ne_nil x between)
      have apart : keep x = false := gap x List.mem_cons_self
      have text : before ++ c :: x :: between ++ d :: after
          = (before ++ [c]) ++ x :: (between ++ d :: after) := by simp
      refine ⟨runs keep (before ++ [c]), runs keep (between ++ d :: after), ?_,
        flatten_runs keep _⟩
      rw [text, runs_append_cons apart]

end CalendarFeeds.Text
