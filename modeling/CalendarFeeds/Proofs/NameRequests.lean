import CalendarFeeds.Manifest
import CalendarFeeds.Proofs.Naming
import Mathlib.Order.Bounds.Basic

/-! # Name requests — what each of many requests in a row gets

    A request tries the plain name of its stem, then the numbers from two on, and stops at the
    first name that was never given out.  Nothing bounds that search: `EndsAt` follows it try by
    try, and it ends because the names of a stem are all different while only finitely many names
    were given out before.

    What a request gets depends on which names were given out, not on the order in which they
    were.  So the run of a list of requests is an induction on the list, and what it carries is
    that the names in use are those given out so far. -/

namespace CalendarFeeds.Naming

-- ── The search of one request ────────────────────────────────────────────────────

/-- A search that tries the names from number `n` on passes over those given out and ends at
    number `m`. -/
inductive EndsAt (given : List String) (name : Nat → String) : Nat → Nat → Prop
  | free {n : Nat} (new : name n ∉ given) : EndsAt given name n n
  | taken {n m : Nat} (known : name n ∈ given) (later : EndsAt given name (n + 1) m) :
      EndsAt given name n m

/-- **WHAT A REQUEST GETS** when some names were given out before: its search ends, at the plain
    name if that is new, and otherwise at the name with the least number from two on that is. -/
structure Answers (given : List String) (ending stem name : String) : Prop where
  ends : ∃ n, EndsAt given (numbered stem ending) 1 n ∧ name = numbered stem ending n
  plain : stem ++ ending ∉ given → name = stem ++ ending
  least : stem ++ ending ∈ given →
    ∃ n, IsLeast {k | 2 ≤ k ∧ stem ++ "-" ++ Text.natural k ++ ending ∉ given} n
      ∧ name = stem ++ "-" ++ Text.natural n ++ ending

/-- A search goes through every number before the one at which it ends. -/
theorem endsAt_of_passed {given : List String} {name : Nat → String} {n m : Nat} (low : n ≤ m)
    (passed : ∀ k, n ≤ k → k < m → name k ∈ given) (new : name m ∉ given) :
    EndsAt given name n m := by
  induction low using Nat.decreasingInduction with
  | self => exact .free new
  | of_succ k below ih =>
      refine .taken (passed k (Nat.le_refl k) below) (ih fun j above => ?_)
      exact passed j (Nat.le_of_succ_le above)

/-- The search depends on which names are taken, not on their order. -/
theorem EndsAt.congr {given other : List String} {name : Nat → String} {n m : Nat}
    (same : ∀ x, x ∈ given ↔ x ∈ other) (h : EndsAt given name n m) : EndsAt other name n m := by
  induction h with
  | free new => exact .free fun known => new ((same _).mpr known)
  | taken known _ ih => exact .taken ((same _).mp known) ih

/-- Only which names were given out counts. -/
theorem Answers.congr {given other : List String} {ending stem name : String}
    (same : ∀ x, x ∈ given ↔ x ∈ other) (h : Answers given ending stem name) :
    Answers other ending stem name := by
  obtain ⟨⟨n, ends, eq⟩, plain, least⟩ := h
  simp only [same] at plain least
  exact ⟨⟨n, ends.congr same, eq⟩, plain, least⟩

/-- **ONE REQUEST**: the name picked for a stem answers the request for it. -/
theorem answers_pick (given : List String) (ending stem : String) :
    Answers given ending stem (pick given ending stem) := by
  obtain ⟨n, low, eq, new, passed⟩ := pick_spec given ending stem
  refine ⟨⟨n, endsAt_of_passed low passed new, eq⟩, pick_of_not_mem, fun known => ?_⟩
  -- the plain name is number one, and it is taken
  have above : 1 < n := by
    rcases Nat.lt_or_eq_of_le low with above | rfl
    · exact above
    · rw [numbered_of_le (Nat.le_refl 1)] at new
      exact absurd known new
  rw [numbered_of_lt above] at eq new
  refine ⟨n, ⟨⟨above, new⟩, ?_⟩, eq⟩
  rintro k ⟨from_two, free⟩
  by_contra below
  have taken := passed k (Nat.le_of_succ_le from_two) (Nat.lt_of_not_le below)
  rw [numbered_of_lt from_two] at taken
  exact free taken

-- ── Requests in a row ────────────────────────────────────────────────────────────

/-- **A RUN OF REQUESTS**: there is one name for each stem, each answers its request after those
    before it, and all are different. -/
structure AnswersAll (ending : String) (stems names : List String) : Prop where
  every : names.length = stems.length
  each : ∀ i stem name, stems[i]? = some stem → names[i]? = some name →
    Answers (names.take i) ending stem name
  apart : names.Nodup

/-- Every request of a run is answered when some names are in use at its start. -/
theorem answers_assignFrom (used : List String) (ending : String) (stems : List String) :
    ∀ i stem name, stems[i]? = some stem → (assignFrom used ending stems)[i]? = some name →
      Answers (used ++ (assignFrom used ending stems).take i) ending stem name := by
  induction stems generalizing used with
  | nil =>
      intro i stem name asked
      cases asked
  | cons first rest ih =>
      intro i stem name asked got
      cases i with
      | zero =>
          obtain rfl : first = stem := Option.some.inj asked
          obtain rfl : pick used ending first = name := Option.some.inj got
          show Answers (used ++ []) ending first (pick used ending first)
          rw [List.append_nil]
          exact answers_pick used ending first
      | succ i =>
          -- later requests find the first name in use too
          have later := ih (pick used ending first :: used) i stem name asked got
          refine later.congr fun x => ?_
          show x ∈ (pick used ending first :: used) ++ _ ↔ x ∈ used ++ (pick used ending first :: _)
          simp only [List.mem_append, List.mem_cons]
          exact or_assoc.trans or_left_comm

theorem answersAll_assign (ending : String) (stems : List String) :
    AnswersAll ending stems (assign ending stems) :=
  ⟨length_assign ending stems, answers_assignFrom [] ending stems, nodup_assign ending stems⟩

/-- **EVERY REQUEST IS ANSWERED**, for the names of aggregates, whatever the tags, and for the
    names of files, whatever their stems. -/
theorem aggregates_and_files_answered :
    (∀ tags : List String,
        AnswersAll "" (tags.map Aggregate.stem) (assign "" (tags.map Aggregate.stem)))
      ∧ ∀ stems : List String,
        AnswersAll Publication.ending stems (assign Publication.ending stems) :=
  ⟨fun tags => answersAll_assign "" (tags.map Aggregate.stem),
    answersAll_assign Publication.ending⟩

/-- A number that would repeat a plain name is passed over. -/
example : assign "" (["Music", "Music 2", "music"].map Aggregate.stem)
    = ["tag-music", "tag-music-2", "tag-music-3"] := by
  cbv

end CalendarFeeds.Naming
