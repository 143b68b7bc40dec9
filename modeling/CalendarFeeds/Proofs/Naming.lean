import CalendarFeeds.Naming
import CalendarFeeds.Proofs.Numerals
import Mathlib.Data.Finset.Card

/-! # Numbered names — every request gets a name of its own

    The names of a stem are all different, so among one more of them than there are names in use
    one is free, and the search ends at the first of those.  A name that is given out is in use
    from then on; hence no name is given out twice, and stems that differ from one another keep
    their plain names when they are the first to ask. -/

namespace CalendarFeeds.Naming

-- ── The names of a stem ──────────────────────────────────────────────────────────

theorem numbered_of_le {n : Nat} (h : n ≤ 1) (stem ending : String) :
    numbered stem ending n = stem ++ ending := by
  rw [numbered, if_pos h]

theorem numbered_of_lt {n : Nat} (h : 1 < n) (stem ending : String) :
    numbered stem ending n = stem ++ "-" ++ Text.natural n ++ ending := by
  rw [numbered, if_neg (by omega)]

/-- Different numbers from one on give a stem different names. -/
theorem numbered_inj {stem ending : String} {m n : Nat} (hm : 1 ≤ m) (hn : 1 ≤ n)
    (same : numbered stem ending m = numbered stem ending n) : m = n := by
  -- a number above one adds at least a hyphen to the plain name
  have longer : ∀ {k : Nat}, 1 < k → numbered stem ending k ≠ stem ++ ending := by
    intro k above plain
    rw [numbered_of_lt above] at plain
    have lengths := congrArg String.length plain
    simp only [String.length_append] at lengths
    have hyphen : "-".length = 1 := rfl
    omega
  rcases Nat.lt_or_eq_of_le hm with above | rfl
  · rcases Nat.lt_or_eq_of_le hn with above' | rfl
    · rw [numbered_of_lt above, numbered_of_lt above', String.append_left_inj,
        String.append_right_inj] at same
      exact Text.natural_injective same
    · rw [numbered_of_le (Nat.le_refl 1)] at same
      exact absurd same (longer above)
  · rcases Nat.lt_or_eq_of_le hn with above' | rfl
    · rw [numbered_of_le (Nat.le_refl 1)] at same
      exact absurd same.symm (longer above')
    · rfl

-- ── The search for a free name ───────────────────────────────────────────────────

/-- The search passes over numbers whose names are in use.  It ends at one whose name is free,
    or after as many numbers as it may try. -/
theorem firstFree_spec (used : List String) (name : Nat → String) (tries n : Nat) :
    n ≤ firstFree used name tries n
      ∧ (∀ k, n ≤ k → k < firstFree used name tries n → name k ∈ used)
      ∧ (name (firstFree used name tries n) ∉ used ∨ firstFree used name tries n = n + tries) := by
  induction tries generalizing n with
  | zero =>
      refine ⟨Nat.le_refl n, fun k low high => ?_, .inr rfl⟩
      exact absurd (Nat.lt_of_le_of_lt low high) (Nat.lt_irrefl n)
  | succ tries ih =>
      rw [firstFree]
      split
      · next taken =>
          obtain ⟨later, passed, ends⟩ := ih (n + 1)
          refine ⟨by omega, fun k low high => ?_, ends.imp_right fun all => by omega⟩
          rcases Nat.lt_or_eq_of_le low with above | rfl
          · exact passed k above high
          · exact List.contains_iff_mem.mp taken
      · next free =>
          refine ⟨Nat.le_refl n, fun k low high => ?_, .inl fun here => ?_⟩
          · exact absurd (Nat.lt_of_le_of_lt low high) (Nat.lt_irrefl n)
          · exact free (List.contains_iff_mem.mpr here)

/-- Of one more name than there are in use, one is free. -/
theorem exists_free (used : List String) (stem ending : String) :
    ∃ k, 1 ≤ k ∧ k ≤ used.length + 1 ∧ numbered stem ending k ∉ used := by
  by_contra none_
  have taken : ∀ k, 1 ≤ k → k ≤ used.length + 1 → numbered stem ending k ∈ used :=
    fun k low high => by_contra fun free => none_ ⟨k, low, high, free⟩
  have maps : ∀ k ∈ Finset.range (used.length + 1),
      numbered stem ending (k + 1) ∈ used.toFinset := by
    intro k hk
    have high := Finset.mem_range.mp hk
    exact List.mem_toFinset.mpr (taken (k + 1) (by omega) (by omega))
  have apart : Set.InjOn (fun k => numbered stem ending (k + 1))
      (Finset.range (used.length + 1)) := by
    intro m _ n _ same
    have := numbered_inj (by omega) (by omega) same
    omega
  have few := Finset.card_le_card_of_injOn _ maps apart
  rw [Finset.card_range] at few
  have := used.toFinset_card_le
  omega

/-- **THE FIRST FREE NAME**: a stem gets the name of the least number from one on whose name is
    not in use. -/
theorem pick_spec (used : List String) (ending stem : String) :
    ∃ n, 1 ≤ n ∧ pick used ending stem = numbered stem ending n
      ∧ numbered stem ending n ∉ used
      ∧ ∀ k, 1 ≤ k → k < n → numbered stem ending k ∈ used := by
  obtain ⟨low, passed, ends⟩ := firstFree_spec used (numbered stem ending) used.length 1
  refine ⟨_, low, rfl, ?_, passed⟩
  rcases ends with free | all
  · exact free
  · obtain ⟨k, low', high, free⟩ := exists_free used stem ending
    rcases Nat.lt_or_eq_of_le high with before | last
    · exact absurd (passed k low' (by omega)) free
    · rw [all, Nat.add_comm, ← last]
      exact free

/-- A picked name is not taken yet. -/
theorem pick_not_mem (used : List String) (ending stem : String) :
    pick used ending stem ∉ used := by
  obtain ⟨n, -, eq, free, -⟩ := pick_spec used ending stem
  rwa [eq]

/-- A plain name that is not in use is given out as it is. -/
theorem pick_of_not_mem {used : List String} {ending stem : String} (h : stem ++ ending ∉ used) :
    pick used ending stem = stem ++ ending := by
  obtain ⟨n, low, eq, -, passed⟩ := pick_spec used ending stem
  rcases Nat.lt_or_eq_of_le low with above | rfl
  · have taken := passed 1 (Nat.le_refl 1) above
    rw [numbered_of_le (Nat.le_refl 1)] at taken
    exact absurd taken h
  · rw [eq, numbered_of_le (Nat.le_refl 1)]

/-- A picked name keeps its ending. -/
theorem exists_pick_eq (used : List String) (ending stem : String) :
    ∃ front, pick used ending stem = front ++ ending := by
  obtain ⟨n, -, eq, -, -⟩ := pick_spec used ending stem
  rw [eq, numbered]
  split
  · exact ⟨_, rfl⟩
  · exact ⟨_, rfl⟩

-- ── Requests in a row ────────────────────────────────────────────────────────────

/-- The names assigned differ from each other and from those taken before: the induction carries
    both. -/
theorem nodup_assignFrom (used : List String) (ending : String) (stems : List String) :
    (assignFrom used ending stems).Nodup
      ∧ ∀ name ∈ assignFrom used ending stems, name ∉ used := by
  induction stems generalizing used with
  | nil => exact ⟨List.nodup_nil, fun name here => nomatch here⟩
  | cons stem rest ih =>
      obtain ⟨apart, fresh⟩ := ih (pick used ending stem :: used)
      -- the name just given out is in use for all later requests
      refine ⟨List.nodup_cons.mpr ⟨fun again => fresh _ again List.mem_cons_self, apart⟩, ?_⟩
      intro name here
      rcases List.mem_cons.mp here with rfl | later
      · exact pick_not_mem used ending stem
      · exact fun known => fresh name later (List.mem_cons_of_mem _ known)

/-- **NO NAME TWICE**: all names that are given out are different. -/
theorem nodup_assign (ending : String) (stems : List String) : (assign ending stems).Nodup :=
  (nodup_assignFrom [] ending stems).1

theorem exists_eq_of_mem_assignFrom {used : List String} {ending : String} {stems : List String}
    {name : String} (h : name ∈ assignFrom used ending stems) : ∃ front, name = front ++ ending := by
  induction stems generalizing used with
  | nil => cases h
  | cons stem rest ih =>
      rcases List.mem_cons.mp h with rfl | later
      · exact exists_pick_eq used ending stem
      · exact ih later

/-- Requests for different stems that come first get the plain names. -/
theorem assignFrom_append {used : List String} {ending : String} {stems : List String}
    (apart : stems.Nodup) (fresh : ∀ stem ∈ stems, stem ++ ending ∉ used) (others : List String) :
    ∃ names, assignFrom used ending (stems ++ others)
      = stems.map (· ++ ending) ++ names := by
  induction stems generalizing used with
  | nil => exact ⟨_, rfl⟩
  | cons stem rest ih =>
      obtain ⟨new, apart⟩ := List.nodup_cons.mp apart
      have plain := pick_of_not_mem (fresh stem List.mem_cons_self)
      have others_fresh : ∀ other ∈ rest, other ++ ending ∉ (stem ++ ending) :: used := by
        intro other here known
        rcases List.mem_cons.mp known with same | earlier
        · exact new ((String.append_left_inj ending).mp same ▸ here)
        · exact fresh other (List.mem_cons_of_mem stem here) earlier
      obtain ⟨names, eq⟩ := ih apart others_fresh
      refine ⟨names, ?_⟩
      rw [List.cons_append, assignFrom, plain, eq]
      rfl

end CalendarFeeds.Naming
