/-! # First occurrences — lists without repeats in their own order

    Tags are told apart by their text and events by their identifiers; of equal ones the first
    stays.  `distinctBy` keeps, for every key, the first item that has it. -/

namespace CalendarFeeds

variable {α : Type}

/-- The first item of each key that is not among the keys seen before. -/
def distinctFrom (key : α → String) : List String → List α → List α
  | _, [] => []
  | seen, x :: xs =>
    if seen.contains (key x) then distinctFrom key seen xs
    else x :: distinctFrom key (key x :: seen) xs

/-- The first item of each key, in order. -/
def distinctBy (key : α → String) (xs : List α) : List α :=
  distinctFrom key [] xs

/-- The first text that repeats an earlier one. -/
def firstRepeat? : List String → List String → Option String
  | _, [] => none
  | seen, s :: rest => if seen.contains s then some s else firstRepeat? (s :: seen) rest

/-- What stays of a list are the items that come first with their key, unless the key has been
    seen before. -/
theorem mem_distinctFrom_iff {key : α → String} {y : α} {seen : List String} {xs : List α} :
    y ∈ distinctFrom key seen xs
      ↔ key y ∉ seen ∧ xs.find? (fun x => key x == key y) = some y := by
  induction xs generalizing seen with
  | nil => simp [distinctFrom]
  | cons x xs ih =>
      simp only [distinctFrom]
      rw [List.find?_cons]
      split
      · next known =>
          rw [ih]
          refine and_congr_right fun fresh => ?_
          have other : (key x == key y) = false :=
            beq_false_of_ne fun same => fresh (same ▸ List.elem_iff.mp known)
          rw [other]
      · next fresh =>
          rw [List.mem_cons, ih]
          by_cases same : key x = key y
          · rw [beq_iff_eq.mpr same]
            constructor
            · rintro (rfl | ⟨late, -⟩)
              · exact ⟨fun known => fresh (List.elem_iff.mpr known), rfl⟩
              · exact absurd (same ▸ List.mem_cons_self) late
            · rintro ⟨-, first⟩
              exact .inl (Option.some.inj first).symm
          · rw [beq_false_of_ne same]
            constructor
            · rintro (rfl | ⟨late, first⟩)
              · exact absurd rfl same
              · exact ⟨fun known => late (List.mem_cons_of_mem _ known), first⟩
            · rintro ⟨early, first⟩
              refine .inr ⟨fun known => ?_, first⟩
              rcases List.mem_cons.mp known with eq | known
              · exact same eq.symm
              · exact early known

/-- **FIRST ONE STAYS**: what is left are the items that come first with their key. -/
theorem mem_distinctBy_iff {key : α → String} {y : α} {xs : List α} :
    y ∈ distinctBy key xs ↔ xs.find? (fun x => key x == key y) = some y := by
  show y ∈ distinctFrom key [] xs ↔ _
  rw [mem_distinctFrom_iff]
  exact ⟨fun ⟨_, first⟩ => first, fun first => ⟨List.not_mem_nil, first⟩⟩

/-- No key is lost. -/
theorem exists_mem_distinctBy {key : α → String} {x : α} {xs : List α} (h : x ∈ xs) :
    ∃ y ∈ distinctBy key xs, key y = key x := by
  have some_ : (xs.find? fun y => key y == key x).isSome :=
    List.find?_isSome.mpr ⟨x, h, beq_self_eq_true _⟩
  obtain ⟨first, found⟩ := Option.isSome_iff_exists.mp some_
  have same : (key first == key x) = true := by
    have held := List.find?_some found
    exact held
  refine ⟨first, mem_distinctBy_iff.mpr ?_, beq_iff_eq.mp same⟩
  rw [beq_iff_eq.mp same]
  exact found

/-- No key is kept twice. -/
theorem nodup_distinctFrom (key : α → String) (seen : List String) (xs : List α) :
    ((distinctFrom key seen xs).map key).Nodup := by
  induction xs generalizing seen with
  | nil => exact List.nodup_nil
  | cons x xs ih =>
      simp only [distinctFrom]
      split
      · exact ih seen
      · refine List.nodup_cons.mpr ⟨fun again => ?_, ih _⟩
        obtain ⟨y, kept, same⟩ := List.mem_map.mp again
        exact (mem_distinctFrom_iff.mp kept).1 (same ▸ List.mem_cons_self)

theorem distinctFrom_of_nodup {key : α → String} {seen : List String} {xs : List α}
    (apart : (xs.map key).Nodup) (fresh : ∀ x ∈ xs, key x ∉ seen) :
    distinctFrom key seen xs = xs := by
  induction xs generalizing seen with
  | nil => rfl
  | cons x xs ih =>
      obtain ⟨new, rest⟩ := List.nodup_cons.mp apart
      have unseen := fresh x List.mem_cons_self
      rw [distinctFrom, if_neg fun known => unseen (List.elem_iff.mp known)]
      refine congrArg (x :: ·) (ih rest fun y hy known => ?_)
      rcases List.mem_cons.mp known with same | earlier
      · exact new (same ▸ List.mem_map.mpr ⟨y, hy, rfl⟩)
      · exact fresh y (List.mem_cons_of_mem x hy) earlier

/-- All items stay when no key repeats. -/
theorem distinctBy_of_nodup {key : α → String} {xs : List α} (apart : (xs.map key).Nodup) :
    distinctBy key xs = xs :=
  distinctFrom_of_nodup apart fun _ _ => List.not_mem_nil

/-- Keeping the first of each key erases the items whose key has come before. -/
theorem distinctBy_eq_eraseDupsBy (key : α → String) (xs : List α) :
    distinctBy key xs = xs.eraseDupsBy fun a b => key a == key b := by
  have scan : ∀ kept : List α, List.eraseDupsBy.loop (fun a b => key a == key b) xs kept
      = kept.reverse ++ distinctFrom key (kept.map key) xs := by
    induction xs with
    | nil =>
        intro kept
        exact (List.append_nil _).symm
    | cons x xs ih =>
        intro kept
        have known : kept.any (fun b => key x == key b) = (kept.map key).contains (key x) := by
          rw [List.contains_eq_any_beq, List.any_map]
          rfl
        simp only [List.eraseDupsBy.loop, distinctFrom]
        rw [known]
        cases (kept.map key).contains (key x) with
        | true => exact ih kept
        | false =>
            show List.eraseDupsBy.loop _ xs (x :: kept) = kept.reverse ++ x :: _
            rw [ih (x :: kept), List.reverse_cons, List.append_assoc]
            rfl
  exact (scan []).symm

end CalendarFeeds
