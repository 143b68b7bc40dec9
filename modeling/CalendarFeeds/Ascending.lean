/-! # Ascending lists — sets kept as sorted lists without repeats

    Ordinals, months, tags and names of sources are sets whose order is shown: numbers ascend by
    value, texts by code point.  `ascending` sorts a list and drops repeats; it keeps exactly the
    members of the list. -/

namespace CalendarFeeds

variable {α : Type} [LT α] [DecidableEq α] [DecidableLT α]

/-- Puts a value into its place in an ascending list, unless the list has it. -/
def insertAscending (x : α) : List α → List α
  | [] => [x]
  | y :: ys =>
    if x = y then y :: ys
    else if x < y then x :: y :: ys
    else y :: insertAscending x ys

/-- The members of a list in ascending order, each once. -/
def ascending (xs : List α) : List α :=
  xs.foldr insertAscending []

theorem mem_insertAscending {x y : α} {ys : List α} :
    y ∈ insertAscending x ys ↔ y = x ∨ y ∈ ys := by
  induction ys with
  | nil => simp [insertAscending]
  | cons z zs ih =>
      simp only [insertAscending]
      split
      · next h =>
          subst h
          simp
      · split
        · simp
        · simp only [List.mem_cons, ih]
          exact ⟨fun h => h.elim (fun a => .inr (.inl a)) (fun a => a.imp_right .inr),
            fun h => h.elim (fun a => .inr (.inl a)) (fun a => a.imp_right .inr)⟩

theorem mem_ascending {y : α} {xs : List α} : y ∈ ascending xs ↔ y ∈ xs := by
  induction xs with
  | nil => simp [ascending]
  | cons x xs ih =>
      show y ∈ insertAscending x (ascending xs) ↔ _
      rw [mem_insertAscending, ih, List.mem_cons]

theorem pairwise_insertAscending (trans : ∀ a b c : α, a < b → b < c → a < c)
    (total : ∀ a b : α, a ≠ b → ¬ a < b → b < a) {x : α} {ys : List α}
    (h : ys.Pairwise (· < ·)) : (insertAscending x ys).Pairwise (· < ·) := by
  induction ys with
  | nil => simp [insertAscending]
  | cons z zs ih =>
      have below := (List.pairwise_cons.mp h).1
      have rest := (List.pairwise_cons.mp h).2
      simp only [insertAscending]
      split
      · exact h
      · next ne =>
          split
          · next lt =>
              refine List.pairwise_cons.mpr ⟨fun y hy => ?_, h⟩
              rcases List.mem_cons.mp hy with rfl | hy
              · exact lt
              · exact trans _ _ _ lt (below y hy)
          · next ge =>
              refine List.pairwise_cons.mpr ⟨fun y hy => ?_, ih rest⟩
              rcases mem_insertAscending.mp hy with rfl | hy
              · exact total _ _ ne ge
              · exact below y hy

theorem pairwise_ascending (trans : ∀ a b c : α, a < b → b < c → a < c)
    (total : ∀ a b : α, a ≠ b → ¬ a < b → b < a) (xs : List α) :
    (ascending xs).Pairwise (· < ·) := by
  induction xs with
  | nil => exact List.Pairwise.nil
  | cons x xs ih => exact pairwise_insertAscending trans total ih

/-- A sorted list of numbers ascends strictly. -/
theorem pairwise_ascending_nat (ns : List Nat) : (ascending ns).Pairwise (· < ·) :=
  pairwise_ascending (fun _ _ _ => Nat.lt_trans)
    (fun _ _ ne ge => Nat.lt_of_le_of_ne (Nat.le_of_not_lt ge) (Ne.symm ne)) ns

end CalendarFeeds
