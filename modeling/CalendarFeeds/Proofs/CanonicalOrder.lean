import CalendarFeeds.Proofs.PropertyOrder
import Mathlib.Data.List.Pairwise
import Mathlib.Data.List.TakeWhile
import Mathlib.Logic.Relation

/-! # Canonical order — what it keeps and what it forgets

    Properties fall into classes: one for every name that the order of a kind has, in whichever
    case it is written, and one for all properties with other names.  The canonical order keeps
    the properties of a class in their order; with the order of the classes this leaves no choice.
    What it forgets is how the classes were mixed.  So two lists of properties have the same
    canonical order exactly if moving properties past others of other classes turns one list into
    the other, and components that differ in this only have the same text. -/

namespace CalendarFeeds.ICalendar

namespace Kind

/-- The order of a kind has the name of a property. -/
def Knows (k : Kind) (p : Property) : Prop :=
  ∃ name ∈ k.propertyOrder, p.isNamed name = true

/-- **ONE CLASS**: the same name in the order of a kind, or no name in it. -/
def SameClass (k : Kind) (p q : Property) : Prop :=
  (∃ name ∈ k.propertyOrder, p.isNamed name = true ∧ q.isNamed name = true)
    ∨ ¬ k.Knows p ∧ ¬ k.Knows q

instance (k : Kind) (p : Property) : Decidable (k.Knows p) :=
  inferInstanceAs (Decidable (∃ name ∈ k.propertyOrder, p.isNamed name = true))

instance (k : Kind) (p q : Property) : Decidable (k.SameClass p q) :=
  inferInstanceAs (Decidable (_ ∨ _))

/-- **A LIST IS THE CANONICAL ORDER OF ANOTHER**: it has the same properties, each as often; they
    stand by the places of their names, those without a place last; and the properties of a class
    follow one another as before. -/
structure Canonical (k : Kind) (ps ordered : List Property) : Prop where
  perm : ordered.Perm ps
  ascends : ordered.Pairwise fun p q => k.place p ≤ k.place q
  keeps : ∀ p, ordered.filter (fun q => k.SameClass p q) = ps.filter fun q => k.SameClass p q

/-- One property moves past others, none of which is of its class. -/
inductive Moves (k : Kind) : List Property → List Property → Prop
  | past (front : List Property) (p : Property) (others back : List Property)
      (apart : ∀ q ∈ others, ¬ k.SameClass p q) :
      Moves k (front ++ p :: (others ++ back)) (front ++ (others ++ p :: back))

end Kind

mutual

/-- Components that differ only in where properties stand among those of other classes, at any
    depth. -/
inductive Component.Rearranges : Component → Component → Prop
  | node {k : Kind} {ps qs : List Property} {cs ds : List Component}
      (own : Relation.EqvGen k.Moves ps qs) (inside : Component.RearrangesIn cs ds) :
      Component.Rearranges (.node k ps cs) (.node k qs ds)

inductive Component.RearrangesIn : List Component → List Component → Prop
  | nil : Component.RearrangesIn [] []
  | cons {c d : Component} {cs ds : List Component} (first : Component.Rearranges c d)
      (rest : Component.RearrangesIn cs ds) : Component.RearrangesIn (c :: cs) (d :: ds)

end

namespace Kind

variable {k : Kind} {p q : Property} {ps qs : List Property}

-- ── Classes ──────────────────────────────────────────────────────────────────────

/-- A kind knows a property exactly when it does not sort it last of all. -/
theorem knows_iff : k.Knows p ↔ k.place p ≠ k.propertyOrder.length := by
  rw [← any_isNamed_iff, List.any_eq_true]
  exact Iff.rfl

/-- A class is all that has one place. -/
theorem sameClass_iff : k.SameClass p q ↔ k.place p = k.place q := by
  constructor
  · rintro (⟨name, listed, hp, hq⟩ | ⟨hp, hq⟩)
    · obtain ⟨i, h, rfl⟩ := List.mem_iff_getElem.mp listed
      rw [(isNamed_getElem_iff h).mp hp, (isNamed_getElem_iff h).mp hq]
    · rw [knows_iff, not_not] at hp hq
      rw [hp, hq]
  · intro same
    by_cases known : k.Knows p
    · obtain ⟨name, listed, hp⟩ := known
      obtain ⟨i, h, rfl⟩ := List.mem_iff_getElem.mp listed
      have place := (isNamed_getElem_iff h).mp hp
      exact .inl ⟨_, listed, hp, (isNamed_getElem_iff h).mpr (same ▸ place)⟩
    · refine .inr ⟨known, fun other => known ?_⟩
      rw [knows_iff] at other ⊢
      rwa [same]

/-- Two properties are of one class when they stand at the same place, so that either filter keeps
    the same ones. -/
theorem filter_sameClass (k : Kind) (p : Property) (ps : List Property) :
    ps.filter (fun q => k.SameClass p q) = ps.filter fun q => k.place q = k.place p := by
  refine List.filter_congr fun q _ => ?_
  rw [Bool.eq_iff_iff, decide_eq_true_iff, decide_eq_true_iff, sameClass_iff]
  exact eq_comm

-- ── The canonical order ──────────────────────────────────────────────────────────

theorem perm_inOrder (k : Kind) (ps : List Property) : (k.inOrder ps).Perm ps := by
  rw [inOrder_eq_sorted]
  exact List.perm_insertionSort _ ps

theorem pairwise_inOrder (k : Kind) (ps : List Property) :
    (k.inOrder ps).Pairwise fun p q => k.place p ≤ k.place q := by
  rw [inOrder_eq_sorted]
  exact List.pairwise_insertionSort _ ps

/-- Properties of one place stay as they follow one another. -/
theorem filter_inOrder (k : Kind) (i : Nat) (ps : List Property) :
    (k.inOrder ps).filter (fun q => k.place q = i) = ps.filter fun q => k.place q = i := by
  have level : (ps.filter fun q => k.place q = i).Pairwise fun p q => k.place p ≤ k.place q := by
    refine List.pairwise_of_forall_mem_list fun p hp q hq => ?_
    rw [of_decide_eq_true (List.mem_filter.mp hp).2, of_decide_eq_true (List.mem_filter.mp hq).2]
  have inside : (ps.filter fun q => k.place q = i).Sublist (k.inOrder ps) := by
    rw [inOrder_eq_sorted]
    exact List.sublist_insertionSort level List.filter_sublist
  have again := inside.filter fun q => k.place q = i
  simp only [List.filter_filter, Bool.and_self] at again
  exact (again.eq_of_length ((k.perm_inOrder ps).filter _).length_eq.symm).symm

/-- **ONE CANONICAL ORDER** belongs to lists in which every class stands alike. -/
theorem inOrder_eq_iff :
    k.inOrder ps = k.inOrder qs
      ↔ ∀ i, (ps.filter fun q => k.place q = i) = qs.filter fun q => k.place q = i := by
  constructor
  · intro same i
    rw [← filter_inOrder, same, filter_inOrder]
  · intro alike
    rw [inOrder_eq_buckets, inOrder_eq_buckets]
    exact List.flatMap_congr fun i _ => alike i

/-- The canonical arrangement of a list is its ordered form, and there is no other. -/
theorem canonical_iff : k.Canonical ps qs ↔ qs = k.inOrder ps := by
  constructor
  · rintro ⟨-, ascends, keeps⟩
    rw [← inOrder_of_pairwise ascends, inOrder_eq_iff]
    intro i
    by_cases some_ : ∃ p, k.place p = i
    · obtain ⟨p, rfl⟩ := some_
      rw [← filter_sameClass, ← filter_sameClass]
      exact keeps p
    · have none_ : ∀ xs : List Property, (xs.filter fun q => decide (k.place q = i)) = [] := by
        intro xs
        refine List.filter_eq_nil_iff.mpr fun q _ here => some_ ⟨q, of_decide_eq_true here⟩
      rw [none_, none_]
  · rintro rfl
    refine ⟨k.perm_inOrder ps, k.pairwise_inOrder ps, fun p => ?_⟩
    rw [filter_sameClass, filter_sameClass, filter_inOrder]

-- ── Moves ────────────────────────────────────────────────────────────────────────

/-- Moving a property past one of another class does not show once the properties are ordered. -/
theorem Moves.inOrder_eq (h : k.Moves ps qs) : k.inOrder ps = k.inOrder qs := by
  obtain ⟨front, p, others, back, apart⟩ := h
  rw [inOrder_eq_iff]
  intro i
  simp only [List.filter_append, List.filter_cons]
  by_cases here : k.place p = i
  · -- in this class there is nothing to move past
    have none_ : (others.filter fun q => decide (k.place q = i)) = [] := by
      refine List.filter_eq_nil_iff.mpr fun q hq same => apart q hq ?_
      rw [sameClass_iff, here, of_decide_eq_true same]
    simp only [none_, List.nil_append]
  · simp only [here, decide_false, Bool.false_eq_true, if_false]

theorem Moves.cons (p : Property) (h : k.Moves ps qs) : k.Moves (p :: ps) (p :: qs) := by
  obtain ⟨front, q, others, back, apart⟩ := h
  exact .past (p :: front) q others back apart

/-- A chain of moves can be made behind any first property. -/
theorem eqvGen_cons (p : Property) (h : Relation.EqvGen k.Moves ps qs) :
    Relation.EqvGen k.Moves (p :: ps) (p :: qs) := by
  induction h with
  | rel _ _ move => exact .rel _ _ (move.cons p)
  | refl _ => exact .refl _
  | symm _ _ _ ih => exact ih.symm
  | trans _ _ _ _ _ first second => exact first.trans _ _ _ second

/-- Sorting is moving: an insertion moves a property past those of lesser places. -/
theorem eqvGen_inOrder (k : Kind) (ps : List Property) :
    Relation.EqvGen k.Moves ps (k.inOrder ps) := by
  rw [inOrder_eq_sorted]
  induction ps with
  | nil => exact .refl _
  | cons p ps ih =>
      rw [sorted, List.insertionSort_cons, List.orderedInsert_eq_take_drop]
      have first := eqvGen_cons p ih
      have split := List.takeWhile_append_dropWhile
        (p := fun q => decide ¬ k.place p ≤ k.place q) (l := k.sorted ps)
      rw [← split] at first
      refine first.trans _ _ _ (.rel _ _ (.past [] p _ _ fun q hq same => ?_))
      have before := List.mem_takeWhile_imp hq
      exact of_decide_eq_true before (Nat.le_of_eq (sameClass_iff.mp same))

/-- **WHAT THE CANONICAL ORDER FORGETS** is undone by moves. -/
theorem eqvGen_moves_iff :
    Relation.EqvGen k.Moves ps qs ↔ k.inOrder ps = k.inOrder qs := by
  constructor
  · intro moved
    induction moved with
    | rel _ _ move => exact move.inOrder_eq
    | refl _ => rfl
    | symm _ _ _ ih => exact ih.symm
    | trans _ _ _ _ _ first second => exact first.trans second
  · intro same
    have back := (k.eqvGen_inOrder qs).symm
    rw [← same] at back
    exact (k.eqvGen_inOrder ps).trans _ _ _ back

end Kind

-- ── Components ───────────────────────────────────────────────────────────────────

mutual

/-- Rearranged components are written the same. The induction is on the rearrangement, together
    with the list of components inside. -/
theorem Component.Rearranges.folded_eq :
    {c d : Component} → c.Rearranges d → c.folded = d.folded
  | _, _, .node own inside => by
      rw [Component.folded, Component.folded, Kind.eqvGen_moves_iff.mp own, inside.foldedAll_eq]

theorem Component.RearrangesIn.foldedAll_eq :
    {cs ds : List Component} → Component.RearrangesIn cs ds →
      Component.foldedAll cs = Component.foldedAll ds
  | _, _, .nil => rfl
  | _, _, .cons first rest => by
      rw [Component.foldedAll, Component.foldedAll, first.folded_eq, rest.foldedAll_eq]

end

theorem Component.Rearranges.text_eq {c d : Component} (h : c.Rearranges d) : c.text = d.text := by
  rw [Component.text, Component.text, h.folded_eq]

/-- **THE CANONICAL ORDER** is what its three properties say and nothing else; it keeps what is in
    this order already; it is shared by the lists that moves turn into each other, and by no
    others; and components that moves turn into each other have one text. -/
theorem inOrder_canonical :
    (∀ (k : Kind) (ps qs : List Property), k.Canonical ps qs ↔ qs = k.inOrder ps)
    ∧ (∀ (k : Kind) (ps : List Property), k.inOrder (k.inOrder ps) = k.inOrder ps)
    ∧ (∀ (k : Kind) (ps qs : List Property),
        Relation.EqvGen k.Moves ps qs ↔ k.inOrder ps = k.inOrder qs)
    ∧ ∀ c d : Component, c.Rearranges d → c.text = d.text :=
  ⟨fun _ _ _ => Kind.canonical_iff, fun k ps => Kind.inOrder_of_pairwise (k.pairwise_inOrder ps),
    fun _ _ _ => Kind.eqvGen_moves_iff, fun _ _ => Component.Rearranges.text_eq⟩

/-- The properties of an event with two summaries, written in different cases. -/
def twoSummaries : List Property :=
  [⟨"summary", [], .text "Jam"⟩, ⟨"X-HALL", [], .raw "2"⟩, ⟨"uid", [], .raw "jam"⟩,
    ⟨"Summary", [], .text "Again"⟩]

/-- The same properties; the first summary has moved up to the other one. -/
def summariesTogether : List Property :=
  [⟨"X-HALL", [], .raw "2"⟩, ⟨"uid", [], .raw "jam"⟩, ⟨"summary", [], .text "Jam"⟩,
    ⟨"Summary", [], .text "Again"⟩]

/-- A calendar with one event. -/
def calendarOf (properties : List Property) : Component :=
  .node .calendar [⟨"version", [], .raw "2.0"⟩] [.node .event properties []]

theorem inOrder_canonical_two_summaries :
    (calendarOf twoSummaries).Rearranges (calendarOf summariesTogether)
      ∧ (calendarOf twoSummaries).text = (calendarOf summariesTogether).text
      ∧ Kind.event.inOrder twoSummaries
        = [⟨"uid", [], .raw "jam"⟩, ⟨"summary", [], .text "Jam"⟩, ⟨"Summary", [], .text "Again"⟩,
            ⟨"X-HALL", [], .raw "2"⟩] := by
  have move : Kind.event.Moves twoSummaries summariesTogether :=
    .past [] ⟨"summary", [], .text "Jam"⟩ [⟨"X-HALL", [], .raw "2"⟩, ⟨"uid", [], .raw "jam"⟩]
      [⟨"Summary", [], .text "Again"⟩] (by decide)
  have moved : (calendarOf twoSummaries).Rearranges (calendarOf summariesTogether) :=
    .node (.refl _) (.cons (.node (.rel _ _ move) .nil) .nil)
  exact ⟨moved, inOrder_canonical.2.2.2 _ _ moved, by decide⟩

end CalendarFeeds.ICalendar
