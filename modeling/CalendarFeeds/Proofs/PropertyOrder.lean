import CalendarFeeds.ICalendar.Component
import Mathlib.Data.List.Sort

/-! # Property order — a stable sort by the place of a name

    Every property has a place among those of its kind: that of its name, in whichever case, or
    the last one when the order does not know the name.  One pass over the properties for each
    place collects the properties by places.  The passes neither lose nor repeat any, and within
    a place they keep the order they find, so together they sort the properties stably. -/

namespace CalendarFeeds.ICalendar

namespace Kind

/-- The place of a name in the order of a kind; names without one share the place after all
    others. -/
def placeOf (k : Kind) (name : String) : Nat :=
  k.propertyOrder.findIdx (Text.sameIgnoringCase name)

def place (k : Kind) (p : Property) : Nat :=
  k.placeOf p.name

/-- Properties by their places; those with one place stay as they are. -/
def sorted (k : Kind) (ps : List Property) : List Property :=
  ps.insertionSort fun p q => k.place p ≤ k.place q

/-- No two names of an order differ in case only. -/
theorem propertyOrder_apart (k : Kind) :
    k.propertyOrder.Pairwise fun a b => Text.lower a.toList ≠ Text.lower b.toList := by
  cases k <;> decide +kernel

/-- A property has the name at an index of the order exactly if that is its place. -/
theorem isNamed_getElem_iff {k : Kind} {p : Property} {i : Nat} (h : i < k.propertyOrder.length) :
    p.isNamed k.propertyOrder[i] = true ↔ k.place p = i := by
  constructor
  · intro named
    refine (List.findIdx_eq h).mpr ⟨named, fun j before => ?_⟩
    by_contra also
    have earlier := Text.sameIgnoringCase_iff.mp (Bool.not_eq_false _ ▸ also)
    have later := Text.sameIgnoringCase_iff.mp named
    exact List.pairwise_iff_getElem.mp k.propertyOrder_apart j i (Nat.lt_trans before h) h before
      (earlier.symm.trans later)
  · intro placed
    exact ((List.findIdx_eq h).mp placed).1

/-- A property has a place of its own exactly when its name is in the order. -/
theorem any_isNamed_iff {k : Kind} {p : Property} :
    k.propertyOrder.any p.isNamed = true ↔ k.place p ≠ k.propertyOrder.length := by
  rw [List.any_eq_true]
  exact List.findIdx_lt_length.symm.trans ⟨Nat.ne_of_lt, fun other =>
    Nat.lt_of_le_of_ne List.findIdx_le_length other⟩

/-- Writing by names collects the properties of each place in turn. -/
theorem inOrder_eq_buckets (k : Kind) (ps : List Property) :
    k.inOrder ps = (List.range (k.propertyOrder.length + 1)).flatMap fun i =>
      ps.filter fun p => k.place p = i := by
  have known : (k.propertyOrder.flatMap fun name => ps.filter (·.isNamed name))
      = (List.range k.propertyOrder.length).flatMap fun i => ps.filter fun p => k.place p = i := by
    rw [List.flatMap_def, List.flatMap_def]
    congr 1
    refine List.ext_getElem (by simp) fun i h _ => ?_
    rw [List.getElem_map, List.getElem_map, List.getElem_range]
    refine List.filter_congr fun p _ => ?_
    rw [Bool.eq_iff_iff, decide_eq_true_iff]
    exact isNamed_getElem_iff (by simpa using h)
  have unknown : (ps.filter fun p => !k.propertyOrder.any p.isNamed)
      = ps.filter fun p => k.place p = k.propertyOrder.length := by
    refine List.filter_congr fun p _ => ?_
    rw [Bool.eq_iff_iff, Bool.not_eq_true', ← Bool.not_eq_true, any_isNamed_iff, not_not,
      decide_eq_true_iff]
  rw [inOrder, known, unknown, List.range_succ, List.flatMap_append, List.flatMap_singleton]

end Kind

section Buckets

variable {α : Type} {rank : α → Nat}

/-- An insertion passes over everything of lower rank. -/
theorem orderedInsert_append {x : α} {before after : List α} (h : ∀ y ∈ before, rank y < rank x) :
    (before ++ after).orderedInsert (fun a b => rank a ≤ rank b) x
      = before ++ after.orderedInsert (fun a b => rank a ≤ rank b) x := by
  induction before with
  | nil => rfl
  | cons y before ih =>
      have less := h y List.mem_cons_self
      rw [List.cons_append, List.orderedInsert_cons, if_neg (Nat.not_le_of_lt less),
        ih fun z hz => h z (List.mem_cons_of_mem y hz)]
      rfl

theorem orderedInsert_of_forall_le {x : α} {xs : List α} (h : ∀ y ∈ xs, rank x ≤ rank y) :
    xs.orderedInsert (fun a b => rank a ≤ rank b) x = x :: xs := by
  cases xs with
  | nil => rfl
  | cons y xs => exact List.orderedInsert_cons_of_le _ _ (h y List.mem_cons_self)

/-- A new first item goes to the front of its bucket, behind those of lesser ranks. -/
theorem buckets_cons {x : α} {xs : List α} {ranks : List Nat}
    (ascends : ranks.Pairwise (· < ·)) (listed : rank x ∈ ranks) :
    (ranks.flatMap fun i => (x :: xs).filter fun y => rank y = i)
      = (ranks.flatMap fun i => xs.filter fun y => rank y = i).orderedInsert
          (fun a b => rank a ≤ rank b) x := by
  induction ranks with
  | nil => cases listed
  | cons i ranks ih =>
      obtain ⟨above, rest⟩ := List.pairwise_cons.mp ascends
      rw [List.flatMap_cons, List.flatMap_cons]
      rcases List.mem_cons.mp listed with here | later
      · -- the item belongs into the first bucket, and into no other
        have elsewhere : (ranks.flatMap fun j => (x :: xs).filter fun y => rank y = j)
            = ranks.flatMap fun j => xs.filter fun y => rank y = j := by
          refine List.flatMap_congr fun j hj => List.filter_cons_of_neg ?_
          have := above j hj
          rw [decide_eq_true_iff]
          omega
        have own : ((x :: xs).filter fun y => decide (rank y = i))
            = x :: xs.filter fun y => decide (rank y = i) :=
          List.filter_cons_of_pos (decide_eq_true here)
        rw [elsewhere, own, List.cons_append, orderedInsert_of_forall_le]
        intro y hy
        rcases List.mem_append.mp hy with same | after
        · have := of_decide_eq_true (List.mem_filter.mp same).2
          omega
        · obtain ⟨j, hj, bucket⟩ := List.mem_flatMap.mp after
          have := of_decide_eq_true (List.mem_filter.mp bucket).2
          have := above j hj
          omega
      · have greater := above (rank x) later
        have stays : ((x :: xs).filter fun y => decide (rank y = i))
            = xs.filter fun y => decide (rank y = i) :=
          List.filter_cons_of_neg (by rw [decide_eq_true_iff]; omega)
        rw [stays, ih rest later, orderedInsert_append]
        intro y hy
        have := of_decide_eq_true (List.mem_filter.mp hy).2
        omega

/-- **COLLECTING BY RANKS** is a stable sort when the ranks that are collected ascend and miss
    none. -/
theorem buckets_eq_insertionSort {xs : List α} {ranks : List Nat}
    (ascends : ranks.Pairwise (· < ·)) (listed : ∀ x ∈ xs, rank x ∈ ranks) :
    (ranks.flatMap fun i => xs.filter fun y => rank y = i)
      = xs.insertionSort fun a b => rank a ≤ rank b := by
  induction xs with
  | nil => simp
  | cons x xs ih =>
      rw [buckets_cons ascends (listed x List.mem_cons_self),
        ih fun y hy => listed y (List.mem_cons_of_mem x hy), List.insertionSort_cons]

end Buckets

namespace Kind

/-- **THE ORDER OF PROPERTIES** is their stable sort by places. -/
theorem inOrder_eq_sorted (k : Kind) (ps : List Property) : k.inOrder ps = k.sorted ps := by
  rw [inOrder_eq_buckets]
  refine buckets_eq_insertionSort List.pairwise_lt_range fun p _ => List.mem_range.mpr ?_
  exact Nat.lt_succ_of_le List.findIdx_le_length

theorem mem_inOrder_iff {k : Kind} {ps : List Property} {p : Property} :
    p ∈ k.inOrder ps ↔ p ∈ ps := by
  rw [inOrder_eq_sorted]
  exact List.mem_insertionSort _

/-- The places of an order ascend along it. -/
theorem propertyOrder_ascends (k : Kind) :
    k.propertyOrder.Pairwise fun a b => k.placeOf a ≤ k.placeOf b := by
  cases k <;> decide +kernel

/-- Properties by their places stay as they are. -/
theorem inOrder_of_pairwise {k : Kind} {ps : List Property}
    (ascends : ps.Pairwise fun p q => k.place p ≤ k.place q) : k.inOrder ps = ps := by
  rw [inOrder_eq_sorted]
  exact ascends.insertionSort_eq

/-- Properties whose names follow the order stay as they are. -/
theorem inOrder_of_sublist {k : Kind} {ps : List Property}
    (follows : (ps.map Property.name).Sublist k.propertyOrder) : k.inOrder ps = ps := by
  have names : (ps.map Property.name).Pairwise fun a b => k.placeOf a ≤ k.placeOf b :=
    k.propertyOrder_ascends.sublist follows
  have places := List.pairwise_map.mp names
  exact inOrder_of_pairwise places

end Kind

end CalendarFeeds.ICalendar
