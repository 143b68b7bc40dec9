import CalendarFeeds.Catalogue.Reader
import CalendarFeeds.Proofs.Outcome
import Mathlib.Data.List.Nodup

/-! # Catalogues — what the lists that they hold have in common

    Whatever reads them, no two declarations of a catalogue that can be used have one name, and
    none of its external calendars has an event. -/

namespace CalendarFeeds

/-- No name repeats exactly when the names differ from each other and from those already seen; the
    general form of the induction over the names to come. -/
theorem firstRepeat?_eq_none_iff {seen names : List String} :
    firstRepeat? seen names = none ↔ names.Nodup ∧ ∀ s ∈ names, s ∉ seen := by
  induction names generalizing seen with
  | nil => simp [firstRepeat?]
  | cons s rest ih =>
      rw [firstRepeat?]
      split
      · next known =>
          constructor
          · intro h
            cases h
          · rintro ⟨-, fresh⟩
            exact absurd (List.contains_iff_mem.mp known) (fresh s List.mem_cons_self)
      · next new =>
          have unseen : s ∉ seen := fun here => new (List.contains_iff_mem.mpr here)
          rw [ih, List.nodup_cons]
          constructor
          · rintro ⟨apart, fresh⟩
            refine ⟨⟨fun again => fresh s again List.mem_cons_self, apart⟩, fun t ht => ?_⟩
            rcases List.mem_cons.mp ht with rfl | later
            · exact unseen
            · exact fun known => fresh t later (List.mem_cons_of_mem s known)
          · rintro ⟨⟨once, apart⟩, fresh⟩
            refine ⟨apart, fun t ht known => ?_⟩
            rcases List.mem_cons.mp known with rfl | earlier
            · exact once ht
            · exact fresh t (List.mem_cons_of_mem s ht) earlier

namespace Catalogue

theorem distinct_eq_ok_iff {α : Type} {kind : Declared} {name : α → String} {xs ys : List α} :
    distinct kind name xs = .ok ys ↔ ys = xs ∧ (xs.map name).Nodup := by
  have once : firstRepeat? [] (xs.map name) = none ↔ (xs.map name).Nodup := by
    rw [firstRepeat?_eq_none_iff]
    exact ⟨fun h => h.1, fun h => ⟨h, fun _ _ => List.not_mem_nil⟩⟩
  simp only [distinct]
  split
  · next repeated =>
      constructor
      · intro h
        cases h
      · rintro ⟨-, apart⟩
        cases (once.mpr apart).symm.trans repeated
  · next none_ =>
      constructor
      · intro h
        cases h
        exact ⟨rfl, once.mp none_⟩
      · rintro ⟨rfl, -⟩
        rfl

/-- What is checked is what was read, with no name in it twice. -/
theorem checked_eq_ok_iff {α : Type} {kind : Declared} {name : α → String}
    {read : Except DocumentError (List α)} {xs : List α} :
    checked kind name read = .ok xs ↔ read = .ok xs ∧ (xs.map name).Nodup := by
  cases read with
  | error e =>
      constructor
      · intro h
        cases h
      · rintro ⟨h, -⟩
        cases h
  | ok ys =>
      show distinct kind name ys = .ok xs ↔ _
      rw [distinct_eq_ok_iff, Except.ok.injEq]
      constructor
      · rintro ⟨rfl, apart⟩
        exact ⟨rfl, apart⟩
      · rintro ⟨rfl, apart⟩
        exact ⟨rfl, apart⟩

/-- The definitions that are loaded from a file have different names, whatever reads it. -/
theorem nodup_definitionsBy {reader : DocumentReader} {file : TextFile}
    {definitions : List Definition} (h : definitionsBy reader file = .ok definitions) :
    (definitions.map Definition.name).Nodup :=
  (checked_eq_ok_iff.mp h).2

/-- The external calendars that are loaded from a file have no events, whatever reads it. -/
theorem events_of_mem_externalsBy {reader : DocumentReader} {file : TextFile}
    {xs : List ExternalCalendar} (h : externalsBy reader file = .ok xs) {x : ExternalCalendar}
    (hx : x ∈ xs) : x.events = [] := by
  obtain ⟨listed, -⟩ := checked_eq_ok_iff.mp h
  obtain ⟨declared, -, rfl⟩ := Outcome.map_eq_ok_iff.mp listed
  obtain ⟨y, -, rfl⟩ := List.mem_map.mp hx
  rfl

end Catalogue

end CalendarFeeds
