import CalendarFeeds.Proofs.FeedLines

/-! # Event properties — each is there under its name

    A reader of an event asks for its properties by their names, in whichever case.  No two
    properties of an event have one name, so there is never a second answer. -/

namespace CalendarFeeds

namespace ICalendar

/-- The property of a component that has a name, if no other one has it too. -/
def Component.property? (c : Component) (name : String) : Option Property :=
  match c with
  | .node _ properties _ =>
    match properties.filter (·.isNamed name) with
    | [p] => some p
    | _ => none

/-- Where no two properties share a name, a look-up by name finds the one that is listed. -/
theorem filter_isNamed_of_apart {ps : List Property} {p : Property}
    (apart : ps.Pairwise fun a b => Text.lower a.name.toList ≠ Text.lower b.name.toList)
    (listed : p ∈ ps) : ps.filter (·.isNamed p.name) = [p] := by
  induction ps with
  | nil => cases listed
  | cons q qs ih =>
      obtain ⟨others, rest⟩ := List.pairwise_cons.mp apart
      rcases List.mem_cons.mp listed with rfl | later
      · have own : p.isNamed p.name = true := Text.sameIgnoringCase_iff.mpr rfl
        have none_ : qs.filter (·.isNamed p.name) = [] :=
          List.filter_eq_nil_iff.mpr fun r hr named =>
            others r hr (Text.sameIgnoringCase_iff.mp named).symm
        rw [List.filter_cons_of_pos (by exact own), none_]
      · have other : ¬ q.isNamed p.name = true := fun named =>
          others p later (Text.sameIgnoringCase_iff.mp named)
        rw [List.filter_cons_of_neg (by exact other)]
        exact ih rest later

end ICalendar

open ICalendar

/-- The identifier, the two start lines and the duration are there in every event. -/
theorem Event.mem_properties {e : Event} {p : Property}
    (always : p ∈ ([⟨"UID", [], .text e.id⟩, ⟨"DTSTAMP", [], .raw e.start.utcStamp⟩,
      ⟨"DTSTART", [⟨"TZID", [e.start.zone.name]⟩], .raw e.start.localStamp⟩,
      ⟨"DURATION", [], .raw (Duration.ofMilliseconds e.length).text⟩] : List Property)) :
    p ∈ e.properties := by
  simp only [Event.properties, List.append_assoc]
  exact List.mem_append_left _ always

/-- **THE PROPERTIES OF AN EVENT** can be told apart by their names. -/
theorem Event.property?_of_mem {e : Event} {p : Property} (listed : p ∈ e.properties) :
    e.component.property? p.name = some p := by
  have apart := Kind.event.propertyOrder_apart.sublist e.names_sublist
  rw [List.pairwise_map] at apart
  simp only [Event.component, Component.property?]
  rw [filter_isNamed_of_apart apart listed]

end CalendarFeeds
