/-! # ASCII case — folding that leaves every other letter alone

    Schedule words, season names, property names and tag provenance are compared without regard
    to the case of `A` to `Z`.  No letter outside ASCII is folded. -/

namespace CalendarFeeds.Text

/-- Small letters for `A` to `Z`. -/
def lower (s : List Char) : List Char :=
  s.map Char.toLower

def lowered (s : String) : String :=
  String.ofList (lower s.toList)

/-- Capital letters for `a` to `z`. -/
def uppered (s : String) : String :=
  String.ofList (s.toList.map Char.toUpper)

/-- Equal up to the case of ASCII letters. -/
def sameIgnoringCase (s t : String) : Bool :=
  lower s.toList == lower t.toList

theorem sameIgnoringCase_iff {s t : String} :
    sameIgnoringCase s t = true ↔ lower s.toList = lower t.toList := by
  simp [sameIgnoringCase]

theorem sameIgnoringCase_self (s : String) : sameIgnoringCase s s = true :=
  sameIgnoringCase_iff.mpr rfl

end CalendarFeeds.Text
