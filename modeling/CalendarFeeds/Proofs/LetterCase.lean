import CalendarFeeds.Text.AsciiCase
import CalendarFeeds.Text.Blank
import Mathlib.Data.List.DropRight
import Mathlib.Data.List.TakeWhile

/-! # Letter case — small letters and the blanks around them

    Writing a text in small letters changes capitals of ASCII only: what is in small letters
    already stays, and a blank stays a blank.  So small letters and trimming can be applied in
    either order, and a text that agrees with a trimmed one up to case has no blanks around it
    either. -/

namespace CalendarFeeds.Text

-- ── Capitals by their numbers ────────────────────────────────────────────────────

/-- The capitals are the characters from 65 to 90. -/
theorem isUpper_iff {c : Char} : c.isUpper = true ↔ 65 ≤ c.toNat ∧ c.toNat ≤ 90 :=
  decide_eq_true_iff

/-- The small letters are the characters from 97 to 122. -/
theorem isLower_iff {c : Char} : c.isLower = true ↔ 97 ≤ c.toNat ∧ c.toNat ≤ 122 :=
  (Bool.and_eq_true_iff).trans (and_congr decide_eq_true_iff decide_eq_true_iff)

/-- The digits are the characters from 48 to 57. -/
theorem isDigit_iff {c : Char} : c.isDigit = true ↔ 48 ≤ c.toNat ∧ c.toNat ≤ 57 :=
  (Bool.and_eq_true_iff).trans (and_congr decide_eq_true_iff decide_eq_true_iff)

/-- What is no capital keeps its form. -/
theorem toLower_eq_self {c : Char} (other : ¬ (65 ≤ c.toNat ∧ c.toNat ≤ 90)) : c.toLower = c :=
  dif_neg other

/-- Each capital is 32 before its small letter, and every other character is its own. -/
theorem toNat_toLower (c : Char) :
    c.toLower.toNat = if 65 ≤ c.toNat ∧ c.toNat ≤ 90 then c.toNat + 32 else c.toNat := by
  by_cases capital : 65 ≤ c.toNat ∧ c.toNat ≤ 90
  · have moved : c.toLower.val = c.val + 32 := congrArg Char.val (dif_pos capital)
    have sum : c.toLower.toNat = (c.toNat + 32) % 2 ^ 32 :=
      (congrArg UInt32.toNat moved).trans (UInt32.toNat_add c.val 32)
    rw [if_pos capital, sum, Nat.mod_eq_of_lt (by omega)]
  · rw [if_neg capital, toLower_eq_self capital]

/-- No small letter is a capital. -/
theorem isUpper_toLower (c : Char) : c.toLower.isUpper = false := by
  rw [← Bool.not_eq_true, isUpper_iff, toNat_toLower]
  split <;> omega

-- ── Texts in small letters ───────────────────────────────────────────────────────

/-- What is in small letters stays as it is. -/
@[simp] theorem lower_lower (s : List Char) : lower (lower s) = lower s := by
  have again : ∀ c : Char, c.toLower.toLower = c.toLower := by
    refine fun c => toLower_eq_self ?_
    rw [← isUpper_iff, isUpper_toLower]
    exact Bool.false_ne_true
  simp [lower, again]

@[simp] theorem toList_lowered (s : String) : (lowered s).toList = lower s.toList :=
  String.toList_ofList

@[simp] theorem toList_trimmed (s : String) : (trimmed s).toList = trim s.toList :=
  String.toList_ofList

/-- Two texts agree in small letters exactly when their characters do. -/
theorem lowered_eq_iff {s t : String} : lowered s = lowered t ↔ lower s.toList = lower t.toList :=
  String.ofList_inj

theorem sameIgnoringCase_lowered (s : String) : sameIgnoringCase s (lowered s) = true :=
  sameIgnoringCase_iff.mpr (by simp)

theorem sameIgnoringCase_comm (s t : String) : sameIgnoringCase s t = sameIgnoringCase t s := by
  simp only [sameIgnoringCase, Bool.beq_comm]

-- ── Blanks ───────────────────────────────────────────────────────────────────────

/-- A character is blank exactly when its small form is. -/
theorem isBlank_toLower (c : Char) : isBlank c.toLower = isBlank c := by
  by_cases capital : 65 ≤ c.toNat ∧ c.toNat ≤ 90
  · have small : c.toLower.toNat = c.toNat + 32 := by rw [toNat_toLower, if_pos capital]
    have shown : ∀ {d : Char}, 65 ≤ d.toNat → d.toNat ≤ 122 → isBlank d = false := by
      intro d low high
      simp only [isBlank, Bool.or_eq_false_iff, Bool.and_eq_false_iff, decide_eq_false_iff_not,
        beq_eq_false_iff_ne]
      omega
    rw [shown (by omega) (by omega), shown (by omega) (by omega)]
  · rw [toLower_eq_self capital]

/-- Leading blanks can be dropped before or after the letters are made small. -/
theorem lower_dropWhile_isBlank (s : List Char) :
    lower (s.dropWhile isBlank) = (lower s).dropWhile isBlank := by
  have same : isBlank ∘ Char.toLower = isBlank := funext isBlank_toLower
  rw [lower, lower, List.dropWhile_map, same]

/-- Small letters and trimming can be applied in either order. -/
theorem lower_trim (s : List Char) : lower (trim s) = trim (lower s) := by
  have reversed : ∀ t : List Char, lower t.reverse = (lower t).reverse := fun t => List.map_reverse
  simp only [trim, trimEnd, trimStart]
  rw [reversed, lower_dropWhile_isBlank, reversed, lower_dropWhile_isBlank]

/-- A trimmed text starts with no blank. -/
theorem trimStart_trim (s : List Char) : trimStart (trim s) = trim s := by
  obtain ⟨after, parts⟩ : trim s <+: trimStart s := List.rdropWhile_prefix isBlank _
  refine List.dropWhile_eq_self_iff.mpr fun some_ blank => ?_
  have first : (trimStart s).head? = some (trim s)[0] := by
    rw [← parts, List.head?_append, List.head?_eq_getElem?, List.getElem?_eq_getElem some_]
    rfl
  have shown := List.head?_dropWhile_not isBlank s
  rw [← trimStart, first] at shown
  simp [blank] at shown

/-- Trimming twice changes nothing more. -/
theorem trim_trim (s : List Char) : trim (trim s) = trim s := by
  rw [trim, trimStart_trim]
  exact List.rdropWhile_idempotent isBlank _

theorem trimmed_trimmed (s : String) : trimmed (trimmed s) = trimmed s :=
  String.toList_injective (by simp [trim_trim])

/-- A text that agrees up to case with a trimmed one has no blanks around it. -/
theorem trim_eq_of_lower_eq {s t : List Char} (same : lower s = lower (trim t)) : trim s = s := by
  have short : (lower (trim s)).length = (lower s).length := by
    rw [lower_trim, same, ← lower_trim, trim_trim]
  simp only [lower, List.length_map] at short
  obtain ⟨before, after, -, -, parts⟩ := exists_eq_append_trim s
  have count := congrArg List.length parts
  simp only [List.length_append] at count
  have none_ : before = [] ∧ after = [] :=
    ⟨List.eq_nil_of_length_eq_zero (by omega), List.eq_nil_of_length_eq_zero (by omega)⟩
  rw [none_.1, none_.2, List.nil_append, List.append_nil] at parts
  exact parts.symm

end CalendarFeeds.Text
