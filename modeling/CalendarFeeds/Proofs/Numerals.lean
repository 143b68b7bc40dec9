import CalendarFeeds.Text.Numeral
import Mathlib.Data.List.Basic

/-! # Numerals — what is printed can be read

    A number is printed by its digits, the last one being the remainder by ten.  Reading takes
    them in from the front, so it undoes printing digit by digit, and no two numbers print
    alike.  Where a plus sign is allowed, reading drops that sign and nothing else. -/

namespace CalendarFeeds.Text

theorem isDigit_digitChar {d : Nat} (h : d < 10) : (digitChar d).isDigit = true := by
  have each : ∀ d < 10, (digitChar d).isDigit = true := by decide
  exact each d h

/-- A digit is read as the number that it was written for. -/
theorem digitValue_digitChar {d : Nat} (h : d < 10) : digitValue (digitChar d) = d := by
  have each : ∀ d < 10, digitValue (digitChar d) = d := by decide
  exact each d h

/-- The decimal form is made of digits. -/
theorem isDigit_of_mem_digits {n : Nat} {c : Char} (h : c ∈ digits n) : c.isDigit = true := by
  induction n using digits.induct with
  | case1 n small =>
      rw [digits, if_pos small] at h
      rw [List.mem_singleton.mp h]
      exact isDigit_digitChar small
  | case2 n large ih =>
      rw [digits, if_neg large] at h
      rcases List.mem_append.mp h with front | last
      · exact ih front
      · rw [List.mem_singleton.mp last]
        exact isDigit_digitChar (Nat.mod_lt n (by decide))

theorem digits_ne_nil (n : Nat) : digits n ≠ [] := by
  rw [digits]
  split <;> simp

/-- A digit at the end makes what stands before it count tenfold. -/
theorem digitsValue_append_singleton (ds : List Char) (c : Char) :
    digitsValue (ds ++ [c]) = 10 * digitsValue ds + digitValue c := by
  simp only [digitsValue]
  rw [List.foldl_append]
  rfl

/-- **READING UNDOES PRINTING** for every number. -/
theorem digitsValue_digits (n : Nat) : digitsValue (digits n) = n := by
  induction n using digits.induct with
  | case1 n small =>
      rw [digits, if_pos small]
      show 10 * 0 + digitValue (digitChar n) = n
      rw [digitValue_digitChar small, Nat.mul_zero, Nat.zero_add]
  | case2 n large ih =>
      rw [digits, if_neg large, digitsValue_append_singleton, ih,
        digitValue_digitChar (Nat.mod_lt n (by decide))]
      exact Nat.div_add_mod n 10

/-- Different numbers are written differently. -/
theorem natural_injective : Function.Injective natural := by
  intro m n same
  rw [← digitsValue_digits m, ← digitsValue_digits n, String.ofList_injective same]

/-- Padding adds digits only. -/
theorem isDigit_of_mem_paddedDigits {width n : Nat} {c : Char} (h : c ∈ paddedDigits width n) :
    c.isDigit = true := by
  rcases List.mem_append.mp h with zero | digit
  · rw [(List.mem_replicate.mp zero).2]
    rfl
  · exact isDigit_of_mem_digits digit

/-- A number is read exactly from one or more digits, as their value. -/
theorem natural?_eq_some_iff {s : List Char} {n : Nat} :
    natural? s = some n ↔ s ≠ [] ∧ (∀ c ∈ s, c.isDigit = true) ∧ digitsValue s = n := by
  simp only [natural?, Option.ite_none_right_eq_some, List.all_eq_true, Option.some.injEq]
  exact and_assoc

/-- A number is read back from its decimal form. -/
theorem natural?_digits (n : Nat) : natural? (digits n) = some n :=
  natural?_eq_some_iff.mpr
    ⟨digits_ne_nil n, fun _ here => isDigit_of_mem_digits here, digitsValue_digits n⟩

-- ── Signs ────────────────────────────────────────────────────────────────────────

/-- No sign, or a plus sign. -/
def optionalPlus : List (List Char) := [[], ['+']]

theorem mem_optionalPlus {sign : List Char} : sign ∈ optionalPlus ↔ sign = [] ∨ sign = ['+'] := by
  simp [optionalPlus]

/-- A text is what is left after one plus sign, with that sign in front or none. -/
theorem exists_eq_append_dropPlus (s : List Char) :
    ∃ sign ∈ optionalPlus, s = sign ++ dropPlus s := by
  by_cases plus : ∃ rest, s = '+' :: rest
  · obtain ⟨rest, rfl⟩ := plus
    exact ⟨['+'], by decide, rfl⟩
  · refine ⟨[], by decide, ?_⟩
    rw [dropPlus]
    · rfl
    · exact fun rest same => plus ⟨rest, same⟩

/-- An optional plus sign is dropped in front of a text that starts with none. -/
theorem dropPlus_append {sign s : List Char} (listed : sign ∈ optionalPlus)
    (bare : ∀ rest, s ≠ '+' :: rest) : dropPlus (sign ++ s) = s := by
  rcases mem_optionalPlus.mp listed with rfl | rfl
  · rw [List.nil_append, dropPlus]
    exact bare
  · rfl

end CalendarFeeds.Text
