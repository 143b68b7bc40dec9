import CalendarFeeds.Proofs.ClockChanges
import CalendarFeeds.Proofs.Numerals
import Mathlib.Algebra.Group.Nat.Defs

/-! # Stamps — the times that a feed writes, read back

    A stamp is a date and a time of day in digits, without separators but for a T between the two.
    Each number has a fixed width, which its leading zeros fill, so a reader takes the numbers off
    the front one by one.  A year needs no sign and four digits from 0 to 9999; within these years
    the date and the time that are read are the ones that were written. -/

namespace CalendarFeeds

namespace Text

-- ── Numbers of a fixed width ─────────────────────────────────────────────────────

theorem length_digits_le {n width : Nat} (pos : 0 < width) (fits : n < 10 ^ width) :
    (digits n).length ≤ width := by
  induction n using digits.induct generalizing width with
  | case1 n small =>
      rw [digits, if_pos small]
      exact pos
  | case2 n large ih =>
      obtain ⟨width, rfl⟩ : ∃ w, width = w + 1 := ⟨width - 1, by omega⟩
      have front : n / 10 < 10 ^ width := by
        rw [Nat.div_lt_iff_lt_mul (by decide), ← Nat.pow_succ]
        exact fits
      have more : 0 < width := by
        by_contra none_
        obtain rfl : width = 0 := by omega
        omega
      rw [digits, if_neg large, List.length_append, List.length_singleton]
      exact Nat.succ_le_succ (ih more front)

/-- Padding fills up to the width exactly. -/
theorem length_paddedDigits {n width : Nat} (pos : 0 < width) (fits : n < 10 ^ width) :
    (paddedDigits width n).length = width := by
  have := length_digits_le pos fits
  simp only [paddedDigits, List.length_append, List.length_replicate]
  omega

theorem digitsValue_replicate_append (k : Nat) (ds : List Char) :
    digitsValue (List.replicate k '0' ++ ds) = digitsValue ds := by
  induction k with
  | zero => rfl
  | succ k ih => exact ih

/-- A padded number reads as the number. -/
theorem natural?_paddedDigits (width n : Nat) : natural? (paddedDigits width n) = some n := by
  have some_ : paddedDigits width n ≠ [] := fun none_ =>
    digits_ne_nil n (List.append_eq_nil_iff.mp none_).2
  have all : (paddedDigits width n).all Char.isDigit = true :=
    List.all_eq_true.mpr fun c hc => isDigit_of_mem_paddedDigits hc
  have value : digitsValue (paddedDigits width n) = n :=
    (digitsValue_replicate_append _ _).trans (digitsValue_digits n)
  rw [natural?, if_pos ⟨some_, all⟩, value]

/-- Takes a number of a fixed width off the front of a text. -/
def readDigits? (width : Nat) (s : List Char) : Option (Nat × List Char) :=
  if (s.take width).length = width then (natural? (s.take width)).map fun n => (n, s.drop width)
  else none

/-- A field of fixed width is read back, whatever follows it. -/
theorem readDigits?_paddedDigits {width n : Nat} (pos : 0 < width) (fits : n < 10 ^ width)
    (rest : List Char) : readDigits? width (paddedDigits width n ++ rest) = some (n, rest) := by
  have length := length_paddedDigits pos fits
  rw [readDigits?, List.take_left' length, List.drop_left' length, if_pos length,
    natural?_paddedDigits]
  rfl

/-- Takes a character off the front of a text. -/
def readChar? (c : Char) : List Char → Option (List Char)
  | [] => none
  | d :: rest => if d = c then some rest else none

theorem readChar?_cons (c : Char) (rest : List Char) : readChar? c (c :: rest) = some rest :=
  if_pos rfl

end Text

-- ── Dates and times ──────────────────────────────────────────────────────────────

open Text

/-- Takes a date and a time of day off the front of a text, written as `20240310T023000`. -/
def readStamp? (s : List Char) : Option ((Date × TimeOfDay) × List Char) := do
  let (year, s) ← readDigits? 4 s
  let (month, s) ← readDigits? 2 s
  let (day, s) ← readDigits? 2 s
  let s ← readChar? 'T' s
  let (hour, s) ← readDigits? 2 s
  let (minute, s) ← readDigits? 2 s
  let (second, s) ← readDigits? 2 s
  let date ← Date.ofCivil? year month day
  let time ← TimeOfDay.ofNumbers? hour minute second
  some ((date, time), s)

/-- A year from 0 to 9999 on the clocks that show a number of seconds. -/
def InFourDigits (seconds : Int) : Prop :=
  0 ≤ Civil.yearOf (seconds / 86400) ∧ Civil.yearOf (seconds / 86400) ≤ 9999

instance (seconds : Int) : Decidable (InFourDigits seconds) :=
  inferInstanceAs (Decidable (_ ∧ _))

/-- The numbers of a stamp, each in its width. -/
theorem toList_clockText {seconds : Int} (years : InFourDigits seconds) :
    (clockText seconds false "" "T" "").toList
      = paddedDigits 4 (Civil.yearOf (seconds / 86400)).natAbs
        ++ (paddedDigits 2 (Civil.monthOf (seconds / 86400))
        ++ (paddedDigits 2 (Civil.dayOf (seconds / 86400))
        ++ 'T' :: (paddedDigits 2 ((seconds % 86400).toNat / 3600)
        ++ (paddedDigits 2 ((seconds % 86400).toNat / 60 % 60)
        ++ paddedDigits 2 ((seconds % 86400).toNat % 60))))) := by
  have year : Date.yearText (Civil.yearOf (seconds / 86400))
      = padded 4 (Civil.yearOf (seconds / 86400)).natAbs := by
    rw [Date.yearText, if_neg (Int.not_lt.mpr years.1), if_pos years.2]
  simp only [clockText, year, padded, String.toList_append, String.toList_ofList,
    Bool.false_eq_true, if_false, Nat.add_zero, List.append_assoc]
  rfl

/-- Days of years in four digits have room among the dates. -/
theorem exists_date_of_inFourDigits {seconds : Int} (years : InFourDigits seconds) :
    ∃ date : Date, date.number = seconds / 86400
      ∧ Date.ofCivil? (Civil.yearOf (seconds / 86400)).natAbs (Civil.monthOf (seconds / 86400))
        (Civil.dayOf (seconds / 86400)) = some date := by
  obtain ⟨fromZero, inFour⟩ := years
  have place := Civil.yearOf_bounds (seconds / 86400)
  have first := Civil.yearStart_mono (show -262143 ≤ Civil.yearOf (seconds / 86400) by omega)
  have last := Civil.yearStart_mono (show Civil.yearOf (seconds / 86400) + 1 ≤ 262143 by omega)
  have year : ((Civil.yearOf (seconds / 86400)).natAbs : Int) = Civil.yearOf (seconds / 86400) :=
    Int.natAbs_of_nonneg fromZero
  exact ⟨⟨seconds / 86400, by omega, by omega⟩, rfl,
    Date.ofCivil?_eq_some_iff.mpr ⟨year.symm, rfl, rfl⟩⟩

/-- The seconds of a day are those of a time of day that is no inserted second. -/
theorem exists_time_of_seconds (seconds : Int) :
    ∃ time : TimeOfDay, (time.seconds : Int) = seconds % 86400 ∧ time.isLeap = false
      ∧ TimeOfDay.ofNumbers? ((seconds % 86400).toNat / 3600) ((seconds % 86400).toNat / 60 % 60)
        ((seconds % 86400).toNat % 60) = some time := by
  have inDay : (seconds % 86400).toNat / 3600 ≤ 23 ∧ (seconds % 86400).toNat / 60 % 60 ≤ 59
      ∧ (seconds % 86400).toNat % 60 ≤ 60 := by omega
  refine ⟨⟨_, _, _, inDay⟩, ?_, ?_, dif_pos inDay⟩
  · simp only [TimeOfDay.seconds]
    omega
  · simp only [TimeOfDay.isLeap, beq_eq_false_iff_ne]
    omega

/-- **A STAMP READS BACK** as the date and the time of day that it was written from. -/
theorem readStamp?_clockText {seconds : Int} (years : InFourDigits seconds) (rest : List Char) :
    ∃ date time, readStamp? ((clockText seconds false "" "T" "").toList ++ rest)
        = some ((date, time), rest)
      ∧ Instant.askedOn date time = seconds ∧ time.isLeap = false := by
  obtain ⟨date, number, dated⟩ := exists_date_of_inFourDigits years
  obtain ⟨time, ofDay, whole, timed⟩ := exists_time_of_seconds seconds
  refine ⟨date, time, ?_, ?_, whole⟩
  · have month := Civil.monthOf_range (seconds / 86400)
    have day := Civil.dayOf_range (seconds / 86400)
    have long := Civil.monthLength_le (Civil.yearOf (seconds / 86400))
      (Civil.monthOf (seconds / 86400))
    have fits : (Civil.yearOf (seconds / 86400)).natAbs < 10 ^ 4 := by
      have := years.1
      have := years.2
      omega
    rw [toList_clockText years]
    simp only [List.append_assoc, List.cons_append, readStamp?, bind, Option.bind]
    rw [readDigits?_paddedDigits (by decide) fits]
    simp only
    rw [readDigits?_paddedDigits (by decide) (show _ < 10 ^ 2 by omega)]
    simp only
    rw [readDigits?_paddedDigits (by decide) (show _ < 10 ^ 2 by omega)]
    simp only
    rw [readChar?_cons]
    simp only
    rw [readDigits?_paddedDigits (by decide) (show _ < 10 ^ 2 by omega)]
    simp only
    rw [readDigits?_paddedDigits (by decide) (show _ < 10 ^ 2 by omega)]
    simp only
    rw [readDigits?_paddedDigits (by decide) (show _ < 10 ^ 2 by omega), dated]
    simp only
    rw [timed]
  · rw [Instant.askedOn, number, ofDay]
    omega

/-- The seconds of a stamp with an ending and nothing after it; an inserted second has none of its
    own. -/
def readSeconds? (ending s : List Char) : Option Int :=
  match readStamp? s with
  | some ((date, time), rest) =>
    if rest = ending ∧ time.isLeap = false then some (Instant.askedOn date time) else none
  | none => none

/-- A stamp within four-digit years is read back as its seconds. -/
theorem readSeconds?_clockText {seconds : Int} (years : InFourDigits seconds)
    (ending : List Char) :
    readSeconds? ending ((clockText seconds false "" "T" "").toList ++ ending) = some seconds := by
  obtain ⟨date, time, read, asked, whole⟩ := readStamp?_clockText years ending
  rw [readSeconds?, read]
  exact (if_pos ⟨rfl, whole⟩).trans (congrArg some asked)

end CalendarFeeds
