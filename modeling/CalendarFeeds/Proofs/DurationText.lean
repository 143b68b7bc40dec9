import CalendarFeeds.Duration
import CalendarFeeds.Proofs.Numerals
import Mathlib.Data.List.TakeWhile

/-! # Duration texts — which texts are read, and as what

    RFC 5545 (§3.3.6) spells a duration as weeks, or as days and a time part; each item is digits
    and a designator, and the items of the time part keep their order.  The reader takes every
    such text for what it says.  Beyond them it takes one plus sign before the digits of weeks and
    of days, where numbers are read like any other number, but none before those of the time
    part, where digits are counted off.

    The reader of the time part works from the left.  What it leaves for an item is decided by
    the designator that comes next, so an item is there exactly if that one is its own. -/

namespace CalendarFeeds.Duration

open Text

-- ── The spelling of durations ────────────────────────────────────────────────────

/-- Weeks do not stand beside days and times. -/
def Unmixed (d : Duration) : Prop :=
  d.weeks = 0 ∨ d.days = 0 ∧ d.hours = 0 ∧ d.minutes = 0 ∧ d.seconds = 0

instance (d : Duration) : Decidable d.Unmixed :=
  inferInstanceAs (Decidable (_ ∨ _))

/-- A number in digits. -/
structure Numeral (n : UInt32) (s : List Char) : Prop where
  some_ : s ≠ []
  digits : ∀ c ∈ s, c.isDigit = true
  value : digitsValue s = n.toNat

/-- A number with its designator, or nothing at all for zero. -/
inductive Item (sign : List Char) (designator : Char) : UInt32 → List Char → Prop
  | absent : Item sign designator 0 []
  | present {n : UInt32} {ds : List Char} (number : Numeral n ds) :
      Item sign designator n (sign ++ ds ++ [designator])

/-- **THE SPELLINGS OF A DURATION** after the letter P, with a sign before the number of weeks or
    days. -/
inductive Spells (sign : List Char) : Duration → List Char → Prop
  | weeks {n : UInt32} {ds : List Char} (number : Numeral n ds) :
      Spells sign ⟨n, 0, 0, 0, 0⟩ (sign ++ ds ++ ['W'])
  | days {n : UInt32} {ds : List Char} (number : Numeral n ds) :
      Spells sign ⟨0, n, 0, 0, 0⟩ (sign ++ ds ++ ['D'])
  | timed {days hours minutes seconds : UInt32} {date h m s : List Char}
      (onDate : Item sign 'D' days date) (inHours : Item [] 'H' hours h)
      (inMinutes : Item [] 'M' minutes m) (inSeconds : Item [] 'S' seconds s)
      (some_ : h ++ (m ++ s) ≠ []) :
      Spells sign ⟨0, days, hours, minutes, seconds⟩ (date ++ 'T' :: (h ++ (m ++ s)))

/-- **THE TEXTS OF A DURATION**: blanks may stand around it and a plus sign before the P, and one of
    some signs before weeks or days. -/
def Written (signs : List (List Char)) (d : Duration) (s : String) : Prop :=
  ∃ before plus sign body after,
    (∀ c ∈ before, isBlank c = true) ∧ (∀ c ∈ after, isBlank c = true)
      ∧ plus ∈ optionalPlus ∧ sign ∈ signs ∧ Spells sign d body
      ∧ s.toList = before ++ (plus ++ 'P' :: body) ++ after

-- ── Numbers ──────────────────────────────────────────────────────────────────────

theorem toNat_le_maxField (n : UInt32) : n.toNat ≤ maxField :=
  Nat.le_of_lt_succ n.toNat_lt

theorem toNat_ofNat_of_le {n : Nat} (fits : n ≤ maxField) : (UInt32.ofNat n).toNat = n :=
  UInt32.toNat_ofNat_of_lt' (Nat.lt_succ_of_le fits)

namespace Numeral

variable {n : UInt32} {ds rest : List Char}

theorem takeWhile_append (h : Numeral n ds) {c : Char} (other : c.isDigit = false) :
    (ds ++ c :: rest).takeWhile Char.isDigit = ds := by
  rw [List.takeWhile_append_of_pos h.digits,
    List.takeWhile_cons_of_neg (by rw [other]; exact Bool.false_ne_true), List.append_nil]

theorem dropWhile_append (h : Numeral n ds) {c : Char} (other : c.isDigit = false) :
    (ds ++ c :: rest).dropWhile Char.isDigit = c :: rest := by
  rw [List.dropWhile_append_of_pos h.digits,
    List.dropWhile_cons_of_neg (by rw [other]; exact Bool.false_ne_true)]

theorem not_mem (h : Numeral n ds) {c : Char} (other : c.isDigit = false) : c ∉ ds := by
  intro hc
  rw [h.digits c hc] at other
  cases other

theorem natural?_eq (h : Numeral n ds) : natural? ds = some n.toNat :=
  natural?_eq_some_iff.mpr ⟨h.some_, h.digits, h.value⟩

/-- Digits read as a number that fits a field are a numeral of it. -/
theorem of_natural? {k : Nat} (read : natural? ds = some k) (fits : k ≤ maxField) :
    Numeral (UInt32.ofNat k) ds := by
  obtain ⟨some_, digits, value⟩ := natural?_eq_some_iff.mp read
  exact ⟨some_, digits, value.trans (toNat_ofNat_of_le fits).symm⟩

end Numeral

/-- Numbers of weeks and of days are read with a plus sign or without one. -/
theorem readNumber?_eq_some_iff {s : List Char} {n : UInt32} :
    readNumber? s = some n ↔ ∃ sign ∈ optionalPlus, ∃ ds, Numeral n ds ∧ s = sign ++ ds := by
  constructor
  · intro read
    obtain ⟨k, number, rfl⟩ := Option.map_eq_some_iff.mp read
    obtain ⟨v, natural, bounded⟩ := Option.bind_eq_some_iff.mp number
    obtain ⟨fits, same⟩ := Option.ite_none_right_eq_some.mp bounded
    cases same
    obtain ⟨sign, listed, split⟩ := exists_eq_append_dropPlus s
    exact ⟨sign, listed, _, .of_natural? natural fits, split⟩
  · rintro ⟨sign, listed, ds, number, rfl⟩
    have bare : ∀ rest, ds ≠ '+' :: rest := by
      rintro rest rfl
      exact number.not_mem (by decide) List.mem_cons_self
    rw [readNumber?, unsigned?, dropPlus_append listed bare, number.natural?_eq, Option.bind_some,
      if_pos (toNat_le_maxField n), Option.map_some, UInt32.ofNat_toNat]

-- ── Items ────────────────────────────────────────────────────────────────────────

/-- The designator that comes next in a text. -/
def next? (s : List Char) : Option Char :=
  (s.dropWhile Char.isDigit).head?

namespace Item

variable {designator : Char} {n : UInt32} {item : List Char}

/-- An item is absent, or its designator is the first letter after the digits. -/
theorem eq_nil_or_next? (h : Item [] designator n item) (letter : designator.isDigit = false)
    (rest : List Char) :
    item = [] ∨ next? (item ++ rest) = some designator := by
  cases h with
  | absent => exact .inl rfl
  | present number =>
      right
      rw [next?, List.nil_append, List.append_assoc, List.singleton_append,
        number.dropWhile_append letter]
      rfl

/-- An item is absent, or it ends in its designator. -/
theorem eq_nil_or_ends {sign : List Char} (h : Item sign designator n item) :
    item = [] ∨ ∃ front, item = front ++ [designator] := by
  cases h with
  | absent => exact .inl rfl
  | present number => exact .inr ⟨_, rfl⟩

/-- **TAKING AN ITEM OFF**: an item is taken off the front of a text, and so is an absent one if
    the designator that comes next is not its own. -/
theorem takeItem?_append (h : Item [] designator n item) (letter : designator.isDigit = false)
    {rest : List Char} (other : next? rest ≠ some designator) :
    takeItem? designator (item ++ rest) = some (n, rest) := by
  cases h with
  | absent =>
      simp only [takeItem?, List.nil_append]
      split
      · next c after here =>
          have differs : c ≠ designator := by
            rintro rfl
            exact other (congrArg List.head? here)
          rw [if_neg fun own => differs own.1]
      · rfl
  | @present _ ds number =>
      have front : (ds ++ designator :: rest).takeWhile Char.isDigit = ds :=
        number.takeWhile_append letter
      have back : (ds ++ designator :: rest).dropWhile Char.isDigit = designator :: rest :=
        number.dropWhile_append letter
      have fits : digitsValue ds ≤ maxField := number.value ▸ toNat_le_maxField n
      rw [List.nil_append, List.append_assoc, List.singleton_append]
      simp only [takeItem?, front, back]
      rw [if_pos ⟨trivial, number.some_⟩, if_pos fits, number.value, UInt32.ofNat_toNat]

/-- What is taken off is an item. -/
theorem of_takeItem? {s rest : List Char} (read : takeItem? designator s = some (n, rest)) :
    ∃ item, Item [] designator n item ∧ s = item ++ rest := by
  have none_ : (0, s) = (n, rest) → ∃ item, Item [] designator n item ∧ s = item ++ rest := by
    intro same
    cases same
    exact ⟨[], .absent, rfl⟩
  have split := List.takeWhile_append_dropWhile (p := Char.isDigit) (l := s)
  simp only [takeItem?] at read
  split at read
  · next c after here =>
      split_ifs at read with own fits
      · obtain ⟨rfl, some_⟩ := own
        cases read
        have digits : ∀ d ∈ s.takeWhile Char.isDigit, d.isDigit = true :=
          List.all_eq_true.mp List.all_takeWhile
        refine ⟨_, .present ⟨some_, digits, (toNat_ofNat_of_le fits).symm⟩, ?_⟩
        rw [here] at split
        rw [List.nil_append, List.append_assoc, List.singleton_append, split]
      · exact none_ (Option.some.inj read)
  · exact none_ (Option.some.inj read)

end Item

-- ── The time part ────────────────────────────────────────────────────────────────

/-- The time part is read exactly when it is hours, minutes and seconds in this order, not all
    absent. -/
theorem readTime?_eq_some_iff {days : UInt32} {s : List Char} {d : Duration} :
    readTime? days s = some d
      ↔ ∃ hours minutes seconds h m l, Item [] 'H' hours h ∧ Item [] 'M' minutes m
          ∧ Item [] 'S' seconds l ∧ s = h ++ (m ++ l) ∧ s ≠ []
          ∧ d = ⟨0, days, hours, minutes, seconds⟩ := by
  constructor
  · intro read
    simp only [readTime?] at read
    split_ifs at read with empty
    split at read
    · cases read
    · next hours afterHours first =>
        split at read
        · cases read
        · next minutes afterMinutes second =>
            split at read
            · next seconds third =>
                cases read
                obtain ⟨h, inHours, rfl⟩ := Item.of_takeItem? first
                obtain ⟨m, inMinutes, rfl⟩ := Item.of_takeItem? second
                obtain ⟨l, inSeconds, rfl⟩ := Item.of_takeItem? third
                rw [List.append_nil] at empty ⊢
                exact ⟨_, _, _, h, m, l, inHours, inMinutes, inSeconds, rfl, empty, rfl⟩
            · cases read
  · rintro ⟨hours, minutes, seconds, h, m, l, inHours, inMinutes, inSeconds, rfl, some_, rfl⟩
    have nothing : next? [] = none := rfl
    have last : next? l ≠ some 'M' ∧ next? l ≠ some 'H' := by
      rcases inSeconds.eq_nil_or_next? (by decide) [] with rfl | here
      · simp [nothing]
      · rw [List.append_nil] at here
        simp [here]
    have middle : next? (m ++ l) ≠ some 'H' := by
      rcases inMinutes.eq_nil_or_next? (by decide) l with rfl | here
      · exact last.2
      · simp [here]
    have third : takeItem? 'S' l = some (seconds, []) := by
      have other : next? [] ≠ some 'S' := by simp [nothing]
      have taken := inSeconds.takeItem?_append (by decide) other
      rwa [List.append_nil] at taken
    simp only [readTime?]
    rw [if_neg some_, inHours.takeItem?_append (by decide) middle]
    simp only
    rw [inMinutes.takeItem?_append (by decide) last.1]
    simp only
    rw [third]

/-- The items of a time part end with one of their designators. -/
theorem ends_of_items {hours minutes seconds : UInt32} {h m l : List Char}
    (inHours : Item [] 'H' hours h) (inMinutes : Item [] 'M' minutes m)
    (inSeconds : Item [] 'S' seconds l) (some_ : h ++ (m ++ l) ≠ []) :
    ∃ front c, c ∈ ['H', 'M', 'S'] ∧ h ++ (m ++ l) = front ++ [c] := by
  rcases inSeconds.eq_nil_or_ends with rfl | ⟨front, rfl⟩
  · rcases inMinutes.eq_nil_or_ends with rfl | ⟨front, rfl⟩
    · rcases inHours.eq_nil_or_ends with rfl | ⟨front, rfl⟩
      · exact absurd rfl some_
      · exact ⟨front, 'H', by decide, by simp⟩
    · exact ⟨h ++ front, 'M', by decide, by simp⟩
  · exact ⟨h ++ (m ++ front), 'S', by decide, by simp⟩

-- ── Days and a time part ─────────────────────────────────────────────────────────

/-- Days are read from an item whose digits may carry a plus sign. -/
theorem readDays?_eq_some_iff {s : List Char} {n : UInt32} :
    readDays? s = some n ↔ ∃ sign ∈ optionalPlus, Item sign 'D' n s := by
  constructor
  · intro read
    simp only [readDays?] at read
    split_ifs at read with empty
    · cases read
      rw [empty]
      exact ⟨[], by decide, .absent⟩
    · split at read
      · next number reversed =>
          obtain ⟨sign, listed, ds, numeral, split⟩ := readNumber?_eq_some_iff.mp read
          have back := congrArg List.reverse reversed
          rw [List.reverse_reverse, List.reverse_cons, split] at back
          rw [back]
          exact ⟨sign, listed, .present numeral⟩
      · cases read
  · rintro ⟨sign, listed, item⟩
    cases item with
    | absent => rfl
    | @present _ ds number =>
        have read := readNumber?_eq_some_iff.mpr ⟨sign, listed, ds, number, rfl⟩
        have some_ : sign ++ ds ++ ['D'] ≠ [] := by simp
        simp only [readDays?]
        rw [if_neg some_, List.reverse_append, List.reverse_singleton, List.singleton_append]
        simp only [List.reverse_reverse]
        exact read

/-- The letter T ends the date part. -/
theorem Item.ne_timeLetter {sign item : List Char} {n : UInt32} (listed : sign ∈ optionalPlus)
    (h : Item sign 'D' n item) : ∀ c ∈ item, (c != 'T') = true := by
  cases h with
  | absent =>
      intro c hc
      cases hc
  | present number =>
      intro c hc
      simp only [List.mem_append, List.mem_singleton] at hc
      rcases hc with (first | digit) | rfl
      · rcases mem_optionalPlus.mp listed with rfl | rfl
        · cases first
        · rw [List.mem_singleton.mp first]
          rfl
      · rw [bne_iff_ne]
        rintro rfl
        exact number.not_mem (by decide) digit
      · decide

/-- A text without a time part is its days. -/
theorem readDaysAndTime?_date {sign item : List Char} {n : UInt32} (listed : sign ∈ optionalPlus)
    (h : Item sign 'D' n item) : readDaysAndTime? item = some ⟨0, n, 0, 0, 0⟩ := by
  have date := h.ne_timeLetter listed
  simp only [readDaysAndTime?]
  rw [List.takeWhile_eq_self_iff.mpr date, List.dropWhile_eq_nil_iff.mpr date,
    readDays?_eq_some_iff.mpr ⟨sign, listed, h⟩]
  rfl

/-- What follows the T is the time part, after days that may be absent. -/
theorem readDaysAndTime?_timed {sign item time : List Char} {n : UInt32}
    (listed : sign ∈ optionalPlus) (h : Item sign 'D' n item) :
    readDaysAndTime? (item ++ 'T' :: time) = readTime? n time := by
  have date := h.ne_timeLetter listed
  simp only [readDaysAndTime?]
  rw [List.takeWhile_append_of_pos date, List.dropWhile_append_of_pos date,
    List.takeWhile_cons_of_neg (by decide), List.dropWhile_cons_of_neg (by decide),
    List.append_nil, readDays?_eq_some_iff.mpr ⟨sign, listed, h⟩]

/-- Days and a time are read from a spelling of them alone, with or without a plus sign. -/
theorem spells_of_readDaysAndTime? {s : List Char} {d : Duration} (some_ : s ≠ [])
    (read : readDaysAndTime? s = some d) : ∃ sign ∈ optionalPlus, Spells sign d s := by
  have split := List.takeWhile_append_dropWhile (p := (· != 'T')) (l := s)
  simp only [readDaysAndTime?] at read
  split at read
  · next days onDate ended =>
      cases read
      obtain ⟨sign, listed, item⟩ := readDays?_eq_some_iff.mp onDate
      rw [ended, List.append_nil] at split
      rw [split] at item
      cases item with
      | absent => exact absurd rfl some_
      | present number => exact ⟨sign, listed, .days number⟩
  · next days c time onDate rest =>
      obtain ⟨sign, listed, item⟩ := readDays?_eq_some_iff.mp onDate
      obtain ⟨hours, minutes, seconds, h, m, l, inHours, inMinutes, inSeconds, rfl, more, rfl⟩ :=
        readTime?_eq_some_iff.mp read
      have letter : c = 'T' := by
        have stops := List.head?_dropWhile_not (· != 'T') s
        rw [rest] at stops
        simpa using stops
      rw [rest, letter] at split
      rw [← split]
      exact ⟨sign, listed, .timed item inHours inMinutes inSeconds more⟩
  · cases read

-- ── The part after the letter P ──────────────────────────────────────────────────

/-- A body that ends in W is a number of weeks. -/
theorem readBody?_weeks (number : List Char) :
    readBody? (number ++ ['W']) = (readNumber? number).map fun n => { zero with weeks := n } := by
  have reversed : (number ++ ['W']).reverse = 'W' :: number.reverse := by simp
  simp only [readBody?, reversed, List.reverse_reverse]

theorem readBody?_other {front : List Char} {c : Char} (other : c ≠ 'W') :
    readBody? (front ++ [c]) = readDaysAndTime? (front ++ [c]) := by
  have reversed : (front ++ [c]).reverse = c :: front.reverse := by simp
  simp only [readBody?, reversed]
  split
  · next here => cases here
  · next here =>
      cases here
      exact absurd rfl other
  · rfl

/-- **WHAT IS READ AFTER THE P**: every spelling, with a plus sign or none before the number of
    weeks or days. -/
theorem readBody?_eq_some_iff {s : List Char} {d : Duration} :
    readBody? s = some d ↔ ∃ sign ∈ optionalPlus, Spells sign d s := by
  constructor
  · intro read
    by_cases empty : s = []
    · rw [empty] at read
      cases read
    · obtain ⟨front, c, rfl⟩ : ∃ front c, s = front ++ [c] :=
        ⟨_, _, (List.dropLast_append_getLast empty).symm⟩
      by_cases letter : c = 'W'
      · rw [letter, readBody?_weeks] at read
        obtain ⟨n, value, rfl⟩ := Option.map_eq_some_iff.mp read
        obtain ⟨sign, listed, ds, number, rfl⟩ := readNumber?_eq_some_iff.mp value
        rw [letter]
        exact ⟨sign, listed, .weeks number⟩
      · rw [readBody?_other letter] at read
        exact spells_of_readDaysAndTime? empty read
  · rintro ⟨sign, listed, spelled⟩
    cases spelled with
    | @weeks n ds number =>
        have value := readNumber?_eq_some_iff.mpr ⟨sign, listed, ds, number, rfl⟩
        rw [readBody?_weeks, value]
        rfl
    | days number =>
        rw [readBody?_other (by decide)]
        exact readDaysAndTime?_date listed (.present number)
    | @timed _ _ _ _ date h m l onDate inHours inMinutes inSeconds some_ =>
        obtain ⟨front, c, letter, last⟩ := ends_of_items inHours inMinutes inSeconds some_
        have other : c ≠ 'W' := by
          rintro rfl
          exact absurd letter (by decide)
        have split : date ++ 'T' :: (h ++ (m ++ l)) = (date ++ 'T' :: front) ++ [c] := by
          simp [last]
        rw [split, readBody?_other other, ← split, readDaysAndTime?_timed listed onDate]
        exact readTime?_eq_some_iff.mpr
          ⟨_, _, _, h, m, l, inHours, inMinutes, inSeconds, rfl, some_, rfl⟩

/-- No spelling has weeks beside other fields. -/
theorem Spells.unmixed {sign s : List Char} {d : Duration} (h : Spells sign d s) : d.Unmixed := by
  cases h with
  | weeks _ => exact .inr ⟨rfl, rfl, rfl, rfl⟩
  | days _ => exact .inl rfl
  | timed _ _ _ _ _ => exact .inl rfl

/-- A spelling ends with a designator. -/
theorem Spells.ends {sign s : List Char} {d : Duration} (h : Spells sign d s) :
    ∃ front c, c ∈ ['W', 'D', 'H', 'M', 'S'] ∧ s = front ++ [c] := by
  cases h with
  | weeks _ => exact ⟨_, 'W', by decide, rfl⟩
  | days _ => exact ⟨_, 'D', by decide, rfl⟩
  | @timed _ _ _ _ date _ _ _ _ inHours inMinutes inSeconds some_ =>
      obtain ⟨front, c, letter, last⟩ := ends_of_items inHours inMinutes inSeconds some_
      refine ⟨date ++ 'T' :: front, c, ?_, by simp [last]⟩
      exact List.mem_cons_of_mem _ (List.mem_cons_of_mem _ letter)

theorem Item.not_plus_mem {designator : Char} {n : UInt32} {item : List Char}
    (h : Item [] designator n item) (other : designator ≠ '+') : '+' ∉ item := by
  cases h with
  | absent => exact List.not_mem_nil
  | present number =>
      simp only [List.nil_append, List.mem_append, List.mem_singleton, not_or]
      exact ⟨number.not_mem (by decide), other.symm⟩

/-- A spelling without a sign has no plus sign anywhere. -/
theorem Spells.not_plus_mem {s : List Char} {d : Duration} (h : Spells [] d s) : '+' ∉ s := by
  cases h with
  | weeks number => exact Item.not_plus_mem (.present number) (by decide)
  | days number => exact Item.not_plus_mem (.present number) (by decide)
  | timed onDate inHours inMinutes inSeconds _ =>
      simp only [List.mem_append, List.mem_cons, not_or]
      exact ⟨onDate.not_plus_mem (by decide), by decide,
        inHours.not_plus_mem (by decide), inMinutes.not_plus_mem (by decide),
        inSeconds.not_plus_mem (by decide)⟩

-- ── Whole texts ──────────────────────────────────────────────────────────────────

/-- Without its blanks a text is a spelling after the P. -/
theorem Written.trim_eq {signs : List (List Char)} {d : Duration} {s : String}
    (h : Written signs d s) :
    ∃ plus ∈ optionalPlus, ∃ sign ∈ signs, ∃ body,
      Spells sign d body ∧ trim s.toList = plus ++ 'P' :: body := by
  obtain ⟨before, plus, sign, body, after, leading, trailing, signed, listed, spelled, parts⟩ := h
  refine ⟨plus, signed, sign, listed, body, spelled, ?_⟩
  obtain ⟨front, last, letter, rfl⟩ := spelled.ends
  have shown : isBlank last = false := by
    have letters : (['W', 'D', 'H', 'M', 'S'].all fun c => !isBlank c) = true := by decide
    simpa using List.all_eq_true.mp letters last letter
  have ends : (plus ++ 'P' :: (front ++ [last])).getLast? = some last := by
    rw [← List.cons_append, ← List.append_assoc, List.getLast?_concat]
  rw [parts]
  rcases mem_optionalPlus.mp signed with rfl | rfl
  · exact trim_append leading trailing rfl ends (by decide) shown
  · exact trim_append leading trailing rfl ends (by decide) shown

/-- **THE TEXTS THAT ARE READ** are those of a duration, where weeks and days may have a plus
    sign. -/
theorem ofText?_eq_some_iff {s : String} {d : Duration} :
    ofText? s = some d ↔ Written optionalPlus d s := by
  constructor
  · intro read
    obtain ⟨before, after, leading, trailing, parts⟩ := exists_eq_append_trim s.toList
    obtain ⟨plus, signed, split⟩ := exists_eq_append_dropPlus (trim s.toList)
    simp only [ofText?] at read
    split at read
    · next body letter =>
        obtain ⟨sign, listed, spelled⟩ := readBody?_eq_some_iff.mp read
        rw [letter] at split
        rw [split] at parts
        exact ⟨before, plus, sign, body, after, leading, trailing, signed, listed, spelled, parts⟩
    · cases read
  · intro written
    obtain ⟨plus, signed, sign, listed, body, spelled, core⟩ := written.trim_eq
    have letter : dropPlus (plus ++ 'P' :: body) = 'P' :: body :=
      dropPlus_append signed fun rest same => by cases same
    simp only [ofText?, core, letter]
    exact readBody?_eq_some_iff.mpr ⟨sign, listed, spelled⟩

/-- **READING A DURATION**: its texts give its fields, and every other text is named in the
    error. -/
theorem read_written (s : String) :
    (∀ d, read s = .ok d ↔ Written optionalPlus d s)
      ∧ ∀ wording, read s = .error wording
        ↔ (∀ d, ¬ Written optionalPlus d s) ∧ wording = "invalid duration '" ++ s ++ "'" := by
  constructor
  · intro d
    rw [read_eq_ok_iff, ofText?_eq_some_iff]
  · intro wording
    rw [read_eq_error_iff, Option.eq_none_iff_forall_ne_some]
    exact and_congr_left' (forall_congr' fun d => not_congr ofText?_eq_some_iff)

/-- A plus sign before the number of weeks is read over, though no duration is spelled so. -/
theorem read_plus_weeks :
    read "P+2W" = .ok ⟨2, 0, 0, 0, 0⟩ ∧ ∀ d, ¬ Written [[]] d "P+2W" := by
  refine ⟨by decide +kernel, fun d written => ?_⟩
  obtain ⟨plus, signed, sign, listed, body, spelled, core⟩ := written.trim_eq
  have shown : trim "P+2W".toList = ['P', '+', '2', 'W'] := by decide +kernel
  rw [shown] at core
  cases List.mem_singleton.mp listed
  rcases mem_optionalPlus.mp signed with rfl | rfl
  · cases core
    exact spelled.not_plus_mem List.mem_cons_self
  · cases core

-- ── Printed durations ────────────────────────────────────────────────────────────

/-- The digits that are written are a numeral. -/
theorem numeral_digits (n : UInt32) : Numeral n (digits n.toNat) :=
  ⟨digits_ne_nil _, fun _ hc => isDigit_of_mem_digits hc, digitsValue_digits _⟩

/-- A printed item is an item. -/
theorem item_item (n : UInt32) {designator : String} {c : Char} (one : designator.toList = [c]) :
    Item [] c n (item n designator).toList := by
  simp only [item]
  split_ifs with zero
  · rw [zero]
    exact .absent
  · rw [String.toList_append, natural, String.toList_ofList, one]
    exact .present (numeral_digits n)

/-- An item that is not zero is its digits and its designator. -/
theorem toList_item {n : UInt32} (some_ : n ≠ 0) (designator : String) :
    (item n designator).toList = digits n.toNat ++ designator.toList := by
  rw [item, if_neg some_, String.toList_append, natural, String.toList_ofList]

theorem eq_zero_of_item {n : UInt32} {designator : String}
    (empty : (item n designator).toList = []) : n = 0 := by
  by_contra some_
  rw [toList_item some_] at empty
  exact digits_ne_nil _ (List.append_eq_nil_iff.mp empty).1

/-- What is printed after the T: the items of a time of day, those of them that are not zero. -/
theorem toList_time (hours minutes seconds : UInt32) :
    (item hours "H" ++ item minutes "M" ++ item seconds "S").toList
      = (item hours "H").toList ++ ((item minutes "M").toList ++ (item seconds "S").toList) := by
  rw [String.toList_append, String.toList_append, List.append_assoc]

/-- The time part is left out exactly when it has nothing to say. -/
theorem time_eq_empty_iff {hours minutes seconds : UInt32} :
    item hours "H" ++ item minutes "M" ++ item seconds "S" = ""
      ↔ hours = 0 ∧ minutes = 0 ∧ seconds = 0 := by
  constructor
  · intro empty
    have nothing := toList_time hours minutes seconds
    rw [empty] at nothing
    obtain ⟨noHours, rest⟩ := List.append_eq_nil_iff.mp nothing.symm
    obtain ⟨noMinutes, noSeconds⟩ := List.append_eq_nil_iff.mp rest
    exact ⟨eq_zero_of_item noHours, eq_zero_of_item noMinutes, eq_zero_of_item noSeconds⟩
  · rintro ⟨rfl, rfl, rfl⟩
    rfl

theorem exists_spells_weeks {weeks : UInt32} (some_ : weeks ≠ 0) :
    ∃ body, (text ⟨weeks, 0, 0, 0, 0⟩).toList = 'P' :: body
      ∧ Spells [] ⟨weeks, 0, 0, 0, 0⟩ body := by
  refine ⟨digits weeks.toNat ++ ['W'], ?_, .weeks (numeral_digits weeks)⟩
  simp only [text]
  rw [if_pos some_, String.toList_append, toList_item some_]
  rfl

/-- Only no duration at all is printed with an item of zero. -/
theorem exists_spells_days (days : UInt32) :
    ∃ body, (text ⟨0, days, 0, 0, 0⟩).toList = 'P' :: body
      ∧ Spells [] ⟨0, days, 0, 0, 0⟩ body := by
  by_cases none_ : days = 0
  · have nought : Numeral 0 ['0'] :=
      ⟨List.cons_ne_nil _ _, List.forall_mem_singleton.mpr rfl, rfl⟩
    rw [none_]
    exact ⟨['0', 'D'], by decide, .days nought⟩
  · refine ⟨digits days.toNat ++ ['D'], ?_, .days (numeral_digits days)⟩
    have timeless : ¬ item 0 "H" ++ item 0 "M" ++ item 0 "S" ≠ "" :=
      not_not.mpr (time_eq_empty_iff.mpr ⟨rfl, rfl, rfl⟩)
    simp only [text]
    rw [if_neg (not_not.mpr rfl), if_neg timeless, if_neg none_, String.toList_append,
      toList_item none_]
    rfl

theorem exists_spells_timed (days : UInt32) {hours minutes seconds : UInt32}
    (timed : ¬ (hours = 0 ∧ minutes = 0 ∧ seconds = 0)) :
    ∃ body, (text ⟨0, days, hours, minutes, seconds⟩).toList = 'P' :: body
      ∧ Spells [] ⟨0, days, hours, minutes, seconds⟩ body := by
  have onDate : Item [] 'D' days (item days "D").toList := item_item days rfl
  have inHours : Item [] 'H' hours (item hours "H").toList := item_item hours rfl
  have inMinutes : Item [] 'M' minutes (item minutes "M").toList := item_item minutes rfl
  have inSeconds : Item [] 'S' seconds (item seconds "S").toList := item_item seconds rfl
  rw [← time_eq_empty_iff] at timed
  refine ⟨_, ?_, .timed onDate inHours inMinutes inSeconds fun empty => timed ?_⟩
  · simp only [text]
    rw [if_neg (not_not.mpr rfl), if_pos timed]
    simp only [String.toList_append, List.append_assoc]
    rfl
  · exact String.toList_injective ((toList_time hours minutes seconds).trans empty)

/-- A printed duration is a spelling, unless it has weeks and more than weeks. -/
theorem exists_spells_text {d : Duration} (unmixed : d.Unmixed) :
    ∃ body, d.text.toList = 'P' :: body ∧ Spells [] d body := by
  obtain ⟨weeks, days, hours, minutes, seconds⟩ := d
  by_cases inWeeks : weeks = 0
  · subst inWeeks
    by_cases timed : hours = 0 ∧ minutes = 0 ∧ seconds = 0
    · obtain ⟨rfl, rfl, rfl⟩ := timed
      exact exists_spells_days days
    · exact exists_spells_timed days timed
  · obtain ⟨rfl, rfl, rfl, rfl⟩ : days = 0 ∧ hours = 0 ∧ minutes = 0 ∧ seconds = 0 :=
      unmixed.resolve_left inWeeks
    exact exists_spells_weeks inWeeks

/-- **A PRINTED DURATION READS BACK** if weeks do not stand beside days and times. -/
theorem ofText?_text {d : Duration} (unmixed : d.Unmixed) : ofText? d.text = some d := by
  obtain ⟨body, printed, spelled⟩ := exists_spells_text unmixed
  refine ofText?_eq_some_iff.mpr ⟨[], [], [], body, [], List.forall_mem_nil _,
    List.forall_mem_nil _, List.mem_cons_self, List.mem_cons_self, spelled, ?_⟩
  rw [printed, List.append_nil, List.nil_append, List.nil_append]

end CalendarFeeds.Duration
