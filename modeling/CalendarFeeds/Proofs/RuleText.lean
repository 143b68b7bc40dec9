import CalendarFeeds.Rule.Basic
import CalendarFeeds.Proofs.Escapes
import CalendarFeeds.Proofs.Numerals
import CalendarFeeds.Proofs.Outcome

/-! # Rule texts — every rule can be read back

    The text of a rule is a row of entries between semicolons, each a key, an equals sign and
    values between commas.  Values are letters and digits, so every separator in the text is one
    that was written as a separator, and splitting there finds the entries.  A list that is left
    out because it is empty reads as an empty list, and no list that is written is empty; in a
    day term the digits of the ordinal end where the letters of the weekday begin.

    The reader knows an entry by its key alone and takes ordinals and months of any size, so what
    it shows is about all rules, those too that no calendar accepts. -/

namespace CalendarFeeds

open Text

-- ── The reader ───────────────────────────────────────────────────────────────────

/-- The frequency that a word stands for. -/
def Frequency.ofWord? (word : List Char) : Option Frequency :=
  [weekly, monthly, yearly].find? fun f => f.word.toList == word

/-- The weekday that a code stands for. -/
def Weekday.ofCode? (code : List Char) : Option Weekday :=
  all.find? fun w => w.code.toList == code

/-- Reads a day term: the digits of an ordinal, if there are any, and the code of a weekday. -/
def DayTerm.read? (s : List Char) : Option DayTerm :=
  (Weekday.ofCode? (s.dropWhile Char.isDigit)).map fun w =>
    ⟨natural? (s.takeWhile Char.isDigit), w⟩

namespace Rule

/-- A key with its values. -/
abbrev Entry := List Char × List (List Char)

/-- Reads an entry: what stands before the equals sign, and what stands between commas after it. -/
def readEntry (s : List Char) : Entry :=
  (s.takeWhile (· != '='), ((s.dropWhile (· != '=')).drop 1).splitOn ',')

/-- The values of a key, none if no entry has it. -/
def valuesOf (key : String) (entries : List Entry) : List (List Char) :=
  (entries.lookup key.toList).getD []

def ofEntries? (entries : List Entry) : Option Rule := do
  let frequency ← (valuesOf "FREQ" entries).head?.bind Frequency.ofWord?
  let days ← (valuesOf "BYDAY" entries).mapM DayTerm.read?
  let months ← (valuesOf "BYMONTH" entries).mapM natural?
  return ⟨frequency, days, months⟩

/-- Reads the text of a rule. -/
def read? (s : List Char) : Option Rule :=
  ofEntries? ((s.splitOn ';').map readEntry)

end Rule

-- ── Values ───────────────────────────────────────────────────────────────────────

/-- A value of an entry: letters and digits alone. -/
def IsRuleValue (s : List Char) : Prop :=
  ∀ c ∈ s, c.isAlphanum = true

/-- No separator stands inside a value. -/
theorem IsRuleValue.not_mem {s : List Char} (h : IsRuleValue s) {separator : Char}
    (other : separator.isAlphanum = false) : separator ∉ s := by
  intro here
  rw [h separator here] at other
  cases other

/-- A number is a value of the rule's text. -/
theorem isRuleValue_digits (n : Nat) : IsRuleValue (digits n) := by
  intro c hc
  rw [Char.isAlphanum, isDigit_of_mem_digits hc, Bool.or_true]

theorem Frequency.isRuleValue_word (f : Frequency) : IsRuleValue f.word.toList := by
  have each : (f.word.toList.all Char.isAlphanum) = true := by cases f <;> rfl
  exact List.all_eq_true.mp each

theorem Weekday.isRuleValue_code (w : Weekday) : IsRuleValue w.code.toList := by
  have each : (w.code.toList.all Char.isAlphanum) = true := by cases w <;> rfl
  exact List.all_eq_true.mp each

/-- What stands before the weekday of a day term. -/
def DayTerm.ordinalDigits (t : DayTerm) : List Char :=
  match t.ordinal with
  | none => []
  | some n => digits n

theorem DayTerm.isDigit_of_mem_ordinalDigits {t : DayTerm} {c : Char}
    (h : c ∈ t.ordinalDigits) : c.isDigit = true := by
  simp only [ordinalDigits] at h
  split at h
  · cases h
  · exact isDigit_of_mem_digits h

/-- The digits in front of a weekday are read as its ordinal, and none as no ordinal. -/
theorem DayTerm.natural?_ordinalDigits (t : DayTerm) : natural? t.ordinalDigits = t.ordinal := by
  simp only [ordinalDigits]
  split
  · next none_ => exact none_.symm
  · next n some_ => rw [some_, natural?_digits]

/-- A day term is its ordinal's digits and the weekday's code. -/
theorem DayTerm.toList_text (t : DayTerm) :
    t.text.toList = t.ordinalDigits ++ t.weekday.code.toList := by
  obtain ⟨ordinal, weekday⟩ := t
  cases ordinal with
  | none => rfl
  | some n =>
      show (natural n ++ weekday.code).toList = digits n ++ weekday.code.toList
      rw [String.toList_append, natural, String.toList_ofList]

theorem DayTerm.isRuleValue_text (t : DayTerm) : IsRuleValue t.text.toList := by
  intro c hc
  rw [t.toList_text] at hc
  rcases List.mem_append.mp hc with digit | letter
  · rw [Char.isAlphanum, isDigit_of_mem_ordinalDigits digit, Bool.or_true]
  · exact t.weekday.isRuleValue_code c letter

theorem Frequency.ofWord?_word (f : Frequency) : ofWord? f.word.toList = some f := by
  cases f <;> rfl

theorem Weekday.ofCode?_code (w : Weekday) : ofCode? w.code.toList = some w := by
  cases w <;> rfl

/-- The letters of a weekday end the digits before them. -/
theorem Weekday.span_digits_code {ds : List Char} (each : ∀ c ∈ ds, c.isDigit = true)
    (w : Weekday) :
    (ds ++ w.code.toList).takeWhile Char.isDigit = ds
      ∧ (ds ++ w.code.toList).dropWhile Char.isDigit = w.code.toList := by
  have none_ : w.code.toList.takeWhile Char.isDigit = []
      ∧ w.code.toList.dropWhile Char.isDigit = w.code.toList := by
    cases w <;> exact ⟨rfl, rfl⟩
  obtain ⟨taken, dropped⟩ := none_
  constructor
  · rw [List.takeWhile_append_of_pos each, taken, List.append_nil]
  · rw [List.dropWhile_append_of_pos each, dropped]

/-- **A DAY TERM COMES BACK**, with its ordinal or without. -/
theorem DayTerm.read?_text (t : DayTerm) : read? t.text.toList = some t := by
  obtain ⟨taken, dropped⟩ :=
    t.weekday.span_digits_code fun _ here => isDigit_of_mem_ordinalDigits here
  rw [read?, t.toList_text, taken, dropped, t.weekday.ofCode?_code, t.natural?_ordinalDigits]
  rfl

-- ── Entries ──────────────────────────────────────────────────────────────────────

namespace Rule

/-- What reads as it is written: a key with one value or more, all of letters and digits. -/
structure IsEntry (e : Entry) : Prop where
  key : IsRuleValue e.1
  some_ : e.2 ≠ []
  values : ∀ v ∈ e.2, IsRuleValue v

/-- The text of an entry. -/
def writeEntry (e : Entry) : List Char :=
  e.1 ++ '=' :: List.intercalate [','] e.2

/-- The entry of a list, unless it is empty. -/
def listEntry (key : String) (values : List (List Char)) : List Entry :=
  if values = [] then [] else [(key.toList, values)]

/-- The entries of a rule. -/
def entries (r : Rule) : List Entry :=
  ("FREQ".toList, [r.frequency.word.toList])
    :: (listEntry "BYDAY" (r.days.map fun t => t.text.toList)
      ++ listEntry "BYMONTH" (r.months.map digits))

/-- An entry is read back from its text. -/
theorem readEntry_writeEntry {e : Entry} (h : IsEntry e) : readEntry (writeEntry e) = e := by
  have before : ∀ c ∈ e.1, (c != '=') = true := by
    intro c hc
    refine bne_iff_ne.mpr ?_
    rintro rfl
    exact h.key.not_mem rfl hc
  have values : (List.intercalate [','] e.2).splitOn ',' = e.2 :=
    List.splitOn_intercalate ',' (fun v hv => (h.values v hv).not_mem rfl) h.some_
  have key : (writeEntry e).takeWhile (· != '=') = e.1 := by
    rw [writeEntry, List.takeWhile_append_of_pos before, List.takeWhile_cons_of_neg (by simp),
      List.append_nil]
  have after : (writeEntry e).dropWhile (· != '=') = '=' :: List.intercalate [','] e.2 := by
    rw [writeEntry, List.dropWhile_append_of_pos before, List.dropWhile_cons_of_neg (by simp)]
  rw [readEntry, key, after]
  show (e.1, (List.intercalate [','] e.2).splitOn ',') = e
  rw [values]

/-- The separator of entries is in none of them. -/
theorem IsEntry.semicolon_not_mem {e : Entry} (h : IsEntry e) : ';' ∉ writeEntry e := by
  intro here
  rcases List.mem_append.mp here with inKey | after
  · exact h.key.not_mem rfl inKey
  rcases List.mem_cons.mp after with equals | inValues
  · cases equals
  rcases ICalendar.mem_joinComma inValues with comma | ⟨v, hv, inValue⟩
  · cases comma
  · exact (h.values v hv).not_mem rfl inValue

/-- A list of values is an entry when each of them is a value. -/
theorem isEntry_of_mem_listEntry {key : String} {values : List (List Char)} {e : Entry}
    (named : IsRuleValue key.toList) (each : ∀ v ∈ values, IsRuleValue v)
    (h : e ∈ listEntry key values) : IsEntry e := by
  simp only [listEntry] at h
  split at h
  · cases h
  · next some_ =>
      obtain rfl := List.mem_singleton.mp h
      exact ⟨named, some_, each⟩

/-- Every part of a rule's text is an entry. -/
theorem isEntry_of_mem_entries {r : Rule} {e : Entry} (h : e ∈ r.entries) : IsEntry e := by
  rcases List.mem_cons.mp h with rfl | listed
  · refine ⟨List.all_eq_true.mp rfl, List.cons_ne_nil _ _, fun v hv => ?_⟩
    rw [List.mem_singleton.mp hv]
    exact r.frequency.isRuleValue_word
  rcases List.mem_append.mp listed with inDays | inMonths
  · refine isEntry_of_mem_listEntry (List.all_eq_true.mp rfl) (fun v hv => ?_) inDays
    obtain ⟨t, -, rfl⟩ := List.mem_map.mp hv
    exact t.isRuleValue_text
  · refine isEntry_of_mem_listEntry (List.all_eq_true.mp rfl) (fun v hv => ?_) inMonths
    obtain ⟨n, -, rfl⟩ := List.mem_map.mp hv
    exact isRuleValue_digits n

/-- A part of a rule's text is the text of its entry after a semicolon, if it has one. -/
theorem toList_part (key : String) {mark : String}
    (spelled : mark.toList = ';' :: key.toList ++ ['=']) (values : List String) :
    (part mark values).toList
      = (listEntry key (values.map String.toList)).flatMap fun e => ';' :: writeEntry e := by
  cases values with
  | nil => rfl
  | cons v values =>
      show (mark ++ String.intercalate "," (v :: values)).toList
        = [(key.toList, (v :: values).map String.toList)].flatMap fun e => ';' :: writeEntry e
      rw [List.flatMap_singleton, writeEntry, String.toList_append, String.toList_intercalate,
        spelled, List.append_assoc]
      rfl

/-- **THE TEXT OF A RULE** is the texts of its entries between semicolons. -/
theorem toList_text (r : Rule) :
    r.text.toList = List.intercalate [';'] (r.entries.map writeEntry) := by
  have days : (part ";BYDAY=" (r.days.map DayTerm.text)).toList
      = (listEntry "BYDAY" (r.days.map fun t => t.text.toList)).flatMap
          fun e => ';' :: writeEntry e := by
    rw [toList_part "BYDAY" rfl, List.map_map]
    rfl
  have months : (part ";BYMONTH=" (r.months.map natural)).toList
      = (listEntry "BYMONTH" (r.months.map digits)).flatMap fun e => ';' :: writeEntry e := by
    have numerals : (r.months.map natural).map String.toList = r.months.map digits := by
      rw [List.map_map]
      exact List.map_congr_left fun n _ => String.toList_ofList
    rw [toList_part "BYMONTH" rfl, numerals]
  have first : writeEntry ("FREQ".toList, [r.frequency.word.toList])
      = ("FREQ=" ++ r.frequency.word).toList := by
    rw [writeEntry, List.intercalate_singleton, String.toList_append]
    rfl
  rw [entries, List.map_cons, intercalate_cons, first, List.flatMap_map, List.flatMap_append,
    ← days, ← months, text, String.toList_append, String.toList_append, List.append_assoc]

/-- The values of a list are found under its key, whether its entry was left out or not. -/
theorem valuesOf_entries (r : Rule) :
    valuesOf "FREQ" r.entries = [r.frequency.word.toList]
      ∧ valuesOf "BYDAY" r.entries = r.days.map (fun t => t.text.toList)
      ∧ valuesOf "BYMONTH" r.entries = r.months.map digits := by
  simp only [valuesOf, entries, listEntry]
  refine ⟨rfl, ?_, ?_⟩
  · cases r.days with
    | nil => cases r.months <;> rfl
    | cons t days => rfl
  · cases r.days <;> cases r.months <;> rfl

/-- Cutting a rule's text at its semicolons gives its entries. -/
theorem map_readEntry_splitOn_text (r : Rule) :
    (r.text.toList.splitOn ';').map readEntry = r.entries := by
  have apart : ∀ s ∈ r.entries.map writeEntry, ';' ∉ s := by
    intro s hs
    obtain ⟨e, he, rfl⟩ := List.mem_map.mp hs
    exact (isEntry_of_mem_entries he).semicolon_not_mem
  rw [toList_text, List.splitOn_intercalate ';' apart (by simp [entries]), List.map_map]
  exact (List.map_congr_left fun e he => readEntry_writeEntry (isEntry_of_mem_entries he)).trans
    (List.map_id r.entries)

/-- A rule is read back from its text. -/
theorem read?_text (r : Rule) : read? r.text.toList = some r := by
  obtain ⟨frequency, days, months⟩ := r.valuesOf_entries
  have terms : (r.days.map fun t => t.text.toList).mapM DayTerm.read? = some r.days :=
    Outcome.mapM_map_eq_some fun t _ => t.read?_text
  have numbers : (r.months.map digits).mapM natural? = some r.months :=
    Outcome.mapM_map_eq_some fun n _ => natural?_digits n
  rw [read?, map_readEntry_splitOn_text, ofEntries?, frequency, days, months, terms, numbers,
    List.head?_cons, Option.bind_some, Frequency.ofWord?_word]
  rfl

/-- **EVERY RULE COMES BACK** from its text, frequency, day terms and months in their order, so no
    two rules have one text. -/
theorem text_reads_back :
    (∀ r : Rule, read? r.text.toList = some r) ∧ Function.Injective text := by
  refine ⟨read?_text, fun r q same => ?_⟩
  have back := q.read?_text
  rw [← same, r.read?_text] at back
  exact Option.some.inj back

end Rule

end CalendarFeeds
