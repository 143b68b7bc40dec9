import CalendarFeeds.Proofs.LetterCase
import CalendarFeeds.Proofs.Words
import CalendarFeeds.Schedule.Phrase
import Mathlib.Data.List.Forall2
import Mathlib.Data.List.Sort
import Mathlib.Tactic.IntervalCases

/-! # The grammar of phrases — what is read, and what a recurrence prints

    A phrase means what its words say in small letters, and `Means` lists the five forms.  The
    reader goes by the number of its words and by the words `every`, `and`, `of` and `in`.  No
    form is taken for another: `every` is no ordinal, and `and` is no weekday.

    A recurrence that was read has one ordinal or two and a month that has a name, so each word
    of its text stands in the grammar, and the text is a phrase with the same meaning. -/

namespace CalendarFeeds

open Text

-- ── Ordinals ─────────────────────────────────────────────────────────────────────

namespace Ordinals

/-- The ordinals of a list are those with the same members. -/
theorem ofList?_eq_some_iff {ns : List Nat} {o : Ordinals} :
    ofList? ns = some o ↔ ∀ k, k ∈ o.values ↔ k ∈ ns := by
  simp only [ofList?]
  constructor
  · intro made k
    split at made
    · cases made
      exact mem_ascending
    · cases made
  · intro same
    have valid : ns ≠ [] ∧ ∀ n ∈ ns, 1 ≤ n ∧ n ≤ 5 := by
      obtain ⟨n, hn⟩ := List.exists_mem_of_ne_nil _ o.nonempty
      exact ⟨List.ne_nil_of_mem ((same n).mp hn), fun n hn => o.bounded n ((same n).mpr hn)⟩
    have values : ascending ns = o.values :=
      (pairwise_ascending_nat ns).eq_of_mem_iff o.ascends fun k =>
        mem_ascending.trans (same k).symm
    rw [dif_pos valid]
    obtain ⟨os, _, _, _⟩ := o
    cases values
    rfl

/-- Ordinals with two members, of which both may be the same. -/
theorem values_eq_of_two {o : Ordinals} {n m : Nat} (same : ∀ k, k ∈ o.values ↔ k = n ∨ k = m) :
    o.values = [n] ∨ ∃ a b, o.values = [a, b] := by
  have sorted : ∀ {xs : List Nat}, xs.Pairwise (· < ·) → (∀ k, k ∈ xs ↔ k = n ∨ k = m) →
      o.values = xs := fun ascends members =>
    o.ascends.eq_of_mem_iff ascends fun k => (same k).trans (members k).symm
  rcases Nat.lt_trichotomy n m with lt | rfl | gt
  · exact .inr ⟨n, m, sorted (by simpa using lt) (by simp)⟩
  · exact .inl (sorted (List.pairwise_singleton _ _) (by simp))
  · exact .inr ⟨m, n, sorted (by simpa using gt) (by simp [or_comm])⟩

end Ordinals

-- ── Names ────────────────────────────────────────────────────────────────────────

theorem Month.ofName?_name {m : Nat} (h : 1 ≤ m ∧ m ≤ 12) : ofName? (name m) = some m := by
  obtain ⟨first, last⟩ := h
  interval_cases m <;> decide

/-- A word is the name of a month exactly up to ASCII case. -/
theorem Month.ofName?_eq_some_iff {word : String} {m : Nat} :
    ofName? word = some m ↔ (1 ≤ m ∧ m ≤ 12) ∧ sameIgnoringCase word (name m) = true := by
  constructor
  · intro read
    obtain ⟨i, found, rfl⟩ := Option.map_eq_some_iff.mp read
    obtain ⟨listed, same, -⟩ := List.findIdx?_eq_some_iff_getElem.mp found
    have count : i < 12 := listed
    have named : name (i + 1) = names[i] := by
      simp only [name, Nat.add_sub_cancel]
      rw [if_neg (Nat.succ_ne_zero i), List.getElem?_eq_getElem listed]
      rfl
    rw [named]
    exact ⟨by omega, same⟩
  · rintro ⟨valid, same⟩
    have alike : sameIgnoringCase word = sameIgnoringCase (name m) := by
      funext other
      simp only [sameIgnoringCase, sameIgnoringCase_iff.mp same]
    rw [← ofName?_name valid, ofName?, alike, ofName?]

namespace Phrase

theorem weekday?_name (w : Weekday) : weekday? w.name = some w := by
  cases w <;> decide

/-- A word is the name of a weekday exactly up to ASCII case. -/
theorem weekday?_eq_some_iff {word : String} {w : Weekday} :
    weekday? word = some w ↔ sameIgnoringCase w.name word = true := by
  constructor
  · intro read
    have found := List.find?_some read
    exact found
  · intro same
    rw [← weekday?_name w]
    simp only [weekday?, sameIgnoringCase, sameIgnoringCase_iff.mp same]

/-- The ordinals are the words of the table. -/
theorem ordinal?_eq_some_iff {word : String} {n : Nat} :
    ordinal? word = some n ↔ (word, n) ∈ ordinalWords := by
  constructor
  · intro read
    obtain ⟨before, after, split, -⟩ := List.lookup_eq_some_iff.mp read
    rw [split]
    exact List.mem_append_right _ List.mem_cons_self
  · intro listed
    have own : ∀ e ∈ ordinalWords, ordinalWords.lookup e.1 = some e.2 := by decide
    exact own (word, n) listed

-- ── The grammar ──────────────────────────────────────────────────────────────────

/-- One ordinal, or two with the word and between them; the set that they name. -/
inductive NamesOrdinals : List String → Ordinals → Prop
  | one {a : String} {n : Nat} {o : Ordinals} (named : (a, n) ∈ ordinalWords)
      (set : ∀ k, k ∈ o.values ↔ k = n) : NamesOrdinals [a] o
  | two {a b : String} {n m : Nat} {o : Ordinals} (first : (a, n) ∈ ordinalWords)
      (second : (b, m) ∈ ordinalWords) (set : ∀ k, k ∈ o.values ↔ k = n ∨ k = m) :
      NamesOrdinals [a, "and", b] o

/-- **THE MEANING OF WORDS** in small letters: the forms of a schedule. -/
inductive Means : List String → Recurrence → Prop
  | weekly {day : String} {w : Weekday} (on : sameIgnoringCase w.name day = true) :
      Means ["every", day] (.weekly w)
  | monthly {os : List String} {day : String} {o : Ordinals} {w : Weekday}
      (which : NamesOrdinals os o) (on : sameIgnoringCase w.name day = true) :
      Means (os ++ [day]) (.monthly o w)
  | yearly {os : List String} {day link month : String} {o : Ordinals} {w : Weekday} {m : Nat}
      (which : NamesOrdinals os o) (on : sameIgnoringCase w.name day = true)
      (linked : link = "of" ∨ link = "in") (real : 1 ≤ m ∧ m ≤ 12)
      (inMonth : sameIgnoringCase month (Month.name m) = true) :
      Means (os ++ [day, link, month]) (.yearly o w m)

/-- **THE MEANING OF A PHRASE** is that of its words, without regard to ASCII case. -/
def Says (phrase : String) (r : Recurrence) : Prop :=
  ∃ ws : List String, HasWords phrase.toList (ws.map String.toList) ∧ Means (ws.map lowered) r

-- ── The reader of words ──────────────────────────────────────────────────────────

/-- What the reader takes ordinals for. -/
def ordinalsOf? (words : List String) : Option Ordinals :=
  (words.mapM ordinal?).bind Ordinals.ofList?

/-- A list of words is read word by word, or not at all. -/
theorem mapM_ordinal?_eq_some_iff {words : List String} {ns : List Nat} :
    words.mapM ordinal? = some ns ↔ List.Forall₂ (fun a n => (a, n) ∈ ordinalWords) words ns := by
  induction words generalizing ns with
  | nil => cases ns <;> simp
  | cons a words ih =>
      rw [List.mapM_cons]
      constructor
      · intro read
        obtain ⟨n, first, rest⟩ := Option.bind_eq_some_iff.mp read
        obtain ⟨ms, others, made⟩ := Option.bind_eq_some_iff.mp rest
        cases made
        exact .cons (ordinal?_eq_some_iff.mp first) (ih.mp others)
      · intro listed
        cases listed with
        | cons named others =>
            rw [ordinal?_eq_some_iff.mpr named, ih.mpr others]
            rfl

/-- The ordinals that are read are those of the words, one by one. -/
theorem ordinalsOf?_eq_some_iff {words : List String} {o : Ordinals} :
    ordinalsOf? words = some o ↔ ∃ ns,
      List.Forall₂ (fun a n => (a, n) ∈ ordinalWords) words ns ∧ ∀ k, k ∈ o.values ↔ k ∈ ns := by
  simp only [ordinalsOf?, Option.bind_eq_some_iff, mapM_ordinal?_eq_some_iff,
    Ordinals.ofList?_eq_some_iff]

theorem ordinalsOf?_one {a : String} {o : Ordinals} :
    ordinalsOf? [a] = some o ↔ NamesOrdinals [a] o := by
  rw [ordinalsOf?_eq_some_iff]
  constructor
  · rintro ⟨_, _ | ⟨named, _ | _⟩, set⟩
    exact .one named (by simpa using set)
  · intro named
    cases named with
    | one named set => exact ⟨_, .cons named .nil, by simpa using set⟩

/-- Two words name two ordinals, with "and" between them in the phrase. -/
theorem ordinalsOf?_two {a b : String} {o : Ordinals} :
    ordinalsOf? [a, b] = some o ↔ NamesOrdinals [a, "and", b] o := by
  rw [ordinalsOf?_eq_some_iff]
  constructor
  · rintro ⟨_, _ | ⟨first, _ | ⟨second, _ | _⟩⟩, set⟩
    exact .two first second (by simpa using set)
  · intro named
    cases named with
    | two first second set => exact ⟨_, .cons first (.cons second .nil), by simpa using set⟩

/-- The recurrence of ordinals and a weekday, in a month if there is a word for it. -/
def inMonth? (o : Ordinals) (w : Weekday) : Option String → Option Recurrence
  | none => some (.monthly o w)
  | some month => (Month.ofName? month).map (.yearly o w)

/-- Reading ordinals with a weekday reads each of its parts. -/
theorem onOrdinals?_eq_some_iff {words : List String} {day : String} {month : Option String}
    {r : Recurrence} :
    onOrdinals? words day month = some r ↔ ∃ o w, ordinalsOf? words = some o
      ∧ sameIgnoringCase w.name day = true ∧ inMonth? o w month = some r := by
  have parts : onOrdinals? words day month
      = (weekday? day).bind fun w => (ordinalsOf? words).bind fun o => inMonth? o w month := by
    simp only [onOrdinals?, ordinalsOf?]
    cases weekday? day <;> cases (words.mapM ordinal?).bind Ordinals.ofList? <;> cases month <;> rfl
  rw [parts]
  constructor
  · intro read
    obtain ⟨w, on, rest⟩ := Option.bind_eq_some_iff.mp read
    obtain ⟨o, which, made⟩ := Option.bind_eq_some_iff.mp rest
    exact ⟨o, w, which, weekday?_eq_some_iff.mp on, made⟩
  · rintro ⟨o, w, which, on, made⟩
    rw [weekday?_eq_some_iff.mpr on, which]
    exact made

/-- Ordinals with a month make a yearly recurrence, if the month's name is known. -/
theorem inMonth?_some_iff {o : Ordinals} {w : Weekday} {month : String} {r : Recurrence} :
    inMonth? o w (some month) = some r ↔ ∃ m, ((1 ≤ m ∧ m ≤ 12)
      ∧ sameIgnoringCase month (Month.name m) = true) ∧ .yearly o w m = r := by
  simp only [inMonth?, Option.map_eq_some_iff, Month.ofName?_eq_some_iff]

/-- The word `every` is no ordinal. -/
theorem ne_every_of_listed {a : String} {n : Nat} (named : (a, n) ∈ ordinalWords) :
    a ≠ "every" := by
  have none_ : ∀ e ∈ ordinalWords, e.1 ≠ "every" := by decide
  exact none_ (a, n) named

/-- The word `and` is no weekday. -/
theorem ne_and_of_weekday {day : String} {w : Weekday} (on : sameIgnoringCase w.name day = true) :
    day ≠ "and" := by
  rintro rfl
  have none_ : sameIgnoringCase w.name "and" = false := by cases w <;> decide
  rw [none_] at on
  cases on

/-- Two words are an ordinal and a weekday, unless the first is "every". -/
theorem ofWords?_two {a day : String} (other : a ≠ "every") :
    ofWords? [a, day] = onOrdinals? [a] day none := by
  simp [ofWords?]

/-- Four words joined by "and" are two ordinals and a weekday. -/
theorem ofWords?_and {a b day : String} :
    ofWords? [a, "and", b, day] = onOrdinals? [a, b] day none := by
  simp [ofWords?]

/-- A month may follow, after "of" or "in". -/
theorem ofWords?_linked {a day link month : String} (other : day ≠ "and")
    (linked : link = "of" ∨ link = "in") :
    ofWords? [a, day, link, month] = onOrdinals? [a] day (some month) := by
  rcases linked with rfl | rfl <;> simp [ofWords?]

theorem ofWords?_andLinked {a b day link month : String} (linked : link = "of" ∨ link = "in") :
    ofWords? [a, "and", b, day, link, month] = onOrdinals? [a, b] day (some month) := by
  rcases linked with rfl | rfl <;> simp [ofWords?]

section

variable {words spelled : List String} {day link month : String} {r : Recurrence}

/-- What is read without a month is what the grammar means by the words. -/
theorem means_of_onOrdinals? (spells : ∀ {o}, ordinalsOf? words = some o → NamesOrdinals spelled o)
    (read : onOrdinals? words day none = some r) : Means (spelled ++ [day]) r := by
  obtain ⟨o, w, which, on, made⟩ := onOrdinals?_eq_some_iff.mp read
  cases made
  exact .monthly (spells which) on

theorem means_of_onOrdinals?_linked
    (spells : ∀ {o}, ordinalsOf? words = some o → NamesOrdinals spelled o)
    (linked : link = "of" ∨ link = "in") (read : onOrdinals? words day (some month) = some r) :
    Means (spelled ++ [day, link, month]) r := by
  obtain ⟨o, w, which, on, made⟩ := onOrdinals?_eq_some_iff.mp read
  obtain ⟨m, ⟨real, inMonth⟩, rfl⟩ := inMonth?_some_iff.mp made
  exact .yearly (spells which) on linked real inMonth

end

/-- **READING WORDS** finds their meaning. -/
theorem ofWords?_eq_some_iff {ws : List String} {r : Recurrence} :
    ofWords? ws = some r ↔ Means ws r := by
  constructor
  · intro read
    simp only [ofWords?] at read
    split at read
    · obtain ⟨w, on, rfl⟩ := Option.map_eq_some_iff.mp read
      exact .weekly (weekday?_eq_some_iff.mp on)
    · exact (means_of_onOrdinals? ordinalsOf?_one.mp read :)
    · exact (means_of_onOrdinals? ordinalsOf?_two.mp read :)
    · exact (means_of_onOrdinals?_linked ordinalsOf?_one.mp (.inl rfl) read :)
    · exact (means_of_onOrdinals?_linked ordinalsOf?_one.mp (.inr rfl) read :)
    · exact (means_of_onOrdinals?_linked ordinalsOf?_two.mp (.inl rfl) read :)
    · exact (means_of_onOrdinals?_linked ordinalsOf?_two.mp (.inr rfl) read :)
    · cases read
  · intro means
    cases means with
    | weekly on =>
        show (weekday? _).map Recurrence.weekly = _
        rw [weekday?_eq_some_iff.mpr on]
        rfl
    | @monthly _ day o w which on =>
        have made : inMonth? o w none = some (.monthly o w) := rfl
        cases which with
        | one named set =>
            show ofWords? [_, day] = _
            rw [ofWords?_two (ne_every_of_listed named)]
            exact onOrdinals?_eq_some_iff.mpr ⟨o, w, ordinalsOf?_one.mpr (.one named set), on, made⟩
        | two first second set =>
            show ofWords? [_, "and", _, day] = _
            rw [ofWords?_and]
            exact onOrdinals?_eq_some_iff.mpr
              ⟨o, w, ordinalsOf?_two.mpr (.two first second set), on, made⟩
    | @yearly _ day link month o w m which on linked real inMonth =>
        have made : inMonth? o w (some month) = some (.yearly o w m) :=
          inMonth?_some_iff.mpr ⟨m, ⟨real, inMonth⟩, rfl⟩
        cases which with
        | one named set =>
            show ofWords? [_, day, link, month] = _
            rw [ofWords?_linked (ne_and_of_weekday on) linked]
            exact onOrdinals?_eq_some_iff.mpr ⟨o, w, ordinalsOf?_one.mpr (.one named set), on, made⟩
        | two first second set =>
            show ofWords? [_, "and", _, day, link, month] = _
            rw [ofWords?_andLinked linked]
            exact onOrdinals?_eq_some_iff.mpr
              ⟨o, w, ordinalsOf?_two.mpr (.two first second set), on, made⟩

/-- The words of a phrase are read exactly as the grammar says. -/
theorem ofWords?_wordsOf_iff {phrase : String} {r : Recurrence} :
    ofWords? (wordsOf phrase) = some r ↔ Says phrase r := by
  rw [ofWords?_eq_some_iff]
  constructor
  · intro means
    refine ⟨(words phrase.toList).map String.ofList, ?_, ?_⟩
    · rw [List.map_map]
      have same : String.toList ∘ String.ofList = id := funext fun _ => String.toList_ofList
      rw [same, List.map_id]
      exact hasWords_words _
    · rw [List.map_map]
      have same : lowered ∘ String.ofList = fun w => String.ofList (lower w) := by
        funext w
        simp [lowered]
      rw [same]
      exact means
  · rintro ⟨ws, split, means⟩
    have found : wordsOf phrase = ws.map lowered := by
      rw [wordsOf, words_eq_iff.mpr split, List.map_map]
      rfl
    rw [found]
    exact means

-- ── The text of a recurrence ─────────────────────────────────────────────────────

theorem isWord_weekday (w : Weekday) : IsWord w.name.toList := by
  cases w <;> exact isWord_of_all (by decide)

theorem isWord_month {m : Nat} (h : 1 ≤ m ∧ m ≤ 12) : IsWord (Month.name m).toList := by
  obtain ⟨first, last⟩ := h
  interval_cases m <;> exact isWord_of_all (by decide)

/-- The labels of the five ordinals are words of the grammar as they stand. -/
theorem label_listed {n : Nat} (h : 1 ≤ n ∧ n ≤ 5) :
    (lowered (Ordinals.label n), n) ∈ ordinalWords ∧ IsWord (Ordinals.label n).toList := by
  obtain ⟨first, last⟩ := h
  interval_cases n <;> exact ⟨by decide +kernel, isWord_of_all (by decide +kernel)⟩

theorem toList_spaced (a b : String) : (a ++ " " ++ b).toList = a.toList ++ ' ' :: b.toList := by
  simp

/-- The text of ordinals that were read names them, whatever follows. -/
theorem exists_namesOrdinals_text {os : List String} {o : Ordinals} (which : NamesOrdinals os o) :
    ∃ printed : List String, NamesOrdinals (printed.map lowered) o
      ∧ ∀ {rest ws}, HasWords rest ws →
          HasWords (o.text.toList ++ ' ' :: rest) (printed.map String.toList ++ ws) := by
  have shape : (∃ n, o.values = [n]) ∨ ∃ n m, o.values = [n, m] := by
    cases which with
    | @one _ n _ _ set =>
        have both : ∀ k, k ∈ o.values ↔ k = n ∨ k = n := by simpa using set
        exact (Ordinals.values_eq_of_two both).imp_left fun h => ⟨n, h⟩
    | @two _ _ n _ _ _ _ set =>
        exact (Ordinals.values_eq_of_two set).imp_left fun h => ⟨n, h⟩
  rcases shape with ⟨n, values⟩ | ⟨n, m, values⟩
  · obtain ⟨listed, word⟩ := label_listed (o.bounded n (by simp [values]))
    have text : o.text = Ordinals.label n := by
      rw [Ordinals.text, values]
      rfl
    refine ⟨[Ordinals.label n], .one listed (by simp [values]), fun rest => ?_⟩
    rw [text]
    exact .spaced word rest
  · obtain ⟨first, word⟩ := label_listed (o.bounded n (by simp [values]))
    obtain ⟨second, word'⟩ := label_listed (o.bounded m (by simp [values]))
    have link : IsWord "and".toList := isWord_of_all (by decide)
    have text : o.text.toList = (Ordinals.label n).toList
        ++ ' ' :: ("and".toList ++ ' ' :: (Ordinals.label m).toList) := by
      rw [Ordinals.text, values]
      show (Ordinals.label n ++ " and " ++ Ordinals.label m).toList = _
      rw [String.toList_append, String.toList_append, List.append_assoc]
      rfl
    refine ⟨[Ordinals.label n, "and", Ordinals.label m], .two first second (by simp [values]),
      fun rest => ?_⟩
    rw [text]
    simp only [List.append_assoc, List.cons_append]
    exact .spaced word (.spaced link (.spaced word' rest))

/-- **THE TEXT OF A RECURRENCE** that was read is a phrase with the same meaning. -/
theorem says_text {ws : List String} {r : Recurrence} (means : Means ws r) : Says r.text r := by
  cases means with
  | @weekly _ w _ =>
      have every_ : IsWord "every".toList := isWord_of_all (by decide)
      refine ⟨["every", w.name], ?_, .weekly (sameIgnoringCase_lowered w.name)⟩
      show HasWords ("every " ++ w.name).toList _
      rw [String.toList_append]
      exact .spaced every_ (.alone (isWord_weekday w))
  | @monthly _ _ o w which _ =>
      obtain ⟨printed, names, split⟩ := exists_namesOrdinals_text which
      refine ⟨printed ++ [w.name], ?_, ?_⟩
      · show HasWords (o.text ++ " " ++ w.name).toList _
        rw [toList_spaced, List.map_append]
        exact split (.alone (isWord_weekday w))
      · rw [List.map_append]
        exact .monthly names (sameIgnoringCase_lowered w.name)
  | @yearly _ _ _ _ o w m which _ _ real _ =>
      obtain ⟨printed, names, split⟩ := exists_namesOrdinals_text which
      have of_ : IsWord "of".toList := isWord_of_all (by decide)
      have inMonth : sameIgnoringCase (lowered (Month.name m)) (Month.name m) = true := by
        rw [sameIgnoringCase_comm]
        exact sameIgnoringCase_lowered _
      refine ⟨printed ++ [w.name, "of", Month.name m], ?_, ?_⟩
      · show HasWords (o.text ++ " " ++ w.name ++ " of " ++ Month.name m).toList _
        have written : (o.text ++ " " ++ w.name ++ " of " ++ Month.name m).toList
            = o.text.toList ++ ' ' ::
              (w.name.toList ++ ' ' :: ("of".toList ++ ' ' :: (Month.name m).toList)) := by
          rw [String.toList_append, String.toList_append, toList_spaced, List.append_assoc,
            List.append_assoc]
          rfl
        rw [written, List.map_append]
        exact split (.spaced (isWord_weekday w) (.spaced of_ (.alone (isWord_month real))))
      · rw [List.map_append]
        exact .yearly names (sameIgnoringCase_lowered w.name) (.inl rfl) real inMonth

-- ── Phrases ──────────────────────────────────────────────────────────────────────

/-- Reading a phrase succeeds exactly when the grammar gives it a meaning, with that meaning. -/
theorem read_eq_ok_iff_says {phrase : String} {r : Recurrence} :
    read phrase = .ok r ↔ Says phrase r := by
  rw [read_eq_ok_iff, ofWords?_wordsOf_iff]

/-- A phrase without a meaning is refused, and the refusal quotes it. -/
theorem read_eq_error_iff {phrase : String} {e : ScheduleError} :
    read phrase = .error e ↔ (∀ r, ¬ Says phrase r) ∧ e = .unrecognizedSchedule phrase := by
  simp only [← ofWords?_wordsOf_iff, read]
  cases ofWords? (wordsOf phrase) with
  | none => simp [eq_comm]
  | some r => simp

/-- **READING A PHRASE** gives its meaning, and an error with the phrase if it has none; what the
    text of a recurrence that was read means is that recurrence. -/
theorem read_grammar (phrase : String) :
    (∀ r, read phrase = .ok r ↔ Says phrase r)
      ∧ (∀ e, read phrase = .error e
        ↔ (∀ r, ¬ Says phrase r) ∧ e = .unrecognizedSchedule phrase)
      ∧ ∀ r, read phrase = .ok r → read r.text = .ok r := by
  refine ⟨fun r => read_eq_ok_iff_says, fun e => read_eq_error_iff, fun r ok => ?_⟩
  obtain ⟨ws, -, means⟩ := read_eq_ok_iff_says.mp ok
  exact read_eq_ok_iff_says.mpr (says_text means)

/-- On the first and the third Wednesday of every month. -/
def firstAndThirdWednesday : Recurrence :=
  .monthly ⟨[1, 3], by decide, by decide, by decide⟩ .wednesday

theorem read_grammar_first_and_third :
    read " Third and\t1ST wednesday" = .ok firstAndThirdWednesday
      ∧ read "1st and 3rd Wednesday" = .ok firstAndThirdWednesday := by
  have words : ofWords? (wordsOf " Third and\t1ST wednesday") = some firstAndThirdWednesday := by
    decide +kernel
  have ok := read_eq_ok_iff.mpr words
  have text : firstAndThirdWednesday.text = "1st and 3rd Wednesday" := by decide +kernel
  exact ⟨ok, text ▸ (read_grammar _).2.2 _ ok⟩

end Phrase

end CalendarFeeds
