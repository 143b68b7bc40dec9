import CalendarFeeds.Proofs.LetterCase
import CalendarFeeds.Proofs.Runs
import CalendarFeeds.Text.Slug
import Mathlib.Data.List.Chain

/-! # Slugs — what is left of a name

    A slug is made from the name in small letters.  Of these only what can become ASCII matters:
    all other characters, whatever their small forms, separate.  The letters and digits that stay
    form the runs of the name, so they part exactly where something stood between them, and as a
    slug is its runs joined by hyphens, its own runs are the same and its slug is itself. -/

namespace CalendarFeeds.Text

-- ── Small letters ────────────────────────────────────────────────────────────────

/-- The small form of a character in Unicode, as far as it is settled here: that of an ASCII
    character is the one of ASCII, two others have a form with an ASCII letter in it, and the
    forms of all the rest are one character or more outside ASCII. -/
inductive IsSmallForm : Char → List Char → Prop
  | ascii {c : Char} (within : c.toNat < 128) : IsSmallForm c [c.toLower]
  | kelvin : IsSmallForm '\u212a' ['k']
  | dottedI : IsSmallForm '\u0130' ['i', '\u0307']
  | other {c : Char} {form : List Char} (beyond : 128 ≤ c.toNat) (noKelvin : c ≠ '\u212a')
      (noDottedI : c ≠ '\u0130') (some_ : form ≠ []) (outside : ∀ d ∈ form, 128 ≤ d.toNat) :
      IsSmallForm c form

/-- A text in small letters, by any rules that give each character a small form of it. -/
inductive IsLowercase : List Char → List Char → Prop
  | nil : IsLowercase [] []
  | cons {c : Char} {form name low : List Char} (first : IsSmallForm c form)
      (others : IsLowercase name low) : IsLowercase (c :: name) (form ++ low)

section SmallLetters

variable {c : Char} {form name low : List Char}

/-- The letters and digits of a slug are the characters from 97 to 122 and from 48 to 57. -/
theorem isSlugChar_iff :
    isSlugChar c = true ↔ 97 ≤ c.toNat ∧ c.toNat ≤ 122 ∨ 48 ≤ c.toNat ∧ c.toNat ≤ 57 := by
  rw [isSlugChar, Bool.or_eq_true, isLower_iff, isDigit_iff]

theorem isSlugChar_eq_false (beyond : 128 ≤ c.toNat) : isSlugChar c = false := by
  rw [← Bool.not_eq_true, isSlugChar_iff]
  omega

theorem toLower_of_beyond (beyond : 128 ≤ c.toNat) : c.toLower = c :=
  toLower_eq_self (by omega)

/-- The small form of an ASCII character is that of ASCII. -/
theorem smallForm_of_ascii (within : c.toNat < 128) : smallForm c = [c.toLower] := by
  have noKelvin : c ≠ '\u212a' := by
    rintro rfl
    exact absurd within (by decide)
  have noDottedI : c ≠ '\u0130' := by
    rintro rfl
    exact absurd within (by decide)
  rw [smallForm, if_neg noKelvin, if_neg noDottedI]

/-- No small form holds a capital. -/
theorem IsSmallForm.isUpper_eq_false (h : IsSmallForm c form) : ∀ d ∈ form, d.isUpper = false := by
  cases h with
  | ascii within => exact List.forall_mem_singleton.mpr (isUpper_toLower c)
  | kelvin => exact List.forall_mem_singleton.mpr rfl
  | dottedI => simp
  | other beyond noKelvin noDottedI some_ outside =>
      intro d hd
      have beyond := outside d hd
      rw [← Bool.not_eq_true, isUpper_iff]
      omega

/-- Among small letters, all that are letters or digits of ASCII can stand in a slug. -/
theorem IsLowercase.isSlugChar_eq (h : IsLowercase name low) :
    ∀ d ∈ low, isSlugChar d = d.isAlphanum := by
  induction h with
  | nil => exact List.forall_mem_nil _
  | cons first others ih =>
      refine List.forall_mem_append.mpr ⟨fun d hd => ?_, ih⟩
      show (d.isLower || d.isDigit) = (d.isUpper || d.isLower || d.isDigit)
      rw [first.isUpper_eq_false d hd, Bool.false_or]

/-- The small form that is computed is one. -/
theorem isSmallForm_smallForm (c : Char) : IsSmallForm c (smallForm c) := by
  by_cases within : c.toNat < 128
  · rw [smallForm_of_ascii within]
    exact .ascii within
  rw [smallForm]
  split_ifs with kelvin dottedI
  · subst kelvin
    exact .kelvin
  · subst dottedI
    exact .dottedI
  · have beyond : 128 ≤ c.toNat := Nat.not_lt.mp within
    rw [toLower_of_beyond beyond]
    exact .other beyond kelvin dottedI (List.cons_ne_nil c [])
      (List.forall_mem_singleton.mpr beyond)

/-- Every name can be written in small letters. -/
theorem isLowercase_flatMap_smallForm (name : List Char) :
    IsLowercase name (name.flatMap smallForm) := by
  induction name with
  | nil => exact .nil
  | cons c name ih => exact .cons (isSmallForm_smallForm c) ih

/-- Whichever small form a character gets, a text has the same runs if the rest has. -/
theorem IsSmallForm.sameRuns (h : IsSmallForm c form) {s t : List Char}
    (rest : SameRuns isSlugChar s t) : SameRuns isSlugChar (form ++ s) (smallForm c ++ t) := by
  cases h with
  | ascii within =>
      rw [smallForm_of_ascii within]
      exact rest.append_left _
  | kelvin => exact rest.append_left _
  | dottedI => exact rest.append_left _
  | other beyond noKelvin noDottedI some_ outside =>
      rw [smallForm, if_neg noKelvin, if_neg noDottedI, toLower_of_beyond beyond]
      exact rest.gaps some_ (fun d hd => isSlugChar_eq_false (outside d hd))
        (List.cons_ne_nil c []) (List.forall_mem_singleton.mpr (isSlugChar_eq_false beyond))

/-- The rules of small letters do not count: all give a name the same runs. -/
theorem IsLowercase.runs_isSlugChar (h : IsLowercase name low) :
    runs isSlugChar low = slugRuns name := by
  have same : SameRuns isSlugChar low (name.flatMap smallForm) := by
    induction h with
    | nil => exact ⟨rfl, rfl⟩
    | cons first others ih => exact first.sameRuns ih
  exact same.runs

/-- **THE RUNS OF A SLUG** are the stretches of letters and digits of the name in small letters. -/
theorem IsLowercase.slugRuns_eq (h : IsLowercase name low) :
    slugRuns name = runs Char.isAlphanum low := by
  rw [← h.runs_isSlugChar]
  exact runs_congr h.isSlugChar_eq

/-- What can stand in a slug is its own small form. -/
theorem isSmallForm_self (h : isSlugChar c = true ∨ c = '-') : IsSmallForm c [c] := by
  have small : c.toNat < 128 ∧ ¬ (65 ≤ c.toNat ∧ c.toNat ≤ 90) := by
    rcases h with letter | rfl
    · have := isSlugChar_iff.mp letter
      omega
    · decide
  have form := IsSmallForm.ascii small.1
  rwa [toLower_eq_self small.2] at form

/-- The characters of a slug are their own small forms. -/
theorem isLowercase_self {s : List Char} (h : ∀ c ∈ s, isSlugChar c = true ∨ c = '-') :
    IsLowercase s s := by
  induction s with
  | nil => exact .nil
  | cons c s ih =>
      obtain ⟨here, later⟩ := List.forall_mem_cons.mp h
      exact .cons (isSmallForm_self here) (ih later)

end SmallLetters

-- ── The form of a slug ───────────────────────────────────────────────────────────

/-- Small letters and digits of ASCII with single hyphens between them. -/
structure IsSlug (s : List Char) : Prop where
  some_ : s ≠ []
  shown : ∀ c ∈ s, isSlugChar c = true ∨ c = '-'
  begins : s.head? ≠ some '-'
  ends : s.getLast? ≠ some '-'
  single : s.IsChain fun c d => ¬ (c = '-' ∧ d = '-')

theorem IsRun.ne_hyphen {w : List Char} (h : IsRun isSlugChar w) {c : Char} (hc : c ∈ w) :
    c ≠ '-' := by
  rintro rfl
  have letter := h.kept '-' hc
  revert letter
  decide

/-- A run of slug characters is a slug. -/
theorem IsRun.isSlug {w : List Char} (h : IsRun isSlugChar w) : IsSlug w := by
  refine ⟨h.some_, fun c hc => .inl (h.kept c hc), fun first => ?_, fun last => ?_, ?_⟩
  · exact h.ne_hyphen (List.mem_of_mem_head? first) rfl
  · exact h.ne_hyphen (List.mem_of_mem_getLast? last) rfl
  · refine (List.pairwise_of_forall_mem_list fun c hc d _ both => ?_).isChain
    exact h.ne_hyphen hc both.1

/-- A run, a hyphen and a slug are a slug. -/
theorem IsRun.isSlug_append {w s : List Char} (h : IsRun isSlugChar w) (hs : IsSlug s) :
    IsSlug (w ++ '-' :: s) := by
  have front := h.isSlug
  refine ⟨List.append_ne_nil_of_left_ne_nil h.some_ _, ?_, ?_, ?_, ?_⟩
  · refine List.forall_mem_append.mpr ⟨front.shown, ?_⟩
    exact List.forall_mem_cons.mpr ⟨.inr rfl, hs.shown⟩
  · rw [List.head?_append_of_ne_nil _ h.some_]
    exact front.begins
  · rw [List.getLast?_append_of_ne_nil _ (List.cons_ne_nil '-' s),
      List.getLast?_cons_of_ne_nil hs.some_]
    exact hs.ends
  · refine List.isChain_append.mpr ⟨front.single, ?_, ?_⟩
    · refine List.isChain_cons.mpr ⟨fun d first both => ?_, hs.single⟩
      exact hs.begins (both.2 ▸ first)
    · intro c last d _ both
      exact h.ne_hyphen (List.mem_of_mem_getLast? last) both.1

/-- Runs joined by single hyphens are a slug. -/
theorem isSlug_intercalate {rs : List (List Char)} (some_ : rs ≠ [])
    (h : ∀ r ∈ rs, IsRun isSlugChar r) : IsSlug (List.intercalate ['-'] rs) := by
  induction rs with
  | nil => exact absurd rfl some_
  | cons r rest ih =>
      obtain ⟨first, others⟩ := List.forall_mem_cons.mp h
      cases rest with
      | nil =>
          rw [List.intercalate_singleton]
          exact first.isSlug
      | cons q rest =>
          rw [List.intercalate_cons_cons, List.append_assoc]
          exact first.isSlug_append (ih (List.cons_ne_nil q rest) others)

-- ── The slug of a name ───────────────────────────────────────────────────────────

/-- The runs of the slug of a name: those of the name, or else the fallback alone. -/
def slugWords (name : List Char) : List (List Char) :=
  if slugRuns name = [] then [slugFallback.toList] else slugRuns name

/-- A slug is its words, joined by hyphens. -/
theorem toList_slug (name : String) :
    (slug name).toList = List.intercalate ['-'] (slugWords name.toList) := by
  rw [slug, slugWords]
  cases slugRuns name.toList with
  | nil => rw [if_pos rfl, List.intercalate_singleton]
  | cons w ws => rw [if_neg (List.cons_ne_nil w ws), String.toList_ofList]

theorem slugWords_ne_nil (name : List Char) : slugWords name ≠ [] := by
  rw [slugWords]
  split_ifs with none_
  · exact List.cons_ne_nil _ _
  · exact none_

theorem isRun_of_mem_slugWords {name : List Char} : ∀ r ∈ slugWords name, IsRun isSlugChar r := by
  rw [slugWords]
  split_ifs
  · exact List.forall_mem_singleton.mpr ⟨by decide, List.all_eq_true.mp rfl⟩
  · exact isRun_of_mem_runs

/-- Every name becomes a well-formed slug. -/
theorem isSlug_slug (name : String) : IsSlug (slug name).toList := by
  rw [toList_slug]
  exact isSlug_intercalate (slugWords_ne_nil _) isRun_of_mem_slugWords

/-- **A SLUG IS ITS OWN SLUG**. -/
theorem slug_idem (name : String) : slug (slug name) = slug name := by
  have same : slugRuns (slug name).toList = slugWords name.toList := by
    rw [← (isLowercase_self (isSlug_slug name).shown).runs_isSlugChar, toList_slug]
    exact runs_intercalate (by decide) isRun_of_mem_slugWords
  refine String.toList_injective ?_
  rw [toList_slug (slug name), slugWords, same, if_neg (slugWords_ne_nil _), ← toList_slug]

/-- **THE SLUG OF A NAME** in small letters: runs joined by hyphens.  They hold the letters and
    digits of ASCII of the name in order, or those of the fallback if there are none, and two of
    them that follow one another are in different runs exactly if something stood between. -/
structure IsSlugOf (low : List Char) (rs : List (List Char)) (s : List Char) : Prop where
  joined : s = List.intercalate ['-'] rs
  some_ : rs ≠ []
  small : ∀ r ∈ rs, IsRun isSlugChar r
  kept : rs.flatten = if low.filter Char.isAlphanum = [] then slugFallback.toList
    else low.filter Char.isAlphanum
  parted : ∀ {before between after : List Char} {c d : Char},
    low = before ++ c :: between ++ d :: after → c.isAlphanum = true → d.isAlphanum = true →
    (∀ x ∈ between, x.isAlphanum = false) →
    (PartsAfter rs ((before ++ [c]).filter Char.isAlphanum) ↔ between ≠ [])

/-- The words of a slug are the runs of the name in small letters, or the fallback. -/
theorem isSlugOf_slugWords {name : String} {low : List Char} (h : IsLowercase name.toList low) :
    IsSlugOf low (slugWords name.toList) (slug name).toList := by
  have whole := h.slugRuns_eq
  refine ⟨toList_slug name, slugWords_ne_nil _, isRun_of_mem_slugWords, ?_, ?_⟩
  · rw [slugWords, whole]
    simp only [runs_eq_nil_iff]
    split_ifs
    · rw [List.flatten_singleton]
    · exact flatten_runs Char.isAlphanum low
  · rintro before between after c d rfl hc hd gap
    have some_ : slugRuns name.toList ≠ [] := by
      rw [whole, Ne, runs_eq_nil_iff]
      exact List.ne_nil_of_mem (List.mem_filter.mpr ⟨by simp, hc⟩)
    rw [slugWords, if_neg some_, whole]
    exact partsAfter_runs_iff hc hd gap

/-- **EVERY SLUG**, whichever rules of small letters make it: the slug of the name in small
    letters, safe as the name of a file, and its own slug. -/
theorem slug_of_isLowercase {name : String} {low : List Char} (h : IsLowercase name.toList low) :
    (∃ rs, IsSlugOf low rs (slug name).toList) ∧ IsSlug (slug name).toList
      ∧ slug (slug name) = slug name :=
  ⟨⟨_, isSlugOf_slugWords h⟩, isSlug_slug name, slug_idem name⟩

theorem slug_of_isLowercase_kelvin :
    IsLowercase "É\u212a 2".toList ['é', 'k', ' ', '2']
      ∧ (∃ rs, IsSlugOf ['é', 'k', ' ', '2'] rs (slug "É\u212a 2").toList)
      ∧ IsSlug (slug "É\u212a 2").toList ∧ slug (slug "É\u212a 2") = slug "É\u212a 2"
      ∧ slug "É\u212a 2" = "k-2" := by
  have first : IsSmallForm 'É' ['é'] :=
    .other (by decide) (by decide) (by decide) (List.cons_ne_nil _ _)
      (List.forall_mem_singleton.mpr (by decide))
  have small : IsLowercase "É\u212a 2".toList ['é', 'k', ' ', '2'] :=
    .cons first (.cons .kelvin (.cons (.ascii (by decide)) (.cons (.ascii (by decide)) .nil)))
  obtain ⟨made, form, same⟩ := slug_of_isLowercase small
  exact ⟨small, made, form, same, by decide⟩

end CalendarFeeds.Text
