import CalendarFeeds.Event.Materialize
import CalendarFeeds.Proofs.LocalTime
import CalendarFeeds.Proofs.RuleDays
import Mathlib.Order.Bounds.Basic

/-! # Recurrence sets — the occurrences of a rule, and a list of the first ones

    By RFC 5545 (§3.3.10) a rule has an occurrence on every day that it generates, from the day of
    its start on, at the local time of the start.  Each of these local times is read like any
    other, so a repeated one means its first instant.

    An expansion is relied on for the first of these occurrences in order, and for nothing where
    the rule has a fault.  If it lists one occurrence, the rule opens with its start exactly if
    the start is an occurrence at all: none that is listed comes before it. -/

namespace CalendarFeeds

/-- **THE OCCURRENCES OF A RULE**, each on a day of its own, from a start on. -/
structure Rule.Recurs (r : Rule) (start : Instant) (day : Int) (i : Instant) : Prop where
  generated : r.Generates day
  since : start.date ≤ day
  reads : start.zone.Reads (86400 * day + start.shown % 86400) i.utc
  zone : i.zone = start.zone
  leap : i.leap = start.leap

/-- The first occurrences of a rule from a start on, if so many are asked for. -/
structure Rule.FirstOf (r : Rule) (start : Instant) (limit : Nat) (listed : List Instant) :
    Prop where
  ascends : listed.Pairwise fun i j => i.utc < j.utc
  bounded : listed.length ≤ limit
  recur : ∀ i ∈ listed, start.utc ≤ i.utc ∧ ∃ day, r.Recurs start day i
  /-- What is left out comes after a full list. -/
  complete : ∀ day i, r.Recurs start day i → start.utc ≤ i.utc
    → i ∈ listed ∨ listed.length = limit ∧ ∀ j ∈ listed, j.utc < i.utc

/-- What the expansion of a rule is relied on for: a rule without fault has its first occurrences
    listed. -/
def Almanac.Lists (almanac : Almanac) (r : Rule) (start : Instant) (limit : Nat) : Prop :=
  r.fault? = none →
    ∃ listed, almanac.expand r start limit = .ok listed ∧ r.FirstOf start limit listed

namespace Rule

namespace Recurs

variable {r : Rule} {start i j : Instant} {day other : Int}

/-- Outside gaps an occurrence is shown on its day, at the time of the start. -/
theorem shown (h : r.Recurs start day i)
    (once : start.zone.ShowsOnce (86400 * day + start.shown % 86400)) :
    i.shown = 86400 * day + start.shown % 86400 := by
  have here := Zone.shown_of_reads once h.reads
  simp only [Instant.shown, Instant.offset, Instant.reading]
  rw [h.zone]
  exact here

/-- Every day that a rule generates, from the day of the start on, has an occurrence. -/
theorem exists_of_generates (generated : r.Generates day) (since : start.date ≤ day) :
    ∃ i, r.Recurs start day i := by
  obtain ⟨utc, reads⟩ := start.zone.exists_reads (86400 * day + start.shown % 86400)
  exact ⟨⟨utc, start.leap, start.zone⟩, generated, since, reads, rfl, rfl⟩

theorem eq_of_utc_eq (hi : r.Recurs start day i) (hj : r.Recurs start other j)
    (same : i.utc = j.utc) : i = j := by
  cases i
  cases j
  cases same
  cases hi.zone.trans hj.zone.symm
  cases hi.leap.trans hj.leap.symm
  rfl

/-- An occurrence at the moment of the start is the start. -/
theorem eq_start (h : r.Recurs start day i) (same : i.utc = start.utc) : i = start := by
  cases i
  cases start
  cases same
  cases h.zone
  cases h.leap
  rfl

end Recurs

/-- A list of one occurrence has the first, if the rule generates no earlier day and none right
    after: local times two days apart are read in their order, whatever the clocks do. -/
theorem firstOf_singleton {r : Rule} {start first : Instant} {day : Int}
    (recurs : r.Recurs start day first) (since : start.utc ≤ first.utc)
    (exists_ : ¬ start.zone.Skips (86400 * day + start.shown % 86400))
    (apart : ∀ n, start.date ≤ n → r.Generates n → n = day ∨ day + 2 ≤ n) :
    r.FirstOf start 1 [first] where
  ascends := List.pairwise_singleton _ _
  bounded := Nat.le_refl 1
  recur i here := by
    rw [List.mem_singleton.mp here]
    exact ⟨since, day, recurs⟩
  complete other i also _ := by
    rcases apart other also.since also.generated with rfl | later
    · simp only [Zone.Skips, not_forall, not_not] at exists_
      obtain ⟨_, here⟩ := exists_
      have least := (Zone.reads_iff_isLeast here).mp recurs.reads
      have same := ((Zone.reads_iff_isLeast here).mp also.reads).unique least
      exact .inl (List.mem_singleton.mpr (also.eq_of_utc_eq recurs same))
    · refine .inr ⟨rfl, fun j here => ?_⟩
      rw [List.mem_singleton.mp here]
      have own := Zone.near_of_reads recurs.reads
      have next := Zone.near_of_reads also.reads
      omega

/-- A rule is accepted if the start is the head of its expansion. -/
theorem checkBy_eq_ok_iff {expand : Rule → Instant → Nat → Except RuleError (List Instant)}
    {r : Rule} {start : Instant} :
    checkBy expand r start = .ok ()
      ↔ ∃ first rest, expand r start 1 = .ok (first :: rest) ∧ first.sameMoment start = true := by
  simp only [checkBy]
  match expand r start 1 with
  | .ok (head :: tail) =>
      simp only
      split
      · next same => exact ⟨fun _ => ⟨head, tail, rfl, same⟩, fun _ => rfl⟩
      · next other =>
          constructor
          · intro ok
            cases ok
          · rintro ⟨first, rest, opened, same⟩
            cases opened
            exact absurd same other
  | .ok [] => simp
  | .error e => simp

end Rule

/-- **THE CHECK ASKS FOR AN OCCURRENCE**: with a list of the first occurrences, a rule without
    fault is accepted exactly if its start is one of its occurrences. -/
theorem Almanac.Lists.checkBy_eq_ok_iff {almanac : Almanac} {r : Rule} {start : Instant}
    (lists : almanac.Lists r start 1) (sound : r.fault? = none) :
    Rule.checkBy almanac.expand r start = .ok () ↔ ∃ day, r.Recurs start day start := by
  obtain ⟨listed, expanded, firsts⟩ := lists sound
  rw [Rule.checkBy_eq_ok_iff, expanded]
  constructor
  · rintro ⟨first, rest, opened, same⟩
    cases opened
    obtain ⟨-, day, recurs⟩ := firsts.recur first List.mem_cons_self
    have own := recurs.eq_start (Instant.utc_eq_of_sameMoment same)
    exact ⟨day, by rwa [own] at recurs⟩
  · rintro ⟨day, recurs⟩
    have here : start ∈ listed := by
      rcases firsts.complete day start recurs (Int.le_refl _) with here | ⟨full, before⟩
      · exact here
      · -- whatever fills the list instead would come before the start
        obtain ⟨other, rfl⟩ := List.length_eq_one_iff.mp full
        have since := (firsts.recur other (List.mem_singleton_self other)).1
        have := before other (List.mem_singleton_self other)
        omega
    obtain ⟨first, rest, rfl⟩ := List.exists_cons_of_ne_nil (List.ne_nil_of_mem here)
    have alone : rest = [] := List.eq_nil_of_length_eq_zero (Nat.le_zero.mp
      (Nat.le_of_succ_le_succ firsts.bounded))
    rw [alone, List.mem_singleton] at here
    exact ⟨first, rest, rfl, here ▸ start.sameMoment_self⟩

end CalendarFeeds
