import CalendarFeeds.Proofs.Anchor
import CalendarFeeds.Proofs.Outcome
import CalendarFeeds.Schedule.RuleOf
import Mathlib.Data.List.Nodup

/-! # The days of a rule — what FREQ, BYDAY and BYMONTH generate

    A rule is expanded period by period.  In a week, a month or a year, a BYDAY term picks every
    such weekday or, with a number, one of them; BYMONTH limits the periods, or for a yearly rule
    names the months in which the terms are counted.  A weekly schedule that is limited to months
    becomes a yearly rule and a monthly one stays monthly: the days are those of the schedule
    either way. -/

namespace CalendarFeeds

/-- The days with a weekday among so many days from a first one on. -/
def weekdaysFrom (w : Weekday) (first : Int) (days : Nat) : List Int :=
  ((List.range days).map fun (k : Nat) => first + (k : Int)).filter fun n =>
    decide (Weekday.ofDay n = w)

/-- What a BYDAY term picks from a period: every such weekday, or the one with its number. -/
def DayTerm.pick (t : DayTerm) (first : Int) (days : Nat) : List Int :=
  match t.ordinal with
  | none => weekdaysFrom t.weekday first days
  | some 0 => []
  | some (k + 1) => ((weekdaysFrom t.weekday first days)[k]?).toList

/-- **THE DAYS A RULE GENERATES**, for rules with BYDAY that repeat every period. -/
inductive Rule.Generates (r : Rule) : Int → Prop
  /-- A week starts on Monday; its terms have no numbers, and BYMONTH limits its days. -/
  | weekly {monday n : Int} {t : DayTerm} (frequency : r.frequency = .weekly)
      (start : Weekday.ofDay monday = .monday) (term : t ∈ r.days) (plain : t.ordinal = none)
      (picked : n ∈ t.pick monday 7) (month : r.months = [] ∨ Civil.monthOf n ∈ r.months) :
      Generates r n
  /-- BYMONTH limits the months of a monthly rule. -/
  | monthly {y n : Int} {m : Nat} {t : DayTerm} (frequency : r.frequency = .monthly)
      (real : 1 ≤ m ∧ m ≤ 12) (month : r.months = [] ∨ m ∈ r.months) (term : t ∈ r.days)
      (picked : n ∈ t.pick (Civil.monthStart y m) (Civil.monthLength y m)) : Generates r n
  /-- The terms of a yearly rule with BYMONTH are counted inside each of its months. -/
  | yearlyInMonths {y n : Int} {m : Nat} {t : DayTerm} (frequency : r.frequency = .yearly)
      (real : 1 ≤ m ∧ m ≤ 12) (month : m ∈ r.months) (term : t ∈ r.days)
      (picked : n ∈ t.pick (Civil.monthStart y m) (Civil.monthLength y m)) : Generates r n
  /-- Without BYMONTH the terms of a yearly rule are counted through the year. -/
  | yearly {y n : Int} {t : DayTerm} (frequency : r.frequency = .yearly)
      (unlimited : r.months = []) (term : t ∈ r.days)
      (picked : n ∈ t.pick (Civil.yearStart y) (Civil.yearLength y)) : Generates r n

-- ── Picking weekdays ─────────────────────────────────────────────────────────────

theorem mem_weekdaysFrom {w : Weekday} {first n : Int} {days : Nat} :
    n ∈ weekdaysFrom w first days
      ↔ (first ≤ n ∧ n < first + days) ∧ Weekday.ofDay n = w := by
  simp only [weekdaysFrom]
  rw [List.mem_filter, List.mem_map, decide_eq_true_iff]
  constructor
  · rintro ⟨⟨k, hk, rfl⟩, weekday⟩
    have := List.mem_range.mp hk
    exact ⟨by omega, weekday⟩
  · rintro ⟨⟨low, high⟩, weekday⟩
    refine ⟨⟨(n - first).toNat, List.mem_range.mpr (by omega), by omega⟩, weekday⟩

theorem nodup_weekdaysFrom (w : Weekday) (first : Int) (days : Nat) :
    (weekdaysFrom w first days).Nodup := by
  refine List.Nodup.filter _ (List.Nodup.map ?_ List.nodup_range)
  intro a b same
  have eq : first + (a : Int) = first + (b : Int) := same
  omega

/-- A stretch can be listed in two parts. -/
theorem weekdaysFrom_add (w : Weekday) (first : Int) (a b : Nat) :
    weekdaysFrom w first (a + b) = weekdaysFrom w first a ++ weekdaysFrom w (first + a) b := by
  simp only [weekdaysFrom]
  rw [List.range_add, List.map_append, List.filter_append, List.map_map]
  congr 3
  funext k
  simp only [Function.comp]
  omega

/-- Of the days before a day, every seventh going back shares its weekday. -/
theorem length_weekdaysFrom {w : Weekday} {first : Int} {d : Nat}
    (weekday : Weekday.ofDay (first + d) = w) : (weekdaysFrom w first d).length = d / 7 := by
  have same : ∀ k : Nat, Weekday.ofDay (first + k) = w ↔ k % 7 = d % 7 := by
    intro k
    have place := Weekday.ofDay_eq_iff.mp weekday
    rw [Weekday.ofDay_eq_iff]
    omega
  simp only [weekdaysFrom]
  rw [List.filter_map, List.length_map]
  simp only [Function.comp_def, same]
  rw [Civil.length_filter_mod (by omega)]
  omega

/-- The weekdays before a day come before it in the list. -/
theorem getElem?_weekdaysFrom {w : Weekday} {first : Int} {days d : Nat} (h : d < days)
    (weekday : Weekday.ofDay (first + d) = w) :
    (weekdaysFrom w first days)[d / 7]? = some (first + d) := by
  obtain ⟨rest, rfl⟩ : ∃ rest, days = d + (1 + rest) := ⟨days - d - 1, by omega⟩
  have here : weekdaysFrom w (first + d) 1 = [first + d] := by
    simp [weekdaysFrom, weekday]
  rw [weekdaysFrom_add, weekdaysFrom_add, here,
    List.getElem?_append_right (Nat.le_of_eq (length_weekdaysFrom weekday)),
    length_weekdaysFrom weekday, Nat.sub_self]
  rfl

/-- A day stands among the days of its month with its weekday at the place of its number. -/
theorem getElem?_weekdaysFrom_month (n : Int) :
    (weekdaysFrom (Weekday.ofDay n) (Civil.monthStart (Civil.yearOf n) (Civil.monthOf n))
        (Civil.monthLength (Civil.yearOf n) (Civil.monthOf n)))[(Civil.dayOf n - 1) / 7]?
      = some n := by
  have day := Civil.dayOf_eq n
  have range := Civil.dayOf_range n
  have from_ : Civil.monthStart (Civil.yearOf n) (Civil.monthOf n)
      + ((Civil.dayOf n - 1 : Nat) : Int) = n := by omega
  have found := getElem?_weekdaysFrom (w := Weekday.ofDay n) (d := Civil.dayOf n - 1)
    (show Civil.dayOf n - 1 < Civil.monthLength (Civil.yearOf n) (Civil.monthOf n) by omega)
    (congrArg Weekday.ofDay from_)
  rwa [from_] at found

/-- **COUNTING INSIDE A MONTH**: a term picks from a month the days of the month with its weekday
    and, if it has a number, with that place among them. -/
theorem DayTerm.mem_pick_month_iff {t : DayTerm} {y : Int} {m : Nat} (h : 1 ≤ m ∧ m ≤ 12)
    {n : Int} :
    n ∈ t.pick (Civil.monthStart y m) (Civil.monthLength y m)
      ↔ (Civil.yearOf n = y ∧ Civil.monthOf n = m) ∧ Weekday.ofDay n = t.weekday
        ∧ ∀ k, t.ordinal = some k → Civil.occurrence n = k := by
  have held : Civil.InMonth y m n ↔ Civil.yearOf n = y ∧ Civil.monthOf n = m :=
    Civil.inMonth_iff h
  have mem : n ∈ weekdaysFrom t.weekday (Civil.monthStart y m) (Civil.monthLength y m)
      ↔ (Civil.yearOf n = y ∧ Civil.monthOf n = m) ∧ Weekday.ofDay n = t.weekday := by
    rw [mem_weekdaysFrom, ← held]
    exact Iff.rfl
  simp only [DayTerm.pick]
  match number : t.ordinal with
  | none =>
      rw [mem]
      constructor
      · rintro ⟨month, weekday⟩
        exact ⟨month, weekday, fun k hk => nomatch hk⟩
      · rintro ⟨month, weekday, -⟩
        exact ⟨month, weekday⟩
  | some 0 =>
      constructor
      · intro none_
        exact nomatch none_
      · rintro ⟨-, -, place⟩
        have zero := place 0 rfl
        rw [Civil.occurrence_eq] at zero
        omega
  | some (k + 1) =>
      have place : ∀ month : Civil.yearOf n = y ∧ Civil.monthOf n = m,
          ∀ weekday : Weekday.ofDay n = t.weekday,
          (weekdaysFrom t.weekday (Civil.monthStart y m)
            (Civil.monthLength y m))[(Civil.dayOf n - 1) / 7]? = some n := by
        rintro ⟨rfl, rfl⟩ weekday
        rw [← weekday]
        exact getElem?_weekdaysFrom_month n
      rw [Option.mem_toList]
      constructor
      · intro found
        obtain ⟨month, weekday⟩ := mem.mp (List.mem_of_getElem? found)
        have own := place month weekday
        have here := (List.getElem?_inj (List.getElem?_eq_some_iff.mp found).1
          (nodup_weekdaysFrom _ _ _)).mp (found.trans own.symm)
        refine ⟨month, weekday, fun k' hk => ?_⟩
        cases hk
        rw [Civil.occurrence_eq, here]
      · rintro ⟨month, weekday, number⟩
        have own := place month weekday
        have here := number (k + 1) rfl
        rw [Civil.occurrence_eq] at here
        rwa [show (Civil.dayOf n - 1) / 7 = k by omega] at own

-- ── The days of each frequency ───────────────────────────────────────────────────

namespace Rule

/-- Whether a term of a rule picks a day from the month of the day. -/
def PicksInMonth (days : List DayTerm) (n : Int) : Prop :=
  ∃ t ∈ days, n ∈ t.pick (Civil.monthStart (Civil.yearOf n) (Civil.monthOf n))
    (Civil.monthLength (Civil.yearOf n) (Civil.monthOf n))

/-- A weekly rule gives every day of its weekday. -/
theorem generates_weekly_iff {w : Weekday} {n : Int} :
    Generates ⟨.weekly, [.every w], []⟩ n ↔ Weekday.ofDay n = w := by
  constructor
  · intro generated
    cases generated with
    | weekly _ _ term _ picked _ =>
        cases List.mem_singleton.mp term
        exact (mem_weekdaysFrom.mp picked).2
    | monthly frequency => cases frequency
    | yearlyInMonths frequency => cases frequency
    | yearly frequency => cases frequency
  · intro weekday
    -- the Monday of the week that holds the day
    have start : Weekday.ofDay (n - (n + 3) % 7) = .monday := by
      rw [Weekday.ofDay_eq_iff]
      show _ = ((0 : Nat) : Int)
      omega
    exact .weekly rfl start (List.mem_singleton_self _) rfl
      (mem_weekdaysFrom.mpr ⟨by omega, weekday⟩) (.inl rfl)

/-- A monthly rule gives the days that its terms pick in the months it allows. -/
theorem generates_monthly_iff {days : List DayTerm} {months : List Nat} {n : Int} :
    Generates ⟨.monthly, days, months⟩ n
      ↔ (months = [] ∨ Civil.monthOf n ∈ months) ∧ PicksInMonth days n := by
  constructor
  · intro generated
    cases generated with
    | weekly frequency => cases frequency
    | monthly _ real month term picked =>
        obtain ⟨⟨rfl, rfl⟩, -⟩ := (DayTerm.mem_pick_month_iff real).mp picked
        exact ⟨month, _, term, picked⟩
    | yearlyInMonths frequency => cases frequency
    | yearly frequency => cases frequency
  · rintro ⟨month, t, term, picked⟩
    exact .monthly rfl (Civil.monthOf_range n) month term picked

theorem generates_yearly_iff {days : List DayTerm} {months : List Nat} (named : months ≠ [])
    {n : Int} :
    Generates ⟨.yearly, days, months⟩ n
      ↔ Civil.monthOf n ∈ months ∧ PicksInMonth days n := by
  constructor
  · intro generated
    cases generated with
    | weekly frequency => cases frequency
    | monthly frequency => cases frequency
    | yearlyInMonths _ real month term picked =>
        obtain ⟨⟨rfl, rfl⟩, -⟩ := (DayTerm.mem_pick_month_iff real).mp picked
        exact ⟨month, _, term, picked⟩
    | yearly _ unlimited => exact absurd unlimited named
  · rintro ⟨month, t, term, picked⟩
    exact .yearlyInMonths rfl (Civil.monthOf_range n) month term picked

end Rule

-- ── The rule of a schedule ───────────────────────────────────────────────────────

namespace Recurrence

/-- A term without a number picks every such weekday of the month. -/
theorem picksInMonth_every_iff {w : Weekday} {n : Int} :
    Rule.PicksInMonth [.every w] n ↔ Weekday.ofDay n = w := by
  have picked := DayTerm.mem_pick_month_iff (t := .every w) (y := Civil.yearOf n)
    (Civil.monthOf_range n) (n := n)
  constructor
  · rintro ⟨t, term, here⟩
    cases List.mem_singleton.mp term
    exact (picked.mp here).2.1
  · intro weekday
    exact ⟨.every w, List.mem_singleton_self _,
      picked.mpr ⟨⟨rfl, rfl⟩, weekday, fun k hk => nomatch hk⟩⟩

theorem mem_dayTerms_iff {o : Ordinals} {w : Weekday} {t : DayTerm} :
    t ∈ dayTerms o w ↔ ∃ n ∈ o.values, t = ⟨some n, w⟩ := by
  simp only [dayTerms]
  rw [List.mem_filterMap]
  refine exists_congr fun n => and_congr_right fun asked => ?_
  simp only [DayTerm.nth?]
  rw [if_pos (o.bounded n asked), Option.some_inj]
  exact eq_comm

/-- The terms of a rule pick the ordinals of the schedule. -/
theorem picksInMonth_dayTerms_iff {o : Ordinals} {w : Weekday} {n : Int} :
    Rule.PicksInMonth (dayTerms o w) n
      ↔ Weekday.ofDay n = w ∧ Civil.occurrence n ∈ o.values := by
  constructor
  · rintro ⟨t, term, picked⟩
    obtain ⟨k, hk, rfl⟩ := mem_dayTerms_iff.mp term
    obtain ⟨-, weekday, place⟩ :=
      (DayTerm.mem_pick_month_iff (Civil.monthOf_range n)).mp picked
    refine ⟨weekday, ?_⟩
    rw [place k rfl]
    exact hk
  · rintro ⟨weekday, place⟩
    refine ⟨⟨some (Civil.occurrence n), w⟩,
      mem_dayTerms_iff.mpr ⟨Civil.occurrence n, place, rfl⟩, ?_⟩
    refine (DayTerm.mem_pick_month_iff (Civil.monthOf_range n)).mpr
      ⟨⟨rfl, rfl⟩, weekday, fun k hk => ?_⟩
    cases hk
    rfl

/-- A list of months that allows one is not empty. -/
theorem months_ne_nil {months : List Nat} {m : Nat}
    (h : (AllowedMonths.only months).allows m = true) : months ≠ [] := by
  rintro rfl
  cases h

/-- **THE RULE AND THE SCHEDULE AGREE**: when the recurrence falls on any day at all, the days that
    its rule generates are the days on which it falls. -/
theorem rule_generates_iff {r : Recurrence} {limit : AllowedMonths} {day : Int}
    (falls : r.FallsOn limit day) {n : Int} :
    (r.rule limit).Generates n ↔ r.FallsOn limit n := by
  cases r with
  | weekly w =>
      cases limit with
      | every =>
          show Rule.Generates ⟨.weekly, [.every w], []⟩ n ↔ _
          rw [Rule.generates_weekly_iff]
          constructor
          · intro weekday
            exact ⟨weekday, rfl⟩
          · intro here
            exact here.1
      | only months =>
          -- limited to months, the weekly schedule has become a yearly rule
          show Rule.Generates ⟨.yearly, [.every w], months⟩ n ↔ _
          rw [Rule.generates_yearly_iff (months_ne_nil falls.2), picksInMonth_every_iff]
          simp only [FallsOn, AllowedMonths.allows, List.contains_iff_mem]
          exact And.comm
  | monthly o w =>
      have month : (limit.list?.getD [] = [] ∨ Civil.monthOf n ∈ limit.list?.getD [])
          ↔ limit.allows (Civil.monthOf n) = true := by
        cases limit with
        | every => exact ⟨fun _ => rfl, fun _ => .inl rfl⟩
        | only months =>
            rw [AllowedMonths.allows, List.contains_iff_mem]
            exact or_iff_right (months_ne_nil falls.2.2)
      show Rule.Generates ⟨.monthly, dayTerms o w, limit.list?.getD []⟩ n ↔ _
      rw [Rule.generates_monthly_iff, picksInMonth_dayTerms_iff, month]
      constructor
      · rintro ⟨own, weekday, place⟩
        exact ⟨weekday, place, own⟩
      · rintro ⟨weekday, place, own⟩
        exact ⟨own, weekday, place⟩
  | yearly o w own =>
      show Rule.Generates ⟨.yearly, dayTerms o w, [own]⟩ n ↔ _
      rw [Rule.generates_yearly_iff (List.cons_ne_nil own []), picksInMonth_dayTerms_iff,
        List.mem_singleton]
      constructor
      · rintro ⟨named, weekday, place⟩
        exact ⟨weekday, place, named⟩
      · rintro ⟨weekday, place, named⟩
        exact ⟨named, weekday, place⟩

/-- **FROM THE ANCHOR ON**, the rule generates the days of the recurrence and no others, and the
    anchor is the first day it generates in the window. -/
theorem rule_generates_from_anchor {r : Recurrence} {window : Window} {limit : AllowedMonths}
    {d : Date} (found : r.anchor window limit = .ok d) :
    {n | d.number ≤ n ∧ (r.rule limit).Generates n} = {n | d.number ≤ n ∧ r.FallsOn limit n}
      ∧ IsLeast {n | window.first.number ≤ n ∧ (r.rule limit).Generates n} d.number := by
  obtain ⟨first, -, falls, least⟩ := anchor_spec found
  have agree : ∀ n, (r.rule limit).Generates n ↔ r.FallsOn limit n := fun n =>
    rule_generates_iff falls
  refine ⟨?_, ⟨first, (agree d.number).mpr falls⟩, ?_⟩
  · simp only [agree]
  · rintro n ⟨from_, generated⟩
    -- days past the last date come after the anchor anyway
    by_cases inside : n < Civil.yearStart 262143
    · have low := window.first.inRange.1
      exact least ⟨n, by omega, inside⟩ from_ ((agree n).mp generated)
    · have high := d.inRange.2
      omega

/-- From 2024-02-01 to 2024-06-30. -/
def springOf2024 : Window := ⟨⟨19754, by decide⟩, ⟨19904, by decide⟩, by decide⟩

/-- The fifth occurrence alone. -/
def fifthOnly : Ordinals := ⟨[5], by decide, by decide, by decide⟩

/-- February 2024 has four Fridays, so the fifth Friday of a month is first found on
    2024-03-29. -/
theorem rule_generates_from_fifth_friday :
    (monthly fifthOnly .friday).anchor springOf2024 (.only [2, 3, 4])
        = .ok ⟨19811, by decide⟩
      ∧ {n | 19811 ≤ n ∧ ((monthly fifthOnly .friday).rule (.only [2, 3, 4])).Generates n}
        = {n | 19811 ≤ n ∧ (monthly fifthOnly .friday).FallsOn (.only [2, 3, 4]) n}
      ∧ IsLeast
        {n | 19754 ≤ n ∧ ((monthly fifthOnly .friday).rule (.only [2, 3, 4])).Generates n}
        19811 := by
  have found : (monthly fifthOnly .friday).anchor springOf2024 (.only [2, 3, 4])
      = .ok ⟨19811, by decide⟩ :=
  Outcome.eq_ok_of_toOption (by decide +kernel)
  exact ⟨found, rule_generates_from_anchor found⟩

end Recurrence

end CalendarFeeds
