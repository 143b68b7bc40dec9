import CalendarFeeds.Schedule.AllowedMonths
import Mathlib.Tactic.ByContra

/-! # Months ahead — the next month that a limit allows

    The twelve months after a date are every month of the year once, and the last of them is the
    date's own month again.  So a walk over these twelve meets each month that is allowed, and the
    first that it meets is the next one: nothing lies between two steps of a walk that goes from
    month to month.  Years are counted without end here, and only the first day of the month that
    was found can lie past the last date. -/

namespace CalendarFeeds

/-- **A YEAR AHEAD HOLDS EVERY MONTH**: each month of the year is among the twelve after any
    month. -/
theorem Civil.exists_year_ahead (start : Int) {from_ m : Nat} (h : 1 ≤ from_ ∧ from_ ≤ 12)
    (real : 1 ≤ m ∧ m ≤ 12) :
    ∃ y, monthIndex start from_ < monthIndex y m
      ∧ monthIndex y m ≤ monthIndex start from_ + 12 := by
  simp only [monthIndex]
  by_cases later : from_ < m
  · exact ⟨start, by omega, by omega⟩
  · exact ⟨start + 1, by omega, by omega⟩

namespace AllowedMonths

variable {a : AllowedMonths} {d : Date} {year : Int} {month : Nat}

/-- **THE NEXT ALLOWED MONTH** after the month of a date: an allowed month that comes later, with
    no other such month before it.  Its year may be one that no date has. -/
structure IsNext (a : AllowedMonths) (d : Date) (year : Int) (month : Nat) : Prop where
  real : 1 ≤ month ∧ month ≤ 12
  allowed : a.allows month = true
  later : Civil.monthIndex d.year d.month < Civil.monthIndex year month
  earliest : ∀ y m, (1 ≤ m ∧ m ≤ 12) → a.allows m = true →
    Civil.monthIndex d.year d.month < Civil.monthIndex y m →
    Civil.monthIndex year month ≤ Civil.monthIndex y m

namespace IsNext

theorem unique {year' : Int} {month' : Nat} (h : a.IsNext d year month)
    (h' : a.IsNext d year' month') : year = year' ∧ month = month' := by
  have le := h.earliest year' month' h'.real h'.allowed h'.later
  have ge := h'.earliest year month h.real h.allowed h.later
  exact Civil.eq_of_monthIndex_eq h.real h'.real (Int.le_antisymm le ge)

theorem lt_monthStart (h : a.IsNext d year month) : d.number < Civil.monthStart year month := by
  by_contra begun
  have reached := (Civil.monthIndex_le_indexOf_iff h.real).mpr (Int.not_lt.mp begun)
  exact absurd h.later (Int.not_lt.mpr reached)

/-- The next allowed month is one of the twelve after the date's. -/
theorem within_year (h : a.IsNext d year month) :
    Civil.monthIndex year month ≤ Civil.monthIndex d.year d.month + 12 := by
  obtain ⟨y, after, upto⟩ := Civil.exists_year_ahead d.year d.month_range h.real
  exact Int.le_trans (h.earliest y month h.real h.allowed after) upto

/-- **ONCE ROUND THE YEAR**: the next allowed month is the date's own, a year later, exactly when
    no other month is allowed. -/
theorem own_month_iff (h : a.IsNext d year month) :
    (year = d.year + 1 ∧ month = d.month)
      ↔ ∀ m, (1 ≤ m ∧ m ≤ 12) → a.allows m = true → m = d.month := by
  have own := d.month_range
  constructor
  · rintro ⟨rfl, rfl⟩ m real allowed
    -- an allowed month comes within the year but not before the date's own, which ends the year
    obtain ⟨y, after, upto⟩ := Civil.exists_year_ahead d.year own real
    have reached := h.earliest y m real allowed after
    have last : Civil.monthIndex (d.year + 1) d.month = Civil.monthIndex d.year d.month + 12 := by
      simp only [Civil.monthIndex]
      omega
    exact (Civil.eq_of_monthIndex_eq real own (Int.le_antisymm (last ▸ upto) reached)).2
  · intro only
    have same : month = d.month := only month h.real h.allowed
    have later := h.later
    have within := h.within_year
    simp only [Civil.monthIndex] at later within
    exact ⟨by omega, same⟩

/-- The next allowed month has a first date if it begins on or before some date. -/
theorem exists_first (h : a.IsNext d year month) {e : Date}
    (begun : Civil.monthStart year month ≤ e.number) :
    ∃ first, Date.ofCivil? year month 1 = some first
      ∧ first.number = Civil.monthStart year month := by
  have lower := d.inRange.1
  have ahead := h.lt_monthStart
  exact Date.ofCivil?_one h.real (by omega) begun

/-- The next allowed month has no first date exactly when it begins after every date. -/
theorem ofCivil?_eq_none_iff (h : a.IsNext d year month) :
    Date.ofCivil? year month 1 = none ↔ ∀ e : Date, e.number < Civil.monthStart year month := by
  constructor
  · intro missing e
    by_contra begun
    obtain ⟨first, begins, -⟩ := h.exists_first (Int.not_lt.mp begun)
    exact nomatch missing.symm.trans begins
  · intro past
    cases begins : Date.ofCivil? year month 1 with
    | none => rfl
    | some first =>
        have place := (Date.number_of_ofCivil?_one begins).2
        exact absurd (past first) (by omega)

end IsNext

-- ── The walk ─────────────────────────────────────────────────────────────────────

/-- When no month is found, none of the months looked at is allowed. -/
theorem nextMonth?_eq_none {count : Nat} (h : month ≤ 12)
    (missing : a.nextMonth? count year month = none) :
    ∀ y m, (1 ≤ m ∧ m ≤ 12) → Civil.monthIndex year month < Civil.monthIndex y m →
      Civil.monthIndex y m ≤ Civil.monthIndex year month + count → a.allows m = false := by
  induction count generalizing year month with
  | zero =>
      intro y m _ after before
      omega
  | succ count ih =>
      intro y m valid after before
      have step := Civil.monthIndex_nextMonth (y := year) h
      have range := Civil.nextMonth_range (y := year) h
      simp only [nextMonth?] at missing
      split at missing
      · cases missing
      · next refused =>
          -- the month refused first, or one of those that the induction covers
          by_cases here : Civil.monthIndex y m
              = Civil.monthIndex (Civil.nextMonth year month).1 (Civil.nextMonth year month).2
          · rw [(Civil.eq_of_monthIndex_eq valid range here).2]
            exact Bool.eq_false_iff.mpr refused
          · exact ih range.2 missing y m valid (by omega) (by omega)

/-- When a year ahead holds no allowed month there is none. -/
theorem nothing_allowed_of_nextMonth? (h : 1 ≤ month ∧ month ≤ 12)
    (missing : a.nextMonth? 12 year month = none) {m : Nat} (valid : 1 ≤ m ∧ m ≤ 12) :
    a.allows m = false := by
  obtain ⟨y, after, upto⟩ := Civil.exists_year_ahead year h valid
  exact nextMonth?_eq_none h.2 missing y m valid after upto

/-- What the search finds is the earliest later month that is allowed. -/
theorem isNext_of_nextMonth? (found : a.nextMonth? 12 d.year d.month = some (year, month)) :
    a.IsNext d year month := by
  obtain ⟨real, allowed, later, between⟩ := nextMonth?_eq_some d.month_range.2 found
  refine ⟨real, allowed, later, fun y m valid listed after => ?_⟩
  by_contra early
  have refused := between y m valid after (Int.not_le.mp early)
  exact Bool.false_ne_true (refused.symm.trans listed)

/-- **THE WALK FINDS THE NEXT ALLOWED MONTH**, which lies among the twelve months that it visits
    whenever there is one. -/
theorem nextMonth?_eq_some_iff :
    a.nextMonth? 12 d.year d.month = some (year, month) ↔ a.IsNext d year month := by
  constructor
  · exact isNext_of_nextMonth?
  · intro next
    cases found : a.nextMonth? 12 d.year d.month with
    | none =>
        have refused := nothing_allowed_of_nextMonth? d.month_range found next.real
        exact absurd next.allowed (Bool.eq_false_iff.mp refused)
    | some place =>
        obtain ⟨y, m⟩ := place
        obtain ⟨rfl, rfl⟩ := (isNext_of_nextMonth? found).unique next
        rfl

/-- The search gives up only when no month is allowed: twelve months hold all of them. -/
theorem nextMonth?_eq_none_iff :
    a.nextMonth? 12 d.year d.month = none ↔ ∀ m, (1 ≤ m ∧ m ≤ 12) → a.allows m = false := by
  constructor
  · intro missing m valid
    exact nothing_allowed_of_nextMonth? d.month_range missing valid
  · intro refused
    cases found : a.nextMonth? 12 d.year d.month with
    | none => rfl
    | some place =>
        have next : a.IsNext d place.1 place.2 := isNext_of_nextMonth? found
        exact absurd next.allowed (Bool.eq_false_iff.mp (refused place.2 next.real))

-- ── The first day ────────────────────────────────────────────────────────────────

theorem nextStart?_of_isNext (h : a.IsNext d year month) :
    a.nextStart? d = Date.ofCivil? year month 1 := by
  unfold nextStart?
  rw [nextMonth?_eq_some_iff.mpr h]
  rfl

theorem nextStart?_eq_some_iff {start : Date} :
    a.nextStart? d = some start ↔ a.IsNext d start.year start.month ∧ start.day = 1 := by
  constructor
  · intro jump
    unfold nextStart? at jump
    obtain ⟨⟨y, m⟩, found, first⟩ := Option.bind_eq_some_iff.mp jump
    obtain ⟨rfl, rfl, day⟩ := Date.ofCivil?_eq_some_iff.mp first
    exact ⟨isNext_of_nextMonth? found, day⟩
  · rintro ⟨next, day⟩
    rw [nextStart?_of_isNext next]
    exact Date.ofCivil?_eq_some_iff.mpr ⟨rfl, rfl, day⟩

/-- There is no start when no month is allowed, or when the next one lies beyond the calendar. -/
theorem nextStart?_eq_none_iff :
    a.nextStart? d = none
      ↔ (∀ m, (1 ≤ m ∧ m ≤ 12) → a.allows m = false)
        ∨ ∃ year month, a.IsNext d year month
            ∧ ∀ e : Date, e.number < Civil.monthStart year month := by
  constructor
  · intro missing
    cases found : a.nextMonth? 12 d.year d.month with
    | none => exact .inl (nextMonth?_eq_none_iff.mp found)
    | some place =>
        have next : a.IsNext d place.1 place.2 := isNext_of_nextMonth? found
        rw [nextStart?_of_isNext next] at missing
        exact .inr ⟨place.1, place.2, next, next.ofCivil?_eq_none_iff.mp missing⟩
  · rintro (refused | ⟨year, month, next, past⟩)
    · unfold nextStart?
      rw [nextMonth?_eq_none_iff.mpr refused]
      rfl
    · rw [nextStart?_of_isNext next]
      exact next.ofCivil?_eq_none_iff.mpr past

/-- **NO ALLOWED MONTH IS SKIPPED**: from any date in a later month that is allowed, the start found
    is that date or an earlier one. -/
theorem exists_nextStart?_le {e : Date}
    (after : Civil.monthIndex d.year d.month < Civil.monthIndex e.year e.month)
    (allowed : a.allows e.month = true) : ∃ start, a.nextStart? d = some start ∧ start ≤ e := by
  cases found : a.nextMonth? 12 d.year d.month with
  | none =>
      have refused := nothing_allowed_of_nextMonth? d.month_range found e.month_range
      exact absurd allowed (Bool.eq_false_iff.mp refused)
  | some place =>
      have next : a.IsNext d place.1 place.2 := isNext_of_nextMonth? found
      have reached := next.earliest e.year e.month e.month_range allowed after
      have begun := (Civil.monthIndex_le_indexOf_iff next.real).mp reached
      obtain ⟨start, first, number⟩ := next.exists_first begun
      have le : start.number ≤ e.number := number ▸ begun
      exact ⟨start, (nextStart?_of_isNext next).trans first, le⟩

/-- Between a date in a refused month and the start of the next allowed month, and after the date
    when there is no such start, no day is in an allowed month. -/
theorem nextStart?_skips {e : Date} (refused : a.allows d.month = false) (from_ : d ≤ e)
    (before : ∀ start, a.nextStart? d = some start → e < start) : a.allows e.month = false := by
  rw [← Bool.not_eq_true]
  intro allowed
  have order : Civil.monthIndex d.year d.month ≤ Civil.monthIndex e.year e.month :=
    Civil.indexOf_mono from_
  rcases Int.lt_or_eq_of_le order with after | same
  · obtain ⟨start, jump, le⟩ := exists_nextStart?_le after allowed
    exact absurd (before start jump) (Int.not_lt.mpr le)
  · have month := (Civil.eq_of_monthIndex_eq d.month_range e.month_range same).2
    rw [← month, refused] at allowed
    cases allowed

/-- **THE START OF THE NEXT ALLOWED MONTH**, for every limit and every date: it is the first day of
    the next allowed month, at most twelve months ahead; there is none exactly when no month is
    allowed or that first day lies after every date; and no later date in an allowed month comes
    before it. -/
theorem nextStart?_finds_next_month (a : AllowedMonths) (d : Date) :
    (∀ start, a.nextStart? d = some start ↔ a.IsNext d start.year start.month ∧ start.day = 1)
      ∧ (a.nextStart? d = none
          ↔ (∀ m, (1 ≤ m ∧ m ≤ 12) → a.allows m = false)
            ∨ ∃ year month, a.IsNext d year month
                ∧ ∀ e : Date, e.number < Civil.dayNumber year month 1)
      ∧ (∀ year month, a.IsNext d year month →
          Civil.monthIndex year month ≤ Civil.monthIndex d.year d.month + 12
            ∧ ((year = d.year + 1 ∧ month = d.month)
                ↔ ∀ m, (1 ≤ m ∧ m ≤ 12) → a.allows m = true → m = d.month))
      ∧ ∀ e : Date, Civil.monthIndex d.year d.month < Civil.monthIndex e.year e.month →
          a.allows e.month = true → ∃ start, a.nextStart? d = some start ∧ start ≤ e := by
  refine ⟨fun start => nextStart?_eq_some_iff, ?_, ?_, fun e => exists_nextStart?_le⟩
  · simp only [Civil.dayNumber_one]
    exact nextStart?_eq_none_iff
  · intro year month next
    exact ⟨next.within_year, next.own_month_iff⟩

/-- From December of the last year of the calendar the next January is past its end. -/
example : (only [1, 12, 40]).nextStart? ⟨95026236, by decide⟩ = none := by
  decide

end AllowedMonths

end CalendarFeeds
