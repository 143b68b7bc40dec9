import CalendarFeeds.Proofs.Days
import CalendarFeeds.Proofs.MonthsAhead
import Mathlib.Data.Set.Basic
import Mathlib.Order.Bounds.Defs

/-! # Anchors are earliest — no search passes over a day

    Both searches keep one invariant: every day of the recurrence that the window holds is at or
    after the place they have reached.  `FirstFrom` states what a search with that invariant ends
    with: the first such day, or nothing when the window holds none. -/

namespace CalendarFeeds

/-- **THE OUTCOME OF A SEARCH** for days with a property from a day number on: the first of them,
    or nothing if there is none up to a last date. -/
def FirstFrom (P : Date → Prop) (start : Int) (last : Date) : Option Date → Prop
  | some d => start ≤ d.number ∧ P d ∧ ∀ e : Date, start ≤ e.number → P e → d ≤ e
  | none => ∀ e : Date, start ≤ e.number → e ≤ last → ¬ P e

/-- A search may start later when it leaves out no day with the property. -/
theorem FirstFrom.of_later {P : Date → Prop} {start later : Int} {last : Date}
    {found : Option Date} (le : start ≤ later)
    (skip : ∀ e : Date, start ≤ e.number → e.number < later → ¬ P e)
    (h : FirstFrom P later last found) : FirstFrom P start last found := by
  cases found with
  | none =>
      intro e from_ upto pe
      by_cases early : e.number < later
      · exact skip e from_ early pe
      · exact h e (by omega) upto pe
  | some d =>
      obtain ⟨after, pd, least⟩ := h
      refine ⟨by omega, pd, fun e from_ pe => ?_⟩
      by_cases early : e.number < later
      · exact absurd pe (skip e from_ early)
      · exact least e (by omega) pe

-- ── One month ────────────────────────────────────────────────────────────────────

namespace AllowedMonths

theorem single_eq_ok {month : Nat} (h : 1 ≤ month ∧ month ≤ 12) :
    single month = .ok (only [month]) := by
  have found : [month].find? (fun m => m < 1 || 12 < m) = none := by
    simp
    omega
  simp only [single, ofList]
  rw [found]
  rfl

theorem single_eq_error {month : Nat} (h : ¬ (1 ≤ month ∧ month ≤ 12)) :
    single month = .error (.invalidMonth month) := by
  have found : [month].find? (fun m => m < 1 || 12 < m) = some month := by
    simp
    omega
  simp only [single, ofList]
  rw [found]

theorem allows_only_iff {m month : Nat} : (only [m]).allows month = true ↔ month = m := by
  simp [allows]

end AllowedMonths

-- ── The weekly search ────────────────────────────────────────────────────────────

namespace Date

/-- The next such weekday has the weekday, and none comes before it. -/
theorem nextWeekday?_eq_some {d day : Date} {w : Weekday} (h : d.nextWeekday? w = some day) :
    Weekday.ofDay day.number = w
      ∧ ∀ e : Date, d ≤ e → Weekday.ofDay e.number = w → day ≤ e := by
  have number := number_of_ofNumber? h
  have here : (d.weekday.index : Int) = (d.number + 3) % 7 := Weekday.index_ofDay d.number
  have bound := Weekday.index_lt w
  constructor
  · rw [Weekday.ofDay_eq_iff]
    omega
  · intro e from_ weekday
    have place := Weekday.ofDay_eq_iff.mp weekday
    have le : d.number ≤ e.number := from_
    show day.number ≤ e.number
    omega

/-- Past the last such weekday of the calendar there is no other. -/
theorem nextWeekday?_eq_none {d : Date} {w : Weekday} (h : d.nextWeekday? w = none) {e : Date}
    (from_ : d ≤ e) : Weekday.ofDay e.number ≠ w := by
  intro weekday
  have place := Weekday.ofDay_eq_iff.mp weekday
  have here : (d.weekday.index : Int) = (d.number + 3) % 7 := Weekday.index_ofDay d.number
  have bound := Weekday.index_lt w
  have le : d.number ≤ e.number := from_
  have low := d.inRange.1
  have high := e.inRange.2
  simp only [nextWeekday?, addDays?, ofNumber?] at h
  split at h
  · cases h
  · next outside => exact outside (by omega)

end Date

namespace Recurrence

/-- **THE WEEKLY SEARCH IS EXHAUSTIVE**: from any cursor it finds the first such weekday in an
    allowed month. -/
theorem weeklyAnchor?_firstFrom (w : Weekday) (window : Window) (limit : AllowedMonths)
    (cursor : Date) :
    FirstFrom (fun d => (weekly w).FallsOn limit d.number) cursor.number window.last
      (weeklyAnchor? w window limit cursor) := by
  fun_induction weeklyAnchor? w window limit cursor with
  | case1 cursor inside allowed forward =>
      -- the calendar ends before another such weekday
      intro e from_ _ falls
      exact Date.nextWeekday?_eq_none forward from_ falls.1
  | case2 cursor inside allowed day forward here =>
      obtain ⟨weekday, least⟩ := Date.nextWeekday?_eq_some forward
      refine ⟨Date.le_of_nextWeekday? forward, ⟨weekday, here⟩, fun e from_ falls => ?_⟩
      exact least e from_ falls.1
  | case3 cursor inside allowed day forward spilled ih =>
      -- the next such weekday is in a month that is refused: the search goes on from it
      obtain ⟨-, least⟩ := Date.nextWeekday?_eq_some forward
      refine ih.of_later (Date.le_of_nextWeekday? forward) fun e from_ early falls => ?_
      exact absurd (least e from_ falls.1) (Int.not_le.mpr early)
  | case4 cursor inside refused jump =>
      -- no month ahead is allowed
      intro e from_ _ falls
      have skipped := AllowedMonths.nextStart?_skips (Bool.eq_false_iff.mpr refused) from_
        (fun start found => nomatch jump.symm.trans found)
      exact absurd falls.2 (Bool.eq_false_iff.mp skipped)
  | case5 cursor inside refused start jump ih =>
      -- the days that the jump passes over are in months that are refused
      refine ih.of_later (Int.le_of_lt (AllowedMonths.lt_of_nextStart? jump))
        fun e from_ early falls => ?_
      have skipped := AllowedMonths.nextStart?_skips (Bool.eq_false_iff.mpr refused) from_
        (fun start' found => Option.some.inj (jump.symm.trans found) ▸ early)
      exact absurd falls.2 (Bool.eq_false_iff.mp skipped)
  | case6 cursor outside =>
      -- the cursor has left the window
      intro e from_ upto _
      have le : cursor.number ≤ e.number := from_
      exact outside (Int.le_trans le upto)

-- ── The search by months ─────────────────────────────────────────────────────────

/-- The occurrences of a weekday in a month come in the order of their ordinals. -/
theorem occurrences_ascend (o : Ordinals) (w : Weekday) (year : Int) (month : Nat) :
    (o.values.filterMap fun n => Date.nthWeekday? year month w n).Pairwise (· < ·) := by
  rw [List.pairwise_filterMap]
  refine o.ascends.imp ?_
  intro m n lt a ha b hb
  obtain ⟨ya, ma, -, oa⟩ := Date.nthWeekday?_eq_some_iff.mp ha
  obtain ⟨yb, mb, -, ob⟩ := Date.nthWeekday?_eq_some_iff.mp hb
  have da := a.day_eq
  have db := b.day_eq
  rw [ya, ma] at da
  rw [yb, mb] at db
  simp only [Date.ordinal] at oa ob
  show a.number < b.number
  omega

/-- What a month offers to the search. -/
theorem mem_occurrences_iff {o : Ordinals} {w : Weekday} {year : Int} {month : Nat} {d : Date} :
    d ∈ o.values.filterMap (fun n => Date.nthWeekday? year month w n)
      ↔ d.year = year ∧ d.month = month ∧ d.weekday = w ∧ d.ordinal ∈ o.values := by
  rw [List.mem_filterMap]
  constructor
  · rintro ⟨n, hn, found⟩
    obtain ⟨hy, hm, hw, rfl⟩ := Date.nthWeekday?_eq_some_iff.mp found
    exact ⟨hy, hm, hw, hn⟩
  · rintro ⟨hy, hm, hw, ho⟩
    exact ⟨d.ordinal, ho, Date.nthWeekday?_eq_some_iff.mpr ⟨hy, hm, hw, rfl⟩⟩

/-- The days that the search by months looks for. -/
def Sought (o : Ordinals) (w : Weekday) (window : Window) (limit : AllowedMonths) (d : Date) :
    Prop :=
  window.first ≤ d ∧ (monthly o w).FallsOn limit d.number

/-- A day that the search looks for is among the numbered weekdays of its own month. -/
theorem mem_occurrences_of_sought {o : Ordinals} {w : Weekday} {window : Window}
    {limit : AllowedMonths} {d : Date} (h : Sought o w window limit d) :
    d ∈ o.values.filterMap (fun n => Date.nthWeekday? d.year d.month w n) := by
  obtain ⟨-, hw, ho, -⟩ := h
  rw [← Date.ordinal_eq_occurrence] at ho
  exact mem_occurrences_iff.mpr ⟨rfl, rfl, hw, ho⟩

/-- **THE MONTH STEP**: the date found in a month is sought and the first of the month that is;
    nothing is found only where nothing is sought. -/
theorem firstInMonth?_spec (o : Ordinals) (w : Weekday) (window : Window)
    (limit : AllowedMonths) (year : Int) (month : Nat) :
    match firstInMonth? o w window limit year month with
    | some d => (d.year = year ∧ d.month = month) ∧ Sought o w window limit d
        ∧ ∀ e : Date, e.year = year → e.month = month → Sought o w window limit e → d ≤ e
    | none => ∀ e : Date, e.year = year → e.month = month → ¬ Sought o w window limit e := by
  simp only [firstInMonth?]
  by_cases allowed : limit.allows month = true
  · rw [if_pos allowed]
    split
    · next d found =>
        obtain ⟨inside, before, after, list, passed⟩ := List.find?_eq_some_iff_append.mp found
        have mem : d ∈ o.values.filterMap fun n => Date.nthWeekday? year month w n := by
          rw [list]
          simp
        obtain ⟨hy, hm, hw, ho⟩ := mem_occurrences_iff.mp mem
        have ordered := occurrences_ascend o w year month
        -- what `find?` passed over lies before the window, and what it did not reach comes later
        refine ⟨⟨hy, hm⟩, ⟨of_decide_eq_true inside, hw, ?_, ?_⟩, ?_⟩
        · rw [← Date.ordinal_eq_occurrence]
          exact ho
        · show limit.allows d.month = true
          rw [hm]
          exact allowed
        · rintro e rfl rfl sought
          have other := mem_occurrences_of_sought sought
          rw [list] at other ordered
          rcases List.mem_append.mp other with early | late
          · have refused := passed e early
            simp [sought.1] at refused
          · rcases List.mem_cons.mp late with rfl | late
            · exact Int.le_refl _
            · have tail := (List.pairwise_append.mp ordered).2.1
              exact Int.le_of_lt ((List.pairwise_cons.mp tail).1 e late)
    · next missing =>
        rintro e rfl rfl sought
        have refused := List.find?_eq_none.mp missing e (mem_occurrences_of_sought sought)
        simp [sought.1] at refused
  · rw [if_neg allowed]
    rintro e - rfl sought
    exact allowed sought.2.2.2

/-- **THE SEARCH BY MONTHS IS EXHAUSTIVE**: from any month on it finds the first date that is
    sought. -/
theorem ordinalAnchor?_firstFrom (o : Ordinals) (w : Weekday) (window : Window)
    (limit : AllowedMonths) (year : Int) (month : Nat) (h : 1 ≤ month ∧ month ≤ 12)
    (reached : Civil.yearStart (-262143) ≤ Civil.monthStart year month) :
    FirstFrom (Sought o w window limit) (Civil.monthStart year month) window.last
      (ordinalAnchor? o w window limit year month) := by
  fun_induction ordinalAnchor? o w window limit year month with
  | case1 year month missing =>
      -- the calendar ends before the month
      intro e from_ _ _
      obtain ⟨first, found, -⟩ := Date.ofCivil?_one h reached from_
      exact nomatch missing.symm.trans found
  | case2 year month first begins past =>
      -- the month begins after the window
      intro e from_ upto _
      have place := (Date.number_of_ofCivil?_one begins).2
      have lt : window.last.number < first.number := past
      have le : e.number ≤ window.last.number := upto
      omega
  | case3 year month first begins running d found =>
      -- days of the month are compared with the one found, later days come after it anyway
      have spec := firstInMonth?_spec o w window limit year month
      rw [found] at spec
      obtain ⟨own, sought, least⟩ := spec
      have held : Civil.InMonth year month d.number := (Civil.inMonth_iff h).mpr own
      refine ⟨held.1, sought, fun e from_ other => ?_⟩
      by_cases within : e.number < Civil.monthStart year month + Civil.monthLength year month
      · obtain ⟨hy, hm⟩ := (Civil.inMonth_iff h).mp ⟨from_, within⟩
        exact least e hy hm other
      · have early := held.2
        show d.number ≤ e.number
        omega
  | case4 year month first begins running missing ih =>
      -- the month has nothing to offer, so the search may start with the next
      have spec := firstInMonth?_spec o w window limit year month
      rw [missing] at spec
      have later := Civil.monthStart_nextMonth (y := year) h
      refine (ih (Civil.nextMonth_range h.2) (by omega)).of_later (by omega) ?_
      intro e from_ early
      obtain ⟨hy, hm⟩ := (Civil.inMonth_iff h).mp ⟨from_, by omega⟩
      exact spec e hy hm

/-- What is sought from the month of the window's first day on is what the recurrence has from the
    first day on. -/
theorem monthly_firstFrom_window (o : Ordinals) (w : Weekday) (window : Window)
    (limit : AllowedMonths) :
    FirstFrom (fun d => (monthly o w).FallsOn limit d.number) window.first.number window.last
      (ordinalAnchor? o w window limit window.first.year window.first.month) := by
  have search := ordinalAnchor?_firstFrom o w window limit window.first.year window.first.month
    window.first.month_range window.first.monthStart_inRange
  have begun : Civil.monthStart window.first.year window.first.month ≤ window.first.number :=
    (Civil.inMonth_self window.first.number).1
  generalize ordinalAnchor? o w window limit window.first.year window.first.month = found at search ⊢
  cases found with
  | none =>
      intro e from_ upto falls
      exact search e (Int.le_trans begun from_) upto ⟨from_, falls⟩
  | some d =>
      obtain ⟨-, ⟨from_, falls⟩, least⟩ := search
      exact ⟨from_, falls, fun e after other => least e (Int.le_trans begun after) ⟨after, other⟩⟩

-- ── The anchor ───────────────────────────────────────────────────────────────────

/-- **EVERY SEARCH IS EXHAUSTIVE**: the candidate of a recurrence is its first day on or after the
    first day of the window. -/
theorem candidate?_firstFrom (r : Recurrence) (window : Window) (limit : AllowedMonths)
    (real : ∀ month, r.month? = some month → 1 ≤ month ∧ month ≤ 12) :
    ∃ found, r.candidate? window limit = .ok found
      ∧ FirstFrom (fun d => r.FallsOn limit d.number) window.first.number window.last found := by
  cases r with
  | weekly w => exact ⟨_, rfl, weeklyAnchor?_firstFrom w window limit window.first⟩
  | monthly o w => exact ⟨_, rfl, monthly_firstFrom_window o w window limit⟩
  | yearly o w month =>
      have own := AllowedMonths.single_eq_ok (real month rfl)
      have search := monthly_firstFrom_window o w window (.only [month])
      have same : ∀ d : Date, (monthly o w).FallsOn (.only [month]) d.number
          ↔ (yearly o w month).FallsOn limit d.number := by
        intro d
        simp only [FallsOn, AllowedMonths.allows_only_iff]
      simp only [same] at search
      refine ⟨ordinalAnchor? o w window (.only [month]) window.first.year window.first.month,
        ?_, search⟩
      show (AllowedMonths.single month).map _ = _
      rw [own]
      rfl

/-- The anchor is the first day of the recurrence from the first day of the window on, or an error
    that names the recurrence and the window, which then holds no day of it. -/
theorem anchor_cases (r : Recurrence) (window : Window) (limit : AllowedMonths)
    (real : ∀ month, r.month? = some month → 1 ≤ month ∧ month ≤ 12) :
    (∃ d, r.anchor window limit = .ok d ∧ window.first ≤ d ∧ d ≤ window.last
        ∧ r.FallsOn limit d.number
        ∧ ∀ e : Date, window.first ≤ e → r.FallsOn limit e.number → d ≤ e)
      ∨ (r.anchor window limit = .error (.noValidAnchor r window.first window.last)
        ∧ ∀ e : Date, window.first ≤ e → e ≤ window.last → ¬ r.FallsOn limit e.number) := by
  obtain ⟨found, candidate, search⟩ := candidate?_firstFrom r window limit real
  have outcome : r.anchor window limit = match found.filter window.contains with
      | some d => .ok d
      | none => .error (.noValidAnchor r window.first window.last) := by
    simp only [anchor]
    generalize r.candidate? window limit = searched at candidate
    cases candidate
    rfl
  cases found with
  | none => exact .inr ⟨outcome, search⟩
  | some d =>
      obtain ⟨from_, falls, least⟩ := search
      have first : window.first ≤ d := from_
      -- the search may run past the window, within the month in which that ends
      by_cases upto : d ≤ window.last
      · have held : window.contains d = true := by
          simp [Window.contains, first, upto]
        rw [Option.filter_some_pos held] at outcome
        exact .inl ⟨d, outcome, first, upto, falls, least⟩
      · have beyond : window.contains d = false := by
          simp [Window.contains, upto]
        rw [Option.filter_some_neg beyond] at outcome
        refine .inr ⟨outcome, fun e after before other => upto ?_⟩
        exact Int.le_trans (least e after other) before

/-- Only a recurrence in a real month has an anchor. -/
theorem month_range_of_anchor {r : Recurrence} {window : Window} {limit : AllowedMonths} {d : Date}
    (found : r.anchor window limit = .ok d) :
    ∀ month, r.month? = some month → 1 ≤ month ∧ month ≤ 12 := by
  cases r with
  | weekly w => exact fun month h => nomatch h
  | monthly o w => exact fun month h => nomatch h
  | yearly o w own =>
      intro month h
      cases h
      by_cases real : 1 ≤ own ∧ own ≤ 12
      · exact real
      · simp only [anchor, candidate?] at found
        simp only [AllowedMonths.single_eq_error real] at found
        cases found

/-- The anchor lies in the window and is a day of the recurrence, and none comes before it. -/
theorem anchor_spec {r : Recurrence} {window : Window} {limit : AllowedMonths} {d : Date}
    (found : r.anchor window limit = .ok d) :
    window.first ≤ d ∧ d ≤ window.last ∧ r.FallsOn limit d.number
      ∧ ∀ e : Date, window.first ≤ e → r.FallsOn limit e.number → d ≤ e := by
  rcases anchor_cases r window limit (month_range_of_anchor found) with
    ⟨d', here, spec⟩ | ⟨missing, -⟩
  · cases here.symm.trans found
    exact spec
  · cases missing.symm.trans found

/-- No day of a recurrence from the first of a window on, in the range of dates or not, comes
    before the anchor. -/
theorem anchor_le_of_fallsOn {r : Recurrence} {window : Window} {limit : AllowedMonths} {d : Date}
    (found : r.anchor window limit = .ok d) {n : Int} (late : window.first.number ≤ n)
    (falls : r.FallsOn limit n) : d.number ≤ n := by
  obtain ⟨-, -, -, least⟩ := anchor_spec found
  by_contra before
  have low := window.first.inRange.1
  have high := d.inRange.2
  exact before (least ⟨n, by omega, by omega⟩ late falls)

/-- The days of a recurrence that a window holds. -/
def daysIn (r : Recurrence) (window : Window) (limit : AllowedMonths) : Set Date :=
  {d | window.first ≤ d ∧ d ≤ window.last ∧ r.FallsOn limit d.number}

/-- **THE ANCHOR IS THE EARLIEST DAY** of the recurrence in the window; there is none exactly when
    the window holds no such day. -/
theorem anchor_isLeast_daysIn (r : Recurrence) (window : Window) (limit : AllowedMonths)
    (real : ∀ month, r.month? = some month → 1 ≤ month ∧ month ≤ 12) :
    (∀ d, r.anchor window limit = .ok d ↔ IsLeast (r.daysIn window limit) d)
      ∧ (r.anchor window limit = .error (.noValidAnchor r window.first window.last)
          ↔ r.daysIn window limit = ∅) := by
  rcases anchor_cases r window limit real with
    ⟨d, found, first, last, falls, least⟩ | ⟨missing, none_⟩
  · have best : IsLeast (r.daysIn window limit) d :=
      ⟨⟨first, last, falls⟩, fun e he => least e he.1 he.2.2⟩
    refine ⟨fun d' => ?_, ?_⟩
    · rw [found]
      constructor
      · intro same
        cases same
        exact best
      · intro other
        have le : d.number ≤ d'.number := best.2 other.1
        have ge : d'.number ≤ d.number := other.2 best.1
        rw [Date.eq_of_number_eq (show d.number = d'.number by omega)]
    · rw [found]
      constructor
      · intro absurd_
        cases absurd_
      · intro empty
        exact absurd best.1 (empty ▸ fun h => h)
  · have empty : r.daysIn window limit = ∅ :=
      Set.eq_empty_iff_forall_notMem.mpr fun e he => none_ e he.1 he.2.1 he.2.2
    refine ⟨fun d' => ?_, ?_⟩
    · rw [missing, empty]
      constructor
      · intro absurd_
        cases absurd_
      · intro other
        exact absurd other.1 (fun h => h)
    · rw [missing, empty]
      exact ⟨fun _ => rfl, fun _ => rfl⟩

/-- The last Thursday that a fifth Thursday of February can be: the window from 2032-02-27 to the
    last date of the calendar. -/
theorem anchor_isLeast_daysIn_fifth_thursday :
    let window : Window := ⟨⟨22702, by decide⟩, ⟨95026236, by decide⟩, by decide⟩
    let r := yearly ⟨[5], by decide, by decide, by decide⟩ .thursday 2
    (∀ month, r.month? = some month → 1 ≤ month ∧ month ≤ 12)
      ∧ (∀ d, r.anchor window .every = .ok d ↔ IsLeast (r.daysIn window .every) d)
      ∧ (r.anchor window .every = .error (.noValidAnchor r window.first window.last)
          ↔ r.daysIn window .every = ∅) := by
  intro window r
  have real : ∀ month, r.month? = some month → 1 ≤ month ∧ month ≤ 12 := by
    intro month h
    cases h
    decide
  exact ⟨real, anchor_isLeast_daysIn r window .every real⟩

end Recurrence

end CalendarFeeds
