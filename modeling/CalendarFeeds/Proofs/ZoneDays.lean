import CalendarFeeds.Proofs.LocalTime
import CalendarFeeds.Zone.Table

/-! # Days of a zone — where clocks move by whole days

    A time counted from midnight is shown on the day of that midnight or close to it, unless the
    clocks of the zone move by a whole day in between.  They hardly can: the offsets of most zones
    lie within less than a day of each other.  A zone that crosses the date line has offsets a day
    apart, and there the date of the crossing decides.  The one such zone of the table skips a
    whole date, from midnight to midnight. -/

namespace CalendarFeeds.Zone

/-- In the 24 hours from a midnight on, clocks do not move by whole days. -/
def KeepsDays (z : Zone) : Prop :=
  ∀ midnight utc, (midnight + z.offsetAt midnight) % 86400 = 0
    → midnight ≤ utc → utc < midnight + 86400
    → (z.offsetAt utc - z.offsetAt midnight) % 86400 = 0 → z.offsetAt utc = z.offsetAt midnight

-- ── Offsets close to each other ──────────────────────────────────────────────────

/-- A reading is the first one or that of a change. -/
theorem readingFrom_cases (r : Reading) (ts : List Transition) (utc : Int) :
    readingFrom r ts utc = r ∨ ∃ t ∈ ts, readingFrom r ts utc = t.reading := by
  induction ts generalizing r with
  | nil => exact .inl rfl
  | cons t ts ih =>
      simp only [readingFrom]
      split
      · rcases ih t.reading with own | ⟨u, later, here⟩
        · exact .inr ⟨t, List.mem_cons_self, own⟩
        · exact .inr ⟨u, List.mem_cons_of_mem t later, here⟩
      · exact .inl rfl

theorem mem_inOrder {t : Transition} {ts : List Transition} : t ∈ inOrder ts ↔ t ∈ ts := by
  induction ts with
  | nil => exact Iff.rfl
  | cons u us ih =>
      show t ∈ insertTransition u (inOrder us) ↔ _
      rw [mem_insertTransition, ih, List.mem_cons]

/-- Zones made of changes have the readings of the changes and no others. -/
theorem readingAt_ofChanges (name : String) (initial : Reading) (changes : List Change)
    (utc : Int) :
    (ofChanges name initial changes).readingAt utc = initial
      ∨ ∃ c ∈ changes, (ofChanges name initial changes).readingAt utc = c.reading := by
  rcases readingFrom_cases initial (inOrder (changes.flatMap Change.transitions)) utc with
    first | ⟨t, listed, here⟩
  · exact .inl first
  · obtain ⟨c, change, own⟩ := List.mem_flatMap.mp (mem_inOrder.mp listed)
    obtain ⟨k, -, rfl⟩ := List.mem_map.mp own
    exact .inr ⟨c, change, here⟩

/-- Where all offsets are less than half a day from the first one, no two are a day apart. -/
theorem keepsDays_ofChanges {name : String} {initial : Reading} {changes : List Change}
    (close : ∀ c ∈ changes,
      -43200 < c.reading.offset - initial.offset ∧ c.reading.offset - initial.offset < 43200) :
    (ofChanges name initial changes).KeepsDays := by
  have near : ∀ utc, -43200 < (ofChanges name initial changes).offsetAt utc - initial.offset
      ∧ (ofChanges name initial changes).offsetAt utc - initial.offset < 43200 := by
    intro utc
    simp only [offsetAt]
    rcases readingAt_ofChanges name initial changes utc with first | ⟨c, change, here⟩
    · rw [first]
      omega
    · rw [here]
      exact close c change
  intro midnight utc _ _ _ whole
  have before := near midnight
  have after := near utc
  omega

-- ── Offsets a day apart ──────────────────────────────────────────────────────────

/-- Whether transitions are a day apart or more, and move clocks by whole days only at midnight,
    given the reading in force before them. -/
def calmFrom (r : Reading) : List Transition → Bool
  | [] => true
  | t :: ts =>
    (t.reading.offset == r.offset || (t.reading.offset - r.offset) % 86400 != 0
        || (t.instant + r.offset) % 86400 == 0)
      && ts.head?.all (fun u => decide (t.instant + 86400 ≤ u.instant))
      && calmFrom t.reading ts

/-- Before the first change the first reading holds. -/
theorem readingFrom_eq_of_lt_head {r : Reading} {ts : List Transition} {utc : Int}
    (ahead : ∀ t ∈ ts.head?, utc < t.instant) : readingFrom r ts utc = r := by
  cases ts with
  | nil => rfl
  | cons t ts =>
      have before : ¬ t.instant ≤ utc := Int.not_le.mpr (ahead t rfl)
      exact if_neg before

/-- Calm changes never move the offset by whole days within a day of midnight. -/
theorem offset_eq_of_calmFrom {r : Reading} {ts : List Transition} {midnight utc : Int}
    (calm : calmFrom r ts = true)
    (here : (midnight + (readingFrom r ts midnight).offset) % 86400 = 0)
    (le : midnight ≤ utc) (near : utc < midnight + 86400)
    (whole : ((readingFrom r ts utc).offset - (readingFrom r ts midnight).offset) % 86400 = 0) :
    (readingFrom r ts utc).offset = (readingFrom r ts midnight).offset := by
  induction ts generalizing r with
  | nil => rfl
  | cons t ts ih =>
      simp only [calmFrom, Bool.and_eq_true_iff, Bool.or_eq_true, beq_iff_eq, bne_iff_ne,
        Option.all_eq_true, decide_eq_true_iff] at calm
      obtain ⟨⟨turn, apart⟩, later⟩ := calm
      simp only [readingFrom] at here whole ⊢
      by_cases passed : t.instant ≤ midnight
      · have reached := Int.le_trans passed le
        rw [if_pos passed] at here
        rw [if_pos passed, if_pos reached] at whole ⊢
        exact ih later here whole
      · by_cases reached : t.instant ≤ utc
        · -- the next transition is too late to be between the two instants as well
          have last : readingFrom t.reading ts utc = t.reading :=
            readingFrom_eq_of_lt_head fun u next => by
              have := apart u next
              omega
          rw [if_neg passed] at here
          rw [if_neg passed, if_pos reached, last] at whole ⊢
          omega
        · rw [if_neg passed, if_neg reached]

/-- A calm zone keeps its days. -/
theorem keepsDays_of_calm {z : Zone} (calm : calmFrom z.initial z.transitions = true) :
    z.KeepsDays :=
  fun _ _ here le near whole => offset_eq_of_calmFrom calm here le near whole

/-- A zone that never changes keeps its days. -/
theorem keepsDays_fixed (name : String) (reading : Reading) : (fixed name reading).KeepsDays :=
  keepsDays_of_calm rfl

theorem keepsDays_apia : (apia "Pacific/Apia").KeepsDays :=
  keepsDays_of_calm (by decide +kernel)

/-- **THE ZONES OF THE TABLE** keep their days. -/
theorem keepsDays_of_mem_table : ∀ z ∈ table, z.KeepsDays := by
  simp only [table, List.forall_mem_cons, List.not_mem_nil, false_imp_iff, implies_true, and_true]
  and_intros
  all_goals first
    | exact keepsDays_ofChanges (by decide +kernel)
    | exact keepsDays_fixed _ _
    | exact keepsDays_apia

end CalendarFeeds.Zone
