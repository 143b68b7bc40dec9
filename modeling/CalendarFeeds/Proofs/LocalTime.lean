import CalendarFeeds.Zone.Instant
import Mathlib.Data.Int.LeastGreatest

/-! # Local times — when clocks show a time, and where a gap moves it

    The instants listed for a local time are those at which the clocks of the zone show it, so a
    gap is a time that the clocks never show.  A start in a gap moves by the difference of two
    offsets, hence by less than two days; any other start keeps its date and its time.

    RFC 5545 (§3.3.5) has a reading for every local time: the first of its instants, or in a gap
    the instant that the offset from before the gap gives.  After the last transition of a zone
    every local time has one instant. -/

namespace CalendarFeeds

namespace Zone

/-- A gap of a zone: a local time that its clocks never show. -/
def Skips (z : Zone) (shown : Int) : Prop :=
  ∀ utc, utc + z.offsetAt utc ≠ shown

/-- An offset is less than a day either way. -/
theorem offset_inDay (z : Zone) (utc : Int) :
    -86400 < z.offsetAt utc ∧ z.offsetAt utc < 86400 :=
  (z.readingAt utc).inDay

theorem startedBy_mono {since : Option Int} {a b : Int} (le : a ≤ b)
    (started : startedBy since a = true) : startedBy since b = true := by
  cases since with
  | none => rfl
  | some start => exact decide_eq_true (Int.le_trans (of_decide_eq_true started) le)

/-- The transitions that remain are not before the start of the reading in force; each of them
    starts a reading of its own. -/
theorem mem_instantsFrom_iff {since : Option Int} {r : Reading} {ts : List Transition}
    {shown utc : Int} (ascends : ts.Pairwise fun a b => a.instant ≤ b.instant)
    (ahead : ∀ t ∈ ts, startedBy since t.instant = true) :
    utc ∈ instantsFrom since r ts shown
      ↔ startedBy since utc = true ∧ utc + (readingFrom r ts utc).offset = shown := by
  induction ts generalizing since r with
  | nil =>
      show utc ∈ (if startedBy since (shown - r.offset) then [shown - r.offset] else [])
        ↔ startedBy since utc = true ∧ utc + r.offset = shown
      rw [List.mem_ite_nil_right, List.mem_singleton]
      constructor
      · rintro ⟨started, rfl⟩
        exact ⟨started, by omega⟩
      · rintro ⟨started, same⟩
        obtain rfl : utc = shown - r.offset := by omega
        exact ⟨started, rfl⟩
  | cons t ts ih =>
      obtain ⟨later, rest⟩ := List.pairwise_cons.mp ascends
      have tail : utc ∈ instantsFrom (some t.instant) t.reading ts shown
          ↔ startedBy (some t.instant) utc = true
            ∧ utc + (readingFrom t.reading ts utc).offset = shown :=
        ih rest fun u hu => decide_eq_true (later u hu)
      show utc ∈ _ ++ instantsFrom (some t.instant) t.reading ts shown ↔ _ ∧
        utc + (if t.instant ≤ utc then readingFrom t.reading ts utc else r).offset = shown
      rw [List.mem_append, tail, List.mem_ite_nil_right, List.mem_singleton,
        Bool.and_eq_true_iff, decide_eq_true_iff]
      by_cases reached : t.instant ≤ utc
      · -- the reading before the transition is over, and the one since is in force
        have started : startedBy since utc = true :=
          startedBy_mono reached (ahead t List.mem_cons_self)
        rw [if_pos reached]
        constructor
        · rintro (⟨⟨-, before⟩, rfl⟩ | ⟨-, same⟩)
          · omega
          · exact ⟨started, same⟩
        · rintro ⟨-, same⟩
          exact .inr ⟨decide_eq_true reached, same⟩
      · rw [if_neg reached]
        constructor
        · rintro (⟨⟨started, -⟩, rfl⟩ | ⟨after, -⟩)
          · exact ⟨started, by omega⟩
          · exact absurd (of_decide_eq_true after) reached
        · rintro ⟨started, same⟩
          obtain rfl : utc = shown - r.offset := by omega
          exact .inl ⟨⟨started, by omega⟩, rfl⟩

/-- **THE INSTANTS OF A LOCAL TIME** are those at which the clocks show it. -/
theorem mem_instants_iff {z : Zone} {shown utc : Int} :
    utc ∈ z.instants shown ↔ utc + z.offsetAt utc = shown := by
  show utc ∈ instantsFrom none z.initial z.transitions shown ↔ _
  rw [mem_instantsFrom_iff z.ascends fun _ _ => rfl]
  exact ⟨fun here => here.2, fun same => ⟨rfl, same⟩⟩

/-- The list of instants is empty exactly for a skipped time. -/
theorem instants_eq_nil_iff {z : Zone} {shown : Int} :
    z.instants shown = [] ↔ z.Skips shown := by
  rw [List.eq_nil_iff_forall_not_mem]
  exact forall_congr' fun utc => not_congr mem_instants_iff

-- ── Reading a local time ─────────────────────────────────────────────────────────

/-- The clocks show a local time exactly once. -/
def ShowsOnce (z : Zone) (shown : Int) : Prop :=
  ∃! utc, utc + z.offsetAt utc = shown

theorem showsOnce_of_instants {z : Zone} {shown utc : Int} (listed : z.instants shown = [utc]) :
    z.ShowsOnce shown := by
  refine ⟨utc, mem_instants_iff.mp (listed ▸ List.mem_singleton_self utc), fun other here => ?_⟩
  have member := mem_instants_iff.mpr here
  rw [listed] at member
  exact List.mem_singleton.mp member

/-- **THE READING OF A LOCAL TIME** in RFC 5545: its first instant, or for one in a gap the instant
    that the offset before the gap gives. -/
inductive Reads (z : Zone) (shown : Int) : Int → Prop
  | first {utc : Int} (here : utc + z.offsetAt utc = shown)
      (least : ∀ other, other + z.offsetAt other = shown → utc ≤ other) : Reads z shown utc
  /-- The clocks jump over the time between a second and the next one. -/
  | gap {last : Int} (skipped : z.Skips shown) (before : last + z.offsetAt last < shown)
      (after : shown < last + 1 + z.offsetAt (last + 1)) :
      Reads z shown (shown - z.offsetAt last)

/-- The one instant of a time that is shown once is its reading. -/
theorem shown_of_reads {z : Zone} {shown utc : Int} (once : z.ShowsOnce shown)
    (reads : z.Reads shown utc) : utc + z.offsetAt utc = shown := by
  cases reads with
  | first here _ => exact here
  | gap skipped _ _ =>
      obtain ⟨only, here, -⟩ := once
      exact absurd here (skipped only)

/-- A time that clocks show is read as the first of the instants that show it. -/
theorem reads_iff_isLeast {z : Zone} {shown utc at_ : Int} (here : at_ + z.offsetAt at_ = shown) :
    z.Reads shown utc ↔ IsLeast {other | other + z.offsetAt other = shown} utc := by
  constructor
  · intro reads
    cases reads with
    | first there least => exact ⟨there, fun other same => least other same⟩
    | gap skipped _ _ => exact absurd here (skipped at_)
  · rintro ⟨there, least⟩
    exact .first there fun other same => least same

/-- The reading of a local time is less than a day from that time read in UTC. -/
theorem near_of_reads {z : Zone} {shown utc : Int} (reads : z.Reads shown utc) :
    shown - 86400 < utc ∧ utc < shown + 86400 := by
  cases reads with
  | first here _ =>
      have := z.offset_inDay utc
      omega
  | @gap last _ _ _ =>
      have := z.offset_inDay last
      omega

/-- Every local time has a reading. -/
theorem exists_reads (z : Zone) (shown : Int) : ∃ utc, z.Reads shown utc := by
  by_cases skipped : z.Skips shown
  · -- a day before the time the clocks are behind it, and a day after it they are ahead
    have bounded : ∃ low, ∀ utc, shown < utc + z.offsetAt utc → low ≤ utc := by
      refine ⟨shown - 86400, fun utc ahead => ?_⟩
      have := z.offset_inDay utc
      omega
    have inhabited : ∃ utc, shown < utc + z.offsetAt utc := by
      have := z.offset_inDay (shown + 86400)
      exact ⟨shown + 86400, by omega⟩
    obtain ⟨next, after, least⟩ := Int.exists_least_of_bdd bounded inhabited
    have behind : ¬ shown < (next - 1) + z.offsetAt (next - 1) := by
      intro ahead
      have := least (next - 1) ahead
      omega
    have never := skipped (next - 1)
    refine ⟨_, .gap skipped (show (next - 1) + z.offsetAt (next - 1) < shown by omega) ?_⟩
    rwa [show next - 1 + 1 = next by omega]
  · have bounded : ∃ low, ∀ utc, utc + z.offsetAt utc = shown → low ≤ utc := by
      refine ⟨shown - 86400, fun utc here => ?_⟩
      have := z.offset_inDay utc
      omega
    have inhabited : ∃ utc, utc + z.offsetAt utc = shown := by
      simpa [Skips] using skipped
    obtain ⟨utc, here, least⟩ := Int.exists_least_of_bdd bounded inhabited
    exact ⟨utc, .first here least⟩

-- ── After the last transition ────────────────────────────────────────────────────

/-- From some instant on one reading stays in force. -/
theorem exists_last_reading (r : Reading) (ts : List Transition) :
    ∃ (since : Int) (last : Reading), ∀ utc, since ≤ utc → readingFrom r ts utc = last := by
  induction ts generalizing r with
  | nil => exact ⟨0, r, fun _ _ => rfl⟩
  | cons t ts ih =>
      obtain ⟨since, last, settled⟩ := ih t.reading
      refine ⟨max t.instant since, last, fun utc late => ?_⟩
      have reached : t.instant ≤ utc := by omega
      show (if t.instant ≤ utc then readingFrom t.reading ts utc else r) = last
      rw [if_pos reached]
      exact settled utc (by omega)

/-- **LATE TIMES**: from some local time on each is shown exactly once. -/
theorem exists_showsOnce_from (z : Zone) :
    ∃ late : Int, ∀ shown, late ≤ shown → z.ShowsOnce shown := by
  obtain ⟨since, last, settled⟩ := exists_last_reading z.initial z.transitions
  have offset : ∀ utc, since ≤ utc → z.offsetAt utc = last.offset := fun utc late =>
    congrArg Reading.offset (settled utc late)
  refine ⟨since + 86400, fun shown late => ⟨shown - last.offset, ?_, ?_⟩⟩
  · have := last.inDay
    have there := offset (shown - last.offset) (by omega)
    show shown - last.offset + z.offsetAt (shown - last.offset) = shown
    omega
  · intro utc here
    have := z.offset_inDay utc
    have there := offset utc (by omega)
    omega

end Zone

namespace Instant

/-- Outside gaps a start is shown at the time it was asked for. -/
theorem shown_ofShown {zone : Zone} {shown : Int} {leap : Bool} (exists_ : ¬ zone.Skips shown) :
    (ofShown zone shown leap).shown = shown := by
  simp only [ofShown]
  split
  · next utc _ listed =>
      have here : utc ∈ zone.instants shown := listed ▸ List.mem_cons_self
      exact Zone.mem_instants_iff.mp here
  · next missing => exact absurd (Zone.instants_eq_nil_iff.mp missing) exists_

theorem ofShown_of_skips {zone : Zone} {shown : Int} {leap : Bool} (gap : zone.Skips shown) :
    ofShown zone shown leap = inGap zone shown leap := by
  simp only [ofShown]
  rw [Zone.instants_eq_nil_iff.mpr gap]

theorem utc_eq_of_sameMoment {a b : Instant} (same : a.sameMoment b = true) : a.utc = b.utc :=
  eq_of_beq (Bool.and_eq_true_iff.mp same).1

/-- Clocks are less than a day ahead of UTC or behind it. -/
theorem shown_near_utc (i : Instant) : i.utc - 86400 < i.shown ∧ i.shown < i.utc + 86400 := by
  have inDay := i.zone.offset_inDay i.utc
  show _ < i.utc + i.zone.offsetAt i.utc ∧ i.utc + i.zone.offsetAt i.utc < _
  omega

/-- A time in a gap is read with an offset from before the gap, and a leap second may go on from
    the next second. -/
theorem utc_inGap_near (zone : Zone) (shown : Int) (leap : Bool) :
    shown - 86400 < (inGap zone shown leap).utc
      ∧ (inGap zone shown leap).utc < shown + 86400 := by
  have extra : 0 ≤ (if leap then (1 : Int) else 0) ∧ (if leap then (1 : Int) else 0) ≤ 1 := by
    split <;> omega
  simp only [inGap]
  generalize (if leap then (1 : Int) else 0) = second at extra
  have before := zone.offset_inDay (shown + second - 86400)
  generalize zone.offsetAt (shown + second - 86400) = offset at before
  split
  · show _ < shown ∧ shown < _
    omega
  · split
    · show _ < shown + second - offset ∧ shown + second - offset < _
      omega
    · show _ < shown - offset ∧ shown - offset < _
      omega

/-- Whatever the zone, a start is shown less than two days from the time asked for. -/
theorem shown_ofShown_near (zone : Zone) (shown : Int) (leap : Bool) :
    shown - 172800 < (ofShown zone shown leap).shown
      ∧ (ofShown zone shown leap).shown < shown + 172800 := by
  by_cases gap : zone.Skips shown
  · have moved := utc_inGap_near zone shown leap
    have ahead := (inGap zone shown leap).shown_near_utc
    rw [ofShown_of_skips gap]
    omega
  · rw [shown_ofShown gap]
    omega

end Instant

end CalendarFeeds
