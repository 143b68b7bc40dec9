import CalendarFeeds.Proofs.Occurrences
import Mathlib.Data.List.Pairwise

/-! # Clock changes — what becomes of a local time around them

    Clocks are less than a day away from UTC, so the instants that show one local time lie within
    two days of each other.  Where transitions are two days apart or more, at most one of them
    falls between such instants.  Then a local time is shown once, or twice around one transition,
    or clocks jump over it at one transition.

    For a time that is jumped over, the day before it, read in UTC, is before the transition and
    by less than two days.  No other transition is so close, hence the offset in force then is the
    one that the transition ends.  The instant that this offset gives is after the transition, by
    less than two days again, and in that time clocks show nothing that they have shown before. -/

namespace CalendarFeeds

namespace Zone

/-- Transitions follow each other after 48 hours or more. -/
def Spaced (z : Zone) : Prop :=
  z.transitions.IsChain fun a b => a.instant + 172800 ≤ b.instant

instance (z : Zone) : Decidable z.Spaced :=
  inferInstanceAs (Decidable (List.IsChain _ _))

/-- A gap: at a transition the clocks jump over a local time. -/
structure JumpsOver (z : Zone) (t : Transition) (shown : Int) : Prop where
  mem : t ∈ z.transitions
  before : t.instant + z.offsetAt (t.instant - 1) ≤ shown
  after : shown < t.instant + z.offsetAt t.instant

-- ── One offset between transitions ───────────────────────────────────────────────

/-- Two instants with no change between them are read alike. -/
theorem readingFrom_eq_of_none_between {r : Reading} {ts : List Transition} {a b : Int}
    (le : a ≤ b) (none_ : ∀ t ∈ ts, t.instant ≤ b → t.instant ≤ a) :
    readingFrom r ts a = readingFrom r ts b := by
  induction ts generalizing r with
  | nil => rfl
  | cons t ts ih =>
      have later := none_ t List.mem_cons_self
      simp only [readingFrom]
      by_cases passed : t.instant ≤ a
      · rw [if_pos passed, if_pos (Int.le_trans passed le)]
        exact ih fun u hu => none_ u (List.mem_cons_of_mem t hu)
      · rw [if_neg passed, if_neg fun reached => passed (later reached)]

/-- Offsets change at transitions only. -/
theorem exists_transition_between {z : Zone} {a b : Int} (le : a ≤ b)
    (changes : z.offsetAt a ≠ z.offsetAt b) :
    ∃ t ∈ z.transitions, a < t.instant ∧ t.instant ≤ b := by
  by_contra none_
  refine changes (congrArg Reading.offset
    (readingFrom_eq_of_none_between le fun t ht reached => ?_))
  by_contra passed
  exact none_ ⟨t, ht, Int.not_le.mp passed, reached⟩

/-- Two different changes of a spaced zone are at least two days apart. -/
theorem Spaced.far {z : Zone} (spaced : z.Spaced) {t u : Transition} (ht : t ∈ z.transitions)
    (hu : u ∈ z.transitions) (lt : t.instant < u.instant) : t.instant + 172800 ≤ u.instant := by
  have trans : IsTrans Transition fun a b => a.instant + 172800 ≤ b.instant :=
    ⟨fun a b c first second => by omega⟩
  have apart : z.transitions.Pairwise fun a b =>
      a.instant + 172800 ≤ b.instant ∨ b.instant + 172800 ≤ a.instant :=
    (List.isChain_iff_pairwise.mp spaced).imp Or.inl
  have symmetric : Std.Symm fun a b : Transition =>
      a.instant + 172800 ≤ b.instant ∨ b.instant + 172800 ≤ a.instant := ⟨fun _ _ => Or.symm⟩
  rcases apart.forall ht hu (fun same => by rw [same] at lt; omega) with le | le
  · exact le
  · omega

/-- An instant that shows a local time is less than a day from that time read in UTC. -/
theorem near_of_shown {z : Zone} {shown utc : Int} (here : utc + z.offsetAt utc = shown) :
    shown - 86400 < utc ∧ utc < shown + 86400 := by
  have := z.offset_inDay utc
  omega

/-- No local time is shown three times. -/
theorem Spaced.not_thrice {z : Zone} (spaced : z.Spaced) {shown a b c : Int}
    (ha : a + z.offsetAt a = shown) (hb : b + z.offsetAt b = shown)
    (hc : c + z.offsetAt c = shown) (ab : a < b) (bc : b < c) : False := by
  obtain ⟨t, ht, afterA, byB⟩ := exists_transition_between (z := z) (Int.le_of_lt ab) (by omega)
  obtain ⟨u, hu, afterB, byC⟩ := exists_transition_between (z := z) (Int.le_of_lt bc) (by omega)
  have far := spaced.far ht hu (by omega)
  have first := near_of_shown ha
  have last := near_of_shown hc
  omega

-- ── Gaps ─────────────────────────────────────────────────────────────────────────

/-- Between a second and the next one clocks can pass over a time at a transition only. -/
theorem exists_jumpsOver_after {z : Zone} {shown last : Int}
    (before : last + z.offsetAt last < shown)
    (after : shown < last + 1 + z.offsetAt (last + 1)) :
    ∃ t, z.JumpsOver t shown ∧ last = t.instant - 1 := by
  obtain ⟨t, ht, past, reached⟩ :=
    exists_transition_between (z := z) (show last ≤ last + 1 by omega) (by omega)
  obtain rfl : last = t.instant - 1 := by omega
  rw [Int.sub_add_cancel] at after
  exact ⟨t, ⟨ht, by omega, after⟩, rfl⟩

/-- A time that clocks never show is jumped over at a transition. -/
theorem exists_jumpsOver_of_skips {z : Zone} {shown : Int} (skipped : z.Skips shown) :
    ∃ t, z.JumpsOver t shown := by
  obtain ⟨utc, reads⟩ := z.exists_reads shown
  cases reads with
  | first here _ => exact absurd here (skipped utc)
  | gap _ before after =>
      obtain ⟨t, jump, -⟩ := exists_jumpsOver_after before after
      exact ⟨t, jump⟩

namespace JumpsOver

variable {z : Zone} {t : Transition} {shown : Int}

/-- Since less than two days before the transition the clocks have kept the offset that it
    ends. -/
theorem offset_before (jump : z.JumpsOver t shown) (spaced : z.Spaced) {utc : Int}
    (close : t.instant - 172800 ≤ utc) (early : utc < t.instant) :
    z.offsetAt utc = z.offsetAt (t.instant - 1) := by
  by_contra changes
  obtain ⟨u, hu, past, reached⟩ := exists_transition_between (z := z) (by omega) changes
  have far := spaced.far hu jump.mem (by omega)
  omega

theorem offset_after (jump : z.JumpsOver t shown) (spaced : z.Spaced) {utc : Int}
    (late : t.instant ≤ utc) (close : utc < t.instant + 172800) :
    z.offsetAt utc = z.offsetAt t.instant := by
  by_contra changes
  obtain ⟨u, hu, past, reached⟩ :=
    exists_transition_between (z := z) late fun same => changes same.symm
  have far := spaced.far jump.mem hu past
  omega

/-- **THE PROBE**: a day before a time in a gap, with that time read as if it were in UTC, the
    offset is the one from before the gap. -/
theorem offset_dayBefore (jump : z.JumpsOver t shown) (spaced : z.Spaced) {second : Int}
    (inserted : 0 ≤ second ∧ second ≤ 1) :
    z.offsetAt (shown + second - 86400) = z.offsetAt (t.instant - 1) := by
  have ended := z.offset_inDay (t.instant - 1)
  have begun := z.offset_inDay t.instant
  have before := jump.before
  have after := jump.after
  exact jump.offset_before spaced (by omega) (by omega)

/-- Clocks do not come back to a time that they jump over. -/
theorem skips (jump : z.JumpsOver t shown) (spaced : z.Spaced) : z.Skips shown := by
  intro utc here
  have ended := z.offset_inDay (t.instant - 1)
  have begun := z.offset_inDay t.instant
  have before := jump.before
  have after := jump.after
  have near := near_of_shown here
  by_cases early : utc < t.instant
  · have same := jump.offset_before spaced (by omega) early
    omega
  · have same := jump.offset_after spaced (Int.not_lt.mp early) (by omega)
    omega

/-- Nor do they show again, in the two days after a gap, a time from before it. -/
theorem le_of_shown_after (jump : z.JumpsOver t shown) (spaced : z.Spaced) {utc other : Int}
    (late : t.instant ≤ utc) (close : utc < t.instant + 172800)
    (same : other + z.offsetAt other = utc + z.offsetAt utc) : utc ≤ other := by
  have now := jump.offset_after spaced late close
  have begun := z.offset_inDay t.instant
  have there := z.offset_inDay other
  have before := jump.before
  have after := jump.after
  by_cases early : other < t.instant
  · have ended : z.offsetAt other = z.offsetAt (t.instant - 1) :=
      jump.offset_before spaced (by omega) early
    omega
  · by_contra earlier
    have kept : z.offsetAt other = z.offsetAt t.instant :=
      jump.offset_after spaced (Int.not_lt.mp early) (by omega)
    omega

end JumpsOver

/-- A time in a gap is read as one that clocks show later than it. -/
theorem Spaced.lt_of_reads {z : Zone} (spaced : z.Spaced) {shown utc : Int}
    (skipped : z.Skips shown) (reads : z.Reads shown utc) : shown < utc + z.offsetAt utc := by
  cases reads with
  | first here _ => exact absurd here (skipped utc)
  | gap _ before after =>
      obtain ⟨t, jump, rfl⟩ := exists_jumpsOver_after before after
      have ended := z.offset_inDay (t.instant - 1)
      have begun := z.offset_inDay t.instant
      have early := jump.before
      have late := jump.after
      have now := jump.offset_after spaced
        (show t.instant ≤ shown - z.offsetAt (t.instant - 1) by omega) (by omega)
      omega

-- ── Instants in order ────────────────────────────────────────────────────────────

/-- The instants that show one local time are listed in ascending order, each in its own stretch
    of the clock. -/
theorem pairwise_instantsFrom {since : Option Int} {r : Reading} {ts : List Transition}
    {shown : Int} (ascends : ts.Pairwise fun a b => a.instant ≤ b.instant) :
    (instantsFrom since r ts shown).Pairwise (· < ·) := by
  induction ts generalizing since r with
  | nil =>
      simp only [instantsFrom]
      split
      · exact List.pairwise_singleton _ _
      · exact List.Pairwise.nil
  | cons t ts ih =>
      obtain ⟨later, rest⟩ := List.pairwise_cons.mp ascends
      simp only [instantsFrom]
      refine List.pairwise_append.mpr ⟨?_, ih rest, fun a ha b hb => ?_⟩
      · split
        · exact List.pairwise_singleton _ _
        · exact List.Pairwise.nil
      · -- the reading before the transition ends where the one since begins
        obtain ⟨inForce, own⟩ := List.mem_ite_nil_right.mp ha
        obtain rfl := List.mem_singleton.mp own
        have ends := of_decide_eq_true (Bool.and_eq_true_iff.mp inForce).2
        have ahead : ∀ u ∈ ts, startedBy (some t.instant) u.instant = true := fun u hu =>
          decide_eq_true (later u hu)
        have begins := of_decide_eq_true ((mem_instantsFrom_iff rest ahead).mp hb).1
        omega

/-- The instants of a local time are listed in the order of time. -/
theorem pairwise_instants (z : Zone) (shown : Int) : (z.instants shown).Pairwise (· < ·) :=
  pairwise_instantsFrom z.ascends

theorem isLeast_of_instants {z : Zone} {shown first : Int} {rest : List Int}
    (listed : z.instants shown = first :: rest) :
    IsLeast {utc | utc + z.offsetAt utc = shown} first := by
  have ascends := z.pairwise_instants shown
  rw [listed] at ascends
  refine ⟨mem_instants_iff.mp (listed ▸ List.mem_cons_self), fun utc here => ?_⟩
  have member := mem_instants_iff.mpr here
  rw [listed] at member
  rcases List.mem_cons.mp member with rfl | later
  · exact Int.le_refl _
  · exact Int.le_of_lt (List.rel_of_pairwise_cons ascends later)

end Zone

namespace Instant

/-- Outside gaps a start is the first instant that shows its local time. -/
theorem utc_ofShown_le {zone : Zone} {shown utc : Int} {leap : Bool}
    (here : utc + zone.offsetAt utc = shown) : (ofShown zone shown leap).utc ≤ utc := by
  simp only [ofShown]
  split
  · next first rest listed => exact (Zone.isLeast_of_instants listed).2 here
  · next none_ => exact absurd here (Zone.instants_eq_nil_iff.mp none_ utc)

/-- A local time read with an offset, that is so many seconds earlier.  An inserted second counts
    as the one after it when the clock goes back, as the one before it when the clock goes
    forward, and stays what it is only if the clock stays. -/
def withOffset (zone : Zone) (shown : Int) (leap : Bool) (offset : Int) : Instant :=
  if offset = 0 then ⟨shown, leap, zone⟩
  else if 0 < offset then ⟨shown + (if leap then 1 else 0) - offset, false, zone⟩
  else ⟨shown - offset, false, zone⟩

theorem withOffset_whole (zone : Zone) (shown offset : Int) :
    withOffset zone shown false offset = ⟨shown - offset, false, zone⟩ := by
  simp only [withOffset, Bool.false_eq_true, if_false, Int.add_zero]
  split_ifs with still
  · rw [still, Int.sub_zero]
  · rfl
  · rfl

/-- An inserted second counts for at most one more second. -/
theorem utc_withOffset_near (zone : Zone) (shown : Int) (leap : Bool) (offset : Int) :
    shown - offset ≤ (withOffset zone shown leap offset).utc
      ∧ (withOffset zone shown leap offset).utc ≤ shown - offset + 1 := by
  have extra : 0 ≤ (if leap then (1 : Int) else 0) ∧ (if leap then (1 : Int) else 0) ≤ 1 := by
    split <;> omega
  simp only [withOffset]
  split_ifs
  all_goals
    simp only
    omega

/-- A time in a gap is read with the offset of the day before. -/
theorem inGap_eq_withOffset (zone : Zone) (shown : Int) (leap : Bool) :
    inGap zone shown leap
      = withOffset zone shown leap (zone.offsetAt (shown + (if leap then 1 else 0) - 86400)) :=
  rfl

-- ── The instant of a date and a time ─────────────────────────────────────────────

/-- A date and a time of day, as seconds on the clocks of a zone. -/
def askedOn (date : Date) (time : TimeOfDay) : Int :=
  86400 * date.number + time.seconds

/-- An instant of a zone at which its clocks show a date and a time of day. -/
structure ShowsLocal (z : Zone) (date : Date) (time : TimeOfDay) (i : Instant) : Prop where
  zone : i.zone = z
  isAt : i.IsAt date.number time

namespace ShowsLocal

variable {z : Zone} {date : Date} {time : TimeOfDay} {i j : Instant}

theorem shown (h : ShowsLocal z date time i) : i.utc + z.offsetAt i.utc = askedOn date time := by
  have here : i.utc + i.zone.offsetAt i.utc = askedOn date time := h.isAt.1
  rwa [h.zone] at here

/-- Of the instants that show one local time, no two share their UTC reading. -/
theorem eq_of_utc_eq (hi : ShowsLocal z date time i) (hj : ShowsLocal z date time j)
    (same : i.utc = j.utc) : i = j := by
  cases i
  cases j
  cases same
  cases hi.zone.trans hj.zone.symm
  cases hi.isAt.2.trans hj.isAt.2.symm
  rfl

end ShowsLocal

theorem zone_ofLocal (z : Zone) (date : Date) (time : TimeOfDay) : (ofLocal z date time).zone = z :=
  zone_ofShown _ _ _

theorem showsLocal_ofLocal {z : Zone} {date : Date} {time : TimeOfDay}
    (exists_ : ¬ z.Skips (askedOn date time)) : ShowsLocal z date time (ofLocal z date time) :=
  ⟨zone_ofLocal _ _ _, shown_ofShown exists_, leap_ofShown exists_⟩

theorem forall_not_showsLocal_iff {z : Zone} {date : Date} {time : TimeOfDay} :
    (∀ i, ¬ ShowsLocal z date time i) ↔ z.Skips (askedOn date time) := by
  constructor
  · intro never utc here
    exact never ⟨utc, time.isLeap, z⟩ ⟨rfl, here, rfl⟩
  · intro skipped i here
    exact skipped i.utc here.shown

section Gap

variable {z : Zone} {t : Transition} {date : Date} {time : TimeOfDay}

/-- A day before a skipped time the clock still stands on the offset of before the jump; a leap
    second moves the probe by one second and changes nothing. -/
theorem offset_probed (jump : z.JumpsOver t (askedOn date time)) (spaced : z.Spaced) :
    z.offsetAt (askedOn date time + (if time.isLeap then 1 else 0) - 86400)
      = z.offsetAt (t.instant - 1) := by
  have inserted : 0 ≤ (if time.isLeap then (1 : Int) else 0)
      ∧ (if time.isLeap then (1 : Int) else 0) ≤ 1 := by split <;> omega
  exact jump.offset_dayBefore spaced inserted

/-- A skipped time is read with the offset of before the jump. -/
theorem ofLocal_of_jumpsOver (jump : z.JumpsOver t (askedOn date time)) (spaced : z.Spaced) :
    ofLocal z date time
      = withOffset z (askedOn date time) time.isLeap (z.offsetAt (t.instant - 1)) := by
  rw [← offset_probed jump spaced, ← inGap_eq_withOffset]
  exact ofShown_of_skips (jump.skips spaced)

/-- The instant of a time in a gap is after the transition, and less than two days after it. -/
theorem utc_ofLocal_of_jumpsOver (jump : z.JumpsOver t (askedOn date time)) (spaced : z.Spaced) :
    t.instant ≤ (ofLocal z date time).utc ∧ (ofLocal z date time).utc < t.instant + 172800 := by
  have near := utc_withOffset_near z (askedOn date time) time.isLeap (z.offsetAt (t.instant - 1))
  rw [← ofLocal_of_jumpsOver jump spaced] at near
  have ended := z.offset_inDay (t.instant - 1)
  have begun := z.offset_inDay t.instant
  have before := jump.before
  have after := jump.after
  omega

end Gap

/-- No instant before this one is shown at the same local time. -/
def IsFirst (i : Instant) : Prop :=
  ∀ utc, utc + i.zone.offsetAt utc = i.shown → i.utc ≤ utc

/-- Outside gaps a local time stands for the first instant that shows it, in any zone. -/
theorem isFirst_of_not_skips {z : Zone} {date : Date} {time : TimeOfDay}
    (exists_ : ¬ z.Skips (askedOn date time)) : (ofLocal z date time).IsFirst := by
  intro utc same
  rw [zone_ofLocal] at same
  exact utc_ofShown_le (same.trans (shown_ofShown exists_))

/-- **PLACED STARTS COME FIRST**: a local time stands for the first instant shown at the time that
    its instant is shown at, also where a gap has moved it to another time. -/
theorem isFirst_ofLocal {z : Zone} (spaced : z.Spaced) (date : Date) (time : TimeOfDay) :
    (ofLocal z date time).IsFirst := by
  by_cases skipped : z.Skips (askedOn date time)
  · intro utc same
    rw [zone_ofLocal] at same
    obtain ⟨t, jump⟩ := Zone.exists_jumpsOver_of_skips skipped
    obtain ⟨late, close⟩ := utc_ofLocal_of_jumpsOver jump spaced
    refine jump.le_of_shown_after spaced late close (same.trans ?_)
    rw [Instant.shown, Instant.offset, Instant.reading, zone_ofLocal]
    rfl
  · exact isFirst_of_not_skips skipped

/-- **THE INSTANT DUE** for a date and a time of day in a zone. -/
structure Resolves (z : Zone) (date : Date) (time : TimeOfDay) (i : Instant) : Prop where
  /-- A time that is shown once stands for the one instant that shows it. -/
  once : ∀ only, ShowsLocal z date time only
    → (∀ other, ShowsLocal z date time other → other = only) → i = only
  /-- A time that is shown again stands for the earlier of its two instants. -/
  twice : ∀ earlier later, ShowsLocal z date time earlier → ShowsLocal z date time later
    → earlier.utc < later.utc
    → i = earlier ∧ ∀ other, ShowsLocal z date time other → other = earlier ∨ other = later
  /-- A time that is never shown lies in a gap. -/
  skipped : (∀ other, ¬ ShowsLocal z date time other) ↔ ∃ t, z.JumpsOver t (askedOn date time)
  /-- For a time in a gap, a look at the day before finds the offset in force immediately before
      the transition; read with it, the time stands for an instant that the transition
      precedes. -/
  gap : ∀ t, z.JumpsOver t (askedOn date time)
    → z.offsetAt (askedOn date time + (if time.isLeap then 1 else 0) - 86400)
        = z.offsetAt (t.instant - 1)
      ∧ i = withOffset z (askedOn date time) time.isLeap (z.offsetAt (t.instant - 1))
      ∧ t.instant ≤ i.utc

/-- **EVERY LOCAL TIME IS RESOLVED** as it is due, in every zone whose transitions are 48 hours
    apart. -/
theorem resolves_ofLocal {z : Zone} (spaced : z.Spaced) (date : Date) (time : TimeOfDay) :
    Resolves z date time (ofLocal z date time) where
  once only here alone := alone _ (showsLocal_ofLocal fun skipped => skipped _ here.shown)
  twice earlier later first second lt := by
    have own : ShowsLocal z date time (ofLocal z date time) :=
      showsLocal_ofLocal fun skipped => skipped _ first.shown
    have least : (ofLocal z date time).utc ≤ earlier.utc := utc_ofShown_le first.shown
    have never_before : ∀ other, ShowsLocal z date time other → earlier.utc ≤ other.utc :=
      fun other there => Int.not_lt.mp fun before =>
        spaced.not_thrice there.shown first.shown second.shown before lt
    refine ⟨own.eq_of_utc_eq first (Int.le_antisymm least (never_before _ own)),
      fun other there => ?_⟩
    have start := never_before other there
    by_cases same : other.utc = earlier.utc
    · exact .inl (there.eq_of_utc_eq first same)
    · refine .inr (there.eq_of_utc_eq second ?_)
      rcases Int.lt_trichotomy other.utc later.utc with between | same | after
      · exact (spaced.not_thrice first.shown there.shown second.shown (by omega) between).elim
      · exact same
      · exact (spaced.not_thrice first.shown second.shown there.shown lt after).elim
  skipped := by
    rw [forall_not_showsLocal_iff]
    exact ⟨Zone.exists_jumpsOver_of_skips, fun ⟨_, jump⟩ => jump.skips spaced⟩
  gap t jump :=
    ⟨offset_probed jump spaced, ofLocal_of_jumpsOver jump spaced,
      (utc_ofLocal_of_jumpsOver jump spaced).1⟩

-- ── A zone with a gap and a repeated hour ────────────────────────────────────────

def nuuk : Zone := Zone.nuuk "America/Nuuk"

def quarterToEleven : TimeOfDay := ⟨22, 45, 0, by decide⟩

/-- The hour from 22:00 is skipped on 2022-03-26 and comes twice on 2022-10-29. -/
theorem resolves_ofLocal_nuuk :
    nuuk.Spaced
      ∧ nuuk.JumpsOver ⟨1648342800, .of (-7200) "-02"⟩ (askedOn ⟨19077, by decide⟩ quarterToEleven)
      ∧ ofLocal nuuk ⟨19077, by decide⟩ quarterToEleven = ⟨1648345500, false, nuuk⟩
      ∧ ShowsLocal nuuk ⟨19294, by decide⟩ quarterToEleven ⟨1667094300, false, nuuk⟩
      ∧ ofLocal nuuk ⟨19294, by decide⟩ quarterToEleven = ⟨1667090700, false, nuuk⟩ := by
  have spaced : nuuk.Spaced := by decide +kernel
  have jump : nuuk.JumpsOver ⟨1648342800, .of (-7200) "-02"⟩
      (askedOn ⟨19077, by decide⟩ quarterToEleven) :=
    ⟨by decide +kernel, by decide +kernel, by decide +kernel⟩
  have first : ShowsLocal nuuk ⟨19294, by decide⟩ quarterToEleven ⟨1667090700, false, nuuk⟩ :=
    ⟨rfl, by decide +kernel, rfl⟩
  have second : ShowsLocal nuuk ⟨19294, by decide⟩ quarterToEleven ⟨1667094300, false, nuuk⟩ :=
    ⟨rfl, by decide +kernel, rfl⟩
  obtain ⟨-, moved, -⟩ := (resolves_ofLocal spaced ⟨19077, by decide⟩ quarterToEleven).gap _ jump
  obtain ⟨earlier, -⟩ :=
    (resolves_ofLocal spaced ⟨19294, by decide⟩ quarterToEleven).twice _ _ first second (by decide)
  refine ⟨spaced, jump, moved.trans ?_, second, earlier⟩
  have ended : nuuk.offsetAt (1648342800 - 1) = -10800 := by decide +kernel
  rw [ended]
  exact withOffset_whole _ _ _

end Instant

end CalendarFeeds
