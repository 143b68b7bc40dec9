import CalendarFeeds.Proofs.DurationText
import Mathlib.Algebra.Group.Nat.Defs

/-! # Duration forms — the durations that are read, and one for each length

    A text that is read gives weeks alone or no weeks at all, and every duration of this form
    is printed as a text that gives it back.  A number of seconds is put into the one duration
    without weeks in which no hours come to a day, no minutes to an hour and no seconds to a
    minute; so each length that has room in the field of days has a text of its own, and reading
    that text gives the length back. -/

namespace CalendarFeeds.Duration

/-- No weeks, and a time of day. -/
structure Normal (d : Duration) : Prop where
  weeks : d.weeks = 0
  hours : d.hours.toNat < 24
  minutes : d.minutes.toNat < 60
  seconds : d.seconds.toNat < 60

/-- A normal duration has no weeks beside other fields. -/
theorem Normal.unmixed {d : Duration} (h : d.Normal) : d.Unmixed :=
  .inl h.weeks

-- ── Reading and printing ─────────────────────────────────────────────────────────

theorem unmixed_of_read {s : String} {d : Duration} (h : read s = .ok d) : d.Unmixed := by
  obtain ⟨_, _, _, _, _, -, -, -, -, spelled, -⟩ :=
    ofText?_eq_some_iff.mp (read_eq_ok_iff.mp h)
  exact spelled.unmixed

/-- **PRINTING AND READING** give back what reading can give, and nothing else. -/
theorem read_text_iff {d : Duration} : read d.text = .ok d ↔ d.Unmixed := by
  constructor
  · exact unmixed_of_read
  · intro unmixed
    exact read_eq_ok_iff.mpr (ofText?_text unmixed)

-- ── Seconds ──────────────────────────────────────────────────────────────────────

theorem toNat_field (n : Nat) : (field n).toNat = min n maxField :=
  toNat_ofNat_of_le (Nat.min_le_right n maxField)

theorem field_toNat (n : UInt32) : field n.toNat = n := by
  rw [← UInt32.toNat_inj, toNat_field]
  exact Nat.min_eq_left (toNat_le_maxField n)

/-- Only the days can be too many for their field. -/
theorem totalSeconds_ofSeconds (total : Nat) :
    (ofSeconds total).totalSeconds = 86400 * min (total / 86400) maxField + total % 86400 := by
  simp only [totalSeconds, ofSeconds, toNat_field, UInt32.toNat_zero, maxField]
  omega

/-- A total is kept exactly while its days fit a field. -/
theorem totalSeconds_ofSeconds_iff {total : Nat} :
    (ofSeconds total).totalSeconds = total ↔ total < 86400 * 2 ^ 32 := by
  rw [totalSeconds_ofSeconds, maxField]
  omega

/-- A total is spread over the fields in the normal way. -/
theorem normal_ofSeconds (total : Nat) : (ofSeconds total).Normal := by
  constructor
  · rfl
  all_goals
    simp only [ofSeconds, toNat_field]
    omega

/-- **A NORMAL DURATION** is that of its seconds. -/
theorem Normal.eq_ofSeconds {d : Duration} (h : d.Normal) : d = ofSeconds d.totalSeconds := by
  obtain ⟨weeks, days, hours, minutes, seconds⟩ := d
  obtain ⟨none_, inDay, inHour, inMinute⟩ := h
  simp only at none_ inDay inHour inMinute
  subst none_
  have total : totalSeconds ⟨0, days, hours, minutes, seconds⟩
      = 86400 * days.toNat + 3600 * hours.toNat + 60 * minutes.toNat + seconds.toNat := by
    simp only [totalSeconds, UInt32.toNat_zero]
    omega
  -- each field is the digit of its unit, as the lesser units do not come to another of it
  have inDays : totalSeconds ⟨0, days, hours, minutes, seconds⟩ / 86400 = days.toNat := by omega
  have inHours : totalSeconds ⟨0, days, hours, minutes, seconds⟩ % 86400 / 3600 = hours.toNat := by
    omega
  have inMinutes : totalSeconds ⟨0, days, hours, minutes, seconds⟩ % 3600 / 60 = minutes.toNat := by
    omega
  have inSeconds : totalSeconds ⟨0, days, hours, minutes, seconds⟩ % 60 = seconds.toNat := by omega
  rw [ofSeconds, inDays, inHours, inMinutes, inSeconds, field_toNat, field_toNat, field_toNat,
    field_toNat]

/-- **DURATIONS AND THEIR TEXTS**: those without weeks beside days and times are what reading gives
    and are read back from their texts; and each number of seconds that days have room for has one
    normal duration, whose text is its own and gives the number back. -/
theorem read_back :
    (∀ d : Duration, read d.text = .ok d ↔ d.Unmixed)
    ∧ (∀ (s : String) (d : Duration), read s = .ok d → d.Unmixed)
    ∧ ∀ n < 86400 * 2 ^ 32,
        (ofSeconds n).Normal ∧ (ofSeconds n).totalSeconds = n
        ∧ (∀ d : Duration, d.Normal → d.totalSeconds = n → d = ofSeconds n)
        ∧ read (ofSeconds n).text = .ok (ofSeconds n)
        ∧ ∀ m < 86400 * 2 ^ 32, (ofSeconds m).text = (ofSeconds n).text → m = n := by
  refine ⟨fun _ => read_text_iff, fun _ _ => unmixed_of_read, fun n hn => ?_⟩
  have total := totalSeconds_ofSeconds_iff.mpr hn
  refine ⟨normal_ofSeconds n, total, ?_, read_text_iff.mpr (normal_ofSeconds n).unmixed, ?_⟩
  · rintro d normal rfl
    exact normal.eq_ofSeconds
  · intro m hm same
    have first := read_text_iff.mpr (normal_ofSeconds m).unmixed
    have second := read_text_iff.mpr (normal_ofSeconds n).unmixed
    rw [same, second] at first
    rw [← totalSeconds_ofSeconds_iff.mpr hm, ← Except.ok.inj first, total]

/-- The greatest length that days have room for, and a text that is read but not printed. -/
theorem read_back_greatest :
    read "PT0H3M" = .ok ⟨0, 0, 0, 3, 0⟩ ∧ Unmixed ⟨0, 0, 0, 3, 0⟩
      ∧ ofSeconds (86400 * 2 ^ 32 - 1) = ⟨0, 4294967295, 23, 59, 59⟩
      ∧ read "P4294967295DT23H59M59S" = .ok ⟨0, 4294967295, 23, 59, 59⟩
      ∧ (ofSeconds 180).text ≠ "P4294967295DT23H59M59S" := by
  obtain ⟨-, readable, lengths⟩ := read_back
  have some_ : read "PT0H3M" = .ok ⟨0, 0, 0, 3, 0⟩ := by decide +kernel
  have printed : text ⟨0, 4294967295, 23, 59, 59⟩ = "P4294967295DT23H59M59S" := by decide +kernel
  have normal : Normal ⟨0, 4294967295, 23, 59, 59⟩ :=
    ⟨rfl, by decide, by decide, by decide⟩
  obtain ⟨-, -, unique, again, own⟩ := lengths (86400 * 2 ^ 32 - 1) (by decide)
  have greatest := unique ⟨0, 4294967295, 23, 59, 59⟩ normal (by decide)
  rw [← greatest, printed] at again own
  refine ⟨some_, readable _ _ some_, greatest.symm, again, fun same => ?_⟩
  cases own 180 (by decide) same

end CalendarFeeds.Duration
