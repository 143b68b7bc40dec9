import CalendarFeeds.Duration
import CalendarFeeds.Rule.Basic
import CalendarFeeds.Zone.Instant
import CalendarFeeds.Proofs.Escapes
import CalendarFeeds.Proofs.Numerals

/-! # Plain texts — times, durations and rules as they are

    A raw value loses its control characters when it is written.  The texts that the program makes
    itself have none: they are put together from digits and a few fixed words, so a feed holds
    them unchanged. -/

namespace CalendarFeeds

/-- A text without control characters. -/
def Plain (s : String) : Prop :=
  ∀ c ∈ s.toList, Text.isControl c = false

instance (s : String) : Decidable (Plain s) :=
  decidable_of_iff ((s.toList.all fun c => Text.isControl c == false) = true)
    (List.all_eq_true.trans (forall₂_congr fun _ _ => beq_iff_eq))

theorem Plain.append {s t : String} (hs : Plain s) (ht : Plain t) : Plain (s ++ t) := by
  intro c hc
  rw [String.toList_append] at hc
  rcases List.mem_append.mp hc with left | right
  · exact hs c left
  · exact ht c right

/-- Nothing is stripped from a plain text. -/
theorem Plain.stripControls_eq {s : String} (h : Plain s) :
    ICalendar.stripControls s.toList = s.toList := by
  refine List.filter_eq_self.mpr fun c hc => ?_
  rw [h c hc]
  rfl

-- ── Numbers ──────────────────────────────────────────────────────────────────────

theorem isControl_of_isDigit {c : Char} (h : c.isDigit = true) : Text.isControl c = false := by
  simp only [Char.isDigit, Bool.and_eq_true, decide_eq_true_iff] at h
  simp only [Text.isControl, Bool.or_eq_false_iff, Bool.and_eq_false_iff, decide_eq_false_iff_not]
  have low : 48 ≤ c.toNat := UInt32.le_iff_toNat_le.mp h.1
  have high : c.toNat ≤ 57 := UInt32.le_iff_toNat_le.mp h.2
  omega

/-- Numbers are plain. -/
theorem plain_natural (n : Nat) : Plain (Text.natural n) := by
  intro c hc
  rw [Text.natural, String.toList_ofList] at hc
  exact isControl_of_isDigit (Text.isDigit_of_mem_digits hc)

theorem plain_padded (width n : Nat) : Plain (Text.padded width n) := by
  intro c hc
  rw [Text.padded, String.toList_ofList] at hc
  exact isControl_of_isDigit (Text.isDigit_of_mem_paddedDigits hc)

-- ── Times ────────────────────────────────────────────────────────────────────────

theorem plain_yearText (year : Int) : Plain (Date.yearText year) := by
  simp only [Date.yearText]
  split_ifs
  · exact Plain.append (by decide) (plain_padded _ _)
  · exact plain_padded _ _
  · exact Plain.append (by decide) (plain_padded _ _)

/-- A clock's reading is plain when what stands between its parts is. -/
theorem plain_clockText (seconds : Int) (leap : Bool) {dash middle colon : String}
    (hd : Plain dash) (hm : Plain middle) (hc : Plain colon) :
    Plain (clockText seconds leap dash middle colon) := by
  have date (year : Int) (month day : Nat) :
      Plain (Date.yearText year ++ dash ++ Text.padded 2 month ++ dash ++ Text.padded 2 day) :=
    ((((plain_yearText year).append hd).append (plain_padded 2 month)).append hd).append
      (plain_padded 2 day)
  exact ((((((date _ _ _).append hm).append (plain_padded 2 _)).append hc).append
    (plain_padded 2 _)).append hc).append (plain_padded 2 _)

theorem Instant.plain_utcStamp (i : Instant) : Plain i.utcStamp :=
  (plain_clockText _ _ (by decide) (by decide) (by decide)).append (by decide)

theorem Instant.plain_localStamp (i : Instant) : Plain i.localStamp :=
  plain_clockText _ _ (by decide) (by decide) (by decide)

-- ── Durations ────────────────────────────────────────────────────────────────────

theorem Duration.plain_item (n : UInt32) {designator : String} (h : Plain designator) :
    Plain (Duration.item n designator) := by
  simp only [Duration.item]
  split_ifs
  · decide
  · exact (plain_natural _).append h

/-- A duration's text is plain, so that a raw value loses nothing of it. -/
theorem Duration.plain_text (d : Duration) : Plain d.text := by
  have letter : Plain "P" := by decide
  have time : Plain (item d.hours "H" ++ item d.minutes "M" ++ item d.seconds "S") :=
    ((plain_item _ (by decide)).append (plain_item _ (by decide))).append
      (plain_item _ (by decide))
  have day : Plain ("P" ++ item d.days "D") := letter.append (plain_item _ (by decide))
  simp only [Duration.text]
  split_ifs
  · exact letter.append (plain_item _ (by decide))
  · exact (day.append (by decide)).append time
  · decide
  · exact day

-- ── Rules ────────────────────────────────────────────────────────────────────────

theorem DayTerm.plain_text (t : DayTerm) : Plain t.text := by
  have code : Plain t.weekday.code := by cases t.weekday <;> decide
  simp only [DayTerm.text]
  split
  · exact code
  · exact (plain_natural _).append code

/-- A part of a rule is plain when its key and its values are. -/
theorem Rule.plain_part {key : String} {values : List String} (hk : Plain key)
    (hv : ∀ v ∈ values, Plain v) : Plain (Rule.part key values) := by
  have items : Plain (String.intercalate "," values) := by
    intro c hc
    rw [String.toList_intercalate] at hc
    rcases ICalendar.mem_joinComma hc with rfl | ⟨item, listed, here⟩
    · decide
    · obtain ⟨v, hv', rfl⟩ := List.mem_map.mp listed
      exact hv v hv' c here
  simp only [Rule.part]
  split
  · decide
  · exact hk.append items

/-- A rule's text is plain, for the same use. -/
theorem Rule.plain_text (r : Rule) : Plain r.text := by
  have frequency : Plain ("FREQ=" ++ r.frequency.word) := by cases r.frequency <;> decide
  have days : Plain (part ";BYDAY=" (r.days.map DayTerm.text)) := by
    refine plain_part (by decide) fun v hv => ?_
    obtain ⟨t, -, rfl⟩ := List.mem_map.mp hv
    exact t.plain_text
  have months : Plain (part ";BYMONTH=" (r.months.map Text.natural)) := by
    refine plain_part (by decide) fun v hv => ?_
    obtain ⟨n, -, rfl⟩ := List.mem_map.mp hv
    exact plain_natural n
  exact (frequency.append days).append months

end CalendarFeeds
