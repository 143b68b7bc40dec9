import Mathlib.Data.String.Basic

/-! # Byte order — texts ascend like their UTF-8 bytes

    Texts are compared by their code points.  The first byte of an encoding grows with its length,
    and encodings of one length list the digits of the code point from the highest on; so a
    greater code point has the greater encoding, and the first difference of two texts decides
    between their bytes too. -/

namespace CalendarFeeds.Text

/-- The UTF-8 bytes of a text. -/
def bytes (s : String) : List UInt8 :=
  s.toUTF8.data.toList

/-- The bytes of a text are the encodings of its characters, one after the other. -/
theorem bytes_eq_flatMap (s : String) : bytes s = s.toList.flatMap String.utf8EncodeChar := by
  show s.toByteArray.data.toList = _
  rw [← String.utf8Encode_toList]
  exact List.toList_data_toByteArray

theorem ofNat_lt_ofNat_iff {a b : Nat} (ha : a < 256) (hb : b < 256) :
    UInt8.ofNat a < UInt8.ofNat b ↔ a < b := by
  rw [UInt8.lt_iff_toNat_lt, UInt8.toNat_ofNat', UInt8.toNat_ofNat', Nat.mod_eq_of_lt ha,
    Nat.mod_eq_of_lt hb]

theorem ofNat_eq_ofNat_iff {a b : Nat} (ha : a < 256) (hb : b < 256) :
    UInt8.ofNat a = UInt8.ofNat b ↔ a = b := by
  rw [← UInt8.toNat_inj, UInt8.toNat_ofNat', UInt8.toNat_ofNat', Nat.mod_eq_of_lt ha,
    Nat.mod_eq_of_lt hb]

/-- The first byte decides when it differs. -/
theorem cons_ofNat_lt_cons {a b : Nat} (less : a < b) (hb : b < 256) (xs ys : List UInt8) :
    UInt8.ofNat a :: xs < UInt8.ofNat b :: ys :=
  List.cons_lt_cons_iff.mpr (.inl ((ofNat_lt_ofNat_iff (Nat.lt_trans less hb) hb).mpr less))

/-- Every character lies below the end of the code space, so four bytes encode it. -/
theorem toNat_lt (c : Char) : c.val.toNat < 0x110000 := by
  rcases c.valid with low | ⟨-, high⟩
  · exact Nat.lt_trans low (by decide)
  · exact high

/-- The digits to the base 64, from the highest on, where the lesser number has the lesser one. -/
theorem digits_lt {v w : Nat} (order : v < w) (top : w < 0x110000) :
    v / 262144 % 8 < w / 262144 % 8
      ∨ v / 262144 % 8 = w / 262144 % 8 ∧ (v / 4096 % 64 < w / 4096 % 64
      ∨ v / 4096 % 64 = w / 4096 % 64 ∧ (v / 64 % 64 < w / 64 % 64
      ∨ v / 64 % 64 = w / 64 % 64 ∧ v % 64 < w % 64)) := by
  have first : v / 262144 ≤ w / 262144 := Nat.div_le_div_right (Nat.le_of_lt order)
  have second : v / 4096 ≤ w / 4096 := Nat.div_le_div_right (Nat.le_of_lt order)
  have third : v / 64 ≤ w / 64 := Nat.div_le_div_right (Nat.le_of_lt order)
  rcases Nat.lt_or_eq_of_le first with less | same
  · exact .inl (by omega)
  refine .inr ⟨by rw [same], ?_⟩
  rcases Nat.lt_or_eq_of_le second with less | same₂
  · have above : v / 4096 / 64 = w / 4096 / 64 := by
      rw [Nat.div_div_eq_div_mul, Nat.div_div_eq_div_mul]
      exact same
    exact .inl (by omega)
  refine .inr ⟨by rw [same₂], ?_⟩
  rcases Nat.lt_or_eq_of_le third with less | same₃
  · have above : v / 64 / 64 = w / 64 / 64 := by
      rw [Nat.div_div_eq_div_mul, Nat.div_div_eq_div_mul]
      exact same₂
    exact .inl (by omega)
  exact .inr ⟨by rw [same₃], by omega⟩

/-- Of two characters the greater has the greater bytes, whatever follows them. -/
theorem utf8EncodeChar_append_lt {c d : Char} (h : c < d) (xs ys : List UInt8) :
    String.utf8EncodeChar c ++ xs < String.utf8EncodeChar d ++ ys := by
  have order : c.val.toNat < d.val.toNat := h
  have top := toNat_lt d
  simp only [String.utf8EncodeChar]
  generalize c.val.toNat = v at *
  generalize d.val.toNat = w at *
  -- of encodings that differ in length the shorter begins with the lesser byte
  by_cases w₁ : w ≤ 0x7f
  · rw [if_pos w₁, if_pos (show v ≤ 0x7f by omega)]
    exact cons_ofNat_lt_cons order (by omega) _ _
  rw [if_neg w₁]
  by_cases w₂ : w ≤ 0x7ff
  · rw [if_pos w₂]
    by_cases v₁ : v ≤ 0x7f
    · rw [if_pos v₁]
      exact cons_ofNat_lt_cons (by omega) (by omega) _ _
    · rw [if_neg v₁, if_pos (show v ≤ 0x7ff by omega)]
      simp (disch := omega) only [List.cons_append, List.cons_lt_cons_iff, ofNat_lt_ofNat_iff,
        ofNat_eq_ofNat_iff]
      have digits := digits_lt order top
      omega
  rw [if_neg w₂]
  by_cases w₃ : w ≤ 0xffff
  · rw [if_pos w₃]
    by_cases v₁ : v ≤ 0x7f
    · rw [if_pos v₁]
      exact cons_ofNat_lt_cons (by omega) (by omega) _ _
    rw [if_neg v₁]
    by_cases v₂ : v ≤ 0x7ff
    · rw [if_pos v₂]
      exact cons_ofNat_lt_cons (by omega) (by omega) _ _
    · rw [if_neg v₂, if_pos (show v ≤ 0xffff by omega)]
      simp (disch := omega) only [List.cons_append, List.cons_lt_cons_iff, ofNat_lt_ofNat_iff,
        ofNat_eq_ofNat_iff]
      have digits := digits_lt order top
      omega
  rw [if_neg w₃]
  by_cases v₁ : v ≤ 0x7f
  · rw [if_pos v₁]
    exact cons_ofNat_lt_cons (by omega) (by omega) _ _
  rw [if_neg v₁]
  by_cases v₂ : v ≤ 0x7ff
  · rw [if_pos v₂]
    exact cons_ofNat_lt_cons (by omega) (by omega) _ _
  rw [if_neg v₂]
  by_cases v₃ : v ≤ 0xffff
  · rw [if_pos v₃]
    exact cons_ofNat_lt_cons (by omega) (by omega) _ _
  · rw [if_neg v₃]
    simp (disch := omega) only [List.cons_append, List.cons_lt_cons_iff, ofNat_lt_ofNat_iff,
      ofNat_eq_ofNat_iff]
    have digits := digits_lt order top
    omega

/-- Encoding character by character keeps the lexicographic order. -/
theorem flatMap_utf8EncodeChar_lt {s t : List Char} (h : s < t) :
    s.flatMap String.utf8EncodeChar < t.flatMap String.utf8EncodeChar := by
  induction h with
  | nil =>
      rw [List.flatMap_nil, List.flatMap_cons]
      obtain ⟨byte, rest, eq⟩ := List.exists_cons_of_ne_nil String.utf8EncodeChar_ne_nil
      rw [eq]
      exact List.nil_lt_cons _ _
  | cons _ ih =>
      rw [List.flatMap_cons, List.flatMap_cons]
      exact List.append_left_lt ih
  | rel less =>
      rw [List.flatMap_cons, List.flatMap_cons]
      exact utf8EncodeChar_append_lt less _ _

/-- **THE ORDER OF TEXTS** is the order of their bytes. -/
theorem bytes_lt_bytes_iff {s t : String} : bytes s < bytes t ↔ s < t := by
  have mono : ∀ {a b : String}, a < b → bytes a < bytes b := by
    intro a b less
    rw [bytes_eq_flatMap, bytes_eq_flatMap]
    exact flatMap_utf8EncodeChar_lt less
  refine ⟨fun less => ?_, mono⟩
  rcases lt_trichotomy s t with before | rfl | after
  · exact before
  · exact absurd less (List.lt_irrefl _)
  · exact absurd less (List.lt_asymm (mono after))

end CalendarFeeds.Text
