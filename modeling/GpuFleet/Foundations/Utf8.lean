import GpuFleet.Foundations.Replacement

/-!
# UTF-8

The byte strings of characters, by the ranges of their first and second bytes.
`readUtf8` is the reading of the code `String.utf8EncodeChar` (`codes_utf8`), so
decoding with it puts one replacement character for each longest beginning of a
character that does not go on.
-/

namespace Foundations

/-- A byte that goes on with a character. -/
def isTail (b : UInt8) : Bool := 0x80 ≤ b.toNat && b.toNat ≤ 0xBF

/-- The byte may follow the first byte of a character. -/
def isSecond (a b : UInt8) : Bool :=
  isTail b &&
    (a.toNat = 0xE0 → 0xA0 ≤ b.toNat) && (a.toNat = 0xED → b.toNat ≤ 0x9F) &&
    (a.toNat = 0xF0 → 0x90 ≤ b.toNat) && (a.toNat = 0xF4 → b.toNat ≤ 0x8F)

/-- What some bytes are in UTF-8. -/
def readUtf8 : List UInt8 → Reading Char
  | [a] =>
      if a.toNat < 0x80 then .character (.ofNat a.toNat)
      else if 0xC2 ≤ a.toNat ∧ a.toNat ≤ 0xF4 then .incomplete
      else .invalid
  | [a, b] =>
      if 0xC2 ≤ a.toNat ∧ a.toNat ≤ 0xDF ∧ isTail b then
        .character (.ofNat (a.toNat % 0x20 * 0x40 + b.toNat % 0x40))
      else if 0xE0 ≤ a.toNat ∧ a.toNat ≤ 0xF4 ∧ isSecond a b then .incomplete
      else .invalid
  | [a, b, c] =>
      if 0xE0 ≤ a.toNat ∧ a.toNat ≤ 0xEF ∧ isSecond a b ∧ isTail c then
        .character (.ofNat (a.toNat % 0x10 * 0x1000 + b.toNat % 0x40 * 0x40 + c.toNat % 0x40))
      else if 0xF0 ≤ a.toNat ∧ a.toNat ≤ 0xF4 ∧ isSecond a b ∧ isTail c then .incomplete
      else .invalid
  | [a, b, c, d] =>
      if 0xF0 ≤ a.toNat ∧ a.toNat ≤ 0xF4 ∧ isSecond a b ∧ isTail c ∧ isTail d then
        .character (.ofNat (a.toNat % 0x8 * 0x40000 + b.toNat % 0x40 * 0x1000 +
          c.toNat % 0x40 * 0x40 + d.toNat % 0x40))
      else .invalid
  | _ => .invalid

/-! ## The bytes of a character -/

section Encode

variable {c : Char}

/-- The range of a character's number. -/
theorem toNat_valid (c : Char) : c.toNat < 0xD800 ∨ 0xDFFF < c.toNat ∧ c.toNat < 0x110000 := c.valid

theorem encode_one (h : c.toNat < 0x80) : String.utf8EncodeChar c = [.ofNat c.toNat] := by
  have hle : c.val.toNat ≤ 0x7F := Nat.le_of_lt_succ h
  simp only [String.utf8EncodeChar, if_pos hle]
  rfl

theorem encode_two (hlow : 0x80 ≤ c.toNat) (h : c.toNat < 0x800) :
    String.utf8EncodeChar c =
      [.ofNat (c.toNat / 0x40 % 0x20 + 0xC0), .ofNat (c.toNat % 0x40 + 0x80)] := by
  have hnot : ¬ c.val.toNat ≤ 0x7F := Nat.not_le_of_lt hlow
  have hle : c.val.toNat ≤ 0x7FF := Nat.le_of_lt_succ h
  simp only [String.utf8EncodeChar, if_neg hnot, if_pos hle]
  rfl

theorem encode_three (hlow : 0x800 ≤ c.toNat) (h : c.toNat < 0x10000) :
    String.utf8EncodeChar c =
      [.ofNat (c.toNat / 0x1000 % 0x10 + 0xE0), .ofNat (c.toNat / 0x40 % 0x40 + 0x80),
        .ofNat (c.toNat % 0x40 + 0x80)] := by
  have hnot : ¬ c.val.toNat ≤ 0x7F := Nat.not_le_of_lt (Nat.lt_of_lt_of_le (by decide) hlow)
  have hnot' : ¬ c.val.toNat ≤ 0x7FF := Nat.not_le_of_lt hlow
  have hle : c.val.toNat ≤ 0xFFFF := Nat.le_of_lt_succ h
  simp only [String.utf8EncodeChar, if_neg hnot, if_neg hnot', if_pos hle]
  rfl

theorem encode_four (hlow : 0x10000 ≤ c.toNat) :
    String.utf8EncodeChar c =
      [.ofNat (c.toNat / 0x40000 % 0x8 + 0xF0), .ofNat (c.toNat / 0x1000 % 0x40 + 0x80),
        .ofNat (c.toNat / 0x40 % 0x40 + 0x80), .ofNat (c.toNat % 0x40 + 0x80)] := by
  have hnot : ¬ c.val.toNat ≤ 0x7F := Nat.not_le_of_lt (Nat.lt_of_lt_of_le (by decide) hlow)
  have hnot' : ¬ c.val.toNat ≤ 0x7FF := Nat.not_le_of_lt (Nat.lt_of_lt_of_le (by decide) hlow)
  have hnot'' : ¬ c.val.toNat ≤ 0xFFFF := Nat.not_le_of_lt hlow
  simp only [String.utf8EncodeChar, if_neg hnot, if_neg hnot', if_neg hnot'']
  rfl

/-- The four lengths. -/
theorem encode_cases (c : Char) :
    (c.toNat < 0x80 ∧ String.utf8EncodeChar c = [.ofNat c.toNat]) ∨
      (0x80 ≤ c.toNat ∧ c.toNat < 0x800 ∧ String.utf8EncodeChar c =
        [.ofNat (c.toNat / 0x40 % 0x20 + 0xC0), .ofNat (c.toNat % 0x40 + 0x80)]) ∨
      (0x800 ≤ c.toNat ∧ c.toNat < 0x10000 ∧ String.utf8EncodeChar c =
        [.ofNat (c.toNat / 0x1000 % 0x10 + 0xE0), .ofNat (c.toNat / 0x40 % 0x40 + 0x80),
          .ofNat (c.toNat % 0x40 + 0x80)]) ∨
      (0x10000 ≤ c.toNat ∧ String.utf8EncodeChar c =
        [.ofNat (c.toNat / 0x40000 % 0x8 + 0xF0), .ofNat (c.toNat / 0x1000 % 0x40 + 0x80),
          .ofNat (c.toNat / 0x40 % 0x40 + 0x80), .ofNat (c.toNat % 0x40 + 0x80)]) := by
  by_cases hone : c.toNat < 0x80
  · exact Or.inl ⟨hone, encode_one hone⟩
  by_cases htwo : c.toNat < 0x800
  · exact Or.inr (Or.inl ⟨Nat.le_of_not_lt hone, htwo, encode_two (Nat.le_of_not_lt hone) htwo⟩)
  by_cases hthree : c.toNat < 0x10000
  · exact Or.inr (Or.inr (Or.inl ⟨Nat.le_of_not_lt htwo, hthree,
      encode_three (Nat.le_of_not_lt htwo) hthree⟩))
  · exact Or.inr (Or.inr (Or.inr ⟨Nat.le_of_not_lt hthree, encode_four (Nat.le_of_not_lt hthree)⟩))

theorem readUtf8_encode (c : Char) : readUtf8 (String.utf8EncodeChar c) = .character c := by
  have hvalid := toNat_valid c
  have hread : ∀ n, n = c.toNat → Reading.character (Char.ofNat n) = .character c := by
    rintro n rfl
    rw [Char.ofNat_toNat]
  rcases encode_cases c with ⟨h, he⟩ | ⟨hlow, h, he⟩ | ⟨hlow, h, he⟩ | ⟨hlow, he⟩ <;> rw [he, readUtf8]
  · rw [UInt8.toNat_ofNat', if_pos (by omega)]
    exact hread _ (by omega)
  · simp only [isTail, UInt8.toNat_ofNat', Bool.and_eq_true, decide_eq_true_eq]
    rw [if_pos (by omega)]
    exact hread _ (by omega)
  · simp only [isSecond, isTail, UInt8.toNat_ofNat', Bool.and_eq_true, decide_eq_true_eq]
    rw [if_pos (by omega)]
    exact hread _ (by omega)
  · simp only [isSecond, isTail, UInt8.toNat_ofNat', Bool.and_eq_true, decide_eq_true_eq]
    rw [if_pos (by omega)]
    exact hread _ (by omega)

end Encode

/-! ## The characters of some bytes -/

section Read

variable {a b : UInt8} {bytes : List UInt8} {c : Char}

theorem toNat_ofNat_valid {n : Nat} (h : n < 0xD800 ∨ 0xDFFF < n ∧ n < 0x110000) :
    (Char.ofNat n).toNat = n := by
  rw [Char.ofNat, dif_pos h]
  rfl

theorem uint8_ofNat {n : Nat} (h : n = b.toNat) : UInt8.ofNat n = b := by
  rw [h, UInt8.ofNat_toNat]

/-- A character is read from its own bytes alone. -/
theorem readUtf8_sound (h : readUtf8 bytes = .character c) : bytes = String.utf8EncodeChar c := by
  unfold readUtf8 at h
  split at h
  case h_1 a =>
    split at h
    · rename_i hone
      injection h with hc
      have hn := toNat_ofNat_valid (n := a.toNat) (by omega)
      rw [← hc, encode_one (by omega), hn, uint8_ofNat rfl]
    · split at h <;> cases h
  case h_2 a b =>
    split at h
    · rename_i htwo
      simp only [isTail, Bool.and_eq_true, decide_eq_true_eq] at htwo
      injection h with hc
      have hn := toNat_ofNat_valid (n := a.toNat % 0x20 * 0x40 + b.toNat % 0x40) (by omega)
      rw [← hc, encode_two (by omega) (by omega), hn, uint8_ofNat (by omega : _ = a.toNat),
        uint8_ofNat (by omega : _ = b.toNat)]
    · split at h <;> cases h
  case h_3 a b d =>
    split at h
    · rename_i hthree
      simp only [isSecond, isTail, Bool.and_eq_true, decide_eq_true_eq] at hthree
      injection h with hc
      have hn := toNat_ofNat_valid
        (n := a.toNat % 0x10 * 0x1000 + b.toNat % 0x40 * 0x40 + d.toNat % 0x40) (by omega)
      rw [← hc, encode_three (by omega) (by omega), hn, uint8_ofNat (by omega : _ = a.toNat),
        uint8_ofNat (by omega : _ = b.toNat), uint8_ofNat (by omega : _ = d.toNat)]
    · split at h <;> cases h
  case h_4 a b d e =>
    split at h
    · rename_i hfour
      simp only [isSecond, isTail, Bool.and_eq_true, decide_eq_true_eq] at hfour
      injection h with hc
      have hn := toNat_ofNat_valid
        (n := a.toNat % 0x8 * 0x40000 + b.toNat % 0x40 * 0x1000 + d.toNat % 0x40 * 0x40 +
          e.toNat % 0x40) (by omega)
      rw [← hc, encode_four (by omega), hn, uint8_ofNat (by omega : _ = a.toNat),
        uint8_ofNat (by omega : _ = b.toNat), uint8_ofNat (by omega : _ = d.toNat),
        uint8_ofNat (by omega : _ = e.toNat)]
    · cases h
  case h_5 => cases h

end Read

/-! ## The code -/

section Code

variable {b : UInt8} {bytes front back : List UInt8} {c : Char}

/-- No byte goes on with what was kept unless it is a tail. -/
theorem readUtf8_append (h : isTail b = false) (hbytes : bytes ≠ []) :
    readUtf8 (bytes ++ [b]) = .invalid := by
  have hsecond : ∀ a, isSecond a b = false := by simp [isSecond, h]
  rcases bytes with _ | ⟨a, _ | ⟨d, _ | ⟨e, _ | _⟩⟩⟩
  · exact absurd rfl hbytes
  · simp [readUtf8, h, hsecond]
  · simp [readUtf8, h]
  · simp [readUtf8, h]
  · simp [readUtf8]

/-- The first byte of a character is no tail. -/
theorem encode_head (h : String.utf8EncodeChar c = b :: bytes) : isTail b = false := by
  rcases encode_cases c with ⟨hc, he⟩ | ⟨-, hc, he⟩ | ⟨-, hc, he⟩ | ⟨-, he⟩ <;>
    rw [he] at h <;> injection h with hb <;> subst hb <;>
    simp only [isTail, UInt8.toNat_ofNat', Bool.and_eq_false_iff, decide_eq_false_iff_not] <;>
    omega

/-- A proper front of a character is its beginning. -/
theorem readUtf8_front (h : String.utf8EncodeChar c = front ++ back) (hfront : front ≠ [])
    (hback : back ≠ []) : readUtf8 front = .incomplete := by
  have hvalid := toNat_valid c
  have hlength : front.length < (String.utf8EncodeChar c).length := by
    have := List.length_pos_iff.mpr hback
    rw [h, List.length_append]
    omega
  have htake : front = (String.utf8EncodeChar c).take front.length := by rw [h, List.take_left]
  have hpos := List.length_pos_iff.mpr hfront
  generalize front.length = n at htake hlength hpos
  subst htake
  rcases encode_cases c with ⟨hc, he⟩ | ⟨hlow, hc, he⟩ | ⟨hlow, hc, he⟩ | ⟨hlow, he⟩ <;>
    rw [he] at hlength ⊢ <;> simp only [List.length_cons, List.length_nil] at hlength
  · omega
  · obtain rfl : n = 1 := by omega
    simp only [List.take_succ_cons, List.take_zero, readUtf8, UInt8.toNat_ofNat']
    rw [if_neg (by omega), if_pos (by omega)]
  · obtain rfl | rfl : n = 1 ∨ n = 2 := by omega
    all_goals
      simp only [List.take_succ_cons, List.take_zero, readUtf8, isSecond, isTail,
        UInt8.toNat_ofNat', Bool.and_eq_true, decide_eq_true_eq]
      rw [if_neg (by omega), if_pos (by omega)]
  · obtain rfl | rfl | rfl : n = 1 ∨ n = 2 ∨ n = 3 := by omega
    all_goals
      simp only [List.take_succ_cons, List.take_zero, readUtf8, isSecond, isTail,
        UInt8.toNat_ofNat', Bool.and_eq_true, decide_eq_true_eq]
      rw [if_neg (by omega), if_pos (by omega)]

theorem utf8EncodeChar_ne_nil (c : Char) : String.utf8EncodeChar c ≠ [] := by
  rcases encode_cases c with ⟨-, he⟩ | ⟨-, -, he⟩ | ⟨-, -, he⟩ | ⟨-, he⟩ <;> rw [he] <;> simp

/-- The reading is that of the code. -/
theorem codes_utf8 : Codes String.utf8EncodeChar readUtf8 where
  nonempty := utf8EncodeChar_ne_nil
  complete := readUtf8_encode
  sound _ _ := readUtf8_sound
  incomplete _ _ _ := readUtf8_front
  leads _ _ _ _ h hkept := readUtf8_append (encode_head h) hkept

end Code

end Foundations
