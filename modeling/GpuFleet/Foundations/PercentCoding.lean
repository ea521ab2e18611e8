import GpuFleet.Foundations.Base64
import GpuFleet.Foundations.JsonText

/-!
# Percent-encoding

`encodeURIComponent` and `decodeURIComponent`.  A character outside a small set
is written as the bytes of its UTF-8 form, each behind a percent sign.

What was encoded is decoded again (`decodeURIComponent_encodeURIComponent`), and
it holds nothing but characters of the set and percent signs
(`mem_encodeURIComponent`).
-/

namespace Foundations.PercentCoding

/-- A character that is written as it is.  The one with code 39 is the apostrophe. -/
def unreserved (c : Char) : Bool :=
  c.isAlphanum || c = '-' || c = '_' || c = '.' || c = '!' || c = '~' || c = '*' || c.toNat = 39 ||
    c = '(' || c = ')'

/-- A digit, in the upper case. -/
def hexDigit (n : Nat) : Char := .ofNat (if n < 10 then 48 + n else 55 + n)

/-- `%XX` -/
def percentByte (b : Nat) : List Char := ['%', hexDigit (b / 16), hexDigit (b % 16)]

/-- A character, written as it is or byte by byte. -/
def encodeChar (c : Char) : List Char :=
  if unreserved c then [c] else (Base64.utf8 [c]).flatMap percentByte

def encodeURIComponent (text : List Char) : List Char := text.flatMap encodeChar

/-- The bytes that a text stands for. -/
def percentBytes : List Char → Option (List Nat)
  | [] => some []
  | '%' :: a :: b :: rest => do
      let high ← JsonText.hexValue? a
      let low ← JsonText.hexValue? b
      (percentBytes rest).map fun bytes => (high * 16 + low) :: bytes
  | c :: rest =>
      if c = '%' then none else (percentBytes rest).map fun bytes => Base64.utf8 [c] ++ bytes

/-- `none` stands for a `URIError`. -/
def decodeURIComponent (text : List Char) : Option (List Char) :=
  (percentBytes text).bind Base64.utf8Decode?

/-! ## What was encoded is decoded -/

theorem hexValue?_hexDigit : ∀ n < 16, JsonText.hexValue? (hexDigit n) = some n := by decide

theorem unreserved_hexDigit : ∀ n < 16, unreserved (hexDigit n) = true := by decide

theorem percentBytes_percentByte {b : Nat} (h : b < 256) (tail : List Char) :
    percentBytes (percentByte b ++ tail) = (percentBytes tail).map fun bytes => b :: bytes := by
  have hsum : b / 16 * 16 + b % 16 = b := by omega
  simp [percentByte, percentBytes, hexValue?_hexDigit (b / 16) (by omega),
    hexValue?_hexDigit (b % 16) (by omega), hsum]

theorem percentBytes_flatMap {bytes : List Nat} (h : ∀ b ∈ bytes, b < 256) (tail : List Char) :
    percentBytes (bytes.flatMap percentByte ++ tail) =
      (percentBytes tail).map fun later => bytes ++ later := by
  induction bytes with
  | nil => simp
  | cons b bytes ih =>
      simp only [List.forall_mem_cons] at h
      rw [List.flatMap_cons, List.append_assoc, percentBytes_percentByte h.1, ih h.2]
      simp [Function.comp_def]

theorem percentBytes_plain {c : Char} (h : c ≠ '%') (tail : List Char) :
    percentBytes (c :: tail) = (percentBytes tail).map fun bytes => Base64.utf8 [c] ++ bytes := by
  rw [percentBytes, if_neg h]
  intro a b rest e
  exact absurd e h

theorem percentBytes_encodeChar (c : Char) (tail : List Char) :
    percentBytes (encodeChar c ++ tail) =
      (percentBytes tail).map fun bytes => Base64.utf8 [c] ++ bytes := by
  rw [encodeChar]
  split
  · rename_i hc
    refine percentBytes_plain (fun e => ?_) tail
    rw [e] at hc
    exact absurd hc (by decide)
  · exact percentBytes_flatMap (fun b => Base64.utf8_lt) tail

theorem percentBytes_encodeURIComponent (text : List Char) :
    percentBytes (encodeURIComponent text) = some (Base64.utf8 text) := by
  induction text with
  | nil => rfl
  | cons c text ih =>
      rw [encodeURIComponent, List.flatMap_cons, percentBytes_encodeChar, ← encodeURIComponent, ih]
      simp [Base64.utf8]

theorem decodeURIComponent_encodeURIComponent (text : List Char) :
    decodeURIComponent (encodeURIComponent text) = some text := by
  rw [decodeURIComponent, percentBytes_encodeURIComponent, Option.bind_some, Base64.utf8Decode?_utf8]

/-! ## The characters of an encoded text -/

theorem mem_percentByte {b : Nat} (h : b < 256) {c : Char} (hc : c ∈ percentByte b) :
    unreserved c = true ∨ c = '%' := by
  simp only [percentByte, List.mem_cons, List.not_mem_nil, or_false] at hc
  rcases hc with e | e | e
  · exact .inr e
  · exact .inl (e ▸ unreserved_hexDigit _ (by omega))
  · exact .inl (e ▸ unreserved_hexDigit _ (by omega))

theorem mem_encodeURIComponent {text : List Char} {c : Char} (hc : c ∈ encodeURIComponent text) :
    unreserved c = true ∨ c = '%' := by
  obtain ⟨d, -, hc⟩ := List.mem_flatMap.mp hc
  rw [encodeChar] at hc
  split at hc
  · rename_i hd
    exact .inl (List.mem_singleton.mp hc ▸ hd)
  · obtain ⟨b, hb, hc⟩ := List.mem_flatMap.mp hc
    exact mem_percentByte (Base64.utf8_lt hb) hc

theorem printable_isAlphanum {c : Char} (h : c.isAlphanum = true) :
    33 ≤ c.toNat ∧ c.toNat ≤ 126 := by
  delta Char.isAlphanum Char.isAlpha Char.isUpper Char.isLower Char.isDigit at h
  simp only [Bool.or_eq_true, Bool.and_eq_true, decide_eq_true_eq, ge_iff_le,
    UInt32.le_iff_toNat_le] at h
  have hends : 'A'.val.toNat = 65 ∧ 'Z'.val.toNat = 90 ∧ 'a'.val.toNat = 97 ∧ 'z'.val.toNat = 122 ∧
      '0'.val.toNat = 48 ∧ '9'.val.toNat = 57 := by decide
  rw [Char.toNat]
  omega

/-- An encoded text is printable. -/
theorem printable_encodeURIComponent {text : List Char} {c : Char}
    (hc : c ∈ encodeURIComponent text) : 33 ≤ c.toNat ∧ c.toNat ≤ 126 := by
  rcases mem_encodeURIComponent hc with h | rfl
  · simp only [unreserved, Bool.or_eq_true, decide_eq_true_eq] at h
    rcases h with ((((((((h | rfl) | rfl) | rfl) | rfl) | rfl) | rfl) | h) | rfl) | rfl
    · exact printable_isAlphanum h
    all_goals first | decide | omega
  · decide

theorem utf8_ne_nil (c : Char) : Base64.utf8 [c] ≠ [] := by
  simp [Base64.utf8, String.utf8EncodeChar_ne_nil]

theorem encodeURIComponent_ne_nil {text : List Char} (h : text ≠ []) :
    encodeURIComponent text ≠ [] := by
  obtain ⟨c, text, rfl⟩ := List.exists_cons_of_ne_nil h
  rw [encodeURIComponent, List.flatMap_cons, encodeChar]
  split
  · simp
  · obtain ⟨b, bytes, hbytes⟩ := List.exists_cons_of_ne_nil (utf8_ne_nil c)
    simp [hbytes, percentByte]

end Foundations.PercentCoding
