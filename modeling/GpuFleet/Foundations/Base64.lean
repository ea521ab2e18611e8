import Mathlib.Data.List.DropRight

/-!
# Base64

Encoding of bytes, numbers below 256, in the standard and in the URL-safe
alphabet, and the lenient decoder that passes over characters outside the
alphabet and stops at a padding that is complete.

The decoder is a machine that reads one character at a time.  Its state is the
place in the group of four and the bits left over.  What was encoded is decoded
again (`a2b_encode`), by the strict decoder too (`decode_encode`), and also after
the padding was stripped and put back (`urlsafeDecode_unpadded`).
-/

namespace Foundations.Base64

/-! ## The alphabet -/

/-- The digits. -/
def digits : List Char :=
  "ABCDEFGHIJKLMNOPQRSTUVWXYZabcdefghijklmnopqrstuvwxyz0123456789+/".toList

/-- The digit for six bits. -/
def digit (n : Nat) : Char := digits.getD n 'A'

/-- The six bits of a digit. -/
def value? (c : Char) : Option Nat := digits.idxOf? c

theorem digits_eq : digits =
    ['A', 'B', 'C', 'D', 'E', 'F', 'G', 'H', 'I', 'J', 'K', 'L', 'M', 'N', 'O', 'P', 'Q', 'R',
      'S', 'T', 'U', 'V', 'W', 'X', 'Y', 'Z', 'a', 'b', 'c', 'd', 'e', 'f', 'g', 'h', 'i',
      'j', 'k', 'l', 'm', 'n', 'o', 'p', 'q', 'r', 's', 't', 'u', 'v', 'w', 'x', 'y', 'z',
      '0', '1', '2', '3', '4', '5', '6', '7', '8', '9', '+', '/'] :=
  String.toList_ofList

theorem digit_spec : ∀ n < 64, value? (digit n) = some n ∧ digit n ≠ '=' := by
  simp only [value?, digit, digits_eq]
  decide +kernel

/-! ## Encoding -/

/-- The digits for the bytes, without padding. -/
def body : List Nat → List Char
  | a :: b :: c :: rest =>
      digit (a / 4) :: digit (a % 4 * 16 + b / 16) :: digit (b % 16 * 4 + c / 64) ::
        digit (c % 64) :: body rest
  | [a, b] => [digit (a / 4), digit (a % 4 * 16 + b / 16), digit (b % 16 * 4)]
  | [a] => [digit (a / 4), digit (a % 4 * 16)]
  | [] => []

/-- Fill the last group of four. -/
def pad (text : List Char) : List Char := text ++ List.replicate ((4 - text.length % 4) % 4) '='

/-- `b64encode` -/
def encode (bytes : List Nat) : List Char := pad (body bytes)

/-! ## Decoding -/

/-- The decoder: `quad` digits of the group were read and `left` is what is left of them, after
`pads` signs of padding.  `none` stands for an incomplete last group. -/
def a2b : (quad left pads : Nat) → List Char → Option (List Nat)
  | quad, _, _, [] => if quad = 0 then some [] else none
  | quad, left, pads, c :: rest =>
      if c = '=' then
        if 2 ≤ quad then
          if 4 ≤ quad + (pads + 1) then some [] else a2b quad left (pads + 1) rest
        else a2b quad left pads rest
      else
        match value? c with
        | none => a2b quad left pads rest
        | some n =>
            match quad with
            | 0 => a2b 1 n 0 rest
            | 1 => (a2b 2 (n % 16) 0 rest).map fun bytes => (left * 4 + n / 16) :: bytes
            | 2 => (a2b 3 (n % 4) 0 rest).map fun bytes => (left * 16 + n / 4) :: bytes
            | _ => (a2b 0 0 0 rest).map fun bytes => (left * 64 + n) :: bytes

/-- The strict decoder: it takes digits and the padding the last group needs, and nothing else. -/
def a2bStrict : (quad left pads : Nat) → List Char → Option (List Nat)
  | quad, _, _, [] => if quad = 0 then some [] else none
  | quad, left, pads, c :: rest =>
      if c = '=' then
        if 2 ≤ quad then
          if 4 ≤ quad + (pads + 1) then if rest = [] then some [] else none
          else a2bStrict quad left (pads + 1) rest
        else none
      else if pads ≠ 0 then none
      else
        match value? c with
        | none => none
        | some n =>
            match quad with
            | 0 => a2bStrict 1 n 0 rest
            | 1 => (a2bStrict 2 (n % 16) 0 rest).map fun bytes => (left * 4 + n / 16) :: bytes
            | 2 => (a2bStrict 3 (n % 4) 0 rest).map fun bytes => (left * 16 + n / 4) :: bytes
            | _ => (a2bStrict 0 0 0 rest).map fun bytes => (left * 64 + n) :: bytes

/-- `b64decode` of a text with `validate=True` -/
def decode (text : List Char) : Option (List Nat) := a2bStrict 0 0 0 text

section RoundTrip

variable {quad left pads n : Nat} {rest : List Char}

attribute [local simp] a2b a2bStrict

theorem length_body (bytes : List Nat) : (body bytes).length = (4 * bytes.length + 2) / 3 := by
  induction bytes using body.induct with
  | case1 a b c rest ih =>
      simp only [body, List.length_cons, ih]
      omega
  | case2 => simp [body]
  | case3 => simp [body]
  | case4 => simp [body]

/-- Three bytes, or what is left of them, take four characters. -/
theorem length_encode (bytes : List Nat) : (encode bytes).length = 4 * ((bytes.length + 2) / 3) := by
  rw [encode, pad, List.length_append, List.length_replicate, length_body]
  omega

theorem a2b_digit_zero (hn : n < 64) : a2b 0 left pads (digit n :: rest) = a2b 1 n 0 rest := by
  simp only [a2b, if_neg (digit_spec n hn).2, (digit_spec n hn).1]

theorem a2b_digit_one (hn : n < 64) :
    a2b 1 left pads (digit n :: rest) =
      (a2b 2 (n % 16) 0 rest).map fun bytes => (left * 4 + n / 16) :: bytes := by
  simp only [a2b, if_neg (digit_spec n hn).2, (digit_spec n hn).1]

theorem a2b_digit_two (hn : n < 64) :
    a2b 2 left pads (digit n :: rest) =
      (a2b 3 (n % 4) 0 rest).map fun bytes => (left * 16 + n / 4) :: bytes := by
  simp only [a2b, if_neg (digit_spec n hn).2, (digit_spec n hn).1]

theorem a2b_digit_three (hn : n < 64) :
    a2b 3 left pads (digit n :: rest) =
      (a2b 0 0 0 rest).map fun bytes => (left * 64 + n) :: bytes := by
  simp only [a2b, if_neg (digit_spec n hn).2, (digit_spec n hn).1]

/-- Three bytes are encoded on their own. -/
theorem pad_body_cons (a b c : Nat) (bytes : List Nat) :
    pad (body (a :: b :: c :: bytes)) =
      digit (a / 4) :: digit (a % 4 * 16 + b / 16) :: digit (b % 16 * 4 + c / 64) ::
        digit (c % 64) :: pad (body bytes) := by
  simp only [pad, body, List.length_cons, List.cons_append]
  congr 7
  omega

/-- What was encoded is decoded. -/
theorem a2b_encode {bytes : List Nat} (h : ∀ b ∈ bytes, b < 256) :
    a2b 0 0 0 (encode bytes) = some bytes := by
  unfold encode
  induction bytes using body.induct with
  | case1 a b c rest ih =>
      simp only [List.forall_mem_cons] at h
      obtain ⟨ha, hb, hc, hrest⟩ := h
      rw [pad_body_cons, a2b_digit_zero (by omega), a2b_digit_one (by omega), a2b_digit_two (by omega),
        a2b_digit_three (by omega), ih hrest]
      simp only [Option.map_some, Option.some.injEq, List.cons.injEq, and_true]
      refine ⟨by omega, by omega, by omega⟩
  | case2 a b =>
      simp only [List.forall_mem_cons] at h
      obtain ⟨ha, hb, -⟩ := h
      have hpad : pad (body [a, b]) =
          [digit (a / 4), digit (a % 4 * 16 + b / 16), digit (b % 16 * 4), '='] := rfl
      rw [hpad, a2b_digit_zero (by omega), a2b_digit_one (by omega), a2b_digit_two (by omega)]
      simp
      omega
  | case3 a =>
      simp only [List.forall_mem_cons] at h
      obtain ⟨ha, -⟩ := h
      have hpad : pad (body [a]) = [digit (a / 4), digit (a % 4 * 16), '=', '='] := rfl
      rw [hpad, a2b_digit_zero (by omega), a2b_digit_one (by omega)]
      simp
      omega
  | case4 => simp [pad, body]

theorem a2bStrict_digit_zero (hn : n < 64) :
    a2bStrict 0 left 0 (digit n :: rest) = a2bStrict 1 n 0 rest := by
  simp only [a2bStrict, if_neg (digit_spec n hn).2, (digit_spec n hn).1, ne_eq, not_true_eq_false,
    if_false]

theorem a2bStrict_digit_one (hn : n < 64) :
    a2bStrict 1 left 0 (digit n :: rest) =
      (a2bStrict 2 (n % 16) 0 rest).map fun bytes => (left * 4 + n / 16) :: bytes := by
  simp only [a2bStrict, if_neg (digit_spec n hn).2, (digit_spec n hn).1, ne_eq, not_true_eq_false,
    if_false]

theorem a2bStrict_digit_two (hn : n < 64) :
    a2bStrict 2 left 0 (digit n :: rest) =
      (a2bStrict 3 (n % 4) 0 rest).map fun bytes => (left * 16 + n / 4) :: bytes := by
  simp only [a2bStrict, if_neg (digit_spec n hn).2, (digit_spec n hn).1, ne_eq, not_true_eq_false,
    if_false]

theorem a2bStrict_digit_three (hn : n < 64) :
    a2bStrict 3 left 0 (digit n :: rest) =
      (a2bStrict 0 0 0 rest).map fun bytes => (left * 64 + n) :: bytes := by
  simp only [a2bStrict, if_neg (digit_spec n hn).2, (digit_spec n hn).1, ne_eq, not_true_eq_false,
    if_false]

/-- What was encoded passes the strict decoder. -/
theorem decode_encode {bytes : List Nat} (h : ∀ b ∈ bytes, b < 256) :
    decode (encode bytes) = some bytes := by
  unfold decode encode
  induction bytes using body.induct with
  | case1 a b c rest ih =>
      simp only [List.forall_mem_cons] at h
      obtain ⟨ha, hb, hc, hrest⟩ := h
      rw [pad_body_cons, a2bStrict_digit_zero (by omega), a2bStrict_digit_one (by omega),
        a2bStrict_digit_two (by omega), a2bStrict_digit_three (by omega), ih hrest]
      simp only [Option.map_some, Option.some.injEq, List.cons.injEq, and_true]
      refine ⟨by omega, by omega, by omega⟩
  | case2 a b =>
      simp only [List.forall_mem_cons] at h
      obtain ⟨ha, hb, -⟩ := h
      have hpad : pad (body [a, b]) =
          [digit (a / 4), digit (a % 4 * 16 + b / 16), digit (b % 16 * 4), '='] := rfl
      rw [hpad, a2bStrict_digit_zero (by omega), a2bStrict_digit_one (by omega),
        a2bStrict_digit_two (by omega)]
      simp
      omega
  | case3 a =>
      simp only [List.forall_mem_cons] at h
      obtain ⟨ha, -⟩ := h
      have hpad : pad (body [a]) = [digit (a / 4), digit (a % 4 * 16), '=', '='] := rfl
      rw [hpad, a2bStrict_digit_zero (by omega), a2bStrict_digit_one (by omega)]
      simp
      omega
  | case4 => simp [pad, body]

end RoundTrip

/-! ## The URL-safe alphabet -/

/-- A character in the URL-safe alphabet. -/
def toUrl (c : Char) : Char := if c = '+' then '-' else if c = '/' then '_' else c

/-- A character of the URL-safe alphabet in the standard one. -/
def fromUrl (c : Char) : Char := if c = '-' then '+' else if c = '_' then '/' else c

/-- `urlsafe_b64encode` -/
def urlsafeEncode (bytes : List Nat) : List Char := (encode bytes).map toUrl

/-- `urlsafe_b64decode` -/
def urlsafeDecode (text : List Char) : Option (List Nat) := a2b 0 0 0 (text.map fromUrl)

/-- `rstrip("=")` -/
def unpadded (text : List Char) : List Char := text.rdropWhile (· = '=')

theorem toUrl_digit_spec : ∀ n < 64, fromUrl (toUrl (digit n)) = digit n ∧
    toUrl (digit n) ≠ '=' ∧ (toUrl (digit n)).toNat < 128 := by
  simp only [digit, digits_eq]
  decide +kernel

theorem mem_body {bytes : List Nat} (h : ∀ b ∈ bytes, b < 256) {c : Char} (hc : c ∈ body bytes) :
    ∃ n < 64, c = digit n := by
  induction bytes using body.induct with
  | case1 a b c rest ih =>
      simp only [List.forall_mem_cons] at h
      obtain ⟨ha, hb, hc', hrest⟩ := h
      simp only [body, List.mem_cons] at hc
      rcases hc with e | e | e | e | hc
      · exact ⟨_, by omega, e⟩
      · exact ⟨_, by omega, e⟩
      · exact ⟨_, by omega, e⟩
      · exact ⟨_, by omega, e⟩
      · exact ih hrest hc
  | case2 a b =>
      simp only [List.forall_mem_cons] at h
      obtain ⟨ha, hb, -⟩ := h
      simp only [body, List.mem_cons, List.not_mem_nil, or_false] at hc
      rcases hc with e | e | e
      · exact ⟨_, by omega, e⟩
      · exact ⟨_, by omega, e⟩
      · exact ⟨_, by omega, e⟩
  | case3 a =>
      simp only [List.forall_mem_cons] at h
      obtain ⟨ha, -⟩ := h
      simp only [body, List.mem_cons, List.not_mem_nil, or_false] at hc
      rcases hc with e | e
      · exact ⟨_, by omega, e⟩
      · exact ⟨_, by omega, e⟩
  | case4 => cases hc

theorem toUrl_body_spec {bytes : List Nat} (h : ∀ b ∈ bytes, b < 256) {c : Char}
    (hc : c ∈ body bytes) : fromUrl (toUrl c) = c ∧ toUrl c ≠ '=' ∧ (toUrl c).toNat < 128 := by
  obtain ⟨n, hn, e⟩ := mem_body h hc
  rw [e]
  exact toUrl_digit_spec n hn

theorem digit_ascii : ∀ n < 64, (digit n).toNat < 128 := by
  simp only [digit, digits_eq]
  decide +kernel

theorem encode_ascii {bytes : List Nat} (h : ∀ b ∈ bytes, b < 256) {c : Char}
    (hc : c ∈ encode bytes) : c.toNat < 128 := by
  rcases List.mem_append.mp hc with hbody | hpad
  · obtain ⟨n, hn, e⟩ := mem_body h hbody
    rw [e]
    exact digit_ascii n hn
  · rw [List.eq_of_mem_replicate hpad]
    decide

/-- Stripping the padding leaves the digits. -/
theorem unpadded_urlsafeEncode {bytes : List Nat} (h : ∀ b ∈ bytes, b < 256) :
    unpadded (urlsafeEncode bytes) = (body bytes).map toUrl := by
  have hstrip : ∀ (k : Nat) (text : List Char), (∀ c ∈ text, c ≠ '=') →
      (text ++ List.replicate k '=').rdropWhile (· = '=') = text := by
    intro k text htext
    induction k with
    | zero =>
        rw [List.replicate_zero, List.append_nil, List.rdropWhile_eq_self_iff]
        intro hne
        simpa using htext _ (List.getLast_mem hne)
    | succ k ih =>
        rw [List.replicate_succ', ← List.append_assoc, List.rdropWhile_concat, if_pos (by simp), ih]
  unfold unpadded urlsafeEncode encode pad
  rw [List.map_append, List.map_replicate]
  refine hstrip _ _ fun c hc => ?_
  obtain ⟨d, hd, rfl⟩ := List.mem_map.mp hc
  exact (toUrl_body_spec h hd).2.1

/-- Encoded bytes are decoded again after their padding was stripped and put back. -/
theorem urlsafeDecode_unpadded {bytes : List Nat} (h : ∀ b ∈ bytes, b < 256) :
    urlsafeDecode (pad (unpadded (urlsafeEncode bytes))) = some bytes := by
  have hback : (pad ((body bytes).map toUrl)).map fromUrl = encode bytes := by
    rw [pad, List.map_append, List.map_map, List.map_replicate, List.length_map, encode, pad]
    congr 1
    rw [List.map_congr_left (g := id), List.map_id]
    intro c hc
    exact (toUrl_body_spec h hc).1
  rw [unpadded_urlsafeEncode h, urlsafeDecode, hback, a2b_encode h]

/-- Encoded bytes are decoded again. -/
theorem urlsafeDecode_urlsafeEncode {bytes : List Nat} (h : ∀ b ∈ bytes, b < 256) :
    urlsafeDecode (urlsafeEncode bytes) = some bytes := by
  have hback : ((encode bytes).map toUrl).map fromUrl = encode bytes := by
    rw [List.map_map, List.map_congr_left (g := id), List.map_id]
    intro c hc
    rcases List.mem_append.mp hc with hbody | hpad
    · exact (toUrl_body_spec h hbody).1
    · rw [List.eq_of_mem_replicate hpad]
      rfl
  rw [urlsafeDecode, urlsafeEncode, hback, a2b_encode h]

theorem urlsafeEncode_ascii {bytes : List Nat} (h : ∀ b ∈ bytes, b < 256) {c : Char}
    (hc : c ∈ urlsafeEncode bytes) : c.toNat < 128 := by
  obtain ⟨d, hd, rfl⟩ := List.mem_map.mp hc
  rcases List.mem_append.mp hd with hbody | hpad
  · exact (toUrl_body_spec h hbody).2.2
  · rw [List.eq_of_mem_replicate hpad]
    decide

/-- The text that is left after stripping is ASCII. -/
theorem unpadded_ascii {bytes : List Nat} (h : ∀ b ∈ bytes, b < 256) {c : Char}
    (hc : c ∈ unpadded (urlsafeEncode bytes)) : c.toNat < 128 := by
  rw [unpadded_urlsafeEncode h] at hc
  obtain ⟨d, hd, rfl⟩ := List.mem_map.mp hc
  exact (toUrl_body_spec h hd).2.2

theorem unpadded_ne_nil {bytes : List Nat} (h : ∀ b ∈ bytes, b < 256) (hne : bytes ≠ []) :
    unpadded (urlsafeEncode bytes) ≠ [] := by
  rw [unpadded_urlsafeEncode h, Ne, List.map_eq_nil_iff]
  match bytes with
  | [] => exact absurd rfl hne
  | [_] | [_, _] | _ :: _ :: _ :: _ => nofun

/-! ## Texts as bytes -/

/-- The bytes of a text in UTF-8. -/
def utf8 (text : List Char) : List Nat :=
  (text.flatMap String.utf8EncodeChar).map UInt8.toNat

/-- The text of bytes in UTF-8. -/
def utf8Decode? (bytes : List Nat) : Option (List Char) :=
  (ByteArray.mk (bytes.map UInt8.ofNat).toArray).utf8Decode?.map Array.toList

theorem utf8_lt {text : List Char} {b : Nat} (hb : b ∈ utf8 text) : b < 256 := by
  obtain ⟨byte, -, rfl⟩ := List.mem_map.mp hb
  exact byte.toNat_lt

theorem utf8Decode?_utf8 (text : List Char) : utf8Decode? (utf8 text) = some text := by
  have hbytes : (utf8 text).map UInt8.ofNat = text.flatMap String.utf8EncodeChar := by
    simp [utf8, List.map_map, Function.comp_def]
  have hencode : ByteArray.mk (text.flatMap String.utf8EncodeChar).toArray = text.utf8Encode := by
    rw [List.utf8Encode, ByteArray.ext_iff, List.data_toByteArray]
  simp [utf8Decode?, hbytes, hencode, List.utf8Decode?_utf8Encode]

end Foundations.Base64
