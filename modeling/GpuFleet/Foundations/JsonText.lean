import Mathlib.Data.List.Basic
import Mathlib.Data.Nat.Basic
import Mathlib.Tactic.IntervalCases

/-!
# JSON texts

A reader of JSON texts, and the writer of their strings and numbers that
escapes every character outside printable ASCII.

A string is the list of its code points.  An escape `\uXXXX` may name half of a
surrogate pair; two halves that meet are one code point, and a half that stands
alone stays.  A number with a fraction or an exponent is kept as it is written.

The reader takes a bound on its depth, and the length of the text is enough.
What the writer writes is read back (`scanString_text`, `scanNumber_decimal`).
-/

namespace Foundations.JsonText

/-- A JSON value. -/
inductive Value where
  | null
  | bool (b : Bool)
  | int (n : Int)
  | float (literal : List Char)
  | str (codePoints : List Nat)
  | arr (items : List Value)
  | obj (fields : List (List Nat × Value))

/-! ## Writing -/

def hexDigit (n : Nat) : Char := "0123456789abcdef".toList.getD n '0'

/-- `\uXXXX` -/
def unicodeEscape (n : Nat) : List Char :=
  ['\\', 'u', hexDigit (n / 4096), hexDigit (n / 256 % 16), hexDigit (n / 16 % 16),
    hexDigit (n % 16)]

/-- The code units of a character: one, or a surrogate pair. -/
def units (c : Char) : List Nat :=
  if c.toNat < 65536 then [c.toNat]
  else [55296 + (c.toNat - 65536) / 1024, 56320 + (c.toNat - 65536) % 1024]

/-- A character in a string. -/
def escaped (c : Char) : List Char :=
  if c = '"' then ['\\', '"']
  else if c = '\\' then ['\\', '\\']
  else if c = '\n' then ['\\', 'n']
  else if c = '\r' then ['\\', 'r']
  else if c = '\t' then ['\\', 't']
  else if c = '\x0c' then ['\\', 'f']
  else if c = '\x08' then ['\\', 'b']
  else if 32 ≤ c.toNat ∧ c.toNat ≤ 126 then [c]
  else (units c).flatMap unicodeEscape

/-- A string. -/
def stringText (s : List Char) : List Char := '"' :: (s.flatMap escaped ++ ['"'])

/-- A natural number. -/
def decimal (n : Nat) : List Char := Nat.toDigits 10 n

/-! ## Reading -/

def hexValue? (c : Char) : Option Nat :=
  if '0' ≤ c ∧ c ≤ '9' then some (c.toNat - 48)
  else if 'a' ≤ c ∧ c ≤ 'f' then some (c.toNat - 87)
  else if 'A' ≤ c ∧ c ≤ 'F' then some (c.toNat - 55)
  else none

/-- The number of four hexadecimal digits. -/
def hex4? (a b c d : Char) : Option Nat := do
  let a ← hexValue? a
  let b ← hexValue? b
  let c ← hexValue? c
  let d ← hexValue? d
  pure (a * 4096 + b * 256 + c * 16 + d)

/-- The character an escape of one letter stands for. -/
def escapeValue? (c : Char) : Option Nat :=
  if c = '"' then some 34
  else if c = '\\' then some 92
  else if c = '/' then some 47
  else if c = 'b' then some 8
  else if c = 'f' then some 12
  else if c = 'n' then some 10
  else if c = 'r' then some 13
  else if c = 't' then some 9
  else none

/-- The code units of a string, after its opening quote, and the text after it. -/
def scanString : List Char → Option (List Nat × List Char)
  | [] => none
  | '\\' :: 'u' :: a :: b :: c :: d :: rest => do
      let n ← hex4? a b c d
      let (us, rest) ← scanString rest
      pure (n :: us, rest)
  | '\\' :: e :: rest => do
      let n ← escapeValue? e
      let (us, rest) ← scanString rest
      pure (n :: us, rest)
  | c :: rest =>
      if c = '"' then some ([], rest)
      else if c = '\\' ∨ c.toNat < 32 then none
      else do
        let (us, rest) ← scanString rest
        pure (c.toNat :: us, rest)

/-- Join the surrogate pairs. -/
def joinSurrogates : List Nat → List Nat
  | high :: low :: rest =>
      if (55296 ≤ high ∧ high < 56320) ∧ 56320 ≤ low ∧ low < 57344 then
        (65536 + (high - 55296) * 1024 + (low - 56320)) :: joinSurrogates rest
      else high :: joinSurrogates (low :: rest)
  | us => us

/-- The digits of a whole number. -/
def scanDigits (text : List Char) : Option (List Char × List Char) :=
  match text with
  | '0' :: rest => some (['0'], rest)
  | _ =>
      let ds := text.takeWhile Char.isDigit
      if ds = [] then none else some (ds, text.dropWhile Char.isDigit)

/-- A fraction, if there is one. -/
def scanFraction (text : List Char) : List Char × List Char :=
  match text with
  | '.' :: rest =>
      let ds := rest.takeWhile Char.isDigit
      if ds = [] then ([], text) else ('.' :: ds, rest.dropWhile Char.isDigit)
  | _ => ([], text)

/-- An exponent, if there is one. -/
def scanExponent (text : List Char) : List Char × List Char :=
  match text with
  | [] => ([], text)
  | e :: rest =>
      let (sign, after) := match rest with
        | '+' :: after => (['+'], after)
        | '-' :: after => (['-'], after)
        | _ => ([], rest)
      let ds := after.takeWhile Char.isDigit
      if (e = 'e' ∨ e = 'E') ∧ ds ≠ [] then (e :: sign ++ ds, after.dropWhile Char.isDigit)
      else ([], text)

/-- A minus sign, if there is one. -/
def scanSign : List Char → Bool × List Char
  | '-' :: rest => (true, rest)
  | text => (false, text)

/-- A number. -/
def scanNumber (text : List Char) : Option (Value × List Char) := do
  let (negative, rest) := scanSign text
  let (ds, rest) ← scanDigits rest
  let (fraction, rest) := scanFraction rest
  let (exponent, rest) := scanExponent rest
  if fraction = [] ∧ exponent = [] then
    let n := Nat.ofDigitChars 10 ds 0
    pure (.int (if negative then -n else n), rest)
  else
    pure (.float ((if negative then ['-'] else []) ++ ds ++ fraction ++ exponent), rest)

/-- Pass over white space. -/
def skipWs (text : List Char) : List Char :=
  text.dropWhile fun c => c = ' ' ∨ c = '\t' ∨ c = '\n' ∨ c = '\r'

mutual

/-- A value, of a depth below the bound. -/
def scanValue : Nat → List Char → Option (Value × List Char)
  | 0, _ => none
  | depth + 1, text =>
      match text with
      | '"' :: rest => do
          let (us, rest) ← scanString rest
          pure (.str (joinSurrogates us), rest)
      | '{' :: rest =>
          match skipWs rest with
          | '}' :: rest => some (.obj [], rest)
          | rest => (scanFields depth rest).map fun (fields, rest) => (.obj fields, rest)
      | '[' :: rest =>
          match skipWs rest with
          | ']' :: rest => some (.arr [], rest)
          | rest => (scanItems depth rest).map fun (items, rest) => (.arr items, rest)
      | 'n' :: 'u' :: 'l' :: 'l' :: rest => some (.null, rest)
      | 't' :: 'r' :: 'u' :: 'e' :: rest => some (.bool true, rest)
      | 'f' :: 'a' :: 'l' :: 's' :: 'e' :: rest => some (.bool false, rest)
      | 'N' :: 'a' :: 'N' :: rest => some (.float ['N', 'a', 'N'], rest)
      | 'I' :: 'n' :: 'f' :: 'i' :: 'n' :: 'i' :: 't' :: 'y' :: rest =>
          some (.float "Infinity".toList, rest)
      | '-' :: 'I' :: 'n' :: 'f' :: 'i' :: 'n' :: 'i' :: 't' :: 'y' :: rest =>
          some (.float "-Infinity".toList, rest)
      | _ => scanNumber text

/-- The fields of an object that has one. -/
def scanFields : Nat → List Char → Option (List (List Nat × Value) × List Char)
  | 0, _ => none
  | depth + 1, text =>
      match text with
      | '"' :: rest => do
          let (us, rest) ← scanString rest
          match skipWs rest with
          | ':' :: rest => do
              let (value, rest) ← scanValue depth (skipWs rest)
              let field := (joinSurrogates us, value)
              match skipWs rest with
              | '}' :: rest => pure ([field], rest)
              | ',' :: rest => do
                  let (fields, rest) ← scanFields depth (skipWs rest)
                  pure (field :: fields, rest)
              | _ => none
          | _ => none
      | _ => none

/-- The items of an array that has one. -/
def scanItems : Nat → List Char → Option (List Value × List Char)
  | 0, _ => none
  | depth + 1, text => do
      let (value, rest) ← scanValue depth text
      match skipWs rest with
      | ']' :: rest => pure ([value], rest)
      | ',' :: rest => do
          let (items, rest) ← scanItems depth (skipWs rest)
          pure (value :: items, rest)
      | _ => none

end

/-- `json.loads` -/
def loads (text : List Char) : Option Value :=
  match scanValue (text.length + 1) (skipWs text) with
  | some (value, rest) => if skipWs rest = [] then some value else none
  | none => none

/-- The field of an object: of equal names the last one counts. -/
def field? (fields : List (List Nat × Value)) (name : String) : Option Value :=
  fields.reverse.lookup (name.toList.map Char.toNat)

/-! ## What was written is read -/

theorem hexValue?_hexDigit : ∀ n < 16, hexValue? (hexDigit n) = some n := by decide

theorem hex4?_digits {n : Nat} (hn : n < 65536) :
    hex4? (hexDigit (n / 4096)) (hexDigit (n / 256 % 16)) (hexDigit (n / 16 % 16))
      (hexDigit (n % 16)) = some n := by
  have h := hexValue?_hexDigit
  rw [hex4?, h _ (by omega), h _ (by omega), h _ (by omega), h _ (by omega)]
  simp only [Option.pure_def, Option.bind_eq_bind, Option.bind_some, Option.some.injEq]
  omega

/-- Put code units before those of the rest. -/
def prepend (us : List Nat) (scanned : Option (List Nat × List Char)) :
    Option (List Nat × List Char) :=
  scanned.map fun p => (us ++ p.1, p.2)

theorem scanString_unicodeEscape {n : Nat} (hn : n < 65536) (tail : List Char) :
    scanString (unicodeEscape n ++ tail) = prepend [n] (scanString tail) := by
  simp only [unicodeEscape, List.cons_append, List.nil_append, scanString, hex4?_digits hn]
  cases scanString tail <;> rfl

theorem scanString_escape {e : Char} {n : Nat} (he : escapeValue? e = some n) (tail : List Char) :
    scanString ('\\' :: e :: tail) = prepend [n] (scanString tail) := by
  have hu : e ≠ 'u' := by
    rintro rfl
    cases he
  rw [scanString, he]
  · cases scanString tail <;> rfl
  · rintro a b c d rest rfl
    exact absurd rfl hu

theorem scanString_plain {c : Char} (hquote : c ≠ '"') (hslash : c ≠ '\\') (hc : 32 ≤ c.toNat)
    (tail : List Char) : scanString (c :: tail) = prepend [c.toNat] (scanString tail) := by
  rw [scanString, if_neg hquote, if_neg (by simp [hslash]; omega)]
  · cases scanString tail <;> rfl
  · rintro a b c' d rest rfl
    exact absurd rfl hslash
  · rintro e rest rfl
    exact absurd rfl hslash

/-- A code point of a character is no half of a surrogate pair. -/
theorem toNat_bounds (c : Char) : c.toNat < 55296 ∨ 57344 ≤ c.toNat ∧ c.toNat < 1114112 := by
  rcases c.valid with h | ⟨hlow, hhigh⟩
  · exact Or.inl h
  · exact Or.inr ⟨hlow, hhigh⟩

/-- A character that is written is read as its code units. -/
theorem scanString_escaped (c : Char) (tail : List Char) :
    scanString (escaped c ++ tail) = prepend (units c) (scanString tail) := by
  unfold escaped
  split
  · rename_i hc
    subst hc
    exact scanString_escape rfl tail
  · rename_i hquote
    split
    · rename_i hc
      subst hc
      exact scanString_escape rfl tail
    · rename_i hslash
      split
      · rename_i hc
        subst hc
        exact scanString_escape rfl tail
      · split
        · rename_i hc
          subst hc
          exact scanString_escape rfl tail
        · split
          · rename_i hc
            subst hc
            exact scanString_escape rfl tail
          · split
            · rename_i hc
              subst hc
              exact scanString_escape rfl tail
            · split
              · rename_i hc
                subst hc
                exact scanString_escape rfl tail
              · split
                · rename_i hc
                  rw [units, if_pos (by omega)]
                  exact scanString_plain hquote hslash hc.1 tail
                · have hbounds := toNat_bounds c
                  unfold units
                  split
                  · rename_i hn
                    simpa using scanString_unicodeEscape hn tail
                  · simp only [List.flatMap_cons, List.flatMap_nil, List.append_nil,
                      List.append_assoc]
                    rw [scanString_unicodeEscape (by omega), scanString_unicodeEscape (by omega)]
                    cases scanString tail <;> rfl

/-- A string is read up to its closing quote. -/
theorem scanString_text (s tail : List Char) :
    scanString (s.flatMap escaped ++ '"' :: tail) = some (s.flatMap units, tail) := by
  induction s with
  | nil => rfl
  | cons c s ih =>
      rw [List.flatMap_cons, List.append_assoc, scanString_escaped, ih]
      rfl

/-- Joining the code units of characters gives their code points. -/
theorem joinSurrogates_units (s : List Char) :
    joinSurrogates (s.flatMap units) = s.map Char.toNat := by
  have hsingle : ∀ (n : Nat) (us : List Nat), n < 55296 ∨ 57344 ≤ n →
      joinSurrogates (n :: us) = n :: joinSurrogates us := by
    intro n us hn
    cases us with
    | nil => rfl
    | cons m us => rw [joinSurrogates, if_neg (by omega)]
  induction s with
  | nil => rfl
  | cons c s ih =>
      have hbounds := toNat_bounds c
      rw [List.flatMap_cons, units, List.map_cons]
      split
      · rw [List.singleton_append, hsingle _ _ (by omega), ih]
      · rw [List.cons_append, List.singleton_append, joinSurrogates, if_pos (by omega), ih]
        have hpoint : 65536 + (55296 + (c.toNat - 65536) / 1024 - 55296) * 1024 +
            (56320 + (c.toNat - 65536) % 1024 - 56320) = c.toNat := by omega
        rw [hpoint]

theorem isDigit_decimal {n : Nat} {c : Char} (hc : c ∈ decimal n) : c.isDigit = true :=
  Nat.isDigit_of_mem_toDigits (by decide) (by decide) hc

/-- A written number that is not 0 does not begin with 0. -/
theorem decimal_head {n : Nat} (hn : n ≠ 0) : ∃ c rest, decimal n = c :: rest ∧ c ≠ '0' := by
  induction n using Nat.strongRecOn with
  | _ n ih =>
      unfold decimal
      rw [Nat.toDigits_eq_if (by decide)]
      split
      · rename_i hlt
        refine ⟨_, [], rfl, ?_⟩
        have hdigit : ∀ m < 10, m ≠ 0 → m.digitChar ≠ '0' := by decide
        exact hdigit n hlt hn
      · rename_i hge
        obtain ⟨c, rest, hrest, hc⟩ := ih (n / 10) (by omega) (by omega)
        exact ⟨c, rest ++ [(n % 10).digitChar], by rw [decimal] at hrest; rw [hrest]; rfl, hc⟩

/-- The digits of a number are read up to the first other character. -/
theorem scanDigits_decimal (n : Nat) {tail : List Char}
    (htail : ∀ c ∈ tail.head?, c.isDigit = false) :
    scanDigits (decimal n ++ tail) = some (decimal n, tail) := by
  have htake : (decimal n ++ tail).takeWhile Char.isDigit = decimal n := by
    rw [List.takeWhile_append_of_pos fun c hc => isDigit_decimal hc]
    cases tail with
    | nil => simp
    | cons c tail => simp [htail c rfl]
  have hdrop : (decimal n ++ tail).dropWhile Char.isDigit = tail := by
    rw [List.dropWhile_append_of_pos fun c hc => isDigit_decimal hc]
    cases tail with
    | nil => rfl
    | cons c tail => simp [htail c rfl]
  by_cases hn : n = 0
  · subst hn
    rfl
  · obtain ⟨c, rest, hdecimal, hc⟩ := decimal_head hn
    unfold scanDigits
    split
    · rename_i rest' heq
      rw [hdecimal, List.cons_append, List.cons.injEq] at heq
      exact absurd heq.1 hc
    · simp only [htake, hdrop]
      rw [if_neg (by rw [hdecimal]; nofun)]

/-- A number is read up to the first character that does not continue it. -/
theorem scanNumber_decimal (n : Nat) {c : Char} {tail : List Char} (hdigit : c.isDigit = false)
    (hdot : c ≠ '.') (he : c ≠ 'e') (hE : c ≠ 'E') :
    scanNumber (decimal n ++ c :: tail) = some (.int n, c :: tail) := by
  have hsign : scanSign (decimal n ++ c :: tail) = (false, decimal n ++ c :: tail) := by
    unfold scanSign
    split
    · rename_i rest heq
      have hne : decimal n ≠ [] := Nat.toDigits_ne_nil
      obtain ⟨d, ds, hd⟩ := List.exists_cons_of_ne_nil hne
      rw [hd, List.cons_append, List.cons.injEq] at heq
      have hminus : '-'.isDigit = true := isDigit_decimal (heq.1 ▸ hd ▸ List.mem_cons_self)
      exact absurd hminus (by decide)
    · rfl
  have hfraction : scanFraction (c :: tail) = ([], c :: tail) := by
    unfold scanFraction
    split
    · rename_i heq
      cases heq
      exact absurd rfl hdot
    · rfl
  have hexponent : scanExponent (c :: tail) = ([], c :: tail) := by
    simp [scanExponent, he, hE]
  have hdigits := @scanDigits_decimal n (c :: tail) fun d hd => by
    cases hd
    exact hdigit
  simp only [scanNumber, hsign, hdigits, Option.bind_eq_bind, Option.bind_some, hfraction,
    hexponent]
  simp [decimal, Nat.ofDigitChars_ten_toDigits]

theorem skipWs_of_head {c : Char} {rest : List Char}
    (hc : c ≠ ' ' ∧ c ≠ '\t' ∧ c ≠ '\n' ∧ c ≠ '\r') : skipWs (c :: rest) = c :: rest := by
  simp [skipWs, hc]

theorem scanValue_stringText (depth : Nat) (s tail : List Char) :
    scanValue (depth + 1) (stringText s ++ tail) = some (.str (s.map Char.toNat), tail) := by
  have hquote : ∀ rest, scanValue (depth + 1) ('"' :: rest) =
      (scanString rest).map fun p => (.str (joinSurrogates p.1), p.2) := by
    intro rest
    show (scanString rest).bind _ = _
    cases scanString rest <;> rfl
  simp [stringText, hquote, scanString_text, joinSurrogates_units]

theorem isDigit_cases {d : Char} (hd : d.isDigit = true) : ∃ n < 10, d = Char.ofNat (48 + n) := by
  have hrange : 48 ≤ d.toNat ∧ d.toNat ≤ 57 := by
    simpa [Char.isDigit, UInt32.le_iff_toNat_le] using hd
  refine ⟨d.toNat - 48, by omega, ?_⟩
  rw [Nat.add_sub_of_le hrange.1, Char.ofNat_toNat]

theorem scanValue_decimal (depth n : Nat) {c : Char} {tail : List Char}
    (hdigit : c.isDigit = false) (hdot : c ≠ '.') (he : c ≠ 'e') (hE : c ≠ 'E') :
    scanValue (depth + 1) (decimal n ++ c :: tail) = some (.int n, c :: tail) := by
  have hne : decimal n ≠ [] := Nat.toDigits_ne_nil
  obtain ⟨d, ds, hd⟩ := List.exists_cons_of_ne_nil hne
  have hd' : d.isDigit = true := isDigit_decimal (hd ▸ List.mem_cons_self)
  have hscan := @scanNumber_decimal n c tail hdigit hdot he hE
  rw [hd, List.cons_append] at hscan ⊢
  -- A text that begins with a digit is a number.
  obtain ⟨k, hk, rfl⟩ := isDigit_cases hd'
  rw [← hscan]
  interval_cases k <;> rfl

/-- An object of one more field is read when its field and the rest are read. -/
theorem scanFields_cons {depth : Nat} {name text tail tail' : List Char} {value : Value}
    {fields : List (List Nat × Value)} (htext : skipWs text = text) (htail : skipWs tail = tail)
    (hvalue : scanValue depth text = some (value, ',' :: tail))
    (hfields : scanFields depth tail = some (fields, tail')) :
    scanFields (depth + 1) (stringText name ++ ':' :: text) =
      some ((name.map Char.toNat, value) :: fields, tail') := by
  have hcolon : skipWs (':' :: text) = ':' :: text := skipWs_of_head (by decide)
  have hcomma : skipWs (',' :: tail) = ',' :: tail := skipWs_of_head (by decide)
  simp [stringText, scanFields, scanString_text, hcolon, htext, hvalue, hcomma, htail, hfields,
    joinSurrogates_units]

/-- The last field of an object. -/
theorem scanFields_last {depth : Nat} {name text tail : List Char} {value : Value}
    (htext : skipWs text = text) (hvalue : scanValue depth text = some (value, '}' :: tail)) :
    scanFields (depth + 1) (stringText name ++ ':' :: text) =
      some ([(name.map Char.toNat, value)], tail) := by
  have hcolon : skipWs (':' :: text) = ':' :: text := skipWs_of_head (by decide)
  have hbrace : skipWs ('}' :: tail) = '}' :: tail := skipWs_of_head (by decide)
  simp [stringText, scanFields, scanString_text, hcolon, htext, hvalue, hbrace, joinSurrogates_units]

/-- An object is read when its fields are read. -/
theorem scanValue_obj {depth : Nat} {name text tail : List Char}
    {fields : List (List Nat × Value)}
    (hfields : scanFields depth (stringText name ++ text) = some (fields, tail)) :
    scanValue (depth + 1) ('{' :: (stringText name ++ text)) = some (.obj fields, tail) := by
  have hquote : skipWs (stringText name ++ text) = stringText name ++ text :=
    skipWs_of_head (by decide)
  rw [stringText, List.cons_append] at hfields hquote ⊢
  show (scanFields depth (skipWs ('"' :: _))).map _ = _
  rw [hquote, hfields]
  rfl

end Foundations.JsonText
