import GpuFleet.Foundations.JsonText

/-!
# Writing JSON

`write` is `json.dumps` in its styles: with or without escapes for what lies
beyond ASCII, on one line or indented, with or without a blank after commas and
colons.

The reader reads what was written (`loads_write`).  It reads on as before when
more text follows (`scanObj_extend`), so of an object that was not written to its
end it reads nothing (`loads_torn`).

A string is written when its code points are characters, and a number with a
fraction or an exponent when it is one of the texts the reader takes for one.
The bounds Python sets to the digits of a number and to the depth of a value are
left out.
-/

namespace Foundations.JsonText

/-! ## The writer -/

/-- A style of writing. -/
structure Style where
  /-- `ensure_ascii` -/
  ensureAscii : Bool := true
  /-- The blanks after a comma. -/
  itemGap : Nat := 1
  /-- The blanks after a colon. -/
  keyGap : Nat := 1
  /-- `indent` -/
  indent : Option Nat := none

/-- A character in a string that keeps what lies beyond ASCII. -/
def escapedRaw (c : Char) : List Char :=
  if c = '"' then ['\\', '"']
  else if c = '\\' then ['\\', '\\']
  else if c = '\n' then ['\\', 'n']
  else if c = '\r' then ['\\', 'r']
  else if c = '\t' then ['\\', 't']
  else if c = '\x0c' then ['\\', 'f']
  else if c = '\x08' then ['\\', 'b']
  else if 32 ≤ c.toNat then [c]
  else unicodeEscape c.toNat

/-- A whole number. -/
def intText (n : Int) : List Char := if n < 0 then '-' :: decimal n.natAbs else decimal n.natAbs

namespace Style

variable (s : Style)

/-- A string of code points. -/
def string (us : List Nat) : List Char :=
  '"' :: ((us.map Char.ofNat).flatMap (if s.ensureAscii then escaped else escapedRaw) ++ ['"'])

/-- The line break before an item at a level. -/
def newline (level : Nat) : List Char :=
  match s.indent with
  | none => []
  | some n => '\n' :: List.replicate (n * level) ' '

/-- What stands before an item that is not the first. -/
def comma (level : Nat) : List Char := ',' :: (List.replicate s.itemGap ' ' ++ s.newline level)

/-- What stands between the name and the value of a field. -/
def colon : List Char := ':' :: List.replicate s.keyGap ' '

mutual

/-- A value at a level. -/
def write (level : Nat) : Value → List Char
  | .null => ['n', 'u', 'l', 'l']
  | .bool true => ['t', 'r', 'u', 'e']
  | .bool false => ['f', 'a', 'l', 's', 'e']
  | .int n => intText n
  | .float literal => literal
  | .str us => s.string us
  | .arr [] => ['[', ']']
  | .arr (v :: vs) =>
      '[' :: (s.newline (level + 1) ++ (write (level + 1) v ++ (writeItems (level + 1) vs ++
        (s.newline level ++ [']']))))
  | .obj [] => ['{', '}']
  | .obj ((name, v) :: fields) =>
      '{' :: (s.newline (level + 1) ++ (s.string name ++ (s.colon ++ (write (level + 1) v ++
        (writeFields (level + 1) fields ++ (s.newline level ++ ['}']))))))

/-- The items after the first. -/
def writeItems (level : Nat) : List Value → List Char
  | [] => []
  | v :: vs => s.comma level ++ (write level v ++ writeItems level vs)

/-- The fields after the first. -/
def writeFields (level : Nat) : List (List Nat × Value) → List Char
  | [] => []
  | (name, v) :: fields =>
      s.comma level ++ (s.string name ++ (s.colon ++ (write level v ++ writeFields level fields)))

end

end Style

/-- `json.dumps` -/
def dumps (s : Style) (v : Value) : List Char := s.write 0 v

example : String.ofList
    (dumps { itemGap := 0, indent := some 2 } (.obj [([97], .arr [.int (-1), .null])])) =
      "\x7b\n  \"a\": [\n    -1,\n    null\n  ]\n\x7d" := by
  decide +kernel

/-! ## Reading on -/

section Extend

variable {p : Char → Bool} {text text' tail rest more : List Char}

/-- The text does not begin with a character of the kind. -/
def Ends (p : Char → Bool) (text : List Char) : Prop := ∀ c ∈ text.head?, p c = false

/-- A character that may go on with a number. -/
def continues (c : Char) : Bool := c.isDigit || c == '.' || c == 'e' || c == 'E'

theorem Ends.mono {q : Char → Bool} (h : Ends q text) (hpq : ∀ c, p c = true → q c = true) :
    Ends p text := by
  intro c hc
  have hq := h c hc
  cases hp : p c with
  | false => rfl
  | true => simp [hpq c hp] at hq

theorem takeWhile_extend (h : Ends p (text.dropWhile p ++ more)) :
    (text ++ more).takeWhile p = text.takeWhile p := by
  induction text with
  | nil =>
      cases more with
      | nil => rfl
      | cons c more => simp [h c rfl]
  | cons c text ih =>
      cases hc : p c with
      | true => simp [hc, ih (by simpa [hc] using h)]
      | false => simp [hc]

theorem dropWhile_extend (h : Ends p (text.dropWhile p ++ more)) :
    (text ++ more).dropWhile p = text.dropWhile p ++ more := by
  induction text with
  | nil =>
      cases more with
      | nil => rfl
      | cons c more => simp [h c rfl]
  | cons c text ih =>
      cases hc : p c with
      | true => simp [hc, ih (by simpa [hc] using h)]
      | false => simp [hc]

/-- White space is passed over up to the same character. -/
theorem skipWs_extend {c : Char} (h : skipWs text = c :: rest) :
    skipWs (text ++ more) = c :: (rest ++ more) := by
  unfold skipWs at h ⊢
  rw [dropWhile_extend, h, List.cons_append]
  rw [h]
  have hc := List.head?_dropWhile_not (fun c => decide (c = ' ' ∨ c = '\t' ∨ c = '\n' ∨ c = '\r')) text
  rw [h] at hc
  simpa [Ends] using hc

theorem scanString_extend {us : List Nat} (h : scanString text = some (us, rest)) :
    scanString (text ++ more) = some (us, rest ++ more) := by
  induction text using scanString.induct generalizing us rest with
  | case1 => cases h
  | case2 a b c d text ih =>
      simp only [scanString, Option.bind_eq_bind, Option.bind_eq_some_iff] at h
      obtain ⟨n, hn, ⟨us', rest'⟩, hscan, heq⟩ := h
      cases heq
      simp [scanString, hn, ih hscan]
  | case3 e text hne ih =>
      rw [scanString] at h
      simp only [Option.bind_eq_bind, Option.bind_eq_some_iff] at h
      obtain ⟨n, hn, ⟨us', rest'⟩, hscan, heq⟩ := h
      cases heq
      rw [List.cons_append, List.cons_append, scanString_escape hn, ih hscan]
      · rfl
      · exact hne
  | case4 text hlong hshort =>
      simp [scanString] at h
      simp [scanString, h]
  | case5 c text hlong hshort hquote hbad =>
      rw [scanString, if_neg hquote, if_pos hbad] at h
      · cases h
      · exact hlong
      · exact hshort
  | case6 c text hlong hshort hquote hplain ih =>
      rw [not_or, Nat.not_lt] at hplain
      rw [scanString_plain hquote hplain.1 hplain.2, prepend, Option.map_eq_some_iff] at h
      obtain ⟨⟨us', rest'⟩, hscan, heq⟩ := h
      cases heq
      rw [List.cons_append, scanString_plain hquote hplain.1 hplain.2, ih hscan]
      rfl

theorem scanDigits_extend {ds : List Char} (h : scanDigits text = some (ds, rest))
    (hends : Ends Char.isDigit (rest ++ more)) :
    scanDigits (text ++ more) = some (ds, rest ++ more) := by
  unfold scanDigits at h
  split at h
  · cases h
    rfl
  · rename_i hzero
    dsimp only at h
    split at h
    · cases h
    · rename_i hds
      cases h
      unfold scanDigits
      split
      · rename_i heq
        cases text with
        | nil => simp at hds
        | cons c text =>
            cases heq
            exact absurd rfl (hzero _)
      · rw [takeWhile_extend hends, if_neg hds, dropWhile_extend hends]

theorem scanFraction_of_ne (h : Ends (· == '.') text) : scanFraction text = ([], text) := by
  unfold scanFraction
  split
  · exact absurd (h '.' rfl) (by decide)
  · rfl

theorem scanFraction_extend
    (hends : Ends (fun c => c.isDigit || c == '.') ((scanFraction text).2 ++ more)) :
    scanFraction (text ++ more) =
      ((scanFraction text).1, (scanFraction text).2 ++ more) := by
  cases text with
  | nil => exact scanFraction_of_ne (hends.mono (by simp))
  | cons c text =>
      by_cases hc : c = '.'
      · subst hc
        simp only [scanFraction, List.cons_append] at hends ⊢
        split at hends
        · exact absurd (hends '.' rfl) (by decide)
        · rename_i hds
          have hdigits : Ends Char.isDigit (text.dropWhile Char.isDigit ++ more) :=
            hends.mono (by simp +contextual)
          rw [takeWhile_extend hdigits, dropWhile_extend hdigits, if_neg hds, if_neg hds]
      · have hne : Ends (· == '.') (c :: text) := by simpa [Ends] using hc
        rw [scanFraction_of_ne hne, List.cons_append]
        exact scanFraction_of_ne (by simpa [Ends] using hc)

/-- The sign of an exponent, and what follows it. -/
def exponentSign : List Char → List Char × List Char
  | '+' :: after => (['+'], after)
  | '-' :: after => (['-'], after)
  | rest => ([], rest)

theorem scanExponent_cons (e : Char) (rest : List Char) :
    scanExponent (e :: rest) =
      if (e = 'e' ∨ e = 'E') ∧ (exponentSign rest).2.takeWhile Char.isDigit ≠ [] then
        (e :: (exponentSign rest).1 ++ (exponentSign rest).2.takeWhile Char.isDigit,
          (exponentSign rest).2.dropWhile Char.isDigit)
      else ([], e :: rest) := by
  cases rest with
  | nil => rfl
  | cons c rest =>
      by_cases hplus : c = '+'
      · subst hplus
        rfl
      · by_cases hminus : c = '-'
        · subst hminus
          rfl
        · simp [scanExponent, exponentSign, hplus, hminus]

theorem exponentSign_extend (h : text ≠ []) :
    exponentSign (text ++ more) = ((exponentSign text).1, (exponentSign text).2 ++ more) := by
  cases text with
  | nil => exact absurd rfl h
  | cons c text =>
      by_cases hplus : c = '+'
      · subst hplus
        rfl
      · by_cases hminus : c = '-'
        · subst hminus
          rfl
        · simp [exponentSign, hplus, hminus]

theorem scanExponent_extend (hends : Ends continues ((scanExponent text).2 ++ more)) :
    scanExponent (text ++ more) =
      ((scanExponent text).1, (scanExponent text).2 ++ more) := by
  cases text with
  | nil =>
      cases more with
      | nil => rfl
      | cons c more =>
          have hc : continues c = false := hends c rfl
          simp only [continues, Bool.or_eq_false_iff, beq_eq_false_iff_ne] at hc
          simp [scanExponent, hc.2, hc.1.2]
  | cons e text =>
      rw [List.cons_append]
      rw [scanExponent_cons] at hends ⊢
      rw [scanExponent_cons]
      split at hends
      · rename_i he
        have hne : text ≠ [] := by
          rintro rfl
          exact he.2 rfl
        have hdigits : Ends Char.isDigit ((exponentSign text).2.dropWhile Char.isDigit ++ more) :=
          hends.mono (by simp +contextual [continues])
        rw [exponentSign_extend hne, takeWhile_extend hdigits, dropWhile_extend hdigits,
          if_pos he, if_pos he]
      · rename_i he
        have hplain : ¬ (e = 'e' ∨ e = 'E') := by
          have hc : continues e = false := hends e rfl
          simp only [continues, Bool.or_eq_false_iff, beq_eq_false_iff_ne] at hc
          simp [hc.2, hc.1.2]
        rw [if_neg he, if_neg fun h => hplain h.1]
        rfl

/-- An exponent that is read begins with its letter. -/
theorem scanExponent_rest (text : List Char) :
    (scanExponent text).2 = text ∨ text.head? = some 'e' ∨ text.head? = some 'E' := by
  cases text with
  | nil => exact Or.inl rfl
  | cons e text =>
      rw [scanExponent_cons]
      split
      · rename_i h
        simpa using Or.inr h.1
      · exact Or.inl rfl

/-- A fraction that is read begins with its dot. -/
theorem scanFraction_rest (text : List Char) :
    (scanFraction text).2 = text ∨ text.head? = some '.' := by
  unfold scanFraction
  split
  · exact Or.inr rfl
  · exact Or.inl rfl

theorem ends_of_head {c : Char} (h : text.head? = some c) (hc : p c = false) :
    Ends p (text ++ more) := by
  cases text with
  | nil => cases h
  | cons d text =>
      cases h
      simpa [Ends] using hc

/-- What a number begins with. -/
theorem scanNumber_head {v : Value} (h : scanNumber text = some (v, rest)) :
    ∃ c t, (text = c :: t ∨ text = '-' :: c :: t) ∧ c.isDigit = true := by
  have hdigits : ∀ {text ds rest}, scanDigits text = some (ds, rest) →
      ∃ c t, text = c :: t ∧ c.isDigit = true := by
    intro text ds rest h
    unfold scanDigits at h
    split at h
    · exact ⟨'0', _, rfl, rfl⟩
    · dsimp only at h
      cases text with
      | nil => simp at h
      | cons c text =>
          cases hc : c.isDigit with
          | true => exact ⟨c, text, rfl, hc⟩
          | false => simp [hc] at h
  simp only [scanNumber, Option.bind_eq_bind, Option.bind_eq_some_iff] at h
  obtain ⟨⟨ds, rest'⟩, hds, -⟩ := h
  obtain ⟨c, t, ht, hc⟩ := hdigits hds
  refine ⟨c, t, ?_, hc⟩
  unfold scanSign at ht
  split at ht
  · exact Or.inr (by rw [← ht])
  · exact Or.inl ht

/-- A text that begins as a number is read as one. -/
theorem scanValue_number {depth : Nat} {c : Char} {t : List Char}
    (h : text = c :: t ∨ text = '-' :: c :: t) (hc : c.isDigit = true) :
    scanValue (depth + 1) text = scanNumber text := by
  obtain ⟨k, hk, rfl⟩ := isDigit_cases hc
  rcases h with rfl | rfl <;> interval_cases k <;> rfl

theorem scanNumber_extend {v : Value} (h : scanNumber text = some (v, rest))
    (hends : Ends continues (rest ++ more)) :
    scanNumber (text ++ more) = some (v, rest ++ more) := by
  have hhead := scanNumber_head h
  have hsign : scanSign (text ++ more) = ((scanSign text).1, (scanSign text).2 ++ more) := by
    obtain ⟨c, t, ht, hc⟩ := hhead
    rcases ht with rfl | rfl
    · have hne : c ≠ '-' := by
        rintro rfl
        exact absurd hc (by decide)
      simp [scanSign, hne]
    · rfl
  simp only [scanNumber, Option.bind_eq_bind, Option.bind_eq_some_iff] at h
  obtain ⟨⟨ds, rest₁⟩, hds, h⟩ := h
  have hrest : rest = (scanExponent (scanFraction rest₁).2).2 := by
    dsimp only at h
    split at h <;> cases h <;> rfl
  rw [hrest] at hends
  have hfraction : Ends (fun c => c.isDigit || c == '.') ((scanFraction rest₁).2 ++ more) := by
    rcases scanExponent_rest (scanFraction rest₁).2 with heq | he | he
    · rw [heq] at hends
      exact hends.mono fun c hc => by simp [continues, hc]
    · exact ends_of_head he (by decide)
    · exact ends_of_head he (by decide)
  have hdigits : Ends Char.isDigit (rest₁ ++ more) := by
    rcases scanFraction_rest rest₁ with heq | hdot
    · rw [heq] at hfraction
      exact hfraction.mono fun c hc => by simp [hc]
    · exact ends_of_head hdot (by decide)
  simp only [scanNumber, hsign, scanDigits_extend hds hdigits, Option.bind_eq_bind,
    Option.bind_some, scanFraction_extend hfraction, scanExponent_extend hends]
  dsimp only at h
  split at h <;> cases h
  · rename_i hplain
    rw [if_pos hplain]
    rfl
  · rename_i hplain
    rw [if_neg hplain]
    rfl

end Extend

/-! ## What a value begins with -/

section Begin

variable {depth : Nat} {c : Char} {text rest : List Char}

theorem scanValue_quote (depth : Nat) (text : List Char) :
    scanValue (depth + 1) ('"' :: text) =
      (scanString text).map fun p => (.str (joinSurrogates p.1), p.2) := by
  show (scanString text).bind _ = _
  cases scanString text <;> rfl

theorem scanValue_obj_nil (h : skipWs text = '}' :: rest) :
    scanValue (depth + 1) ('{' :: text) = some (.obj [], rest) := by
  simp [scanValue, h]

theorem scanValue_obj_cons (h : skipWs text = c :: rest) (hc : c ≠ '}') :
    scanValue (depth + 1) ('{' :: text) =
      (scanFields depth (c :: rest)).map fun p => (.obj p.1, p.2) := by
  simp [scanValue, h, hc]

theorem scanValue_obj_end (h : skipWs text = []) : scanValue (depth + 1) ('{' :: text) = none := by
  cases depth <;> simp [scanValue, h, scanFields]

theorem scanValue_arr_nil (h : skipWs text = ']' :: rest) :
    scanValue (depth + 1) ('[' :: text) = some (.arr [], rest) := by
  simp [scanValue, h]

theorem scanValue_arr_cons (h : skipWs text = c :: rest) (hc : c ≠ ']') :
    scanValue (depth + 1) ('[' :: text) =
      (scanItems depth (c :: rest)).map fun p => (.arr p.1, p.2) := by
  simp [scanValue, h, hc]

theorem scanValue_arr_end (h : skipWs text = []) : scanValue (depth + 1) ('[' :: text) = none := by
  have hvalue : ∀ depth, scanValue depth [] = none := by
    intro depth
    cases depth <;> rfl
  cases depth <;> simp [scanValue, h, scanItems, hvalue]

/-- What follows an item: the bracket that closes the list, or a comma and the other items. -/
def Follows {A : Type} (close : Char) (scan : List Char → Option (List A × List Char))
    (text : List Char) (others : List A) (rest : List Char) : Prop :=
  (skipWs text = close :: rest ∧ others = []) ∨
    ∃ t, skipWs text = ',' :: t ∧ scan (skipWs t) = some (others, rest)

theorem scanItems_iff {items : List Value} :
    scanItems (depth + 1) text = some (items, rest) ↔
      ∃ v t others, scanValue depth text = some (v, t) ∧
        Follows ']' (scanItems depth) t others rest ∧ items = v :: others := by
  simp only [scanItems, Option.bind_eq_bind, Option.bind_eq_some_iff]
  constructor
  · rintro ⟨⟨v, t⟩, hv, h⟩
    dsimp only at h
    split at h
    · rename_i hskip
      cases h
      exact ⟨v, t, [], hv, Or.inl ⟨hskip, rfl⟩, rfl⟩
    · rename_i hskip
      simp only [Option.bind_eq_some_iff] at h
      obtain ⟨⟨others, rest'⟩, hothers, heq⟩ := h
      cases heq
      exact ⟨v, t, others, hv, Or.inr ⟨_, hskip, hothers⟩, rfl⟩
    · cases h
  · rintro ⟨v, t, others, hv, ⟨hskip, rfl⟩ | ⟨t', hskip, hothers⟩, rfl⟩
    · exact ⟨(v, t), hv, by simp [hskip]⟩
    · exact ⟨(v, t), hv, by simp [hskip, hothers]⟩

theorem scanFields_iff {fields : List (List Nat × Value)} :
    scanFields (depth + 1) text = some (fields, rest) ↔
      ∃ quoted us t after v t' others, text = '"' :: quoted ∧
        scanString quoted = some (us, t) ∧ skipWs t = ':' :: after ∧
        scanValue depth (skipWs after) = some (v, t') ∧
        Follows '}' (scanFields depth) t' others rest ∧
        fields = (joinSurrogates us, v) :: others := by
  constructor
  · intro h
    cases text with
    | nil => simp [scanFields] at h
    | cons c quoted =>
        by_cases hc : c = '"'
        · subst hc
          simp only [scanFields, Option.bind_eq_bind, Option.bind_eq_some_iff] at h
          obtain ⟨⟨us, t⟩, hus, h⟩ := h
          dsimp only at h
          split at h
          · rename_i hcolon
            simp only [Option.bind_eq_some_iff] at h
            obtain ⟨⟨v, t'⟩, hv, h⟩ := h
            dsimp only at h
            split at h
            · rename_i hskip
              cases h
              exact ⟨quoted, us, t, _, v, t', [], rfl, hus, hcolon, hv, Or.inl ⟨hskip, rfl⟩, rfl⟩
            · rename_i hskip
              simp only [Option.bind_eq_some_iff] at h
              obtain ⟨⟨others, rest'⟩, hothers, heq⟩ := h
              cases heq
              exact ⟨quoted, us, t, _, v, t', others, rfl, hus, hcolon, hv,
                Or.inr ⟨_, hskip, hothers⟩, rfl⟩
            · cases h
          · cases h
        · simp [scanFields, hc] at h
  · rintro ⟨quoted, us, t, after, v, t', others, rfl, hus, hcolon, hv,
      ⟨hskip, rfl⟩ | ⟨t'', hskip, hothers⟩, rfl⟩
    · simp [scanFields, hus, hcolon, hv, hskip]
    · simp [scanFields, hus, hcolon, hv, hskip, hothers]

end Begin

/-! ## A value within a longer text -/

/-- What is read within one bound is read of a longer text within another. -/
structure ReadsOn (depth depth' : Nat) : Prop where
  value : ∀ {text rest more v}, scanValue depth text = some (v, rest) →
    Ends continues (rest ++ more) → scanValue depth' (text ++ more) = some (v, rest ++ more)
  fields : ∀ {text rest more fields}, scanFields depth text = some (fields, rest) →
    scanFields depth' (text ++ more) = some (fields, rest ++ more)
  items : ∀ {text rest more items}, scanItems depth text = some (items, rest) →
    scanItems depth' (text ++ more) = some (items, rest ++ more)

section Extend

variable {depth depth' : Nat} {text rest more : List Char}

theorem Follows.extend {A : Type} {close : Char} {others : List A}
    {scan scan' : List Char → Option (List A × List Char)}
    (hscan : ∀ {text rest others}, scan text = some (others, rest) →
      scan' (text ++ more) = some (others, rest ++ more))
    (hnil : scan [] = none) (h : Follows close scan text others rest) :
    Follows close scan' (text ++ more) others (rest ++ more) := by
  rcases h with ⟨hskip, hothers⟩ | ⟨t, hskip, hothers⟩
  · exact Or.inl ⟨skipWs_extend hskip, hothers⟩
  · refine Or.inr ⟨t ++ more, skipWs_extend hskip, ?_⟩
    cases ht : skipWs t with
    | nil => simp [ht, hnil] at hothers
    | cons c t' =>
        rw [ht] at hothers
        rw [skipWs_extend ht]
        exact hscan hothers

/-- What closes a list or goes on with it goes on with no number. -/
theorem Follows.ends {A : Type} {close : Char} {others : List A}
    {scan : List Char → Option (List A × List Char)} (h : Follows close scan text others rest)
    (hclose : continues close = false) : Ends continues (text ++ more) := by
  have hskip : ∃ c t, skipWs text = c :: t ∧ continues c = false := by
    rcases h with ⟨hskip, -⟩ | ⟨t, hskip, -⟩
    · exact ⟨close, rest, hskip, hclose⟩
    · exact ⟨',', t, hskip, by decide⟩
  obtain ⟨c, t, hskip, hc⟩ := hskip
  cases text with
  | nil => cases hskip
  | cons d text =>
      by_cases hd : d = ' ' ∨ d = '\t' ∨ d = '\n' ∨ d = '\r'
      · rcases hd with rfl | rfl | rfl | rfl <;> simp [Ends, continues]
      · simp only [not_or] at hd
        rw [skipWs_of_head hd] at hskip
        cases hskip
        simpa [Ends] using hc

theorem scanValue_nil (depth : Nat) : scanValue depth [] = none := by cases depth <;> rfl

theorem scanItems_nil (depth : Nat) : scanItems depth [] = none := by
  cases depth <;> simp [scanItems, scanValue_nil]

theorem scanFields_nil (depth : Nat) : scanFields depth [] = none := by cases depth <;> rfl

theorem ReadsOn.items_succ (h : ReadsOn depth depth') {items : List Value}
    (hscan : scanItems (depth + 1) text = some (items, rest)) :
    scanItems (depth' + 1) (text ++ more) = some (items, rest ++ more) := by
  rw [scanItems_iff] at hscan ⊢
  obtain ⟨v, t, others, hv, hfollows, rfl⟩ := hscan
  exact ⟨v, t ++ more, others, h.value hv (hfollows.ends (by decide)),
    hfollows.extend h.items (scanItems_nil _), rfl⟩

theorem ReadsOn.fields_succ (h : ReadsOn depth depth') {fields : List (List Nat × Value)}
    (hscan : scanFields (depth + 1) text = some (fields, rest)) :
    scanFields (depth' + 1) (text ++ more) = some (fields, rest ++ more) := by
  rw [scanFields_iff] at hscan ⊢
  obtain ⟨quoted, us, t, after, v, t', others, rfl, hus, hcolon, hv, hfollows, rfl⟩ := hscan
  have hvalue : scanValue depth' (skipWs (after ++ more)) = some (v, t' ++ more) := by
    cases hafter : skipWs after with
    | nil => simp [hafter, scanValue_nil] at hv
    | cons c after' =>
        rw [hafter] at hv
        rw [skipWs_extend hafter]
        exact h.value hv (hfollows.ends (by decide))
  exact ⟨quoted ++ more, us, t ++ more, after ++ more, v, t' ++ more, others, rfl,
    scanString_extend hus, skipWs_extend hcolon, hvalue,
    hfollows.extend h.fields (scanFields_nil _), rfl⟩

/-- An object is read whatever follows it. -/
theorem ReadsOn.obj_succ (h : ReadsOn depth depth') {v : Value}
    (hscan : scanValue (depth + 1) ('{' :: text) = some (v, rest)) :
    scanValue (depth' + 1) ('{' :: (text ++ more)) = some (v, rest ++ more) := by
  cases hskip : skipWs text with
  | nil => simp [scanValue_obj_end hskip] at hscan
  | cons c t =>
      by_cases hc : c = '}'
      · subst hc
        rw [scanValue_obj_nil hskip] at hscan
        cases hscan
        exact scanValue_obj_nil (skipWs_extend hskip)
      · rw [scanValue_obj_cons hskip hc, Option.map_eq_some_iff] at hscan
        obtain ⟨⟨fields, rest'⟩, hfields, heq⟩ := hscan
        cases heq
        have hmore := @ReadsOn.fields _ _ h _ _ more _ hfields
        rw [List.cons_append] at hmore
        rw [scanValue_obj_cons (skipWs_extend hskip) hc, hmore]
        rfl

theorem ReadsOn.arr_succ (h : ReadsOn depth depth') {v : Value}
    (hscan : scanValue (depth + 1) ('[' :: text) = some (v, rest)) :
    scanValue (depth' + 1) ('[' :: (text ++ more)) = some (v, rest ++ more) := by
  cases hskip : skipWs text with
  | nil => simp [scanValue_arr_end hskip] at hscan
  | cons c t =>
      by_cases hc : c = ']'
      · subst hc
        rw [scanValue_arr_nil hskip] at hscan
        cases hscan
        exact scanValue_arr_nil (skipWs_extend hskip)
      · rw [scanValue_arr_cons hskip hc, Option.map_eq_some_iff] at hscan
        obtain ⟨⟨items, rest'⟩, hitems, heq⟩ := hscan
        cases heq
        have hmore := @ReadsOn.items _ _ h _ _ more _ hitems
        rw [List.cons_append] at hmore
        rw [scanValue_arr_cons (skipWs_extend hskip) hc, hmore]
        rfl

theorem ReadsOn.value_succ (h : ReadsOn depth depth') {v : Value}
    (hscan : scanValue (depth + 1) text = some (v, rest)) (hends : Ends continues (rest ++ more)) :
    scanValue (depth' + 1) (text ++ more) = some (v, rest ++ more) := by
  have hcases := hscan
  rw [scanValue.eq_def] at hcases
  dsimp only at hcases
  split at hcases
  · rw [scanValue_quote, Option.map_eq_some_iff] at hscan
    obtain ⟨⟨us, rest'⟩, hus, heq⟩ := hscan
    cases heq
    rw [List.cons_append, scanValue_quote, scanString_extend hus]
    rfl
  · exact h.obj_succ hscan
  · exact h.arr_succ hscan
  iterate 6
    · cases hcases
      rfl
  · obtain ⟨c, t, ht, hc⟩ := scanNumber_head hcases
    rw [scanValue_number _ hc]
    · exact scanNumber_extend hcases hends
    · exact t ++ more
    · rcases ht with rfl | rfl
      · exact Or.inl rfl
      · exact Or.inr rfl

/-- The run: a larger bound reads a longer text as far. -/
theorem readsOn (h : depth ≤ depth') : ReadsOn depth depth' := by
  induction depth generalizing depth' with
  | zero =>
      constructor
      · intro text rest more v hscan
        cases hscan
      · intro text rest more fields hscan
        cases hscan
      · intro text rest more items hscan
        cases hscan
  | succ depth ih =>
      cases depth' with
      | zero => simp at h
      | succ depth' =>
          have hreads : ReadsOn depth depth' := ih (Nat.le_of_succ_le_succ h)
          exact ⟨hreads.value_succ, hreads.fields_succ, hreads.items_succ⟩

/-- An object that has been read is read alike when more text follows. -/
theorem scanObj_extend (h : depth ≤ depth') {v : Value}
    (hscan : scanValue depth ('{' :: text) = some (v, rest)) :
    scanValue depth' ('{' :: (text ++ more)) = some (v, rest ++ more) := by
  cases depth with
  | zero => cases hscan
  | succ depth =>
      cases depth' with
      | zero => simp at h
      | succ depth' => exact (readsOn (Nat.le_of_succ_le_succ h)).obj_succ hscan

end Extend

/-! ## What was written is read -/

/-- The text of a number with a fraction or an exponent, or of one that is no number. -/
def IsLiteral (literal : List Char) : Prop :=
  literal = "NaN".toList ∨ literal = "Infinity".toList ∨ literal = "-Infinity".toList ∨
    scanNumber literal = some (.float literal, [])

/-- The code points are characters: none is half of a surrogate pair. -/
def IsText (us : List Nat) : Prop := ∀ n ∈ us, n.isValidChar

/-- The values that have a text. -/
inductive Written : Value → Prop
  | null : Written .null
  | bool (b : Bool) : Written (.bool b)
  | int (n : Int) : Written (.int n)
  | float {literal : List Char} (h : IsLiteral literal) : Written (.float literal)
  | str {us : List Nat} (h : IsText us) : Written (.str us)
  | arr {items : List Value} (h : ∀ v ∈ items, Written v) : Written (.arr items)
  | obj {fields : List (List Nat × Value)} (hnames : ∀ f ∈ fields, IsText f.1)
      (h : ∀ f ∈ fields, Written f.2) : Written (.obj fields)

section Write

variable {s : Style} {level : Nat} {us : List Nat} {tail : List Char}

theorem map_ofNat_toNat (h : IsText us) : (us.map Char.ofNat).map Char.toNat = us := by
  induction us with
  | nil => rfl
  | cons n us ih =>
      have hn : (Char.ofNat n).toNat = n := by
        rw [Char.ofNat, dif_pos (h n (by simp))]
        rfl
      rw [List.map_cons, List.map_cons, hn, ih fun m hm => h m (by simp [hm])]

theorem scanString_escapedRaw (c : Char) (tail : List Char) :
    scanString (escapedRaw c ++ tail) = prepend [c.toNat] (scanString tail) := by
  have hlast : ¬ 32 ≤ c.toNat → scanString (unicodeEscape c.toNat ++ tail) =
      prepend [c.toNat] (scanString tail) := fun h => scanString_unicodeEscape (by omega) tail
  unfold escapedRaw
  split
  · rename_i hc
    subst hc
    exact scanString_escape rfl tail
  · rename_i hquote
    split
    · rename_i hc
      subst hc
      exact scanString_escape rfl tail
    · rename_i hslash
      split_ifs with hn hr ht hf hb hraw
      · subst hn
        exact scanString_escape rfl tail
      · subst hr
        exact scanString_escape rfl tail
      · subst ht
        exact scanString_escape rfl tail
      · subst hf
        exact scanString_escape rfl tail
      · subst hb
        exact scanString_escape rfl tail
      · exact scanString_plain hquote hslash hraw tail
      · exact hlast hraw

theorem scanString_raw (cs tail : List Char) :
    scanString (cs.flatMap escapedRaw ++ '"' :: tail) = some (cs.map Char.toNat, tail) := by
  induction cs with
  | nil => rfl
  | cons c cs ih =>
      rw [List.flatMap_cons, List.append_assoc, scanString_escapedRaw, ih]
      rfl

/-- The code points of characters hold no surrogate pair. -/
theorem joinSurrogates_toNat (cs : List Char) :
    joinSurrogates (cs.map Char.toNat) = cs.map Char.toNat := by
  induction cs with
  | nil => rfl
  | cons c cs ih =>
      cases cs with
      | nil => rfl
      | cons c' cs =>
          have hbounds := toNat_bounds c
          rw [List.map_cons, List.map_cons, joinSurrogates, if_neg (by omega), ← List.map_cons, ih]

/-- A string is read up to its closing quote, in either style. -/
theorem scanString_string (h : IsText us) (tail : List Char) :
    ∃ quoted units, s.string us ++ tail = '"' :: quoted ∧
      scanString quoted = some (units, tail) ∧ joinSurrogates units = us := by
  have hpoints := map_ofNat_toNat h
  cases hs : s.ensureAscii with
  | true =>
      refine ⟨(us.map Char.ofNat).flatMap escaped ++ '"' :: tail, _, ?_, scanString_text _ _, ?_⟩
      · simp [Style.string, hs]
      · rw [joinSurrogates_units, hpoints]
  | false =>
      refine ⟨(us.map Char.ofNat).flatMap escapedRaw ++ '"' :: tail, _, ?_, scanString_raw _ _, ?_⟩
      · simp [Style.string, hs]
      · rw [joinSurrogates_toNat, hpoints]

/-- A whole number is read as itself. -/
theorem scanNumber_int (n : Int) : scanNumber (intText n) = some (.int n, []) := by
  have hne : decimal n.natAbs ≠ [] := Nat.toDigits_ne_nil
  have hdigits := @scanDigits_decimal n.natAbs [] (by simp)
  rw [List.append_nil] at hdigits
  have hvalue : Nat.ofDigitChars 10 (decimal n.natAbs) 0 = n.natAbs :=
    Nat.ofDigitChars_ten_toDigits
  unfold intText
  split
  · rename_i hn
    simp [scanNumber, scanSign, hdigits, scanFraction, scanExponent, hvalue,
      -Nat.cast_natAbs]
    omega
  · rename_i hn
    have hsign : scanSign (decimal n.natAbs) = (false, decimal n.natAbs) := by
      obtain ⟨d, ds, hd⟩ := List.exists_cons_of_ne_nil hne
      have hdigit : d.isDigit = true := isDigit_decimal (hd ▸ List.mem_cons_self)
      have hminus : d ≠ '-' := by
        rintro rfl
        exact absurd hdigit (by decide)
      simp [hd, scanSign, hminus]
    simp [scanNumber, hsign, hdigits, scanFraction, scanExponent, hvalue]
    omega

/-- White space before a text is passed over. -/
theorem skipWs_blank {blank : List Char}
    (h : ∀ c ∈ blank, c = ' ' ∨ c = '\t' ∨ c = '\n' ∨ c = '\r') :
    skipWs (blank ++ tail) = skipWs tail := by
  unfold skipWs
  rw [List.dropWhile_append_of_pos]
  simpa using h

@[simp] theorem skipWs_newline : skipWs (s.newline level ++ tail) = skipWs tail := by
  apply skipWs_blank
  intro c hc
  unfold Style.newline at hc
  split at hc
  · simp at hc
  · rcases List.mem_cons.mp hc with rfl | hc
    · simp
    · simp [(List.mem_replicate.mp hc).2]

@[simp] theorem skipWs_gap (n : Nat) : skipWs (List.replicate n ' ' ++ tail) = skipWs tail := by
  apply skipWs_blank
  intro c hc
  simp [(List.mem_replicate.mp hc).2]

/-- A text that begins with neither white space nor a closing bracket. -/
def Opens (text : List Char) : Prop :=
  ∃ c t, text = c :: t ∧ (c ≠ ' ' ∧ c ≠ '\t' ∧ c ≠ '\n' ∧ c ≠ '\r') ∧ c ≠ ']' ∧ c ≠ '}'

theorem Opens.skipWs {text : List Char} (h : Opens text) : skipWs (text ++ tail) = text ++ tail := by
  obtain ⟨c, t, rfl, hc, -, -⟩ := h
  exact skipWs_of_head hc

theorem Opens.append {text : List Char} (h : Opens text) : Opens (text ++ tail) := by
  obtain ⟨c, t, rfl, hc⟩ := h
  exact ⟨c, t ++ tail, rfl, hc⟩

theorem scanValue_arr_opens {depth : Nat} {text text' : List Char} (hskip : skipWs text = text')
    (h : Opens text') : scanValue (depth + 1) ('[' :: text) =
      (scanItems depth text').map fun p => (.arr p.1, p.2) := by
  obtain ⟨c, t, rfl, -, hc, -⟩ := h
  exact scanValue_arr_cons hskip hc

theorem scanValue_obj_opens {depth : Nat} {text text' : List Char} (hskip : skipWs text = text')
    (h : Opens text') : scanValue (depth + 1) ('{' :: text) =
      (scanFields depth text').map fun p => (.obj p.1, p.2) := by
  obtain ⟨c, t, rfl, -, -, hc⟩ := h
  exact scanValue_obj_cons hskip hc

theorem opens_string : Opens (s.string us) := ⟨'"', _, rfl, by decide, by decide, by decide⟩

theorem opens_number {text rest : List Char} {v : Value} (h : scanNumber text = some (v, rest)) :
    Opens text := by
  obtain ⟨c, t, ht, hc⟩ := scanNumber_head h
  rcases ht with rfl | rfl
  · refine ⟨c, t, rfl, ⟨?_, ?_, ?_, ?_⟩, ?_, ?_⟩ <;> rintro rfl <;> exact absurd hc (by decide)
  · exact ⟨'-', c :: t, rfl, by decide, by decide, by decide⟩

theorem opens_write {v : Value} (h : Written v) : Opens (s.write level v) := by
  cases h with
  | null => exact ⟨'n', _, rfl, by decide, by decide, by decide⟩
  | bool b => cases b <;> exact ⟨_, _, rfl, by decide, by decide, by decide⟩
  | int n => exact opens_number (scanNumber_int n)
  | float hliteral =>
      rcases hliteral with rfl | rfl | rfl | hscan
      · exact ⟨'N', _, rfl, by decide, by decide, by decide⟩
      · exact ⟨'I', _, rfl, by decide, by decide, by decide⟩
      · exact ⟨'-', _, rfl, by decide, by decide, by decide⟩
      · exact opens_number hscan
  | str h => exact opens_string
  | @arr items h =>
      cases items <;> exact ⟨'[', _, rfl, by decide, by decide, by decide⟩
  | @obj fields hnames h =>
      cases fields <;> exact ⟨'{', _, rfl, by decide, by decide, by decide⟩

/-- The value is read wherever its text stands. -/
def Read (s : Style) (v : Value) : Prop :=
  ∀ level depth tail, (s.write level v).length ≤ depth → Ends continues tail →
    scanValue depth (s.write level v ++ tail) = some (v, tail)

/-- Items after a comma each are read up to the closing bracket. -/
theorem follows_commas {A : Type} {close : Char} {text : A → List Char} {others : List A}
    {scan : Nat → List Char → Option (List A × List Char)}
    (hclose : close ≠ ' ' ∧ close ≠ '\t' ∧ close ≠ '\n' ∧ close ≠ '\r')
    (hopens : ∀ a ∈ others, Opens (text a))
    (hscan : ∀ a ∈ others, ∀ depth more t, (text a).length ≤ depth →
      Follows close (scan depth) t more tail →
      scan (depth + 1) (text a ++ t) = some (a :: more, tail))
    (level' depth : Nat)
    (hdepth : (others.flatMap fun a => s.comma level ++ text a).length ≤ depth) :
    Follows close (scan depth)
      ((others.flatMap fun a => s.comma level ++ text a) ++ (s.newline level' ++ close :: tail))
      others tail := by
  induction others generalizing depth with
  | nil => exact Or.inl ⟨by simp [skipWs_of_head hclose], rfl⟩
  | cons a others ih =>
      have hcomma : 0 < (s.comma level).length := by simp [Style.comma]
      rw [List.flatMap_cons, List.length_append, List.length_append] at hdepth
      cases depth with
      | zero => omega
      | succ depth =>
          have hrest := ih (fun a ha => hopens a (by simp [ha]))
            (fun a ha => hscan a (by simp [ha])) depth (by omega)
          have hone := hscan a (by simp) depth others _ (by omega) hrest
          refine Or.inr ⟨List.replicate s.itemGap ' ' ++ (s.newline level ++ (text a ++
            ((others.flatMap fun a => s.comma level ++ text a) ++
              (s.newline level' ++ close :: tail)))), ?_, ?_⟩
          · have hskip : ∀ t, JsonText.skipWs (',' :: t) = ',' :: t :=
              fun t => skipWs_of_head (by decide)
            simp [Style.comma, hskip]
          · rw [skipWs_gap, skipWs_newline, (hopens a (by simp)).skipWs]
            exact hone

theorem writeItems_eq (items : List Value) :
    s.writeItems level items = items.flatMap fun v => s.comma level ++ s.write level v := by
  induction items with
  | nil => rfl
  | cons v items ih => simp [Style.writeItems, ih]

/-- The text of a field. -/
def Style.field (s : Style) (level : Nat) (f : List Nat × Value) : List Char :=
  s.string f.1 ++ (s.colon ++ s.write level f.2)

theorem writeFields_eq (fields : List (List Nat × Value)) :
    s.writeFields level fields = fields.flatMap fun f => s.comma level ++ s.field level f := by
  induction fields with
  | nil => rfl
  | cons f fields ih => simp [Style.writeFields, Style.field, ih]

theorem scanItems_write {v : Value} (h : Read s v) {depth : Nat} {others : List Value}
    {t : List Char} (hdepth : (s.write level v).length ≤ depth)
    (hfollows : Follows ']' (scanItems depth) t others tail) :
    scanItems (depth + 1) (s.write level v ++ t) = some (v :: others, tail) := by
  have hends : Ends continues (t ++ []) := hfollows.ends (by decide)
  rw [List.append_nil] at hends
  exact scanItems_iff.mpr ⟨v, t, others, h level depth t hdepth hends, hfollows, rfl⟩

theorem scanFields_write {f : List Nat × Value} (hname : IsText f.1) (hwritten : Written f.2)
    (h : Read s f.2) {depth : Nat} {others : List (List Nat × Value)} {t : List Char}
    (hdepth : (s.field level f).length ≤ depth)
    (hfollows : Follows '}' (scanFields depth) t others tail) :
    scanFields (depth + 1) (s.field level f ++ t) = some (f :: others, tail) := by
  have hends : Ends continues (t ++ []) := hfollows.ends (by decide)
  rw [List.append_nil] at hends
  obtain ⟨quoted, units, hquoted, hunits, hjoin⟩ :=
    scanString_string (s := s) hname (s.colon ++ (s.write level f.2 ++ t))
  have hcolon : ∀ t, skipWs (':' :: t) = ':' :: t := fun t => skipWs_of_head (by decide)
  have hvalue : (s.write level f.2).length ≤ depth := by
    simp only [Style.field, List.length_append] at hdepth
    omega
  refine scanFields_iff.mpr ⟨quoted, units, _, List.replicate s.keyGap ' ' ++
    (s.write level f.2 ++ t), f.2, t, others, ?_, hunits, ?_, ?_, hfollows, ?_⟩
  · simpa [Style.field] using hquoted
  · simp [Style.colon, hcolon]
  · rw [skipWs_gap, (opens_write hwritten).skipWs]
    exact h level depth t hvalue hends
  · rw [hjoin]

/-- A text is not empty, so the bound is not 0. -/
theorem Read.of_succ {v : Value} (hv : Written v)
    (h : ∀ level depth tail, (s.write level v).length ≤ depth + 1 → Ends continues tail →
      scanValue (depth + 1) (s.write level v ++ tail) = some (v, tail)) : Read s v := by
  intro level depth tail hdepth hends
  obtain ⟨c, t, ht, -⟩ := @opens_write s level v hv
  cases depth with
  | zero => simp [ht] at hdepth
  | succ depth => exact h level depth tail hdepth hends

theorem read_number {v : Value} (hv : Written v) {text : List Char}
    (hwrite : ∀ level, s.write level v = text) (hscan : scanNumber text = some (v, [])) :
    Read s v := by
  apply Read.of_succ hv
  intro level depth tail hdepth hends
  obtain ⟨c, t, ht, hc⟩ := scanNumber_head hscan
  rw [hwrite]
  have hnumber : scanValue (depth + 1) (text ++ tail) = scanNumber (text ++ tail) := by
    apply scanValue_number (c := c) (t := t ++ tail) _ hc
    rcases ht with rfl | rfl
    · exact Or.inl rfl
    · exact Or.inr rfl
  rw [hnumber]
  exact scanNumber_extend hscan hends

theorem read_arr {items : List Value} (hitems : ∀ v ∈ items, Written v)
    (ih : ∀ v ∈ items, Read s v) : Read s (.arr items) := by
  apply Read.of_succ (.arr hitems)
  intro level depth tail hdepth hends
  cases items with
  | nil => rfl
  | cons v items =>
      have hv := hitems v (by simp)
      have hskip : skipWs (s.newline (level + 1) ++ (s.write (level + 1) v ++
          (s.writeItems (level + 1) items ++ (s.newline level ++ ']' :: tail)))) =
            s.write (level + 1) v ++
              (s.writeItems (level + 1) items ++ (s.newline level ++ ']' :: tail)) := by
        rw [skipWs_newline, (opens_write hv).skipWs]
      simp only [Style.write, List.length_cons, List.length_append, List.length_nil] at hdepth
      cases depth with
      | zero => omega
      | succ depth =>
          have hfollows : Follows ']' (scanItems depth)
              (s.writeItems (level + 1) items ++ (s.newline level ++ ']' :: tail)) items tail := by
            rw [writeItems_eq] at hdepth ⊢
            apply follows_commas (by decide) (fun v hv => opens_write (hitems v (by simp [hv])))
            · intro v hv depth more t hlength hmore
              exact scanItems_write (ih v (by simp [hv])) hlength hmore
            · omega
          have hlength : (s.write (level + 1) v).length ≤ depth := by omega
          have hscan := scanItems_write (ih v (by simp)) hlength hfollows
          have hopen : scanValue (depth + 1 + 1) ('[' :: (s.newline (level + 1) ++
              (s.write (level + 1) v ++
                (s.writeItems (level + 1) items ++ (s.newline level ++ ']' :: tail))))) =
              some (.arr (v :: items), tail) := by
            rw [scanValue_arr_opens hskip (opens_write hv).append, hscan]
            rfl
          simpa [Style.write] using hopen

theorem read_obj {fields : List (List Nat × Value)} (hnames : ∀ f ∈ fields, IsText f.1)
    (hfields : ∀ f ∈ fields, Written f.2) (ih : ∀ f ∈ fields, Read s f.2) :
    Read s (.obj fields) := by
  apply Read.of_succ (.obj hnames hfields)
  intro level depth tail hdepth hends
  cases fields with
  | nil => rfl
  | cons f fields =>
      have hopens : ∀ level, Opens (s.field level f) := by
        intro level
        exact ⟨'"', _, rfl, by decide, by decide, by decide⟩
      have hskip : skipWs (s.newline (level + 1) ++ (s.field (level + 1) f ++
          (s.writeFields (level + 1) fields ++ (s.newline level ++ '}' :: tail)))) =
            s.field (level + 1) f ++
              (s.writeFields (level + 1) fields ++ (s.newline level ++ '}' :: tail)) := by
        rw [skipWs_newline, (hopens _).skipWs]
      simp only [Style.write, List.length_cons, List.length_append, List.length_nil] at hdepth
      cases depth with
      | zero => omega
      | succ depth =>
          have hfollows : Follows '}' (scanFields depth)
              (s.writeFields (level + 1) fields ++ (s.newline level ++ '}' :: tail))
              fields tail := by
            rw [writeFields_eq] at hdepth ⊢
            apply follows_commas (by decide)
            · intro f hf
              exact ⟨'"', _, rfl, by decide, by decide, by decide⟩
            · intro f hf depth more t hlength hmore
              exact scanFields_write (hnames f (by simp [hf])) (hfields f (by simp [hf]))
                (ih f (by simp [hf])) hlength hmore
            · omega
          have hlength : (s.field (level + 1) f).length ≤ depth := by
            simp only [Style.field, List.length_append]
            omega
          have hscan := scanFields_write (hnames f (by simp)) (hfields f (by simp))
            (ih f (by simp)) hlength hfollows
          have hopen : scanValue (depth + 1 + 1) ('{' :: (s.newline (level + 1) ++
              (s.field (level + 1) f ++
                (s.writeFields (level + 1) fields ++ (s.newline level ++ '}' :: tail))))) =
              some (.obj (f :: fields), tail) := by
            rw [scanValue_obj_opens hskip (hopens _).append, hscan]
            rfl
          simpa [Style.write, Style.field] using hopen

/-- The values of a document that has been written are read wherever it stands. -/
theorem scan_write {v : Value} (h : Written v) : Read s v := by
  induction h with
  | null =>
      apply Read.of_succ .null
      intro level depth tail hdepth hends
      rfl
  | bool b =>
      apply Read.of_succ (.bool b)
      intro level depth tail hdepth hends
      cases b <;> rfl
  | int n => exact read_number (.int n) (fun _ => rfl) (scanNumber_int n)
  | float hliteral =>
      rcases hliteral with rfl | rfl | rfl | hscan
      iterate 3
        · apply Read.of_succ (.float (by simp [IsLiteral]))
          intro level depth tail hdepth hends
          rfl
      · exact read_number (.float (Or.inr (Or.inr (Or.inr hscan)))) (fun _ => rfl) hscan
  | @str us h =>
      apply Read.of_succ (.str h)
      intro level depth tail hdepth hends
      obtain ⟨quoted, units, hquoted, hunits, hjoin⟩ := scanString_string (s := s) h tail
      rw [Style.write, hquoted, scanValue_quote, hunits, Option.map_some, hjoin]
  | @arr items h ih => exact read_arr h ih
  | @obj fields hnames h ih => exact read_obj hnames h ih

/-- What was written is read. -/
theorem loads_write {v : Value} (h : Written v) : loads (dumps s v) = some v := by
  have hscan := @scan_write s v h 0 ((dumps s v).length + 1) [] (Nat.le_succ _) (by simp [Ends])
  rw [List.append_nil, ← dumps] at hscan
  have hskip : skipWs (dumps s v) = dumps s v := by
    simpa [dumps] using @Opens.skipWs [] _ (@opens_write s 0 v h)
  rw [loads, hskip, hscan]
  simp [skipWs]

/-- The text of an object begins with its brace. -/
theorem dumps_obj (fields : List (List Nat × Value)) : ∃ t, dumps s (.obj fields) = '{' :: t := by
  cases fields <;> exact ⟨_, rfl⟩

/-- Of an object whose text stops before its end nothing is read. -/
theorem loads_torn {fields : List (List Nat × Value)} (h : Written (.obj fields))
    {front back : List Char} (htext : dumps s (.obj fields) = front ++ back) (hback : back ≠ []) :
    loads front = none := by
  cases front with
  | nil => rfl
  | cons c front =>
      obtain ⟨t, ht⟩ := @dumps_obj s fields
      rw [ht, List.cons_append] at htext
      cases htext
      have hskip : skipWs ('{' :: front) = '{' :: front := skipWs_of_head (by decide)
      cases hscan : scanValue (('{' :: front).length + 1) ('{' :: front) with
      | none => rw [loads, hskip, hscan]
      | some p =>
          obtain ⟨v, rest⟩ := p
          have hwhole := @scan_write s _ h 0 ((dumps s (.obj fields)).length + 1) []
            (Nat.le_succ _) (by simp [Ends])
          have hlength : ('{' :: front).length + 1 ≤ (dumps s (.obj fields)).length + 1 := by
            simp [ht]
          have hmore := @scanObj_extend _ _ _ _ back hlength _ hscan
          -- The whole text is read to its end, so the front leaves what follows it.
          rw [← ht] at hmore
          rw [List.append_nil, ← dumps, hmore] at hwhole
          simp only [Option.some.injEq, Prod.mk.injEq, List.append_eq_nil_iff] at hwhole
          exact absurd hwhole.2.2 hback

end Write

/-! ## The characters of a text -/

section Plain

variable {s : Style} {level : Nat} {us : List Nat}

theorem hexDigit_ne_return (n : Nat) : hexDigit n ≠ '\r' := by
  have hsmall : ∀ m < 16, hexDigit m ≠ '\r' := by decide
  cases Nat.lt_or_ge n 16 with
  | inl h => exact hsmall n h
  | inr h =>
      rw [hexDigit, List.getD_eq_getElem?_getD, List.getElem?_eq_none (by simpa using h)]
      decide

theorem unicodeEscape_plain (n : Nat) : '\r' ∉ unicodeEscape n := by
  simp [unicodeEscape, (hexDigit_ne_return _).symm]

theorem escaped_plain (c : Char) : '\r' ∉ escaped c := by
  unfold escaped
  split_ifs with h1 h2 h3 h4 h5 h6 h7 h8
  iterate 7 simp
  · rintro hc
    simp only [List.mem_singleton] at hc
    exact h4 hc.symm
  · simp only [List.mem_flatMap, not_exists, not_and]
    exact fun n _ => unicodeEscape_plain n

theorem escapedRaw_plain (c : Char) : '\r' ∉ escapedRaw c := by
  unfold escapedRaw
  split_ifs with h1 h2 h3 h4 h5 h6 h7 h8
  iterate 7 simp
  · rintro hc
    simp only [List.mem_singleton] at hc
    exact h4 hc.symm
  · exact unicodeEscape_plain _

theorem string_plain : '\r' ∉ s.string us := by
  unfold Style.string
  cases s.ensureAscii <;> simp [escaped_plain, escapedRaw_plain]

theorem newline_plain : '\r' ∉ s.newline level := by
  unfold Style.newline
  split <;> simp

theorem comma_plain : '\r' ∉ s.comma level := by
  simp [Style.comma, newline_plain]

theorem isDigit_ne_return {c : Char} (h : c.isDigit = true) : c ≠ '\r' := by
  rintro rfl
  exact absurd h (by decide)

theorem decimal_plain (n : Nat) : '\r' ∉ decimal n :=
  fun h => isDigit_ne_return (isDigit_decimal h) rfl

theorem takeWhile_plain (text : List Char) : '\r' ∉ text.takeWhile Char.isDigit :=
  fun h => isDigit_ne_return (List.all_eq_true.mp List.all_takeWhile _ h) rfl

/-- The text of a number holds digits, signs, a dot and an exponent's letter. -/
theorem literal_plain {text rest literal : List Char}
    (h : scanNumber text = some (.float literal, rest)) : '\r' ∉ literal := by
  simp only [scanNumber, Option.bind_eq_bind, Option.bind_eq_some_iff] at h
  obtain ⟨⟨ds, rest'⟩, hds, h⟩ := h
  have hdigits : '\r' ∉ ds := by
    unfold scanDigits at hds
    split at hds
    · cases hds
      simp
    · dsimp only at hds
      split at hds <;> cases hds
      exact takeWhile_plain _
  have hfraction : '\r' ∉ (scanFraction rest').1 := by
    unfold scanFraction
    split
    · dsimp only
      split
      · simp
      · simpa using takeWhile_plain _
    · simp
  have hexponent : '\r' ∉ (scanExponent (scanFraction rest').2).1 := by
    cases (scanFraction rest').2 with
    | nil => simp [scanExponent]
    | cons e text =>
        rw [scanExponent_cons]
        split
        · rename_i he
          have hletter : '\r' ≠ e := by
            rintro rfl
            exact absurd he.1 (by decide)
          have hsign : '\r' ∉ (exponentSign text).1 := by
            unfold exponentSign
            split <;> simp
          simp only [List.cons_append, List.mem_cons, List.mem_append, not_or]
          exact ⟨hletter, hsign, takeWhile_plain _⟩
        · simp
  dsimp only at h
  split at h <;> cases h
  simp only [List.mem_append, not_or]
  exact ⟨⟨⟨by split <;> simp, hdigits⟩, hfraction⟩, hexponent⟩

/-- No text holds a carriage return. -/
theorem write_plain {v : Value} (h : Written v) : ∀ level, '\r' ∉ s.write level v := by
  induction h with
  | null => simp [Style.write]
  | bool b => cases b <;> simp [Style.write]
  | int n =>
      intro level
      simp only [Style.write, intText]
      split <;> simp [decimal_plain]
  | float hliteral =>
      intro level
      rcases hliteral with rfl | rfl | rfl | hscan
      iterate 3 simp [Style.write]
      exact literal_plain hscan
  | str h => exact fun level => string_plain
  | @arr items h ih =>
      intro level
      cases items with
      | nil => simp [Style.write]
      | cons v items =>
          have hitems : '\r' ∉ s.writeItems (level + 1) items := by
            rw [writeItems_eq]
            simp only [List.mem_flatMap, List.mem_append, not_exists, not_and, not_or]
            exact fun v hv => ⟨comma_plain, ih v (by simp [hv]) _⟩
          simp [Style.write, newline_plain, ih v (by simp), hitems]
  | @obj fields hnames h ih =>
      intro level
      cases fields with
      | nil => simp [Style.write]
      | cons f fields =>
          have hfields : '\r' ∉ s.writeFields (level + 1) fields := by
            rw [writeFields_eq]
            simp only [List.mem_flatMap, List.mem_append, not_exists, not_and, not_or, Style.field]
            exact fun f hf => ⟨comma_plain, string_plain, by simp [Style.colon],
              ih f (by simp [hf]) _⟩
          simp [Style.write, newline_plain, string_plain, Style.colon, ih f (by simp), hfields]

/-- The text of an object ends with its brace. -/
theorem dumps_obj_last (fields : List (List Nat × Value)) :
    ∃ t, dumps s (.obj fields) = t ++ ['}'] := by
  cases fields with
  | nil => exact ⟨['{'], rfl⟩
  | cons f fields =>
      refine ⟨'{' :: (s.newline 1 ++ (s.string f.1 ++ (s.colon ++ (s.write 1 f.2 ++
        (s.writeFields 1 fields ++ s.newline 0))))), ?_⟩
      simp [dumps, Style.write]

end Plain

end Foundations.JsonText
