import GpuFleet.Foundations.IsoFormat

/-!
# Bounds among time stamps

A column of texts that `isoformat` wrote is compared with a text from elsewhere,
of any ISO 8601 form.  The comparison is that of the instants if and only if the
text stands between the right two texts of whole seconds (`since_agrees_iff`,
`until_agrees_iff`).

A text with milliseconds and a `Z`, as JavaScript writes it, does so as a lower
bound unless its milliseconds are zero (`sinceFits_toISOString`).
-/

namespace Foundations.Iso

open Calendar

section Bounds

variable {bound : String} {instant : Int}

/-- How many whole seconds lie before the instant. -/
def secondsBefore (instant : Int) : Nat := min ((instant + 999999) / 1000000).toNat maxSeconds

/-- How many whole seconds lie at the instant or before. -/
def secondsUpTo (instant : Int) : Nat := min (instant / 1000000 + 1).toNat maxSeconds

/-- As a lower bound, the text stands where its instant does. -/
structure SinceFits (bound : String) (instant : Int) : Prop where
  before : ∀ second, second + 1 = secondsBefore instant → isoformat second < bound
  after : secondsBefore instant < maxSeconds → bound ≤ isoformat (secondsBefore instant)

/-- As an upper bound, the text stands where its instant does. -/
structure UntilFits (bound : String) (instant : Int) : Prop where
  before : ∀ second, second + 1 = secondsUpTo instant → isoformat second ≤ bound
  after : secondsUpTo instant < maxSeconds → bound < isoformat (secondsUpTo instant)

theorem secondsBefore_le {second : Nat} (h : second < maxSeconds) :
    secondsBefore instant ≤ second ↔ instant ≤ (second : Int) * 1000000 := by
  unfold secondsBefore
  omega

theorem lt_secondsUpTo {second : Nat} (h : second < maxSeconds) :
    second < secondsUpTo instant ↔ (second : Int) * 1000000 ≤ instant := by
  unfold secondsUpTo
  omega

theorem isoformat_le {a b : Nat} (hab : a ≤ b) (hb : b < maxSeconds) : isoformat a ≤ isoformat b := by
  rcases Nat.lt_or_eq_of_le hab with hlt | rfl
  · exact ((isoformat_lt_iff (Nat.lt_trans hlt hb) hb).mpr hlt).le
  · exact le_rfl

/-- A lower bound agrees with all texts of whole seconds if and only if it fits. -/
theorem since_agrees_iff :
    (∀ second < maxSeconds, (bound ≤ isoformat second ↔ instant ≤ (second : Int) * 1000000)) ↔
      SinceFits bound instant := by
  constructor
  · intro h
    constructor
    · intro second hsecond
      have hlt : second < maxSeconds := by
        unfold secondsBefore at hsecond
        omega
      rw [← not_le, h second hlt, ← secondsBefore_le hlt]
      omega
    · intro hlt
      rw [h _ hlt, ← secondsBefore_le hlt]
  · intro h second hsecond
    rw [← secondsBefore_le hsecond]
    by_cases hle : secondsBefore instant ≤ second
    · refine iff_of_true ?_ hle
      exact (h.after (Nat.lt_of_le_of_lt hle hsecond)).trans (isoformat_le hle hsecond)
    · refine iff_of_false ?_ hle
      have hlast := h.before (secondsBefore instant - 1) (by omega)
      have hmax : secondsBefore instant ≤ maxSeconds := Nat.min_le_right ..
      rw [not_le]
      exact lt_of_le_of_lt (isoformat_le (by omega) (by omega)) hlast

/-- An upper bound agrees with all texts of whole seconds if and only if it fits. -/
theorem until_agrees_iff :
    (∀ second < maxSeconds, (isoformat second ≤ bound ↔ (second : Int) * 1000000 ≤ instant)) ↔
      UntilFits bound instant := by
  have hmax : secondsUpTo instant ≤ maxSeconds := Nat.min_le_right ..
  constructor
  · intro h
    constructor
    · intro second hsecond
      have hlt : second < maxSeconds := by omega
      rw [h second hlt, ← lt_secondsUpTo hlt]
      omega
    · intro hlt
      rw [← not_le, h _ hlt, ← lt_secondsUpTo hlt]
      omega
  · intro h second hsecond
    rw [← lt_secondsUpTo hsecond]
    by_cases hlt : second < secondsUpTo instant
    · refine iff_of_true ?_ hlt
      exact (isoformat_le (by omega) (by omega)).trans
        (h.before (secondsUpTo instant - 1) (by omega))
    · refine iff_of_false ?_ hlt
      rw [not_le]
      exact lt_of_lt_of_le (h.after (by omega)) (isoformat_le (by omega) hsecond)

end Bounds

/-- Two windows over a linear order are the same if and only if their ends are, unless both are
empty. -/
theorem windows_agree_iff {α : Type} [LinearOrder α] {lower lower' upper upper' : α → Prop}
    (hlower : Monotone lower) (hlower' : Monotone lower') (hupper : Antitone upper)
    (hupper' : Antitone upper') :
    (∀ a, lower a ∧ upper a ↔ lower' a ∧ upper' a) ↔
      ((∀ a, lower a ↔ lower' a) ∧ ∀ a, upper a ↔ upper' a) ∨
        ∀ a, ¬(lower a ∧ upper a) ∧ ¬(lower' a ∧ upper' a) := by
  constructor
  · intro h
    by_cases hex : ∃ a, lower a ∧ upper a
    · obtain ⟨a, hl, hu⟩ := hex
      obtain ⟨hl', hu'⟩ := (h a).mp ⟨hl, hu⟩
      -- below a common point only the lower ends decide, above it only the upper ones
      refine Or.inl ⟨fun b => ?_, fun b => ?_⟩ <;> rcases le_total b a with hba | hab
      · simpa [hupper hba hu, hupper' hba hu'] using h b
      · exact iff_of_true (hlower hab hl) (hlower' hab hl')
      · exact iff_of_true (hupper hba hu) (hupper' hba hu')
      · simpa [hlower hab hl, hlower' hab hl'] using h b
    · rw [not_exists] at hex
      exact Or.inr fun a => ⟨hex a, fun h' => hex a ((h a).mpr h')⟩
  · rintro (⟨hl, hu⟩ | h) a
    · rw [hl a, hu a]
    · exact iff_of_false (h a).1 (h a).2

/-! ## Milliseconds -/

/-- `Date.prototype.toISOString` of the years 1 to 9999. -/
def toISOString (millis : Nat) : String :=
  String.ofList (secondChars (millis / 1000) ++ '.' :: (pad 3 (millis % 1000) ++ ['Z']))

/-- Lists of one length that differ compare alike whatever follows. -/
theorem append_lt_append {l₁ l₂ x : List Char} (hlength : l₁.length = l₂.length)
    (h : l₁ ++ x < l₂ ++ x) (r s : List Char) : l₁ ++ r < l₂ ++ s := by
  induction l₁ generalizing l₂ with
  | nil =>
      obtain rfl := List.length_eq_zero_iff.mp hlength.symm
      exact absurd h (List.lt_irrefl _)
  | cons a l₁ ih =>
      cases l₂ with
      | nil => cases hlength
      | cons b l₂ =>
          rw [List.cons_append, List.cons_append, List.cons_lt_cons_iff] at h ⊢
          rcases h with hlt | ⟨heq, hlt⟩
          · exact Or.inl hlt
          · exact Or.inr ⟨heq, ih (Nat.succ.inj hlength) hlt⟩

theorem length_secondChars (sec : Nat) : (secondChars sec).length = 19 := by
  simp [secondChars, length_pad]

/-- A later second has a greater text, whatever follows. -/
theorem secondChars_lt {a b : Nat} (hab : a < b) (hb : b < maxSeconds) (r s : List Char) :
    secondChars a ++ r < secondChars b ++ s := by
  have hlt := isoChars_lt hab hb
  rw [isoChars_eq, isoChars_eq] at hlt
  exact append_lt_append (by rw [length_secondChars, length_secondChars]) hlt r s

/-- A point sorts after a plus. -/
theorem isoformat_lt_toISOString (millis : Nat) :
    isoformat (millis / 1000) < toISOString millis := by
  rw [isoformat, toISOString, String.lt_iff_toList_lt, String.toList_ofList, String.toList_ofList,
    isoChars_eq]
  exact List.append_left_lt (List.cons_lt_cons_iff.mpr (Or.inl (by decide)))

theorem toISOString_lt_isoformat {millis : Nat} (h : millis / 1000 + 1 < maxSeconds) :
    toISOString millis < isoformat (millis / 1000 + 1) := by
  rw [isoformat, toISOString, String.lt_iff_toList_lt, String.toList_ofList, String.toList_ofList,
    isoChars_eq]
  exact secondChars_lt (Nat.lt_succ_self _) h _ _

/-- A text with milliseconds fits as a lower bound unless they are zero. -/
theorem sinceFits_toISOString {millis : Nat} (h : millis < maxSeconds * 1000) :
    SinceFits (toISOString millis) ((millis * 1000 : Nat) : Int) ↔ millis % 1000 ≠ 0 := by
  constructor
  · intro hfits hzero
    have hbefore : secondsBefore ((millis * 1000 : Nat) : Int) = millis / 1000 := by
      unfold secondsBefore
      omega
    have hle := hfits.after (by omega)
    rw [hbefore] at hle
    exact absurd hle (not_le.mpr (isoformat_lt_toISOString millis))
  · intro hmillis
    have hbefore : secondsBefore ((millis * 1000 : Nat) : Int) = millis / 1000 + 1 := by
      unfold secondsBefore
      omega
    constructor
    · intro second hsecond
      obtain rfl : second = millis / 1000 := by omega
      exact isoformat_lt_toISOString millis
    · intro hlt
      rw [hbefore] at hlt ⊢
      exact (toISOString_lt_isoformat hlt).le

/-- It always fits as an upper bound. -/
theorem untilFits_toISOString {millis : Nat} (h : millis < maxSeconds * 1000) :
    UntilFits (toISOString millis) ((millis * 1000 : Nat) : Int) := by
  have hupTo : secondsUpTo ((millis * 1000 : Nat) : Int) = millis / 1000 + 1 := by
    unfold secondsUpTo
    omega
  constructor
  · intro second hsecond
    obtain rfl : second = millis / 1000 := by omega
    exact (isoformat_lt_toISOString millis).le
  · intro hlt
    rw [hupTo] at hlt ⊢
    exact toISOString_lt_isoformat hlt

/-! ## Reading milliseconds -/

theorem pad_three (n : Nat) (h : n < 10 ^ 3) : ∃ a b c, pad 3 n = [a, b, c] ∧
    (∀ d ∈ [a, b, c], d ≠ '-' ∧ d ≠ '+' ∧ d ≠ 'Z' ∧ d ≠ 'W' ∧ d ≠ ':') ∧
    ∀ r, takeNum 3 (a :: b :: c :: r) = some (n, r) := by
  refine ⟨_, _, _, rfl, ?_, fun r => takeNum_pad h r⟩
  intro c hc
  obtain ⟨d, hd, rfl⟩ := mem_pad h hc
  exact (digit_facts d hd).2.2

/-- A time of day with milliseconds and a `Z` is read as a UTC time. -/
theorem parseTime_millis {hour minute second millis : Nat} (hh : hour < 10 ^ 2)
    (hm : minute < 10 ^ 2) (hs : second < 10 ^ 2) (hmillis : millis < 10 ^ 3) :
    parseTime (pad 2 hour ++ ':' :: (pad 2 minute ++ ':' :: (pad 2 second ++
      '.' :: (pad 3 millis ++ ['Z'])))) =
        some (⟨[hour, minute, second], millis * 1000, [], true⟩, some 0) := by
  obtain ⟨h₁, h₂, eh, hfh, hth⟩ := pad_two hour hh
  obtain ⟨n₁, n₂, en, hfn, htn⟩ := pad_two minute hm
  obtain ⟨s₁, s₂, es, hfs, hts⟩ := pad_two second hs
  obtain ⟨m₁, m₂, m₃, em, hfm, htm⟩ := pad_three millis hmillis
  simp only [eh, en, es, em, List.cons_append, List.nil_append]
  have hfraction : parseFraction 'Z' [m₁, m₂, m₃] = some ⟨[], millis * 1000, [], true⟩ := by
    simp [parseFraction, htm, nul]
  have hclock : parseClock 'Z' [h₁, h₂, ':', n₁, n₂, ':', s₁, s₂, '.', m₁, m₂, m₃] =
      some ⟨[hour, minute, second], millis * 1000, [], true⟩ := by
    simp [parseClock, parseParts, hth, htn, hts, continuation, hfraction, ClockText.behind]
  have hsigns : ∀ c ∈ [h₁, h₂, ':', n₁, n₂, ':', s₁, s₂, '.', m₁, m₂, m₃], isSign c = false := by
    simp only [List.mem_cons, List.not_mem_nil, or_false, forall_eq_or_imp, forall_eq] at hfh hfn hfs
    simp only [List.mem_cons, List.not_mem_nil, or_false, forall_eq_or_imp, forall_eq] at hfm
    simp [isSign, hfh, hfn, hfs, hfm]
  have hzone : isSign 'Z' = true := rfl
  obtain ⟨htake, hdrop⟩ := takeWhile_clock [] hsigns hzone
  simp only [List.cons_append, List.nil_append] at htake hdrop
  rw [parseTime]
  simp [htake, hdrop, hclock, parseOffset]

/-- A text with milliseconds is read back. -/
theorem fromisoformat_toISOString {millis : Nat} (h : millis < maxSeconds * 1000) :
    fromisoformat (toISOString millis) = some ⟨millis * 1000, some 0⟩ := by
  have hsec : millis / 1000 < maxSeconds := by omega
  have hmillis : millis % 1000 < 10 ^ 3 := by omega
  have htime := @parseTime_millis (millis / 1000 % 86400 / 3600)
    (millis / 1000 % 86400 % 3600 / 60) (millis / 1000 % 86400 % 60) (millis % 1000)
    (by omega) (by omega) (by omega) hmillis
  have hsum : millis / 1000 * 1000000 + millis % 1000 * 1000 = millis * 1000 := by omega
  rw [toISOString, fromisoformat_secondChars hsec rfl htime, hsum]

example : toISOString 63902822400123 = "2026-01-01T00:00:00.123Z" := by decide

end Foundations.Iso
