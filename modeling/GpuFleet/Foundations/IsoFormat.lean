import GpuFleet.Foundations.Calendar
import Mathlib.Data.String.Basic

/-!
# ISO 8601 time stamps

A moment is the number of microseconds since 1 January of year 1, 00:00 UTC.
`isoformat` writes a moment of whole seconds as the standard library's
`datetime` does for a UTC time, `2026-01-02T03:04:05+00:00`, and `fromisoformat`
reads what `datetime.fromisoformat` reads: calendar and week dates with or
without separators, a time of day with up to six decimals, and an offset.

Two results connect them.  Texts of later moments are greater in the order of
strings (`isoformat_lt_iff`), which is why a column of time stamps may be
compared as text.  And what `isoformat` writes is read back
(`fromisoformat_isoformat`).
-/

namespace Foundations.Iso

open Calendar

/-- Seconds of the years 1 to 9999. -/
def maxSeconds : Nat := 3652059 * 86400

/-- Microseconds of the years 1 to 9999. -/
def maxMicros : Nat := maxSeconds * 1000000

/-- A moment before the end of year 9999 lies in a second before it. -/
theorem seconds_lt {now : Nat} (h : now < maxMicros) : now / 1000000 < maxSeconds := by
  unfold maxMicros at h
  omega

/-! ## Digits -/

/-- A decimal digit. -/
def digit (d : Nat) : Char := Char.ofNat (48 + d)

/-- The number a digit stands for. -/
def digitVal (c : Char) : Nat := c.toNat - 48

/-- `n` with `w` digits, leading zeros included. -/
def pad : Nat → Nat → List Char
  | 0, _ => []
  | w + 1, n => digit (n / 10 ^ w) :: pad w (n % 10 ^ w)

/-- Read exactly `w` digits. -/
def takeNum : Nat → List Char → Option (Nat × List Char)
  | 0, s => some (0, s)
  | _ + 1, [] => none
  | w + 1, c :: s =>
      if c.isDigit then (takeNum w s).map fun (n, r) => (digitVal c * 10 ^ w + n, r) else none

theorem digit_facts : ∀ d < 10, (digit d).isDigit = true ∧ digitVal (digit d) = d ∧
    digit d ≠ '-' ∧ digit d ≠ '+' ∧ digit d ≠ 'Z' ∧ digit d ≠ 'W' ∧ digit d ≠ ':' := by
  decide

theorem digit_lt : ∀ a < 10, ∀ b < 10, a < b → digit a < digit b := by decide

theorem length_pad (w n : Nat) : (pad w n).length = w := by
  induction w generalizing n with
  | zero => rfl
  | succ w ih => simp [pad, ih]

/-- Every digit of a padded number is one of the ten. -/
theorem mem_pad {w n : Nat} (h : n < 10 ^ w) {c : Char} (hc : c ∈ pad w n) :
    ∃ d < 10, c = digit d := by
  induction w generalizing n with
  | zero => cases hc
  | succ w ih =>
      have hpos : 0 < 10 ^ w := Nat.pow_pos (by decide)
      rcases List.mem_cons.mp hc with rfl | hc
      · exact ⟨n / 10 ^ w, Nat.div_lt_of_lt_mul (by rw [Nat.pow_succ] at h; exact h), rfl⟩
      · exact ih (Nat.mod_lt _ hpos) hc

/-- Padded numbers are read back. -/
theorem takeNum_pad {w n : Nat} (h : n < 10 ^ w) (r : List Char) :
    takeNum w (pad w n ++ r) = some (n, r) := by
  induction w generalizing n with
  | zero =>
      rw [Nat.pow_zero] at h
      have : n = 0 := by omega
      subst this
      rfl
  | succ w ih =>
      have hpos : 0 < 10 ^ w := Nat.pow_pos (by decide)
      have hd : n / 10 ^ w < 10 := Nat.div_lt_of_lt_mul (by rw [Nat.pow_succ] at h; exact h)
      obtain ⟨hdig, hval, -⟩ := digit_facts _ hd
      rw [pad, List.cons_append, takeNum, if_pos hdig, ih (Nat.mod_lt _ hpos), hval]
      rw [Option.map_some]
      simp only [Option.some.injEq, Prod.mk.injEq, and_true]
      exact Nat.div_add_mod' n (10 ^ w)

/-- A smaller number has a smaller text, whatever follows. -/
theorem pad_lt {w a b : Nat} (hab : a < b) (hb : b < 10 ^ w) (r s : List Char) :
    pad w a ++ r < pad w b ++ s := by
  induction w generalizing a b with
  | zero =>
      rw [Nat.pow_zero] at hb
      omega
  | succ w ih =>
      have hpos : 0 < 10 ^ w := Nat.pow_pos (by decide)
      have hdb : b / 10 ^ w < 10 := Nat.div_lt_of_lt_mul (by rw [Nat.pow_succ] at hb; exact hb)
      have hle : a / 10 ^ w ≤ b / 10 ^ w := Nat.div_le_div_right (Nat.le_of_lt hab)
      rw [pad, pad, List.cons_append, List.cons_append, List.cons_lt_cons_iff]
      rcases Nat.lt_or_eq_of_le hle with hlt | heq
      · exact Or.inl (digit_lt _ (by omega) _ hdb hlt)
      · refine Or.inr ⟨by rw [heq], ih ?_ (Nat.mod_lt _ hpos)⟩
        have ha := Nat.div_add_mod a (10 ^ w)
        have hb' := Nat.div_add_mod b (10 ^ w)
        rw [heq] at ha
        omega

/-! ## Writing -/

/-- The text of a UTC time of whole seconds, as characters. -/
def isoChars (sec : Nat) : List Char :=
  let (year, month, day) := ord2ymd (sec / 86400 + 1)
  let rest := sec % 86400
  pad 4 year ++ '-' :: (pad 2 month ++ '-' :: (pad 2 day ++ 'T' ::
    (pad 2 (rest / 3600) ++ ':' :: (pad 2 (rest % 3600 / 60) ++ ':' ::
      (pad 2 (rest % 60) ++ ['+', '0', '0', ':', '0', '0'])))))

/-- The text of a UTC time of whole seconds. -/
def isoformat (sec : Nat) : String := String.ofList (isoChars sec)

/-- The text of a whole second up to its offset. -/
def secondChars (sec : Nat) : List Char :=
  let (year, month, day) := ord2ymd (sec / 86400 + 1)
  let rest := sec % 86400
  pad 4 year ++ '-' :: (pad 2 month ++ '-' :: (pad 2 day ++ 'T' ::
    (pad 2 (rest / 3600) ++ ':' :: (pad 2 (rest % 3600 / 60) ++ ':' :: pad 2 (rest % 60)))))

theorem isoChars_eq (sec : Nat) : isoChars sec = secondChars sec ++ ['+', '0', '0', ':', '0', '0'] := by
  simp [isoChars, secondChars]

/-- The text of a UTC time, with its microseconds if there are any. -/
def isoformatMicros (t : Nat) : String :=
  .ofList (secondChars (t / 1000000) ++
    ((if t % 1000000 = 0 then [] else '.' :: pad 6 (t % 1000000)) ++ ['+', '0', '0', ':', '0', '0']))

/-- The fields of a moment are small enough for their columns. -/
theorem fields_lt {sec : Nat} (h : sec < maxSeconds) :
    (ord2ymd (sec / 86400 + 1)).1 < 10 ^ 4 ∧ (ord2ymd (sec / 86400 + 1)).2.1 < 10 ^ 2 ∧
      (ord2ymd (sec / 86400 + 1)).2.2 < 10 ^ 2 := by
  have hday : sec / 86400 + 1 ≤ 3652059 := by
    have : sec / 86400 < 3652059 := Nat.div_lt_of_lt_mul (by rw [Nat.mul_comm]; exact h)
    omega
  have hy := ord2ymd_year_le (Nat.le_add_left 1 _) hday
  obtain ⟨-, -, hm, -, hd⟩ := ord2ymd_valid (Nat.le_add_left 1 (sec / 86400))
  have hlen : ∀ y m, monthLength y m ≤ 31 := by
    intro y m
    unfold monthLength
    split
    · decide
    · unfold daysInMonth
      split <;> decide
  have := hlen (ord2ymd (sec / 86400 + 1)).1 (ord2ymd (sec / 86400 + 1)).2.1
  refine ⟨?_, ?_, ?_⟩ <;> omega

/-- A later moment has a greater text. -/
theorem isoChars_lt {a b : Nat} (hab : a < b) (hb : b < maxSeconds) :
    isoChars a < isoChars b := by
  unfold isoChars
  simp only
  obtain ⟨hy, hm, hd⟩ := fields_lt hb
  have heq : a / 86400 < b / 86400 ∨ a / 86400 = b / 86400 := by omega
  rcases heq with hlt | heq
  · rcases ord2ymd_lt (Nat.le_add_left 1 _) (Nat.add_lt_add_right hlt 1) with
      h | ⟨ey, h | ⟨em, h⟩⟩
    · exact pad_lt h hy _ _
    · rw [ey]
      exact List.append_left_lt (List.cons_lt_cons_self.mpr (pad_lt h hm _ _))
    · rw [ey, em]
      exact List.append_left_lt (List.cons_lt_cons_self.mpr (List.append_left_lt
        (List.cons_lt_cons_self.mpr (pad_lt h hd _ _))))
  · rw [heq]
    refine List.append_left_lt (List.cons_lt_cons_self.mpr (List.append_left_lt
      (List.cons_lt_cons_self.mpr (List.append_left_lt (List.cons_lt_cons_self.mpr ?_)))))
    have hrest : a % 86400 < b % 86400 := by omega
    have hmax : b % 86400 < 86400 := Nat.mod_lt _ (by decide)
    generalize a % 86400 = p at hrest ⊢
    generalize b % 86400 = q at hrest hmax ⊢
    have hh : p / 3600 < q / 3600 ∨ p / 3600 = q / 3600 := by omega
    rcases hh with h | eh
    · exact pad_lt h (by omega) _ _
    · rw [eh]
      refine List.append_left_lt (List.cons_lt_cons_self.mpr ?_)
      have hm : p % 3600 / 60 < q % 3600 / 60 ∨ p % 3600 / 60 = q % 3600 / 60 := by omega
      rcases hm with h | em
      · exact pad_lt h (by omega) _ _
      · rw [em]
        exact List.append_left_lt (List.cons_lt_cons_self.mpr (pad_lt (by omega) (by omega) _ _))

/-- The order of time stamps is the order of their texts. -/
theorem isoformat_lt_iff {a b : Nat} (ha : a < maxSeconds) (hb : b < maxSeconds) :
    isoformat a < isoformat b ↔ a < b := by
  have hlt : ∀ {a b}, a < b → b < maxSeconds → isoformat a < isoformat b := by
    intro a b hab hb
    rw [isoformat, isoformat, String.lt_iff_toList_lt, String.toList_ofList,
      String.toList_ofList]
    exact isoChars_lt hab hb
  constructor
  · intro h
    rcases Nat.lt_trichotomy a b with hab | rfl | hab
    · exact hab
    · exact absurd h (String.lt_irrefl _)
    · exact absurd (String.lt_trans h (hlt hab ha)) (String.lt_irrefl _)
  · exact fun h => hlt h hb

/-! ## Reading -/

/-- A parsed date and time: the reading of its clock as a moment, and the offset of the
clock from UTC in microseconds when the text gives one. -/
structure DateTime where
  /-- The moment at which a UTC clock shows this date and time. -/
  clock : Nat
  /-- How far the clock is ahead of UTC. -/
  offset : Option Int
  deriving DecidableEq, Repr

/-- Where the date ends. -/
def findSeparator (s : List Char) : Option Nat :=
  if s.length = 7 then some 7
  else if s[4]? = some '-' then
    if s[5]? = some 'W' then
      if s.length < 8 then none
      else if 8 < s.length ∧ s[8]? = some '-' then
        if s.length = 9 then none
        else if 10 < s.length ∧ (s[10]?.any Char.isDigit) then some 8
        else some 10
      else some 8
    else some 10
  else if s[4]? = some 'W' then
    let digits := ((s.drop 7).takeWhile Char.isDigit).length
    if 7 + digits < 9 then some (7 + digits) else if (7 + digits) % 2 = 0 then some 7 else some 8
  else some 8

/-- The Monday of the first ISO week of a year. -/
def isoWeek1Monday (year : Nat) : Nat :=
  let firstday := ymd2ord year 1 1
  let firstweekday := (firstday + 6) % 7
  let week1monday := firstday - firstweekday
  if firstweekday > 3 then week1monday + 7 else week1monday

/-- The date of a day of an ISO week. -/
def isoWeekToGregorian (year week day : Nat) : Option (Nat × Nat × Nat) :=
  let long := ymd2ord year 1 1 % 7 = 4 ∨ (ymd2ord year 1 1 % 7 = 3 ∧ isLeap year)
  if 1 ≤ year ∧ 1 ≤ week ∧ (week < 53 ∨ (week = 53 ∧ long)) ∧ 1 ≤ day ∧ day < 8 then
    some (ord2ymd (isoWeek1Monday year + ((week - 1) * 7 + (day - 1))))
  else none

/-- Pass a separator that is there exactly when it was used before. -/
def skipDash (hasSep : Bool) (s : List Char) : Option (List Char) :=
  match s with
  | '-' :: r => if hasSep then some r else none
  | _ => if hasSep then none else some s

/-- Read the week of a date and its day, a Monday if none is given. -/
def parseWeek (year : Nat) (hasSep : Bool) (s : List Char) :
    Option ((Nat × Nat × Nat) × List Char) := do
  let (week, s) ← takeNum 2 s
  if s = [] then (isoWeekToGregorian year week 1).map (·, s)
  else
    let s ← skipDash hasSep s
    let (day, s) ← takeNum 1 s
    (isoWeekToGregorian year week day).map (·, s)

/-- Read the month of a date and its day. -/
def parseMonth (year : Nat) (hasSep : Bool) (s : List Char) :
    Option ((Nat × Nat × Nat) × List Char) := do
  let (month, s) ← takeNum 2 s
  let s ← skipDash hasSep s
  let (day, s) ← takeNum 2 s
  some ((year, month, day), s)

/-- Read a date, and return what is not read of the text. -/
def parseDate (s : List Char) : Option ((Nat × Nat × Nat) × List Char) := do
  let (year, s) ← takeNum 4 s
  let hasSep := s.head? = some '-'
  let s := if hasSep then s.drop 1 else s
  if s.head? = some 'W' then parseWeek year hasSep (s.drop 1) else parseMonth year hasSep s

/-- What stands behind the last character. -/
def nul : Char := Char.ofNat 0

/-- What is read of a time of day. -/
structure ClockText where
  /-- The hours, minutes and seconds that are given. -/
  parts : List Nat
  /-- The decimals of the last of them, six at most, in microseconds. -/
  micros : Nat
  /-- The characters that are not read. -/
  unread : List Char
  /-- Something other than digits was not read. -/
  leftover : Bool
  deriving DecidableEq, Repr

/-- Read decimals, at most six of them.  The digits behind the sixth are passed over. -/
def parseFraction (following : Char) (s : List Char) : Option ClockText := do
  let width := min 6 s.length
  let (n, r) ← takeNum width s
  some ⟨[], n * 10 ^ (6 - width), r, (r.dropWhile Char.isDigit).headD following != nul⟩

/-- How a time of day goes on behind two of its digits. -/
inductive Continuation where
  | stop
  | part (s : List Char)
  | fraction (s : List Char)
  | malformed
  deriving DecidableEq, Repr

/-- A single byte behind the digits is not read, whatever it is. -/
def continuation (hasSep : Bool) (s : List Char) : Continuation :=
  match s with
  | [] => .stop
  | [c] => if c.toNat < 128 then .stop else .malformed
  | c :: r =>
      if hasSep ∧ c = ':' then .part r
      else if c = '.' ∨ c = ',' then .fraction r
      else if hasSep then .malformed else .part s

/-- What is read behind a part. -/
def ClockText.behind (part : Nat) (t : ClockText) : ClockText := { t with parts := part :: t.parts }

/-- Read `n` parts of two digits and decimals, with colons if they were used before. -/
def parseParts (following : Char) : Nat → Option Bool → List Char → Option ClockText
  | 0, _, s => parseFraction following s
  | n + 1, sep, s => do
      let (part, s) ← takeNum 2 s
      let hasSep := sep.getD (s.head? = some ':')
      match continuation hasSep s with
      | .stop => some ⟨[part], 0, s, s.headD following != nul⟩
      | .part s => (parseParts following n (some hasSep) s).map (.behind part)
      | .fraction s => (parseFraction following s).map (.behind part)
      | .malformed => none

/-- Read a time of day that the character `following` comes behind. -/
def parseClock (following : Char) (s : List Char) : Option ClockText := parseParts following 3 none s

/-- Seconds of a time of day. -/
def clockSeconds (t : ClockText) : Nat :=
  (t.parts.getD 0 0 * 60 + t.parts.getD 1 0) * 60 + t.parts.getD 2 0

/-- Microseconds of a time of day. -/
def clockMicros (t : ClockText) : Nat := clockSeconds t * 1000000 + t.micros

/-- The offset begins at such a character. -/
def isSign (c : Char) : Bool := c = '+' ∨ c = '-' ∨ c = 'Z'

/-- The offset of a time zone in microseconds.  Decimals alone are no offset. -/
def zoneOffset (sign : Char) (z : ClockText) : Option Int :=
  if clockSeconds z = 0 then some 0
  else if clockMicros z < 86400 * 1000000 then
    some (if sign = '-' then -(clockMicros z : Int) else clockMicros z)
  else none

/-- Read an offset.  A time of day without one must have been read to its end. -/
def parseOffset (leftover : Bool) : List Char → Option (Option Int)
  | [] => if leftover then none else some none
  | sign :: zone =>
      if sign = 'Z' then (if zone.headD nul = nul then some (some 0) else none)
      else do
        let z ← parseClock nul zone
        if z.leftover then none else (zoneOffset sign z).map some

/-- Read a time of day with its offset. -/
def parseTime (s : List Char) : Option (ClockText × Option Int) := do
  let offset := s.dropWhile (!isSign ·)
  let t ← parseClock (offset.headD nul) (s.takeWhile (!isSign ·))
  let z ← parseOffset t.leftover offset
  some (t, z)

/-- A date of the years 1 to 9999. -/
def validDate (d : Nat × Nat × Nat) : Bool :=
  1 ≤ d.1 ∧ d.1 ≤ 9999 ∧ 1 ≤ d.2.1 ∧ d.2.1 ≤ 12 ∧ 1 ≤ d.2.2 ∧ d.2.2 ≤ monthLength d.1 d.2.1

/-- A time of day. -/
def validClock (t : ClockText) : Bool :=
  t.parts.getD 0 0 < 24 ∧ t.parts.getD 1 0 < 60 ∧ t.parts.getD 2 0 < 60

/-- Midnight. -/
def midnight : ClockText := ⟨[], 0, [], false⟩

/-- Read what stands behind a date: nothing, or a separator and a time of day. -/
def parseRest : List Char → Option (ClockText × Option Int)
  | [] => some (midnight, none)
  | _ :: s => parseTime s

/-- Read an ISO 8601 date, with or without a time of day.  `none` stands for the
`ValueError` raised for any other text. -/
def fromisoformat (raw : String) : Option DateTime := do
  let s := raw.toList
  if s.length < 7 then none
  let sep ← findSeparator s
  let (date, _) ← parseDate (s.take sep)
  let (time, offset) ← parseRest (s.drop sep)
  if validDate date ∧ validClock time then
    some ⟨(ymd2ord date.1 date.2.1 date.2.2 - 1) * 86400 * 1000000 + clockMicros time, offset⟩
  else none

/-! ## Reading back -/

theorem pad_two (n : Nat) (h : n < 10 ^ 2) : ∃ a b, pad 2 n = [a, b] ∧
    (∀ c ∈ [a, b], c ≠ '-' ∧ c ≠ '+' ∧ c ≠ 'Z' ∧ c ≠ 'W' ∧ c ≠ ':') ∧
    ∀ r, takeNum 2 (a :: b :: r) = some (n, r) := by
  refine ⟨_, _, rfl, ?_, fun r => takeNum_pad h r⟩
  intro c hc
  obtain ⟨d, hd, rfl⟩ := mem_pad h hc
  exact (digit_facts d hd).2.2

/-- The text of a moment holds no `Z`. -/
theorem not_Z_mem_isoChars {sec : Nat} (h : sec < maxSeconds) : 'Z' ∉ isoChars sec := by
  obtain ⟨hy, hm, hd⟩ := fields_lt h
  have hrest : sec % 86400 < 86400 := Nat.mod_lt _ (by decide)
  have not_pad : ∀ {w n : Nat}, n < 10 ^ w → 'Z' ∉ pad w n := by
    intro w n hn hmem
    obtain ⟨d, hd, he⟩ := mem_pad hn hmem
    exact (digit_facts d hd).2.2.2.2.1 he.symm
  have hh : sec % 86400 / 3600 < 10 ^ 2 := by omega
  have hn : sec % 3600 / 60 < 10 ^ 2 := by omega
  have hs : sec % 60 < 10 ^ 2 := by omega
  simp [isoChars, not_pad hy, not_pad hm, not_pad hd, not_pad hh, not_pad hn, not_pad hs]

theorem pad_four (n : Nat) (h : n < 10 ^ 4) : ∃ a b c d, pad 4 n = [a, b, c, d] ∧
    ∀ r, takeNum 4 (a :: b :: c :: d :: r) = some (n, r) :=
  ⟨_, _, _, _, rfl, fun r => takeNum_pad h r⟩

/-- A calendar date with separators is read field by field. -/
theorem parseDate_pad {year month day : Nat} (hy : year < 10 ^ 4) (hm : month < 10 ^ 2)
    (hd : day < 10 ^ 2) :
    parseDate (pad 4 year ++ '-' :: (pad 2 month ++ '-' :: pad 2 day)) =
      some ((year, month, day), []) := by
  obtain ⟨a, b, c, d, ey, hty⟩ := pad_four year hy
  obtain ⟨m₁, m₂, em, hfm, htm⟩ := pad_two month hm
  obtain ⟨d₁, d₂, ed, -, htd⟩ := pad_two day hd
  have hW : m₁ ≠ 'W' := (hfm m₁ (List.mem_cons_self ..)).2.2.2.1
  simp only [ey, em, ed, List.cons_append, List.nil_append]
  simp [parseDate, parseMonth, hty, htm, htd, hW, skipDash]

/-- A time of day with colons is read field by field. -/
theorem parseClock_pad {hour minute second : Nat} (following : Char) (hh : hour < 10 ^ 2)
    (hm : minute < 10 ^ 2) (hs : second < 10 ^ 2) :
    parseClock following (pad 2 hour ++ ':' :: (pad 2 minute ++ ':' :: pad 2 second)) =
      some ⟨[hour, minute, second], 0, [], following != nul⟩ := by
  obtain ⟨h₁, h₂, eh, -, hth⟩ := pad_two hour hh
  obtain ⟨n₁, n₂, en, -, htn⟩ := pad_two minute hm
  obtain ⟨s₁, s₂, es, -, hts⟩ := pad_two second hs
  simp only [eh, en, es, List.cons_append, List.nil_append]
  simp [parseClock, parseParts, hth, htn, hts, continuation, ClockText.behind]

/-- What the characters before the offset are. -/
theorem takeWhile_clock {clock : List Char} {sign : Char} (zone : List Char)
    (h : ∀ c ∈ clock, isSign c = false) (hsign : isSign sign = true) :
    (clock ++ sign :: zone).takeWhile (!isSign ·) = clock ∧
      (clock ++ sign :: zone).dropWhile (!isSign ·) = sign :: zone := by
  have hclock : ∀ c ∈ clock, (!isSign c) = true := fun c hc => by rw [h c hc]; rfl
  rw [List.takeWhile_append_of_pos hclock, List.dropWhile_append_of_pos hclock]
  simp [hsign]

/-- A digit is no sign. -/
theorem isSign_of_ne {c : Char} (h : c ≠ '-' ∧ c ≠ '+' ∧ c ≠ 'Z' ∧ c ≠ 'W' ∧ c ≠ ':') :
    isSign c = false := by
  simp [isSign, h]

/-- The parts of a time of day hold no sign. -/
theorem isSign_pad_two {n : Nat} (h : n < 10 ^ 2) : ∀ c ∈ pad 2 n, isSign c = false := by
  obtain ⟨a, b, e, hf, -⟩ := pad_two n h
  rw [e]
  exact fun c hc => isSign_of_ne (hf c hc)

/-- A time of day with a zero offset is read as a UTC time. -/
theorem parseTime_pad {hour minute second : Nat} (hh : hour < 10 ^ 2) (hm : minute < 10 ^ 2)
    (hs : second < 10 ^ 2) :
    parseTime (pad 2 hour ++ ':' :: (pad 2 minute ++ ':' :: (pad 2 second ++
      ['+', '0', '0', ':', '0', '0']))) = some (⟨[hour, minute, second], 0, [], true⟩, some 0) := by
  have hclock := parseClock_pad '+' hh hm hs
  have hzone : parseOffset true ['+', '0', '0', ':', '0', '0'] = some (some 0) := by decide
  have hsigns : ∀ c ∈ pad 2 hour ++ ':' :: (pad 2 minute ++ ':' :: pad 2 second),
      isSign c = false := by
    intro c hc
    simp only [List.mem_append, List.mem_cons] at hc
    rcases hc with hc | rfl | hc | rfl | hc
    · exact isSign_pad_two hh c hc
    · rfl
    · exact isSign_pad_two hm c hc
    · rfl
    · exact isSign_pad_two hs c hc
  have hplus : isSign '+' = true := rfl
  obtain ⟨htake, hdrop⟩ := takeWhile_clock ['0', '0', ':', '0', '0'] hsigns hplus
  simp only [List.append_assoc, List.cons_append] at htake hdrop
  rw [parseTime]
  simp only [htake, hdrop, List.headD_cons, hclock]
  rw [Option.bind_eq_bind, Option.bind_some, show ('+' != nul) = true from rfl, hzone]
  rfl

/-- The date and the clock of a second are read, whatever follows the seconds. -/
theorem fromisoformat_secondChars {sec : Nat} {t : ClockText} {offset : Option Int}
    {zone : List Char} (h : sec < maxSeconds)
    (hparts : t.parts = [sec % 86400 / 3600, sec % 86400 % 3600 / 60, sec % 86400 % 60])
    (htime : parseTime (pad 2 (sec % 86400 / 3600) ++ ':' :: (pad 2 (sec % 86400 % 3600 / 60) ++
      ':' :: (pad 2 (sec % 86400 % 60) ++ zone))) = some (t, offset)) :
    fromisoformat (String.ofList (secondChars sec ++ zone)) =
      some ⟨sec * 1000000 + t.micros, offset⟩ := by
  obtain ⟨hy, hm, hd⟩ := fields_lt h
  obtain ⟨vy, vm, vm', vd, vd'⟩ := ord2ymd_valid (Nat.le_add_left 1 (sec / 86400))
  have hord := ymd2ord_ord2ymd (Nat.le_add_left 1 (sec / 86400))
  have hyear : (ord2ymd (sec / 86400 + 1)).1 ≤ 9999 := Nat.le_of_lt_succ hy
  unfold secondChars
  generalize ord2ymd (sec / 86400 + 1) = ymd at *
  obtain ⟨year, month, day⟩ := ymd
  simp only at *
  have hdate := parseDate_pad hy hm hd
  obtain ⟨a, b, c, d, ey, -⟩ := pad_four year hy
  obtain ⟨m₁, m₂, em, hfm, -⟩ := pad_two month hm
  obtain ⟨d₁, d₂, ed, -, -⟩ := pad_two day hd
  have hW : m₁ ≠ 'W' := (hfm m₁ (List.mem_cons_self ..)).2.2.2.1
  simp only [ey, em, ed, List.cons_append, List.nil_append, List.append_assoc] at hdate ⊢
  generalize pad 2 (sec % 86400 / 3600) ++ ':' :: (pad 2 (sec % 86400 % 3600 / 60) ++
    ':' :: (pad 2 (sec % 86400 % 60) ++ zone)) = time at htime ⊢
  have hvalid : validDate (year, month, day) = true ∧ validClock t = true := by
    simp only [validDate, validClock, hparts, decide_eq_true_eq, List.getD_cons_zero,
      List.getD_cons_succ]
    omega
  have hclock : (ymd2ord year month day - 1) * 86400 * 1000000 + clockMicros t =
      sec * 1000000 + t.micros := by
    simp only [hord, clockMicros, clockSeconds, hparts, List.getD_cons_zero, List.getD_cons_succ]
    omega
  simp [fromisoformat, findSeparator, parseRest, hW, hdate, htime, hvalid, hclock]

/-- The text of a moment is read back as that moment, in UTC. -/
theorem fromisoformat_isoformat {sec : Nat} (h : sec < maxSeconds) :
    fromisoformat (isoformat sec) = some ⟨sec * 1000000, some 0⟩ := by
  have htime := @parseTime_pad (sec % 86400 / 3600) (sec % 86400 % 3600 / 60) (sec % 86400 % 60)
    (by omega) (by omega) (by omega)
  rw [isoformat, isoChars_eq, fromisoformat_secondChars h rfl htime, Nat.add_zero]

/-- The first second of 2026. -/
example : isoformat 63902822400 = "2026-01-01T00:00:00+00:00" := by decide

end Foundations.Iso
