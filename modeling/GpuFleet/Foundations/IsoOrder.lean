import GpuFleet.Foundations.IsoFormat
import Mathlib.Data.List.Lex

/-!
# Layouts of time stamps

`datetime.fromisoformat` reads a moment from many texts, and texts of different
layouts need not compare as their moments do.  The layout of a text is the text
up to the digits that are read as its date and its time of day: the places of
the digits, the separator, the offset, and what is passed over.

Texts of one layout compare as their clocks do, and have one offset
(`clock_lt_of_layout`).
-/

namespace Foundations.Iso

open Calendar

/-! ## Shapes -/

/-- A character, a zero if it is a digit. -/
def mask (c : Char) : Char := if c.isDigit then '0' else c

/-- A text with a zero for each of its digits. -/
def shape (s : List Char) : List Char := s.map mask

theorem isDigit_mask (c : Char) : (mask c).isDigit = c.isDigit := by
  unfold mask
  split
  · rename_i h
    rw [h]
    rfl
  · rfl

/-- Other characters than digits are not masked. -/
theorem mask_eq_iff {c x : Char} (hx : x.isDigit = false) : mask c = x ↔ c = x := by
  unfold mask
  split
  · rename_i h
    constructor
    · rintro rfl
      cases hx
    · rintro rfl
      rw [h] at hx
      cases hx
  · rfl

theorem eq_of_mask {c d : Char} (h : mask c = mask d) (hd : d.isDigit = false) : c = d :=
  (mask_eq_iff hd).mp (h.trans ((mask_eq_iff hd).mpr rfl))

@[simp] theorem shape_nil : shape [] = [] := rfl

@[simp] theorem shape_cons (c : Char) (s : List Char) : shape (c :: s) = mask c :: shape s := rfl

theorem shape_cons_eq {c d : Char} {s t : List Char} :
    shape (c :: s) = shape (d :: t) ↔ mask c = mask d ∧ shape s = shape t := by
  rw [shape_cons, shape_cons, List.cons.injEq]

theorem length_eq_of_shape {s t : List Char} (h : shape s = shape t) : s.length = t.length := by
  rw [shape, shape] at h
  simpa using congrArg List.length h

theorem shape_take {s t : List Char} (h : shape s = shape t) (n : Nat) :
    shape (s.take n) = shape (t.take n) := by
  rw [shape, shape, List.map_take, List.map_take]
  exact congrArg (List.take n) h

theorem shape_drop {s t : List Char} (h : shape s = shape t) (n : Nat) :
    shape (s.drop n) = shape (t.drop n) := by
  rw [shape, shape, List.map_drop, List.map_drop]
  exact congrArg (List.drop n) h

/-- A character at a place of the shape. -/
theorem getElem?_shape {s : List Char} {i : Nat} {x : Char} (hx : x.isDigit = false) :
    (shape s)[i]? = some x ↔ s[i]? = some x := by
  rw [shape, List.getElem?_map, Option.map_eq_some_iff]
  constructor
  · rintro ⟨c, hc, hx'⟩
    rw [hc, (mask_eq_iff hx).mp hx']
  · exact fun h => ⟨x, h, (mask_eq_iff hx).mpr rfl⟩

theorem head?_shape {s : List Char} {x : Char} (hx : x.isDigit = false) :
    (shape s).head? = some x ↔ s.head? = some x := by
  rw [List.head?_eq_getElem?, List.head?_eq_getElem?, getElem?_shape hx]

/-- Where the date ends is seen from the shape. -/
theorem findSeparator_shape (s : List Char) : findSeparator (shape s) = findSeparator s := by
  have hlength : (shape s).length = s.length := List.length_map ..
  have hdash := fun i => @getElem?_shape s i '-' rfl
  have hweek := fun i => @getElem?_shape s i 'W' rfl
  have hdigit : (shape s)[10]?.any Char.isDigit = s[10]?.any Char.isDigit := by
    rw [shape, List.getElem?_map, Option.any_map]
    exact congrArg (Option.any · _) (funext isDigit_mask)
  have hdigits : (((shape s).drop 7).takeWhile Char.isDigit).length =
      ((s.drop 7).takeWhile Char.isDigit).length := by
    rw [shape, ← List.map_drop, List.takeWhile_map, List.length_map]
    exact congrArg (fun p => ((s.drop 7).takeWhile p).length) (funext isDigit_mask)
  simp only [findSeparator, hlength, hdash, hweek, hdigit, hdigits]

theorem isSign_mask (c : Char) : isSign (mask c) = isSign c := by
  simp only [isSign, mask_eq_iff (x := '+') rfl, mask_eq_iff (x := '-') rfl,
    mask_eq_iff (x := 'Z') rfl]

/-- Where the offset begins is seen from the shape. -/
theorem shape_takeWhile {s t : List Char} (h : shape s = shape t) :
    shape (s.takeWhile (!isSign ·)) = shape (t.takeWhile (!isSign ·)) := by
  have through : ∀ l : List Char, shape (l.takeWhile (!isSign ·)) =
      (shape l).takeWhile (!isSign ·) := by
    intro l
    rw [shape, shape, List.takeWhile_map]
    exact congrArg (fun p => (l.takeWhile p).map mask) (funext fun c => by simp [isSign_mask])
  rw [through, through, h]

/-! ## Numbers -/

theorem isDigit_toNat {c : Char} (h : c.isDigit = true) : 48 ≤ c.toNat ∧ c.toNat ≤ 57 := by
  simp only [Char.isDigit, Bool.and_eq_true, decide_eq_true_eq, UInt32.le_iff_toNat_le] at h
  exact h

/-- A number read from `w` digits. -/
theorem takeNum_lt {w n : Nat} {s r : List Char} (h : takeNum w s = some (n, r)) : n < 10 ^ w := by
  induction w generalizing s n with
  | zero =>
      cases h
      exact Nat.one_pos
  | succ w ih =>
      cases s with
      | nil => cases h
      | cons c s =>
          rw [takeNum] at h
          split at h
          · rename_i hc
            obtain ⟨⟨m, r'⟩, hm, he⟩ := Option.map_eq_some_iff.mp h
            cases he
            have hlt := ih hm
            have hval : digitVal c ≤ 9 := by
              have := isDigit_toNat hc
              unfold digitVal
              omega
            have hmul := Nat.mul_le_mul_right (10 ^ w) hval
            rw [Nat.pow_succ]
            omega
          · cases h

/-- The smaller of two texts of one shape has the smaller number, or the smaller rest. -/
theorem takeNum_order {w n n' : Nat} {s s' r r' : List Char} (hs : shape s = shape s')
    (h : takeNum w s = some (n, r)) (h' : takeNum w s' = some (n', r')) :
    shape r = shape r' ∧ (s < s' → n < n' ∨ (n = n' ∧ r < r')) := by
  induction w generalizing s s' n n' with
  | zero =>
      cases h
      cases h'
      exact ⟨hs, fun hlt => .inr ⟨rfl, hlt⟩⟩
  | succ w ih =>
      cases s with
      | nil => cases h
      | cons c s =>
          cases s' with
          | nil => cases h'
          | cons c' s' =>
              rw [takeNum] at h h'
              split at h
              · split at h'
                · rename_i hc hc'
                  obtain ⟨⟨m, q⟩, hm, he⟩ := Option.map_eq_some_iff.mp h
                  obtain ⟨⟨m', q'⟩, hm', he'⟩ := Option.map_eq_some_iff.mp h'
                  cases he
                  cases he'
                  obtain ⟨hshape, horder⟩ := ih (shape_cons_eq.mp hs).2 hm hm'
                  refine ⟨hshape, fun hlt => ?_⟩
                  rcases List.cons_lt_cons_iff.mp hlt with hlt | ⟨rfl, hrest⟩
                  · have hb := takeNum_lt hm
                    have hc := isDigit_toNat hc
                    have hval : digitVal c + 1 ≤ digitVal c' := by
                      have : c.toNat < c'.toNat := hlt
                      unfold digitVal
                      omega
                    have hmul := Nat.mul_le_mul_right (10 ^ w) hval
                    rw [Nat.add_mul, Nat.one_mul] at hmul
                    exact .inl (by omega)
                  · rcases horder hrest with hlt | ⟨rfl, hlt⟩
                    · exact .inl (Nat.add_lt_add_left hlt _)
                    · exact .inr ⟨rfl, hlt⟩
                · cases h'
              · cases h

/-! ## The time of day -/

/-- Of two times of day with parts as many, the first is earlier: part by part, then by their
decimals. -/
def ClockText.Earlier (t t' : ClockText) : Prop :=
  t.parts < t'.parts ∨ (t.parts = t'.parts ∧ t.micros < t'.micros)

theorem parseFraction_bounds {following : Char} {s : List Char} {t : ClockText}
    (h : parseFraction following s = some t) : t.parts = [] ∧ t.micros < 1000000 := by
  simp only [parseFraction] at h
  obtain ⟨⟨n, r⟩, hn, he⟩ := Option.bind_eq_some_iff.mp h
  cases he
  refine ⟨rfl, ?_⟩
  have hwidth : min 6 s.length + (6 - min 6 s.length) = 6 := by omega
  have hpow : 10 ^ min 6 s.length * 10 ^ (6 - min 6 s.length) = 1000000 := by
    rw [← Nat.pow_add, hwidth]
  rw [← hpow]
  exact Nat.mul_lt_mul_of_pos_right (takeNum_lt hn) (Nat.pow_pos (by decide))

/-- The smaller of two texts of one shape has the smaller decimals, if the same is not read. -/
theorem parseFraction_order {following : Char} {s s' : List Char} {t t' : ClockText}
    (hs : shape s = shape s') (h : parseFraction following s = some t)
    (h' : parseFraction following s' = some t') :
    t.parts.length = t'.parts.length ∧ (t.unread = t'.unread → s < s' → t.Earlier t') := by
  simp only [parseFraction, ← length_eq_of_shape hs] at h h'
  obtain ⟨⟨n, r⟩, hn, he⟩ := Option.bind_eq_some_iff.mp h
  obtain ⟨⟨n', r'⟩, hn', he'⟩ := Option.bind_eq_some_iff.mp h'
  cases he
  cases he'
  refine ⟨rfl, fun hunread hlt => .inr ⟨rfl, ?_⟩⟩
  obtain rfl : r = r' := hunread
  rcases (takeNum_order hs hn hn').2 hlt with hlt | ⟨-, hlt⟩
  · exact Nat.mul_lt_mul_of_pos_right hlt (Nat.pow_pos (by decide))
  · exact absurd hlt (List.lt_irrefl _)

/-- What is behind two digits is seen from its shape, but for the characters. -/
inductive SameContinuation : List Char → List Char → Continuation → Continuation → Prop where
  | stop {s s'} : SameContinuation s s' .stop .stop
  | part {s s' r r'} (hr : shape r = shape r') (hlt : s < s' → r < r') :
      SameContinuation s s' (.part r) (.part r')
  | fraction {s s' r r'} (hr : shape r = shape r') (hlt : s < s' → r < r') :
      SameContinuation s s' (.fraction r) (.fraction r')
  | malformed {s s'} : SameContinuation s s' .malformed .malformed

theorem continuation_shape (hasSep : Bool) {s s' : List Char} (hs : shape s = shape s') :
    SameContinuation s s' (continuation hasSep s) (continuation hasSep s') := by
  match s, s', hs with
  | [], [], _ => exact .stop
  | [], c :: s', hs => cases hs
  | c :: s, [], hs => cases hs
  | [c], c' :: d :: s', hs => cases (shape_cons_eq.mp hs).2
  | c :: d :: s, [c'], hs => cases (shape_cons_eq.mp hs).2
  | [c], [c'], hs =>
      have hbyte : c.toNat < 128 ↔ c'.toNat < 128 := by
        have hmask := (shape_cons_eq.mp hs).1
        by_cases hc : c'.isDigit = true
        · have hd : c.isDigit = true := by rw [← isDigit_mask, hmask, isDigit_mask, hc]
          have := isDigit_toNat hc
          have := isDigit_toNat hd
          omega
        · rw [eq_of_mask hmask (Bool.eq_false_iff.mpr hc)]
      simp only [continuation, hbyte]
      split
      · exact .stop
      · exact .malformed
  | c :: d :: r, c' :: d' :: r', hs =>
      obtain ⟨hmask, hr⟩ := shape_cons_eq.mp hs
      have same : ∀ x : Char, x.isDigit = false → (c = x ↔ c' = x) := fun x hx => by
        rw [← mask_eq_iff hx, hmask, mask_eq_iff hx]
      have behind : c = c' → c :: d :: r < c' :: d' :: r' → d :: r < d' :: r' := by
        rintro rfl hlt
        exact List.cons_lt_cons_self.mp hlt
      have hcolon := same ':' rfl
      have hpoint := same '.' rfl
      have hcomma := same ',' rfl
      simp only [continuation, hcolon, hpoint, hcomma]
      split
      · rename_i h
        exact .part hr (behind ((hcolon.mpr h.2).trans h.2.symm))
      · split
        · rename_i h
          refine .fraction hr (behind ?_)
          rcases h with h | h
          · exact (hpoint.mpr h).trans h.symm
          · exact (hcomma.mpr h).trans h.symm
        · split
          · exact .malformed
          · exact .part hs id

/-- Times of day of one shape have parts as many, and the smaller text is earlier if the same is
not read. -/
theorem parseParts_order {following : Char} {n : Nat} {sep : Option Bool} {s s' : List Char}
    {t t' : ClockText} (hs : shape s = shape s') (h : parseParts following n sep s = some t)
    (h' : parseParts following n sep s' = some t') :
    t.parts.length = t'.parts.length ∧ (t.unread = t'.unread → s < s' → t.Earlier t') := by
  induction n generalizing sep s s' t t' with
  | zero => exact parseFraction_order hs h h'
  | succ n ih =>
      simp only [parseParts] at h h'
      obtain ⟨⟨part, r⟩, hpart, h⟩ := Option.bind_eq_some_iff.mp h
      obtain ⟨⟨part', r'⟩, hpart', h'⟩ := Option.bind_eq_some_iff.mp h'
      obtain ⟨hr, horder⟩ := takeNum_order hs hpart hpart'
      have hcolon : (r'.head? = some ':') ↔ (r.head? = some ':') := by
        rw [← head?_shape rfl, ← hr, head?_shape rfl]
      simp only [decide_eq_decide.mpr hcolon] at h h'
      -- Whatever is read behind the part, its order settles that of the texts.
      have settle : ∀ {u u' : ClockText}, u.parts.length = u'.parts.length →
          (u.unread = u'.unread → r < r' → u.Earlier u') →
          (u.behind part).parts.length = (u'.behind part').parts.length ∧
            ((u.behind part).unread = (u'.behind part').unread → s < s' →
              (u.behind part).Earlier (u'.behind part')) := by
        intro u u' hlength hrest
        refine ⟨congrArg (· + 1) hlength, fun hunread hlt => ?_⟩
        rcases horder hlt with hlt | ⟨rfl, hlt⟩
        · exact .inl (List.cons_lt_cons_iff.mpr (.inl hlt))
        · rcases hrest hunread hlt with hlt | ⟨he, hlt⟩
          · exact .inl (List.cons_lt_cons_iff.mpr (.inr ⟨rfl, hlt⟩))
          · exact .inr ⟨congrArg (part :: ·) he, hlt⟩
      have hsame := continuation_shape (sep.getD (decide (r.head? = some ':'))) hr
      generalize continuation _ r = k at hsame h
      generalize continuation _ r' = k' at hsame h'
      cases hsame with
      | stop =>
          cases h
          cases h'
          refine @settle ⟨[], 0, r, r.headD following != nul⟩ ⟨[], 0, r', r'.headD following != nul⟩
            rfl fun hunread hlt => ?_
          rw [show r = r' from hunread] at hlt
          exact absurd hlt (List.lt_irrefl _)
      | part hq hlt =>
          obtain ⟨u, hu, rfl⟩ := Option.map_eq_some_iff.mp h
          obtain ⟨u', hu', rfl⟩ := Option.map_eq_some_iff.mp h'
          obtain ⟨hlength, hearlier⟩ := ih hq hu hu'
          exact settle hlength fun hunread h => hearlier hunread (hlt h)
      | fraction hq hlt =>
          obtain ⟨u, hu, rfl⟩ := Option.map_eq_some_iff.mp h
          obtain ⟨u', hu', rfl⟩ := Option.map_eq_some_iff.mp h'
          obtain ⟨hlength, hearlier⟩ := parseFraction_order hq hu hu'
          exact settle hlength fun hunread h => hearlier hunread (hlt h)
      | malformed => cases h

theorem parseParts_bounds {following : Char} {n : Nat} {sep : Option Bool} {s : List Char}
    {t : ClockText} (h : parseParts following n sep s = some t) :
    t.parts.length ≤ n ∧ t.micros < 1000000 := by
  induction n generalizing sep s t with
  | zero =>
      obtain ⟨hparts, hmicros⟩ := parseFraction_bounds h
      exact ⟨by rw [hparts]; exact Nat.le_refl 0, hmicros⟩
  | succ n ih =>
      simp only [parseParts] at h
      obtain ⟨⟨part, r⟩, -, h⟩ := Option.bind_eq_some_iff.mp h
      dsimp only at h
      split at h
      · cases h
        exact ⟨Nat.succ_le_succ (Nat.zero_le n), Nat.zero_lt_succ _⟩
      · obtain ⟨u, hu, rfl⟩ := Option.map_eq_some_iff.mp h
        obtain ⟨hlength, hmicros⟩ := ih hu
        exact ⟨Nat.succ_le_succ hlength, hmicros⟩
      · obtain ⟨u, hu, rfl⟩ := Option.map_eq_some_iff.mp h
        obtain ⟨hparts, hmicros⟩ := parseFraction_bounds hu
        refine ⟨?_, hmicros⟩
        rw [ClockText.behind, hparts]
        exact Nat.succ_le_succ (Nat.zero_le n)
      · cases h

/-- The seconds of times of day with parts as many are in the order of the parts. -/
theorem clockSeconds_lt {t t' : ClockText} (hlength : t.parts.length = t'.parts.length)
    (hthree : t.parts.length ≤ 3) (ht : validClock t = true) (ht' : validClock t' = true)
    (hlt : t.parts < t'.parts) : clockSeconds t < clockSeconds t' := by
  obtain ⟨parts, micros, unread, leftover⟩ := t
  obtain ⟨parts', micros', unread', leftover'⟩ := t'
  simp only [validClock, decide_eq_true_eq] at ht ht'
  simp only [clockSeconds]
  -- Three parts at most, and of both as many.
  rcases parts with _ | ⟨a, _ | ⟨b, _ | ⟨c, _ | ⟨d, rest⟩⟩⟩⟩ <;>
    rcases parts' with _ | ⟨a', _ | ⟨b', _ | ⟨c', _ | ⟨d', rest'⟩⟩⟩⟩ <;>
    simp [List.cons_lt_cons_iff] at * <;> omega

/-- An earlier time of day has fewer microseconds. -/
theorem ClockText.Earlier.clockMicros_lt {t t' : ClockText} (h : t.Earlier t')
    (hlength : t.parts.length = t'.parts.length) (hthree : t.parts.length ≤ 3)
    (ht : validClock t = true) (ht' : validClock t' = true) (hmicros : t.micros < 1000000) :
    clockMicros t < clockMicros t' := by
  unfold clockMicros
  rcases h with hlt | ⟨he, hlt⟩
  · have := clockSeconds_lt hlength hthree ht ht' hlt
    omega
  · have : clockSeconds t = clockSeconds t' := by unfold clockSeconds; rw [he]
    omega

theorem clockMicros_lt_day {t : ClockText} (ht : validClock t = true) (hmicros : t.micros < 1000000) :
    clockMicros t < 86400 * 1000000 := by
  simp only [validClock, decide_eq_true_eq] at ht
  unfold clockMicros clockSeconds
  omega

/-! ## The date -/

theorem ymd2ord_newYear (year : Nat) : ymd2ord year 1 1 = daysBeforeYear year + 1 := by
  simp [ymd2ord, daysBeforeMonth, cumulativeDays]

/-- A year of 53 weeks. -/
def IsLong (year : Nat) : Prop :=
  ymd2ord year 1 1 % 7 = 4 ∨ (ymd2ord year 1 1 % 7 = 3 ∧ isLeap year = true)

/-- The first week of a year comes behind the last one of the year before. -/
theorem isoWeek1Monday_succ {year : Nat} (h : 1 ≤ year) :
    isoWeek1Monday year + 7 * 52 ≤ isoWeek1Monday (year + 1) ∧
      (IsLong year → isoWeek1Monday year + 7 * 53 ≤ isoWeek1Monday (year + 1)) := by
  have hnext := daysBeforeYear_succ h
  unfold isoWeek1Monday IsLong
  simp only [ymd2ord_newYear]
  generalize isLeap year = leap at hnext
  generalize daysBeforeYear (year + 1) = next at hnext
  cases leap with
  | false =>
      rw [Bool.toNat_false] at hnext
      refine ⟨by split <;> split <;> omega, fun hlong => ?_⟩
      simp only [Bool.false_eq_true, and_false, or_false] at hlong
      split <;> split <;> omega
  | true =>
      rw [Bool.toNat_true] at hnext
      refine ⟨by split <;> split <;> omega, fun hlong => ?_⟩
      split <;> split <;> omega

/-- A later year begins later. -/
theorem isoWeek1Monday_add_le {year year' week : Nat} (h : 1 ≤ year) (hyear : year < year')
    (hweek : week < 53 ∨ (week = 53 ∧ IsLong year)) :
    isoWeek1Monday year + 7 * week ≤ isoWeek1Monday year' := by
  induction hyear with
  | refl =>
      obtain ⟨hshort, hlong⟩ := isoWeek1Monday_succ h
      rw [Nat.succ_eq_add_one]
      rcases hweek with hweek | ⟨rfl, hweek⟩
      · omega
      · exact hlong hweek
  | @step m hm ih =>
      rw [Nat.succ_eq_add_one]
      have hstart : 1 ≤ m := Nat.le_trans h (Nat.le_of_succ_le hm)
      have hnext := (isoWeek1Monday_succ hstart).1
      omega

theorem isoWeek1Monday_pos {year : Nat} (h : 1 ≤ year) : 1 ≤ isoWeek1Monday year := by
  have hfirst : daysBeforeYear 1 = 0 := rfl
  rcases Nat.lt_or_eq_of_le h with hlt | rfl
  · have hweek : 0 < 53 := by decide
    have hle := isoWeek1Monday_add_le (Nat.le_refl 1) hlt (.inl hweek)
    have hone : isoWeek1Monday 1 = 1 := by decide
    omega
  · decide

/-- The number of a date given by its week. -/
theorem ymd2ord_isoWeek {year week day : Nat} {d : Nat × Nat × Nat}
    (h : isoWeekToGregorian year week day = some d) :
    (1 ≤ year ∧ 1 ≤ week ∧ (week < 53 ∨ (week = 53 ∧ IsLong year)) ∧ 1 ≤ day ∧ day < 8) ∧
      ymd2ord d.1 d.2.1 d.2.2 = isoWeek1Monday year + ((week - 1) * 7 + (day - 1)) := by
  unfold isoWeekToGregorian at h
  simp only at h
  split at h
  · rename_i hvalid
    cases h
    have hpos := isoWeek1Monday_pos hvalid.1
    exact ⟨hvalid, ymd2ord_ord2ymd (by omega)⟩
  · cases h

/-- A later day of a later week of a later year. -/
theorem ymd2ord_isoWeek_lt {year week day year' week' day' : Nat} {d d' : Nat × Nat × Nat}
    (h : isoWeekToGregorian year week day = some d)
    (h' : isoWeekToGregorian year' week' day' = some d')
    (hlt : year < year' ∨ (year = year' ∧ (week < week' ∨ (week = week' ∧ day < day')))) :
    ymd2ord d.1 d.2.1 d.2.2 < ymd2ord d'.1 d'.2.1 d'.2.2 := by
  obtain ⟨⟨hyear, hweek, hlast, hday, hday'⟩, hord⟩ := ymd2ord_isoWeek h
  obtain ⟨⟨-, hweek', -, -, -⟩, hord'⟩ := ymd2ord_isoWeek h'
  rcases hlt with hlt | ⟨rfl, hlt⟩
  · have := isoWeek1Monday_add_le hyear hlt hlast
    omega
  · omega

/-- Passing a dash leaves the order. -/
theorem skipDash_order {hasSep : Bool} {s s' r r' : List Char} (hs : shape s = shape s')
    (h : skipDash hasSep s = some r) (h' : skipDash hasSep s' = some r') :
    shape r = shape r' ∧ (s < s' → r < r') := by
  have kept : ∀ {s r : List Char}, skipDash hasSep s = some r →
      (hasSep = true ∧ s = '-' :: r) ∨ (hasSep = false ∧ s = r) := by
    intro s r h
    unfold skipDash at h
    split at h <;> cases hasSep <;> simp at h <;> simp [h]
  rcases kept h with ⟨hsep, rfl⟩ | ⟨hsep, rfl⟩ <;> rcases kept h' with ⟨hsep', rfl⟩ | ⟨hsep', rfl⟩
  · exact ⟨(shape_cons_eq.mp hs).2, List.cons_lt_cons_self.mp⟩
  · rw [hsep] at hsep'
    cases hsep'
  · rw [hsep] at hsep'
    cases hsep'
  · exact ⟨hs, id⟩

/-- Passing a character that is in the shape leaves the order. -/
theorem drop_one_order {s s' : List Char} {x : Char} (hx : x.isDigit = false)
    (hs : shape s = shape s') (h : s.head? = some x) :
    s'.head? = some x ∧ shape (s.drop 1) = shape (s'.drop 1) ∧
      (s < s' → s.drop 1 < s'.drop 1) := by
  have h' : s'.head? = some x := by rwa [← head?_shape hx, ← hs, head?_shape hx]
  obtain ⟨t, rfl⟩ := List.head?_eq_some_iff.mp h
  obtain ⟨t', rfl⟩ := List.head?_eq_some_iff.mp h'
  exact ⟨rfl, (shape_cons_eq.mp hs).2, List.cons_lt_cons_self.mp⟩

theorem valid_of_validDate {d : Nat × Nat × Nat} (h : validDate d = true) :
    Valid d.1 d.2.1 d.2.2 := by
  simp only [validDate, decide_eq_true_eq] at h
  exact ⟨h.1, h.2.2.1, h.2.2.2.1, h.2.2.2.2.1, h.2.2.2.2.2⟩

section Dates

variable {s s' r r' : List Char} {d d' : Nat × Nat × Nat} {year year' : Nat} {hasSep : Bool}

theorem parseMonth_order (hs : shape s = shape s')
    (h : parseMonth year hasSep s = some (d, r)) (h' : parseMonth year' hasSep s' = some (d', r'))
    (hd : validDate d = true) (hd' : validDate d' = true)
    (hlt : year < year' ∨ (year = year' ∧ s < s')) :
    ymd2ord d.1 d.2.1 d.2.2 < ymd2ord d'.1 d'.2.1 d'.2.2 ∨ (d = d' ∧ r < r') := by
  simp only [parseMonth] at h h'
  obtain ⟨⟨month, q⟩, hmonth, h⟩ := Option.bind_eq_some_iff.mp h
  obtain ⟨⟨month', q'⟩, hmonth', h'⟩ := Option.bind_eq_some_iff.mp h'
  obtain ⟨u, hu, h⟩ := Option.bind_eq_some_iff.mp h
  obtain ⟨u', hu', h'⟩ := Option.bind_eq_some_iff.mp h'
  obtain ⟨⟨day, _⟩, hday, h⟩ := Option.bind_eq_some_iff.mp h
  obtain ⟨⟨day', _⟩, hday', h'⟩ := Option.bind_eq_some_iff.mp h'
  cases h
  cases h'
  obtain ⟨hq, months⟩ := takeNum_order hs hmonth hmonth'
  obtain ⟨hu, dashes⟩ := skipDash_order hq hu hu'
  obtain ⟨-, days⟩ := takeNum_order hu hday hday'
  have later := ymd2ord_lt (valid_of_validDate hd) (valid_of_validDate hd')
  rcases hlt with hlt | ⟨rfl, hlt⟩
  · exact .inl (later (.inl hlt))
  rcases months hlt with hlt | ⟨rfl, hlt⟩
  · exact .inl (later (.inr ⟨rfl, .inl hlt⟩))
  rcases days (dashes hlt) with hlt | ⟨rfl, hlt⟩
  · exact .inl (later (.inr ⟨rfl, .inr ⟨rfl, hlt⟩⟩))
  · exact .inr ⟨rfl, hlt⟩

theorem parseWeek_order (hs : shape s = shape s')
    (h : parseWeek year hasSep s = some (d, r)) (h' : parseWeek year' hasSep s' = some (d', r'))
    (hlt : year < year' ∨ (year = year' ∧ s < s')) :
    ymd2ord d.1 d.2.1 d.2.2 < ymd2ord d'.1 d'.2.1 d'.2.2 ∨ (d = d' ∧ r < r') := by
  simp only [parseWeek] at h h'
  obtain ⟨⟨week, q⟩, hweek, h⟩ := Option.bind_eq_some_iff.mp h
  obtain ⟨⟨week', q'⟩, hweek', h'⟩ := Option.bind_eq_some_iff.mp h'
  obtain ⟨hq, weeks⟩ := takeNum_order hs hweek hweek'
  have hempty : q = [] ↔ q' = [] := by
    rw [← List.length_eq_zero_iff, length_eq_of_shape hq, List.length_eq_zero_iff]
  simp only [hempty] at h
  split at h
  · rename_i hnil
    rw [if_pos hnil] at h'
    obtain ⟨g, hg, he⟩ := Option.map_eq_some_iff.mp h
    obtain ⟨g', hg', he'⟩ := Option.map_eq_some_iff.mp h'
    cases he
    cases he'
    have later := ymd2ord_isoWeek_lt hg hg'
    rcases hlt with hlt | ⟨rfl, hlt⟩
    · exact .inl (later (.inl hlt))
    rcases weeks hlt with hlt | ⟨rfl, hlt⟩
    · exact .inl (later (.inr ⟨rfl, .inl hlt⟩))
    · exact .inr ⟨Option.some.inj (hg.symm.trans hg'), hlt⟩
  · rename_i hnil
    rw [if_neg hnil] at h'
    obtain ⟨u, hu, h⟩ := Option.bind_eq_some_iff.mp h
    obtain ⟨u', hu', h'⟩ := Option.bind_eq_some_iff.mp h'
    obtain ⟨⟨day, _⟩, hday, h⟩ := Option.bind_eq_some_iff.mp h
    obtain ⟨⟨day', _⟩, hday', h'⟩ := Option.bind_eq_some_iff.mp h'
    obtain ⟨g, hg, he⟩ := Option.map_eq_some_iff.mp h
    obtain ⟨g', hg', he'⟩ := Option.map_eq_some_iff.mp h'
    cases he
    cases he'
    obtain ⟨hu, dashes⟩ := skipDash_order hq hu hu'
    obtain ⟨-, days⟩ := takeNum_order hu hday hday'
    have later := ymd2ord_isoWeek_lt hg hg'
    rcases hlt with hlt | ⟨rfl, hlt⟩
    · exact .inl (later (.inl hlt))
    rcases weeks hlt with hlt | ⟨rfl, hlt⟩
    · exact .inl (later (.inr ⟨rfl, .inl hlt⟩))
    rcases days (dashes hlt) with hlt | ⟨rfl, hlt⟩
    · exact .inl (later (.inr ⟨rfl, .inr ⟨rfl, hlt⟩⟩))
    · exact .inr ⟨Option.some.inj (hg.symm.trans hg'), hlt⟩

/-- Of two dates whose texts have one shape, the smaller text is the earlier date, or what is not
read of it is smaller. -/
theorem parseDate_order (hs : shape s = shape s') (h : parseDate s = some (d, r))
    (h' : parseDate s' = some (d', r')) (hd : validDate d = true) (hd' : validDate d' = true)
    (hlt : s < s') :
    ymd2ord d.1 d.2.1 d.2.2 < ymd2ord d'.1 d'.2.1 d'.2.2 ∨ (d = d' ∧ r < r') := by
  simp only [parseDate] at h h'
  obtain ⟨⟨year, q⟩, hyear, h⟩ := Option.bind_eq_some_iff.mp h
  obtain ⟨⟨year', q'⟩, hyear', h'⟩ := Option.bind_eq_some_iff.mp h'
  obtain ⟨hq, years⟩ := takeNum_order hs hyear hyear'
  have hdash : (q.head? = some '-') ↔ (q'.head? = some '-') := by
    rw [← head?_shape rfl, hq, head?_shape rfl]
  -- What follows the dash behind the year, if there is one.
  have hrest : shape (if q'.head? = some '-' then q.drop 1 else q) =
      shape (if q'.head? = some '-' then q'.drop 1 else q') ∧
        (q < q' → (if q'.head? = some '-' then q.drop 1 else q) <
          (if q'.head? = some '-' then q'.drop 1 else q')) := by
    split
    · rename_i hsep
      exact (drop_one_order rfl hq (hdash.mpr hsep)).2
    · exact ⟨hq, id⟩
  simp only [hdash] at h h'
  generalize (if q'.head? = some '-' then q.drop 1 else q) = u at h hrest
  generalize (if q'.head? = some '-' then q'.drop 1 else q') = u' at h' hrest
  obtain ⟨hu, rests⟩ := hrest
  have hstart : year < year' ∨ (year = year' ∧ u < u') := (years hlt).imp id (.imp id rests)
  have hweek : (u.head? = some 'W') ↔ (u'.head? = some 'W') := by
    rw [← head?_shape rfl, hu, head?_shape rfl]
  simp only [hweek] at h
  split at h
  · rename_i hW
    rw [if_pos hW] at h'
    obtain ⟨-, hv, drops⟩ := drop_one_order rfl hu (hweek.mpr hW)
    exact parseWeek_order hv h h' (hstart.imp id (.imp id drops))
  · rename_i hW
    rw [if_neg hW] at h'
    exact parseMonth_order hu h h' hd hd' hstart

end Dates

/-! ## Layouts -/

/-- A text up to the digits that are read as its date and its time of day. -/
structure Layout where
  /-- The text with a zero for each digit. -/
  shape : List Char
  /-- What is not read of the date. -/
  dateRest : List Char
  /-- What stands between the date and the time of day. -/
  separator : Option Char
  /-- What is not read of the time of day: decimals behind the sixth, for instance. -/
  unread : List Char
  /-- The offset from its sign on. -/
  offset : List Char
  deriving DecidableEq, Repr

/-- The layout of a text. -/
def layout (s : List Char) : Layout :=
  let sep := (findSeparator s).getD 0
  let time := (s.drop sep).drop 1
  let offset := time.dropWhile (!isSign ·)
  { shape := shape s
    dateRest := (parseDate (s.take sep)).elim [] Prod.snd
    separator := (s.drop sep).head?
    unread := (parseClock (offset.headD nul) (time.takeWhile (!isSign ·))).elim []
      ClockText.unread
    offset }

/-- The smaller of two texts is smaller in its first part, or alike in it and smaller behind. -/
theorem append_lt_cases {a b r s : List Char} (hlength : a.length = b.length)
    (h : a ++ r < b ++ s) : a < b ∨ (a = b ∧ r < s) := by
  induction a generalizing b with
  | nil =>
      obtain rfl := List.length_eq_zero_iff.mp hlength.symm
      exact .inr ⟨rfl, h⟩
  | cons c a ih =>
      cases b with
      | nil => cases hlength
      | cons d b =>
          rcases List.cons_lt_cons_iff.mp h with hlt | ⟨rfl, hrest⟩
          · exact .inl (List.cons_lt_cons_iff.mpr (.inl hlt))
          · refine (ih (Nat.succ.inj hlength) hrest).imp List.cons_lt_cons_self.mpr ?_
            exact fun ⟨he, hlt⟩ => ⟨congrArg (c :: ·) he, hlt⟩

/-- The offset that is read does not depend on the time of day. -/
theorem parseOffset_congr {leftover leftover' : Bool} {offset : List Char} {z z' : Option Int}
    (h : parseOffset leftover offset = some z) (h' : parseOffset leftover' offset = some z') :
    z = z' := by
  cases offset with
  | nil =>
      have none_of : ∀ {b : Bool} {z : Option Int}, parseOffset b [] = some z → z = none := by
        intro b z h
        cases b <;> cases h
        rfl
      rw [none_of h, none_of h']
  | cons sign zone => exact Option.some.inj (h.symm.trans h')

section Order

variable {s s' : List Char} {t t' : ClockText} {z z' : Option Int}

/-- Of two times of day of one shape with one offset, the smaller text is earlier, if the same is
not read. -/
theorem parseTime_order (hs : shape s = shape s') (h : parseTime s = some (t, z))
    (h' : parseTime s' = some (t', z'))
    (hoffset : s.dropWhile (!isSign ·) = s'.dropWhile (!isSign ·)) (hunread : t.unread = t'.unread)
    (ht : validClock t = true) (ht' : validClock t' = true) :
    z = z' ∧ (s < s' → clockMicros t < clockMicros t') := by
  have hclock := shape_takeWhile hs
  have happend := List.takeWhile_append_dropWhile (p := (!isSign ·)) (l := s)
  have happend' := List.takeWhile_append_dropWhile (p := (!isSign ·)) (l := s')
  rw [hoffset] at happend
  simp only [parseTime, hoffset] at h h'
  obtain ⟨_, hu, h⟩ := Option.bind_eq_some_iff.mp h
  obtain ⟨_, hu', h'⟩ := Option.bind_eq_some_iff.mp h'
  obtain ⟨_, hz, h⟩ := Option.bind_eq_some_iff.mp h
  obtain ⟨_, hz', h'⟩ := Option.bind_eq_some_iff.mp h'
  cases h
  cases h'
  refine ⟨parseOffset_congr hz hz', fun hlt => ?_⟩
  obtain ⟨hparts, horder⟩ := parseParts_order hclock hu hu'
  obtain ⟨hthree, hmicros⟩ := parseParts_bounds hu
  have hparted : s.takeWhile (!isSign ·) ++ s'.dropWhile (!isSign ·) <
      s'.takeWhile (!isSign ·) ++ s'.dropWhile (!isSign ·) := by rwa [happend, happend']
  rcases append_lt_cases (length_eq_of_shape hclock) hparted with hlt | ⟨-, hlt⟩
  · exact (horder hunread hlt).clockMicros_lt hparts hthree ht ht' hmicros
  · exact absurd hlt (List.lt_irrefl _)

theorem parseTime_unread (h : parseTime s = some (t, z)) :
    (parseClock ((s.dropWhile (!isSign ·)).headD nul) (s.takeWhile (!isSign ·))).elim []
      ClockText.unread = t.unread := by
  simp only [parseTime] at h
  obtain ⟨_, hu, h⟩ := Option.bind_eq_some_iff.mp h
  obtain ⟨_, -, h⟩ := Option.bind_eq_some_iff.mp h
  cases h
  rw [hu, Option.elim_some]

theorem parseTime_bounds (h : parseTime s = some (t, z)) : t.micros < 1000000 := by
  simp only [parseTime] at h
  obtain ⟨_, hu, h⟩ := Option.bind_eq_some_iff.mp h
  obtain ⟨_, -, h⟩ := Option.bind_eq_some_iff.mp h
  cases h
  exact (parseParts_bounds hu).2

/-- What a layout holds of the time of day. -/
theorem parseRest_unread (h : parseRest s = some (t, z)) :
    (parseClock (((s.drop 1).dropWhile (!isSign ·)).headD nul)
      ((s.drop 1).takeWhile (!isSign ·))).elim [] ClockText.unread = t.unread := by
  cases s with
  | nil =>
      cases h
      rfl
  | cons c s => exact parseTime_unread h

/-- A time of day is within its day. -/
theorem parseRest_lt_day (h : parseRest s = some (t, z)) (ht : validClock t = true) :
    clockMicros t < 86400 * 1000000 := by
  cases s with
  | nil =>
      cases h
      decide
  | cons c s => exact clockMicros_lt_day ht (parseTime_bounds h)

/-- Behind one separator and with one offset, the smaller text has the earlier time of day. -/
theorem parseRest_order (hs : shape s = shape s') (h : parseRest s = some (t, z))
    (h' : parseRest s' = some (t', z')) (hhead : s.head? = s'.head?)
    (hoffset : (s.drop 1).dropWhile (!isSign ·) = (s'.drop 1).dropWhile (!isSign ·))
    (hunread : t.unread = t'.unread) (ht : validClock t = true) (ht' : validClock t' = true) :
    z = z' ∧ (s < s' → clockMicros t < clockMicros t') := by
  cases s with
  | nil =>
      cases s' with
      | nil =>
          obtain ⟨-, hz⟩ := Prod.mk.inj (Option.some.inj h)
          obtain ⟨-, hz'⟩ := Prod.mk.inj (Option.some.inj h')
          exact ⟨hz.symm.trans hz', fun hlt => absurd hlt (List.lt_irrefl _)⟩
      | cons c' s' => cases hhead
  | cons c s =>
      cases s' with
      | nil => cases hhead
      | cons c' s' =>
          obtain rfl : c = c' := Option.some.inj hhead
          obtain ⟨hz, horder⟩ :=
            parseTime_order (shape_cons_eq.mp hs).2 h h' hoffset hunread ht ht'
          exact ⟨hz, fun hlt => horder (List.cons_lt_cons_self.mp hlt)⟩

end Order

/-- A text that is read, by its parts. -/
structure Reads (s : List Char) (d : DateTime) (sep : Nat) (date : Nat × Nat × Nat)
    (dateRest : List Char) (time : ClockText) : Prop where
  separator : findSeparator s = some sep
  dateText : parseDate (s.take sep) = some (date, dateRest)
  timeText : parseRest (s.drop sep) = some (time, d.offset)
  validDate : validDate date = true
  validClock : validClock time = true
  clock : d.clock = (ymd2ord date.1 date.2.1 date.2.2 - 1) * 86400 * 1000000 + clockMicros time

theorem reads_of_fromisoformat {raw : String} {d : DateTime} (h : fromisoformat raw = some d) :
    ∃ sep date dateRest time, Reads raw.toList d sep date dateRest time := by
  simp only [fromisoformat] at h
  split at h
  · cases h
  obtain ⟨sep, hsep, h⟩ := Option.bind_eq_some_iff.mp h
  obtain ⟨⟨date, dateRest⟩, hdate, h⟩ := Option.bind_eq_some_iff.mp h
  obtain ⟨⟨time, offset⟩, htime, h⟩ := Option.bind_eq_some_iff.mp h
  split at h
  · rename_i hvalid
    have hd := Option.some.inj h
    refine ⟨sep, date, dateRest, time, hsep, hdate, ?_, hvalid.1, hvalid.2, ?_⟩
    · rw [← hd, htime]
    · rw [← hd]
  · cases h

/-- Two texts of one layout have one offset, and the smaller has the earlier clock. -/
theorem clock_lt_of_layout {raw raw' : String} {d d' : DateTime}
    (hlayout : layout raw.toList = layout raw'.toList) (h : fromisoformat raw = some d)
    (h' : fromisoformat raw' = some d') :
    d.offset = d'.offset ∧ (raw < raw' → d.clock < d'.clock) := by
  obtain ⟨sep, date, dateRest, time, hr⟩ := reads_of_fromisoformat h
  obtain ⟨sep', date', dateRest', time', hr'⟩ := reads_of_fromisoformat h'
  rw [String.lt_iff_toList_lt]
  generalize raw.toList = s at *
  generalize raw'.toList = s' at *
  have hs : shape s = shape s' := congrArg Layout.shape hlayout
  obtain rfl : sep = sep' := by
    rw [← Option.some.injEq, ← hr.separator, ← findSeparator_shape, hs, findSeparator_shape,
      hr'.separator]
  simp only [layout, hr.separator, hr'.separator, hr.dateText, hr'.dateText, Option.getD_some,
    Option.elim_some, Layout.mk.injEq] at hlayout
  obtain ⟨-, hrest, hseparator, hunread, hoffset⟩ := hlayout
  obtain rfl : dateRest = dateRest' := hrest
  rw [parseRest_unread hr.timeText, parseRest_unread hr'.timeText] at hunread
  obtain ⟨hz, hclock⟩ := parseRest_order (shape_drop hs sep) hr.timeText hr'.timeText hseparator
    hoffset hunread hr.validClock hr'.validClock
  have hday := parseRest_lt_day hr.timeText hr.validClock
  refine ⟨hz, fun hlt => ?_⟩
  rw [hr.clock, hr'.clock]
  have htake := shape_take hs sep
  rw [← List.take_append_drop sep s, ← List.take_append_drop sep s'] at hlt
  rcases append_lt_cases (length_eq_of_shape htake) hlt with hlt | ⟨he, hlt⟩
  · have hpos := (valid_of_validDate hr.validDate)
    rcases parseDate_order htake hr.dateText hr'.dateText hr.validDate hr'.validDate hlt with hord | ⟨-, hlt⟩
    · have : 1 ≤ ymd2ord date.1 date.2.1 date.2.2 := by
        have := hpos.day_pos
        unfold ymd2ord
        omega
      omega
    · exact absurd hlt (List.lt_irrefl _)
  · have hdate := hr.dateText
    rw [he, hr'.dateText] at hdate
    cases hdate
    have := hclock hlt
    omega

end Foundations.Iso
