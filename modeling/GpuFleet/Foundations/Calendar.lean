import Mathlib.Order.Basic
import Mathlib.Tactic.IntervalCases

/-!
# The proleptic Gregorian calendar

Days are counted from 1 January of year 1, which is day 1.  `ymd2ord` numbers
a date and `ord2ymd` finds the date of a number, both by the arithmetic of the
standard library's `datetime` module: cycles of 400, 100, 4 and 1 years, then a
first guess of the month that is at most one too late.

`ymd2ord_ord2ymd` says the two are inverse on day numbers, and `ord2ymd_lt` that
a later day has a later date in the lexicographic order.
-/

namespace Foundations.Calendar

/-- A leap year of the Gregorian calendar. -/
def isLeap (year : Nat) : Bool := year % 4 = 0 ∧ (year % 100 ≠ 0 ∨ year % 400 = 0)

/-- The days before 1 January of a year. -/
def daysBeforeYear (year : Nat) : Nat :=
  let y := year - 1
  y * 365 + y / 4 - y / 100 + y / 400

/-- The days of a month in a common year. -/
def daysInMonth : Nat → Nat
  | 1 => 31 | 2 => 28 | 3 => 31 | 4 => 30 | 5 => 31 | 6 => 30
  | 7 => 31 | 8 => 31 | 9 => 30 | 10 => 31 | 11 => 30 | 12 => 31
  | _ => 0

/-- The days of a month. -/
def monthLength (year month : Nat) : Nat :=
  if month = 2 ∧ isLeap year then 29 else daysInMonth month

/-- The days of a common year before a month. -/
def cumulativeDays : Nat → Nat
  | 1 => 0 | 2 => 31 | 3 => 59 | 4 => 90 | 5 => 120 | 6 => 151
  | 7 => 181 | 8 => 212 | 9 => 243 | 10 => 273 | 11 => 304 | 12 => 334
  | _ => 0

/-- The days of a year before a month. -/
def daysBeforeMonth (leap : Bool) (month : Nat) : Nat :=
  cumulativeDays month + if month > 2 ∧ leap then 1 else 0

/-- The number of a date. -/
def ymd2ord (year month day : Nat) : Nat :=
  daysBeforeYear year + daysBeforeMonth (isLeap year) month + day

/-- The month and the day of the month of day `n` of a year, counted from 0. -/
def monthDay (leap : Bool) (n : Nat) : Nat × Nat :=
  let month := (n + 50) / 32
  if daysBeforeMonth leap month > n then
    (month - 1, n - daysBeforeMonth leap (month - 1) + 1)
  else (month, n - daysBeforeMonth leap month + 1)

/-- The date of a number. -/
def ord2ymd (ord : Nat) : Nat × Nat × Nat :=
  let n := ord - 1
  let n400 := n / 146097
  let n := n % 146097
  let n100 := n / 36524
  let n := n % 36524
  let n4 := n / 1461
  let n := n % 1461
  let n1 := n / 365
  let n := n % 365
  let year := n400 * 400 + 1 + n100 * 100 + n4 * 4 + n1
  if n1 = 4 ∨ n100 = 4 then (year - 1, 12, 31)
  else
    let (month, day) := monthDay (isLeap year) n
    (year, month, day)

/-! ## The month -/

/-- In a year of 365 or 366 days the month and day found number the day. -/
theorem monthDay_spec :
    ∀ leap : Bool, ∀ n < 365 + leap.toNat, 1 ≤ (monthDay leap n).1 ∧ (monthDay leap n).1 ≤ 12 ∧
      1 ≤ (monthDay leap n).2 ∧ (monthDay leap n).2 ≤ 31 ∧
      daysBeforeMonth leap (monthDay leap n).1 + (monthDay leap n).2 = n + 1 ∧
      (monthDay leap n).2 ≤ (if (monthDay leap n).1 = 2 ∧ leap then 29
        else daysInMonth (monthDay leap n).1) := by
  decide +kernel

/-- Within a year, a later month begins after every day of an earlier one. -/
theorem daysBeforeMonth_add_le :
    ∀ leap : Bool, ∀ m < 13, ∀ m' < 13, 1 ≤ m → m < m' →
      daysBeforeMonth leap m + (if m = 2 ∧ leap then 29 else daysInMonth m) ≤
        daysBeforeMonth leap m' := by
  decide

theorem daysBeforeMonth_add_le_year :
    ∀ leap : Bool, ∀ m < 13, 1 ≤ m →
      daysBeforeMonth leap m + (if m = 2 ∧ leap then 29 else daysInMonth m) ≤
        365 + leap.toNat := by
  decide

/-! ## The year -/

/-- A date of the calendar. -/
structure Valid (year month day : Nat) : Prop where
  /-- Years are counted from 1. -/
  year_pos : 1 ≤ year
  /-- Months are counted from 1. -/
  month_pos : 1 ≤ month
  /-- There are twelve. -/
  month_le : month ≤ 12
  /-- Days are counted from 1. -/
  day_pos : 1 ≤ day
  /-- The month is long enough. -/
  day_le : day ≤ monthLength year month

theorem daysBeforeYear_cycle (q r : Nat) :
    daysBeforeYear (400 * q + r + 1) = 146097 * q + daysBeforeYear (r + 1) := by
  unfold daysBeforeYear
  simp only [Nat.add_sub_cancel]
  omega

theorem isLeap_cycle (q r : Nat) : isLeap (400 * q + r + 1) = isLeap (r + 1) := by
  have h4 : (400 * q + r + 1) % 4 = (r + 1) % 4 := by omega
  have h100 : (400 * q + r + 1) % 100 = (r + 1) % 100 := by omega
  have h400 : (400 * q + r + 1) % 400 = (r + 1) % 400 := by omega
  unfold isLeap
  rw [h4, h100, h400]

/-- A year has 365 or 366 days. -/
theorem daysBeforeYear_succ {year : Nat} (h : 1 ≤ year) :
    daysBeforeYear (year + 1) = daysBeforeYear year + 365 + (isLeap year).toNat := by
  -- Both sides repeat every 400 years, so one cycle is enough.
  have cycle : ∀ r < 400,
      daysBeforeYear (r + 1 + 1) = daysBeforeYear (r + 1) + 365 + (isLeap (r + 1)).toNat := by
    decide +kernel
  obtain ⟨q, r, hr, rfl⟩ : ∃ q r, r < 400 ∧ year = 400 * q + r + 1 :=
    ⟨(year - 1) / 400, (year - 1) % 400, Nat.mod_lt _ (by decide), by omega⟩
  have hnext := daysBeforeYear_cycle q (r + 1)
  rw [← Nat.add_assoc] at hnext
  rw [isLeap_cycle, daysBeforeYear_cycle, hnext, cycle r hr]
  omega

theorem daysBeforeYear_mono {a b : Nat} (h : a ≤ b) : daysBeforeYear a ≤ daysBeforeYear b := by
  induction h with
  | refl => exact Nat.le_refl _
  | @step m _ ih =>
      refine Nat.le_trans ih ?_
      rcases Nat.eq_zero_or_pos m with rfl | hm
      · exact Nat.zero_le _
      · rw [daysBeforeYear_succ hm]
        omega

/-- A date lies within its year. -/
theorem ymd2ord_le {year month day : Nat} (h : Valid year month day) :
    ymd2ord year month day ≤ daysBeforeYear (year + 1) := by
  have hy := daysBeforeYear_succ h.year_pos
  have hm := daysBeforeMonth_add_le_year (isLeap year) month (by have := h.month_le; omega)
    h.month_pos
  have hd := h.day_le
  unfold monthLength at hd
  unfold ymd2ord
  omega

/-- A later date has a greater number. -/
theorem ymd2ord_lt {y m d y' m' d' : Nat} (h : Valid y m d) (h' : Valid y' m' d')
    (hlt : y < y' ∨ (y = y' ∧ (m < m' ∨ (m = m' ∧ d < d')))) :
    ymd2ord y m d < ymd2ord y' m' d' := by
  rcases hlt with hy | ⟨rfl, hm | ⟨rfl, hd⟩⟩
  · have h₁ := ymd2ord_le h
    have h₂ : daysBeforeYear (y + 1) ≤ daysBeforeYear y' := daysBeforeYear_mono hy
    have h₃ := h'.day_pos
    unfold ymd2ord at h₁ ⊢
    omega
  · have h₁ := daysBeforeMonth_add_le (isLeap y) m (by have := h.month_le; omega) m'
      (by have := h'.month_le; omega) h.month_pos hm
    have h₂ := h.day_le
    have h₃ := h'.day_pos
    unfold monthLength at h₂
    unfold ymd2ord
    omega
  · unfold ymd2ord
    omega

/-! ## Dates of numbers -/

/-- The days before a year that is given by its cycles. -/
theorem daysBeforeYear_cycles (a b c d : Nat) (hb : b ≤ 3) (hc : c ≤ 24) (hd : d ≤ 3) :
    daysBeforeYear (a * 400 + 1 + b * 100 + c * 4 + d) =
      a * 146097 + b * 36524 + c * 1461 + d * 365 := by
  have hy : a * 400 + 1 + b * 100 + c * 4 + d - 1 = 400 * a + 100 * b + 4 * c + d := by omega
  have h4 : (400 * a + 100 * b + 4 * c + d) / 4 = 100 * a + 25 * b + c := by omega
  have h100 : (400 * a + 100 * b + 4 * c + d) / 100 = 4 * a + b := by omega
  have h400 : (400 * a + 100 * b + 4 * c + d) / 400 = a := by omega
  unfold daysBeforeYear
  simp only [hy, h4, h100, h400]
  omega

/-- The last day of a leap year numbers itself. -/
theorem ymd2ord_last {year : Nat} (h : 1 ≤ year) (hleap : isLeap year = true) :
    ymd2ord year 12 31 = daysBeforeYear year + 366 ∧ Valid year 12 31 := by
  refine ⟨?_, h, by decide, by decide, by decide, by simp [monthLength, daysInMonth]⟩
  unfold ymd2ord
  rw [hleap]
  rfl

theorem ord2ymd_valid_and_inverse {n : Nat} (h : 1 ≤ n) :
    Valid (ord2ymd n).1 (ord2ymd n).2.1 (ord2ymd n).2.2 ∧
      ymd2ord (ord2ymd n).1 (ord2ymd n).2.1 (ord2ymd n).2.2 = n := by
  unfold ord2ymd
  simp only
  generalize ha : (n - 1) / 146097 = a
  generalize hra : (n - 1) % 146097 = ra
  generalize hb : ra / 36524 = b
  generalize hrb : ra % 36524 = rb
  generalize hc : rb / 1461 = c
  generalize hrc : rb % 1461 = rc
  generalize hd : rc / 365 = d
  generalize hrd : rc % 365 = rd
  have hc24 : c ≤ 24 := by omega
  have hb4 : b ≤ 4 := by omega
  have hd4 : d ≤ 4 := by omega
  by_cases hlast : d = 4 ∨ b = 4
  · -- The last day of a leap year that ends a cycle of 4 or of 400 years.
    simp only [if_pos hlast]
    obtain ⟨b', c', hb', hc', hyear, hn, hmod⟩ : ∃ b' c', b' ≤ 3 ∧ c' ≤ 24 ∧
        a * 400 + 1 + b * 100 + c * 4 + d - 1 = a * 400 + 1 + b' * 100 + c' * 4 + 3 ∧
        a * 146097 + b' * 36524 + c' * 1461 + 3 * 365 + 366 = n ∧
        (b' = 3 ∨ c' < 24) := by
      rcases hlast with hd | hb
      · exact ⟨b, c, by omega, hc24, by omega, by omega, by omega⟩
      · exact ⟨3, 24, by omega, by omega, by omega, by omega, by omega⟩
    rw [hyear]
    have hleap : isLeap (a * 400 + 1 + b' * 100 + c' * 4 + 3) = true := by
      unfold isLeap
      simp only [decide_eq_true_eq]
      omega
    obtain ⟨hord, hvalid⟩ := ymd2ord_last (by omega) hleap
    refine ⟨hvalid, ?_⟩
    rw [hord, daysBeforeYear_cycles a b' c' 3 hb' hc' (by omega)]
    exact hn
  · simp only [if_neg hlast]
    have hdays := daysBeforeYear_cycles a b c d (by omega) hc24 (by omega)
    obtain ⟨year, hyear⟩ : ∃ year, a * 400 + 1 + b * 100 + c * 4 + d = year := ⟨_, rfl⟩
    rw [hyear] at hdays ⊢
    obtain ⟨h₁, h₂, h₃, -, h₅, h₆⟩ := monthDay_spec (isLeap year) rd (by omega)
    refine ⟨⟨by omega, h₁, h₂, h₃, h₆⟩, ?_⟩
    unfold ymd2ord
    omega

/-- The date of a number is a date. -/
theorem ord2ymd_valid {n : Nat} (h : 1 ≤ n) :
    Valid (ord2ymd n).1 (ord2ymd n).2.1 (ord2ymd n).2.2 :=
  (ord2ymd_valid_and_inverse h).1

/-- The number of the date of a number is that number. -/
theorem ymd2ord_ord2ymd {n : Nat} (h : 1 ≤ n) :
    ymd2ord (ord2ymd n).1 (ord2ymd n).2.1 (ord2ymd n).2.2 = n :=
  (ord2ymd_valid_and_inverse h).2

/-- A later day has a later date. -/
theorem ord2ymd_lt {a b : Nat} (ha : 1 ≤ a) (hab : a < b) :
    (ord2ymd a).1 < (ord2ymd b).1 ∨
      ((ord2ymd a).1 = (ord2ymd b).1 ∧
        ((ord2ymd a).2.1 < (ord2ymd b).2.1 ∨
          ((ord2ymd a).2.1 = (ord2ymd b).2.1 ∧ (ord2ymd a).2.2 < (ord2ymd b).2.2))) := by
  have hb : 1 ≤ b := by omega
  by_contra hnot
  have hle : (ord2ymd b) = (ord2ymd a) ∨ (ord2ymd b).1 < (ord2ymd a).1 ∨
      ((ord2ymd b).1 = (ord2ymd a).1 ∧
        ((ord2ymd b).2.1 < (ord2ymd a).2.1 ∨
          ((ord2ymd b).2.1 = (ord2ymd a).2.1 ∧ (ord2ymd b).2.2 < (ord2ymd a).2.2))) := by
    simp only [Prod.ext_iff]
    omega
  have ea := ymd2ord_ord2ymd ha
  have eb := ymd2ord_ord2ymd hb
  rcases hle with heq | hlt
  · rw [heq] at eb
    omega
  · have := ymd2ord_lt (ord2ymd_valid hb) (ord2ymd_valid ha) hlt
    omega

/-- The days of the years 1 to 9999 have dates in these years. -/
theorem ord2ymd_year_le {n : Nat} (h : 1 ≤ n) (hmax : n ≤ 3652059) : (ord2ymd n).1 ≤ 9999 := by
  by_contra hnot
  have hmono : daysBeforeYear 10000 ≤ daysBeforeYear (ord2ymd n).1 :=
    daysBeforeYear_mono (by omega)
  have h10000 : daysBeforeYear 10000 = 3652059 := by decide
  have e := ymd2ord_ord2ymd h
  have hd := (ord2ymd_valid h).day_pos
  unfold ymd2ord at e
  omega

end Foundations.Calendar
