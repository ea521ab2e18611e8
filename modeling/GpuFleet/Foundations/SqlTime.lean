import GpuFleet.Foundations.IsoFormat

/-!
# Time stamps in SQL

The reader behind SQLite's `datetime` function, for texts that begin with a
date.  A moment is a number of seconds since the beginning of the year 1, and a
date may lie in the year 0.  Fractions of seconds are passed over, as in the
text the function returns, and the order of two such texts is that of the
moments.

The reader also knows times of day alone, day numbers and the word `now`, which
are left out.
-/

namespace Foundations.SqlTime

open Foundations.Iso Foundations.Calendar

/-- A number of two digits up to a bound. -/
def num (max : Nat) (s : List Char) : Option (Nat × List Char) :=
  (takeNum 2 s).filter fun (n, _) => n ≤ max

def isSpace (c : Char) : Bool :=
  c = ' ' ∨ c = '\t' ∨ c = '\n' ∨ c = '\x0b' ∨ c = '\x0c' ∨ c = '\r'

/-- Hours and minutes. -/
def hoursMinutes (maxHours : Nat) (s : List Char) : Option (Nat × List Char) :=
  match num maxHours s with
  | some (hours, ':' :: s) => (num 59 s).map fun (minutes, s) => (hours * 60 + minutes, s)
  | _ => none

/-- The offset at the end of a text, in minutes. -/
def zone (s : List Char) : Option Int :=
  match s.dropWhile isSpace with
  | [] => some 0
  | c :: s =>
      if c = 'Z' ∨ c = 'z' then if s.all isSpace then some 0 else none
      else if c = '+' ∨ c = '-' then
        match hoursMinutes 14 s with
        | some (minutes, s) =>
            if s.all isSpace then some (if c = '+' then minutes else -minutes) else none
        | none => none
      else none

/-- Pass over a fraction. -/
def skipFraction : List Char → List Char
  | '.' :: d :: s => if d.isDigit then s.dropWhile Char.isDigit else '.' :: d :: s
  | s => s

/-- Seconds, if there are any, and the text after their fraction. -/
def seconds : List Char → Option (Nat × List Char)
  | ':' :: s => (num 59 s).map fun (n, s) => (n, skipFraction s)
  | s => some (0, s)

/-- A time of day with its offset, in seconds. -/
def timeOfDay (s : List Char) : Option Int :=
  match hoursMinutes 24 s with
  | some (minutes, s) =>
      match seconds s with
      | some (n, s) => (zone s).map fun offset => minutes * 60 + n - offset * 60
      | none => none
  | none => none

/-- The seconds of a date.  The first day of a month and the days after it count. -/
def dateSeconds (year month day : Nat) : Int :=
  ((daysBeforeYear (year + 400) + daysBeforeMonth (isLeap year) month + day : Nat) - 146098) * 86400

/-- A date, and the text after it. -/
def date (s : List Char) : Option (Int × List Char) :=
  match takeNum 4 s with
  | some (year, '-' :: s) =>
      match num 12 s with
      | some (month, '-' :: s) =>
          match num 31 s with
          | some (day, s) =>
              if 1 ≤ month ∧ 1 ≤ day then some (dateSeconds year month day, s) else none
          | none => none
      | _ => none
  | _ => none

/-- `datetime(raw)` -/
def datetime (raw : String) : Option Int :=
  match date raw.toList with
  | some (n, s) =>
      match s.dropWhile fun c => isSpace c || c = 'T' with
      | [] => some n
      | s => ((timeOfDay s).map fun time => n + time).filter fun t => t < maxSeconds
  | none => none

/-! ## Reading back -/

theorem num_pad {max n : Nat} (hn : n < 10 ^ 2) (hmax : n ≤ max) (r : List Char) :
    num max (pad 2 n ++ r) = some (n, r) := by
  rw [num, takeNum_pad hn, Option.filter_some, if_pos (decide_eq_true hmax)]

theorem hoursMinutes_pad {hours minutes max : Nat} (hh : hours < 10 ^ 2) (hmax : hours ≤ max)
    (hm : minutes ≤ 59) (r : List Char) :
    hoursMinutes max (pad 2 hours ++ ':' :: (pad 2 minutes ++ r)) =
      some (hours * 60 + minutes, r) := by
  rw [hoursMinutes, num_pad hh hmax]
  simp only [num_pad (show minutes < 10 ^ 2 by omega) hm, Option.map_some]

theorem timeOfDay_pad {hours minutes secs : Nat} (hh : hours ≤ 23) (hm : minutes ≤ 59)
    (hs : secs ≤ 59) :
    timeOfDay (pad 2 hours ++ ':' :: (pad 2 minutes ++ ':' :: (pad 2 secs ++
      ['+', '0', '0', ':', '0', '0']))) =
        some (((hours * 60 + minutes) * 60 + secs : Nat) : Int) := by
  have hzone : zone ['+', '0', '0', ':', '0', '0'] = some 0 := by decide
  have hseconds : seconds (':' :: (pad 2 secs ++ ['+', '0', '0', ':', '0', '0'])) =
      some (secs, ['+', '0', '0', ':', '0', '0']) := by
    rw [seconds, num_pad (show secs < 10 ^ 2 by omega) hs]
    rfl
  rw [timeOfDay, hoursMinutes_pad (by omega) (by omega) hm]
  simp only [hseconds, hzone, Option.map_some]
  simp

theorem date_pad {year month day : Nat} (hy : year < 10 ^ 4) (hm : 1 ≤ month) (hm' : month ≤ 12)
    (hd : 1 ≤ day) (hd' : day ≤ 31) (r : List Char) :
    date (pad 4 year ++ '-' :: (pad 2 month ++ '-' :: (pad 2 day ++ r))) =
      some (dateSeconds year month day, r) := by
  rw [date, takeNum_pad hy]
  simp only [num_pad (show month < 10 ^ 2 by omega) hm', num_pad (show day < 10 ^ 2 by omega) hd']
  rw [if_pos ⟨hm, hd⟩]

theorem dateSeconds_eq {year month day : Nat} (hy : 1 ≤ year) :
    dateSeconds year month day = ((ymd2ord year month day : Int) - 1) * 86400 := by
  have hcycle : daysBeforeYear (year + 400) = daysBeforeYear year + 146097 := by
    simp only [daysBeforeYear]
    omega
  rw [dateSeconds, hcycle, ymd2ord]
  omega

theorem monthLength_le (year month : Nat) : monthLength year month ≤ 31 := by
  unfold monthLength daysInMonth
  split
  · decide
  · split <;> decide

theorem dropWhile_pad {n : Nat} (hn : n < 10 ^ 2) (r : List Char) :
    (pad 2 n ++ r).dropWhile (fun c => isSpace c || c = 'T') = pad 2 n ++ r := by
  have hdigit : ∀ d < 10, (isSpace (digit d) || digit d = 'T') = false := by decide
  rw [pad, List.cons_append, List.dropWhile_cons_of_neg]
  rw [hdigit _ (by omega)]
  decide

/-- The text of a moment is read as the moment. -/
theorem datetime_isoformat {sec : Nat} (h : sec < maxSeconds) :
    datetime (isoformat sec) = some (sec : Int) := by
  obtain ⟨hy, -, -⟩ := fields_lt h
  have hvalid := ord2ymd_valid (Nat.le_add_left 1 (sec / 86400))
  have hord := ymd2ord_ord2ymd (Nat.le_add_left 1 (sec / 86400))
  have hrest : sec % 86400 < 86400 := Nat.mod_lt _ (by decide)
  rw [datetime, isoformat, String.toList_ofList, isoChars]
  generalize ord2ymd (sec / 86400 + 1) = ymd at *
  obtain ⟨year, month, day⟩ := ymd
  obtain ⟨vy, vm, vm', vd, vd'⟩ := hvalid
  simp only at *
  have hday : day ≤ 31 := Nat.le_trans vd' (monthLength_le year month)
  have hsecs : ((sec % 86400 / 3600 * 60 + sec % 86400 % 3600 / 60) * 60 + sec % 86400 % 60 : Nat) =
      sec % 86400 := by omega
  rw [date_pad hy vm vm' vd hday]
  simp only
  rw [List.dropWhile_cons_of_pos (by decide), dropWhile_pad (by omega)]
  split
  · rename_i heq
    exact absurd heq (by simp [pad])
  · rw [timeOfDay_pad (by omega) (by omega) (by omega), dateSeconds_eq vy, hord, hsecs]
    have hsum : ((sec / 86400 + 1 : Nat) - 1 : Int) * 86400 + (sec % 86400 : Nat) = sec := by omega
    rw [Option.map_some, hsum, Option.filter_some, if_pos (by simpa using h)]

end Foundations.SqlTime
