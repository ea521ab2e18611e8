import GpuFleet.Foundations.IsoFormat
import GpuFleet.Server.Statements

/-!
# Task vocabulary and clocks

The sets of statuses and task types that the handlers consult, the rules for
work directories and timeouts, and the time stamps handlers write and parse.

A clock reading is a number of microseconds, as in `Foundations.Iso`.  Where a
handler reads the clock twice in a row, the model takes one reading for both.
-/

namespace GpuFleet

open Foundations

/-! ## Statuses -/

/-- `RESULT_ACCEPTING_TASK_STATUSES` -/
def TaskStatus.acceptsResult (s : TaskStatus) : Bool := s.isActive

/-- The events a node reports for a task. -/
inductive NodeEvent where
  | claimed | running | cancelled | failed | timeout | succeeded | lost
  deriving DecidableEq, Repr

/-- The status an event leads to. -/
def NodeEvent.status : NodeEvent → TaskStatus
  | .claimed => .claimed
  | .running => .running
  | .cancelled => .cancelled
  | .failed => .failed
  | .timeout => .timeout
  | .succeeded => .succeeded
  | .lost => .lost

/-- The word for an event. -/
def NodeEvent.text (e : NodeEvent) : String := e.status.text

/-- `TASK_EVENT_TRANSITIONS`: the statuses an event is accepted in. -/
def taskEventTransitions : NodeEvent → TaskStatus → Bool
  | .claimed, s => s = .claimed
  | .running, s => s = .claimed || s = .running
  | _, s => s = .cancelRequested || s = .running || s = .claimed

/-- Events are accepted in active statuses only. -/
theorem isActive_of_taskEventTransitions {e : NodeEvent} {s : TaskStatus}
    (h : taskEventTransitions e s = true) : s.isActive = true := by
  cases e <;> cases s <;> first | rfl | simp [taskEventTransitions] at h

theorem not_isTerminal_of_isActive {s : TaskStatus} (h : s.isActive = true) :
    s.isTerminal = false := by
  cases s <;> first | rfl | cases h

/-! ## Types -/

/-- `TASK_TYPE_LEVEL_L2`: the high-risk types. -/
def TaskType.isL2 : TaskType → Bool
  | .shell | .pythonScript | .modalCommand => true
  | _ => false

/-- `SHELL_TASK_TYPES` -/
def TaskType.isShell : TaskType → Bool
  | .shell | .pythonScript => true
  | _ => false

/-- `MODAL_TASK_TYPES`, which are also `MODAL_ONLY_TASK_TYPES`. -/
def TaskType.isModal : TaskType → Bool
  | .modalCommand => true
  | _ => false

/-- `MODAL_RUNNER_ALLOWED_TASK_TYPES` -/
def TaskType.runsOnModal : TaskType → Bool
  | .modalCommand | .healthCheck => true
  | _ => false

/-- `DEFAULT_TIMEOUT_BY_TYPE`, with the default for the other types. -/
def defaultTimeout : TaskType → Nat
  | .healthCheck => 300
  | .gitPull => 600
  | .pipInstall => 1200
  | .downloadFile => 900
  | .uploadAndUnpack => 1800
  | .modalCommand => 7200
  | _ => 3600

/-- `normalize_timeout` -/
def normalizeTimeout (type : TaskType) (timeoutSec : Option Nat) : Nat :=
  timeoutSec.getD (defaultTimeout type)

/-- Cut a text at a character. -/
def splitOnChar (sep : Char) : List Char → List (List Char)
  | [] => [[]]
  | c :: s =>
      match splitOnChar sep s with
      | [] => [[c]]
      | w :: ws => if c = sep then [] :: w :: ws else (c :: w) :: ws

/-- `PurePath(raw).parts`: the root, if there is one, and the parts between slashes. -/
def pathParts (raw : String) : List (List Char) :=
  let chars := raw.toList
  let root : List (List Char) :=
    match chars with
    | '/' :: '/' :: '/' :: _ => [['/']]
    | ['/', '/'] | '/' :: '/' :: _ => [['/', '/']]
    | '/' :: _ => [['/']]
    | _ => []
  root ++ (splitOnChar '/' chars).filter fun w => w ≠ [] ∧ w ≠ ['.']

/-- `ensure_workdir_allowed` -/
def ensureWorkdirAllowed (workdir : Option String) (allowedWorkdirs : List String) : Bool :=
  match workdir with
  | none => true
  | some workdir =>
      workdir = "" || allowedWorkdirs.isEmpty ||
        allowedWorkdirs.any fun allowed => (pathParts allowed).isPrefixOf (pathParts workdir)

/-! ## Clocks -/

/-- The text of a clock reading, cut to whole seconds. -/
def utcNowIso (now : Nat) : String := Iso.isoformat (now / 1000000)

/-- The value when it is there and not empty, as Python's `or` takes it. -/
def orElse (value : Option String) (default : String) : String :=
  match value with
  | none => default
  | some s => if s = "" then default else s

theorem orElse_some_self (s : String) : orElse (some s) s = s := by
  rw [orElse]
  split <;> rfl

/-- Go on with the result of a computation outside the database, or raise its exception. -/
def ofExcept {α : Type} : Except Exc α → Tx α
  | .ok a => .ret a
  | .error e => .raise e

/-- The moment of a parsed date and time; without an offset it is a UTC time. -/
def momentOf (d : Iso.DateTime) : Int := d.clock - d.offset.getD 0

/-- `datetime.fromisoformat` with a UTC default. -/
def parseMoment (raw : String) : Except Exc Int :=
  match Iso.fromisoformat raw with
  | none => .error .value
  | some d => .ok (momentOf d)

/-- `.astimezone(UTC)`, which has no times before year 1 or after year 9999. -/
def toUtc (moment : Int) : Except Exc Int :=
  if 0 ≤ moment ∧ moment < Iso.maxMicros then .ok moment else .error .overflow

/-- `_parse_utc_or_none` -/
def parseUtcOrNone (raw : Option String) : Except Exc (Option Int) :=
  match raw with
  | none => .ok none
  | some raw =>
      if raw = "" then .ok none else ((parseMoment raw).bind toUtc).map some

/-- The moment of the second a clock reading lies in. -/
def wholeSecond (now : Nat) : Nat := now / 1000000 * 1000000

theorem wholeSecond_le (now : Nat) : wholeSecond now ≤ now := Nat.div_mul_le_self ..

theorem toUtc_natCast {m : Nat} (h : m < Iso.maxMicros) : toUtc (m : Int) = .ok (m : Int) :=
  if_pos ⟨Int.natCast_nonneg _, Int.ofNat_lt.mpr h⟩

/-- What a handler writes as the current time is read back as that second. -/
theorem parseMoment_utcNowIso {now : Nat} (h : now < Iso.maxMicros) :
    parseMoment (utcNowIso now) = .ok (wholeSecond now : Int) := by
  rw [parseMoment, utcNowIso, Iso.fromisoformat_isoformat (Iso.seconds_lt h)]
  simp only [momentOf, Option.getD_some, Int.sub_zero, wholeSecond]

theorem utcNowIso_ne_empty {now : Nat} (h : now < Iso.maxMicros) : utcNowIso now ≠ "" := by
  intro he
  have hp := parseMoment_utcNowIso h
  rw [he] at hp
  simp [parseMoment, Iso.fromisoformat] at hp

theorem parseUtcOrNone_of_moment {raw : String} {m : Nat} (hraw : raw ≠ "")
    (hp : parseMoment raw = .ok (m : Int)) (hm : m < Iso.maxMicros) :
    parseUtcOrNone (some raw) = .ok (some (m : Int)) := by
  rw [parseUtcOrNone, if_neg hraw, hp, Except.bind, toUtc_natCast hm, Except.map]

theorem parseUtcOrNone_utcNowIso {now : Nat} (h : now < Iso.maxMicros) :
    parseUtcOrNone (some (utcNowIso now)) = .ok (some (wholeSecond now : Int)) :=
  parseUtcOrNone_of_moment (utcNowIso_ne_empty h) (parseMoment_utcNowIso h)
    (Nat.lt_of_le_of_lt (wholeSecond_le now) h)

end GpuFleet
