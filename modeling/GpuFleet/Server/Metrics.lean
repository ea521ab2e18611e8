import GpuFleet.Foundations.Writes
import GpuFleet.Server.Attempts
import GpuFleet.Server.Lifecycle
import GpuFleet.Server.ScanPass

/-!
# The metrics of transitions

`transition_task` and `finalize_task_result` call `_record_task_transition_metrics` after each
update of theirs that names a target status, with the row they read before it.  The operations
run one after another, so the row is the one the update finds, and what is observed is a
function of the statements that an operation executes (`TaskStmt.observed`).

The statements of `claim_next_task_for_node` and `sync_reported_active_task`, which take a task
from `pending` to `claimed`, are not among them.

In every run each task that ends is counted once (`completions_counted`).  What happens to the
claims is in `Server.ClaimLatency`.
-/

namespace GpuFleet

open Foundations

/-! ## Observations -/

/-- What is recorded, with the task it is recorded for, which the metrics themselves forget. -/
inductive Observation where
  /-- `TASK_CLAIM_LATENCY_SECONDS.observe` -/
  | claimLatency (taskId : String) (latency : Int)
  /-- `TASK_COMPLETED_TOTAL.inc` -/
  | completed (taskId result : String)
  /-- `TASK_DURATION_SECONDS.observe` -/
  | duration (taskId result : String) (duration : Int)

namespace Observation

/-- The counter of completed tasks is incremented for the task. -/
def completes (taskId : String) : Observation → Bool
  | completed id _ => id = taskId
  | _ => false

/-- The latency of a claim of the task is observed. -/
def timesClaim (taskId : String) : Observation → Bool
  | claimLatency id _ => id = taskId
  | _ => false

end Observation

/-- `_seconds_between`, in microseconds.  The difference of a time with an offset and one
without raises a `TypeError`, and then nothing is observed either. -/
def secondsBetween (start finish : Option String) : Option Int := do
  let start ← start.filter (· ≠ "")
  let finish ← finish.filter (· ≠ "")
  let finish ← Iso.fromisoformat finish
  let start ← Iso.fromisoformat start
  if start.offset.isSome = finish.offset.isSome then
    some (max 0 (momentOf finish - momentOf start))
  else none

/-- `_terminal_result` -/
def terminalResult : TaskStatus → String
  | .succeeded => "success"
  | .timeout | .reviewExpired => "timeout"
  | .lost => "lost"
  | .cancelled => "cancelled"
  | _ => "fail"

/-- `_record_task_transition_metrics` -/
def recordTaskTransitionMetrics (row : Task) (targetStatus : TaskStatus) (observedAt : String) :
    List Observation :=
  let result := terminalResult targetStatus
  (if targetStatus = .claimed then
    ((secondsBetween (some row.createdAt) (some observedAt)).map
      (.claimLatency row.taskId)).toList
  else []) ++
  if targetStatus.isTerminal then
    .completed row.taskId result ::
      ((secondsBetween row.claimedAt (some observedAt)).map (.duration row.taskId result)).toList
  else []

/-- What is recorded for the row that is found under an id. -/
def recordFor (tasks : Table Task) (taskId : String) (targetStatus : TaskStatus)
    (observedAt : String) : List Observation :=
  (tasks.get? taskId).elim [] fun row => recordTaskTransitionMetrics row targetStatus observedAt

/-- What is recorded after a statement, in an operation that takes `nowIso` as its time. -/
def TaskStmt.observed (nowIso : String) (tasks : Table Task) : TaskStmt → List Observation
  | setEvent taskId status _ finishedAt =>
      recordFor tasks taskId status (orElse finishedAt nowIso)
  | setCancelled taskId finishedAt => recordFor tasks taskId .cancelled finishedAt
  | setRejected taskId _ nowIso => recordFor tasks taskId .rejected nowIso
  | setReviewExpired taskId nowIso => recordFor tasks taskId .reviewExpired nowIso
  | setBackground taskId status finishedAt => recordFor tasks taskId status finishedAt
  | q@(setResult taskId status _ finishedAt _) =>
      -- Only the result that is locked in is recorded.
      if q.rowcount tasks = 1 then recordFor tasks taskId status.status finishedAt else []
  | _ => []

def Dml.observed (nowIso : String) (s : Dml × Db) : List Observation :=
  match s.1 with
  | .task q => q.observed nowIso s.2.tasks
  | _ => []

section Runs

variable (settings : Settings) (crypto : Crypto)

/-- What an operation records, run alone. -/
def SystemOp.observations (op : SystemOp) (db : Db) (x : World) : List Observation :=
  ((op.code settings crypto).writes db x).flatMap (Dml.observed (utcNowIso op.now))

/-- What a run of operations records. -/
def observations (db : Db) (x : World) : List SystemOp → List Observation
  | [] => []
  | op :: ops =>
      let p := op.code settings crypto
      op.observations settings crypto db x ++
        observations (p.dbAfter db x) (p.outsideAfter db x) ops

/-- The step claims the task. -/
def Step.claims (taskId : String) (s : Step) : Bool :=
  statusOf taskId s.before = some .pending && statusOf taskId s.after = some .claimed

/-- The step leaves the task with a terminal status. -/
def Step.leavesEnded (taskId : String) (s : Step) : Bool :=
  (statusOf taskId s.after).any TaskStatus.isTerminal

/-- The counter of completed tasks has been incremented once for each task that has reached a
terminal status, and for no other. -/
def CountsCompletions (db : Db) (x : World) (ops : List SystemOp) : Prop :=
  ∀ taskId, (observations settings crypto db x ops).countP (Observation.completes taskId) =
    if (steps settings crypto db x ops).any (Step.leavesEnded taskId) then 1 else 0

/-- The latency of a claim has been observed once for each claim of each task. -/
def CountsClaims (db : Db) (x : World) (ops : List SystemOp) : Prop :=
  ∀ taskId, (observations settings crypto db x ops).countP (Observation.timesClaim taskId) =
    (steps settings crypto db x ops).countP (Step.claims taskId)

end Runs

/-! ## Statements -/

/-- One if the task has a terminal status, and zero if not. -/
def ended (taskId : String) (db : Db) : Nat :=
  if (statusOf taskId db).any TaskStatus.isTerminal then 1 else 0

/-- The row that the statement updates, if it is found, is one the statement is meant for. -/
def TaskStmt.Fits (tasks : Table Task) : TaskStmt → Prop
  | insert row => row.status.isTerminal = false
  | setEvent taskId .. | setCancelled taskId _ | setCancelRequested taskId _
  | setBackground taskId .. | setReported taskId _ =>
      ∀ row ∈ tasks.get? taskId, row.status.isTerminal = false
  | setRejected taskId .. | setReviewExpired taskId _ =>
      ∀ row ∈ tasks.get? taskId, row.status = .reviewing
  | _ => True

def Fits : Dml → Db → Prop
  | .task q, db => q.Fits db.tasks
  | _, _ => True

section Statements

variable {db : Db} {taskId nowIso : String}

theorem countP_of_map {p : Observation → Bool} {f : Int → Observation} (h : ∀ i, p (f i) = false)
    (value : Option Int) : (value.map f).toList.countP p = 0 := by
  cases value with
  | none => rfl
  | some i => simp [h]

theorem count_recordFor (tasks : Table Task) (id : String) (status : TaskStatus)
    (observedAt : String) :
    (recordFor tasks id status observedAt).countP (Observation.completes taskId) =
      if id = taskId ∧ (tasks.get? id).isSome = true ∧ status.isTerminal = true then 1 else 0 := by
  rw [recordFor]
  cases hrow : tasks.get? id with
  | none => simp
  | some row =>
      have hkey : row.taskId = id := Table.get?_key hrow
      have hlatency : (if status = .claimed then
          ((secondsBetween (some row.createdAt) (some observedAt)).map
            (.claimLatency row.taskId)).toList
          else []).countP (Observation.completes taskId) = 0 := by
        split
        · exact countP_of_map (fun _ => rfl) _
        · rfl
      rw [Option.elim_some, recordTaskTransitionMetrics, List.countP_append, hlatency, hkey]
      cases status.isTerminal with
      | false => simp
      | true =>
          rw [if_pos rfl, List.countP_cons, countP_of_map fun _ => rfl]
          simp [Observation.completes]

theorem ended_eq : ended taskId db =
    if (db.tasks.get? taskId).any fun row => row.status.isTerminal then 1 else 0 := by
  rw [ended, statusOf, Option.any_map]

theorem ended_update {q : TaskStmt} (h : ∀ row, q ≠ .insert row) :
    ended taskId (Statement.apply (Dml.task q) db) =
      if (db.tasks.get? taskId).any fun row =>
        (if q.selects db.tasks row then q.edit row else row).status.isTerminal then 1 else 0 := by
  rw [ended_eq, apply_tasks_task, TaskStmt.get?_apply h, Option.any_map]

theorem observed_task (q : TaskStmt) :
    Dml.observed nowIso (.task q, db) = q.observed nowIso db.tasks := rfl

/-- An update that is not recorded neither ends a task nor takes an end back. -/
theorem counts_unrecorded {q : TaskStmt} (h : ∀ row, q ≠ .insert row)
    (hobserved : q.observed nowIso db.tasks = [])
    (hedit : ∀ row ∈ db.tasks.rows, q.selects db.tasks row = true →
      (q.edit row).status.isTerminal = row.status.isTerminal) :
    (Dml.observed nowIso (.task q, db)).countP (Observation.completes taskId) + ended taskId db =
      ended taskId (Statement.apply (Dml.task q) db) := by
  have hkept : ∀ row ∈ db.tasks.get? taskId,
      (if q.selects db.tasks row then q.edit row else row).status.isTerminal =
        row.status.isTerminal := by
    intro row hrow
    split
    · exact hedit row (Table.get?_mem hrow) ‹_›
    · rfl
  rw [observed_task, hobserved, ended_update h, ended_eq]
  cases hrow : db.tasks.get? taskId with
  | none => rfl
  | some row => simp [hkept row hrow]

/-- An update that is recorded ends the task it selects by the id, if the status is terminal. -/
theorem counts_recorded {q : TaskStmt} (h : ∀ row, q ≠ .insert row) {id observedAt : String}
    {status : TaskStatus} (hobserved : q.observed nowIso db.tasks =
      recordFor db.tasks id status observedAt)
    (hedit : ∀ row ∈ db.tasks.get? id, q.selects db.tasks row = true ∧
      row.status.isTerminal = false ∧ (q.edit row).status = status)
    (hother : ∀ row, q.selects db.tasks row = true → row.taskId = id) :
    (Dml.observed nowIso (.task q, db)).countP (Observation.completes taskId) + ended taskId db =
      ended taskId (Statement.apply (Dml.task q) db) := by
  rw [observed_task, hobserved, count_recordFor, ended_update h, ended_eq]
  cases hrow : db.tasks.get? taskId with
  | none =>
      have hne : ¬ (id = taskId ∧ (db.tasks.get? id).isSome = true ∧ status.isTerminal = true) := by
        rintro ⟨rfl, hsome, -⟩
        rw [hrow] at hsome
        cases hsome
      simp [hne]
  | some row =>
      by_cases hid : id = taskId
      · subst hid
        obtain ⟨hsel, hlive, hstatus⟩ := hedit row hrow
        simp [hrow, hsel, hlive, hstatus]
      · have hsel : q.selects db.tasks row = false := by
          by_contra hsel
          exact hid ((hother row (by simpa using hsel)).symm.trans (Table.get?_key hrow))
        simp [hid, hsel]

/-- A result is counted when it is locked in. -/
theorem counts_setResult (id : String) (status : FinalStatus)
    (startedAt finishedAt lockedAt : String) :
    let q := TaskStmt.setResult id status startedAt finishedAt lockedAt
    (Dml.observed nowIso (.task q, db)).countP (Observation.completes taskId) + ended taskId db =
      ended taskId (Statement.apply (Dml.task q) db) := by
  intro q
  have hins : ∀ row, q ≠ .insert row := by simp [q]
  have hother : ∀ row, q.selects db.tasks row = true → row.taskId = id := fun row hsel => by
    simp only [q, TaskStmt.selects, Bool.and_eq_true, decide_eq_true_eq] at hsel
    exact hsel.1.1
  have hobserved : q.observed nowIso db.tasks =
      if q.rowcount db.tasks = 1 then recordFor db.tasks id status.status finishedAt else [] := rfl
  cases hrow : db.tasks.get? id with
  | none =>
      refine counts_unrecorded hins ?_ fun row hmem hsel => ?_
      · rw [hobserved, recordFor, hrow]
        simp
      · have hget := Table.get?_of_mem hmem
        rw [show Row.key row = id from hother row hsel, hrow] at hget
        cases hget
  | some row =>
      rcases rowcount_setResult hrow status startedAt finishedAt lockedAt with
        ⟨hone, hlock, hactive⟩ | ⟨hzero, hsame⟩
      · refine counts_recorded hins (hobserved.trans (if_pos hone)) (fun row' hrow' => ?_) hother
        cases hrow.symm.trans hrow'
        refine ⟨?_, not_isTerminal_of_isActive hactive, rfl⟩
        simp [q, TaskStmt.selects, show row.taskId = id from Table.get?_key hrow, hlock, hactive]
      · have hnone : q.observed nowIso db.tasks = [] :=
          hobserved.trans (if_neg (by rw [hzero]; exact Nat.zero_ne_one))
        rw [observed_task, hnone, ended_eq, ended_eq, apply_tasks_task, hsame, List.countP_nil,
          Nat.zero_add]

/-- A statement that fits ends the tasks that are counted after it, and no other. -/
theorem Fits.counts {q : Dml} (h : Fits q db) :
    (Dml.observed nowIso (q, db)).countP (Observation.completes taskId) + ended taskId db =
      ended taskId (Statement.apply q db) := by
  cases q with
  | task q =>
      have byId : ∀ {id : String} {row : Task}, row ∈ db.tasks.get? id →
          decide (row.taskId = id) = true := fun hrow => decide_eq_true (Table.get?_key hrow)
      have live : ∀ {row : Task}, row.status = .reviewing → row.status.isTerminal = false := by
        intro row hs
        rw [hs]
        rfl
      cases q with
      | insert row =>
          have hnone : Dml.observed nowIso (.task (.insert row), db) = [] := rfl
          rw [hnone, ended_eq, ended_eq, apply_tasks_task, List.countP_nil, Nat.zero_add]
          rcases TaskStmt.get?_insert row db.tasks taskId with hsame | ⟨hold, hnew, -⟩
          · rw [hsame]
          · have hlive : (row.inserted (db.tasks.seq + 1)).status.isTerminal = false := h
            simp [hold, hnew, hlive]
      | setEvent id status =>
          exact counts_recorded (by intro _ h; cases h) rfl
            (fun row hrow => ⟨byId hrow, h row hrow, rfl⟩) fun row => of_decide_eq_true
      | setCancelled id =>
          exact counts_recorded (by intro _ h; cases h) rfl
            (fun row hrow => ⟨byId hrow, h row hrow, rfl⟩) fun row => of_decide_eq_true
      | setBackground id =>
          exact counts_recorded (by intro _ h; cases h) rfl
            (fun row hrow => ⟨byId hrow, h row hrow, rfl⟩) fun row => of_decide_eq_true
      | setRejected id | setReviewExpired id =>
          refine counts_recorded (by intro _ h; cases h) rfl (fun row hrow => ?_) fun row hsel => ?_
          · have hs := h row hrow
            refine ⟨?_, live hs, rfl⟩
            rw [TaskStmt.selects, byId hrow, hs]
            rfl
          · simp only [TaskStmt.selects, Bool.and_eq_true, decide_eq_true_eq] at hsel
            exact hsel.1
      | setCancelRequested id | setReported id =>
          refine counts_unrecorded (by intro _ h; cases h) rfl fun row hrow hsel => ?_
          have hid : row.taskId = id := of_decide_eq_true hsel
          exact (h row (hid ▸ Table.get?_of_mem hrow)).symm
      | setEscalated => exact counts_unrecorded (by intro _ h; cases h) rfl fun _ _ _ => rfl
      | setApproved =>
          refine counts_unrecorded (by intro _ h; cases h) rfl fun row _ hsel => ?_
          simp only [TaskStmt.selects, Bool.and_eq_true, decide_eq_true_eq] at hsel
          exact (live hsel.2).symm
      | claimNext =>
          refine counts_unrecorded (by intro _ h; cases h) rfl fun row _ hsel => ?_
          simp only [TaskStmt.selects, Bool.and_eq_true, decide_eq_true_eq] at hsel
          rw [hsel.2]
          rfl
      | setResult id status startedAt finishedAt lockedAt => exact counts_setResult ..
  | _ => exact Nat.zero_add _

end Statements

/-! ## Programs -/

/-- The databases have the same ended tasks. -/
def SameEnds (start w : Db) : Prop := ∀ taskId, ended taskId w = ended taskId start

/-- Run alone from the database, the program executes statements that fit, and a task that it
ends is not taken back by an exception. -/
def Accounts {α : Type} (p : Tx α) (start : Db) : Prop :=
  p.wp Fits (fun _ w => SameEnds start w) (fun _ _ => True) start

section Programs

variable {start : Db}

/-- A statement of no kind ends no task. -/
theorem fits_of_kind {op : SystemOp} {q : Dml} {w : Db} (h : Permitted op start q w)
    (hkind : q.kind = none) : Fits q w ∧ SameEnds w (Statement.apply q w) := by
  have hfits : Fits q w := by
    cases q with
    | task q =>
        cases q with
        | insert row =>
            obtain ⟨⟨payload, ctx, taskId, key, -, -, -, -, rfl⟩, -⟩ := h
            show (newTask ..).status.isTerminal = false
            rcases admissionOf_waits payload.type ctx.review (utcNowIso ctx.now)
              (utcNowIso ctx.reviewedAt) with hs | hs <;> rw [newTask, hs] <;> rfl
        | setReported taskId =>
            obtain ⟨⟨-, old, payload, now, -, -, -, -, hold, hpending⟩, hsame⟩ := h
            intro row hrow
            rw [hsame.resolve_right Bool.false_ne_true, hold] at hrow
            cases hrow
            rw [hpending]
            rfl
        | setEvent | setCancelled | setCancelRequested | setRejected | setReviewExpired
        | setBackground | setResult => cases hkind
        | setEscalated | setApproved | claimNext => trivial
    | _ => trivial
  refine ⟨hfits, fun taskId => ?_⟩
  have hcounts : (Dml.observed "" (q, w)).countP (Observation.completes taskId) +
      ended taskId w = ended taskId (Statement.apply q w) := hfits.counts
  have hnone : Dml.observed "" (q, w) = [] := by
    cases q with
    | task q => cases q <;> first | rfl | cases hkind
    | _ => rfl
  rw [hnone, List.countP_nil, Nat.zero_add] at hcounts
  exact hcounts.symm

/-- An operation that issues no statement of a kind ends no task. -/
theorem accounts_of_kinds (settings : Settings) (crypto : Crypto) {op : SystemOp}
    (h : op.kinds = []) : Accounts (op.code settings crypto) start := by
  have hcode := Prog.wp_avoids (@SystemOp.code_wp start settings crypto op)
    (op.code_issues settings crypto)
  have hfits : ∀ q w, (Permitted op start q w ∧ ¬ ∃ k ∈ q.kind, k ∉ op.kinds) →
      Fits q w ∧ SameEnds w (Statement.apply q w) := by
    rintro q w ⟨hq, hkind⟩
    refine fits_of_kind hq (Option.eq_none_iff_forall_not_mem.mpr fun k hk => hkind ⟨k, hk, ?_⟩)
    simp [h]
  have hinv := Prog.wp_inv (I := SameEnds start) hcode
    (fun q w hq hw taskId => ((hfits q w hq).2 taskId).trans (hw taskId)) fun _ => rfl
  exact Prog.wp_mono hinv (fun q w hq => (hfits q w hq).1) (fun _ _ he => he.2) fun _ _ _ => trivial

/-- An update that fits, and then the row again. -/
theorem update_accounts {exn : Exc → Db → Prop} {post : Task → Db → Prop} {q : TaskStmt} {w : Db}
    {taskId : String} (h : ∀ row, q ≠ .insert row) (hfits : q.Fits w.tasks)
    (hrow : (w.tasks.get? taskId).isSome = true)
    (hpost : ∀ row, post row { w with tasks := q.apply w.tasks }) :
    (Prog.execute (.task q) >>= fun _ => getTaskRow taskId).wp Fits exn post w := by
  refine ⟨hfits, ?_⟩
  show (getTaskRow taskId).wp Fits exn post { w with tasks := q.apply w.tasks }
  obtain ⟨row, hrow⟩ := Option.isSome_iff_exists.mp hrow
  rw [getTaskRow_wp, TaskStmt.get?_apply h, hrow]
  exact hpost _

/-- A transition that raises has changed nothing.  The scanner's transitions are of tasks that
have not ended. -/
theorem transitionTask_accounts {exn : Exc → Db → Prop} {post : Task → Db → Prop}
    {taskId : String} {event : TransitionEvent} {args : TransitionArgs} {w : Db}
    (hlive : event = .backgroundTimeout ∨ event = .backgroundLost →
      ∀ row ∈ w.tasks.get? taskId, row.status.isTerminal = false)
    (hexn : ∀ e, exn e w)
    (hpost : ∀ (q : TaskStmt) row, post row { w with tasks := q.apply w.tasks }) :
    (transitionTask taskId event args).wp Fits exn post w := by
  rw [transitionTask, Prog.wp_bind, getTaskRow_wp]
  cases hrow : w.tasks.get? taskId with
  | none => exact hexn _
  | some row =>
      have hsome : (w.tasks.get? taskId).isSome = true := by rw [hrow]; rfl
      have fits : ∀ {p : Task → Prop}, p row → ∀ r ∈ w.tasks.get? taskId, p r := by
        intro p hp r hr
        cases hrow.symm.trans hr
        exact hp
      cases event with
      | node e =>
          simp only [applyNodeEvent]
          split
          · exact hexn _
          · rename_i hacc
            have hactive := isActive_of_taskEventTransitions (by simpa using hacc : _ = true)
            exact update_accounts (by intro _ h; cases h)
              (fits (not_isTerminal_of_isActive hactive)) hsome (hpost _)
      | cancel =>
          simp only [applyCancel]
          split
          · exact hexn _
          · rename_i hterm
            have hlive : row.status.isTerminal = false := by simpa using hterm
            split
            · exact update_accounts (by intro _ h; cases h) (fits hlive) hsome (hpost _)
            · split
              · exact update_accounts (by intro _ h; cases h) (fits hlive) hsome (hpost _)
              · exact hexn _
      | reviewEscalate =>
          simp only
          split
          · exact hexn _
          · split
            · exact hexn _
            · exact update_accounts (by intro _ h; cases h) trivial hsome (hpost _)
      | reviewApprove =>
          simp only
          split
          · exact hexn _
          · exact update_accounts (by intro _ h; cases h) trivial hsome (hpost _)
      | reviewReject | reviewExpire =>
          simp only
          split
          · exact hexn _
          · rename_i hstatus
            have hstatus : row.status = .reviewing := Decidable.not_not.mp hstatus
            exact update_accounts (by intro _ h; cases h) (fits hstatus) hsome (hpost _)
      | backgroundTimeout =>
          exact update_accounts (by intro _ h; cases h)
            (fits (hlive (Or.inl rfl) row hrow)) hsome (hpost _)
      | backgroundLost =>
          exact update_accounts (by intro _ h; cases h)
            (fits (hlive (Or.inr rfl) row hrow)) hsome (hpost _)

theorem catchTaskState_accounts {α : Type} {R : Db → Prop} {post : α → Db → Prop} {p : Tx α}
    {handler : String → Exc} {w : Db} (hp : p.wp Fits (fun _ w => R w) post w) :
    (catchTaskState p fun m => .raise (handler m)).wp Fits (fun _ w => R w) post w := by
  rw [catchTaskState, Prog.wp_tryCatch]
  refine Prog.wp_mono hp (fun _ _ => id) (fun e w hw => ?_) fun _ _ => id
  cases e <;> exact hw

theorem upsertTaskAttempt_accounts {exn : Exc → Db → Prop} {post : Unit → Db → Prop}
    {taskId nodeId status : String} {args : AttemptArgs} {w : Db} (hpost : ∀ w, post () w) :
    (upsertTaskAttempt taskId nodeId status args).wp Fits exn post w := by
  rw [upsertTaskAttempt, Prog.wp_bind, Prog.wp_query]
  cases firstBy (fun a b => a.id > b.id) (w.attempts.select fun row => row.taskId = taskId) <;>
    exact ⟨trivial, hpost _⟩

theorem taskEvents_accounts (nodeId : String) (payload : NodeTaskEventRequest) (now : Nat) :
    Accounts (taskEvents nodeId payload now) start := by
  rw [taskEvents, Accounts, Prog.wp_bind]
  refine loadTaskForNode_wp nodeId payload.taskId (fun _ _ => rfl) fun _ _ => ?_
  rw [Prog.wp_bind]
  refine catchTaskState_accounts
    (transitionTask_accounts (by simp) (fun _ _ => rfl) fun q row => ?_)
  rw [Prog.wp_bind]
  exact upsertTaskAttempt_accounts fun _ => trivial

theorem finalizeTaskResult_accounts {post : Task × Bool → Db → Prop} {taskId : String}
    {status : FinalStatus} {startedAt finishedAt nowIso : String} (hpost : ∀ r w, post r w) :
    (finalizeTaskResult taskId status startedAt finishedAt nowIso).wp Fits
      (fun _ w => SameEnds start w) post start := by
  rw [finalizeTaskResult, Prog.wp_bind, getTaskRow_wp]
  cases hrow : start.tasks.get? taskId with
  | none => exact fun _ => rfl
  | some row =>
      simp only
      split
      · exact fun _ => rfl
      · simp only [Prog.executeReturning_bind, Prog.wp_write]
        refine ⟨trivial, ?_⟩
        have hget : ∃ new, (Statement.apply (Dml.task
            (.setResult taskId status startedAt finishedAt nowIso)) start).tasks.get? taskId =
              some new := by
          rw [apply_tasks_task, TaskStmt.get?_apply (by intro _ h; cases h), hrow]
          exact ⟨_, rfl⟩
        obtain ⟨new, hnew⟩ := hget
        split
        · rename_i hrows
          rw [Prog.wp_bind, getTaskRow_wp, hnew]
          have hsame : SameEnds start (Statement.apply (Dml.task
              (.setResult taskId status startedAt finishedAt nowIso)) start) := by
            intro id
            rcases rowcount_setResult hrow status startedAt finishedAt nowIso with
              ⟨hone, -⟩ | ⟨-, hsame⟩
            · exact absurd hone hrows
            · rw [ended_eq, ended_eq, apply_tasks_task, hsame]
          simp only
          split
          · exact hpost _ _
          · exact hsame
        · rw [Prog.wp_bind, getTaskRow_wp, hnew]
          exact hpost _ _

theorem taskResult_accounts (nodeId : String) (payload : NodeTaskResultRequest) (now : Nat) :
    Accounts (taskResult nodeId payload now) start := by
  rw [taskResult, Accounts, Prog.wp_bind]
  refine loadTaskForNode_wp nodeId payload.taskId (fun _ _ => rfl) fun _ _ => ?_
  rw [Prog.wp_bind]
  refine catchTaskState_accounts (finalizeTaskResult_accounts fun r w => ?_)
  obtain ⟨row, duplicate⟩ := r
  simp only
  split
  · trivial
  · rw [Prog.wp_bind]
    refine upsertTaskAttempt_accounts fun w => ?_
    rw [reconnect]
    show Prog.wp _ _ _ _ w
    split
    · exact fun _ => trivial
    · trivial

/-- A read and a transition, as the handlers of administrators make them, and then a program that
ends no task. -/
theorem readThenTransition_accounts {α : Type} {taskId : String} {event : TransitionEvent}
    {args : TransitionArgs} {handler : String → Exc} {rest : Task × Task → Tx α}
    (hevent : ¬ (event = .backgroundTimeout ∨ event = .backgroundLost))
    (hrest : ∀ r w, (rest r).wp Fits (fun _ w => SameEnds start w) (fun _ _ => True) w) :
    Accounts (catchTaskState (do
      let row ← getTaskRow taskId
      let saved ← transitionTask taskId event args
      pure (row, saved)) (fun m => .raise (handler m)) >>= rest) start := by
  rw [Accounts, Prog.wp_bind]
  refine catchTaskState_accounts ?_
  rw [Prog.wp_bind, getTaskRow_wp]
  cases start.tasks.get? taskId with
  | none => exact fun _ => rfl
  | some row =>
      simp only
      rw [Prog.wp_bind]
      exact transitionTask_accounts (fun h => absurd h hevent) (fun _ _ => rfl) fun _ _ =>
        hrest _ _

theorem cancelTask_accounts (taskId : String) (admin : Admin) (now : Nat) :
    Accounts (cancelTask taskId admin now) start :=
  readThenTransition_accounts (by simp) fun _ _ => ⟨trivial, trivial⟩

theorem rejectReview_accounts (taskId : String) (note : Option String) (admin : Admin) (now : Nat) :
    Accounts (rejectReview taskId note admin now) start :=
  readThenTransition_accounts (by simp) fun _ _ => ⟨trivial, trivial, trivial, trivial⟩

/-- The reviews that a pass has still to expire. -/
structure Expiring (rest : List String) (w : Db) : Prop where
  distinct : rest.Nodup
  reviewing : ∀ taskId ∈ rest, ∃ row, w.tasks.get? taskId = some row ∧ row.status = .reviewing

/-- The end of one review leaves the others. -/
theorem Expiring.expire {taskId : String} {rest : List String} {w w' : Db} {nowIso : String}
    (h : Expiring (taskId :: rest) w)
    (hw : w'.tasks = (TaskStmt.setReviewExpired taskId nowIso).apply w.tasks) :
    Expiring rest w' := by
  obtain ⟨hfresh, hdistinct⟩ := List.nodup_cons.mp h.distinct
  refine ⟨hdistinct, fun id hid => ?_⟩
  obtain ⟨row, hrow, hstatus⟩ := h.reviewing id (List.mem_cons_of_mem _ hid)
  have hkey : row.taskId = id := Table.get?_key hrow
  have hsel : (TaskStmt.setReviewExpired taskId nowIso).selects w.tasks row = false := by
    have hne : row.taskId ≠ taskId := by
      rintro heq
      exact hfresh (heq ▸ hkey ▸ hid)
    simp [TaskStmt.selects, hne]
  refine ⟨row, ?_, hstatus⟩
  rw [hw, TaskStmt.get?_apply (by intro _ h; cases h), hrow, Option.map_some, hsel]
  rfl

/-- An expiry pass finds every review it expires. -/
theorem expireReviewingTasks_accounts (now : Nat) : Accounts (expireReviewingTasks now) start := by
  have hstart : Expiring ((start.tasks.select fun row =>
      row.status = .reviewing && row.reviewStartedAt.any
        (· < utcNowIso (now - 30 * 60 * 1000000))).map Task.taskId) start := by
    refine ⟨start.tasks.unique.sublist (List.filter_sublist.map _), fun id hid => ?_⟩
    obtain ⟨row, hrow, rfl⟩ := List.mem_map.mp hid
    obtain ⟨hmem, hsel⟩ := List.mem_filter.mp hrow
    simp only [Bool.and_eq_true, decide_eq_true_eq] at hsel
    exact ⟨row, Table.get?_of_mem hmem, hsel.1⟩
  rw [expireReviewingTasks, Accounts, Prog.wp_bind, Prog.wp_query]
  refine Prog.wp_imp (Prog.wp_forEach (I := Expiring) (fun taskId rest w hw => ?_) hstart)
    fun _ _ _ => trivial
  obtain ⟨row, hrow, hstatus⟩ := hw.reviewing taskId (List.mem_cons_self ..)
  rw [Prog.wp_bind, transitionTask, Prog.wp_bind, getTaskRow_wp, hrow]
  simp only [hstatus, ne_eq, not_true_eq_false, if_false]
  have hfits : (TaskStmt.setReviewExpired taskId (utcNowIso now)).Fits w.tasks := by
    intro row' hrow'
    cases hrow.symm.trans hrow'
    exact hstatus
  refine update_accounts (by intro _ h; cases h) hfits (by rw [hrow]; rfl) fun _ => ?_
  exact ⟨trivial, fun _ => hw.expire rfl⟩

/-- A pass of the scanner gives up tasks that have not ended. -/
theorem scanTask_accounts {now : Nat} {nowIso : String} {task : ActiveTask} {w : Db}
    (hlive : ∀ row ∈ w.tasks.get? task.taskId, row.status.isTerminal = false) :
    (scanTask now nowIso task).wp Fits (fun _ _ => True) (fun _ _ => True) w := by
  have give : ∀ {event action detail webhook payload},
      (giveUp task event action detail webhook payload nowIso).wp Fits (fun _ _ => True)
        (fun _ _ => True) w := by
    intro event action detail webhook payload
    rw [giveUp, Prog.wp_bind]
    exact transitionTask_accounts (fun _ => hlive) (fun _ => trivial) fun _ _ =>
      ⟨trivial, fun _ => trivial⟩
  rw [scanTask, Prog.wp_bind]
  refine Prog.wp_imp ((overdue_readsAlike rfl).wp {}) ?_
  rintro reason _ ⟨rfl, -⟩
  cases reason with
  | none => trivial
  | some reason => cases reason <;> exact give

theorem Dated.accounts {time now : Nat} (h : Dated time start)
    (htime : time + maxTimeoutSec * 1000000 ≤ Iso.maxMicros) (hnow : now < Iso.maxMicros) :
    Accounts (markLostTasks now) start := by
  rw [markLostTasks, Accounts, Prog.wp_bind, Prog.wp_query]
  refine Prog.wp_imp (Prog.wp_forEach (I := Passing start now) (fun task rest w hw => ?_)
    (h.passing (Nat.le_of_add_right_le htime))) fun _ _ _ => trivial
  have hlive : ∀ row ∈ w.tasks.get? task.taskId, row.status.isTerminal = false := by
    intro row hrow
    obtain ⟨old, hold, hjoin⟩ := List.mem_filterMap.mp (hw.active task (List.mem_cons_self ..))
    obtain ⟨hmem, hactive⟩ := List.mem_filter.mp hold
    obtain ⟨node, -, rfl⟩ := Option.map_eq_some_iff.mp hjoin
    rw [hw.waiting _ (List.mem_cons_self ..)] at hrow
    cases (Table.get?_of_mem hmem).symm.trans hrow
    exact not_isTerminal_of_isActive hactive
  exact Prog.wp_mono (Prog.wp_and (hw.turn h htime hnow) (scanTask_accounts hlive))
    (fun _ _ hq => hq.2) (fun _ _ he => he.1.elim) fun _ _ hpost => hpost.1

end Programs

/-! ## Completions -/

section Completions

variable {settings : Settings} {crypto : Crypto} {time : Nat} {taskId : String}

theorem Accounts.silently {α : Type} {p : Tx α} {start : Db} (h : Accounts p start) :
    Accounts (GpuFleet.silently p) start := by
  rw [Accounts, GpuFleet.silently, Prog.wp_bind]
  exact Prog.wp_imp h fun _ _ _ => trivial

/-- What an operation of the server ends is what it counts. -/
theorem SystemOp.accounts {op : SystemOp} {db : Db} (h : Dated time db)
    (htime : time + maxTimeoutSec * 1000000 ≤ Iso.maxMicros) (hnow : op.now < time) :
    Accounts (op.code settings crypto) db := by
  cases op with
  | createNode | updateNode | setNodeEnabled | resetSecret | regenerateOnboarding | createTask
  | escalate | approve | heartbeat => exact accounts_of_kinds settings crypto rfl
  | cancel taskId admin now => exact (cancelTask_accounts taskId admin now).silently
  | reject taskId note admin now => exact (rejectReview_accounts taskId note admin now).silently
  | event nodeId payload now =>
      exact asNode_wp (fun _ _ => rfl) fun _ _ => (taskEvents_accounts nodeId payload now).silently
  | result nodeId payload now =>
      exact asNode_wp (fun _ _ => rfl) fun _ _ => (taskResult_accounts nodeId payload now).silently
  | markLost now =>
      have hmax : now < Iso.maxMicros :=
        Nat.lt_of_lt_of_le hnow (Nat.le_trans (Nat.le_add_right _ _) htime)
      exact (h.accounts htime hmax).silently
  | expireReviews now => exact (expireReviewingTasks_accounts now).silently

theorem SystemOp.count_completes {op : SystemOp} {db : Db} (x : World) (h : Dated time db)
    (htime : time + maxTimeoutSec * 1000000 ≤ Iso.maxMicros) (hnow : op.now < time) :
    (op.observations settings crypto db x).countP (Observation.completes taskId) +
      ended taskId db = ended taskId ((op.code settings crypto).dbAfter db x) :=
  Prog.wp.logged_dbAfter x
    (Prog.wp_mono (op.accounts h htime hnow) (fun _ _ => id) (fun _ _ he => he taskId)
      fun _ _ => id)
    fun _ _ hq => hq.counts

theorem leavesEnded_iff (taskId : String) (s : Step) :
    s.leavesEnded taskId = true ↔ ended taskId s.after = 1 := by
  rw [Step.leavesEnded, ended]
  split <;> simp_all

theorem ended_le {db : Db} : ended taskId db ≤ 1 := by
  rw [ended]
  split <;> omega

/-- In a run the counter grows by the tasks that end in it, and they stay ended. -/
theorem count_completes {db : Db} {x : World} {ops : List SystemOp} (h : Dated time db)
    (htime : time + maxTimeoutSec * 1000000 ≤ Iso.maxMicros) (hclock : ∀ op ∈ ops, op.now < time) :
    (observations settings crypto db x ops).countP (Observation.completes taskId) +
        ended taskId db =
      if ended taskId db = 1 ∨ (steps settings crypto db x ops).any (Step.leavesEnded taskId) = true
      then 1 else 0 := by
  induction ops generalizing db x with
  | nil =>
      rw [observations, steps, List.countP_nil, Nat.zero_add, ended]
      split <;> simp
  | cons op ops ih =>
      have hnow := hclock op (List.mem_cons_self ..)
      have hfirst : (op.observations settings crypto db x).countP (Observation.completes taskId) +
          ended taskId db = ended taskId ((op.code settings crypto).dbAfter db x) :=
        op.count_completes x h htime hnow
      have hdated : Dated time ((op.code settings crypto).dbAfter db x) :=
        Dated.step (op.step_runs db x) hnow h
      have hrest := @ih ((op.code settings crypto).dbAfter db x)
        ((op.code settings crypto).outsideAfter db x) hdated
        fun op' hop' => hclock op' (List.mem_cons_of_mem _ hop')
      have hleaves := leavesEnded_iff taskId (op.step settings crypto db x)
      have hle : ended taskId ((op.code settings crypto).dbAfter db x) ≤ 1 := ended_le
      have hstays : (ended taskId db = 1 ∨
          ((op.step settings crypto db x) :: steps settings crypto
            ((op.code settings crypto).dbAfter db x) ((op.code settings crypto).outsideAfter db x)
            ops).any (Step.leavesEnded taskId) = true) ↔
          (ended taskId ((op.code settings crypto).dbAfter db x) = 1 ∨
            (steps settings crypto ((op.code settings crypto).dbAfter db x)
              ((op.code settings crypto).outsideAfter db x) ops).any (Step.leavesEnded taskId) =
                true) := by
        rw [List.any_cons, Bool.or_eq_true, hleaves]
        show (_ ∨ ended taskId ((op.code settings crypto).dbAfter db x) = 1 ∨ _) ↔ _
        constructor
        · rintro (hended | hlater)
          · exact Or.inl (by omega)
          · exact hlater
        · exact Or.inr
      rw [observations, List.countP_append, steps]
      refine Eq.trans ?_ (hrest.trans (if_congr hstays.symm rfl rfl))
      omega

variable (settings crypto) in
/-- In every run from the empty database, and if year 9999 does not end within the longest timeout,
the counter of completed tasks has been incremented once for each task that has ended. -/
theorem completions_counted (x : World) {ops : List SystemOp} (hclock : ∀ op ∈ ops, op.now < time)
    (htime : time + maxTimeoutSec * 1000000 ≤ Iso.maxMicros) :
    CountsCompletions settings crypto {} x ops := by
  intro taskId
  have hdated : Dated time {} := by
    constructor <;> intro row hrow <;> cases hrow
  have hcount : (observations settings crypto {} x ops).countP (Observation.completes taskId) +
      ended taskId {} = _ := count_completes hdated htime hclock
  have hzero : ended taskId {} = 0 := rfl
  rw [hzero, Nat.add_zero] at hcount
  simpa using hcount

end Completions

end GpuFleet
