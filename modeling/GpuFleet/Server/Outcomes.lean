import GpuFleet.Server.Kinds
import GpuFleet.Server.TerminalAbsorb

/-!
# What events, results and cancellations leave behind

The whole effect of the three operations that decide from a task's row and
write more than one table or branch on what they read.  Each either leaves the
database as it was or commits the databases described by `EventDone`,
`ResultDone` and `CancelDone`.  The last attempt of a task is what the next
report about it overwrites, `latestAttempt`.
-/

namespace GpuFleet

open Foundations

/-! ## The last attempt -/

/-- The last attempt of a task. -/
def latestAttempt (taskId : String) (db : Db) : Option TaskAttempt :=
  firstBy (fun a b => a.id > b.id) (db.attempts.select fun row => row.taskId = taskId)

theorem latestAttempt_eq (taskId : String) (db : Db) :
    latestAttempt taskId db = (db.attempts.select fun row => row.taskId = taskId).getLast? :=
  firstBy_desc TaskAttempt.id (db.attempts.ordered.filter _)

theorem latestAttempt_mem {taskId : String} {db : Db} {a : TaskAttempt}
    (h : latestAttempt taskId db = some a) : a ∈ db.attempts.rows ∧ a.taskId = taskId := by
  obtain ⟨hmem, hid⟩ := List.mem_filter.mp (firstBy_mem h)
  exact ⟨hmem, of_decide_eq_true hid⟩

/-- The attempt a report starts or overwrites. -/
def TaskAttempt.report (status : String) (args : AttemptArgs) (row : TaskAttempt) : TaskAttempt :=
  { row with
    agentBootId := args.bootId <|> row.agentBootId
    pid := args.pid <|> row.pid
    pgidOrJobId := args.pgidOrJobId <|> row.pgidOrJobId
    status
    startedAt := args.startedAt <|> row.startedAt
    finishedAt := args.finishedAt <|> row.finishedAt
    exitCode := args.exitCode <|> row.exitCode
    resultSummary := args.summary.getD row.resultSummary }

/-- The attempt a first report starts. -/
def newAttempt (taskId nodeId status : String) (args : AttemptArgs) : TaskAttempt where
  id := 0
  taskId
  nodeId
  agentBootId := args.bootId
  pid := args.pid
  pgidOrJobId := args.pgidOrJobId
  status
  startedAt := args.startedAt
  finishedAt := args.finishedAt
  exitCode := args.exitCode
  resultSummary := args.summary.getD (.obj [])

/-- The statement `upsertTaskAttempt` executes when it finds this last attempt. -/
def attemptStmt (taskId nodeId status : String) (args : AttemptArgs) :
    Option TaskAttempt → AttemptStmt
  | none => .insert (newAttempt taskId nodeId status args)
  | some row => .update row.id args.bootId args.pid args.pgidOrJobId status args.startedAt
      args.finishedAt args.exitCode args.summary

/-- `task_attempts` after a report. -/
def reportAttempt (taskId nodeId status : String) (args : AttemptArgs) (db : Db) :
    Table TaskAttempt :=
  (attemptStmt taskId nodeId status args (latestAttempt taskId db)).apply db.attempts

section Report

variable {taskId nodeId status : String} {args : AttemptArgs} {db : Db}

/-- A first report adds an attempt. -/
theorem reportAttempt_first (h : latestAttempt taskId db = none) :
    (reportAttempt taskId nodeId status args db).rows =
      db.attempts.rows ++
        [{ newAttempt taskId nodeId status args with id := db.attempts.seq + 1 }] := by
  rw [reportAttempt, h]
  show (db.attempts.insert (fun id => { newAttempt taskId nodeId status args with id })
    fun _ => rfl).rows = _
  exact Table.insert_rows_of_key fun _ _ h => h

/-- A later report rewrites the last attempt. -/
theorem reportAttempt_again {last : TaskAttempt} (h : latestAttempt taskId db = some last) :
    reportAttempt taskId nodeId status args db =
      db.attempts.update (fun row => row.id = last.id) (TaskAttempt.report status args)
        (fun _ => rfl) fun _ => rfl := by
  rw [reportAttempt, h]
  rfl

/-- The attempts of each task after a report. -/
theorem select_reportAttempt (id : String) :
    ((reportAttempt taskId nodeId status args db).select fun row => row.taskId = id) =
      match latestAttempt taskId db with
      | none => (db.attempts.select fun row => row.taskId = id) ++
          if taskId = id then
            [{ newAttempt taskId nodeId status args with id := db.attempts.seq + 1 }]
          else []
      | some last => (db.attempts.select fun row => row.taskId = id).map fun row =>
          if row.id = last.id then row.report status args else row := by
  cases hlast : latestAttempt taskId db with
  | none =>
      rw [Table.select, reportAttempt_first hlast, List.filter_append]
      refine congrArg _ ?_
      simp only [List.filter_cons, List.filter_nil, newAttempt, decide_eq_true_eq]
  | some last =>
      rw [reportAttempt_again hlast]
      refine (Table.select_update ?_).trans ?_
      · intro _ _ _
        rfl
      · simp only [decide_eq_true_eq]

/-- A report about one task leaves the attempts of the others. -/
theorem latestAttempt_report_of_ne {id : String} {db' : Db} (hne : id ≠ taskId)
    (h : db'.attempts = reportAttempt taskId nodeId status args db) :
    latestAttempt id db' = latestAttempt id db := by
  rw [latestAttempt_eq, latestAttempt_eq, h, select_reportAttempt]
  cases hlast : latestAttempt taskId db with
  | none => simp only [if_neg (Ne.symm hne), List.append_nil]
  | some last =>
      obtain ⟨hmem, hid⟩ := latestAttempt_mem hlast
      refine congrArg _ ?_
      conv_rhs => rw [← List.map_id (db.attempts.select _)]
      refine List.map_congr_left fun row hrow => ?_
      obtain ⟨hrowmem, hrowid⟩ := List.mem_filter.mp hrow
      rw [if_neg]
      · rfl
      -- Rows with one id are one row, and this one belongs to another task.
      · intro hsame
        have heq : row = last := Table.eq_of_get? (Table.get?_of_mem hmem) hrowmem hsame
        rw [heq, hid] at hrowid
        exact hne (of_decide_eq_true hrowid).symm

/-- The last attempt of a task after a report about it. -/
theorem latestAttempt_report {db' : Db}
    (h : db'.attempts = reportAttempt taskId nodeId status args db) :
    latestAttempt taskId db' =
      some (match latestAttempt taskId db with
        | none => { newAttempt taskId nodeId status args with id := db.attempts.seq + 1 }
        | some last => last.report status args) := by
  rw [latestAttempt_eq taskId db', h, select_reportAttempt]
  cases hlast : latestAttempt taskId db with
  | none => simp only [if_pos, List.getLast?_append, List.getLast?_singleton, Option.some_or]
  | some last =>
      rw [latestAttempt_eq] at hlast
      simp only [List.getLast?_map, hlast, Option.map_some, if_pos]

/-- An attempt after a report is one from before or the task's last one. -/
theorem mem_reportAttempt {a : TaskAttempt} {db' : Db}
    (h : db'.attempts = reportAttempt taskId nodeId status args db) (ha : a ∈ db'.attempts.rows) :
    a ∈ db.attempts.rows ∨ latestAttempt taskId db' = some a := by
  rw [latestAttempt_report h]
  rw [h] at ha
  cases hlast : latestAttempt taskId db with
  | none =>
      rw [reportAttempt_first hlast] at ha
      exact (List.mem_append.mp ha).imp id fun ha => by rw [List.mem_singleton.mp ha]
  | some last =>
      rw [reportAttempt_again hlast] at ha
      obtain ⟨row, hrow, ha⟩ := Table.mem_update.mp ha
      split at ha
      · rename_i hsame
        have heq : row = last := Table.eq_of_get?
          (Table.get?_of_mem (latestAttempt_mem hlast).1) hrow (of_decide_eq_true hsame)
        rw [← ha, heq]
        exact Or.inr rfl
      · exact Or.inl (ha ▸ hrow)

end Report

/-! ## Parts of handlers -/

section Ends

variable {α : Type} {exn : Exc → Db → Db → Prop} {c w : Db}

theorem getTaskRow_ends {post : Task → Db → Db → Prop} (taskId : String) :
    (getTaskRow taskId).ends exn post c w =
      match w.tasks.get? taskId with
      | none => exn (.taskState "Task not found") c w
      | some row => post row c w := by
  rw [getTaskRow, Prog.ends_bind, Prog.ends_query]
  cases w.tasks.get? taskId <;> rfl

/-- An update by task id finds its row again. -/
theorem getTaskRow_after {post : Task → Db → Db → Prop} {q : TaskStmt} {taskId : String}
    {row : Task} (h : ∀ row, q ≠ .insert row) (hrow : w.tasks.get? taskId = some row) (hsel : q.selects w.tasks row = true)
    (hpost : post (q.edit row) c { w with tasks := q.apply w.tasks }) :
    (Prog.execute (.task q) >>= fun _ => getTaskRow taskId).ends exn post c w := by
  rw [Prog.ends_bind, Prog.ends_execute, getTaskRow_ends]
  show match (q.apply w.tasks).get? taskId with
    | none => _
    | some _ => _
  rw [TaskStmt.get?_apply_selected h hrow hsel]
  exact hpost

theorem loadTaskForNode_ends {post : Task → Db → Db → Prop} {nodeId taskId : String}
    (hexn : ∀ e, exn e c w)
    (hpost : ∀ row, w.tasks.get? taskId = some row → row.nodeId = nodeId → post row c w) :
    (loadTaskForNode nodeId taskId).ends exn post c w := by
  rw [loadTaskForNode, Prog.ends_bind, Prog.ends_query]
  cases hrow : (w.tasks.get? taskId).filter fun row => row.nodeId = nodeId with
  | none => exact hexn _
  | some row =>
      obtain ⟨hget, hnode⟩ := Option.filter_eq_some_iff.mp hrow
      exact hpost row hget (of_decide_eq_true hnode)

/-- A `TaskStateError` is answered with an error of the API, and either rolls back. -/
theorem catchTaskState_ends {R : Db → Prop} {post : α → Db → Db → Prop} {p : Tx α}
    {handler : String → Exc} (hp : p.ends (fun _ c _ => R c) post c w) :
    (catchTaskState p fun m => .raise (handler m)).ends (fun _ c _ => R c) post c w := by
  rw [catchTaskState, Prog.ends_tryCatch]
  refine Prog.ends_mono hp (fun e c w hR => ?_) fun _ _ _ => id
  cases e <;> exact hR

theorem upsertTaskAttempt_ends {post : Unit → Db → Db → Prop} (taskId nodeId status : String)
    (args : AttemptArgs) :
    (upsertTaskAttempt taskId nodeId status args).ends exn post c w =
      post () c { w with attempts := reportAttempt taskId nodeId status args w } := by
  rw [upsertTaskAttempt, Prog.ends_bind, Prog.ends_query, reportAttempt, latestAttempt]
  cases firstBy (fun a b => a.id > b.id) (w.attempts.select fun row => row.taskId = taskId) <;> rfl

theorem emitEvent_ends {post : Unit → Db → Db → Prop} {name severity : String} {payload : Json}
    (h : post () c w) : (emitEvent name payload severity).ends exn post c w :=
  fun _ => h

/-- A request of a node: the node is enabled, or nothing happens. -/
theorem asNode_ends {post : α → Db → Db → Prop} {nodeId : String} {body : Node → Tx α}
    (hexn : ∀ e, exn e c w)
    (hbody : ∀ node, w.nodes.get? nodeId = some node → (body node).ends exn post c w) :
    (asNode nodeId body).ends exn post c w := by
  rw [asNode, Prog.ends_bind, Prog.ends_query]
  cases hnode : (w.nodes.get? nodeId).filter Node.isEnabled with
  | none => exact hexn _
  | some node => exact hbody node (Option.filter_eq_some_iff.mp hnode).1

end Ends

/-! ## Events -/

/-- The update of an accepted event. -/
def eventStmt (payload : NodeTaskEventRequest) (row : Task) (now : Nat) : TaskStmt :=
  .setEvent payload.taskId payload.event.status
    (if payload.event = .running ∧ row.startedAt = none then some (utcNowIso now)
      else row.startedAt)
    (if payload.event.status.isTerminal ∧ row.finishedAt = none then some (utcNowIso now)
      else row.finishedAt)

/-- What an accepted event commits. -/
def EventDone (nodeId : String) (payload : NodeTaskEventRequest) (now : Nat)
    (start after : Db) : Prop :=
  ∃ row args, start.tasks.get? payload.taskId = some row ∧ row.nodeId = nodeId ∧
    taskEventTransitions payload.event row.status = true ∧ args.exitCode = none ∧
    after =
      { start with
        tasks := (eventStmt payload row now).apply start.tasks
        attempts := reportAttempt payload.taskId nodeId payload.event.text args start }

/-- An event is accepted, or raises and leaves nothing behind. -/
theorem taskEvents_ends (nodeId : String) (payload : NodeTaskEventRequest) (now : Nat)
    (start : Db) :
    (taskEvents nodeId payload now).ends (fun _ c _ => c = start)
      (fun _ _ w => EventDone nodeId payload now start w) start start := by
  rw [taskEvents, Prog.ends_bind]
  refine loadTaskForNode_ends (fun _ => rfl) fun row hrow hnode => ?_
  rw [Prog.ends_bind]
  refine catchTaskState_ends ?_
  rw [transitionTask, Prog.ends_bind, getTaskRow_ends, hrow]
  simp only [applyNodeEvent, orElse_some_self]
  split
  · rfl
  · rename_i hacc
    have hkey : row.taskId = payload.taskId := Table.get?_key hrow
    refine getTaskRow_after (q := eventStmt payload row now) (by intro _ h; cases h) hrow
      (decide_eq_true hkey) ?_
    rw [Prog.ends_bind, upsertTaskAttempt_ends]
    exact ⟨row, _, hrow, hnode, by simpa using hacc, rfl, rfl⟩

/-! ## Results -/

/-- What an accepted result commits. -/
def ResultDone (nodeId : String) (payload : NodeTaskResultRequest) (start after : Db) : Prop :=
  ∃ row startedAt finishedAt nowIso args, start.tasks.get? payload.taskId = some row ∧
    row.nodeId = nodeId ∧ row.status.isActive = true ∧ row.resultLockedAt = none ∧
    args.exitCode = payload.exitCode ∧ args.summary = some payload.summary ∧
    after =
      { start with
        tasks := (TaskStmt.setResult payload.taskId payload.finalStatus startedAt finishedAt
          nowIso).apply start.tasks
        attempts := reportAttempt payload.taskId nodeId payload.finalStatus.status.text args start }

/-- The update of a result rewrites the row of the task, or nothing. -/
theorem rowcount_setResult {tasks : Table Task} {taskId : String} {row : Task}
    (hrow : tasks.get? taskId = some row) (status : FinalStatus)
    (startedAt finishedAt nowIso : String) :
    ((TaskStmt.setResult taskId status startedAt finishedAt nowIso).rowcount tasks = 1 ∧
        row.resultLockedAt = none ∧ row.status.isActive = true) ∨
      ((TaskStmt.setResult taskId status startedAt finishedAt nowIso).rowcount tasks = 0 ∧
        (TaskStmt.setResult taskId status startedAt finishedAt nowIso).apply tasks = tasks) := by
  have hkey : row.taskId = taskId := Table.get?_key hrow
  have hlen := Table.length_select tasks (k := taskId)
    (p := (TaskStmt.setResult taskId status startedAt finishedAt nowIso).selects tasks)
    fun a ha => by
      simp only [TaskStmt.selects, Bool.and_eq_true, decide_eq_true_eq] at ha
      exact ha.1.1
  rw [hrow, Option.any_some] at hlen
  cases hsel : (TaskStmt.setResult taskId status startedAt finishedAt nowIso).selects tasks row with
  | true =>
      rw [hsel] at hlen
      simp only [TaskStmt.selects, Bool.and_eq_true, Option.isNone_iff_eq_none] at hsel
      exact Or.inl ⟨hlen, hsel.1.2, hsel.2⟩
  | false =>
      rw [hsel] at hlen
      refine Or.inr ⟨hlen, ?_⟩
      rw [TaskStmt.apply_update (by intro _ h; cases h), TaskStmt.updateRows]
      refine Table.update_eq_self fun a ha => ?_
      by_contra hne
      have hid : a.taskId = taskId := by
        simp only [TaskStmt.selects, Bool.not_eq_false, Bool.and_eq_true, decide_eq_true_eq] at hne
        exact hne.1.1
      rw [Table.eq_of_get? hrow ha hid, hsel] at hne
      exact hne rfl

/-- A result is locked in, or comes too late for a terminal task, or raises. -/
theorem finalizeTaskResult_ends {exn : Exc → Db → Db → Prop} {post : Task × Bool → Db → Db → Prop}
    {c start : Db} {taskId : String} {status : FinalStatus} {startedAt finishedAt nowIso : String}
    (hexn : ∀ e, exn e c start)
    (hdone : ∀ row new, start.tasks.get? taskId = some row → row.resultLockedAt = none →
      row.status.isActive = true → post (new, false) c
        { start with
          tasks := (TaskStmt.setResult taskId status startedAt finishedAt nowIso).apply start.tasks })
    (hlate : ∀ row, start.tasks.get? taskId = some row → row.status.isTerminal = true →
      post (row, true) c start) :
    (finalizeTaskResult taskId status startedAt finishedAt nowIso).ends exn post c start := by
  rw [finalizeTaskResult, Prog.ends_bind, getTaskRow_ends]
  cases hrow : start.tasks.get? taskId with
  | none => exact hexn _
  | some row =>
      simp only
      split
      · exact hexn _
      · rw [Prog.ends_bind, Prog.ends_executeReturning]
        rcases rowcount_setResult hrow status startedAt finishedAt nowIso with
          ⟨hone, hlock, hactive⟩ | ⟨hzero, hsame⟩
        · have hget : ((TaskStmt.setResult taskId status startedAt finishedAt nowIso).apply
              start.tasks).get? taskId = some
                ((TaskStmt.setResult taskId status startedAt finishedAt nowIso).edit row) := by
            refine TaskStmt.get?_apply_selected (by intro _ h; cases h) hrow ?_
            have hkey : row.taskId = taskId := Table.get?_key hrow
            simp only [TaskStmt.selects, hkey, hlock, hactive, decide_true, Option.isNone_none,
              Bool.and_self]
          rw [if_neg (by rw [hone]; exact fun h => h rfl), Prog.ends_bind, getTaskRow_ends]
          show match ((TaskStmt.setResult taskId status startedAt finishedAt nowIso).apply
            start.tasks).get? taskId with
            | none => _
            | some _ => _
          rw [hget]
          exact hdone row _ hrow hlock hactive
        · have hdb : Statement.apply
              (Dml.task (.setResult taskId status startedAt finishedAt nowIso)) start = start := by
            show { start with tasks := _ } = start
            rw [hsame]
          rw [if_pos (by rw [hzero]; decide), hdb, Prog.ends_bind, getTaskRow_ends, hrow]
          simp only
          split
          · exact hlate row hrow ‹_›
          · exact hexn _

/-- A result is accepted, or finds a terminal task and answers that it is a duplicate, or
raises; only in the first case is anything written. -/
theorem taskResult_ends (nodeId : String) (payload : NodeTaskResultRequest) (now : Nat)
    (start : Db) :
    (taskResult nodeId payload now).ends (fun _ c _ => c = start)
      (fun ack _ w =>
        if ack.duplicate then w = start ∧ Terminal payload.taskId start
        else ResultDone nodeId payload start w) start start := by
  rw [taskResult, Prog.ends_bind]
  refine loadTaskForNode_ends (fun _ => rfl) fun row hrow hnode => ?_
  simp only
  rw [Prog.ends_bind]
  refine catchTaskState_ends (finalizeTaskResult_ends (fun _ => rfl) ?_ ?_)
  · intro row' new hrow' hlock hactive
    rw [hrow] at hrow'
    cases hrow'
    rw [if_neg Bool.false_ne_true, Prog.ends_bind, upsertTaskAttempt_ends, Prog.ends_bind, reconnect,
      Prog.ends_commit, Prog.ends_ret]
    have done : ∀ {startedAt finishedAt nowIso : String} {args : AttemptArgs},
        args.exitCode = payload.exitCode → args.summary = some payload.summary → ResultDone nodeId payload start
          { start with
            tasks := (TaskStmt.setResult payload.taskId payload.finalStatus startedAt finishedAt
              nowIso).apply start.tasks
            attempts := reportAttempt payload.taskId nodeId payload.finalStatus.status.text args
              start } :=
      fun hexit hsummary => ⟨row, _, _, _, _, hrow, hnode, hactive, hlock, hexit, hsummary, rfl⟩
    split
    · rw [Prog.ends_bind]
      exact emitEvent_ends (done rfl rfl)
    · exact done rfl rfl
  · intro row' hrow' hterm
    exact ⟨rfl, row', hrow', hterm⟩

/-! ## Cancellations -/

/-- What an accepted cancellation does to the tasks and to the attempts. -/
def CancelDone (taskId : String) (now : Nat) (start after : Db) : Prop :=
  after.attempts = start.attempts ∧ ∃ row, start.tasks.get? taskId = some row ∧
    (row.status = .pending ∧
        after.tasks = (TaskStmt.setCancelled taskId (utcNowIso now)).apply start.tasks ∨
      row.status.isActive = true ∧
        after.tasks =
          (TaskStmt.setCancelRequested taskId (some (utcNowIso now))).apply start.tasks)

/-- A cancellation is accepted, or raises and leaves nothing behind. -/
theorem cancelTask_ends (taskId : String) (admin : Admin) (now : Nat) (start : Db) :
    (cancelTask taskId admin now).ends (fun _ c _ => c = start)
      (fun _ _ w => CancelDone taskId now start w) start start := by
  rw [cancelTask, Prog.ends_bind]
  refine catchTaskState_ends ?_
  rw [Prog.ends_bind, getTaskRow_ends]
  cases hrow : start.tasks.get? taskId with
  | none => rfl
  | some row =>
      have hkey : row.taskId = taskId := Table.get?_key hrow
      simp only
      rw [Prog.ends_bind, transitionTask, Prog.ends_bind, getTaskRow_ends, hrow]
      simp only [applyCancel, orElse_some_self]
      split
      · rfl
      · split
        · rename_i hpending
          exact getTaskRow_after (by intro _ h; cases h) hrow (decide_eq_true hkey)
            ⟨rfl, row, hrow, Or.inl ⟨hpending, rfl⟩⟩
        · split
          · rename_i hactive
            exact getTaskRow_after (by intro _ h; cases h) hrow (decide_eq_true hkey)
              ⟨rfl, row, hrow, Or.inr ⟨hactive, rfl⟩⟩
          · rfl

/-! ## Steps -/

/-- The kinds of the statements of events, results and cancellations. -/
def Kind.isReport : Kind → Bool
  | attempt | event _ | cancel _ | result _ => true
  | _ => false

section Steps

variable {settings : Settings} {crypto : Crypto} {s : Step} {x : World}

theorem silently_ends {α : Type} {exn : Exc → Db → Db → Prop} {R : Db → Prop} {p : Tx α}
    {c w : Db} (hp : p.ends exn (fun _ _ w => R w) c w) :
    (silently p).ends exn (fun _ _ w => R w) c w := by
  rw [silently, Prog.ends_bind]
  exact hp

/-- A program that leaves nothing behind when it raises, and otherwise what it promises. -/
theorem after_of_ends {α : Type} {p : Tx α} {start : Db} {R : Db → Prop}
    (h : p.ends (fun _ c _ => c = start) (fun _ _ w => R w) start start) (x : World) :
    p.dbAfter start x = start ∨ R (p.dbAfter start x) := by
  rcases h.after x with ⟨_, _, _, hR⟩ | ⟨_, _, _, hsame⟩
  · exact Or.inr hR
  · exact Or.inl hsame

theorem Step.Runs.eventDone (h : s.Runs settings crypto x) {nodeId : String}
    {payload : NodeTaskEventRequest} {now : Nat} (hop : s.op = .event nodeId payload now) :
    s.after = s.before ∨ EventDone nodeId payload now s.before s.after := by
  have hends : (s.op.code settings crypto).ends (fun _ c _ => c = s.before)
      (fun _ _ w => EventDone nodeId payload now s.before w) s.before s.before := by
    rw [hop]
    exact asNode_ends (fun _ => rfl) fun _ _ =>
      silently_ends (taskEvents_ends nodeId payload now s.before)
  rw [h.after]
  exact after_of_ends hends x

theorem Step.Runs.resultDone (h : s.Runs settings crypto x) {nodeId : String}
    {payload : NodeTaskResultRequest} {now : Nat} (hop : s.op = .result nodeId payload now) :
    s.after = s.before ∨ ResultDone nodeId payload s.before s.after := by
  have hends : (s.op.code settings crypto).ends (fun _ c _ => c = s.before)
      (fun _ _ w => w = s.before ∨ ResultDone nodeId payload s.before w) s.before s.before := by
    rw [hop]
    refine asNode_ends (fun _ => rfl) fun _ _ => silently_ends ?_
    refine Prog.ends_mono (taskResult_ends nodeId payload now s.before) (fun _ _ _ => id) ?_
    intro ack _ w hw
    split at hw
    · exact Or.inl hw.1
    · exact Or.inr hw
  rw [h.after]
  rcases after_of_ends hends x with hsame | hdone
  · exact Or.inl hsame
  · exact hdone

theorem Step.Runs.cancelDone (h : s.Runs settings crypto x) {taskId : String} {admin : Admin}
    {now : Nat} (hop : s.op = .cancel taskId admin now) :
    s.after = s.before ∨ CancelDone taskId now s.before s.after := by
  have hends : (s.op.code settings crypto).ends (fun _ c _ => c = s.before)
      (fun _ _ w => CancelDone taskId now s.before w) s.before s.before := by
    rw [hop]
    exact silently_ends (cancelTask_ends taskId admin now s.before)
  rw [h.after]
  exact after_of_ends hends x

/-- A property of databases goes through a step when what events, results and cancellations
leave behind has it, and all other permitted statements keep it. -/
theorem Step.Runs.keeps_cases {I : Db → Prop} (h : s.Runs settings crypto x) (hs : I s.before)
    (event : ∀ nodeId payload now, s.op = .event nodeId payload now →
      EventDone nodeId payload now s.before s.after → I s.after)
    (result : ∀ nodeId payload now, s.op = .result nodeId payload now →
      ResultDone nodeId payload s.before s.after → I s.after)
    (cancel : ∀ taskId admin now, s.op = .cancel taskId admin now →
      CancelDone taskId now s.before s.after → I s.after)
    (other : ∀ q w, Permitted s.op s.before q w →
      (∀ k ∈ q.kind, k ∈ s.op.kinds ∧ k.isReport = false) → I w → I (Statement.apply q w)) :
    I s.after := by
  have common : (∀ k ∈ s.op.kinds, k.isReport = false) → I s.after := fun hop =>
    h.issued (fun q w hq hk => other q w hq fun k hkq => ⟨hk k hkq, hop k (hk k hkq)⟩) hs
  cases hop : s.op with
  | event nodeId payload now =>
      rcases h.eventDone hop with hsame | hdone
      · rw [hsame]
        exact hs
      · exact event nodeId payload now hop hdone
  | result nodeId payload now =>
      rcases h.resultDone hop with hsame | hdone
      · rw [hsame]
        exact hs
      · exact result nodeId payload now hop hdone
  | cancel taskId admin now =>
      rcases h.cancelDone hop with hsame | hdone
      · rw [hsame]
        exact hs
      · exact cancel taskId admin now hop hdone
  | reject | markLost | expireReviews =>
      refine common fun k hk => ?_
      rw [hop] at hk
      cases List.mem_singleton.mp hk
      rfl
  | _ =>
      refine common fun k hk => ?_
      rw [hop] at hk
      cases hk

end Steps

end GpuFleet
