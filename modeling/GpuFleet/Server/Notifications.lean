import GpuFleet.Foundations.Faults
import GpuFleet.Server.Attempts
import GpuFleet.Server.ScanPass

/-!
# Notifications of failures

Events, results and passes of the scanner, one after another, any of which may fail at one of
its statements or commits, and the webhook events about failed and lost tasks.

A result of status `failed` is announced after its commit.  The scanner announces the tasks that
it gives up before its commit, which may still fail.  Nothing else is announced: no event, and no
result of status `timeout` or `lost`.

Each step either announces what it commits (`TrialStep.Right`) or does one of these three things
(`Trial.right_iff`).  A task comes to such a status at most once, so the steps of a run add up
(`failures_notified_iff`).
-/

namespace GpuFleet

open Foundations

/-! ## Announcements -/

/-- The webhook events about the end of a task. -/
inductive Notice where
  | failed
  | lost
  deriving DecidableEq, Repr

namespace Notice

def name : Notice → String
  | failed => "task.failed"
  | lost => "task.lost"

/-- The statuses an event is about. -/
def covers : Notice → TaskStatus → Bool
  | failed, s => s = .failed || s = .timeout
  | lost, s => s = .lost

theorem exists_iff {p : Notice → Prop} : (∃ notice, p notice) ↔ p failed ∨ p lost := by
  constructor
  · rintro ⟨notice, h⟩
    cases notice
    · exact Or.inl h
    · exact Or.inr h
  · rintro (h | h)
    · exact ⟨_, h⟩
    · exact ⟨_, h⟩

end Notice

/-- The task that a webhook event is about. -/
def WebhookEvent.taskId (e : WebhookEvent) : Option String :=
  match e.payload with
  | .obj fields =>
      match fields.lookup "task_id" with
      | some (.str id) => some id
      | _ => none
  | _ => none

/-- The event tells of the end of the task. -/
def WebhookEvent.tells (notice : Notice) (taskId : String) (e : WebhookEvent) : Bool :=
  e.name = notice.name && e.taskId = some taskId

/-! ## Runs -/

/-- A report of a node, or a pass of the scanner. -/
inductive Report where
  | event (nodeId : String) (payload : NodeTaskEventRequest) (now : Nat)
  | result (nodeId : String) (payload : NodeTaskResultRequest) (now : Nat)
  | scan (now : Nat)

def Report.code : Report → Tx (Option HeartbeatResponse)
  | event nodeId payload now => asNode nodeId fun _ => silently (taskEvents nodeId payload now)
  | result nodeId payload now => asNode nodeId fun _ => silently (taskResult nodeId payload now)
  | scan now => silently (markLostTasks now)

/-- A report, and the statement or commit of it that fails, if one does, with the exception. -/
structure Trial where
  report : Report
  fault : Option (Nat × Exc) := none

/-- What a trial does. -/
def Trial.code (t : Trial) : Tx (Option HeartbeatResponse) := t.report.code.withFault t.fault

/-- A trial with the database and the webhook events before and after it. -/
structure TrialStep where
  before : Db
  sent : World
  trial : Trial
  after : Db
  outside : World

def Trial.step (t : Trial) (db : Db) (x : World) : TrialStep :=
  ⟨db, x, t, t.code.dbAfter db x, t.code.outsideAfter db x⟩

/-- The steps of a run. -/
def trials (db : Db) (x : World) : List Trial → List TrialStep
  | [] => []
  | t :: ts => t.step db x :: trials (t.code.dbAfter db x) (t.code.outsideAfter db x) ts

/-- What a run of trials leads to. -/
def afterTrials (db : Db) (x : World) : List Trial → Db × World
  | [] => (db, x)
  | t :: ts => afterTrials (t.code.dbAfter db x) (t.code.outsideAfter db x) ts

/-- The number of times the end of a task was announced. -/
def told (notice : Notice) (taskId : String) (x : World) : Nat :=
  x.events.countP (WebhookEvent.tells notice taskId)

/-- The task comes to a status that is to be announced. -/
def comesTo (notice : Notice) (taskId : String) (before after : Db) : Bool :=
  !(statusOf taskId before).any notice.covers && (statusOf taskId after).any notice.covers

/-- Each task that came to such a status has been announced once in the run, and no other. -/
def Notifies (db : Db) (x : World) (ts : List Trial) : Prop :=
  ∀ notice taskId, told notice taskId (afterTrials db x ts).2 = told notice taskId x +
    if (trials db x ts).any fun s => comesTo notice taskId s.before s.after then 1 else 0

/-! ## The condition -/

/-- A pass that goes on with these tasks gives one of them up before the statement that fails.  It
judges the tasks one after another; the fourth statement after the verdict writes the audit row. -/
def GivesUpBefore (now : Nat) (db : Db) (x : World) :
    List ActiveTask → Option (Nat × Exc) → Prop
  | [], _ => False
  | task :: rest, fault => ∃ k, (overdue task now).firstCommit db x = some k ∧
      (((overdue task now).resultOf db x = .ok none ∧ (∀ f ∈ fault, k ≤ f.1) ∧
          GivesUpBefore now db x rest (Prog.faultAfter k fault)) ∨
        ∃ reason, (overdue task now).resultOf db x = .ok (some reason) ∧ ∀ f ∈ fault, k + 4 ≤ f.1)

/-- What is announced wrongly: an event or a result that is committed and not announced, or a pass
that is rolled back when it has given up a task. -/
def Unannounced (db : Db) (x : World) (t : Trial) : Prop :=
  match t.report with
  | .event _ payload _ => t.report.code.Commits t.fault db x ∧
      ∃ notice, Notice.covers notice payload.event.status = true
  | .result _ payload _ => t.report.code.Commits t.fault db x ∧
      (payload.finalStatus = .timeout ∨ payload.finalStatus = .lost) ∧
      ∃ row, db.tasks.get? payload.taskId = some row ∧ row.status.isActive = true
  | .scan now => ¬ t.report.code.Commits t.fault db x ∧ (∀ f ∈ t.fault, 0 < f.1) ∧
      GivesUpBefore now db x (activeTasks db) (Prog.faultAfter 1 t.fault)

/-! ## Steps -/

/-- The step announces what it commits. -/
def TrialStep.Right (s : TrialStep) : Prop :=
  ∀ notice taskId, told notice taskId s.outside = told notice taskId s.sent +
    if comesTo notice taskId s.before s.after then 1 else 0

/-- The status of a task changes only when the task is active. -/
def Absorbing (before after : Db) : Prop :=
  ∀ taskId, statusOf taskId after = statusOf taskId before ∨
    (statusOf taskId before).any TaskStatus.isActive = true

/-- The active task comes to the status, and no other task does. -/
structure Moves (taskId : String) (status : TaskStatus) (before after : Db) : Prop where
  active : (statusOf taskId before).any TaskStatus.isActive = true
  status : statusOf taskId after = some status
  others : ∀ id, id ≠ taskId → statusOf id after = statusOf id before

/-- An active task has no status that is to be announced. -/
theorem covers_of_isActive {notice : Notice} {s : TaskStatus} (h : s.isActive = true) :
    notice.covers s = false := by
  cases notice <;> cases s <;> first | rfl | cases h

theorem comesTo_self (notice : Notice) (taskId : String) (db : Db) :
    comesTo notice taskId db db = false := by
  rw [comesTo]
  cases (statusOf taskId db).any notice.covers <;> rfl

theorem absorbing_of_eq {before after : Db} (h : after = before) : Absorbing before after :=
  fun _ => Or.inl (congrArg _ h)

section Moves

variable {taskId : String} {status : TaskStatus} {before after : Db}

/-- An update of one row, which is active. -/
theorem moves_update {t : TaskStmt} (hins : ∀ row, t ≠ .insert row) {old : Task}
    (hold : before.tasks.get? taskId = some old) (hactive : old.status.isActive = true)
    (hsel : t.selects before.tasks old = true)
    (honly : ∀ row, t.selects before.tasks row = true → row.taskId = taskId)
    (hstatus : ∀ row, (t.edit row).status = status) (htasks : after.tasks = t.apply before.tasks) :
    Moves taskId status before after := by
  have hget := TaskStmt.get?_apply hins before.tasks
  rw [← htasks] at hget
  refine ⟨?_, ?_, fun id hne => ?_⟩
  · rw [statusOf, hold]
    exact hactive
  · rw [statusOf, hget, hold, Option.map_some, if_pos hsel]
    exact congrArg some (hstatus old)
  · rw [statusOf, hget, statusOf]
    cases hrow : before.tasks.get? id with
    | none => rfl
    | some row =>
        have hkey : row.taskId = id := Table.get?_key hrow
        rw [Option.map_some, if_neg fun hs => hne (hkey ▸ honly row hs)]

theorem Moves.absorbing (h : Moves taskId status before after) : Absorbing before after := by
  intro id
  by_cases hid : id = taskId
  · subst hid
    exact Or.inr h.active
  · exact Or.inl (h.others id hid)

/-- What a move brings about, seen from a database that has the task's status still. -/
theorem Moves.comesTo (h : Moves taskId status before after) {db : Db}
    (hdb : statusOf taskId db = statusOf taskId before) (notice : Notice) (id : String) :
    GpuFleet.comesTo notice id db after =
      if id = taskId then notice.covers status else GpuFleet.comesTo notice id db before := by
  by_cases hid : id = taskId
  · subst hid
    have hactive := h.active
    rw [if_pos rfl, GpuFleet.comesTo, h.status, hdb]
    cases hold : statusOf id before with
    | none =>
        rw [hold] at hactive
        cases hactive
    | some s =>
        rw [hold, Option.any_some] at hactive
        simp [covers_of_isActive hactive]
  · rw [if_neg hid, GpuFleet.comesTo, GpuFleet.comesTo, h.others id hid]

/-- An announcement. -/
theorem told_append {x x' : World} {e : WebhookEvent} (h : x'.events = x.events ++ [e])
    (notice : Notice) (id : String) :
    told notice id x' = told notice id x + if e.tells notice id then 1 else 0 := by
  rw [told, h, List.countP_append, List.countP_singleton]
  rfl

/-- A move that is announced. -/
theorem Moves.announced (h : Moves taskId status before after) {db : Db} {x x' x'' : World}
    {e : WebhookEvent} (hdb : statusOf taskId db = statusOf taskId before)
    (hevents : x''.events = x'.events ++ [e])
    (htells : ∀ notice id, e.tells notice id = true ↔ id = taskId ∧ notice.covers status = true)
    {notice : Notice} {id : String}
    (htold : told notice id x' =
      told notice id x + if GpuFleet.comesTo notice id db before then 1 else 0) :
    told notice id x'' =
      told notice id x + if GpuFleet.comesTo notice id db after then 1 else 0 := by
  rw [told_append hevents, htold, h.comesTo hdb notice id]
  by_cases hid : id = taskId
  · have hbefore : GpuFleet.comesTo notice taskId db before = false := by
      rw [GpuFleet.comesTo, ← hdb]
      exact comesTo_self notice taskId db
    simp [hbefore, hid, htells]
  · simp [hid, htells]

end Moves

section Steps

variable {db : Db} {x : World} {t : Trial}

/-- A trial commits, or leaves the database as it was. -/
theorem Trial.step_cases {I R : Db → World → Prop}
    (h : t.report.code.untilCommit I R db x) :
    (t.report.code.Commits t.fault db x ∧ R (t.step db x).after (t.step db x).outside) ∨
      ¬ t.report.code.Commits t.fault db x ∧ (t.step db x).after = db ∧
        ∃ w, I w (t.step db x).outside := by
  have hout : (t.step db x).outside =
      ((t.report.code.withFault t.fault).exec db db x).outside := Prog.Out.close_outside _
  rw [hout]
  by_cases hcommits : t.report.code.Commits t.fault db x
  · exact Or.inl ⟨hcommits, Prog.committed h hcommits⟩
  · obtain ⟨⟨e, herror⟩, hsame, hI⟩ := Prog.rolledBack h hcommits
    exact Or.inr ⟨hcommits, (Prog.Out.close_of_error herror).trans hsame, _, hI⟩

/-- A step that changes nothing. -/
theorem TrialStep.right_of_same {s : TrialStep} (hafter : s.after = s.before)
    (houtside : s.outside = s.sent) : s.Right := by
  intro notice taskId
  simp [hafter, houtside, comesTo_self]

/-- A step that announces nothing. -/
theorem TrialStep.right_iff_of_moves {s : TrialStep} {taskId : String} {status : TaskStatus}
    (h : Moves taskId status s.before s.after) (hevents : s.outside.events = s.sent.events) :
    s.Right ↔ ¬ ∃ notice, Notice.covers notice status = true := by
  have htold : ∀ notice id, told notice id s.outside = told notice id s.sent :=
    fun _ _ => congrArg (List.countP _) hevents
  constructor
  · rintro hright ⟨notice, hcovers⟩
    have hcomes : comesTo notice taskId s.before s.after = true := by
      rw [h.comesTo rfl, if_pos rfl, hcovers]
    have hcount := hright notice taskId
    rw [htold, if_pos hcomes] at hcount
    omega
  · intro hnone notice id
    have hcomes : ¬ comesTo notice id s.before s.after = true := by
      rw [h.comesTo rfl, comesTo_self]
      split
      · exact fun hcovers => hnone ⟨notice, hcovers⟩
      · exact Bool.false_ne_true
    rw [htold, if_neg hcomes]
    rfl

/-- A step that announces what it commits. -/
theorem TrialStep.right_of_announced {s : TrialStep} {taskId : String} {status : TaskStatus}
    {e : WebhookEvent} (h : Moves taskId status s.before s.after)
    (hevents : s.outside.events = s.sent.events ++ [e])
    (htells : ∀ notice id, e.tells notice id = true ↔ id = taskId ∧ notice.covers status = true) :
    s.Right := by
  intro notice id
  refine h.announced rfl hevents htells ?_
  simp [comesTo_self]

end Steps

/-! ## Events -/

section Internal

theorem internal_ofQuery {α β : Type} {f : Db → α} {g : α → Tx β} (h : ∀ a, (g a).Internal) :
    (Prog.query f >>= g).Internal :=
  fun db => h (f db)

theorem getTaskRow_internal (taskId : String) : (getTaskRow taskId).Internal := by
  refine internal_ofQuery fun row => ?_
  cases row <;> trivial

theorem loadTaskForNode_internal (nodeId taskId : String) :
    (loadTaskForNode nodeId taskId).Internal := by
  refine internal_ofQuery fun row => ?_
  cases row <;> trivial

theorem catchTaskState_internal {α : Type} {p : Tx α} {handler : String → Exc} (hp : p.Internal) :
    (catchTaskState p fun m => .raise (handler m)).Internal := by
  refine hp.tryCatch fun e => ?_
  cases e <;> trivial

theorem upsertTaskAttempt_internal (taskId nodeId status : String) (args : AttemptArgs) :
    (upsertTaskAttempt taskId nodeId status args).Internal := by
  refine internal_ofQuery fun row => ?_
  cases row <;> exact fun _ => trivial

theorem taskEvents_internal (nodeId : String) (payload : NodeTaskEventRequest) (now : Nat) :
    (taskEvents nodeId payload now).Internal := by
  refine (loadTaskForNode_internal _ _).bind fun _ => ?_
  refine Prog.Internal.bind (catchTaskState_internal ?_) fun _ => ?_
  · refine (getTaskRow_internal _).bind fun row => ?_
    simp only [applyNodeEvent]
    split
    · trivial
    · exact fun _ => getTaskRow_internal _
  · exact (upsertTaskAttempt_internal _ _ _ _).bind fun _ => trivial

theorem finalizeTaskResult_internal (taskId : String) (status : FinalStatus)
    (startedAt finishedAt nowIso : String) :
    (finalizeTaskResult taskId status startedAt finishedAt nowIso).Internal := by
  refine (getTaskRow_internal _).bind fun row => ?_
  split
  · trivial
  · refine Prog.Internal.bind (p := Prog.executeReturning _ _) (fun _ => trivial) fun rowcount => ?_
    split
    · refine (getTaskRow_internal _).bind fun row => ?_
      split <;> trivial
    · exact (getTaskRow_internal _).bind fun _ => trivial

end Internal

/-- A request of a node, up to its commit. -/
theorem asNode_untilCommit {α : Type} {I R : Db → World → Prop} {nodeId : String}
    {body : Node → Tx α} {w : Db} {x : World} (h : I w x)
    (hbody : ∀ node, (body node).untilCommit I R w x) :
    (asNode nodeId body).untilCommit I R w x := by
  refine Prog.untilCommit_bind (Prog.guarded_query h ?_)
  cases (w.nodes.get? nodeId).filter Node.isEnabled with
  | none => exact h
  | some node => exact hbody node

section Reports

variable {db : Db} {x : World} {nodeId : String} {now : Nat} {fault : Option (Nat × Exc)}

/-- An accepted event moves its task. -/
theorem EventDone.moves {payload : NodeTaskEventRequest} {after : Db}
    (h : EventDone nodeId payload now db after) :
    Moves payload.taskId payload.event.status db after := by
  obtain ⟨row, args, hrow, -, hacc, -, rfl⟩ := h
  have hkey : row.taskId = payload.taskId := Table.get?_key hrow
  exact moves_update (t := eventStmt payload row now) (by intro _ h; cases h) hrow
    (isActive_of_taskEventTransitions hacc) (decide_eq_true hkey) (fun _ => of_decide_eq_true)
    (fun _ => rfl) rfl

theorem event_untilCommit (payload : NodeTaskEventRequest) :
    (Report.event nodeId payload now).code.untilCommit (fun _ x' => x' = x)
      (fun w x' => EventDone nodeId payload now db w ∧ x' = x) db x := by
  refine asNode_untilCommit rfl fun _ => Prog.untilCommit_bind ?_
  refine Prog.guarded_mono ((taskEvents_internal nodeId payload now).guarded
    (taskEvents_ends nodeId payload now db)) (fun _ _ => id) ?_
  rintro ack w x' ⟨hdone, rfl⟩
  exact ⟨rfl, hdone, rfl⟩

/-- An event is announced never. -/
theorem event_right (payload : NodeTaskEventRequest) :
    let t : Trial := ⟨.event nodeId payload now, fault⟩
    ((t.step db x).Right ↔ ¬ Unannounced db x t) ∧ Absorbing db (t.step db x).after := by
  intro t
  rcases Trial.step_cases (t := t) (event_untilCommit payload) with
    ⟨hcommits, hdone, hsame⟩ | ⟨hfails, hafter, _, hsame⟩
  · have hun : Unannounced db x t ↔ ∃ notice, Notice.covers notice payload.event.status = true :=
      and_iff_right hcommits
    rw [hun]
    exact ⟨TrialStep.right_iff_of_moves hdone.moves (congrArg World.events hsame),
      hdone.moves.absorbing⟩
  · exact ⟨iff_of_true (TrialStep.right_of_same hafter hsame) fun h => hfails h.1,
      absorbing_of_eq hafter⟩

/-! ## Results -/

/-- The webhook event about a failed result. -/
def failedEvent (nodeId : String) (payload : NodeTaskResultRequest) : WebhookEvent :=
  ⟨"task.failed",
    .obj [("task_id", .str payload.taskId), ("node_id", .str nodeId),
      ("exit_code", payload.exitCode.elim .null .num),
      ("summary", .str (summaryPreview payload.summary))],
    "warning"⟩

theorem tells_failedEvent (payload : NodeTaskResultRequest) (notice : Notice) (id : String) :
    (failedEvent nodeId payload).tells notice id = true ↔
      id = payload.taskId ∧ notice.covers .failed = true := by
  cases notice <;>
    simp [WebhookEvent.tells, failedEvent, Notice.name, Notice.covers, WebhookEvent.taskId, eq_comm]

/-- An accepted result moves its task. -/
theorem ResultDone.moves {payload : NodeTaskResultRequest} {after : Db}
    (h : ResultDone nodeId payload db after) :
    Moves payload.taskId payload.finalStatus.status db after := by
  obtain ⟨row, startedAt, finishedAt, nowIso, args, hrow, -, hactive, hlock, -, -, rfl⟩ := h
  have hkey : row.taskId = payload.taskId := Table.get?_key hrow
  refine moves_update (t := .setResult payload.taskId payload.finalStatus startedAt finishedAt
    nowIso) (by intro _ h; cases h) hrow hactive ?_ (fun row hsel => ?_) (fun _ => rfl) rfl
  · simp [TaskStmt.selects, hkey, hlock, hactive]
  · simp only [TaskStmt.selects, Bool.and_eq_true, decide_eq_true_eq] at hsel
    exact hsel.1.1

/-- A result is locked in and announced if it is `failed`, or comes too late. -/
theorem result_untilCommit (payload : NodeTaskResultRequest) :
    (Report.result nodeId payload now).code.untilCommit (fun _ x' => x' = x)
      (fun w x' => (w = db ∧ x' = x ∧ Terminal payload.taskId db) ∨
        ResultDone nodeId payload db w ∧ x'.events =
          x.events ++ if payload.finalStatus = .failed then [failedEvent nodeId payload] else [])
      db x := by
  refine asNode_untilCommit rfl fun _ => ?_
  rw [silently, taskResult, Prog.bind_assoc]
  have hload : (loadTaskForNode nodeId payload.taskId).ends (fun _ _ _ => True)
      (fun row _ w => db.tasks.get? payload.taskId = some row ∧ row.nodeId = nodeId ∧ w = db)
      db db :=
    loadTaskForNode_ends (fun _ => trivial) fun row hrow hnode => ⟨hrow, hnode, rfl⟩
  refine Prog.untilCommit_bind (Prog.guarded_mono ((loadTaskForNode_internal _ _).guarded hload)
    (fun _ _ => id) ?_)
  rintro row w x' ⟨⟨hrow, hnode, hw⟩, hx⟩
  rw [hw, hx]
  simp only [Prog.bind_assoc]
  have hfinal : ∀ startedAt finishedAt nowIso,
      (finalizeTaskResult payload.taskId payload.finalStatus startedAt finishedAt nowIso).ends
        (fun _ _ _ => True) (fun r _ w =>
          (r.2 = true ∧ w = db ∧ Terminal payload.taskId db) ∨
            r.2 = false ∧ row.resultLockedAt = none ∧ row.status.isActive = true ∧
              w = { db with tasks := (TaskStmt.setResult payload.taskId payload.finalStatus
                startedAt finishedAt nowIso).apply db.tasks }) db db := by
    intro startedAt finishedAt nowIso
    refine finalizeTaskResult_ends (fun _ => trivial) ?_ ?_
    · intro row' new hrow' hlock hactive
      rw [hrow] at hrow'
      cases hrow'
      exact Or.inr ⟨rfl, hlock, hactive, rfl⟩
    · intro row' hrow' hterm
      exact Or.inl ⟨rfl, rfl, row', hrow', hterm⟩
  refine Prog.untilCommit_bind (Prog.guarded_mono ((catchTaskState_internal
    (finalizeTaskResult_internal _ _ _ _ _)).guarded (catchTaskState_ends (hfinal ..)))
    (fun _ _ => id) ?_)
  rintro ⟨new, duplicate⟩ w x' ⟨⟨hdup, hw, hterm⟩ | ⟨hdup, hlock, hactive, hw⟩, hx⟩
  · rw [hw, hx]
    simp only at hdup
    rw [hdup, if_pos rfl]
    exact ⟨rfl, Or.inl ⟨rfl, rfl, hterm⟩⟩
  · rw [hw, hx]
    simp only at hdup
    rw [hdup, if_neg Bool.false_ne_true]
    simp only [Prog.bind_assoc]
    have hattempt : ∀ startedAt finishedAt nowIso args, args.exitCode = payload.exitCode →
        args.summary = some payload.summary →
        (upsertTaskAttempt payload.taskId nodeId payload.finalStatus.status.text args).ends
          (fun _ _ _ => True) (fun _ _ => ResultDone nodeId payload db) db
          { db with tasks := (TaskStmt.setResult payload.taskId payload.finalStatus
            startedAt finishedAt nowIso).apply db.tasks } := by
      intro startedAt finishedAt nowIso args hexit hsummary
      rw [upsertTaskAttempt_ends]
      exact ⟨row, _, _, _, _, hrow, hnode, hactive, hlock, hexit, hsummary, rfl⟩
    refine Prog.untilCommit_bind (Prog.guarded_mono ((upsertTaskAttempt_internal _ _ _ _).guarded
      (hattempt _ _ _ _ rfl rfl)) (fun _ _ => id) ?_)
    rintro _ w x' ⟨hdone, hx⟩
    rw [hx]
    refine ⟨rfl, ?_⟩
    split
    · exact Prog.leaves_io (Prog.leaves_ret (Or.inr ⟨hdone, rfl⟩))
    · exact Prog.leaves_ret (Or.inr ⟨hdone, (List.append_nil _).symm⟩)

/-- A result is announced if it is `failed`. -/
theorem result_right (payload : NodeTaskResultRequest) :
    let t : Trial := ⟨.result nodeId payload now, fault⟩
    ((t.step db x).Right ↔ ¬ Unannounced db x t) ∧ Absorbing db (t.step db x).after := by
  intro t
  rcases Trial.step_cases (t := t) (result_untilCommit payload) with
    ⟨hcommits, ⟨hafter, hsame, row, hrow, hterm⟩ | ⟨hdone, hevents⟩⟩ | ⟨hfails, hafter, _, hsame⟩
  · have hnot : ¬ Unannounced db x t := by
      rintro ⟨-, -, row', hrow', hactive⟩
      cases hrow.symm.trans hrow'
      rw [not_isTerminal_of_isActive hactive] at hterm
      cases hterm
    exact ⟨iff_of_true (TrialStep.right_of_same hafter hsame) hnot, absorbing_of_eq hafter⟩
  · refine ⟨?_, hdone.moves.absorbing⟩
    have hmoves := hdone.moves
    obtain ⟨row, _, _, _, _, hrow, -, hactive, -⟩ := hdone
    have hun : Unannounced db x t ↔ payload.finalStatus = .timeout ∨ payload.finalStatus = .lost :=
      ⟨fun h => h.2.1, fun h => ⟨hcommits, h, row, hrow, hactive⟩⟩
    rw [hun]
    cases hfinal : payload.finalStatus with
    | failed =>
        rw [hfinal] at hmoves hevents
        exact iff_of_true (TrialStep.right_of_announced hmoves hevents (tells_failedEvent payload))
          (by simp)
    | succeeded | timeout | cancelled | lost =>
        rw [hfinal] at hmoves hevents
        rw [TrialStep.right_iff_of_moves hmoves (hevents.trans (List.append_nil _))]
        simp [Notice.exists_iff, FinalStatus.status, Notice.covers]
  · exact ⟨iff_of_true (TrialStep.right_of_same hafter hsame) fun h => hfails h.1,
      absorbing_of_eq hafter⟩

end Reports

/-! ## Passes of the scanner -/

/-- The webhook event about a reason to give up a task. -/
def Overdue.notice : Overdue → Notice
  | .timeout => .failed
  | .cancelAck _ | .unresponsive | .neverSeen => .lost

theorem Overdue.covers (reason : Overdue) : reason.notice.covers reason.status = true := by
  cases reason <;> rfl

section Scan

variable {now : Nat} {nowIso : String} {task : ActiveTask} {db w : Db} {x : World}

/-- The task given up is moved, its audit row inserted, and the webhook event emitted last. -/
theorem giveUp_guarded {event : TransitionEvent} {status : TaskStatus} {row : Task}
    (hevent : event = .backgroundTimeout ∧ status = .timeout ∨
      event = .backgroundLost ∧ status = .lost)
    (hrow : w.tasks.get? task.taskId = some row) (action : String) (detail : Json)
    (webhook : String) (payload : Json) (nowIso : String) (x : World) :
    (giveUp task event action detail webhook payload nowIso).guarded (fun _ x' => x' = x)
        (fun _ w' x' =>
          w'.tasks = (TaskStmt.setBackground task.taskId status nowIso).apply w.tasks ∧
            x'.events = x.events ++ [⟨webhook, payload, "warning"⟩]) w x ∧
      (giveUp task event action detail webhook payload nowIso).firstCommit w x = some 4 := by
  have hkey : row.taskId = task.taskId := Table.get?_key hrow
  have hnew : ((TaskStmt.setBackground task.taskId status nowIso).apply w.tasks).get? task.taskId =
      some ((TaskStmt.setBackground task.taskId status nowIso).edit row) :=
    TaskStmt.get?_apply_selected (by intro _ h; cases h) hrow (decide_eq_true hkey)
  rcases hevent with ⟨rfl, rfl⟩ | ⟨rfl, rfl⟩ <;>
    simp [giveUp, transitionTask, getTaskRow, emitEvent, Prog.effect, Prog.guarded,
      Prog.firstCommit, hrow, hnew, orElse_some_self, apply_tasks]

/-- What follows the verdict: nothing, or the task is given up with a webhook event about it. -/
theorem scanTask_eq (now : Nat) (nowIso : String) (task : ActiveTask) :
    ∃ act : Option Overdue → Tx Unit, scanTask now nowIso task = overdue task now >>= act ∧
      act none = pure () ∧ ∀ reason : Overdue, ∃ event action detail payload,
        act (some reason) =
            giveUp task event action detail reason.notice.name payload nowIso ∧
          (event = .backgroundTimeout ∧ reason.status = .timeout ∨
            event = .backgroundLost ∧ reason.status = .lost) ∧
          ∀ notice id,
            WebhookEvent.tells notice id ⟨reason.notice.name, payload, "warning"⟩ = true ↔
              id = task.taskId ∧ notice.covers reason.status = true := by
  refine ⟨_, rfl, rfl, fun reason => ?_⟩
  cases reason with
  | timeout =>
      refine ⟨_, _, _, _, rfl, Or.inl ⟨rfl, rfl⟩, fun notice id => ?_⟩
      cases notice <;> simp [WebhookEvent.tells, Overdue.notice, Overdue.status, Notice.name,
        Notice.covers, WebhookEvent.taskId, eq_comm]
  | cancelAck | unresponsive | neverSeen =>
      refine ⟨_, _, _, _, rfl, Or.inr ⟨rfl, rfl⟩, fun notice id => ?_⟩
      cases notice <;> simp [WebhookEvent.tells, Overdue.notice, Overdue.status, Notice.name,
        Notice.covers, WebhookEvent.taskId, eq_comm]

/-- In the middle of a pass the tasks to come are as they were, and what was given up is
announced. -/
structure Announcing (db : Db) (x : World) (rest : List ActiveTask) (w : Db) (x' : World) :
    Prop where
  distinct : (rest.map ActiveTask.taskId).Nodup
  waiting : ∀ task ∈ rest, ∃ row, db.tasks.get? task.taskId = some row ∧
    w.tasks.get? task.taskId = some row ∧ row.status.isActive = true
  told : ∀ notice id, told notice id x' =
    told notice id x + if comesTo notice id db w then 1 else 0
  absorbing : Absorbing db w

/-- The tasks of a pass are active. -/
theorem exists_row_of_mem_activeTasks (h : task ∈ activeTasks db) :
    ∃ row, db.tasks.get? task.taskId = some row ∧ row.status.isActive = true := by
  obtain ⟨row, hrow, hjoin⟩ := List.mem_filterMap.mp h
  obtain ⟨hmem, hactive⟩ := List.mem_filter.mp hrow
  obtain ⟨node, -, rfl⟩ := Option.map_eq_some_iff.mp hjoin
  exact ⟨row, Table.get?_of_mem hmem, hactive⟩

theorem Announcing.start (db : Db) (x : World) : Announcing db x (activeTasks db) db x where
  distinct := activeTasks_distinct db
  waiting task htask := by
    obtain ⟨row, hrow, hactive⟩ := exists_row_of_mem_activeTasks htask
    exact ⟨row, hrow, hrow, hactive⟩
  told notice id := by simp [comesTo_self]
  absorbing _ := Or.inl rfl

/-- A task that was not given up. -/
theorem Announcing.tail {rest : List ActiveTask} {x' : World}
    (h : Announcing db x (task :: rest) w x') : Announcing db x rest w x' where
  distinct := (List.nodup_cons.mp h.distinct).2
  waiting other hother := h.waiting other (List.mem_cons_of_mem _ hother)
  told := h.told
  absorbing := h.absorbing

/-- A task that was given up. -/
theorem Announcing.giveUp {rest : List ActiveTask} {x' x'' : World} {w' : Db}
    {status : TaskStatus} {e : WebhookEvent} (h : Announcing db x (task :: rest) w x')
    (htasks : w'.tasks = (TaskStmt.setBackground task.taskId status nowIso).apply w.tasks)
    (hevents : x''.events = x'.events ++ [e])
    (htells : ∀ notice id, e.tells notice id = true ↔
      id = task.taskId ∧ notice.covers status = true) : Announcing db x rest w' x'' := by
  obtain ⟨row, hrow, hfound, hactive⟩ := h.waiting task (List.mem_cons_self ..)
  have hkey : row.taskId = task.taskId := Table.get?_key hfound
  have hmoves : Moves task.taskId status w w' :=
    moves_update (t := .setBackground task.taskId status nowIso) (by intro _ h; cases h) hfound
      hactive (decide_eq_true hkey) (fun _ => of_decide_eq_true) (fun _ => rfl) htasks
  have hdb : statusOf task.taskId db = statusOf task.taskId w := by
    rw [statusOf, hrow, statusOf, hfound]
  refine ⟨h.tail.distinct, fun other hother => ?_, fun notice id => ?_, fun id => ?_⟩
  · obtain ⟨old, hold, hsame, hrun⟩ := h.waiting other (List.mem_cons_of_mem _ hother)
    have hne : other.taskId ≠ task.taskId := by
      intro heq
      exact (List.nodup_cons.mp h.distinct).1 (List.mem_map.mpr ⟨other, hother, heq⟩)
    refine ⟨old, hold, ?_, hrun⟩
    rw [htasks, TaskStmt.get?_apply (by intro _ h; cases h), hsame, Option.map_some, if_neg]
    intro hsel
    exact hne ((Table.get?_key hsame).symm.trans (of_decide_eq_true hsel))
  · exact hmoves.announced hdb hevents htells (h.told notice id)
  · rcases hmoves.absorbing id with hsame | hrun
    · rw [hsame]
      exact h.absorbing id
    · by_cases hid : id = task.taskId
      · rw [hid, hdb]
        exact Or.inr hmoves.active
      · rcases h.absorbing id with hsame | hactive
        · exact Or.inr (hsame ▸ hrun)
        · exact Or.inr hactive

/-- What a pass that is committed leaves. -/
theorem scan_untilCommit :
    (Report.scan now).code.untilCommit (fun _ _ => True) (Announcing db x []) db x := by
  rw [Report.code, silently, markLostTasks, Prog.bind_assoc]
  refine Prog.untilCommit_bind (Prog.guarded_query trivial ?_)
  refine Prog.untilCommit_bind (Prog.guarded_mono (Prog.guarded_forEach
    (J := Announcing db x) ?_ (Announcing.start db x)) (fun _ _ => id) fun _ _ _ h => ⟨trivial, h⟩)
  intro task rest w x' h
  obtain ⟨act, hscan, hnone, hsome⟩ := scanTask_eq now (utcNowIso now) task
  rw [hscan]
  have hreads : (overdue task now).ReadsAlike w w := overdue_readsAlike rfl
  refine Prog.guarded_bind (Prog.guarded_mono (hreads.guarded trivial) (fun _ _ => id) ?_)
  rintro reason w' x'' ⟨hw, hx, -⟩
  rw [hw, hx]
  cases reason with
  | none =>
      rw [hnone]
      exact h.tail
  | some reason =>
      obtain ⟨event, action, detail, payload, hact, hevent, htells⟩ := hsome reason
      obtain ⟨row, -, hfound, -⟩ := h.waiting task (List.mem_cons_self ..)
      rw [hact]
      refine Prog.guarded_mono (giveUp_guarded hevent hfound action detail reason.notice.name
        payload (utcNowIso now) x').1 (fun _ _ _ => trivial) ?_
      rintro _ w'' x'' ⟨htasks, hevents⟩
      exact h.giveUp htasks hevents htells

/-- A pass takes no announcement back. -/
theorem scanTask_grows {notice : Notice} {taskId : String} {n : Nat}
    (h : n ≤ told notice taskId x) :
    (scanTask now nowIso task).guarded (fun _ x' => n ≤ told notice taskId x')
      (fun _ _ x' => n ≤ told notice taskId x') w x := by
  obtain ⟨act, hscan, hnone, hsome⟩ := scanTask_eq now nowIso task
  have hreads : (overdue task now).ReadsAlike w w := overdue_readsAlike rfl
  rw [hscan]
  refine Prog.guarded_bind (Prog.guarded_mono (hreads.guarded h) (fun _ _ => id) ?_)
  rintro reason w' x' ⟨hw, hx, -⟩
  rw [hw, hx]
  cases reason with
  | none =>
      rw [hnone]
      exact h
  | some reason =>
      obtain ⟨event, action, detail, payload, hact, hevent, -⟩ := hsome reason
      rw [hact]
      cases hrow : w.tasks.get? task.taskId with
      | none => simp [giveUp, transitionTask, getTaskRow, Prog.guarded, hrow, h]
      | some row =>
          refine Prog.guarded_mono (giveUp_guarded hevent hrow action detail reason.notice.name
            payload nowIso x).1 (fun _ _ hsame => hsame ▸ h) ?_
          rintro _ _ x'' ⟨-, hevents⟩
          rw [told_append hevents]
          exact Nat.le_add_right_of_le h

/-- The rest of a pass. -/
def restOfPass (now : Nat) (tasks : List ActiveTask) : Tx (Option HeartbeatResponse) :=
  Prog.forEach tasks (scanTask now (utcNowIso now)) >>= fun _ => pure none

theorem restOfPass_cons (task : ActiveTask) (rest : List ActiveTask) :
    restOfPass now (task :: rest) =
      scanTask now (utcNowIso now) task >>= fun _ => restOfPass now rest := by
  rw [restOfPass, Prog.forEach_cons, Prog.bind_assoc]
  rfl

theorem restOfPass_grows {notice : Notice} {taskId : String} {n : Nat}
    (h : n ≤ told notice taskId x) (rest : List ActiveTask) (fault : Option (Nat × Exc)) (c : Db) :
    n ≤ told notice taskId (((restOfPass now rest).withFault fault).exec c w x).outside := by
  refine Prog.outside_of_untilCommit (K := fun x' => n ≤ told notice taskId x') ?_ fault
  exact Prog.untilCommit_bind (Prog.guarded_mono (Prog.guarded_forEach
    (J := fun _ _ x' => n ≤ told notice taskId x') (fun _ _ _ _ hw => scanTask_grows hw) h)
    (fun _ _ => id) fun _ _ _ hw => ⟨hw, hw⟩)

section GivesUpBefore

variable {rest : List ActiveTask} {fault : Option (Nat × Exc)} {k : Nat}

theorem givesUpBefore_next (hk : (overdue task now).firstCommit db x = some k)
    (hresult : (overdue task now).resultOf db x = .ok none) (hpass : ∀ f ∈ fault, k ≤ f.1) :
    GivesUpBefore now db x (task :: rest) fault ↔
      GivesUpBefore now db x rest (Prog.faultAfter k fault) := by
  constructor
  · rintro ⟨k', hk', ⟨-, -, h⟩ | ⟨reason, hreason, -⟩⟩
    · cases hk.symm.trans hk'
      exact h
    · cases hresult.symm.trans hreason
  · intro h
    exact ⟨k, hk, Or.inl ⟨hresult, hpass, h⟩⟩

theorem givesUpBefore_here (hk : (overdue task now).firstCommit db x = some k) {reason : Overdue}
    (hresult : (overdue task now).resultOf db x = .ok (some reason)) :
    GivesUpBefore now db x (task :: rest) fault ↔ ∀ f ∈ fault, k + 4 ≤ f.1 := by
  constructor
  · rintro ⟨k', hk', ⟨hnone, -⟩ | ⟨_, -, h⟩⟩
    · cases hresult.symm.trans hnone
    · cases hk.symm.trans hk'
      exact h
  · intro h
    exact ⟨k, hk, Or.inr ⟨reason, hresult, h⟩⟩

/-- A verdict that is not reached. -/
theorem not_givesUpBefore
    (h : ∀ k, (overdue task now).firstCommit db x = some k → ¬ ∀ f ∈ fault, k ≤ f.1) :
    ¬ GivesUpBefore now db x (task :: rest) fault := by
  rintro ⟨k, hk, ⟨-, hpass, -⟩ | ⟨_, -, hpass⟩⟩
  · exact h k hk hpass
  · exact h k hk fun f hf => Nat.le_of_add_right_le (hpass f hf)

end GivesUpBefore

/-- A pass that may fail announces something if it gives up a task before that, and nothing
else. -/
theorem pass_outside (now : Nat) {c : Db} (tasks : List ActiveTask)
    (hrows : ∀ task ∈ tasks, ∃ row, db.tasks.get? task.taskId = some row)
    (fault : Option (Nat × Exc)) :
    (GivesUpBefore now db x tasks fault ∧ ∃ notice taskId, told notice taskId x <
        told notice taskId (((restOfPass now tasks).withFault fault).exec c db x).outside) ∨
      ¬ GivesUpBefore now db x tasks fault ∧
        (((restOfPass now tasks).withFault fault).exec c db x).outside = x := by
  induction tasks generalizing fault with
  | nil =>
      have hnil : (restOfPass now []).untilCommit (fun _ x' => x' = x) (fun _ x' => x' = x) db x :=
        ⟨rfl, rfl⟩
      exact Or.inr ⟨id, Prog.outside_of_untilCommit (K := fun x' => x' = x) hnil fault⟩
  | cons task rest ih =>
      obtain ⟨row, hrow⟩ := hrows task (List.mem_cons_self ..)
      obtain ⟨act, hscan, hnone, hsome⟩ := scanTask_eq now (utcNowIso now) task
      have hreads : (overdue task now).ReadsAlike db db := overdue_readsAlike rfl
      have hverdict : (overdue task now).guarded (fun _ x' => x' = x)
          (fun reason w' x' => w' = db ∧ x' = x ∧ (overdue task now).resultOf db x = .ok reason)
          db x :=
        hreads.guarded rfl
      rw [restOfPass_cons, hscan, Prog.bind_assoc]
      rcases Prog.guarded_cases (c := c) (fun reason => act reason >>= fun _ => restOfPass now rest)
        fault hverdict with
        ⟨k, hk, hpass, reason, w, x', ⟨hw, hx, hresult⟩, hexec⟩ | ⟨hfails, e, w, x', hx, hexec⟩
      · rw [hexec, hw, hx]
        cases reason with
        | none =>
            rw [givesUpBefore_next hk hresult hpass, hnone]
            exact ih (fun other hother => hrows other (List.mem_cons_of_mem _ hother)) _
        | some reason =>
            obtain ⟨event, action, detail, payload, hact, hevent, htells⟩ := hsome reason
            obtain ⟨hgive, hfour⟩ := giveUp_guarded hevent hrow action detail reason.notice.name
              payload (utcNowIso now) x
            rw [givesUpBefore_here hk hresult, ← Prog.le_faultAfter_iff hpass, hact]
            rcases Prog.guarded_cases (c := c) (fun _ => restOfPass now rest)
              (Prog.faultAfter k fault) hgive with
              ⟨k', hk', hpass', _, w', x'', ⟨-, hevents⟩, hexec'⟩ |
                ⟨hfails, e, w', x'', hx', hexec'⟩
            · cases hfour.symm.trans hk'
              refine Or.inl ⟨hpass', reason.notice, task.taskId, ?_⟩
              have htold := told_append hevents reason.notice task.taskId
              rw [if_pos ((htells _ _).mpr ⟨rfl, reason.covers⟩)] at htold
              rw [hexec']
              exact restOfPass_grows htold.ge rest _ c
            · rw [hexec']
              exact Or.inr ⟨hfails 4 hfour, hx'⟩
      · rw [hexec]
        exact Or.inr ⟨not_givesUpBefore hfails, hx⟩

/-- A pass is right unless it is rolled back with a task given up. -/
theorem scan_right {fault : Option (Nat × Exc)} :
    let t : Trial := ⟨.scan now, fault⟩
    ((t.step db x).Right ↔ ¬ Unannounced db x t) ∧ Absorbing db (t.step db x).after := by
  intro t
  rcases Trial.step_cases (t := t) scan_untilCommit with
    ⟨hcommits, hdone⟩ | ⟨hfails, hafter, -⟩
  · exact ⟨iff_of_true hdone.told fun h => h.1 hcommits, hdone.absorbing⟩
  · refine ⟨?_, absorbing_of_eq hafter⟩
    have hright : (t.step db x).Right ↔
        ∀ notice taskId, told notice taskId (t.step db x).outside = told notice taskId x := by
      rw [TrialStep.Right, hafter]
      show (∀ notice taskId, told notice taskId _ = told notice taskId x +
        if comesTo notice taskId db db = true then 1 else 0) ↔ _
      simp [comesTo_self]
    have hcode : (Report.scan now).code = Prog.query activeTasks >>= restOfPass now := by
      rw [Report.code, silently, markLostTasks, Prog.bind_assoc]
      rfl
    have houtside : (t.step db x).outside =
        (((Prog.query activeTasks >>= restOfPass now).withFault fault).exec db db x).outside := by
      rw [← hcode]
      exact Prog.Out.close_outside _
    have hun : Unannounced db x t ↔ (∀ f ∈ fault, 0 < f.1) ∧
        GivesUpBefore now db x (activeTasks db) (Prog.faultAfter 1 fault) := and_iff_right hfails
    rw [hright, hun, houtside]
    rcases Prog.fault_cases fault with ⟨e, rfl⟩ | hpos
    · refine iff_of_true (fun _ _ => rfl) fun h => ?_
      exact Nat.lt_irrefl 0 (h.1 _ rfl)
    · rw [Prog.query_bind, Prog.withFault_select hpos, Prog.exec_select, and_iff_right hpos]
      rcases pass_outside now (c := db) (x := x) (activeTasks db)
        (fun task htask => (exists_row_of_mem_activeTasks htask).imp fun _ h => h.1)
        (Prog.faultAfter 1 fault) with ⟨hgives, notice, taskId, hgrows⟩ | ⟨hnot, hsame⟩
      · refine iff_of_false (fun hkeeps => ?_) fun hnot => hnot hgives
        exact Nat.lt_irrefl _ (hkeeps notice taskId ▸ hgrows)
      · exact iff_of_true (fun notice taskId => congrArg _ hsame) hnot

end Scan

/-! ## Whole runs -/

section Trials

variable (db : Db) (x : World) (t : Trial)

theorem Trial.right_iff :
    ((t.step db x).Right ↔ ¬ Unannounced db x t) ∧ Absorbing db (t.step db x).after := by
  obtain ⟨report, fault⟩ := t
  cases report with
  | event nodeId payload now => exact event_right payload
  | result nodeId payload now => exact result_right payload
  | scan now => exact scan_right

variable {db} {notice : Notice} {taskId : String}

/-- A status that is to be announced stays. -/
theorem Absorbing.covers {after : Db} (h : Absorbing db after)
    (hcovers : (statusOf taskId db).any notice.covers = true) :
    (statusOf taskId after).any notice.covers = true := by
  rcases h taskId with hsame | hactive
  · rw [hsame]
    exact hcovers
  · cases hstatus : statusOf taskId db with
    | none =>
        rw [hstatus] at hactive
        cases hactive
    | some s =>
        rw [hstatus] at hactive hcovers
        cases (covers_of_isActive hactive).symm.trans hcovers

/-- The task comes to no such status again. -/
theorem not_comesTo_of_covers {x : World} {ts : List Trial}
    (hcovers : (statusOf taskId db).any notice.covers = true) :
    ((trials db x ts).any fun s => comesTo notice taskId s.before s.after) = false := by
  induction ts generalizing db x with
  | nil => rfl
  | cons t ts ih =>
      have hafter := (t.right_iff db x).2.covers hcovers
      have hnot : comesTo notice taskId db (t.step db x).after = false := by
        rw [comesTo, hcovers]
        rfl
      rw [trials, List.any_cons]
      simp only [Bool.or_eq_false_iff]
      exact ⟨hnot, ih hafter⟩

variable {x} {t}

/-- After a step that is right the rest has to be. -/
theorem notifies_cons (hright : (t.step db x).Right) (ts : List Trial) :
    Notifies db x (t :: ts) ↔ Notifies (t.step db x).after (t.step db x).outside ts := by
  refine forall_congr' fun notice => forall_congr' fun taskId => ?_
  have htold := hright notice taskId
  rw [trials, List.any_cons]
  show told notice taskId (afterTrials (t.step db x).after (t.step db x).outside ts).2 = _ ↔ _
  cases hcomes : comesTo notice taskId (t.step db x).before (t.step db x).after with
  | false =>
      rw [hcomes, if_neg Bool.false_ne_true] at htold
      rw [Bool.false_or, htold]
      rfl
  | true =>
      -- The rest announces nothing about this task.
      have hcovers : (statusOf taskId (t.step db x).after).any notice.covers = true :=
        (Bool.and_eq_true_iff.mp hcomes).2
      rw [hcomes, if_pos rfl] at htold
      rw [Bool.true_or, if_pos rfl, not_comesTo_of_covers hcovers, if_neg Bool.false_ne_true, htold]
      rfl

end Trials

/-- In a run of events, results and passes, any of which may fail, each task that comes to a failed
or lost status has been announced once in every state, and no other task, if and only if no event
of such a status and no result `timeout` or `lost` is accepted and no pass is rolled back when it
has given up a task. -/
theorem failures_notified_iff (db : Db) (x : World) (ts : List Trial) :
    (∀ past, past <+: ts → Notifies db x past) ↔
      ∀ s ∈ trials db x ts, ¬ Unannounced s.before s.sent s.trial := by
  induction ts generalizing db x with
  | nil =>
      refine iff_of_true (fun past hpast notice taskId => ?_) fun s hs => ?_
      · rw [List.prefix_nil.mp hpast]
        rfl
      · cases hs
  | cons t ts ih =>
      have hstep : ¬ Unannounced db x t ↔ (t.step db x).Right := (t.right_iff db x).1.symm
      rw [trials, List.forall_mem_cons]
      show _ ↔ ¬ Unannounced db x t ∧ _
      rw [hstep]
      constructor
      · intro h
        have hright : (t.step db x).Right := by
          intro notice taskId
          have hone := h [t] (List.prefix_cons_inj t |>.mpr List.nil_prefix) notice taskId
          rw [trials, trials, List.any_cons, List.any_nil, Bool.or_false] at hone
          exact hone
        refine ⟨hright, (ih ..).mp fun past hpast => ?_⟩
        exact (notifies_cons hright past).mp (h (t :: past) ((List.prefix_cons_inj t).mpr hpast))
      · rintro ⟨hright, hrest⟩ past hpast
        cases past with
        | nil => exact fun _ _ => rfl
        | cons t' past =>
            obtain ⟨rfl, hrun⟩ := List.cons_prefix_cons.mp hpast
            exact (notifies_cons hright past).mpr ((ih ..).mpr hrest past hrun)

/-- A task has been claimed. -/
def claimedDb : Db := (finish {} plainCrypto {} {} claimTask).1

/-- A result `failed` whose first statement fails, and the same result again. -/
theorem failures_notified_repeated :
    let report : Report := .result "n" { taskId := "t", finalStatus := .failed } 1
    ∀ past, past <+: [⟨report, some (0, .operational)⟩, ⟨report, none⟩] →
      Notifies claimedDb {} past := by
  intro report
  refine (failures_notified_iff claimedDb {} _).mpr fun s hs => ?_
  rcases List.mem_cons.mp hs with rfl | hs
  · rintro ⟨-, h | h, -⟩ <;> cases h
  · rw [trials, trials, List.mem_singleton] at hs
    subst hs
    rintro ⟨-, h | h, -⟩ <;> cases h

/-- Nothing is announced when an event `failed` or a result `timeout` is accepted, and a loss is
announced twice when the commit of the pass fails that finds it. -/
theorem failures_not_notified :
    ¬ Notifies claimedDb {} [⟨.event "n" { taskId := "t", event := .failed } 1, none⟩] ∧
      ¬ Notifies claimedDb {} [⟨.result "n" { taskId := "t", finalStatus := .timeout } 1, none⟩] ∧
        ¬ Notifies claimedDb {} [⟨.scan 100000000, some (5, .operational)⟩,
          ⟨.scan 200000000, none⟩] := by
  refine ⟨fun h => ?_, fun h => ?_, fun h => ?_⟩
  · exact absurd (h .failed "t") (by decide +kernel)
  · exact absurd (h .failed "t") (by decide +kernel)
  · exact absurd (h .lost "t") (by decide +kernel)

end GpuFleet
