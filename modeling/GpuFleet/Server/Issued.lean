import GpuFleet.Server.Permitted

/-!
# The statements of an operation

`SystemOp.Issued` lists the statements on tasks, attempts and alerts that an
operation executes, with the values its arguments fix in them.  A program
`Executes` the statements of a list when it executes no other, whatever it
reads; `SystemOp.code_executes` goes through the programs of all operations.

`Permitted` says when an operation executes a statement, and `Issued` which
operation does.  `Step.Runs.keeps_issued` takes a property of databases through
a step with both.
-/

namespace GpuFleet

open Foundations

/-! ## The list -/

/-- The updates of a task that a transition executes. -/
def TransitionEvent.Updates (taskId : String) (args : TransitionArgs) :
    TransitionEvent → TaskStmt → Prop
  | .node _, q => ∃ status startedAt finishedAt, q = .setEvent taskId status startedAt finishedAt
  | .cancel, q => (∃ finishedAt, q = .setCancelled taskId finishedAt) ∨
      q = .setCancelRequested taskId args.finishedAt
  | .reviewEscalate, q => q = .setEscalated taskId args.nowIso
  | .reviewApprove, q => ∃ level, q = .setApproved taskId level args.reviewAdminId args.nowIso
  | .reviewReject, q => q = .setRejected taskId args.reviewAdminId args.nowIso
  | .reviewExpire, q => q = .setReviewExpired taskId args.nowIso
  | .backgroundTimeout, q | .backgroundLost, q =>
      ∃ status finishedAt, q = .setBackground taskId status finishedAt

namespace SystemOp

/-- The statements on `tasks`. -/
def IssuesTask : SystemOp → TaskStmt → Prop
  | createTask .., q => ∃ row, q = .insert row
  | cancel taskId _ now, q => TransitionEvent.cancel.Updates taskId
      { nowIso := utcNowIso now, finishedAt := some (utcNowIso now) } q
  | escalate taskId _ _ now, q => q = .setEscalated taskId (utcNowIso now)
  | approve taskId _ admin now, q =>
      ∃ level, q = .setApproved taskId level (some admin.id) (utcNowIso now)
  | reject taskId _ admin now, q => q = .setRejected taskId (some admin.id) (utcNowIso now)
  | heartbeat nodeId _ now, q => q = .claimNext nodeId (utcNowIso now) ∨
      ∃ taskId, q = .setReported taskId (utcNowIso now)
  | event _ payload _, q => ∃ status startedAt finishedAt,
      q = .setEvent payload.taskId status startedAt finishedAt
  | result _ payload _, q => ∃ status startedAt finishedAt nowIso,
      q = .setResult payload.taskId status startedAt finishedAt nowIso
  | markLost _, q => ∃ taskId status finishedAt, q = .setBackground taskId status finishedAt
  | expireReviews now, q => ∃ taskId, q = .setReviewExpired taskId (utcNowIso now)
  | _, _ => False

/-- The statements on `alert_messages`. -/
def IssuesAlert : SystemOp → AlertStmt → Prop
  | createTask .., q | escalate .., q => ∃ row, q = .insert row
  | approve taskId _ _ now, q | reject taskId _ _ now, q => q = .actioned taskId (utcNowIso now)
  | expireReviews _, q => ∃ taskId, q = .expired taskId
  | _, _ => False

/-- The operation is a report of a node about a task. -/
def isReport : SystemOp → Bool
  | event .. | result .. => true
  | _ => false

/-- The statements of the operation, those on other tables left open. -/
def Issued (op : SystemOp) : Dml → Prop
  | .task q => op.IssuesTask q
  | .alert q => op.IssuesAlert q
  | .attempt _ => op.isReport = true
  | _ => True

end SystemOp

/-! ## Programs -/

/-- The program executes allowed statements only. -/
def Executes {α : Type} (allowed : Dml → Prop) (p : Tx α) : Prop :=
  p.Avoids (fun _ => True) (fun q => ¬ allowed q) fun _ => True

section Executes

variable {allowed : Dml → Prop} {α β : Type}

theorem Executes.bind {p : Tx α} {g : α → Tx β} (hp : Executes allowed p)
    (hg : ∀ a, Executes allowed (g a)) : Executes allowed (p >>= g) :=
  Prog.Avoids.bind hp fun a _ => hg a

theorem executes_query {f : Db → α} : Executes allowed (Prog.query f) := fun _ _ => trivial

theorem executes_execute {q : Dml} (h : allowed q) : Executes allowed (Prog.execute q) :=
  ⟨not_not_intro h, fun _ _ => trivial⟩

theorem executes_executeReturning {q : Dml} {f : Db → α} (h : allowed q) :
    Executes allowed (Prog.executeReturning q f) :=
  ⟨not_not_intro h, fun _ _ => trivial⟩

theorem executes_ofExcept {r : Except Exc α} : Executes allowed (ofExcept r) := by
  cases r <;> trivial

theorem executes_reconnect : Executes allowed reconnect := trivial

theorem executes_emitEvent {name severity : String} {payload : Json} :
    Executes allowed (emitEvent name payload severity) := fun _ => trivial

theorem Executes.catch {p : Tx α} {handler : String → Exc} (hp : Executes allowed p) :
    Executes allowed (catchTaskState p fun m => .raise (handler m)) :=
  Prog.Avoids.tryCatch hp fun e => by cases e <;> trivial

theorem Executes.forEach {l : List β} {body : β → Tx Unit} (h : ∀ b, Executes allowed (body b)) :
    Executes allowed (Prog.forEach l body) :=
  Prog.Avoids.forEach fun b _ => h b

theorem Executes.silently {p : Tx α} (hp : Executes allowed p) : Executes allowed (silently p) :=
  hp.bind fun _ => trivial

theorem Executes.mono {allowed' : Dml → Prop} {p : Tx α} (hp : Executes allowed p)
    (h : ∀ q, allowed q → allowed' q) : Executes allowed' p :=
  Prog.Avoids.weaken hp fun q hq hallowed => hq (h q hallowed)

/-! ## The parts of operations -/

theorem getTaskRow_executes (taskId : String) : Executes allowed (getTaskRow taskId) :=
  executes_query.bind fun row => by cases row <;> trivial

theorem loadTaskForNode_executes (nodeId taskId : String) :
    Executes allowed (loadTaskForNode nodeId taskId) :=
  executes_query.bind fun row => by cases row <;> trivial

theorem findNode_executes (nodeId : String) : Executes allowed (findNode nodeId) :=
  executes_query.bind fun row => by cases row <;> trivial

theorem taskRowToDetail_executes (row : Task) : Executes allowed (taskRowToDetail row) :=
  executes_query.bind fun _ => executes_query.bind fun _ => trivial

theorem upsertTaskAttempt_executes (taskId nodeId status : String) (args : AttemptArgs)
    (h : ∀ q, allowed (.attempt q)) :
    Executes allowed (upsertTaskAttempt taskId nodeId status args) := by
  refine executes_query.bind fun row => ?_
  cases row <;> exact executes_execute (h _)

/-- An update and the row again. -/
theorem update_executes {q : Dml} (taskId : String) (h : allowed q) :
    Executes allowed (Prog.execute q >>= fun _ => getTaskRow taskId) :=
  (executes_execute h).bind fun _ => getTaskRow_executes taskId

theorem transitionTask_executes (taskId : String) (event : TransitionEvent) (args : TransitionArgs)
    (h : ∀ q, event.Updates taskId args q → allowed (.task q)) :
    Executes allowed (transitionTask taskId event args) := by
  refine (getTaskRow_executes taskId).bind fun row => ?_
  cases event with
  | node e =>
      simp only [applyNodeEvent]
      split
      · trivial
      · exact update_executes taskId (h _ ⟨_, _, _, rfl⟩)
  | cancel =>
      simp only [applyCancel]
      split
      · trivial
      · split
        · exact update_executes taskId (h _ (Or.inl ⟨_, rfl⟩))
        · split
          · exact update_executes taskId (h _ (Or.inr rfl))
          · trivial
  | reviewEscalate =>
      simp only
      split
      · trivial
      · split
        · trivial
        · exact update_executes taskId (h _ rfl)
  | reviewApprove =>
      simp only
      split
      · trivial
      · exact update_executes taskId (h _ ⟨_, rfl⟩)
  | reviewReject | reviewExpire =>
      simp only
      split
      · trivial
      · exact update_executes taskId (h _ rfl)
  | backgroundTimeout | backgroundLost => exact update_executes taskId (h _ ⟨_, _, rfl⟩)

/-- A read, a transition and both rows. -/
theorem readThenTransition_executes (taskId : String) (event : TransitionEvent)
    (args : TransitionArgs) (h : ∀ q, event.Updates taskId args q → allowed (.task q)) :
    Executes allowed (do
      let row ← getTaskRow taskId
      let saved ← transitionTask taskId event args
      pure (row, saved)) :=
  (getTaskRow_executes taskId).bind fun _ => (transitionTask_executes taskId event args h).bind
    fun _ => trivial

theorem checkCooldown_executes (taskId : String) (row : Task) (now : Nat) :
    Executes allowed (checkCooldown taskId row now) := by
  unfold checkCooldown
  split
  · trivial
  · split
    · trivial
    · refine executes_ofExcept.bind fun _ => ?_
      split <;> trivial

theorem finalizeTaskResult_executes (taskId : String) (status : FinalStatus) (a b c : String)
    (h : allowed (.task (.setResult taskId status a b c))) :
    Executes allowed (finalizeTaskResult taskId status a b c) := by
  refine (getTaskRow_executes taskId).bind fun row => ?_
  simp only
  split
  · trivial
  · refine (executes_executeReturning h).bind fun rowcount => ?_
    split
    · refine (getTaskRow_executes taskId).bind fun row => ?_
      split <;> trivial
    · exact (getTaskRow_executes taskId).bind fun _ => trivial

theorem overdue_executes (task : ActiveTask) (now : Nat) : Executes allowed (overdue task now) := by
  refine executes_ofExcept.bind fun timedOut => ?_
  split
  · trivial
  · split
    · refine Executes.bind (p := latestCancelRequestedAt task.taskId) ?_ fun _ => trivial
      refine executes_query.bind fun row => ?_
      cases row with
      | none => trivial
      | some row => exact executes_ofExcept
    · exact executes_ofExcept.bind fun _ => trivial

theorem checkTarget_executes (payload : AdminTaskCreateRequest) :
    Executes allowed (checkTarget payload) := by
  refine executes_query.bind fun node => ?_
  cases node with
  | none => trivial
  | some node =>
      simp only
      repeat' split
      all_goals trivial

theorem asNode_executes {nodeId : String} {body : Node → Tx α}
    (h : ∀ node, Executes allowed (body node)) : Executes allowed (asNode nodeId body) := by
  refine executes_query.bind fun node => ?_
  cases node with
  | none => trivial
  | some node => exact h node

end Executes

/-! ## Operations -/

section Operations

variable (settings : Settings) (crypto : Crypto)

theorem auditTask_executes (op : SystemOp) (admin : Admin) (action taskId nowIso : String)
    (detail : Json) : Executes op.Issued (auditTask admin action taskId detail nowIso) :=
  executes_execute (show op.Issued (.insertAudit _) from trivial)

theorem renewSecret_executes {allowed : Dml → Prop} (hnode : ∀ q, allowed (.node q))
    (haudit : ∀ row, allowed (.insertAudit row)) (action nodeId : String) (secret : NewSecret)
    (admin : Admin) (now : Nat) :
    Executes allowed (renewSecret crypto action nodeId secret admin now) :=
  executes_ofExcept.bind fun _ => (findNode_executes nodeId).bind fun _ =>
    (executes_execute (hnode _)).bind fun _ => (executes_execute (haudit _)).bind fun _ =>
      findNode_executes nodeId

theorem createTask_executes (payload : AdminTaskCreateRequest) (ctx : CreateContext) :
    Executes (SystemOp.createTask payload ctx).Issued (createTask payload ctx) := by
  have created : ∀ (taskId : String) (detail : Json) (k : Option Task → Tx AdminTaskDetail),
      (∀ row, Executes (SystemOp.createTask payload ctx).Issued (k row)) →
      Executes (SystemOp.createTask payload ctx).Issued (do
        auditTask ctx.admin "create_task" taskId detail (utcNowIso ctx.now)
        reconnect
        let row ← Prog.query fun db => db.tasks.get? taskId
        k row) := by
    intro taskId detail k hk
    exact (auditTask_executes ..).bind fun _ => executes_reconnect.bind fun _ =>
      executes_query.bind hk
  have alerted : ∀ (taskId nowIso summary : String) (detail : Json)
      (k : Option Task → Tx AdminTaskDetail),
      (∀ row, Executes (SystemOp.createTask payload ctx).Issued (k row)) →
      Executes (SystemOp.createTask payload ctx).Issued (do
        createReviewAlert taskId payload.type payload.nodeId nowIso summary ctx.now
        auditTask ctx.admin "create_task" taskId detail (utcNowIso ctx.now)
        reconnect
        let row ← Prog.query fun db => db.tasks.get? taskId
        k row) := by
    intro taskId nowIso summary detail k hk
    exact Executes.bind (p := createReviewAlert ..) (executes_execute ⟨_, rfl⟩) fun _ =>
      created taskId detail k hk
  refine (checkTarget_executes payload).bind fun _ => executes_query.bind fun existing => ?_
  split
  · trivial
  · refine (executes_executeReturning ⟨_, rfl⟩).bind fun conflict => ?_
    split
    · trivial
    · simp only
      split
      · split
        · exact alerted _ _ _ _ _ fun row => by cases row <;> trivial
        · exact created _ _ _ fun row => by cases row <;> trivial
      · refine Executes.bind (p := insertReviewAudit ..) (executes_execute trivial) fun _ => ?_
        split
        · exact alerted _ _ _ _ _ fun row => by cases row <;> trivial
        · exact created _ _ _ fun row => by cases row <;> trivial

theorem heartbeat_executes (keep : Nat) (nodeId : String) (node : Node) (payload : HeartbeatRequest)
    (now : Nat) : Executes (SystemOp.heartbeat nodeId payload now).Issued
      (heartbeat keep nodeId node payload now) := by
  have sync : Executes (SystemOp.heartbeat nodeId payload now).Issued
      (syncReportedActiveTask nodeId payload.activeTaskId (utcNowIso now)) := by
    unfold syncReportedActiveTask
    split
    · trivial
    · split
      · trivial
      · refine executes_query.bind fun row => ?_
        cases row with
        | none => trivial
        | some row =>
            simp only
            split
            · exact (executes_execute (Or.inr ⟨_, rfl⟩)).bind fun _ => executes_query
            · trivial
  have respond : ∀ claimed : Option Task, Executes (SystemOp.heartbeat nodeId payload now).Issued
      (do
        let taskControls ← Prog.query fun db => cancelControls db nodeId
        reconnect
        Prog.execute (.snapshot (.trim nodeId keep))
        reconnect
        let refreshFingerprint ← takeFingerprintRefresh nodeId
        pure ({ serverTime := utcNowIso now
                nodeId
                tasks := (claimed.map Task.envelope).toList
                taskControls
                refreshFingerprint } : HeartbeatResponse)) := fun claimed =>
    executes_query.bind fun _ => executes_reconnect.bind fun _ =>
      (executes_execute trivial).bind fun _ => executes_reconnect.bind fun _ =>
        Executes.bind (p := takeFingerprintRefresh nodeId) (fun _ => trivial) fun _ => trivial
  refine (executes_execute trivial).bind fun _ => (executes_execute trivial).bind fun _ =>
    (executes_execute trivial).bind fun _ => sync.bind fun active => ?_
  cases active with
  | some row => exact respond none
  | none =>
      exact Executes.bind (p := claimNextTaskForNode ..) (executes_executeReturning (Or.inl rfl))
        fun claimed => respond claimed

theorem taskEvents_executes (nodeId : String) (payload : NodeTaskEventRequest) (now : Nat) :
    Executes (SystemOp.event nodeId payload now).Issued (taskEvents nodeId payload now) := by
  refine (loadTaskForNode_executes nodeId payload.taskId).bind fun _ => ?_
  refine (transitionTask_executes payload.taskId (.node payload.event) _ fun _ h => h).catch.bind
    fun _ => ?_
  exact (upsertTaskAttempt_executes _ _ _ _ fun _ => rfl).bind fun _ => trivial

theorem taskResult_executes (nodeId : String) (payload : NodeTaskResultRequest) (now : Nat) :
    Executes (SystemOp.result nodeId payload now).Issued (taskResult nodeId payload now) := by
  refine (loadTaskForNode_executes nodeId payload.taskId).bind fun _ => ?_
  refine (finalizeTaskResult_executes _ _ _ _ _ ⟨_, _, _, _, rfl⟩).catch.bind fun out => ?_
  obtain ⟨row, duplicate⟩ := out
  simp only
  split
  · trivial
  · refine (upsertTaskAttempt_executes _ _ _ _ fun _ => rfl).bind fun _ => ?_
    refine executes_reconnect.bind fun _ => ?_
    split
    · exact executes_emitEvent.bind fun _ => trivial
    · trivial

theorem scanTask_executes (now : Nat) (nowIso : String) (task : ActiveTask) :
    Executes (SystemOp.markLost now).Issued (scanTask now nowIso task) := by
  have gave : ∀ (event : TransitionEvent) (action webhook : String) (detail payload : Json),
      (∀ args q, event.Updates task.taskId args q →
        ∃ status finishedAt, q = .setBackground task.taskId status finishedAt) →
      Executes (SystemOp.markLost now).Issued
        (giveUp task event action detail webhook payload nowIso) := by
    intro event action webhook detail payload hevent
    refine (transitionTask_executes task.taskId event _ fun q hq => ?_).bind fun _ => ?_
    · obtain ⟨status, finishedAt, rfl⟩ := hevent _ q hq
      exact ⟨_, _, _, rfl⟩
    · exact (executes_execute trivial).bind fun _ => executes_emitEvent
  refine (overdue_executes task now).bind fun reason => ?_
  cases reason with
  | none => trivial
  | some reason => cases reason <;> exact gave _ _ _ _ _ fun _ _ hq => hq

/-- An operation executes only the statements of its list. -/
theorem SystemOp.code_executes (op : SystemOp) :
    Executes op.Issued (op.code settings crypto) := by
  cases op with
  | createNode payload secret admin now =>
      refine Executes.silently (executes_ofExcept.bind fun _ => executes_query.bind fun existing => ?_)
      split
      · trivial
      · refine (executes_executeReturning trivial).bind fun conflict => ?_
        split
        · trivial
        · exact (executes_execute trivial).bind fun _ => findNode_executes _
  | updateNode nodeId payload admin now =>
      refine Executes.silently ?_
      unfold GpuFleet.updateNode
      split
      · trivial
      · exact (findNode_executes nodeId).bind fun _ => (executes_execute trivial).bind fun _ =>
          (executes_execute trivial).bind fun _ => findNode_executes nodeId
  | setNodeEnabled nodeId enabled admin now =>
      exact Executes.silently ((findNode_executes nodeId).bind fun _ =>
        (executes_execute trivial).bind fun _ => (executes_execute trivial).bind fun _ =>
          findNode_executes nodeId)
  | resetSecret | regenerateOnboarding =>
      exact Executes.silently (renewSecret_executes crypto (fun _ => trivial) (fun _ => trivial) ..)
  | createTask payload ctx => exact (createTask_executes payload ctx).silently
  | cancel taskId admin now =>
      refine Executes.silently ?_
      refine (readThenTransition_executes taskId .cancel _ fun _ h => h).catch.bind fun _ => ?_
      exact (auditTask_executes ..).bind fun _ => taskRowToDetail_executes _
  | escalate taskId note admin now =>
      refine Executes.silently ?_
      refine (readThenTransition_executes taskId .reviewEscalate _ fun _ h => h).catch.bind
        fun _ => ?_
      exact Executes.bind (p := createReviewAlert ..) (executes_execute ⟨_, rfl⟩) fun _ =>
        (auditTask_executes ..).bind fun _ => executes_emitEvent.bind fun _ =>
          taskRowToDetail_executes _
  | approve taskId note admin now =>
      refine Executes.silently ?_
      refine (getTaskRow_executes taskId).catch.bind fun row => ?_
      split
      · trivial
      · refine (checkCooldown_executes taskId row now).bind fun _ => ?_
        refine (transitionTask_executes taskId .reviewApprove _ fun _ h => h).catch.bind fun _ => ?_
        exact Executes.bind (p := insertReviewAudit ..) (executes_execute trivial) fun _ =>
          Executes.bind (executes_execute rfl) fun _ => (auditTask_executes ..).bind fun _ =>
            taskRowToDetail_executes _
  | reject taskId note admin now =>
      refine Executes.silently ?_
      refine (readThenTransition_executes taskId .reviewReject _ fun _ h => h).catch.bind fun _ => ?_
      exact Executes.bind (p := insertReviewAudit ..) (executes_execute trivial) fun _ =>
        Executes.bind (executes_execute rfl) fun _ => (auditTask_executes ..).bind fun _ =>
          taskRowToDetail_executes _
  | heartbeat nodeId payload now =>
      exact asNode_executes fun node => (heartbeat_executes ..).bind fun _ => trivial
  | event nodeId payload now =>
      exact asNode_executes fun _ => (taskEvents_executes nodeId payload now).silently
  | result nodeId payload now =>
      exact asNode_executes fun _ => (taskResult_executes nodeId payload now).silently
  | markLost now =>
      exact Executes.silently (executes_query.bind fun _ =>
        Executes.forEach fun task => scanTask_executes now _ task)
  | expireReviews now =>
      refine Executes.silently (executes_query.bind fun _ => Executes.forEach fun taskId => ?_)
      refine (transitionTask_executes taskId .reviewExpire _ fun _ h => ⟨_, h⟩).bind fun _ => ?_
      exact (executes_execute ⟨_, rfl⟩).bind fun _ => executes_emitEvent

end Operations

/-- A property of databases that all statements keep which are permitted to an operation and in
its list is kept by its step. -/
theorem Step.Runs.keeps_issued {settings : Settings} {crypto : Crypto} {s : Step} {x : World}
    {I : Db → Prop} (h : s.Runs settings crypto x)
    (hI : ∀ q w, Permitted s.op s.before q w → s.op.Issued q → I w → I (Statement.apply q w))
    (hs : I s.before) : I s.after := by
  have hwp : (s.op.code settings crypto).wp (Permitted s.op s.before) (fun _ _ => True)
      (fun reply _ => Delivers s.before reply) s.before := s.op.code_wp settings crypto
  rw [h.after]
  refine Prog.wp.dbAfter x (Prog.wp_avoids hwp (s.op.code_executes settings crypto))
    (fun q w hq => hI q w hq.1 (Classical.not_not.mp hq.2)) hs

end GpuFleet
