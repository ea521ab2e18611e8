import GpuFleet.Server.NodeRuntime

/-!
# The administrator's task API

Creating, cancelling and reviewing tasks.  The verdict of the language model
that reviews a high-risk task is an argument of `createTask`, and so are the
identifiers it would draw at random.

An alert's detail column and the artifacts of a task are left out.
-/

namespace GpuFleet

open Foundations

/-- `HUMAN_REVIEW_COOLDOWN_SEC` -/
def humanReviewCooldownSec : Nat := 10

/-- `REVIEW_TIMEOUT_MINUTES` -/
def reviewTimeoutMinutes : Nat := 30

/-- The row of the administrator a request comes from. -/
structure Admin where
  id : Nat
  username : String

/-- The decisions of the reviewing model. -/
inductive LlmDecision where
  | approve | reject | uncertain
  deriving DecidableEq, Repr

def LlmDecision.text : LlmDecision → String
  | .approve => "approve"
  | .reject => "reject"
  | .uncertain => "uncertain"

/-- What the reviewing model answers. -/
structure ReviewDecision where
  decision : LlmDecision
  riskScore : Rat
  reasoning : String := ""

/-- The double nearest to 0.3, from which on an approved task counts as elevated. -/
def elevatedRisk : Rat := 5404319552844595 / 18014398509481984

theorem noTimeout_range : ∀ t ∈ (none : Option Nat), 1 ≤ t ∧ t ≤ 60 * 60 * 24 * 14 := by decide

theorem defaultGrace_range : 1 ≤ 15 ∧ 15 ≤ 600 := by decide

structure AdminTaskCreateRequest where
  nodeId : String
  type : TaskType
  payload : Json := .obj []
  taskId : Option String := none
  revision : Int := 1
  idempotencyKey : Option String := none
  workdir : Option String := none
  env : List (String × String) := []
  requestedGpuIds : List Int := []
  timeoutSec : Option Nat := none
  killGraceSec : Nat := 15
  dangerLevel : String := "normal"
  timeout_range : ∀ t ∈ timeoutSec, 1 ≤ t ∧ t ≤ 60 * 60 * 24 * 14 := by exact noTimeout_range
  grace_range : 1 ≤ killGraceSec ∧ killGraceSec ≤ 600 := by exact defaultGrace_range

/-- A task with its logs and the result of its last attempt. -/
structure AdminTaskDetail where
  row : Task
  logs : List TaskLog := []
  result : Option TaskAttempt := none

/-! ## Helpers -/

/-- `task_row_to_detail` -/
def taskRowToDetail (row : Task) : Tx AdminTaskDetail := do
  let logs ← Prog.query fun db => db.logs.select fun log => log.taskId = row.taskId
  let result ← Prog.query fun db =>
    firstBy (fun a b => a.id > b.id) (db.attempts.select fun a => a.taskId = row.taskId)
  pure { row, logs, result }

/-- `task_not_found` -/
def taskNotFound (taskId : String) : Exc :=
  .api
    { code := "ERR_TASK_NOT_FOUND"
      message := "Task not found"
      statusCode := 404
      details := [("task_id", .str taskId)] }

/-- `invalid_task_state` -/
def invalidTaskState (taskId message : String) : Exc :=
  .api
    { code := "ERR_TASK_INVALID_STATE_TRANSITION"
      message
      statusCode := 400
      details := [("task_id", .str taskId)] }

/-- The error an administrator sees for a `TaskStateError`. -/
def adminTaskError (taskId message : String) : Exc :=
  if message = "Task not found" then taskNotFound taskId else invalidTaskState taskId message

/-- `insert_review_audit` -/
def insertReviewAudit (taskId : String) (stage : Nat) (reviewerType : String)
    (reviewerId : Option String) (decision : String) (riskScore : Option Rat)
    (riskFactors : Option Json) (reasoning : Option String) (createdAt : String) : Tx Unit :=
  Prog.execute (.insertReview
    { id := 0, taskId, stage, reviewerType, reviewerId, decision, riskScore, riskFactors,
      reasoning, createdAt })

/-- `create_review_alert` -/
def createReviewAlert (taskId : String) (type : TaskType) (nodeId nowIso summary : String)
    (now : Nat) : Tx Unit :=
  Prog.execute (.alert (.insert
    { id := 0
      alertType := "command_review"
      severity := "critical"
      title := "危险命令审核: " ++ type.text ++ " @ " ++ nodeId
      summary := some summary
      targetType := some "task"
      targetId := some taskId
      status := "unread"
      actionedAt := none
      expiresAt := some (utcNowIso (now + reviewTimeoutMinutes * 60 * 1000000))
      createdAt := nowIso }))

/-- The audit row of an administrator's action on a task. -/
def auditTask (admin : Admin) (action taskId : String) (detail : Json) (nowIso : String) :
    Tx Unit :=
  Prog.execute (.insertAudit
    { id := 0
      actorType := "admin"
      actorId := some (toString admin.id)
      action
      targetType := "task"
      targetId := some taskId
      detail
      createdAt := nowIso })

/-! ## Creation -/

/-- An error of `create_task` about its target node. -/
def createTaskError (code message : String) (statusCode : Nat) (details : List (String × Json)) :
    Exc :=
  .api { code, message, statusCode, details }

/-- The checks `create_task` makes before it looks at the risk of the type. -/
def checkTarget (payload : AdminTaskCreateRequest) : Tx Node := do
  let node ← Prog.query fun db => db.nodes.get? payload.nodeId
  match node with
  | none =>
      .raise (createTaskError "ERR_TASK_TARGET_NODE_NOT_FOUND" "Target node not found" 404
        [("node_id", .str payload.nodeId)])
  | some node =>
      let typeDetails := [("node_id", .str payload.nodeId), ("task_type", .str payload.type.text),
        ("node_type", .str node.nodeType.text)]
      if !node.isEnabled then
        .raise (createTaskError "ERR_NODE_DISABLED" "Target node is disabled" 400
          [("node_id", .str payload.nodeId)])
      else if payload.type.isModal ∧ node.nodeType ≠ .modalRunner then
        .raise (createTaskError "ERR_TASK_INVALID_TARGET_FOR_TYPE"
          "modal_command can only target nodes of type modal_runner" 400 typeDetails)
      else if node.nodeType = .modalRunner ∧ !payload.type.runsOnModal then
        .raise (createTaskError "ERR_TASK_INVALID_TARGET_FOR_TYPE"
          "modal_runner nodes only accept modal_command or health_check in phase 1" 400 typeDetails)
      else if !ensureWorkdirAllowed payload.workdir node.allowedWorkdirs then
        .raise (createTaskError "ERR_TASK_WORKDIR_NOT_ALLOWED"
          "Task workdir is outside node allowed_workdirs" 400
          [("node_id", .str payload.nodeId), ("workdir", .ofOption payload.workdir)])
      else if payload.type.isShell ∧ !node.allowShell then
        .raise (createTaskError "ERR_TASK_TYPE_FORBIDDEN_ON_NODE"
          ("Node " ++ payload.nodeId ++ " does not allow task type '" ++ payload.type.text ++
            "'. Enable allow_shell first.") 403
          [("node_id", .str payload.nodeId), ("task_type", .str payload.type.text),
            ("required_flag", .str "allow_shell")])
      else if payload.type.isModal ∧ !node.allowModal then
        .raise (createTaskError "ERR_TASK_TYPE_FORBIDDEN_ON_NODE"
          ("Node " ++ payload.nodeId ++ " does not allow modal_command. Enable allow_modal first.")
          403
          [("node_id", .str payload.nodeId), ("task_type", .str payload.type.text),
            ("required_flag", .str "allow_modal")])
      else pure node

/-- Where a new task stands: its status and what the review says about it. -/
structure Admission where
  status : TaskStatus := .pending
  reviewStage : Option Nat := none
  reviewDecision : Option String := none
  reviewDetail : Option Json := none
  reviewStartedAt : Option String := none
  reviewFinishedAt : Option String := none
  elevated : Bool := false

/-- The verdict on a new task.  `review` is the answer of the reviewing model, or `none` when
no model is configured. -/
def admissionOf (type : TaskType) (review : Option ReviewDecision) (nowIso reviewedIso : String) :
    Admission :=
  if type.isL2 then
    match review with
    | some result =>
        { status := if result.decision = .approve then .pending else .reviewing
          reviewStage := some (if result.decision = .uncertain then 3 else 1)
          reviewDecision := some result.decision.text
          reviewDetail := some (.obj
            [("decision", .str result.decision.text), ("reasoning", .str result.reasoning)])
          reviewStartedAt := some nowIso
          reviewFinishedAt := some reviewedIso
          elevated := result.decision = .approve && decide (elevatedRisk ≤ result.riskScore) }
    | none =>
        { status := .reviewing
          reviewStage := some 3
          reviewDecision := some "skipped"
          reviewDetail := some (.obj [("reason", .str "REVIEW_LLM_API_KEY not configured")])
          reviewStartedAt := some nowIso }
  else {}

/-- A new task is not active. -/
theorem admissionOf_not_active (type : TaskType) (review : Option ReviewDecision)
    (nowIso reviewedIso : String) :
    (admissionOf type review nowIso reviewedIso).status.isActive = false := by
  unfold admissionOf
  split
  · split
    · simp only
      split <;> rfl
    · rfl
  · rfl

/-- The danger level after the review. -/
def AdminTaskCreateRequest.dangerLevelAfter (payload : AdminTaskCreateRequest)
    (admission : Admission) : String :=
  if admission.elevated then "elevated" else payload.dangerLevel

/-- The row `create_task` inserts. -/
def newTask (payload : AdminTaskCreateRequest) (admission : Admission) (taskId key : String)
    (admin : Admin) (nowIso : String) : Task where
  id := 0
  taskId
  revision := payload.revision
  idempotencyKey := key
  nodeId := payload.nodeId
  type := payload.type
  status := admission.status
  payload := payload.payload
  workdir := payload.workdir
  env := payload.env
  requestedGpuIds := payload.requestedGpuIds
  timeoutSec := normalizeTimeout payload.type payload.timeoutSec
  killGraceSec := payload.killGraceSec
  dangerLevel := payload.dangerLevelAfter admission
  createdByAdminId := some admin.id
  createdAt := nowIso
  reviewStage := admission.reviewStage
  reviewDecision := admission.reviewDecision
  reviewDetail := admission.reviewDetail
  reviewStartedAt := admission.reviewStartedAt
  reviewFinishedAt := admission.reviewFinishedAt

/-- The request as its audit row keeps it: `payload.model_dump()`, after a review may have raised
the danger level. -/
def AdminTaskCreateRequest.dump (payload : AdminTaskCreateRequest) (admission : Admission) : Json :=
  .obj
    [("node_id", .str payload.nodeId), ("type", .str payload.type.text),
      ("payload", payload.payload), ("task_id", .ofOption payload.taskId),
      ("revision", .num payload.revision), ("idempotency_key", .ofOption payload.idempotencyKey),
      ("workdir", .ofOption payload.workdir),
      ("env", .obj (payload.env.map fun e => (e.1, .str e.2))),
      ("requested_gpu_ids", .arr (payload.requestedGpuIds.map .num)),
      ("timeout_sec", payload.timeoutSec.elim .null fun sec => .num sec),
      ("kill_grace_sec", .num payload.killGraceSec),
      ("danger_level", .str (payload.dangerLevelAfter admission))]

/-- What a run of `create_task` finds around it: its administrator, the answer of the
reviewing model, the identifiers it draws, and its clock readings. -/
structure CreateContext where
  admin : Admin
  review : Option ReviewDecision
  llmModel : String := ""
  freshTaskId : String
  freshKey : String
  now : Nat
  reviewedAt : Nat

/-- `create_task` -/
def createTask (payload : AdminTaskCreateRequest) (ctx : CreateContext) : Tx AdminTaskDetail := do
  let nowIso := utcNowIso ctx.now
  let _ ← checkTarget payload
  let admission := admissionOf payload.type ctx.review nowIso (utcNowIso ctx.reviewedAt)
  let taskId := orElse payload.taskId ctx.freshTaskId
  let key := orElse payload.idempotencyKey ctx.freshKey
  let existing ← Prog.query fun db => (db.tasks.get? taskId).isSome
  if existing then
    .raise (.api
      { code := "ERR_TASK_DUPLICATE_ID"
        message := "task_id already exists"
        statusCode := 409
        details := [("task_id", .str taskId)] })
  else
    let row := newTask payload admission taskId key ctx.admin nowIso
    let conflict ← Prog.executeReturning (.task (.insert row)) fun db =>
      (db.tasks.get? taskId).isSome
    if conflict then .raise .integrity
    else
      match admission.reviewDecision with
      | none => pure ()
      | some decision =>
          insertReviewAudit taskId 1 (if ctx.review.isSome then "llm" else "skip")
            (if ctx.review.isSome then some ctx.llmModel else none) decision
            (ctx.review.map ReviewDecision.riskScore) admission.reviewDetail
            (ctx.review.map ReviewDecision.reasoning) nowIso
      if admission.status = .reviewing then
        createReviewAlert taskId payload.type payload.nodeId nowIso
          ("任务 " ++ taskId ++ " 需要人工审核") ctx.now
      auditTask ctx.admin "create_task" taskId (payload.dump admission) nowIso
      reconnect
      let row ← Prog.query fun db => db.tasks.get? taskId
      match row with
      | none => .raise .type
      | some row => pure { row }

/-! ## Cancellation and review -/

/-- `cancel_task` -/
def cancelTask (taskId : String) (admin : Admin) (now : Nat) : Tx AdminTaskDetail := do
  let nowIso := utcNowIso now
  let (row, saved) ← catchTaskState
    (do
      let row ← getTaskRow taskId
      let saved ← transitionTask taskId .cancel { nowIso, finishedAt := some nowIso }
      pure (row, saved))
    fun message => .raise (adminTaskError taskId message)
  auditTask admin "cancel_task" taskId
    (.obj [("from_status", .str row.status.text), ("to_status", .str saved.status.text)]) nowIso
  taskRowToDetail saved

/-- `escalate_review` -/
def escalateReview (taskId : String) (note : Option String) (admin : Admin) (now : Nat) :
    Tx AdminTaskDetail := do
  let nowIso := utcNowIso now
  let (row, saved) ← catchTaskState
    (do
      let row ← getTaskRow taskId
      let saved ← transitionTask taskId .reviewEscalate { nowIso }
      pure (row, saved))
    fun message => .raise (adminTaskError taskId message)
  createReviewAlert taskId row.type row.nodeId nowIso
    ("任务 " ++ taskId ++ " 已升级到人工审核") now
  auditTask admin "escalate_task_review" taskId (.obj [("note", .ofOption note)]) nowIso
  emitEvent "review.escalated"
    (.obj [("task_id", .str taskId), ("type", .str row.type.text), ("node_id", .str row.nodeId),
      ("admin", .str admin.username)]) "info"
  taskRowToDetail saved

/-- The check of the cooldown in `approve_review`. -/
def checkCooldown (taskId : String) (row : Task) (now : Nat) : Tx Unit :=
  match row.reviewStartedAt with
  | none => pure ()
  | some raw =>
      if raw = "" then pure ()
      else do
        let started ← ofExcept (parseMoment raw)
        if (now : Int) - started < humanReviewCooldownSec * 1000000 then
          .raise (.api
            { code := "ERR_REVIEW_COOLDOWN_NOT_REACHED"
              message := "Human review cooldown not reached (10s)"
              statusCode := 429
              details := [("task_id", .str taskId),
                ("retry_after_sec", .num humanReviewCooldownSec)] })
        else pure ()

/-- `approve_review` -/
def approveReview (taskId : String) (note : Option String) (admin : Admin) (now : Nat) :
    Tx AdminTaskDetail := do
  let nowIso := utcNowIso now
  let row ← catchTaskState (getTaskRow taskId) fun _ => .raise (taskNotFound taskId)
  if row.status ≠ .reviewing ∨ row.reviewStage ≠ some 3 then
    .raise (.api
      { code := "ERR_REVIEW_NOT_PENDING"
        message := "Task is not awaiting human approval"
        statusCode := 400
        details := [("task_id", .str taskId), ("status", .str row.status.text),
          ("review_stage", row.reviewStage.elim .null fun n => .num n)] })
  else
    checkCooldown taskId row now
    let saved ← catchTaskState
      (transitionTask taskId .reviewApprove
        { nowIso, reviewAdminId := some admin.id, dangerLevel := some "human_approved" })
      fun message => .raise (invalidTaskState taskId message)
    insertReviewAudit taskId 3 "human" (some (toString admin.id)) "approve" none
      (some (.obj [("note", .ofOption note)])) note nowIso
    Prog.execute (.alert (.actioned taskId nowIso))
    auditTask admin "approve_task_review" taskId (.obj [("note", .ofOption note)]) nowIso
    taskRowToDetail saved

/-- `reject_review` -/
def rejectReview (taskId : String) (note : Option String) (admin : Admin) (now : Nat) :
    Tx AdminTaskDetail := do
  let nowIso := utcNowIso now
  let (row, saved) ← catchTaskState
    (do
      let row ← getTaskRow taskId
      let saved ← transitionTask taskId .reviewReject { nowIso, reviewAdminId := some admin.id }
      pure (row, saved))
    fun message => .raise (adminTaskError taskId message)
  -- A missing or zero stage counts as the human one.
  let stage := match row.reviewStage with
    | none | some 0 => 3
    | some stage => stage
  insertReviewAudit taskId stage "human" (some (toString admin.id)) "reject" none
    (some (.obj [("note", .ofOption note)])) note nowIso
  Prog.execute (.alert (.actioned taskId nowIso))
  auditTask admin "reject_task_review" taskId (.obj [("note", .ofOption note)]) nowIso
  taskRowToDetail saved

end GpuFleet
