import GpuFleet.Foundations.JsonWriter
import GpuFleet.Server.TaskState

/-!
# The node API: heartbeats, events and results

What the handlers of the node API do once the request is authenticated.  Each
takes the id of the authenticated node and the validated payload; `heartbeat`
also takes the row that authentication found.

The heartbeat puts a task into an active status on two paths: the claim, whose
statement asks for a node without active task, and the synchronisation of the
reported task id, which does not ask.
-/

namespace GpuFleet

open Foundations

/-! ## Requests and responses -/

/-- A heartbeat.  `samples` are the times of the samples since the last one. -/
structure HeartbeatRequest where
  bootId : String
  hostname : Option String := none
  heartbeatIntervalSec : Nat := 5
  activeTaskId : Option String := none
  samples : List String := []
  interval_ge : 3 ≤ heartbeatIntervalSec := by exact defaultInterval_ge
  interval_le : heartbeatIntervalSec ≤ 3600 := by exact defaultInterval_le

/-- A task as it is sent to its node. -/
structure TaskEnvelope where
  taskId : String
  revision : Int
  idempotencyKey : String
  type : TaskType
  payload : Json
  workdir : Option String
  env : List (String × String)
  requestedGpuIds : List Int
  timeoutSec : Nat
  killGraceSec : Nat
  dangerLevel : String

/-- The request to cancel a task. -/
structure TaskControlCommand where
  taskId : String
  killGraceSec : Nat

structure HeartbeatResponse where
  serverTime : String
  nodeId : String
  tasks : List TaskEnvelope
  taskControls : List TaskControlCommand
  refreshFingerprint : Bool

structure NodeTaskEventRequest where
  taskId : String
  event : NodeEvent
  bootId : Option String := none
  pid : Option Int := none
  pgidOrJobId : Option String := none

structure NodeTaskResultRequest where
  taskId : String
  finalStatus : FinalStatus
  exitCode : Option Int := none
  summary : Json := .obj []
  bootId : Option String := none
  pid : Option Int := none
  pgidOrJobId : Option String := none
  startedAt : Option String := none
  finishedAt : Option String := none

/-- The answer to an event or a result. -/
structure TaskAck where
  taskId : String
  status : String
  duplicate : Bool := false

/-! ## Helpers -/

/-- `except TaskStateError` -/
def catchTaskState {α : Type} (p : Tx α) (handler : String → Tx α) : Tx α :=
  p.tryCatch fun
    | .taskState message => handler message
    | e => .raise e

/-- Leave the `with` block and open the next one. -/
def reconnect : Tx Unit := .commit (.ret ())

/-- Emit a webhook event. -/
def emitEvent (name : String) (payload : Json) (severity : String) : Tx Unit :=
  Prog.effect fun w => { w with events := w.events ++ [⟨name, payload, severity⟩] }

/-- `load_task_for_node` -/
def loadTaskForNode (nodeId taskId : String) : Tx Task := do
  let row ← Prog.query fun db => (db.tasks.get? taskId).filter fun row => row.nodeId = nodeId
  match row with
  | none =>
      .raise (.api
        { code := "ERR_TASK_NOT_FOUND"
          message := "Task not found for node"
          statusCode := 404
          details := [("node_id", .str nodeId), ("task_id", .str taskId)] })
  | some row => pure row

/-- What is recorded about an attempt.  Fields left `none` keep their stored values. -/
structure AttemptArgs where
  bootId : Option String := none
  pid : Option Int := none
  pgidOrJobId : Option String := none
  startedAt : Option String := none
  finishedAt : Option String := none
  exitCode : Option Int := none
  summary : Option Json := none

/-- `upsert_task_attempt` -/
def upsertTaskAttempt (taskId nodeId status : String) (args : AttemptArgs) : Tx Unit := do
  let existing ← Prog.query fun db =>
    firstBy (fun a b => a.id > b.id) (db.attempts.select fun row => row.taskId = taskId)
  match existing with
  | none =>
      Prog.execute (.attempt (.insert
        { id := 0, taskId, nodeId
          agentBootId := args.bootId
          pid := args.pid
          pgidOrJobId := args.pgidOrJobId
          status
          startedAt := args.startedAt
          finishedAt := args.finishedAt
          exitCode := args.exitCode
          resultSummary := args.summary.getD (.obj []) }))
  | some row =>
      Prog.execute (.attempt (.update row.id args.bootId args.pid args.pgidOrJobId status
        args.startedAt args.finishedAt args.exitCode args.summary))

/-! ## Claiming -/

/-- `claim_next_task_for_node`: the row the statement returns. -/
def claimNextTaskForNode (nodeId claimedAt : String) : Tx (Option Task) :=
  let q := TaskStmt.claimNext nodeId claimedAt
  Prog.executeReturning (.task q) fun db => (db.tasks.select (q.selects db.tasks)).head?.map q.edit

/-- `sync_reported_active_task` -/
def syncReportedActiveTask (nodeId : String) (activeTaskId : Option String)
    (claimedAt : String) : Tx (Option Task) := do
  match activeTaskId with
  | none => pure none
  | some taskId =>
      if taskId = "" then pure none
      else
        let find := fun (db : Db) => (db.tasks.get? taskId).filter fun row => row.nodeId = nodeId
        let row ← Prog.query find
        match row with
        | none => pure none
        | some row =>
            if row.status = .pending then
              Prog.execute (.task (.setReported taskId claimedAt))
              Prog.query find
            else pure (some row)

/-! ## Heartbeats -/

/-- The times of the samples that are neither the base row's nor repeated. -/
def freshSamples (seen : List String) : List String → List String
  | [] => []
  | ts :: rest =>
      if ts ∈ seen then freshSamples seen rest else ts :: freshSamples (ts :: seen) rest

/-- `_build_snapshot_rows` -/
def buildSnapshotRows (nodeId nowIso : String) (payload : HeartbeatRequest) : List Snapshot :=
  { id := 0, nodeId, reportedAt := nowIso, hasMetadata := true } ::
    (freshSamples [nowIso] payload.samples).map fun ts =>
      { id := 0, nodeId, reportedAt := ts, hasMetadata := false }

/-- The envelope of a claimed row. -/
def Task.envelope (row : Task) : TaskEnvelope where
  taskId := row.taskId
  revision := row.revision
  idempotencyKey := row.idempotencyKey
  type := row.type
  payload := row.payload
  workdir := row.workdir
  env := row.env
  requestedGpuIds := row.requestedGpuIds
  timeoutSec := row.timeoutSec
  killGraceSec := row.killGraceSec
  dangerLevel := row.dangerLevel

/-- The cancellations a heartbeat delivers: `ORDER BY claimed_at DESC, id DESC`. -/
def cancelControls (db : Db) (nodeId : String) : List TaskControlCommand :=
  let later := fun (a b : Task) =>
    decide (b.claimedAt.getD "" < a.claimedAt.getD "") ||
      (decide (a.claimedAt.getD "" = b.claimedAt.getD "") && decide (b.id ≤ a.id))
  ((db.tasks.select fun row => row.nodeId = nodeId && row.status = .cancelRequested).mergeSort
    later).map fun row => ⟨row.taskId, row.killGraceSec⟩

/-- Take a node out of the pending fingerprint refreshes. -/
def takeFingerprintRefresh (nodeId : String) : Tx Bool :=
  .io (fun w =>
      { w with pendingFingerprintRefresh := w.pendingFingerprintRefresh.filter (· ≠ nodeId) })
    fun w => .ret (w.pendingFingerprintRefresh.contains nodeId)

/-- `_heartbeat_impl` after authentication; `keep` is `max_status_history_per_node`. -/
def heartbeat (keep : Nat) (nodeId : String) (node : Node) (payload : HeartbeatRequest)
    (now : Nat) : Tx HeartbeatResponse := do
  let nowIso := utcNowIso now
  Prog.execute .beginImmediate
  Prog.execute (.node (.touch nodeId ((payload.hostname.filter (· ≠ "")) <|> node.hostname)
    payload.heartbeatIntervalSec nowIso payload.bootId))
  Prog.execute (.snapshot (.insertMany (buildSnapshotRows nodeId nowIso payload)))
  let activeTaskRow ← syncReportedActiveTask nodeId payload.activeTaskId nowIso
  let claimedTask ←
    match activeTaskRow with
    | some _ => pure none
    | none => claimNextTaskForNode nodeId nowIso
  let taskControls ← Prog.query fun db => cancelControls db nodeId
  reconnect
  -- `trim_node_status_history` opens a connection of its own.
  Prog.execute (.snapshot (.trim nodeId keep))
  reconnect
  let refreshFingerprint ← takeFingerprintRefresh nodeId
  pure
    { serverTime := nowIso
      nodeId
      tasks := (claimedTask.map Task.envelope).toList
      taskControls
      refreshFingerprint }

/-! ## Events and results -/

/-- `task_events` after authentication. -/
def taskEvents (nodeId : String) (payload : NodeTaskEventRequest) (now : Nat) : Tx TaskAck := do
  let nowIso := utcNowIso now
  let _ ← loadTaskForNode nodeId payload.taskId
  let updatedRow ← catchTaskState
    (transitionTask payload.taskId (.node payload.event)
      { nowIso, startedAt := some nowIso, finishedAt := some nowIso })
    fun message => .raise (.api
      { code := "ERR_TASK_INVALID_STATE_TRANSITION"
        message
        statusCode := 409
        details := [("node_id", .str nodeId), ("task_id", .str payload.taskId),
          ("event", .str payload.event.text)] })
  upsertTaskAttempt payload.taskId nodeId payload.event.text
    { bootId := payload.bootId
      pid := payload.pid
      pgidOrJobId := payload.pgidOrJobId
      startedAt := updatedRow.startedAt
      finishedAt := updatedRow.finishedAt }
  pure { taskId := payload.taskId, status := payload.event.text }

/-- The least number of decimals, from `k` on, with which a fraction of this denominator ends. -/
def decimalsFrom (den : Nat) : (fuel k : Nat) → Nat
  | 0, k => k
  | fuel + 1, k => if 10 ^ k % den = 0 then k else decimalsFrom den fuel (k + 1)

/-- `repr` of a float that its first fifteen digits tell. -/
def realText (q : Rat) : List Char :=
  let k := decimalsFrom q.den 400 0
  let digits := JsonText.decimal (q.num.natAbs * 10 ^ k / q.den)
  let point : Int := digits.length - k
  let unsigned :=
    if point ≤ -4 ∨ 16 < point then
      let significant := (digits.reverse.dropWhile (· = '0')).reverse
      let exponent := JsonText.decimal (point - 1).natAbs
      significant.take 1 ++ (if significant.length ≤ 1 then [] else '.' :: significant.drop 1) ++
        'e' :: (if point < 1 then '-' else '+') :: exponent.leftpad 2 '0'
    else if point ≤ 0 then '0' :: '.' :: (List.replicate (-point).toNat '0' ++ digits)
    else digits.take point.toNat ++ '.' :: (if k = 0 then ['0'] else digits.drop point.toNat)
  if q < 0 then '-' :: unsigned else unsigned

example : [realText 0, realText (-5 / 2), realText (1 / 1000), realText (3 / 100000),
    realText 20000000000000000].map String.ofList = ["0.0", "-2.5", "0.001", "3e-05", "2e+16"] := by
  decide +kernel

mutual

/-- A value, as `json.dumps` is given it. -/
def Json.value : Json → JsonText.Value
  | .null => .null
  | .bool b => .bool b
  | .num n => .int n
  | .real q => .float (realText q)
  | .str s => .str (s.toList.map Char.toNat)
  | .arr items => .arr (Json.values items)
  | .obj fields => .obj (Json.fieldValues fields)

@[inherit_doc Json.value]
def Json.values : List Json → List JsonText.Value
  | [] => []
  | item :: items => item.value :: Json.values items

@[inherit_doc Json.value]
def Json.fieldValues : List (String × Json) → List (List Nat × JsonText.Value)
  | [] => []
  | (name, value) :: fields => (name.toList.map Char.toNat, value.value) :: Json.fieldValues fields

end

/-- `json.dumps(summary, ensure_ascii=False)[:200]` -/
def summaryPreview (summary : Json) : String :=
  .ofList ((JsonText.dumps { ensureAscii := false } summary.value).take 200)

/-- `task_result` after authentication. -/
def taskResult (nodeId : String) (payload : NodeTaskResultRequest) (now : Nat) :
    Tx TaskAck := do
  let nowIso := utcNowIso now
  let finishedAt := orElse payload.finishedAt nowIso
  let currentRow ← loadTaskForNode nodeId payload.taskId
  let startedAt := orElse payload.startedAt (orElse currentRow.startedAt nowIso)
  let (updatedRow, duplicate) ← catchTaskState
    (finalizeTaskResult payload.taskId payload.finalStatus startedAt finishedAt nowIso)
    fun message => .raise (.api
      { code := "ERR_TASK_INVALID_STATE_TRANSITION"
        message
        statusCode := 409
        details := [("node_id", .str nodeId), ("task_id", .str payload.taskId),
          ("final_status", .str payload.finalStatus.status.text)] })
  if duplicate then
    pure { taskId := payload.taskId, status := updatedRow.status.text, duplicate := true }
  else
    upsertTaskAttempt payload.taskId nodeId payload.finalStatus.status.text
      { bootId := payload.bootId
        pid := payload.pid
        pgidOrJobId := payload.pgidOrJobId
        startedAt := some startedAt
        finishedAt := some finishedAt
        exitCode := payload.exitCode
        summary := some payload.summary }
    reconnect
    if payload.finalStatus = .failed then
      emitEvent "task.failed"
        (.obj [("task_id", .str payload.taskId), ("node_id", .str nodeId),
          ("exit_code", payload.exitCode.elim .null .num),
          ("summary", .str (summaryPreview payload.summary))])
        "warning"
    pure { taskId := payload.taskId, status := payload.finalStatus.status.text }

end GpuFleet
