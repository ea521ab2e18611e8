import GpuFleet.Server.AdminTasks

/-!
# The scanner

The two passes of the background scanner that change tasks: the one that marks
tasks as lost or timed out, and the one that expires reviews.  Both read a list
of tasks first and then go through it within one connection.

A pass stops at the first exception and leaves nothing behind in the database.
-/

namespace GpuFleet

open Foundations

/-- `CANCEL_ACK_TIMEOUT_SEC` -/
def cancelAckTimeoutSec : Nat := 300

/-- A row of the scanner's join of active tasks with their nodes. -/
structure ActiveTask where
  taskId : String
  status : TaskStatus
  nodeId : String
  timeoutSec : Nat
  startedAt : Option String
  claimedAt : Option String
  lastSeenAt : Option String
  heartbeatIntervalSec : Nat

/-- The join of a task with its node. -/
def activeTask (row : Task) (node : Node) : ActiveTask where
  taskId := row.taskId
  status := row.status
  nodeId := row.nodeId
  timeoutSec := row.timeoutSec
  startedAt := row.startedAt
  claimedAt := row.claimedAt
  lastSeenAt := node.lastSeenAt
  heartbeatIntervalSec := node.heartbeatIntervalSec

/-- The active tasks whose node exists. -/
def activeTasks (db : Db) : List ActiveTask :=
  (db.tasks.select fun row => row.status.isActive).filterMap fun row =>
    (db.nodes.get? row.nodeId).map (activeTask row)

/-- `heartbeat_interval_sec or 5` -/
def ActiveTask.interval (task : ActiveTask) : Nat :=
  if task.heartbeatIntervalSec = 0 then 5 else task.heartbeatIntervalSec

/-- `_latest_cancel_requested_at` -/
def latestCancelRequestedAt (taskId : String) : Tx (Option Int) := do
  let row ← Prog.query fun db =>
    firstBy (fun a b => a.createdAt > b.createdAt || (a.createdAt = b.createdAt && a.id > b.id))
      (db.audits.select fun row =>
        row.action = "cancel_task" && row.targetType = "task" && row.targetId = some taskId)
  match row with
  | none => pure none
  | some row => ofExcept (parseUtcOrNone (some row.createdAt))

/-- Give a task up: the transition, its audit row and its webhook event. -/
def giveUp (task : ActiveTask) (event : TransitionEvent) (action : String) (detail : Json)
    (webhook : String) (payload : Json) (nowIso : String) : Tx Unit := do
  let _ ← transitionTask task.taskId event { nowIso, finishedAt := some nowIso }
  Prog.execute (.insertAudit
    { id := 0
      actorType := "system"
      actorId := some "background"
      action
      targetType := "task"
      targetId := some task.taskId
      detail
      createdAt := nowIso })
  emitEvent webhook payload "warning"

/-- The scanner's reasons to give a task up. -/
inductive Overdue where
  /-- A running task is past its timeout. -/
  | timeout
  /-- A cancellation, asked for at this moment, was not acknowledged in time. -/
  | cancelAck (requested : Int)
  /-- The node has not been heard of for three intervals. -/
  | unresponsive
  /-- The node was never heard of, three intervals after the claim. -/
  | neverSeen
  deriving DecidableEq, Repr

/-- A running task is past its deadline, which must be a time before year 10000. -/
def pastDeadline (task : ActiveTask) (now : Nat) : Except Exc Bool :=
  match task.startedAt with
  | none => .ok false
  | some raw =>
      if task.status ≠ .running ∨ raw = "" then .ok false
      else
        (Iso.fromisoformat raw).elim (.error .value) fun started =>
          if started.clock + task.timeoutSec * 1000000 < Iso.maxMicros then
            .ok (momentOf started + task.timeoutSec * 1000000 < now)
          else .error .overflow

/-- The time a claimed or running task was last supported by its node, with the reason the
scanner gives when that is too long ago. -/
def lastSupport (task : ActiveTask) : Except Exc (Option (Int × Overdue)) :=
  match task.lastSeenAt.filter (· ≠ "") with
  | some raw => (parseUtcOrNone (some raw)).map fun seen => seen.map fun t => (t, .unresponsive)
  | none =>
      (parseUtcOrNone task.claimedAt).map fun claimed => claimed.map fun t => (t, .neverSeen)

/-- Why the scanner gives up a task, if it does.  The checks come in the order of the
source, and a task that passes one goes on to the next. -/
def overdue (task : ActiveTask) (now : Nat) : Tx (Option Overdue) := do
  let timedOut ← ofExcept (pastDeadline task now)
  if timedOut then pure (some .timeout)
  else if task.status = .cancelRequested then
    let requested ← latestCancelRequestedAt task.taskId
    pure ((requested.filter fun t => cancelAckTimeoutSec * 1000000 < (now : Int) - t).map
      .cancelAck)
  else
    let support ← ofExcept (lastSupport task)
    pure ((support.filter fun (t, _) => 3 * task.interval * 1000000 < (now : Int) - t).map
      Prod.snd)

/-- What the scanner does with an active task. -/
def scanTask (now : Nat) (nowIso : String) (task : ActiveTask) : Tx Unit := do
  let reason ← overdue task now
  let node := ("node_id", Json.str task.nodeId)
  let id := ("task_id", Json.str task.taskId)
  match reason with
  | none => pure ()
  | some .timeout =>
      giveUp task .backgroundTimeout "task_timeout"
        (.obj [("reason", .str "server_side_timeout_enforcement"),
          ("timeout_sec", .num task.timeoutSec)])
        "task.failed"
        (.obj [id, node, ("failure_reason", .str "timeout"), ("timeout_sec", .num task.timeoutSec)])
        nowIso
  | some (.cancelAck requested) =>
      giveUp task .backgroundLost "task_lost"
        (.obj [("reason", .str "cancel_ack_timeout"),
          ("note", .str "node may still be running process"),
          ("cancel_requested_at", .str (Iso.isoformatMicros requested.toNat)),
          ("last_seen_at", .ofOption task.lastSeenAt)])
        "task.lost" (.obj [id, node, ("reason", .str "cancel_ack_timeout")]) nowIso
  | some .unresponsive =>
      giveUp task .backgroundLost "task_lost"
        (.obj [("reason", .str "node_unresponsive"), ("last_seen_at", .ofOption task.lastSeenAt),
          ("heartbeat_interval_sec", .num task.interval)])
        "task.lost"
        (.obj [id, node, ("reason", .str "node_unresponsive"),
          ("last_seen_at", .ofOption task.lastSeenAt)]) nowIso
  | some .neverSeen =>
      giveUp task .backgroundLost "task_lost"
        (.obj [("reason", .str "node_never_seen"), ("claimed_at", .ofOption task.claimedAt)])
        "task.lost" (.obj [id, node, ("reason", .str "node_never_seen")]) nowIso

/-- `_mark_lost_tasks` -/
def markLostTasks (now : Nat) : Tx Unit := do
  let nowIso := utcNowIso now
  let active ← Prog.query activeTasks
  Prog.forEach active (scanTask now nowIso)

/-- `_expire_reviewing_tasks` -/
def expireReviewingTasks (now : Nat) : Tx Unit := do
  let nowIso := utcNowIso now
  let cutoff := utcNowIso (now - 30 * 60 * 1000000)
  let expired ← Prog.query fun db =>
    (db.tasks.select fun row =>
      row.status = .reviewing && row.reviewStartedAt.any (· < cutoff)).map Task.taskId
  Prog.forEach expired fun taskId => do
    let _ ← transitionTask taskId .reviewExpire { nowIso }
    Prog.execute (.alert (.expired taskId))
    emitEvent "review.expired"
      (.obj [("task_id", .str taskId), ("timeout_minutes", .num 30)]) "warning"

end GpuFleet
