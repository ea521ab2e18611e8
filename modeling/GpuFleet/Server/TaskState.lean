import GpuFleet.Server.TaskUtils

/-!
# Transitions of a task

`transitionTask` and `finalizeTaskResult` decide from a row they read and then
update the row.  The two statements are separate, and only some of the updates
ask again for the status the decision was made from.

What is recorded of them is in `Server.Metrics`.
-/

namespace GpuFleet

open Foundations

/-- The events `transition_task` knows. -/
inductive TransitionEvent where
  | node (e : NodeEvent)
  | cancel
  | reviewEscalate
  | reviewApprove
  | reviewReject
  | reviewExpire
  | backgroundTimeout
  | backgroundLost
  deriving DecidableEq, Repr

/-- The keyword arguments of `transition_task`. -/
structure TransitionArgs where
  nowIso : String
  startedAt : Option String := none
  finishedAt : Option String := none
  reviewAdminId : Option Nat := none
  dangerLevel : Option String := none

/-- `get_task_row` -/
def getTaskRow (taskId : String) : Tx Task := do
  let row ← Prog.query fun db => db.tasks.get? taskId
  match row with
  | none => .raise (.taskState "Task not found")
  | some row => pure row

/-- The branch of `transition_task` for an event a node reports. -/
def applyNodeEvent (taskId : String) (e : NodeEvent) (args : TransitionArgs) (row : Task) :
    Tx Task := do
  if !taskEventTransitions e row.status then
    .raise (.taskState
      ("Invalid task state transition: " ++ row.status.text ++ " -> " ++ e.text))
  else
    let effectiveStartedAt :=
      if e = .running ∧ row.startedAt = none then some (orElse args.startedAt args.nowIso)
      else row.startedAt
    let effectiveFinishedAt :=
      if e.status.isTerminal ∧ row.finishedAt = none then
        some (orElse args.finishedAt args.nowIso)
      else row.finishedAt
    Prog.execute (.task (.setEvent taskId e.status effectiveStartedAt effectiveFinishedAt))
    getTaskRow taskId

/-- The branch of `transition_task` for a cancellation. -/
def applyCancel (taskId : String) (args : TransitionArgs) (row : Task) : Tx Task := do
  if row.status.isTerminal then .raise (.taskState "Task is already terminal")
  else if row.status = .pending then
    Prog.execute (.task (.setCancelled taskId (orElse args.finishedAt args.nowIso)))
    getTaskRow taskId
  else if row.status.isActive then
    Prog.execute (.task (.setCancelRequested taskId args.finishedAt))
    getTaskRow taskId
  else .raise (.taskState "Task cannot be cancelled now")

/-- `transition_task` -/
def transitionTask (taskId : String) (event : TransitionEvent) (args : TransitionArgs) :
    Tx Task := do
  let row ← getTaskRow taskId
  match event with
  | .node e => applyNodeEvent taskId e args row
  | .cancel => applyCancel taskId args row
  | .reviewEscalate =>
      if row.status ≠ .reviewing then .raise (.taskState "Task is not under review")
      else if row.reviewStage = some 3 then
        .raise (.taskState "Task is already in human review stage")
      else
        Prog.execute (.task (.setEscalated taskId args.nowIso))
        getTaskRow taskId
  | .reviewApprove =>
      if row.status ≠ .reviewing ∨ row.reviewStage ≠ some 3 then
        .raise (.taskState "Task is not awaiting human approval")
      else
        Prog.execute (.task (.setApproved taskId (orElse args.dangerLevel "human_approved")
          args.reviewAdminId args.nowIso))
        getTaskRow taskId
  | .reviewReject =>
      if row.status ≠ .reviewing then .raise (.taskState "Task is not under review")
      else
        Prog.execute (.task (.setRejected taskId args.reviewAdminId args.nowIso))
        getTaskRow taskId
  | .reviewExpire =>
      if row.status ≠ .reviewing then .raise (.taskState "Task is not under review")
      else
        Prog.execute (.task (.setReviewExpired taskId args.nowIso))
        getTaskRow taskId
  | .backgroundTimeout =>
      -- Neither background event looks at the status of the row.
      Prog.execute (.task (.setBackground taskId .timeout (orElse args.finishedAt args.nowIso)))
      getTaskRow taskId
  | .backgroundLost =>
      Prog.execute (.task (.setBackground taskId .lost (orElse args.finishedAt args.nowIso)))
      getTaskRow taskId

/-- `finalize_task_result`: the row, and whether the result came too late. -/
def finalizeTaskResult (taskId : String) (finalStatus : FinalStatus)
    (startedAt finishedAt nowIso : String) : Tx (Task × Bool) := do
  let row ← getTaskRow taskId
  if !row.status.acceptsResult && !row.status.isTerminal then
    .raise (.taskState ("Task in status " ++ row.status.text ++ " cannot accept final result yet"))
  else
    let q := TaskStmt.setResult taskId finalStatus startedAt finishedAt nowIso
    let rowcount ← Prog.executeReturning (.task q) fun db => q.rowcount db.tasks
    if rowcount ≠ 1 then
      let row ← getTaskRow taskId
      if row.status.isTerminal then pure (row, true)
      else
        .raise (.taskState
          ("Task in status " ++ row.status.text ++ " cannot accept final result yet"))
    else
      let row ← getTaskRow taskId
      pure (row, false)

end GpuFleet
