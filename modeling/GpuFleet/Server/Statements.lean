import GpuFleet.Server.Schema

/-!
# The writing statements

Every `INSERT`, `UPDATE` and `DELETE` the modelled handlers execute, one
constructor each, with what it does to its table.  An `UPDATE` is a condition
on rows (`selects`) and a change of a row (`edit`), the two halves of its text.

`Dml` puts the statements of all tables together.  The frame lemmas say which
table a statement touches.
-/

namespace GpuFleet

open Foundations

/-- The statuses that occupy a node. -/
def TaskStatus.isActive : TaskStatus → Bool
  | .claimed | .running | .cancelRequested => true
  | _ => false

/-- `TERMINAL_TASK_STATUSES` -/
def TaskStatus.isTerminal : TaskStatus → Bool
  | .succeeded | .failed | .timeout | .cancelled | .lost | .rejected | .reviewExpired => true
  | _ => false

/-- The statuses a result may have. -/
inductive FinalStatus where
  | succeeded | failed | timeout | cancelled | lost
  deriving DecidableEq, Repr

def FinalStatus.status : FinalStatus → TaskStatus
  | .succeeded => .succeeded
  | .failed => .failed
  | .timeout => .timeout
  | .cancelled => .cancelled
  | .lost => .lost

/-- Every result is final. -/
theorem FinalStatus.isTerminal (s : FinalStatus) : s.status.isTerminal = true := by
  cases s <;> rfl

/-! ## Tasks -/

/-- Statements on `tasks`. -/
inductive TaskStmt where
  /-- `INSERT` of a row, whose `id` the table gives. -/
  | insert (row : Task)
  /-- `SET status, started_at, finished_at WHERE task_id` of a node's event. -/
  | setEvent (taskId : String) (status : TaskStatus) (startedAt finishedAt : Option String)
  /-- `SET status = 'cancelled', finished_at WHERE task_id`. -/
  | setCancelled (taskId finishedAt : String)
  /-- `SET status = 'cancel_requested', finished_at = COALESCE(?, finished_at) WHERE task_id`. -/
  | setCancelRequested (taskId : String) (finishedAt : Option String)
  /-- `SET review_stage = 3, … WHERE task_id`. -/
  | setEscalated (taskId nowIso : String)
  /-- `SET status = 'pending', … WHERE task_id AND status = 'reviewing'`. -/
  | setApproved (taskId : String) (dangerLevel : String) (adminId : Option Nat) (nowIso : String)
  /-- `SET status = 'rejected', … WHERE task_id AND status = 'reviewing'`. -/
  | setRejected (taskId : String) (adminId : Option Nat) (nowIso : String)
  /-- `SET status = 'review_expired', … WHERE task_id AND status = 'reviewing'`. -/
  | setReviewExpired (taskId nowIso : String)
  /-- `SET status, finished_at WHERE task_id` of the scanner. -/
  | setBackground (taskId : String) (status : TaskStatus) (finishedAt : String)
  /-- `SET status, started_at, finished_at, result_locked_at WHERE task_id AND
  result_locked_at IS NULL AND status IN ('claimed', 'running', 'cancel_requested')`. -/
  | setResult (taskId : String) (status : FinalStatus) (startedAt finishedAt nowIso : String)
  /-- The claim of the node's next pending task. -/
  | claimNext (nodeId claimedAt : String)
  /-- `SET status = 'claimed', claimed_at = COALESCE(claimed_at, ?) WHERE task_id`. -/
  | setReported (taskId claimedAt : String)

/-- The row an `INSERT` stores: the columns it does not name are null. -/
def Task.inserted (row : Task) (id : Nat) : Task :=
  { row with
    id
    claimedAt := none
    startedAt := none
    finishedAt := none
    resultLockedAt := none
    reviewAdminId := none }

/-- The subquery of the claim: the oldest pending task of a node none of whose tasks is
active. -/
def nextPending (tasks : Table Task) (nodeId : String) : Option Task :=
  if tasks.rows.any fun t2 => t2.nodeId = nodeId && t2.status.isActive then none
  else firstBy (fun a b => a.createdAt < b.createdAt || (a.createdAt = b.createdAt && a.id < b.id))
    (tasks.select fun t => t.nodeId = nodeId && t.status = .pending)

namespace TaskStmt

/-- The rows an `UPDATE` changes. -/
def selects (tasks : Table Task) : TaskStmt → Task → Bool
  | insert _, _ => false
  | setEvent taskId .., row => row.taskId = taskId
  | setCancelled taskId _, row => row.taskId = taskId
  | setCancelRequested taskId _, row => row.taskId = taskId
  | setEscalated taskId _, row => row.taskId = taskId
  | setApproved taskId .., row => row.taskId = taskId && row.status = .reviewing
  | setRejected taskId .., row => row.taskId = taskId && row.status = .reviewing
  | setReviewExpired taskId _, row => row.taskId = taskId && row.status = .reviewing
  | setBackground taskId .., row => row.taskId = taskId
  | setResult taskId .., row =>
      row.taskId = taskId && row.resultLockedAt.isNone && row.status.isActive
  | claimNext nodeId _, row =>
      (nextPending tasks nodeId).any (fun t => t.taskId = row.taskId) && row.status = .pending
  | setReported taskId _, row => row.taskId = taskId

/-- What an `UPDATE` does to a row. -/
def edit : TaskStmt → Task → Task
  | insert _, row => row
  | setEvent _ status startedAt finishedAt, row => { row with status, startedAt, finishedAt }
  | setCancelled _ finishedAt, row =>
      { row with status := .cancelled, finishedAt := some finishedAt }
  | setCancelRequested _ finishedAt, row =>
      { row with status := .cancelRequested, finishedAt := finishedAt <|> row.finishedAt }
  | setEscalated _ nowIso, row =>
      { row with
        reviewStage := some 3
        reviewDecision := some "pending_human"
        reviewStartedAt := some nowIso
        reviewFinishedAt := none }
  | setApproved _ dangerLevel adminId nowIso, row =>
      { row with
        status := .pending
        reviewDecision := some "human_approved"
        dangerLevel
        reviewAdminId := adminId
        reviewFinishedAt := some nowIso }
  | setRejected _ adminId nowIso, row =>
      { row with
        status := .rejected
        reviewDecision := some "human_rejected"
        reviewAdminId := adminId
        reviewFinishedAt := some nowIso }
  | setReviewExpired _ nowIso, row =>
      { row with
        status := .reviewExpired
        reviewDecision := some "expired"
        reviewFinishedAt := some nowIso }
  | setBackground _ status finishedAt, row => { row with status, finishedAt := some finishedAt }
  | setResult _ status startedAt finishedAt nowIso, row =>
      { row with
        status := status.status
        startedAt := some startedAt
        finishedAt := some finishedAt
        resultLockedAt := some nowIso }
  | claimNext _ claimedAt, row => { row with status := .claimed, claimedAt := some claimedAt }
  | setReported _ claimedAt, row =>
      { row with status := .claimed, claimedAt := row.claimedAt <|> some claimedAt }

/-- What no `UPDATE` changes in a row. -/
theorem edit_frame (q : TaskStmt) (row : Task) :
    (q.edit row).id = row.id ∧ (q.edit row).taskId = row.taskId ∧
      (q.edit row).nodeId = row.nodeId ∧ (q.edit row).type = row.type ∧
      (q.edit row).createdAt = row.createdAt ∧ (q.edit row).timeoutSec = row.timeoutSec := by
  cases q <;> exact ⟨rfl, rfl, rfl, rfl, rfl, rfl⟩

/-- The table after an `UPDATE`. -/
def updateRows (q : TaskStmt) (tasks : Table Task) : Table Task :=
  tasks.update (q.selects tasks) q.edit (fun row => (q.edit_frame row).1)
    fun row => (q.edit_frame row).2.1

/-- The table after a statement. -/
def apply (q : TaskStmt) (tasks : Table Task) : Table Task :=
  match q with
  | insert row => tasks.insert row.inserted fun _ => rfl
  | q => q.updateRows tasks

/-- The number of rows an `UPDATE` changes. -/
def rowcount (q : TaskStmt) (tasks : Table Task) : Nat := (tasks.select (q.selects tasks)).length

theorem apply_update {q : TaskStmt} (h : ∀ row, q ≠ .insert row) (tasks : Table Task) :
    q.apply tasks = q.updateRows tasks := by
  cases q with
  | insert row => exact absurd rfl (h row)
  | _ => rfl

/-- An `UPDATE` rewrites the row found under an id when it selects it. -/
theorem get?_apply {q : TaskStmt} (h : ∀ row, q ≠ .insert row) (tasks : Table Task)
    (taskId : String) :
    (q.apply tasks).get? taskId =
      (tasks.get? taskId).map fun row => if q.selects tasks row then q.edit row else row := by
  rw [apply_update h]
  exact Table.get?_update tasks _ _ _ _ taskId

theorem get?_apply_selected {q : TaskStmt} (h : ∀ row, q ≠ .insert row) {tasks : Table Task}
    {taskId : String} {row : Task} (hrow : tasks.get? taskId = some row)
    (hsel : q.selects tasks row = true) : (q.apply tasks).get? taskId = some (q.edit row) := by
  rw [get?_apply h, hrow, Option.map_some, if_pos hsel]

/-- An update by task id rewrites the row found under the id. -/
theorem get?_setReported {tasks : Table Task} {taskId : String} {row : Task} (claimedAt : String)
    (hrow : tasks.get? taskId = some row) :
    ((setReported taskId claimedAt).apply tasks).get? taskId =
      some ((setReported taskId claimedAt).edit row) := by
  refine get?_apply_selected (by intro _ h; cases h) hrow ?_
  have hkey : row.taskId = taskId := Table.get?_key hrow
  exact decide_eq_true hkey

theorem mem_apply {q : TaskStmt} (h : ∀ row, q ≠ .insert row) {tasks : Table Task} {row' : Task} :
    row' ∈ (q.apply tasks).rows ↔
      ∃ row ∈ tasks.rows, (if q.selects tasks row then q.edit row else row) = row' := by
  rw [apply_update h]
  exact Table.mem_update

/-- A task that a claim selects is a task of the node. -/
theorem selects_claimNext {tasks : Table Task} {nodeId claimedAt : String} {row : Task}
    (hrow : row ∈ tasks.rows) (h : (claimNext nodeId claimedAt).selects tasks row = true) :
    nextPending tasks nodeId = some row ∧ row.nodeId = nodeId := by
  obtain ⟨t, ht, hid⟩ := (Option.any_eq_true ..).mp (Bool.and_eq_true .. |>.mp h).1
  have hpick : t ∈ tasks.select fun t => t.nodeId = nodeId && t.status = .pending := by
    unfold nextPending at ht
    split at ht
    · cases ht
    · exact firstBy_mem ht
  obtain ⟨hmem, hpick⟩ := List.mem_filter.mp hpick
  have htr : t = row := List.inj_on_of_nodup_map tasks.unique hmem hrow (of_decide_eq_true hid)
  subst htr
  simp only [Bool.and_eq_true, decide_eq_true_eq] at hpick
  exact ⟨ht, hpick.1⟩

/-- An `INSERT` keeps every row, and a row that is new is the one inserted. -/
theorem get?_insert (row : Task) (tasks : Table Task) (taskId : String) :
    ((insert row).apply tasks).get? taskId = tasks.get? taskId ∨
      (tasks.get? taskId = none ∧
        ((insert row).apply tasks).get? taskId = some (row.inserted (tasks.seq + 1)) ∧
          row.taskId = taskId) := by
  have h : (tasks.insert row.inserted fun _ => rfl).get? taskId = tasks.get? taskId ∨ _ :=
    Table.get?_insert
  exact h

/-- A row that is found is found after an `INSERT`. -/
theorem get?_insert_of_some {row old : Task} {tasks : Table Task} {taskId : String}
    (h : tasks.get? taskId = some old) : ((insert row).apply tasks).get? taskId = some old := by
  rcases get?_insert row tasks taskId with hsame | ⟨hnone, -, -⟩
  · exact hsame.trans h
  · cases hnone.symm.trans h

/-- A row after an `INSERT` was there before or is the one inserted. -/
theorem mem_insert {row row' : Task} {tasks : Table Task}
    (h : row' ∈ ((insert row).apply tasks).rows) :
    row' ∈ tasks.rows ∨ row' = row.inserted (tasks.seq + 1) := by
  have h : row' ∈ (tasks.insert row.inserted fun _ => rfl).rows := h
  exact Table.mem_insert h

/-- Every row after a statement was there before, edited when it was selected, or is the row
inserted. -/
theorem mem_apply_cases {q : TaskStmt} {tasks : Table Task} {row' : Task}
    (h : row' ∈ (q.apply tasks).rows) :
    (∃ row ∈ tasks.rows, row' = row) ∨
      (∃ row ∈ tasks.rows, q.selects tasks row = true ∧ row' = q.edit row) ∨
      ∃ row, q = .insert row ∧ row' = row.inserted (tasks.seq + 1) := by
  by_cases hq : ∃ row, q = .insert row
  · obtain ⟨row, rfl⟩ := hq
    rcases mem_insert h with h | h
    · exact Or.inl ⟨row', h, rfl⟩
    · exact Or.inr (Or.inr ⟨row, rfl, h⟩)
  · obtain ⟨row, hrow, h⟩ := (mem_apply (fun row e => hq ⟨row, e⟩)).mp h
    split at h
    · exact Or.inr (Or.inl ⟨row, hrow, ‹_›, h.symm⟩)
    · exact Or.inl ⟨row, hrow, h.symm⟩

end TaskStmt

/-! ## The other tables -/

/-- Statements on `nodes`. -/
inductive NodeStmt where
  /-- `INSERT` of a row, whose `id` the table gives. -/
  | insert (row : Node)
  /-- The update a heartbeat makes. -/
  | touch (nodeId : String) (hostname : Option String) (heartbeatIntervalSec : Nat)
      (nowIso bootId : String)
  /-- `SET last_request_ts, updated_at WHERE node_id AND is_enabled = 1 AND
  (last_request_ts IS NULL OR last_request_ts < ?)`. -/
  | setRequestTs (nodeId timestamp nowIso : String)
  /-- `SET encrypted_signing_key, updated_at WHERE id`. -/
  | setEncryptedKey (id : Nat) (encryptedKey nowIso : String)
  /-- The update of the administrator's settings; the row holds the new values. -/
  | setSettings (nodeId : String) (values : Node)
  /-- `SET is_enabled, updated_at WHERE node_id`. -/
  | setEnabled (nodeId : String) (enabled : Bool) (nowIso : String)
  /-- The update that gives a node a new secret. -/
  | setSecret (nodeId encryptedKey encryptedToken nowIso : String)

namespace NodeStmt

/-- The rows an `UPDATE` changes. -/
def selects : NodeStmt → Node → Bool
  | insert _, _ => false
  | touch nodeId .., row => row.nodeId = nodeId
  | setRequestTs nodeId timestamp _, row =>
      row.nodeId = nodeId && row.isEnabled && row.lastRequestTs.all (· < timestamp)
  | setEncryptedKey id .., row => row.id = id
  | setSettings nodeId _, row => row.nodeId = nodeId
  | setEnabled nodeId .., row => row.nodeId = nodeId
  | setSecret nodeId .., row => row.nodeId = nodeId

/-- What an `UPDATE` does to a row. -/
def edit : NodeStmt → Node → Node
  | insert _, row => row
  | touch _ hostname heartbeatIntervalSec nowIso bootId, row =>
      { row with
        hostname
        heartbeatIntervalSec
        firstSeenAt := row.firstSeenAt <|> some nowIso
        lastSeenAt := some nowIso
        lastBootId := some bootId
        onboardingTokenEncrypted := none
        onboardingTokenExpiresAt := none
        updatedAt := nowIso }
  | setRequestTs _ timestamp nowIso, row =>
      { row with lastRequestTs := some timestamp, updatedAt := nowIso }
  | setEncryptedKey _ encryptedKey nowIso, row =>
      { row with encryptedSigningKey := some encryptedKey, updatedAt := nowIso }
  | setSettings _ values, row =>
      { row with
        displayName := values.displayName
        osType := values.osType
        hostname := values.hostname
        heartbeatIntervalSec := values.heartbeatIntervalSec
        allowedWorkdirs := values.allowedWorkdirs
        tags := values.tags
        isEnabled := values.isEnabled
        allowShell := values.allowShell
        allowModal := values.allowModal
        updatedAt := values.updatedAt }
  | setEnabled _ isEnabled nowIso, row => { row with isEnabled, updatedAt := nowIso }
  | setSecret _ encryptedKey encryptedToken nowIso, row =>
      { row with
        nodeSigningKey := some ""
        encryptedSigningKey := some encryptedKey
        onboardingTokenEncrypted := some encryptedToken
        onboardingTokenCreatedAt := some nowIso
        onboardingTokenExpiresAt := none
        updatedAt := nowIso }

/-- What no `UPDATE` changes in a row. -/
theorem edit_frame (q : NodeStmt) (row : Node) :
    (q.edit row).id = row.id ∧ (q.edit row).nodeId = row.nodeId := by
  cases q <;> exact ⟨rfl, rfl⟩

/-- The table after an `UPDATE`. -/
def updateRows (q : NodeStmt) (nodes : Table Node) : Table Node :=
  nodes.update q.selects q.edit (fun row => (q.edit_frame row).1) fun row => (q.edit_frame row).2

/-- The table after a statement. -/
def apply (q : NodeStmt) (nodes : Table Node) : Table Node :=
  match q with
  | insert row => nodes.insert (fun id => { row with id }) fun _ => rfl
  | q => q.updateRows nodes

/-- The number of rows an `UPDATE` changes. -/
def rowcount (q : NodeStmt) (nodes : Table Node) : Nat := (nodes.select q.selects).length

theorem apply_update {q : NodeStmt} (h : ∀ row, q ≠ .insert row) (nodes : Table Node) :
    q.apply nodes = q.updateRows nodes := by
  cases q with
  | insert row => exact absurd rfl (h row)
  | _ => rfl

theorem get?_apply {q : NodeStmt} (h : ∀ row, q ≠ .insert row) (nodes : Table Node)
    (nodeId : String) :
    (q.apply nodes).get? nodeId =
      (nodes.get? nodeId).map fun row => if q.selects row then q.edit row else row := by
  rw [apply_update h]
  exact Table.get?_update nodes _ _ _ _ nodeId

theorem get?_apply_selected {q : NodeStmt} (h : ∀ row, q ≠ .insert row) {nodes : Table Node}
    {nodeId : String} {row : Node} (hrow : nodes.get? nodeId = some row)
    (hsel : q.selects row = true) : (q.apply nodes).get? nodeId = some (q.edit row) := by
  rw [get?_apply h, hrow, Option.map_some, if_pos hsel]

/-- A node that is found is found after every statement. -/
theorem isSome_get?_apply (q : NodeStmt) {nodes : Table Node} {nodeId : String}
    (h : (nodes.get? nodeId).isSome = true) : ((q.apply nodes).get? nodeId).isSome = true := by
  obtain ⟨row, hrow⟩ := Option.isSome_iff_exists.mp h
  by_cases hq : ∃ row, q = .insert row
  · obtain ⟨new, rfl⟩ := hq
    have hkept : (nodes.insert (fun id => { new with id }) fun _ => rfl).get? nodeId = some row :=
      Table.get?_insert_of_some hrow
    exact Option.isSome_iff_exists.mpr ⟨row, hkept⟩
  · rw [get?_apply fun row e => hq ⟨row, e⟩, hrow]
    rfl

/-- Every row after a statement was there before, edited when it was selected, or is the row
inserted. -/
theorem mem_apply_cases {q : NodeStmt} {nodes : Table Node} {row' : Node}
    (h : row' ∈ (q.apply nodes).rows) :
    (∃ row ∈ nodes.rows, row' = row) ∨
      (∃ row ∈ nodes.rows, q.selects row = true ∧ row' = q.edit row) ∨
      ∃ row, q = .insert row ∧ row' = { row with id := nodes.seq + 1 } := by
  by_cases hq : ∃ row, q = .insert row
  · obtain ⟨new, rfl⟩ := hq
    have h : row' ∈ (nodes.insert (fun id => { new with id }) fun _ => rfl).rows := h
    rcases Table.mem_insert h with h | h
    · exact Or.inl ⟨row', h, rfl⟩
    · exact Or.inr (Or.inr ⟨new, rfl, h⟩)
  · rw [apply_update fun row e => hq ⟨row, e⟩] at h
    obtain ⟨row, hrow, h⟩ := Table.mem_update.mp h
    split at h
    · exact Or.inr (Or.inl ⟨row, hrow, ‹_›, h.symm⟩)
    · exact Or.inl ⟨row, hrow, h.symm⟩

end NodeStmt

/-- Statements on `task_attempts`. -/
inductive AttemptStmt where
  | insert (row : TaskAttempt)
  /-- The update of the last attempt.  Columns given as `none` keep their values. -/
  | update (id : Nat) (bootId : Option String) (pid : Option Int) (pgidOrJobId : Option String)
      (status : String) (startedAt finishedAt : Option String) (exitCode : Option Int)
      (summary : Option Json)

/-- The table after a statement on `task_attempts`. -/
def AttemptStmt.apply : AttemptStmt → Table TaskAttempt → Table TaskAttempt
  | insert row, attempts => attempts.insert (fun id => { row with id }) fun _ => rfl
  | update id bootId pid pgid status startedAt finishedAt exitCode summary, attempts =>
      attempts.update (fun row => row.id = id)
        (fun row =>
          { row with
            agentBootId := bootId <|> row.agentBootId
            pid := pid <|> row.pid
            pgidOrJobId := pgid <|> row.pgidOrJobId
            status
            startedAt := startedAt <|> row.startedAt
            finishedAt := finishedAt <|> row.finishedAt
            exitCode := exitCode <|> row.exitCode
            resultSummary := summary.getD row.resultSummary })
        (fun _ => rfl) fun _ => rfl

/-- Statements on `task_logs`. -/
inductive LogStmt where
  | insert (row : TaskLog)
  /-- Store what a chunk added. -/
  | extend (id lastOffset : Nat) (previewText : List Char) (centerLogPath : LogFile)
      (nowIso : String)
  /-- Mark the stream as truncated. -/
  | truncate (id : Nat) (reason nowIso : String)

/-- The table after a statement on `task_logs`. -/
def LogStmt.apply : LogStmt → Table TaskLog → Table TaskLog
  | insert row, logs => logs.insert (fun id => { row with id }) fun _ => rfl
  | extend id lastOffset previewText centerLogPath nowIso, logs =>
      logs.update (fun row => row.id = id)
        (fun row =>
          { row with
            lastOffset
            previewText
            centerLogPath := some centerLogPath
            isTruncated := false
            truncatedNotice := ""
            updatedAt := nowIso })
        (fun _ => rfl) fun _ => rfl
  | truncate id reason nowIso, logs =>
      logs.update (fun row => row.id = id)
        (fun row => { row with isTruncated := true, truncatedNotice := reason, updatedAt := nowIso })
        (fun _ => rfl) fun _ => rfl

/-- The first row of a stream. -/
theorem LogStmt.get?_insert {row : TaskLog} {logs : Table TaskLog}
    (hfree : logs.get? (row.taskId, row.stream) = none) :
    ((insert row).apply logs).get? (row.taskId, row.stream) =
      some { row with id := logs.seq + 1 } := by
  have h : (logs.insert (fun id => { row with id }) fun _ => rfl).get? (row.taskId, row.stream) =
      some { row with id := logs.seq + 1 } :=
    Table.get?_insert_self hfree fun _ => rfl
  exact h

/-- An `UPDATE` of the row that is found. -/
theorem LogStmt.get?_extend {logs : Table TaskLog} {key : String × Stream} {row : TaskLog}
    (hrow : logs.get? key = some row) (lastOffset : Nat) (previewText : List Char)
    (centerLogPath : LogFile) (nowIso : String) :
    ((extend row.id lastOffset previewText centerLogPath nowIso).apply logs).get? key =
      some { row with
        lastOffset
        previewText
        centerLogPath := some centerLogPath
        isTruncated := false
        truncatedNotice := ""
        updatedAt := nowIso } := by
  simp [apply, Table.get?_update, hrow]

theorem LogStmt.get?_truncate {logs : Table TaskLog} {key : String × Stream} {row : TaskLog}
    (hrow : logs.get? key = some row) (reason nowIso : String) :
    ((truncate row.id reason nowIso).apply logs).get? key =
      some { row with isTruncated := true, truncatedNotice := reason, updatedAt := nowIso } := by
  simp [apply, Table.get?_update, hrow]

/-- An `INSERT` leaves the other streams. -/
theorem LogStmt.get?_insert_of_ne {row : TaskLog} {logs : Table TaskLog} {key : String × Stream}
    (h : (row.taskId, row.stream) ≠ key) : ((insert row).apply logs).get? key = logs.get? key := by
  have hget : (logs.insert (fun id => { row with id }) fun _ => rfl).get? key = logs.get? key ∨ _ :=
    Table.get?_insert
  rcases hget with hsame | ⟨-, -, hkey⟩
  · exact hsame
  · exact absurd hkey h

/-- An `UPDATE` of a row leaves the rows of other streams. -/
theorem LogStmt.get?_update_of_ne {q : LogStmt} {logs : Table TaskLog} {key key' : String × Stream}
    {row : TaskLog} (hrow : logs.get? key = some row) (hne : key' ≠ key)
    (hq : (∃ offset preview path nowIso, q = extend row.id offset preview path nowIso) ∨
      ∃ reason nowIso, q = truncate row.id reason nowIso) :
    (q.apply logs).get? key' = logs.get? key' := by
  have hother : ∀ row', logs.get? key' = some row' → row'.id ≠ row.id := by
    intro row' hget heq
    have hsame : row' = row := Table.eq_of_id (Table.get?_mem hget) (Table.get?_mem hrow) heq
    have hkeys := Table.get?_key hget
    rw [hsame, Table.get?_key hrow] at hkeys
    exact hne hkeys.symm
  rcases hq with ⟨offset, preview, path, nowIso, rfl⟩ | ⟨reason, nowIso, rfl⟩
  · rw [apply, Table.get?_update]
    cases hget : logs.get? key' with
    | none => rfl
    | some row' => simp [hother row' hget]
  · rw [apply, Table.get?_update]
    cases hget : logs.get? key' with
    | none => rfl
    | some row' => simp [hother row' hget]

/-- Statements on `artifacts`. -/
inductive ArtifactStmt where
  | insert (row : Artifact)
  /-- `SET artifact_type, content_type, size_bytes, storage_path, preview_json WHERE id`. -/
  | replace (id : Nat) (artifactType : String) (contentType : Option String) (sizeBytes : Nat)
      (storagePath : ArtifactFile) (preview : Json)

/-- The table after a statement on `artifacts`. -/
def ArtifactStmt.apply : ArtifactStmt → Table Artifact → Table Artifact
  | insert row, artifacts => artifacts.insert (fun id => { row with id }) fun _ => rfl
  | replace id artifactType contentType sizeBytes storagePath preview, artifacts =>
      artifacts.update (fun row => row.id = id)
        (fun row => { row with artifactType, contentType, sizeBytes, storagePath, preview })
        (fun _ => rfl) fun _ => rfl

/-- Statements on `nonces`. -/
inductive NonceStmt where
  | insert (row : Nonce)
  /-- `DELETE WHERE expires_at < ?`. -/
  | prune (nowIso : String)

/-- The table after a statement on `nonces`. -/
def NonceStmt.apply : NonceStmt → Table Nonce → Table Nonce
  | insert row, nonces => nonces.insert (fun id => { row with id }) fun _ => rfl
  | prune nowIso, nonces => nonces.delete fun row => row.expiresAt < nowIso

/-- An `INSERT` changes what is found under its own key only. -/
theorem NonceStmt.get?_insert_of_ne {row : Nonce} {nonces : Table Nonce} {k : String × String}
    (h : (row.nodeId, row.nonce) ≠ k) : ((insert row).apply nonces).get? k = nonces.get? k := by
  have hget : (nonces.insert (fun id => { row with id }) fun _ => rfl).get? k = nonces.get? k ∨ _ :=
    Table.get?_insert
  rcases hget with hsame | ⟨-, -, hkey⟩
  · exact hsame
  · exact absurd hkey h

/-- Statements on `node_status_snapshots`. -/
inductive SnapshotStmt where
  | insertMany (rows : List Snapshot)
  /-- Keep the `keep` latest snapshots of a node. -/
  | trim (nodeId : String) (keep : Nat)

/-- The order `reported_at DESC, id DESC`. -/
def Snapshot.before (a b : Snapshot) : Bool :=
  a.reportedAt > b.reportedAt || (a.reportedAt = b.reportedAt && a.id > b.id)

/-- The table after a statement on `node_status_snapshots`. -/
def SnapshotStmt.apply : SnapshotStmt → Table Snapshot → Table Snapshot
  | insertMany rows, snapshots =>
      rows.foldl (fun snapshots row => snapshots.insert (fun id => { row with id }) fun _ => rfl)
        snapshots
  | trim nodeId keep, snapshots =>
      snapshots.delete fun row => row.nodeId = nodeId &&
        keep ≤ (snapshots.select fun other => other.nodeId = nodeId && other.before row).length

/-- Statements on `alert_messages`. -/
inductive AlertStmt where
  | insert (row : AlertMessage)
  /-- `SET status = 'actioned', actioned_at WHERE target is the task AND status = 'unread'`. -/
  | actioned (taskId nowIso : String)
  /-- `SET status = 'expired' WHERE target is the task AND status = 'unread'`. -/
  | expired (taskId : String)
  /-- `SET status = 'read', actioned_by, actioned_at WHERE id`. -/
  | read (alertId adminId : Nat) (nowIso : String)

/-- The unread alerts of a task. -/
def AlertMessage.unreadOf (taskId : String) (row : AlertMessage) : Bool :=
  row.targetType = some "task" && row.targetId = some taskId && row.status = "unread"

/-- The table after a statement on `alert_messages`. -/
def AlertStmt.apply : AlertStmt → Table AlertMessage → Table AlertMessage
  | insert row, alerts => alerts.insert (fun id => { row with id }) fun _ => rfl
  | actioned taskId nowIso, alerts =>
      alerts.update (AlertMessage.unreadOf taskId)
        (fun row => { row with status := "actioned", actionedAt := some nowIso })
        (fun _ => rfl) fun _ => rfl
  | expired taskId, alerts =>
      alerts.update (AlertMessage.unreadOf taskId) (fun row => { row with status := "expired" })
        (fun _ => rfl) fun _ => rfl
  | read alertId adminId nowIso, alerts =>
      alerts.update (fun row => row.id = alertId)
        (fun row => { row with
          status := "read", actionedBy := some adminId, actionedAt := some nowIso })
        (fun _ => rfl) fun _ => rfl

/-! ## All of them -/

/-- A writing statement. -/
inductive Dml where
  /-- `BEGIN IMMEDIATE` takes the write lock and writes nothing. -/
  | beginImmediate
  | task (q : TaskStmt)
  | node (q : NodeStmt)
  | attempt (q : AttemptStmt)
  | log (q : LogStmt)
  | artifact (q : ArtifactStmt)
  | nonce (q : NonceStmt)
  | snapshot (q : SnapshotStmt)
  | alert (q : AlertStmt)
  | insertAudit (row : AuditEvent)
  | insertReview (row : TaskReview)

/-- The database after a statement. -/
def Dml.apply (q : Dml) (db : Db) : Db :=
  match q with
  | beginImmediate => db
  | task q => { db with tasks := q.apply db.tasks }
  | node q => { db with nodes := q.apply db.nodes }
  | attempt q => { db with attempts := q.apply db.attempts }
  | log q => { db with logs := q.apply db.logs }
  | artifact q => { db with artifacts := q.apply db.artifacts }
  | nonce q => { db with nonces := q.apply db.nonces }
  | snapshot q => { db with snapshots := q.apply db.snapshots }
  | alert q => { db with alerts := q.apply db.alerts }
  | insertAudit row =>
      { db with audits := db.audits.insert (fun id => { row with id }) fun _ => rfl }
  | insertReview row =>
      { db with reviews := db.reviews.insert (fun id => { row with id }) fun _ => rfl }

instance : Statement Dml Db := ⟨Dml.apply⟩

section Frame

variable (db : Db)

@[simp] theorem apply_tasks_task (q : TaskStmt) :
    (Statement.apply (Dml.task q) db).tasks = q.apply db.tasks := rfl

@[simp] theorem apply_nodes_node (q : NodeStmt) :
    (Statement.apply (Dml.node q) db).nodes = q.apply db.nodes := rfl

@[simp] theorem apply_nodes_nonce (q : NonceStmt) :
    (Statement.apply (Dml.nonce q) db).nodes = db.nodes := rfl

/-- Only its own statements change `tasks`. -/
theorem apply_tasks {q : Dml} (h : ∀ t, q ≠ .task t) : (Statement.apply q db).tasks = db.tasks := by
  cases q with
  | task t => exact absurd rfl (h t)
  | _ => rfl

/-- Only its own statements change `nodes`. -/
theorem apply_nodes {q : Dml} (h : ∀ n, q ≠ .node n) : (Statement.apply q db).nodes = db.nodes := by
  cases q with
  | node n => exact absurd rfl (h n)
  | _ => rfl

/-- An audit row was there before or is the one inserted. -/
theorem mem_insertAudit {row row' : AuditEvent} {db : Db}
    (h : row' ∈ (Statement.apply (Dml.insertAudit row) db).audits.rows) :
    row' ∈ db.audits.rows ∨ row' = { row with id := db.audits.seq + 1 } := by
  have h : row' ∈ (db.audits.insert (fun id => { row with id }) fun _ => rfl).rows := h
  exact Table.mem_insert h

/-- An audit row is always added. -/
theorem rows_insertAudit (row : AuditEvent) :
    (Statement.apply (Dml.insertAudit row) db).audits.rows =
      db.audits.rows ++ [{ row with id := db.audits.seq + 1 }] := by
  show (db.audits.insert (fun id => { row with id }) fun _ => rfl).rows = _
  exact Table.insert_rows_of_key fun _ _ h => h

/-- A review is always added. -/
theorem rows_insertReview (row : TaskReview) :
    (Statement.apply (Dml.insertReview row) db).reviews.rows =
      db.reviews.rows ++ [{ row with id := db.reviews.seq + 1 }] := by
  show (db.reviews.insert (fun id => { row with id }) fun _ => rfl).rows = _
  exact Table.insert_rows_of_key fun _ _ h => h

end Frame

/-- The status of a task. -/
def statusOf (taskId : String) (db : Db) : Option TaskStatus :=
  (db.tasks.get? taskId).map Task.status

/-- A transaction of the control plane. -/
abbrev Tx (α : Type) := Prog Dml Db World Exc α

end GpuFleet
