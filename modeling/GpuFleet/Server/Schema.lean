import GpuFleet.Foundations.Table
import GpuFleet.Foundations.Prog
import Mathlib.Data.List.AList

/-!
# The control plane's data

The tables of the control plane's database, the files it keeps beside it and
the exceptions its handlers raise.

Columns that hold one of a fixed set of words are inductive types, and
`TaskStatus.text` gives the word where a message quotes it.  Time stamps are
texts, as in the database.  A JSON column holds the value that was dumped into
it.  Columns that no modelled function reads or writes are left out.
-/

namespace GpuFleet

open Foundations

/-- A JSON value. -/
inductive Json where
  | null
  | bool (b : Bool)
  | num (n : Int)
  | real (q : Rat)
  | str (s : String)
  | arr (items : List Json)
  | obj (fields : List (String × Json))
  deriving Inhabited

/-- A JSON string or null. -/
def Json.ofOption : Option String → Json
  | none => .null
  | some s => .str s

/-! ## Words -/

/-- The statuses of a task. -/
inductive TaskStatus where
  | reviewing | pending | claimed | running | cancelRequested
  | succeeded | failed | timeout | cancelled | lost | rejected | reviewExpired
  deriving DecidableEq, Repr

/-- The word stored for a status. -/
def TaskStatus.text : TaskStatus → String
  | .reviewing => "reviewing"
  | .pending => "pending"
  | .claimed => "claimed"
  | .running => "running"
  | .cancelRequested => "cancel_requested"
  | .succeeded => "succeeded"
  | .failed => "failed"
  | .timeout => "timeout"
  | .cancelled => "cancelled"
  | .lost => "lost"
  | .rejected => "rejected"
  | .reviewExpired => "review_expired"

/-- The task types an administrator can request. -/
inductive TaskType where
  | shell | pythonScript | healthCheck | gitPull | pipInstall | downloadFile | uploadAndUnpack
  | modalCommand | fileMkdir | fileWrite | filePatchText | fileMove | fileDelete | fileExtract
  | filePreview
  deriving DecidableEq, Repr

/-- The word for a task type. -/
def TaskType.text : TaskType → String
  | .shell => "shell"
  | .pythonScript => "python_script"
  | .healthCheck => "health_check"
  | .gitPull => "git_pull"
  | .pipInstall => "pip_install"
  | .downloadFile => "download_file"
  | .uploadAndUnpack => "upload_and_unpack"
  | .modalCommand => "modal_command"
  | .fileMkdir => "file_mkdir"
  | .fileWrite => "file_write"
  | .filePatchText => "file_patch_text"
  | .fileMove => "file_move"
  | .fileDelete => "file_delete"
  | .fileExtract => "file_extract"
  | .filePreview => "file_preview"

/-- The types of nodes. -/
inductive NodeType where
  | physical | modalRunner | controlPlane
  deriving DecidableEq, Repr

/-- The word for a node type. -/
def NodeType.text : NodeType → String
  | .physical => "physical"
  | .modalRunner => "modal_runner"
  | .controlPlane => "control_plane"

/-- The two log streams of a task. -/
inductive Stream where
  | stdout | stderr
  deriving DecidableEq, Repr

/-- The word for a stream. -/
def Stream.text : Stream → String
  | .stdout => "stdout"
  | .stderr => "stderr"

/-! ## Rows -/

theorem defaultInterval_ge : 3 ≤ 5 := by decide

theorem defaultInterval_le : 5 ≤ 3600 := by decide

/-- A row of `nodes`. -/
structure Node where
  id : Nat
  nodeId : String
  displayName : String
  nodeSigningKey : Option String
  encryptedSigningKey : Option String
  onboardingTokenEncrypted : Option String
  onboardingTokenCreatedAt : Option String
  onboardingTokenExpiresAt : Option String
  nodeType : NodeType
  osType : Option String
  hostname : Option String
  heartbeatIntervalSec : Nat
  allowedWorkdirs : List String
  tags : List String
  allowShell : Bool
  allowModal : Bool
  isEnabled : Bool
  firstSeenAt : Option String
  lastSeenAt : Option String
  lastRequestTs : Option String
  lastBootId : Option String
  createdAt : String
  updatedAt : String

/-- A row of `node_status_snapshots`. -/
structure Snapshot where
  id : Nat
  nodeId : String
  reportedAt : String
  /-- The metadata columns, which only the base row of a heartbeat has. -/
  hasMetadata : Bool

/-- A row of `tasks`. -/
structure Task where
  id : Nat
  taskId : String
  revision : Int
  idempotencyKey : String
  nodeId : String
  type : TaskType
  status : TaskStatus
  payload : Json
  workdir : Option String
  env : List (String × String)
  requestedGpuIds : List Int
  timeoutSec : Nat
  killGraceSec : Nat
  dangerLevel : String
  createdByAdminId : Option Nat
  createdAt : String
  claimedAt : Option String := none
  startedAt : Option String := none
  finishedAt : Option String := none
  resultLockedAt : Option String := none
  reviewStage : Option Nat := none
  reviewDecision : Option String := none
  reviewDetail : Option Json := none
  reviewAdminId : Option Nat := none
  reviewStartedAt : Option String := none
  reviewFinishedAt : Option String := none

/-- A row of `task_attempts`. -/
structure TaskAttempt where
  id : Nat
  taskId : String
  nodeId : String
  agentBootId : Option String
  pid : Option Int
  pgidOrJobId : Option String
  status : String
  startedAt : Option String
  finishedAt : Option String
  exitCode : Option Int
  resultSummary : Json

/-- The files of a log: the live file, and the compressed archives in index order. -/
inductive LogSlot where
  | live
  | archive (index : Nat)
  deriving DecidableEq, Repr

/-- A file under `logs/`: `<stream>.log` or `<stream>.<index>.log.gz` of a task.  Its path is
`LogFile.path`; the ids for which different files have different paths are those of `ClearIds`. -/
structure LogFile where
  taskId : String
  stream : Stream
  slot : LogSlot
  deriving DecidableEq, Repr

/-- A row of `task_logs`. -/
structure TaskLog where
  id : Nat
  taskId : String
  stream : Stream
  lastOffset : Nat
  previewText : List Char
  centerLogPath : Option LogFile
  isTruncated : Bool
  truncatedNotice : String
  updatedAt : String

/-- A file under `artifacts/`, in the directory of a task.  Its path is `ArtifactFile.path`. -/
structure ArtifactFile where
  taskId : String
  name : String
  deriving DecidableEq, Repr

/-- A row of `artifacts`. -/
structure Artifact where
  id : Nat
  taskId : String
  artifactName : String
  artifactType : String
  contentType : Option String
  sizeBytes : Nat
  storagePath : ArtifactFile
  preview : Json
  createdAt : String

/-- A row of `audit_events`. -/
structure AuditEvent where
  id : Nat
  actorType : String
  actorId : Option String
  action : String
  targetType : String
  targetId : Option String
  requestIp : Option String := none
  detail : Json
  createdAt : String

/-- A row of `nonces`. -/
structure Nonce where
  id : Nat
  nodeId : String
  nonce : String
  timestampUtc : String
  expiresAt : String

/-- A row of `task_reviews`. -/
structure TaskReview where
  id : Nat
  taskId : String
  stage : Nat
  reviewerType : String
  reviewerId : Option String
  decision : String
  riskScore : Option Rat
  riskFactors : Option Json
  reasoning : Option String
  createdAt : String

/-- A row of `alert_messages`. -/
structure AlertMessage where
  id : Nat
  alertType : String
  severity : String
  title : String
  summary : Option String
  targetType : Option String
  targetId : Option String
  status : String
  actionedBy : Option Nat := none
  actionedAt : Option String
  expiresAt : Option String
  createdAt : String

instance : Row Node := ⟨String, Node.id, Node.nodeId⟩
instance : Row Snapshot := ⟨Nat, Snapshot.id, Snapshot.id⟩
instance : Row Task := ⟨String, Task.id, Task.taskId⟩
instance : Row TaskAttempt := ⟨Nat, TaskAttempt.id, TaskAttempt.id⟩
instance : Row TaskLog := ⟨(String × Stream), TaskLog.id, fun l => (l.taskId, l.stream)⟩
instance : Row Artifact := ⟨Nat, Artifact.id, Artifact.id⟩
instance : Row AuditEvent := ⟨Nat, AuditEvent.id, AuditEvent.id⟩
instance : Row Nonce := ⟨(String × String), Nonce.id, fun n => (n.nodeId, n.nonce)⟩
instance : Row TaskReview := ⟨Nat, TaskReview.id, TaskReview.id⟩
instance : Row AlertMessage := ⟨Nat, AlertMessage.id, AlertMessage.id⟩

/-- The database. -/
structure Db where
  nodes : Table Node := .empty
  snapshots : Table Snapshot := .empty
  tasks : Table Task := .empty
  attempts : Table TaskAttempt := .empty
  logs : Table TaskLog := .empty
  artifacts : Table Artifact := .empty
  audits : Table AuditEvent := .empty
  nonces : Table Nonce := .empty
  reviews : Table TaskReview := .empty
  alerts : Table AlertMessage := .empty

instance : Inhabited Db := ⟨{}⟩

/-! ## Outside the database -/

/-- The storage directory: the text in each log file, the bytes in each artifact, and the number
of bytes in everything else.  Files are found by task id, which is what lies at their paths as long
as the ids of the tasks are clear (`Files.at_iff`). -/
structure Files where
  logs : AList (fun _ : LogFile => List Char) := ∅
  artifacts : AList (fun _ : ArtifactFile => List Nat) := ∅
  otherBytes : Nat := 0

/-- A webhook event that was emitted. -/
structure WebhookEvent where
  name : String
  payload : Json
  severity : String

/-- What the handlers act on outside the database. -/
structure World where
  files : Files := {}
  /-- The webhook events emitted, oldest first. -/
  events : List WebhookEvent := []
  /-- The nodes whose next heartbeat asks for a new fingerprint. -/
  pendingFingerprintRefresh : List String := []

instance : Inhabited World := ⟨{}⟩

/-! ## Exceptions -/

/-- An error answered to the client. -/
structure ApiError where
  code : String
  message : String
  statusCode : Nat
  details : List (String × Json) := []

/-- The exceptions of the handlers. -/
inductive Exc where
  /-- `ApiError` -/
  | api (e : ApiError)
  /-- `TaskStateError` -/
  | taskState (message : String)
  /-- `ValueError` -/
  | value
  /-- `OverflowError` -/
  | overflow
  /-- `RuntimeError` -/
  | runtime
  /-- `TypeError` -/
  | type
  /-- `sqlite3.IntegrityError` -/
  | integrity
  /-- `sqlite3.OperationalError` -/
  | operational
  /-- A loop of the source that does not end.  Nothing catches it. -/
  | diverges

end GpuFleet
