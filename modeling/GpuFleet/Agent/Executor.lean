import GpuFleet.Agent.Commands
import GpuFleet.Agent.LogBytes
import GpuFleet.Foundations.Calls
import GpuFleet.Server.Statements

/-!
# The executor

A program of the agent makes calls of the system and requests to the center.
Before each call the environment may move: a process exits by itself, the clock
is read anew, a process prints.  Then the call may be refused, which raises.

`executeTask` is the path of a single heartbeat.  It executes a task natively, or
as a command that it waits for, and reports how that ended.  Whatever raises on
the way to the end of the command makes the task fail.
-/

namespace GpuFleet

open Foundations

/-! ## The world of the agent -/

/-- The kinds of call the agent makes. -/
inductive AgentCall where
  /-- A call of the operating system, or a file that is read or written. -/
  | system
  /-- `send_task_event` -/
  | event
  /-- `send_task_log_chunk` and `send_artifact_file` -/
  | upload
  /-- `send_task_result` -/
  | result
  deriving DecidableEq, Repr

/-- Why the agent terminates a process. -/
inductive Termination where
  | cancel
  | timeout
  deriving DecidableEq, Repr

/-- How a process ended: by itself, or after the agent began to terminate it. -/
inductive Ending where
  | itself (code : Int)
  | terminated (reason : Termination) (code : Int)
  deriving DecidableEq, Repr

/-- The exit code of a process that ended. -/
def Ending.code : Ending → Int
  | itself code => code
  | terminated _ code => code

/-- A process the agent has started. -/
structure Process where
  /-- The task it was started for.  `build_env` names it in `GPUFLEET_TASK_ID`, by default. -/
  taskId : String
  command : List String
  workdir : String
  ending : Option Ending := none
  /-- The code it ends with when it is terminated. -/
  codeWhenTerminated : Int := -15

/-- `current_task.json`, when it names a task. -/
structure CurrentTask where
  taskId : String
  type : TaskType
  pid : Nat
  /-- In seconds. -/
  startedAt : Nat
  bootId : String
  runDir : AbsPath
  workdir : String
  command : List String
  timeoutSec : Nat
  killGraceSec : Nat
  execution : List (String × Json)
  modalContext : List (String × Json)
  stdoutPath : AbsPath
  stderrPath : AbsPath
  stdoutOffset : Nat := 0
  stderrOffset : Nat := 0
  cancelRequested : Bool := false
  timedOut : Bool := false

/-- The body of `send_task_event`. -/
structure TaskEvent where
  taskId : String
  event : String
  bootId : String
  runDir : AbsPath
  workdir : String

/-- The body of `send_task_result`, but for the summary of the output. -/
structure TaskReport where
  taskId : String
  finalStatus : FinalStatus
  exitCode : Option Int := none
  bootId : String
  pid : Option Nat := none
  startedAt : Nat
  finishedAt : Nat

/-- The agent's files and processes, and what it has sent.  A process has its place in the list for
its pid. -/
structure AgentWorld where
  /-- In microseconds. -/
  clock : Nat := 0
  /-- What `get_boot_id` returns. -/
  bootId : String := ""
  processes : List Process := []
  /-- `ACTIVE_PROCESSES` -/
  activeProcesses : List (String × Nat) := []
  /-- What `current_task.json` holds. -/
  currentTask : Option CurrentTask := none
  /-- What processes have printed, by the file it goes to. -/
  logs : AbsPath → Bytes := fun _ => []
  /-- `log_offsets.json` -/
  ackedOffset : String → Stream → Nat := fun _ _ => 0
  events : List TaskEvent := []
  chunks : List NodeTaskLogChunkRequest := []
  artifacts : List String := []
  results : List TaskReport := []
  /-- How the process had ended already, whenever the agent began to terminate one. -/
  terminations : List (Option Ending) := []
  tree : FileTree (List Char) Bytes := {}
  around : Surroundings := {}

/-- What the environment does. -/
inductive AgentMove where
  | exits (pid : Nat) (code : Int)
  | tick (now : Nat)
  | prints (path : AbsPath) (text : Bytes)
  /-- A process will end with this code when it is terminated. -/
  | prepares (pid : Nat) (code : Int)

/-- A process exits, if it has not ended. -/
def Process.exit (e : Ending) (p : Process) : Process := { p with ending := p.ending.or (some e) }

namespace AgentWorld

/-- `process.poll()`, as far as how the process ended. -/
def ending (x : AgentWorld) (pid : Nat) : Option Ending := x.processes[pid]?.bind Process.ending

/-- `terminate_process_tree`, which waits until the process has ended. -/
def terminate (x : AgentWorld) (pid : Nat) (reason : Termination) : AgentWorld :=
  { x with
    processes := x.processes.modify pid fun p =>
      p.exit (.terminated reason p.codeWhenTerminated)
    terminations := x.terminations ++ [x.ending pid] }

/-- What the environment does. -/
def move (x : AgentWorld) : AgentMove → AgentWorld
  | .exits pid code => { x with processes := x.processes.modify pid (Process.exit (.itself code)) }
  | .tick now => { x with clock := now }
  | .prints path text =>
      { x with logs := fun p => if p = path then x.logs p ++ text else x.logs p }
  | .prepares pid code =>
      { x with processes := x.processes.modify pid fun p => { p with codeWhenTerminated := code } }

end AgentWorld

instance : Environment AgentMove AgentWorld where
  move a x := x.move a

/-- What the agent's programs raise. -/
inductive AgentError where
  | refused (call : AgentCall)
  | timeoutExpired
  | raised (e : FileError)

/-- A program of the agent. -/
abbrev AgentProg : Type → Type := Calls AgentMove AgentCall AgentWorld AgentError

/-- The world of the agent, with what happens before each call. -/
abbrev AgentScene : Type := Scene AgentMove AgentCall AgentWorld

/-! ## Calls -/

/-- A call of the system. -/
def systemCall {α : Type} (f : AgentWorld → α × AgentWorld) : AgentProg α :=
  Calls.act .system (.refused .system) f

/-- Calls of the system that leave what is modelled of the agent's files. -/
def systemCalls (n : Nat) : AgentProg Unit :=
  Calls.forEach (List.replicate n ()) fun _ => systemCall fun x => ((), x)

/-- A request to the center. -/
def request (k : AgentCall) (f : AgentWorld → AgentWorld) : AgentProg Unit :=
  Calls.act k (.refused k) fun x => ((), f x)

/-- Raise the exception of a pure function. -/
def ofChecks {α : Type} (r : Except FileError α) : AgentProg α :=
  Calls.ofExcept (r.mapError AgentError.raised)

/-- `send_task_event` -/
def sendTaskEvent (e : TaskEvent) : AgentProg Unit :=
  request .event fun x => { x with events := x.events ++ [e] }

/-- `send_task_log_chunk` -/
def sendTaskLogChunk (c : NodeTaskLogChunkRequest) : AgentProg Unit :=
  request .upload fun x => { x with chunks := x.chunks ++ [c] }

/-- `send_artifact_file`, outside of native tasks. -/
def sendSummary : AgentProg Unit :=
  request .upload fun x => { x with artifacts := x.artifacts ++ ["result_summary.json"] }

/-- `send_task_result` -/
def sendTaskResult (r : TaskReport) : AgentProg Unit :=
  request .result fun x => { x with results := x.results ++ [r] }

/-- `now_iso`, in seconds. -/
def nowIso : AgentProg Nat := Calls.read fun x => x.clock / 1000000

/-- `get_boot_id`: the state is read and written back. -/
def getBootId : AgentProg String := do
  systemCalls 2
  Calls.read AgentWorld.bootId

/-- `save_json` of `current_task.json`. -/
def setCurrentTask (state : Option CurrentTask) : AgentProg Unit :=
  systemCall fun x => ((), { x with currentTask := state })

/-- `subprocess.Popen` for a task, with the pid. -/
def popen (taskId : String) (command : List String) (workdir : String) : AgentProg Nat :=
  systemCall fun x =>
    (x.processes.length, { x with processes := x.processes ++ [{ taskId, command, workdir }] })

/-- `process.poll()` -/
def pollProcess (pid : Nat) : AgentProg (Option Int) :=
  systemCall fun x => ((x.ending pid).map Ending.code, x)

/-- `terminate_process_tree` -/
def terminateProcessTree (pid : Nat) (reason : Termination) : AgentProg Unit :=
  systemCall fun x => ((), x.terminate pid reason)

/-! ## Logs -/

/-- `init_log_offsets`: what is missing counts as zero anyway. -/
def initLogOffsets : AgentProg Unit := systemCalls 2

/-- `acked_log_offset` -/
def ackedLogOffset (taskId : String) (stream : Stream) : AgentProg Nat :=
  systemCall fun x => (x.ackedOffset taskId stream, x)

/-- Replace the offsets of some streams of a task. -/
def AgentWorld.ack (x : AgentWorld) (taskId : String) (streams : List Stream) (offset : Nat) :
    AgentWorld :=
  { x with
    ackedOffset := fun t s => if t = taskId ∧ s ∈ streams then offset else x.ackedOffset t s }

/-- `store_acked_log_offset` -/
def storeAckedLogOffset (taskId : String) (stream : Stream) (offset : Nat) : AgentProg Unit := do
  systemCalls 1
  systemCall fun x => ((), x.ack taskId [stream] offset)

/-- `clear_log_offsets` -/
def clearLogOffsets (taskId : String) : AgentProg Unit := do
  systemCalls 1
  systemCall fun x => ((), x.ack taskId [.stdout, .stderr] 0)

/-- `send_log_chunks_with_ack` -/
def sendLogChunks (taskId : String) (stream : Stream) (u : Upload) : AgentProg Nat := do
  Calls.forEach (sendLogChunksWithAck taskId stream u).1 fun chunk => do
    sendTaskLogChunk chunk
    storeAckedLogOffset taskId stream (chunk.offsetStart + chunk.text.length)
  pure (sendLogChunksWithAck taskId stream u).2

/-- `upload_log_text` -/
def uploadLogText (taskId : String) (stream : Stream) (text : List Char) : AgentProg Unit := do
  initLogOffsets
  (do
    let _ ← sendLogChunks taskId stream { offset := 0, text, final := true }
    pure ()).tryCatch fun e => do
      clearLogOffsets taskId
      Calls.raise e
  clearLogOffsets taskId

/-! ## Execution -/

section Execution

variable (py : Python) (host : Host) (settings : AgentSettings)
  -- `f"{timestamp}_{safe_task_name(task_id)}"` at the time of the start.
  (runDirName : String → String)

/-- What `prepare_run_dir` makes and returns. -/
def runDirOf (taskId : String) : AbsPath :=
  joinPath host.cwd (settings.runsDir ++ "/" ++ runDirName taskId)

/-- `prepare_run_dir` -/
def prepareRunDir : AgentProg Unit := systemCalls 1

/-- `resolve_workdir` -/
def resolveWorkdir (task : NativeTask) (runDir : AbsPath) : String :=
  (nonempty task.workdir).getD (pathText runDir)

/-- The calls of `choose_modal_credential`: the pool, and whose turn it is where credentials take
turns. -/
def modalCalls (payload : List (String × Json)) : Nat :=
  let entries := host.modalCredentials.filter fun entry =>
    (entry.lookup "enabled").all Json.isTruthy
  let named := (firstTruthy [payload.lookup "credential_name",
    payload.lookup "modal_credential_name"]).elim "" py.str
  let byName := py.strip named ≠ "" ∨ py.strip (settings.modalDefaultCredentialName.getD "") ≠ ""
  if entries = [] ∨ byName then 1 else 3

/-- The context of a task for Modal, if it is one. -/
def modalContext (task : NativeTask) : AgentProg (List (String × Json)) :=
  if task.type = .modalCommand then do
    systemCalls (modalCalls py host settings task.payload)
    let overrides ← ofChecks (buildModalEnvOverrides py host settings task.payload)
    pure overrides.2
  else pure []

/-- `build_command` -/
def buildCommand (task : NativeTask) (runDir : AbsPath) (workdir : String) :
    AgentProg BuiltCommand := do
  let draft ← ofChecks (draftCommand py host settings task runDir workdir)
  systemCalls draft.made.length
  ofChecks draft.finish

/-- A command that is ready to run. -/
structure ReadyCommand where
  workdir : String
  built : BuiltCommand
  modalContext : List (String × Json)

/-- What a task needs before its command runs: its workdir and the command. -/
def prepareCommand (task : NativeTask) (runDir : AbsPath) : AgentProg ReadyCommand := do
  let workdir := resolveWorkdir task runDir
  systemCalls 1
  let context ← modalContext py host settings task
  let built ← buildCommand py host settings task runDir workdir
  pure ⟨workdir, built, context⟩

/-- How the `try` block of `execute_task` ends. -/
inductive Attempt where
  | native
  | exited (pid : Nat) (code : Int)
  | timedOut (pid : Nat)
  /-- Anything else was raised, after a process was started or before. -/
  | failed (pid : Option Nat)

/-- `process.communicate(timeout=...)`: it returns the exit code, or the time is over. -/
def communicate (pid : Nat) : AgentProg Int :=
  Calls.call .system (.refused .system) fun x =>
    match x.ending pid with
    | some e => (.ok e.code, x)
    | none => (.error .timeoutExpired, x)

/-- `execute_native_task` -/
def nativeTask (task : NativeTask) : AgentProg (Option Json) :=
  Calls.step fun x =>
    let out := (executeNativeTask py settings.toAgentDirs host.cwd task).exec x.tree x.tree x.around
    (out.result.mapError AgentError.raised, { x with tree := out.working, around := out.outside })

/-- The `try` block of `execute_task`. -/
def attemptTask (task : AgentTask) (bootId : String) (startedAt : Nat) (runDir : AbsPath) :
    AgentProg Attempt := do
  match ← nativeTask py host settings task.toNativeTask with
  | some _ =>
      let finishedAt ← nowIso
      sendTaskResult
        { taskId := task.taskId, finalStatus := .succeeded, exitCode := some 0
          bootId, startedAt, finishedAt }
      sendSummary
      pure .native
  | none =>
      let ready ← prepareCommand py host settings task.toNativeTask runDir
      -- The metadata of the task.
      systemCalls 1
      sendTaskEvent
        { taskId := task.taskId, event := "running", bootId, runDir, workdir := ready.workdir }
      let pid ← popen task.taskId ready.built.command ready.workdir
      (do
        systemCalls 1
        let code ← communicate pid
        pure (Attempt.exited pid code)).tryCatch fun e =>
          match e with
          | .timeoutExpired => pure (.timedOut pid)
          | _ => pure (.failed (some pid))

/-- What the agent says about the end of a task. -/
structure TaskOutcome where
  finalStatus : FinalStatus
  exitCode : Option Int := none
  pid : Option Nat := none

/-- What an attempt comes to. -/
def Attempt.outcome : Attempt → TaskOutcome
  | .native => { finalStatus := .succeeded, exitCode := some 0 }
  | .exited pid code =>
      { finalStatus := if code = 0 then .succeeded else .failed, exitCode := some code, pid }
  | .timedOut pid => { finalStatus := .timeout, pid }
  | .failed pid => { finalStatus := .failed, pid }

/-- The handler of `subprocess.TimeoutExpired`. -/
def afterTimeout : Attempt → AgentProg Unit
  | .timedOut pid => do
      terminateProcessTree pid .timeout
      systemCalls 1
  | _ => pure ()

/-- The `finally` block of `execute_task`. -/
def cleanUp (taskId : String) (runDir : AbsPath) : AgentProg Unit := do
  systemCalls 2
  let stdoutText ← Calls.read fun x => readText (x.logs (runDir ++ ["stdout.log".toList]))
  uploadLogText taskId .stdout stdoutText
  let stderrText ← Calls.read fun x => readText (x.logs (runDir ++ ["stderr.log".toList]))
  uploadLogText taskId .stderr stderrText
  setCurrentTask none

/-- `execute_task`.  While it runs, `current_task.json` holds a record that no other function reads
before it is cleared. -/
def executeTask (task : AgentTask) : AgentProg TaskOutcome := do
  let bootId ← getBootId
  let startedAt ← nowIso
  let runDir := runDirOf host settings runDirName task.taskId
  prepareRunDir
  let attempt ← (attemptTask py host settings task bootId startedAt runDir).tryCatch fun _ =>
    pure (.failed none)
  (afterTimeout attempt).tryCatch fun e => do
    cleanUp task.taskId runDir
    Calls.raise e
  let finishedAt ← nowIso
  cleanUp task.taskId runDir
  match attempt with
  | .native => pure Attempt.native.outcome
  | _ =>
      let outcome := attempt.outcome
      sendTaskResult
        { taskId := task.taskId, finalStatus := outcome.finalStatus, exitCode := outcome.exitCode
          bootId, pid := outcome.pid, startedAt, finishedAt }
      sendSummary
      pure outcome

end Execution

end GpuFleet
