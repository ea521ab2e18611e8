import GpuFleet.Agent.Dispatcher

/-!
# The active task

Every iteration of the agent loop looks after the task in `current_task.json`.
`syncActiveTask` terminates its process when a cancel control arrives or the time
is over, uploads what the process has printed, and reports the task when the
process has ended.  An upload that is refused ends the iteration, and the next
one begins again with what was saved.

The saved record says for which reason the process was terminated, as long as the
agent only begins to terminate processes that still run.  Then a report says how
its process ended (`agent_reports_endings`).  `syncActiveTask` asks whether the
process runs before it terminates it for its timeout, but not before it does so
for a cancel control, and so it reports tasks as cancelled that had ended by
themselves (`cancelled_after_exit`).
-/

namespace GpuFleet

open Foundations

/-! ## Looking after a task -/

/-- A control of a heartbeat. -/
structure TaskControl where
  taskId : String
  action : String

/-- Where the log of a stream is. -/
def CurrentTask.logPath (state : CurrentTask) : Stream → AbsPath
  | .stdout => state.stdoutPath
  | .stderr => state.stderrPath

/-- `upload_incremental_logs` of one stream, with its new offset. -/
def pumpStream (state : CurrentTask) (final : Bool) (stream : Stream) : AgentProg Nat := do
  let previousOffset ← ackedLogOffset state.taskId stream
  let file ← systemCall fun x => (decodeReplace (x.logs (state.logPath stream)), x)
  let slice := readTextSlice file previousOffset
  match uploadIncrementalLogs file previousOffset final with
  | none => pure slice.2
  | some u =>
      let ackedOffset ← sendLogChunks state.taskId stream u
      pure (if slice.1 = [] then slice.2 else ackedOffset)

/-- `upload_incremental_logs` -/
def pumpLogs (state : CurrentTask) (final : Bool) : AgentProg CurrentTask := do
  initLogOffsets
  let stdoutOffset ← pumpStream state final .stdout
  let stderrOffset ← pumpStream state final .stderr
  let state := { state with stdoutOffset, stderrOffset }
  setCurrentTask (some state)
  pure state

/-- `ACTIVE_PROCESSES.pop` -/
def popProcess (taskId : String) : AgentProg Unit :=
  Calls.update fun x =>
    { x with activeProcesses := x.activeProcesses.filter fun p => p.1 ≠ taskId }

/-- `finalize_background_task` -/
def finalizeBackgroundTask (state : CurrentTask) (finalStatus : FinalStatus)
    (exitCode : Option Int) : AgentProg TaskOutcome := do
  let finishedAt ← nowIso
  let state ← pumpLogs state true
  -- The logs are read for the summary.
  systemCalls 2
  sendTaskResult
    { taskId := state.taskId, finalStatus, exitCode, bootId := state.bootId, pid := state.pid
      startedAt := state.startedAt, finishedAt }
  sendSummary
  popProcess state.taskId
  clearLogOffsets state.taskId
  setCurrentTask none
  pure { finalStatus, exitCode, pid := state.pid }

/-- What `sync_active_task` says. -/
inductive Synced where
  | idle
  | running
  | finished (o : TaskOutcome)

/-- A cancel control for the task has arrived. -/
def cancelArrived (controls : List TaskControl) (taskId : String) : Bool :=
  controls.any fun c => decide (c.taskId = taskId ∧ c.action = "cancel")

/-- `sync_active_task` up to the logs: the first cancel control terminates the process. -/
def requestCancel (controls : List TaskControl) (state : CurrentTask) (pid : Nat) :
    AgentProg CurrentTask :=
  if cancelArrived controls state.taskId && !state.cancelRequested then do
    let state := { state with cancelRequested := true }
    setCurrentTask (some state)
    terminateProcessTree pid .cancel
    pure state
  else pure state

/-- The time of a task is over. -/
def CurrentTask.overdue (state : CurrentTask) (now : Nat) : Bool :=
  decide ((state.startedAt + state.timeoutSec) * 1000000 < now)

/-- `sync_active_task` after the logs: a process that still runs when its time is over is
terminated. -/
def checkTimeout (state : CurrentTask) (pid : Nat) : AgentProg CurrentTask := do
  match ← pollProcess pid with
  | some _ => pure state
  | none =>
      let now ← systemCall fun x => (x.clock, x)
      if state.overdue now then
        terminateProcessTree pid .timeout
        let state := { state with timedOut := true }
        setCurrentTask (some state)
        pure state
      else pure state

/-- The status of a task whose process has ended. -/
def CurrentTask.finalStatus (state : CurrentTask) (returnCode : Int) : FinalStatus :=
  if state.cancelRequested then .cancelled
  else if state.timedOut then .timeout
  else if returnCode = 0 then .succeeded else .failed

/-- The end of `sync_active_task`. -/
def concludeTask (state : CurrentTask) (pid : Nat) : AgentProg Synced := do
  match ← pollProcess pid with
  | none => pure .running
  | some returnCode =>
      let outcome ← finalizeBackgroundTask state (state.finalStatus returnCode) (some returnCode)
      pure (.finished outcome)

/-- `load_current_task`, when it names a task. -/
def loadCurrentTask : AgentProg (Option CurrentTask) :=
  systemCall fun x => (x.currentTask.filter fun state => decide (state.taskId ≠ ""), x)

/-- `ACTIVE_PROCESSES.get` -/
def activeProcess (taskId : String) : AgentProg (Option Nat) :=
  Calls.read fun x => x.activeProcesses.lookup taskId

/-- `sync_active_task` -/
def syncActiveTask (controls : List TaskControl) : AgentProg Synced := do
  match ← loadCurrentTask with
  | none => pure .idle
  | some state =>
      match ← activeProcess state.taskId with
      | none => pure .idle
      | some pid =>
          let state ← requestCancel controls state pid
          let state ← pumpLogs state false
          let state ← checkTimeout state pid
          concludeTask state pid

/-- The status `recover_orphaned_task` reports. -/
def CurrentTask.orphanStatus (state : CurrentTask) (alive : Bool) : FinalStatus :=
  if alive then .lost
  else if state.cancelRequested then .cancelled
  else if state.timedOut then .timeout
  else .failed

/-- `recover_orphaned_task`; the note it saves is left out. -/
def recoverOrphanedTask : AgentProg Unit := do
  match ← loadCurrentTask with
  | none => pure ()
  | some state =>
      match ← activeProcess state.taskId with
      | some _ => pure ()
      | none =>
          let alive ← systemCall fun x => ((x.ending state.pid).isNone, x)
          let state ← pumpLogs state true
          setCurrentTask (some state)
          let _ ← finalizeBackgroundTask state (state.orphanStatus alive) none
          pure ()

/-! ## The loop -/

/-- What a heartbeat brings. -/
structure HeartbeatReply where
  taskControls : List TaskControl := []
  tasks : List AgentTask := []

section Loop

variable (py : Python) (host : Host) (settings : AgentSettings) (runDirName : String → String)

/-- An iteration of `run_loop`, after its heartbeat. -/
def loopIteration (reply : HeartbeatReply) : AgentProg Unit :=
  (do
    recoverOrphanedTask.tryCatch fun _ => pure ()
    let _ ← syncActiveTask reply.taskControls
    if reply.tasks = [] then pure ()
    else if ← hasActiveTask then pure ()
    else
      let _ ← startTasksBackground py host settings runDirName reply.tasks
      pure ()).tryCatch fun _ : AgentError => pure ()

/-- Iterations of the loop. -/
def agentLoop (replies : List HeartbeatReply) : AgentProg Unit :=
  Calls.forEach replies (loopIteration py host settings runDirName)

end Loop

/-! ## What a record says -/

/-- A status that tells how a process ended. -/
def Ending.Reported : Ending → FinalStatus → Prop
  | .itself code, s => s = if code = 0 then .succeeded else .failed
  | .terminated .cancel _, s => s = .cancelled
  | .terminated .timeout _, s => s = .timeout

/-- The flags of a record tell for which reason its process was terminated, if it was. -/
def FlagsTell (cancelRequested timedOut : Bool) : Option Ending → Prop
  | some (.terminated .cancel _) => cancelRequested = true ∧ timedOut = false
  | some (.terminated .timeout _) => cancelRequested = false ∧ timedOut = true
  | some (.itself _) | none => cancelRequested = false ∧ timedOut = false

/-- What matters of a record. -/
structure TaskKey where
  taskId : String
  pid : Nat
  cancelRequested : Bool
  timedOut : Bool

/-- What matters of a record. -/
def CurrentTask.key (state : CurrentTask) : TaskKey :=
  ⟨state.taskId, state.pid, state.cancelRequested, state.timedOut⟩

/-- The agent began to terminate processes only while they ran. -/
def Prompt (x : AgentWorld) : Prop := ∀ e ∈ x.terminations, e = none

instance (x : AgentWorld) : Decidable (Prompt x) :=
  inferInstanceAs (Decidable (∀ e ∈ x.terminations, e = none))

/-- Every result tells how the process of its task ended. -/
def ReportsEndings (x : AgentWorld) : Prop :=
  ∀ r ∈ x.results, ∃ pid e, r.pid = some pid ∧ x.ending pid = some e ∧ e.Reported r.finalStatus

/-- The record on file has this key, and its process is registered. -/
structure Watches (k : TaskKey) (x : AgentWorld) : Prop where
  current : x.currentTask.map CurrentTask.key = some k
  active : x.activeProcesses.lookup k.taskId = some k.pid
  started : k.pid < x.processes.length

/-- The agent watches a task, for whose process these flags tell the truth. -/
structure Announces (k : TaskKey) (cancelRequested timedOut : Bool) (x : AgentWorld) : Prop
    extends Watches k x where
  reports : Prompt x → ReportsEndings x
  flags : Prompt x → FlagsTell cancelRequested timedOut (x.ending k.pid)

/-- The agent looks after a task: the flags of its record tell the truth. -/
abbrev Tends (k : TaskKey) : AgentWorld → Prop := Announces k k.cancelRequested k.timedOut

/-- Calls of the system are not refused. -/
theorem system_not_refused {P : Prop} :
    ¬ Refusable (Sparing (μ := AgentMove) [AgentCall.system]) AgentCall.system ∨ P :=
  .inl (not_refusable_sparing (List.mem_singleton.mpr rfl))

/-- The agent looks after the task on file, if there is one. -/
def Supervises (x : AgentWorld) : Prop :=
  (Prompt x → ReportsEndings x) ∧ ∀ state, x.currentTask = some state → Tends state.key x

/-! ## Moves -/

section Moves

variable {x : AgentWorld} {k : TaskKey} {pid : Nat}

theorem ending_exit (pid' : Nat) (e : Ending) :
    ({ x with processes := x.processes.modify pid' (Process.exit e) } : AgentWorld).ending pid =
      if pid' = pid ∧ pid < x.processes.length then (x.ending pid).or (some e)
      else x.ending pid := by
  unfold AgentWorld.ending
  rw [List.getElem?_modify]
  by_cases hpid : pid < x.processes.length
  · rw [List.getElem?_eq_getElem hpid]
    by_cases h : pid' = pid <;> simp [h, hpid, Process.exit]
  · rw [List.getElem?_eq_none (Nat.le_of_not_lt hpid)]
    simp [hpid]

/-- A move leaves how a process ended, and lets it end only by itself. -/
theorem ending_move (a : AgentMove) (x : AgentWorld) (pid : Nat) :
    (x.move a).ending pid = x.ending pid ∨
      x.ending pid = none ∧ ∃ code, (x.move a).ending pid = some (.itself code) := by
  cases a with
  | exits pid' code =>
      show ({ x with processes := _ } : AgentWorld).ending pid = _ ∨ _ ∧ ∃ _, _ = _
      rw [AgentWorld.move, ending_exit]
      split
      · cases h : x.ending pid with
        | none => exact .inr ⟨rfl, code, rfl⟩
        | some e => exact .inl rfl
      · exact .inl rfl
  | tick now => exact .inl rfl
  | prints path text => exact .inl rfl
  | prepares pid' code =>
      left
      show ((x.processes.modify pid' _)[pid]?).bind _ = _
      rw [List.getElem?_modify]
      unfold AgentWorld.ending
      cases x.processes[pid]? with
      | none => rfl
      | some p => by_cases h : pid' = pid <;> simp [h]

theorem ending_move_some {a : AgentMove} {e : Ending} (h : x.ending pid = some e) :
    (x.move a).ending pid = some e := by
  rcases ending_move a x pid with hsame | ⟨hnone, -⟩
  · rw [hsame, h]
  · rw [h] at hnone
    cases hnone

theorem FlagsTell.move {c t : Bool} (h : FlagsTell c t (x.ending pid)) (a : AgentMove) :
    FlagsTell c t ((x.move a).ending pid) := by
  rcases ending_move a x pid with hsame | ⟨hnone, code, hcode⟩
  · rwa [hsame]
  · rw [hnone] at h
    rw [hcode]
    exact h

theorem ReportsEndings.move (h : ReportsEndings x) (a : AgentMove) : ReportsEndings (x.move a) := by
  intro r hr
  have hresults : (x.move a).results = x.results := by cases a <;> rfl
  obtain ⟨pid, e, hpid, he, hreported⟩ := h r (hresults ▸ hr)
  exact ⟨pid, e, hpid, ending_move_some he, hreported⟩

theorem prompt_move (a : AgentMove) : Prompt (x.move a) ↔ Prompt x := by
  cases a <;> rfl

theorem Watches.move (h : Watches k x) (a : AgentMove) : Watches k (x.move a) := by
  have hlength : (x.move a).processes.length = x.processes.length := by
    cases a <;> simp [AgentWorld.move]
  refine ⟨?_, ?_, by rw [hlength]; exact h.started⟩
  · cases a <;> exact h.current
  · cases a <;> exact h.active

theorem steady_announces (k : TaskKey) (c t : Bool) : Steady (Announces k c t) := fun a _ h =>
  { toWatches := h.toWatches.move a
    reports := fun hp => (h.reports ((prompt_move a).mp hp)).move a
    flags := fun hp => (h.flags ((prompt_move a).mp hp)).move a }

theorem steady_supervises : Steady Supervises := by
  intro a x h
  have hcurrent : (x.move a).currentTask = x.currentTask := by cases a <;> rfl
  refine ⟨fun hp => (h.1 ((prompt_move a).mp hp)).move a, fun state hstate => ?_⟩
  exact steady_announces state.key _ _ a x (h.2 state (hcurrent ▸ hstate))

theorem Tends.supervises (h : Tends k x) : Supervises x := by
  refine ⟨h.reports, fun state hstate => ?_⟩
  have hkey := h.current
  rw [hstate] at hkey
  rwa [← Option.some.inj hkey] at h

end Moves

/-! ## Uploading logs -/

/-- What uploading the logs of a task keeps. -/
structure Loggable (k : TaskKey) (I : AgentWorld → Prop) : Prop where
  steady : Steady I
  ack : ∀ x taskId streams offset, I x → I (x.ack taskId streams offset)
  send : ∀ x chunk, I x → I { x with chunks := x.chunks ++ [chunk] }
  save : ∀ x (s : CurrentTask), s.key = k → I x → I { x with currentTask := some s }

section Logs

variable {E : Moment AgentMove AgentCall → Prop} {k : TaskKey} {I J : AgentWorld → Prop} {state : CurrentTask}

theorem guards_storeAckedLogOffset {taskId : String} {stream : Stream} {offset : Nat}
    (hI : Loggable k I) (hsystem : ¬ Refusable E .system ∨ ∀ x, I x → J x) :
    (storeAckedLogOffset taskId stream offset).Guards E I J :=
  (guards_systemCalls 1 hI.steady hsystem).bind fun _ =>
    guards_systemCall hI.steady (fun x hx => hI.ack x taskId [stream] offset hx) hsystem

theorem guards_clearLogOffsets {taskId : String} (hI : Loggable k I)
    (hsystem : ¬ Refusable E .system ∨ ∀ x, I x → J x) : (clearLogOffsets taskId).Guards E I J :=
  (guards_systemCalls 1 hI.steady hsystem).bind fun _ =>
    guards_systemCall hI.steady (fun x hx => hI.ack x taskId [.stdout, .stderr] 0 hx) hsystem

theorem guards_sendLogChunks {taskId : String} {stream : Stream} {u : Upload}
    (hI : Loggable k I) (hsystem : ¬ Refusable E .system ∨ ∀ x, I x → J x)
    (hupload : ¬ Refusable E .upload ∨ ∀ x, I x → J x) : (sendLogChunks taskId stream u).Guards E I J := by
  have hsend : ∀ chunk, (sendTaskLogChunk chunk).Guards E I J := fun chunk =>
    guards_request hI.steady (fun x hx => hI.send x chunk hx) hupload
  exact (Calls.guards_forEach fun chunk _ => (hsend chunk).bind fun _ =>
    guards_storeAckedLogOffset hI hsystem).bind fun _ => Calls.guards_pure _

theorem guards_pumpStream {final : Bool} {stream : Stream} (hI : Loggable k I)
    (hsystem : ¬ Refusable E .system ∨ ∀ x, I x → J x) (hupload : ¬ Refusable E .upload ∨ ∀ x, I x → J x) :
    (pumpStream state final stream).Guards E I J := by
  have hacked : (ackedLogOffset state.taskId stream).Guards E I J :=
    guards_systemCall hI.steady (fun _ hx => hx) hsystem
  refine hacked.bind fun previousOffset => Calls.Guards.bind ?_ fun file => ?_
  · exact guards_systemCall hI.steady (fun _ hx => hx) hsystem
  · cases uploadIncrementalLogs file previousOffset final with
    | none => exact Calls.guards_pure _
    | some u => exact (guards_sendLogChunks hI hsystem hupload).bind fun _ => Calls.guards_pure _

/-- `upload_incremental_logs` saves a record with the same key. -/
theorem ensures_pumpLogs (final : Bool) {x : AgentWorld} (hI : Loggable k I)
    (hsystem : ¬ Refusable E .system ∨ ∀ x, I x → J x) (hupload : ¬ Refusable E .upload ∨ ∀ x, I x → J x)
    (hkey : state.key = k) (hx : I x) :
    (pumpLogs state final).Ensures E (fun state y => state.key = k ∧ I y) (fun _ => J) x := by
  have hstream : ∀ stream, (pumpStream state final stream).Guards E I J := fun stream =>
    guards_pumpStream hI hsystem hupload
  have hsave : ∀ state' : CurrentTask, state'.key = k →
      (setCurrentTask (some state')).Guards E I J := fun state' hkey' =>
    guards_systemCall hI.steady (fun y hy => hI.save y state' hkey' hy) hsystem
  refine (guards_systemCalls 2 hI.steady hsystem).andThen hx fun _ y hy => ?_
  refine (hstream .stdout).andThen hy fun stdoutOffset z hz => ?_
  refine (hstream .stderr).andThen hz fun stderrOffset w hw => ?_
  exact (hsave { state with stdoutOffset, stderrOffset } hkey).andThen hw fun _ v hv =>
    Calls.ensures_pure ⟨hkey, hv⟩

theorem loggable_tends (k : TaskKey) : Loggable k (Tends k) where
  steady := steady_announces k _ _
  ack _ _ _ _ h := ⟨⟨h.current, h.active, h.started⟩, h.reports, h.flags⟩
  send _ _ h := ⟨⟨h.current, h.active, h.started⟩, h.reports, h.flags⟩
  save _ _ hkey h := ⟨⟨congrArg some hkey, h.active, h.started⟩, h.reports, h.flags⟩

end Logs

/-! ## Reporting a task -/

/-- The process of the task has ended as this status tells. -/
def EndedAs (k : TaskKey) (finalStatus : FinalStatus) (x : AgentWorld) : Prop :=
  Tends k x ∧ (Prompt x → ∃ e, x.ending k.pid = some e ∧ e.Reported finalStatus)

section Finalize

variable {E : Moment AgentMove AgentCall → Prop} {k : TaskKey} {J : AgentWorld → Prop} {state : CurrentTask}
  {finalStatus : FinalStatus} {x : AgentWorld}

theorem loggable_endedAs (k : TaskKey) (finalStatus : FinalStatus) :
    Loggable k (EndedAs k finalStatus) where
  steady a x h := by
    refine ⟨steady_announces k _ _ a x h.1, fun hp => ?_⟩
    obtain ⟨e, he, hreported⟩ := h.2 ((prompt_move a).mp hp)
    exact ⟨e, ending_move_some he, hreported⟩
  ack x taskId streams offset h := ⟨(loggable_tends k).ack x taskId streams offset h.1, h.2⟩
  send x chunk h := ⟨(loggable_tends k).send x chunk h.1, h.2⟩
  save x state hkey h := ⟨(loggable_tends k).save x state hkey h.1, h.2⟩

/-- A result that tells how the process ended is one more. -/
theorem EndedAs.report (h : EndedAs k finalStatus x) {r : TaskReport} (hpid : r.pid = some k.pid)
    (hstatus : r.finalStatus = finalStatus) :
    Tends k { x with results := x.results ++ [r] } := by
  refine ⟨⟨h.1.current, h.1.active, h.1.started⟩, fun hp => ?_, h.1.flags⟩
  intro r' hr'
  rcases List.mem_append.mp hr' with hold | hnew
  · exact h.1.reports hp r' hold
  · obtain rfl := List.mem_singleton.mp hnew
    obtain ⟨e, he, hreported⟩ := h.2 hp
    exact ⟨k.pid, e, hpid, he, hstatus ▸ hreported⟩

/-- Once its results are in order, an agent may forget its task. -/
theorem steady_reports : Steady fun x => Prompt x → ReportsEndings x :=
  fun a _ h hp => (h ((prompt_move a).mp hp)).move a

/-- `finalize_background_task` reports how the process ended.  Only a refused request keeps it from
doing so, and then the task is looked after as before. -/
theorem ensures_finalize (hkey : state.key = k) (hx : EndedAs k finalStatus x)
    (code : Option Int) :
    (finalizeBackgroundTask state finalStatus code).Ensures (Sparing [.system]) (fun _ => Supervises)
      (fun _ => Supervises) x := by
  have hended : ∀ x, EndedAs k finalStatus x → Supervises x := fun x h => h.1.supervises
  have htends : ∀ x, Tends k x → Supervises x := fun x h => h.supervises
  have hI := loggable_endedAs k finalStatus
  refine Calls.ensures_bind (Calls.ensures_read ?_)
  refine (ensures_pumpLogs true hI system_not_refused (.inr hended) hkey hx).andThen fun state' y hy => ?_
  obtain ⟨hkey', hy⟩ := hy
  refine (guards_systemCalls 2 hI.steady system_not_refused).andThen hy fun _ z hz => ?_
  -- The result.
  have hresult : (sendTaskResult
      { taskId := state'.taskId, finalStatus, exitCode := code, bootId := state'.bootId
        pid := state'.pid, startedAt := state'.startedAt
        finishedAt := x.clock / 1000000 }).Ensures (Sparing [.system]) (fun _ => Tends k)
        (fun _ => Supervises) z :=
    ensures_request (fun w hw => (hI.steady.moved hw hz).report
      (congrArg some (congrArg TaskKey.pid hkey')) rfl)
      (.inr fun w hw => hended w (hI.steady.moved hw hz))
  refine hresult.andThen fun _ w hw => ?_
  -- The summary.
  have hsummary : sendSummary.Guards (Sparing [.system]) (Tends k) Supervises :=
    guards_request (steady_announces k _ _)
      (fun v hv => ⟨⟨hv.current, hv.active, hv.started⟩, hv.reports, hv.flags⟩) (.inr htends)
  refine hsummary.andThen hw fun _ v hv => ?_
  -- The agent forgets the task.
  refine Calls.ensures_bind (Calls.ensures_update ?_)
  have hclear : (clearLogOffsets state'.taskId).Guards (Sparing [.system])
      (fun x => Prompt x → ReportsEndings x) Supervises :=
    (guards_systemCalls 1 steady_reports system_not_refused).bind fun _ =>
      guards_systemCall steady_reports (fun _ h => h) system_not_refused
  refine hclear.andThen hv.reports fun _ u hu => ?_
  have hforget : (setCurrentTask none).Ensures (Sparing [.system]) (fun _ => Supervises)
      (fun _ => Supervises) u :=
    ensures_systemCall (fun t ht => by
      have hreports := steady_reports.moved ht hu
      exact ⟨hreports, fun _ h => by cases h⟩) system_not_refused
  exact hforget.andThen fun _ t ht => Calls.ensures_pure ht

end Finalize

/-! ## The steps of `sync_active_task` -/

section Sync

variable {k : TaskKey} {state : CurrentTask} {x : AgentWorld}

theorem prompt_terminate {pid : Nat} {reason : Termination} :
    Prompt (x.terminate pid reason) ↔ Prompt x ∧ x.ending pid = none := by
  simp [Prompt, AgentWorld.terminate, or_imp, forall_and]

/-- Who ended stays ended when a process is terminated. -/
theorem ending_terminate_some {pid pid' : Nat} {reason : Termination} {e : Ending}
    (h : x.ending pid = some e) : (x.terminate pid' reason).ending pid = some e := by
  unfold AgentWorld.ending at h ⊢
  show ((x.processes.modify pid' _)[pid]?).bind _ = _
  rw [List.getElem?_modify]
  cases hp : x.processes[pid]? with
  | none =>
      rw [hp] at h
      cases h
  | some p =>
      rw [hp] at h
      have hend : p.ending = some e := h
      by_cases heq : pid' = pid <;> simp [heq, Process.exit, hend]

/-- A running process ends for the reason for which it is terminated. -/
theorem ending_terminate {pid : Nat} (reason : Termination) (hlive : x.ending pid = none)
    (hpid : pid < x.processes.length) :
    ∃ code, (x.terminate pid reason).ending pid = some (.terminated reason code) := by
  unfold AgentWorld.ending at hlive ⊢
  rw [List.getElem?_eq_getElem hpid] at hlive
  have hend : x.processes[pid].ending = none := hlive
  refine ⟨x.processes[pid].codeWhenTerminated, ?_⟩
  show ((x.processes.modify pid _)[pid]?).bind _ = _
  rw [List.getElem?_modify, List.getElem?_eq_getElem hpid]
  simp [Process.exit, hend]

theorem ReportsEndings.terminate {pid : Nat} {reason : Termination} (h : ReportsEndings x) :
    ReportsEndings (x.terminate pid reason) := by
  intro r hr
  obtain ⟨pid', e, hpid, he, hreported⟩ := h r hr
  exact ⟨pid', e, hpid, ending_terminate_some he, hreported⟩

theorem Watches.terminate {pid : Nat} {reason : Termination} (h : Watches k x) :
    Watches k (x.terminate pid reason) where
  current := h.current
  active := h.active
  started := by
    show k.pid < (x.processes.modify pid _).length
    rw [List.length_modify]
    exact h.started

/-- A process that is terminated while it runs ends for this reason. -/
theorem Announces.cancel {c t : Bool} (h : Announces k c t x) :
    Announces k true t (x.terminate k.pid .cancel) where
  toWatches := h.toWatches.terminate
  reports hp := (h.reports (prompt_terminate.mp hp).1).terminate
  flags hp := by
    obtain ⟨hprompt, hlive⟩ := prompt_terminate.mp hp
    obtain ⟨code, hcode⟩ := ending_terminate .cancel hlive h.started
    have hflags := h.flags hprompt
    rw [hlive] at hflags
    rw [hcode]
    exact ⟨rfl, hflags.2⟩

theorem Announces.timeout {c t : Bool} (h : Announces k c t x) :
    Announces k c true (x.terminate k.pid .timeout) where
  toWatches := h.toWatches.terminate
  reports hp := (h.reports (prompt_terminate.mp hp).1).terminate
  flags hp := by
    obtain ⟨hprompt, hlive⟩ := prompt_terminate.mp hp
    obtain ⟨code, hcode⟩ := ending_terminate .timeout hlive h.started
    have hflags := h.flags hprompt
    rw [hlive] at hflags
    rw [hcode]
    exact ⟨hflags.1, rfl⟩

theorem ensures_requestCancel (controls : List TaskControl) (hx : Tends state.key x) :
    (requestCancel controls state state.pid).Ensures (Sparing [.system])
      (fun s y => Tends s.key y ∧ s.pid = state.pid) (fun _ => Supervises) x := by
  unfold requestCancel
  split
  · rename_i hcancel
    have hnew : state.cancelRequested = false := by
      simpa using (Bool.and_eq_true_iff.mp hcancel).2
    let state' : CurrentTask := { state with cancelRequested := true }
    have hsave : (setCurrentTask (some state')).Ensures (Sparing [.system])
        (fun _ => Announces state'.key state.cancelRequested state.timedOut)
        (fun _ => Supervises) x :=
      ensures_systemCall (fun y hy => by
        have htends := (steady_announces state.key _ _).moved hy hx
        exact ⟨⟨rfl, htends.active, htends.started⟩, htends.reports, htends.flags⟩)
        system_not_refused
    refine hsave.andThen fun _ y hy => ?_
    have hterminate : (terminateProcessTree state.pid .cancel).Ensures (Sparing [.system])
        (fun _ => Tends state'.key) (fun _ => Supervises) y :=
      ensures_systemCall (fun z hz => ((steady_announces state'.key _ _).moved hz hy).cancel)
        system_not_refused
    exact hterminate.andThen fun _ z hz => Calls.ensures_pure ⟨hz, rfl⟩
  · exact Calls.ensures_pure ⟨hx, rfl⟩

theorem ensures_checkTimeout (hx : Tends state.key x) :
    (checkTimeout state state.pid).Ensures (Sparing [.system])
      (fun s y => Tends s.key y ∧ s.pid = state.pid) (fun _ => Supervises) x := by
  have hpoll : (pollProcess state.pid).Guards (Sparing [.system]) (Tends state.key) Supervises :=
    guards_systemCall (steady_announces _ _ _) (fun _ h => h) system_not_refused
  refine hpoll.andThen hx fun polled y hy => ?_
  cases polled with
  | some code => exact Calls.ensures_pure ⟨hy, rfl⟩
  | none =>
      have hclock : (systemCall fun x => (x.clock, x)).Guards (Sparing [.system]) (Tends state.key)
          Supervises := guards_systemCall (steady_announces _ _ _) (fun _ h => h) system_not_refused
      refine hclock.andThen hy fun now z hz => ?_
      show (if state.overdue now = true then _ else _ : AgentProg CurrentTask).Ensures _ _ _ z
      split
      · let state' : CurrentTask := { state with timedOut := true }
        -- The process was terminated for its timeout, and the record does not say so yet.
        have hterminate : (terminateProcessTree state.pid .timeout).Ensures (Sparing [.system])
            (fun _ => Announces state.key state.cancelRequested true) (fun _ => Supervises) z :=
          ensures_systemCall (fun w hw => ((steady_announces state.key _ _).moved hw hz).timeout)
            system_not_refused
        refine hterminate.andThen fun _ w hw => ?_
        have hsave : (setCurrentTask (some state')).Ensures (Sparing [.system]) (fun _ => Tends state'.key)
            (fun _ => Supervises) w :=
          ensures_systemCall (fun v hv => by
            have h := (steady_announces state.key _ _).moved hv hw
            exact ⟨⟨rfl, h.active, h.started⟩, h.reports, h.flags⟩) system_not_refused
        exact hsave.andThen fun _ v hv => Calls.ensures_pure ⟨hv, rfl⟩
      · exact Calls.ensures_pure ⟨hz, rfl⟩

/-- The flags of a record give its task the status that tells how the process ended. -/
theorem FlagsTell.reported {e : Ending}
    (h : FlagsTell state.cancelRequested state.timedOut (some e)) :
    e.Reported (state.finalStatus e.code) := by
  unfold CurrentTask.finalStatus
  cases e with
  | itself code =>
      obtain ⟨hcancel, htimeout⟩ : state.cancelRequested = false ∧ state.timedOut = false := h
      rw [hcancel, htimeout]
      rfl
  | terminated reason code =>
      cases reason with
      | cancel =>
          obtain ⟨hcancel, -⟩ : state.cancelRequested = true ∧ state.timedOut = false := h
          rw [hcancel]
          rfl
      | timeout =>
          obtain ⟨hcancel, htimeout⟩ : state.cancelRequested = false ∧ state.timedOut = true := h
          rw [hcancel, htimeout]
          rfl

theorem ensures_concludeTask (hx : Tends state.key x) :
    (concludeTask state state.pid).Ensures (Sparing [.system]) (fun _ => Supervises) (fun _ => Supervises)
      x := by
  have hpoll : (pollProcess state.pid).Ensures (Sparing [.system])
      (fun polled y => Tends state.key y ∧ polled = (y.ending state.pid).map Ending.code)
      (fun _ => Supervises) x :=
    ensures_systemCall (fun y hy => ⟨(steady_announces _ _ _).moved hy hx, rfl⟩)
      system_not_refused
  refine hpoll.andThen fun polled y hy => ?_
  obtain ⟨hy, hpolled⟩ := hy
  cases polled with
  | none => exact Calls.ensures_pure hy.supervises
  | some code =>
      obtain ⟨e, he, hcode⟩ := Option.map_eq_some_iff.mp hpolled.symm
      have hended : EndedAs state.key (state.finalStatus code) y := by
        refine ⟨hy, fun hp => ⟨e, he, ?_⟩⟩
        have hflags := hy.flags hp
        have hkey : y.ending state.key.pid = some e := he
        rw [hkey] at hflags
        rw [← hcode]
        exact hflags.reported
      exact (ensures_finalize rfl hended _).andThen fun _ z hz => Calls.ensures_pure hz

/-- `sync_active_task` looks after the task on file. -/
theorem guards_syncActiveTask (controls : List TaskControl) :
    (syncActiveTask controls).Guards (Sparing [.system]) Supervises Supervises := by
  intro x hx
  have hload : loadCurrentTask.Ensures (Sparing [.system]) (fun current y => Supervises y ∧
      ∀ state, current = some state → Tends state.key y) (fun _ => Supervises) x :=
    ensures_systemCall (fun y hy => by
      have h := steady_supervises.moved hy hx
      exact ⟨h, fun state hstate => h.2 state (Option.eq_some_of_filter_eq_some hstate)⟩) system_not_refused
  refine hload.andThen fun current y hy => ?_
  cases current with
  | none => exact Calls.ensures_pure hy.1
  | some state =>
      have htends := hy.2 state rfl
      refine Calls.ensures_bind (Calls.ensures_read ?_)
      have hactive : y.activeProcesses.lookup state.taskId = some state.pid := htends.active
      rw [hactive]
      refine (ensures_requestCancel controls htends).andThen fun s z hz => ?_
      obtain ⟨hz, hpid⟩ := hz
      have hpump := ensures_pumpLogs false (loggable_tends s.key) system_not_refused
        (.inr fun _ h => Tends.supervises h) rfl hz
      refine hpump.andThen fun s' w hw => ?_
      obtain ⟨hkey, hw⟩ := hw
      rw [← hkey] at hw
      have hpid' : s'.pid = state.pid := (congrArg TaskKey.pid hkey).trans hpid
      rw [← hpid']
      refine (ensures_checkTimeout hw).andThen fun s'' v hv => ?_
      obtain ⟨hv, hpid''⟩ := hv
      rw [← hpid'']
      exact ensures_concludeTask hv

end Sync

/-! ## The loop -/

section Loop

variable {py : Python} {host : Host} {settings : AgentSettings} {runDirName : String → String}
  {x : AgentWorld}

/-- While the agent runs no task is orphaned. -/
theorem guards_recoverOrphanedTask :
    recoverOrphanedTask.Guards (Sparing [.system]) Supervises Supervises := by
  intro x hx
  have hload : loadCurrentTask.Ensures (Sparing [.system]) (fun current y => Supervises y ∧
      ∀ state, current = some state → Tends state.key y) (fun _ => Supervises) x :=
    ensures_systemCall (fun y hy => by
      have h := steady_supervises.moved hy hx
      exact ⟨h, fun state hstate => h.2 state (Option.eq_some_of_filter_eq_some hstate)⟩)
      system_not_refused
  refine hload.andThen fun current y hy => ?_
  cases current with
  | none => exact Calls.ensures_pure hy.1
  | some state =>
      have htends := hy.2 state rfl
      refine Calls.ensures_bind (Calls.ensures_read ?_)
      have hactive : y.activeProcesses.lookup state.taskId = some state.pid := htends.active
      rw [hactive]
      exact Calls.ensures_pure hy.1

/-- A process runs that no flag speaks of. -/
structure Launched (pid : Nat) (x : AgentWorld) : Prop where
  started : pid < x.processes.length
  reports : Prompt x → ReportsEndings x
  flags : FlagsTell false false (x.ending pid)

theorem steady_launched (pid : Nat) : Steady (Launched pid) := fun a x h =>
  { started := by
      have hlength : (x.move a).processes.length = x.processes.length := by
        cases a <;> simp [AgentWorld.move]
      show pid < (x.move a).processes.length
      rw [hlength]
      exact h.started
    reports := fun hp => (h.reports ((prompt_move a).mp hp)).move a
    flags := h.flags.move a }

/-- `subprocess.Popen` -/
theorem launched_append (h : Prompt x → ReportsEndings x) (p : Process) (hp : p.ending = none) :
    Launched x.processes.length { x with processes := x.processes ++ [p] } where
  started := by simp
  reports hprompt r hr := by
    obtain ⟨pid, e, hpid, he, hreported⟩ := h hprompt r hr
    refine ⟨pid, e, hpid, ?_, hreported⟩
    show ((x.processes ++ [p])[pid]?).bind _ = _
    unfold AgentWorld.ending at he
    cases hget : x.processes[pid]? with
    | none =>
        rw [hget] at he
        cases he
    | some q =>
        rw [List.getElem?_append_left (List.getElem?_eq_some_iff.mp hget).1]
        rwa [hget] at he ⊢
  flags := by
    show FlagsTell false false (((x.processes ++ [p])[x.processes.length]?).bind _)
    rw [List.getElem?_append_right (Nat.le_refl _), Nat.sub_self]
    show FlagsTell false false p.ending
    rw [hp]
    exact ⟨rfl, rfl⟩

theorem Supervises.congr {y : AgentWorld} (h : Supervises x) (hresults : x.results = y.results)
    (hcurrent : x.currentTask = y.currentTask) (hprocesses : x.processes = y.processes)
    (hactive : x.activeProcesses = y.activeProcesses)
    (hterminations : x.terminations = y.terminations) : Supervises y := by
  have hending : ∀ pid, x.ending pid = y.ending pid := fun pid => by
    rw [AgentWorld.ending, AgentWorld.ending, hprocesses]
  have hprompt : Prompt y → Prompt x := fun hp => by
    rw [Prompt, hterminations]
    exact hp
  have hreports : ReportsEndings x → ReportsEndings y := fun hr r hmem => by
    simpa only [hending] using hr r (hresults ▸ hmem)
  refine ⟨fun hp => hreports (h.1 (hprompt hp)), fun state hstate => ?_⟩
  have htends := h.2 state (hcurrent.trans hstate)
  refine ⟨⟨hcurrent ▸ htends.current, hactive ▸ htends.active, hprocesses ▸ htends.started⟩,
    fun hp => hreports (htends.reports (hprompt hp)), fun hp => ?_⟩
  rw [← hending]
  exact htends.flags (hprompt hp)

theorem preparable_supervises : Preparable Supervises :=
  ⟨steady_supervises, fun _ _ h => h.congr rfl rfl rfl rfl rfl, fun _ _ h => h.congr rfl rfl rfl rfl rfl⟩

/-- `start_background_task` starts to look after its task. -/
theorem supervises_startBackgroundTask (task : AgentTask) :
    (startBackgroundTask py host settings runDirName task).Guards (Sparing [.system]) Supervises
      Supervises := by
  intro y hy
  have hlaunch : (launchTask py host settings runDirName task).Ensures (Sparing [.system]) _ _ y :=
    ensures_launchTask task preparable_supervises
      (not_refusable_sparing (List.mem_singleton.mpr rfl))
      (fun z p hz hp => launched_append hz.1 p hp) steady_launched
      (fun _ _ _ hz => ⟨hz.started, hz.reports, hz.flags⟩) hy
  refine hlaunch.andThen fun state z hz => ?_
  obtain ⟨hlaunched, hlookup, hcancel, htimeout⟩ := hz
  have hsteady : Steady fun x : AgentWorld => Launched state.pid x ∧
      x.activeProcesses.lookup state.taskId = some state.pid := fun a x h =>
    ⟨steady_launched state.pid a x h.1, by cases a <;> exact h.2⟩
  have hsave : (setCurrentTask (some state)).Ensures (Sparing [.system]) (fun _ => Supervises)
      (fun _ => Supervises) z :=
    ensures_systemCall (fun w hw => by
      have h := hsteady.moved hw ⟨hlaunched, hlookup⟩
      have htends : Tends state.key { w with currentTask := some state } := by
        refine ⟨⟨rfl, h.2, h.1.started⟩, h.1.reports, fun _ => ?_⟩
        show FlagsTell state.cancelRequested state.timedOut _
        rw [hcancel, htimeout]
        exact h.1.flags
      exact htends.supervises) system_not_refused
  exact hsave.andThen fun _ w hw => Calls.ensures_pure hw

/-- `start_tasks_background` starts to look after the task it starts. -/
theorem guards_startTasksBackground (tasks : List AgentTask) :
    (startTasksBackground py host settings runDirName tasks).Guards (Sparing [.system]) Supervises
      Supervises := by
  have hactive : hasActiveTask.Guards (Sparing [.system]) Supervises Supervises :=
    guards_systemCall steady_supervises (fun _ h => h) system_not_refused
  refine hactive.bind fun active => ?_
  show (if active = true then _ else _ : AgentProg (List String)).Guards _ _ _
  split
  · exact Calls.guards_pure _
  · cases tasks.head? with
    | none => exact Calls.guards_pure _
    | some task => exact (supervises_startBackgroundTask task).bind fun _ => Calls.guards_pure _

/-- An iteration of the loop looks after the task on file, whatever uploads fail in it. -/
theorem guards_loopIteration (reply : HeartbeatReply) :
    (loopIteration py host settings runDirName reply).Guards (Sparing [.system]) Supervises Supervises := by
  have hactive : hasActiveTask.Guards (Sparing [.system]) Supervises Supervises :=
    guards_systemCall steady_supervises (fun _ h => h) system_not_refused
  refine Calls.Guards.tryCatch ?_ fun _ => Calls.guards_pure ()
  refine (guards_recoverOrphanedTask.tryCatch fun _ => Calls.guards_pure ()).bind fun _ => ?_
  refine (guards_syncActiveTask reply.taskControls).bind fun _ => ?_
  split
  · exact Calls.guards_pure ()
  · refine hactive.bind fun active => ?_
    split
    · exact Calls.guards_pure ()
    · exact (guards_startTasksBackground reply.tasks).bind fun _ => Calls.guards_pure ()

/-- In every run of the agent loop in which no call of the system is refused, whatever order
processes exit, time passes, controls arrive and requests fail in: if the agent begins to terminate
processes only while they run, then every result it has sent tells how the process of its task
ended. -/
theorem agent_reports_endings (py : Python) (host : Host) (settings : AgentSettings)
    (runDirName : String → String) (replies : List HeartbeatReply) (s : AgentScene)
    (hidle : s.state.currentTask = none) (hfresh : s.state.results = [])
    (hspared : s.Under (Sparing [.system]))
    (hprompt : Prompt (agentLoop py host settings runDirName replies s).2.state) :
    ReportsEndings (agentLoop py host settings runDirName replies s).2.state := by
  have hloop : (agentLoop py host settings runDirName replies).Guards (Sparing [.system]) Supervises
      Supervises := Calls.guards_forEach fun reply _ => guards_loopIteration reply
  have hstart : Supervises s.state := by
    refine ⟨fun _ r hr => ?_, fun state hstate => ?_⟩
    · rw [hfresh] at hr
      cases hr
    · rw [hidle] at hstate
      cases hstate
  exact ((hloop s.state hstart).final rfl hspared).2.1 hprompt

end Loop

/-- A task that runs as a command on every node. -/
def healthTask : AgentTask where
  taskId := "t"
  type := .healthCheck

/-- A heartbeat that brings a task, and one that cancels it. -/
def startThenCancel : List HeartbeatReply :=
  [{ tasks := [healthTask] }, { taskControls := [⟨"t", "cancel"⟩] }]

/-- The process exits by itself before this call. -/
def exitsAt (call : Nat) : AgentScene where
  state := {}
  moments n := if n = call then { moves := [.exits 0 0] } else {}

theorem exitsAt_spares (call : Nat) : (exitsAt call).Under (Sparing [.system]) := by
  intro n k _ hmem
  have hempty : ((exitsAt call).moments n).refused = [] := by
    show (if n = call then ({ moves := [.exits 0 0] } : Moment AgentMove AgentCall) else {}).refused =
      []
    split <;> rfl
  rw [hempty] at hmem
  cases hmem

/-- A process that still runs when the cancel control is handled is reported as cancelled. -/
theorem agent_reports_endings_cancelled :
    ReportsEndings (agentLoop plainPython bareHost {} id startThenCancel (exitsAt 99)).2.state :=
  agent_reports_endings plainPython bareHost {} id startThenCancel (exitsAt 99) rfl rfl
    (exitsAt_spares 99) (by decide +kernel)

/-- The process exits with code 0 before the second heartbeat is handled, and the cancel control
that this heartbeat brings has its task reported as cancelled. -/
theorem cancelled_after_exit :
    ¬ ∀ (py : Python) (host : Host) (settings : AgentSettings) (runDirName : String → String)
        (replies : List HeartbeatReply) (s : AgentScene), s.state.currentTask = none →
      s.state.results = [] → s.Under (Sparing [.system]) →
      ReportsEndings (agentLoop py host settings runDirName replies s).2.state := by
  intro h
  have hreports := h plainPython bareHost {} id startThenCancel (exitsAt 18) rfl rfl
    (exitsAt_spares 18)
  have hresults : (agentLoop plainPython bareHost {} id startThenCancel
      (exitsAt 18)).2.state.results.map (fun r => (r.finalStatus, r.pid)) =
        [(.cancelled, some 0)] := by
    decide +kernel
  have hending : (agentLoop plainPython bareHost {} id startThenCancel
      (exitsAt 18)).2.state.ending 0 = some (.itself 0) := by
    decide +kernel
  obtain ⟨r, hr, heq⟩ := List.mem_map.mp (hresults ▸ List.mem_singleton.mpr rfl :
    (FinalStatus.cancelled, some 0) ∈ (agentLoop plainPython bareHost {} id startThenCancel
      (exitsAt 18)).2.state.results.map fun r => (r.finalStatus, r.pid))
  obtain ⟨hstatus, hpid⟩ := Prod.mk.inj heq
  obtain ⟨pid, e, hpid', he, hreported⟩ := hreports r hr
  obtain rfl := Option.some.inj (hpid.symm.trans hpid')
  rw [hending] at he
  obtain rfl := Option.some.inj he
  rw [hstatus] at hreported
  cases hreported

end GpuFleet
