import GpuFleet.Agent.Completion
import GpuFleet.Agent.TwoPaths

/-!
# What an agent starts

An agent is told its tasks by the answers to its heartbeats.  In the loop it starts
the first of them, unless it has a task already (`loopIteration`); a run for a
single heartbeat executes them all (`runOnce`).

In both it says that a task runs before it starts the process of the task.  So
whatever is refused, an answer leads to one announcement at most for each of its
tasks, and no process is started that was not announced (`AgentRun.declares`).
What else the agent does, with a task it has on record or with one that is orphaned,
starts nothing (`OfStarts`).
-/

namespace GpuFleet

open Foundations

section Programs

variable (py : Python) (host : Host) (settings : AgentSettings) (runDirName : String → String)

/-- `execute_tasks` -/
def executeTasks (tasks : List AgentTask) : AgentProg Unit :=
  Calls.forEach tasks fun task => do
    let _ ← executeTask py host settings runDirName task
    pure ()

/-- `run_once`, after its heartbeat. -/
def runOnce (reply : HeartbeatReply) : AgentProg Unit := do
  recoverOrphanedTask.tryCatch fun _ => pure ()
  executeTasks py host settings runDirName reply.tasks

/-- How an agent gets the answer to a heartbeat: in its loop, before which it may have been started
anew, or in a run for this heartbeat. -/
inductive AgentRun where
  | loop (restarted : Bool)
  | once

/-- The world after an agent got the answer to a heartbeat. -/
def AgentRun.after (reply : HeartbeatReply) (moments : Nat → Moment AgentMove AgentCall)
    (x : AgentWorld) : AgentRun → AgentWorld
  | loop restarted => Iteration.run py host settings runDirName ⟨restarted, reply, moments⟩ x
  | once => (runOnce py host settings runDirName reply { state := x.restart, moments }).2.state

end Programs

/-! ## Announcements and processes -/

/-- The task a process was started for, and where it runs. -/
def Process.origin (p : Process) : String × String := (p.taskId, p.workdir)

/-- The task that is announced, and where it will run. -/
def TaskEvent.origin (e : TaskEvent) : String × String := (e.taskId, e.workdir)

/-- What depends only on the announcements and on the origins of the processes. -/
def OfStarts (I : AgentWorld → Prop) : Prop :=
  ∀ x y : AgentWorld, y.events = x.events →
    y.processes.map Process.origin = x.processes.map Process.origin → I x → I y

/-- Some of these tasks were announced after these announcements, in this order, and every process
was announced. -/
structure Declared (told : List TaskEvent) (ids : List String) (x : AgentWorld) : Prop where
  events : ∃ new, x.events = told ++ new ∧ (new.map TaskEvent.taskId).Sublist ids
  processes : (x.processes.map Process.origin).Sublist (x.events.map TaskEvent.origin)

/-- One more process is announced than was started. -/
structure OneAhead (told : List TaskEvent) (ids : List String) (origin : String × String)
    (x : AgentWorld) : Prop where
  events : ∃ new, x.events = told ++ new ∧ (new.map TaskEvent.taskId).Sublist ids
  processes : (x.processes.map Process.origin ++ [origin]).Sublist (x.events.map TaskEvent.origin)

section Declared

variable {I : AgentWorld → Prop} {told : List TaskEvent} {ids : List String}
  {origin : String × String} {x : AgentWorld}

theorem map_origin_modify {l : List Process} {pid : Nat} {f : Process → Process}
    (hf : ∀ p, (f p).origin = p.origin) :
    (l.modify pid f).map Process.origin = l.map Process.origin := by
  refine List.ext_getElem? fun i => ?_
  rw [List.getElem?_map, List.getElem?_map, List.getElem?_modify]
  cases l[i]? with
  | none => rfl
  | some p => by_cases h : pid = i <;> simp [h, hf]

theorem ofStarts_declared (told : List TaskEvent) (ids : List String) :
    OfStarts (Declared told ids) := by
  rintro x y hevents hprocesses ⟨hnew, hsub⟩
  rw [← hevents] at hnew
  rw [← hprocesses, ← hevents] at hsub
  exact ⟨hnew, hsub⟩

theorem ofStarts_oneAhead (told : List TaskEvent) (ids : List String) (origin : String × String) :
    OfStarts (OneAhead told ids origin) := by
  rintro x y hevents hprocesses ⟨hnew, hsub⟩
  rw [← hevents] at hnew
  rw [← hprocesses, ← hevents] at hsub
  exact ⟨hnew, hsub⟩

theorem Declared.weaken (h : Declared told ids x) (more : List String) :
    Declared told (ids ++ more) x := by
  obtain ⟨new, hnew, hids⟩ := h.events
  exact ⟨⟨new, hnew, hids.trans (List.sublist_append_left ids more)⟩, h.processes⟩

theorem OneAhead.declared (h : OneAhead told ids origin x) : Declared told ids x :=
  ⟨h.events, (List.sublist_append_left _ _).trans h.processes⟩

/-- A task is announced. -/
theorem Declared.send (h : Declared told ids x) {e : TaskEvent} {taskId : String}
    (hid : e.taskId = taskId) :
    OneAhead told (ids ++ [taskId]) e.origin { x with events := x.events ++ [e] } := by
  obtain ⟨new, hnew, hids⟩ := h.events
  refine ⟨⟨new ++ [e], ?_, ?_⟩, ?_⟩
  · rw [← List.append_assoc]
    exact congrArg (· ++ [e]) hnew
  · rw [List.map_append, List.map_singleton, hid]
    exact hids.append_right [taskId]
  · rw [List.map_append, List.map_singleton]
    exact h.processes.append_right [e.origin]

/-- The process that was announced is started. -/
theorem OneAhead.popen (h : OneAhead told ids origin x) {p : Process} (hp : p.origin = origin) :
    Declared told ids { x with processes := x.processes ++ [p] } := by
  refine ⟨h.events, ?_⟩
  have hsub := h.processes
  rwa [← hp, ← List.map_singleton, ← List.map_append] at hsub

theorem OfStarts.steady (hI : OfStarts I) : Steady I := by
  intro a x hx
  cases a with
  | exits pid code => exact hI x _ rfl (map_origin_modify fun _ => rfl) hx
  | tick now => exact hI x _ rfl rfl hx
  | prints path text => exact hI x _ rfl rfl hx
  | prepares pid code => exact hI x _ rfl (map_origin_modify fun _ => rfl) hx

theorem OfStarts.loggable (hI : OfStarts I) (k : TaskKey) : Loggable k I where
  steady := hI.steady
  ack x _ _ _ hx := hI x _ rfl rfl hx
  send x _ hx := hI x _ rfl rfl hx
  save x _ _ hx := hI x _ rfl rfl hx

theorem OfStarts.terminate (hI : OfStarts I) {pid : Nat} {reason : Termination} (hx : I x) :
    I (x.terminate pid reason) := hI x _ rfl (map_origin_modify fun _ => rfl) hx

end Declared

/-! ## What starts nothing -/

section Frames

variable {E : Moment AgentMove AgentCall → Prop} {I J : AgentWorld → Prop}

/-- A call that leaves the announcements and the processes. -/
theorem OfStarts.systemCall {α : Type} (hI : OfStarts I) {f : AgentWorld → α × AgentWorld}
    (hevents : ∀ x, (f x).2.events = x.events)
    (hprocesses : ∀ x, (f x).2.processes.map Process.origin = x.processes.map Process.origin)
    (hJ : ∀ x, I x → J x) : (GpuFleet.systemCall f).Guards E I J :=
  guards_systemCall hI.steady (fun x hx => hI x _ (hevents x) (hprocesses x) hx) (.inr hJ)

theorem OfStarts.setCurrentTask (hI : OfStarts I) (state : Option CurrentTask)
    (hJ : ∀ x, I x → J x) : (GpuFleet.setCurrentTask state).Guards E I J :=
  hI.systemCall (fun _ => rfl) (fun _ => rfl) hJ

theorem OfStarts.request (hI : OfStarts I) {k : AgentCall} {f : AgentWorld → AgentWorld}
    (hevents : ∀ x, (f x).events = x.events) (hprocesses : ∀ x, (f x).processes = x.processes)
    (hJ : ∀ x, I x → J x) : (GpuFleet.request k f).Guards E I J :=
  guards_request hI.steady (fun x hx => hI x _ (hevents x)
    (congrArg (List.map Process.origin) (hprocesses x)) hx) (.inr hJ)

theorem OfStarts.terminateProcessTree (hI : OfStarts I) (pid : Nat) (reason : Termination) :
    (GpuFleet.terminateProcessTree pid reason).Guards E I I :=
  guards_systemCall hI.steady (fun _ hx => hI.terminate hx) (.inr fun _ h => h)

theorem OfStarts.pollProcess (hI : OfStarts I) (pid : Nat) :
    (GpuFleet.pollProcess pid).Guards E I I :=
  hI.systemCall (fun _ => rfl) (fun _ => rfl) fun _ h => h

theorem OfStarts.pumpLogs (hI : OfStarts I) (state : CurrentTask) (final : Bool) :
    (GpuFleet.pumpLogs state final).Guards E I I := fun _ hx =>
  Calls.ensures_mono (ensures_pumpLogs final (hI.loggable state.key) (.inr fun _ h => h)
    (.inr fun _ h => h) rfl hx) (fun _ _ h => h.2) fun _ _ h => h

theorem OfStarts.finalizeBackgroundTask (hI : OfStarts I) (state : CurrentTask)
    (finalStatus : FinalStatus) (exitCode : Option Int) :
    (GpuFleet.finalizeBackgroundTask state finalStatus exitCode).Guards E I I := by
  have hresult : ∀ r, (sendTaskResult r).Guards E I I := fun r =>
    hI.request (fun _ => rfl) (fun _ => rfl) fun _ h => h
  have hsummary : sendSummary.Guards E I I := hI.request (fun _ => rfl) (fun _ => rfl) fun _ h => h
  have hpop : ∀ taskId, (popProcess taskId).Guards E I I := fun taskId =>
    Calls.guards_update fun x hx => hI x _ rfl rfl hx
  refine (Calls.guards_read _).bind fun finishedAt => (hI.pumpLogs state true).bind fun state => ?_
  refine (guards_systemCalls 2 hI.steady (.inr fun _ h => h)).bind fun _ => ?_
  refine (hresult _).bind fun _ => hsummary.bind fun _ => ?_
  refine (hpop _).bind fun _ => ?_
  refine (guards_clearLogOffsets (hI.loggable state.key) (.inr fun _ h => h)).bind fun _ => ?_
  exact (hI.setCurrentTask none fun _ h => h).bind fun _ => Calls.guards_pure _

theorem OfStarts.requestCancel (hI : OfStarts I) (controls : List TaskControl) (state : CurrentTask)
    (pid : Nat) : (GpuFleet.requestCancel controls state pid).Guards E I I := by
  unfold GpuFleet.requestCancel
  split
  · refine (hI.setCurrentTask _ fun _ h => h).bind fun _ => ?_
    exact (hI.terminateProcessTree pid .cancel).bind fun _ => Calls.guards_pure _
  · exact Calls.guards_pure _

theorem OfStarts.checkTimeout (hI : OfStarts I) (state : CurrentTask) (pid : Nat) :
    (GpuFleet.checkTimeout state pid).Guards E I I := by
  refine (hI.pollProcess pid).bind fun polled => ?_
  cases polled with
  | some code => exact Calls.guards_pure _
  | none =>
      refine (hI.systemCall (fun _ => rfl) (fun _ => rfl) fun _ h => h).bind fun now => ?_
      show (if state.overdue now = true then _ else _ : AgentProg CurrentTask).Guards E I I
      split
      · refine (hI.terminateProcessTree pid .timeout).bind fun _ => ?_
        exact (hI.setCurrentTask _ fun _ h => h).bind fun _ => Calls.guards_pure _
      · exact Calls.guards_pure _

theorem OfStarts.concludeTask (hI : OfStarts I) (state : CurrentTask) (pid : Nat) :
    (GpuFleet.concludeTask state pid).Guards E I I := by
  refine (hI.pollProcess pid).bind fun polled => ?_
  cases polled with
  | none => exact Calls.guards_pure _
  | some code => exact (hI.finalizeBackgroundTask state _ _).bind fun _ => Calls.guards_pure _

theorem OfStarts.loadCurrentTask (hI : OfStarts I) : GpuFleet.loadCurrentTask.Guards E I I :=
  hI.systemCall (fun _ => rfl) (fun _ => rfl) fun _ h => h

/-- `sync_active_task` starts nothing. -/
theorem OfStarts.syncActiveTask (hI : OfStarts I) (controls : List TaskControl) :
    (GpuFleet.syncActiveTask controls).Guards E I I := by
  refine hI.loadCurrentTask.bind fun current => ?_
  cases current with
  | none => exact Calls.guards_pure _
  | some state =>
      refine (Calls.guards_read _).bind fun active => ?_
      cases active with
      | none => exact Calls.guards_pure _
      | some pid =>
          refine (hI.requestCancel controls state pid).bind fun state => ?_
          refine (hI.pumpLogs state false).bind fun state => ?_
          exact (hI.checkTimeout state pid).bind fun state => hI.concludeTask state pid

/-- `recover_orphaned_task` starts nothing. -/
theorem OfStarts.recoverOrphanedTask (hI : OfStarts I) :
    (GpuFleet.recoverOrphanedTask.tryCatch fun _ => pure () : AgentProg Unit).Guards E I I := by
  refine Calls.Guards.tryCatch ?_ fun _ => Calls.guards_pure ()
  refine hI.loadCurrentTask.bind fun current => ?_
  cases current with
  | none => exact Calls.guards_pure _
  | some state =>
      refine (Calls.guards_read _).bind fun active => ?_
      cases active with
      | some pid => exact Calls.guards_pure _
      | none =>
          refine (hI.systemCall (fun _ => rfl) (fun _ => rfl) fun _ h => h).bind fun alive => ?_
          refine (hI.pumpLogs state true).bind fun state => ?_
          refine (hI.setCurrentTask _ fun _ h => h).bind fun _ => ?_
          exact (hI.finalizeBackgroundTask state _ _).bind fun _ => Calls.guards_pure _

end Frames

/-! ## What starts a process -/

section Start

variable {E : Moment AgentMove AgentCall → Prop} {told : List TaskEvent} {ids : List String}
  {taskId workdir : String} {x : AgentWorld}

theorem Declared.sendTaskEvent (hx : Declared told ids x) {e : TaskEvent} (hid : e.taskId = taskId) :
    (GpuFleet.sendTaskEvent e).Ensures E (fun _ => OneAhead told (ids ++ [taskId]) e.origin)
      (fun _ => Declared told (ids ++ [taskId])) x := by
  have hmoved : ∀ y, Moved x y → Declared told ids y := fun y hy =>
    (ofStarts_declared told ids).steady.moved hy hx
  exact ensures_request (fun y hy => (hmoved y hy).send hid)
    (.inr fun y hy => (hmoved y hy).weaken [taskId])

theorem OneAhead.ensures_popen (hx : OneAhead told ids (taskId, workdir) x)
    (command : List String) :
    (GpuFleet.popen taskId command workdir).Ensures E (fun _ => Declared told ids)
      (fun _ => Declared told ids) x := by
  have hmoved : ∀ y, Moved x y → OneAhead told ids (taskId, workdir) y := fun y hy =>
    (ofStarts_oneAhead told ids _).steady.moved hy hx
  exact ensures_systemCall (fun y hy => (hmoved y hy).popen rfl)
    (.inr fun y hy => (hmoved y hy).declared)

variable {py : Python} {host : Host} {settings : AgentSettings} {runDirName : String → String}

/-- The start of a task in the background announces it before it starts its process. -/
theorem Declared.launchTask (hx : Declared told ids x) (task : AgentTask) :
    (GpuFleet.launchTask py host settings runDirName task).Ensures E
      (fun _ => Declared told (ids ++ [task.taskId]))
      (fun _ => Declared told (ids ++ [task.taskId])) x := by
  have hI := ofStarts_declared told ids
  have hweaken : ∀ y, Declared told ids y → Declared told (ids ++ [task.taskId]) y :=
    fun y hy => hy.weaken [task.taskId]
  have hlog : ∀ path, (truncateLog path).Guards E (Declared told ids)
      (Declared told (ids ++ [task.taskId])) := fun path =>
    hI.systemCall (fun _ => rfl) (fun _ => rfl) hweaken
  refine (guards_getBootId hI.steady (.inr hweaken)).andThen hx fun bootId y₁ h₁ => ?_
  refine Calls.ensures_bind (Calls.ensures_read ?_)
  refine (guards_systemCalls 1 hI.steady (.inr hweaken)).andThen h₁ fun _ y₂ h₂ => ?_
  refine (guards_prepareCommand hI.steady (.inr hweaken) (.inr hweaken)).andThen h₂
    fun ready y₃ h₃ => ?_
  refine (hlog _).andThen h₃ fun _ y₄ h₄ => (hlog _).andThen h₄ fun _ y₅ h₅ => ?_
  refine (guards_systemCalls 1 hI.steady (.inr hweaken)).andThen h₅ fun _ y₆ h₆ => ?_
  -- From here on the task is announced.
  refine (h₆.sendTaskEvent rfl).andThen fun _ y₇ h₇ => ?_
  have hP := ofStarts_oneAhead told (ids ++ [task.taskId]) (task.taskId, ready.workdir)
  have hlog' : ∀ path, (truncateLog path).Guards E
      (OneAhead told (ids ++ [task.taskId]) (task.taskId, ready.workdir))
      (Declared told (ids ++ [task.taskId])) := fun path =>
    hP.systemCall (fun _ => rfl) (fun _ => rfl) fun _ h => h.declared
  refine (hlog' _).andThen h₇ fun _ y₈ h₈ => (hlog' _).andThen h₈ fun _ y₉ h₉ => ?_
  refine (h₉.ensures_popen _).andThen fun pid z hz => ?_
  have hJ := ofStarts_declared told (ids ++ [task.taskId])
  refine Calls.ensures_bind (Calls.ensures_update ?_)
  exact (guards_systemCalls 2 hJ.steady (.inr fun _ h => h)).andThen (hJ z _ rfl rfl hz)
    fun _ w hw => Calls.ensures_pure hw

theorem Declared.startTasksBackground (hx : Declared told ids x) (tasks : List AgentTask) :
    (GpuFleet.startTasksBackground py host settings runDirName tasks).Ensures E
      (fun _ => Declared told (ids ++ tasks.map fun task => task.taskId))
      (fun _ => Declared told (ids ++ tasks.map fun task => task.taskId)) x := by
  have hactive : hasActiveTask.Guards E (Declared told ids)
      (Declared told (ids ++ tasks.map fun task => task.taskId)) :=
    (ofStarts_declared told ids).systemCall (fun _ => rfl) (fun _ => rfl) fun _ h => h.weaken _
  refine hactive.andThen hx fun active y hy => ?_
  show (if active = true then _ else _ : AgentProg (List String)).Ensures E _ _ y
  split
  · exact Calls.ensures_pure (hy.weaken _)
  · cases tasks with
    | nil => exact Calls.ensures_pure (hy.weaken _)
    | cons task tasks =>
        have hrest : ∀ z, Declared told (ids ++ [task.taskId]) z →
            Declared told (ids ++ (task :: tasks).map fun task => task.taskId) z := by
          intro z hz
          have hmore := hz.weaken (tasks.map fun task => task.taskId)
          rwa [List.append_assoc] at hmore
        have hsave : ∀ state, (setCurrentTask (some state)).Guards E
            (Declared told (ids ++ [task.taskId])) (Declared told (ids ++ [task.taskId])) :=
          fun state => (ofStarts_declared _ _).setCurrentTask _ fun _ h => h
        have hstart : (startBackgroundTask py host settings runDirName task).Ensures E
            (fun _ => Declared told (ids ++ [task.taskId]))
            (fun _ => Declared told (ids ++ [task.taskId])) y :=
          (hy.launchTask task).andThen fun state z hz => (hsave state).andThen hz fun _ w hw =>
            Calls.ensures_pure hw
        refine Calls.Ensures.andThen (Calls.ensures_mono hstart (fun _ z hz => hz)
          fun _ z hz => hrest z hz) fun state z hz => ?_
        exact Calls.ensures_pure (hrest z hz)

/-- The `try` block of `execute_task` announces the task before it starts its process. -/
theorem Declared.attemptTask (hx : Declared told ids x) (task : AgentTask) (bootId : String)
    (startedAt : Nat) :
    (GpuFleet.attemptTask py host settings task bootId startedAt
      (runDirOf host settings runDirName task.taskId)).Ensures E
        (fun _ => Declared told (ids ++ [task.taskId]))
        (fun _ => Declared told (ids ++ [task.taskId])) x := by
  have hI := ofStarts_declared told ids
  have hJ := ofStarts_declared told (ids ++ [task.taskId])
  have hweaken : ∀ y, Declared told ids y → Declared told (ids ++ [task.taskId]) y :=
    fun y hy => hy.weaken [task.taskId]
  have hnative : (nativeTask py host settings task.toNativeTask).Guards E (Declared told ids)
      (Declared told ids) := Calls.guards_step fun y hy => hI y _ rfl rfl hy
  refine Calls.Ensures.andThen (Calls.ensures_mono (hnative x hx) (fun _ _ h => h)
    fun _ y hy => hweaken y hy) fun report y hy => ?_
  cases report with
  | some report =>
      have hresult : ∀ r, (sendTaskResult r).Guards E (Declared told ids)
          (Declared told (ids ++ [task.taskId])) := fun r =>
        hI.request (fun _ => rfl) (fun _ => rfl) hweaken
      have hsummary : sendSummary.Guards E (Declared told ids)
          (Declared told (ids ++ [task.taskId])) :=
        hI.request (fun _ => rfl) (fun _ => rfl) hweaken
      refine Calls.ensures_bind (Calls.ensures_read ?_)
      exact (hresult _).andThen hy fun _ z hz => hsummary.andThen hz fun _ w hw =>
        Calls.ensures_pure (hweaken w hw)
  | none =>
      refine (guards_prepareCommand hI.steady (.inr hweaken) (.inr hweaken)).andThen hy
        fun ready z hz => ?_
      refine (guards_systemCalls 1 hI.steady (.inr hweaken)).andThen hz fun _ w hw => ?_
      refine (hw.sendTaskEvent rfl).andThen fun _ v hv => ?_
      refine (hv.ensures_popen _).andThen fun pid u hu => Calls.ensures_tryCatch ?_
      have hrecord : (systemCalls 1).Guards E (Declared told (ids ++ [task.taskId]))
          (Declared told (ids ++ [task.taskId])) :=
        guards_systemCalls 1 hJ.steady (.inr fun _ h => h)
      have hcommunicate : (communicate pid).Guards E (Declared told (ids ++ [task.taskId]))
          (Declared told (ids ++ [task.taskId])) := by
        intro t ht
        have hsame : ∀ y, Moved t y → Declared told (ids ++ [task.taskId]) y := fun y hy =>
          hJ.steady.moved hy ht
        refine Calls.ensures_call (fun y hy code q hq => ?_) (fun y hy e q hq => ?_) (.inr hsame)
        · cases he : y.ending pid with
          | none => rw [he] at hq; cases hq
          | some e => rw [he] at hq; cases hq; exact hsame y hy
        · cases he : y.ending pid with
          | none => rw [he] at hq; cases hq; exact hsame y hy
          | some e => rw [he] at hq; cases hq
      have hwait : (systemCalls 1 >>= fun _ => communicate pid >>= fun code =>
          (pure (Attempt.exited pid code) : AgentProg Attempt)).Guards E
            (Declared told (ids ++ [task.taskId])) (Declared told (ids ++ [task.taskId])) :=
        hrecord.bind fun _ => hcommunicate.bind fun _ => Calls.guards_pure _
      refine Calls.ensures_mono (hwait u hu) (fun _ _ h => h) fun e t ht => ?_
      cases e with
      | timeoutExpired => exact Calls.ensures_pure ht
      | refused call => exact Calls.ensures_pure ht
      | raised e => exact Calls.ensures_pure ht

theorem OfStarts.cleanUp {I : AgentWorld → Prop} (hI : OfStarts I) (taskId : String)
    (runDir : AbsPath) : (GpuFleet.cleanUp taskId runDir).Guards E I I := by
  have hupload : ∀ stream text, (uploadLogText taskId stream text).Guards E I I := fun stream text =>
    guards_uploadLogText (hI.loggable ⟨taskId, 0, false, false⟩) (.inr fun _ h => h) fun _ h => h
  refine (guards_systemCalls 2 hI.steady (.inr fun _ h => h)).bind fun _ => ?_
  refine (Calls.guards_read _).bind fun stdoutText => (hupload .stdout stdoutText).bind fun _ => ?_
  refine (Calls.guards_read _).bind fun stderrText => (hupload .stderr stderrText).bind fun _ => ?_
  exact hI.setCurrentTask none fun _ h => h

theorem OfStarts.afterTimeout {I : AgentWorld → Prop} (hI : OfStarts I) (attempt : Attempt) :
    (GpuFleet.afterTimeout attempt).Guards E I I := by
  cases attempt with
  | timedOut pid =>
      exact (hI.terminateProcessTree pid .timeout).bind fun _ =>
        guards_systemCalls 1 hI.steady (.inr fun _ h => h)
  | native | exited | failed => exact Calls.guards_pure ()

/-- `execute_task` announces its task once at most. -/
theorem Declared.executeTask (hx : Declared told ids x) (task : AgentTask) :
    (GpuFleet.executeTask py host settings runDirName task).Ensures E
      (fun _ => Declared told (ids ++ [task.taskId]))
      (fun _ => Declared told (ids ++ [task.taskId])) x := by
  have hI := ofStarts_declared told ids
  have hJ := ofStarts_declared told (ids ++ [task.taskId])
  have hweaken : ∀ y, Declared told ids y → Declared told (ids ++ [task.taskId]) y :=
    fun y hy => hy.weaken [task.taskId]
  refine (guards_getBootId hI.steady (.inr hweaken)).andThen hx fun bootId y hy => ?_
  refine Calls.ensures_bind (Calls.ensures_read ?_)
  refine (guards_systemCalls 1 hI.steady (.inr hweaken)).andThen hy fun _ z hz => ?_
  have hattempt : ∀ startedAt, ((GpuFleet.attemptTask py host settings task bootId startedAt
      (runDirOf host settings runDirName task.taskId)).tryCatch fun _ =>
        pure (.failed none) : AgentProg Attempt).Ensures E
        (fun _ => Declared told (ids ++ [task.taskId]))
        (fun _ => Declared told (ids ++ [task.taskId])) z := fun startedAt =>
    Calls.ensures_tryCatch (Calls.ensures_mono (hz.attemptTask task bootId startedAt)
      (fun _ _ h => h) fun _ _ h => Calls.ensures_pure h)
  refine (hattempt _).andThen fun attempt w hw => ?_
  have htimeout : ((GpuFleet.afterTimeout attempt).tryCatch fun e => do
      GpuFleet.cleanUp task.taskId (runDirOf host settings runDirName task.taskId)
      Calls.raise e : AgentProg Unit).Guards E (Declared told (ids ++ [task.taskId]))
        (Declared told (ids ++ [task.taskId])) :=
    (hJ.afterTimeout attempt).tryCatch fun e =>
      (hJ.cleanUp _ _).bind fun _ => Calls.guards_raise fun _ h => h
  refine htimeout.andThen hw fun _ v hv => ?_
  refine Calls.ensures_bind (Calls.ensures_read ?_)
  refine (hJ.cleanUp _ _).andThen hv fun _ u hu => ?_
  have hresult : ∀ r, (sendTaskResult r).Guards E (Declared told (ids ++ [task.taskId]))
      (Declared told (ids ++ [task.taskId])) := fun r =>
    hJ.request (fun _ => rfl) (fun _ => rfl) fun _ h => h
  have hsummary : sendSummary.Guards E (Declared told (ids ++ [task.taskId]))
      (Declared told (ids ++ [task.taskId])) :=
    hJ.request (fun _ => rfl) (fun _ => rfl) fun _ h => h
  cases attempt with
  | native => exact Calls.ensures_pure hu
  | exited | timedOut | failed =>
      exact (hresult _).andThen hu fun _ t ht => hsummary.andThen ht fun _ r hr =>
        Calls.ensures_pure hr

theorem Declared.executeTasks (hx : Declared told ids x) (tasks : List AgentTask) :
    (GpuFleet.executeTasks py host settings runDirName tasks).Ensures E
      (fun _ => Declared told (ids ++ tasks.map fun task => task.taskId))
      (fun _ => Declared told (ids ++ tasks.map fun task => task.taskId)) x := by
  induction tasks generalizing ids x with
  | nil => exact Calls.ensures_pure (hx.weaken _)
  | cons task tasks ih =>
      have hids : ids ++ (task :: tasks).map (fun task => task.taskId) =
          (ids ++ [task.taskId]) ++ tasks.map fun task => task.taskId :=
        List.append_cons ids task.taskId _
      rw [hids]
      have hone : (GpuFleet.executeTask py host settings runDirName task >>= fun _ =>
          pure () : AgentProg Unit).Ensures E (fun _ => Declared told (ids ++ [task.taskId]))
            (fun _ => Declared told (ids ++ [task.taskId])) x :=
        (hx.executeTask task).andThen fun _ y hy => Calls.ensures_pure hy
      refine Calls.ensures_bind (Calls.ensures_mono hone (fun _ y hy => ?_)
        fun _ y hy => hy.weaken _)
      exact ih hy

theorem Declared.loopIteration (hx : Declared told ids x) (reply : HeartbeatReply) :
    (GpuFleet.loopIteration py host settings runDirName reply).Ensures E
      (fun _ => Declared told (ids ++ reply.tasks.map fun task => task.taskId))
      (fun _ => Declared told (ids ++ reply.tasks.map fun task => task.taskId)) x := by
  have hI := ofStarts_declared told ids
  have hend : ∀ y, Declared told ids y →
      Declared told (ids ++ reply.tasks.map fun task => task.taskId) y := fun y hy => hy.weaken _
  have hnew : ∀ y, Declared told ids y → (startNew py host settings runDirName reply.tasks).Ensures E
      (fun _ => Declared told (ids ++ reply.tasks.map fun task => task.taskId))
      (fun _ => Declared told (ids ++ reply.tasks.map fun task => task.taskId)) y := by
    intro y hy
    unfold startNew
    split
    · exact Calls.ensures_pure (hend y hy)
    · have hactive : hasActiveTask.Guards E (Declared told ids)
          (Declared told (ids ++ reply.tasks.map fun task => task.taskId)) :=
        hI.systemCall (fun _ => rfl) (fun _ => rfl) hend
      refine hactive.andThen hy fun active z hz => ?_
      split
      · exact Calls.ensures_pure (hend z hz)
      · exact (hz.startTasksBackground reply.tasks).andThen fun _ w hw => Calls.ensures_pure hw
  refine Calls.ensures_tryCatch ?_
  suffices h : (do
      GpuFleet.recoverOrphanedTask.tryCatch fun _ => pure ()
      let _ ← GpuFleet.syncActiveTask reply.taskControls
      startNew py host settings runDirName reply.tasks : AgentProg Unit).Ensures E
        (fun _ => Declared told (ids ++ reply.tasks.map fun task => task.taskId))
        (fun _ => Declared told (ids ++ reply.tasks.map fun task => task.taskId)) x from
    Calls.ensures_mono h (fun _ _ h => h) fun _ _ h => Calls.ensures_pure h
  refine Calls.Ensures.andThen (Calls.ensures_mono (hI.recoverOrphanedTask x hx) (fun _ _ h => h)
    fun _ y hy => hend y hy) fun _ y hy => ?_
  exact Calls.Ensures.andThen (Calls.ensures_mono (hI.syncActiveTask reply.taskControls y hy)
    (fun _ _ h => h) fun _ z hz => hend z hz) fun _ z hz => hnew z hz

/-- Whatever is refused, an answer to a heartbeat leads to one announcement at most for each of its
tasks, and to no process that was not announced. -/
theorem AgentRun.declares (run : AgentRun) (reply : HeartbeatReply)
    (moments : Nat → Moment AgentMove AgentCall) (hx : Declared told ids x) :
    Declared told (ids ++ reply.tasks.map fun task => task.taskId)
      (run.after py host settings runDirName reply moments x) := by
  have hI := ofStarts_declared told ids
  have hrestart : Declared told ids x.restart := hI x _ rfl rfl hx
  have hsparing : ∀ n, Sparing [] (moments n) := fun n k hk => absurd hk List.not_mem_nil
  cases run with
  | loop restarted =>
      refine Iteration.run_of_ensures (E := Sparing []) hsparing ?_
      refine Declared.loopIteration ?_ reply
      unfold Iteration.start
      split
      · exact hrestart
      · exact hx
  | once =>
      have hall : (runOnce py host settings runDirName reply).Ensures (Sparing [])
          (fun _ => Declared told (ids ++ reply.tasks.map fun task => task.taskId))
          (fun _ => Declared told (ids ++ reply.tasks.map fun task => task.taskId)) x.restart :=
        Calls.Ensures.andThen (Calls.ensures_mono (hI.recoverOrphanedTask x.restart hrestart)
          (fun _ _ h => h) fun _ y hy => hy.weaken _) fun _ y hy => hy.executeTasks reply.tasks
      exact (hall.final (s := { state := x.restart, moments }) rfl hsparing).2

end Start

end GpuFleet
