import GpuFleet.Agent.Executor

/-!
# The dispatcher

The agent loop starts the first task of a heartbeat in the background, if none is
active, and looks after it in every later iteration.  What it needs to know about
the task is in `current_task.json`.

`startBackgroundTask` saves this record last.  Everything it does before may
raise: the payload and the node may not allow a command, and every call may be
refused.  Then nobody hears of the task again, since the start sends no result
(`startBackgroundTask_wp`).  So a task is accounted for exactly if its command
can be built and none of the calls of its start is refused
(`startTasksBackground_accounts_iff`), or if its result had been sent before.
`execute_task` catches such an exception and reports the task as failed.
-/

namespace GpuFleet

open Foundations

/-! ## Starting a task -/

/-- Make the file of a log empty. -/
def AgentWorld.truncate (x : AgentWorld) (path : AbsPath) : AgentWorld :=
  { x with logs := fun p => if p = path then [] else x.logs p }

/-- Make the file of a log empty. -/
def truncateLog (path : AbsPath) : AgentProg Unit := systemCall fun x => ((), x.truncate path)

/-- `ACTIVE_PROCESSES[task_id] = process` -/
def AgentWorld.register (x : AgentWorld) (taskId : String) (pid : Nat) : AgentWorld :=
  { x with activeProcesses := (taskId, pid) :: x.activeProcesses.filter fun p => p.1 ≠ taskId }

/-- `ACTIVE_PROCESSES[task_id] = process` -/
def registerProcess (taskId : String) (pid : Nat) : AgentProg Unit :=
  Calls.update fun x => x.register taskId pid

/-- The record names a task. -/
def AgentWorld.isActive (x : AgentWorld) : Bool :=
  x.currentTask.any fun state => decide (state.taskId ≠ "")

/-- `has_active_task` -/
def hasActiveTask : AgentProg Bool := systemCall fun x => (x.isActive, x)

section Start

variable (py : Python) (host : Host) (settings : AgentSettings) (runDirName : String → String)

/-- `start_background_task` before it saves its record. -/
def launchTask (task : AgentTask) : AgentProg CurrentTask := do
  let bootId ← getBootId
  let startedAt ← nowIso
  let runDir := runDirOf host settings runDirName task.taskId
  prepareRunDir
  let ready ← prepareCommand py host settings task.toNativeTask runDir
  let stdoutPath := runDir ++ ["stdout.log".toList]
  let stderrPath := runDir ++ ["stderr.log".toList]
  truncateLog stdoutPath
  truncateLog stderrPath
  -- The metadata of the task.
  systemCalls 1
  sendTaskEvent
    { taskId := task.taskId, event := "running", bootId, runDir, workdir := ready.workdir }
  truncateLog stdoutPath
  truncateLog stderrPath
  let pid ← popen task.taskId ready.built.command ready.workdir
  registerProcess task.taskId pid
  initLogOffsets
  pure
    { taskId := task.taskId, type := task.type, pid, startedAt, bootId, runDir
      workdir := ready.workdir, command := ready.built.command, timeoutSec := task.timeoutSec
      killGraceSec := task.killGraceSec, execution := ready.built.summary
      modalContext := ready.modalContext, stdoutPath, stderrPath }

/-- `start_background_task` -/
def startBackgroundTask (task : AgentTask) : AgentProg CurrentTask := do
  let state ← launchTask py host settings runDirName task
  setCurrentTask (some state)
  pure state

/-- `start_tasks_background`, with the tasks that now run. -/
def startTasksBackground (tasks : List AgentTask) : AgentProg (List String) := do
  if ← hasActiveTask then pure []
  else
    match tasks.head? with
    | none => pure []
    | some task =>
        let state ← startBackgroundTask py host settings runDirName task
        pure [state.taskId]

end Start

/-! ## What a start keeps -/

section Frames

variable {E : Moment AgentMove AgentCall → Prop} {I J : AgentWorld → Prop}

theorem ensures_systemCall {α : Type} {f : AgentWorld → α × AgentWorld}
    {post : α → AgentWorld → Prop} {fail : AgentError → AgentWorld → Prop} {x : AgentWorld}
    (h : ∀ y, Moved x y → post (f y).1 (f y).2)
    (hrefused : ¬ Refusable E .system ∨ ∀ y, Moved x y → fail (.refused .system) y) :
    (systemCall f).Ensures E post fail x := Calls.ensures_act h hrefused

theorem ensures_request {k : AgentCall} {f : AgentWorld → AgentWorld}
    {post : Unit → AgentWorld → Prop} {fail : AgentError → AgentWorld → Prop} {x : AgentWorld}
    (h : ∀ y, Moved x y → post () (f y))
    (hrefused : ¬ Refusable E k ∨ ∀ y, Moved x y → fail (.refused k) y) :
    (request k f).Ensures E post fail x := Calls.ensures_act h hrefused

theorem guards_systemCall {α : Type} {f : AgentWorld → α × AgentWorld} (hI : Steady I)
    (hf : ∀ x, I x → I (f x).2) (hJ : ¬ Refusable E .system ∨ ∀ x, I x → J x) :
    (systemCall f).Guards E I J := Calls.guards_act hI hf hJ

theorem guards_systemCalls (n : Nat) (hI : Steady I) (hJ : ¬ Refusable E .system ∨ ∀ x, I x → J x) :
    (systemCalls n).Guards E I J :=
  Calls.guards_forEach fun _ _ => guards_systemCall hI (fun _ h => h) hJ

theorem guards_request {k : AgentCall} {f : AgentWorld → AgentWorld} (hI : Steady I)
    (hf : ∀ x, I x → I (f x)) (hJ : ¬ Refusable E k ∨ ∀ x, I x → J x) : (request k f).Guards E I J :=
  Calls.guards_act hI hf hJ

theorem guards_ofChecks {α : Type} {r : Except FileError α}
    (h : (∃ a, r = .ok a) ∨ ∀ x, I x → J x) : (ofChecks r).Guards E I J := by
  refine Calls.guards_ofExcept (h.imp_left fun hok => ?_)
  obtain ⟨a, rfl⟩ := hok
  exact ⟨a, rfl⟩

theorem guards_getBootId (hI : Steady I) (hJ : ¬ Refusable E .system ∨ ∀ x, I x → J x) :
    getBootId.Guards E I J := (guards_systemCalls 2 hI hJ).bind fun _ => Calls.guards_read _

variable {py : Python} {host : Host} {settings : AgentSettings} {runDirName : String → String}

/-- The draft of the command of a task in its run directory. -/
def draftOf (py : Python) (host : Host) (settings : AgentSettings) (runDirName : String → String)
    (task : AgentTask) : Except FileError Draft :=
  let runDir := runDirOf host settings runDirName task.taskId
  draftCommand py host settings task.toNativeTask runDir (resolveWorkdir task.toNativeTask runDir)

/-- The command of a task can be built on the node. -/
def Buildable (py : Python) (host : Host) (settings : AgentSettings) (runDirName : String → String)
    (task : AgentTask) : Prop :=
  (task.type = .modalCommand →
    (buildModalEnvOverrides py host settings task.payload).isOk = true) ∧
  (draftOf py host settings runDirName task >>= Draft.finish).isOk = true

instance (task : AgentTask) : Decidable (Buildable py host settings runDirName task) :=
  inferInstanceAs (Decidable (_ ∧ _))

theorem isOk_error {α : Type} {r : Except FileError α} (h : ¬ r.isOk = true) :
    ∃ e, r = .error e := by
  cases r with
  | error e => exact ⟨e, rfl⟩
  | ok a => exact absurd rfl h

theorem isOk_ok {α : Type} {r : Except FileError α} (h : r.isOk = true) : ∃ a, r = .ok a := by
  cases r with
  | error e => cases h
  | ok a => exact ⟨a, rfl⟩

theorem guards_prepareCommand {task : AgentTask} (hI : Steady I)
    (hJ : ¬ Refusable E .system ∨ ∀ x, I x → J x)
    (hchecks : Buildable py host settings runDirName task ∨ ∀ x, I x → J x) :
    (prepareCommand py host settings task.toNativeTask
      (runDirOf host settings runDirName task.taskId)).Guards E I J := by
  have hmodal : (modalContext py host settings task.toNativeTask).Guards E I J := by
    unfold modalContext
    split
    · rename_i htype
      refine (guards_systemCalls _ hI hJ).bind fun _ => ?_
      refine (guards_ofChecks ?_).bind fun _ => Calls.guards_pure _
      exact hchecks.imp_left fun h => isOk_ok (h.1 htype)
    · exact Calls.guards_pure _
  refine (guards_systemCalls 1 hI hJ).bind fun _ => hmodal.bind fun context => ?_
  refine Calls.Guards.bind ?_ fun built => Calls.guards_pure _
  show (ofChecks (draftOf py host settings runDirName task) >>= _).Guards E I J
  cases hd : draftOf py host settings runDirName task with
  | error e =>
      refine (guards_ofChecks (hchecks.imp_left fun h => ?_)).bind fun draft =>
        (guards_systemCalls _ hI hJ).bind fun _ => guards_ofChecks (hchecks.imp_left fun h => ?_)
      all_goals
        have hok := h.2
        rw [hd] at hok
        cases hok
  | ok draft =>
      show (systemCalls draft.made.length >>= fun _ => ofChecks draft.finish).Guards E I J
      refine (guards_systemCalls _ hI hJ).bind fun _ => ?_
      refine guards_ofChecks (hchecks.imp_left fun h => ?_)
      have hok := h.2
      rw [hd] at hok
      exact isOk_ok hok

/-- The record of the task and the results are as they were. -/
def Untold (current : Option CurrentTask) (results : List TaskReport) (x : AgentWorld) : Prop :=
  x.currentTask = current ∧ x.results = results

theorem steady_untold (current : Option CurrentTask) (results : List TaskReport) :
    Steady (Untold current results) := by
  intro a x h
  cases a <;> exact h

/-- What a start keeps before it starts a process. -/
structure Preparable (I : AgentWorld → Prop) : Prop where
  steady : Steady I
  truncate : ∀ x path, I x → I (x.truncate path)
  send : ∀ x e, I x → I { x with events := x.events ++ [e] }

/-- What a start keeps before it saves its record. -/
structure Launchable (I : AgentWorld → Prop) : Prop extends Preparable I where
  popen : ∀ x p, I x → I { x with processes := x.processes ++ [p] }
  register : ∀ x taskId pid, I x → I (x.register taskId pid)

theorem launchable_untold (current : Option CurrentTask) (results : List TaskReport) :
    Launchable (Untold current results) :=
  ⟨⟨steady_untold current results, fun _ _ h => h, fun _ _ h => h⟩, fun _ _ h => h, fun _ _ _ h => h⟩

theorem guards_launchTask {task : AgentTask} (hI : Launchable I)
    (hsystem : ¬ Refusable E .system ∨ ∀ x, I x → J x)
    (hevent : ¬ Refusable E .event ∨ ∀ x, I x → J x)
    (hchecks : Buildable py host settings runDirName task ∨ ∀ x, I x → J x) :
    (launchTask py host settings runDirName task).Guards E I J := by
  have hlog : ∀ path, (truncateLog path).Guards E I J := fun path =>
    guards_systemCall hI.steady (fun x hx => hI.truncate x path hx) hsystem
  have hsend : ∀ e, (sendTaskEvent e).Guards E I J := fun e =>
    guards_request hI.steady (fun x hx => hI.send x e hx) hevent
  have hpopen : ∀ command workdir, (popen task.taskId command workdir).Guards E I J :=
    fun command workdir => guards_systemCall hI.steady
      (fun x hx => hI.popen x { taskId := task.taskId, command, workdir } hx) hsystem
  have hregister : ∀ pid, (registerProcess task.taskId pid).Guards E I J := fun pid =>
    Calls.guards_update fun x hx => hI.register x task.taskId pid hx
  refine (guards_getBootId hI.steady hsystem).bind fun bootId => ?_
  refine (Calls.guards_read _).bind fun startedAt => ?_
  refine (guards_systemCalls 1 hI.steady hsystem).bind fun _ => ?_
  refine (guards_prepareCommand hI.steady hsystem hchecks).bind fun ready => ?_
  refine (hlog _).bind fun _ => (hlog _).bind fun _ => ?_
  refine (guards_systemCalls 1 hI.steady hsystem).bind fun _ => (hsend _).bind fun _ => ?_
  refine (hlog _).bind fun _ => (hlog _).bind fun _ => (hpopen _ _).bind fun pid => ?_
  refine (hregister pid).bind fun _ => ?_
  exact (guards_systemCalls 2 hI.steady hsystem).bind fun _ => Calls.guards_pure _

/-- A start that returns has started a process and registered it for its task. -/
theorem ensures_launchTask {L : Nat → AgentWorld → Prop} {x : AgentWorld} (task : AgentTask)
    (hI : Preparable I) (hsystem : ¬ Refusable E .system)
    (hpopen : ∀ y p, I y → p.ending = none →
      L y.processes.length { y with processes := y.processes ++ [p] })
    (hL : ∀ pid, Steady (L pid)) (hregister : ∀ y taskId pid, L pid y → L pid (y.register taskId pid))
    (hx : I x) :
    (launchTask py host settings runDirName task).Ensures E
      (fun state y => L state.pid y ∧ y.activeProcesses.lookup state.taskId = some state.pid ∧
        state.cancelRequested = false ∧ state.timedOut = false)
      (fun _ => I) x := by
  have hlog : ∀ path, (truncateLog path).Guards E I I := fun path =>
    guards_systemCall hI.steady (fun y hy => hI.truncate y path hy) (.inl hsystem)
  have hsend : ∀ e, (sendTaskEvent e).Guards E I I := fun e =>
    guards_request hI.steady (fun y hy => hI.send y e hy) (.inr fun _ h => h)
  refine (guards_getBootId hI.steady (.inl hsystem)).andThen hx fun bootId y₁ h₁ => ?_
  refine Calls.ensures_bind (Calls.ensures_read ?_)
  refine (guards_systemCalls 1 hI.steady (.inl hsystem)).andThen h₁ fun _ y₂ h₂ => ?_
  refine (guards_prepareCommand hI.steady (.inl hsystem) (.inr fun _ h => h)).andThen h₂ fun ready y₃ h₃ => ?_
  refine (hlog _).andThen h₃ fun _ y₄ h₄ => (hlog _).andThen h₄ fun _ y₅ h₅ => ?_
  refine (guards_systemCalls 1 hI.steady (.inl hsystem)).andThen h₅ fun _ y₆ h₆ => ?_
  refine (hsend _).andThen h₆ fun _ y₇ h₇ => (hlog _).andThen h₇ fun _ y₈ h₈ => ?_
  refine (hlog _).andThen h₈ fun _ y₉ h₉ => ?_
  have hstarted : (popen task.taskId ready.built.command ready.workdir).Ensures E L (fun _ => I) y₉ :=
    ensures_systemCall (fun z hz => hpopen z _ (hI.steady.moved hz h₉) rfl) (.inl hsystem)
  refine hstarted.andThen fun pid z hz => Calls.ensures_bind (Calls.ensures_update ?_)
  have hactive : Steady fun x : AgentWorld => L pid x ∧
      x.activeProcesses.lookup task.taskId = some pid := fun a x h =>
    ⟨hL pid a x h.1, by cases a <;> exact h.2⟩
  refine (guards_systemCalls 2 hactive (.inl hsystem)).andThen ?_ fun _ w hw =>
    Calls.ensures_pure ⟨hw.1, hw.2, rfl, rfl⟩
  exact ⟨hregister z task.taskId pid hz, by simp [AgentWorld.register]⟩

end Frames

/-! ## The calls of a start -/

section Calls

variable (py : Python) (host : Host) (settings : AgentSettings) (runDirName : String → String)

/-- The calls of `start_background_task`, in order. -/
def startCalls (task : AgentTask) : List AgentCall :=
  let modal := if task.type = .modalCommand then modalCalls py host settings task.payload else 0
  let made := ((draftOf py host settings runDirName task).map fun d => d.made.length).toOption
  -- The boot id, the run directory and the workdir; the credential; the files of the command; its
  -- logs and metadata.
  List.replicate (4 + modal + made.getD 0 + 3) .system ++ .event ::
    -- The logs, the process, the offsets and the record.
    List.replicate 6 .system

variable {py : Python} {host : Host} {settings : AgentSettings} {runDirName : String → String}
  {task : AgentTask}

theorem makes_systemCall {α : Type} (f : AgentWorld → α × AgentWorld) :
    (systemCall f).Makes [.system] := Calls.makes_act _ _ f

theorem makes_request (k : AgentCall) (f : AgentWorld → AgentWorld) : (request k f).Makes [k] :=
  Calls.makes_act k _ fun x => ((), f x)

theorem makes_systemCalls (n : Nat) : (systemCalls n).Makes (List.replicate n .system) := by
  have h : (systemCalls n).Makes (List.replicate (List.replicate n ()).length .system) :=
    Calls.makes_forEach fun _ _ => makes_systemCall _
  rwa [List.length_replicate] at h

theorem makes_ofChecks {α : Type} {r : Except FileError α} {a : α} (h : r = .ok a) :
    (ofChecks r).Makes [] := by
  subst h
  exact Calls.makes_pure a

theorem raises_ofChecks {α : Type} {r : Except FileError α} {e : FileError} (h : r = .error e) :
    (ofChecks r).Raises := by
  subst h
  exact Calls.raises_error _

/-- What precedes the logs raises if the command cannot be built. -/
theorem raises_prepareCommand (h : ¬ Buildable py host settings runDirName task) :
    (prepareCommand py host settings task.toNativeTask
      (runDirOf host settings runDirName task.taskId)).Raises := by
  refine Calls.Raises.bind_right _ fun _ => ?_
  by_cases hmodal : task.type = .modalCommand →
      (buildModalEnvOverrides py host settings task.payload).isOk = true
  · refine Calls.Raises.bind_right _ fun context => Calls.Raises.bind_left ?_ _
    obtain ⟨e, he⟩ := isOk_error fun hdraft => h ⟨hmodal, hdraft⟩
    cases hd : draftOf py host settings runDirName task with
    | error e => exact (raises_ofChecks hd).bind_left _
    | ok draft =>
        rw [hd] at he
        show (ofChecks (draftOf py host settings runDirName task) >>= _).Raises
        rw [hd]
        show (systemCalls draft.made.length >>= fun _ => ofChecks draft.finish).Raises
        exact Calls.Raises.bind_right _ fun _ => raises_ofChecks he
  · obtain ⟨htype, hnot⟩ := Classical.not_imp.mp hmodal
    obtain ⟨e, he⟩ := isOk_error hnot
    refine Calls.Raises.bind_left ?_ _
    rw [modalContext, if_pos htype]
    exact Calls.Raises.bind_right _ fun _ => (raises_ofChecks he).bind_left _

/-- What precedes the logs makes these calls if the command can be built. -/
theorem makes_prepareCommand (h : Buildable py host settings runDirName task) {n : Nat}
    (hn : (if task.type = .modalCommand then modalCalls py host settings task.payload else 0) +
      ((draftOf py host settings runDirName task).map fun d => d.made.length).toOption.getD 0 = n) :
    (prepareCommand py host settings task.toNativeTask
      (runDirOf host settings runDirName task.taskId)).Makes (List.replicate (1 + n) .system) := by
  have hmodal : (modalContext py host settings task.toNativeTask).Makes (List.replicate
      (if task.type = .modalCommand then modalCalls py host settings task.payload else 0)
      .system) := by
    unfold modalContext
    split
    · rename_i htype
      obtain ⟨overrides, hoverrides⟩ := isOk_ok (h.1 htype)
      have hall := (makes_systemCalls (modalCalls py host settings task.payload)).bind fun _ =>
        (makes_ofChecks hoverrides).bind fun overrides => Calls.makes_pure overrides.2
      rwa [List.append_nil, List.append_nil] at hall
    · exact Calls.makes_pure _
  obtain ⟨built, hbuilt⟩ := isOk_ok h.2
  cases hd : draftOf py host settings runDirName task with
  | error e =>
      rw [hd] at hbuilt
      cases hbuilt
  | ok draft =>
      rw [hd] at hbuilt hn
      have hbuild : (buildCommand py host settings task.toNativeTask
          (runDirOf host settings runDirName task.taskId) (resolveWorkdir task.toNativeTask
            (runDirOf host settings runDirName task.taskId))).Makes
          (List.replicate draft.made.length .system) := by
        show (ofChecks (draftOf py host settings runDirName task) >>= _).Makes _
        rw [hd]
        have hall := (makes_systemCalls draft.made.length).bind fun _ =>
          makes_ofChecks (show draft.finish = .ok built from hbuilt)
        rwa [List.append_nil] at hall
      have hall : (prepareCommand py host settings task.toNativeTask
          (runDirOf host settings runDirName task.taskId)).Makes _ :=
        (makes_systemCalls 1).bind fun _ => hmodal.bind fun context =>
          hbuild.bind fun built => Calls.makes_pure _
      subst hn
      show Calls.Makes _ (List.replicate (1 + (_ + draft.made.length)) _)
      rw [List.replicate_add, List.replicate_add]
      simpa only [List.append_nil] using hall

/-- A start whose command can be built makes its calls. -/
theorem makes_startBackgroundTask (h : Buildable py host settings runDirName task) :
    (startBackgroundTask py host settings runDirName task).Makes
      (startCalls py host settings runDirName task) := by
  have hboot : getBootId.Makes _ := (makes_systemCalls 2).bind fun _ => Calls.makes_read _
  have hlog : ∀ path, (truncateLog path).Makes [.system] := fun path => makes_systemCall _
  have hevent : ∀ e, (sendTaskEvent e).Makes [.event] := fun e => makes_request _ _
  have hpopen : ∀ command workdir, (popen task.taskId command workdir).Makes [.system] :=
    fun command workdir => makes_systemCall _
  have hregister : ∀ pid, (registerProcess task.taskId pid).Makes [] :=
    fun pid => Calls.makes_update _
  have hlaunch : (launchTask py host settings runDirName task).Makes _ :=
    hboot.bind fun _ => (Calls.makes_read _).bind fun _ => (makes_systemCalls 1).bind fun _ =>
      (makes_prepareCommand h rfl).bind fun _ => (hlog _).bind fun _ => (hlog _).bind fun _ =>
      (makes_systemCalls 1).bind fun _ => (hevent _).bind fun _ => (hlog _).bind fun _ =>
      (hlog _).bind fun _ => (hpopen _ _).bind fun pid => (hregister pid).bind fun _ =>
      (makes_systemCalls 2).bind fun _ => Calls.makes_pure _
  have hall : (startBackgroundTask py host settings runDirName task).Makes _ :=
    hlaunch.bind fun _ => (makes_systemCall _).bind fun _ => Calls.makes_pure _
  have hlength : ∀ m n : Nat, 4 + m + n + 3 = 3 + ((1 + (m + n)) + 3) := by omega
  simp only [startCalls]
  rw [hlength, List.replicate_add, List.replicate_add]
  refine Eq.mp (congrArg _ ?_) hall
  simp [List.replicate_succ]

/-- A start whose command cannot be built raises. -/
theorem raises_startBackgroundTask (h : ¬ Buildable py host settings runDirName task) :
    (startBackgroundTask py host settings runDirName task).Raises := by
  refine Calls.Raises.bind_left ?_ _
  refine Calls.Raises.bind_right _ fun _ => Calls.Raises.bind_right _ fun _ => ?_
  exact Calls.Raises.bind_right _ fun _ => (raises_prepareCommand h).bind_left _

/-- A start returns exactly if its command can be built and its calls are granted. -/
theorem startBackgroundTask_returns {s : AgentScene} :
    (∃ state, (startBackgroundTask py host settings runDirName task s).1 = .ok state) ↔
      Buildable py host settings runDirName task ∧
        Calls.grants (startCalls py host settings runDirName task) s.moments = true := by
  by_cases h : Buildable py host settings runDirName task
  · rw [(makes_startBackgroundTask h).returns]
    simp [h]
  · have hraises := raises_startBackgroundTask h s
    unfold Calls.wp at hraises
    rcases hs : startBackgroundTask py host settings runDirName task s with ⟨result, s'⟩
    rw [hs] at hraises
    cases result with
    | ok state => exact hraises.elim
    | error e => simp [h]

/-- A start is about its task. -/
theorem yields_launchTask : (launchTask py host settings runDirName task).Yields
    fun state => state.taskId = task.taskId := by
  refine Calls.Yields.bind fun bootId => Calls.Yields.bind fun startedAt => ?_
  refine Calls.Yields.bind fun _ => Calls.Yields.bind fun ready => Calls.Yields.bind fun _ => ?_
  refine Calls.Yields.bind fun _ => Calls.Yields.bind fun _ => Calls.Yields.bind fun _ => ?_
  refine Calls.Yields.bind fun _ => Calls.Yields.bind fun _ => Calls.Yields.bind fun pid => ?_
  exact Calls.Yields.bind fun _ => Calls.Yields.bind fun _ => Calls.yields_pure rfl

/-- A start that returns has saved the record of the task.  One that raises has told nobody. -/
theorem startBackgroundTask_wp (s : AgentScene) :
    (startBackgroundTask py host settings runDirName task).wp
      (fun state s' => state.taskId = task.taskId ∧
        Untold (some state) s.state.results s'.state)
      (fun _ s' => Untold s.state.currentTask s.state.results s'.state) s := by
  have hlaunch : (launchTask py host settings runDirName task).Guards (Sparing [])
      (Untold s.state.currentTask s.state.results) (Untold s.state.currentTask s.state.results) :=
    guards_launchTask (launchable_untold _ _) (.inr fun _ h => h) (.inr fun _ h => h)
      (.inr fun _ h => h)
  unfold startBackgroundTask
  rw [Calls.wp_bind]
  refine Calls.wp_mono (Calls.wp_and (yields_launchTask s) 
    (hlaunch.wp ⟨rfl, rfl⟩)) (fun state s' h => ?_) fun e s' h => h.2
  obtain ⟨hid, hsame⟩ := h
  have hnext := (steady_untold s.state.currentTask s.state.results).moved s'.moved_next hsame
  rw [Calls.wp_bind]
  show (systemCall _).wp _ _ s'
  rw [systemCall, Calls.wp_act]
  split
  · exact hnext
  · exact ⟨hid, rfl, hnext.2⟩

end Calls

/-! ## Accounting for a task -/

section Accounts

variable {py : Python} {host : Host} {settings : AgentSettings} {runDirName : String → String}
  {tasks : List AgentTask}

/-- The agent has the task on record, or has sent its result. -/
def AccountedFor (taskId : String) (x : AgentWorld) : Prop :=
  x.currentTask.map CurrentTask.taskId = some taskId ∨ ∃ r ∈ x.results, r.taskId = taskId

/-- The task of a heartbeat that is started. -/
def attemptedTask (tasks : List AgentTask) (s : AgentScene) : Option AgentTask :=
  if s.refuses .system || s.state.isActive then none else tasks.head?

theorem AccountedFor.of_untold {taskId : String} {current : Option CurrentTask}
    {results : List TaskReport} {x y : AgentWorld} (hx : Untold current results x)
    (hy : Untold current results y) : AccountedFor taskId y ↔ AccountedFor taskId x := by
  unfold AccountedFor
  rw [hx.1, hx.2, hy.1, hy.2]

/-- The run of `start_tasks_background` that starts a task is the run of its start. -/
theorem startTasksBackground_attempted {task : AgentTask} {s : AgentScene}
    (h : task ∈ attemptedTask tasks s) :
    (startTasksBackground py host settings runDirName tasks s).2 =
      (startBackgroundTask py host settings runDirName task s.next).2 := by
  unfold attemptedTask at h
  split at h
  · cases h
  · rename_i hnot
    simp only [Bool.or_eq_true, not_or, Bool.not_eq_true] at hnot
    have hnext : s.next.state.isActive = false := by
      have hsame :=
        (steady_untold s.state.currentTask s.state.results).moved s.moved_next ⟨rfl, rfl⟩
      rw [AgentWorld.isActive, hsame.1]
      exact hnot.2
    have hrest : ∀ p : AgentProg (List String),
        (hasActiveTask >>= fun b => if b then pure [] else p) s = p s.next := by
      intro p
      show Calls.bind (systemCall _) _ s = _
      simp [Calls.bind, systemCall, Calls.act, Calls.call, hnot.1, hnext]
    have hhead : tasks.head? = some task := h
    unfold startTasksBackground
    rw [hrest, hhead]
    show (Calls.bind _ _ _).2 = _
    unfold Calls.bind
    rcases startBackgroundTask py host settings runDirName task s.next with ⟨result, s'⟩
    cases result <;> rfl

/-- A task whose start is attempted is accounted for afterwards, whether `start_tasks_background`
returns or raises, exactly if it was accounted for before or its command can be built on the node
and none of the calls of its start is refused. -/
theorem startTasksBackground_accounts_iff (py : Python) (host : Host) (settings : AgentSettings)
    (runDirName : String → String) (tasks : List AgentTask) (s : AgentScene) :
    (∀ task ∈ attemptedTask tasks s, AccountedFor task.taskId
      (startTasksBackground py host settings runDirName tasks s).2.state) ↔
      ∀ task ∈ attemptedTask tasks s, AccountedFor task.taskId s.state ∨
        Buildable py host settings runDirName task ∧
          Calls.grants (startCalls py host settings runDirName task) s.next.moments = true := by
  refine forall_congr' fun task => forall_congr' fun htask => ?_
  rw [startTasksBackground_attempted htask, ← startBackgroundTask_returns]
  have hnext : Untold s.state.currentTask s.state.results s.next.state :=
    (steady_untold s.state.currentTask s.state.results).moved s.moved_next ⟨rfl, rfl⟩
  have hend := @startBackgroundTask_wp py host settings runDirName task s.next
  rw [hnext.1, hnext.2] at hend
  unfold Calls.wp at hend
  rcases hrun : startBackgroundTask py host settings runDirName task s.next with ⟨result, s'⟩
  rw [hrun] at hend
  cases result with
  | ok state =>
      obtain ⟨hid, hsaved⟩ := hend
      have hrecorded : AccountedFor task.taskId s'.state := by
        left
        rw [hsaved.1, Option.map_some, hid]
      simp [hrecorded]
  | error e =>
      rw [AccountedFor.of_untold (x := s.state) ⟨rfl, rfl⟩ hend]
      simp

/-- A node without programs and files. -/
def bareHost : Host where
  which _ := none
  pathExists _ := false
  isFile _ := false
  sysExecutable := "python"

/-- A task that writes no file, since the dispatcher has no command for it. -/
def mkdirTask : AgentTask where
  taskId := "t"
  type := .fileMkdir
  payload := [("path", .str "runtime/new")]

/-- Nothing is refused, and still nobody hears of the task. -/
theorem mkdirTask_unaccounted :
    ¬ ∀ (py : Python) (host : Host) (settings : AgentSettings) (runDirName : String → String)
        (tasks : List AgentTask) (s : AgentScene), ∀ task ∈ attemptedTask tasks s,
      AccountedFor task.taskId
        (startTasksBackground py host settings runDirName tasks s).2.state := by
  intro h
  have hend := h plainPython bareHost {} id [mkdirTask] { state := {} } mkdirTask rfl
  have hrun : (startTasksBackground plainPython bareHost {} id [mkdirTask]
      { state := {} }).2 = (startBackgroundTask plainPython bareHost {} id mkdirTask
        { state := {} }).2 := startTasksBackground_attempted rfl
  rw [hrun] at hend
  rcases hend with hrecorded | ⟨r, hr, -⟩
  · cases hrecorded
  · cases hr

end Accounts

end GpuFleet
