import GpuFleet.Agent.Completion

/-!
# The two paths of a task

A single heartbeat executes its tasks with `executeTask`, which works on files itself and waits for
commands.  The loop starts a command with `startBackgroundTask` and looks after it with
`syncActiveTask` (`runInLoop`).

Both report alike, since the result of either tells how its process ended (`executeTask_tells`,
`runInLoop_tells`), and the loop reports every process that has exited (`runInLoop_completes`).
It has a command for a health check, but none for the types that only `executeNativeTask` knows,
and raises there.  So the loop agrees with `executeTask` on exactly the tasks that are not native
(`loopAgrees_iff`).
-/

namespace GpuFleet

open Foundations

/-! ## The paths -/

/-- The `try` block of `execute_task` has worked on files, or started a process. -/
def Attempt.executes : Attempt → Bool
  | .native | .exited .. | .timedOut _ => true
  | .failed pid => pid.isSome

section Paths

variable (py : Python) (host : Host) (settings : AgentSettings) (runDirName : String → String)

/-- `sync_active_task` in an iteration of the loop without controls, whatever it raises there. -/
def syncOnce : AgentProg Unit :=
  (do
    let _ ← syncActiveTask []
    pure ()).tryCatch fun _ : AgentError => pure ()

/-- Iterations of the loop. -/
def syncTimes : Nat → AgentProg Unit
  | 0 => pure ()
  | n + 1 => do
      syncTimes n
      syncOnce

/-- `start_background_task`, and `sync_active_task` in iterations of the loop. -/
def runInLoop (task : AgentTask) (n : Nat) : AgentProg Unit := do
  let _ ← startBackgroundTask py host settings runDirName task
  syncTimes n

/-- In some surroundings `execute_task` executes the task. -/
def ExecutesAlone (task : AgentTask) : Prop :=
  ∃ bootId startedAt s attempt,
    (attemptTask py host settings task bootId startedAt
      (runDirOf host settings runDirName task.taskId) s).1 = .ok attempt ∧
    attempt.executes = true

/-- The result tells of this ending: of that of its process, or of that of a command without
errors, if there was no process. -/
def TaskReport.TellsOf (r : TaskReport) (e : Ending) (x : AgentWorld) : Prop :=
  match r.pid with
  | some pid => x.ending pid = some e
  | none => r.exitCode = some 0 ∧ e = .itself 0

/-- A run without results so far, in which no call of the system is refused and no process
terminated that has ended, leads to a result of this status that tells of this ending. -/
def Reports {α : Type} (p : AgentProg α) (e : Ending) (status : FinalStatus) : Prop :=
  ∃ s : AgentScene, s.state.currentTask = none ∧ s.state.results = [] ∧
    s.Under (Sparing [.system]) ∧ Prompt (p s).2.state ∧
      ∃ r ∈ (p s).2.state.results, r.TellsOf e (p s).2.state ∧ r.finalStatus = status

/-- The loop starts the task when nothing is refused, and once its process has exited, the next
iteration reports it. -/
def RunsInLoop (task : AgentTask) : Prop :=
  ∀ s : AgentScene, s.state.currentTask = none → s.state.results = [] →
    s.Under (Sparing [.system, .event, .upload, .result]) →
    ∃ state s', startBackgroundTask py host settings runDirName task s = (.ok state, s') ∧
      ∀ n, HasExited state.pid (syncTimes n s').2.state →
        Told task.taskId state.pid (syncTimes (n + 1) s').2.state

/-- The loop executes the task, and where both paths report it, they report the same status for the
same ending. -/
def LoopAgrees (task : AgentTask) : Prop :=
  RunsInLoop py host settings runDirName task ∧
    ∀ e status status' n, Reports (executeTask py host settings runDirName task) e status →
      Reports (runInLoop py host settings runDirName task n) e status' → status = status'

end Paths

/-! ## A single heartbeat -/

/-- The result tells how its task ended. -/
def TaskReport.Faithful (r : TaskReport) (x : AgentWorld) : Prop :=
  match r.pid with
  | some pid => ∃ e, x.ending pid = some e ∧ e.Reported r.finalStatus
  | none => r.exitCode = some 0 → r.finalStatus = .succeeded

/-- No result is about a process yet, and that of the outcome has ended as its status tells. -/
structure Awaits (pid : Option Nat) (status : FinalStatus) (x : AgentWorld) : Prop where
  results : ∀ r ∈ x.results, r.pid = none ∧ (r.exitCode = some 0 → r.finalStatus = .succeeded)
  ended : ∀ p ∈ pid, Prompt x → ∃ e, x.ending p = some e ∧ e.Reported status

/-- A process runs, or has exited, and no result is about a process yet. -/
structure Runs (pid : Nat) (x : AgentWorld) : Prop extends Awaits none .failed x where
  started : pid < x.processes.length
  flags : FlagsTell false false (x.ending pid)

/-- Every result tells how its task ended, if the agent is prompt. -/
def AllFaithful (x : AgentWorld) : Prop := Prompt x → ∀ r ∈ x.results, r.Faithful x

section Alone

variable {E : Moment AgentMove AgentCall → Prop} {I J : AgentWorld → Prop}
  {pid : Option Nat} {status : FinalStatus} {x : AgentWorld}

theorem Awaits.faithful (h : Awaits pid status x) : AllFaithful x := by
  intro _ r hr
  obtain ⟨hpid, hcode⟩ := h.results r hr
  simp only [TaskReport.Faithful, hpid]
  exact hcode

theorem Awaits.forget (h : Awaits pid status x) {status' : FinalStatus} : Awaits none status' x :=
  ⟨h.results, fun _ hp => by cases hp⟩

theorem steady_awaits (pid : Option Nat) (status : FinalStatus) : Steady (Awaits pid status) := by
  intro a x h
  have hresults : (x.move a).results = x.results := by cases a <;> rfl
  refine ⟨fun r hr => h.results r (hresults ▸ hr), fun p hp hprompt => ?_⟩
  obtain ⟨e, he, hreported⟩ := h.ended p hp ((prompt_move a).mp hprompt)
  exact ⟨e, ending_move_some he, hreported⟩

theorem loggable_awaits (k : TaskKey) (pid : Option Nat) (status : FinalStatus) :
    Loggable k (Awaits pid status) where
  steady := steady_awaits pid status
  ack _ _ _ _ h := ⟨h.results, h.ended⟩
  send _ _ h := ⟨h.results, h.ended⟩
  save _ _ _ h := ⟨h.results, h.ended⟩

theorem steady_runs (pid : Nat) : Steady (Runs pid) := fun a x h =>
  { toAwaits := steady_awaits none .failed a x h.toAwaits
    started := by
      have hlength : (x.move a).processes.length = x.processes.length := by
        cases a <;> simp [AgentWorld.move]
      show pid < (x.move a).processes.length
      rw [hlength]
      exact h.started
    flags := h.flags.move a }

/-- `subprocess.Popen` -/
theorem Awaits.popen (h : Awaits none status x) (p : Process) (hp : p.ending = none) :
    Runs x.processes.length { x with processes := x.processes ++ [p] } where
  results := h.results
  ended _ hp := by cases hp
  started := by simp
  flags := by
    show FlagsTell false false (((x.processes ++ [p])[x.processes.length]?).bind _)
    rw [List.getElem?_append_right (Nat.le_refl _), Nat.sub_self]
    show FlagsTell false false p.ending
    rw [hp]
    exact ⟨rfl, rfl⟩

/-- A process that exited by itself has ended as its code tells. -/
theorem Runs.exited {pid : Nat} {e : Ending} (h : Runs pid x) (he : x.ending pid = some e) :
    Awaits (some pid) (if e.code = 0 then .succeeded else .failed) x := by
  refine ⟨h.results, fun p hp _ => ⟨e, ?_, ?_⟩⟩
  · cases hp
    exact he
  · have hflags := h.flags
    rw [he] at hflags
    cases e with
    | itself code => rfl
    | terminated reason code =>
        cases reason <;> obtain ⟨hc, ht⟩ := hflags
        · cases hc
        · cases ht

/-- A process that is terminated while it runs ends for its timeout. -/
theorem Runs.timeout {pid : Nat} (h : Runs pid x) :
    Awaits (some pid) .timeout (x.terminate pid .timeout) := by
  refine ⟨h.results, fun p hp hprompt => ?_⟩
  cases hp
  obtain ⟨-, hlive⟩ := prompt_terminate.mp hprompt
  obtain ⟨code, hcode⟩ := ending_terminate .timeout hlive h.started
  exact ⟨_, hcode, rfl⟩

/-- The result of the outcome. -/
theorem Awaits.report (h : Awaits pid status x) {r : TaskReport} (hpid : r.pid = pid)
    (hstatus : r.finalStatus = status) (hcode : pid = none → r.exitCode = none) :
    AllFaithful { x with results := x.results ++ [r] } := by
  intro hprompt r' hr'
  rcases List.mem_append.mp hr' with hold | hnew
  · exact h.faithful hprompt r' hold
  · obtain rfl := List.mem_singleton.mp hnew
    unfold TaskReport.Faithful
    cases hr : r'.pid with
    | none =>
        intro hzero
        rw [hcode (hpid.symm.trans hr)] at hzero
        cases hzero
    | some p =>
        rw [hstatus]
        exact h.ended p (hpid.symm.trans hr) hprompt

/-- The `finally` block of `execute_task` uploads the logs. -/
theorem guards_uploadLogText {k : TaskKey} {taskId : String} {stream : Stream} {text : List Char}
    (hI : Loggable k I) (hsystem : ¬ Refusable E .system ∨ ∀ x, I x → J x)
    (hrefused : ∀ x, I x → J x) : (uploadLogText taskId stream text).Guards E I J := by
  have hsystem' : ¬ Refusable E .system ∨ ∀ x, I x → I x := .inr fun _ h => h
  refine (guards_systemCalls 2 hI.steady hsystem).bind fun _ => Calls.Guards.bind ?_ fun _ =>
    guards_clearLogOffsets hI hsystem
  refine Calls.Guards.tryCatch ?_ fun e => ?_
  · exact (guards_sendLogChunks hI hsystem' (.inr fun _ h => h)).bind fun _ => Calls.guards_pure ()
  · exact (guards_clearLogOffsets hI hsystem).bind fun _ => Calls.guards_raise hrefused

theorem guards_cleanUp (taskId : String) (runDir : AbsPath) :
    (cleanUp taskId runDir).Guards (Sparing [.system]) (Awaits pid status) AllFaithful := by
  have hI := loggable_awaits ⟨taskId, 0, false, false⟩ pid status
  have hupload : ∀ stream text, (uploadLogText taskId stream text).Guards (Sparing [.system])
      (Awaits pid status) AllFaithful := fun stream text =>
    guards_uploadLogText hI system_not_refused fun _ h => h.faithful
  refine (guards_systemCalls 2 hI.steady system_not_refused).bind fun _ => ?_
  refine (Calls.guards_read _).bind fun stdoutText => (hupload .stdout stdoutText).bind fun _ => ?_
  refine (Calls.guards_read _).bind fun stderrText => (hupload .stderr stderrText).bind fun _ => ?_
  exact guards_systemCall hI.steady (fun _ h => ⟨h.results, h.ended⟩) system_not_refused

/-- What the `try` block of `execute_task` leaves. -/
def Attempt.Leaves : Attempt → AgentWorld → Prop
  | .native | .failed none => Awaits none .failed
  | .exited pid code => Awaits (some pid) (if code = 0 then .succeeded else .failed)
  | .timedOut pid => Runs pid
  | .failed (some _) => fun _ => False

variable {py : Python} {host : Host} {settings : AgentSettings} {runDirName : String → String}

/-- `process.communicate` returns the code the process has exited with, or the time is over. -/
theorem ensures_communicate {pid : Nat} (hx : Runs pid x) :
    (communicate pid).Ensures (Sparing [.system])
      (fun code => Awaits (some pid) (if code = 0 then .succeeded else .failed))
      (fun e y => e = .timeoutExpired ∧ Runs pid y) x := by
  have hmoved : ∀ y, Moved x y → Runs pid y := fun y hy => (steady_runs pid).moved hy hx
  refine Calls.ensures_call (fun y hy code z hz => ?_) (fun y hy e z hz => ?_)
    (.inl (not_refusable_sparing (List.mem_singleton.mpr rfl)))
  · cases he : y.ending pid with
    | none =>
        rw [he] at hz
        cases hz
    | some e =>
        rw [he] at hz
        cases hz
        exact (hmoved y hy).exited he
  · cases he : y.ending pid with
    | none =>
        rw [he] at hz
        cases hz
        exact ⟨rfl, hmoved y hy⟩
    | some e =>
        rw [he] at hz
        cases hz

theorem ensures_attemptTask (task : AgentTask) (bootId : String) (startedAt : Nat)
    (hx : Awaits none .failed x) :
    (attemptTask py host settings task bootId startedAt
      (runDirOf host settings runDirName task.taskId)).Ensures (Sparing [.system]) Attempt.Leaves
        (fun _ => Awaits none .failed) x := by
  have hsteady := steady_awaits none .failed
  have hnative : (nativeTask py host settings task.toNativeTask).Guards (Sparing [.system])
      (Awaits none .failed) (Awaits none .failed) :=
    Calls.guards_step fun y hy => ⟨hy.results, hy.ended⟩
  refine hnative.andThen hx fun report y hy => ?_
  cases report with
  | some report =>
      refine Calls.ensures_bind (Calls.ensures_read ?_)
      have hresult : (sendTaskResult
          { taskId := task.taskId, finalStatus := .succeeded, exitCode := some 0, bootId, startedAt
            finishedAt := y.clock / 1000000 }).Guards (Sparing [.system]) (Awaits none .failed)
          (Awaits none .failed) := by
        refine guards_request hsteady (fun z hz => ⟨fun r hr => ?_, fun p hp => by cases hp⟩)
          (.inr fun _ h => h)
        rcases List.mem_append.mp hr with hold | hnew
        · exact hz.results r hold
        · obtain rfl := List.mem_singleton.mp hnew
          exact ⟨rfl, fun _ => rfl⟩
      have hsummary : sendSummary.Guards (Sparing [.system]) (Awaits none .failed)
          (Awaits none .failed) :=
        guards_request hsteady (fun _ h => ⟨h.results, h.ended⟩) (.inr fun _ h => h)
      exact hresult.andThen hy fun _ z hz => hsummary.andThen hz fun _ w hw => Calls.ensures_pure hw
  | none =>
      refine (guards_prepareCommand hsteady system_not_refused (.inr fun _ h => h)).andThen hy fun ready z hz => ?_
      refine (guards_systemCalls 1 hsteady system_not_refused).andThen hz fun _ w hw => ?_
      have hsend : ∀ e, (sendTaskEvent e).Guards (Sparing [.system]) (Awaits none .failed)
          (Awaits none .failed) := fun e =>
        guards_request hsteady (fun _ h => ⟨h.results, h.ended⟩) (.inr fun _ h => h)
      refine (hsend _).andThen hw fun _ v hv => ?_
      have hstart : (popen task.taskId ready.built.command ready.workdir).Ensures (Sparing [.system]) Runs
          (fun _ => Awaits none .failed) v :=
        ensures_systemCall (fun u hu => Awaits.popen (hsteady.moved hu hv) _ rfl) system_not_refused
      refine hstart.andThen fun pid u hu => Calls.ensures_tryCatch ?_
      have hrecord : (systemCalls 1).Guards (Sparing [.system]) (Runs pid) fun _ => False :=
        guards_systemCalls 1 (steady_runs pid) system_not_refused
      refine Calls.ensures_bind (Calls.ensures_mono (hrecord u hu) (fun _ t ht => ?_)
        fun _ _ h => h.elim)
      refine Calls.ensures_bind (Calls.ensures_mono (ensures_communicate ht) (fun code r hr => ?_) ?_)
      · exact Calls.ensures_pure hr
      · rintro e r ⟨rfl, hr⟩
        exact Calls.ensures_pure hr

/-- The handler of `subprocess.TimeoutExpired` terminates the process. -/
theorem ensures_afterTimeout {attempt : Attempt} (onError : AgentError → AgentProg Unit)
    (hx : attempt.Leaves x) :
    ((afterTimeout attempt).tryCatch onError).Ensures (Sparing [.system])
      (fun _ => Awaits attempt.outcome.pid attempt.outcome.finalStatus)
      (fun _ => AllFaithful) x := by
  cases attempt with
  | native => exact Calls.ensures_tryCatch (Calls.ensures_pure hx.forget)
  | exited pid code => exact Calls.ensures_tryCatch (Calls.ensures_pure hx)
  | failed pid =>
      cases pid with
      | none => exact Calls.ensures_tryCatch (Calls.ensures_pure hx)
      | some pid => exact hx.elim
  | timedOut pid =>
      have hterminate : (terminateProcessTree pid .timeout).Ensures (Sparing [.system])
          (fun _ => Awaits (some pid) .timeout) (fun _ _ => False) x :=
        ensures_systemCall (fun y hy => ((steady_runs pid).moved hy hx).timeout) system_not_refused
      have hall : (afterTimeout (.timedOut pid)).Ensures (Sparing [.system])
          (fun _ => Awaits (some pid) .timeout) (fun _ _ => False) x :=
        hterminate.andThen fun _ y hy =>
          guards_systemCalls 1 (steady_awaits (some pid) .timeout) system_not_refused y hy
      exact Calls.ensures_tryCatch (Calls.ensures_mono hall (fun _ _ h => h) fun _ _ h => h.elim)

theorem steady_allFaithful : Steady AllFaithful := by
  intro a x h hprompt r hr
  have hresults : (x.move a).results = x.results := by cases a <;> rfl
  have hfaithful := h ((prompt_move a).mp hprompt) r (hresults ▸ hr)
  unfold TaskReport.Faithful at hfaithful ⊢
  cases hpid : r.pid with
  | none =>
      rw [hpid] at hfaithful
      exact hfaithful
  | some pid =>
      rw [hpid] at hfaithful
      obtain ⟨e, he, hreported⟩ := hfaithful
      exact ⟨e, ending_move_some he, hreported⟩

/-- The end of `execute_task`. -/
theorem ensures_reportOutcome {outcome : TaskOutcome} {r : TaskReport}
    (hx : Awaits outcome.pid outcome.finalStatus x) (hcode : outcome.pid = none → outcome.exitCode = none)
    (hpid : r.pid = outcome.pid) (hstatus : r.finalStatus = outcome.finalStatus)
    (hexit : r.exitCode = outcome.exitCode) :
    (do
      sendTaskResult r
      sendSummary
      pure outcome : AgentProg TaskOutcome).Ensures (Sparing [.system]) (fun _ => AllFaithful)
        (fun _ => AllFaithful) x := by
  have hresult : (sendTaskResult r).Ensures (Sparing [.system]) (fun _ => AllFaithful)
      (fun _ => AllFaithful) x :=
    ensures_request (fun y hy => ((steady_awaits _ _).moved hy hx).report hpid hstatus fun h =>
        hexit.trans (hcode h))
      (.inr fun y hy => ((steady_awaits _ _).moved hy hx).faithful)
  have hsummary : sendSummary.Guards (Sparing [.system]) AllFaithful AllFaithful :=
    guards_request steady_allFaithful (fun _ h => h) (.inr fun _ h => h)
  exact hresult.andThen fun _ y hy => hsummary.andThen hy fun _ z hz => Calls.ensures_pure hz

/-- Every result of `execute_task` tells how its task ended. -/
theorem ensures_executeTask (task : AgentTask) (hx : Awaits none .failed x) :
    (executeTask py host settings runDirName task).Ensures (Sparing [.system])
      (fun _ => AllFaithful) (fun _ => AllFaithful) x := by
  have hsteady := steady_awaits none .failed
  have hboot : getBootId.Guards (Sparing [.system]) (Awaits none .failed) AllFaithful :=
    guards_getBootId hsteady system_not_refused
  refine hboot.andThen hx fun bootId y hy => Calls.ensures_bind (Calls.ensures_read ?_)
  refine (guards_systemCalls 1 hsteady system_not_refused).andThen hy fun _ z hz => ?_
  have hattempt : ((attemptTask py host settings task bootId (y.clock / 1000000)
      (runDirOf host settings runDirName task.taskId)).tryCatch fun _ =>
        pure (.failed none) : AgentProg Attempt).Ensures (Sparing [.system]) Attempt.Leaves
        (fun _ => AllFaithful) z :=
    Calls.ensures_tryCatch (Calls.ensures_mono (ensures_attemptTask task bootId _ hz)
      (fun _ _ h => h) fun _ _ h => Calls.ensures_pure h)
  refine hattempt.andThen fun attempt w hw => ?_
  refine (ensures_afterTimeout _ hw).andThen fun _ v hv => ?_
  refine Calls.ensures_bind (Calls.ensures_read ?_)
  refine (guards_cleanUp _ _).andThen hv fun _ u hu => ?_
  cases attempt with
  | native => exact Calls.ensures_pure hu.faithful
  | exited pid code => exact ensures_reportOutcome hu (fun h => by cases h) rfl rfl rfl
  | timedOut pid => exact ensures_reportOutcome hu (fun h => by cases h) rfl rfl rfl
  | failed pid => exact ensures_reportOutcome hu (fun _ => rfl) rfl rfl rfl

/-- An ending is reported in one way. -/
theorem Ending.Reported.unique {e : Ending} {status status' : FinalStatus} (h : e.Reported status)
    (h' : e.Reported status') : status = status' := by
  cases e with
  | itself code => exact h.trans h'.symm
  | terminated reason code => cases reason <;> exact h.trans h'.symm

theorem TaskReport.Faithful.tells {r : TaskReport} {e : Ending} (h : r.Faithful x)
    (he : r.TellsOf e x) : e.Reported r.finalStatus := by
  unfold TaskReport.Faithful at h
  unfold TaskReport.TellsOf at he
  cases hpid : r.pid with
  | none =>
      rw [hpid] at h he
      obtain ⟨hcode, rfl⟩ := he
      exact h hcode
  | some pid =>
      rw [hpid] at h he
      obtain ⟨e', he', hreported⟩ := h
      rwa [← Option.some.inj (he'.symm.trans he)]

/-- What a single heartbeat reports tells how the task ended. -/
theorem executeTask_tells {task : AgentTask} {e : Ending}
    (h : Reports (executeTask py host settings runDirName task) e status) : e.Reported status := by
  obtain ⟨s, -, hresults, hspared, hprompt, r, hr, htells, rfl⟩ := h
  have hstart : Awaits none .failed s.state :=
    ⟨fun r hr => by simp [hresults] at hr, fun _ hp => by cases hp⟩
  have hrun : (executeTask py host settings runDirName task).Ensures (Sparing [.system])
      (fun _ => AllFaithful) (fun _ => AllFaithful) s.state := ensures_executeTask task hstart
  exact ((hrun.final rfl hspared).2 hprompt r hr).tells htells

end Alone

/-! ## The loop -/

section Looping

variable {J : AgentWorld → Prop} {py : Python} {host : Host} {settings : AgentSettings}
  {runDirName : String → String} {task : AgentTask} {taskId : String} {pid : Nat} {x : AgentWorld}

theorem guards_syncTimes : ∀ n, (syncTimes n).Guards (Sparing [.system]) Supervises Supervises
  | 0 => Calls.guards_pure ()
  | n + 1 =>
      (guards_syncTimes n).bind fun _ =>
        ((guards_syncActiveTask []).bind fun _ => Calls.guards_pure ()).tryCatch fun _ =>
          Calls.guards_pure ()

/-- What the loop reports tells how the process ended. -/
theorem runInLoop_tells {n : Nat} {e : Ending} {status : FinalStatus}
    (h : Reports (runInLoop py host settings runDirName task n) e status) : e.Reported status := by
  obtain ⟨s, hidle, hresults, hspared, hprompt, r, hr, htells, rfl⟩ := h
  have hstart : Supervises s.state :=
    ⟨fun _ r hr => by simp [hresults] at hr, fun state hstate => by simp [hidle] at hstate⟩
  have hloop : (runInLoop py host settings runDirName task n).Guards (Sparing [.system]) Supervises
      Supervises := (supervises_startBackgroundTask task).bind fun _ => guards_syncTimes n
  have hend := ((hloop s.state hstart).final rfl hspared).2
  obtain ⟨pid, e', hpid, he', hreported⟩ := hend.1 hprompt r hr
  simp only [TaskReport.TellsOf, hpid] at htells
  rwa [← Option.some.inj (he'.symm.trans htells)]

/-- The loop looks after the task, or has reported it. -/
structure Kept (taskId : String) (pid : Nat) (x : AgentWorld) : Prop where
  supervised : Supervises x
  tracked : Tracks (fun _ => True) taskId pid x ∨ Oversees (fun _ => True) (Told taskId pid) x

/-- Nothing is refused. -/
abbrev Spared : Moment AgentMove AgentCall → Prop := Sparing [.system, .event, .upload, .result]

theorem not_refusable_spared (k : AgentCall) : ¬ Refusable Spared k :=
  not_refusable_sparing (by cases k <;> simp)

theorem not_left {Q : AgentWorld → Prop} : ¬ Left Spared Q taskId pid x := by
  rintro ⟨hupload | hresult, -⟩
  · exact not_refusable_spared .upload hupload
  · exact not_refusable_spared .result hresult

/-- The process of a task on file is registered. -/
theorem Supervises.lookup {Q : AgentWorld → Prop} (h : Supervises x) (htracks : Tracks Q taskId pid x) :
    x.activeProcesses.lookup taskId = some pid := by
  obtain ⟨state, hstate, rfl, rfl⟩ := htracks.current
  exact (h.2 state hstate).active

/-- When nothing is refused, `sync_active_task` settles the record, or its process runs. -/
theorem ensures_syncSpared {Q : AgentWorld → Prop} (hQ : Lasting Q) (hid : taskId ≠ "")
    (hx : Supervises x) (htracks : Tracks Q taskId pid x) :
    (syncActiveTask []).Ensures Spared
      (fun _ y => Concluded Q taskId pid y ∨ Tracks Q taskId pid y ∧ ¬ HasExited pid y)
      (fun _ _ => False) x := by
  have hsync := ensures_syncActiveTask (not_refusable_spared .system) hQ [] hid htracks
    (R := False) (.inl (hx.lookup htracks))
  refine Calls.ensures_mono hsync (fun _ y hy => ?_) fun _ y hy => not_left hy
  exact hy.imp_right fun h => ⟨h.1, h.2.resolve_left id⟩

theorem guards_syncOnce (hid : taskId ≠ "") :
    syncOnce.Guards Spared (Kept taskId pid) J := by
  intro x hx
  have hsupervised := guards_syncActiveTask [] x hx.supervised
  have htracked : (syncActiveTask []).Ensures Spared
      (fun _ y => Tracks (fun _ => True) taskId pid y ∨
        Oversees (fun _ => True) (Told taskId pid) y)
      (fun _ y => Tracks (fun _ => True) taskId pid y ∨
        Oversees (fun _ => True) (Told taskId pid) y) x := by
    rcases hx.tracked with htracks | htold
    · refine Calls.ensures_mono (ensures_syncSpared lasting_true hid hx.supervised htracks)
        (fun _ y hy => ?_) fun _ _ hy => hy.elim
      exact hy.symm.imp And.left fun h => oversees_of_none h.current h.told
    · exact Calls.ensures_mono
        (guards_sync (not_refusable_spared .system) (lasting_told taskId pid) [] x htold)
        (fun _ _ hy => .inr hy) fun _ _ hy => .inr hy
  have hspared : ∀ m : Moment AgentMove AgentCall, Spared m → Sparing [.system] m :=
    fun m hm k hk => hm k (by simp_all)
  refine Calls.ensures_tryCatch ?_
  refine Calls.ensures_bind (Calls.ensures_mono (Calls.ensures_and hspared hsupervised htracked)
    (fun _ y hy => ?_) fun _ y hy => ?_)
  · exact Calls.ensures_pure ⟨hy.1, hy.2⟩
  · exact Calls.ensures_pure ⟨hy.1, hy.2⟩

/-- An iteration reports the task if its process has exited. -/
theorem ensures_syncOnce_told (hid : taskId ≠ "") (hx : Kept taskId pid x)
    (hexited : HasExited pid x) : syncOnce.Ensures Spared (fun _ => Told taskId pid) (fun _ => J) x := by
  refine Calls.ensures_tryCatch (Calls.ensures_bind ?_)
  rcases hx.tracked with htracks | htold
  · refine Calls.ensures_mono (ensures_syncSpared (lasting_hasExited pid) hid hx.supervised
      (htracks.imp fun _ => hexited)) (fun _ y hy => ?_) fun _ _ hy => hy.elim
    rcases hy with hdone | ⟨hy, hruns⟩
    · exact Calls.ensures_pure hdone.told
    · exact absurd hy.lasting hruns
  · exact Calls.ensures_mono
      (guards_sync (not_refusable_spared .system) (lasting_told taskId pid) [] x htold)
      (fun _ _ hy => Calls.ensures_pure hy.lasting) fun _ _ hy => Calls.ensures_pure hy.lasting

theorem guards_syncTimes_kept (hid : taskId ≠ "") :
    ∀ n, (syncTimes n).Guards Spared (Kept taskId pid) fun _ => False
  | 0 => Calls.guards_pure ()
  | n + 1 => (guards_syncTimes_kept hid n).bind fun _ => guards_syncOnce hid

/-- The next iteration reports a process that has exited. -/
theorem syncTimes_told (hid : taskId ≠ "") {s : AgentScene} (hspared : s.Under Spared)
    (hkept : Kept taskId pid s.state) {n : Nat} (hexited : HasExited pid (syncTimes n s).2.state) :
    Told taskId pid (syncTimes (n + 1) s).2.state := by
  have hwp : (syncTimes (n + 1)).wp (fun _ t => Told taskId pid t.state)
      (fun _ t => Told taskId pid t.state) s := by
    show (syncTimes n >>= fun _ => syncOnce).wp _ _ s
    rw [Calls.wp_bind]
    have hthere : (syncTimes n).wp (fun _ t => HasExited pid t.state)
        (fun _ t => HasExited pid t.state) s :=
      (Calls.wp_end (I := fun t => HasExited pid t.state)).mpr hexited
    refine Calls.wp_mono (Calls.wp_and (guards_syncTimes_kept hid n s.state hkept s rfl hspared)
      hthere) (fun _ t ht => ?_) fun _ t ht => ht.1.2.elim
    obtain ⟨⟨hunder, hkept⟩, hexited⟩ := ht
    exact Calls.wp_mono (ensures_syncOnce_told hid hkept hexited t rfl hunder)
      (fun _ _ h => h.2) fun _ _ h => h.2
  exact (Calls.wp_end (I := fun t => Told taskId pid t.state)).mp hwp

/-- When nothing is refused, the loop starts a task whose command can be built, and reports it once
its process has exited. -/
theorem runInLoop_completes (hid : task.taskId ≠ "")
    (hbuildable : Buildable py host settings runDirName task) :
    RunsInLoop py host settings runDirName task := by
  intro s hidle hresults hspared
  have hgranted : Calls.grants (startCalls py host settings runDirName task) s.moments = true :=
    Calls.grants_of_sparing (fun k _ => by cases k <;> simp) hspared
  obtain ⟨state, hstate⟩ := startBackgroundTask_returns.mpr ⟨hbuildable, hgranted⟩
  rcases hrun : startBackgroundTask py host settings runDirName task s with ⟨result, s'⟩
  rw [hrun] at hstate
  obtain rfl : result = .ok state := hstate
  refine ⟨state, s', rfl, fun n => ?_⟩
  have hspared' : s.Under (Sparing [.system]) := fun n k hk => hspared n k (by simp_all)
  obtain ⟨htask, hcurrent, -⟩ := Calls.wp_of_eq_ok (startBackgroundTask_wp s) hrun
  -- The agent looks after the task from now on.
  have hidle' : Supervises s.state :=
    ⟨fun _ r hr => by simp [hresults] at hr, fun state hstate => by simp [hidle] at hstate⟩
  have hsupervised :=
    (Calls.wp_of_eq_ok (supervises_startBackgroundTask task s.state hidle' s rfl hspared') hrun).2
  have hoversees := Calls.wp_of_eq_ok (guards_startBackgroundTask (P := fun _ => True)
    (not_refusable_spared .system) lasting_true (fun _ _ => trivial) task s.state
    (oversees_of_none hidle trivial) s rfl hspared) hrun
  have htracks := (hoversees.2.tracked state hcurrent).2
  rw [htask] at htracks
  exact syncTimes_told hid hoversees.1 ⟨hsupervised, .inl htracks⟩

end Looping

/-! ## Which tasks both paths execute -/

section Agreement

variable {py : Python} {host : Host} {settings : AgentSettings} {runDirName : String → String}
  {task : AgentTask}

/-- There is no native work for a command. -/
theorem yields_nativeTask (hhealth : task.type ≠ .healthCheck) (hnative : task.type.isNative = false) :
    (nativeTask py host settings task.toNativeTask).Yields fun report => report = none := by
  have hnone : executeNativeTask py settings.toAgentDirs host.cwd task.toNativeTask = pure none := by
    unfold executeNativeTask
    cases htype : task.type <;> simp_all [TaskType.isNative]
  intro s
  refine Calls.wp_step (fun report x h => ?_) fun _ _ _ => trivial
  rw [hnone] at h
  cases h
  rfl

/-- `execute_task` executes no command that cannot be built. -/
theorem raises_attemptTask {bootId : String} {startedAt : Nat} (hhealth : task.type ≠ .healthCheck)
    (hnative : task.type.isNative = false)
    (h : ¬ Buildable py host settings runDirName task) :
    (attemptTask py host settings task bootId startedAt
      (runDirOf host settings runDirName task.taskId)).Raises := by
  intro s
  unfold attemptTask
  rw [Calls.wp_bind]
  refine Calls.wp_mono (yields_nativeTask hhealth hnative s) (fun report t hreport => ?_)
    fun _ _ _ => trivial
  rw [hreport]
  exact (raises_prepareCommand h).bind_left _ t

/-- What `execute_task` executes as a command, or as a health check, can be built. -/
theorem buildable_of_executes (hnative : task.type.isNative = false)
    (h : ExecutesAlone py host settings runDirName task) :
    Buildable py host settings runDirName task := by
  by_cases hhealth : task.type = .healthCheck
  · have hdraft : (draftOf py host settings runDirName task >>= Draft.finish).isOk = true := by
      simp only [draftOf, draftCommand, hhealth]
      rfl
    exact ⟨fun hmodal => by simp [hhealth] at hmodal, hdraft⟩
  · by_contra hnot
    obtain ⟨bootId, startedAt, s, attempt, hok, -⟩ := h
    exact (raises_attemptTask hhealth hnative hnot).fst_ne_ok s attempt hok

/-- The loop has no command for a native task. -/
theorem not_buildable (h : task.type.isNative = true) :
    ¬ Buildable py host settings runDirName task := by
  rintro ⟨-, hok⟩
  have hdraft : ∃ e, draftOf py host settings runDirName task = .error e := draftCommand_native h
  obtain ⟨e, he⟩ := hdraft
  rw [he] at hok
  cases hok

/-- The loop raises when it starts a native task. -/
theorem not_runsInLoop (h : task.type.isNative = true) :
    ¬ RunsInLoop py host settings runDirName task := by
  intro hruns
  obtain ⟨state, s', hstate, -⟩ := hruns { state := {} } rfl rfl fun _ _ _ => List.not_mem_nil
  exact (raises_startBackgroundTask (not_buildable h)).fst_ne_ok _ state (congrArg Prod.fst hstate)

/-- The loop agrees with `execute_task` on a task that this executes exactly if it is no native file
task. -/
theorem loopAgrees_iff (py : Python) (host : Host) (settings : AgentSettings)
    (runDirName : String → String) (task : AgentTask) (hid : task.taskId ≠ "")
    (hexecutes : ExecutesAlone py host settings runDirName task) :
    LoopAgrees py host settings runDirName task ↔ task.type.isNative = false := by
  constructor
  · intro h
    by_contra hnative
    exact not_runsInLoop (Bool.not_eq_false _ ▸ hnative) h.1
  · intro hnative
    refine ⟨runInLoop_completes hid (buildable_of_executes hnative hexecutes), ?_⟩
    intro e status status' n halone hloop
    exact (executeTask_tells halone).unique (runInLoop_tells hloop)

/-- What the `try` block of `execute_task` does with a task on a node without programs and files. -/
def bareAttempt (task : AgentTask) : Except AgentError Attempt :=
  (attemptTask plainPython bareHost {} task "" 0 (runDirOf bareHost {} id task.taskId)
    { state := {} }).1

theorem executesAlone_of_bareAttempt
    (h : (bareAttempt task).toOption.any Attempt.executes = true) :
    ExecutesAlone plainPython bareHost {} id task := by
  cases hattempt : bareAttempt task with
  | error e =>
      rw [hattempt] at h
      cases h
  | ok attempt =>
      rw [hattempt] at h
      exact ⟨"", 0, { state := {} }, attempt, hattempt, h⟩

/-- A health check is native on one path and a command on the other. -/
theorem loopAgrees_healthTask : LoopAgrees plainPython bareHost {} id healthTask :=
  (loopAgrees_iff plainPython bareHost {} id healthTask (by decide)
    (executesAlone_of_bareAttempt (by decide +kernel))).mpr rfl

/-- A single heartbeat makes the directory, and the loop does not. -/
theorem mkdirTask_disagrees :
    ¬ ∀ (py : Python) (host : Host) (settings : AgentSettings) (runDirName : String → String)
        (task : AgentTask), task.taskId ≠ "" → ExecutesAlone py host settings runDirName task →
      LoopAgrees py host settings runDirName task := by
  intro h
  have hmkdir : ExecutesAlone plainPython bareHost {} id mkdirTask :=
    executesAlone_of_bareAttempt (by decide +kernel)
  exact not_runsInLoop rfl (h plainPython bareHost {} id mkdirTask (by decide) hmkdir).1

end Agreement

end GpuFleet
