import GpuFleet.Agent.Completion

/-!
# Stopping the agent

A signal ends the loop after its current iteration.  Then the agent asks its processes
to end, kills those that do not end in time, marks the record on file as cancelled,
and reports it as it reports an orphan.  Any of this may fail: a killed process may
not end, which raises out of the loop, and requests may be refused, which leaves the
record for the next start.

A stop that returns has ended every process it had registered, and from then on its
task is reported as cancelled or not at all, whatever happens in later iterations,
stops and starts.  It is completed by the stop, or by the first later iteration in
which no request is refused (`stopped_tasks_cancelled`).  What carries this is
`Withdrawn`: the process has ended, nothing but its cancellation was reported since,
and a record of it says that it was cancelled and has no process registered.
-/

namespace GpuFleet

open Foundations

/-! ## Stopping -/

/-- `proc.send_signal(SIGTERM)` and `proc.kill()`.  When the process ends is up to the
environment. -/
def sendSignal : AgentProg Unit := systemCalls 1

/-- `proc.wait(timeout=...)` -/
def waitProcess (pid : Nat) : AgentProg Unit := do
  let _ ← communicate pid
  pure ()

/-- The first loop of `_terminate_active_processes`. -/
def askToEnd : AgentProg Unit := sendSignal.tryCatch fun _ : AgentError => pure ()

/-- The second loop: a process that does not end in time is killed. -/
def awaitEnd (pid : Nat) : AgentProg Unit :=
  (waitProcess pid).tryCatch fun _ : AgentError =>
    (do
      sendSignal
      waitProcess pid).tryCatch fun e =>
        match e with
        -- `subprocess.TimeoutExpired` is no `OSError`.
        | .timeoutExpired => Calls.raise AgentError.timeoutExpired
        | _ => pure ()

/-- `_terminate_active_processes` -/
def terminateActiveProcesses : AgentProg Unit := do
  let active ← Calls.read AgentWorld.activeProcesses
  Calls.forEach active fun _ => askToEnd
  Calls.forEach active fun p => awaitEnd p.2

/-- What `_finalize_shutdown_task` makes of the record. -/
def CurrentTask.marked (state : CurrentTask) : CurrentTask := { state with cancelRequested := true }

/-- `_finalize_shutdown_task` -/
def finalizeShutdownTask : AgentProg Unit := do
  match ← loadCurrentTask with
  | none => pure ()
  | some state =>
      setCurrentTask (some state.marked)
      Calls.update AgentWorld.restart
      recoverOrphanedTask.tryCatch fun _ => pure ()

/-- `run_loop` after its loop. -/
def stopAgent : AgentProg Unit := do
  terminateActiveProcesses
  finalizeShutdownTask

/-- What an agent goes through: an iteration of its loop, or a stop. -/
inductive AgentPhase where
  | iteration (i : Iteration)
  | stop (moments : Nat → Moment AgentMove AgentCall)

namespace AgentPhase

/-- What happens before each call. -/
def moments : AgentPhase → Nat → Moment AgentMove AgentCall
  | iteration i => i.moments
  | stop moments => moments

/-- None of these calls is refused. -/
def Spares (phase : AgentPhase) (ks : List AgentCall) : Prop := ∀ n, Sparing ks (phase.moments n)

section Run

variable (py : Python) (host : Host) (settings : AgentSettings) (runDirName : String → String)

/-- The world after it.  Who was stopped, whether or not the stop raised, starts anew. -/
def run : AgentPhase → AgentWorld → AgentWorld
  | iteration i, x => i.run py host settings runDirName x
  | stop moments, x => (stopAgent { state := x, moments }).2.state.restart

end Run

end AgentPhase

/-- The world after this many phases. -/
def worldThrough (py : Python) (host : Host) (settings : AgentSettings) (runDirName : String → String)
    (phases : Nat → AgentPhase) (x : AgentWorld) : Nat → AgentWorld
  | 0 => x
  | n + 1 => (phases n).run py host settings runDirName
      (worldThrough py host settings runDirName phases x n)

/-! ## The processes -/

section Processes

variable {E : Moment AgentMove AgentCall → Prop} {I J : AgentWorld → Prop} {x : AgentWorld} {pid : Nat}

/-- A process that was waited for has ended, or the time is over. -/
theorem ensures_waitProcess (hE : ¬ Refusable E .system) (hI : Steady I) (hx : I x) :
    (waitProcess pid).Ensures E (fun _ y => I y ∧ HasExited pid y)
      (fun e y => e = .timeoutExpired ∧ I y) x := by
  have hcommunicate : (communicate pid).Ensures E (fun _ y => I y ∧ HasExited pid y)
      (fun e y => e = .timeoutExpired ∧ I y) x := by
    refine Calls.ensures_call (fun y hy a z h => ?_) (fun y hy e z h => ?_) (.inl hE)
    · cases hending : y.ending pid with
      | none => simp [hending] at h
      | some e =>
          simp only [hending] at h
          cases h
          exact ⟨hI.moved hy hx, by simp [HasExited, hending]⟩
    · cases hending : y.ending pid with
      | none =>
          simp only [hending] at h
          cases h
          exact ⟨rfl, hI.moved hy hx⟩
      | some e => simp [hending] at h
  exact hcommunicate.andThen fun _ y hy => Calls.ensures_pure hy

theorem guards_sendSignal (hE : ¬ Refusable E .system) (hI : Steady I) : sendSignal.Guards E I J :=
  guards_systemCalls 1 hI (.inl hE)

theorem guards_askToEnd (hE : ¬ Refusable E .system) (hI : Steady I) : askToEnd.Guards E I J :=
  (guards_sendSignal hE hI).tryCatch fun _ => Calls.guards_pure ()

/-- A process has ended once `awaitEnd` returns. -/
theorem ensures_awaitEnd (hE : ¬ Refusable E .system) (hI : Steady I) (hx : I x) :
    (awaitEnd pid).Ensures E (fun _ y => I y ∧ HasExited pid y) (fun _ => I) x := by
  refine Calls.ensures_tryCatch (Calls.ensures_mono (ensures_waitProcess hE hI hx)
    (fun _ _ h => h) fun _ y hy => ?_)
  refine Calls.ensures_tryCatch ?_
  have hsignal : sendSignal.Ensures E (fun _ => I) (fun e z => e = AgentError.timeoutExpired ∧ I z) y :=
    Calls.ensures_mono (guards_sendSignal (J := fun _ => False) hE hI y hy.2) (fun _ _ h => h)
      fun _ _ h => h.elim
  refine Calls.ensures_mono (hsignal.andThen fun _ z hz => ensures_waitProcess hE hI hz)
    (fun _ _ h => h) fun e z hz => ?_
  obtain ⟨rfl, hz⟩ := hz
  exact Calls.ensures_raise hz

/-- Each process in the list has ended after the second loop. -/
theorem ensures_awaitAll (hE : ¬ Refusable E .system) (l : List (String × Nat)) (hI : Steady I)
    (hx : I x) :
    (Calls.forEach l fun p => awaitEnd p.2 : AgentProg Unit).Ensures E
      (fun _ y => I y ∧ ∀ p ∈ l, HasExited p.2 y) (fun _ => I) x := by
  induction l generalizing I x with
  | nil => exact Calls.ensures_pure ⟨hx, fun _ hp => by cases hp⟩
  | cons p l ih =>
      have hsteady : Steady fun y => I y ∧ HasExited p.2 y := fun a y hy =>
        ⟨hI a y hy.1, (lasting_hasExited p.2).steady a y hy.2⟩
      refine (ensures_awaitEnd hE hI hx).andThen fun _ y hy => ?_
      refine Calls.ensures_mono (ih hsteady hy) (fun _ z hz => ?_) fun _ _ hz => hz.1
      exact ⟨hz.1.1, List.forall_mem_cons.mpr ⟨hz.1.2, hz.2⟩⟩

/-- `_terminate_active_processes` returns only if every registered process has ended, and changes
nothing by itself. -/
theorem ensures_terminateActiveProcesses (hE : ¬ Refusable E .system) (hI : Steady I) (hx : I x) :
    terminateActiveProcesses.Ensures E
      (fun _ y => I y ∧ ∀ p ∈ x.activeProcesses, HasExited p.2 y) (fun _ => I) x := by
  refine Calls.ensures_bind (Calls.ensures_read ?_)
  have hask : (Calls.forEach x.activeProcesses fun _ => askToEnd : AgentProg Unit).Guards E I I :=
    Calls.guards_forEach fun _ _ => guards_askToEnd hE hI
  exact hask.andThen hx fun _ y hy => ensures_awaitAll hE x.activeProcesses hI hy

end Processes

/-! ## What a report needs -/

/-- What the report of a task with this key and status begins with, and what is true afterwards. -/
structure Reportable (k : TaskKey) (finalStatus : FinalStatus) (I J : AgentWorld → Prop) : Prop
    extends Loggable k I where
  report : ∀ x (r : TaskReport), r.pid = some k.pid → r.finalStatus = finalStatus → I x →
    I { x with results := x.results ++ [r] }
  attach : ∀ x artifact, I x → I { x with artifacts := x.artifacts ++ [artifact] }
  pop : ∀ x taskId, I x →
    I { x with activeProcesses := x.activeProcesses.filter fun p => p.1 ≠ taskId }
  forget : ∀ x, I x → J { x with currentTask := none }
  weaken : ∀ x, I x → J x

section Report

variable {E : Moment AgentMove AgentCall → Prop} {I J : AgentWorld → Prop} {k : TaskKey}
  {state : CurrentTask} {finalStatus : FinalStatus} {x : AgentWorld}

theorem Reportable.finalize (h : Reportable k finalStatus I J) (hkey : state.key = k)
    (code : Option Int) (hx : I x) :
    (finalizeBackgroundTask state finalStatus code).Ensures E (fun _ => J) (fun _ => J) x := by
  refine Calls.ensures_bind (Calls.ensures_read ?_)
  refine (ensures_pumpLogs true h.toLoggable (.inr h.weaken) (.inr h.weaken) hkey hx).andThen
    fun state' y hy => ?_
  obtain ⟨hkey', hy⟩ := hy
  refine (guards_systemCalls 2 h.steady (.inr h.weaken)).andThen hy fun _ z hz => ?_
  have hresult : (sendTaskResult
      { taskId := state'.taskId, finalStatus, exitCode := code, bootId := state'.bootId
        pid := state'.pid, startedAt := state'.startedAt
        finishedAt := x.clock / 1000000 }).Guards E I J :=
    guards_request h.steady (fun w hw => h.report w _
      (congrArg some (congrArg TaskKey.pid hkey')) rfl hw) (.inr h.weaken)
  have hsummary : sendSummary.Guards E I J :=
    guards_request h.steady (fun w hw => h.attach w _ hw) (.inr h.weaken)
  have hpop : (popProcess state'.taskId).Guards E I J :=
    Calls.guards_update fun w hw => h.pop w _ hw
  refine hresult.andThen hz fun _ w hw => hsummary.andThen hw fun _ v hv => ?_
  refine hpop.andThen hv fun _ u hu => ?_
  refine (guards_clearLogOffsets h.toLoggable (.inr h.weaken)).andThen hu fun _ t ht => ?_
  have hforget : (setCurrentTask none).Ensures E (fun _ => J) (fun _ => J) t :=
    ensures_systemCall (fun r hr => h.forget r (h.steady.moved hr ht))
      (.inr fun r hr => h.weaken r (h.steady.moved hr ht))
  exact hforget.andThen fun _ r hr => Calls.ensures_pure hr

/-- The record that `load_current_task` finds. -/
theorem ensures_load (hI : Steady I) (hx : I x) :
    loadCurrentTask.Ensures E (fun current y => I y ∧ ∀ state, current = some state →
      y.currentTask = some state ∧ state.taskId ≠ "") (fun _ => I) x := by
  refine ensures_systemCall (fun y hy => ⟨hI.moved hy hx, fun state hstate => ?_⟩)
    (.inr fun y hy => hI.moved hy hx)
  obtain ⟨hcurrent, hid⟩ := Option.filter_eq_some_iff.mp hstate
  exact ⟨hcurrent, of_decide_eq_true hid⟩

/-- `recover_orphaned_task` keeps what the report of an orphan keeps. -/
theorem guards_recoverOrphanedTask_of {K : AgentWorld → Prop} (I : CurrentTask → AgentWorld → Prop)
    (hK : Steady K)
    (hentered : ∀ x state, K x → x.currentTask = some state → state.taskId ≠ "" →
      x.activeProcesses.lookup state.taskId = none → I state x)
    (hreports : ∀ state (s : CurrentTask) x, s.key = state.key → I state x →
      Reportable state.key (s.orphanStatus (x.ending state.pid).isNone) (I state) K) :
    recoverOrphanedTask.Guards E K K := by
  intro x hx
  refine (ensures_load hK hx).andThen fun current y hy => ?_
  obtain ⟨hy, hcurrent⟩ := hy
  cases current with
  | none => exact Calls.ensures_pure hy
  | some state =>
      obtain ⟨hstate, hid⟩ := hcurrent state rfl
      refine Calls.ensures_bind (Calls.ensures_read ?_)
      cases hlookup : y.activeProcesses.lookup state.taskId with
      | some pid => exact Calls.ensures_pure hy
      | none =>
          have hentry := hentered y state hy hstate hid hlookup
          have hsame := hreports state state y rfl hentry
          have halive : (systemCall fun x => ((x.ending state.pid).isNone, x)).Ensures E
              (fun alive z => I state z ∧ ∀ s : CurrentTask, s.key = state.key →
                Reportable state.key (s.orphanStatus alive) (I state) K) (fun _ => K) y :=
            ensures_systemCall (fun z hz => by
              have hI := hsame.steady.moved hz hentry
              exact ⟨hI, fun s hs => hreports state s z hs hI⟩)
              (.inr fun z hz => hsame.weaken z (hsame.steady.moved hz hentry))
          refine halive.andThen fun alive z hz => ?_
          obtain ⟨hz, hreport⟩ := hz
          refine (ensures_pumpLogs true hsame.toLoggable (.inr hsame.weaken) (.inr hsame.weaken) rfl
            hz).andThen fun s w hw => ?_
          obtain ⟨hkey, hw⟩ := hw
          have hsave : (setCurrentTask (some s)).Guards E (I state) K :=
            guards_systemCall hsame.steady (fun v hv => hsame.save v s hkey hv) (.inr hsame.weaken)
          refine hsave.andThen hw fun _ v hv => ?_
          exact ((hreport s hkey).finalize hkey none hv).andThen fun _ u hu => Calls.ensures_pure hu

end Report

/-! ## Withdrawn processes -/

/-- The process has ended, nothing but its cancellation was reported of it after these results, and
a record of it on file says that it was cancelled and has no process registered. -/
structure Withdrawn (told : List TaskReport) (pid : Nat) (x : AgentWorld) : Prop where
  exited : HasExited pid x
  reports : ∀ r ∈ x.results, r.pid = some pid → r ∈ told ∨ r.finalStatus = .cancelled
  marked : ∀ state, x.currentTask = some state → state.taskId ≠ "" → state.pid = pid →
    state.cancelRequested = true ∧ x.activeProcesses.lookup state.taskId = none

/-- The record with this key is being reported. -/
structure Handles (told : List TaskReport) (pid : Nat) (k : TaskKey) (x : AgentWorld) : Prop
    extends Withdrawn told pid x where
  own : k.pid = pid → k.cancelRequested = true ∧ x.activeProcesses.lookup k.taskId = none

section Withdrawn

variable {E : Moment AgentMove AgentCall → Prop} {told : List TaskReport} {pid : Nat} {k : TaskKey}
  {x y : AgentWorld}

theorem Withdrawn.later (h : Withdrawn told pid x) (hxy : Later x y) (hresults : y.results = x.results)
    (hcurrent : y.currentTask = x.currentTask) (hactive : y.activeProcesses = x.activeProcesses) :
    Withdrawn told pid y where
  exited := lasting_hasExited pid x y hxy h.exited
  reports := by rw [hresults]; exact h.reports
  marked := by rw [hcurrent, hactive]; exact h.marked

theorem steady_withdrawn : Steady (Withdrawn told pid) := fun a x h =>
  h.later (later_move a x) (by cases a <;> rfl) (by cases a <;> rfl) (by cases a <;> rfl)

/-- No process is registered once one was taken out. -/
theorem lookup_filter_none {l : List (String × Nat)} {taskId : String} (other : String)
    (h : l.lookup taskId = none) : (l.filter fun p => p.1 ≠ other).lookup taskId = none := by
  rw [List.lookup_eq_none_iff] at h ⊢
  intro p hp
  exact h p (List.mem_filter.mp hp).1

theorem Withdrawn.pop (h : Withdrawn told pid x) (taskId : String) :
    Withdrawn told pid
      { x with activeProcesses := x.activeProcesses.filter fun p => p.1 ≠ taskId } where
  exited := h.exited
  reports := h.reports
  marked state hstate hid hpid :=
    ⟨(h.marked state hstate hid hpid).1, lookup_filter_none taskId (h.marked state hstate hid hpid).2⟩

/-- A record is saved that is not of the process, or says that it was cancelled. -/
theorem Withdrawn.save (h : Withdrawn told pid x) {state : CurrentTask}
    (hown : state.pid = pid → state.cancelRequested = true ∧
      x.activeProcesses.lookup state.taskId = none) :
    Withdrawn told pid { x with currentTask := some state } where
  exited := h.exited
  reports := h.reports
  marked s hs _ hpid := by
    obtain rfl : state = s := Option.some.inj hs
    exact hown hpid

theorem Withdrawn.restart (h : Withdrawn told pid x) : Withdrawn told pid x.restart where
  exited := h.exited
  reports := h.reports
  marked state hstate hid hpid := ⟨(h.marked state hstate hid hpid).1, rfl⟩

theorem loggable_handles : Loggable k (Handles told pid k) where
  steady a x h := ⟨steady_withdrawn a x h.toWithdrawn, by cases a <;> exact h.own⟩
  ack _ _ _ _ h := ⟨h.later (later_of_eq rfl rfl) rfl rfl rfl, h.own⟩
  send _ _ h := ⟨h.later (later_of_eq rfl rfl) rfl rfl rfl, h.own⟩
  save x s hkey h := by
    refine ⟨h.toWithdrawn.save fun hpid => ?_, h.own⟩
    rw [← hkey] at h
    exact h.own hpid

/-- The report of a record: if it is of the process, it says that it was cancelled. -/
theorem reportable_handles {finalStatus : FinalStatus}
    (hstatus : k.pid = pid → finalStatus = .cancelled) :
    Reportable k finalStatus (Handles told pid k) (Withdrawn told pid) where
  toLoggable := loggable_handles
  report x r hpid hfinal h := by
    refine ⟨⟨h.exited, fun r' hr' hr'pid => ?_, h.marked⟩, h.own⟩
    rcases List.mem_append.mp hr' with hold | hnew
    · exact h.reports r' hold hr'pid
    · obtain rfl := List.mem_singleton.mp hnew
      right
      rw [hfinal]
      exact hstatus (Option.some.inj (hpid.symm.trans hr'pid))
  attach _ _ h := ⟨h.later (later_of_eq rfl rfl) rfl rfl rfl, h.own⟩
  pop x taskId h := ⟨h.toWithdrawn.pop taskId, fun hpid =>
    ⟨(h.own hpid).1, lookup_filter_none taskId (h.own hpid).2⟩⟩
  forget x h := ⟨h.exited, h.reports, fun _ hs => by cases hs⟩
  weaken _ h := h.toWithdrawn

/-- An orphan that has ended and was cancelled is reported as cancelled. -/
theorem guards_recover_withdrawn :
    recoverOrphanedTask.Guards E (Withdrawn told pid) (Withdrawn told pid) := by
  refine guards_recoverOrphanedTask_of (fun state => Handles told pid state.key) steady_withdrawn
    (fun x state h hstate hid _ => ⟨h, h.marked state hstate hid⟩) fun state s x hkey h => ?_
  refine reportable_handles fun hpid => ?_
  have hstate : state.pid = pid := hpid
  obtain ⟨e, he⟩ := Option.isSome_iff_exists.mp h.exited
  have hcancelled : s.cancelRequested = true :=
    (congrArg TaskKey.cancelRequested hkey).trans (h.own hpid).1
  simp [CurrentTask.orphanStatus, hstate, he, hcancelled]

/-- What is done for the record of another process. -/
theorem guards_systemCall_other {α : Type} {f : AgentWorld → α × AgentWorld}
    (hf : ∀ x, Handles told pid k x → Handles told pid k (f x).2) :
    (systemCall f).Guards E (Handles told pid k) (Withdrawn told pid) :=
  guards_systemCall loggable_handles.steady hf (.inr fun _ h => h.toWithdrawn)

theorem Handles.terminate (h : Handles told pid k x) (p : Nat) (reason : Termination) :
    Handles told pid k (x.terminate p reason) :=
  ⟨h.later (later_terminate x p reason) rfl rfl rfl, h.own⟩

/-- A record of another process is saved. -/
theorem Handles.save (h : Handles told pid k x) {state : CurrentTask} (hother : state.pid ≠ pid) :
    Handles told pid k { x with currentTask := some state } :=
  ⟨h.toWithdrawn.save fun hpid => absurd hpid hother, h.own⟩

theorem Handles.of_other (h : Withdrawn told pid x) (hother : k.pid ≠ pid) : Handles told pid k x :=
  ⟨h, fun hpid => absurd hpid hother⟩

theorem ensures_cancel_other (controls : List TaskControl) {state : CurrentTask} (p : Nat)
    (hother : state.pid ≠ pid) (hx : Withdrawn told pid x) :
    (requestCancel controls state p).Ensures E (fun s y => s.pid ≠ pid ∧ Withdrawn told pid y)
      (fun _ => Withdrawn told pid) x := by
  have hx := Handles.of_other (k := state.key) hx hother
  unfold requestCancel
  split
  · have hsave : (setCurrentTask (some { state with cancelRequested := true })).Guards E
        (Handles told pid state.key) (Withdrawn told pid) :=
      guards_systemCall_other fun _ h => h.save hother
    have hterminate : (terminateProcessTree p .cancel).Guards E (Handles told pid state.key)
        (Withdrawn told pid) := guards_systemCall_other fun _ h => h.terminate p .cancel
    refine hsave.andThen hx fun _ y hy => hterminate.andThen hy fun _ z hz => ?_
    exact Calls.ensures_pure ⟨hother, hz.toWithdrawn⟩
  · exact Calls.ensures_pure ⟨hother, hx.toWithdrawn⟩

theorem ensures_timeout_other {state : CurrentTask} (p : Nat) (hother : state.pid ≠ pid)
    (hx : Withdrawn told pid x) :
    (checkTimeout state p).Ensures E (fun s y => s.pid ≠ pid ∧ Withdrawn told pid y)
      (fun _ => Withdrawn told pid) x := by
  have hx := Handles.of_other (k := state.key) hx hother
  have hpoll : (pollProcess p).Guards E (Handles told pid state.key) (Withdrawn told pid) :=
    guards_systemCall_other fun _ h => h
  refine hpoll.andThen hx fun polled y hy => ?_
  cases polled with
  | some code => exact Calls.ensures_pure ⟨hother, hy.toWithdrawn⟩
  | none =>
      have hclock : (systemCall fun x => (x.clock, x)).Guards E (Handles told pid state.key)
          (Withdrawn told pid) := guards_systemCall_other fun _ h => h
      refine hclock.andThen hy fun now z hz => ?_
      show (if state.overdue now = true then _ else _ : AgentProg CurrentTask).Ensures _ _ _ z
      split
      · have hterminate : (terminateProcessTree p .timeout).Guards E (Handles told pid state.key)
            (Withdrawn told pid) := guards_systemCall_other fun _ h => h.terminate p .timeout
        have hsave : (setCurrentTask (some { state with timedOut := true })).Guards E
            (Handles told pid state.key) (Withdrawn told pid) :=
          guards_systemCall_other fun _ h => h.save hother
        refine hterminate.andThen hz fun _ w hw => hsave.andThen hw fun _ v hv => ?_
        exact Calls.ensures_pure ⟨hother, hv.toWithdrawn⟩
      · exact Calls.ensures_pure ⟨hother, hz.toWithdrawn⟩

/-- The task that `sync_active_task` looks after is another one. -/
theorem guards_sync_withdrawn (controls : List TaskControl) :
    (syncActiveTask controls).Guards E (Withdrawn told pid) (Withdrawn told pid) := by
  intro x hx
  refine (ensures_load steady_withdrawn hx).andThen fun current y hy => ?_
  obtain ⟨hy, hcurrent⟩ := hy
  cases current with
  | none => exact Calls.ensures_pure hy
  | some state =>
      obtain ⟨hstate, hid⟩ := hcurrent state rfl
      refine Calls.ensures_bind (Calls.ensures_read ?_)
      cases hlookup : y.activeProcesses.lookup state.taskId with
      | none => exact Calls.ensures_pure hy
      | some p =>
          have hother : state.pid ≠ pid := fun hpid => by
            rw [(hy.marked state hstate hid hpid).2] at hlookup
            cases hlookup
          refine (ensures_cancel_other controls p hother hy).andThen fun s z hz => ?_
          obtain ⟨hsother, hz⟩ := hz
          have hI : Loggable s.key (Handles told pid s.key) := loggable_handles
          refine (ensures_pumpLogs false hI (.inr fun _ h => h.toWithdrawn)
            (.inr fun _ h => h.toWithdrawn) rfl (.of_other hz hsother)).andThen fun s' w hw => ?_
          obtain ⟨hkey, hw⟩ := hw
          have hs'other : s'.pid ≠ pid := fun hpid =>
            hsother ((congrArg TaskKey.pid hkey).symm.trans hpid)
          refine (ensures_timeout_other p hs'other hw.toWithdrawn).andThen fun s'' v hv => ?_
          obtain ⟨hs''other, hv⟩ := hv
          have hpoll : (pollProcess p).Guards E (Withdrawn told pid) (Withdrawn told pid) :=
            guards_systemCall steady_withdrawn (fun _ h => h) (.inr fun _ h => h)
          refine hpoll.andThen hv fun polled u hu => ?_
          cases polled with
          | none => exact Calls.ensures_pure hu
          | some code =>
              refine ((reportable_handles (k := s''.key) fun hpid => absurd hpid hs''other).finalize
                rfl _ (.of_other hu hs''other)).andThen fun _ t ht => Calls.ensures_pure ht

variable {py : Python} {host : Host} {settings : AgentSettings} {runDirName : String → String}

/-- Moreover, no task is on file. -/
def Spare (told : List TaskReport) (pid : Nat) (x : AgentWorld) : Prop :=
  Withdrawn told pid x ∧ ∀ state, x.currentTask = some state → state.taskId = ""

theorem Spare.later (h : Spare told pid x) (hxy : Later x y) (hresults : y.results = x.results)
    (hcurrent : y.currentTask = x.currentTask) : Spare told pid y := by
  refine ⟨⟨lasting_hasExited pid x y hxy h.1.exited, ?_, fun state hstate hid => ?_⟩, ?_⟩
  · rw [hresults]
    exact h.1.reports
  · exact absurd (h.2 state (hcurrent ▸ hstate)) hid
  · rw [hcurrent]
    exact h.2

theorem preparable_spare : Preparable (Spare told pid) where
  steady a x h := h.later (later_move a x) (by cases a <;> rfl) (by cases a <;> rfl)
  truncate _ _ h := h.later (later_of_eq rfl rfl) rfl rfl
  send _ _ h := h.later (later_of_eq rfl rfl) rfl rfl

theorem HasExited.lt (h : HasExited pid x) : pid < x.processes.length := by
  obtain ⟨e, he⟩ := Option.isSome_iff_exists.mp h
  obtain ⟨p, hp, -⟩ := Option.bind_eq_some_iff.mp he
  exact (List.getElem?_eq_some_iff.mp hp).1

/-- A task that is started has another process. -/
theorem ensures_launch_withdrawn (hE : ¬ Refusable E .system) (task : AgentTask)
    (hx : Spare told pid x) :
    (startBackgroundTask py host settings runDirName task).Ensures E (fun _ => Withdrawn told pid)
      (fun _ => Withdrawn told pid) x := by
  have hlaunch : (launchTask py host settings runDirName task).Ensures E
      (fun state y => (Spare told pid y ∧ state.pid ≠ pid) ∧
        y.activeProcesses.lookup state.taskId = some state.pid ∧
        state.cancelRequested = false ∧ state.timedOut = false)
      (fun _ => Spare told pid) x := by
    refine ensures_launchTask (L := fun p y => Spare told pid y ∧ p ≠ pid) task preparable_spare hE
      (fun y p hy _ => ⟨hy.later (later_popen y p) rfl rfl, Nat.ne_of_gt hy.1.exited.lt⟩)
      (fun p a y hy => ⟨preparable_spare.steady a y hy.1, hy.2⟩)
      (fun y _ _ hy => ⟨hy.1.later (later_of_eq rfl rfl) rfl rfl, hy.2⟩) hx
  refine (Calls.ensures_mono hlaunch (fun _ _ h => h) fun _ _ h => h.1).andThen fun state y hy => ?_
  obtain ⟨⟨hy, hother⟩, -, -, -⟩ := hy
  have hsave : (setCurrentTask (some state)).Guards E (Withdrawn told pid) (Withdrawn told pid) :=
    guards_systemCall steady_withdrawn
      (fun z hz => hz.save fun hpid => absurd hpid hother) (.inr fun _ h => h)
  exact hsave.andThen hy.1 fun _ z hz => Calls.ensures_pure hz

theorem guards_start_withdrawn (hE : ¬ Refusable E .system) (tasks : List AgentTask) :
    (startNew py host settings runDirName tasks).Guards E (Withdrawn told pid)
      (Withdrawn told pid) := by
  have hactive : hasActiveTask.Guards E (Withdrawn told pid) (Withdrawn told pid) :=
    guards_systemCall steady_withdrawn (fun _ h => h) (.inr fun _ h => h)
  have hidle : ∀ x, Withdrawn told pid x → hasActiveTask.Ensures E
      (fun active y => Withdrawn told pid y ∧ (active = false → Spare told pid y))
      (fun _ => Withdrawn told pid) x := by
    intro x hx
    refine ensures_systemCall (fun y hy => ?_) (.inl hE)
    have hy := steady_withdrawn.moved hy hx
    refine ⟨hy, fun hnone => ⟨hy, fun state hstate => ?_⟩⟩
    have hfalse : y.isActive = false := hnone
    rw [AgentWorld.isActive, hstate] at hfalse
    simpa using hfalse
  have hstart : (startTasksBackground py host settings runDirName tasks).Guards E
      (Withdrawn told pid) (Withdrawn told pid) := by
    intro x hx
    refine (hidle x hx).andThen fun active y hy => ?_
    cases active with
    | true => exact Calls.ensures_pure hy.1
    | false =>
        cases tasks.head? with
        | none => exact Calls.ensures_pure hy.1
        | some task =>
            exact (ensures_launch_withdrawn hE task (hy.2 rfl)).andThen fun _ z hz =>
              Calls.ensures_pure hz
  unfold startNew
  split
  · exact Calls.guards_pure _
  · refine hactive.bind fun active => ?_
    split
    · exact Calls.guards_pure _
    · exact hstart.bind fun _ => Calls.guards_pure _

/-- An iteration reports nothing but the cancellation. -/
theorem guards_iteration_withdrawn (hE : ¬ Refusable E .system) (reply : HeartbeatReply) :
    (loopIteration py host settings runDirName reply).Guards E (Withdrawn told pid)
      (Withdrawn told pid) := by
  refine Calls.Guards.tryCatch ?_ fun _ => Calls.guards_pure ()
  refine (guards_recover_withdrawn.tryCatch fun _ => Calls.guards_pure ()).bind fun _ => ?_
  refine (guards_sync_withdrawn reply.taskControls).bind fun _ => ?_
  exact guards_start_withdrawn hE reply.tasks

end Withdrawn

/-! ## What a stop keeps -/

section Stop

variable {E : Moment AgentMove AgentCall → Prop} {I : AgentWorld → Prop} {P : Nat → Prop}
  {Q : AgentWorld → Prop} {told : List TaskReport} {taskId : String} {pid : Nat} {x : AgentWorld}

/-- What outlives a mark on the record, a start and the recovery is kept by a stop. -/
theorem guards_stopAgent_of (hE : ¬ Refusable E .system) (hI : Steady I)
    (hmark : ∀ x state, I x → x.currentTask = some state → state.taskId ≠ "" →
      I { x with currentTask := some state.marked })
    (hrestart : ∀ x, I x → I x.restart)
    (hrecover : (recoverOrphanedTask.tryCatch fun _ : AgentError => pure () : AgentProg Unit).Guards E
      I I) : stopAgent.Guards E I I := by
  intro x hx
  have hends := ensures_terminateActiveProcesses hE hI hx
  refine hends.andThen fun _ y hy => ?_
  refine (ensures_load hI hy.1).andThen fun current z hz => ?_
  obtain ⟨hz, hcurrent⟩ := hz
  cases current with
  | none => exact Calls.ensures_pure hz
  | some state =>
      obtain ⟨hstate, hid⟩ := hcurrent state rfl
      have hsteady : Steady fun y : AgentWorld => I y ∧ y.currentTask = some state := fun a y hy =>
        ⟨hI a y hy.1, by cases a <;> exact hy.2⟩
      have hsave : (setCurrentTask (some state.marked)).Ensures E (fun _ => I) (fun _ => I) z :=
        ensures_systemCall (fun w hw => by
          obtain ⟨hw, hsame⟩ := hsteady.moved hw ⟨hz, hstate⟩
          exact hmark w state hw hsame hid) (.inl hE)
      refine hsave.andThen fun _ w hw => Calls.ensures_bind (Calls.ensures_update ?_)
      exact hrecover _ (hrestart w hw)

theorem guards_stop_withdrawn (hE : ¬ Refusable E .system) :
    stopAgent.Guards E (Withdrawn told pid) (Withdrawn told pid) :=
  guards_stopAgent_of hE steady_withdrawn
    (fun _ state h hstate hid => h.save fun hpid => ⟨rfl, (h.marked state hstate hid hpid).2⟩)
    (fun _ h => h.restart) (guards_recover_withdrawn.tryCatch fun _ => Calls.guards_pure ())

theorem Oversees.restart (hQ : Lasting Q) (h : Oversees P Q x) : Oversees P Q x.restart :=
  h.start hQ { restarted := true }

theorem Tracks.mark (hQ : Lasting Q) (h : Tracks Q taskId pid x) {state : CurrentTask}
    (hid : state.taskId = taskId) (hpid : state.pid = pid) :
    Tracks Q taskId pid { x with currentTask := some state.marked } :=
  ⟨⟨state.marked, rfl, hid, hpid⟩, h.started, h.active, hQ x _ (later_of_eq rfl rfl) h.lasting⟩

theorem guards_stop_oversees (hE : ¬ Refusable E .system) (hQ : Lasting Q) :
    stopAgent.Guards E (Oversees P Q) (Oversees P Q) := by
  refine guards_stopAgent_of hE (steady_oversees hQ) (fun x state h hstate _ => ?_)
    (fun _ h => h.restart hQ) (guards_recover hE hQ)
  obtain ⟨hpid, htracks⟩ := h.tracked state hstate
  exact (htracks.mark hQ rfl rfl).oversees hpid

/-- The task of a process that has exited is on file or finished. -/
def Settling (taskId : String) (pid : Nat) (x : AgentWorld) : Prop :=
  Finished taskId pid x ∨ Tracks (HasExited pid) taskId pid x

theorem Concluded.finished (h : Concluded (HasExited pid) taskId pid x) : Finished taskId pid x :=
  oversees_of_none h.current h.told

theorem Settling.restart (h : Settling taskId pid x) : Settling taskId pid x.restart :=
  h.imp (fun h => h.restart (lasting_told taskId pid)) fun h => h.restart (lasting_hasExited pid)

theorem guards_stop_settling (hE : ¬ Refusable E .system) (hid : taskId ≠ "") :
    stopAgent.Guards E (Settling taskId pid) (Settling taskId pid) := by
  have hQ := lasting_hasExited pid
  have hsteady : Steady (Settling taskId pid) := fun a y hy =>
    hy.imp (steady_oversees (lasting_told taskId pid) a y) (steady_tracks hQ a y)
  refine guards_stopAgent_of hE hsteady (fun x state hx hstate _ => ?_) (fun _ h => h.restart) ?_
  · rcases hx with hdone | htracks
    · obtain ⟨hpid, htold⟩ := hdone.tracked state hstate
      exact .inl ((htold.mark (lasting_told taskId pid) rfl rfl).oversees hpid)
    · obtain ⟨state', hstate', hid', hpid'⟩ := htracks.current
      obtain rfl : state' = state := Option.some.inj (hstate'.symm.trans hstate)
      exact .inr (htracks.mark hQ hid' hpid')
  · intro x hx
    rcases hx with hdone | htracks
    · exact Calls.ensures_mono (guards_recover hE (lasting_told taskId pid) x hdone)
        (fun _ _ h => .inl h) fun _ _ h => h
    · refine Calls.ensures_mono (ensures_recoverOrphanedTask hE hQ hid htracks)
        (fun _ y hy => ?_) fun _ _ h => h
      exact hy.imp Concluded.finished And.left

/-- No process is registered. -/
def Unregistered (x : AgentWorld) : Prop := x.activeProcesses = []

theorem guards_recover_unregistered : recoverOrphanedTask.Guards E Unregistered Unregistered := by
  have hsteady : Steady Unregistered := fun a x h => by cases a <;> exact h
  refine guards_recoverOrphanedTask_of (fun _ => Unregistered) hsteady (fun _ _ h _ _ _ => h)
    fun state s x _ _ => ?_
  exact
    { steady := hsteady
      ack := fun _ _ _ _ h => h
      send := fun _ _ h => h
      save := fun _ _ _ h => h
      report := fun _ _ _ _ h => h
      attach := fun _ _ h => h
      pop := fun y _ h => by
        show y.activeProcesses.filter _ = []
        rw [h]
        rfl
      forget := fun _ h => h
      weaken := fun _ h => h }

/-- Once the processes have ended, the task on file is withdrawn, and it is finished unless a
request was refused. -/
theorem ensures_finalizeShutdownTask (hE : ¬ Refusable E .system) (hQ : Lasting Q)
    (hexited : ∀ x, Q x → HasExited pid x) (hid : taskId ≠ "") (hx : Tracks Q taskId pid x) :
    finalizeShutdownTask.Ensures E
      (fun _ y => Withdrawn x.results pid y ∧
        (Concluded Q taskId pid y ∨ Left E Q taskId pid y))
      (fun _ _ => True) x := by
  obtain ⟨state, hstate, rfl, rfl⟩ := hx.current
  have hsteady : Steady fun y : AgentWorld => Tracks Q state.taskId state.pid y ∧
      y.results = x.results := fun a y hy => ⟨steady_tracks hQ a y hy.1, by cases a <;> exact hy.2⟩
  refine (ensures_loadCurrentTask hE hsteady ⟨hx, rfl⟩).andThen fun current y hy => ?_
  obtain ⟨hcurrent, hy⟩ := hy
  have hsome : current = some state := by
    rw [hcurrent, hstate, Option.filter_some, if_pos (decide_eq_true hid)]
  rw [hsome]
  have hsave : (setCurrentTask (some state.marked)).Ensures E
      (fun _ z => (Tracks Q state.taskId state.pid z ∧ z.results = x.results) ∧
        z.currentTask = some state.marked) (fun _ _ => True) y :=
    ensures_systemCall (fun z hz => by
      obtain ⟨htracks, hresults⟩ := hsteady.moved hz hy
      exact ⟨⟨htracks.mark hQ rfl rfl, hresults⟩, rfl⟩) (.inl hE)
  refine hsave.andThen fun _ z hz => Calls.ensures_bind (Calls.ensures_update ?_)
  obtain ⟨⟨htracks, hresults⟩, hmarked⟩ := hz
  have hwithdrawn : Withdrawn x.results state.pid z.restart := by
    refine ⟨hexited z htracks.lasting, fun r hr _ => .inl (hresults ▸ hr), fun s hs _ _ => ?_⟩
    obtain rfl : state.marked = s := Option.some.inj (hmarked.symm.trans hs)
    exact ⟨rfl, rfl⟩
  have hquiet : ∀ {K : AgentWorld → Prop}, recoverOrphanedTask.Guards E K K →
      (recoverOrphanedTask.tryCatch fun _ : AgentError => pure () : AgentProg Unit).Guards E K
        fun _ => True := fun h => h.tryCatch fun _ => Calls.guards_pure ()
  have hboth := Calls.ensures_and (fun _ h => h)
    (hquiet guards_recover_withdrawn z.restart hwithdrawn)
    (hquiet guards_recover_unregistered z.restart rfl)
  have hrecovered := ensures_recoverOrphanedTask (J := fun _ => True) hE hQ hid (htracks.restart hQ)
  refine Calls.ensures_mono (Calls.ensures_and (fun _ h => h) hboth hrecovered) (fun _ w hw => ?_)
    fun _ _ _ => trivial
  obtain ⟨⟨hwithdrawn, hnone⟩, hsettled⟩ := hw
  refine ⟨hwithdrawn, hsettled.imp_right fun hleft => ⟨hleft.2.resolve_left fun hlookup => ?_, hleft.1⟩⟩
  rw [hnone] at hlookup
  cases hlookup

/-- A stop that returns has ended every registered process and withdrawn the task on file. -/
theorem ensures_stopAgent (hE : ¬ Refusable E .system) (hid : taskId ≠ "")
    (hx : Tracks (fun _ => True) taskId pid x)
    (hends : x.activeProcesses.lookup taskId ≠ none ∨ HasExited pid x) :
    stopAgent.Ensures E
      (fun _ y => (∀ p ∈ x.activeProcesses, HasExited p.2 y) ∧ Withdrawn x.results pid y ∧
        (Finished taskId pid y ∨ Left E (HasExited pid) taskId pid y))
      (fun _ _ => True) x := by
  let Q (y : AgentWorld) : Prop := HasExited pid y ∧ ∀ p ∈ x.activeProcesses, HasExited p.2 y
  have hQ : Lasting Q := fun y z hyz hy => ⟨lasting_hasExited pid y z hyz hy.1, fun p hp =>
    lasting_hasExited p.2 y z hyz (hy.2 p hp)⟩
  have hsteady : Steady fun y : AgentWorld => (Tracks (fun _ => True) taskId pid y ∧
      y.results = x.results) ∧ (x.activeProcesses.lookup taskId ≠ none ∨ HasExited pid y) :=
    fun a y hy => ⟨⟨steady_tracks lasting_true a y hy.1.1, by cases a <;> exact hy.1.2⟩,
      hy.2.imp_right ((lasting_hasExited pid).steady a y)⟩
  have hterminated := ensures_terminateActiveProcesses hE hsteady ⟨⟨hx, rfl⟩, hends⟩
  refine (Calls.ensures_mono hterminated (fun _ _ h => h) fun _ _ _ => trivial).andThen fun _ y hy => ?_
  obtain ⟨⟨⟨htracks, hresults⟩, hends⟩, hall⟩ := hy
  have hexited : HasExited pid y := by
    rcases hends with hregistered | hexited
    · obtain ⟨p, hp⟩ := Option.ne_none_iff_exists'.mp hregistered
      obtain rfl := hx.active p hp
      obtain ⟨l₁, l₂, hl, -⟩ := List.lookup_eq_some_iff.mp hp
      exact hall (taskId, p) (by rw [hl]; simp)
    · exact hexited
  have htracked : Tracks Q taskId pid y := htracks.imp fun _ => ⟨hexited, hall⟩
  have hfinal := ensures_finalizeShutdownTask hE hQ (fun _ h => h.1) hid htracked
  rw [hresults] at hfinal
  refine Calls.ensures_mono hfinal (fun _ z hz => ?_) fun _ _ h => h
  obtain ⟨hwithdrawn, hsettled⟩ := hz
  rcases hsettled with hdone | hleft
  · exact ⟨hdone.lasting.2, hwithdrawn, .inl (oversees_of_none hdone.current hdone.told)⟩
  · exact ⟨hleft.2.lasting.2, hwithdrawn, .inr ⟨hleft.1, hleft.2.imp And.left⟩⟩

end Stop

/-! ## Every run -/

section Run

variable {py : Python} {host : Host} {settings : AgentSettings} {runDirName : String → String}
  {E : Moment AgentMove AgentCall → Prop} {I : AgentWorld → Prop} {phases : Nat → AgentPhase}
  {x : AgentWorld} {taskId : String} {pid : Nat}

/-- What iterations, stops and starts keep holds after a phase. -/
theorem AgentPhase.keeps (hloop : ∀ reply,
      (loopIteration py host settings runDirName reply).Guards E I I)
    (hstop : stopAgent.Guards E I I) (hrestart : ∀ x, I x → I x.restart) {phase : AgentPhase}
    (hE : ∀ n, E (phase.moments n)) (hx : I x) : I (phase.run py host settings runDirName x) := by
  cases phase with
  | iteration i =>
      refine Iteration.run_of_ensures (i := i) hE (hloop i.reply _ ?_)
      unfold Iteration.start
      split
      · exact hrestart x hx
      · exact hx
  | stop moments =>
      exact hrestart _ ((hstop x hx).final (s := { state := x, moments }) rfl hE).2

theorem worldThrough_keeps (hloop : ∀ reply,
      (loopIteration py host settings runDirName reply).Guards E I I)
    (hstop : stopAgent.Guards E I I) (hrestart : ∀ x, I x → I x.restart)
    (hE : ∀ n k, E ((phases n).moments k)) {n m : Nat} (hnm : n ≤ m)
    (h : I (worldThrough py host settings runDirName phases x n)) :
    I (worldThrough py host settings runDirName phases x m) := by
  induction m, hnm using Nat.le_induction with
  | base => exact h
  | succ m _ ih => exact AgentPhase.keeps hloop hstop hrestart (hE m) ih

/-- A record is overseen after every phase. -/
theorem oversees_worldThrough {P : Nat → Prop} {Q : AgentWorld → Prop} (hQ : Lasting Q)
    (hP : ∀ x, Q x → P x.processes.length) (hspared : ∀ n, (phases n).Spares [.system]) {n m : Nat}
    (hnm : n ≤ m) (h : Oversees P Q (worldThrough py host settings runDirName phases x n)) :
    Oversees P Q (worldThrough py host settings runDirName phases x m) :=
  worldThrough_keeps (guards_iteration notRefusable_system hQ hP)
    (guards_stop_oversees notRefusable_system hQ) (fun _ h => h.restart hQ) hspared hnm h

/-- A task whose process has exited stays on file or is finished. -/
theorem guards_iteration_settling (hE : ¬ Refusable E .system) (hid : taskId ≠ "")
    (reply : HeartbeatReply) :
    (loopIteration py host settings runDirName reply).Guards E (Settling taskId pid)
      (Settling taskId pid) := by
  intro x hx
  rcases hx with hdone | htracks
  · exact Calls.ensures_mono
      (guards_iteration hE (lasting_told taskId pid) fresh_told reply x hdone)
      (fun _ _ h => .inl h) fun _ _ h => h
  · exact Calls.ensures_mono (ensures_iteration hE hid reply htracks)
      (fun _ _ h => h.imp_right And.right) fun _ _ h => h

/-- What a stop that returns has done stands at the next start. -/
theorem settled_after_stop (hE : ¬ Refusable E .system) (hid : taskId ≠ "") {n : Nat}
    {moments : Nat → Moment AgentMove AgentCall} (hphase : phases n = .stop moments)
    (hmoments : ∀ k, E (moments k))
    (hreturns : (stopAgent
      { state := worldThrough py host settings runDirName phases x n, moments }).1 = .ok ())
    (htracks : Tracks (fun _ => True) taskId pid (worldThrough py host settings runDirName phases x n))
    (hends : (worldThrough py host settings runDirName phases x n).activeProcesses.lookup taskId ≠
      none ∨ HasExited pid (worldThrough py host settings runDirName phases x n)) :
    (∀ p ∈ (worldThrough py host settings runDirName phases x n).activeProcesses,
      HasExited p.2 (worldThrough py host settings runDirName phases x (n + 1))) ∧
    Withdrawn (worldThrough py host settings runDirName phases x n).results pid
      (worldThrough py host settings runDirName phases x (n + 1)) ∧
    (Finished taskId pid (worldThrough py host settings runDirName phases x (n + 1)) ∨
      Left E (HasExited pid) taskId pid
        (worldThrough py host settings runDirName phases x (n + 1))) := by
  have hrun := Calls.wp_of_eq_ok (ensures_stopAgent hE hid htracks hends
    { state := worldThrough py host settings runDirName phases x n, moments } rfl hmoments)
    (Prod.ext hreturns rfl)
  obtain ⟨-, hexited, hwithdrawn, hsettled⟩ := hrun
  have hnext : worldThrough py host settings runDirName phases x (n + 1) = (stopAgent
      { state := worldThrough py host settings runDirName phases x n, moments }).2.state.restart := by
    rw [worldThrough, hphase]
    rfl
  rw [hnext]
  refine ⟨hexited, hwithdrawn.restart, ?_⟩
  exact hsettled.imp (fun h => h.restart (lasting_told _ _)) fun h =>
    ⟨h.1, h.2.restart (lasting_hasExited _)⟩

theorem not_left_sparing :
    ¬ Left (Sparing [.system, .upload, .result]) (HasExited pid) taskId pid x := fun hleft =>
  hleft.1.elim (not_refusable_sparing (by simp)) (not_refusable_sparing (by simp))

/-- An iteration in which no upload and no result is refused finishes the task. -/
theorem finished_after_iteration (hid : taskId ≠ "") {m : Nat} {i : Iteration}
    (hphase : phases m = .iteration i) (hspares : (phases m).Spares [.system, .upload, .result])
    (h : Settling taskId pid (worldThrough py host settings runDirName phases x m)) :
    Finished taskId pid (worldThrough py host settings runDirName phases x (m + 1)) := by
  rw [hphase] at hspares
  rw [worldThrough, hphase]
  rcases h with hdone | htracks
  · exact AgentPhase.keeps (guards_iteration notRefusable_system (lasting_told _ _) fresh_told)
      (guards_stop_oversees notRefusable_system (lasting_told _ _))
      (fun _ h => h.restart (lasting_told _ _)) hspares hdone
  · have hrun : Finished taskId pid ((AgentPhase.iteration i).run py host settings runDirName
          (worldThrough py host settings runDirName phases x m)) ∨
        Left (Sparing [.system, .upload, .result]) (HasExited pid) taskId pid
          ((AgentPhase.iteration i).run py host settings runDirName
            (worldThrough py host settings runDirName phases x m)) :=
      Iteration.run_of_ensures (i := i) hspares (ensures_iteration notRefusable_system hid _
        (htracks.start (lasting_hasExited _) _))
    exact hrun.resolve_right not_left_sparing

/-- In every run of iterations, stops and starts in which no call of the system is refused, whatever
else is refused and whenever processes end, a stop that returns has ended every registered process.
From then on the task that was on file is reported as cancelled or not at all, and it is completed
for good once no request is refused in the stop or in a later iteration. -/
theorem stopped_tasks_cancelled (py : Python) (host : Host) (settings : AgentSettings)
    (runDirName : String → String) (phases : Nat → AgentPhase) (x : AgentWorld)
    (hidle : x.currentTask = none) (hspared : ∀ n, (phases n).Spares [.system])
    (n : Nat) (moments : Nat → Moment AgentMove AgentCall) (hphase : phases n = .stop moments)
    (hreturns : (stopAgent
      { state := worldThrough py host settings runDirName phases x n, moments }).1 = .ok ())
    (state : CurrentTask)
    (hstate : (worldThrough py host settings runDirName phases x n).currentTask = some state)
    (hid : state.taskId ≠ "")
    (hregistered : (worldThrough py host settings runDirName phases x n).activeProcesses.lookup
      state.taskId ≠ none ∨ HasExited state.pid (worldThrough py host settings runDirName phases x n)) :
    (∀ p ∈ (worldThrough py host settings runDirName phases x n).activeProcesses,
      HasExited p.2 (worldThrough py host settings runDirName phases x (n + 1))) ∧
    (∀ m, n < m → ∀ r ∈ (worldThrough py host settings runDirName phases x m).results,
      r.pid = some state.pid →
        r ∈ (worldThrough py host settings runDirName phases x n).results ∨
          r.finalStatus = .cancelled) ∧
    ((∃ m, n ≤ m ∧ (m = n ∨ ∃ i, phases m = .iteration i) ∧
        (phases m).Spares [.system, .upload, .result]) →
      ∃ m, ∀ l, m ≤ l → Completed state.taskId state.pid
        (worldThrough py host settings runDirName phases x l)) := by
  have hoversees : Oversees (fun _ => True) (fun _ => True)
      (worldThrough py host settings runDirName phases x n) :=
    oversees_worldThrough lasting_true (fun _ _ => trivial) hspared (Nat.zero_le n)
      (oversees_of_none hidle trivial)
  have htracks := (hoversees.tracked state hstate).2
  have hmoments : ∀ ks, (phases n).Spares ks → ∀ k, Sparing ks (moments k) := by
    intro ks hspares k
    have hk := hspares k
    rwa [hphase] at hk
  obtain ⟨hexited, hwithdrawn, hsettled⟩ := settled_after_stop notRefusable_system hid hphase
    (hmoments _ (hspared n)) hreturns htracks hregistered
  refine ⟨hexited, fun m hm => ?_, ?_⟩
  · have hlater := worldThrough_keeps (I := Withdrawn _ state.pid)
      (guards_iteration_withdrawn notRefusable_system) (guards_stop_withdrawn notRefusable_system)
      (fun _ h => h.restart) hspared hm hwithdrawn
    exact hlater.reports
  · rintro ⟨m, hnm, hkind, hspares⟩
    have hdone : Finished state.taskId state.pid
        (worldThrough py host settings runDirName phases x (m + 1)) := by
      rcases hkind with rfl | ⟨i, hi⟩
      · have hstopped := settled_after_stop notRefusable_system hid hphase (hmoments _ hspares)
          hreturns htracks hregistered
        exact hstopped.2.2.resolve_right not_left_sparing
      · have hlt : n < m := by
          refine Nat.lt_of_le_of_ne hnm fun hsame => ?_
          rw [hsame, hi] at hphase
          cases hphase
        have hsettling : Settling state.taskId state.pid
            (worldThrough py host settings runDirName phases x m) :=
          worldThrough_keeps (guards_iteration_settling notRefusable_system hid)
            (guards_stop_settling notRefusable_system hid) (fun _ h => h.restart) hspared hlt
            (hsettled.imp_right And.right)
        exact finished_after_iteration hid hi hspares hsettling
    exact ⟨m + 1, fun l hl => (oversees_worldThrough (lasting_told _ _) fresh_told hspared hl
      hdone).completed⟩

end Run

/-- A task is started, and the agent is stopped while its process runs, which ends when it is asked
to. -/
def startedThenStopped : Nat → AgentPhase
  | 0 => .iteration { reply := { tasks := [healthTask] } }
  | 1 => .stop fun _ => { moves := [.exits 0 (-15)] }
  | _ + 2 => .iteration {}

/-- The task is completed, and reported as cancelled. -/
theorem stopped_tasks_cancelled_started :
    ∃ m, ∀ l, m ≤ l → Completed "t" 0
      (worldThrough plainPython bareHost {} id startedThenStopped {} l) := by
  have hcurrent : ((worldThrough plainPython bareHost {} id startedThenStopped {} 1).currentTask.map
      fun state => (state.taskId, state.pid)) = some ("t", 0) := by
    decide +kernel
  have hregistered : (worldThrough plainPython bareHost {} id startedThenStopped {}
      1).activeProcesses.lookup "t" = some 0 := by
    decide +kernel
  have hreturns : (stopAgent
      { state := worldThrough plainPython bareHost {} id startedThenStopped {} 1
        moments := fun _ => { moves := [.exits 0 (-15)] } }).1.isOk = true := by
    decide +kernel
  obtain ⟨state, hstate, hkey⟩ := Option.map_eq_some_iff.mp hcurrent
  obtain ⟨hid, hpid⟩ := Prod.mk.inj hkey
  have hspared : ∀ n ks, (startedThenStopped n).Spares ks := by
    intro n ks
    rcases n with _ | _ | n <;> exact fun _ _ _ h => by cases h
  have h := (stopped_tasks_cancelled plainPython bareHost {} id startedThenStopped {} rfl
    (fun n => hspared n _) 1 (fun _ => { moves := [.exits 0 (-15)] }) rfl ?_ state hstate
    (by rw [hid]; decide) (.inl ?_)).2.2 ⟨1, Nat.le_refl 1, .inl rfl, hspared 1 _⟩
  · rwa [hid, hpid] at h
  · revert hreturns
    generalize (stopAgent _).1 = result
    intro hreturns
    cases result with
    | ok a => rfl
    | error e => cases hreturns
  · rw [hid, hregistered]
    exact Option.some_ne_none 0

end GpuFleet
