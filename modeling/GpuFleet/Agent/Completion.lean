import GpuFleet.Agent.ActiveTask

/-!
# Completion

The record of a task stays on file until an iteration of the loop has uploaded the
rest of its logs, sent its result and uploaded the summary.  Whatever raises on
the way ends the iteration, and the next one begins again, with no regard to why.

So a task whose process has exited is reported and forgotten in the first iteration
in which no upload is refused, and stays so (`exited_tasks_complete`): an iteration
either finishes the task on file or leaves it, and it leaves it only if a request is
refused (`ensures_iteration`).  This is all that can be said.  The center refuses a
chunk beyond the size of its stream, or one that conflicts with the stored text,
each time it is sent, and the client treats such an answer as final, but the agent
sends the chunk again in every iteration, and never gets to the result
(`refused_upload_wedges`).
-/

namespace GpuFleet

open Foundations

/-! ## Iterations -/

/-- An iteration of the agent loop: whether the agent is started anew before it, what its heartbeat
brings, and what happens before each of its calls. -/
structure Iteration where
  restarted : Bool := false
  reply : HeartbeatReply := {}
  moments : Nat → Moment AgentMove AgentCall := fun _ => {}

/-- None of these calls is refused in the iteration. -/
def Iteration.Spares (i : Iteration) (ks : List AgentCall) : Prop := ∀ n, Sparing ks (i.moments n)

/-- An agent that starts anew has no entry in `ACTIVE_PROCESSES`. -/
def AgentWorld.restart (x : AgentWorld) : AgentWorld := { x with activeProcesses := [] }

/-- The world in which an iteration begins. -/
def Iteration.start (i : Iteration) (x : AgentWorld) : AgentWorld :=
  if i.restarted then x.restart else x

section Iterations

variable (py : Python) (host : Host) (settings : AgentSettings) (runDirName : String → String)

/-- The world after an iteration. -/
def Iteration.run (i : Iteration) (x : AgentWorld) : AgentWorld :=
  (loopIteration py host settings runDirName i.reply
    { state := i.start x, moments := i.moments }).2.state

/-- The world after this many iterations. -/
def worldAfter (iterations : Nat → Iteration) (x : AgentWorld) : Nat → AgentWorld
  | 0 => x
  | n + 1 => (iterations n).run py host settings runDirName (worldAfter iterations x n)

variable {py : Python} {host : Host} {settings : AgentSettings} {runDirName : String → String}

/-- What an iteration ensures holds after it. -/
theorem Iteration.run_of_ensures {E : Moment AgentMove AgentCall → Prop} {I : AgentWorld → Prop}
    {i : Iteration} {x : AgentWorld} (hE : ∀ n, E (i.moments n))
    (h : (loopIteration py host settings runDirName i.reply).Ensures E (fun _ => I) (fun _ => I)
      (i.start x)) : I (i.run py host settings runDirName x) :=
  (h.final (s := { state := i.start x, moments := i.moments }) rfl hE).2

end Iterations

/-! ## What only grows -/

/-- Processes are added, those that ended stay ended, and results are added. -/
structure Later (x y : AgentWorld) : Prop where
  length : x.processes.length ≤ y.processes.length
  ending : ∀ pid e, x.ending pid = some e → y.ending pid = some e
  results : x.results ⊆ y.results

/-- What holds stays true in a later world. -/
def Lasting (Q : AgentWorld → Prop) : Prop := ∀ x y, Later x y → Q x → Q y

section Growth

variable {x y : AgentWorld}

theorem later_of_eq (hprocesses : y.processes = x.processes) (hresults : y.results = x.results) :
    Later x y where
  length := by rw [hprocesses]
  ending pid e h := by rwa [AgentWorld.ending, hprocesses]
  results := by rw [hresults]; exact List.Subset.refl _

theorem later_move (a : AgentMove) (x : AgentWorld) : Later x (x.move a) where
  length := by cases a <;> simp [AgentWorld.move]
  ending _ _ h := ending_move_some h
  results := by cases a <;> exact List.Subset.refl _

theorem later_terminate (x : AgentWorld) (pid : Nat) (reason : Termination) :
    Later x (x.terminate pid reason) where
  length := by simp [AgentWorld.terminate]
  ending _ _ h := ending_terminate_some h
  results := List.Subset.refl _

theorem later_popen (x : AgentWorld) (p : Process) :
    Later x { x with processes := x.processes ++ [p] } where
  length := by simp
  ending pid e h := by
    unfold AgentWorld.ending at h ⊢
    cases hget : x.processes[pid]? with
    | none =>
        rw [hget] at h
        cases h
    | some q =>
        rw [List.getElem?_append_left (List.getElem?_eq_some_iff.mp hget).1]
        rwa [hget] at h ⊢
  results := List.Subset.refl _

theorem later_report (x : AgentWorld) (r : TaskReport) :
    Later x { x with results := x.results ++ [r] } where
  length := Nat.le_refl _
  ending _ _ h := h
  results := List.subset_append_left _ _

theorem Lasting.steady {Q : AgentWorld → Prop} (hQ : Lasting Q) : Steady Q :=
  fun a x h => hQ x _ (later_move a x) h

theorem Lasting.and {Q R : AgentWorld → Prop} (hQ : Lasting Q) (hR : Lasting R) :
    Lasting fun x => Q x ∧ R x := fun x y h hx => ⟨hQ x y h hx.1, hR x y h hx.2⟩

theorem lasting_true : Lasting fun _ => True := fun _ _ _ _ => trivial

/-- The process has ended. -/
def HasExited (pid : Nat) (x : AgentWorld) : Prop := (x.ending pid).isSome = true

theorem lasting_hasExited (pid : Nat) : Lasting (HasExited pid) := by
  intro x y h hx
  obtain ⟨e, he⟩ := Option.isSome_iff_exists.mp hx
  rw [HasExited, h.ending pid e he]
  rfl

/-- A result for this task and process has been sent. -/
def Told (taskId : String) (pid : Nat) (x : AgentWorld) : Prop :=
  pid < x.processes.length ∧ ∃ r ∈ x.results, r.taskId = taskId ∧ r.pid = some pid

theorem lasting_told (taskId : String) (pid : Nat) : Lasting (Told taskId pid) := by
  rintro x y h ⟨hlength, r, hr, htold⟩
  exact ⟨Nat.lt_of_lt_of_le hlength h.length, r, h.results hr, htold⟩

end Growth

/-! ## The record on file -/

/-- The record on file is about this task and process, and no other process is registered for the
task. -/
structure Tracks (Q : AgentWorld → Prop) (taskId : String) (pid : Nat) (x : AgentWorld) : Prop where
  current : ∃ state, x.currentTask = some state ∧ state.taskId = taskId ∧ state.pid = pid
  started : pid < x.processes.length
  active : ∀ p ∈ x.activeProcesses.lookup taskId, p = pid
  lasting : Q x

/-- The agent has no record of the task on file, and has sent its result. -/
structure Concluded (Q : AgentWorld → Prop) (taskId : String) (pid : Nat) (x : AgentWorld) : Prop where
  current : x.currentTask = none
  told : Told taskId pid x
  lasting : Q x

section Tracks

variable {Q R : AgentWorld → Prop} {taskId : String} {pid : Nat} {x y : AgentWorld}

theorem Tracks.later (h : Tracks Q taskId pid x) (hQ : Lasting Q) (hxy : Later x y)
    (hcurrent : y.currentTask = x.currentTask) (hactive : y.activeProcesses = x.activeProcesses) :
    Tracks Q taskId pid y where
  current := hcurrent ▸ h.current
  started := Nat.lt_of_lt_of_le h.started hxy.length
  active := hactive ▸ h.active
  lasting := hQ x y hxy h.lasting

theorem Tracks.imp (h : Tracks Q taskId pid x) (hQR : Q x → R x) : Tracks R taskId pid x :=
  ⟨h.current, h.started, h.active, hQR h.lasting⟩

theorem steady_tracks (hQ : Lasting Q) : Steady (Tracks Q taskId pid) := fun a x h =>
  h.later hQ (later_move a x) (by cases a <;> rfl) (by cases a <;> rfl)

theorem loggable_tracks (hQ : Lasting Q) {k : TaskKey} (hid : k.taskId = taskId) (hpid : k.pid = pid) :
    Loggable k (Tracks Q taskId pid) where
  steady := steady_tracks hQ
  ack _ _ _ _ h := h.later hQ (later_of_eq rfl rfl) rfl rfl
  send _ _ h := h.later hQ (later_of_eq rfl rfl) rfl rfl
  save x s hkey h :=
    ⟨⟨s, rfl, (congrArg TaskKey.taskId hkey).trans hid, (congrArg TaskKey.pid hkey).trans hpid⟩,
      h.started, h.active, hQ x _ (later_of_eq rfl rfl) h.lasting⟩

/-- A result is sent for the task on file. -/
theorem Tracks.report (h : Tracks Q taskId pid x) (hQ : Lasting Q) {r : TaskReport}
    (hid : r.taskId = taskId) (hpid : r.pid = some pid) :
    Tracks (fun x => Told taskId pid x ∧ Q x) taskId pid { x with results := x.results ++ [r] } where
  current := h.current
  started := h.started
  active := h.active
  lasting := ⟨⟨h.started, r, List.mem_append_right _ (List.mem_singleton.mpr rfl), hid, hpid⟩,
    hQ x _ (later_report x r) h.lasting⟩

end Tracks

/-! ## Settling a record -/

/-- Requests of the end of a task may be refused. -/
def Hindered (E : Moment AgentMove AgentCall → Prop) : Prop :=
  Refusable E .upload ∨ Refusable E .result

/-- A refused request has left the record on file. -/
def Left (E : Moment AgentMove AgentCall → Prop) (Q : AgentWorld → Prop) (taskId : String) (pid : Nat)
    (x : AgentWorld) : Prop := Hindered E ∧ Tracks Q taskId pid x

section Settle

variable {E : Moment AgentMove AgentCall → Prop} {P : Nat → Prop} {Q I J : AgentWorld → Prop}
  {state : CurrentTask} {taskId : String} {pid : Nat} {x : AgentWorld}

theorem refusal_leaves {k : AgentCall} (hk : k = .upload ∨ k = .result) :
    ¬ Refusable E k ∨ ∀ x, Tracks Q taskId pid x → Left E Q taskId pid x := by
  by_cases h : Refusable E k
  · right
    intro x hx
    rcases hk with rfl | rfl
    · exact ⟨.inl h, hx⟩
    · exact ⟨.inr h, hx⟩
  · exact .inl h

/-- `finalize_background_task` settles the record, or a request was refused. -/
theorem ensures_finalizeBackgroundTask (hE : ¬ Refusable E .system) (hQ : Lasting Q)
    (hid : state.taskId = taskId) (hpid : state.pid = pid) (finalStatus : FinalStatus)
    (code : Option Int) (hx : Tracks Q taskId pid x) :
    (finalizeBackgroundTask state finalStatus code).Ensures E (fun _ => Concluded Q taskId pid)
      (fun _ => Left E Q taskId pid) x := by
  refine Calls.ensures_bind (Calls.ensures_read ?_)
  refine (ensures_pumpLogs true (loggable_tracks hQ (k := state.key) hid hpid) (.inl hE)
    (refusal_leaves (.inl rfl)) rfl hx).andThen fun state' y hy => ?_
  obtain ⟨hkey, hy⟩ := hy
  refine (guards_systemCalls 2 (steady_tracks hQ) (.inl hE)).andThen hy fun _ z hz => ?_
  -- The result.
  have htold := (lasting_told taskId pid).and hQ
  have hresult : (sendTaskResult
      { taskId := state'.taskId, finalStatus, exitCode := code, bootId := state'.bootId
        pid := state'.pid, startedAt := state'.startedAt
        finishedAt := x.clock / 1000000 }).Ensures E
        (fun _ => Tracks (fun x => Told taskId pid x ∧ Q x) taskId pid)
        (fun _ => Left E Q taskId pid) z := by
    refine ensures_request (fun w hw => ?_) ?_
    · exact ((steady_tracks hQ).moved hw hz).report hQ ((congrArg TaskKey.taskId hkey).trans hid)
        (congrArg some ((congrArg TaskKey.pid hkey).trans hpid))
    · exact (refusal_leaves (.inr rfl)).imp_right fun h w hw => h w ((steady_tracks hQ).moved hw hz)
  refine hresult.andThen fun _ w hw => ?_
  -- The summary.
  have hsummary : sendSummary.Guards E (Tracks (fun x => Told taskId pid x ∧ Q x) taskId pid)
      (Left E Q taskId pid) :=
    guards_request (steady_tracks htold) (fun v hv => hv.later htold (later_of_eq rfl rfl) rfl rfl)
      ((refusal_leaves (.inl rfl)).imp_right fun h v hv => h v (hv.imp And.right))
  refine hsummary.andThen hw fun _ v hv => ?_
  -- The agent forgets the task.
  refine Calls.ensures_bind (Calls.ensures_update ?_)
  have hclear : (clearLogOffsets state'.taskId).Guards E (fun x => Told taskId pid x ∧ Q x)
      (Left E Q taskId pid) :=
    (guards_systemCalls 1 htold.steady (.inl hE)).bind fun _ =>
      guards_systemCall htold.steady (fun u hu => htold u _ (later_of_eq rfl rfl) hu) (.inl hE)
  refine hclear.andThen (htold v _ (later_of_eq rfl rfl) hv.lasting) fun _ u hu => ?_
  have hforget : (setCurrentTask none).Ensures E (fun _ => Concluded Q taskId pid)
      (fun _ => Left E Q taskId pid) u :=
    ensures_systemCall (fun t ht => by
      have h := htold t { t with currentTask := none } (later_of_eq rfl rfl) (htold.steady.moved ht hu)
      exact ⟨rfl, h.1, h.2⟩) (.inl hE)
  exact hforget.andThen fun _ t ht => Calls.ensures_pure ht

/-! ## Looking after the record -/

theorem ensures_loadCurrentTask (hE : ¬ Refusable E .system) (hI : Steady I) (hx : I x) :
    loadCurrentTask.Ensures E (fun current y =>
      current = (x.currentTask.filter fun state => decide (state.taskId ≠ "")) ∧ I y)
      (fun _ => J) x :=
  ensures_systemCall (fun y hy => by
    have hsame : y.currentTask = x.currentTask :=
      ((steady_untold x.currentTask x.results).moved hy ⟨rfl, rfl⟩).1
    exact ⟨congrArg (Option.filter fun state => decide (state.taskId ≠ "")) hsame,
      hI.moved hy hx⟩) (.inl hE)

theorem ensures_cancel (hE : ¬ Refusable E .system) (hQ : Lasting Q) (controls : List TaskControl)
    (hid : state.taskId = taskId) (hpid : state.pid = pid) (hx : Tracks Q taskId pid x) :
    (requestCancel controls state pid).Ensures E
      (fun s y => (s.taskId = taskId ∧ s.pid = pid) ∧ Tracks Q taskId pid y) (fun _ => J) x := by
  unfold requestCancel
  split
  · have hsave : (setCurrentTask (some { state with cancelRequested := true })).Guards E
        (Tracks Q taskId pid) J :=
      guards_systemCall (steady_tracks hQ) (fun y hy =>
        ⟨⟨_, rfl, hid, hpid⟩, hy.started, hy.active, hQ y _ (later_of_eq rfl rfl) hy.lasting⟩) (.inl hE)
    have hterminate : (terminateProcessTree pid .cancel).Guards E (Tracks Q taskId pid) J :=
      guards_systemCall (steady_tracks hQ)
        (fun y hy => hy.later hQ (later_terminate y pid .cancel) rfl rfl) (.inl hE)
    refine hsave.andThen hx fun _ y hy => hterminate.andThen hy fun _ z hz => ?_
    exact Calls.ensures_pure ⟨⟨hid, hpid⟩, hz⟩
  · exact Calls.ensures_pure ⟨⟨hid, hpid⟩, hx⟩

theorem ensures_timeout (hE : ¬ Refusable E .system) (hQ : Lasting Q)
    (hid : state.taskId = taskId) (hpid : state.pid = pid) (hx : Tracks Q taskId pid x) :
    (checkTimeout state pid).Ensures E
      (fun s y => (s.taskId = taskId ∧ s.pid = pid) ∧ Tracks Q taskId pid y) (fun _ => J) x := by
  have hpoll : (pollProcess pid).Guards E (Tracks Q taskId pid) J :=
    guards_systemCall (steady_tracks hQ) (fun _ h => h) (.inl hE)
  refine hpoll.andThen hx fun polled y hy => ?_
  cases polled with
  | some code => exact Calls.ensures_pure ⟨⟨hid, hpid⟩, hy⟩
  | none =>
      have hclock : (systemCall fun x => (x.clock, x)).Guards E (Tracks Q taskId pid) J :=
        guards_systemCall (steady_tracks hQ) (fun _ h => h) (.inl hE)
      refine hclock.andThen hy fun now z hz => ?_
      show (if state.overdue now = true then _ else _ : AgentProg CurrentTask).Ensures _ _ _ z
      split
      · have hterminate : (terminateProcessTree pid .timeout).Guards E (Tracks Q taskId pid) J :=
          guards_systemCall (steady_tracks hQ)
            (fun y hy => hy.later hQ (later_terminate y pid .timeout) rfl rfl) (.inl hE)
        have hsave : (setCurrentTask (some { state with timedOut := true })).Guards E
            (Tracks Q taskId pid) J :=
          guards_systemCall (steady_tracks hQ) (fun y hy =>
            ⟨⟨_, rfl, hid, hpid⟩, hy.started, hy.active, hQ y _ (later_of_eq rfl rfl) hy.lasting⟩)
            (.inl hE)
        refine hterminate.andThen hz fun _ w hw => hsave.andThen hw fun _ v hv => ?_
        exact Calls.ensures_pure ⟨⟨hid, hpid⟩, hv⟩
      · exact Calls.ensures_pure ⟨⟨hid, hpid⟩, hz⟩

/-- The end of `sync_active_task` settles the record if the process has ended. -/
theorem ensures_conclude (hE : ¬ Refusable E .system) (hQ : Lasting Q)
    (hid : state.taskId = taskId) (hpid : state.pid = pid) (hx : Tracks Q taskId pid x) :
    (concludeTask state pid).Ensures E
      (fun _ y => Concluded Q taskId pid y ∨ Tracks Q taskId pid y ∧ ¬ HasExited pid y)
      (fun _ => Left E Q taskId pid) x := by
  have hpoll : (pollProcess pid).Ensures E
      (fun polled y => Tracks Q taskId pid y ∧ polled = (y.ending pid).map Ending.code)
      (fun _ => Left E Q taskId pid) x :=
    ensures_systemCall (fun y hy => ⟨(steady_tracks hQ).moved hy hx, rfl⟩) (.inl hE)
  refine hpoll.andThen fun polled y hy => ?_
  obtain ⟨hy, hpolled⟩ := hy
  cases polled with
  | none =>
      refine Calls.ensures_pure (.inr ⟨hy, ?_⟩)
      rw [HasExited, Option.map_eq_none_iff.mp hpolled.symm]
      exact Bool.false_ne_true
  | some code =>
      exact (ensures_finalizeBackgroundTask hE hQ hid hpid _ _ hy).andThen fun _ z hz =>
        Calls.ensures_pure (.inl hz)

/-- `sync_active_task` settles the record, or its process runs, or `R` holds where no process is
registered for the task. -/
theorem ensures_syncActiveTask (hE : ¬ Refusable E .system) (hQ : Lasting Q)
    (controls : List TaskControl) (hid : taskId ≠ "") {R : Prop} (hx : Tracks Q taskId pid x)
    (hactive : x.activeProcesses.lookup taskId = some pid ∨ R) :
    (syncActiveTask controls).Ensures E
      (fun _ y => Concluded Q taskId pid y ∨ Tracks Q taskId pid y ∧ (R ∨ ¬ HasExited pid y))
      (fun _ => Left E Q taskId pid) x := by
  obtain ⟨state, hstate, rfl, rfl⟩ := hx.current
  have hsteady : Steady fun x => Tracks Q state.taskId state.pid x ∧
      (x.activeProcesses.lookup state.taskId = some state.pid ∨ R) := fun a x h =>
    ⟨steady_tracks hQ a x h.1, by cases a <;> exact h.2⟩
  refine (ensures_loadCurrentTask hE hsteady ⟨hx, hactive⟩).andThen fun current y hy => ?_
  obtain ⟨hcurrent, hy, hactive⟩ := hy
  have hsome : current = some state := by
    rw [hcurrent, hstate, Option.filter_some, if_pos (decide_eq_true hid)]
  rw [hsome]
  refine Calls.ensures_bind (Calls.ensures_read ?_)
  cases hlookup : y.activeProcesses.lookup state.taskId with
  | none =>
      rw [hlookup] at hactive
      exact Calls.ensures_pure (.inr ⟨hy, .inl (hactive.resolve_left fun h => by cases h)⟩)
  | some p =>
      obtain rfl := hy.active p hlookup
      refine (ensures_cancel hE hQ controls rfl rfl hy).andThen fun s z hz => ?_
      obtain ⟨⟨hsid, hspid⟩, hz⟩ := hz
      refine (ensures_pumpLogs false (loggable_tracks hQ (k := s.key) hsid hspid) (.inl hE)
        (refusal_leaves (.inl rfl)) rfl hz).andThen fun s' w hw => ?_
      obtain ⟨hkey, hw⟩ := hw
      refine (ensures_timeout hE hQ ((congrArg TaskKey.taskId hkey).trans hsid)
        ((congrArg TaskKey.pid hkey).trans hspid) hw).andThen fun s'' v hv => ?_
      obtain ⟨⟨hid'', hpid''⟩, hv⟩ := hv
      refine Calls.ensures_mono (ensures_conclude hE hQ hid'' hpid'' hv) (fun _ u hu => ?_)
        fun _ _ hu => hu
      exact hu.imp_right fun h => ⟨h.1, .inr h.2⟩

/-- `recover_orphaned_task` settles the record unless the process is registered, or a request was
refused. -/
theorem ensures_recoverOrphanedTask (hE : ¬ Refusable E .system) (hQ : Lasting Q) (hid : taskId ≠ "")
    (hx : Tracks Q taskId pid x) :
    (recoverOrphanedTask.tryCatch fun _ => pure () : AgentProg Unit).Ensures E
      (fun _ y => Concluded Q taskId pid y ∨ Tracks Q taskId pid y ∧
        (y.activeProcesses.lookup taskId = some pid ∨ Hindered E))
      (fun _ => J) x := by
  refine Calls.ensures_tryCatch ?_
  obtain ⟨state, hstate, rfl, rfl⟩ := hx.current
  suffices h : recoverOrphanedTask.Ensures E
      (fun _ y => Concluded Q state.taskId state.pid y ∨ Tracks Q state.taskId state.pid y ∧
        y.activeProcesses.lookup state.taskId = some state.pid)
      (fun _ => Left E Q state.taskId state.pid) x from
    Calls.ensures_mono h (fun _ y hy => hy.imp_right fun h => ⟨h.1, .inl h.2⟩)
      fun _ y hy => Calls.ensures_pure (.inr ⟨hy.2, .inr hy.1⟩)
  refine (ensures_loadCurrentTask hE (steady_tracks hQ) hx).andThen fun current y hy => ?_
  obtain ⟨hcurrent, hy⟩ := hy
  have hsome : current = some state := by
    rw [hcurrent, hstate, Option.filter_some, if_pos (decide_eq_true hid)]
  rw [hsome]
  refine Calls.ensures_bind (Calls.ensures_read ?_)
  cases hlookup : y.activeProcesses.lookup state.taskId with
  | some p =>
      obtain rfl := hy.active p hlookup
      exact Calls.ensures_pure (.inr ⟨hy, hlookup⟩)
  | none =>
      have halive : (systemCall fun x => ((x.ending state.pid).isNone, x)).Guards E
          (Tracks Q state.taskId state.pid) (Left E Q state.taskId state.pid) :=
        guards_systemCall (steady_tracks hQ) (fun _ h => h) (.inl hE)
      refine halive.andThen hy fun alive z hz => ?_
      refine (ensures_pumpLogs true (loggable_tracks hQ (k := state.key) rfl rfl) (.inl hE)
        (refusal_leaves (.inl rfl)) rfl hz).andThen fun s w hw => ?_
      obtain ⟨hkey, hw⟩ := hw
      have hsid : s.taskId = state.taskId := congrArg TaskKey.taskId hkey
      have hspid : s.pid = state.pid := congrArg TaskKey.pid hkey
      have hsave : (setCurrentTask (some s)).Guards E (Tracks Q state.taskId state.pid)
          (Left E Q state.taskId state.pid) :=
        guards_systemCall (steady_tracks hQ) (fun v hv =>
          ⟨⟨s, rfl, hsid, hspid⟩, hv.started, hv.active, hQ v _ (later_of_eq rfl rfl) hv.lasting⟩)
          (.inl hE)
      refine hsave.andThen hw fun _ v hv => ?_
      exact (ensures_finalizeBackgroundTask hE hQ hsid hspid _ _ hv).andThen fun _ u hu =>
        Calls.ensures_pure (.inl hu)

end Settle

/-! ## What an iteration keeps -/

/-- `Q` holds, and the record on file, if there is one, is about a process that `P` holds of. -/
structure Oversees (P : Nat → Prop) (Q : AgentWorld → Prop) (x : AgentWorld) : Prop where
  lasting : Q x
  tracked : ∀ state, x.currentTask = some state → P state.pid ∧ Tracks Q state.taskId state.pid x

section Oversee

variable {E : Moment AgentMove AgentCall → Prop} {P : Nat → Prop} {Q J : AgentWorld → Prop}
  {taskId : String} {pid : Nat} {x y : AgentWorld}

theorem Tracks.oversees (h : Tracks Q taskId pid x) (hpid : P pid) : Oversees P Q x := by
  refine ⟨h.lasting, fun state hstate => ?_⟩
  obtain ⟨state', hstate', rfl, rfl⟩ := h.current
  rw [hstate] at hstate'
  rw [Option.some.inj hstate']
  exact ⟨hpid, h⟩

theorem oversees_of_none (hcurrent : x.currentTask = none) (hx : Q x) : Oversees P Q x := by
  refine ⟨hx, fun state hstate => ?_⟩
  rw [hcurrent] at hstate
  cases hstate

theorem Concluded.oversees (h : Concluded Q taskId pid x) : Oversees P Q x :=
  oversees_of_none h.current h.lasting

theorem Oversees.later (h : Oversees P Q x) (hQ : Lasting Q) (hxy : Later x y)
    (hcurrent : y.currentTask = x.currentTask) (hactive : y.activeProcesses = x.activeProcesses) :
    Oversees P Q y where
  lasting := hQ x y hxy h.lasting
  tracked state hstate := by
    obtain ⟨hpid, htracks⟩ := h.tracked state (hcurrent ▸ hstate)
    exact ⟨hpid, htracks.later hQ hxy hcurrent hactive⟩

theorem steady_oversees (hQ : Lasting Q) : Steady (Oversees P Q) := fun a x h =>
  h.later hQ (later_move a x) (by cases a <;> rfl) (by cases a <;> rfl)

/-- Either the record names a task, or nothing is to be done. -/
theorem Oversees.cases (h : Oversees P Q x) :
    (x.currentTask.filter fun state => decide (state.taskId ≠ "")) = none ∨
      ∃ state : CurrentTask, state.taskId ≠ "" ∧ P state.pid ∧
        Tracks Q state.taskId state.pid x := by
  cases hcurrent : x.currentTask with
  | none => exact .inl rfl
  | some state =>
      by_cases hid : state.taskId = ""
      · exact .inl (by simp [hid])
      · exact .inr ⟨state, hid, h.tracked state hcurrent⟩

theorem guards_recover (hE : ¬ Refusable E .system) (hQ : Lasting Q) :
    (recoverOrphanedTask.tryCatch fun _ => pure () : AgentProg Unit).Guards E (Oversees P Q) J := by
  intro x hx
  rcases hx.cases with hnone | ⟨state, hid, hpid, htracks⟩
  · refine Calls.ensures_tryCatch ?_
    refine (ensures_loadCurrentTask hE (steady_oversees hQ) hx).andThen fun current y hy => ?_
    rw [hy.1, hnone]
    exact Calls.ensures_pure hy.2
  · refine Calls.ensures_mono (ensures_recoverOrphanedTask hE hQ hid htracks) (fun _ y hy => ?_)
      fun _ _ hy => hy
    rcases hy with hdone | ⟨hy, -⟩
    · exact hdone.oversees
    · exact hy.oversees hpid

theorem guards_sync (hE : ¬ Refusable E .system) (hQ : Lasting Q) (controls : List TaskControl) :
    (syncActiveTask controls).Guards E (Oversees P Q) (Oversees P Q) := by
  intro x hx
  rcases hx.cases with hnone | ⟨state, hid, hpid, htracks⟩
  · refine (ensures_loadCurrentTask hE (steady_oversees hQ) hx).andThen fun current y hy => ?_
    rw [hy.1, hnone]
    exact Calls.ensures_pure hy.2
  · refine Calls.ensures_mono (ensures_syncActiveTask hE hQ controls hid htracks (.inr trivial))
      (fun _ y hy => ?_) fun _ y hy => hy.2.oversees hpid
    rcases hy with hdone | ⟨hy, -⟩
    · exact hdone.oversees
    · exact hy.oversees hpid

theorem preparable_oversees (hQ : Lasting Q) : Preparable (Oversees P Q) where
  steady := steady_oversees hQ
  truncate _ _ h := h.later hQ (later_of_eq rfl rfl) rfl rfl
  send _ _ h := h.later hQ (later_of_eq rfl rfl) rfl rfl

variable {py : Python} {host : Host} {settings : AgentSettings} {runDirName : String → String}

/-- `start_background_task` puts a new process on file. -/
theorem guards_startBackgroundTask (hE : ¬ Refusable E .system) (hQ : Lasting Q)
    (hP : ∀ x, Q x → P x.processes.length) (task : AgentTask) :
    (startBackgroundTask py host settings runDirName task).Guards E (Oversees P Q)
      (Oversees P Q) := by
  intro x hx
  let L (pid : Nat) (y : AgentWorld) : Prop := Q y ∧ P pid ∧ pid < y.processes.length
  have hL : ∀ pid a y, L pid y → L pid (Environment.move a y) := fun pid a y hy =>
    ⟨hQ.steady a y hy.1, hy.2.1, Nat.lt_of_lt_of_le hy.2.2 (later_move a y).length⟩
  have hlaunch : (launchTask py host settings runDirName task).Ensures E
      (fun state y => L state.pid y ∧ y.activeProcesses.lookup state.taskId = some state.pid ∧
        state.cancelRequested = false ∧ state.timedOut = false)
      (fun _ => Oversees P Q) x := by
    refine ensures_launchTask task (preparable_oversees hQ) hE (fun y p hy _ => ?_) hL
      (fun y _ _ hy => ⟨hQ y _ (later_of_eq rfl rfl) hy.1, hy.2.1, hy.2.2⟩) hx
    exact ⟨hQ y _ (later_popen y p) hy.lasting, hP y hy.lasting, by simp⟩
  refine hlaunch.andThen fun state y hy => ?_
  obtain ⟨hy, hlookup, -, -⟩ := hy
  have hsteady : Steady fun y : AgentWorld => L state.pid y ∧
      y.activeProcesses.lookup state.taskId = some state.pid := fun a y h =>
    ⟨hL state.pid a y h.1, by cases a <;> exact h.2⟩
  have hsave : (setCurrentTask (some state)).Ensures E (fun _ => Oversees P Q)
      (fun _ => Oversees P Q) y :=
    ensures_systemCall (fun z hz => by
      obtain ⟨⟨hlasting, hpid, hlength⟩, hlookup⟩ := hsteady.moved hz ⟨hy, hlookup⟩
      have htracks : Tracks Q state.taskId state.pid { z with currentTask := some state } := by
        refine ⟨⟨state, rfl, rfl, rfl⟩, hlength, fun p hp => ?_,
          hQ z _ (later_of_eq rfl rfl) hlasting⟩
        exact (Option.some.inj (hlookup.symm.trans hp)).symm
      exact htracks.oversees hpid) (.inl hE)
  exact hsave.andThen fun _ z hz => Calls.ensures_pure hz

/-- The end of an iteration. -/
theorem guards_start (hE : ¬ Refusable E .system) (hQ : Lasting Q)
    (hP : ∀ x, Q x → P x.processes.length) (tasks : List AgentTask) :
    (startTasksBackground py host settings runDirName tasks).Guards E (Oversees P Q)
      (Oversees P Q) := by
  have hactive : hasActiveTask.Guards E (Oversees P Q) (Oversees P Q) :=
    guards_systemCall (steady_oversees hQ) (fun _ h => h) (.inl hE)
  refine hactive.bind fun active => ?_
  show (if active = true then _ else _ : AgentProg (List String)).Guards _ _ _
  split
  · exact Calls.guards_pure _
  · cases tasks.head? with
    | none => exact Calls.guards_pure _
    | some task => exact (guards_startBackgroundTask hE hQ hP task).bind fun _ => Calls.guards_pure _

end Oversee

/-! ## The loop -/

section Loop

variable {E : Moment AgentMove AgentCall → Prop} {P : Nat → Prop} {Q J : AgentWorld → Prop}
  {py : Python} {host : Host} {settings : AgentSettings} {runDirName : String → String}
  {taskId : String} {pid : Nat} {x : AgentWorld}

/-- What an iteration does once the record on file was looked after. -/
def startNew (py : Python) (host : Host) (settings : AgentSettings) (runDirName : String → String)
    (tasks : List AgentTask) : AgentProg Unit := do
  if tasks = [] then pure ()
  else if ← hasActiveTask then pure ()
  else
    let _ ← startTasksBackground py host settings runDirName tasks
    pure ()

theorem guards_startNew (hE : ¬ Refusable E .system) (hQ : Lasting Q)
    (hP : ∀ x, Q x → P x.processes.length) (tasks : List AgentTask) :
    (startNew py host settings runDirName tasks).Guards E (Oversees P Q) (Oversees P Q) := by
  have hactive : hasActiveTask.Guards E (Oversees P Q) (Oversees P Q) :=
    guards_systemCall (steady_oversees hQ) (fun _ h => h) (.inl hE)
  unfold startNew
  split
  · exact Calls.guards_pure _
  · refine hactive.bind fun active => ?_
    split
    · exact Calls.guards_pure _
    · exact (guards_start hE hQ hP tasks).bind fun _ => Calls.guards_pure _

/-- Every iteration keeps an overseen record overseen. -/
theorem guards_iteration (hE : ¬ Refusable E .system) (hQ : Lasting Q)
    (hP : ∀ x, Q x → P x.processes.length) (reply : HeartbeatReply) :
    (loopIteration py host settings runDirName reply).Guards E (Oversees P Q) J := by
  refine Calls.Guards.tryCatch ?_ fun _ => Calls.guards_pure ()
  refine (guards_recover hE hQ).bind fun _ => (guards_sync hE hQ reply.taskControls).bind fun _ => ?_
  exact guards_startNew hE hQ hP reply.tasks

/-- A record on file keeps new tasks from being started. -/
theorem ensures_startNew (hE : ¬ Refusable E .system) (hQ : Lasting Q) (hid : taskId ≠ "")
    (tasks : List AgentTask) (hx : Tracks Q taskId pid x) :
    (startNew py host settings runDirName tasks).Ensures E (fun _ => Tracks Q taskId pid)
      (fun _ => J) x := by
  unfold startNew
  split
  · exact Calls.ensures_pure hx
  · have hactive : hasActiveTask.Ensures E
        (fun active y => active = true ∧ Tracks Q taskId pid y) (fun _ => J) x :=
      ensures_systemCall (fun y hy => by
        have h := (steady_tracks hQ).moved hy hx
        obtain ⟨state, hstate, rfl, rfl⟩ := h.current
        refine ⟨?_, h⟩
        rw [AgentWorld.isActive, hstate]
        exact decide_eq_true hid) (.inl hE)
    refine hactive.andThen fun active y hy => ?_
    rw [hy.1]
    exact Calls.ensures_pure hy.2

/-- The agent has sent the result of the task, and does not look after its process any more. -/
abbrev Finished (taskId : String) (pid : Nat) : AgentWorld → Prop :=
  Oversees (fun p => p ≠ pid) (Told taskId pid)

theorem fresh_told (x : AgentWorld) (h : Told taskId pid x) : x.processes.length ≠ pid :=
  Nat.ne_of_gt h.1

/-- An iteration finishes the task on file if its process has exited, unless a request was
refused. -/
theorem ensures_iteration (hE : ¬ Refusable E .system) (hid : taskId ≠ "") (reply : HeartbeatReply)
    (hx : Tracks (HasExited pid) taskId pid x) :
    (loopIteration py host settings runDirName reply).Ensures E
      (fun _ y => Finished taskId pid y ∨ Left E (HasExited pid) taskId pid y) (fun _ => J) x := by
  have hQ := lasting_hasExited pid
  have htold := lasting_told taskId pid
  have hdone : ∀ {y}, Concluded (HasExited pid) taskId pid y → Finished taskId pid y := fun h =>
    oversees_of_none h.current h.told
  have hnew : ∀ y, Finished taskId pid y → (startNew py host settings runDirName reply.tasks).Ensures E
      (fun _ y => Finished taskId pid y ∨ Left E (HasExited pid) taskId pid y)
      (fun _ => Finished taskId pid) y := fun y hy =>
    Calls.ensures_mono (guards_startNew hE htold fresh_told reply.tasks y hy) (fun _ _ h => .inl h)
      fun _ _ h => h
  refine Calls.ensures_tryCatch ?_
  suffices h : (do
      recoverOrphanedTask.tryCatch fun _ => pure ()
      let _ ← syncActiveTask reply.taskControls
      startNew py host settings runDirName reply.tasks : AgentProg Unit).Ensures E
        (fun _ y => Finished taskId pid y ∨ Left E (HasExited pid) taskId pid y)
        (fun _ y => Finished taskId pid y ∨ Left E (HasExited pid) taskId pid y) x from
    Calls.ensures_mono h (fun _ _ h => h) fun _ _ h => Calls.ensures_pure h
  refine (ensures_recoverOrphanedTask hE hQ hid hx).andThen fun _ y hy => ?_
  rcases hy with hy | ⟨hy, hactive⟩
  · -- An orphan was finished.
    refine Calls.ensures_mono (E := E) ((guards_sync hE htold reply.taskControls).andThen (hdone hy)
      fun _ z hz => hnew z hz) (fun _ _ h => h) fun _ _ h => .inl h
  · have hsync := ensures_syncActiveTask hE hQ reply.taskControls hid hy hactive
    refine (Calls.ensures_mono hsync (fun _ _ h => h) fun _ _ h => .inr h).andThen fun _ z hz => ?_
    rcases hz with hz | ⟨hz, hleft⟩
    · exact Calls.ensures_mono (hnew z (hdone hz)) (fun _ _ h => h) fun _ _ h => .inl h
    · have hrefused : Hindered E := hleft.resolve_right (not_not.mpr hz.lasting)
      exact Calls.ensures_mono (ensures_startNew hE hQ hid reply.tasks hz)
        (fun _ _ h => .inr ⟨hrefused, h⟩) fun _ _ h => h

/-! ## Every run -/

theorem Tracks.restart {Q : AgentWorld → Prop} (hQ : Lasting Q) (h : Tracks Q taskId pid x) :
    Tracks Q taskId pid x.restart :=
  ⟨h.current, h.started, fun _ hp => (by cases hp), hQ x _ (later_of_eq rfl rfl) h.lasting⟩

theorem Tracks.start (hQ : Lasting Q) (h : Tracks Q taskId pid x) (i : Iteration) :
    Tracks Q taskId pid (i.start x) := by
  unfold Iteration.start
  split
  · exact h.restart hQ
  · exact h

theorem Oversees.start (hQ : Lasting Q) (h : Oversees P Q x) (i : Iteration) :
    Oversees P Q (i.start x) := by
  unfold Iteration.start
  split
  · exact ⟨hQ x _ (later_of_eq rfl rfl) h.lasting, fun state hstate =>
      ⟨(h.tracked state hstate).1, (h.tracked state hstate).2.restart hQ⟩⟩
  · exact h

variable {iterations : Nat → Iteration}

theorem notRefusable_system {ks : List AgentCall} :
    ¬ Refusable (Sparing (μ := AgentMove) (.system :: ks)) .system :=
  not_refusable_sparing (List.mem_cons_self ..)

theorem Iteration.Spares.mono {i : Iteration} {ks ls : List AgentCall} (h : i.Spares ks)
    (hsub : ls ⊆ ks) : i.Spares ls := fun n k hk => h n k (hsub hk)

/-- A record is overseen after every iteration. -/
theorem oversees_worldAfter (hQ : Lasting Q) (hP : ∀ x, Q x → P x.processes.length)
    (hspared : ∀ n, (iterations n).Spares [.system]) {n m : Nat} (hnm : n ≤ m)
    (h : Oversees P Q (worldAfter py host settings runDirName iterations x n)) :
    Oversees P Q (worldAfter py host settings runDirName iterations x m) := by
  induction m, hnm using Nat.le_induction with
  | base => exact h
  | succ m _ ih =>
      exact Iteration.run_of_ensures (hspared m)
        (guards_iteration notRefusable_system hQ hP _ _ (ih.start hQ _))

/-- A task stays finished. -/
theorem finished_worldAfter (hspared : ∀ n, (iterations n).Spares [.system]) {n m : Nat} (hnm : n ≤ m)
    (h : Finished taskId pid (worldAfter py host settings runDirName iterations x n)) :
    Finished taskId pid (worldAfter py host settings runDirName iterations x m) :=
  oversees_worldAfter (lasting_told taskId pid) fresh_told hspared hnm h

/-- A task whose process has exited stays on file or is finished. -/
theorem tracks_worldAfter (hspared : ∀ n, (iterations n).Spares [.system]) (hid : taskId ≠ "")
    {n m : Nat} (hnm : n ≤ m)
    (h : Tracks (HasExited pid) taskId pid (worldAfter py host settings runDirName iterations x n)) :
    Finished taskId pid (worldAfter py host settings runDirName iterations x m) ∨
      Tracks (HasExited pid) taskId pid (worldAfter py host settings runDirName iterations x m) := by
  induction m, hnm using Nat.le_induction with
  | base => exact .inr h
  | succ m _ ih =>
      rcases ih with hdone | htracks
      · exact .inl (finished_worldAfter hspared (Nat.le_succ m) hdone)
      · have hrun : Finished taskId pid (worldAfter py host settings runDirName iterations x (m + 1)) ∨
            Left (Sparing [.system]) (HasExited pid) taskId pid
              (worldAfter py host settings runDirName iterations x (m + 1)) :=
          Iteration.run_of_ensures (hspared m) (ensures_iteration notRefusable_system hid _
            (htracks.start (lasting_hasExited pid) _))
        exact hrun.imp_right And.right

/-- The result of the task has been sent, and no record of its process is on file. -/
structure Completed (taskId : String) (pid : Nat) (x : AgentWorld) : Prop where
  sent : ∃ r ∈ x.results, r.taskId = taskId ∧ r.pid = some pid
  cleared : ∀ state, x.currentTask = some state → state.pid ≠ pid

theorem Oversees.completed (h : Finished taskId pid x) : Completed taskId pid x :=
  ⟨h.lasting.2, fun state hstate => (h.tracked state hstate).1⟩

end Loop

/-- In every run of the agent, with restarts, in which no call of the system and no result is
refused, whatever else is refused and whenever processes exit: a task on file whose process has
exited is completed for good, if no upload is refused in some later iteration. -/
theorem exited_tasks_complete (py : Python) (host : Host) (settings : AgentSettings)
    (runDirName : String → String) (iterations : Nat → Iteration) (x : AgentWorld)
    (hidle : x.currentTask = none) (hspared : ∀ n, (iterations n).Spares [.system, .result])
    (n : Nat) (state : CurrentTask)
    (hstate : (worldAfter py host settings runDirName iterations x n).currentTask = some state)
    (hid : state.taskId ≠ "")
    (hexited : HasExited state.pid (worldAfter py host settings runDirName iterations x n))
    (hlater : ∃ m, n ≤ m ∧ (iterations m).Spares [.upload]) :
    ∃ m, ∀ l, m ≤ l → Completed state.taskId state.pid
      (worldAfter py host settings runDirName iterations x l) := by
  have hsystem : ∀ n, (iterations n).Spares [.system] := fun n => (hspared n).mono (by simp)
  have hoversees : Oversees (fun _ => True) (fun _ => True)
      (worldAfter py host settings runDirName iterations x n) :=
    oversees_worldAfter lasting_true (fun _ _ => trivial) hsystem (Nat.zero_le n)
      (oversees_of_none hidle trivial)
  have htracks : Tracks (HasExited state.pid) state.taskId state.pid
      (worldAfter py host settings runDirName iterations x n) :=
    (hoversees.tracked state hstate).2.imp fun _ => hexited
  obtain ⟨m, hnm, hupload⟩ := hlater
  have hall : (iterations m).Spares [.system, .upload, .result] := by
    intro k call hcall
    rcases List.mem_cons.mp hcall with rfl | hcall
    · exact hspared m k _ (by simp)
    · rcases List.mem_cons.mp hcall with rfl | hcall
      · exact hupload k _ (by simp)
      · exact hspared m k _ (List.mem_cons_of_mem _ hcall)
  have hdone : Finished state.taskId state.pid
      (worldAfter py host settings runDirName iterations x (m + 1)) := by
    rcases tracks_worldAfter hsystem hid hnm htracks with hdone | htracks
    · exact finished_worldAfter hsystem (Nat.le_succ m) hdone
    · have hrun : Finished state.taskId state.pid
            (worldAfter py host settings runDirName iterations x (m + 1)) ∨
          Left (Sparing [.system, .upload, .result]) (HasExited state.pid) state.taskId state.pid
            (worldAfter py host settings runDirName iterations x (m + 1)) :=
        Iteration.run_of_ensures hall (ensures_iteration notRefusable_system hid _
          (htracks.start (lasting_hasExited _) _))
      refine hrun.resolve_right fun hleft => ?_
      rcases hleft.1 with hrefused | hrefused
      · exact not_refusable_sparing (by simp) hrefused
      · exact not_refusable_sparing (by simp) hrefused
  exact ⟨m + 1, fun l hl => (finished_worldAfter hsystem hl hdone).completed⟩

/-! ## Uploads that are always refused -/

section Refused

variable {E : Moment AgentMove AgentCall → Prop} {state : CurrentTask} {pid : Nat} {x : AgentWorld}

/-- No result has been sent. -/
def Unreported (x : AgentWorld) : Prop := x.results = []

theorem steady_unreported : Steady Unreported := fun a x h => by cases a <;> exact h

theorem loggable_unreported (k : TaskKey) : Loggable k Unreported :=
  ⟨steady_unreported, fun _ _ _ _ h => h, fun _ _ h => h, fun _ _ _ h => h⟩

theorem guards_systemCall_unreported {α : Type} {f : AgentWorld → α × AgentWorld}
    (hf : ∀ x, Unreported x → Unreported (f x).2) :
    (systemCall f).Guards E Unreported Unreported :=
  guards_systemCall steady_unreported hf (.inr fun _ h => h)

theorem ensures_request_refused {k : AgentCall} {f : AgentWorld → AgentWorld}
    {post : Unit → AgentWorld → Prop} {fail : AgentError → AgentWorld → Prop} (hE : ¬ Grantable E k)
    (h : ∀ y, Moved x y → fail (.refused k) y) : (request k f).Ensures E post fail x :=
  Calls.ensures_act_refused hE h

theorem exists_chunk (taskId : String) (stream : Stream) (u : Upload) :
    ∃ chunk rest, (sendLogChunksWithAck taskId stream u).1 = chunk :: rest := by
  rw [sendLogChunksWithAck]
  split
  · exact ⟨_, _, rfl⟩
  · exact ⟨_, _, rfl⟩

/-- The end of a log is uploaded even if it is empty. -/
theorem ensures_pumpStream_refused (hE : ¬ Grantable E .upload) (stream : Stream) (hx : Unreported x) :
    (pumpStream state true stream).Ensures E (fun _ _ => False) (fun _ => Unreported) x := by
  have hacked : (ackedLogOffset state.taskId stream).Guards E Unreported Unreported :=
    guards_systemCall_unreported fun _ h => h
  have hread : (systemCall fun x => (decodeReplace (x.logs (state.logPath stream)), x)).Guards E
      Unreported Unreported := guards_systemCall_unreported fun _ h => h
  refine hacked.andThen hx fun previousOffset y hy => hread.andThen hy fun file z hz => ?_
  obtain ⟨u, hu⟩ : ∃ u, uploadIncrementalLogs file previousOffset true = some u :=
    ⟨_, if_pos (.inr rfl)⟩
  simp only [hu]
  obtain ⟨chunk, rest, hchunks⟩ := exists_chunk state.taskId stream u
  have hsend : (sendTaskLogChunk chunk).Ensures E (fun _ _ => False) (fun _ => Unreported) z :=
    ensures_request_refused hE fun w hw => steady_unreported.moved hw hz
  have hchunk : (Calls.forEach (sendLogChunksWithAck state.taskId stream u).1 fun chunk => do
      sendTaskLogChunk chunk
      storeAckedLogOffset state.taskId stream (chunk.offsetStart + chunk.text.length) :
        AgentProg Unit).Ensures E (fun _ _ => False) (fun _ => Unreported) z := by
    rw [hchunks]
    exact (hsend.never _).never _
  exact (hchunk.never _).never _

theorem ensures_pumpLogs_refused (hE : ¬ Grantable E .upload) (hx : Unreported x) :
    (pumpLogs state true).Ensures E (fun _ _ => False) (fun _ => Unreported) x := by
  have hinit : initLogOffsets.Guards E Unreported Unreported :=
    guards_systemCalls 2 steady_unreported (.inr fun _ h => h)
  refine hinit.andThen hx fun _ y hy => ?_
  exact (ensures_pumpStream_refused hE .stdout hy).never _

theorem guards_finalize_refused (hE : ¬ Grantable E .upload) (finalStatus : FinalStatus)
    (code : Option Int) :
    (finalizeBackgroundTask state finalStatus code).Guards E Unreported Unreported := fun _ hx =>
  Calls.ensures_bind (Calls.ensures_read ((ensures_pumpLogs_refused hE hx).never _))

theorem guards_recover_refused (hE : ¬ Grantable E .upload) :
    recoverOrphanedTask.Guards E Unreported Unreported := by
  have hload : loadCurrentTask.Guards E Unreported Unreported :=
    guards_systemCall_unreported fun _ h => h
  refine hload.bind fun current => ?_
  cases current with
  | none => exact Calls.guards_pure _
  | some state =>
      refine (Calls.guards_read _).bind fun active => ?_
      cases active with
      | some p => exact Calls.guards_pure _
      | none =>
          have halive : (systemCall fun x => ((x.ending state.pid).isNone, x)).Guards E Unreported
              Unreported := guards_systemCall_unreported fun _ h => h
          refine halive.bind fun alive => fun x hx => ?_
          exact (ensures_pumpLogs_refused hE hx).never _

theorem guards_checkTimeout_refused :
    (checkTimeout state pid).Guards E Unreported Unreported := by
  have hpoll : (pollProcess pid).Guards E Unreported Unreported :=
    guards_systemCall_unreported fun _ h => h
  refine hpoll.bind fun polled => ?_
  cases polled with
  | some code => exact Calls.guards_pure _
  | none =>
      have hclock : (systemCall fun x => (x.clock, x)).Guards E Unreported Unreported :=
        guards_systemCall_unreported fun _ h => h
      have hterminate : (terminateProcessTree pid .timeout).Guards E Unreported Unreported :=
        guards_systemCall_unreported fun _ h => h
      have hsave : ∀ s, (setCurrentTask s).Guards E Unreported Unreported := fun s =>
        guards_systemCall_unreported fun _ h => h
      refine hclock.bind fun now => ?_
      show (if state.overdue now = true then _ else _ : AgentProg CurrentTask).Guards _ _ _
      split
      · exact hterminate.bind fun _ => (hsave _).bind fun _ => Calls.guards_pure _
      · exact Calls.guards_pure _

theorem guards_sync_refused (hE : ¬ Grantable E .upload) :
    (syncActiveTask []).Guards E Unreported Unreported := by
  have hload : loadCurrentTask.Guards E Unreported Unreported :=
    guards_systemCall_unreported fun _ h => h
  have hpoll : ∀ pid, (pollProcess pid).Guards E Unreported Unreported := fun pid =>
    guards_systemCall_unreported fun _ h => h
  refine hload.bind fun current => ?_
  cases current with
  | none => exact Calls.guards_pure _
  | some state =>
      refine (Calls.guards_read _).bind fun active => ?_
      cases active with
      | none => exact Calls.guards_pure _
      | some p =>
          refine Calls.Guards.bind (p := requestCancel [] state p) (Calls.guards_pure state) fun s => ?_
          refine Calls.Guards.bind (fun x hx => ?_) fun s' => ?_
          · exact Calls.ensures_mono (ensures_pumpLogs false (loggable_unreported s.key)
              (.inr fun _ h => h) (.inr fun _ h => h) rfl hx) (fun _ _ h => h.2) fun _ _ h => h
          · refine guards_checkTimeout_refused.bind fun s'' => (hpoll p).bind fun polled => ?_
            cases polled with
            | none => exact Calls.guards_pure _
            | some code => exact (guards_finalize_refused hE _ _).bind fun _ => Calls.guards_pure _

end Refused

/-- A task is started whose process exits at once, and then every upload is refused. -/
def refusedForever : Nat → Iteration
  | 0 => { reply := { tasks := [healthTask] }, moments := fun _ => { moves := [.exits 0 0] } }
  | _ + 1 => { moments := fun _ => { refused := [.upload] } }

theorem refusedForever_spares (n : Nat) : (refusedForever n).Spares [.system, .result] := by
  cases n with
  | zero => exact fun _ _ _ h => by cases h
  | succ n =>
      intro k call hcall h
      obtain rfl : call = .upload := List.mem_singleton.mp h
      simp at hcall

theorem refusedForever_first :
    ((worldAfter plainPython bareHost {} id refusedForever {} 1).currentTask.map
        fun state => (state.taskId, state.pid)) = some ("t", 0) ∧
      (worldAfter plainPython bareHost {} id refusedForever {} 1).ending 0 = some (.itself 0) ∧
      (worldAfter plainPython bareHost {} id refusedForever {} 1).results.length = 0 := by
  decide +kernel

/-- No result is ever sent. -/
theorem refusedForever_unreported (n : Nat) :
    Unreported (worldAfter plainPython bareHost {} id refusedForever {} (n + 1)) := by
  have hE : ¬ Grantable (fun m : Moment AgentMove AgentCall => m = { refused := [.upload] }) .upload := by
    rintro ⟨m, rfl, h⟩
    exact h (List.mem_singleton.mpr rfl)
  induction n with
  | zero => exact List.length_eq_zero_iff.mp refusedForever_first.2.2
  | succ n ih =>
      refine Iteration.run_of_ensures (E := fun m => m = { refused := [.upload] })
        (i := refusedForever (n + 1)) (fun _ => rfl) ?_
      have hguards : (loopIteration plainPython bareHost {} id {}).Guards
          (fun m => m = { refused := [.upload] }) Unreported Unreported := by
        refine Calls.Guards.tryCatch ?_ fun _ => Calls.guards_pure ()
        refine ((guards_recover_refused hE).tryCatch fun _ => Calls.guards_pure ()).bind fun _ => ?_
        exact (guards_sync_refused hE).bind fun _ => Calls.guards_pure ()
      exact hguards _ ih

/-- A task is started whose process exits at once, and uploads are refused in the next iteration
only. -/
def refusedOnce : Nat → Iteration
  | 0 => refusedForever 0
  | 1 => refusedForever 1
  | _ + 2 => {}

/-- The task is completed in the end. -/
theorem exited_tasks_complete_refused_once :
    ∃ m, ∀ l, m ≤ l → Completed "t" 0 (worldAfter plainPython bareHost {} id refusedOnce {} l) := by
  obtain ⟨hcurrent, hending, -⟩ := refusedForever_first
  obtain ⟨state, hstate, hkey⟩ := Option.map_eq_some_iff.mp hcurrent
  obtain ⟨hid, hpid⟩ := Prod.mk.inj hkey
  have hspared : ∀ n, (refusedOnce n).Spares [.system, .result] := by
    intro n
    rcases n with _ | _ | n
    · exact refusedForever_spares 0
    · exact refusedForever_spares 1
    · exact fun _ _ _ h => by cases h
  have hexited : HasExited state.pid (worldAfter plainPython bareHost {} id refusedOnce {} 1) := by
    rw [hpid]
    exact congrArg Option.isSome hending
  have h := exited_tasks_complete plainPython bareHost {} id refusedOnce {} rfl hspared 1 state hstate
    (by rw [hid]; decide) hexited ⟨2, by decide, fun _ _ _ h => by cases h⟩
  rwa [hid, hpid] at h

/-- The center refuses the logs of a task for good, and its result is never sent. -/
theorem refused_upload_wedges :
    ¬ ∀ (py : Python) (host : Host) (settings : AgentSettings) (runDirName : String → String)
        (iterations : Nat → Iteration) (x : AgentWorld), x.currentTask = none →
      (∀ n, (iterations n).Spares [.system, .result]) → ∀ (n : Nat) (state : CurrentTask),
      (worldAfter py host settings runDirName iterations x n).currentTask = some state →
      state.taskId ≠ "" →
      HasExited state.pid (worldAfter py host settings runDirName iterations x n) →
      ∃ m, n < m ∧ Completed state.taskId state.pid
        (worldAfter py host settings runDirName iterations x m) := by
  intro h
  obtain ⟨hcurrent, hending, -⟩ := refusedForever_first
  obtain ⟨state, hstate, hkey⟩ := Option.map_eq_some_iff.mp hcurrent
  obtain ⟨hid, hpid⟩ := Prod.mk.inj hkey
  have hexited : HasExited state.pid
      (worldAfter plainPython bareHost {} id refusedForever {} 1) := by
    rw [hpid, HasExited, hending]
    rfl
  obtain ⟨m, hm, hcompleted⟩ := h plainPython bareHost {} id refusedForever {} rfl
    refusedForever_spares 1 state hstate (by rw [hid]; decide) hexited
  obtain ⟨k, rfl⟩ := Nat.exists_eq_succ_of_ne_zero (Nat.ne_of_gt (Nat.lt_of_le_of_lt (Nat.zero_le 1) hm))
  obtain ⟨r, hr, -⟩ := hcompleted.sent
  rw [refusedForever_unreported k] at hr
  cases hr

end GpuFleet
