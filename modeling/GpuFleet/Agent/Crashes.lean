import GpuFleet.Agent.Completion
import GpuFleet.Agent.StateFiles

/-!
# Crashes

`save_json` empties a file before it writes, so an agent that crashes in between
leaves a part of the text.  No part but the whole is JSON: `load_json` raises, at the
next start and at each one after it, and with it the heartbeat and whatever asks
for the task.

What is in the two files counts when the agent comes up again, and what was in its
memory is lost.  A start saves its record last, after its process runs, and a run
for a single heartbeat clears it before it sends the result.  A crash in between
leaves a process that no record names, and nobody reports it.

So an agent survives a crash in a save exactly if the file is whole, as it was before
the save or as it is after it, and the record names every process not yet reported
(`crashes_survived_iff`).
-/

namespace GpuFleet

open Foundations Foundations.JsonText

/-! ## The records of a task -/

/-- A JSON string. -/
def textValue (s : String) : Value := .str (pointsOf s)

/-- What `execute_task` saves. -/
structure ForegroundTask where
  taskId : String
  pid : Nat
  /-- In seconds. -/
  startedAt : Nat
  runDir : AbsPath

/-- What `current_task.json` is about: nothing, a task of the loop, or one of a single heartbeat. -/
inductive TaskRecord where
  | idle
  | background (state : CurrentTask)
  | foreground (task : ForegroundTask)

/-- The fields of a record that a heartbeat and `recover_orphaned_task` read, those of the summary
aside. -/
def CurrentTask.fields (state : CurrentTask) : List (String × Value) :=
  [("task_id", textValue state.taskId), ("pid", .int state.pid),
    ("started_at", textValue (Iso.isoformat state.startedAt)), ("boot_id", textValue state.bootId),
    ("stdout_path", textValue (pathText state.stdoutPath)),
    ("stderr_path", textValue (pathText state.stderrPath)),
    ("cancel_requested", .bool state.cancelRequested)]

/-- The fields of the record of `execute_task`. -/
def ForegroundTask.fields (task : ForegroundTask) : List (String × Value) :=
  [("task_id", textValue task.taskId), ("pid", .int task.pid),
    ("started_at", textValue (Iso.isoformat task.startedAt)),
    ("run_dir", textValue (pathText task.runDir))]

namespace TaskRecord

/-- The fields of the record. -/
def fields : TaskRecord → List (String × Value)
  | idle => []
  | background state => state.fields
  | foreground task => task.fields

/-- The fields that the agent asks for and the record lacks. -/
def lacks : TaskRecord → List String
  | foreground _ => ["boot_id", "stdout_path", "stderr_path", "cancel_requested"]
  | _ => []

/-- The flag that is missing unless it says `True`. -/
def timedOut : TaskRecord → Bool
  | background state => state.timedOut
  | _ => false

/-- The dictionary is such a record, whatever else it holds. -/
structure HeldBy (record : TaskRecord) (d : Dict) : Prop where
  fields : ∀ f ∈ record.fields, field? d f.1 = some f.2
  lacks : ∀ k ∈ record.lacks, field? d k = none
  timedOut : field? d "timed_out" = if record.timedOut then some (.bool true) else none
  empty : record = idle → d = []

/-- The task that is named, with its pid. -/
def names : TaskRecord → Option (String × Nat)
  | idle => none
  | background state => some (state.taskId, state.pid)
  | foreground task => some (task.taskId, task.pid)

/-- The task that the agent takes up: one with an id. -/
def task (record : TaskRecord) : Option (String × Nat) := record.names.filter fun t => t.1 ≠ ""

end TaskRecord

/-- The dictionary of `current_task.json`. -/
structure SavedRecord where
  record : TaskRecord
  dict : Dict
  written : Written (.obj dict)
  held : record.HeldBy dict

/-- The dictionary of `log_offsets.json`. -/
structure SavedOffsets where
  table : OffsetTable
  dict : Dict
  held : IsOffsets dict table

/-- What the two files say. -/
structure SavedState where
  current : SavedRecord
  offsets : SavedOffsets

/-! ## Files -/

/-- The two files, as far as they exist. -/
structure StateFiles where
  currentTask : Option (List UInt8) := none
  logOffsets : Option (List UInt8) := none

/-- `load_json` returns what the state says. -/
structure StateFiles.Loads (files : StateFiles) (s : SavedState) : Prop where
  currentTask : loadJson files.currentTask [] = some (.obj s.current.dict)
  logOffsets : loadJson files.logOffsets [] = some (.obj s.offsets.dict)

/-- A `save_json` of one of the files. -/
inductive Save where
  | currentTask (task : SavedRecord)
  | logOffsets (offsets : SavedOffsets)

namespace Save

/-- The dictionary that is saved. -/
def dict : Save → Dict
  | currentTask task => task.dict
  | logOffsets offsets => offsets.dict

/-- The state after the save. -/
def apply (s : SavedState) : Save → SavedState
  | currentTask task => { s with current := task }
  | logOffsets offsets => { s with offsets }

/-- The files when the one that is saved holds these bytes. -/
def put (files : StateFiles) (bytes : List UInt8) : Save → StateFiles
  | currentTask _ => { files with currentTask := some bytes }
  | logOffsets _ => { files with logOffsets := some bytes }

end Save

/-- The files when the agent crashes in a save: before the file is emptied, or when so many bytes of
the text have been written. -/
def StateFiles.crashed (linesep : Linesep) (files : StateFiles) (save : Save) :
    Option Nat → StateFiles
  | none => files
  | some n => save.put files ((saveJson linesep save.dict).take n)

/-- The state that a crash leaves, if it leaves the file whole. -/
def SavedState.left (old : SavedState) (save : Save) : Option Nat → SavedState
  | none => old
  | some _ => save.apply old

/-- The file is as it was before the save, or as it is after it. -/
def Whole (linesep : Linesep) (save : Save) (point : Option Nat) : Prop :=
  ∀ n, point = some n → (saveJson linesep save.dict).length ≤ n

/-! ## The next start -/

/-- What `collect_task_runtime` puts into the heartbeat, unless it raises: the id of the task, its
pid and when it started. -/
def collectTaskRuntime (file : Option (List UInt8)) :
    Option (Option Value × Option Value × Option Value) :=
  ((loadJson file []).bind dict?).map fun state =>
    (field? state "task_id", field? state "pid", field? state "started_at")

/-- What a record puts into the heartbeat. -/
def TaskRecord.runtime (record : TaskRecord) : Option Value × Option Value × Option Value :=
  (record.fields.lookup "task_id", record.fields.lookup "pid", record.fields.lookup "started_at")

/-- `upload_incremental_logs` of a record without logs. -/
def saveForeground : AgentProg Unit := do
  initLogOffsets
  systemCalls 1

/-- `recover_orphaned_task` of a record of `execute_task`. -/
def recoverForeground (task : ForegroundTask) : AgentProg Unit := do
  systemCalls 1
  match ← activeProcess task.taskId with
  | some _ => pure ()
  | none =>
      let alive ← systemCall fun x => ((x.ending task.pid).isNone, x)
      saveForeground
      -- The note on the recovery.
      systemCalls 1
      let finishedAt ← nowIso
      saveForeground
      sendTaskResult
        { taskId := task.taskId, finalStatus := if alive then .lost else .failed, bootId := ""
          pid := task.pid, startedAt := task.startedAt, finishedAt }
      sendSummary
      popProcess task.taskId
      clearLogOffsets task.taskId
      setCurrentTask none
      pure ()

/-- The record of a task of the loop. -/
def TaskRecord.background? : TaskRecord → Option CurrentTask
  | background state => some state
  | _ => none

namespace SavedState

/-- The world of an agent that starts with these files. -/
def start (s : SavedState) (x : AgentWorld) : AgentWorld :=
  { x.restart with
    currentTask := s.current.record.background?
    ackedOffset := fun taskId stream => (s.offsets.table taskId stream.text).toNat }

/-- `recover_orphaned_task` -/
def recover (s : SavedState) : AgentProg Unit :=
  match s.current.record with
  | .foreground task => if task.taskId = "" then systemCalls 1 else recoverForeground task
  | _ => recoverOrphanedTask

end SavedState

/-- No call is refused. -/
abbrev Granted : Moment AgentMove AgentCall → Prop := Sparing [.system, .upload, .result]

/-- The process was started for this task, and no result of it has been sent. -/
def Running (taskId : String) (pid : Nat) (x : AgentWorld) : Prop :=
  x.processes[pid]?.map Process.taskId = some taskId ∧ ∀ r ∈ x.results, r.pid ≠ some pid

/-- A result of the task and its process has been sent. -/
def HasReport (taskId : String) (pid : Nat) (x : AgentWorld) : Prop :=
  ∃ r ∈ x.results, r.taskId = taskId ∧ r.pid = some pid

/-- The next start loads what the files said before the save or after it, builds its heartbeat,
and reports the task on file and every one that was running, if no call is refused then. -/
def Survives (x : AgentWorld) (files : StateFiles) (old new : SavedState) : Prop :=
  ∃ s, (s = old ∨ s = new) ∧ files.Loads s ∧
    collectTaskRuntime files.currentTask = some s.current.record.runtime ∧
    ∀ scene : AgentScene, scene.state = s.start x → scene.Under Granted →
      (s.recover scene).1 = .ok () ∧ ∀ taskId pid,
        Running taskId pid x ∨ s.current.record.task = some (taskId, pid) →
          HasReport taskId pid (s.recover scene).2.state

/-! ## What is loaded -/

section Load

variable {linesep : Linesep} {d : Dict} {record record' : TaskRecord}

/-- What goes into the heartbeat is in each record but that of no task, which holds nothing. -/
theorem TaskRecord.HeldBy.lookup (h : record.HeldBy d) {k : String}
    (hk : k ∈ ["task_id", "pid", "started_at"]) : field? d k = record.fields.lookup k := by
  cases hfound : record.fields.lookup k with
  | some v =>
      obtain ⟨before, after, hfields, -⟩ := List.lookup_eq_some_iff.mp hfound
      exact h.fields (k, v) (by simp [hfields])
  | none =>
      cases record with
      | idle =>
          rw [h.empty rfl]
          rfl
      | background state =>
          simp only [List.mem_cons, List.not_mem_nil, or_false] at hk
          rcases hk with rfl | rfl | rfl <;>
            simp [TaskRecord.fields, CurrentTask.fields] at hfound
      | foreground task =>
          simp only [List.mem_cons, List.not_mem_nil, or_false] at hk
          rcases hk with rfl | rfl | rfl <;>
            simp [TaskRecord.fields, ForegroundTask.fields] at hfound

/-- A dictionary holds of a record what goes into the heartbeat. -/
theorem TaskRecord.HeldBy.runtime_eq (h : record.HeldBy d) :
    (field? d "task_id", field? d "pid", field? d "started_at") = record.runtime := by
  rw [h.lookup (by simp), h.lookup (by simp), h.lookup (by simp), TaskRecord.runtime]

/-- What goes into the heartbeat of a task says which one it is. -/
theorem TaskRecord.runtime_names :
    record.runtime.1 = record.names.map (fun t => textValue t.1) ∧
      record.runtime.2.1 = record.names.map fun t => .int t.2 := by
  cases record <;> exact ⟨rfl, rfl⟩

/-- A dictionary names one task. -/
theorem TaskRecord.HeldBy.task_eq (h : record.HeldBy d) (h' : record'.HeldBy d) :
    record.task = record'.task := by
  have hruntime := h.runtime_eq.symm.trans h'.runtime_eq
  have hid := congrArg Prod.fst hruntime
  have hpid := congrArg (fun r => r.2.1) hruntime
  simp only [runtime_names] at hid hpid
  have hnames : record.names = record'.names := by
    cases hn : record.names with
    | none =>
        rw [hn, Option.map_none] at hid
        exact (Option.map_eq_none_iff.mp hid.symm).symm
    | some t =>
        rw [hn, Option.map_some] at hid hpid
        obtain ⟨t', ht', hid'⟩ := Option.map_eq_some_iff.mp hid.symm
        rw [ht', Option.map_some] at hpid
        have htext := pointsOf_inj (Value.str.inj hid')
        have hint := Int.ofNat.inj (Value.int.inj (Option.some.inj hpid))
        rw [ht', ← Prod.ext htext.symm hint]
  rw [TaskRecord.task, hnames, TaskRecord.task]

/-- The heartbeat is built from what the record says. -/
theorem collectTaskRuntime_of_loads {file : Option (List UInt8)}
    (hload : loadJson file [] = some (.obj d)) (h : record.HeldBy d) :
    collectTaskRuntime file = some record.runtime := by
  rw [collectTaskRuntime, hload, Option.bind_some, dict?, Option.map_some, h.runtime_eq]

theorem Save.written (save : Save) : Written (.obj save.dict) := by
  cases save with
  | currentTask task => exact task.written
  | logOffsets offsets => exact offsets.held.written

variable {files : StateFiles} {old s : SavedState} {save : Save} {point : Option Nat}

/-- A crash that leaves the file whole leaves files that are loaded. -/
theorem StateFiles.Loads.crashed (h : files.Loads old) (hwhole : Whole linesep save point) :
    (files.crashed linesep save point).Loads (old.left save point) := by
  cases point with
  | none => exact h
  | some n =>
      have hload : loadJson (some ((saveJson linesep save.dict).take n)) [] =
          some (.obj save.dict) := by
        rw [List.take_of_length_le (hwhole n rfl), loadJson_saveJson save.written]
      cases save with
      | currentTask task => exact ⟨hload, h.logOffsets⟩
      | logOffsets offsets => exact ⟨h.currentTask, hload⟩

theorem whole_length (linesep : Linesep) (save : Save) :
    Whole linesep save (some (saveJson linesep save.dict).length) :=
  fun _ hn => Nat.le_of_eq (Option.some.inj hn)

/-- A file that has just been emptied is not whole. -/
theorem not_whole_zero : ¬ Whole linesep save (some 0) := by
  intro h
  have hload : loadJson (some (saveJson linesep save.dict)) [] = _ :=
    loadJson_saveJson save.written []
  rw [List.length_eq_zero_iff.mp (Nat.le_zero.mp (h 0 rfl))] at hload
  have hempty : loadJson (some []) [] = none := rfl
  rw [hempty] at hload
  cases hload

/-- Files of which one is not whole are not loaded. -/
theorem whole_of_loads (h : (files.crashed linesep save point).Loads s) :
    Whole linesep save point := by
  rintro n rfl
  by_contra hlt
  have hback : (saveJson linesep save.dict).drop n ≠ [] := by
    rw [Ne, List.drop_eq_nil_iff]
    exact hlt
  have hnone : loadJson (some ((saveJson linesep save.dict).take n)) [] = none :=
    loadJson_torn save.written (List.take_append_drop n _).symm hback []
  cases save with
  | currentTask task =>
      have hload := h.currentTask
      rw [StateFiles.crashed, Save.put, hnone] at hload
      cases hload
  | logOffsets offsets =>
      have hload := h.logOffsets
      rw [StateFiles.crashed, Save.put, hnone] at hload
      cases hload

/-- What is loaded is the task that the crash leaves. -/
theorem task_of_loads (hfiles : files.Loads old)
    (h : (files.crashed linesep save point).Loads s) :
    s.current.record.task = (old.left save point).current.record.task := by
  have hleft := hfiles.crashed (whole_of_loads h)
  have hdict : s.current.dict = (old.left save point).current.dict := by
    have hload := h.currentTask
    rw [hleft.currentTask] at hload
    simpa using hload.symm
  have hheld := s.current.held
  rw [hdict] at hheld
  exact hheld.task_eq (old.left save point).current.held

end Load

/-! ## What is reported -/

section Recover

variable {state : CurrentTask} {results : List TaskReport} {taskId : String} {pid : Nat}
  {x : AgentWorld}

theorem granted {P : Prop} {k : AgentCall} (hk : k ∈ [AgentCall.system, .upload, .result]) :
    ¬ Refusable Granted k ∨ P := .inl (not_refusable_sparing hk)

/-- The results of an agent that has registered no process since it came up. -/
structure Restarted (results : List TaskReport) (x : AgentWorld) : Prop where
  results : x.results = results
  idle : x.activeProcesses = []

theorem steady_restarted (results : List TaskReport) : Steady (Restarted results) := fun a x h =>
  ⟨by cases a <;> exact h.results, by cases a <;> exact h.idle⟩

theorem loggable_restarted (k : TaskKey) (results : List TaskReport) :
    Loggable k (Restarted results) where
  steady := steady_restarted results
  ack _ _ _ _ h := ⟨h.results, h.idle⟩
  send _ _ h := ⟨h.results, h.idle⟩
  save _ _ _ h := ⟨h.results, h.idle⟩

/-- One more result has been sent, about this task and its process. -/
def SentOne (taskId : String) (pid : Nat) (results : List TaskReport) (x : AgentWorld) : Prop :=
  ∃ r, x.results = results ++ [r] ∧ r.taskId = taskId ∧ r.pid = some pid

theorem steady_sentOne (taskId : String) (pid : Nat) (results : List TaskReport) :
    Steady (SentOne taskId pid results) := fun a _ h => by cases a <;> exact h

/-- The result goes out, and then the agent forgets the task. -/
theorem ensures_forget {α : Type} {r : TaskReport} (hx : Restarted results x)
    (hid : r.taskId = taskId) (hpid : r.pid = some pid) (a : α) :
    (do
      sendTaskResult r
      sendSummary
      popProcess r.taskId
      clearLogOffsets r.taskId
      setCurrentTask none
      pure a : AgentProg α).Ensures Granted (fun _ => SentOne taskId pid results)
      (fun _ _ => False) x := by
  have hsent := steady_sentOne taskId pid results
  have hresult : (sendTaskResult r).Ensures Granted (fun _ => SentOne taskId pid results)
      (fun _ _ => False) x :=
    ensures_request (fun y hy =>
      ⟨r, by rw [((steady_restarted results).moved hy hx).results], hid, hpid⟩) (granted (by simp))
  have hsummary : sendSummary.Guards Granted (SentOne taskId pid results) fun _ => False :=
    guards_request hsent (fun _ h => h) (granted (by simp))
  have hclear : (clearLogOffsets r.taskId).Guards Granted (SentOne taskId pid results)
      fun _ => False :=
    (guards_systemCalls 1 hsent (granted (by simp))).bind fun _ =>
      guards_systemCall hsent (fun _ h => h) (granted (by simp))
  have hforget : (setCurrentTask none).Guards Granted (SentOne taskId pid results) fun _ => False :=
    guards_systemCall hsent (fun _ h => h) (granted (by simp))
  refine hresult.andThen fun _ y hy => hsummary.andThen hy fun _ z hz => ?_
  refine Calls.ensures_bind (Calls.ensures_update ?_)
  refine hclear.andThen hz fun _ w hw => hforget.andThen hw fun _ v hv => ?_
  exact Calls.ensures_pure hv

/-- The end of a task of the loop is reported once. -/
theorem ensures_finalizeSent (state : CurrentTask) (finalStatus : FinalStatus) (code : Option Int)
    (hx : Restarted results x) :
    (finalizeBackgroundTask state finalStatus code).Ensures Granted
      (fun _ => SentOne state.taskId state.pid results) (fun _ _ => False) x := by
  refine Calls.ensures_bind (Calls.ensures_read ?_)
  refine (ensures_pumpLogs true (loggable_restarted state.key results) (granted (by simp))
    (granted (by simp)) rfl hx).andThen fun state' y hy => ?_
  obtain ⟨hkey, hy⟩ := hy
  refine (guards_systemCalls 2 (steady_restarted results) (granted (by simp))).andThen hy
    fun _ z hz => ?_
  exact ensures_forget hz (congrArg TaskKey.taskId hkey)
    (congrArg some (congrArg TaskKey.pid hkey)) _

/-- The task of the loop on file is reported once. -/
theorem ensures_recoverBackground (hx : Restarted results x) (hcurrent : x.currentTask = some state)
    (hid : state.taskId ≠ "") :
    recoverOrphanedTask.Ensures Granted (fun _ => SentOne state.taskId state.pid results)
      (fun _ _ => False) x := by
  have hsteady := steady_restarted results
  refine (ensures_loadCurrentTask (not_refusable_sparing (by simp)) hsteady hx).andThen
    fun current y hy => ?_
  obtain ⟨hloaded, hy⟩ := hy
  have hsome : current = some state := by
    rw [hloaded, hcurrent, Option.filter_some, if_pos (decide_eq_true hid)]
  rw [hsome]
  refine Calls.ensures_bind (Calls.ensures_read ?_)
  rw [hy.idle]
  have halive : (systemCall fun x => ((x.ending state.pid).isNone, x)).Guards Granted
      (Restarted results) fun _ => False :=
    guards_systemCall hsteady (fun _ h => h) (granted (by simp))
  refine halive.andThen hy fun alive z hz => ?_
  refine (ensures_pumpLogs true (loggable_restarted state.key results) (granted (by simp))
    (granted (by simp)) rfl hz).andThen fun state' w hw => ?_
  obtain ⟨hkey, hw⟩ := hw
  have hsave : (setCurrentTask (some state')).Guards Granted (Restarted results) fun _ => False :=
    guards_systemCall hsteady (fun _ h => ⟨h.results, h.idle⟩) (granted (by simp))
  refine hsave.andThen hw fun _ v hv => ?_
  have hfinal := ensures_finalizeSent state' (state'.orphanStatus alive) none hv
  refine hfinal.andThen fun _ u hu => Calls.ensures_pure ?_
  rwa [show state'.taskId = state.taskId from congrArg TaskKey.taskId hkey,
    show state'.pid = state.pid from congrArg TaskKey.pid hkey] at hu

/-- Without a task on file nothing is reported. -/
theorem ensures_recoverNothing (hx : Restarted results x)
    (hcurrent : (x.currentTask.filter fun state => decide (state.taskId ≠ "")) = none) :
    recoverOrphanedTask.Ensures Granted (fun _ => Restarted results) (fun _ _ => False) x := by
  refine (ensures_loadCurrentTask (not_refusable_sparing (by simp)) (steady_restarted results)
    hx).andThen fun current y hy => ?_
  rw [hy.1, hcurrent]
  exact Calls.ensures_pure hy.2

theorem ensures_recoverForeground (task : ForegroundTask) (hx : Restarted results x) :
    (recoverForeground task).Ensures Granted (fun _ => SentOne task.taskId task.pid results)
      (fun _ _ => False) x := by
  have hsteady := steady_restarted results
  have hcalls : ∀ n, (systemCalls n).Guards Granted (Restarted results) fun _ => False := fun n =>
    guards_systemCalls n hsteady (granted (by simp))
  have hsave : saveForeground.Guards Granted (Restarted results) fun _ => False :=
    (hcalls 2).bind fun _ => hcalls 1
  refine (hcalls 1).andThen hx fun _ y hy => Calls.ensures_bind (Calls.ensures_read ?_)
  rw [hy.idle]
  have halive : (systemCall fun x => ((x.ending task.pid).isNone, x)).Guards Granted
      (Restarted results) fun _ => False :=
    guards_systemCall hsteady (fun _ h => h) (granted (by simp))
  refine halive.andThen hy fun alive z hz => hsave.andThen hz fun _ w hw => ?_
  refine (hcalls 1).andThen hw fun _ v hv => Calls.ensures_bind (Calls.ensures_read ?_)
  exact hsave.andThen hv fun _ u hu => ensures_forget hu rfl rfl ()

/-- The task that is named is reported once, and nothing else is. -/
def ReportsOnly (task : Option (String × Nat)) (results : List TaskReport) (x : AgentWorld) :
    Prop :=
  match task with
  | none => x.results = results
  | some t => SentOne t.1 t.2 results x

theorem TaskRecord.task_of_names (record : TaskRecord) (h : record.names = some (taskId, pid)) :
    record.task = if taskId = "" then none else some (taskId, pid) := by
  rw [TaskRecord.task, h, Option.filter_some]
  by_cases hid : taskId = "" <;> simp [hid]

/-- The next start reports the task on file, and only this. -/
theorem ensures_recover (s : SavedState) (x : AgentWorld) :
    s.recover.Ensures Granted (fun _ => ReportsOnly s.current.record.task x.results)
      (fun _ _ => False) (s.start x) := by
  have hstart : Restarted x.results (s.start x) := ⟨rfl, rfl⟩
  have hcurrent : (s.start x).currentTask = s.current.record.background? := rfl
  have hnothing : ((s.start x).currentTask.filter fun state => decide (state.taskId ≠ "")) = none →
      recoverOrphanedTask.Ensures Granted (fun _ => ReportsOnly none x.results) (fun _ _ => False)
        (s.start x) := fun hnone =>
    Calls.ensures_mono (ensures_recoverNothing hstart hnone) (fun _ _ h => h.results) fun _ _ h => h
  unfold SavedState.recover
  cases hrecord : s.current.record with
  | idle =>
      rw [hcurrent, hrecord] at hnothing
      exact hnothing rfl
  | background state =>
      rw [hrecord] at hcurrent
      rw [TaskRecord.task_of_names (.background state) rfl]
      show recoverOrphanedTask.Ensures _ _ _ _
      split
      · rename_i hid
        refine hnothing ?_
        rw [hcurrent, TaskRecord.background?, Option.filter_some]
        simp [hid]
      · rename_i hid
        exact ensures_recoverBackground hstart hcurrent hid
  | foreground task =>
      rw [TaskRecord.task_of_names (.foreground task) rfl]
      show (if task.taskId = "" then systemCalls 1 else recoverForeground task).Ensures _ _ _ _
      split
      · have hcall : (systemCalls 1).Guards Granted (Restarted x.results) fun _ => False :=
          guards_systemCalls 1 (steady_restarted x.results) (granted (by simp))
        exact Calls.ensures_mono (hcall _ hstart) (fun _ _ h => h.results) fun _ _ h => h
      · exact ensures_recoverForeground task hstart

/-- A process that was running is reported exactly if it is that of the task on file. -/
theorem ReportsOnly.hasReport_iff {task : Option (String × Nat)} {y : AgentWorld}
    (h : ReportsOnly task x.results y) (hrunning : Running taskId pid x) :
    HasReport taskId pid y ↔ task = some (taskId, pid) := by
  cases task with
  | none =>
      have hresults : y.results = x.results := h
      constructor
      · rintro ⟨r, hr, -, hpid⟩
        exact absurd hpid (hrunning.2 r (hresults ▸ hr))
      · exact nofun
  | some t =>
      obtain ⟨sent, hsent, hid, hpid⟩ := h
      constructor
      · rintro ⟨r, hr, hid', hpid'⟩
        rw [hsent, List.mem_append, List.mem_singleton] at hr
        rcases hr with hr | rfl
        · exact absurd hpid' (hrunning.2 r hr)
        · rw [hid] at hid'
          rw [hpid] at hpid'
          rw [← hid', ← Option.some.inj hpid']
      · intro htask
        obtain ⟨rfl, rfl⟩ := Prod.mk.inj (Option.some.inj htask)
        exact ⟨sent, by simp [hsent], hid, hpid⟩

end Recover

/-- The file is whole after the crash and names every process that has not been reported. -/
def KeepsTask (linesep : Linesep) (x : AgentWorld) (old : SavedState) (save : Save)
    (point : Option Nat) : Prop :=
  Whole linesep save point ∧ ∀ taskId pid, Running taskId pid x →
    (old.left save point).current.record.task = some (taskId, pid)

/-- The step: an agent survives a crash if and only if the crash keeps what counts. -/
theorem survives_iff {linesep : Linesep} {x : AgentWorld} {files : StateFiles} {old : SavedState}
    (hfiles : files.Loads old) (save : Save) (point : Option Nat) :
    Survives x (files.crashed linesep save point) old (save.apply old) ↔
      KeepsTask linesep x old save point := by
  constructor
  · rintro ⟨s, -, hloads, -, hrecovers⟩
    refine ⟨whole_of_loads hloads, fun taskId pid hrunning => ?_⟩
    have hgranted : ({ state := s.start x } : AgentScene).Under Granted := fun _ _ _ h => by cases h
    obtain ⟨-, -, hspec⟩ := (ensures_recover s x).returns rfl hgranted
    have hreport := (hrecovers _ rfl hgranted).2 taskId pid (.inl hrunning)
    rw [← task_of_loads hfiles hloads]
    exact (hspec.hasReport_iff hrunning).mp hreport
  · rintro ⟨hwhole, hnamed⟩
    have hloads := hfiles.crashed hwhole
    refine ⟨old.left save point, ?_, hloads, ?_, fun scene hstart hgranted => ?_⟩
    · cases point with
      | none => exact .inl rfl
      | some n => exact .inr rfl
    · exact collectTaskRuntime_of_loads hloads.currentTask (old.left save point).current.held
    · obtain ⟨_, hreturns, hspec⟩ := (ensures_recover _ x).returns hstart hgranted
      refine ⟨hreturns, fun taskId pid h => ?_⟩
      have htask := h.elim (hnamed taskId pid) id
      rw [htask] at hspec
      obtain ⟨sent, hsent, hid, hpid⟩ := hspec
      exact ⟨sent, by simp [hsent], hid, hpid⟩

/-! ## Histories -/

/-- What happens to the files: a save, or a crash in one, with the world as it is then. -/
inductive StateEvent where
  | saved (save : Save)
  | crashed (x : AgentWorld) (save : Save) (point : Option Nat)

/-- The files after it. -/
def StateEvent.files (linesep : Linesep) (files : StateFiles) : StateEvent → StateFiles
  | saved save => save.put files (saveJson linesep save.dict)
  | crashed _ save point => files.crashed linesep save point

/-- What the files say after it, if a crash leaves them whole. -/
def StateEvent.state (s : SavedState) : StateEvent → SavedState
  | saved save => save.apply s
  | crashed _ save point => s.left save point

/-- An event, with what it finds. -/
structure StateStep where
  files : StateFiles
  state : SavedState
  event : StateEvent

/-- The steps of a history. -/
def stateSteps (linesep : Linesep) (files : StateFiles) (s : SavedState) :
    List StateEvent → List StateStep
  | [] => []
  | e :: events => ⟨files, s, e⟩ :: stateSteps linesep (e.files linesep files) (e.state s) events

/-- The agent survives the crash, if it is one. -/
def StateStep.Survived (linesep : Linesep) (t : StateStep) : Prop :=
  match t.event with
  | .saved _ => True
  | .crashed x save point =>
      Survives x (t.files.crashed linesep save point) t.state (save.apply t.state)

/-- The crash keeps what counts, if it is one. -/
def StateStep.Kept (linesep : Linesep) (t : StateStep) : Prop :=
  match t.event with
  | .saved _ => True
  | .crashed x save point => KeepsTask linesep x t.state save point

/-- No offset has been acknowledged. -/
def noOffsets : SavedOffsets where
  table _ _ := 0
  dict := []
  held := ⟨written_empty, by simp [field?], fun _ _ => rfl⟩

/-- There is no task. -/
def noTask : SavedRecord where
  record := .idle
  dict := []
  written := written_empty
  held := ⟨by simp [TaskRecord.fields], by simp [TaskRecord.lacks], rfl, fun _ => rfl⟩

/-- What a new agent finds. -/
def firstState : SavedState := ⟨noTask, noOffsets⟩

section Histories

variable {linesep : Linesep} {files : StateFiles} {s : SavedState}

theorem loads_first : ({} : StateFiles).Loads firstState := ⟨rfl, rfl⟩

theorem StateFiles.Loads.step (h : files.Loads s) {e : StateEvent}
    (hkept : StateStep.Kept linesep ⟨files, s, e⟩) : (e.files linesep files).Loads (e.state s) := by
  cases e with
  | crashed x save point => exact h.crashed hkept.1
  | saved save =>
      have hwhole := h.crashed (whole_length linesep save)
      rw [StateFiles.crashed, List.take_length] at hwhole
      exact hwhole

theorem StateFiles.Loads.survived_iff (h : files.Loads s) (e : StateEvent) :
    StateStep.Survived linesep ⟨files, s, e⟩ ↔ StateStep.Kept linesep ⟨files, s, e⟩ := by
  cases e with
  | saved save => exact Iff.rfl
  | crashed x save point => exact survives_iff h save point

/-- In every history of saves and crashes from the first start of an agent on, it survives each
crash if and only if each leaves the file whole, as it was before the save or as it is after it,
with the task of every process that has not been reported. -/
theorem crashes_survived_iff (linesep : Linesep) (events : List StateEvent) :
    (∀ t ∈ stateSteps linesep {} firstState events, t.Survived linesep) ↔
      ∀ t ∈ stateSteps linesep {} firstState events, t.Kept linesep := by
  suffices hrun : ∀ files s, files.Loads s →
      ((∀ t ∈ stateSteps linesep files s events, t.Survived linesep) ↔
        ∀ t ∈ stateSteps linesep files s events, t.Kept linesep) from hrun _ _ loads_first
  induction events with
  | nil => simp [stateSteps]
  | cons e events ih =>
      intro files s h
      simp only [stateSteps, List.forall_mem_cons, h.survived_iff e]
      exact and_congr_right fun hkept => ih _ _ (h.step hkept)

end Histories

/-! ## A task on file -/

/-- The dictionary with these fields. -/
def dictOf (fields : List (String × Value)) : Dict := fields.map fun f => (pointsOf f.1, f.2)

theorem field?_dictOf (fields : List (String × Value)) (k : String) :
    field? (dictOf fields) k = fields.reverse.lookup k := by
  rw [field?_eq, dictOf, ← List.map_reverse]
  induction fields.reverse with
  | nil => rfl
  | cons f l ih =>
      rw [List.map_cons, List.lookup_cons, List.lookup_cons, ih]
      have hbeq : (pointsOf k == pointsOf f.1) = (k == f.1) := by
        rw [Bool.eq_iff_iff, beq_iff_eq, beq_iff_eq]
        exact ⟨pointsOf_inj, congrArg pointsOf⟩
      rw [hbeq]

theorem written_dictOf {fields : List (String × Value)} (h : ∀ f ∈ fields, Written f.2) :
    Written (.obj (dictOf fields)) := by
  refine .obj (fun f hf => ?_) fun f hf => ?_
  · obtain ⟨g, -, rfl⟩ := List.mem_map.mp hf
    exact isText_pointsOf g.1
  · obtain ⟨g, hg, rfl⟩ := List.mem_map.mp hf
    exact h g hg

namespace TaskRecord

/-- The fields of the record, with the flag. -/
def allFields (record : TaskRecord) : List (String × Value) :=
  record.fields ++ if record.timedOut then [("timed_out", .bool true)] else []

theorem written_allFields (record : TaskRecord) : Written (.obj (dictOf record.allFields)) := by
  have htext : ∀ s, Written (textValue s) := fun s => .str (isText_pointsOf s)
  have hfields : ∀ f ∈ record.fields, Written f.2 := by
    cases record with
    | idle => simp [fields]
    | background state => simp [fields, CurrentTask.fields, htext, Written.int, Written.bool]
    | foreground task => simp [fields, ForegroundTask.fields, htext, Written.int]
  refine written_dictOf fun f hf => ?_
  rcases List.mem_append.mp hf with hf | hf
  · exact hfields f hf
  · split at hf
    · rw [List.mem_singleton.mp hf]
      exact .bool true
    · cases hf

theorem heldBy_allFields (record : TaskRecord) : record.HeldBy (dictOf record.allFields) := by
  cases record with
  | idle => exact ⟨by simp [fields], by simp [lacks], rfl, fun _ => rfl⟩
  | background state =>
      refine ⟨?_, by simp [lacks], ?_, nofun⟩
      · by_cases h : state.timedOut = true <;>
          simp [fields, CurrentTask.fields, field?_dictOf, allFields, timedOut, List.lookup_cons, h]
      · by_cases h : state.timedOut = true <;>
          simp [fields, CurrentTask.fields, field?_dictOf, allFields, timedOut, List.lookup_cons, h]
  | foreground task =>
      refine ⟨?_, ?_, ?_, nofun⟩
      · simp [fields, ForegroundTask.fields, field?_dictOf, allFields, timedOut, List.lookup_cons]
      · simp [lacks, fields, ForegroundTask.fields, field?_dictOf, allFields, timedOut,
          List.lookup_cons]
      · simp [fields, ForegroundTask.fields, field?_dictOf, allFields, timedOut, List.lookup_cons]

/-- The record as it is saved. -/
def saved (record : TaskRecord) : SavedRecord :=
  ⟨record, dictOf record.allFields, record.written_allFields, record.heldBy_allFields⟩

end TaskRecord

/-- The table after `init_log_offsets`. -/
def SavedOffsets.init (offsets : SavedOffsets) (taskId : String) : SavedOffsets where
  table := offsets.table
  dict := (initIn offsets.dict taskId).getD []
  held := by
    have hinit : ∃ d', initIn offsets.dict taskId = some d' ∧ IsOffsets d' offsets.table :=
      initIn_spec offsets.held
    obtain ⟨d', hd', hheld⟩ := hinit
    rwa [hd']

/-- An agent has started a task. -/
def startedWorld : AgentWorld :=
  (agentLoop plainPython bareHost {} id [{ tasks := [healthTask] }] { state := {} }).2.state

/-- Its record. -/
def startedRecord : TaskRecord := startedWorld.currentTask.elim .idle .background

example : startedRecord.task = some ("t", 0) := by decide +kernel

/-- The start saves both files, and the agent crashes when the next save has emptied one. -/
def crashedStart : List StateEvent :=
  [.saved (.logOffsets (noOffsets.init "t")), .saved (.currentTask startedRecord.saved),
    .crashed startedWorld (.currentTask startedRecord.saved) (some 0)]

/-- The task is on file and runs, and the next start does not load it. -/
theorem crash_loses_task : ¬ ∀ (linesep : Linesep) (events : List StateEvent),
    ∀ t ∈ stateSteps linesep {} firstState events, t.Survived linesep := by
  intro h
  have hcrash := h .lf crashedStart _ (.tail _ (.tail _ (.head _)))
  obtain ⟨s, -, hloads, -⟩ := hcrash
  exact not_whole_zero (whole_of_loads hloads)

end GpuFleet
