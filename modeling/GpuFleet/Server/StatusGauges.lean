import GpuFleet.Server.ListTasks
import Mathlib.Algebra.GroupWithZero.Nat
import Mathlib.Algebra.BigOperators.Group.List.Basic
import Mathlib.Data.List.Count
import Mathlib.Data.List.Dedup

/-!
# The gauges of the task statuses

At every tick the scanner counts the tasks of each status that occurs and sets the gauges
of the known statuses, those that do not occur to zero.  A gauge that is not set keeps its
value.

The known statuses are those of the table but for `cancel_requested`.  So the gauges
equal the table after a refresh exactly if the gauge of this status, which no refresh
sets, has held the right number from the start (`refreshes_equal_iff`).
-/

namespace GpuFleet

open Foundations

/-- `GROUP BY status` -/
def statusCounts (db : Db) : List (String × Nat) :=
  let statuses := db.tasks.rows.map fun row => row.status.text
  statuses.dedup.map fun status => (status, statuses.count status)

def knownStatuses : List String :=
  ["pending", "claimed", "running", "succeeded", "failed", "cancelled", "timeout", "lost",
    "reviewing", "rejected", "review_expired"]

/-- The gauges `TASKS_BY_STATUS` and `REVIEW_PENDING`. -/
structure Gauges where
  /-- A gauge that was never set shows as zero. -/
  tasksByStatus : String → Nat := fun _ => 0
  reviewPending : Nat := 0

def updateTasksByStatus (counts : List (String × Nat)) (gauges : Gauges) : Gauges :=
  { gauges with
    tasksByStatus := knownStatuses.foldl (fun shown status =>
      Function.update shown status ((counts.lookup status).getD 0)) gauges.tasksByStatus }

/-- The part of `_refresh_status_gauges` that counts the tasks. -/
def refreshTaskGauges (gauges : Gauges) (db : Db) : Gauges :=
  let taskCounts := statusCounts db
  { updateTasksByStatus taskCounts gauges with
    reviewPending := (taskCounts.lookup "reviewing").getD 0 }

/-- The gauges after refreshes, one from each database. -/
def refreshes (gauges : Gauges) (dbs : List Db) : Gauges := dbs.foldl refreshTaskGauges gauges

/-! ## What the gauges show -/

def allStatuses : List TaskStatus :=
  [.reviewing, .pending, .claimed, .running, .cancelRequested, .succeeded, .failed, .timeout,
    .cancelled, .lost, .rejected, .reviewExpired]

/-- The number of tasks in a status. -/
def tasksIn (db : Db) (status : TaskStatus) : Nat :=
  (db.tasks.rows.map Task.status).count status

/-- The gauges equal the table. -/
structure EqualTable (gauges : Gauges) (db : Db) : Prop where
  occurring : ∀ status ∈ db.tasks.rows.map Task.status,
    gauges.tasksByStatus status.text = tasksIn db status
  others : ∀ status ∉ db.tasks.rows.map Task.status, gauges.tasksByStatus status.text = 0
  total : (allStatuses.map fun status => gauges.tasksByStatus status.text).sum =
    db.tasks.rows.length

theorem text_inj {status status' : TaskStatus} (h : status.text = status'.text) :
    status = status' := by
  cases status <;> cases status' <;> first | rfl | (simp [TaskStatus.text] at h)

theorem lookup_statusCounts (db : Db) (status : TaskStatus) :
    ((statusCounts db).lookup status.text).getD 0 = tasksIn db status := by
  have hcount : (db.tasks.rows.map fun row => row.status.text).count status.text =
      tasksIn db status := by
    rw [tasksIn, ← List.count_map_of_injective _ TaskStatus.text fun _ _ => text_inj, List.map_map]
    rfl
  rw [← hcount, statusCounts]
  by_cases hmem : status.text ∈ db.tasks.rows.map fun row => row.status.text
  · rw [List.lookup_graph _ (List.mem_dedup.mpr hmem), Option.getD_some]
  · have hnone : (((db.tasks.rows.map fun row => row.status.text).dedup).map fun text =>
        (text, (db.tasks.rows.map fun row => row.status.text).count text)).lookup status.text =
          none := by
      refine List.lookup_eq_none_iff.mpr fun p hp => ?_
      obtain ⟨text, htext, rfl⟩ := List.mem_map.mp hp
      refine bne_iff_ne.mpr fun heq => hmem ?_
      rw [heq]
      exact List.mem_dedup.mp htext
    rw [hnone, Option.getD_none, List.count_eq_zero_of_not_mem hmem]

theorem sum_count (statuses : List TaskStatus) :
    (allStatuses.map fun status => statuses.count status).sum = statuses.length := by
  induction statuses with
  | nil => rfl
  | cons status statuses ih =>
      have hone : (allStatuses.map fun status' => if status == status' then 1 else 0).sum = 1 := by
        cases status <;> rfl
      simp only [List.count_cons, List.sum_map_add, ih, hone, List.length_cons]

/-! ## What a refresh sets -/

theorem foldl_update (statuses : List String) (count shown : String → Nat) (label : String) :
    statuses.foldl (fun shown status => Function.update shown status (count status)) shown label =
      if label ∈ statuses then count label else shown label := by
  induction statuses generalizing shown with
  | nil => rfl
  | cons status statuses ih =>
      rw [List.foldl_cons, ih]
      by_cases hlater : label ∈ statuses
      · simp [hlater]
      · by_cases heq : label = status
        · simp [heq]
        · simp [hlater, heq]

theorem known_iff (status : TaskStatus) :
    status.text ∈ knownStatuses ↔ status ≠ .cancelRequested := by
  cases status <;> decide

/-- The gauge of a status after a refresh. -/
theorem refreshTaskGauges_status (gauges : Gauges) (db : Db) (status : TaskStatus) :
    (refreshTaskGauges gauges db).tasksByStatus status.text =
      if status = .cancelRequested then gauges.tasksByStatus "cancel_requested"
      else tasksIn db status := by
  simp only [refreshTaskGauges, updateTasksByStatus, foldl_update, lookup_statusCounts, known_iff]
  by_cases h : status = .cancelRequested
  · simp [h, TaskStatus.text]
  · simp [h]

/-- No refresh sets the gauge of `cancel_requested`. -/
theorem refreshes_cancelRequested (gauges : Gauges) (dbs : List Db) :
    (refreshes gauges dbs).tasksByStatus "cancel_requested" =
      gauges.tasksByStatus "cancel_requested" := by
  induction dbs generalizing gauges with
  | nil => rfl
  | cons db dbs ih =>
      show (refreshes (refreshTaskGauges gauges db) dbs).tasksByStatus "cancel_requested" = _
      rw [ih]
      exact refreshTaskGauges_status gauges db .cancelRequested

theorem equalTable_iff (gauges : Gauges) (db : Db) : EqualTable gauges db ↔
    ∀ status : TaskStatus, gauges.tasksByStatus status.text = tasksIn db status := by
  constructor
  · intro h status
    by_cases hoccurs : status ∈ db.tasks.rows.map Task.status
    · exact h.occurring status hoccurs
    · rw [h.others status hoccurs, tasksIn, List.count_eq_zero_of_not_mem hoccurs]
  · intro h
    constructor
    · exact fun status _ => h status
    · intro status hoccurs
      rw [h status, tasksIn, List.count_eq_zero_of_not_mem hoccurs]
    · simp only [h, tasksIn, sum_count, List.length_map]

/-- After the last of any refreshes, the gauges equal the table exactly if the gauge of
`cancel_requested` held the number of these tasks before the first one. -/
theorem refreshes_equal_iff (gauges : Gauges) (dbs : List Db) (db : Db) :
    EqualTable (refreshes gauges (dbs ++ [db])) db ↔
      gauges.tasksByStatus "cancel_requested" = tasksIn db .cancelRequested := by
  have hlast : refreshes gauges (dbs ++ [db]) = refreshTaskGauges (refreshes gauges dbs) db := by
    simp [refreshes]
  have hstatus := refreshTaskGauges_status (refreshes gauges dbs) db
  rw [equalTable_iff, hlast, ← refreshes_cancelRequested gauges dbs]
  constructor
  · intro h
    rw [← h .cancelRequested, hstatus, if_pos rfl]
  · intro h status
    rw [hstatus]
    split
    · next heq => rw [heq, h]
    · rfl

/-- One task whose cancellation was requested. -/
def cancelRequestedDb : Db :=
  { tasks := Table.empty.insert (fun id => { insertedTask "a" "1" id with
      status := .cancelRequested }) fun _ => rfl }

/-- After the first refresh of the process no gauge shows the task. -/
theorem cancelRequested_missing : ¬ EqualTable (refreshes {} [cancelRequestedDb]) cancelRequestedDb := by
  intro h
  have hshown := h.occurring .cancelRequested List.mem_cons_self
  exact absurd hshown (by decide)

end GpuFleet
