import GpuFleet.Server.ForeignKeys
import GpuFleet.Server.LogRows

/-!
# Deleting a node

`ON DELETE CASCADE` takes with a node all that names it, and with its tasks all
that names them.  Alone, the deletion finds these foreign keys kept, so it takes
exactly the rows of the node: what stays has its parents, and the rows of every
other node are those from before (`deletion_takes_node`).  An attempt would be
taken with the task of another node if it named a node that is not its task's,
and none does.
-/

namespace GpuFleet

open Foundations

/-! ## The cascade -/

/-- The database after a node was deleted. -/
def withoutNode (nodeId : String) (db : Db) : Db :=
  Statement.apply (CleanStmt.deleteNode nodeId) db

section Cascade

variable {nodeId other taskId : String} {db : Db}

theorem get?_nodes_withoutNode (hne : other ≠ nodeId) :
    (withoutNode nodeId db).nodes.get? other = db.nodes.get? other := by
  have hget : (db.nodes.delete fun row => row.nodeId = nodeId).get? other = _ :=
    Table.get?_delete db.nodes _ other
  refine hget.trans ?_
  cases hrow : db.nodes.get? other with
  | none => rfl
  | some row =>
      have hkey : row.nodeId = other := Table.get?_key hrow
      simp [hkey, hne]

theorem not_nodeThere_withoutNode : ¬ NodeThere nodeId (withoutNode nodeId db) := by
  have hget : (db.nodes.delete fun row => row.nodeId = nodeId).get? nodeId = _ :=
    Table.get?_delete db.nodes _ nodeId
  have hgone : (withoutNode nodeId db).nodes.get? nodeId = none := by
    refine hget.trans (Option.filter_eq_none_iff.mpr fun row hrow => ?_)
    have hkey : row.nodeId = nodeId := Table.get?_key hrow
    simp [hkey]
  simp [NodeThere, hgone]

/-- The tasks of the node are gone, and no other. -/
theorem ownedBy_withoutNode (hne : other ≠ nodeId) (taskId : String) :
    ownedBy (withoutNode nodeId db) other taskId = ownedBy db other taskId := by
  have hget : (db.tasks.delete fun row => row.nodeId = nodeId).get? taskId = _ :=
    Table.get?_delete db.tasks _ taskId
  have htasks : (withoutNode nodeId db).tasks.get? taskId =
      (db.tasks.get? taskId).filter fun row => !decide (row.nodeId = nodeId) := hget
  rw [ownedBy, ownedBy, htasks]
  cases hrow : db.tasks.get? taskId with
  | none => rfl
  | some row =>
      by_cases hnode : row.nodeId = nodeId
      · simp [hnode, hne.symm]
      · simp [hnode]

theorem not_taskThere_withoutNode (h : TaskOf nodeId taskId db) :
    ¬ TaskThere taskId (withoutNode nodeId db) := by
  obtain ⟨row, hrow, hnode⟩ := (Option.any_eq_true ..).mp h
  have hget : (db.tasks.delete fun row => row.nodeId = nodeId).get? taskId = _ :=
    Table.get?_delete db.tasks _ taskId
  have hgone : (withoutNode nodeId db).tasks.get? taskId = none := by
    refine hget.trans ?_
    simp [hrow, of_decide_eq_true hnode]
  simp [TaskThere, hgone]

/-- A task of another node stays. -/
theorem taskThere_withoutNode (h : TaskThere taskId db) (hnot : ownedBy db nodeId taskId = false) :
    TaskThere taskId (withoutNode nodeId db) := by
  obtain ⟨owner, hof⟩ := taskThere_iff.mp h
  have hne : owner ≠ nodeId := by
    rintro rfl
    rw [TaskOf, hnot] at hof
    cases hof
  have hkept : TaskOf owner taskId (withoutNode nodeId db) :=
    (ownedBy_withoutNode hne taskId).trans hof
  exact hkept.there

/-- What stays after a cascade has its parents. -/
theorem References.withoutNode (h : References db) : References (withoutNode nodeId db) := by
  have hnode : ∀ {other}, NodeThere other db → other ≠ nodeId →
      NodeThere other (GpuFleet.withoutNode nodeId db) := by
    intro other hthere hne
    rw [NodeThere, get?_nodes_withoutNode hne]
    exact hthere
  have htask : ∀ {taskId}, TaskThere taskId db → (!ownedBy db nodeId taskId) = true →
      TaskThere taskId (GpuFleet.withoutNode nodeId db) := by
    intro taskId hthere hnot
    exact taskThere_withoutNode hthere (by simpa using hnot)
  constructor
  · intro row hrow
    obtain ⟨hmem, hkept⟩ := List.mem_filter.mp hrow
    exact hnode (h.tasks row hmem) (by simpa using hkept)
  · intro row hrow
    obtain ⟨hmem, hkept⟩ := List.mem_filter.mp hrow
    exact hnode (h.snapshots row hmem) (by simpa using hkept)
  · intro row hrow
    obtain ⟨hmem, hkept⟩ := List.mem_filter.mp hrow
    exact hnode (h.nonces row hmem) (by simpa using hkept)
  · intro row hrow
    obtain ⟨hmem, hkept⟩ := List.mem_filter.mp hrow
    have hne : row.nodeId ≠ nodeId := by
      rintro heq
      simp [heq] at hkept
    exact (ownedBy_withoutNode hne row.taskId).trans (h.attempts row hmem)
  · intro row hrow
    obtain ⟨hmem, hkept⟩ := List.mem_filter.mp hrow
    exact htask (h.logs row hmem) hkept
  · intro row hrow
    obtain ⟨hmem, hkept⟩ := List.mem_filter.mp hrow
    exact htask (h.artifacts row hmem) hkept
  · intro row hrow
    obtain ⟨hmem, hkept⟩ := List.mem_filter.mp hrow
    exact htask (h.reviews row hmem) hkept

/-- The rows of another node stay. -/
theorem rowsOf_withoutNode (h : References db) (hne : other ≠ nodeId) :
    rowsOf other (withoutNode nodeId db) = rowsOf other db := by
  have howned : ∀ taskId, ownedBy db other taskId = true → ownedBy db nodeId taskId = false :=
    fun taskId hof => ownedBy_other hof hne.symm
  have kept : ∀ {α : Type} [Row α] [DecidableEq (Row.Key α)] (t : Table α) (p d : α → Bool),
      (∀ row ∈ t.rows, p row = true → d row = false) → (t.delete d).select p = t.select p := by
    intro α _ _ t p d hd
    rw [Table.select_delete, List.filter_eq_self]
    intro row hrow
    obtain ⟨hmem, hp⟩ := List.mem_filter.mp hrow
    simp [hd row hmem hp]
  have hother : ∀ {name : String}, decide (name = other) = true → decide (name = nodeId) = false := by
    intro name hname
    rw [of_decide_eq_true hname]
    exact decide_eq_false hne
  have hattempt : ∀ row ∈ db.attempts.rows, ownedBy db other row.taskId = true →
      (decide (row.nodeId = nodeId) || ownedBy db nodeId row.taskId) = false := by
    intro row hrow hof
    have hnot := howned _ hof
    have hnode : row.nodeId ≠ nodeId := by
      rintro heq
      have hof' := h.attempts row hrow
      rw [TaskOf, heq, hnot] at hof'
      cases hof'
    simp [hnot, hnode]
  simp only [rowsOf, ownedBy_withoutNode hne, NodeRows.mk.injEq]
  exact ⟨get?_nodes_withoutNode hne, kept db.snapshots _ _ fun _ _ => hother,
    kept db.nonces _ _ fun _ _ => hother, kept db.tasks _ _ fun _ _ => hother,
    kept db.attempts _ _ hattempt, kept db.logs _ _ fun _ _ => howned _,
    kept db.artifacts _ _ fun _ _ => howned _⟩

end Cascade

/-! ## Runs -/

section Runs

variable {site : Site}

/-- What the deletion of a node does: it finds no node, or the cascade and its audit row. -/
theorem deleteNode_db (nodeId : String) (requestIp : Option String) (admin : Admin) (now : Nat)
    (s : Store) :
    let out := (StorageOp.deleteNode nodeId requestIp admin now).run site s
    (out.1 = .error (nodeNotFound nodeId) ∧ out.2 = s) ∨
      out.1 = .ok () ∧ ∃ row, out.2.db =
        Statement.apply (Dml.insertAudit row) (withoutNode nodeId s.db) := by
  simp only [StorageOp.run, deleteNode, Prog.atomic, Prog.query_bind, Prog.exec_select]
  cases hrow : s.db.nodes.get? nodeId with
  | none => exact Or.inl ⟨rfl, rfl⟩
  | some row => exact Or.inr ⟨rfl, _, rfl⟩

/-- Every operation keeps the foreign keys. -/
theorem References.run (op : StorageOp) {s : Store} (h : References s.db) :
    References (op.run site s).2.db := by
  cases op with
  | request r => exact (r.code_referring site.settings site.gzipSize).keeps h s.world
  | system op => exact (op.code_referring site.settings site.crypto).keeps h s.world
  | pruneLogs now =>
      rcases StorageOp.pruneLogs_cases site now s with hsame | ⟨cutoff, -, hrun⟩
      · rw [hsame]
        exact h
      · rw [hrun]
        exact { h with logs := Table.forall_delete h.logs }
  | pruneArtifacts now =>
      rcases StorageOp.pruneArtifacts_cases site now s with hsame | ⟨cutoff, _, -, hrun, -⟩
      · rw [hsame]
        exact h
      · rw [hrun]
        exact { h with artifacts := Table.forall_delete h.artifacts }
  | deleteNode nodeId requestIp admin now =>
      rcases @deleteNode_db site nodeId requestIp admin now s with ⟨-, hsame⟩ | ⟨-, row, hdb⟩
      · rw [hsame]
        exact h
      · rw [hdb]
        exact References.apply h.withoutNode trivial

/-- In every run of whole transactions from a database that keeps the foreign keys, all keep them,
and a deletion that succeeds takes the node and its tasks and leaves the rows of the others. -/
theorem deletion_takes_node {s : Store} (hs : References s.db) (ops : List StorageOp) :
    ∀ t ∈ storeSteps site s ops, References t.before.db ∧ References t.after.db ∧
      ∀ nodeId requestIp admin now, t.op = .deleteNode nodeId requestIp admin now →
        t.reply = .ok () →
          ¬ NodeThere nodeId t.after.db ∧
          (∀ taskId, TaskOf nodeId taskId t.before.db → ¬ TaskThere taskId t.after.db) ∧
          ∀ other, other ≠ nodeId → rowsOf other t.after.db = rowsOf other t.before.db := by
  intro t ht
  have hinv := @storeSteps_inv site (fun s => References s.db) (fun _ => True)
    (fun op s _ h => h.run op) s ops hs (fun _ _ => trivial) t ht
  obtain ⟨hbefore, hafter, hreply, hrun⟩ := hinv
  refine ⟨hbefore, hafter, ?_⟩
  intro nodeId requestIp admin now hop hok
  rw [hop] at hreply hrun
  rcases @deleteNode_db site nodeId requestIp admin now t.before with ⟨herror, -⟩ | ⟨-, row, hdb⟩
  · rw [hreply, herror] at hok
    cases hok
  · rw [hrun, hdb]
    exact ⟨not_nodeThere_withoutNode, fun _ => not_taskThere_withoutNode,
      fun _ hne => rowsOf_withoutNode hbefore hne⟩

end Runs

/-- The deletion of a node with a task. -/
def deleteOne : List StorageOp := [.deleteNode "n" none ⟨1, "admin"⟩ 0]

/-- The node and its task are gone. -/
theorem deletion_takes_node_deleteOne :
    ∃ t ∈ storeSteps (smallSite 64) { db := oneTaskDb } deleteOne,
      TaskOf "n" "t" t.before.db ∧ ¬ NodeThere "n" t.after.db ∧ ¬ TaskThere "t" t.after.db := by
  have hdb : References oneTaskDb :=
    Referring.keeps (createTask_referring _ _) references_oneNodeDb {}
  have hof : TaskOf "n" "t" oneTaskDb := by
    show ownedBy oneTaskDb "n" "t" = true
    decide +kernel
  obtain ⟨-, -, h⟩ := @deletion_takes_node (smallSite 64) { db := oneTaskDb } hdb deleteOne _
    (List.mem_singleton_self _)
  obtain ⟨hnode, htasks, -⟩ := h "n" none ⟨1, "admin"⟩ 0 rfl rfl
  exact ⟨_, List.mem_singleton_self _, hof, hnode, htasks "t" hof⟩

end GpuFleet
