import GpuFleet.Foundations.Abreast
import GpuFleet.Foundations.Numbering
import GpuFleet.Server.Storage

/-!
# The rows of a node

The rows that belong to a node: its row, its status history, its nonces and its
tasks, and the attempts, logs and artifacts of its tasks.

Two databases are *alike* for a node when these rows are the same but for the
ids that insertions draw (`AlikeFor`).  A statement is *isolated* to the node
when it leaves the rows of all others, and two statements that are executed on
databases alike for the node leave databases that are (`Isolated`).  There is
one lemma for each kind of statement that the requests of nodes execute.
-/

namespace GpuFleet

open Foundations

/-! ## Rows -/

/-- The rows of a node. -/
structure NodeRows where
  node : Option Node
  snapshots : List Snapshot
  nonces : List Nonce
  tasks : List Task
  attempts : List TaskAttempt
  logs : List TaskLog
  artifacts : List Artifact

/-- The rows that belong to a node.  What belongs to a task belongs to the task's node. -/
def rowsOf (nodeId : String) (db : Db) : NodeRows where
  node := db.nodes.get? nodeId
  snapshots := db.snapshots.select fun row => row.nodeId = nodeId
  nonces := db.nonces.select fun row => row.nodeId = nodeId
  tasks := db.tasks.select fun row => row.nodeId = nodeId
  attempts := db.attempts.select fun row => ownedBy db nodeId row.taskId
  logs := db.logs.select fun row => ownedBy db nodeId row.taskId
  artifacts := db.artifacts.select fun row => ownedBy db nodeId row.taskId

def Snapshot.bare (row : Snapshot) : Snapshot := { row with id := 0 }
def Nonce.bare (row : Nonce) : Nonce := { row with id := 0 }
def TaskAttempt.bare (row : TaskAttempt) : TaskAttempt := { row with id := 0 }
def TaskLog.bare (row : TaskLog) : TaskLog := { row with id := 0 }
def Artifact.bare (row : Artifact) : Artifact := { row with id := 0 }

/-- The rows without the ids that requests of nodes draw. -/
def NodeRows.withoutIds (rows : NodeRows) : NodeRows :=
  { rows with
    snapshots := rows.snapshots.map Snapshot.bare
    nonces := rows.nonces.map Nonce.bare
    attempts := rows.attempts.map TaskAttempt.bare
    logs := rows.logs.map TaskLog.bare
    artifacts := rows.artifacts.map Artifact.bare }

/-- A task belongs to one node. -/
theorem ownedBy_other {db : Db} {nodeId other taskId : String} (h : ownedBy db nodeId taskId = true)
    (hne : other ≠ nodeId) : ownedBy db other taskId = false := by
  unfold ownedBy at *
  obtain ⟨row, hrow, hnode⟩ := (Option.any_eq_true ..).mp h
  rw [hrow, Option.any_some, decide_eq_false_iff_not, of_decide_eq_true hnode]
  exact hne.symm

/-- A task that is found as a node's task belongs to the node. -/
theorem ownedBy_of_get? {db : Db} {nodeId taskId : String} {row : Task}
    (hrow : db.tasks.get? taskId = some row) (hnode : row.nodeId = nodeId) :
    ownedBy db nodeId taskId = true := by
  rw [ownedBy, hrow, Option.any_some, decide_eq_true hnode]

/-- What belongs to a node can be read off its tasks. -/
theorem ownedBy_eq_any (db : Db) (nodeId taskId : String) :
    ownedBy db nodeId taskId = (rowsOf nodeId db).tasks.any fun row => row.taskId = taskId := by
  rw [ownedBy, ← Option.isSome_filter, Table.filter_get?, List.isSome_find?]
  rfl

/-! ## Databases that are alike -/

/-- The node owns the same tasks in both databases, those in `own`, and its rows are the same but
for the ids. -/
structure AlikeFor (nodeId : String) (own : String → Bool) (db db' : Db) : Prop where
  owned : ∀ taskId, ownedBy db nodeId taskId = own taskId
  owned' : ∀ taskId, ownedBy db' nodeId taskId = own taskId
  node : db.nodes.get? nodeId = db'.nodes.get? nodeId
  tasks : (db.tasks.select fun row => row.nodeId = nodeId) =
    db'.tasks.select fun row => row.nodeId = nodeId
  snapshots : Renumbered Snapshot.bare (db.snapshots.select fun row => row.nodeId = nodeId)
    (db'.snapshots.select fun row => row.nodeId = nodeId)
  nonces : Renumbered Nonce.bare (db.nonces.select fun row => row.nodeId = nodeId)
    (db'.nonces.select fun row => row.nodeId = nodeId)
  attempts : Renumbered TaskAttempt.bare (db.attempts.select fun row => own row.taskId)
    (db'.attempts.select fun row => own row.taskId)
  logs : Renumbered TaskLog.bare (db.logs.select fun row => own row.taskId)
    (db'.logs.select fun row => own row.taskId)
  artifacts : Renumbered Artifact.bare (db.artifacts.select fun row => own row.taskId)
    (db'.artifacts.select fun row => own row.taskId)

/-- Databases are alike for a node when its rows are the same but for the ids. -/
theorem alikeFor_iff {nodeId : String} {db db' : Db} :
    AlikeFor nodeId (ownedBy db nodeId) db db' ↔
      (rowsOf nodeId db).withoutIds = (rowsOf nodeId db').withoutIds := by
  have hown : ∀ rows rows' : List Task, rows = rows' → ∀ taskId,
      (rows.any fun row => row.taskId = taskId) = rows'.any fun row => row.taskId = taskId :=
    fun _ _ h _ => by rw [h]
  constructor
  · intro h
    have howned : ownedBy db' nodeId = ownedBy db nodeId := funext h.owned'
    simp only [rowsOf, NodeRows.withoutIds, howned, NodeRows.mk.injEq]
    exact ⟨h.node, h.snapshots, h.nonces, h.tasks, h.attempts, h.logs, h.artifacts⟩
  · intro h
    simp only [rowsOf, NodeRows.withoutIds, NodeRows.mk.injEq] at h
    obtain ⟨hnode, hsnapshots, hnonces, htasks, hattempts, hlogs, hartifacts⟩ := h
    have howned : ∀ taskId, ownedBy db' nodeId taskId = ownedBy db nodeId taskId := by
      intro taskId
      rw [ownedBy_eq_any, ownedBy_eq_any]
      exact hown _ _ htasks.symm taskId
    rw [funext howned] at hattempts hlogs hartifacts
    exact ⟨fun _ => rfl, howned, hnode, htasks, hsnapshots, hnonces, hattempts, hlogs, hartifacts⟩

/-- A database is alike to itself. -/
theorem AlikeFor.refl (nodeId : String) (db : Db) : AlikeFor nodeId (ownedBy db nodeId) db db :=
  alikeFor_iff.mpr rfl

section Reads

variable {nodeId : String} {own : String → Bool} {db db' : Db}

/-- The node's task with an id is the same row in both. -/
theorem AlikeFor.task (h : AlikeFor nodeId own db db') (taskId : String) :
    ((db.tasks.get? taskId).filter fun row => row.nodeId = nodeId) =
      (db'.tasks.get? taskId).filter fun row => row.nodeId = nodeId := by
  rw [Table.filter_get?, Table.filter_get?, h.tasks]

/-- A task of the node is the same row in both. -/
theorem AlikeFor.get?_task (h : AlikeFor nodeId own db db') {taskId : String}
    (howned : own taskId = true) : db.tasks.get? taskId = db'.tasks.get? taskId := by
  have hfilter : ∀ db : Db, ownedBy db nodeId taskId = true →
      ((db.tasks.get? taskId).filter fun row => row.nodeId = nodeId) = db.tasks.get? taskId := by
    intro db hdb
    obtain ⟨row, hrow, hnode⟩ := (Option.any_eq_true ..).mp hdb
    rw [hrow, Option.filter_some, if_pos hnode]
  rw [← hfilter db ((h.owned taskId).trans howned), ← hfilter db' ((h.owned' taskId).trans howned)]
  exact h.task taskId

/-- The next task the node would be given is the same row in both. -/
theorem AlikeFor.nextPending (h : AlikeFor nodeId own db db') :
    GpuFleet.nextPending db.tasks nodeId = GpuFleet.nextPending db'.tasks nodeId := by
  have hactive : ∀ tasks : Table Task,
      (tasks.rows.any fun t2 => t2.nodeId = nodeId && t2.status.isActive) =
        (tasks.select fun row => row.nodeId = nodeId).any fun t2 => t2.status.isActive := by
    intro tasks
    rw [Table.select, List.any_filter]
  have hpending : ∀ tasks : Table Task,
      (tasks.select fun t => t.nodeId = nodeId && t.status = .pending) =
        (tasks.select fun row => row.nodeId = nodeId).filter fun t => t.status = .pending := by
    intro tasks
    simp only [Table.select, List.filter_filter, Bool.and_comm]
  rw [GpuFleet.nextPending, GpuFleet.nextPending, hactive, hactive, hpending, hpending, h.tasks]

/-- A stream of a task of the node has no row in either database, or a pair of rows. -/
theorem AlikeFor.log (h : AlikeFor nodeId own db db') {taskId : String} (howned : own taskId = true)
    (stream : Stream) :
    (db.logs.get? (taskId, stream) = none ∧ db'.logs.get? (taskId, stream) = none) ∨
      ∃ z, Paired TaskLog.bare z (db.logs.select fun row => own row.taskId)
          (db'.logs.select fun row => own row.taskId) ∧
        ∃ u ∈ z, db.logs.get? (taskId, stream) = some u.1 ∧
          db'.logs.get? (taskId, stream) = some u.2 := by
  obtain ⟨z, z', hz, hsub, hz'⟩ := Table.paired_select (q := fun row : TaskLog =>
      decide ((row.taskId, row.stream) = (taskId, stream))) h.logs
    (fun row hrow => by
      obtain ⟨rfl, -⟩ := Prod.mk.inj (of_decide_eq_true hrow)
      exact howned)
    (fun a b hab => by
      have htask : a.taskId = b.taskId := (congrArg TaskLog.taskId hab :)
      have hstream : a.stream = b.stream := (congrArg TaskLog.stream hab :)
      rw [htask, hstream])
  have hget : ∀ logs : Table TaskLog, logs.get? (taskId, stream) = (logs.select fun row =>
      decide ((row.taskId, row.stream) = (taskId, stream))).head? := by
    intro logs
    rw [Table.select, List.head?_filter]
    rfl
  rw [hget, hget]
  rcases hz'.head?_cases with hnone | ⟨u, hu, hsome⟩
  · exact Or.inl hnone
  · exact Or.inr ⟨z, hz, u, hsub u hu, hsome⟩

/-- A task of the node has no attempt in either database, or the last ones are a pair. -/
theorem AlikeFor.attempt (h : AlikeFor nodeId own db db') {taskId : String}
    (howned : own taskId = true) :
    let last := fun (db : Db) =>
      firstBy (fun a b => a.id > b.id) (db.attempts.select fun row => row.taskId = taskId)
    (last db = none ∧ last db' = none) ∨
      ∃ z, Paired TaskAttempt.bare z (db.attempts.select fun row => own row.taskId)
          (db'.attempts.select fun row => own row.taskId) ∧
        ∃ u ∈ z, last db = some u.1 ∧ last db' = some u.2 := by
  obtain ⟨z, z', hz, hsub, hz'⟩ := Table.paired_select (q := fun row : TaskAttempt =>
      decide (row.taskId = taskId)) h.attempts
    (fun row hrow => by
      rw [of_decide_eq_true hrow]
      exact howned)
    (fun a b hab => by
      have htask : a.taskId = b.taskId := (congrArg TaskAttempt.taskId hab :)
      rw [htask])
  simp only
  rw [firstBy_desc TaskAttempt.id (db.attempts.increasing_select _),
    firstBy_desc TaskAttempt.id (db'.attempts.increasing_select _)]
  rcases hz'.getLast?_cases with hnone | ⟨u, hu, hsome⟩
  · exact Or.inl hnone
  · exact Or.inr ⟨z, hz, u, hsub u hu, hsome⟩

/-- An artifact of a task of the node has no row in either database, or the first ones are a
pair. -/
theorem AlikeFor.artifact (h : AlikeFor nodeId own db db') {taskId : String}
    (howned : own taskId = true) (name : String) :
    let first := fun (db : Db) => (db.artifacts.select fun row =>
      row.taskId = taskId && row.artifactName = name).head?
    (first db = none ∧ first db' = none) ∨
      ∃ z, Paired Artifact.bare z (db.artifacts.select fun row => own row.taskId)
          (db'.artifacts.select fun row => own row.taskId) ∧
        ∃ u ∈ z, first db = some u.1 ∧ first db' = some u.2 := by
  obtain ⟨z, z', hz, hsub, hz'⟩ := Table.paired_select (q := fun row : Artifact =>
      decide (row.taskId = taskId) && decide (row.artifactName = name)) h.artifacts
    (fun row hrow => by
      rw [of_decide_eq_true (Bool.and_eq_true .. |>.mp hrow).1]
      exact howned)
    (fun a b hab => by
      have htask : a.taskId = b.taskId := (congrArg Artifact.taskId hab :)
      have hname : a.artifactName = b.artifactName := (congrArg Artifact.artifactName hab :)
      rw [htask, hname])
  rcases hz'.head?_cases with hnone | ⟨u, hu, hsome⟩
  · exact Or.inl hnone
  · exact Or.inr ⟨z, hz, u, hsub u hu, hsome⟩

end Reads

/-! ## Statements -/

/-- The first statement leaves the rows of other nodes, and the two leave databases alike for the
node. -/
structure Isolated (nodeId : String) (own : String → Bool) (q q' : Dml) (db db' : Db) : Prop where
  others : ∀ other, other ≠ nodeId → rowsOf other (Statement.apply q db) = rowsOf other db
  alike : AlikeFor nodeId own (Statement.apply q db) (Statement.apply q' db')

/-- What follows isolated statements finds databases that are alike. -/
theorem Isolated.andThen {nodeId : String} {own : String → Bool} {q q' : Dml} {db db' : Db}
    {P : Prop} (h : Isolated nodeId own q q' db db')
    (hp : AlikeFor nodeId own (Statement.apply q db) (Statement.apply q' db') → P) :
    Isolated nodeId own q q' db db' ∧ P :=
  ⟨h, hp h.alike⟩

section Statements

variable {nodeId : String} {own : String → Bool} {db db' : Db}

theorem isolated_beginImmediate (h : AlikeFor nodeId own db db') :
    Isolated nodeId own .beginImmediate .beginImmediate db db' :=
  ⟨fun _ _ => rfl, h⟩

/-- An update of the row of the node. -/
theorem isolated_node (h : AlikeFor nodeId own db db') {n : NodeStmt} (hn : ∀ row, n ≠ .insert row)
    (hsel : ∀ row ∈ db.nodes.rows, n.selects row = true → row.nodeId = nodeId) :
    Isolated nodeId own (.node n) (.node n) db db' where
  others other hne := by
    have hother : (n.apply db.nodes).get? other = db.nodes.get? other := by
      rw [NodeStmt.get?_apply hn]
      cases hrow : db.nodes.get? other with
      | none => rfl
      | some row =>
          have hid : row.nodeId = other := Table.get?_key hrow
          refine congrArg some (if_neg fun hrowsel => hne ?_)
          rw [← hid]
          exact hsel row (Table.get?_mem hrow) hrowsel
    exact congrArg (fun node => { rowsOf other db with node }) hother
  alike := by
    have hnode : (n.apply db.nodes).get? nodeId = (n.apply db'.nodes).get? nodeId := by
      rw [NodeStmt.get?_apply hn, NodeStmt.get?_apply hn, h.node]
    exact { h with node := hnode }

/-- A nonce of the node is taken in both databases or in none. -/
theorem AlikeFor.nonce_taken (h : AlikeFor nodeId own db db') (nonce : String) :
    (db.nonces.get? (nodeId, nonce)).isSome = (db'.nonces.get? (nodeId, nonce)).isSome := by
  have hany : ∀ nonces : Table Nonce, (nonces.get? (nodeId, nonce)).isSome =
      ((nonces.select fun row => row.nodeId = nodeId).map Nonce.bare).any fun row =>
        row.nonce = nonce := by
    intro nonces
    rw [Table.get?, List.isSome_find?, List.any_map, Table.select, List.any_filter]
    refine congrArg (List.any nonces.rows) (funext fun row => ?_)
    show decide ((row.nodeId, row.nonce) = (nodeId, nonce)) =
      (decide (row.nodeId = nodeId) && decide (row.nonce = nonce))
    simp only [Prod.mk.injEq, Bool.decide_and]
  rw [hany, hany, show _ = _ from h.nonces]

/-- A nonce of the node. -/
theorem isolated_nonce (h : AlikeFor nodeId own db db') {row : Nonce} (hrow : row.nodeId = nodeId) :
    Isolated nodeId own (.nonce (.insert row)) (.nonce (.insert row)) db db' where
  others other hne := by
    have hother : ((NonceStmt.insert row).apply db.nonces).select (fun row => row.nodeId = other) =
        db.nonces.select fun row => row.nodeId = other := by
      simp only [NonceStmt.apply]
      exact Table.select_insert_other fun _ => decide_eq_false (hrow ▸ hne.symm)
    exact congrArg (fun nonces => { rowsOf other db with nonces }) hother
  alike := by
    have htaken : ∀ nonces : Table Nonce, nonces.conflicts (fun id => { row with id }) =
        (nonces.get? (nodeId, row.nonce)).isSome := by
      intro nonces
      rw [Table.get?, List.isSome_find?, ← hrow]
      rfl
    have hnonces : Renumbered Nonce.bare
        (((NonceStmt.insert row).apply db.nonces).select fun row => row.nodeId = nodeId)
        (((NonceStmt.insert row).apply db'.nonces).select fun row => row.nodeId = nodeId) := by
      simp only [NonceStmt.apply]
      cases hc : (db.nonces.get? (nodeId, row.nonce)).isSome with
      | true =>
          rw [Table.insert_of_conflict ((htaken _).trans hc),
            Table.insert_of_conflict ((htaken _).trans ((h.nonce_taken _).symm.trans hc))]
          exact h.nonces
      | false =>
          exact Table.renumbered_insert h.nonces ((htaken _).trans hc)
            ((htaken _).trans ((h.nonce_taken _).symm.trans hc)) (fun _ => decide_eq_true hrow)
            fun _ _ => rfl
    exact { h with nonces := hnonces }

/-- The rows of the status history after rows are stored. -/
theorem select_insertMany {p : Snapshot → Bool} (hp : ∀ row id, p { row with id } = p row)
    (rows : List Snapshot) (snapshots : Table Snapshot) :
    (((SnapshotStmt.insertMany rows).apply snapshots).select p).map Snapshot.bare =
      (snapshots.select p).map Snapshot.bare ++ (rows.filter p).map Snapshot.bare := by
  induction rows generalizing snapshots with
  | nil => simp [SnapshotStmt.apply]
  | cons row rows ih =>
      have hfree : snapshots.conflicts (fun id => { row with id }) = false := by
        rw [Table.conflicts, List.any_eq_false]
        intro old hold hkey
        have hid : old.id = snapshots.seq + 1 := of_decide_eq_true hkey
        have hle : old.id ≤ snapshots.seq := snapshots.bounded old hold
        omega
      refine (ih (snapshots.insert (fun id => { row with id }) fun _ => rfl)).trans ?_
      rw [Table.select_insert, hfree]
      cases hrow : p row with
      | false => simp [hp, hrow]
      | true => simp [hp, hrow, Snapshot.bare]

/-- Rows of the status history of the node. -/
theorem isolated_insertMany (h : AlikeFor nodeId own db db') {rows : List Snapshot}
    (hrows : ∀ row ∈ rows, row.nodeId = nodeId) :
    Isolated nodeId own (.snapshot (.insertMany rows)) (.snapshot (.insertMany rows)) db db' where
  others other hne := by
    have hother : ∀ (rows : List Snapshot) (snapshots : Table Snapshot),
        (∀ row ∈ rows, row.nodeId = nodeId) →
        ((SnapshotStmt.insertMany rows).apply snapshots).select (fun row => row.nodeId = other) =
          snapshots.select fun row => row.nodeId = other := by
      intro rows
      induction rows with
      | nil => exact fun _ _ => rfl
      | cons row rows ih =>
          intro snapshots hrows
          obtain ⟨hrow, hrows⟩ := List.forall_mem_cons.mp hrows
          refine (ih (snapshots.insert (fun id => { row with id }) fun _ => rfl) hrows).trans ?_
          exact Table.select_insert_other fun _ => decide_eq_false (hrow ▸ hne.symm)
    exact congrArg (fun snapshots => { rowsOf other db with snapshots }) (hother rows _ hrows)
  alike := by
    have hsnapshots : Renumbered Snapshot.bare
        (((SnapshotStmt.insertMany rows).apply db.snapshots).select fun row => row.nodeId = nodeId)
        (((SnapshotStmt.insertMany rows).apply db'.snapshots).select fun row =>
          row.nodeId = nodeId) := by
      rw [Renumbered, select_insertMany fun _ _ => rfl, select_insertMany fun _ _ => rfl,
        show _ = _ from h.snapshots]
    exact { h with snapshots := hsnapshots }

/-- The trimming of the node's status history. -/
theorem isolated_trim (h : AlikeFor nodeId own db db') (keep : Nat) :
    Isolated nodeId own (.snapshot (.trim nodeId keep)) (.snapshot (.trim nodeId keep)) db db' where
  others other hne := by
    have hother : ((SnapshotStmt.trim nodeId keep).apply db.snapshots).select
        (fun row => row.nodeId = other) = db.snapshots.select fun row => row.nodeId = other := by
      rw [SnapshotStmt.apply, Table.select_delete, List.filter_eq_self]
      intro row hrow
      have hid : row.nodeId = other := of_decide_eq_true (List.mem_filter.mp hrow).2
      simp [hid, hne]
    exact congrArg (fun snapshots => { rowsOf other db with snapshots }) hother
  alike := by
    obtain ⟨z, hz⟩ := h.snapshots.paired (db.snapshots.increasing_select _)
      (db'.snapshots.increasing_select _)
    -- The rows before a row of the node are as many in both databases.
    have hbefore : ∀ u ∈ z, ∀ v ∈ z, v.1.before u.1 = v.2.before u.2 := by
      intro u hu v hv
      have hsame : ∀ w ∈ z, w.1.reportedAt = w.2.reportedAt := fun w hw =>
        (congrArg Snapshot.reportedAt (hz.same w hw) :)
      have horder : v.1.id > u.1.id ↔ v.2.id > u.2.id := hz.order u hu v hv
      rw [Snapshot.before, Snapshot.before, hsame u hu, hsame v hv, decide_eq_decide.mpr horder]
    have hcount : ∀ u ∈ z,
        ((db.snapshots.select fun other => other.nodeId = nodeId && other.before u.1).length) =
          (db'.snapshots.select fun other => other.nodeId = nodeId && other.before u.2).length := by
      intro u hu
      have hsplit : ∀ (snapshots : Table Snapshot) (row : Snapshot),
          (snapshots.select fun other => other.nodeId = nodeId && other.before row) =
            (snapshots.select fun other => other.nodeId = nodeId).filter fun other =>
              other.before row := by
        intro snapshots row
        simp only [Table.select, List.filter_filter, Bool.and_comm]
      have hpairs : Paired Snapshot.bare (z.filter fun v => v.1.before u.1)
          ((db.snapshots.select fun other => other.nodeId = nodeId).filter fun row =>
            row.before u.1)
          ((db'.snapshots.select fun other => other.nodeId = nodeId).filter fun row =>
            row.before u.2) :=
        @Paired.filter _ _ _ _ _ _ hz (fun row => row.before u.1) (fun row => row.before u.2)
          (hbefore u hu)
      rw [hsplit, hsplit, ← hpairs.left, ← hpairs.right, List.length_map, List.length_map]
    have hsnapshots : Renumbered Snapshot.bare
        (((SnapshotStmt.trim nodeId keep).apply db.snapshots).select fun row =>
          row.nodeId = nodeId)
        (((SnapshotStmt.trim nodeId keep).apply db'.snapshots).select fun row =>
          row.nodeId = nodeId) := by
      rw [SnapshotStmt.apply, SnapshotStmt.apply, Table.select_delete, Table.select_delete]
      refine (hz.filter fun u hu => ?_).renumbered
      have hnode : u.1.nodeId = u.2.nodeId := (congrArg Snapshot.nodeId (hz.same u hu) :)
      rw [hnode, hcount u hu]
    exact { h with snapshots := hsnapshots }

/-- An update of tasks of the node, which selects the same ones in both databases. -/
theorem isolated_task (h : AlikeFor nodeId own db db') {q : TaskStmt} (hq : ∀ row, q ≠ .insert row)
    (hsel : ∀ row ∈ db.tasks.rows, q.selects db.tasks row = true → row.nodeId = nodeId)
    (hsame : ∀ row ∈ db.tasks.rows, row.nodeId = nodeId →
      q.selects db.tasks row = q.selects db'.tasks row) :
    Isolated nodeId own (.task q) (.task q) db db' := by
  have howned : ∀ (db : Db) nodeId taskId,
      ownedBy (Statement.apply (Dml.task q) db) nodeId taskId = ownedBy db nodeId taskId := by
    intro db nodeId taskId
    rw [ownedBy, apply_tasks_task, TaskStmt.get?_apply hq, ownedBy, Option.any_map]
    have hedit : ∀ row, (if q.selects db.tasks row then q.edit row else row).nodeId = row.nodeId := by
      intro row
      split
      · exact (q.edit_frame row).2.2.1
      · rfl
    simp only [hedit]
  have hselect : ∀ (tasks : Table Task) (nodeId : String),
      ((q.apply tasks).select fun row => row.nodeId = nodeId) =
        (tasks.select fun row => row.nodeId = nodeId).map fun row =>
          if q.selects tasks row then q.edit row else row := by
    intro tasks nodeId
    rw [TaskStmt.apply_update hq, TaskStmt.updateRows, Table.select_update]
    intro row _ _
    rw [(q.edit_frame row).2.2.1]
  refine ⟨fun other hne => ?_, ?_⟩
  · have hother : ((q.apply db.tasks).select fun row => row.nodeId = other) =
        db.tasks.select fun row => row.nodeId = other := by
      rw [hselect]
      refine (List.map_congr_left fun row hrow => ?_).trans (List.map_id _)
      obtain ⟨hmem, hid⟩ := List.mem_filter.mp hrow
      refine if_neg fun hrowsel => hne ?_
      rw [← of_decide_eq_true hid]
      exact hsel row hmem hrowsel
    simp only [rowsOf, howned]
    exact congrArg (fun tasks => { rowsOf other db with tasks }) hother
  · have htasks : ((q.apply db.tasks).select fun row => row.nodeId = nodeId) =
        (q.apply db'.tasks).select fun row => row.nodeId = nodeId := by
      rw [hselect, hselect, ← h.tasks]
      refine List.map_congr_left fun row hrow => ?_
      obtain ⟨hmem, hid⟩ := List.mem_filter.mp hrow
      rw [hsame row hmem (of_decide_eq_true hid)]
    exact { h with
      owned := fun taskId => (howned db nodeId taskId).trans (h.owned taskId)
      owned' := fun taskId => (howned db' nodeId taskId).trans (h.owned' taskId)
      tasks := htasks }

/-- An attempt of a task of the node. -/
theorem isolated_attempt_insert (h : AlikeFor nodeId own db db') {row : TaskAttempt}
    (hrow : own row.taskId = true) :
    Isolated nodeId own (.attempt (.insert row)) (.attempt (.insert row)) db db' where
  others other hne := by
    have hother : ((AttemptStmt.insert row).apply db.attempts).select
        (fun row => ownedBy db other row.taskId) =
          db.attempts.select fun row => ownedBy db other row.taskId := by
      simp only [AttemptStmt.apply]
      exact Table.select_insert_other fun _ => ownedBy_other ((h.owned _).trans hrow) hne
    exact congrArg (fun attempts => { rowsOf other db with attempts }) hother
  alike := by
    have hattempts : Renumbered TaskAttempt.bare
        (((AttemptStmt.insert row).apply db.attempts).select fun row => own row.taskId)
        (((AttemptStmt.insert row).apply db'.attempts).select fun row => own row.taskId) := by
      simp only [AttemptStmt.apply]
      exact Table.renumbered_insert h.attempts (Table.conflicts_of_key fun _ _ => id)
        (Table.conflicts_of_key fun _ _ => id) (fun _ => hrow) fun _ _ => rfl
    exact { h with attempts := hattempts }

/-- An update of a pair of attempts. -/
theorem isolated_attempt_update (h : AlikeFor nodeId own db db')
    {z : List (TaskAttempt × TaskAttempt)} {u : TaskAttempt × TaskAttempt}
    (hz : Paired TaskAttempt.bare z (db.attempts.select fun row => own row.taskId)
      (db'.attempts.select fun row => own row.taskId)) (hu : u ∈ z)
    (bootId : Option String) (pid : Option Int) (pgid : Option String) (status : String)
    (startedAt finishedAt : Option String) (exitCode : Option Int) (summary : Option Json) :
    Isolated nodeId own
      (.attempt (.update u.1.id bootId pid pgid status startedAt finishedAt exitCode summary))
      (.attempt (.update u.2.id bootId pid pgid status startedAt finishedAt exitCode summary))
      db db' where
  others other hne := by
    obtain ⟨hrow, howned⟩ := List.mem_filter.mp (hz.mem_left hu)
    have hother : (AttemptStmt.apply (.update u.1.id bootId pid pgid status startedAt finishedAt
        exitCode summary) db.attempts).select (fun row => ownedBy db other row.taskId) =
          db.attempts.select fun row => ownedBy db other row.taskId := by
      simp only [AttemptStmt.apply]
      exact Table.select_update_other hrow (ownedBy_other ((h.owned _).trans howned) hne)
        fun _ => rfl
    exact congrArg (fun attempts => { rowsOf other db with attempts }) hother
  alike := by
    have hattempts : Renumbered TaskAttempt.bare
        ((AttemptStmt.apply (.update u.1.id bootId pid pgid status startedAt finishedAt exitCode
          summary) db.attempts).select fun row => own row.taskId)
        ((AttemptStmt.apply (.update u.2.id bootId pid pgid status startedAt finishedAt exitCode
          summary) db'.attempts).select fun row => own row.taskId) := by
      simp only [AttemptStmt.apply]
      exact Table.renumbered_update hz hu (fun _ => rfl) fun _ => rfl
    exact { h with attempts := hattempts }

/-- The first row of a stream of a task of the node. -/
theorem isolated_log_insert (h : AlikeFor nodeId own db db') {row : TaskLog}
    (hrow : own row.taskId = true) (hfree : db.logs.get? (row.taskId, row.stream) = none)
    (hfree' : db'.logs.get? (row.taskId, row.stream) = none) :
    Isolated nodeId own (.log (.insert row)) (.log (.insert row)) db db' where
  others other hne := by
    have hother : ((LogStmt.insert row).apply db.logs).select
        (fun row => ownedBy db other row.taskId) =
          db.logs.select fun row => ownedBy db other row.taskId := by
      simp only [LogStmt.apply]
      exact Table.select_insert_other fun _ => ownedBy_other ((h.owned _).trans hrow) hne
    exact congrArg (fun logs => { rowsOf other db with logs }) hother
  alike := by
    have hlogs : Renumbered TaskLog.bare
        (((LogStmt.insert row).apply db.logs).select fun row => own row.taskId)
        (((LogStmt.insert row).apply db'.logs).select fun row => own row.taskId) := by
      simp only [LogStmt.apply]
      exact Table.renumbered_insert h.logs (Table.conflicts_of_free hfree)
        (Table.conflicts_of_free hfree') (fun _ => hrow) fun _ _ => rfl
    exact { h with logs := hlogs }

/-- An update of a pair of log rows. -/
theorem isolated_log_update (h : AlikeFor nodeId own db db') {z : List (TaskLog × TaskLog)}
    {u : TaskLog × TaskLog} (hz : Paired TaskLog.bare z (db.logs.select fun row => own row.taskId)
      (db'.logs.select fun row => own row.taskId)) (hu : u ∈ z) {q q' : LogStmt}
    {f : TaskLog → TaskLog} {hid hkey}
    (hq : q.apply db.logs = db.logs.update (fun row => row.id = u.1.id) f hid hkey)
    (hq' : q'.apply db'.logs = db'.logs.update (fun row => row.id = u.2.id) f hid hkey)
    (hf : ∀ row, (f row).bare = f row.bare) : Isolated nodeId own (.log q) (.log q') db db' where
  others other hne := by
    obtain ⟨hrow, howned⟩ := List.mem_filter.mp (hz.mem_left hu)
    have htask : ∀ row, (f row).taskId = row.taskId := fun row => (Prod.mk.inj (hkey row)).1
    have hother : (q.apply db.logs).select (fun row => ownedBy db other row.taskId) =
        db.logs.select fun row => ownedBy db other row.taskId := by
      rw [hq]
      exact Table.select_update_other hrow (ownedBy_other ((h.owned _).trans howned) hne)
        fun row => congrArg (ownedBy db other) (htask row)
    exact congrArg (fun logs => { rowsOf other db with logs }) hother
  alike := by
    have htask : ∀ row, (f row).taskId = row.taskId := fun row => (Prod.mk.inj (hkey row)).1
    have hlogs : Renumbered TaskLog.bare ((q.apply db.logs).select fun row => own row.taskId)
        ((q'.apply db'.logs).select fun row => own row.taskId) := by
      rw [hq, hq']
      exact Table.renumbered_update hz hu hf fun row => congrArg own (htask row)
    exact { h with logs := hlogs }

/-- The truncation of a pair of log rows. -/
theorem isolated_log_truncate (h : AlikeFor nodeId own db db') {z : List (TaskLog × TaskLog)}
    {u : TaskLog × TaskLog} (hz : Paired TaskLog.bare z (db.logs.select fun row => own row.taskId)
      (db'.logs.select fun row => own row.taskId)) (hu : u ∈ z) (reason nowIso : String) :
    Isolated nodeId own (.log (.truncate u.1.id reason nowIso))
      (.log (.truncate u.2.id reason nowIso)) db db' := by
  have hq : ∀ (logs : Table TaskLog) (id : Nat), LogStmt.apply (.truncate id reason nowIso) logs =
      logs.update (fun row => row.id = id)
        (fun row => { row with isTruncated := true, truncatedNotice := reason, updatedAt := nowIso })
        (fun _ => rfl) fun _ => rfl := fun _ _ => rfl
  exact isolated_log_update h hz hu (hq _ _) (hq _ _) fun _ => rfl

/-- What a chunk adds to a pair of log rows. -/
theorem isolated_log_extend (h : AlikeFor nodeId own db db') {z : List (TaskLog × TaskLog)}
    {u : TaskLog × TaskLog} (hz : Paired TaskLog.bare z (db.logs.select fun row => own row.taskId)
      (db'.logs.select fun row => own row.taskId)) (hu : u ∈ z) (lastOffset : Nat)
    (previewText : List Char) (centerLogPath : LogFile) (nowIso : String) :
    Isolated nodeId own (.log (.extend u.1.id lastOffset previewText centerLogPath nowIso))
      (.log (.extend u.2.id lastOffset previewText centerLogPath nowIso)) db db' := by
  have hq : ∀ (logs : Table TaskLog) (id : Nat),
      LogStmt.apply (.extend id lastOffset previewText centerLogPath nowIso) logs =
        logs.update (fun row => row.id = id)
          (fun row =>
            { row with
              lastOffset
              previewText
              centerLogPath := some centerLogPath
              isTruncated := false
              truncatedNotice := ""
              updatedAt := nowIso })
          (fun _ => rfl) fun _ => rfl := fun _ _ => rfl
  exact isolated_log_update h hz hu (hq _ _) (hq _ _) fun _ => rfl

/-- An artifact of a task of the node. -/
theorem isolated_artifact_insert (h : AlikeFor nodeId own db db') {row : Artifact}
    (hrow : own row.taskId = true) :
    Isolated nodeId own (.artifact (.insert row)) (.artifact (.insert row)) db db' where
  others other hne := by
    have hother : ((ArtifactStmt.insert row).apply db.artifacts).select
        (fun row => ownedBy db other row.taskId) =
          db.artifacts.select fun row => ownedBy db other row.taskId := by
      simp only [ArtifactStmt.apply]
      exact Table.select_insert_other fun _ => ownedBy_other ((h.owned _).trans hrow) hne
    exact congrArg (fun artifacts => { rowsOf other db with artifacts }) hother
  alike := by
    have hartifacts : Renumbered Artifact.bare
        (((ArtifactStmt.insert row).apply db.artifacts).select fun row => own row.taskId)
        (((ArtifactStmt.insert row).apply db'.artifacts).select fun row => own row.taskId) := by
      simp only [ArtifactStmt.apply]
      exact Table.renumbered_insert h.artifacts (Table.conflicts_of_key fun _ _ => id)
        (Table.conflicts_of_key fun _ _ => id) (fun _ => hrow) fun _ _ => rfl
    exact { h with artifacts := hartifacts }

/-- A replacement of a pair of artifacts. -/
theorem isolated_artifact_replace (h : AlikeFor nodeId own db db')
    {z : List (Artifact × Artifact)} {u : Artifact × Artifact}
    (hz : Paired Artifact.bare z (db.artifacts.select fun row => own row.taskId)
      (db'.artifacts.select fun row => own row.taskId)) (hu : u ∈ z) (artifactType : String)
    (contentType : Option String) (sizeBytes : Nat) (storagePath : ArtifactFile) (preview : Json) :
    Isolated nodeId own
      (.artifact (.replace u.1.id artifactType contentType sizeBytes storagePath preview))
      (.artifact (.replace u.2.id artifactType contentType sizeBytes storagePath preview))
      db db' where
  others other hne := by
    obtain ⟨hrow, howned⟩ := List.mem_filter.mp (hz.mem_left hu)
    have hother : (ArtifactStmt.apply (.replace u.1.id artifactType contentType sizeBytes
        storagePath preview) db.artifacts).select (fun row => ownedBy db other row.taskId) =
          db.artifacts.select fun row => ownedBy db other row.taskId := by
      simp only [ArtifactStmt.apply]
      exact Table.select_update_other hrow (ownedBy_other ((h.owned _).trans howned) hne)
        fun _ => rfl
    exact congrArg (fun artifacts => { rowsOf other db with artifacts }) hother
  alike := by
    have hartifacts : Renumbered Artifact.bare
        ((ArtifactStmt.apply (.replace u.1.id artifactType contentType sizeBytes storagePath
          preview) db.artifacts).select fun row => own row.taskId)
        ((ArtifactStmt.apply (.replace u.2.id artifactType contentType sizeBytes storagePath
          preview) db'.artifacts).select fun row => own row.taskId) := by
      simp only [ArtifactStmt.apply]
      exact Table.renumbered_update hz hu (fun _ => rfl) fun _ => rfl
    exact { h with artifacts := hartifacts }

end Statements

end GpuFleet
