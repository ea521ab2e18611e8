import GpuFleet.Foundations.Stably
import GpuFleet.Server.Issued
import GpuFleet.Server.NodeRows
import GpuFleet.Server.ReplayGuard

/-!
# Foreign keys

The schema ties every row to the row it is about: a task, a snapshot and a nonce
to a node, and an attempt, a log, an artifact and a review to a task.  The key
`created_by_admin_id` of a task is left out: an administrator is never deleted.
SQLite refuses an `INSERT` whose parent is missing (`PRAGMA foreign_keys = ON`),
and the model inserts the row.  The two agree, because no statement is ever
refused.

Each `INSERT` of a child comes after a read, or an `INSERT`, of its parent, and
no transaction but the deletion of a node takes a parent away.  A fact about what
is there `Endures`, so a read at the front of a program provides it for all
that follows (`Executes.referring`), and in every interleaving of the other
transactions the parent is still there (`parents_present`).
-/

namespace GpuFleet

open Foundations

/-! ## The constraints -/

/-- The node is there. -/
def NodeThere (nodeId : String) (db : Db) : Prop := (db.nodes.get? nodeId).isSome = true

/-- The task is there. -/
def TaskThere (taskId : String) (db : Db) : Prop := (db.tasks.get? taskId).isSome = true

/-- The task is a task of the node. -/
def TaskOf (nodeId taskId : String) (db : Db) : Prop := ownedBy db nodeId taskId = true

/-- The parents of all rows of `db` are in `parents`.  An attempt names the node of its task. -/
structure ParentsIn (parents db : Db) : Prop where
  tasks : ∀ row ∈ db.tasks.rows, NodeThere row.nodeId parents
  snapshots : ∀ row ∈ db.snapshots.rows, NodeThere row.nodeId parents
  nonces : ∀ row ∈ db.nonces.rows, NodeThere row.nodeId parents
  attempts : ∀ row ∈ db.attempts.rows, TaskOf row.nodeId row.taskId parents
  logs : ∀ row ∈ db.logs.rows, TaskThere row.taskId parents
  artifacts : ∀ row ∈ db.artifacts.rows, TaskThere row.taskId parents
  reviews : ∀ row ∈ db.reviews.rows, TaskThere row.taskId parents

/-- The foreign keys of the schema to `nodes` and `tasks`. -/
def References (db : Db) : Prop := ParentsIn db db

/-- The rows that a statement inserts have their parents in `nodes` and `tasks`. -/
def Dml.Refers : Dml → Db → Prop
  | .task (.insert row), db => NodeThere row.nodeId db
  | .attempt (.insert row), db => TaskOf row.nodeId row.taskId db
  | .log (.insert row), db => TaskThere row.taskId db
  | .artifact (.insert row), db => TaskThere row.taskId db
  | .nonce (.insert row), db => NodeThere row.nodeId db
  | .snapshot (.insertMany rows), db => ∀ row ∈ rows, NodeThere row.nodeId db
  | .insertReview row, db => TaskThere row.taskId db
  | _, _ => True

/-- Nodes and tasks stay, and a task stays with its node. -/
structure Grows (db db' : Db) : Prop where
  nodes : ∀ nodeId, NodeThere nodeId db → NodeThere nodeId db'
  tasks : ∀ nodeId taskId, TaskOf nodeId taskId db → TaskOf nodeId taskId db'

theorem TaskOf.there {nodeId taskId : String} {db : Db} (h : TaskOf nodeId taskId db) :
    TaskThere taskId db := by
  obtain ⟨row, hrow, -⟩ := (Option.any_eq_true ..).mp h
  rw [TaskThere, hrow, Option.isSome_some]

theorem taskThere_iff {taskId : String} {db : Db} :
    TaskThere taskId db ↔ ∃ nodeId, TaskOf nodeId taskId db := by
  constructor
  · intro h
    obtain ⟨row, hrow⟩ := Option.isSome_iff_exists.mp h
    exact ⟨row.nodeId, ownedBy_of_get? hrow rfl⟩
  · rintro ⟨nodeId, h⟩
    exact h.there

theorem Grows.there {db db' : Db} (h : Grows db db') {taskId : String}
    (hrow : TaskThere taskId db) : TaskThere taskId db' := by
  obtain ⟨nodeId, hof⟩ := taskThere_iff.mp hrow
  exact (h.tasks nodeId taskId hof).there

theorem Grows.refl (db : Db) : Grows db db := ⟨fun _ => id, fun _ _ => id⟩

theorem Grows.trans {a b c : Db} (h : Grows a b) (h' : Grows b c) : Grows a c where
  nodes := fun nodeId hn => h'.nodes nodeId (h.nodes nodeId hn)
  tasks := fun nodeId taskId ht => h'.tasks nodeId taskId (h.tasks nodeId taskId ht)

/-! ## What statements keep -/

/-- A statement on `tasks` keeps the tasks of a node. -/
theorem TaskStmt.keeps_taskOf (q : TaskStmt) {db : Db} {nodeId taskId : String}
    (h : TaskOf nodeId taskId db) : TaskOf nodeId taskId (Statement.apply (Dml.task q) db) := by
  obtain ⟨row, hrow, hnode⟩ := (Option.any_eq_true ..).mp h
  have hnode : row.nodeId = nodeId := of_decide_eq_true hnode
  by_cases hq : ∃ new, q = .insert new
  · obtain ⟨new, rfl⟩ := hq
    have hkept : (Statement.apply (Dml.task (.insert new)) db).tasks.get? taskId = some row :=
      TaskStmt.get?_insert_of_some hrow
    exact ownedBy_of_get? hkept hnode
  · have hkept := TaskStmt.get?_apply (fun new e => hq ⟨new, e⟩) db.tasks taskId
    rw [hrow, Option.map_some] at hkept
    refine ownedBy_of_get? hkept ?_
    split
    · rw [(q.edit_frame row).2.2.1, hnode]
    · exact hnode

/-- No statement takes a node or a task away. -/
theorem grows_apply (q : Dml) (db : Db) : Grows db (Statement.apply q db) := by
  cases q with
  | node q => exact ⟨fun _ h => q.isSome_get?_apply h, fun _ _ => id⟩
  | task q => exact ⟨fun _ => id, fun _ _ h => q.keeps_taskOf h⟩
  | _ => exact ⟨fun _ => id, fun _ _ => id⟩

theorem ParentsIn.mono {parents parents' db : Db} (h : ParentsIn parents db)
    (hgrows : Grows parents parents') : ParentsIn parents' db where
  tasks := fun row hrow => hgrows.nodes _ (h.tasks row hrow)
  snapshots := fun row hrow => hgrows.nodes _ (h.snapshots row hrow)
  nonces := fun row hrow => hgrows.nodes _ (h.nonces row hrow)
  attempts := fun row hrow => hgrows.tasks _ _ (h.attempts row hrow)
  logs := fun row hrow => hgrows.there (h.logs row hrow)
  artifacts := fun row hrow => hgrows.there (h.artifacts row hrow)
  reviews := fun row hrow => hgrows.there (h.reviews row hrow)

/-- Every task after a statement names a node that a task named before, or that the statement
names. -/
theorem TaskStmt.forall_nodeId (P : String → Prop) (q : TaskStmt) {tasks : Table Task}
    (h : ∀ row ∈ tasks.rows, P row.nodeId) (hnew : ∀ row, q = .insert row → P row.nodeId) :
    ∀ row ∈ (q.apply tasks).rows, P row.nodeId := by
  intro row' hrow'
  rcases TaskStmt.mem_apply_cases hrow' with ⟨row, hrow, rfl⟩ | ⟨row, hrow, -, rfl⟩ | ⟨row, hq, rfl⟩
  · exact h _ hrow
  · rw [(q.edit_frame row).2.2.1]
    exact h row hrow
  · exact hnew row hq

theorem SnapshotStmt.forall_nodeId (P : String → Prop) (q : SnapshotStmt)
    {snapshots : Table Snapshot} (h : ∀ row ∈ snapshots.rows, P row.nodeId)
    (hnew : ∀ rows, q = .insertMany rows → ∀ row ∈ rows, P row.nodeId) :
    ∀ row ∈ (q.apply snapshots).rows, P row.nodeId := by
  cases q with
  | trim nodeId keep => exact Table.forall_delete h
  | insertMany rows =>
      have hrows := hnew rows rfl
      clear hnew
      induction rows generalizing snapshots with
      | nil => exact h
      | cons row rows ih =>
          refine ih (Table.forall_insert (fun _ => rfl) h (hrows row (List.mem_cons_self ..))) ?_
          exact fun other hother => hrows other (List.mem_cons_of_mem _ hother)

/-- A statement whose rows have their parents keeps the foreign keys. -/
theorem References.apply {q : Dml} {db : Db} (h : References db) (hq : q.Refers db) :
    References (Statement.apply q db) := by
  have hgrows := grows_apply q db
  have hold : ParentsIn (Statement.apply q db) db := ParentsIn.mono h hgrows
  cases q with
  | beginImmediate | node _ | alert _ | insertAudit _ => exact { hold with }
  | task q =>
      refine { hold with tasks := TaskStmt.forall_nodeId (NodeThere · _) q hold.tasks ?_ }
      rintro row rfl
      exact hgrows.nodes _ hq
  | snapshot q =>
      refine { hold with
        snapshots := SnapshotStmt.forall_nodeId (NodeThere · _) q hold.snapshots ?_ }
      rintro rows rfl
      exact hq
  | nonce q =>
      refine { hold with nonces := ?_ }
      cases q with
      | insert row => exact Table.forall_insert (fun _ => rfl) hold.nonces hq
      | prune _ => exact Table.forall_delete hold.nonces
  | attempt q =>
      refine { hold with attempts := ?_ }
      cases q with
      | insert row => exact Table.forall_insert (fun _ => rfl) hold.attempts hq
      | update =>
          exact Table.forall_update (by intro _; rfl) (by intro _; rfl) hold.attempts fun _ h => h
  | log q =>
      refine { hold with logs := ?_ }
      cases q with
      | insert row => exact Table.forall_insert (fun _ => rfl) hold.logs hq
      | extend =>
          exact Table.forall_update (by intro _; rfl) (by intro _; rfl) hold.logs fun _ h => h
      | truncate =>
          exact Table.forall_update (by intro _; rfl) (by intro _; rfl) hold.logs fun _ h => h
  | artifact q =>
      refine { hold with artifacts := ?_ }
      cases q with
      | insert row => exact Table.forall_insert (fun _ => rfl) hold.artifacts hq
      | replace =>
          exact Table.forall_update (by intro _; rfl) (by intro _; rfl) hold.artifacts fun _ h => h
  | insertReview row =>
      exact { hold with reviews := Table.forall_insert (fun _ => rfl) hold.reviews hq }

/-! ## Programs -/

/-- The rows that the statement inserts have their parents wherever the fact holds. -/
def RefersIn (F : Db → Prop) (q : Dml) : Prop := ∀ db, F db → q.Refers db

/-- The fact holds on when the database grows. -/
def Endures (F : Db → Prop) : Prop := ∀ db db', Grows db db' → F db → F db'

theorem endures_nodeThere (nodeId : String) : Endures (NodeThere nodeId) :=
  fun _ _ h => h.nodes nodeId

theorem endures_taskOf (nodeId taskId : String) : Endures (TaskOf nodeId taskId) :=
  fun _ _ h => h.tasks nodeId taskId

theorem endures_taskThere (taskId : String) : Endures (TaskThere taskId) :=
  fun _ _ h => h.there

/-- The program inserts no row without its parents, however the database grows around it. -/
def Referring {α : Type} (p : Tx α) (post : α → Db → Prop) (db : Db) : Prop :=
  p.Stably Grows Dml.Refers post db

section Referring

variable {α β : Type} {F : Db → Prop} {db : Db}

theorem Referring.bind {post : α → Db → Prop} {post' : β → Db → Prop} {p : Tx α} {g : α → Tx β}
    (hp : Referring p post db) (hg : ∀ a db', post a db' → Referring (g a) post' db') :
    Referring (p >>= g) post' db :=
  Prog.Stably.bind hp hg

theorem Referring.mono {post post' : α → Db → Prop} {p : Tx α} (hp : Referring p post db)
    (h : ∀ a db', post a db' → post' a db') : Referring p post' db :=
  Prog.Stably.mono hp h

/-- `except TaskStateError` -/
theorem Referring.catch {post : α → Db → Prop} {p : Tx α} {handler : String → Exc}
    (hp : Referring p post db) :
    Referring (catchTaskState p fun m => .raise (handler m)) post db :=
  Prog.Stably.tryCatch hp fun e _ => by cases e <;> trivial

/-- A program that only executes statements whose parents an enduring fact provides. -/
theorem Executes.referring {p : Tx α} (hF : Endures F) (hdb : F db)
    (hp : Executes (RefersIn F) p) : Referring p (fun _ db' => F db') db := by
  have hstably : p.Stably Grows Dml.Refers (fun _ db' => True ∧ F db') db :=
    Prog.Avoids.stably hp hF
      (fun q w hq hw => ⟨Classical.not_not.mp hq w hw, grows_apply q w⟩) hdb
  exact hstably.mono fun _ _ h => h.2

/-- What follows a read starts from the database that was read. -/
theorem Referring.query_bind {f : Db → α} {g : α → Tx β} {post : β → Db → Prop}
    (h : ∀ db', Grows db db' → Referring (g (f db')) post db') :
    Referring (Prog.query f >>= g) post db :=
  h

theorem Referring.done {post : α → Db → Prop} {p : Tx α} (hp : Referring p post db) :
    Referring p (fun _ _ => True) db :=
  hp.mono fun _ _ _ => trivial

theorem Referring.silently {post : α → Db → Prop} {p : Tx α} (hp : Referring p post db) :
    Referring (silently p) (fun _ _ => True) db :=
  hp.bind fun _ _ _ => trivial

theorem getTaskRow_referring (taskId : String) :
    Referring (getTaskRow taskId) (fun _ db' => TaskThere taskId db') db := by
  refine Referring.query_bind fun db' _ => ?_
  cases hrow : db'.tasks.get? taskId with
  | none => trivial
  | some row => exact Option.isSome_iff_exists.mpr ⟨row, hrow⟩

theorem loadTaskForNode_referring (nodeId taskId : String) :
    Referring (loadTaskForNode nodeId taskId) (fun _ db' => TaskOf nodeId taskId db') db := by
  refine Referring.query_bind fun db' _ => ?_
  cases hrow : (db'.tasks.get? taskId).filter fun row => row.nodeId = nodeId with
  | none => trivial
  | some row =>
      obtain ⟨hget, hnode⟩ := Option.filter_eq_some_iff.mp hrow
      exact ownedBy_of_get? hget (of_decide_eq_true hnode)

theorem asNode_referring {nodeId : String} {body : Node → Tx α} {post : α → Db → Prop}
    (h : ∀ node db', NodeThere nodeId db' → Referring (body node) post db') :
    Referring (asNode nodeId body) post db := by
  refine Referring.query_bind fun db' _ => ?_
  cases hnode : (db'.nodes.get? nodeId).filter Node.isEnabled with
  | none => trivial
  | some node =>
      obtain ⟨hget, -⟩ := Option.filter_eq_some_iff.mp hnode
      exact h node db' (Option.isSome_iff_exists.mpr ⟨node, hget⟩)

theorem ofExcept_referring {r : Except Exc α} : Referring (ofExcept r) (fun _ _ => True) db := by
  cases r <;> trivial

end Referring

/-! ## The parts of operations -/

section Parts

variable {F : Db → Prop}

theorem TransitionEvent.Updates.refersIn {event : TransitionEvent} {taskId : String}
    {args : TransitionArgs} {q : TaskStmt} (h : event.Updates taskId args q) :
    RefersIn F (.task q) := by
  intro db _
  cases q with
  | insert row => cases event <;> simp [TransitionEvent.Updates] at h
  | _ => trivial

theorem transitionTask_refers (taskId : String) (event : TransitionEvent) (args : TransitionArgs) :
    Executes (RefersIn F) (transitionTask taskId event args) :=
  transitionTask_executes taskId event args fun _ hq => hq.refersIn

/-- A row of `audit_events` has no parent. -/
theorem audit_refers (row : AuditEvent) : Executes (RefersIn F) (Prog.execute (.insertAudit row)) :=
  executes_execute fun _ _ => trivial

/-- Nor has an alert. -/
theorem alert_refers (q : AlertStmt) : Executes (RefersIn F) (Prog.execute (.alert q)) :=
  executes_execute fun _ _ => trivial

theorem node_refers (q : NodeStmt) : Executes (RefersIn F) (Prog.execute (.node q)) :=
  executes_execute fun _ _ => trivial

/-- A review is one of its task. -/
theorem insertReviewAudit_refers {taskId : String} {stage : Nat} {reviewerType : String}
    {reviewerId : Option String} {decision : String} {riskScore : Option Rat}
    {riskFactors : Option Json} {reasoning : Option String} {createdAt : String} :
    Executes (RefersIn (TaskThere taskId)) (insertReviewAudit taskId stage reviewerType reviewerId
      decision riskScore riskFactors reasoning createdAt) :=
  executes_execute fun _ h => h

/-- An attempt is one of its task, by the task's node. -/
theorem upsertTaskAttempt_refers (taskId nodeId status : String) (args : AttemptArgs) :
    Executes (RefersIn (TaskOf nodeId taskId)) (upsertTaskAttempt taskId nodeId status args) := by
  refine executes_query.bind fun row => ?_
  cases row with
  | none => exact executes_execute fun _ h => h
  | some row => exact executes_execute fun _ _ => trivial

theorem renewSecret_refers (crypto : Crypto) (action nodeId : String) (secret : NewSecret)
    (admin : Admin) (now : Nat) :
    Executes (RefersIn F) (renewSecret crypto action nodeId secret admin now) :=
  renewSecret_executes crypto (fun _ _ _ => trivial) (fun _ _ _ => trivial) ..

theorem scanTask_refers (now : Nat) (nowIso : String) (task : ActiveTask) :
    Executes (RefersIn F) (scanTask now nowIso task) := by
  have gave : ∀ (event : TransitionEvent) (action webhook : String) (detail payload : Json),
      Executes (RefersIn F) (giveUp task event action detail webhook payload nowIso) := by
    intro event action webhook detail payload
    exact (transitionTask_refers task.taskId event _).bind fun _ => (audit_refers _).bind fun _ =>
      executes_emitEvent
  refine (overdue_executes task now).bind fun reason => ?_
  cases reason with
  | none => trivial
  | some reason => cases reason <;> exact gave _ _ _ _ _

theorem heartbeat_refers (keep : Nat) (nodeId : String) (node : Node) (payload : HeartbeatRequest)
    (now : Nat) : Executes (RefersIn (NodeThere nodeId))
      (heartbeat keep nodeId node payload now) := by
  have sync : Executes (RefersIn (NodeThere nodeId))
      (syncReportedActiveTask nodeId payload.activeTaskId (utcNowIso now)) := by
    unfold syncReportedActiveTask
    split
    · trivial
    · split
      · trivial
      · refine executes_query.bind fun row => ?_
        cases row with
        | none => trivial
        | some row =>
            simp only
            split
            · exact (executes_execute fun _ _ => trivial).bind fun _ => executes_query
            · trivial
  have respond : ∀ claimed : Option Task, Executes (RefersIn (NodeThere nodeId))
      (do
        let taskControls ← Prog.query fun db => cancelControls db nodeId
        reconnect
        Prog.execute (.snapshot (.trim nodeId keep))
        reconnect
        let refreshFingerprint ← takeFingerprintRefresh nodeId
        pure ({ serverTime := utcNowIso now
                nodeId
                tasks := (claimed.map Task.envelope).toList
                taskControls
                refreshFingerprint } : HeartbeatResponse)) := fun claimed =>
    executes_query.bind fun _ => executes_reconnect.bind fun _ =>
      (executes_execute fun _ _ => trivial).bind fun _ => executes_reconnect.bind fun _ =>
        Executes.bind (p := takeFingerprintRefresh nodeId) (fun _ => trivial) fun _ => trivial
  have snapshots : RefersIn (NodeThere nodeId)
      (.snapshot (.insertMany (buildSnapshotRows nodeId (utcNowIso now) payload))) := by
    intro db h row hrow
    rcases List.mem_cons.mp hrow with rfl | hrow
    · exact h
    · obtain ⟨ts, -, rfl⟩ := List.mem_map.mp hrow
      exact h
  refine (executes_execute fun _ _ => trivial).bind fun _ => (node_refers _).bind fun _ =>
    (executes_execute snapshots).bind fun _ => sync.bind fun active => ?_
  cases active with
  | some row => exact respond none
  | none =>
      exact Executes.bind (p := claimNextTaskForNode ..)
        (executes_executeReturning fun _ _ => trivial) fun claimed => respond claimed

theorem nodeSigningKey_refers (crypto : Crypto) (node : Node) (nodeId random nowIso : String) :
    Executes (RefersIn F) (nodeSigningKey crypto node nodeId random nowIso) := by
  have hkey : ∀ key : String, Executes (RefersIn F) (if key = "" then
      .raise (unauthorized "ERR_AUTH_SIGNING_KEY_UNAVAILABLE" "Node signing key unavailable"
        [("node_id", .str nodeId)]) else pure key : Tx String) := by
    intro key
    split <;> trivial
  unfold nodeSigningKey
  simp only
  split
  · exact hkey _
  · split
    · trivial
    · split
      · split
        · trivial
        · exact (node_refers _).bind fun _ => hkey _
      · exact hkey _

theorem storeRequest_refers (settings : Settings) (nodeId timestamp nonce : String) (now : Nat) :
    Executes (RefersIn (NodeThere nodeId)) (storeRequest settings nodeId timestamp nonce now) := by
  unfold storeRequest
  simp only
  split
  · trivial
  · refine (executes_executeReturning fun _ h => h).bind fun duplicate => ?_
    split
    · trivial
    · refine (executes_executeReturning fun _ _ => trivial).bind fun rowcount => ?_
      split <;> trivial

theorem storeChunk_refers (settings : Settings) (gzipSize : List Char → Nat)
    (payload : NodeTaskLogChunkRequest) (existing : Option TaskLog) (appendText : List Char)
    (nowIso : String) : Executes (RefersIn (TaskThere payload.taskId))
      (storeChunk settings gzipSize payload existing appendText nowIso) := by
  have truncated : Executes (RefersIn (TaskThere payload.taskId))
      (markLogTruncated payload.taskId payload.stream existing nowIso "storage_quota_exceeded") := by
    cases existing with
    | none => exact executes_execute fun _ h => h
    | some row => exact executes_execute fun _ _ => trivial
  have stored : RefersIn (TaskThere payload.taskId)
      (.log (storeOffset existing payload appendText nowIso)) := by
    intro db h
    cases existing with
    | none => exact h
    | some row => trivial
  refine Executes.bind (p := storageUsage gzipSize) (fun _ => trivial) fun usage => ?_
  split
  · exact truncated.bind fun _ => executes_emitEvent.bind fun _ => executes_reconnect.bind fun _ =>
      trivial
  · exact Executes.bind (p := appendToLog ..) (fun _ => executes_ofExcept) fun _ =>
      (executes_execute stored).bind fun _ => trivial

end Parts

/-! ## Operations -/

section Operations

variable {db : Db}

theorem checkTarget_referring (payload : AdminTaskCreateRequest) :
    Referring (checkTarget payload) (fun _ db' => NodeThere payload.nodeId db') db := by
  refine Referring.query_bind fun db' _ => ?_
  cases hnode : db'.nodes.get? payload.nodeId with
  | none => trivial
  | some node =>
      have hthere : NodeThere payload.nodeId db' := Option.isSome_iff_exists.mpr ⟨node, hnode⟩
      simp only
      repeat' split
      all_goals trivial

/-- A task is there once it is inserted. -/
theorem taskThere_insert (row : Task) (db : Db) :
    TaskThere row.taskId (Statement.apply (Dml.task (.insert row)) db) := by
  cases hold : db.tasks.get? row.taskId with
  | some old => exact Option.isSome_iff_exists.mpr ⟨old, TaskStmt.get?_insert_of_some hold⟩
  | none =>
      have hnew : (db.tasks.insert row.inserted fun _ => rfl).get? row.taskId =
          some (row.inserted (db.tasks.seq + 1)) := Table.get?_insert_self hold fun _ => rfl
      exact Option.isSome_iff_exists.mpr ⟨_, hnew⟩

theorem createTask_referring (payload : AdminTaskCreateRequest) (ctx : CreateContext) :
    Referring (createTask payload ctx) (fun _ _ => True) db := by
  have created : ∀ (taskId : String) (detail : Json) (k : Option Task → Tx AdminTaskDetail),
      (∀ row, Executes (RefersIn (TaskThere taskId)) (k row)) →
      Executes (RefersIn (TaskThere taskId)) (do
        auditTask ctx.admin "create_task" taskId detail (utcNowIso ctx.now)
        reconnect
        let row ← Prog.query fun db => db.tasks.get? taskId
        k row) := by
    intro taskId detail k hk
    exact Executes.bind (audit_refers _) fun _ => executes_reconnect.bind fun _ =>
      executes_query.bind hk
  have alerted : ∀ (taskId nowIso summary : String) (detail : Json)
      (k : Option Task → Tx AdminTaskDetail),
      (∀ row, Executes (RefersIn (TaskThere taskId)) (k row)) →
      Executes (RefersIn (TaskThere taskId)) (do
        createReviewAlert taskId payload.type payload.nodeId nowIso summary ctx.now
        auditTask ctx.admin "create_task" taskId detail (utcNowIso ctx.now)
        reconnect
        let row ← Prog.query fun db => db.tasks.get? taskId
        k row) := by
    intro taskId nowIso summary detail k hk
    exact Executes.bind (alert_refers _) fun _ => created taskId detail k hk
  refine (checkTarget_referring payload).bind fun _ db₁ hnode => ?_
  refine Referring.query_bind fun db₂ hgrows => ?_
  split
  · trivial
  · intro db₃ hgrows'
    refine ⟨hgrows'.nodes _ (hgrows.nodes _ hnode), ?_⟩
    -- From here on the task is there.
    have hthere := taskThere_insert (newTask payload
      (admissionOf payload.type ctx.review (utcNowIso ctx.now) (utcNowIso ctx.reviewedAt))
      (orElse payload.taskId ctx.freshTaskId) (orElse payload.idempotencyKey ctx.freshKey)
      ctx.admin (utcNowIso ctx.now)) db₃
    refine (Executes.referring (endures_taskThere _) hthere ?_).done
    simp only [Prog.bind]
    split
    · trivial
    · split
      · split
        · exact alerted _ _ _ _ _ fun row => by cases row <;> trivial
        · exact created _ _ _ fun row => by cases row <;> trivial
      · refine insertReviewAudit_refers.bind fun _ => ?_
        split
        · exact alerted _ _ _ _ _ fun row => by cases row <;> trivial
        · exact created _ _ _ fun row => by cases row <;> trivial

theorem approveReview_referring (taskId : String) (note : Option String) (admin : Admin)
    (now : Nat) : Referring (approveReview taskId note admin now) (fun _ _ => True) db := by
  refine (getTaskRow_referring taskId).catch.bind fun row db' hthere => ?_
  split
  · trivial
  · refine (Executes.referring (endures_taskThere taskId) hthere ?_).done
    refine (checkCooldown_executes taskId row now).bind fun _ => ?_
    refine (transitionTask_refers taskId .reviewApprove _).catch.bind fun _ => ?_
    exact insertReviewAudit_refers.bind fun _ => Executes.bind (alert_refers _) fun _ =>
      Executes.bind (audit_refers _) fun _ => taskRowToDetail_executes _

theorem rejectReview_referring (taskId : String) (note : Option String) (admin : Admin)
    (now : Nat) : Referring (rejectReview taskId note admin now) (fun _ _ => True) db := by
  have found : Referring (do
      let row ← getTaskRow taskId
      let saved ← transitionTask taskId .reviewReject
        { nowIso := utcNowIso now, reviewAdminId := some admin.id }
      pure (row, saved)) (fun _ db' => TaskThere taskId db') db :=
    (getTaskRow_referring taskId).bind fun _ _ hthere =>
      Executes.referring (endures_taskThere taskId) hthere
        ((transitionTask_refers taskId .reviewReject _).bind fun _ => trivial)
  refine found.catch.bind fun _ db' hthere => ?_
  refine (Executes.referring (endures_taskThere taskId) hthere ?_).done
  exact insertReviewAudit_refers.bind fun _ => Executes.bind (alert_refers _) fun _ =>
    Executes.bind (audit_refers _) fun _ => taskRowToDetail_executes _

theorem taskEvents_referring (nodeId : String) (payload : NodeTaskEventRequest) (now : Nat) :
    Referring (taskEvents nodeId payload now) (fun _ _ => True) db := by
  refine (loadTaskForNode_referring nodeId payload.taskId).bind fun _ db' hof => ?_
  refine (Executes.referring (endures_taskOf nodeId payload.taskId) hof ?_).done
  refine (transitionTask_refers payload.taskId (.node payload.event) _).catch.bind fun _ => ?_
  exact (upsertTaskAttempt_refers _ _ _ _).bind fun _ => trivial

theorem taskResult_referring (nodeId : String) (payload : NodeTaskResultRequest) (now : Nat) :
    Referring (taskResult nodeId payload now) (fun _ _ => True) db := by
  refine (loadTaskForNode_referring nodeId payload.taskId).bind fun _ db' hof => ?_
  refine (Executes.referring (endures_taskOf nodeId payload.taskId) hof ?_).done
  refine (finalizeTaskResult_executes _ _ _ _ _ fun _ _ => trivial).catch.bind fun out => ?_
  obtain ⟨row, duplicate⟩ := out
  simp only
  split
  · trivial
  · refine (upsertTaskAttempt_refers _ _ _ _).bind fun _ => executes_reconnect.bind fun _ => ?_
    split
    · exact executes_emitEvent.bind fun _ => trivial
    · trivial

theorem taskLogChunk_referring (settings : Settings) (gzipSize : List Char → Nat) (nodeId : String)
    (payload : NodeTaskLogChunkRequest) (now : Nat) :
    Referring (taskLogChunk settings gzipSize nodeId payload now) (fun _ _ => True) db := by
  refine (loadTaskForNode_referring nodeId payload.taskId).bind fun _ db' hof => ?_
  refine (Executes.referring (endures_taskThere payload.taskId) hof.there ?_).done
  exact executes_query.bind fun _ => executes_ofExcept.bind fun _ =>
    storeChunk_refers settings gzipSize payload _ _ _

theorem artifactUpload_referring (settings : Settings) (nodeId : String)
    (payload : NodeArtifactUploadRequest) (now : Nat) :
    Referring (artifactUpload settings nodeId payload now) (fun _ _ => True) db := by
  refine (loadTaskForNode_referring nodeId payload.taskId).bind fun _ db' hof => ?_
  refine (Executes.referring (endures_taskThere payload.taskId) hof.there ?_).done
  refine executes_reconnect.bind fun _ => executes_ofExcept.bind fun content =>
    executes_ofExcept.bind fun artifactName => ?_
  refine Executes.bind (p := Prog.effect _) (fun _ => trivial) fun _ => ?_
  refine executes_query.bind fun existing => Executes.bind ?_ fun _ => trivial
  refine executes_execute fun db h => ?_
  cases existing with
  | none => exact h
  | some row => trivial

theorem authenticateNode_referring (settings : Settings) (crypto : Crypto)
    (request : SignedRequest) (random : String) (now : Nat) :
    Referring (authenticateNode settings crypto request random now) (fun _ _ => True) db := by
  unfold authenticateNode
  split
  · rename_i nodeId timestamp nonce signature _ _ _ _
    -- Whatever the time stamp is read as.
    generalize parseTimestamp timestamp = parsed
    refine ofExcept_referring.bind fun requestTime db₁ _ => ?_
    refine ofExcept_referring.bind fun _ db₂ _ => ?_
    refine Referring.query_bind fun db₃ _ => ?_
    cases hnode : (db₃.nodes.get? nodeId).filter Node.isEnabled with
    | none => trivial
    | some node =>
        obtain ⟨hget, -⟩ := Option.filter_eq_some_iff.mp hnode
        have hthere : NodeThere nodeId db₃ := Option.isSome_iff_exists.mpr ⟨node, hget⟩
        refine (Executes.referring (endures_nodeThere nodeId) hthere ?_).done
        refine (nodeSigningKey_refers crypto node nodeId random _).bind fun key =>
          executes_ofExcept.bind fun valid => ?_
        split
        · trivial
        · exact (storeRequest_refers settings nodeId timestamp nonce now).bind fun _ => trivial
  · trivial

/-- No operation executes a statement whose parents are missing. -/
theorem SystemOp.code_referring (settings : Settings) (crypto : Crypto) (op : SystemOp) :
    Referring (op.code settings crypto) (fun _ _ => True) db := by
  have plain : ∀ {α : Type} {p : Tx α}, Executes (RefersIn fun _ => True) p →
      Referring (GpuFleet.silently p) (fun _ _ => True) db := fun hp =>
    Referring.silently (Executes.referring (fun _ _ _ => id) trivial hp)
  cases op with
  | createNode payload secret admin now =>
      refine plain (executes_ofExcept.bind fun _ => executes_query.bind fun existing => ?_)
      split
      · trivial
      · refine (executes_executeReturning fun _ _ => trivial).bind fun conflict => ?_
        split
        · trivial
        · exact Executes.bind (audit_refers _) fun _ => findNode_executes _
  | updateNode nodeId payload admin now =>
      refine plain ?_
      unfold GpuFleet.updateNode
      split
      · trivial
      · exact (findNode_executes nodeId).bind fun _ => (node_refers _).bind fun _ =>
          Executes.bind (audit_refers _) fun _ => findNode_executes nodeId
  | setNodeEnabled nodeId enabled admin now =>
      exact plain ((findNode_executes nodeId).bind fun _ => (node_refers _).bind fun _ =>
        Executes.bind (audit_refers _) fun _ => findNode_executes nodeId)
  | resetSecret nodeId secret admin now => exact plain (renewSecret_refers crypto _ _ _ _ _)
  | regenerateOnboarding nodeId secret admin now =>
      exact plain (renewSecret_refers crypto _ _ _ _ _)
  | createTask payload ctx => exact (createTask_referring payload ctx).silently
  | cancel taskId admin now =>
      refine plain ?_
      refine (readThenTransition_executes taskId .cancel _ fun _ h => h.refersIn).catch.bind
        fun _ => ?_
      exact Executes.bind (audit_refers _) fun _ => taskRowToDetail_executes _
  | escalate taskId note admin now =>
      refine plain ?_
      refine (readThenTransition_executes taskId .reviewEscalate _ fun _ h => h.refersIn).catch.bind
        fun _ => ?_
      exact Executes.bind (alert_refers _) fun _ => Executes.bind (audit_refers _) fun _ =>
        executes_emitEvent.bind fun _ => taskRowToDetail_executes _
  | approve taskId note admin now => exact (approveReview_referring taskId note admin now).silently
  | reject taskId note admin now => exact (rejectReview_referring taskId note admin now).silently
  | heartbeat nodeId payload now =>
      refine asNode_referring fun node db' hthere => ?_
      refine (Executes.referring (endures_nodeThere nodeId) hthere ?_).done
      exact (heartbeat_refers _ nodeId node payload now).bind fun _ => trivial
  | event nodeId payload now =>
      exact asNode_referring fun _ _ _ => (taskEvents_referring nodeId payload now).silently
  | result nodeId payload now =>
      exact asNode_referring fun _ _ _ => (taskResult_referring nodeId payload now).silently
  | markLost now =>
      exact plain (executes_query.bind fun _ => Executes.forEach fun task =>
        scanTask_refers now _ task)
  | expireReviews now =>
      refine plain (executes_query.bind fun _ => Executes.forEach fun taskId => ?_)
      exact (transitionTask_refers taskId .reviewExpire _).bind fun _ =>
        Executes.bind (alert_refers _) fun _ => executes_emitEvent

theorem StorageRequest.code_referring (settings : Settings) (gzipSize : List Char → Nat)
    (r : StorageRequest) : Referring (r.code settings gzipSize) (fun _ _ => True) db := by
  cases r with
  | logChunk nodeId payload now =>
      exact asNode_referring fun _ _ _ =>
        (taskLogChunk_referring settings gzipSize nodeId payload now).bind fun _ _ _ => trivial
  | artifact nodeId contentLength payload now =>
      refine ofExcept_referring.bind fun _ _ _ => asNode_referring fun _ _ _ => ?_
      exact (artifactUpload_referring settings nodeId payload now).bind fun _ _ _ => trivial

end Operations

/-- Alone, a program that inserts no row without its parents keeps the foreign keys. -/
theorem Referring.keeps {α : Type} {p : Tx α} {post : α → Db → Prop} {db : Db}
    (hp : Referring p post db) (h : References db) (x : World) : References (p.dbAfter db x) := by
  have hwp : p.wp Dml.Refers (fun _ _ => True) post db := Prog.Stably.wp Grows.refl hp
  exact hwp.dbAfter x (fun q w hq hw => References.apply hw hq) h

/-! ## Side by side -/

/-- The transactions of the server, but for the deletion of a node: those of `ServerOp`, and what
nodes store. -/
inductive FleetOp where
  | server (op : ServerOp)
  | store (r : StorageRequest)

section Interleaved

variable (settings : Settings) (crypto : Crypto) (gzipSize : List Char → Nat)

/-- The program of a transaction. -/
def FleetOp.code : FleetOp → Tx Unit
  | server op => op.code settings crypto
  | store r => r.code settings gzipSize

/-- A configuration of transactions running side by side. -/
abbrev FleetConf := Conf FleetOp Dml Db World Exc Unit

variable {settings crypto gzipSize}

theorem FleetOp.code_referring (op : FleetOp) (db : Db) :
    Referring (op.code settings crypto gzipSize) (fun _ _ => True) db := by
  cases op with
  | store r => exact r.code_referring settings gzipSize
  | server op =>
      cases op with
      | authenticate request random now =>
          exact (authenticateNode_referring settings crypto request random now).bind
            fun _ _ _ => trivial
      | pruneNonces now => exact fun _ _ => ⟨trivial, trivial⟩
      | other op => exact (op.code_referring settings crypto).bind fun _ _ _ => trivial

/-- However the transactions of the server are interleaved, each row they insert finds its parent,
and every database in sight keeps the foreign keys. -/
theorem parents_present {db : Db} {x : World} {as : List (Act FleetOp Exc)} {c : FleetConf}
    (hdb : References db)
    (h : (Conf.init db x).run (FleetOp.code settings crypto gzipSize) as = some c) :
    c.Everywhere References ∧
      ∀ a q s, c.about a = some (q, s) → q.Refers (s.view c.db) := by
  have hrun : Conf.Permitting Grows Dml.Refers c ∧ c.Everywhere References := by
    refine Conf.run_induction (FleetOp.code settings crypto gzipSize)
      (I := fun c => Conf.Permitting Grows Dml.Refers c ∧ c.Everywhere References) ?_ h
      ⟨Conf.permitting_init db x, Conf.everywhere_init x hdb⟩
    rintro c a c' ⟨hpermitting, hrefers⟩ hstep
    refine ⟨hpermitting.step Grows.refl Grows.trans (fun q w _ => grows_apply q w)
      (fun op w => op.code_referring w) hstep, ?_⟩
    exact hrefers.step _ hstep fun q s hq hview =>
      References.apply hview (hpermitting.about Grows.refl hq)
  exact ⟨hrun.2, fun a q s hq => hrun.1.about Grows.refl hq⟩

end Interleaved

theorem references_oneNodeDb : References oneNodeDb := by
  constructor <;> intro row hrow <;> cases hrow

/-- A heartbeat while a task is created. -/
def createdMeanwhile : List (Act FleetOp Exc) :=
  [.spawn (.server (.other (.heartbeat "n" { bootId := "b" } 0))), .turn 0,
    .spawn (.server (.other (.createTask { nodeId := "n", type := .healthCheck, taskId := some "t" }
      { admin := ⟨1, "admin"⟩, review := none, freshTaskId := "", freshKey := "", now := 0
        reviewedAt := 0 }))), .turn 1, .turn 1, .turn 1, .turn 1, .turn 1] ++
    List.replicate 9 (.turn 0)

/-- The task and the snapshots of the heartbeat have their node. -/
theorem parents_present_createdMeanwhile :
    ∃ c : FleetConf, (Conf.init oneNodeDb {}).run (FleetOp.code {} plainCrypto List.length)
        createdMeanwhile = some c ∧
      c.Everywhere References ∧ ∀ a q s, c.about a = some (q, s) → q.Refers (s.view c.db) := by
  have hruns : ((Conf.init oneNodeDb {} : FleetConf).run (FleetOp.code {} plainCrypto List.length)
      createdMeanwhile).isSome = true := by
    decide +kernel
  obtain ⟨c, hc⟩ := Option.isSome_iff_exists.mp hruns
  exact ⟨c, hc, parents_present references_oneNodeDb hc⟩

end GpuFleet
