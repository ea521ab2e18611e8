import GpuFleet.Foundations.Tally
import GpuFleet.Server.AtMostOnce
import GpuFleet.Server.Rejections
import GpuFleet.Server.Storage

/-!
# The audit trail

An administrator's action on a node or on a task writes an entry into `audit_events`,
in the transaction of the change.  (Marking an alert as read writes none.)  The actions
and the other operations of the server go on side by side, a statement at a time, and
any of them may fail anywhere.

The trail only grows, each answer of success has its own entry, and no entry is there
without its request.  An action that commits at its end has an entry exactly if it
succeeded, so one that was refused or has failed leaves none (`audit_trail`).  Two
actions go on after their commit: `create_task` reads its row again, and
`queue_fingerprint_refresh` queues the refresh.
-/

namespace GpuFleet

open Foundations

/-! ## Entries -/

/-- An entry of an administrator, but for its detail. -/
structure AuditEntry where
  actorId : Option String
  action : String
  targetType : String
  targetId : Option String
  createdAt : String
  deriving DecidableEq

/-- What the row says, if it is of an administrator. -/
def AuditEvent.entry (row : AuditEvent) : Option AuditEntry :=
  if row.actorType = "admin" then
    some ⟨row.actorId, row.action, row.targetType, row.targetId, row.createdAt⟩
  else none

/-- The number of these entries. -/
def entries (k : AuditEntry) (db : Db) : Nat := db.audits.rows.countP fun row => row.entry = some k

/-- The entry of an action. -/
def Admin.entry (admin : Admin) (action targetType targetId : String) (now : Nat) : AuditEntry :=
  ⟨some (toString admin.id), action, targetType, some targetId, utcNowIso now⟩

/-- The entry an operation owes. -/
def SystemOp.entry : SystemOp → Option AuditEntry
  | createNode payload _ admin now => some (admin.entry "create_node" "node" payload.nodeId now)
  | updateNode nodeId _ admin now => some (admin.entry "update_node" "node" nodeId now)
  | setNodeEnabled nodeId enabled admin now =>
      some (admin.entry (if enabled then "enable_node" else "disable_node") "node" nodeId now)
  | resetSecret nodeId _ admin now => some (admin.entry "reset_node_secret" "node" nodeId now)
  | regenerateOnboarding nodeId _ admin now =>
      some (admin.entry "regenerate_node_onboarding" "node" nodeId now)
  | createTask payload ctx =>
      some (ctx.admin.entry "create_task" "task" (orElse payload.taskId ctx.freshTaskId) ctx.now)
  | cancel taskId admin now => some (admin.entry "cancel_task" "task" taskId now)
  | escalate taskId _ admin now => some (admin.entry "escalate_task_review" "task" taskId now)
  | approve taskId _ admin now => some (admin.entry "approve_task_review" "task" taskId now)
  | reject taskId _ admin now => some (admin.entry "reject_task_review" "task" taskId now)
  | heartbeat .. | event .. | result .. | markLost _ | expireReviews _ => none

/-- `queue_fingerprint_refresh` -/
def queueFingerprintRefresh (nodeId : String) (admin : Admin) (now : Nat) : Tx Unit := do
  let _ ← findNode nodeId
  auditNode admin "refresh_node_fingerprint" nodeId
    (.obj [("note", .str "queued in-memory; will be delivered on next heartbeat")]) (utcNowIso now)
  reconnect
  Prog.effect fun w =>
    if nodeId ∈ w.pendingFingerprintRefresh then w
    else { w with pendingFingerprintRefresh := w.pendingFingerprintRefresh ++ [nodeId] }

/-- The operations of the server, the request to refresh a fingerprint, and the deletion of a
node. -/
inductive AuditedOp where
  | system (op : SystemOp)
  | refreshFingerprint (nodeId : String) (admin : Admin) (now : Nat)
  | deleteNode (nodeId : String) (requestIp : Option String) (admin : Admin) (now : Nat)

namespace AuditedOp

/-- The entry an operation owes. -/
def entry : AuditedOp → Option AuditEntry
  | system op => op.entry
  | refreshFingerprint nodeId admin now =>
      some (admin.entry "refresh_node_fingerprint" "node" nodeId now)
  | deleteNode nodeId _ admin now => some (admin.entry "delete_node" "node" nodeId now)

/-- The action commits at its end only. -/
def AtEnd : AuditedOp → Prop
  | system op => op.entry.isSome = true ∧ ∀ payload ctx, op ≠ .createTask payload ctx
  | refreshFingerprint .. => False
  | deleteNode .. => True

variable (settings : Settings) (crypto : Crypto)

/-- The program of an operation. -/
def code : AuditedOp → CleanTx Unit
  | system op => (op.code settings crypto >>= fun _ => pure ()).embed .dml
  | refreshFingerprint nodeId admin now => (queueFingerprintRefresh nodeId admin now).embed .dml
  | deleteNode nodeId requestIp admin now => GpuFleet.deleteNode nodeId requestIp admin now

end AuditedOp

/-- The operations of the server side by side. -/
abbrev AuditedConf := Conf AuditedOp CleanStmt Db World Exc Unit

/-- The number of operations that owe the entry. -/
def requested (k : AuditEntry) (c : AuditedConf) : Nat :=
  c.sessions.countP fun s => decide (s.tag.entry = some k)

/-- The number of operations that owe the entry and have succeeded. -/
def succeeded (k : AuditEntry) (c : AuditedConf) : Nat :=
  c.sessions.countP fun s => s.done.any Except.isOk && decide (s.tag.entry = some k)

/-! ## Statements -/

/-- How many of these entries a statement writes. -/
def Dml.entries (k : AuditEntry) : Dml → Nat
  | insertAudit row => if row.entry = some k then 1 else 0
  | _ => 0

@[inherit_doc Dml.entries]
def CleanStmt.entries (k : AuditEntry) : CleanStmt → Nat
  | dml q => q.entries k
  | _ => 0

theorem entries_apply (k : AuditEntry) (q : CleanStmt) (db : Db) :
    entries k (Statement.apply q db) = entries k db + q.entries k := by
  cases q with
  | dml q =>
      cases q with
      | insertAudit row =>
          show entries k (Statement.apply (Dml.insertAudit row) db) = _
          rw [entries, rows_insertAudit, List.countP_append, List.countP_singleton]
          refine congrArg _ ?_
          show (if decide (row.entry = some k) = true then 1 else 0) = _
          simp [CleanStmt.entries, Dml.entries]
      | _ => rfl
  | _ => rfl

/-- The trail only grows. -/
theorem audits_grow (q : CleanStmt) (db : Db) :
    db.audits.rows <+: (Statement.apply q db).audits.rows := by
  cases q with
  | dml q =>
      cases q with
      | insertAudit row =>
          show _ <+: (Statement.apply (Dml.insertAudit row) db).audits.rows
          rw [rows_insertAudit]
          exact List.prefix_append ..
      | _ => exact List.prefix_rfl
  | _ => exact List.prefix_rfl

/-! ## What programs write -/

/-- The program writes none of these entries. -/
abbrev WritesNone {α : Type} (k : AuditEntry) (p : Tx α) : Prop := Executes (fun q => q.entries k = 0) p

/-- The program writes these entries, this many when it returns. -/
abbrev Writes {α : Type} (k : AuditEntry) (p : Tx α) (n : Nat) : Prop := p.Spends (Dml.entries k) n

/-- How many of these entries are owed. -/
def owed (k : AuditEntry) (e : Option AuditEntry) : Nat := if decide (e = some k) then 1 else 0

section Writes

variable {k : AuditEntry} {α β : Type}

theorem Writes.after {p : Tx α} {g : α → Tx β} {n : Nat} (hp : WritesNone k p)
    (hg : ∀ a, Writes k (g a) n) : Writes k (p >>= g) n := Prog.Spends.after hp hg

theorem Writes.silently {p : Tx α} {n : Nat} (hp : Writes k p n) : Writes k (silently p) n := by
  have hall : Writes k (GpuFleet.silently p) (n + 0) := Prog.Spends.bind hp fun _ => rfl
  rwa [Nat.add_zero] at hall

theorem audit_writes {row : AuditEvent} {g : Unit → Tx α} (hg : ∀ a, WritesNone k (g a)) :
    Writes k (Prog.execute (.insertAudit row) >>= g) (owed k row.entry) := by
  have hweight : (Dml.insertAudit row).entries k = owed k row.entry := by simp [Dml.entries, owed]
  rw [← hweight]
  exact Prog.spends_execute hg

/-- The entry of an action on a node. -/
theorem auditNode_writes {admin : Admin} {action nodeId : String} {detail : Json} {now : Nat}
    {g : Unit → Tx α} (hg : ∀ a, WritesNone k (g a)) :
    Writes k (auditNode admin action nodeId detail (utcNowIso now) >>= g)
      (owed k (some (admin.entry action "node" nodeId now))) := audit_writes hg

/-- The entry of an action on a task. -/
theorem auditTask_writes {admin : Admin} {action taskId : String} {detail : Json} {now : Nat}
    {g : Unit → Tx α} (hg : ∀ a, WritesNone k (g a)) :
    Writes k (auditTask admin action taskId detail (utcNowIso now) >>= g)
      (owed k (some (admin.entry action "task" taskId now))) := audit_writes hg

end Writes

/-! ## Operations without an entry -/

section WritesNone

variable {k : AuditEntry}

theorem writesNone_execute {q : Dml} (h : q.entries k = 0) : WritesNone k (Prog.execute q) :=
  executes_execute h

theorem writesNone_executeReturning {α : Type} {q : Dml} {f : Db → α} (h : q.entries k = 0) :
    WritesNone k (Prog.executeReturning q f) := executes_executeReturning h

theorem upsertTaskAttempt_writesNone (taskId nodeId status : String) (args : AttemptArgs) :
    WritesNone k (upsertTaskAttempt taskId nodeId status args) :=
  upsertTaskAttempt_executes taskId nodeId status args fun _ => rfl

theorem transitionTask_writesNone (taskId : String) (event : TransitionEvent) (args : TransitionArgs) :
    WritesNone k (transitionTask taskId event args) := transitionTask_executes taskId event args fun _ _ => rfl

theorem heartbeat_writesNone (keep : Nat) (nodeId : String) (node : Node) (payload : HeartbeatRequest)
    (now : Nat) : WritesNone k (heartbeat keep nodeId node payload now) := by
  have sync : WritesNone k (syncReportedActiveTask nodeId payload.activeTaskId (utcNowIso now)) := by
    unfold syncReportedActiveTask
    split
    · trivial
    · split
      · trivial
      · refine executes_query.bind fun row => ?_
        cases row with
        | none => trivial
        | some row =>
            simp only
            split
            · exact (writesNone_execute rfl).bind fun _ => executes_query
            · trivial
  have respond : ∀ claimed : Option Task, WritesNone k (do
      let taskControls ← Prog.query fun db => cancelControls db nodeId
      reconnect
      Prog.execute (.snapshot (.trim nodeId keep))
      reconnect
      let refreshFingerprint ← takeFingerprintRefresh nodeId
      pure ({ serverTime := utcNowIso now
              nodeId
              tasks := (claimed.map Task.envelope).toList
              taskControls
              refreshFingerprint } : HeartbeatResponse)) := fun claimed =>
    executes_query.bind fun _ => executes_reconnect.bind fun _ =>
      (writesNone_execute rfl).bind fun _ => executes_reconnect.bind fun _ =>
        Executes.bind (p := takeFingerprintRefresh nodeId) (fun _ => trivial) fun _ => trivial
  refine (writesNone_execute rfl).bind fun _ => (writesNone_execute rfl).bind fun _ =>
    (writesNone_execute rfl).bind fun _ => sync.bind fun active => ?_
  cases active with
  | some row => exact respond none
  | none =>
      exact Executes.bind (p := claimNextTaskForNode ..) (writesNone_executeReturning rfl)
        fun claimed => respond claimed

theorem taskEvents_writesNone (nodeId : String) (payload : NodeTaskEventRequest) (now : Nat) :
    WritesNone k (taskEvents nodeId payload now) :=
  (loadTaskForNode_executes nodeId payload.taskId).bind fun _ =>
    (transitionTask_writesNone payload.taskId _ _).catch.bind fun _ =>
      (upsertTaskAttempt_writesNone _ _ _ _).bind fun _ => trivial

theorem taskResult_writesNone (nodeId : String) (payload : NodeTaskResultRequest) (now : Nat) :
    WritesNone k (taskResult nodeId payload now) := by
  refine (loadTaskForNode_executes nodeId payload.taskId).bind fun _ => ?_
  have hfinal : ∀ status a b c, WritesNone k (finalizeTaskResult payload.taskId status a b c) :=
    fun status a b c => finalizeTaskResult_executes payload.taskId status a b c rfl
  refine (hfinal _ _ _ _).catch.bind fun out => ?_
  obtain ⟨row, duplicate⟩ := out
  simp only
  split
  · trivial
  · refine (upsertTaskAttempt_writesNone _ _ _ _).bind fun _ => ?_
    refine executes_reconnect.bind fun _ => ?_
    split
    · exact executes_emitEvent.bind fun _ => trivial
    · trivial

/-- What the scanner writes is not of an administrator. -/
theorem scanTask_writesNone (now : Nat) (nowIso : String) (task : ActiveTask) :
    WritesNone k (scanTask now nowIso task) := by
  have gave : ∀ (event : TransitionEvent) (action webhook : String) (detail payload : Json),
      WritesNone k (giveUp task event action detail webhook payload nowIso) := by
    intro event action webhook detail payload
    refine (transitionTask_writesNone task.taskId event _).bind fun _ => ?_
    refine (writesNone_execute ?_).bind fun _ => executes_emitEvent
    simp [Dml.entries, AuditEvent.entry]
  refine (overdue_executes task now).bind fun reason => ?_
  cases reason with
  | none => trivial
  | some reason => cases reason <;> exact gave _ _ _ _ _

end WritesNone

/-! ## Every operation -/

section Operations

variable {k : AuditEntry} (settings : Settings) (crypto : Crypto)

@[simp] theorem owed_none : owed k none = 0 := by simp [owed]

theorem writesNone_writes {α : Type} {p : Tx α} (hp : WritesNone k p) : Writes k p (owed k none) := by
  rw [owed_none]
  exact Prog.spends_of_avoids hp

theorem renewSecret_writes (action nodeId : String) (secret : NewSecret) (admin : Admin) (now : Nat) :
    Writes k (renewSecret crypto action nodeId secret admin now)
      (owed k (some (admin.entry action "node" nodeId now))) :=
  Writes.after executes_ofExcept fun _ => Writes.after (findNode_executes nodeId) fun _ =>
    Writes.after (writesNone_execute rfl) fun _ => auditNode_writes fun _ => findNode_executes nodeId

theorem createTask_writes (payload : AdminTaskCreateRequest) (ctx : CreateContext) :
    Writes k (createTask payload ctx) (owed k (SystemOp.createTask payload ctx).entry) := by
  have created : ∀ (taskId : String) (detail : Json) (g : Option Task → Tx AdminTaskDetail),
      (∀ row, WritesNone k (g row)) → Writes k (do
        auditTask ctx.admin "create_task" taskId detail (utcNowIso ctx.now)
        reconnect
        let row ← Prog.query fun db => db.tasks.get? taskId
        g row) (owed k (some (ctx.admin.entry "create_task" "task" taskId ctx.now))) :=
    fun taskId detail g hg => auditTask_writes fun _ => executes_reconnect.bind fun _ =>
      executes_query.bind hg
  have alerted : ∀ (taskId nowIso summary : String) (detail : Json)
      (g : Option Task → Tx AdminTaskDetail),
      (∀ row, WritesNone k (g row)) → Writes k (do
        createReviewAlert taskId payload.type payload.nodeId nowIso summary ctx.now
        auditTask ctx.admin "create_task" taskId detail (utcNowIso ctx.now)
        reconnect
        let row ← Prog.query fun db => db.tasks.get? taskId
        g row) (owed k (some (ctx.admin.entry "create_task" "task" taskId ctx.now))) :=
    fun taskId nowIso summary detail g hg =>
      Writes.after (p := createReviewAlert ..) (writesNone_execute rfl) fun _ =>
        created taskId detail g hg
  refine Writes.after (checkTarget_executes payload) fun _ => Writes.after executes_query
    fun existing => ?_
  split
  · trivial
  · refine Writes.after (writesNone_executeReturning rfl) fun conflict => ?_
    split
    · trivial
    · simp only
      split
      · split
        · exact alerted _ _ _ _ _ fun row => by cases row <;> trivial
        · exact created _ _ _ fun row => by cases row <;> trivial
      · refine Writes.after (p := insertReviewAudit ..) (writesNone_execute rfl) fun _ => ?_
        split
        · exact alerted _ _ _ _ _ fun row => by cases row <;> trivial
        · exact created _ _ _ fun row => by cases row <;> trivial

/-- An operation that returns has written the entry it owes, and no other. -/
theorem SystemOp.code_writes (op : SystemOp) : Writes k (op.code settings crypto) (owed k op.entry) := by
  cases op with
  | createNode payload secret admin now =>
      refine Writes.silently (Writes.after executes_ofExcept fun _ => Writes.after executes_query
        fun existing => ?_)
      split
      · trivial
      · refine Writes.after (writesNone_executeReturning rfl) fun conflict => ?_
        split
        · trivial
        · exact auditNode_writes fun _ => findNode_executes _
  | updateNode nodeId payload admin now =>
      refine Writes.silently ?_
      unfold GpuFleet.updateNode
      split
      · trivial
      · exact Writes.after (findNode_executes nodeId) fun _ => Writes.after (writesNone_execute rfl)
          fun _ => auditNode_writes fun _ => findNode_executes nodeId
  | setNodeEnabled nodeId enabled admin now =>
      exact Writes.silently (Writes.after (findNode_executes nodeId) fun _ =>
        Writes.after (writesNone_execute rfl) fun _ => auditNode_writes fun _ =>
          findNode_executes nodeId)
  | resetSecret | regenerateOnboarding =>
      exact Writes.silently (renewSecret_writes crypto ..)
  | createTask payload ctx => exact (createTask_writes payload ctx).silently
  | cancel taskId admin now =>
      refine Writes.silently (Writes.after (Executes.catch
        (readThenTransition_executes taskId .cancel _ fun _ _ => rfl)) fun out => ?_)
      exact auditTask_writes fun _ => taskRowToDetail_executes _
  | escalate taskId note admin now =>
      refine Writes.silently (Writes.after (Executes.catch
        (readThenTransition_executes taskId .reviewEscalate _ fun _ _ => rfl)) fun out => ?_)
      exact Writes.after (p := createReviewAlert ..) (writesNone_execute rfl) fun _ =>
        auditTask_writes fun _ => executes_emitEvent.bind fun _ => taskRowToDetail_executes _
  | approve taskId note admin now =>
      refine Writes.silently (Writes.after (getTaskRow_executes taskId).catch fun row => ?_)
      split
      · trivial
      · refine Writes.after (checkCooldown_executes taskId row now) fun _ => ?_
        refine Writes.after (transitionTask_writesNone taskId .reviewApprove _).catch fun _ => ?_
        exact Writes.after (p := insertReviewAudit ..) (writesNone_execute rfl) fun _ =>
          Writes.after (writesNone_execute rfl) fun _ => auditTask_writes fun _ =>
            taskRowToDetail_executes _
  | reject taskId note admin now =>
      refine Writes.silently (Writes.after (Executes.catch
        (readThenTransition_executes taskId .reviewReject _ fun _ _ => rfl)) fun out => ?_)
      exact Writes.after (p := insertReviewAudit ..) (writesNone_execute rfl) fun _ =>
        Writes.after (writesNone_execute rfl) fun _ => auditTask_writes fun _ =>
          taskRowToDetail_executes _
  | heartbeat nodeId payload now =>
      exact writesNone_writes (asNode_executes fun node => (heartbeat_writesNone ..).bind fun _ => trivial)
  | event nodeId payload now =>
      exact writesNone_writes (asNode_executes fun _ => (taskEvents_writesNone nodeId payload now).silently)
  | result nodeId payload now =>
      exact writesNone_writes (asNode_executes fun _ => (taskResult_writesNone nodeId payload now).silently)
  | markLost now =>
      exact writesNone_writes (Executes.silently (executes_query.bind fun _ =>
        Executes.forEach fun task => scanTask_writesNone now _ task))
  | expireReviews now =>
      refine writesNone_writes (Executes.silently (executes_query.bind fun _ =>
        Executes.forEach fun taskId => ?_))
      refine (transitionTask_writesNone taskId .reviewExpire _).bind fun _ => ?_
      exact (writesNone_execute rfl).bind fun _ => executes_emitEvent

end Operations

/-! ## Actions that commit at their end -/

section AtEnd

variable {α : Type} (settings : Settings) (crypto : Crypto)

theorem getTaskRow_oneTransaction (taskId : String) : (getTaskRow taskId).OneTransaction :=
  Prog.OneTransaction.bind (p := Prog.query _) (fun _ => trivial) fun row => by
    cases row <;> trivial

theorem findNode_oneTransaction (nodeId : String) : (findNode nodeId).OneTransaction :=
  Prog.OneTransaction.bind (p := Prog.query _) (fun _ => trivial) fun row => by
    cases row <;> trivial

theorem taskRowToDetail_oneTransaction (row : Task) : (taskRowToDetail row).OneTransaction :=
  fun _ _ => trivial

theorem catch_oneTransaction {p : Tx α} {handler : String → Exc} (hp : p.OneTransaction) :
    (catchTaskState p fun m => .raise (handler m)).OneTransaction :=
  hp.tryCatch fun e => by cases e <;> trivial

theorem transitionTask_oneTransaction (taskId : String) (event : TransitionEvent)
    (args : TransitionArgs) : (transitionTask taskId event args).OneTransaction := by
  have update : ∀ q, (Prog.execute q >>= fun _ => getTaskRow taskId : Tx Task).OneTransaction :=
    fun q _ => getTaskRow_oneTransaction taskId
  refine (getTaskRow_oneTransaction taskId).bind fun row => ?_
  cases event with
  | node e =>
      simp only [applyNodeEvent]
      split
      · trivial
      · exact update _
  | cancel =>
      simp only [applyCancel]
      repeat' split
      all_goals first
        | trivial
        | exact update _
  | reviewEscalate | reviewApprove | reviewReject | reviewExpire =>
      simp only
      repeat' split
      all_goals first
        | trivial
        | exact update _
  | backgroundTimeout | backgroundLost => exact update _

/-- A read, a transition and both rows. -/
theorem readThenTransition_oneTransaction (taskId : String) (event : TransitionEvent)
    (args : TransitionArgs) : (do
      let row ← getTaskRow taskId
      let saved ← transitionTask taskId event args
      pure (row, saved) : Tx (Task × Task)).OneTransaction :=
  (getTaskRow_oneTransaction taskId).bind fun _ =>
    (transitionTask_oneTransaction taskId event args).bind fun _ => trivial

theorem checkCooldown_oneTransaction (taskId : String) (row : Task) (now : Nat) :
    (checkCooldown taskId row now).OneTransaction := by
  unfold checkCooldown
  split
  · trivial
  · split
    · trivial
    · refine (ofExcept_oneTransaction _).bind fun _ => ?_
      split <;> trivial

theorem renewSecret_oneTransaction (action nodeId : String) (secret : NewSecret) (admin : Admin)
    (now : Nat) : (renewSecret crypto action nodeId secret admin now).OneTransaction :=
  (ofExcept_oneTransaction _).bind fun _ => (findNode_oneTransaction nodeId).bind fun _ _ _ =>
    findNode_oneTransaction nodeId

/-- An action with an entry commits at its end, but for the creation of a task. -/
theorem SystemOp.code_oneTransaction (op : SystemOp) (hentry : op.entry.isSome = true)
    (hcreate : ∀ payload ctx, op ≠ .createTask payload ctx) :
    (op.code settings crypto).OneTransaction := by
  have quiet : ∀ {β : Type} {p : Tx β}, p.OneTransaction → (GpuFleet.silently p).OneTransaction :=
    fun hp => hp.bind fun _ => trivial
  cases op with
  | createNode payload secret admin now =>
      refine quiet ((ofExcept_oneTransaction _).bind fun _ db => ?_)
      simp only [Prog.bind]
      split
      · trivial
      · intro db
        simp only [Prog.bind]
        split
        · trivial
        · exact fun _ => findNode_oneTransaction _
  | updateNode nodeId payload admin now =>
      refine quiet ?_
      unfold GpuFleet.updateNode
      split
      · trivial
      · exact (findNode_oneTransaction nodeId).bind fun _ _ _ => findNode_oneTransaction nodeId
  | setNodeEnabled nodeId enabled admin now =>
      exact quiet ((findNode_oneTransaction nodeId).bind fun _ _ _ => findNode_oneTransaction nodeId)
  | resetSecret | regenerateOnboarding => exact quiet (renewSecret_oneTransaction crypto ..)
  | createTask payload ctx => exact absurd rfl (hcreate payload ctx)
  | cancel taskId admin now =>
      exact quiet ((catch_oneTransaction (readThenTransition_oneTransaction taskId .cancel _)).bind fun _ _ =>
        taskRowToDetail_oneTransaction _)
  | escalate taskId note admin now =>
      exact quiet ((catch_oneTransaction
        (readThenTransition_oneTransaction taskId .reviewEscalate _)).bind
        fun _ _ _ _ => taskRowToDetail_oneTransaction _)
  | approve taskId note admin now =>
      refine quiet ((catch_oneTransaction (getTaskRow_oneTransaction taskId)).bind fun row => ?_)
      split
      · trivial
      · refine (checkCooldown_oneTransaction taskId row now).bind fun _ => ?_
        exact (catch_oneTransaction
          (transitionTask_oneTransaction taskId .reviewApprove _)).bind fun _ _ _ _ =>
          taskRowToDetail_oneTransaction _
  | reject taskId note admin now =>
      exact quiet ((catch_oneTransaction
        (readThenTransition_oneTransaction taskId .reviewReject _)).bind
        fun _ _ _ _ => taskRowToDetail_oneTransaction _)
  | heartbeat | event | result | markLost | expireReviews => cases hentry

end AtEnd

/-! ## The trail -/

section Trail

variable {settings : Settings} {crypto : Crypto} {k : AuditEntry}

/-- The deletion of a node writes its entry at the end. -/
theorem deleteNode_writes (nodeId : String) (requestIp : Option String) (admin : Admin) (now : Nat) :
    (deleteNode nodeId requestIp admin now).Spends (CleanStmt.entries k)
      (owed k (some (admin.entry "delete_node" "node" nodeId now))) := by
  refine Prog.Spends.after (p := Prog.query _) (P := fun _ => True) (fun _ _ => trivial)
    fun row => ?_
  cases row with
  | none => trivial
  | some row =>
      refine ⟨Nat.zero_le _, fun _ => ⟨?_, fun _ => ?_⟩⟩
      · exact Nat.le_of_eq (by simp [CleanStmt.entries, Dml.entries, owed, AuditEvent.entry, Admin.entry])
      · show owed k _ - 0 - _ = 0
        simp [CleanStmt.entries, Dml.entries, owed, AuditEvent.entry, Admin.entry]

/-- An operation that returns has written the entry it owes, and no other. -/
theorem AuditedOp.code_writes (op : AuditedOp) :
    (op.code settings crypto).Spends (CleanStmt.entries k) (owed k op.entry) := by
  cases op with
  | system op =>
      have hall : Writes k (op.code settings crypto >>= fun _ => pure ()) (owed k op.entry + 0) :=
        Prog.Spends.bind (op.code_writes settings crypto) fun _ => rfl
      rw [Nat.add_zero] at hall
      exact Prog.Spends.embed (g := CleanStmt.dml) (w := CleanStmt.entries k) hall
  | refreshFingerprint nodeId admin now =>
      have hall : Writes k (queueFingerprintRefresh nodeId admin now) _ :=
        Writes.after (findNode_executes nodeId) fun _ => auditNode_writes fun _ =>
          executes_reconnect.bind fun _ => Executes.bind (p := Prog.effect _) (fun _ => trivial)
            fun _ => trivial
      exact Prog.Spends.embed (g := CleanStmt.dml) (w := CleanStmt.entries k) hall
  | deleteNode nodeId requestIp admin now => exact deleteNode_writes nodeId requestIp admin now

theorem AuditedOp.code_oneTransaction (op : AuditedOp) (h : op.AtEnd) :
    (op.code settings crypto).OneTransaction := by
  cases op with
  | system op =>
      have hall : (op.code settings crypto >>= fun _ => pure () : Tx Unit).OneTransaction :=
        (op.code_oneTransaction settings crypto h.1 h.2).bind fun _ => trivial
      exact hall.embed _
  | refreshFingerprint => exact h.elim
  | deleteNode nodeId requestIp admin now =>
      refine Prog.OneTransaction.bind (p := Prog.query _) (fun _ => trivial) fun row => ?_
      cases row with
      | none => trivial
      | some row => exact fun _ _ => trivial

/-- The actions that go on after their commit. -/
def AuditEntry.GoesOn (k : AuditEntry) : Prop :=
  k.action = "create_task" ∨ k.action = "refresh_node_fingerprint"

theorem owed_of_goesOn (hk : ¬ k.GoesOn) (op : AuditedOp) : op.AtEnd ∨ owed k op.entry = 0 := by
  by_cases hentry : op.entry = some k
  · left
    cases op with
    | system op =>
        refine ⟨Option.isSome_iff_exists.mpr ⟨k, hentry⟩, ?_⟩
        rintro payload ctx rfl
        cases hentry
        exact hk (.inl rfl)
    | refreshFingerprint =>
        cases hentry
        exact hk (.inr rfl)
    | deleteNode => trivial
  · right
    simp [owed, hentry]

/-- The trail only grows.  Each answer of success has its own entry, no entry is there without its
request, and an action that commits at its end has one only if it succeeded. -/
theorem audit_trail {db : Db} {x : World} {as : List (Act AuditedOp Exc)} {c : AuditedConf}
    (h : (Conf.init db x : AuditedConf).run (AuditedOp.code settings crypto) as = some c) :
    db.audits.rows <+: c.db.audits.rows ∧
      (∀ k, entries k db + succeeded k c ≤ entries k c.db ∧
        entries k c.db ≤ entries k db + requested k c) ∧
      ∀ k : AuditEntry, ¬ k.GoesOn → entries k c.db = entries k db + succeeded k c := by
  have htallied : ∀ k, Conf.Tallied (entries k) (CleanStmt.entries k) (fun op => owed k op.entry)
      AuditedOp.AtEnd (entries k db) c := fun k =>
    Conf.tallied_run (entries_apply k) (fun op => op.code_writes) (fun op => op.code_oneTransaction) h
  have howed : ∀ k (op : AuditedOp), owed k op.entry = if decide (op.entry = some k) then 1 else 0 :=
    fun _ _ => rfl
  refine ⟨?_, fun k => ⟨?_, ?_⟩, fun k hk => ?_⟩
  · have hgrown : c.Everywhere fun w => db.audits.rows <+: w.audits.rows :=
      Conf.run_induction _ (I := fun c => c.Everywhere fun w => db.audits.rows <+: w.audits.rows)
        (fun c a c' hc hstep => Conf.Everywhere.step (I := fun w => db.audits.rows <+: w.audits.rows)
          _ hc hstep fun q s _ hs => hs.trans (audits_grow q _)) h
        (Conf.everywhere_init x List.prefix_rfl)
    exact hgrown.1
  · have hle := (htallied k).le
    rwa [Conf.sum_earned (howed k)] at hle
  · have hle := (htallied k).bounded
    rwa [Conf.sum_begun (howed k)] at hle
  · have hexact := (htallied k).exact (owed_of_goesOn hk)
    rwa [Conf.sum_earned (howed k)] at hexact

end Trail

/-- Two administrators cancel a task side by side: the first succeeds, the second is refused. -/
theorem audit_trail_racing :
    ∃ c : AuditedConf, (Conf.init twoPending {}).run (AuditedOp.code {} plainCrypto)
        ([.spawn (.system (.cancel "t1" ⟨1, "a"⟩ 0)), .spawn (.system (.cancel "t1" ⟨2, "b"⟩ 0)),
          .turn 1] ++ List.replicate 8 (.turn 0) ++ List.replicate 2 (.turn 1)) = some c ∧
      entries ((⟨2, "b"⟩ : Admin).entry "cancel_task" "task" "t1" 0) c.db =
        succeeded ((⟨2, "b"⟩ : Admin).entry "cancel_task" "task" "t1" 0) c := by
  have hruns : ((Conf.init twoPending {} : AuditedConf).run (AuditedOp.code {} plainCrypto)
      ([.spawn (.system (.cancel "t1" ⟨1, "a"⟩ 0)), .spawn (.system (.cancel "t1" ⟨2, "b"⟩ 0)),
        .turn 1] ++ List.replicate 8 (.turn 0) ++ List.replicate 2 (.turn 1))).isSome = true := by
    decide +kernel
  obtain ⟨c, hc⟩ := Option.isSome_iff_exists.mp hruns
  refine ⟨c, hc, ?_⟩
  have hexact := (audit_trail hc).2.2 ((⟨2, "b"⟩ : Admin).entry "cancel_task" "task" "t1" 0)
    (by simp [AuditEntry.GoesOn, Admin.entry])
  have hnone : entries ((⟨2, "b"⟩ : Admin).entry "cancel_task" "task" "t1" 0) twoPending = 0 := by
    decide +kernel
  rwa [hnone, Nat.zero_add] at hexact

end GpuFleet
