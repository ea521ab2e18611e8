import GpuFleet.Server.System

/-!
# What operations execute

`Permitted` lists, statement by statement, what holds when an operation
executes it, and `SystemOp.code_wp` says that no operation executes
anything else.  Every invariant of runs follows from this list and from what
the statements do (`Step.Runs.keeps`).
-/

namespace GpuFleet

open Foundations

/-! ## Statements -/

/-- The updates of the scanner's passes, which go through many tasks. -/
def TaskStmt.isPass : TaskStmt → Bool
  | setBackground .. | setReviewExpired .. => true
  | _ => false

/-- What an operation knows of the database it began on when it executes a statement on
`tasks`. -/
def PermittedTask (op : SystemOp) (start : Db) : TaskStmt → Prop
  | .insert row => ∃ payload ctx taskId key, taskId = orElse payload.taskId ctx.freshTaskId ∧
      op = .createTask payload ctx ∧
      start.tasks.get? taskId = none ∧ (start.nodes.get? payload.nodeId).isSome ∧
      row = newTask payload
        (admissionOf payload.type ctx.review (utcNowIso ctx.now) (utcNowIso ctx.reviewedAt)) taskId
        key ctx.admin (utcNowIso ctx.now)
  | .setEvent taskId status startedAt finishedAt => ∃ row e, start.tasks.get? taskId = some row ∧
      taskEventTransitions e row.status = true ∧ status = e.status ∧
      (startedAt = row.startedAt ∨ startedAt = some (utcNowIso op.now)) ∧
      (finishedAt = row.finishedAt ∨ finishedAt = some (utcNowIso op.now))
  | .setCancelled _ finishedAt => finishedAt = utcNowIso op.now
  | .setCancelRequested taskId finishedAt => (∃ row, start.tasks.get? taskId = some row ∧
      row.status.isActive = true) ∧ finishedAt = some (utcNowIso op.now)
  | .setApproved taskId .. => (∃ note admin now, op = .approve taskId note admin now) ∧
      ∃ row, start.tasks.get? taskId = some row ∧ row.status = .reviewing ∧
        row.reviewStage = some 3
  | .setBackground _ status finishedAt => (status = .timeout ∨ status = .lost) ∧
      finishedAt = utcNowIso op.now
  | .setResult taskId _ _ finishedAt nowIso => ∃ nodeId payload now,
      op = .result nodeId payload now ∧ taskId = payload.taskId ∧
      finishedAt = orElse payload.finishedAt nowIso ∧ nowIso = utcNowIso now
  | .claimNext _ claimedAt => claimedAt = utcNowIso op.now
  | .setReported taskId claimedAt => claimedAt = utcNowIso op.now ∧
      ∃ row payload now, op = .heartbeat row.nodeId payload now ∧
        (start.nodes.get? row.nodeId).any Node.isEnabled = true ∧
        payload.activeTaskId = some taskId ∧ taskId ≠ "" ∧
        start.tasks.get? taskId = some row ∧ row.status = .pending
  | _ => True

/-- What an operation knows when it executes a statement on `nodes`. -/
def PermittedNode (op : SystemOp) (start : Db) : NodeStmt → Prop
  | .insert row => row.lastSeenAt = none ∧ 3 ≤ row.heartbeatIntervalSec ∧
      row.heartbeatIntervalSec ≤ 3600 ∧ row.firstSeenAt = none
  | .touch _ _ interval nowIso _ => nowIso = utcNowIso op.now ∧ 3 ≤ interval ∧ interval ≤ 3600
  | .setSettings nodeId values => ∃ payload row nowIso, start.nodes.get? nodeId = some row ∧
      values = NodeUpdateRequest.update payload row nowIso
  | _ => True

/-- What an operation knows when it executes a statement on `node_status_snapshots`. -/
def PermittedSnapshot (op : SystemOp) : SnapshotStmt → Prop
  | .insertMany rows => ∃ nodeId payload now, op = .heartbeat nodeId payload now ∧
      rows = buildSnapshotRows nodeId (utcNowIso now) payload
  | .trim nodeId _ => ∃ payload now, op = .heartbeat nodeId payload now

/-- What holds when an operation that began on the database `start` executes a statement.
Apart from the passes, an operation executes at most one statement on `tasks`. -/
def Permitted (op : SystemOp) (start : Db) : Dml → Db → Prop
  | .task q, db => PermittedTask op start q ∧ (db.tasks = start.tasks ∨ q.isPass = true)
  | .node q, _ => PermittedNode op start q
  | .snapshot q, _ => PermittedSnapshot op q
  | .insertAudit row, _ => row.createdAt = utcNowIso op.now
  | .log _, _ | .artifact _, _ => False
  | _, _ => True

/-- The statements of the program are those of the operation. -/
def Abides {α : Type} (op : SystemOp) (start : Db) (p : Tx α) (db : Db) : Prop :=
  p.wp (Permitted op start) (fun _ _ => True) (fun _ _ => True) db

section Abides

variable {op : SystemOp} {start db : Db} {α β : Type}

theorem Abides.bind {p : Tx α} {g : α → Tx β} (hp : Abides op start p db)
    (hg : ∀ a db', Abides op start (g a) db') : Abides op start (p >>= g) db := by
  rw [Abides, Prog.wp_bind]
  exact Prog.wp_imp hp fun a db' _ => hg a db'

/-- Catching a `TaskStateError` and answering with an error of the API. -/
theorem catchTaskState_wp {P : Dml → Db → Prop} {exn : Exc → Db → Prop} {post : α → Db → Prop}
    {p : Tx α} {handler : String → Exc} (hexn : ∀ e w, exn e w) (hp : p.wp P exn post db) :
    (catchTaskState p fun m => .raise (handler m)).wp P exn post db := by
  rw [catchTaskState, Prog.wp_tryCatch]
  refine Prog.wp_mono hp (fun _ _ => id) (fun e w _ => ?_) fun _ _ => id
  cases e <;> exact hexn _ w

theorem Abides.catch {p : Tx α} {handler : String → Exc} (hp : Abides op start p db) :
    Abides op start (catchTaskState p fun m => .raise (handler m)) db :=
  catchTaskState_wp (fun _ _ => trivial) hp

theorem abides_execute {q : Dml} (h : Permitted op start q db) :
    Abides op start (Prog.execute q) db :=
  ⟨h, trivial⟩

theorem abides_ofExcept {r : Except Exc α} : Abides op start (ofExcept r) db := by
  cases r <;> trivial

/-- Reading a task row. -/
theorem getTaskRow_wp {P : Dml → Db → Prop} {exn : Exc → Db → Prop} {post : Task → Db → Prop}
    (taskId : String) :
    (getTaskRow taskId).wp P exn post db =
      match db.tasks.get? taskId with
      | none => exn (.taskState "Task not found") db
      | some row => post row db := by
  rw [getTaskRow, Prog.wp_bind, Prog.wp_query]
  cases db.tasks.get? taskId <;> rfl

theorem getTaskRow_abides (taskId : String) : Abides op start (getTaskRow taskId) db := by
  rw [Abides, getTaskRow_wp]
  cases db.tasks.get? taskId <;> trivial

/-- An update and the row again. -/
theorem update_abides {q : Dml} (taskId : String) (h : Permitted op start q db) :
    Abides op start (Prog.execute q >>= fun _ => getTaskRow taskId) db :=
  (abides_execute h).bind fun _ _ => getTaskRow_abides taskId

/-- The event of a review, which finishes nothing. -/
def TransitionEvent.isReview : TransitionEvent → Bool
  | .reviewEscalate | .reviewApprove | .reviewReject | .reviewExpire => true
  | _ => false

/-- A transition executes the statement of its event. -/
theorem transitionTask_abides {taskId : String} {event : TransitionEvent} {args : TransitionArgs}
    (hdb : event = .reviewExpire ∨ event = .backgroundTimeout ∨ event = .backgroundLost ∨
      db.tasks = start.tasks)
    (hnow : orElse args.startedAt args.nowIso = utcNowIso op.now)
    (hfinish : event.isReview = true ∨
      args.nowIso = utcNowIso op.now ∧ args.finishedAt = some (utcNowIso op.now))
    (happrove : event = .reviewApprove → ∃ note admin now, op = .approve taskId note admin now) :
    Abides op start (transitionTask taskId event args) db := by
  have hfinished : event.isReview = false →
      orElse args.finishedAt args.nowIso = utcNowIso op.now := by
    intro hevent
    obtain ⟨hiso, hfinished⟩ := hfinish.resolve_left (by rw [hevent]; exact Bool.false_ne_true)
    rw [hfinished, hiso, orElse_some_self]
  rw [transitionTask, Abides, Prog.wp_bind, getTaskRow_wp]
  cases hrow : db.tasks.get? taskId with
  | none => trivial
  | some row =>
      cases event with
      | node e =>
          have hdb : db.tasks = start.tasks := by simpa using hdb
          rw [hdb] at hrow
          simp only [applyNodeEvent]
          split
          · trivial
          · rename_i hacc
            refine update_abides taskId
              ⟨⟨row, e, hrow, by simpa using hacc, rfl, ?_, ?_⟩, Or.inl hdb⟩
            · rw [hnow]
              split
              · exact Or.inr rfl
              · exact Or.inl rfl
            · rw [hfinished rfl]
              split
              · exact Or.inr rfl
              · exact Or.inl rfl
      | cancel =>
          have hdb : db.tasks = start.tasks := by simpa using hdb
          rw [hdb] at hrow
          simp only [applyCancel]
          split
          · trivial
          · split
            · exact update_abides taskId ⟨hfinished rfl, Or.inl hdb⟩
            · split
              · rename_i hactive
                have hargs := hfinish.resolve_left Bool.false_ne_true
                exact update_abides taskId ⟨⟨⟨row, hrow, hactive⟩, hargs.2⟩, Or.inl hdb⟩
              · trivial
      | reviewEscalate =>
          have hdb : db.tasks = start.tasks := by simpa using hdb
          simp only
          split
          · trivial
          · split
            · trivial
            · exact update_abides taskId ⟨trivial, Or.inl hdb⟩
      | reviewApprove =>
          have hdb : db.tasks = start.tasks := by simpa using hdb
          rw [hdb] at hrow
          simp only
          split
          · trivial
          · rename_i hstage
            have hstage : row.status = .reviewing ∧ row.reviewStage = some 3 := by
              simpa only [not_or, ne_eq, not_not] using hstage
            exact update_abides taskId
              ⟨⟨happrove rfl, row, hrow, hstage.1, hstage.2⟩, Or.inl hdb⟩
      | reviewReject =>
          have hdb : db.tasks = start.tasks := by simpa using hdb
          simp only
          split
          · trivial
          · exact update_abides taskId ⟨trivial, Or.inl hdb⟩
      | reviewExpire =>
          simp only
          split
          · trivial
          · exact update_abides taskId ⟨trivial, Or.inr rfl⟩
      | backgroundTimeout =>
          exact update_abides taskId ⟨⟨Or.inl rfl, hfinished rfl⟩, Or.inr rfl⟩
      | backgroundLost =>
          exact update_abides taskId ⟨⟨Or.inr rfl, hfinished rfl⟩, Or.inr rfl⟩

/-- Reading the row of a node. -/
theorem loadTaskForNode_wp {P : Dml → Db → Prop} {exn : Exc → Db → Prop}
    {post : Task → Db → Prop} (nodeId taskId : String) (hexn : ∀ e, exn e db)
    (hpost : ∀ row, db.tasks.get? taskId = some row → post row db) :
    (loadTaskForNode nodeId taskId).wp P exn post db := by
  rw [loadTaskForNode, Prog.wp_bind, Prog.wp_query]
  cases hrow : (db.tasks.get? taskId).filter fun row => row.nodeId = nodeId with
  | none => exact hexn _
  | some row => exact hpost row (Option.filter_eq_some_iff.mp hrow).1

theorem upsertTaskAttempt_abides (taskId nodeId status : String) (args : AttemptArgs) :
    Abides op start (upsertTaskAttempt taskId nodeId status args) db := by
  rw [upsertTaskAttempt, Abides, Prog.wp_bind, Prog.wp_query]
  cases firstBy (fun a b => a.id > b.id) (db.attempts.select fun row => row.taskId = taskId) <;>
    exact ⟨trivial, trivial⟩

theorem taskRowToDetail_abides (row : Task) : Abides op start (taskRowToDetail row) db := trivial

theorem auditTask_abides {admin : Admin} {action taskId : String} {detail : Json} {nowIso : String}
    (h : nowIso = utcNowIso op.now) :
    Abides op start (auditTask admin action taskId detail nowIso) db :=
  abides_execute h

theorem auditNode_abides {admin : Admin} {action nodeId : String} {detail : Json} {nowIso : String}
    (h : nowIso = utcNowIso op.now) :
    Abides op start (auditNode admin action nodeId detail nowIso) db :=
  abides_execute h

theorem findNode_abides (nodeId : String) : Abides op start (findNode nodeId) db := by
  rw [findNode, Abides, Prog.wp_bind, Prog.wp_query]
  cases db.nodes.get? nodeId <;> trivial

end Abides

/-! ## Operation by operation -/

section Operations

variable {start : Db}

/-- A read, a transition and both rows, as the handlers of administrators make them. -/
theorem readThenTransition_abides (op : SystemOp) (taskId : String) (event : TransitionEvent)
    (args : TransitionArgs) (hnow : orElse args.startedAt args.nowIso = utcNowIso op.now)
    (hfinish : event.isReview = true ∨
      args.nowIso = utcNowIso op.now ∧ args.finishedAt = some (utcNowIso op.now))
    (happrove : event ≠ .reviewApprove) :
    Abides op start (do
      let row ← getTaskRow taskId
      let saved ← transitionTask taskId event args
      pure (row, saved)) start := by
  rw [Abides, Prog.wp_bind, getTaskRow_wp]
  cases start.tasks.get? taskId with
  | none => trivial
  | some row =>
      exact (transitionTask_abides (Or.inr (Or.inr (Or.inr rfl))) hnow hfinish
        fun h => absurd h happrove).bind fun _ _ => trivial

theorem cancelTask_abides (taskId : String) (admin : Admin) (now : Nat) :
    Abides (.cancel taskId admin now) start (cancelTask taskId admin now) start := by
  refine (readThenTransition_abides _ taskId .cancel _ rfl (Or.inr ⟨rfl, rfl⟩) nofun).catch.bind fun ⟨row, saved⟩ _ => ?_
  exact (auditTask_abides rfl).bind fun _ _ => taskRowToDetail_abides saved

theorem rejectReview_abides (taskId : String) (note : Option String) (admin : Admin) (now : Nat) :
    Abides (.reject taskId note admin now) start (rejectReview taskId note admin now) start := by
  refine (readThenTransition_abides _ taskId .reviewReject _ rfl (Or.inl rfl) nofun).catch.bind fun ⟨row, saved⟩ _ => ?_
  refine (abides_execute (q := .insertReview _) trivial).bind fun _ _ => ?_
  refine (abides_execute (q := .alert _) trivial).bind fun _ _ => ?_
  exact (auditTask_abides rfl).bind fun _ _ => taskRowToDetail_abides saved

theorem escalateReview_abides (taskId : String) (note : Option String) (admin : Admin)
    (now : Nat) :
    Abides (.escalate taskId note admin now) start (escalateReview taskId note admin now)
      start := by
  refine (readThenTransition_abides _ taskId .reviewEscalate _ rfl (Or.inl rfl) nofun).catch.bind fun ⟨row, saved⟩ _ => ?_
  refine (abides_execute (q := .alert _) trivial).bind fun _ _ => ?_
  refine (auditTask_abides rfl).bind fun _ _ => ?_
  exact Abides.bind (fun _ => trivial) fun _ _ => taskRowToDetail_abides saved

theorem checkCooldown_abides {op : SystemOp} {db : Db} (taskId : String) (row : Task) (now : Nat)
    {rest : Unit → Tx AdminTaskDetail} (h : Abides op start (rest ()) db) :
    Abides op start (checkCooldown taskId row now >>= rest) db := by
  rw [checkCooldown]
  split
  · exact h
  · split
    · exact h
    · cases parseMoment _ with
      | error e => trivial
      | ok m =>
          simp only [ofExcept, Prog.ret_bind]
          split
          · trivial
          · exact h

theorem approveReview_abides (taskId : String) (note : Option String) (admin : Admin)
    (now : Nat) :
    Abides (.approve taskId note admin now) start (approveReview taskId note admin now) start := by
  rw [approveReview, Abides, Prog.wp_bind]
  refine catchTaskState_wp (fun _ _ => trivial) ?_
  rw [getTaskRow_wp]
  cases start.tasks.get? taskId with
  | none => trivial
  | some row =>
      simp only
      split
      · trivial
      · refine checkCooldown_abides taskId row now ?_
        refine (transitionTask_abides (Or.inr (Or.inr (Or.inr rfl))) rfl (Or.inl rfl)
          fun _ => ⟨note, admin, now, rfl⟩).catch.bind fun saved _ => ?_
        refine (abides_execute (q := .insertReview _) trivial).bind fun _ _ => ?_
        refine (abides_execute (q := .alert _) trivial).bind fun _ _ => ?_
        exact (auditTask_abides rfl).bind fun _ _ => taskRowToDetail_abides saved

theorem taskEvents_abides (nodeId : String) (payload : NodeTaskEventRequest) (now : Nat) :
    Abides (.event nodeId payload now) start (taskEvents nodeId payload now) start := by
  rw [taskEvents, Abides, Prog.wp_bind]
  refine loadTaskForNode_wp nodeId payload.taskId (fun _ => trivial) fun _ _ => ?_
  refine (transitionTask_abides (Or.inr (Or.inr (Or.inr rfl))) ?_ ?_ ?_).catch.bind fun row _ => ?_
  · exact orElse_some_self _
  · exact Or.inr ⟨rfl, rfl⟩
  · exact nofun
  · exact (upsertTaskAttempt_abides _ _ _ _).bind fun _ _ => trivial

theorem finalizeTaskResult_abides {op : SystemOp} {taskId : String} {status : FinalStatus}
    {startedAt finishedAt nowIso : String}
    (h : PermittedTask op start (.setResult taskId status startedAt finishedAt nowIso)) :
    Abides op start (finalizeTaskResult taskId status startedAt finishedAt nowIso) start := by
  rw [finalizeTaskResult, Abides, Prog.wp_bind, getTaskRow_wp]
  cases start.tasks.get? taskId with
  | none => trivial
  | some row =>
      simp only
      split
      · trivial
      · simp only [Prog.executeReturning_bind, Prog.wp_write]
        refine ⟨⟨h, Or.inl rfl⟩, ?_⟩
        split
        · refine Abides.bind (getTaskRow_abides taskId) fun row _ => ?_
          split <;> trivial
        · exact Abides.bind (getTaskRow_abides taskId) fun _ _ => trivial

theorem taskResult_abides (nodeId : String) (payload : NodeTaskResultRequest) (now : Nat) :
    Abides (.result nodeId payload now) start (taskResult nodeId payload now) start := by
  rw [taskResult, Abides, Prog.wp_bind]
  refine loadTaskForNode_wp nodeId payload.taskId (fun _ => trivial) fun _ _ => ?_
  refine (finalizeTaskResult_abides ⟨nodeId, payload, now, rfl, rfl, rfl, rfl⟩).catch.bind
    fun ⟨row, duplicate⟩ _ => ?_
  simp only
  split
  · trivial
  · refine (upsertTaskAttempt_abides _ _ _ _).bind fun _ _ => ?_
    refine Abides.bind (p := reconnect) trivial fun _ _ => ?_
    split
    · exact fun _ => trivial
    · trivial

theorem giveUp_abides {now : Nat} {db : Db} (task : ActiveTask) (event : TransitionEvent)
    (hevent : event = .backgroundTimeout ∨ event = .backgroundLost) (action : String)
    (detail : Json) (webhook : String) (payload : Json) :
    Abides (.markLost now) start (giveUp task event action detail webhook payload (utcNowIso now))
      db := by
  refine (transitionTask_abides (Or.inr ?_) ?_ ?_ ?_).bind fun _ _ => ?_
  · exact hevent.imp id Or.inl
  · rfl
  · exact Or.inr ⟨rfl, rfl⟩
  · rintro rfl
    rcases hevent with h | h <;> cases h
  · exact Abides.bind ⟨rfl, trivial⟩ fun _ _ _ => trivial

theorem overdue_abides {op : SystemOp} {db : Db} (task : ActiveTask) (now : Nat) :
    Abides op start (overdue task now) db := by
  refine abides_ofExcept.bind fun timedOut _ => ?_
  split
  · trivial
  · split
    · refine Abides.bind (p := latestCancelRequestedAt task.taskId) ?_ fun _ _ => trivial
      rw [latestCancelRequestedAt, Abides, Prog.wp_bind, Prog.wp_query]
      split
      · trivial
      · exact abides_ofExcept
    · exact abides_ofExcept.bind fun _ _ => trivial

theorem scanTask_abides {now : Nat} {db : Db} (task : ActiveTask) :
    Abides (.markLost now) start (scanTask now (utcNowIso now) task) db := by
  refine (overdue_abides task now).bind fun reason _ => ?_
  cases reason with
  | none => trivial
  | some reason =>
      cases reason with
      | timeout => exact giveUp_abides task .backgroundTimeout (Or.inl rfl) _ _ _ _
      | cancelAck | unresponsive | neverSeen =>
          exact giveUp_abides task .backgroundLost (Or.inr rfl) _ _ _ _

theorem Abides.forEach {op : SystemOp} {β : Type} {l : List β} {body : β → Tx Unit} {db : Db}
    (h : ∀ b db', Abides op start (body b) db') : Abides op start (Prog.forEach l body) db :=
  Prog.wp_forEach (I := fun _ _ => True) (fun b _ w _ => h b w) trivial

theorem markLostTasks_abides (now : Nat) :
    Abides (.markLost now) start (markLostTasks now) start :=
  Abides.bind (p := Prog.query activeTasks) trivial fun _ _ =>
    Abides.forEach fun task _ => scanTask_abides task

theorem expireReviewingTasks_abides (now : Nat) :
    Abides (.expireReviews now) start (expireReviewingTasks now) start := by
  refine Abides.bind (p := Prog.query _) trivial fun expired _ => Abides.forEach fun taskId _ => ?_
  refine (transitionTask_abides (Or.inl rfl) ?_ ?_ ?_).bind fun _ _ => ?_
  · rfl
  · exact Or.inl rfl
  · exact nofun
  · exact (abides_execute (q := .alert _) trivial).bind fun _ _ _ => trivial

theorem findNode_wp {P : Dml → Db → Prop} {exn : Exc → Db → Prop} {post : Node → Db → Prop}
    {db : Db} (nodeId : String) (hexn : ∀ e, exn e db)
    (hpost : ∀ row, db.nodes.get? nodeId = some row → post row db) :
    (findNode nodeId).wp P exn post db := by
  rw [findNode, Prog.wp_bind, Prog.wp_query]
  cases hrow : db.nodes.get? nodeId with
  | none => exact hexn _
  | some row => exact hpost row hrow

theorem createNode_abides (crypto : Crypto) (payload : NodeCreateRequest) (secret : NewSecret)
    (admin : Admin) (now : Nat) :
    Abides (.createNode payload secret admin now) start
      (createNode crypto payload secret admin now) start := by
  refine abides_ofExcept.bind fun ⟨key, token⟩ _ => ?_
  refine Abides.bind (p := Prog.query _) trivial fun existing _ => ?_
  split
  · trivial
  · refine Abides.bind (p := Prog.executeReturning _ _)
      ⟨⟨rfl, payload.interval_ge, payload.interval_le, rfl⟩, trivial⟩ fun conflict _ => ?_
    split
    · trivial
    · exact (auditNode_abides rfl).bind fun _ _ => findNode_abides _

theorem updateNode_abides (nodeId : String) (payload : NodeUpdateRequest) (admin : Admin)
    (now : Nat) :
    Abides (.updateNode nodeId payload admin now) start (updateNode nodeId payload admin now)
      start := by
  rw [updateNode]
  split
  · trivial
  · rw [Abides, Prog.wp_bind]
    refine findNode_wp nodeId (fun _ => trivial) fun row hrow => ?_
    refine Abides.bind (p := Prog.execute _) ⟨⟨payload, row, utcNowIso now, hrow, rfl⟩, trivial⟩
      fun _ _ => ?_
    exact (auditNode_abides rfl).bind fun _ _ => findNode_abides nodeId

theorem setNodeEnabled_abides (nodeId : String) (enabled : Bool) (admin : Admin) (now : Nat) :
    Abides (.setNodeEnabled nodeId enabled admin now) start
      (setNodeEnabled nodeId enabled admin now) start := by
  refine (findNode_abides nodeId).bind fun _ _ => ?_
  refine Abides.bind (p := Prog.execute _) ⟨trivial, trivial⟩ fun _ _ => ?_
  exact (auditNode_abides rfl).bind fun _ _ => findNode_abides nodeId

theorem renewSecret_abides {op : SystemOp} (crypto : Crypto) (action nodeId : String)
    (secret : NewSecret) (admin : Admin) :
    Abides op start (renewSecret crypto action nodeId secret admin op.now) start := by
  refine abides_ofExcept.bind fun ⟨key, token⟩ _ => (findNode_abides nodeId).bind fun _ _ => ?_
  refine Abides.bind (p := Prog.execute _) ⟨trivial, trivial⟩ fun _ _ => ?_
  exact (auditNode_abides rfl).bind fun _ _ => findNode_abides nodeId

theorem checkTarget_wp {P : Dml → Db → Prop} {exn : Exc → Db → Prop} {post : Node → Db → Prop}
    {db : Db} (payload : AdminTaskCreateRequest) (hexn : ∀ e, exn e db)
    (hpost : ∀ node, db.nodes.get? payload.nodeId = some node → post node db) :
    (checkTarget payload).wp P exn post db := by
  rw [checkTarget, Prog.wp_bind, Prog.wp_query]
  cases hnode : db.nodes.get? payload.nodeId with
  | none => exact hexn _
  | some node =>
      simp only
      repeat' split
      all_goals first | exact hexn _ | exact hpost node hnode

theorem createTask_abides (payload : AdminTaskCreateRequest) (ctx : CreateContext) :
    Abides (.createTask payload ctx) start (createTask payload ctx) start := by
  rw [createTask, Abides, Prog.wp_bind]
  refine checkTarget_wp payload (fun _ => trivial) fun node hnode => ?_
  simp only [Prog.query_bind, Prog.wp_select]
  split
  · trivial
  · rename_i hnew
    simp only [Prog.executeReturning_bind, Prog.wp_write]
    refine ⟨⟨⟨payload, ctx, _, _, rfl, rfl, ?_, ?_, rfl⟩, Or.inl rfl⟩, ?_⟩
    · simpa using hnew
    · rw [hnode]
      rfl
    split
    · trivial
    · have readBack : ∀ taskId detail w, Abides (.createTask payload ctx) start (do
          auditTask ctx.admin "create_task" taskId detail (utcNowIso ctx.now)
          reconnect
          let row ← Prog.query fun db => db.tasks.get? taskId
          match row with
          | none => .raise .type
          | some row => pure ({ row } : AdminTaskDetail)) w := by
        intro taskId detail w
        refine (auditTask_abides rfl).bind fun _ _ => Abides.bind (p := reconnect) trivial fun _ w => ?_
        rw [Abides, Prog.wp_bind, Prog.wp_query]
        cases w.tasks.get? taskId <;> trivial
      have alerted : ∀ taskId detail w, Abides (.createTask payload ctx) start (do
          createReviewAlert taskId payload.type payload.nodeId (utcNowIso ctx.now)
            ("任务 " ++ taskId ++ " 需要人工审核") ctx.now
          auditTask ctx.admin "create_task" taskId detail (utcNowIso ctx.now)
          reconnect
          let row ← Prog.query fun db => db.tasks.get? taskId
          match row with
          | none => .raise .type
          | some row => pure ({ row } : AdminTaskDetail)) w := fun taskId detail w =>
        Abides.bind (p := createReviewAlert ..) ⟨trivial, trivial⟩ fun _ w =>
          readBack taskId detail w
      split
      · split
        · exact alerted _ _ _
        · exact readBack _ _ _
      · refine Abides.bind (p := insertReviewAudit ..) ⟨trivial, trivial⟩ fun _ w => ?_
        split
        · exact alerted _ _ w
        · exact readBack _ _ w

/-- What the synchronisation of the reported task leaves when it finds no task of the node. -/
theorem syncReportedActiveTask_wp {nodeId : String} {payload : HeartbeatRequest} {now : Nat}
    {db : Db} (hdb : db.tasks = start.tasks)
    (henabled : (start.nodes.get? nodeId).any Node.isEnabled = true) :
    (syncReportedActiveTask nodeId payload.activeTaskId (utcNowIso now)).wp
      (Permitted (.heartbeat nodeId payload now) start) (fun _ _ => True)
      (fun r w => r = none → w.tasks = start.tasks) db := by
  unfold syncReportedActiveTask
  split
  · exact fun _ => hdb
  · rename_i taskId htask
    split
    · exact fun _ => hdb
    · rename_i hne
      rw [Prog.wp_bind, Prog.wp_query]
      cases hrow : (db.tasks.get? taskId).filter fun row => row.nodeId = nodeId with
      | none => exact fun _ => hdb
      | some row =>
          obtain ⟨hget, hnode⟩ := Option.filter_eq_some_iff.mp hrow
          have hnode : row.nodeId = nodeId := by simpa using hnode
          simp only
          split
          · rename_i hpending
            rw [hdb] at hget
            refine ⟨⟨⟨rfl, row, payload, now, ?_, ?_, htask, hne, hget, hpending⟩, Or.inl hdb⟩, ?_⟩
            · rw [hnode]
            · rwa [hnode]
            -- The row that was found is still there, so the second read finds it too.
            · intro hnone
              rw [← hdb] at hget
              simp [TaskStmt.get?_setReported _ hget, TaskStmt.edit, hnode] at hnone
          · exact nofun

/-- What a response delivers was pending. -/
def Delivers (start : Db) (reply : Option HeartbeatResponse) : Prop :=
  ∀ r ∈ reply, ∀ env ∈ r.tasks, ∃ row ∈ start.tasks.rows, row.status = .pending ∧
    row.envelope = env

theorem heartbeat_wp (keep : Nat) (nodeId : String) (node : Node) (payload : HeartbeatRequest)
    (now : Nat) (henabled : (start.nodes.get? nodeId).any Node.isEnabled = true) :
    (heartbeat keep nodeId node payload now).wp
      (Permitted (.heartbeat nodeId payload now) start) (fun _ _ => True)
      (fun r _ => ∀ env ∈ r.tasks, ∃ row ∈ start.tasks.rows, row.status = .pending ∧
        row.envelope = env) start := by
  simp only [heartbeat, Prog.execute_bind, Prog.wp_write]
  refine ⟨trivial, ⟨rfl, payload.interval_ge, payload.interval_le⟩,
    ⟨nodeId, payload, now, rfl, rfl⟩, ?_⟩
  rw [Prog.wp_bind]
  refine Prog.wp_imp (syncReportedActiveTask_wp rfl henabled) fun r w hw => ?_
  -- After the claim nothing changes `tasks`, and the response repeats what was claimed.
  have respond : ∀ (claimed : Option Task) (w : Db),
      (∀ row ∈ claimed, ∃ old ∈ start.tasks.rows, old.status = .pending ∧
        old.envelope = row.envelope) →
      (do
        let taskControls ← Prog.query fun db => cancelControls db nodeId
        reconnect
        Prog.execute (.snapshot (.trim nodeId keep))
        reconnect
        let refreshFingerprint ← takeFingerprintRefresh nodeId
        pure ({ serverTime := utcNowIso now
                nodeId
                tasks := (claimed.map Task.envelope).toList
                taskControls
                refreshFingerprint } : HeartbeatResponse) : Tx HeartbeatResponse).wp
        (Permitted (.heartbeat nodeId payload now) start) (fun _ _ => True)
        (fun r _ => ∀ env ∈ r.tasks, ∃ row ∈ start.tasks.rows, row.status = .pending ∧
          row.envelope = env) w := by
    intro claimed w hclaimed
    refine ⟨⟨payload, now, rfl⟩, fun _ env henv => ?_⟩
    obtain ⟨row, hrow, rfl⟩ := Option.map_eq_some_iff.mp (Option.mem_toList.mp henv)
    exact hclaimed row hrow
  cases r with
  | some row => exact respond none w fun row hrow => absurd hrow (Option.not_mem_none row)
  | none =>
      have hw := hw rfl
      simp only [claimNextTaskForNode, Prog.executeReturning_bind, Prog.wp_write]
      refine ⟨⟨rfl, Or.inl hw⟩, ?_⟩
      refine respond _ _ fun row hrow => ?_
      obtain ⟨old, hold, rfl⟩ := Option.map_eq_some_iff.mp hrow
      obtain ⟨hmem, hsel⟩ := List.mem_filter.mp (List.mem_of_mem_head? hold)
      rw [hw] at hmem
      simp only [TaskStmt.selects, Bool.and_eq_true, decide_eq_true_eq] at hsel
      exact ⟨old, hmem, hsel.2, rfl⟩

/-- A request of a node goes on with the row of the enabled node. -/
theorem asNode_wp {α : Type} {P : Dml → Db → Prop} {exn : Exc → Db → Prop} {post : α → Db → Prop}
    {nodeId : String} {body : Node → Tx α} (hexn : ∀ e, exn e start)
    (hbody : (start.nodes.get? nodeId).any Node.isEnabled = true →
      ∀ node, (body node).wp P exn post start) :
    (asNode nodeId body).wp P exn post start := by
  rw [asNode, Prog.wp_bind, Prog.wp_query]
  cases hnode : (start.nodes.get? nodeId).filter Node.isEnabled with
  | none => exact hexn _
  | some node =>
      obtain ⟨hget, henabled⟩ := Option.filter_eq_some_iff.mp hnode
      refine hbody ?_ node
      rw [hget]
      exact henabled

theorem Abides.silently {op : SystemOp} {α : Type} {p : Tx α} {db : Db}
    (hp : Abides op start p db) :
    (silently p).wp (Permitted op start) (fun _ _ => True) (fun reply _ => Delivers start reply)
      db := by
  rw [GpuFleet.silently, Prog.wp_bind]
  exact Prog.wp_imp hp fun _ _ _ => nofun

/-- An operation executes only what it is permitted to, and delivers what was pending. -/
theorem SystemOp.code_wp (settings : Settings) (crypto : Crypto) (op : SystemOp) :
    (op.code settings crypto).wp (Permitted op start) (fun _ _ => True)
      (fun reply _ => Delivers start reply) start := by
  cases op with
  | createNode payload secret admin now =>
      exact (createNode_abides crypto payload secret admin now).silently
  | updateNode nodeId payload admin now =>
      exact (updateNode_abides nodeId payload admin now).silently
  | setNodeEnabled nodeId enabled admin now =>
      exact (setNodeEnabled_abides nodeId enabled admin now).silently
  | resetSecret nodeId secret admin now =>
      exact Abides.silently (renewSecret_abides crypto "reset_node_secret" nodeId secret admin)
  | regenerateOnboarding nodeId secret admin now =>
      exact Abides.silently
        (renewSecret_abides crypto "regenerate_node_onboarding" nodeId secret admin)
  | createTask payload ctx => exact (createTask_abides payload ctx).silently
  | cancel taskId admin now => exact (cancelTask_abides taskId admin now).silently
  | escalate taskId note admin now => exact (escalateReview_abides taskId note admin now).silently
  | approve taskId note admin now => exact (approveReview_abides taskId note admin now).silently
  | reject taskId note admin now => exact (rejectReview_abides taskId note admin now).silently
  | heartbeat nodeId payload now =>
      refine asNode_wp (fun _ => trivial) fun henabled node => ?_
      rw [Prog.wp_bind]
      refine Prog.wp_imp (heartbeat_wp _ nodeId node payload now henabled) fun r _ hr => ?_
      intro r' hr'
      cases hr'
      exact hr
  | event nodeId payload now =>
      exact asNode_wp (fun _ => trivial) fun _ _ => (taskEvents_abides nodeId payload now).silently
  | result nodeId payload now =>
      exact asNode_wp (fun _ => trivial) fun _ _ => (taskResult_abides nodeId payload now).silently
  | markLost now => exact (markLostTasks_abides now).silently
  | expireReviews now => exact (expireReviewingTasks_abides now).silently

/-- A property of databases that all statements permitted to an operation keep is kept by
its step. -/
theorem Step.Runs.keeps {settings : Settings} {crypto : Crypto} {s : Step} {x : World}
    {I : Db → Prop} (h : s.Runs settings crypto x)
    (hI : ∀ q w, Permitted s.op s.before q w → I w → I (Statement.apply q w)) (hs : I s.before) :
    I s.after := by
  rw [h.after]
  exact Prog.wp.dbAfter x (s.op.code_wp settings crypto) hI hs

/-- A step delivers what was pending before it. -/
theorem Step.Runs.delivers {settings : Settings} {crypto : Crypto} {s : Step} {x : World}
    {reply : Option HeartbeatResponse} (h : s.Runs settings crypto x) (hr : s.reply = .ok reply) :
    Delivers s.before reply := by
  rw [h.reply] at hr
  exact Prog.wp.ok x (s.op.code_wp settings crypto) hr

end Operations

end GpuFleet
