import GpuFleet.Foundations.Desk
import GpuFleet.Server.Issued
import Mathlib.Data.Prod.Lex
import Mathlib.Order.Lattice

/-!
# The queue of tasks

What the server is to its nodes: a desk that hands out tasks.  A task under
review is held back, a pending one waits, and every other one is gone.  It
belongs to its node, its rank is its creation, and what is handed out is its
envelope.

`steps_run` says that a run of the server is a run of the desk, which hands out
what the heartbeats are answered.  So a run hands out the tasks of a node in
the order they were created, as far as they wait (`handed_in_order`), and every
task with what was asked for when it was created (`handed_as_asked`).

No update puts a task back into the queue, whatever was read before it: the
statuses that events and the scanner set are those of tasks that are gone
(`Dml.isOnward`).
-/

namespace GpuFleet

open Foundations

/-! ## The desk -/

/-- The place of a task on the desk. -/
def TaskStatus.place : TaskStatus → Place
  | .reviewing => .held
  | .pending => .waiting
  | _ => .gone

/-- A task on the desk: `ORDER BY created_at ASC, id ASC` ranks it. -/
def Task.item (row : Task) : Item String (String ×ₗ Nat) TaskEnvelope where
  owner := row.nodeId
  rank := toLex (row.createdAt, row.id)
  content := row.envelope
  place := row.status.place

/-- The tasks of the database on the desk. -/
def deskOf (db : Db) : Desk String String (String ×ₗ Nat) TaskEnvelope := fun taskId =>
  (db.tasks.get? taskId).map Task.item

/-- The tasks in the answer to a heartbeat. -/
def HeartbeatResponse.handed (r : HeartbeatResponse) : List (Hand String String TaskEnvelope) :=
  r.tasks.map fun env => ⟨r.nodeId, env.taskId, env⟩

/-- The tasks in the answer of an operation. -/
def handedIn (reply : Option HeartbeatResponse) : List (Hand String String TaskEnvelope) :=
  (reply.map HeartbeatResponse.handed).getD []

@[simp] theorem handedIn_none : handedIn none = [] := rfl

/-! ## Statements -/

/-- The statement gives no task a status of the queue that had left it. -/
def Dml.isOnward : Dml → Bool
  | .task (.setEvent _ status ..) | .task (.setBackground _ status _) => status.place = .gone
  | _ => true

/-- A task that is selected moves onward. -/
theorem TaskStmt.edit_item {q : TaskStmt} {tasks : Table Task} {row : Task}
    (hq : (Dml.task q).isOnward = true) (hsel : q.selects tasks row = true) :
    row.item.Moves (q.edit row).item := by
  cases q with
  | insert new => exact .refl _
  | setEvent _ status | setBackground _ status =>
      have hgone : status.place = .gone := by simpa [Dml.isOnward] using hq
      exact .of_gone rfl rfl rfl hgone
  | setCancelled | setCancelRequested | setRejected | setReviewExpired | claimNext | setReported =>
      exact .of_gone rfl rfl rfl rfl
  | setResult _ status => exact .of_gone rfl rfl rfl (by cases status <;> rfl)
  | setEscalated => exact ⟨rfl, rfl, Nat.le_refl _, fun _ => rfl⟩
  | setApproved =>
      have hreviewing : row.status = .reviewing := by
        simp only [selects, Bool.and_eq_true, decide_eq_true_eq] at hsel
        exact hsel.2
      have hheld : row.item.place = .held := by simp [Task.item, hreviewing, TaskStatus.place]
      refine ⟨rfl, rfl, ?_, fun hplace => absurd hheld hplace⟩
      rw [hheld]
      exact Nat.zero_le _

/-- A statement moves the desk onward. -/
theorem desk_moves {q : Dml} (hq : q.isOnward = true) (db : Db) :
    (deskOf db).Moves (deskOf (Statement.apply q db)) := by
  cases q with
  | task t =>
      intro taskId item hitem
      obtain ⟨row, hrow, rfl⟩ := Option.map_eq_some_iff.mp hitem
      by_cases hins : ∃ new, t = .insert new
      · obtain ⟨new, rfl⟩ := hins
        refine ⟨row.item, ?_, .refl _⟩
        rw [deskOf, apply_tasks_task, TaskStmt.get?_insert_of_some hrow, Option.map_some]
      · refine ⟨_, by rw [deskOf, apply_tasks_task, TaskStmt.get?_apply fun new e => hins ⟨new, e⟩,
          hrow, Option.map_some, Option.map_some], ?_⟩
        split
        · exact TaskStmt.edit_item hq ‹_›
        · exact .refl _
  | _ => exact .refl _

/-- The claim hands out the task it selects. -/
theorem claimNext_handed {nodeId claimedAt : String} {db : Db} {row : Task}
    (hrow : row ∈ db.tasks.rows)
    (hsel : (TaskStmt.claimNext nodeId claimedAt).selects db.tasks row = true) :
    (deskOf db).Handed ⟨nodeId, row.taskId, row.envelope⟩
      (deskOf (Statement.apply (Dml.task (.claimNext nodeId claimedAt)) db)) := by
  have hfound : db.tasks.get? row.taskId = some row := Table.get?_of_mem hrow
  have hpending : row.status = .pending := by
    simp only [TaskStmt.selects, Bool.and_eq_true, decide_eq_true_eq] at hsel
    exact hsel.2
  obtain ⟨hnext, hnode⟩ := TaskStmt.selects_claimNext hrow hsel
  refine ⟨⟨row.item, by rw [deskOf, hfound, Option.map_some], ?_, hnode, rfl, ?_⟩, ?_⟩
  · rw [Task.item, hpending]
    rfl
  · -- The subquery takes the first of the node's pending tasks.
    intro taskId item hitem hwaiting howner
    obtain ⟨other, hother, rfl⟩ := Option.map_eq_some_iff.mp hitem
    have hother_pending : other.status = .pending := by
      cases hstatus : other.status <;> simp [Task.item, hstatus, TaskStatus.place] at hwaiting
      rfl
    unfold nextPending at hnext
    split at hnext
    · cases hnext
    · refine firstBy_minimal (fun t : Task => toLex (t.createdAt, t.id)) ?_ hnext other ?_
      · intro a b
        simp [Prod.Lex.toLex_lt_toLex]
      · refine List.mem_filter.mpr ⟨Table.get?_mem hother, ?_⟩
        have howner : other.nodeId = nodeId := howner
        simp [howner, hother_pending]
  · refine ⟨((TaskStmt.claimNext nodeId claimedAt).edit row).item, ?_, rfl⟩
    rw [deskOf, apply_tasks_task, TaskStmt.get?_apply_selected (by intro _ h; cases h) hfound hsel]
    rfl

/-! ## Operations -/

section Onward

variable {settings : Settings} {crypto : Crypto}

theorem transitionTask_onward (taskId : String) (event : TransitionEvent) (args : TransitionArgs) :
    Executes (fun q => q.isOnward = true) (transitionTask taskId event args) := by
  refine (getTaskRow_executes taskId).bind fun row => ?_
  cases event with
  | node e =>
      simp only [applyNodeEvent]
      split
      · trivial
      · exact update_executes taskId (by cases e <;> rfl)
  | cancel =>
      simp only [applyCancel]
      split
      · trivial
      · split
        · exact update_executes taskId rfl
        · split
          · exact update_executes taskId rfl
          · trivial
  | reviewEscalate =>
      simp only
      split
      · trivial
      · split
        · trivial
        · exact update_executes taskId rfl
  | reviewApprove | reviewReject | reviewExpire =>
      simp only
      split
      · trivial
      · exact update_executes taskId rfl
  | backgroundTimeout | backgroundLost => exact update_executes taskId rfl

theorem taskEvents_onward (nodeId : String) (payload : NodeTaskEventRequest) (now : Nat) :
    Executes (fun q => q.isOnward = true) (taskEvents nodeId payload now) :=
  (loadTaskForNode_executes nodeId payload.taskId).bind fun _ =>
    (transitionTask_onward payload.taskId (.node payload.event) _).catch.bind fun _ =>
      (upsertTaskAttempt_executes _ _ _ _ fun _ => rfl).bind fun _ => trivial

theorem giveUp_onward (task : ActiveTask) (event : TransitionEvent) (action : String) (detail : Json)
    (webhook : String) (payload : Json) (nowIso : String) :
    Executes (fun q => q.isOnward = true)
      (giveUp task event action detail webhook payload nowIso) := by
  refine (transitionTask_onward task.taskId event _).bind fun _ => ?_
  exact Executes.bind (executes_execute rfl) fun _ => executes_emitEvent

theorem scanTask_onward (now : Nat) (nowIso : String) (task : ActiveTask) :
    Executes (fun q => q.isOnward = true) (scanTask now nowIso task) := by
  refine (overdue_executes task now).bind fun reason => ?_
  cases reason with
  | none => trivial
  | some reason =>
      cases reason with
      | timeout => exact giveUp_onward task .backgroundTimeout _ _ _ _ _
      | cancelAck | unresponsive | neverSeen => exact giveUp_onward task .backgroundLost _ _ _ _ _

theorem taskResult_onward (nodeId : String) (payload : NodeTaskResultRequest) (now : Nat) :
    Executes (fun q => q.isOnward = true) (taskResult nodeId payload now) := by
  refine (taskResult_executes nodeId payload now).mono fun q hq => ?_
  cases q with
  | task q =>
      obtain ⟨_, _, _, _, rfl⟩ := hq
      rfl
  | _ => rfl

/-- The statements of every operation move the desk onward, whatever it reads. -/
theorem SystemOp.code_onward (op : SystemOp) :
    Executes (fun q => q.isOnward = true) (op.code settings crypto) := by
  have issued : (∀ q, op.IssuesTask q → (Dml.task q).isOnward = true) →
      Executes (fun q => q.isOnward = true) (op.code settings crypto) := by
    intro h
    refine (op.code_executes settings crypto).mono fun q hq => ?_
    cases q with
    | task q => exact h q hq
    | _ => rfl
  cases op with
  | event nodeId payload now =>
      exact asNode_executes fun _ => (taskEvents_onward nodeId payload now).silently
  | result nodeId payload now =>
      exact asNode_executes fun _ => (taskResult_onward nodeId payload now).silently
  | markLost now =>
      exact Executes.silently (executes_query.bind fun _ =>
        Executes.forEach fun task => scanTask_onward now _ task)
  | createNode | updateNode | setNodeEnabled | resetSecret | regenerateOnboarding =>
      exact issued fun q hq => hq.elim
  | createTask =>
      refine issued fun q hq => ?_
      obtain ⟨row, rfl⟩ := hq
      rfl
  | cancel =>
      refine issued fun q hq => ?_
      rcases hq with ⟨_, rfl⟩ | rfl <;> rfl
  | escalate | reject =>
      refine issued fun q hq => ?_
      cases hq
      rfl
  | approve | expireReviews =>
      refine issued fun q hq => ?_
      obtain ⟨_, rfl⟩ := hq
      rfl
  | heartbeat =>
      refine issued fun q hq => ?_
      rcases hq with rfl | ⟨_, rfl⟩ <;> rfl

/-- Statements that move the desk onward move it onward as a program. -/
theorem onward_wp {α : Type} {p : Tx α} (hp : Executes (fun q => q.isOnward = true) p)
    {d : Desk String String (String ×ₗ Nat) TaskEnvelope} {db : Db} (hd : d.Moves (deskOf db)) :
    p.wp (fun q _ => q.isOnward = true) (fun _ _ => True) (fun _ w => d.Moves (deskOf w)) db := by
  have hwp := Prog.Avoids.wp hp (fun q _ hq => Classical.not_not.mp hq) db
  have hinv := Prog.wp_inv (I := fun w => d.Moves (deskOf w)) hwp
    (fun q w hq hw => hw.trans (desk_moves hq w)) hd
  exact Prog.wp_mono hinv (fun _ _ => id) (fun _ _ _ => trivial) fun _ _ h => h.2

theorem syncReportedActiveTask_onward (nodeId : String) (activeTaskId : Option String)
    (claimedAt : String) : Executes (fun q => q.isOnward = true)
      (syncReportedActiveTask nodeId activeTaskId claimedAt) := by
  unfold syncReportedActiveTask
  split
  · trivial
  · split
    · trivial
    · refine executes_query.bind fun row => ?_
      cases row with
      | none => trivial
      | some row =>
          simp only
          split
          · exact Executes.bind (executes_execute rfl) fun _ => executes_query
          · trivial

/-- A heartbeat hands out at most one task, the first of its node's that wait. -/
theorem heartbeat_run (keep : Nat) (nodeId : String) (node : Node) (payload : HeartbeatRequest)
    (now : Nat) (start : Db) :
    (heartbeat keep nodeId node payload now).wp (fun q _ => q.isOnward = true) (fun _ _ => True)
      (fun r w => (deskOf start).Run (handedIn (some r)) (deskOf w)) start := by
  simp only [heartbeat, Prog.execute_bind, Prog.wp_write]
  refine ⟨rfl, rfl, rfl, ?_⟩
  rw [Prog.wp_bind]
  refine Prog.wp_imp (onward_wp (syncReportedActiveTask_onward ..) (.refl (deskOf start)))
    fun r w hw => ?_
  have respond : ∀ (claimed : Option Task) (w : Db), (deskOf start).Run
      ((claimed.map Task.envelope).toList.map fun env => ⟨nodeId, env.taskId, env⟩) (deskOf w) →
      (do
        let taskControls ← Prog.query fun db => cancelControls db nodeId
        reconnect
        Prog.execute (.snapshot (.trim nodeId keep))
        reconnect
        let refreshFingerprint ← takeFingerprintRefresh nodeId
        pure ({ serverTime := utcNowIso now
                nodeId
                tasks := (claimed.map Task.envelope).toList
                taskControls
                refreshFingerprint } : HeartbeatResponse) : Tx HeartbeatResponse).wp
        (fun q _ => q.isOnward = true) (fun _ _ => True)
        (fun r w => (deskOf start).Run (handedIn (some r)) (deskOf w)) w :=
    fun claimed w hrun => ⟨rfl, fun _ => hrun⟩
  cases r with
  | some row => exact respond none w (.of_moves hw)
  | none =>
      simp only [claimNextTaskForNode, Prog.executeReturning_bind, Prog.wp_write]
      refine ⟨rfl, respond _ _ ?_⟩
      have hmoves := desk_moves (q := .task (.claimNext nodeId (utcNowIso now))) rfl w
      cases hhead : (w.tasks.select
          ((TaskStmt.claimNext nodeId (utcNowIso now)).selects w.tasks)).head? with
      | none => exact .of_moves (hw.trans hmoves)
      | some row =>
          obtain ⟨hrow, hsel⟩ := List.mem_filter.mp (List.mem_of_mem_head? hhead)
          have hhanded := claimNext_handed hrow hsel
          exact .quiet hw (.of_handed hmoves hhanded)

/-- An operation without an answer to a heartbeat hands out nothing. -/
theorem silently_run {α : Type} {p : Tx α} (hp : Executes (fun q => q.isOnward = true) p)
    (start : Db) : (silently p).wp (fun q _ => q.isOnward = true) (fun _ _ => True)
      (fun reply w => (deskOf start).Run (handedIn reply) (deskOf w)) start := by
  rw [silently, Prog.wp_bind]
  exact Prog.wp_imp (onward_wp hp (.refl _)) fun _ w hw => .of_moves hw

/-- An operation runs the desk, and its answer is what the desk hands out. -/
theorem SystemOp.code_run (op : SystemOp) (start : Db) :
    (op.code settings crypto).wp (fun q _ => q.isOnward = true) (fun _ _ => True)
      (fun reply w => (deskOf start).Run (handedIn reply) (deskOf w)) start := by
  have ofCode : ∀ {α : Type} {p : Tx α}, op.code settings crypto = silently p →
      (op.code settings crypto).wp (fun q _ => q.isOnward = true) (fun _ _ => True)
        (fun reply w => (deskOf start).Run (handedIn reply) (deskOf w)) start := by
    intro α p hcode
    have honward : Executes (fun q => q.isOnward = true) (op.code settings crypto) :=
      op.code_onward
    rw [hcode] at honward ⊢
    exact silently_run (Prog.Avoids.of_bind_ret honward) start
  cases op with
  | heartbeat nodeId payload now =>
      refine asNode_wp (fun _ => trivial) fun _ node => ?_
      rw [Prog.wp_bind]
      exact heartbeat_run _ nodeId node payload now start
  | event nodeId payload now =>
      exact asNode_wp (fun _ => trivial) fun _ _ => silently_run (taskEvents_onward nodeId payload now) start
  | result nodeId payload now =>
      exact asNode_wp (fun _ => trivial) fun _ _ => silently_run (taskResult_onward nodeId payload now) start
  | _ => exact ofCode rfl

end Onward

/-! ## Runs -/

/-- What a step hands out. -/
def Step.handed (s : Step) : List (Hand String String TaskEnvelope) :=
  match s.reply with
  | .ok reply => handedIn reply
  | .error _ => []

section Runs

variable {settings : Settings} {crypto : Crypto}

theorem Step.Runs.desk {s : Step} {x : World} (h : s.Runs settings crypto x) :
    (deskOf s.before).Run s.handed (deskOf s.after) := by
  rw [handed, h.after]
  cases hreply : s.reply with
  | ok reply => exact (s.op.code_run s.before).ok x (h.reply.symm.trans hreply)
  | error e =>
      refine .of_moves (Prog.wp.dbAfter (I := fun w => (deskOf s.before).Moves (deskOf w)) x
        (s.op.code_run s.before) ?_ (.refl _))
      exact fun q w hq hw => hw.trans (desk_moves hq w)

variable (settings crypto) in
/-- What a run hands out, first to last. -/
def handedOut (db : Db) (x : World) (ops : List SystemOp) : List (Hand String String TaskEnvelope) :=
  (steps settings crypto db x ops).flatMap Step.handed

/-- A run of the server is a run of the desk. -/
theorem steps_run (db : Db) (x : World) (ops : List SystemOp) :
    (deskOf db).Run (handedOut settings crypto db x ops)
      (deskOf (finish settings crypto db x ops).1) := by
  induction ops generalizing db x with
  | nil => exact .nil _
  | cons op ops ih =>
      have hstep : (op.step settings crypto db x).Runs settings crypto x := op.step_runs db x
      exact hstep.desk.append (ih _ _)

/-- A run of the server runs the desk and hands out no task twice. -/
theorem server_runs_desk (db : Db) (x : World) (ops : List SystemOp) :
    (deskOf db).Run (handedOut settings crypto db x ops)
        (deskOf (finish settings crypto db x ops).1) ∧
      ((handedOut settings crypto db x ops).map Hand.name).Nodup := by
  have hrun : (deskOf db).Run (handedOut settings crypto db x ops)
      (deskOf (finish settings crypto db x ops).1) := steps_run db x ops
  exact ⟨hrun, hrun.nodup⟩

/-- After a task is handed out, no older task of its node is that was pending, and that one is
in the queue no more. -/
theorem handed_in_order {db : Db} {x : World} {ops : List SystemOp} {a b : Task}
    (ha : a ∈ db.tasks.rows) (hb : b ∈ db.tasks.rows) (hnode : a.nodeId = b.nodeId)
    (hpending : a.status = .pending)
    (holder : a.createdAt < b.createdAt ∨ a.createdAt = b.createdAt ∧ a.id < b.id)
    {l l' : List (Hand String String TaskEnvelope)} {x' : Hand String String TaskEnvelope}
    (hx : x'.name = b.taskId) (h : handedOut settings crypto db x ops = l ++ x' :: l') :
    a.taskId ∉ l'.map Hand.name ∧
      ∃ row, (finish settings crypto db x ops).1.tasks.get? a.taskId = some row ∧
        row.status ≠ .pending ∧ row.status ≠ .reviewing := by
  have hrun : (deskOf db).Run (handedOut settings crypto db x ops)
      (deskOf (finish settings crypto db x ops).1) := steps_run db x ops
  have found : ∀ {row : Task}, row ∈ db.tasks.rows → deskOf db row.taskId = some row.item := by
    intro row hrow
    have hget : db.tasks.get? row.taskId = some row := Table.get?_of_mem hrow
    rw [deskOf, hget, Option.map_some]
  rw [h] at hrun
  have hrank : a.item.rank < b.item.rank := Prod.Lex.toLex_lt_toLex.mpr holder
  have howner : a.item.owner = b.item.owner := hnode
  have hheld : a.item.place ≠ .held := by simp [Task.item, hpending, TaskStatus.place]
  obtain ⟨hnot, item, hitem, hgone⟩ :=
    hrun.in_order (found ha) (hx ▸ found hb) howner hrank hheld
  obtain ⟨row, hrow, rfl⟩ := Option.map_eq_some_iff.mp hitem
  refine ⟨hnot, row, hrow, fun hstatus => ?_, fun hstatus => ?_⟩
  · simp [Task.item, hstatus, TaskStatus.place] at hgone
  · simp [Task.item, hstatus, TaskStatus.place] at hgone

end Runs

/-- A node with two pending tasks. -/
def twoPending : Db :=
  let admin : Admin := ⟨1, "admin"⟩
  let create := fun (taskId : String) =>
    SystemOp.createTask { nodeId := "n", type := .healthCheck, taskId := some taskId }
      { admin, review := none, freshTaskId := "", freshKey := "", now := 0, reviewedAt := 0 }
  (finish {} plainCrypto {} {}
    [.createNode { nodeId := "n", displayName := "n" } ⟨"secret", "", ""⟩ admin 0,
      create "t1", create "t2"]).1

/-- The node takes the first task, finishes it and takes the second. -/
def takeBoth : List SystemOp :=
  [.heartbeat "n" { bootId := "b" } 0, .result "n" { taskId := "t1", finalStatus := .succeeded } 0,
    .heartbeat "n" { bootId := "b" } 0]

/-- When the second task is handed out, the first has been. -/
theorem handed_in_order_takeBoth :
    ∃ l x l', handedOut {} plainCrypto twoPending {} takeBoth = l ++ x :: l' ∧ x.name = "t2" ∧
      "t1" ∉ l'.map Hand.name ∧ ∃ row,
        (finish {} plainCrypto twoPending {} takeBoth).1.tasks.get? "t1" = some row ∧
        row.status ≠ .pending ∧ row.status ≠ .reviewing := by
  have hhanded : "t2" ∈ (handedOut {} plainCrypto twoPending {} takeBoth).map Hand.name := by
    decide +kernel
  obtain ⟨x, hx, hname⟩ := List.mem_map.mp hhanded
  obtain ⟨l, l', hsplit⟩ := List.append_of_mem hx
  have hrows : ((twoPending.tasks.get? "t1").any fun a => (twoPending.tasks.get? "t2").any fun b =>
      a.nodeId = b.nodeId && a.status = .pending && a.createdAt = b.createdAt && a.id < b.id) =
        true := by
    decide +kernel
  obtain ⟨a, ha, hrest⟩ := (Option.any_eq_true ..).mp hrows
  obtain ⟨b, hb, hrest⟩ := (Option.any_eq_true ..).mp hrest
  simp only [Bool.and_eq_true, decide_eq_true_eq] at hrest
  obtain ⟨⟨⟨hnode, hpending⟩, hcreated⟩, hid⟩ := hrest
  have hta : a.taskId = "t1" := Table.get?_key ha
  have htb : b.taskId = "t2" := Table.get?_key hb
  obtain ⟨hnot, hgone⟩ := handed_in_order (Table.get?_mem ha) (Table.get?_mem hb) hnode hpending
    (Or.inr ⟨hcreated, hid⟩) (hname.trans htb.symm) hsplit
  rw [hta] at hnot hgone
  exact ⟨l, x, l', hsplit, hname, hnot, hgone⟩

/-! ## What was asked for -/

/-- The envelope a request asks for; a review may change the danger level. -/
def AdminTaskCreateRequest.asks (payload : AdminTaskCreateRequest) (ctx : CreateContext)
    (dangerLevel : String) : TaskEnvelope where
  taskId := orElse payload.taskId ctx.freshTaskId
  revision := payload.revision
  idempotencyKey := orElse payload.idempotencyKey ctx.freshKey
  type := payload.type
  payload := payload.payload
  workdir := payload.workdir
  env := payload.env
  requestedGpuIds := payload.requestedGpuIds
  timeoutSec := normalizeTimeout payload.type payload.timeoutSec
  killGraceSec := payload.killGraceSec
  dangerLevel

/-- The row is of a task that one of the operations asked for, for its node. -/
def Task.AskedIn (row : Task) (ops : List SystemOp) : Prop :=
  ∃ payload ctx, SystemOp.createTask payload ctx ∈ ops ∧ row.nodeId = payload.nodeId ∧
    row.envelope = payload.asks ctx row.dangerLevel

/-- Every task is one that the operations asked for. -/
def AllAsked (ops : List SystemOp) (db : Db) : Prop := ∀ row ∈ db.tasks.rows, row.AskedIn ops

/-- Only the danger level of an envelope changes. -/
theorem TaskStmt.edit_askedIn {ops : List SystemOp} {row : Task} (h : row.AskedIn ops)
    (q : TaskStmt) : (q.edit row).AskedIn ops := by
  obtain ⟨payload, ctx, hop, hnode, henvelope⟩ := h
  refine ⟨payload, ctx, hop, (q.edit_frame row).2.2.1.trans hnode, ?_⟩
  cases q with
  | setApproved taskId dangerLevel adminId nowIso =>
      show { row.envelope with dangerLevel } = _
      rw [henvelope]
      rfl
  | _ => exact henvelope

/-- The statement inserts no task but those the operations ask for. -/
def InsertsAsked (ops : List SystemOp) : Dml → Prop
  | .task (.insert row) => ∀ id, (row.inserted id).AskedIn ops
  | _ => True

theorem AllAsked.apply {ops : List SystemOp} {q : Dml} (hq : InsertsAsked ops q) {db : Db}
    (h : AllAsked ops db) : AllAsked ops (Statement.apply q db) := by
  cases q with
  | task q =>
      intro row hrow
      rcases TaskStmt.mem_apply_cases hrow with ⟨old, hold, rfl⟩ | ⟨old, hold, -, rfl⟩ | ⟨new, rfl, rfl⟩
      · exact h _ hold
      · exact q.edit_askedIn (h old hold)
      · exact hq _
  | _ => exact h

theorem createTask_asked {ops : List SystemOp} {payload : AdminTaskCreateRequest}
    {ctx : CreateContext} (hop : SystemOp.createTask payload ctx ∈ ops) :
    Executes (InsertsAsked ops) (createTask payload ctx) := by
  have created : ∀ (taskId : String) (detail : Json) (k : Option Task → Tx AdminTaskDetail),
      (∀ row, Executes (InsertsAsked ops) (k row)) → Executes (InsertsAsked ops) (do
        auditTask ctx.admin "create_task" taskId detail (utcNowIso ctx.now)
        reconnect
        let row ← Prog.query fun db => db.tasks.get? taskId
        k row) :=
    fun _ _ _ hk => Executes.bind (executes_execute trivial) fun _ => executes_reconnect.bind
      fun _ => executes_query.bind hk
  refine (checkTarget_executes payload).bind fun _ => executes_query.bind fun existing => ?_
  split
  · trivial
  · refine (executes_executeReturning fun _ => ⟨payload, ctx, hop, rfl, rfl⟩).bind fun conflict => ?_
    split
    · trivial
    · simp only
      split
      · split
        · exact Executes.bind (p := createReviewAlert ..) (executes_execute trivial) fun _ =>
            created _ _ _ fun row => by cases row <;> trivial
        · exact created _ _ _ fun row => by cases row <;> trivial
      · refine Executes.bind (p := insertReviewAudit ..) (executes_execute trivial) fun _ => ?_
        split
        · exact Executes.bind (p := createReviewAlert ..) (executes_execute trivial) fun _ =>
            created _ _ _ fun row => by cases row <;> trivial
        · exact created _ _ _ fun row => by cases row <;> trivial

section Asked

variable {settings : Settings} {crypto : Crypto}

/-- What the statements of an operation keep, its step keeps. -/
theorem Step.Runs.keeps_executed {s : Step} {x : World} {allowed : Dml → Prop} {I : Db → Prop}
    (h : s.Runs settings crypto x) (hp : Executes allowed (s.op.code settings crypto))
    (hI : ∀ q w, allowed q → I w → I (Statement.apply q w)) (hs : I s.before) : I s.after := by
  rw [h.after]
  have hwp := Prog.Avoids.wp hp (fun q _ hq => Classical.not_not.mp hq) s.before
  exact Prog.wp.dbAfter x hwp hI hs

theorem SystemOp.code_asked {ops : List SystemOp} {op : SystemOp} (hop : op ∈ ops) :
    Executes (InsertsAsked ops) (op.code settings crypto) := by
  have issued : (∀ q, op.IssuesTask q → InsertsAsked ops (.task q)) →
      Executes (InsertsAsked ops) (op.code settings crypto) := by
    intro h
    refine (op.code_executes settings crypto).mono fun q hq => ?_
    cases q with
    | task q => exact h q hq
    | _ => trivial
  cases op with
  | createTask payload ctx => exact (createTask_asked hop).silently
  | createNode | updateNode | setNodeEnabled | resetSecret | regenerateOnboarding =>
      exact issued fun q hq => hq.elim
  | cancel =>
      refine issued fun q hq => ?_
      rcases hq with ⟨_, rfl⟩ | rfl <;> trivial
  | escalate | reject =>
      refine issued fun q hq => ?_
      cases hq
      trivial
  | approve | expireReviews =>
      refine issued fun q hq => ?_
      obtain ⟨_, rfl⟩ := hq
      trivial
  | heartbeat =>
      refine issued fun q hq => ?_
      rcases hq with rfl | ⟨_, rfl⟩ <;> trivial
  | event | markLost =>
      refine issued fun q hq => ?_
      obtain ⟨_, _, _, rfl⟩ := hq
      trivial
  | result =>
      refine issued fun q hq => ?_
      obtain ⟨_, _, _, _, rfl⟩ := hq
      trivial

/-- In a run from a database without tasks, a task is handed to the node it was created for, with
what was asked for. -/
theorem handed_as_asked (start : Db) (htasks : start.tasks = .empty) (x : World)
    (ops : List SystemOp) : ∀ hand ∈ handedOut settings crypto start x ops,
      ∃ payload ctx, SystemOp.createTask payload ctx ∈ ops ∧ hand.receiver = payload.nodeId ∧
        hand.name = hand.content.taskId ∧
        hand.content = payload.asks ctx hand.content.dangerLevel := by
  intro hand hhand
  obtain ⟨s, hs, hmem⟩ := List.mem_flatMap.mp hhand
  obtain ⟨x', hruns⟩ := runs_of_mem hs
  have hstart : AllAsked ops start := by
    intro row hrow
    rw [htasks] at hrow
    cases hrow
  have kept : ∀ (s : Step) x, s.Runs settings crypto x → s.op ∈ ops → AllAsked ops s.before →
      AllAsked ops s.after := by
    intro s x hruns hop
    exact hruns.keeps_executed (SystemOp.code_asked hop) fun q w hq hw => hw.apply hq
  have hasked := (steps_inv kept hstart (fun s hs => op_mem_of_mem hs) hs).1
  cases hreply : s.reply with
  | error e => simp [Step.handed, hreply] at hmem
  | ok reply =>
      cases reply with
      | none => simp [Step.handed, hreply] at hmem
      | some r =>
          have hdesk := hruns.desk
          have hmem' := hmem
          rw [Step.handed, hreply] at hmem'
          obtain ⟨env, henv, rfl⟩ := List.mem_map.mp hmem'
          -- What is delivered was the envelope of a row, and the desk knows whose it is.
          obtain ⟨row, hrow, -, rfl⟩ := hruns.delivers hreply r rfl env henv
          have hfound : deskOf s.before row.taskId = some row.item := by
            have hget : s.before.tasks.get? row.taskId = some row := Table.get?_of_mem hrow
            rw [deskOf, hget, Option.map_some]
          have howner : r.nodeId = row.nodeId := hdesk.owner hmem hfound
          obtain ⟨payload, ctx, hop, hnode, henvelope⟩ := hasked row hrow
          exact ⟨payload, ctx, hop, howner.trans hnode, rfl, henvelope⟩

end Asked

/-- The task that a heartbeat claims is the one that was created. -/
theorem handed_as_asked_claimTask :
    ∃ hand ∈ handedOut {} plainCrypto {} {} claimTask, ∃ payload ctx,
      SystemOp.createTask payload ctx ∈ claimTask ∧ hand.receiver = payload.nodeId ∧
        hand.name = hand.content.taskId ∧
        hand.content = payload.asks ctx hand.content.dangerLevel := by
  have hhanded : (handedOut {} plainCrypto {} {} claimTask).isEmpty = false := by decide +kernel
  obtain ⟨hand, hhand⟩ := List.exists_mem_of_ne_nil _ (List.isEmpty_eq_false_iff.mp hhanded)
  exact ⟨hand, hhand, handed_as_asked {} rfl {} claimTask hand hhand⟩

end GpuFleet
