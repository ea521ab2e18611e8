import GpuFleet.Foundations.Taking
import GpuFleet.Server.Dispatch

/-!
# What happens once

The operations of the server side by side, a statement at a time, with the
answers they give.  Any of them may fail anywhere, and what it had not
committed is then undone.

However the statements interleave, a task is handed out by one heartbeat at
most (`handed_at_most_once`), the result of one report at most is accepted
(`finished_at_most_once`), and of the requests to create a task of one id one
at most succeeds (`created_at_most_once`).  Each time one statement decides:
it takes only what is free, whatever was read before, and no other statement
gives back what it took.
-/

namespace GpuFleet

open Foundations

/-! ## Answers -/

/-- The answer of an operation. -/
inductive OpReply where
  | nodeCreated (row : Node)
  | node (row : Node)
  | taskCreated (detail : AdminTaskDetail)
  | task (detail : AdminTaskDetail)
  | heartbeat (r : HeartbeatResponse)
  | event (ack : TaskAck)
  | result (ack : TaskAck)
  | passed

namespace OpReply

/-- The answer to a heartbeat. -/
def heartbeat? : OpReply → Option HeartbeatResponse
  | heartbeat r => some r
  | _ => none

/-- The answer hands the task out. -/
def hands (taskId : String) : OpReply → Bool
  | heartbeat r => r.tasks.any fun env => env.taskId = taskId
  | _ => false

/-- The answer accepts the result of the task. -/
def finishes (taskId : String) : OpReply → Bool
  | result ack => ack.taskId = taskId && !ack.duplicate
  | _ => false

/-- The answer says that the task was created. -/
def creates (taskId : String) : OpReply → Bool
  | taskCreated detail => detail.row.taskId = taskId
  | _ => false

end OpReply

section Answers

variable (settings : Settings) (crypto : Crypto)

/-- The program of an operation with its answer. -/
def SystemOp.answered : SystemOp → Tx OpReply
  | createNode payload secret admin now =>
      GpuFleet.createNode crypto payload secret admin now >>= fun row => pure (.nodeCreated row)
  | updateNode nodeId payload admin now =>
      GpuFleet.updateNode nodeId payload admin now >>= fun row => pure (.node row)
  | setNodeEnabled nodeId enabled admin now =>
      GpuFleet.setNodeEnabled nodeId enabled admin now >>= fun row => pure (.node row)
  | resetSecret nodeId secret admin now =>
      resetNodeSecret crypto nodeId secret admin now >>= fun row => pure (.node row)
  | regenerateOnboarding nodeId secret admin now =>
      regenerateNodeOnboarding crypto nodeId secret admin now >>= fun row => pure (.node row)
  | createTask payload ctx => GpuFleet.createTask payload ctx >>= fun detail => pure (.taskCreated detail)
  | cancel taskId admin now => cancelTask taskId admin now >>= fun detail => pure (.task detail)
  | escalate taskId note admin now =>
      escalateReview taskId note admin now >>= fun detail => pure (.task detail)
  | approve taskId note admin now =>
      approveReview taskId note admin now >>= fun detail => pure (.task detail)
  | reject taskId note admin now =>
      rejectReview taskId note admin now >>= fun detail => pure (.task detail)
  | heartbeat nodeId payload now =>
      asNode nodeId fun node =>
        GpuFleet.heartbeat settings.maxStatusHistoryPerNode nodeId node payload now >>= fun r =>
          pure (.heartbeat r)
  | event nodeId payload now =>
      asNode nodeId fun _ => taskEvents nodeId payload now >>= fun ack => pure (.event ack)
  | result nodeId payload now =>
      asNode nodeId fun _ => taskResult nodeId payload now >>= fun ack => pure (.result ack)
  | markLost now => markLostTasks now >>= fun _ => pure .passed
  | expireReviews now => expireReviewingTasks now >>= fun _ => pure .passed

variable {settings crypto}

theorem asNode_bind {α β : Type} (nodeId : String) (body : Node → Tx α) (g : α → Tx β) :
    asNode nodeId body >>= g = asNode nodeId fun node => body node >>= g := by
  simp only [asNode, Prog.query_bind, Prog.select_bind]
  refine congrArg Prog.select (funext fun db => ?_)
  cases (db.nodes.get? nodeId).filter Node.isEnabled <;> rfl

/-- The program of an operation is the one with its answer, of which it keeps the response to a
heartbeat. -/
theorem SystemOp.code_eq (op : SystemOp) :
    op.code settings crypto = op.answered settings crypto >>= fun a => pure a.heartbeat? := by
  cases op with
  | heartbeat | event | result =>
      simp only [code, answered, silently, asNode_bind, Prog.bind_assoc, Prog.pure_eq,
        Prog.ret_bind, OpReply.heartbeat?]
  | _ =>
      simp only [code, answered, silently, Prog.bind_assoc, Prog.pure_eq, Prog.ret_bind,
        OpReply.heartbeat?]

theorem SystemOp.answered_onward (op : SystemOp) :
    Executes (fun q => q.isOnward = true) (op.answered settings crypto) := by
  have honward : Executes (fun q => q.isOnward = true) (op.code settings crypto) := op.code_onward
  rw [SystemOp.code_eq] at honward
  exact Prog.Avoids.of_bind_ret honward

/-- An operation whose answers do not win. -/
theorem silent_unless {α : Type} {takes : Dml → Db → Prop} {won : OpReply → Prop} (p : Tx α)
    {f : α → OpReply} (h : ∀ a, ¬ won (f a)) :
    (p >>= fun a => pure (f a)).Unless takes fun a => ¬ won a :=
  Prog.Unless.after h

theorem asNode_unless {α : Type} {takes : Dml → Db → Prop} {post : α → Prop} {nodeId : String}
    {body : Node → Tx α} (h : ∀ node, (body node).Unless takes post) :
    (asNode nodeId body).Unless takes post := by
  refine Prog.Unless.after fun node => ?_
  cases node with
  | none => trivial
  | some node => exact h node

theorem catchTaskState_unless {α : Type} {takes : Dml → Db → Prop} {post : α → Prop} {p : Tx α}
    {handler : String → Exc} (hp : p.Unless takes post) :
    (catchTaskState p fun m => .raise (handler m)).Unless takes post :=
  Prog.Unless.tryCatch hp fun e => by cases e <;> trivial

end Answers

/-- The operations of the server with their answers, side by side. -/
abbrev AnsweredConf := Conf SystemOp Dml Db World Exc OpReply

/-- The session has an answer of the kind. -/
def answeredWith (p : OpReply → Bool) (s : Session SystemOp Dml Db World Exc OpReply) : Bool :=
  match s.done with
  | some (.ok a) => p a
  | _ => false

theorem answeredWith_iff {p : OpReply → Bool} {s : Session SystemOp Dml Db World Exc OpReply}
    (h : answeredWith p s = true) : ∃ a, s.done = some (.ok a) ∧ p a = true := by
  unfold answeredWith at h
  split at h
  · exact ⟨_, ‹_›, h⟩
  · cases h

/-- Two operations start and the second reads; then the first goes on to its end, and the second
after it. -/
def racing (op op' : SystemOp) (n m : Nat) : List (Act SystemOp Exc) :=
  [.spawn op, .spawn op', .turn 1] ++ List.replicate n (.turn 0) ++ List.replicate m (.turn 1)

/-! ## Tasks handed out -/

/-- The task is in the queue no more. -/
def Gone (taskId : String) (db : Db) : Prop := ∃ t, deskOf db taskId = some t ∧ t.place = .gone

/-- The statement claims the task. -/
def Claims (taskId : String) (q : Dml) (db : Db) : Prop :=
  ∃ nodeId claimedAt row, q = .task (.claimNext nodeId claimedAt) ∧ row ∈ db.tasks.rows ∧
    row.taskId = taskId ∧ (TaskStmt.claimNext nodeId claimedAt).selects db.tasks row = true

theorem claims_taking (taskId : String) :
    Conf.Taking (Gone taskId) (Claims taskId) fun q => ¬ q.isOnward = true where
  keeps := by
    rintro q db hq ⟨t, ht, hgone⟩
    obtain ⟨u, hu, htu⟩ := desk_moves (not_not.mp hq) db taskId t ht
    exact ⟨u, hu, htu.gone hgone⟩
  free := by
    rintro q db ⟨nodeId, claimedAt, row, -, hrow, rfl, hsel⟩ ⟨t, ht, hgone⟩
    obtain ⟨t', ht', hwaiting, -⟩ := (claimNext_handed hrow hsel).waited
    rw [ht] at ht'
    cases ht'
    rw [hgone] at hwaiting
    cases hwaiting
  took := by
    rintro q db ⟨nodeId, claimedAt, row, rfl, hrow, rfl, hsel⟩
    exact (claimNext_handed hrow hsel).gone

section Runs

variable {settings : Settings} {crypto : Crypto}

/-- What holds of the answer to a heartbeat, if it holds with what the claim returns and without
it. -/
theorem heartbeat_unless {takes : Dml → Db → Prop} {post : HeartbeatResponse → Prop} (keep : Nat)
    (nodeId : String) (node : Node) (payload : HeartbeatRequest) (now : Nat)
    {answers : Option Task → Prop}
    (hclaim : (claimNextTaskForNode nodeId (utcNowIso now)).Unless takes answers)
    (hnone : answers none)
    (hpost : ∀ claimed, answers claimed → ∀ r : HeartbeatResponse,
      r.tasks = (claimed.map Task.envelope).toList → post r) :
    (heartbeat keep nodeId node payload now).Unless takes post := by
  have respond : ∀ claimed : Option Task, answers claimed →
      (do
        let taskControls ← Prog.query fun db => cancelControls db nodeId
        reconnect
        Prog.execute (.snapshot (.trim nodeId keep))
        reconnect
        let refreshFingerprint ← takeFingerprintRefresh nodeId
        pure ({ serverTime := utcNowIso now
                nodeId
                tasks := (claimed.map Task.envelope).toList
                taskControls
                refreshFingerprint } : HeartbeatResponse) : Tx HeartbeatResponse).Unless
        takes post := by
    intro claimed hclaimed
    refine Prog.Unless.after fun controls => Prog.Unless.after fun _ => Prog.Unless.after fun _ =>
      Prog.Unless.after fun _ => Prog.Unless.after fun refresh => ?_
    exact hpost claimed hclaimed _ rfl
  refine Prog.Unless.after fun _ => Prog.Unless.after fun _ => Prog.Unless.after fun _ =>
    Prog.Unless.after fun active => ?_
  cases active with
  | some row => exact respond none hnone
  | none => exact hclaim.bind respond

/-- A claim returns the task only when it claimed it. -/
theorem claimNextTaskForNode_unless (taskId : String) (nodeId claimedAt : String) :
    (claimNextTaskForNode nodeId claimedAt).Unless (Claims taskId) fun claimed =>
      ∀ row ∈ claimed, row.taskId ≠ taskId := by
  intro w hnot row hrow hid
  obtain ⟨old, hold, rfl⟩ := Option.map_eq_some_iff.mp hrow
  obtain ⟨hmem, hsel⟩ := List.mem_filter.mp (List.mem_of_mem_head? hold)
  exact hnot ⟨nodeId, claimedAt, old, rfl, hmem, hid, hsel⟩

/-- An operation hands a task out only when it claimed it. -/
theorem answered_unless (taskId : String) (op : SystemOp) :
    (op.answered settings crypto).Unless (Claims taskId) fun a => ¬ a.hands taskId = true := by
  cases op with
  | heartbeat nodeId payload now =>
      refine asNode_unless fun node => (heartbeat_unless _ nodeId node payload now
        (claimNextTaskForNode_unless taskId nodeId _) (fun _ h => by cases h) ?_).bind fun r hr => hr
      intro claimed hclaimed r hr
      cases claimed with
      | none => simp [OpReply.hands, hr]
      | some row => simpa [OpReply.hands, hr, Task.envelope] using hclaimed row rfl
  | event | result => exact asNode_unless fun _ => silent_unless _ fun _ => Bool.false_ne_true
  | _ => exact silent_unless _ fun _ => Bool.false_ne_true

/-- In every run a task is handed out by one heartbeat at most. -/
theorem handed_at_most_once {db : Db} {x : World} {as : List (Act SystemOp Exc)} {c : AnsweredConf}
    (h : (Conf.init db x : AnsweredConf).run (SystemOp.answered settings crypto) as = some c)
    (taskId : String) : c.sessions.countP (answeredWith (OpReply.hands taskId)) ≤ 1 := by
  exact Conf.wins_at_most_once (claims_taking taskId) (fun op => op.answered_onward)
    (answered_unless taskId) h fun s hs => answeredWith_iff hs

end Runs

/-- Of two heartbeats side by side one is given the first task. -/
theorem handed_at_most_once_racing :
    ∃ c : AnsweredConf, (Conf.init twoPending {}).run (SystemOp.answered {} plainCrypto)
        (racing (.heartbeat "n" { bootId := "b" } 0) (.heartbeat "n" { bootId := "b" } 0) 11 10) =
          some c ∧
      c.sessions.countP (answeredWith (OpReply.hands "t1")) ≤ 1 := by
  have hruns : ((Conf.init twoPending {} : AnsweredConf).run (SystemOp.answered {} plainCrypto)
      (racing (.heartbeat "n" { bootId := "b" } 0) (.heartbeat "n" { bootId := "b" } 0) 11
        10)).isSome = true := by
    decide +kernel
  obtain ⟨c, hc⟩ := Option.isSome_iff_exists.mp hruns
  exact ⟨c, hc, handed_at_most_once hc _⟩

/-! ## Results accepted -/

/-- The result of the task is locked. -/
def Locked (taskId : String) (db : Db) : Prop :=
  ∃ row, db.tasks.get? taskId = some row ∧ row.resultLockedAt.isSome = true

/-- The statement locks a result of the task. -/
def Locks (taskId : String) (q : Dml) (db : Db) : Prop :=
  ∃ status startedAt finishedAt nowIso,
    q = .task (.setResult taskId status startedAt finishedAt nowIso) ∧
      (TaskStmt.setResult taskId status startedAt finishedAt nowIso).rowcount db.tasks = 1

/-- No update clears a lock. -/
theorem TaskStmt.edit_locked (q : TaskStmt) {row : Task} (h : row.resultLockedAt.isSome = true) :
    (q.edit row).resultLockedAt.isSome = true := by
  cases q with
  | setResult => rfl
  | _ => exact h

/-- The row that a result is locked in. -/
theorem Locks.row {taskId : String} {q : Dml} {db : Db} (h : Locks taskId q db) :
    ∃ status startedAt finishedAt nowIso row,
      q = .task (.setResult taskId status startedAt finishedAt nowIso) ∧
        db.tasks.get? taskId = some row ∧ row.resultLockedAt = none ∧
        (TaskStmt.setResult taskId status startedAt finishedAt nowIso).selects db.tasks row = true := by
  obtain ⟨status, startedAt, finishedAt, nowIso, rfl, hcount⟩ := h
  have hpos : 0 < (db.tasks.select ((TaskStmt.setResult taskId status startedAt finishedAt
      nowIso).selects db.tasks)).length := by
    rw [TaskStmt.rowcount] at hcount
    rw [hcount]
    exact Nat.one_pos
  obtain ⟨row, hrow⟩ := List.exists_mem_of_length_pos hpos
  obtain ⟨hmem, hsel⟩ := List.mem_filter.mp hrow
  have hcond := hsel
  simp only [TaskStmt.selects, Bool.and_eq_true, decide_eq_true_eq, Option.isNone_iff_eq_none]
    at hcond
  obtain ⟨⟨hid, hlock⟩, -⟩ := hcond
  have hfound : db.tasks.get? row.taskId = some row := Table.get?_of_mem hmem
  rw [hid] at hfound
  exact ⟨status, startedAt, finishedAt, nowIso, row, rfl, hfound, hlock, hsel⟩

theorem locks_taking (taskId : String) :
    Conf.Taking (Locked taskId) (Locks taskId) fun _ => False where
  keeps := by
    rintro q db - ⟨row, hrow, hlock⟩
    cases q with
    | task q =>
        by_cases hins : ∃ new, q = .insert new
        · obtain ⟨new, rfl⟩ := hins
          exact ⟨row, TaskStmt.get?_insert_of_some hrow, hlock⟩
        · refine ⟨_, by rw [apply_tasks_task, TaskStmt.get?_apply fun new e => hins ⟨new, e⟩, hrow,
            Option.map_some], ?_⟩
          split
          · exact q.edit_locked hlock
          · exact hlock
    | _ => exact ⟨row, hrow, hlock⟩
  free := by
    rintro q db h ⟨row', hrow', hlock'⟩
    obtain ⟨_, _, _, _, row, -, hrow, hlock, -⟩ := h.row
    rw [hrow] at hrow'
    cases hrow'
    simp [hlock] at hlock'
  took := by
    intro q db h
    obtain ⟨status, startedAt, finishedAt, nowIso, row, rfl, hrow, -, hsel⟩ := h.row
    exact ⟨_, TaskStmt.get?_apply_selected (by intro _ h; cases h) hrow hsel, rfl⟩

/-- What every statement keeps, every program does. -/
theorem Executes.avoids_nothing {α : Type} {allowed : Dml → Prop} {p : Tx α}
    (hp : Executes allowed p) : p.Avoids (fun _ => True) (fun _ => False) fun _ => True :=
  Prog.Avoids.weaken hp fun _ h => h.elim

section Runs

variable {settings : Settings} {crypto : Crypto}

/-- A result that is not a duplicate has locked the task. -/
theorem finalizeTaskResult_unless (taskId : String) (status : FinalStatus)
    (startedAt finishedAt nowIso : String) :
    (finalizeTaskResult taskId status startedAt finishedAt nowIso).Unless (Locks taskId)
      fun out => out.2 = true := by
  refine Prog.Unless.after fun row => ?_
  split
  · trivial
  · have hcount : (Prog.executeReturning (.task (.setResult taskId status startedAt finishedAt nowIso))
        fun db => (TaskStmt.setResult taskId status startedAt finishedAt nowIso).rowcount
          db.tasks : Tx Nat).Unless (Locks taskId) fun rowcount => rowcount ≠ 1 :=
      fun w hnot hcount => hnot ⟨status, startedAt, finishedAt, nowIso, rfl, hcount⟩
    refine hcount.bind fun rowcount hne => ?_
    rw [if_pos hne]
    refine Prog.Unless.after fun row => ?_
    split
    · rfl
    · trivial

theorem taskResult_unless (taskId : String) (nodeId : String) (payload : NodeTaskResultRequest)
    (now : Nat) : (taskResult nodeId payload now).Unless (Locks taskId) fun ack =>
      ¬ (OpReply.result ack).finishes taskId = true := by
  refine Prog.Unless.after fun row => ?_
  by_cases hid : payload.taskId = taskId
  · rw [hid]
    refine Prog.Unless.bind (catchTaskState_unless (finalizeTaskResult_unless taskId _ _ _ _))
      fun out hout => ?_
    obtain ⟨row, duplicate⟩ := out
    have hout : duplicate = true := hout
    simp [hout, OpReply.finishes]
  · refine Prog.Unless.after fun out => ?_
    obtain ⟨row, duplicate⟩ := out
    simp only
    split
    · simp [OpReply.finishes, hid]
    · refine Prog.Unless.after fun _ => Prog.Unless.after fun _ => ?_
      split
      · refine Prog.Unless.after fun _ => ?_
        simp [OpReply.finishes, hid]
      · simp [OpReply.finishes, hid]

/-- In every run the result of one report of a task at most is accepted. -/
theorem finished_at_most_once {db : Db} {x : World} {as : List (Act SystemOp Exc)}
    {c : AnsweredConf}
    (h : (Conf.init db x : AnsweredConf).run (SystemOp.answered settings crypto) as = some c)
    (taskId : String) : c.sessions.countP (answeredWith (OpReply.finishes taskId)) ≤ 1 := by
  refine Conf.wins_at_most_once (locks_taking taskId)
    (fun op => op.answered_onward.avoids_nothing) ?_ h fun s hs => answeredWith_iff hs
  intro op
  cases op with
  | result nodeId payload now =>
      exact asNode_unless fun node => (taskResult_unless taskId nodeId payload now).bind
        fun ack hack => hack
  | event | heartbeat => exact asNode_unless fun _ => silent_unless _ fun _ => Bool.false_ne_true
  | _ => exact silent_unless _ fun _ => Bool.false_ne_true

end Runs

/-- A report of the first task of the node. -/
def reportFirst (finalStatus : FinalStatus) : SystemOp :=
  .result "n" { taskId := "t1", finalStatus } 0

/-- The node has taken its first task. -/
def firstTaken : Db := (finish {} plainCrypto twoPending {} [.heartbeat "n" { bootId := "b" } 0]).1

/-- Of two reports side by side one is accepted. -/
theorem finished_at_most_once_racing :
    ∃ c : AnsweredConf, (Conf.init firstTaken {}).run (SystemOp.answered {} plainCrypto)
        (racing (reportFirst .succeeded) (reportFirst .failed) 9 5) = some c ∧
      c.sessions.countP (answeredWith (OpReply.finishes "t1")) ≤ 1 := by
  have hruns : ((Conf.init firstTaken {} : AnsweredConf).run (SystemOp.answered {} plainCrypto)
      (racing (reportFirst .succeeded) (reportFirst .failed) 9 5)).isSome = true := by
    decide +kernel
  obtain ⟨c, hc⟩ := Option.isSome_iff_exists.mp hruns
  exact ⟨c, hc, finished_at_most_once hc _⟩

/-! ## Tasks created -/

/-- The task exists. -/
def Exists (taskId : String) (db : Db) : Prop := (db.tasks.get? taskId).isSome = true

/-- The statement inserts the task. -/
def Inserts (taskId : String) (q : Dml) (db : Db) : Prop :=
  ∃ row, q = .task (.insert row) ∧ row.taskId = taskId ∧ db.tasks.get? taskId = none

theorem inserts_taking (taskId : String) :
    Conf.Taking (Exists taskId) (Inserts taskId) fun _ => False where
  keeps := by
    intro q db _ h
    obtain ⟨row, hrow⟩ := Option.isSome_iff_exists.mp h
    cases q with
    | task q =>
        by_cases hins : ∃ new, q = .insert new
        · obtain ⟨new, rfl⟩ := hins
          exact Option.isSome_iff_exists.mpr ⟨row, TaskStmt.get?_insert_of_some hrow⟩
        · rw [Exists, apply_tasks_task, TaskStmt.get?_apply fun new e => hins ⟨new, e⟩, hrow]
          rfl
    | _ => exact h
  free := by
    rintro q db ⟨row, -, -, hnone⟩ h
    rw [Exists, hnone] at h
    cases h
  took := by
    rintro q db ⟨row, rfl, hid, hnone⟩
    have hput : (db.tasks.insert row.inserted fun _ => rfl).get? taskId =
        some (row.inserted (db.tasks.seq + 1)) := Table.get?_insert_self hnone fun _ => hid
    exact Option.isSome_iff_exists.mpr ⟨_, hput⟩

section Runs

variable {settings : Settings} {crypto : Crypto}

/-- The end of `create_task` answers with the row of the id that was inserted, and with no other. -/
theorem readBack_unless {taskId id : String} (hid : id ≠ taskId) (admin : Admin) (payload : Json)
    (nowIso : String) {answer : Option Task → Tx AdminTaskDetail}
    (hnone : answer none = .raise .type) (hsome : ∀ row, answer (some row) = pure { row }) :
    (do
      auditTask admin "create_task" id payload nowIso
      reconnect
      let row ← Prog.query fun db => db.tasks.get? id
      answer row : Tx AdminTaskDetail).Unless (Inserts taskId) fun detail =>
        ¬ (OpReply.taskCreated detail).creates taskId = true := by
  have hquery : (Prog.query fun db => db.tasks.get? id : Tx (Option Task)).Unless
      (Inserts taskId) fun row => ∀ r ∈ row, r.taskId = id := fun db r hr => Table.get?_key hr
  refine Prog.Unless.after fun _ => Prog.Unless.after fun _ => hquery.bind fun row hrow => ?_
  cases row with
  | none =>
      rw [hnone]
      trivial
  | some row =>
      rw [hsome]
      simp [OpReply.creates, hrow row rfl, hid]

/-- A task that is answered as created was inserted. -/
theorem createTask_unless (taskId : String) (payload : AdminTaskCreateRequest)
    (ctx : CreateContext) : (createTask payload ctx).Unless (Inserts taskId) fun detail =>
      ¬ (OpReply.taskCreated detail).creates taskId = true := by
  refine Prog.Unless.after fun _ => Prog.Unless.after fun existing => ?_
  split
  · trivial
  · by_cases hid : orElse payload.taskId ctx.freshTaskId = taskId
    · rw [hid]
      have hconflict : ∀ row : Task, row.taskId = taskId →
          (Prog.executeReturning (.task (.insert row)) fun db => (db.tasks.get? taskId).isSome :
            Tx Bool).Unless (Inserts taskId) fun conflict => conflict = true := by
        intro row hrow w hnot
        show (w.tasks.get? taskId).isSome = true
        cases hget : w.tasks.get? taskId with
        | none => exact absurd ⟨row, rfl, hrow, hget⟩ hnot
        | some old => rfl
      refine (hconflict _ rfl).bind fun conflict hc => ?_
      rw [if_pos hc]
      trivial
    · refine Prog.Unless.after fun conflict => ?_
      split
      · trivial
      · simp only
        split
        · split
          · exact Prog.Unless.after fun _ => readBack_unless hid _ _ _ rfl fun _ => rfl
          · exact readBack_unless hid _ _ _ rfl fun _ => rfl
        · refine Prog.Unless.after fun _ => ?_
          split
          · exact Prog.Unless.after fun _ => readBack_unless hid _ _ _ rfl fun _ => rfl
          · exact readBack_unless hid _ _ _ rfl fun _ => rfl

/-- In every run one request at most to create a task of an id succeeds. -/
theorem created_at_most_once {db : Db} {x : World} {as : List (Act SystemOp Exc)}
    {c : AnsweredConf}
    (h : (Conf.init db x : AnsweredConf).run (SystemOp.answered settings crypto) as = some c)
    (taskId : String) : c.sessions.countP (answeredWith (OpReply.creates taskId)) ≤ 1 := by
  refine Conf.wins_at_most_once (inserts_taking taskId)
    (fun op => op.answered_onward.avoids_nothing) ?_ h fun s hs => answeredWith_iff hs
  intro op
  cases op with
  | createTask payload ctx =>
      exact (createTask_unless taskId payload ctx).bind fun detail hdetail => hdetail
  | event | heartbeat | result =>
      exact asNode_unless fun _ => silent_unless _ fun _ => Bool.false_ne_true
  | _ => exact silent_unless _ fun _ => Bool.false_ne_true

end Runs

/-- A request to create a third task. -/
def createThird : SystemOp :=
  .createTask { nodeId := "n", type := .healthCheck, taskId := some "t3" }
    { admin := ⟨1, "admin"⟩, review := none, freshTaskId := "", freshKey := "", now := 0
      reviewedAt := 0 }

/-- Of two requests side by side one succeeds. -/
theorem created_at_most_once_racing :
    ∃ c : AnsweredConf, (Conf.init twoPending {}).run (SystemOp.answered {} plainCrypto)
        (racing createThird createThird 7 2) = some c ∧
      c.sessions.countP (answeredWith (OpReply.creates "t3")) ≤ 1 := by
  have hruns : ((Conf.init twoPending {} : AnsweredConf).run (SystemOp.answered {} plainCrypto)
      (racing createThird createThird 7 2)).isSome = true := by
    decide +kernel
  obtain ⟨c, hc⟩ := Option.isSome_iff_exists.mp hruns
  exact ⟨c, hc, created_at_most_once hc _⟩

end GpuFleet
