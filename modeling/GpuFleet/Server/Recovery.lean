import GpuFleet.Server.Permitted

/-!
# A way out of `claimed`

The claim of a task is committed before the response that carries the task
reaches the node.  When that response is lost the node knows nothing of the
task, and no later heartbeat sends it again.  On the server a lost response
changes nothing, and a retry of the request is one more heartbeat.

The way out is the scanner.  Three heartbeat intervals after the node was last
heard of, a pass marks the task as lost.  The pass reads the time stamps of all
active tasks and stops at the first it cannot parse, so the invariant of a run
is about them: whatever a run stores in the columns the scanner reads is the
text of one of its clock readings (`Dated`).
-/

namespace GpuFleet

open Foundations

/-! ## Time stamps of a run -/

/-- The text of a clock reading before `time`. -/
def Stamp (time : Nat) (s : String) : Prop := ∃ t, t < time ∧ s = utcNowIso t

/-- The longest timeout of a task, in seconds. -/
def maxTimeoutSec : Nat := 60 * 60 * 24 * 14

/-- Three times the longest heartbeat interval, in microseconds. -/
def longestSilence : Nat := 3 * 3600 * 1000000

/-- The columns of a task the scanner reads. -/
structure Timed (time : Nat) (row : Task) : Prop where
  timeout : row.timeoutSec ≤ maxTimeoutSec
  started : row.status.isTerminal = false → ∀ s ∈ row.startedAt, Stamp time s
  claimed : row.status.isTerminal = false → ∀ s ∈ row.claimedAt, Stamp time s
  active : row.status.isActive = true → row.claimedAt.isSome = true

/-- What a run keeps of the columns the scanner reads. -/
structure Dated (time : Nat) (db : Db) : Prop where
  tasks : ∀ row ∈ db.tasks.rows, Timed time row
  home : ∀ row ∈ db.tasks.rows, (db.nodes.get? row.nodeId).isSome = true
  seen : ∀ node ∈ db.nodes.rows, ∀ s ∈ node.lastSeenAt, Stamp time s
  interval : ∀ node ∈ db.nodes.rows, node.heartbeatIntervalSec ≤ 3600
  audits : ∀ row ∈ db.audits.rows, Stamp time row.createdAt

/-- A row of terminal status is of no interest to the scanner. -/
theorem Timed.of_terminal {time : Nat} {row : Task} (htimeout : row.timeoutSec ≤ maxTimeoutSec)
    (h : row.status.isTerminal = true) : Timed time row where
  timeout := htimeout
  started := by
    intro hnot
    rw [h] at hnot
    cases hnot
  claimed := by
    intro hnot
    rw [h] at hnot
    cases hnot
  active := by
    intro hact
    rw [not_isTerminal_of_isActive hact] at h
    cases h

theorem timeout_le (payload : AdminTaskCreateRequest) :
    normalizeTimeout payload.type payload.timeoutSec ≤ maxTimeoutSec := by
  unfold normalizeTimeout
  cases h : payload.timeoutSec with
  | none => cases payload.type <;> decide
  | some t => exact (payload.timeout_range t h).2

section Statements

variable {time : Nat} {op : SystemOp} {start : Db}

/-- A permitted update keeps the time stamps of the rows it selects. -/
theorem Timed.edit {q : TaskStmt} {tasks : Table Task} {row : Task}
    (h : PermittedTask op start q) (htasks : tasks = start.tasks ∨ q.isPass = true)
    (hnow : op.now < time) (hmem : row ∈ tasks.rows) (hsel : q.selects tasks row = true)
    (hrow : Timed time row) : Timed time (q.edit row) := by
  have htimeout : (q.edit row).timeoutSec ≤ maxTimeoutSec := by
    rw [(q.edit_frame row).2.2.2.2.2]
    exact hrow.timeout
  have stamp : Stamp time (utcNowIso op.now) := ⟨op.now, hnow, rfl⟩
  have read : ∀ {taskId old}, start.tasks.get? taskId = some old → tasks = start.tasks →
      row.taskId = taskId → row = old := by
    intro taskId old hold htasks hid
    rw [htasks] at hmem
    exact Table.eq_of_get? hold hmem hid
  cases q with
  | insert _ => cases hsel
  | setEvent taskId status startedAt =>
      obtain ⟨old, e, hold, hacc, rfl, hstarted, -⟩ := h
      obtain rfl := read hold (htasks.resolve_right Bool.false_ne_true) (of_decide_eq_true hsel)
      have hact := isActive_of_taskEventTransitions hacc
      have hlive := not_isTerminal_of_isActive hact
      refine ⟨htimeout, fun _ s hs => ?_, fun _ => hrow.claimed hlive, fun _ => hrow.active hact⟩
      have hs : startedAt = some s := hs
      rcases hstarted with he | he
      · exact hrow.started hlive s (by rw [← he]; exact hs)
      · rw [he] at hs
        cases hs
        exact stamp
  | setCancelled => exact .of_terminal htimeout rfl
  | setCancelRequested taskId =>
      obtain ⟨⟨old, hold, hact⟩, -⟩ := h
      obtain rfl := read hold (htasks.resolve_right Bool.false_ne_true) (of_decide_eq_true hsel)
      have hlive := not_isTerminal_of_isActive hact
      exact ⟨htimeout, fun _ => hrow.started hlive, fun _ => hrow.claimed hlive,
        fun _ => hrow.active hact⟩
  | setEscalated => exact ⟨htimeout, hrow.started, hrow.claimed, hrow.active⟩
  | setApproved =>
      have hlive : row.status.isTerminal = false := by
        simp only [TaskStmt.selects, Bool.and_eq_true, decide_eq_true_eq] at hsel
        rw [hsel.2]
        rfl
      exact ⟨htimeout, fun _ => hrow.started hlive, fun _ => hrow.claimed hlive,
        fun hact => by cases hact⟩
  | setRejected | setReviewExpired => exact .of_terminal htimeout rfl
  | setBackground =>
      rcases h.1 with rfl | rfl <;> exact .of_terminal htimeout rfl
  | setResult _ status => exact .of_terminal htimeout status.isTerminal
  | claimNext nodeId claimedAt =>
      have hlive : row.status.isTerminal = false := by
        simp only [TaskStmt.selects, Bool.and_eq_true, decide_eq_true_eq] at hsel
        rw [hsel.2]
        rfl
      refine ⟨htimeout, fun _ => hrow.started hlive, fun _ s hs => ?_, fun _ => rfl⟩
      cases hs
      rw [show claimedAt = _ from h]
      exact stamp
  | setReported taskId claimedAt =>
      obtain ⟨rfl, old, payload, now, rfl, -, -, -, hold, hpending⟩ := h
      obtain rfl := read hold (htasks.resolve_right Bool.false_ne_true) (of_decide_eq_true hsel)
      have hlive : row.status.isTerminal = false := by
        rw [hpending]
        rfl
      refine ⟨htimeout, fun _ => hrow.started hlive, fun _ s hs => ?_, fun _ => ?_⟩
      · have hs : (row.claimedAt <|> some (utcNowIso now)) = some s := hs
        cases hc : row.claimedAt with
        | none =>
            rw [hc] at hs
            cases hs
            exact stamp
        | some c =>
            rw [hc] at hs
            cases hs
            exact hrow.claimed hlive _ hc
      · show (row.claimedAt <|> some (utcNowIso now)).isSome = true
        cases row.claimedAt <;> rfl

/-- A permitted statement keeps the time stamps, and the nodes. -/
theorem dated_apply {db : Db} {q : Dml} (h : Permitted op start q db) (hnow : op.now < time)
    (hstart : Dated time start)
    (hdb : Dated time db ∧ ∀ n, (start.nodes.get? n).isSome = true →
      (db.nodes.get? n).isSome = true) :
    Dated time (Statement.apply q db) ∧ ∀ n, (start.nodes.get? n).isSome = true →
      ((Statement.apply q db).nodes.get? n).isSome = true := by
  obtain ⟨hdb, hnodes⟩ := hdb
  have stamp : Stamp time (utcNowIso op.now) := ⟨op.now, hnow, rfl⟩
  cases q with
  | task q =>
      refine ⟨⟨fun row' hrow' => ?_, fun row' hrow' => ?_, hdb.seen, hdb.interval, hdb.audits⟩,
        hnodes⟩
      · rcases TaskStmt.mem_apply_cases hrow' with ⟨row, hrow, rfl⟩ | ⟨row, hrow, hsel, rfl⟩ | hins
        · exact hdb.tasks row' hrow
        · exact Timed.edit h.1 h.2 hnow hrow hsel (hdb.tasks row hrow)
        · obtain ⟨row, rfl, rfl⟩ := hins
          obtain ⟨⟨payload, ctx, taskId, key, -, -, -, -, rfl⟩, -⟩ := h
          refine ⟨timeout_le payload, fun _ => nofun, fun _ => nofun, fun hact => ?_⟩
          simp [Task.inserted, newTask, admissionOf_not_active] at hact
      · rcases TaskStmt.mem_apply_cases hrow' with ⟨row, hrow, rfl⟩ | ⟨row, hrow, hsel, rfl⟩ | hins
        · exact hdb.home row' hrow
        · rw [(q.edit_frame row).2.2.1]
          exact hdb.home row hrow
        · obtain ⟨row, rfl, rfl⟩ := hins
          obtain ⟨⟨payload, ctx, taskId, key, -, -, -, hnode, rfl⟩, -⟩ := h
          exact hnodes _ hnode
  | node q =>
      refine ⟨⟨hdb.tasks, fun row hrow => NodeStmt.isSome_get?_apply q (hdb.home row hrow), ?_, ?_,
        hdb.audits⟩, fun n hn => NodeStmt.isSome_get?_apply q (hnodes n hn)⟩
      · intro row' hrow'
        rcases NodeStmt.mem_apply_cases hrow' with ⟨row, hrow, rfl⟩ | ⟨row, hrow, -, rfl⟩ | hins
        · exact hdb.seen row' hrow
        · cases q with
          | touch _ _ _ nowIso =>
              intro s hs
              cases hs
              rw [show nowIso = _ from h.1]
              exact stamp
          | _ => exact hdb.seen row hrow
        · obtain ⟨row, rfl, rfl⟩ := hins
          intro s hs
          have hs : row.lastSeenAt = some s := hs
          rw [h.1] at hs
          cases hs
      · intro row' hrow'
        rcases NodeStmt.mem_apply_cases hrow' with ⟨row, hrow, rfl⟩ | ⟨row, hrow, -, rfl⟩ | hins
        · exact hdb.interval row' hrow
        · cases q with
          | touch => exact h.2.2
          | setSettings nodeId values =>
              obtain ⟨payload, old, nowIso, hold, rfl⟩ := h
              show payload.heartbeatIntervalSec.getD old.heartbeatIntervalSec ≤ 3600
              cases hp : payload.heartbeatIntervalSec with
              | none => exact hstart.interval old (Table.get?_mem hold)
              | some n => exact (payload.interval_range n hp).2
          | _ => exact hdb.interval row hrow
        · obtain ⟨row, rfl, rfl⟩ := hins
          exact h.2.2.1
  | insertAudit row =>
      refine ⟨⟨hdb.tasks, hdb.home, hdb.seen, hdb.interval, fun row' hrow' => ?_⟩, hnodes⟩
      rcases mem_insertAudit hrow' with hrow' | rfl
      · exact hdb.audits row' hrow'
      · rw [show AuditEvent.createdAt _ = _ from h]
        exact stamp
  | beginImmediate | attempt | log | artifact | nonce | snapshot | alert | insertReview =>
      exact ⟨⟨hdb.tasks, hdb.home, hdb.seen, hdb.interval, hdb.audits⟩, hnodes⟩

end Statements

/-- What every step of a run keeps. -/
theorem Dated.step {settings : Settings} {crypto : Crypto} {time : Nat} {s : Step} {x : World}
    (h : s.Runs settings crypto x) (hnow : s.op.now < time) (hs : Dated time s.before) :
    Dated time s.after :=
  (h.keeps (fun _ _ hq hdb => dated_apply hq hnow hs hdb) ⟨hs, fun _ => id⟩).1

/-! ## A pass of the scanner -/

/-- An active task whose time stamps the scanner can read. -/
structure Scannable (time : Nat) (task : ActiveTask) : Prop where
  timeout : task.timeoutSec ≤ maxTimeoutSec
  started : ∀ s ∈ task.startedAt, Stamp time s
  claimed : ∃ s, task.claimedAt = some s ∧ Stamp time s
  seen : ∀ s ∈ task.lastSeenAt, Stamp time s
  interval : task.heartbeatIntervalSec ≤ 3600

/-- Every active task of a dated database can be scanned. -/
theorem Dated.scannable {time : Nat} {db : Db} (h : Dated time db) {task : ActiveTask}
    (htask : task ∈ activeTasks db) :
    Scannable time task ∧ (db.tasks.get? task.taskId).isSome = true := by
  obtain ⟨row, hrow, hjoin⟩ := List.mem_filterMap.mp htask
  obtain ⟨hmem, hactive⟩ := List.mem_filter.mp hrow
  obtain ⟨node, hnode, rfl⟩ := Option.map_eq_some_iff.mp hjoin
  have hnode := Table.get?_mem hnode
  have hlive := not_isTerminal_of_isActive hactive
  have htimed := h.tasks row hmem
  obtain ⟨c, hc⟩ := Option.isSome_iff_exists.mp (htimed.active hactive)
  refine ⟨⟨htimed.timeout, htimed.started hlive, ⟨c, hc, htimed.claimed hlive c hc⟩,
    h.seen node hnode, h.interval node hnode⟩, ?_⟩
  exact Option.isSome_iff_exists.mpr ⟨row, Table.get?_of_mem hmem⟩

section Scan

variable {time now : Nat} {task : ActiveTask}

/-- The check of the deadline raises nothing, and passes a task that does not run. -/
theorem pastDeadline_ok (h : Scannable time task)
    (htime : time + maxTimeoutSec * 1000000 ≤ Iso.maxMicros) :
    ∃ late, pastDeadline task now = .ok late ∧ (task.status ≠ .running → late = false) := by
  unfold pastDeadline
  cases hs : task.startedAt with
  | none => exact ⟨false, rfl, fun _ => rfl⟩
  | some raw =>
      simp only
      split
      · exact ⟨false, rfl, fun _ => rfl⟩
      · rename_i hrun
        obtain ⟨t, ht, rfl⟩ := h.started raw hs
        have hlt : t < Iso.maxMicros := by omega
        have hend : t / 1000000 * 1000000 + task.timeoutSec * 1000000 < Iso.maxMicros := by
          have := h.timeout
          have : t / 1000000 * 1000000 ≤ t := wholeSecond_le t
          omega
        rw [utcNowIso, Iso.fromisoformat_isoformat (Iso.seconds_lt hlt), Option.elim]
        simp only [hend, if_true]
        exact ⟨_, rfl, fun hne => absurd hne fun hne => hrun (Or.inl hne)⟩

/-- The last support of a task is known, and lies before `time`. -/
theorem lastSupport_ok (h : Scannable time task) (htime : time ≤ Iso.maxMicros) :
    ∃ t reason, t < time ∧ lastSupport task = .ok (some ((t : Int), reason)) := by
  have parsed : ∀ s, Stamp time s → ∃ t, t < time ∧ parseUtcOrNone (some s) = .ok (some (t : Int)) := by
    rintro s ⟨t, ht, rfl⟩
    exact ⟨wholeSecond t, Nat.lt_of_le_of_lt (wholeSecond_le t) ht,
      parseUtcOrNone_utcNowIso (Nat.lt_of_lt_of_le ht htime)⟩
  unfold lastSupport
  cases hseen : task.lastSeenAt.filter (· ≠ "") with
  | some raw =>
      obtain ⟨t, ht, hp⟩ := parsed raw (h.seen raw (Option.filter_eq_some_iff.mp hseen).1)
      exact ⟨t, .unresponsive, ht, by simp only [hp]; rfl⟩
  | none =>
      obtain ⟨raw, hraw, hstamp⟩ := h.claimed
      obtain ⟨t, ht, hp⟩ := parsed raw hstamp
      exact ⟨t, .neverSeen, ht, by simp only [hraw, hp]; rfl⟩

theorem Scannable.interval_le (h : Scannable time task) : task.interval ≤ 3600 := by
  have := h.interval
  unfold ActiveTask.interval
  split <;> omega

/-- Audit rows carry time stamps the scanner can read. -/
def Readable (db : Db) : Prop := ∀ row ∈ db.audits.rows, Stamp Iso.maxMicros row.createdAt

theorem latestCancelRequestedAt_wp {db : Db} (h : Readable db) (taskId : String) :
    (latestCancelRequestedAt taskId).wp (fun _ _ => True) (fun _ _ => False)
      (fun _ w => w = db) db := by
  rw [latestCancelRequestedAt, Prog.wp_bind, Prog.wp_query]
  cases hrow : firstBy _ (db.audits.select _) with
  | none => exact rfl
  | some row =>
      obtain ⟨hmem, -⟩ := List.mem_filter.mp (firstBy_mem hrow)
      obtain ⟨t, ht, hstamp⟩ := h row hmem
      simp only [hstamp, parseUtcOrNone_utcNowIso ht]
      exact rfl

/-- The scanner reaches a verdict on every active task, and after three of the longest
intervals it gives up a task that is still only claimed. -/
theorem overdue_wp {db : Db} (h : Scannable time task) (hdb : Readable db)
    (htime : time + maxTimeoutSec * 1000000 ≤ Iso.maxMicros)
    (hnow : time + longestSilence ≤ now) :
    (overdue task now).wp (fun _ _ => True) (fun _ _ => False)
      (fun reason w => w = db ∧ (task.status = .claimed → reason.isSome = true)) db := by
  have hpast : ∃ late, pastDeadline task now = .ok late ∧
      (task.status ≠ .running → late = false) := pastDeadline_ok h htime
  obtain ⟨late, hlate, hrun⟩ := hpast
  rw [overdue, hlate]
  simp only [ofExcept, Prog.ret_bind]
  split
  · exact ⟨rfl, fun _ => rfl⟩
  · split
    · rename_i hcancel
      rw [Prog.wp_bind]
      refine Prog.wp_imp (latestCancelRequestedAt_wp hdb task.taskId) fun r w hw => ⟨hw, ?_⟩
      rw [hcancel]
      intro hclaimed
      cases hclaimed
    · obtain ⟨t, reason, ht, hsupport⟩ := lastSupport_ok h (Nat.le_of_add_right_le htime)
      rw [hsupport]
      have hsilence : 3 * task.interval * 1000000 ≤ longestSilence :=
        Nat.mul_le_mul_right _ (Nat.mul_le_mul_left 3 h.interval_le)
      have hlong : 3 * task.interval * 1000000 + t < now :=
        calc 3 * task.interval * 1000000 + t
          _ < longestSilence + time := Nat.add_lt_add_of_le_of_lt hsilence ht
          _ = time + longestSilence := Nat.add_comm ..
          _ ≤ now := hnow
      have hlong : ((3 * task.interval * 1000000 : Nat) : Int) < (now : Int) - t :=
        Int.lt_sub_right_of_add_lt (Int.ofNat_lt.mpr hlong)
      refine ⟨rfl, fun _ => ?_⟩
      push_cast at hlong
      simp [hlong]

/-- The task has a row of terminal status. -/
def Ended (taskId : String) (db : Db) : Prop :=
  ∃ row, db.tasks.get? taskId = some row ∧ row.status.isTerminal = true

/-- What a pass keeps from task to task: the audit rows stay readable, no row disappears, and
what has ended has ended. -/
structure Passes (db db' : Db) : Prop where
  readable : Readable db → Readable db'
  present : ∀ taskId, (db.tasks.get? taskId).isSome = true → (db'.tasks.get? taskId).isSome = true
  ended : ∀ taskId, Ended taskId db → Ended taskId db'

theorem Passes.refl (db : Db) : Passes db db := ⟨id, fun _ => id, fun _ => id⟩

theorem Passes.trans {a b c : Db} (h : Passes a b) (h' : Passes b c) : Passes a c :=
  ⟨h'.readable ∘ h.readable, fun id => h'.present id ∘ h.present id,
    fun id => h'.ended id ∘ h.ended id⟩

/-- The update of the scanner finds its row and ends the task. -/
theorem setBackground_passes {db : Db} {taskId : String} {row : Task} {status : TaskStatus}
    (hrow : db.tasks.get? taskId = some row) (hstatus : status.isTerminal = true)
    (finishedAt : String) :
    Passes db (Statement.apply (Dml.task (.setBackground taskId status finishedAt)) db) ∧
      (Statement.apply (Dml.task (.setBackground taskId status finishedAt)) db).tasks.get? taskId =
        some { row with status, finishedAt := some finishedAt } := by
  have hget := TaskStmt.get?_apply (q := .setBackground taskId status finishedAt)
    (by intro _ h; cases h) db.tasks
  refine ⟨⟨id, fun id h => ?_, ?_⟩, ?_⟩
  · rw [apply_tasks_task, hget, Option.isSome_map]
    exact h
  · rintro id ⟨row, hrow, hterm⟩
    refine ⟨_, by rw [apply_tasks_task, hget, hrow]; rfl, ?_⟩
    simp only
    split
    · exact hstatus
    · exact hterm
  · have hkey : row.taskId = taskId := Table.get?_key hrow
    exact TaskStmt.get?_apply_selected (by intro _ h; cases h) hrow (decide_eq_true hkey)

/-- Giving a task up raises nothing, and the task has ended then. -/
theorem giveUp_wp {db : Db} {event : TransitionEvent}
    (hevent : event = .backgroundTimeout ∨ event = .backgroundLost)
    (hrow : (db.tasks.get? task.taskId).isSome = true) (hnow : now < Iso.maxMicros)
    (action : String) (detail : Json) (webhook : String) (payload : Json) :
    (giveUp task event action detail webhook payload (utcNowIso now)).wp (fun _ _ => True)
      (fun _ _ => False) (fun _ w => Passes db w ∧ Ended task.taskId w) db := by
  obtain ⟨row, hget⟩ := Option.isSome_iff_exists.mp hrow
  -- The rest writes an audit row and emits an event.
  have rest : ∀ w, Passes db w → Ended task.taskId w →
      ((do
        Prog.execute (.insertAudit
          { id := 0
            actorType := "system"
            actorId := some "background"
            action
            targetType := "task"
            targetId := some task.taskId
            detail
            createdAt := utcNowIso now })
        emitEvent webhook payload "warning") : Tx Unit).wp (fun _ _ => True) (fun _ _ => False)
        (fun _ w => Passes db w ∧ Ended task.taskId w) w := by
    intro w hw hended
    refine ⟨trivial, fun _ => ⟨hw.trans ⟨fun hread row hmem => ?_, fun _ => id, fun _ => id⟩, hended⟩⟩
    rcases mem_insertAudit hmem with hmem | rfl
    · exact hread row hmem
    · exact ⟨now, hnow, rfl⟩
  have found : ∀ (status : TaskStatus) (finishedAt : String), status.isTerminal = true →
      ((do
        Prog.execute (.task (.setBackground task.taskId status finishedAt))
        getTaskRow task.taskId) : Tx Task).wp (fun _ _ => True) (fun _ _ => False)
        (fun _ w => Passes db w ∧ Ended task.taskId w) db := by
    intro status finishedAt hstatus
    obtain ⟨hpass, hnew⟩ := setBackground_passes hget hstatus finishedAt
    rw [Prog.execute_bind, Prog.wp_write]
    refine ⟨trivial, ?_⟩
    rw [getTaskRow_wp, hnew]
    exact ⟨hpass, _, hnew, hstatus⟩
  rw [giveUp, Prog.wp_bind]
  refine Prog.wp_imp (show Prog.wp _ _ (fun _ w => Passes db w ∧ Ended task.taskId w) _ _ from ?_)
    fun _ w hw => rest w hw.1 hw.2
  rw [transitionTask, Prog.wp_bind, getTaskRow_wp, hget]
  rcases hevent with rfl | rfl
  · exact found .timeout _ rfl
  · exact found .lost _ rfl

/-- The scanner goes past every task it can scan, and ends those it finds only claimed. -/
theorem scanTask_wp {db : Db} (h : Scannable time task) (hdb : Readable db)
    (hrow : (db.tasks.get? task.taskId).isSome = true)
    (htime : time + maxTimeoutSec * 1000000 ≤ Iso.maxMicros)
    (hnow : time + longestSilence ≤ now) (hend : now < Iso.maxMicros) :
    (scanTask now (utcNowIso now) task).wp (fun _ _ => True) (fun _ _ => False)
      (fun _ w => Passes db w ∧ (task.status = .claimed → Ended task.taskId w)) db := by
  rw [scanTask, Prog.wp_bind]
  refine Prog.wp_imp (overdue_wp h hdb htime hnow) ?_
  rintro reason w ⟨rfl, hclaimed⟩
  have give : ∀ {event action detail webhook payload},
      (event = .backgroundTimeout ∨ event = .backgroundLost) →
      (giveUp task event action detail webhook payload (utcNowIso now)).wp (fun _ _ => True)
        (fun _ _ => False) (fun _ w' => Passes w w' ∧
          (task.status = .claimed → Ended task.taskId w')) w := fun hevent =>
    Prog.wp_imp (giveUp_wp hevent hrow hend _ _ _ _) fun _ _ hw => ⟨hw.1, fun _ => hw.2⟩
  cases reason with
  | none =>
      refine ⟨Passes.refl w, fun hc => ?_⟩
      cases hclaimed hc
  | some reason =>
      cases reason with
      | timeout => exact give (Or.inl rfl)
      | cancelAck | unresponsive | neverSeen => exact give (Or.inr rfl)

/-- A pass late enough raises nothing and ends every task that is only claimed. -/
theorem markLostTasks_wp {db : Db} (h : Dated time db)
    (htime : time + maxTimeoutSec * 1000000 ≤ Iso.maxMicros)
    (hnow : time + longestSilence ≤ now) (hend : now < Iso.maxMicros) :
    (markLostTasks now).wp (fun _ _ => True) (fun _ _ => False)
      (fun _ w => ∀ task ∈ activeTasks db, task.status = .claimed → Ended task.taskId w) db := by
  have hread : Readable db := fun row hrow => by
    obtain ⟨t, ht, hs⟩ := h.audits row hrow
    exact ⟨t, by omega, hs⟩
  rw [markLostTasks, Prog.wp_bind, Prog.wp_query]
  -- Of the tasks still to come all can be scanned, and the claimed ones before them have ended.
  refine Prog.wp_imp (Prog.wp_forEach (I := fun rest w => Readable w ∧
    (∀ task ∈ rest, Scannable time task ∧ (w.tasks.get? task.taskId).isSome = true) ∧
    ∀ task ∈ activeTasks db, task.status = .claimed → task ∈ rest ∨ Ended task.taskId w) ?_ ?_) ?_
  · rintro task rest w ⟨hread, hrest, hdone⟩
    obtain ⟨hscan, hrow⟩ := hrest task (List.mem_cons_self ..)
    refine Prog.wp_imp (scanTask_wp hscan hread hrow htime hnow hend) ?_
    rintro _ w' ⟨hpass, hended⟩
    refine ⟨hpass.readable hread, fun other hother => ?_, fun other hother hclaimed => ?_⟩
    · obtain ⟨hscan, hrow⟩ := hrest other (List.mem_cons_of_mem _ hother)
      exact ⟨hscan, hpass.present _ hrow⟩
    · rcases hdone other hother hclaimed with hmem | hdone
      · rcases List.mem_cons.mp hmem with rfl | hmem
        · exact Or.inr (hended hclaimed)
        · exact Or.inl hmem
      · exact Or.inr (hpass.ended _ hdone)
  · exact ⟨hread, fun task htask => h.scannable htask, fun task htask _ => Or.inl htask⟩
  · rintro _ w ⟨-, -, hdone⟩ task htask hclaimed
    exact (hdone task htask hclaimed).resolve_left List.not_mem_nil

end Scan

/-! ## No task is wedged -/

section Runs

variable (settings : Settings) (crypto : Crypto)

/-- What goes on without an administrator: heartbeats that report no active task, and passes
of the scanner. -/
def SystemOp.isTruthful : SystemOp → Bool
  | heartbeat _ payload _ => payload.activeTaskId.isNone
  | markLost _ => true
  | _ => false

/-- The response of a step carries the task. -/
def Step.sends (s : Step) (taskId : String) : Prop :=
  ∃ r, s.reply = .ok (some r) ∧ ∃ env ∈ r.tasks, env.taskId = taskId

/-- From `time` on, the claimed task is neither sent nor leaves `claimed`, whatever truthful
heartbeats and passes of the scanner come. -/
structure Wedged (db : Db) (x : World) (time : Nat) (taskId : String) : Prop where
  claimed : statusOf taskId db = some .claimed
  stays : ∀ later : List SystemOp,
    (∀ op ∈ later, op.isTruthful = true ∧ time ≤ op.now ∧ op.now < Iso.maxMicros) →
    later.Pairwise (fun a b => a.now ≤ b.now) → ∀ s ∈ steps settings crypto db x later,
      statusOf taskId s.after = some .claimed ∧ ¬ s.sends taskId

variable {settings crypto}

/-- After a run whose clock readings lie before `time`, and if year 9999 does not end within
the longest timeout, no claimed task is wedged. -/
theorem no_task_wedged {x : World} {ops : List SystemOp} {time : Nat}
    (hclock : ∀ op ∈ ops, op.now < time)
    (htime : time + maxTimeoutSec * 1000000 ≤ Iso.maxMicros) {s : Step}
    (hs : s ∈ steps settings crypto {} x ops) (x' : World) (taskId : String) :
    ¬ Wedged settings crypto s.after x' time taskId := by
  have hdated : Dated time s.after := by
    refine (steps_inv (I := Dated time) (C := fun s => s.op.now < time)
      (fun _ _ hruns hnow hs => Dated.step hruns hnow hs) ?_
      (fun s hs => hclock s.op (op_mem_of_mem hs)) hs).2
    constructor <;> intro row hrow <;> cases hrow
  intro hw
  obtain ⟨row, hrow, hclaimed⟩ := Option.map_eq_some_iff.mp hw.claimed
  have hmem : row ∈ s.after.tasks.rows := Table.get?_mem hrow
  obtain ⟨node, hnode⟩ := Option.isSome_iff_exists.mp (hdated.home row hmem)
  have hactive : activeTask row node ∈ activeTasks s.after := by
    refine List.mem_filterMap.mpr ⟨row, List.mem_filter.mpr ⟨hmem, ?_⟩, ?_⟩
    · rw [hclaimed]
      rfl
    · rw [hnode]
      rfl
  -- A single pass, three of the longest intervals later, is enough.
  have hend : time + longestSilence < Iso.maxMicros :=
    Nat.lt_of_lt_of_le (Nat.add_lt_add_left (by decide) time) htime
  have hpass : ((SystemOp.markLost (time + longestSilence)).code settings crypto).wp
      (fun _ _ => True) (fun _ _ => False) (fun _ w => Ended row.taskId w) s.after := by
    rw [SystemOp.code, silently, Prog.wp_bind]
    exact Prog.wp_imp (markLostTasks_wp hdated htime (Nat.le_refl _) hend)
      fun _ _ hw => hw _ hactive hclaimed
  obtain ⟨-, -, hended⟩ := hpass.returns x'
  have hstays := (hw.stays [.markLost (time + longestSilence)] (fun op hop => ?_)
    (List.pairwise_singleton _ _) _ (List.mem_singleton_self _)).1
  · obtain ⟨row', hrow', hterm⟩ := hended
    have hid : row.taskId = taskId := Table.get?_key hrow
    rw [hid] at hrow'
    obtain ⟨row'', hrow'', hstatus⟩ := Option.map_eq_some_iff.mp hstays
    rw [Option.some.inj (hrow'.symm.trans hrow''), hstatus] at hterm
    cases hterm
  · cases List.mem_singleton.mp hop
    exact ⟨rfl, Nat.le_add_right .., hend⟩

/-- A claim whose response is lost: the node goes on reporting no active task. -/
def claimLost : List SystemOp :=
  let admin : Admin := ⟨1, "admin"⟩
  [.createNode { nodeId := "n", displayName := "n" } ⟨"secret", "", ""⟩ admin 0,
    .createTask { nodeId := "n", type := .healthCheck, taskId := some "t" }
      { admin, review := none, freshTaskId := "", freshKey := "", now := 0, reviewedAt := 0 },
    .heartbeat "n" { bootId := "b" } 0, .heartbeat "n" { bootId := "b" } 5000000]

theorem no_task_wedged_claimLost :
    ∃ s ∈ steps {} plainCrypto {} {} claimLost, statusOf "t" s.after = some .claimed ∧
      ¬ Wedged {} plainCrypto s.after {} 6000000 "t" := by
  have hrun : (steps {} plainCrypto {} {} claimLost).any
      (fun s => statusOf "t" s.after = some .claimed) = true := by
    decide +kernel
  obtain ⟨s, hs, hclaimed⟩ := List.any_eq_true.mp hrun
  refine ⟨s, hs, of_decide_eq_true hclaimed, ?_⟩
  exact no_task_wedged (by decide) (by decide) hs {} "t"

end Runs

end GpuFleet
