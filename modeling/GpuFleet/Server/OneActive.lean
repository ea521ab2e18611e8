import GpuFleet.Server.Permitted

/-!
# One active task for each node

The statement that claims a task asks for a node none of whose tasks is
active.  The synchronisation of the task id a heartbeat reports does not: it
puts any pending task of the node into `claimed`, also beside an active one.

`one_active_iff` says that this is all.  In a run from a database without
tasks, every node has at most one active task after every step if and only if
no heartbeat reports a pending task of its node beside an active one.
-/

namespace GpuFleet

open Foundations

/-- Active tasks of one node are one task. -/
def OneActive (db : Db) : Prop :=
  ∀ a ∈ db.tasks.rows, ∀ b ∈ db.tasks.rows, a.nodeId = b.nodeId →
    a.status.isActive = true → b.status.isActive = true → a.taskId = b.taskId

instance (db : Db) : Decidable (OneActive db) :=
  inferInstanceAs (Decidable (∀ a ∈ db.tasks.rows, ∀ b ∈ db.tasks.rows, _))

/-- No task of the node is active. -/
def Idle (nodeId : String) (tasks : Table Task) : Prop :=
  ∀ row ∈ tasks.rows, row.nodeId = nodeId → row.status.isActive = false

/-- An enabled node reports the id of one of its pending tasks while another task of it is
active. -/
def ClaimsBeside (db : Db) : SystemOp → Prop
  | .heartbeat nodeId payload _ =>
      (db.nodes.get? nodeId).any Node.isEnabled = true ∧
      ∃ taskId row, payload.activeTaskId = some taskId ∧ taskId ≠ "" ∧
        db.tasks.get? taskId = some row ∧ row.nodeId = nodeId ∧ row.status = .pending ∧
        ¬ Idle nodeId db.tasks
  | _ => False

/-! ## Statements -/

/-- An update makes a row active only if it was, or if it is the only row selected and its
node is idle. -/
def Calm (q : TaskStmt) (tasks : Table Task) : Prop :=
  ∀ row ∈ tasks.rows, q.selects tasks row = true → (q.edit row).status.isActive = true →
    row.status.isActive = true ∨ (Idle row.nodeId tasks ∧
      ∀ other ∈ tasks.rows, q.selects tasks other = true → other.taskId = row.taskId)

/-- An active row after a calm update was active before, or it is the only row selected and
its node was idle. -/
theorem Calm.origin {q : TaskStmt} {tasks : Table Task} (h : Calm q tasks) {row' : Task}
    (hmem : ∃ row ∈ tasks.rows, (if q.selects tasks row then q.edit row else row) = row')
    (hactive : row'.status.isActive = true) :
    ∃ row ∈ tasks.rows, row.taskId = row'.taskId ∧ row.nodeId = row'.nodeId ∧
      (row.status.isActive = true ∨ (q.selects tasks row = true ∧ Idle row.nodeId tasks ∧
        ∀ other ∈ tasks.rows, q.selects tasks other = true → other.taskId = row.taskId)) := by
  obtain ⟨row, hrow, rfl⟩ := hmem
  obtain ⟨-, htask, hnode, -⟩ := q.edit_frame row
  cases hsel : q.selects tasks row with
  | false =>
      simp only [hsel] at hactive
      exact ⟨row, hrow, rfl, rfl, Or.inl hactive⟩
  | true =>
      simp only [hsel, if_true] at hactive ⊢
      refine ⟨row, hrow, htask.symm, hnode.symm, ?_⟩
      exact (h row hrow hsel hactive).imp id fun h => ⟨hsel, h⟩

theorem OneActive.calm {q : TaskStmt} {db : Db} (hdb : OneActive db)
    (hins : ∀ row, q ≠ .insert row) (h : Calm q db.tasks) :
    OneActive (Statement.apply (Dml.task q) db) := by
  intro a' ha' b' hb' hnode hactive hactive'
  rw [apply_tasks_task] at ha' hb'
  obtain ⟨a, ha, hid, hn, hfrom⟩ := h.origin ((TaskStmt.mem_apply hins).mp ha') hactive
  obtain ⟨b, hb, hid', hn', hfrom'⟩ := h.origin ((TaskStmt.mem_apply hins).mp hb') hactive'
  have hab : a.nodeId = b.nodeId := by rw [hn, hn', hnode]
  rw [← hid, ← hid']
  rcases hfrom with hact | ⟨hsel, hidle, honly⟩
  · rcases hfrom' with hact' | ⟨-, hidle, -⟩
    · exact hdb a ha b hb hab hact hact'
    · rw [hidle a ha hab] at hact
      cases hact
  · rcases hfrom' with hact' | ⟨hsel', -, -⟩
    · rw [hidle b hb hab.symm] at hact'
      cases hact'
    · exact (honly b hb hsel').symm

/-- The claim finds an idle node, and selects one task of it. -/
theorem calm_claimNext (nodeId claimedAt : String) (tasks : Table Task) :
    Calm (.claimNext nodeId claimedAt) tasks := by
  intro row hrow hsel _
  right
  simp only [TaskStmt.selects, nextPending] at hsel
  split at hsel
  · simp at hsel
  · rename_i hidle
    obtain ⟨t, ht, hid⟩ := (Option.any_eq_true ..).mp (Bool.and_eq_true .. |>.mp hsel).1
    have hid : t.taskId = row.taskId := by simpa using hid
    obtain ⟨hmem, hpick⟩ := List.mem_filter.mp (firstBy_mem ht)
    have hnode : t.nodeId = nodeId := by
      simp only [Bool.and_eq_true, decide_eq_true_eq] at hpick
      exact hpick.1
    have hrt : t = row := List.inj_on_of_nodup_map tasks.unique hmem hrow hid
    subst hrt
    refine ⟨fun other hother hn => ?_, fun other _ hsel' => ?_⟩
    · rw [hnode] at hn
      simp only [List.any_eq_true, not_exists, not_and] at hidle
      simpa [hn] using hidle other hother
    · simp only [TaskStmt.selects, nextPending, if_neg hidle, ht] at hsel'
      have hid' := (Bool.and_eq_true .. |>.mp hsel').1
      exact (by simpa using hid' : t.taskId = other.taskId).symm

/-- A statement that an operation may execute is calm, unless it claims a task beside another. -/
theorem calm_of_permitted {op : SystemOp} {start : Db} {q : TaskStmt} {tasks : Table Task}
    (h : PermittedTask op start q) (htasks : tasks = start.tasks ∨ q.isPass = true)
    (hbeside : ¬ ClaimsBeside start op) : Calm q tasks := by
  -- The row an operation has read is the row its update selects.
  have read : ∀ {taskId row old}, start.tasks.get? taskId = some old → tasks = start.tasks →
      row ∈ tasks.rows → row.taskId = taskId → row = old := by
    intro taskId row old hold htasks hrow hid
    rw [htasks] at hrow
    exact Table.eq_of_get? hold hrow hid
  intro row hrow hsel hactive
  cases q with
  | insert _ => cases hsel
  | setEvent taskId =>
      obtain ⟨old, e, hold, hacc, -, -⟩ := h
      have hid : row.taskId = taskId := by simpa [TaskStmt.selects] using hsel
      rw [read hold (htasks.resolve_right Bool.false_ne_true) hrow hid]
      exact Or.inl (isActive_of_taskEventTransitions hacc)
  | setCancelled => cases hactive
  | setCancelRequested taskId =>
      obtain ⟨⟨old, hold, hact⟩, -⟩ := h
      have hid : row.taskId = taskId := by simpa [TaskStmt.selects] using hsel
      rw [read hold (htasks.resolve_right Bool.false_ne_true) hrow hid]
      exact Or.inl hact
  | setEscalated => exact Or.inl hactive
  | setApproved | setRejected | setReviewExpired => cases hactive
  | setBackground taskId status =>
      rcases h.1 with rfl | rfl <;> cases hactive
  | setResult taskId status =>
      cases status <;> cases hactive
  | claimNext nodeId claimedAt => exact calm_claimNext nodeId claimedAt tasks row hrow hsel hactive
  | setReported taskId =>
      obtain ⟨-, old, payload, now, rfl, henabled, hreport, hne, hold, hpending⟩ := h
      have hid : ∀ other : Task, decide (other.taskId = taskId) = true → other.taskId = taskId :=
        fun other => of_decide_eq_true
      have htasks := htasks.resolve_right Bool.false_ne_true
      rw [read hold htasks hrow (hid row hsel)]
      refine Or.inr ⟨?_, fun other _ hsel' => (hid other hsel').trans (Table.get?_key hold).symm⟩
      by_contra hidle
      rw [htasks] at hidle
      exact hbeside ⟨henabled, taskId, old, hreport, hne, hold, rfl, hpending, hidle⟩

theorem oneActive_apply {op : SystemOp} {start db : Db} {q : Dml}
    (h : Permitted op start q db) (hbeside : ¬ ClaimsBeside start op) (hdb : OneActive db) :
    OneActive (Statement.apply q db) := by
  by_cases hq : ∃ t, q = .task t
  · obtain ⟨t, rfl⟩ := hq
    by_cases hins : ∃ row, t = .insert row
    · obtain ⟨row, rfl⟩ := hins
      obtain ⟨⟨payload, ctx, taskId, key, -, -, -, -, rfl⟩, -⟩ := h
      -- Rows that are active were there before.
      have old : ∀ {a : Task}, a ∈ ((TaskStmt.insert (newTask payload (admissionOf payload.type
          ctx.review (utcNowIso ctx.now) (utcNowIso ctx.reviewedAt)) taskId key ctx.admin
          (utcNowIso ctx.now))).apply db.tasks).rows → a.status.isActive = true →
          a ∈ db.tasks.rows := by
        intro a ha hact
        rcases TaskStmt.mem_insert ha with ha | rfl
        · exact ha
        · simp [Task.inserted, newTask, admissionOf_not_active] at hact
      exact fun a ha b hb hnode hact hact' =>
        hdb a (old ha hact) b (old hb hact') hnode hact hact'
    · exact hdb.calm (fun row e => hins ⟨row, e⟩) (calm_of_permitted h.1 h.2 hbeside)
  · intro a ha b hb
    rw [apply_tasks db fun t e => hq ⟨t, e⟩] at ha hb
    exact hdb a ha b hb

/-! ## Runs -/

section Runs

variable {settings : Settings} {crypto : Crypto}

/-- A heartbeat that reports a pending task of its node claims it. -/
theorem heartbeat_claims {start : Db} {keep : Nat} {nodeId : String} {node : Node}
    {payload : HeartbeatRequest} {now : Nat} {taskId : String} {row : Task}
    (hreport : payload.activeTaskId = some taskId) (hne : taskId ≠ "")
    (hrow : start.tasks.get? taskId = some row) (hnode : row.nodeId = nodeId)
    (hpending : row.status = .pending) :
    (heartbeat keep nodeId node payload now).wp (fun _ _ => True) (fun _ _ => False)
      (fun _ w => w.tasks = (TaskStmt.setReported taskId (utcNowIso now)).apply start.tasks)
      start := by
  simp only [heartbeat, Prog.execute_bind, Prog.wp_write]
  refine ⟨trivial, trivial, trivial, ?_⟩
  have hsync : ∀ w : Db, w.tasks = start.tasks →
      (syncReportedActiveTask nodeId payload.activeTaskId (utcNowIso now)).wp (fun _ _ => True)
        (fun _ _ => False)
        (fun r w => r.isSome = true ∧
          w.tasks = (TaskStmt.setReported taskId (utcNowIso now)).apply start.tasks) w := by
    intro w hw
    simp only [syncReportedActiveTask, hreport, if_neg hne, Prog.query_bind, Prog.wp_select, hw,
      hrow, Option.filter_some, hnode, decide_true, if_true, hpending, Prog.execute_bind,
      Prog.wp_write, Prog.wp_query, apply_tasks_task, TaskStmt.get?_setReported _ hrow]
    simp [TaskStmt.edit, hnode]
  rw [Prog.wp_bind]
  refine Prog.wp_imp (hsync _ rfl) ?_
  rintro r w ⟨hr, hw⟩
  cases r with
  | none => cases hr
  | some row => exact ⟨trivial, fun _ => hw⟩

/-- After a heartbeat that claims a task beside an active one, two tasks are active. -/
theorem not_oneActive_of_claimsBeside {s : Step} {x : World} (h : s.Runs settings crypto x)
    (hbeside : ClaimsBeside s.before s.op) : ¬ OneActive s.after := by
  obtain ⟨db, op, reply, after⟩ := s
  cases op with
  | heartbeat nodeId payload now =>
      obtain ⟨henabled, taskId, row, hreport, hne, hrow, hnode, hpending, hactive⟩ := hbeside
      have hcode : (SystemOp.code settings crypto (.heartbeat nodeId payload now)).wp
          (fun _ _ => True) (fun _ _ => False)
          (fun _ w => w.tasks = (TaskStmt.setReported taskId (utcNowIso now)).apply db.tasks) db := by
        obtain ⟨node, hget, hen⟩ := (Option.any_eq_true ..).mp henabled
        rw [SystemOp.code, asNode, Prog.wp_bind, Prog.wp_query, hget, Option.filter_some, if_pos hen]
        simp only
        rw [Prog.wp_bind]
        exact heartbeat_claims hreport hne hrow hnode hpending
      obtain ⟨-, -, hafter⟩ := hcode.returns x
      rw [← h.after] at hafter
      obtain ⟨other, hother, hon, hact⟩ : ∃ other ∈ db.tasks.rows, other.nodeId = nodeId ∧
          other.status.isActive = true := by
        simpa [Idle] using hactive
      have hid : row.taskId = taskId := Table.get?_key hrow
      have hdiff : other.taskId ≠ taskId := by
        intro he
        rw [Table.eq_of_get? hrow hother he, hpending] at hact
        cases hact
      -- The reported row is claimed now, and the active one is as it was.
      have hq : ∀ row, TaskStmt.setReported taskId (utcNowIso now) ≠ .insert row := by
        intro _ h; cases h
      have hclaimed : (TaskStmt.setReported taskId (utcNowIso now)).edit row ∈ after.tasks.rows := by
        rw [hafter]
        exact Table.get?_mem (TaskStmt.get?_setReported _ hrow)
      have hkept : other ∈ after.tasks.rows := by
        rw [hafter]
        exact (TaskStmt.mem_apply hq).mpr ⟨other, hother, if_neg (by simpa [TaskStmt.selects])⟩
      intro hone
      refine hdiff ?_
      exact (hone other hkept _ hclaimed (hon.trans hnode.symm) hact rfl).trans hid
  | _ => exact hbeside.elim

/-- In a run from a database without tasks, every node has at most one active task after
every step if and only if no heartbeat claims a task beside an active one. -/
theorem one_active_iff (nodes : Table Node) (x : World) (ops : List SystemOp) :
    (∀ s ∈ steps settings crypto { nodes } x ops, OneActive s.after) ↔
      ∀ s ∈ steps settings crypto { nodes } x ops, ¬ ClaimsBeside s.before s.op := by
  constructor
  · intro hone s hs hbeside
    obtain ⟨x', hruns⟩ := runs_of_mem hs
    exact not_oneActive_of_claimsBeside hruns hbeside (hone s hs)
  · intro hcond s hs
    have hstart : OneActive { nodes } := by
      intro a ha
      cases ha
    exact (steps_inv (fun _ _ hruns hbeside => hruns.keeps fun _ _ hq => oneActive_apply hq hbeside)
      hstart hcond hs).2

end Runs

/-- Two tasks of one node.  A first heartbeat claims the one, a second reports the other. -/
def reportPending : List SystemOp :=
  let admin : Admin := ⟨1, "admin"⟩
  let create := fun (taskId : String) =>
    SystemOp.createTask { nodeId := "n", type := .healthCheck, taskId := some taskId }
      { admin, review := none, freshTaskId := "", freshKey := "", now := 0, reviewedAt := 0 }
  [.createNode { nodeId := "n", displayName := "n" } ⟨"secret", "", ""⟩ admin 0,
    create "t1", create "t2", .heartbeat "n" { bootId := "b" } 0,
    .heartbeat "n" { bootId := "b", activeTaskId := some "t2" } 0]

/-- From the empty database a node gets two active tasks. -/
theorem two_active :
    ¬ ∀ (settings : Settings) (crypto : Crypto) (x : World) (ops : List SystemOp),
      ∀ s ∈ steps settings crypto {} x ops, OneActive s.after := by
  intro h
  have hrun : (steps {} plainCrypto {} {} reportPending).all (fun s => OneActive s.after) =
      false := by
    decide +kernel
  rw [List.all_eq_false] at hrun
  obtain ⟨s, hs, hnot⟩ := hrun
  exact hnot (decide_eq_true (h {} plainCrypto {} reportPending s hs))

end GpuFleet
