import GpuFleet.Server.Outcomes

/-!
# Tasks and their last attempts

A node's events and results write the status of a task and of its last attempt
together.  The scanner, which ends tasks on its own, writes the task only, so
the attempt of a task it gives up keeps the status of the last report
(`lost_while_running`).

In a run in which the scanner gives up no task with an attempt, the last
attempt of every terminal task has the task's status in every state
(`attempts_agree`).  The invariant also says that a task has no attempt before
it is claimed, which covers the updates that end a waiting task.
-/

namespace GpuFleet

open Foundations

/-- The task waits for its review or for its claim. -/
def TaskStatus.isWaiting : TaskStatus → Bool
  | .reviewing | .pending => true
  | _ => false

/-- The last attempts of terminal tasks have the status of their tasks. -/
def AttemptsAgree (db : Db) : Prop :=
  ∀ row ∈ db.tasks.rows, row.status.isTerminal = true →
    ∀ a ∈ latestAttempt row.taskId db, a.status = row.status.text

instance (db : Db) : Decidable (AttemptsAgree db) :=
  inferInstanceAs (Decidable (∀ row ∈ db.tasks.rows, row.status.isTerminal = true →
    ∀ a ∈ latestAttempt row.taskId db, a.status = row.status.text))

/-- What a run keeps of tasks and attempts. -/
structure Reported (db : Db) : Prop where
  agree : AttemptsAgree db
  /-- A task with an attempt does not wait. -/
  started : ∀ a ∈ db.attempts.rows, ∃ row, db.tasks.get? a.taskId = some row ∧
    row.status.isWaiting = false

/-- The scanner gives the task up. -/
def givesUp (task : ActiveTask) (now : Nat) (db : Db) : Bool :=
  match (overdue task now).resultOf db {} with
  | .ok (some _) => true
  | _ => false

/-- The operation is no pass of the scanner that gives up a task with an attempt. -/
def SystemOp.Spares (db : Db) : SystemOp → Prop
  | markLost now => ∀ a ∈ db.attempts.rows, ∀ task ∈ activeTasks db, task.taskId = a.taskId →
      givesUp task now db = false
  | _ => True

instance (db : Db) : (op : SystemOp) → Decidable (op.Spares db)
  | .markLost now => inferInstanceAs (Decidable (∀ a ∈ db.attempts.rows,
      ∀ task ∈ activeTasks db, task.taskId = a.taskId → givesUp task now db = false))
  | .createNode .. | .updateNode .. | .setNodeEnabled .. | .resetSecret ..
  | .regenerateOnboarding .. | .createTask .. | .cancel .. | .escalate .. | .approve ..
  | .reject .. | .heartbeat .. | .event .. | .result .. | .expireReviews _ => isTrue trivial

namespace Reported

variable {db db' : Db}

/-- A waiting task has no attempt. -/
theorem unattempted (h : Reported db) {row : Task} (hrow : row ∈ db.tasks.rows)
    (hwait : row.status.isWaiting = true) : ∀ a ∈ db.attempts.rows, a.taskId ≠ row.taskId := by
  intro a ha hid
  obtain ⟨row', hrow', hnot⟩ := h.started a ha
  rw [hid] at hrow'
  cases (Table.get?_of_mem hrow).symm.trans hrow'
  rw [hwait] at hnot
  cases hnot

/-- An update of the tasks, when it selects tasks without attempts only, or leaves their
status, or makes them active. -/
theorem update {t : TaskStmt} (h : Reported db) (hins : ∀ row, t ≠ .insert row)
    (htasks : db'.tasks = t.apply db.tasks) (hattempts : db'.attempts = db.attempts)
    (hsel : ∀ row ∈ db.tasks.rows, t.selects db.tasks row = true →
      (∀ a ∈ db.attempts.rows, a.taskId ≠ row.taskId) ∨ (t.edit row).status = row.status ∨
        (t.edit row).status.isActive = true) : Reported db' := by
  have hlatest : ∀ id, latestAttempt id db' = latestAttempt id db := by
    intro id
    rw [latestAttempt, hattempts, latestAttempt]
  refine ⟨fun row' hrow' hterm a ha => ?_, fun a ha => ?_⟩
  · rw [htasks, TaskStmt.mem_apply hins] at hrow'
    obtain ⟨row, hrow, rfl⟩ := hrow'
    rw [hlatest] at ha
    by_cases hs : t.selects db.tasks row = true
    · rw [if_pos hs] at hterm ha ⊢
      rw [(t.edit_frame row).2.1] at ha
      rcases hsel row hrow hs with hnone | hsame | hactive
      · exact absurd (latestAttempt_mem ha).2 (hnone a (latestAttempt_mem ha).1)
      · rw [hsame] at hterm ⊢
        exact h.agree row hrow hterm a ha
      · rw [not_isTerminal_of_isActive hactive] at hterm
        cases hterm
    · rw [if_neg hs] at hterm ha ⊢
      exact h.agree row hrow hterm a ha
  · rw [hattempts] at ha
    obtain ⟨row, hrow, hnot⟩ := h.started a ha
    rw [htasks, TaskStmt.get?_apply hins, hrow]
    refine ⟨_, rfl, ?_⟩
    simp only
    split
    · rename_i hs
      have hid : row.taskId = a.taskId := Table.get?_key hrow
      rcases hsel row (Table.get?_mem hrow) hs with hnone | hsame | hactive
      · exact absurd hid.symm (hnone a ha)
      · rw [hsame]
        exact hnot
      · cases hstatus : (t.edit row).status <;> rw [hstatus] at hactive <;> first | rfl | cases hactive
    · exact hnot

/-- A report on an active task, which writes the status of the task and of its last
attempt. -/
theorem report {t : TaskStmt} {taskId nodeId : String} {args : AttemptArgs} {old : Task}
    {status : TaskStatus} (h : Reported db) (hins : ∀ row, t ≠ .insert row)
    (hold : db.tasks.get? taskId = some old) (hsel : t.selects db.tasks old = true)
    (honly : ∀ row, t.selects db.tasks row = true → row.taskId = taskId)
    (hstatus : ∀ row, (t.edit row).status = status) (hwait : status.isWaiting = false)
    (htasks : db'.tasks = t.apply db.tasks)
    (hattempts : db'.attempts = reportAttempt taskId nodeId status.text args db) :
    Reported db' := by
  have hget := TaskStmt.get?_apply hins db.tasks
  rw [← htasks] at hget
  have hnew : db'.tasks.get? taskId = some (t.edit old) := by
    rw [hget, hold, Option.map_some, if_pos hsel]
  have hkey : old.taskId = taskId := Table.get?_key hold
  refine ⟨fun row' hrow' hterm a ha => ?_, fun a ha => ?_⟩
  · by_cases hid : row'.taskId = taskId
    · rw [hid, latestAttempt_report hattempts] at ha
      rw [Table.eq_of_get? hnew hrow' hid, hstatus]
      cases ha
      cases latestAttempt taskId db <;> rfl
    · rw [latestAttempt_report_of_ne hid hattempts] at ha
      rw [htasks, TaskStmt.mem_apply hins] at hrow'
      obtain ⟨row, hrow, rfl⟩ := hrow'
      have hns : ¬ t.selects db.tasks row = true := by
        intro hs
        rw [if_pos hs, (t.edit_frame row).2.1] at hid
        exact hid (honly row hs)
      rw [if_neg hns] at hterm ha ⊢
      exact h.agree row hrow hterm a ha
  · by_cases hid : a.taskId = taskId
    · refine ⟨t.edit old, by rw [hid]; exact hnew, ?_⟩
      rw [hstatus]
      exact hwait
    · have hmem : a ∈ db.attempts.rows := by
        rcases mem_reportAttempt hattempts ha with hmem | hlast
        · exact hmem
        · exact absurd (latestAttempt_mem hlast).2 hid
      obtain ⟨row, hrow, hnot⟩ := h.started a hmem
      rw [hget, hrow]
      refine ⟨_, rfl, ?_⟩
      simp only
      rw [if_neg]
      · exact hnot
      · intro hs
        have hkey : row.taskId = a.taskId := Table.get?_key hrow
        exact hid (hkey.symm.trans (honly row hs))

end Reported

section Steps

variable {settings : Settings} {crypto : Crypto} {s : Step} {x : World}

/-- A permitted statement that is no report and does not come from a pass of the scanner. -/
theorem reported_apply {op : SystemOp} {start db : Db} {q : Dml} (h : Permitted op start q db)
    (hk : ∀ k ∈ q.kind, k.isReport = false ∧ k ≠ .background) (hdb : Reported db) :
    Reported (Statement.apply q db) := by
  by_cases hq : ∃ t, q = .task t
  · obtain ⟨t, rfl⟩ := hq
    by_cases hins : ∃ row, t = .insert row
    · obtain ⟨new, rfl⟩ := hins
      obtain ⟨⟨payload, ctx, taskId, key, -, -, hfree, -, rfl⟩, hsame⟩ := h
      rw [← hsame.resolve_right nofun] at hfree
      refine ⟨fun row hrow hterm a ha => ?_, fun a ha => ?_⟩
      · rcases TaskStmt.mem_insert hrow with hrow | rfl
        · exact hdb.agree row hrow hterm a ha
        -- The id was free, so there is no attempt of the new task.
        · obtain ⟨hmem, hid⟩ := latestAttempt_mem ha
          obtain ⟨old, hold, -⟩ := hdb.started a hmem
          rw [hid] at hold
          cases hfree.symm.trans hold
      · obtain ⟨row, hrow, hnot⟩ := hdb.started a ha
        exact ⟨row, TaskStmt.get?_insert_of_some hrow, hnot⟩
    · refine hdb.update (t := t) (fun row e => hins ⟨row, e⟩) rfl rfl fun row hrow hsel => ?_
      cases t with
      | insert row => exact absurd ⟨row, rfl⟩ hins
      | setEvent | setCancelled | setCancelRequested | setResult => cases (hk _ rfl).1
      | setBackground => exact absurd rfl (hk _ rfl).2
      | setEscalated => exact Or.inr (Or.inl rfl)
      | setApproved | setRejected | setReviewExpired | claimNext =>
          simp only [TaskStmt.selects, Bool.and_eq_true, decide_eq_true_eq] at hsel
          exact Or.inl (hdb.unattempted hrow (by rw [hsel.2]; rfl))
      | setReported id claimedAt => exact Or.inr (Or.inr rfl)
  · have hsame : (Statement.apply q db).tasks = db.tasks := apply_tasks db fun t e => hq ⟨t, e⟩
    have hattempts : (Statement.apply q db).attempts = db.attempts := by
      cases q with
      | attempt q => cases (hk _ rfl).1
      | _ => rfl
    have hlatest : ∀ id, latestAttempt id (Statement.apply q db) = latestAttempt id db := by
      intro id
      rw [latestAttempt, hattempts, latestAttempt]
    refine ⟨fun row hrow hterm a ha => ?_, fun a ha => ?_⟩
    · rw [hsame] at hrow
      rw [hlatest] at ha
      exact hdb.agree row hrow hterm a ha
    · rw [hattempts] at ha
      rw [hsame]
      exact hdb.started a ha

/-! ## Passes of the scanner -/

/-- The cancellations of a task that the scanner looks through. -/
def cancelAudits (taskId : String) (db : Db) : List AuditEvent :=
  db.audits.select fun row =>
    row.action = "cancel_task" && row.targetType = "task" && row.targetId = some taskId

theorem readsAlike_ofExcept {α : Type} {r : Except Exc α} {db start : Db} :
    (ofExcept r).ReadsAlike db start := by
  cases r <;> trivial

/-- The verdict on a task depends on its cancellations only. -/
theorem overdue_readsAlike {task : ActiveTask} {now : Nat} {db start : Db}
    (h : cancelAudits task.taskId db = cancelAudits task.taskId start) :
    (overdue task now).ReadsAlike db start := by
  refine readsAlike_ofExcept.bind fun timedOut => ?_
  split
  · trivial
  · split
    · refine Prog.ReadsAlike.bind (p := latestCancelRequestedAt task.taskId) ?_ fun _ => trivial
      refine Prog.ReadsAlike.bind (Prog.readsAlike_query (congrArg _ h)) fun row => ?_
      cases row with
      | none => trivial
      | some row => exact readsAlike_ofExcept
    · exact readsAlike_ofExcept.bind fun _ => trivial

/-- What a pass that began on a database keeps. -/
structure Scanned (start db : Db) : Prop where
  reported : Reported db
  attempts : db.attempts = start.attempts
  cancels : ∀ id, cancelAudits id db = cancelAudits id start

/-- The statements of a pass that gives up no task with an attempt. -/
def GivesUp (start : Db) : Dml → Db → Prop
  | .task (.setBackground taskId ..), _ => ∀ a ∈ start.attempts.rows, a.taskId ≠ taskId
  | .insertAudit row, _ => row.action ≠ "cancel_task"
  | _, _ => False

theorem Scanned.apply {start db : Db} {q : Dml} (hq : GivesUp start q db) (h : Scanned start db) :
    Scanned start (Statement.apply q db) := by
  cases q with
  | task t =>
      cases t with
      | setBackground taskId status finishedAt =>
          refine ⟨h.reported.update (t := .setBackground taskId status finishedAt)
            (by intro _ h; cases h) rfl rfl fun row _ hsel => Or.inl ?_, h.attempts, h.cancels⟩
          rw [h.attempts, show row.taskId = taskId from of_decide_eq_true hsel]
          exact hq
      | _ => exact False.elim hq
  | insertAudit row =>
      refine ⟨⟨h.reported.agree, h.reported.started⟩, h.attempts, fun id => ?_⟩
      have hq : row.action ≠ "cancel_task" := hq
      rw [← h.cancels id, cancelAudits, Table.select, rows_insertAudit, List.filter_append]
      simp only [List.filter_cons, hq, decide_false, Bool.false_and, Bool.false_eq_true, if_false,
        List.filter_nil, List.append_nil]
      rfl
  | _ => exact False.elim hq

/-- Giving a task up. -/
theorem giveUp_wp_of {P : Dml → Db → Prop} {task : ActiveTask} {event : TransitionEvent}
    {action webhook nowIso : String} {detail payload : Json} {db : Db}
    (hevent : event = .backgroundTimeout ∨ event = .backgroundLost)
    (htask : ∀ status finishedAt w, P (.task (.setBackground task.taskId status finishedAt)) w)
    (haudit : ∀ row w, row.action = action → P (.insertAudit row) w) :
    (giveUp task event action detail webhook payload nowIso).wp P (fun _ _ => True)
      (fun _ _ => True) db := by
  have rest : ∀ w, ((do
      Prog.execute (.insertAudit
        { id := 0
          actorType := "system"
          actorId := some "background"
          action
          targetType := "task"
          targetId := some task.taskId
          detail
          createdAt := nowIso })
      emitEvent webhook payload "warning") : Tx Unit).wp P (fun _ _ => True) (fun _ _ => True) w :=
    fun w => ⟨haudit _ w rfl, fun _ => trivial⟩
  have found : ∀ (status : TaskStatus) (finishedAt : String) (w : Db), ((do
      Prog.execute (.task (.setBackground task.taskId status finishedAt))
      getTaskRow task.taskId) : Tx Task).wp P (fun _ _ => True) (fun _ _ => True) w := by
    intro status finishedAt w
    refine ⟨htask status finishedAt w, ?_⟩
    show (getTaskRow task.taskId).wp P (fun _ _ => True) (fun _ _ => True) _
    rw [getTaskRow_wp]
    split <;> trivial
  rw [giveUp, Prog.wp_bind]
  refine Prog.wp_imp ?_ fun _ w (_ : True) => rest w
  rw [transitionTask, Prog.wp_bind, getTaskRow_wp]
  cases db.tasks.get? task.taskId with
  | none => trivial
  | some row => rcases hevent with rfl | rfl <;> exact found _ _ _

/-- A pass executes these statements only, when it gives up no task with an attempt. -/
theorem markLostTasks_givesUp {now : Nat} {start : Db} (hstart : Reported start)
    (hspares : (SystemOp.markLost now).Spares start) :
    (markLostTasks now).wp (GivesUp start) (fun _ _ => True) (fun _ _ => True) start := by
  have scan : ∀ task ∈ activeTasks start, ∀ w, Scanned start w →
      (scanTask now (utcNowIso now) task).wp (GivesUp start) (fun _ _ => True) (fun _ _ => True)
        w := by
    intro task htask w hw
    rw [scanTask, Prog.wp_bind]
    refine Prog.wp_imp ((overdue_readsAlike (hw.cancels task.taskId)).wp {}) ?_
    rintro r _ ⟨rfl, hr⟩
    have hfree : r.isSome = true → ∀ a ∈ start.attempts.rows, a.taskId ≠ task.taskId := by
      intro hsome a ha hid
      have hnot := hspares a ha task htask hid.symm
      cases r with
      | none => cases hsome
      | some r =>
          rw [givesUp, hr] at hnot
          cases hnot
    cases r with
    | none => trivial
    | some r =>
        cases r with
        | timeout =>
            exact giveUp_wp_of (Or.inl rfl) (fun _ _ _ => hfree rfl)
              fun row w hrow => by show row.action ≠ _; rw [hrow]; decide
        | cancelAck | unresponsive | neverSeen =>
            exact giveUp_wp_of (Or.inr rfl) (fun _ _ _ => hfree rfl)
              fun row w hrow => by show row.action ≠ _; rw [hrow]; decide
  rw [markLostTasks, Prog.wp_bind, Prog.wp_query]
  refine Prog.wp_imp (Prog.wp_forEach
    (I := fun rest w => Scanned start w ∧ ∀ task ∈ rest, task ∈ activeTasks start)
    (fun task rest w hw => ?_) ⟨⟨hstart, rfl, fun _ => rfl⟩, fun _ => id⟩) fun _ _ _ => trivial
  obtain ⟨hscanned, hrest⟩ := hw
  have hbody := Prog.wp_inv (scan task (hrest task (List.mem_cons_self ..)) w hscanned)
    (fun q w hq hI => Scanned.apply hq hI) hscanned
  exact Prog.wp_mono hbody (fun _ _ => id) (fun _ _ _ => trivial)
    fun _ w' hw' => ⟨hw'.2, fun other hother => hrest other (List.mem_cons_of_mem _ hother)⟩

/-! ## Runs -/

/-- What every step keeps that is no pass giving up a task with an attempt. -/
theorem Step.Runs.reported (h : s.Runs settings crypto x) (hspares : s.op.Spares s.before)
    (hs : Reported s.before) : Reported s.after := by
  by_cases hop : ∃ now, s.op = .markLost now
  · obtain ⟨now, hop⟩ := hop
    rw [hop] at hspares
    have hwp : (s.op.code settings crypto).wp (GivesUp s.before) (fun _ _ => True)
        (fun _ _ => True) s.before := by
      rw [hop, SystemOp.code, silently, Prog.wp_bind]
      exact markLostTasks_givesUp hs hspares
    rw [h.after]
    exact (hwp.dbAfter (I := Scanned s.before) x (fun q w hq => Scanned.apply hq)
      ⟨hs, rfl, fun _ => rfl⟩).reported
  · refine h.keeps_cases hs ?_ ?_ ?_ fun q w hq hk hw => ?_
    · rintro nodeId payload now - ⟨old, args, hold, -, hacc, -, hafter⟩
      have hkey : old.taskId = payload.taskId := Table.get?_key hold
      exact hs.report (t := eventStmt payload old now) (by intro _ h; cases h) hold
        (decide_eq_true hkey) (fun row h => of_decide_eq_true h) (fun _ => rfl)
        (by cases payload.event <;> rfl) (congrArg Db.tasks hafter) (congrArg Db.attempts hafter)
    · rintro nodeId payload now - ⟨old, sa, fa, na, args, hold, -, hactive, hlock, -, -, hafter⟩
      have hkey : old.taskId = payload.taskId := Table.get?_key hold
      refine hs.report (t := .setResult payload.taskId payload.finalStatus sa fa na)
        (by intro _ h; cases h) hold ?_ (fun row h => ?_) (fun _ => rfl)
        (by cases payload.finalStatus <;> rfl) (congrArg Db.tasks hafter)
        (congrArg Db.attempts hafter)
      · simp only [TaskStmt.selects, hkey, hlock, hactive, decide_true, Option.isNone_none,
          Bool.and_self]
      · simp only [TaskStmt.selects, Bool.and_eq_true, decide_eq_true_eq] at h
        exact h.1.1
    · rintro id admin now - ⟨hattempts, old, hold, ⟨hpending, hafter⟩ | ⟨-, hafter⟩⟩
      · refine hs.update (by intro _ h; cases h) hafter hattempts fun row hrow hsel => Or.inl ?_
        have hid : row.taskId = id := of_decide_eq_true hsel
        rw [Table.eq_of_get? hold hrow hid]
        exact hs.unattempted (Table.get?_mem hold) (by rw [hpending]; rfl)
      · exact hs.update (by intro _ h; cases h) hafter hattempts fun _ _ _ => Or.inr (Or.inr rfl)
    · refine reported_apply hq (fun k hkq => ⟨(hk k hkq).2, ?_⟩) hw
      rintro rfl
      have hmem := (hk _ hkq).1
      cases hcase : s.op with
      | markLost now => exact hop ⟨now, hcase⟩
      | _ =>
          rw [hcase] at hmem
          simp [SystemOp.kinds] at hmem

/-- In every run from the empty database in which the scanner gives up no task with an attempt,
the last attempt of every terminal task has the status of the task in every state. -/
theorem attempts_agree {x : World} {ops : List SystemOp}
    (hspares : ∀ s ∈ steps settings crypto {} x ops, s.op.Spares s.before)
    (hs : s ∈ steps settings crypto {} x ops) : AttemptsAgree s.before ∧ AttemptsAgree s.after := by
  have hstart : Reported {} := by
    constructor
    · intro row hrow
      cases hrow
    · intro a ha
      cases ha
  have h := steps_inv (fun _ _ hruns hc hs => hruns.reported hc hs) hstart hspares hs
  exact ⟨h.1.agree, h.2.agree⟩

end Steps

/-- A task from its claim to its result. -/
theorem attempts_agree_claimTask :
    (finish {} plainCrypto {} {} (claimTask ++
        [.event "n" { taskId := "t", event := .running } 0,
          .result "n" { taskId := "t", finalStatus := .succeeded } 0,
          .markLost 0])).1.attempts.rows ≠ [] ∧
      ∀ s ∈ steps {} plainCrypto {} {} (claimTask ++
          [.event "n" { taskId := "t", event := .running } 0,
            .result "n" { taskId := "t", finalStatus := .succeeded } 0, .markLost 0]),
        AttemptsAgree s.before ∧ AttemptsAgree s.after := by
  refine ⟨by decide +kernel, ?_⟩
  intro s hs
  exact attempts_agree (by decide +kernel) hs

/-- The scanner gives up a running task, and its attempt keeps running. -/
theorem lost_while_running :
    ¬ ∀ (settings : Settings) (crypto : Crypto) (x : World) (ops : List SystemOp),
      ∀ s ∈ steps settings crypto {} x ops, AttemptsAgree s.after := by
  intro h
  have hrun : (steps {} plainCrypto {} {} (claimTask ++
      [.event "n" { taskId := "t", event := .running } 0, .markLost 60000000])).all
        (fun s => AttemptsAgree s.after) = false := by
    decide +kernel
  rw [List.all_eq_false] at hrun
  obtain ⟨s, hs, hnot⟩ := hrun
  exact hnot (decide_eq_true (h {} plainCrypto {} _ s hs))

end GpuFleet
