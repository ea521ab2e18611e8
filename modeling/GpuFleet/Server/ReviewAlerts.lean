import GpuFleet.Server.Lifecycle
import Mathlib.Logic.Relation

/-!
# The alerts of a review

A task that enters the human stage of its review raises an alert.  The decision
of the review closes the unread alerts of the task, and an administrator may
mark any alert as read, before the decision or after it.  So an alert that was
marked stays read for ever, whatever becomes of its task
(`read_alert_stays_read`).

Every other alert follows its task: it is unread while the task is under review,
and has the status of the decision from then on (`alerts_follow_reviews`).  What
an operation does to tasks and alerts is a sequence of effects (`Effect`), and
each effect keeps the invariant (`Followed`).
-/

namespace GpuFleet

open Foundations

/-! ## Alerts and decisions -/

/-- `mark_read` -/
def markRead (alertId : Nat) (admin : Admin) (now : Nat) : Tx AlertMessage := do
  let nowIso := utcNowIso now
  let row ← Prog.query fun db => db.alerts.get? alertId
  match row with
  | none =>
      .raise (.api
        { code := "ERR_ALERT_NOT_FOUND"
          message := "Alert not found"
          statusCode := 404
          details := [("alert_id", .num alertId)] })
  | some _ =>
      Prog.execute (.alert (.read alertId admin.id nowIso))
      let saved ← Prog.query fun db => db.alerts.get? alertId
      match saved with
      | none => .raise .type
      | some saved => pure saved

/-- The ways a human review ends. -/
inductive Outcome where
  | approved | rejected | expired
  deriving DecidableEq, Repr

namespace Outcome

/-- What the task stores as its decision. -/
def decision : Outcome → String
  | approved => "human_approved"
  | rejected => "human_rejected"
  | expired => "expired"

/-- The status of an alert that was closed. -/
def alertStatus : Outcome → String
  | approved | rejected => "actioned"
  | expired => "expired"

/-- The update of the task. -/
def taskStmt (taskId level : String) (adminId : Option Nat) (nowIso : String) : Outcome → TaskStmt
  | approved => .setApproved taskId level adminId nowIso
  | rejected => .setRejected taskId adminId nowIso
  | expired => .setReviewExpired taskId nowIso

/-- The update of its alerts. -/
def alertStmt (taskId nowIso : String) : Outcome → AlertStmt
  | approved | rejected => .actioned taskId nowIso
  | expired => .expired taskId

end Outcome

/-- How the review of the task ended, if it did. -/
def Task.outcome (row : Task) : Option Outcome :=
  [.approved, .rejected, .expired].find? fun o => row.reviewDecision = some (Outcome.decision o)

/-- The alert is about the task. -/
def AlertMessage.IsAbout (alert : AlertMessage) (taskId : String) : Prop :=
  alert.targetType = some "task" ∧ alert.targetId = some taskId

instance (alert : AlertMessage) (taskId : String) : Decidable (alert.IsAbout taskId) :=
  inferInstanceAs (Decidable (_ ∧ _))

/-- The status of an alert, from whether it was marked and how its review ended. -/
def alertStatus (marked : Bool) (outcome : Option Outcome) : String :=
  if marked then "read" else outcome.elim "unread" Outcome.alertStatus

section Rows

variable {row : Task} {o : Outcome}

theorem outcome_of_decision (h : row.reviewDecision = some o.decision) : row.outcome = some o := by
  rw [Task.outcome, h]
  cases o <;> rfl

theorem outcome_of_ne {decision : Option String} (h : row.reviewDecision = decision)
    (hne : ∀ o : Outcome, decision ≠ some o.decision) : row.outcome = none := by
  rw [Task.outcome, h, List.find?_eq_none]
  intro o _
  rw [decide_eq_true_eq]
  exact hne o

theorem alertStatus_ne_unread (o : Outcome) : o.alertStatus ≠ "unread" := by
  cases o <;> simp [Outcome.alertStatus]

/-- An unread alert was not marked, and its review goes on. -/
theorem outcome_of_unread {marked : Bool} {outcome : Option Outcome}
    (h : alertStatus marked outcome = "unread") : marked = false ∧ outcome = none := by
  cases marked with
  | true => simp [alertStatus] at h
  | false =>
      cases outcome with
      | none => exact ⟨rfl, rfl⟩
      | some o => exact absurd h (alertStatus_ne_unread o)

theorem unreadOf_iff {alert : AlertMessage} {taskId : String} :
    alert.unreadOf taskId = true ↔ alert.IsAbout taskId ∧ alert.status = "unread" := by
  simp [AlertMessage.unreadOf, AlertMessage.IsAbout, and_assoc]

end Rows

/-! ## Effects -/

/-- What an operation may do to the tasks and alerts at a time. -/
inductive Effect (start : Db) : Db → Prop where
  /-- Other tables are written. -/
  | other {db : Db} : db.tasks = start.tasks → db.alerts = start.alerts → Effect start db
  /-- A task is created. -/
  | admits {row : Task} {db : Db} : start.tasks.get? row.taskId = none →
      db.tasks = (TaskStmt.insert row).apply start.tasks → db.alerts = start.alerts →
      row.status ≠ .reviewExpired → Effect start db
  /-- A review goes to the human stage. -/
  | escalates {taskId nowIso : String} {row : Task} {db : Db} :
      start.tasks.get? taskId = some row → row.status = .reviewing →
      db.tasks = (TaskStmt.setEscalated taskId nowIso).apply start.tasks →
      db.alerts = start.alerts → Effect start db
  /-- An alert is raised for a task under review. -/
  | alerts {taskId : String} {row : Task} {alert : AlertMessage} {db : Db} :
      start.tasks.get? taskId = some row → row.status = .reviewing → row.outcome = none →
      alert.unreadOf taskId = true → db.tasks = start.tasks →
      db.alerts = (AlertStmt.insert alert).apply start.alerts → Effect start db
  /-- A review ends. -/
  | settles {taskId : String} {row : Task} {o : Outcome} {db : Db} (level nowIso : String)
      (adminId : Option Nat) : start.tasks.get? taskId = some row → row.status = .reviewing →
      db.tasks = (o.taskStmt taskId level adminId nowIso).apply start.tasks →
      db.alerts = (o.alertStmt taskId nowIso).apply start.alerts → Effect start db

/-- What an operation does, as far as tasks and alerts go. -/
abbrev Effects : Db → Db → Prop := Relation.ReflTransGen Effect

/-- The review of the task has ended, and how. -/
def SettledAs (taskId : String) (o : Outcome) (db : Db) : Prop :=
  ∃ row, db.tasks.get? taskId = some row ∧ row.outcome = some o ∧ row.status ≠ .reviewing

/-- The alerts follow their tasks, when those in `marked` were marked as read. -/
structure Followed (marked : List Nat) (db : Db) : Prop where
  /-- An alert of an open review is unread and one of a review that ended is closed, unless it
  was marked. -/
  alerts : ∀ alert ∈ db.alerts.rows, ∃ taskId row, alert.IsAbout taskId ∧
    db.tasks.get? taskId = some row ∧ (row.outcome = none ↔ row.status = .reviewing) ∧
    alert.status = alertStatus (decide (alert.id ∈ marked)) row.outcome
  marked : ∀ id ∈ marked, ∃ alert ∈ db.alerts.rows, alert.id = id
  expired : ∀ row ∈ db.tasks.rows, row.status = .reviewExpired → row.outcome = some .expired

section Effects

variable {start db : Db} {marked : List Nat} {taskId level nowIso : String} {adminId : Option Nat}
  {row : Task} {o : Outcome}

variable (taskId level nowIso adminId row o) in
/-- The row of a review that ends. -/
theorem taskStmt_row :
    ((o.taskStmt taskId level adminId nowIso).edit row).outcome = some o ∧
      ((o.taskStmt taskId level adminId nowIso).edit row).status ≠ .reviewing ∧
      (((o.taskStmt taskId level adminId nowIso).edit row).status = .reviewExpired →
        o = .expired) := by
  cases o with
  | approved => exact ⟨outcome_of_decision rfl, by simp [Outcome.taskStmt, TaskStmt.edit]⟩
  | rejected => exact ⟨outcome_of_decision rfl, by simp [Outcome.taskStmt, TaskStmt.edit]⟩
  | expired => exact ⟨outcome_of_decision rfl, by simp [Outcome.taskStmt, TaskStmt.edit]⟩

theorem taskStmt_update (q : Task) : o.taskStmt taskId level adminId nowIso ≠ .insert q := by
  cases o <;> simp [Outcome.taskStmt]

theorem taskStmt_selects (tasks : Table Task) :
    (o.taskStmt taskId level adminId nowIso).selects tasks row = true ↔
      row.taskId = taskId ∧ row.status = .reviewing := by
  cases o <;> simp [Outcome.taskStmt, TaskStmt.selects]

/-- A new task leaves the others. -/
theorem get?_admitted {tasks : Table Task} {id : String} {old : Task}
    (h : tasks.get? id = some old) : ((TaskStmt.insert row).apply tasks).get? id = some old := by
  show (tasks.insert row.inserted fun _ => rfl).get? id = some old
  exact Table.get?_insert_of_some h

/-- An alert after those of a task were closed. -/
theorem mem_alertStmt {alerts : Table AlertMessage} {alert : AlertMessage}
    (h : alert ∈ ((o.alertStmt taskId nowIso).apply alerts).rows) :
    ∃ old ∈ alerts.rows, alert.id = old.id ∧ (∀ id, alert.IsAbout id ↔ old.IsAbout id) ∧
      alert.status = if old.unreadOf taskId then o.alertStatus else old.status := by
  cases o with
  | approved | rejected | expired =>
      simp only [Outcome.alertStmt, AlertStmt.apply, Table.mem_update] at h
      obtain ⟨old, hold, rfl⟩ := h
      refine ⟨old, hold, ?_⟩
      split <;> exact ⟨rfl, fun _ => Iff.rfl, rfl⟩

theorem mem_alertStmt_of_mem {alerts : Table AlertMessage} {alert : AlertMessage}
    (h : alert ∈ alerts.rows) :
    ∃ new ∈ ((o.alertStmt taskId nowIso).apply alerts).rows, new.id = alert.id := by
  cases o with
  | approved | rejected | expired =>
      simp only [Outcome.alertStmt, AlertStmt.apply, Table.mem_update]
      refine ⟨_, ⟨alert, h, rfl⟩, ?_⟩
      split <;> rfl

/-- Effects leave a review that ended. -/
theorem Effect.settledAs {id : String} {o' : Outcome} (h : Effect start db)
    (hs : SettledAs id o' start) : SettledAs id o' db := by
  obtain ⟨old, hold, hout, hstatus⟩ := hs
  cases h with
  | admits hfree htasks =>
      refine ⟨old, ?_, hout, hstatus⟩
      rw [htasks]
      exact get?_admitted hold
  | @escalates taskId nowIso row _ hrow hreview htasks =>
      refine ⟨old, ?_, hout, hstatus⟩
      rw [htasks, TaskStmt.get?_apply (by intro _ h; cases h), hold, Option.map_some, if_neg]
      intro hsel
      have hkey : old.taskId = id := Table.get?_key hold
      rw [← hkey, show old.taskId = taskId from of_decide_eq_true hsel, hrow] at hold
      cases hold
      exact hstatus hreview
  | other htasks | alerts _ _ _ _ htasks => exact ⟨old, htasks ▸ hold, hout, hstatus⟩
  | settles _ _ _ _ _ htasks =>
      refine ⟨old, ?_, hout, hstatus⟩
      rw [htasks, TaskStmt.get?_apply taskStmt_update, hold, Option.map_some, if_neg]
      exact fun hsel => hstatus ((taskStmt_selects _).mp hsel).2

theorem Effects.settledAs {id : String} {o' : Outcome} (h : Effects start db)
    (hs : SettledAs id o' start) : SettledAs id o' db := by
  induction h with
  | refl => exact hs
  | tail _ hstep ih => exact hstep.settledAs ih

/-- Effects keep the alerts with their tasks. -/
theorem Effect.followed (h : Effect start db) (hs : Followed marked start) :
    Followed marked db := by
  cases h with
  | other htasks halerts =>
      refine ⟨?_, ?_, ?_⟩
      · rw [htasks, halerts]
        exact hs.alerts
      · rw [halerts]
        exact hs.marked
      · rw [htasks]
        exact hs.expired
  | @admits row _ hfree htasks halerts hstatus =>
      refine ⟨fun alert ha => ?_, fun id hid => ?_, fun row' hrow' he => ?_⟩
      · rw [halerts] at ha
        obtain ⟨taskId, old, habout, hold, hrest⟩ := hs.alerts alert ha
        refine ⟨taskId, old, habout, ?_, hrest⟩
        rw [htasks]
        exact get?_admitted hold
      · rw [halerts]
        exact hs.marked id hid
      · rw [htasks] at hrow'
        rcases TaskStmt.mem_insert hrow' with hrow' | rfl
        · exact hs.expired row' hrow' he
        · exact absurd he hstatus
  | @escalates taskId nowIso row _ hrow hreview htasks halerts =>
      refine ⟨fun alert ha => ?_, fun id hid => ?_, fun row' hrow' he => ?_⟩
      · rw [halerts] at ha
        obtain ⟨id, old, habout, hold, hopen, hstatus⟩ := hs.alerts alert ha
        have hkey : old.taskId = id := Table.get?_key hold
        have hget := TaskStmt.get?_apply (q := .setEscalated taskId nowIso)
          (by intro _ h; cases h) start.tasks id
        rw [← htasks, hold, Option.map_some] at hget
        refine ⟨id, _, habout, hget, ?_⟩
        split
        · rename_i hsel
          rw [← hkey, show old.taskId = taskId from of_decide_eq_true hsel, hrow] at hold
          cases hold
          have hnone : ((TaskStmt.setEscalated taskId nowIso).edit row).outcome = none :=
            @outcome_of_ne _ (some "pending_human") rfl fun o => by
              cases o <;> simp [Outcome.decision]
          rw [hopen.mpr hreview] at hstatus
          rw [hnone]
          exact ⟨⟨fun _ => hreview, fun _ => rfl⟩, hstatus⟩
        · exact ⟨hopen, hstatus⟩
      · rw [halerts]
        exact hs.marked id hid
      · rw [htasks, TaskStmt.mem_apply (by intro _ h; cases h)] at hrow'
        obtain ⟨old, hold, rfl⟩ := hrow'
        split at he
        · rename_i hsel
          have hsame : old = row := Table.eq_of_get? hrow hold (of_decide_eq_true hsel)
          have he : row.status = .reviewExpired := hsame ▸ he
          rw [hreview] at he
          cases he
        · rw [if_neg ‹_›]
          exact hs.expired old hold he
  | @alerts taskId row alert _ hrow hreview hnone hunread htasks halerts =>
      have hrows : db.alerts.rows =
          start.alerts.rows ++ [{ alert with id := start.alerts.seq + 1 }] := by
        rw [halerts]
        show (start.alerts.insert (fun id => { alert with id }) fun _ => rfl).rows = _
        exact Table.insert_rows_of_key fun _ _ h => h
      obtain ⟨habout, hstatus⟩ := unreadOf_iff.mp hunread
      refine ⟨fun a ha => ?_, fun id hid => ?_, fun row' hrow' he => ?_⟩
      · rw [hrows] at ha
        rw [htasks]
        rcases List.mem_append.mp ha with ha | ha
        · exact hs.alerts a ha
        · rw [List.mem_singleton.mp ha]
          refine ⟨taskId, row, habout, hrow, ⟨fun _ => hreview, fun _ => hnone⟩, ?_⟩
          -- The id of the new alert is not among the marked ones.
          have hnew : start.alerts.seq + 1 ∉ marked := by
            intro hmem
            obtain ⟨b, hb, hid⟩ := hs.marked _ hmem
            have hle : b.id ≤ start.alerts.seq := start.alerts.bounded b hb
            omega
          rw [decide_eq_false hnew, hnone]
          exact hstatus
      · obtain ⟨a, ha, hid⟩ := hs.marked id hid
        rw [hrows]
        exact ⟨a, List.mem_append_left _ ha, hid⟩
      · rw [htasks] at hrow'
        exact hs.expired row' hrow' he
  | @settles taskId row o _ level nowIso adminId hrow hreview htasks halerts =>
      refine ⟨fun alert ha => ?_, fun id hid => ?_, fun row' hrow' he => ?_⟩
      · rw [halerts] at ha
        obtain ⟨old, hold, hid, habout, hstatus⟩ := mem_alertStmt ha
        obtain ⟨id, task, hof, htask, hopen, hwas⟩ := hs.alerts old hold
        have hkey : task.taskId = id := Table.get?_key htask
        have hget := TaskStmt.get?_apply (q := o.taskStmt taskId level adminId nowIso)
          taskStmt_update start.tasks id
        rw [← htasks, htask, Option.map_some] at hget
        refine ⟨id, _, (habout id).mpr hof, hget, ?_⟩
        rw [hid, hstatus]
        by_cases hthis : id = taskId
        · subst hthis
          rw [hrow] at htask
          cases htask
          rw [if_pos ((taskStmt_selects _).mpr ⟨hkey, hreview⟩)]
          obtain ⟨hout, hended, -⟩ := taskStmt_row id level nowIso adminId row o
          rw [hopen.mpr hreview] at hwas
          rw [hout]
          refine ⟨⟨fun h => (by cases h), fun h => absurd h hended⟩, ?_⟩
          cases hmark : decide (old.id ∈ marked) with
          | true =>
              rw [hmark] at hwas
              rw [if_neg, hwas]
              · rfl
              · rw [unreadOf_iff, hwas]
                simp [alertStatus]
          | false =>
              rw [hmark] at hwas
              rw [if_pos (unreadOf_iff.mpr ⟨hof, hwas⟩)]
              rfl
        · have hother : old.unreadOf taskId = false := by
            rw [Bool.eq_false_iff, Ne, unreadOf_iff]
            intro hunread
            exact hthis (Option.some.inj (hof.2.symm.trans hunread.1.2))
          rw [if_neg fun hsel => hthis (hkey ▸ ((taskStmt_selects _).mp hsel).1), hother,
            if_neg Bool.false_ne_true]
          exact ⟨hopen, hwas⟩
      · obtain ⟨a, ha, hid⟩ := hs.marked id hid
        have hkeeps : ∃ new ∈ ((o.alertStmt taskId nowIso).apply _).rows, new.id = a.id :=
          mem_alertStmt_of_mem ha
        obtain ⟨new, hnew, hsame⟩ := hkeeps
        rw [halerts]
        exact ⟨new, hnew, hsame.trans hid⟩
      · rw [htasks, TaskStmt.mem_apply taskStmt_update] at hrow'
        obtain ⟨old, hold, rfl⟩ := hrow'
        split at he
        · rename_i hsel
          obtain ⟨hout, -, hexpired⟩ := taskStmt_row taskId level nowIso adminId old o
          rw [if_pos hsel, hout, hexpired he]
        · rw [if_neg ‹_›]
          exact hs.expired old hold he

theorem Effects.followed (h : Effects start db) (hs : Followed marked start) :
    Followed marked db := by
  induction h with
  | refl => exact hs
  | tail _ hstep ih => exact hstep.followed ih

/-- Marking an alert as read. -/
theorem Followed.read {alertId adminId : Nat} (hs : Followed marked start)
    (hmem : ∃ alert ∈ start.alerts.rows, alert.id = alertId) (htasks : db.tasks = start.tasks)
    (halerts : db.alerts = (AlertStmt.read alertId adminId nowIso).apply start.alerts) :
    Followed (marked ++ [alertId]) db := by
  refine ⟨fun alert ha => ?_, fun id hid => ?_, fun row hrow he => ?_⟩
  · rw [halerts] at ha
    simp only [AlertStmt.apply, Table.mem_update] at ha
    obtain ⟨old, hold, rfl⟩ := ha
    obtain ⟨id, task, hof, htask, hopen, hwas⟩ := hs.alerts old hold
    rw [htasks]
    refine ⟨id, task, ?_, htask, hopen, ?_⟩
    · split <;> exact hof
    · split
      · rename_i hthis
        have hmarked : old.id ∈ marked ++ [alertId] :=
          List.mem_append_right _ (List.mem_singleton.mpr (of_decide_eq_true hthis))
        exact (if_pos (decide_eq_true hmarked)).symm
      · rename_i hother
        have hiff : old.id ∈ marked ++ [alertId] ↔ old.id ∈ marked := by
          rw [List.mem_append, List.mem_singleton]
          exact or_iff_left fun h => hother (decide_eq_true h)
        rw [hwas, decide_eq_decide.mpr hiff]
  · rw [halerts]
    have hfound : ∃ a ∈ start.alerts.rows, a.id = id := by
      rcases List.mem_append.mp hid with hid | hid
      · exact hs.marked id hid
      · rw [List.mem_singleton.mp hid]
        exact hmem
    obtain ⟨a, ha, rfl⟩ := hfound
    simp only [AlertStmt.apply, Table.mem_update]
    refine ⟨_, ⟨a, ha, rfl⟩, ?_⟩
    split <;> rfl
  · rw [htasks] at hrow
    exact hs.expired row hrow he

end Effects

/-! ## Operations -/

section Operations

variable {taskId : String} {note : Option String} {admin : Admin} {now : Nat} {start w : Db}
  {row : Task}

theorem checkTarget_ends {exn : Exc → Db → Db → Prop} {post : Node → Db → Db → Prop} {c : Db}
    (payload : AdminTaskCreateRequest) (hexn : ∀ e, exn e c w) (hpost : ∀ node, post node c w) :
    (checkTarget payload).ends exn post c w := by
  rw [checkTarget, Prog.ends_bind, Prog.ends_query]
  cases w.nodes.get? payload.nodeId with
  | none => exact hexn _
  | some node =>
      simp only
      repeat' split
      all_goals first | exact hexn _ | exact hpost node

theorem checkCooldown_ends {exn : Exc → Db → Db → Prop} {post : Unit → Db → Db → Prop} {c : Db}
    (hexn : ∀ e, exn e c w) (hpost : post () c w) :
    (checkCooldown taskId row now).ends exn post c w := by
  unfold checkCooldown
  cases row.reviewStartedAt with
  | none => exact hpost
  | some raw =>
      simp only
      split
      · exact hpost
      · cases parseMoment raw with
        | error e => exact hexn e
        | ok started =>
            show (if _ then _ else _ : Tx Unit).ends exn post c w
            split
            · exact hexn _
            · exact hpost

/-- No review of a new task has ended. -/
theorem admissionOf_undecided (type : TaskType) (review : Option ReviewDecision)
    (nowIso reviewedIso : String) (o : Outcome) :
    (admissionOf type review nowIso reviewedIso).reviewDecision ≠ some o.decision := by
  unfold admissionOf
  split
  · cases review with
    | none => cases o <;> simp [Outcome.decision]
    | some result =>
        simp only [ne_eq, Option.some.injEq]
        cases result.decision <;> cases o <;> simp [LlmDecision.text, Outcome.decision]
  · simp

/-- A new task may raise an alert. -/
theorem createTask_ends (payload : AdminTaskCreateRequest) (ctx : CreateContext) (start : Db) :
    (createTask payload ctx).ends (fun _ c _ => Effects start c) (fun _ _ w => Effects start w)
      start start := by
  have created : ∀ (w : Db) (taskId : String) (detail : Json) (reply : Option Task → Tx AdminTaskDetail),
      (∀ row w, Effects start w → (reply row).ends (fun _ c _ => Effects start c)
        (fun _ _ w => Effects start w) w w) → Effects start w → (do
      auditTask ctx.admin "create_task" taskId detail (utcNowIso ctx.now)
      reconnect
      let row ← Prog.query fun db => db.tasks.get? taskId
      reply row : Tx AdminTaskDetail).ends (fun _ c _ => Effects start c)
        (fun _ _ w => Effects start w) start w := by
    intro w taskId detail reply hreply hw
    have haudit : ∀ row, Effects start (Statement.apply (Dml.insertAudit row) w) := fun _ =>
      hw.tail (.other rfl rfl)
    rw [Prog.ends_bind, auditTask, Prog.ends_execute, Prog.ends_bind, reconnect, Prog.ends_commit,
      Prog.ends_ret, Prog.ends_bind, Prog.ends_query]
    exact hreply _ _ (haudit _)
  rw [createTask, Prog.ends_bind]
  refine checkTarget_ends payload (fun _ => .refl) fun node => ?_
  simp only
  rw [Prog.ends_bind, Prog.ends_query]
  split
  · exact .refl
  · rename_i hfree
    rw [Option.not_isSome_iff_eq_none] at hfree
    rw [Prog.ends_bind, Prog.ends_executeReturning]
    split
    · exact .refl
    · have hwaits := admissionOf_waits payload.type ctx.review (utcNowIso ctx.now)
        (utcNowIso ctx.reviewedAt)
      have hundecided := admissionOf_undecided payload.type ctx.review (utcNowIso ctx.now)
        (utcNowIso ctx.reviewedAt)
      generalize admissionOf payload.type ctx.review (utcNowIso ctx.now)
        (utcNowIso ctx.reviewedAt) = admission at hwaits hundecided ⊢
      generalize orElse payload.taskId ctx.freshTaskId = taskId at hfree ⊢
      generalize hnew : newTask payload admission taskId (orElse payload.idempotencyKey ctx.freshKey)
        ctx.admin (utcNowIso ctx.now) = new
      have hid : new.taskId = taskId := by rw [← hnew]; rfl
      have hstatus : new.status = admission.status := by rw [← hnew]; rfl
      have hdecision : new.reviewDecision = admission.reviewDecision := by rw [← hnew]; rfl
      have hadmits : Effects start (Statement.apply (Dml.task (.insert new)) start) := by
        refine .single (.admits (hid ▸ hfree) rfl rfl ?_)
        rw [hstatus]
        rcases hwaits with h | h <;> rw [h] <;> simp
      have hrow : (Statement.apply (Dml.task (.insert new)) start).tasks.get? taskId =
          some (new.inserted (start.tasks.seq + 1)) := by
        show (start.tasks.insert new.inserted fun _ => rfl).get? taskId = _
        exact Table.get?_insert_self hfree fun _ => hid
      have alerted : ∀ w row (detail : Json) (reply : Option Task → Tx AdminTaskDetail),
          (∀ row w, Effects start w → (reply row).ends (fun _ c _ => Effects start c)
            (fun _ _ w => Effects start w) w w) → Effects start w → w.tasks.get? taskId = some row →
          row.status = new.status → row.reviewDecision = new.reviewDecision → (do
            if admission.status = .reviewing then
              createReviewAlert taskId payload.type payload.nodeId (utcNowIso ctx.now)
                ("任务 " ++ taskId ++ " 需要人工审核") ctx.now
            auditTask ctx.admin "create_task" taskId detail (utcNowIso ctx.now)
            reconnect
            let row ← Prog.query fun db => db.tasks.get? taskId
            reply row : Tx AdminTaskDetail).ends (fun _ c _ => Effects start c)
              (fun _ _ w => Effects start w) start w := by
        intro w row detail reply hreply hw hrow hrowStatus hrowDecision
        split
        · rename_i hreview
          rw [Prog.ends_bind, createReviewAlert, Prog.ends_execute]
          refine created _ taskId detail reply hreply (hw.tail ?_)
          refine .alerts hrow (by rw [hrowStatus, hstatus, hreview]) ?_ ?_ rfl rfl
          · exact outcome_of_ne (hrowDecision.trans hdecision) hundecided
          · simp [AlertMessage.unreadOf]
        · exact created w taskId detail reply hreply hw
      cases hreview : admission.reviewDecision with
      | none =>
          refine alerted _ _ _ _ (fun row w hw => ?_) hadmits hrow rfl rfl
          cases row <;> exact hw
      | some decision =>
          rw [Prog.ends_bind, insertReviewAudit, Prog.ends_execute]
          refine alerted _ _ _ _ (fun row w hw => ?_) (hadmits.tail (.other rfl rfl)) hrow rfl rfl
          cases row <;> exact hw

/-- An escalation raises an alert. -/
theorem escalateReview_ends (taskId : String) (note : Option String) (admin : Admin) (now : Nat)
    (start : Db) :
    (escalateReview taskId note admin now).ends (fun _ c _ => Effects start c)
      (fun _ _ w => Effects start w) start start := by
  rw [escalateReview, Prog.ends_bind]
  refine catchTaskState_ends ?_
  rw [Prog.ends_bind, getTaskRow_ends]
  cases hrow : start.tasks.get? taskId with
  | none => exact .refl
  | some row =>
      simp only
      rw [Prog.ends_bind, transitionTask, Prog.ends_bind, getTaskRow_ends, hrow]
      simp only
      split
      · exact .refl
      · rename_i hreview
        rw [Decidable.not_not] at hreview
        split
        · exact .refl
        · have hkey : row.taskId = taskId := Table.get?_key hrow
          refine getTaskRow_after (by intro _ h; cases h) hrow (decide_eq_true hkey) ?_
          rw [Prog.pure_eq, Prog.ends_ret, Prog.ends_bind, createReviewAlert, Prog.ends_execute, Prog.ends_bind,
            auditTask, Prog.ends_execute, Prog.ends_bind]
          refine emitEvent_ends ?_
          have hescalates : Effects start
              { start with tasks := (TaskStmt.setEscalated taskId (utcNowIso now)).apply start.tasks } :=
            .single (.escalates hrow hreview rfl rfl)
          have hescalated := TaskStmt.get?_apply_selected (q := .setEscalated taskId (utcNowIso now))
            (by intro _ h; cases h) hrow (decide_eq_true hkey)
          refine hescalates.tail (.alerts hescalated hreview ?_ ?_ rfl rfl)
          · exact @outcome_of_ne _ (some "pending_human") rfl fun o => by
              cases o <;> simp [Outcome.decision]
          · simp [AlertMessage.unreadOf]

/-- The end of a review leaves the task settled. -/
theorem settles_settledAs {o : Outcome} {level nowIso : String} {adminId : Option Nat} {db : Db}
    (hrow : start.tasks.get? taskId = some row) (hreview : row.status = .reviewing)
    (htasks : db.tasks = (o.taskStmt taskId level adminId nowIso).apply start.tasks) :
    SettledAs taskId o db := by
  have hkey : row.taskId = taskId := Table.get?_key hrow
  obtain ⟨hout, hended, -⟩ := taskStmt_row taskId level nowIso adminId row o
  refine ⟨_, ?_, hout, hended⟩
  rw [htasks]
  exact TaskStmt.get?_apply_selected taskStmt_update hrow
    ((taskStmt_selects _).mpr ⟨hkey, hreview⟩)

/-- A review ends, and what follows are writes to other tables. -/
theorem settles_effects {o : Outcome} {db : Db} (level nowIso : String) (adminId : Option Nat)
    (hrow : start.tasks.get? taskId = some row) (hreview : row.status = .reviewing)
    (htasks : db.tasks = (o.taskStmt taskId level adminId nowIso).apply start.tasks)
    (halerts : db.alerts = (o.alertStmt taskId nowIso).apply start.alerts) :
    Effects start db ∧ SettledAs taskId o db :=
  ⟨.single (.settles level nowIso adminId hrow hreview htasks halerts), settles_settledAs hrow hreview htasks⟩

theorem approveReview_ends (taskId : String) (note : Option String) (admin : Admin) (now : Nat)
    (start : Db) :
    (approveReview taskId note admin now).ends (fun _ c _ => c = start)
      (fun _ _ w => Effects start w ∧ SettledAs taskId .approved w) start start := by
  rw [approveReview, Prog.ends_bind]
  refine catchTaskState_ends ?_
  rw [getTaskRow_ends]
  cases hrow : start.tasks.get? taskId with
  | none => rfl
  | some row =>
      simp only
      split
      · rfl
      · rename_i hreview
        rw [not_or, Decidable.not_not, Decidable.not_not] at hreview
        rw [Prog.ends_bind]
        refine checkCooldown_ends (fun _ => rfl) ?_
        rw [Prog.ends_bind]
        refine catchTaskState_ends ?_
        rw [transitionTask, Prog.ends_bind, getTaskRow_ends, hrow]
        simp only
        rw [if_neg (by simp [hreview])]
        have hkey : row.taskId = taskId := Table.get?_key hrow
        refine getTaskRow_after (by intro _ h; cases h) hrow
          (by simp [TaskStmt.selects, hkey, hreview]) ?_
        exact settles_effects (o := .approved) "human_approved" (utcNowIso now) (some admin.id) hrow
          hreview.1 rfl rfl

/-- A rejection ends the review, or does nothing. -/
theorem rejectReview_settles (taskId : String) (note : Option String) (admin : Admin) (now : Nat)
    (start : Db) :
    (rejectReview taskId note admin now).ends (fun _ c _ => c = start)
      (fun _ _ w => Effects start w ∧ SettledAs taskId .rejected w) start start := by
  rw [rejectReview, Prog.ends_bind]
  refine catchTaskState_ends ?_
  rw [Prog.ends_bind, getTaskRow_ends]
  cases hrow : start.tasks.get? taskId with
  | none => rfl
  | some row =>
      simp only
      rw [Prog.ends_bind, transitionTask, Prog.ends_bind, getTaskRow_ends, hrow]
      simp only
      split
      · rfl
      · rename_i hreview
        rw [Decidable.not_not] at hreview
        have hkey : row.taskId = taskId := Table.get?_key hrow
        refine getTaskRow_after (by intro _ h; cases h) hrow
          (by simp [TaskStmt.selects, hkey, hreview]) ?_
        exact settles_effects (o := .rejected) "" (utcNowIso now) (some admin.id) hrow hreview rfl rfl

/-- An expiry pass ends the reviews it finds. -/
theorem expireReviewingTasks_settles (now : Nat) (start : Db) :
    (expireReviewingTasks now).ends (fun _ c _ => c = start) (fun _ _ w => Effects start w)
      start start := by
  rw [expireReviewingTasks, Prog.ends_bind, Prog.ends_query]
  refine Prog.ends_mono (Prog.ends_forEach (I := fun c w => c = start ∧ Effects start w) ?_
    ⟨rfl, .refl⟩) (fun _ _ _ => id) fun _ _ _ h => h.2
  rintro taskId c w ⟨rfl, hw⟩
  rw [Prog.ends_bind, transitionTask, Prog.ends_bind, getTaskRow_ends]
  cases hrow : w.tasks.get? taskId with
  | none => rfl
  | some row =>
      simp only
      split
      · rfl
      · rename_i hreview
        rw [Decidable.not_not] at hreview
        have hkey : row.taskId = taskId := Table.get?_key hrow
        refine getTaskRow_after (by intro _ h; cases h) hrow
          (by simp [TaskStmt.selects, hkey, hreview]) ?_
        rw [Prog.ends_bind, Prog.ends_execute]
        refine emitEvent_ends ⟨rfl, hw.tail ?_⟩
        exact .settles (o := .expired) "" (utcNowIso now) none hrow hreview rfl rfl

/-- Marking an alert writes that alert only. -/
theorem markRead_ends (alertId : Nat) (admin : Admin) (now : Nat) (start : Db) :
    (markRead alertId admin now).ends (fun _ c _ => c = start)
      (fun _ _ w => (∃ alert ∈ start.alerts.rows, alert.id = alertId) ∧
        w.tasks = start.tasks ∧
        w.alerts = (AlertStmt.read alertId admin.id (utcNowIso now)).apply start.alerts)
      start start := by
  rw [markRead, Prog.ends_bind, Prog.ends_query]
  cases hrow : start.alerts.get? alertId with
  | none => rfl
  | some row =>
      simp only
      rw [Prog.ends_bind, Prog.ends_execute, Prog.ends_bind, Prog.ends_query]
      split
      · rfl
      · exact ⟨⟨row, Table.get?_mem hrow, Table.get?_key hrow⟩, rfl, rfl⟩

end Operations

/-! ## Runs -/

/-- The operations on the reviews of tasks and their alerts. -/
inductive AlertOp where
  | createTask (payload : AdminTaskCreateRequest) (ctx : CreateContext)
  | escalate (taskId : String) (note : Option String) (admin : Admin) (now : Nat)
  | markRead (alertId : Nat) (admin : Admin) (now : Nat)
  | approve (taskId : String) (note : Option String) (admin : Admin) (now : Nat)
  | reject (taskId : String) (note : Option String) (admin : Admin) (now : Nat)
  | expireReviews (now : Nat)

/-- An operation whose reply is only whether it succeeded. -/
def acknowledged {α : Type} (p : Tx α) : Tx Unit := p >>= fun _ => pure ()

/-- The program of an operation. -/
def AlertOp.code : AlertOp → Tx Unit
  | createTask payload ctx => acknowledged (GpuFleet.createTask payload ctx)
  | escalate taskId note admin now => acknowledged (escalateReview taskId note admin now)
  | markRead alertId admin now => acknowledged (GpuFleet.markRead alertId admin now)
  | approve taskId note admin now => acknowledged (approveReview taskId note admin now)
  | reject taskId note admin now => acknowledged (rejectReview taskId note admin now)
  | expireReviews now => acknowledged (expireReviewingTasks now)

/-- One operation of a run: the databases around it and its reply. -/
structure AlertStep where
  before : Db
  op : AlertOp
  reply : Except Exc Unit
  after : Db

/-- The step an operation takes alone. -/
def AlertOp.step (op : AlertOp) (db : Db) (x : World) : AlertStep :=
  ⟨db, op, op.code.resultOf db x, op.code.dbAfter db x⟩

/-- The runs of these operations, with their steps. -/
inductive AlertRun (start : Db) (x₀ : World) : List AlertStep → Db → World → Prop where
  | start : AlertRun start x₀ [] start x₀
  | step {past : List AlertStep} {db : Db} {x : World} (op : AlertOp) :
      AlertRun start x₀ past db x →
      AlertRun start x₀ (past ++ [op.step db x]) (op.code.dbAfter db x) (op.code.outsideAfter db x)

namespace AlertStep

/-- The alert the step marks as read. -/
def marks (s : AlertStep) : Option Nat :=
  match s.op with
  | .markRead alertId .. => if s.reply.isOk then some alertId else none
  | _ => none

/-- The step ends the review of the task. -/
def Decides (s : AlertStep) (taskId : String) : Outcome → Prop
  | .approved => ∃ note admin now, s.op = .approve taskId note admin now ∧ s.reply.isOk = true
  | .rejected => ∃ note admin now, s.op = .reject taskId note admin now ∧ s.reply.isOk = true
  | .expired => ∃ now, s.op = .expireReviews now ∧
      statusOf taskId s.before = some .reviewing ∧ statusOf taskId s.after = some .reviewExpired

end AlertStep

section Runs

variable {db start : Db} {x x₀ : World} {past : List AlertStep} {marked : List Nat}
  {taskId : String} {o : Outcome}

theorem acknowledged_ends {α : Type} {exn : Exc → Db → Db → Prop} {R : Db → Prop} {p : Tx α}
    {c w : Db} (hp : p.ends exn (fun _ _ w => R w) c w) :
    (acknowledged p).ends exn (fun _ _ w => R w) c w := by
  rw [acknowledged, Prog.ends_bind]
  exact hp

/-- What is done by an operation that does not mark an alert. -/
theorem AlertOp.step_effects (op : AlertOp) (db : Db) (x : World)
    (hop : ∀ alertId admin now, op ≠ .markRead alertId admin now) :
    Effects db (op.step db x).after := by
  have done : ∀ {α : Type} {p : Tx α}, op.code = acknowledged p →
      p.ends (fun _ c _ => Effects db c) (fun _ _ w => Effects db w) db db →
      Effects db (op.step db x).after := by
    intro α p hcode hends
    show Effects db (op.code.dbAfter db x)
    rw [hcode]
    rcases (acknowledged_ends hends).after x with ⟨_, _, _, h⟩ | ⟨_, _, _, h⟩
    · exact h
    · exact h
  have same : ∀ c : Db, c = db → Effects db c := by
    rintro c rfl
    exact .refl
  cases op with
  | createTask payload ctx => exact done rfl (createTask_ends payload ctx db)
  | escalate taskId note admin now => exact done rfl (escalateReview_ends taskId note admin now db)
  | markRead alertId admin now => exact absurd rfl (hop alertId admin now)
  | approve taskId note admin now =>
      exact done rfl (Prog.ends_mono (approveReview_ends taskId note admin now db)
        (fun _ c _ h => same c h) fun _ _ _ h => h.1)
  | reject taskId note admin now =>
      exact done rfl (Prog.ends_mono (rejectReview_settles taskId note admin now db)
        (fun _ c _ h => same c h) fun _ _ _ h => h.1)
  | expireReviews now =>
      exact done rfl (Prog.ends_mono (expireReviewingTasks_settles now db)
        (fun _ c _ h => same c h) fun _ _ _ h => h)

/-- A request to mark an alert marks it, or does nothing. -/
theorem markRead_step (alertId : Nat) (admin : Admin) (now : Nat) (db : Db) (x : World) :
    let s := (AlertOp.markRead alertId admin now).step db x
    (s.marks = none ∧ s.after = db) ∨
      (s.marks = some alertId ∧ (∃ alert ∈ db.alerts.rows, alert.id = alertId) ∧
        s.after.tasks = db.tasks ∧
        s.after.alerts = (AlertStmt.read alertId admin.id (utcNowIso now)).apply db.alerts) := by
  intro s
  rcases (acknowledged_ends (markRead_ends alertId admin now db)).after x with
    ⟨_, _, hok, hread⟩ | ⟨_, _, herror, hsame⟩
  · refine Or.inr ⟨?_, hread⟩
    show (if (Except.isOk (Prog.resultOf _ db x)) = true then _ else _) = _
    rw [show Prog.resultOf (AlertOp.code (.markRead alertId admin now)) db x = _ from hok]
    rfl
  · refine Or.inl ⟨?_, hsame⟩
    show (if (Except.isOk (Prog.resultOf _ db x)) = true then _ else _) = _
    rw [show Prog.resultOf (AlertOp.code (.markRead alertId admin now)) db x = _ from herror]
    rfl

/-- A step keeps the alerts with their tasks. -/
theorem AlertOp.step_followed (op : AlertOp) (hs : Followed marked db) :
    Followed (marked ++ (op.step db x).marks.toList) (op.step db x).after := by
  by_cases hop : ∃ alertId admin now, op = .markRead alertId admin now
  · obtain ⟨alertId, admin, now, rfl⟩ := hop
    rcases markRead_step alertId admin now db x with ⟨hmarks, hsame⟩ | ⟨hmarks, hmem, htasks, halerts⟩
    · rw [hmarks, hsame, Option.toList_none, List.append_nil]
      exact hs
    · rw [hmarks]
      exact hs.read hmem htasks halerts
  · have hmarks : (op.step db x).marks = none := by
      cases op with
      | markRead alertId admin now => exact absurd ⟨_, _, _, rfl⟩ hop
      | _ => rfl
    rw [hmarks, Option.toList_none, List.append_nil]
    exact (op.step_effects db x fun alertId admin now h => hop ⟨alertId, admin, now, h⟩).followed hs

/-- A step leaves the reviews that ended. -/
theorem AlertOp.step_settledAs (op : AlertOp) (hs : SettledAs taskId o db) :
    SettledAs taskId o (op.step db x).after := by
  by_cases hop : ∃ alertId admin now, op = .markRead alertId admin now
  · obtain ⟨alertId, admin, now, rfl⟩ := hop
    rcases markRead_step alertId admin now db x with ⟨-, hsame⟩ | ⟨-, -, htasks, -⟩
    · rw [hsame]
      exact hs
    · rw [SettledAs, htasks]
      exact hs
  · exact (op.step_effects db x fun alertId admin now h => hop ⟨alertId, admin, now, h⟩).settledAs hs

/-- The step that ends a review leaves it settled. -/
theorem AlertOp.settledAs_of_decides {op : AlertOp} (hs : Followed marked db)
    (h : (op.step db x).Decides taskId o) : SettledAs taskId o (op.step db x).after := by
  have accepted : ∀ {α : Type} {p : Tx α}, op.code = acknowledged p →
      (op.step db x).reply.isOk = true →
      p.ends (fun _ c _ => c = db) (fun _ _ w => Effects db w ∧ SettledAs taskId o w) db db →
      SettledAs taskId o (op.step db x).after := by
    intro α p hcode hok hends
    have hok : (op.code.resultOf db x).isOk = true := hok
    show SettledAs taskId o (op.code.dbAfter db x)
    rw [hcode] at hok ⊢
    rcases (acknowledged_ends hends).after x with ⟨_, _, _, h⟩ | ⟨_, _, herror, -⟩
    · exact h.2
    · rw [herror] at hok
      cases hok
  cases o with
  | approved =>
      obtain ⟨note, admin, now, hop, hok⟩ := h
      have hop : op = .approve taskId note admin now := hop
      subst hop
      exact accepted rfl hok (approveReview_ends taskId note admin now db)
  | rejected =>
      obtain ⟨note, admin, now, hop, hok⟩ := h
      have hop : op = .reject taskId note admin now := hop
      subst hop
      exact accepted rfl hok (rejectReview_settles taskId note admin now db)
  | expired =>
      obtain ⟨now, -, -, hexpired⟩ := h
      obtain ⟨row, hrow, hstatus⟩ := Option.map_eq_some_iff.mp hexpired
      have hkept : Followed _ (op.step db x).after := op.step_followed hs
      refine ⟨row, hrow, hkept.expired row (Table.get?_mem hrow) hstatus, ?_⟩
      rw [hstatus]
      simp

theorem AlertRun.followed {nodes : Table Node} (h : AlertRun { nodes } x₀ past db x) :
    Followed (past.filterMap AlertStep.marks) db ∧
      ∀ s ∈ past, ∀ taskId o, s.Decides taskId o → SettledAs taskId o db := by
  induction h with
  | start =>
      refine ⟨⟨?_, ?_, ?_⟩, ?_⟩
      · intro alert ha
        cases ha
      · intro id hid
        cases hid
      · intro row hrow
        cases hrow
      · intro s hs
        cases hs
  | step op _ ih =>
      obtain ⟨hfollowed, hsettled⟩ := ih
      refine ⟨?_, fun s hs taskId o hdecides => ?_⟩
      · rw [List.filterMap_append]
        have hlast : ∀ s : AlertStep, List.filterMap AlertStep.marks [s] = s.marks.toList := by
          intro s
          cases h : s.marks <;> simp [h]
        rw [hlast]
        exact op.step_followed hfollowed
      · rcases List.mem_append.mp hs with hs | hs
        · exact op.step_settledAs (hsettled s hs taskId o hdecides)
        · cases List.mem_singleton.mp hs
          exact AlertOp.settledAs_of_decides hfollowed hdecides

/-- In every state of a run an unread alert belongs to a task under review, and every alert of a
task whose review has ended is closed as it ended, or read if it was marked. -/
theorem alerts_follow_reviews {nodes : Table Node} (h : AlertRun { nodes } x₀ past db x) :
    (∀ alert ∈ db.alerts.rows, alert.status = "unread" →
      ∃ row ∈ db.tasks.rows, alert.IsAbout row.taskId ∧ row.status = .reviewing) ∧
    ∀ s ∈ past, ∀ taskId o, s.Decides taskId o →
      ∀ alert ∈ db.alerts.rows, alert.IsAbout taskId →
        alert.status =
          if alert.id ∈ past.filterMap AlertStep.marks then "read" else o.alertStatus := by
  obtain ⟨hfollowed, hsettled⟩ := h.followed
  constructor
  · intro alert ha hunread
    obtain ⟨taskId, row, habout, hrow, hopen, hstatus⟩ := hfollowed.alerts alert ha
    rw [hunread] at hstatus
    have hkey : row.taskId = taskId := Table.get?_key hrow
    exact ⟨row, Table.get?_mem hrow, hkey ▸ habout,
      hopen.mp (outcome_of_unread hstatus.symm).2⟩
  · intro s hs taskId o hdecides alert ha habout
    obtain ⟨id, row, hof, hrow, -, hstatus⟩ := hfollowed.alerts alert ha
    obtain ⟨row', hrow', hout, -⟩ := hsettled s hs taskId o hdecides
    rw [Option.some.inj (hof.2.symm.trans habout.2), hrow'] at hrow
    cases hrow
    rw [hstatus, hout]
    simp [alertStatus]

end Runs

/-- A node that takes shell tasks. -/
def shellNodes : Table Node :=
  (createNode plainCrypto { nodeId := "n", displayName := "n", allowShell := true }
    ⟨"secret", "", ""⟩ ⟨1, "admin"⟩ 0).dbAfter {} {} |>.nodes

/-- A shell task that no model reviews. -/
def createShell : AlertOp :=
  .createTask { nodeId := "n", type := .shell, taskId := some "t" }
    { admin := ⟨1, "admin"⟩, review := none, freshTaskId := "", freshKey := "", now := 0
      reviewedAt := 0 }

/-- Its approval after ten seconds. -/
def approveShell : AlertOp := .approve "t" none ⟨1, "admin"⟩ 10000000

/-- The alert of a task that is approved. -/
theorem alerts_follow_reviews_approveShell :
    ∃ past db x, AlertRun { nodes := shellNodes } {} past db x ∧
      (db.alerts.rows.map AlertMessage.status = ["actioned"] ∧
        ∃ s ∈ past, s.Decides "t" .approved) ∧
      ∀ s ∈ past, ∀ taskId o, s.Decides taskId o →
        ∀ alert ∈ db.alerts.rows, alert.IsAbout taskId →
          alert.status =
            if alert.id ∈ past.filterMap AlertStep.marks then "read" else o.alertStatus := by
  have hstart : AlertRun { nodes := shellNodes } {} [] _ _ := .start
  have hrun := hstart.step createShell |>.step approveShell
  refine ⟨_, _, _, hrun, ⟨by decide +kernel, ?_⟩, (alerts_follow_reviews hrun).2⟩
  exact ⟨_, List.mem_append_right _ (List.mem_singleton.mpr rfl), none, ⟨1, "admin"⟩, 10000000, rfl,
    by decide +kernel⟩

/-- An alert that was marked before the approval of its task is not actioned. -/
theorem read_alert_stays_read :
    ¬ ∀ (nodes : Table Node) (x₀ : World) (past : List AlertStep) (db : Db) (x : World),
      AlertRun { nodes } x₀ past db x →
      (∀ alert ∈ db.alerts.rows, alert.status = "unread" →
        ∃ row ∈ db.tasks.rows, alert.IsAbout row.taskId ∧ row.status = .reviewing) ∧
      ∀ s ∈ past, ∀ taskId o, s.Decides taskId o →
        ∀ alert ∈ db.alerts.rows, alert.IsAbout taskId → alert.status = o.alertStatus := by
  intro h
  have hstart : AlertRun { nodes := shellNodes } {} [] _ _ := .start
  have hrun := hstart.step createShell |>.step (.markRead 1 ⟨1, "admin"⟩ 0) |>.step approveShell
  obtain ⟨-, hactioned⟩ := h _ _ _ _ _ hrun
  have hclosed := hactioned _ (List.mem_append_right _ (List.mem_singleton.mpr rfl)) "t" .approved
    ⟨none, ⟨1, "admin"⟩, 10000000, rfl, by decide +kernel⟩
  exact absurd hclosed (by decide +kernel)

end GpuFleet
