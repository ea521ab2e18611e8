import GpuFleet.Server.Permitted

/-!
# The review gate

A task of a high-risk type is sent to its node only if the reviewing model
approved it when it was created or an administrator approved it in the human
stage of its review.

Only a pending task is ever sent, and only two statements make a task pending:
the `INSERT` of a creation and the `UPDATE` of an approval.  So the invariant of
a run is that every pending task of a high-risk type was cleared by a step of
the past (`Gated`).
-/

namespace GpuFleet

open Foundations

/-- The step creates the task on the model's decision `approve`, or approves it in the human
stage of its review. -/
inductive Clears (s : Step) (taskId : String) : Prop where
  | llm {payload : AdminTaskCreateRequest} {ctx : CreateContext} {review : ReviewDecision}
      (op : s.op = .createTask payload ctx) (verdict : ctx.review = some review)
      (decision : review.decision = .approve) (absent : s.before.tasks.get? taskId = none)
      (created : (s.after.tasks.get? taskId).isSome = true)
  | human {note : Option String} {admin : Admin} {now : Nat} {row row' : Task}
      (op : s.op = .approve taskId note admin now) (found : s.before.tasks.get? taskId = some row)
      (reviewing : row.status = .reviewing) (stage : row.reviewStage = some 3)
      (saved : s.after.tasks.get? taskId = some row') (approved : row'.status = .pending)

/-- Pending tasks of high-risk types were cleared. -/
def Gated (past : List Step) (db : Db) : Prop :=
  ∀ row ∈ db.tasks.rows, row.type.isL2 = true → row.status = .pending →
    ∃ s ∈ past, Clears s row.taskId

/-- What clears a task, as an operation sees it before its end. -/
inductive Grants (op : SystemOp) (start : Db) (taskId : String) : Prop where
  | llm {payload : AdminTaskCreateRequest} {ctx : CreateContext} {review : ReviewDecision}
      (op : op = .createTask payload ctx) (verdict : ctx.review = some review)
      (decision : review.decision = .approve) (absent : start.tasks.get? taskId = none)
  | human {note : Option String} {admin : Admin} {now : Nat} {row : Task}
      (op : op = .approve taskId note admin now) (found : start.tasks.get? taskId = some row)
      (reviewing : row.status = .reviewing) (stage : row.reviewStage = some 3)

/-- A high-risk task that starts out pending was approved by the model. -/
theorem approved_of_admissionOf {type : TaskType} {review : Option ReviewDecision}
    {nowIso reviewedIso : String} (hrisk : type.isL2 = true)
    (h : (admissionOf type review nowIso reviewedIso).status = .pending) :
    ∃ result, review = some result ∧ result.decision = .approve := by
  unfold admissionOf at h
  rw [if_pos hrisk] at h
  cases review with
  | none => cases h
  | some result =>
      simp only at h
      split at h
      · exact ⟨result, rfl, ‹_›⟩
      · cases h

/-- A row that an update leaves pending was pending, or the operation grants it. -/
theorem pending_of_edit {op : SystemOp} {start : Db} {q : TaskStmt} {tasks : Table Task}
    {row : Task} (h : PermittedTask op start q) (hsel : q.selects tasks row = true)
    (hpending : (q.edit row).status = .pending) :
    row.status = .pending ∨ Grants op start row.taskId := by
  cases q with
  | insert _ => cases hsel
  | setEvent =>
      obtain ⟨-, e, -, -, rfl, -⟩ := h
      cases e <;> cases hpending
  | setEscalated => exact Or.inl hpending
  | setApproved taskId =>
      obtain ⟨⟨note, admin, now, hop⟩, old, hold, hreviewing, hstage⟩ := h
      have hid : row.taskId = taskId := by
        simp only [TaskStmt.selects, Bool.and_eq_true, decide_eq_true_eq] at hsel
        exact hsel.1
      rw [hid]
      exact Or.inr (.human hop hold hreviewing hstage)
  | setBackground =>
      rcases h with rfl | rfl <;> cases hpending
  | setResult _ status => cases status <;> cases hpending
  | setCancelled | setCancelRequested | setRejected | setReviewExpired | claimNext | setReported =>
      cases hpending

/-- A permitted statement leaves only tasks pending that were, or that the operation grants. -/
theorem grants_apply (past : List Step) {op : SystemOp} {start db : Db} {q : Dml}
    (h : Permitted op start q db)
    (hdb : ∀ row ∈ db.tasks.rows, row.type.isL2 = true → row.status = .pending →
      (∃ s ∈ past, Clears s row.taskId) ∨ Grants op start row.taskId) :
    ∀ row ∈ (Statement.apply q db).tasks.rows, row.type.isL2 = true → row.status = .pending →
      (∃ s ∈ past, Clears s row.taskId) ∨ Grants op start row.taskId := by
  intro row' hrow' hrisk hpending
  by_cases hq : ∃ t, q = .task t
  · obtain ⟨t, rfl⟩ := hq
    rcases TaskStmt.mem_apply_cases hrow' with ⟨row, hrow, rfl⟩ | ⟨row, hrow, hsel, rfl⟩ | hins
    · exact hdb row' hrow hrisk hpending
    · obtain ⟨-, hid, -, htype, -⟩ := t.edit_frame row
      rw [htype] at hrisk
      rw [hid]
      rcases pending_of_edit h.1 hsel hpending with hpending | hgrants
      · exact hdb row hrow hrisk hpending
      · exact Or.inr hgrants
    · obtain ⟨row, rfl, rfl⟩ := hins
      obtain ⟨⟨payload, ctx, taskId, key, -, hop, habsent, -, rfl⟩, -⟩ := h
      obtain ⟨review, hreview, happrove⟩ := approved_of_admissionOf hrisk hpending
      exact Or.inr (.llm hop hreview happrove habsent)
  · rw [apply_tasks db fun t e => hq ⟨t, e⟩] at hrow'
    exact hdb row' hrow' hrisk hpending

section Runs

variable {settings : Settings} {crypto : Crypto}

theorem Gated.step {past : List Step} {s : Step} {x : World} (h : s.Runs settings crypto x)
    (hs : Gated past s.before) : Gated (past ++ [s]) s.after := by
  have hafter := h.keeps (fun _ _ hq => grants_apply past hq)
    fun row hrow hrisk hpending => Or.inl (hs row hrow hrisk hpending)
  intro row hrow hrisk hpending
  have hget : s.after.tasks.get? row.taskId = some row := Table.get?_of_mem hrow
  rcases hafter row hrow hrisk hpending with ⟨t, ht, hclears⟩ | hgrants
  · exact ⟨t, List.mem_append_left _ ht, hclears⟩
  · refine ⟨s, List.mem_append_right _ (List.mem_singleton_self s), ?_⟩
    cases hgrants with
    | llm op verdict decision absent =>
        exact .llm op verdict decision absent (by rw [hget]; rfl)
    | human op found reviewing stage =>
        exact .human op found reviewing stage hget hpending

/-- In every run from a database without tasks, a task of a high-risk type that a heartbeat
delivers was cleared by an earlier step. -/
theorem delivered_only_if_cleared {nodes : Table Node} {x : World} {ops : List SystemOp}
    {pre post : List Step} {s : Step} {r : HeartbeatResponse} {env : TaskEnvelope}
    (h : steps settings crypto { nodes } x ops = pre ++ s :: post)
    (hr : s.reply = .ok (some r)) (henv : env ∈ r.tasks) (hrisk : env.type.isL2 = true) :
    ∃ t ∈ pre, Clears t env.taskId := by
  have hstart : Gated [] { nodes } := by
    intro row hrow
    cases hrow
  obtain ⟨⟨x', hruns⟩, hbefore, -⟩ := steps_induction (I := Gated) (C := fun _ => True)
    (fun _ _ _ hruns _ hs => hs.step hruns) [] hstart (fun _ _ => trivial) h
  obtain ⟨row, hrow, hpending, rfl⟩ := hruns.delivers hr r rfl env henv
  exact hbefore row hrow hrisk hpending

end Runs

/-- A shell task that no model reviews, approved by an administrator and then sent. -/
def approvedByHuman : List SystemOp :=
  let admin : Admin := ⟨1, "admin"⟩
  [.createNode { nodeId := "n", displayName := "n", allowShell := true } ⟨"secret", "", ""⟩ admin 0,
    .createTask { nodeId := "n", type := .shell, taskId := some "t" }
      { admin, review := none, freshTaskId := "", freshKey := "", now := 0, reviewedAt := 0 },
    .approve "t" none admin 10000000, .heartbeat "n" { bootId := "b" } 10000000]

/-- The step delivers the task, which is of a high-risk type. -/
def Step.deliversRisk (s : Step) (taskId : String) : Bool :=
  match s.reply with
  | .ok (some r) => r.tasks.any fun env => env.taskId = taskId && env.type.isL2
  | _ => false

theorem delivered_after_approval :
    ∃ s ∈ steps {} plainCrypto {} {} approvedByHuman, s.deliversRisk "t" = true ∧
      ∃ t ∈ steps {} plainCrypto {} {} approvedByHuman, Clears t "t" := by
  have hrun : (steps {} plainCrypto {} {} approvedByHuman).any (fun s => s.deliversRisk "t") =
      true := by
    decide +kernel
  obtain ⟨s, hs, hrisk⟩ := List.any_eq_true.mp hrun
  obtain ⟨pre, post, hsplit⟩ := List.append_of_mem hs
  refine ⟨s, hs, hrisk, ?_⟩
  unfold Step.deliversRisk at hrisk
  split at hrisk
  · rename_i r hr
    obtain ⟨env, henv, hid⟩ := List.any_eq_true.mp hrisk
    simp only [Bool.and_eq_true, decide_eq_true_eq] at hid
    obtain ⟨t, ht, hclears⟩ := delivered_only_if_cleared hsplit hr henv hid.2
    rw [hid.1] at hclears
    exact ⟨t, by rw [hsplit]; exact List.mem_append_left _ ht, hclears⟩
  · cases hrisk

end GpuFleet
