import GpuFleet.Server.Permitted

/-!
# What the operations leave alone

The operations of `Server.System` write neither `task_logs` nor `artifacts`
(`Step.Runs.logs_artifacts`), and nothing in the storage directory
(`SystemOp.code_within`).
-/

namespace GpuFleet

open Foundations

/-- The storage directory stays. -/
def SameFiles (w w' : World) : Prop := w'.files = w.files

/-! ## Helpers -/

section Helpers

variable {α : Type}

theorem query_within (f : Db → α) : (Prog.query f : Tx α).Within SameFiles := fun _ => trivial

theorem execute_within (q : Dml) : (Prog.execute q : Tx Unit).Within SameFiles := fun _ => trivial

theorem executeReturning_within (q : Dml) (f : Db → α) :
    (Prog.executeReturning q f : Tx α).Within SameFiles := fun _ => trivial

theorem ofExcept_within (r : Except Exc α) : (ofExcept r : Tx α).Within SameFiles := by
  cases r <;> trivial

theorem emitEvent_within (name : String) (payload : Json) (severity : String) :
    (emitEvent name payload severity).Within SameFiles :=
  ⟨fun _ => rfl, fun _ => trivial⟩

theorem catchTaskState_within {p : Tx α} {handler : String → Exc} (h : p.Within SameFiles) :
    (catchTaskState p fun m => .raise (handler m)).Within SameFiles := by
  refine h.tryCatch fun e => ?_
  cases e <;> trivial

theorem getTaskRow_within (taskId : String) : (getTaskRow taskId).Within SameFiles := by
  refine (query_within _).bind fun row => ?_
  cases row <;> trivial

theorem findNode_within (nodeId : String) : (findNode nodeId).Within SameFiles := by
  refine (query_within _).bind fun row => ?_
  cases row <;> trivial

theorem loadTaskForNode_within (nodeId taskId : String) :
    (loadTaskForNode nodeId taskId).Within SameFiles := by
  refine (query_within _).bind fun row => ?_
  cases row <;> trivial

theorem update_within (q : Dml) (taskId : String) :
    (Prog.execute q >>= fun _ => getTaskRow taskId : Tx Task).Within SameFiles :=
  (execute_within q).bind fun _ => getTaskRow_within taskId

theorem transitionTask_within (taskId : String) (event : TransitionEvent) (args : TransitionArgs) :
    (transitionTask taskId event args).Within SameFiles := by
  refine (getTaskRow_within taskId).bind fun row => ?_
  cases event <;> simp only [applyNodeEvent, applyCancel]
  all_goals repeat' first | exact trivial | exact update_within _ _ | split

theorem readThenTransition_within (taskId : String) (event : TransitionEvent)
    (args : TransitionArgs) :
    (do
      let row ← getTaskRow taskId
      let saved ← transitionTask taskId event args
      pure (row, saved) : Tx (Task × Task)).Within SameFiles :=
  (getTaskRow_within taskId).bind fun _ => (transitionTask_within taskId event args).bind
    fun _ => trivial

theorem taskRowToDetail_within (row : Task) : (taskRowToDetail row).Within SameFiles :=
  (query_within _).bind fun _ => (query_within _).bind fun _ => trivial

theorem upsertTaskAttempt_within (taskId nodeId status : String) (args : AttemptArgs) :
    (upsertTaskAttempt taskId nodeId status args).Within SameFiles := by
  refine (query_within _).bind fun existing => ?_
  cases existing <;> exact execute_within _

end Helpers

/-! ## Operation by operation -/

section Operations

theorem createNode_within (crypto : Crypto) (payload : NodeCreateRequest) (secret : NewSecret)
    (admin : Admin) (now : Nat) :
    (createNode crypto payload secret admin now).Within SameFiles := by
  refine (ofExcept_within _).bind fun _ => (query_within _).bind fun existing => ?_
  split
  · trivial
  · refine (executeReturning_within _ _).bind fun conflict => ?_
    split
    · trivial
    · exact (execute_within _).bind fun _ => findNode_within _

theorem updateNode_within (nodeId : String) (payload : NodeUpdateRequest) (admin : Admin)
    (now : Nat) : (updateNode nodeId payload admin now).Within SameFiles := by
  rw [updateNode]
  split
  · trivial
  · exact (findNode_within _).bind fun _ => (execute_within _).bind fun _ =>
      (execute_within _).bind fun _ => findNode_within _

theorem setNodeEnabled_within (nodeId : String) (enabled : Bool) (admin : Admin) (now : Nat) :
    (setNodeEnabled nodeId enabled admin now).Within SameFiles :=
  (findNode_within _).bind fun _ => (execute_within _).bind fun _ =>
    (execute_within _).bind fun _ => findNode_within _

theorem renewSecret_within (crypto : Crypto) (action nodeId : String) (secret : NewSecret)
    (admin : Admin) (now : Nat) :
    (renewSecret crypto action nodeId secret admin now).Within SameFiles :=
  (ofExcept_within _).bind fun _ => (findNode_within _).bind fun _ =>
    (execute_within _).bind fun _ => (execute_within _).bind fun _ => findNode_within _

theorem checkTarget_within (payload : AdminTaskCreateRequest) :
    (checkTarget payload).Within SameFiles := by
  refine (query_within _).bind fun node => ?_
  cases node with
  | none => trivial
  | some node =>
      simp only
      repeat' split
      all_goals trivial

theorem createTask_within (payload : AdminTaskCreateRequest) (ctx : CreateContext) :
    (createTask payload ctx).Within SameFiles := by
  refine (checkTarget_within payload).bind fun _ => (query_within _).bind fun existing => ?_
  split
  · trivial
  · refine (executeReturning_within _ _).bind fun conflict => ?_
    split
    · trivial
    · have readBack : ∀ (taskId : String) (detail : Json) (k : Option Task → Tx AdminTaskDetail),
          (∀ row, (k row).Within SameFiles) → (do
            auditTask ctx.admin "create_task" taskId detail (utcNowIso ctx.now)
            reconnect
            let row ← Prog.query fun db => db.tasks.get? taskId
            k row).Within SameFiles := by
        intro taskId detail k hk
        exact (execute_within _).bind fun _ => Prog.Within.bind (p := reconnect) trivial fun _ =>
          (query_within _).bind hk
      simp only
      split
      · split
        · exact (execute_within _).bind fun _ => readBack _ _ _ fun row => by cases row <;> trivial
        · exact readBack _ _ _ fun row => by cases row <;> trivial
      · refine (execute_within _).bind fun _ => ?_
        split
        · exact (execute_within _).bind fun _ => readBack _ _ _ fun row => by cases row <;> trivial
        · exact readBack _ _ _ fun row => by cases row <;> trivial

theorem cancelTask_within (taskId : String) (admin : Admin) (now : Nat) :
    (cancelTask taskId admin now).Within SameFiles :=
  (catchTaskState_within (readThenTransition_within _ _ _)).bind fun ⟨_, saved⟩ =>
    (execute_within _).bind fun _ => taskRowToDetail_within saved

theorem escalateReview_within (taskId : String) (note : Option String) (admin : Admin) (now : Nat) :
    (escalateReview taskId note admin now).Within SameFiles :=
  (catchTaskState_within (readThenTransition_within _ _ _)).bind fun ⟨_, saved⟩ =>
    (execute_within _).bind fun _ => (execute_within _).bind fun _ =>
      (emitEvent_within _ _ _).bind fun _ => taskRowToDetail_within saved

theorem rejectReview_within (taskId : String) (note : Option String) (admin : Admin) (now : Nat) :
    (rejectReview taskId note admin now).Within SameFiles :=
  (catchTaskState_within (readThenTransition_within _ _ _)).bind fun ⟨_, saved⟩ =>
    (execute_within _).bind fun _ => (execute_within _).bind fun _ =>
      (execute_within _).bind fun _ => taskRowToDetail_within saved

theorem checkCooldown_within (taskId : String) (row : Task) (now : Nat) :
    (checkCooldown taskId row now).Within SameFiles := by
  rw [checkCooldown]
  split
  · trivial
  · split
    · trivial
    · refine (ofExcept_within _).bind fun _ => ?_
      split <;> trivial

theorem approveReview_within (taskId : String) (note : Option String) (admin : Admin) (now : Nat) :
    (approveReview taskId note admin now).Within SameFiles := by
  refine (catchTaskState_within (getTaskRow_within taskId)).bind fun row => ?_
  split
  · trivial
  · exact (checkCooldown_within _ _ _).bind fun _ =>
      (catchTaskState_within (transitionTask_within _ _ _)).bind fun saved =>
        (execute_within _).bind fun _ => (execute_within _).bind fun _ =>
          (execute_within _).bind fun _ => taskRowToDetail_within saved

theorem syncReportedActiveTask_within (nodeId : String) (activeTaskId : Option String)
    (claimedAt : String) :
    (syncReportedActiveTask nodeId activeTaskId claimedAt).Within SameFiles := by
  unfold syncReportedActiveTask
  split
  · trivial
  · split
    · trivial
    · refine (query_within _).bind fun row => ?_
      cases row with
      | none => trivial
      | some row =>
          simp only
          split
          · exact (execute_within _).bind fun _ => query_within _
          · trivial

theorem heartbeat_within (keep : Nat) (nodeId : String) (node : Node) (payload : HeartbeatRequest)
    (now : Nat) : (heartbeat keep nodeId node payload now).Within SameFiles := by
  refine (execute_within _).bind fun _ => (execute_within _).bind fun _ =>
    (execute_within _).bind fun _ => (syncReportedActiveTask_within _ _ _).bind fun active => ?_
  have rest : ∀ claimed : Option Task, (do
      let taskControls ← Prog.query fun db => cancelControls db nodeId
      reconnect
      Prog.execute (.snapshot (.trim nodeId keep))
      reconnect
      let refreshFingerprint ← takeFingerprintRefresh nodeId
      pure ({ serverTime := utcNowIso now, nodeId
              tasks := (claimed.map Task.envelope).toList, taskControls
              refreshFingerprint } : HeartbeatResponse)).Within SameFiles :=
    fun _ _ _ => ⟨fun _ => rfl, fun _ => trivial⟩
  cases active with
  | some row => exact rest none
  | none => exact (executeReturning_within _ _).bind rest

theorem taskEvents_within (nodeId : String) (payload : NodeTaskEventRequest) (now : Nat) :
    (taskEvents nodeId payload now).Within SameFiles :=
  (loadTaskForNode_within _ _).bind fun _ =>
    (catchTaskState_within (transitionTask_within _ _ _)).bind fun _ =>
      (upsertTaskAttempt_within _ _ _ _).bind fun _ => trivial

theorem finalizeTaskResult_within (taskId : String) (finalStatus : FinalStatus)
    (startedAt finishedAt nowIso : String) :
    (finalizeTaskResult taskId finalStatus startedAt finishedAt nowIso).Within SameFiles := by
  refine (getTaskRow_within taskId).bind fun row => ?_
  split
  · trivial
  · refine (executeReturning_within _ _).bind fun rowcount => ?_
    split
    · refine (getTaskRow_within taskId).bind fun row => ?_
      split <;> trivial
    · exact (getTaskRow_within taskId).bind fun _ => trivial

theorem taskResult_within (nodeId : String) (payload : NodeTaskResultRequest) (now : Nat) :
    (taskResult nodeId payload now).Within SameFiles := by
  refine (loadTaskForNode_within _ _).bind fun _ =>
    (catchTaskState_within (finalizeTaskResult_within _ _ _ _ _)).bind fun ⟨row, duplicate⟩ => ?_
  simp only
  split
  · trivial
  · refine (upsertTaskAttempt_within _ _ _ _).bind fun _ =>
      Prog.Within.bind (p := reconnect) trivial fun _ => ?_
    split
    · exact (emitEvent_within _ _ _).bind fun _ => trivial
    · trivial

theorem giveUp_within (task : ActiveTask) (event : TransitionEvent) (action : String)
    (detail : Json) (webhook : String) (payload : Json) (nowIso : String) :
    (giveUp task event action detail webhook payload nowIso).Within SameFiles :=
  (transitionTask_within _ _ _).bind fun _ => (execute_within _).bind fun _ =>
    emitEvent_within _ _ _

theorem overdue_within (task : ActiveTask) (now : Nat) :
    (overdue task now).Within SameFiles := by
  refine (ofExcept_within _).bind fun late => ?_
  split
  · trivial
  · split
    · refine Prog.Within.bind ?_ fun _ => trivial
      refine (query_within _).bind fun row => ?_
      cases row with
      | none => trivial
      | some row => exact ofExcept_within _
    · exact (ofExcept_within _).bind fun _ => trivial

theorem scanTask_within (now : Nat) (nowIso : String) (task : ActiveTask) :
    (scanTask now nowIso task).Within SameFiles := by
  refine (overdue_within task now).bind fun reason => ?_
  cases reason with
  | none => trivial
  | some reason => cases reason <;> exact giveUp_within _ _ _ _ _ _ _

theorem markLostTasks_within (now : Nat) : (markLostTasks now).Within SameFiles :=
  (query_within _).bind fun _ => Prog.Within.forEach fun _ => scanTask_within _ _ _

theorem expireReviewingTasks_within (now : Nat) : (expireReviewingTasks now).Within SameFiles :=
  (query_within _).bind fun _ => Prog.Within.forEach fun _ =>
    (transitionTask_within _ _ _).bind fun _ => (execute_within _).bind fun _ =>
      emitEvent_within _ _ _

theorem asNode_within {α : Type} {nodeId : String} {body : Node → Tx α}
    (h : ∀ node, (body node).Within SameFiles) : (asNode nodeId body).Within SameFiles := by
  refine (query_within _).bind fun node => ?_
  cases node with
  | none => trivial
  | some node => exact h node

theorem silently_within {α : Type} {p : Tx α} (h : p.Within SameFiles) :
    (silently p).Within SameFiles :=
  h.bind fun _ => trivial

end Operations

/-- No operation writes anything in the storage directory. -/
theorem SystemOp.code_within (settings : Settings) (crypto : Crypto) (op : SystemOp) :
    (op.code settings crypto).Within SameFiles := by
  cases op with
  | createNode => exact silently_within (createNode_within _ _ _ _ _)
  | updateNode => exact silently_within (updateNode_within _ _ _ _)
  | setNodeEnabled => exact silently_within (setNodeEnabled_within _ _ _ _)
  | resetSecret | regenerateOnboarding => exact silently_within (renewSecret_within _ _ _ _ _ _)
  | createTask => exact silently_within (createTask_within _ _)
  | cancel => exact silently_within (cancelTask_within _ _ _)
  | escalate => exact silently_within (escalateReview_within _ _ _ _)
  | approve => exact silently_within (approveReview_within _ _ _ _)
  | reject => exact silently_within (rejectReview_within _ _ _ _)
  | heartbeat => exact asNode_within fun _ => (heartbeat_within _ _ _ _ _).bind fun _ => trivial
  | event => exact asNode_within fun _ => silently_within (taskEvents_within _ _ _)
  | result => exact asNode_within fun _ => silently_within (taskResult_within _ _ _)
  | markLost => exact silently_within (markLostTasks_within _)
  | expireReviews => exact silently_within (expireReviewingTasks_within _)

theorem SystemOp.files_after (settings : Settings) (crypto : Crypto) (op : SystemOp) (db : Db)
    (x : World) : ((op.code settings crypto).outsideAfter db x).files = x.files := by
  have trans : ∀ {x y z : World}, SameFiles x y → SameFiles y z → SameFiles x z :=
    fun h h' => Eq.trans h' h
  exact Prog.Within.outsideAfter (E := SameFiles) (fun _ => rfl) trans
    (op.code_within settings crypto) db x

/-- No operation writes `task_logs` or `artifacts`. -/
theorem Step.Runs.logs_artifacts {settings : Settings} {crypto : Crypto} {s : Step} {x : World}
    (h : s.Runs settings crypto x) :
    s.after.logs = s.before.logs ∧ s.after.artifacts = s.before.artifacts := by
  refine h.keeps (I := fun db => db.logs = s.before.logs ∧ db.artifacts = s.before.artifacts)
    (fun q db hq hdb => ?_) ⟨rfl, rfl⟩
  cases q with
  | log | artifact => exact hq.elim
  | _ => exact hdb

end GpuFleet
