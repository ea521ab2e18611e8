import GpuFleet.Server.Metrics

/-!
# The latency of claims

A task is claimed by a heartbeat, and nothing observes how long it waited.  The latency of a claim
is observed when the node reports the event `claimed` of a task that it has claimed before, each
time it does.

`transitions_counted_iff` says that both metrics of transitions are right in every state of a run
if and only if nothing is claimed in it and no such event is accepted.
-/

namespace GpuFleet

open Foundations

/-! ## The condition -/

/-- The task of the node that a heartbeat reports as active. -/
def reportedTask (db : Db) (nodeId : String) (payload : HeartbeatRequest) : Option Task :=
  (payload.activeTaskId.filter (· ≠ "")).bind fun taskId =>
    (db.tasks.get? taskId).filter fun row => row.nodeId = nodeId

/-- The operation is a heartbeat of an enabled node that claims a task: the pending one it
reports, or the next one when it reports none of its own. -/
def ClaimsTask (db : Db) : SystemOp → Prop
  | .heartbeat nodeId payload _ =>
      (db.nodes.get? nodeId).any Node.isEnabled = true ∧
        ((reportedTask db nodeId payload).any (fun row => row.status = .pending) = true ∨
          reportedTask db nodeId payload = none ∧ (nextPending db.tasks nodeId).isSome = true)
  | _ => False

/-- The operation is the event `claimed` of an enabled node for a claimed task of its own. -/
def ReportsClaim (db : Db) : SystemOp → Prop
  | .event nodeId payload _ =>
      (db.nodes.get? nodeId).any Node.isEnabled = true ∧ payload.event = .claimed ∧
        ∃ row, db.tasks.get? payload.taskId = some row ∧ row.nodeId = nodeId ∧
          row.status = .claimed
  | _ => False

/-! ## Claims -/

/-- The tasks after a heartbeat of an enabled node. -/
def tasksAfterHeartbeat (db : Db) (nodeId : String) (payload : HeartbeatRequest)
    (nowIso : String) : Table Task :=
  match reportedTask db nodeId payload with
  | some row =>
      if row.status = .pending then (TaskStmt.setReported row.taskId nowIso).apply db.tasks
      else db.tasks
  | none => (TaskStmt.claimNext nodeId nowIso).apply db.tasks

section Claims

variable {settings : Settings} {crypto : Crypto} {nodeId : String} {payload : HeartbeatRequest}

/-- The synchronisation finds the task that is reported, and claims it when it is pending. -/
theorem syncReportedActiveTask_tasks {w : Db} (nowIso : String) :
    (syncReportedActiveTask nodeId payload.activeTaskId nowIso).wp (fun _ _ => True)
      (fun _ _ => False)
      (fun r w' => (reportedTask w nodeId payload = none → r = none ∧ w'.tasks = w.tasks) ∧
        ∀ row ∈ reportedTask w nodeId payload, r.isSome = true ∧
          w'.tasks = if row.status = .pending then
            (TaskStmt.setReported row.taskId nowIso).apply w.tasks else w.tasks) w := by
  unfold syncReportedActiveTask
  cases htask : payload.activeTaskId with
  | none => simp [reportedTask, htask]
  | some taskId =>
      simp only
      split
      · rename_i hempty
        simp [reportedTask, htask, hempty, Option.filter_some]
      · rename_i hne
        have hreported : reportedTask w nodeId payload =
            (w.tasks.get? taskId).filter fun row => row.nodeId = nodeId := by
          simp [reportedTask, htask, hne, Option.filter_some]
        rw [hreported, Prog.query_bind, Prog.wp_select]
        cases hrow : (w.tasks.get? taskId).filter fun row => row.nodeId = nodeId with
        | none => simp
        | some row =>
            obtain ⟨hget, hnode⟩ := Option.filter_eq_some_iff.mp hrow
            have hnode : row.nodeId = nodeId := of_decide_eq_true hnode
            have hkey : row.taskId = taskId := Table.get?_key hget
            simp only
            split
            · rename_i hpending
              simp [TaskStmt.get?_setReported _ hget, TaskStmt.edit, hnode, hpending, hkey]
            · rename_i hstatus
              simp [hstatus]

theorem heartbeat_tasks {start : Db} (keep : Nat) (node : Node) (now : Nat) :
    (heartbeat keep nodeId node payload now).wp (fun _ _ => True) (fun _ _ => False)
      (fun _ w => w.tasks = tasksAfterHeartbeat start nodeId payload (utcNowIso now)) start := by
  simp only [heartbeat, Prog.execute_bind, Prog.wp_write]
  refine ⟨trivial, trivial, trivial, ?_⟩
  rw [Prog.wp_bind]
  refine Prog.wp_imp (syncReportedActiveTask_tasks _) ?_
  rintro r w ⟨hnone, hsome⟩
  -- What came before is no statement on `tasks`.
  have hnone : reportedTask start nodeId payload = none → r = none ∧ w.tasks = start.tasks := hnone
  have hsome : ∀ row ∈ reportedTask start nodeId payload, r.isSome = true ∧
      w.tasks = if row.status = .pending then
        (TaskStmt.setReported row.taskId (utcNowIso now)).apply start.tasks else start.tasks :=
    hsome
  cases hrow : reportedTask start nodeId payload with
  | none =>
      obtain ⟨rfl, hw⟩ := hnone hrow
      have hafter : tasksAfterHeartbeat start nodeId payload (utcNowIso now) =
          (TaskStmt.claimNext nodeId (utcNowIso now)).apply w.tasks := by
        rw [tasksAfterHeartbeat, hrow, hw]
      rw [hafter]
      exact ⟨trivial, trivial, fun _ => rfl⟩
  | some row =>
      obtain ⟨hr, hw⟩ := hsome row hrow
      obtain ⟨found, rfl⟩ := Option.isSome_iff_exists.mp hr
      have hafter : tasksAfterHeartbeat start nodeId payload (utcNowIso now) = w.tasks := by
        rw [tasksAfterHeartbeat, hrow, hw]
      rw [hafter]
      exact ⟨trivial, fun _ => rfl⟩

/-- A heartbeat of an enabled node. -/
theorem Step.Runs.tasks_heartbeat {s : Step} {x : World} {now : Nat}
    (h : s.Runs settings crypto x) (hop : s.op = .heartbeat nodeId payload now)
    (henabled : (s.before.nodes.get? nodeId).any Node.isEnabled = true) :
    s.after.tasks = tasksAfterHeartbeat s.before nodeId payload (utcNowIso now) := by
  have hcode : (s.op.code settings crypto).wp (fun _ _ => True) (fun _ _ => False)
      (fun _ w => w.tasks = tasksAfterHeartbeat s.before nodeId payload (utcNowIso now))
      s.before := by
    obtain ⟨node, hget, hen⟩ := (Option.any_eq_true ..).mp henabled
    rw [hop, SystemOp.code, asNode, Prog.wp_bind, Prog.wp_query, hget, Option.filter_some,
      if_pos hen]
    simp only
    rw [Prog.wp_bind]
    exact heartbeat_tasks _ node now
  obtain ⟨-, -, hafter⟩ := hcode.returns x
  rw [h.after]
  exact hafter

/-- The next pending task is a task that is found and pending. -/
theorem nextPending_found {tasks : Table Task} {row : Task}
    (h : nextPending tasks nodeId = some row) :
    tasks.get? row.taskId = some row ∧ row.status = .pending := by
  rw [nextPending] at h
  split at h
  · cases h
  · obtain ⟨hmem, hsel⟩ := List.mem_filter.mp (firstBy_mem h)
    simp only [Bool.and_eq_true, decide_eq_true_eq] at hsel
    exact ⟨Table.get?_of_mem hmem, hsel.2⟩

/-- A heartbeat that meets the condition claims a task. -/
theorem Step.Runs.claims {s : Step} {x : World} (h : s.Runs settings crypto x)
    (hclaims : ClaimsTask s.before s.op) : ∃ taskId, s.claims taskId = true := by
  have claimed : ∀ {q : TaskStmt} {row : Task}, (∀ row, q ≠ .insert row) →
      s.before.tasks.get? row.taskId = some row → row.status = .pending →
      q.selects s.before.tasks row = true → (q.edit row).status = .claimed →
      s.after.tasks = q.apply s.before.tasks → s.claims row.taskId = true := by
    intro q row hins hrow hpending hsel hstatus hafter
    rw [Step.claims, statusOf, statusOf, hafter, hrow,
      TaskStmt.get?_apply_selected hins hrow hsel, Option.map_some, Option.map_some, hpending,
      hstatus]
    simp
  cases hop : s.op with
  | heartbeat nodeId payload now =>
      rw [hop] at hclaims
      obtain ⟨henabled, hreported | ⟨hnone, hnext⟩⟩ := hclaims
      · obtain ⟨row, hrow, hpending⟩ := (Option.any_eq_true ..).mp hreported
        have hpending : row.status = .pending := of_decide_eq_true hpending
        have hafter := h.tasks_heartbeat hop henabled
        rw [tasksAfterHeartbeat, hrow] at hafter
        simp only [hpending, if_true] at hafter
        obtain ⟨taskId, -, hfound⟩ := Option.bind_eq_some_iff.mp hrow
        obtain ⟨hget, -⟩ := Option.filter_eq_some_iff.mp hfound
        have hkey : row.taskId = taskId := Table.get?_key hget
        exact ⟨_, claimed (q := .setReported row.taskId (utcNowIso now)) (by intro _ h; cases h)
          (hkey ▸ hget) hpending (decide_eq_true rfl) rfl hafter⟩
      · obtain ⟨row, hrow⟩ := Option.isSome_iff_exists.mp hnext
        obtain ⟨hget, hpending⟩ := nextPending_found hrow
        have hafter := h.tasks_heartbeat hop henabled
        rw [tasksAfterHeartbeat, hnone] at hafter
        simp only at hafter
        exact ⟨_, claimed (by intro _ h; cases h) hget hpending
          (by simp [TaskStmt.selects, hrow, hpending]) rfl hafter⟩
  | _ =>
      rw [hop] at hclaims
      exact hclaims.elim

/-- A heartbeat that does not meet the condition leaves the tasks. -/
theorem tasksAfterHeartbeat_eq {db : Db} {now : Nat}
    (h : ¬ ClaimsTask db (.heartbeat nodeId payload now))
    (henabled : (db.nodes.get? nodeId).any Node.isEnabled = true) (nowIso : String) :
    tasksAfterHeartbeat db nodeId payload nowIso = db.tasks := by
  have hnot := fun hclaims => h ⟨henabled, hclaims⟩
  rw [tasksAfterHeartbeat]
  cases hrow : reportedTask db nodeId payload with
  | none =>
      have hnext : nextPending db.tasks nodeId = none := by
        by_contra hsome
        exact hnot (Or.inr ⟨hrow, Option.isSome_iff_ne_none.mpr hsome⟩)
      simp only
      rw [TaskStmt.apply_update (by intro _ h; cases h), TaskStmt.updateRows]
      exact Table.update_eq_self fun row _ => by simp [TaskStmt.selects, hnext]
  | some row =>
      refine if_neg fun hpending => hnot (Or.inl ?_)
      rw [hrow, Option.any_some]
      exact decide_eq_true hpending

/-- Other operations claim nothing. -/
theorem claimed_before {op : SystemOp} {start w : Db} {taskId : String} {q : Dml}
    (hop : ∀ nodeId payload now, op ≠ .heartbeat nodeId payload now)
    (h : Permitted op start q w) (hissued : op.Issued q)
    (hw : statusOf taskId w = some .claimed → statusOf taskId start = some .claimed) :
    statusOf taskId (Statement.apply q w) = some .claimed →
      statusOf taskId start = some .claimed := by
  cases q with
  | task q =>
      intro hafter
      obtain ⟨row', hrow', hstatus⟩ := Option.map_eq_some_iff.mp hafter
      have hrow' : (q.apply w.tasks).get? taskId = some row' := hrow'
      by_cases hins : ∃ row, q = .insert row
      · obtain ⟨row, rfl⟩ := hins
        rcases TaskStmt.get?_insert row w.tasks taskId with hsame | ⟨-, hnew, -⟩
        · exact hw (by rw [statusOf, ← hsame, hrow', Option.map_some, hstatus])
        · obtain ⟨⟨payload, ctx, id, key, -, -, -, -, rfl⟩, -⟩ := h
          cases hnew.symm.trans hrow'
          have hnot := admissionOf_not_active payload.type ctx.review (utcNowIso ctx.now)
            (utcNowIso ctx.reviewedAt)
          rw [show (admissionOf ..).status = _ from hstatus] at hnot
          cases hnot
      · rw [TaskStmt.get?_apply fun row e => hins ⟨row, e⟩] at hrow'
        obtain ⟨row, hrow, rfl⟩ := Option.map_eq_some_iff.mp hrow'
        split at hstatus
        · rename_i hsel
          have hkey : row.taskId = taskId := Table.get?_key hrow
          cases q with
          | insert row => exact absurd ⟨row, rfl⟩ hins
          | setEvent id =>
              obtain ⟨⟨old, e, hold, hacc, hevent, -, -⟩, -⟩ := h
              have hid : row.taskId = id := of_decide_eq_true hsel
              have he : e = .claimed := by
                have he : e.status = .claimed := hevent ▸ hstatus
                cases e <;> first | rfl | cases he
              subst he
              have hclaimed : old.status = .claimed := by simpa [taskEventTransitions] using hacc
              rw [statusOf, ← hkey, hid, hold, Option.map_some, hclaimed]
          | setEscalated => exact hw (by rw [statusOf, hrow]; exact congrArg some hstatus)
          | setCancelled | setCancelRequested | setApproved | setRejected | setReviewExpired =>
              cases hstatus
          | setBackground id status =>
              rcases h.1.1 with rfl | rfl <;> cases hstatus
          | setResult id status => cases status <;> cases hstatus
          | claimNext | setReported =>
              cases op with
              | heartbeat nodeId payload now => exact absurd rfl (hop nodeId payload now)
              | _ => simp [SystemOp.Issued, SystemOp.IssuesTask, TransitionEvent.Updates] at hissued
        · exact hw (by rw [statusOf, hrow]; exact congrArg some hstatus)
  | _ => exact hw

/-- The code of a node that is not enabled does nothing. -/
theorem asNode_dbAfter {α : Type} {db : Db} {body : Node → Tx α} (x : World)
    (h : ¬ (db.nodes.get? nodeId).any Node.isEnabled = true) :
    (asNode nodeId body).dbAfter db x = db := by
  have hnone : (db.nodes.get? nodeId).filter Node.isEnabled = none := by
    rw [Option.filter_eq_none_iff]
    intro node hnode hen
    exact h (by rw [hnode, Option.any_some, hen])
  rw [asNode, Prog.query_bind, Prog.dbAfter, Prog.atomic, Prog.exec_select, hnone]
  rfl

/-- A step that does not meet the condition claims nothing. -/
theorem Step.Runs.not_claims {s : Step} {x : World} (h : s.Runs settings crypto x)
    (hnot : ¬ ClaimsTask s.before s.op) (taskId : String) : s.claims taskId = false := by
  have hsame : statusOf taskId s.after = some .claimed →
      statusOf taskId s.before = some .claimed := by
    cases hop : s.op with
    | heartbeat nodeId payload now =>
        by_cases henabled : (s.before.nodes.get? nodeId).any Node.isEnabled = true
        · rw [hop] at hnot
          rw [statusOf, h.tasks_heartbeat hop henabled, tasksAfterHeartbeat_eq hnot henabled]
          exact id
        · rw [h.after, hop, SystemOp.code, asNode_dbAfter x henabled]
          exact id
    | _ =>
        refine h.keeps_issued (I := fun w => statusOf taskId w = some .claimed →
          statusOf taskId s.before = some .claimed) (fun q w hq hissued hw => ?_) id
        exact claimed_before (by rw [hop]; intro _ _ _ h; cases h) hq hissued hw
  rw [Step.claims, Bool.and_eq_false_iff]
  by_cases hafter : statusOf taskId s.after = some .claimed
  · refine Or.inl (decide_eq_false fun hpending => ?_)
    cases (hsame hafter).symm.trans hpending
  · exact Or.inr (decide_eq_false hafter)

end Claims

/-! ## Latencies -/

section Latencies

variable {settings : Settings} {crypto : Crypto} {db : Db} {taskId nowIso : String}

theorem not_timesClaim_record {row : Task} {status : TaskStatus} {observedAt : String}
    (h : status ≠ .claimed) :
    (recordTaskTransitionMetrics row status observedAt).countP (Observation.timesClaim taskId) =
      0 := by
  rw [recordTaskTransitionMetrics, if_neg h, List.nil_append]
  split
  · rw [List.countP_cons, countP_of_map fun _ => rfl]
    rfl
  · rfl

theorem not_timesClaim_recordFor {tasks : Table Task} {id : String} {status : TaskStatus}
    {observedAt : String} (h : status ≠ .claimed) :
    (recordFor tasks id status observedAt).countP (Observation.timesClaim taskId) = 0 := by
  rw [recordFor]
  cases tasks.get? id with
  | none => rfl
  | some row => exact not_timesClaim_record h

/-- Only an event can observe the latency of a claim. -/
theorem not_timesClaim {op : SystemOp} {start : Db} {q : Dml} (h : Permitted op start q db)
    (hevent : ∀ id, q.kind ≠ some (.event id)) :
    (Dml.observed nowIso (q, db)).countP (Observation.timesClaim taskId) = 0 := by
  cases q with
  | task q =>
      rw [observed_task]
      cases q with
      | setEvent id => exact absurd rfl (hevent id)
      | setCancelled | setRejected | setReviewExpired =>
          exact not_timesClaim_recordFor (by intro h; cases h)
      | setBackground id status =>
          refine not_timesClaim_recordFor ?_
          rcases h.1.1 with rfl | rfl <;> intro h <;> cases h
      | setResult id status =>
          rw [TaskStmt.observed]
          split
          · exact not_timesClaim_recordFor (by cases status <;> intro h <;> cases h)
          · rfl
      | _ => rfl
  | _ => rfl

/-- An event updates a task of the node in a status that accepts it, to its own status. -/
def UpdatesTask (nodeId : String) (payload : NodeTaskEventRequest) (start : Db) (q : Dml) : Prop :=
  (∃ row, start.tasks.get? payload.taskId = some row ∧ row.nodeId = nodeId ∧
      taskEventTransitions payload.event row.status = true) ∧
    ∃ startedAt finishedAt,
      q = .task (.setEvent payload.taskId payload.event.status startedAt finishedAt)

theorem taskEvents_updates (nodeId : String) (payload : NodeTaskEventRequest) (now : Nat) :
    (taskEvents nodeId payload now).wp
      (fun q _ => ∀ id, q.kind = some (.event id) → UpdatesTask nodeId payload db q)
      (fun _ _ => True) (fun _ _ => True) db := by
  rw [taskEvents, Prog.wp_bind, loadTaskForNode, Prog.wp_bind, Prog.wp_query]
  cases hrow : (db.tasks.get? payload.taskId).filter fun row => row.nodeId = nodeId with
  | none => trivial
  | some row =>
      obtain ⟨hget, hnode⟩ := Option.filter_eq_some_iff.mp hrow
      simp only [Prog.pure_eq, Prog.wp_ret]
      rw [Prog.wp_bind]
      refine catchTaskState_wp (fun _ _ => trivial) ?_
      rw [transitionTask, Prog.wp_bind, getTaskRow_wp, hget]
      simp only [applyNodeEvent]
      split
      · trivial
      · rename_i hacc
        have hacc : taskEventTransitions payload.event row.status = true := by simpa using hacc
        refine ⟨fun _ _ => ⟨⟨row, hget, of_decide_eq_true hnode, hacc⟩, _, _, rfl⟩, ?_⟩
        show (getTaskRow payload.taskId).wp _ _ _ _
        rw [getTaskRow_wp]
        split
        · trivial
        · rw [Prog.wp_bind, upsertTaskAttempt, Prog.wp_bind, Prog.wp_query]
          split <;> exact ⟨fun _ h => (by cases h), trivial⟩

/-- An operation that is no accepted event `claimed` observes no claim. -/
theorem SystemOp.not_timesClaim {op : SystemOp} (h : ¬ ReportsClaim db op) (x : World) :
    (op.observations settings crypto db x).countP (Observation.timesClaim taskId) = 0 := by
  have hcode : (op.code settings crypto).wp
      (fun q w => (Dml.observed (utcNowIso op.now) (q, w)).countP
        (Observation.timesClaim taskId) = 0) (fun _ _ => True) (fun _ _ => True) db := by
    cases op with
    | event nodeId payload now =>
        have hpermitted := @SystemOp.code_wp db settings crypto (.event nodeId payload now)
        refine Prog.wp_mono (Prog.wp_and hpermitted (show Prog.wp (fun q _ => ∀ id,
            q.kind = some (.event id) → (db.nodes.get? nodeId).any Node.isEnabled = true ∧
              UpdatesTask nodeId payload db q) (fun _ _ => True) (fun _ _ => True) _ db from ?_))
          (fun q w hq => ?_) (fun _ _ _ => trivial) fun _ _ _ => trivial
        · refine asNode_wp (fun _ => trivial) fun henabled _ => ?_
          rw [GpuFleet.silently, Prog.wp_bind]
          refine Prog.wp_mono (taskEvents_updates nodeId payload now) (fun q _ hq id hid => ?_)
            (fun _ _ => id) fun _ _ _ => trivial
          exact ⟨henabled, hq id hid⟩
        · by_cases hkind : ∃ id, q.kind = some (.event id)
          · obtain ⟨id, hkind⟩ := hkind
            obtain ⟨henabled, ⟨row, hrow, hnode, hacc⟩, startedAt, finishedAt, rfl⟩ := hq.2 id hkind
            refine not_timesClaim_recordFor fun hstatus => h ⟨henabled, ?_⟩
            have hevent : payload.event = .claimed := by
              cases he : payload.event <;> rw [he] at hstatus <;> first | rfl | cases hstatus
            rw [hevent] at hacc
            exact ⟨hevent, row, hrow, hnode, by simpa [taskEventTransitions] using hacc⟩
          · exact GpuFleet.not_timesClaim hq.1 fun id hid => hkind ⟨id, hid⟩
    | _ =>
        refine Prog.wp_mono (Prog.wp_avoids (@SystemOp.code_wp db settings crypto _)
          (SystemOp.code_issues settings crypto _)) (fun q w hq => ?_) (fun _ _ _ => trivial)
          fun _ _ _ => trivial
        refine GpuFleet.not_timesClaim hq.1 fun id hid => hq.2 ⟨_, hid, ?_⟩
        simp [SystemOp.kinds]
  rw [List.countP_eq_zero]
  intro o ho
  obtain ⟨s, hs, ho⟩ := List.mem_flatMap.mp ho
  exact List.countP_eq_zero.mp (hcode.of_mem_writes x hs) o ho

/-- The times that an observed latency is computed from. -/
structure Stamped (time : Nat) (db : Db) : Prop where
  created : ∀ row ∈ db.tasks.rows, Stamp time row.createdAt
  finished : ∀ row ∈ db.tasks.rows, row.status.isTerminal = false →
    ∀ s ∈ row.finishedAt, Stamp time s

variable {time : Nat}

/-- The latency between two clock readings can be computed. -/
theorem secondsBetween_isSome {start finish : String} (htime : time ≤ Iso.maxMicros)
    (hstart : Stamp time start) (hfinish : Stamp time finish) :
    (secondsBetween (some start) (some finish)).isSome = true := by
  obtain ⟨m, hm, rfl⟩ := hstart
  obtain ⟨n, hn, rfl⟩ := hfinish
  have hm := Nat.lt_of_lt_of_le hm htime
  have hn := Nat.lt_of_lt_of_le hn htime
  have hparse : ∀ {t}, t < Iso.maxMicros →
      Iso.fromisoformat (utcNowIso t) = some ⟨t / 1000000 * 1000000, some 0⟩ := fun ht =>
    Iso.fromisoformat_isoformat (Iso.seconds_lt ht)
  simp [secondsBetween, Option.filter_some, utcNowIso_ne_empty hm, utcNowIso_ne_empty hn, hparse hm,
    hparse hn]

/-- The update of an accepted event `claimed`. -/
theorem writes_claimed {nodeId : String} {payload : NodeTaskEventRequest} {now : Nat} {row : Task}
    (henabled : (db.nodes.get? nodeId).any Node.isEnabled = true)
    (hevent : payload.event = .claimed) (hrow : db.tasks.get? payload.taskId = some row)
    (hnode : row.nodeId = nodeId) (hstatus : row.status = .claimed) (x : World) :
    ∃ rest, (SystemOp.code settings crypto (.event nodeId payload now)).writes db x =
      (.task (.setEvent payload.taskId .claimed row.startedAt row.finishedAt), db) :: rest := by
  obtain ⟨node, hget, hen⟩ := (Option.any_eq_true ..).mp henabled
  simp [SystemOp.code, asNode, hget, Option.filter_some, hen, GpuFleet.silently, taskEvents,
    loadTaskForNode, hrow, hnode, catchTaskState, transitionTask, getTaskRow, applyNodeEvent,
    hevent, hstatus, taskEventTransitions, NodeEvent.status, TaskStatus.isTerminal]

/-- An accepted event `claimed` observes a claim. -/
theorem SystemOp.timesClaim {op : SystemOp} (h : Stamped time db) (htime : time ≤ Iso.maxMicros)
    (hnow : op.now < time) (hreports : ReportsClaim db op) (x : World) :
    ∃ taskId, 0 <
      (op.observations settings crypto db x).countP (Observation.timesClaim taskId) := by
  cases op with
  | event nodeId payload now =>
      obtain ⟨henabled, hevent, row, hrow, hnode, hstatus⟩ := hreports
      obtain ⟨rest, hwrites⟩ : ∃ rest,
          (SystemOp.code settings crypto (.event nodeId payload now)).writes db x =
            (.task (.setEvent payload.taskId .claimed row.startedAt row.finishedAt), db) :: rest :=
        writes_claimed henabled hevent hrow hnode hstatus x
      have hmem := Table.get?_mem hrow
      have hobserved : Stamp time (orElse row.finishedAt (utcNowIso now)) := by
        have hnow : Stamp time (utcNowIso now) := ⟨now, hnow, rfl⟩
        cases hs : row.finishedAt with
        | none => exact hnow
        | some s =>
            rw [orElse]
            split
            · exact hnow
            · exact h.finished row hmem (by rw [hstatus]; rfl) s hs
      obtain ⟨latency, hlatency⟩ := Option.isSome_iff_exists.mp
        (secondsBetween_isSome htime (h.created row hmem) hobserved)
      refine ⟨row.taskId, List.countP_pos_iff.mpr ⟨.claimLatency row.taskId latency, ?_, ?_⟩⟩
      · rw [SystemOp.observations, hwrites, List.flatMap_cons, List.mem_append]
        left
        show _ ∈ recordFor db.tasks payload.taskId .claimed (orElse row.finishedAt (utcNowIso now))
        rw [recordFor, hrow, Option.elim_some, recordTaskTransitionMetrics, hlatency]
        exact List.mem_append_left _ (List.mem_singleton_self _)
      · exact decide_eq_true rfl
  | _ => exact hreports.elim

/-- Every statement keeps the times. -/
theorem stamped_apply {op : SystemOp} {start : Db} {q : Dml} {w : Db}
    (hstart : Stamped time start) (h : Permitted op start q w) (hnow : op.now < time)
    (hw : Stamped time w) : Stamped time (Statement.apply q w) := by
  cases q with
  | task q =>
      have stamp : ∀ {s}, s = utcNowIso op.now → Stamp time s := fun hs => ⟨op.now, hnow, hs⟩
      refine ⟨fun row' hrow' => ?_, fun row' hrow' hlive s hs => ?_⟩
      · rcases TaskStmt.mem_apply_cases hrow' with
          ⟨row, hrow, rfl⟩ | ⟨row, hrow, -, rfl⟩ | ⟨row, rfl, rfl⟩
        · exact hw.created _ hrow
        · rw [(q.edit_frame row).2.2.2.2.1]
          exact hw.created _ hrow
        · obtain ⟨⟨payload, ctx, taskId, key, -, rfl, -, -, rfl⟩, -⟩ := h
          exact stamp rfl
      · rcases TaskStmt.mem_apply_cases hrow' with
          ⟨row, hrow, rfl⟩ | ⟨row, hrow, hsel, rfl⟩ | ⟨row, rfl, rfl⟩
        · exact hw.finished _ hrow hlive s hs
        · cases q with
          | insert row => cases hsel
          | setEvent id =>
              obtain ⟨⟨old, e, hold, hacc, -, -, hfinished⟩, -⟩ := h
              rcases hfinished with heq | heq
              · have hold_live := not_isTerminal_of_isActive (isActive_of_taskEventTransitions hacc)
                exact hstart.finished old (Table.get?_mem hold) hold_live s (heq ▸ hs)
              · have hs : some s = some (utcNowIso op.now) := hs.symm.trans heq
                exact stamp (Option.some.inj hs)
          | setCancelRequested id finishedAt =>
              have hs : some s = some (utcNowIso op.now) := by
                rw [← hs, TaskStmt.edit, h.1.2]
                rfl
              exact stamp (Option.some.inj hs)
          | setEscalated => exact hw.finished row hrow hlive s hs
          | setApproved =>
              simp only [TaskStmt.selects, Bool.and_eq_true, decide_eq_true_eq] at hsel
              exact hw.finished row hrow (by rw [hsel.2]; rfl) s hs
          | claimNext =>
              simp only [TaskStmt.selects, Bool.and_eq_true, decide_eq_true_eq] at hsel
              exact hw.finished row hrow (by rw [hsel.2]; rfl) s hs
          | setReported id =>
              obtain ⟨⟨-, old, payload, now, -, -, -, -, hold, hpending⟩, hsame⟩ := h
              rw [hsame.resolve_right Bool.false_ne_true] at hrow
              rw [← Table.eq_of_get? hold hrow (of_decide_eq_true hsel)] at hpending
              exact hstart.finished row hrow (by rw [hpending]; rfl) s hs
          | setCancelled | setRejected | setReviewExpired => cases hlive
          | setBackground id status =>
              rcases h.1.1 with rfl | rfl <;> cases hlive
          | setResult id status =>
              exact absurd (hlive.symm.trans status.isTerminal) Bool.false_ne_true
        · cases hs
  | _ => exact ⟨hw.created, hw.finished⟩

end Latencies

/-! ## Runs -/

section Counted

variable {settings : Settings} {crypto : Crypto} {db : Db} {x : World} {time : Nat}

theorem steps_append (past later : List SystemOp) :
    steps settings crypto db x (past ++ later) = steps settings crypto db x past ++
      steps settings crypto (finish settings crypto db x past).1
        (finish settings crypto db x past).2 later := by
  induction past generalizing db x with
  | nil => rfl
  | cons op past ih => exact congrArg (_ :: ·) ih

theorem observations_append (past later : List SystemOp) :
    observations settings crypto db x (past ++ later) = observations settings crypto db x past ++
      observations settings crypto (finish settings crypto db x past).1
        (finish settings crypto db x past).2 later := by
  induction past generalizing db x with
  | nil => rfl
  | cons op past ih =>
      rw [List.cons_append, observations, observations, ih, List.append_assoc]
      rfl

/-- A step of a run is one of its operations, run from where those before it lead to. -/
theorem exists_of_mem_steps {ops : List SystemOp} {s : Step}
    (h : s ∈ steps settings crypto db x ops) :
    ∃ past op later, ops = past ++ op :: later ∧ s = op.step settings crypto
      (finish settings crypto db x past).1 (finish settings crypto db x past).2 := by
  induction ops generalizing db x with
  | nil => cases h
  | cons op ops ih =>
      rcases List.mem_cons.mp h with rfl | h
      · exact ⟨[], op, ops, rfl, rfl⟩
      · obtain ⟨past, op', later, rfl, rfl⟩ := ih h
        exact ⟨op :: past, op', later, rfl, rfl⟩

/-- Where nothing is claimed and no claim is reported, nothing is observed of claims. -/
theorem no_claims {ops : List SystemOp} (h : ∀ s ∈ steps settings crypto db x ops,
      ¬ ClaimsTask s.before s.op ∧ ¬ ReportsClaim s.before s.op) (taskId : String) :
    (observations settings crypto db x ops).countP (Observation.timesClaim taskId) = 0 ∧
      (steps settings crypto db x ops).countP (Step.claims taskId) = 0 := by
  induction ops generalizing db x with
  | nil => exact ⟨rfl, rfl⟩
  | cons op ops ih =>
      obtain ⟨hclaims, hreports⟩ := h (op.step settings crypto db x) (List.mem_cons_self ..)
      obtain ⟨hobserved, hclaimed⟩ := ih fun s hs => h s (List.mem_cons_of_mem _ hs)
      have hop : (op.observations settings crypto db x).countP
          (Observation.timesClaim taskId) = 0 := op.not_timesClaim hreports x
      have hstep : (op.step settings crypto db x).claims taskId = false :=
        (op.step_runs db x).not_claims hclaims taskId
      rw [observations, List.countP_append, hop, hobserved, steps]
      refine ⟨rfl, ?_⟩
      rw [List.countP_cons_of_neg (by rw [← Bool.not_eq_true] at hstep; exact hstep)]
      exact hclaimed

/-- What the last operation of a run observes is what it claims, when the claims are counted
before and after it. -/
theorem CountsClaims.last {past : List SystemOp} {op : SystemOp}
    (hpast : CountsClaims settings crypto db x past)
    (h : CountsClaims settings crypto db x (past ++ [op])) (taskId : String) :
    (op.observations settings crypto (finish settings crypto db x past).1
        (finish settings crypto db x past).2).countP (Observation.timesClaim taskId) =
      if (op.step settings crypto (finish settings crypto db x past).1
        (finish settings crypto db x past).2).claims taskId = true then 1 else 0 := by
  have hcount := h taskId
  rw [observations_append, steps_append, List.countP_append, List.countP_append,
    hpast taskId] at hcount
  have hlast := Nat.add_left_cancel hcount
  rw [observations, observations, List.append_nil, steps, steps, List.countP_singleton] at hlast
  exact hlast

/-- In every state of a run that meets the condition the times can be read. -/
theorem stamped_of_mem {ops : List SystemOp} (hclock : ∀ op ∈ ops, op.now < time) {s : Step}
    (hs : s ∈ steps settings crypto {} x ops) : Stamped time s.before := by
  have hstart : Stamped time {} := by
    constructor <;> intro row hrow <;> cases hrow
  exact (steps_inv (I := Stamped time) (C := fun s => s.op.now < time)
    (fun _ _ hruns hnow hs => hruns.keeps (fun _ _ hq hw => stamped_apply hs hq hnow hw) hs) hstart
    (fun s hs => hclock s.op (op_mem_of_mem hs)) hs).1

variable (settings crypto x) in
/-- In every run from the empty database, and if year 9999 does not end within the longest timeout:
in every state of the run the ended tasks and the claims have been counted once each if and only
if no operation of it claims a task and no event `claimed` is accepted. -/
theorem transitions_counted_iff {ops : List SystemOp} (hclock : ∀ op ∈ ops, op.now < time)
    (htime : time + maxTimeoutSec * 1000000 ≤ Iso.maxMicros) :
    (∀ past, past <+: ops → CountsCompletions settings crypto {} x past ∧
        CountsClaims settings crypto {} x past) ↔
      ∀ s ∈ steps settings crypto {} x ops,
        ¬ ClaimsTask s.before s.op ∧ ¬ ReportsClaim s.before s.op := by
  constructor
  · intro hcounted s hs
    have hstamped := stamped_of_mem hclock hs
    obtain ⟨past, op, later, hops, rfl⟩ := exists_of_mem_steps hs
    have hlast := CountsClaims.last (hcounted past ⟨op :: later, hops.symm⟩).2
      (hcounted (past ++ [op]) ⟨later, by rw [hops, List.append_assoc]; rfl⟩).2
    have hnow : op.now < time := hclock op (by rw [hops]; simp)
    have hruns : (op.step settings crypto (finish settings crypto {} x past).1
        (finish settings crypto {} x past).2).Runs settings crypto
          (finish settings crypto {} x past).2 := op.step_runs _ _
    constructor
    · intro hclaims
      obtain ⟨taskId, hclaimed⟩ := hruns.claims hclaims
      have hreports : ¬ ReportsClaim (finish settings crypto {} x past).1 op := by
        cases op <;> first | exact id | exact hclaims.elim
      have hobserved := hlast taskId
      rw [op.not_timesClaim hreports, if_pos hclaimed] at hobserved
      exact Nat.zero_ne_one hobserved
    · intro hreports
      obtain ⟨taskId, hpos⟩ := op.timesClaim hstamped
        (Nat.le_trans (Nat.le_add_right _ _) htime) hnow hreports
        (finish settings crypto {} x past).2
      have hclaims : ¬ ClaimsTask (finish settings crypto {} x past).1 op := by
        cases op <;> first | exact id | exact hreports.elim
      have hobserved := hlast taskId
      rw [hruns.not_claims hclaims taskId, if_neg Bool.false_ne_true] at hobserved
      exact Nat.lt_irrefl 0 (hobserved ▸ hpos)
  · rintro hnone past ⟨later, rfl⟩
    refine ⟨completions_counted settings crypto x
      (fun op hop => hclock op (List.mem_append_left _ hop)) htime, fun taskId => ?_⟩
    obtain ⟨hobserved, hclaimed⟩ := no_claims (fun s hs => hnone s (by
      rw [steps_append]
      exact List.mem_append_left _ hs)) taskId
    rw [hobserved, hclaimed]

end Counted

/-- A task that is cancelled before it is claimed. -/
def cancelPending : List SystemOp :=
  claimTask.take 2 ++ [.cancel "t" ⟨1, "admin"⟩ 0]

/-- Everything about it is counted. -/
theorem transitions_counted_cancelPending :
    (observations {} plainCrypto {} {} cancelPending).countP (Observation.completes "t") = 1 ∧
      ∀ past, past <+: cancelPending → CountsCompletions {} plainCrypto {} {} past ∧
        CountsClaims {} plainCrypto {} {} past := by
  refine ⟨by decide +kernel, ?_⟩
  have hclock : ∀ op ∈ cancelPending, op.now < 1 := by decide
  refine (transitions_counted_iff {} plainCrypto {} hclock (by decide)).mpr fun s hs => ?_
  have hop : s.op ∈ cancelPending := op_mem_of_mem hs
  simp only [cancelPending, claimTask, List.take_succ_cons, List.take_zero, List.cons_append,
    List.nil_append, List.mem_cons, List.not_mem_nil, or_false] at hop
  rcases hop with hop | hop | hop <;> rw [hop] <;> exact ⟨id, id⟩

/-- A claim by a heartbeat is not observed. -/
theorem claim_not_observed :
    ¬ ∀ (settings : Settings) (crypto : Crypto) (x : World) (ops : List SystemOp),
      CountsCompletions settings crypto {} x ops ∧ CountsClaims settings crypto {} x ops := by
  intro h
  have hcount := (h {} plainCrypto {} claimTask).2 "t"
  have hobserved : (observations {} plainCrypto {} {} claimTask).countP
      (Observation.timesClaim "t") = 0 := by
    decide +kernel
  have hclaimed : (steps {} plainCrypto {} {} claimTask).countP (Step.claims "t") = 1 := by
    decide +kernel
  rw [hobserved, hclaimed] at hcount
  cases hcount

end GpuFleet
