import GpuFleet.Server.LatestStatus
import GpuFleet.Server.Recovery

/-!
# What a pass of the scanner does

A pass judges every task by the database at its start: by the start of the task
and its timeout, by the last time its node was heard of, and by the last request to
cancel it (`Judged`).  It goes through the tasks one after another, and what it
does to one task touches nothing that the others are judged by, so after the
pass every task is as it was judged (`markLostTasks_exact`).

A task that is cancelled again is judged by the later request.  It can stay in
`cancel_requested` longer than the scanner waits (`cancelledAgain_kept`).
-/

namespace GpuFleet

open Foundations

/-! ## The rules -/

/-- The time a text stands for, if the scanner can read it. -/
def timeOf (raw : String) : Option Int :=
  match parseUtcOrNone (some raw) with
  | .ok time => time
  | .error _ => none

/-- The task runs and has exceeded its timeout. -/
def TimedOut (now : Nat) (row : Task) : Prop :=
  row.status = .running ∧ ∃ raw ∈ row.startedAt, ∃ started ∈ timeOf raw,
    started + row.timeoutSec * 1000000 < now

/-- The task is claimed or running, and its node has been silent for more than three heartbeat
intervals.  A node that was never heard of is silent since the claim. -/
def Silent (db : Db) (now : Nat) (row : Task) : Prop :=
  (row.status = .claimed ∨ row.status = .running) ∧
    ∃ node, db.nodes.get? row.nodeId = some node ∧
      ∃ raw ∈ node.lastSeenAt <|> row.claimedAt, ∃ heard ∈ timeOf raw,
        3 * ((activeTask row node).interval : Int) * 1000000 < now - heard

/-- The audit row is a request to cancel the task. -/
def cancels (taskId : String) (row : AuditEvent) : Bool :=
  row.action = "cancel_task" && row.targetType = "task" && row.targetId = some taskId

/-- The last request to cancel the task was made at that time. -/
def LastCancel (db : Db) (taskId : String) (time : Int) : Prop :=
  (∃ row ∈ db.audits.rows, cancels taskId row = true ∧ timeOf row.createdAt = some time) ∧
    ∀ row ∈ db.audits.rows, cancels taskId row = true → ∀ t ∈ timeOf row.createdAt, t ≤ time

/-- The task is to be cancelled, and the last request was not acknowledged in time. -/
def CancelOverdue (db : Db) (now : Nat) (row : Task) : Prop :=
  row.status = .cancelRequested ∧ ∃ requested, LastCancel db row.taskId requested ∧
    (cancelAckTimeoutSec : Int) * 1000000 < now - requested

/-- What a pass makes of a row. -/
inductive Judged (db : Db) (now : Nat) (row : Task) : Task → Prop where
  | timeout (h : TimedOut now row) :
      Judged db now row { row with status := .timeout, finishedAt := some (utcNowIso now) }
  | lost (hrun : ¬ TimedOut now row) (h : Silent db now row ∨ CancelOverdue db now row) :
      Judged db now row { row with status := .lost, finishedAt := some (utcNowIso now) }
  | kept (hrun : ¬ TimedOut now row) (hheard : ¬ Silent db now row)
      (hcancel : ¬ CancelOverdue db now row) : Judged db now row row

/-! ## Reading times -/

theorem timeOf_utcNowIso {t : Nat} (h : t < Iso.maxMicros) :
    timeOf (utcNowIso t) = some (wholeSecond t : Int) := by
  rw [timeOf, parseUtcOrNone_utcNowIso h]

/-- The text of a clock reading is read. -/
theorem Stamp.parsed {time : Nat} {raw : String} (h : Stamp time raw) (htime : time ≤ Iso.maxMicros) :
    ∃ t : Nat, parseUtcOrNone (some raw) = .ok (some (t : Int)) ∧ timeOf raw = some (t : Int) := by
  obtain ⟨t, ht, rfl⟩ := h
  have hlt := Nat.lt_of_lt_of_le ht htime
  exact ⟨wholeSecond t, parseUtcOrNone_utcNowIso hlt, timeOf_utcNowIso hlt⟩

/-- Texts of clock readings are ordered as their times. -/
theorem Stamp.timeOf_le {a b : String} (ha : Stamp Iso.maxMicros a) (hb : Stamp Iso.maxMicros b)
    (hle : a ≤ b) {s t : Int} (hs : timeOf a = some s) (ht : timeOf b = some t) : s ≤ t := by
  obtain ⟨m, hm, rfl⟩ := ha
  obtain ⟨n, hn, rfl⟩ := hb
  rw [timeOf_utcNowIso hm] at hs
  rw [timeOf_utcNowIso hn] at ht
  cases hs
  cases ht
  refine Int.ofNat_le.mpr ?_
  by_contra hlt
  have hnot : ¬ utcNowIso n < utcNowIso m := String.not_lt.mpr hle
  rw [utcNowIso, utcNowIso, Iso.isoformat_lt_iff (Iso.seconds_lt hn) (Iso.seconds_lt hm)] at hnot
  simp only [wholeSecond] at hlt
  omega

/-- The first row by a decreasing column has the greatest value. -/
theorem firstBy_le {α : Type} {before : α → α → Bool} {f : α → String}
    (hbefore : ∀ a b, before a b = true → f b ≤ f a) (hnot : ∀ a b, before a b = false → f a ≤ f b)
    {l : List α} {r : α} (h : firstBy before l = some r) : ∀ a ∈ l, f a ≤ f r := by
  induction l generalizing r with
  | nil => cases h
  | cons b l ih =>
      rw [firstBy] at h
      cases hl : firstBy before l with
      | none =>
          rw [hl] at h
          cases h
          rw [firstBy_eq_none.mp hl]
          intro a ha
          rw [List.mem_singleton.mp ha]
      | some c =>
          rw [hl] at h
          simp only at h
          have hc := ih hl
          split at h
          · rename_i hcb
            cases h
            intro a ha
            rcases List.mem_cons.mp ha with rfl | ha
            · exact hbefore _ _ hcb
            · exact hc a ha
          · rename_i hcb
            cases h
            intro a ha
            rcases List.mem_cons.mp ha with rfl | ha
            · exact le_refl _
            · exact le_trans (hc a ha) (hnot _ _ (by simpa using hcb))

/-! ## The judgement of a task -/

/-- The status a task is given up with. -/
def Overdue.status : Overdue → TaskStatus
  | .timeout => .timeout
  | .cancelAck _ | .unresponsive | .neverSeen => .lost

/-- The row of a task, given up for a reason. -/
def givenUp (now : Nat) (row : Task) : Option Overdue → Task
  | none => row
  | some reason => { row with status := reason.status, finishedAt := some (utcNowIso now) }

section Judgement

variable {time now : Nat} {row : Task} {node : Node} {db w : Db}

theorem pastDeadline_iff (h : Scannable time (activeTask row node))
    (htime : time + maxTimeoutSec * 1000000 ≤ Iso.maxMicros) :
    ∃ late, pastDeadline (activeTask row node) now = .ok late ∧ (late = true ↔ TimedOut now row) := by
  unfold pastDeadline activeTask
  cases hs : row.startedAt with
  | none =>
      refine ⟨false, rfl, ?_⟩
      simp [TimedOut, hs]
  | some raw =>
      obtain ⟨t, ht, rfl⟩ := h.started raw hs
      have hlt : t < Iso.maxMicros := by omega
      have hend : t / 1000000 * 1000000 + row.timeoutSec * 1000000 < Iso.maxMicros := by
        have := h.timeout
        have : t / 1000000 * 1000000 ≤ t := wholeSecond_le t
        simp only [activeTask] at *
        omega
      simp only [utcNowIso_ne_empty hlt, or_false]
      by_cases hrun : row.status = .running
      · rw [if_neg (not_not.mpr hrun), utcNowIso,
          Iso.fromisoformat_isoformat (Iso.seconds_lt hlt), Option.elim]
        simp only [hend, if_true]
        refine ⟨_, rfl, ?_⟩
        rw [decide_eq_true_iff, TimedOut]
        simp [hrun, hs, timeOf_utcNowIso hlt, wholeSecond, momentOf]
      · rw [if_pos hrun]
        refine ⟨false, rfl, ?_⟩
        simp [TimedOut, hrun]

/-- The last support of a claimed or running task is the time it is judged by. -/
theorem lastSupport_eq (h : Scannable time (activeTask row node)) (htime : time ≤ Iso.maxMicros) :
    ∃ raw t reason, (node.lastSeenAt <|> row.claimedAt) = some raw ∧ timeOf raw = some t ∧
      lastSupport (activeTask row node) = .ok (some (t, reason)) ∧ reason.status = .lost := by
  simp only [lastSupport, activeTask]
  cases hseen : node.lastSeenAt with
  | some raw =>
      have hstamp := h.seen raw hseen
      obtain ⟨t, hparsed, htime'⟩ := hstamp.parsed htime
      have hne : raw ≠ "" := by
        obtain ⟨t, ht, rfl⟩ := hstamp
        exact utcNowIso_ne_empty (Nat.lt_of_lt_of_le ht htime)
      have hfilter : (some raw).filter (· ≠ "") = some raw := by
        simp [hne]
      rw [hfilter]
      refine ⟨raw, t, .unresponsive, rfl, htime', ?_, rfl⟩
      simp only [hparsed]
      rfl
  | none =>
      obtain ⟨raw, hraw, hstamp⟩ := h.claimed
      obtain ⟨t, hparsed, htime'⟩ := hstamp.parsed htime
      have hraw : row.claimedAt = some raw := hraw
      refine ⟨raw, t, .neverSeen, hraw, htime', ?_, rfl⟩
      simp only [Option.filter_none, hraw, hparsed]
      rfl

/-- The database has the requests to cancel of another one. -/
def SameCancels (db w : Db) : Prop :=
  ∀ taskId, w.audits.select (cancels taskId) = db.audits.select (cancels taskId)

theorem latestCancelRequestedAt_eq (hw : Readable w) (hsame : SameCancels db w) (taskId : String) :
    (latestCancelRequestedAt taskId).wp (fun _ _ => True) (fun _ _ => False)
      (fun requested w' => w' = w ∧ ∀ t, requested = some t ↔ LastCancel db taskId t) w := by
  rw [latestCancelRequestedAt, Prog.wp_bind, Prog.wp_query]
  have hmem : ∀ audit, audit ∈ w.audits.select (cancels taskId) ↔
      audit ∈ db.audits.rows ∧ cancels taskId audit = true := by
    intro audit
    rw [hsame taskId]
    exact List.mem_filter
  have hstamp : ∀ audit ∈ w.audits.select (cancels taskId), Stamp Iso.maxMicros audit.createdAt :=
    fun audit haudit => hw audit (List.mem_filter.mp haudit).1
  cases hfirst : firstBy _ (w.audits.select _) with
  | none =>
      refine ⟨rfl, fun t => ⟨fun h => (by cases h), ?_⟩⟩
      rintro ⟨⟨audit, haudit, hcancels, -⟩, -⟩
      have := (hmem audit).mpr ⟨haudit, hcancels⟩
      have hempty : w.audits.select (cancels taskId) = [] := firstBy_eq_none.mp hfirst
      rw [hempty] at this
      cases this
  | some audit =>
      have haudit : audit ∈ w.audits.select (cancels taskId) := firstBy_mem hfirst
      obtain ⟨t, hparsed, htime⟩ := (hstamp audit haudit).parsed (Nat.le_refl _)
      -- The row whose text is the greatest is the one made last.
      have hlast : LastCancel db taskId t := by
        refine ⟨⟨audit, ((hmem audit).mp haudit).1, ((hmem audit).mp haudit).2, htime⟩, ?_⟩
        intro other hother hcancels s hs
        have hother := (hmem other).mpr ⟨hother, hcancels⟩
        have hle : other.createdAt ≤ audit.createdAt := by
          refine firstBy_le (f := AuditEvent.createdAt) ?_ ?_ hfirst other hother
          · intro a b hab
            simp only [gt_iff_lt, Bool.or_eq_true, decide_eq_true_eq, Bool.and_eq_true] at hab
            rcases hab with hab | hab
            · exact le_of_lt hab
            · exact le_of_eq hab.1.symm
          · intro a b hab
            simp only [gt_iff_lt, Bool.or_eq_false_iff, decide_eq_false_iff_not] at hab
            exact String.not_lt.mp hab.1
        exact (hstamp other hother).timeOf_le (hstamp audit haudit) hle hs htime
      simp only [hparsed]
      refine ⟨rfl, fun s => ⟨?_, ?_⟩⟩
      · intro hs
        cases hs
        exact hlast
      · intro hs
        obtain ⟨⟨other, hother, hcancels, hsother⟩, hgreatest⟩ := hs
        have hle := hlast.2 other hother hcancels s hsother
        have hge := hgreatest audit ((hmem audit).mp haudit).1 ((hmem audit).mp haudit).2 t htime
        rw [Int.le_antisymm hge hle]

/-- The verdict of the scanner is the judgement of the task. -/
theorem overdue_judges (h : Scannable time (activeTask row node))
    (hactive : row.status.isActive = true) (hnode : db.nodes.get? row.nodeId = some node)
    (hw : Readable w) (hsame : SameCancels db w)
    (htime : time + maxTimeoutSec * 1000000 ≤ Iso.maxMicros) :
    (overdue (activeTask row node) now).wp (fun _ _ => True) (fun _ _ => False)
      (fun reason w' => w' = w ∧ Judged db now row (givenUp now row reason)) w := by
  have hpast : ∃ late, pastDeadline (activeTask row node) now = .ok late ∧
      (late = true ↔ TimedOut now row) := pastDeadline_iff h htime
  obtain ⟨late, hlate, hiff⟩ := hpast
  rw [overdue, hlate]
  simp only [ofExcept, Prog.ret_bind]
  cases late with
  | true => exact ⟨rfl, .timeout (hiff.mp rfl)⟩
  | false =>
      have hrun : ¬ TimedOut now row := fun ht => by
        have := hiff.mpr ht
        cases this
      simp only [Bool.false_eq_true, if_false]
      show (if row.status = .cancelRequested then _ else _ : Tx (Option Overdue)).wp _ _ _ _
      by_cases hcancel : row.status = .cancelRequested
      · have hsilent : ¬ Silent db now row := by
          simp [Silent, hcancel]
        rw [if_pos hcancel, Prog.wp_bind]
        refine Prog.wp_imp (latestCancelRequestedAt_eq hw hsame row.taskId) ?_
        rintro requested w' ⟨rfl, hrequested⟩
        refine ⟨rfl, ?_⟩
        cases requested with
        | none =>
            refine .kept hrun hsilent ?_
            rintro ⟨-, t, ht, -⟩
            have := (hrequested t).mpr ht
            cases this
        | some t =>
            have hlast := (hrequested t).mp rfl
            by_cases hlong : (cancelAckTimeoutSec : Int) * 1000000 < now - t
            · simp only [Option.filter_some, hlong, decide_true, if_true, Option.map_some]
              exact .lost hrun (Or.inr ⟨hcancel, t, hlast, hlong⟩)
            · simp only [Option.filter_some, hlong, decide_false, Bool.false_eq_true, if_false,
                Option.map_none]
              refine .kept hrun hsilent ?_
              rintro ⟨-, s, hs, hover⟩
              have heq := (hrequested s).mpr hs
              cases heq
              exact hlong hover
      · have hover : ¬ CancelOverdue db now row := fun ho => hcancel ho.1
        have hstatus : row.status = .claimed ∨ row.status = .running := by
          cases hrow : row.status <;> simp [hrow, TaskStatus.isActive] at hactive hcancel ⊢
        obtain ⟨raw, t, reason, hraw, htimeOf, hsupport, hlost⟩ :=
          lastSupport_eq h (Nat.le_of_add_right_le htime)
        rw [if_neg hcancel, hsupport]
        simp only [Prog.ret_bind]
        refine ⟨rfl, ?_⟩
        by_cases hlong : 3 * ((activeTask row node).interval : Int) * 1000000 < now - t
        · simp only [Option.filter_some, hlong, decide_true, if_true, Option.map_some, givenUp,
            hlost]
          exact .lost hrun (Or.inl ⟨hstatus, node, hnode, raw, hraw, t, htimeOf, hlong⟩)
        · simp only [Option.filter_some, hlong, decide_false, Bool.false_eq_true, if_false,
            Option.map_none, givenUp]
          refine .kept hrun ?_ hover
          rintro ⟨-, node', hnode', raw', hraw', s, hs, hsilent⟩
          obtain rfl := Option.some.inj (hnode.symm.trans hnode')
          obtain rfl := Option.some.inj (hraw.symm.trans hraw')
          obtain rfl := Option.some.inj (htimeOf.symm.trans hs)
          exact hlong hsilent

end Judgement

/-! ## The pass -/

/-- The task is as it was judged. -/
structure Settled (db : Db) (now : Nat) (taskId : String) (w : Db) : Prop where
  absent : db.tasks.get? taskId = none → w.tasks.get? taskId = none
  judged : ∀ row, db.tasks.get? taskId = some row →
    ∃ row', w.tasks.get? taskId = some row' ∧ Judged db now row row'

/-- In the middle of a pass the tasks to come are as they were, and the others are settled. -/
structure Passing (db : Db) (now : Nat) (rest : List ActiveTask) (w : Db) : Prop where
  readable : Readable w
  cancels : SameCancels db w
  distinct : (rest.map ActiveTask.taskId).Nodup
  active : ∀ task ∈ rest, task ∈ activeTasks db
  waiting : ∀ task ∈ rest, w.tasks.get? task.taskId = db.tasks.get? task.taskId
  settled : ∀ taskId, taskId ∉ rest.map ActiveTask.taskId → Settled db now taskId w

section Pass

variable {time now : Nat} {row : Task} {node : Node} {db w : Db}

/-- An audit row that is no request to cancel. -/
theorem SameCancels.insertAudit {audit : AuditEvent} (h : audit.action ≠ "cancel_task") :
    SameCancels w (Statement.apply (Dml.insertAudit audit) w) := by
  intro taskId
  have hnot : cancels taskId { audit with id := w.audits.seq + 1 } = false := by
    simp [GpuFleet.cancels, h]
  rw [Table.select, Table.select, rows_insertAudit, List.filter_append,
    List.filter_singleton, hnot]
  simp

/-- Giving a task up changes its row, and no request to cancel. -/
theorem giveUp_eq {event : TransitionEvent} {status : TaskStatus} {task : ActiveTask}
    (hevent : event = .backgroundTimeout ∧ status = .timeout ∨
      event = .backgroundLost ∧ status = .lost)
    (hrow : w.tasks.get? task.taskId = some row) (hnow : now < Iso.maxMicros) {action : String}
    (haction : action ≠ "cancel_task") (detail : Json) (webhook : String) (payload : Json) :
    (giveUp task event action detail webhook payload (utcNowIso now)).wp (fun _ _ => True)
      (fun _ _ => False)
      (fun _ w' => w'.tasks =
          (TaskStmt.setBackground task.taskId status (utcNowIso now)).apply w.tasks ∧
        (Readable w → Readable w') ∧ SameCancels w w') w := by
  have moved : ((do
      Prog.execute (.task (.setBackground task.taskId status (utcNowIso now)))
      getTaskRow task.taskId) : Tx Task).wp (fun _ _ => True) (fun _ _ => False)
      (fun _ w' => w'.tasks =
          (TaskStmt.setBackground task.taskId status (utcNowIso now)).apply w.tasks ∧
        w'.audits = w.audits) w := by
    rw [Prog.execute_bind, Prog.wp_write]
    refine ⟨trivial, ?_⟩
    rw [getTaskRow_wp, (setBackground_passes hrow (by rcases hevent with ⟨-, rfl⟩ | ⟨-, rfl⟩ <;> rfl)
      (utcNowIso now)).2]
    exact ⟨rfl, rfl⟩
  rw [giveUp, Prog.wp_bind]
  refine Prog.wp_imp (show Prog.wp _ _ (fun _ w' => w'.tasks =
      (TaskStmt.setBackground task.taskId status (utcNowIso now)).apply w.tasks ∧
    w'.audits = w.audits) _ _ from ?_) ?_
  · rw [transitionTask, Prog.wp_bind, getTaskRow_wp, hrow]
    rcases hevent with ⟨rfl, rfl⟩ | ⟨rfl, rfl⟩
    · simp only [orElse_some_self]
      exact moved
    · simp only [orElse_some_self]
      exact moved
  · rintro _ w' ⟨htasks, haudits⟩
    refine ⟨trivial, fun _ => ⟨htasks, fun hread audit haudit => ?_, fun taskId => ?_⟩⟩
    · rcases mem_insertAudit haudit with hold | rfl
      · exact hread audit (haudits ▸ hold)
      · exact ⟨now, hnow, rfl⟩
    · rw [SameCancels.insertAudit haction taskId, haudits]

/-- The scanner leaves a task as it is judged, and all others as they are. -/
theorem scanTask_judges (h : Scannable time (activeTask row node))
    (hactive : row.status.isActive = true) (hnode : db.nodes.get? row.nodeId = some node)
    (hrow : w.tasks.get? row.taskId = some row) (hw : Readable w) (hsame : SameCancels db w)
    (htime : time + maxTimeoutSec * 1000000 ≤ Iso.maxMicros) (hnow : now < Iso.maxMicros) :
    (scanTask now (utcNowIso now) (activeTask row node)).wp (fun _ _ => True) (fun _ _ => False)
      (fun _ w' => (∃ row', w'.tasks.get? row.taskId = some row' ∧ Judged db now row row') ∧
        (∀ taskId, taskId ≠ row.taskId → w'.tasks.get? taskId = w.tasks.get? taskId) ∧
        Readable w' ∧ SameCancels db w') w := by
  rw [scanTask, Prog.wp_bind]
  refine Prog.wp_imp (overdue_judges h hactive hnode hw hsame htime) ?_
  rintro reason w' ⟨rfl, hjudged⟩
  have give : ∀ {event status action detail webhook payload},
      (event = .backgroundTimeout ∧ status = .timeout ∨ event = .backgroundLost ∧ status = .lost) →
      action ≠ "cancel_task" →
      givenUp now row reason = { row with status, finishedAt := some (utcNowIso now) } →
      (giveUp (activeTask row node) event action detail webhook payload (utcNowIso now)).wp
        (fun _ _ => True) (fun _ _ => False)
        (fun _ w'' => (∃ row', w''.tasks.get? row.taskId = some row' ∧ Judged db now row row') ∧
          (∀ taskId, taskId ≠ row.taskId → w''.tasks.get? taskId = w'.tasks.get? taskId) ∧
          Readable w'' ∧ SameCancels db w'') w' := by
    intro event status action detail webhook payload hevent haction hgiven
    refine Prog.wp_imp (giveUp_eq hevent hrow hnow haction ..) ?_
    rintro _ w'' ⟨htasks, hread, hcancels⟩
    have hget := TaskStmt.get?_apply (q := .setBackground row.taskId status (utcNowIso now))
      (by intro _ h; cases h) w'.tasks
    refine ⟨⟨_, ?_, hjudged⟩, fun taskId hne => ?_, hread hw, fun taskId => ?_⟩
    · rw [htasks, hgiven]
      exact (setBackground_passes hrow
        (by rcases hevent with ⟨-, rfl⟩ | ⟨-, rfl⟩ <;> rfl) (utcNowIso now)).2
    · rw [htasks]
      refine (hget taskId).trans ?_
      cases hother : w'.tasks.get? taskId with
      | none => rfl
      | some other =>
          have hid : other.taskId = taskId := Table.get?_key hother
          have hsel : (TaskStmt.setBackground row.taskId status (utcNowIso now)).selects w'.tasks
              other = false := decide_eq_false (hid ▸ hne)
          rw [Option.map_some, hsel]
          rfl
    · rw [hcancels taskId, hsame taskId]
  cases reason with
  | none => exact ⟨⟨row, hrow, hjudged⟩, fun _ _ => rfl, hw, hsame⟩
  | some reason =>
      cases reason with
      | timeout => exact give (Or.inl ⟨rfl, rfl⟩) (by decide) rfl
      | cancelAck | unresponsive | neverSeen =>
          exact give (Or.inr ⟨rfl, rfl⟩) (by decide) rfl

/-- A row that is not active is kept. -/
theorem Judged.of_not_active (h : row.status.isActive = false) : Judged db now row row := by
  refine .kept ?_ ?_ ?_
  · rintro ⟨hrun, -⟩
    rw [hrun] at h
    cases h
  · rintro ⟨hrun | hrun, -⟩
    · rw [hrun] at h
      cases h
    · rw [hrun] at h
      cases h
  · rintro ⟨hcancel, -⟩
    rw [hcancel] at h
    cases h

/-- The join has each task once. -/
theorem activeTasks_distinct (db : Db) : ((activeTasks db).map ActiveTask.taskId).Nodup := by
  have hids : (activeTasks db).map ActiveTask.taskId =
      (db.tasks.select fun row => row.status.isActive).filterMap fun row =>
        (db.nodes.get? row.nodeId).map fun _ => row.taskId := by
    rw [activeTasks, List.map_filterMap]
    simp only [Option.map_map]
    rfl
  rw [hids, List.Nodup, List.pairwise_filterMap]
  have hrows : db.tasks.rows.Pairwise fun a b => a.taskId ≠ b.taskId :=
    List.pairwise_map.mp db.tasks.unique
  refine (hrows.filter _).imp fun {a b} hab x hx y hy => ?_
  obtain ⟨_, -, rfl⟩ := Option.map_eq_some_iff.mp hx
  obtain ⟨_, -, rfl⟩ := Option.map_eq_some_iff.mp hy
  exact hab

/-- A pass starts with every task that is not active settled. -/
theorem Dated.passing (h : Dated time db) (htime : time ≤ Iso.maxMicros) :
    Passing db now (activeTasks db) db where
  readable row hrow := by
    obtain ⟨t, ht, hs⟩ := h.audits row hrow
    exact ⟨t, Nat.lt_of_lt_of_le ht htime, hs⟩
  cancels _ := rfl
  distinct := activeTasks_distinct db
  active _ htask := htask
  waiting _ _ := rfl
  settled taskId hnot := by
    refine ⟨id, fun row hrow => ⟨row, hrow, Judged.of_not_active ?_⟩⟩
    have hmem := Table.get?_mem hrow
    by_contra hactive
    obtain ⟨node, hnode⟩ := Option.isSome_iff_exists.mp (h.home row hmem)
    refine hnot (List.mem_map.mpr ⟨activeTask row node, ?_, Table.get?_key hrow⟩)
    refine List.mem_filterMap.mpr ⟨row, List.mem_filter.mpr ⟨hmem, by simpa using hactive⟩, ?_⟩
    rw [hnode]
    rfl

/-- One turn of the loop settles its task. -/
theorem Passing.turn (hdb : Dated time db) {task : ActiveTask} {rest : List ActiveTask}
    (h : Passing db now (task :: rest) w)
    (htime : time + maxTimeoutSec * 1000000 ≤ Iso.maxMicros) (hnow : now < Iso.maxMicros) :
    (scanTask now (utcNowIso now) task).wp (fun _ _ => True) (fun _ _ => False)
      (fun _ w' => Passing db now rest w') w := by
  have htask := h.active task (List.mem_cons_self ..)
  obtain ⟨row, hrow, hjoin⟩ := List.mem_filterMap.mp htask
  obtain ⟨hmem, hactive⟩ := List.mem_filter.mp hrow
  obtain ⟨node, hnode, rfl⟩ := Option.map_eq_some_iff.mp hjoin
  have hget : db.tasks.get? row.taskId = some row := Table.get?_of_mem hmem
  have hfound : w.tasks.get? row.taskId = some row :=
    (h.waiting _ (List.mem_cons_self ..)).trans hget
  obtain ⟨hfresh, hdistinct⟩ := List.nodup_cons.mp h.distinct
  refine Prog.wp_imp (scanTask_judges (hdb.scannable htask).1 hactive hnode hfound h.readable
    h.cancels htime hnow) ?_
  rintro _ w' ⟨⟨row', hrow', hjudged⟩, hothers, hread, hcancels⟩
  refine ⟨hread, hcancels, hdistinct, fun other hother => h.active other (List.mem_cons_of_mem _ hother),
    fun other hother => ?_, fun taskId hnot => ?_⟩
  · have hne : other.taskId ≠ row.taskId := by
      intro heq
      exact hfresh (List.mem_map.mpr ⟨other, hother, heq⟩)
    exact (hothers _ hne).trans (h.waiting other (List.mem_cons_of_mem _ hother))
  · by_cases heq : taskId = row.taskId
    · subst heq
      refine ⟨fun hnone => ?_, fun old hold => ?_⟩
      · rw [hget] at hnone
        cases hnone
      · obtain rfl := Option.some.inj (hget.symm.trans hold)
        exact ⟨row', hrow', hjudged⟩
    · have hbefore := h.settled taskId (by simpa using ⟨heq, by simpa using hnot⟩)
      exact ⟨fun hnone => (hothers _ heq).trans (hbefore.absent hnone),
        fun old hold => by rw [hothers _ heq]; exact hbefore.judged old hold⟩

/-- A pass raises nothing and settles every task. -/
theorem Dated.pass (h : Dated time db) (htime : time + maxTimeoutSec * 1000000 ≤ Iso.maxMicros)
    (hnow : now < Iso.maxMicros) :
    (markLostTasks now).wp (fun _ _ => True) (fun _ _ => False)
      (fun _ w => ∀ taskId, Settled db now taskId w) db := by
  rw [markLostTasks, Prog.wp_bind, Prog.wp_query]
  refine Prog.wp_imp (Prog.wp_forEach (I := Passing db now) ?_
    (h.passing (Nat.le_of_add_right_le htime))) ?_
  · intro task rest w hw
    exact hw.turn h htime hnow
  · intro _ w hw taskId
    exact hw.settled taskId (by simp)

end Pass

/-- In every state that the operations of the server lead to, and if year 9999 does not end within
the longest timeout, a pass of the scanner at any time leaves every task as it is judged. -/
theorem markLostTasks_exact {settings : Settings} {crypto : Crypto} {x : World}
    {ops : List SystemOp} {time : Nat} (hclock : ∀ op ∈ ops, op.now < time)
    (htime : time + maxTimeoutSec * 1000000 ≤ Iso.maxMicros) {s : Step}
    (hs : s ∈ steps settings crypto {} x ops) {now : Nat} (hnow : now < Iso.maxMicros)
    (x' : World) :
    (markLostTasks now).resultOf s.after x' = .ok () ∧
      ∀ taskId, Settled s.after now taskId ((markLostTasks now).dbAfter s.after x') := by
  have hdated : Dated time s.after := by
    refine (steps_inv (I := Dated time) (C := fun s => s.op.now < time)
      (fun _ _ hruns hnow hs => Dated.step hruns hnow hs) ?_
      (fun s hs => hclock s.op (op_mem_of_mem hs)) hs).2
    constructor <;> intro row hrow <;> cases hrow
  obtain ⟨_, hresult, hsettled⟩ := (hdated.pass htime hnow).returns x'
  exact ⟨hresult, hsettled⟩

/-- A claimed task is cancelled after 10 seconds, and again after 250. -/
def cancelledAgain : List SystemOp :=
  claimTask ++ [.cancel "t" ⟨1, "admin"⟩ 10000000, .cancel "t" ⟨1, "admin"⟩ 250000000]

/-- A pass after 400 seconds. -/
theorem markLostTasks_exact_cancelledAgain :
    ∃ s ∈ steps {} plainCrypto {} {} cancelledAgain,
      statusOf "t" s.after = some .cancelRequested ∧
        (markLostTasks 400000000).resultOf s.after {} = .ok () ∧
          ∀ taskId, Settled s.after 400000000 taskId
            ((markLostTasks 400000000).dbAfter s.after {}) := by
  have hrun : (steps {} plainCrypto {} {} cancelledAgain).any
      (fun s => statusOf "t" s.after = some .cancelRequested) = true := by
    decide +kernel
  obtain ⟨s, hs, hcancel⟩ := List.any_eq_true.mp hrun
  exact ⟨s, hs, of_decide_eq_true hcancel, @markLostTasks_exact {} plainCrypto {} cancelledAgain
    1000000000 (by decide) (by decide) s hs 400000000 (by decide) {}⟩

/-- A task that has been `cancel_requested` for more than five minutes is not given up, when it was
cancelled again in between. -/
theorem cancelledAgain_kept :
    ¬ ∀ (settings : Settings) (crypto : Crypto) (ops : List SystemOp) (before rest : List Step)
      (first : Step) (taskId : String) (now : Nat) (x : World),
      steps settings crypto {} {} ops = before ++ first :: rest →
        (∀ s ∈ first :: rest, statusOf taskId s.after = some .cancelRequested) →
          first.op.now + cancelAckTimeoutSec * 1000000 < now →
            statusOf taskId ((markLostTasks now).dbAfter (finish settings crypto {} {} ops).1 x) =
              some .lost := by
  intro h
  have hsplit : steps {} plainCrypto {} {} cancelledAgain =
      (steps {} plainCrypto {} {} cancelledAgain).take 3 ++
        (steps {} plainCrypto {} {} cancelledAgain).drop 3 :=
    (List.take_append_drop ..).symm
  have hall : ((steps {} plainCrypto {} {} cancelledAgain).drop 3).all
      (fun s => statusOf "t" s.after = some .cancelRequested) = true := by
    decide +kernel
  have hfirst : ((steps {} plainCrypto {} {} cancelledAgain).drop 3).head?.any
      (fun s => s.op.now = 10000000) = true := by
    decide +kernel
  cases hlater : (steps {} plainCrypto {} {} cancelledAgain).drop 3 with
  | nil =>
      rw [hlater] at hfirst
      cases hfirst
  | cons first rest =>
      rw [hlater] at hsplit hall hfirst
      have hnow : first.op.now = 10000000 := by simpa using hfirst
      have hlost := h {} plainCrypto cancelledAgain _ rest first "t" 400000000 {} hsplit
        (fun s hs => of_decide_eq_true (List.all_eq_true.mp hall s hs))
        (by rw [hnow]; decide)
      exact absurd hlost (by decide +kernel)

end GpuFleet
