import GpuFleet.Server.Issued
import GpuFleet.Server.ReviewGate

/-!
# The cooldown of a human review

`approve_review` refuses a task for ten seconds.  It counts from
`review_started_at`, and two things set that time too early.  Every path cuts it
to the whole second, and `create_task` takes it when the request starts, before
the reviewing model answers that it is uncertain.

So an approval may come too early, and does exactly when it arrives between the
end of the ten seconds as they are counted and their end as they pass
(`cooldown_kept_iff`).  The invariant of a run is that the column of a waiting
task holds the second of the operation that took it into the human stage
(`Clocked`).
-/

namespace GpuFleet

open Foundations

/-! ## The human stage -/

/-- The task waits for an administrator. -/
def Task.awaitsHuman (row : Task) : Bool := row.status = .reviewing && row.reviewStage = some 3

/-- The task is there and waits for an administrator. -/
def awaitsHuman (taskId : String) (db : Db) : Bool := (db.tasks.get? taskId).any Task.awaitsHuman

/-- The moment an operation takes a task into the human stage: a new task waits once the model has
answered. -/
def SystemOp.entered : SystemOp → Nat
  | createTask _ ctx => if ctx.review.isSome then ctx.reviewedAt else ctx.now
  | op => op.now

/-- The step takes the task into the human stage. -/
def Step.enters (taskId : String) (s : Step) : Bool :=
  !awaitsHuman taskId s.before && awaitsHuman taskId s.after

/-- The operation that took the task into the human stage last. -/
def entryOf (past : List Step) (taskId : String) : Option SystemOp :=
  (past.filter (Step.enters taskId)).getLast?.map Step.op

/-- A waiting task stores the second of the operation that took it into the human stage. -/
def Clocked (past : List Step) (db : Db) : Prop :=
  ∀ row ∈ db.tasks.rows, row.awaitsHuman = true →
    ∃ entry, entryOf past row.taskId = some entry ∧
      row.reviewStartedAt = some (utcNowIso entry.now)

/-- The length of the cooldown. -/
def cooldown : Nat := humanReviewCooldownSec * 1000000

/-- An approval that succeeds comes after the cooldown has passed. -/
def Step.KeepsCooldown (past : List Step) (s : Step) : Prop :=
  ∀ taskId note admin now, s.op = .approve taskId note admin now → s.reply.isOk = true →
    ∃ entry, entryOf past taskId = some entry ∧ entry.entered + cooldown ≤ now

/-- The step is the approval of a waiting task at a moment when the cooldown is over as it is
counted, and has not passed. -/
def Step.Hasty (past : List Step) (s : Step) : Prop :=
  ∃ taskId note admin now entry, s.op = .approve taskId note admin now ∧
    awaitsHuman taskId s.before = true ∧ entryOf past taskId = some entry ∧
    wholeSecond entry.now + cooldown ≤ now ∧ now < entry.entered + cooldown

/-! ## How tasks enter the human stage -/

section Entries

variable {op : SystemOp} {start db : Db} {taskId : String} {row : Task}

theorem awaitsHuman_of_get? (hrow : db.tasks.get? taskId = some row) :
    awaitsHuman taskId db = row.awaitsHuman := by
  rw [awaitsHuman, hrow, Option.any_some]

/-- A task is escalated only if it does not wait yet. -/
def Escalates (start : Db) : Dml → Prop
  | .task (.setEscalated taskId _) => awaitsHuman taskId start = false
  | _ => True

/-- Statements on other tables escalate nothing. -/
theorem Executes.escalates {α : Type} {p : Tx α} (h : Executes (fun q => ∀ t, q ≠ .task t) p)
    (db : Db) : p.wp (fun q _ => Escalates start q) (fun _ _ => True) (fun _ _ => True) db := by
  refine Prog.Avoids.wp h (fun q _ hq => ?_) db
  cases q with
  | task t => exact absurd rfl (Classical.not_not.mp hq t)
  | _ => trivial

theorem escalateReview_wp (taskId : String) (note : Option String) (admin : Admin) (now : Nat) :
    (escalateReview taskId note admin now).wp (fun q _ => Escalates start q) (fun _ _ => True)
      (fun _ _ => True) start := by
  rw [escalateReview, Prog.wp_bind]
  refine catchTaskState_wp (fun _ _ => trivial) ?_
  rw [Prog.wp_bind, getTaskRow_wp]
  cases hrow : start.tasks.get? taskId with
  | none => trivial
  | some row =>
      simp only
      rw [Prog.wp_bind, transitionTask, Prog.wp_bind, getTaskRow_wp, hrow]
      simp only
      have rest : ∀ (out : Task × Task) db, (do
          createReviewAlert taskId out.1.type out.1.nodeId (utcNowIso now)
            ("任务 " ++ taskId ++ " 已升级到人工审核") now
          auditTask admin "escalate_task_review" taskId (.obj [("note", .ofOption note)])
            (utcNowIso now)
          emitEvent "review.escalated"
            (.obj [("task_id", .str taskId), ("type", .str out.1.type.text),
              ("node_id", .str out.1.nodeId), ("admin", .str admin.username)]) "info"
          taskRowToDetail out.2).wp (fun q _ => Escalates start q) (fun _ _ => True)
            (fun _ _ => True) db := by
        intro out db
        refine Executes.escalates ?_ db
        exact Executes.bind (p := createReviewAlert ..) (executes_execute fun _ => by simp) fun _ =>
          Executes.bind (p := auditTask ..) (executes_execute fun _ => by simp) fun _ =>
            executes_emitEvent.bind fun _ => taskRowToDetail_executes _
      split
      · trivial
      · split
        · trivial
        · rename_i hstage
          rw [Prog.wp_bind, Prog.wp_execute, getTaskRow_wp]
          refine ⟨?_, ?_⟩
          · show awaitsHuman taskId start = false
            rw [awaitsHuman_of_get? hrow, Task.awaitsHuman, decide_eq_false hstage, Bool.and_false]
          · split
            · trivial
            · exact rest _ _

/-- Tasks that wait within an operation waited before it, or the operation takes them there. -/
def Entered (op : SystemOp) (start db : Db) : Prop :=
  ∀ row ∈ db.tasks.rows, row.awaitsHuman = true →
    (∃ old, start.tasks.get? row.taskId = some old ∧ old.awaitsHuman = true ∧
      old.reviewStartedAt = row.reviewStartedAt) ∨
    (awaitsHuman row.taskId start = false ∧ row.reviewStartedAt = some (utcNowIso op.now))

/-- A new task that waits was told when its request started. -/
theorem reviewStartedAt_of_admissionOf {type : TaskType} {review : Option ReviewDecision}
    {nowIso reviewedIso : String}
    (h : (admissionOf type review nowIso reviewedIso).status = .reviewing) :
    (admissionOf type review nowIso reviewedIso).reviewStartedAt = some nowIso := by
  by_cases hrisk : type.isL2 = true
  · unfold admissionOf
    rw [if_pos hrisk]
    cases review <;> rfl
  · unfold admissionOf at h
    rw [if_neg hrisk] at h
    cases h

/-- An update leaves a task waiting that waited, or it is the escalation. -/
theorem awaitsHuman_of_edit {q : TaskStmt} {tasks : Table Task}
    (hstatus : ∀ id status startedAt finishedAt, q = .setEvent id status startedAt finishedAt →
      status ≠ .reviewing)
    (hfinal : ∀ id status finishedAt, q = .setBackground id status finishedAt →
      status ≠ .reviewing)
    (hsel : q.selects tasks row = true) (h : (q.edit row).awaitsHuman = true) :
    (row.awaitsHuman = true ∧ (q.edit row).reviewStartedAt = row.reviewStartedAt) ∨
      ∃ nowIso, q = .setEscalated row.taskId nowIso ∧
        (q.edit row).reviewStartedAt = some nowIso := by
  simp only [Task.awaitsHuman, Bool.and_eq_true, decide_eq_true_eq] at h
  cases q with
  | insert => cases hsel
  | setEvent id status startedAt finishedAt => exact absurd h.1 (hstatus _ _ _ _ rfl)
  | setBackground id status finishedAt => exact absurd h.1 (hfinal _ _ _ rfl)
  | setEscalated id nowIso =>
      rw [show row.taskId = id from of_decide_eq_true hsel]
      exact Or.inr ⟨nowIso, rfl, rfl⟩
  | setResult id status => cases status <;> cases h.1
  | setCancelled | setCancelRequested | setApproved | setRejected | setReviewExpired | claimNext
  | setReported => cases h.1

/-- A statement of an operation keeps account of the waiting tasks. -/
theorem Entered.apply {q : Dml} (hperm : Permitted op start q db) (hissued : op.Issued q)
    (hescalates : Escalates start q) (h : Entered op start db) :
    Entered op start (Statement.apply q db) := by
  by_cases hq : ∃ t, q = .task t
  · obtain ⟨t, rfl⟩ := hq
    intro row' hrow' hawaits
    rcases TaskStmt.mem_apply_cases hrow' with ⟨row, hrow, rfl⟩ | ⟨row, hrow, hsel, rfl⟩ | hins
    · exact h row' hrow hawaits
    · obtain ⟨-, hid, -⟩ := t.edit_frame row
      rw [hid]
      have hcases := awaitsHuman_of_edit (fun id status a b e => ?_) (fun id status a e => ?_) hsel
        hawaits
      · rcases hcases with ⟨hold, hstarted⟩ | ⟨nowIso, rfl, hstarted⟩
        · rw [hstarted]
          exact h row hrow hold
        · have hnow : TaskStmt.setEscalated row.taskId nowIso = .setEscalated row.taskId nowIso := rfl
          have hwhen : nowIso = utcNowIso op.now := by
            cases op with
            | escalate id note admin now =>
                cases (show TaskStmt.setEscalated _ _ = .setEscalated _ _ from hissued)
                rfl
            | createTask | approve | heartbeat | cancel | event | result | markLost
            | expireReviews | reject =>
                simp [SystemOp.Issued, SystemOp.IssuesTask, TransitionEvent.Updates] at hissued
            | _ => cases hissued
          exact Or.inr ⟨hescalates, by rw [hstarted, hwhen]⟩
      · subst e
        obtain ⟨old, e, -, -, rfl, -⟩ := hperm.1
        cases e <;> exact fun heq => by cases heq
      · subst e
        rcases hperm.1.1 with rfl | rfl <;> exact fun heq => by cases heq
    · obtain ⟨row, rfl, rfl⟩ := hins
      obtain ⟨⟨payload, ctx, taskId, key, -, rfl, habsent, -, rfl⟩, -⟩ := hperm
      simp only [Task.awaitsHuman, Bool.and_eq_true, decide_eq_true_eq] at hawaits
      refine Or.inr ⟨?_, reviewStartedAt_of_admissionOf hawaits.1⟩
      show awaitsHuman taskId start = false
      rw [awaitsHuman, habsent, Option.any_none]
  · intro row hrow
    rw [apply_tasks db fun t e => hq ⟨t, e⟩] at hrow
    exact h row hrow

end Entries

/-! ## Approvals -/

section Approvals

variable {taskId : String} {note : Option String} {admin : Admin} {now started : Nat} {start : Db}
  {row : Task}

/-- The row a handler starts with. -/
theorem catchTaskState_getTaskRow_wp {P : Dml → Db → Prop} {exn : Exc → Db → Prop}
    {post : Task → Db → Prop} (handler : String → Tx Task) :
    (catchTaskState (getTaskRow taskId) handler).wp P exn post start =
      match start.tasks.get? taskId with
      | none => (handler "Task not found").wp P exn post start
      | some row => post row start := by
  cases e : start.tasks.get? taskId <;>
    simp only [catchTaskState, Prog.wp_tryCatch, getTaskRow_wp, e]

/-- A task that does not wait is not approved. -/
theorem approveReview_refuses (h : awaitsHuman taskId start = false) :
    (approveReview taskId note admin now).wp (fun _ _ => True) (fun _ _ => True)
      (fun _ _ => False) start := by
  rw [approveReview, Prog.wp_bind, catchTaskState_getTaskRow_wp]
  cases hrow : start.tasks.get? taskId with
  | none => trivial
  | some row =>
      rw [awaitsHuman_of_get? hrow, Task.awaitsHuman, Bool.and_eq_false_iff,
        decide_eq_false_iff_not, decide_eq_false_iff_not] at h
      simp only
      rw [if_pos h]
      trivial

/-- The check of the cooldown counts from the whole second. -/
theorem checkCooldown_eq (hstarted : row.reviewStartedAt = some (utcNowIso started))
    (hclock : started < Iso.maxMicros) :
    checkCooldown taskId row now =
      if now < wholeSecond started + cooldown then
        .raise (.api
          { code := "ERR_REVIEW_COOLDOWN_NOT_REACHED"
            message := "Human review cooldown not reached (10s)"
            statusCode := 429
            details := [("task_id", .str taskId),
              ("retry_after_sec", .num humanReviewCooldownSec)] })
      else pure () := by
  rw [checkCooldown, hstarted]
  simp only
  rw [if_neg (utcNowIso_ne_empty hclock), parseMoment_utcNowIso hclock, ofExcept, Prog.ret_bind]
  refine if_congr ?_ rfl rfl
  unfold cooldown
  omega

/-- A task whose cooldown is not over as it is counted is not approved. -/
theorem approveReview_early (hrow : start.tasks.get? taskId = some row)
    (hstarted : row.reviewStartedAt = some (utcNowIso started)) (hclock : started < Iso.maxMicros)
    (hearly : now < wholeSecond started + cooldown) :
    (approveReview taskId note admin now).wp (fun _ _ => True) (fun _ _ => True)
      (fun _ _ => False) start := by
  rw [approveReview, Prog.wp_bind, catchTaskState_getTaskRow_wp, hrow]
  simp only
  split
  · trivial
  · rw [checkCooldown_eq hstarted hclock, if_pos hearly]
    trivial

/-- Any other waiting task is approved. -/
theorem approveReview_approves (hrow : start.tasks.get? taskId = some row)
    (hawaits : row.awaitsHuman = true) (hstarted : row.reviewStartedAt = some (utcNowIso started))
    (hclock : started < Iso.maxMicros) (hlate : wholeSecond started + cooldown ≤ now) :
    (approveReview taskId note admin now).wp (fun _ _ => True) (fun _ _ => False)
      (fun _ _ => True) start := by
  simp only [Task.awaitsHuman, Bool.and_eq_true, decide_eq_true_eq] at hawaits
  have hpending : ¬ (row.status ≠ .reviewing ∨ row.reviewStage ≠ some 3) := by
    simp [hawaits]
  have hsel (level : String) (adminId : Option Nat) (nowIso : String) :
      (TaskStmt.setApproved taskId level adminId nowIso).selects start.tasks row = true := by
    have hkey : row.taskId = taskId := Table.get?_key hrow
    simp [TaskStmt.selects, hkey, hawaits.1]
  rw [approveReview, Prog.wp_bind, catchTaskState_getTaskRow_wp, hrow]
  simp only
  rw [if_neg hpending, checkCooldown_eq hstarted hclock, if_neg (Nat.not_lt.mpr hlate),
    Prog.pure_eq, Prog.ret_bind, Prog.wp_bind, catchTaskState, Prog.wp_tryCatch, transitionTask,
    Prog.wp_bind, getTaskRow_wp, hrow]
  simp only
  rw [if_neg hpending, Prog.wp_bind, Prog.wp_execute, getTaskRow_wp]
  refine ⟨trivial, ?_⟩
  have hsaved := TaskStmt.get?_apply_selected (fun _ h => by cases h) hrow (hsel
    (orElse (some "human_approved") "human_approved") (some admin.id) (utcNowIso now))
  have hfound : (Statement.apply (Dml.task (.setApproved taskId
      (orElse (some "human_approved") "human_approved") (some admin.id) (utcNowIso now)))
      start).tasks.get? taskId = some _ := hsaved
  rw [hfound]
  exact ⟨trivial, trivial, trivial, trivial⟩

end Approvals

/-! ## Runs -/

section Runs

variable {settings : Settings} {crypto : Crypto} {s : Step} {x : World}

theorem Step.Runs.entered (h : s.Runs settings crypto x) : Entered s.op s.before s.after := by
  have hescalates : (s.op.code settings crypto).wp
      (fun q _ => s.op.Issued q ∧ Escalates s.before q) (fun _ _ => True) (fun _ _ => True)
      s.before := by
    have hissued : (s.op.code settings crypto).wp (fun q _ => s.op.Issued q) (fun _ _ => True)
        (fun _ _ => True) s.before :=
      Prog.Avoids.wp (s.op.code_executes settings crypto) (fun q _ hq => Classical.not_not.mp hq) _
    by_cases hop : ∃ taskId note admin now, s.op = .escalate taskId note admin now
    · obtain ⟨taskId, note, admin, now, hop⟩ := hop
      rw [hop] at hissued ⊢
      have hescalate : ((SystemOp.escalate taskId note admin now).code settings crypto).wp
          (fun q _ => Escalates s.before q) (fun _ _ => True) (fun _ _ => True) s.before := by
        rw [SystemOp.code, GpuFleet.silently, Prog.wp_bind]
        exact Prog.wp_imp (escalateReview_wp taskId note admin now) fun _ _ _ => trivial
      exact Prog.wp_mono (Prog.wp_and hissued hescalate) (fun _ _ => id) (fun _ _ _ => trivial)
        fun _ _ _ => trivial
    · refine Prog.wp_mono hissued (fun q _ hq => ⟨hq, ?_⟩) (fun _ _ => id) fun _ _ => id
      cases q with
      | task t =>
          cases t with
          | setEscalated taskId nowIso =>
              cases hcase : s.op with
              | escalate => exact absurd ⟨_, _, _, _, hcase⟩ hop
              | createTask | approve | heartbeat | cancel | event | result | markLost
              | expireReviews | reject =>
                  rw [hcase] at hq
                  simp [SystemOp.Issued, SystemOp.IssuesTask, TransitionEvent.Updates] at hq
              | _ =>
                  rw [hcase] at hq
                  cases hq
          | _ => trivial
      | _ => trivial
  rw [h.after]
  refine Prog.wp.dbAfter x (Prog.wp_and (s.op.code_wp settings crypto) hescalates)
    (fun q w hq => Entered.apply hq.1 hq.2.1 hq.2.2) ?_
  intro row hrow hawaits
  exact Or.inl ⟨row, Table.get?_of_mem hrow, hawaits, rfl⟩

theorem entryOf_append (past : List Step) (s : Step) (taskId : String) :
    entryOf (past ++ [s]) taskId =
      if s.enters taskId = true then some s.op else entryOf past taskId := by
  unfold entryOf
  cases henters : s.enters taskId <;> simp [List.filter_append, henters]

theorem Clocked.step {past : List Step} (h : s.Runs settings crypto x)
    (hs : Clocked past s.before) : Clocked (past ++ [s]) s.after := by
  intro row hrow hawaits
  have hafter : awaitsHuman row.taskId s.after = true :=
    (awaitsHuman_of_get? (Table.get?_of_mem hrow)).trans hawaits
  rw [entryOf_append]
  rcases h.entered row hrow hawaits with ⟨old, hold, hwaited, hstarted⟩ | ⟨hnot, hstarted⟩
  · have hbefore : awaitsHuman row.taskId s.before = true := by
      rw [awaitsHuman_of_get? hold, hwaited]
    have hkey : old.taskId = row.taskId := Table.get?_key hold
    obtain ⟨entry, hentry, hentered⟩ := hs old (Table.get?_mem hold) hwaited
    rw [hkey] at hentry
    refine ⟨entry, ?_, hstarted.symm.trans hentered⟩
    rw [if_neg (by simp [Step.enters, hbefore]), hentry]
  · exact ⟨s.op, if_pos (by simp [Step.enters, hnot, hafter]), hstarted⟩

/-- An approval of a waiting task succeeds once its cooldown is over as it is counted. -/
theorem Step.Runs.approved_iff {past : List Step} {taskId : String} {note : Option String}
    {admin : Admin} {now : Nat} (h : s.Runs settings crypto x) (hs : Clocked past s.before)
    (hclock : ∀ entry, entryOf past taskId = some entry → entry.now < Iso.maxMicros)
    (hop : s.op = .approve taskId note admin now) :
    s.reply.isOk = true ↔ awaitsHuman taskId s.before = true ∧
      ∃ entry, entryOf past taskId = some entry ∧ wholeSecond entry.now + cooldown ≤ now := by
  have hreply : s.reply =
      (silently (approveReview taskId note admin now)).resultOf s.before x := by
    rw [h.reply, hop]
    rfl
  have refused : (approveReview taskId note admin now).wp (fun _ _ => True) (fun _ _ => True)
      (fun _ _ => False) s.before → s.reply.isOk = false := by
    intro hwp
    have hcode : (silently (approveReview taskId note admin now)).wp (fun _ _ => True)
        (fun _ _ => True) (fun _ _ => False) s.before := by
      rw [silently, Prog.wp_bind]
      exact Prog.wp_imp hwp fun _ _ => False.elim
    obtain ⟨e, he, -⟩ := hcode.raises x
    rw [hreply, he]
    rfl
  cases hawaits : awaitsHuman taskId s.before with
  | false => simp [refused (approveReview_refuses hawaits)]
  | true =>
      rw [awaitsHuman, Option.any_eq_true] at hawaits
      obtain ⟨row, hrow, hwaits⟩ := hawaits
      obtain ⟨entry, hentry, hstarted⟩ := hs row (Table.get?_mem hrow) hwaits
      rw [show row.taskId = taskId from Table.get?_key hrow] at hentry
      have hentryClock := hclock entry hentry
      by_cases hlate : wholeSecond entry.now + cooldown ≤ now
      · have hwp : (approveReview taskId note admin now).wp (fun _ _ => True) (fun _ _ => False)
            (fun _ _ => True) s.before :=
          approveReview_approves hrow hwaits hstarted hentryClock hlate
        have hcode : (silently (approveReview taskId note admin now)).wp (fun _ _ => True)
            (fun _ _ => False) (fun _ _ => True) s.before := by
          rw [silently, Prog.wp_bind]
          exact Prog.wp_imp hwp fun _ _ _ => trivial
        obtain ⟨reply, hok, -⟩ := hcode.returns x
        rw [hreply, hok]
        exact ⟨fun _ => ⟨rfl, entry, hentry, hlate⟩, fun _ => rfl⟩
      · rw [refused (approveReview_early hrow hstarted hentryClock (Nat.lt_of_not_le hlate))]
        refine ⟨fun hok => (by cases hok), fun hlate' => ?_⟩
        obtain ⟨-, entry', hentry', hlate'⟩ := hlate'
        rw [hentry] at hentry'
        cases hentry'
        exact absurd hlate' hlate

/-- In a run from a database without tasks, no approval comes before the cooldown has passed if
and only if none is hasty. -/
theorem cooldown_kept_iff {nodes : Table Node} {x : World} {ops : List SystemOp}
    (hclock : ∀ op ∈ ops, op.now < Iso.maxMicros) :
    (∀ pre s post, steps settings crypto { nodes } x ops = pre ++ s :: post →
        s.KeepsCooldown pre) ↔
      ∀ pre s post, steps settings crypto { nodes } x ops = pre ++ s :: post →
        ¬ s.Hasty pre := by
  have hstart : Clocked [] { nodes } := by
    intro row hrow
    cases hrow
  have around {pre : List Step} {s : Step} {post : List Step}
      (h : steps settings crypto { nodes } x ops = pre ++ s :: post) :
      (∃ y, s.Runs settings crypto y) ∧ Clocked pre s.before := by
    obtain ⟨hruns, hbefore, -⟩ := steps_induction (I := Clocked) (C := fun _ => True)
      (fun _ _ _ hruns _ hs => hs.step hruns) [] hstart (fun _ _ => trivial) h
    exact ⟨hruns, hbefore⟩
  have inClock {pre : List Step} {s : Step} {post : List Step} {taskId : String}
      (h : steps settings crypto { nodes } x ops = pre ++ s :: post) :
      ∀ entry, entryOf pre taskId = some entry → entry.now < Iso.maxMicros := by
    intro entry hentry
    obtain ⟨t, ht, rfl⟩ := Option.map_eq_some_iff.mp hentry
    have hmem := (List.mem_filter.mp (List.mem_of_getLast? ht)).1
    have hstep : t ∈ steps settings crypto { nodes } x ops := by
      rw [h]
      exact List.mem_append_left _ hmem
    exact hclock t.op (op_mem_of_mem hstep)
  constructor
  · rintro hkept pre s post h ⟨taskId, note, admin, now, entry, hop, hawaits, hentry, hcounted, hpassed⟩
    obtain ⟨⟨y, hruns⟩, hbefore⟩ := around h
    have hok := (hruns.approved_iff hbefore (inClock h) hop).mpr ⟨hawaits, entry, hentry, hcounted⟩
    obtain ⟨entry', hentry', hlate⟩ := hkept pre s post h taskId note admin now hop hok
    rw [hentry] at hentry'
    cases hentry'
    omega
  · intro hnone pre s post h taskId note admin now hop hok
    obtain ⟨⟨y, hruns⟩, hbefore⟩ := around h
    obtain ⟨hawaits, entry, hentry, hcounted⟩ :=
      (hruns.approved_iff hbefore (inClock h) hop).mp hok
    refine ⟨entry, hentry, Nat.le_of_not_lt fun hpassed => ?_⟩
    exact hnone pre s post h ⟨taskId, note, admin, now, entry, hop, hawaits, hentry, hcounted, hpassed⟩

end Runs

/-- An approval that is accepted. -/
def Step.approves (s : Step) : Bool :=
  match s.op with
  | .approve .. => s.reply.isOk
  | _ => false

/-- Ten seconds after a task was created that no model reviews. -/
theorem cooldown_kept_approvedByHuman :
    (steps {} plainCrypto {} {} approvedByHuman).any Step.approves = true ∧
      ∀ pre s post, steps {} plainCrypto {} {} approvedByHuman = pre ++ s :: post →
        s.KeepsCooldown pre := by
  refine ⟨by decide +kernel, (cooldown_kept_iff (by decide)).mpr ?_⟩
  rintro pre s post h ⟨taskId, note, admin, now, entry, hop, -, hentry, hcounted, hpassed⟩
  have hmem {t : Step} (ht : t ∈ pre ++ s :: post) : t.op ∈ approvedByHuman :=
    op_mem_of_mem (h ▸ ht)
  obtain ⟨t, ht, rfl⟩ := Option.map_eq_some_iff.mp hentry
  have hentry := hmem (List.mem_append_left _ (List.mem_filter.mp (List.mem_of_getLast? ht)).1)
  have happroval := hmem (List.mem_append_right pre (List.mem_cons_self ..))
  have hnow : now = s.op.now := by rw [hop]; rfl
  have hnone : ∀ a ∈ approvedByHuman, ∀ b ∈ approvedByHuman,
      ¬ (wholeSecond a.now + cooldown ≤ b.now ∧ b.now < a.entered + cooldown) := by decide
  exact hnone t.op hentry s.op happroval ⟨hnow ▸ hcounted, hnow ▸ hpassed⟩

/-- A shell task that a model was uncertain about after ten seconds. -/
def reviewedSlowly : List SystemOp :=
  let admin : Admin := ⟨1, "admin"⟩
  [.createNode { nodeId := "n", displayName := "n", allowShell := true } ⟨"secret", "", ""⟩ admin 0,
    .createTask { nodeId := "n", type := .shell, taskId := some "t" }
      { admin, review := some { decision := .uncertain, riskScore := 1 }
        freshTaskId := "", freshKey := "", now := 0, reviewedAt := 10000000 }]

/-- The cooldown does not hold where it began before the task entered the human stage: the task is
approved at the moment it does. -/
theorem cooldown_over_at_once :
    ¬ ∀ (settings : Settings) (crypto : Crypto) (nodes : Table Node) (x : World)
        (ops : List SystemOp), (∀ op ∈ ops, op.now < Iso.maxMicros) →
      ∀ pre s post, steps settings crypto { nodes } x ops = pre ++ s :: post →
        s.KeepsCooldown pre := by
  intro h
  obtain ⟨rest, hrest⟩ := steps_append_cons {} plainCrypto {} {} reviewedSlowly
    (.approve "t" none ⟨1, "admin"⟩ 10000000) []
  obtain ⟨entry, hentry, hlate⟩ := h {} plainCrypto .empty {} _ (by decide) _ _ _ hrest "t" none
    ⟨1, "admin"⟩ 10000000 rfl (by decide +kernel)
  have hentered : (entryOf (steps {} plainCrypto {} {} reviewedSlowly) "t").all
      (fun entry => entry.entered = 10000000) = true := by decide +kernel
  rw [hentry, Option.all_some, decide_eq_true_eq] at hentered
  rw [hentered] at hlate
  exact absurd hlate (by decide)

end GpuFleet
