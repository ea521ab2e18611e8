import GpuFleet.Foundations.Sessions
import GpuFleet.Server.Background

/-!
# Decisions about one review

Administrators approve and reject the same task side by side, and the scanner
expires its review, a statement at a time.  A decision should be decisive: one
request at most succeeds, what is recorded is its decision, and so is the
status.

The guard of the `UPDATE`, `AND status = 'reviewing'`, does not make it so,
since neither handler looks at the row count.  A request that has read the row
goes on to record its decision and to answer success when another decision was
committed before its `UPDATE` (`two_decisions`).

When every such `UPDATE` finds the task under review, the decisions are
decisive in every run (`decisions_decisive`).
-/

namespace GpuFleet

open Foundations

/-! ## What is recorded -/

/-- The decisions of an administrator. -/
inductive HumanDecision where
  | approve | reject
  deriving DecidableEq, Repr

namespace HumanDecision

/-- The word in `task_reviews`. -/
def text : HumanDecision → String
  | approve => "approve"
  | reject => "reject"

/-- The word in `audit_events`. -/
def action : HumanDecision → String
  | approve => "approve_task_review"
  | reject => "reject_task_review"

/-- The status decided. -/
def status : HumanDecision → TaskStatus
  | approve => .pending
  | reject => .rejected

end HumanDecision

/-- The human decisions about a task in `task_reviews`, oldest first. -/
def humanReviews (taskId : String) (db : Db) : List String :=
  (db.reviews.select fun row => row.taskId = taskId && row.reviewerType = "human").map
    TaskReview.decision

/-- The human decisions about a task in `audit_events`, oldest first. -/
def humanAudits (taskId : String) (db : Db) : List String :=
  (db.audits.select fun row => row.targetType = "task" && row.targetId = some taskId &&
    (row.action = "approve_task_review" || row.action = "reject_task_review")).map
      AuditEvent.action

/-- The transaction of a decision about a task under review. -/
structure Decides (taskId : String) (d : HumanDecision) (db db' : Db) : Prop where
  status : statusOf taskId db' = some d.status
  reviews : humanReviews taskId db' = humanReviews taskId db ++ [d.text]
  audits : humanAudits taskId db' = humanAudits taskId db ++ [d.action]

/-- What a pass of the scanner does to a task: nothing, or it expires the review. -/
structure Expires (taskId : String) (db db' : Db) : Prop where
  status : statusOf taskId db' = statusOf taskId db ∨
    (statusOf taskId db = some .reviewing ∧ statusOf taskId db' = some .reviewExpired)
  reviews : humanReviews taskId db' = humanReviews taskId db
  audits : humanAudits taskId db' = humanAudits taskId db

theorem Expires.refl (taskId : String) (db : Db) : Expires taskId db db :=
  ⟨Or.inl rfl, rfl, rfl⟩

theorem Expires.trans {taskId : String} {a b c : Db} (h : Expires taskId a b)
    (h' : Expires taskId b c) : Expires taskId a c := by
  refine ⟨?_, h'.reviews.trans h.reviews, h'.audits.trans h.audits⟩
  rcases h.status with hab | ⟨ha, hb⟩
  · rw [← hab]
    exact h'.status
  · rcases h'.status with hbc | ⟨hb', -⟩
    · exact Or.inr ⟨ha, hbc.trans hb⟩
    · rw [hb] at hb'
      cases hb'

/-! ## The statements -/

section Statements

variable {taskId : String} {db : Db}

/-- An update that selects a task under review by its id gives it its status. -/
theorem statusOf_decided {q : TaskStmt} {status : TaskStatus} (hq : ∀ row, q ≠ .insert row)
    (hsel : ∀ row : Task, row.taskId = taskId → row.status = .reviewing →
      q.selects db.tasks row = true)
    (hedit : ∀ row, (q.edit row).status = status) (h : statusOf taskId db = some .reviewing) :
    statusOf taskId (Statement.apply (Dml.task q) db) = some status := by
  obtain ⟨row, hrow, hs⟩ := Option.map_eq_some_iff.mp h
  have hfound := TaskStmt.get?_apply_selected hq hrow (hsel row (Table.get?_key hrow) hs)
  rw [statusOf, apply_tasks_task, hfound, Option.map_some, hedit]

theorem humanReviews_insertReview {row : TaskReview} (hid : row.taskId = taskId)
    (htype : row.reviewerType = "human") :
    humanReviews taskId (Statement.apply (Dml.insertReview row) db) =
      humanReviews taskId db ++ [row.decision] := by
  simp [humanReviews, Table.select, rows_insertReview, hid, htype]

theorem humanAudits_insertAudit {row : AuditEvent} {d : HumanDecision}
    (htype : row.targetType = "task") (hid : row.targetId = some taskId)
    (haction : row.action = d.action) :
    humanAudits taskId (Statement.apply (Dml.insertAudit row) db) =
      humanAudits taskId db ++ [d.action] := by
  cases d <;>
    simp [humanAudits, Table.select, rows_insertAudit, hid, htype, haction, HumanDecision.action]

/-- The expiry of any review leaves this task alone, or expires its review. -/
theorem expires_setReviewExpired {id nowIso : String} :
    Expires taskId db (Statement.apply (Dml.task (.setReviewExpired id nowIso)) db) := by
  refine ⟨?_, rfl, rfl⟩
  rw [statusOf, apply_tasks_task, TaskStmt.get?_apply (by intro _ h; cases h)]
  cases hrow : db.tasks.get? taskId with
  | none => exact Or.inl (by simp [statusOf, hrow])
  | some row =>
      simp only [statusOf, hrow, Option.map_some]
      split
      · rename_i hsel
        simp only [TaskStmt.selects, Bool.and_eq_true, decide_eq_true_eq] at hsel
        exact Or.inr ⟨congrArg some hsel.2, rfl⟩
      · exact Or.inl rfl

end Statements

/-! ## The transactions -/

section Serial

variable {taskId : String} {mid : Option (Db × Db) → Prop} {o : Option (Db × Db)}

theorem getTaskRow_serial {P : Task → Option (Db × Db) → Prop} (id : String)
    (h : ∀ row, P row o) : (getTaskRow id).Serial mid P o := by
  rw [getTaskRow, Prog.serial_bind]
  refine Prog.serial_query fun row => ?_
  cases row with
  | none => trivial
  | some row => exact h row

theorem catchTaskState_serial {α : Type} {P : α → Option (Db × Db) → Prop} {p : Tx α}
    {handler : String → Exc} (hp : p.Serial mid P o) :
    (catchTaskState p fun m => .raise (handler m)).Serial mid P o :=
  Prog.serial_tryCatch hp fun e _ => by cases e <;> trivial

theorem taskRowToDetail_serial {P : AdminTaskDetail → Option (Db × Db) → Prop} (row : Task)
    (h : ∀ d, P d o) : (taskRowToDetail row).Serial mid P o := by
  rw [taskRowToDetail, Prog.serial_bind]
  refine Prog.serial_query fun logs => ?_
  rw [Prog.serial_bind]
  exact Prog.serial_query fun result => h _

theorem checkCooldown_serial {P : Unit → Option (Db × Db) → Prop} (row : Task) (now : Nat)
    (h : P () o) : (checkCooldown taskId row now).Serial mid P o := by
  unfold checkCooldown
  split
  · exact h
  · split
    · exact h
    · cases hm : parseMoment _ with
      | error e => trivial
      | ok started =>
          rw [Prog.serial_bind]
          show Prog.Serial mid P (if _ then _ else _) o
          split
          · trivial
          · exact h

/-- The decision of a task under review. -/
def Decided (taskId : String) (d : HumanDecision) (db db' : Db) : Prop :=
  statusOf taskId db = some .reviewing → Decides taskId d db db'

/-- What both handlers do after their `UPDATE`. -/
theorem record_serial (mid : Option (Db × Db) → Prop) {d : HumanDecision} {q : Dml} {db : Db} {review : TaskReview}
    {audit : AuditEvent} {nowIso : String} (saved : Task)
    (hq : statusOf taskId db = some .reviewing →
      statusOf taskId (Statement.apply q db) = some d.status)
    (hsame : humanReviews taskId (Statement.apply q db) = humanReviews taskId db ∧
      humanAudits taskId (Statement.apply q db) = humanAudits taskId db)
    (hreview : review.taskId = taskId ∧ review.reviewerType = "human" ∧ review.decision = d.text)
    (haudit : audit.targetType = "task" ∧ audit.targetId = some taskId ∧
      audit.action = d.action) :
    (do
      Prog.execute (.insertReview review)
      Prog.execute (.alert (.actioned taskId nowIso))
      Prog.execute (.insertAudit audit)
      taskRowToDetail saved : Tx AdminTaskDetail).Serial mid
        (fun _ => Prog.Since (Decided taskId d)) (some (db, Statement.apply q db)) := by
  refine taskRowToDetail_serial saved fun _ hdb => ⟨hq hdb, ?_, ?_⟩
  · refine (humanReviews_insertReview hreview.1 hreview.2.1).trans ?_
    rw [hreview.2.2, hsame.1]
  · refine (humanAudits_insertAudit haudit.1 haudit.2.1 haudit.2.2).trans ?_
    exact congrArg (· ++ [d.action]) hsame.2

/-- An approval whose `UPDATE` finds the task under review decides it. -/
theorem approveReview_serial (note : Option String) (admin : Admin) (now : Nat) :
    (approveReview taskId note admin now).Serial mid
      (fun _ => Prog.Since (Decided taskId .approve)) none := by
  unfold approveReview
  simp only
  rw [Prog.serial_bind]
  refine catchTaskState_serial (getTaskRow_serial taskId fun row => ?_)
  split
  · trivial
  · rw [Prog.serial_bind]
    refine checkCooldown_serial row now ?_
    rw [Prog.serial_bind]
    refine catchTaskState_serial ?_
    rw [transitionTask, Prog.serial_bind]
    refine getTaskRow_serial taskId fun row => ?_
    simp only
    split
    · trivial
    · rw [Prog.serial_bind]
      intro db
      refine getTaskRow_serial taskId fun saved => ?_
      refine record_serial mid saved ?_ ⟨rfl, rfl⟩ ⟨rfl, rfl, rfl⟩ ⟨rfl, rfl, rfl⟩
      refine statusOf_decided (by intro _ h; cases h) (fun row hid hs => ?_) fun _ => rfl
      simp [TaskStmt.selects, hid, hs]

/-- A rejection whose `UPDATE` finds the task under review decides it. -/
theorem rejectReview_serial (note : Option String) (admin : Admin) (now : Nat) :
    (rejectReview taskId note admin now).Serial mid
      (fun _ => Prog.Since (Decided taskId .reject)) none := by
  unfold rejectReview
  simp only
  rw [Prog.serial_bind]
  refine catchTaskState_serial ?_
  rw [Prog.serial_bind]
  refine getTaskRow_serial taskId fun row => ?_
  rw [Prog.serial_bind, transitionTask, Prog.serial_bind]
  refine getTaskRow_serial taskId fun row' => ?_
  simp only
  split
  · trivial
  · rw [Prog.serial_bind]
    intro db
    refine getTaskRow_serial taskId fun saved => ?_
    refine record_serial mid saved ?_ ⟨rfl, rfl⟩ ⟨rfl, rfl, rfl⟩ ⟨rfl, rfl, rfl⟩
    refine statusOf_decided (by intro _ h; cases h) (fun row hid hs => ?_) fun _ => rfl
    simp [TaskStmt.selects, hid, hs]

/-- A pass of the scanner expires reviews and does nothing else to a task. -/
theorem expireReviewingTasks_serial (now : Nat) :
    (expireReviewingTasks now).Serial mid (fun _ => Prog.Since (Expires taskId)) none := by
  rw [expireReviewingTasks, Prog.serial_bind]
  refine Prog.serial_query fun expired => ?_
  refine Prog.serial_forEach (fun id o ho => ?_) (Expires.refl taskId)
  rw [Prog.serial_bind, transitionTask, Prog.serial_bind]
  refine getTaskRow_serial id fun row => ?_
  simp only
  split
  · trivial
  · rw [Prog.serial_bind]
    refine Prog.serial_mono (Prog.serial_execute (R := Expires taskId) Expires.trans (fun _ => expires_setReviewExpired)
      ho) fun _ o ho => ?_
    refine getTaskRow_serial id fun saved => ?_
    rw [Prog.serial_bind]
    refine Prog.serial_mono (Prog.serial_execute (R := Expires taskId) Expires.trans (fun db => ⟨Or.inl rfl, rfl, rfl⟩)
      ho) fun _ o ho => ?_
    exact fun _ => ho

end Serial

/-! ## Runs -/

/-- The operations on a review. -/
inductive ReviewOp where
  | approve (note : Option String) (admin : Admin) (now : Nat)
  | reject (note : Option String) (admin : Admin) (now : Nat)
  | expire (now : Nat)

namespace ReviewOp

/-- What an administrator's request decides. -/
def decision : ReviewOp → Option HumanDecision
  | approve .. => some .approve
  | reject .. => some .reject
  | expire _ => none

/-- The program of an operation on the review of a task. -/
def code (taskId : String) : ReviewOp → Tx Unit
  | approve note admin now => do let _ ← approveReview taskId note admin now
  | reject note admin now => do let _ ← rejectReview taskId note admin now
  | expire now => expireReviewingTasks now

/-- What an operation commits, at its end only. -/
def Commits (taskId : String) (op : ReviewOp) (r : Option Unit) (db db' : Db) : Prop :=
  match r, op.decision with
  | none, _ => False
  | some _, some d => Decided taskId d db db'
  | some _, none => Expires taskId db db'

theorem code_serial (taskId : String) (op : ReviewOp) :
    (op.code taskId).Serial (Prog.Since (op.Commits taskId none))
      (fun a => Prog.Since (op.Commits taskId (some a))) none := by
  cases op with
  | approve note admin now =>
      exact Prog.serial_bind.mpr (Prog.serial_mono (approveReview_serial note admin now)
        fun _ _ => id)
  | reject note admin now =>
      exact Prog.serial_bind.mpr (Prog.serial_mono (rejectReview_serial note admin now)
        fun _ _ => id)
  | expire now => exact expireReviewingTasks_serial now

end ReviewOp

/-- A configuration of operations on one review running side by side. -/
abbrev ReviewConf := Conf ReviewOp Dml Db World Exc Unit

/-- The decision of a session that answered success. -/
def decisionOf (s : Session ReviewOp Dml Db World Exc Unit) : Option HumanDecision :=
  match s.done with
  | some (.ok _) => s.tag.decision
  | _ => none

/-- The decisions answered with success. -/
def decisions (c : ReviewConf) : List HumanDecision := c.sessions.filterMap decisionOf

theorem filterMap_set_of_eq {α β : Type} {f : α → Option β} {a b : α} {l : List α} {i : Nat}
    (ha : l[i]? = some a) (h : f b = f a) : (l.set i b).filterMap f = l.filterMap f := by
  induction l generalizing i with
  | nil => rfl
  | cons c l ih =>
      cases i with
      | zero =>
          cases ha
          simp [List.filterMap_cons, h]
      | succ i => simp [List.filterMap_cons, ih ha]

theorem filterMap_set_of_nil {α β : Type} {f : α → Option β} {a b : α} {l : List α} {i : Nat}
    (ha : l[i]? = some a) (h : l.filterMap f = []) : (l.set i b).filterMap f = (f b).toList := by
  induction l generalizing i with
  | nil => cases ha
  | cons c l ih =>
      rw [List.filterMap_eq_nil_iff] at h
      have hl : l.filterMap f = [] :=
        List.filterMap_eq_nil_iff.mpr fun d hd => h d (List.mem_cons_of_mem _ hd)
      cases i with
      | zero => cases hb : f b <;> simp [hl, hb]
      | succ i => simp [h c (List.mem_cons_self ..), ih ha hl]

/-- A pass of the scanner came to its end. -/
def Expired (c : ReviewConf) : Prop :=
  ∃ s ∈ c.sessions, s.tag.decision = none ∧ s.done = some (.ok ())

/-- The decisions about a review are decisive: one at most succeeded, it is what was recorded
since the first database, and it is where the task stands. -/
structure Decisive (taskId : String) (first : Db) (c : ReviewConf) : Prop where
  one : (decisions c).length ≤ 1
  reviews : humanReviews taskId c.db =
    humanReviews taskId first ++ (decisions c).map HumanDecision.text
  audits : humanAudits taskId c.db =
    humanAudits taskId first ++ (decisions c).map HumanDecision.action
  decided : ∀ d ∈ decisions c, statusOf taskId c.db = some d.status
  undecided : decisions c = [] → statusOf taskId c.db = some .reviewing ∨
    (statusOf taskId c.db = some .reviewExpired ∧ Expired c)

/-- The first writing statement of a request, its `UPDATE` of the task, finds the task under
review. -/
def StillReviewing (taskId : String) (c : ReviewConf) (a : Act ReviewOp Exc) : Prop :=
  ∀ q s, c.about a = some (q, s) → s.tag.decision.isSome = true → s.own.isNone = true →
    statusOf taskId c.db = some .reviewing

instance (taskId : String) (c : ReviewConf) (a : Act ReviewOp Exc) :
    Decidable (StillReviewing taskId c a) :=
  match h : c.about a with
  | none => isTrue fun q s hq => by rw [h] at hq; cases hq
  | some (q, s) =>
      decidable_of_iff (s.tag.decision.isSome = true → s.own.isNone = true →
          statusOf taskId c.db = some .reviewing)
        ⟨fun hall q' s' hq => by rw [h] at hq; cases hq; exact hall, fun hall => hall q s h⟩

/-- What a run keeps while requests find the task under review. -/
structure Guided (taskId : String) (first : Db) (c : ReviewConf) : Prop where
  exclusive : c.Exclusive
  serialised : c.Serialised (ReviewOp.Commits taskId)
  /-- A request that holds the write lock found the task under review. -/
  lock : ∀ (i : Nat) s, c.sessions[i]? = some s → s.done = none → s.tag.decision.isSome = true →
    s.own.isSome = true → statusOf taskId c.db = some .reviewing
  decisive : Decisive taskId first c

theorem guided_init {taskId : String} {db : Db} (x : World)
    (h : statusOf taskId db = some .reviewing) :
    Guided taskId db (Conf.init db x : ReviewConf) where
  exclusive := Conf.exclusive_init db x
  serialised := Conf.serialised_init _ db x
  lock := by
    intro i s hs
    simp [Conf.init] at hs
  decisive :=
    { one := by simp [decisions, Conf.init]
      reviews := by simp [decisions, Conf.init]
      audits := by simp [decisions, Conf.init]
      decided := by simp [decisions, Conf.init]
      undecided := fun _ => Or.inl h }

/-- A session that moves, with what it decides. -/
theorem decisions_set {c : ReviewConf} {i : Nat} {s s' : Session ReviewOp Dml Db World Exc Unit}
    {db : Db} {x : World} (hs : c.sessions[i]? = some s) (hd : s.done = none)
    (h : decisionOf s' = none) : decisions ⟨db, x, c.sessions.set i s'⟩ = decisions c := by
  refine filterMap_set_of_eq hs (h.trans ?_)
  rw [decisionOf, hd]

/-- An ended pass of the scanner stays ended. -/
theorem Expired.set {c : ReviewConf} {i : Nat} {s s' : Session ReviewOp Dml Db World Exc Unit}
    {db : Db} {x : World} (h : Expired c) (hs : c.sessions[i]? = some s) (hd : s.done = none) :
    Expired ⟨db, x, c.sessions.set i s'⟩ := by
  obtain ⟨t, ht, htag, hdone⟩ := h
  obtain ⟨j, hj⟩ := List.mem_iff_getElem?.mp ht
  refine ⟨t, List.mem_of_getElem? (i := j) ?_, htag, hdone⟩
  have hne : i ≠ j := by
    rintro rfl
    rw [hs] at hj
    cases hj
    rw [hd] at hdone
    cases hdone
  rw [List.getElem?_set_ne hne, hj]

namespace Decisive

variable {taskId : String} {first : Db} {c : ReviewConf} {i : Nat}
variable {s s' : Session ReviewOp Dml Db World Exc Unit} {x : World}

/-- While the task is under review nothing is decided. -/
theorem decisions_eq_nil (h : Decisive taskId first c)
    (hstatus : statusOf taskId c.db = some .reviewing) : decisions c = [] := by
  rw [List.eq_nil_iff_forall_not_mem]
  intro d hd
  have := h.decided d hd
  rw [hstatus] at this
  cases d <;> cases this

/-- A move that neither commits nor returns. -/
theorem move (h : Decisive taskId first c) (hs : c.sessions[i]? = some s) (hd : s.done = none)
    (hnone : decisionOf s' = none) : Decisive taskId first ⟨c.db, x, c.sessions.set i s'⟩ := by
  have hsame : decisions ⟨c.db, x, c.sessions.set i s'⟩ = decisions c := decisions_set hs hd hnone
  refine ⟨?_, ?_, ?_, ?_, ?_⟩
  · rw [hsame]
    exact h.one
  · rw [hsame]
    exact h.reviews
  · rw [hsame]
    exact h.audits
  · rw [hsame]
    exact h.decided
  · rw [hsame]
    exact fun hnil => (h.undecided hnil).imp_right fun hexp => ⟨hexp.1, hexp.2.set hs hd⟩

/-- The end of a pass of the scanner. -/
theorem expire (h : Decisive taskId first c) (hs : c.sessions[i]? = some s) (hd : s.done = none)
    (htag : s.tag.decision = none) {db : Db} (hdb : Expires taskId c.db db) :
    Decisive taskId first ⟨db, x, c.sessions.set i (s.finish (.ok ()))⟩ := by
  have hsame : decisions ⟨db, x, c.sessions.set i (s.finish (.ok ()))⟩ = decisions c :=
    decisions_set hs hd htag
  refine ⟨?_, ?_, ?_, ?_, ?_⟩
  · rw [hsame]
    exact h.one
  · rw [hsame]
    exact hdb.reviews.trans h.reviews
  · rw [hsame]
    exact hdb.audits.trans h.audits
  · rw [hsame]
    intro d hmem
    have hold := h.decided d hmem
    rcases hdb.status with hkept | ⟨hrev, -⟩
    · exact hkept.trans hold
    · rw [hrev] at hold
      cases d <;> cases hold
  · rw [hsame]
    intro hnil
    rcases hdb.status with hkept | ⟨-, hexp⟩
    · exact (h.undecided hnil).imp hkept.trans fun hexp =>
        ⟨hkept.trans hexp.1, hexp.2.set hs hd⟩
    · refine Or.inr ⟨hexp, s.finish (.ok ()), List.mem_of_getElem? (i := i) ?_, htag, rfl⟩
      exact List.getElem?_set_self (List.getElem?_eq_some_iff.mp hs).1

/-- A request that decides. -/
theorem request (h : Decisive taskId first c) (hs : c.sessions[i]? = some s) {d : HumanDecision}
    (htag : s.tag.decision = some d) {db : Db}
    (hstatus : statusOf taskId c.db = some .reviewing) (hdb : Decides taskId d c.db db) :
    Decisive taskId first ⟨db, x, c.sessions.set i (s.finish (.ok ()))⟩ := by
  have hnil := h.decisions_eq_nil hstatus
  have hone : decisions ⟨db, x, c.sessions.set i (s.finish (.ok ()))⟩ = [d] := by
    refine (filterMap_set_of_nil hs hnil).trans ?_
    show s.tag.decision.toList = [d]
    rw [htag]
    rfl
  refine ⟨?_, ?_, ?_, ?_, ?_⟩
  · rw [hone]
    exact Nat.le_refl 1
  · have hreviews := h.reviews
    rw [hnil, List.map_nil, List.append_nil] at hreviews
    rw [hone, List.map_singleton, ← hreviews]
    exact hdb.reviews
  · have haudits := h.audits
    rw [hnil, List.map_nil, List.append_nil] at haudits
    rw [hone, List.map_singleton, ← haudits]
    exact hdb.audits
  · rw [hone]
    intro d' hd'
    rw [List.mem_singleton] at hd'
    rw [hd']
    exact hdb.status
  · rw [hone]
    exact fun hnil => absurd hnil (List.cons_ne_nil d [])

end Decisive

/-- A request cannot return without having written. -/
theorem not_decided_refl {taskId : String} {d : HumanDecision} {db : Db}
    (h : statusOf taskId db = some .reviewing) : ¬ Decided taskId d db db := by
  intro hd
  have := congrArg List.length (hd h).reviews
  simp at this

theorem Guided.step {taskId : String} {first : Db} {c c' : ReviewConf} {a : Act ReviewOp Exc}
    (hfirst : statusOf taskId first = some .reviewing) (hc : Guided taskId first c)
    (ha : StillReviewing taskId c a) (h : c.step (ReviewOp.code taskId) a = some c') :
    Guided taskId first c' := by
  refine ⟨hc.exclusive.step _ h, hc.serialised.step _ (ReviewOp.code_serial taskId) hc.exclusive h,
    ?_, ?_⟩
  · refine Conf.forall_sessions_step (ReviewOp.code taskId)
      (J := fun db s => s.done = none → s.tag.decision.isSome = true → s.own.isSome = true →
        statusOf taskId db = some .reviewing) h hc.lock (fun t _ _ ho => by cases ho) ?_ ?_
    · intro i s db x s' hact hs hd hm hd' htag ho
      cases hm with
      | ret _ => cases ho
      | raise _ => cases ho
      | fail => cases ho
      | select _ => exact hc.lock i s hs hd htag ho
      | io _ => exact hc.lock i s hs hd htag ho
      | commit _ => cases ho
      | @write q k hp _ =>
          cases hown : s.own with
          | some w => exact hc.lock i s hs hd htag (by rw [hown]; rfl)
          | none =>
              rcases hact with rfl | ⟨e, -, he⟩
              · exact ha q s (Conf.about_turn hs hd hp) htag (by rw [hown]; rfl)
              · rw [he] at ho
                cases ho
    · intro i s db x s' j t hs hm hji ht hd htag ho
      rcases hc.exclusive.view_other hs hm hji ht with rfl | ⟨hown, -⟩
      · exact hc.lock j t ht hd htag ho
      · rw [hown] at ho
        cases ho
  · rcases Conf.step_cases _ h with ⟨t, rfl, rfl⟩ | ⟨i, s, db, x, s', -, hs, hd, hm, rfl⟩
    · -- A session that starts has decided nothing.
      have hsame : decisions { c with sessions := c.sessions ++ [Session.start t (t.code taskId)] } =
          decisions c := by
        simp [decisions, decisionOf, Session.start]
      have hd := hc.decisive
      refine ⟨?_, ?_, ?_, ?_, ?_⟩
      · rw [hsame]
        exact hd.one
      · rw [hsame]
        exact hd.reviews
      · rw [hsame]
        exact hd.audits
      · rw [hsame]
        exact hd.decided
      · rw [hsame]
        intro hnil
        refine (hd.undecided hnil).imp_right ?_
        rintro ⟨hexp, s, hs, hrest⟩
        exact ⟨hexp, s, List.mem_append_left _ hs, hrest⟩
    · have going : s'.done = none → decisionOf s' = none := by
        intro hd'
        rw [decisionOf, hd']
      cases hm with
      | @ret r hp =>
          have hT := hc.serialised.at_ret hs hd hp
          cases htag : s.tag.decision with
          | none =>
              simp only [ReviewOp.Commits, htag] at hT
              exact hc.decisive.expire hs hd htag hT
          | some d =>
              have hlock : statusOf taskId c.db = some .reviewing := by
                cases hown : s.own with
                | some w => exact hc.lock i s hs hd (by rw [htag]; rfl) (by rw [hown]; rfl)
                | none =>
                    have hser := hc.serialised i s hs hd
                    rw [hp, hown] at hser
                    have hfalse := hser first
                    simp only [ReviewOp.Commits, htag] at hfalse
                    exact absurd hfalse (not_decided_refl hfirst)
              simp only [ReviewOp.Commits, htag] at hT
              exact hc.decisive.request hs htag hlock (hT hlock)
      | raise _ => exact hc.decisive.move hs hd rfl
      | select _ => exact hc.decisive.move hs hd (going hd)
      | write _ _ => exact hc.decisive.move hs hd (going hd)
      | io _ => exact hc.decisive.move hs hd (going hd)
      | commit hp => exact (hc.serialised.at_commit hs hd hp).elim
      | fail => exact hc.decisive.move hs hd rfl

/-- In every run in which each request finds the task under review when it comes to its
`UPDATE`, the decisions are decisive. -/
theorem decisions_decisive {taskId : String} {db : Db} {x : World} {as : List (Act ReviewOp Exc)}
    {c : ReviewConf} (hdb : statusOf taskId db = some .reviewing)
    (hm : Conf.Meets (ReviewOp.code taskId) (StillReviewing taskId) (Conf.init db x) as)
    (h : (Conf.init db x : ReviewConf).run (ReviewOp.code taskId) as = some c) :
    Decisive taskId db c := by
  have hstep : ∀ c a c', Guided taskId db c → StillReviewing taskId c a →
      c.step (ReviewOp.code taskId) a = some c' → Guided taskId db c' ∧ True :=
    fun _ _ _ hc ha h => ⟨hc.step hdb ha h, trivial⟩
  exact (Conf.run_rel (ReviewOp.code taskId) (R := fun _ _ => True) (fun _ => trivial)
    (fun _ _ => trivial) hstep h hm (guided_init x hdb)).1.decisive

/-- A task under human review since the first second. -/
def reviewDb : Db where
  tasks := Table.empty.insert (fun id =>
    { id, taskId := "t", revision := 1, idempotencyKey := "", nodeId := "n"
      type := .shell, status := .reviewing, payload := .obj [], workdir := none, env := []
      requestedGpuIds := [], timeoutSec := 300, killGraceSec := 15, dangerLevel := "normal"
      createdByAdminId := none, createdAt := utcNowIso 0, reviewStage := some 3
      reviewDecision := some "pending_human", reviewStartedAt := some (utcNowIso 0) })
    fun _ => rfl

/-- An approval a minute later. -/
def approval : ReviewOp := .approve none ⟨1, "a"⟩ 60000000

/-- A rejection by another administrator. -/
def rejection : ReviewOp := .reject none ⟨2, "b"⟩ 60000000

/-- A rejection that comes after an approval is refused. -/
theorem decisions_decisive_inTurn :
    ∃ c : ReviewConf, (Conf.init reviewDb {}).run (ReviewOp.code "t")
        (.spawn approval :: List.replicate 10 (.turn 0) ++
          .spawn rejection :: List.replicate 3 (.turn 1)) = some c ∧
      Decisive "t" reviewDb c := by
  have hruns : ((Conf.init reviewDb {} : ReviewConf).run (ReviewOp.code "t")
      (.spawn approval :: List.replicate 10 (.turn 0) ++
        .spawn rejection :: List.replicate 3 (.turn 1))).isSome = true := by
    decide +kernel
  obtain ⟨c, hc⟩ := Option.isSome_iff_exists.mp hruns
  exact ⟨c, hc, decisions_decisive (by decide +kernel) (by decide +kernel) hc⟩

/-- An approval that has read the row under review when a rejection is committed succeeds
too. -/
theorem two_decisions :
    ¬ ∀ (taskId : String) (db : Db) (x : World) (as : List (Act ReviewOp Exc)) (c : ReviewConf),
      statusOf taskId db = some .reviewing →
        (Conf.init db x : ReviewConf).run (ReviewOp.code taskId) as = some c →
          Decisive taskId db c := by
  intro h
  have hruns : ((Conf.init reviewDb {} : ReviewConf).run (ReviewOp.code "t")
      (.spawn approval :: List.replicate 2 (.turn 0) ++
        .spawn rejection :: List.replicate 10 (.turn 1) ++ List.replicate 8 (.turn 0))).any
          (fun c => decide ((decisions c).length = 2)) = true := by
    decide +kernel
  obtain ⟨c, hc, htwo⟩ := (Option.any_eq_true ..).mp hruns
  have hone := (h "t" reviewDb {} _ c (by decide +kernel) hc).one
  rw [of_decide_eq_true htwo] at hone
  omega

end GpuFleet
