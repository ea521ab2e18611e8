import GpuFleet.Foundations.Sessions
import GpuFleet.Server.Background

/-!
# Terminal states under interleaving

Operations on tasks run side by side, a statement at a time.  A row is *final*
when its status is terminal or its result is locked, and a final row should
keep its status, its finishing time and its lock.

It does not, in general.  The updates of a review and of a result ask again for
the status they were decided from, but those of an event, of a cancellation and
of the scanner select their row by the task id alone.  Between the `SELECT` of
such an operation and its `UPDATE` another operation can finish the task, and
the `UPDATE` then writes over the final row (`final_rows_can_change`).

That is the only way.  If no task becomes final between the first read of an
operation and an update of this kind that it makes, then in every run final
rows stay as they are (`final_rows_absorb`).  Reading a row that is final, no
operation goes on to such an update (`TaskOp.code_avoids`), and the guarded
updates pass over final rows.
-/

namespace GpuFleet

open Foundations

/-! ## Final rows -/

/-- The row of a final task. -/
def Task.isFinal (row : Task) : Bool := row.status.isTerminal || row.resultLockedAt.isSome

/-- The task has a row of terminal status. -/
def Terminal (taskId : String) (db : Db) : Prop :=
  ∃ row, db.tasks.get? taskId = some row ∧ row.status.isTerminal = true

/-- The task has a final row. -/
def Final (taskId : String) (db : Db) : Prop :=
  ∃ row, db.tasks.get? taskId = some row ∧ row.isFinal = true

/-- Every row that is final in the first database stays as it is, or is gone, in the
second. -/
def Absorbs (db db' : Db) : Prop :=
  ∀ taskId row row', db.tasks.get? taskId = some row → row.isFinal = true →
    db'.tasks.get? taskId = some row' →
      row'.status = row.status ∧ row'.finishedAt = row.finishedAt ∧
        row'.resultLockedAt = row.resultLockedAt

/-- Only tasks of terminal status have a locked result. -/
def LocksTerminal (db : Db) : Prop :=
  ∀ taskId row, db.tasks.get? taskId = some row → row.resultLockedAt.isSome = true →
    row.status.isTerminal = true

instance (taskId : String) (db : Db) : Decidable (Final taskId db) :=
  decidable_of_iff ((db.tasks.get? taskId).any Task.isFinal = true) <| by
    simp [Final, Option.any_eq_true]

instance (db : Db) : Decidable (LocksTerminal db) :=
  decidable_of_iff (∀ row ∈ db.tasks.rows, row.resultLockedAt.isSome = true →
      row.status.isTerminal = true)
    ⟨fun h _ row hrow => h row (Table.get?_mem hrow), fun h row hrow =>
      h _ row (Table.get?_of_mem hrow)⟩

/-- Rows of terminal status keep their status, finishing time and lock, and so does the
rule about locks. -/
structure Keeps (db db' : Db) : Prop where
  row : ∀ taskId row, db.tasks.get? taskId = some row → row.status.isTerminal = true →
    ∃ row', db'.tasks.get? taskId = some row' ∧ row'.status = row.status ∧
      row'.finishedAt = row.finishedAt ∧ row'.resultLockedAt = row.resultLockedAt
  locks : LocksTerminal db → LocksTerminal db'

theorem Keeps.refl (db : Db) : Keeps db db :=
  ⟨fun _ row h _ => ⟨row, h, rfl, rfl, rfl⟩, id⟩

theorem Keeps.trans {a b c : Db} (h : Keeps a b) (h' : Keeps b c) : Keeps a c := by
  refine ⟨fun taskId row hrow hterm => ?_, fun hl => h'.locks (h.locks hl)⟩
  obtain ⟨row₁, h₁, hs, hf, hr⟩ := h.row taskId row hrow hterm
  obtain ⟨row₂, h₂, hs', hf', hr'⟩ := h'.row taskId row₁ h₁ (by rw [hs]; exact hterm)
  exact ⟨row₂, h₂, hs'.trans hs, hf'.trans hf, hr'.trans hr⟩

theorem Keeps.terminal {a b : Db} (h : Keeps a b) {taskId : String} (ht : Terminal taskId a) :
    Terminal taskId b := by
  obtain ⟨row, hrow, hterm⟩ := ht
  obtain ⟨row', hrow', hs, -, -⟩ := h.row taskId row hrow hterm
  exact ⟨row', hrow', by rw [hs]; exact hterm⟩

theorem Keeps.absorbs {a b : Db} (h : Keeps a b) (hl : LocksTerminal a) : Absorbs a b := by
  intro taskId row row' hrow hfinal hrow'
  have hterm : row.status.isTerminal = true := by
    rw [Task.isFinal, Bool.or_eq_true] at hfinal
    exact hfinal.elim id (hl taskId row hrow)
  obtain ⟨row₁, h₁, hs, hf, hr⟩ := h.row taskId row hrow hterm
  rw [hrow'] at h₁
  cases h₁
  exact ⟨hs, hf, hr⟩

/-! ## Guarded and unguarded updates -/

/-- The task of an update that changes a status and selects its row by the task id alone. -/
def Dml.unguardedTask : Dml → Option String
  | .task (.setEvent taskId ..) => some taskId
  | .task (.setCancelled taskId _) => some taskId
  | .task (.setCancelRequested taskId _) => some taskId
  | .task (.setBackground taskId ..) => some taskId
  | .task (.setReported taskId _) => some taskId
  | _ => none

/-- An update sets the lock of a row only together with a terminal status. -/
theorem TaskStmt.edit_lock (t : TaskStmt) (row : Task) :
    (t.edit row).resultLockedAt = row.resultLockedAt ∨ (t.edit row).status.isTerminal = true := by
  cases t with
  | setResult _ status => exact Or.inr status.isTerminal
  | _ => exact Or.inl rfl

/-- A row that an update selects is not terminal, or keeps its status, finishing time and
lock, unless the update is unguarded. -/
theorem TaskStmt.selects_live {t : TaskStmt} {tasks : Table Task} {row : Task}
    (hsel : t.selects tasks row = true)
    (h : (Dml.task t).unguardedTask = some row.taskId → row.status.isTerminal = false) :
    row.status.isTerminal = false ∨ ((t.edit row).status = row.status ∧
      (t.edit row).finishedAt = row.finishedAt ∧
      (t.edit row).resultLockedAt = row.resultLockedAt) := by
  have of_reviewing : row.status = .reviewing → row.status.isTerminal = false := by
    intro hs; rw [hs]; rfl
  cases t with
  | insert _ => cases hsel
  | setEvent taskId | setCancelled taskId | setCancelRequested taskId | setBackground taskId
  | setReported taskId =>
      refine Or.inl (h ?_)
      simp only [TaskStmt.selects, decide_eq_true_eq] at hsel
      rw [hsel]
      rfl
  | setEscalated => exact Or.inr ⟨rfl, rfl, rfl⟩
  | setApproved | setRejected | setReviewExpired =>
      simp only [TaskStmt.selects, Bool.and_eq_true, decide_eq_true_eq] at hsel
      exact Or.inl (of_reviewing hsel.2)
  | setResult =>
      simp only [TaskStmt.selects, Bool.and_eq_true] at hsel
      exact Or.inl (not_isTerminal_of_isActive hsel.2)
  | claimNext =>
      simp only [TaskStmt.selects, Bool.and_eq_true, decide_eq_true_eq] at hsel
      rw [hsel.2]
      exact Or.inl rfl

/-- A statement keeps terminal rows when no unguarded update of it finds one. -/
theorem keeps_apply {q : Dml} {db : Db}
    (h : ∀ taskId, q.unguardedTask = some taskId → ¬ Terminal taskId db) (hl : LocksTerminal db) :
    Keeps db (Statement.apply q db) := by
  by_cases hq : ∃ t, q = .task t
  · obtain ⟨t, rfl⟩ := hq
    by_cases hins : ∃ row, t = .insert row
    · obtain ⟨row, rfl⟩ := hins
      have hget := TaskStmt.get?_insert row db.tasks
      refine ⟨fun taskId old hold _ => ⟨old, ?_, rfl, rfl, rfl⟩, fun _ taskId new hnew hlock => ?_⟩
      · rcases hget taskId with hsame | ⟨hnone, -, -⟩
        · exact hsame.trans hold
        · rw [hold] at hnone
          cases hnone
      · have hnew : ((TaskStmt.insert row).apply db.tasks).get? taskId = some new := hnew
        rcases hget taskId with hsame | ⟨-, hins, -⟩
        · exact hl taskId new (hsame.symm.trans hnew) hlock
        · rw [hins] at hnew
          cases hnew
          cases hlock
    · have hget := TaskStmt.get?_apply (fun row e => hins ⟨row, e⟩) db.tasks
      have live : ∀ taskId row, db.tasks.get? taskId = some row → t.selects db.tasks row = true →
          row.status.isTerminal = false ∨ ((t.edit row).status = row.status ∧
            (t.edit row).finishedAt = row.finishedAt ∧
            (t.edit row).resultLockedAt = row.resultLockedAt) := by
        intro taskId row hrow hsel
        refine TaskStmt.selects_live hsel fun hun => ?_
        have hkey : row.taskId = taskId := Table.get?_key hrow
        rw [hkey] at hun
        by_contra hterm
        exact h taskId hun ⟨row, hrow, by simpa using hterm⟩
      refine ⟨fun taskId row hrow hterm => ?_, fun _ taskId row' hrow' hlock => ?_⟩
      · have hrow' := hget taskId
        rw [hrow, Option.map_some] at hrow'
        refine ⟨_, hrow', ?_⟩
        by_cases hsel : t.selects db.tasks row = true
        · rw [if_pos hsel]
          rcases live taskId row hrow hsel with hlive | hsame
          · rw [hterm] at hlive; cases hlive
          · exact hsame
        · rw [if_neg hsel]
          exact ⟨rfl, rfl, rfl⟩
      · have hrow' : (t.apply db.tasks).get? taskId = some row' := hrow'
        rw [hget taskId] at hrow'
        obtain ⟨row, hrow, rfl⟩ := Option.map_eq_some_iff.mp hrow'
        by_cases hsel : t.selects db.tasks row = true
        · rw [if_pos hsel] at hlock ⊢
          rcases t.edit_lock row with hkeep | hterm
          · rw [hkeep] at hlock
            have hterm := hl taskId row hrow hlock
            rcases live taskId row hrow hsel with hlive | hsame
            · rw [hterm] at hlive; cases hlive
            · rw [hsame.1]; exact hterm
          · exact hterm
        · rw [if_neg hsel] at hlock ⊢
          exact hl taskId row hrow hlock
  · have hsame : (Statement.apply q db).tasks = db.tasks := apply_tasks db fun t e => hq ⟨t, e⟩
    refine ⟨fun taskId row hrow _ => ⟨row, by rw [hsame]; exact hrow, rfl, rfl, rfl⟩, ?_⟩
    intro hl taskId row hrow
    rw [hsame] at hrow
    exact hl taskId row hrow

/-! ## What an operation does after reading a final row -/

section Avoids

variable {α : Type} (taskId : String)

/-- Reading only databases in which the task is terminal, the program makes no unguarded
update of it. -/
def LeavesTerminal (p : Tx α) (P : α → Prop) : Prop :=
  p.Avoids (Terminal taskId) (fun q => q.unguardedTask = some taskId) P

variable {taskId}

theorem LeavesTerminal.bind {β : Type} {p : Tx α} {g : α → Tx β} {P : α → Prop}
    {P' : β → Prop} (hp : LeavesTerminal taskId p P)
    (hg : ∀ a, P a → LeavesTerminal taskId (g a) P') : LeavesTerminal taskId (p >>= g) P' :=
  Prog.Avoids.bind hp hg

theorem LeavesTerminal.mono {p : Tx α} {P P' : α → Prop} (hp : LeavesTerminal taskId p P)
    (h : ∀ a, P a → P' a) : LeavesTerminal taskId p P' :=
  Prog.Avoids.mono hp h

theorem LeavesTerminal.catch {p : Tx α} {handler : String → Exc} {P : α → Prop}
    (hp : LeavesTerminal taskId p P) :
    LeavesTerminal taskId (catchTaskState p fun m => .raise (handler m)) P := by
  refine Prog.Avoids.tryCatch hp fun e => ?_
  cases e <;> trivial

theorem leaves_query {f : Db → α} {P : α → Prop} (h : ∀ db, Terminal taskId db → P (f db)) :
    LeavesTerminal taskId (Prog.query f) P := h

theorem leaves_execute {q : Dml} (h : q.unguardedTask ≠ some taskId) :
    LeavesTerminal taskId (Prog.execute q) fun _ => True :=
  ⟨h, fun _ _ => trivial⟩

/-- A guarded update with what is read off the database it finds. -/
theorem leaves_executeReturning {q : Dml} {f : Db → α} (h : q.unguardedTask = none) :
    LeavesTerminal taskId (Prog.executeReturning q f) fun _ => True := by
  have hq : q.unguardedTask ≠ some taskId := by rw [h]; exact nofun
  exact ⟨hq, fun _ _ => trivial⟩

/-- A statement that is no unguarded update. -/
theorem leaves_guarded {q : Dml} (h : q.unguardedTask = none) :
    LeavesTerminal taskId (Prog.execute q) fun _ => True :=
  leaves_execute (by rw [h]; exact nofun)

theorem leaves_ofExcept {r : Except Exc α} :
    LeavesTerminal taskId (ofExcept r) fun _ => True := by
  cases r <;> trivial

/-- What is read of a terminal task is a terminal row. -/
theorem getTaskRow_leaves (id : String) :
    LeavesTerminal taskId (getTaskRow id) fun row =>
      id = taskId → row.status.isTerminal = true := by
  refine leaves_query (P := fun row => ∀ r, row = some r → id = taskId →
    r.status.isTerminal = true) ?_ |>.bind ?_
  · rintro db ⟨row, hrow, hterm⟩ r hr rfl
    rw [hrow] at hr
    cases hr
    exact hterm
  · intro row hrow
    cases row with
    | none => trivial
    | some row => exact fun e => hrow row rfl e

/-- A statement about another task, or a guarded one, and then the row again. -/
theorem update_leaves {q : Dml} (id : String) (h : q.unguardedTask ≠ some taskId) :
    LeavesTerminal taskId (Prog.execute q >>= fun _ => getTaskRow id) fun _ => True :=
  (leaves_execute h).bind fun _ _ => (getTaskRow_leaves id).mono fun _ _ => trivial

/-- `transitionTask` makes no unguarded update of a task it finds terminal, the scanner's
events apart. -/
theorem transitionTask_leaves (id : String) (event : TransitionEvent) (args : TransitionArgs)
    (h : event = .backgroundTimeout ∨ event = .backgroundLost → id ≠ taskId) :
    LeavesTerminal taskId (transitionTask id event args) fun _ => True := by
  refine (getTaskRow_leaves id).bind fun row hrow => ?_
  by_cases hid : id = taskId
  · have hterm := hrow hid
    cases event with
    | node e =>
        have hnot : taskEventTransitions e row.status = false := by
          by_contra hacc
          have := not_isTerminal_of_isActive
            (isActive_of_taskEventTransitions (by simpa using hacc : _ = true))
          rw [hterm] at this
          cases this
        simp only [applyNodeEvent, hnot]
        trivial
    | cancel =>
        simp only [applyCancel, hterm]
        trivial
    | reviewEscalate | reviewApprove | reviewReject | reviewExpire =>
        have hrev : row.status ≠ .reviewing := by
          intro hs; rw [hs] at hterm; cases hterm
        simp only [hrev, ne_eq, not_false_eq_true, true_or, if_true]
        trivial
    | backgroundTimeout => exact absurd hid (h (Or.inl rfl))
    | backgroundLost => exact absurd hid (h (Or.inr rfl))
  · -- Every statement is about the other task.
    have other : ∀ q : Dml, (q.unguardedTask = none ∨ q.unguardedTask = some id) →
        q.unguardedTask ≠ some taskId := by
      rintro q (hq | hq) hq' <;> rw [hq] at hq' <;> cases hq'
      exact hid rfl
    cases event with
    | node e =>
        simp only [applyNodeEvent]
        split
        · trivial
        · exact update_leaves id (other _ (Or.inr rfl))
    | cancel =>
        simp only [applyCancel]
        split
        · trivial
        · split
          · exact update_leaves id (other _ (Or.inr rfl))
          · split
            · exact update_leaves id (other _ (Or.inr rfl))
            · trivial
    | reviewEscalate =>
        simp only
        split
        · trivial
        · split
          · trivial
          · exact update_leaves id (other _ (Or.inl rfl))
    | reviewApprove | reviewReject | reviewExpire =>
        simp only
        split
        · trivial
        · exact update_leaves id (other _ (Or.inl rfl))
    | backgroundTimeout | backgroundLost => exact update_leaves id (other _ (Or.inr rfl))

/-- A result makes a guarded update only. -/
theorem finalizeTaskResult_leaves (id : String) (status : FinalStatus) (a b c : String) :
    LeavesTerminal taskId (finalizeTaskResult id status a b c) fun _ => True := by
  refine (getTaskRow_leaves id).bind fun row _ => ?_
  simp only
  split
  · trivial
  · refine (leaves_executeReturning rfl).bind fun rowcount _ => ?_
    split
    · refine (getTaskRow_leaves id).bind fun row _ => ?_
      split <;> trivial
    · exact (getTaskRow_leaves id).bind fun _ _ => trivial

theorem loadTaskForNode_leaves (nodeId id : String) :
    LeavesTerminal taskId (loadTaskForNode nodeId id) fun _ => True := by
  refine (leaves_query (P := fun _ => True) fun _ _ => trivial).bind fun row _ => ?_
  cases row <;> trivial

theorem upsertTaskAttempt_leaves (id nodeId status : String) (args : AttemptArgs) :
    LeavesTerminal taskId (upsertTaskAttempt id nodeId status args) fun _ => True := by
  refine (leaves_query (P := fun _ => True) fun _ _ => trivial).bind fun row _ => ?_
  cases row <;> exact leaves_guarded rfl

theorem taskRowToDetail_leaves (row : Task) :
    LeavesTerminal taskId (taskRowToDetail row) fun _ => True := by
  intro _ _ _ _
  trivial

/-- The scanner makes no update of a task other than the one it was given. -/
theorem scanTask_leaves {now : Nat} {nowIso : String} {task : ActiveTask}
    (h : task.taskId ≠ taskId) :
    LeavesTerminal taskId (scanTask now nowIso task) fun _ => True := by
  have hgive : ∀ event action detail webhook payload,
      LeavesTerminal taskId (giveUp task event action detail webhook payload nowIso)
        fun _ => True := by
    intro event action detail webhook payload
    refine (transitionTask_leaves task.taskId event _ fun _ => h).bind fun _ _ => ?_
    exact (leaves_guarded rfl).bind fun _ _ _ => trivial
  have hover : LeavesTerminal taskId (overdue task now) fun _ => True := by
    refine leaves_ofExcept.bind fun timedOut _ => ?_
    split
    · trivial
    · split
      · refine LeavesTerminal.bind (P := fun _ => True) ?_ fun _ _ => trivial
        refine (leaves_query (P := fun _ => True) fun _ _ => trivial).bind fun row _ => ?_
        cases row with
        | none => trivial
        | some row => exact leaves_ofExcept
      · exact leaves_ofExcept.bind fun _ _ => trivial
  refine hover.bind fun reason _ => ?_
  cases reason with
  | none => trivial
  | some reason =>
      cases reason with
      | timeout => exact hgive .backgroundTimeout _ _ _ _
      | cancelAck | unresponsive | neverSeen => exact hgive .backgroundLost _ _ _ _

end Avoids

/-! ## The operations -/

/-- The operations on tasks that run side by side, with their arguments. -/
inductive TaskOp where
  | event (nodeId : String) (payload : NodeTaskEventRequest) (now : Nat)
  | result (nodeId : String) (payload : NodeTaskResultRequest) (now : Nat)
  | cancel (taskId : String) (admin : Admin) (now : Nat)
  | approve (taskId : String) (note : Option String) (admin : Admin) (now : Nat)
  | reject (taskId : String) (note : Option String) (admin : Admin) (now : Nat)
  | markLost (now : Nat)

/-- The program of an operation, without its response. -/
def TaskOp.code : TaskOp → Tx Unit
  | event nodeId payload now => do let _ ← taskEvents nodeId payload now
  | result nodeId payload now => do let _ ← taskResult nodeId payload now
  | cancel taskId admin now => do let _ ← cancelTask taskId admin now
  | approve taskId note admin now => do let _ ← approveReview taskId note admin now
  | reject taskId note admin now => do let _ ← rejectReview taskId note admin now
  | markLost now => markLostTasks now

/-- A read, a transition that is no background event, and both rows. -/
theorem readThenTransition_leaves {taskId : String} (id : String) (event : TransitionEvent)
    (args : TransitionArgs) (h : event ≠ .backgroundTimeout ∧ event ≠ .backgroundLost) :
    LeavesTerminal taskId (do
      let row ← getTaskRow id
      let saved ← transitionTask id event args
      pure (row, saved)) fun _ => True := by
  refine (getTaskRow_leaves id).bind fun row _ => ?_
  exact (transitionTask_leaves id event args fun he => absurd he (by simp [h])).bind
    fun _ _ => trivial

/-- Reading a terminal row of a task, no operation goes on to an unguarded update of it. -/
theorem TaskOp.code_avoids (taskId : String) (op : TaskOp) :
    LeavesTerminal taskId op.code fun _ => True := by
  have drop : ∀ {α : Type} {p : Tx α}, LeavesTerminal taskId p (fun _ => True) →
      LeavesTerminal taskId (do let _ ← p) fun _ => True :=
    fun hp => hp.bind fun _ _ => trivial
  cases op with
  | event nodeId payload now =>
      refine drop ((loadTaskForNode_leaves nodeId payload.taskId).bind fun _ _ => ?_)
      refine (transitionTask_leaves payload.taskId (.node payload.event) _ ?_).catch.bind
        fun row _ => ?_
      · rintro (he | he) <;> cases he
      · exact (upsertTaskAttempt_leaves _ _ _ _).bind fun _ _ => trivial
  | result nodeId payload now =>
      refine drop ((loadTaskForNode_leaves nodeId payload.taskId).bind fun row _ => ?_)
      refine (finalizeTaskResult_leaves _ _ _ _ _).catch.bind fun r _ => ?_
      obtain ⟨row, duplicate⟩ := r
      simp only
      split
      · trivial
      · refine (upsertTaskAttempt_leaves _ _ _ _).bind fun _ _ => ?_
        refine LeavesTerminal.bind (P := fun _ => True) trivial fun _ _ => ?_
        split
        · exact fun _ => trivial
        · trivial
  | cancel id admin now =>
      refine drop ((readThenTransition_leaves id .cancel _ ⟨nofun, nofun⟩).catch.bind
        fun r _ => ?_)
      obtain ⟨row, saved⟩ := r
      exact (leaves_guarded rfl).bind fun _ _ => taskRowToDetail_leaves saved
  | approve id note admin now =>
      refine drop (((getTaskRow_leaves id).catch.mono fun _ _ => trivial).bind
        (P := fun _ => True) fun row _ => ?_)
      split
      · trivial
      · have hcool : LeavesTerminal taskId (checkCooldown id row now) fun _ => True := by
          unfold checkCooldown
          split
          · trivial
          · split
            · trivial
            · refine leaves_ofExcept.bind fun _ _ => ?_
              split <;> trivial
        refine hcool.bind fun _ _ => ?_
        refine (transitionTask_leaves id .reviewApprove _ ?_).catch.bind fun saved _ => ?_
        · rintro (he | he) <;> cases he
        · refine (leaves_guarded rfl).bind fun _ _ => ?_
          refine (leaves_guarded rfl).bind fun _ _ => ?_
          exact (leaves_guarded rfl).bind fun _ _ => taskRowToDetail_leaves saved
  | reject id note admin now =>
      refine drop ((readThenTransition_leaves id .reviewReject _ ⟨nofun, nofun⟩).catch.bind
        fun r _ => ?_)
      obtain ⟨row, saved⟩ := r
      refine (leaves_guarded rfl).bind fun _ _ => ?_
      refine (leaves_guarded rfl).bind fun _ _ => ?_
      exact (leaves_guarded rfl).bind fun _ _ => taskRowToDetail_leaves saved
  | markLost now =>
      refine (leaves_query (P := fun l => ∀ task ∈ l, task.taskId ≠ taskId) ?_).bind
        fun l hl => Prog.Avoids.forEach fun task htask => scanTask_leaves (hl task htask)
      rintro db ⟨row, hrow, hterm⟩ task htask rfl
      obtain ⟨row', hrow', hjoin⟩ := List.mem_filterMap.mp htask
      obtain ⟨hmem, hactive⟩ := List.mem_filter.mp hrow'
      obtain ⟨node, -, rfl⟩ := Option.map_eq_some_iff.mp hjoin
      -- The terminal row and the active row would be two rows of one task.
      rw [Table.eq_of_get? hrow hmem rfl] at hactive
      rw [not_isTerminal_of_isActive hactive] at hterm
      cases hterm

/-! ## Runs -/

/-- A configuration of operations running side by side. -/
abbrev TaskConf := Conf TaskOp Dml Db World Exc Unit

/-- No task becomes final between the first statement of an operation and an unguarded
update of that task by the operation. -/
def FinalBeforeRead (c : TaskConf) (a : Act TaskOp Exc) : Prop :=
  ∀ q s taskId, c.about a = some (q, s) → q.unguardedTask = some taskId →
    Final taskId (s.view c.db) → ∃ seen, s.seen = some seen ∧ Final taskId seen

instance (c : TaskConf) (a : Act TaskOp Exc) : Decidable (FinalBeforeRead c a) :=
  match h : c.about a with
  | none => isTrue fun q s _ hq => by rw [h] at hq; cases hq
  | some (q, s) =>
      match hun : q.unguardedTask with
      | none => isTrue fun q' s' id hq hid => by rw [h] at hq; cases hq; rw [hun] at hid; cases hid
      | some taskId =>
          decidable_of_iff (Final taskId (s.view c.db) → s.seen.any (fun r => Final taskId r) = true)
            <| by
              simp only [FinalBeforeRead, h, Option.some.injEq, Prod.mk.injEq]
              constructor
              · rintro hf q' s' id ⟨rfl, rfl⟩ hid hfin
                rw [hun] at hid
                cases hid
                simpa [Option.any_eq_true] using hf hfin
              · intro hf hfin
                simpa [Option.any_eq_true] using hf q s taskId ⟨rfl, rfl⟩ hun hfin

/-- What a run keeps when its unguarded updates come in time. -/
structure Orderly (c : TaskConf) : Prop where
  exclusive : c.Exclusive
  coherent : c.Coherent Keeps
  locks : LocksTerminal c.db
  /-- The rule about locks held when a session began. -/
  seen : ∀ (i : Nat) s r, c.sessions[i]? = some s → s.seen = some r → LocksTerminal r
  /-- A live operation that first read a terminal task makes no unguarded update of it. -/
  leaves : ∀ (i : Nat) s, c.sessions[i]? = some s → s.done = none → ∀ taskId,
    (∀ r, s.seen = some r → Terminal taskId r) → LeavesTerminal taskId s.prog fun _ => True

theorem orderly_init {db : Db} (x : World) (h : LocksTerminal db) :
    Orderly (Conf.init db x : TaskConf) where
  exclusive := Conf.exclusive_init db x
  coherent := Conf.coherent_init Keeps db x
  locks := h
  seen := by
    intro i s r hs
    simp [Conf.init] at hs
  leaves := by
    intro i s hs
    simp [Conf.init] at hs

/-- In an orderly configuration a session that finds a task terminal when it began still
finds it terminal. -/
theorem Orderly.terminal_view {c : TaskConf} (hc : Orderly c) {i : Nat}
    {s : Session TaskOp Dml Db World Exc Unit} (hs : c.sessions[i]? = some s) (hd : s.done = none)
    {taskId : String} (h : Terminal taskId (s.seen.getD (s.view c.db))) :
    Terminal taskId (s.view c.db) := by
  cases hseen : s.seen with
  | none => rwa [hseen] at h
  | some r =>
      rw [hseen] at h
      exact (hc.coherent.seen i s r hs hd hseen).terminal h

/-- A statement that comes in time keeps terminal rows. -/
theorem Orderly.keeps {c : TaskConf} {a : Act TaskOp Exc} (hc : Orderly c)
    (ha : FinalBeforeRead c a) {q : Dml} {s : Session TaskOp Dml Db World Exc Unit}
    (hq : c.about a = some (q, s)) : Keeps (s.view c.db) (Statement.apply q (s.view c.db)) := by
  obtain ⟨i, k, -, hs, hd, hp⟩ := Conf.about_some hq
  refine keeps_apply (fun taskId hun hterm => ?_) ((hc.coherent.own i s hs).locks hc.locks)
  -- The task was terminal when the operation began, and such an operation avoids the update.
  obtain ⟨row, hrow, ht⟩ := hterm
  obtain ⟨r, hseen, row₀, hrow₀, hfinal⟩ := ha q s taskId hq hun
    ⟨row, hrow, by rw [Task.isFinal, ht, Bool.true_or]⟩
  have hterm₀ : Terminal taskId r := by
    rw [Task.isFinal, Bool.or_eq_true] at hfinal
    exact ⟨row₀, hrow₀, hfinal.elim id (hc.seen i s r hs hseen taskId row₀ hrow₀)⟩
  have hleaves := hc.leaves i s hs hd taskId fun r' hr' => by
    rw [hseen] at hr'
    cases hr'
    exact hterm₀
  rw [hp] at hleaves
  exact hleaves.1 hun

theorem Orderly.step {c c' : TaskConf} {a : Act TaskOp Exc} (hc : Orderly c)
    (ha : FinalBeforeRead c a) (h : c.step TaskOp.code a = some c') :
    Orderly c' ∧ Keeps c.db c'.db := by
  obtain ⟨hcoh, hkeeps⟩ := hc.coherent.step TaskOp.code Keeps.refl Keeps.trans hc.exclusive h
    fun q s hq => hc.keeps ha hq
  refine ⟨⟨hc.exclusive.step TaskOp.code h, hcoh, hkeeps.locks hc.locks, ?_, ?_⟩, hkeeps⟩
  · have locks_view : ∀ (i : Nat) s, c.sessions[i]? = some s → LocksTerminal (s.view c.db) :=
      fun i s hs => (hc.coherent.own i s hs).locks hc.locks
    have := Conf.forall_sessions_step TaskOp.code
      (J := fun _ s => ∀ r, s.seen = some r → LocksTerminal r) h
      (fun i s hs r hr => hc.seen i s r hs hr) (fun t r hr => by cases hr) ?_
      (fun _ _ _ _ _ j t _ _ _ ht r hr => hc.seen j t r ht hr)
    · exact fun i s r hs hr => this i s hs r hr
    · intro i s db x s' _ hs _ hm r hr
      have first : some (s.seen.getD (s.view c.db)) = some r → LocksTerminal r := by
        intro hr
        cases hr
        cases hseen : s.seen with
        | none => exact locks_view i s hs
        | some r => exact hc.seen i s r hs hseen
      cases hm with
      | select _ => exact first hr
      | write _ _ => exact first hr
      | ret _ | raise _ | io _ | commit _ | fail => exact hc.seen i s r hs hr
  · refine Conf.forall_sessions_step TaskOp.code
      (J := fun _ s => s.done = none → ∀ taskId, (∀ r, s.seen = some r → Terminal taskId r) →
        LeavesTerminal taskId s.prog fun _ => True) h hc.leaves
      (fun t _ taskId _ => t.code_avoids taskId) ?_
      (fun _ _ _ _ _ j t _ _ _ ht => hc.leaves j t ht)
    intro i s db x s' _ hs hd hm hd' taskId hterm
    -- A read shows a terminal row when the session began with one.
    have began : (∀ r, some (s.seen.getD (s.view c.db)) = some r → Terminal taskId r) →
        Terminal taskId (s.view c.db) ∧ LeavesTerminal taskId s.prog fun _ => True := by
      intro hterm
      have h₀ := hterm _ rfl
      refine ⟨hc.terminal_view hs hd h₀, hc.leaves i s hs hd taskId fun r hr => ?_⟩
      rw [hr] at h₀
      exact h₀
    cases hm with
    | ret _ => cases hd'
    | raise _ => cases hd'
    | fail => cases hd'
    | select hp =>
        obtain ⟨hview, hprog⟩ := began hterm
        rw [hp] at hprog
        exact hprog _ hview
    | write hp _ =>
        obtain ⟨hview, hprog⟩ := began hterm
        rw [hp] at hprog
        exact hprog.2 _ hview
    | io hp =>
        have hprog := hc.leaves i s hs hd taskId hterm
        rw [hp] at hprog
        exact hprog _
    | commit hp =>
        have hprog := hc.leaves i s hs hd taskId hterm
        rw [hp] at hprog
        exact hprog

/-- In every run of operations side by side, from a database in which only tasks of terminal
status have a locked result, final rows stay as they are between any two configurations, if
no task becomes final between the first statement of an operation and an unguarded update of
it by that operation. -/
theorem final_rows_absorb {db : Db} {x : World} {as bs : List (Act TaskOp Exc)}
    {c c' : TaskConf} (hdb : LocksTerminal db)
    (hm : Conf.Meets TaskOp.code FinalBeforeRead (Conf.init db x) (as ++ bs))
    (has : (Conf.init db x : TaskConf).run TaskOp.code as = some c)
    (hbs : c.run TaskOp.code bs = some c') : Absorbs c.db c'.db := by
  obtain ⟨hma, hmb⟩ := hm.of_append TaskOp.code has
  have hstep : ∀ c a c', Orderly c → FinalBeforeRead c a → c.step TaskOp.code a = some c' →
      Orderly c' ∧ Keeps c.db c'.db := fun _ _ _ hc ha h => hc.step ha h
  obtain ⟨hc, -⟩ := Conf.run_rel TaskOp.code Keeps.refl Keeps.trans hstep has hma
    (orderly_init x hdb)
  obtain ⟨-, hkeeps⟩ := Conf.run_rel TaskOp.code Keeps.refl Keeps.trans hstep hbs hmb hc
  exact hkeeps.absorbs hc.locks

/-- A node with a running task. -/
def runningDb : Db where
  nodes := Table.empty.insert (fun id =>
    { id, nodeId := "n", displayName := "n", nodeSigningKey := none, encryptedSigningKey := none
      onboardingTokenEncrypted := none, onboardingTokenCreatedAt := none
      onboardingTokenExpiresAt := none, nodeType := .physical, osType := none, hostname := none
      heartbeatIntervalSec := 5, allowedWorkdirs := [], tags := [], allowShell := false
      allowModal := false, isEnabled := true, firstSeenAt := none, lastSeenAt := none
      lastRequestTs := none, lastBootId := none, createdAt := "", updatedAt := "" })
    fun _ => rfl
  tasks := Table.empty.insert (fun id =>
    { id, taskId := "t", revision := 1, idempotencyKey := "", nodeId := "n"
      type := .healthCheck, status := .running, payload := .obj [], workdir := none, env := []
      requestedGpuIds := [], timeoutSec := 300, killGraceSec := 15, dangerLevel := "normal"
      createdByAdminId := none, createdAt := "" })
    fun _ => rfl

/-- The task's result, up to the end of its session `i`. -/
def wholeResult (i : Nat) : List (Act TaskOp Exc) :=
  .spawn (.result "n" { taskId := "t", finalStatus := .succeeded } 0) ::
    List.replicate 8 (.turn i)

/-- A cancellation of the task that comes after its result leaves the row alone. -/
theorem final_rows_absorb_late_cancel :
    ∃ c c' : TaskConf, (Conf.init runningDb {}).run TaskOp.code (wholeResult 0) = some c ∧
      c.run TaskOp.code (.spawn (.cancel "t" ⟨1, "admin"⟩ 0) :: List.replicate 3 (.turn 1)) =
        some c' ∧ Absorbs c.db c'.db := by
  have hruns : (((Conf.init runningDb {} : TaskConf).run TaskOp.code (wholeResult 0)).bind
      fun c => c.run TaskOp.code
        (.spawn (.cancel "t" ⟨1, "admin"⟩ 0) :: List.replicate 3 (.turn 1))).isSome := by
    decide +kernel
  obtain ⟨c', h⟩ := Option.isSome_iff_exists.mp hruns
  obtain ⟨c, hc, hc'⟩ := Option.bind_eq_some_iff.mp h
  exact ⟨c, c', hc, hc', final_rows_absorb (by decide +kernel) (by decide +kernel) hc hc'⟩

/-- A cancellation that has read the running row. -/
def cancelHalfway : List (Act TaskOp Exc) :=
  [.spawn (.cancel "t" ⟨1, "admin"⟩ 0), .turn 0, .turn 0]

/-- A task that succeeded is `cancel_requested` afterwards. -/
theorem final_rows_can_change :
    ¬ ∀ (db : Db) (x : World) (as bs : List (Act TaskOp Exc)) (c c' : TaskConf),
      (Conf.init db x : TaskConf).run TaskOp.code as = some c →
        c.run TaskOp.code bs = some c' → Absorbs c.db c'.db := by
  intro h
  have hruns : ((Conf.init runningDb {} : TaskConf).run TaskOp.code
      (cancelHalfway ++ wholeResult 1)).any (fun c =>
        (c.run TaskOp.code (List.replicate 6 (.turn 0))).any fun c' =>
          statusOf "t" c.db = some .succeeded ∧ statusOf "t" c'.db = some .cancelRequested) := by
    decide +kernel
  obtain ⟨c, hc, hruns⟩ := (Option.any_eq_true ..).mp hruns
  obtain ⟨c', hc', hstatus⟩ := (Option.any_eq_true ..).mp hruns
  obtain ⟨hs, hs'⟩ := of_decide_eq_true hstatus
  obtain ⟨row, hrow, hs⟩ := Option.map_eq_some_iff.mp hs
  obtain ⟨row', hrow', hs'⟩ := Option.map_eq_some_iff.mp hs'
  have hkeep := (h _ _ _ _ c c' hc hc' "t" row row' hrow (by rw [Task.isFinal, hs]; rfl) hrow').1
  rw [hs, hs'] at hkeep
  cases hkeep

end GpuFleet
