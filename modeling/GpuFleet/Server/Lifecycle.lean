import GpuFleet.Server.Outcomes

/-!
# Time stamps and statuses

The columns `finished_at`, `result_locked_at` and `claimed_at` of a task should
agree with its status.  Three updates break this: the rejection and the expiry
of a review end a task without a finishing time, and the cancellation of an
active task gives it one before it ends (`rejected_unfinished`).

In a run without such a step the columns agree in every state
(`lifecycle_consistent`).  What an update does to the row it selects is checked
statement by statement.
-/

namespace GpuFleet

open Foundations

/-- The time stamps of a task agree with its status. -/
structure Task.Consistent (row : Task) : Prop where
  finished : row.finishedAt.isSome = true ↔ row.status.isTerminal = true
  locked : row.resultLockedAt.isSome = true → row.status.isTerminal = true
  claimed : row.status = .claimed ∨ row.status = .running → row.claimedAt.isSome = true

instance (row : Task) : Decidable row.Consistent :=
  decidable_of_iff (_ ∧ _ ∧ _) ⟨fun h => ⟨h.1, h.2.1, h.2.2⟩, fun h => ⟨h.1, h.2, h.3⟩⟩

/-- The time stamps of all tasks agree with their statuses. -/
def Consistent (db : Db) : Prop := ∀ row ∈ db.tasks.rows, row.Consistent

instance (db : Db) : Decidable (Consistent db) :=
  inferInstanceAs (Decidable (∀ row ∈ db.tasks.rows, row.Consistent))

/-- The operation neither rejects nor expires a review, and cancels no active task. -/
def SystemOp.Finishes (db : Db) : SystemOp → Prop
  | reject taskId .. => statusOf taskId db ≠ some .reviewing
  | expireReviews now => ∀ row ∈ db.tasks.rows, row.status = .reviewing →
      ∀ t ∈ row.reviewStartedAt, ¬ t < utcNowIso (now - 30 * 60 * 1000000)
  | cancel taskId .. => ∀ status ∈ statusOf taskId db, status.isActive = false
  | _ => True

instance (db : Db) : (op : SystemOp) → Decidable (op.Finishes db)
  | .reject taskId .. => inferInstanceAs (Decidable (statusOf taskId db ≠ some .reviewing))
  | .expireReviews now => inferInstanceAs (Decidable (∀ row ∈ db.tasks.rows,
      row.status = .reviewing → ∀ t ∈ row.reviewStartedAt,
        ¬ t < utcNowIso (now - 30 * 60 * 1000000)))
  | .cancel taskId .. => inferInstanceAs
      (Decidable (∀ status ∈ statusOf taskId db, status.isActive = false))
  | .createNode .. | .updateNode .. | .setNodeEnabled .. | .resetSecret ..
  | .regenerateOnboarding .. | .createTask .. | .escalate .. | .approve .. | .heartbeat ..
  | .event .. | .result .. | .markLost _ => isTrue trivial

namespace Task.Consistent

variable {row : Task}

theorem of_terminal (hterm : row.status.isTerminal = true) (hfin : row.finishedAt.isSome = true) :
    row.Consistent where
  finished := ⟨fun _ => hterm, fun _ => hfin⟩
  locked := fun _ => hterm
  claimed := by
    rintro (hs | hs) <;> rw [hs] at hterm <;> cases hterm

theorem of_live (hlive : row.status.isTerminal = false) (hfin : row.finishedAt = none)
    (hlock : row.resultLockedAt = none)
    (hclaim : row.status = .claimed ∨ row.status = .running → row.claimedAt.isSome = true) :
    row.Consistent where
  finished := by rw [hfin, hlive]; simp
  locked := by rw [hlock]; exact nofun
  claimed := hclaim

/-- A live task has neither a finishing time nor a locked result. -/
theorem live (h : row.Consistent) (hlive : row.status.isTerminal = false) :
    row.finishedAt = none ∧ row.resultLockedAt = none := by
  constructor
  · rw [← Option.not_isSome_iff_eq_none, h.finished, hlive]
    exact Bool.false_ne_true
  · rw [← Option.not_isSome_iff_eq_none]
    intro hlock
    have hterm := h.locked hlock
    rw [hlive] at hterm
    cases hterm

end Task.Consistent

/-- A new task waits. -/
theorem admissionOf_waits (type : TaskType) (review : Option ReviewDecision)
    (nowIso reviewedIso : String) :
    (admissionOf type review nowIso reviewedIso).status = .pending ∨
      (admissionOf type review nowIso reviewedIso).status = .reviewing := by
  unfold admissionOf
  split
  · split
    · simp only
      split
      · exact Or.inl rfl
      · exact Or.inr rfl
    · exact Or.inr rfl
  · exact Or.inl rfl

/-- A row as it is inserted for a new task. -/
theorem inserted_consistent {row : Task} (h : row.status = .pending ∨ row.status = .reviewing)
    (id : Nat) : (row.inserted id).Consistent := by
  have hstatus : (row.inserted id).status = row.status := rfl
  refine .of_live ?_ rfl rfl fun hs => ?_
  · rw [hstatus]
    rcases h with h | h <;> rw [h] <;> rfl
  · rw [hstatus] at hs
    rcases h with h | h <;> rw [h] at hs <;> rcases hs with hs | hs <;> cases hs

/-- The table keeps agreeing when the update makes the rows it selects agree. -/
theorem consistent_update {t : TaskStmt} {db db' : Db} (hins : ∀ row, t ≠ .insert row)
    (htasks : db'.tasks = t.apply db.tasks) (hdb : Consistent db)
    (hedit : ∀ row ∈ db.tasks.rows, t.selects db.tasks row = true → row.Consistent →
      (t.edit row).Consistent) : Consistent db' := by
  intro row' hrow'
  rw [htasks, TaskStmt.mem_apply hins] at hrow'
  obtain ⟨row, hrow, rfl⟩ := hrow'
  split
  · exact hedit row hrow ‹_› (hdb row hrow)
  · exact hdb row hrow

/-- What an accepted event makes of its task. -/
theorem eventStmt_consistent {payload : NodeTaskEventRequest} {row : Task} (now : Nat)
    (h : row.Consistent) (hacc : taskEventTransitions payload.event row.status = true) :
    ((eventStmt payload row now).edit row).Consistent := by
  have hlive := not_isTerminal_of_isActive (isActive_of_taskEventTransitions hacc)
  obtain ⟨hfin, hlock⟩ := h.live hlive
  have hstatus : ((eventStmt payload row now).edit row).status = payload.event.status := rfl
  have hfinished : ((eventStmt payload row now).edit row).finishedAt =
      if payload.event.status.isTerminal = true then some (utcNowIso now) else none := by
    show (if payload.event.status.isTerminal = true ∧ row.finishedAt = none then _ else _) = _
    simp only [hfin, and_true]
  cases hterm : payload.event.status.isTerminal with
  | true =>
      refine .of_terminal (by rw [hstatus, hterm]) ?_
      rw [hfinished, if_pos hterm]
      rfl
  | false =>
      refine .of_live (by rw [hstatus, hterm]) ?_ hlock fun _ => h.claimed ?_
      · rw [hfinished, hterm, if_neg Bool.false_ne_true]
      -- The only events that do not end a task are those of a claimed or running one.
      · cases he : payload.event <;> rw [he] at hterm hacc <;>
          simp_all [taskEventTransitions, NodeEvent.status, TaskStatus.isTerminal]

section Steps

variable {settings : Settings} {crypto : Crypto} {s : Step} {x : World}

/-- A permitted statement that is no report, and neither rejects nor expires a review. -/
theorem consistent_apply {op : SystemOp} {start db : Db} {q : Dml} (h : Permitted op start q db)
    (hk : ∀ k ∈ q.kind, k.isReport = false ∧ k ≠ .expire ∧ ∀ id, k ≠ .reject id)
    (hdb : Consistent db) : Consistent (Statement.apply q db) := by
  by_cases hq : ∃ t, q = .task t
  · obtain ⟨t, rfl⟩ := hq
    by_cases hins : ∃ row, t = .insert row
    · obtain ⟨row, rfl⟩ := hins
      obtain ⟨⟨payload, ctx, taskId, key, -, -, -, -, rfl⟩, -⟩ := h
      intro row' hrow'
      rcases TaskStmt.mem_insert hrow' with hrow' | rfl
      · exact hdb row' hrow'
      · exact inserted_consistent (admissionOf_waits ..) _
    · refine consistent_update (fun row e => hins ⟨row, e⟩) rfl hdb fun row hrow hsel hc => ?_
      cases t with
      | insert row => exact absurd ⟨row, rfl⟩ hins
      | setEvent | setCancelled | setCancelRequested | setResult => cases (hk _ rfl).1
      | setRejected => exact absurd rfl ((hk _ rfl).2.2 _)
      | setReviewExpired => exact absurd rfl (hk _ rfl).2.1
      | setEscalated => exact ⟨hc.finished, hc.locked, hc.claimed⟩
      | setApproved =>
          simp only [TaskStmt.selects, Bool.and_eq_true, decide_eq_true_eq] at hsel
          obtain ⟨hfin, hlock⟩ := hc.live (by rw [hsel.2]; rfl)
          refine .of_live rfl hfin hlock fun hact => ?_
          rcases hact with hact | hact <;> cases hact
      | setBackground =>
          rcases h.1 with rfl | rfl <;> exact .of_terminal rfl rfl
      | claimNext =>
          simp only [TaskStmt.selects, Bool.and_eq_true, decide_eq_true_eq] at hsel
          obtain ⟨hfin, hlock⟩ := hc.live (by rw [hsel.2]; rfl)
          exact .of_live rfl hfin hlock fun _ => rfl
      | setReported id claimedAt =>
          obtain ⟨⟨-, old, _, _, -, -, -, -, hold, hpending⟩, hsame⟩ := h
          rw [← hsame.resolve_right Bool.false_ne_true] at hold
          rw [← Table.eq_of_get? hold hrow (of_decide_eq_true hsel)] at hpending
          obtain ⟨hfin, hlock⟩ := hc.live (by rw [hpending]; rfl)
          refine .of_live rfl hfin hlock fun _ => ?_
          show (row.claimedAt <|> some claimedAt).isSome = true
          cases row.claimedAt <;> rfl
  · have hsame : (Statement.apply q db).tasks = db.tasks := apply_tasks db fun t e => hq ⟨t, e⟩
    intro row hrow
    rw [hsame] at hrow
    exact hdb row hrow

/-- A rejection of a task that is not under review does nothing. -/
theorem rejectReview_ends {taskId : String} {note : Option String} {admin : Admin} {now : Nat}
    {start : Db} (h : statusOf taskId start ≠ some .reviewing) :
    (rejectReview taskId note admin now).ends (fun _ c _ => c = start) (fun _ _ w => w = start)
      start start := by
  rw [rejectReview, Prog.ends_bind]
  refine catchTaskState_ends ?_
  rw [Prog.ends_bind, getTaskRow_ends]
  cases hrow : start.tasks.get? taskId with
  | none => rfl
  | some row =>
      simp only
      rw [Prog.ends_bind, transitionTask, Prog.ends_bind, getTaskRow_ends, hrow]
      simp only
      rw [if_pos]
      · rfl
      · rintro hs
        rw [statusOf, hrow, Option.map_some, hs] at h
        exact h rfl

/-- An expiry pass that finds no review to expire does nothing. -/
theorem expireReviewingTasks_ends {now : Nat} {start : Db}
    (h : ∀ row ∈ start.tasks.rows, row.status = .reviewing →
      ∀ t ∈ row.reviewStartedAt, ¬ t < utcNowIso (now - 30 * 60 * 1000000)) :
    (expireReviewingTasks now).ends (fun _ c _ => c = start) (fun _ _ w => w = start)
      start start := by
  have hnone : (start.tasks.select fun row => row.status = .reviewing &&
      row.reviewStartedAt.any (· < utcNowIso (now - 30 * 60 * 1000000))) = [] := by
    refine List.filter_eq_nil_iff.mpr fun row hrow hsel => ?_
    simp only [Bool.and_eq_true, decide_eq_true_eq, Option.any_eq_true] at hsel
    obtain ⟨hs, t, ht, hlt⟩ := hsel
    exact h row hrow hs t ht hlt
  rw [expireReviewingTasks, Prog.ends_bind, Prog.ends_query, hnone]
  rfl

/-- A step that neither rejects nor expires a review, nor cancels an active task, keeps the
time stamps in agreement with the statuses. -/
theorem Step.Runs.consistent (h : s.Runs settings crypto x) (hfin : s.op.Finishes s.before)
    (hs : Consistent s.before) : Consistent s.after := by
  have of_same : ∀ {α : Type} {p : Tx α}, s.op.code settings crypto = silently p →
      p.ends (fun _ c _ => c = s.before) (fun _ _ w => w = s.before) s.before s.before →
      Consistent s.after := by
    intro α p hcode hends
    rw [h.after, hcode]
    rcases after_of_ends (silently_ends hends) x with hsame | hsame <;> rw [hsame] <;> exact hs
  have hcases : (∃ id note admin now, s.op = .reject id note admin now) ∨
      (∃ now, s.op = .expireReviews now) ∨
      ∀ k ∈ s.op.kinds, k ≠ .expire ∧ ∀ id, k ≠ .reject id := by
    cases s.op with
    | reject id note admin now => exact Or.inl ⟨_, _, _, _, rfl⟩
    | expireReviews now => exact Or.inr (Or.inl ⟨_, rfl⟩)
    | _ => exact Or.inr (Or.inr (by simp [SystemOp.kinds]))
  rcases hcases with ⟨id, note, admin, now, hop⟩ | ⟨now, hop⟩ | hkinds
  · rw [hop] at hfin
    exact of_same (congrArg _ hop) (rejectReview_ends hfin)
  · rw [hop] at hfin
    exact of_same (congrArg _ hop) (expireReviewingTasks_ends hfin)
  · refine h.keeps_cases hs ?_ ?_ ?_ fun q w hq hk hw => ?_
    · rintro nodeId payload now - ⟨old, args, hold, -, hacc, -, hafter⟩
      refine consistent_update (t := eventStmt payload old now) (by intro _ h; cases h)
        (congrArg Db.tasks hafter) hs fun row hrow hsel hc => ?_
      obtain rfl := Table.eq_of_get? hold hrow (of_decide_eq_true hsel)
      exact eventStmt_consistent now hc hacc
    · rintro nodeId payload now - ⟨old, _, _, _, args, hold, -, -, -, -, -, hafter⟩
      exact consistent_update (t := .setResult ..) (by intro _ h; cases h)
        (congrArg Db.tasks hafter) hs fun row _ _ _ => .of_terminal payload.finalStatus.isTerminal rfl
    · rintro id admin now hop ⟨-, old, hold, hcancel⟩
      rw [hop] at hfin
      rcases hcancel with ⟨-, hafter⟩ | ⟨hactive, -⟩
      · exact consistent_update (by intro _ h; cases h) hafter hs fun row _ _ _ =>
          .of_terminal rfl rfl
      · have hnot := hfin old.status (by rw [statusOf, hold]; rfl)
        rw [hactive] at hnot
        cases hnot
    · exact consistent_apply hq (fun k hkq => ⟨(hk k hkq).2, hkinds k (hk k hkq).1⟩) hw

/-- In every run from the empty database whose steps neither reject nor expire a review, nor
cancel an active task, the time stamps of every task agree with its status in every state. -/
theorem lifecycle_consistent {x : World} {ops : List SystemOp}
    (hfin : ∀ s ∈ steps settings crypto {} x ops, s.op.Finishes s.before)
    (hs : s ∈ steps settings crypto {} x ops) : Consistent s.before ∧ Consistent s.after :=
  steps_inv (fun _ _ hruns hfin hs => hruns.consistent hfin hs) (by intro row hrow; cases hrow)
    hfin hs

end Steps

/-- A task from its claim to its result. -/
theorem lifecycle_consistent_claimTask :
    (finish {} plainCrypto {} {} (claimTask ++
        [.result "n" { taskId := "t", finalStatus := .succeeded } 0])).1.tasks.rows ≠ [] ∧
      ∀ s ∈ steps {} plainCrypto {} {}
          (claimTask ++ [.result "n" { taskId := "t", finalStatus := .succeeded } 0]),
        Consistent s.before ∧ Consistent s.after := by
  refine ⟨by decide +kernel, ?_⟩
  intro s hs
  exact lifecycle_consistent (by decide +kernel) hs

/-- A rejected task has no finishing time. -/
theorem rejected_unfinished :
    ¬ ∀ (settings : Settings) (crypto : Crypto) (x : World) (ops : List SystemOp),
      ∀ s ∈ steps settings crypto {} x ops, Consistent s.after := by
  intro h
  have hrun : (steps {} plainCrypto {} {}
      (claimTask ++ [createReviewed, .reject "r" none ⟨1, "admin"⟩ 0])).all
        (fun s => Consistent s.after) = false := by
    decide +kernel
  rw [List.all_eq_false] at hrun
  obtain ⟨s, hs, hnot⟩ := hrun
  exact hnot (decide_eq_true (h {} plainCrypto {} _ s hs))

end GpuFleet
