import GpuFleet.Server.Outcomes

/-!
# Results are kept, and what a duplicate means

The server answers a result with `duplicate = true` when it finds the task
terminal, whoever ended it: a node's event and the scanner end tasks that no
result was ever accepted for (`duplicate_without_result`).

An accepted result is never lost.  The task is terminal from then on, a report
about a terminal task is not accepted, and so the last attempt keeps the exit
code, the summary and the status of the result.  The first two statements are
`Step.Runs.terminal` and `Step.Runs.latestAttempt_terminal`.
-/

namespace GpuFleet

open Foundations

/-! ## Terminal tasks -/

/-- An update that selects only the row of a live task leaves the terminal rows. -/
theorem get?_apply_of_live {t : TaskStmt} {tasks : Table Task} {taskId : String} {old : Task}
    (hins : ∀ row, t ≠ .insert row) (hold : tasks.get? taskId = some old)
    (hlive : old.status.isTerminal = false)
    (hsel : ∀ row, t.selects tasks row = true → row.taskId = taskId) {id : String} {row : Task}
    (hrow : tasks.get? id = some row) (hterm : row.status.isTerminal = true) :
    (t.apply tasks).get? id = some row := by
  rw [TaskStmt.get?_apply hins, hrow, Option.map_some, if_neg]
  intro h
  rw [Table.eq_of_get? hold (Table.get?_mem hrow) (hsel row h), hlive] at hterm
  cases hterm

section Steps

variable {settings : Settings} {crypto : Crypto} {s : Step} {x : World} {taskId : String}

/-- A permitted statement that is none of an event, a result or a cancellation keeps terminal
tasks terminal. -/
theorem terminal_apply {op : SystemOp} {start db : Db} {q : Dml} (h : Permitted op start q db)
    (hk : ∀ k ∈ q.kind, k ∈ op.kinds ∧ k.isReport = false) (ht : Terminal taskId db) :
    Terminal taskId (Statement.apply q db) := by
  obtain ⟨row, hrow, hterm⟩ := ht
  cases q with
  | task t =>
      by_cases hins : ∃ row, t = .insert row
      · obtain ⟨new, rfl⟩ := hins
        exact ⟨row, TaskStmt.get?_insert_of_some hrow, hterm⟩
      · have hget := TaskStmt.get?_apply (fun row e => hins ⟨row, e⟩) db.tasks taskId
        rw [hrow, Option.map_some] at hget
        refine ⟨_, hget, ?_⟩
        split
        · rename_i hsel
          have of_guard : ∀ {status : TaskStatus}, row.status = status →
              status.isTerminal = false → (t.edit row).status.isTerminal = true := by
            intro status hs hlive
            rw [hs, hlive] at hterm
            cases hterm
          cases t with
          | insert _ => cases hsel
          | setEvent | setCancelled | setCancelRequested | setResult => cases (hk _ rfl).2
          | setEscalated => exact hterm
          | setApproved | setRejected | setReviewExpired | claimNext =>
              simp only [TaskStmt.selects, Bool.and_eq_true, decide_eq_true_eq] at hsel
              exact of_guard hsel.2 rfl
          | setBackground => rcases h.1 with rfl | rfl <;> rfl
          | setReported id =>
              obtain ⟨⟨-, old, _, _, -, -, -, -, hold, hpending⟩, hdb⟩ := h
              rw [← hdb.resolve_right Bool.false_ne_true] at hold
              have hid : row.taskId = id := of_decide_eq_true hsel
              rw [← Table.eq_of_get? hold (Table.get?_mem hrow) hid] at hpending
              exact of_guard hpending rfl
        · exact hterm
  | _ => exact ⟨row, hrow, hterm⟩

/-- A terminal task stays terminal. -/
theorem Step.Runs.terminal (h : s.Runs settings crypto x) (ht : Terminal taskId s.before) :
    Terminal taskId s.after := by
  refine h.keeps_cases ht ?_ ?_ ?_ fun q w hq hk hw => terminal_apply hq hk hw
  · rintro nodeId payload now - ⟨old, args, hold, -, hacc, -, hafter⟩
    obtain ⟨row, hrow, hterm⟩ := ht
    rw [hafter]
    exact ⟨row, get?_apply_of_live (t := eventStmt payload old now) (by intro _ h; cases h) hold
      (not_isTerminal_of_isActive (isActive_of_taskEventTransitions hacc))
      (fun row h => of_decide_eq_true h) hrow hterm, hterm⟩
  · rintro nodeId payload now - ⟨old, _, _, _, args, hold, -, hactive, -, -, -, hafter⟩
    obtain ⟨row, hrow, hterm⟩ := ht
    rw [hafter]
    refine ⟨row, get?_apply_of_live (t := .setResult ..) (by intro _ h; cases h) hold
      (not_isTerminal_of_isActive hactive) (fun row h => ?_) hrow hterm, hterm⟩
    simp only [TaskStmt.selects, Bool.and_eq_true, decide_eq_true_eq] at h
    exact h.1.1
  · rintro id admin now - ⟨-, old, hold, hcancel⟩
    obtain ⟨row, hrow, hterm⟩ := ht
    refine ⟨row, ?_, hterm⟩
    rcases hcancel with ⟨hpending, hafter⟩ | ⟨hactive, hafter⟩
    · rw [hafter]
      refine get?_apply_of_live (t := .setCancelled id _) (by intro _ h; cases h) hold ?_
        (fun row h => of_decide_eq_true h) hrow hterm
      rw [hpending]
      rfl
    · rw [hafter]
      exact get?_apply_of_live (t := .setCancelRequested id _) (by intro _ h; cases h) hold
        (not_isTerminal_of_isActive hactive) (fun row h => of_decide_eq_true h) hrow hterm

/-- Statements that are no reports leave the attempts. -/
theorem apply_attempts {op : SystemOp} {q : Dml} {db : Db}
    (hk : ∀ k ∈ q.kind, k ∈ op.kinds ∧ k.isReport = false) :
    (Statement.apply q db).attempts = db.attempts := by
  cases q with
  | attempt q => cases (hk _ rfl).2
  | _ => rfl

/-- A live task is not terminal. -/
theorem not_terminal_of_live {db : Db} {row : Task} (hrow : db.tasks.get? taskId = some row)
    (hlive : row.status.isTerminal = false) : ¬ Terminal taskId db := by
  rintro ⟨row', hrow', hterm⟩
  rw [hrow] at hrow'
  cases hrow'
  rw [hlive] at hterm
  cases hterm

/-- The last attempt of a terminal task stays as it is. -/
theorem Step.Runs.latestAttempt_terminal (h : s.Runs settings crypto x)
    (ht : Terminal taskId s.before) : latestAttempt taskId s.after = latestAttempt taskId s.before := by
  refine h.keeps_cases (I := fun db => latestAttempt taskId db = latestAttempt taskId s.before) rfl
    ?_ ?_ ?_ fun q w hq hk hw => ?_
  · rintro nodeId payload now - ⟨old, args, hold, -, hacc, -, hafter⟩
    refine latestAttempt_report_of_ne ?_ (congrArg Db.attempts hafter)
    rintro rfl
    exact not_terminal_of_live hold
      (not_isTerminal_of_isActive (isActive_of_taskEventTransitions hacc)) ht
  · rintro nodeId payload now - ⟨old, _, _, _, args, hold, -, hactive, -, -, -, hafter⟩
    refine latestAttempt_report_of_ne ?_ (congrArg Db.attempts hafter)
    rintro rfl
    exact not_terminal_of_live hold (not_isTerminal_of_isActive hactive) ht
  · rintro id admin now - ⟨hattempts, -⟩
    rw [latestAttempt, hattempts]
    rfl
  · rw [← hw, latestAttempt, apply_attempts hk]
    rfl

end Steps

/-! ## Exit codes -/

/-- Only attempts of terminal tasks have an exit code. -/
def ExitsEnd (db : Db) : Prop :=
  ∀ a ∈ db.attempts.rows, a.exitCode ≠ none → Terminal a.taskId db

section Runs

variable {settings : Settings} {crypto : Crypto} {s : Step} {x : World}

/-- The task of an accepted result is terminal. -/
theorem ResultDone.terminal {nodeId : String} {payload : NodeTaskResultRequest} {start after : Db}
    (h : ResultDone nodeId payload start after) : Terminal payload.taskId after := by
  obtain ⟨old, startedAt, finishedAt, nowIso, args, hold, -, hactive, hlock, -, -, rfl⟩ := h
  refine ⟨_, TaskStmt.get?_apply_selected (by intro _ h; cases h) hold ?_,
    payload.finalStatus.isTerminal⟩
  have hkey : old.taskId = payload.taskId := Table.get?_key hold
  simp only [TaskStmt.selects, hkey, hlock, hactive, decide_true, Option.isNone_none, Bool.and_self]

theorem Step.Runs.exitsEnd (h : s.Runs settings crypto x) (hs : ExitsEnd s.before) :
    ExitsEnd s.after := by
  have old : ∀ a ∈ s.before.attempts.rows, a.exitCode ≠ none → Terminal a.taskId s.after :=
    fun a ha hexit => h.terminal (hs a ha hexit)
  refine h.keeps_cases hs ?_ ?_ ?_ fun q w hq hk hw a ha hexit => ?_
  · rintro nodeId payload now - ⟨row, args, hrow, -, -, hnone, hafter⟩ a ha hexit
    have hattempts := congrArg Db.attempts hafter
    rcases mem_reportAttempt hattempts ha with ha | hlatest
    · exact old a ha hexit
    -- An event leaves the exit code of the attempt it reports on.
    · rw [latestAttempt_report hattempts] at hlatest
      cases hlatest
      cases hlast : latestAttempt payload.taskId s.before with
      | none =>
          rw [hlast] at hexit
          exact absurd hnone hexit
      | some last =>
          rw [hlast] at hexit
          have hexit : (args.exitCode <|> last.exitCode) ≠ none := hexit
          rw [hnone] at hexit
          exact old last (latestAttempt_mem hlast).1 hexit
  · rintro nodeId payload now - hdone a ha hexit
    have hterm := hdone.terminal
    obtain ⟨row, _, _, _, args, hrow, -, -, -, -, -, hafter⟩ := hdone
    rcases mem_reportAttempt (congrArg Db.attempts hafter) ha with ha | hlatest
    · exact old a ha hexit
    · rw [(latestAttempt_mem hlatest).2]
      exact hterm
  · rintro id admin now - ⟨hattempts, -⟩ a ha
    rw [hattempts] at ha
    exact old a ha
  · rw [apply_attempts hk] at ha
    exact terminal_apply hq hk (hw a ha hexit)

/-! ## Answers -/

/-- The answer to a result of a node. -/
def resultAnswer (nodeId : String) (payload : NodeTaskResultRequest) (now : Nat) (db : Db)
    (x : World) : Except Exc TaskAck :=
  (asNode nodeId fun _ => taskResult nodeId payload now).resultOf db x

theorem asNode_silently {α : Type} (nodeId : String) (body : Node → Tx α) :
    (asNode nodeId fun node => silently (body node)) = silently (asNode nodeId body) := by
  rw [silently, asNode, asNode, Prog.bind_assoc]
  refine congrArg _ (funext fun node => ?_)
  cases node <;> rfl

/-- What an answer to a result says about the databases around its step. -/
theorem Step.Runs.answered (h : s.Runs settings crypto x) {nodeId : String}
    {payload : NodeTaskResultRequest} {now : Nat} (hop : s.op = .result nodeId payload now)
    {ack : TaskAck} (hack : resultAnswer nodeId payload now s.before x = .ok ack) :
    (ack.duplicate = true ∧ Terminal payload.taskId s.before) ∨
      (ack.duplicate = false ∧ ResultDone nodeId payload s.before s.after) := by
  have hafter : s.after = (asNode nodeId fun _ => taskResult nodeId payload now).dbAfter s.before x := by
    rw [h.after, hop, SystemOp.code, asNode_silently]
    exact Prog.dbAfter_bind_ret ..
  have hends : (asNode nodeId fun _ => taskResult nodeId payload now).ends
      (fun _ c _ => c = s.before) (fun ack _ w =>
        if ack.duplicate then w = s.before ∧ Terminal payload.taskId s.before
        else ResultDone nodeId payload s.before w) s.before s.before :=
    asNode_ends (fun _ => rfl) fun _ _ => taskResult_ends nodeId payload now s.before
  rcases hends.after x with ⟨ack', _, hack', hpost⟩ | ⟨e, _, he, -⟩
  · cases hack'.symm.trans hack
    rw [hafter]
    split at hpost
    · exact Or.inl ⟨‹_›, hpost.2⟩
    · exact Or.inr ⟨by simpa using ‹¬ ack.duplicate = true›, hpost⟩
  · cases he.symm.trans hack

/-- The last attempt of the task holds the exit code, the summary and the status of a
result. -/
def Holds (payload : NodeTaskResultRequest) (db : Db) : Prop :=
  ∃ a, latestAttempt payload.taskId db = some a ∧ a.exitCode = payload.exitCode ∧
    a.resultSummary = payload.summary ∧ a.status = payload.finalStatus.status.text

theorem ResultDone.holds {nodeId : String} {payload : NodeTaskResultRequest} {start after : Db}
    (h : ResultDone nodeId payload start after) (hexits : ExitsEnd start) : Holds payload after := by
  obtain ⟨old, _, _, _, args, hold, -, hactive, -, hexit, hsummary, hafter⟩ := h
  refine ⟨_, latestAttempt_report (congrArg Db.attempts hafter), ?_⟩
  cases hlast : latestAttempt payload.taskId start with
  | none => exact ⟨hexit, by rw [newAttempt, hsummary, Option.getD_some], rfl⟩
  | some last =>
      obtain ⟨hmem, hid⟩ := latestAttempt_mem hlast
      -- The task was live, so no exit code was stored for it.
      have hnone : last.exitCode = none := by
        by_contra hne
        have hterm := hexits last hmem hne
        rw [hid] at hterm
        exact not_terminal_of_live hold (not_isTerminal_of_isActive hactive) hterm
      refine ⟨?_, by simp only [TaskAttempt.report, hsummary, Option.getD_some], rfl⟩
      show (args.exitCode <|> last.exitCode) = payload.exitCode
      rw [hexit, hnone]
      cases payload.exitCode <;> rfl

variable (settings crypto)

/-- The step accepts the result: it answers it, and not as a duplicate. -/
def Step.Accepts (s : Step) (payload : NodeTaskResultRequest) : Prop :=
  ∃ nodeId now x ack, s.op = .result nodeId payload now ∧ s.Runs settings crypto x ∧
    resultAnswer nodeId payload now s.before x = .ok ack ∧ ack.duplicate = false

variable {settings crypto}

/-- In every run, a result is answered as a duplicate only when its task is terminal, and once
a result is accepted the last attempt of its task holds it in that and every later state. -/
theorem results_kept {x : World} {ops : List SystemOp} {past later : List Step} {s : Step}
    (hrun : steps settings crypto {} x ops = past ++ s :: later) :
    (∀ nodeId payload now x' ack, s.op = .result nodeId payload now → s.Runs settings crypto x' →
        resultAnswer nodeId payload now s.before x' = .ok ack → ack.duplicate = true →
          Terminal payload.taskId s.before) ∧
      ∀ t ∈ past ++ [s], ∀ payload, t.Accepts settings crypto payload →
        Holds payload s.after := by
  refine ⟨fun nodeId payload now x' ack hop hruns hack hdup => ?_, ?_⟩
  · rcases hruns.answered hop hack with ⟨-, hterm⟩ | ⟨hnot, -⟩
    · exact hterm
    · rw [hnot] at hdup
      cases hdup
  · have hinv := steps_induction (C := fun _ => True)
      (I := fun past db => ExitsEnd db ∧ ∀ t ∈ past, ∀ payload, t.Accepts settings crypto payload →
        Terminal payload.taskId db ∧ Holds payload db) ?_ [] ⟨?_, ?_⟩ (fun _ _ => trivial) hrun
    · exact fun t ht payload hacc => (hinv.2.2.2 t ht payload hacc).2
    · rintro past s x hruns - ⟨hexits, hpast⟩
      refine ⟨hruns.exitsEnd hexits, fun t ht payload hacc => ?_⟩
      rcases List.mem_append.mp ht with ht | ht
      · obtain ⟨hterm, a, ha, hholds⟩ := hpast t ht payload hacc
        exact ⟨hruns.terminal hterm, a, (hruns.latestAttempt_terminal hterm).trans ha, hholds⟩
      · cases List.mem_singleton.mp ht
        obtain ⟨nodeId, now, x', ack, hop, hruns', hack, hnew⟩ := hacc
        rcases hruns'.answered hop hack with ⟨hdup, -⟩ | ⟨-, hdone⟩
        · rw [hnew] at hdup
          cases hdup
        · exact ⟨hdone.terminal, hdone.holds hexits⟩
    · exact fun a ha => nomatch ha
    · exact fun t ht => nomatch ht

end Runs

/-- A result with an exit code. -/
def exitResult (exitCode : Int) : NodeTaskResultRequest :=
  { taskId := "t", finalStatus := .failed, exitCode := some exitCode }

/-- A second result does not replace the first. -/
theorem results_kept_twice :
    ∃ past s later, steps {} plainCrypto {} {}
        (claimTask ++ [.result "n" (exitResult 1) 0, .result "n" (exitResult 2) 0]) =
          past ++ s :: later ∧ Holds (exitResult 1) s.after := by
  obtain ⟨later, hrun⟩ := steps_append_cons {} plainCrypto {} {}
    (claimTask ++ [.result "n" (exitResult 1) 0]) (.result "n" (exitResult 2) 0) []
  obtain ⟨rest, hfirst⟩ := steps_append_cons {} plainCrypto {} {}
    claimTask (.result "n" (exitResult 1) 0) []
  have haccepted : ∃ t ∈ steps {} plainCrypto {} {} (claimTask ++ [.result "n" (exitResult 1) 0]),
      t.Accepts {} plainCrypto (exitResult 1) := by
    rw [hfirst]
    exact ⟨_, List.mem_append_right _ (List.mem_cons_self ..), "n", 0, _, ⟨"t", "failed", false⟩,
      rfl, SystemOp.step_runs .., rfl, rfl⟩
  obtain ⟨t, ht, hacc⟩ := haccepted
  exact ⟨_, _, later, hrun, (results_kept hrun).2 t (List.mem_append_left _ ht) _ hacc⟩

/-- An event ends a task, and its first result is answered as a duplicate. -/
theorem duplicate_without_result :
    ¬ ∀ (settings : Settings) (crypto : Crypto) (x : World) (ops : List SystemOp)
      (past later : List Step) (s : Step),
      steps settings crypto {} x ops = past ++ s :: later →
      ∀ nodeId payload now x' ack, s.op = .result nodeId payload now →
        s.Runs settings crypto x' → resultAnswer nodeId payload now s.before x' = .ok ack →
          ack.duplicate = true →
            ∃ t ∈ past, ∃ payload', payload'.taskId = payload.taskId ∧
              t.Accepts settings crypto payload' := by
  intro h
  obtain ⟨later, hrun⟩ := steps_append_cons {} plainCrypto {} {}
    (claimTask ++ [.event "n" ⟨"t", .succeeded, none, none, none⟩ 0])
    (.result "n" (exitResult 1) 0) []
  obtain ⟨t, ht, payload', -, nodeId, now, x', ack, hop, -⟩ :=
    h {} plainCrypto {} _ _ _ _ hrun "n" (exitResult 1) 0 _ ⟨"t", "succeeded", true⟩ rfl
      (SystemOp.step_runs ..) rfl rfl
  have hmem := op_mem_of_mem ht
  rw [hop] at hmem
  simp [claimTask] at hmem

end GpuFleet
