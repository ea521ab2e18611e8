import GpuFleet.Foundations.Budget
import GpuFleet.Server.ReplayGuard

/-!
# Creating a task from the browser

The frontend sends the request to create a task through `fetchWithPolicy`, which
sends it again after an answer of status 500 or more and after a fetch that
failed.  All attempts carry the same body.  An attempt may get lost on its way,
arrive late, or lose its answer, and several may be handled at once, a
statement at a time and among all other requests of the server.

The server draws a task id for each attempt it handles and looks for a task of
that id only; nothing compares idempotency keys.  So an attempt whose answer
was lost creates one task and the next attempt another (`created_twice`).  One
task is created at most when an attempt arrives only after the server has
refused those before it (`created_once`).
-/

namespace GpuFleet

open Foundations

/-! ## The policy -/

/-- `MAX_RETRY_ATTEMPTS` -/
def maxRetryAttempts : Nat := 3

/-- How a fetch ends. -/
inductive FetchOutcome where
  | response (status : Nat)
  /-- The fetch is rejected: the request or the answer got lost. -/
  | failed
  /-- The timeout of the request. -/
  | aborted

/-- `isRetriableStatus` -/
def isRetriableStatus (status : Nat) : Bool := 500 ≤ status

/-- One round of the loop of `fetchWithPolicy`: the next attempt, or `none` when the call is
over. -/
def nextAttempt (attempt : Nat) : FetchOutcome → Option Nat
  | .response status =>
      if !isRetriableStatus status || attempt = maxRetryAttempts then none else some (attempt + 1)
  | .aborted => none
  | .failed => if attempt = maxRetryAttempts then none else some (attempt + 1)

/-! ## The call and the server -/

/-- What the server runs: the attempts of the call and everything else. -/
inductive CallOp where
  | attempt (ctx : CreateContext)
  | other (op : ServerOp)

/-- The operation is an attempt of the call. -/
def CallOp.isAttempt : CallOp → Bool
  | attempt _ => true
  | other _ => false

/-- The call of the browser, what is on its way to the server, and the server with the history
of its transactions. -/
structure Call where
  /-- The attempt whose fetch is under way. -/
  fetching : Option Nat
  /-- How many attempts were sent and have not arrived. -/
  travelling : Nat
  server : Conf CallOp Dml Db World Exc Unit
  history : History CallOp Dml

/-- What happens to the call and to the server. -/
inductive CallAct where
  /-- The fetch under way ends. -/
  | fetchEnds (o : FetchOutcome)
  /-- An attempt arrives at the server. -/
  | arrives (ctx : CreateContext)
  /-- Another request arrives. -/
  | request (op : ServerOp)
  /-- A session of the server goes on. -/
  | turn (i : Nat)
  /-- A statement or the commit of a session fails. -/
  | fail (i : Nat) (e : Exc)

/-- The row a statement inserts for an attempt. -/
def insertedRow : CallOp × Dml → Option Task
  | (.attempt _, .task (.insert row)) => some row
  | _ => none

namespace Call

/-- The first attempt has been sent. -/
def start (db : Db) (x : World) : Call := ⟨some 0, 1, .init db x, {}⟩

/-- The tasks the call has created. -/
def created (s : Call) : List Task := s.history.committed.filterMap insertedRow

section Step

variable (settings : Settings) (crypto : Crypto) (payload : AdminTaskCreateRequest)

/-- The program of an operation. -/
def code : CallOp → Tx Unit
  | .attempt ctx => do
      let _ ← createTask payload ctx
  | .other op => op.code settings crypto

/-- An action of the server. -/
def serve (s : Call) (a : Act CallOp Exc) : Option Call :=
  (s.server.step (code settings crypto payload) a).map fun server =>
    { s with server, history := s.server.record s.history a }

/-- One action, if it is possible. -/
def step (s : Call) : CallAct → Option Call
  | .fetchEnds o => s.fetching.map fun attempt =>
      match nextAttempt attempt o with
      | none => { s with fetching := none }
      | some next => { s with fetching := some next, travelling := s.travelling + 1 }
  | .arrives ctx =>
      if s.travelling = 0 then none
      else
        { s with travelling := s.travelling - 1 }.serve settings crypto payload
          (.spawn (.attempt ctx))
  | .request op => s.serve settings crypto payload (.spawn (.other op))
  | .turn i => s.serve settings crypto payload (.turn i)
  | .fail i e => s.serve settings crypto payload (.fail i e)

/-- A list of actions, one after another. -/
def run (s : Call) : List CallAct → Option Call
  | [] => some s
  | a :: as => (s.step settings crypto payload a).bind fun s' => s'.run as

/-- An attempt arrives only when those that arrived before it have ended and have created no
task. -/
def RefusedBefore (s : Call) : CallAct → Prop
  | .arrives _ => (∀ t ∈ s.server.sessions, t.tag.isAttempt = true → t.done.isSome = true) ∧
      s.created.isEmpty = true
  | _ => True

instance (s : Call) : (a : CallAct) → Decidable (s.RefusedBefore a)
  | .arrives _ => inferInstanceAs (Decidable ((∀ t ∈ s.server.sessions, _) ∧ _))
  | .fetchEnds _ | .request _ | .turn _ | .fail _ _ => isTrue trivial

/-- Every action of a run meets the condition. -/
def Meets (s : Call) : List CallAct → Prop
  | [] => True
  | a :: as => s.RefusedBefore a ∧ ∀ s', s.step settings crypto payload a = some s' → s'.Meets as

/-- Whether a run of concrete requests meets the condition can be computed. -/
instance Meets.decidable : ∀ (s : Call) (as : List CallAct),
    Decidable (s.Meets settings crypto payload as)
  | _, [] => isTrue trivial
  | s, a :: as =>
      have : Decidable (∀ s', s.step settings crypto payload a = some s' →
          s'.Meets settings crypto payload as) :=
        match s.step settings crypto payload a with
        | none => isTrue nofun
        | some s₁ =>
            have := Meets.decidable s₁ as
            decidable_of_iff (s₁.Meets settings crypto payload as)
              ⟨fun h _ e => Option.some.inj e ▸ h, fun h => h s₁ rfl⟩
      inferInstanceAs (Decidable (_ ∧ _))

end Step

end Call

/-! ## One attempt creates one task -/

/-- The number of tasks a statement creates for the call. -/
def inserts (op : CallOp) (q : Dml) : Nat := if (insertedRow (op, q)).isSome then 1 else 0

/-- The tasks created are those that were counted. -/
theorem length_filterMap_insertedRow (l : List (CallOp × Dml)) :
    (l.filterMap insertedRow).length = spent inserts l := by
  induction l with
  | nil => rfl
  | cons e l ih =>
      show _ = inserts e.1 e.2 + spent inserts l
      rw [List.filterMap_cons, ← ih, inserts]
      cases insertedRow e <;> simp [Nat.add_comm]

/-- Checks insert nothing. -/
theorem checkTarget_costs (payload : AdminTaskCreateRequest) (ctx : CreateContext) :
    (checkTarget payload).Costs (inserts (.attempt ctx)) 0 := by
  refine Prog.costs_query.bind fun node => ?_
  split
  · trivial
  · simp only
    repeat' split
    all_goals trivial

/-- The handler of an attempt inserts one task at most. -/
theorem createTask_costs (payload : AdminTaskCreateRequest) (ctx : CreateContext) :
    (createTask payload ctx).Costs (inserts (.attempt ctx)) 1 := by
  have rest : ∀ (taskId : String) (detail : Json) (k : Option Task → Tx AdminTaskDetail),
      (∀ row, (k row).Costs (inserts (.attempt ctx)) 0) → (do
        auditTask ctx.admin "create_task" taskId detail (utcNowIso ctx.now)
        reconnect
        let row ← Prog.query fun db => db.tasks.get? taskId
        k row).Costs (inserts (.attempt ctx)) 0 := by
    intro taskId detail k hk
    exact Prog.Costs.bind (p := auditTask ..) (Prog.costs_execute rfl) fun _ =>
      Prog.Costs.bind (p := reconnect) trivial fun _ => Prog.costs_query.bind hk
  refine (checkTarget_costs payload ctx).bind fun _ => Prog.costs_query.bind fun existing => ?_
  split
  · trivial
  · refine ⟨Nat.le_refl 1, fun db => ?_⟩
    show (if (db.tasks.get? _).isSome = true then Prog.raise .integrity
      else _ : Tx AdminTaskDetail).Costs (inserts (.attempt ctx)) 0
    split
    · trivial
    · simp only
      split
      · split
        · exact Prog.Costs.bind (p := createReviewAlert ..) (Prog.costs_execute rfl) fun _ =>
            rest _ _ _ fun row => by cases row <;> trivial
        · exact rest _ _ _ fun row => by cases row <;> trivial
      · refine Prog.Costs.bind (p := insertReviewAudit ..) (Prog.costs_execute rfl) fun _ => ?_
        split
        · exact Prog.Costs.bind (p := createReviewAlert ..) (Prog.costs_execute rfl) fun _ =>
            rest _ _ _ fun row => by cases row <;> trivial
        · exact rest _ _ _ fun row => by cases row <;> trivial

/-- The program of an operation. -/
theorem Call.code_costs (settings : Settings) (crypto : Crypto) (payload : AdminTaskCreateRequest)
    (op : CallOp) :
    (code settings crypto payload op).Costs (inserts op) (Conf.allowance op.isAttempt 0) := by
  cases op with
  | attempt ctx => exact (createTask_costs payload ctx).bind_ret _
  | other op => exact Prog.costs_of_free (fun _ => rfl) _ _

/-! ## Runs -/

section Runs

variable {settings : Settings} {crypto : Crypto} {payload : AdminTaskCreateRequest}

/-- The call has inserted one task at most, and a second attempt finds none inserted. -/
def OneInsert (s : Call) : Prop := Conf.Once inserts CallOp.isAttempt 0 s.server s.history

/-- An action of the server keeps the invariant. -/
theorem OneInsert.serve {s s' : Call} {a : Act CallOp Exc} (hs : OneInsert s)
    (h : s.serve settings crypto payload a = some s')
    (ha : ∀ op, a = .spawn op → op.isAttempt = true →
      (∀ t ∈ s.server.sessions, t.tag.isAttempt = true → t.done.isSome = true) ∧
        s.created.isEmpty = true) : OneInsert s' := by
  rw [Call.serve, Option.map_eq_some_iff] at h
  obtain ⟨c', hstep, rfl⟩ := h
  refine Conf.Once.step (Call.code_costs settings crypto payload) hs hstep fun op hop hattempt => ?_
  obtain ⟨hended, hnone⟩ := ha op hop hattempt
  refine ⟨hended, ?_⟩
  rw [Nat.zero_add, ← length_filterMap_insertedRow, List.length_eq_zero_iff]
  exact List.isEmpty_iff.mp hnone

theorem OneInsert.step {s s' : Call} {a : CallAct} (hs : OneInsert s) (ha : s.RefusedBefore a)
    (h : s.step settings crypto payload a = some s') : OneInsert s' := by
  cases a with
  | fetchEnds o =>
      simp only [Call.step, Option.map_eq_some_iff] at h
      obtain ⟨attempt, -, rfl⟩ := h
      split <;> exact hs
  | arrives ctx =>
      simp only [Call.step] at h
      split at h
      · cases h
      · exact OneInsert.serve (s := { s with travelling := s.travelling - 1 }) hs h fun _ _ _ => ha
  | request op => exact hs.serve h fun op' hop hattempt => by cases hop; cases hattempt
  | turn i => exact hs.serve h fun op' hop => by cases hop
  | fail i e => exact hs.serve h fun op' hop => by cases hop

/-- A run whose actions all meet the condition keeps the invariant. -/
theorem OneInsert.run {s s' : Call} {as : List CallAct} (hs : OneInsert s)
    (hm : s.Meets settings crypto payload as) (h : s.run settings crypto payload as = some s') :
    OneInsert s' := by
  induction as generalizing s with
  | nil =>
      cases h
      exact hs
  | cons a as ih =>
      obtain ⟨ha, hm⟩ := hm
      simp only [Call.run] at h
      cases hstep : s.step settings crypto payload a with
      | none => rw [hstep] at h; cases h
      | some s₁ =>
          rw [hstep, Option.bind_some] at h
          exact ih (hs.step ha hstep) (hm s₁ hstep) h

/-- In every run in which each attempt arrives after those before it were refused, the call
creates one task at most. -/
theorem created_once {db : Db} {x : World} {as : List CallAct} {s : Call}
    (hm : (Call.start db x).Meets settings crypto payload as)
    (h : (Call.start db x).run settings crypto payload as = some s) : s.created.length ≤ 1 := by
  have hstart : OneInsert (Call.start db x) := Conf.once_init db x (Nat.zero_le 1)
  have honce := (hstart.run hm h).once
  rw [Nat.zero_add, History.all, spent_append] at honce
  rw [Call.created, length_filterMap_insertedRow]
  exact Nat.le_trans (Nat.le_add_right _ _) honce

end Runs

/-! ## Concrete data -/

/-- The body of a call with an idempotency key. -/
def keyedPayload : AdminTaskCreateRequest :=
  { nodeId := "n", type := .healthCheck, idempotencyKey := some "key" }

/-- What the server draws for an attempt. -/
def drawn (taskId : String) : CreateContext :=
  { admin := ⟨1, "admin"⟩, review := none, freshTaskId := taskId, freshKey := "", now := 0
    reviewedAt := 0 }

/-- An attempt whose handler the database refuses is followed by one that creates the task. -/
theorem created_once_retried :
    ∃ s, (Call.start oneNodeDb {}).run {} plainCrypto keyedPayload
        ([.arrives (drawn "a"), .turn 0, .fail 0 .operational, .fetchEnds (.response 500),
          .arrives (drawn "b")] ++ List.replicate 7 (.turn 1)) = some s ∧
      s.created.length ≤ 1 := by
  have hruns : ((Call.start oneNodeDb {}).run {} plainCrypto keyedPayload
      ([.arrives (drawn "a"), .turn 0, .fail 0 .operational, .fetchEnds (.response 500),
        .arrives (drawn "b")] ++ List.replicate 7 (.turn 1))).isSome = true := by
    decide +kernel
  obtain ⟨s, hs⟩ := Option.isSome_iff_exists.mp hruns
  exact ⟨s, hs, created_once (by decide +kernel) hs⟩

/-- An attempt creates the task, its answer is lost, and the next attempt creates another. -/
theorem created_twice :
    ¬ ∀ (settings : Settings) (crypto : Crypto) (payload : AdminTaskCreateRequest) (db : Db)
      (x : World) (as : List CallAct) (s : Call), payload.taskId = none →
      (Call.start db x).run settings crypto payload as = some s → s.created.length ≤ 1 := by
  intro h
  have hruns : ((Call.start oneNodeDb {}).run {} plainCrypto keyedPayload
      (.arrives (drawn "a") :: List.replicate 7 (.turn 0) ++
        .fetchEnds .failed :: .arrives (drawn "b") :: List.replicate 7 (.turn 1))).any
          (fun s => decide (s.created.length = 2)) = true := by
    decide +kernel
  obtain ⟨s, hs, htwo⟩ := (Option.any_eq_true ..).mp hruns
  have hone := h {} plainCrypto keyedPayload oneNodeDb {} _ s rfl hs
  rw [of_decide_eq_true htwo] at hone
  omega

end GpuFleet
