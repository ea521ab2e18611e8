import GpuFleet.Server.Issued

/-!
# Which operation executes which statement

Some statements belong to one kind of operation only: the updates of a node's
event and of its result, a cancellation, the decisions about a review, the
scanner's give-up, and the statements on attempts.  `SystemOp.code_issues` says
so for every operation, and `Step.Runs.issued` takes a property of databases
through a step by statements that are permitted and of a kind the operation
issues.
-/

namespace GpuFleet

open Foundations

/-- The statements that belong to some operations only, with the task some of them name. -/
inductive Kind where
  | attempt
  | event (taskId : String)
  | cancel (taskId : String)
  | reject (taskId : String)
  | expire
  | background
  | result (taskId : String)

/-- The kind of a statement, or `none` when any operation may execute it. -/
def Dml.kind : Dml → Option Kind
  | .attempt _ => some .attempt
  | .task (.setEvent taskId ..) => some (.event taskId)
  | .task (.setCancelled taskId _) => some (.cancel taskId)
  | .task (.setCancelRequested taskId _) => some (.cancel taskId)
  | .task (.setRejected taskId ..) => some (.reject taskId)
  | .task (.setReviewExpired ..) => some .expire
  | .task (.setBackground ..) => some .background
  | .task (.setResult taskId ..) => some (.result taskId)
  | _ => none

/-- The kinds an operation issues. -/
def SystemOp.kinds : SystemOp → List Kind
  | .event _ payload _ => [.event payload.taskId, .attempt]
  | .result _ payload _ => [.result payload.taskId, .attempt]
  | .cancel taskId .. => [.cancel taskId]
  | .reject taskId .. => [.reject taskId]
  | .expireReviews _ => [.expire]
  | .markLost _ => [.background]
  | _ => []

/-- The kind of the update a transition of a task executes. -/
def TransitionEvent.kind (taskId : String) : TransitionEvent → Option Kind
  | .node _ => some (.event taskId)
  | .cancel => some (.cancel taskId)
  | .reviewEscalate => none
  | .reviewApprove => none
  | .reviewReject => some (.reject taskId)
  | .reviewExpire => some .expire
  | .backgroundTimeout => some .background
  | .backgroundLost => some .background

/-- The program executes no statement of a kind outside the list. -/
def Issues {α : Type} (kinds : List Kind) (p : Tx α) : Prop :=
  p.Avoids (fun _ => True) (fun q => ∃ k ∈ q.kind, k ∉ kinds) fun _ => True

/-- The update of a transition is of its kind. -/
theorem TransitionEvent.Updates.kind {event : TransitionEvent} {taskId : String}
    {args : TransitionArgs} {q : TaskStmt} (h : event.Updates taskId args q) :
    (Dml.task q).kind = event.kind taskId := by
  cases event with
  | node =>
      obtain ⟨_, _, _, rfl⟩ := h
      rfl
  | backgroundTimeout | backgroundLost =>
      obtain ⟨_, _, rfl⟩ := h
      rfl
  | cancel => rcases h with ⟨_, rfl⟩ | rfl <;> rfl
  | reviewApprove =>
      obtain ⟨_, rfl⟩ := h
      rfl
  | reviewEscalate | reviewReject | reviewExpire =>
      cases h
      rfl

/-- A statement in the list of an operation is of its kinds. -/
theorem SystemOp.Issued.kind {op : SystemOp} {q : Dml} (h : op.Issued q) :
    ∀ k ∈ q.kind, k ∈ op.kinds := by
  cases q with
  | attempt q =>
      rintro k ⟨rfl⟩
      cases op with
      | event => exact List.mem_cons_of_mem _ (List.mem_singleton_self _)
      | result => exact List.mem_cons_of_mem _ (List.mem_singleton_self _)
      | _ => cases h
  | task q =>
      cases op with
      | createNode | updateNode | setNodeEnabled | resetSecret | regenerateOnboarding => cases h
      | createTask =>
          obtain ⟨row, rfl⟩ := h
          rintro k ⟨⟩
      | escalate =>
          cases h
          rintro k ⟨⟩
      | approve =>
          obtain ⟨level, rfl⟩ := h
          rintro k ⟨⟩
      | heartbeat => rcases h with rfl | ⟨taskId, rfl⟩ <;> rintro k ⟨⟩
      | cancel taskId admin now =>
          rw [TransitionEvent.Updates.kind (show TransitionEvent.Updates taskId _ .cancel q from h)]
          rintro k ⟨rfl⟩
          exact List.mem_singleton_self _
      | reject =>
          cases h
          rintro k ⟨rfl⟩
          exact List.mem_singleton_self _
      | event =>
          obtain ⟨_, _, _, rfl⟩ := h
          rintro k ⟨rfl⟩
          exact List.mem_cons_self ..
      | result =>
          obtain ⟨_, _, _, _, rfl⟩ := h
          rintro k ⟨rfl⟩
          exact List.mem_cons_self ..
      | markLost =>
          obtain ⟨_, _, _, rfl⟩ := h
          rintro k ⟨rfl⟩
          exact List.mem_singleton_self _
      | expireReviews =>
          obtain ⟨_, rfl⟩ := h
          rintro k ⟨rfl⟩
          exact List.mem_singleton_self _
  | _ => rintro k ⟨⟩

/-- An operation issues statements of its kinds only. -/
theorem SystemOp.code_issues (settings : Settings) (crypto : Crypto) (op : SystemOp) :
    Issues op.kinds (op.code settings crypto) :=
  (op.code_executes settings crypto).weaken fun q hq hissued => by
    obtain ⟨k, hk, hno⟩ := hq
    exact hno (hissued.kind k hk)

/-- A property of databases that all statements keep which are permitted to an operation and of
its kinds is kept by its step. -/
theorem Step.Runs.issued {settings : Settings} {crypto : Crypto} {s : Step} {x : World}
    {I : Db → Prop} (h : s.Runs settings crypto x)
    (hI : ∀ q w, Permitted s.op s.before q w → (∀ k ∈ q.kind, k ∈ s.op.kinds) → I w →
      I (Statement.apply q w)) (hs : I s.before) : I s.after :=
  h.keeps_issued (fun q w hq hissued => hI q w hq hissued.kind) hs

end GpuFleet
