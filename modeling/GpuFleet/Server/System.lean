import GpuFleet.Foundations.Triple
import GpuFleet.Server.AdminNodes
import GpuFleet.Server.Background

/-!
# Runs of the server

The server as a whole: requests of administrators and nodes and the passes of
the scanner, one after another, each run alone.  A request of a node stands for
one that authentication let through, so its node is enabled; what
authentication itself does is in `Server.Auth`.

`steps` lists the steps of a run, and `steps_induction` takes a property
through it.
-/

namespace GpuFleet

open Foundations

/-! ## Operations -/

/-- The operations of the server, with their arguments and clock readings. -/
inductive SystemOp where
  | createNode (payload : NodeCreateRequest) (secret : NewSecret) (admin : Admin) (now : Nat)
  | updateNode (nodeId : String) (payload : NodeUpdateRequest) (admin : Admin) (now : Nat)
  | setNodeEnabled (nodeId : String) (enabled : Bool) (admin : Admin) (now : Nat)
  | resetSecret (nodeId : String) (secret : NewSecret) (admin : Admin) (now : Nat)
  | regenerateOnboarding (nodeId : String) (secret : NewSecret) (admin : Admin) (now : Nat)
  | createTask (payload : AdminTaskCreateRequest) (ctx : CreateContext)
  | cancel (taskId : String) (admin : Admin) (now : Nat)
  | escalate (taskId : String) (note : Option String) (admin : Admin) (now : Nat)
  | approve (taskId : String) (note : Option String) (admin : Admin) (now : Nat)
  | reject (taskId : String) (note : Option String) (admin : Admin) (now : Nat)
  | heartbeat (nodeId : String) (payload : HeartbeatRequest) (now : Nat)
  | event (nodeId : String) (payload : NodeTaskEventRequest) (now : Nat)
  | result (nodeId : String) (payload : NodeTaskResultRequest) (now : Nat)
  | markLost (now : Nat)
  | expireReviews (now : Nat)

namespace SystemOp

/-- The clock reading of an operation. -/
def now : SystemOp → Nat
  | createNode _ _ _ now => now
  | updateNode _ _ _ now => now
  | setNodeEnabled _ _ _ now => now
  | resetSecret _ _ _ now => now
  | regenerateOnboarding _ _ _ now => now
  | createTask _ ctx => ctx.now
  | cancel _ _ now => now
  | escalate _ _ _ now => now
  | approve _ _ _ now => now
  | reject _ _ _ now => now
  | heartbeat _ _ now => now
  | event _ _ now => now
  | result _ _ now => now
  | markLost now => now
  | expireReviews now => now

end SystemOp

/-- A request of an enabled node. -/
def asNode {α : Type} (nodeId : String) (body : Node → Tx α) : Tx α := do
  let node ← Prog.query fun db => (db.nodes.get? nodeId).filter Node.isEnabled
  match node with
  | none =>
      .raise (unauthorized "ERR_AUTH_NODE_NOT_FOUND_OR_DISABLED" "Node not found or disabled"
        [("node_id", .str nodeId)])
  | some node => body node

/-- An operation whose response is of no interest. -/
def silently {α : Type} (p : Tx α) : Tx (Option HeartbeatResponse) := p >>= fun _ => pure none

section Runs

variable (settings : Settings) (crypto : Crypto)

/-- The program of an operation, with the response to a heartbeat. -/
def SystemOp.code : SystemOp → Tx (Option HeartbeatResponse)
  | createNode payload secret admin now =>
      silently (GpuFleet.createNode crypto payload secret admin now)
  | updateNode nodeId payload admin now => silently (GpuFleet.updateNode nodeId payload admin now)
  | setNodeEnabled nodeId enabled admin now =>
      silently (GpuFleet.setNodeEnabled nodeId enabled admin now)
  | resetSecret nodeId secret admin now =>
      silently (resetNodeSecret crypto nodeId secret admin now)
  | regenerateOnboarding nodeId secret admin now =>
      silently (regenerateNodeOnboarding crypto nodeId secret admin now)
  | createTask payload ctx => silently (GpuFleet.createTask payload ctx)
  | cancel taskId admin now => silently (cancelTask taskId admin now)
  | escalate taskId note admin now => silently (escalateReview taskId note admin now)
  | approve taskId note admin now => silently (approveReview taskId note admin now)
  | reject taskId note admin now => silently (rejectReview taskId note admin now)
  | heartbeat nodeId payload now =>
      asNode nodeId fun node =>
        GpuFleet.heartbeat settings.maxStatusHistoryPerNode nodeId node payload now >>= fun r =>
          pure (some r)
  | event nodeId payload now => asNode nodeId fun _ => silently (taskEvents nodeId payload now)
  | result nodeId payload now => asNode nodeId fun _ => silently (taskResult nodeId payload now)
  | markLost now => silently (markLostTasks now)
  | expireReviews now => silently (expireReviewingTasks now)

/-- One operation of a run: the databases around it and its response. -/
structure Step where
  before : Db
  op : SystemOp
  reply : Except Exc (Option HeartbeatResponse)
  after : Db

/-- The steps of a run of operations, each taken alone. -/
def steps (db : Db) (x : World) : List SystemOp → List Step
  | [] => []
  | op :: ops =>
      let p := op.code settings crypto
      ⟨db, op, p.resultOf db x, p.dbAfter db x⟩ :: steps (p.dbAfter db x) (p.outsideAfter db x) ops

/-- A step is the operation's program, run alone on the database before. -/
structure Step.Runs (s : Step) (x : World) : Prop where
  reply : s.reply = (s.op.code settings crypto).resultOf s.before x
  after : s.after = (s.op.code settings crypto).dbAfter s.before x

/-- The step an operation takes. -/
def SystemOp.step (op : SystemOp) (db : Db) (x : World) : Step :=
  let p := op.code settings crypto
  ⟨db, op, p.resultOf db x, p.dbAfter db x⟩

/-- What a run of operations leads to. -/
def finish (db : Db) (x : World) : List SystemOp → Db × World
  | [] => (db, x)
  | op :: ops =>
      let p := op.code settings crypto
      finish (p.dbAfter db x) (p.outsideAfter db x) ops

variable {settings crypto}

theorem SystemOp.step_runs (op : SystemOp) (db : Db) (x : World) :
    (op.step settings crypto db x).Runs settings crypto x :=
  ⟨rfl, rfl⟩

variable (settings crypto) in
/-- An operation of a run steps from where those before it lead to. -/
theorem steps_append_cons (db : Db) (x : World) (before : List SystemOp) (op : SystemOp)
    (later : List SystemOp) :
    ∃ rest, steps settings crypto db x (before ++ op :: later) =
      steps settings crypto db x before ++ op.step settings crypto
        (finish settings crypto db x before).1 (finish settings crypto db x before).2 :: rest := by
  induction before generalizing db x with
  | nil => exact ⟨_, rfl⟩
  | cons first before ih =>
      obtain ⟨rest, hrest⟩ := ih _ _
      exact ⟨rest, congrArg (_ :: ·) hrest⟩

/-- Properties of the steps so far and of the database they lead to go through a whole run,
when each step that meets a condition keeps them. -/
theorem steps_induction {I : List Step → Db → Prop} {C : Step → Prop}
    (hstep : ∀ past s x, s.Runs settings crypto x → C s → I past s.before →
      I (past ++ [s]) s.after)
    (past : List Step) {db : Db} {x : World} {ops : List SystemOp} (hdb : I past db)
    (hcond : ∀ s ∈ steps settings crypto db x ops, C s) {pre post : List Step} {s : Step}
    (h : steps settings crypto db x ops = pre ++ s :: post) :
    (∃ x, s.Runs settings crypto x) ∧ I (past ++ pre) s.before ∧
      I (past ++ pre ++ [s]) s.after := by
  induction ops generalizing past db x pre with
  | nil =>
      rw [steps] at h
      exact absurd h.symm (by simp)
  | cons op ops ih =>
      rw [steps] at h hcond
      have hruns : Step.Runs settings crypto ⟨db, op, (op.code settings crypto).resultOf db x,
        (op.code settings crypto).dbAfter db x⟩ x := ⟨rfl, rfl⟩
      have hnext := hstep past _ x hruns (hcond _ (List.mem_cons_self ..)) hdb
      cases pre with
      | nil =>
          obtain ⟨rfl, -⟩ := List.cons.inj h
          rw [List.append_nil]
          exact ⟨⟨x, hruns⟩, hdb, hnext⟩
      | cons t pre =>
          obtain ⟨rfl, htail⟩ := List.cons.inj h
          have := ih (past ++ [_]) hnext (fun s hs => hcond s (List.mem_cons_of_mem _ hs)) htail
          simpa only [List.append_assoc, List.singleton_append] using this

theorem op_mem_of_mem {db : Db} {x : World} {ops : List SystemOp} {s : Step}
    (h : s ∈ steps settings crypto db x ops) : s.op ∈ ops := by
  induction ops generalizing db x with
  | nil => cases h
  | cons op ops ih =>
      rcases List.mem_cons.mp h with rfl | h
      · exact List.mem_cons_self ..
      · exact List.mem_cons_of_mem _ (ih h)

/-- Every step of a run runs its operation. -/
theorem runs_of_mem {db : Db} {x : World} {ops : List SystemOp} {s : Step}
    (h : s ∈ steps settings crypto db x ops) : ∃ x, s.Runs settings crypto x := by
  obtain ⟨pre, post, hsplit⟩ := List.append_of_mem h
  exact (steps_induction (I := fun _ _ => True) (C := fun _ => True) (fun _ _ _ _ _ _ => trivial)
    [] trivial (fun _ _ => trivial) hsplit).1

/-- An invariant that each step meeting a condition keeps holds around every step of a run
whose steps all meet it. -/
theorem steps_inv {I : Db → Prop} {C : Step → Prop}
    (hstep : ∀ s x, s.Runs settings crypto x → C s → I s.before → I s.after) {db : Db} {x : World}
    {ops : List SystemOp} (hdb : I db) (hcond : ∀ s ∈ steps settings crypto db x ops, C s)
    {s : Step} (h : s ∈ steps settings crypto db x ops) : I s.before ∧ I s.after := by
  obtain ⟨pre, post, hsplit⟩ := List.append_of_mem h
  exact (steps_induction (I := fun _ db => I db) (fun _ s x => hstep s x) [] hdb hcond hsplit).2

end Runs

/-! ## Concrete data -/

/-- A node, a task of the node, and the heartbeat that claims it. -/
def claimTask : List SystemOp :=
  let admin : Admin := ⟨1, "admin"⟩
  [.createNode { nodeId := "n", displayName := "n", allowShell := true } ⟨"secret", "", ""⟩ admin 0,
    .createTask { nodeId := "n", type := .healthCheck, taskId := some "t" }
      { admin, review := none, freshTaskId := "", freshKey := "", now := 0, reviewedAt := 0 },
    .heartbeat "n" { bootId := "b" } 0]

/-- A task of the same node that waits for a review. -/
def createReviewed : SystemOp :=
  .createTask { nodeId := "n", type := .shell, taskId := some "r" }
    { admin := ⟨1, "admin"⟩, review := none, freshTaskId := "", freshKey := "", now := 0
      reviewedAt := 0 }

end GpuFleet
