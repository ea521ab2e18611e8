import GpuFleet.Foundations.History
import GpuFleet.Server.System

/-!
# Node policy

An administrator says of each node whether it may run shell and modal tasks and
in which directories.  `create_task` asks, and nothing after it does: neither
the approval of a review nor the claim of a heartbeat.  So a task that waits
while the policy is narrowed is sent to the node all the same
(`policy_changed_before_dispatch`).

What holds is `dispatched_task_was_permitted`.  Every `create_task` that
inserted the task had found, when it read the row of the node, a committed
policy that permits the task; and unless an `update_node` of that node commits
between this read and the claim, the policy at the claim permits it as well.

Requests run side by side, a statement at a time; `create_task` waits for the
reviewing model between its read and its `INSERT`.
-/

namespace GpuFleet

open Foundations

/-- What the settings of a node permit. -/
def Node.permits (node : Node) (type : TaskType) (workdir : Option String) : Bool :=
  (!type.isShell || node.allowShell) && (!type.isModal || node.allowModal) &&
    ensureWorkdirAllowed workdir node.allowedWorkdirs

/-! ## Runs -/

/-- The requests that make tasks, activate them, change the policy of nodes and send tasks. -/
inductive DispatchOp where
  | createTask (payload : AdminTaskCreateRequest) (ctx : CreateContext)
  | approve (taskId : String) (note : Option String) (admin : Admin) (now : Nat)
  | updateNode (nodeId : String) (payload : NodeUpdateRequest) (admin : Admin) (now : Nat)
  | heartbeat (nodeId : String) (payload : HeartbeatRequest) (now : Nat)

/-- The request as an operation of the system. -/
def DispatchOp.system : DispatchOp → SystemOp
  | createTask payload ctx => .createTask payload ctx
  | approve taskId note admin now => .approve taskId note admin now
  | updateNode nodeId payload admin now => .updateNode nodeId payload admin now
  | heartbeat nodeId payload now => .heartbeat nodeId payload now

/-- The program of a request. -/
def DispatchOp.code (settings : Settings) (crypto : Crypto) (op : DispatchOp) :
    Tx (Option HeartbeatResponse) :=
  op.system.code settings crypto

/-- A configuration of requests running side by side. -/
abbrev DispatchConf := Conf DispatchOp Dml Db World Exc (Option HeartbeatResponse)

/-- The row of the node for which session `i` is about to claim a task. -/
def claimsFor (c : DispatchConf) (i : Nat) : Option Node :=
  match c.about (.turn i : Act DispatchOp Exc) with
  | some (.task (.claimNext nodeId _), s) => (s.view c.db).nodes.get? nodeId
  | _ => none

/-- The tasks in the response of session `i`. -/
def dispatched (c : DispatchConf) (i : Nat) : List TaskEnvelope :=
  match (c.sessions[i]?).bind Session.done with
  | some (.ok (some r)) => r.tasks
  | _ => []

/-! ## What the requests execute -/

/-- The statement makes and claims no task and changes no policy. -/
def Dml.isPlain : Dml → Bool
  | .task (.insert _) | .task (.claimNext ..) | .node (.insert _) | .node (.setSettings ..) => false
  | _ => true

/-- The program executes plain statements only. -/
def Plain {α : Type} (p : Tx α) : Prop :=
  p.Avoids (fun _ => True) (fun q => q.isPlain = false) fun _ => True

section Plain

variable {α β : Type}

theorem Plain.bind {p : Tx α} {g : α → Tx β} (hp : Plain p) (hg : ∀ a, Plain (g a)) :
    Plain (p >>= g) :=
  Prog.Avoids.bind hp fun a _ => hg a

theorem Plain.catch {p : Tx α} {handler : String → Exc} (hp : Plain p) :
    Plain (catchTaskState p fun m => .raise (handler m)) :=
  Prog.Avoids.tryCatch hp fun e => by cases e <;> trivial

theorem plain_query {f : Db → α} : Plain (Prog.query f) := fun _ _ => trivial

theorem plain_execute {q : Dml} (h : q.isPlain = true) : Plain (Prog.execute q) :=
  ⟨fun hq => absurd (hq.symm.trans h) Bool.false_ne_true, fun _ _ => trivial⟩

theorem plain_ofExcept {r : Except Exc α} : Plain (ofExcept r) := by
  cases r <;> trivial

theorem getTaskRow_plain (taskId : String) : Plain (getTaskRow taskId) := by
  refine plain_query.bind fun row => ?_
  cases row <;> trivial

theorem findNode_plain (nodeId : String) : Plain (findNode nodeId) := by
  refine plain_query.bind fun row => ?_
  cases row <;> trivial

/-- The approval of a review is an update of the task. -/
theorem transitionTask_approve_plain (taskId : String) (args : TransitionArgs) :
    Plain (transitionTask taskId .reviewApprove args) := by
  refine (getTaskRow_plain taskId).bind fun row => ?_
  simp only
  split
  · trivial
  · exact (plain_execute rfl).bind fun _ => getTaskRow_plain taskId

theorem checkCooldown_plain (taskId : String) (row : Task) (now : Nat) :
    Plain (checkCooldown taskId row now) := by
  unfold checkCooldown
  split
  · trivial
  · split
    · trivial
    · refine plain_ofExcept.bind fun started => ?_
      split <;> trivial

theorem taskRowToDetail_plain (row : Task) : Plain (taskRowToDetail row) :=
  plain_query.bind fun _ => plain_query.bind fun _ => trivial

theorem approveReview_plain (taskId : String) (note : Option String) (admin : Admin) (now : Nat) :
    Plain (approveReview taskId note admin now) := by
  refine (getTaskRow_plain taskId).catch.bind fun row => ?_
  split
  · trivial
  · refine (checkCooldown_plain taskId row now).bind fun _ => ?_
    refine (transitionTask_approve_plain taskId _).catch.bind fun saved => ?_
    refine (plain_execute rfl).bind fun _ => (plain_execute rfl).bind fun _ => ?_
    exact (plain_execute rfl).bind fun _ => taskRowToDetail_plain saved

theorem syncReportedActiveTask_plain (nodeId : String) (activeTaskId : Option String)
    (claimedAt : String) : Plain (syncReportedActiveTask nodeId activeTaskId claimedAt) := by
  unfold syncReportedActiveTask
  split
  · trivial
  · split
    · trivial
    · refine plain_query.bind fun row => ?_
      split
      · trivial
      · split
        · exact (plain_execute rfl).bind fun _ => plain_query
        · trivial

theorem insertReviewAudit_plain (taskId : String) (stage : Nat) (reviewerType : String)
    (reviewerId : Option String) (decision : String) (riskScore : Option Rat)
    (riskFactors : Option Json) (reasoning : Option String) (createdAt : String) :
    Plain (insertReviewAudit taskId stage reviewerType reviewerId decision riskScore riskFactors
      reasoning createdAt) :=
  plain_execute rfl

end Plain

/-- What a request knows when it executes a statement.  `first` is what it read first. -/
structure DispatchOp.Executes (op : DispatchOp) (first : Db) (q : Dml) : Prop where
  creates : ∀ row, q = .task (.insert row) → ∃ payload ctx node, op = .createTask payload ctx ∧
    row.nodeId = payload.nodeId ∧ row.type = payload.type ∧ row.workdir = payload.workdir ∧
    first.nodes.get? payload.nodeId = some node ∧
    node.permits payload.type payload.workdir = true
  settings : ∀ nodeId values, q = .node (.setSettings nodeId values) →
    ∃ payload admin now, op = .updateNode nodeId payload admin now
  nodes : ∀ row, q ≠ .node (.insert row)
  claims : ∀ nodeId claimedAt, q = .task (.claimNext nodeId claimedAt) →
    ∃ payload now, op = .heartbeat nodeId payload now

theorem DispatchOp.Executes.of_plain {op : DispatchOp} {first : Db} {q : Dml}
    (h : ¬ q.isPlain = false) : op.Executes first q where
  creates := by
    rintro row rfl
    exact absurd rfl h
  settings := by
    rintro nodeId values rfl
    exact absurd rfl h
  nodes := by
    rintro row rfl
    exact h rfl
  claims := by
    rintro nodeId claimedAt rfl
    exact absurd rfl h

section Follows

variable {op : DispatchOp} {first : Db} {α : Type}

theorem Plain.follows {p : Tx α} (hp : Plain p) :
    p.Follows op.Executes (fun _ _ => True) (some first) :=
  (Prog.Follows.of_avoids hp (fun _ _ hq => .of_plain hq) first).mono fun _ _ _ => trivial

theorem approveReview_follows (taskId : String) (note : Option String) (admin : Admin)
    (now : Nat) :
    (approveReview taskId note admin now).Follows op.Executes (fun _ _ => True) none :=
  fun _ => Plain.follows (approveReview_plain taskId note admin now _ trivial)

theorem checkTarget_follows {R : Db → Dml → Prop} (payload : AdminTaskCreateRequest) :
    (checkTarget payload).Follows R (fun node o => ∃ first, o = some first ∧
      first.nodes.get? payload.nodeId = some node ∧
        node.permits payload.type payload.workdir = true) none := by
  unfold checkTarget
  intro db
  simp only [Prog.bind]
  cases hrow : db.nodes.get? payload.nodeId with
  | none => trivial
  | some node =>
      simp only
      split
      · trivial
      · split
        · trivial
        · split
          · trivial
          · split
            · trivial
            · rename_i hworkdir
              split
              · trivial
              · rename_i hshell
                split
                · trivial
                · rename_i hmodal
                  refine ⟨db, rfl, hrow, ?_⟩
                  simp only [Bool.not_eq_true', Bool.not_eq_false, not_and,
                    Bool.not_eq_false] at hworkdir hshell hmodal
                  rw [Node.permits, hworkdir]
                  cases hs : payload.type.isShell <;> cases hm : payload.type.isModal <;>
                    simp_all

/-- After the row of the node is read, the task is inserted once. -/
theorem createTask_follows (payload : AdminTaskCreateRequest) (ctx : CreateContext) :
    (createTask payload ctx).Follows (DispatchOp.createTask payload ctx).Executes
      (fun _ _ => True) none := by
  unfold createTask
  refine (checkTarget_follows payload).bind ?_
  rintro node _ ⟨first, rfl, hnode, hpermits⟩
  refine Prog.Follows.bind Prog.follows_query ?_
  rintro existing _ rfl
  split
  · trivial
  · refine Prog.Follows.bind (Prog.follows_executeReturning ⟨?_, ?_, ?_, ?_⟩) ?_
    · rintro row ⟨⟩
      exact ⟨payload, ctx, node, rfl, rfl, rfl, rfl, hnode, hpermits⟩
    · rintro nodeId values ⟨⟩
    · rintro row ⟨⟩
    · rintro nodeId claimedAt ⟨⟩
    · rintro conflict _ rfl
      refine Plain.follows ?_
      split
      · trivial
      · have hlast : ∀ (detail : Json) (reply : Option Task → Tx AdminTaskDetail),
            (∀ row, Plain (reply row)) → ∀ a : Unit, Plain (do
              auditTask ctx.admin "create_task" (orElse payload.taskId ctx.freshTaskId) detail
                (utcNowIso ctx.now)
              reconnect
              let row ← Prog.query fun db => db.tasks.get? (orElse payload.taskId ctx.freshTaskId)
              reply row : Tx AdminTaskDetail) := by
          intro detail reply hreply _
          exact (plain_execute rfl).bind fun _ => Plain.bind (show Plain reconnect from trivial)
            fun _ => plain_query.bind hreply
        simp only
        split
        · split
          · exact (plain_execute rfl).bind (hlast _ _ fun row => by cases row <;> trivial)
          · exact hlast _ _ (fun row => by cases row <;> trivial) ()
        · refine (insertReviewAudit_plain ..).bind fun _ => ?_
          split
          · exact (plain_execute rfl).bind (hlast _ _ fun row => by cases row <;> trivial)
          · exact hlast _ _ (fun row => by cases row <;> trivial) ()

theorem updateNode_follows (nodeId : String) (payload : NodeUpdateRequest) (admin : Admin)
    (now : Nat) :
    (updateNode nodeId payload admin now).Follows
      (DispatchOp.updateNode nodeId payload admin now).Executes (fun _ _ => True) none := by
  unfold updateNode
  split
  · trivial
  · intro db
    simp only [Prog.bind]
    cases db.nodes.get? nodeId with
    | none => trivial
    | some row =>
        refine fun _ => ⟨⟨?_, ?_, ?_, ?_⟩, Plain.follows ?_⟩
        · rintro row ⟨⟩
        · rintro nodeId values ⟨⟩
          exact ⟨payload, admin, now, rfl⟩
        · rintro row ⟨⟩
        · rintro nodeId claimedAt ⟨⟩
        · exact (plain_execute rfl).bind fun _ => findNode_plain nodeId

/-- The end of a heartbeat, after the claim. -/
def respond (keep : Nat) (nodeId nowIso : String) (claimed : Option Task) :
    Tx (Option HeartbeatResponse) := do
  let taskControls ← Prog.query fun db => cancelControls db nodeId
  reconnect
  Prog.execute (.snapshot (.trim nodeId keep))
  reconnect
  let refreshFingerprint ← takeFingerprintRefresh nodeId
  pure (some
    { serverTime := nowIso
      nodeId
      tasks := (claimed.map Task.envelope).toList
      taskControls
      refreshFingerprint })

/-- A heartbeat updates the node and its reported task, claims a task unless the node has one, and
responds. -/
theorem heartbeat_parts (keep : Nat) (nodeId : String) (node : Node) (payload : HeartbeatRequest)
    (now : Nat) :
    ∃ first : Tx (Option Task), Plain first ∧
      (heartbeat keep nodeId node payload now >>= fun r => pure (some r)) = (do
        let active ← first
        match active with
        | some _ => respond keep nodeId (utcNowIso now) none
        | none => do
            let claimed ← claimNextTaskForNode nodeId (utcNowIso now)
            respond keep nodeId (utcNowIso now) claimed) := by
  refine ⟨do
    Prog.execute .beginImmediate
    Prog.execute (.node (.touch nodeId ((payload.hostname.filter (· ≠ "")) <|> node.hostname)
      payload.heartbeatIntervalSec (utcNowIso now) payload.bootId))
    Prog.execute (.snapshot (.insertMany (buildSnapshotRows nodeId (utcNowIso now) payload)))
    syncReportedActiveTask nodeId payload.activeTaskId (utcNowIso now), ?_, ?_⟩
  · refine (plain_execute rfl).bind fun _ => (plain_execute rfl).bind fun _ => ?_
    exact (plain_execute rfl).bind fun _ => syncReportedActiveTask_plain ..
  · simp only [heartbeat, Prog.bind_assoc]
    congr 1
    funext _
    congr 1
    funext _
    congr 1
    funext _
    congr 1
    funext active
    cases active <;> rfl

theorem respond_avoids (keep : Nat) (nodeId nowIso : String) (claimed : Option Task) :
    (respond keep nodeId nowIso claimed).Avoids (fun _ => True) (fun q => q.isPlain = false)
      fun o => ∀ r ∈ o, r.tasks = (claimed.map Task.envelope).toList := by
  refine fun _ _ => ⟨Bool.noConfusion, fun _ _ _ => ?_⟩
  rintro r ⟨⟩
  rfl

theorem heartbeat_follows (keep : Nat) (nodeId : String) (payload : HeartbeatRequest) (now : Nat) :
    (asNode nodeId fun node =>
        heartbeat keep nodeId node payload now >>= fun r => pure (some r)).Follows
      (DispatchOp.heartbeat nodeId payload now).Executes (fun _ _ => True) none := by
  intro db
  simp only [Prog.bind]
  cases (db.nodes.get? nodeId).filter Node.isEnabled with
  | none => trivial
  | some node =>
      obtain ⟨first, hfirst, heq⟩ := heartbeat_parts keep nodeId node payload now
      simp only
      rw [heq]
      refine (Prog.Follows.of_avoids hfirst (fun _ _ hq => .of_plain hq) db).bind ?_
      rintro active _ ⟨-, rfl⟩
      have hrespond : ∀ claimed, Plain (respond keep nodeId (utcNowIso now) claimed) :=
        fun claimed => (respond_avoids keep nodeId (utcNowIso now) claimed).mono fun _ _ => trivial
      cases active with
      | some row => exact (hrespond none).follows
      | none =>
          refine fun _ => ⟨⟨?_, ?_, ?_, ?_⟩, (hrespond _).follows⟩
          · rintro row ⟨⟩
          · rintro nodeId values ⟨⟩
          · rintro row ⟨⟩
          · rintro nodeId claimedAt ⟨⟩
            exact ⟨payload, now, rfl⟩

theorem DispatchOp.code_follows (settings : Settings) (crypto : Crypto) (op : DispatchOp) :
    (op.code settings crypto).Follows op.Executes (fun _ _ => True) none := by
  cases op with
  | createTask payload ctx => exact (createTask_follows payload ctx).bind_ret _
  | updateNode nodeId payload admin now =>
      exact (updateNode_follows nodeId payload admin now).bind_ret _
  | approve taskId note admin now =>
      exact (approveReview_follows taskId note admin now).bind_ret _
  | heartbeat nodeId payload now =>
      exact heartbeat_follows settings.maxStatusHistoryPerNode nodeId payload now

end Follows

/-! ## What the response to a claim holds -/

/-- After a claim a heartbeat responds with a task of the node, if with any. -/
def DispatchOp.Reports (op : DispatchOp) (q : Dml) (db : Db)
    (rest : Tx (Option HeartbeatResponse)) : Prop :=
  ∀ nodeId payload now claimedAt, op = .heartbeat nodeId payload now →
    q = .task (.claimNext nodeId claimedAt) →
      rest.Avoids (fun _ => True) (fun _ => False) fun o => ∀ r ∈ o, ∀ env ∈ r.tasks,
        ∃ row ∈ db.tasks.rows, row.nodeId = nodeId ∧ row.envelope = env

theorem DispatchOp.reports_of_plain {op : DispatchOp} {q : Dml} {db : Db}
    {rest : Tx (Option HeartbeatResponse)} (h : ¬ q.isPlain = false) : op.Reports q db rest := by
  rintro nodeId payload now claimedAt - rfl
  exact absurd rfl h

theorem heartbeat_then (keep : Nat) (nodeId : String) (payload : HeartbeatRequest) (now : Nat) :
    (asNode nodeId fun node =>
        heartbeat keep nodeId node payload now >>= fun r => pure (some r)).Then
      (DispatchOp.heartbeat nodeId payload now).Reports := by
  intro db
  simp only [Prog.bind]
  cases (db.nodes.get? nodeId).filter Node.isEnabled with
  | none => trivial
  | some node =>
      obtain ⟨first, hfirst, heq⟩ := heartbeat_parts keep nodeId node payload now
      simp only
      rw [heq]
      refine hfirst.then_bind (fun _ _ _ => DispatchOp.reports_of_plain) fun active _ => ?_
      have hthen : ∀ claimed, (respond keep nodeId (utcNowIso now) claimed).Then
          (DispatchOp.heartbeat nodeId payload now).Reports := fun claimed =>
        (respond_avoids keep nodeId (utcNowIso now) claimed).then_
          fun _ _ _ => DispatchOp.reports_of_plain
      cases active with
      | some row => exact hthen none
      | none =>
          refine fun w => ⟨?_, hthen _⟩
          rintro _ _ _ _ ⟨⟩ ⟨⟩
          refine ((respond_avoids keep nodeId (utcNowIso now) _).weaken
            (fun _ => False.elim)).mono fun o ho r hr env henv => ?_
          rw [ho r hr] at henv
          obtain ⟨row, hrow, rfl⟩ := Option.map_eq_some_iff.mp (Option.mem_toList.mp henv)
          obtain ⟨old, hold, rfl⟩ := Option.map_eq_some_iff.mp hrow
          obtain ⟨hmem, hsel⟩ := List.mem_filter.mp (List.mem_of_mem_head? hold)
          exact ⟨old, hmem, (TaskStmt.selects_claimNext hmem hsel).2, rfl⟩

theorem DispatchOp.code_then (settings : Settings) (crypto : Crypto) (op : DispatchOp) :
    (op.code settings crypto).Then op.Reports := by
  cases op with
  | heartbeat nodeId payload now =>
      exact heartbeat_then settings.maxStatusHistoryPerNode nodeId payload now
  | createTask | approve | updateNode =>
      refine Prog.then_of_forall (fun _ _ _ => ?_) _
      rintro _ _ _ _ ⟨⟩

/-! ## Permission at the read -/

/-- The request updates the node. -/
def DispatchOp.updates (nodeId : String) : DispatchOp → Bool
  | updateNode nodeId' _ _ _ => nodeId' = nodeId
  | _ => false

/-- The next move of the program commits. -/
def commitsNext {α : Type} : Tx α → Bool
  | .ret _ | .commit _ => true
  | _ => false

/-- No `update_node` of the node commits in this action. -/
def keepsPolicy (nodeId : String) (c : DispatchConf) : Act DispatchOp Exc → Bool
  | .turn i => (c.live i).all fun s => !(s.tag.updates nodeId && commitsNext s.prog)
  | _ => true

def KeepsPolicy (nodeId : String) (c : DispatchConf) (a : Act DispatchOp Exc) : Prop :=
  keepsPolicy nodeId c a = true

instance (nodeId : String) (c : DispatchConf) (a : Act DispatchOp Exc) :
    Decidable (KeepsPolicy nodeId c a) :=
  inferInstanceAs (Decidable (_ = _))

/-- The policy of a node. -/
def policyOf (db : Db) (nodeId : String) : Option (Bool × Bool × List String) :=
  (db.nodes.get? nodeId).map fun row => (row.allowShell, row.allowModal, row.allowedWorkdirs)

theorem permits_of_policyOf {db db' : Db} {nodeId : String} {node node' : Node}
    (h : policyOf db nodeId = policyOf db' nodeId) (hn : db.nodes.get? nodeId = some node)
    (hn' : db'.nodes.get? nodeId = some node') (type : TaskType) (workdir : Option String) :
    node.permits type workdir = node'.permits type workdir := by
  rw [policyOf, policyOf, hn, hn', Option.map_some, Option.map_some, Option.some.injEq] at h
  obtain ⟨hshell, h⟩ := Prod.mk.inj h
  obtain ⟨hmodal, hworkdirs⟩ := Prod.mk.inj h
  rw [Node.permits, Node.permits, hshell, hmodal, hworkdirs]

/-- A statement that is not of an update of the node leaves its policy alone. -/
theorem policyOf_apply {op : DispatchOp} {first db : Db} {q : Dml} {nodeId : String}
    (h : op.Executes first q) (hop : op.updates nodeId = false) :
    policyOf (Statement.apply q db) nodeId = policyOf db nodeId := by
  by_cases hq : ∃ n, q = .node n
  · obtain ⟨n, rfl⟩ := hq
    have hins : ∀ row, n ≠ .insert row := fun row e => h.nodes row (congrArg _ e)
    rw [policyOf, apply_nodes_node, NodeStmt.get?_apply hins, policyOf, Option.map_map]
    cases hrow : db.nodes.get? nodeId with
    | none => rfl
    | some row =>
        simp only [Option.map_some, Function.comp]
        split
        · rename_i hsel
          cases n with
          | insert row => exact absurd rfl (hins row)
          | setSettings nodeId' values =>
              obtain ⟨payload, admin, now, rfl⟩ := h.settings nodeId' values rfl
              have hid : row.nodeId = nodeId := Table.get?_key hrow
              have hid' : row.nodeId = nodeId' := of_decide_eq_true hsel
              exact absurd (hid'.symm.trans hid) (of_decide_eq_false hop)
          | touch | setRequestTs | setEncryptedKey | setEnabled | setSecret => rfl
        · rfl
  · rw [policyOf, apply_nodes db fun n e => hq ⟨n, e⟩, policyOf]

section Runs

variable {settings : Settings} {crypto : Crypto} {db : Db} {x : World}

/-- Session `j`, of the request `op`, makes a task in the run `past`: it has its first look at the
database after the actions `read`, when `found` is committed, and executes the `INSERT` of the row
after `made`. -/
structure Creates (settings : Settings) (crypto : Crypto) (db : Db) (x : World)
    (past : List (Act DispatchOp Exc)) (j : Nat) (op : DispatchOp)
    (read made : List (Act DispatchOp Exc)) (found : DispatchConf) (row : Task) : Prop where
  looks : Conf.LooksFirst (DispatchOp.code settings crypto) (Conf.init db x) j op read found
  order : read ++ [.turn j] <+: made
  inserts : ∃ c s, (Conf.init db x).run (DispatchOp.code settings crypto) made = some c ∧
    c.about (.turn j : Act DispatchOp Exc) = some (.task (.insert row), s)
  done : made ++ [.turn j] <+: past

/-- The row is one of this task. -/
structure RowOf (row : Task) (taskId nodeId : String) (type : TaskType) (workdir : Option String) :
    Prop where
  taskId : row.taskId = taskId
  nodeId : row.nodeId = nodeId
  type : row.type = type
  workdir : row.workdir = workdir

/-- Every task was made in the run. -/
def AllCreated (settings : Settings) (crypto : Crypto) (db : Db) (x : World)
    (past : List (Act DispatchOp Exc)) (db' : Db) : Prop :=
  ∀ row ∈ db'.tasks.rows, ∃ j op read made found row₀,
    Creates settings crypto db x past j op read made found row₀ ∧
      RowOf row₀ row.taskId row.nodeId row.type row.workdir

/-- What the working copies of requests other than updates of the node hold as its policy. -/
structure PolicyGuarded (c : DispatchConf) : Prop where
  exclusive : c.Exclusive
  following : Conf.Following DispatchOp.Executes c
  own : ∀ (i : Nat) s, c.sessions[i]? = some s → ∀ w, s.own = some w → ∀ nodeId,
    s.tag.updates nodeId = false → policyOf w nodeId = policyOf c.db nodeId

theorem policyGuarded_init (db : Db) (x : World) : PolicyGuarded (Conf.init db x) where
  exclusive := Conf.exclusive_init db x
  following := Conf.following_init db x
  own i s hs := by simp [Conf.init] at hs

theorem PolicyGuarded.view {c : DispatchConf} (hc : PolicyGuarded c) {i : Nat}
    {s : Session DispatchOp Dml Db World Exc (Option HeartbeatResponse)} {nodeId : String}
    (hs : c.sessions[i]? = some s) (htag : s.tag.updates nodeId = false) :
    policyOf (s.view c.db) nodeId = policyOf c.db nodeId := by
  cases ho : s.own with
  | none => rw [Session.view_of_own_none ho]
  | some w =>
      rw [Session.view, ho]
      exact hc.own i s hs w ho nodeId htag

theorem PolicyGuarded.step {c c' : DispatchConf} {a : Act DispatchOp Exc} (hc : PolicyGuarded c)
    (h : c.step (DispatchOp.code settings crypto) a = some c') : PolicyGuarded c' := by
  refine ⟨hc.exclusive.step _ h, hc.following.step (DispatchOp.code_follows settings crypto) h, ?_⟩
  refine Conf.forall_sessions_step (DispatchOp.code settings crypto)
    (J := fun db s => ∀ w, s.own = some w → ∀ nodeId, s.tag.updates nodeId = false →
      policyOf w nodeId = policyOf db nodeId) h hc.own (fun t w hw => by cases hw) ?_ ?_
  · intro i s db x s' ha hs hd hm w hw nodeId htag
    rw [hm.tag_eq] at htag
    cases hm with
    | ret _ | raise _ | commit _ | fail => cases hw
    | select _ | io _ => exact hc.own i s hs w hw nodeId htag
    | @write q k hp _ =>
        cases hw
        rcases ha with rfl | ⟨e, -, he⟩
        · rw [policyOf_apply (hc.following.about (Conf.about_turn hs hd hp)) htag]
          exact hc.view hs htag
        · have hdone := congrArg Session.done he
          simp only [Session.finish, hd] at hdone
          cases hdone
  · intro i s db x s' j t hs hm hji ht w hw nodeId htag
    rcases hc.exclusive.view_other hs hm hji ht with rfl | ⟨ho, -⟩
    · exact hc.own j t ht w hw nodeId htag
    · rw [ho] at hw
      cases hw

/-- The committed policy stays when no update of the node commits. -/
theorem PolicyGuarded.policy_step {c c' : DispatchConf} {a : Act DispatchOp Exc} {nodeId : String}
    (hc : PolicyGuarded c) (ha : KeepsPolicy nodeId c a)
    (h : c.step (DispatchOp.code settings crypto) a = some c') :
    policyOf c'.db nodeId = policyOf c.db nodeId := by
  rcases Conf.step_cases _ h with ⟨t, -, rfl⟩ | ⟨i, s, db, x, s', hact, hs, hd, hm, rfl⟩
  · rfl
  · have hlive : c.live i = some s := by simp [Conf.live, hs, hd]
    have hother : a = .turn i → commitsNext s.prog = true → s.tag.updates nodeId = false := by
      rintro rfl hcommits
      simpa [KeepsPolicy, keepsPolicy, hlive, hcommits] using ha
    cases hm with
    | raise _ | select _ | write _ _ | io _ | fail => rfl
    | commit hp =>
        rcases hact with rfl | ⟨e, -, he⟩
        · exact hc.view hs (hother rfl (by rw [hp]; rfl))
        · have hdone := congrArg Session.done he
          simp only [Session.finish, hd] at hdone
          cases hdone
    | ret hp =>
        rcases hact with rfl | ⟨e, -, he⟩
        · exact hc.view hs (hother rfl (by rw [hp]; rfl))
        · have hdone := congrArg Session.done he
          cases hdone

theorem PolicyGuarded.policy_run {c c' : DispatchConf} {acts : List (Act DispatchOp Exc)}
    {nodeId : String} (hc : PolicyGuarded c)
    (h : c.run (DispatchOp.code settings crypto) acts = some c')
    (hm : Conf.Meets (DispatchOp.code settings crypto) (KeepsPolicy nodeId) c acts) :
    policyOf c'.db nodeId = policyOf c.db nodeId :=
  (Conf.run_rel _ (R := fun db db' => policyOf db' nodeId = policyOf db nodeId) (fun _ => rfl)
    (fun h h' => h'.trans h) (fun _ _ _ hc ha h => ⟨hc.step h, hc.policy_step ha h⟩) h hm hc).2

theorem PolicyGuarded.run {c c' : DispatchConf} {acts : List (Act DispatchOp Exc)} (hc : PolicyGuarded c)
    (h : c.run (DispatchOp.code settings crypto) acts = some c') : PolicyGuarded c' :=
  Conf.run_induction _ (fun _ _ _ hc h => hc.step h) h hc

/-- What holds after the actions `past`. -/
structure Overseen (settings : Settings) (crypto : Crypto) (db : Db) (x : World)
    (past : List (Act DispatchOp Exc)) (c : DispatchConf) : Prop where
  guarded : PolicyGuarded c
  continuing : Conf.Continuing DispatchOp.Reports c
  remembers : Conf.Remembers (DispatchOp.code settings crypto) (Conf.init db x) past c
  created : c.Everywhere (AllCreated settings crypto db x past)

theorem TaskStmt.edit_workdir (q : TaskStmt) (row : Task) : (q.edit row).workdir = row.workdir := by
  cases q <;> rfl

theorem AllCreated.mono {past past' : List (Act DispatchOp Exc)} (h : past <+: past') {db' : Db}
    (hdb : AllCreated settings crypto db x past db') :
    AllCreated settings crypto db x past' db' := by
  intro row hrow
  obtain ⟨j, op, read, made, found, row₀, hcreates, hrow₀⟩ := hdb row hrow
  exact ⟨j, op, read, made, found, row₀, { hcreates with done := hcreates.done.trans h }, hrow₀⟩

/-- A session that executes an `INSERT` has had its first look before. -/
theorem Overseen.creates {past : List (Act DispatchOp Exc)} {c : DispatchConf} {j : Nat}
    {row : Task} {s : Session DispatchOp Dml Db World Exc (Option HeartbeatResponse)}
    (hc : Overseen settings crypto db x past c)
    (hrun : (Conf.init db x).run (DispatchOp.code settings crypto) past = some c)
    (hq : c.about (.turn j : Act DispatchOp Exc) = some (.task (.insert row), s)) :
    ∃ read found, Creates settings crypto db x (past ++ [.turn j]) j s.tag read past found row := by
  obtain ⟨_, k, hturn, hs, hd, hp⟩ := Conf.about_some hq
  cases hturn
  -- `create_task` reads the row of the node before its `INSERT`.
  obtain ⟨r, hr⟩ : ∃ r, s.seen = some r := by
    have hfollows := hc.guarded.following j s hs hd
    rw [hp] at hfollows
    cases hseen : s.seen with
    | some r => exact ⟨r, rfl⟩
    | none =>
        rw [hseen] at hfollows
        obtain ⟨payload, ctx, node, -, -, -, -, hget, -⟩ :=
          (hfollows { nodes := .empty }).1.creates row rfl
        exact absurd (Table.get?_mem hget) List.not_mem_nil
  obtain ⟨read, found, horder, hlooks, -⟩ := (hc.remembers j s hs).2 r hr
  exact ⟨read, found, hlooks, horder, ⟨c, s, hrun, hq⟩, List.prefix_rfl⟩

/-- A statement that a session executes leaves every task made in the run. -/
theorem Overseen.allCreated_apply {past : List (Act DispatchOp Exc)} {c : DispatchConf}
    {a : Act DispatchOp Exc} {q : Dml}
    {s : Session DispatchOp Dml Db World Exc (Option HeartbeatResponse)}
    (hc : Overseen settings crypto db x past c)
    (hrun : (Conf.init db x).run (DispatchOp.code settings crypto) past = some c)
    (hq : c.about a = some (q, s))
    (hview : AllCreated settings crypto db x (past ++ [a]) (s.view c.db)) :
    AllCreated settings crypto db x (past ++ [a]) (Statement.apply q (s.view c.db)) := by
  intro row' hrow'
  by_cases ht : ∃ t, q = .task t
  · obtain ⟨t, rfl⟩ := ht
    rcases TaskStmt.mem_apply_cases hrow' with ⟨row, hrow, rfl⟩ | ⟨row, hrow, -, rfl⟩ | hins
    · exact hview row' hrow
    · obtain ⟨-, htask, hnode, htype, -⟩ := t.edit_frame row
      rw [htask, hnode, htype, TaskStmt.edit_workdir]
      exact hview row hrow
    · obtain ⟨row, rfl, rfl⟩ := hins
      obtain ⟨j, k, rfl, hs, hd, hp⟩ := Conf.about_some hq
      obtain ⟨read, found, hcreates⟩ := hc.creates hrun hq
      exact ⟨j, s.tag, read, past, found, row, hcreates, ⟨rfl, rfl, rfl, rfl⟩⟩
  · rw [apply_tasks _ fun t e => ht ⟨t, e⟩] at hrow'
    exact hview row' hrow'

theorem overseen_of_run {past : List (Act DispatchOp Exc)} {c : DispatchConf}
    (hdb : db.tasks.rows = [])
    (h : (Conf.init db x).run (DispatchOp.code settings crypto) past = some c) :
    Overseen settings crypto db x past c := by
  refine Conf.run_past (I := Overseen settings crypto db x) ?_ ?_ h
  · refine ⟨policyGuarded_init db x, Conf.continuing_init db x, Conf.remembers_init db x, ?_⟩
    refine Conf.everywhere_init x fun row hrow => ?_
    rw [hdb] at hrow
    cases hrow
  · intro past c a c' hrun hc hstep
    refine ⟨hc.guarded.step hstep, hc.continuing.step (DispatchOp.code_then settings crypto) hstep,
      hc.remembers.step hrun hstep, ?_⟩
    have hlater : c.Everywhere (AllCreated settings crypto db x (past ++ [a])) :=
      hc.created.mono fun _ => AllCreated.mono (List.prefix_append ..)
    exact hlater.step _ hstep fun q s hq => hc.allCreated_apply hrun hq

/-- Whoever inserts a task is a `create_task`, and the policy that was committed when it read the
row of the node permits the task. -/
theorem Creates.permitted {past read made : List (Act DispatchOp Exc)} {j : Nat} {op : DispatchOp}
    {found : DispatchConf} {row : Task}
    (h : Creates settings crypto db x past j op read made found row) :
    (∃ payload ctx, op = .createTask payload ctx) ∧
      ∃ node, found.db.nodes.get? row.nodeId = some node ∧
        node.permits row.type row.workdir = true := by
  obtain ⟨c, s, hrun, hq⟩ := h.inserts
  obtain ⟨_, k, hturn, hs, -, -⟩ := Conf.about_some hq
  cases hturn
  obtain ⟨mid, hmid⟩ := h.order
  rw [List.append_assoc] at hmid
  obtain ⟨s', hs', htag, hseen⟩ := h.looks.seen (hmid ▸ hrun)
  rw [hs] at hs'
  cases hs'
  have hexec := ((policyGuarded_init db x).run hrun).following.about hq
  rw [hseen, Option.getD_some] at hexec
  obtain ⟨payload, ctx, node, hop, hnode, htype, hworkdir, hget, hpermits⟩ := hexec.creates row rfl
  refine ⟨⟨payload, ctx, htag ▸ hop⟩, node, hnode ▸ hget, ?_⟩
  rw [htype, hworkdir]
  exact hpermits

/-- From the first look of the session on, the run goes on as before. -/
theorem Creates.run_drop {past read made : List (Act DispatchOp Exc)} {j : Nat} {op : DispatchOp}
    {found c : DispatchConf} {row : Task}
    (h : Creates settings crypto db x past j op read made found row)
    (hrun : (Conf.init db x).run (DispatchOp.code settings crypto) past = some c) :
    found.run (DispatchOp.code settings crypto) (past.drop read.length) = some c := by
  obtain ⟨rest, rfl⟩ : read <+: past := ((List.prefix_append read _).trans h.order).trans
    ((List.prefix_append made _).trans h.done)
  rw [Conf.run_append, h.looks.run, Option.bind_some] at hrun
  rwa [List.drop_left]

/-- A task in the response of a heartbeat is a row of the table on which its claim is executed. -/
theorem Overseen.dispatched_row {past after : List (Act DispatchOp Exc)} {c₁ c₂ : DispatchConf}
    {i : Nat} {nodeId claimedAt : String} {env : TaskEnvelope}
    {s : Session DispatchOp Dml Db World Exc (Option HeartbeatResponse)}
    (hc : Overseen settings crypto db x past c₁)
    (habout : c₁.about (.turn i : Act DispatchOp Exc) = some (.task (.claimNext nodeId claimedAt), s))
    (h₂ : c₁.run (DispatchOp.code settings crypto) (.turn i :: after) = some c₂)
    (henv : env ∈ dispatched c₂ i) :
    ∃ row ∈ (s.view c₁.db).tasks.rows, row.nodeId = nodeId ∧ row.envelope = env := by
  obtain ⟨_, k, hturn, hs, hd, hp⟩ := Conf.about_some habout
  cases hturn
  obtain ⟨payload, now, htag⟩ := (hc.guarded.following.about habout).claims _ _ rfl
  have hthen := hc.continuing i s hs hd
  rw [hp] at hthen
  have hreports := (hthen (s.view c₁.db)).1 _ payload now _ htag rfl
  -- The claim is the next action, and from then on the response is determined.
  simp only [Conf.run] at h₂
  obtain ⟨c', hstep, hafter⟩ := Option.bind_eq_some_iff.mp h₂
  obtain ⟨s', hs', hd', hp'⟩ := Conf.step_write _ hs hd hp hstep
  rw [← hp'] at hreports
  unfold dispatched at henv
  split at henv
  · rename_i r hr
    obtain ⟨s₂, hs₂, hr⟩ := Option.bind_eq_some_iff.mp hr
    exact Conf.returns_of_avoids hs' hd' hreports hafter hs₂ hr r rfl env henv
  · cases henv

/-- In every run of requests side by side, from a database without tasks, a task in the response
to a heartbeat was inserted by a session of the run.  Every session that inserted it is a
`create_task`, and the committed policy of the node permitted the task when this session read the
row; if no update of the node commits between this read and the claim, the policy at the claim
permits it. -/
theorem dispatched_task_was_permitted {before after : List (Act DispatchOp Exc)}
    {c₁ c₂ : DispatchConf} {i : Nat} {node : Node} {env : TaskEnvelope}
    (hdb : db.tasks.rows = [])
    (h₁ : (Conf.init db x).run (DispatchOp.code settings crypto) before = some c₁)
    (hnode : claimsFor c₁ i = some node)
    (h₂ : c₁.run (DispatchOp.code settings crypto) (.turn i :: after) = some c₂)
    (henv : env ∈ dispatched c₂ i) :
    (∃ j op read made found row, Creates settings crypto db x before j op read made found row ∧
      RowOf row env.taskId node.nodeId env.type env.workdir) ∧
    ∀ j op read made found row, Creates settings crypto db x before j op read made found row →
      RowOf row env.taskId node.nodeId env.type env.workdir →
        (∃ payload ctx, op = .createTask payload ctx) ∧
        (∃ node₀, found.db.nodes.get? node.nodeId = some node₀ ∧
          node₀.permits env.type env.workdir = true) ∧
        (Conf.Meets (DispatchOp.code settings crypto) (KeepsPolicy node.nodeId) found
            (before.drop read.length) →
          node.permits env.type env.workdir = true) := by
  have hc₁ := overseen_of_run hdb h₁
  unfold claimsFor at hnode
  split at hnode
  · rename_i nodeId claimedAt s habout
    have hid : node.nodeId = nodeId := Table.get?_key hnode
    subst hid
    obtain ⟨_, k, hturn, hs, -, -⟩ := Conf.about_some habout
    cases hturn
    constructor
    · obtain ⟨row, hrow, hrownode, rfl⟩ := hc₁.dispatched_row habout h₂ henv
      have hcreated := hc₁.created.view hs row hrow
      rwa [hrownode] at hcreated
    · intro j op read made found row hcreates hrow
      obtain ⟨hop, node₀, hget₀, hpermits⟩ := hcreates.permitted
      rw [hrow.nodeId] at hget₀
      rw [hrow.type, hrow.workdir] at hpermits
      refine ⟨hop, ⟨node₀, hget₀, hpermits⟩, fun hkeeps => ?_⟩
      obtain ⟨payload, now, htag⟩ := (hc₁.guarded.following.about habout).claims _ _ rfl
      have hupdates : s.tag.updates node.nodeId = false := by rw [htag]; rfl
      have hfound := (policyGuarded_init db x).run hcreates.looks.run
      have hpolicy := (hc₁.guarded.view hs hupdates).trans
        (hfound.policy_run (hcreates.run_drop h₁) hkeeps)
      exact (permits_of_policyOf hpolicy hnode hget₀ _ _).trans hpermits
  · cases hnode

end Runs

/-! ## Concrete runs -/

/-- A node that may run tasks in one directory. -/
def confinedNodeDb : Db where
  nodes := Table.empty.insert (fun id =>
    { id, nodeId := "n", displayName := "n", nodeSigningKey := none, encryptedSigningKey := none
      onboardingTokenEncrypted := none, onboardingTokenCreatedAt := none
      onboardingTokenExpiresAt := none, nodeType := .physical, osType := none, hostname := none
      heartbeatIntervalSec := 5, allowedWorkdirs := ["/a"], tags := [], allowShell := false
      allowModal := false, isEnabled := true, firstSeenAt := none, lastSeenAt := none
      lastRequestTs := none, lastBootId := none, createdAt := "", updatedAt := "" })
    fun _ => rfl

/-- Session `i` is started and takes `n` turns. -/
def turns (op : DispatchOp) (i n : Nat) : List (Act DispatchOp Exc) :=
  .spawn op :: List.replicate n (.turn i)

/-- A task in the directory. -/
def confinedTask : DispatchOp :=
  .createTask { nodeId := "n", type := .healthCheck, taskId := some "t", workdir := some "/a" }
    { admin := ⟨1, "admin"⟩, review := none, freshTaskId := "", freshKey := "", now := 0
      reviewedAt := 0 }

/-- The task is created. -/
def createConfined : List (Act DispatchOp Exc) := turns confinedTask 0 7

/-- The administrator gives the node another directory. -/
def moveNode : List (Act DispatchOp Exc) :=
  turns (.updateNode "n" { allowedWorkdirs := some ["/b"] } ⟨1, "admin"⟩ 0) 1 5

/-- A heartbeat up to its claim, as session `i`. -/
def beatUntilClaim (i : Nat) : List (Act DispatchOp Exc) :=
  turns (.heartbeat "n" { bootId := "b" } 0) i 4

/-- After `before` session `i` claims for a node, and responds with a task that `ok` says yes to. -/
def claimsWith (ok : Node → TaskEnvelope → Bool) (before : List (Act DispatchOp Exc)) (i : Nat) :
    Bool :=
  ((Conf.init confinedNodeDb {} : DispatchConf).run (DispatchOp.code {} plainCrypto) before).any
    fun c => (claimsFor c i).any fun node =>
      (c.run (DispatchOp.code {} plainCrypto) (.turn i :: List.replicate 6 (.turn i))).any fun c' =>
        (dispatched c' i).any (ok node)

theorem exists_of_claimsWith {ok : Node → TaskEnvelope → Bool} {before : List (Act DispatchOp Exc)}
    {i : Nat} (h : claimsWith ok before i = true) :
    ∃ c c' node env,
      (Conf.init confinedNodeDb {}).run (DispatchOp.code {} plainCrypto) before = some c ∧
        claimsFor c i = some node ∧
        c.run (DispatchOp.code {} plainCrypto) (.turn i :: List.replicate 6 (.turn i)) = some c' ∧
        env ∈ dispatched c' i ∧ ok node env = true := by
  obtain ⟨c, hc, h⟩ := (Option.any_eq_true ..).mp h
  obtain ⟨node, hnode, h⟩ := (Option.any_eq_true ..).mp h
  obtain ⟨c', hc', h⟩ := (Option.any_eq_true ..).mp h
  obtain ⟨env, henv, h⟩ := List.any_eq_true.mp h
  exact ⟨c, c', node, env, hc, hnode, hc', henv, h⟩

/-- The request to create the task has been started. -/
def confinedRequested : DispatchConf :=
  { (Conf.init confinedNodeDb {} : DispatchConf) with
    sessions := [Session.start confinedTask (confinedTask.code {} plainCrypto)] }

/-- It reads first, and inserts the task in its third turn. -/
theorem confinedTask_creates :
    ∃ row, Creates {} plainCrypto confinedNodeDb {} (createConfined ++ beatUntilClaim 1) 0
        confinedTask [.spawn confinedTask] [.spawn confinedTask, .turn 0, .turn 0]
        confinedRequested row ∧
      RowOf row "t" "n" .healthCheck (some "/a") := by
  refine ⟨_, ⟨⟨rfl, ⟨_, rfl, rfl, rfl⟩, _, _, rfl, rfl, rfl, rfl⟩, ⟨[.turn 0], rfl⟩,
    ⟨_, _, rfl, rfl⟩, ⟨_, rfl⟩⟩, ⟨rfl, rfl, rfl, rfl⟩⟩

/-- No update of the node, and the policy at the claim permits the task. -/
theorem dispatched_task_was_permitted_confined :
    ∃ c c' node env, (Conf.init confinedNodeDb {}).run (DispatchOp.code {} plainCrypto)
        (createConfined ++ beatUntilClaim 1) = some c ∧ claimsFor c 1 = some node ∧
      c.run (DispatchOp.code {} plainCrypto) (.turn 1 :: List.replicate 6 (.turn 1)) = some c' ∧
        env ∈ dispatched c' 1 ∧ node.permits env.type env.workdir = true := by
  have hclaims : claimsWith (fun node env => node.nodeId = "n" && env.taskId = "t" &&
      env.type = .healthCheck && env.workdir = some "/a") (createConfined ++ beatUntilClaim 1) 1 =
        true := by
    decide +kernel
  obtain ⟨c, c', node, env, hc, hnode, hc', henv, hfields⟩ := exists_of_claimsWith hclaims
  simp only [Bool.and_eq_true, decide_eq_true_eq] at hfields
  obtain ⟨⟨⟨hnodeId, htaskId⟩, htype⟩, hworkdir⟩ := hfields
  obtain ⟨row, hcreates, hrow⟩ := confinedTask_creates
  refine ⟨c, c', node, env, hc, hnode, hc', henv, ?_⟩
  refine ((dispatched_task_was_permitted rfl hc hnode hc' henv).2 _ _ _ _ _ row hcreates ?_).2.2 ?_
  · rwa [hnodeId, htaskId, htype, hworkdir]
  · rw [hnodeId]
    decide +kernel

/-- A task waits in the queue while its directory is taken from the node, and is sent. -/
theorem policy_changed_before_dispatch :
    ¬ ∀ (settings : Settings) (crypto : Crypto) (db : Db) (x : World)
      (before after : List (Act DispatchOp Exc)) (c₁ c₂ : DispatchConf) (i : Nat) (node : Node)
      (env : TaskEnvelope), db.tasks.rows = [] →
      (Conf.init db x).run (DispatchOp.code settings crypto) before = some c₁ →
      claimsFor c₁ i = some node →
      c₁.run (DispatchOp.code settings crypto) (.turn i :: after) = some c₂ →
      env ∈ dispatched c₂ i → node.permits env.type env.workdir = true := by
  intro h
  have hclaims : claimsWith (fun node env => !node.permits env.type env.workdir)
      (createConfined ++ moveNode ++ beatUntilClaim 2) 2 = true := by
    decide +kernel
  obtain ⟨c, c', node, env, hc, hnode, hc', henv, hno⟩ := exists_of_claimsWith hclaims
  rw [h {} plainCrypto _ {} _ _ c c' 2 node env rfl hc hnode hc' henv] at hno
  cases hno

end GpuFleet
