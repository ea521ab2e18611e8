import GpuFleet.Foundations.History
import GpuFleet.Server.AdminNodes
import Mathlib.Data.Fintype.Basic

/-!
# Updates of a node

Administrators change a node's settings and switch it on and off while the node
sends heartbeats, and the statements of these operations interleave.

An operation *names* some columns and gives each of them a value
(`NodeOp.gives`).  What its `UPDATE` sets is more: `update_node` sets every
settings column, the ones it does not name to what it read, and a heartbeat
without a host name sets the one that authentication read (`NodeStmt.sets`).
So an operation that names other columns takes back what was committed since it
read (`update_enables_node`).

No update is lost in the runs in which the columns that an `UPDATE` sets
without a name have not changed since the operation read them (`Fresh`): there
each column holds the value given last (`last_given_value`).
-/

namespace GpuFleet

open Foundations

/-! ## Columns -/

/-- The columns that the operations on a node name. -/
inductive NodeColumn where
  | displayName | osType | hostname | heartbeatIntervalSec | allowedWorkdirs | tags
  | isEnabled | allowShell | allowModal | lastSeenAt | lastBootId
  deriving DecidableEq, Repr

namespace NodeColumn

instance : Fintype NodeColumn where
  elems := {displayName, osType, hostname, heartbeatIntervalSec, allowedWorkdirs, tags, isEnabled,
    allowShell, allowModal, lastSeenAt, lastBootId}
  complete col := by cases col <;> decide

/-- The values of a column. -/
abbrev Value : NodeColumn → Type
  | displayName => String
  | osType | hostname | lastSeenAt | lastBootId => Option String
  | heartbeatIntervalSec => Nat
  | allowedWorkdirs | tags => List String
  | isEnabled | allowShell | allowModal => Bool

instance : (col : NodeColumn) → DecidableEq col.Value
  | displayName => inferInstanceAs (DecidableEq String)
  | osType | hostname | lastSeenAt | lastBootId => inferInstanceAs (DecidableEq (Option String))
  | heartbeatIntervalSec => inferInstanceAs (DecidableEq Nat)
  | allowedWorkdirs | tags => inferInstanceAs (DecidableEq (List String))
  | isEnabled | allowShell | allowModal => inferInstanceAs (DecidableEq Bool)

/-- The value in a row. -/
def get : (col : NodeColumn) → Node → col.Value
  | displayName => Node.displayName
  | osType => Node.osType
  | hostname => Node.hostname
  | heartbeatIntervalSec => Node.heartbeatIntervalSec
  | allowedWorkdirs => Node.allowedWorkdirs
  | tags => Node.tags
  | isEnabled => Node.isEnabled
  | allowShell => Node.allowShell
  | allowModal => Node.allowModal
  | lastSeenAt => Node.lastSeenAt
  | lastBootId => Node.lastBootId

/-- The value stored for a node. -/
def read (col : NodeColumn) (nodeId : String) (db : Db) : Option col.Value :=
  (db.nodes.get? nodeId).map col.get

end NodeColumn

/-- The columns an `UPDATE` sets. -/
def NodeStmt.sets : NodeStmt → NodeColumn → Bool
  | .insert _, _ => true
  | .touch .., col => col ∈ [.hostname, .heartbeatIntervalSec, .lastSeenAt, .lastBootId]
  | .setSettings .., col => col ∉ [.lastSeenAt, .lastBootId]
  | .setEnabled .., col => col = .isEnabled
  | .setRequestTs .., _ | .setEncryptedKey .., _ | .setSecret .., _ => false

/-- The columns of `nodes` a statement sets. -/
def Dml.sets : Dml → NodeColumn → Bool
  | .node q, col => q.sets col
  | _, _ => false

/-- An `UPDATE` leaves the columns it does not set. -/
theorem NodeStmt.get_edit {q : NodeStmt} {col : NodeColumn} (h : q.sets col = false) (row : Node) :
    col.get (q.edit row) = col.get row := by
  cases q with
  | insert _ | setRequestTs _ _ _ | setEncryptedKey _ _ _ | setSecret _ _ _ _ => cases col <;> rfl
  | touch _ _ _ _ _ | setSettings _ _ | setEnabled _ _ _ =>
      cases col <;> first | rfl | simp [sets] at h

/-- A statement leaves the columns it does not set. -/
theorem read_apply_of_not_sets {q : Dml} {col : NodeColumn} (h : q.sets col = false)
    (nodeId : String) (db : Db) : col.read nodeId (Statement.apply q db) = col.read nodeId db := by
  by_cases hq : ∃ n, q = .node n
  · obtain ⟨n, rfl⟩ := hq
    have hn : ∀ row, n ≠ .insert row := by
      rintro row rfl
      exact absurd h (by simp [Dml.sets, NodeStmt.sets])
    rw [NodeColumn.read, apply_nodes_node, NodeStmt.get?_apply hn, Option.map_map, NodeColumn.read]
    refine congrArg (Option.map · _) (funext fun row => ?_)
    rw [Function.comp]
    split
    · exact NodeStmt.get_edit h row
    · rfl
  · rw [NodeColumn.read, apply_nodes db fun n e => hq ⟨n, e⟩, NodeColumn.read]

/-! ## Operations -/

/-- The operations on a node.  A heartbeat comes with its body as it was validated, or `none`
when it was refused, and is authenticated before it reads the clock again. -/
inductive NodeOp where
  | update (payload : NodeUpdateRequest) (admin : Admin) (now : Nat)
  | setEnabled (enabled : Bool) (admin : Admin) (now : Nat)
  | heartbeat (request : SignedRequest) (random : String) (authenticatedAt : Nat)
      (payload : Option HeartbeatRequest) (now : Nat)

/-- The values an update of settings gives. -/
def NodeUpdateRequest.gives (p : NodeUpdateRequest) : (col : NodeColumn) → Option col.Value
  | .displayName => p.displayName
  | .osType => p.osType.map some
  | .hostname => p.hostname.map some
  | .heartbeatIntervalSec => p.heartbeatIntervalSec
  | .allowedWorkdirs => p.allowedWorkdirs
  | .tags => p.tags
  | .isEnabled => p.isEnabled
  | .allowShell => p.allowShell
  | .allowModal => p.allowModal
  | .lastSeenAt | .lastBootId => none

/-- The values a heartbeat gives. -/
def HeartbeatRequest.gives (p : HeartbeatRequest) (nowIso : String) :
    (col : NodeColumn) → Option col.Value
  | .hostname => (p.hostname.filter (· ≠ "")).map some
  | .heartbeatIntervalSec => some p.heartbeatIntervalSec
  | .lastSeenAt => some (some nowIso)
  | .lastBootId => some (some p.bootId)
  | .displayName | .osType | .allowedWorkdirs | .tags | .isEnabled | .allowShell | .allowModal =>
      none

/-- The values switching a node on or off gives. -/
def enabledGives (enabled : Bool) : (col : NodeColumn) → Option col.Value
  | .isEnabled => some enabled
  | .displayName | .osType | .hostname | .heartbeatIntervalSec | .allowedWorkdirs | .tags
  | .allowShell | .allowModal | .lastSeenAt | .lastBootId => none

/-- The value an operation gives a column, if it names it. -/
def NodeOp.gives : NodeOp → (col : NodeColumn) → Option col.Value
  | update payload _ _, col => payload.gives col
  | setEnabled enabled _ _, col => enabledGives enabled col
  | heartbeat _ _ _ (some payload) now, col => payload.gives (utcNowIso now) col
  | heartbeat _ _ _ none _, _ => none

section Code

variable (settings : Settings) (crypto : Crypto) (nodeId : String)

/-- The program of an operation. -/
def NodeOp.code : NodeOp → Tx Unit
  | update payload admin now => do
      let _ ← updateNode nodeId payload admin now
  | setEnabled enabled admin now => do
      let _ ← setNodeEnabled nodeId enabled admin now
  | heartbeat request random authenticatedAt payload now => do
      let node ← authenticateNode settings crypto { request with nodeId := some nodeId } random
        authenticatedAt
      reconnect
      match payload with
      | none =>
          .raise (.api
            { code := "ERR_VALIDATION_INVALID_PAYLOAD"
              message := "Invalid heartbeat payload"
              statusCode := 422 })
      | some payload => do
          let _ ← GpuFleet.heartbeat settings.maxStatusHistoryPerNode nodeId node payload now

end Code

/-- What an operation executes, when `first` is the database of its first statement: the
`UPDATE` of the columns it names, which takes the others from the row read first, and
statements that set no column. -/
inductive NodeOp.Executes (nodeId : String) : NodeOp → Db → Dml → Prop where
  | update {payload admin now first row} (h : first.nodes.get? nodeId = some row) :
      Executes nodeId (.update payload admin now) first
        (.node (.setSettings nodeId (payload.update row (utcNowIso now))))
  | setEnabled {enabled admin now first} :
      Executes nodeId (.setEnabled enabled admin now) first
        (.node (.setEnabled nodeId enabled (utcNowIso now)))
  | heartbeat {request random authenticatedAt payload now first row}
      (h : first.nodes.get? nodeId = some row) :
      Executes nodeId (.heartbeat request random authenticatedAt (some payload) now) first
        (.node (.touch nodeId ((payload.hostname.filter (· ≠ "")) <|> row.hostname)
          payload.heartbeatIntervalSec (utcNowIso now) payload.bootId))
  | aside {op first q} (h : ∀ col, q.sets col = false) : Executes nodeId op first q

/-- The statement stores rows of the status history. -/
def Dml.storesStatus : Dml → Bool
  | .snapshot (.insertMany _) => true
  | _ => false

/-- The statement sets no column of a node and stores no status. -/
def Dml.Incidental (q : Dml) : Prop := (∀ col, q.sets col = false) ∧ q.storesStatus = false

/-- The program executes incidental statements only. -/
def Incidental {α : Type} (p : Tx α) : Prop :=
  p.Avoids (fun _ => True) (fun q => ¬ q.Incidental) fun _ => True

section Incidental

variable {α β : Type}

theorem Incidental.bind {p : Tx α} {g : α → Tx β} (hp : Incidental p)
    (hg : ∀ a, Incidental (g a)) : Incidental (p >>= g) :=
  Prog.Avoids.bind hp fun a _ => hg a

theorem incidental_query {f : Db → α} : Incidental (Prog.query f) := fun _ _ => trivial

theorem incidental_execute {q : Dml} (h : q.Incidental) : Incidental (Prog.execute q) :=
  ⟨not_not.mpr h, fun _ _ => trivial⟩

theorem incidental_executeReturning {q : Dml} {f : Db → α} (h : q.Incidental) :
    Incidental (Prog.executeReturning q f) :=
  ⟨not_not.mpr h, fun _ _ => trivial⟩

theorem incidental_ofExcept {r : Except Exc α} : Incidental (ofExcept r) := by
  cases r <;> trivial

theorem findNode_incidental (nodeId : String) : Incidental (findNode nodeId) :=
  incidental_query.bind fun row => by cases row <;> trivial

theorem auditNode_incidental (admin : Admin) (action nodeId : String) (detail : Json)
    (nowIso : String) : Incidental (auditNode admin action nodeId detail nowIso) :=
  incidental_execute ⟨fun _ => rfl, rfl⟩

theorem nodeSigningKey_incidental (crypto : Crypto) (node : Node) (nodeId random nowIso : String) :
    Incidental (nodeSigningKey crypto node nodeId random nowIso) := by
  have hkey (key : String) (e : Exc) :
      Incidental (if key = "" then .raise e else pure key : Tx String) := by
    split <;> trivial
  unfold nodeSigningKey
  split
  · exact hkey _ _
  · split
    · trivial
    · split
      · split
        · trivial
        · exact (incidental_execute ⟨fun _ => rfl, rfl⟩).bind fun _ => hkey _ _
      · exact hkey _ _

theorem storeRequest_incidental (settings : Settings) (nodeId timestamp nonce : String)
    (now : Nat) : Incidental (storeRequest settings nodeId timestamp nonce now) := by
  unfold storeRequest
  simp only
  split
  · trivial
  · refine (incidental_executeReturning ⟨fun _ => rfl, rfl⟩).bind fun duplicate => ?_
    split
    · trivial
    · refine (incidental_executeReturning ⟨fun _ => rfl, rfl⟩).bind fun rowcount => ?_
      split <;> trivial

theorem syncReportedActiveTask_incidental (nodeId : String) (activeTaskId : Option String)
    (claimedAt : String) : Incidental (syncReportedActiveTask nodeId activeTaskId claimedAt) := by
  unfold syncReportedActiveTask
  split
  · trivial
  · split
    · trivial
    · refine incidental_query.bind fun row => ?_
      split
      · trivial
      · split
        · exact (incidental_execute ⟨fun _ => rfl, rfl⟩).bind fun _ => incidental_query
        · trivial

theorem authenticateNode_incidental (settings : Settings) (crypto : Crypto)
    (request : SignedRequest) (random : String) (now : Nat) :
    Incidental (authenticateNode settings crypto request random now) := by
  unfold authenticateNode
  split
  · generalize parseTimestamp _ = parsed, checkSkew settings now = skew
    refine incidental_ofExcept.bind fun requestTime => incidental_ofExcept.bind fun _ => ?_
    refine incidental_query.bind fun node => ?_
    cases node with
    | none => trivial
    | some node =>
        refine (nodeSigningKey_incidental crypto node _ random _).bind fun key => ?_
        refine incidental_ofExcept.bind fun valid => ?_
        split
        · trivial
        · exact (storeRequest_incidental settings ..).bind fun _ => trivial
  · trivial

/-- A heartbeat takes the lock, updates the node, stores the status, and does nothing but
incidental statements from there. -/
theorem heartbeat_split (keep : Nat) (nodeId : String) (node : Node) (payload : HeartbeatRequest)
    (now : Nat) :
    ∃ rest : Tx HeartbeatResponse, Incidental rest ∧
      heartbeat keep nodeId node payload now = (do
        Prog.execute .beginImmediate
        Prog.execute (.node (.touch nodeId ((payload.hostname.filter (· ≠ "")) <|> node.hostname)
          payload.heartbeatIntervalSec (utcNowIso now) payload.bootId))
        Prog.execute (.snapshot (.insertMany (buildSnapshotRows nodeId (utcNowIso now) payload)))
        rest) := by
  refine ⟨_, ?_, rfl⟩
  refine (syncReportedActiveTask_incidental ..).bind fun activeTaskRow => ?_
  cases activeTaskRow with
  | none =>
      refine (incidental_executeReturning ⟨fun _ => rfl, rfl⟩).bind fun _ => ?_
      refine incidental_query.bind fun _ => ?_
      exact (incidental_execute ⟨fun _ => rfl, rfl⟩).bind fun _ _ => trivial
  | some row =>
      refine incidental_query.bind fun _ => ?_
      exact (incidental_execute ⟨fun _ => rfl, rfl⟩).bind fun _ _ => trivial

end Incidental

/-! ## What an operation executes -/

section Follows

variable {nodeId : String} {op : NodeOp} {first : Db} {α β : Type}

/-- An incidental part of an operation, after the first read. -/
theorem Incidental.follows {p : Tx α} (hp : Incidental p) :
    p.Follows (op.Executes nodeId) (fun _ o => o = some first) (some first) := by
  have haside : ∀ s q, ¬ ¬ q.Incidental → op.Executes nodeId s q :=
    fun s q hq => .aside (not_not.mp hq).1
  exact (Prog.Follows.of_avoids hp haside first).mono fun _ _ ho => ho.2

/-- Such a part at the end of an operation. -/
theorem Incidental.follows_last {p : Tx α} (hp : Incidental p) :
    p.Follows (op.Executes nodeId) (fun _ _ => True) (some first) :=
  hp.follows.mono fun _ _ _ => trivial

theorem ofExcept_follows {r : Except Exc α} {o : Option Db} :
    (ofExcept r).Follows (op.Executes nodeId) (fun _ o' => o' = o) o := by
  cases r with
  | error e => trivial
  | ok a => rfl

/-- The row an operation reads first. -/
theorem findNode_follows :
    (findNode nodeId).Follows (op.Executes nodeId)
      (fun row o => ∃ first, o = some first ∧ first.nodes.get? nodeId = some row) none := by
  intro first
  simp only [Prog.bind]
  cases hrow : first.nodes.get? nodeId with
  | none => trivial
  | some row => exact ⟨first, rfl, hrow⟩

/-- Authentication returns the row it read first. -/
theorem authenticateNode_follows (settings : Settings) (crypto : Crypto) (request : SignedRequest)
    (random : String) (now : Nat) :
    (authenticateNode settings crypto { request with nodeId := some nodeId } random now).Follows
      (op.Executes nodeId)
      (fun row o => ∃ first, o = some first ∧ first.nodes.get? nodeId = some row) none := by
  unfold authenticateNode
  split
  · rename_i id timestamp nonce signature hid _ _ _
    obtain rfl : nodeId = id := Option.some.inj (Option.filter_eq_some_iff.mp hid).1
    generalize parseTimestamp timestamp = parsed, checkSkew settings now = skew
    refine ofExcept_follows.bind ?_
    rintro requestTime _ rfl
    refine ofExcept_follows.bind ?_
    rintro _ _ rfl
    intro first
    simp only [Prog.bind]
    cases hrow : (first.nodes.get? nodeId).filter Node.isEnabled with
    | none => trivial
    | some row =>
        have hget := (Option.filter_eq_some_iff.mp hrow).1
        refine (nodeSigningKey_incidental crypto row nodeId random _).follows.bind ?_
        rintro key _ rfl
        refine ofExcept_follows.bind ?_
        rintro valid _ rfl
        split
        · trivial
        · refine (storeRequest_incidental settings nodeId timestamp nonce now).follows.bind ?_
          rintro _ _ rfl
          exact ⟨first, rfl, hget⟩
  · trivial

/-- An operation on a node executes what `NodeOp.Executes` says. -/
theorem NodeOp.code_follows (settings : Settings) (crypto : Crypto) (op : NodeOp) :
    (op.code settings crypto nodeId).Follows (op.Executes nodeId) (fun _ _ => True) none := by
  cases op with
  | update payload admin now =>
      refine Prog.Follows.bind_ret ?_ _
      unfold updateNode
      split
      · trivial
      · refine findNode_follows.bind ?_
        rintro row _ ⟨first, rfl, hrow⟩
        refine (Prog.follows_execute (.update hrow)).bind ?_
        rintro _ _ rfl
        refine Incidental.follows_last ?_
        exact (auditNode_incidental ..).bind fun _ => findNode_incidental nodeId
  | setEnabled enabled admin now =>
      refine Prog.Follows.bind_ret ?_ _
      refine findNode_follows.bind ?_
      rintro row _ ⟨first, rfl, hrow⟩
      refine (Prog.follows_execute .setEnabled).bind ?_
      rintro _ _ rfl
      refine Incidental.follows_last ?_
      exact (auditNode_incidental ..).bind fun _ => findNode_incidental nodeId
  | heartbeat request random authenticatedAt payload now =>
      refine (authenticateNode_follows settings crypto request random authenticatedAt).bind ?_
      rintro row _ ⟨first, rfl, hrow⟩
      cases payload with
      | none => trivial
      | some payload =>
          show (GpuFleet.heartbeat settings.maxStatusHistoryPerNode nodeId row payload now >>=
            fun _ => pure ()).Follows _ _ _
          refine Prog.Follows.bind_ret ?_ _
          obtain ⟨rest, hrest, heq⟩ := heartbeat_split settings.maxStatusHistoryPerNode nodeId row
            payload now
          rw [heq]
          refine (Incidental.follows (incidental_execute ⟨fun _ => rfl, rfl⟩)).bind ?_
          rintro _ _ rfl
          refine (Prog.follows_execute (.heartbeat hrow)).bind ?_
          rintro _ _ rfl
          refine (Prog.follows_execute (.aside fun _ => rfl)).bind ?_
          rintro _ _ rfl
          exact hrest.follows_last

end Follows

/-! ## Runs -/

/-- A configuration of operations on one node. -/
abbrev NodeConf := Conf NodeOp Dml Db World Exc Unit

/-- The columns that an `UPDATE` sets without a name have not changed since the operation read
them. -/
def Fresh (nodeId : String) (c : NodeConf) (a : Act NodeOp Exc) : Prop :=
  ∀ q s, c.about a = some (q, s) → ∀ col : NodeColumn, q.sets col = true → s.tag.gives col = none →
    col.read nodeId (s.seen.getD (s.view c.db)) = col.read nodeId (s.view c.db)

instance (nodeId : String) (c : NodeConf) (a : Act NodeOp Exc) : Decidable (Fresh nodeId c a) :=
  match h : c.about a with
  | none => isTrue fun q s hq => by rw [h] at hq; cases hq
  | some (q, s) =>
      have : ∀ col : NodeColumn, Decidable (q.sets col = true → s.tag.gives col = none →
          col.read nodeId (s.seen.getD (s.view c.db)) = col.read nodeId (s.view c.db)) :=
        fun col => match s.tag.gives col with
          | none => decidable_of_iff (q.sets col = true →
              col.read nodeId (s.seen.getD (s.view c.db)) = col.read nodeId (s.view c.db))
              ⟨fun h hq _ => h hq, fun h hq => h hq rfl⟩
          | some _ => isTrue nofun
      decidable_of_iff _
        ⟨fun hall q' s' hq => by rw [h] at hq; cases hq; exact hall, fun hall => hall q s h⟩

/-- What an operation gives a column with a statement: the value, when the statement sets the
column and the operation names it. -/
def given (col : NodeColumn) (e : NodeOp × Dml) : Option col.Value :=
  if e.2.sets col then e.1.gives col else none

/-- A value for a column that may be null, where null stands for no value. -/
theorem orElse_eq_getD {α : Type} (a b : Option α) : (a <|> b) = (a.map some).getD b := by
  cases a <;> rfl

/-- The settings after an update. -/
theorem NodeUpdateRequest.get_update (p : NodeUpdateRequest) (row : Node) (nowIso : String)
    (col : NodeColumn) : col.get (p.update row nowIso) = (p.gives col).getD (col.get row) := by
  cases col with
  | osType | hostname => exact orElse_eq_getD _ _
  | _ => rfl

/-- The update of the settings stores the columns it sets. -/
theorem NodeStmt.get_setSettings {nodeId : String} {values : Node} {col : NodeColumn}
    (h : (setSettings nodeId values).sets col = true) (row : Node) :
    col.get ((setSettings nodeId values).edit row) = col.get values := by
  cases col with
  | lastSeenAt | lastBootId => cases h
  | _ => rfl

/-- The update of a heartbeat stores what it gives, and the host name read first. -/
theorem NodeStmt.get_touch {nodeId nowIso : String} {payload : HeartbeatRequest} {first : Node}
    {col : NodeColumn}
    (h : (touch nodeId ((payload.hostname.filter (· ≠ "")) <|> first.hostname)
      payload.heartbeatIntervalSec nowIso payload.bootId).sets col = true) (row : Node) :
    col.get ((touch nodeId ((payload.hostname.filter (· ≠ "")) <|> first.hostname)
        payload.heartbeatIntervalSec nowIso payload.bootId).edit row) =
      (payload.gives nowIso col).getD (col.get first) := by
  cases col with
  | hostname => exact orElse_eq_getD _ _
  | heartbeatIntervalSec | lastSeenAt | lastBootId => rfl
  | _ => cases h

/-- An `UPDATE` leaves in each column it sets what its operation gives, when the columns it sets
without a name are as they were read first. -/
theorem NodeOp.Executes.get_edit {nodeId : String} {op : NodeOp} {first : Db} {n : NodeStmt}
    (h : op.Executes nodeId first (.node n)) {col : NodeColumn} (hsets : n.sets col = true)
    {row : Node}
    (hfresh : op.gives col = none → col.read nodeId first = some (col.get row)) :
    col.get (n.edit row) = (op.gives col).getD (col.get row) := by
  -- What is stored is given, or was read first.
  have keep {r : Node} (hr : first.nodes.get? nodeId = some r) :
      (op.gives col).getD (col.get r) = (op.gives col).getD (col.get row) := by
    cases hgives : op.gives col with
    | some v => rfl
    | none =>
        have := hfresh hgives
        rw [NodeColumn.read, hr, Option.map_some] at this
        exact Option.some.inj this
  cases h with
  | aside h => rw [show n.sets col = false from h col] at hsets; cases hsets
  | update hrow =>
      rw [NodeStmt.get_setSettings hsets, NodeUpdateRequest.get_update]
      exact keep hrow
  | setEnabled =>
      cases col with
      | isEnabled => rfl
      | _ => cases hsets
  | heartbeat hrow =>
      rw [NodeStmt.get_touch hsets]
      exact keep hrow

/-- An operation sets columns of its own node only. -/
theorem NodeOp.Executes.selects {nodeId : String} {op : NodeOp} {first : Db} {n : NodeStmt}
    (h : op.Executes nodeId first (.node n)) {col : NodeColumn} (hsets : n.sets col = true) :
    (∀ row, n ≠ .insert row) ∧ ∀ row, row.nodeId = nodeId → n.selects row = true := by
  cases h with
  | aside h => rw [show n.sets col = false from h col] at hsets; cases hsets
  | _ => exact ⟨(by intro _ h; cases h), fun row hid => decide_eq_true hid⟩

/-- Every statement leaves in a column what its operation gives with it, when the columns it sets
without a name are as they were read first. -/
theorem NodeOp.Executes.read_apply {nodeId : String} {op : NodeOp} {first db : Db} {q : Dml}
    (h : op.Executes nodeId first q) {col : NodeColumn}
    (hfresh : q.sets col = true → op.gives col = none →
      col.read nodeId first = col.read nodeId db) :
    col.read nodeId (Statement.apply q db) =
      (col.read nodeId db).map fun v => (given col (op, q)).getD v := by
  cases hsets : q.sets col with
  | false =>
      rw [read_apply_of_not_sets hsets, given, hsets]
      simp
  | true =>
      rw [given, if_pos (show (op, q).2.sets col = true from hsets)]
      by_cases hq : ∃ n, q = .node n
      · obtain ⟨n, rfl⟩ := hq
        obtain ⟨hn, hsel⟩ := h.selects hsets
        rw [NodeColumn.read, apply_nodes_node, NodeStmt.get?_apply hn, NodeColumn.read]
        cases hrow : db.nodes.get? nodeId with
        | none => rfl
        | some row =>
            have hid : row.nodeId = nodeId := Table.get?_key hrow
            rw [Option.map_some, Option.map_some, Option.map_some, if_pos (hsel row hid)]
            refine congrArg some (h.get_edit hsets fun hgives => ?_)
            rw [hfresh hsets hgives, NodeColumn.read, hrow, Option.map_some]
      · cases q with
        | node n => exact absurd ⟨n, rfl⟩ hq
        | _ => cases hsets

/-! ## The value given last -/

section LastValue

variable {settings : Settings} {crypto : Crypto} {nodeId : String}

/-- The value given last by a committed operation that names the column, or else the first. -/
def lastGiven (col : NodeColumn) (committed : List (NodeOp × Dml)) (v : col.Value) : col.Value :=
  (committed.filterMap (given col)).getLast?.getD v

/-- In every run in which the columns that updates set without a name are fresh, each column
holds the value given last. -/
theorem last_given_value {db : Db} {x : World} {as : List (Act NodeOp Exc)} {c : NodeConf}
    (hm : Conf.Meets (NodeOp.code settings crypto nodeId) (Fresh nodeId) (Conf.init db x) as)
    (h : (Conf.init db x : NodeConf).run (NodeOp.code settings crypto nodeId) as = some c)
    (col : NodeColumn) :
    col.read nodeId c.db = (col.read nodeId db).map
      (lastGiven col ((Conf.init db x).history (NodeOp.code settings crypto nodeId) {} as).committed) := by
  have hrecorded : Conf.Recorded (col.read nodeId) (fun e => Option.map (given col e).getD)
      (col.read nodeId db) c
      ((Conf.init db x).history (NodeOp.code settings crypto nodeId) {} as) := by
    refine Conf.Recorded.run _ (I := Conf.Following (NodeOp.Executes nodeId)) ?_ ?_ h hm
      (Conf.exclusive_init db x) (Conf.attributed_init db x) (Conf.following_init db x)
      (Conf.recorded_init db x)
    · intro c a c' hc hstep
      exact hc.step (fun op => op.code_follows settings crypto) hstep
    · intro c a q s hc hfresh habout
      exact (hc.about habout).read_apply (hfresh q s habout col)
  rw [hrecorded.db, replay_map]
  exact congrArg (Option.map · _) (funext fun v => replay_last ..)

end LastValue

/-! ## Concrete data -/

/-- A new name for the node. -/
def rename : NodeOp := .update { displayName := some "new" } ⟨1, "a"⟩ 0

/-- The node is switched off. -/
def switchOff : NodeOp := .setEnabled false ⟨2, "b"⟩ 0

/-- A node that is renamed after it was switched off stays off. -/
theorem last_given_value_inTurn :
    ∃ c : NodeConf, (Conf.init oneNodeDb {}).run (NodeOp.code {} plainCrypto "n")
        (.spawn switchOff :: List.replicate 5 (.turn 0) ++
          .spawn rename :: List.replicate 5 (.turn 1)) = some c ∧
      NodeColumn.isEnabled.read "n" c.db = some false := by
  have hruns : ((Conf.init oneNodeDb {} : NodeConf).run (NodeOp.code {} plainCrypto "n")
      (.spawn switchOff :: List.replicate 5 (.turn 0) ++
        .spawn rename :: List.replicate 5 (.turn 1))).isSome = true := by
    decide +kernel
  obtain ⟨c, hc⟩ := Option.isSome_iff_exists.mp hruns
  refine ⟨c, hc, ?_⟩
  rw [last_given_value (by decide +kernel) hc .isEnabled]
  decide +kernel

/-- An update of the name that has read the row when the node is switched off switches it on
again. -/
theorem update_enables_node :
    ¬ ∀ (settings : Settings) (crypto : Crypto) (nodeId : String) (db : Db) (x : World)
      (as : List (Act NodeOp Exc)) (c : NodeConf),
      (Conf.init db x : NodeConf).run (NodeOp.code settings crypto nodeId) as = some c →
        c.Returned → ∀ col : NodeColumn, col.read nodeId c.db = (col.read nodeId db).map
          (lastGiven col ((Conf.init db x).history (NodeOp.code settings crypto nodeId) {} as).committed) := by
  intro h
  have hruns : ((Conf.init oneNodeDb {} : NodeConf).run (NodeOp.code {} plainCrypto "n")
      (.spawn rename :: .turn 0 :: .spawn switchOff :: List.replicate 5 (.turn 1) ++
        List.replicate 4 (.turn 0))).any
          (fun c => decide (c.Returned ∧ NodeColumn.isEnabled.read "n" c.db = some true)) = true := by
    decide +kernel
  obtain ⟨c, hc, hend⟩ := (Option.any_eq_true ..).mp hruns
  obtain ⟨hreturned, hon⟩ := of_decide_eq_true hend
  have hlast := h {} plainCrypto "n" oneNodeDb {} _ c hc hreturned .isEnabled
  rw [hon] at hlast
  exact absurd hlast (by decide +kernel)

end GpuFleet
