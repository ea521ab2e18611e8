import GpuFleet.Foundations.Triple
import GpuFleet.Server.NodeUpdates

/-!
# Who writes keys and tokens

Four statements write the key or the onboarding token of a node: the insertion
of the node, the update of a new secret, the renewal of a key under an outdated
secret, and the update of a heartbeat.  The rest of a heartbeat is `Quiet`.

A key that is renewed is the key that was found, so a heartbeat leaves the key
of every node as it is (`signedHeartbeat_leavesKeys`).
-/

namespace GpuFleet

open Foundations

/-! ## Effective keys -/

/-- The key the server finds in a row. -/
def effectiveKey (crypto : Crypto) (row : Node) : Option String :=
  (match row.encryptedSigningKey.filter (· ≠ "") with
    | none => row.nodeSigningKey
    | some encrypted => (crypto.decryptNodeSigningKey encrypted).map DecryptedNodeSigningKey.signingKey).filter
      (· ≠ "")

/-- The key the server finds for a node. -/
def keyOf (crypto : Crypto) (nodeId : String) (db : Db) : Option String :=
  (db.nodes.get? nodeId).bind (effectiveKey crypto)

/-- What is encrypted is decrypted again, as a key that needs no renewal. -/
def Crypto.Inverts (crypto : Crypto) : Prop :=
  ∀ random text encrypted, crypto.encryptNodeSigningKey random text = some encrypted →
    encrypted ≠ "" ∧ crypto.decryptNodeSigningKey encrypted = some ⟨text, false⟩

/-- The statement writes a key or an onboarding token. -/
def Dml.writesSecret : Dml → Bool
  | .node (.insert _) | .node (.touch ..) | .node (.setEncryptedKey ..) | .node (.setSecret ..) => true
  | _ => false

/-- The program writes neither keys nor onboarding tokens. -/
def Quiet {α : Type} (p : Tx α) : Prop :=
  p.Avoids (fun _ => True) (fun q => q.writesSecret = true) fun _ => True

section Quiet

variable {α β : Type}

theorem Quiet.bind {p : Tx α} {g : α → Tx β} (hp : Quiet p) (hg : ∀ a, Quiet (g a)) :
    Quiet (p >>= g) :=
  Prog.Avoids.bind hp fun a _ => hg a

theorem quiet_query {f : Db → α} : Quiet (Prog.query f) := fun _ _ => trivial

theorem quiet_execute {q : Dml} (h : q.writesSecret = false) : Quiet (Prog.execute q) :=
  ⟨by simp [h], fun _ _ => trivial⟩

theorem quiet_executeReturning {q : Dml} {f : Db → α} (h : q.writesSecret = false) :
    Quiet (Prog.executeReturning q f) :=
  ⟨by simp [h], fun _ _ => trivial⟩

theorem quiet_ofExcept {r : Except Exc α} : Quiet (ofExcept r) := by
  cases r <;> trivial

theorem storeRequest_quiet (settings : Settings) (nodeId timestamp nonce : String) (now : Nat) :
    Quiet (storeRequest settings nodeId timestamp nonce now) := by
  unfold storeRequest
  simp only
  split
  · trivial
  · refine (quiet_executeReturning rfl).bind fun duplicate => ?_
    split
    · trivial
    · refine (quiet_executeReturning rfl).bind fun rowcount => ?_
      split <;> trivial

theorem syncReportedActiveTask_quiet (nodeId : String) (activeTaskId : Option String)
    (claimedAt : String) : Quiet (syncReportedActiveTask nodeId activeTaskId claimedAt) := by
  unfold syncReportedActiveTask
  split
  · trivial
  · split
    · trivial
    · refine quiet_query.bind fun row => ?_
      split
      · trivial
      · split
        · exact (quiet_execute rfl).bind fun _ => quiet_query
        · trivial

/-- A heartbeat takes the lock, updates the node, and is quiet from there. -/
theorem heartbeat_quiet (keep : Nat) (nodeId : String) (node : Node) (payload : HeartbeatRequest)
    (now : Nat) :
    ∃ rest : Tx HeartbeatResponse, Quiet rest ∧
      heartbeat keep nodeId node payload now = (do
        Prog.execute .beginImmediate
        Prog.execute (.node (.touch nodeId ((payload.hostname.filter (· ≠ "")) <|> node.hostname)
          payload.heartbeatIntervalSec (utcNowIso now) payload.bootId))
        rest) := by
  refine ⟨_, ?_, rfl⟩
  refine (quiet_execute rfl).bind fun _ => ?_
  refine (syncReportedActiveTask_quiet ..).bind fun activeTaskRow => ?_
  cases activeTaskRow with
  | none =>
      refine (quiet_executeReturning rfl).bind fun _ => ?_
      refine quiet_query.bind fun _ => ?_
      exact (quiet_execute rfl).bind fun _ _ => trivial
  | some row =>
      refine quiet_query.bind fun _ => ?_
      exact (quiet_execute rfl).bind fun _ _ => trivial

end Quiet

/-! ## Statements and keys -/

section Keys

variable {crypto : Crypto} {db : Db}

/-- What a row shows of its keys: the columns, but of an encrypted key only whether there is one
and what it stands for. -/
def keyView (crypto : Crypto) (row : Node) : Nat × Option String × Bool × Option String :=
  (row.id, row.nodeSigningKey, row.encryptedSigningKey.any (· ≠ ""), effectiveKey crypto row)

/-- The keys of all nodes stay. -/
def SameKeys (crypto : Crypto) (db db' : Db) : Prop :=
  ∀ nodeId, (db'.nodes.get? nodeId).map (keyView crypto) =
    (db.nodes.get? nodeId).map (keyView crypto)

theorem SameKeys.trans {db' db'' : Db} (h : SameKeys crypto db db')
    (h' : SameKeys crypto db' db'') : SameKeys crypto db db'' :=
  fun nodeId => (h' nodeId).trans (h nodeId)

theorem SameKeys.keyOf {db' : Db} (h : SameKeys crypto db db') (nodeId : String) :
    keyOf crypto nodeId db' = keyOf crypto nodeId db := by
  have hkey : ∀ db : Db, GpuFleet.keyOf crypto nodeId db =
      ((db.nodes.get? nodeId).map (keyView crypto)).bind fun view => view.2.2.2 := by
    intro db
    rw [GpuFleet.keyOf]
    cases db.nodes.get? nodeId <;> rfl
  rw [hkey, hkey, h nodeId]

/-- An update whose rows keep their keys. -/
theorem sameKeys_node {q : NodeStmt} (hq : ∀ row, q ≠ .insert row)
    (h : ∀ row ∈ db.nodes.rows, q.selects row = true →
      keyView crypto (q.edit row) = keyView crypto row) :
    SameKeys crypto db (Statement.apply (Dml.node q) db) := by
  intro nodeId
  rw [apply_nodes_node, NodeStmt.get?_apply hq]
  cases hrow : db.nodes.get? nodeId with
  | none => rfl
  | some row =>
      rw [Option.map_some, Option.map_some, Option.map_some]
      split
      · exact congrArg some (h row (Table.get?_mem hrow) ‹_›)
      · rfl

theorem sameKeys_apply {q : Dml} (hq : q.writesSecret = false ∨ ∃ id hostname interval nowIso bootId,
    q = .node (.touch id hostname interval nowIso bootId)) :
    SameKeys crypto db (Statement.apply q db) := by
  by_cases hnode : ∃ n, q = .node n
  · obtain ⟨n, rfl⟩ := hnode
    cases n with
    | insert row | setEncryptedKey | setSecret => simp [Dml.writesSecret] at hq
    | touch | setRequestTs | setSettings | setEnabled =>
        exact sameKeys_node (by intro _ h; cases h) fun row _ _ => rfl
  · intro nodeId
    rw [apply_nodes db fun n e => hnode ⟨n, e⟩]

/-- The program executes only statements that leave the keys of all nodes. -/
def LeavesKeys {α : Type} (crypto : Crypto) (p : Tx α) (db : Db) : Prop :=
  p.wp (fun q w => SameKeys crypto w (Statement.apply q w)) (fun _ _ => True) (fun _ _ => True) db

theorem LeavesKeys.bind {α β : Type} {p : Tx α} {g : α → Tx β} (hp : LeavesKeys crypto p db)
    (hg : ∀ a w, LeavesKeys crypto (g a) w) : LeavesKeys crypto (p >>= g) db := by
  rw [LeavesKeys, Prog.wp_bind]
  exact Prog.wp_imp hp fun a w _ => hg a w

theorem Quiet.leavesKeys {α : Type} {p : Tx α} (hp : Quiet p) (db : Db) :
    LeavesKeys crypto p db :=
  hp.wp (fun q w hq => sameKeys_apply (Or.inl (by simpa using hq))) db

theorem LeavesKeys.sameKeys {α : Type} {p : Tx α} (hp : LeavesKeys crypto p db) (x : World) :
    SameKeys crypto db (p.dbAfter db x) :=
  Prog.wp.dbAfter x hp (fun _ _ hq hw => hw.trans hq) fun _ => rfl

/-- A key that is renewed stays the key. -/
theorem nodeSigningKey_leavesKeys (hcrypto : crypto.Inverts) {node : Node}
    (hnode : node ∈ db.nodes.rows) (nodeId random nowIso : String) :
    LeavesKeys crypto (nodeSigningKey crypto node nodeId random nowIso) db := by
  have hkey (key : String) (e : Exc) (w : Db) :
      LeavesKeys crypto (if key = "" then .raise e else pure key : Tx String) w := by
    split <;> trivial
  unfold nodeSigningKey
  cases hsome : node.encryptedSigningKey.filter (· ≠ "") with
  | none => exact hkey _ _ _
  | some encrypted =>
      cases hdec : crypto.decryptNodeSigningKey encrypted with
      | none =>
          simp only [hdec]
          trivial
      | some decrypted =>
          obtain ⟨signingKey, legacy⟩ := decrypted
          cases legacy with
          | false =>
              simp only [hdec]
              exact hkey _ _ _
          | true =>
              cases henc : crypto.encryptNodeSigningKey random signingKey with
              | none =>
                  simp only [hdec, henc, if_true]
                  trivial
              | some renewed =>
                  obtain ⟨hne, hback⟩ := hcrypto random signingKey renewed henc
                  simp only [hdec, henc, if_true, Prog.execute_bind, Prog.pure_eq, Prog.ret_bind]
                  refine ⟨?_, hkey _ _ _⟩
                  refine sameKeys_node (by intro _ h; cases h) fun row hrow hsel => ?_
                  obtain rfl := Table.eq_of_id hrow hnode (of_decide_eq_true hsel)
                  have hfilter : (some renewed).filter (· ≠ "") = some renewed := by
                    simp [hne]
                  obtain ⟨hstored, hstored'⟩ := Option.filter_eq_some_iff.mp hsome
                  simp only [keyView, effectiveKey, NodeStmt.edit, hsome, hdec, hfilter, hback]
                  simp [hstored, hne, of_decide_eq_true hstored']

theorem authenticateNode_leavesKeys (hcrypto : crypto.Inverts) (settings : Settings)
    (request : SignedRequest) (random : String) (now : Nat) :
    LeavesKeys crypto (authenticateNode settings crypto request random now) db := by
  unfold authenticateNode
  split
  · rename_i nodeId timestamp nonce signature _ _ _ _
    cases parseTimestamp timestamp with
    | error e => trivial
    | ok requestTime =>
        rw [ofExcept, Prog.ret_bind]
        generalize checkSkew settings now requestTime = skew
        cases skew with
        | error e => trivial
        | ok _ =>
            rw [ofExcept, Prog.ret_bind]
            simp only [Prog.query_bind]
            rw [LeavesKeys, Prog.wp_select]
            cases hrow : (db.nodes.get? nodeId).filter Node.isEnabled with
            | none => trivial
            | some node =>
                have hmem := Table.get?_mem (Option.filter_eq_some_iff.mp hrow).1
                refine (nodeSigningKey_leavesKeys hcrypto hmem nodeId random _).bind fun key w => ?_
                refine LeavesKeys.bind (quiet_ofExcept.leavesKeys w) fun valid w => ?_
                split
                · trivial
                · exact ((storeRequest_quiet settings ..).leavesKeys w).bind fun _ _ => trivial
  · trivial

/-- A heartbeat that comes with its signature leaves the keys of all nodes. -/
theorem signedHeartbeat_leavesKeys (hcrypto : crypto.Inverts) (settings : Settings)
    (nodeId : String) (request : SignedRequest) (random : String) (authenticatedAt : Nat)
    (payload : Option HeartbeatRequest) (now : Nat) :
    LeavesKeys crypto
      ((NodeOp.heartbeat request random authenticatedAt payload now).code settings crypto nodeId)
      db := by
  refine (authenticateNode_leavesKeys hcrypto settings _ random authenticatedAt).bind fun node w => ?_
  show LeavesKeys crypto _ w
  cases payload with
  | none => trivial
  | some payload =>
      obtain ⟨rest, hrest, hheartbeat⟩ :=
        heartbeat_quiet settings.maxStatusHistoryPerNode nodeId node payload now
      have hbegin : LeavesKeys crypto (Prog.execute .beginImmediate : Tx Unit) w :=
        (quiet_execute rfl).leavesKeys w
      have htouch : ∀ w, LeavesKeys crypto (Prog.execute (.node (.touch nodeId
          ((payload.hostname.filter (· ≠ "")) <|> node.hostname) payload.heartbeatIntervalSec
          (utcNowIso now) payload.bootId)) : Tx Unit) w :=
        fun w => ⟨sameKeys_apply (Or.inr ⟨_, _, _, _, _, rfl⟩), trivial⟩
      have hall : LeavesKeys crypto
          (heartbeat settings.maxStatusHistoryPerNode nodeId node payload now) w := by
        rw [hheartbeat]
        exact hbegin.bind fun _ w => (htouch w).bind fun _ w => hrest.leavesKeys w
      exact hall.bind fun _ _ => trivial

end Keys

end GpuFleet
