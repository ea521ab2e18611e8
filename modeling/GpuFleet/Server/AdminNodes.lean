import GpuFleet.Server.AdminTasks
import GpuFleet.Server.Auth

/-!
# The administrator's node API

Creating a node, changing its settings, switching it on and off, and giving it
a new secret.  Responses are the row that is read back; the onboarding texts
built from it are left out.  The secret a handler generates is an argument.
-/

namespace GpuFleet

open Foundations

theorem noInterval_range : ∀ n ∈ (none : Option Nat), 3 ≤ n ∧ n ≤ 3600 := by decide

structure NodeCreateRequest where
  nodeId : String
  displayName : String
  nodeType : NodeType := .physical
  osType : Option String := none
  hostname : Option String := none
  heartbeatIntervalSec : Nat := 5
  allowedWorkdirs : List String := []
  tags : List String := []
  allowShell : Bool := false
  allowModal : Bool := false
  interval_ge : 3 ≤ heartbeatIntervalSec := by exact defaultInterval_ge
  interval_le : heartbeatIntervalSec ≤ 3600 := by exact defaultInterval_le

/-- The changes of a node's settings.  `none` leaves a setting alone. -/
structure NodeUpdateRequest where
  displayName : Option String := none
  osType : Option String := none
  hostname : Option String := none
  heartbeatIntervalSec : Option Nat := none
  allowedWorkdirs : Option (List String) := none
  tags : Option (List String) := none
  isEnabled : Option Bool := none
  allowShell : Option Bool := none
  allowModal : Option Bool := none
  interval_range : ∀ n ∈ heartbeatIntervalSec, 3 ≤ n ∧ n ≤ 3600 := by exact noInterval_range

/-- Nothing is changed. -/
def NodeUpdateRequest.isEmpty (p : NodeUpdateRequest) : Bool :=
  p.displayName.isNone && p.osType.isNone && p.hostname.isNone &&
    p.heartbeatIntervalSec.isNone && p.allowedWorkdirs.isNone && p.tags.isNone &&
    p.isEnabled.isNone && p.allowShell.isNone && p.allowModal.isNone

/-- The settings after the changes. -/
def NodeUpdateRequest.update (p : NodeUpdateRequest) (row : Node) (nowIso : String) : Node :=
  { row with
    displayName := p.displayName.getD row.displayName
    osType := p.osType <|> row.osType
    hostname := p.hostname <|> row.hostname
    heartbeatIntervalSec := p.heartbeatIntervalSec.getD row.heartbeatIntervalSec
    allowedWorkdirs := p.allowedWorkdirs.getD row.allowedWorkdirs
    tags := p.tags.getD row.tags
    isEnabled := p.isEnabled.getD row.isEnabled
    allowShell := p.allowShell.getD row.allowShell
    allowModal := p.allowModal.getD row.allowModal
    updatedAt := nowIso }

/-- A new secret of a node, with the bytes its two encryptions draw. -/
structure NewSecret where
  secret : String
  keyRandom : String
  tokenRandom : String

/-- The encrypted key and onboarding token of a new secret. -/
def NewSecret.encrypt (crypto : Crypto) (s : NewSecret) : Except Exc (String × String) :=
  match crypto.encryptNodeSigningKey s.keyRandom (crypto.deriveNodeSigningKey s.secret),
    crypto.encryptNodeSigningKey s.tokenRandom s.secret with
  | some key, some token => .ok (key, token)
  | _, _ => .error .value

/-- The error for a node that does not exist. -/
def nodeNotFound (nodeId : String) : Exc :=
  .api
    { code := "ERR_NODE_NOT_FOUND"
      message := "Node not found"
      statusCode := 404
      details := [("node_id", .str nodeId)] }

/-- The row of a node, or the error that there is none. -/
def findNode (nodeId : String) : Tx Node := do
  let row ← Prog.query fun db => db.nodes.get? nodeId
  match row with
  | none => .raise (nodeNotFound nodeId)
  | some row => pure row

/-- The audit row of an administrator's action on a node. -/
def auditNode (admin : Admin) (action nodeId : String) (detail : Json) (nowIso : String) :
    Tx Unit :=
  Prog.execute (.insertAudit
    { id := 0
      actorType := "admin"
      actorId := some (toString admin.id)
      action
      targetType := "node"
      targetId := some nodeId
      detail
      createdAt := nowIso })

/-- `create_node` -/
def createNode (crypto : Crypto) (payload : NodeCreateRequest) (secret : NewSecret)
    (admin : Admin) (now : Nat) : Tx Node := do
  let nowIso := utcNowIso now
  let (encryptedKey, encryptedToken) ← ofExcept (secret.encrypt crypto)
  let existing ← Prog.query fun db => (db.nodes.get? payload.nodeId).isSome
  if existing then
    .raise (.api
      { code := "ERR_NODE_DUPLICATE_ID"
        message := "node_id already exists"
        statusCode := 409
        details := [("node_id", .str payload.nodeId)] })
  else
    let row : Node :=
      { id := 0
        nodeId := payload.nodeId
        displayName := payload.displayName
        nodeSigningKey := some ""
        encryptedSigningKey := some encryptedKey
        onboardingTokenEncrypted := some encryptedToken
        onboardingTokenCreatedAt := some nowIso
        onboardingTokenExpiresAt := none
        nodeType := payload.nodeType
        osType := payload.osType
        hostname := payload.hostname
        heartbeatIntervalSec := payload.heartbeatIntervalSec
        allowedWorkdirs := payload.allowedWorkdirs
        tags := payload.tags
        allowShell := payload.allowShell
        allowModal := payload.allowModal
        isEnabled := true
        firstSeenAt := none
        lastSeenAt := none
        lastRequestTs := none
        lastBootId := none
        createdAt := nowIso
        updatedAt := nowIso }
    let conflict ← Prog.executeReturning (.node (.insert row)) fun db =>
      (db.nodes.get? payload.nodeId).isSome
    if conflict then .raise .integrity
    else
      auditNode admin "create_node" payload.nodeId (.obj [("node_id", .str payload.nodeId)]) nowIso
      findNode payload.nodeId

/-- `update_node` -/
def updateNode (nodeId : String) (payload : NodeUpdateRequest) (admin : Admin) (now : Nat) :
    Tx Node := do
  if payload.isEmpty then
    .raise (.api
      { code := "ERR_NODE_NO_CHANGES"
        message := "No changes provided"
        statusCode := 400
        details := [("node_id", .str nodeId)] })
  else
    let row ← findNode nodeId
    let nowIso := utcNowIso now
    Prog.execute (.node (.setSettings nodeId (payload.update row nowIso)))
    auditNode admin "update_node" nodeId (.obj []) nowIso
    findNode nodeId

/-- `set_node_enabled` -/
def setNodeEnabled (nodeId : String) (enabled : Bool) (admin : Admin) (now : Nat) : Tx Node := do
  let nowIso := utcNowIso now
  let _ ← findNode nodeId
  Prog.execute (.node (.setEnabled nodeId enabled nowIso))
  auditNode admin (if enabled then "enable_node" else "disable_node") nodeId
    (.obj [("enabled", .bool enabled)]) nowIso
  findNode nodeId

/-- The common part of `reset_node_secret` and `regenerate_node_onboarding`, which differ in
the audited action and in the response. -/
def renewSecret (crypto : Crypto) (action nodeId : String) (secret : NewSecret) (admin : Admin)
    (now : Nat) : Tx Node := do
  let nowIso := utcNowIso now
  let (encryptedKey, encryptedToken) ← ofExcept (secret.encrypt crypto)
  let _ ← findNode nodeId
  Prog.execute (.node (.setSecret nodeId encryptedKey encryptedToken nowIso))
  auditNode admin action nodeId (.obj []) nowIso
  findNode nodeId

/-- `reset_node_secret` -/
def resetNodeSecret (crypto : Crypto) (nodeId : String) (secret : NewSecret) (admin : Admin)
    (now : Nat) : Tx Node :=
  renewSecret crypto "reset_node_secret" nodeId secret admin now

/-- `regenerate_node_onboarding` -/
def regenerateNodeOnboarding (crypto : Crypto) (nodeId : String) (secret : NewSecret)
    (admin : Admin) (now : Nat) : Tx Node :=
  renewSecret crypto "regenerate_node_onboarding" nodeId secret admin now

/-- `get_latest_status`, with the row that the preview is decoded from. -/
def getLatestStatus (nodeId : String) : Tx Snapshot := do
  let row ← Prog.query fun db => firstBy Snapshot.before
    (db.snapshots.select fun row => row.nodeId = nodeId && row.hasMetadata)
  match row with
  | none =>
      .raise (.api
        { code := "ERR_NODE_STATUS_NOT_FOUND"
          message := "No status snapshot found"
          statusCode := 404
          details := [("node_id", .str nodeId)] })
  | some row => pure row

end GpuFleet
