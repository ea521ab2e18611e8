import GpuFleet.Server.NodeRuntime

/-!
# Authentication of node requests

`authenticateNode` checks a signed request in one connection of its own: the
headers, the clock skew, the node and its key, the signature, the nonce and
last the order of the time stamps.  The texts of the time stamps are compared,
not the times.

The cryptographic functions are a parameter.  `random` stands for the bytes an
encryption draws.
-/

namespace GpuFleet

open Foundations

/-- The settings the modelled handlers read. -/
structure Settings where
  nodeAllowedClockSkewSec : Nat := 300
  nonceTtlSec : Nat := 120
  maxStatusHistoryPerNode : Nat := 200
  taskLogStreamMaxBytes : Nat := 100 * 1024 * 1024
  storageQuotaBytes : Nat := 5 * 1024 * 1024 * 1024
  maxArtifactBytes : Nat := 500 * 1024 * 1024
  taskLogRetentionDays : Nat := 30
  artifactRetentionDays : Nat := 30

/-- A decrypted signing key, and whether an outdated secret was needed. -/
structure DecryptedNodeSigningKey where
  signingKey : String
  legacy : Bool

/-- The cryptographic functions. -/
structure Crypto where
  /-- `hash_request_body` -/
  hashRequestBody : String → String
  /-- `sign_node_request` of a key, a node id, a time stamp, a nonce and a body hash. -/
  signNodeRequest : String → String → String → String → String → String
  /-- `derive_node_signing_key` -/
  deriveNodeSigningKey : String → String
  /-- `decrypt_node_signing_key_with_metadata`, or `none` for a `ValueError`. -/
  decryptNodeSigningKey : String → Option DecryptedNodeSigningKey
  /-- `encrypt_node_signing_key` with the bytes drawn, or `none` for a `ValueError`. -/
  encryptNodeSigningKey : String → String → Option String

/-- The headers and the body of a request of the node API. -/
structure SignedRequest where
  nodeId : Option String
  timestamp : Option String
  nonce : Option String
  signature : Option String
  body : String
  deriving DecidableEq

/-- An authentication error of status 401. -/
def unauthorized (code message : String) (details : List (String × Json) := []) : Exc :=
  .api { code, message, statusCode := 401, details }

/-- The text with every `Z` replaced by a zero offset. -/
def replaceZ (raw : String) : String :=
  String.ofList (raw.toList.flatMap fun c =>
    if c = 'Z' then ['+', '0', '0', ':', '0', '0'] else [c])

theorem replaceZ_utcNowIso {now : Nat} (h : now < Iso.maxMicros) :
    replaceZ (utcNowIso now) = utcNowIso now := by
  have hZ := Iso.not_Z_mem_isoChars (Iso.seconds_lt h)
  rw [replaceZ, utcNowIso, Iso.isoformat, String.toList_ofList]
  refine congrArg String.ofList ?_
  have hkeep : ∀ l : List Char, 'Z' ∉ l →
      (l.flatMap fun c => if c = 'Z' then ['+', '0', '0', ':', '0', '0'] else [c]) = l := by
    intro l
    induction l with
    | nil => exact fun _ => rfl
    | cons c l ih =>
        intro hl
        obtain ⟨hc, hl⟩ := not_or.mp (fun h => hl (List.mem_cons.mpr h))
        rw [List.flatMap_cons, ih hl, if_neg fun e => hc e.symm, List.singleton_append]
  exact hkeep _ hZ

/-- `parse_timestamp` -/
def parseTimestamp (raw : String) : Except Exc Int :=
  match Iso.fromisoformat (replaceZ raw) with
  | none =>
      .error (unauthorized "ERR_AUTH_INVALID_TIMESTAMP" "Invalid timestamp format"
        [("timestamp", .str raw)])
  | some d => toUtc (momentOf d)

/-- The check of the clock skew. -/
def checkSkew (settings : Settings) (now : Nat) (requestTime : Int) : Except Exc Unit :=
  let skew := ((now : Int) - requestTime).natAbs
  if settings.nodeAllowedClockSkewSec * 1000000 < skew then
    .error (unauthorized "ERR_AUTH_TIMESTAMP_SKEW" "Timestamp skew too large"
      [("skew_sec", .real (skew / 1000000)),
        ("allowed_skew_sec", .num settings.nodeAllowedClockSkewSec)])
  else .ok ()

/-- `verify_node_request_signature`; the comparison refuses texts that are not ASCII. -/
def verifyNodeRequestSignature (crypto : Crypto)
    (key nodeId timestamp nonce bodyHash signature : String) : Except Exc Bool :=
  if signature.toList.any fun c => 127 < c.toNat then .error .type
  else .ok (crypto.signNodeRequest key nodeId timestamp nonce bodyHash = signature)

/-- The signing key of a node.  A key under an outdated secret is encrypted anew. -/
def nodeSigningKey (crypto : Crypto) (node : Node) (nodeId random nowIso : String) :
    Tx String := do
  let unavailable := unauthorized "ERR_AUTH_SIGNING_KEY_UNAVAILABLE"
    "Node signing key unavailable" [("node_id", .str nodeId)]
  let key ←
    match node.encryptedSigningKey.filter (· ≠ "") with
    | none => pure (node.nodeSigningKey.getD "")
    | some encrypted =>
        match crypto.decryptNodeSigningKey encrypted with
        | none => .raise unavailable
        | some decrypted =>
            if decrypted.legacy then
              match crypto.encryptNodeSigningKey random decrypted.signingKey with
              | none => .raise unavailable
              | some renewed => do
                  Prog.execute (.node (.setEncryptedKey node.id renewed nowIso))
                  pure decrypted.signingKey
            else pure decrypted.signingKey
  if key = "" then .raise unavailable else pure key

/-- The last part of `authenticate_node`: the nonce and the time stamp are stored, unless
they were there before. -/
def storeRequest (settings : Settings) (nodeId timestamp nonce : String) (now : Nat) :
    Tx Unit := do
  let expires := now + settings.nonceTtlSec * 1000000
  if ¬ expires < Iso.maxMicros then .raise .overflow
  else
    let row : Nonce :=
      { id := 0, nodeId, nonce, timestampUtc := timestamp, expiresAt := utcNowIso expires }
    let duplicate ← Prog.executeReturning (.nonce (.insert row)) fun db =>
      (db.nonces.get? (nodeId, nonce)).isSome
    if duplicate then
      .raise (.api
        { code := "ERR_AUTH_NONCE_DUPLICATE"
          message := "Duplicate nonce"
          statusCode := 409
          details := [("node_id", .str nodeId), ("nonce", .str nonce)] })
    else
      let q := NodeStmt.setRequestTs nodeId timestamp (utcNowIso now)
      let rowcount ← Prog.executeReturning (.node q) fun db => q.rowcount db.nodes
      if rowcount ≠ 1 then
        .raise (.api
          { code := "ERR_AUTH_TIMESTAMP_REPLAY"
            message := "Timestamp must be strictly increasing"
            statusCode := 409
            details := [("node_id", .str nodeId), ("timestamp", .str timestamp)] })
      else pure ()

/-- `authenticate_node`: the row of the node, as it was found. -/
def authenticateNode (settings : Settings) (crypto : Crypto) (request : SignedRequest)
    (random : String) (now : Nat) : Tx Node :=
  match request.nodeId.filter (· ≠ ""), request.timestamp.filter (· ≠ ""),
    request.nonce.filter (· ≠ ""), request.signature.filter (· ≠ "") with
  | some nodeId, some timestamp, some nonce, some signature => do
      let requestTime ← ofExcept (parseTimestamp timestamp)
      let _ ← ofExcept (checkSkew settings now requestTime)
      let bodyHash := crypto.hashRequestBody request.body
      let node ← Prog.query fun db => (db.nodes.get? nodeId).filter Node.isEnabled
      match node with
      | none =>
          .raise (unauthorized "ERR_AUTH_NODE_NOT_FOUND_OR_DISABLED" "Node not found or disabled"
            [("node_id", .str nodeId)])
      | some node => do
          let key ← nodeSigningKey crypto node nodeId random (utcNowIso now)
          let valid ← ofExcept
            (verifyNodeRequestSignature crypto key nodeId timestamp nonce bodyHash signature)
          if !valid then
            .raise (unauthorized "ERR_AUTH_INVALID_SIGNATURE" "Invalid node signature"
              [("node_id", .str nodeId)])
          else
            storeRequest settings nodeId timestamp nonce now
            pure node
  | _, _, _, _ =>
      .raise (unauthorized "ERR_AUTH_MISSING_HEADERS" "Missing node authentication headers")

/-- The error that calls a request a replay of an earlier one. -/
def isTimestampReplay : Exc → Bool
  | .api e => e.code = "ERR_AUTH_TIMESTAMP_REPLAY"
  | _ => false

/-- `prune_expired_nonces` -/
def pruneExpiredNonces (nowIso : String) : Tx Unit := Prog.execute (.nonce (.prune nowIso))

/-! ## The agent's signature -/

/-- `build_headers` of the agent at a clock reading, with the nonce it draws.  The agent has its own
copies of the functions that derive the key, hash the body and sign; they are those of the server. -/
def buildHeaders (crypto : Crypto) (nodeId nodeSecret body nonce : String) (now : Nat) :
    SignedRequest :=
  let timestamp := utcNowIso now
  let signingKey := crypto.deriveNodeSigningKey nodeSecret
  { nodeId := some nodeId
    timestamp := some timestamp
    nonce := some nonce
    signature := some
      (crypto.signNodeRequest signingKey nodeId timestamp nonce (crypto.hashRequestBody body))
    body }

/-! ## Concrete data -/

/-- A text of the letters from `a` to `p`, one for each character. -/
def letters (s : String) : String :=
  String.ofList ('a' :: s.toList.map fun c => Char.ofNat (97 + c.toNat % 16))

/-- Cryptographic functions for concrete runs: nothing is hidden. -/
def plainCrypto : Crypto where
  hashRequestBody := letters
  signNodeRequest := fun key nodeId timestamp nonce hash =>
    letters (key ++ "|" ++ nodeId ++ "|" ++ timestamp ++ "|" ++ nonce ++ "|" ++ hash)
  deriveNodeSigningKey := id
  decryptNodeSigningKey := fun text => some ⟨text, false⟩
  encryptNodeSigningKey := fun _ text => some text

/-- A database with a node that sent no request yet. -/
def oneNodeDb : Db where
  nodes := Table.empty.insert (fun id =>
    { id, nodeId := "n", displayName := "n", nodeSigningKey := some "secret"
      encryptedSigningKey := none, onboardingTokenEncrypted := none
      onboardingTokenCreatedAt := none, onboardingTokenExpiresAt := none, nodeType := .physical
      osType := none, hostname := none, heartbeatIntervalSec := 5, allowedWorkdirs := [], tags := []
      allowShell := false, allowModal := false, isEnabled := true, firstSeenAt := none
      lastSeenAt := none, lastRequestTs := none, lastBootId := none, createdAt := ""
      updatedAt := "" })
    fun _ => rfl

end GpuFleet
