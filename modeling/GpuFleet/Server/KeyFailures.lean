import GpuFleet.Server.ConnectionStatus
import GpuFleet.Server.Security

/-!
# Keys that cannot be read

Reading a stored key may fail: the text is not base64 or too short, its form is unknown,
no secret is set, a tag does not match, or the plain text is not UTF-8.  Both callers
catch a `ValueError` and answer without the key.

The tag of the old form is compared by the code, which raises a `ValueError` when it does
not match.  That of the current form is checked by AES-GCM, whose `InvalidTag` is none and
escapes.  So failures are reported exactly if AES-GCM does not refuse a well-formed text
(`failuresReported_iff`).
-/

namespace GpuFleet

open Foundations Base64

/-- What ends a request: an exception of the handlers, or an `InvalidTag`, which is answered as an
internal error. -/
inductive Interruption where
  | exc (e : Exc)
  | invalidTag

/-- The programs of the handlers, where an `InvalidTag` may escape. -/
abbrev KeyTx (α : Type) := Prog Dml Db World Interruption α

section Callers

variable (p : Primitives) (settings : KeySettings)

def signingKeyUnavailable (nodeId : String) : Exc :=
  unauthorized "ERR_AUTH_SIGNING_KEY_UNAVAILABLE" "Node signing key unavailable"
    [("node_id", .str nodeId)]

/-- `except ValueError` around a reading in `authenticate_node`. -/
def SecretError.inAuthentication (nodeId : String) : SecretError → Interruption
  | .value => .exc (signingKeyUnavailable nodeId)
  | .invalidTag => .invalidTag

/-- The part of `authenticate_node` that reads the key of a node. -/
def readSigningKey (node : Node) (nodeId random nowIso : String) : KeyTx String := do
  let key ←
    match node.encryptedSigningKey.filter (· ≠ "") with
    | none => pure (node.nodeSigningKey.getD "")
    | some encrypted =>
        match decryptNodeSigningKeyWithMetadata p settings encrypted with
        | .error e => .raise (e.inAuthentication nodeId)
        | .ok decrypted =>
            if decrypted.legacy then
              match encryptNodeSigningKey p settings (tokenBytes random) decrypted.signingKey with
              | .error e => .raise (e.inAuthentication nodeId)
              | .ok renewed => do
                  Prog.execute (.node (.setEncryptedKey node.id renewed nowIso))
                  pure decrypted.signingKey
            else pure decrypted.signingKey
  if key = "" then .raise (.exc (signingKeyUnavailable nodeId)) else pure key

inductive TokenStatus where
  | active | expired | consumed
  deriving DecidableEq

/-- `_token_status` -/
def tokenStatus (row : Node) (now : Nat) : Except Exc TokenStatus :=
  if (row.onboardingTokenEncrypted.filter (· ≠ "")).isNone then
    if orElse row.lastSeenAt "" ≠ "" ∨ orElse row.firstSeenAt "" ≠ "" then .ok .consumed
    else .ok .expired
  else do
    let tokenCreated ← parseIsoOrNone row.onboardingTokenCreatedAt
    let lastSeen ← parseIsoOrNone row.lastSeenAt
    if tokenCreated.any fun created => lastSeen.any fun seen => created < seen then .ok .consumed
    else
      let expiry ← parseIsoOrNone row.onboardingTokenExpiresAt
      if expiry.any fun expires => expires ≤ (now : Int) then .ok .expired else .ok .active

/-- What the onboarding view says of the token. -/
structure NodeOnboardingLifecycleResponse where
  token : Option String
  tokenExpiresAt : Option String
  tokenStatus : TokenStatus

/-- The token shown while it is active. -/
def activeToken (row : Node) (tokenOverride : Option String) :
    Except Interruption (Option String) :=
  match tokenOverride, row.onboardingTokenEncrypted.filter (· ≠ "") with
  | some token, _ => .ok (some token)
  | none, none => .ok none
  | none, some encrypted =>
      match decryptNodeSigningKeyWithMetadata p settings encrypted with
      | .ok decrypted => .ok (some decrypted.signingKey)
      | .error .value => .ok none
      | .error .invalidTag => .error .invalidTag

/-- `_build_onboarding_lifecycle_response` -/
def buildOnboardingLifecycleResponse (row : Node) (tokenOverride : Option String) (now : Nat) :
    Except Interruption NodeOnboardingLifecycleResponse := do
  let status ← (tokenStatus row now).mapError Interruption.exc
  let token ← if status = .active then activeToken p settings row tokenOverride else .ok none
  pure { token, tokenExpiresAt := row.onboardingTokenExpiresAt, tokenStatus := status }

end Callers

/-! ## When AES-GCM refuses -/

variable {p : Primitives} {settings : KeySettings} {encrypted : String}

/-- AES-GCM refuses a text of the current form that is base64 and long enough. -/
def TagRefused (p : Primitives) (settings : KeySettings) (encrypted : String) : Prop :=
  isSet settings.nodeKeyEncryptionSecret = true ∧
    ∃ text raw, encrypted.toList = 'v' :: '2' :: ':' :: text ∧ decodeEnvelope text = .ok raw ∧
      28 ≤ raw.length ∧
        p.aesGcmDecrypt (deriveEncryptionKey p settings.nodeKeyEncryptionSecret) (raw.take 12)
          (raw.drop 12) envelopeLabel = none

theorem decodeText_ne_invalidTag (bytes : List Nat) : decodeText bytes ≠ .error .invalidTag := by
  rw [decodeText]
  cases utf8Decode? bytes <;> simp

theorem decodeEnvelope_ne_invalidTag (text : List Char) :
    decodeEnvelope text ≠ .error .invalidTag := by
  rw [decodeEnvelope]
  split
  · simp
  · cases urlsafeDecode text <;> simp

theorem openV1_ne_invalidTag (nonce ciphertext tag : List Nat) (secrets : List (String × Bool)) :
    openV1 p nonce ciphertext tag secrets ≠ .error .invalidTag := by
  induction secrets with
  | nil => simp [openV1]
  | cons secret later ih =>
      rw [openV1]
      split
      · cases htext : decodeText (xorWithKeystream p ciphertext
          (deriveEncryptionKey p secret.1) nonce) with
        | ok key => simp [bind, Except.bind, pure, Except.pure]
        | error e =>
            intro h
            cases h
            exact decodeText_ne_invalidTag _ htext
      · exact ih

/-- What a text of the current form gives. -/
theorem decrypt_v2 {text : List Char} (htext : encrypted.toList = 'v' :: '2' :: ':' :: text) :
    decryptNodeSigningKeyWithMetadata p settings encrypted = .error .invalidTag ↔
      TagRefused p settings encrypted := by
  rw [decryptNodeSigningKeyWithMetadata, htext, TagRefused]
  simp only [htext, List.cons.injEq, true_and]
  cases hraw : decodeEnvelope text with
  | error e =>
      constructor
      · intro h
        cases h
        exact absurd hraw (decodeEnvelope_ne_invalidTag text)
      · rintro ⟨-, text', raw, rfl, hok, -⟩
        rw [hraw] at hok
        cases hok
  | ok raw =>
      simp only [bind, Except.bind, nodeEncryptionKey]
      by_cases hshort : raw.length < 28
      · rw [if_pos hshort]
        constructor
        · intro h
          cases h
        · rintro ⟨-, text', raw', rfl, hok, hlong, -⟩
          rw [hraw] at hok
          cases hok
          exact absurd hshort (Nat.not_lt.mpr hlong)
      · rw [if_neg hshort]
        by_cases hset : isSet settings.nodeKeyEncryptionSecret = true
        · rw [if_pos hset]
          simp only
          cases hopen : p.aesGcmDecrypt (deriveEncryptionKey p settings.nodeKeyEncryptionSecret)
              (raw.take 12) (raw.drop 12) envelopeLabel with
          | none => exact ⟨fun _ => ⟨hset, text, raw, rfl, hraw, Nat.le_of_not_lt hshort, hopen⟩,
              fun _ => rfl⟩
          | some plaintext =>
              constructor
              · intro h
                cases hkey : decodeText plaintext with
                | ok key =>
                    simp only [hkey] at h
                    cases h
                | error e =>
                    simp only [hkey] at h
                    cases h
                    exact absurd hkey (decodeText_ne_invalidTag plaintext)
              · rintro ⟨-, text', raw', rfl, hok, -, hrefused⟩
                rw [hraw] at hok
                cases hok
                rw [hopen] at hrefused
                cases hrefused
        · rw [if_neg hset]
          constructor
          · intro h
            cases h
          · exact fun h => absurd h.1 hset

/-- An `InvalidTag` escapes exactly if AES-GCM refuses. -/
theorem decrypt_invalidTag_iff :
    decryptNodeSigningKeyWithMetadata p settings encrypted = .error .invalidTag ↔
      TagRefused p settings encrypted := by
  by_cases hv2 : ∃ text, encrypted.toList = 'v' :: '2' :: ':' :: text
  · obtain ⟨text, htext⟩ := hv2
    exact decrypt_v2 htext
  · have hnot : ¬ TagRefused p settings encrypted := by
      rintro ⟨-, text, raw, htext, -⟩
      exact hv2 ⟨text, htext⟩
    refine ⟨fun h => ?_, fun h => absurd h hnot⟩
    rw [decryptNodeSigningKeyWithMetadata] at h
    split at h
    · next text htext => exact absurd ⟨text, htext⟩ hv2
    · next text htext =>
      cases hraw : decodeEnvelope text with
      | error e =>
          simp only [hraw, bind, Except.bind] at h
          cases h
          exact absurd hraw (decodeEnvelope_ne_invalidTag text)
      | ok raw =>
          simp only [hraw, bind, Except.bind] at h
          split at h
          · cases h
          · exact absurd h (openV1_ne_invalidTag _ _ _ _)
    · cases h

/-! ## What the callers answer -/

/-- Reading a stored text gives the key or a `ValueError`.  When it fails, the authentication
answers its error, and the onboarding view shows no token. -/
structure FailuresReported (p : Primitives) (settings : KeySettings) (encrypted : String) :
    Prop where
  reading : (∃ key, decryptNodeSigningKeyWithMetadata p settings encrypted = .ok key) ∨
    decryptNodeSigningKeyWithMetadata p settings encrypted = .error .value
  authentication : ∀ (node : Node) (nodeId random nowIso : String),
    node.encryptedSigningKey = some encrypted → encrypted ≠ "" →
      (∀ key, decryptNodeSigningKeyWithMetadata p settings encrypted ≠ .ok key) →
        readSigningKey p settings node nodeId random nowIso =
          .raise (.exc (signingKeyUnavailable nodeId))
  onboarding : ∀ (row : Node) (now : Nat), row.onboardingTokenEncrypted = some encrypted →
    tokenStatus row now = .ok .active →
      (∀ key, decryptNodeSigningKeyWithMetadata p settings encrypted ≠ .ok key) →
        buildOnboardingLifecycleResponse p settings row none now =
          .ok ⟨none, row.onboardingTokenExpiresAt, .active⟩

/-- After a `ValueError` the authentication answers its error. -/
theorem readSigningKey_of_value {node : Node} {nodeId random nowIso : String}
    (hnode : node.encryptedSigningKey = some encrypted) (hne : encrypted ≠ "")
    (h : decryptNodeSigningKeyWithMetadata p settings encrypted = .error .value) :
    readSigningKey p settings node nodeId random nowIso =
      .raise (.exc (signingKeyUnavailable nodeId)) := by
  have hfilter : node.encryptedSigningKey.filter (· ≠ "") = some encrypted := by
    simp [hnode, Option.filter, hne]
  rw [readSigningKey, hfilter]
  simp only [h]
  rfl

/-- After a `ValueError` the view shows no token. -/
theorem activeToken_of_value {row : Node} (hrow : row.onboardingTokenEncrypted = some encrypted)
    (h : decryptNodeSigningKeyWithMetadata p settings encrypted = .error .value) :
    activeToken p settings row none = .ok none := by
  by_cases hne : encrypted = ""
  · simp [activeToken, hrow, hne, Option.filter]
  · simp [activeToken, hrow, hne, h, Option.filter]

/-- Failures are reported if and only if AES-GCM does not refuse a well-formed text. -/
theorem failuresReported_iff (p : Primitives) (settings : KeySettings) (encrypted : String) :
    FailuresReported p settings encrypted ↔ ¬ TagRefused p settings encrypted := by
  rw [← decrypt_invalidTag_iff]
  constructor
  · intro h hinvalid
    rcases h.reading with ⟨key, hkey⟩ | hvalue
    · rw [hinvalid] at hkey
      cases hkey
    · rw [hinvalid] at hvalue
      cases hvalue
  · intro hvalid
    have hreading : (∃ key, decryptNodeSigningKeyWithMetadata p settings encrypted = .ok key) ∨
        decryptNodeSigningKeyWithMetadata p settings encrypted = .error .value := by
      cases hdecrypt : decryptNodeSigningKeyWithMetadata p settings encrypted with
      | ok key => exact Or.inl ⟨key, rfl⟩
      | error e =>
          cases e with
          | value => exact Or.inr rfl
          | invalidTag => exact absurd hdecrypt hvalid
    have hfailed : (∀ key, decryptNodeSigningKeyWithMetadata p settings encrypted ≠ .ok key) →
        decryptNodeSigningKeyWithMetadata p settings encrypted = .error .value := by
      intro hnone
      exact hreading.resolve_left fun hkey => hnone hkey.choose hkey.choose_spec
    constructor
    · exact hreading
    · intro node nodeId random nowIso hnode hne hnone
      exact readSigningKey_of_value hnode hne (hfailed hnone)
    · intro row now hrow hactive hnone
      rw [buildOnboardingLifecycleResponse, hactive]
      show (activeToken p settings row none >>= _) = _
      rw [activeToken_of_value hrow (hfailed hnone)]
      rfl

/-- A cipher whose tag is sixteen zeros. -/
def zeroTag : Primitives where
  sha256 _ := List.replicate 32 0
  hmacSha256 _ _ := List.replicate 32 0
  aesGcmEncrypt _ _ text _ := text ++ List.replicate 16 0
  aesGcmDecrypt _ _ sealedText _ :=
    if sealedText.drop (sealedText.length - 16) = List.replicate 16 0 then
      some (sealedText.take (sealedText.length - 16))
    else none

/-- A stored key whose tag was changed. -/
def tamperedKey : String :=
  String.ofList ('v' :: '2' :: ':' :: urlsafeEncode (List.replicate 28 1))

theorem tamperedKey_escapes :
    ¬ FailuresReported zeroTag ⟨"secret", "jwt", true⟩ tamperedKey := by
  intro h
  have hraw : decodeEnvelope (urlsafeEncode (List.replicate 28 1)) = .ok (List.replicate 28 1) :=
    decodeEnvelope_urlsafeEncode (by decide)
  have hinvalid : decryptNodeSigningKeyWithMetadata zeroTag ⟨"secret", "jwt", true⟩ tamperedKey =
      .error .invalidTag := by
    refine decrypt_invalidTag_iff.mpr ⟨by decide, _, _, String.toList_ofList, hraw, by decide, ?_⟩
    decide
  rcases h.reading with ⟨key, hkey⟩ | hvalue
  · rw [hinvalid] at hkey
    cases hkey
  · rw [hinvalid] at hvalue
    cases hvalue

end GpuFleet
