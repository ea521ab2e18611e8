import GpuFleet.Foundations.Base64
import GpuFleet.Server.Auth

/-!
# Stored keys

A signing key is stored under a secret of the server, in one of two forms.  The
text of the current form begins with `v2:` and is sealed with AES-GCM; the text
of the old form begins with `v1:` and may be under the secret of the tokens,
which is then noted, so that the key can be sealed anew.

The primitives are a parameter.  Of AES-GCM it is assumed that it opens what it
sealed (`Primitives.Sound`), and then the current form is opened again
(`decryptNodeSigningKey_encrypt`).
-/

namespace GpuFleet

open Foundations Base64

/-- The primitives of `hashlib`, `hmac` and `cryptography`. -/
structure Primitives where
  sha256 : (message : List Nat) → List Nat
  hmacSha256 : (key message : List Nat) → List Nat
  aesGcmEncrypt : (key nonce text associated : List Nat) → List Nat
  /-- `none` stands for an `InvalidTag`. -/
  aesGcmDecrypt : (key nonce sealedText associated : List Nat) → Option (List Nat)

/-- What is known of the primitives: the length of a digest, and that AES-GCM adds a tag of 16
bytes and opens what it sealed. -/
structure Primitives.Sound (p : Primitives) : Prop where
  digest : ∀ message, (p.sha256 message).length = 32
  tag : ∀ key nonce text associated, key.length = 32 → nonce.length = 12 →
    16 ≤ (p.aesGcmEncrypt key nonce text associated).length
  bytes : ∀ key nonce text associated, ∀ b ∈ p.aesGcmEncrypt key nonce text associated, b < 256
  opens : ∀ key nonce text associated, key.length = 32 → nonce.length = 12 →
    (∀ b ∈ text, b < 256) →
      p.aesGcmDecrypt key nonce (p.aesGcmEncrypt key nonce text associated) associated = some text

/-- The settings of stored keys. -/
structure KeySettings where
  nodeKeyEncryptionSecret : String
  jwtSecret : String
  nodeKeyV1FallbackEnabled : Bool

/-- What the functions raise: a `ValueError`, which covers texts that are not base64 or not UTF-8,
or an `InvalidTag`. -/
inductive SecretError where
  | value
  | invalidTag
  deriving DecidableEq

/-- `hexdigest` -/
def hexdigest (bytes : List Nat) : String :=
  String.ofList (bytes.flatMap fun b => [Nat.digitChar (b / 16 % 16), Nat.digitChar (b % 16)])

/-- The bytes of a text. -/
def bytesOf (text : String) : List Nat := utf8 text.toList

/-- `bytes.decode("utf-8")` -/
def decodeText (bytes : List Nat) : Except SecretError String :=
  match utf8Decode? bytes with
  | none => .error .value
  | some text => .ok (String.ofList text)

/-- A secret that is there. -/
def isSet (secret : String) : Bool := secret ≠ "" && secret ≠ "__NOT_SET__"

section Envelopes

variable (p : Primitives) (settings : KeySettings)

/-- `_derive_encryption_key` -/
def deriveEncryptionKey (secret : String) : List Nat := p.sha256 (bytesOf secret)

/-- `_node_encryption_key` -/
def nodeEncryptionKey : Except SecretError (List Nat) :=
  if isSet settings.nodeKeyEncryptionSecret then
    .ok (deriveEncryptionKey p settings.nodeKeyEncryptionSecret)
  else .error .value

/-- The big-endian bytes of a counter. -/
def counterBytes (counter : Nat) : List Nat :=
  [counter / 2 ^ 24 % 256, counter / 2 ^ 16 % 256, counter / 2 ^ 8 % 256, counter % 256]

/-- The loop of `_xor_with_keystream`; every round adds the bytes of a digest. -/
def extendKeystream (key nonce : List Nat) (length : Nat) :
    (fuel counter : Nat) → (output : List Nat) → List Nat
  | 0, _, output => output
  | fuel + 1, counter, output =>
      if output.length < length then
        extendKeystream key nonce length fuel (counter + 1)
          (output ++ p.hmacSha256 key (nonce ++ counterBytes counter))
      else output

/-- `_xor_with_keystream` -/
def xorWithKeystream (payload key nonce : List Nat) : List Nat :=
  payload.zipWith Nat.xor (extendKeystream p key nonce payload.length payload.length 0 [])

/-- The data that goes with a sealed key. -/
def envelopeLabel : List Nat := bytesOf "gpufleet-node-key-v2"

/-- `encrypt_node_signing_key` with the bytes drawn. -/
def encryptNodeSigningKey (nonce : List Nat) (signingKey : String) : Except SecretError String := do
  let key ← nodeEncryptionKey p settings
  let ciphertext := p.aesGcmEncrypt key nonce (bytesOf signingKey) envelopeLabel
  pure (String.ofList ('v' :: '2' :: ':' :: urlsafeEncode (nonce ++ ciphertext)))

/-- `urlsafe_b64decode` of a text that must be ASCII. -/
def decodeEnvelope (text : List Char) : Except SecretError (List Nat) :=
  if text.any fun c => 127 < c.toNat then .error .value
  else
    match urlsafeDecode text with
    | none => .error .value
    | some raw => .ok raw

/-- The loop of the old form over the secrets that may open it. -/
def openV1 (nonce ciphertext tag : List Nat) :
    List (String × Bool) → Except SecretError DecryptedNodeSigningKey
  | [] => .error .value
  | (secret, legacy) :: later =>
      let key := deriveEncryptionKey p secret
      if isSet secret ∧
          p.hmacSha256 key (bytesOf "gpufleet-node-key-v1" ++ nonce ++ ciphertext) = tag then do
        let signingKey ← decodeText (xorWithKeystream p ciphertext key nonce)
        pure { signingKey, legacy }
      else openV1 nonce ciphertext tag later

/-- The secrets that are tried on the old form, with whether they are outdated. -/
def secretsToTry : List (String × Bool) :=
  (settings.nodeKeyEncryptionSecret, false) ::
    if settings.nodeKeyV1FallbackEnabled ∧ settings.jwtSecret ≠ settings.nodeKeyEncryptionSecret then
      [(settings.jwtSecret, true)]
    else []

/-- `decrypt_node_signing_key_with_metadata` -/
def decryptNodeSigningKeyWithMetadata (encrypted : String) :
    Except SecretError DecryptedNodeSigningKey :=
  match encrypted.toList with
  | 'v' :: '2' :: ':' :: text => do
      let raw ← decodeEnvelope text
      if raw.length < 28 then .error .value
      else
        let key ← nodeEncryptionKey p settings
        match p.aesGcmDecrypt key (raw.take 12) (raw.drop 12) envelopeLabel with
        | none => .error .invalidTag
        | some plaintext => do
            let signingKey ← decodeText plaintext
            pure { signingKey, legacy := false }
  | 'v' :: '1' :: ':' :: text => do
      let raw ← decodeEnvelope text
      if raw.length < 48 then .error .value
      else
        let nonce := raw.take 16
        let tag := raw.drop (raw.length - 32)
        let ciphertext := (raw.take (raw.length - 32)).drop 16
        openV1 p nonce ciphertext tag (secretsToTry settings)
  | _ => .error .value

/-- The twelve bytes of a nonce, drawn from the randomness of a request. -/
def tokenBytes (random : String) : List Nat :=
  (List.range 12).map fun i => (random.toList.getD i 'a').toNat % 256

/-- The cryptographic functions of the server.  An `InvalidTag` ends a request as a `ValueError`
does, with another answer. -/
def Primitives.crypto : Crypto where
  hashRequestBody body := hexdigest (p.sha256 (bytesOf body))
  signNodeRequest key nodeId timestamp nonce bodyHash :=
    hexdigest (p.hmacSha256 (bytesOf key)
      (bytesOf ("\n".intercalate [nodeId, timestamp, nonce, bodyHash])))
  deriveNodeSigningKey secret := hexdigest (p.sha256 (bytesOf secret))
  decryptNodeSigningKey encrypted :=
    (decryptNodeSigningKeyWithMetadata p settings encrypted).toOption
  encryptNodeSigningKey random signingKey :=
    (encryptNodeSigningKey p settings (tokenBytes random) signingKey).toOption

end Envelopes

/-! ## Opening what was sealed -/

section Sound

variable {p : Primitives} {settings : KeySettings}

theorem length_tokenBytes (random : String) : (tokenBytes random).length = 12 := by
  simp [tokenBytes]

theorem tokenBytes_lt {random : String} {b : Nat} (hb : b ∈ tokenBytes random) : b < 256 := by
  obtain ⟨i, -, rfl⟩ := List.mem_map.mp hb
  exact Nat.mod_lt _ (by decide)

theorem decodeText_bytesOf (text : String) : decodeText (bytesOf text) = .ok text := by
  rw [decodeText, bytesOf, utf8Decode?_utf8]
  simp

/-- A text that encodes bytes is decoded to them. -/
theorem decodeEnvelope_urlsafeEncode {bytes : List Nat} (h : ∀ b ∈ bytes, b < 256) :
    decodeEnvelope (urlsafeEncode bytes) = .ok bytes := by
  have hascii : (urlsafeEncode bytes).any (fun c => 127 < c.toNat) = false := by
    rw [List.any_eq_false]
    intro c hc
    have := urlsafeEncode_ascii h hc
    simp
    omega
  rw [decodeEnvelope, if_neg (by simp [hascii]), urlsafeDecode_urlsafeEncode h]

/-- What is sealed is opened again, and not under an outdated secret. -/
theorem decryptNodeSigningKey_encrypt (h : p.Sound) {nonce : List Nat} (hlength : nonce.length = 12)
    (hnonce : ∀ b ∈ nonce, b < 256) {signingKey encrypted : String}
    (henc : encryptNodeSigningKey p settings nonce signingKey = .ok encrypted) :
    decryptNodeSigningKeyWithMetadata p settings encrypted = .ok ⟨signingKey, false⟩ := by
  rw [encryptNodeSigningKey, nodeEncryptionKey] at henc
  by_cases hset : isSet settings.nodeKeyEncryptionSecret = true
  · rw [if_pos hset] at henc
    have hkey := h.digest (bytesOf settings.nodeKeyEncryptionSecret)
    have htag := h.tag _ nonce (bytesOf signingKey) envelopeLabel hkey hlength
    have hopens := h.opens _ nonce (bytesOf signingKey) envelopeLabel hkey hlength fun b => utf8_lt
    have hbytes := h.bytes (p.sha256 (bytesOf settings.nodeKeyEncryptionSecret)) nonce
      (bytesOf signingKey) envelopeLabel
    obtain rfl := Except.ok.inj henc
    rw [deriveEncryptionKey]
    generalize p.aesGcmEncrypt (p.sha256 (bytesOf settings.nodeKeyEncryptionSecret)) nonce
      (bytesOf signingKey) envelopeLabel = ciphertext at *
    have hraw : ∀ b ∈ nonce ++ ciphertext, b < 256 := fun b hb =>
      (List.mem_append.mp hb).elim (hnonce b) (hbytes b)
    rw [decryptNodeSigningKeyWithMetadata, String.toList_ofList]
    simp only [decodeEnvelope_urlsafeEncode hraw]
    have hlong : ¬ (nonce ++ ciphertext).length < 28 := by
      rw [List.length_append]
      omega
    have htake : (nonce ++ ciphertext).take 12 = nonce := by
      rw [← hlength, List.take_left]
    have hdrop : (nonce ++ ciphertext).drop 12 = ciphertext := by
      rw [← hlength, List.drop_left]
    simp only [bind, Except.bind, pure, Except.pure, if_neg hlong, nodeEncryptionKey, if_pos hset, htake, hdrop,
      deriveEncryptionKey, hopens, decodeText_bytesOf]
  · rw [if_neg hset] at henc
    cases henc

end Sound

end GpuFleet
