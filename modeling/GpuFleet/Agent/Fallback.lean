import GpuFleet.Agent.SecretStore
import GpuFleet.Server.Schema

/-!
# The fallback encryption

Where Windows does not protect the agent's secret, the secret is XORed with a
keystream under a key from a passphrase, and tagged.  Here the keystream is the
loop of the source, whose counter has four bytes, and a payload is a dictionary of
arbitrary values, from which the decryption may fail to read a field.

The loop has an invariant: after `counter` rounds its output is the blocks before
`counter`.  So it yields as many bytes as are asked for as long as the counter
suffices, which is up to `2 ^ 37` bytes (`keystreamBytes_eq`), and raises beyond
(`keystreamBytes_overflow`).  Up to there the payload that is built is decrypted to
the secret, and no payload is decrypted whose tag is another than that of its nonce
and ciphertext (`fallback_round_trips`).
-/

namespace GpuFleet.Fallback

open Foundations

/-! ## The source -/

/-- What the encryption and the decryption raise. -/
inductive Error where
  | key (name : String)
  | value (text : String)
  /-- A field that is not Base64, or bytes that are not UTF-8. -/
  | decode
  /-- `int` refuses the value. -/
  | conversion
  | overflow
  deriving DecidableEq

/-- What `str` makes of a value that is no text, and `int` of one that is no integer. -/
structure Conversions where
  str : Json → String
  int : Json → Option Int

/-- `str(value)` -/
def Conversions.text (conv : Conversions) : Json → String
  | .str s => s
  | value => conv.str value

/-- `int(value)` -/
def Conversions.integer (conv : Conversions) : Json → Option Int
  | .num n => some n
  | value => conv.int value

/-- A payload of the secret file. -/
abbrev Payload : Type := List (String × Json)

/-- `counter.to_bytes(4, "big")` -/
def counterBytes (counter : Nat) : Except Error (List UInt8) :=
  if counter < 2 ^ 32 then .ok (toBytes4 counter) else .error .overflow

/-- The loop of `_keystream_bytes`. -/
def keystreamLoop (crypto : SecretCrypto) (key nonce : List UInt8) (size : Nat)
    (output : List UInt8) (counter : Nat) : Except Error (List UInt8) :=
  if output.length < size then
    match counterBytes counter with
    | .error e => .error e
    | .ok bytes =>
        keystreamLoop crypto key nonce size
          (output ++ (crypto.hmac key (nonce ++ bytes)).toList) (counter + 1)
  else .ok (output.take size)
termination_by size - output.length
decreasing_by
  rw [List.length_append, Vector.length_toList]
  omega

/-- `_keystream_bytes` -/
def keystreamBytes (crypto : SecretCrypto) (key nonce : List UInt8) (size : Nat) :
    Except Error (List UInt8) := keystreamLoop crypto key nonce size [] 0

/-- `pbkdf2_hmac` of a passphrase, which takes a positive number of iterations that a C `int`
holds. -/
def deriveKey (crypto : SecretCrypto) (passphrase : String) (salt : List UInt8) (iterations : Int) :
    Except Error (List UInt8) :=
  if iterations < 1 then .error (.value "iteration value must be greater than 0.")
  else if 2 ^ 31 ≤ iterations.toNat then .error .overflow
  else .ok (crypto.pbkdf2 (encodeUtf8 passphrase) salt iterations.toNat)

/-- The HMAC of a nonce and a ciphertext. -/
def tagOf (crypto : SecretCrypto) (key nonce ciphertext : List UInt8) : List UInt8 :=
  (crypto.hmac key (secretStoreContext ++ nonce ++ ciphertext)).toList

/-- `_fallback_encrypt`, with the salt and the nonce it draws. -/
def encrypt (crypto : SecretCrypto) (secret passphrase : String) (salt nonce : List UInt8) :
    Except Error Payload := do
  let key ← deriveKey crypto passphrase salt fallbackKdfRounds
  let plaintext := encodeUtf8 secret
  let keystream ← keystreamBytes crypto key nonce plaintext.length
  let ciphertext := List.zipWith (· ^^^ ·) plaintext keystream
  let tag := tagOf crypto key nonce ciphertext
  pure
    [("scheme", .str "passphrase-v1"), ("iterations", .num fallbackKdfRounds),
      ("salt_b64", .str (b64encode salt)), ("nonce_b64", .str (b64encode nonce)),
      ("ciphertext_b64", .str (b64encode ciphertext)), ("tag_b64", .str (b64encode tag))]

/-- `base64.b64decode(str(payload[name]))` -/
def storedBytes (conv : Conversions) (payload : Payload) (name : String) :
    Except Error (List UInt8) :=
  match payload.lookup name with
  | none => .error (.key name)
  | some value =>
      match b64decode (conv.text value) with
      | none => .error .decode
      | some bytes => .ok bytes

/-- `int(payload.get("iterations", _FALLBACK_KDF_ROUNDS))` -/
def storedIterations (conv : Conversions) (payload : Payload) : Except Error Int :=
  match conv.integer ((payload.lookup "iterations").getD (.num fallbackKdfRounds)) with
  | none => .error .conversion
  | some n => .ok n

/-- `plaintext.decode("utf-8")` -/
def decodeText (plaintext : List UInt8) : Except Error String :=
  match decodeUtf8 plaintext with
  | none => .error .decode
  | some text => .ok text

/-- `_fallback_decrypt` -/
def decrypt (crypto : SecretCrypto) (conv : Conversions) (payload : Payload) (passphrase : String) :
    Except Error String := do
  let salt ← storedBytes conv payload "salt_b64"
  let nonce ← storedBytes conv payload "nonce_b64"
  let ciphertext ← storedBytes conv payload "ciphertext_b64"
  let expectedTag ← storedBytes conv payload "tag_b64"
  let iterations ← storedIterations conv payload
  let key ← deriveKey crypto passphrase salt iterations
  if tagOf crypto key nonce ciphertext ≠ expectedTag then
    .error (.value "Encrypted node secret integrity check failed")
  else
    let keystream ← keystreamBytes crypto key nonce ciphertext.length
    decodeText (List.zipWith (· ^^^ ·) ciphertext keystream)

/-! ## The keystream -/

section Keystream

variable {crypto : SecretCrypto} {key nonce : List UInt8} {size counter : Nat}

/-- The blocks of the keystream before a counter. -/
def blocks (crypto : SecretCrypto) (key nonce : List UInt8) (counter : Nat) : List UInt8 :=
  (List.range counter).flatMap fun i => (crypto.hmac key (nonce ++ toBytes4 i)).toList

theorem length_blocks : (blocks crypto key nonce counter).length = 32 * counter := by
  simp [blocks, List.length_flatMap, Nat.mul_comm]

theorem blocks_succ : blocks crypto key nonce (counter + 1) =
    blocks crypto key nonce counter ++ (crypto.hmac key (nonce ++ toBytes4 counter)).toList := by
  simp [blocks, List.range_succ]

/-- A round of the loop adds a block. -/
theorem keystreamLoop_round (hmore : 32 * counter < size) (hcounter : counter < 2 ^ 32) :
    keystreamLoop crypto key nonce size (blocks crypto key nonce counter) counter =
      keystreamLoop crypto key nonce size (blocks crypto key nonce (counter + 1)) (counter + 1) := by
  rw [keystreamLoop, length_blocks, if_pos hmore, counterBytes, if_pos hcounter, blocks_succ]

/-- From any round on, the loop yields the bytes that are asked for if the counter suffices. -/
theorem keystreamLoop_eq {rounds : Nat} (hlast : counter + rounds = (size + 31) / 32)
    (hsize : size ≤ 2 ^ 37) :
    keystreamLoop crypto key nonce size (blocks crypto key nonce counter) counter =
      .ok (GpuFleet.keystreamBytes crypto key nonce size) := by
  induction rounds generalizing counter with
  | zero =>
      have henough : ¬ 32 * counter < size := by omega
      rw [keystreamLoop, length_blocks, if_neg henough, GpuFleet.keystreamBytes, ← hlast]
      rfl
  | succ rounds ih =>
      rw [keystreamLoop_round (by omega) (by omega)]
      exact ih (by omega)

/-- From any round on, the loop runs out of counters if more bytes are asked for. -/
theorem keystreamLoop_overflow {rounds : Nat} (hlast : counter + rounds = 2 ^ 32)
    (hsize : 2 ^ 37 < size) :
    keystreamLoop crypto key nonce size (blocks crypto key nonce counter) counter =
      .error .overflow := by
  induction rounds generalizing counter with
  | zero =>
      have hmore : 32 * counter < size := by omega
      have hcounter : ¬ counter < 2 ^ 32 := by omega
      rw [keystreamLoop, length_blocks, if_pos hmore, counterBytes, if_neg hcounter]
  | succ rounds ih =>
      rw [keystreamLoop_round (by omega) (by omega)]
      exact ih (by omega)

theorem keystreamBytes_eq (hsize : size ≤ 2 ^ 37) :
    keystreamBytes crypto key nonce size = .ok (GpuFleet.keystreamBytes crypto key nonce size) :=
  keystreamLoop_eq (Nat.zero_add _) hsize

theorem keystreamBytes_overflow (hsize : 2 ^ 37 < size) :
    keystreamBytes crypto key nonce size = .error .overflow :=
  keystreamLoop_overflow (Nat.zero_add _) hsize

end Keystream

/-! ## The round trip -/

section RoundTrip

variable {crypto : SecretCrypto} {conv : Conversions} {payload : Payload} {passphrase : String}

theorem storedBytes_b64encode {name : String} {bytes : List UInt8}
    (h : payload.lookup name = some (.str (b64encode bytes))) :
    storedBytes conv payload name = .ok bytes := by
  simp only [storedBytes, h, Conversions.text, b64decode_b64encode]

theorem decodeText_encodeUtf8 (text : String) : decodeText (encodeUtf8 text) = .ok text := by
  have h := plainText_encodeUtf8 text
  unfold plainText at h
  unfold decodeText
  cases hd : decodeUtf8 (encodeUtf8 text) with
  | none =>
      rw [hd] at h
      cases h
  | some decoded =>
      rw [hd] at h
      exact congrArg Except.ok (Except.ok.inj h)

theorem deriveKey_rounds (crypto : SecretCrypto) (passphrase : String) (salt : List UInt8) :
    deriveKey crypto passphrase salt fallbackKdfRounds =
      .ok (crypto.pbkdf2 (encodeUtf8 passphrase) salt fallbackKdfRounds) := by
  have hpositive : ¬ (fallbackKdfRounds : Int) < 1 := by decide
  have hsmall : ¬ 2 ^ 31 ≤ (fallbackKdfRounds : Int).toNat := by decide
  rw [deriveKey, if_neg hpositive, if_neg hsmall, Int.toNat_natCast]

/-- The payload of a ciphertext. -/
def payloadOf (salt nonce ciphertext tag : List UInt8) : Payload :=
  [("scheme", .str "passphrase-v1"), ("iterations", .num fallbackKdfRounds),
    ("salt_b64", .str (b64encode salt)), ("nonce_b64", .str (b64encode nonce)),
    ("ciphertext_b64", .str (b64encode ciphertext)), ("tag_b64", .str (b64encode tag))]

/-- A secret that the counter suffices for is encrypted. -/
theorem encrypt_eq {secret : String} {salt nonce : List UInt8}
    (hsize : (encodeUtf8 secret).length ≤ 2 ^ 37) :
    let key := crypto.pbkdf2 (encodeUtf8 passphrase) salt fallbackKdfRounds
    let ciphertext := List.zipWith (· ^^^ ·) (encodeUtf8 secret)
      (GpuFleet.keystreamBytes crypto key nonce (encodeUtf8 secret).length)
    encrypt crypto secret passphrase salt nonce =
      .ok (payloadOf salt nonce ciphertext (tagOf crypto key nonce ciphertext)) := by
  simp only [encrypt, deriveKey_rounds, keystreamBytes_eq hsize]
  rfl

/-- A longer secret is not. -/
theorem encrypt_overflow {secret : String} {salt nonce : List UInt8}
    (hsize : 2 ^ 37 < (encodeUtf8 secret).length) :
    encrypt crypto secret passphrase salt nonce = .error .overflow := by
  simp only [encrypt, deriveKey_rounds, keystreamBytes_overflow hsize]
  rfl

/-- A payload with the right tag is decrypted. -/
theorem decrypt_payloadOf {salt nonce ciphertext : List UInt8} (hsize : ciphertext.length ≤ 2 ^ 37) :
    let key := crypto.pbkdf2 (encodeUtf8 passphrase) salt fallbackKdfRounds
    decrypt crypto conv (payloadOf salt nonce ciphertext (tagOf crypto key nonce ciphertext))
        passphrase =
      decodeText (List.zipWith (· ^^^ ·) ciphertext
        (GpuFleet.keystreamBytes crypto key nonce ciphertext.length)) := by
  intro key
  have hsalt : ∀ tag, storedBytes conv (payloadOf salt nonce ciphertext tag) "salt_b64" = .ok salt :=
    fun _ => storedBytes_b64encode rfl
  have hnonce : ∀ tag, storedBytes conv (payloadOf salt nonce ciphertext tag) "nonce_b64" =
      .ok nonce := fun _ => storedBytes_b64encode rfl
  have hciphertext : ∀ tag, storedBytes conv (payloadOf salt nonce ciphertext tag) "ciphertext_b64" =
      .ok ciphertext := fun _ => storedBytes_b64encode rfl
  have htag : ∀ tag, storedBytes conv (payloadOf salt nonce ciphertext tag) "tag_b64" = .ok tag :=
    fun _ => storedBytes_b64encode rfl
  have hiterations : ∀ tag, storedIterations conv (payloadOf salt nonce ciphertext tag) =
      .ok fallbackKdfRounds := fun _ => rfl
  simp only [decrypt, hsalt, hnonce, hciphertext, htag, hiterations, Bind.bind, Except.bind,
    deriveKey_rounds]
  rw [if_neg (not_not.mpr rfl), keystreamBytes_eq hsize]

/-- The stored tag is that of the stored nonce and ciphertext under the derived key. -/
def Authentic (crypto : SecretCrypto) (conv : Conversions) (payload : Payload)
    (passphrase : String) : Prop :=
  ∃ salt nonce ciphertext iterations key, storedBytes conv payload "salt_b64" = .ok salt ∧
    storedBytes conv payload "nonce_b64" = .ok nonce ∧
    storedBytes conv payload "ciphertext_b64" = .ok ciphertext ∧
    storedIterations conv payload = .ok iterations ∧
    deriveKey crypto passphrase salt iterations = .ok key ∧
    storedBytes conv payload "tag_b64" = .ok (tagOf crypto key nonce ciphertext)

theorem bind_ok {α β : Type} {x : Except Error α} {f : α → Except Error β} {b : β}
    (h : (x >>= f) = .ok b) : ∃ a, x = .ok a ∧ f a = .ok b := by
  cases x with
  | error e => cases h
  | ok a => exact ⟨a, rfl, h⟩

/-- What is decrypted had the right tag. -/
theorem authentic_of_decrypt {text : String} (h : decrypt crypto conv payload passphrase = .ok text) :
    Authentic crypto conv payload passphrase := by
  obtain ⟨salt, hsalt, h⟩ := bind_ok h
  obtain ⟨nonce, hnonce, h⟩ := bind_ok h
  obtain ⟨ciphertext, hciphertext, h⟩ := bind_ok h
  obtain ⟨expectedTag, htag, h⟩ := bind_ok h
  obtain ⟨iterations, hiterations, h⟩ := bind_ok h
  obtain ⟨key, hkey, h⟩ := bind_ok h
  split at h
  · cases h
  · rename_i hsame
    rw [← not_not.mp hsame] at htag
    exact ⟨salt, nonce, ciphertext, iterations, key, hsalt, hnonce, hciphertext, hiterations, hkey, htag⟩

end RoundTrip

/-- Every secret of up to `2 ^ 37` bytes is encrypted to a payload that is decrypted to it under the
same passphrase, whatever the salt and the nonce are, and a payload is not decrypted to any text
unless its tag is the HMAC of its nonce and ciphertext under the derived key. -/
theorem fallback_round_trips (crypto : SecretCrypto) (conv : Conversions) :
    (∀ (secret passphrase : String) (salt nonce : List UInt8),
      (encodeUtf8 secret).length ≤ 2 ^ 37 →
        ∃ payload, encrypt crypto secret passphrase salt nonce = .ok payload ∧
          decrypt crypto conv payload passphrase = .ok secret) ∧
      ∀ (payload : Payload) (passphrase : String), ¬ Authentic crypto conv payload passphrase →
        ∃ e, decrypt crypto conv payload passphrase = .error e := by
  constructor
  · intro secret passphrase salt nonce hsize
    have hstream := @length_keystreamBytes crypto
      (crypto.pbkdf2 (encodeUtf8 passphrase) salt fallbackKdfRounds) nonce (encodeUtf8 secret).length
    refine ⟨_, encrypt_eq hsize, ?_⟩
    rw [decrypt_payloadOf (by rwa [List.length_zipWith, hstream, Nat.min_self]), List.length_zipWith,
      hstream, Nat.min_self, zipWith_xor_cancel hstream, decodeText_encodeUtf8]
  · intro payload passphrase hnot
    cases h : decrypt crypto conv payload passphrase with
    | error e => exact ⟨e, rfl⟩
    | ok text => exact absurd (authentic_of_decrypt h) hnot

/-- A payload whose fields are all empty. -/
def emptyPayload : Payload :=
  [("salt_b64", .str ""), ("nonce_b64", .str ""), ("ciphertext_b64", .str ""), ("tag_b64", .str "")]

theorem emptyPayload_not_authentic (conv : Conversions) (passphrase : String) :
    ¬ Authentic plainSecretCrypto conv emptyPayload passphrase := by
  rintro ⟨salt, nonce, ciphertext, iterations, key, -, -, -, -, -, htag⟩
  have hempty : storedBytes conv emptyPayload "tag_b64" = .ok [] := storedBytes_b64encode rfl
  rw [hempty] at htag
  exact absurd (congrArg List.length (Except.ok.inj htag)) (by simp [tagOf])

/-- A secret, and a payload without a tag. -/
theorem fallback_round_trips_alpha :
    (∃ payload, encrypt plainSecretCrypto "alpha" "p" [1] [2] = .ok payload ∧
      decrypt plainSecretCrypto ⟨fun _ => "", fun _ => none⟩ payload "p" = .ok "alpha") ∧
      ∃ e, decrypt plainSecretCrypto ⟨fun _ => "", fun _ => none⟩ emptyPayload "p" = .error e :=
  ⟨(fallback_round_trips plainSecretCrypto _).1 "alpha" "p" [1] [2] (by decide +kernel),
    (fallback_round_trips plainSecretCrypto _).2 emptyPayload "p" (emptyPayload_not_authentic _ _)⟩

theorem length_encodeUtf8_replicate (n : Nat) :
    (encodeUtf8 (.ofList (List.replicate n 'a'))).length = n := by
  have hone : 'a'.utf8Size = 1 := by decide
  simp [encodeUtf8, Base64.utf8, List.length_flatMap, hone]

/-- The counter of the keystream has no five bytes. -/
theorem long_secret_raises :
    ¬ ∀ (crypto : SecretCrypto) (conv : Conversions) (secret passphrase : String)
        (salt nonce : List UInt8), ∃ payload,
      encrypt crypto secret passphrase salt nonce = .ok payload ∧
        decrypt crypto conv payload passphrase = .ok secret := by
  intro h
  obtain ⟨payload, hpayload, -⟩ := h plainSecretCrypto ⟨fun _ => "", fun _ => none⟩
    (.ofList (List.replicate (2 ^ 37 + 1) 'a')) "p" [] []
  have hlong : 2 ^ 37 < (encodeUtf8 (.ofList (List.replicate (2 ^ 37 + 1) 'a'))).length := by
    rw [length_encodeUtf8_replicate]
    exact Nat.lt_succ_self _
  rw [encrypt_overflow hlong] at hpayload
  cases hpayload

end GpuFleet.Fallback
