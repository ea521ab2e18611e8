import GpuFleet.Foundations.Base64
import Mathlib.Algebra.GroupWithZero.Nat
import Mathlib.Data.List.DropRight

/-!
# The agent's secret

At each start the agent resolves its secret from the configuration and from a
file with the encrypted secret of an earlier start.  A secret in the
configuration is sealed in the file.  Windows protects the file itself; elsewhere
a passphrase is needed.

The fallback encryption is decrypted again whatever the hash functions are
(`fallbackDecrypt_fallbackEncrypt`).  A history of starts uses the last real
secret at each start if and only if the placeholder is not configured once a
secret is sealed (`keeps_right_secret_iff`).
-/

namespace GpuFleet

open Foundations

/-! ## Encryption -/

/-- `b64encode` to a text -/
def b64encode (bytes : List UInt8) : String := .ofList (Base64.encode (bytes.map UInt8.toNat))

/-- `b64decode` of a text -/
def b64decode (text : String) : Option (List UInt8) :=
  if text.toList.all (·.toNat < 128) then
    (Base64.a2b 0 0 0 text.toList).map fun bytes => bytes.map UInt8.ofNat
  else none

/-- `text.encode("utf-8")` -/
def encodeUtf8 (text : String) : List UInt8 := (Base64.utf8 text.toList).map UInt8.ofNat

/-- `bytes.decode("utf-8")` -/
def decodeUtf8 (bytes : List UInt8) : Option String :=
  (Base64.utf8Decode? (bytes.map UInt8.toNat)).map String.ofList

/-- What the secret store takes from `hashlib`, `hmac` and Windows. -/
structure SecretCrypto where
  /-- `pbkdf2_hmac` with SHA-256 and 32 bytes. -/
  pbkdf2 : (passphrase salt : List UInt8) → (iterations : Nat) → List UInt8
  /-- `hmac.new(key, message, sha256).digest()` -/
  hmac : (key message : List UInt8) → Vector UInt8 32
  /-- `CryptProtectData`, unless it fails. -/
  protect : List UInt8 → Option (List UInt8)
  /-- `CryptUnprotectData`, unless it fails. -/
  unprotect : List UInt8 → Option (List UInt8)

/-- What Windows protects it gives back. -/
def SecretCrypto.Inverts (crypto : SecretCrypto) : Prop :=
  ∀ data, ∃ blob, crypto.protect data = some blob ∧ crypto.unprotect blob = some data

def secretStoreContext : List UInt8 := encodeUtf8 "gpufleet-agent-node-secret-v1"

def fallbackKdfRounds : Nat := 200000

/-- The content of the file. -/
inductive SecretPayload where
  | dpapi (ciphertextB64 : String)
  | passphrase (iterations : Nat) (saltB64 nonceB64 ciphertextB64 tagB64 : String)
  deriving DecidableEq

/-- What the resolution of the secret raises. -/
inductive SealError where
  | value (text : String)
  | decode
  | windows
  deriving DecidableEq

/-- Four bytes of a number below `2 ^ 32`, the highest first.  (`counter.to_bytes(4)` raises from there
on, which takes a secret of 128 GiB; `Fallback.counterBytes` is the call as it stands.) -/
def toBytes4 (n : Nat) : List UInt8 :=
  [.ofNat (n / 2 ^ 24), .ofNat (n / 2 ^ 16), .ofNat (n / 2 ^ 8), .ofNat n]

/-- `_keystream_bytes`: blocks of 32 bytes until there are enough. -/
def keystreamBytes (crypto : SecretCrypto) (key nonce : List UInt8) (size : Nat) : List UInt8 :=
  ((List.range ((size + 31) / 32)).flatMap fun counter =>
    (crypto.hmac key (nonce ++ toBytes4 counter)).toList).take size

/-- `_fallback_encrypt`, with the salt and the nonce it draws. -/
def fallbackEncrypt (crypto : SecretCrypto) (secret passphrase : String) (salt nonce : List UInt8) :
    SecretPayload :=
  let key := crypto.pbkdf2 (encodeUtf8 passphrase) salt fallbackKdfRounds
  let plaintext := encodeUtf8 secret
  let keystream := keystreamBytes crypto key nonce plaintext.length
  let ciphertext := List.zipWith (· ^^^ ·) plaintext keystream
  let tag := crypto.hmac key (secretStoreContext ++ nonce ++ ciphertext)
  .passphrase fallbackKdfRounds (b64encode salt) (b64encode nonce) (b64encode ciphertext)
    (b64encode tag.toList)

/-- The bytes of a field. -/
def fieldBytes (text : String) : Except SealError (List UInt8) :=
  match b64decode text with
  | none => .error .decode
  | some bytes => .ok bytes

/-- The text of decrypted bytes. -/
def plainText (bytes : List UInt8) : Except SealError String :=
  match decodeUtf8 bytes with
  | none => .error .decode
  | some text => .ok text

/-- `_fallback_decrypt` -/
def fallbackDecrypt (crypto : SecretCrypto) (iterations : Nat)
    (saltB64 nonceB64 ciphertextB64 tagB64 passphrase : String) : Except SealError String := do
  let salt ← fieldBytes saltB64
  let nonce ← fieldBytes nonceB64
  let ciphertext ← fieldBytes ciphertextB64
  let expectedTag ← fieldBytes tagB64
  let key := crypto.pbkdf2 (encodeUtf8 passphrase) salt iterations
  let actualTag := crypto.hmac key (secretStoreContext ++ nonce ++ ciphertext)
  if actualTag.toList ≠ expectedTag then
    .error (.value "Encrypted node secret integrity check failed")
  else
    plainText (List.zipWith (· ^^^ ·) ciphertext
      (keystreamBytes crypto key nonce ciphertext.length))

/-- `_dpapi_encrypt` on Windows -/
def dpapiEncrypt (crypto : SecretCrypto) (secret : String) : Except SealError SecretPayload :=
  match crypto.protect (encodeUtf8 secret) with
  | none => .error .windows
  | some raw => .ok (.dpapi (b64encode raw))

/-! ## Sealing and loading -/

/-- `os.name` -/
inductive OsName where
  | nt
  | posix
  deriving DecidableEq

/-- `_dpapi_decrypt` -/
def dpapiDecrypt (crypto : SecretCrypto) (os : OsName) (ciphertextB64 : String) :
    Except SealError String :=
  if os ≠ .nt then .error (.value "DPAPI is only available on Windows")
  else do
    let ciphertext ← fieldBytes ciphertextB64
    match crypto.unprotect ciphertext with
    | none => .error .windows
    | some raw => plainText raw

/-- The settings that stay the same from start to start. -/
structure SecretSettings where
  os : OsName
  nodeSecretPassphrase : String := ""

/-- A start of the agent: the configured secret, and the salt and the nonce it may draw. -/
structure AgentStart where
  nodeSecret : String
  salt : List UInt8 := []
  nonce : List UInt8 := []

/-- `seal_node_secret`: the new content of the file. -/
def sealNodeSecret (crypto : SecretCrypto) (settings : SecretSettings) (start : AgentStart)
    (nodeSecret : String) : Except SealError SecretPayload :=
  if settings.os = .nt then dpapiEncrypt crypto nodeSecret
  else if settings.nodeSecretPassphrase = "" then
    .error (.value "Non-Windows secret sealing requires GPUFLEET_AGENT_NODE_SECRET_PASSPHRASE")
  else .ok (fallbackEncrypt crypto nodeSecret settings.nodeSecretPassphrase start.salt start.nonce)

/-- `load_encrypted_node_secret` -/
def loadEncryptedNodeSecret (crypto : SecretCrypto) (settings : SecretSettings) :
    SecretPayload → Except SealError String
  | .dpapi ciphertextB64 => dpapiDecrypt crypto settings.os ciphertextB64
  | .passphrase iterations saltB64 nonceB64 ciphertextB64 tagB64 =>
      if settings.nodeSecretPassphrase = "" then
        .error (.value "Encrypted node secret requires GPUFLEET_AGENT_NODE_SECRET_PASSPHRASE")
      else fallbackDecrypt crypto iterations saltB64 nonceB64 ciphertextB64 tagB64
        settings.nodeSecretPassphrase

/-- `str.isspace` of one character -/
def PyText.isSpace (c : Char) : Bool :=
  let n := c.toNat
  9 ≤ n && n ≤ 13 || 28 ≤ n && n ≤ 32 || n = 0x85 || n = 0xa0 || n = 0x1680 ||
    0x2000 ≤ n && n ≤ 0x200a || n = 0x2028 || n = 0x2029 || n = 0x202f || n = 0x205f || n = 0x3000

/-- `str.strip()` -/
def PyText.strip (text : String) : String :=
  .ofList ((text.toList.dropWhile isSpace).rdropWhile isSpace)

/-- The configured secret, as the resolution reads it. -/
def AgentStart.plaintext (start : AgentStart) : String := PyText.strip start.nodeSecret

/-- The value in the example configuration. -/
def placeholder : String := "replace-me"

/-- Seal a secret and use it. -/
def sealAndUse (crypto : SecretCrypto) (settings : SecretSettings) (start : AgentStart)
    (file : Option SecretPayload) : Except SealError String × Option SecretPayload :=
  match sealNodeSecret crypto settings start start.plaintext with
  | .error e => (.error e, file)
  | .ok payload => (.ok start.plaintext, some payload)

/-- `load_or_seal_node_secret`: the secret of a start, and the file after it. -/
def loadOrSealNodeSecret (crypto : SecretCrypto) (settings : SecretSettings) (start : AgentStart)
    (file : Option SecretPayload) : Except SealError String × Option SecretPayload :=
  match file with
  | some payload =>
      match loadEncryptedNodeSecret crypto settings payload with
      | .error e => (.error e, file)
      | .ok stored =>
          if start.plaintext ≠ "" ∧ start.plaintext ≠ stored then
            sealAndUse crypto settings start file
          else (.ok stored, file)
  | none =>
      if start.plaintext = "" ∨ start.plaintext = placeholder then
        (.error (.value ("Node secret not configured. Set GPUFLEET_AGENT_NODE_SECRET once to " ++
          "bootstrap, or provide an existing encrypted secret file.")), file)
      else sealAndUse crypto settings start file

/-! ## What was sealed is loaded -/

section RoundTrip

variable {crypto : SecretCrypto} {settings : SecretSettings}

theorem b64decode_b64encode (bytes : List UInt8) : b64decode (b64encode bytes) = some bytes := by
  have hlt : ∀ b ∈ bytes.map UInt8.toNat, b < 256 := by
    intro b hb
    obtain ⟨byte, -, rfl⟩ := List.mem_map.mp hb
    exact byte.toNat_lt
  have hback : (bytes.map UInt8.toNat).map UInt8.ofNat = bytes := by
    simp [List.map_map, Function.comp_def]
  have hascii : (Base64.encode (bytes.map UInt8.toNat)).all (·.toNat < 128) = true := by
    simp only [List.all_eq_true, decide_eq_true_eq]
    exact fun c hc => Base64.encode_ascii hlt hc
  simp only [b64decode, b64encode, String.toList_ofList, hascii, if_true, Base64.a2b_encode hlt,
    Option.map_some, hback]

theorem fieldBytes_b64encode (bytes : List UInt8) : fieldBytes (b64encode bytes) = .ok bytes := by
  rw [fieldBytes, b64decode_b64encode]

theorem plainText_encodeUtf8 (text : String) : plainText (encodeUtf8 text) = .ok text := by
  have hback : (encodeUtf8 text).map UInt8.toNat = Base64.utf8 text.toList := by
    rw [encodeUtf8, List.map_map, List.map_congr_left (g := id), List.map_id]
    exact fun b hb => UInt8.toNat_ofNat_of_lt' (Base64.utf8_lt hb)
  simp [plainText, decodeUtf8, hback, Base64.utf8Decode?_utf8]

theorem length_keystreamBytes (key nonce : List UInt8) (size : Nat) :
    (keystreamBytes crypto key nonce size).length = size := by
  have hblocks : ((List.range ((size + 31) / 32)).flatMap fun counter =>
      (crypto.hmac key (nonce ++ toBytes4 counter)).toList).length = (size + 31) / 32 * 32 := by
    simp [List.length_flatMap]
  rw [keystreamBytes, List.length_take, hblocks]
  omega

theorem zipWith_xor_cancel {text stream : List UInt8} (h : stream.length = text.length) :
    List.zipWith (· ^^^ ·) (List.zipWith (· ^^^ ·) text stream) stream = text := by
  induction text generalizing stream with
  | nil => rfl
  | cons b text ih =>
      cases stream with
      | nil => cases h
      | cons s stream =>
          rw [List.length_cons, List.length_cons, Nat.add_right_cancel_iff] at h
          simp only [List.zipWith_cons_cons, ih h, UInt8.xor_assoc, UInt8.xor_self, UInt8.xor_zero]

/-- The fallback encryption is decrypted again under the same passphrase. -/
theorem fallbackDecrypt_fallbackEncrypt (secret passphrase : String) (salt nonce : List UInt8)
    {iterations : Nat} {saltB64 nonceB64 ciphertextB64 tagB64 : String}
    (h : fallbackEncrypt crypto secret passphrase salt nonce =
      .passphrase iterations saltB64 nonceB64 ciphertextB64 tagB64) :
    fallbackDecrypt crypto iterations saltB64 nonceB64 ciphertextB64 tagB64 passphrase =
      .ok secret := by
  simp only [fallbackEncrypt, SecretPayload.passphrase.injEq] at h
  obtain ⟨rfl, rfl, rfl, rfl, rfl⟩ := h
  simp only [fallbackDecrypt, fieldBytes_b64encode]
  show (if _ then _ else _) = _
  rw [if_neg (by simp), List.length_zipWith, length_keystreamBytes, Nat.min_self,
    zipWith_xor_cancel (length_keystreamBytes ..), plainText_encodeUtf8]

/-- There is a way to seal a secret: Windows, or a passphrase. -/
def SecretSettings.CanSeal (settings : SecretSettings) : Prop :=
  settings.os = .nt ∨ settings.nodeSecretPassphrase ≠ ""

/-- A secret that is sealed is loaded again. -/
theorem loadEncryptedNodeSecret_sealNodeSecret (hcrypto : crypto.Inverts)
    (hseal : settings.CanSeal) (start : AgentStart) (secret : String) :
    ∃ payload, sealNodeSecret crypto settings start secret = .ok payload ∧
      loadEncryptedNodeSecret crypto settings payload = .ok secret := by
  by_cases hos : settings.os = .nt
  · obtain ⟨blob, hprotect, hunprotect⟩ := hcrypto (encodeUtf8 secret)
    refine ⟨.dpapi (b64encode blob), by simp [sealNodeSecret, hos, dpapiEncrypt, hprotect], ?_⟩
    simp only [loadEncryptedNodeSecret, dpapiDecrypt, hos, ne_eq, not_true_eq_false, if_false,
      fieldBytes_b64encode]
    show (match crypto.unprotect blob with | none => _ | some raw => plainText raw) = _
    rw [hunprotect]
    exact plainText_encodeUtf8 secret
  · have hpass : settings.nodeSecretPassphrase ≠ "" := hseal.resolve_left hos
    refine ⟨_, by rw [sealNodeSecret, if_neg hos, if_neg hpass], ?_⟩
    rw [fallbackEncrypt, loadEncryptedNodeSecret, if_neg hpass]
    exact fallbackDecrypt_fallbackEncrypt secret _ start.salt start.nonce rfl

end RoundTrip

/-! ## Histories of starts -/

/-- The configured value is a secret. -/
def AgentStart.IsReal (start : AgentStart) : Prop :=
  start.plaintext ≠ "" ∧ start.plaintext ≠ placeholder

instance (start : AgentStart) : Decidable start.IsReal := inferInstanceAs (Decidable (_ ∧ _))

/-- The last real secret that was configured. -/
def lastReal (starts : List AgentStart) : Option String :=
  (starts.findRev? fun start => start.IsReal).map AgentStart.plaintext

/-- The file after so many starts of a new agent. -/
def fileAfter (crypto : SecretCrypto) (settings : SecretSettings) (starts : List AgentStart) :
    Option SecretPayload :=
  starts.foldl (fun file start => (loadOrSealNodeSecret crypto settings start file).2) none

/-- A start uses the last real secret, and leaves the file alone unless it configures one. -/
def UsesRightSecret (crypto : SecretCrypto) (settings : SecretSettings)
    (before : List AgentStart) (start : AgentStart) : Prop :=
  let file := fileAfter crypto settings before
  let outcome := loadOrSealNodeSecret crypto settings start file
  (∀ secret, lastReal (before ++ [start]) = some secret → outcome.1 = .ok secret) ∧
    (lastReal (before ++ [start]) = none → ∃ e, outcome.1 = .error e) ∧
    (¬ start.IsReal → outcome.2 = file)

/-- Every start of the history does. -/
def KeepsRightSecret (crypto : SecretCrypto) (settings : SecretSettings)
    (starts : List AgentStart) : Prop :=
  ∀ before start, before ++ [start] <+: starts → UsesRightSecret crypto settings before start

/-- The placeholder is configured only as long as there was no real secret. -/
def NoLatePlaceholder (starts : List AgentStart) : Prop :=
  ∀ before start, before ++ [start] <+: starts → start.plaintext = placeholder →
    lastReal before = none

section Histories

variable {crypto : SecretCrypto} {settings : SecretSettings} {starts : List AgentStart}
  {start : AgentStart}

theorem lastReal_snoc (starts : List AgentStart) (start : AgentStart) :
    lastReal (starts ++ [start]) =
      if start.IsReal then some start.plaintext else lastReal starts := by
  rw [lastReal, lastReal]
  split <;> simp_all

theorem fileAfter_snoc (starts : List AgentStart) (start : AgentStart) :
    fileAfter crypto settings (starts ++ [start]) =
      (loadOrSealNodeSecret crypto settings start (fileAfter crypto settings starts)).2 := by
  rw [fileAfter, List.foldl_concat, ← fileAfter]

/-- The file holds the secret, if there is one. -/
def HoldsSecret (crypto : SecretCrypto) (settings : SecretSettings) (file : Option SecretPayload) :
    Option String → Prop
  | none => file = none
  | some secret => ∃ payload, file = some payload ∧
      loadEncryptedNodeSecret crypto settings payload = .ok secret

theorem lastReal_isReal {secret : String} (h : lastReal starts = some secret) :
    secret ≠ "" ∧ secret ≠ placeholder := by
  induction starts using List.reverseRecOn with
  | nil => cases h
  | append_singleton starts start ih =>
      rw [lastReal_snoc] at h
      split at h
      · rename_i hreal
        obtain rfl := Option.some.inj h
        exact hreal
      · exact ih h

/-- Sealing succeeds, and the file then holds the secret. -/
theorem sealAndUse_holds (hcrypto : crypto.Inverts) (hseal : settings.CanSeal) (start : AgentStart)
    (file : Option SecretPayload) :
    (sealAndUse crypto settings start file).1 = .ok start.plaintext ∧
      HoldsSecret crypto settings (sealAndUse crypto settings start file).2 (some start.plaintext) := by
  obtain ⟨payload, hsealed, hload⟩ :=
    loadEncryptedNodeSecret_sealNodeSecret hcrypto hseal start start.plaintext
  rw [sealAndUse, hsealed]
  exact ⟨rfl, payload, rfl, hload⟩

/-- A start with a secret that is not stored yet uses it. -/
theorem loadOrSeal_new {file : Option SecretPayload} {last : Option String}
    (hfile : HoldsSecret crypto settings file last) (hne : start.plaintext ≠ "")
    (hnew : last ≠ some start.plaintext)
    (hfirst : last = none → start.plaintext ≠ placeholder) :
    loadOrSealNodeSecret crypto settings start file = sealAndUse crypto settings start file := by
  cases last with
  | none =>
      rw [show file = none from hfile, loadOrSealNodeSecret, if_neg (by simp [hne, hfirst])]
  | some stored =>
      obtain ⟨payload, rfl, hload⟩ := hfile
      rw [loadOrSealNodeSecret, hload]
      exact if_pos ⟨hne, fun e => hnew (e ▸ rfl)⟩

/-- Any other start leaves the file alone. -/
theorem loadOrSeal_old {file : Option SecretPayload} {last : Option String}
    (hfile : HoldsSecret crypto settings file last)
    (hold : start.plaintext = "" ∨ last = some start.plaintext ∨
      last = none ∧ start.plaintext = placeholder) :
    (loadOrSealNodeSecret crypto settings start file).2 = file ∧
      (∀ secret, last = some secret →
        (loadOrSealNodeSecret crypto settings start file).1 = .ok secret) ∧
      (last = none → ∃ e, (loadOrSealNodeSecret crypto settings start file).1 = .error e) := by
  cases last with
  | none =>
      have hnone : start.plaintext = "" ∨ start.plaintext = placeholder := by
        rcases hold with h | h | h
        · exact .inl h
        · cases h
        · exact .inr h.2
      rw [show file = none from hfile, loadOrSealNodeSecret, if_pos hnone]
      exact ⟨rfl, fun _ h => (by cases h), fun _ => ⟨_, rfl⟩⟩
  | some stored =>
      obtain ⟨payload, rfl, hload⟩ := hfile
      have hsame : ¬ (start.plaintext ≠ "" ∧ start.plaintext ≠ stored) := by
        rcases hold with h | h | h
        · exact fun hnew => hnew.1 h
        · exact fun hnew => hnew.2 (Option.some.inj h).symm
        · cases h.1
      simp only [loadOrSealNodeSecret, hload, if_neg hsame]
      exact ⟨trivial, fun _ h => by rw [Option.some.inj h], fun h => by cases h⟩

/-- A start that configures no placeholder over a secret leaves everything as it is, or it
configures a real secret that is new. -/
theorem start_cases (h : start.plaintext = placeholder → lastReal starts = none) :
    ((start.plaintext = "" ∨ lastReal starts = some start.plaintext ∨
        lastReal starts = none ∧ start.plaintext = placeholder) ∧
      lastReal (starts ++ [start]) = lastReal starts) ∨
    (start.IsReal ∧ lastReal starts ≠ some start.plaintext ∧
      lastReal (starts ++ [start]) = some start.plaintext) := by
  rw [lastReal_snoc]
  by_cases hreal : start.IsReal
  · rw [if_pos hreal]
    by_cases hsame : lastReal starts = some start.plaintext
    · exact .inl ⟨.inr (.inl hsame), hsame.symm⟩
    · exact .inr ⟨hreal, hsame, rfl⟩
  · rw [if_neg hreal]
    refine .inl ⟨?_, rfl⟩
    by_cases hempty : start.plaintext = ""
    · exact .inl hempty
    · have hplaceholder : start.plaintext = placeholder :=
        Decidable.not_not.mp fun hne => hreal ⟨hempty, hne⟩
      exact .inr (.inr ⟨h hplaceholder, hplaceholder⟩)

/-- The file holds the last real secret. -/
theorem fileAfter_holds (hcrypto : crypto.Inverts) (hseal : settings.CanSeal)
    (h : NoLatePlaceholder starts) :
    HoldsSecret crypto settings (fileAfter crypto settings starts) (lastReal starts) := by
  induction starts using List.reverseRecOn with
  | nil => rfl
  | append_singleton starts start ih =>
      have hfile := ih fun before start' hpre =>
        h before start' (hpre.trans (List.prefix_append _ _))
      rw [fileAfter_snoc]
      rcases start_cases (h starts start List.prefix_rfl) with ⟨hold, hlast⟩ | ⟨hreal, hnew, hlast⟩
      · rw [hlast, (loadOrSeal_old hfile hold).1]
        exact hfile
      · rw [hlast, loadOrSeal_new hfile hreal.1 hnew fun _ => hreal.2]
        exact (sealAndUse_holds hcrypto hseal ..).2

/-- While the file holds the last real secret, a start does right unless it configures the
placeholder over one. -/
theorem usesRightSecret_iff (hcrypto : crypto.Inverts) (hseal : settings.CanSeal)
    (hfile : HoldsSecret crypto settings (fileAfter crypto settings starts) (lastReal starts)) :
    UsesRightSecret crypto settings starts start ↔
      (start.plaintext = placeholder → lastReal starts = none) := by
  constructor
  · intro hright hplaceholder
    have hnotReal : ¬ start.IsReal := fun hreal => hreal.2 hplaceholder
    cases hlast : lastReal starts with
    | none => rfl
    | some secret =>
        have hused := hright.1 secret (by rw [lastReal_snoc, if_neg hnotReal, hlast])
        have hne : start.plaintext ≠ "" := by rw [hplaceholder]; decide
        have hsecret := (lastReal_isReal hlast).2
        rw [hlast] at hfile
        have hother : some secret ≠ some start.plaintext := by
          rw [hplaceholder]
          exact fun e => hsecret (Option.some.inj e)
        have hseals := loadOrSeal_new hfile hne hother fun e => absurd e (by simp)
        rw [hseals, (sealAndUse_holds hcrypto hseal ..).1, hplaceholder] at hused
        exact absurd (Except.ok.inj hused).symm hsecret
  · intro h
    rcases start_cases h with ⟨hold, hlast⟩ | ⟨hreal, hnew, hlast⟩
    · obtain ⟨hkept, hused, herror⟩ := loadOrSeal_old hfile hold
      exact ⟨by rw [hlast]; exact hused, by rw [hlast]; exact herror, fun _ => hkept⟩
    · have hseals := loadOrSeal_new hfile hreal.1 hnew fun _ => hreal.2
      refine ⟨fun secret hsecret => ?_, fun hnone => ?_, fun hnot => absurd hreal hnot⟩
      · rw [hlast] at hsecret
        obtain rfl := Option.some.inj hsecret
        rw [hseals, (sealAndUse_holds hcrypto hseal ..).1]
      · rw [hlast] at hnone
        cases hnone

/-- A property of the starts of a longer history. -/
theorem forall_prefix_snoc {P : List AgentStart → AgentStart → Prop} :
    (∀ before start', before ++ [start'] <+: starts ++ [start] → P before start') ↔
      (∀ before start', before ++ [start'] <+: starts → P before start') ∧ P starts start := by
  constructor
  · intro h
    exact ⟨fun before start' hpre => h before start' (hpre.trans (List.prefix_append _ _)),
      h starts start List.prefix_rfl⟩
  · rintro ⟨h, hlast⟩ before start' hpre
    rcases List.prefix_concat_iff.mp hpre with heq | hpre
    · obtain ⟨rfl, hstart⟩ := List.append_inj' heq rfl
      obtain rfl := List.singleton_inj.mp hstart
      exact hlast
    · exact h before start' hpre

end Histories

/-- Every start uses the last real secret, and leaves the file alone unless it configures one, if
and only if the placeholder is configured only as long as there was no real secret. -/
theorem keeps_right_secret_iff {crypto : SecretCrypto} {settings : SecretSettings}
    (hcrypto : crypto.Inverts) (hseal : settings.CanSeal) (starts : List AgentStart) :
    KeepsRightSecret crypto settings starts ↔ NoLatePlaceholder starts := by
  induction starts using List.reverseRecOn with
  | nil =>
      simp [KeepsRightSecret, NoLatePlaceholder, List.prefix_nil]
  | append_singleton starts start ih =>
      rw [KeepsRightSecret, NoLatePlaceholder, forall_prefix_snoc, forall_prefix_snoc]
      rw [KeepsRightSecret, NoLatePlaceholder] at ih
      rw [ih]
      exact and_congr_right fun h =>
        usesRightSecret_iff hcrypto hseal (fileAfter_holds hcrypto hseal h)

/-- Hashes that are all zero, and a Windows that protects nothing. -/
def plainSecretCrypto : SecretCrypto where
  pbkdf2 _ _ _ := []
  hmac _ _ := .replicate 32 0
  protect := some
  unprotect := some

theorem plainSecretCrypto_inverts : plainSecretCrypto.Inverts := fun data => ⟨data, rfl, rfl⟩

/-- A secret that is removed from the configuration is kept. -/
theorem keeps_right_secret_removed :
    SecretSettings.CanSeal { os := .posix, nodeSecretPassphrase := "p" } ∧
      KeepsRightSecret plainSecretCrypto { os := .posix, nodeSecretPassphrase := "p" }
        [{ nodeSecret := "replace-me" }, { nodeSecret := "alpha" }, { nodeSecret := " " }] := by
  have hseal : SecretSettings.CanSeal { os := .posix, nodeSecretPassphrase := "p" } :=
    .inr (by decide)
  refine ⟨hseal, (keeps_right_secret_iff plainSecretCrypto_inverts hseal _).mpr ?_⟩
  intro before start hpre hplaceholder
  cases before with
  | nil => rfl
  | cons first before =>
      -- Only the first of the three starts configures the placeholder.
      have hmem : start ∈ [({ nodeSecret := "alpha" } : AgentStart), { nodeSecret := " " }] :=
        (List.cons_prefix_cons.mp hpre).2.subset (by simp)
      have hnone : ∀ start ∈ [({ nodeSecret := "alpha" } : AgentStart), { nodeSecret := " " }],
          start.plaintext ≠ placeholder := by decide
      exact absurd hplaceholder (hnone start hmem)

/-- The placeholder overwrites a secret. -/
theorem placeholder_overwrites :
    ¬ ∀ (crypto : SecretCrypto) (settings : SecretSettings) (starts : List AgentStart),
      crypto.Inverts → settings.CanSeal → KeepsRightSecret crypto settings starts := by
  intro h
  have hseal : SecretSettings.CanSeal { os := .posix, nodeSecretPassphrase := "p" } :=
    .inr (by decide)
  have hkeeps := h plainSecretCrypto { os := .posix, nodeSecretPassphrase := "p" }
    [{ nodeSecret := "alpha" }, { nodeSecret := "replace-me" }] plainSecretCrypto_inverts hseal
  have hfirst : NoLatePlaceholder [{ nodeSecret := "alpha" }] := by
    intro before start hpre hplaceholder
    obtain rfl := List.mem_singleton.mp (hpre.subset (List.mem_concat_self ..))
    exact absurd hplaceholder (by decide)
  have hright := hkeeps [{ nodeSecret := "alpha" }] { nodeSecret := "replace-me" } List.prefix_rfl
  have hlast := (usesRightSecret_iff plainSecretCrypto_inverts hseal
    (fileAfter_holds plainSecretCrypto_inverts hseal hfirst)).mp hright (by decide)
  exact absurd hlast (by decide)

end GpuFleet
