import GpuFleet.Server.Secrets

/-!
# The consumption of onboarding tokens

An onboarding token is the encrypted secret of a node, and the signing key issued
together with it is derived from that secret (`tokenKey`).  A heartbeat clears the
token of its node.

A heartbeat reads the row of the node when it is authenticated, and clears the
token in a later transaction that checks the key no more.  A secret that is
replaced in between is consumed by a heartbeat signed with the key before
(`oldKey_consumes`).  In the runs where no request writes to a row whose token
was replaced after the request read it (`Undisturbed`), every token is consumed by
a heartbeat that was signed with its own key (`consumed_by_own_key`).
-/

namespace GpuFleet

open Foundations

/-! ## Tokens and keys -/

/-- The signing key issued together with a token. -/
def tokenKey (crypto : Crypto) (token : String) : Option String :=
  (crypto.decryptNodeSigningKey token).map fun secret =>
    crypto.deriveNodeSigningKey secret.signingKey

/-- A new secret comes with the key of its token. -/
theorem NewSecret.tokenKey_encrypt {crypto : Crypto} (hcrypto : crypto.Inverts) {s : NewSecret}
    {key token : String} (h : s.encrypt crypto = .ok (key, token)) :
    key ≠ "" ∧ crypto.decryptNodeSigningKey key = some ⟨crypto.deriveNodeSigningKey s.secret, false⟩ ∧
      tokenKey crypto token = some (crypto.deriveNodeSigningKey s.secret) := by
  rw [encrypt] at h
  split at h
  · rename_i key' token' hkey htoken
    cases h
    obtain ⟨hne, hback⟩ := hcrypto _ _ _ hkey
    obtain ⟨-, htokenBack⟩ := hcrypto _ _ _ htoken
    exact ⟨hne, hback, by rw [tokenKey, htokenBack]; rfl⟩
  · cases h

/-- The key of a row is the one issued together with its token. -/
def Node.Paired (crypto : Crypto) (row : Node) : Prop :=
  ∀ token key, row.onboardingTokenEncrypted = some token → effectiveKey crypto row = some key →
    tokenKey crypto token = some key

/-- Every stored token has its key. -/
def TokensPaired (crypto : Crypto) (db : Db) : Prop :=
  ∀ row ∈ db.nodes.rows, row.Paired crypto

/-- The request of the node is signed with the key. -/
def SignedRequest.SignedWith (crypto : Crypto) (request : SignedRequest) (nodeId key : String) :
    Prop :=
  ∃ timestamp ∈ request.timestamp, ∃ nonce ∈ request.nonce, ∃ signature ∈ request.signature,
    crypto.signNodeRequest key nodeId timestamp nonce (crypto.hashRequestBody request.body) =
      signature

instance (crypto : Crypto) (request : SignedRequest) (nodeId key : String) :
    Decidable (request.SignedWith crypto nodeId key) :=
  inferInstanceAs (Decidable (∃ _ ∈ _, ∃ _ ∈ _, ∃ _ ∈ _, _))

/-! ## Operations -/

/-- The operations about secrets.  A request of a node other than a heartbeat is only
authenticated. -/
inductive SecretOp where
  | create (payload : NodeCreateRequest) (secret : NewSecret) (admin : Admin) (now : Nat)
  | reset (nodeId : String) (secret : NewSecret) (admin : Admin) (now : Nat)
  | regenerate (nodeId : String) (secret : NewSecret) (admin : Admin) (now : Nat)
  | authenticate (nodeId : String) (request : SignedRequest) (random : String) (now : Nat)
  | heartbeat (nodeId : String) (request : SignedRequest) (random : String)
      (authenticatedAt : Nat) (payload : Option HeartbeatRequest) (now : Nat)

/-- The program of an operation. -/
def SecretOp.code (settings : Settings) (crypto : Crypto) : SecretOp → Tx Unit
  | create payload secret admin now => do
      let _ ← createNode crypto payload secret admin now
  | reset nodeId secret admin now => do
      let _ ← resetNodeSecret crypto nodeId secret admin now
  | regenerate nodeId secret admin now => do
      let _ ← regenerateNodeOnboarding crypto nodeId secret admin now
  | authenticate nodeId request random now => do
      let _ ← authenticateNode settings crypto { request with nodeId := some nodeId } random now
  | heartbeat nodeId request random authenticatedAt payload now =>
      (NodeOp.heartbeat request random authenticatedAt payload now).code settings crypto nodeId

/-- What an operation executes, when `first` is the database of its first statement. -/
inductive SecretOp.Writes (crypto : Crypto) : SecretOp → Db → Dml → Prop where
  | insert {op : SecretOp} {first : Db} {row : Node} {secret : NewSecret} {key token : String}
      (h : secret.encrypt crypto = .ok (key, token)) (hkey : row.encryptedSigningKey = some key)
      (htoken : row.onboardingTokenEncrypted = some token) :
      Writes crypto op first (.node (.insert row))
  | renew {op : SecretOp} {first : Db} {secret : NewSecret} {nodeId key token nowIso : String}
      (h : secret.encrypt crypto = .ok (key, token)) :
      Writes crypto op first (.node (.setSecret nodeId key token nowIso))
  /-- The key that was read is encrypted anew. -/
  | setKey {op : SecretOp} {first : Db} {row : Node} {renewed nowIso : String}
      (hrow : row ∈ first.nodes.rows)
      (h : ∀ row' : Node, row'.encryptedSigningKey = some renewed →
        effectiveKey crypto row' = effectiveKey crypto row) :
      Writes crypto op first (.node (.setEncryptedKey row.id renewed nowIso))
  /-- The request is signed with the key that was read. -/
  | touch {first : Db} {row : Node} {nodeId key random nowIso bootId : String}
      {request : SignedRequest} {authenticatedAt now interval : Nat}
      {payload : Option HeartbeatRequest} {hostname : Option String}
      (hrow : first.nodes.get? nodeId = some row) (hkey : effectiveKey crypto row = some key)
      (hsigned : request.SignedWith crypto nodeId key) :
      Writes crypto (.heartbeat nodeId request random authenticatedAt payload now) first
        (.node (.touch nodeId hostname interval nowIso bootId))
  | aside {op : SecretOp} {first : Db} {q : Dml} (h : q.writesSecret = false) :
      Writes crypto op first q

section Follows

variable {settings : Settings} {crypto : Crypto} {op : SecretOp} {nodeId : String} {first : Db}
  {α : Type}

/-- A quiet part of an operation, after the first read. -/
theorem Quiet.follows {p : Tx α} (hp : Quiet p) :
    p.Follows (op.Writes crypto) (fun _ o => o = some first) (some first) :=
  (Prog.Follows.of_avoids hp (fun _ _ hq => .aside (by simpa using hq)) first).mono
    fun _ _ ho => ho.2

/-- Such a part at the end of an operation. -/
theorem Quiet.follows_last {p : Tx α} (hp : Quiet p) :
    p.Follows (op.Writes crypto) (fun _ _ => True) (some first) :=
  hp.follows.mono fun _ _ _ => trivial

theorem ofExcept_follows_secret {r : Except Exc α} {o : Option Db} :
    (ofExcept r).Follows (op.Writes crypto) (fun a o' => r = .ok a ∧ o' = o) o := by
  cases r with
  | error e => trivial
  | ok a => exact ⟨rfl, rfl⟩

/-- The key of a node is the one in its row. -/
theorem nodeSigningKey_follows (hcrypto : crypto.Inverts) {row : Node}
    (hrow : row ∈ first.nodes.rows) (random nowIso : String) :
    (nodeSigningKey crypto row nodeId random nowIso).Follows (op.Writes crypto)
      (fun key o => effectiveKey crypto row = some key ∧ o = some first) (some first) := by
  have hkey (key : String) (e : Exc) (hrow : effectiveKey crypto row = (some key).filter (· ≠ "")) :
      (if key = "" then .raise e else pure key : Tx String).Follows (op.Writes crypto)
        (fun key o => effectiveKey crypto row = some key ∧ o = some first) (some first) := by
    split
    · trivial
    · exact ⟨by simp [*], rfl⟩
  unfold nodeSigningKey
  cases hsome : row.encryptedSigningKey.filter (· ≠ "") with
  | none =>
      refine hkey _ _ ?_
      rw [effectiveKey, hsome]
      cases row.nodeSigningKey <;> rfl
  | some encrypted =>
      cases hdec : crypto.decryptNodeSigningKey encrypted with
      | none =>
          simp only [hdec]
          trivial
      | some decrypted =>
          obtain ⟨signingKey, legacy⟩ := decrypted
          have heff : effectiveKey crypto row = (some signingKey).filter (· ≠ "") := by
            simp only [effectiveKey, hsome, hdec, Option.map_some]
          cases legacy with
          | false =>
              simp only [hdec]
              exact hkey _ _ heff
          | true =>
              cases henc : crypto.encryptNodeSigningKey random signingKey with
              | none =>
                  simp only [hdec, henc, if_true]
                  trivial
              | some renewed =>
                  obtain ⟨hne, hback⟩ := hcrypto random signingKey renewed henc
                  simp only [hdec, henc, if_true, Prog.execute_bind, Prog.pure_eq, Prog.ret_bind]
                  refine fun s => ⟨.setKey hrow fun row' hrow' => ?_, hkey _ _ heff⟩
                  have hfilter : row'.encryptedSigningKey.filter (· ≠ "") = some renewed := by
                    simp [hrow', hne]
                  rw [heff]
                  simp only [effectiveKey, hfilter, hback, Option.map_some]

/-- Authentication returns the row it read first, and the request is signed with its key. -/
theorem authenticateNode_signed (hcrypto : crypto.Inverts) (request : SignedRequest)
    (random : String) (now : Nat) :
    (authenticateNode settings crypto { request with nodeId := some nodeId } random now).Follows
      (op.Writes crypto)
      (fun row o => ∃ first key, o = some first ∧ first.nodes.get? nodeId = some row ∧
        effectiveKey crypto row = some key ∧ request.SignedWith crypto nodeId key) none := by
  unfold authenticateNode
  split
  · rename_i id timestamp nonce signature hid htimestamp hnonce hsignature
    obtain rfl : nodeId = id := Option.some.inj (Option.filter_eq_some_iff.mp hid).1
    generalize parseTimestamp timestamp = parsed, checkSkew settings now = skew
    refine ofExcept_follows_secret.bind ?_
    rintro requestTime _ ⟨-, rfl⟩
    refine ofExcept_follows_secret.bind ?_
    rintro _ _ ⟨-, rfl⟩
    intro first
    simp only [Prog.bind]
    cases hrow : (first.nodes.get? nodeId).filter Node.isEnabled with
    | none => trivial
    | some row =>
        have hget := (Option.filter_eq_some_iff.mp hrow).1
        refine (nodeSigningKey_follows hcrypto (Table.get?_mem hget) random _).bind ?_
        rintro key _ ⟨hkey, rfl⟩
        refine ofExcept_follows_secret.bind ?_
        rintro valid _ ⟨hvalid, rfl⟩
        cases valid with
        | false => trivial
        | true =>
            have hsigned : request.SignedWith crypto nodeId key := by
              refine ⟨timestamp, (Option.filter_eq_some_iff.mp htimestamp).1, nonce,
                (Option.filter_eq_some_iff.mp hnonce).1, signature,
                (Option.filter_eq_some_iff.mp hsignature).1, ?_⟩
              rw [verifyNodeRequestSignature] at hvalid
              split at hvalid
              · cases hvalid
              · simpa using hvalid
            refine (storeRequest_quiet settings nodeId timestamp nonce now).follows.bind ?_
            rintro _ _ rfl
            exact ⟨first, key, rfl, hget, hkey, hsigned⟩
  · trivial

/-- The renewal of a secret. -/
theorem renewSecret_follows (action : String) (secret : NewSecret) (admin : Admin) (now : Nat) :
    (renewSecret crypto action nodeId secret admin now).Follows (op.Writes crypto)
      (fun _ _ => True) none := by
  unfold renewSecret
  refine ofExcept_follows_secret.bind ?_
  rintro ⟨key, token⟩ _ ⟨hencrypt, rfl⟩
  have hfind : Quiet (findNode nodeId) := by
    refine quiet_query.bind fun row => ?_
    cases row <;> trivial
  intro first
  simp only [Prog.bind]
  cases first.nodes.get? nodeId with
  | none => trivial
  | some row =>
      refine (Prog.follows_execute (.renew hencrypt)).bind ?_
      rintro _ _ rfl
      exact ((quiet_execute rfl).bind fun _ => hfind).follows_last

/-- An operation executes what `SecretOp.Writes` says. -/
theorem SecretOp.code_follows (hcrypto : crypto.Inverts) (op : SecretOp) :
    (op.code settings crypto).Follows (op.Writes crypto) (fun _ _ => True) none := by
  cases op with
  | create payload secret admin now =>
      refine Prog.Follows.bind_ret ?_ _
      unfold createNode
      refine ofExcept_follows_secret.bind ?_
      rintro ⟨key, token⟩ _ ⟨hencrypt, rfl⟩
      intro first
      simp only [Prog.bind]
      split
      · trivial
      · refine (Prog.follows_executeReturning (.insert hencrypt rfl rfl)).bind ?_
        rintro conflict _ rfl
        split
        · trivial
        · refine Quiet.follows_last ?_
          refine (quiet_execute rfl).bind fun _ => quiet_query.bind fun row => ?_
          cases row <;> trivial
  | reset nodeId secret admin now | regenerate nodeId secret admin now =>
      exact Prog.Follows.bind_ret (renewSecret_follows _ secret admin now) _
  | authenticate nodeId request random now =>
      exact Prog.Follows.bind_ret
        ((authenticateNode_signed hcrypto request random now).mono fun _ _ _ => trivial) _
  | heartbeat nodeId request random authenticatedAt payload now =>
      refine (authenticateNode_signed hcrypto request random authenticatedAt).bind ?_
      rintro row _ ⟨first, key, rfl, hrow, hkey, hsigned⟩
      cases payload with
      | none => trivial
      | some payload =>
          show (GpuFleet.heartbeat settings.maxStatusHistoryPerNode nodeId row payload now >>=
            fun _ => pure ()).Follows _ _ _
          refine Prog.Follows.bind_ret ?_ _
          obtain ⟨rest, hrest, heq⟩ := heartbeat_quiet settings.maxStatusHistoryPerNode nodeId row
            payload now
          rw [heq]
          refine (Quiet.follows (quiet_execute rfl)).bind ?_
          rintro _ _ rfl
          refine (Prog.follows_execute (.touch hrow hkey hsigned)).bind ?_
          rintro _ _ rfl
          exact hrest.follows_last

end Follows

/-! ## Runs -/

/-- A configuration of operations about secrets. -/
abbrev SecretConf := Conf SecretOp Dml Db World Exc Unit

/-- The statement clears the token of the row, or encrypts its key anew. -/
def Dml.answersFor (q : Dml) (row : Node) : Bool :=
  match q with
  | .node (.touch nodeId ..) => row.nodeId = nodeId
  | .node (.setEncryptedKey id ..) => row.id = id
  | _ => false

/-- A token in a row that a request writes to was there when the request read the row. -/
def Undisturbed (c : SecretConf) (a : Act SecretOp Exc) : Prop :=
  ∀ q s, c.about a = some (q, s) → ∀ row ∈ (s.view c.db).nodes.rows, q.answersFor row = true →
    row.onboardingTokenEncrypted = none ∨
      ∃ first ∈ (s.seen.getD (s.view c.db)).nodes.rows, first.id = row.id ∧
        first.nodeId = row.nodeId ∧
        first.onboardingTokenEncrypted = row.onboardingTokenEncrypted

instance (c : SecretConf) (a : Act SecretOp Exc) : Decidable (Undisturbed c a) :=
  match h : c.about a with
  | none => isTrue fun q s hq => by rw [h] at hq; cases hq
  | some (q, s) =>
      decidable_of_iff (∀ row ∈ (s.view c.db).nodes.rows, q.answersFor row = true →
        row.onboardingTokenEncrypted = none ∨
          ∃ first ∈ (s.seen.getD (s.view c.db)).nodes.rows, first.id = row.id ∧
            first.nodeId = row.nodeId ∧
            first.onboardingTokenEncrypted = row.onboardingTokenEncrypted)
        ⟨fun hall q' s' hq => by rw [h] at hq; cases hq; exact hall, fun hall => hall q s h⟩

/-- A token that the action clears is cleared by a heartbeat that was signed with the key issued
together with it. -/
def ConsumedByOwnKey (crypto : Crypto) (c : SecretConf) (a : Act SecretOp Exc) : Prop :=
  ∀ nodeId hostname interval nowIso bootId s row token,
    c.about a = some (.node (.touch nodeId hostname interval nowIso bootId), s) →
      (s.view c.db).nodes.get? nodeId = some row → row.onboardingTokenEncrypted = some token →
        ∃ request random authenticatedAt payload now key,
          s.tag = .heartbeat nodeId request random authenticatedAt payload now ∧
            tokenKey crypto token = some key ∧ request.SignedWith crypto nodeId key

section Runs

variable {settings : Settings} {crypto : Crypto} {op : SecretOp} {first db : Db}

/-- A row that is neither given a key nor a token stays paired. -/
theorem Node.Paired.of_eq {row row' : Node} (h : row.Paired crypto)
    (htoken : row'.onboardingTokenEncrypted = row.onboardingTokenEncrypted)
    (hkey : effectiveKey crypto row' = effectiveKey crypto row) : row'.Paired crypto := by
  intro token key htoken' hkey'
  exact h token key (htoken ▸ htoken') (hkey ▸ hkey')

/-- A row with the key and the token of a new secret is paired. -/
theorem NewSecret.paired (hcrypto : crypto.Inverts) {s : NewSecret} {key token : String}
    (h : s.encrypt crypto = .ok (key, token)) {row : Node}
    (hkey : row.encryptedSigningKey = some key)
    (htoken : row.onboardingTokenEncrypted = some token) : row.Paired crypto := by
  obtain ⟨hne, hback, hissued⟩ := NewSecret.tokenKey_encrypt hcrypto h
  intro token' key' htoken' hkey'
  obtain rfl : token = token' := Option.some.inj (htoken.symm.trans htoken')
  have hfilter : row.encryptedSigningKey.filter (· ≠ "") = some key := by
    simp [hkey, hne]
  simp only [effectiveKey, hfilter, hback, Option.map_some] at hkey'
  rw [hissued, (Option.filter_eq_some_iff.mp hkey').1]

/-- An operation keeps tokens and keys together, if a request that encrypts a key anew finds the
token that it read. -/
theorem SecretOp.Writes.tokensPaired (hcrypto : crypto.Inverts) {q : Dml}
    (h : op.Writes crypto first q) (hfirst : TokensPaired crypto first)
    (hfound : ∀ row ∈ db.nodes.rows, q.answersFor row = true →
      row.onboardingTokenEncrypted = none ∨
        ∃ old ∈ first.nodes.rows, old.id = row.id ∧ old.nodeId = row.nodeId ∧
          old.onboardingTokenEncrypted = row.onboardingTokenEncrypted)
    (hdb : TokensPaired crypto db) : TokensPaired crypto (Statement.apply q db) := by
  by_cases hnode : ∃ n, q = .node n
  · obtain ⟨n, rfl⟩ := hnode
    intro row' hrow'
    rw [apply_nodes_node] at hrow'
    rcases NodeStmt.mem_apply_cases hrow' with ⟨row, hrow, rfl⟩ | ⟨row, hrow, hsel, rfl⟩ |
      ⟨row, hinsert, rfl⟩
    · exact hdb row' hrow
    · cases h with
      | insert hencrypt hkey htoken => exact hdb row hrow
      | renew hencrypt => exact NewSecret.paired hcrypto hencrypt rfl rfl
      | touch hold hkey hsigned =>
          intro token key htoken
          cases htoken
      | @setKey _ _ old renewed nowIso hold hkey =>
          have hid : row.id = old.id := of_decide_eq_true hsel
          rcases hfound row hrow hsel with hnone | ⟨old', hold', hid', -, htoken⟩
          · intro token key htoken
            rw [show (NodeStmt.setEncryptedKey old.id renewed nowIso).edit row =
              { row with encryptedSigningKey := some renewed, updatedAt := nowIso } from rfl] at htoken
            rw [hnone] at htoken
            cases htoken
          · obtain rfl : old' = old := Table.eq_of_id hold' hold (hid'.trans hid)
            exact (hfirst old' hold').of_eq htoken.symm (hkey _ rfl)
      | aside hquiet =>
          cases n with
          | insert new => exact hdb row hrow
          | touch | setEncryptedKey | setSecret => simp [Dml.writesSecret] at hquiet
          | setRequestTs | setSettings | setEnabled => exact (hdb row hrow).of_eq rfl rfl
    · subst hinsert
      cases h with
      | insert hencrypt hkey htoken => exact NewSecret.paired hcrypto hencrypt hkey htoken
      | aside hquiet => simp [Dml.writesSecret] at hquiet
  · intro row hrow
    rw [apply_nodes db fun n e => hnode ⟨n, e⟩] at hrow
    exact hdb row hrow

/-- What every run keeps in which no request is disturbed. -/
structure Issuing (crypto : Crypto) (c : SecretConf) : Prop where
  following : Conf.Following (SecretOp.Writes crypto) c
  paired : c.Everywhere (TokensPaired crypto)
  /-- A token that an operation read first has its key, too. -/
  seen : ∀ (i : Nat) s, c.sessions[i]? = some s → ∀ first ∈ s.seen, TokensPaired crypto first

theorem issuing_init {x : World} (hdb : TokensPaired crypto db) :
    Issuing crypto (Conf.init db x) where
  following := Conf.following_init db x
  paired := Conf.everywhere_init x hdb
  seen i s hs := by simp [Conf.init] at hs

/-- What a session about to write read first has its keys. -/
theorem Issuing.readFirst {c : SecretConf} (hc : Issuing crypto c) {i : Nat}
    {s : Session SecretOp Dml Db World Exc Unit} (hs : c.sessions[i]? = some s) :
    TokensPaired crypto (s.seen.getD (s.view c.db)) := by
  cases hseen : s.seen with
  | none => exact hc.paired.view hs
  | some first => exact hc.seen i s hs first hseen

theorem Issuing.step (hcrypto : crypto.Inverts) {c c' : SecretConf} {a : Act SecretOp Exc}
    (hc : Issuing crypto c) (ha : Undisturbed c a) (h : c.step (SecretOp.code settings crypto) a = some c') :
    Issuing crypto c' where
  following := hc.following.step (fun op => SecretOp.code_follows hcrypto op) h
  paired := hc.paired.step _ h fun q s habout hview => by
    obtain ⟨i, k, rfl, hs, -, -⟩ := Conf.about_some habout
    exact (hc.following.about habout).tokensPaired hcrypto (hc.readFirst hs) (ha q s habout) hview
  seen := by
    refine Conf.forall_sessions_step _ h (J := fun _ s => ∀ first ∈ s.seen, TokensPaired crypto first)
      hc.seen (fun t first hfirst => by cases hfirst) ?_ ?_
    · intro i s db' x s' _ hs _ hmove
      cases hmove with
      | ret _ | raise _ | io _ | commit _ | fail => exact hc.seen i s hs
      | select _ | write _ _ =>
          intro first hfirst
          cases hfirst
          exact hc.readFirst hs
    · intro i s db' x s' j t _ _ _ ht
      exact hc.seen j t ht

/-- In every run in which the rows that requests write to hold no token that replaced the one the
request read, each token is consumed by a heartbeat that was signed with the key issued together
with it. -/
theorem consumed_by_own_key (hcrypto : crypto.Inverts) (hdb : TokensPaired crypto db) {x : World}
    {as : List (Act SecretOp Exc)} {a : Act SecretOp Exc} {c : SecretConf}
    (hm : Conf.Meets (SecretOp.code settings crypto) Undisturbed (Conf.init db x) (as ++ [a]))
    (h : (Conf.init db x : SecretConf).run (SecretOp.code settings crypto) as = some c) :
    ConsumedByOwnKey crypto c a := by
  obtain ⟨hbefore, hlast, -⟩ := hm.of_append _ h
  obtain ⟨hc, -⟩ := Conf.run_rel _ (I := Issuing crypto) (R := fun _ _ => True) (fun _ => trivial)
    (fun _ _ => trivial) (fun c a c' hc ha hstep => ⟨hc.step hcrypto ha hstep, trivial⟩) h hbefore
    (issuing_init hdb)
  intro nodeId hostname interval nowIso bootId s row token habout hrow htoken
  obtain ⟨i, k, rfl, hs, -, -⟩ := Conf.about_some habout
  have hwrites := hc.following.about habout
  generalize htag : s.tag = op at hwrites
  cases hwrites with
  | @touch _ old _ key random _ _ request authenticatedAt now _ payload _ hold hkey hsigned =>
      refine ⟨request, random, authenticatedAt, payload, now, key, rfl, ?_, hsigned⟩
      have hid : row.nodeId = nodeId := Table.get?_key hrow
      rcases hlast _ s habout row (Table.get?_mem hrow) (decide_eq_true hid) with
        hnone | ⟨old', hold', -, hid', htoken'⟩
      · rw [hnone] at htoken
        cases htoken
      · have hfound := Table.get?_of_mem hold'
        rw [show Row.key old' = nodeId from hid'.trans hid, hold] at hfound
        cases hfound
        exact hc.readFirst hs old hold' token key (htoken'.trans htoken) hkey
  | aside hquiet => simp [Dml.writesSecret] at hquiet

end Runs

/-! ## Concrete data -/

/-- A text that is encrypted with a label. -/
def labelCrypto : Crypto :=
  { plainCrypto with
    encryptNodeSigningKey := fun _ text => some (String.ofList ('v' :: text.toList))
    decryptNodeSigningKey := fun text => match text.toList with
      | 'v' :: rest => some ⟨String.ofList rest, false⟩
      | _ => none }

theorem labelCrypto_inverts : labelCrypto.Inverts := by
  intro random text encrypted h
  obtain rfl := Option.some.inj h
  constructor
  · intro hempty
    have := congrArg String.toList hempty
    simp at this
  · simp [labelCrypto]

/-- A node with a token, and the key issued together with it. -/
def issuedDb : Db where
  nodes := oneNodeDb.nodes.update (fun _ => true) (fun row =>
    { row with
      nodeSigningKey := some ""
      encryptedSigningKey := some "vold"
      onboardingTokenEncrypted := some "vold" }) (fun _ => rfl) fun _ => rfl

theorem issuedDb_paired : TokensPaired labelCrypto issuedDb := by
  intro row hrow token key htoken hkey
  obtain rfl := List.mem_singleton.mp (show row ∈ [_] from hrow)
  obtain rfl : "vold" = token := Option.some.inj htoken
  have hold : some "old" = some key := hkey
  exact hold

/-- A heartbeat, authenticated and about to take the write lock. -/
def authenticated : List (Act SecretOp Exc) :=
  .spawn (.heartbeat "n" (buildHeaders labelCrypto "n" "old" "{}" "a" 0) "" 0
    (some { bootId := "b" }) 0) :: List.replicate 4 (.turn 0)

/-- The heartbeat consumes the token that comes with its key. -/
theorem consumed_by_own_key_alone :
    ∃ c : SecretConf, (Conf.init issuedDb {}).run (SecretOp.code {} labelCrypto)
        (authenticated ++ [.turn 0]) = some c ∧ ConsumedByOwnKey labelCrypto c (.turn 0) := by
  have hruns : ((Conf.init issuedDb {} : SecretConf).run (SecretOp.code {} labelCrypto)
      (authenticated ++ [.turn 0])).isSome = true := by
    decide +kernel
  obtain ⟨c, hc⟩ := Option.isSome_iff_exists.mp hruns
  exact ⟨c, hc, consumed_by_own_key labelCrypto_inverts issuedDb_paired (by decide +kernel) hc⟩

/-- The action clears a token with a request that is not signed with its key. -/
def consumesOther (crypto : Crypto) (c : SecretConf) (a : Act SecretOp Exc) : Bool :=
  match c.about a with
  | some (.node (.touch nodeId ..), s) =>
      match s.tag, ((s.view c.db).nodes.get? nodeId).bind Node.onboardingTokenEncrypted with
      | .heartbeat _ request .., some token =>
          !(tokenKey crypto token).any fun key => request.SignedWith crypto nodeId key
      | _, _ => false
  | _ => false

theorem not_consumedByOwnKey {crypto : Crypto} {c : SecretConf} {a : Act SecretOp Exc}
    (h : consumesOther crypto c a = true) : ¬ ConsumedByOwnKey crypto c a := by
  intro hown
  rw [consumesOther] at h
  split at h
  · rename_i nodeId _ _ _ _ s habout
    split at h
    · rename_i request _ _ _ _ token htag htoken
      obtain ⟨row, hrow, htoken⟩ := Option.bind_eq_some_iff.mp htoken
      obtain ⟨request', _, _, _, _, key, htag', hkey, hsigned⟩ :=
        hown nodeId _ _ _ _ s row token habout hrow htoken
      rw [htag] at htag'
      cases htag'
      simp [hkey, hsigned] at h
    · cases h
  · cases h

/-- The secret of the node is replaced before the update of a heartbeat that was authenticated, and
the heartbeat clears the new token. -/
theorem oldKey_consumes :
    ¬ ∀ (settings : Settings) (crypto : Crypto) (db : Db) (x : World) (as : List (Act SecretOp Exc))
      (a : Act SecretOp Exc) (c : SecretConf), crypto.Inverts → TokensPaired crypto db →
        (Conf.init db x : SecretConf).run (SecretOp.code settings crypto) as = some c →
          ConsumedByOwnKey crypto c a := by
  intro h
  have hruns : ((Conf.init issuedDb {} : SecretConf).run (SecretOp.code {} labelCrypto)
      (authenticated ++ .spawn (.regenerate "n" ⟨"new", "", ""⟩ ⟨1, "a"⟩ 0) ::
        List.replicate 5 (.turn 1) ++ [.turn 0])).any
          (fun c => consumesOther labelCrypto c (.turn 0)) = true := by
    decide +kernel
  obtain ⟨c, hc, hother⟩ := (Option.any_eq_true ..).mp hruns
  exact not_consumedByOwnKey hother
    (h {} labelCrypto issuedDb {} _ _ c labelCrypto_inverts issuedDb_paired hc)

end GpuFleet
