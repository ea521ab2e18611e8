import GpuFleet.Foundations.Rely
import GpuFleet.Server.Auth

/-!
# Administrators' sessions

Logging in, refreshing a pair of tokens and logging out.  A token is its
payload; a text whose signature does not verify is refused before anything else
and left out.  A logout stores a mark, and a token issued no later than the
second of the mark is refused from then on.

The requests run interleaved, a statement at a time, under a clock that only
advances, and `AuthWorld.minted` records every token with the one it was
refreshed from.  A refresh checks its token before it mints the new ones, and a
logout reads the clock before it stores the mark, so a token that is minted in
between can outlive the mark.

A mark refuses the tokens issued up to the second in which its logout read the
clock (`refuses_utcNowIso`).  So nothing outlives a logout in a run whose
refreshes mint in time and whose logouts commit in time, as the seconds of the
clock readings tell (`logout_revokes`).

Rate limits are left out, and a password is verified by a given function.
-/

namespace GpuFleet

open Foundations

/-! ## Accounts -/

/-- A row of `admins`. -/
structure AdminAccount where
  id : Nat
  username : String
  passwordHash : String
  isActive : Bool
  updatedAt : String
  lastLoginAt : Option String := none
  tokensInvalidatedAt : Option String := none

instance : Row AdminAccount := ⟨String, AdminAccount.id, AdminAccount.username⟩

/-- Statements on `admins`. -/
inductive AdminStmt where
  /-- `SET last_login_at, updated_at WHERE id`. -/
  | setLastLogin (id : Nat) (nowIso : String)
  /-- `SET tokens_invalidated_at, updated_at WHERE id`. -/
  | setInvalidated (id : Nat) (nowIso : String)

/-- The row an `UPDATE` changes. -/
def AdminStmt.rowId : AdminStmt → Nat
  | setLastLogin id _ => id
  | setInvalidated id _ => id

/-- What an `UPDATE` does to the row. -/
def AdminStmt.edit : AdminStmt → AdminAccount → AdminAccount
  | setLastLogin _ nowIso, row => { row with lastLoginAt := some nowIso, updatedAt := nowIso }
  | setInvalidated _ nowIso, row =>
      { row with tokensInvalidatedAt := some nowIso, updatedAt := nowIso }

theorem AdminStmt.edit_id (q : AdminStmt) (row : AdminAccount) : (q.edit row).id = row.id := by
  cases q <;> rfl

theorem AdminStmt.edit_username (q : AdminStmt) (row : AdminAccount) :
    (q.edit row).username = row.username := by
  cases q <;> rfl

instance : Statement AdminStmt (Table AdminAccount) :=
  ⟨fun q db => db.update (fun row => row.id = q.rowId) q.edit q.edit_id q.edit_username⟩

/-! ## Tokens -/

/-- The `type` in the payload of a token. -/
inductive TokenType where
  | access | refresh
  deriving DecidableEq, Repr

/-- The payload of a token. -/
structure Token where
  sub : String
  type : TokenType
  iat : Int
  exp : Int
  deriving DecidableEq

/-- A token as it was minted, with the one it was refreshed from. -/
structure Minted where
  token : Token
  parent : Option Token

/-- What the requests act on outside the database. -/
structure AuthWorld where
  /-- The clock, in microseconds. -/
  clock : Nat
  /-- The tokens minted so far, newest first. -/
  minted : List Minted := []
  events : List WebhookEvent := []

/-- A request on the table of the administrators. -/
abbrev AuthTx (α : Type) := Prog AdminStmt (Table AdminAccount) AuthWorld Exc α

/-- How long tokens live. -/
structure AuthSettings where
  accessTokenExpireMinutes : Nat := 60
  refreshTokenExpireMinutes : Nat := 60 * 24 * 7

/-- What is checked outside the program: that the times in a token are met, and a password. -/
structure AuthChecks where
  /-- `jwt.decode` accepts the times of a token at a clock reading. -/
  timely : Nat → Token → Bool
  /-- `verify_password` -/
  verifyPassword : String → String → Bool

/-- The beginning of 1970 as a clock reading. -/
def unixEpoch : Int := 62135596800 * 1000000

/-- `int(moment.timestamp())` -/
def timestamp (moment : Int) : Int := (moment - unixEpoch).tdiv 1000000

/-- The payload of `create_token`. -/
def newToken (subject : String) (type : TokenType) (expiresMinutes now : Nat) : Token where
  sub := subject
  type := type
  iat := timestamp now
  exp := timestamp (now + expiresMinutes * 60 * 1000000 : Nat)

/-- `create_token` -/
def createToken (subject : String) (type : TokenType) (expiresMinutes : Nat)
    (parent : Option Token) : AuthTx Token :=
  let token := newToken subject type expiresMinutes
  .io (fun x => { x with minted := ⟨token x.clock, parent⟩ :: x.minted }) fun x =>
    .ret (token x.clock)

/-- `_token_invalidated` -/
def tokenInvalidated (iat : Int) (tokensInvalidatedAt : Option String) : Except Exc Bool :=
  match tokensInvalidatedAt.filter (· ≠ "") with
  | none => .ok false
  | some raw => (parseMoment (replaceZ raw)).map fun moment => iat ≤ timestamp moment

/-! ## Requests -/

section Requests

variable (settings : AuthSettings) (checks : AuthChecks)

/-- `datetime.now(timezone.utc)` -/
def readClock : AuthTx Nat := .io id fun x => .ret x.clock

/-- Leave the `with` block. -/
def closeConnection : AuthTx Unit := .commit (.ret ())

/-- Go on with a result or raise its exception. -/
def liftExcept {α : Type} : Except Exc α → AuthTx α
  | .ok a => .ret a
  | .error e => .raise e

/-- The common part of `refresh` and `get_current_admin`: the row of the administrator whose token
of the expected type it is. -/
def presentToken (expected : TokenType) (invalid revoked : Exc) (token : Token) :
    AuthTx AdminAccount := do
  let now ← readClock
  if !checks.timely now token || token.type ≠ expected then .raise invalid
  else
    let admin ← Prog.query fun db => (db.get? token.sub).filter AdminAccount.isActive
    closeConnection
    match admin with
    | none => .raise (unauthorized "ERR_AUTH_ADMIN_NOT_FOUND" "Admin account not found")
    | some admin =>
        let invalidated ← liftExcept (tokenInvalidated token.iat admin.tokensInvalidatedAt)
        if invalidated then .raise revoked else pure admin

/-- `get_current_admin` -/
def getCurrentAdmin (token : Token) : AuthTx AdminAccount :=
  presentToken checks .access (unauthorized "ERR_AUTH_INVALID_TOKEN" "Invalid access token")
    (unauthorized "ERR_AUTH_TOKEN_REVOKED" "Access token has been invalidated") token

/-- What a login and a refresh answer, less the constant `token_type`. -/
structure TokenPair where
  accessToken : Token
  refreshToken : Token

/-- The pair of tokens at the end of `login` and `refresh`. -/
def createTokens (username : String) (parent : Option Token) : AuthTx TokenPair := do
  let accessToken ← createToken username .access settings.accessTokenExpireMinutes parent
  let refreshToken ← createToken username .refresh settings.refreshTokenExpireMinutes parent
  pure ⟨accessToken, refreshToken⟩

/-- `login` -/
def login (username password remoteAddr : String) : AuthTx TokenPair := do
  let found ← Prog.query fun db => (db.get? username).filter AdminAccount.isActive
  match found.filter fun admin => checks.verifyPassword password admin.passwordHash with
  | none =>
      let reason := if found.isNone then "admin_not_found" else "wrong_password"
      Prog.effect fun x =>
        { x with
          events := x.events ++ [⟨"admin.login_failed",
            .obj [("username", .str username), ("remote_addr", .str remoteAddr),
              ("reason", .str reason)], "warning"⟩] }
      .raise (unauthorized "ERR_AUTH_INVALID_CREDENTIALS" "Invalid username or password")
  | some admin =>
      let now ← readClock
      Prog.execute (.setLastLogin admin.id (utcNowIso now))
      closeConnection
      createTokens settings username none

/-- `refresh` -/
def refresh (token : Token) : AuthTx TokenPair := do
  let _ ← presentToken checks .refresh
    (unauthorized "ERR_AUTH_INVALID_REFRESH_TOKEN" "Invalid refresh token")
    (unauthorized "ERR_AUTH_REFRESH_REVOKED" "Refresh token has been invalidated") token
  createTokens settings token.sub (some token)

/-- `logout`, with its clock reading. -/
def logout (token : Token) : AuthTx Nat := do
  let admin ← getCurrentAdmin checks token
  let now ← readClock
  Prog.execute (.setInvalidated admin.id (utcNowIso now))
  pure now

/-- The requests, and the passing of time. -/
inductive AuthOp where
  | login (username password remoteAddr : String)
  | refresh (token : Token)
  | logout (token : Token)
  /-- `me`, and any other request of an administrator. -/
  | me (token : Token)
  | tick (micros : Nat)
  deriving DecidableEq

/-- What a request answers. -/
inductive AuthReply where
  | tokens (pair : TokenPair)
  /-- `{"ok": true}`; the clock reading of the logout is not sent. -/
  | loggedOut (readAt : Nat)
  | profile (admin : AdminAccount)
  | ticked

/-- The program of a request. -/
def AuthOp.code : AuthOp → AuthTx AuthReply
  | login username password remoteAddr =>
      GpuFleet.login settings checks username password remoteAddr >>= fun pair =>
        pure (.tokens pair)
  | refresh token => GpuFleet.refresh settings checks token >>= fun pair => pure (.tokens pair)
  | logout token => GpuFleet.logout checks token >>= fun readAt => pure (.loggedOut readAt)
  | me token => getCurrentAdmin checks token >>= fun admin => pure (.profile admin)
  | tick micros => .io (fun x => { x with clock := x.clock + micros }) fun _ => .ret .ticked

/-- The token a request comes with. -/
def AuthOp.presents : AuthOp → Option Token
  | refresh token | logout token | me token => some token
  | _ => none

end Requests

/-! ## What a request promises -/

/-- Accounts keep their ids. -/
def SameIds (db db' : Table AdminAccount) : Prop :=
  ∀ username : String,
    (db'.get? username).map AdminAccount.id = (db.get? username).map AdminAccount.id

theorem SameIds.refl (db : Table AdminAccount) : SameIds db db := fun _ => rfl

theorem SameIds.trans {s t u : Table AdminAccount} (h : SameIds s t) (h' : SameIds t u) :
    SameIds s u :=
  fun username => (h' username).trans (h username)

/-- The mark of an account. -/
def markOf (username : String) (db : Table AdminAccount) : Option String :=
  (db.get? username).bind AdminAccount.tokensInvalidatedAt

/-- What a request commits: the marks stay, except that a logout sets that of its account when it
returns, to the text of its clock reading. -/
structure Commits (op : AuthOp) (reply : Option AuthReply) (db db' : Table AdminAccount) : Prop where
  ids : SameIds db db'
  marks : ∀ username, markOf username db' = markOf username db ∨
    reply.isSome = true ∧ ∃ token, op = .logout token ∧ token.sub = username
  marked : ∀ token, op = .logout token → reply.isSome = true →
    ∃ readAt, reply = some (.loggedOut readAt) ∧ markOf token.sub db' = some (utcNowIso readAt)

/-- How a request acts outside the database: it mints nothing, or one token, issued now, of its own
account and with its own token as parent. -/
def Mints (op : AuthOp) (x y : AuthWorld) : Prop :=
  y.minted = x.minted ∨ ∃ m, y.minted = m :: x.minted ∧ m.token.iat = timestamp x.clock ∧
    ((m.parent = none ∧ op.presents = none) ∨
      ∃ token, m.parent = some token ∧ m.token.sub = token.sub ∧ op = .refresh token)

theorem Commits.refl {op : AuthOp} {reply : Option AuthReply} (db : Table AdminAccount)
    (h : ∀ token, op ≠ .logout token) : Commits op reply db db :=
  ⟨SameIds.refl db, fun _ => Or.inl rfl, fun token heq => absurd heq (h token)⟩

theorem Commits.quiet {op : AuthOp} (db : Table AdminAccount) : Commits op none db db :=
  ⟨SameIds.refl db, fun _ => Or.inl rfl, nofun⟩

theorem get?_apply (q : AdminStmt) (db : Table AdminAccount) (username : String) :
    (Statement.apply q db).get? username =
      (db.get? username).map fun row => if row.id = q.rowId then q.edit row else row := by
  show (db.update _ _ _ _).get? username = _
  rw [Table.get?_update]
  simp

theorem sameIds_apply (q : AdminStmt) (db : Table AdminAccount) :
    SameIds db (Statement.apply q db) := by
  intro username
  rw [get?_apply, Option.map_map]
  congr 1
  funext row
  simp only [Function.comp]
  split
  · exact q.edit_id row
  · rfl

/-- Storing the time of a login commits no mark. -/
theorem Commits.setLastLogin {op : AuthOp} (id : Nat) (nowIso : String) (db : Table AdminAccount) :
    Commits op none db (Statement.apply (AdminStmt.setLastLogin id nowIso) db) := by
  refine ⟨sameIds_apply _ db, fun username => Or.inl ?_, nofun⟩
  rw [markOf, markOf, get?_apply]
  cases db.get? username with
  | none => rfl
  | some row =>
      simp only [Option.map_some, Option.bind_some]
      split <;> rfl

/-- Storing a mark under the id of an account marks this account. -/
theorem Commits.setInvalidated {token : Token} {id : Nat} (now : Nat)
    {db : Table AdminAccount} (hid : (db.get? token.sub).map AdminAccount.id = some id) :
    Commits (.logout token) (some (.loggedOut now)) db
      (Statement.apply (AdminStmt.setInvalidated id (utcNowIso now)) db) := by
  obtain ⟨row, hrow, rfl⟩ := Option.map_eq_some_iff.mp hid
  have hmark : markOf token.sub
      (Statement.apply (AdminStmt.setInvalidated row.id (utcNowIso now)) db) =
      some (utcNowIso now) := by
    rw [markOf, get?_apply, hrow]
    simp [AdminStmt.rowId, AdminStmt.edit]
  refine ⟨sameIds_apply _ db, fun username => ?_, fun token' heq _ => ?_⟩
  · by_cases hname : token.sub = username
    · exact Or.inr ⟨rfl, token, rfl, hname⟩
    · left
      rw [markOf, markOf, get?_apply]
      cases hother : db.get? username with
      | none => rfl
      | some other =>
          have hne : other.id ≠ row.id := by
            intro heq
            have hsame := Table.eq_of_id (Table.get?_mem hother) (Table.get?_mem hrow) heq
            subst hsame
            exact hname ((Table.get?_key hrow).symm.trans (Table.get?_key hother))
          simp [AdminStmt.rowId, hne]
  · cases heq
    exact ⟨now, rfl, hmark⟩

section Promises

variable (settings : AuthSettings) (checks : AuthChecks)

/-- The promise of a request. -/
def Promises {α : Type} (op : AuthOp) (post : α → Table AdminAccount → Option (Table AdminAccount) → Prop)
    (p : AuthTx α) (db : Table AdminAccount) (own : Option (Table AdminAccount)) : Prop :=
  p.Rely SameIds (Mints op) (Commits op none) post db own

theorem presentToken_promises {op : AuthOp} {expected : TokenType} {invalid revoked : Exc}
    {token : Token} {post : AdminAccount → Table AdminAccount → Option (Table AdminAccount) → Prop}
    {db : Table AdminAccount}
    (hpost : ∀ admin db', SameIds db db' →
      (db'.get? token.sub).map AdminAccount.id = some admin.id → post admin db' none) :
    Promises op post (presentToken checks expected invalid revoked token) db none := by
  simp only [presentToken, readClock, closeConnection, Prog.io_bind, Prog.ret_bind,
    Prog.query_bind, Prog.commit_bind]
  refine ⟨fun x => Or.inl rfl, fun x => ?_⟩
  dsimp only
  split
  · trivial
  · refine fun db' hids => ⟨fun db'' _ => Commits.quiet db'', ?_⟩
    cases hfound : (db'.get? token.sub).filter AdminAccount.isActive with
    | none => trivial
    | some admin =>
        have hrow := (Option.filter_eq_some_iff.mp hfound).1
        simp only
        cases tokenInvalidated token.iat admin.tokensInvalidatedAt with
        | error e => trivial
        | ok invalidated =>
            simp only [liftExcept, Prog.ret_bind]
            split
            · trivial
            · exact hpost admin db' hids (by rw [hrow]; rfl)

theorem createTokens_promises {op : AuthOp} {username : String} {parent : Option Token}
    {post : TokenPair → Table AdminAccount → Option (Table AdminAccount) → Prop}
    {db : Table AdminAccount}
    (hparent : (parent = none ∧ op.presents = none) ∨
      ∃ token, parent = some token ∧ username = token.sub ∧ op = .refresh token)
    (hpost : ∀ pair, post pair db none) :
    Promises op post (createTokens settings username parent) db none := by
  have hmints : ∀ (type : TokenType) (minutes : Nat) (x : AuthWorld),
      Mints op x { x with minted := ⟨newToken username type minutes x.clock, parent⟩ :: x.minted } :=
    fun type minutes x => Or.inr ⟨_, rfl, rfl, hparent⟩
  exact ⟨hmints _ _, fun x => ⟨hmints _ _, fun y => hpost _⟩⟩

/-- Every request does what it promises. -/
theorem code_promises (op : AuthOp) (db : Table AdminAccount) :
    Promises op (Prog.Returns SameIds (Commits op)) (op.code settings checks) db none := by
  have hrefl : ∀ (op : AuthOp) (reply : AuthReply) (db : Table AdminAccount),
      (∀ token, op ≠ .logout token) → Prog.Returns SameIds (Commits op) reply db none :=
    fun op reply db h db' _ => Commits.refl db' h
  cases op with
  | login username password remoteAddr =>
      refine Prog.rely_bind ?_
      simp only [login, readClock, closeConnection, Prog.query_bind]
      intro db' _
      dsimp only
      split
      · exact ⟨fun x => Or.inl rfl, fun x => trivial⟩
      · rename_i admin _
        refine ⟨fun x => Or.inl rfl, fun x db'' _ => ⟨Commits.setLastLogin _ _ _, ?_⟩⟩
        exact createTokens_promises settings (Or.inl ⟨rfl, rfl⟩) fun pair =>
          hrefl _ _ _ nofun
  | refresh token =>
      refine Prog.rely_bind (Prog.rely_bind ?_)
      refine presentToken_promises checks fun admin db' _ _ => ?_
      exact createTokens_promises settings (Or.inr ⟨token, rfl, rfl, rfl⟩) fun pair =>
        hrefl _ _ _ nofun
  | logout token =>
      refine Prog.rely_bind (Prog.rely_bind ?_)
      refine presentToken_promises checks fun admin db' _ hid => ?_
      refine ⟨fun x => Or.inl rfl, fun x db'' hids => ?_⟩
      exact Commits.setInvalidated _ ((hids token.sub).trans hid)
  | me token =>
      refine Prog.rely_bind ?_
      exact presentToken_promises checks fun admin db' _ _ => hrefl _ _ _ nofun
  | tick micros => exact ⟨fun x => Or.inl rfl, fun x => hrefl _ _ _ nofun⟩

end Promises

/-! ## Runs -/

section Runs

variable (settings : AuthSettings) (checks : AuthChecks)

/-- A configuration of requests of administrators running side by side. -/
abbrev AuthConf := Conf AuthOp AdminStmt (Table AdminAccount) AuthWorld Exc AuthReply

/-- A step of such a configuration. -/
abbrev AuthAct := Act AuthOp Exc

/-- The mark refuses a token of this issue time. -/
def refuses (mark : Option String) (iat : Int) : Bool :=
  match tokenInvalidated iat mark with
  | .ok invalidated => invalidated
  | .error _ => false

/-- The token is refused by the mark of its account. -/
def revoked (db : Table AdminAccount) (token : Token) : Bool :=
  refuses (markOf token.sub db) token.iat

/-- The second a mark names, if it can be read. -/
def markSecond (mark : Option String) : Option Int :=
  (mark.filter (· ≠ "")).bind fun raw => (parseMoment (replaceZ raw)).toOption.map timestamp

/-- The next statement of the program mints a token. -/
def mintsNext : AuthTx AuthReply → AuthWorld → Bool
  | .io f _, x => x.minted.length < (f x).minted.length
  | _, _ => false

/-- A refresh mints in time: the clock has not passed the second of the mark, or that second was over
when the refreshed token was issued. -/
def mintsInTime (token : Token) (c : AuthConf) : Bool :=
  (markSecond (markOf token.sub c.db)).all fun second =>
    second < token.iat || timestamp c.outside.clock ≤ second

/-- A logout commits in time: no token of its account was issued after the second in which it read
the clock. -/
def commitsInTime (token : Token) (readAt : Nat) (c : AuthConf) : Bool :=
  readAt < Iso.maxMicros && c.outside.minted.all fun m =>
    m.token.sub ≠ token.sub || m.token.iat ≤ timestamp (wholeSecond readAt)

/-- An action leaves no token behind a mark: refreshes mint and logouts commit in time. -/
def leavesNone (c : AuthConf) : AuthAct → Bool
  | .turn i =>
      match c.live i with
      | none => true
      | some s =>
          match s.tag, s.prog with
          | .refresh token, prog => !mintsNext prog c.outside || mintsInTime token c
          | .logout token, .ret (.loggedOut readAt) => commitsInTime token readAt c
          | _, _ => true
  | _ => true

/-- The condition on a step, as a proposition. -/
def LeavesNone (c : AuthConf) (a : AuthAct) : Prop := leavesNone c a = true

instance (c : AuthConf) (a : AuthAct) : Decidable (LeavesNone c a) :=
  inferInstanceAs (Decidable (_ = _))

/-- The tokens that an account's logins minted among the first `n` tokens, and all that were
refreshed from them. -/
def lineage (username : String) (n : Nat) : List Minted → List Token
  | [] => []
  | m :: older =>
      let tokens := lineage username n older
      if (m.parent = none ∧ m.token.sub = username ∧ older.length < n) ∨
          (∃ parent ∈ tokens, m.parent = some parent) then
        m.token :: tokens
      else tokens

/-- Tokens are refreshed for the account of their parents. -/
def SameSubject (minted : List Minted) : Prop :=
  ∀ m ∈ minted, ∀ parent ∈ m.parent, m.token.sub = parent.sub

theorem mem_lineage {username : String} {n : Nat} {minted : List Minted}
    (hminted : SameSubject minted) {token : Token} (h : token ∈ lineage username n minted) :
    token.sub = username ∧ ∃ m ∈ minted, m.token = token := by
  induction minted generalizing token with
  | nil => cases h
  | cons m older ih =>
      have holder : SameSubject older := fun m' hm' => hminted m' (List.mem_cons_of_mem _ hm')
      have later : token ∈ lineage username n older →
          token.sub = username ∧ ∃ m' ∈ m :: older, m'.token = token := by
        intro h
        obtain ⟨hsub, m', hm', htoken⟩ := ih holder h
        exact ⟨hsub, m', List.mem_cons_of_mem _ hm', htoken⟩
      rw [lineage] at h
      split at h
      · rename_i hnew
        rcases List.mem_cons.mp h with rfl | h
        · refine ⟨?_, m, List.mem_cons_self .., rfl⟩
          rcases hnew with ⟨-, hsub, -⟩ | ⟨parent, hparent, heq⟩
          · exact hsub
          · rw [hminted m (List.mem_cons_self ..) parent heq]
            exact (ih holder hparent).1
        · exact later h
      · exact later h

/-- What every action keeps. -/
structure Sound (c : AuthConf) : Prop where
  exclusive : c.Exclusive
  promises : ∀ (i : Nat) s, c.sessions[i]? = some s →
    s.Relies SameIds (Mints s.tag) (Commits s.tag) c.db
  subjects : SameSubject c.outside.minted

theorem Sound.init (db : Table AdminAccount) (clock : Nat) :
    Sound (Conf.init db { clock } : AuthConf) where
  exclusive := Conf.exclusive_init db _
  promises := fun i s hs => by simp [Conf.init] at hs
  subjects := nofun

variable {settings checks} {c c' : AuthConf} {a : AuthAct}

/-- What a move of a session does, by the promise of its request. -/
theorem Sound.move (hc : Sound c) {i : Nat} {s s' : Session AuthOp AdminStmt (Table AdminAccount)
      AuthWorld Exc AuthReply} {db : Table AdminAccount} {x : AuthWorld}
    (hs : c.sessions[i]? = some s) (hd : s.done = none) (hm : Conf.Move c i s db x s') :
    (db = c.db ∨ ∃ reply, Commits s.tag reply c.db db) ∧ (x = c.outside ∨ Mints s.tag c.outside x) ∧
      ∀ reply, s'.done = some (.ok reply) → Commits s.tag (some reply) c.db db :=
  hm.guarantee (SameIds.refl c.db) hd (hc.promises i s hs)

theorem SameSubject.mints {op : AuthOp} {x y : AuthWorld} (h : SameSubject x.minted)
    (hy : Mints op x y) : SameSubject y.minted := by
  rcases hy with hy | ⟨m, hy, hm⟩
  · rw [hy]
    exact h
  · rw [hy]
    intro m' hm' parent hparent
    rcases List.mem_cons.mp hm' with rfl | hm'
    · rcases hm.2 with ⟨hnone, -⟩ | ⟨token, htoken, hsub, -⟩
      · rw [hnone] at hparent
        cases hparent
      · rw [htoken] at hparent
        cases hparent
        exact hsub
    · exact h m' hm' parent hparent

/-- An action keeps what is sound, and the ids of the accounts. -/
theorem Sound.step (hc : Sound c) (h : c.step (AuthOp.code settings checks) a = some c') :
    Sound c' ∧ SameIds c.db c'.db := by
  have hids : SameIds c.db c'.db := by
    rcases Conf.step_cases _ h with ⟨t, -, rfl⟩ | ⟨i, s, db, x, s', -, hs, hd, hm, rfl⟩
    · exact SameIds.refl _
    · rcases (hc.move hs hd hm).1 with rfl | ⟨reply, hcommit⟩
      · exact SameIds.refl _
      · exact hcommit.ids
  refine ⟨⟨hc.exclusive.step _ h, fun j t ht => ?_, ?_⟩, hids⟩
  · rcases Conf.step_cases _ h with ⟨op, -, rfl⟩ | ⟨i, s, db, x, s', -, hs, hd, hm, rfl⟩
    · rcases Conf.getElem?_append_singleton_cases ht with ht | ⟨-, rfl⟩
      · exact hc.promises j t ht
      · exact fun _ => code_promises settings checks op c.db
    · obtain ⟨s₀, hs₀⟩ : ∃ s₀, c.sessions[j]? = some s₀ := by
        have hj : j < (c.sessions.set i s').length := (List.getElem?_eq_some_iff.mp ht).1
        rw [List.length_set] at hj
        exact ⟨_, List.getElem?_eq_getElem hj⟩
      obtain ⟨t', ht', htag, hrel, -⟩ := Conf.relies_step (R := SameIds) SameIds.trans hc.exclusive h
        (SameIds.refl _) hids hs₀ (hc.promises j s₀ hs₀)
      rw [ht] at ht'
      cases ht'
      rw [htag]
      exact hrel
  · rcases Conf.step_cases _ h with ⟨t, -, rfl⟩ | ⟨i, s, db, x, s', -, hs, hd, hm, rfl⟩
    · exact hc.subjects
    · rcases (hc.move hs hd hm).2.1 with rfl | hmints
      · exact hc.subjects
      · exact hc.subjects.mints hmints

/-! ## Marks -/

/-- A mark refuses what was issued up to its second. -/
theorem refuses_iff {mark : Option String} {iat : Int} :
    refuses mark iat = true ↔ ∃ second, markSecond mark = some second ∧ iat ≤ second := by
  rw [refuses, tokenInvalidated, markSecond]
  cases mark.filter (· ≠ "") with
  | none => simp
  | some raw =>
      cases hparse : parseMoment (replaceZ raw) with
      | error e => simp [hparse, Except.map, Except.toOption]
      | ok moment => simp [hparse, Except.map, Except.toOption]

/-- The mark of a clock reading refuses what was issued up to the second of the reading. -/
theorem refuses_utcNowIso {now : Nat} (h : now < Iso.maxMicros) {iat : Int} :
    refuses (some (utcNowIso now)) iat = true ↔ iat ≤ timestamp (wholeSecond now) := by
  have hsecond : markSecond (some (utcNowIso now)) = some (timestamp (wholeSecond now)) := by
    rw [markSecond, Option.filter_some, if_pos (by simpa using utcNowIso_ne_empty h),
      Option.bind_some, replaceZ_utcNowIso h, parseMoment_utcNowIso h]
    rfl
  rw [refuses_iff, hsecond]
  simp

/-! ## After a logout -/

/-- The tokens of a lineage are revoked. -/
structure Revoking (username : String) (n : Nat) (c : AuthConf) : Prop where
  sound : Sound c
  counted : n ≤ c.outside.minted.length
  revoked : ∀ token ∈ lineage username n c.outside.minted, revoked c.db token = true

theorem revoked_of_markOf {db db' : Table AdminAccount} {token : Token}
    (h : markOf token.sub db' = markOf token.sub db) (hdb : revoked db token = true) :
    revoked db' token = true := by
  rw [revoked, h]
  exact hdb

/-- What a refresh with a revoked token mints in time is revoked as well. -/
theorem LeavesNone.refresh {i : Nat} {s : Session AuthOp AdminStmt (Table AdminAccount) AuthWorld Exc
      AuthReply} {token : Token} {f : AuthWorld → AuthWorld} {k : AuthWorld → AuthTx AuthReply}
    (h : LeavesNone c (.turn i)) (hs : c.sessions[i]? = some s) (hd : s.done = none)
    (htag : s.tag = .refresh token) (hk : s.prog = .io f k)
    (htoken : GpuFleet.revoked c.db token = true) {m : Minted}
    (hnew : (f c.outside).minted = m :: c.outside.minted)
    (hiat : m.token.iat = timestamp c.outside.clock) (hsub : m.token.sub = token.sub) :
    GpuFleet.revoked c.db m.token = true := by
  have hlive : c.live i = some s := by simp [Conf.live, hs, hd]
  obtain ⟨second, hsecond, hle⟩ := refuses_iff.mp htoken
  simp only [LeavesNone, leavesNone, hlive, htag, hk, mintsNext, hnew, List.length_cons,
    Nat.lt_succ_self, decide_true, Bool.not_true, Bool.false_or, mintsInTime, hsecond,
    Option.all_some, Bool.or_eq_true, decide_eq_true_eq] at h
  have hnow := h.resolve_left (not_lt.mpr hle)
  rw [GpuFleet.revoked, hsub, hiat]
  exact refuses_iff.mpr ⟨second, hsecond, hnow⟩

/-- The mark of a logout that commits in time revokes all tokens of its account so far. -/
theorem LeavesNone.logout {i : Nat} {s : Session AuthOp AdminStmt (Table AdminAccount) AuthWorld Exc
      AuthReply} {token : Token} {reply : AuthReply} (h : LeavesNone c (.turn i))
    (hs : c.sessions[i]? = some s) (hd : s.done = none) (htag : s.tag = .logout token)
    (hk : s.prog = .ret reply)
    (hmarked : ∃ readAt, some reply = some (.loggedOut readAt) ∧
      markOf token.sub (s.view c.db) = some (utcNowIso readAt)) {m : Minted}
    (hm : m ∈ c.outside.minted) (hsub : m.token.sub = token.sub) :
    GpuFleet.revoked (s.view c.db) m.token = true := by
  have hlive : c.live i = some s := by simp [Conf.live, hs, hd]
  obtain ⟨readAt, heq, hmark⟩ := hmarked
  cases heq
  simp only [LeavesNone, leavesNone, hlive, htag, hk, commitsInTime, Bool.and_eq_true,
    decide_eq_true_eq, List.all_eq_true, Bool.or_eq_true] at h
  have hle := (h.2 m hm).resolve_left (fun hne => hne hsub)
  rw [GpuFleet.revoked, hsub, hmark]
  exact (refuses_utcNowIso h.1).mpr hle

/-- A session that was about to return moved by its own turn. -/
theorem turn_of_ret {i : Nat} {s : Session AuthOp AdminStmt (Table AdminAccount) AuthWorld Exc
      AuthReply} {reply : AuthReply}
    (ha : a = .turn i ∨ ∃ e, a = .fail i e ∧ s.finish (.ok reply) = s.finish (.error e)) :
    a = .turn i := by
  rcases ha with rfl | ⟨e, -, he⟩
  · rfl
  · have := congrArg Session.done he
    cases this

/-- A step outside the database that leaves no token behind adds only revoked ones to a revoked
lineage. -/
theorem Revoking.mints {username : String} {n i : Nat} {s : Session AuthOp AdminStmt
      (Table AdminAccount) AuthWorld Exc AuthReply} {f : AuthWorld → AuthWorld}
    {k : AuthWorld → AuthTx AuthReply} (hc : Revoking username n c) (ha : LeavesNone c (.turn i))
    (hs : c.sessions[i]? = some s) (hd : s.done = none) (hk : s.prog = .io f k) :
    n ≤ (f c.outside).minted.length ∧
      ∀ token ∈ lineage username n (f c.outside).minted, GpuFleet.revoked c.db token = true := by
  have hmints : Mints s.tag c.outside (f c.outside) := by
    have hp := hc.sound.promises i s hs hd
    rw [hk] at hp
    exact hp.1 _
  rcases hmints with hsame | ⟨m, hnew, hm⟩
  · rw [hsame]
    exact ⟨hc.counted, hc.revoked⟩
  · rw [hnew]
    refine ⟨Nat.le_succ_of_le hc.counted, fun token htoken => ?_⟩
    rw [lineage] at htoken
    split at htoken
    · rename_i hlineage
      rcases List.mem_cons.mp htoken with rfl | htoken
      · rcases hlineage with ⟨-, -, hlt⟩ | ⟨parent, hparent, heq⟩
        · exact absurd hlt (Nat.not_lt_of_le hc.counted)
        · obtain ⟨hiat, ⟨hnone, -⟩ | ⟨own, hown, hsame, htag⟩⟩ := hm
          · rw [hnone] at heq
            cases heq
          · rw [hown] at heq
            cases heq
            exact ha.refresh hs hd htag hk (hc.revoked _ hparent) hnew hiat hsame
      · exact hc.revoked token htoken
    · exact hc.revoked token htoken

/-- A revoked lineage stays revoked while no token is left behind. -/
theorem Revoking.step {username : String} {n : Nat} (hc : Revoking username n c)
    (ha : LeavesNone c a) (h : c.step (AuthOp.code settings checks) a = some c') :
    Revoking username n c' := by
  have hsound := (hc.sound.step h).1
  rcases Conf.step_cases _ h with ⟨t, -, rfl⟩ | ⟨i, s, db, x, s', hact, hs, hd, hm, rfl⟩
  · exact ⟨hsound, hc.counted, hc.revoked⟩
  · have hmove := hc.sound.move hs hd hm
    cases hm with
    | raise _ | select _ | write _ _ | fail => exact ⟨hsound, hc.counted, hc.revoked⟩
    | commit hk =>
        refine ⟨hsound, hc.counted, fun token htoken => ?_⟩
        have hcommit := hc.sound.promises i s hs hd
        rw [hk] at hcommit
        have hmarks : Commits s.tag none c.db (s.view c.db) := by
          cases ho : s.own with
          | none =>
              rw [Session.view_of_own_none ho]
              exact Commits.quiet c.db
          | some w =>
              rw [ho] at hcommit
              rw [Session.view, ho]
              exact hcommit.1
        rcases hmarks.marks token.sub with hsame | ⟨hsome, -⟩
        · exact revoked_of_markOf hsame (hc.revoked token htoken)
        · cases hsome
    | @ret reply hk =>
        obtain rfl := turn_of_ret hact
        have hcommit : Commits s.tag (some reply) c.db (s.view c.db) := hmove.2.2 reply rfl
        refine ⟨hsound, hc.counted, fun token htoken => ?_⟩
        rcases hcommit.marks token.sub with hsame | ⟨-, own, htag, hown⟩
        · exact revoked_of_markOf hsame (hc.revoked token htoken)
        · obtain ⟨-, m, hm, rfl⟩ := mem_lineage hc.sound.subjects htoken
          exact ha.logout hs hd htag hk (hcommit.marked own htag rfl) hm hown.symm
    | @io f k hk =>
        have hturn : a = .turn i := by
          rcases hact with rfl | ⟨e, -, he⟩
          · rfl
          · have := congrArg Session.done he
            rw [Session.finish, show Session.done _ = s.done from rfl, hd] at this
            cases this
        subst hturn
        obtain ⟨hcounted, hrevoked⟩ := hc.mints ha hs hd hk
        exact ⟨hsound, hcounted, hrevoked⟩

theorem Revoking.run {username : String} {n : Nat} {acts : List AuthAct}
    (hc : Revoking username n c) (h : c.run (AuthOp.code settings checks) acts = some c')
    (hm : Conf.Meets (AuthOp.code settings checks) LeavesNone c acts) : Revoking username n c' :=
  (Conf.run_rel _ (R := fun _ _ => True) (fun _ => trivial) (fun _ _ => trivial)
    (fun _ _ _ hc ha h => ⟨hc.step ha h, trivial⟩) h hm hc).1

theorem Sound.run {acts : List AuthAct} (hc : Sound c)
    (h : c.run (AuthOp.code settings checks) acts = some c') : Sound c' :=
  Conf.run_induction _ (fun _ _ _ hc h => (hc.step h).1) h hc

/-- The logout that completes revokes every lineage of its account so far. -/
theorem Sound.logout {i : Nat} {s s' : Session AuthOp AdminStmt (Table AdminAccount) AuthWorld Exc
      AuthReply} {token : Token} {reply : AuthReply} (hc : Sound c) (hs : c.sessions[i]? = some s)
    (hd : s.done = none) (htag : s.tag = .logout token)
    (h : c.step (AuthOp.code settings checks) (.turn i) = some c')
    (hs' : c'.sessions[i]? = some s') (hok : s'.done = some (.ok reply))
    (ha : LeavesNone c (.turn i)) : Revoking token.sub c'.outside.minted.length c' := by
  have hsound := (hc.step h).1
  refine ⟨hsound, Nat.le_refl _, fun other hother => ?_⟩
  obtain ⟨hsub, m, hm, rfl⟩ := mem_lineage hsound.subjects hother
  rcases Conf.step_cases _ h with ⟨t, hspawn, -⟩ | ⟨j, s₀, db, x, s₁, hact, hs₀, hd₀, hmove, rfl⟩
  · cases hspawn
  · obtain rfl : i = j := by
      rcases hact with heq | ⟨e, heq, -⟩
      · cases heq
        rfl
      · cases heq
    rw [hs] at hs₀
    cases hs₀
    rcases Conf.getElem?_set_cases hs' with ⟨-, rfl⟩ | ⟨hne, -⟩
    · cases hmove with
      | @ret reply hk =>
          have hcommit := (hc.move hs hd (.ret hk)).2.2 reply rfl
          exact ha.logout hs hd htag hk (hcommit.marked token htag rfl) hm hsub
      | raise _ | fail => cases hok
      | select _ | write _ _ | io _ | commit _ =>
          have hdone : s.done = some (.ok reply) := hok
          rw [hd] at hdone
          cases hdone
    · exact absurd rfl hne

/-- No answer is ever given. -/
def Never (reply : Option AuthReply) (_ _ : Table AdminAccount) : Prop := reply = none

/-- A request with a token that stays revoked is not accepted. -/
theorem code_refused (settings : AuthSettings) (checks : AuthChecks) {op : AuthOp} {token : Token}
    (hop : op.presents = some token) (db : Table AdminAccount) :
    (op.code settings checks).Rely (fun _ db' => revoked db' token = true) (fun _ _ => True)
      (Never none) (Prog.Returns (fun _ db' => revoked db' token = true) Never) db none := by
  have hpresent : ∀ (expected : TokenType) (invalid refused : Exc)
      (g : AdminAccount → AuthTx AuthReply),
      (presentToken checks expected invalid refused token >>= g).Rely
        (fun _ db' => revoked db' token = true) (fun _ _ => True) (Never none)
        (Prog.Returns (fun _ db' => revoked db' token = true) Never) db none := by
    intro expected invalid refused g
    refine Prog.rely_bind ?_
    simp only [presentToken, readClock, closeConnection, Prog.io_bind, Prog.ret_bind,
      Prog.query_bind, Prog.commit_bind]
    refine ⟨fun x => trivial, fun x => ?_⟩
    dsimp only
    split
    · trivial
    · refine fun db' hrevoked => ⟨fun _ _ => rfl, ?_⟩
      cases hfound : (db'.get? token.sub).filter AdminAccount.isActive with
      | none => trivial
      | some admin =>
          have hrow := (Option.filter_eq_some_iff.mp hfound).1
          have hrevoked : revoked db' token = true := hrevoked
          rw [revoked, markOf, hrow, Option.bind_some, refuses] at hrevoked
          simp only
          cases hcheck : tokenInvalidated token.iat admin.tokensInvalidatedAt with
          | error e => trivial
          | ok invalidated =>
              rw [hcheck] at hrevoked
              obtain rfl : invalidated = true := hrevoked
              trivial
  cases op with
  | refresh t =>
      cases hop
      show (((presentToken _ _ _ _ _ >>= _) >>= _ : AuthTx _)).Rely _ _ _ _ _ _
      rw [Prog.bind_assoc]
      exact hpresent _ _ _ _
  | logout t =>
      cases hop
      show (((presentToken _ _ _ _ _ >>= _) >>= _ : AuthTx _)).Rely _ _ _ _ _ _
      rw [Prog.bind_assoc]
      exact hpresent _ _ _ _
  | me t =>
      cases hop
      exact hpresent _ _ _ _
  | login | tick => cases hop

theorem Sound.minted_step (hc : Sound c) (h : c.step (AuthOp.code settings checks) a = some c') :
    c'.outside.minted = c.outside.minted ∨ ∃ m, c'.outside.minted = m :: c.outside.minted := by
  rcases Conf.step_cases _ h with ⟨t, -, rfl⟩ | ⟨i, s, db, x, s', -, hs, hd, hm, rfl⟩
  · exact Or.inl rfl
  · rcases (hc.move hs hd hm).2.1 with rfl | hsame | ⟨m, hnew, -⟩
    · exact Or.inl rfl
    · exact Or.inl hsame
    · exact Or.inr ⟨m, hnew⟩

theorem mem_lineage_cons {username : String} {n : Nat} {minted : List Minted} {token : Token}
    (h : token ∈ lineage username n minted) (m : Minted) :
    token ∈ lineage username n (m :: minted) := by
  rw [lineage]
  split
  · exact List.mem_cons_of_mem _ h
  · exact h

/-- A lineage is revoked, and session `j`, which started with a token of it, was not accepted. -/
structure Refusing (username : String) (n : Nat) (token : Token) (j : Nat) (c : AuthConf) : Prop where
  revoking : Revoking username n c
  mem : token ∈ lineage username n c.outside.minted
  session : ∃ s, c.sessions[j]? = some s ∧
    s.Relies (fun _ db' => GpuFleet.revoked db' token = true) (fun _ _ => True) Never c.db ∧
    ∀ reply, s.done ≠ some (.ok reply)

theorem Refusing.step {username : String} {n : Nat} {token : Token} {j : Nat}
    (hc : Refusing username n token j c) (ha : LeavesNone c a)
    (h : c.step (AuthOp.code settings checks) a = some c') : Refusing username n token j c' := by
  have hnext := hc.revoking.step ha h
  have hmem : token ∈ lineage username n c'.outside.minted := by
    rcases hc.revoking.sound.minted_step h with hsame | ⟨m, hnew⟩
    · rw [hsame]
      exact hc.mem
    · rw [hnew]
      exact mem_lineage_cons hc.mem m
  obtain ⟨s, hs, hrel, hnot⟩ := hc.session
  obtain ⟨s', hs', -, hrel', hok⟩ := Conf.relies_step (fun _ h => h) hc.revoking.sound.exclusive h
    (hc.revoking.revoked token hc.mem) (hnext.revoked token hmem) hs hrel
  refine ⟨hnext, hmem, s', hs', hrel', fun reply hreply => ?_⟩
  rcases hok reply hreply with hold | hnever
  · exact hnot reply hold
  · cases hnever

/-- In a run whose refreshes mint and whose logouts commit in time, a token of a lineage that logins
began before a logout completed is not accepted by any request that starts after it. -/
theorem logout_revokes {db : Table AdminAccount} {clock i : Nat} {before during after : List AuthAct}
    {c₀ c₁ c₂ c₃ : AuthConf} {out : Token} {token : Token} {op : AuthOp} {reply : AuthReply}
    {s s' : Session AuthOp AdminStmt (Table AdminAccount) AuthWorld Exc AuthReply}
    (h₀ : (Conf.init db { clock } : AuthConf).run (AuthOp.code settings checks) before = some c₀)
    -- The logout completes.
    (hs : c₀.sessions[i]? = some s) (hd : s.done = none) (htag : s.tag = .logout out)
    (h₁ : c₀.step (AuthOp.code settings checks) (.turn i) = some c₁)
    (hs' : c₁.sessions[i]? = some s') (hok : s'.done = some (.ok reply))
    -- A request starts with a token of the lineage.
    (h₂ : c₁.run (AuthOp.code settings checks) during = some c₂)
    (htoken : token ∈ lineage out.sub c₁.outside.minted.length c₂.outside.minted)
    (hop : op.presents = some token)
    (h₃ : c₂.run (AuthOp.code settings checks) (.spawn op :: after) = some c₃)
    (hleaves : Conf.Meets (AuthOp.code settings checks) LeavesNone (Conf.init db { clock })
      (before ++ .turn i :: (during ++ .spawn op :: after))) :
    ∃ r, c₃.sessions[c₂.sessions.length]? = some r ∧ ∀ answer, r.done ≠ some (.ok answer) := by
  obtain ⟨-, ha, hrest⟩ := Conf.Meets.of_append _ hleaves h₀
  obtain ⟨hduring, -, hafter⟩ := Conf.Meets.of_append _ (hrest c₁ h₁) h₂
  have hsound : Sound c₀ := (Sound.init db clock).run h₀
  have hrevoking : Revoking out.sub c₁.outside.minted.length c₂ :=
    (hsound.logout hs hd htag h₁ hs' hok ha).run h₂ hduring
  have hspawn : c₂.step (AuthOp.code settings checks) (.spawn op) =
      some { c₂ with sessions := c₂.sessions ++ [Session.start op (op.code settings checks)] } := rfl
  have hstart : Refusing out.sub c₁.outside.minted.length token c₂.sessions.length
      { c₂ with sessions := c₂.sessions ++ [Session.start op (op.code settings checks)] } :=
    ⟨⟨(hrevoking.sound.step hspawn).1, hrevoking.counted, hrevoking.revoked⟩, htoken,
      Session.start op (op.code settings checks), by simp,
      fun _ => code_refused settings checks hop c₂.db, nofun⟩
  rw [Conf.run, hspawn, Option.bind_some] at h₃
  have hend : Refusing out.sub c₁.outside.minted.length token c₂.sessions.length c₃ :=
    (Conf.run_rel _ (R := fun _ _ => True) (fun _ => trivial) (fun _ _ => trivial)
      (fun _ _ _ hc ha h => ⟨hc.step ha h, trivial⟩) h₃ (hafter _ hspawn) hstart).1
  obtain ⟨r, hr, -, hnot⟩ := hend.session
  exact ⟨r, hr, hnot⟩

end Runs

/-! ## Concrete runs -/

/-- Passwords are stored as they are, and a token is timely until it expires. -/
def plainChecks : AuthChecks where
  timely := fun now token => timestamp now < token.exp
  verifyPassword := fun password hash => password = hash

/-- One administrator. -/
def oneAdmin : Table AdminAccount :=
  Table.empty.insert (fun id =>
    { id, username := "admin", passwordHash := "secret", isActive := true, updatedAt := "" })
    fun _ => rfl

/-- The beginning of 2026. -/
def newYear : Nat := 63902822400000000

/-- The tokens a login at the beginning of 2026 mints. -/
def firstAccess : Token := newToken "admin" .access 60 newYear

/-- The refresh token of the same login. -/
def firstRefresh : Token := newToken "admin" .refresh 10080 newYear

/-- A login, a refresh up to the end of its check, and a logout up to its return. -/
def logoutDuringRefresh : List AuthAct :=
  .spawn (.login "admin" "secret" "") :: List.replicate 7 (.turn 0) ++
    .spawn (.refresh firstRefresh) :: List.replicate 3 (.turn 1) ++
      .spawn (.logout firstAccess) :: List.replicate 5 (.turn 2)

/-- A second passes, and the refresh goes on. -/
def restOfRefresh : List AuthAct :=
  .spawn (.tick 1000000) :: List.replicate 2 (.turn 3) ++ List.replicate 3 (.turn 1)

/-- The access token that the refresh mints. -/
def lateAccess : Token := newToken "admin" .access 60 (newYear + 1000000)

/-- The session answered without an exception. -/
def answered : Option (Except Exc AuthReply) → Bool
  | some (.ok _) => true
  | _ => false

theorem answered_iff {done : Option (Except Exc AuthReply)} :
    answered done = true ↔ ∃ reply, done = some (.ok reply) := by
  match done with
  | none | some (.error _) => simp [answered]
  | some (.ok reply) => simp [answered]

/-- The refresh finds its token valid, the logout revokes it, and the new token is accepted. -/
theorem refreshed_during_logout :
    ¬ ∀ (settings : AuthSettings) (checks : AuthChecks) (db : Table AdminAccount) (clock i : Nat)
        (before during after : List AuthAct) (c₀ c₁ c₂ c₃ : AuthConf) (out token : Token)
        (op : AuthOp) (reply : AuthReply)
        (s s' : Session AuthOp AdminStmt (Table AdminAccount) AuthWorld Exc AuthReply),
      (Conf.init db { clock } : AuthConf).run (AuthOp.code settings checks) before = some c₀ →
      c₀.sessions[i]? = some s → s.done = none → s.tag = .logout out →
      c₀.step (AuthOp.code settings checks) (.turn i) = some c₁ →
      c₁.sessions[i]? = some s' → s'.done = some (.ok reply) →
      c₁.run (AuthOp.code settings checks) during = some c₂ →
      token ∈ lineage out.sub c₁.outside.minted.length c₂.outside.minted →
      op.presents = some token →
      c₂.run (AuthOp.code settings checks) (.spawn op :: after) = some c₃ →
      ∃ r, c₃.sessions[c₂.sessions.length]? = some r ∧ ∀ answer, r.done ≠ some (.ok answer) := by
  intro h
  have hrun : ((Conf.init oneAdmin { clock := newYear } : AuthConf).run (AuthOp.code {} plainChecks)
      logoutDuringRefresh).any (fun c₀ => (c₀.sessions[2]?).any fun s =>
        s.done.isNone && s.tag = .logout firstAccess &&
        (c₀.step (AuthOp.code {} plainChecks) (.turn 2)).any fun c₁ =>
          (c₁.sessions[2]?).any (fun s' => answered s'.done) &&
          (c₁.run (AuthOp.code {} plainChecks) restOfRefresh).any fun c₂ =>
            lateAccess ∈ lineage "admin" c₁.outside.minted.length c₂.outside.minted &&
            (c₂.run (AuthOp.code {} plainChecks)
              (.spawn (.me lateAccess) :: List.replicate 4 (.turn 4))).any fun c₃ =>
                (c₃.sessions[c₂.sessions.length]?).any fun r => answered r.done) = true := by
    decide +kernel
  simp only [Option.any_eq_true, Bool.and_eq_true, decide_eq_true_eq,
    Option.isNone_iff_eq_none, answered_iff] at hrun
  obtain ⟨c₀, h₀, s, hs, ⟨hd, htag⟩, c₁, h₁, ⟨s', hs', reply, hok⟩, c₂, h₂, htoken, c₃, h₃, r, hr,
    answer, hanswer⟩ := hrun
  obtain ⟨r', hr', hnot⟩ := h {} plainChecks oneAdmin newYear 2 logoutDuringRefresh restOfRefresh _
    c₀ c₁ c₂ c₃ firstAccess lateAccess (.me lateAccess) reply s s' h₀ hs hd htag h₁ hs' hok h₂ htoken
    rfl h₃
  rw [hr] at hr'
  cases hr'
  exact hnot answer hanswer

/-- A login and a logout up to its return. -/
def logoutAfterLogin : List AuthAct :=
  .spawn (.login "admin" "secret" "") :: List.replicate 7 (.turn 0) ++
    .spawn (.logout firstAccess) :: List.replicate 5 (.turn 1)

/-- The token that was logged out with is not accepted any more. -/
theorem firstAccess_refused :
    ∃ c₂ c₃ : AuthConf,
      (Conf.init oneAdmin { clock := newYear } : AuthConf).run (AuthOp.code {} plainChecks)
        (logoutAfterLogin ++ [.turn 1]) = some c₂ ∧
      c₂.run (AuthOp.code {} plainChecks)
        (.spawn (.me firstAccess) :: List.replicate 3 (.turn 2)) = some c₃ ∧
      ∃ r, c₃.sessions[c₂.sessions.length]? = some r ∧ ∀ answer, r.done ≠ some (.ok answer) := by
  have hrun : ((Conf.init oneAdmin { clock := newYear } : AuthConf).run (AuthOp.code {} plainChecks)
      logoutAfterLogin).any (fun c₀ => (c₀.sessions[1]?).any fun s =>
        s.done.isNone && s.tag = .logout firstAccess &&
        (c₀.step (AuthOp.code {} plainChecks) (.turn 1)).any fun c₁ =>
          (c₁.sessions[1]?).any (fun s' => answered s'.done) &&
          firstAccess ∈ lineage "admin" c₁.outside.minted.length c₁.outside.minted &&
          (c₁.run (AuthOp.code {} plainChecks)
            (.spawn (.me firstAccess) :: List.replicate 3 (.turn 2))).isSome) = true := by
    decide +kernel
  simp only [Option.any_eq_true, Bool.and_eq_true, decide_eq_true_eq,
    Option.isNone_iff_eq_none, answered_iff, Option.isSome_iff_exists] at hrun
  obtain ⟨c₀, h₀, s, hs, ⟨hd, htag⟩, c₁, h₁, ⟨⟨s', hs', reply, hok⟩, htoken⟩, c₃, h₃⟩ := hrun
  refine ⟨c₁, c₃, ?_, h₃, ?_⟩
  · rw [Conf.run_append, h₀, Option.bind_some, Conf.run, h₁]
    rfl
  · have h₂ : c₁.run (AuthOp.code {} plainChecks) [] = some c₁ := rfl
    exact logout_revokes h₀ hs hd htag h₁ hs' hok h₂ htoken rfl h₃ (by decide +kernel)

end GpuFleet
