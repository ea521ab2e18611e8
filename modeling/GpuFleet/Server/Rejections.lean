import GpuFleet.Server.ReplayGuard

/-!
# A rejected request leaves no trace

`authenticateNode` may encrypt the key anew and store the nonce before a later
check fails.  All of it happens in the one transaction of its connection, so
whichever check rejects the request, or whichever statement fails, the rollback
takes back what was written (`rejected_request_changes_nothing`).

Next to other transactions the same holds: the database that all of them see
changes with an authentication only when it accepts (`authentication_commits`).
-/

namespace GpuFleet

open Foundations

variable (settings : Settings) (crypto : Crypto)

/-! ## One transaction -/

theorem ofExcept_oneTransaction {α : Type} (r : Except Exc α) : (ofExcept r).OneTransaction := by
  cases r <;> trivial

theorem nodeSigningKey_oneTransaction (node : Node) (nodeId random nowIso : String) :
    (nodeSigningKey crypto node nodeId random nowIso).OneTransaction := by
  have hkey : ∀ key : String, (if key = "" then
      .raise (unauthorized "ERR_AUTH_SIGNING_KEY_UNAVAILABLE" "Node signing key unavailable"
        [("node_id", .str nodeId)]) else pure key : Tx String).OneTransaction := by
    intro key
    split <;> trivial
  unfold nodeSigningKey
  simp only
  split
  · exact hkey _
  · split
    · trivial
    · split
      · split
        · trivial
        · exact fun _ => hkey _
      · exact hkey _

theorem storeRequest_oneTransaction (nodeId timestamp nonce : String) (now : Nat) :
    (storeRequest settings nodeId timestamp nonce now).OneTransaction := by
  unfold storeRequest
  simp only
  split
  · trivial
  · intro db
    simp only [Prog.bind]
    split
    · trivial
    · intro db
      simp only [Prog.bind]
      split <;> trivial

/-- Authentication commits at its end only. -/
theorem authenticateNode_oneTransaction (request : SignedRequest) (random : String) (now : Nat) :
    (authenticateNode settings crypto request random now).OneTransaction := by
  unfold authenticateNode
  split
  · generalize parseTimestamp _ = parsed, checkSkew settings now = skew
    refine (ofExcept_oneTransaction parsed).bind fun requestTime => ?_
    refine (ofExcept_oneTransaction (skew requestTime)).bind fun _ db => ?_
    simp only [Prog.bind]
    split
    · trivial
    · refine (nodeSigningKey_oneTransaction crypto ..).bind fun key => ?_
      refine (ofExcept_oneTransaction _).bind fun valid => ?_
      split
      · trivial
      · exact (storeRequest_oneTransaction settings ..).bind fun _ => trivial
  · trivial

/-! ## Alone -/

/-- An authentication, and the statement that the database refuses, if it refuses one. -/
def authenticationAttempt (request : SignedRequest) (random : String) (now : Nat) :
    Option (Nat × Exc) → Tx Node
  | none => authenticateNode settings crypto request random now
  | some (n, e) => (authenticateNode settings crypto request random now).failAt e n

variable {settings crypto}

/-- Whatever rejects a request, the database is as it was. -/
theorem rejected_request_changes_nothing {request : SignedRequest} {random : String} {now : Nat}
    {failure : Option (Nat × Exc)} {db : Db} {x : World} {e : Exc}
    (h : (authenticationAttempt settings crypto request random now failure).resultOf db x =
      .error e) :
    (authenticationAttempt settings crypto request random now failure).dbAfter db x = db := by
  have hp := authenticateNode_oneTransaction settings crypto request random now
  cases failure with
  | none => exact hp.dbAfter_of_error h
  | some failure => exact (hp.failAt failure.2 failure.1).dbAfter_of_error h

/-- A request was accepted, and its time stamp comes again with a new nonce. -/
def acceptedOnce : Db :=
  (authenticateNode {} plainCrypto (buildHeaders plainCrypto "n" "secret" "{}" "a" 0) "" 0).dbAfter
    oneNodeDb {}

/-- The nonce is stored before the time stamp is compared. -/
theorem rejected_request_old_timestamp :
    (∃ e, (authenticationAttempt {} plainCrypto (buildHeaders plainCrypto "n" "secret" "{}" "b" 0) ""
        0 none).resultOf acceptedOnce {} = .error e) ∧
      (authenticationAttempt {} plainCrypto (buildHeaders plainCrypto "n" "secret" "{}" "b" 0) ""
        0 none).dbAfter acceptedOnce {} = acceptedOnce := by
  have hfails : ((authenticationAttempt {} plainCrypto
      (buildHeaders plainCrypto "n" "secret" "{}" "b" 0) "" 0 none).resultOf acceptedOnce
        {}).toOption.isNone = true := by
    decide +kernel
  cases hresult : (authenticationAttempt {} plainCrypto
      (buildHeaders plainCrypto "n" "secret" "{}" "b" 0) "" 0 none).resultOf acceptedOnce {} with
  | ok node =>
      rw [hresult] at hfails
      cases hfails
  | error e => exact ⟨⟨e, rfl⟩, rejected_request_changes_nothing hresult⟩

/-! ## Side by side -/

/-- The authentication of a request. -/
def ServerOp.IsAuthentication : ServerOp → Prop
  | authenticate .. => True
  | _ => False

/-- Next to other transactions, the committed database changes with an authentication only when
it accepts. -/
theorem authentication_commits {db : Db} {x : World} {as : List (Act ServerOp Exc)}
    {c c' : ServerConf} (h : (Conf.init db x : ServerConf).run (ServerOp.code settings crypto) as = some c)
    {i : Nat} {s : Session ServerOp Dml Db World Exc Unit} (hs : c.sessions[i]? = some s)
    (htag : s.tag.IsAuthentication) (hstep : c.step (ServerOp.code settings crypto) (.turn i) = some c') :
    c'.db = c.db ∨ ∃ s' a, c'.sessions[i]? = some s' ∧ s'.tag = s.tag ∧ s'.done = some (.ok a) := by
  have hcode : ∀ op : ServerOp, op.IsAuthentication →
      (op.code settings crypto).OneTransaction := by
    intro op hop
    cases op with
    | authenticate request random now =>
        exact (authenticateNode_oneTransaction settings crypto request random now).bind
          fun _ => trivial
    | pruneNonces now => exact hop.elim
    | other op => exact hop.elim
  have hc : c.CommitsAtEnd ServerOp.IsAuthentication :=
    Conf.run_induction _ (fun _ _ _ hc h => hc.step _ hcode h) h (Conf.commitsAtEnd_init db x)
  exact hc.db_cases _ hs htag hstep

end GpuFleet
