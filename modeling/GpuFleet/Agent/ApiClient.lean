import Mathlib.Algebra.GroupWithZero.Nat
import Mathlib.Data.List.Induction

/-!
# The agent's API client

`postSignedJson` posts a request up to three times and keeps a circuit breaker.
Only a call whose three attempts all fail transiently counts as a failure.  The
breaker refuses calls from the threshold-th such failure in a row until its
reopening time, and lets the next call probe the server.

Between calls the breaker is closed or open, never half open, and a closed one
counts the failures at the end of the history (`Counts`).  The clock is any type
with an order and an addition, and the time of a call is what the code reads of
it.  The signature, the address and the logging of a retry are left out.
-/

namespace GpuFleet

/-! ## Attempts -/

/-- `MAX_RETRIES` -/
def maxRetries : Nat := 3

/-- `BACKOFF_BASE_SEC` -/
def backoffBaseSec : Nat := 1

/-- `_TRANSIENT_STATUS_CODES` -/
def transientStatusCodes : List Nat := [500, 502, 503, 504, 429]

/-- What an attempt may raise, as far as the client tells exceptions apart. -/
inductive RequestError where
  | connection
  | timeout
  /-- An error status, with the response if there is one. -/
  | http (status : Option Nat)
  | other
  deriving DecidableEq, Repr

/-- `_is_transient_error` -/
def RequestError.isTransientError : RequestError → Bool
  | .connection | .timeout => true
  | .http (some status) => transientStatusCodes.contains status
  | .http none | .other => false

/-- What `requests.post` does: it raises, or returns a response, with its JSON if it has any. -/
inductive Posted (β : Type) where
  | raised (e : RequestError)
  | response (status : Nat) (json : Option β)

/-- `raise_for_status` -/
def raiseForStatus (status : Nat) : Except RequestError Unit :=
  if 400 ≤ status ∧ status < 600 then .error (.http (some status)) else .ok ()

/-! ## The breaker -/

/-- The states of the breaker. -/
inductive BreakerState where
  | closed
  | opened
  | halfOpen
  deriving DecidableEq, Repr

/-- `_CircuitBreaker` -/
structure CircuitBreaker (τ : Type) [Zero τ] where
  state : BreakerState := .closed
  consecutiveFailures : Nat := 0
  openUntil : τ := 0

/-- The settings of the breaker. -/
structure BreakerSettings (τ : Type) where
  failureThreshold : Nat
  openSec : τ
  threshold_pos : 1 ≤ failureThreshold

section Breaker

variable {τ : Type} [Zero τ] [Add τ] [Sub τ] [LT τ] [DecidableLT τ]

namespace CircuitBreaker

/-- The breaker refuses a call that starts now. -/
def refuses (b : CircuitBreaker τ) (now : τ) : Bool := b.state = .opened && decide (now < b.openUntil)

/-- `allow_request`: the breaker, or the time it stays open. -/
def allowRequest (b : CircuitBreaker τ) (now : τ) : Except τ (CircuitBreaker τ) :=
  if b.state = .opened then
    if now < b.openUntil then .error (b.openUntil - now)
    else .ok { b with state := .halfOpen }
  else .ok b

/-- `on_success` -/
def onSuccess (_ : CircuitBreaker τ) : CircuitBreaker τ where
  state := .closed
  consecutiveFailures := 0
  openUntil := 0

/-- `on_transient_failure` -/
def onTransientFailure (settings : BreakerSettings τ) (now : τ) (b : CircuitBreaker τ) :
    CircuitBreaker τ :=
  if b.state = .halfOpen then
    { state := .opened
      consecutiveFailures := settings.failureThreshold
      openUntil := now + settings.openSec }
  else
    let b := { b with consecutiveFailures := b.consecutiveFailures + 1 }
    if settings.failureThreshold ≤ b.consecutiveFailures then
      { b with state := .opened, openUntil := now + settings.openSec }
    else b

/-- `on_non_transient_failure` -/
def onNonTransientFailure (b : CircuitBreaker τ) : CircuitBreaker τ :=
  let b := if b.state = .halfOpen then { b with state := .closed, openUntil := 0 } else b
  { b with consecutiveFailures := 0 }

end CircuitBreaker

/-! ## Calls -/

/-- What a call meets: the clock when it asks the breaker and when its last attempt has failed, and
what `requests.post` does in each attempt. -/
structure ApiCall (τ β : Type) where
  startedAt : τ
  failedAt : τ
  posted : Nat → Posted β

/-- What a call raises. -/
inductive CallError (τ : Type) where
  | circuitOpen (remaining : τ)
  | request (e : RequestError)

/-- What a call does: its reply, the breaker it leaves, the number of its HTTP attempts and its
waits in between. -/
structure Exchange (τ β : Type) [Zero τ] where
  reply : Except (CallError τ) β
  breaker : CircuitBreaker τ
  attempts : Nat := 0
  waits : List Nat := []

variable {β : Type}

/-- The body of the `try` block: the request, its status and its JSON. -/
def tryPost (b : CircuitBreaker τ) : Posted β → Except RequestError β × CircuitBreaker τ
  | .raised e => (.error e, b)
  | .response status json =>
      match raiseForStatus status with
      | .error e => (.error e, b)
      | .ok () => (json.elim (.error .other) .ok, b.onSuccess)

/-- The attempts of a call, from the one after which so many are left. -/
def attemptsFrom (settings : BreakerSettings τ) (call : ApiCall τ β) (left : Nat)
    (b : CircuitBreaker τ) : Exchange τ β :=
  let attempt := maxRetries - 1 - left
  match tryPost b (call.posted attempt) with
  | (.ok json, b) => { reply := .ok json, breaker := b, attempts := 1 }
  | (.error e, b) =>
      if !e.isTransientError then
        { reply := .error (.request e), breaker := b.onNonTransientFailure, attempts := 1 }
      else
        match left with
        | 0 =>
            { reply := .error (.request e)
              breaker := b.onTransientFailure settings call.failedAt
              attempts := 1 }
        | left + 1 =>
            let rest := attemptsFrom settings call left b
            { rest with
              attempts := rest.attempts + 1
              waits := backoffBaseSec * 2 ^ attempt :: rest.waits }

/-- `post_signed_json` -/
def postSignedJson (settings : BreakerSettings τ) (b : CircuitBreaker τ) (call : ApiCall τ β) :
    Exchange τ β :=
  match b.allowRequest call.startedAt with
  | .error remaining => { reply := .error (.circuitOpen remaining), breaker := b }
  | .ok b => attemptsFrom settings call (maxRetries - 1) b

/-! ## How calls end -/

/-- How an attempt or a call ends. -/
inductive Verdict where
  | success
  | transient
  | permanent
  deriving DecidableEq, Repr

/-- An exception ends an attempt transiently or permanently. -/
def RequestError.verdict (e : RequestError) : Verdict :=
  if e.isTransientError then .transient else .permanent

/-- A response that is no JSON ends its attempt permanently. -/
def Posted.verdict : Posted β → Verdict
  | .raised e => e.verdict
  | .response status json =>
      match raiseForStatus status with
      | .error e => e.verdict
      | .ok () => if json.isSome then .success else .permanent

/-- A call ends as the first of its attempts that does not fail transiently, if there is one. -/
def ApiCall.verdict (call : ApiCall τ β) : Verdict :=
  (((List.range maxRetries).map fun i => (call.posted i).verdict).find? (· ≠ .transient)).getD
    .transient

/-- The number of transient failures at the end. -/
def streak (verdicts : List Verdict) : Nat := (verdicts.reverse.takeWhile (· = .transient)).length

/-- The breaker after some calls, and how those ended that it did not refuse. -/
def history (settings : BreakerSettings τ) (calls : List (ApiCall τ β)) :
    CircuitBreaker τ × List Verdict :=
  calls.foldl (fun (b, verdicts) call =>
    ((postSignedJson settings b call).breaker,
      if b.refuses call.startedAt then verdicts else verdicts ++ [call.verdict])) ({}, [])

end Breaker

/-! ## One attempt -/

section Attempt

variable {τ β : Type} [Zero τ] {b : CircuitBreaker τ} {p : Posted β}

/-- A failed attempt leaves the breaker, or closes it before it finds that there is no JSON. -/
theorem verdict_of_error {e : RequestError} {b' : CircuitBreaker τ}
    (h : tryPost b p = (.error e, b')) :
    p.verdict = e.verdict ∧ (e.isTransientError = true → b' = b) ∧
      (b' = b ∨ b'.state = .closed) := by
  cases p with
  | raised e' =>
      cases h
      exact ⟨rfl, fun _ => rfl, Or.inl rfl⟩
  | response status json =>
      rw [tryPost] at h
      rw [Posted.verdict]
      cases hstatus : raiseForStatus status with
      | error e' =>
          rw [hstatus] at h
          cases h
          exact ⟨rfl, fun _ => rfl, Or.inl rfl⟩
      | ok _ =>
          rw [hstatus] at h
          cases json with
          | some body => cases h
          | none =>
              cases h
              exact ⟨rfl, fun h => (by cases h), Or.inr rfl⟩

/-- An attempt that succeeds closes the breaker. -/
theorem verdict_of_ok {body : β} {b' : CircuitBreaker τ} (h : tryPost b p = (.ok body, b')) :
    p.verdict = .success ∧ b' = b.onSuccess := by
  cases p with
  | raised e => cases h
  | response status json =>
      rw [tryPost] at h
      rw [Posted.verdict]
      cases hstatus : raiseForStatus status with
      | error e =>
          rw [hstatus] at h
          cases h
      | ok _ =>
          rw [hstatus] at h
          cases json with
          | some body =>
              cases h
              exact ⟨rfl, rfl⟩
          | none => cases h

/-- A transient failure leaves the breaker. -/
theorem tryPost_transient (h : p.verdict = .transient) :
    ∃ e, tryPost b p = (.error e, b) ∧ e.isTransientError = true := by
  cases htry : tryPost b p with
  | mk result b' =>
      cases result with
      | ok body =>
          rw [(verdict_of_ok htry).1] at h
          cases h
      | error e =>
          obtain ⟨hverdict, hsame, -⟩ := verdict_of_error htry
          rw [h, RequestError.verdict] at hverdict
          have he : e.isTransientError = true := by
            cases he : e.isTransientError with
            | true => rfl
            | false =>
                rw [he, if_neg Bool.false_ne_true] at hverdict
                cases hverdict
          exact ⟨e, by rw [hsame he], he⟩

/-- After a permanent failure the breaker is closed and counts nothing. -/
theorem onNonTransientFailure_spec (h : b.state ≠ .opened) :
    b.onNonTransientFailure.state = .closed ∧ b.onNonTransientFailure.consecutiveFailures = 0 := by
  cases hstate : b.state with
  | closed => simp [CircuitBreaker.onNonTransientFailure, hstate]
  | opened => exact absurd hstate h
  | halfOpen => simp [CircuitBreaker.onNonTransientFailure, hstate]

end Attempt

/-! ## One call -/

/-- How the attempts of a call end, from the one after which so many are left. -/
def ApiCall.verdictFrom {τ β : Type} (call : ApiCall τ β) : Nat → Verdict
  | 0 => (call.posted (maxRetries - 1)).verdict
  | left + 1 =>
      match (call.posted (maxRetries - 1 - (left + 1))).verdict with
      | .transient => call.verdictFrom left
      | verdict => verdict

theorem verdict_eq {τ β : Type} (call : ApiCall τ β) :
    call.verdict = call.verdictFrom (maxRetries - 1) := by
  show _ = match (call.posted 0).verdict with
    | .transient => (match (call.posted 1).verdict with
        | .transient => (call.posted 2).verdict
        | verdict => verdict)
    | verdict => verdict
  have hrange : List.range maxRetries = [0, 1, 2] := rfl
  rw [ApiCall.verdict, hrange]
  cases h0 : (call.posted 0).verdict <;> cases h1 : (call.posted 1).verdict <;>
    cases h2 : (call.posted 2).verdict <;> simp [h0, h1, h2]

section OneCall

variable {τ β : Type} [Zero τ] [Add τ] {settings : BreakerSettings τ} {b : CircuitBreaker τ}
  {call : ApiCall τ β}

/-- What a call has done when it ends with the verdict. -/
structure EndsWith (settings : BreakerSettings τ) (call : ApiCall τ β) (b : CircuitBreaker τ)
    (verdict : Verdict) (left : Nat) (out : Exchange τ β) : Prop where
  /-- It makes an attempt, and no more than are left. -/
  attempts : 1 ≤ out.attempts ∧ out.attempts ≤ left + 1
  /-- A transient failure is counted once. -/
  transient : verdict = .transient → out.breaker = b.onTransientFailure settings call.failedAt
  /-- A success or a permanent failure closes the breaker and resets the count. -/
  closes : verdict ≠ .transient → out.breaker.state = .closed ∧ out.breaker.consecutiveFailures = 0
  /-- Only a success returns. -/
  replies : verdict = .success ↔ out.reply.isOk = true

/-- An attempt that does not fail transiently is the last. -/
theorem attemptsFrom_last {left : Nat} {verdict : Verdict} (hb : b.state ≠ .opened)
    (h : (call.posted (maxRetries - 1 - left)).verdict = verdict) (hne : verdict ≠ .transient) :
    EndsWith settings call b verdict left (attemptsFrom settings call left b) := by
  cases htry : tryPost b (call.posted (maxRetries - 1 - left)) with
  | mk result b' =>
      cases result with
      | ok json =>
          obtain ⟨hsuccess, rfl⟩ := verdict_of_ok htry
          rw [h] at hsuccess
          subst hsuccess
          have hout : attemptsFrom settings call left b =
              { reply := .ok json, breaker := b.onSuccess, attempts := 1 } := by
            unfold attemptsFrom
            simp [htry]
          rw [hout]
          exact ⟨⟨Nat.le_refl 1, Nat.le_add_left 1 left⟩, fun h => absurd h hne, fun _ => ⟨rfl, rfl⟩,
            iff_of_true rfl rfl⟩
      | error e =>
          obtain ⟨hverdict, -, hkept⟩ := verdict_of_error htry
          rw [h, RequestError.verdict] at hverdict
          have hlast : e.isTransientError = false := by
            cases he : e.isTransientError with
            | false => rfl
            | true => exact absurd (hverdict.trans (if_pos he)) hne
          rw [hlast, if_neg Bool.false_ne_true] at hverdict
          subst hverdict
          have hstate : b'.state ≠ .opened := by
            rcases hkept with rfl | hclosed
            · exact hb
            · simp [hclosed]
          have hout : attemptsFrom settings call left b =
              { reply := .error (.request e), breaker := b'.onNonTransientFailure, attempts := 1 } := by
            unfold attemptsFrom
            simp [htry, hlast]
          rw [hout]
          exact ⟨⟨Nat.le_refl 1, Nat.le_add_left 1 left⟩, fun h => absurd h hne,
            fun _ => onNonTransientFailure_spec hstate, iff_of_false (by simp) Bool.false_ne_true⟩

theorem attemptsFrom_endsWith (left : Nat) (hb : b.state ≠ .opened) :
    EndsWith settings call b (call.verdictFrom left) left (attemptsFrom settings call left b) := by
  induction left with
  | zero =>
      by_cases h : (call.posted (maxRetries - 1)).verdict = .transient
      · obtain ⟨e, htry, he⟩ := tryPost_transient (b := b) h
        have hout : attemptsFrom settings call 0 b =
            { reply := .error (.request e)
              breaker := b.onTransientFailure settings call.failedAt
              attempts := 1 } := by
          simp [attemptsFrom, htry, he]
        rw [ApiCall.verdictFrom, h, hout]
        exact ⟨⟨Nat.le_refl 1, Nat.le_refl 1⟩, fun _ => rfl, fun hne => absurd rfl hne,
          iff_of_false (by simp) Bool.false_ne_true⟩
      · exact attemptsFrom_last hb rfl h
  | succ left ih =>
      by_cases h : (call.posted (maxRetries - 1 - (left + 1))).verdict = .transient
      · obtain ⟨e, htry, he⟩ := tryPost_transient (b := b) h
        have hout : attemptsFrom settings call (left + 1) b =
            { attemptsFrom settings call left b with
              attempts := (attemptsFrom settings call left b).attempts + 1
              waits := backoffBaseSec * 2 ^ (maxRetries - 1 - (left + 1)) ::
                (attemptsFrom settings call left b).waits } := by
          conv_lhs => unfold attemptsFrom
          simp [htry, he]
        have hverdict : call.verdictFrom (left + 1) = call.verdictFrom left := by
          rw [ApiCall.verdictFrom, h]
        rw [hverdict, hout]
        exact ⟨⟨Nat.le_add_left 1 _, Nat.add_le_add_right ih.attempts.2 1⟩, ih.transient, ih.closes,
          ih.replies⟩
      · have hverdict : call.verdictFrom (left + 1) =
            (call.posted (maxRetries - 1 - (left + 1))).verdict := by
          rw [ApiCall.verdictFrom]
          split
          · exact absurd ‹_› h
          · rfl
        rw [hverdict]
        exact attemptsFrom_last hb rfl h

end OneCall

/-! ## Runs -/

section Runs

variable {τ β : Type} [Zero τ] [Add τ] [Sub τ] [LT τ] [DecidableLT τ]
  {settings : BreakerSettings τ} {b : CircuitBreaker τ} {call : ApiCall τ β}
  {verdicts : List Verdict}

/-- The breaker as a call finds it that is not refused: an open one is half open now. -/
def CircuitBreaker.admitted (b : CircuitBreaker τ) : CircuitBreaker τ :=
  if b.state = .opened then { b with state := .halfOpen } else b

omit [Add τ] [Sub τ] [LT τ] [DecidableLT τ] in
theorem admitted_state (b : CircuitBreaker τ) : b.admitted.state ≠ .opened := by
  unfold CircuitBreaker.admitted
  split
  · simp
  · assumption

/-- A refused call does nothing. -/
theorem postSignedJson_refused (h : b.refuses call.startedAt = true) :
    (postSignedJson settings b call).attempts = 0 ∧
      (postSignedJson settings b call).breaker = b := by
  simp only [CircuitBreaker.refuses, Bool.and_eq_true, decide_eq_true_eq] at h
  rw [postSignedJson, CircuitBreaker.allowRequest, if_pos h.1, if_pos h.2]
  exact ⟨rfl, rfl⟩

theorem postSignedJson_admitted (h : b.refuses call.startedAt = false) :
    EndsWith settings call b.admitted call.verdict (maxRetries - 1)
      (postSignedJson settings b call) := by
  have hallow : b.allowRequest call.startedAt = .ok b.admitted := by
    simp only [CircuitBreaker.refuses, Bool.and_eq_false_iff, decide_eq_false_iff_not] at h
    unfold CircuitBreaker.allowRequest CircuitBreaker.admitted
    by_cases hopen : b.state = .opened
    · rw [if_pos hopen, if_neg (h.resolve_left (not_not_intro hopen)), if_pos hopen]
    · rw [if_neg hopen, if_neg hopen]
  rw [postSignedJson, hallow, verdict_eq]
  exact attemptsFrom_endsWith _ (admitted_state b)

theorem streak_append (verdicts : List Verdict) (verdict : Verdict) :
    streak (verdicts ++ [verdict]) = if verdict = .transient then streak verdicts + 1 else 0 := by
  unfold streak
  cases verdict <;> simp

/-- Between calls a closed breaker counts the failures at the end of the history, which are below
the threshold, and an open one follows at least as many failures as the threshold. -/
def Counts (settings : BreakerSettings τ) (b : CircuitBreaker τ) (verdicts : List Verdict) : Prop :=
  b.state = .closed ∧ b.consecutiveFailures = streak verdicts ∧
      streak verdicts < settings.failureThreshold ∨
    b.state = .opened ∧ settings.failureThreshold ≤ streak verdicts

omit [Sub τ] [LT τ] [DecidableLT τ] in
/-- A transient failure opens a half-open breaker and one that is at the threshold. -/
theorem onTransientFailure_spec (hb : Counts settings b verdicts) (now : τ) :
    if b.state = .opened ∨ streak verdicts + 1 = settings.failureThreshold then
      (b.admitted.onTransientFailure settings now).state = .opened ∧
        (b.admitted.onTransientFailure settings now).openUntil = now + settings.openSec
    else
      (b.admitted.onTransientFailure settings now).state = .closed ∧
        (b.admitted.onTransientFailure settings now).consecutiveFailures = streak verdicts + 1 := by
  rcases hb with ⟨hclosed, hcount, hbelow⟩ | ⟨hopen, -⟩
  · have hadmitted : b.admitted = b := by simp [CircuitBreaker.admitted, hclosed]
    rw [hadmitted]
    by_cases hlast : streak verdicts + 1 = settings.failureThreshold
    · rw [if_pos (Or.inr hlast)]
      simp [CircuitBreaker.onTransientFailure, hclosed, hcount, hlast]
    · have hnot : ¬ settings.failureThreshold ≤ streak verdicts + 1 := by omega
      rw [if_neg (by simp [hclosed, hlast])]
      simp [CircuitBreaker.onTransientFailure, hclosed, hcount, hnot]
  · rw [if_pos (Or.inl hopen)]
    simp [CircuitBreaker.admitted, CircuitBreaker.onTransientFailure, hopen]

/-- A call keeps the count. -/
theorem Counts.step (hb : Counts settings b verdicts) :
    Counts settings (postSignedJson settings b call).breaker
      (if b.refuses call.startedAt then verdicts else verdicts ++ [call.verdict]) := by
  cases hrefused : b.refuses call.startedAt with
  | true =>
      rw [(postSignedJson_refused hrefused).2]
      exact hb
  | false =>
      have hends : EndsWith settings call b.admitted call.verdict _ _ :=
        postSignedJson_admitted hrefused
      rw [if_neg Bool.false_ne_true, Counts, streak_append]
      by_cases htransient : call.verdict = .transient
      · have hspec := onTransientFailure_spec hb call.failedAt
        rw [hends.transient htransient, if_pos htransient]
        split at hspec
        · rename_i hlast
          refine Or.inr ⟨hspec.1, ?_⟩
          rcases hb with ⟨hclosed, -, -⟩ | ⟨-, habove⟩
          · rw [hclosed] at hlast
            exact Nat.le_of_eq (hlast.resolve_left (by simp)).symm
          · exact Nat.le_succ_of_le habove
        · rename_i hnot
          refine Or.inl ⟨hspec.1, hspec.2, ?_⟩
          rcases hb with ⟨-, -, hbelow⟩ | ⟨hopen, -⟩
          · have := fun h => hnot (Or.inr h)
            omega
          · exact absurd (Or.inl hopen) hnot
      · obtain ⟨hclosed, hzero⟩ := hends.closes htransient
        rw [if_neg htransient]
        exact Or.inl ⟨hclosed, hzero, settings.threshold_pos⟩

theorem history_append (calls : List (ApiCall τ β)) (call : ApiCall τ β) :
    history settings (calls ++ [call]) =
      ((postSignedJson settings (history settings calls).1 call).breaker,
        if (history settings calls).1.refuses call.startedAt then (history settings calls).2
        else (history settings calls).2 ++ [call.verdict]) := by
  rw [history, List.foldl_append]
  rfl

theorem history_counts (settings : BreakerSettings τ) (calls : List (ApiCall τ β)) :
    Counts settings (history settings calls).1 (history settings calls).2 := by
  induction calls using List.reverseRecOn with
  | nil => exact Or.inl ⟨rfl, rfl, settings.threshold_pos⟩
  | append_singleton calls call ih =>
      rw [history_append]
      exact ih.step

/-- What a call does to a breaker, when the calls before it that were not refused ended with these
verdicts. -/
structure Disciplined (settings : BreakerSettings τ) (b : CircuitBreaker τ)
    (verdicts : List Verdict) (call : ApiCall τ β) (out : Exchange τ β) : Prop where
  /-- A call that starts before an open breaker reopens makes no attempt. -/
  refused : b.state = .opened → call.startedAt < b.openUntil → out.attempts = 0 ∧ out.breaker = b
  /-- No call makes more than three attempts. -/
  bounded : out.attempts ≤ 3
  /-- A call opens the breaker if and only if it fails transiently as a probe, or as the last of as
  many failures in a row as the threshold says. -/
  opens : 0 < out.attempts ∧ out.breaker.state = .opened ↔
    0 < out.attempts ∧ call.verdict = .transient ∧
      (b.state = .opened ∨ streak verdicts + 1 = settings.failureThreshold)
  /-- It reopens so many seconds later as the settings say. -/
  reopens : 0 < out.attempts → out.breaker.state = .opened →
    out.breaker.openUntil = call.failedAt + settings.openSec
  /-- A success or a permanent failure closes the breaker and resets the count. -/
  closes : 0 < out.attempts → call.verdict ≠ .transient →
    out.breaker.state = .closed ∧ out.breaker.consecutiveFailures = 0
  /-- Any other call makes an attempt. -/
  admitted : ¬ (b.state = .opened ∧ call.startedAt < b.openUntil) → 0 < out.attempts

/-- After any calls, the next one keeps the discipline of the breaker. -/
theorem circuit_breaker_discipline (settings : BreakerSettings τ) (calls : List (ApiCall τ β))
    (call : ApiCall τ β) :
    Disciplined settings (history settings calls).1 (history settings calls).2 call
      (postSignedJson settings (history settings calls).1 call) := by
  have hb := history_counts settings calls
  generalize (history settings calls).1 = b at hb ⊢
  generalize (history settings calls).2 = verdicts at hb ⊢
  have hrefuses : b.refuses call.startedAt = true ↔
      b.state = .opened ∧ call.startedAt < b.openUntil := by
    simp [CircuitBreaker.refuses]
  cases hrefused : b.refuses call.startedAt with
  | true =>
      have hends : (postSignedJson settings b call).attempts = 0 ∧
          (postSignedJson settings b call).breaker = b := postSignedJson_refused hrefused
      obtain ⟨hnone, hsame⟩ := hends
      have hnot : ¬ 0 < (postSignedJson settings b call).attempts := by omega
      exact
        { refused := fun _ _ => ⟨hnone, hsame⟩
          bounded := by omega
          opens := by simp [hnone]
          reopens := fun h => absurd h hnot
          closes := fun h => absurd h hnot
          admitted := fun h => absurd (hrefuses.mp hrefused) h }
  | false =>
      have hends : EndsWith settings call b.admitted call.verdict (maxRetries - 1)
          (postSignedJson settings b call) := postSignedJson_admitted hrefused
      have hspec := onTransientFailure_spec hb call.failedAt
      have hfree : ¬ (b.state = .opened ∧ call.startedAt < b.openUntil) := by
        rw [← hrefuses, hrefused]
        exact Bool.false_ne_true
      have hopens : (postSignedJson settings b call).breaker.state = .opened ↔
          call.verdict = .transient ∧
            (b.state = .opened ∨ streak verdicts + 1 = settings.failureThreshold) := by
        by_cases htransient : call.verdict = .transient
        · rw [hends.transient htransient]
          split at hspec
          · rename_i hlast
            exact iff_of_true hspec.1 ⟨htransient, hlast⟩
          · rename_i hnot
            exact iff_of_false (by simp [hspec.1]) fun h => hnot h.2
        · exact iff_of_false (by simp [(hends.closes htransient).1]) fun h => htransient h.1
      exact
        { refused := fun hopen hearly => absurd ⟨hopen, hearly⟩ hfree
          bounded := hends.attempts.2
          opens := and_congr_right fun _ => hopens
          reopens := fun _ hopen => by
            obtain ⟨htransient, hlast⟩ := hopens.mp hopen
            rw [if_pos hlast] at hspec
            rw [hends.transient htransient]
            exact hspec.2
          closes := fun _ => hends.closes
          admitted := fun _ => hends.attempts.1 }

end Runs

/-- Two calls that find no connection open a breaker with threshold two for a minute. -/
example :
    let call : ApiCall Nat Unit := { startedAt := 1000, failedAt := 1003, posted := fun _ => .raised .connection }
    let b := (history ⟨2, 60, by decide⟩ [call, call]).1
    b.state = .opened ∧ b.openUntil = 1063 := by
  decide

end GpuFleet
