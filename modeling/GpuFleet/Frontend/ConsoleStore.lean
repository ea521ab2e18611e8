import Mathlib.Data.List.Basic

/-!
# The shared refresh of the console's tokens

`callApi` runs an operation with the access token.  When this answers 401, the call
waits for a refresh, which all such calls share, and runs the operation once more with
the token of the refresh.  The operations, the refresh and the calls waiting for it go on
in any order; a call that waits goes on some time after the refresh is answered.

In every run at most one refresh is under way, and a call is retried at most once, with
the refreshed token.  Every error of the second part of `callApi` counts as a failure of
the authentication, that of a retried operation included.  So failures are signalled
for cause as long as retried operations fail with 401 only (`run_sound`).
-/

namespace GpuFleet.ConsoleStore

/-- What a login and a refresh answer. -/
structure TokenPair where
  accessToken : String
  refreshToken : String

/-- What a request rejects with. -/
inductive Failure where
  | apiError (status : Nat) (code message : String)
  /-- Any other error, as that of the network. -/
  | other (message : String)

/-- `error instanceof ApiError && error.status === 401` -/
def Failure.isUnauthorized : Failure → Bool
  | .apiError status _ _ => status = 401
  | .other _ => false

/-- The promise of `refreshAccessToken`. -/
inductive Promise where
  | pending
  | resolved (accessToken : String)
  | rejected (error : Failure)

/-- Where a call stands: in its operation, awaiting the refresh, in its second attempt, or over. -/
inductive Stage (T : Type) where
  | operating
  | waiting
  | retrying
  | returned (value : T)
  | threw (error : Failure)

/-- A call of `callApi`. -/
structure Call (T : Type) where
  /-- The tokens when the call was made. -/
  auth : TokenPair
  /-- The tokens the operation was run with. -/
  tokens : List String
  /-- The refresh it waited for. -/
  refresh : Option Nat := none
  stage : Stage T := .operating

/-- The provider: its calls and the refs and callbacks they share. -/
structure State (T : Type) where
  calls : List (Call T) := []
  /-- The refreshes, each with the refresh token that was sent. -/
  refreshes : List (String × Promise) := []
  /-- `inflightRefreshRef.current` -/
  inflightRefresh : Option Nat := none
  alive : Bool := true
  /-- What `onAuthUpdate` was called with. -/
  updates : List TokenPair := []
  /-- The calls that signalled a failure of the authentication. -/
  failures : List Nat := []

/-- What the event loop may run next. -/
inductive Action (T : Type) where
  | call (auth : TokenPair)
  /-- The operation of a call is answered. -/
  | answer (i : Nat) (result : Except Failure T)
  | refreshAnswer (r : Nat) (result : Except Failure TokenPair)
  /-- A call that waits goes on. -/
  | resume (i : Nat)
  /-- The provider is mounted or unmounted. -/
  | mounted (alive : Bool)

variable {T : Type}

/-- The promise a call waits or waited for. -/
def Call.promise (refreshes : List (String × Promise)) (call : Call T) : Option Promise :=
  call.refresh.bind fun r => refreshes[r]?.map Prod.snd

namespace State

/-- Only the call itself writes its own state. -/
def setCall (s : State T) (i : Nat) (call : Call T) : State T :=
  { s with calls := s.calls.set i call }

/-- `onAuthFailure()`, with the call it was made for. -/
def signalAuthFailure (s : State T) (i : Nat) : State T :=
  { s with failures := s.failures ++ [i] }

/-- `refreshAccessToken`: the refresh under way, or a new one if there is none. -/
def refreshAccessToken (s : State T) (refreshToken : String) : State T × Nat :=
  match s.inflightRefresh with
  | some r => (s, r)
  | none =>
      ({ s with
        refreshes := s.refreshes ++ [(refreshToken, .pending)],
        inflightRefresh := some s.refreshes.length }, s.refreshes.length)

/-- The operation of a call is answered. -/
def answer (s : State T) (i : Nat) (call : Call T) : Except Failure T → State T
  | .ok value =>
      match call.stage with
      | .operating | .retrying => s.setCall i { call with stage := .returned value }
      | _ => s
  | .error e =>
      match call.stage with
      | .operating =>
          if e.isUnauthorized then
            let (s', r) := s.refreshAccessToken call.auth.refreshToken
            s'.setCall i { call with refresh := some r, stage := .waiting }
          else s.setCall i { call with stage := .threw e }
      | .retrying => (s.signalAuthFailure i).setCall i { call with stage := .threw e }
      | _ => s

/-- A refresh is answered. -/
def refreshAnswer (s : State T) (r : Nat) (refreshToken : String) :
    Except Failure TokenPair → State T
  | .ok next =>
      { s with
        refreshes := s.refreshes.set r (refreshToken, .resolved next.accessToken),
        inflightRefresh := none,
        updates := if s.alive then s.updates ++ [next] else s.updates }
  | .error e =>
      { s with
        refreshes := s.refreshes.set r (refreshToken, .rejected e), inflightRefresh := none }

/-- A call goes on with the refresh it waits for. -/
def resume (s : State T) (i : Nat) (call : Call T) : State T :=
  match call.stage, call.promise s.refreshes with
  | .waiting, some (.resolved token) =>
      s.setCall i { call with tokens := call.tokens ++ [token], stage := .retrying }
  | .waiting, some (.rejected e) =>
      (s.signalAuthFailure i).setCall i { call with stage := .threw e }
  | _, _ => s

/-- An action that does not apply, as an answer to a call that is over, changes nothing. -/
def step (s : State T) : Action T → State T
  | .call auth => { s with calls := s.calls ++ [{ auth := auth, tokens := [auth.accessToken] }] }
  | .answer i result => (s.calls[i]?).elim s fun call => s.answer i call result
  | .refreshAnswer r result =>
      match s.refreshes[r]? with
      | some (refreshToken, .pending) => s.refreshAnswer r refreshToken result
      | _ => s
  | .resume i => (s.calls[i]?).elim s (s.resume i)
  | .mounted alive => { s with alive := alive }

/-- The actions in their order, from the mounted provider on. -/
def run (actions : List (Action T)) : State T := actions.foldl step {}

end State

/-! ## What is promised -/

/-- The refresh failed, or the retried operation answered 401. -/
def Call.ForCause (refreshes : List (String × Promise)) (call : Call T) : Prop :=
  (∃ e, call.promise refreshes = some (.rejected e)) ∨
    call.tokens.length = 2 ∧ ∃ e, call.stage = .threw e ∧ e.isUnauthorized = true

/-- The operation was run a second time, with the token of the refresh. -/
def Call.Retried (refreshes : List (String × Promise)) (call : Call T) : Prop :=
  ∃ token, call.promise refreshes = some (.resolved token) ∧
    call.tokens = [call.auth.accessToken, token]

/-- At most one refresh is under way. -/
def Shared (s : State T) : Prop :=
  ∀ (r r' : Nat) (token token' : String), s.refreshes[r]? = some (token, .pending) →
    s.refreshes[r']? = some (token', .pending) → r = r'

/-- A call is retried at most once, with the refreshed token. -/
def RetriedOnce (s : State T) : Prop :=
  ∀ call ∈ s.calls, call.tokens = [call.auth.accessToken] ∨ call.Retried s.refreshes

/-- A failure is signalled for cause only. -/
def SignalledForCause (s : State T) : Prop :=
  ∀ i ∈ s.failures, ∃ call, s.calls[i]? = some call ∧ call.ForCause s.refreshes

/-- A retried operation fails with 401 only. -/
def Action.Expected (s : State T) : Action T → Prop
  | .answer i (.error e) =>
      ∀ call, s.calls[i]? = some call → call.stage = .retrying → e.isUnauthorized = true
  | _ => True

/-- All steps of a run are expected. -/
def AllExpected (s : State T) : List (Action T) → Prop
  | [] => True
  | action :: actions => action.Expected s ∧ AllExpected (s.step action) actions

/-! ## The invariant -/

/-- A settled promise stays as it is. -/
def Extends (refreshes refreshes' : List (String × Promise)) : Prop :=
  ∀ (r : Nat) (x : String × Promise), refreshes[r]? = some x → x.2 ≠ .pending →
    refreshes'[r]? = some x

/-- The tokens a call was run with, by its stage. -/
structure Call.Fits (refreshes : List (String × Promise)) (call : Call T) : Prop where
  once : call.tokens = [call.auth.accessToken] ∨ call.Retried refreshes
  first : call.stage = .operating ∨ call.stage = .waiting → call.tokens = [call.auth.accessToken]
  second : call.stage = .retrying → call.Retried refreshes

/-- What every step keeps, and that failures are signalled for cause, where `expected` holds. -/
structure Inv (expected : Prop) (s : State T) : Prop where
  pending : ∀ (r : Nat) (token : String), s.refreshes[r]? = some (token, .pending) →
    s.inflightRefresh = some r
  calls : ∀ call ∈ s.calls, call.Fits s.refreshes
  /-- A call that signalled a failure is over. -/
  failed : ∀ i ∈ s.failures, ∃ call, s.calls[i]? = some call ∧ (∃ e, call.stage = .threw e) ∧
    (expected → call.ForCause s.refreshes)

theorem Inv.shared {expected : Prop} {s : State T} (h : Inv expected s) : Shared s := by
  intro r r' token token' hr hr'
  have heq := (h.pending r token hr).symm.trans (h.pending r' token' hr')
  exact Option.some.inj heq

section Promises

variable {refreshes refreshes' : List (String × Promise)} {call : Call T}

theorem Extends.promise (h : Extends refreshes refreshes') {p : Promise}
    (hp : call.promise refreshes = some p) (hsettled : p ≠ .pending) :
    call.promise refreshes' = some p := by
  obtain ⟨r, hr, hmap⟩ := Option.bind_eq_some_iff.mp hp
  obtain ⟨x, hx, rfl⟩ := Option.map_eq_some_iff.mp hmap
  rw [Call.promise, hr, Option.bind_some, h r x hx hsettled, Option.map_some]

theorem Extends.retried (h : Extends refreshes refreshes') (hretried : call.Retried refreshes) :
    call.Retried refreshes' := by
  obtain ⟨token, hp, htokens⟩ := hretried
  exact ⟨token, h.promise hp (by simp), htokens⟩

theorem Extends.fits (h : Extends refreshes refreshes') (hfits : call.Fits refreshes) :
    call.Fits refreshes' where
  once := hfits.once.imp id h.retried
  first := hfits.first
  second := fun hstage => h.retried (hfits.second hstage)

theorem Extends.forCause (h : Extends refreshes refreshes') (hcause : call.ForCause refreshes) :
    call.ForCause refreshes' := by
  refine hcause.imp (fun hrejected => ?_) id
  obtain ⟨e, he⟩ := hrejected
  exact ⟨e, h.promise he (by simp)⟩

theorem Extends.refl (refreshes : List (String × Promise)) : Extends refreshes refreshes :=
  fun _ _ hx _ => hx

theorem extends_append (x : String × Promise) : Extends refreshes (refreshes ++ [x]) := by
  intro r y hy _
  have hlt : r < refreshes.length := (List.getElem?_eq_some_iff.mp hy).1
  rw [List.getElem?_append_left hlt, hy]

/-- The answer settles the promise. -/
theorem extends_set {r : Nat} {token : String} (hr : refreshes[r]? = some (token, .pending))
    (x : String × Promise) : Extends refreshes (refreshes.set r x) := by
  intro r' y hy hsettled
  have hne : r ≠ r' := by
    rintro rfl
    rw [hr] at hy
    cases hy
    exact hsettled rfl
  rw [List.getElem?_set_ne hne, hy]

end Promises

/-! ## Every step keeps the invariant -/

variable {expected : Prop} {s : State T} {i : Nat} {call call' : Call T}

/-- A call that is not over goes on. -/
theorem Inv.setCall (h : Inv expected s) (hcall : s.calls[i]? = some call)
    (hgoing : ∀ e, call.stage ≠ .threw e) (hfits : call'.Fits s.refreshes) :
    Inv expected (s.setCall i call') := by
  constructor
  · exact h.pending
  · intro c hc
    rcases List.mem_or_eq_of_mem_set hc with hc | rfl
    · exact h.calls c hc
    · exact hfits
  · intro j hj
    obtain ⟨c, hc, ⟨e, he⟩, hcause⟩ := h.failed j hj
    have hne : i ≠ j := by
      rintro rfl
      rw [hcall] at hc
      cases hc
      exact hgoing e he
    refine ⟨c, ?_, ⟨e, he⟩, hcause⟩
    show (s.calls.set i call')[j]? = some c
    rw [List.getElem?_set_ne hne, hc]

/-- A call that is not over fails for cause. -/
theorem Inv.fail (h : Inv expected s) (hcall : s.calls[i]? = some call)
    (hgoing : ∀ e, call.stage ≠ .threw e) (hfits : call'.Fits s.refreshes)
    (hover : ∃ e, call'.stage = .threw e) (hcause : expected → call'.ForCause s.refreshes) :
    Inv expected ((s.signalAuthFailure i).setCall i call') := by
  have hset := h.setCall hcall hgoing hfits
  constructor
  · exact hset.pending
  · exact hset.calls
  · intro j hj
    rcases List.mem_append.mp hj with hj | hj
    · exact hset.failed j hj
    · rw [List.mem_singleton.mp hj]
      refine ⟨call', ?_, hover, hcause⟩
      show (s.calls.set i call')[i]? = some call'
      exact List.getElem?_set_self (List.getElem?_eq_some_iff.mp hcall).1

/-- The promises change, but not those that are settled. -/
theorem Inv.refreshes {refreshes : List (String × Promise)} {inflight : Option Nat} (h : Inv expected s)
    (hextends : Extends s.refreshes refreshes)
    (hpending : ∀ (r : Nat) (token : String), refreshes[r]? = some (token, .pending) →
      inflight = some r) :
    Inv expected { s with refreshes := refreshes, inflightRefresh := inflight } := by
  constructor
  · exact hpending
  · exact fun call hcall => hextends.fits (h.calls call hcall)
  · intro i hi
    obtain ⟨call, hcall, hover, hcause⟩ := h.failed i hi
    exact ⟨call, hcall, hover, fun hok => hextends.forCause (hcause hok)⟩

theorem Inv.refreshAccessToken (h : Inv expected s) (refreshToken : String) :
    Inv expected (s.refreshAccessToken refreshToken).1 := by
  rw [State.refreshAccessToken]
  cases hinflight : s.inflightRefresh with
  | some r => exact h
  | none =>
      refine h.refreshes (extends_append _) fun r token hr => ?_
      rcases Nat.lt_or_ge r s.refreshes.length with hlt | hge
      · rw [List.getElem?_append_left hlt] at hr
        have hold := h.pending r token hr
        rw [hinflight] at hold
        cases hold
      · have hlt := (List.getElem?_eq_some_iff.mp hr).1
        rw [List.length_append, List.length_singleton] at hlt
        rw [Nat.le_antisymm (Nat.le_of_lt_succ hlt) hge]

theorem calls_refreshAccessToken (refreshToken : String) :
    (s.refreshAccessToken refreshToken).1.calls = s.calls := by
  rw [State.refreshAccessToken]
  cases s.inflightRefresh <;> rfl

theorem Inv.answer (h : Inv expected s) (hcall : s.calls[i]? = some call) (result : Except Failure T)
    (hexpected : expected → Action.Expected s (.answer i result)) : Inv expected (s.answer i call result) := by
  have hfits := h.calls call (List.mem_of_getElem? hcall)
  cases result with
  | ok value =>
      rw [State.answer]
      cases hstage : call.stage with
      | operating =>
          refine h.setCall hcall (by simp [hstage]) ⟨hfits.once, ?_, ?_⟩ <;> simp
      | retrying =>
          refine h.setCall hcall (by simp [hstage]) ⟨hfits.once, ?_, ?_⟩ <;> simp
      | waiting | returned | threw => exact h
  | error e =>
      rw [State.answer]
      cases hstage : call.stage with
      | operating =>
          simp only
          split
          · have htokens := hfits.first (Or.inl hstage)
            have hcall' : (s.refreshAccessToken call.auth.refreshToken).1.calls[i]? = some call := by
              rw [calls_refreshAccessToken, hcall]
            refine (h.refreshAccessToken call.auth.refreshToken).setCall hcall' (by simp [hstage])
              ⟨Or.inl htokens, fun _ => htokens, ?_⟩
            simp
          · refine h.setCall hcall (by simp [hstage]) ⟨hfits.once, ?_, ?_⟩ <;> simp
      | retrying =>
          obtain ⟨token, hp, htokens⟩ := hfits.second hstage
          refine h.fail hcall (by simp [hstage]) ⟨hfits.once, ?_, ?_⟩ ⟨e, rfl⟩ fun hok => ?_
          · simp
          · simp
          · have hunauthorized : e.isUnauthorized = true := hexpected hok call hcall hstage
            exact Or.inr ⟨by simp [htokens], e, rfl, hunauthorized⟩
      | waiting | returned | threw => exact h

theorem Inv.refreshAnswer {r : Nat} {refreshToken : String} (h : Inv expected s)
    (hr : s.refreshes[r]? = some (refreshToken, .pending)) (result : Except Failure TokenPair) :
    Inv expected (s.refreshAnswer r refreshToken result) := by
  have hpending : ∀ (x : String × Promise), x.2 ≠ .pending → ∀ (r' : Nat) (token : String),
      (s.refreshes.set r x)[r']? = some (token, .pending) → none = some r' := by
    intro x hx r' token hr'
    by_cases heq : r = r'
    · subst heq
      rw [List.getElem?_set_self (List.getElem?_eq_some_iff.mp hr).1] at hr'
      cases hr'
      exact absurd rfl hx
    · rw [List.getElem?_set_ne heq] at hr'
      have hsame := (h.pending r refreshToken hr).symm.trans (h.pending r' token hr')
      exact absurd (Option.some.inj hsame) heq
  cases result with
  | ok next =>
      have hnew := h.refreshes (extends_set hr (refreshToken, .resolved next.accessToken))
        (hpending _ (by simp))
      exact ⟨hnew.pending, hnew.calls, hnew.failed⟩
  | error e => exact h.refreshes (extends_set hr _) (hpending _ (by simp))

theorem Inv.resume (h : Inv expected s) (hcall : s.calls[i]? = some call) : Inv expected (s.resume i call) := by
  have hfits := h.calls call (List.mem_of_getElem? hcall)
  rw [State.resume]
  cases hstage : call.stage with
  | waiting =>
      have htokens := hfits.first (Or.inr hstage)
      cases hp : call.promise s.refreshes with
      | none => exact h
      | some p =>
          cases p with
          | pending => exact h
          | resolved token =>
              have hretried : Call.Retried s.refreshes
                  ({ call with tokens := call.tokens ++ [token], stage := .retrying } : Call T) :=
                ⟨token, hp, by simp [htokens]⟩
              refine h.setCall hcall (by simp [hstage]) ⟨Or.inr hretried, ?_, fun _ => hretried⟩
              simp
          | rejected e =>
              refine h.fail hcall (by simp [hstage]) ⟨hfits.once, ?_, ?_⟩ ⟨e, rfl⟩
                (fun _ => Or.inl ⟨e, hp⟩) <;> simp
  | operating | retrying | returned | threw => exact h

theorem Inv.step (h : Inv expected s) (action : Action T) (hexpected : expected → action.Expected s) :
    Inv expected (s.step action) := by
  cases action with
  | call auth =>
      constructor
      · exact h.pending
      · intro c hc
        rcases List.mem_append.mp hc with hc | hc
        · exact h.calls c hc
        · rw [List.mem_singleton.mp hc]
          exact ⟨Or.inl rfl, fun _ => rfl, by simp⟩
      · intro j hj
        obtain ⟨c, hc, hrest⟩ := h.failed j hj
        refine ⟨c, ?_, hrest⟩
        show (s.calls ++ _)[j]? = some c
        rw [List.getElem?_append_left (List.getElem?_eq_some_iff.mp hc).1, hc]
  | answer i result =>
      rw [State.step]
      cases hcall : s.calls[i]? with
      | none => exact h
      | some call => exact h.answer hcall result hexpected
  | refreshAnswer r result =>
      rw [State.step]
      split
      · next refreshToken hr => exact h.refreshAnswer hr result
      · exact h
  | resume i =>
      rw [State.step]
      cases hcall : s.calls[i]? with
      | none => exact h
      | some call => exact h.resume hcall
  | mounted alive => exact ⟨h.pending, h.calls, h.failed⟩

theorem Inv.run {actions : List (Action T)} (h : Inv expected s) (hexpected : expected → AllExpected s actions) :
    Inv expected (actions.foldl State.step s) := by
  induction actions generalizing s with
  | nil => exact h
  | cons action actions ih =>
      exact ih (h.step action fun hok => (hexpected hok).1) fun hok => (hexpected hok).2

/-- In every run refreshes are shared and calls are retried once, and if retried operations fail with
401 only, failures are signalled for cause. -/
theorem run_sound (actions : List (Action T)) :
    Shared (State.run actions) ∧ RetriedOnce (State.run actions) ∧
      (AllExpected {} actions → SignalledForCause (State.run actions)) := by
  have h : Inv (AllExpected {} actions) (State.run actions) :=
    Inv.run ⟨by simp, by simp, by simp⟩ id
  refine ⟨h.shared, fun call hcall => (h.calls call hcall).once, fun hok i hi => ?_⟩
  obtain ⟨call, hcall, -, hcause⟩ := h.failed i hi
  exact ⟨call, hcall, hcause hok⟩

/-- Two calls share a refresh; one of them is refused again. -/
def sharedRefresh : List (Action Unit) :=
  [.call ⟨"tok-A", "ref-A"⟩, .call ⟨"tok-A", "ref-A"⟩,
    .answer 0 (.error (.apiError 401 "ERR_UNAUTHORIZED" "expired")),
    .answer 1 (.error (.apiError 401 "ERR_UNAUTHORIZED" "expired")),
    .refreshAnswer 0 (.ok ⟨"tok-B", "ref-B"⟩), .resume 1, .resume 0, .answer 0 (.ok ()),
    .answer 1 (.error (.apiError 401 "ERR_UNAUTHORIZED" "expired"))]

theorem run_sound_sharedRefresh : (State.run sharedRefresh).failures = [1] ∧
    SignalledForCause (State.run sharedRefresh) :=
  ⟨rfl, (run_sound sharedRefresh).2.2 ⟨trivial, trivial, fun _ _ _ => rfl, fun _ _ _ => rfl,
    trivial, trivial, trivial, trivial, fun _ _ _ => rfl, trivial⟩⟩

/-- The retried operation fails with 500, and the session is dropped. -/
def failedRetry : List (Action Unit) :=
  [.call ⟨"tok-A", "ref-A"⟩, .answer 0 (.error (.apiError 401 "ERR_UNAUTHORIZED" "expired")),
    .refreshAnswer 0 (.ok ⟨"tok-B", "ref-B"⟩), .resume 0,
    .answer 0 (.error (.apiError 500 "ERR_INTERNAL" "db down"))]

theorem failedRetry_signals : ¬ ∀ actions : List (Action Unit), Shared (State.run actions) ∧
    RetriedOnce (State.run actions) ∧ SignalledForCause (State.run actions) := by
  intro h
  obtain ⟨call, hcall, hcause⟩ := (h failedRetry).2.2 0 List.mem_cons_self
  cases hcall
  rcases hcause with ⟨e, he⟩ | ⟨-, e, he, hunauthorized⟩
  · cases he
  · cases he
    cases hunauthorized

end GpuFleet.ConsoleStore
