import GpuFleet.Server.Schema

/-!
# The webhook queue

`emit` puts an event into a queue of 1000, and a worker takes the events one by
one, posts each up to four times and counts how it went.  A full queue drops its
oldest event for the new one.

The queue keeps its limit, the order of the events and the count of unfinished
ones in every run (`Emitter.sound_run`).  The counters per event name do not add
up in every run.  A drop is counted under the name of the new event, and an
event whose delivery raises, or is cancelled, is counted nowhere
(`webhook_uncounted`).  They add up if and only if neither happens
(`webhook_conserved_iff`).
-/

namespace GpuFleet

/-- `_QUEUE_CAPACITY` -/
def queueCapacity : Nat := 1000

structure WebhookSettings where
  webhookUrl : String
  webhookEvents : List String

/-- The words for a result in `WEBHOOK_SEND_TOTAL`. -/
inductive SendResult where
  | ok | fail | dropped
  deriving DecidableEq

/-- A `WebhookEmitter`. -/
structure Emitter where
  /-- The queued events, oldest first. -/
  queue : List WebhookEvent := []
  /-- The event the worker delivers. -/
  inFlight : Option WebhookEvent := none
  /-- The worker has been started. -/
  working : Bool := false
  /-- `unfinished_tasks` of the queue. -/
  unfinished : Nat := 0
  /-- `WEBHOOK_SEND_TOTAL` -/
  sendTotal : String → SendResult → Nat := fun _ _ => 0
  /-- The events accepted so far, oldest first.  Nothing reads them. -/
  accepted : List WebhookEvent := []
  /-- The events the worker has taken so far, oldest first.  Nothing reads them. -/
  taken : List WebhookEvent := []

/-! ## Deliveries -/

/-- What `client.post` does. -/
inductive PostResult where
  | response (statusCode : Nat)
  /-- `httpx.HTTPError` -/
  | httpError
  /-- Any other exception. -/
  | raises

/-- The response takes the event. -/
def PostResult.succeeds : PostResult → Bool
  | .response statusCode => 200 ≤ statusCode && statusCode < 300
  | _ => false

/-- What the outside does in a call of `_deliver`. -/
structure WebhookDelivery where
  /-- `json.dumps` of the envelope returns. -/
  encodes : Bool
  /-- The result of each post, the first being number 0. -/
  post : Nat → PostResult

/-- The loop of `_deliver` from an attempt on; `none` stands for an exception. -/
def deliverFrom (post : Nat → PostResult) : (attempt left : Nat) → Option SendResult
  | _, 0 => some .fail
  | attempt, left + 1 =>
      match post attempt with
      | .raises => none
      | .httpError => deliverFrom post (attempt + 1) left
      | .response statusCode =>
          if 200 ≤ statusCode ∧ statusCode < 300 then some .ok
          else deliverFrom post (attempt + 1) left

/-- `_deliver` -/
def deliver (d : WebhookDelivery) : Option SendResult :=
  if d.encodes then deliverFrom d.post 0 4 else none

namespace Emitter

/-! ## The emitter -/

/-- `put_nowait`; `none` stands for `QueueFull`. -/
def putNowait (envelope : WebhookEvent) (e : Emitter) : Option Emitter :=
  if queueCapacity ≤ e.queue.length then none
  else some { e with queue := e.queue ++ [envelope], unfinished := e.unfinished + 1 }

/-- `task_done`, which is called with an unfinished event. -/
def taskDone (e : Emitter) : Emitter := { e with unfinished := e.unfinished - 1 }

/-- `get_nowait` and `task_done` of a full queue. -/
def dropOldest (e : Emitter) : Emitter :=
  match e.queue with
  | [] => e
  | _ :: queue => taskDone { e with queue }

/-- Count a result of an event. -/
def count (name : String) (result : SendResult) (e : Emitter) : Emitter :=
  { e with
    sendTotal := fun n r =>
      if n = name ∧ r = result then e.sendTotal n r + 1 else e.sendTotal n r }

/-- `emit` goes on with the event. -/
def Accepts (settings : WebhookSettings) (event : WebhookEvent) : Prop :=
  settings.webhookUrl ≠ "" ∧ event.name ∈ settings.webhookEvents

instance (settings : WebhookSettings) (event : WebhookEvent) :
    Decidable (Accepts settings event) :=
  inferInstanceAs (Decidable (_ ∧ _))

/-- `emit` -/
def emit (settings : WebhookSettings) (event : WebhookEvent) (e : Emitter) : Emitter :=
  if settings.webhookUrl = "" then e
  else if event.name ∉ settings.webhookEvents then e
  else
    let e := { e with accepted := e.accepted ++ [event] }
    match e.putNowait event with
    | some e => e
    | none =>
        let e := e.dropOldest
        match e.putNowait event with
        | some e => e.count event.name .dropped
        | none => e.count event.name .dropped

/-- `queue.get` of the worker. -/
def get (e : Emitter) : Emitter :=
  match e.working, e.inFlight, e.queue with
  | true, none, event :: queue =>
      { e with queue, inFlight := some event, taken := e.taken ++ [event] }
  | _, _, _ => e

/-- The rest of a round of `_run_worker`. -/
def finish (d : WebhookDelivery) (e : Emitter) : Emitter :=
  match e.inFlight with
  | none => e
  | some event =>
      match deliver d with
      | some result => taskDone { e.count event.name result with inFlight := none }
      | none => taskDone { e with inFlight := none }

/-- The worker is cancelled. -/
def cancel (e : Emitter) : Emitter :=
  match e.inFlight with
  | none => { e with working := false }
  | some _ => taskDone { e with inFlight := none, working := false }

end Emitter

/-- What happens to an emitter. -/
inductive EmitterAction where
  | emit (event : WebhookEvent)
  | start
  | get
  | finish (d : WebhookDelivery)
  | cancel

/-- An action.  One that is not possible does nothing. -/
def EmitterAction.act (settings : WebhookSettings) : EmitterAction → Emitter → Emitter
  | emit event, e => e.emit settings event
  | start, e => if settings.webhookUrl = "" then e else { e with working := true }
  | get, e => e.get
  | finish d, e => e.finish d
  | cancel, e => e.cancel

/-! ## The queue -/

namespace Emitter

/-- The events leave the queue in the order they were accepted in, and the worker takes all but
those that were dropped. -/
structure Sound (e : Emitter) : Prop where
  limit : e.queue.length ≤ queueCapacity
  order : ∃ left : List (WebhookEvent × Bool), e.accepted = left.map Prod.fst ++ e.queue ∧
    e.taken = (left.filter Prod.snd).map Prod.fst
  current : ∀ event, e.inFlight = some event → e.taken.getLast? = some event
  unfinished : e.unfinished = e.queue.length + e.inFlight.toList.length

variable {settings : WebhookSettings} {event : WebhookEvent} {e : Emitter}

theorem emit_of_not (h : ¬ Accepts settings event) : e.emit settings event = e := by
  unfold emit
  split
  · rfl
  · rename_i hurl
    rw [if_pos fun hmem => h ⟨hurl, hmem⟩]

/-- There is room for the event. -/
theorem emit_of_room (h : Accepts settings event) (hroom : e.queue.length < queueCapacity) :
    e.emit settings event =
      { e with
        queue := e.queue ++ [event]
        unfinished := e.unfinished + 1
        accepted := e.accepted ++ [event] } := by
  rw [emit, if_neg h.1, if_neg (not_not.mpr h.2)]
  simp only [putNowait, if_neg (Nat.not_le_of_lt hroom)]

/-- The oldest event makes room. -/
theorem emit_of_full (h : Accepts settings event) {oldest : WebhookEvent}
    {queue : List WebhookEvent} (hqueue : e.queue = oldest :: queue)
    (hfull : e.queue.length = queueCapacity) :
    e.emit settings event =
      count event.name .dropped
        { e with
          queue := queue ++ [event]
          unfinished := e.unfinished - 1 + 1
          accepted := e.accepted ++ [event] } := by
  have hrest : ¬ queueCapacity ≤ queue.length := by
    rw [hqueue, List.length_cons] at hfull
    omega
  rw [hqueue] at hfull
  rw [emit, if_neg h.1, if_neg (not_not.mpr h.2)]
  simp only [putNowait, dropOldest, hqueue, taskDone, if_pos (Nat.le_of_eq hfull.symm), if_neg hrest]

/-- A queue that is full has an oldest event. -/
theorem exists_oldest (hfull : e.queue.length = queueCapacity) :
    ∃ oldest queue, e.queue = oldest :: queue := by
  cases hqueue : e.queue with
  | nil =>
      rw [hqueue] at hfull
      cases hfull
  | cons oldest queue => exact ⟨oldest, queue, rfl⟩

theorem Sound.emit (h : e.Sound) : (e.emit settings event).Sound := by
  by_cases haccepts : Accepts settings event
  · obtain ⟨left, haccepted, htaken⟩ := h.order
    rcases Nat.lt_or_eq_of_le h.limit with hroom | hfull
    · rw [emit_of_room haccepts hroom]
      exact
        { limit := by simpa using Nat.succ_le_of_lt hroom
          order := ⟨left, by simp [haccepted], htaken⟩
          current := h.current
          unfinished := by simp [h.unfinished]; omega }
    · obtain ⟨oldest, queue, hqueue⟩ := exists_oldest hfull
      rw [emit_of_full haccepts hqueue hfull]
      have hunfinished := h.unfinished
      have hlimit := h.limit
      rw [hqueue, List.length_cons] at hunfinished hlimit
      exact
        { limit := by simpa [count] using hlimit
          order := ⟨left ++ [(oldest, false)], by simp [count, haccepted, hqueue],
            by simp [count, htaken]⟩
          current := h.current
          unfinished := by simp [count]; omega }
  · rwa [emit_of_not haccepts]

theorem Sound.get (h : e.Sound) : e.get.Sound := by
  unfold Emitter.get
  split
  · rename_i event queue hworking hidle hqueue
    obtain ⟨left, haccepted, htaken⟩ := h.order
    have hunfinished := h.unfinished
    have hlimit := h.limit
    rw [hqueue, List.length_cons] at hunfinished hlimit
    rw [hidle] at hunfinished
    exact
      { limit := Nat.le_of_succ_le hlimit
        order := ⟨left ++ [(event, true)], by simp [haccepted, hqueue], by simp [htaken]⟩
        current := by simp
        unfinished := by simpa using hunfinished }
  · exact h

theorem Sound.finish (h : e.Sound) (d : WebhookDelivery) : (e.finish d).Sound := by
  unfold Emitter.finish
  cases hflight : e.inFlight with
  | none => exact h
  | some event =>
      have hunfinished := h.unfinished
      rw [hflight] at hunfinished
      cases deliver d <;>
        exact
          { limit := h.limit
            order := h.order
            current := nofun
            unfinished := by simp [taskDone, count, hunfinished] }

theorem Sound.cancel (h : e.Sound) : e.cancel.Sound := by
  unfold Emitter.cancel
  have hunfinished := h.unfinished
  cases hflight : e.inFlight with
  | none =>
      rw [hflight] at hunfinished
      exact { limit := h.limit, order := h.order, current := nofun, unfinished := hunfinished }
  | some event =>
      rw [hflight] at hunfinished
      exact
        { limit := h.limit
          order := h.order
          current := nofun
          unfinished := by simp [taskDone, hunfinished] }

theorem Sound.act (h : e.Sound) (action : EmitterAction) : (action.act settings e).Sound := by
  cases action with
  | emit event => exact h.emit
  | start =>
      rw [EmitterAction.act]
      split
      · exact h
      · exact { h with }
  | get => exact h.get
  | finish d => exact h.finish d
  | cancel => exact h.cancel

end Emitter

/-! ## The counters -/

/-- The events of a name that the counters and the queue account for. -/
def Emitter.accountedFor (name : String) (e : Emitter) : Nat :=
  e.sendTotal name .ok + e.sendTotal name .fail + e.sendTotal name .dropped +
    e.queue.countP (fun event => event.name = name) +
    e.inFlight.toList.countP fun event => event.name = name

/-- Every accepted event is accounted for under its name. -/
def Emitter.Balanced (e : Emitter) : Prop :=
  ∀ name, e.accepted.countP (fun event => event.name = name) = e.accountedFor name

/-- An exception leaves `_deliver`. -/
def WebhookDelivery.Escapes (d : WebhookDelivery) : Prop :=
  d.encodes = false ∨ ∃ n < 4, d.post n = .raises ∧ ∀ m < n, (d.post m).succeeds = false

/-- The action counts right: an event is dropped for one of its name, and no delivery ends with
an exception. -/
def EmitterAction.Counts (settings : WebhookSettings) (e : Emitter) : EmitterAction → Prop
  | emit event => Emitter.Accepts settings event → e.queue.length = queueCapacity →
      ∀ oldest ∈ e.queue.head?, oldest.name = event.name
  | finish d => e.inFlight.isSome → ¬ d.Escapes
  | cancel => e.inFlight = none
  | start | get => True

theorem deliver_none_iff {d : WebhookDelivery} : deliver d = none ↔ d.Escapes := by
  have hloop : ∀ left attempt, deliverFrom d.post attempt left = none ↔
      ∃ n < left, d.post (attempt + n) = .raises ∧
        ∀ m < n, (d.post (attempt + m)).succeeds = false := by
    intro left
    induction left with
    | zero => simp [deliverFrom]
    | succ left ih =>
        intro attempt
        rw [Nat.exists_lt_succ_left]
        have hlater := ih (attempt + 1)
        simp only [Nat.add_assoc, Nat.add_comm 1] at hlater
        simp only [Nat.forall_lt_succ_left, Nat.add_zero]
        rw [deliverFrom]
        cases hpost : d.post attempt with
        | raises => simp
        | httpError => simp [PostResult.succeeds, hlater]
        | response statusCode =>
            simp only
            split
            · rename_i hok
              simp [PostResult.succeeds, hok]
            · rename_i hbad
              have hfails : (PostResult.response statusCode).succeeds = false := by
                simpa [PostResult.succeeds] using hbad
              simp [hfails, hlater]
  unfold deliver WebhookDelivery.Escapes
  cases d.encodes with
  | false => simp
  | true => simpa using hloop 4 0

namespace Emitter

variable {settings : WebhookSettings} {event : WebhookEvent} {e : Emitter}

theorem accountedFor_count (name n : String) (result : SendResult) (e : Emitter) :
    (e.count n result).accountedFor name = e.accountedFor name + if n = name then 1 else 0 := by
  by_cases hn : n = name
  · cases result <;> simp [accountedFor, count, hn] <;> omega
  · simp [accountedFor, count, hn, Ne.symm hn]

/-- What leaves the worker without a count is missing. -/
theorem not_balanced_of_lost (h : e.Balanced) (hflight : e.inFlight = some event) {e' : Emitter}
    (haccepted : e'.accepted = e.accepted) (hsend : e'.sendTotal = e.sendTotal)
    (hqueue : e'.queue = e.queue) (hidle : e'.inFlight = none) : ¬ e'.Balanced := by
  intro h'
  have hbefore := h event.name
  have hafter := h' event.name
  rw [haccepted, hbefore] at hafter
  simp [accountedFor, hsend, hqueue, hidle, hflight] at hafter

theorem Balanced.emit_iff (h : e.Balanced) (hsound : e.Sound) :
    (e.emit settings event).Balanced ↔ EmitterAction.Counts settings e (.emit event) := by
  by_cases haccepts : Accepts settings event
  · rcases Nat.lt_or_eq_of_le hsound.limit with hroom | hfull
    · rw [emit_of_room haccepts hroom]
      refine iff_of_true (fun name => ?_) fun _ hfull => absurd hfull (Nat.ne_of_lt hroom)
      have hname := h name
      simp only [accountedFor, List.countP_append] at hname ⊢
      omega
    · obtain ⟨oldest, queue, hqueue⟩ := exists_oldest hfull
      have hcounts : EmitterAction.Counts settings e (.emit event) ↔ oldest.name = event.name := by
        simp only [EmitterAction.Counts, haccepts, hfull, forall_const]
        simp [hqueue]
      rw [hcounts, emit_of_full haccepts hqueue hfull]
      have hbalance : ∀ name, e.accepted.countP (fun event => event.name = name) =
          e.sendTotal name .ok + e.sendTotal name .fail + e.sendTotal name .dropped +
            (queue.countP (fun event => event.name = name) + if oldest.name = name then 1 else 0) +
            e.inFlight.toList.countP fun event => event.name = name := by
        intro name
        have hname := h name
        rw [accountedFor, hqueue, List.countP_cons] at hname
        simpa using hname
      have hafter : ∀ name, (count event.name .dropped
          { e with
            queue := queue ++ [event]
            unfinished := e.unfinished - 1 + 1
            accepted := e.accepted ++ [event] }).accountedFor name =
          e.sendTotal name .ok + e.sendTotal name .fail + e.sendTotal name .dropped +
            (queue.countP (fun event => event.name = name) + if event.name = name then 1 else 0) +
            (e.inFlight.toList.countP fun event => event.name = name) +
            if event.name = name then 1 else 0 := by
        intro name
        rw [accountedFor_count]
        simp [accountedFor, List.countP_append, List.countP_singleton]
      constructor
      · intro h'
        have hname := h' event.name
        rw [hafter] at hname
        simp only [count, List.countP_append, List.countP_singleton, hbalance] at hname
        by_contra hne
        simp [hne] at hname
      · intro hsame name
        rw [hafter]
        simp only [count, List.countP_append, List.countP_singleton, hbalance, hsame,
          decide_eq_true_eq]
  · rw [emit_of_not haccepts]
    exact iff_of_true h fun haccepts' => absurd haccepts' haccepts

theorem Balanced.finish_iff (h : e.Balanced) (d : WebhookDelivery) :
    (e.finish d).Balanced ↔ EmitterAction.Counts settings e (.finish d) := by
  cases hflight : e.inFlight with
  | none =>
      rw [Emitter.finish, hflight]
      exact iff_of_true h fun hsome => by simp [hflight] at hsome
  | some event =>
      have hcounts : EmitterAction.Counts settings e (.finish d) ↔ deliver d ≠ none := by
        rw [EmitterAction.Counts, hflight, Ne, deliver_none_iff]
        exact forall_prop_of_true rfl
      rw [hcounts, Emitter.finish, hflight]
      cases hdeliver : deliver d with
      | none =>
          refine iff_of_false ?_ fun hne => hne rfl
          exact not_balanced_of_lost h hflight rfl rfl rfl rfl
      | some result =>
          refine iff_of_true (fun name => ?_) nofun
          have hname := h name
          by_cases hsame : event.name = name
          · cases result <;> simp [accountedFor, taskDone, count, hflight, hsame] at hname ⊢ <;> omega
          · simp [accountedFor, taskDone, count, hflight, hsame, Ne.symm hsame] at hname ⊢
            omega

theorem Balanced.cancel_iff (h : e.Balanced) :
    e.cancel.Balanced ↔ EmitterAction.Counts settings e .cancel := by
  rw [EmitterAction.Counts]
  cases hflight : e.inFlight with
  | none =>
      rw [Emitter.cancel, hflight]
      refine iff_of_true (fun name => ?_) rfl
      have hname := h name
      rwa [accountedFor, hflight] at hname
  | some event =>
      rw [Emitter.cancel, hflight]
      refine iff_of_false ?_ nofun
      exact not_balanced_of_lost h hflight rfl rfl rfl rfl

theorem Balanced.act_iff (h : e.Balanced) (hsound : e.Sound) (action : EmitterAction) :
    (action.act settings e).Balanced ↔ action.Counts settings e := by
  cases action with
  | emit event => exact h.emit_iff hsound
  | start =>
      refine iff_of_true ?_ trivial
      rw [EmitterAction.act]
      split
      · exact h
      · exact h
  | get =>
      refine iff_of_true (fun name => ?_) trivial
      have hname := h name
      rw [EmitterAction.act, Emitter.get]
      split
      · rename_i hidle hqueue
        simp [accountedFor, hidle, hqueue, List.countP_cons] at hname ⊢
        omega
      · exact hname
  | finish d => exact h.finish_iff d
  | cancel => exact h.cancel_iff

end Emitter

/-! ## Runs -/

/-- The emitters of a run, each with the action that comes next. -/
def EmitterAction.before (settings : WebhookSettings) :
    Emitter → List EmitterAction → List (Emitter × EmitterAction)
  | _, [] => []
  | e, action :: later => (e, action) :: before settings (action.act settings e) later

/-- The emitters after each action of a run. -/
def EmitterAction.after (settings : WebhookSettings) : Emitter → List EmitterAction → List Emitter
  | _, [] => []
  | e, action :: later =>
      action.act settings e :: after settings (action.act settings e) later

/-- In every state of every run the queue keeps its limit, its order and its count. -/
theorem Emitter.sound_run {settings : WebhookSettings} {e : Emitter} (h : e.Sound)
    (actions : List EmitterAction) : ∀ e' ∈ EmitterAction.after settings e actions, e'.Sound := by
  induction actions generalizing e with
  | nil => nofun
  | cons action later ih =>
      intro e' he'
      rcases List.mem_cons.mp he' with rfl | he'
      · exact h.act action
      · exact ih (h.act action) e' he'

/-- In every state of a run the queue is sound and every accepted event is accounted for under its
name, if and only if every action counts right. -/
theorem webhook_conserved_iff (settings : WebhookSettings) (actions : List EmitterAction) :
    (∀ e ∈ EmitterAction.after settings {} actions, e.Sound ∧ e.Balanced) ↔
      ∀ s ∈ EmitterAction.before settings {} actions, s.2.Counts settings s.1 := by
  have hrun : ∀ (actions : List EmitterAction) (e : Emitter), e.Sound → e.Balanced →
      ((∀ e' ∈ EmitterAction.after settings e actions, e'.Sound ∧ e'.Balanced) ↔
        ∀ s ∈ EmitterAction.before settings e actions, s.2.Counts settings s.1) := by
    intro actions
    induction actions with
    | nil => exact fun _ _ _ => iff_of_true nofun nofun
    | cons action later ih =>
        intro e hsound hbalanced
        rw [EmitterAction.after, EmitterAction.before, List.forall_mem_cons, List.forall_mem_cons]
        have hstep : (action.act settings e).Balanced ↔ action.Counts settings e :=
          hbalanced.act_iff hsound action
        constructor
        · rintro ⟨⟨hsound', hbalanced'⟩, hlater⟩
          exact ⟨hstep.mp hbalanced', (ih _ hsound' hbalanced').mp hlater⟩
        · rintro ⟨hcounts, hlater⟩
          have hsound' : (action.act settings e).Sound := hsound.act action
          have hbalanced' := hstep.mpr hcounts
          exact ⟨⟨hsound', hbalanced'⟩, (ih _ hsound' hbalanced').mpr hlater⟩
  refine hrun actions {} ?_ fun _ => rfl
  exact { limit := Nat.zero_le _, order := ⟨[], rfl, rfl⟩, current := nofun, unfinished := rfl }

/-- The emitter a run leads to. -/
def EmitterAction.last (settings : WebhookSettings) (e : Emitter) (actions : List EmitterAction) :
    Emitter :=
  actions.foldl (fun e action => action.act settings e) e

theorem EmitterAction.last_mem_after {settings : WebhookSettings} {e : Emitter}
    {actions : List EmitterAction} (h : actions ≠ []) :
    last settings e actions ∈ after settings e actions := by
  induction actions generalizing e with
  | nil => exact absurd rfl h
  | cons action later ih =>
      cases later with
      | nil => exact List.mem_singleton_self _
      | cons next later => exact List.mem_cons_of_mem _ (ih (List.cons_ne_nil next later))

/-- Emitting one event over and over fills the queue with it. -/
theorem EmitterAction.queue_fill {settings : WebhookSettings} {event : WebhookEvent}
    (haccepts : Emitter.Accepts settings event) {n : Nat} {e : Emitter}
    (hroom : e.queue.length + n ≤ queueCapacity) :
    (last settings e (List.replicate n (.emit event))).queue =
      e.queue ++ List.replicate n event := by
  induction n generalizing e with
  | zero => simp [last]
  | succ n ih =>
      have hemit := Emitter.emit_of_room haccepts (by omega : e.queue.length < queueCapacity)
      have hlater := @ih (e.emit settings event) (by rw [hemit]; simp; omega)
      rw [hemit] at hlater
      simpa [last, List.replicate_succ, EmitterAction.act, hemit] using hlater

/-- A thousand events of one name fill the queue, and one of another name makes it drop its
oldest: the drop is counted under the new name. -/
theorem webhook_uncounted :
    ¬ ∀ (settings : WebhookSettings) (actions : List EmitterAction),
      ∀ e ∈ EmitterAction.after settings {} actions, e.Sound ∧ e.Balanced := by
  intro h
  let settings : WebhookSettings := ⟨"https://hook", ["task.failed", "node.offline"]⟩
  let failed : WebhookEvent := ⟨"task.failed", .null, "warning"⟩
  let offline : WebhookEvent := ⟨"node.offline", .null, "warning"⟩
  let fill : List EmitterAction := List.replicate queueCapacity (.emit failed)
  have hqueue : (EmitterAction.last settings {} fill).queue = List.replicate queueCapacity failed :=
    EmitterAction.queue_fill ⟨by decide, by decide⟩ (Nat.le_of_eq (Nat.zero_add _))
  obtain ⟨hsound, hbalanced⟩ := h settings fill _ (EmitterAction.last_mem_after nofun)
  have hnext : ((EmitterAction.emit offline).act settings (EmitterAction.last settings {} fill)) ∈
      EmitterAction.after settings {} (fill ++ [.emit offline]) := by
    have hmem : EmitterAction.last settings {} (fill ++ [.emit offline]) ∈
        EmitterAction.after settings {} (fill ++ [.emit offline]) :=
      EmitterAction.last_mem_after (by simp)
    rwa [EmitterAction.last, List.foldl_concat] at hmem
  have hcounts := (hbalanced.act_iff hsound (.emit offline)).mp
    (h settings (fill ++ [.emit offline]) _ hnext).2
  have hname := hcounts ⟨by decide, by decide⟩ (by rw [hqueue, List.length_replicate]) failed
    (by rw [hqueue]; rfl)
  exact absurd hname (by decide)

end GpuFleet
