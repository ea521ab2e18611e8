import GpuFleet.Agent.ApiClient
import GpuFleet.Foundations.Budget
import GpuFleet.Server.NodeUpdates
import GpuFleet.Server.StatusHistory

/-!
# Samples on their way to the status history

The sampler of the agent pushes its samples into a ring buffer, and a heartbeat
drains the buffer into its payload.  `post_signed_json` sends the payload under
new headers again after an error it takes for transient, three times at most.
An attempt may get lost, arrive late, or lose its answer after the server has
stored its samples.

The server compares the samples of one payload with each other and with nothing
it has stored.  So an attempt that was stored and is sent again is stored twice
(`sample_stored_twice`).  A sample is stored once at most when an attempt with
samples arrives only after the earlier attempts of its heartbeat have ended at
the server and stored none (`samples_stored_once`).

A sample is known by its time stamp, written as the server writes it.
-/

namespace GpuFleet

open Foundations

/-! ## The agent -/

/-- `SampleRingBuffer.push`: a full buffer drops its oldest sample. -/
def pushSample (capacity : Nat) (buffer : List String) (ts : String) : List String :=
  (buffer ++ [ts]).drop (buffer.length + 1 - capacity)

/-- How a post ends. -/
inductive PostOutcome where
  | response (status : Nat)
  | connectionError
  | timeout
  /-- Any other exception, such as an answer that is not JSON. -/
  | other

/-- `_is_transient_error` -/
def isTransientError : PostOutcome → Bool
  | .response status => status ∈ [500, 502, 503, 504, 429]
  | .connectionError | .timeout => true
  | .other => false

/-- One round of the loop of `post_signed_json`: the next attempt, or `none` when it returns or
raises. -/
def nextPost (attempt : Nat) (o : PostOutcome) : Option Nat :=
  if isTransientError o && attempt ≠ maxRetries - 1 then some (attempt + 1) else none

/-- A heartbeat of the agent, with the body its payload is sent in. -/
structure Beat where
  number : Nat
  payload : HeartbeatRequest
  body : String

/-! ## The server -/

/-- The samples of a node that a statement stores. -/
def Dml.sampleTimes (nodeId : String) : Dml → List String
  | .snapshot (.insertMany rows) => (rows.filter (Snapshot.isSampleOf nodeId)).map Snapshot.reportedAt
  | _ => []

/-- A transaction of the server that stores no samples of the node. -/
structure Bystander (nodeId : String) where
  code : Tx Unit
  quiet : code.Avoids (fun _ => True) (fun q => q.sampleTimes nodeId ≠ []) fun _ => True

/-- What the server runs: the attempts of the node's heartbeats and everything else. -/
inductive TelemetryOp (nodeId : String) where
  | attempt (beat : Beat) (request : SignedRequest) (random : String) (authenticatedAt now : Nat)
  | other (op : Bystander nodeId)

namespace TelemetryOp

variable {nodeId : String}

/-- The operation is an attempt of a heartbeat. -/
def attempts (number : Nat) : TelemetryOp nodeId → Bool
  | attempt beat .. => beat.number = number
  | other _ => false

/-- The operation is an attempt that carries a sample. -/
def carries (ts : String) : TelemetryOp nodeId → Bool
  | attempt beat .. => ts ∈ beat.payload.samples
  | other _ => false

/-- The program of an operation. -/
def code (settings : Settings) (crypto : Crypto) : TelemetryOp nodeId → Tx Unit
  | attempt beat request random authenticatedAt now =>
      NodeOp.code settings crypto nodeId
        (.heartbeat request random authenticatedAt (some beat.payload) now)
  | other op => op.code

end TelemetryOp

/-! ## Both of them -/

/-- An attempt on its way to the server. -/
structure Sent where
  beat : Beat
  request : SignedRequest

/-- The agent and the server. -/
structure Telemetry (nodeId : String) where
  /-- The ring buffer. -/
  buffer : List String
  /-- The heartbeat being posted, with the number of its attempt. -/
  posting : Option (Beat × Nat)
  /-- The samples each heartbeat has drained, the first heartbeat first. -/
  drained : List (List String)
  /-- The attempts that were sent and have not arrived. -/
  travelling : List Sent
  server : Conf (TelemetryOp nodeId) Dml Db World Exc Unit
  history : History (TelemetryOp nodeId) Dml

/-- What happens to the agent and to the server. -/
inductive TelemetryAct (nodeId : String) where
  /-- The sampler takes a sample. -/
  | sample (ts : String)
  /-- A heartbeat drains the buffer.  Its first attempt is signed with a nonce at a clock reading,
  unless the circuit breaker lets no request pass. -/
  | beat (payload : HeartbeatRequest) (body : String) (signed : Option (String × Nat))
  /-- The attempt being posted ends.  If there is a next one, it is signed with a nonce at a clock
  reading. -/
  | postEnds (o : PostOutcome) (nonce : String) (now : Nat)
  /-- Attempt `i` of those on their way arrives. -/
  | arrives (i : Nat) (random : String) (authenticatedAt now : Nat)
  /-- Another request arrives. -/
  | request (op : Bystander nodeId)
  /-- A session of the server goes on. -/
  | turn (i : Nat)
  /-- A statement or the commit of a session fails. -/
  | fail (i : Nat) (e : Exc)

/-- The samples that are taken. -/
def TelemetryAct.taken {nodeId : String} : TelemetryAct nodeId → List String
  | sample ts => [ts]
  | _ => []

namespace Telemetry

variable {nodeId : String}

/-- An agent that has just started. -/
def start (nodeId : String) (db : Db) (x : World) : Telemetry nodeId :=
  ⟨[], none, [], [], .init db x, {}⟩

section Step

variable (settings : Settings) (crypto : Crypto) (nodeSecret : String) (capacity : Nat)

/-- An action of the server. -/
def serve (s : Telemetry nodeId) (a : Act (TelemetryOp nodeId) Exc) : Option (Telemetry nodeId) :=
  (s.server.step (TelemetryOp.code settings crypto) a).map fun server =>
    { s with server, history := s.server.record s.history a }

/-- Send an attempt of a heartbeat under new headers. -/
def send (s : Telemetry nodeId) (beat : Beat) (attempt : Nat) (nonce : String) (now : Nat) :
    Telemetry nodeId :=
  { s with
    posting := some (beat, attempt)
    travelling := s.travelling ++
      [⟨beat, buildHeaders crypto nodeId nodeSecret beat.body nonce now⟩] }

/-- One action, if it is possible. -/
def step (s : Telemetry nodeId) : TelemetryAct nodeId → Option (Telemetry nodeId)
  | .sample ts => some { s with buffer := pushSample capacity s.buffer ts }
  | .beat payload body signed =>
      if s.posting.isSome then none
      else
        let beat : Beat := ⟨s.drained.length, { payload with samples := s.buffer }, body⟩
        let drained := { s with buffer := [], drained := s.drained ++ [s.buffer] }
        match signed with
        | none => some drained
        | some (nonce, now) => some (drained.send crypto nodeSecret beat 0 nonce now)
  | .postEnds o nonce now => s.posting.map fun (beat, attempt) =>
      match nextPost attempt o with
      | none => { s with posting := none }
      | some next => s.send crypto nodeSecret beat next nonce now
  | .arrives i random authenticatedAt now => s.travelling[i]?.bind fun sent =>
      { s with travelling := s.travelling.eraseIdx i }.serve settings crypto
        (.spawn (.attempt sent.beat sent.request random authenticatedAt now))
  | .request op => s.serve settings crypto (.spawn (.other op))
  | .turn i => s.serve settings crypto (.turn i)
  | .fail i e => s.serve settings crypto (.fail i e)

/-- A list of actions, one after another. -/
def run (s : Telemetry nodeId) : List (TelemetryAct nodeId) → Option (Telemetry nodeId)
  | [] => some s
  | a :: as => (s.step settings crypto nodeSecret capacity a).bind fun s' => s'.run as

/-- An attempt with samples arrives only when the attempts of its heartbeat that arrived before it
have ended and have stored no samples. -/
def UnstoredBefore (s : Telemetry nodeId) : TelemetryAct nodeId → Prop
  | .arrives i .. => ∀ sent ∈ s.travelling[i]?, sent.beat.payload.samples ≠ [] →
      (∀ t ∈ s.server.sessions, t.tag.attempts sent.beat.number = true → t.done.isSome = true) ∧
        ∀ e ∈ s.history.committed, e.1.attempts sent.beat.number = true →
          e.2.sampleTimes nodeId = []
  | _ => True

/-- Every action of a run meets the condition. -/
def Meets (s : Telemetry nodeId) : List (TelemetryAct nodeId) → Prop
  | [] => True
  | a :: as => s.UnstoredBefore a ∧
      ∀ s', s.step settings crypto nodeSecret capacity a = some s' → s'.Meets as

instance (s : Telemetry nodeId) : ∀ a, Decidable (s.UnstoredBefore a)
  | .arrives i _ _ _ =>
      inferInstanceAs (Decidable (∀ sent ∈ s.travelling[i]?, sent.beat.payload.samples ≠ [] →
        (∀ t ∈ s.server.sessions, t.tag.attempts sent.beat.number = true → t.done.isSome = true) ∧
          ∀ e ∈ s.history.committed, e.1.attempts sent.beat.number = true →
            e.2.sampleTimes nodeId = []))
  | .sample _ | .beat _ _ _ | .postEnds _ _ _ | .request _ | .turn _ | .fail _ _ => isTrue trivial

/-- Whether a run meets the condition can be computed. -/
instance Meets.decidable : ∀ (s : Telemetry nodeId) as,
    Decidable (s.Meets settings crypto nodeSecret capacity as)
  | _, [] => isTrue trivial
  | s, a :: as =>
      have : Decidable (∀ s', s.step settings crypto nodeSecret capacity a = some s' →
          s'.Meets settings crypto nodeSecret capacity as) :=
        match s.step settings crypto nodeSecret capacity a with
        | none => isTrue nofun
        | some s₁ =>
            have := Meets.decidable s₁ as
            decidable_of_iff (s₁.Meets settings crypto nodeSecret capacity as)
              ⟨fun h _ e => Option.some.inj e ▸ h, fun h => h s₁ rfl⟩
      inferInstanceAs (Decidable (_ ∧ _))

end Step

end Telemetry

/-! ## What a statement stores -/

section Statements

variable {nodeId : String}

theorem sampleTimes_buildSnapshotRows (nodeId nowIso : String) (payload : HeartbeatRequest) :
    (Dml.snapshot (.insertMany (buildSnapshotRows nodeId nowIso payload))).sampleTimes nodeId =
      freshSamples [nowIso] payload.samples := by
  rw [Dml.sampleTimes, buildSnapshotRows, List.filter_cons_of_neg (by simp [Snapshot.isSampleOf]),
    List.filter_eq_self.mpr]
  · simp [List.map_map, Function.comp_def]
  · intro row hrow
    obtain ⟨ts, -, rfl⟩ := List.mem_map.mp hrow
    simp [Snapshot.isSampleOf]

theorem sampleTimes_of_incidental {q : Dml} (h : q.Incidental) : q.sampleTimes nodeId = [] := by
  cases q with
  | snapshot q =>
      cases q with
      | insertMany rows => cases h.2
      | trim _ _ => rfl
  | _ => rfl

/-- An insertion appends its samples. -/
theorem sampleTimes_insertMany (rows : List Snapshot) (db : Db) :
    sampleTimes nodeId (Statement.apply (Dml.snapshot (.insertMany rows)) db) =
      sampleTimes nodeId db ++ (Dml.snapshot (.insertMany rows)).sampleTimes nodeId := by
  show (((SnapshotStmt.insertMany rows).apply db.snapshots).rows.filter _).map _ = _
  rw [SnapshotStmt.rows_insertMany, List.filter_append, List.map_append,
    filter_map_numbered (fun _ _ => rfl) fun _ _ => rfl]
  rfl

/-- A statement adds to the status history at most the samples it stores. -/
theorem count_sampleTimes_apply (ts : String) (q : Dml) (db : Db) :
    (sampleTimes nodeId (Statement.apply q db)).count ts ≤
      (sampleTimes nodeId db).count ts + (q.sampleTimes nodeId).count ts := by
  cases q with
  | snapshot q =>
      cases q with
      | insertMany rows => rw [sampleTimes_insertMany, List.count_append]
      | trim trimmed keep =>
          refine Nat.le_trans (List.Sublist.count_le ts ?_) (Nat.le_add_right _ _)
          exact (List.Sublist.filter _ List.filter_sublist).map _
  | _ => exact Nat.le_add_right _ _

end Statements

/-- How often a statement stores a sample. -/
def stores {nodeId : String} (ts : String) (_ : TelemetryOp nodeId) (q : Dml) : Nat :=
  (q.sampleTimes nodeId).count ts

/-- An attempt stores each of the samples it carries once at most, and no others. -/
theorem TelemetryOp.code_costs {nodeId : String} (settings : Settings) (crypto : Crypto)
    (ts : String) (op : TelemetryOp nodeId) :
    (op.code settings crypto).Costs (stores ts op) (Conf.allowance (op.carries ts) 0) := by
  cases op with
  | other op =>
      refine Prog.Costs.of_avoids op.quiet (fun q hq => ?_) _
      rw [stores, not_not.mp hq, List.count_nil]
  | attempt beat request random authenticatedAt now =>
      have hfree {q : Dml} (hq : ¬ ¬ q.Incidental) :
          stores ts (.attempt beat request random authenticatedAt now : TelemetryOp nodeId) q = 0 := by
        rw [stores, sampleTimes_of_incidental (not_not.mp hq), List.count_nil]
      refine Prog.Costs.bind (Prog.Costs.of_avoids
        (authenticateNode_incidental ..) (fun _ => hfree) 0) fun node => ?_
      obtain ⟨rest, hrest, heq⟩ := heartbeat_split settings.maxStatusHistoryPerNode nodeId node
        beat.payload now
      show (heartbeat settings.maxStatusHistoryPerNode nodeId node beat.payload now >>=
        fun _ => pure ()).Costs _ _
      refine Prog.Costs.bind_ret ?_ _
      rw [heq]
      refine Prog.Costs.bind (Prog.costs_execute rfl) fun _ => ?_
      refine Prog.Costs.bind (Prog.costs_execute rfl) fun _ => ?_
      refine ⟨?_, fun _ => Prog.Costs.of_avoids hrest (fun _ => hfree) _⟩
      rw [stores, sampleTimes_buildSnapshotRows, Conf.allowance]
      cases hcarries : TelemetryOp.carries ts
          (.attempt beat request random authenticatedAt now : TelemetryOp nodeId) with
      | true => exact List.nodup_iff_count_le_one.mp (freshSamples_nodup ..) ts
      | false =>
          have hnot : ts ∉ beat.payload.samples := of_decide_eq_false hcarries
          rw [List.count_eq_zero_of_not_mem fun h => hnot ((freshSamples_sublist ..).subset h)]
          exact Nat.zero_le _

/-- What is in the status history was there first or was stored by a statement. -/
theorem count_sampleTimes_replay {nodeId : String} (ts : String)
    (l : List (TelemetryOp nodeId × Dml)) (db : Db) :
    (sampleTimes nodeId (replay (fun e db => Statement.apply e.2 db) l db)).count ts ≤
      (sampleTimes nodeId db).count ts + spent (stores ts) l := by
  induction l generalizing db with
  | nil => exact Nat.le_refl _
  | cons e l ih =>
      have hone : (sampleTimes nodeId (Statement.apply e.2 db)).count ts ≤
          (sampleTimes nodeId db).count ts + (e.2.sampleTimes nodeId).count ts :=
        count_sampleTimes_apply ts e.2 db
      have hrest := ih (Statement.apply e.2 db)
      have hcost : stores ts e.1 e.2 = (e.2.sampleTimes nodeId).count ts := rfl
      show _ ≤ _ + (stores ts e.1 e.2 + spent (stores ts) l)
      calc
        _ ≤ (sampleTimes nodeId (Statement.apply e.2 db)).count ts + spent (stores ts) l := hrest
        _ ≤ (sampleTimes nodeId db).count ts + (e.2.sampleTimes nodeId).count ts +
            spent (stores ts) l := Nat.add_le_add_right hone _
        _ = _ := by rw [hcost, Nat.add_assoc]

/-! ## What a run keeps -/

section Runs

variable {settings : Settings} {crypto : Crypto} {nodeId nodeSecret : String} {capacity : Nat}
  {first : Db} {taken : List String} {s s' : Telemetry nodeId}

/-- The heartbeat carries what it has drained. -/
def Beat.Drained (drained : List (List String)) (beat : Beat) : Prop :=
  drained[beat.number]? = some beat.payload.samples

/-- Two heartbeats that carry one sample are the same. -/
theorem Beat.Drained.number_eq {drained : List (List String)} (hnodup : drained.flatten.Nodup)
    {a b : Beat} (ha : a.Drained drained) (hb : b.Drained drained) {ts : String}
    (hats : ts ∈ a.payload.samples) (hbts : ts ∈ b.payload.samples) : a.number = b.number := by
  by_contra hne
  have hdisjoint := (List.nodup_flatten.mp hnodup).2
  rw [List.pairwise_iff_getElem] at hdisjoint
  obtain ⟨hai, hae⟩ := List.getElem?_eq_some_iff.mp ha
  obtain ⟨hbi, hbe⟩ := List.getElem?_eq_some_iff.mp hb
  rcases Nat.lt_or_gt_of_ne hne with hlt | hlt
  · exact hdisjoint _ _ hai hbi hlt (hae ▸ hats) (hbe ▸ hbts)
  · exact hdisjoint _ _ hbi hai hlt (hbe ▸ hbts) (hae ▸ hats)

theorem Beat.Drained.append {drained : List (List String)} {beat : Beat}
    (h : beat.Drained drained) (l : List String) : beat.Drained (drained ++ [l]) := by
  rw [Beat.Drained, List.getElem?_append_left (List.getElem?_eq_some_iff.mp h).1]
  exact h

/-- The operation is no attempt, or its heartbeat carries what it has drained. -/
def TelemetryOp.Drained (drained : List (List String)) : TelemetryOp nodeId → Prop
  | attempt beat .. => beat.Drained drained
  | other _ => True

theorem TelemetryOp.Drained.append {drained : List (List String)} {op : TelemetryOp nodeId}
    (h : op.Drained drained) (l : List String) : op.Drained (drained ++ [l]) := by
  cases op with
  | attempt _ _ _ _ _ => exact Beat.Drained.append h l
  | other _ => trivial

/-- Two attempts that carry one sample belong to one heartbeat. -/
theorem TelemetryOp.Drained.attempts {drained : List (List String)}
    (hnodup : drained.flatten.Nodup) {op : TelemetryOp nodeId} (hop : op.Drained drained)
    {beat : Beat} (hbeat : beat.Drained drained) {ts : String} (hcarries : op.carries ts = true)
    (hts : ts ∈ beat.payload.samples) : op.attempts beat.number = true := by
  cases op with
  | other _ => cases hcarries
  | attempt b _ _ _ _ =>
      exact decide_eq_true (Beat.Drained.number_eq hnodup hop hbeat (of_decide_eq_true hcarries) hts)

/-- What a run keeps: each sample is in the buffer or was drained by one heartbeat, and each
sample is stored once at most. -/
structure Carried (first : Db) (taken : List String) (s : Telemetry nodeId) : Prop where
  nodup : (s.drained.flatten ++ s.buffer).Nodup
  taken : ∀ ts ∈ s.drained.flatten ++ s.buffer, ts ∈ taken
  posting : ∀ p, s.posting = some p → p.1.Drained s.drained
  travelling : ∀ sent ∈ s.travelling, sent.beat.Drained s.drained
  sessions : ∀ t ∈ s.server.sessions, t.tag.Drained s.drained
  logged : ∀ e ∈ s.history.all, e.1.Drained s.drained
  once : ∀ ts, Conf.Once (stores ts) (TelemetryOp.carries ts) ((sampleTimes nodeId first).count ts)
    s.server s.history
  recorded : Conf.Recorded id (fun e db => Statement.apply e.2 db) first s.server s.history

theorem carried_start (db : Db) (x : World) (h : (sampleTimes nodeId db).Nodup) :
    Carried db [] (Telemetry.start nodeId db x) where
  nodup := List.nodup_nil
  taken := by simp [Telemetry.start]
  posting := by simp [Telemetry.start]
  travelling := by simp [Telemetry.start]
  sessions := by simp [Telemetry.start, Conf.init]
  logged := by simp [Telemetry.start, History.all]
  once ts := Conf.once_init db x (List.nodup_iff_count_le_one.mp h ts)
  recorded := Conf.recorded_init db x

/-- The sampler takes a new sample. -/
theorem Carried.sample (hs : Carried first taken s) {ts : String} (hts : ts ∉ taken) :
    Carried first (taken ++ [ts]) { s with buffer := pushSample capacity s.buffer ts } where
  nodup := by
    have hsub : (s.drained.flatten ++ pushSample capacity s.buffer ts).Sublist
        (s.drained.flatten ++ s.buffer ++ [ts]) := by
      rw [List.append_assoc]
      exact (List.drop_sublist _ _).append_left _
    refine hsub.nodup (List.nodup_append.mpr ⟨hs.nodup, List.nodup_singleton ts, ?_⟩)
    rintro t ht _ hmem rfl
    exact hts (List.mem_singleton.mp hmem ▸ hs.taken t ht)
  taken t ht := by
    rcases List.mem_append.mp ht with ht | ht
    · exact List.mem_append_left _ (hs.taken t (List.mem_append_left _ ht))
    · rcases List.mem_append.mp (List.mem_of_mem_drop ht) with ht | ht
      · exact List.mem_append_left _ (hs.taken t (List.mem_append_right _ ht))
      · exact List.mem_append_right _ ht
  posting := hs.posting
  travelling := hs.travelling
  sessions := hs.sessions
  logged := hs.logged
  once := hs.once
  recorded := hs.recorded

/-- A heartbeat drains the buffer. -/
theorem Carried.drain (hs : Carried first taken s) :
    Carried first taken { s with buffer := [], drained := s.drained ++ [s.buffer] } where
  nodup := by simpa using hs.nodup
  taken := by simpa using hs.taken
  posting p hp := (hs.posting p hp).append _
  travelling sent hsent := (hs.travelling sent hsent).append _
  sessions t ht := (hs.sessions t ht).append _
  logged e he := (hs.logged e he).append _
  once := hs.once
  recorded := hs.recorded

/-- An attempt is sent. -/
theorem Carried.send (hs : Carried first taken s) {beat : Beat} (hbeat : beat.Drained s.drained)
    (attempt : Nat) (nonce : String) (now : Nat) :
    Carried first taken (s.send crypto nodeSecret beat attempt nonce now) where
  nodup := hs.nodup
  taken := hs.taken
  posting p hp := by
    cases hp
    exact hbeat
  travelling sent hsent := by
    rcases List.mem_append.mp hsent with hsent | hsent
    · exact hs.travelling sent hsent
    · rw [List.mem_singleton.mp hsent]
      exact hbeat
  sessions := hs.sessions
  logged := hs.logged
  once := hs.once
  recorded := hs.recorded

/-- The server does something. -/
theorem Carried.serve (hs : Carried first taken s) {a : Act (TelemetryOp nodeId) Exc}
    (h : s.serve settings crypto a = some s')
    (hspawn : ∀ op, a = .spawn op → op.Drained s.drained ∧ ∀ ts, op.carries ts = true →
      (∀ t ∈ s.server.sessions, t.tag.carries ts = true → t.done.isSome = true) ∧
        (sampleTimes nodeId first).count ts + spent (stores ts) s.history.committed = 0) :
    Carried first taken s' := by
  rw [Telemetry.serve, Option.map_eq_some_iff] at h
  obtain ⟨c', hstep, rfl⟩ := h
  have honce := hs.once ""
  refine ⟨hs.nodup, hs.taken, hs.posting, hs.travelling, fun t ht => ?_, fun e he => ?_, fun ts => ?_,
    hs.recorded.step _ honce.exclusive honce.attributed (fun _ _ _ => rfl) hstep⟩
  · rcases Conf.step_cases _ hstep with ⟨op, rfl, rfl⟩ | ⟨i, u, db, x, u', -, hu, -, hmove, rfl⟩
    · rcases List.mem_append.mp ht with ht | ht
      · exact hs.sessions t ht
      · rw [List.mem_singleton.mp ht]
        exact (hspawn op rfl).1
    · rcases List.mem_or_eq_of_mem_set ht with ht | rfl
      · exact hs.sessions t ht
      · rw [hmove.tag_eq]
        exact hs.sessions u (List.mem_of_getElem? hu)
  · rcases Conf.mem_record _ hstep he with he | ⟨t, ht, htag⟩
    · exact hs.logged e he
    · rw [htag]
      exact hs.sessions t ht
  · exact (hs.once ts).step (TelemetryOp.code_costs settings crypto ts) hstep
      fun op hop => (hspawn op hop).2 ts

/-- The condition, for the samples of the attempt that arrives. -/
theorem Carried.unstored (hs : Carried first taken s) (hnew : (sampleTimes nodeId first ++ taken).Nodup)
    {sent : Sent} (hsent : sent.beat.Drained s.drained) {ts : String}
    (hts : ts ∈ sent.beat.payload.samples)
    (hended : ∀ t ∈ s.server.sessions, t.tag.attempts sent.beat.number = true → t.done.isSome = true)
    (hnone : ∀ e ∈ s.history.committed, e.1.attempts sent.beat.number = true →
      e.2.sampleTimes nodeId = []) :
    (∀ t ∈ s.server.sessions, t.tag.carries ts = true → t.done.isSome = true) ∧
      (sampleTimes nodeId first).count ts + spent (stores ts) s.history.committed = 0 := by
  have hnodup : s.drained.flatten.Nodup := (List.nodup_append.mp hs.nodup).1
  refine ⟨fun t ht hc => hended t ht ((hs.sessions t ht).attempts hnodup hsent hc hts), ?_⟩
  have hmem : ts ∈ s.drained.flatten :=
    List.mem_flatten.mpr ⟨_, List.mem_of_getElem? hsent, hts⟩
  have hfirst : (sampleTimes nodeId first).count ts = 0 := List.count_eq_zero.mpr fun hin =>
    (List.nodup_append.mp hnew).2.2 ts hin ts (hs.taken ts (List.mem_append_left _ hmem)) rfl
  rw [hfirst, Nat.zero_add]
  refine spent_eq_zero fun e he => ?_
  have hall : e ∈ s.history.all := List.mem_append_left _ he
  cases hc : e.1.carries ts with
  | false => exact (hs.once ts).free e hall hc
  | true =>
      rw [stores, hnone e he ((hs.logged e hall).attempts hnodup hsent hc hts), List.count_nil]

theorem Carried.quiet {a : TelemetryAct nodeId} (ha : a.taken = []) (hs : Carried first taken s) :
    Carried first (taken ++ a.taken) s := by
  rw [ha, List.append_nil]
  exact hs

theorem Carried.step (hs : Carried first taken s) {a : TelemetryAct nodeId}
    (hnew : (sampleTimes nodeId first ++ (taken ++ a.taken)).Nodup) (ha : s.UnstoredBefore a)
    (h : s.step settings crypto nodeSecret capacity a = some s') :
    Carried first (taken ++ a.taken) s' := by
  cases a with
  | sample ts =>
      cases h
      refine hs.sample fun hmem => ?_
      have htaken := (List.nodup_append.mp (List.nodup_append.mp hnew).2.1).2.2
      exact htaken ts hmem ts (List.mem_singleton_self ts) rfl
  | beat payload body signed =>
      refine .quiet rfl ?_
      simp only [Telemetry.step] at h
      split at h
      · cases h
      · cases signed with
        | none =>
            cases h
            exact hs.drain
        | some signed =>
            cases h
            exact hs.drain.send (by simp [Beat.Drained]) 0 signed.1 signed.2
  | postEnds o nonce now =>
      refine .quiet rfl ?_
      simp only [Telemetry.step, Option.map_eq_some_iff] at h
      obtain ⟨⟨beat, attempt⟩, hposting, rfl⟩ := h
      simp only
      split
      · exact { hs with posting := fun _ hp => by cases hp }
      · exact hs.send (hs.posting _ hposting) _ nonce now
  | arrives i random authenticatedAt now =>
      refine .quiet rfl ?_
      replace hnew : (sampleTimes nodeId first ++ taken).Nodup := List.append_nil taken ▸ hnew
      simp only [Telemetry.step, Option.bind_eq_some_iff] at h
      obtain ⟨sent, hsent, h⟩ := h
      have hdrained := hs.travelling sent (List.mem_of_getElem? hsent)
      have herase : Carried first taken { s with travelling := s.travelling.eraseIdx i } :=
        ⟨hs.nodup, hs.taken, hs.posting, fun t ht => hs.travelling t (List.mem_of_mem_eraseIdx ht),
          hs.sessions, hs.logged, hs.once, hs.recorded⟩
      refine herase.serve h fun op hop => ?_
      cases hop
      refine ⟨hdrained, fun ts hc => ?_⟩
      have hts : ts ∈ sent.beat.payload.samples := of_decide_eq_true hc
      obtain ⟨hended, hnone⟩ := ha sent hsent (List.ne_nil_of_mem hts)
      exact hs.unstored hnew hdrained hts hended hnone
  | request op =>
      refine .quiet rfl ?_
      refine hs.serve h fun op' hop => ?_
      cases hop
      exact ⟨trivial, fun ts hc => absurd hc Bool.false_ne_true⟩
  | turn i =>
      refine .quiet rfl ?_
      exact hs.serve h fun _ hop => by cases hop
  | fail i e =>
      refine .quiet rfl ?_
      exact hs.serve h fun _ hop => by cases hop

theorem Carried.run (hs : Carried first taken s) {as : List (TelemetryAct nodeId)}
    (hnew : (sampleTimes nodeId first ++ (taken ++ as.flatMap TelemetryAct.taken)).Nodup)
    (hm : s.Meets settings crypto nodeSecret capacity as)
    (h : s.run settings crypto nodeSecret capacity as = some s') :
    Carried first (taken ++ as.flatMap TelemetryAct.taken) s' := by
  induction as generalizing s taken with
  | nil =>
      cases h
      rw [List.flatMap_nil, List.append_nil]
      exact hs
  | cons a as ih =>
      obtain ⟨ha, hm⟩ := hm
      rw [List.flatMap_cons, ← List.append_assoc taken] at hnew ⊢
      simp only [Telemetry.run] at h
      cases hstep : s.step settings crypto nodeSecret capacity a with
      | none => rw [hstep] at h; cases h
      | some s₁ =>
          rw [hstep, Option.bind_some] at h
          refine ih (hs.step (List.Nodup.sublist ?_ hnew) ha hstep) hnew (hm s₁ hstep) h
          exact (List.sublist_append_left _ _).append_left _

/-- In every run in which an attempt with samples arrives only when the attempts before it have
ended and have stored none, each sample is stored once at most. -/
theorem samples_stored_once {db : Db} {x : World} {as : List (TelemetryAct nodeId)}
    (hnew : (sampleTimes nodeId db ++ as.flatMap TelemetryAct.taken).Nodup)
    (hm : (Telemetry.start nodeId db x).Meets settings crypto nodeSecret capacity as)
    (h : (Telemetry.start nodeId db x).run settings crypto nodeSecret capacity as = some s) :
    (sampleTimes nodeId s.server.db).Nodup := by
  have hs := (carried_start db x (List.nodup_append.mp hnew).1).run hnew hm h
  refine List.nodup_iff_count_le_one.mpr fun ts => ?_
  have honce := (hs.once ts).once
  rw [History.all, spent_append] at honce
  have hreplay := count_sampleTimes_replay ts s.history.committed db
  rw [← hs.recorded.db] at hreplay
  show (sampleTimes nodeId s.server.db).count ts ≤ 1
  exact Nat.le_trans hreplay (by omega)

end Runs

/-! ## Concrete data -/

/-- A sample is taken, and a heartbeat sends it. -/
def sampleSent : List (TelemetryAct "n") :=
  [.sample "s", .beat { bootId := "boot" } "{}" (some ("a", 0)), .arrives 0 "" 0 0]

/-- The attempt ends, and the next one arrives a second later. -/
def sentAgain (o : PostOutcome) : List (TelemetryAct "n") :=
  [.postEnds o "b" 1000000, .arrives 0 "" 1000000 1000000]

/-- A sample whose first attempt fails before it is stored is stored by the second. -/
theorem sample_stored_by_retry :
    ∃ s, (Telemetry.start "n" oneNodeDb {}).run {} plainCrypto "secret" 5
        (sampleSent ++ List.replicate 8 (.turn 0) ++ .fail 0 .operational ::
          sentAgain (.response 500) ++ List.replicate 14 (.turn 1)) = some s ∧
      "s" ∈ sampleTimes "n" s.server.db ∧ (sampleTimes "n" s.server.db).Nodup := by
  have hruns : ((Telemetry.start "n" oneNodeDb {}).run {} plainCrypto "secret" 5
      (sampleSent ++ List.replicate 8 (.turn 0) ++ .fail 0 .operational ::
        sentAgain (.response 500) ++ List.replicate 14 (.turn 1))).any
          (fun s => decide ("s" ∈ sampleTimes "n" s.server.db)) = true := by
    decide +kernel
  obtain ⟨s, hs, hstored⟩ := (Option.any_eq_true ..).mp hruns
  exact ⟨s, hs, of_decide_eq_true hstored,
    samples_stored_once (by decide +kernel) (by decide +kernel) hs⟩

/-- The answer to a stored attempt is lost, and the next attempt stores the sample again. -/
theorem sample_stored_twice :
    ¬ ∀ (settings : Settings) (crypto : Crypto) (nodeId nodeSecret : String) (capacity : Nat)
      (db : Db) (x : World) (as : List (TelemetryAct nodeId)) (s : Telemetry nodeId),
      (sampleTimes nodeId db ++ as.flatMap TelemetryAct.taken).Nodup →
      (Telemetry.start nodeId db x).run settings crypto nodeSecret capacity as = some s →
        (sampleTimes nodeId s.server.db).Nodup := by
  intro h
  have hruns : ((Telemetry.start "n" oneNodeDb {}).run {} plainCrypto "secret" 5
      (sampleSent ++ List.replicate 14 (.turn 0) ++ sentAgain .connectionError ++
        List.replicate 14 (.turn 1))).any
          (fun s => decide (sampleTimes "n" s.server.db = ["s", "s"])) = true := by
    decide +kernel
  obtain ⟨s, hs, htwice⟩ := (Option.any_eq_true ..).mp hruns
  have honce := h {} plainCrypto "n" "secret" 5 oneNodeDb {} _ s (by decide +kernel) hs
  rw [of_decide_eq_true htwice] at honce
  exact absurd honce (by decide)

end GpuFleet
