import GpuFleet.Agent.Starts
import GpuFleet.Server.AtMostOnce

/-!
# What the fleet starts

The server and the agents of all nodes together.  The operations of the server go on
side by side, a statement at a time, and any of them may fail.  The answer to a
heartbeat arrives at the agent that sent it, at any time after the operation has
ended, once or never.  What the agent then does may be refused at every call, and an
agent that is cut off is one whose further calls are refused before it starts anew.
What agents send meanwhile are operations of the server like all others.

However all this interleaves, a task is started once at most in the whole fleet, by
the agent of the node it was handed to (`started_at_most_once`).  Three facts come
together: the server hands a task out by one answer only, an answer arrives once, and
an agent announces what it starts and starts nothing else (`AgentRun.declares`).
-/

namespace GpuFleet

open Foundations

/-! ## Messages -/

/-- The fields of an object. -/
def Json.fields : Json → List (String × Json)
  | .obj fields => fields
  | _ => []

/-- A task as its agent receives it. -/
def TaskEnvelope.received (env : TaskEnvelope) : AgentTask where
  taskId := env.taskId
  type := env.type
  payload := env.payload.fields
  workdir := env.workdir
  timeoutSec := env.timeoutSec
  killGraceSec := env.killGraceSec

/-- The answer to a heartbeat as the agent receives it. -/
def HeartbeatResponse.received (r : HeartbeatResponse) : HeartbeatReply where
  taskControls := r.taskControls.map fun control => ⟨control.taskId, "cancel"⟩
  tasks := r.tasks.map TaskEnvelope.received

/-- The node whose agent sent the heartbeat. -/
def SystemOp.sender? : SystemOp → Option String
  | heartbeat nodeId _ _ => some nodeId
  | _ => none

/-! ## The whole -/

/-- What the agent of a node runs on. -/
structure Machine where
  py : Python
  host : Host
  settings : AgentSettings
  runDirName : String → String

/-- The server and the agents of the nodes. -/
structure Deployment where
  server : AnsweredConf
  agents : String → AgentWorld
  /-- The sessions whose answers have arrived. -/
  arrived : List Nat := []

/-- What happens in a deployment. -/
inductive DeploymentAct where
  /-- The server makes a step. -/
  | server (a : Act SystemOp Exc)
  /-- The answer of a session arrives at the agent that sent the heartbeat. -/
  | arrive (i : Nat) (run : AgentRun) (moments : Nat → Moment AgentMove AgentCall)

namespace Deployment

/-- The agent whose heartbeat the session has answered, and the answer. -/
def answer (d : Deployment) (i : Nat) : Option (String × HeartbeatResponse) := do
  let s ← d.server.sessions[i]?
  let nodeId ← s.tag.sender?
  let result ← s.done
  let reply ← result.toOption
  let r ← reply.heartbeat?
  pure (nodeId, r)

/-- Nothing has happened yet. -/
def init (db : Db) (x : World) (agents : String → AgentWorld) : Deployment :=
  ⟨Conf.init db x, agents, []⟩

section Step

variable (settings : Settings) (crypto : Crypto) (machines : String → Machine)

/-- One action, if it is possible. -/
def step (d : Deployment) : DeploymentAct → Option Deployment
  | .server a =>
      (d.server.step (SystemOp.answered settings crypto) a).map fun c => { d with server := c }
  | .arrive i run moments =>
      if i ∈ d.arrived then none
      else (d.answer i).map fun (nodeId, r) =>
        let machine := machines nodeId
        { d with
          agents := fun n =>
            if n = nodeId then
              run.after machine.py machine.host machine.settings machine.runDirName r.received moments
                (d.agents nodeId)
            else d.agents n
          arrived := i :: d.arrived }

/-- A list of actions, one after another. -/
def run (d : Deployment) : List DeploymentAct → Option Deployment
  | [] => some d
  | a :: as => (d.step settings crypto machines a).bind fun d' => d'.run as

variable {settings : Settings} {crypto : Crypto} {machines : String → Machine}

/-- An invariant that every action keeps holds after every run. -/
theorem run_induction {I : Deployment → Prop}
    (hstep : ∀ d a d', I d → d.step settings crypto machines a = some d' → I d')
    {d d' : Deployment} {as : List DeploymentAct}
    (h : d.run settings crypto machines as = some d') (hd : I d) : I d' := by
  induction as generalizing d with
  | nil => cases h; exact hd
  | cons a as ih =>
      simp only [run] at h
      cases hs : d.step settings crypto machines a with
      | none => rw [hs] at h; cases h
      | some d₁ =>
          rw [hs, Option.bind_some] at h
          exact ih h (hstep d a d₁ hd hs)

/-- What an action does. -/
theorem step_cases {d d' : Deployment} {a : DeploymentAct}
    (h : d.step settings crypto machines a = some d') :
    (∃ b c, a = .server b ∧ d.server.step (SystemOp.answered settings crypto) b = some c ∧
      d' = { d with server := c }) ∨
    ∃ i run moments nodeId r, a = .arrive i run moments ∧ i ∉ d.arrived ∧
      d.answer i = some (nodeId, r) ∧ d'.server = d.server ∧ d'.arrived = i :: d.arrived ∧
      d'.agents nodeId = run.after (machines nodeId).py (machines nodeId).host (machines nodeId).settings
        (machines nodeId).runDirName r.received moments (d.agents nodeId) ∧
      ∀ n, n ≠ nodeId → d'.agents n = d.agents n := by
  cases a with
  | server b =>
      obtain ⟨c, hc, rfl⟩ := Option.map_eq_some_iff.mp h
      exact .inl ⟨b, c, rfl, hc, rfl⟩
  | arrive i run moments =>
      right
      simp only [step] at h
      split at h
      · cases h
      · rename_i hnew
        obtain ⟨⟨nodeId, r⟩, hanswer, rfl⟩ := Option.map_eq_some_iff.mp h
        exact ⟨i, run, moments, nodeId, r, rfl, hnew, hanswer, rfl, rfl, if_pos rfl,
          fun n hn => if_neg hn⟩

end Step

/-- Who is answered, by which session. -/
theorem answer_some {d : Deployment} {i : Nat} {nodeId : String} {r : HeartbeatResponse}
    (h : d.answer i = some (nodeId, r)) :
    ∃ s, d.server.sessions[i]? = some s ∧ s.tag.sender? = some nodeId ∧
      s.done = some (.ok (.heartbeat r)) := by
  simp only [answer, Option.bind_eq_bind, Option.bind_eq_some_iff, Option.pure_def,
    Option.some.injEq, Prod.mk.injEq] at h
  obtain ⟨s, hs, n, hn, result, hresult, reply, hreply, r', hr', rfl, rfl⟩ := h
  refine ⟨s, hs, hn, ?_⟩
  cases result with
  | error e => cases hreply
  | ok a =>
      cases hreply
      cases reply with
      | heartbeat r => cases hr'; exact hresult
      | _ => cases hr'

end Deployment

/-! ## Started once -/

/-- The task was handed to the node by an answer that has arrived. -/
def Deployment.Handed (d : Deployment) (nodeId taskId : String) : Prop :=
  ∃ i ∈ d.arrived, ∃ s, d.server.sessions[i]? = some s ∧ s.tag.sender? = some nodeId ∧
    answeredWith (OpReply.hands taskId) s = true

/-- The answer hands out several tasks. -/
def OpReply.Several : OpReply → Prop
  | heartbeat r => 1 < r.tasks.length
  | _ => False

/-- No statement takes anything. -/
def Nothing (_ : Dml) (_ : Db) : Prop := False

theorem nothing_taking : Conf.Taking (fun _ : Db => False) Nothing fun _ => False where
  keeps _ _ _ h := h
  free _ _ h := h.elim
  took _ _ h := h

/-- What the agents have announced and started so far. -/
structure Deployment.StartsOnce (d : Deployment) : Prop where
  taken : ∀ taskId, Conf.TakenOnce (Gone taskId) (Claims taskId)
    (fun a : OpReply => a.hands taskId = true) (fun q => ¬ q.isOnward = true) d.server
  single : Conf.TakenOnce (fun _ => False) Nothing OpReply.Several (fun _ => False) d.server
  handed : ∀ nodeId, ∀ e ∈ (d.agents nodeId).events, d.Handed nodeId e.taskId
  once : ∀ nodeId, ((d.agents nodeId).events.map TaskEvent.taskId).Nodup
  announced : ∀ nodeId, Declared (d.agents nodeId).events [] (d.agents nodeId)

section Runs

variable {settings : Settings} {crypto : Crypto} {machines : String → Machine} {d d' : Deployment}

theorem answered_not_several (op : SystemOp) :
    (op.answered settings crypto).Unless Nothing fun a => ¬ a.Several := by
  cases op with
  | heartbeat nodeId payload now =>
      refine asNode_unless fun node => (heartbeat_unless _ nodeId node payload now
        (Prog.unless_of_forall _ fun _ => trivial) trivial fun claimed _ r hr => ?_).bind fun r hr => hr
      show ¬ 1 < r.tasks.length
      rw [hr]
      cases claimed <;> simp
  | event | result => exact asNode_unless fun _ => silent_unless _ fun _ h => h
  | _ => exact silent_unless _ fun _ h => h

/-- A session that has ended is left as it is. -/
theorem ended_step {c c' : AnsweredConf} {a : Act SystemOp Exc} {i : Nat}
    {s : Session SystemOp Dml Db World Exc OpReply}
    (h : c.step (SystemOp.answered settings crypto) a = some c') (hs : c.sessions[i]? = some s)
    (hdone : s.done ≠ none) : c'.sessions[i]? = some s := by
  rcases Conf.step_cases _ h with ⟨op, -, rfl⟩ | ⟨j, t, db, x, t', -, ht, hlive, -, rfl⟩
  · show (c.sessions ++ _)[i]? = some s
    rw [List.getElem?_append_left (List.getElem?_eq_some_iff.mp hs).1]
    exact hs
  · have hij : j ≠ i := by
      rintro rfl
      rw [hs] at ht
      cases ht
      exact hdone hlive
    show (c.sessions.set j t')[i]? = some s
    rw [List.getElem?_set_ne hij]
    exact hs

theorem Deployment.Handed.ended {nodeId taskId : String} (h : d.Handed nodeId taskId)
    (hserver : ∀ (i : Nat) s, d.server.sessions[i]? = some s → s.done ≠ none →
      d'.server.sessions[i]? = some s)
    (harrived : d.arrived ⊆ d'.arrived) : d'.Handed nodeId taskId := by
  obtain ⟨i, hi, s, hs, hsender, hanswered⟩ := h
  obtain ⟨a, hdone, -⟩ := answeredWith_iff hanswered
  refine ⟨i, harrived hi, s, hserver i s hs ?_, hsender, hanswered⟩
  rw [hdone]
  exact Option.some_ne_none _

/-- An answer that has arrived is the only one that hands out its tasks. -/
theorem Deployment.StartsOnce.fresh (hd : d.StartsOnce) {i : Nat} {nodeId taskId : String}
    {s : Session SystemOp Dml Db World Exc OpReply} (hs : d.server.sessions[i]? = some s)
    (hhands : answeredWith (OpReply.hands taskId) s = true) (h : d.Handed nodeId taskId) :
    i ∈ d.arrived ∧ s.tag.sender? = some nodeId := by
  obtain ⟨j, hj, t, ht, hsender, hanswered⟩ := h
  obtain ⟨a, hdone, ha⟩ := answeredWith_iff hhands
  obtain ⟨b, hdone', hb⟩ := answeredWith_iff hanswered
  have hij : i = j := (hd.taken taskId).once i j s t hs ht ((Session.winning_ok hdone).mpr ha)
    ((Session.winning_ok hdone').mpr hb)
  subst hij
  rw [hs] at ht
  cases ht
  exact ⟨hj, hsender⟩

/-- What an answer that arrives adds: one announcement at most, of a task it hands out. -/
theorem Deployment.StartsOnce.added (hd : d.StartsOnce) {i : Nat} {run : AgentRun}
    {moments : Nat → Moment AgentMove AgentCall} {nodeId : String} {r : HeartbeatResponse}
    (machine : Machine) (hanswer : d.answer i = some (nodeId, r)) :
    ∃ new : List TaskEvent, (new.map TaskEvent.taskId).Nodup ∧
      (∀ e ∈ new, (OpReply.heartbeat r).hands e.taskId = true) ∧
      Declared ((d.agents nodeId).events ++ new) [] (run.after machine.py machine.host
        machine.settings machine.runDirName r.received moments (d.agents nodeId)) := by
  obtain ⟨s, hs, -, hdone⟩ := Deployment.answer_some hanswer
  have hlength : r.tasks.length ≤ 1 :=
    Nat.le_of_not_lt fun hmany => hd.single.sees i s hs ((Session.winning_ok hdone).mpr hmany)
  have hdeclared : Declared (d.agents nodeId).events _ (run.after machine.py machine.host
      machine.settings machine.runDirName r.received moments (d.agents nodeId)) :=
    run.declares r.received moments (hd.announced nodeId)
  obtain ⟨new, hnew, hids⟩ := hdeclared.events
  have hreceived : r.received.tasks.map (fun task => task.taskId) =
      r.tasks.map TaskEnvelope.taskId := by
    simp [HeartbeatResponse.received, TaskEnvelope.received]
  rw [List.nil_append, hreceived] at hids
  refine ⟨new, ?_, fun e he => ?_, ⟨[], by rw [hnew, List.append_nil], List.Sublist.refl _⟩,
    hdeclared.processes⟩
  · have hone : (new.map TaskEvent.taskId).length ≤ 1 :=
      Nat.le_trans hids.length_le (by rw [List.length_map]; exact hlength)
    cases hcase : new.map TaskEvent.taskId with
    | nil => exact List.nodup_nil
    | cons taskId rest =>
        rw [hcase] at hone
        rw [List.length_eq_zero_iff.mp (Nat.le_zero.mp (Nat.le_of_succ_le_succ hone))]
        exact List.nodup_singleton taskId
  · obtain ⟨env, henv, hid⟩ := List.mem_map.mp (hids.subset (List.mem_map_of_mem he))
    exact List.any_eq_true.mpr ⟨env, henv, decide_eq_true hid⟩

theorem Deployment.StartsOnce.step {a : DeploymentAct} (hd : d.StartsOnce)
    (h : d.step settings crypto machines a = some d') : d'.StartsOnce := by
  rcases Deployment.step_cases h with ⟨b, c, -, hstep, rfl⟩ |
    ⟨i, run, moments, nodeId, r, -, hnew, hanswer, hserver, harrived, hagent, hothers⟩
  · exact
      { taken := fun taskId => (hd.taken taskId).step (claims_taking taskId)
          (fun op => op.answered_onward) (answered_unless taskId) hstep
        single := hd.single.step nothing_taking (fun op => op.answered_onward.avoids_nothing)
          answered_not_several hstep
        handed := fun n e he => (hd.handed n e he).ended (fun i s => ended_step hstep)
          (List.Subset.refl _)
        once := hd.once
        announced := hd.announced }
  · obtain ⟨s, hs, hsender, hdone⟩ := Deployment.answer_some hanswer
    obtain ⟨new, hnodup, hhands, hdeclared⟩ := @StartsOnce.added d hd i run moments nodeId r
      (machines nodeId) hanswer
    have hanswered : ∀ e ∈ new, answeredWith (OpReply.hands e.taskId) s = true := by
      intro e he
      rw [answeredWith, hdone]
      exact hhands e he
    rw [← hagent] at hdeclared
    have hevents : (d'.agents nodeId).events = (d.agents nodeId).events ++ new := by
      obtain ⟨none, hnone, hsub⟩ := hdeclared.events
      rw [List.sublist_nil, List.map_eq_nil_iff] at hsub
      rw [hnone, hsub, List.append_nil]
    -- What was handed before is handed still.
    have hstill : ∀ {n taskId}, d.Handed n taskId → d'.Handed n taskId := fun hh =>
      hh.ended (fun j t ht _ => hserver ▸ ht) (harrived ▸ List.subset_cons_self i d.arrived)
    refine ⟨hserver ▸ hd.taken, hserver ▸ hd.single, fun n e he => ?_, fun n => ?_, fun n => ?_⟩
    · by_cases hn : n = nodeId
      · subst hn
        rw [hevents] at he
        rcases List.mem_append.mp he with hold | hadded
        · exact hstill (hd.handed n e hold)
        · exact ⟨i, harrived ▸ List.mem_cons_self, s, hserver ▸ hs, hsender, hanswered e hadded⟩
      · rw [hothers n hn] at he
        exact hstill (hd.handed n e he)
    · by_cases hn : n = nodeId
      · subst hn
        rw [hevents, List.map_append]
        refine List.Nodup.append (hd.once n) hnodup fun taskId hold hadded => ?_
        obtain ⟨e, he, rfl⟩ := List.mem_map.mp hold
        obtain ⟨e', he', hid⟩ := List.mem_map.mp hadded
        have hanswered' := hanswered e' he'
        rw [hid] at hanswered'
        exact hnew (hd.fresh hs hanswered' (hd.handed n e he)).1
      · rw [hothers n hn]
        exact hd.once n
    · by_cases hn : n = nodeId
      · subst hn
        rwa [hevents]
      · rw [hothers n hn]
        exact hd.announced n

/-- No task is started twice. -/
structure Deployment.StartedOnce (d : Deployment) : Prop where
  /-- No agent announces a task twice. -/
  once : ∀ nodeId, ((d.agents nodeId).events.map TaskEvent.taskId).Nodup
  /-- No two agents announce the same task. -/
  elsewhere : ∀ nodeId other, nodeId ≠ other →
    ((d.agents nodeId).events.map TaskEvent.taskId).Disjoint
      ((d.agents other).events.map TaskEvent.taskId)
  /-- The processes of an agent are, in this order, of tasks it has announced, each in the workdir
  of its announcement. -/
  announced : ∀ nodeId, ((d.agents nodeId).processes.map Process.origin).Sublist
    ((d.agents nodeId).events.map TaskEvent.origin)
  /-- No agent starts two processes for one task. -/
  single : ∀ nodeId, ((d.agents nodeId).processes.map Process.taskId).Nodup
  /-- An agent announces only what was handed to it. -/
  handed : ∀ nodeId, ∀ e ∈ (d.agents nodeId).events, d.Handed nodeId e.taskId

theorem Deployment.StartsOnce.startedOnce (hd : d.StartsOnce) : d.StartedOnce where
  once := hd.once
  elsewhere nodeId other hne taskId hmem hmem' := by
    obtain ⟨e, he, rfl⟩ := List.mem_map.mp hmem
    obtain ⟨e', he', hid⟩ := List.mem_map.mp hmem'
    obtain ⟨i, -, s, hs, hsender, hanswered⟩ := hd.handed nodeId e he
    have hother := hd.handed other e' he'
    rw [hid] at hother
    have hsame := (hd.fresh hs hanswered hother).2
    rw [hsender] at hsame
    exact hne (Option.some.inj hsame)
  announced nodeId := (hd.announced nodeId).processes
  single nodeId := by
    have hids := (hd.announced nodeId).processes.map Prod.fst
    rw [List.map_map, List.map_map] at hids
    exact hids.nodup (hd.once nodeId)
  handed := hd.handed

/-- In every run of the server and the agents, however they interleave, no task is started twice. -/
theorem started_at_most_once {db : Db} {x : World} {agents : String → AgentWorld}
    (hnew : ∀ nodeId, (agents nodeId).events = [] ∧ (agents nodeId).processes = [])
    {as : List DeploymentAct}
    (h : (Deployment.init db x agents).run settings crypto machines as = some d) :
    d.StartedOnce := by
  refine Deployment.StartsOnce.startedOnce (Deployment.run_induction
    (fun d a d' hd h => hd.step h) h ?_)
  refine ⟨fun _ => Conf.takenOnce_init db x, Conf.takenOnce_init db x, fun n e he => ?_, fun n => ?_,
    fun n => ?_⟩
  · rw [Deployment.init, (hnew n).1] at he
    cases he
  · rw [Deployment.init, (hnew n).1]
    exact List.nodup_nil
  · refine ⟨⟨[], by rw [List.append_nil], List.Sublist.refl _⟩, ?_⟩
    rw [Deployment.init, (hnew n).2]
    exact List.nil_sublist _

end Runs

/-- A heartbeat of a node is answered, and the answer arrives. -/
def oneArrival : List DeploymentAct :=
  .server (.spawn (.heartbeat "n" { bootId := "b" } 0)) ::
    List.replicate 11 (.server (.turn 0)) ++ [.arrive 0 (.loop false) fun _ => {}]

/-- Its agent starts the first task of the node. -/
theorem started_at_most_once_oneArrival :
    ∃ d, (Deployment.init twoPending {} fun _ => {}).run {} plainCrypto
        (fun _ => ⟨plainPython, bareHost, {}, id⟩) oneArrival = some d ∧
      (d.agents "n").events.map TaskEvent.taskId = ["t1"] ∧ d.StartedOnce := by
  have hruns : ((Deployment.init twoPending {} fun _ => {}).run {} plainCrypto
      (fun _ => ⟨plainPython, bareHost, {}, id⟩) oneArrival).map
        (fun d => (d.agents "n").events.map TaskEvent.taskId) = some ["t1"] := by
    decide +kernel
  obtain ⟨d, hd, hevents⟩ := Option.map_eq_some_iff.mp hruns
  exact ⟨d, hd, hevents, started_at_most_once (fun _ => ⟨rfl, rfl⟩) hd⟩

end GpuFleet
