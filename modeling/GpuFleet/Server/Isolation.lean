import GpuFleet.Server.NodeRows
import GpuFleet.Server.OnDisk

/-!
# Isolation of nodes

A request of the node API is authenticated and then handled.  It leaves the
rows of every node but the one it names, and stores files only for the tasks of
that one (`NodeRequest.leaves`).

What a node's requests leave of its own rows does not depend on the other nodes
either, except in three points: row ids are drawn from one counter for each
table, the storage quota is one for all, and so is the storage directory, where
a task may have an id that leads to the files of another.  Two runs that differ
only in the requests of one node leave the same rows of another, but for the
ids, and the same logs on disk, when the ids of the tasks are clear and the same
of the other's requests are refused for the quota (`nodes_isolated`).
-/

namespace GpuFleet

open Foundations

/-! ## Requests -/

/-- The endpoints of the node API, with the body as it was validated, or `none` when it was
refused. -/
inductive NodeCall where
  | heartbeat (payload : Option HeartbeatRequest)
  | event (payload : Option NodeTaskEventRequest)
  | logChunk (payload : Option NodeTaskLogChunkRequest)
  | result (payload : Option NodeTaskResultRequest)
  | artifact (contentLength : Option String) (payload : Option NodeArtifactUploadRequest)

/-- A request of the node API.  It is authenticated before the clock is read again. -/
structure NodeRequest where
  signed : SignedRequest
  random : String := ""
  authenticatedAt : Nat
  call : NodeCall
  now : Nat

/-- The node that the headers name. -/
def NodeRequest.nodeId (r : NodeRequest) : String := r.signed.nodeId.getD ""

/-- The handling of a body, unless validation refused it. -/
def handle {α β : Type} (name : String) (payload : Option α) (body : α → Tx β) : Tx Unit :=
  match payload with
  | none =>
      .raise (.api
        { code := "ERR_VALIDATION_INVALID_PAYLOAD"
          message := "Invalid " ++ name ++ " payload"
          statusCode := 422 })
  | some payload => body payload >>= fun _ => pure ()

section Code

variable (site : Site)

/-- `authenticate_node` and the end of its connection. -/
def NodeRequest.authenticated (r : NodeRequest) (body : Node → Tx Unit) : Tx Unit := do
  let node ← authenticateNode site.settings site.crypto r.signed r.random r.authenticatedAt
  reconnect
  body node

/-- The program of a request. -/
def NodeRequest.code (r : NodeRequest) : Tx Unit :=
  match r.call with
  | .heartbeat payload => r.authenticated site fun node =>
      handle "heartbeat" payload fun payload =>
        heartbeat site.settings.maxStatusHistoryPerNode r.nodeId node payload r.now
  | .event payload => r.authenticated site fun _ =>
      handle "task event" payload fun payload => taskEvents r.nodeId payload r.now
  | .logChunk payload => r.authenticated site fun _ =>
      handle "task log chunk" payload fun payload =>
        taskLogChunk site.settings site.gzipSize r.nodeId payload r.now
  | .result payload => r.authenticated site fun _ =>
      handle "task result" payload fun payload => taskResult r.nodeId payload r.now
  | .artifact contentLength payload => do
      let _ ← ofExcept (checkContentLength site.settings contentLength)
      r.authenticated site fun _ =>
        handle "artifact upload" payload fun payload =>
          artifactUpload site.settings r.nodeId payload r.now

/-- The answer to a request, handled alone. -/
def NodeRequest.reply (r : NodeRequest) (s : Store) : Except Exc Unit :=
  (r.code site).resultOf s.db s.world

/-- What a request leaves, handled alone. -/
def NodeRequest.after (r : NodeRequest) (s : Store) : Store :=
  ⟨(r.code site).dbAfter s.db s.world, (r.code site).outsideAfter s.db s.world⟩

/-- What a run of requests leaves. -/
def serveAll (s : Store) (rs : List NodeRequest) : Store := rs.foldl (fun s r => r.after site s) s

end Code

/-! ## Outside the database -/

/-- The log files of the tasks are the same. -/
def SameLogs (own : String → Bool) (x x' : World) : Prop :=
  ∀ f : LogFile, own f.taskId = true → x.files.log? f = x'.files.log? f

/-- The first effect stores files of the tasks only, and the two leave the same log files of the
tasks, where these were the same. -/
structure IsolatedFiles (own : String → Bool) (x x' y y' : World) : Prop where
  others : ∀ f : StoredFile, own f.taskId = false ∨ ¬ f.Accepted →
    y.files.read f = x.files.read f
  alike : SameLogs own x x' → SameLogs own y y'

/-- Effects that leave the storage directory. -/
theorem isolatedFiles_of_files {own : String → Bool} {x x' y y' : World} (h : y.files = x.files)
    (h' : y'.files = x'.files) : IsolatedFiles own x x' y y' where
  others f _ := by rw [h]
  alike hx f hf := by
    rw [h, h']
    exact hx f hf

/-- An artifact of one of the tasks is written. -/
theorem isolatedFiles_writeArtifact {own : String → Bool} {x x' : World} {f : ArtifactFile}
    (howned : own f.taskId = true) (hname : sanitizeArtifactName f.name = .ok f.name)
    (content : List Nat) :
    IsolatedFiles own x x' { x with files := x.files.writeArtifact f content }
      { x' with files := x'.files.writeArtifact f content } where
  others g hg := by
    cases g with
    | log g => rfl
    | artifact g =>
        have hne : g ≠ f := by
          rintro rfl
          exact hg.elim (fun hother => by rw [StoredFile.taskId, howned] at hother; cases hother)
            fun hnot => hnot hname
        rw [Files.read, Files.read, Files.writeArtifact, AList.lookup_insert_ne hne]
  alike hx := hx

/-! ## Side by side -/

section Sides

variable {nodeId : String} {own : String → Bool} {w w' : Db} {x x' : World}
variable {α : Type} {post : α → α → Db → Db → World → World → Prop}

theorem ofExcept_abreast {r : Except Exc α} (hpost : ∀ a, r = .ok a → post a a w w' x x') :
    (ofExcept r).abreast (Isolated nodeId own) (IsolatedFiles own) post (ofExcept r) w w' x x' := by
  cases r with
  | error e => trivial
  | ok a => exact hpost a rfl

/-- An update of a task of the node, by its id. -/
theorem isolated_ownTask (h : AlikeFor nodeId own w w') {taskId : String}
    (howned : own taskId = true) {q : TaskStmt} (hq : ∀ row, q ≠ .insert row)
    (hsel : ∀ tasks row, q.selects tasks row = true → row.taskId = taskId)
    (hsame : ∀ tasks tasks', q.selects tasks = q.selects tasks') :
    Isolated nodeId own (.task q) (.task q) w w' := by
  refine isolated_task h hq (fun row hrow hrowsel => ?_) fun _ _ _ => by rw [hsame]
  have hid := hsel w.tasks row hrowsel
  have hown := (h.owned taskId).trans howned
  rw [ownedBy, ← hid, show w.tasks.get? row.taskId = some row from Table.get?_of_mem hrow] at hown
  exact of_decide_eq_true hown

theorem getTaskRow_abreast {post : Task → Task → Db → Db → World → World → Prop}
    (h : AlikeFor nodeId own w w') {taskId : String} (howned : own taskId = true)
    (hpost : ∀ row, w.tasks.get? taskId = some row → post row row w w' x x') :
    (getTaskRow taskId).abreast (Isolated nodeId own) (IsolatedFiles own) post (getTaskRow taskId)
      w w' x x' := by
  simp only [getTaskRow, Prog.query_bind, Prog.abreast_select]
  rw [← h.get?_task howned]
  cases hrow : w.tasks.get? taskId with
  | none => trivial
  | some row => exact hpost row hrow

theorem loadTaskForNode_abreast {post : Task → Task → Db → Db → World → World → Prop}
    (h : AlikeFor nodeId own w w') (taskId : String)
    (hpost : ∀ row, own taskId = true →
      ((w.tasks.get? taskId).filter fun row => row.nodeId = nodeId) = some row →
        post row row w w' x x') :
    (loadTaskForNode nodeId taskId).abreast (Isolated nodeId own) (IsolatedFiles own) post
      (loadTaskForNode nodeId taskId) w w' x x' := by
  simp only [loadTaskForNode, Prog.query_bind, Prog.abreast_select]
  rw [← h.task taskId]
  cases hrow : (w.tasks.get? taskId).filter fun row => row.nodeId = nodeId with
  | none => trivial
  | some row =>
      obtain ⟨hget, hnode⟩ := Option.filter_eq_some_iff.mp hrow
      have hown := ownedBy_of_get? hget (of_decide_eq_true hnode)
      exact hpost row ((h.owned taskId).symm.trans hown) hrow

/-- The event of a node. -/
theorem transitionTask_abreast {post : Task → Task → Db → Db → World → World → Prop}
    (h : AlikeFor nodeId own w w') {taskId : String} (howned : own taskId = true) (e : NodeEvent)
    (args : TransitionArgs) (hpost : ∀ row v v', AlikeFor nodeId own v v' → post row row v v' x x') :
    (transitionTask taskId (.node e) args).abreast (Isolated nodeId own) (IsolatedFiles own) post
      (transitionTask taskId (.node e) args) w w' x x' := by
  rw [transitionTask]
  refine Prog.abreast.bind (getTaskRow_abreast h howned fun row _ => ?_)
  simp only [applyNodeEvent]
  split
  · trivial
  · have hset := isolated_ownTask h howned
      (q := .setEvent taskId e.status
        (if e = .running ∧ row.startedAt = none then some (orElse args.startedAt args.nowIso)
          else row.startedAt)
        (if e.status.isTerminal ∧ row.finishedAt = none then
          some (orElse args.finishedAt args.nowIso) else row.finishedAt))
      (by intro _ h; cases h) (fun _ _ => of_decide_eq_true) fun _ _ => rfl
    exact ⟨hset, getTaskRow_abreast hset.alike howned fun row _ => hpost row _ _ hset.alike⟩

/-- The result of a task. -/
theorem finalizeTaskResult_abreast {post : Task × Bool → Task × Bool → Db → Db → World → World → Prop}
    (h : AlikeFor nodeId own w w') {taskId : String} (howned : own taskId = true)
    (finalStatus : FinalStatus) (startedAt finishedAt nowIso : String)
    (hpost : ∀ r v v', AlikeFor nodeId own v v' → post r r v v' x x') :
    (finalizeTaskResult taskId finalStatus startedAt finishedAt nowIso).abreast
      (Isolated nodeId own) (IsolatedFiles own) post
      (finalizeTaskResult taskId finalStatus startedAt finishedAt nowIso) w w' x x' := by
  rw [finalizeTaskResult]
  refine Prog.abreast.bind (getTaskRow_abreast h howned fun row _ => ?_)
  simp only
  split
  · trivial
  · have hsel : ∀ tasks row,
        (TaskStmt.setResult taskId finalStatus startedAt finishedAt nowIso).selects tasks row = true →
          row.taskId = taskId := by
      intro tasks row hsel
      simp only [TaskStmt.selects, Bool.and_eq_true, decide_eq_true_eq] at hsel
      exact hsel.1.1
    have hset := isolated_ownTask h howned (by intro _ h; cases h) hsel fun _ _ => rfl
    have hcount : ∀ tasks : Table Task,
        (TaskStmt.setResult taskId finalStatus startedAt finishedAt nowIso).rowcount tasks =
          if (tasks.get? taskId).any ((TaskStmt.setResult taskId finalStatus startedAt finishedAt
            nowIso).selects w.tasks) then 1 else 0 := fun tasks =>
      Table.length_select tasks (hsel tasks)
    simp only [Prog.executeReturning_bind, Prog.abreast_write]
    rw [hcount, hcount, ← h.get?_task howned]
    refine ⟨hset, ?_⟩
    generalize (if (w.tasks.get? taskId).any _ then 1 else 0) = rowcount
    split
    · refine Prog.abreast.bind (getTaskRow_abreast hset.alike howned fun row _ => ?_)
      split
      · exact hpost _ _ _ hset.alike
      · trivial
    · exact Prog.abreast.bind (getTaskRow_abreast hset.alike howned fun row _ =>
        hpost _ _ _ hset.alike)

theorem upsertTaskAttempt_abreast {post : Unit → Unit → Db → Db → World → World → Prop}
    (h : AlikeFor nodeId own w w') {taskId : String} (howned : own taskId = true)
    (status : String) (args : AttemptArgs)
    (hpost : ∀ v v', AlikeFor nodeId own v v' → post () () v v' x x') :
    (upsertTaskAttempt taskId nodeId status args).abreast (Isolated nodeId own) (IsolatedFiles own)
      post (upsertTaskAttempt taskId nodeId status args) w w' x x' := by
  simp only [upsertTaskAttempt, Prog.query_bind, Prog.abreast_select]
  have hattempt := h.attempt howned
  simp only at hattempt
  rcases hattempt with ⟨hlast, hlast'⟩ | ⟨z, hz, u, hu, hlast, hlast'⟩
  · rw [hlast, hlast']
    let row : TaskAttempt :=
      { id := 0, taskId, nodeId
        agentBootId := args.bootId
        pid := args.pid
        pgidOrJobId := args.pgidOrJobId
        status
        startedAt := args.startedAt
        finishedAt := args.finishedAt
        exitCode := args.exitCode
        resultSummary := args.summary.getD (.obj []) }
    have hinsert : Isolated nodeId own (.attempt (.insert row)) (.attempt (.insert row)) w w' :=
      isolated_attempt_insert h howned
    exact ⟨hinsert, hpost _ _ hinsert.alike⟩
  · rw [hlast, hlast']
    have hupdate := isolated_attempt_update h hz hu args.bootId args.pid args.pgidOrJobId status
      args.startedAt args.finishedAt args.exitCode args.summary
    exact ⟨hupdate, hpost _ _ hupdate.alike⟩

theorem syncReportedActiveTask_abreast
    {post : Option Task → Option Task → Db → Db → World → World → Prop}
    (h : AlikeFor nodeId own w w') (activeTaskId : Option String) (claimedAt : String)
    (hpost : ∀ r v v', AlikeFor nodeId own v v' → post r r v v' x x') :
    (syncReportedActiveTask nodeId activeTaskId claimedAt).abreast (Isolated nodeId own)
      (IsolatedFiles own) post (syncReportedActiveTask nodeId activeTaskId claimedAt) w w' x x' := by
  unfold syncReportedActiveTask
  split
  · exact hpost none _ _ h
  · rename_i taskId
    split
    · exact hpost none _ _ h
    · simp only [Prog.query_bind, Prog.abreast_select]
      rw [← h.task taskId]
      cases hrow : (w.tasks.get? taskId).filter fun row => row.nodeId = nodeId with
      | none => exact hpost none _ _ h
      | some row =>
          obtain ⟨hget, hnode⟩ := Option.filter_eq_some_iff.mp hrow
          have howned : own taskId = true :=
            (h.owned taskId).symm.trans (ownedBy_of_get? hget (of_decide_eq_true hnode))
          simp only
          split
          · have hset : Isolated nodeId own (.task (.setReported taskId claimedAt))
                (.task (.setReported taskId claimedAt)) w w' :=
              isolated_ownTask h howned (by intro _ h; cases h) (fun _ _ => of_decide_eq_true)
                fun _ _ => rfl
            rw [Prog.execute_bind, Prog.abreast_write, Prog.abreast_query, ← hset.alike.task taskId]
            exact ⟨hset, hpost _ _ _ hset.alike⟩
          · exact hpost (some row) _ _ h

/-- The claim of the node's next task. -/
theorem isolated_claimNext (h : AlikeFor nodeId own w w') (claimedAt : String) :
    Isolated nodeId own (.task (.claimNext nodeId claimedAt)) (.task (.claimNext nodeId claimedAt))
      w w' := by
  refine isolated_task h (by intro _ h; cases h)
    (fun row hrow hsel => (TaskStmt.selects_claimNext hrow hsel).2) fun row _ _ => ?_
  rw [TaskStmt.selects, TaskStmt.selects, h.nextPending]

theorem heartbeat_abreast {post : HeartbeatResponse → HeartbeatResponse → Db → Db → World → World → Prop}
    (h : AlikeFor nodeId own w w') (keep : Nat) (node : Node) (payload : HeartbeatRequest)
    (now : Nat) (hpost : ∀ r r' v v' y y', post r r' v v' y y') :
    (heartbeat keep nodeId node payload now).abreast (Isolated nodeId own) (IsolatedFiles own) post
      (heartbeat keep nodeId node payload now) w w' x x' := by
  have hbegin := isolated_beginImmediate h
  have htouch : ∀ hostname, Isolated nodeId own
      (.node (.touch nodeId hostname payload.heartbeatIntervalSec (utcNowIso now) payload.bootId))
      (.node (.touch nodeId hostname payload.heartbeatIntervalSec (utcNowIso now) payload.bootId))
      (Statement.apply Dml.beginImmediate w) (Statement.apply Dml.beginImmediate w') := fun _ =>
    isolated_node hbegin.alike (by intro _ h; cases h) fun _ _ => of_decide_eq_true
  have hrows : ∀ row ∈ buildSnapshotRows nodeId (utcNowIso now) payload, row.nodeId = nodeId := by
    intro row hrow
    rcases List.mem_cons.mp hrow with rfl | hrow
    · rfl
    · obtain ⟨ts, -, rfl⟩ := List.mem_map.mp hrow
      rfl
  have hhistory := isolated_insertMany (htouch ((payload.hostname.filter (· ≠ "")) <|>
    node.hostname)).alike hrows
  -- After the claim only the status history of the node is trimmed.
  have respond : ∀ (claimed claimed' : Option Task) (v v' : Db), AlikeFor nodeId own v v' →
      ∀ respond : Option Task → Tx HeartbeatResponse, respond = (fun claimed => do
        let taskControls ← Prog.query fun db => cancelControls db nodeId
        reconnect
        Prog.execute (.snapshot (.trim nodeId keep))
        reconnect
        let refreshFingerprint ← takeFingerprintRefresh nodeId
        pure ({ serverTime := utcNowIso now
                nodeId
                tasks := (claimed.map Task.envelope).toList
                taskControls
                refreshFingerprint } : HeartbeatResponse)) →
      (respond claimed).abreast (Isolated nodeId own) (IsolatedFiles own) post (respond claimed')
        v v' x x' := by
    rintro claimed claimed' v v' hv _ rfl
    exact ⟨isolated_trim hv keep, isolatedFiles_of_files rfl rfl, hpost _ _ _ _ _ _⟩
  simp only [heartbeat, Prog.execute_bind, Prog.abreast_write]
  refine ⟨hbegin, htouch _, hhistory, ?_⟩
  refine Prog.abreast.bind (syncReportedActiveTask_abreast hhistory.alike _ _ fun r v v' hv => ?_)
  cases r with
  | some row => exact respond none none v v' hv _ rfl
  | none =>
      simp only [claimNextTaskForNode, Prog.executeReturning_bind, Prog.abreast_write]
      have hclaim := isolated_claimNext hv (utcNowIso now)
      exact ⟨hclaim, respond _ _ _ _ hclaim.alike _ rfl⟩

theorem catchTaskState_abreast {p : Tx α} {handler : String → Exc}
    (hp : p.abreast (Isolated nodeId own) (IsolatedFiles own) post p w w' x x') :
    (catchTaskState p fun m => .raise (handler m)).abreast (Isolated nodeId own)
      (IsolatedFiles own) post (catchTaskState p fun m => .raise (handler m)) w w' x x' := by
  rw [catchTaskState]
  refine hp.tryCatch (fun e => ?_) fun e => ?_
  · cases e <;> exact ⟨_, rfl⟩
  · cases e <;> exact ⟨_, rfl⟩

theorem taskEvents_abreast {post : TaskAck → TaskAck → Db → Db → World → World → Prop}
    (h : AlikeFor nodeId own w w') (payload : NodeTaskEventRequest) (now : Nat)
    (hpost : ∀ r r' v v' y y', post r r' v v' y y') :
    (taskEvents nodeId payload now).abreast (Isolated nodeId own) (IsolatedFiles own) post
      (taskEvents nodeId payload now) w w' x x' := by
  rw [taskEvents]
  refine Prog.abreast.bind (loadTaskForNode_abreast h _ fun _ howned _ => ?_)
  refine Prog.abreast.bind (catchTaskState_abreast (transitionTask_abreast h howned _ _
    fun row v v' hv => ?_))
  exact Prog.abreast.bind (upsertTaskAttempt_abreast hv howned _ _ fun _ _ _ => hpost _ _ _ _ _ _)

theorem taskResult_abreast {post : TaskAck → TaskAck → Db → Db → World → World → Prop}
    (h : AlikeFor nodeId own w w') (payload : NodeTaskResultRequest) (now : Nat)
    (hpost : ∀ r r' v v' y y', post r r' v v' y y') :
    (taskResult nodeId payload now).abreast (Isolated nodeId own) (IsolatedFiles own) post
      (taskResult nodeId payload now) w w' x x' := by
  rw [taskResult]
  refine Prog.abreast.bind (loadTaskForNode_abreast h _ fun _ howned _ => ?_)
  refine Prog.abreast.bind (catchTaskState_abreast (finalizeTaskResult_abreast h howned _ _ _ _
    fun r v v' hv => ?_))
  simp only
  split
  · exact hpost _ _ _ _ _ _
  · refine Prog.abreast.bind (upsertTaskAttempt_abreast hv howned _ _ fun v v' _ => ?_)
    simp only [reconnect, Prog.commit_bind, Prog.ret_bind, Prog.abreast_commit]
    split
    · exact ⟨isolatedFiles_of_files rfl rfl, hpost _ _ _ _ _ _⟩
    · exact hpost _ _ _ _ _ _

theorem artifactUpload_abreast {post : ArtifactAck → ArtifactAck → Db → Db → World → World → Prop}
    (h : AlikeFor nodeId own w w') (settings : Settings) (payload : NodeArtifactUploadRequest)
    (now : Nat) (hpost : ∀ r r' v v' y y', post r r' v v' y y') :
    (artifactUpload settings nodeId payload now).abreast (Isolated nodeId own) (IsolatedFiles own)
      post (artifactUpload settings nodeId payload now) w w' x x' := by
  rw [artifactUpload]
  refine Prog.abreast.bind (loadTaskForNode_abreast h _ fun _ howned _ => ?_)
  simp only [reconnect, Prog.commit_bind, Prog.ret_bind, Prog.abreast_commit]
  refine Prog.abreast.bind (ofExcept_abreast fun content _ => ?_)
  refine Prog.abreast.bind (ofExcept_abreast fun artifactName hname => ?_)
  obtain rfl := sanitizeArtifactName_ok hname
  simp only [Prog.effect_bind, Prog.query_bind, Prog.execute_bind, Prog.abreast_io,
    Prog.abreast_select, Prog.abreast_write]
  have hwritten := @isolatedFiles_writeArtifact own x x' ⟨payload.taskId, payload.artifactName⟩
    howned hname content
  refine ⟨hwritten, ?_⟩
  have hfirst := h.artifact howned payload.artifactName
  simp only at hfirst
  rcases hfirst with ⟨hfirst, hfirst'⟩ | ⟨z, hz, u, hu, hfirst, hfirst'⟩
  · rw [hfirst, hfirst']
    exact ⟨isolated_artifact_insert h howned, hpost _ _ _ _ _ _⟩
  · rw [hfirst, hfirst']
    exact ⟨isolated_artifact_replace h hz hu _ _ _ _ _, hpost _ _ _ _ _ _⟩

/-- What is accepted of a chunk does not depend on the id of the row. -/
theorem acceptChunk_bare {row row' : TaskLog} (h : row.bare = row'.bare)
    (payload : NodeTaskLogChunkRequest) :
    acceptChunk (some row) payload = acceptChunk (some row') payload := by
  have hoffset : row.lastOffset = row'.lastOffset := (congrArg TaskLog.lastOffset h :)
  have htruncated : row.isTruncated = row'.isTruncated := (congrArg TaskLog.isTruncated h :)
  simp only [acceptChunk, hoffset, htruncated]

/-- Appends to a stream of a task of the node. -/
theorem isolatedFiles_append (hx : SameLogs own x x') {taskId : String} (howned : own taskId = true)
    (maxStreamBytes : Nat) (stream : Stream) (text : List Char) :
    (appendLogChunk maxStreamBytes taskId stream text x.files).1 =
        (appendLogChunk maxStreamBytes taskId stream text x'.files).1 ∧
      IsolatedFiles own x x'
        { x with files := (appendLogChunk maxStreamBytes taskId stream text x.files).2 }
        { x' with files := (appendLogChunk maxStreamBytes taskId stream text x'.files).2 } := by
  have hstream : x.files.SameStream taskId stream x'.files := fun slot => hx _ howned
  have happend := hstream.appendLogChunk maxStreamBytes text
  have hother : ∀ files : Files, files.SameBut taskId stream
      (appendLogChunk maxStreamBytes taskId stream text files).2 := appendLogChunk_sameBut text
  refine ⟨happend.1, fun f hf => ?_, fun _ f hf => ?_⟩
  · cases f with
    | log f =>
        have hne : (f.taskId, f.stream) ≠ (taskId, stream) := by
          intro heq
          have hown := hf.resolve_right (not_not.mpr trivial)
          rw [StoredFile.taskId, (Prod.mk.inj heq).1, howned] at hown
          cases hown
        exact congrArg (Option.map Content.text) ((hother x.files).2.2 f hne)
    | artifact f => rw [Files.read, Files.read, (hother x.files).1]
  · obtain ⟨taskId', stream', slot⟩ := f
    by_cases heq : (taskId', stream') = (taskId, stream)
    · obtain ⟨rfl, rfl⟩ := Prod.mk.inj heq
      exact happend.2 slot
    · exact ((hother x.files).2.2 _ heq).trans ((hx _ hf).trans ((hother x'.files).2.2 _ heq).symm)

/-- The answer refuses a chunk for the quota. -/
def refusedForQuota {α : Type} : Except Exc α → Bool
  | .error (.api e) => e.code = "ERR_STORAGE_QUOTA_EXCEEDED"
  | _ => false

/-- A body that was validated is refused for the quota when its handler refuses it. -/
theorem refusedForQuota_handle {α β : Type} (name : String) (payload : α) (body : α → Tx β) (db : Db)
    (x : World) : refusedForQuota ((handle name (some payload) body).resultOf db x) =
      refusedForQuota ((body payload).resultOf db x) := by
  have hresult : (handle name (some payload) body).resultOf db x = _ :=
    Prog.resultOf_bind_ret (body payload) (fun _ => ()) db x
  rw [hresult]
  cases (body payload).resultOf db x with
  | error e => cases e <;> rfl
  | ok b => rfl

/-- A chunk that is accepted is refused for the quota when it has text for which there is no
room. -/
theorem refusedForQuota_storeChunk (settings : Settings) (gzipSize : List Char → Nat)
    (payload : NodeTaskLogChunkRequest) (existing : Option TaskLog) (text : List Char)
    (nowIso : String) (db : Db) (x : World) :
    refusedForQuota ((storeChunk settings gzipSize payload existing text nowIso).resultOf db x) =
      decide (utf8Length text ≠ 0 ∧
        settings.storageQuotaBytes < storageUsageBytes gzipSize x.files + utf8Length text) := by
  simp only [storeChunk, storageUsage, Prog.resultOf, Prog.atomic, Prog.io_bind, Prog.ret_bind,
    Prog.exec_io, id]
  split
  · rename_i hfull
    rw [decide_eq_true hfull]
    cases existing <;> rfl
  · rename_i hroom
    rw [decide_eq_false hroom]
    simp only [appendToLog, Prog.io_bind, Prog.exec_io]
    cases happend : (appendLogChunk settings.taskLogStreamMaxBytes payload.taskId payload.stream text
        x.files).1 with
    | error e => rcases appendLogChunk_error text x.files happend with rfl | rfl <;> rfl
    | ok done => rfl

/-- The second half of a chunk, with the row of the stream that each run finds. -/
theorem storeChunk_abreast {post : LogChunkAck → LogChunkAck → Db → Db → World → World → Prop}
    (h : AlikeFor nodeId own w w') (hx : SameLogs own x x') (settings : Settings)
    (gzipSize : List Char → Nat) {payload : NodeTaskLogChunkRequest}
    (howned : own payload.taskId = true) (text : List Char) (nowIso : String)
    (hquota : (utf8Length text ≠ 0 ∧
        settings.storageQuotaBytes < storageUsageBytes gzipSize x.files + utf8Length text) ↔
      (utf8Length text ≠ 0 ∧
        settings.storageQuotaBytes < storageUsageBytes gzipSize x'.files + utf8Length text))
    (hpost : ∀ r r' v v' y y', post r r' v v' y y') :
    (storeChunk settings gzipSize payload (w.logs.get? (payload.taskId, payload.stream)) text
        nowIso).abreast (Isolated nodeId own) (IsolatedFiles own) post
      (storeChunk settings gzipSize payload (w'.logs.get? (payload.taskId, payload.stream)) text
        nowIso) w w' x x' := by
  simp only [storeChunk, storageUsage, Prog.io_bind, Prog.ret_bind, Prog.abreast_io, id]
  refine ⟨isolatedFiles_of_files rfl rfl, ?_⟩
  obtain ⟨hsame, hfiles⟩ := isolatedFiles_append hx howned settings.taskLogStreamMaxBytes
    payload.stream text
  by_cases hfull : utf8Length text ≠ 0 ∧
      settings.storageQuotaBytes < storageUsageBytes gzipSize x.files + utf8Length text
  · rw [if_pos hfull, if_pos (hquota.mp hfull)]
    rcases h.log howned payload.stream with ⟨hrow, hrow'⟩ | ⟨z, hz, u, hu, hrow, hrow'⟩
    · rw [hrow, hrow']
      exact ⟨isolated_log_insert h howned hrow hrow', isolatedFiles_of_files rfl rfl, trivial⟩
    · rw [hrow, hrow']
      exact ⟨isolated_log_truncate h hz hu _ _, isolatedFiles_of_files rfl rfl, trivial⟩
  · rw [if_neg hfull, if_neg fun hfull' => hfull (hquota.mpr hfull')]
    simp only [appendToLog, Prog.io_bind, Prog.abreast_io]
    refine ⟨hfiles, ?_⟩
    rw [hsame]
    refine Prog.abreast.bind (ofExcept_abreast fun _ _ => ?_)
    rcases h.log howned payload.stream with ⟨hrow, hrow'⟩ | ⟨z, hz, u, hu, hrow, hrow'⟩
    · rw [hrow, hrow']
      exact ⟨isolated_log_insert h howned hrow hrow', hpost _ _ _ _ _ _⟩
    · rw [hrow, hrow']
      have hoffset : u.1.lastOffset = u.2.lastOffset :=
        (congrArg TaskLog.lastOffset (hz.same u hu) :)
      have hpreview : u.1.previewText = u.2.previewText :=
        (congrArg TaskLog.previewText (hz.same u hu) :)
      simp only [storeOffset, hoffset, hpreview]
      exact ⟨isolated_log_extend h hz hu _ _ _ _, hpost _ _ _ _ _ _⟩

/-- A chunk, when both runs refuse it for the quota or neither does. -/
theorem taskLogChunk_abreast {post : LogChunkAck → LogChunkAck → Db → Db → World → World → Prop}
    (h : AlikeFor nodeId own w w') (hx : SameLogs own x x') (settings : Settings)
    (gzipSize : List Char → Nat) (payload : NodeTaskLogChunkRequest) (now : Nat)
    (hquota : refusedForQuota ((taskLogChunk settings gzipSize nodeId payload now).resultOf w x) =
      refusedForQuota ((taskLogChunk settings gzipSize nodeId payload now).resultOf w' x'))
    (hpost : ∀ r r' v v' y y', post r r' v v' y y') :
    (taskLogChunk settings gzipSize nodeId payload now).abreast (Isolated nodeId own)
      (IsolatedFiles own) post (taskLogChunk settings gzipSize nodeId payload now) w w' x x' := by
  -- A chunk of a task of the node that is accepted is answered as its second half is.
  have hanswer : ∀ (db : Db) (x : World) row text,
      ((db.tasks.get? payload.taskId).filter fun row => row.nodeId = nodeId) = some row →
      acceptChunk (db.logs.get? (payload.taskId, payload.stream)) payload = .ok text →
      (taskLogChunk settings gzipSize nodeId payload now).resultOf db x =
        (storeChunk settings gzipSize payload (db.logs.get? (payload.taskId, payload.stream)) text
          (utcNowIso now)).resultOf db x := by
    intro db x row text hrow hacc
    simp only [taskLogChunk, loadTaskForNode, Prog.resultOf, Prog.atomic, Prog.query_bind,
      Prog.select_bind, Prog.exec_select, hrow, Prog.pure_eq, Prog.ret_bind, hacc, ofExcept]
  have haccept : own payload.taskId = true →
      acceptChunk (w.logs.get? (payload.taskId, payload.stream)) payload =
        acceptChunk (w'.logs.get? (payload.taskId, payload.stream)) payload := by
    intro howned
    rcases h.log howned payload.stream with ⟨hrow, hrow'⟩ | ⟨z, hz, u, hu, hrow, hrow'⟩
    · rw [hrow, hrow']
    · rw [hrow, hrow', acceptChunk_bare (hz.same u hu)]
  rw [taskLogChunk]
  refine Prog.abreast.bind (loadTaskForNode_abreast h _ fun row howned hrow => ?_)
  have haccept := haccept howned
  simp only [Prog.query_bind, Prog.abreast_select]
  rw [← haccept]
  refine Prog.abreast.bind (ofExcept_abreast fun text hacc => ?_)
  rw [hanswer w x row text hrow hacc,
    hanswer w' x' row text ((h.task _).symm.trans hrow) (haccept.symm.trans hacc),
    refusedForQuota_storeChunk, refusedForQuota_storeChunk] at hquota
  exact storeChunk_abreast h hx settings gzipSize howned text _ (decide_eq_decide.mp hquota) hpost

/-- Reading and renewing the key writes to the row of the node. -/
theorem nodeSigningKey_abreast {post : String → String → Db → Db → World → World → Prop}
    (h : AlikeFor nodeId own w w') {node : Node} (hnode : w.nodes.get? nodeId = some node)
    (crypto : Crypto) (random nowIso : String)
    (hpost : ∀ key v v', AlikeFor nodeId own v v' → post key key v v' x x') :
    (nodeSigningKey crypto node nodeId random nowIso).abreast (Isolated nodeId own)
      (IsolatedFiles own) post (nodeSigningKey crypto node nodeId random nowIso) w w' x x' := by
  have hkey : ∀ key v v', AlikeFor nodeId own v v' →
      (if key = "" then .raise (unauthorized "ERR_AUTH_SIGNING_KEY_UNAVAILABLE"
          "Node signing key unavailable" [("node_id", .str nodeId)])
        else pure key : Tx String).abreast (Isolated nodeId own) (IsolatedFiles own) post
        (if key = "" then .raise (unauthorized "ERR_AUTH_SIGNING_KEY_UNAVAILABLE"
          "Node signing key unavailable" [("node_id", .str nodeId)])
        else pure key) v v' x x' := by
    intro key v v' hv
    split
    · trivial
    · exact hpost key v v' hv
  simp only [nodeSigningKey]
  split
  · exact hkey _ _ _ h
  · rename_i encrypted _
    split
    · trivial
    · rename_i decrypted _
      split
      · split
        · trivial
        · rename_i renewed _
          have hset : Isolated nodeId own (.node (.setEncryptedKey node.id renewed nowIso))
              (.node (.setEncryptedKey node.id renewed nowIso)) w w' := by
            refine isolated_node h (by intro _ h; cases h) fun row hrow hid => ?_
            have hsame : row = node :=
              Table.eq_of_id hrow (Table.get?_mem hnode) (of_decide_eq_true hid)
            exact hsame ▸ Table.get?_key hnode
          exact ⟨hset, hkey _ _ _ hset.alike⟩
      · exact hkey _ _ _ h

/-- Storing a request writes to the node's nonces and its row. -/
theorem storeRequest_abreast {post : Unit → Unit → Db → Db → World → World → Prop}
    (h : AlikeFor nodeId own w w') (settings : Settings) (timestamp nonce : String) (now : Nat)
    (hpost : ∀ v v', AlikeFor nodeId own v v' → post () () v v' x x') :
    (storeRequest settings nodeId timestamp nonce now).abreast (Isolated nodeId own)
      (IsolatedFiles own) post (storeRequest settings nodeId timestamp nonce now) w w' x x' := by
  simp only [storeRequest]
  split
  · trivial
  · simp only [Prog.executeReturning_bind, Prog.abreast_write]
    rw [← h.nonce_taken nonce]
    refine (isolated_nonce h rfl).andThen fun hstored => ?_
    split
    · trivial
    · have hcount : ∀ nodes : Table Node,
          (NodeStmt.setRequestTs nodeId timestamp (utcNowIso now)).rowcount nodes =
            if (nodes.get? nodeId).any
              (NodeStmt.setRequestTs nodeId timestamp (utcNowIso now)).selects then 1 else 0 :=
        fun nodes => Table.length_select nodes fun row hrow => by
          simp only [NodeStmt.selects, Bool.and_eq_true, decide_eq_true_eq] at hrow
          exact hrow.1.1
      simp only [Prog.abreast_write]
      rw [hcount, hcount, hstored.node]
      generalize (if (Option.any _ _) then 1 else 0) = rowcount
      have hset := isolated_node hstored (n := .setRequestTs nodeId timestamp (utcNowIso now))
        (by intro _ h; cases h) fun row _ hrow => by
          simp only [NodeStmt.selects, Bool.and_eq_true, decide_eq_true_eq] at hrow
          exact hrow.1.1
      refine hset.andThen fun hdone => ?_
      split
      · trivial
      · exact hpost _ _ hdone

/-- Authentication writes to the node that the headers name. -/
theorem authenticateNode_abreast {post : Node → Node → Db → Db → World → World → Prop}
    (h : AlikeFor nodeId own w w') (settings : Settings) (crypto : Crypto) {request : SignedRequest}
    (hrequest : request.nodeId.getD "" = nodeId) (random : String) (now : Nat)
    (hpost : ∀ node v v', AlikeFor nodeId own v v' → post node node v v' x x') :
    (authenticateNode settings crypto request random now).abreast (Isolated nodeId own)
      (IsolatedFiles own) post (authenticateNode settings crypto request random now) w w' x x' := by
  unfold authenticateNode
  split
  · rename_i id timestamp nonce signature hid _ _ _
    obtain rfl : id = nodeId := by
      rw [← hrequest, (Option.filter_eq_some_iff.mp hid).1]
      rfl
    generalize parseTimestamp timestamp = parsed, checkSkew settings now = skew
    refine Prog.abreast.bind (ofExcept_abreast fun requestTime _ => ?_)
    refine Prog.abreast.bind (ofExcept_abreast fun _ _ => ?_)
    simp only [Prog.query_bind, Prog.abreast_select]
    rw [← h.node]
    cases hnode : (w.nodes.get? id).filter Node.isEnabled with
    | none => trivial
    | some node =>
        have hget := (Option.filter_eq_some_iff.mp hnode).1
        refine Prog.abreast.bind (nodeSigningKey_abreast h hget crypto _ _ fun key v v' hv => ?_)
        refine Prog.abreast.bind (ofExcept_abreast fun valid _ => ?_)
        split
        · trivial
        · exact Prog.abreast.bind (storeRequest_abreast hv settings _ _ _ fun v v' hv =>
            hpost _ _ _ hv)
  · trivial

/-- A body that is handled side by side. -/
theorem handle_abreast {α β : Type} {name : String} {payload : Option α} {body : α → Tx β}
    (hbody : ∀ payload, (body payload).abreast (Isolated nodeId own) (IsolatedFiles own)
      (fun _ _ _ _ _ _ => True) (body payload) w w' x x') :
    (handle name payload body).abreast (Isolated nodeId own) (IsolatedFiles own)
      (fun _ _ _ _ _ _ => True) (handle name payload body) w w' x x' := by
  cases payload with
  | none => trivial
  | some payload => exact Prog.abreast.bind ((hbody payload).mono fun _ _ _ _ _ _ _ => trivial)

/-- What follows authentication, and answers the request. -/
theorem authenticated_abreast (h : AlikeFor nodeId own w w') {r : NodeRequest}
    (hr : r.nodeId = nodeId) (site : Site) {body : Node → Tx Unit}
    (hbody : ∀ node v v', AlikeFor nodeId own v v' →
      (r.authenticated site body).resultOf w x = (body node).resultOf v x →
      (r.authenticated site body).resultOf w' x' = (body node).resultOf v' x' →
      (body node).abreast (Isolated nodeId own) (IsolatedFiles own) (fun _ _ _ _ _ _ => True)
        (body node) v v' x x') :
    (r.authenticated site body).abreast (Isolated nodeId own) (IsolatedFiles own)
      (fun _ _ _ _ _ _ => True) (r.authenticated site body) w w' x x' := by
  have hauth : (authenticateNode site.settings site.crypto r.signed r.random
      r.authenticatedAt).abreast (Isolated nodeId own) (IsolatedFiles own)
      (fun node node' v v' y y' => node = node' ∧ AlikeFor nodeId own v v' ∧ y = x ∧ y' = x')
      (authenticateNode site.settings site.crypto r.signed r.random r.authenticatedAt) w w' x x' :=
    authenticateNode_abreast h _ _ hr _ _ fun _ _ _ hv => ⟨rfl, hv, rfl, rfl⟩
  refine Prog.abreast.bind ((hauth.actual w w').mono ?_)
  rintro node _ v v' _ _ ⟨⟨rfl, hv, rfl, rfl⟩, ⟨d, hexec⟩, d', hexec'⟩
  simp only [reconnect, Prog.commit_bind, Prog.ret_bind, Prog.abreast_commit]
  refine hbody node v v' hv ?_ ?_
  · rw [← Prog.exec_result _ w, ← Prog.exec_result _ v, NodeRequest.authenticated, Prog.exec_bind,
      hexec]
    rfl
  · rw [← Prog.exec_result _ w', ← Prog.exec_result _ v', NodeRequest.authenticated,
      Prog.exec_bind, hexec']
    rfl

/-- Two runs of a request from databases that are alike for its node go side by side, isolated to
the node, when both are refused for the quota or neither is. -/
theorem NodeRequest.code_abreast (h : AlikeFor nodeId own w w') (hx : SameLogs own x x')
    (site : Site) {r : NodeRequest} (hr : r.nodeId = nodeId)
    (hquota : refusedForQuota ((r.code site).resultOf w x) =
      refusedForQuota ((r.code site).resultOf w' x')) :
    (r.code site).abreast (Isolated nodeId own) (IsolatedFiles own) (fun _ _ _ _ _ _ => True)
      (r.code site) w w' x x' := by
  obtain ⟨signed, random, authenticatedAt, call, now⟩ := r
  cases call with
  | heartbeat payload =>
      refine authenticated_abreast h hr site fun node v v' hv _ _ => handle_abreast fun payload => ?_
      rw [hr]
      exact heartbeat_abreast hv _ node payload now fun _ _ _ _ _ _ => trivial
  | event payload =>
      refine authenticated_abreast h hr site fun node v v' hv _ _ => handle_abreast fun payload => ?_
      rw [hr]
      exact taskEvents_abreast hv payload now fun _ _ _ _ _ _ => trivial
  | logChunk payload =>
      refine authenticated_abreast h hr site fun node v v' hv hresult hresult' => ?_
      have hquota := (congrArg refusedForQuota hresult).symm.trans
        (hquota.trans (congrArg refusedForQuota hresult'))
      rw [hr] at hquota ⊢
      cases payload with
      | none => trivial
      | some payload =>
          rw [refusedForQuota_handle, refusedForQuota_handle] at hquota
          exact Prog.abreast.bind
            (taskLogChunk_abreast hv hx _ _ payload now hquota fun _ _ _ _ _ _ => trivial)
  | result payload =>
      refine authenticated_abreast h hr site fun node v v' hv _ _ => handle_abreast fun payload => ?_
      rw [hr]
      exact taskResult_abreast hv payload now fun _ _ _ _ _ _ => trivial
  | artifact contentLength payload =>
      refine Prog.abreast.bind (ofExcept_abreast fun _ _ => ?_)
      refine authenticated_abreast h hr site fun node v v' hv _ _ => handle_abreast fun payload => ?_
      rw [hr]
      exact artifactUpload_abreast hv _ payload now fun _ _ _ _ _ _ => trivial

end Sides

/-! ## One request -/

section Requests

variable {site : Site} {s s' : Store}

/-- A request leaves the rows of every node but the one its headers name, and stores files with
accepted names of tasks of that node only. -/
theorem NodeRequest.leaves (site : Site) (r : NodeRequest) (s : Store) :
    (∀ other, other ≠ r.nodeId → rowsOf other (r.after site s).db = rowsOf other s.db) ∧
      (∀ taskId, ownedBy (r.after site s).db r.nodeId taskId = ownedBy s.db r.nodeId taskId) ∧
      ∀ f : StoredFile, ownedBy s.db r.nodeId f.taskId = false ∨ ¬ f.Accepted →
        (r.after site s).world.files.read f = s.world.files.read f := by
  have hself := NodeRequest.code_abreast (.refl r.nodeId s.db) (fun (_ : LogFile) _ => rfl :
    SameLogs (ownedBy s.db r.nodeId) s.world s.world) site rfl rfl
  have hafter := hself.after
    (R := fun db _ => (∀ other, other ≠ r.nodeId → rowsOf other db = rowsOf other s.db) ∧
      ∀ taskId, ownedBy db r.nodeId taskId = ownedBy s.db r.nodeId taskId)
    (E := fun x _ => ∀ f : StoredFile, ownedBy s.db r.nodeId f.taskId = false ∨ ¬ f.Accepted →
      x.files.read f = s.world.files.read f) ?_ ?_ ⟨fun _ _ => rfl, fun _ => rfl⟩ fun _ _ => rfl
  · exact ⟨hafter.1.1, hafter.1.2, hafter.2⟩
  · exact fun q q' w w' hq hw => ⟨fun other hne => (hq.others other hne).trans (hw.1 other hne),
      hq.alike.owned⟩
  · exact fun x x' y y' hfiles hx f hf => (hfiles.others f hf).trans (hx f hf)

/-- A request leaves the files of the tasks of every node but the one its headers name. -/
theorem NodeRequest.leaves_files (site : Site) (r : NodeRequest) (s : Store) {other : String}
    (hne : other ≠ r.nodeId) {f : StoredFile} (hf : ownedBy s.db other f.taskId = true) :
    (r.after site s).world.files.read f = s.world.files.read f :=
  (r.leaves site s).2.2 f (Or.inl (ownedBy_other hf hne.symm))

/-- A request leaves the tasks to their nodes. -/
theorem NodeRequest.owned (site : Site) (r : NodeRequest) (s : Store) (nodeId : String) :
    ownedBy (r.after site s).db nodeId = ownedBy s.db nodeId := by
  obtain ⟨hothers, hown, -⟩ := r.leaves site s
  funext taskId
  by_cases hne : nodeId = r.nodeId
  · rw [hne]
    exact hown taskId
  · rw [ownedBy_eq_any, hothers nodeId hne, ← ownedBy_eq_any]

/-- A request keeps the ids under which tasks and files are found. -/
theorem Housed.after {ids : List String} (h : Housed ids s) (r : NodeRequest) :
    Housed ids (r.after site s) := by
  have howner : ∀ nodeId taskId, ownedBy s.db nodeId taskId = true → taskId ∈ ids := by
    intro nodeId taskId howned
    obtain ⟨row, hrow, -⟩ := (Option.any_eq_true ..).mp howned
    exact h.mem hrow
  refine ⟨fun row hrow => ?_, fun f content hread => ?_⟩
  · have howned := ownedBy_of_get? (Table.get?_of_mem hrow : _ = some row) rfl
    exact howner row.nodeId row.taskId (r.owned site s row.nodeId ▸ howned)
  · by_cases hown : ownedBy s.db r.nodeId f.taskId = true ∧ f.Accepted
    · exact ⟨howner _ _ hown.1, hown.2⟩
    · rw [not_and_or, Bool.not_eq_true] at hown
      exact h.files f content ((r.leaves site s).2.2 f hown ▸ hread)

/-- What a node's requests see of two states: its rows, but for the ids, and the log files of its
tasks. -/
def SeesAlike (nodeId : String) (s s' : Store) : Prop :=
  AlikeFor nodeId (ownedBy s.db nodeId) s.db s'.db ∧
    SameLogs (ownedBy s.db nodeId) s.world s'.world

/-- Requests of other nodes change nothing of what a node's requests see. -/
theorem SeesAlike.other {nodeId : String} (h : SeesAlike nodeId s s') {r : NodeRequest}
    (hne : nodeId ≠ r.nodeId) : SeesAlike nodeId (r.after site s) s' := by
  have hrows := (r.leaves site s).1 nodeId hne
  refine ⟨?_, ?_⟩
  · rw [alikeFor_iff, hrows, ← alikeFor_iff]
    exact h.1
  · rw [r.owned site s nodeId]
    intro f hf
    have hfile : (r.after site s).world.files.read (.log f) = s.world.files.read (.log f) :=
      r.leaves_files site s hne hf
    exact (Option.map_injective (fun _ _ => Content.text.inj) hfile).trans (h.2 f hf)

theorem SeesAlike.symm {nodeId : String} (h : SeesAlike nodeId s s') : SeesAlike nodeId s' s := by
  have howned : ownedBy s'.db nodeId = ownedBy s.db nodeId := funext h.1.owned'
  refine ⟨?_, ?_⟩
  · rw [alikeFor_iff]
    exact (alikeFor_iff.mp h.1).symm
  · rw [howned]
    exact fun f hf => (h.2 f hf).symm

/-- A request of a node does the same to states that are alike for it. -/
theorem SeesAlike.own (r : NodeRequest) (h : SeesAlike r.nodeId s s')
    (hquota : refusedForQuota (r.reply site s) = refusedForQuota (r.reply site s')) :
    SeesAlike r.nodeId (r.after site s) (r.after site s') := by
  have hboth := NodeRequest.code_abreast h.1 h.2 site rfl hquota
  obtain ⟨hdb, hworld⟩ := hboth.after (R := AlikeFor r.nodeId (ownedBy s.db r.nodeId))
    (E := SameLogs (ownedBy s.db r.nodeId)) (fun _ _ _ _ hq _ => hq.alike)
    (fun _ _ _ _ hfiles => hfiles.alike) h.1 h.2
  have howned : ownedBy (r.after site s).db r.nodeId = ownedBy s.db r.nodeId := funext hdb.owned
  rw [SeesAlike, howned]
  exact ⟨hdb, hworld⟩

end Requests

/-! ## Runs -/

section Runs

variable (site : Site)

/-- Of the requests of a node in a run, in order: whether each was refused for the quota. -/
def quotaRefusals (nodeId : String) : Store → List NodeRequest → List Bool
  | _, [] => []
  | s, r :: rs =>
      let later := quotaRefusals nodeId (r.after site s) rs
      if r.nodeId = nodeId then refusedForQuota (r.reply site s) :: later else later

variable {site}

/-- Requests of other nodes change nothing of what a node's requests see, and none of the node's
requests is among them. -/
theorem SeesAlike.others {nodeId : String} {s s' : Store} {rs : List NodeRequest}
    (hrs : ∀ r ∈ rs, r.nodeId ≠ nodeId) (h : SeesAlike nodeId s s') :
    SeesAlike nodeId (serveAll site s rs) s' ∧ ∀ later : List NodeRequest,
      quotaRefusals site nodeId s (rs ++ later) =
        quotaRefusals site nodeId (serveAll site s rs) later := by
  induction rs generalizing s with
  | nil => exact ⟨h, fun _ => rfl⟩
  | cons r rs ih =>
      obtain ⟨hr, hrs⟩ := List.forall_mem_cons.mp hrs
      have hother : SeesAlike nodeId (r.after site s) s' := h.other hr.symm
      obtain ⟨halike, hlater⟩ := ih hrs hother
      refine ⟨halike, fun later => ?_⟩
      rw [List.cons_append, quotaRefusals, if_neg hr]
      exact hlater later

/-- Two runs with the same requests of a node, of which they refuse the same for the quota, leave
states that are alike for the node. -/
theorem SeesAlike.run {nodeId : String} {s s' : Store} {rs rs' : List NodeRequest}
    (h : SeesAlike nodeId s s')
    (hsame : rs.filter (·.nodeId = nodeId) = rs'.filter (·.nodeId = nodeId))
    (hquota : quotaRefusals site nodeId s rs = quotaRefusals site nodeId s' rs') :
    SeesAlike nodeId (serveAll site s rs) (serveAll site s' rs') := by
  induction rs generalizing rs' s s' with
  | nil =>
      have hrs' : ∀ r ∈ rs', r.nodeId ≠ nodeId := by
        intro r hr heq
        exact List.not_mem_nil (hsame ▸ List.mem_filter.mpr ⟨hr, decide_eq_true heq⟩)
      exact (h.symm.others hrs').1.symm
  | cons r rs ih =>
      by_cases hr : r.nodeId = nodeId
      · -- The second run comes to the same request after requests of other nodes.
        rw [List.filter_cons, if_pos (decide_eq_true hr)] at hsame
        obtain ⟨before, later, rfl, hbefore, -, hlater⟩ := List.filter_eq_cons_iff.mp hsame.symm
        have hothers : ∀ r ∈ before, r.nodeId ≠ nodeId := fun r hr heq =>
          hbefore r hr (decide_eq_true heq)
        obtain ⟨halike, hrefusals⟩ := SeesAlike.others hothers h.symm
        rw [hrefusals, quotaRefusals, quotaRefusals, if_pos hr, if_pos hr] at hquota
        obtain ⟨hreply, hquota⟩ := List.cons.inj hquota
        subst hr
        have hafter := SeesAlike.own r halike.symm hreply
        have happend : serveAll site s' (before ++ r :: later) =
            serveAll site (r.after site (serveAll site s' before)) later := List.foldl_append
        rw [happend]
        exact ih hafter hlater.symm hquota
      · rw [List.filter_cons_of_neg (by simpa using hr)] at hsame
        rw [quotaRefusals, if_neg hr] at hquota
        exact ih (h.other fun heq => hr heq.symm) hsame hquota

theorem owned_serveAll (s : Store) (rs : List NodeRequest) (nodeId : String) :
    ownedBy (serveAll site s rs).db nodeId = ownedBy s.db nodeId := by
  induction rs generalizing s with
  | nil => rfl
  | cons r rs ih => exact (ih (r.after site s)).trans (r.owned site s nodeId)

theorem Housed.serveAll {ids : List String} {s : Store} (h : Housed ids s) (rs : List NodeRequest) :
    Housed ids (GpuFleet.serveAll site s rs) := by
  induction rs generalizing s with
  | nil => exact h
  | cons r rs ih => exact ih (h.after r)

end Runs

/-! ## Two nodes -/

/-- A database with two nodes, each with a task that it has not claimed yet. -/
def twoNodesDb : Db :=
  (createTask { nodeId := "m", type := .healthCheck, taskId := some "u" }
    { admin := ⟨1, "admin"⟩, review := none, freshTaskId := "", freshKey := "k", now := 0
      reviewedAt := 0 }).dbAfter
    { oneTaskDb with
      nodes := oneTaskDb.nodes.insert (fun id =>
        { id, nodeId := "m", displayName := "m", nodeSigningKey := some "secret"
          encryptedSigningKey := none, onboardingTokenEncrypted := none
          onboardingTokenCreatedAt := none, onboardingTokenExpiresAt := none, nodeType := .physical
          osType := none, hostname := none, heartbeatIntervalSec := 5, allowedWorkdirs := []
          tags := [], allowShell := false, allowModal := false, isEnabled := true
          firstSeenAt := none, lastSeenAt := none, lastRequestTs := none, lastBootId := none
          createdAt := "", updatedAt := "" })
        fun _ => rfl } {}

/-- The first byte of a task's output, sent by its node. -/
def firstByte (nodeId taskId : String) : NodeRequest where
  signed :=
    { nodeId := some nodeId
      timestamp := some "0001-01-01T00:00:00Z"
      nonce := some "a"
      signature := some (plainCrypto.signNodeRequest (plainCrypto.deriveNodeSigningKey "secret")
        nodeId "0001-01-01T00:00:00Z" "a" (plainCrypto.hashRequestBody "{}"))
      body := "{}" }
  authenticatedAt := 0
  call := .logChunk (some { taskId, stream := .stdout, offsetStart := 0, text := ['x'] })
  now := 0

/-- Both nodes send output. -/
def bothSend : List NodeRequest := [firstByte "n" "t", firstByte "m" "u"]

/-- Only the second node sends output. -/
def oneSends : List NodeRequest := [firstByte "m" "u"]

/-- A server with room for so many bytes. -/
def roomFor (bytes : Nat) : Site where
  settings := { storageQuotaBytes := bytes }
  crypto := plainCrypto
  gzipSize := List.length
  root := []

example : ((serveAll (roomFor 2) ⟨twoNodesDb, {}⟩ bothSend).db.logs.rows.map fun row =>
      (row.id, row.taskId)) = [(1, "t"), (2, "u")] ∧
    ((serveAll (roomFor 2) ⟨twoNodesDb, {}⟩ oneSends).db.logs.rows.map fun row =>
      (row.id, row.taskId)) = [(1, "u")] := by
  decide +kernel

end GpuFleet
