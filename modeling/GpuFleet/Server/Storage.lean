import GpuFleet.Server.Permitted
import GpuFleet.Server.Quota
import GpuFleet.Server.StoragePaths

/-!
# What is deleted

Two passes of the scanner delete the logs and the artifacts of tasks that
finished long ago: first the files their rows name, then the rows.  Deleting a
node deletes its rows, and through the foreign keys the rows of its tasks, but
no file.

A run of the storage directory is a list of requests of nodes, of these
passes, of deletions, and of all the operations of `Server.System`, which leave
the logs and the files alone.

A task id stands for a directory of its own; `Server.OnDisk` says for which ids
that is so, and what then lies at the paths.
-/

namespace GpuFleet

open Foundations

/-! ## Statements -/

/-- The statements of the passes and of a deletion. -/
inductive CleanStmt where
  | dml (q : Dml)
  /-- `DELETE FROM task_logs` of the expired tasks. -/
  | pruneLogs (cutoff : String)
  /-- `DELETE FROM artifacts` of the expired tasks. -/
  | pruneArtifacts (cutoff : String)
  /-- `DELETE FROM nodes WHERE node_id`, with `ON DELETE CASCADE`. -/
  | deleteNode (nodeId : String)

/-- The task is over and finished before the cutoff, as texts compare. -/
def Task.expired (cutoff : String) (row : Task) : Bool :=
  row.status.isTerminal && row.finishedAt.any (· < cutoff)

/-- The task has a row that is expired. -/
def expiredIn (db : Db) (cutoff taskId : String) : Bool :=
  (db.tasks.get? taskId).any (Task.expired cutoff)

/-- The task has a row of the node. -/
def ownedBy (db : Db) (nodeId taskId : String) : Bool :=
  (db.tasks.get? taskId).any fun row => row.nodeId = nodeId

/-- The database after a statement. -/
def CleanStmt.apply (q : CleanStmt) (db : Db) : Db :=
  match q with
  | dml q => Statement.apply q db
  | pruneLogs cutoff => { db with logs := db.logs.delete fun row => expiredIn db cutoff row.taskId }
  | pruneArtifacts cutoff =>
      { db with artifacts := db.artifacts.delete fun row => expiredIn db cutoff row.taskId }
  | deleteNode nodeId =>
      { db with
        nodes := db.nodes.delete fun row => row.nodeId = nodeId
        snapshots := db.snapshots.delete fun row => row.nodeId = nodeId
        tasks := db.tasks.delete fun row => row.nodeId = nodeId
        attempts := db.attempts.delete fun row => row.nodeId = nodeId || ownedBy db nodeId row.taskId
        logs := db.logs.delete fun row => ownedBy db nodeId row.taskId
        artifacts := db.artifacts.delete fun row => ownedBy db nodeId row.taskId
        nonces := db.nonces.delete fun row => row.nodeId = nodeId
        reviews := db.reviews.delete fun row => ownedBy db nodeId row.taskId }

instance : Statement CleanStmt Db := ⟨CleanStmt.apply⟩

/-- A transaction of a pass or a deletion. -/
abbrev CleanTx (α : Type) := Prog CleanStmt Db World Exc α

/-! ## The passes -/

/-- The moment before which a pass deletes, `days` before a clock reading. -/
def cutoffMoment (days now : Nat) : Nat := now - 86400000000 * days

/-- The text of the cutoff. -/
def retentionCutoff (days now : Nat) : Except Exc String :=
  if now < 86400000000 * days then .error .overflow else .ok (utcNowIso (cutoffMoment days now))

section Passes

variable (root : List (List Char)) (settings : Settings)

/-- `_cleanup_path` of a log file; the emptied directory is of no interest. -/
def cleanupLog (f : LogFile) : CleanTx Unit :=
  if (logsRoot root).isPrefixOf (f.path root) then
    Prog.effect fun w => { w with files := { w.files with logs := w.files.logs.erase f } }
  else pure ()

/-- `_cleanup_path` of the file that a row of `task_logs` names. -/
def cleanupTaskLog (row : TaskLog) : CleanTx Unit :=
  match row.centerLogPath with
  | none => pure ()
  | some f => cleanupLog root f

/-- `_cleanup_path` of an artifact. -/
def cleanupArtifact (f : ArtifactFile) : CleanTx Unit :=
  if (artifactsRoot root).isPrefixOf (f.path root) then
    Prog.effect fun w => { w with files := { w.files with artifacts := w.files.artifacts.erase f } }
  else pure ()

/-- `_prune_old_task_logs` -/
def pruneOldTaskLogs (now : Nat) : CleanTx Unit :=
  match retentionCutoff settings.taskLogRetentionDays now with
  | .error e => .raise e
  | .ok cutoff => do
      let rows ← Prog.query fun db => db.logs.select fun row => expiredIn db cutoff row.taskId
      Prog.forEach rows (cleanupTaskLog root)
      Prog.execute (.pruneLogs cutoff)

/-- `_prune_old_artifacts` -/
def pruneOldArtifacts (now : Nat) : CleanTx Unit :=
  match retentionCutoff settings.artifactRetentionDays now with
  | .error e => .raise e
  | .ok cutoff => do
      let rows ← Prog.query fun db => db.artifacts.select fun row => expiredIn db cutoff row.taskId
      Prog.forEach rows fun row => cleanupArtifact root row.storagePath
      Prog.execute (.pruneArtifacts cutoff)

end Passes

/-- `delete_node` -/
def deleteNode (nodeId : String) (requestIp : Option String) (admin : Admin) (now : Nat) :
    CleanTx Unit := do
  let row ← Prog.query fun db => db.nodes.get? nodeId
  match row with
  | none => .raise (nodeNotFound nodeId)
  | some _ =>
      Prog.execute (.deleteNode nodeId)
      Prog.execute (.dml (.insertAudit
        { id := 0
          actorType := "admin"
          actorId := some (toString admin.id)
          action := "delete_node"
          targetType := "node"
          targetId := some nodeId
          requestIp
          detail := .obj []
          createdAt := utcNowIso now }))

/-! ## Runs -/

/-- What happens to the storage directory. -/
inductive StorageOp where
  | request (r : StorageRequest)
  | system (op : SystemOp)
  | pruneLogs (now : Nat)
  | pruneArtifacts (now : Nat)
  | deleteNode (nodeId : String) (requestIp : Option String) (admin : Admin) (now : Nat)

/-- The database and everything outside it. -/
structure Store where
  db : Db := {}
  world : World := {}

instance : Inhabited Store := ⟨{}⟩

/-- The surroundings of the server: its settings, its cryptography, `gzip`, and where the storage
directory lies. -/
structure Site where
  settings : Settings := {}
  crypto : Crypto
  gzipSize : List Char → Nat
  root : List (List Char)

section Runs

variable (site : Site)

/-- An operation, run alone: whether it raised nothing or what it raised, and what it leaves. -/
def StorageOp.run (op : StorageOp) (s : Store) : Except Exc Unit × Store :=
  let out := fun (r : Except Exc Unit × Db × World) => (r.1, (⟨r.2.1, r.2.2⟩ : Store))
  match op with
  | request r => out ((r.code site.settings site.gzipSize).atomic s.db s.world)
  | system op =>
      let p := op.code site.settings site.crypto
      out ((p.resultOf s.db s.world).map fun _ => (), p.dbAfter s.db s.world,
        p.outsideAfter s.db s.world)
  | pruneLogs now => out ((pruneOldTaskLogs site.root site.settings now).atomic s.db s.world)
  | pruneArtifacts now => out ((pruneOldArtifacts site.root site.settings now).atomic s.db s.world)
  | deleteNode nodeId requestIp admin now =>
      out ((GpuFleet.deleteNode nodeId requestIp admin now).atomic s.db s.world)

/-- One operation of a run. -/
structure StoreStep where
  before : Store
  op : StorageOp
  reply : Except Exc Unit
  after : Store

/-- The steps of a run. -/
def storeSteps (s : Store) : List StorageOp → List StoreStep
  | [] => []
  | op :: ops => ⟨s, op, (op.run site s).1, (op.run site s).2⟩ :: storeSteps (op.run site s).2 ops

variable {site}

/-- An invariant that each step meeting a condition keeps holds around every step of a run whose
steps all meet it. -/
theorem storeSteps_inv {I : Store → Prop} {C : StoreStep → Prop}
    (hstep : ∀ (op : StorageOp) s, C ⟨s, op, (op.run site s).1, (op.run site s).2⟩ → I s →
      I (op.run site s).2)
    {s : Store} {ops : List StorageOp} (hs : I s) (hcond : ∀ t ∈ storeSteps site s ops, C t)
    {t : StoreStep} (ht : t ∈ storeSteps site s ops) :
    I t.before ∧ I t.after ∧ t.reply = (t.op.run site t.before).1 ∧
      t.after = (t.op.run site t.before).2 := by
  induction ops generalizing s with
  | nil => cases ht
  | cons op ops ih =>
      have hnext := hstep op s (hcond _ (List.mem_cons_self ..)) hs
      rcases List.mem_cons.mp ht with rfl | ht
      · exact ⟨hs, hnext, rfl, rfl⟩
      · exact ih hnext (fun t ht => hcond t (List.mem_cons_of_mem _ ht)) ht

end Runs

/-! ## What a pass and a deletion leave -/

/-- The file of a row, if the pass deletes it. -/
def TaskLog.cleaned (root : List (List Char)) (row : TaskLog) : Option LogFile :=
  row.centerLogPath.filter fun f => (logsRoot root).isPrefixOf (f.path root)

/-- The log files the pass deletes. -/
def prunedFiles (root : List (List Char)) (db : Db) (cutoff : String) : List LogFile :=
  (db.logs.select fun row => expiredIn db cutoff row.taskId).filterMap (TaskLog.cleaned root)

/-- The log files after some of them are deleted. -/
def eraseLogs (files : Files) (deleted : List LogFile) : Files :=
  { files with logs := deleted.foldl (fun logs f => logs.erase f) files.logs }

theorem log?_eraseLogs (files : Files) (deleted : List LogFile) (f : LogFile) :
    (eraseLogs files deleted).log? f = if f ∈ deleted then none else files.log? f := by
  induction deleted generalizing files with
  | nil => rfl
  | cons g deleted ih =>
      have hstep : (eraseLogs files (g :: deleted)).log? f =
          (eraseLogs { files with logs := files.logs.erase g } deleted).log? f := rfl
      rw [hstep, ih]
      by_cases hfg : f = g
      · subst hfg
        simp [Files.log?]
      · simp only [List.mem_cons, hfg, false_or]
        rw [Files.log?, AList.lookup_erase_ne hfg, ← Files.log?]

theorem retentionCutoff_error {days now : Nat} {e : Exc}
    (h : retentionCutoff days now = .error e) : e = .overflow := by
  rw [retentionCutoff] at h
  split at h <;> cases h
  rfl

section Passes

variable (site : Site) (now : Nat) (db : Db) (x : World)

theorem cleanupLogs_exec (rows : List TaskLog) :
    (Prog.forEach rows (cleanupTaskLog site.root)).exec db db x =
      ⟨.ok (), db, db, { x with
        files := eraseLogs x.files (rows.filterMap (TaskLog.cleaned site.root)) }⟩ := by
  induction rows generalizing x with
  | nil => rfl
  | cons row rows ih =>
      rw [Prog.forEach_cons, Prog.exec_bind, List.filterMap_cons]
      cases hpath : row.centerLogPath with
      | none =>
          simp only [cleanupTaskLog, hpath, Prog.pure_eq, Prog.exec_ret, TaskLog.cleaned,
            Option.filter_none]
          exact ih x
      | some f =>
          simp only [cleanupTaskLog, hpath, cleanupLog, TaskLog.cleaned, Option.filter_some]
          by_cases hin : (logsRoot site.root).isPrefixOf (f.path site.root) = true
          · rw [if_pos hin, if_pos hin]
            exact ih _
          · rw [if_neg hin, if_neg hin]
            exact ih x

/-- What the pass over the logs does once it has a cutoff. -/
theorem pruneOldTaskLogs_after {cutoff : String}
    (hcutoff : retentionCutoff site.settings.taskLogRetentionDays now = .ok cutoff) :
    (pruneOldTaskLogs site.root site.settings now).atomic db x =
      (.ok (), Statement.apply (CleanStmt.pruneLogs cutoff) db,
        { x with files := eraseLogs x.files (prunedFiles site.root db cutoff) }) := by
  rw [pruneOldTaskLogs, hcutoff, Prog.atomic]
  simp only [Prog.query_bind, Prog.exec_select]
  rw [Prog.exec_bind, cleanupLogs_exec]
  rfl

theorem cleanupArtifacts_exec (rows : List Artifact) :
    ∃ artifacts, (Prog.forEach rows fun row => cleanupArtifact site.root row.storagePath).exec
        db db x = ⟨.ok (), db, db, { x with files := { x.files with artifacts } }⟩ ∧
      (∀ f, (∀ row ∈ rows, row.storagePath ≠ f) →
          artifacts.lookup f = x.files.artifacts.lookup f) ∧
        ∀ f content, artifacts.lookup f = some content →
          x.files.artifacts.lookup f = some content := by
  induction rows generalizing x with
  | nil => exact ⟨_, rfl, fun _ _ => rfl, fun _ _ => id⟩
  | cons row rows ih =>
      rw [Prog.forEach_cons, Prog.exec_bind, cleanupArtifact]
      by_cases hin : (artifactsRoot site.root).isPrefixOf (row.storagePath.path site.root) = true
      · obtain ⟨artifacts, hexec, hothers, hleft⟩ := ih { x with
          files := { x.files with artifacts := x.files.artifacts.erase row.storagePath } }
        rw [if_pos hin]
        refine ⟨artifacts, hexec, fun f hf => ?_, fun f content hcontent => ?_⟩
        · have hne : f ≠ row.storagePath := (hf row (List.mem_cons_self ..)).symm
          rw [hothers f fun row' hrow' => hf row' (List.mem_cons_of_mem _ hrow')]
          exact AList.lookup_erase_ne hne
        · have hkept := hleft f content hcontent
          by_cases heq : f = row.storagePath
          · subst heq
            rw [AList.lookup_erase] at hkept
            cases hkept
          · rwa [AList.lookup_erase_ne heq] at hkept
      · obtain ⟨artifacts, hexec, hothers, hleft⟩ := ih x
        rw [if_neg hin]
        exact ⟨artifacts, hexec, fun f hf =>
          hothers f fun row' hrow' => hf row' (List.mem_cons_of_mem _ hrow'), hleft⟩

/-- What the pass over the artifacts does once it has a cutoff. -/
theorem pruneOldArtifacts_after {cutoff : String}
    (hcutoff : retentionCutoff site.settings.artifactRetentionDays now = .ok cutoff) :
    ∃ artifacts, (pruneOldArtifacts site.root site.settings now).atomic db x =
        (.ok (), Statement.apply (CleanStmt.pruneArtifacts cutoff) db,
          { x with files := { x.files with artifacts } }) ∧
      (∀ f, (∀ row ∈ db.artifacts.rows, expiredIn db cutoff row.taskId = true →
          row.storagePath ≠ f) →
        artifacts.lookup f = x.files.artifacts.lookup f) ∧
        ∀ f content, artifacts.lookup f = some content →
          x.files.artifacts.lookup f = some content := by
  obtain ⟨artifacts, hexec, hothers, hleft⟩ := cleanupArtifacts_exec site db x
    (db.artifacts.select fun row => expiredIn db cutoff row.taskId)
  refine ⟨artifacts, ?_, fun f hf => hothers f fun row hrow => ?_, hleft⟩
  · rw [pruneOldArtifacts, hcutoff, Prog.atomic]
    simp only [Prog.query_bind, Prog.exec_select]
    rw [Prog.exec_bind, hexec]
    rfl
  · obtain ⟨hmem, hexpired⟩ := List.mem_filter.mp hrow
    exact hf row hmem hexpired

/-- What the deletion of a node does: nothing, or it deletes the rows and no file. -/
theorem deleteNode_after (nodeId : String) (requestIp : Option String) (admin : Admin) :
    let out := (deleteNode nodeId requestIp admin now).atomic db x
    (db.nodes.get? nodeId = none ∧ out.2 = (db, x)) ∨
      (db.nodes.get? nodeId).isSome = true ∧ out.2.2 = x ∧
        out.2.1.tasks = db.tasks.delete (fun row => row.nodeId = nodeId) ∧
        out.2.1.logs = db.logs.delete (fun row => ownedBy db nodeId row.taskId) ∧
        out.2.1.artifacts = db.artifacts.delete (fun row => ownedBy db nodeId row.taskId) := by
  simp only [deleteNode, Prog.atomic, Prog.query_bind, Prog.exec_select]
  cases hrow : db.nodes.get? nodeId with
  | none => exact Or.inl ⟨rfl, rfl⟩
  | some row => exact Or.inr ⟨rfl, rfl, rfl, rfl, rfl⟩

end Passes

/-! ## Steps -/

section Steps

variable {site : Site} {s : Store}

/-- A pass over the logs that has a cutoff prunes the rows and the files of expired tasks. -/
theorem StorageOp.pruneLogs_cases (site : Site) (now : Nat) (s : Store) :
    ((StorageOp.pruneLogs now).run site s).2 = s ∨
      ∃ cutoff, retentionCutoff site.settings.taskLogRetentionDays now = .ok cutoff ∧
        ((StorageOp.pruneLogs now).run site s).2 =
          ⟨Statement.apply (CleanStmt.pruneLogs cutoff) s.db,
            { s.world with
              files := eraseLogs s.world.files (prunedFiles site.root s.db cutoff) }⟩ := by
  cases hcutoff : retentionCutoff site.settings.taskLogRetentionDays now with
  | error e =>
      left
      simp only [StorageOp.run, pruneOldTaskLogs, hcutoff]
      rfl
  | ok cutoff =>
      refine .inr ⟨cutoff, rfl, ?_⟩
      simp only [StorageOp.run, pruneOldTaskLogs_after site now s.db s.world hcutoff]

/-- A pass over the artifacts that has a cutoff prunes the rows of expired tasks and removes files
that these rows name. -/
theorem StorageOp.pruneArtifacts_cases (site : Site) (now : Nat) (s : Store) :
    ((StorageOp.pruneArtifacts now).run site s).2 = s ∨
      ∃ cutoff artifacts, retentionCutoff site.settings.artifactRetentionDays now = .ok cutoff ∧
        ((StorageOp.pruneArtifacts now).run site s).2 =
          ⟨Statement.apply (CleanStmt.pruneArtifacts cutoff) s.db,
            { s.world with files := { s.world.files with artifacts } }⟩ ∧
        (∀ f, (∀ row ∈ s.db.artifacts.rows, expiredIn s.db cutoff row.taskId = true →
            row.storagePath ≠ f) →
          artifacts.lookup f = s.world.files.artifacts.lookup f) ∧
        ∀ f content, artifacts.lookup f = some content →
          s.world.files.artifacts.lookup f = some content := by
  cases hcutoff : retentionCutoff site.settings.artifactRetentionDays now with
  | error e =>
      left
      simp only [StorageOp.run, pruneOldArtifacts, hcutoff]
      rfl
  | ok cutoff =>
      obtain ⟨artifacts, hafter, hothers, hleft⟩ :=
        pruneOldArtifacts_after site now s.db s.world hcutoff
      refine .inr ⟨cutoff, artifacts, rfl, ?_, hothers, hleft⟩
      simp only [StorageOp.run, hafter]

/-- What holds before a request of a node, and of what the handling of a chunk or of an upload
leaves, holds after it. -/
theorem StorageRequest.run_keeps {I : Store → Prop} (r : StorageRequest) (hs : I s)
    (hchunk : ∀ nodeId payload now,
      let p := taskLogChunk site.settings site.gzipSize nodeId payload now
      I ⟨p.dbAfter s.db s.world, p.outsideAfter s.db s.world⟩)
    (hupload : ∀ nodeId payload now,
      let p := artifactUpload site.settings nodeId payload now
      I ⟨p.dbAfter s.db s.world, p.outsideAfter s.db s.world⟩) :
    I ((StorageOp.request r).run site s).2 := by
  cases r with
  | logChunk nodeId payload now =>
      have hcases := asNode_cases nodeId (fun _ =>
        taskLogChunk site.settings site.gzipSize nodeId payload now >>= fun _ => Prog.ret ())
        s.db s.world
      simp only [StorageOp.run, StorageRequest.code, Prog.pure_eq]
      rw [← Prog.dbAfter, ← Prog.outsideAfter]
      rcases hcases with ⟨-, hdb, hx⟩ | ⟨node, -, hdb, hx⟩
      · rw [hdb, hx]
        exact hs
      · rw [hdb, hx, Prog.dbAfter_bind_ret, Prog.outsideAfter_bind_ret]
        exact hchunk nodeId payload now
  | artifact nodeId contentLength payload now =>
      have hcases := asNode_cases nodeId (fun _ =>
        artifactUpload site.settings nodeId payload now >>= fun _ => Prog.ret ()) s.db s.world
      simp only [StorageOp.run, StorageRequest.code, Prog.pure_eq]
      cases checkContentLength site.settings contentLength with
      | error e => exact hs
      | ok _ =>
          simp only [ofExcept, Prog.ret_bind]
          rw [← Prog.dbAfter, ← Prog.outsideAfter]
          rcases hcases with ⟨-, hdb, hx⟩ | ⟨node, -, hdb, hx⟩
          · rw [hdb, hx]
            exact hs
          · rw [hdb, hx, Prog.dbAfter_bind_ret, Prog.outsideAfter_bind_ret]
            exact hupload nodeId payload now

end Steps

end GpuFleet
