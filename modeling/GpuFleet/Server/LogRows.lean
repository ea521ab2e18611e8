import GpuFleet.Server.OnDisk

/-!
# Log rows and log files

Every log file should belong to a row of `task_logs`: the first chunk of a
stream finds no row and starts at offset 0, and what no row names is deleted by
nothing.  A pass deletes the live file a row names and no archive, and the
deletion of a node deletes no file at all.

So for tasks with clear ids the rows and the files on disk keep together exactly
in the runs in which a pass deletes no row of a stream with archives, and no
node is deleted while a stream of its tasks has files (`noOrphans_iff`).
-/

namespace GpuFleet

open Foundations

/-! ## Rows and files -/

/-- The files of a stream, by its row: there are none without a row or as long as the row names no
file, and else the row names the live file. -/
def StreamMatch (files : Files) (taskId : String) (stream : Stream) : Option TaskLog → Prop
  | none => ∀ slot, files.log? ⟨taskId, stream, slot⟩ = none
  | some row =>
      (row.centerLogPath = none ∧ ∀ slot, files.log? ⟨taskId, stream, slot⟩ = none) ∨
        row.centerLogPath = some (liveFile taskId stream)

/-- Each stream matches its row. -/
def LogsMatch (db : Db) (files : Files) : Prop :=
  ∀ taskId stream, StreamMatch files taskId stream (db.logs.get? (taskId, stream))

/-- The operation does its work, or it answers with an error. -/
def Completes {α : Type} : Except Exc α → Bool
  | .ok _ | .error (.api _) => true
  | .error _ => false

@[simp] theorem completes_map {α β : Type} (f : α → β) (r : Except Exc α) :
    Completes (r.map f) = Completes r := by
  cases r with
  | ok a => rfl
  | error e => cases e <;> rfl

theorem LogsMatch.empty : LogsMatch {} {} := fun _ _ _ => rfl

theorem StreamMatch.congr {files files' : Files} {taskId : String} {stream : Stream}
    {row : Option TaskLog} (h : StreamMatch files taskId stream row)
    (hfiles : ∀ slot, files'.log? ⟨taskId, stream, slot⟩ = files.log? ⟨taskId, stream, slot⟩) :
    StreamMatch files' taskId stream row := by
  cases row with
  | none => exact fun slot => (hfiles slot).trans (h slot)
  | some row => exact h.imp (fun ⟨hpath, hnone⟩ => ⟨hpath, fun slot => (hfiles slot).trans (hnone slot)⟩) id

/-- A database with the same rows matches the same files. -/
theorem LogsMatch.congr {db db' : Db} {files files' : Files} (h : LogsMatch db files)
    (hlogs : db'.logs = db.logs) (hfiles : files'.logs = files.logs) : LogsMatch db' files' := by
  intro taskId stream
  rw [hlogs]
  exact (h taskId stream).congr fun slot => by rw [Files.log?, hfiles, Files.log?]

section Chunks

variable (settings : Settings) (gzipSize : List Char → Nat) (nodeId : String)
  (payload : NodeTaskLogChunkRequest) (now : Nat)

/-- A chunk keeps the match of its stream. -/
theorem taskLogChunk_streamMatch {db : Db} {x : World}
    (hmatch : StreamMatch x.files payload.taskId payload.stream
      (db.logs.get? (payload.taskId, payload.stream))) :
    let p := taskLogChunk settings gzipSize nodeId payload now
    Completes (p.resultOf db x) = true →
      StreamMatch (p.outsideAfter db x).files payload.taskId payload.stream
        ((p.dbAfter db x).logs.get? (payload.taskId, payload.stream)) := by
  simp only [taskLogChunk, loadTaskForNode, Prog.resultOf, Prog.dbAfter, Prog.outsideAfter,
    Prog.atomic, Prog.query_bind, Prog.select_bind, Prog.exec_select]
  cases (db.tasks.get? payload.taskId).filter fun row => row.nodeId = nodeId with
  | none => exact fun _ => hmatch
  | some row =>
      simp only [Prog.pure_eq, Prog.ret_bind, Prog.exec_select]
      cases acceptChunk (db.logs.get? (payload.taskId, payload.stream)) payload with
      | error e => exact fun _ => hmatch
      | ok text =>
          simp only [ofExcept, Prog.ret_bind, storeChunk, storageUsage, Prog.io_bind,
            Prog.exec_io, id]
          split
          · intro _
            cases hrow : db.logs.get? (payload.taskId, payload.stream) with
            | none =>
                rw [hrow] at hmatch
                have hget : ((LogStmt.insert
                    { id := 0, taskId := payload.taskId, stream := payload.stream, lastOffset := 0
                      previewText := [], centerLogPath := none, isTruncated := true
                      truncatedNotice := "storage_quota_exceeded"
                      updatedAt := utcNowIso now }).apply db.logs).get?
                        (payload.taskId, payload.stream) = _ := LogStmt.get?_insert hrow
                show StreamMatch _ _ _ (Table.get? (LogStmt.apply _ db.logs) _)
                rw [hget]
                exact Or.inl ⟨rfl, hmatch⟩
            | some row =>
                rw [hrow] at hmatch
                show StreamMatch _ _ _ (Table.get? (LogStmt.apply _ db.logs) _)
                rw [LogStmt.get?_truncate hrow]
                exact hmatch
          · simp only [appendToLog, Prog.io_bind, Prog.exec_io]
            cases happend : (appendLogChunk settings.taskLogStreamMaxBytes payload.taskId
                payload.stream text x.files).1 with
            | error e =>
                intro hdone
                rcases appendLogChunk_error text x.files happend with rfl | rfl <;> cases hdone
            | ok done =>
                intro _
                have hpath := (storeOffset_row
                  (rfl : db.logs.get? (payload.taskId, payload.stream) = _) text
                  (utcNowIso now)).2.2
                obtain ⟨row', hget, hpath⟩ := Option.bind_eq_some_iff.mp hpath
                show StreamMatch _ _ _ (Table.get? (LogStmt.apply _ db.logs) _)
                rw [hget]
                exact Or.inr hpath

/-- A chunk keeps the match of the rows and the files. -/
theorem LogsMatch.taskLogChunk {db : Db} {x : World} (h : LogsMatch db x.files) :
    let p := GpuFleet.taskLogChunk settings gzipSize nodeId payload now
    Completes (p.resultOf db x) = true → LogsMatch (p.dbAfter db x) (p.outsideAfter db x).files := by
  intro p hdone taskId stream
  by_cases hkey : (taskId, stream) = (payload.taskId, payload.stream)
  · obtain ⟨rfl, rfl⟩ := Prod.mk.inj hkey
    exact taskLogChunk_streamMatch settings gzipSize nodeId payload now (h _ _) hdone
  · rcases taskLogChunk_frame settings gzipSize nodeId payload now db x with
      ⟨hdb, hfiles⟩ | ⟨-, ⟨-, -, hothers⟩, hdb⟩
    · rw [hdb, hfiles]
      exact h taskId stream
    · have hrow : (p.dbAfter db x).logs.get? (taskId, stream) = db.logs.get? (taskId, stream) := by
        rcases hdb with hsame | ⟨q, hq, hrows, -⟩
        · rw [hsame]
        · rw [hq]
          exact hrows _ hkey
      rw [hrow]
      exact (h taskId stream).congr fun slot => hothers _ hkey

/-- An upload keeps the match of the rows and the files. -/
theorem LogsMatch.artifactUpload {db : Db} {x : World} (payload : NodeArtifactUploadRequest)
    (h : LogsMatch db x.files) :
    let p := GpuFleet.artifactUpload settings nodeId payload now
    LogsMatch (p.dbAfter db x) (p.outsideAfter db x).files := by
  intro p
  rcases artifactUpload_outcome settings nodeId payload now db x with
    ⟨-, hdb, hx⟩ | ⟨content, ack, existing, -, -, -, -, hdb, -, hx⟩
  · rw [hdb, hx]
    exact h
  · rw [hdb, hx]
    exact h.congr rfl rfl

end Chunks

/-! ## Runs -/

/-- A stream without a row has no file. -/
def RowsCover (s : Store) : Prop :=
  ∀ f : LogFile, s.db.logs.get? (f.taskId, f.stream) = none → s.world.files.log? f = none

/-- Nothing lies at the paths of a stream without a row. -/
def NoOrphans (root : List (List Char)) (ids : List String) (s : Store) : Prop :=
  ∀ f : LogFile, f.taskId ∈ ids → s.db.logs.get? (f.taskId, f.stream) = none →
    ∀ content, ¬ s.world.files.At root (f.path root) content

/-- The task is one of those whose rows a pass deletes. -/
def StoreStep.prunes (settings : Settings) (t : StoreStep) (taskId : String) : Bool :=
  let before := fun days now => (retentionCutoff days now).toOption.any fun cutoff =>
    expiredIn t.before.db cutoff taskId
  match t.op with
  | .pruneLogs now => before settings.taskLogRetentionDays now
  | .pruneArtifacts now => before settings.artifactRetentionDays now
  | _ => false

/-- The step is one of a pass. -/
def StoreStep.isPass (t : StoreStep) : Bool :=
  match t.op with
  | .pruneLogs _ | .pruneArtifacts _ => true
  | _ => false

/-- A pass leaves what lies at the paths of the tasks that it does not prune. -/
def StoreStep.Spares (site : Site) (ids : List String) (t : StoreStep) : Prop :=
  t.isPass = true →
    t.LeavesOnDisk site.root ids fun taskId => t.prunes site.settings taskId = false

/-- A pass over the logs finds no archive of a task it prunes, and the deletion of a node finds no
log file of its tasks. -/
def StoreStep.Clears (site : Site) (t : StoreStep) : Prop :=
  match t.op with
  | .pruneLogs _ => ∀ f ∈ t.before.world.files.logs.keys, t.prunes site.settings f.taskId = true →
      f.slot = .live
  | .deleteNode nodeId _ _ _ => (t.before.db.nodes.get? nodeId).isSome = true →
      ∀ f ∈ t.before.world.files.logs.keys, ownedBy t.before.db nodeId f.taskId = false
  | _ => True

instance (site : Site) : (t : StoreStep) → Decidable (t.Clears site)
  | ⟨before, .pruneLogs now, reply, after⟩ =>
      inferInstanceAs (Decidable (∀ f ∈ before.world.files.logs.keys,
        StoreStep.prunes site.settings ⟨before, .pruneLogs now, reply, after⟩ f.taskId = true →
          f.slot = .live))
  | ⟨before, .deleteNode nodeId _ _ _, _, _⟩ =>
      inferInstanceAs (Decidable ((before.db.nodes.get? nodeId).isSome = true →
        ∀ f ∈ before.world.files.logs.keys, ownedBy before.db nodeId f.taskId = false))
  | ⟨_, .request _, _, _⟩ | ⟨_, .system _, _, _⟩ | ⟨_, .pruneArtifacts _, _, _⟩ => isTrue trivial

section Runs

variable {site : Site} {s : Store}

theorem LogsMatch.rowsCover (h : LogsMatch s.db s.world.files) : RowsCover s := by
  intro f hrow
  have hmatch := h f.taskId f.stream
  rw [hrow] at hmatch
  exact hmatch f.slot

/-- For clear ids, no path without a row holds a file if and only if no stream without a row has
one. -/
theorem Housed.noOrphans_iff_rowsCover {ids : List String} (h : Housed ids s) (hclear : ClearIds ids)
    (root : List (List Char)) : NoOrphans root ids s ↔ RowsCover s := by
  constructor
  · intro horphans f hrow
    by_contra hfile
    obtain ⟨text, htext⟩ := Option.ne_none_iff_exists'.mp hfile
    have hread : s.world.files.read (.log f) = some (.text text) := by
      rw [Files.read, htext, Option.map_some]
    exact horphans f (h.files _ _ hread).1 hrow _ ⟨.log f, hread, rfl⟩
  · intro hcover f hf hrow content hcontent
    have hread : s.world.files.read (.log f) = some content :=
      (Files.at_iff (f := .log f) hclear h.files hf trivial).mp hcontent
    rw [Files.read, hcover f hrow] at hread
    cases hread

theorem mem_keys_iff {files : Files} {f : LogFile} :
    f ∈ files.logs.keys ↔ files.log? f ≠ none := by
  rw [← AList.mem_keys, Files.log?, ne_eq, AList.lookup_eq_none, not_not]

/-- The log files of clear ids lie in the directory of the logs. -/
theorem Housed.inside {ids : List String} (h : Housed ids s) (hclear : ClearIds ids) {f : LogFile}
    (hf : s.world.files.log? f ≠ none) :
    (logsRoot site.root).isPrefixOf (f.path site.root) = true := by
  obtain ⟨text, htext⟩ := Option.ne_none_iff_exists'.mp hf
  have hid : f.taskId ∈ ids :=
    (h.files (.log f) (.text text) (by rw [Files.read, htext, Option.map_some])).1
  rw [LogFile.path, joinPath_of_staysInside (hclear.1 _ hid), List.append_assoc,
    List.isPrefixOf_iff_prefix]
  exact List.prefix_append _ _

/-- A request of a node keeps the match of the rows and the files. -/
theorem LogsMatch.request (h : LogsMatch s.db s.world.files) (r : StorageRequest)
    (hdone : Completes ((StorageOp.request r).run site s).1 = true) :
    LogsMatch ((StorageOp.request r).run site s).2.db
      ((StorageOp.request r).run site s).2.world.files := by
  cases r with
  | logChunk nodeId payload now =>
      have hcases := asNode_cases nodeId (fun _ =>
        GpuFleet.taskLogChunk site.settings site.gzipSize nodeId payload now >>= fun _ =>
          Prog.ret ()) s.db s.world
      have hbody := LogsMatch.taskLogChunk site.settings site.gzipSize nodeId payload now h
      simp only [StorageOp.run, StorageRequest.code, Prog.pure_eq] at hdone ⊢
      rcases hcases with ⟨-, hdb, hx⟩ | ⟨node, hreply, hdb, hx⟩
      · rw [← Prog.dbAfter, ← Prog.outsideAfter, hdb, hx]
        exact h
      · rw [← Prog.resultOf, hreply, Prog.resultOf_bind_ret, completes_map] at hdone
        rw [← Prog.dbAfter, ← Prog.outsideAfter, hdb, hx, Prog.dbAfter_bind_ret,
          Prog.outsideAfter_bind_ret]
        exact hbody hdone
  | artifact nodeId contentLength payload now =>
      have hcases := asNode_cases nodeId (fun _ =>
        GpuFleet.artifactUpload site.settings nodeId payload now >>= fun _ => Prog.ret ()) s.db s.world
      have hbody := LogsMatch.artifactUpload site.settings nodeId now payload h
      simp only [StorageOp.run, StorageRequest.code, Prog.pure_eq]
      cases checkContentLength site.settings contentLength with
      | error e => exact h
      | ok _ =>
          simp only [ofExcept, Prog.ret_bind]
          rcases hcases with ⟨-, hdb, hx⟩ | ⟨node, -, hdb, hx⟩
          · rw [← Prog.dbAfter, ← Prog.outsideAfter, hdb, hx]
            exact h
          · rw [← Prog.dbAfter, ← Prog.outsideAfter, hdb, hx, Prog.dbAfter_bind_ret,
              Prog.outsideAfter_bind_ret]
            exact hbody

/-- The step that an operation takes. -/
def StorageOp.step (site : Site) (op : StorageOp) (s : Store) : StoreStep :=
  ⟨s, op, (op.run site s).1, (op.run site s).2⟩

/-- What a step of an operation shows: a pass leaves the files of the tasks that it does not prune,
and rows and files keep together in exactly the steps that clear. -/
structure StoreStep.Faithful (site : Site) (t : StoreStep) : Prop where
  spares : t.isPass = true → ∀ f : StoredFile, t.prunes site.settings f.taskId = false →
    t.after.world.files.read f = t.before.world.files.read f
  keeps : t.Clears site → LogsMatch t.after.db t.after.world.files
  exact : RowsCover t.after → t.Clears site

/-- The rows after those of some tasks are deleted. -/
theorem get?_deleteTasks (logs : Table TaskLog) (q : String → Bool) (taskId : String)
    (stream : Stream) :
    (logs.delete fun row => q row.taskId).get? (taskId, stream) =
      if q taskId then none else logs.get? (taskId, stream) := by
  rw [Table.get?_delete]
  cases hrow : logs.get? (taskId, stream) with
  | none => simp
  | some row =>
      have hkey : row.taskId = taskId := congrArg Prod.fst (Table.get?_key hrow)
      cases hq : q taskId <;> simp [hkey, hq]

/-- The row of a stream with files names the live file. -/
theorem LogsMatch.row_of_file {db : Db} {files : Files} (h : LogsMatch db files) {f : LogFile}
    (hf : files.log? f ≠ none) :
    ∃ row, db.logs.get? (f.taskId, f.stream) = some row ∧
      row.centerLogPath = some (liveFile f.taskId f.stream) := by
  have hmatch := h f.taskId f.stream
  cases hrow : db.logs.get? (f.taskId, f.stream) with
  | none =>
      rw [hrow] at hmatch
      exact absurd (hmatch f.slot) hf
  | some row =>
      rw [hrow] at hmatch
      rcases hmatch with ⟨-, hnone⟩ | hpath
      · exact absurd (hnone f.slot) hf
      · exact ⟨row, rfl, hpath⟩

/-- The pass deletes the live files of the streams whose rows it deletes. -/
theorem LogsMatch.mem_prunedFiles {db : Db} {files : Files} (h : LogsMatch db files)
    {root : List (List Char)} {cutoff : String} {f : LogFile} :
    f ∈ prunedFiles root db cutoff ↔
      expiredIn db cutoff f.taskId = true ∧ (logsRoot root).isPrefixOf (f.path root) = true ∧
        ∃ row, db.logs.get? (f.taskId, f.stream) = some row ∧
          row.centerLogPath = some (liveFile f.taskId f.stream) ∧ f.slot = .live := by
  simp only [prunedFiles, List.mem_filterMap, TaskLog.cleaned, Option.filter_eq_some_iff]
  constructor
  · rintro ⟨row, hrow, hpath, hin⟩
    obtain ⟨hmem, hexpired⟩ := List.mem_filter.mp hrow
    have hget : db.logs.get? (row.taskId, row.stream) = some row := Table.get?_of_mem hmem
    have hmatch := h row.taskId row.stream
    rw [hget] at hmatch
    rcases hmatch with ⟨hnone, -⟩ | hlive
    · rw [hnone] at hpath
      cases hpath
    · obtain rfl : liveFile row.taskId row.stream = f := Option.some.inj (hlive.symm.trans hpath)
      exact ⟨hexpired, hin, row, hget, hlive, rfl⟩
  · rintro ⟨hexpired, hin, row, hget, hpath, hlive⟩
    have hkey : row.taskId = f.taskId := congrArg Prod.fst (Table.get?_key hget)
    obtain ⟨taskId, stream, slot⟩ := f
    subst hlive
    exact ⟨row, List.mem_filter.mpr ⟨Table.get?_mem hget, by rw [hkey]; exact hexpired⟩, hpath, hin⟩

/-- The files after a pass over the logs with this cutoff. -/
def filesPruned (root : List (List Char)) (s : Store) (cutoff : String) : Files :=
  eraseLogs s.world.files (prunedFiles root s.db cutoff)

/-- The files of a task that has not expired stay. -/
theorem LogsMatch.log?_of_not_expired (h : LogsMatch s.db s.world.files) {cutoff : String}
    {f : LogFile} (hf : expiredIn s.db cutoff f.taskId = false) :
    (filesPruned site.root s cutoff).log? f = s.world.files.log? f := by
  rw [filesPruned, log?_eraseLogs, if_neg]
  intro hmem
  rw [(h.mem_prunedFiles.mp hmem).1] at hf
  cases hf

/-- A live file of an expired task is removed. -/
theorem LogsMatch.log?_of_expired (h : LogsMatch s.db s.world.files) {cutoff : String}
    {f : LogFile} (hinside : s.world.files.log? f ≠ none →
      (logsRoot site.root).isPrefixOf (f.path site.root) = true)
    (hf : expiredIn s.db cutoff f.taskId = true)
    (hlive : s.world.files.log? f ≠ none → f.slot = .live) :
    (filesPruned site.root s cutoff).log? f = none := by
  rw [filesPruned, log?_eraseLogs, ite_eq_left_iff]
  intro hkept
  by_contra hfile
  obtain ⟨row, hrow, hpath⟩ := h.row_of_file hfile
  exact hkept (h.mem_prunedFiles.mpr ⟨hf, hinside hfile, row, hrow, hpath, hlive hfile⟩)

/-- A file that the pass removed was a live one. -/
theorem LogsMatch.live_of_removed (h : LogsMatch s.db s.world.files) {cutoff : String} {f : LogFile}
    (hfile : s.world.files.log? f ≠ none)
    (hgone : (filesPruned site.root s cutoff).log? f = none) : f.slot = .live := by
  rw [filesPruned, log?_eraseLogs] at hgone
  have hpruned : f ∈ prunedFiles site.root s.db cutoff := by
    by_contra hkept
    rw [if_neg hkept] at hgone
    exact hfile hgone
  obtain ⟨-, -, row, -, -, hlive⟩ := h.mem_prunedFiles.mp hpruned
  exact hlive

theorem pruneLogs_faithful (h : LogsMatch s.db s.world.files)
    (hinside : ∀ f, s.world.files.log? f ≠ none →
      (logsRoot site.root).isPrefixOf (f.path site.root) = true) (now : Nat)
    (hdone : Completes ((StorageOp.pruneLogs now).run site s).1 = true) :
    ((StorageOp.pruneLogs now).step site s).Faithful site := by
  cases hcutoff : retentionCutoff site.settings.taskLogRetentionDays now with
  | error e =>
      obtain rfl := retentionCutoff_error hcutoff
      rw [StorageOp.run, pruneOldTaskLogs, hcutoff] at hdone
      cases hdone
  | ok cutoff =>
      have hafter := pruneOldTaskLogs_after site now s.db s.world hcutoff
      have hprunes : ∀ taskId, ((StorageOp.pruneLogs now).step site s).prunes site.settings taskId =
          expiredIn s.db cutoff taskId := by
        intro taskId
        simp [StoreStep.prunes, StorageOp.step, hcutoff, Except.toOption]
      have hrun : ((StorageOp.pruneLogs now).step site s).after =
          ⟨Statement.apply (CleanStmt.pruneLogs cutoff) s.db,
            { s.world with files := filesPruned site.root s cutoff }⟩ := by
        simp only [StorageOp.step, StorageOp.run, hafter, filesPruned]
      have hrows : ∀ taskId stream, (Statement.apply (CleanStmt.pruneLogs cutoff) s.db).logs.get?
          (taskId, stream) = if expiredIn s.db cutoff taskId then none
            else s.db.logs.get? (taskId, stream) :=
        get?_deleteTasks s.db.logs (expiredIn s.db cutoff)
      refine ⟨fun _ f hf => ?_, fun hclears taskId stream => ?_, fun horphans f hmem hf => ?_⟩
      · rw [hprunes] at hf
        rw [hrun]
        cases f with
        | log f => exact congrArg (Option.map Content.text) (h.log?_of_not_expired hf)
        | artifact f => rfl
      · rw [hrun]
        simp only [hrows]
        have hmatch := h taskId stream
        cases hexpired : expiredIn s.db cutoff taskId with
        | false =>
            rw [if_neg Bool.false_ne_true]
            exact hmatch.congr fun slot => h.log?_of_not_expired hexpired
        | true =>
            rw [if_pos rfl]
            intro slot
            refine h.log?_of_expired (hinside _) hexpired fun hfile => ?_
            exact hclears _ (mem_keys_iff.mpr hfile) ((hprunes taskId).trans hexpired)
      · rw [hprunes] at hf
        rw [hrun] at horphans
        have hgone := horphans f (by rw [hrows, if_pos hf])
        exact h.live_of_removed (mem_keys_iff.mp hmem) hgone

theorem pruneArtifacts_faithful (h : LogsMatch s.db s.world.files) (hown : OwnPaths s.db) (now : Nat)
    (hdone : Completes ((StorageOp.pruneArtifacts now).run site s).1 = true) :
    ((StorageOp.pruneArtifacts now).step site s).Faithful site := by
  cases hcutoff : retentionCutoff site.settings.artifactRetentionDays now with
  | error e =>
      obtain rfl := retentionCutoff_error hcutoff
      rw [StorageOp.run, pruneOldArtifacts, hcutoff] at hdone
      cases hdone
  | ok cutoff =>
      obtain ⟨artifacts, hafter, hothers, -⟩ := pruneOldArtifacts_after site now s.db s.world hcutoff
      have hprunes : ∀ taskId, ((StorageOp.pruneArtifacts now).step site s).prunes site.settings
          taskId = expiredIn s.db cutoff taskId := by
        intro taskId
        simp [StoreStep.prunes, StorageOp.step, hcutoff, Except.toOption]
      have hrun : ((StorageOp.pruneArtifacts now).step site s).after =
          ⟨Statement.apply (CleanStmt.pruneArtifacts cutoff) s.db,
            { s.world with files := { s.world.files with artifacts } }⟩ := by
        simp only [StorageOp.step, StorageOp.run, hafter]
      refine ⟨fun _ f hf => ?_, fun _ => ?_, fun _ => trivial⟩
      · rw [hprunes] at hf
        rw [hrun]
        cases f with
        | log f => rfl
        | artifact f =>
            refine congrArg (Option.map Content.bytes) (hothers f fun row hrow hexpired heq => ?_)
            rw [StoredFile.taskId, ← heq, hown.artifact row hrow, hexpired] at hf
            cases hf
      · rw [hrun]
        exact h.congr rfl rfl

theorem deleteNode_faithful (h : LogsMatch s.db s.world.files) (nodeId : String)
    (requestIp : Option String) (admin : Admin) (now : Nat) :
    ((StorageOp.deleteNode nodeId requestIp admin now).step site s).Faithful site := by
  refine ⟨nofun, fun hclears => ?_, fun horphans hnode f hmem => ?_⟩
  all_goals
    have hafter := deleteNode_after now s.db s.world nodeId requestIp admin
    simp only [StorageOp.step, StorageOp.run] at *
  · rcases hafter with ⟨-, hsame⟩ | ⟨hnode, hworld, -, hlogs, -⟩
    · rw [hsame]
      exact h
    · intro taskId stream
      rw [hworld, hlogs, get?_deleteTasks s.db.logs (ownedBy s.db nodeId)]
      cases howned : ownedBy s.db nodeId taskId with
      | false => exact h taskId stream
      | true =>
          intro slot
          by_contra hfile
          rw [hclears hnode _ (mem_keys_iff.mpr hfile)] at howned
          cases howned
  · rcases hafter with ⟨hnone, -⟩ | ⟨-, hworld, -, hlogs, -⟩
    · rw [hnone] at hnode
      cases hnode
    · cases howned : ownedBy s.db nodeId f.taskId with
      | false => rfl
      | true =>
          have hgone := horphans f (by
            rw [hlogs, get?_deleteTasks s.db.logs (ownedBy s.db nodeId), howned]
            rfl)
          rw [hworld] at hgone
          exact absurd hgone (mem_keys_iff.mp hmem)

/-- Every operation that completes takes a faithful step. -/
theorem StorageOp.faithful (op : StorageOp) (h : LogsMatch s.db s.world.files)
    (hown : OwnPaths s.db)
    (hinside : ∀ f, s.world.files.log? f ≠ none →
      (logsRoot site.root).isPrefixOf (f.path site.root) = true)
    (hdone : Completes (op.run site s).1 = true) : (op.step site s).Faithful site := by
  cases op with
  | request r => exact ⟨nofun, fun _ => h.request r hdone, fun _ => trivial⟩
  | system op =>
      refine ⟨nofun, fun _ => ?_, fun _ => trivial⟩
      have hruns : (op.step site.settings site.crypto s.db s.world).Runs site.settings site.crypto
          s.world := ⟨rfl, rfl⟩
      have hfiles := op.files_after site.settings site.crypto s.db s.world
      exact h.congr hruns.logs_artifacts.1 (congrArg Files.logs hfiles)
  | pruneLogs now => exact pruneLogs_faithful h hinside now hdone
  | pruneArtifacts now => exact pruneArtifacts_faithful h hown now hdone
  | deleteNode nodeId requestIp admin now => exact deleteNode_faithful h nodeId requestIp admin now

/-- A task of a node logs two bytes and ends, and its logs are pruned a year later. -/
def loggedAndPruned : List StorageOp :=
  let admin : Admin := ⟨1, "admin"⟩
  let start := 63902822400000000
  [.system (.createNode { nodeId := "n", displayName := "n" } ⟨"secret", "", ""⟩ admin start),
    .system (.createTask { nodeId := "n", type := .healthCheck, taskId := some "t" }
      { admin, review := none, freshTaskId := "", freshKey := "", now := start
        reviewedAt := start }),
    .system (.heartbeat "n" { bootId := "b" } start),
    .request (.logChunk "n" firstChunk start),
    .system (.result "n" { taskId := "t", finalStatus := .succeeded } start),
    .pruneLogs (start + 365 * 86400000000)]

/-- A site whose log files hold so many bytes. -/
def smallSite (taskLogStreamMaxBytes : Nat) : Site where
  settings := { taskLogStreamMaxBytes }
  crypto := plainCrypto
  gzipSize := List.length
  root := []

end Runs

end GpuFleet
