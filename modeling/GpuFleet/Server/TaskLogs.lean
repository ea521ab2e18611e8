import GpuFleet.Foundations.Triple
import GpuFleet.Server.AdminTasks
import GpuFleet.Server.Auth
import GpuFleet.Server.LogStore

/-!
# Log chunks

`taskLogChunk` takes a chunk of a log stream that starts at or before the last
offset, appends what is new to the files, and stores the new offset.  The files
are written before the offset is, and no rollback takes the text back.

So a request that fails after it has appended leaves its text behind, and the
retry appends it again (`chunk_stored_twice`).  A failure is harmless if and
only if it comes before the append or nothing was to be appended
(`failed_chunks_iff`).
-/

namespace GpuFleet

open Foundations

/-! ## The handler -/

structure NodeTaskLogChunkRequest where
  taskId : String
  stream : Stream
  offsetStart : Nat
  text : List Char
  isFinal : Bool := false
  deriving DecidableEq

/-- The answer to a log chunk. -/
structure LogChunkAck where
  taskId : String
  stream : Stream
  storedBytes : Nat
  isFinal : Bool

/-- `text[-n:]` -/
def lastChars (n : Nat) (text : List Char) : List Char := text.drop (text.length - n)

/-- The text of a chunk that is new, unless the chunk is refused. -/
def acceptChunk (existing : Option TaskLog) (payload : NodeTaskLogChunkRequest) :
    Except Exc (List Char) :=
  let detail : List (String × Json) :=
    [("task_id", .str payload.taskId), ("stream", .str payload.stream.text)]
  match existing with
  | none =>
      if payload.offsetStart ≠ 0 then
        .error (.api
          { code := "ERR_LOG_OFFSET_MUST_START_ZERO"
            message := "Initial log chunk must start at offset 0 for " ++ payload.stream.text
            statusCode := 409
            details := detail ++ [("offset_start", .num payload.offsetStart)] })
      else .ok payload.text
  | some row =>
      if row.lastOffset < payload.offsetStart then
        .error (.api
          { code := "ERR_LOG_OFFSET_GAP"
            message := "Log offset gap detected for " ++ payload.stream.text
            statusCode := 409
            details := detail ++ [("expected_offset", .num row.lastOffset),
              ("offset_start", .num payload.offsetStart)] })
      else if row.isTruncated then
        .error (.api
          { code := "ERR_LOG_STREAM_TRUNCATED"
            message := "Log stream " ++ payload.stream.text ++ " is already truncated"
            statusCode := 507
            details := detail })
      else .ok (payload.text.drop (row.lastOffset - payload.offsetStart))

/-- `mark_log_truncated` -/
def markLogTruncated (taskId : String) (stream : Stream) (existing : Option TaskLog)
    (nowIso reason : String) : Tx Unit :=
  match existing with
  | none =>
      Prog.execute (.log (.insert
        { id := 0, taskId, stream, lastOffset := 0, previewText := [], centerLogPath := none
          isTruncated := true, truncatedNotice := reason, updatedAt := nowIso }))
  | some row => Prog.execute (.log (.truncate row.id reason nowIso))

/-- `storage_usage_bytes` of the storage directory. -/
def storageUsage (gzipSize : List Char → Nat) : Tx Nat :=
  .io id fun w => .ret (storageUsageBytes gzipSize w.files)

/-- `append_log_chunk` in the storage directory. -/
def appendToLog (maxStreamBytes : Nat) (taskId : String) (stream : Stream) (text : List Char) :
    Tx Unit :=
  .io (fun w => { w with files := (appendLogChunk maxStreamBytes taskId stream text w.files).2 })
    fun w => ofExcept (appendLogChunk maxStreamBytes taskId stream text w.files).1

/-- The statement that stores the offset after a chunk. -/
def storeOffset (existing : Option TaskLog) (payload : NodeTaskLogChunkRequest)
    (appendText : List Char) (nowIso : String) : LogStmt :=
  let endOffset := payload.offsetStart + payload.text.length
  let path := liveFile payload.taskId payload.stream
  match existing with
  | none =>
      .insert
        { id := 0, taskId := payload.taskId, stream := payload.stream, lastOffset := endOffset
          previewText := lastChars 4000 appendText, centerLogPath := some path
          isTruncated := false, truncatedNotice := "", updatedAt := nowIso }
  | some row =>
      .extend row.id (max row.lastOffset endOffset)
        (lastChars 4000 (row.previewText ++ appendText)) path nowIso

/-- `task_log_chunk` from the quota check on, with the row found and the text to append. -/
def storeChunk (settings : Settings) (gzipSize : List Char → Nat)
    (payload : NodeTaskLogChunkRequest) (existing : Option TaskLog) (appendText : List Char)
    (nowIso : String) : Tx LogChunkAck := do
  let appendBytes := utf8Length appendText
  let usage ← storageUsage gzipSize
  if appendBytes ≠ 0 ∧ settings.storageQuotaBytes < usage + appendBytes then
    markLogTruncated payload.taskId payload.stream existing nowIso "storage_quota_exceeded"
    emitEvent "storage.quota_exceeded"
      (.obj [("task_id", .str payload.taskId), ("stream", .str payload.stream.text),
        ("quota_bytes", .num settings.storageQuotaBytes), ("attempted_bytes", .num appendBytes)])
      "critical"
    reconnect
    .raise (.api
      { code := "ERR_STORAGE_QUOTA_EXCEEDED"
        message := "Storage quota exceeded; log chunk rejected"
        statusCode := 507
        details := [("task_id", .str payload.taskId), ("stream", .str payload.stream.text)] })
  else
    appendToLog settings.taskLogStreamMaxBytes payload.taskId payload.stream appendText
    Prog.execute (.log (storeOffset existing payload appendText nowIso))
    pure
      { taskId := payload.taskId
        stream := payload.stream
        storedBytes := appendText.length
        isFinal := payload.isFinal }

/-- `task_log_chunk` after authentication; `gzipSize` is the size of a text in an archive. -/
def taskLogChunk (settings : Settings) (gzipSize : List Char → Nat) (nodeId : String)
    (payload : NodeTaskLogChunkRequest) (now : Nat) : Tx LogChunkAck := do
  let nowIso := utcNowIso now
  let _ ← loadTaskForNode nodeId payload.taskId
  let existing ← Prog.query fun db => db.logs.get? (payload.taskId, payload.stream)
  let appendText ← ofExcept (acceptChunk existing payload)
  storeChunk settings gzipSize payload existing appendText nowIso

/-! ## What the handler does -/

/-- The last offset of a stream, 0 without a row. -/
def storedOffset (row : Option TaskLog) : Nat := (row.map TaskLog.lastOffset).getD 0

/-- The preview of a stream, empty without a row. -/
def storedPreview (row : Option TaskLog) : List Char := (row.map TaskLog.previewText).getD []

/-- The live file that the row of a stream names, if any. -/
def storedPath (row : Option TaskLog) : Option LogFile := row.bind TaskLog.centerLogPath

/-- A chunk is refused with an answer to the client. -/
theorem acceptChunk_error {existing : Option TaskLog} {payload : NodeTaskLogChunkRequest} {e : Exc}
    (he : acceptChunk existing payload = .error e) : ∃ error, e = .api error := by
  unfold acceptChunk at he
  cases existing with
  | none =>
      simp only at he
      split at he <;> cases he
      exact ⟨_, rfl⟩
  | some row =>
      simp only at he
      split at he
      · cases he
        exact ⟨_, rfl⟩
      · split at he <;> cases he
        exact ⟨_, rfl⟩

/-- A chunk that is accepted starts at or before the last offset, and what lies beyond is new. -/
theorem acceptChunk_ok {existing : Option TaskLog} {payload : NodeTaskLogChunkRequest}
    {text : List Char} (hok : acceptChunk existing payload = .ok text) :
    payload.offsetStart ≤ storedOffset existing ∧
      text = payload.text.drop (storedOffset existing - payload.offsetStart) := by
  unfold acceptChunk at hok
  cases existing with
  | none =>
      simp only at hok
      split at hok <;> cases hok
      rename_i hzero
      exact ⟨Nat.le_of_eq (not_not.mp hzero), by simp [storedOffset]⟩
  | some row =>
      simp only at hok
      split at hok
      · cases hok
      · rename_i hgap
        split at hok <;> cases hok
        exact ⟨Nat.le_of_not_lt hgap, rfl⟩

/-- The offset, the preview and the path that a chunk stores. -/
theorem storeOffset_row {existing : Option TaskLog} {payload : NodeTaskLogChunkRequest}
    {logs : Table TaskLog} (hrow : logs.get? (payload.taskId, payload.stream) = existing)
    (appendText : List Char) (nowIso : String) :
    let row := ((storeOffset existing payload appendText nowIso).apply logs).get?
      (payload.taskId, payload.stream)
    storedOffset row = max (storedOffset existing) (payload.offsetStart + payload.text.length) ∧
      storedPreview row = lastChars 4000 (storedPreview existing ++ appendText) ∧
      storedPath row = some (liveFile payload.taskId payload.stream) := by
  cases existing with
  | none =>
      have hget : ((storeOffset none payload appendText nowIso).apply logs).get?
          (payload.taskId, payload.stream) = _ := LogStmt.get?_insert hrow
      simp [hget, storedOffset, storedPreview, storedPath]
  | some row =>
      have hget : ((storeOffset (some row) payload appendText nowIso).apply logs).get?
          (payload.taskId, payload.stream) = _ := LogStmt.get?_extend hrow _ _ _ _
      simp [hget, storedOffset, storedPreview, storedPath]

/-- Marking a stream as truncated keeps its offset, its preview and its path, and the other
streams. -/
theorem markLogTruncated_row (taskId : String) (stream : Stream) (existing : Option TaskLog)
    (nowIso reason : String) :
    ∃ q, markLogTruncated taskId stream existing nowIso reason = Prog.execute (.log q) ∧
      ∀ logs : Table TaskLog, logs.get? (taskId, stream) = existing →
        storedOffset ((q.apply logs).get? (taskId, stream)) = storedOffset existing ∧
          storedPreview ((q.apply logs).get? (taskId, stream)) = storedPreview existing ∧
          storedPath ((q.apply logs).get? (taskId, stream)) = storedPath existing ∧
          ∀ key, key ≠ (taskId, stream) → (q.apply logs).get? key = logs.get? key := by
  cases existing with
  | none =>
      refine ⟨_, rfl, fun logs hrow => ?_⟩
      have hother : ∀ key, key ≠ (taskId, stream) → ((LogStmt.insert
          { id := 0, taskId, stream, lastOffset := 0, previewText := [], centerLogPath := none
            isTruncated := true, truncatedNotice := reason, updatedAt := nowIso }).apply logs).get?
              key = logs.get? key :=
        fun key hne => LogStmt.get?_insert_of_ne fun heq => hne heq.symm
      have hget : ((LogStmt.insert
          { id := 0, taskId, stream, lastOffset := 0, previewText := [], centerLogPath := none
            isTruncated := true, truncatedNotice := reason, updatedAt := nowIso }).apply logs).get?
              (taskId, stream) = _ := LogStmt.get?_insert hrow
      refine ⟨?_, ?_, ?_, hother⟩ <;> simp [hget, storedOffset, storedPreview, storedPath]
  | some row =>
      refine ⟨_, rfl, fun logs hrow => ⟨?_, ?_, ?_, fun key hne => ?_⟩⟩
      · simp [LogStmt.get?_truncate hrow, storedOffset]
      · simp [LogStmt.get?_truncate hrow, storedPreview]
      · simp [LogStmt.get?_truncate hrow, storedPath]
      · exact LogStmt.get?_update_of_ne hrow hne (Or.inr ⟨_, _, rfl⟩)

/-- Storing a chunk leaves the other streams. -/
theorem storeOffset_other {existing : Option TaskLog} {payload : NodeTaskLogChunkRequest}
    {logs : Table TaskLog} {key : String × Stream}
    (hrow : logs.get? (payload.taskId, payload.stream) = existing)
    (hne : key ≠ (payload.taskId, payload.stream)) (appendText : List Char) (nowIso : String) :
    ((storeOffset existing payload appendText nowIso).apply logs).get? key = logs.get? key := by
  cases existing with
  | none => exact LogStmt.get?_insert_of_ne fun heq => hne heq.symm
  | some row => exact LogStmt.get?_update_of_ne hrow hne (Or.inl ⟨_, _, _, _, rfl⟩)

section Outcome

variable (settings : Settings) (gzipSize : List Char → Nat) (nodeId : String)
  (payload : NodeTaskLogChunkRequest) (now : Nat) (db : Db) (x : World)

/-- What a request does to the log of its chunk: it is refused, or the append fails, or the new
text is appended and the offset moves to the end of the chunk. -/
theorem taskLogChunk_outcome :
    let p := taskLogChunk settings gzipSize nodeId payload now
    let existing := db.logs.get? (payload.taskId, payload.stream)
    let row' := (p.dbAfter db x).logs.get? (payload.taskId, payload.stream)
    let append := fun text => appendLogChunk settings.taskLogStreamMaxBytes payload.taskId
      payload.stream text x.files
    ((∀ ack, p.resultOf db x ≠ .ok ack) ∧ storedOffset row' = storedOffset existing ∧
        storedPreview row' = storedPreview existing ∧
        ((p.outsideAfter db x).files = x.files ∨
          ∃ text, (append text).1 ≠ .ok () ∧ (p.outsideAfter db x).files = (append text).2)) ∨
      ∃ text, acceptChunk existing payload = .ok text ∧ (append text).1 = .ok () ∧
        storedOffset row' =
          max (storedOffset existing) (payload.offsetStart + payload.text.length) ∧
        storedPreview row' = lastChars 4000 (storedPreview existing ++ text) ∧
        (p.outsideAfter db x).files = (append text).2 := by
  simp only [taskLogChunk, loadTaskForNode, Prog.resultOf, Prog.dbAfter, Prog.outsideAfter,
    Prog.atomic, Prog.query_bind, Prog.select_bind, Prog.exec_select]
  cases hrow : (db.tasks.get? payload.taskId).filter fun row => row.nodeId = nodeId with
  | none => exact Or.inl ⟨fun _ h => (by cases h), rfl, rfl, Or.inl rfl⟩
  | some row =>
      simp only [Prog.pure_eq, Prog.ret_bind, Prog.exec_select]
      cases hacc : acceptChunk (db.logs.get? (payload.taskId, payload.stream)) payload with
      | error e => exact Or.inl ⟨fun _ h => (by cases h), rfl, rfl, Or.inl rfl⟩
      | ok text =>
          simp only [ofExcept, Prog.ret_bind, storeChunk, storageUsage, Prog.io_bind,
            Prog.exec_io, id]
          split
          · obtain ⟨q, hq, hkeeps⟩ := markLogTruncated_row payload.taskId payload.stream
              (db.logs.get? (payload.taskId, payload.stream)) (utcNowIso now)
              "storage_quota_exceeded"
            obtain ⟨hoffset, hpreview, -⟩ := hkeeps db.logs rfl
            rw [hq]
            exact Or.inl ⟨fun _ h => (by cases h), hoffset, hpreview, Or.inl rfl⟩
          · simp only [appendToLog, Prog.io_bind, Prog.exec_io]
            cases happend : (appendLogChunk settings.taskLogStreamMaxBytes payload.taskId
                payload.stream text x.files).1 with
            | error e =>
                refine Or.inl ⟨fun _ h => (by cases h), rfl, rfl, Or.inr ⟨text, ?_, rfl⟩⟩
                rw [happend]
                intro hok
                cases hok
            | ok done =>
                have hrow : db.logs.get? (payload.taskId, payload.stream) = _ := rfl
                obtain ⟨hoffset, hpreview, -⟩ := storeOffset_row hrow text (utcNowIso now)
                exact Or.inr ⟨text, rfl, happend, hoffset, hpreview, rfl⟩

/-- What a request leaves alone: everything, or all but the log of its chunk.  Then the task is one
of the node, and if the row of the stream changes it names the live file or what it named before. -/
theorem taskLogChunk_frame :
    let p := taskLogChunk settings gzipSize nodeId payload now
    let key := (payload.taskId, payload.stream)
    (p.dbAfter db x = db ∧ (p.outsideAfter db x).files = x.files) ∨
      (∃ row, db.tasks.get? payload.taskId = some row ∧ row.nodeId = nodeId) ∧
        x.files.SameBut payload.taskId payload.stream (p.outsideAfter db x).files ∧
        (p.dbAfter db x = db ∨ ∃ q, p.dbAfter db x = Statement.apply (Dml.log q) db ∧
          (∀ key', key' ≠ key → (q.apply db.logs).get? key' = db.logs.get? key') ∧
          (storedPath ((q.apply db.logs).get? key) = storedPath (db.logs.get? key) ∨
            storedPath ((q.apply db.logs).get? key) =
              some (liveFile payload.taskId payload.stream))) := by
  simp only [taskLogChunk, loadTaskForNode, Prog.dbAfter, Prog.outsideAfter, Prog.atomic,
    Prog.query_bind, Prog.select_bind, Prog.exec_select]
  cases hrow : (db.tasks.get? payload.taskId).filter fun row => row.nodeId = nodeId with
  | none => exact Or.inl ⟨rfl, rfl⟩
  | some row =>
      have hfound : db.tasks.get? payload.taskId = some row ∧ row.nodeId = nodeId := by
        simpa using hrow
      simp only [Prog.pure_eq, Prog.ret_bind, Prog.exec_select]
      cases hacc : acceptChunk (db.logs.get? (payload.taskId, payload.stream)) payload with
      | error e => exact Or.inl ⟨rfl, rfl⟩
      | ok text =>
          refine Or.inr ⟨⟨row, hfound⟩, ?_⟩
          simp only [ofExcept, Prog.ret_bind, storeChunk, storageUsage, Prog.io_bind,
            Prog.exec_io, id]
          split
          · obtain ⟨q, hq, hkeeps⟩ := markLogTruncated_row payload.taskId payload.stream
              (db.logs.get? (payload.taskId, payload.stream)) (utcNowIso now)
              "storage_quota_exceeded"
            obtain ⟨-, -, hpath, hothers⟩ := hkeeps db.logs rfl
            rw [hq]
            exact ⟨.refl _, Or.inr ⟨q, rfl, hothers, Or.inl hpath⟩⟩
          · simp only [appendToLog, Prog.io_bind, Prog.exec_io]
            have hfiles : x.files.SameBut payload.taskId payload.stream
                (appendLogChunk settings.taskLogStreamMaxBytes payload.taskId payload.stream text
                  x.files).2 := appendLogChunk_sameBut text x.files
            cases (appendLogChunk settings.taskLogStreamMaxBytes payload.taskId payload.stream text
                x.files).1 with
            | error e => exact ⟨hfiles, Or.inl rfl⟩
            | ok done =>
                have hpath := (storeOffset_row (rfl : db.logs.get? (payload.taskId, payload.stream) = _)
                  text (utcNowIso now)).2.2
                exact ⟨hfiles, Or.inr ⟨_, rfl, fun key hne =>
                  storeOffset_other rfl hne text (utcNowIso now), Or.inr hpath⟩⟩

end Outcome

/-! ## Failing requests -/

/-- A request that fails: when it is handled and the number of the statement or commit that
fails. -/
structure FailingRequest where
  now : Nat
  statement : Nat

section Failures

variable (settings : Settings) (gzipSize : List Char → Nat) (nodeId : String)
  (payload : NodeTaskLogChunkRequest)

/-- The chunk, handled in such a request. -/
def failingChunk (r : FailingRequest) : Tx LogChunkAck :=
  (taskLogChunk settings gzipSize nodeId payload r.now).failAt .operational r.statement

/-- The request does reach the statement, and fails. -/
def Fails (r : FailingRequest) (db : Db) (x : World) : Prop :=
  (failingChunk settings gzipSize nodeId payload r).resultOf db x = .error .operational

/-- Every log file has the content it had before the request. -/
def KeepsLogs (r : FailingRequest) (db : Db) (x : World) : Prop :=
  ∀ f, ((failingChunk settings gzipSize nodeId payload r).outsideAfter db x).files.log? f =
    x.files.log? f

/-- The chunk has new text for the log of a task of the node, and the storage has room for it. -/
def Appends (db : Db) (x : World) : Prop :=
  (∃ row, db.tasks.get? payload.taskId = some row ∧ row.nodeId = nodeId) ∧
    ∃ text, acceptChunk (db.logs.get? (payload.taskId, payload.stream)) payload = .ok text ∧
      text ≠ [] ∧
      storageUsageBytes gzipSize x.files + utf8Length text ≤ settings.storageQuotaBytes

/-- The request fails before the append, or nothing is appended. -/
def Harmless (r : FailingRequest) (db : Db) (x : World) : Prop :=
  r.statement ≤ 1 ∨ ¬ Appends settings gzipSize nodeId payload db x

/-- `P` at each of the requests, made one after another. -/
def AtEach (P : FailingRequest → Db → World → Prop) : List FailingRequest → Db → World → Prop
  | [], _, _ => True
  | r :: later, db, x =>
      let p := failingChunk settings gzipSize nodeId payload r
      P r db x ∧ AtEach P later (p.dbAfter db x) (p.outsideAfter db x)

/-- The database and the outside state after the requests. -/
def afterRequests : List FailingRequest → Db → World → Db × World
  | [], db, x => (db, x)
  | r :: later, db, x =>
      let p := failingChunk settings gzipSize nodeId payload r
      afterRequests later (p.dbAfter db x) (p.outsideAfter db x)

/-- A success after the requests appends the new text of the chunk to the files of the start,
once. -/
def StoredOnce (requests : List FailingRequest) (db : Db) (x : World) : Prop :=
  ∀ now ack, let (db', x') := afterRequests settings gzipSize nodeId payload requests db x
    let p := taskLogChunk settings gzipSize nodeId payload now
    p.resultOf db' x' = .ok ack →
      ∃ text, acceptChunk (db.logs.get? (payload.taskId, payload.stream)) payload = .ok text ∧
        (p.outsideAfter db' x').files =
          (appendLogChunk settings.taskLogStreamMaxBytes payload.taskId payload.stream text
            x.files).2

variable {settings gzipSize nodeId payload} {r : FailingRequest} {db : Db} {x : World}

/-- A request that fails later than its second statement has found its task and accepted the
chunk. -/
theorem Fails.accepted (h : Fails settings gzipSize nodeId payload r db x)
    (hn : 2 ≤ r.statement) :
    (∃ row, db.tasks.get? payload.taskId = some row ∧ row.nodeId = nodeId) ∧
      ∃ text, acceptChunk (db.logs.get? (payload.taskId, payload.stream)) payload = .ok text := by
  obtain ⟨now, n⟩ := r
  obtain ⟨n, rfl⟩ := Nat.exists_eq_add_of_le' hn
  simp only [Fails, failingChunk, taskLogChunk, loadTaskForNode, Prog.resultOf, Prog.atomic,
    Prog.query_bind, Prog.select_bind, Prog.failAt, Prog.exec_select] at h
  cases hrow : (db.tasks.get? payload.taskId).filter fun row => row.nodeId = nodeId with
  | none =>
      rw [hrow] at h
      cases h
  | some row =>
      rw [hrow] at h
      simp only [Prog.pure_eq, Prog.ret_bind, Prog.failAt, Prog.exec_select] at h
      cases hacc : acceptChunk (db.logs.get? (payload.taskId, payload.stream)) payload with
      | error e =>
          obtain ⟨error, rfl⟩ := acceptChunk_error hacc
          rw [hacc] at h
          simp only [ofExcept, Prog.raise_bind, Prog.failAt] at h
          cases h
      | ok text => exact ⟨⟨row, by simpa using hrow⟩, text, rfl⟩

/-- With its task found and its chunk accepted, a request that fails later fails in the part that
stores the chunk. -/
theorem failingChunk_exec {row : Task} {text : List Char} {n now : Nat}
    (htask : db.tasks.get? payload.taskId = some row) (hnode : row.nodeId = nodeId)
    (htext : acceptChunk (db.logs.get? (payload.taskId, payload.stream)) payload = .ok text) :
    (failingChunk settings gzipSize nodeId payload ⟨now, n + 2⟩).exec db db x =
      ((storeChunk settings gzipSize payload (db.logs.get? (payload.taskId, payload.stream)) text
        (utcNowIso now)).failAt .operational n).exec db db x := by
  have hfilter : (db.tasks.get? payload.taskId).filter (fun row => row.nodeId = nodeId) =
      some row := by
    simp [htask, hnode]
  simp only [failingChunk, taskLogChunk, loadTaskForNode, Prog.query_bind, Prog.select_bind,
    Prog.failAt, Prog.exec_select, hfilter, Prog.pure_eq, Prog.ret_bind, htext, ofExcept]

/-- The files and the committed database after the part that stores the chunk has failed. -/
theorem storeChunk_fails {existing : Option TaskLog} {text : List Char} {nowIso : String} {n : Nat}
    {out : Prog.Out Db World Exc LogChunkAck}
    (hout : ((storeChunk settings gzipSize payload existing text nowIso).failAt .operational n).exec
      db db x = out) (hfails : out.result = .error .operational) :
    out.committed = db ∧
      if text ≠ [] ∧ storageUsageBytes gzipSize x.files + utf8Length text ≤
          settings.storageQuotaBytes then
        (appendLogChunk settings.taskLogStreamMaxBytes payload.taskId payload.stream text
            x.files).1 = .ok () ∧
          out.outside.files =
            (appendLogChunk settings.taskLogStreamMaxBytes payload.taskId payload.stream text
              x.files).2
      else out.outside.files = x.files := by
  have hbytes : utf8Length text ≠ 0 ↔ text ≠ [] := by
    constructor
    · rintro h rfl
      exact h rfl
    · exact fun h => Nat.ne_of_gt (utf8Length_pos h)
  simp only [storeChunk, storageUsage, Prog.io_bind, Prog.ret_bind, Prog.failAt, Prog.exec_io, id,
    hbytes] at hout
  by_cases hquota : text ≠ [] ∧
      settings.storageQuotaBytes < storageUsageBytes gzipSize x.files + utf8Length text
  · rw [if_neg (fun h => Nat.not_le_of_lt hquota.2 h.2)]
    rw [if_pos hquota] at hout
    obtain ⟨q, hq, -⟩ := markLogTruncated_row payload.taskId payload.stream existing nowIso
      "storage_quota_exceeded"
    rw [hq] at hout
    match n with
    | 0 =>
        subst hout
        exact ⟨rfl, rfl⟩
    | 1 =>
        subst hout
        exact ⟨rfl, rfl⟩
    | n + 2 =>
        simp only [Prog.execute_bind, emitEvent, Prog.effect_bind, reconnect, Prog.commit_bind,
          Prog.ret_bind, Prog.failAt] at hout
        subst hout
        cases hfails
  · rw [if_neg hquota] at hout
    have hroom : (text ≠ [] ∧ storageUsageBytes gzipSize x.files + utf8Length text ≤
        settings.storageQuotaBytes) ↔ text ≠ [] :=
      ⟨And.left, fun h => ⟨h, Nat.le_of_not_lt fun hlt => hquota ⟨h, hlt⟩⟩⟩
    simp only [hroom]
    simp only [appendToLog, Prog.io_bind, Prog.failAt, Prog.exec_io] at hout
    cases happend : (appendLogChunk settings.taskLogStreamMaxBytes payload.taskId payload.stream
        text x.files).1 with
    | error e =>
        rw [happend] at hout
        simp only [ofExcept, Prog.raise_bind, Prog.failAt, Prog.exec_raise] at hout
        subst hout
        cases hfails
        rcases appendLogChunk_error text x.files happend with h | h <;> cases h
    | ok done =>
        rw [happend] at hout
        have hfiles : out.committed = db ∧ out.outside.files =
            (appendLogChunk settings.taskLogStreamMaxBytes payload.taskId payload.stream text
              x.files).2 := by
          match n with
          | 0 =>
              subst hout
              exact ⟨rfl, rfl⟩
          | 1 =>
              subst hout
              exact ⟨rfl, rfl⟩
          | n + 2 =>
              subst hout
              cases hfails
        refine ⟨hfiles.1, ?_⟩
        split
        · exact ⟨rfl, hfiles.2⟩
        · rename_i htext
          rw [hfiles.2, not_not.mp htext]
          rfl

/-- A failing request commits nothing.  It leaves the files, or it has appended to them and
failed after that. -/
theorem Fails.effect (h : Fails settings gzipSize nodeId payload r db x) :
    (failingChunk settings gzipSize nodeId payload r).dbAfter db x = db ∧
      ((Harmless settings gzipSize nodeId payload r db x ∧
          ((failingChunk settings gzipSize nodeId payload r).outsideAfter db x).files = x.files) ∨
        (¬ Harmless settings gzipSize nodeId payload r db x ∧
          ∃ text, text ≠ [] ∧
            (appendLogChunk settings.taskLogStreamMaxBytes payload.taskId payload.stream text
              x.files).1 = .ok () ∧
            ((failingChunk settings gzipSize nodeId payload r).outsideAfter db x).files =
              (appendLogChunk settings.taskLogStreamMaxBytes payload.taskId payload.stream text
                x.files).2)) := by
  obtain ⟨now, n⟩ := r
  match n with
  | 0 => exact ⟨rfl, Or.inl ⟨Or.inl (Nat.zero_le 1), rfl⟩⟩
  | 1 =>
      simp only [failingChunk, taskLogChunk, loadTaskForNode, Prog.dbAfter, Prog.outsideAfter,
        Prog.atomic, Prog.query_bind, Prog.select_bind, Prog.failAt, Prog.exec_select]
      cases (db.tasks.get? payload.taskId).filter fun row => row.nodeId = nodeId with
      | none => exact ⟨rfl, Or.inl ⟨Or.inl (Nat.le_refl 1), rfl⟩⟩
      | some row => exact ⟨rfl, Or.inl ⟨Or.inl (Nat.le_refl 1), rfl⟩⟩
  | n + 2 =>
      obtain ⟨⟨row, htask, hnode⟩, text, htext⟩ := h.accepted (Nat.le_add_left 2 n)
      have hresult : ((failingChunk settings gzipSize nodeId payload ⟨now, n + 2⟩).exec db db
          x).result = .error .operational := (Prog.Out.close_result _).symm.trans h
      obtain ⟨hcommitted, hfiles⟩ := storeChunk_fails (failingChunk_exec htask hnode htext).symm
        hresult
      refine ⟨(Prog.Out.close_of_error hresult).trans hcommitted, ?_⟩
      rw [Prog.outsideAfter, Prog.atomic, Prog.Out.close_outside]
      have happends : Appends settings gzipSize nodeId payload db x ↔ text ≠ [] ∧
          storageUsageBytes gzipSize x.files + utf8Length text ≤ settings.storageQuotaBytes := by
        constructor
        · rintro ⟨-, text', htext', hroom⟩
          cases htext.symm.trans htext'
          exact hroom
        · exact fun hroom => ⟨⟨row, htask, hnode⟩, text, htext, hroom⟩
      have hharmless : Harmless settings gzipSize nodeId payload ⟨now, n + 2⟩ db x ↔
          ¬ (text ≠ [] ∧
            storageUsageBytes gzipSize x.files + utf8Length text ≤ settings.storageQuotaBytes) := by
        rw [← happends]
        exact or_iff_right (Nat.not_le_of_lt (Nat.le_add_left 2 n))
      rw [hharmless, not_not]
      split at hfiles
      · rename_i hroom
        exact Or.inr ⟨hroom, text, hroom.1, hfiles⟩
      · rename_i hroom
        exact Or.inl ⟨hroom, hfiles⟩

/-- A request that succeeds has appended the new text of its chunk. -/
theorem taskLogChunk_ok {now : Nat} {ack : LogChunkAck}
    (hok : (taskLogChunk settings gzipSize nodeId payload now).resultOf db x = .ok ack) :
    ∃ text, acceptChunk (db.logs.get? (payload.taskId, payload.stream)) payload = .ok text ∧
      ((taskLogChunk settings gzipSize nodeId payload now).outsideAfter db x).files =
        (appendLogChunk settings.taskLogStreamMaxBytes payload.taskId payload.stream text
          x.files).2 := by
  simp only [taskLogChunk, loadTaskForNode, Prog.resultOf, Prog.outsideAfter, Prog.atomic,
    Prog.query_bind, Prog.select_bind, Prog.exec_select, Prog.Out.close_result,
    Prog.Out.close_outside] at hok ⊢
  cases hrow : (db.tasks.get? payload.taskId).filter fun row => row.nodeId = nodeId with
  | none =>
      rw [hrow] at hok
      cases hok
  | some row =>
      simp only [hrow, Prog.pure_eq, Prog.ret_bind, Prog.exec_select] at hok ⊢
      cases hacc : acceptChunk (db.logs.get? (payload.taskId, payload.stream)) payload with
      | error e =>
          rw [hacc] at hok
          cases hok
      | ok text =>
          refine ⟨text, rfl, ?_⟩
          simp only [hacc, ofExcept, Prog.ret_bind, storeChunk, storageUsage, Prog.io_bind,
            Prog.exec_io, id] at hok ⊢
          split at hok
          · cases hrow : db.logs.get? (payload.taskId, payload.stream) with
            | none => rw [hrow] at hok; cases hok
            | some row => rw [hrow] at hok; cases hok
          · rename_i hroom
            rw [if_neg hroom]
            simp only [appendToLog, Prog.io_bind, Prog.exec_io] at hok ⊢
            cases happend : (appendLogChunk settings.taskLogStreamMaxBytes payload.taskId
                payload.stream text x.files).1 with
            | error e =>
                rw [happend] at hok
                cases hok
            | ok done => rfl

/-- Harmless failures keep the logs.  They commit nothing and leave the files. -/
theorem AtEach.harmless {requests : List FailingRequest}
    (hfails : AtEach settings gzipSize nodeId payload
      (Fails settings gzipSize nodeId payload) requests db x)
    (hharmless : AtEach settings gzipSize nodeId payload
      (Harmless settings gzipSize nodeId payload) requests db x) :
    AtEach settings gzipSize nodeId payload
        (KeepsLogs settings gzipSize nodeId payload) requests db x ∧
      (afterRequests settings gzipSize nodeId payload requests db x).1 = db ∧
      (afterRequests settings gzipSize nodeId payload requests db x).2.files = x.files := by
  induction requests generalizing x with
  | nil => exact ⟨trivial, rfl, rfl⟩
  | cons r later ih =>
      obtain ⟨hfail, hlater⟩ := hfails
      obtain ⟨hspared, hspares⟩ := hharmless
      obtain ⟨hdb, ⟨-, hfiles⟩ | ⟨hnot, -⟩⟩ := hfail.effect
      · rw [hdb] at hlater hspares
        obtain ⟨hkeeps, hsame, hafter⟩ := ih hlater hspares
        simp only [AtEach, afterRequests, hdb]
        exact ⟨⟨fun f => by rw [hfiles], hkeeps⟩, hsame, hafter.trans hfiles⟩
      · exact absurd hspared hnot

/-- Failures that keep the logs are harmless. -/
theorem AtEach.keepsLogs {requests : List FailingRequest}
    (hfails : AtEach settings gzipSize nodeId payload
      (Fails settings gzipSize nodeId payload) requests db x)
    (hkeeps : AtEach settings gzipSize nodeId payload
      (KeepsLogs settings gzipSize nodeId payload) requests db x) :
    AtEach settings gzipSize nodeId payload
      (Harmless settings gzipSize nodeId payload) requests db x := by
  induction requests generalizing x with
  | nil => trivial
  | cons r later ih =>
      obtain ⟨hfail, hlater⟩ := hfails
      obtain ⟨hkept, hkeeps⟩ := hkeeps
      obtain ⟨hdb, ⟨hharmless, -⟩ | ⟨-, text, hne, hok, hfiles⟩⟩ := hfail.effect
      · rw [hdb] at hlater hkeeps
        simp only [AtEach, hdb]
        exact ⟨hharmless, ih hlater hkeeps⟩
      · obtain ⟨slot, hchanged⟩ := appendLogChunk_changes text x.files hne hok
        exact absurd (hfiles ▸ hkept _) hchanged

end Failures

/-- Failures of a request, one after another, keep the logs, and a success after them stores its
text once, if and only if each comes before the append or nothing was to be appended. -/
theorem failed_chunks_iff (settings : Settings) (gzipSize : List Char → Nat) (nodeId : String)
    (payload : NodeTaskLogChunkRequest) (requests : List FailingRequest) (db : Db) (x : World)
    (hfails : AtEach settings gzipSize nodeId payload
      (Fails settings gzipSize nodeId payload) requests db x) :
    (AtEach settings gzipSize nodeId payload
          (KeepsLogs settings gzipSize nodeId payload) requests db x ∧
        StoredOnce settings gzipSize nodeId payload requests db x) ↔
      AtEach settings gzipSize nodeId payload
        (Harmless settings gzipSize nodeId payload) requests db x := by
  constructor
  · rintro ⟨hkeeps, -⟩
    exact hfails.keepsLogs hkeeps
  · intro hharmless
    obtain ⟨hkeeps, hdb, hfiles⟩ := hfails.harmless hharmless
    refine ⟨hkeeps, fun now ack => ?_⟩
    simp only
    intro hok
    obtain ⟨text, htext, hafter⟩ := taskLogChunk_ok hok
    rw [hdb] at htext
    rw [hfiles] at hafter
    exact ⟨text, htext, hafter⟩

/-- A database with one task, which its node has not claimed yet. -/
def oneTaskDb : Db :=
  (createTask { nodeId := "n", type := .healthCheck, taskId := some "t" }
    { admin := ⟨1, "admin"⟩, review := none, freshTaskId := "", freshKey := "", now := 0
      reviewedAt := 0 }).dbAfter oneNodeDb {}

/-- The first chunk of the task's output. -/
def firstChunk : NodeTaskLogChunkRequest where
  taskId := "t"
  stream := .stdout
  offsetStart := 0
  text := ['a', 'b']

/-- Two requests that fail while they read, and then a success. -/
theorem chunk_stored_by_retry :
    AtEach {} List.length "n" firstChunk (KeepsLogs {} List.length "n" firstChunk)
        [⟨0, 1⟩, ⟨1, 0⟩] oneTaskDb {} ∧
      StoredOnce {} List.length "n" firstChunk [⟨0, 1⟩, ⟨1, 0⟩] oneTaskDb {} :=
  (failed_chunks_iff {} List.length "n" firstChunk [⟨0, 1⟩, ⟨1, 0⟩] oneTaskDb {}
    ⟨rfl, rfl, trivial⟩).mpr ⟨Or.inl (Nat.le_refl 1), Or.inl (Nat.zero_le 1), trivial⟩

/-- The commit fails after the append: the file keeps the text, and the retry appends it again. -/
theorem chunk_stored_twice :
    ¬ ∀ (settings : Settings) (gzipSize : List Char → Nat) (nodeId : String)
        (payload : NodeTaskLogChunkRequest) (requests : List FailingRequest) (db : Db) (x : World),
      AtEach settings gzipSize nodeId payload
          (Fails settings gzipSize nodeId payload) requests db x →
        AtEach settings gzipSize nodeId payload
            (KeepsLogs settings gzipSize nodeId payload) requests db x ∧
          StoredOnce settings gzipSize nodeId payload requests db x := by
  intro h
  obtain ⟨⟨hkeeps, -⟩, -⟩ :=
    h {} List.length "n" firstChunk [⟨0, 3⟩] oneTaskDb {} ⟨rfl, trivial⟩
  have hkept : ((failingChunk {} List.length "n" firstChunk ⟨0, 3⟩).outsideAfter oneTaskDb
      {}).files.log? (liveFile "t" .stdout) = none := hkeeps _
  exact absurd hkept (by decide +kernel)

/-- What the retry leaves. -/
example :
    let x := (failingChunk {} List.length "n" firstChunk ⟨0, 3⟩).outsideAfter oneTaskDb {}
    ((taskLogChunk {} List.length "n" firstChunk 1).outsideAfter oneTaskDb x).files.log?
      (liveFile "t" .stdout) = some ['a', 'b', 'a', 'b'] := by
  decide +kernel

end GpuFleet
