import GpuFleet.Foundations.Base64
import GpuFleet.Server.LogStore
import GpuFleet.Server.System
import GpuFleet.Server.TaskLogs

/-!
# Artifacts

A node uploads a file of a task as base64 in one request.  `artifactUpload`
decodes it, writes it into the directory of the task, over what is there under
its name, and stores its row.  The sizes that are checked are those of the
request and of the file; the storage quota is not looked at.

The file is written between two connections, so a failure of the second leaves
it behind.

The size is estimated from the text before the text is decoded.  The estimate
counts the padding, so it is exact for a multiple of three bytes only, and a file
just below the limit may be refused (`refused_for_size_iff`).
-/

namespace GpuFleet

open Foundations

structure NodeArtifactUploadRequest where
  taskId : String
  artifactName : String
  artifactType : String
  contentBase64 : List Char
  contentType : Option String := none
  preview : Json := .obj []

/-- The answer to an upload. -/
structure ArtifactAck where
  taskId : String
  artifactName : String
  sizeBytes : Nat

/-! ## Checks -/

/-- The blanks `int` takes away at both ends of a header. -/
def isHeaderBlank (c : Char) : Bool :=
  (9 ≤ c.toNat && c.toNat ≤ 13) || (28 ≤ c.toNat && c.toNat ≤ 32) || c.toNat = 133 || c.toNat = 160

/-- The digits of a number, which single underscores may group, 4300 of them at most. -/
def digitsValue (text : List Char) : Option Nat :=
  let groups := splitOnChar '_' text
  let digits := groups.flatten
  if groups.any List.isEmpty || digits.any (fun c => !c.isDigit) || 4300 < digits.length then none
  else some (digits.foldl (fun n c => n * 10 + (c.toNat - 48)) 0)

/-- `int` of a header; `none` stands for a `ValueError`. -/
def headerInt (text : List Char) : Option Int :=
  match (text.dropWhile isHeaderBlank).rdropWhile isHeaderBlank with
  | '-' :: digits => (digitsValue digits).map fun n => -(n : Int)
  | '+' :: digits => (digitsValue digits).map fun n => (n : Int)
  | digits => (digitsValue digits).map fun n => (n : Int)

/-- An error for a request or a file that is too large. -/
def payloadTooLarge (settings : Settings) (message : String) (measured : String × Json) : Exc :=
  .api
    { code := "ERR_PAYLOAD_TOO_LARGE"
      message
      statusCode := 413
      details := [("limit_bytes", .num settings.maxArtifactBytes), measured] }

/-- The check of the `Content-Length` header, before authentication. -/
def checkContentLength (settings : Settings) (contentLength : Option String) : Except Exc Unit :=
  match contentLength with
  | none => .ok ()
  | some text =>
      match headerInt text.toList with
      | none =>
          .error (.api
            { code := "ERR_ARTIFACT_INVALID_CONTENT_LENGTH"
              message := "Invalid Content-Length header"
              statusCode := 400
              details := [("content_length", .str text)] })
      | some requestSize =>
          let maxEncodedBytes := settings.maxArtifactBytes * 4 / 3 + 4096
          if (maxEncodedBytes : Int) < requestSize then
            .error (payloadTooLarge settings
              s!"Artifact request exceeds size limit ({settings.maxArtifactBytes} bytes decoded)"
              ("request_size_bytes", .num requestSize))
          else .ok ()

/-- The bytes of the file, unless there are too many or the text is not base64. -/
def decodeArtifact (settings : Settings) (payload : NodeArtifactUploadRequest) :
    Except Exc (List Nat) :=
  let tooLarge := payloadTooLarge settings
    s!"Artifact exceeds size limit ({settings.maxArtifactBytes} bytes)"
  let estimatedDecodedSize := payload.contentBase64.length * 3 / 4
  if settings.maxArtifactBytes < estimatedDecodedSize then
    .error (tooLarge ("estimated_size_bytes", .num estimatedDecodedSize))
  else
    match Base64.decode payload.contentBase64 with
    | none =>
        .error (.api
          { code := "ERR_ARTIFACT_INVALID_BASE64"
            message := "Invalid base64 artifact content"
            statusCode := 400
            details := [("task_id", .str payload.taskId),
              ("artifact_name", .str payload.artifactName)] })
    | some content =>
        if settings.maxArtifactBytes < content.length then
          .error (tooLarge ("size_bytes", .num content.length))
        else .ok content

/-- The parts of a path between slashes, without its root. -/
def pathTail (raw : String) : List (List Char) :=
  (splitOnChar '/' raw.toList).filter fun w => w ≠ [] ∧ w ≠ ['.']

/-- `PurePath(raw).name`: the last part, if there is one. -/
def pathName (raw : String) : String :=
  match (pathTail raw).getLast? with
  | none => ""
  | some part => String.ofList part

/-- `sanitize_artifact_name` -/
def sanitizeArtifactName (name : String) : Except Exc String :=
  let sanitized := pathName name
  if sanitized = "" ∨ sanitized = "." ∨ sanitized = ".." ∨ sanitized ≠ name then
    .error (.api
      { code := "ERR_ARTIFACT_INVALID_NAME"
        message := "Invalid artifact_name"
        statusCode := 400
        details := [("artifact_name", .str name)] })
  else .ok sanitized

theorem sanitizeArtifactName_ok {name sanitized : String}
    (h : sanitizeArtifactName name = .ok sanitized) : sanitized = name := by
  simp only [sanitizeArtifactName] at h
  split at h
  · cases h
  · rename_i hname
    cases h
    simp only [not_or, not_not] at hname
    exact hname.2.2.2

/-! ## The upload -/

/-- The file of an upload. -/
def NodeArtifactUploadRequest.file (payload : NodeArtifactUploadRequest) : ArtifactFile :=
  ⟨payload.taskId, payload.artifactName⟩

/-- Write an artifact. -/
def Files.writeArtifact (files : Files) (f : ArtifactFile) (content : List Nat) : Files :=
  { files with artifacts := files.artifacts.insert f content }

/-- The statement that stores the row of an upload. -/
def storeArtifact (existing : Option Artifact) (payload : NodeArtifactUploadRequest)
    (artifactName : String) (sizeBytes : Nat) (nowIso : String) : ArtifactStmt :=
  match existing with
  | none =>
      .insert
        { id := 0
          taskId := payload.taskId
          artifactName
          artifactType := payload.artifactType
          contentType := payload.contentType
          sizeBytes
          storagePath := ⟨payload.taskId, artifactName⟩
          preview := payload.preview
          createdAt := nowIso }
  | some row =>
      .replace row.id payload.artifactType payload.contentType sizeBytes
        ⟨payload.taskId, artifactName⟩ payload.preview

/-- `artifact_upload` after authentication. -/
def artifactUpload (settings : Settings) (nodeId : String) (payload : NodeArtifactUploadRequest)
    (now : Nat) : Tx ArtifactAck := do
  let _ ← loadTaskForNode nodeId payload.taskId
  reconnect
  let content ← ofExcept (decodeArtifact settings payload)
  let artifactName ← ofExcept (sanitizeArtifactName payload.artifactName)
  Prog.effect fun w =>
    { w with files := w.files.writeArtifact ⟨payload.taskId, artifactName⟩ content }
  let existing ← Prog.query fun db => (db.artifacts.select fun row =>
    row.taskId = payload.taskId && row.artifactName = artifactName).head?
  Prog.execute (.artifact
    (storeArtifact existing payload artifactName content.length (utcNowIso now)))
  pure { taskId := payload.taskId, artifactName, sizeBytes := content.length }

section Outcome

variable (settings : Settings) (nodeId : String) (payload : NodeArtifactUploadRequest) (now : Nat)
  (db : Db) (x : World)

/-- What an upload does: it is refused and changes nothing, or it writes its file and executes a
statement on `artifacts`. -/
theorem artifactUpload_outcome :
    let p := artifactUpload settings nodeId payload now
    ((∀ ack, p.resultOf db x ≠ .ok ack) ∧ p.dbAfter db x = db ∧ p.outsideAfter db x = x) ∨
      ∃ content ack existing, decodeArtifact settings payload = .ok content ∧
        (∃ row, db.tasks.get? payload.taskId = some row ∧ row.nodeId = nodeId) ∧
        sanitizeArtifactName payload.artifactName = .ok payload.artifactName ∧
        p.resultOf db x = .ok ack ∧
        p.dbAfter db x = Statement.apply (Dml.artifact (storeArtifact existing payload
          payload.artifactName content.length (utcNowIso now))) db ∧
        (existing = (db.artifacts.select fun row =>
          row.taskId = payload.taskId && row.artifactName = payload.artifactName).head?) ∧
        p.outsideAfter db x = { x with files := x.files.writeArtifact payload.file content } := by
  simp only [artifactUpload, loadTaskForNode, Prog.resultOf, Prog.dbAfter, Prog.outsideAfter,
    Prog.atomic, Prog.query_bind, Prog.select_bind, Prog.exec_select]
  cases hrow : (db.tasks.get? payload.taskId).filter fun row => row.nodeId = nodeId with
  | none => exact Or.inl ⟨fun _ h => (by cases h), rfl, rfl⟩
  | some row =>
      obtain ⟨htask, hnode⟩ := Option.filter_eq_some_iff.mp hrow
      simp only [Prog.pure_eq, Prog.ret_bind, reconnect, Prog.commit_bind, Prog.exec_commit]
      cases hcontent : decodeArtifact settings payload with
      | error e => exact Or.inl ⟨fun _ h => (by cases h), rfl, rfl⟩
      | ok content =>
          simp only [ofExcept, Prog.ret_bind]
          cases hname : sanitizeArtifactName payload.artifactName with
          | error e => exact Or.inl ⟨fun _ h => (by cases h), rfl, rfl⟩
          | ok name =>
              have hsame := sanitizeArtifactName_ok hname
              subst hsame
              exact Or.inr ⟨content, _, _, rfl, ⟨row, htask, of_decide_eq_true hnode⟩, rfl, rfl, rfl,
                rfl, rfl⟩

end Outcome

/-! ## The size of a file -/

/-- `artifact_upload` of an authenticated node, with the header it checks first. -/
def artifactUploadCall (settings : Settings) (contentLength : Option String) (nodeId : String)
    (payload : NodeArtifactUploadRequest) (now : Nat) : Tx ArtifactAck := do
  let _ ← ofExcept (checkContentLength settings contentLength)
  artifactUpload settings nodeId payload now

/-- The answer refuses a request for its size. -/
def refusedForSize {α : Type} : Except Exc α → Bool
  | .error (.api e) => e.code = "ERR_PAYLOAD_TOO_LARGE" && e.statusCode = 413
  | _ => false

theorem refusedForSize_error {α β : Type} (e : Exc) :
    refusedForSize (.error e : Except Exc α) = refusedForSize (.error e : Except Exc β) := by
  cases e <;> rfl

section Size

variable {settings : Settings} {contentLength : Option String} {nodeId : String}
  {payload : NodeArtifactUploadRequest} {db : Db} {content : List Nat}

/-- The estimate decides: it rounds the size up to a multiple of three. -/
theorem decodeArtifact_encode (hbytes : ∀ b ∈ content, b < 256)
    (hcontent : payload.contentBase64 = Base64.encode content) :
    (settings.maxArtifactBytes < 3 * ((content.length + 2) / 3) ∧
        refusedForSize (decodeArtifact settings payload) = true) ∨
      (3 * ((content.length + 2) / 3) ≤ settings.maxArtifactBytes ∧
        decodeArtifact settings payload = .ok content) := by
  have hestimate : payload.contentBase64.length * 3 / 4 = 3 * ((content.length + 2) / 3) := by
    rw [hcontent, Base64.length_encode]
    omega
  have hdecoded : Base64.decode payload.contentBase64 = some content := by
    rw [hcontent, Base64.decode_encode hbytes]
  unfold decodeArtifact
  simp only [hestimate, hdecoded]
  split
  · rename_i hlt
    exact Or.inl ⟨hlt, rfl⟩
  · rename_i hge
    rw [if_neg (by omega)]
    exact Or.inr ⟨Nat.le_of_not_lt hge, rfl⟩

/-- A name that is refused is not refused for the size. -/
theorem refusedForSize_sanitizeArtifactName (name : String) :
    refusedForSize (sanitizeArtifactName name) = false := by
  simp only [sanitizeArtifactName]
  split <;> rfl

/-- The upload of a task's node is refused for its size where the estimate is above the limit. -/
theorem refusedForSize_artifactUploadCall (hbytes : ∀ b ∈ content, b < 256)
    (hcontent : payload.contentBase64 = Base64.encode content)
    (hlength : checkContentLength settings contentLength = .ok ())
    (htask : ∃ row, db.tasks.get? payload.taskId = some row ∧ row.nodeId = nodeId) (now : Nat)
    (x : World) :
    refusedForSize ((artifactUploadCall settings contentLength nodeId payload now).resultOf db x) =
      decide (settings.maxArtifactBytes < 3 * ((content.length + 2) / 3)) := by
  obtain ⟨row, hrow, hnode⟩ := htask
  have hfound : (db.tasks.get? payload.taskId).filter (fun row => row.nodeId = nodeId) = some row := by
    rw [hrow, Option.filter_some, if_pos (decide_eq_true hnode)]
  simp only [artifactUploadCall, hlength, ofExcept, Prog.ret_bind, artifactUpload, loadTaskForNode,
    Prog.resultOf, Prog.atomic, Prog.query_bind, Prog.select_bind, Prog.exec_select, hfound,
    Prog.pure_eq, reconnect, Prog.commit_bind, Prog.exec_commit]
  have hdecoded := @decodeArtifact_encode settings payload content hbytes hcontent
  rcases hdecoded with
    ⟨habove, hrefused⟩ | ⟨hbelow, haccepted⟩
  · rw [decide_eq_true habove]
    cases hresult : decodeArtifact settings payload with
    | error e =>
        rw [hresult] at hrefused
        exact (refusedForSize_error e).trans hrefused
    | ok content =>
        rw [hresult] at hrefused
        cases hrefused
  · rw [decide_eq_false (Nat.not_lt_of_le hbelow), haccepted]
    have hname := refusedForSize_sanitizeArtifactName payload.artifactName
    cases hresult : sanitizeArtifactName payload.artifactName with
    | error e =>
        rw [hresult] at hname
        exact (refusedForSize_error e).trans hname
    | ok name => rfl

/-- An upload that passes the header check is refused for its size exactly when it is larger than
the limit, if and only if it is, or rounded up to a multiple of three it still is not. -/
theorem refused_for_size_iff (hbytes : ∀ b ∈ content, b < 256)
    (hcontent : payload.contentBase64 = Base64.encode content)
    (hlength : checkContentLength settings contentLength = .ok ())
    (htask : ∃ row, db.tasks.get? payload.taskId = some row ∧ row.nodeId = nodeId) (now : Nat)
    (x : World) :
    (refusedForSize
          ((artifactUploadCall settings contentLength nodeId payload now).resultOf db x) = true ↔
        settings.maxArtifactBytes < content.length) ↔
      (settings.maxArtifactBytes < content.length ∨
        3 * ((content.length + 2) / 3) ≤ settings.maxArtifactBytes) := by
  rw [refusedForSize_artifactUploadCall hbytes hcontent hlength htask now x, decide_eq_true_eq]
  omega

end Size

/-- An upload of the bytes to the task of `oneTaskDb`. -/
def uploadOf (content : List Nat) : NodeArtifactUploadRequest where
  taskId := "t"
  artifactName := "a"
  artifactType := "file"
  contentBase64 := Base64.encode content

theorem oneTaskDb_task : ∃ row, oneTaskDb.tasks.get? "t" = some row ∧ row.nodeId = "n" :=
  ⟨_, rfl, rfl⟩

/-- A limit that is a multiple of three is exact. -/
theorem refused_for_size_three :
    refusedForSize ((artifactUploadCall { maxArtifactBytes := 3 } (some "4") "n" (uploadOf [0, 0]) 0
          ).resultOf oneTaskDb {}) = true ↔ 3 < [0, 0].length :=
  (refused_for_size_iff (by decide) rfl (by rfl) oneTaskDb_task 0 {}).mpr (Or.inr (by decide))

/-- One byte is refused where one byte is allowed. -/
theorem one_byte_refused :
    ¬ ∀ (settings : Settings) (contentLength : Option String) (nodeId : String)
        (payload : NodeArtifactUploadRequest) (db : Db) (content : List Nat),
      (∀ b ∈ content, b < 256) → payload.contentBase64 = Base64.encode content →
      checkContentLength settings contentLength = .ok () →
      (∃ row, db.tasks.get? payload.taskId = some row ∧ row.nodeId = nodeId) →
      ∀ (now : Nat) (x : World),
        (refusedForSize
            ((artifactUploadCall settings contentLength nodeId payload now).resultOf db x) = true ↔
          settings.maxArtifactBytes < content.length) := by
  intro h
  have hrefused := @refusedForSize_artifactUploadCall { maxArtifactBytes := 1 } (some "4") "n"
    (uploadOf [0]) oneTaskDb [0] (by decide) rfl (by rfl) oneTaskDb_task 0 {}
  have hone := (h { maxArtifactBytes := 1 } (some "4") "n" (uploadOf [0]) oneTaskDb [0] (by decide)
    rfl (by rfl) oneTaskDb_task 0 {}).mp (hrefused.trans (by decide))
  exact absurd hone (by decide)

end GpuFleet
