import GpuFleet.Server.Artifacts
import GpuFleet.Server.TaskLogs
import Mathlib.Algebra.GroupWithZero.Nat
import Mathlib.Data.List.AList

/-!
# The storage quota

Log chunks and artifacts fill the storage directory.  A log chunk is refused
when it would take the usage beyond the quota, and rotation never adds to the
usage as long as compression does not.  An upload is not compared with the
quota.  So the usage stays within the quota if and only if every upload that is
accepted fits into what is free, counting the file it replaces
(`quota_kept_iff`).

Files are counted by task id.  For ids that leave the storage directory, or
that share a path, the usage on disk can be smaller than the one counted here:
then an upload that does not fit need not exceed the quota.
-/

/-! ## The volume of a store -/

namespace Foundations

namespace Volume

variable {α : Type} [DecidableEq α] {β : α → Type} (size : ∀ a, β a → Nat)

/-- The sum of the sizes of some entries. -/
def ofEntries (l : List (Sigma β)) : Nat := (l.map fun e => size e.1 e.2).sum

/-- The volume of a store. -/
def volume (s : AList β) : Nat := ofEntries size s.entries

/-- The size under a key, 0 where there is nothing. -/
def sizeAt (s : AList β) (a : α) : Nat := (s.lookup a).elim 0 (size a)

theorem sizeAt_of_lookup {s : AList β} {a : α} {b : β a} (h : s.lookup a = some b) :
    sizeAt size s a = size a b := by
  simp [sizeAt, h]

theorem sizeAt_of_none {s : AList β} {a : α} (h : s.lookup a = none) : sizeAt size s a = 0 := by
  simp [sizeAt, h]

theorem ofEntries_kerase (l : List (Sigma β)) (a : α) :
    ofEntries size (l.kerase a) + (l.dlookup a).elim 0 (size a) = ofEntries size l := by
  induction l with
  | nil => rfl
  | cons e l ih =>
      obtain ⟨a', b⟩ := e
      by_cases h : a = a'
      · subst h
        simp [ofEntries, Nat.add_comm]
      · rw [List.kerase_cons_ne (by simpa using h), List.dlookup_cons_ne _ _ h]
        simp only [ofEntries, List.map_cons, List.sum_cons] at ih ⊢
        rw [Nat.add_assoc, ih]

/-- Removing a key takes its size away. -/
theorem volume_erase (s : AList β) (a : α) :
    volume size (s.erase a) + sizeAt size s a = volume size s :=
  ofEntries_kerase size s.entries a

/-- Writing under a key puts the new size in the place of the old one. -/
theorem volume_insert (s : AList β) (a : α) (b : β a) :
    volume size (s.insert a b) + sizeAt size s a = volume size s + size a b := by
  have herase := volume_erase size s a
  have hinsert : volume size (s.insert a b) = size a b + volume size (s.erase a) := by
    have hentries : (s.erase a).entries = s.entries.kerase a := rfl
    simp [volume, ofEntries, AList.entries_insert, hentries]
  omega

end Volume

end Foundations

namespace GpuFleet

open Foundations Volume

/-! ## The usage -/

/-- The size of a log file on disk. -/
def logSize (gzipSize : List Char → Nat) (f : LogFile) (text : List Char) : Nat :=
  match f.slot with
  | .live => utf8Length text
  | .archive _ => gzipSize text

/-- The size of an artifact. -/
def artifactSize (_ : ArtifactFile) (content : List Nat) : Nat := content.length

section Usage

variable {gzipSize : List Char → Nat} {files files' : Files} {maxStreamBytes : Nat}
  {taskId : String} {stream : Stream}

theorem storageUsageBytes_eq (gzipSize : List Char → Nat) (files : Files) :
    storageUsageBytes gzipSize files =
      volume (logSize gzipSize) files.logs + volume artifactSize files.artifacts +
        files.otherBytes := rfl

/-- A log file that is written takes the place of what was there. -/
theorem usage_write (gzipSize : List Char → Nat) (files : Files) (f : LogFile) (text : List Char) :
    storageUsageBytes gzipSize (files.write f text) + sizeAt (logSize gzipSize) files.logs f =
      storageUsageBytes gzipSize files + logSize gzipSize f text := by
  have hinsert := volume_insert (logSize gzipSize) files.logs f text
  simp only [storageUsageBytes_eq, Files.write]
  omega

/-- An artifact that is written takes the place of what was there. -/
theorem usage_writeArtifact (gzipSize : List Char → Nat) (files : Files) (f : ArtifactFile)
    (content : List Nat) :
    storageUsageBytes gzipSize (files.writeArtifact f content) +
        sizeAt artifactSize files.artifacts f =
      storageUsageBytes gzipSize files + content.length := by
  have hinsert := volume_insert artifactSize files.artifacts f content
  have hsize : artifactSize f content = content.length := rfl
  simp only [storageUsageBytes_eq, Files.writeArtifact]
  omega

/-- What is appended to the live file is added to the usage. -/
theorem usage_append (gzipSize : List Char → Nat) (files : Files) (taskId : String)
    (stream : Stream) (chunk : List Char) :
    storageUsageBytes gzipSize (files.write (liveFile taskId stream)
        ((files.log? (liveFile taskId stream)).getD [] ++ chunk)) =
      storageUsageBytes gzipSize files + utf8Length chunk := by
  have hwrite := usage_write gzipSize files (liveFile taskId stream)
    ((files.log? (liveFile taskId stream)).getD [] ++ chunk)
  have hnew : logSize gzipSize (liveFile taskId stream)
      ((files.log? (liveFile taskId stream)).getD [] ++ chunk) =
      utf8Length ((files.log? (liveFile taskId stream)).getD []) + utf8Length chunk :=
    utf8Length_append ..
  have hold : sizeAt (logSize gzipSize) files.logs (liveFile taskId stream) =
      utf8Length ((files.log? (liveFile taskId stream)).getD []) := by
    rw [Files.log?]
    cases hlook : files.logs.lookup (liveFile taskId stream) with
    | none => rw [sizeAt_of_none _ hlook]; rfl
    | some text => rw [sizeAt_of_lookup _ hlook]; rfl
  omega

section Gzip

variable (hgzip : ∀ text, gzipSize text ≤ utf8Length text)
include hgzip

theorem usage_rotateLogStream (h : rotateLogStream taskId stream files = some files') :
    storageUsageBytes gzipSize files' ≤ storageUsageBytes gzipSize files := by
  unfold rotateLogStream at h
  split at h
  · cases h
    exact Nat.le_refl _
  · rename_i text hlive
    split at h
    · cases h
      exact Nat.le_refl _
    · obtain ⟨index, hindex, rfl⟩ := Option.map_eq_some_iff.mp h
      have hfree : files.logs.lookup (archiveFile taskId stream index) = none :=
        firstFree_none hindex
      have harchive := usage_write gzipSize files (archiveFile taskId stream index) text
      have hempty := usage_write gzipSize (files.write (archiveFile taskId stream index) text)
        (liveFile taskId stream) []
      have hkept : (files.write (archiveFile taskId stream index) text).logs.lookup
          (liveFile taskId stream) = some text := by
        have hne : liveFile taskId stream ≠ archiveFile taskId stream index := by
          simp [liveFile, archiveFile]
        exact (Files.log?_write_of_ne text hne).trans hlive
      rw [sizeAt_of_none _ hfree] at harchive
      rw [sizeAt_of_lookup _ hkept] at hempty
      have hnew : logSize gzipSize (archiveFile taskId stream index) text = gzipSize text := rfl
      have hold : logSize gzipSize (liveFile taskId stream) text = utf8Length text := rfl
      have hnil : logSize gzipSize (liveFile taskId stream) [] = 0 := rfl
      have hsmall := hgzip text
      omega

theorem usage_rotateFull (h : rotateFull maxStreamBytes taskId stream files = some files') :
    storageUsageBytes gzipSize files' ≤ storageUsageBytes gzipSize files := by
  unfold rotateFull at h
  split at h
  · exact usage_rotateLogStream hgzip h
  · cases h
    exact Nat.le_refl _

/-- A round adds at most what it takes from the text. -/
theorem usage_appendRound (maxStreamBytes : Nat) (taskId : String) (stream : Stream)
    (text : List Char) (files : Files) :
    let out := appendRound maxStreamBytes taskId stream text files
    storageUsageBytes gzipSize out.2 ≤ storageUsageBytes gzipSize files + utf8Length text ∧
      ∀ rest, out.1 = .ok rest →
        storageUsageBytes gzipSize out.2 + utf8Length rest ≤
          storageUsageBytes gzipSize files + utf8Length text := by
  simp only [appendRound]
  cases hfirst : rotateFull maxStreamBytes taskId stream files with
  | none =>
      refine ⟨Nat.le_add_right _ _, fun rest hrest => ?_⟩
      cases hrest
  | some files₁ =>
      have husage₁ := usage_rotateFull hgzip hfirst
      have hcut := takeTextPrefixByBytes_append text
        (maxStreamBytes - files₁.size (liveFile taskId stream))
      simp only
      generalize takeTextPrefixByBytes text
        (maxStreamBytes - files₁.size (liveFile taskId stream)) = cut at hcut
      obtain ⟨chunk, rest⟩ := cut
      have hlength : utf8Length chunk + utf8Length rest = utf8Length text := by
        rw [← hcut, utf8Length_append]
      simp only
      by_cases hnil : chunk = []
      · rw [if_pos hnil]
        cases hrotate : rotateLogStream taskId stream files₁ with
        | none =>
            refine ⟨by simp only; omega, fun rest hrest => ?_⟩
            cases hrest
        | some files₂ =>
            have husage₂ := usage_rotateLogStream hgzip hrotate
            refine ⟨by simp only; omega, ?_⟩
            rintro _ ⟨⟩
            simp only
            omega
      · rw [if_neg hnil]
        have happend := usage_append gzipSize files₁ taskId stream chunk
        cases hlast : rotateFull maxStreamBytes taskId stream
            (files₁.write (liveFile taskId stream)
              ((files₁.log? (liveFile taskId stream)).getD [] ++ chunk)) with
        | none =>
            refine ⟨by simp only; omega, fun rest hrest => ?_⟩
            cases hrest
        | some files₂ =>
            have husage₂ := usage_rotateFull hgzip hlast
            refine ⟨by simp only; omega, ?_⟩
            rintro _ ⟨⟩
            simp only
            omega

/-- An append adds the bytes of its text at most. -/
theorem usage_appendLogChunk (maxStreamBytes : Nat) (taskId : String) (stream : Stream)
    (text : List Char) (files : Files) :
    storageUsageBytes gzipSize (appendLogChunk maxStreamBytes taskId stream text files).2 ≤
      storageUsageBytes gzipSize files + utf8Length text := by
  have hloop : ∀ fuel text files,
      storageUsageBytes gzipSize (appendLoop maxStreamBytes taskId stream fuel text files).2 ≤
        storageUsageBytes gzipSize files + utf8Length text := by
    intro fuel
    induction fuel with
    | zero =>
        intro text files
        rw [appendLoop]
        split <;> exact Nat.le_add_right _ _
    | succ fuel ih =>
        intro text files
        rw [appendLoop]
        split
        · exact Nat.le_add_right _ _
        · obtain ⟨hall, hrest⟩ := usage_appendRound hgzip maxStreamBytes taskId stream text files
          generalize appendRound maxStreamBytes taskId stream text files = out at hall hrest
          obtain ⟨result, files₁⟩ := out
          cases result with
          | error e => exact hall
          | ok rest => exact (ih rest files₁).trans (hrest rest rfl)
  exact hloop _ _ _

end Gzip

end Usage

/-! ## Requests -/

/-- A request of a node that adds to the storage directory. -/
inductive StorageRequest where
  | logChunk (nodeId : String) (payload : NodeTaskLogChunkRequest) (now : Nat)
  | artifact (nodeId : String) (contentLength : Option String)
      (payload : NodeArtifactUploadRequest) (now : Nat)

section Runs

variable (settings : Settings) (gzipSize : List Char → Nat)

/-- The program of a request. -/
def StorageRequest.code : StorageRequest → Tx Unit
  | logChunk nodeId payload now =>
      asNode nodeId fun _ => taskLogChunk settings gzipSize nodeId payload now >>= fun _ => pure ()
  | artifact nodeId contentLength payload now => do
      let _ ← ofExcept (checkContentLength settings contentLength)
      asNode nodeId fun _ => artifactUpload settings nodeId payload now >>= fun _ => pure ()

/-- One request of a run: what it finds, its answer and the storage directory it leaves. -/
structure StorageStep where
  db : Db
  found : Files
  request : StorageRequest
  reply : Except Exc Unit
  left : Files

/-- The step a request takes alone. -/
def StorageRequest.step (request : StorageRequest) (db : Db) (x : World) : StorageStep :=
  let p := request.code settings gzipSize
  ⟨db, x.files, request, p.resultOf db x, (p.outsideAfter db x).files⟩

/-- The steps of a run of requests. -/
def storageSteps (db : Db) (x : World) : List StorageRequest → List StorageStep
  | [] => []
  | request :: requests =>
      let p := request.code settings gzipSize
      request.step settings gzipSize db x ::
        storageSteps (p.dbAfter db x) (p.outsideAfter db x) requests

/-- The usage is within the quota. -/
def WithinQuota (files : Files) : Prop :=
  storageUsageBytes gzipSize files ≤ settings.storageQuotaBytes

instance (files : Files) : Decidable (WithinQuota settings gzipSize files) :=
  inferInstanceAs (Decidable (_ ≤ _))

/-- The file of an upload fits into what is free, counting the file it replaces. -/
def StorageStep.Fits (s : StorageStep) : Prop :=
  match s.request with
  | .logChunk .. => True
  | .artifact _ _ payload _ => ∀ content ∈ (decodeArtifact settings payload).toOption,
      storageUsageBytes gzipSize s.found + content.length ≤
        settings.storageQuotaBytes + sizeAt artifactSize s.found.artifacts payload.file

instance : (s : StorageStep) → Decidable (s.Fits settings gzipSize)
  | ⟨_, _, .logChunk .., _, _⟩ => isTrue trivial
  | ⟨_, found, .artifact _ _ payload _, _, _⟩ =>
      inferInstanceAs (Decidable (∀ content ∈ (decodeArtifact settings payload).toOption,
        storageUsageBytes gzipSize found + content.length ≤
          settings.storageQuotaBytes + sizeAt artifactSize found.artifacts payload.file))

variable {settings gzipSize}

/-- Every step of a run is the step of a request. -/
theorem StorageStep.of_mem {db : Db} {x : World} {requests : List StorageRequest} {s : StorageStep}
    (hs : s ∈ storageSteps settings gzipSize db x requests) :
    ∃ (request : StorageRequest) (db : Db) (x : World), s = request.step settings gzipSize db x := by
  induction requests generalizing db x with
  | nil => simp [storageSteps] at hs
  | cons request requests ih =>
      rcases List.mem_cons.mp hs with rfl | hs
      · exact ⟨request, db, x, rfl⟩
      · exact ih hs

/-- A request of a node does nothing or what its body does. -/
theorem asNode_cases {α : Type} (nodeId : String) (body : Node → Tx α) (db : Db) (x : World) :
    ((∃ e, (asNode nodeId body).resultOf db x = .error e) ∧
        (asNode nodeId body).dbAfter db x = db ∧ (asNode nodeId body).outsideAfter db x = x) ∨
      ∃ node, (asNode nodeId body).resultOf db x = (body node).resultOf db x ∧
        (asNode nodeId body).dbAfter db x = (body node).dbAfter db x ∧
        (asNode nodeId body).outsideAfter db x = (body node).outsideAfter db x := by
  simp only [asNode, Prog.resultOf, Prog.dbAfter, Prog.outsideAfter, Prog.atomic,
    Prog.query_bind, Prog.exec_select]
  cases (db.nodes.get? nodeId).filter Node.isEnabled with
  | none => exact Or.inl ⟨⟨_, rfl⟩, rfl, rfl⟩
  | some node => exact Or.inr ⟨node, rfl, rfl, rfl⟩

variable (settings gzipSize) in
/-- What a log chunk leaves in the storage directory: what was there, or with a text appended for
which there is room. -/
theorem taskLogChunk_files (nodeId : String) (payload : NodeTaskLogChunkRequest) (now : Nat)
    (db : Db) (x : World) :
    let files := ((taskLogChunk settings gzipSize nodeId payload now).outsideAfter db x).files
    files = x.files ∨ ∃ text, (text = [] ∨
        storageUsageBytes gzipSize x.files + utf8Length text ≤ settings.storageQuotaBytes) ∧
      files = (appendLogChunk settings.taskLogStreamMaxBytes payload.taskId payload.stream text
        x.files).2 := by
  simp only [taskLogChunk, loadTaskForNode, Prog.outsideAfter, Prog.atomic, Prog.query_bind,
    Prog.select_bind, Prog.exec_select]
  cases (db.tasks.get? payload.taskId).filter fun row => row.nodeId = nodeId with
  | none => exact Or.inl rfl
  | some row =>
      simp only [Prog.pure_eq, Prog.ret_bind, Prog.exec_select]
      cases acceptChunk (db.logs.get? (payload.taskId, payload.stream)) payload with
      | error e => exact Or.inl rfl
      | ok text =>
          simp only [ofExcept, Prog.ret_bind, storeChunk, storageUsage, Prog.io_bind,
            Prog.exec_io, id]
          split
          · obtain ⟨q, hq, -⟩ := markLogTruncated_row payload.taskId payload.stream
              (db.logs.get? (payload.taskId, payload.stream)) (utcNowIso now)
              "storage_quota_exceeded"
            rw [hq]
            exact Or.inl rfl
          · rename_i hquota
            have hroom : text = [] ∨ storageUsageBytes gzipSize x.files + utf8Length text ≤
                settings.storageQuotaBytes := by
              by_cases hnil : text = []
              · exact Or.inl hnil
              · have := utf8Length_pos hnil
                exact Or.inr (by omega)
            refine Or.inr ⟨text, hroom, ?_⟩
            simp only [appendToLog, Prog.io_bind, Prog.exec_io]
            cases (appendLogChunk settings.taskLogStreamMaxBytes payload.taskId payload.stream text
              x.files).1 with
            | error e => rfl
            | ok done => rfl

/-- A log chunk keeps the usage within the quota. -/
theorem taskLogChunk_withinQuota (hgzip : ∀ text, gzipSize text ≤ utf8Length text)
    (nodeId : String) (payload : NodeTaskLogChunkRequest) (now : Nat) (db : Db) {x : World}
    (hx : WithinQuota settings gzipSize x.files) :
    WithinQuota settings gzipSize
      ((taskLogChunk settings gzipSize nodeId payload now).outsideAfter db x).files := by
  rcases taskLogChunk_files settings gzipSize nodeId payload now db x with
    hsame | ⟨text, hroom, hfiles⟩
  · rw [hsame]
    exact hx
  · have happend := usage_appendLogChunk hgzip settings.taskLogStreamMaxBytes payload.taskId
      payload.stream text x.files
    rw [hfiles]
    unfold WithinQuota at *
    rcases hroom with rfl | hroom
    · exact happend.trans (by simpa using hx)
    · exact happend.trans hroom

variable (settings gzipSize) in
/-- An upload leaves the storage directory, or it is accepted and its file takes the place of what
was there. -/
theorem artifact_files (nodeId : String) (contentLength : Option String)
    (payload : NodeArtifactUploadRequest) (now : Nat) (db : Db) (x : World) :
    let p := (StorageRequest.artifact nodeId contentLength payload now).code settings gzipSize
    ((p.resultOf db x).isOk = false ∧ (p.outsideAfter db x).files = x.files) ∨
      ∃ content, decodeArtifact settings payload = .ok content ∧ (p.resultOf db x).isOk = true ∧
        (p.outsideAfter db x).files = x.files.writeArtifact payload.file content := by
  simp only [StorageRequest.code]
  cases checkContentLength settings contentLength with
  | error e => exact Or.inl ⟨rfl, rfl⟩
  | ok _ =>
      simp only [ofExcept, Prog.ret_bind]
      rcases asNode_cases nodeId (fun _ => artifactUpload settings nodeId payload now >>= fun _ =>
        Prog.ret ()) db x with ⟨⟨e, herror⟩, -, hsame⟩ | ⟨node, hreply, -, hleft⟩
      · rw [Prog.pure_eq, herror, hsame]
        exact Or.inl ⟨rfl, rfl⟩
      · rw [Prog.pure_eq, hreply, hleft, Prog.resultOf_bind_ret, Prog.outsideAfter_bind_ret]
        rcases artifactUpload_outcome settings nodeId payload now db x with
          ⟨hrefused, -, hsame⟩ | ⟨content, ack, existing, hcontent, -, -, hok, -, -, hfiles⟩
        · rw [hsame]
          cases hresult : (artifactUpload settings nodeId payload now).resultOf db x with
          | error e => exact Or.inl ⟨rfl, rfl⟩
          | ok ack => exact absurd hresult (hrefused ack)
        · rw [hok, hfiles]
          exact Or.inr ⟨content, hcontent, rfl, rfl⟩

/-- A request that fits keeps the usage within the quota. -/
theorem StorageRequest.withinQuota (hgzip : ∀ text, gzipSize text ≤ utf8Length text)
    (request : StorageRequest) (db : Db) (x : World) (hx : WithinQuota settings gzipSize x.files)
    (hfits : (request.step settings gzipSize db x).reply.isOk = true →
      (request.step settings gzipSize db x).Fits settings gzipSize) :
    WithinQuota settings gzipSize (request.step settings gzipSize db x).left := by
  cases request with
  | logChunk nodeId payload now =>
      show WithinQuota _ _ (Prog.outsideAfter (asNode nodeId _) db x).files
      rcases asNode_cases nodeId (fun _ => taskLogChunk settings gzipSize nodeId payload now >>=
        fun _ => Prog.ret ()) db x with ⟨-, -, hsame⟩ | ⟨node, -, -, hleft⟩
      · rw [Prog.pure_eq, hsame]
        exact hx
      · rw [Prog.pure_eq, hleft, Prog.outsideAfter_bind_ret]
        exact taskLogChunk_withinQuota hgzip nodeId payload now db hx
  | artifact nodeId contentLength payload now =>
      rcases artifact_files settings gzipSize nodeId contentLength payload now db x with ⟨-, hsame⟩ | ⟨content, hcontent, hok, hfiles⟩
      · show WithinQuota _ _ (Prog.outsideAfter _ db x).files
        rw [hsame]
        exact hx
      · have hfit := hfits hok content (by rw [hcontent]; rfl)
        have husage := usage_writeArtifact gzipSize x.files payload.file content
        show WithinQuota _ _ (Prog.outsideAfter _ db x).files
        rw [hfiles, WithinQuota]
        simp only [StorageRequest.step] at hfit
        omega

/-- Starting within the quota, every accepted request leaves the usage within the quota if and
only if every accepted upload fits. -/
theorem quota_kept_iff (settings : Settings) (gzipSize : List Char → Nat)
    (hgzip : ∀ text, gzipSize text ≤ utf8Length text) (db : Db) (x : World)
    (hstart : WithinQuota settings gzipSize x.files) (requests : List StorageRequest) :
    (∀ s ∈ storageSteps settings gzipSize db x requests, s.reply.isOk = true →
        WithinQuota settings gzipSize s.left) ↔
      ∀ s ∈ storageSteps settings gzipSize db x requests, s.reply.isOk = true →
        s.Fits settings gzipSize := by
  constructor
  · intro hkept s hs hok
    have hwithin := hkept s hs hok
    obtain ⟨request, db', x', rfl⟩ := StorageStep.of_mem hs
    cases request with
    | logChunk nodeId payload now => trivial
    | artifact nodeId contentLength payload now =>
        rcases artifact_files settings gzipSize nodeId contentLength payload now db' x' with
          ⟨hrefused, -⟩ | ⟨content, hcontent, -, hfiles⟩
        · simp only [StorageRequest.step] at hok
          rw [hrefused] at hok
          cases hok
        · intro content' hcontent'
          rw [hcontent] at hcontent'
          obtain rfl : content = content' := Option.some.inj hcontent'
          have husage := usage_writeArtifact gzipSize x'.files payload.file content
          simp only [StorageRequest.step, hfiles, WithinQuota] at hwithin ⊢
          omega
  · intro hfits
    induction requests generalizing db x with
    | nil => simp [storageSteps]
    | cons request requests ih =>
        have hleft := request.withinQuota hgzip db x hstart
          (hfits _ (List.mem_cons_self ..))
        intro s hs hok
        rcases List.mem_cons.mp hs with rfl | hs
        · exact hleft
        · exact ih _ _ hleft (fun s hs => hfits s (List.mem_cons_of_mem _ hs)) s hs hok

/-- A chunk of a log, and an upload that fits. -/
def smallUploads : List StorageRequest :=
  [.logChunk "n" firstChunk 0,
    .artifact "n" none
      { taskId := "t", artifactName := "a", artifactType := "file", contentBase64 := "QQ==".toList }
      0]

theorem quota_kept_smallUploads :
    (storageSteps {} utf8Length oneTaskDb {} smallUploads).length = smallUploads.length ∧
      ∀ s ∈ storageSteps {} utf8Length oneTaskDb {} smallUploads, s.reply.isOk = true →
        WithinQuota {} utf8Length s.left := by
  refine ⟨by decide +kernel, (quota_kept_iff {} utf8Length (fun _ => Nat.le_refl _) oneTaskDb {}
    (by decide) smallUploads).mpr ?_⟩
  decide +kernel

/-- One byte is uploaded where there is no room for it. -/
theorem quota_exceeded :
    ¬ ∀ (settings : Settings) (gzipSize : List Char → Nat),
      (∀ text, gzipSize text ≤ utf8Length text) → ∀ (db : Db) (x : World),
      WithinQuota settings gzipSize x.files → ∀ requests : List StorageRequest,
      ∀ s ∈ storageSteps settings gzipSize db x requests, s.reply.isOk = true →
        WithinQuota settings gzipSize s.left := by
  intro h
  have hkept := h { storageQuotaBytes := 0 } utf8Length (fun _ => Nat.le_refl _) oneTaskDb {}
    (by decide) smallUploads
  revert hkept
  decide +kernel

end Runs

end GpuFleet
