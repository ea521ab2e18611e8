import GpuFleet.Foundations.FileTree
import GpuFleet.Server.Workdirs

/-!
# Native file tasks

The agent works on files itself for the tasks whose types say so.  Every path of
a payload is resolved from the agent's directory, and has to lie in one of the
roots: the agent's own directories and the workdir of the task.

What a task then creates, overwrites, moves or removes lies in a root, whatever
the payload and whether the task succeeds or fails, with one exception: a root
that does not exist yet is made with its parents (`native_task_confined`).

Files hold bytes.  Conversions between Python's values and texts are a parameter,
and so is the reading of archives, whose members stay below the directory they
are extracted to.
-/

namespace GpuFleet

open Foundations

/-! ## The surroundings of a task -/

/-- A path from the root of the file system. -/
abbrev AbsPath : Type := List (List Char)

/-- The bytes of a file. -/
abbrev Bytes : Type := List UInt8

/-- A member of an archive: its path below the directory of extraction, and its content unless it
is a directory. -/
structure ArchiveMember where
  path : AbsPath
  content : Option Bytes

/-- What the task runner takes from Python. -/
structure Python where
  /-- `str(value)` -/
  str : Json → String
  /-- `int(value)`, unless it raises. -/
  int : Json → Option Int
  /-- `text.strip()` -/
  strip : String → String
  /-- There is a codec of this name. -/
  knowsEncoding : String → Bool
  encode : String → List Char → Option Bytes
  decode : String → Bytes → Option (List Char)
  /-- Decode with `errors="replace"`. -/
  decodeReplacing : String → Bytes → Option (List Char)
  /-- The members of a zip archive, unless it is none. -/
  unzip : Bytes → Option (List ArchiveMember)

/-- The system and the network around a task. -/
structure Surroundings where
  /-- Whether each of the next calls is refused. -/
  refusals : List Bool := []
  /-- What a download brings, unless it fails. -/
  response : Option Bytes := none
  /-- The center refuses the next artifact. -/
  artifactRefused : Bool := false
  /-- The names and types of the artifacts sent. -/
  artifacts : List (String × String) := []

instance : MayRefuse Surroundings where
  refuses x := x.refusals.headD false
  next x := { x with refusals := x.refusals.tail }

/-- A program of the task runner. -/
abbrev TaskProg : Type → Type := FileProg (List Char) Bytes Surroundings

/-- Go on with a result or raise its exception. -/
def ofResult {α : Type} : Except FileError α → TaskProg α
  | .ok a => .ret a
  | .error e => .raise e

/-- The settings that name directories. -/
structure AgentDirs where
  agentRoot : String := "./runtime"
  reposDir : String := "./runtime/repos"
  runsDir : String := "./runtime/runs"
  artifactsDir : String := "./runtime/artifacts"
  logsDir : String := "./runtime/logs"
  stateDir : String := "./runtime/state"

/-- A task as it comes from the center. -/
structure NativeTask where
  taskId : String
  type : TaskType
  payload : List (String × Json) := []
  workdir : Option String := none

/-! ## Payloads -/

/-- The truth value of a JSON value. -/
def Json.isTruthy : Json → Bool
  | .null => false
  | .bool b => b
  | .num n => n ≠ 0
  | .real q => q ≠ 0
  | .str s => s ≠ ""
  | .arr items => !items.isEmpty
  | .obj fields => !fields.isEmpty

/-- `payload_value` -/
def payloadValue (payload : List (String × Json)) (keys : List String) : Option Json :=
  keys.findSome? fun key => payload.lookup key

/-- `payload_value(...)`, when it is true. -/
def truthyValue (payload : List (String × Json)) (keys : List String) : Option Json :=
  (payloadValue payload keys).filter Json.isTruthy

/-! ## Paths -/

/-- `Path.resolve`, without symbolic links. -/
def resolvePath (cwd : AbsPath) (raw : String) : Except FileError AbsPath :=
  if '\x00' ∈ raw.toList then .error (.raised "embedded null byte") else .ok (joinPath cwd raw)

/-- `str(path)` -/
def pathText (path : AbsPath) : String :=
  if path = [] then "/" else String.ofList (path.flatMap fun part => '/' :: part)

/-- `Path.suffix`, in lower case. -/
def lowerSuffix (path : AbsPath) : String :=
  let name := path.getLast?.getD []
  let stem := (name.reverse.dropWhile (· ≠ '.')).drop 1
  let extension := (name.reverse.takeWhile (· ≠ '.')).reverse
  if stem = [] ∨ extension = [] then ""
  else String.ofList ('.' :: extension.map Char.toLower)

section Roots

variable (settings : AgentDirs) (cwd : AbsPath)

/-- `task_extra_roots` -/
def taskExtraRoots (task : NativeTask) : List String := (task.workdir.filter (· ≠ "")).toList

/-- The raw paths of the roots. -/
def rootTexts (extraRoots : List String) : List String :=
  [settings.agentRoot, settings.reposDir, settings.runsDir, settings.artifactsDir, settings.logsDir,
    settings.stateDir] ++ extraRoots

/-- `allowed_roots` -/
def allowedRoots (extraRoots : List String) : Except FileError (List AbsPath) :=
  (rootTexts settings extraRoots).mapM (resolvePath cwd)

/-- `is_within` -/
def isWithin (child parent : AbsPath) : Bool := parent.isPrefixOf child

/-- `resolve_safe_path`.  Both of its ways to resolve accept a missing file. -/
def resolveSafePath (rawPath : String) (extraRoots : List String) : Except FileError AbsPath := do
  let resolved ← resolvePath cwd rawPath
  let roots ← allowedRoots settings cwd extraRoots
  if roots.any fun root => isWithin resolved root then .ok resolved
  else .error (.raised ("path outside allowed roots: " ++ rawPath))

/-- Where the roots of a task lie. -/
def rootsOf (task : NativeTask) : List AbsPath :=
  (rootTexts settings (taskExtraRoots task)).map (joinPath cwd)

end Roots

/-! ## Files -/

/-- `Path.read_bytes` -/
def readFile (path : AbsPath) : TaskProg Bytes :=
  .io MayRefuse.next fun x =>
    if MayRefuse.refuses x then .raise .refused
    else .select fun t =>
      match t.get? path with
      | none => .raise .notFound
      | some .dir => .raise .isDirectory
      | some (.file content) => .ret content

/-- `Path.read_text`, with a way to decode. -/
def readTextOf (py : Python) (decode : String → Bytes → Option (List Char)) (encoding : String)
    (path : AbsPath) : TaskProg (List Char) := do
  let content ← readFile path
  if py.knowsEncoding encoding then
    match decode encoding content with
    | none => .raise (.raised "UnicodeDecodeError")
    | some text => pure text
  else .raise (.raised "LookupError")

/-- `Path.write_bytes` -/
def writeBytes (path : AbsPath) (content : Bytes) : TaskProg Unit := writeFile [] content path

/-- `Path.write_text`.  The file is opened before the encoding is looked up. -/
def writeText (py : Python) (encoding : String) (path : AbsPath) (text : List Char) :
    TaskProg Unit := do
  issue (.write path [])
  if py.knowsEncoding encoding then
    match py.encode encoding text with
    | none => .raise (.raised "UnicodeEncodeError")
    | some content => issue (.write path content)
  else .raise (.raised "LookupError")

/-- `send_artifact_file` -/
def sendArtifactFile (artifactName artifactType : String) : TaskProg Unit :=
  .io (fun x => { x with
      artifacts := if x.artifactRefused then x.artifacts else x.artifacts ++ [(artifactName, artifactType)] })
    fun x => if x.artifactRefused then .raise (.raised "RequestError") else .ret ()

/-- `ZipFile.extractall` -/
def extractAll (py : Python) (archive targetDir : AbsPath) : TaskProg Unit := do
  let content ← readFile archive
  match py.unzip content with
  | none => .raise (.raised "BadZipFile")
  | some members =>
      Prog.forEach members fun member => do
        mkdirParents true (targetDir ++ member.path.dropLast)
        match member.content with
        | none => mkdirOne true (targetDir ++ member.path)
        | some bytes => writeBytes (targetDir ++ member.path) bytes

/-- `str.replace`, of at most `count` occurrences; `skip` characters are already replaced. -/
def replaceText (old new : List Char) : (skip : Nat) → (count : Option Nat) → List Char → List Char
  | 0, some 0, text => text
  | 0, _, [] => if old = [] then new else []
  | 0, count, c :: text =>
      if old = [] then new ++ c :: replaceText old new 0 (count.map (· - 1)) text
      else if old.isPrefixOf (c :: text) then
        new ++ replaceText old new (old.length - 1) (count.map (· - 1)) text
      else c :: replaceText old new 0 count text
  | _ + 1, _, [] => []
  | skip + 1, count, _ :: text => replaceText old new skip count text

example : replaceText "ab".toList "x".toList 0 none "abcab".toList = "xcx".toList := by decide

/-! ## Tasks -/

section Tasks

variable (py : Python) (settings : AgentDirs) (cwd : AbsPath) (task : NativeTask)

/-- `str(payload.get("encoding", "utf-8"))` -/
def encodingOf : String := (task.payload.lookup "encoding").elim "utf-8" py.str

/-- The path of a payload that has to be there, resolved and checked. -/
def safePath (value : Option Json) (missing : FileError) : Except FileError AbsPath :=
  match value with
  | none => .error missing
  | some raw => resolveSafePath settings cwd (py.str raw) (taskExtraRoots task)

/-- `file_mkdir` -/
def fileMkdir : TaskProg Json := do
  let target ← ofResult (safePath py settings cwd task
    (truthyValue task.payload ["path", "target_path"])
    (.raised "file_mkdir task requires payload.path"))
  mkdirParents true target
  pure (.obj [("path", .str (pathText target)), ("created", .bool true)])

/-- `file_write` -/
def fileWrite : TaskProg Json := do
  let target ← ofResult (safePath py settings cwd task
    (truthyValue task.payload ["path", "target_path"])
    (.raised "file_write task requires payload.path"))
  mkdirParents true target.dropLast
  let content := (task.payload.lookup "content").elim "" py.str
  writeText py (encodingOf py task) target content.toList
  let size := ((py.encode "utf-8" content.toList).getD []).length
  pure (.obj [("path", .str (pathText target)), ("bytes", .num size)])

/-- `file_patch_text` -/
def filePatchText : TaskProg Json := do
  let target ← ofResult (safePath py settings cwd task
    (truthyValue task.payload ["path", "target_path"])
    (.raised "file_patch_text task requires payload.path"))
  let source ← readTextOf py py.decode (encodingOf py task) target
  let oldText := ((truthyValue task.payload ["old_text", "anchor"]).elim "" py.str).toList
  let newText := ((truthyValue task.payload ["new_text", "replacement"]).elim "" py.str).toList
  if oldText <:+: source then
    let count := if (task.payload.lookup "replace_all").any Json.isTruthy then none else some 1
    writeText py (encodingOf py task) target (replaceText oldText newText 0 count source)
    pure (.obj [("path", .str (pathText target)), ("replaced", .bool true)])
  else .raise (.raised "old_text not found in file")

/-- `file_move` -/
def fileMove : TaskProg Json := do
  let missing := FileError.raised "file_move task requires payload.source and payload.target"
  let sourceRaw := truthyValue task.payload ["source", "source_path"]
  let targetRaw := truthyValue task.payload ["target", "target_path"]
  if sourceRaw.isNone ∨ targetRaw.isNone then .raise missing
  else
    let source ← ofResult (safePath py settings cwd task sourceRaw missing)
    let target ← ofResult (safePath py settings cwd task targetRaw missing)
    mkdirParents true target.dropLast
    move [] source target
    pure (.obj [("source", .str (pathText source)), ("target", .str (pathText target))])

/-- `file_delete` -/
def fileDelete : TaskProg Json := do
  let target ← ofResult (safePath py settings cwd task
    (truthyValue task.payload ["path", "target_path"])
    (.raised "file_delete task requires payload.path"))
  let depth ← Prog.query fun t => t.depth
  let isDir ← Prog.query fun t => t.isDir target
  if isDir then
    rmtree (depth + 1) target
    pure (.obj [("path", .str (pathText target)), ("deleted", .str "directory")])
  else
    issue (.unlink target)
    pure (.obj [("path", .str (pathText target)), ("deleted", .str "file")])

/-- The end of `file_extract` and of `upload_and_unpack`. -/
def extractTo (archive targetDir : AbsPath) (result : List (String × Json)) : TaskProg Json := do
  mkdirParents true targetDir
  if lowerSuffix archive = ".zip" then
    extractAll py archive targetDir
    pure (.obj ([("archive_path", .str (pathText archive)),
      ("target_dir", .str (pathText targetDir))] ++ result))
  else .raise (.raised "only .zip archives are supported in MVP")

/-- `file_extract` -/
def fileExtract : TaskProg Json := do
  let archive ← ofResult (safePath py settings cwd task (task.payload.lookup "archive_path")
    (.raised "archive_path"))
  let targetDir ← ofResult (safePath py settings cwd task
    (truthyValue task.payload ["target_dir", "target_path"])
    (.raised "file_extract task requires payload.target_dir"))
  extractTo py archive targetDir []

/-- `upload_and_unpack` -/
def uploadAndUnpack : TaskProg Json := do
  let archive ← ofResult (safePath py settings cwd task (task.payload.lookup "archive_path")
    (.raised "archive_path"))
  let targetDir ← ofResult (safePath py settings cwd task (task.payload.lookup "target_dir")
    (.raised "target_dir"))
  extractTo py archive targetDir [("unpacked", .bool true)]

/-- `file_preview` -/
def filePreview : TaskProg Json := do
  let target ← ofResult (safePath py settings cwd task
    (truthyValue task.payload ["path", "target_path"])
    (.raised "file_preview task requires payload.path"))
  let isDir ← Prog.query fun t => t.isDir target
  if isDir then
    let names ← Prog.query fun t => t.entries target
    match (task.payload.lookup "limit").elim (some 50) py.int with
    | none => .raise (.raised "limit")
    | some limit =>
        -- A negative limit counts from the end.
        let count := if 0 ≤ limit then min limit.toNat names.length
          else names.length - limit.natAbs
        sendArtifactFile "file_preview.json" "file_preview"
        pure (.obj [("path", .str (pathText target)), ("entry_count", .num count)])
  else
    let text ← readTextOf py py.decodeReplacing (encodingOf py task) target
    match (truthyValue task.payload ["max_chars", "max_bytes"]).elim (some 4000) py.int with
    | none => .raise (.raised "max_chars")
    | some limit =>
        let chars := if 0 ≤ limit then min limit.toNat text.length else text.length - limit.natAbs
        sendArtifactFile (String.ofList (target.getLast?.getD []) ++ ".preview.txt") "file_preview"
        pure (.obj [("path", .str (pathText target)), ("chars", .num chars)])

/-- `download_file` -/
def downloadFile : TaskProg Json := do
  let url := py.strip ((task.payload.lookup "url").elim "" py.str)
  let missing :=
    FileError.raised "download_file task requires payload.url and payload.target_path"
  let targetRaw := truthyValue task.payload ["target_path"]
  if url = "" ∨ targetRaw.isNone then .raise missing
  else
    let target ← ofResult (safePath py settings cwd task targetRaw missing)
    mkdirParents true target.dropLast
    let response ← Prog.io id fun x : Surroundings => .ret x.response
    match (task.payload.lookup "timeout_sec").elim (some 60) py.int, response with
    | none, _ => .raise (.raised "timeout_sec")
    | some _, none => .raise (.raised "URLError")
    | some _, some content =>
        writeBytes target content
        sendArtifactFile (String.ofList (target.getLast?.getD []) ++ ".download.json")
          "download_summary"
        pure (.obj [("url", .str url), ("target_path", .str (pathText target)),
          ("size_bytes", .num content.length)])

/-- `execute_native_task`; the report of a health check is left out. -/
def executeNativeTask : TaskProg (Option Json) :=
  match task.type with
  | .healthCheck => pure (some (.obj [("ok", .bool true)]))
  | .fileMkdir => some <$> fileMkdir py settings cwd task
  | .fileWrite => some <$> fileWrite py settings cwd task
  | .filePatchText => some <$> filePatchText py settings cwd task
  | .fileMove => some <$> fileMove py settings cwd task
  | .fileDelete => some <$> fileDelete py settings cwd task
  | .fileExtract => some <$> fileExtract py settings cwd task
  | .filePreview => some <$> filePreview py settings cwd task
  | .uploadAndUnpack => some <$> uploadAndUnpack py settings cwd task
  | .downloadFile => some <$> downloadFile py settings cwd task
  | .shell | .pythonScript | .gitPull | .pipInstall | .modalCommand => pure none

end Tasks

/-! ## Confinement -/

section Confinement

variable {py : Python} {settings : AgentDirs} {cwd : AbsPath} {task : NativeTask}
  {roots : List AbsPath} {path source target : AbsPath}

theorem resolvePath_ok {raw : String} (h : resolvePath cwd raw = .ok path) : path = joinPath cwd raw := by
  unfold resolvePath at h
  split at h
  · cases h
  · exact (Except.ok.inj h).symm

theorem mapM_resolvePath {raws : List String} (h : raws.mapM (resolvePath cwd) = .ok roots) :
    roots = raws.map (joinPath cwd) := by
  induction raws generalizing roots with
  | nil => exact (Except.ok.inj h).symm
  | cons raw raws ih =>
      rw [List.mapM_cons] at h
      cases hraw : resolvePath cwd raw with
      | error e =>
          rw [hraw] at h
          cases h
      | ok first =>
          cases hraws : raws.mapM (resolvePath cwd) with
          | error e =>
              rw [hraw, hraws] at h
              cases h
          | ok rest =>
              rw [hraw, hraws] at h
              rw [← Except.ok.inj h, List.map_cons, ← resolvePath_ok hraw, ← ih hraws]

/-- A path that passes the check lies in a root. -/
theorem resolveSafePath_covered {raw : String}
    (h : resolveSafePath settings cwd raw (taskExtraRoots task) = .ok path) :
    Covered (rootsOf settings cwd task) path := by
  unfold resolveSafePath allowedRoots at h
  cases hresolved : resolvePath cwd raw with
  | error e =>
      rw [hresolved] at h
      cases h
  | ok resolved =>
      cases hroots : (rootTexts settings (taskExtraRoots task)).mapM (resolvePath cwd) with
      | error e =>
          rw [hresolved, hroots] at h
          cases h
      | ok roots =>
          rw [hresolved, hroots] at h
          simp only [bind, Except.bind] at h
          split at h
          · rename_i hany
            obtain ⟨root, hmem, hwithin⟩ := List.any_eq_true.mp hany
            rw [← Except.ok.inj h, rootsOf, ← mapM_resolvePath hroots]
            exact ⟨root, hmem, List.isPrefixOf_iff_prefix.mp hwithin⟩
          · cases h

theorem safePath_covered {value : Option Json} {missing : FileError}
    (h : safePath py settings cwd task value missing = .ok path) :
    Covered (rootsOf settings cwd task) path := by
  unfold safePath at h
  split at h
  · cases h
  · exact resolveSafePath_covered h

theorem only_ofResult {α β : Type} {P : Syscall (List Char) Bytes → FileTree (List Char) Bytes → Prop}
    {r : Except FileError α} {g : α → TaskProg β} (h : ∀ a, r = .ok a → (g a).Only P) :
    (ofResult r >>= g).Only P := by
  cases r with
  | error e => exact Prog.only_raise e
  | ok a => exact h a rfl

variable {roots : List AbsPath}

theorem only_readFile {P : Syscall (List Char) Bytes → FileTree (List Char) Bytes → Prop} :
    (readFile path).Only P := by
  refine Prog.only_io fun x => Prog.only_ite (Prog.only_raise _) (Prog.only_select fun t => ?_)
  split
  · exact Prog.only_raise _
  · exact Prog.only_raise _
  · exact Prog.only_ret _

theorem only_readTextOf {P : Syscall (List Char) Bytes → FileTree (List Char) Bytes → Prop}
    {decode : String → Bytes → Option (List Char)} {encoding : String} :
    (readTextOf py decode encoding path).Only P := by
  refine Prog.only_bind only_readFile fun content => Prog.only_ite ?_ (Prog.only_raise _)
  split
  · exact Prog.only_raise _
  · exact Prog.only_ret _

theorem only_writeText {encoding : String} {text : List Char} (h : Covered roots path) :
    (writeText py encoding path text).Only (KeepsWithin roots) := by
  refine Prog.only_bind (only_issue_at (fun _ hp => hp) h) fun _ =>
    Prog.only_ite ?_ (Prog.only_raise _)
  split
  · exact Prog.only_raise _
  · exact only_issue_at (fun _ hp => hp) h

theorem only_sendArtifactFile {P : Syscall (List Char) Bytes → FileTree (List Char) Bytes → Prop}
    {artifactName artifactType : String} : (sendArtifactFile artifactName artifactType).Only P :=
  Prog.only_io fun _ => Prog.only_ite (Prog.only_raise _) (Prog.only_ret _)

theorem only_extractAll {archive targetDir : AbsPath} (h : Covered roots targetDir) :
    (extractAll py archive targetDir).Only (KeepsWithin roots) := by
  refine Prog.only_bind only_readFile fun content => ?_
  split
  · exact Prog.only_raise _
  · refine Prog.only_forEach fun member => ?_
    refine Prog.only_bind (only_mkdirParents (h.append _) List.prefix_rfl) fun _ => ?_
    split
    · exact only_mkdirOne (h.append _) List.prefix_rfl
    · exact only_writeFile (h.append _)

theorem only_extractTo {archive targetDir : AbsPath} {result : List (String × Json)}
    (h : Covered roots targetDir) :
    (extractTo py archive targetDir result).Only (KeepsWithin roots) :=
  Prog.only_bind (only_mkdirParents h List.prefix_rfl) fun _ =>
    Prog.only_ite (Prog.only_bind (only_extractAll h) fun _ => Prog.only_ret _) (Prog.only_raise _)

/-! One lemma for each task: what it does keeps within its roots. -/

theorem only_fileMkdir :
    (fileMkdir py settings cwd task).Only (KeepsWithin (rootsOf settings cwd task)) := by
  refine only_ofResult fun target htarget => ?_
  exact Prog.only_bind (only_mkdirParents (safePath_covered htarget) List.prefix_rfl) fun _ =>
    Prog.only_ret _

theorem only_fileWrite :
    (fileWrite py settings cwd task).Only (KeepsWithin (rootsOf settings cwd task)) := by
  refine only_ofResult fun target htarget => ?_
  have hcovered := safePath_covered htarget
  refine Prog.only_bind (only_mkdirParents hcovered (List.dropLast_prefix target)) fun _ => ?_
  exact Prog.only_bind (only_writeText hcovered) fun _ => Prog.only_ret _

theorem only_filePatchText :
    (filePatchText py settings cwd task).Only (KeepsWithin (rootsOf settings cwd task)) := by
  refine only_ofResult fun target htarget => Prog.only_bind only_readTextOf fun source => ?_
  refine Prog.only_ite ?_ (Prog.only_raise _)
  exact Prog.only_bind (only_writeText (safePath_covered htarget)) fun _ => Prog.only_ret _

theorem only_fileMove :
    (fileMove py settings cwd task).Only (KeepsWithin (rootsOf settings cwd task)) := by
  refine Prog.only_ite (Prog.only_raise _) ?_
  refine only_ofResult fun source hsource => only_ofResult fun target htarget => ?_
  have hcovered := safePath_covered htarget
  refine Prog.only_bind (only_mkdirParents hcovered (List.dropLast_prefix target)) fun _ => ?_
  exact Prog.only_bind (only_move (safePath_covered hsource) hcovered) fun _ => Prog.only_ret _

theorem only_fileDelete :
    (fileDelete py settings cwd task).Only (KeepsWithin (rootsOf settings cwd task)) := by
  refine only_ofResult fun target htarget => ?_
  have hcovered := safePath_covered htarget
  refine Prog.only_bind (Prog.only_query _) fun depth => Prog.only_bind (Prog.only_query _) fun isDir => ?_
  refine Prog.only_ite ?_ ?_
  · exact Prog.only_bind (only_rmtree hcovered) fun _ => Prog.only_ret _
  · exact Prog.only_bind (only_issue_at (fun _ hp => hp) hcovered) fun _ => Prog.only_ret _

theorem only_fileExtract :
    (fileExtract py settings cwd task).Only (KeepsWithin (rootsOf settings cwd task)) :=
  only_ofResult fun _ _ => only_ofResult fun _ htarget => only_extractTo (safePath_covered htarget)

theorem only_uploadAndUnpack :
    (uploadAndUnpack py settings cwd task).Only (KeepsWithin (rootsOf settings cwd task)) :=
  only_ofResult fun _ _ => only_ofResult fun _ htarget => only_extractTo (safePath_covered htarget)

/-- A preview changes nothing. -/
theorem only_filePreview {P : Syscall (List Char) Bytes → FileTree (List Char) Bytes → Prop} :
    (filePreview py settings cwd task).Only P := by
  refine only_ofResult fun target _ => Prog.only_bind (Prog.only_query _) fun isDir => ?_
  refine Prog.only_ite ?_ ?_
  · refine Prog.only_bind (Prog.only_query _) fun names => ?_
    split
    · exact Prog.only_raise _
    · exact Prog.only_bind only_sendArtifactFile fun _ => Prog.only_ret _
  · refine Prog.only_bind only_readTextOf fun text => ?_
    split
    · exact Prog.only_raise _
    · exact Prog.only_bind only_sendArtifactFile fun _ => Prog.only_ret _

theorem only_downloadFile :
    (downloadFile py settings cwd task).Only (KeepsWithin (rootsOf settings cwd task)) := by
  refine Prog.only_ite (Prog.only_raise _) (only_ofResult fun target htarget => ?_)
  have hcovered := safePath_covered htarget
  refine Prog.only_bind (only_mkdirParents hcovered (List.dropLast_prefix target)) fun _ => ?_
  refine Prog.only_bind (Prog.only_io fun _ => Prog.only_ret _) fun response => ?_
  split
  · exact Prog.only_raise _
  · exact Prog.only_raise _
  · refine Prog.only_bind (only_writeFile hcovered) fun _ => ?_
    exact Prog.only_bind only_sendArtifactFile fun _ => Prog.only_ret _

/-- What a task does keeps within its roots. -/
theorem only_executeNativeTask :
    (executeNativeTask py settings cwd task).Only (KeepsWithin (rootsOf settings cwd task)) := by
  have done : ∀ {p : TaskProg Json}, p.Only (KeepsWithin (rootsOf settings cwd task)) →
      (some <$> p).Only (KeepsWithin (rootsOf settings cwd task)) :=
    fun hp => Prog.only_bind hp fun _ => Prog.only_ret _
  unfold executeNativeTask
  cases task.type with
  | healthCheck => exact Prog.only_ret _
  | fileMkdir => exact done only_fileMkdir
  | fileWrite => exact done only_fileWrite
  | filePatchText => exact done only_filePatchText
  | fileMove => exact done only_fileMove
  | fileDelete => exact done only_fileDelete
  | fileExtract => exact done only_fileExtract
  | filePreview => exact done only_filePreview
  | uploadAndUnpack => exact done only_uploadAndUnpack
  | downloadFile => exact done only_downloadFile
  | shell | pythonScript | gitPull | pipInstall | modalCommand => exact Prog.only_ret _

/-- What lies neither below a root nor on the way to one is as it was before. -/
theorem native_task_frame (t : FileTree (List Char) Bytes) (x : Surroundings)
    (hbelow : ∀ root ∈ rootsOf settings cwd task, ¬ root <+: path)
    (habove : ∀ root ∈ rootsOf settings cwd task, ¬ path <+: root) :
    ((executeNativeTask py settings cwd task).exec t t x).working.get? path = t.get? path := by
  have hkeeps : ∀ q w, KeepsWithin (rootsOf settings cwd task) q w → w.get? path = t.get? path →
      (Syscall.apply q w).get? path = t.get? path := by
    intro q w hq hw
    refine (Syscall.get?_apply fun htouches => ?_).trans hw
    rcases hq path htouches with ⟨root, hmem, hroot⟩ | ⟨-, -, root, hmem, hroot⟩
    · exact hbelow root hmem hroot
    · exact habove root hmem hroot
  exact ((only_executeNativeTask t).exec_inv x hkeeps rfl rfl).2

/-- Whatever the payload, the files, the refusals of the system and the network are, and whether
the task succeeds or fails, each path it creates, overwrites, moves or removes is a root or lies
below one, or is a directory that was missing on the way to a root. -/
theorem native_task_confined (py : Python) (settings : AgentDirs) (cwd : AbsPath)
    (task : NativeTask) (t : FileTree (List Char) Bytes) (x : Surroundings) :
    ∀ call ∈ (executeNativeTask py settings cwd task).trace t x, ∀ path, call.1.Touches path →
      (∃ root ∈ rootsOf settings cwd task, root <+: path) ∨
        call.1 = .mkdir path ∧ call.2.get? path = none ∧
          ∃ root ∈ rootsOf settings cwd task, path <+: root :=
  only_executeNativeTask.trace t x

end Confinement

/-- Texts are taken as they are, and every other conversion fails. -/
def plainPython : Python where
  str v := match v with
    | .str s => s
    | _ => ""
  int _ := none
  strip s := s
  knowsEncoding _ := true
  encode _ text := some (text.map fun c => .ofNat c.toNat)
  decode _ _ := none
  decodeReplacing _ _ := none
  unzip _ := none

/-- A task in a workdir that does not exist yet. -/
def newWorkdirTask : NativeTask where
  taskId := "t"
  type := .fileMkdir
  payload := [("path", .str "/data/new")]
  workdir := some "/data/new"

theorem mkdir_mem_newWorkdirTask :
    ∃ call ∈ (executeNativeTask plainPython {} ["agent".toList] newWorkdirTask).trace
      ⟨[(["agent".toList], .dir)]⟩ {}, call.1 = .mkdir ["data".toList] := by
  have hmade : ((executeNativeTask plainPython {} ["agent".toList] newWorkdirTask).trace
      ⟨[(["agent".toList], .dir)]⟩ {}).map Prod.fst =
        [.mkdir ["data".toList], .mkdir ["data".toList, "new".toList]] := by
    decide
  have hmem : Syscall.mkdir ["data".toList] ∈
      ((executeNativeTask plainPython {} ["agent".toList] newWorkdirTask).trace
        ⟨[(["agent".toList], .dir)]⟩ {}).map Prod.fst := by
    rw [hmade]
    exact List.mem_cons_self ..
  exact List.mem_map.mp hmem

/-- The parent of the new workdir is made on the way to it. -/
theorem native_task_confined_newWorkdir :
    ∃ call ∈ (executeNativeTask plainPython {} ["agent".toList] newWorkdirTask).trace
      ⟨[(["agent".toList], .dir)]⟩ {}, call.1.Touches ["data".toList] ∧
        ((∃ root ∈ rootsOf {} ["agent".toList] newWorkdirTask, root <+: ["data".toList]) ∨
          call.1 = .mkdir ["data".toList] ∧ call.2.get? ["data".toList] = none ∧
            ∃ root ∈ rootsOf {} ["agent".toList] newWorkdirTask, ["data".toList] <+: root) := by
  obtain ⟨call, hcall, heq⟩ := mkdir_mem_newWorkdirTask
  have htouch : call.1.Touches ["data".toList] := by
    rw [heq]
    rfl
  exact ⟨call, hcall, htouch,
    native_task_confined plainPython {} ["agent".toList] newWorkdirTask _ {} call hcall _ htouch⟩

/-- The parent of the new workdir is made, and it is no root. -/
theorem parent_of_root_made :
    ¬ ∀ (py : Python) (settings : AgentDirs) (cwd : AbsPath) (task : NativeTask)
        (t : FileTree (List Char) Bytes) (x : Surroundings),
      ∀ call ∈ (executeNativeTask py settings cwd task).trace t x, ∀ path, call.1.Touches path →
        ∃ root ∈ rootsOf settings cwd task, root <+: path := by
  intro h
  obtain ⟨call, hcall, heq⟩ := mkdir_mem_newWorkdirTask
  have hroot := h plainPython {} ["agent".toList] newWorkdirTask _ {} call hcall ["data".toList]
    (by rw [heq]; rfl)
  exact absurd hroot (by decide)

end GpuFleet
