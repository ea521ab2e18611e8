import GpuFleet.Server.Footprint
import GpuFleet.Server.Storage

/-!
# Files on disk

`Files` keeps what is stored by task id, but on disk a file lies at a path, and
the paths of two tasks need not be apart: an id may name the directory of
another task, lie in it, or climb to it.  Then one task's file is another's, or
stands where the directory of another should be.

Ids are clear when they stay inside their directories and none resolves to a
path that leads to that of another.  This is so if and only if the files of
their tasks have paths of their own and none leads through another
(`clearIds_iff`).  For clear ids the files by task id are the files on disk:
what lies at the path of a file is that file (`Files.at_iff`), and neither is a
directory in the way of a file nor a file in the way of a directory.

A run stores files only for tasks with ids that it was asked to create
(`Housed.step`), and its rows name files of their own tasks (`OwnPaths.step`).
-/

namespace GpuFleet

open Foundations Paths

/-! ## Files and their paths -/

/-- A file that may be stored for a task. -/
inductive StoredFile where
  | log (f : LogFile)
  | artifact (f : ArtifactFile)
  deriving DecidableEq

namespace StoredFile

/-- The task that the file is stored for. -/
def taskId : StoredFile → String
  | log f => f.taskId
  | artifact f => f.taskId

/-- The path of the file. -/
def path (root : List (List Char)) : StoredFile → List (List Char)
  | log f => f.path root
  | artifact f => f.path root

/-- Files of the name are stored: that of an artifact is accepted. -/
def Accepted : StoredFile → Prop
  | log _ => True
  | artifact f => sanitizeArtifactName f.name = .ok f.name

/-- The directory of the storage directory that the file lies below. -/
def kind : StoredFile → List Char
  | log _ => "logs".toList
  | artifact _ => "artifacts".toList

/-- The last part of the path of an accepted file. -/
def fileName : StoredFile → List Char
  | log f => logFileName f.stream f.slot
  | artifact f => f.name.toList

end StoredFile

/-- The ids stay inside, and none resolves to a path that leads to that of another. -/
def ClearIds (ids : List String) : Prop :=
  (∀ id ∈ ids, staysInside id = true) ∧
    ∀ id ∈ ids, ∀ id' ∈ ids, resolvedId id <+: resolvedId id' → id = id'

instance (ids : List String) : Decidable (ClearIds ids) :=
  inferInstanceAs (Decidable (_ ∧ _))

section Paths

variable {root : List (List Char)} {ids : List String} {f g : StoredFile}

/-- Archives with different numbers have different names. -/
theorem leftpad_inj {w m n : Nat}
    (h : (Nat.toDigits 10 m).leftpad w '0' = (Nat.toDigits 10 n).leftpad w '0') : m = n := by
  have hvalue : ∀ n, Nat.ofDigitChars 10 ((Nat.toDigits 10 n).leftpad w '0') 0 = n := by
    intro n
    rw [List.leftpad, Nat.ofDigitChars_append, Nat.ofDigitChars_replicate_zero, Nat.mul_zero,
      Nat.ofDigitChars_ten_toDigits]
  rw [← hvalue m, h, hvalue]

theorem length_text (stream : Stream) : stream.text.toList.length = 6 := by
  cases stream <;> rfl

/-- The name of a log file tells its stream and its slot. -/
theorem logFileName_inj {stream stream' : Stream} {slot slot' : LogSlot}
    (h : logFileName stream slot = logFileName stream' slot') : stream = stream' ∧ slot = slot' := by
  have hlengths : stream.text.toList.length = stream'.text.toList.length := by
    rw [length_text, length_text]
  have htext : stream.text.toList = stream'.text.toList → stream = stream' := by
    cases stream <;> cases stream' <;> decide
  -- The name of an archive is longer than that of a live file.
  have harchive : ∀ index, 5 ≤ ((Nat.toDigits 10 index).leftpad 5 '0').length := by
    intro index
    rw [List.length_leftpad]
    exact le_max_left ..
  cases slot with
  | live =>
      cases slot' with
      | live => exact ⟨htext (List.append_inj h hlengths).1, rfl⟩
      | archive index =>
          have hlonger := congrArg List.length h
          have := harchive index
          simp only [logFileName, List.length_append, List.length_cons, length_text] at hlonger
          simp at hlonger
          omega
  | archive index =>
      cases slot' with
      | live =>
          have hlonger := congrArg List.length h
          have := harchive index
          simp only [logFileName, List.length_append, List.length_cons, length_text] at hlonger
          simp at hlonger
          omega
      | archive index' =>
          simp only [logFileName, List.append_cancel_right_eq] at h
          obtain ⟨hstream, hdigits⟩ := List.append_inj h hlengths
          rw [List.cons.injEq] at hdigits
          exact ⟨htext hstream, congrArg LogSlot.archive (leftpad_inj hdigits.2)⟩

/-- The name of a file of a task tells the file. -/
theorem StoredFile.eq_of_fileName (hid : f.taskId = g.taskId) (hkind : f.kind = g.kind)
    (hname : f.fileName = g.fileName) : f = g := by
  cases f with
  | log f =>
      cases g with
      | log g =>
          obtain ⟨hstream, hslot⟩ := logFileName_inj hname
          obtain ⟨taskId, stream, slot⟩ := f
          cases hid
          cases hstream
          cases hslot
          rfl
      | artifact g => cases hkind
  | artifact f =>
      cases g with
      | log g => cases hkind
      | artifact g =>
          obtain ⟨taskId, name⟩ := f
          cases hid
          cases String.toList_inj.mp hname
          rfl

/-- The path of an accepted file of a task that stays inside. -/
theorem StoredFile.path_eq (hinside : staysInside f.taskId = true) (hname : f.Accepted) :
    f.path root = root ++ f.kind :: (resolvedId f.taskId ++ [f.fileName]) := by
  cases f with
  | log f =>
      have hdir : joinPath (logsRoot root) f.taskId = _ := joinPath_of_staysInside hinside _
      rw [path, LogFile.path, hdir, logsRoot, List.append_assoc, List.append_assoc]
      rfl
  | artifact f =>
      have hdir : joinPath (artifactsRoot root) f.taskId = _ := joinPath_of_staysInside hinside _
      rw [path, ArtifactFile.path, joinPath_of_sanitized hname, hdir, artifactsRoot,
        List.append_assoc, List.append_assoc]
      rfl

/-- For clear ids no path of a file leads through another. -/
theorem ClearIds.eq_of_path_prefix (h : ClearIds ids) (hf : f.taskId ∈ ids) (hg : g.taskId ∈ ids)
    (hfname : f.Accepted) (hgname : g.Accepted) (hleads : f.path root <+: g.path root) : f = g := by
  rw [StoredFile.path_eq (h.1 _ hf) hfname, StoredFile.path_eq (h.1 _ hg) hgname,
    List.prefix_append_right_inj, List.cons_prefix_cons, List.prefix_concat_iff] at hleads
  obtain ⟨hkind, hsame | hthrough⟩ := hleads
  · obtain ⟨hid, hname⟩ := List.append_inj' hsame rfl
    have hid : f.taskId = g.taskId := h.2 _ hf _ hg (hid ▸ List.prefix_refl _)
    exact StoredFile.eq_of_fileName hid hkind (List.cons.inj hname).1
  · have hid : f.taskId = g.taskId := h.2 _ hf _ hg ((List.prefix_append _ _).trans hthrough)
    rw [hid] at hthrough
    have hlonger := hthrough.length_le
    simp at hlonger

/-- The parts of a resolved id are names of artifacts. -/
theorem sanitize_of_mem_resolvedId {id : String} {part : List Char} (h : part ∈ resolvedId id) :
    sanitizeArtifactName (String.ofList part) = .ok (String.ofList part) := by
  obtain ⟨hmem, hnotUp⟩ := (mem_walk h).resolve_left List.not_mem_nil
  obtain ⟨hsplit, hproper⟩ := List.mem_filter.mp hmem
  have htail : pathTail (String.ofList part) = [part] := by
    rw [pathTail, String.toList_ofList, splitOnChar_of_notMem (notMem_of_mem_splitOnChar hsplit)]
    simp only [List.filter_cons, hproper, if_true, List.filter_nil]
  have hname : pathName (String.ofList part) = String.ofList part := by
    rw [pathName, htail]
    rfl
  have hne : ∀ s : List Char, part ≠ s → String.ofList part ≠ String.ofList s := fun s hs heq =>
    hs (by rw [← String.toList_ofList (l := part), heq, String.toList_ofList])
  simp only [decide_eq_true_eq] at hproper
  rw [sanitizeArtifactName, hname, if_neg]
  rintro (hempty | hdot | hup | hother)
  · exact hne [] hproper.1 hempty
  · exact hne ['.'] hproper.2 hdot
  · exact hne ['.', '.'] hnotUp hup
  · exact hother rfl

/-- Ids are clear if and only if no path of a file of their tasks leads through another. -/
theorem clearIds_iff : (∀ f g : StoredFile, f.taskId ∈ ids → g.taskId ∈ ids → f.Accepted →
      g.Accepted → f.path root <+: g.path root → f = g) ↔ ClearIds ids := by
  refine ⟨fun h => ?_, fun h _ _ hf hg hfname hgname => h.eq_of_path_prefix hf hg hfname hgname⟩
  let live (id : String) : StoredFile := .log ⟨id, .stdout, .live⟩
  let artifact (id name : String) : StoredFile := .artifact ⟨id, name⟩
  have hinside : ∀ id ∈ ids, staysInside id = true := by
    intro id hid
    by_contra hclimbs
    -- The log and an artifact with its name.
    have hdir := joinPath_of_not_staysInside (Bool.eq_false_iff.mpr hclimbs) root
    have haccepted : sanitizeArtifactName "stdout.log" = .ok "stdout.log" := by rfl
    have hname : logFileName .stdout .live = "stdout.log".toList := by decide
    have hsame : (live id).path root = (artifact id "stdout.log").path root := by
      show joinPath (logsRoot root) id ++ [logFileName .stdout .live] =
        joinPath (joinPath (artifactsRoot root) id) "stdout.log"
      rw [joinPath_of_sanitized haccepted, hdir, hname]
    have heq := h (live id) (artifact id "stdout.log") hid hid trivial haccepted
      (hsame ▸ List.prefix_refl _)
    cases heq
  refine ⟨hinside, fun id hid id' hid' ⟨rest, hrest⟩ => ?_⟩
  cases rest with
  | nil =>
      rw [List.append_nil] at hrest
      have hlog : ∀ id ∈ ids, (live id).path root =
          root ++ "logs".toList :: (resolvedId id ++ [logFileName .stdout .live]) :=
        fun id hid => StoredFile.path_eq (hinside id hid) trivial
      have hsame : (live id).path root = (live id').path root := by
        rw [hlog id hid, hlog id' hid', hrest]
      exact congrArg StoredFile.taskId
        (h (live id) (live id') hid hid' trivial trivial (hsame ▸ List.prefix_refl _))
  | cons part rest =>
      -- An artifact with the name of the directory that leads to the other task.
      have haccepted : sanitizeArtifactName (String.ofList part) = .ok (String.ofList part) :=
        sanitize_of_mem_resolvedId (by rw [← hrest]; simp : part ∈ resolvedId id')
      have hfile : (artifact id (String.ofList part)).path root =
          root ++ "artifacts".toList :: (resolvedId id ++ [(String.ofList part).toList]) :=
        StoredFile.path_eq (hinside id hid) haccepted
      have hbelow : (artifact id' "a").path root =
          root ++ "artifacts".toList :: (resolvedId id' ++ ["a".toList]) :=
        StoredFile.path_eq (hinside id' hid') sanitizeArtifactName_a
      have hprefix : (artifact id (String.ofList part)).path root <+:
          (artifact id' "a").path root := by
        refine ⟨rest ++ ["a".toList], ?_⟩
        rw [hfile, hbelow, ← hrest, String.toList_ofList]
        simp
      exact congrArg StoredFile.taskId (h (artifact id (String.ofList part)) (artifact id' "a")
        hid hid' haccepted sanitizeArtifactName_a hprefix)

end Paths

example : ClearIds ["t", "u"] ∧ ¬ ClearIds ["t", "./t"] ∧ ¬ ClearIds ["t", "t/stdout.log"] ∧
    ¬ ClearIds ["../t"] := by
  decide

/-! ## Contents -/

/-- What is in a file: the text of a log, or the bytes of an artifact. -/
inductive Content where
  | text (t : List Char)
  | bytes (b : List Nat)

namespace Files

/-- The content of a file, if the file exists. -/
def read (files : Files) : StoredFile → Option Content
  | .log f => (files.log? f).map .text
  | .artifact f => (files.artifacts.lookup f).map .bytes

/-- The content lies at the path. -/
def At (files : Files) (root path : List (List Char)) (content : Content) : Prop :=
  ∃ f, files.read f = some content ∧ f.path root = path

/-- The files are of tasks with these ids, and have accepted names. -/
def Within (files : Files) (ids : List String) : Prop :=
  ∀ f content, files.read f = some content → f.taskId ∈ ids ∧ f.Accepted

section At

variable {files files' : Files} {root : List (List Char)} {ids : List String} {f : StoredFile}
  {content : Content}

/-- For clear ids, what lies at the path of a file is its content. -/
theorem at_iff (h : ClearIds ids) (hfiles : files.Within ids) (hf : f.taskId ∈ ids)
    (hname : f.Accepted) : files.At root (f.path root) content ↔ files.read f = some content := by
  constructor
  · rintro ⟨g, hread, hpath⟩
    obtain ⟨hg, hgname⟩ := hfiles g content hread
    have hprefix : g.path root <+: f.path root := hpath ▸ List.prefix_refl (g.path root)
    rwa [← h.eq_of_path_prefix hg hf hgname hname hprefix]
  · exact fun hread => ⟨f, hread, rfl⟩

theorem Within.imp (h : files.Within ids)
    (hread : ∀ f content, files'.read f = some content → files.read f = some content) :
    files'.Within ids := fun f content hf => h f content (hread f content hf)

end At

end Files

/-! ## Where a run stores its files -/

/-- The id of the task that an operation is asked to create. -/
def StorageOp.createdId : StorageOp → Option String
  | .system (.createTask payload ctx) => some (orElse payload.taskId ctx.freshTaskId)
  | _ => none

/-- The ids of the tasks that a run is asked to create. -/
def createdIds (ops : List StorageOp) : List String := ops.filterMap StorageOp.createdId

/-- The tasks have these ids, and all files are of such tasks. -/
structure Housed (ids : List String) (s : Store) : Prop where
  tasks : ∀ row ∈ s.db.tasks.rows, row.taskId ∈ ids
  files : s.world.files.Within ids

/-- The rows name files of their own tasks. -/
structure OwnPaths (db : Db) : Prop where
  log : ∀ taskId stream f, storedPath (db.logs.get? (taskId, stream)) = some f →
    f = liveFile taskId stream
  artifact : ∀ row ∈ db.artifacts.rows, row.storagePath.taskId = row.taskId

theorem Housed.empty {ids : List String} : Housed ids {} where
  tasks row hrow := by cases hrow
  files f content hread := by cases f <;> cases hread

theorem OwnPaths.empty : OwnPaths {} where
  log taskId stream f hpath := by cases hpath
  artifact row hrow := by cases hrow

section Steps

variable {site : Site} {s : Store} {ids : List String}

theorem Housed.mem (h : Housed ids s) {taskId : String} {row : Task}
    (hrow : s.db.tasks.get? taskId = some row) : taskId ∈ ids := by
  have hid : row.taskId = taskId := Table.get?_key hrow
  exact hid ▸ h.tasks row (Table.get?_mem hrow)

/-- A chunk stores only files of its task. -/
theorem Housed.taskLogChunk (h : Housed ids s) (nodeId : String) (payload : NodeTaskLogChunkRequest)
    (now : Nat) :
    let p := GpuFleet.taskLogChunk site.settings site.gzipSize nodeId payload now
    Housed ids ⟨p.dbAfter s.db s.world, p.outsideAfter s.db s.world⟩ := by
  intro p
  rcases taskLogChunk_frame site.settings site.gzipSize nodeId payload now s.db s.world with
    ⟨hdb, hfiles⟩ | ⟨⟨row, hrow, -⟩, ⟨hartifacts, -, hothers⟩, hdb⟩
  · refine ⟨?_, ?_⟩
    · rw [hdb]
      exact h.tasks
    · rw [hfiles]
      exact h.files
  · refine ⟨?_, fun f content hread => ?_⟩
    · rcases hdb with hdb | ⟨q, hdb, -⟩ <;> rw [hdb]
      · exact h.tasks
      · exact h.tasks
    · cases f with
      | log f =>
          by_cases hkey : (f.taskId, f.stream) = (payload.taskId, payload.stream)
          · have hid : f.taskId = payload.taskId := congrArg Prod.fst hkey
            refine ⟨?_, trivial⟩
            rw [StoredFile.taskId, hid]
            exact h.mem hrow
          · rw [Files.read, hothers f hkey] at hread
            exact h.files (.log f) content hread
      | artifact f =>
          rw [Files.read, hartifacts] at hread
          exact h.files (.artifact f) content hread

/-- An upload stores only a file of its task. -/
theorem Housed.artifactUpload (h : Housed ids s) (nodeId : String)
    (payload : NodeArtifactUploadRequest) (now : Nat) :
    let p := GpuFleet.artifactUpload site.settings nodeId payload now
    Housed ids ⟨p.dbAfter s.db s.world, p.outsideAfter s.db s.world⟩ := by
  intro p
  rcases artifactUpload_outcome site.settings nodeId payload now s.db s.world with
    ⟨-, hdb, hx⟩ | ⟨bytes, ack, existing, -, ⟨row, hrow, -⟩, hname, -, hdb, -, hx⟩
  · rw [hdb, hx]
    exact h
  · rw [hdb, hx]
    refine ⟨h.tasks, fun f content hread => ?_⟩
    by_cases hf : f = .artifact payload.file
    · subst hf
      exact ⟨h.mem hrow, hname⟩
    · refine h.files f content (hread ▸ ?_)
      cases f with
      | log f => rfl
      | artifact f =>
          have hne : f ≠ payload.file := fun heq => hf (congrArg _ heq)
          rw [Files.read, Files.read, Files.writeArtifact, AList.lookup_insert_ne hne]

/-- An operation of the server creates only a task that it is asked to create. -/
theorem Housed.system (h : Housed ids s) (op : SystemOp)
    (hid : ∀ id, (StorageOp.system op).createdId = some id → id ∈ ids) :
    Housed ids ((StorageOp.system op).run site s).2 := by
  have hruns : (op.step site.settings site.crypto s.db s.world).Runs site.settings site.crypto
      s.world := op.step_runs s.db s.world
  constructor
  · refine hruns.keeps (I := fun db => ∀ row ∈ db.tasks.rows, row.taskId ∈ ids)
      (fun q w hq hw => ?_) h.tasks
    cases q with
    | task q =>
        intro row hrow
        rcases TaskStmt.mem_apply_cases hrow with
          ⟨old, hold, rfl⟩ | ⟨old, hold, -, rfl⟩ | ⟨new, rfl, rfl⟩
        · exact hw row hold
        · rw [(q.edit_frame old).2.1]
          exact hw old hold
        · obtain ⟨⟨payload, ctx, taskId, key, rfl, rfl, -, -, rfl⟩, -⟩ := hq
          exact hid _ rfl
    | _ => exact hw
  · show (Prog.outsideAfter _ s.db s.world).files.Within ids
    rw [op.files_after site.settings site.crypto s.db s.world]
    exact h.files

/-- An operation stores files only of the tasks there are, and creates only a task that it is asked
to create. -/
theorem Housed.step (h : Housed ids s) (op : StorageOp)
    (hid : ∀ id, op.createdId = some id → id ∈ ids) : Housed ids (op.run site s).2 := by
  cases op with
  | request r => exact r.run_keeps h (h.taskLogChunk) (h.artifactUpload)
  | system op => exact h.system op hid
  | pruneLogs now =>
      rcases StorageOp.pruneLogs_cases site now s with hsame | ⟨cutoff, -, hrun⟩
      · rw [hsame]
        exact h
      · rw [hrun]
        refine ⟨h.tasks, h.files.imp fun f content hread => ?_⟩
        cases f with
        | log f =>
            rw [Files.read, log?_eraseLogs] at hread
            split at hread
            · cases hread
            · exact hread
        | artifact f => exact hread
  | pruneArtifacts now =>
      rcases StorageOp.pruneArtifacts_cases site now s with
        hsame | ⟨cutoff, artifacts, -, hrun, -, hleft⟩
      · rw [hsame]
        exact h
      · rw [hrun]
        refine ⟨h.tasks, h.files.imp fun f content hread => ?_⟩
        cases f with
        | log f => exact hread
        | artifact f =>
            obtain ⟨bytes, hbytes, rfl⟩ := Option.map_eq_some_iff.mp hread
            rw [Files.read, hleft f bytes hbytes, Option.map_some]
  | deleteNode nodeId requestIp admin now =>
      have hafter := deleteNode_after now s.db s.world nodeId requestIp admin
      simp only [StorageOp.run] at hafter ⊢
      rcases hafter with ⟨-, hsame⟩ | ⟨-, hworld, htasks, -⟩
      · rw [hsame]
        exact h
      · rw [hworld]
        refine ⟨fun row hrow => ?_, h.files⟩
        rw [htasks] at hrow
        exact h.tasks row (List.mem_of_mem_filter hrow)

/-- A chunk stores only the path of a file of its stream. -/
theorem OwnPaths.taskLogChunk (h : OwnPaths s.db) (nodeId : String)
    (payload : NodeTaskLogChunkRequest) (now : Nat) :
    OwnPaths ((GpuFleet.taskLogChunk site.settings site.gzipSize nodeId payload now).dbAfter s.db
      s.world) := by
  rcases taskLogChunk_frame site.settings site.gzipSize nodeId payload now s.db s.world with
    ⟨hdb, -⟩ | ⟨-, -, hdb | ⟨q, hdb, hothers, hown⟩⟩ <;> rw [hdb]
  · exact h
  · exact h
  · refine ⟨fun taskId stream f hpath => ?_, h.artifact⟩
    have hpath : storedPath ((q.apply s.db.logs).get? (taskId, stream)) = some f := hpath
    by_cases hkey : (taskId, stream) = (payload.taskId, payload.stream)
    · obtain ⟨rfl, rfl⟩ := Prod.mk.inj hkey
      rcases hown with hsame | hlive
      · exact h.log _ _ f (hsame ▸ hpath)
      · exact (Option.some.inj (hlive.symm.trans hpath)).symm
    · exact h.log _ _ f (hothers _ hkey ▸ hpath)

/-- The row that an upload stores names a file in the directory of its task. -/
theorem storeArtifact_directory {artifacts : Table Artifact}
    (h : ∀ row ∈ artifacts.rows, row.storagePath.taskId = row.taskId) {existing : Option Artifact}
    {payload : NodeArtifactUploadRequest}
    (hexisting : ∀ row, existing = some row → row ∈ artifacts.rows ∧ row.taskId = payload.taskId)
    {artifactName : String} {sizeBytes : Nat} {nowIso : String} :
    ∀ row ∈ ((storeArtifact existing payload artifactName sizeBytes nowIso).apply artifacts).rows,
      row.storagePath.taskId = row.taskId := by
  intro row hrow
  cases existing with
  | none =>
      simp only [storeArtifact, ArtifactStmt.apply] at hrow
      rcases Table.mem_insert hrow with hold | rfl
      · exact h row hold
      · rfl
  | some old =>
      obtain ⟨hmem, htask⟩ := hexisting old rfl
      simp only [storeArtifact, ArtifactStmt.apply, Table.mem_update] at hrow
      obtain ⟨before, hbefore, rfl⟩ := hrow
      split
      · rename_i hid
        rw [Table.eq_of_id hbefore hmem (of_decide_eq_true hid)]
        exact htask.symm
      · exact h before hbefore

/-- An upload stores only the path of a file of its task. -/
theorem OwnPaths.artifactUpload (h : OwnPaths s.db) (nodeId : String)
    (payload : NodeArtifactUploadRequest) (now : Nat) :
    OwnPaths ((GpuFleet.artifactUpload site.settings nodeId payload now).dbAfter s.db s.world) := by
  rcases artifactUpload_outcome site.settings nodeId payload now s.db s.world with
    ⟨-, hdb, -⟩ | ⟨content, ack, existing, -, -, -, -, hdb, hexisting, -⟩ <;> rw [hdb]
  · exact h
  · refine ⟨h.log, storeArtifact_directory h.artifact fun row hrow => ?_⟩
    have hmem := List.mem_of_mem_head? (hexisting ▸ hrow)
    obtain ⟨hmem, hkey⟩ := List.mem_filter.mp hmem
    simp only [Bool.and_eq_true, decide_eq_true_eq] at hkey
    exact ⟨hmem, hkey.1⟩

/-- Rows that were there before name files of their own tasks. -/
theorem OwnPaths.imp {db db' : Db} (h : OwnPaths db)
    (hlogs : ∀ key row, db'.logs.get? key = some row → db.logs.get? key = some row)
    (hartifacts : ∀ row ∈ db'.artifacts.rows, row ∈ db.artifacts.rows) : OwnPaths db' where
  log taskId stream f hpath := by
    obtain ⟨row, hrow, hf⟩ := Option.bind_eq_some_iff.mp hpath
    exact h.log taskId stream f (by rw [hlogs _ row hrow, storedPath, Option.bind_some, hf])
  artifact row hrow := h.artifact row (hartifacts row hrow)

theorem get?_of_delete {α : Type} [Row α] {t : Table α} {p : α → Bool} {key : Row.Key α} {row : α}
    (h : (t.delete p).get? key = some row) : t.get? key = some row := by
  rw [Table.get?_delete] at h
  exact (Option.filter_eq_some_iff.mp h).1

/-- The rows of a run name files of their own tasks. -/
theorem OwnPaths.step (h : OwnPaths s.db) (op : StorageOp) : OwnPaths (op.run site s).2.db := by
  cases op with
  | request r =>
      exact r.run_keeps (I := fun s => OwnPaths s.db) h (h.taskLogChunk) (h.artifactUpload)
  | system op =>
      have hruns : (op.step site.settings site.crypto s.db s.world).Runs site.settings site.crypto
          s.world := op.step_runs s.db s.world
      obtain ⟨hlogs, hartifacts⟩ := hruns.logs_artifacts
      exact h.imp (fun _ _ hrow => hlogs ▸ hrow) fun _ hrow => hartifacts ▸ hrow
  | pruneLogs now =>
      rcases StorageOp.pruneLogs_cases site now s with hsame | ⟨cutoff, -, hrun⟩
      · rw [hsame]
        exact h
      · rw [hrun]
        exact h.imp (fun _ _ => get?_of_delete) fun _ => id
  | pruneArtifacts now =>
      rcases StorageOp.pruneArtifacts_cases site now s with hsame | ⟨cutoff, artifacts, -, hrun, -⟩
      · rw [hsame]
        exact h
      · rw [hrun]
        exact h.imp (fun _ _ => id) fun _ => List.mem_of_mem_filter
  | deleteNode nodeId requestIp admin now =>
      have hafter := deleteNode_after now s.db s.world nodeId requestIp admin
      simp only [StorageOp.run] at hafter ⊢
      rcases hafter with ⟨-, hsame⟩ | ⟨-, -, -, hlogs, hartifacts⟩
      · rw [hsame]
        exact h
      · exact h.imp (fun _ _ hrow => get?_of_delete (hlogs ▸ hrow)) fun _ hrow =>
          List.mem_of_mem_filter (hartifacts ▸ hrow)

end Steps

/-! ## What a step leaves on disk -/

/-- At the paths of the files of the spared tasks lies after the step what lay there before. -/
def StoreStep.LeavesOnDisk (t : StoreStep) (root : List (List Char)) (ids : List String)
    (spared : String → Prop) : Prop :=
  ∀ f : StoredFile, f.taskId ∈ ids → f.Accepted → spared f.taskId → ∀ content,
    t.after.world.files.At root (f.path root) content ↔
      t.before.world.files.At root (f.path root) content

/-- For clear ids, a step that leaves the files of the spared tasks leaves them on disk. -/
theorem StoreStep.leavesOnDisk {t : StoreStep} {root : List (List Char)} {ids : List String}
    {spared : String → Prop} (h : ClearIds ids) (hbefore : Housed ids t.before)
    (hafter : Housed ids t.after)
    (hspared : ∀ f : StoredFile, spared f.taskId →
      t.after.world.files.read f = t.before.world.files.read f) :
    t.LeavesOnDisk root ids spared := by
  intro f hf hname hs content
  rw [Files.at_iff h hafter.files hf hname, Files.at_iff h hbefore.files hf hname, hspared f hs]

end GpuFleet
