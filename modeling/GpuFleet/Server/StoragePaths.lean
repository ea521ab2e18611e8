import GpuFleet.Foundations.Paths
import GpuFleet.Server.Artifacts

/-!
# Where files are stored

The logs of a task lie in the directory `logs/<task_id>` of the storage
directory and its artifacts in `artifacts/<task_id>`.  The task id is joined to
the path as it is, and `create_task` takes any id; so an id can be absolute,
climb out of its directory, or name the directory of another task.

Two tasks keep their files below these directories and apart from each other if
and only if their ids neither are absolute nor climb, and resolve to different
paths (`stored_files_iff`).
-/

namespace GpuFleet

open Foundations Paths

/-- The part that leads to the parent directory. -/
def parentPart : List Char := ['.', '.']

/-- The path starts at the root of the file system. -/
def isAbsolutePath (raw : String) : Bool := raw.toList.head? = some '/'

/-- `dir / raw`, without the parts that lead nowhere or up. -/
def joinPath (dir : List (List Char)) (raw : String) : List (List Char) :=
  walk parentPart (if isAbsolutePath raw then [] else dir) (pathTail raw)

section Paths

variable (root : List (List Char))

/-- `storage_path / "logs"` -/
def logsRoot : List (List Char) := root ++ ["logs".toList]

/-- `storage_path / "artifacts"` -/
def artifactsRoot : List (List Char) := root ++ ["artifacts".toList]

/-- The name of a log file: `<stream>.log`, or `<stream>.<index>.log.gz` with at least five
digits. -/
def logFileName (stream : Stream) : LogSlot → List Char
  | .live => stream.text.toList ++ ".log".toList
  | .archive index =>
      stream.text.toList ++ '.' :: (Nat.toDigits 10 index).leftpad 5 '0' ++ ".log.gz".toList

/-- The path of a log file. -/
def LogFile.path (f : LogFile) : List (List Char) :=
  joinPath (logsRoot root) f.taskId ++ [logFileName f.stream f.slot]

/-- The path of an artifact. -/
def ArtifactFile.path (f : ArtifactFile) : List (List Char) :=
  joinPath (joinPath (artifactsRoot root) f.taskId) f.name

/-- The files that can be written for a task. -/
inductive StoredFor (taskId : String) : List (List Char) → Prop where
  | log (stream : Stream) (slot : LogSlot) : StoredFor taskId (LogFile.path root ⟨taskId, stream, slot⟩)
  | artifact (name : String) : sanitizeArtifactName name = .ok name →
      StoredFor taskId (ArtifactFile.path root ⟨taskId, name⟩)

/-- The logs of the task lie below `logs`, and its artifacts below `artifacts`. -/
structure Confined (taskId : String) : Prop where
  logs : ∀ stream slot, Below (logsRoot root) (LogFile.path root ⟨taskId, stream, slot⟩)
  artifacts : ∀ name, sanitizeArtifactName name = .ok name →
    Below (artifactsRoot root) (ArtifactFile.path root ⟨taskId, name⟩)

/-- No file of one task is a file of the other. -/
def Apart (taskId taskId' : String) : Prop :=
  ∀ path, StoredFor root taskId path → ¬ StoredFor root taskId' path

end Paths

/-- The task id is relative and never climbs above its directory. -/
def staysInside (taskId : String) : Bool :=
  !isAbsolutePath taskId && Stays parentPart 0 (pathTail taskId)

/-- The relative path a task id resolves to. -/
def resolvedId (taskId : String) : List (List Char) := walk parentPart [] (pathTail taskId)

/-! ## Names -/

theorem splitOnChar_cons (sep c : Char) (s : List Char) :
    ∃ w ws, splitOnChar sep s = w :: ws ∧
      splitOnChar sep (c :: s) = if c = sep then [] :: w :: ws else (c :: w) :: ws := by
  have hsome : ∃ w ws, splitOnChar sep s = w :: ws := by
    induction s with
    | nil => exact ⟨[], [], rfl⟩
    | cons d s ih =>
        obtain ⟨w, ws, hs⟩ := ih
        rw [splitOnChar, hs]
        by_cases hd : d = sep
        · exact ⟨[], w :: ws, if_pos hd⟩
        · exact ⟨d :: w, ws, if_neg hd⟩
  obtain ⟨w, ws, hs⟩ := hsome
  exact ⟨w, ws, hs, by rw [splitOnChar, hs]⟩

/-- No part holds the separator. -/
theorem notMem_of_mem_splitOnChar {sep : Char} {s w : List Char} (h : w ∈ splitOnChar sep s) :
    sep ∉ w := by
  induction s generalizing w with
  | nil =>
      cases List.mem_singleton.mp h
      exact List.not_mem_nil
  | cons c s ih =>
      obtain ⟨v, vs, hs, hcons⟩ := splitOnChar_cons sep c s
      rw [hcons] at h
      rw [hs] at ih
      split at h
      · rcases List.mem_cons.mp h with rfl | h
        · exact List.not_mem_nil
        · exact ih h
      · rename_i hc
        rcases List.mem_cons.mp h with rfl | h
        · rw [List.mem_cons, not_or]
          exact ⟨Ne.symm hc, ih (List.mem_cons_self ..)⟩
        · exact ih (List.mem_cons_of_mem _ h)

theorem splitOnChar_of_notMem {sep : Char} {s : List Char} (h : sep ∉ s) :
    splitOnChar sep s = [s] := by
  induction s with
  | nil => rfl
  | cons c s ih =>
      rw [List.mem_cons, not_or] at h
      rw [splitOnChar, ih h.2]
      simp [Ne.symm h.1]

/-- An accepted name is a single part. -/
theorem joinPath_of_sanitized {name : String} (h : sanitizeArtifactName name = .ok name)
    (dir : List (List Char)) : joinPath dir name = dir ++ [name.toList] := by
  simp only [sanitizeArtifactName] at h
  split at h
  · cases h
  · rename_i hname
    simp only [not_or, not_not] at hname
    obtain ⟨hempty, -, hup, hsame⟩ := hname
    have hpart : name.toList ∈ pathTail name := by
      cases hlast : (pathTail name).getLast? with
      | none =>
          rw [pathName, hlast] at hempty
          exact absurd rfl hempty
      | some part =>
          have hpart : String.ofList part = name := by
            rw [pathName, hlast] at hsame
            exact hsame
          have hlist : part = name.toList := by rw [← hpart, String.toList_ofList]
          exact hlist ▸ List.mem_of_getLast? hlast
    obtain ⟨hsplit, hproper⟩ := List.mem_filter.mp hpart
    have hslash : '/' ∉ name.toList := notMem_of_mem_splitOnChar hsplit
    have htail : pathTail name = [name.toList] := by
      rw [pathTail, splitOnChar_of_notMem hslash]
      simp only [List.filter_cons, hproper, if_true, List.filter_nil]
    have hrelative : isAbsolutePath name = false := by
      rw [isAbsolutePath, decide_eq_false_iff_not]
      exact fun hhead => hslash (List.mem_of_head? hhead)
    have hnotUp : name.toList ≠ parentPart := by
      intro heq
      refine hup (hsame.trans ?_)
      rw [← String.ofList_toList (s := name), heq]
      rfl
    rw [joinPath, hrelative, htail]
    exact walk_singleton hnotUp

/-! ## Confinement -/

section Confinement

variable {root : List (List Char)} {taskId taskId' : String}

/-- Some artifact can always be stored. -/
theorem sanitizeArtifactName_a : sanitizeArtifactName "a" = .ok "a" := by
  rfl

/-- The directory of a task that stays inside. -/
theorem joinPath_of_staysInside (h : staysInside taskId = true) (dir : List (List Char)) :
    joinPath dir taskId = dir ++ resolvedId taskId := by
  simp only [staysInside, Bool.and_eq_true, Bool.not_eq_true'] at h
  obtain ⟨hrelative, hstays⟩ := h
  have hwalk : walk parentPart (dir ++ []) (pathTail taskId) = _ := walk_append hstays
  rw [List.append_nil] at hwalk
  rw [joinPath, hrelative, resolvedId]
  exact hwalk

/-- The directories of a task that does not stay inside are one. -/
theorem joinPath_of_not_staysInside (h : staysInside taskId = false) (root : List (List Char)) :
    joinPath (logsRoot root) taskId = joinPath (artifactsRoot root) taskId := by
  simp only [staysInside, Bool.and_eq_false_iff, Bool.not_eq_false'] at h
  unfold joinPath
  cases habsolute : isAbsolutePath taskId with
  | true => rfl
  | false =>
      have hclimbs := h.resolve_left (by rw [habsolute]; exact Bool.false_ne_true)
      have hlength : Stays parentPart ([] : List (List Char)).length (pathTail taskId) = false :=
        hclimbs
      exact walk_siblings hlength

/-- A task is confined if and only if its id stays inside. -/
theorem confined_iff : Confined root taskId ↔ staysInside taskId = true := by
  constructor
  · intro h
    by_contra hnot
    have hsame := joinPath_of_not_staysInside (Bool.eq_false_iff.mpr hnot) root
    have hlogs := below_concat_iff.mp (h.logs .stdout .live)
    have hartifacts := h.artifacts "a" sanitizeArtifactName_a
    rw [ArtifactFile.path, joinPath_of_sanitized sanitizeArtifactName_a] at hartifacts
    have hartifacts := below_concat_iff.mp hartifacts
    rw [← hsame] at hartifacts
    exact absurd (eq_of_prefix_siblings hlogs hartifacts) (by decide)
  · intro h
    constructor
    · intro stream slot
      rw [LogFile.path, joinPath_of_staysInside h]
      exact below_concat_iff.mpr (List.prefix_append _ _)
    · intro name hname
      rw [ArtifactFile.path, joinPath_of_sanitized hname, joinPath_of_staysInside h]
      exact below_concat_iff.mpr (List.prefix_append _ _)

/-- The directory of a file of a task that stays inside. -/
theorem StoredFor.directory (h : staysInside taskId = true) {path : List (List Char)}
    (hpath : StoredFor root taskId path) :
    ∃ kind name, path = root ++ kind :: resolvedId taskId ++ [name] := by
  cases hpath with
  | log stream slot =>
      refine ⟨"logs".toList, logFileName stream slot, ?_⟩
      rw [LogFile.path, joinPath_of_staysInside h, logsRoot, List.append_assoc root]
      rfl
  | artifact name hname =>
      refine ⟨"artifacts".toList, name.toList, ?_⟩
      rw [ArtifactFile.path, joinPath_of_sanitized hname, joinPath_of_staysInside h, artifactsRoot,
        List.append_assoc root]
      rfl

/-- Tasks that stay inside are apart if and only if their ids resolve to different paths. -/
theorem apart_iff (h : staysInside taskId = true) (h' : staysInside taskId' = true) :
    Apart root taskId taskId' ↔ resolvedId taskId ≠ resolvedId taskId' := by
  constructor
  · intro hapart heq
    have hsame : LogFile.path root ⟨taskId, .stdout, .live⟩ =
        LogFile.path root ⟨taskId', .stdout, .live⟩ := by
      rw [LogFile.path, LogFile.path, joinPath_of_staysInside h, joinPath_of_staysInside h', heq]
    refine hapart _ (.log .stdout .live) ?_
    rw [hsame]
    exact .log .stdout .live
  · intro hne path hpath hpath'
    obtain ⟨kind, name, rfl⟩ := hpath.directory h
    obtain ⟨kind', name', heq⟩ := hpath'.directory h'
    have hdir := (List.append_inj' heq rfl).1
    have htail := List.append_cancel_left hdir
    exact hne (List.cons.inj htail).2

end Confinement

/-- Two tasks keep their files confined and, when they are different tasks, apart, if and only if
their ids stay inside and resolve to different paths. -/
theorem stored_files_iff (root : List (List Char)) (taskId taskId' : String) :
    (Confined root taskId ∧ Confined root taskId' ∧
        (taskId ≠ taskId' → Apart root taskId taskId')) ↔
      staysInside taskId = true ∧ staysInside taskId' = true ∧
        (taskId ≠ taskId' → resolvedId taskId ≠ resolvedId taskId') := by
  rw [confined_iff, confined_iff]
  refine and_congr_right fun h => and_congr_right fun h' => ?_
  exact imp_congr_right fun _ => apart_iff h h'

/-- The task id is that of a task `create_task` accepts. -/
def AcceptedTaskId (taskId : String) : Prop :=
  ∃ payload ctx db x detail, (createTask payload ctx).resultOf db x = .ok detail ∧
    detail.row.taskId = taskId

/-- The answer to a request for a task with an id that the administrator chose. -/
def createNamed (taskId : String) : Except Exc AdminTaskDetail :=
  (createTask { nodeId := "n", type := .healthCheck, taskId := some taskId }
    { admin := ⟨1, "admin"⟩, review := none, freshTaskId := "", freshKey := "", now := 0
      reviewedAt := 0 }).resultOf oneNodeDb {}

/-- An id that climbs out of its directory, next to one that does not. -/
theorem stored_files_escape :
    ¬ ∀ (root : List (List Char)) (taskId taskId' : String), AcceptedTaskId taskId →
      AcceptedTaskId taskId' → Confined root taskId ∧ Confined root taskId' ∧
        (taskId ≠ taskId' → Apart root taskId taskId') := by
  intro h
  have accepted : ∀ taskId, (createNamed taskId).toOption.any (fun d => d.row.taskId = taskId) →
      AcceptedTaskId taskId := by
    intro taskId hcreated
    cases hreply : createNamed taskId with
    | error e =>
        rw [hreply] at hcreated
        cases hcreated
    | ok detail =>
        rw [hreply] at hcreated
        exact ⟨_, _, _, _, detail, hreply, of_decide_eq_true hcreated⟩
  obtain ⟨hconfined, -⟩ := h [] "../t" "t" (accepted _ (by decide +kernel))
    (accepted _ (by decide +kernel))
  exact absurd (confined_iff.mp hconfined) (by decide)

/-- Two ids that name one directory. -/
example : staysInside "t" ∧ staysInside "./t" ∧ resolvedId "t" = resolvedId "./t" := by decide

end GpuFleet
