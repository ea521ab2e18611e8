import GpuFleet.Agent.LogBytes
import GpuFleet.Foundations.JsonWriter
import GpuFleet.Foundations.Strict

/-!
# The state files of the agent

`save_json` writes a dictionary as indented JSON in UTF-8, and `load_json` reads
it again.  In between stand the line ends of the host: a line feed becomes two
characters on Windows, and reading makes it one again.

`write_text` empties the file before it writes, so an agent that is stopped within
it leaves the front of what it was writing.  Such a file is never read as a state
(`loadJson_torn`): the agent that comes up again raises wherever it asks for its
task, and starts none.

`log_offsets.json` is written by three functions that each load it, change it and
save it.  Over any run of them it is a table of the offsets acknowledged, by task
and stream (`offsets_refine_table`).

The bytes are those of a host that stores what it was given: a disk that loses
what was written, or keeps a later part without an earlier one, is left out.
-/

namespace GpuFleet

open Foundations Foundations.JsonText

/-! ## Text files -/

/-- `os.linesep` -/
inductive Linesep where
  | lf
  | crlf
  deriving DecidableEq

def Linesep.text : Linesep → List Char
  | .lf => ['\n']
  | .crlf => ['\r', '\n']

/-- `Path.write_text` with `encoding="utf-8"`. -/
def writeTextFile (linesep : Linesep) (text : List Char) : List UInt8 :=
  (text.flatMap fun c => if c = '\n' then linesep.text else [c]).flatMap String.utf8EncodeChar

/-- `Path.read_text` with `encoding="utf-8"`, unless it raises. -/
def readTextFile (file : List UInt8) : Option (List Char) :=
  (decodeStrict readUtf8 file).map universalNewlines

section Text

variable {linesep : Linesep} {text : List Char} {front back : List UInt8}

theorem universalNewlines_linesep (h : '\r' ∉ text) :
    universalNewlines (text.flatMap fun c => if c = '\n' then linesep.text else [c]) = text := by
  induction text with
  | nil => rfl
  | cons c text ih =>
      have hc : c ≠ '\r' := fun heq => h (by simp [heq])
      have hrest := ih fun hmem => h (by simp [hmem])
      rw [List.flatMap_cons]
      split
      · rename_i hn
        subst hn
        cases linesep with
        | lf =>
            rw [Linesep.text, List.singleton_append, universalNewlines_cons (by decide)]
            exact congrArg _ hrest
        | crlf => simpa [Linesep.text, universalNewlines] using hrest
      · rw [List.singleton_append, universalNewlines_cons hc]
        exact congrArg _ hrest

theorem readTextFile_writeTextFile (h : '\r' ∉ text) :
    readTextFile (writeTextFile linesep text) = some text := by
  rw [readTextFile, writeTextFile, decodeStrict_encode codes_utf8, Option.map_some,
    universalNewlines_linesep h]

/-- Of a file that stops before its end at most a proper front of its text is read. -/
theorem readTextFile_torn {last : Char} (h : '\r' ∉ text) (hlast : last ≠ '\n')
    (hfile : writeTextFile linesep (text ++ [last]) = front ++ back) (hback : back ≠ [])
    {text' : List Char} (hread : readTextFile front = some text') :
    ∃ rest, text ++ [last] = text' ++ rest ∧ rest ≠ [] := by
  rw [readTextFile, Option.map_eq_some_iff] at hread
  obtain ⟨raw, hraw, rfl⟩ := hread
  obtain ⟨rest, hrest, hbytes⟩ := decodeStrict_front codes_utf8 hfile hraw
  have hne : rest ≠ [] := by
    rintro rfl
    exact hback hbytes
  rw [List.flatMap_append, List.flatMap_singleton, if_neg hlast,
    ← List.dropLast_append_getLast hne, ← List.append_assoc] at hrest
  have htext := (List.append_inj' hrest rfl).1
  have hfront : universalNewlines raw <+: universalNewlines (raw ++ rest.dropLast) :=
    universalNewlines_front
  rw [← htext, universalNewlines_linesep h] at hfront
  obtain ⟨more, hmore⟩ := hfront
  exact ⟨more ++ [last], by rw [← hmore, List.append_assoc], by simp⟩

end Text

/-! ## `state.py` -/

/-- A Python dictionary with strings for its keys. -/
abbrev Dict := List (List Nat × Value)

/-- The code points of a string. -/
def pointsOf (k : String) : List Nat := k.toList.map Char.toNat

theorem isText_pointsOf (k : String) : IsText (pointsOf k) := by
  intro n hn
  obtain ⟨c, -, rfl⟩ := List.mem_map.mp hn
  exact c.valid

/-- The style of `save_json`. -/
def indented : Style where
  ensureAscii := false
  itemGap := 0
  indent := some 2

/-- What `save_json` writes. -/
def saveJson (linesep : Linesep) (data : Dict) : List UInt8 :=
  writeTextFile linesep (dumps indented (.obj data))

/-- `load_json` of a file that may be missing, unless it raises. -/
def loadJson (file : Option (List UInt8)) (default : Dict) : Option Value :=
  match file with
  | none => some (.obj default)
  | some bytes => (readTextFile bytes).bind loads

section State

variable {linesep : Linesep} {data : Dict} (hdata : Written (.obj data))

include hdata

/-- What was saved is loaded. -/
theorem loadJson_saveJson (default : Dict) :
    loadJson (some (saveJson linesep data)) default = some (.obj data) := by
  have hplain : '\r' ∉ dumps indented (.obj data) := write_plain hdata 0
  rw [loadJson, saveJson, readTextFile_writeTextFile hplain, Option.bind_some, loads_write hdata]

/-- Nothing is loaded from a file whose writing was stopped. -/
theorem loadJson_torn {front back : List UInt8} (h : saveJson linesep data = front ++ back)
    (hback : back ≠ []) (default : Dict) : loadJson (some front) default = none := by
  obtain ⟨t, ht⟩ := @dumps_obj_last indented data
  have hplain : '\r' ∉ t := fun hmem => write_plain hdata 0 (by
    rw [← dumps, ht]
    simp [hmem])
  rw [saveJson, ht] at h
  rw [loadJson]
  cases hread : readTextFile front with
  | none => rfl
  | some text =>
      obtain ⟨rest, hrest, hne⟩ := readTextFile_torn hplain (by decide) h hback hread
      rw [← ht] at hrest
      exact loads_torn hdata hrest hne

end State

/-! ## The file of the task -/

/-- `bool(value)`; `isZero` says which numbers with a fraction or an exponent are read as 0. -/
def isTruthyValue (isZero : List Char → Bool) : Value → Bool
  | .null => false
  | .bool b => b
  | .int n => n ≠ 0
  | .float literal => !isZero literal
  | .str us => us ≠ []
  | .arr items => !items.isEmpty
  | .obj fields => !fields.isEmpty

/-- The writes of a file. -/
inductive FileWrite where
  | saved (data : Dict)
  /-- The agent is stopped when these bytes have been written. -/
  | torn (data : Dict) (front : List UInt8)

namespace FileWrite

variable (linesep : Linesep)

/-- The data is that of Python, and what was written is a proper front of its text. -/
def Possible : FileWrite → Prop
  | saved data => Written (.obj data)
  | torn data front => Written (.obj data) ∧
      ∃ back, saveJson linesep data = front ++ back ∧ back ≠ []

/-- The bytes the file holds then. -/
def bytes : FileWrite → List UInt8
  | saved data => saveJson linesep data
  | torn _ front => front

/-- The file after some writes. -/
def after (file : Option (List UInt8)) (writes : List FileWrite) : Option (List UInt8) :=
  writes.foldl (fun _ w => some (w.bytes linesep)) file

theorem after_append (file : Option (List UInt8)) (writes : List FileWrite) (w : FileWrite) :
    after linesep file (writes ++ [w]) = some (w.bytes linesep) := by
  simp [after]

end FileWrite

section Task

variable (linesep : Linesep) (isZero : List Char → Bool)

/-- `has_active_task` of `current_task.json`, unless it raises. -/
def hasActiveTaskIn (file : Option (List UInt8)) : Option Bool :=
  match loadJson file [] with
  | some (.obj data) => some ((field? data "task_id").any (isTruthyValue isZero))
  | _ => none

/-- The tasks `start_tasks_background` starts, unless it raises. -/
def tasksToStart {T : Type} (file : Option (List UInt8)) (tasks : List T) : Option (List T) :=
  (hasActiveTaskIn isZero file).map fun active => if active then [] else tasks.take 1

/-- The last of any writes decides.  The dictionary of a completed one is loaded as it was, and
the task it names holds back the next; after one that was stopped nothing is loaded or started. -/
theorem state_after_writes {T : Type} (writes : List FileWrite)
    (hpossible : ∀ w ∈ writes, w.Possible linesep) (default : Dict) (tasks : List T) :
    (writes = [] →
      loadJson (FileWrite.after linesep none writes) default = some (.obj default) ∧
      tasksToStart isZero (FileWrite.after linesep none writes) tasks = some (tasks.take 1)) ∧
    (∀ data, writes.getLast? = some (.saved data) →
      loadJson (FileWrite.after linesep none writes) default = some (.obj data) ∧
      tasksToStart isZero (FileWrite.after linesep none writes) tasks =
        some (if (field? data "task_id").any (isTruthyValue isZero) then [] else tasks.take 1)) ∧
    ∀ data front, writes.getLast? = some (.torn data front) →
      loadJson (FileWrite.after linesep none writes) default = none ∧
      tasksToStart isZero (FileWrite.after linesep none writes) tasks = none := by
  induction writes using List.reverseRecOn with
  | nil => simp [FileWrite.after, tasksToStart, hasActiveTaskIn, loadJson, field?]
  | append_singleton writes w =>
      have hw := hpossible w (by simp)
      rw [FileWrite.after_append, List.getLast?_concat]
      cases w with
      | saved data =>
          simp [tasksToStart, hasActiveTaskIn, FileWrite.bytes, loadJson_saveJson hw]
      | torn data front =>
          obtain ⟨hdata, back, hfile, hback⟩ := hw
          simp [tasksToStart, hasActiveTaskIn, FileWrite.bytes, loadJson_torn hdata hfile hback]

/-- The agent is stopped one byte into clearing its task, on Windows. -/
theorem state_after_writes_stopped :
    loadJson (FileWrite.after .crlf none
      [.saved [(pointsOf "task_id", .str (pointsOf "tsk_1"))], .torn [] [123]]) [] = none ∧
    tasksToStart (fun _ => false) (FileWrite.after .crlf none
      [.saved [(pointsOf "task_id", .str (pointsOf "tsk_1"))], .torn [] [123]]) [1, 2] = none := by
  have hpossible : ∀ w ∈ ([.saved [(pointsOf "task_id", .str (pointsOf "tsk_1"))],
      .torn [] [123]] : List FileWrite), w.Possible .crlf := by
    simp only [List.mem_cons, List.not_mem_nil, or_false, forall_eq_or_imp, forall_eq]
    refine ⟨.obj ?_ ?_, .obj (by simp) (by simp), [125], by decide, by decide⟩
    · simpa using isText_pointsOf "task_id"
    · simpa using Written.str (isText_pointsOf "tsk_1")
  exact (state_after_writes .crlf (fun _ => false) _ hpossible [] [1, 2]).2.2 _ _ rfl

end Task

/-! ## The table of offsets -/

section Dictionary

/-- `d[k] = v` -/
def Dict.set (d : Dict) (k : String) (v : Value) : Dict :=
  if d.any (·.1 = pointsOf k) then
    d.map fun f => if f.1 = pointsOf k then (f.1, v) else f
  else d ++ [(pointsOf k, v)]

/-- `d.setdefault(k, v)` -/
def Dict.setdefault (d : Dict) (k : String) (v : Value) : Dict :=
  match field? d k with
  | none => d.set k v
  | some _ => d

/-- `d.pop(k, None)` -/
def Dict.pop (d : Dict) (k : String) : Dict := d.filter (·.1 ≠ pointsOf k)

variable {d : Dict} {k k' : String} {v : Value}

theorem pointsOf_inj (h : pointsOf k = pointsOf k') : k = k' := by
  have hlist : k.toList = k'.toList :=
    List.map_injective_iff.mpr (fun _ _ => Char.toNat_inj.mp) h
  exact String.toList_inj.mp hlist

/-- `l` with a new value under a name it holds. -/
def replaced (l : Dict) (name : List Nat) (v : Value) : Dict :=
  l.map fun f => if f.1 = name then (f.1, v) else f

theorem lookup_replaced {l : Dict} {name : List Nat} (h : l.any (·.1 = name)) :
    (replaced l name v).lookup name = some v := by
  induction l with
  | nil => cases h
  | cons f l ih =>
      obtain ⟨n, w⟩ := f
      rw [replaced, List.map_cons, ← replaced]
      by_cases hn : n = name
      · simp [hn]
      · have hrest : l.any (·.1 = name) := by simpa [hn] using h
        have hne : (name == n) = false := by simpa using Ne.symm hn
        rw [if_neg hn, List.lookup_cons, hne]
        exact ih hrest

theorem lookup_replaced_of_ne {l : Dict} {name other : List Nat} (h : other ≠ name) :
    (replaced l name v).lookup other = l.lookup other := by
  induction l with
  | nil => rfl
  | cons f l ih =>
      obtain ⟨n, w⟩ := f
      rw [replaced, List.map_cons, ← replaced]
      by_cases hn : n = name
      · have hne : (other == n) = false := by simpa [hn] using h
        rw [if_pos hn, List.lookup_cons, List.lookup_cons, hne]
        exact ih
      · rw [if_neg hn, List.lookup_cons, List.lookup_cons, ih]

theorem lookup_filter_ne {l : Dict} {name other : List Nat} :
    (l.filter (·.1 ≠ name)).lookup other = if other = name then none else l.lookup other := by
  induction l with
  | nil => simp
  | cons f l ih =>
      obtain ⟨n, w⟩ := f
      rw [List.filter_cons]
      by_cases hn : n = name
      · rw [if_neg (by simpa using hn), ih]
        by_cases ho : other = name
        · rw [if_pos ho, if_pos ho]
        · have hne : (other == n) = false := by simpa [hn] using ho
          rw [if_neg ho, if_neg ho, List.lookup_cons, hne]
      · rw [if_pos (by simpa using hn), List.lookup_cons, List.lookup_cons, ih]
        by_cases ho : other = name
        · have hne : (other == n) = false := by simpa [ho] using Ne.symm hn
          rw [if_pos ho, if_pos ho, hne]
        · rw [if_neg ho, if_neg ho]

theorem field?_eq (d : Dict) (k : String) : field? d k = d.reverse.lookup (pointsOf k) := rfl

theorem field?_set : field? (d.set k v) k = some v := by
  rw [field?_eq]
  unfold Dict.set
  split
  · rename_i hany
    rw [← List.map_reverse]
    exact lookup_replaced (by rwa [List.any_reverse])
  · simp

theorem field?_set_of_ne (h : k' ≠ k) : field? (d.set k v) k' = field? d k' := by
  have hne : pointsOf k' ≠ pointsOf k := fun heq => h (pointsOf_inj heq)
  rw [field?_eq, field?_eq]
  unfold Dict.set
  split
  · rw [← List.map_reverse]
    exact lookup_replaced_of_ne hne
  · have hbeq : (pointsOf k' == pointsOf k) = false := by simpa using hne
    rw [List.reverse_append, List.reverse_singleton, List.singleton_append, List.lookup_cons, hbeq]

theorem field?_setdefault_of_ne (h : k' ≠ k) : field? (d.setdefault k v) k' = field? d k' := by
  unfold Dict.setdefault
  split
  · exact field?_set_of_ne h
  · rfl

theorem field?_pop : field? (d.pop k) k = none := by
  rw [field?_eq, Dict.pop, ← List.filter_reverse, lookup_filter_ne, if_pos rfl]

theorem field?_pop_of_ne (h : k' ≠ k) : field? (d.pop k) k' = field? d k' := by
  have hne : pointsOf k' ≠ pointsOf k := fun heq => h (pointsOf_inj heq)
  rw [field?_eq, Dict.pop, ← List.filter_reverse, lookup_filter_ne, if_neg hne, ← field?_eq]

end Dictionary

/-! ## `log_offsets.json` -/

/-- The dictionary, where anything else raises. -/
def dict? : Value → Option Dict
  | .obj d => some d
  | _ => none

/-- `d.get(k, {})`, which must be a dictionary. -/
def Dict.getDict (d : Dict) (k : String) : Option Dict :=
  match field? d k with
  | none => some []
  | some v => dict? v

/-- `int(value)` of a number or a truth value. -/
def int? : Value → Option Int
  | .int n => some n
  | .bool b => some (if b then 1 else 0)
  | _ => none

/-- `{"acked_offset": offset}` -/
def ackedEntry (offset : Int) : Value := .obj [(pointsOf "acked_offset", .int offset)]

/-- `load_log_offsets` -/
def loadLogOffsets (file : Option (List UInt8)) : Option Dict := (loadJson file []).bind dict?

section Offsets

variable (linesep : Linesep)

/-- `save_log_offsets` -/
def saveLogOffsets (offsets : Dict) : Option (List UInt8) := some (saveJson linesep offsets)

/-- The offsets after `init_log_offsets`. -/
def initIn (offsets : Dict) (taskId : String) : Option Dict := do
  let offsets := offsets.setdefault taskId (.obj [])
  let task ← (field? offsets taskId).bind dict?
  let task := task.setdefault "stdout" (ackedEntry 0)
  let task := task.setdefault "stderr" (ackedEntry 0)
  pure (offsets.set taskId (.obj task))

/-- The offsets after `store_acked_log_offset`. -/
def storeIn (offsets : Dict) (taskId stream : String) (ackedOffset : Int) : Option Dict := do
  let offsets := offsets.setdefault taskId (.obj [])
  let task ← (field? offsets taskId).bind dict?
  let task := task.setdefault stream (.obj [])
  let entry ← (field? task stream).bind dict?
  let entry := entry.set "acked_offset" (.int ackedOffset)
  pure (offsets.set taskId (.obj (task.set stream (.obj entry))))

/-- The offset `acked_log_offset` finds in the record of a task. -/
def ackedInTask (task : Dict) (stream : String) : Option Int :=
  (task.getDict stream).bind fun entry => ((field? entry "acked_offset").elim (some 0) int?)

/-- The offset `acked_log_offset` finds. -/
def ackedIn (offsets : Dict) (taskId stream : String) : Option Int :=
  (offsets.getDict taskId).bind fun task => ackedInTask task stream

/-- `acked_log_offset` -/
def ackedLogOffsetOf (file : Option (List UInt8)) (taskId stream : String) : Option Int :=
  (loadLogOffsets file).bind fun offsets => ackedIn offsets taskId stream

/-- The calls that change the file. -/
inductive OffsetCall where
  | initLogOffsets (taskId : String)
  | storeAckedLogOffset (taskId stream : String) (ackedOffset : Int)
  | clearLogOffsets (taskId : String)

/-- The file after a call, unless it raises. -/
def OffsetCall.run (file : Option (List UInt8)) : OffsetCall → Option (Option (List UInt8))
  | initLogOffsets taskId => do
      let offsets ← loadLogOffsets file
      let offsets ← initIn offsets taskId
      pure (saveLogOffsets linesep offsets)
  | storeAckedLogOffset taskId stream ackedOffset => do
      let offsets ← loadLogOffsets file
      let offsets ← storeIn offsets taskId stream ackedOffset
      pure (saveLogOffsets linesep offsets)
  | clearLogOffsets taskId => do
      let offsets ← loadLogOffsets file
      if (field? offsets taskId).isSome then
        pure (saveLogOffsets linesep (offsets.pop taskId))
      else pure file

/-- The file after some calls, unless one of them raises. -/
def runOffsetCalls (file : Option (List UInt8)) (calls : List OffsetCall) :
    Option (Option (List UInt8)) :=
  calls.foldlM (OffsetCall.run linesep) file

/-- The table the file stands for: the offset acknowledged of a task's stream. -/
abbrev OffsetTable := String → String → Int

/-- What a call does to the table. -/
def OffsetCall.apply (table : OffsetTable) : OffsetCall → OffsetTable
  | initLogOffsets _ => table
  | storeAckedLogOffset taskId stream ackedOffset =>
      fun t s => if t = taskId ∧ s = stream then ackedOffset else table t s
  | clearLogOffsets taskId => fun t s => if t = taskId then 0 else table t s

/-- The record of a stream. -/
def IsEntry (v : Value) : Prop :=
  ∃ (entry : Dict) (n : Int), v = .obj entry ∧ field? entry "acked_offset" = some (.int n)

/-- The record of a task, with the offsets of its streams. -/
structure IsTask (task : Dict) (row : String → Int) : Prop where
  written : Written (.obj task)
  entries : ∀ stream v, field? task stream = some v → IsEntry v
  acked : ∀ stream, ackedInTask task stream = some (row stream)

/-- The records of the tasks, with the table they stand for. -/
structure IsOffsets (offsets : Dict) (table : OffsetTable) : Prop where
  written : Written (.obj offsets)
  tasks : ∀ taskId v, field? offsets taskId = some v → ∃ task : Dict, v = .obj task ∧
    IsTask task (table taskId)
  unknown : ∀ taskId, field? offsets taskId = none → table taskId = fun _ => 0

section Written

variable {d : Dict} {k : String} {v : Value}

theorem mem_of_field? (h : field? d k = some v) : (pointsOf k, v) ∈ d := by
  rw [field?_eq, List.lookup_eq_some_iff] at h
  obtain ⟨before, after, hd, -⟩ := h
  exact List.mem_reverse.mp (by simp [hd])

theorem written_field (hd : Written (.obj d)) (h : field? d k = some v) : Written v := by
  cases hd with
  | obj hnames hvalues => exact hvalues _ (mem_of_field? h)

theorem written_set (hd : Written (.obj d)) (hv : Written v) : Written (.obj (d.set k v)) := by
  cases hd with
  | obj hnames hvalues =>
      unfold Dict.set
      split
      · refine .obj ?_ ?_
        · intro f hf
          obtain ⟨g, hg, rfl⟩ := List.mem_map.mp hf
          split <;> exact hnames g hg
        · intro f hf
          obtain ⟨g, hg, rfl⟩ := List.mem_map.mp hf
          split
          · exact hv
          · exact hvalues g hg
      · refine .obj ?_ ?_
        · intro f hf
          rcases List.mem_append.mp hf with hf | hf
          · exact hnames f hf
          · rw [List.mem_singleton.mp hf]
            exact isText_pointsOf k
        · intro f hf
          rcases List.mem_append.mp hf with hf | hf
          · exact hvalues f hf
          · rw [List.mem_singleton.mp hf]
            exact hv

theorem written_setdefault (hd : Written (.obj d)) (hv : Written v) :
    Written (.obj (d.setdefault k v)) := by
  unfold Dict.setdefault
  split
  · exact written_set hd hv
  · exact hd

theorem written_pop (hd : Written (.obj d)) : Written (.obj (d.pop k)) := by
  cases hd with
  | obj hnames hvalues =>
      exact .obj (fun f hf => hnames f (List.mem_of_mem_filter hf))
        fun f hf => hvalues f (List.mem_of_mem_filter hf)

theorem written_empty : Written (.obj []) := .obj (by simp) (by simp)

theorem written_ackedEntry (n : Int) : Written (ackedEntry n) := by
  refine .obj ?_ ?_
  · intro f hf
    rw [List.mem_singleton.mp hf]
    exact isText_pointsOf _
  · intro f hf
    rw [List.mem_singleton.mp hf]
    exact .int n

end Written

section Records

variable {d task : Dict} {row : String → Int} {table : OffsetTable} {taskId stream : String}

theorem ackedInTask_some {entry : Dict} (h : field? task stream = some (.obj entry)) :
    ackedInTask task stream = (field? entry "acked_offset").elim (some 0) int? := by
  simp [ackedInTask, Dict.getDict, h, dict?]

theorem ackedInTask_none (h : field? task stream = none) : ackedInTask task stream = some 0 := by
  rw [ackedInTask, Dict.getDict, h]
  rfl

theorem ackedInTask_congr {task' : Dict} (h : field? task' stream = field? task stream) :
    ackedInTask task' stream = ackedInTask task stream := by
  simp [ackedInTask, Dict.getDict, h]

/-- A new record of a stream, in a dictionary that has the other ones. -/
theorem IsTask.set (h : IsTask task row) {task' entry : Dict} {n : Int}
    (hwritten : Written (.obj task'))
    (hsame : ∀ s, s ≠ stream → field? task' s = field? task s) (hentry : Written (.obj entry))
    (hn : field? entry "acked_offset" = some (.int n)) :
    IsTask (task'.set stream (.obj entry)) fun s => if s = stream then n else row s where
  written := written_set hwritten hentry
  entries := by
    intro s v hv
    by_cases hs : s = stream
    · subst hs
      rw [field?_set] at hv
      cases hv
      exact ⟨entry, n, rfl, hn⟩
    · rw [field?_set_of_ne hs, hsame s hs] at hv
      exact h.entries s v hv
  acked := by
    intro s
    by_cases hs : s = stream
    · subst hs
      rw [ackedInTask_some field?_set, hn, if_pos rfl]
      rfl
    · rw [ackedInTask_congr (field?_set_of_ne hs), ackedInTask_congr (hsame s hs), if_neg hs,
        h.acked]

/-- A record for a stream that has none says what its absence said. -/
theorem IsTask.setdefault (h : IsTask task row) :
    IsTask (task.setdefault stream (ackedEntry 0)) row := by
  unfold Dict.setdefault
  split
  · rename_i hnone
    have hzero : row stream = 0 := by
      have hacked := h.acked stream
      rw [ackedInTask_none hnone] at hacked
      exact (Option.some.inj hacked).symm
    have hset := @IsTask.set task row stream h task _ 0 h.written (fun _ _ => rfl)
      (written_ackedEntry 0) rfl
    have hrow : (fun s => if s = stream then 0 else row s) = row := by
      funext s
      split
      · rename_i hs
        rw [hs, hzero]
      · rfl
    rwa [hrow] at hset
  · exact h

theorem isTask_empty : IsTask [] fun _ => 0 where
  written := written_empty
  entries := by simp [field?]
  acked := by simp [ackedInTask, Dict.getDict, field?]

/-- The record of a task whose offsets are to change, and the table when it has changed. -/
theorem IsOffsets.record (h : IsOffsets d table) :
    ∃ task : Dict, field? (d.setdefault taskId (.obj [])) taskId = some (.obj task) ∧
      IsTask task (table taskId) ∧ ∀ task' row, IsTask task' row →
        IsOffsets ((d.setdefault taskId (.obj [])).set taskId (.obj task'))
          fun t => if t = taskId then row else table t := by
  have hfield : ∀ t, t ≠ taskId → field? (d.setdefault taskId (.obj [])) t = field? d t :=
    fun t ht => field?_setdefault_of_ne ht
  have hchange : ∀ task' row, IsTask task' row →
      IsOffsets ((d.setdefault taskId (.obj [])).set taskId (.obj task'))
        fun t => if t = taskId then row else table t := by
    intro task' row htask
    refine ⟨written_set (written_setdefault h.written written_empty) htask.written, ?_, ?_⟩
    · intro t v hv
      by_cases ht : t = taskId
      · subst ht
        rw [field?_set] at hv
        cases hv
        exact ⟨task', rfl, by rwa [if_pos rfl]⟩
      · rw [field?_set_of_ne ht, hfield t ht] at hv
        rw [if_neg ht]
        exact h.tasks t v hv
    · intro t ht
      by_cases heq : t = taskId
      · subst heq
        simp [field?_set] at ht
      · rw [field?_set_of_ne heq, hfield t heq] at ht
        rw [if_neg heq]
        exact h.unknown t ht
  cases hd : field? d taskId with
  | none =>
      refine ⟨[], ?_, ?_, hchange⟩
      · simp [Dict.setdefault, hd, field?_set]
      · rw [h.unknown taskId hd]
        exact isTask_empty
  | some v =>
      obtain ⟨task, rfl, htask⟩ := h.tasks taskId v hd
      exact ⟨task, by simp [Dict.setdefault, hd], htask, hchange⟩

theorem initIn_spec (h : IsOffsets d table) :
    ∃ d', initIn d taskId = some d' ∧ IsOffsets d' table := by
  obtain ⟨task, hfield, htask, hchange⟩ := @IsOffsets.record d table taskId h
  have hout : IsTask (task.setdefault "stdout" (ackedEntry 0)) (table taskId) := htask.setdefault
  have hboth : IsTask ((task.setdefault "stdout" (ackedEntry 0)).setdefault "stderr" (ackedEntry 0))
      (table taskId) := hout.setdefault
  have htable : (fun t => if t = taskId then table taskId else table t) = table := by
    funext t
    split
    · rename_i ht
      rw [ht]
    · rfl
  have hnext := hchange _ _ hboth
  rw [htable] at hnext
  exact ⟨_, by simp [initIn, hfield, dict?], hnext⟩

theorem storeIn_spec (h : IsOffsets d table) (n : Int) :
    ∃ d', storeIn d taskId stream n = some d' ∧
      IsOffsets d' (OffsetCall.apply table (.storeAckedLogOffset taskId stream n)) := by
  obtain ⟨task, hfield, htask, hchange⟩ := @IsOffsets.record d table taskId h
  have hwritten := @written_setdefault task stream _ htask.written written_empty
  have hentry : ∃ entry : Dict, field? (task.setdefault stream (.obj [])) stream = some (.obj entry) := by
    cases hstream : field? task stream with
    | none => exact ⟨[], by simp [Dict.setdefault, hstream, field?_set]⟩
    | some v =>
        obtain ⟨entry, m, rfl, -⟩ := htask.entries stream v hstream
        exact ⟨entry, by simp [Dict.setdefault, hstream]⟩
  obtain ⟨entry, hentry⟩ := hentry
  have hset := @IsTask.set task (table taskId) stream htask _ (entry.set "acked_offset" (.int n)) n
    hwritten (fun s hs => field?_setdefault_of_ne hs)
    (written_set (written_field hwritten hentry) (.int n)) field?_set
  have htable : (fun t => if t = taskId then (fun s => if s = stream then n else table taskId s)
      else table t) = OffsetCall.apply table (.storeAckedLogOffset taskId stream n) := by
    funext t s
    by_cases ht : t = taskId
    · simp [OffsetCall.apply, ht]
    · simp [OffsetCall.apply, ht]
  have hnext := hchange _ _ hset
  rw [htable] at hnext
  exact ⟨_, by simp [storeIn, hfield, dict?, hentry], hnext⟩

theorem pop_spec (h : IsOffsets d table) :
    IsOffsets (d.pop taskId) (OffsetCall.apply table (.clearLogOffsets taskId)) where
  written := written_pop h.written
  tasks := by
    intro t v hv
    by_cases ht : t = taskId
    · rw [ht, field?_pop] at hv
      cases hv
    · rw [field?_pop_of_ne ht] at hv
      simpa [OffsetCall.apply, ht] using h.tasks t v hv
  unknown := by
    intro t ht
    by_cases heq : t = taskId
    · simp [OffsetCall.apply, heq]
    · rw [field?_pop_of_ne heq] at ht
      simpa [OffsetCall.apply, heq] using h.unknown t ht

theorem ackedIn_spec (h : IsOffsets d table) :
    ackedIn d taskId stream = some (table taskId stream) := by
  rw [ackedIn, Dict.getDict]
  cases hd : field? d taskId with
  | none => simp [isTask_empty.acked, h.unknown taskId hd]
  | some v =>
      obtain ⟨task, rfl, htask⟩ := h.tasks taskId v hd
      simp [dict?, htask.acked]

end Records

/-! ## Runs -/

/-- The file holds the table. -/
def HoldsTable (file : Option (List UInt8)) (table : OffsetTable) : Prop :=
  ∃ offsets, loadLogOffsets file = some offsets ∧ IsOffsets offsets table

variable {file : Option (List UInt8)} {table : OffsetTable}

theorem holdsTable_save {offsets : Dict} (h : IsOffsets offsets table) :
    HoldsTable (saveLogOffsets linesep offsets) table :=
  ⟨offsets, by simp [loadLogOffsets, saveLogOffsets, loadJson_saveJson h.written, dict?], h⟩

/-- The step: a call does not raise, and changes the table as it should. -/
theorem HoldsTable.run (h : HoldsTable file table) (call : OffsetCall) :
    ∃ file', call.run linesep file = some file' ∧ HoldsTable file' (call.apply table) := by
  obtain ⟨offsets, hload, hoffsets⟩ := h
  cases call with
  | initLogOffsets taskId =>
      obtain ⟨offsets', hinit, hnext⟩ := @initIn_spec offsets table taskId hoffsets
      exact ⟨_, by simp [OffsetCall.run, hload, hinit], holdsTable_save linesep hnext⟩
  | storeAckedLogOffset taskId stream n =>
      obtain ⟨offsets', hstore, hnext⟩ := @storeIn_spec offsets table taskId stream hoffsets n
      exact ⟨_, by simp [OffsetCall.run, hload, hstore], holdsTable_save linesep hnext⟩
  | clearLogOffsets taskId =>
      cases hfield : field? offsets taskId with
      | some v =>
          exact ⟨_, by simp [OffsetCall.run, hload, hfield], holdsTable_save linesep (pop_spec hoffsets)⟩
      | none =>
          have htable : OffsetCall.apply table (.clearLogOffsets taskId) = table := by
            funext t s
            by_cases ht : t = taskId
            · simp [OffsetCall.apply, ht, hoffsets.unknown taskId hfield]
            · simp [OffsetCall.apply, ht]
          rw [htable]
          exact ⟨file, by simp [OffsetCall.run, hload, hfield], offsets, hload, hoffsets⟩

theorem HoldsTable.runs (h : HoldsTable file table) (calls : List OffsetCall) :
    ∃ file', runOffsetCalls linesep file calls = some file' ∧
      HoldsTable file' (calls.foldl OffsetCall.apply table) := by
  induction calls generalizing file table with
  | nil => exact ⟨file, rfl, h⟩
  | cons call calls ih =>
      obtain ⟨file', hrun, hnext⟩ := h.run linesep call
      obtain ⟨file'', hruns, hlast⟩ := ih hnext
      exact ⟨file'', by simp [runOffsetCalls, hrun, ← hruns], hlast⟩

theorem holdsTable_missing : HoldsTable none fun _ _ => 0 :=
  ⟨[], rfl, written_empty, by simp [field?], fun _ _ => rfl⟩

/-- The file is a table of offsets: over any run of the calls none raises, and the offset found
is the last one stored since the task was cleared. -/
theorem offsets_refine_table (calls : List OffsetCall) :
    ∃ file, runOffsetCalls linesep none calls = some file ∧
      ∀ taskId stream, ackedLogOffsetOf file taskId stream =
        some (calls.foldl OffsetCall.apply (fun _ _ => 0) taskId stream) := by
  obtain ⟨file, hruns, offsets, hload, hoffsets⟩ := holdsTable_missing.runs linesep calls
  refine ⟨file, hruns, ?_⟩
  intro taskId stream
  rw [ackedLogOffsetOf, hload, Option.bind_some, ackedIn_spec hoffsets]

end Offsets

end GpuFleet
