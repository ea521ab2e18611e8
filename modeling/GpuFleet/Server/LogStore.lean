import GpuFleet.Server.Schema
import Mathlib.Algebra.GroupWithZero.Nat

/-!
# The log files

A log stream of a task is a live file and numbered archives.  `appendLogChunk`
appends a text to the live file and cuts it where the file would grow beyond
the limit; a full live file is compressed into the next archive.

A `SlicedLog` is what the files of a stream stand for: a text, cut into slices.
An append adds its text at the end, or the numbers of the archives run out
(`Shows.appendLogChunk`); no slice it adds is larger than the limit
(`append_log_chunk_loses_nothing`).
-/

namespace GpuFleet

/-! ## Cutting a text -/

/-- The length of a text in UTF-8. -/
def utf8Length (text : List Char) : Nat := (text.map Char.utf8Size).sum

/-- The binary search of `take_text_prefix_by_bytes`, for at most `fuel` rounds. -/
def searchPrefix (text : List Char) (byteLimit : Nat) : (fuel left right : Nat) → Nat
  | 0, left, _ => left
  | fuel + 1, left, right =>
      if left < right then
        let mid := (left + right + 1) / 2
        if utf8Length (text.take mid) ≤ byteLimit then searchPrefix text byteLimit fuel mid right
        else searchPrefix text byteLimit fuel left (mid - 1)
      else left

/-- `take_text_prefix_by_bytes` -/
def takeTextPrefixByBytes (text : List Char) (byteLimit : Nat) : List Char × List Char :=
  if byteLimit = 0 ∨ text = [] then ([], text)
  else if utf8Length text ≤ byteLimit then (text, [])
  else
    let left := searchPrefix text byteLimit text.length 0 text.length
    (text.take left, text.drop left)

section Cut

variable {text : List Char} {byteLimit : Nat}

@[simp] theorem utf8Length_nil : utf8Length [] = 0 := rfl

@[simp] theorem utf8Length_append (a b : List Char) :
    utf8Length (a ++ b) = utf8Length a + utf8Length b := by
  simp [utf8Length]

theorem utf8Length_pos (h : text ≠ []) : 0 < utf8Length text := by
  obtain ⟨c, rest, rfl⟩ := List.exists_cons_of_ne_nil h
  have := c.utf8Size_pos
  simp [utf8Length]
  omega

theorem utf8Length_take_le {j k : Nat} (h : j ≤ k) :
    utf8Length (text.take j) ≤ utf8Length (text.take k) := by
  have hsplit : text.take k = text.take j ++ (text.take k).drop j := by
    have := List.take_append_drop j (text.take k)
    rwa [List.take_take, Nat.min_eq_left h, eq_comm] at this
  rw [hsplit, utf8Length_append]
  exact Nat.le_add_right _ _

/-- The search ends with a prefix that fits, and no longer one does. -/
theorem searchPrefix_spec {fuel left right : Nat} (hfuel : right ≤ left + fuel)
    (hle : left ≤ right) (hfits : utf8Length (text.take left) ≤ byteLimit)
    (hmax : ∀ k, right < k → k ≤ text.length → byteLimit < utf8Length (text.take k)) :
    utf8Length (text.take (searchPrefix text byteLimit fuel left right)) ≤ byteLimit ∧
      ∀ k, searchPrefix text byteLimit fuel left right < k → k ≤ text.length →
        byteLimit < utf8Length (text.take k) := by
  induction fuel generalizing left right with
  | zero =>
      have heq : left = right := Nat.le_antisymm hle hfuel
      exact ⟨hfits, heq ▸ hmax⟩
  | succ fuel ih =>
      rw [searchPrefix]
      split
      · rename_i hlt
        simp only
        split
        · rename_i hmid
          exact ih (by omega) (by omega) hmid hmax
        · rename_i hmid
          refine ih (by omega) (by omega) hfits fun k hk _ => ?_
          exact Nat.lt_of_lt_of_le (Nat.lt_of_not_le hmid) (utf8Length_take_le (by omega))
      · have heq : left = right := by omega
        exact ⟨hfits, heq ▸ hmax⟩

/-- Nothing is lost where the text is cut. -/
theorem takeTextPrefixByBytes_append (text : List Char) (byteLimit : Nat) :
    (takeTextPrefixByBytes text byteLimit).1 ++ (takeTextPrefixByBytes text byteLimit).2 = text := by
  unfold takeTextPrefixByBytes
  split
  · rfl
  · split
    · exact List.append_nil text
    · exact List.take_append_drop ..

/-- What is cut off fits. -/
theorem utf8Length_takeTextPrefixByBytes (text : List Char) (byteLimit : Nat) :
    utf8Length (takeTextPrefixByBytes text byteLimit).1 ≤ byteLimit := by
  unfold takeTextPrefixByBytes
  split
  · exact Nat.zero_le _
  · split
    · assumption
    · exact (searchPrefix_spec (by omega) (Nat.zero_le _) (Nat.zero_le _) fun k hk hle =>
        absurd hk (Nat.not_lt_of_le hle)).1

/-- Four bytes are enough for one character. -/
theorem takeTextPrefixByBytes_ne_nil (hlimit : 4 ≤ byteLimit) (htext : text ≠ []) :
    (takeTextPrefixByBytes text byteLimit).1 ≠ [] := by
  unfold takeTextPrefixByBytes
  split
  · rename_i h
    rcases h with h | h
    · omega
    · exact absurd h htext
  · split
    · exact htext
    · obtain ⟨c, rest, rfl⟩ := List.exists_cons_of_ne_nil htext
      have hlast : ∀ k, searchPrefix (c :: rest) byteLimit (c :: rest).length 0 (c :: rest).length < k →
          k ≤ (c :: rest).length → byteLimit < utf8Length ((c :: rest).take k) :=
        (searchPrefix_spec (by omega) (Nat.zero_le _) (Nat.zero_le _) fun k hk hle =>
          absurd hk (Nat.not_lt_of_le hle)).2
      intro hnil
      have hzero := (List.take_eq_nil_iff.mp hnil).resolve_right (List.cons_ne_nil c rest)
      have hone := hlast 1 (by rw [hzero]; exact Nat.one_pos) (by simp)
      have hfour := c.utf8Size_le_four
      simp [utf8Length] at hone
      omega

end Cut

/-! ## Files -/

namespace Files

/-- The text in a file, if the file exists. -/
def log? (files : Files) (f : LogFile) : Option (List Char) := files.logs.lookup f

/-- Write a file. -/
def write (files : Files) (f : LogFile) (text : List Char) : Files :=
  { files with logs := files.logs.insert f text }

@[simp] theorem log?_write_self (files : Files) (f : LogFile) (text : List Char) :
    (files.write f text).log? f = some text := AList.lookup_insert _

theorem log?_write_of_ne {files : Files} {f g : LogFile} (text : List Char) (h : g ≠ f) :
    (files.write f text).log? g = files.log? g := AList.lookup_insert_ne h

/-- The size of a file, 0 when it does not exist. -/
def size (files : Files) (f : LogFile) : Nat := utf8Length ((files.log? f).getD [])

end Files

section Store

variable (maxStreamBytes : Nat) (taskId : String) (stream : Stream)

/-- The live file of the stream. -/
def liveFile : LogFile := ⟨taskId, stream, .live⟩

/-- An archive of the stream. -/
def archiveFile (index : Nat) : LogFile := ⟨taskId, stream, .archive index⟩

/-- The first free of `n` archive numbers from `index` on. -/
def firstFree (files : Files) : (n index : Nat) → Option Nat
  | 0, _ => none
  | n + 1, index =>
      if (files.log? (archiveFile taskId stream index)).isSome then firstFree files n (index + 1)
      else some index

/-- `next_log_archive_path`; `none` stands for the `RuntimeError`. -/
def nextLogArchivePath (files : Files) : Option Nat := firstFree taskId stream files 99999 1

/-- `rotate_log_stream`; `none` stands for the `RuntimeError`, which comes before any write. -/
def rotateLogStream (files : Files) : Option Files :=
  match files.log? (liveFile taskId stream) with
  | none => some files
  | some text =>
      if text = [] then some files
      else (nextLogArchivePath taskId stream files).map fun index =>
        (files.write (archiveFile taskId stream index) text).write (liveFile taskId stream) []

/-- `rotate_log_stream` where the live file is full. -/
def rotateFull (files : Files) : Option Files :=
  if maxStreamBytes ≤ files.size (liveFile taskId stream) then rotateLogStream taskId stream files
  else some files

/-- One round of the loop of `append_log_chunk`, with the text that remains. -/
def appendRound (text : List Char) (files : Files) : Except Exc (List Char) × Files :=
  match rotateFull maxStreamBytes taskId stream files with
  | none => (.error .runtime, files)
  | some files =>
      let live := liveFile taskId stream
      let (chunk, rest) := takeTextPrefixByBytes text (maxStreamBytes - files.size live)
      if chunk = [] then
        match rotateLogStream taskId stream files with
        | none => (.error .runtime, files)
        | some files => (.ok rest, files)
      else
        let files := files.write live ((files.log? live).getD [] ++ chunk)
        match rotateFull maxStreamBytes taskId stream files with
        | none => (.error .runtime, files)
        | some files => (.ok rest, files)

/-- The loop of `append_log_chunk`, for at most `fuel` rounds. -/
def appendLoop : (fuel : Nat) → List Char → Files → Except Exc Unit × Files
  | 0, text, files => if text = [] then (.ok (), files) else (.error .diverges, files)
  | fuel + 1, text, files =>
      if text = [] then (.ok (), files)
      else
        match appendRound maxStreamBytes taskId stream text files with
        | (.error e, files) => (.error e, files)
        | (.ok rest, files) => appendLoop fuel rest files

/-- `append_log_chunk`.  A round that writes nothing leaves an empty live file, and a second one
in a row would be repeated for ever; so `2 * text.length + 2` rounds are enough. -/
def appendLogChunk (text : List Char) (files : Files) : Except Exc Unit × Files :=
  appendLoop maxStreamBytes taskId stream (2 * text.length + 2) text files

end Store

/-- `storage_usage_bytes`; `gzipSize` is the size of a text in an archive. -/
def storageUsageBytes (gzipSize : List Char → Nat) (files : Files) : Nat :=
  (files.logs.entries.map fun e => match e.1.slot with
    | .live => utf8Length e.2
    | .archive _ => gzipSize e.2).sum +
  (files.artifacts.entries.map fun e => e.2.length).sum + files.otherBytes

/-! ## Sliced logs -/

/-- A log as its slices: the archived ones and the live one. -/
structure SlicedLog where
  archives : List (List Char)
  live : List Char

namespace SlicedLog

/-- The text of the log. -/
def text (log : SlicedLog) : List Char := log.archives.flatten ++ log.live

/-- Archive the live slice, if there is text in it. -/
def rotate (log : SlicedLog) : SlicedLog :=
  if log.live = [] then log else ⟨log.archives ++ [log.live], []⟩

/-- Append to the live slice. -/
def append (log : SlicedLog) (chunk : List Char) : SlicedLog := { log with live := log.live ++ chunk }

@[simp] theorem text_rotate (log : SlicedLog) : log.rotate.text = log.text := by
  unfold rotate
  split
  · rfl
  · simp [text]

@[simp] theorem text_append (log : SlicedLog) (chunk : List Char) :
    (log.append chunk).text = log.text ++ chunk := by
  simp [text, append]

@[simp] theorem live_rotate (log : SlicedLog) : log.rotate.live = [] := by
  unfold rotate
  split
  · assumption
  · rfl

/-- What slices are added, and the live one, fit the limit. -/
structure Extends (maxStreamBytes : Nat) (log log' : SlicedLog) : Prop where
  archives : ∃ slices, log'.archives = log.archives ++ slices ∧
    ∀ slice ∈ slices, utf8Length slice ≤ maxStreamBytes
  live : utf8Length log'.live ≤ maxStreamBytes

section Extends

variable {maxStreamBytes : Nat} {log log' log'' : SlicedLog}

theorem Extends.refl (h : utf8Length log.live ≤ maxStreamBytes) : log.Extends maxStreamBytes log :=
  ⟨⟨[], by simp⟩, h⟩

theorem Extends.trans (h : log.Extends maxStreamBytes log') (h' : log'.Extends maxStreamBytes log'') :
    log.Extends maxStreamBytes log'' := by
  obtain ⟨slices, heq, hfits⟩ := h.archives
  obtain ⟨slices', heq', hfits'⟩ := h'.archives
  refine ⟨⟨slices ++ slices', by rw [heq', heq, List.append_assoc], ?_⟩, h'.live⟩
  simp only [List.mem_append]
  rintro slice (hslice | hslice)
  · exact hfits slice hslice
  · exact hfits' slice hslice

theorem extends_rotate (h : utf8Length log.live ≤ maxStreamBytes) :
    log.Extends maxStreamBytes log.rotate := by
  by_cases hlive : log.live = []
  · rw [rotate, if_pos hlive]
    exact .refl h
  · rw [rotate, if_neg hlive]
    exact ⟨⟨[log.live], by simpa using h⟩, by simp⟩

theorem extends_append {chunk : List Char}
    (h : utf8Length log.live + utf8Length chunk ≤ maxStreamBytes) :
    log.Extends maxStreamBytes (log.append chunk) :=
  ⟨⟨[], by simp [append]⟩, by simpa [append] using h⟩

end Extends

end SlicedLog

/-- The files of the stream show the log: its archives have the numbers from 1 on. -/
structure Shows (files : Files) (taskId : String) (stream : Stream) (log : SlicedLog) : Prop where
  live : (files.log? (liveFile taskId stream)).getD [] = log.live
  archive : ∀ i, files.log? (archiveFile taskId stream (i + 1)) = log.archives[i]?
  numbered : log.archives.length ≤ 99999

/-- The texts of the archives of a stream, in index order. -/
def archivedSlices (files : Files) (taskId : String) (stream : Stream) : List (List Char) :=
  (List.range 99999).filterMap fun i => files.log? (archiveFile taskId stream (i + 1))

/-- The archives of a stream, followed by its live file. -/
def storedText (files : Files) (taskId : String) (stream : Stream) : List Char :=
  (archivedSlices files taskId stream).flatten ++ (files.log? (liveFile taskId stream)).getD []

/-- Without archives there are no slices. -/
theorem archivedSlices_eq_nil {files : Files} (h : ∀ f ∈ files.logs.keys, f.slot = .live)
    (taskId : String) (stream : Stream) : archivedSlices files taskId stream = [] := by
  rw [archivedSlices, List.filterMap_eq_nil_iff]
  intro i _
  rw [Files.log?, AList.lookup_eq_none, AList.mem_keys]
  intro hmem
  cases h _ hmem

/-- All other files stay. -/
def Files.SameBut (taskId : String) (stream : Stream) (files files' : Files) : Prop :=
  files'.artifacts = files.artifacts ∧ files'.otherBytes = files.otherBytes ∧
    ∀ f : LogFile, (f.taskId, f.stream) ≠ (taskId, stream) → files'.log? f = files.log? f

section Shows

variable {maxStreamBytes : Nat} {taskId : String} {stream : Stream} {files files' : Files}
  {log : SlicedLog} {text : List Char}

theorem Shows.archivedSlices (h : Shows files taskId stream log) :
    GpuFleet.archivedSlices files taskId stream = log.archives := by
  have hrange : ∀ (l : List (List Char)) (n : Nat), l.length ≤ n →
      (List.range n).filterMap (fun i => l[i]?) = l := by
    intro l
    induction l with
    | nil => simp
    | cons slice l ih =>
        intro n hn
        obtain ⟨n, rfl⟩ := Nat.exists_eq_succ_of_ne_zero (Nat.ne_zero_of_lt hn)
        rw [List.range_succ_eq_map]
        simpa [List.filterMap_map, Function.comp_def] using ih n (by simpa using hn)
  unfold GpuFleet.archivedSlices
  simp only [h.archive]
  exact hrange _ _ h.numbered

/-- Other files do not matter. -/
theorem Shows.congr (h : Shows files taskId stream log)
    (hsame : ∀ slot, files'.log? ⟨taskId, stream, slot⟩ = files.log? ⟨taskId, stream, slot⟩) :
    Shows files' taskId stream log where
  live := by rw [liveFile, hsame, ← liveFile, h.live]
  archive i := by rw [archiveFile, hsame, ← archiveFile, h.archive]
  numbered := h.numbered

/-- The files hold the text of the log. -/
theorem Shows.storedText (h : Shows files taskId stream log) :
    GpuFleet.storedText files taskId stream = log.text := by
  rw [GpuFleet.storedText, h.archivedSlices, h.live, SlicedLog.text]

theorem Files.SameBut.refl (files : Files) : files.SameBut taskId stream files :=
  ⟨rfl, rfl, fun _ _ => rfl⟩

theorem Files.SameBut.trans {files'' : Files} (h : files.SameBut taskId stream files')
    (h' : files'.SameBut taskId stream files'') : files.SameBut taskId stream files'' :=
  ⟨h'.1.trans h.1, h'.2.1.trans h.2.1, fun f hf => (h'.2.2 f hf).trans (h.2.2 f hf)⟩

theorem Files.sameBut_write (files : Files) (taskId : String) (stream : Stream) (slot : LogSlot)
    (text : List Char) :
    files.SameBut taskId stream (files.write ⟨taskId, stream, slot⟩ text) :=
  ⟨rfl, rfl, fun f hf => Files.log?_write_of_ne text fun heq => hf (by rw [heq])⟩

theorem rotateLogStream_sameBut (h : rotateLogStream taskId stream files = some files') :
    files.SameBut taskId stream files' := by
  unfold rotateLogStream at h
  split at h
  · cases h
    exact .refl files
  · split at h
    · cases h
      exact .refl files
    · obtain ⟨index, -, rfl⟩ := Option.map_eq_some_iff.mp h
      exact (Files.sameBut_write ..).trans (Files.sameBut_write ..)

theorem Shows.firstFree (h : Shows files taskId stream log) {n index : Nat}
    (hle : index ≤ log.archives.length) :
    GpuFleet.firstFree taskId stream files n (index + 1) =
      if log.archives.length < index + n then some (log.archives.length + 1) else none := by
  induction n generalizing index with
  | zero => rw [GpuFleet.firstFree, if_neg (by omega)]
  | succ n ih =>
      rw [GpuFleet.firstFree, h.archive]
      rcases Nat.lt_or_eq_of_le hle with hlt | rfl
      · rw [if_pos (by simp [hlt]), ih hlt, Nat.succ_add_eq_add_succ]
      · rw [if_neg (by simp), if_pos (by omega)]

theorem Shows.archived (h : Shows files taskId stream log) (hlt : log.archives.length < 99999)
    (text : List Char) :
    Shows ((files.write (archiveFile taskId stream (log.archives.length + 1)) text).write
      (liveFile taskId stream) []) taskId stream ⟨log.archives ++ [text], []⟩ where
  live := by rw [Files.log?_write_self]; rfl
  archive i := by
    rw [Files.log?_write_of_ne _ (by simp [archiveFile, liveFile])]
    by_cases hi : i = log.archives.length
    · rw [hi, Files.log?_write_self, List.getElem?_concat_length]
    · rw [Files.log?_write_of_ne _ (by simp [archiveFile, hi]), h.archive]
      rcases Nat.lt_or_gt_of_ne hi with hi | hi
      · rw [List.getElem?_append_left hi]
      · rw [List.getElem?_eq_none (Nat.le_of_lt hi), List.getElem?_eq_none (by simp; omega)]
  numbered := by simp; omega

/-- A rotation of the files is one of the log, unless all numbers are taken. -/
theorem Shows.rotate (h : Shows files taskId stream log) :
    (rotateLogStream taskId stream files = none ∧ log.archives.length = 99999) ∨
      ∃ files', rotateLogStream taskId stream files = some files' ∧
        Shows files' taskId stream log.rotate := by
  have hlive := h.live
  unfold rotateLogStream
  cases hfile : files.log? (liveFile taskId stream) with
  | none =>
      rw [hfile] at hlive
      exact Or.inr ⟨files, rfl, by rwa [SlicedLog.rotate, if_pos (show log.live = [] from hlive.symm)]⟩
  | some text =>
      rw [hfile] at hlive
      simp only
      split
      · rename_i hnil
        exact Or.inr ⟨files, rfl, by rwa [SlicedLog.rotate, if_pos (hlive.symm.trans hnil)]⟩
      · rename_i hne
        have hfree := h.firstFree (n := 99999) (Nat.zero_le _)
        rw [Nat.zero_add] at hfree
        rw [nextLogArchivePath, hfree]
        split
        · rename_i hlt
          refine Or.inr ⟨_, rfl, ?_⟩
          have htext : text = log.live := hlive
          rw [SlicedLog.rotate, if_neg (htext ▸ hne), ← htext]
          exact h.archived (by omega) text
        · rename_i hge
          exact Or.inl ⟨rfl, Nat.le_antisymm h.numbered (by omega)⟩

theorem Shows.rotateFull (h : Shows files taskId stream log) (maxStreamBytes : Nat) :
    (GpuFleet.rotateFull maxStreamBytes taskId stream files = none ∧ log.archives.length = 99999) ∨
      ∃ files' log', GpuFleet.rotateFull maxStreamBytes taskId stream files = some files' ∧
        Shows files' taskId stream log' ∧ log'.text = log.text ∧ (log'.live ≠ [] → log' = log) ∧
        (utf8Length log.live ≤ maxStreamBytes → log.Extends maxStreamBytes log') := by
  unfold GpuFleet.rotateFull
  split
  · rcases h.rotate with hnone | ⟨files', hsome, hshows⟩
    · exact Or.inl hnone
    · exact Or.inr ⟨files', log.rotate, hsome, hshows, log.text_rotate, fun hne =>
        absurd log.live_rotate hne, SlicedLog.extends_rotate⟩
  · exact Or.inr ⟨files, log, rfl, h, rfl, fun _ => rfl, .refl⟩

theorem Shows.size_live (h : Shows files taskId stream log) :
    files.size (liveFile taskId stream) = utf8Length log.live := by
  rw [Files.size, h.live]

theorem Shows.append (h : Shows files taskId stream log) (chunk : List Char) :
    Shows (files.write (liveFile taskId stream)
      ((files.log? (liveFile taskId stream)).getD [] ++ chunk)) taskId stream (log.append chunk) where
  live := by rw [Files.log?_write_self, h.live]; rfl
  archive i := by
    rw [Files.log?_write_of_ne _ (by simp [archiveFile, liveFile])]
    exact h.archive i
  numbered := h.numbered

/-- How many rounds are left: two for each character, and one to empty the live file. -/
def SlicedLog.rounds (log : SlicedLog) (text : List Char) : Nat :=
  2 * text.length + if log.live = [] then 0 else 1

/-- A round takes something from the text or empties the live file, unless the numbers of the
archives run out. -/
theorem Shows.appendRound (hmax : 4 ≤ maxStreamBytes) (h : Shows files taskId stream log)
    (htext : text ≠ []) :
    ∃ log' written rest, Shows (GpuFleet.appendRound maxStreamBytes taskId stream text files).2
        taskId stream log' ∧
      text = written ++ rest ∧ log'.text = log.text ++ written ∧
      (utf8Length log.live ≤ maxStreamBytes → log.Extends maxStreamBytes log') ∧
      (((GpuFleet.appendRound maxStreamBytes taskId stream text files).1 = .error .runtime ∧
          log'.archives.length = 99999) ∨
        ((GpuFleet.appendRound maxStreamBytes taskId stream text files).1 = .ok rest ∧
          log'.rounds rest < log.rounds text)) := by
  unfold GpuFleet.appendRound
  rcases h.rotateFull maxStreamBytes with
    ⟨hnone, hlen⟩ | ⟨files₁, log₁, hsome, h₁, hsametext, hsame, hfits₁⟩
  · rw [hnone]
    exact ⟨log, [], text, h, rfl, (List.append_nil _).symm, .refl, Or.inl ⟨rfl, hlen⟩⟩
  · rw [hsome]
    have hcut := takeTextPrefixByBytes_append text
      (maxStreamBytes - files₁.size (liveFile taskId stream))
    have hnonempty : log₁.live = [] → (takeTextPrefixByBytes text
        (maxStreamBytes - files₁.size (liveFile taskId stream))).1 ≠ [] := by
      intro hlive
      rw [h₁.size_live, hlive]
      exact takeTextPrefixByBytes_ne_nil hmax htext
    have hroom := utf8Length_takeTextPrefixByBytes text
      (maxStreamBytes - files₁.size (liveFile taskId stream))
    simp only
    rw [h₁.size_live] at hcut hnonempty hroom ⊢
    generalize takeTextPrefixByBytes text (maxStreamBytes - utf8Length log₁.live) = cut
      at hcut hnonempty hroom ⊢
    obtain ⟨chunk, rest⟩ := cut
    simp only at hcut hnonempty hroom ⊢
    split
    · rename_i hnil
      have hlive : log₁.live ≠ [] := fun hlive => hnonempty hlive hnil
      have heq := hsame hlive
      have hrest : text = [] ++ rest := by rw [← hcut, hnil]
      rcases h₁.rotate with ⟨hnone, hlen⟩ | ⟨files₂, hsome, h₂⟩
      · rw [hnone]
        refine ⟨log₁, [], rest, h₁, hrest, ?_, hfits₁, Or.inl ⟨rfl, hlen⟩⟩
        rw [hsametext, List.append_nil]
      · rw [hsome]
        refine ⟨_, [], rest, h₂, hrest, ?_, ?_, Or.inr ⟨rfl, ?_⟩⟩
        · rw [SlicedLog.text_rotate, hsametext, List.append_nil]
        · intro hlimit
          have hfits := hfits₁ hlimit
          exact hfits.trans (SlicedLog.extends_rotate hfits.live)
        · rw [SlicedLog.rounds, SlicedLog.rounds, SlicedLog.live_rotate, if_pos rfl, ← hcut, hnil,
            List.nil_append, ← heq, if_neg hlive]
          exact Nat.lt_succ_self _
    · rename_i hne
      have h₂ := h₁.append chunk
      have htext₂ : (log₁.append chunk).text = log.text ++ chunk := by
        rw [SlicedLog.text_append, hsametext]
      have hfits₂ (hlimit : utf8Length log.live ≤ maxStreamBytes) :
          log.Extends maxStreamBytes (log₁.append chunk) := by
        have hlive := (hfits₁ hlimit).live
        exact (hfits₁ hlimit).trans (SlicedLog.extends_append (by omega))
      rcases h₂.rotateFull maxStreamBytes with
        ⟨hnone, hlen⟩ | ⟨files₃, log₃, hsome, h₃, htext₃, -, hfits₃⟩
      · rw [hnone]
        exact ⟨_, chunk, rest, h₂, hcut.symm, htext₂, hfits₂, Or.inl ⟨rfl, hlen⟩⟩
      · rw [hsome]
        refine ⟨log₃, chunk, rest, h₃, hcut.symm, htext₃.trans htext₂, fun hlimit => ?_,
          Or.inr ⟨rfl, ?_⟩⟩
        · exact (hfits₂ hlimit).trans (hfits₃ (hfits₂ hlimit).live)
        · have hpos := List.length_pos_iff.mpr hne
          have hlen : text.length = chunk.length + rest.length := by rw [← hcut, List.length_append]
          unfold SlicedLog.rounds
          split <;> split <;> omega

/-- The loop writes the text, or as much of it as there are numbers of archives for. -/
theorem Shows.appendLoop (hmax : 4 ≤ maxStreamBytes) {fuel : Nat}
    (h : Shows files taskId stream log) (hfuel : log.rounds text ≤ fuel) :
    ∃ log' written rest, Shows
        (GpuFleet.appendLoop maxStreamBytes taskId stream fuel text files).2 taskId stream log' ∧
      text = written ++ rest ∧ log'.text = log.text ++ written ∧
      (utf8Length log.live ≤ maxStreamBytes → log.Extends maxStreamBytes log') ∧
      (((GpuFleet.appendLoop maxStreamBytes taskId stream fuel text files).1 = .error .runtime ∧
          log'.archives.length = 99999) ∨
        ((GpuFleet.appendLoop maxStreamBytes taskId stream fuel text files).1 = .ok () ∧
          rest = [])) := by
  induction fuel generalizing files log text with
  | zero =>
      have hnil : text = [] := by
        unfold SlicedLog.rounds at hfuel
        exact List.length_eq_zero_iff.mp (by omega)
      rw [GpuFleet.appendLoop, if_pos hnil]
      exact ⟨log, [], [], h, hnil, (List.append_nil _).symm, .refl, Or.inr ⟨rfl, rfl⟩⟩
  | succ fuel ih =>
      rw [GpuFleet.appendLoop]
      split
      · rename_i hnil
        exact ⟨log, [], [], h, hnil, (List.append_nil _).symm, .refl, Or.inr ⟨rfl, rfl⟩⟩
      · rename_i hne
        obtain ⟨log₁, written, rest, h₁, htext, hwritten, hfits, hround⟩ := h.appendRound hmax hne
        generalize GpuFleet.appendRound maxStreamBytes taskId stream text files = out at h₁ hround
        obtain ⟨result, files₁⟩ := out
        rcases hround with ⟨rfl, hlen⟩ | ⟨rfl, hrounds⟩
        · exact ⟨log₁, written, rest, h₁, htext, hwritten, hfits, Or.inl ⟨rfl, hlen⟩⟩
        · have hleft := Nat.le_of_lt_succ (Nat.lt_of_lt_of_le hrounds hfuel)
          obtain ⟨log₂, written₂, rest₂, h₂, htext₂, hwritten₂, hfits₂, hloop⟩ :=
            ih (show Shows files₁ taskId stream log₁ from h₁) hleft
          refine ⟨log₂, written ++ written₂, rest₂, h₂, ?_, ?_, fun hlimit => ?_, hloop⟩
          · rw [htext, htext₂, List.append_assoc]
          · rw [hwritten₂, hwritten, List.append_assoc]
          · exact (hfits hlimit).trans (hfits₂ (hfits hlimit).live)

/-- An append adds its text at the end of the log, or the numbers of the archives run out. -/
theorem Shows.appendLogChunk (hmax : 4 ≤ maxStreamBytes) (h : Shows files taskId stream log)
    (text : List Char) :
    ∃ log', Shows (GpuFleet.appendLogChunk maxStreamBytes taskId stream text files).2
        taskId stream log' ∧
      (((GpuFleet.appendLogChunk maxStreamBytes taskId stream text files).1 = .error .runtime ∧
          log'.archives.length = 99999) ∨
        ((GpuFleet.appendLogChunk maxStreamBytes taskId stream text files).1 = .ok () ∧
          log'.text = log.text ++ text)) := by
  have hfuel : log.rounds text ≤ 2 * text.length + 2 := by
    unfold SlicedLog.rounds
    split <;> omega
  obtain ⟨log', written, rest, hshows, htext, hwritten, -, hend⟩ := h.appendLoop hmax hfuel
  refine ⟨log', hshows, hend.imp id fun ⟨hok, hrest⟩ => ⟨hok, ?_⟩⟩
  rw [hwritten, htext, hrest, List.append_nil]

/-- An append ends.  Where it does not run out of numbers for archives, the archives and the live
file hold what they held and then the text; the archives it adds and the live file fit. -/
theorem append_log_chunk_loses_nothing (hmax : 4 ≤ maxStreamBytes)
    (hlog : Shows files taskId stream log)
    (hlive : files.size (liveFile taskId stream) ≤ maxStreamBytes) (text : List Char) :
    let out := GpuFleet.appendLogChunk maxStreamBytes taskId stream text files
    ∃ slices written rest,
      text = written ++ rest ∧
      GpuFleet.storedText out.2 taskId stream = GpuFleet.storedText files taskId stream ++ written ∧
      GpuFleet.archivedSlices out.2 taskId stream =
        GpuFleet.archivedSlices files taskId stream ++ slices ∧
      (∀ slice ∈ slices, utf8Length slice ≤ maxStreamBytes) ∧
      out.2.size (liveFile taskId stream) ≤ maxStreamBytes ∧
      ((out.1 = .ok () ∧ rest = []) ∨
        (out.1 = .error .runtime ∧
          (GpuFleet.archivedSlices out.2 taskId stream).length = 99999)) := by
  intro out
  have hfuel : log.rounds text ≤ 2 * text.length + 2 := by
    unfold SlicedLog.rounds
    split <;> omega
  obtain ⟨log', written, rest, hlog', htext, hwritten, hextends, hend⟩ := hlog.appendLoop hmax hfuel
  obtain ⟨⟨slices, harchives, hfits⟩, hfits'⟩ := hextends (hlog.size_live ▸ hlive)
  refine ⟨slices, written, rest, htext, ?_, ?_, hfits, ?_, ?_⟩
  · rw [hlog.storedText, ← hwritten]
    exact hlog'.storedText
  · rw [hlog.archivedSlices, ← harchives]
    exact hlog'.archivedSlices
  · exact Nat.le_trans (Nat.le_of_eq hlog'.size_live) hfits'
  · rcases hend with ⟨herror, hfull⟩ | ⟨hok, hrest⟩
    · exact Or.inr ⟨herror, (congrArg List.length hlog'.archivedSlices).trans hfull⟩
    · exact Or.inl ⟨hok, hrest⟩

/-- Before the first chunk nothing is stored. -/
theorem noFiles_show_nothing (taskId : String) (stream : Stream) : Shows {} taskId stream ⟨[], []⟩ :=
  ⟨rfl, fun _ => rfl, Nat.zero_le _⟩

/-- Three characters, of two bytes each, fill an archive of two and leave one. -/
theorem append_log_chunk_twoBytes :
    let out := GpuFleet.appendLogChunk 5 "t" .stdout ['é', 'ü', 'ß'] {}
    out.1.isOk = true ∧ ∃ slices written rest,
      ['é', 'ü', 'ß'] = written ++ rest ∧
      GpuFleet.storedText out.2 "t" .stdout = GpuFleet.storedText {} "t" .stdout ++ written ∧
      GpuFleet.archivedSlices out.2 "t" .stdout =
        GpuFleet.archivedSlices {} "t" .stdout ++ slices ∧
      (∀ slice ∈ slices, utf8Length slice ≤ 5) ∧
      out.2.size (liveFile "t" .stdout) ≤ 5 ∧
      ((out.1 = .ok () ∧ rest = []) ∨
        (out.1 = .error .runtime ∧ (GpuFleet.archivedSlices out.2 "t" .stdout).length = 99999)) :=
  ⟨by rfl, append_log_chunk_loses_nothing (by decide) (noFiles_show_nothing "t" .stdout) (by decide)
    ['é', 'ü', 'ß']⟩

/-! ## What an append leaves -/

theorem rotateFull_sameBut (h : GpuFleet.rotateFull maxStreamBytes taskId stream files = some files') :
    files.SameBut taskId stream files' := by
  unfold GpuFleet.rotateFull at h
  split at h
  · exact rotateLogStream_sameBut h
  · cases h
    exact .refl files

theorem appendRound_sameBut (maxStreamBytes : Nat) (taskId : String) (stream : Stream)
    (text : List Char) (files : Files) :
    files.SameBut taskId stream (GpuFleet.appendRound maxStreamBytes taskId stream text files).2 := by
  unfold GpuFleet.appendRound
  split
  · exact .refl files
  · rename_i files₁ h₁
    refine (rotateFull_sameBut h₁).trans ?_
    simp only
    split
    · split
      · exact .refl files₁
      · exact rotateLogStream_sameBut ‹_›
    · have hwrite := files₁.sameBut_write taskId stream .live
        ((files₁.log? (liveFile taskId stream)).getD [] ++
          (takeTextPrefixByBytes text (maxStreamBytes - files₁.size (liveFile taskId stream))).1)
      split
      · exact hwrite
      · exact hwrite.trans (rotateFull_sameBut ‹_›)

/-- An append leaves the files of other streams. -/
theorem appendLogChunk_sameBut (text : List Char) (files : Files) :
    files.SameBut taskId stream (GpuFleet.appendLogChunk maxStreamBytes taskId stream text files).2 := by
  have hloop : ∀ fuel text files,
      Files.SameBut taskId stream files (GpuFleet.appendLoop maxStreamBytes taskId stream fuel text files).2 := by
    intro fuel
    induction fuel with
    | zero =>
        intro text files
        rw [GpuFleet.appendLoop]
        split <;> exact .refl files
    | succ fuel ih =>
        intro text files
        rw [GpuFleet.appendLoop]
        split
        · exact .refl files
        · have hround := appendRound_sameBut maxStreamBytes taskId stream text files
          generalize GpuFleet.appendRound maxStreamBytes taskId stream text files = out at hround
          obtain ⟨result, files₁⟩ := out
          cases result with
          | error e => exact hround
          | ok rest => exact hround.trans (ih rest files₁)
  exact hloop _ _ _

/-- An append raises nothing but a `RuntimeError`. -/
theorem appendLogChunk_error {e : Exc} (text : List Char) (files : Files)
    (he : (GpuFleet.appendLogChunk maxStreamBytes taskId stream text files).1 = .error e) :
    e = .runtime ∨ e = .diverges := by
  have hround : ∀ text files e,
      (GpuFleet.appendRound maxStreamBytes taskId stream text files).1 = .error e → e = .runtime := by
    intro text files e he
    unfold GpuFleet.appendRound at he
    split at he
    · cases he
      rfl
    · simp only at he
      split at he <;> split at he <;> cases he <;> rfl
  have hloop : ∀ fuel text files,
      (GpuFleet.appendLoop maxStreamBytes taskId stream fuel text files).1 = .error e →
        e = .runtime ∨ e = .diverges := by
    intro fuel
    induction fuel with
    | zero =>
        intro text files he
        rw [GpuFleet.appendLoop] at he
        split at he <;> cases he
        exact Or.inr rfl
    | succ fuel ih =>
        intro text files he
        rw [GpuFleet.appendLoop] at he
        split at he
        · cases he
        · have hround := hround text files
          generalize GpuFleet.appendRound maxStreamBytes taskId stream text files = out at hround he
          obtain ⟨result, files₁⟩ := out
          cases result with
          | error e' =>
              cases he
              exact Or.inl (hround e rfl)
          | ok rest => exact ih rest files₁ he
  exact hloop _ _ _ he

/-- Archives stay, and there is a new one or the live file has grown by `chunk`. -/
structure Grown (taskId : String) (stream : Stream) (files files' : Files) (chunk : List Char) :
    Prop where
  kept : ∀ index, (files.log? (archiveFile taskId stream index)).isSome = true →
    (files'.log? (archiveFile taskId stream index)).isSome = true
  new : (∃ index, files.log? (archiveFile taskId stream index) = none ∧
      (files'.log? (archiveFile taskId stream index)).isSome = true) ∨
    (files'.log? (liveFile taskId stream)).getD [] =
      (files.log? (liveFile taskId stream)).getD [] ++ chunk

theorem Grown.refl (files : Files) : Grown taskId stream files files [] :=
  ⟨fun _ => id, Or.inr (List.append_nil _).symm⟩

theorem Grown.trans {files'' : Files} {chunk chunk' : List Char}
    (h : Grown taskId stream files files' chunk) (h' : Grown taskId stream files' files'' chunk') :
    Grown taskId stream files files'' (chunk ++ chunk') := by
  refine ⟨fun index hsome => h'.kept index (h.kept index hsome), ?_⟩
  rcases h.new with ⟨index, hnone, hsome⟩ | hlive
  · exact Or.inl ⟨index, hnone, h'.kept index hsome⟩
  · rcases h'.new with ⟨index, hnone, hsome⟩ | hlive'
    · refine Or.inl ⟨index, ?_, hsome⟩
      by_contra hne
      have := h.kept index (Option.isSome_iff_ne_none.mpr hne)
      rw [hnone] at this
      cases this
    · exact Or.inr (by rw [hlive', hlive, List.append_assoc])

theorem firstFree_none {n first index : Nat} (h : GpuFleet.firstFree taskId stream files n first = some index) :
    files.log? (archiveFile taskId stream index) = none := by
  induction n generalizing first with
  | zero => cases h
  | succ n ih =>
      rw [GpuFleet.firstFree] at h
      split at h
      · exact ih h
      · rename_i hfree
        cases h
        simpa using hfree

theorem rotateLogStream_grown (h : rotateLogStream taskId stream files = some files') :
    Grown taskId stream files files' [] := by
  unfold rotateLogStream at h
  split at h
  · cases h
    exact .refl files
  · split at h
    · cases h
      exact .refl files
    · obtain ⟨index, hindex, rfl⟩ := Option.map_eq_some_iff.mp h
      have hne (i : Nat) : archiveFile taskId stream i ≠ liveFile taskId stream := by
        simp [archiveFile, liveFile]
      refine ⟨fun i hsome => ?_, Or.inl ⟨index, firstFree_none hindex, ?_⟩⟩
      · rw [Files.log?_write_of_ne _ (hne i)]
        by_cases hi : archiveFile taskId stream i = archiveFile taskId stream index
        · rw [hi, Files.log?_write_self]
          rfl
        · rwa [Files.log?_write_of_ne _ hi]
      · rw [Files.log?_write_of_ne _ (hne index), Files.log?_write_self]
        rfl

theorem rotateFull_grown (h : GpuFleet.rotateFull maxStreamBytes taskId stream files = some files') :
    Grown taskId stream files files' [] := by
  unfold GpuFleet.rotateFull at h
  split at h
  · exact rotateLogStream_grown h
  · cases h
    exact .refl files

theorem grown_write (files : Files) (chunk : List Char) :
    Grown taskId stream files (files.write (liveFile taskId stream)
      ((files.log? (liveFile taskId stream)).getD [] ++ chunk)) chunk := by
  refine ⟨fun i hsome => ?_, Or.inr (by rw [Files.log?_write_self]; rfl)⟩
  rwa [Files.log?_write_of_ne _ (by simp [archiveFile, liveFile])]

theorem appendRound_grown {rest : List Char}
    (h : GpuFleet.appendRound maxStreamBytes taskId stream text files = (.ok rest, files')) :
    ∃ chunk, chunk ++ rest = text ∧ Grown taskId stream files files' chunk := by
  unfold GpuFleet.appendRound at h
  split at h
  · cases h
  · rename_i files₁ h₁
    refine ⟨(takeTextPrefixByBytes text (maxStreamBytes - files₁.size (liveFile taskId stream))).1, ?_⟩
    simp only at h
    split at h
    · rename_i hnil
      split at h
      · cases h
      · rename_i h₂
        cases h
        refine ⟨takeTextPrefixByBytes_append .., ?_⟩
        rw [hnil]
        exact (rotateFull_grown h₁).trans (rotateLogStream_grown h₂)
    · split at h
      · cases h
      · rename_i h₂
        cases h
        refine ⟨takeTextPrefixByBytes_append .., ?_⟩
        have hgrown := (rotateFull_grown h₁).trans
          ((grown_write files₁ _).trans (rotateFull_grown h₂))
        rwa [List.nil_append, List.append_nil] at hgrown

/-- An append of some text that succeeds changes a file of its stream. -/
theorem appendLogChunk_changes (text : List Char) (files : Files) (hne : text ≠ [])
    (hok : (GpuFleet.appendLogChunk maxStreamBytes taskId stream text files).1 = .ok ()) :
    ∃ slot, (GpuFleet.appendLogChunk maxStreamBytes taskId stream text files).2.log?
      ⟨taskId, stream, slot⟩ ≠ files.log? ⟨taskId, stream, slot⟩ := by
  have hloop : ∀ fuel text files,
      (GpuFleet.appendLoop maxStreamBytes taskId stream fuel text files).1 = .ok () →
        Grown taskId stream files
          (GpuFleet.appendLoop maxStreamBytes taskId stream fuel text files).2 text := by
    intro fuel
    induction fuel with
    | zero =>
        intro text files hok
        rw [GpuFleet.appendLoop] at hok ⊢
        split at hok
        · rename_i hnil
          rw [if_pos hnil, hnil]
          exact .refl files
        · cases hok
    | succ fuel ih =>
        intro text files hok
        rw [GpuFleet.appendLoop] at hok ⊢
        split at hok
        · rename_i hnil
          rw [if_pos hnil, hnil]
          exact .refl files
        · rename_i htext
          rw [if_neg htext]
          cases hround : GpuFleet.appendRound maxStreamBytes taskId stream text files with
          | mk result files₁ =>
              rw [hround] at hok
              cases result with
              | error e => cases hok
              | ok rest =>
                  obtain ⟨chunk, rfl, hgrown⟩ := appendRound_grown hround
                  exact hgrown.trans (ih rest files₁ hok)
  rcases (hloop _ text files hok).new with ⟨index, hnone, hsome⟩ | hlive
  · refine ⟨.archive index, fun heq => ?_⟩
    rw [show files.log? ⟨taskId, stream, .archive index⟩ = none from hnone] at heq
    rw [appendLogChunk, archiveFile] at *
    rw [heq] at hsome
    cases hsome
  · refine ⟨.live, fun heq => hne ?_⟩
    rw [liveFile] at hlive
    rw [appendLogChunk] at heq
    rw [heq] at hlive
    exact List.append_right_eq_self.mp hlive.symm

end Shows

/-! ## What an append reads -/

/-- The files of the stream are the same. -/
def Files.SameStream (taskId : String) (stream : Stream) (files files' : Files) : Prop :=
  ∀ slot, files.log? ⟨taskId, stream, slot⟩ = files'.log? ⟨taskId, stream, slot⟩

section SameStream

variable {maxStreamBytes : Nat} {taskId : String} {stream : Stream} {files files' : Files}

theorem Files.SameStream.write (h : files.SameStream taskId stream files') (slot : LogSlot)
    (text : List Char) : (files.write ⟨taskId, stream, slot⟩ text).SameStream taskId stream
      (files'.write ⟨taskId, stream, slot⟩ text) := by
  intro slot'
  by_cases hslot : slot' = slot
  · rw [hslot, Files.log?_write_self, Files.log?_write_self]
  · have hne : (⟨taskId, stream, slot'⟩ : LogFile) ≠ ⟨taskId, stream, slot⟩ := by simp [hslot]
    rw [Files.log?_write_of_ne _ hne, Files.log?_write_of_ne _ hne]
    exact h slot'

theorem Files.SameStream.size_live (h : files.SameStream taskId stream files') :
    files.size (liveFile taskId stream) = files'.size (liveFile taskId stream) := by
  have hlive : files.log? (liveFile taskId stream) = files'.log? (liveFile taskId stream) := h .live
  rw [Files.size, Files.size, hlive]

theorem Files.SameStream.firstFree (h : files.SameStream taskId stream files') (n index : Nat) :
    GpuFleet.firstFree taskId stream files n index =
      GpuFleet.firstFree taskId stream files' n index := by
  induction n generalizing index with
  | zero => rfl
  | succ n ih =>
      have hfile : files.log? (archiveFile taskId stream index) =
          files'.log? (archiveFile taskId stream index) := h (.archive index)
      rw [GpuFleet.firstFree, GpuFleet.firstFree, hfile, ih]

theorem Files.SameStream.rotate (h : files.SameStream taskId stream files') :
    Option.Rel (Files.SameStream taskId stream) (rotateLogStream taskId stream files)
      (rotateLogStream taskId stream files') := by
  have hlive : files.log? (liveFile taskId stream) = files'.log? (liveFile taskId stream) := h .live
  unfold rotateLogStream nextLogArchivePath
  rw [hlive, h.firstFree]
  cases files'.log? (liveFile taskId stream) with
  | none => exact .some h
  | some text =>
      simp only
      split
      · exact .some h
      · cases GpuFleet.firstFree taskId stream files' 99999 1 with
        | none => exact .none
        | some index => exact .some ((h.write (.archive index) text).write .live [])

theorem Files.SameStream.rotateFull (h : files.SameStream taskId stream files')
    (maxStreamBytes : Nat) : Option.Rel (Files.SameStream taskId stream)
      (GpuFleet.rotateFull maxStreamBytes taskId stream files)
      (GpuFleet.rotateFull maxStreamBytes taskId stream files') := by
  unfold GpuFleet.rotateFull
  rw [h.size_live]
  split
  · exact h.rotate
  · exact .some h

/-- A round does the same to a stream whose files are the same. -/
theorem Files.SameStream.appendRound (h : files.SameStream taskId stream files')
    (maxStreamBytes : Nat) (text : List Char) :
    let out := GpuFleet.appendRound maxStreamBytes taskId stream text files
    let out' := GpuFleet.appendRound maxStreamBytes taskId stream text files'
    out.1 = out'.1 ∧ out.2.SameStream taskId stream out'.2 := by
  simp only [GpuFleet.appendRound]
  have hfull := h.rotateFull maxStreamBytes
  generalize GpuFleet.rotateFull maxStreamBytes taskId stream files = r at hfull
  generalize GpuFleet.rotateFull maxStreamBytes taskId stream files' = r' at hfull
  cases hfull with
  | none => exact ⟨rfl, h⟩
  | @some files₁ files₁' h₁ =>
      have hlive : files₁.log? (liveFile taskId stream) = files₁'.log? (liveFile taskId stream) :=
        h₁ .live
      simp only [h₁.size_live, hlive]
      split
      · have hrotate := h₁.rotate
        generalize rotateLogStream taskId stream files₁ = r at hrotate ⊢
        generalize rotateLogStream taskId stream files₁' = r' at hrotate ⊢
        cases hrotate with
        | none => exact ⟨rfl, h₁⟩
        | some h₂ => exact ⟨rfl, h₂⟩
      · generalize (files₁'.log? (liveFile taskId stream)).getD [] ++ _ = written
        have hwrite : (files₁.write (liveFile taskId stream) written).SameStream taskId stream
            (files₁'.write (liveFile taskId stream) written) := h₁.write .live written
        have hrotate := hwrite.rotateFull maxStreamBytes
        generalize files₁.write (liveFile taskId stream) written = files₂ at hwrite hrotate ⊢
        generalize files₁'.write (liveFile taskId stream) written = files₂' at hwrite hrotate ⊢
        generalize GpuFleet.rotateFull maxStreamBytes taskId stream files₂ = r at hrotate ⊢
        generalize GpuFleet.rotateFull maxStreamBytes taskId stream files₂' = r' at hrotate ⊢
        cases hrotate with
        | none => exact ⟨rfl, hwrite⟩
        | some h₂ => exact ⟨rfl, h₂⟩

/-- An append does the same to a stream whose files are the same. -/
theorem Files.SameStream.appendLogChunk (h : files.SameStream taskId stream files')
    (maxStreamBytes : Nat) (text : List Char) :
    let out := GpuFleet.appendLogChunk maxStreamBytes taskId stream text files
    let out' := GpuFleet.appendLogChunk maxStreamBytes taskId stream text files'
    out.1 = out'.1 ∧ out.2.SameStream taskId stream out'.2 := by
  have hloop : ∀ fuel text (files files' : Files), files.SameStream taskId stream files' →
      let out := GpuFleet.appendLoop maxStreamBytes taskId stream fuel text files
      let out' := GpuFleet.appendLoop maxStreamBytes taskId stream fuel text files'
      out.1 = out'.1 ∧ out.2.SameStream taskId stream out'.2 := by
    intro fuel
    induction fuel with
    | zero =>
        intro text files files' h
        simp only [GpuFleet.appendLoop]
        split <;> exact ⟨rfl, h⟩
    | succ fuel ih =>
        intro text files files' h
        simp only [GpuFleet.appendLoop]
        split
        · exact ⟨rfl, h⟩
        · have hround := h.appendRound maxStreamBytes text
          generalize GpuFleet.appendRound maxStreamBytes taskId stream text files = out at hround
          generalize GpuFleet.appendRound maxStreamBytes taskId stream text files' = out' at hround
          obtain ⟨result, files₁⟩ := out
          obtain ⟨result', files₁'⟩ := out'
          obtain ⟨hresult, hfiles⟩ := hround
          cases hresult
          cases result with
          | error e => exact ⟨rfl, hfiles⟩
          | ok rest => exact ih rest files₁ files₁' hfiles
  exact hloop _ _ _ _ h

end SameStream

end GpuFleet
