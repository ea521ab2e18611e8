import GpuFleet.Foundations.Transfer
import GpuFleet.Server.TaskLogs

/-!
# The log pump

The agent copies the local log of a task to the server.  `upload_incremental_logs`
reads what lies beyond the acknowledged offset and posts it in chunks of 3500
characters, and stores the end of a chunk when its answer comes back.

The steps of `LogPump` are those of the pump, of the network and of the server's
handler.  A chunk may arrive at any later time, and more than once, an answer may
get lost, and the agent may stop anywhere.  Each step is a step of a transfer,
or does nothing to it (`Simulates.step`).  So the archives and the live file on
the server hold a prefix of the local log (`log_assembled`).
-/

namespace GpuFleet

open Foundations

/-! ## The pump -/

/-- `LOG_CHUNK_SIZE` -/
def logChunkSize : Nat := 3500

/-- What reading a file in text mode makes of its line ends. -/
def universalNewlines : List Char → List Char
  | [] => []
  | '\r' :: '\n' :: rest => '\n' :: universalNewlines rest
  | '\r' :: rest => '\n' :: universalNewlines rest
  | c :: rest => c :: universalNewlines rest

/-- `read_text_slice` of a file, with the new offset. -/
def readTextSlice (file : List Char) (offset : Nat) : List Char × Nat :=
  let text := universalNewlines file
  if text.length ≤ offset then ([], text.length) else (text.drop offset, text.length)

/-- `send_log_chunks_with_ack` under way: where its next chunk starts and what is left. -/
structure Upload extends Foundations.Part Char where
  final : Bool

/-- The call of `send_log_chunks_with_ack` in `upload_incremental_logs`, if there is one. -/
def uploadIncrementalLogs (file : List Char) (ackedOffset : Nat) (final : Bool) : Option Upload :=
  let (text, _) := readTextSlice file ackedOffset
  if text ≠ [] ∨ final then some { offset := ackedOffset, text, final } else none

section Chunks

variable (taskId : String) (stream : Stream)

/-- The chunk an upload posts next. -/
def Upload.payload (u : Upload) : NodeTaskLogChunkRequest where
  taskId
  stream
  offsetStart := u.offset
  text := u.text.take logChunkSize
  isFinal := u.final && u.text.length ≤ logChunkSize

/-- The upload after its next chunk. -/
def Upload.advance (u : Upload) : Option Upload :=
  if u.text.length ≤ logChunkSize then none
  else some { u with offset := u.offset + logChunkSize, text := u.text.drop logChunkSize }

end Chunks

/-- The agent, the chunks on their way, and the server. -/
structure LogPump where
  /-- The local log. -/
  file : List Char
  ackedOffset : Nat
  upload : Option Upload
  posted : List NodeTaskLogChunkRequest
  answered : List NodeTaskLogChunkRequest
  db : Db
  world : World

namespace LogPump

section Steps

variable (settings : Settings) (gzipSize : List Char → Nat) (nodeId taskId : String)
  (stream : Stream)

/-- The row of the stream. -/
def row (s : LogPump) : Option TaskLog := s.db.logs.get? (taskId, stream)

/-- The server handles a chunk. -/
def handle (s : LogPump) (payload : NodeTaskLogChunkRequest) (now : Nat) : LogPump :=
  let p := taskLogChunk settings gzipSize nodeId payload now
  { s with
    answered := match p.resultOf s.db s.world with
      | .ok _ => s.answered ++ [payload]
      | .error _ => s.answered
    db := p.dbAfter s.db s.world
    world := p.outsideAfter s.db s.world }

/-- The server fails to handle a chunk. -/
def handleFailing (s : LogPump) (payload : NodeTaskLogChunkRequest) (r : FailingRequest) : LogPump :=
  let p := failingChunk settings gzipSize nodeId payload r
  { s with db := p.dbAfter s.db s.world, world := p.outsideAfter s.db s.world }

/-- The steps. -/
inductive Step : LogPump → LogPump → Prop
  /-- The task prints. -/
  | grow (s : LogPump) (more : List Char) (hplain : '\r' ∉ more) :
      Step s { s with file := s.file ++ more }
  | poll (s : LogPump) (final : Bool) (hidle : s.upload = none) :
      Step s { s with upload := uploadIncrementalLogs s.file s.ackedOffset final }
  | post (s : LogPump) (u : Upload) (hupload : s.upload = some u) :
      Step s { s with posted := s.posted ++ [u.payload taskId stream] }
  | arrive (s : LogPump) (payload : NodeTaskLogChunkRequest) (now : Nat)
      (hposted : payload ∈ s.posted) :
      Step s (s.handle settings gzipSize nodeId payload now)
  /-- A statement or the commit fails, but not after an append. -/
  | arriveFailing (s : LogPump) (payload : NodeTaskLogChunkRequest) (r : FailingRequest)
      (hposted : payload ∈ s.posted)
      (hfails : Fails settings gzipSize nodeId payload r s.db s.world)
      (hharmless : Harmless settings gzipSize nodeId payload r s.db s.world) :
      Step s (s.handleFailing settings gzipSize nodeId payload r)
  /-- The answer to the chunk comes back, and its end is stored. -/
  | answer (s : LogPump) (u : Upload) (hupload : s.upload = some u)
      (hanswered : u.payload taskId stream ∈ s.answered) :
      Step s { s with
        ackedOffset := u.offset + (u.text.take logChunkSize).length
        upload := u.advance }
  /-- An exception or a restart of the agent. -/
  | giveUp (s : LogPump) : Step s { s with upload := none }
  /-- `clear_log_offsets`. -/
  | clear (s : LogPump) : Step s { s with ackedOffset := 0 }
  /-- Anything else on the server: it leaves the stream's row and files. -/
  | other (s : LogPump) (db : Db) (world : World)
      (hrow : db.logs.get? (taskId, stream) = s.row taskId stream)
      (hfiles : ∀ slot, world.files.log? ⟨taskId, stream, slot⟩ =
        s.world.files.log? ⟨taskId, stream, slot⟩) :
      Step s { s with db, world }

/-- The states reached from a task without a log on the server, with archive numbers left. -/
inductive Reachable : LogPump → Prop
  | start (file : List Char) (db : Db) (world : World) (hplain : '\r' ∉ file)
      (hrow : db.logs.get? (taskId, stream) = none)
      (hfiles : ∀ slot, world.files.log? ⟨taskId, stream, slot⟩ = none) :
      Reachable ⟨file, 0, none, [], [], db, world⟩
  | step {s s' : LogPump} (h : Reachable s)
      (hstep : Step settings gzipSize nodeId taskId stream s s')
      (hroom : (archivedSlices s'.world.files taskId stream).length < 99999) : Reachable s'

end Steps

/-! ## The transfer -/

section Simulation

variable {settings : Settings} {gzipSize : List Char → Nat} {nodeId taskId : String}
  {stream : Stream} {s s' : LogPump} {t : Transfer Char}

/-- The part of the log in a chunk. -/
def partOf (payload : NodeTaskLogChunkRequest) : Foundations.Part Char :=
  ⟨payload.offsetStart, payload.text⟩

/-- The pump and the server carry out the transfer. -/
structure Simulates (taskId : String) (stream : Stream) (s : LogPump) (t : Transfer Char) : Prop where
  source : s.file = t.source
  plain : '\r' ∉ s.file
  acked : s.ackedOffset = t.acked
  upload : ∀ u, s.upload = some u → t.upload = some u.toPart
  posted : ∀ c ∈ s.posted, (c.taskId, c.stream) = (taskId, stream) ∧ partOf c ∈ t.posted
  answered : ∀ c ∈ s.answered, partOf c ∈ t.answered
  offset : storedOffset (s.row taskId stream) = t.received.length
  preview : storedPreview (s.row taskId stream) = lastChars 4000 t.received
  files : ∃ log, Shows s.world.files taskId stream log ∧ log.text = t.received

theorem universalNewlines_of_plain {file : List Char} (h : '\r' ∉ file) :
    universalNewlines file = file := by
  induction file with
  | nil => rfl
  | cons c rest ih =>
      have hc : c ≠ '\r' := fun heq => h (heq ▸ List.mem_cons_self)
      rw [universalNewlines, ih fun hmem => h (List.mem_cons_of_mem c hmem)]
      · rintro rest' rfl -
        exact hc rfl
      · exact hc

/-- An upload starts at the acknowledged offset with the rest of the log. -/
theorem uploadIncrementalLogs_some {file : List Char} {ackedOffset : Nat} {final : Bool}
    {u : Upload} (hplain : '\r' ∉ file)
    (hu : uploadIncrementalLogs file ackedOffset final = some u) :
    u.toPart = ⟨ackedOffset, file.drop ackedOffset⟩ := by
  unfold uploadIncrementalLogs readTextSlice at hu
  rw [universalNewlines_of_plain hplain] at hu
  simp only at hu
  by_cases hle : file.length ≤ ackedOffset
  · rw [if_pos hle] at hu
    split at hu <;> cases hu
    rw [List.drop_eq_nil_of_le hle]
  · rw [if_neg hle] at hu
    split at hu <;> cases hu
    rfl

/-- A preview is the end of the text it has seen. -/
theorem lastChars_append (n : Nat) (a b : List Char) :
    lastChars n (lastChars n a ++ b) = lastChars n (a ++ b) := by
  have hend : lastChars n a ++ b = (a ++ b).drop (a.length - n) :=
    (List.drop_append_of_le_length (Nat.sub_le ..)).symm
  rw [hend, lastChars, lastChars, List.drop_drop, List.length_drop, List.length_append]
  congr 1
  omega

theorem Simulates.handle {payload : NodeTaskLogChunkRequest} (now : Nat)
    (h : Simulates taskId stream s t) (hmax : 4 ≤ settings.taskLogStreamMaxBytes)
    (hposted : payload ∈ s.posted)
    (hroom : (archivedSlices (s.handle settings gzipSize nodeId payload now).world.files taskId
      stream).length < 99999) :
    ∃ t', Relation.ReflTransGen (Transfer.Step logChunkSize) t t' ∧
      Simulates taskId stream (s.handle settings gzipSize nodeId payload now) t' := by
  obtain ⟨howner, hpart⟩ := h.posted payload hposted
  obtain ⟨rfl, rfl⟩ := Prod.mk.inj howner
  obtain ⟨log, hshows, htext⟩ := h.files
  rcases taskLogChunk_outcome settings gzipSize nodeId payload now s.db s.world with
    ⟨hrefused, hoffset, hpreview, hfiles⟩ | ⟨text, hacc, hok, hoffset, hpreview, hfiles⟩
  · refine ⟨t, .refl, ?_⟩
    have hanswered : (s.handle settings gzipSize nodeId payload now).answered = s.answered := by
      unfold LogPump.handle
      simp only
      split
      · rename_i hok
        exact absurd hok (hrefused _)
      · rfl
    refine { h with
      answered := hanswered ▸ h.answered
      offset := hoffset.trans h.offset
      preview := hpreview.trans h.preview
      files := ?_ }
    rcases hfiles with hsame | ⟨text, hfailed, hfiles⟩
    · exact ⟨log, hsame ▸ hshows, htext⟩
    · -- An append fails only when the numbers of the archives have run out.
      obtain ⟨log', hshows', ⟨-, hfull⟩ | ⟨hok, -⟩⟩ := hshows.appendLogChunk hmax text
      · rw [← hfiles] at hshows'
        have hslices := hshows'.archivedSlices
        rw [LogPump.handle, hslices, hfull] at hroom
        exact absurd hroom (Nat.lt_irrefl _)
      · exact absurd hok hfailed
  · obtain ⟨hstart, rfl⟩ := acceptChunk_ok hacc
    have hoffset₀ : storedOffset (s.db.logs.get? (payload.taskId, payload.stream)) =
        t.received.length := h.offset
    have hpreview₀ : storedPreview (s.db.logs.get? (payload.taskId, payload.stream)) =
        lastChars 4000 t.received := h.preview
    rw [hoffset₀] at hstart hoffset hpreview hfiles hok
    refine ⟨_, .single (.arrive t (partOf payload) hpart hstart), ?_⟩
    obtain ⟨log', hshows', ⟨herror, -⟩ | ⟨-, htext'⟩⟩ := hshows.appendLogChunk hmax
      (payload.text.drop (t.received.length - payload.offsetStart))
    · rw [hok] at herror
      cases herror
    · exact
        { source := h.source
          plain := h.plain
          acked := h.acked
          upload := h.upload
          posted := h.posted
          answered := by
            intro c hc
            have hmem : c ∈ s.answered ∨ c = payload := by
              unfold LogPump.handle at hc
              simp only at hc
              split at hc
              · simpa using hc
              · exact Or.inl hc
            rcases hmem with hc | rfl
            · exact List.mem_append_left _ (h.answered c hc)
            · exact List.mem_append_right _ (List.mem_singleton_self _)
          offset := by
            refine hoffset.trans ?_
            simp only [List.length_append, List.length_drop, partOf]
            omega
          preview := by
            refine hpreview.trans ?_
            rw [hpreview₀]
            exact lastChars_append 4000 _ _
          files := ⟨log', hfiles ▸ hshows', htext'.trans (by rw [htext]; rfl)⟩ }

theorem Simulates.step (hmax : 4 ≤ settings.taskLogStreamMaxBytes)
    (h : Simulates taskId stream s t) (hstep : Step settings gzipSize nodeId taskId stream s s')
    (hroom : (archivedSlices s'.world.files taskId stream).length < 99999) :
    ∃ t', Relation.ReflTransGen (Transfer.Step logChunkSize) t t' ∧
      Simulates taskId stream s' t' := by
  cases hstep with
  | grow more hplain =>
      refine ⟨_, .single (.grow t more), ?_⟩
      exact { h with
        source := by rw [h.source]
        plain := by simp [h.plain, hplain] }
  | poll final hidle =>
      refine ⟨_, .single (.start t), ?_⟩
      refine { h with upload := fun u hu => ?_ }
      rw [uploadIncrementalLogs_some h.plain hu, h.source, h.acked]
  | post u hupload =>
      refine ⟨_, .single (.post t u.toPart (h.upload u hupload)), ?_⟩
      refine { h with posted := fun c hc => ?_ }
      rcases List.mem_append.mp hc with hc | hc
      · obtain ⟨howner, hpart⟩ := h.posted c hc
        exact ⟨howner, List.mem_append_left _ hpart⟩
      · rw [List.mem_singleton.mp hc]
        exact ⟨rfl, List.mem_append_right _ (List.mem_singleton_self _)⟩
  | arrive payload now hposted => exact h.handle now hmax hposted hroom
  | arriveFailing payload r hposted hfails hharmless =>
      obtain ⟨hdb, ⟨-, hfiles⟩ | ⟨hnot, -⟩⟩ := hfails.effect
      · have hrow : (s.handleFailing settings gzipSize nodeId payload r).row taskId stream =
            s.row taskId stream := by
          rw [row, handleFailing, hdb, row]
        obtain ⟨log, hshows, htext⟩ := h.files
        refine ⟨t, .refl, ?_⟩
        exact { h with
          offset := hrow ▸ h.offset
          preview := hrow ▸ h.preview
          files := ⟨log, hfiles ▸ hshows, htext⟩ }
      · exact absurd hharmless hnot
  | answer u hupload hanswered =>
      refine ⟨_, .single (.answer t u.toPart (h.upload u hupload) (h.answered _ hanswered)), ?_⟩
      refine { h with acked := rfl, upload := fun u' hu' => ?_ }
      simp only [Upload.advance] at hu'
      split at hu' <;> cases hu'
      rename_i hmore
      exact if_neg hmore
  | giveUp => exact ⟨t, .refl, { h with upload := nofun }⟩
  | clear => exact ⟨_, .single (.forget t), { h with acked := rfl }⟩
  | other db world hrow hfiles =>
      have hsame : ({ s with db, world } : LogPump).row taskId stream = s.row taskId stream := hrow
      obtain ⟨log, hshows, htext⟩ := h.files
      refine ⟨t, .refl, ?_⟩
      exact { h with
        offset := hsame ▸ h.offset
        preview := hsame ▸ h.preview
        files := ⟨log, hshows.congr hfiles, htext⟩ }

theorem Reachable.simulates (hmax : 4 ≤ settings.taskLogStreamMaxBytes)
    (h : Reachable settings gzipSize nodeId taskId stream s) :
    ∃ t, Transfer.Reachable logChunkSize t ∧ Simulates taskId stream s t := by
  induction h with
  | start file db world hplain hrow hfiles =>
      refine ⟨_, ⟨file, .refl⟩, ?_⟩
      exact
        { source := rfl
          plain := hplain
          acked := rfl
          upload := nofun
          posted := nofun
          answered := nofun
          offset := by rw [row, hrow]; rfl
          preview := by simp [row, hrow, storedPreview, lastChars]
          files := ⟨⟨[], []⟩, ⟨by rw [liveFile, hfiles]; rfl, fun i => hfiles _, Nat.zero_le _⟩, rfl⟩ }
  | step _ hstep hroom ih =>
      obtain ⟨t, ⟨source, hreach⟩, hsim⟩ := ih
      obtain ⟨t', hsteps, hsim'⟩ := hsim.step hmax hstep hroom
      exact ⟨t', ⟨source, hreach.trans hsteps⟩, hsim'⟩

end Simulation

end LogPump

/-- In every state of the pump the server holds the prefix of the local log that ends at its last
offset, in the archives and the live file, and the end of it as the preview.  No acknowledged
offset lies beyond it. -/
theorem log_assembled {settings : Settings} {gzipSize : List Char → Nat} {nodeId taskId : String}
    {stream : Stream} {s : LogPump} (hmax : 4 ≤ settings.taskLogStreamMaxBytes)
    (h : LogPump.Reachable settings gzipSize nodeId taskId stream s) :
    let lastOffset := storedOffset (s.row taskId stream)
    lastOffset ≤ s.file.length ∧
      storedText s.world.files taskId stream = s.file.take lastOffset ∧
      storedPreview (s.row taskId stream) = lastChars 4000 (s.file.take lastOffset) ∧
      s.ackedOffset ≤ lastOffset := by
  obtain ⟨t, hreach, hsim⟩ := h.simulates hmax
  obtain ⟨log, hshows, htext⟩ := hsim.files
  have hreceived : t.received = s.file.take t.received.length := by
    rw [hsim.source]
    exact List.prefix_iff_eq_take.mp hreach.inv.received
  simp only [hsim.offset]
  refine ⟨?_, ?_, ?_, ?_⟩
  · rw [hsim.source]
    exact hreach.inv.received.length_le
  · rw [hshows.storedText, htext]
    exact hreceived
  · rw [← hreceived]
    exact hsim.preview
  · rw [hsim.acked]
    exact hreach.inv.acked

/-- The server stores a chunk, the agent restarts before the answer comes, and sends the chunk
again. -/
theorem log_assembled_after_restart :
    ∃ s : LogPump, storedText s.world.files "t" .stdout = ['a', 'b'] ∧ s.ackedOffset = 2 := by
  let upload : Upload := ⟨⟨0, ['a', 'b']⟩, false⟩
  have hchunk : upload.payload "t" .stdout = firstChunk := by
    simp [upload, Upload.payload, firstChunk, logChunkSize]
  have hroom : ∀ {files : Files}, (∀ f ∈ files.logs.keys, f.slot = .live) →
      (archivedSlices files "t" .stdout).length < 99999 := by
    intro files h
    rw [archivedSlices_eq_nil h]
    exact Nat.zero_lt_succ _
  have hstart : LogPump.Reachable {} List.length "n" "t" .stdout
      ⟨['a', 'b'], 0, none, [], [], oneTaskDb, {}⟩ :=
    .start _ _ _ (by decide) rfl fun _ => rfl
  have hposted := (hstart.step (.poll _ false rfl) (hroom (by decide))).step
    (.post _ upload rfl) (hroom (by decide))
  rw [hchunk] at hposted
  have hstored := hposted.step (.arrive _ firstChunk 0 (List.mem_singleton_self _))
    (hroom (by decide +kernel))
  have hagain := ((hstored.step (.giveUp _) (hroom (by decide +kernel))).step (.poll _ false rfl)
    (hroom (by decide +kernel))).step (.post _ upload rfl) (hroom (by decide +kernel))
  have harrived := hagain.step (.arrive _ firstChunk 1
    (List.mem_append_left _ (List.mem_singleton_self _))) (hroom (by decide +kernel))
  have hanswered := harrived.step (.answer _ upload rfl (by rw [hchunk]; decide +kernel))
    (hroom (by decide +kernel))
  obtain ⟨-, hstored, -⟩ := log_assembled (by decide) hanswered
  exact ⟨_, hstored, rfl⟩

end GpuFleet
