import GpuFleet.Agent.LogPump
import GpuFleet.Foundations.Utf8

/-!
# The log as bytes

The task writes bytes and the pump reads text, so a poll may fall within a
character.  Then the poll uploads a replacement character, and its offset stands
beyond it: the next poll reads the character itself there and goes on after it.

So the polls upload the text of the final file if and only if none of them falls
within a character, other than a replacement character
(`incremental_eq_oneShot_iff`).  A poll between a carriage return and a line
feed does no harm: both it and the one after it read a single line feed.
-/

namespace GpuFleet

open Foundations

/-! ## Polls -/

/-- The bytes of a log as characters, with `errors="replace"`. -/
def decodeReplace (file : List UInt8) : List Char := decode readUtf8 '\uFFFD' file

/-- `Path.read_text` -/
def readText (file : List UInt8) : List Char := universalNewlines (decodeReplace file)

section Polls

variable (taskId : String) (stream : Stream)

theorem Upload.length_advance {u rest : Upload} (h : u.advance = some rest) :
    rest.text.length < u.text.length := by
  unfold Upload.advance at h
  split at h
  · cases h
  · obtain rfl := Option.some.inj h
    simp only [List.length_drop]
    unfold logChunkSize at *
    omega

/-- `send_log_chunks_with_ack` when all uploads succeed: its chunks and the acknowledged offset. -/
def sendLogChunksWithAck (u : Upload) : List NodeTaskLogChunkRequest × Nat :=
  match _h : u.advance with
  | none => ([u.payload taskId stream], u.offset + (u.text.take logChunkSize).length)
  | some rest =>
      let (chunks, acked) := sendLogChunksWithAck rest
      (u.payload taskId stream :: chunks, acked)
termination_by u.text.length
decreasing_by exact Upload.length_advance _h

/-- `upload_incremental_logs` of one stream: its chunks and the acknowledged offset. -/
def poll (file : List UInt8) (final : Bool) (ackedOffset : Nat) :
    List NodeTaskLogChunkRequest × Nat :=
  match uploadIncrementalLogs (decodeReplace file) ackedOffset final with
  | none => ([], ackedOffset)
  | some u => sendLogChunksWithAck taskId stream u

/-- The chunks of all polls, the last one of the final file. -/
def pollAll (file : List UInt8) (ackedOffset : Nat) :
    List (List UInt8) → List NodeTaskLogChunkRequest
  | [] => (poll taskId stream file true ackedOffset).1
  | contents :: polls =>
      let (chunks, acked) := poll taskId stream contents false ackedOffset
      chunks ++ pollAll file acked polls

/-- The concatenation of the uploaded chunks. -/
def uploadedText (file : List UInt8) (polls : List (List UInt8)) : List Char :=
  (pollAll taskId stream file 0 polls).flatMap (·.text)

end Polls

/-! ## Offsets -/

section Offsets

variable {taskId : String} {stream : Stream}

/-- The chunks make up the text, and its end is acknowledged. -/
theorem sendLogChunksWithAck_spec (u : Upload) :
    (sendLogChunksWithAck taskId stream u).1.flatMap (·.text) = u.text ∧
      (sendLogChunksWithAck taskId stream u).2 = u.offset + u.text.length := by
  induction hn : u.text.length using Nat.strong_induction_on generalizing u with
  | _ n ih =>
      rw [sendLogChunksWithAck]
      split
      · rename_i h
        unfold Upload.advance at h
        split at h
        · rename_i hle
          simp [Upload.payload, List.take_of_length_le hle, hn]
        · cases h
      · rename_i rest h
        obtain ⟨htext, hacked⟩ := ih _ (hn ▸ Upload.length_advance h) rest rfl
        unfold Upload.advance at h
        split at h
        · cases h
        · rename_i hle
          obtain rfl := Option.some.inj h
          simp only [List.flatMap_cons, htext, hacked, Upload.payload, List.take_append_drop,
            List.length_drop, true_and]
          omega

/-- What an upload of everything beyond the offset makes of the text uploaded so far. -/
def extendTo (uploaded text : List Char) : List Char := uploaded ++ text.drop uploaded.length

theorem readTextSlice_fst (file : List Char) (offset : Nat) :
    (readTextSlice file offset).1 = (universalNewlines file).drop offset := by
  unfold readTextSlice
  by_cases h : (universalNewlines file).length ≤ offset
  · simp [h]
  · simp [h]

/-- A poll uploads what its text has beyond the text uploaded so far. -/
theorem poll_spec (contents : List UInt8) (final : Bool) (uploaded : List Char) :
    uploaded ++ (poll taskId stream contents final uploaded.length).1.flatMap (·.text) =
        extendTo uploaded (readText contents) ∧
      (poll taskId stream contents final uploaded.length).2 =
        (extendTo uploaded (readText contents)).length := by
  unfold poll uploadIncrementalLogs
  simp only [readTextSlice_fst]
  rw [← readText, extendTo, List.length_append]
  by_cases h : (readText contents).drop uploaded.length ≠ [] ∨ final = true
  · obtain ⟨htext, hacked⟩ := @sendLogChunksWithAck_spec taskId stream
      { offset := uploaded.length, text := (readText contents).drop uploaded.length, final }
    rw [if_pos h]
    exact ⟨congrArg (uploaded ++ ·) htext, hacked⟩
  · have hnil : (readText contents).drop uploaded.length = [] := by
      by_contra hne
      exact h (Or.inl hne)
    rw [if_neg h, hnil]
    exact ⟨rfl, rfl⟩

/-- The text uploaded by some polls and the last one. -/
theorem pollAll_spec (file : List UInt8) (polls : List (List UInt8)) (uploaded : List Char) :
    uploaded ++ (pollAll taskId stream file uploaded.length polls).flatMap (·.text) =
      extendTo ((polls.map readText).foldl extendTo uploaded) (readText file) := by
  induction polls generalizing uploaded with
  | nil => exact (poll_spec file true uploaded).1
  | cons contents polls ih =>
      obtain ⟨htext, hacked⟩ :=
        @poll_spec taskId stream contents false uploaded
      simp only [pollAll, List.flatMap_append, List.map_cons, List.foldl_cons]
      rw [hacked, ← List.append_assoc, htext]
      exact ih _

theorem uploadedText_eq (file : List UInt8) (polls : List (List UInt8)) :
    uploadedText taskId stream file polls =
      extendTo ((polls.map readText).foldl extendTo []) (readText file) :=
  pollAll_spec file polls []

end Offsets

/-! ## Line ends -/

section LineEnds

variable {x y : List Char} {c : Char}

theorem universalNewlines_cons (hc : c ≠ '\r') :
    universalNewlines (c :: x) = c :: universalNewlines x := by
  rw [universalNewlines]
  · exact fun _ hcr _ => hc hcr
  · exact hc

/-- A carriage return alone. -/
theorem universalNewlines_return (hx : x.head? ≠ some '\n') :
    universalNewlines ('\r' :: x) = '\n' :: universalNewlines x := by
  rw [universalNewlines]
  rintro rest rfl
  exact hx rfl

/-- Line ends are translated on both sides of anything but a line feed. -/
theorem universalNewlines_append (hy : y.head? ≠ some '\n') :
    universalNewlines (x ++ y) = universalNewlines x ++ universalNewlines y := by
  induction x using universalNewlines.induct with
  | case1 => rfl
  | case2 rest ih => simp [universalNewlines, ih]
  | case3 rest hrest ih =>
      have hhead : rest.head? ≠ some '\n' := by
        cases rest with
        | nil => simp
        | cons d rest => exact fun h => hrest rest (congrArg (· :: rest) (Option.some.inj h))
      have hafter : (rest ++ y).head? ≠ some '\n' := by
        cases rest with
        | nil => exact hy
        | cons d rest => exact hhead
      rw [List.cons_append, universalNewlines_return hafter, universalNewlines_return hhead, ih]
      rfl
  | case4 d rest _ hd ih =>
      rw [List.cons_append, universalNewlines_cons hd, universalNewlines_cons hd, ih]
      rfl

/-- The text of the front of a file is the front of its text. -/
theorem universalNewlines_front : universalNewlines x <+: universalNewlines (x ++ y) := by
  induction x using universalNewlines.induct with
  | case1 => exact List.nil_prefix
  | case2 rest ih => simpa [universalNewlines] using ih
  | case3 rest hrest ih =>
      cases rest with
      | nil =>
          rw [universalNewlines_return (by simp), universalNewlines]
          cases hy : decide (y.head? = some '\n') with
          | true =>
              obtain ⟨y', rfl⟩ := List.head?_eq_some_iff.mp (of_decide_eq_true hy)
              simp [universalNewlines]
          | false =>
              rw [List.singleton_append, universalNewlines_return (of_decide_eq_false hy)]
              simp
      | cons d rest =>
          have hd : d ≠ '\n' := fun h => hrest rest (congrArg (· :: rest) h)
          rw [List.cons_append, universalNewlines_return (by simpa using hd),
            universalNewlines_return (by simpa using hd)]
          simpa using ih
  | case4 d rest _ hd ih =>
      rw [List.cons_append, universalNewlines_cons hd, universalNewlines_cons hd]
      simpa using ih

end LineEnds

/-! ## Fronts of a file -/

section Fronts

variable {file contents front : List UInt8}

/-- A poll of these contents falls within a character of the file. -/
abbrev CutsCharacter (file contents : List UInt8) : Prop :=
  Splits String.utf8EncodeChar '\uFFFD' file contents.length

/-- A character of several bytes is no line end. -/
theorem not_lineEnd {c : Char} (h : 1 < (String.utf8EncodeChar c).length) : c ≠ '\r' ∧ c ≠ '\n' := by
  constructor
  all_goals
    rintro rfl
    exact absurd h (by decide)

/-- More bytes never give less text. -/
theorem length_readText_le (h : front <+: contents) :
    (readText front).length ≤ (readText contents).length := by
  obtain ⟨back, rfl⟩ := h
  unfold readText decodeReplace
  rcases decode_prefix_or_mark codes_utf8 front back with
    ⟨rest, hrest⟩ | ⟨before, c, after, text, -, hlow, hhigh, hfront, rest, hwhole⟩
  · rw [← hrest]
    exact universalNewlines_front.length_le
  · obtain ⟨hreturn, hfeed⟩ := not_lineEnd (c := c) (by omega)
    rw [hfront, hwhole, universalNewlines_append (by simp),
      universalNewlines_append (by simpa using hfeed), universalNewlines_cons hreturn,
      universalNewlines_cons (by decide)]
    simp [universalNewlines]

/-- Contents that end between characters give the front of the file's text. -/
theorem readText_front (h : contents <+: file) (hcut : ¬ CutsCharacter file contents) :
    readText contents <+: readText file := by
  have hdecode : decodeReplace contents <+: decodeReplace file := by
    obtain ⟨back, rfl⟩ := h
    rcases decode_prefix_or_mark codes_utf8 contents back with
      hfront | ⟨before, c, after, text, hsplit, hlow, hhigh, hfront, rest, hwhole⟩
    · exact hfront
    · have hmark : c = '\uFFFD' := by
        by_contra hc
        exact hcut ⟨before, c, after, hsplit, hc, hlow, hhigh⟩
      refine ⟨rest, ?_⟩
      rw [decodeReplace, decodeReplace, hfront, hwhole, hmark, List.append_assoc]
      rfl
  obtain ⟨rest, hrest⟩ := hdecode
  rw [readText, readText, ← hrest]
  exact universalNewlines_front

/-- Contents that end within a character give a replacement character where the file has another,
and earlier contents that do not end within it end before it. -/
theorem readText_cut (h : contents <+: file) (hcut : CutsCharacter file contents) :
    ∃ before c rest, readText contents = readText before ++ ['\uFFFD'] ∧
      readText file = readText before ++ c :: rest ∧ c ≠ '\uFFFD' ∧
      ∀ front, front <+: contents → ¬ CutsCharacter file front → front <+: before := by
  obtain ⟨before, c, after, hfile, hc, hlow, hhigh⟩ := hcut
  obtain ⟨hreturn, hfeed⟩ := not_lineEnd (c := c) (by omega)
  have hcontents : contents = before ++
      (String.utf8EncodeChar c).take (contents.length - before.length) := by
    have htake := List.prefix_iff_eq_take.mp h
    rw [hfile, List.append_assoc, List.take_append, List.take_of_length_le hlow.le,
      List.take_append_of_le_length (by omega)] at htake
    exact htake
  have hbytes : String.utf8EncodeChar c =
      (String.utf8EncodeChar c).take (contents.length - before.length) ++
        (String.utf8EncodeChar c).drop (contents.length - before.length) :=
    (List.take_append_drop ..).symm
  refine ⟨before, c, universalNewlines (decodeReplace after), ?_, ?_, hc, ?_⟩
  · rw [readText, decodeReplace, hcontents, decode_front codes_utf8 before hbytes,
      universalNewlines_append (by simp)]
    · rfl
    · rw [← List.length_pos_iff, List.length_take]
      omega
    · rw [← List.length_pos_iff, List.length_drop]
      omega
  · rw [readText, decodeReplace, hfile, decode_character codes_utf8,
      universalNewlines_append (by simpa using hfeed), universalNewlines_cons hreturn]
    rfl
  · intro front hfront hnot
    refine List.prefix_of_prefix_length_le (hfront.trans h) (hfile ▸ ?_) ?_
    · exact ⟨String.utf8EncodeChar c ++ after, by simp⟩
    · by_contra hlt
      exact hnot ⟨before, c, after, hfile, hc, by omega, by have := hfront.length_le; omega⟩

end Fronts

/-! ## All polls -/

section AllPolls

variable {file contents last : List UInt8} {uploaded text : List Char} {polls : List (List UInt8)}

theorem extendTo_of_front (h : uploaded <+: text) : extendTo uploaded text = text := by
  obtain ⟨rest, rfl⟩ := h
  simp [extendTo]

theorem prefix_foldl_extendTo (texts : List (List Char)) :
    uploaded <+: texts.foldl extendTo uploaded := by
  induction texts generalizing uploaded with
  | nil => exact List.prefix_rfl
  | cons text texts ih => exact (List.prefix_append ..).trans ih

/-- A poll within a character uploads a wrong one. -/
theorem not_prefix_of_cut (hlast : last <+: contents) (hfile : contents <+: file)
    (hwhole : ¬ CutsCharacter file last) (hcut : CutsCharacter file contents) :
    ¬ extendTo (readText last) (readText contents) <+: readText file := by
  obtain ⟨before, c, rest, hcontents, htext, hc, hends⟩ := readText_cut hfile hcut
  have hle := length_readText_le (hends last hlast hwhole)
  intro h
  have hmark : (extendTo (readText last) (readText contents))[(readText before).length]? =
      some '\uFFFD' := by
    rw [extendTo, hcontents, List.getElem?_append_right hle, List.getElem?_drop,
      Nat.add_sub_cancel' hle]
    simp
  obtain ⟨more, hmore⟩ := h
  rw [htext] at hmore
  have hthis : (extendTo (readText last) (readText contents) ++ more)[(readText before).length]? = _ :=
    List.getElem?_append_left (List.getElem?_eq_some_iff.mp hmark).1
  rw [hmore, hmark, List.getElem?_append_right le_rfl, Nat.sub_self] at hthis
  exact hc (Option.some.inj hthis)

/-- After polls up to some contents that end between characters. -/
theorem polls_eq_readText_iff (hgrow : (last :: (polls ++ [file])).Pairwise (· <+: ·))
    (hwhole : ¬ CutsCharacter file last) :
    extendTo ((polls.map readText).foldl extendTo (readText last)) (readText file) =
        readText file ↔
      ∀ contents ∈ polls, ¬ CutsCharacter file contents := by
  induction polls generalizing last with
  | nil =>
      have hlast : last <+: file := List.rel_of_pairwise_cons hgrow (by simp)
      simp [extendTo_of_front (readText_front hlast hwhole)]
  | cons contents polls ih =>
      have hlast : last <+: contents := List.rel_of_pairwise_cons hgrow (by simp)
      have hgrow' := hgrow.of_cons
      have hfile : contents <+: file := List.rel_of_pairwise_cons hgrow' (by simp)
      rw [List.map_cons, List.foldl_cons, List.forall_mem_cons]
      by_cases hcut : CutsCharacter file contents
      · refine iff_of_false (fun h => ?_) fun h => h.1 hcut
        refine not_prefix_of_cut hlast hfile hwhole hcut (h ▸ ?_)
        exact (prefix_foldl_extendTo _).trans (List.prefix_append ..)
      · have hfront : readText last <+: readText contents :=
          List.prefix_of_prefix_length_le (readText_front (hlast.trans hfile) hwhole)
            (readText_front hfile hcut) (length_readText_le hlast)
        rw [extendTo_of_front hfront, ih hgrow' hcut, and_iff_right hcut]

/-- The polls of a growing file upload the text of the final file if and only if none of them falls
within a character. -/
theorem incremental_eq_oneShot_iff (taskId : String) (stream : Stream) (file : List UInt8)
    (polls : List (List UInt8)) (hgrow : (polls ++ [file]).IsChain (· <+: ·)) :
    uploadedText taskId stream file polls = readText file ↔
      ∀ contents ∈ polls,
        ¬ Splits String.utf8EncodeChar '\uFFFD' file contents.length := by
  have hpairs : ([] :: (polls ++ [file])).Pairwise (· <+: ·) :=
    List.pairwise_cons.mpr ⟨fun _ _ => List.nil_prefix, List.isChain_iff_pairwise.mp hgrow⟩
  have hwhole : ¬ CutsCharacter file [] := by
    rintro ⟨before, c, after, -, -, hlow, -⟩
    exact Nat.not_lt_zero _ hlow
  rw [uploadedText_eq]
  exact polls_eq_readText_iff hpairs hwhole

end AllPolls

/-- A carriage return is polled before its line feed is written. -/
theorem incremental_eq_oneShot_lineEnd :
    uploadedText "t" .stdout [0x61, 0x0D, 0x0A] [[0x61, 0x0D]] = ['a', '\n'] ∧
      ∀ contents ∈ ([[0x61, 0x0D]] : List (List UInt8)),
        ¬ Splits String.utf8EncodeChar '\uFFFD' [0x61, 0x0D, 0x0A] contents.length := by
  have htext : uploadedText "t" .stdout [0x61, 0x0D, 0x0A] [[0x61, 0x0D]] = ['a', '\n'] := by
    rw [uploadedText_eq]
    decide
  exact ⟨htext, (incremental_eq_oneShot_iff "t" .stdout _ _ (by decide)).mp htext⟩

/-- A poll after the first byte of a character of two uploads a replacement character in its
place. -/
theorem cut_character_replaced :
    ¬ ∀ (taskId : String) (stream : Stream) (file : List UInt8) (polls : List (List UInt8)),
      (polls ++ [file]).IsChain (· <+: ·) →
        uploadedText taskId stream file polls = readText file := by
  intro h
  have hthis := h "t" .stdout [0xC3, 0xA9] [[0xC3]] (by decide)
  rw [uploadedText_eq] at hthis
  exact absurd hthis (by decide)

end GpuFleet
