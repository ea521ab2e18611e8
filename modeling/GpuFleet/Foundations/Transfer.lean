import Mathlib.Data.List.TakeDrop
import Mathlib.Logic.Relation

/-!
# Resumable transfers

A sender copies a sequence that grows to a receiver, chunk by chunk.  A chunk
names the offset where it starts.  The receiver takes a chunk that starts at or
before the end of what it has, and appends the part beyond that end.  The sender
stores the end of every chunk that was answered, and starts from there again
after it gave up or lost its state.

Chunks arrive in any order, late, and any number of times, and answers get lost.
What was received is a prefix of the source all the same, and no acknowledged
offset lies beyond it (`Transfer.Reachable.inv`).
-/

namespace Foundations

variable {α : Type}

/-! ## Slices -/

/-- `text` stands in `source` from `offset` on. -/
def SliceAt (source : List α) (offset : Nat) (text : List α) : Prop :=
  ∃ before after, source = before ++ text ++ after ∧ before.length = offset

namespace SliceAt

variable {source text : List α} {offset : Nat}

/-- What is left of the source is a slice of it. -/
theorem drop_source (h : offset ≤ source.length) : SliceAt source offset (source.drop offset) :=
  ⟨source.take offset, [], by simp, by simp [h]⟩

/-- A slice stays where it is when the source grows. -/
theorem append_source (h : SliceAt source offset text) (more : List α) :
    SliceAt (source ++ more) offset text := by
  obtain ⟨before, after, rfl, hlength⟩ := h
  exact ⟨before, after ++ more, by simp, hlength⟩

theorem take_text (h : SliceAt source offset text) (n : Nat) :
    SliceAt source offset (text.take n) := by
  obtain ⟨before, after, rfl, hlength⟩ := h
  refine ⟨before, text.drop n ++ after, ?_, hlength⟩
  conv_lhs => rw [← List.take_append_drop n text]
  simp only [List.append_assoc]

theorem drop_text (h : SliceAt source offset text) {n : Nat} (hn : n ≤ text.length) :
    SliceAt source (offset + n) (text.drop n) := by
  obtain ⟨before, after, rfl, rfl⟩ := h
  refine ⟨before ++ text.take n, after, ?_, by simp [hn]⟩
  conv_lhs => rw [← List.take_append_drop n text]
  simp only [List.append_assoc]

/-- A prefix that reaches into a slice, and the rest of the slice, are a prefix. -/
theorem extend (h : SliceAt source offset text) {received : List α} (hinitial : received <+: source)
    (hle : offset ≤ received.length) :
    received ++ text.drop (received.length - offset) <+: source := by
  obtain ⟨before, after, rfl, rfl⟩ := h
  obtain ⟨beyond, rfl⟩ : before <+: received :=
    List.prefix_of_prefix_length_le ⟨text ++ after, by simp⟩ hinitial hle
  rw [List.length_append, Nat.add_sub_cancel_left]
  rcases Nat.le_total beyond.length text.length with hshort | hlong
  · have hbeyond : beyond <+: text := by
      refine List.prefix_of_prefix_length_le ?_ ⟨after, rfl⟩ hshort
      rwa [List.append_assoc, List.prefix_append_right_inj] at hinitial
    obtain ⟨tail, rfl⟩ := hbeyond
    exact ⟨after, by simp⟩
  · rw [List.drop_eq_nil_of_le hlong, List.append_nil]
    exact hinitial

end SliceAt

/-! ## The protocol -/

/-- A part of the source and where it starts. -/
structure Part (α : Type) where
  offset : Nat
  text : List α

/-- Sender, receiver and the chunks between them. -/
structure Transfer (α : Type) where
  source : List α
  /-- The end of the last chunk whose answer was stored. -/
  acked : Nat
  /-- What is left of the upload in progress. -/
  upload : Option (Part α)
  /-- The chunks posted so far. -/
  posted : List (Part α)
  /-- The chunks the receiver has answered. -/
  answered : List (Part α)
  received : List α

/-- The first chunk of an upload. -/
def Part.chunk (size : Nat) (u : Part α) : Part α := ⟨u.offset, u.text.take size⟩

/-- What is left of an upload after its first chunk. -/
def Part.next (size : Nat) (u : Part α) : Option (Part α) :=
  if u.text.length ≤ size then none else some ⟨u.offset + size, u.text.drop size⟩

namespace Transfer

/-- The steps of a transfer in chunks of `size`. -/
inductive Step (size : Nat) : Transfer α → Transfer α → Prop
  | grow (t : Transfer α) (more : List α) : Step size t { t with source := t.source ++ more }
  /-- Start an upload at the acknowledged offset. -/
  | start (t : Transfer α) :
      Step size t { t with upload := some ⟨t.acked, t.source.drop t.acked⟩ }
  | post (t : Transfer α) (u : Part α) (hupload : t.upload = some u) :
      Step size t { t with posted := t.posted ++ [u.chunk size] }
  /-- The receiver takes a chunk and answers. -/
  | arrive (t : Transfer α) (c : Part α) (hposted : c ∈ t.posted)
      (hstart : c.offset ≤ t.received.length) :
      Step size t { t with
        received := t.received ++ c.text.drop (t.received.length - c.offset)
        answered := t.answered ++ [c] }
  /-- The sender stores the end of a chunk that was answered. -/
  | answer (t : Transfer α) (u : Part α) (hupload : t.upload = some u)
      (hanswered : u.chunk size ∈ t.answered) :
      Step size t { t with
        acked := u.offset + (u.text.take size).length
        upload := u.next size }
  /-- The upload ends early, by an error or a restart. -/
  | giveUp (t : Transfer α) : Step size t { t with upload := none }
  /-- The sender forgets what was acknowledged. -/
  | forget (t : Transfer α) : Step size t { t with acked := 0 }

/-- The transfers that can be reached from one that has not begun. -/
def Reachable (size : Nat) (t : Transfer α) : Prop :=
  ∃ source, Relation.ReflTransGen (Step size) ⟨source, 0, none, [], [], []⟩ t

/-- The receiver has a prefix of the source, and everything under way is a slice of it. -/
structure Inv (t : Transfer α) : Prop where
  received : t.received <+: t.source
  acked : t.acked ≤ t.received.length
  upload : ∀ u, t.upload = some u → SliceAt t.source u.offset u.text
  posted : ∀ c ∈ t.posted, SliceAt t.source c.offset c.text
  answered : ∀ c ∈ t.answered, c.offset + c.text.length ≤ t.received.length

variable {size : Nat} {t t' : Transfer α}

theorem Inv.step (h : t.Inv) (hstep : Step size t t') : t'.Inv := by
  cases hstep with
  | grow more =>
      exact
        { received := h.received.trans (List.prefix_append ..)
          acked := h.acked
          upload := fun u hu => (h.upload u hu).append_source more
          posted := fun c hc => (h.posted c hc).append_source more
          answered := h.answered }
  | start =>
      refine { h with upload := fun u hu => ?_ }
      cases hu
      exact SliceAt.drop_source (Nat.le_trans h.acked h.received.length_le)
  | post u hupload =>
      refine { h with posted := fun c hc => ?_ }
      rcases List.mem_append.mp hc with hc | hc
      · exact h.posted c hc
      · rw [List.mem_singleton.mp hc]
        exact (h.upload u hupload).take_text size
  | arrive c hposted hstart =>
      have hgrown : t.received.length ≤
          (t.received ++ c.text.drop (t.received.length - c.offset)).length :=
        (List.prefix_append ..).length_le
      refine
        { received := (h.posted c hposted).extend h.received hstart
          acked := Nat.le_trans h.acked hgrown
          upload := h.upload
          posted := h.posted
          answered := fun c' hc' => ?_ }
      rcases List.mem_append.mp hc' with hc' | hc'
      · exact Nat.le_trans (h.answered c' hc') hgrown
      · rw [List.mem_singleton.mp hc']
        simp only [List.length_append, List.length_drop]
        omega
  | answer u hupload hanswered =>
      refine { h with acked := h.answered _ hanswered, upload := fun u' hu' => ?_ }
      unfold Part.next at hu'
      split at hu'
      · cases hu'
      · rename_i hmore
        cases hu'
        exact (h.upload u hupload).drop_text (Nat.le_of_not_le hmore)
  | giveUp => exact { h with upload := nofun }
  | forget => exact { h with acked := Nat.zero_le _ }

/-- What was received is a prefix of the source, in every state of every transfer. -/
theorem Reachable.inv (h : Reachable size t) : t.Inv := by
  obtain ⟨source, hsteps⟩ := h
  induction hsteps with
  | refl =>
      exact
        { received := List.nil_prefix
          acked := Nat.le_refl 0
          upload := nofun
          posted := nofun
          answered := nofun }
  | tail _ hstep ih => exact ih.step hstep

end Transfer

end Foundations
