import Mathlib.Data.List.Infix

/-!
# Decoding with replacement

A code gives each character a string of bytes.  The decoder goes through a byte
string and keeps the bytes of a character that has begun.  When the next byte
does not go on with it, it puts a mark in the place of what it kept, and the
byte begins anew.  At the end it puts a mark in the place of what it still
keeps.

What the decoder makes of a prefix is a prefix of what it makes of the whole,
unless the prefix ends within a character: then its last character is a mark,
and the whole has the character there (`decode_prefix_or_mark`).  The first byte of a
character never goes on with another (`Codes.leads`), so the decoder finds every
encoded character wherever it stands (`decode_character`).
-/

namespace Foundations

/-- What some bytes are. -/
inductive Reading (C : Type) where
  | character (c : C)
  /-- The beginning of a character. -/
  | incomplete
  | invalid
  deriving DecidableEq, Repr

/-! ## The decoder -/

section Decoder

variable {B C : Type} (read : List B → Reading C) (mark : C)

/-- A byte where no character has begun: the bytes to keep and the text. -/
def decodeFirst (b : B) : List B × List C :=
  match read [b] with
  | .character c => ([], [c])
  | .incomplete => ([b], [])
  | .invalid => ([], [mark])

/-- A byte after those kept. -/
def decodeStep (kept : List B) (b : B) : List B × List C :=
  if kept.isEmpty then decodeFirst read mark b
  else
    match read (kept ++ [b]) with
    | .character c => ([], [c])
    | .incomplete => (kept ++ [b], [])
    | .invalid => ((decodeFirst read mark b).1, mark :: (decodeFirst read mark b).2)

/-- The end after the bytes kept. -/
def flush (kept : List B) : List C := if kept.isEmpty then [] else [mark]

/-- The bytes kept in the end, and the text so far. -/
def decodeRun (kept : List B) : List B → List B × List C
  | [] => (kept, [])
  | b :: bytes =>
      let (kept, text) := decodeStep read mark kept b
      let (last, rest) := decodeRun kept bytes
      (last, text ++ rest)

/-- The text of a byte string after the bytes kept. -/
def decodeFrom (kept bytes : List B) : List C :=
  (decodeRun read mark kept bytes).2 ++ flush mark (decodeRun read mark kept bytes).1

/-- The text of a byte string. -/
def decode (bytes : List B) : List C := decodeFrom read mark [] bytes

end Decoder

/-! ## Codes -/

/-- The reading is that of a code in which the first byte of a character shows that it is one. -/
structure Codes {B C : Type} (encode : C → List B) (read : List B → Reading C) : Prop where
  nonempty : ∀ c, encode c ≠ []
  complete : ∀ c, read (encode c) = .character c
  sound : ∀ bytes c, read bytes = .character c → bytes = encode c
  incomplete : ∀ c front back, encode c = front ++ back → front ≠ [] → back ≠ [] →
    read front = .incomplete
  leads : ∀ c b rest kept, encode c = b :: rest → kept ≠ [] → read (kept ++ [b]) = .invalid

/-- The byte string is cut within a character other than the mark. -/
def Splits {B C : Type} (encode : C → List B) (mark : C) (bytes : List B) (n : Nat) : Prop :=
  ∃ before c after, bytes = before ++ encode c ++ after ∧ c ≠ mark ∧ before.length < n ∧
    n < before.length + (encode c).length

section Decode

variable {B C : Type} {encode : C → List B} {read : List B → Reading C} {mark : C}
  {kept bytes front back : List B} {c : C}

theorem decodeRun_cons (b : B) :
    decodeRun read mark kept (b :: bytes) =
      ((decodeRun read mark (decodeStep read mark kept b).1 bytes).1,
        (decodeStep read mark kept b).2 ++
          (decodeRun read mark (decodeStep read mark kept b).1 bytes).2) := rfl

theorem decodeRun_append :
    decodeRun read mark kept (front ++ back) =
      ((decodeRun read mark (decodeRun read mark kept front).1 back).1,
        (decodeRun read mark kept front).2 ++
          (decodeRun read mark (decodeRun read mark kept front).1 back).2) := by
  induction front generalizing kept with
  | nil => rfl
  | cons b front ih =>
      rw [List.cons_append, decodeRun_cons, ih, decodeRun_cons, List.append_assoc]

/-- The text of a string goes on where its front was left. -/
theorem decode_append :
    decode read mark (front ++ back) =
      (decodeRun read mark [] front).2 ++
        decodeFrom read mark (decodeRun read mark [] front).1 back := by
  rw [decode, decodeFrom, decodeRun_append, List.append_assoc]
  rfl

theorem flush_of_ne_nil (h : kept ≠ []) : flush mark kept = [mark] := by
  rw [flush, if_neg (by simpa using h)]

/-- What is kept is the end of what was read. -/
theorem decodeRun_kept :
    ∃ before, kept ++ bytes = before ++ (decodeRun read mark kept bytes).1 := by
  induction bytes generalizing kept with
  | nil => exact ⟨[], by simp [decodeRun]⟩
  | cons b bytes ih =>
      have hstep : ∃ before, kept ++ [b] = before ++ (decodeStep read mark kept b).1 := by
        have hfirst : ∃ before, kept ++ [b] = before ++ (decodeFirst read mark b).1 := by
          unfold decodeFirst
          split
          · exact ⟨kept ++ [b], by simp⟩
          · exact ⟨kept, rfl⟩
          · exact ⟨kept ++ [b], by simp⟩
        unfold decodeStep
        split
        · exact hfirst
        · split
          · exact ⟨kept ++ [b], by simp⟩
          · exact ⟨[], rfl⟩
          · exact hfirst
      obtain ⟨before, hbefore⟩ := hstep
      obtain ⟨before', hbefore'⟩ := @ih (decodeStep read mark kept b).1
      refine ⟨before ++ before', ?_⟩
      rw [decodeRun_cons, List.append_assoc, ← hbefore', ← List.append_assoc, ← hbefore]
      simp

variable (hcodes : Codes encode read)

include hcodes

/-- The first byte of a character begins anew, whatever was kept. -/
theorem decodeStep_lead {b : B} {rest : List B} (h : encode c = b :: rest) :
    decodeStep read mark kept b =
      ((decodeFirst read mark b).1, flush mark kept ++ (decodeFirst read mark b).2) := by
  cases kept with
  | nil => rfl
  | cons k kept =>
      have hread : read (k :: kept ++ [b]) = .invalid := hcodes.leads c b rest (k :: kept) h (by simp)
      rw [decodeStep, if_neg (by simp), hread]
      rfl

/-- A character that has begun is completed by the rest of its bytes. -/
theorem decodeRun_back (h : encode c = front ++ back) (hfront : front ≠ []) (hback : back ≠ []) :
    decodeRun read mark front back = ([], [c]) := by
  induction back generalizing front with
  | nil => exact absurd rfl hback
  | cons b back ih =>
      have hstep : decodeStep read mark front b =
          match read (front ++ [b]) with
          | .character c => ([], [c])
          | .incomplete => (front ++ [b], [])
          | .invalid => ((decodeFirst read mark b).1, mark :: (decodeFirst read mark b).2) := by
        rw [decodeStep, if_neg (by simpa using hfront)]
      rw [decodeRun_cons, hstep]
      have hnext : encode c = (front ++ [b]) ++ back := by rw [h, List.append_assoc]; rfl
      cases back with
      | nil =>
          rw [List.append_nil] at hnext
          rw [← hnext, hcodes.complete]
          rfl
      | cons b' back =>
          rw [hcodes.incomplete c (front ++ [b]) (b' :: back) hnext (by simp) (by simp)]
          exact ih hnext (by simp) (by simp)

/-- The front of a character is kept. -/
theorem decodeRun_front (h : encode c = front ++ back) (hfront : front ≠ []) (hback : back ≠ []) :
    decodeRun read mark kept front = (front, flush mark kept) := by
  have hincomplete : read front = .incomplete := hcodes.incomplete c front back h hfront hback
  induction front using List.reverseRecOn generalizing back with
  | nil => exact absurd rfl hfront
  | append_singleton front b ih =>
      have hnext : encode c = front ++ b :: back := by rw [h, List.append_assoc]; rfl
      rw [decodeRun_append]
      by_cases hempty : front = []
      · subst hempty
        rw [List.nil_append] at hincomplete
        have hlead : decodeStep read mark kept b = _ := decodeStep_lead hcodes hnext
        rw [decodeFirst, hincomplete] at hlead
        simp [decodeRun, hlead]
      · rw [ih hnext hempty (by simp) (hcodes.incomplete c front (b :: back) hnext hempty (by simp))]
        simp [decodeRun, decodeStep, hempty, hincomplete]

/-- A character is read wherever it stands. -/
theorem decodeRun_character :
    decodeRun read mark kept (encode c) = ([], flush mark kept ++ [c]) := by
  cases h : encode c with
  | nil => exact absurd h (hcodes.nonempty c)
  | cons b rest =>
      have hsplit : encode c = [b] ++ rest := h
      cases rest with
      | nil =>
          have hlead : decodeStep read mark kept b = _ := decodeStep_lead hcodes h
          have hread : read [b] = .character c := h ▸ hcodes.complete c
          rw [decodeFirst, hread] at hlead
          simp [decodeRun, hlead]
      | cons b' rest =>
          rw [← h, hsplit, decodeRun_append, decodeRun_front hcodes hsplit (by simp) (by simp),
            decodeRun_back hcodes hsplit (by simp) (by simp)]

/-- The text around a character. -/
theorem decode_character (before after : List B) :
    decode read mark (before ++ encode c ++ after) =
      decode read mark before ++ c :: decode read mark after := by
  rw [List.append_assoc, decode_append, decodeFrom, decodeRun_append,
    decodeRun_character hcodes]
  simp [decode, decodeFrom]

/-- The text of a string that ends within a character. -/
theorem decode_front (before : List B) (h : encode c = front ++ back) (hfront : front ≠ [])
    (hback : back ≠ []) :
    decode read mark (before ++ front) = decode read mark before ++ [mark] := by
  rw [decode_append, decodeFrom, decodeRun_front hcodes h hfront hback, flush_of_ne_nil hfront]
  simp [decode, decodeFrom]

/-- What follows some kept bytes: they become a mark, or the rest completes a character. -/
theorem decodeFrom_kept (hkept : kept ≠ []) :
    (∃ rest, decodeFrom read mark kept bytes = mark :: rest) ∨
      ∃ c after rest, kept ++ bytes = encode c ++ after ∧ kept.length < (encode c).length ∧
        decodeFrom read mark kept bytes = c :: rest := by
  induction bytes generalizing kept with
  | nil => exact Or.inl ⟨[], by simp [decodeFrom, decodeRun, flush_of_ne_nil hkept]⟩
  | cons b bytes ih =>
      have hstep : decodeFrom read mark kept (b :: bytes) =
          (decodeStep read mark kept b).2 ++
            decodeFrom read mark (decodeStep read mark kept b).1 bytes := by
        rw [decodeFrom, decodeRun_cons, List.append_assoc]
        rfl
      rw [hstep, decodeStep, if_neg (by simpa using hkept)]
      have hassoc : kept ++ b :: bytes = (kept ++ [b]) ++ bytes := by simp
      cases hread : read (kept ++ [b]) with
      | character c =>
          have hencode := hcodes.sound _ c hread
          refine Or.inr ⟨c, bytes, decodeFrom read mark [] bytes, ?_, ?_, rfl⟩
          · rw [hassoc, hencode]
          · rw [← hencode, List.length_append]
            exact Nat.lt_succ_self _
      | incomplete =>
          rcases @ih (kept ++ [b]) (by simp) with
            ⟨rest, hrest⟩ | ⟨c, after, rest, hc, hlt, hrest⟩
          · exact Or.inl ⟨rest, hrest⟩
          · refine Or.inr ⟨c, after, rest, hassoc.trans hc, ?_, hrest⟩
            rw [List.length_append] at hlt
            exact Nat.lt_of_succ_lt hlt
      | invalid => exact Or.inl ⟨_, rfl⟩

/-- The text of a prefix: it is a prefix of the text, or ends with a mark where a character of
several bytes follows. -/
theorem decode_prefix_or_mark (front back : List B) :
    decode read mark front <+: decode read mark (front ++ back) ∨
      ∃ before c after text, front ++ back = before ++ encode c ++ after ∧
        before.length < front.length ∧ front.length < before.length + (encode c).length ∧
        decode read mark front = text ++ [mark] ∧
        ∃ rest, decode read mark (front ++ back) = text ++ c :: rest := by
  rw [decode_append]
  have hfront : decode read mark front = (decodeRun read mark [] front).2 ++
      flush mark (decodeRun read mark [] front).1 := rfl
  rw [hfront]
  have hends : ∃ before, [] ++ front = before ++ (decodeRun read mark [] front).1 := decodeRun_kept
  obtain ⟨before, hbefore⟩ := hends
  rw [List.nil_append] at hbefore
  by_cases hkept : (decodeRun read mark [] front).1 = []
  · refine Or.inl ((List.prefix_append_right_inj _).mpr ?_)
    rw [hkept]
    exact List.nil_prefix
  · rw [flush_of_ne_nil hkept]
    rcases decodeFrom_kept hcodes hkept with
      ⟨rest, hrest⟩ | ⟨c, after, rest, hc, hlt, hrest⟩
    · refine Or.inl ((List.prefix_append_right_inj _).mpr ?_)
      rw [hrest]
      exact ⟨rest, rfl⟩
    · have hlength : front.length = before.length + (decodeRun read mark [] front).1.length := by
        rw [← List.length_append, ← hbefore]
      have hpos : 0 < (decodeRun read mark [] front).1.length := List.length_pos_iff.mpr hkept
      refine Or.inr ⟨before, c, after, _, ?_, by omega, by omega, rfl, rest, by rw [hrest]⟩
      rw [List.append_assoc, ← hc, ← List.append_assoc, ← hbefore]

end Decode

end Foundations
