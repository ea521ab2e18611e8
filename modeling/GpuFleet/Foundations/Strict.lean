import GpuFleet.Foundations.Utf8

/-!
# Strict decoding

A strict decoder goes through a byte string as the one that replaces does, but
stops at the first bytes that are no character, and at an end within one.

It reads nothing but whole characters: it is the inverse of the code
(`decodeStrict_iff`), and of the front of an encoded text it reads a front of the
text, or nothing (`decodeStrict_front`).
-/

namespace Foundations

section Strict

variable {B C : Type}

/-- The text after the bytes kept. -/
def decodeStrictFrom (read : List B → Reading C) (kept : List B) : List B → Option (List C)
  | [] => if kept.isEmpty then some [] else none
  | b :: bytes =>
      match read (kept ++ [b]) with
      | .character c => (decodeStrictFrom read [] bytes).map (c :: ·)
      | .incomplete => decodeStrictFrom read (kept ++ [b]) bytes
      | .invalid => none

/-- The text of a byte string. -/
def decodeStrict (read : List B → Reading C) (bytes : List B) : Option (List C) :=
  decodeStrictFrom read [] bytes

variable {encode : C → List B} {read : List B → Reading C} (hcodes : Codes encode read)
  {kept front back bytes : List B} {c : C} {text : List C}

include hcodes

/-- A character that has begun is completed by the rest of its bytes. -/
theorem decodeStrictFrom_character (h : encode c = front ++ back) (hback : back ≠ []) :
    decodeStrictFrom read front (back ++ bytes) =
      (decodeStrictFrom read [] bytes).map (c :: ·) := by
  induction back generalizing front with
  | nil => exact absurd rfl hback
  | cons b back ih =>
      have hnext : encode c = (front ++ [b]) ++ back := by simp [h]
      rw [List.cons_append, decodeStrictFrom]
      cases back with
      | nil =>
          rw [List.append_nil] at hnext
          rw [← hnext, hcodes.complete]
          rfl
      | cons b' back =>
          rw [hcodes.incomplete c (front ++ [b]) (b' :: back) hnext (by simp) (by simp)]
          exact ih hnext (by simp)

theorem decodeStrict_encode_append :
    decodeStrict read (text.flatMap encode ++ bytes) =
      (decodeStrict read bytes).map (text ++ ·) := by
  induction text with
  | nil => simp
  | cons c text ih =>
      have hc : encode c = [] ++ encode c := rfl
      rw [List.flatMap_cons, List.append_assoc, decodeStrict,
        decodeStrictFrom_character hcodes hc (hcodes.nonempty c), ← decodeStrict, ih, Option.map_map]
      rfl

theorem decodeStrict_encode : decodeStrict read (text.flatMap encode) = some text := by
  have h := @decodeStrict_encode_append _ _ _ _ hcodes [] text
  simpa [decodeStrict, decodeStrictFrom] using h

/-- What is read was written. -/
theorem decodeStrictFrom_sound (h : decodeStrictFrom read kept bytes = some text) :
    kept ++ bytes = text.flatMap encode := by
  induction bytes generalizing kept text with
  | nil =>
      cases kept with
      | nil =>
          cases h
          rfl
      | cons b kept => simp [decodeStrictFrom] at h
  | cons b bytes ih =>
      rw [decodeStrictFrom] at h
      split at h
      · rename_i c hread
        rw [Option.map_eq_some_iff] at h
        obtain ⟨text', htext, rfl⟩ := h
        have hrest := ih htext
        rw [List.nil_append] at hrest
        rw [List.flatMap_cons, ← hcodes.sound _ c hread, ← hrest]
        simp
      · simpa using ih h
      · cases h

theorem decodeStrict_iff : decodeStrict read bytes = some text ↔ bytes = text.flatMap encode := by
  constructor
  · intro h
    exact decodeStrictFrom_sound hcodes h
  · rintro rfl
    exact decodeStrict_encode hcodes

/-- What is read of the front of an encoded text is a front of the text. -/
theorem decodeStrict_front {front back : List B} {read' : List C}
    (h : text.flatMap encode = front ++ back) (hread : decodeStrict read front = some read') :
    ∃ rest, text = read' ++ rest ∧ back = rest.flatMap encode := by
  rw [decodeStrict_iff hcodes] at hread
  have hwhole := @decodeStrict_encode _ _ _ _ hcodes text
  rw [h, hread, decodeStrict_encode_append hcodes, Option.map_eq_some_iff] at hwhole
  obtain ⟨rest, hrest, rfl⟩ := hwhole
  exact ⟨rest, rfl, (decodeStrict_iff hcodes).mp hrest⟩

end Strict

end Foundations
