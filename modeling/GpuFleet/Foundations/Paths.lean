import Mathlib.Data.List.Basic

/-!
# Walks in a directory tree

A path is a list of parts, from the root of the file system on.  A walk follows
parts from a directory: the part `up` leads to the parent, the root being its
own parent, and every other part leads down.

A walk that never climbs above its start ends below it, wherever the start lies
(`walk_append`).  One that does forgets where it started: it ends in the same
place from two siblings (`walk_siblings`), which cannot be below both
(`eq_of_prefix_siblings`).
-/

namespace Foundations

namespace Paths

variable {C : Type} [DecidableEq C] (up : C)

/-- One step of a walk. -/
def enter (dir : List C) (part : C) : List C := if part = up then dir.dropLast else dir ++ [part]

/-- Where a walk ends. -/
def walk (dir parts : List C) : List C := parts.foldl (enter up) dir

/-- A walk that is `depth` levels below a directory does not climb above it. -/
def Stays : (depth : Nat) → List C → Bool
  | _, [] => true
  | depth, part :: parts =>
      if part = up then 0 < depth && Stays (depth - 1) parts else Stays (depth + 1) parts

/-- Strictly below a directory. -/
def Below (dir path : List C) : Prop := ∃ rest, rest ≠ [] ∧ path = dir ++ rest

section Walk

variable {up} {dir rel parts : List C} {part : C}

@[simp] theorem walk_nil : walk up dir [] = dir := rfl

@[simp] theorem walk_cons : walk up dir (part :: parts) = walk up (enter up dir part) parts := rfl

theorem walk_singleton (h : part ≠ up) : walk up dir [part] = dir ++ [part] := by
  simp [enter, h]

theorem enter_append (hrel : rel ≠ []) : enter up (dir ++ rel) part = dir ++ enter up rel part := by
  unfold enter
  split
  · rw [List.dropLast_append_of_ne_nil hrel]
  · rw [List.append_assoc]

/-- A walk that stays below a directory does not depend on where the directory lies. -/
theorem walk_append (h : Stays up rel.length parts = true) :
    walk up (dir ++ rel) parts = dir ++ walk up rel parts := by
  induction parts generalizing rel with
  | nil => rfl
  | cons part parts ih =>
      rw [walk_cons, walk_cons]
      rw [Stays] at h
      split at h
      · rename_i hup
        cases rel with
        | nil => cases h
        | cons a rel =>
            rw [enter_append (List.cons_ne_nil a rel)]
            exact ih (by simpa [enter, hup] using h)
      · rename_i hdown
        have henter : enter up (dir ++ rel) part = dir ++ enter up rel part := by
          simp [enter, hdown]
        rw [henter]
        exact ih (by simpa [enter, hdown] using h)

/-- A walk that climbs above its directory ends in the same place from a sibling. -/
theorem walk_siblings {a b : C} (h : Stays up rel.length parts = false) :
    walk up (dir ++ a :: rel) parts = walk up (dir ++ b :: rel) parts := by
  induction parts generalizing rel with
  | nil => cases h
  | cons part parts ih =>
      rw [walk_cons, walk_cons]
      rw [Stays] at h
      split at h
      · rename_i hup
        cases hrel : rel with
        | nil => simp [enter, hup]
        | cons c cs =>
            rw [hrel] at h
            have henter : ∀ d : C, enter up (dir ++ d :: c :: cs) part =
                dir ++ d :: (c :: cs).dropLast := by
              intro d
              simp [enter, hup]
            rw [henter, henter]
            exact ih (by simpa using h)
      · rename_i hdown
        have henter : ∀ d : C, enter up (dir ++ d :: rel) part = dir ++ d :: (rel ++ [part]) := by
          intro d
          simp [enter, hdown]
        rw [henter, henter]
        exact ih (by simpa using h)

/-- A walk enters the parts it follows, the way up apart. -/
theorem mem_walk (h : part ∈ walk up dir parts) : part ∈ dir ∨ part ∈ parts ∧ part ≠ up := by
  induction parts generalizing dir with
  | nil => exact Or.inl h
  | cons next parts ih =>
      rcases ih h with hmem | ⟨hmem, hne⟩
      · rw [enter] at hmem
        split at hmem
        · exact Or.inl (List.dropLast_subset _ hmem)
        · rename_i hdown
          rcases List.mem_append.mp hmem with hmem | hmem
          · exact Or.inl hmem
          · obtain rfl := List.mem_singleton.mp hmem
            exact Or.inr ⟨List.mem_cons_self .., hdown⟩
      · exact Or.inr ⟨List.mem_cons_of_mem _ hmem, hne⟩

end Walk

section Below

variable {dir path : List C} {a b name : C}

omit [DecidableEq C] in
/-- A file lies below a directory if and only if its own directory does or is the same. -/
theorem below_concat_iff : Below dir (path ++ [name]) ↔ dir <+: path := by
  constructor
  · rintro ⟨rest, hne, heq⟩
    obtain ⟨init, last, rfl⟩ := List.eq_nil_or_concat rest |>.resolve_left hne
    rw [List.concat_eq_append, ← List.append_assoc] at heq
    exact ⟨init, (List.append_inj' heq rfl).1.symm⟩
  · rintro ⟨rest, rfl⟩
    exact ⟨rest ++ [name], by simp, by simp⟩

omit [DecidableEq C] in
/-- No directory lies in two siblings. -/
theorem eq_of_prefix_siblings (ha : dir ++ [a] <+: path) (hb : dir ++ [b] <+: path) : a = b := by
  obtain ⟨s, rfl⟩ := ha
  obtain ⟨t, ht⟩ := hb
  have heq : b :: t = a :: s := by
    simpa using ht
  exact (List.cons.inj heq).1.symm

end Below

end Paths

end Foundations
