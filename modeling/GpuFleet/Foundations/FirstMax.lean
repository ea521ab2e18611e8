import Mathlib.Order.Lattice

/-!
# The first maximum

The loop that keeps the first element with the greatest value: an element is
taken only if its value is greater than the greatest so far.

A loop that starts below all values ends with the first element of the greatest
value (`isFirstMax_scanMax`), and it is also the first maximum of every part of
the list that keeps it (`IsFirstMax.filter`).
-/

namespace Foundations

variable {ι β : Type} [LinearOrder β]

/-- One turn of the loop. -/
def takeGreater (value : ι → β) (best : β × ι) (j : ι) : β × ι :=
  if best.1 < value j then (value j, j) else best

/-- The loop. -/
def scanMax (value : ι → β) (best : β × ι) (l : List ι) : β × ι := l.foldl (takeGreater value) best

/-- The element is in the list, its value is greater than those before it, and as great as those
after it. -/
def IsFirstMax (value : ι → β) (l : List ι) (j : ι) : Prop :=
  ∃ before after, l = before ++ j :: after ∧ (∀ k ∈ before, value k < value j) ∧
    ∀ k ∈ after, value k ≤ value j

section FirstMax

variable {value : ι → β} {best : β × ι} {l : List ι} {j : ι}

/-- A loop that meets no greater value ends as it starts. -/
theorem scanMax_of_le (h : ∀ k ∈ l, value k ≤ best.1) : scanMax value best l = best := by
  induction l with
  | nil => rfl
  | cons k l ih =>
      simp only [List.forall_mem_cons] at h
      rw [scanMax, List.foldl_cons, takeGreater, if_neg (not_lt.mpr h.1), ← scanMax, ih h.2]

/-- A loop over smaller values up to the first maximum, and over no greater ones behind it. -/
theorem scanMax_of_isFirstMax (h : IsFirstMax value l j) (hbest : best.1 < value j) :
    scanMax value best l = (value j, j) := by
  obtain ⟨before, after, rfl, hbefore, hafter⟩ := h
  induction before generalizing best with
  | nil =>
      rw [List.nil_append, scanMax, List.foldl_cons, takeGreater, if_pos hbest, ← scanMax]
      exact scanMax_of_le hafter
  | cons k before ih =>
      simp only [List.forall_mem_cons] at hbefore
      rw [List.cons_append, scanMax, List.foldl_cons, ← scanMax]
      refine ih ?_ hbefore.2
      rw [takeGreater]
      split
      · exact hbefore.1
      · exact hbest

/-- A list that is not empty has a first maximum. -/
theorem exists_isFirstMax (h : l ≠ []) : ∃ j, IsFirstMax value l j := by
  induction l with
  | nil => exact absurd rfl h
  | cons k l ih =>
      by_cases hl : l = []
      · exact ⟨k, [], [], by rw [hl]; rfl, by simp, by simp⟩
      · obtain ⟨j, before, after, rfl, hbefore, hafter⟩ := ih hl
        rcases lt_or_ge (value k) (value j) with hlt | hle
        · exact ⟨j, k :: before, after, rfl, by simpa using ⟨hlt, hbefore⟩, hafter⟩
        · refine ⟨k, [], before ++ j :: after, rfl, by simp, fun m hm => ?_⟩
          rcases List.mem_append.mp hm with hm | hm
          · exact (hbefore m hm).le.trans hle
          · rcases List.mem_cons.mp hm with rfl | hm
            · exact hle
            · exact (hafter m hm).trans hle

theorem IsFirstMax.mem (h : IsFirstMax value l j) : j ∈ l := by
  obtain ⟨before, after, rfl, -, -⟩ := h
  simp

theorem IsFirstMax.le (h : IsFirstMax value l j) {k : ι} (hk : k ∈ l) : value k ≤ value j := by
  obtain ⟨before, after, rfl, hbefore, hafter⟩ := h
  rcases List.mem_append.mp hk with hk | hk
  · exact (hbefore k hk).le
  · rcases List.mem_cons.mp hk with rfl | hk
    · exact le_rfl
    · exact hafter k hk

/-- What the loop ends with, when it starts below all values. -/
theorem isFirstMax_scanMax (hl : l ≠ []) (h : ∀ k ∈ l, best.1 < value k) :
    IsFirstMax value l (scanMax value best l).2 := by
  obtain ⟨j, hj⟩ := @exists_isFirstMax ι β _ value l hl
  rw [scanMax_of_isFirstMax hj (h j hj.mem)]
  exact hj

/-- The first maximum of a value is that of every other value that orders the elements the same. -/
theorem IsFirstMax.comp {value' : ι → β} (h : IsFirstMax value l j)
    (hlt : ∀ k m, value k < value m → value' k < value' m)
    (hle : ∀ k m, value k ≤ value m → value' k ≤ value' m) : IsFirstMax value' l j := by
  obtain ⟨before, after, rfl, hbefore, hafter⟩ := h
  exact ⟨before, after, rfl, fun k hk => hlt k j (hbefore k hk), fun k hk => hle k j (hafter k hk)⟩

/-- A first maximum that a filter keeps is the first maximum of what it keeps. -/
theorem IsFirstMax.filter {p : ι → Bool} (h : IsFirstMax value l j) (hp : p j = true) :
    IsFirstMax value (l.filter p) j := by
  obtain ⟨before, after, rfl, hbefore, hafter⟩ := h
  refine ⟨before.filter p, after.filter p, by simp [hp], fun k hk => ?_, fun k hk => ?_⟩
  · exact hbefore k (List.mem_filter.mp hk).1
  · exact hafter k (List.mem_filter.mp hk).1

end FirstMax

end Foundations
