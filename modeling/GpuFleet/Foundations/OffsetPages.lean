import Mathlib.Data.List.Nodup
import Mathlib.Data.List.Perm.Subperm
import Mathlib.Data.List.Range

/-!
# Pages by offset

A list is read page by page; page `k` are the `limit` items from position `k * limit` on.
The list may change between two pages: items go away, and others come at its end.  So
the position of an item that stays never grows.

Such an item is read at most once (`count_listed`), and it is missed exactly if between
two pages it slips from the part not read yet into the part read
(`count_listed_eq_one_iff`).
-/

namespace Foundations.OffsetPages

variable {κ : Type} [DecidableEq κ]

/-- The items of a page. -/
def page (limit offset : Nat) (items : List κ) : List κ := (items.drop offset).take limit

/-- The items of the pages `0` to `n`, each read from its own list. -/
def listed (limit : Nat) (items : Nat → List κ) (n : Nat) : List κ :=
  (List.range (n + 1)).flatMap fun k => page limit (k * limit) (items k)

/-- After page `k` the item moves from a position that is not read yet to one that is. -/
def Slips (limit : Nat) (items : Nat → List κ) (k : Nat) (a : κ) : Prop :=
  (items (k + 1)).idxOf a < (k + 1) * limit ∧ (k + 1) * limit ≤ (items k).idxOf a

variable {limit offset n : Nat} {a : κ}

/-- A page holds the items at its positions. -/
theorem mem_page_iff {items : List κ} (hnodup : items.Nodup) (hmem : a ∈ items) :
    a ∈ page limit offset items ↔
      offset ≤ items.idxOf a ∧ items.idxOf a < offset + limit := by
  constructor
  · intro ha
    obtain ⟨i, hi, heq⟩ := List.mem_iff_getElem.mp ha
    simp only [page, List.length_take, List.length_drop] at hi
    simp only [page, List.getElem_take, List.getElem_drop] at heq
    have hidx : items.idxOf a = offset + i := by
      rw [← heq]
      exact hnodup.idxOf_getElem _ _
    omega
  · intro ⟨hle, hlt⟩
    have hlength : items.idxOf a < items.length := List.idxOf_lt_length_of_mem hmem
    refine List.mem_iff_getElem.mpr ⟨items.idxOf a - offset, ?_, ?_⟩
    · simp only [page, List.length_take, List.length_drop]
      omega
    · have hpos : offset + (items.idxOf a - offset) = items.idxOf a := Nat.add_sub_cancel' hle
      simp only [page, List.getElem_take, List.getElem_drop, hpos, List.getElem_idxOf]

variable {items : Nat → List κ}

omit [DecidableEq κ] in
theorem nodup_page {items : List κ} (hnodup : items.Nodup) : (page limit offset items).Nodup :=
  hnodup.sublist ((List.take_sublist _ _).trans (List.drop_sublist _ _))

omit [DecidableEq κ] in
theorem listed_succ (n : Nat) :
    listed limit items (n + 1) = listed limit items n ++ page limit ((n + 1) * limit) (items (n + 1)) := by
  simp [listed, List.range_succ]

/-- The item is on page `k`. -/
def OnPage (limit : Nat) (items : Nat → List κ) (a : κ) (k : Nat) : Prop :=
  k * limit ≤ (items k).idxOf a ∧ (items k).idxOf a < k * limit + limit

/-- An item moves up when nothing new comes before it. -/
theorem idxOf_le_of_before {l l' : List κ} (hnodup : l'.Nodup)
    (hbefore : ∀ b ∈ l'.take (l'.idxOf a), b ∈ l.take (l.idxOf a)) (hmem : a ∈ l') :
    l'.idxOf a ≤ l.idxOf a := by
  have hlength := (List.subperm_of_subset (hnodup.sublist (List.take_sublist _ _)) hbefore).length_le
  rw [List.length_take, List.length_take, Nat.min_eq_left (List.idxOf_lt_length_of_mem hmem).le]
    at hlength
  exact hlength.trans (Nat.min_le_left _ _)

theorem onPage_iff {k : Nat} (hnodup : (items k).Nodup) (hmem : a ∈ items k) :
    a ∈ page limit (k * limit) (items k) ↔ OnPage limit items a k :=
  mem_page_iff hnodup hmem

/-- The position of an item that stays does not grow. -/
theorem idxOf_anti (hstep : ∀ k < n, (items (k + 1)).idxOf a ≤ (items k).idxOf a) {j k : Nat}
    (hjk : j ≤ k) (hk : k ≤ n) : (items k).idxOf a ≤ (items j).idxOf a := by
  induction hjk with
  | refl => exact Nat.le_refl _
  | step _ ih => exact (hstep _ hk).trans (ih (Nat.le_of_succ_le hk))

theorem OnPage.unique (hstep : ∀ k < n, (items (k + 1)).idxOf a ≤ (items k).idxOf a) {j k : Nat}
    (hj : OnPage limit items a j) (hk : OnPage limit items a k) (hjk : j < k) (hkn : k ≤ n) :
    False := by
  have hanti := idxOf_anti hstep hjk.le hkn
  have hpages : (j + 1) * limit ≤ k * limit := Nat.mul_le_mul_right limit hjk
  rw [Nat.succ_mul] at hpages
  obtain ⟨-, hj⟩ := hj
  obtain ⟨hk, -⟩ := hk
  omega

/-- An item that stays is read once, if it is on some page when this is read. -/
theorem count_listed (hnodup : ∀ k ≤ n, (items k).Nodup) (hmem : ∀ k ≤ n, a ∈ items k)
    (hstep : ∀ k < n, (items (k + 1)).idxOf a ≤ (items k).idxOf a) :
    ((∃ k ≤ n, OnPage limit items a k) ∧ (listed limit items n).count a = 1) ∨
      ((∀ k ≤ n, ¬ OnPage limit items a k) ∧ (listed limit items n).count a = 0) := by
  induction n with
  | zero =>
      have hlisted : listed limit items 0 = page limit (0 * limit) (items 0) := by simp [listed]
      have hiff := @onPage_iff κ _ limit a items 0 (hnodup 0 (Nat.le_refl 0)) (hmem 0 (Nat.le_refl 0))
      rw [hlisted]
      by_cases hon : OnPage limit items a 0
      · exact Or.inl ⟨⟨0, Nat.le_refl 0, hon⟩,
          List.count_eq_one_of_mem (nodup_page (hnodup 0 (Nat.le_refl 0))) (hiff.mpr hon)⟩
      · refine Or.inr ⟨fun k hk => ?_, List.count_eq_zero_of_not_mem fun ha => hon (hiff.mp ha)⟩
        rwa [Nat.le_zero.mp hk]
  | succ n ih =>
      have hiff := @onPage_iff κ _ limit a items (n + 1) (hnodup _ (Nat.le_refl _))
        (hmem _ (Nat.le_refl _))
      rw [listed_succ, List.count_append]
      have ih := ih (fun k hk => hnodup k (Nat.le_succ_of_le hk))
        (fun k hk => hmem k (Nat.le_succ_of_le hk)) fun k hk => hstep k (Nat.lt_succ_of_lt hk)
      by_cases hon : OnPage limit items a (n + 1)
      · rcases ih with ⟨⟨k, hk, hon'⟩, -⟩ | ⟨-, hzero⟩
        · exact (hon'.unique hstep hon (Nat.lt_succ_of_le hk) (Nat.le_refl _)).elim
        · refine Or.inl ⟨⟨n + 1, Nat.le_refl _, hon⟩, ?_⟩
          rw [hzero, List.count_eq_one_of_mem (nodup_page (hnodup _ (Nat.le_refl _))) (hiff.mpr hon)]
      · rw [List.count_eq_zero_of_not_mem fun ha => hon (hiff.mp ha)]
        rcases ih with ⟨⟨k, hk, hon'⟩, hone⟩ | ⟨hnone, hzero⟩
        · exact Or.inl ⟨⟨k, Nat.le_succ_of_le hk, hon'⟩, hone⟩
        · refine Or.inr ⟨fun k hk => ?_, hzero⟩
          rcases Nat.le_succ_iff.mp hk with hk | rfl
          · exact hnone k hk
          · exact hon

/-- An item that never slips is on a page, if the last page reaches the end. -/
theorem exists_onPage (hmem : a ∈ items n) (hlast : (items n).length ≤ (n + 1) * limit)
    (hslips : ∀ k < n, ¬ Slips limit items k a) : ∃ k ≤ n, OnPage limit items a k := by
  have hahead : ∀ k ≤ n, (∃ j ≤ n, OnPage limit items a j) ∨ k * limit ≤ (items k).idxOf a := by
    intro k hk
    induction k with
    | zero => exact Or.inr (by simp)
    | succ k ih =>
        rcases ih (Nat.le_of_succ_le hk) with hon | hge
        · exact Or.inl hon
        · by_cases hnext : (k + 1) * limit ≤ (items k).idxOf a
          · exact Or.inr (Nat.le_of_not_lt fun hlt => hslips k hk ⟨hlt, hnext⟩)
          · rw [Nat.succ_mul] at hnext
            exact Or.inl ⟨k, Nat.le_of_succ_le hk, hge, Nat.lt_of_not_le hnext⟩
  rcases hahead n (Nat.le_refl n) with hon | hge
  · exact hon
  · refine ⟨n, Nat.le_refl n, hge, ?_⟩
    have hlt := List.idxOf_lt_length_of_mem hmem
    rw [Nat.succ_mul] at hlast
    omega

/-- An item that stays is read exactly once if and only if it slips at no step. -/
theorem count_listed_eq_one_iff (hnodup : ∀ k ≤ n, (items k).Nodup) (hmem : ∀ k ≤ n, a ∈ items k)
    (hstep : ∀ k < n, (items (k + 1)).idxOf a ≤ (items k).idxOf a)
    (hlast : (items n).length ≤ (n + 1) * limit) :
    (listed limit items n).count a = 1 ↔ ∀ k < n, ¬ Slips limit items k a := by
  constructor
  · intro hone k hk hslip
    obtain ⟨hbefore, hafter⟩ := hslip
    rcases count_listed hnodup hmem hstep with ⟨⟨j, hj, hle, hlt⟩, -⟩ | ⟨-, hzero⟩
    · rcases Nat.lt_or_ge k j with hkj | hjk
      · have hanti := idxOf_anti hstep (show k + 1 ≤ j from hkj) hj
        have hpages : (k + 1) * limit ≤ j * limit := Nat.mul_le_mul_right limit hkj
        exact absurd hbefore (Nat.not_lt.mpr (hpages.trans (hle.trans hanti)))
      · have hanti := idxOf_anti hstep hjk hk.le
        have hpages : (j + 1) * limit ≤ (k + 1) * limit :=
          Nat.mul_le_mul_right limit (Nat.succ_le_succ hjk)
        rw [Nat.succ_mul] at hpages
        exact absurd (hlt.trans_le hpages) (Nat.not_lt.mpr (hafter.trans hanti))
    · rw [hzero] at hone
      cases hone
  · intro hslips
    obtain ⟨j, hj, hon⟩ := exists_onPage (hmem n (Nat.le_refl n)) hlast hslips
    rcases count_listed hnodup hmem hstep with ⟨-, hone⟩ | ⟨hnone, -⟩
    · exact hone
    · exact absurd hon (hnone j hj)

end Foundations.OffsetPages
