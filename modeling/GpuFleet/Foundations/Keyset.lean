import Mathlib.Data.List.Sort
import Mathlib.Order.Basic

/-!
# Keyset pagination

A list of rows with distinct keys is read page by page, in descending order of
the keys.  A page takes one row more than its limit to see whether there is a
next page, which begins below the key of the last row of this one.

The rows may change between two pages, as long as no key goes away.  The pages
together are strictly descending, so no row comes twice, and every row that was
there at the start is among them (`walk_spec`).  The walk ends when only
finitely many keys ever occur (`walk_ends`).
-/

namespace Foundations.Keyset

variable {α κ : Type} [LinearOrder κ] (key : α → κ)

/-- The rows in descending order of their keys. -/
def descending (rows : List α) : List α := rows.mergeSort fun a b => key b ≤ key a

/-- The rows below the bound, if there is one. -/
def below (bound : Option κ) (rows : List α) : List α :=
  rows.filter fun a => bound.all fun b => key a < b

/-- A page and the bound of the next one. -/
def page (limit : Nat) (bound : Option κ) (rows : List α) : List α × Option κ :=
  let found := (descending key (below key bound rows)).take (limit + 1)
  let items := found.take limit
  (items, if limit < found.length then items.getLast?.map key else none)

/-- The pages from the `k`-th on, if no more than `fuel` are needed. -/
def walk (limit : Nat) (rows : Nat → List α) : (fuel k : Nat) → Option κ → Option (List α)
  | 0, _, _ => none
  | fuel + 1, k, bound =>
      let (items, next) := page key limit bound (rows k)
      match next with
      | none => some items
      | some _ => (walk limit rows fuel (k + 1) next).map fun later => items ++ later

variable {key}

/-- The rows have different keys, and none of them goes away. -/
structure Growing (key : α → κ) (rows : Nat → List α) : Prop where
  nodup : ∀ k, ((rows k).map key).Nodup
  kept : ∀ k, ∀ a ∈ rows k, ∃ b ∈ rows (k + 1), key b = key a

variable {limit : Nat} {bound : Option κ}

theorem mem_below {rows : List α} {a : α} :
    a ∈ below key bound rows ↔ a ∈ rows ∧ ∀ b ∈ bound, key a < b := by
  cases bound <;> simp [below]

theorem mem_descending {rows : List α} {a : α} : a ∈ descending key rows ↔ a ∈ rows :=
  List.mem_mergeSort

/-- Rows in descending order stay where they are. -/
theorem descending_eq_self {rows : List α} (h : rows.Pairwise fun a b => key b ≤ key a) :
    descending key rows = rows :=
  List.mergeSort_of_pairwise (h.imp fun hle => decide_eq_true hle)

/-- Rows with different keys are strictly descending once they are sorted. -/
theorem descending_pairwise {rows : List α} (hnodup : (rows.map key).Nodup) :
    (descending key rows).Pairwise fun a b => key b < key a := by
  have hsorted : (descending key rows).Pairwise fun a b => decide (key b ≤ key a) = true :=
    List.pairwise_mergeSort
      (fun a b c hab hbc => by
        simp only [decide_eq_true_eq] at hab hbc ⊢
        exact hbc.trans hab)
      (fun a b => by
        simp only [Bool.or_eq_true, decide_eq_true_eq]
        exact le_total (key b) (key a)) rows
  have hdistinct : (descending key rows).Pairwise fun a b => key a ≠ key b := by
    have hperm : ((descending key rows).map key).Perm (rows.map key) :=
      (List.mergeSort_perm rows _).map key
    exact List.pairwise_map.mp (hperm.nodup_iff.mpr hnodup)
  refine (hsorted.and hdistinct).imp fun h => ?_
  exact lt_of_le_of_ne (of_decide_eq_true h.1) (Ne.symm h.2)

/-- A page is descending and lies below its bound.  What it leaves out lies below the bound of the
next page, which is the key of its last row; without a next page it leaves nothing out. -/
theorem page_spec (bound : Option κ) {rows : List α} (hlimit : 0 < limit) (hnodup : (rows.map key).Nodup) :
    let (items, next) := page key limit bound rows
    (items.Pairwise fun a b => key b < key a) ∧ (∀ a ∈ items, a ∈ below key bound rows) ∧
      (next = none → ∀ a ∈ below key bound rows, a ∈ items) ∧
      ∀ b, next = some b → (∃ a ∈ items, key a = b) ∧ (∀ a ∈ items, b ≤ key a) ∧
        ∀ a ∈ below key bound rows, a ∈ items ∨ key a < b := by
  have hsorted : (descending key (below key bound rows)).Pairwise fun a b => key b < key a :=
    descending_pairwise (hnodup.sublist (List.filter_sublist.map key))
  have hmem : ∀ a, a ∈ descending key (below key bound rows) ↔ a ∈ below key bound rows :=
    fun a => mem_descending
  unfold page
  generalize descending key (below key bound rows) = sorted at hsorted hmem
  have htake : (sorted.take (limit + 1)).take limit = sorted.take limit := by
    rw [List.take_take, Nat.min_eq_left (Nat.le_succ limit)]
  simp only [htake, List.length_take]
  have hsplit := hsorted
  rw [← List.take_append_drop limit sorted, List.pairwise_append] at hsplit
  obtain ⟨hitems, -, hrest⟩ := hsplit
  refine ⟨hitems, fun a ha => (hmem a).mp (List.mem_of_mem_take ha), ?_, ?_⟩
  · intro hnone a ha
    have hshort : sorted.length ≤ limit := by
      by_contra hlong
      have hne : sorted.take limit ≠ [] := by
        simp only [ne_eq, List.take_eq_nil_iff, not_or]
        exact ⟨Nat.ne_of_gt hlimit, fun hnil => by simp [hnil] at hlong⟩
      rw [if_pos (by omega), Option.map_eq_none_iff, List.getLast?_eq_none_iff] at hnone
      exact hne hnone
    rw [List.take_of_length_le hshort]
    exact (hmem a).mpr ha
  · intro b hb
    split at hb
    · obtain ⟨last, hlast, rfl⟩ := Option.map_eq_some_iff.mp hb
      obtain ⟨front, hfront⟩ := List.getLast?_eq_some_iff.mp hlast
      have hmemlast : last ∈ sorted.take limit := List.mem_of_getLast? hlast
      refine ⟨⟨last, hmemlast, rfl⟩, fun a ha => ?_, fun a ha => ?_⟩
      · rw [hfront] at ha hitems
        rcases List.mem_append.mp ha with ha | ha
        · exact le_of_lt ((List.pairwise_append.mp hitems).2.2 a ha last (List.mem_singleton_self _))
        · rw [List.mem_singleton.mp ha]
      · have ha' := (hmem a).mpr ha
        rw [← List.take_append_drop limit sorted] at ha'
        exact (List.mem_append.mp ha').imp id fun hdrop => hrest last hmemlast a hdrop
    · cases hb

/-- The first page. -/
theorem page_first (limit : Nat) (rows : List α) :
    (page key limit none rows).1 = (descending key rows).take limit := by
  have hall : below key none rows = rows := by simp [below]
  simp only [page, hall, List.take_take]
  rw [Nat.min_eq_left (Nat.le_succ limit)]

omit [LinearOrder κ] in
/-- The upper part of a descending list stands at its front. -/
theorem prefix_of_upper [Preorder κ] {upper all : List κ} (hupper : upper.Pairwise fun a b => b < a)
    (hall : all.Pairwise fun a b => b < a) (hsub : ∀ a ∈ upper, a ∈ all)
    (hclosed : ∀ b ∈ all, (∃ a ∈ upper, a ≤ b) → b ∈ upper) : upper <+: all := by
  induction upper generalizing all with
  | nil => exact List.nil_prefix
  | cons a upper ih =>
      cases all with
      | nil => exact absurd (hsub a List.mem_cons_self) List.not_mem_nil
      | cons b all =>
          obtain ⟨hbelow, hrest⟩ := List.pairwise_cons.mp hupper
          obtain ⟨hbelow', hrest'⟩ := List.pairwise_cons.mp hall
          have hle : a ≤ b := by
            rcases List.mem_cons.mp (hsub a List.mem_cons_self) with rfl | hmem
            · exact le_refl a
            · exact (hbelow' a hmem).le
          have hhead : b = a := by
            rcases List.mem_cons.mp (hclosed b List.mem_cons_self ⟨a, List.mem_cons_self, hle⟩) with
              heq | hmem
            · exact heq
            · exact absurd (hbelow b hmem) hle.not_gt
          subst hhead
          refine List.cons_prefix_cons.mpr ⟨rfl, ih hrest hrest' (fun c hc => ?_) fun c hc hex => ?_⟩
          · rcases List.mem_cons.mp (hsub c (List.mem_cons_of_mem _ hc)) with rfl | hmem
            · exact absurd (hbelow c hc) (lt_irrefl c)
            · exact hmem
          · obtain ⟨d, hd, hdc⟩ := hex
            rcases List.mem_cons.mp (hclosed c (List.mem_cons_of_mem _ hc)
              ⟨d, List.mem_cons_of_mem _ hd, hdc⟩) with rfl | hmem
            · exact absurd (hbelow' c hc) (lt_irrefl c)
            · exact hmem

/-- The pages of a walk are strictly descending, lie below its bound, hold rows that were there
when their page was read, and every row that was there at the start. -/
theorem walk_spec {rows : Nat → List α} (hrows : Growing key rows) (hlimit : 0 < limit)
    {fuel k : Nat} {items : List α} (hwalk : walk key limit rows fuel k bound = some items) :
    (items.Pairwise fun a b => key b < key a) ∧
      (∀ a ∈ items, (∃ j, k ≤ j ∧ a ∈ rows j) ∧ ∀ b ∈ bound, key a < b) ∧
      ∀ a ∈ below key bound (rows k), ∃ b ∈ items, key b = key a := by
  induction fuel generalizing k bound items with
  | zero => cases hwalk
  | succ fuel ih =>
      have hpage := page_spec bound hlimit (hrows.nodup k)
      rw [walk] at hwalk
      generalize page key limit bound (rows k) = out at hpage hwalk
      obtain ⟨here, next⟩ := out
      obtain ⟨hsorted, hbelow, hlast, hnext⟩ := hpage
      have hhere : ∀ a ∈ here, (∃ j, k ≤ j ∧ a ∈ rows j) ∧ ∀ b ∈ bound, key a < b := by
        intro a ha
        obtain ⟨hrow, hbound⟩ := mem_below.mp (hbelow a ha)
        exact ⟨⟨k, Nat.le_refl k, hrow⟩, hbound⟩
      cases next with
      | none =>
          cases hwalk
          exact ⟨hsorted, hhere, fun a ha => ⟨a, hlast rfl a ha, rfl⟩⟩
      | some b =>
          obtain ⟨later, hlater, rfl⟩ := Option.map_eq_some_iff.mp hwalk
          obtain ⟨⟨last, hmem, rfl⟩, hge, hleft⟩ := hnext b rfl
          obtain ⟨hsorted', hlater', hcomplete⟩ := ih hlater
          have hlt : ∀ a ∈ later, key a < key last := fun a ha => (hlater' a ha).2 _ rfl
          refine ⟨?_, ?_, ?_⟩
          · rw [List.pairwise_append]
            exact ⟨hsorted, hsorted', fun a ha c hc => lt_of_lt_of_le (hlt c hc) (hge a ha)⟩
          · intro a ha
            rcases List.mem_append.mp ha with ha | ha
            · exact hhere a ha
            · obtain ⟨⟨j, hj, hrow⟩, -⟩ := hlater' a ha
              exact ⟨⟨j, Nat.le_of_succ_le hj, hrow⟩, fun c hc =>
                (hlt a ha).trans ((hhere last hmem).2 c hc)⟩
          · intro a ha
            rcases hleft a ha with ha' | hlow
            · exact ⟨a, List.mem_append_left _ ha', rfl⟩
            · obtain ⟨a', ha', hkey⟩ := hrows.kept k a (mem_below.mp ha).1
              have hbelow' : a' ∈ below key (some (key last)) (rows (k + 1)) := by
                refine mem_below.mpr ⟨ha', fun c hc => ?_⟩
                cases hc
                rwa [hkey]
              obtain ⟨c, hc, hckey⟩ := hcomplete a' hbelow'
              exact ⟨c, List.mem_append_right _ hc, hckey.trans hkey⟩

/-- A walk ends when only the keys of a list ever occur. -/
theorem walk_ends {rows : Nat → List α} (hrows : Growing key rows) (hlimit : 0 < limit)
    {keys : List κ} (hkeys : ∀ k, ∀ a ∈ rows k, key a ∈ keys) (k : Nat) (bound : Option κ) :
    ∃ fuel items, walk key limit rows fuel k bound = some items := by
  have hfuel : ∀ fuel k bound,
      (keys.filter fun c => bound.all fun b => c < b).length < fuel →
        ∃ items, walk key limit rows fuel k bound = some items := by
    intro fuel
    induction fuel with
    | zero => exact fun _ _ h => absurd h (Nat.not_lt_zero _)
    | succ fuel ih =>
        intro k bound hcount
        have hpage := page_spec bound hlimit (hrows.nodup k)
        rw [walk]
        generalize page key limit bound (rows k) = out at hpage
        obtain ⟨here, next⟩ := out
        obtain ⟨-, hbelow, -, hnext⟩ := hpage
        cases next with
        | none => exact ⟨here, rfl⟩
        | some b =>
            obtain ⟨⟨last, hmem, rfl⟩, -, -⟩ := hnext b rfl
            obtain ⟨hrow, hbound⟩ := mem_below.mp (hbelow last hmem)
            -- The key of the last row is counted before the page and no more after it.
            have hfilter : (keys.filter fun c => (some (key last)).all fun b => c < b) =
                (keys.filter fun c => bound.all fun b => c < b).filter fun c => c < key last := by
              rw [List.filter_filter]
              refine List.filter_congr fun c _ => ?_
              cases bound with
              | none => simp
              | some b => simpa using fun hc => hc.trans (hbound b rfl)
            have hcount' : (keys.filter fun c => (some (key last)).all fun b => c < b).length <
                fuel := by
              rw [hfilter]
              refine Nat.lt_of_lt_of_le (List.length_filter_lt_length_iff_exists.mpr ?_)
                (Nat.le_of_lt_succ hcount)
              refine ⟨key last, List.mem_filter.mpr ⟨hkeys k last hrow, ?_⟩, by simp⟩
              cases bound with
              | none => rfl
              | some b => simpa using hbound b rfl
            obtain ⟨later, hlater⟩ := ih (k + 1) (some (key last)) hcount'
            exact ⟨here ++ later, by simp [hlater]⟩
  obtain ⟨items, hitems⟩ := hfuel _ k bound (Nat.lt_succ_self _)
  exact ⟨_, items, hitems⟩

end Foundations.Keyset
