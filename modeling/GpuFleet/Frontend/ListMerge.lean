import GpuFleet.Foundations.Keyset
import GpuFleet.Server.ListTasks

/-!
# Merging the first page into the rows loaded

A view keeps the rows of the pages it has loaded.  Every few seconds it fetches the
first page again and merges it into them: rows that are loaded already are replaced,
the others go to the front.  The cursor of the next page stays where it was.

The rows shown are the server's without a gap exactly if at most a page of rows was
inserted since, all of them before the rows loaded, and the page does not reach beyond
these (`mergeFirstPage_upToDate_iff`).  Of more rows than a page the later ones are neither in
the page nor below the cursor.
-/

namespace GpuFleet

open Foundations

variable {T K S : Type} [DecidableEq K] [LinearOrder S]

/-- `mergeFirstPage`: entries of the first page that are new, then the old list, refreshed. -/
def mergeFirstPage (prev fresh : List T) (keyOf : T → K) : List T :=
  -- Of several entries of a key, the last one stays in the map.
  let freshByKey := fun key => fresh.reverse.find? (keyOf · = key)
  let prevKeys := prev.map keyOf
  let newcomers := fresh.filter fun x => keyOf x ∉ prevKeys
  let refreshed := prev.map fun x => (freshByKey (keyOf x)).getD x
  newcomers ++ refreshed

/-- What the server listed and what it lists later: rows were inserted and changed, but keep
their places. -/
structure Relisted (keyOf : T → K) (place : T → S) (old new : List T) : Prop where
  old_nodup : (old.map place).Nodup
  new_nodup : (new.map place).Nodup
  kept : ∀ r ∈ old, ∃ r' ∈ new, keyOf r' = keyOf r
  key_iff : ∀ r ∈ old ++ new, ∀ r' ∈ old ++ new, keyOf r = keyOf r' ↔ place r = place r'

/-- The rows shown are rows of the server in its order, the fresh ones among them, without a
gap. -/
structure UpToDate (keyOf : T → K) (place : T → S) (new fresh shown : List T) : Prop where
  nodup : (shown.map keyOf).Nodup
  ordered : shown.Pairwise fun a b => place b < place a
  fresh : ∀ r ∈ fresh, r ∈ shown
  gapless : ∀ r ∈ new, (∃ a ∈ shown, place r ≤ place a) → (∃ b ∈ shown, place b ≤ place r) →
    ∃ c ∈ shown, keyOf c = keyOf r

/-- At most `limit` rows came before those loaded and none between them, and a page does not reach
beyond them. -/
def OnTop (place : T → S) (limit : Nat) (loaded now : List T) : Prop :=
  ∃ k ≤ limit, loaded.map place <+: (now.drop k).map place ∧
    (limit ≤ k + loaded.length ∨ now.length = k + loaded.length)

/-! ## The parts of the merged list -/

section Parts

variable (keyOf : T → K) (place : T → S) (prev fresh : List T)

/-- The entries of the first page with a key that was not listed. -/
def newcomers : List T := fresh.filter fun x => keyOf x ∉ prev.map keyOf

/-- The fresh version of a row, if there is one. -/
def freshVersion (x : T) : T := (fresh.reverse.find? (keyOf · = keyOf x)).getD x

theorem mergeFirstPage_eq : mergeFirstPage prev fresh keyOf =
    newcomers keyOf prev fresh ++ prev.map (freshVersion keyOf fresh) := rfl

variable {keyOf place prev fresh}

theorem keyOf_freshVersion (x : T) : keyOf (freshVersion keyOf fresh x) = keyOf x := by
  rw [freshVersion]
  cases hfind : fresh.reverse.find? (keyOf · = keyOf x) with
  | none => rfl
  | some y => simpa using List.find?_some hfind

theorem freshVersion_mem (x : T) : freshVersion keyOf fresh x = x ∨ freshVersion keyOf fresh x ∈ fresh := by
  rw [freshVersion]
  cases hfind : fresh.reverse.find? (keyOf · = keyOf x) with
  | none => exact Or.inl rfl
  | some y => exact Or.inr (List.mem_reverse.mp (List.mem_of_find?_eq_some hfind))

/-- A row whose fresh version is there becomes this version. -/
theorem freshVersion_eq (hkeys : ∀ r ∈ fresh, ∀ r' ∈ fresh, keyOf r = keyOf r' → r = r') {x r : T}
    (hr : r ∈ fresh) (hkey : keyOf r = keyOf x) : freshVersion keyOf fresh x = r := by
  rw [freshVersion]
  cases hfind : fresh.reverse.find? (keyOf · = keyOf x) with
  | none =>
      have hnone := List.find?_eq_none.mp hfind r (List.mem_reverse.mpr hr)
      exact absurd (decide_eq_true hkey) hnone
  | some y =>
      have hy : y ∈ fresh := List.mem_reverse.mp (List.mem_of_find?_eq_some hfind)
      have hykey : keyOf y = keyOf x := by simpa using List.find?_some hfind
      exact hkeys y hy r hr (hykey.trans hkey.symm)

/-- Every fresh row is shown. -/
theorem fresh_mem_merge (hkeys : ∀ r ∈ fresh, ∀ r' ∈ fresh, keyOf r = keyOf r' → r = r') {r : T}
    (hr : r ∈ fresh) : r ∈ mergeFirstPage prev fresh keyOf := by
  rw [mergeFirstPage_eq, List.mem_append]
  by_cases hold : keyOf r ∈ prev.map keyOf
  · obtain ⟨x, hx, hkey⟩ := List.mem_map.mp hold
    exact Or.inr (List.mem_map.mpr ⟨x, hx, freshVersion_eq hkeys hr hkey.symm⟩)
  · exact Or.inl (List.mem_filter.mpr ⟨hr, decide_eq_true hold⟩)

end Parts

/-! ## The merged list against the server's -/

section Merge

variable {keyOf : T → K} {place : T → S} {prev now : List T} {limit : Nat}

omit [DecidableEq K] in
/-- Rows at the places of the server's first rows are up to date. -/
theorem upToDate_of_prefix {new fresh shown : List T} (hdesc : now.Pairwise fun a b => place b < place a)
    (hnow : ∀ r ∈ new, r ∈ now) (hkey : ∀ r ∈ shown ++ new, ∀ r' ∈ shown ++ new,
      keyOf r = keyOf r' ↔ place r = place r')
    (hfresh : ∀ r ∈ fresh, r ∈ shown) (hfront : shown.map place <+: now.map place) :
    UpToDate keyOf place new fresh shown := by
  have hplaces : (now.map place).Pairwise fun a b => b < a := List.pairwise_map.mpr hdesc
  have hordered : shown.Pairwise fun a b => place b < place a :=
    List.pairwise_map.mp (hplaces.sublist hfront.sublist)
  constructor
  · refine List.pairwise_map.mpr (hordered.imp_of_mem fun {a b} ha hb hlt heq => ?_)
    have hplace := (hkey a (List.mem_append_left _ ha) b (List.mem_append_left _ hb)).mp heq
    exact absurd hplace hlt.ne'
  · exact hordered
  · exact hfresh
  · intro r hr _ hlast
    obtain ⟨b, hb, hle⟩ := hlast
    have hr' : place r ∈ now.map place := List.mem_map_of_mem (hnow r hr)
    obtain ⟨rest, hrest⟩ := hfront
    rw [← hrest] at hr' hplaces
    rcases List.mem_append.mp hr' with hmem | hmem
    · obtain ⟨c, hc, hplace⟩ := List.mem_map.mp hmem
      exact ⟨c, hc, (hkey c (List.mem_append_left _ hc) r (List.mem_append_right _ hr)).mpr hplace⟩
    · have hlt := (List.pairwise_append.mp hplaces).2.2 _ (List.mem_map_of_mem hb) _ hmem
      exact absurd hlt hle.not_gt

omit [DecidableEq K] in
/-- Rows that are up to date are at the places of the server's first rows, when the very first one
is shown. -/
theorem UpToDate.front {new fresh shown : List T} (h : UpToDate keyOf place new fresh shown)
    (hdesc : now.Pairwise fun a b => place b < place a) (hnow : ∀ r ∈ now, r ∈ new)
    (hkey : ∀ r ∈ shown ++ new, ∀ r' ∈ shown ++ new, keyOf r = keyOf r' ↔ place r = place r')
    (hshown : ∀ a ∈ shown, place a ∈ now.map place) (hfirst : ∀ r ∈ now.head?, r ∈ shown) :
    shown.map place <+: now.map place := by
  refine Keyset.prefix_of_upper (List.pairwise_map.mpr h.ordered) (List.pairwise_map.mpr hdesc) ?_ ?_
  · intro p hp
    obtain ⟨a, ha, rfl⟩ := List.mem_map.mp hp
    exact hshown a ha
  · intro p hp hlast
    obtain ⟨r, hr, rfl⟩ := List.mem_map.mp hp
    obtain ⟨q, hq, hle⟩ := hlast
    obtain ⟨b, hb, rfl⟩ := List.mem_map.mp hq
    have htop : ∃ a ∈ shown, place r ≤ place a := by
      cases now with
      | nil => cases hr
      | cons first now =>
          refine ⟨first, hfirst first rfl, ?_⟩
          rcases List.mem_cons.mp hr with rfl | hr
          · exact le_refl _
          · exact ((List.pairwise_cons.mp hdesc).1 r hr).le
    obtain ⟨c, hc, hkeys⟩ := h.gapless r (hnow r hr) htop ⟨b, hb, hle⟩
    have hplace := (hkey c (List.mem_append_left _ hc) r
      (List.mem_append_right _ (hnow r hr))).mp hkeys
    exact List.mem_map.mpr ⟨c, hc, hplace⟩

variable (hdesc : now.Pairwise fun a b => place b < place a)
  (hkey : ∀ r ∈ prev ++ now, ∀ r' ∈ prev ++ now, keyOf r = keyOf r' ↔ place r = place r')
include hdesc hkey

/-- The rows of a page that are not loaded yet, when those loaded are on top. -/
theorem newcomers_eq {k : Nat} (hk : k ≤ limit)
    (hfront : prev.map place <+: (now.drop k).map place)
    (hreach : limit ≤ k + prev.length ∨ now.length = k + prev.length) :
    newcomers keyOf prev (now.take limit) = now.take k := by
  obtain ⟨rest, hrest⟩ := hfront
  have hsplit : now.take limit = now.take k ++ (now.drop k).take (limit - k) := by
    rw [← List.take_add, Nat.add_sub_cancel' hk]
  have hnew : (now.take k).filter (fun x => keyOf x ∉ prev.map keyOf) = now.take k := by
    refine List.filter_eq_self.mpr fun d hd => decide_eq_true fun hmem => ?_
    obtain ⟨y, hy, hkeys⟩ := List.mem_map.mp hmem
    have hplace := (hkey y (List.mem_append_left _ hy) d
      (List.mem_append_right _ (List.mem_of_mem_take hd))).mp hkeys
    have hlater : place d ∈ (now.drop k).map place := by
      rw [← hrest, ← hplace]
      exact List.mem_append_left _ (List.mem_map_of_mem hy)
    obtain ⟨d', hd', heq⟩ := List.mem_map.mp hlater
    rw [← List.take_append_drop k now] at hdesc
    exact absurd ((List.pairwise_append.mp hdesc).2.2 d hd d' hd') (heq ▸ lt_irrefl _)
  have hold : ((now.drop k).take (limit - k)).filter (fun x => keyOf x ∉ prev.map keyOf) = [] := by
    refine List.filter_eq_nil_iff.mpr fun d hd => ?_
    have hplace : place d ∈ prev.map place := by
      have hmem : place d ∈ ((now.drop k).map place).take (limit - k) := by
        rw [← List.map_take]
        exact List.mem_map_of_mem hd
      rw [← hrest] at hmem
      rcases hreach with hreach | hreach
      · rw [List.take_append_of_le_length (by rw [List.length_map]; omega)] at hmem
        exact List.mem_of_mem_take hmem
      · have hlength := congrArg List.length hrest
        simp only [List.length_append, List.length_map, List.length_drop] at hlength
        have hnil : rest = [] := List.length_eq_zero_iff.mp (by omega)
        rw [hnil, List.append_nil] at hmem
        exact List.mem_of_mem_take hmem
    obtain ⟨y, hy, heq⟩ := List.mem_map.mp hplace
    have hkeys := (hkey y (List.mem_append_left _ hy) d
      (List.mem_append_right _ (List.mem_of_mem_drop (List.mem_of_mem_take hd)))).mpr heq
    simpa using ⟨y, hy, hkeys⟩
  rw [newcomers, hsplit, List.filter_append, hnew, hold, List.append_nil]

/-- The page's rows that are not loaded and the rows loaded are the server's first ones exactly if
the rows loaded are on top. -/
theorem prefix_iff_onTop :
    (newcomers keyOf prev (now.take limit) ++ prev).map place <+: now.map place ↔
      OnTop place limit prev now := by
  constructor
  · rintro ⟨rest, hrest⟩
    rw [List.map_append, List.append_assoc] at hrest
    have hcount : (newcomers keyOf prev (now.take limit)).length ≤ limit :=
      (List.length_filter_le _ _).trans (List.length_take_le _ _)
    refine ⟨(newcomers keyOf prev (now.take limit)).length, hcount, ⟨rest, ?_⟩, ?_⟩
    · rw [List.map_drop, ← hrest, List.drop_left' (List.length_map _)]
    · by_contra hreach
      push Not at hreach
      have hlength := congrArg List.length hrest
      simp only [List.length_append, List.length_map] at hlength
      -- The row after those shown is in the page, too.
      obtain ⟨p, rest, rfl⟩ := List.exists_cons_of_ne_nil (l := rest) (by
        rintro rfl
        simp only [List.length_nil] at hlength
        omega)
      rw [← List.append_assoc, ← List.map_append] at hrest
      have hfetched : p ∈ (now.take limit).map place := by
        obtain ⟨m, hm⟩ : ∃ m, limit - (newcomers keyOf prev (now.take limit) ++ prev).length = m + 1 :=
          Nat.exists_eq_succ_of_ne_zero (by rw [List.length_append]; omega)
        rw [List.map_take, ← hrest, List.take_append, List.length_map, hm, List.take_succ_cons]
        exact List.mem_append_right _ List.mem_cons_self
      have hshown : p ∈ (newcomers keyOf prev (now.take limit) ++ prev).map place := by
        obtain ⟨d, hd, rfl⟩ := List.mem_map.mp hfetched
        rw [List.map_append, List.mem_append]
        by_cases hold : keyOf d ∈ prev.map keyOf
        · obtain ⟨y, hy, hkeys⟩ := List.mem_map.mp hold
          have hplace := (hkey y (List.mem_append_left _ hy) d
            (List.mem_append_right _ (List.mem_of_mem_take hd))).mp hkeys
          exact Or.inr (List.mem_map.mpr ⟨y, hy, hplace⟩)
        · exact Or.inl (List.mem_map_of_mem (List.mem_filter.mpr ⟨hd, decide_eq_true hold⟩))
      have hplaces : (now.map place).Pairwise fun a b => b < a := List.pairwise_map.mpr hdesc
      rw [← hrest] at hplaces
      exact lt_irrefl p ((List.pairwise_append.mp hplaces).2.2 p hshown p List.mem_cons_self)
  · rintro ⟨k, hk, hfront, hreach⟩
    rw [newcomers_eq hdesc hkey hk hfront hreach, List.map_append]
    calc (now.take k).map place ++ prev.map place
        <+: (now.take k).map place ++ (now.drop k).map place := List.prefix_append_right_inj _ |>.mpr hfront
      _ = now.map place := by rw [← List.map_append, List.take_append_drop]

end Merge

/-! ## When the merged list is up to date -/

section Refreshing

variable {keyOf : T → K} {place : T → S} {old new : List T} {limit : Nat}

/-- The rows loaded: the first ones in the order of the server. -/
def loadedRows (place : T → S) (old : List T) (loaded : Nat) : List T :=
  (Keyset.descending place old).take loaded

/-- The page fetched later. -/
def freshPage (place : T → S) (new : List T) (limit : Nat) : List T :=
  (Keyset.page place limit none new).1

theorem freshPage_eq : freshPage place new limit = (Keyset.descending place new).take limit :=
  Keyset.page_first limit new

theorem mem_loadedRows {loaded : Nat} {r : T} (hr : r ∈ loadedRows place old loaded) : r ∈ old :=
  Keyset.mem_descending.mp (List.mem_of_mem_take hr)

theorem mem_freshPage {r : T} (hr : r ∈ freshPage place new limit) : r ∈ new := by
  rw [freshPage_eq] at hr
  exact Keyset.mem_descending.mp (List.mem_of_mem_take hr)

theorem mem_of_mem_merge {loaded : Nat} {r : T} (hr : r ∈ mergeFirstPage
    (loadedRows place old loaded) (freshPage place new limit) keyOf) : r ∈ old ++ new := by
  rw [mergeFirstPage_eq] at hr
  rcases List.mem_append.mp hr with hr | hr
  · exact List.mem_append_right _ (mem_freshPage (List.mem_of_mem_filter hr))
  · obtain ⟨x, hx, rfl⟩ := List.mem_map.mp hr
    rcases @freshVersion_mem T K _ keyOf (freshPage place new limit) x with heq | hmem
    · rw [heq]
      exact List.mem_append_left _ (mem_loadedRows hx)
    · exact List.mem_append_right _ (mem_freshPage hmem)

omit [DecidableEq K] in
/-- One version of each row is in the page. -/
theorem Relisted.eq_of_key (h : Relisted keyOf place old new) :
    ∀ r ∈ freshPage place new limit, ∀ r' ∈ freshPage place new limit, keyOf r = keyOf r' →
      r = r' := by
  intro r hr r' hr' hkeys
  have hmem := mem_freshPage hr
  have hmem' := mem_freshPage hr'
  have hplace := (h.key_iff r (List.mem_append_right _ hmem) r'
    (List.mem_append_right _ hmem')).mp hkeys
  exact List.inj_on_of_nodup_map h.new_nodup hmem hmem' hplace

/-- A row is replaced at its place. -/
theorem Relisted.map_place (h : Relisted keyOf place old new) (loaded : Nat) :
    (mergeFirstPage (loadedRows place old loaded) (freshPage place new limit) keyOf).map place =
      (newcomers keyOf (loadedRows place old loaded) (freshPage place new limit) ++
        loadedRows place old loaded).map place := by
  rw [mergeFirstPage_eq, List.map_append, List.map_append, List.map_map]
  congr 1
  refine List.map_congr_left fun x hx => ?_
  have hx' : x ∈ old ++ new := List.mem_append_left _ (mem_loadedRows hx)
  refine (h.key_iff _ ?_ x hx').mp (keyOf_freshVersion x)
  rcases @freshVersion_mem T K _ keyOf (freshPage place new limit) x with heq | hmem
  · rw [heq]
    exact hx'
  · exact List.mem_append_right _ (mem_freshPage hmem)

omit [DecidableEq K] in
/-- Every row loaded is still there. -/
theorem Relisted.place_mem (h : Relisted keyOf place old new) {r : T} (hr : r ∈ old ++ new) :
    place r ∈ (Keyset.descending place new).map place := by
  rcases List.mem_append.mp hr with hold | hnew
  · obtain ⟨r', hr', hkeys⟩ := h.kept r hold
    have hplace := (h.key_iff r' (List.mem_append_right _ hr') r hr).mp hkeys
    exact List.mem_map.mpr ⟨r', Keyset.mem_descending.mpr hr', hplace⟩
  · exact List.mem_map_of_mem (Keyset.mem_descending.mpr hnew)

/-- After a refresh the list is up to date exactly if the rows loaded are on top. -/
theorem mergeFirstPage_upToDate_iff (h : Relisted keyOf place old new) (hlimit : 0 < limit)
    (loaded : Nat) :
    UpToDate keyOf place new (freshPage place new limit)
        (mergeFirstPage (loadedRows place old loaded) (freshPage place new limit) keyOf) ↔
      OnTop place limit (loadedRows place old loaded) (Keyset.descending place new) := by
  have hdesc := Keyset.descending_pairwise h.new_nodup
  have hkey : ∀ r ∈ loadedRows place old loaded ++ Keyset.descending place new,
      ∀ r' ∈ loadedRows place old loaded ++ Keyset.descending place new,
        keyOf r = keyOf r' ↔ place r = place r' := by
    have hmem : ∀ r ∈ loadedRows place old loaded ++ Keyset.descending place new, r ∈ old ++ new := by
      intro r hr
      exact (List.mem_append.mp hr).elim (fun hr => List.mem_append_left _ (mem_loadedRows hr))
        fun hr => List.mem_append_right _ (Keyset.mem_descending.mp hr)
    exact fun r hr r' hr' => h.key_iff r (hmem r hr) r' (hmem r' hr')
  have hkey' : ∀ r ∈ mergeFirstPage (loadedRows place old loaded) (freshPage place new limit) keyOf
      ++ new, ∀ r' ∈ mergeFirstPage (loadedRows place old loaded) (freshPage place new limit) keyOf
      ++ new, keyOf r = keyOf r' ↔ place r = place r' := by
    have hmem : ∀ r ∈ mergeFirstPage (loadedRows place old loaded) (freshPage place new limit) keyOf
        ++ new, r ∈ old ++ new := by
      intro r hr
      exact (List.mem_append.mp hr).elim mem_of_mem_merge (List.mem_append_right _)
    exact fun r hr r' hr' => h.key_iff r (hmem r hr) r' (hmem r' hr')
  have hfresh : ∀ r ∈ freshPage place new limit, r ∈ mergeFirstPage (loadedRows place old loaded)
      (freshPage place new limit) keyOf := fun r hr => fresh_mem_merge h.eq_of_key hr
  rw [← prefix_iff_onTop hdesc hkey, ← freshPage_eq, ← h.map_place]
  constructor
  · intro hdate
    refine hdate.front hdesc (fun r hr => Keyset.mem_descending.mp hr) hkey'
      (fun a ha => h.place_mem (mem_of_mem_merge ha)) fun r hr => hfresh r ?_
    rw [freshPage_eq]
    refine List.mem_of_mem_head? ?_
    rwa [List.head?_take, if_neg (Nat.ne_of_gt hlimit)]
  · exact fun hfront => upToDate_of_prefix hdesc (fun r hr => Keyset.mem_descending.mpr hr) hkey'
      hfresh hfront

end Refreshing

/-- Two rows are loaded; one of them changes and a third is inserted. -/
theorem mergeFirstPage_upToDate_inserted :
    Relisted Prod.fst Prod.fst [(2, false), (1, false)] [(3, false), (2, true), (1, false)] ∧
      (UpToDate Prod.fst Prod.fst [(3, false), (2, true), (1, false)]
          (freshPage Prod.fst [(3, false), (2, true), (1, false)] 2)
          (mergeFirstPage (loadedRows Prod.fst [(2, false), (1, false)] 2)
            (freshPage Prod.fst [(3, false), (2, true), (1, false)] 2) Prod.fst) ↔
        OnTop Prod.fst 2 (loadedRows Prod.fst [(2, false), (1, false)] 2)
          (Keyset.descending Prod.fst [(3, false), (2, true), (1, false)])) := by
  have h : Relisted (Prod.fst : Nat × Bool → Nat) Prod.fst [(2, false), (1, false)]
      [(3, false), (2, true), (1, false)] :=
    ⟨by decide, by decide, by decide, fun _ _ _ _ => Iff.rfl⟩
  exact ⟨h, mergeFirstPage_upToDate_iff h (by decide) 2⟩

/-- One row is loaded and 51 are inserted: row 1 is neither in the page of 50 nor loaded. -/
theorem beyond_page_missing : ∃ old new : List Nat, Relisted id id old new ∧
    ¬ UpToDate id id new (freshPage id new 50)
      (mergeFirstPage (loadedRows id old 1) (freshPage id new 50) id) := by
  have hnew : Keyset.descending id (List.range 52).reverse = (List.range 52).reverse :=
    Keyset.descending_eq_self (by decide)
  have hold : Keyset.descending id [0] = [0] := Keyset.descending_eq_self (by decide)
  refine ⟨[0], (List.range 52).reverse, ⟨by decide, by decide, by decide, fun _ _ _ _ => Iff.rfl⟩,
    fun h => ?_⟩
  have hgap := h.gapless 1 (by decide)
  rw [loadedRows, freshPage_eq, hold, hnew] at hgap
  exact absurd hgap (by decide)

/-! ## The list of tasks -/

theorem mergeFirstPage_map {U : Type} {keyOf : T → K} {keyOf' : U → K} {f : T → U}
    (hf : ∀ x, keyOf' (f x) = keyOf x) (prev fresh : List T) :
    mergeFirstPage (prev.map f) (fresh.map f) keyOf' = (mergeFirstPage prev fresh keyOf).map f := by
  have hkeys : (prev.map f).map keyOf' = prev.map keyOf := by
    simp [hf]
  simp only [mergeFirstPage, hkeys, List.map_append, List.map_map, List.filter_map,
    ← List.map_reverse, List.find?_map]
  congr 1
  · simp [Function.comp_def, hf]
  · refine List.map_congr_left fun x _ => ?_
    simp only [Function.comp_def, hf]
    cases fresh.reverse.find? (keyOf · = keyOf x) <;> rfl

/-- The first page of the tasks is that of their rows. -/
theorem firstPage_items {limit : Nat} {filters : TaskFilters} {db : Db} {world : World}
    {page : AdminTaskListPage} (h : (listTasks limit none filters).resultOf db world = .ok page) :
    page.items = (freshPage Task.listKey (db.tasks.select filters.keeps) limit).map
      taskRowToListItem := by
  have hpage := @listTasks_page filters limit world none (by simp) db
  rw [Option.map_none, h] at hpage
  cases hpage
  rfl

/-- While tasks are inserted, their list keeps its places. -/
theorem Inserting.relisted {filters : TaskFilters} {dbs : Nat → Db} (h : Inserting filters dbs)
    {j k : Nat} (hjk : j ≤ k) : Relisted Task.taskId Task.listKey
      ((dbs j).tasks.select filters.keeps) ((dbs k).tasks.select filters.keeps) := by
  have hmem : ∀ row ∈ (dbs j).tasks.select filters.keeps ++ (dbs k).tasks.select filters.keeps,
      ∃ row' ∈ (dbs k).tasks.rows, SameListed filters row row' := by
    intro row hrow
    rcases List.mem_append.mp hrow with hrow | hrow
    · exact h.persists hjk (mem_matching.mp hrow).1
    · exact h.persists (Nat.le_refl k) (mem_matching.mp hrow).1
  constructor
  · exact h.growing.nodup j
  · exact h.growing.nodup k
  · intro row hrow
    obtain ⟨hrow, hkeeps⟩ := mem_matching.mp hrow
    obtain ⟨row', hrow', hsame⟩ := h.persists hjk hrow
    exact ⟨row', mem_matching.mpr ⟨hrow', hsame.keeps.trans hkeeps⟩, hsame.taskId⟩
  · intro a ha b hb
    obtain ⟨a', ha', hsame⟩ := hmem a ha
    obtain ⟨b', hb', hsame'⟩ := hmem b hb
    constructor
    · intro htask
      have hkey := h.listKey_eq ha' hb' (hsame.taskId.trans (htask.trans hsame'.taskId.symm))
      exact hsame.listKey.symm.trans (hkey.trans hsame'.listKey)
    · intro hkey
      have hid : a'.id = b'.id := by
        rw [hsame.id, hsame'.id]
        exact congrArg (fun key => (ofLex key).2) hkey
      have heq : a' = b' := Table.eq_of_id ha' hb' hid
      exact hsame.taskId.symm.trans (heq ▸ hsame'.taskId)

/-- After a refresh the view of the tasks shows the items of the merged rows. -/
theorem tasksView_refresh {limit : Nat} {filters : TaskFilters} {db : Db} {world : World}
    {page : AdminTaskListPage} (h : (listTasks limit none filters).resultOf db world = .ok page)
    (prev : List Task) :
    mergeFirstPage (prev.map taskRowToListItem) page.items AdminTaskListItem.taskId =
      (mergeFirstPage prev (freshPage Task.listKey (db.tasks.select filters.keeps) limit)
        Task.taskId).map taskRowToListItem := by
  rw [firstPage_items h]
  exact mergeFirstPage_map (fun _ => rfl) prev _

end GpuFleet
