import GpuFleet.Foundations.Table

/-!
# Rows up to their ids

Two tables may hold the same rows under other ids.  `bare` takes the id from a
row, and two lists are `Renumbered` when they show the same bare rows in the
same order.

Lists in the order of their ids that are renumbered are *paired*: row by row,
and so that the ids of the rows stand in the same order (`Renumbered.paired`).
Hence what reads neither the ids nor anything but their order selects the same
rows of both (`Paired.filter`), and an update of one row by its id does the same
to both (`Paired.update`).
-/

namespace Foundations

variable {α : Type} {bare : α → α} {l l' m m' : List α}

/-- The same rows, but for their ids. -/
def Renumbered (bare : α → α) (l l' : List α) : Prop := l.map bare = l'.map bare

theorem Renumbered.append (h : Renumbered bare l l') (h' : Renumbered bare m m') :
    Renumbered bare (l ++ m) (l' ++ m') := by
  unfold Renumbered at *
  rw [List.map_append, List.map_append, h, h']

variable [Row α] {z : List (α × α)}

/-- In the order of the ids. -/
def Increasing (l : List α) : Prop := l.Pairwise fun a b => Row.id a < Row.id b

theorem Table.increasing_select (t : Table α) (p : α → Bool) : Increasing (t.select p) :=
  t.ordered.filter _

/-- A list of pairs whose first rows are one list and whose second rows are the other. -/
structure Paired (bare : α → α) (z : List (α × α)) (l l' : List α) : Prop where
  left : z.map Prod.fst = l
  right : z.map Prod.snd = l'
  same : ∀ u ∈ z, bare u.1 = bare u.2
  order : ∀ u ∈ z, ∀ v ∈ z, Row.id u.1 < Row.id v.1 ↔ Row.id u.2 < Row.id v.2

/-- Renumbered rows in the order of their ids are paired. -/
theorem Renumbered.paired (h : Renumbered bare l l') (hl : Increasing l) (hl' : Increasing l') :
    ∃ z, Paired bare z l l' := by
  induction l generalizing l' with
  | nil =>
      obtain rfl : l' = [] := List.map_eq_nil_iff.mp (Eq.symm h)
      exact ⟨[], rfl, rfl, by simp, by simp⟩
  | cons a l ih =>
      cases l' with
      | nil => cases h
      | cons b l' =>
          obtain ⟨hhead, htail⟩ := List.cons.inj h
          obtain ⟨ha, hl⟩ := List.pairwise_cons.mp hl
          obtain ⟨hb, hl'⟩ := List.pairwise_cons.mp hl'
          obtain ⟨z, hz⟩ := ih htail hl hl'
          have hfirst : ∀ u ∈ z, Row.id a < Row.id u.1 ∧ Row.id b < Row.id u.2 := fun u hu =>
            ⟨ha u.1 (hz.left ▸ List.mem_map_of_mem hu), hb u.2 (hz.right ▸ List.mem_map_of_mem hu)⟩
          refine ⟨(a, b) :: z, congrArg (a :: ·) hz.left, congrArg (b :: ·) hz.right, ?_, ?_⟩
          · simp only [List.forall_mem_cons]
            exact ⟨hhead, hz.same⟩
          · simp only [List.forall_mem_cons]
            refine ⟨⟨by simp, fun v hv => ?_⟩, fun u hu => ⟨?_, hz.order u hu⟩⟩
            · simp [hfirst v hv]
            · have := hfirst u hu
              omega

namespace Paired

theorem renumbered (h : Paired bare z l l') : Renumbered bare l l' := by
  rw [Renumbered, ← h.left, ← h.right, List.map_map, List.map_map]
  exact List.map_congr_left h.same

/-- Conditions that agree on the pairs select pairs. -/
theorem filter (h : Paired bare z l l') {q q' : α → Bool} (hq : ∀ u ∈ z, q u.1 = q' u.2) :
    Paired bare (z.filter fun u => q u.1) (l.filter q) (l'.filter q') where
  left := by
    rw [← h.left, List.filter_map]
    rfl
  right := by
    rw [← h.right, List.filter_map]
    exact congrArg _ (List.filter_congr hq)
  same u hu := h.same u (List.mem_of_mem_filter hu)
  order u hu v hv := h.order u (List.mem_of_mem_filter hu) v (List.mem_of_mem_filter hv)

/-- Two rows are the same on the left if and only if they are on the right. -/
theorem id_eq {u v : α × α} (h : Paired bare z l l') (hu : u ∈ z) (hv : v ∈ z) :
    Row.id u.1 = Row.id v.1 ↔ Row.id u.2 = Row.id v.2 := by
  have := h.order u hu v hv
  have := h.order v hv u hu
  omega

/-- An update of a pair of rows, by their ids. -/
theorem update {u : α × α} {f : α → α} (h : Paired bare z l l') (hu : u ∈ z)
    (hf : ∀ a, bare (f a) = f (bare a)) :
    Renumbered bare (l.map fun a => if Row.id a = Row.id u.1 then f a else a)
      (l'.map fun a => if Row.id a = Row.id u.2 then f a else a) := by
  rw [Renumbered, ← h.left, ← h.right]
  simp only [List.map_map]
  refine List.map_congr_left fun v hv => ?_
  simp only [Function.comp]
  by_cases hid : Row.id v.1 = Row.id u.1
  · rw [if_pos hid, if_pos ((h.id_eq hv hu).mp hid)]
    rw [hf, hf, h.same v hv]
  · rw [if_neg hid, if_neg fun hid' => hid ((h.id_eq hv hu).mpr hid')]
    exact h.same v hv

theorem mem_left {u : α × α} (h : Paired bare z l l') (hu : u ∈ z) : u.1 ∈ l :=
  h.left ▸ List.mem_map_of_mem hu

/-- Both lists are empty, or their first rows are a pair. -/
theorem head?_cases (h : Paired bare z l l') :
    (l.head? = none ∧ l'.head? = none) ∨ ∃ u ∈ z, l.head? = some u.1 ∧ l'.head? = some u.2 := by
  rw [← h.left, ← h.right, List.head?_map, List.head?_map]
  cases hu : z.head? with
  | none => exact Or.inl ⟨rfl, rfl⟩
  | some u => exact Or.inr ⟨u, List.mem_of_head? hu, rfl, rfl⟩

/-- Both lists are empty, or their last rows are a pair. -/
theorem getLast?_cases (h : Paired bare z l l') :
    (l.getLast? = none ∧ l'.getLast? = none) ∨
      ∃ u ∈ z, l.getLast? = some u.1 ∧ l'.getLast? = some u.2 := by
  rw [← h.left, ← h.right, List.getLast?_map, List.getLast?_map]
  cases hu : z.getLast? with
  | none => exact Or.inl ⟨rfl, rfl⟩
  | some u => exact Or.inr ⟨u, List.mem_of_getLast? hu, rfl, rfl⟩

end Paired

namespace Table

variable {t : Table α} {p : α → Bool}

/-- The rows selected after an insertion. -/
theorem select_insert {mk : Nat → α} {hid} :
    (t.insert mk hid).select p =
      t.select p ++ if t.conflicts mk then [] else [mk (t.seq + 1)].filter p := by
  cases hc : t.conflicts mk with
  | true => simp [insert_of_conflict hc]
  | false => simp [select, insert_rows hc]

/-- An insertion of a row that is not selected. -/
theorem select_insert_other {mk : Nat → α} {hid} (hp : ∀ n, p (mk n) = false) :
    (t.insert mk hid).select p = t.select p := by
  rw [select_insert, List.filter_cons_of_neg (by simp [hp])]
  simp

/-- Without conflict the same row is inserted into both tables. -/
theorem renumbered_insert {t' : Table α} {mk : Nat → α} {hid}
    (h : Renumbered bare (t.select p) (t'.select p)) (hc : t.conflicts mk = false)
    (hc' : t'.conflicts mk = false) (hp : ∀ n, p (mk n) = true)
    (hbare : ∀ m n, bare (mk m) = bare (mk n)) :
    Renumbered bare ((t.insert mk hid).select p) ((t'.insert mk hid).select p) := by
  rw [select_insert, select_insert, hc, hc']
  refine h.append ?_
  simp [Renumbered, hp, hbare (t.seq + 1) (t'.seq + 1)]

/-- A narrower condition selects pairs among the pairs. -/
theorem paired_select {t' : Table α} {q : α → Bool}
    (h : Renumbered bare (t.select p) (t'.select p)) (hq : ∀ a, q a = true → p a = true)
    (hbare : ∀ a b, bare a = bare b → q a = q b) :
    ∃ z z', Paired bare z (t.select p) (t'.select p) ∧ (∀ u ∈ z', u ∈ z) ∧
      Paired bare z' (t.select q) (t'.select q) := by
  obtain ⟨z, hz⟩ := h.paired (t.increasing_select p) (t'.increasing_select p)
  have hnarrow : ∀ t : Table α, (t.select p).filter q = t.select q := by
    intro t
    rw [select, List.filter_filter]
    refine List.filter_congr fun a _ => ?_
    cases hqa : q a with
    | false => rfl
    | true => rw [hq a hqa]; rfl
  have hfilter := hz.filter fun u hu => hbare u.1 u.2 (hz.same u hu)
  rw [hnarrow, hnarrow] at hfilter
  exact ⟨z, _, hz, fun u hu => List.mem_of_mem_filter hu, hfilter⟩

/-- What is found under a key and meets a condition. -/
theorem filter_get? {k : Row.Key α} :
    (t.get? k).filter p = (t.select p).find? fun a => Row.key a = k := by
  have h := t.get?_delete (fun a => !p a) k
  simp only [Bool.not_not] at h
  rw [← h, get?, delete]
  simp only [Bool.not_not]
  rfl

/-- An update of one row, by its id. -/
theorem select_update_id {n : Nat} {f : α → α} {hid hkey} (hkeep : ∀ a, p (f a) = p a) :
    (t.update (fun a => Row.id a = n) f hid hkey).select p =
      (t.select p).map fun a => if Row.id a = n then f a else a := by
  rw [select_update fun a _ _ => hkeep a]
  simp only [decide_eq_true_eq]

/-- An update of a row that is not selected. -/
theorem select_update_other {a : α} {f : α → α} {hid hkey} (ha : a ∈ t.rows) (hp : p a = false)
    (hkeep : ∀ a, p (f a) = p a) :
    (t.update (fun b => Row.id b = Row.id a) f hid hkey).select p = t.select p := by
  rw [select_update_id hkeep]
  refine (List.map_congr_left fun b hb => ?_).trans (List.map_id _)
  obtain ⟨hmem, hsel⟩ := List.mem_filter.mp hb
  refine if_neg fun hid => ?_
  rw [eq_of_id hmem ha hid, hp] at hsel
  cases hsel

/-- An update of a pair of rows does the same to both tables. -/
theorem renumbered_update {t' : Table α} {u : α × α} {f : α → α} {hid hkey}
    (hz : Paired bare z (t.select p) (t'.select p)) (hu : u ∈ z)
    (hf : ∀ a, bare (f a) = f (bare a)) (hkeep : ∀ a, p (f a) = p a) :
    Renumbered bare ((t.update (fun a => Row.id a = Row.id u.1) f hid hkey).select p)
      ((t'.update (fun a => Row.id a = Row.id u.2) f hid hkey).select p) := by
  rw [select_update_id hkeep, select_update_id hkeep]
  exact hz.update hu hf

theorem select_delete {d : α → Bool} : (t.delete d).select p = (t.select p).filter fun a => !d a := by
  simp [select, delete, List.filter_filter, Bool.and_comm]

end Table

end Foundations
