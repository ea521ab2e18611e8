import Mathlib.Data.List.Nodup
import Mathlib.Order.Lattice
import Mathlib.Data.List.Pairwise

/-!
# Tables with a primary key and a unique key

A *row* has an integer primary key `id` and a key that its table keeps unique.
A table without a uniqueness constraint of its own takes the primary key for
both.  A `Table` carries the two constraints as fields: rows stand in the order
of strictly increasing ids, none above the sequence counter, and no key occurs
twice.  So no table that breaks a constraint can be written down.

`insert` draws the next number of the counter, as `AUTOINCREMENT` does, and
leaves the table alone when the key is taken.  `update` and `delete` act on the
rows that a condition selects.

The lemmas say what `get?` finds after each operation.
-/

namespace Foundations

/-- The primary key and the unique key of a row. -/
class Row (α : Type) where
  /-- The type of the unique key. -/
  Key : Type
  /-- Keys are compared. -/
  [decEq : DecidableEq Key]
  /-- The primary key. -/
  id : α → Nat
  /-- The unique key. -/
  key : α → Key

attribute [reducible, instance] Row.decEq

/-- Rows in the order of their ids, with the counter of the last id given out. -/
structure Table (α : Type) [Row α] where
  /-- The rows, oldest first. -/
  rows : List α
  /-- The greatest id ever given out. -/
  seq : Nat
  /-- Ids strictly increase. -/
  ordered : rows.Pairwise fun a b => Row.id a < Row.id b
  /-- Ids were given out by the counter. -/
  bounded : ∀ a ∈ rows, Row.id a ≤ seq
  /-- No key occurs twice. -/
  unique : (rows.map Row.key).Nodup

namespace Table

variable {α : Type} [Row α]

/-- The empty table. -/
def empty : Table α where
  rows := []
  seq := 0
  ordered := .nil
  bounded := by simp
  unique := by simp

instance : Inhabited (Table α) := ⟨empty⟩

/-- A table is its rows and its counter. -/
@[ext]
theorem ext {s t : Table α} (rows : s.rows = t.rows) (seq : s.seq = t.seq) : s = t := by
  cases s; cases t; cases rows; cases seq; rfl

/-- The row with a given key. -/
def get? (t : Table α) (k : Row.Key α) : Option α := t.rows.find? fun a => Row.key a = k

/-- The rows a condition selects, oldest first. -/
def select (t : Table α) (p : α → Bool) : List α := t.rows.filter p

/-- Rewrite the rows a condition selects.  Keys stay. -/
def update (t : Table α) (p : α → Bool) (f : α → α) (hid : ∀ a, Row.id (f a) = Row.id a)
    (hkey : ∀ a, Row.key (f a) = Row.key a) : Table α where
  rows := t.rows.map fun a => if p a then f a else a
  seq := t.seq
  ordered := by
    rw [List.pairwise_map]
    refine t.ordered.imp fun {a b} hab => ?_
    have ha : Row.id (if p a then f a else a) = Row.id a := by split <;> simp [hid]
    have hb : Row.id (if p b then f b else b) = Row.id b := by split <;> simp [hid]
    rw [ha, hb]
    exact hab
  bounded := by
    intro b hb
    obtain ⟨a, ha, rfl⟩ := List.mem_map.mp hb
    have : Row.id (if p a then f a else a) = Row.id a := by split <;> simp [hid]
    rw [this]
    exact t.bounded a ha
  unique := by
    have : (t.rows.map fun a => if p a then f a else a).map Row.key = t.rows.map Row.key := by
      rw [List.map_map]
      refine List.map_congr_left fun a _ => ?_
      simp only [Function.comp]
      split <;> simp [hkey]
    rw [this]
    exact t.unique

/-- Remove the rows a condition selects. -/
def delete (t : Table α) (p : α → Bool) : Table α where
  rows := t.rows.filter fun a => !p a
  seq := t.seq
  ordered := t.ordered.filter _
  bounded := fun a ha => t.bounded a (List.mem_of_mem_filter ha)
  unique := t.unique.sublist ((List.filter_sublist).map Row.key)

/-- Inserting the row would break the uniqueness constraint. -/
def conflicts (t : Table α) (mk : Nat → α) : Bool :=
  t.rows.any fun a => Row.key a = Row.key (mk (t.seq + 1))

/-- Append a row under the next id, unless its key is taken. -/
def insert (t : Table α) (mk : Nat → α) (hid : ∀ n, Row.id (mk n) = n) : Table α :=
  if h : t.conflicts mk then t else
  { rows := t.rows ++ [mk (t.seq + 1)]
    seq := t.seq + 1
    ordered := by
      refine List.pairwise_append.mpr ⟨t.ordered, List.pairwise_singleton _ _, ?_⟩
      intro a ha b hb
      rw [List.mem_singleton] at hb
      subst hb
      rw [hid]
      exact Nat.lt_succ_of_le (t.bounded a ha)
    bounded := by
      intro a ha
      rcases List.mem_append.mp ha with ha | ha
      · exact Nat.le_succ_of_le (t.bounded a ha)
      · rw [List.mem_singleton] at ha
        exact Nat.le_of_eq (by rw [ha, hid])
    unique := by
      rw [List.map_append, List.map_singleton, List.nodup_append]
      refine ⟨t.unique, List.nodup_singleton _, ?_⟩
      intro k hk k' hk' hkk
      rw [List.mem_singleton] at hk'
      obtain ⟨a, ha, hak⟩ := List.mem_map.mp hk
      apply h
      rw [conflicts, List.any_eq_true]
      exact ⟨a, ha, by simp [hak, hkk, hk']⟩ }

/-! ## Membership and lookup -/

theorem get?_some_iff (t : Table α) (k : Row.Key α) (a : α) :
    t.get? k = some a ↔ a ∈ t.rows ∧ Row.key a = k := by
  constructor
  · intro h
    exact ⟨List.mem_of_find?_eq_some h, by simpa using List.find?_some h⟩
  · rintro ⟨ha, hk⟩
    cases hf : t.get? k with
    | none =>
        have := List.find?_eq_none.mp hf a ha
        simp [hk] at this
    | some b =>
        have hb := List.mem_of_find?_eq_some hf
        have hkb : Row.key b = k := by simpa using List.find?_some hf
        rw [List.inj_on_of_nodup_map t.unique hb ha (hkb.trans hk.symm)]

theorem get?_mem {t : Table α} {k : Row.Key α} {a : α} (h : t.get? k = some a) : a ∈ t.rows :=
  ((t.get?_some_iff k a).mp h).1

theorem get?_key {t : Table α} {k : Row.Key α} {a : α} (h : t.get? k = some a) :
    Row.key a = k :=
  ((t.get?_some_iff k a).mp h).2

theorem get?_of_mem {t : Table α} {a : α} (h : a ∈ t.rows) : t.get? (Row.key a) = some a :=
  (t.get?_some_iff _ _).mpr ⟨h, rfl⟩

/-- A row with the key is the row found under it. -/
theorem eq_of_get? {t : Table α} {k : Row.Key α} {a b : α} (h : t.get? k = some a)
    (hb : b ∈ t.rows) (hk : Row.key b = k) : b = a :=
  List.inj_on_of_nodup_map t.unique hb (get?_mem h) (hk.trans (get?_key h).symm)

/-- A primary key belongs to one row. -/
theorem eq_of_id {t : Table α} {a b : α} (ha : a ∈ t.rows) (hb : b ∈ t.rows)
    (h : Row.id a = Row.id b) : a = b := by
  have hnodup : (t.rows.map Row.id).Nodup :=
    List.pairwise_map.mpr (t.ordered.imp fun hlt => Nat.ne_of_lt hlt)
  exact List.inj_on_of_nodup_map hnodup ha hb h

@[simp] theorem update_rows (t : Table α) (p : α → Bool) (f : α → α) (hid hkey) :
    (t.update p f hid hkey).rows = t.rows.map fun a => if p a then f a else a := rfl

theorem mem_update {t : Table α} {p : α → Bool} {f : α → α} {hid hkey} {b : α} :
    b ∈ (t.update p f hid hkey).rows ↔ ∃ a ∈ t.rows, (if p a then f a else a) = b := by
  simp

/-- An update maps the row found under a key. -/
theorem get?_update (t : Table α) (p : α → Bool) (f : α → α) (hid hkey) (k : Row.Key α) :
    (t.update p f hid hkey).get? k = (t.get? k).map fun a => if p a then f a else a := by
  unfold get?
  rw [update_rows]
  induction t.rows with
  | nil => rfl
  | cons a l ih =>
      have hk : Row.key (if p a then f a else a) = Row.key a := by split <;> simp [hkey]
      by_cases h : Row.key a = k
      · simp [h, hk]
      · simp [h, hk, ih]

theorem get?_delete (t : Table α) (p : α → Bool) (k : Row.Key α) :
    (t.delete p).get? k = (t.get? k).filter fun a => !p a := by
  cases h : t.get? k with
  | none =>
      rw [Option.filter_none, get?, List.find?_eq_none]
      intro a ha
      exact List.find?_eq_none.mp h a (List.mem_of_mem_filter ha)
  | some a =>
      obtain ⟨hmem, hkey⟩ := (t.get?_some_iff k a).mp h
      cases hp : p a with
      | false =>
          rw [Option.filter_some, hp]
          exact (get?_some_iff _ _ _).mpr ⟨List.mem_filter.mpr ⟨hmem, by simp [hp]⟩, hkey⟩
      | true =>
          rw [Option.filter_some, hp]
          refine List.find?_eq_none.mpr fun b hb => ?_
          have hb' := List.mem_filter.mp hb
          intro hkb
          have : b = a := eq_of_get? h hb'.1 (by simpa using hkb)
          simp [this, hp] at hb'

/-- A condition that only rows with one key meet selects at most the row found under it. -/
theorem length_select (t : Table α) {p : α → Bool} {k : Row.Key α}
    (hp : ∀ a, p a = true → Row.key a = k) :
    (t.select p).length = if (t.get? k).any p then 1 else 0 := by
  have hle : (t.select p).length ≤ 1 := by
    have hnodup := t.unique.sublist ((List.filter_sublist (p := p)).map Row.key)
    have hall : (t.select p).map Row.key = List.replicate (t.select p).length k := by
      rw [List.eq_replicate_iff]
      refine ⟨List.length_map .., fun k' hk' => ?_⟩
      obtain ⟨a, ha, rfl⟩ := List.mem_map.mp hk'
      exact hp a (List.mem_filter.mp ha).2
    rw [show t.rows.filter p = t.select p from rfl, hall] at hnodup
    exact List.nodup_replicate.mp hnodup
  split
  · rename_i hany
    obtain ⟨a, ha, hpa⟩ := (Option.any_eq_true ..).mp hany
    have : 0 < (t.select p).length :=
      List.length_pos_of_mem (List.mem_filter.mpr ⟨get?_mem ha, hpa⟩)
    omega
  · rename_i hnone
    rw [List.length_eq_zero_iff, List.eq_nil_iff_forall_not_mem]
    intro a ha
    obtain ⟨hmem, hpa⟩ := List.mem_filter.mp ha
    have hget := get?_of_mem hmem
    rw [hp a hpa] at hget
    exact hnone ((Option.any_eq_true ..).mpr ⟨a, hget, hpa⟩)

theorem insert_of_conflict {t : Table α} {mk : Nat → α} {hid} (h : t.conflicts mk = true) :
    t.insert mk hid = t := by
  rw [insert, dif_pos h]

theorem insert_rows {t : Table α} {mk : Nat → α} {hid} (h : t.conflicts mk = false) :
    (t.insert mk hid).rows = t.rows ++ [mk (t.seq + 1)] := by
  rw [insert, dif_neg (by simp [h])]

/-- When the primary key is the unique key, no insertion conflicts. -/
theorem conflicts_of_key {t : Table α} {mk : Nat → α}
    (hkey : ∀ a ∈ t.rows, Row.key a = Row.key (mk (t.seq + 1)) → Row.id a = t.seq + 1) :
    t.conflicts mk = false := by
  rw [conflicts, List.any_eq_false]
  intro a ha hk
  have hid := hkey a ha (of_decide_eq_true hk)
  have := t.bounded a ha
  omega

/-- Then an insertion always adds its row. -/
theorem insert_rows_of_key {t : Table α} {mk : Nat → α} {hid}
    (hkey : ∀ a ∈ t.rows, Row.key a = Row.key (mk (t.seq + 1)) → Row.id a = t.seq + 1) :
    (t.insert mk hid).rows = t.rows ++ [mk (t.seq + 1)] :=
  insert_rows (conflicts_of_key hkey)

/-- An insertion keeps every row and adds at most the new one. -/
theorem mem_insert {t : Table α} {mk : Nat → α} {hid} {a : α}
    (h : a ∈ (t.insert mk hid).rows) : a ∈ t.rows ∨ a = mk (t.seq + 1) := by
  cases hc : t.conflicts mk with
  | true => rw [insert_of_conflict hc] at h; exact Or.inl h
  | false => simpa [insert_rows hc] using h

theorem mem_insert_of_mem {t : Table α} {mk : Nat → α} {hid} {a : α} (h : a ∈ t.rows) :
    a ∈ (t.insert mk hid).rows := by
  cases hc : t.conflicts mk with
  | true => rw [insert_of_conflict hc]; exact h
  | false => rw [insert_rows hc]; exact List.mem_append_left _ h

/-- What holds of every row and of the one inserted. -/
theorem forall_insert {t : Table α} {mk : Nat → α} {P : α → Prop} (hid)
    (h : ∀ a ∈ t.rows, P a) (hnew : P (mk (t.seq + 1))) :
    ∀ a ∈ (t.insert mk hid).rows, P a := by
  intro a ha
  rcases mem_insert ha with ha | rfl
  · exact h a ha
  · exact hnew

/-- What an update keeps of a row. -/
theorem forall_update {t : Table α} {p : α → Bool} {f : α → α} {P : α → Prop} (hid hkey)
    (h : ∀ a ∈ t.rows, P a) (hf : ∀ a, P a → P (f a)) :
    ∀ a ∈ (t.update p f hid hkey).rows, P a := by
  intro b hb
  obtain ⟨a, ha, rfl⟩ := mem_update.mp hb
  split
  · exact hf a (h a ha)
  · exact h a ha

theorem forall_delete {t : Table α} {p : α → Bool} {P : α → Prop} (h : ∀ a ∈ t.rows, P a) :
    ∀ a ∈ (t.delete p).rows, P a :=
  fun a ha => h a (List.mem_of_mem_filter ha)

/-- A row that is there is still found after an insertion. -/
theorem get?_insert_of_some {t : Table α} {mk : Nat → α} {hid} {k : Row.Key α} {a : α}
    (h : t.get? k = some a) : (t.insert mk hid).get? k = some a := by
  rw [get?_some_iff] at h ⊢
  exact ⟨mem_insert_of_mem h.1, h.2⟩

/-- What an insertion does to the row found under a key. -/
theorem get?_insert {t : Table α} {mk : Nat → α} {hid} {k : Row.Key α} :
    (t.insert mk hid).get? k = t.get? k ∨
      (t.get? k = none ∧ (t.insert mk hid).get? k = some (mk (t.seq + 1)) ∧
        Row.key (mk (t.seq + 1)) = k) := by
  cases hg : t.get? k with
  | some a => exact Or.inl (get?_insert_of_some hg)
  | none =>
      cases hi : (t.insert mk hid).get? k with
      | none => exact Or.inl rfl
      | some b =>
          obtain ⟨hb, hkb⟩ := (get?_some_iff _ _ _).mp hi
          rcases mem_insert hb with hb | hb
          · rw [(t.get?_some_iff k b).mpr ⟨hb, hkb⟩] at hg
            cases hg
          · subst hb
            exact Or.inr ⟨rfl, rfl, hkb⟩

/-- Under a key that is free, no insertion conflicts. -/
theorem conflicts_of_free {t : Table α} {mk : Nat → α}
    (hfree : t.get? (Row.key (mk (t.seq + 1))) = none) : t.conflicts mk = false := by
  rw [conflicts, List.any_eq_false]
  intro a ha heq
  have hfound := get?_of_mem ha
  rw [of_decide_eq_true heq, hfree] at hfound
  cases hfound

/-- Under a key that is free, an insertion puts its row. -/
theorem get?_insert_self {t : Table α} {mk : Nat → α} {hid} {k : Row.Key α}
    (hfree : t.get? k = none) (hkey : ∀ n, Row.key (mk n) = k) :
    (t.insert mk hid).get? k = some (mk (t.seq + 1)) := by
  have hc : t.conflicts mk = false := conflicts_of_free ((hkey _).symm ▸ hfree)
  rw [get?_some_iff, insert_rows hc]
  exact ⟨List.mem_append_right _ (List.mem_singleton_self _), hkey _⟩

/-- An update that selects no row changes nothing. -/
theorem update_eq_self {t : Table α} {p : α → Bool} {f : α → α} {hid hkey}
    (h : ∀ a ∈ t.rows, p a = false) : t.update p f hid hkey = t := by
  refine Table.ext ?_ rfl
  rw [update_rows]
  conv_rhs => rw [← List.map_id t.rows]
  refine List.map_congr_left fun a ha => ?_
  rw [h a ha]
  rfl

/-- An update selects rows as before when it does not change what the condition asks. -/
theorem select_update {t : Table α} {p s : α → Bool} {f : α → α} {hid hkey}
    (h : ∀ a ∈ t.rows, p a = true → s (f a) = s a) :
    (t.update p f hid hkey).select s = (t.select s).map fun a => if p a then f a else a := by
  rw [select, update_rows, select, List.filter_map]
  refine congrArg _ (List.filter_congr fun a ha => ?_)
  rw [Function.comp]
  split
  · exact h a ha ‹_›
  · rfl

end Table

/-! ## The first row of an ordering -/

/-- The row that `ORDER BY … LIMIT 1` returns, where `before` is the strict order of the
clause.  Among rows the order does not separate it is the first. -/
def firstBy {α : Type} (before : α → α → Bool) : List α → Option α
  | [] => none
  | a :: l =>
      match firstBy before l with
      | none => some a
      | some b => if before b a then some b else some a

theorem firstBy_mem {α : Type} {before : α → α → Bool} :
    ∀ {l : List α} {a : α}, firstBy before l = some a → a ∈ l
  | [], _, h => by cases h
  | b :: l, a, h => by
      rw [firstBy] at h
      cases hl : firstBy before l with
      | none =>
          rw [hl] at h
          cases h
          exact List.mem_cons_self ..
      | some c =>
          rw [hl] at h
          simp only at h
          split at h
          · cases h
            exact List.mem_cons_of_mem _ (firstBy_mem hl)
          · cases h
            exact List.mem_cons_self ..

theorem firstBy_eq_none {α : Type} {before : α → α → Bool} :
    ∀ {l : List α}, firstBy before l = none ↔ l = []
  | [] => by simp [firstBy]
  | b :: l => by
      rw [firstBy]
      cases firstBy before l with
      | none => simp
      | some c => simp only; split <;> simp

/-- No row has a smaller key than the first by the key. -/
theorem firstBy_minimal {α κ : Type} [LinearOrder κ] (key : α → κ) {before : α → α → Bool}
    (hbefore : ∀ a b, before a b = true ↔ key a < key b) {l : List α} {a : α}
    (h : firstBy before l = some a) : ∀ b ∈ l, ¬ key b < key a := by
  induction l generalizing a with
  | nil => cases h
  | cons c l ih =>
      rw [firstBy] at h
      cases hl : firstBy before l with
      | none =>
          rw [hl] at h
          cases h
          simp [firstBy_eq_none.mp hl]
      | some d =>
          rw [hl] at h
          simp only [hbefore] at h
          split at h
          · rename_i hlt
            cases h
            simp only [List.mem_cons, forall_eq_or_imp]
            exact ⟨lt_asymm hlt, ih hl⟩
          · rename_i hge
            cases h
            simp only [List.mem_cons, forall_eq_or_imp, lt_irrefl, not_false_eq_true, true_and]
            exact fun b hb hlt => ih hl b hb (lt_of_lt_of_le hlt (not_lt.mp hge))

/-- A row that comes before all others is the first. -/
theorem firstBy_eq_some {α : Type} {before : α → α → Bool} {l : List α} {a : α} (ha : a ∈ l)
    (h : ∀ b ∈ l, b ≠ a → before a b = true ∧ before b a = false) :
    firstBy before l = some a := by
  induction l with
  | nil => cases ha
  | cons b l ih =>
      have hl : ∀ c ∈ l, c ≠ a → before a c = true ∧ before c a = false :=
        fun c hc => h c (List.mem_cons_of_mem _ hc)
      rw [firstBy]
      by_cases hin : a ∈ l
      · rw [ih hin hl]
        by_cases hb : b = a
        · simp only [hb]
          split <;> rfl
        · simp [(h b (List.mem_cons_self ..) hb).1]
      · have hb : b = a := ((List.mem_cons.mp ha).resolve_right hin).symm
        cases hfirst : firstBy before l with
        | none => simp [hb]
        | some c =>
            have hc := firstBy_mem hfirst
            have hne : c ≠ a := fun heq => hin (heq ▸ hc)
            simp [hb, (hl c hc hne).2]

/-- `ORDER BY … DESC LIMIT 1` of increasing rows is the last row. -/
theorem firstBy_desc {α : Type} (f : α → Nat) {l : List α} (h : l.Pairwise fun a b => f a < f b) :
    firstBy (fun a b => decide (f a > f b)) l = l.getLast? := by
  induction l with
  | nil => rfl
  | cons a l ih =>
      obtain ⟨ha, hl⟩ := List.pairwise_cons.mp h
      rw [firstBy, ih hl, List.getLast?_cons]
      cases hlast : l.getLast? with
      | none => rfl
      | some b =>
          have hab := ha b (List.mem_of_getLast? hlast)
          simp [hab]

end Foundations
