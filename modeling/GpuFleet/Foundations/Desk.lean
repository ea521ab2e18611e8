import Mathlib.Data.List.Nodup

/-!
# A desk that hands out items

A desk keeps items under names.  Each has an owner, a rank among the items of
its owner, and a content.  An item is held back or waits, and in the end it is
gone; owner and rank never change, and the content only while it is held back.
A step of the desk may hand one item to its owner: one that waits, with none
of its owner's waiting items before it.

`Desk.Run` lists what is handed out.  No item is handed out twice
(`Run.nodup`), an item is handed out with the content it waited with
(`Run.content`), and not before one of its owner's items of lower rank that
waited (`Run.in_order`).
-/

namespace Foundations

/-! ## Items -/

/-- Where an item is. -/
inductive Place where
  | held
  | waiting
  | gone
  deriving DecidableEq, Repr

/-- The order in which an item comes through the places. -/
def Place.stage : Place → Nat
  | held => 0
  | waiting => 1
  | gone => 2

variable {ι ω ρ γ : Type}

/-- An item on the desk. -/
structure Item (ω ρ γ : Type) where
  owner : ω
  rank : ρ
  content : γ
  place : Place

/-- What is handed out: an item by its name, with its content. -/
structure Hand (ι ω γ : Type) where
  receiver : ω
  name : ι
  content : γ

/-- What may become of an item. -/
structure Item.Moves (t u : Item ω ρ γ) : Prop where
  owner : u.owner = t.owner
  rank : u.rank = t.rank
  onward : t.place.stage ≤ u.place.stage
  kept : t.place ≠ .held → u.content = t.content

namespace Item.Moves

theorem refl (t : Item ω ρ γ) : t.Moves t := ⟨rfl, rfl, Nat.le_refl _, fun _ => rfl⟩

theorem not_held {t u : Item ω ρ γ} (h : t.Moves u) (ht : t.place ≠ .held) : u.place ≠ .held := by
  intro hu
  have honward := h.onward
  rw [hu] at honward
  cases hplace : t.place with
  | held => exact ht hplace
  | waiting => rw [hplace] at honward; cases honward
  | gone => rw [hplace] at honward; cases honward

theorem trans {t u v : Item ω ρ γ} (h : t.Moves u) (h' : u.Moves v) : t.Moves v where
  owner := h'.owner.trans h.owner
  rank := h'.rank.trans h.rank
  onward := Nat.le_trans h.onward h'.onward
  kept ht := (h'.kept (h.not_held ht)).trans (h.kept ht)

/-- Every item may go. -/
theorem of_gone {t u : Item ω ρ γ} (howner : u.owner = t.owner) (hrank : u.rank = t.rank)
    (hcontent : u.content = t.content) (hu : u.place = .gone) : t.Moves u := by
  refine ⟨howner, hrank, ?_, fun _ => hcontent⟩
  rw [hu]
  cases t.place <;> simp [Place.stage]

/-- What is gone stays gone. -/
theorem gone {t u : Item ω ρ γ} (h : t.Moves u) (ht : t.place = .gone) : u.place = .gone := by
  have honward := h.onward
  rw [ht] at honward
  cases hplace : u.place with
  | held => rw [hplace] at honward; cases honward
  | waiting => rw [hplace] at honward; simp [Place.stage] at honward
  | gone => rfl

end Item.Moves

/-! ## Desks -/

/-- What is on the desk under each name. -/
abbrev Desk (ι ω ρ γ : Type) : Type := ι → Option (Item ω ρ γ)

namespace Desk

/-- No item is lost, and each moves as it may. -/
def Moves (d e : Desk ι ω ρ γ) : Prop := ∀ i t, d i = some t → ∃ u, e i = some u ∧ t.Moves u

theorem Moves.refl (d : Desk ι ω ρ γ) : d.Moves d := fun _ t ht => ⟨t, ht, .refl t⟩

theorem Moves.trans {d e f : Desk ι ω ρ γ} (h : d.Moves e) (h' : e.Moves f) : d.Moves f := by
  intro i t ht
  obtain ⟨u, hu, htu⟩ := h i t ht
  obtain ⟨v, hv, huv⟩ := h' i u hu
  exact ⟨v, hv, htu.trans huv⟩

section Handing

variable [LT ρ]

/-- The item is handed to its owner with its content: it waited, none of its owner's waiting
items came before it, and it is gone. -/
structure Handed (d : Desk ι ω ρ γ) (x : Hand ι ω γ) (e : Desk ι ω ρ γ) : Prop where
  waited : ∃ t, d x.name = some t ∧ t.place = .waiting ∧ t.owner = x.receiver ∧ t.content = x.content ∧
    ∀ j u, d j = some u → u.place = .waiting → u.owner = x.receiver → ¬ u.rank < t.rank
  gone : ∃ u, e x.name = some u ∧ u.place = .gone

/-- A run of the desk, with what it hands out. -/
inductive Run : Desk ι ω ρ γ → List (Hand ι ω γ) → Desk ι ω ρ γ → Prop
  | nil (d) : Run d [] d
  | quiet {d e f out} : d.Moves e → Run e out f → Run d out f
  | hand {d e f x out} : d.Moves e → d.Handed x e → Run e out f → Run d (x :: out) f

namespace Run

variable {d e f : Desk ι ω ρ γ} {out out' : List (Hand ι ω γ)}

theorem of_moves (h : d.Moves e) : Run d [] e := .quiet h (.nil e)

theorem of_handed {x : Hand ι ω γ} (h : d.Moves e) (hx : d.Handed x e) : Run d [x] e :=
  .hand h hx (.nil e)

theorem moves (h : Run d out e) : d.Moves e := by
  induction h with
  | nil d => exact .refl d
  | quiet hmoves _ ih => exact hmoves.trans ih
  | hand hmoves _ _ ih => exact hmoves.trans ih

theorem append (h : Run d out e) (h' : Run e out' f) : Run d (out ++ out') f := by
  induction h with
  | nil => exact h'
  | quiet hmoves _ ih => exact .quiet hmoves (ih h')
  | hand hmoves hhanded _ ih => exact .hand hmoves hhanded (ih h')

/-- What is gone is not handed out. -/
theorem not_gone (h : Run d out e) {x : Hand ι ω γ} (hx : x ∈ out) {t : Item ω ρ γ}
    (ht : d x.name = some t) : t.place ≠ .gone := by
  induction h generalizing t with
  | nil => cases hx
  | quiet hmoves _ ih =>
      obtain ⟨u, hu, htu⟩ := hmoves x.name t ht
      exact fun hgone => ih hx hu (htu.gone hgone)
  | hand hmoves hhanded _ ih =>
      obtain ⟨u, hu, htu⟩ := hmoves x.name t ht
      rcases List.mem_cons.mp hx with rfl | hx
      · obtain ⟨t', ht', hwaiting, -⟩ := hhanded.waited
        rw [ht] at ht'
        cases ht'
        simp [hwaiting]
      · exact fun hgone => ih hx hu (htu.gone hgone)

/-- No item is handed out twice. -/
theorem nodup (h : Run d out e) : (out.map Hand.name).Nodup := by
  induction h with
  | nil => exact List.nodup_nil
  | quiet _ _ ih => exact ih
  | hand _ hhanded hrest ih =>
      obtain ⟨u, hu, hgone⟩ := hhanded.gone
      refine List.nodup_cons.mpr ⟨fun hmem => ?_, ih⟩
      obtain ⟨y, hy, heq⟩ := List.mem_map.mp hmem
      exact hrest.not_gone hy (heq ▸ hu) hgone

/-- An item that is no longer held back is handed out with the content it has. -/
theorem content (h : Run d out e) {x : Hand ι ω γ} (hx : x ∈ out) {t : Item ω ρ γ}
    (ht : d x.name = some t) (hheld : t.place ≠ .held) : x.content = t.content := by
  induction h generalizing t with
  | nil => cases hx
  | quiet hmoves _ ih =>
      obtain ⟨u, hu, htu⟩ := hmoves x.name t ht
      exact (ih hx hu (htu.not_held hheld)).trans (htu.kept hheld)
  | hand hmoves hhanded _ ih =>
      obtain ⟨u, hu, htu⟩ := hmoves x.name t ht
      rcases List.mem_cons.mp hx with rfl | hx
      · obtain ⟨t', ht', -, -, hcontent, -⟩ := hhanded.waited
        rw [ht] at ht'
        cases ht'
        exact hcontent.symm
      · exact (ih hx hu (htu.not_held hheld)).trans (htu.kept hheld)

/-- An item is handed to its owner. -/
theorem owner (h : Run d out e) {x : Hand ι ω γ} (hx : x ∈ out) {t : Item ω ρ γ}
    (ht : d x.name = some t) : x.receiver = t.owner := by
  induction h generalizing t with
  | nil => cases hx
  | quiet hmoves _ ih =>
      obtain ⟨u, hu, htu⟩ := hmoves x.name t ht
      exact (ih hx hu).trans htu.owner
  | hand hmoves hhanded _ ih =>
      obtain ⟨u, hu, htu⟩ := hmoves x.name t ht
      rcases List.mem_cons.mp hx with rfl | hx
      · obtain ⟨t', ht', -, hto, -⟩ := hhanded.waited
        rw [ht] at ht'
        cases ht'
        exact hto.symm
      · exact (ih hx hu).trans htu.owner

/-- After an item is handed out, none of its owner's items of lower rank is that was not held
back, and it is gone at the end. -/
theorem in_order {x : Hand ι ω γ} {l l' : List (Hand ι ω γ)} (h : Run d (l ++ x :: l') e) {i : ι}
    {t u : Item ω ρ γ} (ht : d i = some t) (hu : d x.name = some u) (howner : t.owner = u.owner)
    (hrank : t.rank < u.rank) (hheld : t.place ≠ .held) :
    i ∉ l'.map Hand.name ∧ ∃ t', e i = some t' ∧ t'.place = .gone := by
  generalize hout : l ++ x :: l' = out at h
  induction h generalizing l t u with
  | nil => simp at hout
  | quiet hmoves _ ih =>
      obtain ⟨t', ht', htt'⟩ := hmoves i t ht
      obtain ⟨u', hu', huu'⟩ := hmoves x.name u hu
      exact ih ht' hu' (by rw [htt'.owner, huu'.owner, howner])
        (by rw [htt'.rank, huu'.rank]; exact hrank) (htt'.not_held hheld) hout
  | @hand d e f y out hmoves hhanded hrest ih =>
      obtain ⟨t', ht', htt'⟩ := hmoves i t ht
      obtain ⟨u', hu', huu'⟩ := hmoves x.name u hu
      cases l with
      | cons z l =>
          obtain ⟨-, hout⟩ := List.cons.inj hout
          exact ih ht' hu' (by rw [htt'.owner, huu'.owner, howner])
            (by rw [htt'.rank, huu'.rank]; exact hrank) (htt'.not_held hheld) hout
      | nil =>
          obtain ⟨rfl, rfl⟩ := List.cons.inj hout
          -- The later item is handed out now, so the earlier one does not wait.
          obtain ⟨v, hv, -, hto, -, hfirst⟩ := hhanded.waited
          rw [hu] at hv
          cases hv
          have hgone : t.place = .gone := by
            cases hplace : t.place with
            | held => exact absurd hplace hheld
            | waiting => exact absurd hrank (hfirst i t ht hplace (howner.trans hto))
            | gone => rfl
          have hgone' := htt'.gone hgone
          obtain ⟨v, hv, htv⟩ := hrest.moves i t' ht'
          refine ⟨fun hmem => ?_, v, hv, htv.gone hgone'⟩
          obtain ⟨y, hy, rfl⟩ := List.mem_map.mp hmem
          exact hrest.not_gone hy ht' hgone'

end Run

end Handing

end Desk

end Foundations
