import GpuFleet.Foundations.Sessions

/-!
# Rely and guarantee

As long as a session has not written, other sessions may move the committed
database between any two of its statements.  `Prog.Rely R E mid post` says what
a program does when these moves stand in the relation `R`: its effects stand in
`E`, what it commits before its end stands in `mid` to what it found committed,
and `post` holds where it returns.  Once the session holds the lock nothing
moves under it.

`Session.Relies` is this promise of a session for what is left of its program.
An action keeps the promise of every session it moves the database for in `R`
(`Conf.relies_step`), and the action of a session does what the session promised
(`Conf.Move.guarantee`).
-/

namespace Foundations

namespace Prog

variable {Q σ φ ε α β : Type} [Statement Q σ]

/-- What a program does from a committed database and a working copy, if it has one. -/
def Rely (R : σ → σ → Prop) (E : φ → φ → Prop) (mid : σ → σ → Prop)
    (post : α → σ → Option σ → Prop) : Prog Q σ φ ε α → σ → Option σ → Prop
  | ret a, db, own => post a db own
  | raise _, _, _ => True
  | select k, db, none => ∀ db', R db db' → (k db').Rely R E mid post db' none
  | select k, db, some w => (k w).Rely R E mid post db (some w)
  | write q k, db, none =>
      ∀ db', R db db' → (k db').Rely R E mid post db' (some (Statement.apply q db'))
  | write q k, db, some w => (k w).Rely R E mid post db (some (Statement.apply q w))
  | io f k, db, own => (∀ x, E x (f x)) ∧ ∀ x, (k x).Rely R E mid post db own
  | commit k, db, none => (∀ db', R db db' → mid db' db') ∧ k.Rely R E mid post db none
  | commit k, db, some w => mid db w ∧ k.Rely R E mid post w none

/-- The last commit of a program that returns. -/
def Returns (R : σ → σ → Prop) (C : Option α → σ → σ → Prop) (a : α) (db : σ) :
    Option σ → Prop
  | none => ∀ db', R db db' → C (some a) db' db'
  | some w => C (some a) db w

variable {R : σ → σ → Prop} {E : φ → φ → Prop} {mid : σ → σ → Prop}

@[simp] theorem rely_ret {post : α → σ → Option σ → Prop} {a : α} {db : σ} {own : Option σ} :
    (ret a : Prog Q σ φ ε α).Rely R E mid post db own = post a db own := rfl

@[simp] theorem rely_select_some {post : α → σ → Option σ → Prop} {k : σ → Prog Q σ φ ε α}
    {db w : σ} :
    (select k).Rely R E mid post db (some w) = (k w).Rely R E mid post db (some w) := rfl

@[simp] theorem rely_write_some {post : α → σ → Option σ → Prop} {q : Q} {k : σ → Prog Q σ φ ε α}
    {db w : σ} :
    (write q k).Rely R E mid post db (some w) =
      (k w).Rely R E mid post db (some (Statement.apply q w)) := rfl

omit [Statement Q σ] in
@[simp] theorem returns_some {C : Option α → σ → σ → Prop} {a : α} {db w : σ} :
    Returns R C a db (some w) = C (some a) db w := rfl

theorem rely_bind {post : β → σ → Option σ → Prop} {p : Prog Q σ φ ε α} {g : α → Prog Q σ φ ε β}
    {db : σ} {own : Option σ}
    (h : p.Rely R E mid (fun a db own => (g a).Rely R E mid post db own) db own) :
    (p >>= g).Rely R E mid post db own := by
  induction p generalizing db own with
  | ret a => exact h
  | raise e => trivial
  | select k ih =>
      cases own with
      | none => exact fun db' hR => ih db' (h db' hR)
      | some w => exact ih w h
  | write q k ih =>
      cases own with
      | none => exact fun db' hR => ih db' (h db' hR)
      | some w => exact ih w h
  | io f k ih => exact ⟨h.1, fun x => ih x (h.2 x)⟩
  | commit k ih =>
      cases own with
      | none => exact ⟨h.1, ih h.2⟩
      | some w => exact ⟨h.1, ih h.2⟩

/-- A program that holds no lock may go on after the database moved. -/
theorem Rely.moved (trans : ∀ {s t u}, R s t → R t u → R s u) {post : α → σ → Option σ → Prop}
    (hpost : ∀ a db db', R db db' → post a db none → post a db' none) {p : Prog Q σ φ ε α}
    {db db' : σ} (hR : R db db') (h : p.Rely R E mid post db none) :
    p.Rely R E mid post db' none := by
  induction p with
  | ret a => exact hpost a db db' hR h
  | raise e => trivial
  | select k => exact fun db'' hR' => h db'' (trans hR hR')
  | write q k => exact fun db'' hR' => h db'' (trans hR hR')
  | io f k ih => exact ⟨h.1, fun x => ih x (h.2 x)⟩
  | commit k ih => exact ⟨fun db'' hR' => h.1 db'' (trans hR hR'), ih h.2⟩

end Prog

variable {τ Q σ φ ε α : Type} [Statement Q σ]

/-- What is left of a live session's program does what the operation promises. -/
def Session.Relies (R : σ → σ → Prop) (E : φ → φ → Prop) (C : Option α → σ → σ → Prop) (db : σ)
    (s : Session τ Q σ φ ε α) : Prop :=
  s.done = none → s.prog.Rely R E (C none) (Prog.Returns R C) db s.own

namespace Conf

variable {R : σ → σ → Prop} {E : φ → φ → Prop} {C : Option α → σ → σ → Prop}
variable {c c' : Conf τ Q σ φ ε α}

/-- A session keeps its promise when it moves. -/
theorem Move.relies {i : Nat} {s s' : Session τ Q σ φ ε α} {db : σ} {x : φ}
    (hm : Move c i s db x s') (hself : R c.db c.db) (hd : s.done = none)
    (h : s.Relies R E C c.db) : s'.Relies R E C db := by
  have hp := h hd
  intro hd'
  cases hm with
  | ret _ => cases hd'
  | raise _ => cases hd'
  | select hk =>
      rw [hk] at hp
      cases ho : s.own with
      | none =>
          rw [ho] at hp
          simpa [Session.view, ho] using hp c.db hself
      | some w =>
          rw [ho] at hp
          simpa [Session.view, ho] using hp
  | write hk _ =>
      rw [hk] at hp
      cases ho : s.own with
      | none =>
          rw [ho] at hp
          simpa [Session.view, ho] using hp c.db hself
      | some w =>
          rw [ho] at hp
          simpa [Session.view, ho] using hp
  | io hk =>
      rw [hk] at hp
      exact hp.2 c.outside
  | commit hk =>
      rw [hk] at hp
      cases ho : s.own with
      | none =>
          rw [ho] at hp
          simpa [Session.view, ho] using hp.2
      | some w =>
          rw [ho] at hp
          simpa [Session.view, ho] using hp.2
  | fail => cases hd'

/-- What a move commits, and how it acts outside the database, is what the session promised. -/
theorem Move.guarantee {i : Nat} {s s' : Session τ Q σ φ ε α} {db : σ} {x : φ}
    (hm : Move c i s db x s') (hself : R c.db c.db) (hd : s.done = none)
    (h : s.Relies R E C c.db) :
    (db = c.db ∨ ∃ r, C r c.db db) ∧ (x = c.outside ∨ E c.outside x) ∧
      ∀ a, s'.done = some (.ok a) → C (some a) c.db db := by
  have hp := h hd
  have goes_on : ∀ a, s.done ≠ some (.ok a) := by
    intro a ha
    rw [hd] at ha
    cases ha
  cases hm with
  | @ret a hk =>
      have hC : C (some a) c.db (s.view c.db) := by
        rw [hk] at hp
        cases ho : s.own with
        | none =>
            rw [ho] at hp
            simpa [Session.view, ho] using hp c.db hself
        | some w =>
            rw [ho] at hp
            simpa [Session.view, ho] using hp
      refine ⟨Or.inr ⟨_, hC⟩, Or.inl rfl, fun b hb => ?_⟩
      cases hb
      exact hC
  | raise _ => exact ⟨Or.inl rfl, Or.inl rfl, fun a ha => by cases ha⟩
  | select _ => exact ⟨Or.inl rfl, Or.inl rfl, fun a ha => absurd ha (goes_on a)⟩
  | write _ _ => exact ⟨Or.inl rfl, Or.inl rfl, fun a ha => absurd ha (goes_on a)⟩
  | io hk =>
      rw [hk] at hp
      exact ⟨Or.inl rfl, Or.inr (hp.1 _), fun a ha => absurd ha (goes_on a)⟩
  | commit hk =>
      refine ⟨Or.inr ⟨none, ?_⟩, Or.inl rfl, fun a ha => absurd ha (goes_on a)⟩
      rw [hk] at hp
      cases ho : s.own with
      | none =>
          rw [ho] at hp
          simpa [Session.view, ho] using hp.1 c.db hself
      | some w =>
          rw [ho] at hp
          simpa [Session.view, ho] using hp.1
  | fail => exact ⟨Or.inl rfl, Or.inl rfl, fun a ha => by cases ha⟩

/-- An action that moves the database in the relation a session relies on keeps the promise of the
session, and the session returns only as it promised. -/
theorem relies_step {code : τ → Prog Q σ φ ε α} {a : Act τ ε}
    (trans : ∀ {s t u}, R s t → R t u → R s u) (hx : c.Exclusive)
    (h : c.step code a = some c') (hself : R c.db c.db) (hR : R c.db c'.db) {j : Nat}
    {s : Session τ Q σ φ ε α} (hs : c.sessions[j]? = some s) (hrel : s.Relies R E C c.db) :
    ∃ s', c'.sessions[j]? = some s' ∧ s'.tag = s.tag ∧ s'.Relies R E C c'.db ∧
      ∀ r, s'.done = some (.ok r) → s.done = some (.ok r) ∨ C (some r) c.db c'.db := by
  rcases step_cases code h with ⟨t, rfl, rfl⟩ | ⟨i, t, db, x, t', _, ht, hd, hm, rfl⟩
  · have hj : j < c.sessions.length := (List.getElem?_eq_some_iff.mp hs).1
    refine ⟨s, ?_, rfl, hrel, fun r hr => Or.inl hr⟩
    show (c.sessions ++ _)[j]? = _
    rw [List.getElem?_append_left hj, hs]
  · by_cases hji : j = i
    · subst hji
      rw [hs] at ht
      cases ht
      have hj : j < c.sessions.length := (List.getElem?_eq_some_iff.mp hs).1
      exact ⟨t', by simp [hj], hm.tag_eq, hm.relies hself hd hrel,
        fun r hr => Or.inr ((hm.guarantee hself hd hrel).2.2 r hr)⟩
    · refine ⟨s, ?_, rfl, fun hd' => ?_, fun r hr => Or.inl hr⟩
      · rw [List.getElem?_set_ne fun e => hji e.symm, hs]
      · rcases hx.view_other ht hm hji hs with hdb | ⟨ho, -⟩
        · rw [hdb]
          exact hrel hd'
        · have hp := hrel hd'
          rw [ho] at hp ⊢
          refine Prog.Rely.moved (R := R) trans (fun a db db' hR hC => ?_) hR hp
          exact fun db'' hR' => hC db'' (trans hR hR')

end Conf

end Foundations
