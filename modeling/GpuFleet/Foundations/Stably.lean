import GpuFleet.Foundations.Triple
import GpuFleet.Foundations.Sessions

/-!
# Statements that stay permitted

Between two statements of a session the others may change the database it sees.
`Prog.Stably R P post` says that a program executes only statements `P` permits,
as long as these changes stand in the relation `R`: what it has read may no
longer be there, but what `R` keeps is.

When every statement that is permitted stands in `R` itself, the programs of all
sessions keep each other's promise, and in every run each statement is permitted
in the database it is executed on (`Conf.permits`).
-/

namespace Foundations

namespace Prog

variable {Q σ φ ε ε' α β : Type} [Statement Q σ]

/-- Every statement of the program is permitted, however the database moves before it. -/
def Stably (R : σ → σ → Prop) (P : Q → σ → Prop) (post : α → σ → Prop) :
    Prog Q σ φ ε α → σ → Prop
  | ret a, w => post a w
  | raise _, _ => True
  | select k, w => ∀ w', R w w' → (k w').Stably R P post w'
  | write q k, w => ∀ w', R w w' → P q w' ∧ (k w').Stably R P post (Statement.apply q w')
  | io _ k, w => ∀ x, (k x).Stably R P post w
  | commit k, w => k.Stably R P post w

variable {R : σ → σ → Prop} {P : Q → σ → Prop} {w w' : σ}

@[simp] theorem stably_ret {post : α → σ → Prop} (a : α) :
    (ret a : Prog Q σ φ ε α).Stably R P post w = post a w := rfl

@[simp] theorem stably_raise {post : α → σ → Prop} (e : ε) :
    (raise e : Prog Q σ φ ε α).Stably R P post w = True := rfl

theorem Stably.bind {post : α → σ → Prop} {post' : β → σ → Prop} {p : Prog Q σ φ ε α}
    {g : α → Prog Q σ φ ε β} (hp : p.Stably R P post w)
    (hg : ∀ a w', post a w' → (g a).Stably R P post' w') : (p >>= g).Stably R P post' w := by
  induction p generalizing w with
  | ret a => exact hg a w hp
  | raise e => trivial
  | select k ih => exact fun w' hR => ih w' (hp w' hR)
  | write q k ih => exact fun w' hR => ⟨(hp w' hR).1, ih w' (hp w' hR).2⟩
  | io f k ih => exact fun x => ih x (hp x)
  | commit k ih => exact ih hp

theorem Stably.mono {post post' : α → σ → Prop} {p : Prog Q σ φ ε α} (hp : p.Stably R P post w)
    (h : ∀ a w', post a w' → post' a w') : p.Stably R P post' w := by
  induction p generalizing w with
  | ret a => exact h a w hp
  | raise e => trivial
  | select k ih => exact fun w' hR => ih w' (hp w' hR)
  | write q k ih => exact fun w' hR => ⟨(hp w' hR).1, ih w' (hp w' hR).2⟩
  | io f k ih => exact fun x => ih x (hp x)
  | commit k ih => exact ih hp

/-- A handler that raises again. -/
theorem Stably.tryCatch {post : α → σ → Prop} {p : Prog Q σ φ ε α} {h : ε → Prog Q σ φ ε' α}
    (hp : p.Stably R P post w) (hh : ∀ e w', (h e).Stably R P post w') :
    (p.tryCatch h).Stably R P post w := by
  induction p generalizing w with
  | ret a => exact hp
  | raise e => exact hh e w
  | select k ih => exact fun w' hR => ih w' (hp w' hR)
  | write q k ih => exact fun w' hR => ⟨(hp w' hR).1, ih w' (hp w' hR).2⟩
  | io f k ih => exact fun x => ih x (hp x)
  | commit k ih => exact ih hp

/-- A program that executes no statement of a kind, when all others are permitted wherever a
fact holds that `R` keeps. -/
theorem Avoids.stably {F : σ → Prop} {bad : Q → Prop} {post : α → Prop} {p : Prog Q σ φ ε α}
    (hp : p.Avoids (fun _ => True) bad post) (hmoved : ∀ w w', R w w' → F w → F w')
    (hP : ∀ q w, ¬ bad q → F w → P q w ∧ R w (Statement.apply q w)) (hw : F w) :
    p.Stably R P (fun a w' => post a ∧ F w') w := by
  induction p generalizing w with
  | ret a => exact ⟨hp, hw⟩
  | raise e => trivial
  | select k ih => exact fun w' hR => ih w' (hp w' trivial) (hmoved w w' hR hw)
  | write q k ih =>
      intro w' hR
      have hw' := hmoved w w' hR hw
      obtain ⟨hq, happly⟩ := hP q w' hp.1 hw'
      exact ⟨hq, ih w' (hp.2 w' trivial) (hmoved _ _ happly hw')⟩
  | io f k ih => exact fun x => ih x (hp x) hw
  | commit k ih => exact ih hp hw

/-- The database moves before the program goes on. -/
theorem Stably.moved (trans : ∀ {s t u}, R s t → R t u → R s u) {post : α → σ → Prop}
    {p : Prog Q σ φ ε α} (hp : p.Stably R P post w) (hR : R w w')
    (hpost : ∀ a, post a w → post a w') : p.Stably R P post w' := by
  induction p with
  | ret a => exact hpost a hp
  | raise e => trivial
  | select k _ => exact fun w'' hR' => hp w'' (trans hR hR')
  | write q k _ => exact fun w'' hR' => hp w'' (trans hR hR')
  | io f k ih => exact fun x => ih x (hp x)
  | commit k ih => exact ih hp

/-- Alone, the program executes permitted statements. -/
theorem Stably.wp (refl : ∀ s, R s s) {post : α → σ → Prop} {p : Prog Q σ φ ε α}
    (hp : p.Stably R P post w) : p.wp P (fun _ _ => True) post w := by
  induction p generalizing w with
  | ret a => exact hp
  | raise e => trivial
  | select k ih => exact ih w (hp w (refl w))
  | write q k ih => exact ⟨(hp w (refl w)).1, ih w (hp w (refl w)).2⟩
  | io f k ih => exact fun x => ih x (hp x)
  | commit k ih => exact ih hp

end Prog

namespace Conf

variable {τ Q σ φ ε α : Type} [Statement Q σ] {R : σ → σ → Prop} {P : Q → σ → Prop}
  {code : τ → Prog Q σ φ ε α} {c c' : Conf τ Q σ φ ε α} {a : Act τ ε}

variable (R P) in
/-- What is left of each session's program executes permitted statements. -/
structure Permitting (c : Conf τ Q σ φ ε α) : Prop where
  exclusive : c.Exclusive
  coherent : c.Coherent R
  stably : ∀ (i : Nat) s, c.sessions[i]? = some s → s.done = none →
    s.prog.Stably R P (fun _ _ => True) (s.view c.db)

theorem permitting_init (db : σ) (x : φ) :
    Permitting R P (init db x : Conf τ Q σ φ ε α) where
  exclusive := exclusive_init db x
  coherent := coherent_init R db x
  stably := by
    intro i s hs
    simp [init] at hs

/-- The statement a session is about to execute is permitted. -/
theorem Permitting.about (refl : ∀ s, R s s) (hc : Permitting R P c) {q : Q}
    {s : Session τ Q σ φ ε α} (h : c.about a = some (q, s)) : P q (s.view c.db) := by
  obtain ⟨i, k, -, hs, hd, hp⟩ := about_some h
  have hstably := hc.stably i s hs hd
  rw [hp] at hstably
  exact (hstably _ (refl _)).1

/-- The step. -/
theorem Permitting.step (refl : ∀ s, R s s) (trans : ∀ {s t u}, R s t → R t u → R s u)
    (hP : ∀ q w, P q w → R w (Statement.apply q w))
    (hcode : ∀ t w, (code t).Stably R P (fun _ _ => True) w) (hc : Permitting R P c)
    (h : c.step code a = some c') : Permitting R P c' := by
  have hcoherent := hc.coherent.step code refl trans hc.exclusive h
    fun q s hq => hP q _ (hc.about refl hq)
  refine ⟨hc.exclusive.step code h, hcoherent.1, ?_⟩
  refine forall_sessions_step code
    (J := fun db s => s.done = none → s.prog.Stably R P (fun _ _ => True) (s.view db))
    h hc.stably (fun t _ => hcode t _) ?_ ?_
  · intro i s db x s' _ hs hd hm hd'
    have hp := hc.stably i s hs hd
    cases hm with
    | ret _ | raise _ | fail => simp [Session.finish] at hd'
    | select hk =>
        rw [hk] at hp
        exact hp _ (refl _)
    | write hk _ =>
        rw [hk] at hp
        exact (hp _ (refl _)).2
    | io hk =>
        rw [hk] at hp
        exact hp _
    | commit hk =>
        rw [hk] at hp
        exact hp
  · intro i s db x s' j t hs hm hji ht hd
    have hp := hc.stably j t ht hd
    rcases hc.exclusive.view_other hs hm hji ht with rfl | ⟨ho, rfl⟩
    · exact hp
    · -- The other session has committed, and this one reads what is committed.
      rw [Session.view_of_own_none ho] at hp ⊢
      have hR : R c.db (s.view c.db) := hc.coherent.own i s hs
      exact @Prog.Stably.moved Q σ φ ε α _ R P _ _ trans _ _ hp hR fun _ h => h

/-- In every run each statement is permitted in the database it is executed on. -/
theorem permits (refl : ∀ s, R s s) (trans : ∀ {s t u}, R s t → R t u → R s u)
    (hP : ∀ q w, P q w → R w (Statement.apply q w))
    (hcode : ∀ t w, (code t).Stably R P (fun _ _ => True) w) {db : σ} {x : φ}
    {as : List (Act τ ε)} (h : (init db x).run code as = some c) : Permitting R P c :=
  run_induction code (I := Permitting R P)
    (fun _ _ _ hc h => hc.step refl trans hP hcode h) h (permitting_init db x)

end Conf

end Foundations
