import GpuFleet.Foundations.Sessions

/-!
# What only one session can take

Something that is taken stays taken, and a statement takes it only while it is
free.  A program returns a winning result only after a statement of it took the
thing (`Prog.Unless`).

Then at most one of any number of sessions returns a winning result, however
their statements interleave and whichever of them fail
(`Conf.wins_at_most_once`).  What a session took in its working copy is free
again when the session fails.
-/

namespace Foundations

variable {τ Q σ φ ε ε' α β : Type}

namespace Prog

variable {takes : Q → σ → Prop} {post : α → Prop}

/-- Unless a statement of the program takes something, its result satisfies `post`, whatever it
reads. -/
def Unless (takes : Q → σ → Prop) (post : α → Prop) : Prog Q σ φ ε α → Prop
  | ret a => post a
  | raise _ => True
  | select k => ∀ w, (k w).Unless takes post
  | write q k => ∀ w, ¬ takes q w → (k w).Unless takes post
  | io _ k => ∀ x, (k x).Unless takes post
  | commit k => k.Unless takes post

theorem Unless.bind {post' : β → Prop} {p : Prog Q σ φ ε α} {g : α → Prog Q σ φ ε β}
    (hp : p.Unless takes post) (hg : ∀ a, post a → (g a).Unless takes post') :
    (p >>= g).Unless takes post' := by
  induction p with
  | ret a => exact hg a hp
  | raise e => trivial
  | select k ih => exact fun w => ih w (hp w)
  | write q k ih => exact fun w hq => ih w (hp w hq)
  | io f k ih => exact fun x => ih x (hp x)
  | commit k ih => exact ih hp

theorem Unless.tryCatch {p : Prog Q σ φ ε α} {h : ε → Prog Q σ φ ε' α}
    (hp : p.Unless takes post) (hh : ∀ e, (h e).Unless takes post) :
    (p.tryCatch h).Unless takes post := by
  induction p with
  | ret a => exact hp
  | raise e => exact hh e
  | select k ih => exact fun w => ih w (hp w)
  | write q k ih => exact fun w hq => ih w (hp w hq)
  | io f k ih => exact fun x => ih x (hp x)
  | commit k ih => exact ih hp

theorem Unless.mono {post' : α → Prop} {p : Prog Q σ φ ε α} (hp : p.Unless takes post)
    (h : ∀ a, post a → post' a) : p.Unless takes post' := by
  induction p with
  | ret a => exact h a hp
  | raise e => trivial
  | select k ih => exact fun w => ih w (hp w)
  | write q k ih => exact fun w hq => ih w (hp w hq)
  | io f k ih => exact fun x => ih x (hp x)
  | commit k ih => exact ih hp

/-- A result of which every program is allowed. -/
theorem unless_of_forall (p : Prog Q σ φ ε α) (h : ∀ a, post a) : p.Unless takes post := by
  induction p with
  | ret a => exact h a
  | raise e => trivial
  | select k ih => exact ih
  | write q k ih => exact fun w _ => ih w
  | io f k ih => exact ih
  | commit k ih => exact ih

/-- A program of whose result nothing is asked, and another after it. -/
theorem Unless.after {post' : β → Prop} {p : Prog Q σ φ ε α} {g : α → Prog Q σ φ ε β}
    (hg : ∀ a, (g a).Unless takes post') : (p >>= g).Unless takes post' := by
  have hp : p.Unless takes fun _ => True := unless_of_forall p fun _ => trivial
  exact hp.bind fun a _ => hg a

@[simp] theorem unless_ret (a : α) :
    (ret a : Prog Q σ φ ε α).Unless takes post = post a := rfl

@[simp] theorem unless_raise (e : ε) :
    (raise e : Prog Q σ φ ε α).Unless takes post = True := rfl

@[simp] theorem unless_executeReturning (q : Q) (f : σ → α) :
    (executeReturning q f : Prog Q σ φ ε α).Unless takes post =
      ∀ w, ¬ takes q w → post (f w) := rfl

end Prog

/-! ## Sessions -/

/-- The session has a winning result, or can still return one without taking anything. -/
def Session.Winning (takes : Q → σ → Prop) (won : α → Prop) (s : Session τ Q σ φ ε α) : Prop :=
  match s.done with
  | none => ¬ s.prog.Unless takes fun a => ¬ won a
  | some (.ok a) => won a
  | some (.error _) => False

namespace Session

variable {takes : Q → σ → Prop} {won : α → Prop} {s : Session τ Q σ φ ε α}

theorem winning_live (h : s.done = none) :
    s.Winning takes won ↔ ¬ s.prog.Unless takes fun a => ¬ won a := by
  simp [Winning, h]

theorem winning_ok {a : α} (h : s.done = some (.ok a)) : s.Winning takes won ↔ won a := by
  simp [Winning, h]

@[simp] theorem not_winning_error (e : ε) : ¬ (s.finish (.error e)).Winning takes won := by
  simp [Winning, finish]

end Session

namespace Conf

variable [Statement Q σ] {taken : σ → Prop} {takes : Q → σ → Prop} {won : α → Prop}
variable {bad : Q → Prop} {code : τ → Prog Q σ φ ε α}

/-- A session wins by its move only if it was winning before and sees what it saw, or if it
executes a statement, and then it was winning before or the statement takes. -/
theorem Move.winning {c : Conf τ Q σ φ ε α} {i : Nat} {s s' : Session τ Q σ φ ε α} {db : σ} {x : φ}
    (hm : Move c i s db x s') (hd : s.done = none) (h : s'.Winning takes won) :
    (s.Winning takes won ∧ s'.view db = s.view c.db) ∨
      ∃ q k, s.prog = .write q k ∧ c.locked i = false ∧
        s'.view db = Statement.apply q (s.view c.db) ∧
        (s.Winning takes won ∨ takes q (s.view c.db)) := by
  have hs : s.Winning takes won ↔ ¬ s.prog.Unless takes fun a => ¬ won a :=
    Session.winning_live hd
  have going : ∀ {t : Session τ Q σ φ ε α}, t.Winning takes won → t.done = s.done →
      ¬ t.prog.Unless takes fun a => ¬ won a :=
    fun ht hdone => (Session.winning_live (hdone.trans hd)).mp ht
  cases hm with
  | ret hp =>
      rw [hp] at hs
      exact Or.inl ⟨hs.mpr (not_not_intro ((Session.winning_ok rfl).mp h)), rfl⟩
  | raise _ | fail => exact absurd h (Session.not_winning_error _)
  | select hp =>
      rw [hp] at hs
      exact Or.inl ⟨hs.mpr fun hall => going h rfl (hall _), rfl⟩
  | @write q k hp hl =>
      refine Or.inr ⟨q, k, hp, hl, rfl, or_iff_not_imp_right.mpr fun hq => hs.mpr fun hall => ?_⟩
      rw [hp] at hall
      exact going h rfl (hall _ hq)
  | io hp =>
      rw [hp] at hs
      exact Or.inl ⟨hs.mpr fun hall => going h rfl (hall _), rfl⟩
  | commit hp =>
      rw [hp] at hs
      exact Or.inl ⟨hs.mpr fun hall => going h rfl hall, rfl⟩

/-- How statements deal with the thing: what is taken stays taken, and only what is free is
taken. -/
structure Taking (taken : σ → Prop) (takes : Q → σ → Prop) (bad : Q → Prop) : Prop where
  keeps : ∀ q w, ¬ bad q → taken w → taken (Statement.apply q w)
  free : ∀ q w, takes q w → ¬ taken w
  took : ∀ q w, takes q w → taken (Statement.apply q w)

variable (taken takes won bad) in
/-- A winning session sees the thing taken, and it is the only one. -/
structure TakenOnce (c : Conf τ Q σ φ ε α) : Prop where
  exclusive : c.Exclusive
  coherent : c.Coherent fun w w' => taken w → taken w'
  avoids : ∀ (i : Nat) s, c.sessions[i]? = some s →
    s.prog.Avoids (fun _ => True) bad fun _ => True
  sees : ∀ (i : Nat) s, c.sessions[i]? = some s → s.Winning takes won → taken (s.view c.db)
  once : ∀ (i j : Nat) s t, c.sessions[i]? = some s → c.sessions[j]? = some t →
    s.Winning takes won → t.Winning takes won → i = j

omit [Statement Q σ] in
theorem takenOnce_init (db : σ) (x : φ) :
    TakenOnce taken takes won bad (init db x : Conf τ Q σ φ ε α) where
  exclusive := exclusive_init db x
  coherent := coherent_init _ db x
  avoids := by
    intro i s hs
    simp [init] at hs
  sees := by
    intro i s hs
    simp [init] at hs
  once := by
    intro i j s t hs
    simp [init] at hs

/-- What is left of a program avoids what the program avoids. -/
theorem Move.avoids {c : Conf τ Q σ φ ε α} {i : Nat} {s s' : Session τ Q σ φ ε α} {db : σ} {x : φ}
    (hm : Move c i s db x s') (h : s.prog.Avoids (fun _ => True) bad fun _ => True) :
    s'.prog.Avoids (fun _ => True) bad fun _ => True := by
  cases hm with
  | ret _ | raise _ | fail => exact h
  | select hp => rw [hp] at h; exact h _ trivial
  | write hp _ => rw [hp] at h; exact h.2 _ trivial
  | io hp => rw [hp] at h; exact h _
  | commit hp => rw [hp] at h; exact h

section Step

variable {c c' : Conf τ Q σ φ ε α} {a : Act τ ε}

omit [Statement Q σ] in
/-- The statement a session is about to execute is none of the bad ones. -/
theorem TakenOnce.about (hc : TakenOnce taken takes won bad c) {q : Q} {s : Session τ Q σ φ ε α}
    (h : c.about a = some (q, s)) : ¬ bad q := by
  obtain ⟨i, k, -, hs, -, hp⟩ := about_some h
  have havoids := hc.avoids i s hs
  rw [hp] at havoids
  exact havoids.1

theorem TakenOnce.step (ht : Taking taken takes bad)
    (havoids : ∀ t, (code t).Avoids (fun _ => True) bad fun _ => True)
    (hcode : ∀ t, (code t).Unless takes fun a => ¬ won a) (hc : TakenOnce taken takes won bad c)
    (h : c.step code a = some c') : TakenOnce taken takes won bad c' := by
  have hcoherent := (hc.coherent.step (R := fun w w' => taken w → taken w') code (fun _ => id)
    (fun h h' => h' ∘ h) hc.exclusive h fun q s hq => ht.keeps q _ (hc.about hq)).1
  have hx := hc.exclusive.step code h
  rcases step_cases code h with ⟨t, rfl, rfl⟩ | ⟨i, s, db, x, s', ha, hs, hd, hm, rfl⟩
  · -- A new session has won nothing.
    have old : ∀ (j : Nat) u, (c.sessions ++ [Session.start t (code t)])[j]? = some u →
        u.Winning takes won → c.sessions[j]? = some u := by
      intro j u hu hw
      rcases getElem?_append_singleton_cases hu with hu | ⟨-, rfl⟩
      · exact hu
      · exact absurd (hcode t) ((Session.winning_live rfl).mp hw)
    refine ⟨hx, hcoherent, fun j u hu => ?_, fun j u hu hw => hc.sees j u (old j u hu hw) hw,
      fun j k u v hu hv hw hw' => hc.once j k u v (old j u hu hw) (old k v hv hw') hw hw'⟩
    rcases getElem?_append_singleton_cases hu with hu | ⟨-, rfl⟩
    · exact hc.avoids j u hu
    · exact havoids t
  · -- Another winning session sees the committed database, so nobody can take now.
    have alone : ∀ (j : Nat) u q, j ≠ i → c.sessions[j]? = some u → u.Winning takes won →
        c.locked i = false → ¬ takes q (s.view c.db) := by
      intro j u q hj hu hw hl hq
      have hsees := hc.sees j u hu hw
      rw [Session.view_of_own_none (own_eq_none_of_unlocked hl hu hj)] at hsees
      exact ht.free q _ hq (hc.coherent.own i s hs hsees)
    have others : ∀ (j : Nat) u, j ≠ i → c.sessions[j]? = some u → u.Winning takes won →
        s'.Winning takes won → j = i := by
      intro j u hj hu hw hw'
      rcases hm.winning hd hw' with ⟨hwin, -⟩ | ⟨q, k, -, hl, -, hwin | hq⟩
      · exact hc.once j i u s hu hs hw hwin
      · exact hc.once j i u s hu hs hw hwin
      · exact absurd hq (alone j u q hj hu hw hl)
    refine ⟨hx, hcoherent, fun j u hu => ?_, fun j u hu hw => ?_, fun j k u v hu hv hw hw' => ?_⟩
    · rcases getElem?_set_cases hu with ⟨-, rfl⟩ | ⟨-, hu⟩
      · exact hm.avoids (hc.avoids i s hs)
      · exact hc.avoids j u hu
    · rcases getElem?_set_cases hu with ⟨-, rfl⟩ | ⟨hj, hu⟩
      · rcases hm.winning hd hw with ⟨hwin, hview⟩ | ⟨q, k, hp, -, hview, hwin | hq⟩
        · rw [hview]
          exact hc.sees i s hs hwin
        · rw [hview]
          have hbad := hc.avoids i s hs
          rw [hp] at hbad
          exact ht.keeps q _ hbad.1 (hc.sees i s hs hwin)
        · rw [hview]
          exact ht.took q _ hq
      · have hsees := hc.sees j u hu hw
        rcases hc.exclusive.view_other hs hm hj hu with hdb | ⟨ho, hdb⟩
        · rwa [hdb]
        · rw [Session.view_of_own_none ho] at hsees ⊢
          rw [hdb]
          exact hc.coherent.own i s hs hsees
    · rcases getElem?_set_cases hu with ⟨hj, hus⟩ | ⟨hj, hu₀⟩
      · rcases getElem?_set_cases hv with ⟨hk, -⟩ | ⟨hk, hv₀⟩
        · rw [hj, hk]
        · subst hus
          rw [hj]
          exact (others k v hk hv₀ hw' hw).symm
      · rcases getElem?_set_cases hv with ⟨hk, hvs⟩ | ⟨-, hv₀⟩
        · subst hvs
          rw [hk]
          exact others j u hj hu₀ hw hw'
        · exact hc.once j k u v hu₀ hv₀ hw hw'

/-- In every run at most one session returns a winning result. -/
theorem wins_at_most_once (ht : Taking taken takes bad)
    (havoids : ∀ t, (code t).Avoids (fun _ => True) bad fun _ => True)
    (hcode : ∀ t, (code t).Unless takes fun a => ¬ won a) {db : σ} {x : φ} {as : List (Act τ ε)}
    (h : (init db x : Conf τ Q σ φ ε α).run code as = some c) {p : Session τ Q σ φ ε α → Bool}
    (hp : ∀ s, p s = true → ∃ a, s.done = some (.ok a) ∧ won a) : c.sessions.countP p ≤ 1 := by
  have hc : TakenOnce taken takes won bad c :=
    run_induction code (fun _ _ _ hc h => hc.step ht havoids hcode h) h (takenOnce_init db x)
  refine countP_le_one fun i j s t hs ht hps hpt => ?_
  obtain ⟨a, hdone, hwon⟩ := hp s hps
  obtain ⟨b, hdone', hwon'⟩ := hp t hpt
  exact hc.once i j s t hs ht ((Session.winning_ok hdone).mpr hwon)
    ((Session.winning_ok hdone').mpr hwon')

end Step

end Conf

end Foundations
