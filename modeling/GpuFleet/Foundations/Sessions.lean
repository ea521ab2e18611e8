import GpuFleet.Foundations.Prog
import Mathlib.Tactic.ByContra

/-!
# Interleaved sessions

Several connections run their programs against one database, a statement at a
time.  A session that has written holds the write lock and a working copy,
which only it sees, until it commits or rolls back.  A session that has not
written reads the last committed database, and nothing ties its reads together:
two reads of one session may see two committed databases.

A configuration is the committed database, the outside state and the sessions
in the order they were started.  `Conf.step` is one action: start a session,
let a session execute its next statement, or let a session fail.  A run is a
list of actions, so a run of concrete programs can be evaluated.

Three invariants are kept by every action.  `Conf.Exclusive`: at most one
session holds the lock.  `Conf.Coherent R`: a relation `R` that each executed
statement respects leads from what a session first saw to what it sees now.
`Conf.Serialised T`: a session that holds the lock found the committed database
when it took it, so what it commits stands in the relation `T` to what is
committed, whatever it read before.
-/

namespace Foundations

/-- A connection running the program of an operation `tag`. -/
structure Session (τ Q σ φ ε α : Type) where
  /-- The operation. -/
  tag : τ
  /-- What is left of its program. -/
  prog : Prog Q σ φ ε α
  /-- The database at the first statement of the operation. -/
  seen : Option σ := none
  /-- The working copy, once the session holds the write lock. -/
  own : Option σ := none
  /-- How the session ended. -/
  done : Option (Except ε α) := none

/-- The committed database, the outside state and the sessions. -/
structure Conf (τ Q σ φ ε α : Type) where
  /-- The database last committed. -/
  db : σ
  /-- The outside state. -/
  outside : φ
  /-- The sessions, oldest first. -/
  sessions : List (Session τ Q σ φ ε α)

/-- An action of the system. -/
inductive Act (τ ε : Type) where
  /-- An operation starts. -/
  | spawn (t : τ)
  /-- Session `i` executes its next statement, returns or raises. -/
  | turn (i : Nat)
  /-- Session `i` fails with `e`: a statement or the commit raised. -/
  | fail (i : Nat) (e : ε)

variable {τ Q σ φ ε α : Type}

/-- The database a session sees. -/
def Session.view (s : Session τ Q σ φ ε α) (db : σ) : σ := s.own.getD db

@[simp] theorem Session.view_of_own_none {s : Session τ Q σ φ ε α} {db : σ}
    (h : s.own = none) : s.view db = db := by
  rw [Session.view, h, Option.getD_none]

/-- A session that starts an operation. -/
def Session.start (t : τ) (p : Prog Q σ φ ε α) : Session τ Q σ φ ε α := { tag := t, prog := p }

/-- A session that ended. -/
def Session.finish (s : Session τ Q σ φ ε α) (r : Except ε α) : Session τ Q σ φ ε α :=
  { s with own := none, done := some r }

namespace Conf

variable [Statement Q σ]

/-- Replace session `i`. -/
def put (c : Conf τ Q σ φ ε α) (i : Nat) (s : Session τ Q σ φ ε α) : Conf τ Q σ φ ε α :=
  { c with sessions := c.sessions.set i s }

/-- Another session holds the write lock. -/
def locked (c : Conf τ Q σ φ ε α) (i : Nat) : Bool :=
  (c.sessions.eraseIdx i).any fun s => s.own.isSome

/-- Session `i`, if it has not ended. -/
def live (c : Conf τ Q σ φ ε α) (i : Nat) : Option (Session τ Q σ φ ε α) :=
  match c.sessions[i]? with
  | none => none
  | some s => if s.done.isSome then none else some s

/-- Session `i` makes the next move of its program.  A writing statement waits while
another session holds the lock. -/
def advance (c : Conf τ Q σ φ ε α) (i : Nat) (s : Session τ Q σ φ ε α) :
    Option (Conf τ Q σ φ ε α) :=
  match s.prog with
  | .ret a => some { c.put i (s.finish (.ok a)) with db := s.view c.db }
  | .raise e => some (c.put i (s.finish (.error e)))
  | .select k =>
      some (c.put i
        { s with prog := k (s.view c.db), seen := some (s.seen.getD (s.view c.db)) })
  | .write q k =>
      if c.locked i then none else
        some (c.put i
          { s with
            prog := k (s.view c.db)
            seen := some (s.seen.getD (s.view c.db))
            own := some (Statement.apply q (s.view c.db)) })
  | .io f k =>
      some { c.put i { s with prog := k c.outside } with outside := f c.outside }
  | .commit k =>
      some { c.put i { s with prog := k, own := none } with db := s.view c.db }

variable (code : τ → Prog Q σ φ ε α)

/-- One action, if it is possible. -/
def step (c : Conf τ Q σ φ ε α) : Act τ ε → Option (Conf τ Q σ φ ε α)
  | .spawn t => some { c with sessions := c.sessions ++ [Session.start t (code t)] }
  | .turn i => (c.live i).bind (c.advance i)
  | .fail i e => (c.live i).map fun s => c.put i (s.finish (.error e))

/-- A list of actions, one after another. -/
def run (c : Conf τ Q σ φ ε α) : List (Act τ ε) → Option (Conf τ Q σ φ ε α)
  | [] => some c
  | a :: as => (c.step code a).bind fun c' => c'.run as

/-- A configuration with no session. -/
def init (db : σ) (x : φ) : Conf τ Q σ φ ε α := ⟨db, x, []⟩

/-! ## Inversion -/

/-- The moves of one session, with what they do to the committed database and the
outside state. -/
inductive Move (c : Conf τ Q σ φ ε α) (i : Nat) (s : Session τ Q σ φ ε α) :
    σ → φ → Session τ Q σ φ ε α → Prop where
  | ret {a} : s.prog = .ret a → Move c i s (s.view c.db) c.outside (s.finish (.ok a))
  | raise {e} : s.prog = .raise e → Move c i s c.db c.outside (s.finish (.error e))
  | select {k} : s.prog = .select k →
      Move c i s c.db c.outside
        { s with prog := k (s.view c.db), seen := some (s.seen.getD (s.view c.db)) }
  | write {q k} : s.prog = .write q k → c.locked i = false →
      Move c i s c.db c.outside
        { s with
          prog := k (s.view c.db)
          seen := some (s.seen.getD (s.view c.db))
          own := some (Statement.apply q (s.view c.db)) }
  | io {f k} : s.prog = .io f k →
      Move c i s c.db (f c.outside) { s with prog := k c.outside }
  | commit {k} : s.prog = .commit k →
      Move c i s (s.view c.db) c.outside { s with prog := k, own := none }
  | fail {e} : Move c i s c.db c.outside (s.finish (.error e))

theorem Move.tag_eq {c : Conf τ Q σ φ ε α} {i : Nat} {s s' : Session τ Q σ φ ε α} {db : σ} {x : φ}
    (h : Move c i s db x s') : s'.tag = s.tag := by
  cases h <;> rfl

omit [Statement Q σ] in
theorem live_some {c : Conf τ Q σ φ ε α} {i : Nat} {s : Session τ Q σ φ ε α}
    (h : c.live i = some s) : c.sessions[i]? = some s ∧ s.done = none := by
  unfold live at h
  split at h
  · cases h
  · rename_i s' hs
    split at h
    · cases h
    · rename_i hd
      cases h
      exact ⟨hs, by simpa using hd⟩

/-- What an action does: it starts a session, or it is a move of a session that has not
ended.  When it is a `turn`, the move is the next move of the program. -/
theorem step_cases {c c' : Conf τ Q σ φ ε α} {a : Act τ ε} (h : c.step code a = some c') :
    (∃ t, a = .spawn t ∧
      c' = { c with sessions := c.sessions ++ [Session.start t (code t)] }) ∨
    (∃ i s db x s', (a = .turn i ∨ ∃ e, a = .fail i e ∧ s' = s.finish (.error e)) ∧
      c.sessions[i]? = some s ∧ s.done = none ∧ Move c i s db x s' ∧
      c' = ⟨db, x, c.sessions.set i s'⟩) := by
  cases a with
  | spawn t =>
      cases h
      exact Or.inl ⟨t, rfl, rfl⟩
  | turn i =>
      right
      simp only [step] at h
      cases hl : c.live i with
      | none => rw [hl] at h; cases h
      | some s =>
          obtain ⟨hs, hd⟩ := live_some hl
          rw [hl, Option.bind_some] at h
          unfold advance at h
          cases hp : s.prog with
          | ret a =>
              simp only [hp] at h
              cases h
              exact ⟨i, s, _, _, _, Or.inl rfl, hs, hd, .ret hp, rfl⟩
          | raise e =>
              simp only [hp] at h
              cases h
              exact ⟨i, s, _, _, _, Or.inl rfl, hs, hd, .raise hp, rfl⟩
          | select k =>
              simp only [hp] at h
              cases h
              exact ⟨i, s, _, _, _, Or.inl rfl, hs, hd, .select hp, rfl⟩
          | write q k =>
              simp only [hp] at h
              split at h
              · cases h
              · rename_i hlock
                cases h
                exact ⟨i, s, _, _, _, Or.inl rfl, hs, hd, .write hp (by simpa using hlock), rfl⟩
          | io f k =>
              simp only [hp] at h
              cases h
              exact ⟨i, s, _, _, _, Or.inl rfl, hs, hd, .io hp, rfl⟩
          | commit k =>
              simp only [hp] at h
              cases h
              exact ⟨i, s, _, _, _, Or.inl rfl, hs, hd, .commit hp, rfl⟩
  | fail i e =>
      right
      simp only [step] at h
      cases hl : c.live i with
      | none => rw [hl] at h; cases h
      | some s =>
          obtain ⟨hs, hd⟩ := live_some hl
          rw [hl, Option.map_some] at h
          cases h
          exact ⟨i, s, _, _, _, Or.inr ⟨e, rfl, rfl⟩, hs, hd, .fail, rfl⟩

theorem run_append {c : Conf τ Q σ φ ε α} (as bs : List (Act τ ε)) :
    c.run code (as ++ bs) = (c.run code as).bind fun c' => c'.run code bs := by
  induction as generalizing c with
  | nil => rfl
  | cons a as ih =>
      simp only [List.cons_append, run]
      cases c.step code a with
      | none => rfl
      | some c' => exact ih

/-- An invariant that every action keeps holds after every run. -/
theorem run_induction {I : Conf τ Q σ φ ε α → Prop}
    (hstep : ∀ c a c', I c → c.step code a = some c' → I c') {c c' : Conf τ Q σ φ ε α}
    {as : List (Act τ ε)} (h : c.run code as = some c') (hc : I c) : I c' := by
  induction as generalizing c with
  | nil => cases h; exact hc
  | cons a as ih =>
      simp only [run] at h
      cases hs : c.step code a with
      | none => rw [hs] at h; cases h
      | some c₁ =>
          rw [hs, Option.bind_some] at h
          exact ih h (hstep c a c₁ hc hs)

/-- Every action of a run meets a condition on the configuration it starts from. -/
def Meets (cond : Conf τ Q σ φ ε α → Act τ ε → Prop) :
    Conf τ Q σ φ ε α → List (Act τ ε) → Prop
  | _, [] => True
  | c, a :: as => cond c a ∧ ∀ c', c.step code a = some c' → Meets cond c' as

/-- Whether a run of concrete programs meets a condition can be computed. -/
instance Meets.decidable (cond : Conf τ Q σ φ ε α → Act τ ε → Prop) [∀ c a, Decidable (cond c a)] :
    ∀ c as, Decidable (Meets code cond c as)
  | _, [] => isTrue trivial
  | c, a :: as =>
      have : Decidable (∀ c', c.step code a = some c' → Meets code cond c' as) :=
        match c.step code a with
        | none => isTrue nofun
        | some c₁ =>
            have := Meets.decidable cond c₁ as
            decidable_of_iff (Meets code cond c₁ as)
              ⟨fun h _ e => Option.some.inj e ▸ h, fun h => h c₁ rfl⟩
      inferInstanceAs (Decidable (_ ∧ _))

theorem Meets.of_append {cond : Conf τ Q σ φ ε α → Act τ ε → Prop} {c c' : Conf τ Q σ φ ε α}
    {as bs : List (Act τ ε)} (hm : Meets code cond c (as ++ bs)) (h : c.run code as = some c') :
    Meets code cond c as ∧ Meets code cond c' bs := by
  induction as generalizing c with
  | nil =>
      cases h
      exact ⟨trivial, hm⟩
  | cons a as ih =>
      obtain ⟨ha, hm⟩ := hm
      simp only [run] at h
      cases hs : c.step code a with
      | none => rw [hs] at h; cases h
      | some c₁ =>
          rw [hs, Option.bind_some] at h
          obtain ⟨h₁, h₂⟩ := ih (hm c₁ hs) h
          refine ⟨⟨ha, fun c₂ hc₂ => ?_⟩, h₂⟩
          rw [hs] at hc₂
          cases hc₂
          exact h₁

/-- An invariant and a relation between the committed databases that every action meeting
the condition keeps hold after, and across, every run whose actions all meet it. -/
theorem run_rel {cond : Conf τ Q σ φ ε α → Act τ ε → Prop} {I : Conf τ Q σ φ ε α → Prop}
    {R : σ → σ → Prop} (refl : ∀ s, R s s) (trans : ∀ {s t u}, R s t → R t u → R s u)
    (hstep : ∀ c a c', I c → cond c a → c.step code a = some c' → I c' ∧ R c.db c'.db)
    {c c' : Conf τ Q σ φ ε α} {as : List (Act τ ε)} (h : c.run code as = some c')
    (hm : Meets code cond c as) (hc : I c) : I c' ∧ R c.db c'.db := by
  induction as generalizing c with
  | nil => cases h; exact ⟨hc, refl _⟩
  | cons a as ih =>
      obtain ⟨ha, hm⟩ := hm
      simp only [run] at h
      cases hs : c.step code a with
      | none => rw [hs] at h; cases h
      | some c₁ =>
          rw [hs, Option.bind_some] at h
          obtain ⟨hI, hR⟩ := hstep c a c₁ hc ha hs
          obtain ⟨hI', hR'⟩ := ih h (hm c₁ hs) hI
          exact ⟨hI', trans hR hR'⟩

/-- The statement session `i` is about to execute, with the session. -/
def about (c : Conf τ Q σ φ ε α) : Act τ ε → Option (Q × Session τ Q σ φ ε α)
  | .turn i =>
      match c.live i with
      | some s => match s.prog with
        | .write q _ => some (q, s)
        | _ => none
      | none => none
  | _ => none

omit [Statement Q σ] in
theorem about_turn {c : Conf τ Q σ φ ε α} {i : Nat} {s : Session τ Q σ φ ε α} {q : Q}
    {k : σ → Prog Q σ φ ε α} (hs : c.sessions[i]? = some s) (hd : s.done = none)
    (hp : s.prog = .write q k) : c.about (.turn i : Act τ ε) = some (q, s) := by
  simp [about, live, hs, hd, hp]

/-- A session that has executed a statement goes on. -/
theorem step_write {c c' : Conf τ Q σ φ ε α} {i : Nat} {s : Session τ Q σ φ ε α} {q : Q}
    {k : σ → Prog Q σ φ ε α} (hs : c.sessions[i]? = some s) (hd : s.done = none)
    (hp : s.prog = .write q k) (h : c.step code (.turn i) = some c') :
    ∃ s', c'.sessions[i]? = some s' ∧ s'.done = none ∧ s'.prog = k (s.view c.db) := by
  have hlive : c.live i = some s := by simp [live, hs, hd]
  simp only [step, hlive, Option.bind_some, advance, hp] at h
  split at h
  · cases h
  · cases h
    exact ⟨_, List.getElem?_set_self (List.getElem?_eq_some_iff.mp hs).1, hd, rfl⟩

omit [Statement Q σ] in
/-- Replacing a session leaves the others. -/
theorem getElem?_set_cases {l : List (Session τ Q σ φ ε α)} {i j : Nat}
    {s t : Session τ Q σ φ ε α} (h : (l.set i s)[j]? = some t) :
    (j = i ∧ t = s) ∨ (j ≠ i ∧ l[j]? = some t) := by
  rw [List.getElem?_set] at h
  by_cases hij : i = j
  · subst hij
    simp only [if_true] at h
    split at h
    · cases h; exact Or.inl ⟨rfl, rfl⟩
    · cases h
  · rw [if_neg hij] at h
    exact Or.inr ⟨fun e => hij e.symm, h⟩

omit [Statement Q σ] in
/-- Starting a session leaves the others. -/
theorem getElem?_append_singleton_cases {l : List (Session τ Q σ φ ε α)} {j : Nat}
    {s t : Session τ Q σ φ ε α} (h : (l ++ [s])[j]? = some t) :
    l[j]? = some t ∨ (j = l.length ∧ t = s) := by
  by_cases hj : j < l.length
  · rw [List.getElem?_append_left hj] at h
    exact Or.inl h
  · rw [List.getElem?_append_right (by omega)] at h
    have hlt : j - l.length < 1 := by
      have := (List.getElem?_eq_some_iff.mp h).1
      simpa using this
    have hj' : j = l.length := by omega
    subst hj'
    simp at h
    exact Or.inr ⟨rfl, h.symm⟩

omit [Statement Q σ] in
/-- A predicate that no two sessions satisfy holds of one session at most. -/
theorem countP_le_one {l : List (Session τ Q σ φ ε α)} {p : Session τ Q σ φ ε α → Bool}
    (h : ∀ (i j : Nat) s t, l[i]? = some s → l[j]? = some t → p s = true → p t = true → i = j) :
    l.countP p ≤ 1 := by
  induction l with
  | nil => exact Nat.zero_le 1
  | cons a l ih =>
      rw [List.countP_cons]
      split
      · rename_i ha
        have hrest : l.countP p = 0 := by
          rw [List.countP_eq_zero]
          intro b hb hpb
          obtain ⟨j, hj⟩ := List.mem_iff_getElem?.mp hb
          exact Nat.succ_ne_zero j (h (j + 1) 0 b a hj rfl hpb ha)
        exact Nat.le_of_eq (congrArg (· + 1) hrest)
      · exact ih fun i j s t hs ht hps hpt => Nat.succ.inj (h (i + 1) (j + 1) s t hs ht hps hpt)

/-- A property of sessions that a new session has, that the moving session keeps, and that
the other sessions keep when the committed database moves, holds of all sessions after an
action. -/
theorem forall_sessions_step {J : σ → Session τ Q σ φ ε α → Prop}
    {c c' : Conf τ Q σ φ ε α} {a : Act τ ε} (h : c.step code a = some c')
    (hc : ∀ (i : Nat) s, c.sessions[i]? = some s → J c.db s)
    (hnew : ∀ t, J c.db (Session.start t (code t)))
    (hmove : ∀ (i : Nat) s db x s', (a = .turn i ∨ ∃ e, a = .fail i e ∧ s' = s.finish (.error e)) →
      c.sessions[i]? = some s → s.done = none → Move c i s db x s' → J db s')
    (hother : ∀ (i : Nat) s db x s' (j : Nat) t, c.sessions[i]? = some s → Move c i s db x s' → j ≠ i →
      c.sessions[j]? = some t → J db t) :
    ∀ (i : Nat) s, c'.sessions[i]? = some s → J c'.db s := by
  intro j t ht
  rcases step_cases code h with ⟨t', rfl, rfl⟩ | ⟨i, s, db, x, s', ha, hs, hd, hm, rfl⟩
  · rcases getElem?_append_singleton_cases ht with ht | ⟨_, rfl⟩
    · exact hc j t ht
    · exact hnew t'
  · rcases getElem?_set_cases ht with ⟨_, rfl⟩ | ⟨hji, ht⟩
    · exact hmove i s db x t ha hs hd hm
    · exact hother i s db x s' j t hs hm hji ht

omit [Statement Q σ] in
/-- Only a live session is about to execute a statement. -/
theorem about_some {c : Conf τ Q σ φ ε α} {a : Act τ ε} {q : Q} {s : Session τ Q σ φ ε α}
    (h : c.about a = some (q, s)) :
    ∃ i k, a = .turn i ∧ c.sessions[i]? = some s ∧ s.done = none ∧ s.prog = .write q k := by
  cases a with
  | turn i =>
      simp only [about] at h
      cases hl : c.live i with
      | none => rw [hl] at h; cases h
      | some s' =>
          obtain ⟨hs, hd⟩ := live_some hl
          simp only [hl] at h
          split at h
          · rename_i q' k hp
            cases h
            exact ⟨i, k, rfl, hs, hd, hp⟩
          · cases h
  | spawn t => cases h
  | fail i e => cases h

/-! ## The write lock -/

/-- At most one session holds the lock. -/
def Exclusive (c : Conf τ Q σ φ ε α) : Prop :=
  ∀ (i j : Nat) s t, c.sessions[i]? = some s → c.sessions[j]? = some t →
    s.own.isSome → t.own.isSome → i = j

omit [Statement Q σ] in
theorem exclusive_init (db : σ) (x : φ) : (init db x : Conf τ Q σ φ ε α).Exclusive := by
  intro i j s t hs
  simp [init] at hs

omit [Statement Q σ] in
/-- When one session may write, the others hold no lock. -/
theorem own_eq_none_of_unlocked {c : Conf τ Q σ φ ε α} {i j : Nat}
    {t : Session τ Q σ φ ε α} (hl : c.locked i = false) (ht : c.sessions[j]? = some t)
    (hij : j ≠ i) : t.own = none := by
  have hmem : t ∈ c.sessions.eraseIdx i := List.mem_eraseIdx_iff_getElem?.mpr ⟨j, hij, ht⟩
  have := List.any_eq_false.mp hl t hmem
  simpa using this

/-- While a session moves that holds the lock before or after, no other session does. -/
theorem Exclusive.others {c : Conf τ Q σ φ ε α} (hc : c.Exclusive) {i : Nat}
    {s s' : Session τ Q σ φ ε α} {db : σ} {x : φ} (hs : c.sessions[i]? = some s)
    (hm : Move c i s db x s') (h : s.own.isSome ∨ s'.own.isSome) :
    ∀ (j : Nat) t, j ≠ i → c.sessions[j]? = some t → t.own = none := by
  intro j t hij ht
  have of_own : s.own.isSome → t.own = none := by
    intro ho
    by_contra hne
    exact hij (hc j i t s ht hs (Option.isSome_iff_ne_none.mpr hne) ho)
  cases hm with
  | ret _ => exact of_own (by simpa [Session.finish] using h)
  | raise _ => exact of_own (by simpa [Session.finish] using h)
  | select _ => exact of_own (by simpa using h)
  | write _ hl => exact own_eq_none_of_unlocked hl ht hij
  | io _ => exact of_own (by simpa using h)
  | commit _ => exact of_own (by simpa using h)
  | fail => exact of_own (by simpa [Session.finish] using h)

theorem Exclusive.step {c c' : Conf τ Q σ φ ε α} {a : Act τ ε} (hc : c.Exclusive)
    (h : c.step code a = some c') : c'.Exclusive := by
  intro j k t u ht hu hto huo
  rcases step_cases code h with ⟨t', rfl, rfl⟩ | ⟨i, s, db, x, s', ha, hs, hd, hm, rfl⟩
  · rcases getElem?_append_singleton_cases ht with ht₀ | ⟨_, rfl⟩
    · rcases getElem?_append_singleton_cases hu with hu₀ | ⟨_, rfl⟩
      · exact hc j k t u ht₀ hu₀ hto huo
      · simp [Session.start] at huo
    · simp [Session.start] at hto
  · rcases getElem?_set_cases ht with ⟨hji, htu⟩ | ⟨hji, ht₀⟩
    · rcases getElem?_set_cases hu with ⟨hki, _⟩ | ⟨hki, hu₀⟩
      · rw [hji, hki]
      · subst htu
        rw [hc.others hs hm (Or.inr hto) k u hki hu₀] at huo
        cases huo
    · rcases getElem?_set_cases hu with ⟨hki, hus⟩ | ⟨hki, hu₀⟩
      · subst hus
        rw [hc.others hs hm (Or.inr huo) j t hji ht₀] at hto
        cases hto
      · exact hc j k t u ht₀ hu₀ hto huo

/-- A move commits the session's view or leaves the committed database alone. -/
theorem Move.db_cases {c : Conf τ Q σ φ ε α} {i : Nat}
    {s s' : Session τ Q σ φ ε α} {db : σ} {x : φ} (hm : Move c i s db x s') :
    db = c.db ∨ db = s.view c.db := by
  cases hm with
  | ret _ => exact Or.inr rfl
  | raise _ => exact Or.inl rfl
  | select _ => exact Or.inl rfl
  | write _ _ => exact Or.inl rfl
  | io _ => exact Or.inl rfl
  | commit _ => exact Or.inr rfl
  | fail => exact Or.inl rfl

/-- Another session's view moves only with the committed database. -/
theorem Exclusive.view_other {c : Conf τ Q σ φ ε α} (hc : c.Exclusive) {i j : Nat}
    {s s' t : Session τ Q σ φ ε α} {db : σ} {x : φ} (hs : c.sessions[i]? = some s)
    (hm : Move c i s db x s') (hji : j ≠ i) (ht : c.sessions[j]? = some t) :
    db = c.db ∨ (t.own = none ∧ db = s.view c.db) := by
  rcases hm.db_cases with h | h
  · exact Or.inl h
  · cases ho : s.own with
    | none => exact Or.inl (h.trans (Session.view_of_own_none ho))
    | some w => exact Or.inr ⟨hc.others hs hm (Or.inl (by simp [ho])) j t hji ht, h⟩

/-! ## A relation that statements respect -/

/-- The relation `R` leads from the committed database to what every session sees, and from
what a live session first saw to what it sees. -/
structure Coherent (R : σ → σ → Prop) (c : Conf τ Q σ φ ε α) : Prop where
  /-- A working copy comes from the committed database. -/
  own : ∀ (i : Nat) s, c.sessions[i]? = some s → R c.db (s.view c.db)
  /-- What a live session sees comes from what it first saw. -/
  seen : ∀ (i : Nat) s r, c.sessions[i]? = some s → s.done = none → s.seen = some r →
    R r (s.view c.db)

omit [Statement Q σ] in
theorem coherent_init (R : σ → σ → Prop) (db : σ) (x : φ) :
    (init db x : Conf τ Q σ φ ε α).Coherent R := by
  constructor
  · intro i s hs
    simp [init] at hs
  · intro i s r hs
    simp [init] at hs

/-- One action keeps coherence and relates the committed databases, when the statement it
executes, if any, respects the relation on the database its session sees. -/
theorem Coherent.step {R : σ → σ → Prop} (refl : ∀ s, R s s)
    (trans : ∀ {s t u}, R s t → R t u → R s u) {c c' : Conf τ Q σ φ ε α} {a : Act τ ε}
    (hx : c.Exclusive) (hc : c.Coherent R) (h : c.step code a = some c')
    (hq : ∀ q s, c.about a = some (q, s) →
      R (s.view c.db) (Statement.apply q (s.view c.db))) :
    c'.Coherent R ∧ R c.db c'.db := by
  have hR : ∀ (i : Nat) s db x s', c.sessions[i]? = some s → Move c i s db x s' → R c.db db := by
    intro i s db x s' hs hm
    rcases hm.db_cases with rfl | rfl
    · exact refl _
    · exact hc.own i s hs
  have write_view : ∀ (i : Nat) s q k s', (a = .turn i ∨ ∃ e, a = .fail i e ∧ s' = s.finish (.error e)) →
      c.sessions[i]? = some s → s.done = none → s.prog = .write q k →
      s'.done = none → R (s.view c.db) (Statement.apply q (s.view c.db)) := by
    intro i s q k s' ha hs hd hp hd'
    rcases ha with rfl | ⟨e, _, he⟩
    · exact hq q s (about_turn hs hd hp)
    · simp [he, Session.finish] at hd'
  refine ⟨⟨?_, ?_⟩, ?_⟩
  · refine forall_sessions_step code (J := fun db s => R db (s.view db)) h hc.own
      (fun t => refl _) ?_ ?_
    · intro i s db x s' ha hs hd hm
      cases hm with
      | ret _ => exact refl _
      | raise _ => exact refl _
      | select _ => exact hc.own i s hs
      | @write q k hp _ => exact trans (hc.own i s hs) (write_view i s q k _ ha hs hd hp hd)
      | io _ => exact hc.own i s hs
      | commit _ => exact refl _
      | fail => exact refl _
    · intro i s db x s' j t hs hm hji ht
      rcases hx.view_other hs hm hji ht with rfl | ⟨ho, rfl⟩
      · exact hc.own j t ht
      · rw [Session.view_of_own_none ho]
        exact refl _
  · have := forall_sessions_step code
      (J := fun db s => ∀ r, s.done = none → s.seen = some r → R r (s.view db)) h
      (fun i s hs r hd hr => hc.seen i s r hs hd hr) ?_ ?_ ?_
    · exact fun i s r hs hd hr => this i s hs r hd hr
    · intro t r _ hr
      simp [Session.start] at hr
    · intro i s db x s' ha hs hd hm r hd' hr
      cases hm with
      | ret _ => simp [Session.finish] at hd'
      | raise _ => simp [Session.finish] at hd'
      | select _ =>
          cases hs' : s.seen with
          | none =>
              simp only [hs', Option.getD_none, Option.some.injEq] at hr
              subst hr
              exact refl _
          | some r' =>
              simp only [hs', Option.getD_some, Option.some.injEq] at hr
              subst hr
              exact hc.seen i s r' hs hd hs'
      | @write q k hp _ =>
          have hw := write_view i s q k _ ha hs hd hp hd
          cases hs' : s.seen with
          | none =>
              simp only [hs', Option.getD_none, Option.some.injEq] at hr
              subst hr
              exact hw
          | some r' =>
              simp only [hs', Option.getD_some, Option.some.injEq] at hr
              subst hr
              exact trans (hc.seen i s r' hs hd hs') hw
      | io _ => exact hc.seen i s r hs hd hr
      | commit _ => exact hc.seen i s r hs hd hr
      | fail => simp [Session.finish] at hd'
    · intro i s db x s' j t hs hm hji ht r hd hr
      rcases hx.view_other hs hm hji ht with rfl | ⟨ho, rfl⟩
      · exact hc.seen j t r ht hd hr
      · have := hc.seen j t r ht hd hr
        rw [Session.view_of_own_none ho] at this ⊢
        exact trans this (hc.own i s hs)
  · rcases step_cases code h with ⟨t, rfl, rfl⟩ | ⟨i, s, db, x, s', _, hs, _, hm, rfl⟩
    · exact refl _
    · exact hR i s db x s' hs hm

/-! ## A property of every database in sight -/

/-- The committed database and the working copies have the property. -/
def Everywhere (I : σ → Prop) (c : Conf τ Q σ φ ε α) : Prop :=
  I c.db ∧ ∀ (i : Nat) s w, c.sessions[i]? = some s → s.own = some w → I w

section Everywhere

variable {I I' : σ → Prop} {c c' : Conf τ Q σ φ ε α} {a : Act τ ε}

omit [Statement Q σ] in
theorem everywhere_init {db : σ} (x : φ) (h : I db) :
    (init db x : Conf τ Q σ φ ε α).Everywhere I := by
  refine ⟨h, fun i s w hs => ?_⟩
  simp [init] at hs

omit [Statement Q σ] in
theorem Everywhere.mono (hc : c.Everywhere I) (h : ∀ s, I s → I' s) : c.Everywhere I' :=
  ⟨h _ hc.1, fun i s w hs hw => h w (hc.2 i s w hs hw)⟩

omit [Statement Q σ] in
theorem Everywhere.view (hc : c.Everywhere I) {i : Nat} {s : Session τ Q σ φ ε α}
    (hs : c.sessions[i]? = some s) : I (s.view c.db) := by
  cases ho : s.own with
  | none => rw [Session.view_of_own_none ho]; exact hc.1
  | some w => rw [Session.view, ho]; exact hc.2 i s w hs ho

/-- An action keeps the property if the statement it executes, if any, does. -/
theorem Everywhere.step (hc : c.Everywhere I) (h : c.step code a = some c')
    (hq : ∀ q s, c.about a = some (q, s) → I (s.view c.db) →
      I (Statement.apply q (s.view c.db))) : c'.Everywhere I := by
  rcases step_cases code h with ⟨t, rfl, rfl⟩ | ⟨i, s, db, x, s', ha, hs, hd, hm, rfl⟩
  · refine ⟨hc.1, fun j u w hu hw => ?_⟩
    rcases getElem?_append_singleton_cases hu with hu | ⟨-, rfl⟩
    · exact hc.2 j u w hu hw
    · cases hw
  · have hdb : I db := by
      rcases hm.db_cases with rfl | rfl
      · exact hc.1
      · exact hc.view hs
    refine ⟨hdb, fun j u w hu hw => ?_⟩
    rcases getElem?_set_cases hu with ⟨-, rfl⟩ | ⟨-, hu⟩
    · cases hm with
      | ret _ | raise _ | commit _ | fail => cases hw
      | select _ | io _ => exact hc.2 i s w hs hw
      | @write q k hp _ =>
          cases hw
          rcases ha with rfl | ⟨e, -, he⟩
          · exact hq q s (about_turn hs hd hp) (hc.view hs)
          · have hdone := congrArg Session.done he
            simp only [Session.finish, hd] at hdone
            cases hdone
    · exact hc.2 j u w hu hw

end Everywhere

/-! ## Serialised commits -/

/-- Whatever a live session still does, what it commits stands in the relation of its
operation to the committed database. -/
def Serialised (T : τ → Option α → σ → σ → Prop) (c : Conf τ Q σ φ ε α) : Prop :=
  ∀ (i : Nat) s, c.sessions[i]? = some s → s.done = none →
    s.prog.Serial (Prog.Since (T s.tag none)) (fun a => Prog.Since (T s.tag (some a)))
      (s.own.map fun w => (c.db, w))

theorem serialised_init (T : τ → Option α → σ → σ → Prop) (db : σ) (x : φ) :
    (init db x : Conf τ Q σ φ ε α).Serialised T := by
  intro i s hs
  simp [init] at hs

/-- What a session commits when it returns. -/
theorem Serialised.at_ret {T : τ → Option α → σ → σ → Prop} {c : Conf τ Q σ φ ε α}
    (hc : c.Serialised T) {i : Nat} {s : Session τ Q σ φ ε α} (hs : c.sessions[i]? = some s)
    (hd : s.done = none) {a : α} (hp : s.prog = .ret a) : T s.tag (some a) c.db (s.view c.db) := by
  have h := hc i s hs hd
  rw [hp] at h
  cases ho : s.own with
  | none => rw [ho] at h; simpa [Session.view, ho] using h c.db
  | some w => rw [ho] at h; simpa [Session.view, ho, Prog.Serial, Prog.Since] using h

/-- What a session commits before its end. -/
theorem Serialised.at_commit {T : τ → Option α → σ → σ → Prop} {c : Conf τ Q σ φ ε α}
    (hc : c.Serialised T) {i : Nat} {s : Session τ Q σ φ ε α} (hs : c.sessions[i]? = some s)
    (hd : s.done = none) {k : Prog Q σ φ ε α} (hp : s.prog = .commit k) :
    T s.tag none c.db (s.view c.db) := by
  have h := hc i s hs hd
  rw [hp] at h
  cases ho : s.own with
  | none => rw [ho] at h; simpa [Session.view, ho] using h.1 c.db
  | some w => rw [ho] at h; simpa [Session.view, ho, Prog.Since] using h.1

/-- What one action commits: nothing, or the transaction of one live session. -/
inductive Committed (T : τ → Option α → σ → σ → Prop) (c c' : Conf τ Q σ φ ε α) : Prop where
  /-- The committed database stays and no session returns. -/
  | quiet (db : c'.db = c.db) (rest : ∀ (j : Nat) t a, c'.sessions[j]? = some t →
      t.done = some (.ok a) → c.sessions[j]? = some t)
  /-- Session `i` commits, and returns when the result is not `none`. -/
  | session (i : Nat) (s : Session τ Q σ φ ε α) (r : Option α) (live : c.sessions[i]? = some s)
      (open_ : s.done = none) (db : T s.tag r c.db c'.db)
      (rest : ∀ (j : Nat) t a, c'.sessions[j]? = some t → t.done = some (.ok a) →
        (j ≠ i ∧ c.sessions[j]? = some t) ∨ (j = i ∧ t.tag = s.tag ∧ r = some a))

theorem Serialised.step {T : τ → Option α → σ → σ → Prop}
    (hcode : ∀ t, (code t).Serial (Prog.Since (T t none)) (fun a => Prog.Since (T t (some a))) none) {c c' : Conf τ Q σ φ ε α} {a : Act τ ε}
    (hx : c.Exclusive) (hc : c.Serialised T) (h : c.step code a = some c') :
    c'.Serialised T := by
  refine forall_sessions_step code
    (J := fun db s => s.done = none → s.prog.Serial (Prog.Since (T s.tag none))
      (fun a => Prog.Since (T s.tag (some a))) (s.own.map fun w => (db, w)))
    h hc (fun t _ => hcode t) ?_ ?_
  · intro i s db x s' _ hs hd hm hd'
    have hp := hc i s hs hd
    cases hm with
    | ret _ => simp [Session.finish] at hd'
    | raise _ => simp [Session.finish] at hd'
    | select hk =>
        rw [hk] at hp
        cases ho : s.own with
        | none => rw [ho] at hp; simpa [Session.view, ho] using hp c.db
        | some w => rw [ho] at hp; simpa [Session.view, ho, Prog.Serial] using hp
    | write hk _ =>
        rw [hk] at hp
        cases ho : s.own with
        | none => rw [ho] at hp; simpa [Session.view, ho] using hp c.db
        | some w => rw [ho] at hp; simpa [Session.view, ho, Prog.Serial] using hp
    | io hk =>
        rw [hk] at hp
        exact hp _
    | commit hk =>
        rw [hk] at hp
        cases ho : s.own with
        | none => rw [ho] at hp; exact hp.2
        | some w => rw [ho] at hp; exact hp.2
    | fail => simp [Session.finish] at hd'
  · intro i s db x s' j t hs hm hji ht hd
    rcases hx.view_other hs hm hji ht with rfl | ⟨ho, _⟩
    · exact hc j t ht hd
    · have := hc j t ht hd
      rw [ho] at this ⊢
      exact this

/-- In a configuration with serialised sessions every action commits nothing or a
transaction that stands in its operation's relation to the committed database. -/
theorem Serialised.committed {T : τ → Option α → σ → σ → Prop} {c c' : Conf τ Q σ φ ε α}
    {a : Act τ ε} (hc : c.Serialised T) (h : c.step code a = some c') : Committed T c c' := by
  rcases step_cases code h with ⟨t, rfl, rfl⟩ | ⟨i, s, db, x, s', _, hs, hd, hm, rfl⟩
  · refine .quiet rfl fun j u a hu hok => ?_
    rcases getElem?_append_singleton_cases hu with hu | ⟨_, rfl⟩
    · exact hu
    · simp [Session.start] at hok
  · -- A session that goes on has not returned, so what has returned was there before.
    have going : s'.done = none ∨ (∃ e, s'.done = some (.error e)) →
        ∀ (j : Nat) t a, (c.sessions.set i s')[j]? = some t → t.done = some (.ok a) →
          j ≠ i ∧ c.sessions[j]? = some t := by
      intro hs' j t a ht hok
      rcases getElem?_set_cases ht with ⟨_, rfl⟩ | ht
      · rcases hs' with hs' | ⟨e, hs'⟩ <;> rw [hs'] at hok <;> cases hok
      · exact ht
    cases hm with
    | @ret r hk =>
        refine .session i s (some r) hs hd (hc.at_ret hs hd hk) ?_
        intro j t a ht hok
        rcases getElem?_set_cases ht with ⟨hj, rfl⟩ | ht
        · simp only [Session.finish, Option.some.injEq, Except.ok.injEq] at hok
          exact Or.inr ⟨hj, rfl, congrArg some hok⟩
        · exact Or.inl ht
    | raise _ => exact .quiet rfl fun j t a ht hok => (going (Or.inr ⟨_, rfl⟩) j t a ht hok).2
    | select _ => exact .quiet rfl fun j t a ht hok => (going (Or.inl hd) j t a ht hok).2
    | write _ _ => exact .quiet rfl fun j t a ht hok => (going (Or.inl hd) j t a ht hok).2
    | io _ => exact .quiet rfl fun j t a ht hok => (going (Or.inl hd) j t a ht hok).2
    | commit hk =>
        exact .session i s none hs hd (hc.at_commit hs hd hk) fun j t a ht hok =>
          Or.inl (going (Or.inl hd) j t a ht hok)
    | fail => exact .quiet rfl fun j t a ht hok => (going (Or.inr ⟨_, rfl⟩) j t a ht hok).2

/-! ## One transaction -/

/-- The sessions of these operations commit nowhere but at their end. -/
def CommitsAtEnd (P : τ → Prop) (c : Conf τ Q σ φ ε α) : Prop :=
  ∀ (i : Nat) s, c.sessions[i]? = some s → P s.tag → s.done = none → s.prog.OneTransaction

section OneTransaction

variable {P : τ → Prop} {c c' : Conf τ Q σ φ ε α} {a : Act τ ε}

omit [Statement Q σ] in
theorem commitsAtEnd_init (db : σ) (x : φ) : CommitsAtEnd P (init db x : Conf τ Q σ φ ε α) := by
  intro i s hs
  simp [init] at hs

theorem CommitsAtEnd.step (hc : c.CommitsAtEnd P) (hcode : ∀ t, P t → (code t).OneTransaction)
    (h : c.step code a = some c') : c'.CommitsAtEnd P := by
  refine forall_sessions_step code (J := fun _ s => P s.tag → s.done = none →
    s.prog.OneTransaction) h hc (fun t ht _ => hcode t ht) ?_ ?_
  · intro i s db x s' _ hs hd hm hP hd'
    have hp := hc i s hs (hm.tag_eq ▸ hP) hd
    cases hm with
    | ret _ => cases hd'
    | raise _ => cases hd'
    | fail => cases hd'
    | select hk =>
        rw [hk] at hp
        exact hp _
    | write hk _ =>
        rw [hk] at hp
        exact hp _
    | io hk =>
        rw [hk] at hp
        exact hp _
    | commit hk =>
        rw [hk] at hp
        exact hp.elim
  · exact fun i s db x s' j t _ _ _ ht => hc j t ht

/-- Such a session moves the committed database only by returning. -/
theorem CommitsAtEnd.db_cases (hc : c.CommitsAtEnd P) {i : Nat} {s : Session τ Q σ φ ε α}
    (hs : c.sessions[i]? = some s) (hP : P s.tag) (h : c.step code (.turn i) = some c') :
    c'.db = c.db ∨ ∃ s' a, c'.sessions[i]? = some s' ∧ s'.tag = s.tag ∧ s'.done = some (.ok a) := by
  rcases step_cases code h with ⟨t, ht, -⟩ | ⟨j, t, db, x, t', hact, ht, hd, hm, rfl⟩
  · cases ht
  · obtain rfl : i = j := by
      rcases hact with hact | ⟨e, hact, -⟩ <;> cases hact
      rfl
    obtain rfl : s = t := Option.some.inj (hs.symm.trans ht)
    have hp := hc i s hs hP hd
    cases hm with
    | @ret a hk =>
        refine Or.inr ⟨s.finish (.ok a), a, ?_, rfl, rfl⟩
        rw [List.getElem?_set_self (List.getElem?_eq_some_iff.mp hs).1]
    | commit hk =>
        rw [hk] at hp
        exact hp.elim
    | _ => exact Or.inl rfl

end OneTransaction

end Conf

end Foundations
