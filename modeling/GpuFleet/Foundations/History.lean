import GpuFleet.Foundations.Sessions
import Mathlib.Data.List.Induction

/-!
# The history of a run

The write lock puts the transactions of interleaved sessions one after another.
So a run has a *history*: the statements its transactions committed, each with
the operation that executed it, in the order they were executed.

Let `abs` be something that can be seen of a database, and `eff` say what a
statement of an operation does to it.  If every statement of a run has this
effect, then replaying the history gives what is seen of the committed database,
and going on with the statements of the open transaction what is seen of its
working copy (`Recorded`).

A session reads before it locks, and what it writes may come from what it read.
`Prog.Follows R` says that every statement a program executes stands in the
relation `R` to the database of its first statement.
-/

namespace Foundations

variable {τ Q σ φ ε α β γ : Type}

/-! ## The statements of a run -/

/-- The statements committed so far, and those of the open transaction. -/
structure History (τ Q : Type) where
  committed : List (τ × Q) := []
  pending : List (τ × Q) := []

namespace History

/-- All statements, committed or not. -/
def all (h : History τ Q) : List (τ × Q) := h.committed ++ h.pending

/-- The open transaction commits. -/
def commit (h : History τ Q) : History τ Q := ⟨h.committed ++ h.pending, []⟩

/-- The open transaction rolls back. -/
def rollback (h : History τ Q) : History τ Q := { h with pending := [] }

@[simp] theorem all_commit (h : History τ Q) : h.commit.all = h.all := List.append_nil _

@[simp] theorem all_rollback (h : History τ Q) : h.rollback.all = h.committed := List.append_nil _

end History

/-- The effect of a list of statements. -/
def replay (eff : τ × Q → γ → γ) (l : List (τ × Q)) (g : γ) : γ := l.foldl (fun g e => eff e g) g

section Replay

variable (eff : τ × Q → γ → γ) (g : γ)

@[simp] theorem replay_nil : replay eff [] g = g := rfl

@[simp] theorem replay_singleton (e : τ × Q) : replay eff [e] g = eff e g := rfl

@[simp] theorem replay_append (l l' : List (τ × Q)) :
    replay eff (l ++ l') g = replay eff l' (replay eff l g) := List.foldl_append ..

theorem replay_map (l : List (τ × Q)) (g : Option γ) :
    replay (fun e => Option.map (eff e)) l g = g.map (replay eff l) := by
  induction l generalizing g with
  | nil => cases g <;> rfl
  | cons e l ih =>
      show replay _ l (g.map (eff e)) = _
      rw [ih, Option.map_map]
      rfl

/-- When some statements put a value and the others leave it, the last value put is there. -/
theorem replay_last {put : τ × Q → Option γ} (l : List (τ × Q)) :
    replay (fun e g => (put e).getD g) l g = (l.filterMap put).getLast?.getD g := by
  induction l using List.reverseRecOn with
  | nil => rfl
  | append_singleton l e ih =>
      rw [replay_append, replay_singleton, ih, List.filterMap_append]
      cases he : put e with
      | none => simp [he]
      | some v => simp [he]

end Replay

variable [Statement Q σ]

namespace Conf

/-- Every session has committed and returned. -/
def Returned (c : Conf τ Q σ φ ε α) : Prop := ∀ s ∈ c.sessions, s.done.any (·.isOk) = true

omit [Statement Q σ] in
instance (c : Conf τ Q σ φ ε α) : Decidable c.Returned :=
  inferInstanceAs (Decidable (∀ s ∈ c.sessions, s.done.any (·.isOk) = true))

/-- What an action adds to the history. -/
def record (c : Conf τ Q σ φ ε α) (h : History τ Q) : Act τ ε → History τ Q
  | .spawn _ => h
  | .turn i =>
      match c.live i with
      | none => h
      | some s =>
          match s.prog with
          | .write q _ => { h with pending := h.pending ++ [(s.tag, q)] }
          | .ret _ | .commit _ => if s.own.isSome then h.commit else h
          | .raise _ => if s.own.isSome then h.rollback else h
          | .select _ | .io _ _ => h
  | .fail i _ =>
      match c.live i with
      | none => h
      | some s => if s.own.isSome then h.rollback else h

variable (code : τ → Prog Q σ φ ε α)

/-- The history of a run. -/
def history (c : Conf τ Q σ φ ε α) (h : History τ Q) : List (Act τ ε) → History τ Q
  | [] => h
  | a :: as =>
      match c.step code a with
      | none => h
      | some c' => history c' (c.record h a) as

/-- The moves of one session, with what they add to the history. -/
inductive Logs (c : Conf τ Q σ φ ε α) (h : History τ Q) (a : Act τ ε) (i : Nat)
    (s : Session τ Q σ φ ε α) : σ → φ → Session τ Q σ φ ε α → History τ Q → Prop where
  | ret {r} : s.prog = .ret r →
      Logs c h a i s (s.view c.db) c.outside (s.finish (.ok r)) (if s.own.isSome then h.commit else h)
  | raise {e} : s.prog = .raise e →
      Logs c h a i s c.db c.outside (s.finish (.error e)) (if s.own.isSome then h.rollback else h)
  | select {k} : s.prog = .select k →
      Logs c h a i s c.db c.outside
        { s with prog := k (s.view c.db), seen := some (s.seen.getD (s.view c.db)) } h
  | write {q k} : s.prog = .write q k → c.locked i = false → c.about a = some (q, s) →
      Logs c h a i s c.db c.outside
        { s with
          prog := k (s.view c.db)
          seen := some (s.seen.getD (s.view c.db))
          own := some (Statement.apply q (s.view c.db)) }
        { h with pending := h.pending ++ [(s.tag, q)] }
  | io {f k} : s.prog = .io f k →
      Logs c h a i s c.db (f c.outside) { s with prog := k c.outside } h
  | commit {k} : s.prog = .commit k →
      Logs c h a i s (s.view c.db) c.outside { s with prog := k, own := none }
        (if s.own.isSome then h.commit else h)
  | fail {e} :
      Logs c h a i s c.db c.outside (s.finish (.error e)) (if s.own.isSome then h.rollback else h)

/-- What an action does and adds to the history: it starts a session, or it is a move of a session
that has not ended. -/
theorem record_cases {c c' : Conf τ Q σ φ ε α} {a : Act τ ε} (h : c.step code a = some c')
    (hist : History τ Q) :
    (∃ t, a = .spawn t ∧ c.record hist a = hist ∧
      c' = { c with sessions := c.sessions ++ [Session.start t (code t)] }) ∨
    (∃ i s db x s', c.sessions[i]? = some s ∧ s.done = none ∧
      Logs c hist a i s db x s' (c.record hist a) ∧ c' = ⟨db, x, c.sessions.set i s'⟩) := by
  cases a with
  | spawn t =>
      cases h
      exact Or.inl ⟨t, rfl, rfl, rfl⟩
  | fail i e =>
      right
      simp only [step] at h
      cases hl : c.live i with
      | none => rw [hl] at h; cases h
      | some s =>
          obtain ⟨hs, hd⟩ := live_some hl
          rw [hl, Option.map_some] at h
          cases h
          simp only [record, hl]
          exact ⟨i, s, _, _, _, hs, hd, .fail, rfl⟩
  | turn i =>
      right
      simp only [step] at h
      cases hl : c.live i with
      | none => rw [hl] at h; cases h
      | some s =>
          obtain ⟨hs, hd⟩ := live_some hl
          rw [hl, Option.bind_some, advance] at h
          refine ⟨i, s, ?_⟩
          simp only [record, hl]
          cases hp : s.prog with
          | ret a =>
              simp only [hp] at h ⊢
              cases h
              exact ⟨_, _, _, hs, hd, .ret hp, rfl⟩
          | raise e =>
              simp only [hp] at h ⊢
              cases h
              exact ⟨_, _, _, hs, hd, .raise hp, rfl⟩
          | select k =>
              simp only [hp] at h ⊢
              cases h
              exact ⟨_, _, _, hs, hd, .select hp, rfl⟩
          | write q k =>
              simp only [hp] at h ⊢
              split at h
              · cases h
              · rename_i hlock
                cases h
                exact ⟨_, _, _, hs, hd,
                  .write hp (by simpa using hlock) (about_turn hs hd hp), rfl⟩
          | io f k =>
              simp only [hp] at h ⊢
              cases h
              exact ⟨_, _, _, hs, hd, .io hp, rfl⟩
          | commit k =>
              simp only [hp] at h ⊢
              cases h
              exact ⟨_, _, _, hs, hd, .commit hp, rfl⟩

/-- What an action adds to the history is of a session. -/
theorem mem_record {c c' : Conf τ Q σ φ ε α} {a : Act τ ε} (h : c.step code a = some c')
    {hist : History τ Q} {e : τ × Q} (he : e ∈ (c.record hist a).all) :
    e ∈ hist.all ∨ ∃ s ∈ c.sessions, e.1 = s.tag := by
  rcases record_cases code h hist with ⟨t, -, hrec, -⟩ | ⟨i, s, db, x, s', hs, -, hl, -⟩
  · exact Or.inl (hrec ▸ he)
  · have hcommit : e ∈ (if s.own.isSome then hist.commit else hist).all → e ∈ hist.all := by
      split
      · exact fun he => hist.all_commit ▸ he
      · exact id
    have hrollback : e ∈ (if s.own.isSome then hist.rollback else hist).all → e ∈ hist.all := by
      split
      · exact fun he => List.mem_append_left _ (hist.all_rollback ▸ he)
      · exact id
    generalize c.record hist a = hist' at hl he
    cases hl with
    | ret _ | commit _ => exact Or.inl (hcommit he)
    | raise _ | fail => exact Or.inl (hrollback he)
    | select _ | io _ => exact Or.inl he
    | write _ _ _ =>
        simp only [History.all, ← List.append_assoc] at he
        rcases List.mem_append.mp he with he | he
        · exact Or.inl he
        · exact Or.inr ⟨s, List.mem_of_getElem? hs, congrArg Prod.fst (List.mem_singleton.mp he)⟩

omit [Statement Q σ] in
/-- When a session that holds no lock may write, nobody holds the lock. -/
theorem forall_own_eq_none {c : Conf τ Q σ φ ε α} {i : Nat} {s : Session τ Q σ φ ε α}
    (hl : c.locked i = false) (hs : c.sessions[i]? = some s) (ho : s.own = none) :
    ∀ (j : Nat) t, c.sessions[j]? = some t → t.own = none := by
  intro j t ht
  by_cases hj : j = i
  · subst hj
    rw [hs] at ht
    cases ht
    exact ho
  · exact own_eq_none_of_unlocked hl ht hj

omit [Statement Q σ] in
/-- A session that gives the lock back leaves nobody with it. -/
theorem own_eq_none_of_released {c : Conf τ Q σ φ ε α} {i j : Nat}
    {s s' t : Session τ Q σ φ ε α} (hx : c.Exclusive) (hs : c.sessions[i]? = some s)
    (ho : s.own.isSome = true) (hown : s'.own = none)
    (ht : (c.sessions.set i s')[j]? = some t) : t.own = none := by
  rcases getElem?_set_cases ht with ⟨-, rfl⟩ | ⟨hj, ht⟩
  · exact hown
  · by_contra hne
    exact hj (hx j i t s ht hs (Option.isSome_iff_ne_none.mpr hne) ho)

/-- The session that holds the lock has not ended, and the statements of the open transaction are
its own. -/
structure Attributed (c : Conf τ Q σ φ ε α) (h : History τ Q) : Prop where
  tags : ∀ (i : Nat) s, c.sessions[i]? = some s → s.own.isSome = true →
    s.done = none ∧ ∀ e ∈ h.pending, e.1 = s.tag
  idle : (∀ (i : Nat) s, c.sessions[i]? = some s → s.own = none) → h.pending = []

section Attributed

variable {c : Conf τ Q σ φ ε α} {h : History τ Q} {i : Nat} {s s' : Session τ Q σ φ ε α} {db : σ}
  {x : φ}

omit [Statement Q σ] in
theorem attributed_init (db : σ) (x : φ) : Attributed (init db x : Conf τ Q σ φ ε α) {} := by
  refine ⟨fun i s hs => ?_, fun _ => rfl⟩
  simp [init] at hs

omit [Statement Q σ] in
/-- A move of a session that takes no lock and gives none back. -/
theorem Attributed.quiet (hc : Attributed c h) (hs : c.sessions[i]? = some s)
    (htag : s'.tag = s.tag) (hown : s'.own = s.own) (hdone : s.own.isSome = true → s'.done = s.done) :
    Attributed ⟨db, x, c.sessions.set i s'⟩ h := by
  refine ⟨fun j t ht ho => ?_, fun hnone => hc.idle fun j t ht => ?_⟩
  · rcases getElem?_set_cases ht with ⟨-, rfl⟩ | ⟨-, ht⟩
    · rw [hown] at ho
      rw [htag, hdone ho]
      exact hc.tags i s hs ho
    · exact hc.tags j t ht ho
  · by_cases hj : j = i
    · subst hj
      rw [hs] at ht
      cases ht
      have hlt := (List.getElem?_eq_some_iff.mp hs).1
      rw [← hown]
      exact hnone j s' (by simp [hlt])
    · exact hnone j t (by simp [Ne.symm hj, ht])

omit [Statement Q σ] in
/-- A session gives the lock back, if it holds it. -/
theorem Attributed.close (hc : Attributed c h) (hx : c.Exclusive) (hs : c.sessions[i]? = some s)
    (htag : s'.tag = s.tag) (hown : s'.own = none) {h' : History τ Q} (hnil : h'.pending = []) :
    Attributed ⟨db, x, c.sessions.set i s'⟩ (if s.own.isSome then h' else h) := by
  cases ho : s.own with
  | none => exact hc.quiet hs htag (hown.trans ho.symm) (by simp [ho])
  | some w =>
      refine ⟨fun j t ht hot => ?_, fun _ => hnil⟩
      rw [own_eq_none_of_released hx hs (by rw [ho]; rfl) hown ht] at hot
      cases hot

theorem Attributed.step (hc : Attributed c h) (hx : c.Exclusive) {c' : Conf τ Q σ φ ε α} {a : Act τ ε}
    (hstep : c.step code a = some c') : Attributed c' (c.record h a) := by
  rcases record_cases code hstep h with ⟨t, rfl, hrec, rfl⟩ | ⟨i, s, db, x, s', hs, hd, hl, rfl⟩
  · rw [hrec]
    refine ⟨fun j u hu ho => ?_, fun hnone => hc.idle fun j u hu => ?_⟩
    · rcases getElem?_append_singleton_cases hu with hu | ⟨-, rfl⟩
      · exact hc.tags j u hu ho
      · cases ho
    · have hlt := (List.getElem?_eq_some_iff.mp hu).1
      exact hnone j u (by simp [List.getElem?_append_left hlt, hu])
  · generalize c.record h a = h' at hl ⊢
    cases hl with
    | ret _ => exact hc.close hx hs (by rfl) (by rfl) (by rfl)
    | raise _ => exact hc.close hx hs (by rfl) (by rfl) (by rfl)
    | select _ => exact hc.quiet hs rfl rfl fun _ => rfl
    | io _ => exact hc.quiet hs rfl rfl fun _ => rfl
    | commit _ => exact hc.close hx hs (by rfl) (by rfl) (by rfl)
    | fail => exact hc.close hx hs (by rfl) (by rfl) (by rfl)
    | write _ hlock _ =>
        refine ⟨fun j t ht ho => ?_, fun hnone => ?_⟩
        · rcases getElem?_set_cases ht with ⟨-, rfl⟩ | ⟨hj, ht⟩
          · refine ⟨hd, fun e he => ?_⟩
            rcases List.mem_append.mp he with he | he
            · cases hs' : s.own with
              | some w => exact (hc.tags i s hs (by rw [hs']; rfl)).2 e he
              | none =>
                  rw [hc.idle (forall_own_eq_none hlock hs hs')] at he
                  cases he
            · rw [List.mem_singleton.mp he]
          · rw [own_eq_none_of_unlocked hlock ht hj] at ho
            cases ho
        · have hlt := (List.getElem?_eq_some_iff.mp hs).1
          have := hnone i _ (List.getElem?_set_self hlt)
          cases this

end Attributed

/-- The history leads from what was seen first to what is seen of the committed database, and
from there to what is seen of the working copy of the session that holds the lock. -/
structure Recorded (abs : σ → γ) (eff : τ × Q → γ → γ) (first : γ) (c : Conf τ Q σ φ ε α)
    (h : History τ Q) : Prop where
  db : abs c.db = replay eff h.committed first
  own : ∀ (i : Nat) s w, c.sessions[i]? = some s → s.own = some w →
    abs w = replay eff h.pending (abs c.db)

section Recorded

variable {abs : σ → γ} {eff : τ × Q → γ → γ} {first : γ} {c : Conf τ Q σ φ ε α}
  {h : History τ Q} {i : Nat} {s s' : Session τ Q σ φ ε α} {x : φ}

omit [Statement Q σ] in
theorem recorded_init (db : σ) (x : φ) :
    Recorded abs eff (abs db) (init db x : Conf τ Q σ φ ε α) {} := by
  refine ⟨rfl, fun i s w hs => ?_⟩
  simp [init] at hs

omit [Statement Q σ] in
/-- A move of a session that takes no lock and gives none back. -/
theorem Recorded.quiet (hc : Recorded abs eff first c h) (hs : c.sessions[i]? = some s)
    (hown : s'.own = s.own) : Recorded abs eff first ⟨c.db, x, c.sessions.set i s'⟩ h := by
  refine ⟨hc.db, fun j t w ht hw => ?_⟩
  rcases getElem?_set_cases ht with ⟨-, rfl⟩ | ⟨-, ht⟩
  · exact hc.own i s w hs (hown ▸ hw)
  · exact hc.own j t w ht hw

omit [Statement Q σ] in
/-- A commit. -/
theorem Recorded.commit (hc : Recorded abs eff first c h) (hx : c.Exclusive)
    (hs : c.sessions[i]? = some s) (hown : s'.own = none) :
    Recorded abs eff first ⟨s.view c.db, x, c.sessions.set i s'⟩
      (if s.own.isSome then h.commit else h) := by
  cases ho : s.own with
  | none =>
      rw [Session.view_of_own_none ho, if_neg (by simp)]
      exact hc.quiet hs (hown.trans ho.symm)
  | some w =>
      rw [if_pos (by rfl)]
      refine ⟨?_, fun j t w ht hw => ?_⟩
      · rw [History.commit, replay_append, ← hc.db, ← hc.own i s w hs ho]
        show abs (s.own.getD c.db) = abs w
        rw [ho]
        rfl
      · rw [own_eq_none_of_released hx hs (by rw [ho]; rfl) hown ht] at hw
        cases hw

omit [Statement Q σ] in
/-- A rollback. -/
theorem Recorded.rollback (hc : Recorded abs eff first c h) (hx : c.Exclusive)
    (hs : c.sessions[i]? = some s) (hown : s'.own = none) :
    Recorded abs eff first ⟨c.db, x, c.sessions.set i s'⟩
      (if s.own.isSome then h.rollback else h) := by
  cases ho : s.own with
  | none =>
      rw [if_neg (by simp)]
      exact hc.quiet hs (hown.trans ho.symm)
  | some w =>
      rw [if_pos (by rfl)]
      refine ⟨hc.db, fun j t w ht hw => ?_⟩
      rw [own_eq_none_of_released hx hs (by rw [ho]; rfl) hown ht] at hw
      cases hw

/-- A statement with its effect. -/
theorem Recorded.write (hc : Recorded abs eff first c h) (hh : Attributed c h)
    (hs : c.sessions[i]? = some s) (hl : c.locked i = false) {q : Q}
    (hq : abs (Statement.apply q (s.view c.db)) = eff (s.tag, q) (abs (s.view c.db)))
    (hown : s'.own = some (Statement.apply q (s.view c.db))) :
    Recorded abs eff first ⟨c.db, x, c.sessions.set i s'⟩
      { h with pending := h.pending ++ [(s.tag, q)] } := by
  have hview : abs (s.view c.db) = replay eff h.pending (abs c.db) := by
    cases ho : s.own with
    | none =>
        rw [Session.view_of_own_none ho, hh.idle (forall_own_eq_none hl hs ho), replay_nil]
    | some w =>
        rw [← hc.own i s w hs ho, Session.view, ho]
        rfl
  refine ⟨hc.db, fun j t w ht hw => ?_⟩
  rcases getElem?_set_cases ht with ⟨-, rfl⟩ | ⟨hj, ht⟩
  · rw [hown] at hw
    cases hw
    rw [replay_append, replay_singleton, hq, hview]
  · rw [own_eq_none_of_unlocked hl ht hj] at hw
    cases hw

/-- Every action records what it does. -/
theorem Recorded.step (hc : Recorded abs eff first c h) (hx : c.Exclusive) (hh : Attributed c h)
    {c' : Conf τ Q σ φ ε α} {a : Act τ ε}
    (hq : ∀ q s, c.about a = some (q, s) →
      abs (Statement.apply q (s.view c.db)) = eff (s.tag, q) (abs (s.view c.db)))
    (hstep : c.step code a = some c') : Recorded abs eff first c' (c.record h a) := by
  rcases record_cases code hstep h with ⟨t, rfl, hrec, rfl⟩ | ⟨i, s, db, x, s', hs, hd, hl, rfl⟩
  · rw [hrec]
    refine ⟨hc.db, fun j u w hu hw => ?_⟩
    rcases getElem?_append_singleton_cases hu with hu | ⟨-, rfl⟩
    · exact hc.own j u w hu hw
    · cases hw
  · generalize c.record h a = h' at hl ⊢
    cases hl with
    | ret _ => exact hc.commit hx hs rfl
    | raise _ => exact hc.rollback hx hs rfl
    | select _ => exact hc.quiet hs rfl
    | write _ hlock habout => exact hc.write hh hs hlock (hq _ s habout) rfl
    | io _ => exact hc.quiet hs rfl
    | commit _ => exact hc.commit hx hs rfl
    | fail => exact hc.rollback hx hs rfl

/-- A run whose statements all have their effect is recorded.  `I` is an invariant of the
system, `cond` a condition on the actions. -/
theorem Recorded.run {I : Conf τ Q σ φ ε α → Prop} {cond : Conf τ Q σ φ ε α → Act τ ε → Prop}
    (hI : ∀ c a c', I c → c.step code a = some c' → I c')
    (hq : ∀ c a q s, I c → cond c a → c.about a = some (q, s) →
      abs (Statement.apply q (s.view c.db)) = eff (s.tag, q) (abs (s.view c.db)))
    {c' : Conf τ Q σ φ ε α} {as : List (Act τ ε)} (hrun : c.run code as = some c')
    (hm : Meets code cond c as) (hx : c.Exclusive) (hh : Attributed c h) (hi : I c)
    (hc : Recorded abs eff first c h) : Recorded abs eff first c' (c.history code h as) := by
  induction as generalizing c h with
  | nil =>
      cases hrun
      exact hc
  | cons a as ih =>
      obtain ⟨ha, hm⟩ := hm
      simp only [Conf.run] at hrun
      simp only [history]
      cases hs : c.step code a with
      | none => rw [hs] at hrun; cases hrun
      | some c₁ =>
          rw [hs, Option.bind_some] at hrun
          exact ih hrun (hm c₁ hs) (hx.step code hs) (hh.step code hx hs) (hI c a c₁ hi hs)
            (hc.step code hx hh (fun q s hqs => hq c a q s hi ha hqs) hs)

end Recorded

end Conf

/-! ## What a session read first -/

namespace Prog

/-- Every statement the program executes stands in `R` to the database of its first statement,
and what it returns in `post`.  The database of the first statement is given once there was
one. -/
def Follows (R : σ → Q → Prop) (post : α → Option σ → Prop) : Prog Q σ φ ε α → Option σ → Prop
  | ret a, o => post a o
  | raise _, _ => True
  | select k, o => ∀ s, (k s).Follows R post (some (o.getD s))
  | write q k, o => ∀ s, R (o.getD s) q ∧ (k s).Follows R post (some (o.getD s))
  | io _ k, o => ∀ x, (k x).Follows R post o
  | commit k, o => k.Follows R post o

section Follows

variable {R : σ → Q → Prop} {o : Option σ}

omit [Statement Q σ] in
theorem Follows.bind {post : α → Option σ → Prop} {post' : β → Option σ → Prop}
    {p : Prog Q σ φ ε α} {g : α → Prog Q σ φ ε β} (hp : p.Follows R post o)
    (hg : ∀ a o, post a o → (g a).Follows R post' o) : (p >>= g).Follows R post' o := by
  induction p generalizing o with
  | ret a => exact hg a o hp
  | raise e => trivial
  | select k ih => exact fun s => ih s (hp s)
  | write q k ih => exact fun s => ⟨(hp s).1, ih s (hp s).2⟩
  | io f k ih => exact fun x => ih x (hp x)
  | commit k ih => exact ih hp

omit [Statement Q σ] in
/-- What is done to the result of a program executes nothing. -/
theorem Follows.bind_ret {p : Prog Q σ φ ε α} (hp : p.Follows R (fun _ _ => True) o)
    (f : α → β) : (p >>= fun a => ret (f a)).Follows R (fun _ _ => True) o :=
  hp.bind fun _ _ _ => trivial

omit [Statement Q σ] in
theorem Follows.mono {post post' : α → Option σ → Prop} {p : Prog Q σ φ ε α}
    (hp : p.Follows R post o) (hpost : ∀ a o, post a o → post' a o) : p.Follows R post' o := by
  induction p generalizing o with
  | ret a => exact hpost a o hp
  | raise e => trivial
  | select k ih => exact fun s => ih s (hp s)
  | write q k ih => exact fun s => ⟨(hp s).1, ih s (hp s).2⟩
  | io f k ih => exact fun x => ih x (hp x)
  | commit k ih => exact ih hp

omit [Statement Q σ] in
/-- A statement that comes after the first read. -/
theorem follows_execute {q : Q} {s : σ} (h : R s q) :
    (execute q : Prog Q σ φ ε Unit).Follows R (fun _ o => o = some s) (some s) :=
  fun _ => ⟨h, rfl⟩

omit [Statement Q σ] in
theorem follows_query {f : σ → α} {s : σ} :
    (query f : Prog Q σ φ ε α).Follows R (fun _ o => o = some s) (some s) :=
  fun _ => rfl

omit [Statement Q σ] in
theorem follows_executeReturning {q : Q} {f : σ → α} {s : σ} (h : R s q) :
    (executeReturning q f : Prog Q σ φ ε α).Follows R (fun _ o => o = some s) (some s) :=
  fun _ => ⟨h, rfl⟩

omit [Statement Q σ] in
/-- A program that executes only some statements, after the first read. -/
theorem Follows.of_avoids {bad : Q → Prop} {post : α → Prop} {p : Prog Q σ φ ε α}
    (hp : p.Avoids (fun _ => True) bad post) (hR : ∀ s q, ¬ bad q → R s q) (s : σ) :
    p.Follows R (fun a o => post a ∧ o = some s) (some s) := by
  induction p with
  | ret a => exact ⟨hp, rfl⟩
  | raise e => trivial
  | select k ih => exact fun t => ih t (hp t trivial)
  | write q k ih => exact fun t => ⟨hR s q hp.1, ih t (hp.2 t trivial)⟩
  | io f k ih => exact fun x => ih x (hp x)
  | commit k ih => exact ih hp

end Follows

omit [Statement Q σ] in
/-- After every statement the program executes on a database, what is left of it is in `R`. -/
def Then (R : Q → σ → Prog Q σ φ ε α → Prop) : Prog Q σ φ ε α → Prop
  | ret _ => True
  | raise _ => True
  | select k => ∀ s, (k s).Then R
  | write q k => ∀ s, R q s (k s) ∧ (k s).Then R
  | io _ k => ∀ x, (k x).Then R
  | commit k => k.Then R

omit [Statement Q σ] in
theorem then_of_forall {R : Q → σ → Prog Q σ φ ε α → Prop} (hR : ∀ q s p, R q s p)
    (p : Prog Q σ φ ε α) : p.Then R := by
  induction p with
  | ret a => trivial
  | raise e => trivial
  | select k ih => exact ih
  | write q k ih => exact fun s => ⟨hR q s _, ih s⟩
  | io f k ih => exact ih
  | commit k ih => exact ih

omit [Statement Q σ] in
/-- A program that executes none of the statements that `R` is about, and another one. -/
theorem Avoids.then_bind {bad : Q → Prop} {post : α → Prop}
    {R : Q → σ → Prog Q σ φ ε β → Prop} (hR : ∀ q s p, ¬ bad q → R q s p) {p : Prog Q σ φ ε α}
    {g : α → Prog Q σ φ ε β} (hp : p.Avoids (fun _ => True) bad post)
    (hg : ∀ a, post a → (g a).Then R) : (p >>= g).Then R := by
  induction p with
  | ret a => exact hg a hp
  | raise e => trivial
  | select k ih => exact fun s => ih s (hp s trivial)
  | write q k ih => exact fun s => ⟨hR q s _ hp.1, ih s (hp.2 s trivial)⟩
  | io f k ih => exact fun x => ih x (hp x)
  | commit k ih => exact ih hp

omit [Statement Q σ] in
theorem Avoids.then_ {bad : Q → Prop} {post : α → Prop} {R : Q → σ → Prog Q σ φ ε α → Prop}
    (hR : ∀ q s p, ¬ bad q → R q s p) {p : Prog Q σ φ ε α}
    (hp : p.Avoids (fun _ => True) bad post) : p.Then R := by
  induction p with
  | ret a => trivial
  | raise e => trivial
  | select k ih => exact fun s => ih s (hp s trivial)
  | write q k ih => exact fun s => ⟨hR q s _ hp.1, ih s (hp.2 s trivial)⟩
  | io f k ih => exact fun x => ih x (hp x)
  | commit k ih => exact ih hp

end Prog

namespace Conf

variable (code : τ → Prog Q σ φ ε α) (R : τ → σ → Q → Prop)

/-- What every live session still executes stands in the relation of its operation to what the
session read first. -/
def Following (c : Conf τ Q σ φ ε α) : Prop :=
  ∀ (i : Nat) s, c.sessions[i]? = some s → s.done = none →
    s.prog.Follows (R s.tag) (fun _ _ => True) s.seen

variable {code R}

omit [Statement Q σ] in
theorem following_init (db : σ) (x : φ) : Following R (init db x : Conf τ Q σ φ ε α) := by
  intro i s hs
  simp [init] at hs

theorem Following.step {c c' : Conf τ Q σ φ ε α} {a : Act τ ε} (hc : Following R c)
    (hcode : ∀ t, (code t).Follows (R t) (fun _ _ => True) none) (h : c.step code a = some c') :
    Following R c' := by
  refine forall_sessions_step code
    (J := fun _ s => s.done = none → s.prog.Follows (R s.tag) (fun _ _ => True) s.seen) h hc
    (fun t _ => hcode t) ?_ fun i s db x s' j t _ _ _ ht => hc j t ht
  intro i s db x s' _ hs hd hm hd'
  have hp := hc i s hs hd
  cases hm with
  | ret _ => simp [Session.finish] at hd'
  | raise _ => simp [Session.finish] at hd'
  | select hk => rw [hk] at hp; exact hp _
  | write hk _ => rw [hk] at hp; exact (hp _).2
  | io hk => rw [hk] at hp; exact hp _
  | commit hk => rw [hk] at hp; exact hp
  | fail => simp [Session.finish] at hd'

omit [Statement Q σ] in
/-- The statement a session is about to execute. -/
theorem Following.about {c : Conf τ Q σ φ ε α} {a : Act τ ε} {q : Q} {s : Session τ Q σ φ ε α}
    (hc : Following R c) (h : c.about a = some (q, s)) :
    R s.tag (s.seen.getD (s.view c.db)) q := by
  obtain ⟨i, k, -, hs, hd, hp⟩ := about_some h
  have := hc i s hs hd
  rw [hp] at this
  exact (this _).1

/-! ## What came before -/

section Past

variable {code : τ → Prog Q σ φ ε α} {c₀ c c' : Conf τ Q σ φ ε α}

/-- A property of the actions so far and the configuration they lead to. -/
theorem run_past {I : List (Act τ ε) → Conf τ Q σ φ ε α → Prop} (h₀ : I [] c₀)
    (hstep : ∀ past c a c', c₀.run code past = some c → I past c → c.step code a = some c' →
      I (past ++ [a]) c') {as : List (Act τ ε)} (h : c₀.run code as = some c) : I as c := by
  induction as using List.reverseRecOn generalizing c with
  | nil =>
      cases h
      exact h₀
  | append_singleton as a ih =>
      rw [run_append] at h
      obtain ⟨c₁, h₁, h⟩ := Option.bind_eq_some_iff.mp h
      simp only [run] at h
      obtain ⟨c₂, hs, h⟩ := Option.bind_eq_some_iff.mp h
      cases h
      exact hstep as c₁ a _ h₁ (ih h₁) hs

/-- A session keeps what it read first. -/
theorem seen_step {a : Act τ ε} (h : c.step code a = some c') {i : Nat}
    {s : Session τ Q σ φ ε α} {r : σ} (hs : c.sessions[i]? = some s) (hr : s.seen = some r) :
    ∃ s', c'.sessions[i]? = some s' ∧ s'.tag = s.tag ∧ s'.seen = some r := by
  have hi : i < c.sessions.length := (List.getElem?_eq_some_iff.mp hs).1
  rcases step_cases code h with ⟨t, -, rfl⟩ | ⟨j, u, db, x, u', -, hu, -, hm, rfl⟩
  · exact ⟨s, by rw [List.getElem?_append_left hi, hs], rfl, hr⟩
  · by_cases hij : i = j
    · subst hij
      rw [hs] at hu
      cases hu
      refine ⟨u', by rw [List.getElem?_set_self hi], hm.tag_eq, ?_⟩
      cases hm with
      | select _ | write _ _ => simp only [hr, Option.getD_some]
      | ret _ | raise _ | io _ | commit _ | fail => exact hr
    · exact ⟨s, by rw [List.getElem?_set_ne fun e => hij e.symm, hs], rfl, hr⟩

/-- The actions `past` lead to `c`, and in its next turn session `i`, of the operation `t`, has its
first look at the database. -/
structure LooksFirst (code : τ → Prog Q σ φ ε α) (c₀ : Conf τ Q σ φ ε α) (i : Nat) (t : τ)
    (past : List (Act τ ε)) (c : Conf τ Q σ φ ε α) : Prop where
  run : c₀.run code past = some c
  before : ∃ s, c.sessions[i]? = some s ∧ s.tag = t ∧ s.seen = none
  after : ∃ c' s, c.step code (.turn i) = some c' ∧ c'.sessions[i]? = some s ∧ s.tag = t ∧
    s.seen = some c.db

/-- What the session has seen at any later moment. -/
theorem LooksFirst.seen {i : Nat} {t : τ} {past mid : List (Act τ ε)}
    (h : LooksFirst code c₀ i t past c) (hrun : c₀.run code (past ++ .turn i :: mid) = some c') :
    ∃ s, c'.sessions[i]? = some s ∧ s.tag = t ∧ s.seen = some c.db := by
  obtain ⟨c₁, s, hstep, hs, htag, hseen⟩ := h.after
  rw [run_append, h.run, Option.bind_some, Conf.run, hstep, Option.bind_some] at hrun
  refine run_induction code (I := fun c₂ => ∃ s, c₂.sessions[i]? = some s ∧ s.tag = t ∧
    s.seen = some c.db) ?_ hrun ⟨s, hs, htag, hseen⟩
  rintro c₂ a c₃ ⟨s, hs, rfl, hseen⟩ hstep
  exact seen_step hstep hs hseen

/-- Every session has read nothing yet, or first what was committed when it had its first look. -/
def Remembers (code : τ → Prog Q σ φ ε α) (c₀ : Conf τ Q σ φ ε α) (past : List (Act τ ε))
    (c : Conf τ Q σ φ ε α) : Prop :=
  ∀ (i : Nat) s, c.sessions[i]? = some s → (s.seen = none → s.own = none) ∧
    ∀ r, s.seen = some r → ∃ before c₁, before ++ [.turn i] <+: past ∧
      LooksFirst code c₀ i s.tag before c₁ ∧ c₁.db = r

theorem remembers_init (db : σ) (x : φ) : Remembers code (init db x) [] (init db x) := by
  intro i s hs
  simp [init] at hs

theorem Remembers.step {past : List (Act τ ε)} {a : Act τ ε} (hrun : c₀.run code past = some c)
    (hc : Remembers code c₀ past c) (h : c.step code a = some c') :
    Remembers code c₀ (past ++ [a]) c' := by
  have later : ∀ (i : Nat) s, c.sessions[i]? = some s → (s.seen = none → s.own = none) ∧
      ∀ r, s.seen = some r → ∃ before c₁, before ++ [.turn i] <+: past ++ [a] ∧
        LooksFirst code c₀ i s.tag before c₁ ∧ c₁.db = r := by
    intro i s hs
    obtain ⟨hown, hseen⟩ := hc i s hs
    refine ⟨hown, fun r hr => ?_⟩
    obtain ⟨before, c₁, hbefore, hrest⟩ := hseen r hr
    exact ⟨before, c₁, hbefore.trans (List.prefix_append ..), hrest⟩
  intro j t ht
  rcases step_cases code h with ⟨t', rfl, rfl⟩ | ⟨i, s, db, x, s', ha, hs, hd, hm, rfl⟩
  · rcases getElem?_append_singleton_cases ht with ht | ⟨-, rfl⟩
    · exact later j t ht
    · exact ⟨fun _ => rfl, fun r hr => by cases hr⟩
  · rcases getElem?_set_cases ht with ⟨rfl, rfl⟩ | ⟨-, ht⟩
    · obtain ⟨hown, hseen⟩ := later j s hs
      rw [hm.tag_eq]
      -- A session that goes on and had read nothing has its first look now.
      have first : ∀ r, t.done = none → t.seen = some (s.seen.getD (s.view c.db)) →
          t.seen = some r → ∃ before c₁, before ++ [.turn j] <+: past ++ [a] ∧
            LooksFirst code c₀ j s.tag before c₁ ∧ c₁.db = r := by
        intro r hdone hfirst hr
        obtain rfl : a = .turn j := by
          rcases ha with rfl | ⟨e, -, rfl⟩
          · rfl
          · cases hdone
        cases hs' : s.seen with
        | some r' =>
            rw [hfirst, hs', Option.getD_some] at hr
            exact Option.some.inj hr ▸ hseen r' hs'
        | none =>
            rw [hs', Option.getD_none, Session.view_of_own_none (hown hs')] at hfirst
            refine ⟨past, c, List.prefix_rfl, ⟨hrun, ⟨s, hs, rfl, hs'⟩, _, t, h, ht, hm.tag_eq,
              hfirst⟩, ?_⟩
            exact Option.some.inj (hfirst.symm.trans hr)
      refine ⟨?_, ?_⟩
      · cases hm with
        | select _ | write _ _ => exact fun hr => by cases hr
        | io _ => exact hown
        | ret _ | raise _ | commit _ | fail => exact fun _ => rfl
      · cases hm with
        | select _ | write _ _ => exact fun r => first r hd rfl
        | ret _ | raise _ | io _ | commit _ | fail => exact hseen
    · exact later j t ht

/-- A session that goes on to return only what is in `post` returns that. -/
theorem returns_of_avoids {post : α → Prop} {i : Nat} {s s' : Session τ Q σ φ ε α}
    (hs : c.sessions[i]? = some s) (hd : s.done = none)
    (hp : s.prog.Avoids (fun _ => True) (fun _ => False) post) {as : List (Act τ ε)}
    (h : c.run code as = some c') (hs' : c'.sessions[i]? = some s') {r : α}
    (hr : s'.done = some (.ok r)) : post r := by
  have hrun := run_induction code (I := fun c => ∃ s, c.sessions[i]? = some s ∧
      (s.done = none → s.prog.Avoids (fun _ => True) (fun _ => False) post) ∧
        ∀ r, s.done = some (.ok r) → post r) ?_ h
    ⟨s, hs, fun _ => hp, fun r hr => by rw [hd] at hr; cases hr⟩
  · obtain ⟨s'', hs'', -, hpost⟩ := hrun
    rw [hs'] at hs''
    cases hs''
    exact hpost r hr
  · rintro c a c' ⟨s, hs, hp, hpost⟩ hstep
    have hi : i < c.sessions.length := (List.getElem?_eq_some_iff.mp hs).1
    rcases step_cases code hstep with ⟨t, rfl, rfl⟩ | ⟨j, u, db, x, u', -, hu, hd, hm, rfl⟩
    · exact ⟨s, by rw [List.getElem?_append_left hi, hs], hp, hpost⟩
    · by_cases hij : i = j
      · subst hij
        rw [hs] at hu
        cases hu
        have hp := hp hd
        refine ⟨u', by rw [List.getElem?_set_self hi], ?_, ?_⟩
        · intro hd'
          cases hm with
          | ret _ | raise _ | fail => cases hd'
          | select hk => rw [hk] at hp; exact hp _ trivial
          | write hk _ => rw [hk] at hp; exact hp.2 _ trivial
          | io hk => rw [hk] at hp; exact hp _
          | commit hk => rw [hk] at hp; exact hp
        · intro r hr
          cases hm with
          | ret hk =>
              rw [hk] at hp
              cases hr
              exact hp
          | raise _ | fail => cases hr
          | select _ | write _ _ | io _ | commit _ => exact hpost r hr
      · exact ⟨s, by rw [List.getElem?_set_ne fun e => hij e.symm, hs], hp, hpost⟩

end Past

/-! ## What is left after a statement -/

section Then

variable {code : τ → Prog Q σ φ ε α} {R : τ → Q → σ → Prog Q σ φ ε α → Prop}
  {c c' : Conf τ Q σ φ ε α}

/-- What is left of a live session after each statement is in the relation of its operation. -/
def Continuing (R : τ → Q → σ → Prog Q σ φ ε α → Prop) (c : Conf τ Q σ φ ε α) : Prop :=
  ∀ (i : Nat) s, c.sessions[i]? = some s → s.done = none → s.prog.Then (R s.tag)

omit [Statement Q σ] in
theorem continuing_init (db : σ) (x : φ) : Continuing R (init db x : Conf τ Q σ φ ε α) := by
  intro i s hs
  simp [init] at hs

theorem Continuing.step {a : Act τ ε} (hc : Continuing R c) (hcode : ∀ t, (code t).Then (R t))
    (h : c.step code a = some c') : Continuing R c' := by
  refine forall_sessions_step code (J := fun _ s => s.done = none → s.prog.Then (R s.tag)) h hc
    (fun t _ => hcode t) ?_ fun i s db x s' j t _ _ _ ht => hc j t ht
  intro i s db x s' _ hs hd hm hd'
  have hp := hc i s hs hd
  cases hm with
  | ret _ | raise _ | fail => cases hd'
  | select hk => rw [hk] at hp; exact hp _
  | write hk _ => rw [hk] at hp; exact (hp _).2
  | io hk => rw [hk] at hp; exact hp _
  | commit hk => rw [hk] at hp; exact hp

end Then

end Conf

end Foundations
