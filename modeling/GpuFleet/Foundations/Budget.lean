import GpuFleet.Foundations.History
import Mathlib.Algebra.GroupWithZero.Nat

/-!
# What a run spends

Every statement of an operation has a cost, and the history of a run has spent
the sum.  `Prog.Costs` bounds what a program may still spend.

Some operations, the spenders, may spend one, and all others nothing.  If a
spender starts only when those before it have ended and nothing is spent, then
one is spent at most (`Conf.Once`): a second spender finds nothing spent, and
two never run side by side.
-/

namespace Foundations

variable {τ Q σ φ ε α β : Type}

namespace Prog

/-- Every statement has a cost, and the program spends at most `n`. -/
def Costs (cost : Q → Nat) : Prog Q σ φ ε α → Nat → Prop
  | ret _, _ => True
  | raise _, _ => True
  | select k, n => ∀ s, (k s).Costs cost n
  | write q k, n => cost q ≤ n ∧ ∀ s, (k s).Costs cost (n - cost q)
  | io _ k, n => ∀ x, (k x).Costs cost n
  | commit k, n => k.Costs cost n

section Costs

variable {cost : Q → Nat} {m n : Nat}

theorem Costs.mono {p : Prog Q σ φ ε α} (hp : p.Costs cost m) (h : m ≤ n) : p.Costs cost n := by
  induction p generalizing m n with
  | ret a => trivial
  | raise e => trivial
  | select k ih => exact fun s => ih s (hp s) h
  | write q k ih =>
      exact ⟨Nat.le_trans hp.1 h, fun s => ih s (hp.2 s) (Nat.sub_le_sub_right h _)⟩
  | io f k ih => exact fun x => ih x (hp x) h
  | commit k ih => exact ih hp h

/-- What follows a part that costs nothing. -/
theorem Costs.bind {p : Prog Q σ φ ε α} {g : α → Prog Q σ φ ε β} (hp : p.Costs cost 0)
    (hg : ∀ a, (g a).Costs cost n) : (p >>= g).Costs cost n := by
  induction p with
  | ret a => exact hg a
  | raise e => trivial
  | select k ih => exact fun s => ih s (hp s)
  | write q k ih =>
      have hfree : cost q = 0 := Nat.le_zero.mp hp.1
      refine ⟨hfree ▸ Nat.zero_le n, fun s => ?_⟩
      rw [hfree]
      exact ih s ((hp.2 s).mono (Nat.sub_le 0 _))
  | io f k ih => exact fun x => ih x (hp x)
  | commit k ih => exact ih hp

theorem costs_query {f : σ → α} : (query f : Prog Q σ φ ε α).Costs cost n := fun _ => trivial

theorem costs_execute {q : Q} (h : cost q = 0) : (execute q : Prog Q σ φ ε Unit).Costs cost n :=
  ⟨h ▸ Nat.zero_le n, fun _ => trivial⟩

/-- What is done to the result of a program costs nothing. -/
theorem Costs.bind_ret {p : Prog Q σ φ ε α} (hp : p.Costs cost n) (f : α → β) :
    (p >>= fun a => ret (f a)).Costs cost n := by
  induction p generalizing n with
  | ret a => trivial
  | raise e => trivial
  | select k ih => exact fun s => ih s (hp s)
  | write q k ih => exact ⟨hp.1, fun s => ih s (hp.2 s)⟩
  | io f k ih => exact fun x => ih x (hp x)
  | commit k ih => exact ih hp

end Costs

/-- A program costs nothing when the statements it executes do. -/
theorem Costs.of_avoids {cost : Q → Nat} {bad : Q → Prop} {post : α → Prop} {p : Prog Q σ φ ε α}
    (hp : p.Avoids (fun _ => True) bad post) (h : ∀ q, ¬ bad q → cost q = 0) (n : Nat) :
    p.Costs cost n := by
  induction p generalizing n with
  | ret a => trivial
  | raise e => trivial
  | select k ih => exact fun s => ih s (hp s trivial) n
  | write q k ih => exact ⟨h q hp.1 ▸ Nat.zero_le n, fun s => ih s (hp.2 s trivial) _⟩
  | io f k ih => exact fun x => ih x (hp x) n
  | commit k ih => exact ih hp n

/-- A program costs nothing when all statements do. -/
theorem costs_of_free {cost : Q → Nat} (h : ∀ q, cost q = 0) (p : Prog Q σ φ ε α) (n : Nat) :
    p.Costs cost n := by
  induction p generalizing n with
  | ret a => trivial
  | raise e => trivial
  | select k ih => exact fun s => ih s n
  | write q k ih => exact ⟨h q ▸ Nat.zero_le n, fun s => ih s _⟩
  | io f k ih => exact fun x => ih x n
  | commit k ih => exact ih n

end Prog

/-- What a list of statements spends. -/
def spent (cost : τ → Q → Nat) (l : List (τ × Q)) : Nat := (l.map fun e => cost e.1 e.2).sum

section Spent

variable {cost : τ → Q → Nat}

@[simp] theorem spent_nil : spent cost [] = 0 := rfl

@[simp] theorem spent_append (l l' : List (τ × Q)) :
    spent cost (l ++ l') = spent cost l + spent cost l' := by
  simp [spent]

@[simp] theorem spent_singleton (t : τ) (q : Q) : spent cost [(t, q)] = cost t q := by
  simp [spent]

theorem spent_eq_zero {l : List (τ × Q)} (h : ∀ e ∈ l, cost e.1 e.2 = 0) : spent cost l = 0 := by
  induction l with
  | nil => rfl
  | cons e l ih =>
      show cost e.1 e.2 + spent cost l = 0
      rw [h e (List.mem_cons_self ..), ih fun e' he' => h e' (List.mem_cons_of_mem _ he')]

end Spent

namespace Conf

variable [Statement Q σ]

/-- What an operation may still spend when `total` has been spent. -/
def allowance (spender : Bool) (total : Nat) : Nat := if spender then 1 - total else 0

/-- One is spent at most, and at most one live session may still spend it.  `already` was spent
before the run. -/
structure Once (cost : τ → Q → Nat) (spender : τ → Bool) (already : Nat) (c : Conf τ Q σ φ ε α)
    (h : History τ Q) : Prop where
  exclusive : c.Exclusive
  attributed : c.Attributed h
  alone : ∀ (i j : Nat) s t, c.sessions[i]? = some s → c.sessions[j]? = some t →
    s.done = none → t.done = none → spender s.tag = true → spender t.tag = true → i = j
  budget : ∀ (i : Nat) s, c.sessions[i]? = some s → s.done = none →
    s.prog.Costs (cost s.tag) (allowance (spender s.tag) (already + spent cost h.all))
  free : ∀ e ∈ h.all, spender e.1 = false → cost e.1 e.2 = 0
  once : already + spent cost h.all ≤ 1

section Once

variable {cost : τ → Q → Nat} {spender : τ → Bool} {already : Nat} {c c' : Conf τ Q σ φ ε α}
  {h h' : History τ Q} {i : Nat} {s s' : Session τ Q σ φ ε α} {db : σ} {x : φ}

omit [Statement Q σ] in
theorem once_init (db : σ) (x : φ) (h : already ≤ 1) :
    Once cost spender already (init db x : Conf τ Q σ φ ε α) {} where
  exclusive := exclusive_init db x
  attributed := attributed_init db x
  alone i j s t hs := by simp [init] at hs
  budget i s hs := by simp [init] at hs
  free e he := by cases he
  once := h

omit [Statement Q σ] in
/-- A move of a session keeps the invariant when it keeps what the session may spend, what is
free, and what is spent. -/
theorem Once.move (hc : Once cost spender already c h) (hs : c.sessions[i]? = some s)
    (hd : s.done = none) (htag : s'.tag = s.tag) (hx : Exclusive ⟨db, x, c.sessions.set i s'⟩)
    (hattr : Attributed ⟨db, x, c.sessions.set i s'⟩ h')
    (hle : spent cost h'.all ≤ spent cost h.all ∨ spender s.tag = true)
    (hbudget : s'.done = none → s'.prog.Costs (cost s.tag)
      (allowance (spender s.tag) (already + spent cost h'.all)))
    (hfree : ∀ e ∈ h'.all, spender e.1 = false → cost e.1 e.2 = 0)
    (honce : already + spent cost h'.all ≤ 1) :
    Once cost spender already ⟨db, x, c.sessions.set i s'⟩ h' where
  exclusive := hx
  attributed := hattr
  free := hfree
  once := honce
  alone j k t u ht hu hdt hdu hst hsu := by
    rcases getElem?_set_cases ht with ⟨hj, htj⟩ | ⟨-, ht⟩
    · rcases getElem?_set_cases hu with ⟨hk, -⟩ | ⟨-, hu⟩
      · exact hj.trans hk.symm
      · rw [htj, htag] at hst
        exact hj.trans (hc.alone i k s u hs hu hd hdu hst hsu)
    · rcases getElem?_set_cases hu with ⟨hk, huk⟩ | ⟨-, hu⟩
      · rw [huk, htag] at hsu
        exact (hc.alone j i t s ht hs hdt hd hst hsu).trans hk.symm
      · exact hc.alone j k t u ht hu hdt hdu hst hsu
  budget j t ht hdt := by
    rcases getElem?_set_cases ht with ⟨-, rfl⟩ | ⟨hj, ht⟩
    · rw [htag]
      exact hbudget hdt
    · have hold := hc.budget j t ht hdt
      cases hst : spender t.tag with
      | false => rwa [hst] at hold
      | true =>
          rw [hst] at hold
          rcases hle with hle | hspender
          · exact hold.mono (Nat.sub_le_sub_left (Nat.add_le_add_left hle already) 1)
          · exact absurd (hc.alone j i t s ht hs hdt hd hst hspender) hj

omit [Statement Q σ] in
/-- A session gives the lock back, if it holds it: what is spent does not grow. -/
theorem Once.close (hc : Once cost spender already c h) (hs : c.sessions[i]? = some s)
    (hd : s.done = none) (htag : s'.tag = s.tag) (hx : Exclusive ⟨db, x, c.sessions.set i s'⟩)
    (hattr : Attributed ⟨db, x, c.sessions.set i s'⟩ h') (hall : h'.all = h.all ∨ h'.all = h.committed)
    (hbudget : s'.done = none → h'.all = h.all ∧ s'.prog.Costs (cost s.tag)
      (allowance (spender s.tag) (already + spent cost h.all))) :
    Once cost spender already ⟨db, x, c.sessions.set i s'⟩ h' := by
  have hle : spent cost h'.all ≤ spent cost h.all := by
    rcases hall with hall | hall
    · exact Nat.le_of_eq (congrArg (spent cost) hall)
    · rw [hall, History.all, spent_append]
      exact Nat.le_add_right _ _
  refine hc.move hs hd htag hx hattr (Or.inl hle) (fun hd' => ?_) (fun e he => hc.free e ?_)
    (Nat.le_trans (Nat.add_le_add_left hle already) hc.once)
  · obtain ⟨heq, hcosts⟩ := hbudget hd'
    rw [heq]
    exact hcosts
  · rcases hall with hall | hall
    · exact hall ▸ he
    · exact List.mem_append_left _ (hall ▸ he)

/-- A move of a session keeps the invariant. -/
theorem Once.turn (hc : Once cost spender already c h) {a : Act τ ε} (hs : c.sessions[i]? = some s)
    (hd : s.done = none) (hl : Logs c h a i s db x s' h')
    (hx : Exclusive ⟨db, x, c.sessions.set i s'⟩)
    (hattr : Attributed ⟨db, x, c.sessions.set i s'⟩ h') :
    Once cost spender already ⟨db, x, c.sessions.set i s'⟩ h' := by
  have hcommit : (if s.own.isSome then h.commit else h).all = h.all := by
    split
    · exact h.all_commit
    · rfl
  have hrollback : (if s.own.isSome then h.rollback else h).all = h.all ∨
      (if s.own.isSome then h.rollback else h).all = h.committed := by
    split
    · exact Or.inr h.all_rollback
    · exact Or.inl rfl
  have hcosts := hc.budget i s hs hd
  cases hl with
  | ret _ => exact hc.close hs hd rfl hx hattr (Or.inl hcommit) nofun
  | raise _ | fail => exact hc.close hs hd rfl hx hattr hrollback nofun
  | select hp | io hp =>
      rw [hp] at hcosts
      exact hc.close hs hd rfl hx hattr (Or.inl rfl) fun _ => ⟨rfl, hcosts _⟩
  | commit hp =>
      rw [hp] at hcosts
      exact hc.close hs hd rfl hx hattr (Or.inl hcommit) fun _ => ⟨hcommit, hcosts⟩
  | @write q k hp _ _ =>
      rw [hp] at hcosts
      obtain ⟨hq, hrest⟩ := hcosts
      have honce := hc.once
      have hall : spent cost (History.all { h with pending := h.pending ++ [(s.tag, q)] }) =
          spent cost h.all + cost s.tag q := by
        simp only [History.all, ← List.append_assoc, spent_append, spent_singleton]
      have hfree : ∀ e ∈ History.all { h with pending := h.pending ++ [(s.tag, q)] },
          spender e.1 = false → cost e.1 e.2 = 0 := by
        intro e he hspender
        simp only [History.all, ← List.append_assoc] at he
        rcases List.mem_append.mp he with he | he
        · exact hc.free e he hspender
        · rw [List.mem_singleton.mp he] at hspender ⊢
          rw [show spender s.tag = false from hspender] at hq
          exact Nat.le_zero.mp hq
      cases hspender : spender s.tag with
      | false =>
          rw [hspender] at hq hrest
          have hzero : cost s.tag q = 0 := Nat.le_zero.mp hq
          rw [hzero, Nat.add_zero] at hall
          refine hc.move hs hd rfl hx hattr (Or.inl (Nat.le_of_eq hall)) (fun _ => ?_) hfree (hall ▸ honce)
          rw [hspender]
          exact (hrest _).mono (Nat.sub_le _ _)
      | true =>
          rw [hspender] at hq hrest
          simp only [allowance, if_true] at hq hrest
          refine hc.move hs hd rfl hx hattr (Or.inr hspender) (fun _ => ?_) hfree (by omega)
          rw [hspender, hall]
          exact (hrest _).mono (by simp only [allowance, if_true]; omega)

omit [Statement Q σ] in
/-- Without a live spender the open transaction spends nothing. -/
theorem Once.pending_free (hc : Once cost spender already c h)
    (hidle : ∀ s ∈ c.sessions, spender s.tag = true → s.done.isSome = true) :
    spent cost h.pending = 0 := by
  by_cases hown : ∃ (i : Nat) (t : _), c.sessions[i]? = some t ∧ t.own.isSome = true
  · obtain ⟨i, t, ht, ho⟩ := hown
    obtain ⟨hd, htags⟩ := hc.attributed.tags i t ht ho
    refine spent_eq_zero fun e he => hc.free e (List.mem_append_right _ he) ?_
    rw [htags e he, ← Bool.not_eq_true]
    intro hspender
    have := hidle t (List.mem_of_getElem? ht) hspender
    rw [hd] at this
    cases this
  · rw [hc.attributed.idle fun i t ht => ?_]
    · rfl
    · by_contra hne
      exact hown ⟨i, t, ht, Option.isSome_iff_ne_none.mpr hne⟩

variable {code : τ → Prog Q σ φ ε α}

/-- An action keeps the invariant, when a spender starts only if no other is live and nothing is
spent. -/
theorem Once.step
    (hcode : ∀ t, (code t).Costs (cost t) (allowance (spender t) 0))
    (hc : Once cost spender already c h) {a : Act τ ε} (hstep : c.step code a = some c')
    (hspawn : ∀ t, a = .spawn t → spender t = true →
      (∀ s ∈ c.sessions, spender s.tag = true → s.done.isSome = true) ∧
        already + spent cost h.committed = 0) :
    Once cost spender already c' (c.record h a) := by
  have hx := hc.exclusive.step code hstep
  have hattr := hc.attributed.step code hc.exclusive hstep
  rcases record_cases code hstep h with ⟨t, rfl, hrec, rfl⟩ | ⟨i, s, db, x, s', hs, hd, hl, rfl⟩
  · rw [hrec] at hattr ⊢
    refine ⟨hx, hattr, fun j k u v hu hv hdu hdv hsu hsv => ?_, fun j u hu hdu => ?_, hc.free, hc.once⟩
    · have hold : ∀ (i : Nat) w, c.sessions[i]? = some w → w.done = none → spender w.tag = true →
          spender t = true → False := by
        intro i w hw hdw hsw hst
        have := (hspawn t rfl hst).1 w (List.mem_of_getElem? hw) hsw
        rw [hdw] at this
        cases this
      rcases getElem?_append_singleton_cases hu with hu | ⟨hj, rfl⟩
      · rcases getElem?_append_singleton_cases hv with hv | ⟨hk, rfl⟩
        · exact hc.alone j k u v hu hv hdu hdv hsu hsv
        · exact (hold j u hu hdu hsu hsv).elim
      · rcases getElem?_append_singleton_cases hv with hv | ⟨hk, rfl⟩
        · exact (hold k v hv hdv hsv hsu).elim
        · exact hj.trans hk.symm
    · rcases getElem?_append_singleton_cases hu with hu | ⟨-, rfl⟩
      · exact hc.budget j u hu hdu
      · have hprog := hcode t
        cases hst : spender t with
        | false =>
            rw [hst] at hprog
            exact hst ▸ hprog
        | true =>
            obtain ⟨hidle, hzero⟩ := hspawn t rfl hst
            rw [History.all, spent_append, hc.pending_free hidle, Nat.add_zero, hzero]
            exact hprog
  · exact hc.turn hs hd hl hx hattr

end Once

end Conf

end Foundations
