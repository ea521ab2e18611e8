import GpuFleet.Foundations.Faults
import GpuFleet.Foundations.Sessions
import Mathlib.Algebra.GroupWithZero.Nat

/-!
# What sessions add to a count

A count of the database grows by a weight with each statement, and a program that
returns has executed statements of a fixed weight in all (`Prog.Spends`).  Sessions
side by side may fail at any statement, and what they had not committed is undone.

Then what a session has committed is between nothing and the weight of its operation,
and all of it once it has returned (`Conf.Tallied`).  So the count is at least what the
sessions that returned have added, and if operations commit at their end only, it is
exactly that (`Conf.Tallied.exact`): those that failed have added nothing.
-/

namespace Foundations

variable {τ Q σ φ ε α β : Type}

namespace Prog

/-- When the program returns, it has executed statements of this weight in all. -/
def Spends (f : Q → Nat) : Prog Q σ φ ε α → Nat → Prop
  | ret _, n => n = 0
  | raise _, _ => True
  | select k, n => ∀ w, (k w).Spends f n
  | write q k, n => f q ≤ n ∧ ∀ w, (k w).Spends f (n - f q)
  | io _ k, n => ∀ x, (k x).Spends f n
  | commit k, n => k.Spends f n

variable {f : Q → Nat} {m n : Nat}

/-- In a sequence the weights add up. -/
theorem Spends.bind {p : Prog Q σ φ ε α} {g : α → Prog Q σ φ ε β} (hp : p.Spends f m)
    (hg : ∀ a, (g a).Spends f n) : (p >>= g).Spends f (m + n) := by
  induction p generalizing m with
  | ret a =>
      obtain rfl : m = 0 := hp
      rw [Nat.zero_add]
      exact hg a
  | raise e => trivial
  | select k ih => exact fun w => ih w (hp w)
  | write q k ih =>
      obtain ⟨hle, hrest⟩ := hp
      refine ⟨Nat.le_trans hle (Nat.le_add_right m n), fun w => ?_⟩
      have hsub : m + n - f q = m - f q + n := by omega
      rw [hsub]
      exact ih w (hrest w)
  | io f k ih => exact fun x => ih x (hp x)
  | commit k ih => exact ih hp

/-- Statements of another kind have the weights that they are given. -/
theorem Spends.embed {Q' : Type} {g : Q → Q'} {w : Q' → Nat} {p : Prog Q σ φ ε α}
    (hp : p.Spends (fun q => w (g q)) n) : (p.embed g).Spends w n := by
  induction p generalizing n with
  | ret a => exact hp
  | raise e => trivial
  | select k ih => exact fun s => ih s (hp s)
  | write q k ih => exact ⟨hp.1, fun s => ih s (hp.2 s)⟩
  | io f k ih => exact fun x => ih x (hp x)
  | commit k ih => exact ih hp

/-- A program that executes only statements without weight. -/
theorem spends_of_avoids {post : α → Prop} {p : Prog Q σ φ ε α}
    (hp : p.Avoids (fun _ => True) (fun q => ¬ f q = 0) post) : p.Spends f 0 := by
  induction p with
  | ret a => rfl
  | raise e => trivial
  | select k ih => exact fun w => ih w (hp w trivial)
  | write q k ih =>
      have hq : f q = 0 := not_not.mp hp.1
      refine ⟨Nat.le_of_eq hq, fun w => ?_⟩
      rw [hq]
      exact ih w (hp.2 w trivial)
  | io f k ih => exact fun x => ih x (hp x)
  | commit k ih => exact ih hp

/-- What precedes has no weight. -/
theorem Spends.after {P : α → Prop} {p : Prog Q σ φ ε α} {g : α → Prog Q σ φ ε β}
    (hp : p.Avoids (fun _ => True) (fun q => ¬ f q = 0) P) (hg : ∀ a, (g a).Spends f n) :
    (p >>= g).Spends f n := by
  have hall := (spends_of_avoids hp).bind hg
  rwa [Nat.zero_add] at hall

/-- A statement, and then what has no weight. -/
theorem spends_execute {q : Q} {post : α → Prop} {g : Unit → Prog Q σ φ ε α}
    (hg : ∀ a, (g a).Avoids (fun _ => True) (fun q => ¬ f q = 0) post) :
    (execute q >>= g).Spends f (f q) := by
  refine ⟨Nat.le_refl _, fun w => ?_⟩
  rw [Nat.sub_self]
  exact spends_of_avoids (hg ())

end Prog

namespace Conf

/-! ## Sums of lists -/

theorem sum_set_add {l : List Nat} {i p : Nat} (k : Nat) (h : l[i]? = some p) :
    (l.set i (p + k)).sum = l.sum + k := by
  induction l generalizing i with
  | nil => cases h
  | cons a l ih =>
      cases i with
      | zero =>
          cases h
          simp only [List.set_cons_zero, List.sum_cons]
          omega
      | succ i =>
          have hrest := ih (i := i) h
          simp only [List.set_cons_succ, List.sum_cons]
          omega

/-- Lists of one length whose entries are in order have their sums in order. -/
theorem sum_map_le {γ : Type} {l : List γ} {w : γ → Nat} {paid : List Nat}
    (hlength : paid.length = l.length)
    (h : ∀ (i : Nat) s p, l[i]? = some s → paid[i]? = some p → w s ≤ p) : (l.map w).sum ≤ paid.sum := by
  induction l generalizing paid with
  | nil => exact Nat.zero_le _
  | cons s l ih =>
      cases paid with
      | nil => cases hlength
      | cons p paid =>
          have hhead := h 0 s p rfl rfl
          have htail := ih (Nat.succ.inj hlength) fun i s p hs hp => h (i + 1) s p hs hp
          simp only [List.map_cons, List.sum_cons]
          omega

theorem sum_le_map {γ : Type} {l : List γ} {w : γ → Nat} {paid : List Nat}
    (hlength : paid.length = l.length)
    (h : ∀ (i : Nat) s p, l[i]? = some s → paid[i]? = some p → p ≤ w s) : paid.sum ≤ (l.map w).sum := by
  induction l generalizing paid with
  | nil =>
      cases List.length_eq_zero_iff.mp hlength
      exact Nat.le_refl _
  | cons s l ih =>
      cases paid with
      | nil => cases hlength
      | cons p paid =>
          have hhead := h 0 s p rfl rfl
          have htail := ih (Nat.succ.inj hlength) fun i s p hs hp => h (i + 1) s p hs hp
          simp only [List.map_cons, List.sum_cons]
          omega

/-! ## The account of a session -/

variable [Statement Q σ]

/-- The session has committed a weight `p` so far, and holds another one uncommitted; once it
returns it has committed the weight of its operation. -/
def Pays (count : σ → Nat) (f : Q → Nat) (n : τ → Nat) (db : σ) (s : Session τ Q σ φ ε α) (p : Nat) :
    Prop :=
  match s.done with
  | none => ∃ held rest, count (s.view db) = count db + held ∧ p + held + rest = n s.tag ∧
      s.prog.Spends f rest
  | some (.ok _) => p = n s.tag
  | some (.error _) => p ≤ n s.tag

/-- What the session has added for certain. -/
def earned (n : τ → Nat) (s : Session τ Q σ φ ε α) : Nat :=
  match s.done with
  | some (.ok _) => n s.tag
  | _ => 0

variable {count : σ → Nat} {f : Q → Nat} {n : τ → Nat} {P : τ → Prop} {start : Nat}
  {code : τ → Prog Q σ φ ε α} {db : σ} {s : Session τ Q σ φ ε α} {p : Nat}

omit [Statement Q σ] in
theorem pays_live (h : s.done = none) : Pays count f n db s p ↔
    ∃ held rest, count (s.view db) = count db + held ∧ p + held + rest = n s.tag ∧
      s.prog.Spends f rest := by
  simp [Pays, h]

omit [Statement Q σ] in
theorem Pays.le (h : Pays count f n db s p) : p ≤ n s.tag := by
  unfold Pays at h
  split at h
  · obtain ⟨held, rest, -, hsum, -⟩ := h
    omega
  · exact Nat.le_of_eq h
  · exact h

omit [Statement Q σ] in
theorem Pays.earned_le (h : Pays count f n db s p) : earned n s ≤ p := by
  unfold earned
  split
  · rename_i hdone
    simp only [Pays, hdone] at h
    exact Nat.le_of_eq h.symm
  · exact Nat.zero_le p

omit [Statement Q σ] in
theorem Pays.fails (h : Pays count f n db s p) (e : ε) : Pays count f n db (s.finish (.error e)) p :=
  h.le

omit [Statement Q σ] in
/-- A session without a working copy of its own holds nothing, whatever others commit. -/
theorem Pays.moved (h : Pays count f n db s p) (hown : s.own = none) (db' : σ) :
    Pays count f n db' s p := by
  unfold Pays at h ⊢
  split
  · rename_i hdone
    rw [hdone] at h
    obtain ⟨held, rest, hheld, hsum, hrest⟩ := h
    rw [Session.view_of_own_none hown] at hheld
    refine ⟨0, rest, by rw [Session.view_of_own_none hown, Nat.add_zero], ?_, hrest⟩
    omega
  · rename_i hdone
    rw [hdone] at h
    exact h
  · rename_i hdone
    rw [hdone] at h
    exact h

/-- The account of the session that moves: it may commit more. -/
theorem Pays.move {c : Conf τ Q σ φ ε α} {i : Nat} {s' : Session τ Q σ φ ε α} {x : φ}
    (hcount : ∀ q w, count (Statement.apply q w) = count w + f q) (hd : s.done = none)
    (h : Pays count f n c.db s p) (hm : Move c i s db x s') :
    ∃ k, count db = count c.db + k ∧ Pays count f n db s' (p + k) := by
  obtain ⟨held, rest, hheld, hsum, hrest⟩ := (pays_live hd).mp h
  have going : ∀ {t : Session τ Q σ φ ε α} {w : σ} {r : Nat}, t.done = s.done →
      (∃ held rest, count (t.view w) = count w + held ∧ r + held + rest = n t.tag ∧
        t.prog.Spends f rest) → Pays count f n w t r :=
    fun hdone => (pays_live (hdone.trans hd)).mpr
  cases hm with
  | ret hp =>
      rw [hp] at hrest
      have hzero : rest = 0 := hrest
      refine ⟨held, hheld, ?_⟩
      show p + held = n s.tag
      omega
  | raise hp => exact ⟨0, rfl, h.fails _⟩
  | fail => exact ⟨0, rfl, h.fails _⟩
  | select hp =>
      rw [hp] at hrest
      exact ⟨0, rfl, going rfl ⟨held, rest, hheld, hsum, hrest _⟩⟩
  | io hp =>
      rw [hp] at hrest
      exact ⟨0, rfl, going rfl ⟨held, rest, hheld, hsum, hrest _⟩⟩
  | @write q k hp hl =>
      rw [hp] at hrest
      obtain ⟨hle, hafter⟩ := hrest
      refine ⟨0, rfl, going rfl ⟨held + f q, rest - f q, ?_, ?_, hafter _⟩⟩
      · show count (Statement.apply q (s.view c.db)) = _
        rw [hcount, hheld, Nat.add_assoc]
      · show p + 0 + (held + f q) + (rest - f q) = n s.tag
        omega
  | @commit k hp =>
      rw [hp] at hrest
      refine ⟨held, hheld, going rfl ⟨0, rest, rfl, ?_, hrest⟩⟩
      show p + held + 0 + rest = n s.tag
      omega

/-! ## The accounts of all sessions -/

variable (count f n P start) in
/-- Each session has committed its part of what the count has grown by, and those that commit at
their end only have committed nothing before they return. -/
structure Tallied (c : Conf τ Q σ φ ε α) : Prop where
  exclusive : c.Exclusive
  atEnd : c.CommitsAtEnd P
  accounts : ∃ paid : List Nat, paid.length = c.sessions.length ∧ count c.db = start + paid.sum ∧
    ∀ (i : Nat) s p, c.sessions[i]? = some s → paid[i]? = some p → Pays count f n c.db s p ∧
      (P s.tag → p ≤ earned n s)

omit [Statement Q σ] in
theorem tallied_init (db : σ) (x : φ) :
    Tallied count f n P (count db) (init db x : Conf τ Q σ φ ε α) where
  exclusive := exclusive_init db x
  atEnd := commitsAtEnd_init db x
  accounts := ⟨[], rfl, rfl, fun i s p hs => by simp [init] at hs⟩

variable {c c' : Conf τ Q σ φ ε α} {a : Act τ ε}

theorem Tallied.step (hcount : ∀ q w, count (Statement.apply q w) = count w + f q)
    (hspends : ∀ t, (code t).Spends f (n t)) (honce : ∀ t, P t → (code t).OneTransaction)
    (hc : Tallied count f n P start c) (h : c.step code a = some c') :
    Tallied count f n P start c' := by
  refine ⟨hc.exclusive.step code h, hc.atEnd.step code honce h, ?_⟩
  obtain ⟨paid, hlength, htotal, hpays⟩ := hc.accounts
  rcases step_cases code h with ⟨t, -, rfl⟩ | ⟨i, s, db, x, s', -, hs, hd, hm, rfl⟩
  · -- A new session has committed nothing.
    refine ⟨paid ++ [0], ?_, ?_, fun i u p hu hp => ?_⟩
    · simp [hlength]
    · rw [List.sum_append]
      exact htotal
    · rcases getElem?_append_singleton_cases hu with hu | ⟨rfl, rfl⟩
      · have hi := (List.getElem?_eq_some_iff.mp hu).1
        rw [List.getElem?_append_left (hlength ▸ hi)] at hp
        exact hpays i u p hu hp
      · rw [← hlength, List.getElem?_concat_length] at hp
        cases hp
        refine ⟨(pays_live rfl).mpr ⟨0, n t, rfl, ?_, hspends t⟩, fun _ => Nat.zero_le _⟩
        show 0 + 0 + n t = n t
        omega
  · have hi : i < paid.length := hlength ▸ (List.getElem?_eq_some_iff.mp hs).1
    have hp : paid[i]? = some paid[i] := List.getElem?_eq_getElem hi
    obtain ⟨hpay, hcap⟩ := hpays i s paid[i] hs hp
    obtain ⟨k, hk, hmoved⟩ := hpay.move hcount hd hm
    refine ⟨paid.set i (paid[i] + k), ?_, ?_, fun j u q hu hq => ?_⟩
    · rw [List.length_set, List.length_set, hlength]
    · show count db = _
      rw [hk, htotal, sum_set_add k hp, Nat.add_assoc]
    · rcases getElem?_set_cases hu with ⟨rfl, rfl⟩ | ⟨hji, hu⟩
      · rw [List.getElem?_set_self hi] at hq
        cases hq
        refine ⟨hmoved, fun hP => ?_⟩
        rw [hm.tag_eq] at hP
        have hzero : paid[j] ≤ 0 := by
          have hle := hcap hP
          rwa [earned, hd] at hle
        -- Without a commit the count stays.
        have hstays : count c.db = count c.db + k → paid[j] + k ≤ 0 := fun hsame => by omega
        cases hm with
        | ret hprog => exact Nat.le_of_eq hmoved
        | commit hprog =>
            have hone := hc.atEnd j s hs hP hd
            rw [hprog] at hone
            exact hone.elim
        | raise _ | select _ | write _ _ | io _ | fail =>
            exact Nat.le_trans (hstays hk) (Nat.zero_le _)
      · rw [List.getElem?_set_ne (Ne.symm hji)] at hq
        obtain ⟨hpay', hcap'⟩ := hpays j u q hu hq
        refine ⟨?_, hcap'⟩
        rcases hc.exclusive.view_other hs hm hji hu with hdb | ⟨hown, hdb⟩
        · show Pays count f n db u q
          rw [hdb]
          exact hpay'
        · exact hpay'.moved hown db

omit [Statement Q σ] in
/-- The count has grown at least by what the sessions that returned have added. -/
theorem Tallied.le (hc : Tallied count f n P start c) :
    start + (c.sessions.map (earned n)).sum ≤ count c.db := by
  obtain ⟨paid, hlength, htotal, hpays⟩ := hc.accounts
  have hle : (c.sessions.map (earned n)).sum ≤ paid.sum :=
    sum_map_le hlength fun i s p hs hp => (hpays i s p hs hp).1.earned_le
  omega

omit [Statement Q σ] in
/-- It has grown at most by what the operations begun can add. -/
theorem Tallied.bounded (hc : Tallied count f n P start c) :
    count c.db ≤ start + (c.sessions.map fun s => n s.tag).sum := by
  obtain ⟨paid, hlength, htotal, hpays⟩ := hc.accounts
  have hle : paid.sum ≤ (c.sessions.map fun s => n s.tag).sum :=
    sum_le_map hlength fun i s p hs hp => (hpays i s p hs hp).1.le
  omega

omit [Statement Q σ] in
/-- If the operations with a weight commit at their end only, it has grown by exactly that. -/
theorem Tallied.exact (hc : Tallied count f n P start c) (hP : ∀ t, P t ∨ n t = 0) :
    count c.db = start + (c.sessions.map (earned n)).sum := by
  refine Nat.le_antisymm ?_ hc.le
  obtain ⟨paid, hlength, htotal, hpays⟩ := hc.accounts
  have hle : paid.sum ≤ (c.sessions.map (earned n)).sum := by
    refine sum_le_map hlength fun i s p hs hp => ?_
    obtain ⟨hpay, hcap⟩ := hpays i s p hs hp
    rcases hP s.tag with hone | hzero
    · exact hcap hone
    · have hle := hpay.le
      omega
  omega

/-- In every run the accounts are in order. -/
theorem tallied_run (hcount : ∀ q w, count (Statement.apply q w) = count w + f q)
    (hspends : ∀ t, (code t).Spends f (n t)) (honce : ∀ t, P t → (code t).OneTransaction)
    {x : φ} {as : List (Act τ ε)}
    (h : (init db x : Conf τ Q σ φ ε α).run code as = some c) : Tallied count f n P (count db) c :=
  run_induction code (fun _ _ _ hc h => hc.step hcount hspends honce h) h (tallied_init db x)

omit [Statement Q σ] in
/-- What is earned one by one. -/
theorem sum_earned {l : List (Session τ Q σ φ ε α)} {p : τ → Bool}
    (hn : ∀ t, n t = if p t then 1 else 0) :
    (l.map (earned n)).sum = l.countP fun s => s.done.any Except.isOk && p s.tag := by
  induction l with
  | nil => rfl
  | cons s l ih =>
      rw [List.map_cons, List.sum_cons, ih, List.countP_cons, Nat.add_comm]
      refine congrArg _ ?_
      cases hdone : s.done with
      | none => simp [earned, hdone]
      | some result =>
          cases result with
          | error e => simp [earned, hdone, Except.isOk, Except.toBool]
          | ok a => simp [earned, hdone, hn, Except.isOk, Except.toBool]

omit [Statement Q σ] in
/-- What can be added one by one. -/
theorem sum_begun {l : List (Session τ Q σ φ ε α)} {p : τ → Bool}
    (hn : ∀ t, n t = if p t then 1 else 0) :
    (l.map fun s => n s.tag).sum = l.countP fun s => p s.tag := by
  induction l with
  | nil => rfl
  | cons s l ih =>
      rw [List.map_cons, List.sum_cons, ih, List.countP_cons, Nat.add_comm, hn]

end Conf

end Foundations
