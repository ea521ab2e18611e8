import GpuFleet.Foundations.Prog

/-!
# Weakest preconditions of programs run alone

`wp P exn post p w` says of the program `p`, run alone from the working copy
`w`: every writing statement satisfies `P` on the working copy it finds, a
result and the working copy it leaves satisfy `post`, and an exception and the
working copy it leaves satisfy `exn`.  Whatever the outside state answers.

The rules follow the constructors, and sequencing composes.  Two consequences
take them to runs: an invariant that statements satisfying `P` keep holds of
what is committed (`wp.dbAfter`), and a program that raises nothing returns and
commits its working copy (`wp.returns`).

`ends exn post p c w` speaks of both databases at the end, the one last
committed and the working copy, and so of what a run leaves behind also when it
raises (`ends.after`).
-/

namespace Foundations

namespace Prog

variable {Q σ φ ε ε' α β γ : Type} [Statement Q σ]

/-- The weakest precondition. -/
def wp (P : Q → σ → Prop) (exn : ε → σ → Prop) (post : α → σ → Prop) :
    Prog Q σ φ ε α → σ → Prop
  | ret a, w => post a w
  | raise e, w => exn e w
  | select k, w => (k w).wp P exn post w
  | write q k, w => P q w ∧ (k w).wp P exn post (Statement.apply q w)
  | io _ k, w => ∀ x, (k x).wp P exn post w
  | commit k, w => k.wp P exn post w

section Rules

variable {P : Q → σ → Prop} {exn : ε → σ → Prop} {post : α → σ → Prop} {w : σ}

@[simp] theorem wp_ret (a : α) :
    (ret a : Prog Q σ φ ε α).wp P exn post w = post a w := rfl

@[simp] theorem wp_raise (e : ε) :
    (raise e : Prog Q σ φ ε α).wp P exn post w = exn e w := rfl

@[simp] theorem wp_select (k : σ → Prog Q σ φ ε α) :
    (select k).wp P exn post w = (k w).wp P exn post w := rfl

@[simp] theorem wp_write (q : Q) (k : σ → Prog Q σ φ ε α) :
    (write q k).wp P exn post w =
      (P q w ∧ (k w).wp P exn post (Statement.apply q w)) := rfl

@[simp] theorem wp_io (f : φ → φ) (k : φ → Prog Q σ φ ε α) :
    (io f k).wp P exn post w = ∀ x, (k x).wp P exn post w := rfl

@[simp] theorem wp_commit (k : Prog Q σ φ ε α) :
    (commit k).wp P exn post w = k.wp P exn post w := rfl

@[simp] theorem wp_query (f : σ → α) :
    (query f : Prog Q σ φ ε α).wp P exn post w = post (f w) w := rfl

@[simp] theorem wp_execute {post : Unit → σ → Prop} (q : Q) :
    (execute q : Prog Q σ φ ε Unit).wp P exn post w =
      (P q w ∧ post () (Statement.apply q w)) := rfl

@[simp] theorem wp_executeReturning (q : Q) (f : σ → α) :
    (executeReturning q f : Prog Q σ φ ε α).wp P exn post w =
      (P q w ∧ post (f w) (Statement.apply q w)) := rfl

@[simp] theorem wp_effect {post : Unit → σ → Prop} (f : φ → φ) :
    (effect f : Prog Q σ φ ε Unit).wp P exn post w = (φ → post () w) := rfl

/-- A sequence: the rest starts from what its first part leaves. -/
theorem wp_bind {post : β → σ → Prop} (p : Prog Q σ φ ε α) (g : α → Prog Q σ φ ε β) :
    (p >>= g).wp P exn post w = p.wp P exn (fun a w' => (g a).wp P exn post w') w := by
  induction p generalizing w with
  | ret a => rfl
  | raise e => rfl
  | select k ih => exact ih w
  | write q k ih => exact congrArg (P q w ∧ ·) (ih w)
  | io f k ih => exact forall_congr fun x => ih x
  | commit k ih => exact ih

/-- A handler starts from what the exception leaves. -/
theorem wp_tryCatch {exn : ε' → σ → Prop} (p : Prog Q σ φ ε α) (h : ε → Prog Q σ φ ε' α) :
    (p.tryCatch h).wp P exn post w = p.wp P (fun e w' => (h e).wp P exn post w') post w := by
  induction p generalizing w with
  | ret a => rfl
  | raise e => rfl
  | select k ih => exact ih w
  | write q k ih => exact congrArg (P q w ∧ ·) (ih w)
  | io f k ih => exact forall_congr fun x => ih x
  | commit k ih => exact ih

theorem wp_mono {P' : Q → σ → Prop} {exn' : ε → σ → Prop} {post' : α → σ → Prop}
    {p : Prog Q σ φ ε α} (h : p.wp P exn post w) (hP : ∀ q w, P q w → P' q w)
    (hexn : ∀ e w, exn e w → exn' e w) (hpost : ∀ a w, post a w → post' a w) :
    p.wp P' exn' post' w := by
  induction p generalizing w with
  | ret a => exact hpost a w h
  | raise e => exact hexn e w h
  | select k ih => exact ih w h
  | write q k ih => exact ⟨hP q w h.1, ih w h.2⟩
  | io f k ih => exact fun x => ih x (h x)
  | commit k ih => exact ih h

/-- A weaker postcondition. -/
theorem wp_imp {post' : α → σ → Prop} {p : Prog Q σ φ ε α} (h : p.wp P exn post w)
    (hpost : ∀ a w, post a w → post' a w) : p.wp P exn post' w :=
  wp_mono h (fun _ _ => id) (fun _ _ => id) hpost

/-- Two things a program does at once. -/
theorem wp_and {P' : Q → σ → Prop} {exn' : ε → σ → Prop} {post' : α → σ → Prop}
    {p : Prog Q σ φ ε α} (h : p.wp P exn post w) (h' : p.wp P' exn' post' w) :
    p.wp (fun q w => P q w ∧ P' q w) (fun e w => exn e w ∧ exn' e w)
      (fun a w => post a w ∧ post' a w) w := by
  induction p generalizing w with
  | ret a => exact ⟨h, h'⟩
  | raise e => exact ⟨h, h'⟩
  | select k ih => exact ih w h h'
  | write q k ih => exact ⟨⟨h.1, h'.1⟩, ih w h.2 h'.2⟩
  | io f k ih => exact fun x => ih x (h x) (h' x)
  | commit k ih => exact ih h h'

/-- A loop whose invariant speaks of the elements still to come. -/
theorem wp_forEach {I : List β → σ → Prop} {body : β → Prog Q σ φ ε Unit} {l : List β}
    (h : ∀ b l w, I (b :: l) w → (body b).wp P exn (fun _ w' => I l w') w) (hw : I l w) :
    (forEach l body).wp P exn (fun _ w' => I [] w') w := by
  induction l generalizing w with
  | nil => exact hw
  | cons b l ih =>
      rw [forEach_cons, wp_bind]
      exact wp_imp (h b l w hw) fun _ w' hw' => ih hw'

/-- An invariant of every statement is one of the program. -/
theorem wp_inv {I : σ → Prop} {p : Prog Q σ φ ε α} (h : p.wp P exn post w)
    (hI : ∀ q w, P q w → I w → I (Statement.apply q w)) (hw : I w) :
    p.wp P (fun e w' => exn e w' ∧ I w') (fun a w' => post a w' ∧ I w') w := by
  induction p generalizing w with
  | ret a => exact ⟨h, hw⟩
  | raise e => exact ⟨h, hw⟩
  | select k ih => exact ih w h hw
  | write q k ih => exact ⟨h.1, ih w h.2 (hI q w h.1 hw)⟩
  | io f k ih => exact fun x => ih x (h x) hw
  | commit k ih => exact ih h hw

/-- A program that avoids some statements, whatever it reads, also avoids them here. -/
theorem wp_avoids {bad : Q → Prop} {R : α → Prop} {p : Prog Q σ φ ε α}
    (h : p.wp P exn post w) (hp : p.Avoids (fun _ => True) bad R) :
    p.wp (fun q w => P q w ∧ ¬ bad q) exn post w := by
  induction p generalizing w with
  | ret a => exact h
  | raise e => exact h
  | select k ih => exact ih w h (hp w trivial)
  | write q k ih => exact ⟨⟨h.1, hp.1⟩, ih w h.2 (hp.2 w trivial)⟩
  | io f k ih => exact fun x => ih x (h x) (hp x)
  | commit k ih => exact ih h hp

/-- A program that avoids some statements executes others only. -/
theorem Avoids.wp {bad : Q → Prop} {R : α → Prop} {p : Prog Q σ φ ε α}
    (hp : p.Avoids (fun _ => True) bad R) (hP : ∀ q w, ¬ bad q → P q w) (w : σ) :
    p.wp P (fun _ _ => True) (fun a _ => R a) w := by
  induction p generalizing w with
  | ret a => exact hp
  | raise e => trivial
  | select k ih => exact ih w (hp w trivial) w
  | write q k ih => exact ⟨hP q w hp.1, ih _ (hp.2 _ trivial) _⟩
  | io f k ih => exact fun x => ih x (hp x) w
  | commit k ih => exact ih hp w

end Rules

section Runs

variable {P : Q → σ → Prop} {exn : ε → σ → Prop} {post : α → σ → Prop}
variable {p : Prog Q σ φ ε α} {c w : σ} (x : φ)

/-- What a run ends with. -/
theorem wp.exec (h : p.wp P exn post w) :
    match (p.exec c w x).result with
    | .ok a => post a (p.exec c w x).working
    | .error e => exn e (p.exec c w x).working := by
  induction p generalizing c w x with
  | ret a => exact h
  | raise e => exact h
  | select k ih => exact ih w x h
  | write q k ih => exact ih w x h.2
  | io f k ih => exact ih x _ (h x)
  | commit k ih => exact ih x h

/-- An invariant that statements keep holds of the working copy and of what was committed. -/
theorem wp.exec_inv {I : σ → Prop} (h : p.wp P exn post w)
    (hI : ∀ q w, P q w → I w → I (Statement.apply q w)) (hc : I c) (hw : I w) :
    I (p.exec c w x).committed ∧ I (p.exec c w x).working := by
  induction p generalizing c w x with
  | ret a => exact ⟨hc, hw⟩
  | raise e => exact ⟨hc, hw⟩
  | select k ih => exact ih w x h hc hw
  | write q k ih => exact ih w x h.2 hc (hI q w h.1 hw)
  | io f k ih => exact ih x _ (h x) hc hw
  | commit k ih => exact ih x h hw hw

/-- An invariant that statements keep holds of what a run alone commits. -/
theorem wp.dbAfter {I : σ → Prop} {s : σ} (h : p.wp P exn post s)
    (hI : ∀ q w, P q w → I w → I (Statement.apply q w)) (hs : I s) : I (p.dbAfter s x) := by
  obtain ⟨hc, hw⟩ := h.exec_inv x hI hs hs
  simp only [Prog.dbAfter, atomic, Out.close]
  split
  · exact hw
  · exact hc

/-- A run alone that returned left the working copy its result speaks of. -/
theorem wp.ok {s : σ} {a : α} (h : p.wp P exn post s) (ha : p.resultOf s x = .ok a) :
    post a (p.dbAfter s x) := by
  have hx := h.exec (c := s) x
  simp only [resultOf, Prog.dbAfter, atomic, Out.close] at ha ⊢
  cases hr : (p.exec s s x).result with
  | ok b =>
      simp only [hr, Except.ok.injEq] at ha hx ⊢
      exact ha ▸ hx
  | error e => simp only [hr] at ha; cases ha

theorem wp.error {s : σ} {e : ε} (h : p.wp P exn post s) (he : p.resultOf s x = .error e) :
    ∃ w, exn e w := by
  have hx := h.exec (c := s) x
  simp only [resultOf, atomic, Out.close] at he
  cases hr : (p.exec s s x).result with
  | ok b => simp only [hr, reduceCtorEq] at he
  | error e' =>
      simp only [hr, Except.error.injEq] at he hx
      subst he
      exact ⟨_, hx⟩

/-- A program that raises nothing returns. -/
theorem wp.returns {s : σ} (h : p.wp P (fun _ _ => False) post s) :
    ∃ a, p.resultOf s x = .ok a ∧ post a (p.dbAfter s x) := by
  have hx := h.exec (c := s) x
  cases hr : (p.exec s s x).result with
  | ok a =>
      have ha : p.resultOf s x = .ok a := by simp only [resultOf, atomic, Out.close, hr]
      exact ⟨a, ha, h.ok x ha⟩
  | error e => rw [hr] at hx; exact hx.elim

/-- A program that returns nothing raises. -/
theorem wp.raises {s : σ} (h : p.wp P exn (fun _ _ => False) s) :
    ∃ e, p.resultOf s x = .error e ∧ ∃ w, exn e w := by
  have hx := h.exec (c := s) x
  cases hr : (p.exec s s x).result with
  | ok a => rw [hr] at hx; exact hx.elim
  | error e =>
      rw [hr] at hx
      exact ⟨e, by simp only [resultOf, atomic, Out.close, hr], _, hx⟩

end Runs

/-! ## Reading -/

/-- The program only reads, and reads the same from both databases. -/
def ReadsAlike : Prog Q σ φ ε α → σ → σ → Prop
  | ret _, _, _ => True
  | raise _, _, _ => True
  | select k, s, t => k s = k t ∧ (k s).ReadsAlike s t
  | write _ _, _, _ => False
  | io _ _, _, _ => False
  | commit _, _, _ => False

section ReadsAlike

variable {s t : σ}

omit [Statement Q σ] in
theorem ReadsAlike.bind {p : Prog Q σ φ ε α} {g : α → Prog Q σ φ ε β} (hp : p.ReadsAlike s t)
    (hg : ∀ a, (g a).ReadsAlike s t) : (p >>= g).ReadsAlike s t := by
  induction p with
  | ret a => exact hg a
  | raise e => trivial
  | select k ih => exact ⟨congrArg (Prog.bind · g) hp.1, ih s hp.2⟩
  | write q k | io f k | commit k => exact hp.elim

omit [Statement Q σ] in
theorem readsAlike_query {f : σ → α} (h : f s = f t) :
    (query f : Prog Q σ φ ε α).ReadsAlike s t :=
  ⟨congrArg ret h, trivial⟩

/-- From either database the program comes to the same result. -/
theorem ReadsAlike.wp {P : Q → σ → Prop} {p : Prog Q σ φ ε α} (h : p.ReadsAlike s t) (x : φ) :
    p.wp P (fun _ _ => True) (fun a w => w = s ∧ p.resultOf t x = .ok a) s := by
  induction p with
  | ret a => exact ⟨rfl, rfl⟩
  | raise e => trivial
  | select k ih =>
      have hk := ih s h.2
      rw [h.1] at hk
      rw [wp_select, h.1]
      exact hk
  | write q k | io f k | commit k => exact h.elim

end ReadsAlike

/-! ## What a run leaves behind -/

/-- Run alone from the committed database `c` and the working copy `w`, the program ends with
databases in `post` or, after an exception, in `exn`. -/
def ends (exn : ε → σ → σ → Prop) (post : α → σ → σ → Prop) :
    Prog Q σ φ ε α → σ → σ → Prop
  | ret a, c, w => post a c w
  | raise e, c, w => exn e c w
  | select k, c, w => (k w).ends exn post c w
  | write q k, c, w => (k w).ends exn post c (Statement.apply q w)
  | io _ k, c, w => ∀ x, (k x).ends exn post c w
  | commit k, _, w => k.ends exn post w w

section Ends

variable {exn : ε → σ → σ → Prop} {post : α → σ → σ → Prop} {c w : σ}

@[simp] theorem ends_ret (a : α) :
    (ret a : Prog Q σ φ ε α).ends exn post c w = post a c w := rfl

@[simp] theorem ends_raise (e : ε) :
    (raise e : Prog Q σ φ ε α).ends exn post c w = exn e c w := rfl

@[simp] theorem ends_query (f : σ → α) :
    (query f : Prog Q σ φ ε α).ends exn post c w = post (f w) c w := rfl

@[simp] theorem ends_execute {post : Unit → σ → σ → Prop} (q : Q) :
    (execute q : Prog Q σ φ ε Unit).ends exn post c w = post () c (Statement.apply q w) := rfl

@[simp] theorem ends_executeReturning (q : Q) (f : σ → α) :
    (executeReturning q f : Prog Q σ φ ε α).ends exn post c w =
      post (f w) c (Statement.apply q w) := rfl

@[simp] theorem ends_effect {post : Unit → σ → σ → Prop} (f : φ → φ) :
    (effect f : Prog Q σ φ ε Unit).ends exn post c w = (φ → post () c w) := rfl

@[simp] theorem ends_commit (k : Prog Q σ φ ε α) :
    (commit k).ends exn post c w = k.ends exn post w w := rfl

/-- A sequence: the rest starts from what its first part leaves. -/
theorem ends_bind {post : β → σ → σ → Prop} (p : Prog Q σ φ ε α) (g : α → Prog Q σ φ ε β) :
    (p >>= g).ends exn post c w = p.ends exn (fun a c' w' => (g a).ends exn post c' w') c w := by
  induction p generalizing c w with
  | ret a => rfl
  | raise e => rfl
  | select k ih => exact ih w
  | write q k ih => exact ih w
  | io f k ih => exact forall_congr fun x => ih x
  | commit k ih => exact ih

/-- A handler starts from what the exception leaves. -/
theorem ends_tryCatch {exn : ε' → σ → σ → Prop} (p : Prog Q σ φ ε α)
    (h : ε → Prog Q σ φ ε' α) :
    (p.tryCatch h).ends exn post c w =
      p.ends (fun e c' w' => (h e).ends exn post c' w') post c w := by
  induction p generalizing c w with
  | ret a => rfl
  | raise e => rfl
  | select k ih => exact ih w
  | write q k ih => exact ih w
  | io f k ih => exact forall_congr fun x => ih x
  | commit k ih => exact ih

theorem ends_mono {exn' : ε → σ → σ → Prop} {post' : α → σ → σ → Prop} {p : Prog Q σ φ ε α}
    (h : p.ends exn post c w) (hexn : ∀ e c w, exn e c w → exn' e c w)
    (hpost : ∀ a c w, post a c w → post' a c w) : p.ends exn' post' c w := by
  induction p generalizing c w with
  | ret a => exact hpost a c w h
  | raise e => exact hexn e c w h
  | select k ih => exact ih w h
  | write q k ih => exact ih w h
  | io f k ih => exact fun x => ih x (h x)
  | commit k ih => exact ih h

/-- What a pass over a list keeps of both databases. -/
theorem ends_forEach {I : σ → σ → Prop} {body : β → Prog Q σ φ ε Unit} {l : List β}
    (h : ∀ b c w, I c w → (body b).ends exn (fun _ => I) c w) (hI : I c w) :
    (forEach l body).ends exn (fun _ => I) c w := by
  induction l generalizing c w with
  | nil => exact hI
  | cons b l ih =>
      rw [forEach_cons, ends_bind]
      exact ends_mono (h b c w hI) (fun _ _ _ => id) fun _ _ _ hI' => ih hI'

/-- The result and the database of a run alone: the working copy it commits, or the one last
committed before the exception. -/
theorem ends.after {s : σ} {p : Prog Q σ φ ε α} (x : φ) (h : p.ends exn post s s) :
    (∃ a c, p.resultOf s x = .ok a ∧ post a c (p.dbAfter s x)) ∨
      ∃ e w, p.resultOf s x = .error e ∧ exn e (p.dbAfter s x) w := by
  have hexec : ∀ (p : Prog Q σ φ ε α) (c w : σ) (x : φ), p.ends exn post c w →
      match (p.exec c w x).result with
      | .ok a => post a (p.exec c w x).committed (p.exec c w x).working
      | .error e => exn e (p.exec c w x).committed (p.exec c w x).working := by
    intro p
    induction p with
    | ret a => exact fun c w x h => h
    | raise e => exact fun c w x h => h
    | select k ih => exact fun c w x h => ih w c w x h
    | write q k ih => exact fun c w x h => ih w c _ x h
    | io f k ih => exact fun c w x h => ih x c w _ (h x)
    | commit k ih => exact fun c w x h => ih w w x h
  have hx := hexec p s s x h
  simp only [resultOf, Prog.dbAfter, atomic, Out.close]
  cases hr : (p.exec s s x).result with
  | ok a =>
      rw [hr] at hx
      exact Or.inl ⟨a, _, rfl, hx⟩
  | error e =>
      rw [hr] at hx
      exact Or.inr ⟨e, _, rfl, hx⟩

end Ends

end Prog

end Foundations
