import GpuFleet.Foundations.Prog

/-!
# Two programs run side by side

`abreast S T post p p' w w' x x'` says of two programs, each run alone from its
own working copy and outside state: they take the same kinds of steps, two
writing statements satisfy `S` on the working copies they find, two effects
satisfy `T` on the outside states before and after, either both return or both
raise, and `post` holds of two results and of what they leave.  What the
statements are and what they read may differ.

The rules follow the constructors, and sequencing composes.  A relation between
databases that statements satisfying `S` keep, and one between outside states
that effects satisfying `T` keep, hold of what the two runs leave
(`abreast.after`).  The second program can be the first, and then `S` and `T`
speak of one run.
-/

namespace Foundations

namespace Prog

variable {Q σ φ ε ε' α β γ δ : Type} [Statement Q σ]

/-- The two programs go side by side. -/
def abreast (S : Q → Q → σ → σ → Prop) (T : φ → φ → φ → φ → Prop)
    (post : α → β → σ → σ → φ → φ → Prop) :
    Prog Q σ φ ε α → Prog Q σ φ ε β → σ → σ → φ → φ → Prop
  | ret a, ret b, w, w', x, x' => post a b w w' x x'
  | raise _, raise _, _, _, _, _ => True
  | select k, select k', w, w', x, x' => (k w).abreast S T post (k' w') w w' x x'
  | write q k, write q' k', w, w', x, x' =>
      S q q' w w' ∧
        (k w).abreast S T post (k' w') (Statement.apply q w) (Statement.apply q' w') x x'
  | io f k, io f' k', w, w', x, x' =>
      T x x' (f x) (f' x') ∧ (k x).abreast S T post (k' x') w w' (f x) (f' x')
  | commit k, commit k', w, w', x, x' => k.abreast S T post k' w w' x x'
  | _, _, _, _, _, _ => False

section Rules

variable {S : Q → Q → σ → σ → Prop} {T : φ → φ → φ → φ → Prop}
variable {post : α → β → σ → σ → φ → φ → Prop} {w w' : σ} {x x' : φ}

@[simp] theorem abreast_ret (a : α) (b : β) :
    (ret a : Prog Q σ φ ε α).abreast S T post (ret b) w w' x x' = post a b w w' x x' := rfl

@[simp] theorem abreast_raise (e e' : ε) :
    (raise e : Prog Q σ φ ε α).abreast S T post (raise e') w w' x x' = True := rfl

@[simp] theorem abreast_select (k : σ → Prog Q σ φ ε α) (k' : σ → Prog Q σ φ ε β) :
    (select k).abreast S T post (select k') w w' x x' =
      (k w).abreast S T post (k' w') w w' x x' := rfl

@[simp] theorem abreast_write (q q' : Q) (k : σ → Prog Q σ φ ε α) (k' : σ → Prog Q σ φ ε β) :
    (write q k).abreast S T post (write q' k') w w' x x' =
      (S q q' w w' ∧ (k w).abreast S T post (k' w') (Statement.apply q w) (Statement.apply q' w')
        x x') := rfl

@[simp] theorem abreast_io (f f' : φ → φ) (k : φ → Prog Q σ φ ε α) (k' : φ → Prog Q σ φ ε β) :
    (io f k).abreast S T post (io f' k') w w' x x' =
      (T x x' (f x) (f' x') ∧ (k x).abreast S T post (k' x') w w' (f x) (f' x')) := rfl

@[simp] theorem abreast_commit (k : Prog Q σ φ ε α) (k' : Prog Q σ φ ε β) :
    (commit k).abreast S T post (commit k') w w' x x' = k.abreast S T post k' w w' x x' := rfl

@[simp] theorem abreast_query (f : σ → α) (f' : σ → β) :
    (query f : Prog Q σ φ ε α).abreast S T post (query f') w w' x x' =
      post (f w) (f' w') w w' x x' := rfl

@[simp] theorem abreast_execute {post : Unit → Unit → σ → σ → φ → φ → Prop} (q q' : Q) :
    (execute q : Prog Q σ φ ε Unit).abreast S T post (execute q') w w' x x' =
      (S q q' w w' ∧ post () () (Statement.apply q w) (Statement.apply q' w') x x') := rfl

@[simp] theorem abreast_executeReturning (q q' : Q) (f : σ → α) (f' : σ → β) :
    (executeReturning q f : Prog Q σ φ ε α).abreast S T post (executeReturning q' f') w w' x x' =
      (S q q' w w' ∧ post (f w) (f' w') (Statement.apply q w) (Statement.apply q' w') x x') := rfl

/-- A weaker postcondition. -/
theorem abreast.mono {post' : α → β → σ → σ → φ → φ → Prop} {p : Prog Q σ φ ε α}
    {p' : Prog Q σ φ ε β} (h : p.abreast S T post p' w w' x x')
    (hpost : ∀ a b v v' y y', post a b v v' y y' → post' a b v v' y y') :
    p.abreast S T post' p' w w' x x' := by
  induction p generalizing p' w w' x x' with
  | ret a => cases p' <;> first | exact hpost _ _ _ _ _ _ h | exact h.elim
  | raise e => cases p' <;> first | exact trivial | exact h.elim
  | select k ih => cases p' <;> first | exact ih w h | exact h.elim
  | write q k ih => cases p' <;> first | exact ⟨h.1, ih w h.2⟩ | exact h.elim
  | io f k ih => cases p' <;> first | exact ⟨h.1, ih x h.2⟩ | exact h.elim
  | commit k ih => cases p' <;> first | exact ih h | exact h.elim

/-- A sequence: the rests go side by side from what the first parts leave. -/
theorem abreast.bind {post : γ → δ → σ → σ → φ → φ → Prop} {p : Prog Q σ φ ε α}
    {p' : Prog Q σ φ ε β} {g : α → Prog Q σ φ ε γ} {g' : β → Prog Q σ φ ε δ}
    (h : p.abreast S T (fun a b v v' y y' => (g a).abreast S T post (g' b) v v' y y') p' w w' x x') :
    (p >>= g).abreast S T post (p' >>= g') w w' x x' := by
  induction p generalizing p' w w' x x' with
  | ret a => cases p' <;> first | exact h | exact h.elim
  | raise e => cases p' <;> first | exact trivial | exact h.elim
  | select k ih => cases p' <;> first | exact ih w h | exact h.elim
  | write q k ih => cases p' <;> first | exact ⟨h.1, ih w h.2⟩ | exact h.elim
  | io f k ih => cases p' <;> first | exact ⟨h.1, ih x h.2⟩ | exact h.elim
  | commit k ih => cases p' <;> first | exact ih h | exact h.elim

/-- Handlers that raise, whatever they catch. -/
theorem abreast.tryCatch {p : Prog Q σ φ ε α} {p' : Prog Q σ φ ε β} {h : ε → Prog Q σ φ ε' α}
    {h' : ε → Prog Q σ φ ε' β} (hp : p.abreast S T post p' w w' x x')
    (hraise : ∀ e, ∃ e', h e = raise e') (hraise' : ∀ e, ∃ e', h' e = raise e') :
    (p.tryCatch h).abreast S T post (p'.tryCatch h') w w' x x' := by
  induction p generalizing p' w w' x x' with
  | ret a => cases p' <;> first | exact hp | exact hp.elim
  | raise e =>
      cases p' with
      | raise e' =>
          obtain ⟨r, hr⟩ := hraise e
          obtain ⟨r', hr'⟩ := hraise' e'
          rw [tryCatch_raise, tryCatch_raise, hr, hr']
          trivial
      | _ => exact hp.elim
  | select k ih => cases p' <;> first | exact ih w hp | exact hp.elim
  | write q k ih => cases p' <;> first | exact ⟨hp.1, ih w hp.2⟩ | exact hp.elim
  | io f k ih => cases p' <;> first | exact ⟨hp.1, ih x hp.2⟩ | exact hp.elim
  | commit k ih => cases p' <;> first | exact ih hp | exact hp.elim

/-- The results are those of the two runs. -/
theorem abreast.actual {p : Prog Q σ φ ε α} {p' : Prog Q σ φ ε β}
    (h : p.abreast S T post p' w w' x x') (c c' : σ) :
    p.abreast S T (fun a b v v' y y' => post a b v v' y y' ∧
      (∃ d, p.exec c w x = ⟨.ok a, d, v, y⟩) ∧ ∃ d, p'.exec c' w' x' = ⟨.ok b, d, v', y'⟩)
      p' w w' x x' := by
  induction p generalizing p' c c' w w' x x' with
  | ret a => cases p' <;> first | exact ⟨h, ⟨c, rfl⟩, c', rfl⟩ | exact h.elim
  | raise e => cases p' <;> first | exact trivial | exact h.elim
  | select k ih => cases p' <;> first | exact ih w h c c' | exact h.elim
  | write q k ih => cases p' <;> first | exact ⟨h.1, ih w h.2 c c'⟩ | exact h.elim
  | io f k ih => cases p' <;> first | exact ⟨h.1, ih x h.2 c c'⟩ | exact h.elim
  | commit k ih => cases p' <;> first | exact ih h w w' | exact h.elim

end Rules

section Runs

variable {S : Q → Q → σ → σ → Prop} {T : φ → φ → φ → φ → Prop}
variable {post : α → β → σ → σ → φ → φ → Prop} {R : σ → σ → Prop} {E : φ → φ → Prop}

/-- The databases and the outside states that two runs end with are related, and both returned
or both raised. -/
structure Out.Alike (R : σ → σ → Prop) (E : φ → φ → Prop) (o : Out σ φ ε α) (o' : Out σ φ ε β) :
    Prop where
  committed : R o.committed o'.committed
  working : R o.working o'.working
  outside : E o.outside o'.outside
  returned : o.result.isOk = o'.result.isOk

/-- What two runs leave behind is related. -/
theorem Out.Alike.close {o : Out σ φ ε α} {o' : Out σ φ ε β} (h : o.Alike R E o') :
    R o.close.2.1 o'.close.2.1 ∧ E o.close.2.2 o'.close.2.2 := by
  obtain ⟨result, c, w, x⟩ := o
  obtain ⟨result', c', w', x'⟩ := o'
  obtain ⟨hcommitted, hworking, houtside, hreturned⟩ := h
  cases result with
  | error e =>
      cases result' with
      | error e' => exact ⟨hcommitted, houtside⟩
      | ok b => cases hreturned
  | ok a =>
      cases result' with
      | error e' => cases hreturned
      | ok b => exact ⟨hworking, houtside⟩

/-- Relations that the statements and the effects keep hold at the end. -/
theorem abreast.exec (hS : ∀ q q' w w', S q q' w w' → R w w' →
      R (Statement.apply q w) (Statement.apply q' w'))
    (hT : ∀ x x' y y', T x x' y y' → E x x' → E y y') {p : Prog Q σ φ ε α} {p' : Prog Q σ φ ε β}
    {c c' w w' : σ} {x x' : φ} (h : p.abreast S T post p' w w' x x') (hc : R c c') (hw : R w w')
    (hx : E x x') : (p.exec c w x).Alike R E (p'.exec c' w' x') := by
  induction p generalizing p' c c' w w' x x' with
  | ret a => cases p' <;> first | exact ⟨hc, hw, hx, rfl⟩ | exact h.elim
  | raise e => cases p' <;> first | exact ⟨hc, hw, hx, rfl⟩ | exact h.elim
  | select k ih =>
      cases p' with
      | select k' =>
          rw [abreast_select] at h
          have hrest := ih w h hc hw hx
          exact hrest
      | _ => exact h.elim
  | write q k ih =>
      cases p' with
      | write q' k' =>
          rw [abreast_write] at h
          have hrest := ih w h.2 hc (hS _ _ _ _ h.1 hw) hx
          exact hrest
      | _ => exact h.elim
  | io f k ih =>
      cases p' with
      | io f' k' =>
          rw [abreast_io] at h
          have hrest := ih x h.2 hc hw (hT _ _ _ _ h.1 hx)
          exact hrest
      | _ => exact h.elim
  | commit k ih =>
      cases p' with
      | commit k' =>
          rw [abreast_commit] at h
          have hrest := ih h hw hw hx
          exact hrest
      | _ => exact h.elim

/-- Such relations hold of what two runs alone commit, and of what they leave outside. -/
theorem abreast.after (hS : ∀ q q' w w', S q q' w w' → R w w' →
      R (Statement.apply q w) (Statement.apply q' w'))
    (hT : ∀ x x' y y', T x x' y y' → E x x' → E y y') {p : Prog Q σ φ ε α} {p' : Prog Q σ φ ε β}
    {s s' : σ} {x x' : φ} (h : p.abreast S T post p' s s' x x') (hs : R s s') (hx : E x x') :
    R (p.dbAfter s x) (p'.dbAfter s' x') ∧ E (p.outsideAfter s x) (p'.outsideAfter s' x') :=
  (h.exec hS hT hs hs hx).close

end Runs

/-- The database last committed does not matter to the result. -/
theorem exec_result (p : Prog Q σ φ ε α) (c w : σ) (x : φ) :
    (p.exec c w x).result = p.resultOf w x := by
  have hsame : ∀ (p : Prog Q σ φ ε α) (c d w : σ) (x : φ),
      (p.exec c w x).result = (p.exec d w x).result := by
    intro p
    induction p with
    | ret a => exact fun _ _ _ _ => rfl
    | raise e => exact fun _ _ _ _ => rfl
    | select k ih => exact fun c d w x => ih w c d w x
    | write q k ih => exact fun c d w x => ih w c d _ x
    | io f k ih => exact fun c d w x => ih x c d w _
    | commit k ih => exact fun _ _ w x => ih w w w x
  rw [resultOf, atomic, Out.close_result]
  exact hsame p c w w x

end Prog

end Foundations
