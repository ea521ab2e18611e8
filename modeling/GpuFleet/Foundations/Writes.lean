import GpuFleet.Foundations.Triple

/-!
# The statements a run executes

`writes p w x` lists the writing statements of a program that runs alone from the working
copy `w`, in order and each with the working copy it found.  What a program logs beside its
statements is a function of this list.

When every statement raises a measure of the working copy by what it logs, a whole run does
(`wp.logged`), and what it commits has the measure that the log says, also after an exception
if the working copy it leaves has the measure of the first one (`wp.logged_dbAfter`).
-/

namespace Foundations

namespace Prog

variable {Q σ φ ε α β γ : Type} [Statement Q σ]

/-- The writing statements a run executes, each with the working copy it found. -/
def writes : Prog Q σ φ ε α → σ → φ → List (Q × σ)
  | ret _, _, _ => []
  | raise _, _, _ => []
  | select k, w, x => (k w).writes w x
  | write q k, w, x => (q, w) :: (k w).writes (Statement.apply q w) x
  | io f k, w, x => (k x).writes w (f x)
  | commit k, w, x => k.writes w x

section Writes

variable (w : σ) (x : φ)

@[simp] theorem writes_ret (a : α) : (ret a : Prog Q σ φ ε α).writes w x = [] := rfl

@[simp] theorem writes_raise (e : ε) : (raise e : Prog Q σ φ ε α).writes w x = [] := rfl

@[simp] theorem writes_select (k : σ → Prog Q σ φ ε α) :
    (select k).writes w x = (k w).writes w x := rfl

@[simp] theorem writes_write (q : Q) (k : σ → Prog Q σ φ ε α) :
    (write q k).writes w x = (q, w) :: (k w).writes (Statement.apply q w) x := rfl

end Writes

section Logs

variable {P : Q → σ → Prop} {exn : ε → σ → Prop} {post : α → σ → Prop}
variable {p : Prog Q σ φ ε α} {w : σ}

/-- Every statement of a run satisfies what all statements of the program do. -/
theorem wp.of_mem_writes (x : φ) (h : p.wp P exn post w) {s : Q × σ} (hs : s ∈ p.writes w x) :
    P s.1 s.2 := by
  induction p generalizing w x with
  | ret a => cases hs
  | raise e => cases hs
  | select k ih => exact ih w x h hs
  | write q k ih =>
      rcases List.mem_cons.mp hs with rfl | hs
      · exact h.1
      · exact ih w x h.2 hs
  | io f k ih => exact ih x _ (h x) hs
  | commit k ih => exact ih x h hs

variable {log : Q × σ → List γ} {f : γ → Bool} {measure : σ → Nat}

/-- A run raises a measure by what it logs, when every statement does. -/
theorem wp.logged (x : φ) (h : p.wp P exn post w)
    (hlog : ∀ q w, P q w → (log (q, w)).countP f + measure w = measure (Statement.apply q w))
    (c : σ) :
    ((p.writes w x).flatMap log).countP f + measure w = measure (p.exec c w x).working := by
  induction p generalizing w x c with
  | ret a => exact Nat.zero_add _
  | raise e => exact Nat.zero_add _
  | select k ih => exact ih w x h c
  | write q k ih =>
      have hrest := ih w x h.2 c
      have hfirst := hlog q w h.1
      rw [writes_write, List.flatMap_cons, List.countP_append, exec_write]
      omega
  | io f k ih => exact ih x _ (h x) c
  | commit k ih => exact ih x h w

/-- A measure that no statement lowers lies, at every commit, between its first and its last
value. -/
theorem wp.committed_between (x : φ) (h : p.wp P exn post w)
    (hle : ∀ q w, P q w → measure w ≤ measure (Statement.apply q w)) {low : Nat} {c : σ}
    (hc : low ≤ measure c) (hw : measure c ≤ measure w) :
    low ≤ measure (p.exec c w x).committed ∧
      measure (p.exec c w x).committed ≤ measure (p.exec c w x).working := by
  induction p generalizing c w x with
  | ret a => exact ⟨hc, hw⟩
  | raise e => exact ⟨hc, hw⟩
  | select k ih => exact ih w x h hc hw
  | write q k ih => exact ih w x h.2 hc (Nat.le_trans hw (hle q w h.1))
  | io f k ih => exact ih x _ (h x) hc hw
  | commit k ih => exact ih x h (Nat.le_trans hc hw) (Nat.le_refl _)

/-- What a run alone commits has the measure that its log says, if a working copy that is rolled
back has the measure of the first one. -/
theorem wp.logged_dbAfter (x : φ) (h : p.wp P (fun _ w' => measure w' = measure w) post w)
    (hlog : ∀ q w, P q w → (log (q, w)).countP f + measure w = measure (Statement.apply q w)) :
    ((p.writes w x).flatMap log).countP f + measure w = measure (p.dbAfter w x) := by
  have hrun := h.logged x hlog w
  have hends := h.exec (c := w) x
  simp only [Prog.dbAfter, atomic, Out.close]
  cases hr : (p.exec w w x).result with
  | ok a => exact hrun
  | error e =>
      simp only [hr] at hends
      have hle : ∀ q w, P q w → measure w ≤ measure (Statement.apply q w) := fun q w hq => by
        have := hlog q w hq
        omega
      obtain ⟨hlow, hhigh⟩ := h.committed_between x hle (Nat.le_refl _) (Nat.le_refl (measure w))
      show _ = measure (p.exec w w x).committed
      omega

end Logs

end Prog

end Foundations
