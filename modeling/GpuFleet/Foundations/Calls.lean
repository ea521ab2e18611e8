import Mathlib.Logic.Basic
import Mathlib.Tactic.Common

/-!
# Calls into an environment

A program that runs outside any database makes calls, one after another, and an
environment moves the state it works on between them.  A moment is what happens
before a call: moves of the environment, and the kinds of call it then refuses.
A scene is a state with the moments to come, so the run of a program from a
scene is a function, and a statement about every scene is one about every order
of the calls and the moves, and about every refusal.  There are always moments
to come, most of which may be empty.

* `call k e f` lets the moment pass.  If calls of kind `k` are refused then, it
  raises `e`.  Otherwise it acts on the state by `f`.
* `read`, `update` and `step` act at once.

`wp` is the weakest precondition for a result and for an exception, and has one
rule for each form of program.  `Ensures` forgets the moments: it holds for all
that are of some sort, as those that spare calls of some kinds.  `Guards` states
an invariant in these terms.  `Makes` counts the calls of a program that raises only
where it is refused, so that it says exactly from which scenes it returns.
-/

namespace Foundations

/-- An environment moves a state. -/
class Environment (μ : outParam Type) (σ : Type) where
  move : μ → σ → σ

/-- No move makes it false. -/
def Steady {μ σ : Type} [Environment μ σ] (I : σ → Prop) : Prop :=
  ∀ (a : μ) x, I x → I (Environment.move a x)

/-- Some moves lead from one state to the other. -/
def Moved {μ σ : Type} [Environment μ σ] (x y : σ) : Prop :=
  ∃ moves : List μ, y = moves.foldl (fun x a => Environment.move a x) x

theorem Steady.moved {μ σ : Type} [Environment μ σ] {I : σ → Prop} (hI : Steady I) {x y : σ}
    (hxy : Moved x y) (h : I x) : I y := by
  obtain ⟨moves, rfl⟩ := hxy
  induction moves generalizing x with
  | nil => exact h
  | cons a moves ih => exact ih (hI a x h)

/-- What happens before a call: moves, and the kinds of call that are refused after them. -/
structure Moment (μ κ : Type) where
  moves : List μ := []
  refused : List κ := []

/-- No call of these kinds is refused. -/
def Sparing {μ κ : Type} (ks : List κ) (m : Moment μ κ) : Prop := ∀ k ∈ ks, k ∉ m.refused

/-- Calls of this kind may be refused in moments of this sort. -/
def Refusable {μ κ : Type} (E : Moment μ κ → Prop) (k : κ) : Prop := ∃ m, E m ∧ k ∈ m.refused

/-- Calls of this kind may be granted in moments of this sort. -/
def Grantable {μ κ : Type} (E : Moment μ κ → Prop) (k : κ) : Prop := ∃ m, E m ∧ k ∉ m.refused

theorem not_refusable_sparing {μ κ : Type} {ks : List κ} {k : κ} (h : k ∈ ks) :
    ¬ Refusable (Sparing (μ := μ) ks) k := fun ⟨_, hm, hk⟩ => hm k h hk

/-- A state and the moments to come. -/
structure Scene (μ κ σ : Type) where
  state : σ
  moments : Nat → Moment μ κ := fun _ => {}

variable {μ κ σ ε ε' α β : Type}

namespace Scene

variable [Environment μ σ]

/-- The scene after its next moment. -/
def next (s : Scene μ κ σ) : Scene μ κ σ where
  state := (s.moments 0).moves.foldl (fun x a => Environment.move a x) s.state
  moments n := s.moments (n + 1)

/-- A call of this kind is refused. -/
def refuses [DecidableEq κ] (k : κ) (s : Scene μ κ σ) : Bool := (s.moments 0).refused.contains k

/-- The scene with another state. -/
def put (s : Scene μ κ σ) (x : σ) : Scene μ κ σ := { s with state := x }

omit [Environment μ σ] in
@[simp] theorem put_state (s : Scene μ κ σ) (x : σ) : (s.put x).state = x := rfl

omit [Environment μ σ] in
@[simp] theorem put_self (s : Scene μ κ σ) : s.put s.state = s := rfl

omit [Environment μ σ] in
@[simp] theorem put_moments (s : Scene μ κ σ) (x : σ) : (s.put x).moments = s.moments := rfl

@[simp] theorem next_moments (s : Scene μ κ σ) :
    s.next.moments = fun n => s.moments (n + 1) := rfl

theorem moved_next (s : Scene μ κ σ) : Moved s.state s.next.state := ⟨(s.moments 0).moves, rfl⟩

omit [Environment μ σ] in
/-- All moments to come are of this sort. -/
def Under (E : Moment μ κ → Prop) (s : Scene μ κ σ) : Prop := ∀ n, E (s.moments n)

theorem Under.next {E : Moment μ κ → Prop} {s : Scene μ κ σ} (h : s.Under E) : s.next.Under E :=
  fun n => h (n + 1)

omit [Environment μ σ] in
theorem Under.refusable [DecidableEq κ] {E : Moment μ κ → Prop} {s : Scene μ κ σ} (h : s.Under E)
    {k : κ} (hk : s.refuses k = true) : Refusable E k :=
  ⟨s.moments 0, h 0, List.contains_iff_mem.mp hk⟩

omit [Environment μ σ] in
theorem Under.grantable [DecidableEq κ] {E : Moment μ κ → Prop} {s : Scene μ κ σ} (h : s.Under E)
    {k : κ} (hk : s.refuses k = false) : Grantable E k := by
  refine ⟨s.moments 0, h 0, fun hmem => ?_⟩
  rw [refuses, List.contains_iff_mem.mpr hmem] at hk
  cases hk

end Scene

/-- Programs of calls. -/
def Calls (μ κ σ ε α : Type) : Type := Scene μ κ σ → Except ε α × Scene μ κ σ

namespace Calls

/-- Return. -/
def ret (a : α) : Calls μ κ σ ε α := fun s => (.ok a, s)

/-- Raise.  What was done stays done. -/
def raise (e : ε) : Calls μ κ σ ε α := fun s => (.error e, s)

/-- Sequencing. -/
def bind (p : Calls μ κ σ ε α) (g : α → Calls μ κ σ ε β) : Calls μ κ σ ε β := fun s =>
  match p s with
  | (.ok a, s') => g a s'
  | (.error e, s') => (.error e, s')

instance : Monad (Calls μ κ σ ε) where
  pure := ret
  bind := bind

/-- Replace an exception by what a handler does with it. -/
def tryCatch (p : Calls μ κ σ ε α) (h : ε → Calls μ κ σ ε' α) : Calls μ κ σ ε' α := fun s =>
  match p s with
  | (.ok a, s') => (.ok a, s')
  | (.error e, s') => h e s'

/-- Read the state. -/
def read (f : σ → α) : Calls μ κ σ ε α := fun s => (.ok (f s.state), s)

/-- Change the state. -/
def update (f : σ → σ) : Calls μ κ σ ε Unit := fun s => (.ok (), s.put (f s.state))

/-- Act on the state at once. -/
def step (f : σ → Except ε α × σ) : Calls μ κ σ ε α := fun s => ((f s.state).1, s.put (f s.state).2)

/-- Return a result or raise its exception. -/
def ofExcept : Except ε α → Calls μ κ σ ε α
  | .ok a => ret a
  | .error e => raise e

/-- A program for every element of a list, in order. -/
def forEach : List β → (β → Calls μ κ σ ε Unit) → Calls μ κ σ ε Unit
  | [], _ => ret ()
  | b :: l, body => (body b).bind fun _ => forEach l body

section Call

variable [Environment μ σ] [DecidableEq κ]

/-- A call of a kind, with the exception of its refusal. -/
def call (k : κ) (refusal : ε) (f : σ → Except ε α × σ) : Calls μ κ σ ε α := fun s =>
  if s.refuses k then (.error refusal, s.next)
  else ((f s.next.state).1, s.next.put (f s.next.state).2)

/-- A call that raises only where it is refused. -/
def act (k : κ) (refusal : ε) (f : σ → α × σ) : Calls μ κ σ ε α :=
  call k refusal fun x => (.ok (f x).1, (f x).2)

end Call

/-! ## Weakest preconditions -/

/-- The program returns in `post` or raises in `fail`. -/
def wp (p : Calls μ κ σ ε α) (post : α → Scene μ κ σ → Prop) (fail : ε → Scene μ κ σ → Prop)
    (s : Scene μ κ σ) : Prop :=
  match p s with
  | (.ok a, s') => post a s'
  | (.error e, s') => fail e s'

section Rules

variable {post : α → Scene μ κ σ → Prop} {fail : ε → Scene μ κ σ → Prop} {s : Scene μ κ σ}

@[simp] theorem wp_pure (a : α) : (pure a : Calls μ κ σ ε α).wp post fail s ↔ post a s := Iff.rfl

@[simp] theorem wp_ret (a : α) : (ret a : Calls μ κ σ ε α).wp post fail s ↔ post a s := Iff.rfl

@[simp] theorem wp_raise (e : ε) : (raise e : Calls μ κ σ ε α).wp post fail s ↔ fail e s := Iff.rfl

@[simp] theorem wp_read (f : σ → α) :
    (read f : Calls μ κ σ ε α).wp post fail s ↔ post (f s.state) s := Iff.rfl

@[simp] theorem wp_update {post : Unit → Scene μ κ σ → Prop} (f : σ → σ) :
    (update f : Calls μ κ σ ε Unit).wp post fail s ↔ post () (s.put (f s.state)) := Iff.rfl

theorem wp_step {f : σ → Except ε α × σ}
    (hok : ∀ a x, f s.state = (.ok a, x) → post a (s.put x))
    (herror : ∀ e x, f s.state = (.error e, x) → fail e (s.put x)) :
    (step f : Calls μ κ σ ε α).wp post fail s := by
  rcases hf : f s.state with ⟨result, x⟩
  cases result with
  | ok a => simpa [wp, step, hf] using hok a x hf
  | error e => simpa [wp, step, hf] using herror e x hf

@[simp] theorem wp_ofExcept_ok (a : α) :
    (ofExcept (.ok a) : Calls μ κ σ ε α).wp post fail s ↔ post a s := Iff.rfl

@[simp] theorem wp_ofExcept_error (e : ε) :
    (ofExcept (.error e) : Calls μ κ σ ε α).wp post fail s ↔ fail e s := Iff.rfl

@[simp] theorem wp_bind {post : β → Scene μ κ σ → Prop} (p : Calls μ κ σ ε α)
    (g : α → Calls μ κ σ ε β) :
    (p >>= g).wp post fail s ↔ p.wp (fun a => (g a).wp post fail) fail s := by
  rcases hp : p s with ⟨result, s'⟩
  cases result <;> simp only [wp, Bind.bind, Calls.bind, hp]

@[simp] theorem wp_tryCatch {fail : ε' → Scene μ κ σ → Prop} (p : Calls μ κ σ ε α)
    (h : ε → Calls μ κ σ ε' α) :
    (p.tryCatch h).wp post fail s ↔ p.wp post (fun e => (h e).wp post fail) s := by
  rcases hp : p s with ⟨result, s'⟩
  cases result <;> simp only [wp, tryCatch, hp]

@[simp] theorem wp_ite (c : Prop) [Decidable c] (p q : Calls μ κ σ ε α) :
    (if c then p else q).wp post fail s ↔ if c then p.wp post fail s else q.wp post fail s := by
  split <;> rfl

@[simp] theorem wp_forEach_nil {post : Unit → Scene μ κ σ → Prop}
    (body : β → Calls μ κ σ ε Unit) : (forEach [] body).wp post fail s ↔ post () s := Iff.rfl

@[simp] theorem wp_forEach_cons {post : Unit → Scene μ κ σ → Prop} (b : β) (l : List β)
    (body : β → Calls μ κ σ ε Unit) :
    (forEach (b :: l) body).wp post fail s ↔
      (body b).wp (fun _ => (forEach l body).wp post fail) fail s :=
  wp_bind (body b) fun _ => forEach l body

/-- More may hold in the end. -/
theorem wp_mono {post' : α → Scene μ κ σ → Prop} {fail' : ε → Scene μ κ σ → Prop}
    {p : Calls μ κ σ ε α} (h : p.wp post fail s) (hpost : ∀ a s', post a s' → post' a s')
    (hfail : ∀ e s', fail e s' → fail' e s') : p.wp post' fail' s := by
  unfold wp at h ⊢
  rcases hp : p s with ⟨result, s'⟩
  cases result with
  | ok a => exact hpost a s' (by simpa [hp] using h)
  | error e => exact hfail e s' (by simpa [hp] using h)

/-- What a program leaves, however it ends. -/
theorem wp_end {I : Scene μ κ σ → Prop} {p : Calls μ κ σ ε α} :
    p.wp (fun _ => I) (fun _ => I) s ↔ I (p s).2 := by
  unfold wp
  obtain ⟨result, s'⟩ := p s
  cases result <;> rfl

/-- A run that returns. -/
theorem wp_of_eq_ok {p : Calls μ κ σ ε α} {a : α} {s' : Scene μ κ σ} (h : p.wp post fail s)
    (hp : p s = (.ok a, s')) : post a s' := by
  unfold wp at h
  rwa [hp] at h

/-- Two descriptions of one run. -/
theorem wp_and {post' : α → Scene μ κ σ → Prop} {fail' : ε → Scene μ κ σ → Prop}
    {p : Calls μ κ σ ε α} (h : p.wp post fail s) (h' : p.wp post' fail' s) :
    p.wp (fun a s' => post a s' ∧ post' a s') (fun e s' => fail e s' ∧ fail' e s') s := by
  unfold wp at h h' ⊢
  rcases hp : p s with ⟨result, s'⟩
  rw [hp] at h h'
  cases result <;> exact ⟨h, h'⟩

variable [Environment μ σ] [DecidableEq κ]

theorem wp_call {k : κ} {refusal : ε} {f : σ → Except ε α × σ}
    (hrefused : s.refuses k = true → fail refusal s.next)
    (hok : ∀ a x, f s.next.state = (.ok a, x) → post a (s.next.put x))
    (herror : ∀ e x, f s.next.state = (.error e, x) → fail e (s.next.put x)) :
    (call k refusal f).wp post fail s := by
  unfold wp call
  cases hr : s.refuses k with
  | true => simpa [hr] using hrefused hr
  | false =>
      rcases hf : f s.next.state with ⟨result, x⟩
      cases result with
      | ok a => simpa [hr, hf] using hok a x hf
      | error e => simpa [hr, hf] using herror e x hf

@[simp] theorem wp_act {k : κ} {refusal : ε} {f : σ → α × σ} :
    (act k refusal f).wp post fail s ↔
      if s.refuses k then fail refusal s.next
      else post (f s.next.state).1 (s.next.put (f s.next.state).2) := by
  cases hr : s.refuses k <;> simp [wp, act, call, hr]

end Rules

/-! ## Every order of calls and moves -/

/-- From a state, with whatever moments of this sort lie ahead, the program returns in `post` or
raises in `fail`. -/
def Ensures (E : Moment μ κ → Prop) (p : Calls μ κ σ ε α) (post : α → σ → Prop) (fail : ε → σ → Prop)
    (x : σ) : Prop :=
  ∀ s : Scene μ κ σ, s.state = x → s.Under E →
    p.wp (fun a s' => s'.Under E ∧ post a s'.state) (fun e s' => s'.Under E ∧ fail e s'.state) s

section Ensures

variable {E : Moment μ κ → Prop} {post : α → σ → Prop} {fail : ε → σ → Prop} {x : σ}

theorem ensures_pure {a : α} (h : post a x) :
    (pure a : Calls μ κ σ ε α).Ensures E post fail x := by
  rintro s rfl hs
  exact ⟨hs, h⟩

theorem ensures_raise {e : ε} (h : fail e x) :
    (raise e : Calls μ κ σ ε α).Ensures E post fail x := by
  rintro s rfl hs
  exact ⟨hs, h⟩

theorem ensures_read {f : σ → α} (h : post (f x) x) :
    (read f : Calls μ κ σ ε α).Ensures E post fail x := by
  rintro s rfl hs
  exact ⟨hs, h⟩

theorem ensures_update {post : Unit → σ → Prop} {f : σ → σ} (h : post () (f x)) :
    (update f : Calls μ κ σ ε Unit).Ensures E post fail x := by
  rintro s rfl hs
  exact ⟨hs, h⟩

theorem ensures_step {f : σ → Except ε α × σ} (hok : ∀ a y, f x = (.ok a, y) → post a y)
    (herror : ∀ e y, f x = (.error e, y) → fail e y) :
    (step f : Calls μ κ σ ε α).Ensures E post fail x := by
  rintro s rfl hs
  exact wp_step (fun a y h => ⟨hs, hok a y h⟩) fun e y h => ⟨hs, herror e y h⟩

theorem ensures_ofExcept {r : Except ε α} (hok : ∀ a, r = .ok a → post a x)
    (herror : ∀ e, r = .error e → fail e x) :
    (ofExcept r : Calls μ κ σ ε α).Ensures E post fail x := by
  cases r with
  | ok a => exact ensures_pure (hok a rfl)
  | error e => exact ensures_raise (herror e rfl)

theorem ensures_bind {post : β → σ → Prop} {p : Calls μ κ σ ε α} {g : α → Calls μ κ σ ε β}
    (h : p.Ensures E (fun a => (g a).Ensures E post fail) fail x) :
    (p >>= g).Ensures E post fail x := by
  rintro s rfl hs
  rw [wp_bind]
  exact wp_mono (h s rfl hs) (fun a s' hs' => hs'.2 s' rfl hs'.1) fun _ _ hs' => hs'

theorem ensures_tryCatch {fail : ε' → σ → Prop} {p : Calls μ κ σ ε α} {h : ε → Calls μ κ σ ε' α}
    (hp : p.Ensures E post (fun e => (h e).Ensures E post fail) x) :
    (p.tryCatch h).Ensures E post fail x := by
  rintro s rfl hs
  rw [wp_tryCatch]
  exact wp_mono (hp s rfl hs) (fun _ _ hs' => hs') fun e s' hs' => hs'.2 s' rfl hs'.1

theorem ensures_mono {post' : α → σ → Prop} {fail' : ε → σ → Prop} {p : Calls μ κ σ ε α}
    (h : p.Ensures E post fail x) (hpost : ∀ a y, post a y → post' a y)
    (hfail : ∀ e y, fail e y → fail' e y) : p.Ensures E post' fail' x := fun s hx hs =>
  wp_mono (h s hx hs) (fun a s' hs' => ⟨hs'.1, hpost a s'.state hs'.2⟩)
    fun e s' hs' => ⟨hs'.1, hfail e s'.state hs'.2⟩

/-- What a program ensures is what the next one begins with. -/
theorem Ensures.andThen {post' : β → σ → Prop} {p : Calls μ κ σ ε α} {g : α → Calls μ κ σ ε β}
    (hp : p.Ensures E post fail x)
    (hg : ∀ a y, post a y → (g a).Ensures E post' fail y) : (p >>= g).Ensures E post' fail x :=
  ensures_bind (ensures_mono hp hg fun _ _ hy => hy)

/-- Nothing follows a program that never returns. -/
theorem Ensures.never {post' : β → σ → Prop} {p : Calls μ κ σ ε α}
    (hp : p.Ensures E (fun _ _ => False) fail x) (g : α → Calls μ κ σ ε β) :
    (p >>= g).Ensures E post' fail x := hp.andThen fun _ _ h => h.elim

/-- Two descriptions of a program, one of which is about fewer moments. -/
theorem ensures_and {E' : Moment μ κ → Prop} {post' : α → σ → Prop} {fail' : ε → σ → Prop}
    {p : Calls μ κ σ ε α} (hE : ∀ m, E' m → E m) (h : p.Ensures E post fail x)
    (h' : p.Ensures E' post' fail' x) :
    p.Ensures E' (fun a y => post a y ∧ post' a y) (fun e y => fail e y ∧ fail' e y) x := by
  intro s hx hs
  exact wp_mono (wp_and (h s hx fun n => hE _ (hs n)) (h' s hx hs))
    (fun _ _ hs' => ⟨hs'.2.1, hs'.1.2, hs'.2.2⟩) fun _ _ hs' => ⟨hs'.2.1, hs'.1.2, hs'.2.2⟩

/-- What a program ensures however it ends holds at the end of its runs. -/
theorem Ensures.final {I : σ → Prop} {p : Calls μ κ σ ε α}
    (h : p.Ensures E (fun _ => I) (fun _ => I) x) {s : Scene μ κ σ} (hx : s.state = x)
    (hs : s.Under E) : (p s).2.Under E ∧ I (p s).2.state :=
  (wp_end (I := fun s' => s'.Under E ∧ I s'.state)).mp (h s hx hs)

/-- A program that never raises returns. -/
theorem Ensures.returns {p : Calls μ κ σ ε α} (h : p.Ensures E post (fun _ _ => False) x)
    {s : Scene μ κ σ} (hx : s.state = x) (hs : s.Under E) :
    ∃ a, (p s).1 = .ok a ∧ post a (p s).2.state := by
  have hwp := h s hx hs
  unfold wp at hwp
  rcases hp : p s with ⟨result, s'⟩
  rw [hp] at hwp
  cases result with
  | ok a => exact ⟨a, rfl, hwp.2⟩
  | error e => exact hwp.2.elim

variable [Environment μ σ] [DecidableEq κ]

theorem ensures_call {k : κ} {refusal : ε} {f : σ → Except ε α × σ}
    (hok : ∀ y, Moved x y → ∀ a z, f y = (.ok a, z) → post a z)
    (herror : ∀ y, Moved x y → ∀ e z, f y = (.error e, z) → fail e z)
    (hrefused : ¬ Refusable E k ∨ ∀ y, Moved x y → fail refusal y) :
    (call k refusal f : Calls μ κ σ ε α).Ensures E post fail x := by
  rintro s rfl hs
  refine wp_call (fun h => ⟨hs.next, ?_⟩) (fun a z h => ⟨hs.next, hok _ s.moved_next a z h⟩)
    fun e z h => ⟨hs.next, herror _ s.moved_next e z h⟩
  rcases hrefused with hnot | hrefused
  · exact absurd (hs.refusable h) hnot
  · exact hrefused _ s.moved_next

theorem ensures_act {k : κ} {refusal : ε} {f : σ → α × σ}
    (h : ∀ y, Moved x y → post (f y).1 (f y).2)
    (hrefused : ¬ Refusable E k ∨ ∀ y, Moved x y → fail refusal y) :
    (act k refusal f : Calls μ κ σ ε α).Ensures E post fail x := by
  refine ensures_call (fun y hy a z hz => ?_) (fun y hy e z hz => by cases hz) hrefused
  cases hz
  exact h y hy

/-- A call that is never granted. -/
theorem ensures_act_refused {k : κ} {refusal : ε} {f : σ → α × σ} (hnot : ¬ Grantable E k)
    (h : ∀ y, Moved x y → fail refusal y) :
    (act k refusal f : Calls μ κ σ ε α).Ensures E post fail x := by
  rintro s rfl hs
  rw [wp_act]
  split
  · exact ⟨hs.next, h _ s.moved_next⟩
  · rename_i hgranted
    exact absurd (hs.grantable (Bool.not_eq_true _ ▸ hgranted)) hnot

end Ensures

/-! ## Invariants -/

/-- The program keeps `I` until it returns, and leaves `J` when it raises, with moments of this
sort. -/
def Guards (E : Moment μ κ → Prop) (I J : σ → Prop) (p : Calls μ κ σ ε α) : Prop :=
  ∀ x, I x → p.Ensures E (fun _ => I) (fun _ => J) x

section Guards

variable {E : Moment μ κ → Prop} {I J : σ → Prop}

/-- What holds whatever is refused. -/
theorem Guards.wp {p : Calls μ κ σ ε α} (hp : p.Guards (Sparing []) I J) {s : Scene μ κ σ} (h : I s.state) :
    p.wp (fun _ s' => I s'.state) (fun _ s' => J s'.state) s :=
  wp_mono (hp s.state h s rfl fun _ _ hk => absurd hk List.not_mem_nil)
    (fun _ _ h => h.2) fun _ _ h => h.2

theorem guards_pure (a : α) : (pure a : Calls μ κ σ ε α).Guards E I J :=
  fun _ hx => ensures_pure hx

theorem guards_raise {e : ε} (h : ∀ x, I x → J x) : (raise e : Calls μ κ σ ε α).Guards E I J :=
  fun x hx => ensures_raise (h x hx)

theorem guards_read (f : σ → α) : (read f : Calls μ κ σ ε α).Guards E I J :=
  fun _ hx => ensures_read hx

theorem guards_update {f : σ → σ} (hf : ∀ x, I x → I (f x)) :
    (update f : Calls μ κ σ ε Unit).Guards E I J := fun x hx => ensures_update (hf x hx)

theorem guards_step {f : σ → Except ε α × σ} (hf : ∀ x, I x → I (f x).2) :
    (step f : Calls μ κ σ ε α).Guards E I I := by
  intro x hx
  have hend := hf x hx
  refine ensures_step (fun a y h => ?_) fun e y h => ?_
  · rwa [h] at hend
  · rwa [h] at hend

theorem guards_ofExcept {r : Except ε α} (h : (∃ a, r = .ok a) ∨ ∀ x, I x → J x) :
    (ofExcept r : Calls μ κ σ ε α).Guards E I J := by
  refine fun x hx => ensures_ofExcept (fun _ _ => hx) fun _ he => ?_
  rcases h with ⟨a, ha⟩ | h
  · rw [ha] at he
    cases he
  · exact h x hx

theorem Guards.bind {p : Calls μ κ σ ε α} {g : α → Calls μ κ σ ε β} (hp : p.Guards E I J)
    (hg : ∀ a, (g a).Guards E I J) : (p >>= g).Guards E I J := fun x hx =>
  (hp x hx).andThen fun a y hy => hg a y hy

/-- An invariant of a program is what the next one begins with. -/
theorem Guards.andThen {post : β → σ → Prop} {p : Calls μ κ σ ε α} {g : α → Calls μ κ σ ε β}
    {x : σ} (hp : p.Guards E I J) (hx : I x)
    (hg : ∀ a y, I y → (g a).Ensures E post (fun _ => J) y) :
    (p >>= g).Ensures E post (fun _ => J) x := (hp x hx).andThen hg

theorem Guards.tryCatch {p : Calls μ κ σ ε α} {h : ε → Calls μ κ σ ε' α} (hp : p.Guards E I I)
    (hh : ∀ e, (h e).Guards E I J) : (p.tryCatch h).Guards E I J := fun x hx =>
  ensures_tryCatch (ensures_mono (hp x hx) (fun _ _ hy => hy) fun e y hy => hh e y hy)

theorem guards_forEach {l : List β} {body : β → Calls μ κ σ ε Unit}
    (h : ∀ b ∈ l, (body b).Guards E I J) : (forEach l body).Guards E I J := by
  induction l with
  | nil => exact guards_pure ()
  | cons b l ih =>
      exact (h b (List.mem_cons_self ..)).bind fun _ => ih fun b' hb' =>
        h b' (List.mem_cons_of_mem b hb')

variable [Environment μ σ] [DecidableEq κ]

theorem guards_act {k : κ} {refusal : ε} {f : σ → α × σ} (hI : Steady I)
    (hf : ∀ x, I x → I (f x).2) (hrefused : ¬ Refusable E k ∨ ∀ x, I x → J x) :
    (act k refusal f : Calls μ κ σ ε α).Guards E I J := fun _ hx =>
  ensures_act (fun y hy => hf y (hI.moved hy hx)) <| hrefused.imp_right fun h y hy =>
    h y (hI.moved hy hx)

end Guards

/-! ## What a program returns -/

/-- Whatever the program returns, from any scene, is of this kind. -/
def Yields (Q : α → Prop) (p : Calls μ κ σ ε α) : Prop :=
  ∀ s : Scene μ κ σ, p.wp (fun a _ => Q a) (fun _ _ => True) s

theorem yields_pure {Q : α → Prop} {a : α} (h : Q a) : (pure a : Calls μ κ σ ε α).Yields Q :=
  fun _ => h

theorem Yields.bind {Q : β → Prop} {p : Calls μ κ σ ε α} {g : α → Calls μ κ σ ε β}
    (hg : ∀ a, (g a).Yields Q) : (p >>= g).Yields Q := by
  intro s
  rw [wp_bind]
  unfold wp
  split
  · exact hg _ _
  · trivial

/-! ## Which scenes a program returns from -/

/-- The program raises from every scene. -/
def Raises (p : Calls μ κ σ ε α) : Prop :=
  ∀ s : Scene μ κ σ, p.wp (fun _ _ => False) (fun _ _ => True) s

theorem Raises.fst_ne_ok {p : Calls μ κ σ ε α} (hp : p.Raises) (s : Scene μ κ σ) (a : α) :
    (p s).1 ≠ .ok a := fun h => wp_of_eq_ok (hp s) (Prod.ext h rfl)

theorem Raises.bind_left {p : Calls μ κ σ ε α} (hp : p.Raises) (g : α → Calls μ κ σ ε β) :
    (p >>= g).Raises := by
  intro s
  rw [wp_bind]
  exact wp_mono (hp s) (fun _ _ h => h.elim) fun _ _ h => h

theorem Raises.bind_right (p : Calls μ κ σ ε α) {g : α → Calls μ κ σ ε β}
    (hg : ∀ a, (g a).Raises) : (p >>= g).Raises := by
  intro s
  rw [wp_bind]
  unfold wp
  split
  · exact hg _ _
  · trivial

theorem raises_error (e : ε) : (ofExcept (.error e) : Calls μ κ σ ε α).Raises := fun _ => trivial

section Makes

variable [DecidableEq κ]

/-- The moments refuse none of these calls, made one after another. -/
def grants : List κ → (Nat → Moment μ κ) → Bool
  | [], _ => true
  | k :: ks, ms => !(ms 0).refused.contains k && grants ks fun n => ms (n + 1)

theorem grants_append (ks ls : List κ) (ms : Nat → Moment μ κ) :
    grants (ks ++ ls) ms = (grants ks ms && grants ls fun n => ms (n + ks.length)) := by
  induction ks generalizing ms with
  | nil => simp [grants]
  | cons k ks ih => simp [grants, ih, Bool.and_assoc, Nat.add_assoc]

theorem grants_of_sparing {ks ls : List κ} (hsub : ls ⊆ ks) {ms : Nat → Moment μ κ}
    (h : ∀ n, Sparing ks (ms n)) : grants ls ms = true := by
  induction ls generalizing ms with
  | nil => rfl
  | cons l ls ih =>
      obtain ⟨hl, hls⟩ := List.cons_subset.mp hsub
      simp [grants, h 0 l hl, ih hls fun n => h (n + 1)]

/-- The program makes these calls, and returns if none of them is refused. -/
def Makes (p : Calls μ κ σ ε α) (ks : List κ) : Prop :=
  ∀ s : Scene μ κ σ, p.wp
    (fun _ s' => grants ks s.moments = true ∧
      s'.moments = fun n => s.moments (n + ks.length))
    (fun _ _ => grants ks s.moments = false) s

theorem makes_pure (a : α) : (pure a : Calls μ κ σ ε α).Makes [] := by simp [Makes, grants]

theorem makes_read (f : σ → α) : (read f : Calls μ κ σ ε α).Makes [] := by simp [Makes, grants]

theorem makes_update (f : σ → σ) : (update f : Calls μ κ σ ε Unit).Makes [] := by
  simp [Makes, grants]

theorem Makes.bind {p : Calls μ κ σ ε α} {g : α → Calls μ κ σ ε β} {ks ls : List κ}
    (hp : p.Makes ks) (hg : ∀ a, (g a).Makes ls) : (p >>= g).Makes (ks ++ ls) := by
  intro s
  rw [wp_bind, grants_append]
  refine wp_mono (hp s) (fun a s' h => ?_) fun _ _ h => by simp [h]
  refine wp_mono (hg a s') (fun b t ht => ?_) fun e t ht => ?_
  · rw [h.2] at ht
    simp [h.1, ht.1, ht.2, Nat.add_assoc, Nat.add_comm ls.length]
  · rw [h.2] at ht
    simp [h.1, ht]

theorem makes_forEach {l : List β} {body : β → Calls μ κ σ ε Unit} {k : κ}
    (h : ∀ b ∈ l, (body b).Makes [k]) : (forEach l body).Makes (List.replicate l.length k) := by
  induction l with
  | nil => exact makes_pure ()
  | cons b l ih =>
      exact (h b (List.mem_cons_self ..)).bind fun _ => ih fun b' hb' =>
        h b' (List.mem_cons_of_mem b hb')

/-- A program that makes calls returns from the scenes that grant them. -/
theorem Makes.returns {p : Calls μ κ σ ε α} {ks : List κ} (hp : p.Makes ks) {s : Scene μ κ σ} :
    (∃ a, (p s).1 = .ok a) ↔ grants ks s.moments = true := by
  have h := hp s
  unfold wp at h
  rcases hs : p s with ⟨result, s'⟩
  rw [hs] at h
  cases result with
  | ok a => simpa using h.1
  | error e => simpa using h

theorem makes_act [Environment μ σ] (k : κ) (refusal : ε) (f : σ → α × σ) :
    (act k refusal f : Calls μ κ σ ε α).Makes [k] := by
  intro s
  rw [wp_act]
  by_cases h : k ∈ (s.moments 0).refused <;> simp [grants, Scene.refuses, h]

end Makes

end Calls

end Foundations
