import Mathlib.Logic.Basic

/-!
# Programs of database statements

A request handler that talks to a database is a tree.  Its nodes are the
statements it issues, in order, and what follows a node depends on the database
the statement saw.  `Prog Q σ φ ε α` is the type of these trees, where `Q` is
the type of the writing statements, `σ` the database, `φ` everything outside
the database (files, counters, messages), `ε` the exceptions and `α` the result.

* `select` reads the database.
* `write q` executes the writing statement `q`.  What follows sees the database
  the statement found, so it can compute a row count or a returned row.
* `io f` acts on the outside state at once.  No rollback undoes it.
* `commit` ends the transaction and opens the next one.
* `ret` commits and returns; `raise` rolls back and raises.

`exec` runs a program against a committed database and a working copy, and
`atomic` runs it alone, from connection to commit.  `failAt n` is the same
program with its `n`-th statement or commit failing, the first being number 0.
A program of `OneTransaction` that raises has changed nothing.

The interleaved semantics is in `Foundations.Sessions`.
-/

namespace Foundations

/-- Writing statements act on a database. -/
class Statement (Q : Type) (σ : outParam Type) where
  /-- The database after the statement. -/
  apply : Q → σ → σ

/-- A program of statements over the database `σ` and the outside state `φ`. -/
inductive Prog (Q σ φ ε α : Type) : Type where
  /-- Commit and return. -/
  | ret (a : α)
  /-- Roll back and raise. -/
  | raise (e : ε)
  /-- Read the database. -/
  | select (k : σ → Prog Q σ φ ε α)
  /-- Execute a writing statement. -/
  | write (q : Q) (k : σ → Prog Q σ φ ε α)
  /-- Act on the outside state. -/
  | io (f : φ → φ) (k : φ → Prog Q σ φ ε α)
  /-- Commit and go on in a new transaction. -/
  | commit (k : Prog Q σ φ ε α)

namespace Prog

variable {Q σ φ ε ε' α β γ : Type}

/-- Sequencing. -/
def bind : Prog Q σ φ ε α → (α → Prog Q σ φ ε β) → Prog Q σ φ ε β
  | ret a, g => g a
  | raise e, _ => raise e
  | select k, g => select fun s => (k s).bind g
  | write q k, g => write q fun s => (k s).bind g
  | io f k, g => io f fun x => (k x).bind g
  | commit k, g => commit (k.bind g)

instance : Monad (Prog Q σ φ ε) where
  pure := ret
  bind := bind

/-- Replace an exception by what a handler does with it.  Statements already executed
stay executed. -/
def tryCatch : Prog Q σ φ ε α → (ε → Prog Q σ φ ε' α) → Prog Q σ φ ε' α
  | ret a, _ => ret a
  | raise e, h => h e
  | select k, h => select fun s => (k s).tryCatch h
  | write q k, h => write q fun s => (k s).tryCatch h
  | io f k, h => io f fun x => (k x).tryCatch h
  | commit k, h => commit (k.tryCatch h)

/-- The program with its statements taken for statements of another kind. -/
def embed {Q' : Type} (f : Q → Q') : Prog Q σ φ ε α → Prog Q' σ φ ε α
  | ret a => ret a
  | raise e => raise e
  | select k => select fun s => (k s).embed f
  | write q k => write (f q) fun s => (k s).embed f
  | io g k => io g fun x => (k x).embed f
  | commit k => commit (k.embed f)

/-- A reading statement and its result. -/
def query (f : σ → α) : Prog Q σ φ ε α := select fun s => ret (f s)

/-- A writing statement. -/
def execute (q : Q) : Prog Q σ φ ε Unit := write q fun _ => ret ()

/-- A writing statement with a result read off the database it found. -/
def executeReturning (q : Q) (f : σ → α) : Prog Q σ φ ε α := write q fun s => ret (f s)

/-- An effect on the outside state. -/
def effect (f : φ → φ) : Prog Q σ φ ε Unit := io f fun _ => ret ()

/-- A program for every element of a list, in order. -/
def forEach : List β → (β → Prog Q σ φ ε Unit) → Prog Q σ φ ε Unit
  | [], _ => ret ()
  | b :: l, body => (body b).bind fun _ => forEach l body

section Bind

variable (g : α → Prog Q σ φ ε β)

@[simp] theorem pure_eq (a : α) : (pure a : Prog Q σ φ ε α) = ret a := rfl

@[simp] theorem ret_bind (a : α) : (ret a : Prog Q σ φ ε α) >>= g = g a := rfl

@[simp] theorem raise_bind (e : ε) : (raise e : Prog Q σ φ ε α) >>= g = raise e := rfl

@[simp] theorem select_bind (k : σ → Prog Q σ φ ε α) :
    select k >>= g = select fun s => k s >>= g := rfl

@[simp] theorem write_bind (q : Q) (k : σ → Prog Q σ φ ε α) :
    write q k >>= g = write q fun s => k s >>= g := rfl

@[simp] theorem io_bind (f : φ → φ) (k : φ → Prog Q σ φ ε α) :
    io f k >>= g = io f fun x => k x >>= g := rfl

@[simp] theorem commit_bind (k : Prog Q σ φ ε α) : commit k >>= g = commit (k >>= g) := rfl

@[simp] theorem query_bind (f : σ → α) :
    (query f : Prog Q σ φ ε α) >>= g = select fun s => g (f s) := rfl

@[simp] theorem executeReturning_bind (q : Q) (f : σ → α) :
    (executeReturning q f : Prog Q σ φ ε α) >>= g = write q fun s => g (f s) := rfl

@[simp] theorem execute_bind (q : Q) (g : Unit → Prog Q σ φ ε β) :
    (execute q : Prog Q σ φ ε Unit) >>= g = write q fun _ => g () := rfl

@[simp] theorem effect_bind (f : φ → φ) (g : Unit → Prog Q σ φ ε β) :
    (effect f : Prog Q σ φ ε Unit) >>= g = io f fun _ => g () := rfl

@[simp] theorem ite_bind (c : Prop) [Decidable c] (p q : Prog Q σ φ ε α) :
    (if c then p else q) >>= g = if c then p >>= g else q >>= g := by
  split <;> rfl

theorem bind_assoc (p : Prog Q σ φ ε α) (f : α → Prog Q σ φ ε β) (g : β → Prog Q σ φ ε γ) :
    (p >>= f) >>= g = p >>= fun a => f a >>= g := by
  induction p with
  | ret a => rfl
  | raise e => rfl
  | select k ih => exact congrArg select (funext ih)
  | write q k ih => exact congrArg (write q) (funext ih)
  | io f k ih => exact congrArg (io f) (funext ih)
  | commit k ih => exact congrArg commit ih

end Bind

section TryCatch

variable (h : ε → Prog Q σ φ ε' α)

@[simp] theorem tryCatch_ret (a : α) : (ret a : Prog Q σ φ ε α).tryCatch h = ret a := rfl

@[simp] theorem tryCatch_raise (e : ε) : (raise e : Prog Q σ φ ε α).tryCatch h = h e := rfl

@[simp] theorem tryCatch_select (k : σ → Prog Q σ φ ε α) :
    (select k).tryCatch h = select fun s => (k s).tryCatch h := rfl

@[simp] theorem tryCatch_write (q : Q) (k : σ → Prog Q σ φ ε α) :
    (write q k).tryCatch h = write q fun s => (k s).tryCatch h := rfl

@[simp] theorem tryCatch_io (f : φ → φ) (k : φ → Prog Q σ φ ε α) :
    (io f k).tryCatch h = io f fun x => (k x).tryCatch h := rfl

@[simp] theorem tryCatch_ite (c : Prop) [Decidable c] (p q : Prog Q σ φ ε α) :
    (if c then p else q).tryCatch h = if c then p.tryCatch h else q.tryCatch h := by
  split <;> rfl

@[simp] theorem tryCatch_query (f : σ → α) :
    (query f : Prog Q σ φ ε α).tryCatch h = query f := rfl

end TryCatch

@[simp] theorem forEach_nil (body : β → Prog Q σ φ ε Unit) : forEach [] body = ret () := rfl

@[simp] theorem forEach_cons (b : β) (l : List β) (body : β → Prog Q σ φ ε Unit) :
    forEach (b :: l) body = body b >>= fun _ => forEach l body := rfl

/-! ## Running a program alone -/

/-- How a run ended, with the database last committed, the working copy and the outside
state. -/
structure Out (σ φ ε α : Type) where
  /-- Result or exception. -/
  result : Except ε α
  /-- The database last committed. -/
  committed : σ
  /-- The working copy of the open transaction. -/
  working : σ
  /-- The outside state. -/
  outside : φ

variable [Statement Q σ]

/-- Run a program in an open transaction with committed database `c` and working copy `w`. -/
def exec : Prog Q σ φ ε α → (c w : σ) → φ → Out σ φ ε α
  | ret a, c, w, x => ⟨.ok a, c, w, x⟩
  | raise e, c, w, x => ⟨.error e, c, w, x⟩
  | select k, c, w, x => (k w).exec c w x
  | write q k, c, w, x => (k w).exec c (Statement.apply q w) x
  | io f k, c, w, x => (k x).exec c w (f x)
  | commit k, _, w, x => k.exec w w x

/-- Close the last transaction: commit after a result, roll back after an exception. -/
def Out.close (o : Out σ φ ε α) : Except ε α × σ × φ :=
  match o.result with
  | .ok _ => (o.result, o.working, o.outside)
  | .error _ => (o.result, o.committed, o.outside)

/-- Run a program alone, from connection to commit or rollback. -/
def atomic (p : Prog Q σ φ ε α) (s : σ) (x : φ) : Except ε α × σ × φ := (p.exec s s x).close

/-- The result of a run alone. -/
def resultOf (p : Prog Q σ φ ε α) (s : σ) (x : φ) : Except ε α := (p.atomic s x).1

/-- The database a run alone commits. -/
def dbAfter (p : Prog Q σ φ ε α) (s : σ) (x : φ) : σ := (p.atomic s x).2.1

/-- The outside state after a run alone. -/
def outsideAfter (p : Prog Q σ φ ε α) (s : σ) (x : φ) : φ := (p.atomic s x).2.2

section Exec

variable (c w : σ) (x : φ)

@[simp] theorem exec_ret (a : α) :
    (ret a : Prog Q σ φ ε α).exec c w x = ⟨.ok a, c, w, x⟩ := rfl

@[simp] theorem exec_raise (e : ε) :
    (raise e : Prog Q σ φ ε α).exec c w x = ⟨.error e, c, w, x⟩ := rfl

@[simp] theorem exec_select (k : σ → Prog Q σ φ ε α) :
    (select k).exec c w x = (k w).exec c w x := rfl

@[simp] theorem exec_write (q : Q) (k : σ → Prog Q σ φ ε α) :
    (write q k).exec c w x = (k w).exec c (Statement.apply q w) x := rfl

@[simp] theorem exec_io (f : φ → φ) (k : φ → Prog Q σ φ ε α) :
    (io f k : Prog Q σ φ ε α).exec c w x = (k x).exec c w (f x) := rfl

@[simp] theorem exec_commit (k : Prog Q σ φ ε α) :
    (commit k).exec c w x = k.exec w w x := rfl

/-- A sequence runs its first part and, if that returned, the rest from there. -/
theorem exec_bind (p : Prog Q σ φ ε α) (g : α → Prog Q σ φ ε β) :
    (p >>= g).exec c w x =
      match p.exec c w x with
      | ⟨.ok a, c', w', x'⟩ => (g a).exec c' w' x'
      | ⟨.error e, c', w', x'⟩ => ⟨.error e, c', w', x'⟩ := by
  induction p generalizing c w x with
  | ret a => rfl
  | raise e => rfl
  | select k ih => exact ih w c w x
  | write q k ih => exact ih w c _ x
  | io f k ih => exact ih x c w _
  | commit k ih => exact ih w w x

end Exec

/-- What is done to the result of a program does not matter to its database. -/
theorem dbAfter_bind_ret (p : Prog Q σ φ ε α) (f : α → β) (s : σ) (x : φ) :
    (p >>= fun a => ret (f a)).dbAfter s x = p.dbAfter s x := by
  rw [dbAfter, atomic, exec_bind, dbAfter, atomic]
  cases p.exec s s x with
  | mk result c w x' => cases result <;> rfl

/-- What is done to the result of a program does not matter outside the database. -/
theorem outsideAfter_bind_ret (p : Prog Q σ φ ε α) (f : α → β) (s : σ) (x : φ) :
    (p >>= fun a => ret (f a)).outsideAfter s x = p.outsideAfter s x := by
  rw [outsideAfter, atomic, exec_bind, outsideAfter, atomic]
  cases p.exec s s x with
  | mk result c w x' => cases result <;> rfl

/-- What is done to the result of a program. -/
theorem resultOf_bind_ret (p : Prog Q σ φ ε α) (f : α → β) (s : σ) (x : φ) :
    (p >>= fun a => ret (f a)).resultOf s x = (p.resultOf s x).map f := by
  rw [resultOf, atomic, exec_bind, resultOf, atomic]
  cases p.exec s s x with
  | mk result c w x' => cases result <;> rfl

@[simp] theorem Out.close_ok (c w : σ) (x : φ) (a : α) :
    (⟨.ok a, c, w, x⟩ : Out σ φ ε α).close = (.ok a, w, x) := rfl

@[simp] theorem Out.close_error (c w : σ) (x : φ) (e : ε) :
    (⟨.error e, c, w, x⟩ : Out σ φ ε α).close = (.error e, c, x) := rfl

theorem Out.close_result (o : Out σ φ ε α) : o.close.1 = o.result := by
  unfold Out.close
  split <;> rfl

theorem Out.close_outside (o : Out σ φ ε α) : o.close.2.2 = o.outside := by
  unfold Out.close
  split <;> rfl

theorem Out.close_of_error {o : Out σ φ ε α} {e : ε} (h : o.result = .error e) :
    o.close.2.1 = o.committed := by
  simp only [close, h]

/-! ## Failing statements -/

/-- The program whose `n`-th statement or commit fails with `e`.  Effects on the outside
state are not statements and are not counted. -/
def failAt (e : ε) : Nat → Prog Q σ φ ε α → Prog Q σ φ ε α
  | 0, ret _ => raise e
  | _ + 1, ret a => ret a
  | _, raise e' => raise e'
  | 0, select _ => raise e
  | n + 1, select k => select fun s => failAt e n (k s)
  | 0, write _ _ => raise e
  | n + 1, write q k => write q fun s => failAt e n (k s)
  | n, io f k => io f fun x => failAt e n (k x)
  | 0, commit _ => raise e
  | n + 1, commit k => commit (failAt e n k)

/-! ## One transaction -/

/-- The program commits nowhere but at its end. -/
def OneTransaction : Prog Q σ φ ε α → Prop
  | ret _ => True
  | raise _ => True
  | select k => ∀ s, (k s).OneTransaction
  | write _ k => ∀ s, (k s).OneTransaction
  | io _ k => ∀ x, (k x).OneTransaction
  | commit _ => False

section OneTransaction

omit [Statement Q σ] in
theorem OneTransaction.bind {p : Prog Q σ φ ε α} {g : α → Prog Q σ φ ε β}
    (hp : p.OneTransaction) (hg : ∀ a, (g a).OneTransaction) : (p >>= g).OneTransaction := by
  induction p with
  | ret a => exact hg a
  | raise e => trivial
  | select k ih => exact fun s => ih s (hp s)
  | write q k ih => exact fun s => ih s (hp s)
  | io f k ih => exact fun x => ih x (hp x)
  | commit k ih => exact hp.elim

omit [Statement Q σ] in
theorem OneTransaction.tryCatch {p : Prog Q σ φ ε α} {h : ε → Prog Q σ φ ε' α}
    (hp : p.OneTransaction) (hh : ∀ e, (h e).OneTransaction) : (p.tryCatch h).OneTransaction := by
  induction p with
  | ret a => trivial
  | raise e => exact hh e
  | select k ih => exact fun s => ih s (hp s)
  | write q k ih => exact fun s => ih s (hp s)
  | io f k ih => exact fun x => ih x (hp x)
  | commit k ih => exact hp.elim

omit [Statement Q σ] in
theorem OneTransaction.embed {Q' : Type} {p : Prog Q σ φ ε α} (hp : p.OneTransaction) (f : Q → Q') :
    (p.embed f).OneTransaction := by
  induction p with
  | ret a => trivial
  | raise e => trivial
  | select k ih => exact fun s => ih s (hp s)
  | write q k ih => exact fun s => ih s (hp s)
  | io g k ih => exact fun x => ih x (hp x)
  | commit k ih => exact hp.elim

omit [Statement Q σ] in
/-- A statement that fails adds no commit. -/
theorem OneTransaction.failAt {p : Prog Q σ φ ε α} (hp : p.OneTransaction) (e : ε) (n : Nat) :
    (p.failAt e n).OneTransaction := by
  induction p generalizing n with
  | ret a => cases n <;> trivial
  | raise e' => cases n <;> trivial
  | select k ih =>
      cases n with
      | zero => trivial
      | succ n => exact fun s => ih s (hp s) n
  | write q k ih =>
      cases n with
      | zero => trivial
      | succ n => exact fun s => ih s (hp s) n
  | io f k ih => cases n <;> exact fun x => ih x (hp x) _
  | commit k ih => exact hp.elim

/-- Until such a program ends nothing is committed. -/
theorem OneTransaction.exec_committed {p : Prog Q σ φ ε α} (hp : p.OneTransaction) (c w : σ)
    (x : φ) : (p.exec c w x).committed = c := by
  induction p generalizing w x with
  | ret a => rfl
  | raise e => rfl
  | select k ih => exact ih w (hp w) w x
  | write q k ih => exact ih w (hp w) _ x
  | io f k ih => exact ih x (hp x) w _
  | commit k ih => exact hp.elim

/-- Such a program leaves the database as it was when it raises. -/
theorem OneTransaction.dbAfter_of_error {p : Prog Q σ φ ε α} (hp : p.OneTransaction) {s : σ}
    {x : φ} {e : ε} (h : p.resultOf s x = .error e) : p.dbAfter s x = s := by
  rw [resultOf, atomic, Out.close_result] at h
  rw [dbAfter, atomic, Out.close_of_error h, hp.exec_committed]

end OneTransaction

/-! ## What a program may execute -/

/-- Reading only databases in `G`, the program executes no statement in `bad`, and what it
returns is in `post`. -/
def Avoids (G : σ → Prop) (bad : Q → Prop) (post : α → Prop) : Prog Q σ φ ε α → Prop
  | ret a => post a
  | raise _ => True
  | select k => ∀ s, G s → (k s).Avoids G bad post
  | write q k => ¬ bad q ∧ ∀ s, G s → (k s).Avoids G bad post
  | io _ k => ∀ x, (k x).Avoids G bad post
  | commit k => k.Avoids G bad post

omit [Statement Q σ] in
theorem Avoids.bind {G : σ → Prop} {bad : Q → Prop} {post : α → Prop} {post' : β → Prop}
    {p : Prog Q σ φ ε α} {g : α → Prog Q σ φ ε β} (hp : p.Avoids G bad post)
    (hg : ∀ a, post a → (g a).Avoids G bad post') : (p >>= g).Avoids G bad post' := by
  induction p with
  | ret a => exact hg a hp
  | raise e => trivial
  | select k ih => exact fun s hs => ih s (hp s hs)
  | write q k ih => exact ⟨hp.1, fun s hs => ih s (hp.2 s hs)⟩
  | io f k ih => exact fun x => ih x (hp x)
  | commit k ih => exact ih hp

omit [Statement Q σ] in
theorem Avoids.tryCatch {G : σ → Prop} {bad : Q → Prop} {post : α → Prop}
    {p : Prog Q σ φ ε α} {h : ε → Prog Q σ φ ε' α} (hp : p.Avoids G bad post)
    (hh : ∀ e, (h e).Avoids G bad post) : (p.tryCatch h).Avoids G bad post := by
  induction p with
  | ret a => exact hp
  | raise e => exact hh e
  | select k ih => exact fun s hs => ih s (hp s hs)
  | write q k ih => exact ⟨hp.1, fun s hs => ih s (hp.2 s hs)⟩
  | io f k ih => exact fun x => ih x (hp x)
  | commit k ih => exact ih hp

omit [Statement Q σ] in
/-- What a program and a change of its result avoid, the program avoids. -/
theorem Avoids.of_bind_ret {G : σ → Prop} {bad : Q → Prop} {post : β → Prop} {f : α → β}
    {p : Prog Q σ φ ε α} (h : (p >>= fun a => ret (f a)).Avoids G bad post) :
    p.Avoids G bad fun a => post (f a) := by
  induction p with
  | ret a => exact h
  | raise e => trivial
  | select k ih => exact fun s hs => ih s (h s hs)
  | write q k ih => exact ⟨h.1, fun s hs => ih s (h.2 s hs)⟩
  | io f k ih => exact fun x => ih x (h x)
  | commit k ih => exact ih h

omit [Statement Q σ] in
theorem Avoids.mono {G : σ → Prop} {bad : Q → Prop} {post post' : α → Prop}
    {p : Prog Q σ φ ε α} (hp : p.Avoids G bad post) (hpost : ∀ a, post a → post' a) :
    p.Avoids G bad post' := by
  induction p with
  | ret a => exact hpost a hp
  | raise e => trivial
  | select k ih => exact fun s hs => ih s (hp s hs)
  | write q k ih => exact ⟨hp.1, fun s hs => ih s (hp.2 s hs)⟩
  | io f k ih => exact fun x => ih x (hp x)
  | commit k ih => exact ih hp

omit [Statement Q σ] in
/-- To avoid fewer statements is easier. -/
theorem Avoids.weaken {G : σ → Prop} {bad bad' : Q → Prop} {post : α → Prop}
    {p : Prog Q σ φ ε α} (hp : p.Avoids G bad post) (hbad : ∀ q, bad' q → bad q) :
    p.Avoids G bad' post := by
  induction p with
  | ret a => exact hp
  | raise e => trivial
  | select k ih => exact fun s hs => ih s (hp s hs)
  | write q k ih => exact ⟨fun hq => hp.1 (hbad q hq), fun s hs => ih s (hp.2 s hs)⟩
  | io f k ih => exact fun x => ih x (hp x)
  | commit k ih => exact ih hp

omit [Statement Q σ] in
theorem Avoids.forEach {G : σ → Prop} {bad : Q → Prop} {l : List β}
    {body : β → Prog Q σ φ ε Unit}
    (h : ∀ b ∈ l, (body b).Avoids G bad fun _ => True) :
    (Prog.forEach l body).Avoids G bad fun _ => True := by
  induction l with
  | nil => trivial
  | cons b l ih =>
      refine Avoids.bind (h b (List.mem_cons_self ..)) fun _ _ => ?_
      exact ih fun b' hb' => h b' (List.mem_cons_of_mem _ hb')

/-! ## What a program does outside the database -/

/-- Every effect of the program stands in the relation `E`. -/
def Within (E : φ → φ → Prop) : Prog Q σ φ ε α → Prop
  | ret _ => True
  | raise _ => True
  | select k => ∀ s, (k s).Within E
  | write _ k => ∀ s, (k s).Within E
  | io f k => (∀ x, E x (f x)) ∧ ∀ x, (k x).Within E
  | commit k => k.Within E

section Within

variable {E : φ → φ → Prop}

omit [Statement Q σ] in
theorem Within.bind {p : Prog Q σ φ ε α} {g : α → Prog Q σ φ ε β} (hp : p.Within E)
    (hg : ∀ a, (g a).Within E) : (p >>= g).Within E := by
  induction p with
  | ret a => exact hg a
  | raise e => trivial
  | select k ih => exact fun s => ih s (hp s)
  | write q k ih => exact fun s => ih s (hp s)
  | io f k ih => exact ⟨hp.1, fun x => ih x (hp.2 x)⟩
  | commit k ih => exact ih hp

omit [Statement Q σ] in
theorem Within.tryCatch {p : Prog Q σ φ ε α} {h : ε → Prog Q σ φ ε' α} (hp : p.Within E)
    (hh : ∀ e, (h e).Within E) : (p.tryCatch h).Within E := by
  induction p with
  | ret a => trivial
  | raise e => exact hh e
  | select k ih => exact fun s => ih s (hp s)
  | write q k ih => exact fun s => ih s (hp s)
  | io f k ih => exact ⟨hp.1, fun x => ih x (hp.2 x)⟩
  | commit k ih => exact ih hp

omit [Statement Q σ] in
theorem Within.forEach {l : List β} {body : β → Prog Q σ φ ε Unit}
    (h : ∀ b, (body b).Within E) : (Prog.forEach l body).Within E := by
  induction l with
  | nil => trivial
  | cons b l ih => exact Within.bind (h b) fun _ => ih

/-- A reflexive and transitive relation leads from the outside state to what a run alone leaves. -/
theorem Within.outsideAfter (refl : ∀ x, E x x) (trans : ∀ {x y z}, E x y → E y z → E x z)
    {p : Prog Q σ φ ε α} (h : p.Within E) (s : σ) (x : φ) : E x (p.outsideAfter s x) := by
  have hexec : ∀ (p : Prog Q σ φ ε α) (c w : σ) (x : φ), p.Within E →
      E x (p.exec c w x).outside := by
    intro p
    induction p with
    | ret a => exact fun _ _ x _ => refl x
    | raise e => exact fun _ _ x _ => refl x
    | select k ih => exact fun c w x h => ih w c w x (h w)
    | write q k ih => exact fun c w x h => ih w c _ x (h w)
    | io f k ih => exact fun c w x h => trans (h.1 x) (ih x c w _ (h.2 x))
    | commit k ih => exact fun _ w x h => ih w w x h
  rw [Prog.outsideAfter, atomic, Out.close_outside]
  exact hexec p s s x h

end Within

/-! ## What a program commits -/

/-- A relation between the database found by the first write and the working copy, or, before
the first write, between every database and itself. -/
def Since (T : σ → σ → Prop) : Option (σ × σ) → Prop
  | none => ∀ s, T s s
  | some (f, w) => T f w

omit [Statement Q σ] in
theorem Since.mono {T T' : σ → σ → Prop} (h : ∀ s t, T s t → T' s t) {o : Option (σ × σ)}
    (ho : Since T o) : Since T' o := by
  cases o with
  | none => exact fun s => h s s (ho s)
  | some fw => exact h fw.1 fw.2 ho

/-- Whatever the program reads before its first write, and whatever database its first write
finds, `mid` holds at every commit before the end and `post` at the end.  The pair is the
database found and the working copy, once the program has written. -/
def Serial (mid : Option (σ × σ) → Prop) (post : α → Option (σ × σ) → Prop) :
    Prog Q σ φ ε α → Option (σ × σ) → Prop
  | ret a, o => post a o
  | raise _, _ => True
  | select k, none => ∀ s, (k s).Serial mid post none
  | select k, some (f, w) => (k w).Serial mid post (some (f, w))
  | write q k, none => ∀ s, (k s).Serial mid post (some (s, Statement.apply q s))
  | write q k, some (f, w) => (k w).Serial mid post (some (f, Statement.apply q w))
  | io _ k, o => ∀ x, (k x).Serial mid post o
  | commit k, o => mid o ∧ k.Serial mid post none

section Serial

variable {mid : Option (σ × σ) → Prop} {o : Option (σ × σ)}

/-- A sequence is its first part with the rest as what is to hold at its end. -/
theorem serial_bind {post : β → Option (σ × σ) → Prop} {p : Prog Q σ φ ε α}
    {g : α → Prog Q σ φ ε β} :
    (p >>= g).Serial mid post o ↔ p.Serial mid (fun a o => (g a).Serial mid post o) o := by
  induction p generalizing o with
  | ret a => exact Iff.rfl
  | raise e => exact Iff.rfl
  | select k ih =>
      cases o with
      | none => exact forall_congr' fun s => ih s
      | some fw => exact ih fw.2
  | write q k ih =>
      cases o with
      | none => exact forall_congr' fun s => ih s
      | some fw => exact ih fw.2
  | io f k ih => exact forall_congr' fun x => ih x
  | commit k ih => exact and_congr_right fun _ => ih

theorem serial_mono {post post' : α → Option (σ × σ) → Prop} {p : Prog Q σ φ ε α}
    (hp : p.Serial mid post o) (h : ∀ a o, post a o → post' a o) : p.Serial mid post' o := by
  induction p generalizing o with
  | ret a => exact h a o hp
  | raise e => trivial
  | select k ih =>
      cases o with
      | none => exact fun s => ih s (hp s)
      | some fw => exact ih fw.2 hp
  | write q k ih =>
      cases o with
      | none => exact fun s => ih s (hp s)
      | some fw => exact ih fw.2 hp
  | io f k ih => exact fun x => ih x (hp x)
  | commit k ih => exact ⟨hp.1, ih hp.2⟩

/-- A handler takes over what the exception leaves. -/
theorem serial_tryCatch {post : α → Option (σ × σ) → Prop} {p : Prog Q σ φ ε α}
    {h : ε → Prog Q σ φ ε' α} (hp : p.Serial mid post o)
    (hh : ∀ e o, (h e).Serial mid post o) : (p.tryCatch h).Serial mid post o := by
  induction p generalizing o with
  | ret a => exact hp
  | raise e => exact hh e o
  | select k ih =>
      cases o with
      | none => exact fun s => ih s (hp s)
      | some fw => exact ih fw.2 hp
  | write q k ih =>
      cases o with
      | none => exact fun s => ih s (hp s)
      | some fw => exact ih fw.2 hp
  | io f k ih => exact fun x => ih x (hp x)
  | commit k ih => exact ⟨hp.1, ih hp.2⟩

/-- A reading statement whose result does not matter. -/
theorem serial_query {f : σ → α} {post : α → Option (σ × σ) → Prop} (h : ∀ a, post a o) :
    (query f : Prog Q σ φ ε α).Serial mid post o := by
  cases o with
  | none => exact fun s => h (f s)
  | some fw => exact h (f fw.2)

/-- A reflexive and transitive relation that every statement respects holds at every commit of
every program. -/
theorem serial_of_rel {R : σ → σ → Prop} (refl : ∀ s, R s s)
    (trans : ∀ {s t u}, R s t → R t u → R s u) (step : ∀ (q : Q) s, R s (Statement.apply q s))
    (p : Prog Q σ φ ε α) (h : Since R o) : p.Serial (Since R) (fun _ => Since R) o := by
  induction p generalizing o with
  | ret a => exact h
  | raise e => trivial
  | select k ih =>
      cases o with
      | none => exact fun s => ih s h
      | some fw => exact ih fw.2 h
  | write q k ih =>
      cases o with
      | none => exact fun s => ih s (step q s)
      | some fw => exact ih fw.2 (trans h (step q fw.2))
  | io f k ih => exact fun x => ih x h
  | commit k ih => exact ⟨h, ih refl⟩

/-- A statement that respects a relation. -/
theorem serial_execute {R : σ → σ → Prop} (trans : ∀ {s t u}, R s t → R t u → R s u) {q : Q}
    (step : ∀ s, R s (Statement.apply q s)) (h : Since R o) :
    (execute q : Prog Q σ φ ε Unit).Serial mid (fun _ => Since R) o := by
  cases o with
  | none => exact step
  | some fw => exact trans h (step fw.2)

/-- A loop whose body respects a relation. -/
theorem serial_forEach {R : σ → σ → Prop} {body : β → Prog Q σ φ ε Unit} {l : List β}
    (hbody : ∀ b o, Since R o → (body b).Serial mid (fun _ => Since R) o) (h : Since R o) :
    (forEach l body).Serial mid (fun _ => Since R) o := by
  induction l generalizing o with
  | nil => exact h
  | cons b l ih =>
      rw [forEach_cons, serial_bind]
      exact serial_mono (hbody b o h) fun _ _ ho => ih ho

/-- A first part of which only such a relation is known. -/
theorem serial_bind_of_rel {R : σ → σ → Prop} (refl : ∀ s, R s s)
    (trans : ∀ {s t u}, R s t → R t u → R s u) (step : ∀ (q : Q) s, R s (Statement.apply q s))
    {p : Prog Q σ φ ε α} {g : α → Prog Q σ φ ε β} {post : β → Option (σ × σ) → Prop}
    (h : Since R o) (hg : ∀ a o, Since R o → (g a).Serial (Since R) post o) :
    (p >>= g).Serial (Since R) post o :=
  serial_bind.mpr (serial_mono (serial_of_rel refl trans step p h) hg)

/-- A writing statement, executed on a working copy that comes from the database found. -/
theorem serial_executeReturning {R : σ → σ → Prop} (refl : ∀ s, R s s) {q : Q} {f : σ → α}
    {post : α → Option (σ × σ) → Prop} (h : Since R o)
    (hpost : ∀ s w, R s w → post (f w) (some (s, Statement.apply q w))) :
    (executeReturning q f : Prog Q σ φ ε α).Serial mid post o := by
  cases o with
  | none => exact fun s => hpost s s (refl s)
  | some fw => exact hpost fw.1 fw.2 h

end Serial

end Prog

end Foundations
