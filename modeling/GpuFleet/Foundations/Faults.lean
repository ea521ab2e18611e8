import GpuFleet.Foundations.Triple

/-!
# Transactions that fail

`withFault fault p` is a program whose statement or commit of a given number fails, or the program
itself.  Its first transaction is committed exactly if the program comes to a commit and the
failure to a later statement (`Commits`).

`untilCommit I R p w x` says of the program, run from the working copy `w` and the outside state
`x`: wherever its first transaction can fail, `I` holds of both, and where it is committed, `R`
does, of what the whole program leaves (`Leaves`).  A transaction that fails leaves the committed
database as it was, and an outside state of which `I` holds (`rolledBack`); one that is committed
leaves what `R` says (`committed`).  `guarded I post` is the same for a part of a transaction, and
composes; a part is executed to its end or fails before (`guarded_cases`).
-/

namespace Foundations

namespace Prog

variable {Q σ φ ε ε' α β : Type}

/-- The program with a statement or a commit that fails, given by its number and the exception. -/
def withFault (fault : Option (Nat × ε)) (p : Prog Q σ φ ε α) : Prog Q σ φ ε α :=
  match fault with
  | none => p
  | some f => p.failAt f.2 f.1

/-- The failure, numbered from the statement after the first `k`. -/
def faultAfter (k : Nat) (fault : Option (Nat × ε)) : Option (Nat × ε) :=
  fault.map fun f => (f.1 - k, f.2)

section FaultAfter

variable {fault : Option (Nat × ε)}

theorem faultAfter_zero : faultAfter 0 fault = fault := by
  cases fault <;> rfl

theorem faultAfter_succ (k : Nat) :
    faultAfter k (faultAfter 1 fault) = faultAfter (k + 1) fault := by
  cases fault with
  | none => rfl
  | some f =>
      rw [faultAfter, faultAfter, Option.map_some, Option.map_some, Nat.sub_sub, Nat.add_comm]
      rfl

theorem le_faultAfter_iff {j k : Nat} (hpass : ∀ f ∈ fault, k ≤ f.1) :
    (∀ f ∈ faultAfter k fault, j ≤ f.1) ↔ ∀ f ∈ fault, k + j ≤ f.1 := by
  cases fault with
  | none => simp [faultAfter]
  | some f =>
      have hf := hpass f rfl
      simp only [faultAfter, Option.map_some, Option.mem_def, Option.some.injEq, forall_eq']
      omega

/-- A failure of the first statement. -/
theorem not_passed {e : ε} {first : Option Nat} {k : Nat} (h : first.map (· + 1) = some k) :
    ¬ ∀ f ∈ some (0, e), k ≤ f.1 := by
  obtain ⟨n, -, rfl⟩ := Option.map_eq_some_iff.mp h
  intro hle
  cases hle _ rfl

end FaultAfter

variable [Statement Q σ]

/-- The number of the first commit, unless the program raises before it.  A part of a transaction
executes that many statements. -/
def firstCommit : Prog Q σ φ ε α → σ → φ → Option Nat
  | ret _, _, _ => some 0
  | raise _, _, _ => none
  | select k, w, x => ((k w).firstCommit w x).map (· + 1)
  | write q k, w, x => ((k w).firstCommit (Statement.apply q w) x).map (· + 1)
  | io f k, w, x => (k x).firstCommit w (f x)
  | commit _, _, _ => some 0

/-- The first transaction is committed. -/
def Commits (fault : Option (Nat × ε)) (p : Prog Q σ φ ε α) (w : σ) (x : φ) : Prop :=
  ∃ k, p.firstCommit w x = some k ∧ ∀ f ∈ fault, k < f.1

/-- Whatever fails in the program, it leaves a committed database and an outside state that
are in the relation. -/
def Leaves (R : σ → φ → Prop) (p : Prog Q σ φ ε α) (w : σ) (x : φ) : Prop :=
  ∀ fault, R ((p.withFault fault).exec w w x).close.2.1 ((p.withFault fault).exec w w x).outside

/-- Wherever the first transaction can fail `I` holds, and where it is committed what the program
leaves is in `R`. -/
def untilCommit (I R : σ → φ → Prop) : Prog Q σ φ ε α → σ → φ → Prop
  | ret _, w, x => I w x ∧ R w x
  | raise _, w, x => I w x
  | select k, w, x => I w x ∧ (k w).untilCommit I R w x
  | write q k, w, x => I w x ∧ (k w).untilCommit I R (Statement.apply q w) x
  | io f k, w, x => (k x).untilCommit I R w (f x)
  | commit k, w, x => I w x ∧ k.Leaves R w x

section Faults

variable {I R : σ → φ → Prop} {p : Prog Q σ φ ε α} {c w : σ} {x : φ}

omit [Statement Q σ] in
/-- A statement before the first commit counts. -/
theorem commits_map {fault : Option (Nat × ε)} {first : Option Nat} :
    (∃ k, first.map (· + 1) = some k ∧ ∀ f ∈ fault, k < f.1) ↔
      (∀ f ∈ fault, 0 < f.1) ∧ ∃ k, first = some k ∧
        ∀ f ∈ faultAfter 1 fault, k < f.1 := by
  cases first with
  | none => simp
  | some n =>
      cases fault with
      | none => simp [faultAfter]
      | some f =>
          simp only [faultAfter, Option.map_some, Option.some.injEq, exists_eq_left',
            Option.mem_def, forall_eq']
          omega

omit [Statement Q σ] in
/-- Passing a statement. -/
theorem withFault_select {fault : Option (Nat × ε)} (h : ∀ f ∈ fault, 0 < f.1)
    (k : σ → Prog Q σ φ ε α) :
    (select k).withFault fault =
      select fun s => (k s).withFault (faultAfter 1 fault) := by
  cases fault with
  | none => rfl
  | some f =>
      obtain ⟨n, e⟩ := f
      cases n with
      | zero => exact absurd (h _ rfl) (Nat.lt_irrefl 0)
      | succ n => rfl

omit [Statement Q σ] in
theorem withFault_write {fault : Option (Nat × ε)} (h : ∀ f ∈ fault, 0 < f.1) (q : Q)
    (k : σ → Prog Q σ φ ε α) :
    (write q k).withFault fault =
      write q fun s => (k s).withFault (faultAfter 1 fault) := by
  cases fault with
  | none => rfl
  | some f =>
      obtain ⟨n, e⟩ := f
      cases n with
      | zero => exact absurd (h _ rfl) (Nat.lt_irrefl 0)
      | succ n => rfl

omit [Statement Q σ] in
theorem withFault_raise (fault : Option (Nat × ε)) (e : ε) :
    (raise e : Prog Q σ φ ε α).withFault fault = raise e := by
  cases fault with
  | none => rfl
  | some f =>
      obtain ⟨n, e'⟩ := f
      cases n <;> rfl

omit [Statement Q σ] in
theorem withFault_io (fault : Option (Nat × ε)) (f : φ → φ) (k : φ → Prog Q σ φ ε α) :
    (io f k).withFault fault = io f fun x => (k x).withFault fault := by
  cases fault with
  | none => rfl
  | some f =>
      obtain ⟨n, e⟩ := f
      cases n <;> rfl

omit [Statement Q σ] in
/-- The first statement fails, or all do later. -/
theorem fault_cases (fault : Option (Nat × ε)) :
    (∃ e, fault = some (0, e)) ∨ ∀ f ∈ fault, 0 < f.1 := by
  cases fault with
  | none => simp
  | some f =>
      obtain ⟨n, e⟩ := f
      cases n with
      | zero => exact Or.inl ⟨e, rfl⟩
      | succ n => simp

/-- A transaction that fails is rolled back. -/
theorem rolledBack {fault : Option (Nat × ε)} (h : p.untilCommit I R w x)
    (hfault : ¬ p.Commits fault w x) :
    (∃ e, ((p.withFault fault).exec c w x).result = .error e) ∧
      ((p.withFault fault).exec c w x).committed = c ∧
      I ((p.withFault fault).exec c w x).working ((p.withFault fault).exec c w x).outside := by
  induction p generalizing fault w x with
  | ret a =>
      rcases fault_cases fault with ⟨e, rfl⟩ | hpos
      · exact ⟨⟨e, rfl⟩, rfl, h.1⟩
      · exact absurd ⟨0, rfl, hpos⟩ hfault
  | raise e' =>
      rw [withFault_raise]
      exact ⟨⟨e', rfl⟩, rfl, h⟩
  | select k ih =>
      rcases fault_cases fault with ⟨e, rfl⟩ | hpos
      · exact ⟨⟨e, rfl⟩, rfl, h.1⟩
      · rw [withFault_select hpos]
        exact ih w h.2 fun hk => hfault (commits_map.mpr ⟨hpos, hk⟩)
  | write q k ih =>
      rcases fault_cases fault with ⟨e, rfl⟩ | hpos
      · exact ⟨⟨e, rfl⟩, rfl, h.1⟩
      · rw [withFault_write hpos]
        exact ih w h.2 fun hk => hfault (commits_map.mpr ⟨hpos, hk⟩)
  | io f k ih =>
      rw [withFault_io]
      exact ih x h hfault
  | commit k ih =>
      rcases fault_cases fault with ⟨e, rfl⟩ | hpos
      · exact ⟨⟨e, rfl⟩, rfl, h.1⟩
      · exact absurd ⟨0, rfl, hpos⟩ hfault

/-- A transaction that is committed. -/
theorem committed {fault : Option (Nat × ε)} (h : p.untilCommit I R w x)
    (hfault : p.Commits fault w x) :
    R ((p.withFault fault).exec c w x).close.2.1 ((p.withFault fault).exec c w x).outside := by
  induction p generalizing fault w x with
  | ret a =>
      obtain ⟨_, ⟨rfl⟩, hpos⟩ := hfault
      have hret : (ret a : Prog Q σ φ ε α).withFault fault = ret a := by
        cases fault with
        | none => rfl
        | some f =>
            obtain ⟨n, e⟩ := f
            cases n with
            | zero => exact absurd (hpos _ rfl) (Nat.lt_irrefl 0)
            | succ n => rfl
      rw [hret]
      exact h.2
  | raise e =>
      obtain ⟨_, hnone, -⟩ := hfault
      cases hnone
  | select k ih =>
      obtain ⟨hpos, hk⟩ := commits_map.mp hfault
      rw [withFault_select hpos]
      exact ih w h.2 hk
  | write q k ih =>
      obtain ⟨hpos, hk⟩ := commits_map.mp hfault
      rw [withFault_write hpos]
      exact ih w h.2 hk
  | io f k ih =>
      rw [withFault_io]
      exact ih x h hfault
  | commit k ih =>
      obtain ⟨_, ⟨rfl⟩, hpos⟩ := hfault
      have hcommit : (commit k).withFault fault =
          commit (k.withFault (faultAfter 1 fault)) := by
        cases fault with
        | none => rfl
        | some f =>
            obtain ⟨n, e⟩ := f
            cases n with
            | zero => exact absurd (hpos _ rfl) (Nat.lt_irrefl 0)
            | succ n => rfl
      rw [hcommit]
      exact h.2 _

/-- What holds of the outside state wherever the first transaction can fail, and after it. -/
theorem outside_of_untilCommit {K : φ → Prop}
    (h : p.untilCommit (fun _ => K) (fun _ => K) w x) (fault : Option (Nat × ε)) :
    K ((p.withFault fault).exec c w x).outside := by
  by_cases hcommits : p.Commits fault w x
  · exact committed h hcommits
  · exact (rolledBack h hcommits).2.2

end Faults

/-! ## Parts of a transaction -/

/-- A part of a transaction: wherever it can fail or raise, `I` holds, and `post` at its end. -/
def guarded (I : σ → φ → Prop) (post : α → σ → φ → Prop) : Prog Q σ φ ε α → σ → φ → Prop
  | ret a, w, x => post a w x
  | raise _, w, x => I w x
  | select k, w, x => I w x ∧ (k w).guarded I post w x
  | write q k, w, x => I w x ∧ (k w).guarded I post (Statement.apply q w) x
  | io f k, w, x => (k x).guarded I post w (f x)
  | commit _, _, _ => False

section Rules

variable {I R : σ → φ → Prop} {post : α → σ → φ → Prop} {w : σ} {x : φ}

theorem guarded_query {f : σ → α} (h : I w x) (hpost : post (f w) w x) :
    (query f : Prog Q σ φ ε α).guarded I post w x :=
  ⟨h, hpost⟩

theorem guarded_mono {I' : σ → φ → Prop} {post' : α → σ → φ → Prop} {p : Prog Q σ φ ε α}
    (h : p.guarded I post w x) (hI : ∀ w x, I w x → I' w x)
    (hpost : ∀ a w x, post a w x → post' a w x) : p.guarded I' post' w x := by
  induction p generalizing w x with
  | ret a => exact hpost a w x h
  | raise e => exact hI w x h
  | select k ih => exact ⟨hI w x h.1, ih w h.2⟩
  | write q k ih => exact ⟨hI w x h.1, ih w h.2⟩
  | io f k ih => exact ih x h
  | commit k ih => exact h

/-- A sequence: the rest starts from what its first part leaves. -/
theorem guarded_bind {post : β → σ → φ → Prop} {p : Prog Q σ φ ε α} {g : α → Prog Q σ φ ε β}
    (h : p.guarded I (fun a w x => (g a).guarded I post w x) w x) :
    (p >>= g).guarded I post w x := by
  induction p generalizing w x with
  | ret a => exact h
  | raise e => exact h
  | select k ih => exact ⟨h.1, ih w h.2⟩
  | write q k ih => exact ⟨h.1, ih w h.2⟩
  | io f k ih => exact ih x h
  | commit k ih => exact h.elim

/-- A sequence up to its first commit. -/
theorem untilCommit_bind {p : Prog Q σ φ ε α} {g : α → Prog Q σ φ ε β}
    (h : p.guarded I (fun a w x => (g a).untilCommit I R w x) w x) :
    (p >>= g).untilCommit I R w x := by
  induction p generalizing w x with
  | ret a => exact h
  | raise e => exact h
  | select k ih => exact ⟨h.1, ih w h.2⟩
  | write q k ih => exact ⟨h.1, ih w h.2⟩
  | io f k ih => exact ih x h
  | commit k ih => exact h.elim

omit [Statement Q σ] in
/-- A part that begins with a statement. -/
theorem passed_succ {fault : Option (Nat × ε)} (hpos : ∀ f ∈ fault, 0 < f.1) {first : Option Nat}
    {D : Nat → Prop} {E : Prop}
    (h : (∃ k, first = some k ∧ (∀ f ∈ faultAfter 1 fault, k ≤ f.1) ∧ D (k + 1)) ∨
      (∀ k, first = some k → ¬ ∀ f ∈ faultAfter 1 fault, k ≤ f.1) ∧ E) :
    (∃ k, first.map (· + 1) = some k ∧ (∀ f ∈ fault, k ≤ f.1) ∧ D k) ∨
      (∀ k, first.map (· + 1) = some k → ¬ ∀ f ∈ fault, k ≤ f.1) ∧ E := by
  have hle : ∀ k, (∀ f ∈ faultAfter 1 fault, k ≤ f.1) ↔ ∀ f ∈ fault, k + 1 ≤ f.1 := by
    intro k
    rw [le_faultAfter_iff hpos, Nat.add_comm]
  rcases h with ⟨k, rfl, hpass, hD⟩ | ⟨hnot, hE⟩
  · exact Or.inl ⟨k + 1, rfl, (hle k).mp hpass, hD⟩
  · refine Or.inr ⟨fun n hn hpass => ?_, hE⟩
    obtain ⟨k, hk, rfl⟩ := Option.map_eq_some_iff.mp hn
    exact hnot k hk ((hle k).mpr hpass)

/-- A part is executed to its end, or fails before. -/
theorem guarded_cases {c : σ} {p : Prog Q σ φ ε α} (g : α → Prog Q σ φ ε β)
    (fault : Option (Nat × ε)) (h : p.guarded I post w x) :
    (∃ k, p.firstCommit w x = some k ∧ (∀ f ∈ fault, k ≤ f.1) ∧ ∃ a w' x', post a w' x' ∧
        ((p >>= g).withFault fault).exec c w x =
          ((g a).withFault (faultAfter k fault)).exec c w' x') ∨
      (∀ k, p.firstCommit w x = some k → ¬ ∀ f ∈ fault, k ≤ f.1) ∧ ∃ e w' x', I w' x' ∧
        ((p >>= g).withFault fault).exec c w x = ⟨.error e, c, w', x'⟩ := by
  induction p generalizing fault w x with
  | ret a =>
      refine Or.inl ⟨0, rfl, fun _ _ => Nat.zero_le _, a, w, x, h, ?_⟩
      rw [faultAfter_zero]
      rfl
  | raise e =>
      refine Or.inr ⟨fun _ hk => ?_, e, w, x, h, ?_⟩
      · cases hk
      · rw [raise_bind, withFault_raise]
        rfl
  | select k ih =>
      rcases fault_cases fault with ⟨e, rfl⟩ | hpos
      · exact Or.inr ⟨fun _ => not_passed, e, w, x, h.1, rfl⟩
      · rw [select_bind, withFault_select hpos]
        have hk := ih w (faultAfter 1 fault) h.2
        simp only [faultAfter_succ] at hk
        exact passed_succ hpos hk
  | write q k ih =>
      rcases fault_cases fault with ⟨e, rfl⟩ | hpos
      · exact Or.inr ⟨fun _ => not_passed, e, w, x, h.1, rfl⟩
      · rw [write_bind, withFault_write hpos]
        have hk := ih w (faultAfter 1 fault) h.2
        simp only [faultAfter_succ] at hk
        exact passed_succ hpos hk
  | io f k ih =>
      rw [io_bind, withFault_io]
      exact ih x fault h
  | commit k ih => exact h.elim

/-- A loop whose invariant speaks of the elements still to come. -/
theorem guarded_forEach {J : List β → σ → φ → Prop} {body : β → Prog Q σ φ ε Unit} {l : List β}
    (h : ∀ b l w x, J (b :: l) w x → (body b).guarded I (fun _ w x => J l w x) w x) (hw : J l w x) :
    (forEach l body).guarded I (fun _ w x => J [] w x) w x := by
  induction l generalizing w x with
  | nil => exact hw
  | cons b l ih =>
      rw [forEach_cons]
      exact guarded_bind (guarded_mono (h b l w x hw) (fun _ _ => id) fun _ w x hw => ih hw)

/-- A part that only reads. -/
theorem ReadsAlike.guarded {p : Prog Q σ φ ε α} {s : σ} (hp : p.ReadsAlike w s) (h : I w x) :
    p.guarded I (fun a w' x' => w' = w ∧ x' = x ∧ p.resultOf s x = .ok a) w x := by
  induction p with
  | ret a => exact ⟨rfl, rfl, rfl⟩
  | raise e => exact h
  | select k ih =>
      have hk := ih w hp.2
      rw [hp.1] at hk
      refine ⟨h, ?_⟩
      rw [hp.1]
      exact hk
  | write q k | io f k | commit k => exact hp.elim

/-- The program acts on the database alone, and commits nowhere but at its end. -/
def Internal : Prog Q σ φ ε α → Prop
  | ret _ => True
  | raise _ => True
  | select k => ∀ s, (k s).Internal
  | write _ k => ∀ s, (k s).Internal
  | io _ _ => False
  | commit _ => False

omit [Statement Q σ] in
theorem Internal.bind {p : Prog Q σ φ ε α} {g : α → Prog Q σ φ ε β} (hp : p.Internal)
    (hg : ∀ a, (g a).Internal) : (p >>= g).Internal := by
  induction p with
  | ret a => exact hg a
  | raise e => trivial
  | select k ih => exact fun s => ih s (hp s)
  | write q k ih => exact fun s => ih s (hp s)
  | io f k | commit k => exact hp.elim

omit [Statement Q σ] in
theorem Internal.tryCatch {p : Prog Q σ φ ε α} {h : ε → Prog Q σ φ ε' α} (hp : p.Internal)
    (hh : ∀ e, (h e).Internal) : (p.tryCatch h).Internal := by
  induction p with
  | ret a => trivial
  | raise e => exact hh e
  | select k ih => exact fun s => ih s (hp s)
  | write q k ih => exact fun s => ih s (hp s)
  | io f k | commit k => exact hp.elim

/-- A part that acts on the database alone ends as it does when nothing fails. -/
theorem Internal.guarded {exn : ε → σ → σ → Prop} {post : α → σ → σ → Prop} {c : σ}
    {p : Prog Q σ φ ε α} (hp : p.Internal) (h : p.ends exn post c w) :
    p.guarded (fun _ x' => x' = x) (fun a w' x' => post a c w' ∧ x' = x) w x := by
  induction p generalizing w with
  | ret a => exact ⟨h, rfl⟩
  | raise e => exact rfl
  | select k ih => exact ⟨rfl, ih w (hp w) h⟩
  | write q k ih => exact ⟨rfl, ih w (hp w) h⟩
  | io f k | commit k => exact hp.elim

/-- What follows the last commit and executes no statement. -/
theorem leaves_ret {a : α} (h : R w x) : (ret a : Prog Q σ φ ε α).Leaves R w x := by
  intro fault
  rcases fault_cases fault with ⟨e, rfl⟩ | hpos
  · exact h
  · cases fault with
    | none => exact h
    | some f =>
        obtain ⟨n, e⟩ := f
        cases n with
        | zero => exact h
        | succ n => exact h

theorem leaves_io {f : φ → φ} {k : φ → Prog Q σ φ ε α} (h : (k x).Leaves R w (f x)) :
    (io f k).Leaves R w x := by
  intro fault
  rw [withFault_io]
  exact h fault

end Rules

end Prog

end Foundations
