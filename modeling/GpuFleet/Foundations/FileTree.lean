import GpuFleet.Foundations.Triple
import Mathlib.Data.List.Infix

/-!
# Programs on a tree of files

A tree without symbolic links is the list of its nodes, by their paths.  Five
system calls change it (`Syscall`).  A call that the state of the tree forbids,
or that the system refuses for a reason of its own, raises and changes nothing;
there is no rollback.  `trace` lists the calls of a run with the trees they
found, whether the run returns or raises.

Over the calls stand the functions that make a directory with its parents,
remove and copy a subtree, and move a node.  Each has a rule that says which
paths its calls touch: a directory and what leads to it (`only_mkdirParents`), or
what lies below the operands (`only_rmtree`, `only_copytree`, `only_move`).
-/

namespace Foundations

/-! ## Trees -/

/-- A directory or a file. -/
inductive FileNode (B : Type) where
  | dir
  | file (content : B)
  deriving DecidableEq, Repr

/-- The nodes of a tree but its root, which is a directory. -/
structure FileTree (C B : Type) where
  nodes : List (List C × FileNode B) := []

/-- The calls that change a tree. -/
inductive Syscall (C B : Type) where
  | mkdir (path : List C)
  /-- Open a file for writing, creating it if it is missing, and write its content. -/
  | write (path : List C) (content : B)
  | rename (source target : List C)
  | unlink (path : List C)
  | rmdir (path : List C)
  deriving DecidableEq, Repr

/-- What ends a program: an error of the system, or anything else. -/
inductive FileError where
  | notFound
  | alreadyExists
  | notDirectory
  | isDirectory
  | notEmpty
  | refused
  | raised (message : String)
  deriving DecidableEq, Repr

/-- `isinstance(e, OSError)` -/
def FileError.isOs : FileError → Bool
  | raised _ => false
  | _ => true

section Tree

variable {C B : Type} [DecidableEq C]

namespace FileTree

/-- The node at a path. -/
def get? (t : FileTree C B) (path : List C) : Option (FileNode B) :=
  if path = [] then some .dir else (t.nodes.find? fun n => n.1 = path).map Prod.snd

/-- There is a directory at the path. -/
def isDir (t : FileTree C B) (path : List C) : Bool :=
  match t.get? path with
  | some .dir => true
  | _ => false

/-- The names in a directory. -/
def entries (t : FileTree C B) (path : List C) : List C :=
  t.nodes.filterMap fun n => if n.1.dropLast = path then n.1.getLast? else none

/-- No path is longer. -/
def depth (t : FileTree C B) : Nat := t.nodes.foldl (fun d n => max d n.1.length) 0

/-- Put a node at a path. -/
def put (t : FileTree C B) (path : List C) (node : FileNode B) : FileTree C B :=
  ⟨t.nodes.filter (fun n => n.1 ≠ path) ++ [(path, node)]⟩

/-- Take away the node at a path. -/
def drop (t : FileTree C B) (path : List C) : FileTree C B := ⟨t.nodes.filter fun n => n.1 ≠ path⟩

/-- A node of the subtree at `source`, moved to `target`. -/
def relocateNode (source target : List C) (n : List C × FileNode B) : List C × FileNode B :=
  if source.isPrefixOf n.1 then (target ++ n.1.drop source.length, n.2) else n

/-- Move the subtree at `source` to `target`, in the place of what is there. -/
def relocate (t : FileTree C B) (source target : List C) : FileTree C B :=
  ⟨(t.nodes.filter fun n => source.isPrefixOf n.1 || !target.isPrefixOf n.1).map
    (relocateNode source target)⟩

end FileTree

namespace Syscall

/-- The tree after a call. -/
def apply (q : Syscall C B) (t : FileTree C B) : FileTree C B :=
  match q with
  | mkdir path => t.put path .dir
  | write path content => t.put path (.file content)
  | rename source target => if source = target then t else t.relocate source target
  | unlink path => t.drop path
  | rmdir path => t.drop path

/-- Why nothing new can be put at a path: what leads to it is missing or is a file. -/
def parentError (t : FileTree C B) (path : List C) : Option FileError :=
  (path.inits.dropLast.find? fun p => !t.isDir p).map fun p =>
    if (t.get? p).isSome then .notDirectory else .notFound

/-- Why the tree forbids the call. -/
def forbidden (q : Syscall C B) (t : FileTree C B) : Option FileError :=
  match q with
  | mkdir path =>
      match t.get? path with
      | some _ => some .alreadyExists
      | none => parentError t path
  | write path _ => if t.isDir path then some .isDirectory else parentError t path
  | rename source target =>
      match t.get? source, t.get? target with
      | none, _ => some .notFound
      | some .dir, some .dir =>
          if source ≠ target ∧ t.entries target ≠ [] then some .notEmpty
          else if source ≠ target ∧ source.isPrefixOf target then some .refused else none
      | some .dir, some (.file _) => some .notDirectory
      | some (.file _), some .dir => some .isDirectory
      | some .dir, none => if source.isPrefixOf target then some .refused else parentError t target
      | some (.file _), _ => parentError t target
  | unlink path =>
      match t.get? path with
      | none => some .notFound
      | some .dir => some .isDirectory
      | some (.file _) => none
  | rmdir path =>
      match t.get? path with
      | none => some .notFound
      | some (.file _) => some .notDirectory
      | some .dir => if t.entries path = [] ∧ path ≠ [] then none else some .notEmpty

/-- The call creates, overwrites, moves or removes what is at the path. -/
def Touches (q : Syscall C B) (path : List C) : Prop :=
  match q with
  | mkdir path' | write path' _ | unlink path' | rmdir path' => path = path'
  | rename source target => source <+: path ∨ target <+: path

end Syscall

instance : Statement (Syscall C B) (FileTree C B) := ⟨Syscall.apply⟩

section Frame

variable {t : FileTree C B} {path path' source target : List C} {node : FileNode B}

theorem FileTree.find?_filter_ne (h : path ≠ path') (l : List (List C × FileNode B)) :
    (l.filter fun n => n.1 ≠ path').find? (fun n => n.1 = path) = l.find? fun n => n.1 = path := by
  rw [List.find?_filter]
  refine congrArg (List.find? · l) (funext fun n => ?_)
  by_cases hn : n.1 = path
  · simp [hn, h]
  · simp [hn]

theorem FileTree.get?_put (h : path ≠ path') : (t.put path' node).get? path = t.get? path := by
  rw [get?, get?, put, List.find?_append, find?_filter_ne h]
  simp [h.symm]

theorem FileTree.get?_drop (h : path ≠ path') : (t.drop path').get? path = t.get? path := by
  rw [get?, get?, drop, find?_filter_ne h]

theorem FileTree.get?_relocate (hsource : ¬ source <+: path) (htarget : ¬ target <+: path) :
    (t.relocate source target).get? path = t.get? path := by
  have hoff : ∀ n : List C × FileNode B, n.1 = path →
      source.isPrefixOf n.1 = false ∧ target.isPrefixOf n.1 = false := by
    rintro n rfl
    simpa only [Bool.eq_false_iff, ne_eq, List.isPrefixOf_iff_prefix] using ⟨hsource, htarget⟩
  have hfind : ∀ l : List (List C × FileNode B),
      ((l.filter fun n => source.isPrefixOf n.1 || !target.isPrefixOf n.1).map
        (relocateNode source target)).find? (fun n => n.1 = path) = l.find? fun n => n.1 = path := by
    intro l
    induction l with
    | nil => rfl
    | cons n l ih =>
        cases hs : source.isPrefixOf n.1 with
        | true =>
            have hn : n.1 ≠ path := fun heq => by simp [(hoff n heq).1] at hs
            have hmoved : (relocateNode source target n).1 ≠ path := by
              rw [relocateNode, if_pos hs]
              rintro heq
              exact htarget (heq ▸ List.prefix_append ..)
            rw [List.filter_cons_of_pos (by simp [hs]), List.map_cons,
              List.find?_cons_of_neg (by simpa using hmoved),
              List.find?_cons_of_neg (by simpa using hn), ih]
        | false =>
            cases ht : target.isPrefixOf n.1 with
            | true =>
                have hn : n.1 ≠ path := fun heq => by simp [(hoff n heq).2] at ht
                rw [List.filter_cons_of_neg (by simp [hs, ht]),
                  List.find?_cons_of_neg (by simpa using hn), ih]
            | false =>
                have hstays : relocateNode source target n = n := by
                  rw [relocateNode, hs, if_neg Bool.false_ne_true]
                rw [List.filter_cons_of_pos (by simp [ht]), List.map_cons, hstays,
                  List.find?_cons, List.find?_cons, ih]
  rw [get?, get?, relocate, hfind]

end Frame

/-- A call leaves what it does not touch. -/
theorem Syscall.get?_apply {q : Syscall C B} {t : FileTree C B} {path : List C}
    (h : ¬ q.Touches path) : (q.apply t).get? path = t.get? path := by
  cases q with
  | mkdir path' | write path' content => exact FileTree.get?_put h
  | unlink path' | rmdir path' => exact FileTree.get?_drop h
  | rename source target =>
      rw [Touches, not_or] at h
      rw [apply]
      split
      · rfl
      · exact FileTree.get?_relocate h.1 h.2

end Tree

/-! ## Traces -/

namespace Prog

variable {Q σ φ ε α : Type} [Statement Q σ]

/-- The statements of a run, each with what it found. -/
def trace : Prog Q σ φ ε α → σ → φ → List (Q × σ)
  | ret _, _, _ => []
  | raise _, _, _ => []
  | select k, w, x => (k w).trace w x
  | write q k, w, x => (q, w) :: (k w).trace (Statement.apply q w) x
  | io f k, w, x => (k x).trace w (f x)
  | commit k, w, x => k.trace w x

theorem wp.trace {P : Q → σ → Prop} {exn : ε → σ → Prop} {post : α → σ → Prop}
    {p : Prog Q σ φ ε α} {w : σ} (h : p.wp P exn post w) (x : φ) :
    ∀ t ∈ p.trace w x, P t.1 t.2 := by
  induction p generalizing w x with
  | ret a | raise e => exact fun t ht => by cases ht
  | select k ih => exact ih w h x
  | write q k ih => exact List.forall_mem_cons.mpr ⟨h.1, ih w h.2 x⟩
  | io f k ih => exact ih x (h x) (f x)
  | commit k ih => exact ih h x

end Prog

/-! ## Programs whose statements all satisfy something -/

namespace Prog

variable {Q σ φ ε ε' α β : Type} [Statement Q σ] {P : Q → σ → Prop}

/-- Every statement the program executes satisfies `P` where it is executed. -/
def Only (P : Q → σ → Prop) (p : Prog Q σ φ ε α) : Prop :=
  ∀ w, p.wp P (fun _ _ => True) (fun _ _ => True) w

theorem only_ret (a : α) : (ret a : Prog Q σ φ ε α).Only P := fun _ => trivial

theorem only_raise (e : ε) : (raise e : Prog Q σ φ ε α).Only P := fun _ => trivial

theorem only_query (f : σ → α) : (query f : Prog Q σ φ ε α).Only P := fun _ => trivial

theorem only_select {k : σ → Prog Q σ φ ε α} (h : ∀ s, (k s).Only P) : (select k).Only P :=
  fun w => h w w

theorem only_io {f : φ → φ} {k : φ → Prog Q σ φ ε α} (h : ∀ x, (k x).Only P) : (io f k).Only P :=
  fun w x => h x w

theorem only_bind {p : Prog Q σ φ ε α} {g : α → Prog Q σ φ ε β} (hp : p.Only P)
    (hg : ∀ a, (g a).Only P) : (p >>= g).Only P := by
  intro w
  rw [wp_bind]
  exact wp_imp (hp w) fun a w' _ => hg a w'

theorem only_tryCatch {p : Prog Q σ φ ε α} {h : ε → Prog Q σ φ ε' α} (hp : p.Only P)
    (hh : ∀ e, (h e).Only P) : (p.tryCatch h).Only P := by
  intro w
  rw [wp_tryCatch]
  exact wp_mono (hp w) (fun _ _ => id) (fun e w' _ => hh e w') fun _ _ => id

theorem only_ite {c : Prop} [Decidable c] {p q : Prog Q σ φ ε α} (hp : p.Only P) (hq : q.Only P) :
    (if c then p else q).Only P := by
  split
  · exact hp
  · exact hq

theorem only_forEach {body : β → Prog Q σ φ ε Unit} {l : List β} (h : ∀ b, (body b).Only P) :
    (forEach l body).Only P := by
  induction l with
  | nil => exact only_ret ()
  | cons b l ih => exact only_bind (h b) fun _ => ih

/-- The statements of a run. -/
theorem Only.trace {p : Prog Q σ φ ε α} (h : p.Only P) (w : σ) (x : φ) :
    ∀ t ∈ p.trace w x, P t.1 t.2 :=
  (h w).trace x

end Prog

/-! ## Calls -/

/-- The system may refuse a call for reasons of its own. -/
class MayRefuse (φ : Type) where
  /-- The next call is refused. -/
  refuses : φ → Bool
  /-- What is left after a call. -/
  next : φ → φ

/-- A program on a tree of files. -/
abbrev FileProg (C B φ : Type) : Type → Type := Prog (Syscall C B) (FileTree C B) φ FileError

section Programs

variable {C B φ : Type} [DecidableEq C] [MayRefuse φ]

/-- Make a call. -/
def issue (q : Syscall C B) : FileProg C B φ Unit :=
  .io MayRefuse.next fun x =>
    if MayRefuse.refuses x then .raise .refused
    else .select fun t =>
      match q.forbidden t with
      | some e => .raise e
      | none => .write q fun _ => .ret ()

/-- `Path.mkdir` without parents. -/
def mkdirOne (existOk : Bool) (path : List C) : FileProg C B φ Unit :=
  (issue (.mkdir path)).tryCatch fun e => do
    let isDir ← Prog.query fun t => t.isDir path
    if e ≠ .notFound ∧ e.isOs ∧ existOk ∧ isDir then pure () else .raise e

/-- `Path.mkdir` with parents, of a path read from its end. -/
def mkdirUp (existOk : Bool) : List C → FileProg C B φ Unit
  | [] => mkdirOne existOk []
  | name :: up =>
      (issue (.mkdir (name :: up).reverse)).tryCatch fun e =>
        if e = .notFound then do
          mkdirUp true up
          mkdirOne existOk (name :: up).reverse
        else do
          let isDir ← Prog.query fun t => t.isDir (name :: up).reverse
          if e.isOs ∧ existOk ∧ isDir then pure () else .raise e

/-- `path.mkdir(parents=True, exist_ok=existOk)` -/
def mkdirParents (existOk : Bool) (path : List C) : FileProg C B φ Unit :=
  mkdirUp existOk path.reverse

/-- `shutil.rmtree`, of a subtree of some depth. -/
def rmtree : Nat → List C → FileProg C B φ Unit
  | 0, _ => .raise (.raised "maximum recursion depth exceeded")
  | depth + 1, path => do
      let isDir ← Prog.query fun t => t.isDir path
      if isDir then do
        let names ← Prog.query fun t => t.entries path
        Prog.forEach names fun name => do
          let isDir ← Prog.query fun t => t.isDir (path ++ [name])
          if isDir then rmtree depth (path ++ [name]) else issue (.unlink (path ++ [name]))
        issue (.rmdir path)
      else .raise .notDirectory

/-- `open(path, "w")` and a write of the content. -/
def writeFile (empty content : B) (path : List C) : FileProg C B φ Unit := do
  issue (.write path empty)
  issue (.write path content)

/-- `shutil.copy2` -/
def copyFile (empty : B) (source target : List C) : FileProg C B φ Unit := do
  let inDir ← Prog.query fun t => t.isDir target
  let found ← Prog.query fun t => t.get? source
  let target := if inDir then target ++ source.getLast?.toList else target
  match found with
  | none => .raise .notFound
  | some .dir => .raise .isDirectory
  | some (.file content) => writeFile empty content target

/-- Do what is to be done for every name and say whether an error of the system or of a copy
occurred. -/
def collecting (body : C → FileProg C B φ Unit) : List C → FileProg C B φ Bool
  | [] => pure false
  | name :: names => do
      let failed ← ((body name).bind fun _ => .ret false).tryCatch fun e =>
        if e.isOs ∨ e = .raised "shutil.Error" then .ret true else .raise e
      let later ← collecting body names
      pure (failed || later)

/-- `shutil.copytree`, of a subtree of some depth. -/
def copytree (empty : B) : Nat → List C → List C → FileProg C B φ Unit
  | 0, _, _ => .raise (.raised "maximum recursion depth exceeded")
  | depth + 1, source, target => do
      let names ← Prog.query fun t => t.entries source
      mkdirParents false target
      let failed ← collecting (fun name => do
        let isDir ← Prog.query fun t => t.isDir (source ++ [name])
        if isDir then copytree empty depth (source ++ [name]) (target ++ [name])
        else copyFile empty (source ++ [name]) (target ++ [name])) names
      if failed then .raise (.raised "shutil.Error") else pure ()

/-- `shutil.move` -/
def move (empty : B) (source target : List C) : FileProg C B φ Unit := do
  let depth ← Prog.query fun t => t.depth
  let into ← Prog.query fun t => t.isDir target
  if into ∧ source = target then issue (.rename source target)
  else do
    let realTarget := if into then target ++ source.getLast?.toList else target
    let taken ← Prog.query fun t => (t.get? realTarget).isSome
    if into ∧ taken then .raise (.raised "Destination path already exists")
    else (issue (.rename source realTarget)).tryCatch fun e =>
      if e.isOs then do
        let isDir ← Prog.query fun t => t.isDir source
        if isDir then
          if source.isPrefixOf target then
            .raise (.raised "Cannot move a directory into itself")
          else do
            copytree empty (depth + 1) source realTarget
            rmtree (depth + 1) source
        else do
          copyFile empty source realTarget
          issue (.unlink source)
      else .raise e

end Programs

/-! ## Confinement -/

section Confinement

variable {C B φ : Type} [DecidableEq C] [MayRefuse φ] {roots : List (List C)}
  {path source target : List C}

/-- The path is one of the roots or lies below one. -/
def Covered (roots : List (List C)) (path : List C) : Prop := ∃ root ∈ roots, root <+: path

/-- What the call touches lies inside, or the call makes a directory that is missing on the way to
a root. -/
def KeepsWithin (roots : List (List C)) (q : Syscall C B) (t : FileTree C B) : Prop :=
  ∀ path, q.Touches path → Covered roots path ∨
    q = .mkdir path ∧ t.get? path = none ∧ ∃ root ∈ roots, path <+: root

omit [DecidableEq C] in
theorem Covered.trans (h : Covered roots path) (hle : path <+: target) : Covered roots target := by
  obtain ⟨root, hmem, hroot⟩ := h
  exact ⟨root, hmem, hroot.trans hle⟩

omit [DecidableEq C] in
theorem Covered.append (h : Covered roots path) (rest : List C) : Covered roots (path ++ rest) :=
  h.trans (List.prefix_append ..)

/-- A call that the tree forbids is not made. -/
theorem only_issue {P : Syscall C B → FileTree C B → Prop} {q : Syscall C B}
    (h : ∀ t, q.forbidden t = none → P q t) : (issue q : FileProg C B φ Unit).Only P := by
  refine Prog.only_io fun x => Prog.only_ite (Prog.only_raise _) fun t => ?_
  rw [Prog.wp_select]
  cases hforbidden : q.forbidden t with
  | some e => trivial
  | none => exact ⟨h t hforbidden, trivial⟩

/-- A call that touches one path inside. -/
theorem only_issue_at {q : Syscall C B} (hq : ∀ p, q.Touches p → p = path)
    (h : Covered roots path) : (issue q : FileProg C B φ Unit).Only (KeepsWithin roots) := by
  refine only_issue fun t _ p hp => Or.inl ?_
  rw [hq p hp]
  exact h

/-- A directory is made only where nothing is. -/
theorem get?_of_mkdir_allowed {t : FileTree C B} (h : (Syscall.mkdir path).forbidden t = none) :
    t.get? path = none := by
  rw [Syscall.forbidden] at h
  split at h
  · cases h
  · assumption

theorem only_issue_mkdir (h : Covered roots target) (hpath : path <+: target) :
    (issue (.mkdir path) : FileProg C B φ Unit).Only (KeepsWithin roots) := by
  refine only_issue fun t ht p hp => ?_
  obtain rfl : p = path := hp
  obtain ⟨root, hmem, hroot⟩ := h
  rcases List.prefix_or_prefix_of_prefix hpath hroot with hup | hdown
  · exact Or.inr ⟨rfl, get?_of_mkdir_allowed ht, root, hmem, hup⟩
  · exact Or.inl ⟨root, hmem, hdown⟩

theorem only_mkdirOne {existOk : Bool} (h : Covered roots target) (hpath : path <+: target) :
    (mkdirOne existOk path : FileProg C B φ Unit).Only (KeepsWithin roots) := by
  refine Prog.only_tryCatch (only_issue_mkdir h hpath) fun e => ?_
  exact Prog.only_bind (Prog.only_query _) fun _ => Prog.only_ite (Prog.only_ret _) (Prog.only_raise _)

theorem only_mkdirUp {existOk : Bool} {rev : List C} (h : Covered roots target)
    (hpath : rev.reverse <+: target) :
    (mkdirUp existOk rev : FileProg C B φ Unit).Only (KeepsWithin roots) := by
  induction rev generalizing existOk with
  | nil => exact only_mkdirOne h hpath
  | cons name up ih =>
      have hup : up.reverse <+: target := by
        rw [List.reverse_cons] at hpath
        exact (List.prefix_append ..).trans hpath
      refine Prog.only_tryCatch (only_issue_mkdir h hpath) fun e => Prog.only_ite ?_ ?_
      · exact Prog.only_bind (ih hup) fun _ => only_mkdirOne h hpath
      · exact Prog.only_bind (Prog.only_query _) fun _ =>
          Prog.only_ite (Prog.only_ret _) (Prog.only_raise _)

/-- Making a directory on the way to a path inside, with its parents. -/
theorem only_mkdirParents {existOk : Bool} (h : Covered roots target) (hpath : path <+: target) :
    (mkdirParents existOk path : FileProg C B φ Unit).Only (KeepsWithin roots) :=
  only_mkdirUp h (by rwa [List.reverse_reverse])

theorem only_rmtree {depth : Nat} (h : Covered roots path) :
    (rmtree depth path : FileProg C B φ Unit).Only (KeepsWithin roots) := by
  induction depth generalizing path with
  | zero => exact Prog.only_raise _
  | succ depth ih =>
      refine Prog.only_bind (Prog.only_query _) fun _ => Prog.only_ite ?_ (Prog.only_raise _)
      refine Prog.only_bind (Prog.only_query _) fun names => ?_
      refine Prog.only_bind (Prog.only_forEach fun name => ?_) fun _ =>
        only_issue_at (fun _ hp => hp) h
      exact Prog.only_bind (Prog.only_query _) fun _ =>
        Prog.only_ite (ih (h.append [name])) (only_issue_at (fun _ hp => hp) (h.append [name]))

theorem only_writeFile {empty content : B} (h : Covered roots path) :
    (writeFile empty content path : FileProg C B φ Unit).Only (KeepsWithin roots) :=
  Prog.only_bind (only_issue_at (fun _ hp => hp) h) fun _ => only_issue_at (fun _ hp => hp) h

theorem only_copyFile {empty : B} (h : Covered roots target) :
    (copyFile empty source target : FileProg C B φ Unit).Only (KeepsWithin roots) := by
  refine Prog.only_bind (Prog.only_query _) fun inDir => Prog.only_bind (Prog.only_query _) fun found => ?_
  have htarget : Covered roots (if inDir then target ++ source.getLast?.toList else target) := by
    split
    · exact h.append _
    · exact h
  cases found with
  | none => exact Prog.only_raise _
  | some node =>
      cases node with
      | dir => exact Prog.only_raise _
      | file content => exact only_writeFile htarget

omit [MayRefuse φ] in
theorem only_collecting {P : Syscall C B → FileTree C B → Prop} {body : C → FileProg C B φ Unit}
    {names : List C} (h : ∀ name, (body name).Only P) : (collecting body names).Only P := by
  induction names with
  | nil => exact Prog.only_ret _
  | cons name names ih =>
      refine Prog.only_bind (Prog.only_tryCatch (Prog.only_bind (h name) fun _ => Prog.only_ret _)
        fun e => Prog.only_ite (Prog.only_ret _) (Prog.only_raise _)) fun failed => ?_
      exact Prog.only_bind ih fun later => Prog.only_ret _

theorem only_copytree {empty : B} {depth : Nat} (h : Covered roots target) :
    (copytree empty depth source target : FileProg C B φ Unit).Only (KeepsWithin roots) := by
  induction depth generalizing source target with
  | zero => exact Prog.only_raise _
  | succ depth ih =>
      refine Prog.only_bind (Prog.only_query _) fun names => ?_
      refine Prog.only_bind (only_mkdirParents h List.prefix_rfl) fun _ => ?_
      refine Prog.only_bind (only_collecting fun name => ?_) fun failed =>
        Prog.only_ite (Prog.only_raise _) (Prog.only_ret _)
      exact Prog.only_bind (Prog.only_query _) fun _ =>
        Prog.only_ite (ih (h.append [name])) (only_copyFile (h.append [name]))

theorem only_issue_rename (hsource : Covered roots source) (htarget : Covered roots target) :
    (issue (.rename source target) : FileProg C B φ Unit).Only (KeepsWithin roots) := by
  refine only_issue fun t _ p hp => Or.inl ?_
  rcases hp with hp | hp
  · exact hsource.trans hp
  · exact htarget.trans hp

theorem only_move {empty : B} (hsource : Covered roots source) (htarget : Covered roots target) :
    (move empty source target : FileProg C B φ Unit).Only (KeepsWithin roots) := by
  refine Prog.only_bind (Prog.only_query _) fun depth => Prog.only_bind (Prog.only_query _) fun into => ?_
  refine Prog.only_ite (only_issue_rename hsource htarget) ?_
  have hreal : Covered roots (if into then target ++ source.getLast?.toList else target) := by
    split
    · exact htarget.append _
    · exact htarget
  refine Prog.only_bind (Prog.only_query _) fun taken => Prog.only_ite (Prog.only_raise _) ?_
  refine Prog.only_tryCatch (only_issue_rename hsource hreal) fun e =>
    Prog.only_ite ?_ (Prog.only_raise _)
  refine Prog.only_bind (Prog.only_query _) fun isDir => Prog.only_ite ?_ ?_
  · exact Prog.only_ite (Prog.only_raise _)
      (Prog.only_bind (only_copytree hreal) fun _ => only_rmtree hsource)
  · exact Prog.only_bind (only_copyFile hreal) fun _ => only_issue_at (fun _ hp => hp) hsource

end Confinement

end Foundations
