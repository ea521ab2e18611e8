import GpuFleet.Server.StoragePaths

/-!
# The workdir whitelist

`ensure_workdir_allowed` compares the parts of a workdir with those of the
allowed roots and keeps the parts `..`.  The agent takes the workdir as it is,
so the directory it names is where the walk along its parts ends.

A workdir that behind a root it starts with never climbs above that root names a
directory of the root (`inside_of_keepsTo`).  Two kinds of workdirs are accepted
and may lead elsewhere: those that climb, and an absolute workdir under a root
without parts, such as `.`.  Every way to climb leads out of some root
(`climbs_out`).
-/

namespace GpuFleet

open Foundations Paths

/-! ## Parts -/

/-- A path starts with its root. -/
theorem pathParts_cases (raw : String) :
    (isAbsolutePath raw = true ∧ ∃ n, pathParts raw = List.replicate (n + 1) '/' :: pathTail raw) ∨
      (isAbsolutePath raw = false ∧ pathParts raw = pathTail raw) := by
  unfold isAbsolutePath pathParts pathTail
  rcases raw.toList with _ | ⟨c, chars⟩
  · exact Or.inr ⟨rfl, rfl⟩
  · by_cases hc : c = '/'
    · subst hc
      refine Or.inl ⟨rfl, ?_⟩
      rcases chars with _ | ⟨d, chars⟩
      · exact ⟨0, rfl⟩
      · by_cases hd : d = '/'
        · subst hd
          rcases chars with _ | ⟨e, chars⟩
          · exact ⟨1, rfl⟩
          · by_cases he : e = '/'
            · subst he
              exact ⟨0, rfl⟩
            · exact ⟨1, by simp [he]⟩
        · exact ⟨0, by simp [hd]⟩
    · exact Or.inr ⟨by simpa using hc, by simp [hc]⟩

theorem slashes_notMem_pathTail (raw : String) (n : Nat) :
    List.replicate (n + 1) '/' ∉ pathTail raw := by
  intro h
  have hsplit := (List.mem_filter.mp h).1
  exact notMem_of_mem_splitOnChar hsplit (by simp)

/-! ## Roots -/

/-- The workdir starts with the parts of the root. -/
def startsWith (root workdir : String) : Bool := (pathParts root).isPrefixOf (pathParts workdir)

/-- The parts of the workdir behind those of the root. -/
def remainder (root workdir : String) : List (List Char) :=
  (pathTail workdir).drop (pathTail root).length

/-- The workdir goes on from the root, without climbing above it: both are absolute or both
relative, and behind the root there are never more parts `..` than names before them. -/
def keepsTo (root workdir : String) : Bool :=
  isAbsolutePath root = isAbsolutePath workdir && Stays parentPart 0 (remainder root workdir)

/-- The workdir names a directory of the root, as an agent in the directory `cwd` resolves both. -/
def Inside (cwd : List (List Char)) (root workdir : String) : Prop :=
  joinPath cwd root <+: joinPath cwd workdir

/-- The root, and something behind it. -/
def behind (root raw : String) : String := root ++ "/" ++ raw

section Roots

variable {cwd : List (List Char)} {root workdir : String} {allowed : List String}

/-- What it means for a workdir to start with a root. -/
theorem startsWith_cases (h : startsWith root workdir = true) :
    (isAbsolutePath root = isAbsolutePath workdir ∧
        pathTail workdir = pathTail root ++ remainder root workdir) ∨
      (isAbsolutePath root = false ∧ isAbsolutePath workdir = true ∧ pathTail root = []) := by
  have hstart : pathParts root <+: pathParts workdir := List.isPrefixOf_iff_prefix.mp h
  have htail (hle : pathTail root <+: pathTail workdir) :
      pathTail workdir = pathTail root ++ remainder root workdir := by
    obtain ⟨rest, hrest⟩ := hle
    rw [remainder, ← hrest, List.drop_left]
  rcases pathParts_cases root with ⟨hroot, n, hparts⟩ | ⟨hroot, hparts⟩ <;>
    rcases pathParts_cases workdir with ⟨hdir, m, hparts'⟩ | ⟨hdir, hparts'⟩ <;>
    rw [hparts, hparts'] at hstart
  · exact Or.inl ⟨hroot.trans hdir.symm, htail (List.cons_prefix_cons.mp hstart).2⟩
  · exact absurd (hstart.subset (List.mem_cons_self ..)) (slashes_notMem_pathTail workdir n)
  · refine Or.inr ⟨hroot, hdir, ?_⟩
    cases htailRoot : pathTail root with
    | nil => rfl
    | cons part parts =>
        rw [htailRoot] at hstart
        have hpart := (List.cons_prefix_cons.mp hstart).1
        have hmem : part ∈ pathTail root := htailRoot ▸ List.mem_cons_self ..
        exact absurd (hpart ▸ hmem) (slashes_notMem_pathTail root m)
  · exact Or.inl ⟨hroot.trans hdir.symm, htail hstart⟩

/-- A workdir that starts with a root and keeps to it is inside of it. -/
theorem inside_of_keepsTo (hstarts : startsWith root workdir = true)
    (h : keepsTo root workdir = true) : Inside cwd root workdir := by
  simp only [keepsTo, Bool.and_eq_true, decide_eq_true_eq] at h
  obtain ⟨hsame, hstays⟩ := h
  rcases startsWith_cases hstarts with ⟨-, htail⟩ | ⟨hroot, hdir, -⟩
  · have hwalk : joinPath cwd workdir =
        walk parentPart (joinPath cwd root ++ []) (remainder root workdir) := by
      rw [List.append_nil, joinPath, joinPath, htail, hsame]
      exact List.foldl_append
    rw [Inside, hwalk, walk_append hstays]
    exact List.prefix_append ..
  · rw [hroot, hdir] at hsame
    cases hsame

theorem ensureWorkdirAllowed_iff (hworkdir : workdir ≠ "") (hallowed : allowed ≠ []) :
    ensureWorkdirAllowed (some workdir) allowed = true ↔
      ∃ root ∈ allowed, startsWith root workdir = true := by
  simp [ensureWorkdirAllowed, startsWith, hworkdir, hallowed]

end Roots

/-! ## Climbing -/

section Climbing

variable {cwd : List (List Char)} {raw : String} {c d : Char}

theorem splitOnChar_append (sep : Char) (s t : List Char) :
    splitOnChar sep (s ++ sep :: t) = splitOnChar sep s ++ splitOnChar sep t := by
  induction s with
  | nil =>
      obtain ⟨w, ws, ht, hcons⟩ := splitOnChar_cons sep sep t
      rw [List.nil_append, hcons, if_pos rfl, ht]
      rfl
  | cons e s ih =>
      obtain ⟨w, ws, hs, hcons⟩ := splitOnChar_cons sep e s
      obtain ⟨v, vs, hs', hcons'⟩ := splitOnChar_cons sep e (s ++ sep :: t)
      rw [ih, hs, List.cons_append] at hs'
      obtain ⟨rfl, rfl⟩ := List.cons.inj hs'
      rw [List.cons_append, hcons', hcons]
      split <;> rfl

/-- A directory at the top, with a name of one character. -/
def topDir (c : Char) : String := String.ofList ['/', c]

/-- A name of one character is a part. -/
theorem pathTail_topDir (hslash : c ≠ '/') (hdot : c ≠ '.') : pathTail (topDir c) = [[c]] := by
  simp [pathTail, topDir, splitOnChar, hslash, hdot]

theorem pathTail_behind (root raw : String) :
    pathTail (behind root raw) = pathTail root ++ pathTail raw := by
  have hchars : (behind root raw).toList = root.toList ++ '/' :: raw.toList := by
    simp [behind]
  rw [pathTail, hchars, splitOnChar_append, List.filter_append]
  rfl

/-- What is behind a directory at the top starts with its parts. -/
theorem startsWith_behind (hslash : c ≠ '/') (hdot : c ≠ '.') (raw : String) :
    startsWith (topDir c) (behind (topDir c) raw) = true := by
  have hparts : pathParts (behind (topDir c) raw) = ['/'] :: pathTail (behind (topDir c) raw) := by
    simp [pathParts, behind, topDir, pathTail, hslash]
  have hroot : pathParts (topDir c) = ['/'] :: pathTail (topDir c) := by
    simp [pathParts, topDir, pathTail, hslash]
  rw [startsWith, hparts, hroot, pathTail_behind, List.isPrefixOf_iff_prefix]
  exact List.cons_prefix_cons.mpr ⟨rfl, List.prefix_append ..⟩

theorem joinPath_topDir (hslash : c ≠ '/') (hdot : c ≠ '.') : joinPath cwd (topDir c) = [[c]] := by
  rw [joinPath, pathTail_topDir hslash hdot]
  simp [isAbsolutePath, topDir, enter, parentPart]

theorem joinPath_behind (hslash : c ≠ '/') (hdot : c ≠ '.') :
    joinPath cwd (behind (topDir c) raw) = walk parentPart [[c]] (pathTail raw) := by
  have habsolute : isAbsolutePath (behind (topDir c) raw) = true := by
    simp [isAbsolutePath, behind, topDir]
  rw [joinPath, pathTail_behind, pathTail_topDir hslash hdot, habsolute]
  simp [enter, parentPart]

/-- What climbs leads out of one of two roots. -/
theorem climbs_out (hclimbs : Stays parentPart 0 (pathTail raw) = false) :
    ∃ root, root ≠ "" ∧ ensureWorkdirAllowed (some (behind root raw)) [root] = true ∧
      ∀ cwd, ¬ Inside cwd root (behind root raw) := by
  have accepted : ∀ c, c ≠ '/' → c ≠ '.' → topDir c ≠ "" ∧
      ensureWorkdirAllowed (some (behind (topDir c) raw)) [topDir c] = true := by
    intro c hslash hdot
    have hne : topDir c ≠ "" := by simp [topDir]
    have hbehind : behind (topDir c) raw ≠ "" := by simp [behind]
    refine ⟨hne, (ensureWorkdirAllowed_iff hbehind (List.cons_ne_nil _ _)).mpr ?_⟩
    exact ⟨_, List.mem_singleton_self _, startsWith_behind hslash hdot raw⟩
  -- From two siblings the climb ends in one place, which is not below both.
  have hsame : walk parentPart ([] ++ [['a']]) (pathTail raw) =
      walk parentPart ([] ++ [['b']]) (pathTail raw) := walk_siblings hclimbs
  rw [List.nil_append, List.nil_append] at hsame
  by_cases hin : [['a']] <+: walk parentPart [['a']] (pathTail raw)
  · obtain ⟨hne, hok⟩ := accepted 'b' (by decide) (by decide)
    refine ⟨topDir 'b', hne, hok, fun cwd hinside => ?_⟩
    rw [Inside, joinPath_topDir (by decide) (by decide), joinPath_behind (by decide) (by decide),
      ← hsame] at hinside
    rw [← List.nil_append [['a']]] at hin
    rw [← List.nil_append [['b']]] at hinside
    exact absurd (eq_of_prefix_siblings hin hinside) (by decide)
  · obtain ⟨hne, hok⟩ := accepted 'a' (by decide) (by decide)
    refine ⟨topDir 'a', hne, hok, fun cwd hinside => ?_⟩
    rw [Inside, joinPath_topDir (by decide) (by decide), joinPath_behind (by decide) (by decide)]
      at hinside
    exact hin hinside

end Climbing

/-- A root without parts accepts every workdir. -/
example : ensureWorkdirAllowed (some "/etc") ["."] = true ∧ keepsTo "." "/etc" = false := by decide

end GpuFleet
