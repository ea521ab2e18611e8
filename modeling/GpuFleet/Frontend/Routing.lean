import GpuFleet.Foundations.PercentCoding

/-!
# Routes

The console keeps its route in the fragment of the address.  `buildHash` writes
a route and `parseHash` reads one; what cannot be read is the overview, or the
list for a detail page whose id cannot be read.  A text has no lone surrogates.

A route whose id is not blank is read back (`parseHash_buildHash`), whatever
characters the id has.
-/

namespace GpuFleet

open Foundations

/-- The pages of the console. -/
inductive Route where
  | overview
  | onboarding
  | fleet
  | nodeDetail (nodeId : String)
  | tasks
  | taskDetail (taskId : String)
  | security
  deriving DecidableEq

/-- White space and line ends, as `trim` knows them. -/
def isTrimmed (c : Char) : Bool :=
  let n := c.toNat
  9 ≤ n && n ≤ 13 || n = 0x20 || n = 0xa0 || n = 0x1680 || 0x2000 ≤ n && n ≤ 0x200a ||
    n = 0x2028 || n = 0x2029 || n = 0x202f || n = 0x205f || n = 0x3000 || n = 0xfeff

/-- `text.trim()` -/
def trim (text : List Char) : List Char := (text.dropWhile isTrimmed).rdropWhile isTrimmed

/-- A text without the start that the expression `^#\/?` matches. -/
def dropHash : List Char → List Char
  | '#' :: '/' :: rest => rest
  | '#' :: rest => rest
  | raw => raw

/-- `safeDecode`: the decoded id, unless it is malformed or blank. -/
def safeDecode (value : Option (List Char)) : Option String :=
  match value with
  | none => none
  | some value =>
      if value = [] then none
      else
        match PercentCoding.decodeURIComponent value with
        | none => none
        | some decoded => if trim decoded = [] then none else some (.ofList decoded)

/-- The static route of a name. -/
def staticRoute? (name : List Char) : Option Route :=
  if name = "overview".toList then some .overview
  else if name = "onboarding".toList then some .onboarding
  else if name = "fleet".toList then some .fleet
  else if name = "tasks".toList then some .tasks
  else if name = "security".toList then some .security
  else none

/-- Where every text leads that names no page. -/
def fallbackRoute : Route := .overview

/-- `parseHash`: empty segments are left out, and so `#//tasks/` is `#/tasks`. -/
def parseHash (raw : String) : Route :=
  let trimmed := trim (dropHash raw.toList)
  match (trimmed.splitOn '/').filter (· ≠ []) with
  | [] => fallbackRoute
  | [head] =>
      if head = "nodes".toList then .fleet
      else if head = "tasks".toList then .tasks
      else (staticRoute? head).getD fallbackRoute
  | [head, second] =>
      if head = "nodes".toList then ((safeDecode (some second)).map Route.nodeDetail).getD .fleet
      else if head = "tasks".toList then
        ((safeDecode (some second)).map Route.taskDetail).getD .tasks
      else fallbackRoute
  | _ => fallbackRoute

/-- `encodeURIComponent` of an id. -/
def encoded (id : String) : String := .ofList (PercentCoding.encodeURIComponent id.toList)

/-- `buildHash` -/
def buildHash : Route → String
  | .overview => "#/overview"
  | .onboarding => "#/onboarding"
  | .fleet => "#/fleet"
  | .nodeDetail nodeId => "#/nodes/" ++ encoded nodeId
  | .tasks => "#/tasks"
  | .taskDetail taskId => "#/tasks/" ++ encoded taskId
  | .security => "#/security"

/-- The id in a route is not blank. -/
def Route.Named : Route → Prop
  | .nodeDetail id | .taskDetail id => trim id.toList ≠ []
  | _ => True

/-! ## What was built is parsed -/

theorem isTrimmed_of_printable {c : Char} (h : 33 ≤ c.toNat ∧ c.toNat ≤ 126) :
    isTrimmed c = false := by
  simp only [isTrimmed, Bool.or_eq_false_iff, Bool.and_eq_false_iff, decide_eq_false_iff_not]
  omega

/-- A text of printable characters is left as it is. -/
theorem trim_of_printable {text : List Char}
    (h : ∀ c ∈ text, 33 ≤ c.toNat ∧ c.toNat ≤ 126) : trim text = text := by
  have hstart : text.dropWhile isTrimmed = text := by
    cases text with
    | nil => rfl
    | cons c text =>
        simp [isTrimmed_of_printable (h c List.mem_cons_self)]
  rw [trim, hstart, List.rdropWhile_eq_self_iff]
  intro hne
  simp [isTrimmed_of_printable (h _ (List.getLast_mem hne))]

section Ids

variable {id : String}

theorem encodeURIComponent_ne_nil (h : trim id.toList ≠ []) :
    PercentCoding.encodeURIComponent id.toList ≠ [] := by
  refine PercentCoding.encodeURIComponent_ne_nil fun e => ?_
  rw [e] at h
  exact h rfl

theorem safeDecode_encodeURIComponent (h : trim id.toList ≠ []) :
    safeDecode (some (PercentCoding.encodeURIComponent id.toList)) = some id := by
  simp only [safeDecode, if_neg (encodeURIComponent_ne_nil h),
    PercentCoding.decodeURIComponent_encodeURIComponent, if_neg h, String.ofList_toList]

/-- The parts of an address with an id. -/
theorem parts_of_encoded {head : List Char} (h : trim id.toList ≠ []) (hhead : head ≠ [])
    (hslash : '/' ∉ head) (hplain : ∀ c ∈ head, 33 ≤ c.toNat ∧ c.toNat ≤ 126) :
    (((trim (head ++ '/' :: PercentCoding.encodeURIComponent id.toList)).splitOn '/').filter
      (· ≠ [])) = [head, PercentCoding.encodeURIComponent id.toList] := by
  have hprintable : ∀ c ∈ head ++ '/' :: PercentCoding.encodeURIComponent id.toList,
      33 ≤ c.toNat ∧ c.toNat ≤ 126 := by
    intro c hc
    rcases List.mem_append.mp hc with hc | hc
    · exact hplain c hc
    · rcases List.mem_cons.mp hc with rfl | hc
      · decide
      · exact PercentCoding.printable_encodeURIComponent hc
  have hlater : '/' ∉ PercentCoding.encodeURIComponent id.toList := fun hc =>
    absurd (PercentCoding.mem_encodeURIComponent hc) (by decide)
  rw [trim_of_printable hprintable, List.splitOn_append_cons_self_of_not_mem hslash,
    List.splitOn_eq_singleton hlater]
  simp [hhead, encodeURIComponent_ne_nil h]

end Ids

/-- A route whose id is not blank survives the address bar. -/
theorem parseHash_buildHash (route : Route) (h : route.Named) :
    parseHash (buildHash route) = route := by
  cases route with
  | overview | onboarding | fleet | tasks | security => decide
  | nodeDetail nodeId =>
      have hparts := @parts_of_encoded nodeId "nodes".toList h (by simp) (by simp) (by simp)
      have hraw : dropHash (buildHash (.nodeDetail nodeId)).toList =
          "nodes".toList ++ '/' :: PercentCoding.encodeURIComponent nodeId.toList := by
        simp [buildHash, encoded, dropHash]
      rw [parseHash, hraw]
      simp only [hparts, safeDecode_encodeURIComponent h]
      rfl
  | taskDetail taskId =>
      have hparts := @parts_of_encoded taskId "tasks".toList h (by simp) (by simp) (by simp)
      have hraw : dropHash (buildHash (.taskDetail taskId)).toList =
          "tasks".toList ++ '/' :: PercentCoding.encodeURIComponent taskId.toList := by
        simp [buildHash, encoded, dropHash]
      rw [parseHash, hraw]
      simp only [hparts, safeDecode_encodeURIComponent h]
      rfl

/-- An id with a slash, a question mark, a hash, a percent sign and a space. -/
theorem parseHash_buildHash_signs : Route.Named (.nodeDetail "a/b?#5% é") ∧
    parseHash (buildHash (.nodeDetail "a/b?#5% é")) = .nodeDetail "a/b?#5% é" := by
  have hnamed : Route.Named (.nodeDetail "a/b?#5% é") := by
    show trim "a/b?#5% é".toList ≠ []
    decide
  exact ⟨hnamed, parseHash_buildHash _ hnamed⟩

end GpuFleet
