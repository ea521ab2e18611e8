import GpuFleet.Foundations.JsonText
import GpuFleet.Server.ReviewGate
import Mathlib.Algebra.Order.Field.Rat
import Mathlib.Data.List.DropRight

/-!
# The review by the model

The reviewing model streams its answer in lines.  What they bring is put together
to a text, and the text between its first and its last brace is read as JSON.
Every line is untrusted: it may be malformed, cut off or of another kind.

The review fails closed (`review_fails_closed`).  It approves only if the text
between the braces is read as an object that says so and whose other fields are
converted, its score is between 0 and 1 whatever was sent, and only what is no
`Exception` escapes it.  So a task of a high-risk type is not held back only if the
text says so (`pending_of_review`).

What `json.loads` and the conversions do beyond this is a parameter.  A Python text
is the list of its code points, since an escape of a JSON text may stand for half of
a surrogate pair.
-/

namespace GpuFleet.LlmReview

open Foundations
open Foundations.JsonText (Value field?)

/-! ## Python -/

/-- A text, as its code points. -/
abbrev Text : Type := List Nat

def codePoints (s : String) : Text := s.toList.map Char.toNat

/-- `str.isspace` of one code point -/
def isSpace (n : Nat) : Bool :=
  9 ≤ n && n ≤ 13 || 28 ≤ n && n ≤ 32 || n = 0x85 || n = 0xa0 || n = 0x1680 ||
    0x2000 ≤ n && n ≤ 0x200a || n = 0x2028 || n = 0x2029 || n = 0x202f || n = 0x205f || n = 0x3000

/-- `text.strip()` -/
def strip (text : Text) : Text := (text.dropWhile isSpace).rdropWhile isSpace

/-- `{` -/
def openBrace : Nat := 123

/-- `}` -/
def closeBrace : Nat := 125

/-- What `json.loads` raises. -/
inductive ReadError where
  /-- `JSONDecodeError` -/
  | decode
  /-- A `RecursionError`, or the `ValueError` of a number with too many digits. -/
  | limit
  deriving DecidableEq

/-- `json.loads`.  White space around an object aside, it is written between braces. -/
structure JsonReader where
  loads : Text → Except ReadError Value
  braced : ∀ text fields, loads text = .ok (.obj fields) →
    ∃ inner, strip text = openBrace :: inner ++ [closeBrace]

/-- A float. -/
inductive PyFloat where
  | finite (q : Rat)
  | inf
  | negInf
  | nan
  deriving DecidableEq

/-- `a < b` -/
def PyFloat.lt : PyFloat → PyFloat → Bool
  | .nan, _ | _, .nan => false
  | .finite p, .finite q => decide (p < q)
  | .finite _, .inf | .negInf, .finite _ | .negInf, .inf => true
  | _, _ => false

/-- `min(a, b)`: the first one, unless the second is less. -/
def PyFloat.min (a b : PyFloat) : PyFloat := if b.lt a then b else a

/-- `max(a, b)` -/
def PyFloat.max (a b : PyFloat) : PyFloat := if a.lt b then b else a

/-- The conversions of JSON values, unless they raise. -/
structure Conversions where
  /-- `float(value)` -/
  float : Value → Option PyFloat
  /-- `str(value)`, where a model takes the text. -/
  str : Value → Option Text

/-- What is raised. -/
inductive Failure where
  /-- `httpx.TimeoutException` -/
  | timeout
  /-- Any other `Exception`. -/
  | exception
  /-- A cancellation, which is no `Exception`. -/
  | cancelled
  deriving DecidableEq

/-- `bool(value)` -/
def truthy (conv : Conversions) : Value → Bool
  | .null => false
  | .bool b => b
  | .int n => n ≠ 0
  | .float literal => conv.float (.float literal) ≠ some (.finite 0)
  | .str text => text ≠ []
  | .arr items => !items.isEmpty
  | .obj fields => !fields.isEmpty

/-! ## The stream -/

/-- What happens in the call of the model. -/
structure Reply where
  /-- Raised before there are lines: by the connection or by `raise_for_status`. -/
  refused : Option Failure := none
  lines : List Text := []
  /-- Raised after the lines. -/
  broken : Option Failure := none
  /-- Raised when the connection is closed. -/
  closing : Option Failure := none

/-- Why a line brings nothing. -/
inductive LineError where
  /-- An error that the loop catches. -/
  | caught
  | escapes
  deriving DecidableEq

/-- `value[name]`: a `KeyError` or a `TypeError` if there is no such field. -/
def subscript (value : Value) (name : String) : Except LineError Value :=
  match value with
  | .obj fields =>
      match field? fields name with
      | none => .error .caught
      | some field => .ok field
  | _ => .error .caught

/-- `value[0]` -/
def first : Value → Except LineError Value
  | .arr (item :: _) => .ok item
  | .str (n :: _) => .ok (.str [n])
  | _ => .error .caught

/-- `delta.get("content", "")`: an `AttributeError` if there is no `get`. -/
def getContent : Value → Except LineError Value
  | .obj fields => .ok ((field? fields "content").getD (.str []))
  | _ => .error .escapes

section Review

variable (reader : JsonReader) (conv : Conversions)

/-- The content in the data of a line. -/
def lineContent (data : Text) : Except LineError Value :=
  match reader.loads data with
  | .error .decode => .error .caught
  | .error .limit => .error .escapes
  | .ok chunk => do
      let choices ← subscript chunk "choices"
      let choice ← first choices
      let delta ← subscript choice "delta"
      getContent delta

/-- The loop over the lines. -/
def collect (broken : Option Failure) : List Text → Except Failure (List Value)
  | [] =>
      match broken with
      | none => .ok []
      | some f => .error f
  | line :: lines =>
      if (codePoints "data: ").isPrefixOf line then
        let data := line.drop 6
        if strip data = codePoints "[DONE]" then .ok []
        else
          match lineContent reader data with
          | .error .caught => collect broken lines
          | .error .escapes => .error .exception
          | .ok content =>
              match collect broken lines with
              | .error f => .error f
              | .ok rest => .ok (if truthy conv content then content :: rest else rest)
      else collect broken lines

/-- `"".join(collected)` -/
def join : List Value → Except Failure Text
  | [] => .ok []
  | .str text :: rest =>
      match join rest with
      | .error f => .error f
      | .ok tail => .ok (text ++ tail)
  | _ :: _ => .error .exception

/-- `_stream_chat_completion` -/
def streamChatCompletion (reply : Reply) : Except Failure Text :=
  match reply.refused with
  | some f => .error f
  | none =>
      match collect reader conv reply.broken reply.lines, reply.closing with
      | _, some f => .error f
      | .error f, none => .error f
      | .ok collected, none => join collected

/-! ## The answer -/

structure RiskFactor where
  category : Text
  detail : Text
  severity : Text

/-- `ReviewDecision` -/
structure Answer where
  decision : LlmDecision
  riskScore : PyFloat
  riskFactors : List RiskFactor := []
  reasoning : Text

/-- `text.rfind(c) + 1` -/
def rfindEnd (c : Nat) (text : Text) : Nat := (text.rdropWhile (· ≠ c)).length

/-- The text from the first `{` to the last `}`, if they stand so. -/
def jsonPart (text : Text) : Text :=
  match text.idxOf? openBrace with
  | none => text
  | some start =>
      if start < rfindEnd closeBrace text then (text.take (rfindEnd closeBrace text)).drop start
      else text

/-- A decision that is none of the three is uncertain. -/
def decisionOf (fields : List (Text × Value)) : LlmDecision :=
  match field? fields "decision" with
  | some (.str text) =>
      if text = codePoints "approve" then .approve
      else if text = codePoints "reject" then .reject
      else .uncertain
  | _ => .uncertain

/-- `float(data.get("risk_score", 0.5))` -/
def riskScoreOf (fields : List (Text × Value)) : Except Failure PyFloat :=
  match field? fields "risk_score" with
  | none => .ok (.finite (1 / 2))
  | some value =>
      match conv.float value with
      | none => .error .exception
      | some score => .ok score

/-- `max(0.0, min(1.0, risk_score))` -/
def clamp (score : PyFloat) : PyFloat := (PyFloat.finite 0).max ((PyFloat.finite 1).min score)

/-- `str(value.get(name, default))` -/
def textOf (fields : List (Text × Value)) (name : String) (default : String) :
    Except Failure Text :=
  match field? fields name with
  | none => .ok (codePoints default)
  | some value =>
      match conv.str value with
      | none => .error .exception
      | some text => .ok text

/-- The risk factors among some values. -/
def factorsOf : List Value → Except Failure (List RiskFactor)
  | [] => .ok []
  | .obj fields :: rest => do
      let category ← textOf conv fields "category" ""
      let detail ← textOf conv fields "detail" ""
      let severity ← textOf conv fields "severity" "medium"
      let factors ← factorsOf rest
      pure ({ category, detail, severity } :: factors)
  | _ :: rest => factorsOf rest

/-- The risk factors of an answer.  What an object or a text yields is no dictionary. -/
def riskFactorsOf (fields : List (Text × Value)) : Except Failure (List RiskFactor) :=
  match field? fields "risk_factors" with
  | none | some (.obj _) | some (.str _) => .ok []
  | some (.arr items) => factorsOf conv items
  | some _ => .error .exception

/-- The answer in the fields of an object. -/
def answerOf (fields : List (Text × Value)) : Except Failure Answer := do
  let riskScore ← riskScoreOf conv fields
  let riskFactors ← riskFactorsOf conv fields
  let reasoning ← textOf conv fields "reasoning" ""
  pure { decision := decisionOf fields, riskScore := clamp riskScore, riskFactors, reasoning }

/-- An answer that leaves the decision to a human. -/
def undecided (reasoning : String) : Answer where
  decision := .uncertain
  riskScore := .finite (1 / 2)
  reasoning := codePoints reasoning

/-- `_parse_response`; what is no object has no `get`. -/
def parseResponse (text : Text) : Except Failure Answer :=
  match reader.loads (jsonPart (strip text)) with
  | .error .decode => .ok (undecided "AI 返回格式异常，自动升级到人工审核")
  | .error .limit => .error .exception
  | .ok (.obj fields) => answerOf conv fields
  | .ok _ => .error .exception

/-- `LLMReviewer.review`, with `str(self.timeout)` -/
def review (timeout : String) (reply : Reply) : Except Failure Answer :=
  match streamChatCompletion reader conv reply >>= parseResponse reader conv with
  | .ok answer => .ok answer
  | .error .timeout => .ok (undecided ("AI 审核超时（" ++ timeout ++ "s），自动升级到人工审核"))
  | .error .exception => .ok (undecided "AI 审核异常，自动升级到人工审核")
  | .error .cancelled => .error .cancelled

end Review

/-! ## The text between the braces -/

/-- The part of a text from its first `{` to its last `}`. -/
structure Embraced (text part : Text) : Prop where
  place : ∃ before after, text = before ++ part ++ after ∧ openBrace ∉ before ∧ closeBrace ∉ after
  opens : part.head? = some openBrace
  closes : part.getLast? = some closeBrace

section Braces

variable {text part : Text}

/-- `strip` takes white space off both ends. -/
theorem strip_spec (text : Text) :
    ∃ before after, text = before ++ strip text ++ after ∧ (∀ n ∈ before, isSpace n = true) ∧
      ∀ n ∈ after, isSpace n = true := by
  refine ⟨text.takeWhile isSpace, (text.dropWhile isSpace).rtakeWhile isSpace, ?_, ?_, ?_⟩
  · rw [strip, List.append_assoc, List.rdropWhile_append_rtakeWhile, List.takeWhile_append_dropWhile]
  · exact fun n hn => List.mem_takeWhile_imp hn
  · exact fun n hn => List.mem_rtakeWhile_imp hn

/-- What is embraced in a stripped text is so in the text. -/
theorem Embraced.of_strip (h : Embraced (strip text) part) : Embraced text part := by
  obtain ⟨before, after, htext, hbefore, hafter⟩ := strip_spec text
  obtain ⟨left, right, hstrip, hleft, hright⟩ := h.place
  refine ⟨⟨before ++ left, right ++ after, ?_, ?_, ?_⟩, h.opens, h.closes⟩
  · rw [htext, hstrip]
    simp only [List.append_assoc]
  · intro hmem
    rcases List.mem_append.mp hmem with hmem | hmem
    · exact absurd (hbefore _ hmem) (by decide)
    · exact hleft hmem
  · intro hmem
    rcases List.mem_append.mp hmem with hmem | hmem
    · exact hright hmem
    · exact absurd (hafter _ hmem) (by decide)

/-- The first part of a text up to the last of its signs. -/
theorem rdropWhile_sign (c : Nat) (left right : Text) :
    (left ++ c :: right).rdropWhile (· ≠ c) = left ++ [c] ∨
      ∃ more, (left ++ c :: right).rdropWhile (· ≠ c) = left ++ c :: more := by
  induction right using List.reverseRecOn with
  | nil =>
      left
      exact List.rdropWhile_concat_neg _ _ _ (by simp)
  | append_singleton right n ih =>
      have hassoc : left ++ c :: (right ++ [n]) = (left ++ c :: right) ++ [n] := by simp
      rw [hassoc]
      by_cases hn : n = c
      · right
        exact ⟨right ++ [n], by rw [List.rdropWhile_concat_neg _ _ _ (by simp [hn]), ← hassoc]⟩
      · rw [List.rdropWhile_concat_pos _ _ _ (by simp [hn])]
        exact ih

theorem lt_rfindEnd {c : Nat} {left right : Text} : left.length < rfindEnd c (left ++ c :: right) := by
  unfold rfindEnd
  rcases rdropWhile_sign c left right with h | ⟨more, h⟩
  · rw [h, List.length_append]
    exact Nat.lt_add_of_pos_right Nat.one_pos
  · rw [h, List.length_append]
    exact Nat.lt_add_of_pos_right (Nat.succ_pos _)

/-- Where the two braces stand in order, the part between them is embraced. -/
theorem embraced_slice {start : Nat} (hstart : text.idxOf? openBrace = some start)
    (hlt : start < rfindEnd closeBrace text) :
    Embraced text ((text.take (rfindEnd closeBrace text)).drop start) := by
  obtain ⟨hlength, hget, hfirst⟩ := List.idxOf?_eq_some_iff.mp hstart
  have htake : text.take (rfindEnd closeBrace text) = text.rdropWhile (· ≠ closeBrace) :=
    (List.prefix_iff_eq_take.mp (List.rdropWhile_prefix _ _)).symm
  have hne : text.rdropWhile (· ≠ closeBrace) ≠ [] := by
    intro hnil
    rw [rfindEnd, hnil] at hlt
    exact absurd hlt (Nat.not_lt_zero _)
  refine ⟨⟨text.take start, text.rtakeWhile (· ≠ closeBrace), ?_, ?_, ?_⟩, ?_, ?_⟩
  · have hstarts : text.take start = (text.take (rfindEnd closeBrace text)).take start := by
      rw [List.take_take, Nat.min_eq_left (Nat.le_of_lt hlt)]
    rw [hstarts, List.take_append_drop, htake, List.rdropWhile_append_rtakeWhile]
  · intro hmem
    obtain ⟨j, hj, heq⟩ := List.mem_take_iff_getElem.mp hmem
    exact hfirst j (Nat.lt_of_lt_of_le hj (Nat.min_le_left _ _)) heq
  · intro hmem
    have h := List.mem_rtakeWhile_imp hmem
    simp at h
  · rw [List.head?_drop, List.getElem?_take_of_lt hlt, List.getElem?_eq_getElem hlength, hget]
  · rw [List.getLast?_drop, htake, if_neg (by rw [rfindEnd] at hlt; omega),
      List.getLast?_eq_getLast_of_ne_nil hne]
    have hlast := List.rdropWhile_last_not _ _ hne
    simpa using hlast

/-- If an object is read from the part of a text, the part is embraced. -/
theorem embraced_jsonPart (reader : JsonReader) {fields : List (Text × Value)}
    (h : reader.loads (jsonPart text) = .ok (.obj fields)) : Embraced text (jsonPart text) := by
  -- Where the braces do not stand in order, the whole text would be read, and it has them.
  have hwhole : jsonPart text = text → ∃ left inner right,
      text = left ++ openBrace :: (inner ++ closeBrace :: right) := by
    intro hsame
    rw [hsame] at h
    obtain ⟨inner, hinner⟩ := reader.braced text fields h
    obtain ⟨before, after, htext, -, -⟩ := strip_spec text
    rw [hinner] at htext
    exact ⟨before, inner, after, by rw [htext]; simp⟩
  unfold jsonPart at hwhole ⊢
  cases hstart : text.idxOf? openBrace with
  | none =>
      rw [hstart] at hwhole
      obtain ⟨left, inner, right, htext⟩ := hwhole rfl
      have hnot := List.idxOf?_eq_none_iff.mp hstart
      exact absurd (htext ▸ List.mem_append_right _ (List.mem_cons_self ..)) hnot
  | some start =>
      rw [hstart] at hwhole
      by_cases hlt : start < rfindEnd closeBrace text
      · simp only [if_pos hlt]
        exact embraced_slice hstart hlt
      · simp only [if_neg hlt] at hwhole
        obtain ⟨left, inner, right, htext⟩ := hwhole trivial
        obtain ⟨hlength, hget, hfirst⟩ := List.idxOf?_eq_some_iff.mp hstart
        have hle : start ≤ left.length := by
          refine Nat.le_of_not_lt fun hgt => ?_
          refine hfirst left.length hgt ?_
          simp only [htext]
          simp
        have hend : (left ++ openBrace :: inner).length < rfindEnd closeBrace text := by
          have hsplit : text = (left ++ openBrace :: inner) ++ closeBrace :: right := by
            rw [htext]
            simp
          rw [hsplit]
          exact lt_rfindEnd
        rw [List.length_append] at hend
        omega

end Braces

/-! ## What is answered -/

/-- The score is between 0 and 1. -/
def InUnit (score : PyFloat) : Prop := ∃ q, score = .finite q ∧ 0 ≤ q ∧ q ≤ 1

theorem min_one (q : Rat) :
    (PyFloat.finite 1).min (.finite q) = .finite (if q < 1 then q else 1) := by
  unfold PyFloat.min
  by_cases hq : q < 1 <;> simp [PyFloat.lt, hq]

theorem max_zero (q : Rat) :
    (PyFloat.finite 0).max (.finite q) = .finite (if 0 < q then q else 0) := by
  unfold PyFloat.max
  by_cases hq : 0 < q <;> simp [PyFloat.lt, hq]

theorem inUnit_clamp (score : PyFloat) : InUnit (clamp score) := by
  cases score with
  | finite q =>
      have hle : (if q < 1 then q else 1) ≤ 1 := by
        by_cases hq : q < 1
        · rw [if_pos hq]
          exact le_of_lt hq
        · rw [if_neg hq]
      rw [clamp, min_one, max_zero]
      generalize (if q < 1 then q else 1) = p at hle ⊢
      by_cases hpos : 0 < p
      · rw [if_pos hpos]
        exact ⟨p, rfl, le_of_lt hpos, hle⟩
      · rw [if_neg hpos]
        exact ⟨0, rfl, le_refl 0, zero_le_one⟩
  | inf => exact ⟨1, rfl, zero_le_one, le_refl 1⟩
  | negInf => exact ⟨0, rfl, le_refl 0, zero_le_one⟩
  -- `min(1.0, nan)` is 1.
  | nan => exact ⟨1, rfl, zero_le_one, le_refl 1⟩

theorem inUnit_undecided (reasoning : String) : InUnit (undecided reasoning).riskScore :=
  ⟨1 / 2, rfl, by norm_num, by norm_num⟩

/-- The fields of an answer other than its decision are converted. -/
structure Convertible (conv : Conversions) (fields : List (Text × Value)) : Prop where
  riskScore : ∃ score, riskScoreOf conv fields = .ok score
  riskFactors : ∃ factors, riskFactorsOf conv fields = .ok factors
  reasoning : ∃ text, textOf conv fields "reasoning" "" = .ok text

/-- The text approves: from its first to its last brace it is read as an object whose decision is
exactly `approve` and whose other fields are converted. -/
def Approves (reader : JsonReader) (conv : Conversions) (text : Text) : Prop :=
  ∃ part fields, Embraced text part ∧ reader.loads part = .ok (.obj fields) ∧
    field? fields "decision" = some (.str (codePoints "approve")) ∧ Convertible conv fields

section Answers

variable {reader : JsonReader} {conv : Conversions} {text : Text} {answer : Answer}

theorem bind_eq_ok {α β : Type} {x : Except Failure α} {f : α → Except Failure β} {b : β} :
    (x >>= f) = .ok b ↔ ∃ a, x = .ok a ∧ f a = .ok b := by
  constructor
  · intro h
    cases x with
    | error e => cases h
    | ok a => exact ⟨a, rfl, h⟩
  · rintro ⟨a, rfl, h⟩
    exact h

theorem decisionOf_eq_approve {fields : List (Text × Value)} (h : decisionOf fields = .approve) :
    field? fields "decision" = some (.str (codePoints "approve")) := by
  unfold decisionOf at h
  split at h
  · rename_i text hfield
    split at h
    · rename_i heq
      rw [hfield, heq]
    · split at h
      · cases h
      · cases h
  · cases h

/-- An answer is read off the fields of an object. -/
theorem answerOf_eq_ok {fields : List (Text × Value)} (h : answerOf conv fields = .ok answer) :
    InUnit answer.riskScore ∧ answer.decision = decisionOf fields ∧ Convertible conv fields := by
  obtain ⟨score, hscore, h⟩ := bind_eq_ok.mp h
  obtain ⟨factors, hfactors, h⟩ := bind_eq_ok.mp h
  obtain ⟨reasoning, hreasoning, h⟩ := bind_eq_ok.mp h
  cases h
  exact ⟨inUnit_clamp score, rfl, ⟨score, hscore⟩, ⟨factors, hfactors⟩, ⟨reasoning, hreasoning⟩⟩

/-- What is read from a text. -/
theorem parseResponse_eq_ok (h : parseResponse reader conv text = .ok answer) :
    InUnit answer.riskScore ∧ (answer.decision = .approve → Approves reader conv text) := by
  unfold parseResponse at h
  split at h
  · cases h
    exact ⟨inUnit_undecided _, fun happrove => by cases happrove⟩
  · cases h
  · rename_i fields hloads
    obtain ⟨hscore, hdecision, hconvertible⟩ := answerOf_eq_ok h
    refine ⟨hscore, fun happrove => ⟨jsonPart (strip text), fields, ?_, hloads, ?_, hconvertible⟩⟩
    · exact (embraced_jsonPart reader hloads).of_strip
    · exact decisionOf_eq_approve (hdecision ▸ happrove)
  · cases h

end Answers

/-! ## What escapes -/

/-- The call of the model is cancelled somewhere. -/
def Reply.Cancelled (reply : Reply) : Prop :=
  some .cancelled ∈ [reply.refused, reply.broken, reply.closing]

section Escapes

variable {reader : JsonReader} {conv : Conversions} {f : Failure}

theorem collect_error {broken : Option Failure} {lines : List Text}
    (h : collect reader conv broken lines = .error f) : f = .exception ∨ broken = some f := by
  induction lines with
  | nil =>
      unfold collect at h
      cases broken with
      | none => cases h
      | some f' =>
          cases h
          exact .inr rfl
  | cons line lines ih =>
      unfold collect at h
      split at h
      · simp only at h
        split at h
        · cases h
        · split at h
          · exact ih h
          · cases h
            exact .inl rfl
          · split at h
            · rename_i hrest
              cases h
              exact ih hrest
            · cases h
      · exact ih h

theorem join_error {collected : List Value} (h : join collected = .error f) : f = .exception := by
  induction collected with
  | nil => cases h
  | cons value rest ih =>
      cases value with
      | str text =>
          unfold join at h
          split at h
          · rename_i hrest
            cases h
            exact ih hrest
          · cases h
      | null | bool | int | float | arr | obj =>
          cases h
          rfl

theorem streamChatCompletion_error {reply : Reply}
    (h : streamChatCompletion reader conv reply = .error f) :
    f = .exception ∨ some f ∈ [reply.refused, reply.broken, reply.closing] := by
  unfold streamChatCompletion at h
  split at h
  · rename_i hrefused
    cases h
    exact .inr (by simp [hrefused])
  · split at h
    · rename_i hclosing
      cases h
      exact .inr (by simp [hclosing])
    · rename_i hcollect _
      cases h
      exact (collect_error hcollect).imp_right fun hbroken => by simp [hbroken]
    · exact .inl (join_error h)

theorem textOf_error {fields : List (Text × Value)} {name default : String}
    (h : textOf conv fields name default = .error f) : f = .exception := by
  unfold textOf at h
  split at h
  · cases h
  · split at h
    · cases h
      rfl
    · cases h

theorem bind_eq_error {α β : Type} {x : Except Failure α} {g : α → Except Failure β}
    (h : (x >>= g) = .error f) : x = .error f ∨ ∃ a, x = .ok a ∧ g a = .error f := by
  cases x with
  | error e =>
      cases h
      exact .inl rfl
  | ok a => exact .inr ⟨a, rfl, h⟩

theorem factorsOf_error {items : List Value} (h : factorsOf conv items = .error f) :
    f = .exception := by
  induction items with
  | nil => cases h
  | cons item items ih =>
      cases item with
      | obj fields =>
          rcases bind_eq_error h with h | ⟨category, -, h⟩
          · exact textOf_error h
          rcases bind_eq_error h with h | ⟨detail, -, h⟩
          · exact textOf_error h
          rcases bind_eq_error h with h | ⟨severity, -, h⟩
          · exact textOf_error h
          rcases bind_eq_error h with h | ⟨factors, -, h⟩
          · exact ih h
          · cases h
      | null | bool | int | float | str | arr => exact ih h

theorem riskFactorsOf_error {fields : List (Text × Value)} (h : riskFactorsOf conv fields = .error f) :
    f = .exception := by
  unfold riskFactorsOf at h
  split at h
  · cases h
  · cases h
  · cases h
  · exact factorsOf_error h
  · cases h
    rfl

theorem riskScoreOf_error {fields : List (Text × Value)} (h : riskScoreOf conv fields = .error f) :
    f = .exception := by
  unfold riskScoreOf at h
  split at h
  · cases h
  · split at h
    · cases h
      rfl
    · cases h

theorem parseResponse_error {text : Text} (h : parseResponse reader conv text = .error f) :
    f = .exception := by
  unfold parseResponse at h
  split at h
  · cases h
  · cases h
    rfl
  · rcases bind_eq_error h with h | ⟨score, -, h⟩
    · exact riskScoreOf_error h
    rcases bind_eq_error h with h | ⟨factors, -, h⟩
    · exact riskFactorsOf_error h
    rcases bind_eq_error h with h | ⟨reasoning, -, h⟩
    · exact textOf_error h
    · cases h
  · cases h
    rfl

end Escapes

section Reviews

variable {reader : JsonReader} {conv : Conversions} {timeout : String} {reply : Reply}

/-- An answer of the review scores between 0 and 1, and it approves only as the text does. -/
theorem sound_of_review {answer : Answer} (h : review reader conv timeout reply = .ok answer) :
    InUnit answer.riskScore ∧ (answer.decision = .approve →
      ∃ text, streamChatCompletion reader conv reply = .ok text ∧ Approves reader conv text) := by
  unfold review at h
  cases hrun : streamChatCompletion reader conv reply >>= parseResponse reader conv with
  | ok parsed =>
      obtain ⟨text, htext, hanswer⟩ := bind_eq_ok.mp hrun
      obtain ⟨hscore, happroves⟩ := parseResponse_eq_ok hanswer
      rw [hrun] at h
      cases h
      exact ⟨hscore, fun h => ⟨text, htext, happroves h⟩⟩
  | error f =>
      rw [hrun] at h
      cases f with
      | timeout | exception =>
          cases h
          exact ⟨inUnit_undecided _, fun h => by cases h⟩
      | cancelled => cases h

/-- Only a cancellation escapes the review. -/
theorem cancelled_of_review {f : Failure} (h : review reader conv timeout reply = .error f) :
    f = .cancelled ∧ reply.Cancelled := by
  unfold review at h
  cases hrun : streamChatCompletion reader conv reply >>= parseResponse reader conv with
  | ok parsed =>
      rw [hrun] at h
      cases h
  | error f' =>
      rw [hrun] at h
      cases f' with
      | timeout | exception => cases h
      | cancelled =>
          cases h
          refine ⟨rfl, ?_⟩
          rcases bind_eq_error hrun with h | ⟨text, -, h⟩
          · exact (streamChatCompletion_error h).resolve_left fun h => by cases h
          · cases parseResponse_error h

end Reviews

/-- Whatever the call of the model brings, its review answers, unless it is cancelled, which is no
`Exception`.  The score of the answer is between 0 and 1, and the answer is `approve` only if the text
that was extracted from the stream approves. -/
theorem review_fails_closed (reader : JsonReader) (conv : Conversions) (timeout : String)
    (reply : Reply) :
    (∀ f, review reader conv timeout reply = .error f → f = .cancelled ∧ reply.Cancelled) ∧
      ∀ answer, review reader conv timeout reply = .ok answer →
        InUnit answer.riskScore ∧ (answer.decision = .approve →
          ∃ text, streamChatCompletion reader conv reply = .ok text ∧
            Approves reader conv text) :=
  ⟨fun _ => cancelled_of_review, fun _ => sound_of_review⟩

/-- The answer as `create_task` uses it; the text of the reasoning may be any that is stored. -/
def Answer.toReviewDecision (answer : Answer) (score : Rat) (reasoning : String) : ReviewDecision where
  decision := answer.decision
  riskScore := score
  reasoning

/-- A task of a high-risk type that is created with the answer of a review is not held back only if
the text approves. -/
theorem pending_of_review {reader : JsonReader} {conv : Conversions} {timeout : String} {reply : Reply}
    {answer : Answer} {type : TaskType} {score : Rat} {reasoning nowIso reviewedIso : String}
    (hreview : review reader conv timeout reply = .ok answer) (hrisk : type.isL2 = true)
    (hpending : (admissionOf type (some (answer.toReviewDecision score reasoning)) nowIso
      reviewedIso).status = .pending) :
    ∃ text, streamChatCompletion reader conv reply = .ok text ∧ Approves reader conv text := by
  obtain ⟨result, hresult, happrove⟩ := approved_of_admissionOf hrisk hpending
  cases hresult
  exact (sound_of_review hreview).2 happrove

/-! ## A stream that approves -/

/-- The text of an answer. -/
def approvalText : Text := codePoints "\x7b\"decision\":\"approve\"\x7d"

/-- The data of a line that brings this text. -/
def approvalData : Text :=
  codePoints "\x7b\"choices\":[\x7b\"delta\":\x7b\"content\":\"\x7b\\\"decision\\\":\\\"approve\\\"\x7d\"\x7d\x7d]\x7d"

/-- The value of these data. -/
def approvalChunk : List (Text × Value) :=
  [(codePoints "choices",
    .arr [.obj [(codePoints "delta", .obj [(codePoints "content", .str approvalText)])]])]

/-- The fields of the answer. -/
def approvalFields : List (Text × Value) := [(codePoints "decision", .str (codePoints "approve"))]

/-- A reader that knows these two texts. -/
def approvalReader : JsonReader where
  loads text :=
    if text = approvalData then .ok (.obj approvalChunk)
    else if text = approvalText then .ok (.obj approvalFields)
    else .error .decode
  braced text fields h := by
    have hdata : ∃ inner, strip approvalData = openBrace :: inner ++ [closeBrace] :=
      ⟨(strip approvalData).tail.dropLast, by decide +kernel⟩
    have htext : ∃ inner, strip approvalText = openBrace :: inner ++ [closeBrace] :=
      ⟨(strip approvalText).tail.dropLast, by decide +kernel⟩
    split at h
    · next heq => exact heq ▸ hdata
    · split at h
      · next heq => exact heq ▸ htext
      · cases h

/-- A line of another kind, one that is cut off, and one that brings the text. -/
def approvalReply : Reply where
  lines := [codePoints ": ping", codePoints "data: \x7b\"choices\":[\x7b\"del",
    codePoints "data: " ++ approvalData, codePoints "data: [DONE]"]

/-- No value is converted. -/
def noConversions : Conversions := ⟨fun _ => none, fun _ => none⟩

theorem approvalReply_text :
    streamChatCompletion approvalReader noConversions approvalReply = .ok approvalText := by
  decide +kernel

theorem loads_approvalText :
    approvalReader.loads (jsonPart (strip approvalText)) = .ok (.obj approvalFields) := by
  have hpart : jsonPart (strip approvalText) = approvalText := by decide +kernel
  have hne : approvalText ≠ approvalData := by decide +kernel
  rw [hpart]
  simp only [approvalReader, if_neg hne, if_true]

theorem answerOf_approvalFields : answerOf noConversions approvalFields = .ok
    { decision := .approve, riskScore := clamp (.finite (1 / 2)), reasoning := codePoints "" } := by
  have hscore : field? approvalFields "risk_score" = none := rfl
  have hfactors : field? approvalFields "risk_factors" = none := rfl
  have hreasoning : field? approvalFields "reasoning" = none := rfl
  have hdecision : decisionOf approvalFields = .approve := by decide +kernel
  simp only [answerOf, riskScoreOf, hscore, riskFactorsOf, hfactors, textOf, hreasoning, hdecision]
  rfl

/-- This stream is approved, with a score between 0 and 1. -/
theorem review_fails_closed_approved :
    ∃ answer, review approvalReader noConversions "30" approvalReply = .ok answer ∧
      InUnit answer.riskScore ∧
        ∃ text, streamChatCompletion approvalReader noConversions approvalReply = .ok text ∧
          Approves approvalReader noConversions text := by
  have hparse : parseResponse approvalReader noConversions approvalText =
      answerOf noConversions approvalFields := by
    rw [parseResponse, loads_approvalText]
  have hreview : review approvalReader noConversions "30" approvalReply = .ok
      { decision := .approve, riskScore := clamp (.finite (1 / 2)), reasoning := codePoints "" } := by
    have hrun : streamChatCompletion approvalReader noConversions approvalReply >>=
        parseResponse approvalReader noConversions = answerOf noConversions approvalFields := by
      rw [approvalReply_text]
      exact hparse
    rw [review, hrun, answerOf_approvalFields]
  have h := (review_fails_closed approvalReader noConversions "30" approvalReply).2 _ hreview
  exact ⟨_, hreview, h.1, h.2 rfl⟩

end GpuFleet.LlmReview
