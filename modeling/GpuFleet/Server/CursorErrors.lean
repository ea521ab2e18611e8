import GpuFleet.Server.ListTasks

/-!
# What a cursor may do

A client may send any text as a cursor.  `decode_cursor` catches the errors of base64, of
UTF-8, of JSON and of its own checks, and answers that the cursor is invalid.  Two kinds of
errors escape: the `RecursionError` of a JSON text that is nested too deeply, and the
errors of the database, which refuses an id beyond 64 bits and a text with half of a
surrogate pair.

So a page or the error of an invalid cursor is answered exactly if the cursor is
`Bindable` (`listTasks_answered_iff`).

Where the interpreter stops reading a JSON text depends on its settings and on its stack.
This is a parameter.
-/

namespace GpuFleet

open Foundations

/-- Why the interpreter stops reading a JSON text. -/
inductive ReadLimit where
  /-- The nesting is too deep: a `RecursionError`. -/
  | recursion
  /-- A number has too many digits: a `ValueError`. -/
  | digits
  deriving DecidableEq

/-- The limit that stops the reading of a text, if one does. -/
abbrev ReadLimits := List Char → Option ReadLimit

/-- The JSON text in a cursor. -/
def cursorText (cursor : List Char) : Option (List Char) :=
  if cursor.all fun c => c.toNat < 128 then
    (Base64.urlsafeDecode (Base64.pad cursor)).bind Base64.utf8Decode?
  else none

section Limits

variable (limits : ReadLimits)

/-- `decode_cursor`, where a limit may stop the reading. -/
def decodeCursorWithin (cursor : Option String) : Except Exc (Option (List Nat × Int)) :=
  match (truthy cursor).bind fun text => (cursorText text.toList).bind limits with
  | some .recursion => .error .runtime
  | some .digits => .error invalidCursor
  | none => decodeCursor cursor

/-- `list_tasks`, where a limit may stop the reading of the cursor. -/
def listTasksWithin (limit : Nat) (cursor : Option String) (filters : TaskFilters) :
    Tx AdminTaskListPage := do
  let _ ← ofExcept (decodeCursorWithin limits cursor)
  listTasks limit cursor filters

end Limits

/-- A page, or the error of an invalid cursor. -/
def Answered (result : Except Exc AdminTaskListPage) : Prop :=
  (∃ page, result = .ok page) ∨ result = .error invalidCursor

/-- The text in a cursor is not nested too deeply, and if it is read and holds a time and an id, the
database takes them. -/
structure Bindable (limits : ReadLimits) (cursor : List Char) : Prop where
  shallow : ∀ json, cursorText cursor = some json → limits json ≠ some .recursion
  fits : ∀ json fields createdAt rowId, cursorText cursor = some json → limits json = none →
    JsonText.loads json = some (.obj fields) →
      JsonText.field? fields "created_at" = some (.str createdAt) →
        (JsonText.field? fields "id").bind jsonInt? = some rowId →
          (∀ n ∈ createdAt, n.isValidChar) ∧ -2 ^ 63 ≤ rowId ∧ rowId < 2 ^ 63

/-! ## Reading a cursor -/

/-- The key in a JSON text. -/
def readKey (json : List Char) : Option (List Nat × Int) :=
  match JsonText.loads json with
  | some (.obj fields) =>
      match JsonText.field? fields "created_at", JsonText.field? fields "id" with
      | some (.str codePoints), some rowId => (jsonInt? rowId).map fun n => (codePoints, n)
      | _, _ => none
  | _ => none

theorem parseCursor_eq (cursor : List Char) :
    parseCursor cursor = (cursorText cursor).bind readKey := by
  rw [parseCursor, cursorText]
  split
  · cases Base64.urlsafeDecode (Base64.pad cursor) with
    | none => rfl
    | some bytes =>
        cases hjson : Base64.utf8Decode? bytes with
        | none => simp [hjson]
        | some json =>
            simp only [Option.bind_eq_bind, Option.bind_some, hjson, readKey]
            cases JsonText.loads json with
            | none => rfl
            | some value =>
                cases value with
                | obj fields =>
                    simp only [Option.bind_some]
                    cases JsonText.field? fields "created_at" with
                    | none => rfl
                    | some createdAt =>
                        cases JsonText.field? fields "id" with
                        | none => cases createdAt <;> rfl
                        | some rowId => cases createdAt <;> rfl
                | null | bool | int | float | str | arr => rfl
  · rfl

/-- The key in a JSON text is that of an object. -/
theorem readKey_eq_some {json : List Char} {createdAt : List Nat} {rowId : Int} :
    readKey json = some (createdAt, rowId) ↔ ∃ fields, JsonText.loads json = some (.obj fields) ∧
      JsonText.field? fields "created_at" = some (.str createdAt) ∧
        (JsonText.field? fields "id").bind jsonInt? = some rowId := by
  constructor
  · intro h
    rw [readKey] at h
    split at h
    · next fields hfields =>
      split at h
      · next codePoints value hcreated hid =>
        obtain ⟨n, hn, heq⟩ := Option.map_eq_some_iff.mp h
        cases heq
        exact ⟨fields, hfields, hcreated, by rw [hid, Option.bind_some, hn]⟩
      · cases h
    · cases h
  · rintro ⟨fields, hfields, hcreated, hid⟩
    obtain ⟨value, hvalue, hn⟩ := Option.bind_eq_some_iff.mp hid
    simp [readKey, hfields, hcreated, hvalue, hn]

theorem codePointsText?_isSome {codePoints : List Nat} :
    (codePointsText? codePoints).isSome = true ↔ ∀ n ∈ codePoints, n.isValidChar := by
  rw [codePointsText?, Option.isSome_map]
  induction codePoints with
  | nil => simp
  | cons n codePoints ih =>
      rw [List.mapM_cons, List.forall_mem_cons, ← ih]
      by_cases hn : n.isValidChar
      · rw [if_pos hn]
        cases codePoints.mapM (fun n : Nat => if n.isValidChar then some (Char.ofNat n) else none) <;>
          simp [hn]
      · simp [hn]

/-- The database takes a key exactly if it fits. -/
theorem cursorParams_ok {createdAt : List Nat} {rowId : Int} :
    (∃ params, cursorParams (some (createdAt, rowId)) = .ok params) ↔
      (∀ n ∈ createdAt, n.isValidChar) ∧ -2 ^ 63 ≤ rowId ∧ rowId < 2 ^ 63 := by
  rw [← codePointsText?_isSome, cursorParams]
  cases codePointsText? createdAt with
  | none => simp
  | some text =>
      by_cases hfits : -2 ^ 63 ≤ rowId ∧ rowId < 2 ^ 63
      · simp only [if_pos hfits]
        exact ⟨fun _ => ⟨rfl, hfits⟩, fun _ => ⟨_, rfl⟩⟩
      · simp only [if_neg hfits]
        exact ⟨fun h => (by cases h.choose_spec), fun h => absurd h.2 hfits⟩

/-- The database refuses a key with an error of its own. -/
theorem cursorParams_ne_invalid (key : Option (List Nat × Int)) :
    cursorParams key ≠ .error invalidCursor := by
  cases key with
  | none => simp [cursorParams]
  | some key =>
      rw [cursorParams]
      split
      · simp [invalidCursor]
      · split <;> simp [invalidCursor]

/-! ## What is answered -/

variable {limits : ReadLimits} {limit : Nat} {cursor : Option String} {filters : TaskFilters}
  {db : Db} {world : World}

/-- A cursor whose key is taken is answered by a page. -/
theorem listTasks_ok {params : Option (String × Int)}
    (h : (decodeCursor cursor).bind cursorParams = .ok params) :
    ∃ page, (listTasks limit cursor filters).resultOf db world = .ok page := by
  rw [listTasks]
  cases hkey : decodeCursor cursor with
  | error e =>
      rw [hkey] at h
      cases h
  | ok key =>
      rw [hkey] at h
      have hparams : cursorParams key = .ok params := h
      simp only [ofExcept, hparams, Prog.resultOf, Prog.atomic, Prog.ret_bind, Prog.query_bind,
        Prog.exec_select]
      exact ⟨_, rfl⟩

theorem listTasks_error {e : Exc} (h : (decodeCursor cursor).bind cursorParams = .error e) :
    (listTasks limit cursor filters).resultOf db world = .error e := by
  rw [listTasks]
  cases hkey : decodeCursor cursor with
  | error e' =>
      rw [hkey] at h
      cases h
      rfl
  | ok key =>
      rw [hkey] at h
      have hparams : cursorParams key = .error e := h
      simp only [ofExcept, Prog.ret_bind, hparams]
      rfl

/-- The answer of listing, where no limit stops the reading of the cursor. -/
theorem listTasks_answered {text : String} (htext : text ≠ "") :
    Answered ((listTasks limit (some text) filters).resultOf db world) ↔
      ∀ key, parseCursor text.toList = some key → ∃ params, cursorParams (some key) = .ok params := by
  cases hkey : parseCursor text.toList with
  | none =>
      have herror : (decodeCursor (some text)).bind cursorParams = .error invalidCursor := by
        simp only [decodeCursor, if_neg htext, hkey]
        rfl
      simp [Answered, listTasks_error herror]
  | some key =>
      cases hparams : cursorParams (some key) with
      | ok params =>
          have hok : (decodeCursor (some text)).bind cursorParams = .ok params := by
            simp only [decodeCursor, if_neg htext, hkey]
            exact hparams
          simp only [Option.some.injEq, forall_eq', hparams, Except.ok.injEq, exists_eq', iff_true]
          exact Or.inl (listTasks_ok hok)
      | error e =>
          have herror : (decodeCursor (some text)).bind cursorParams = .error e := by
            simp only [decodeCursor, if_neg htext, hkey]
            exact hparams
          have hne : e ≠ invalidCursor := by
            rintro rfl
            exact cursorParams_ne_invalid _ hparams
          simp [Answered, listTasks_error herror, hparams, hne]

theorem listTasksWithin_error {e : Exc} (h : decodeCursorWithin limits cursor = .error e) :
    (listTasksWithin limits limit cursor filters).resultOf db world = .error e := by
  rw [listTasksWithin, h]
  rfl

theorem listTasksWithin_ok {key : Option (List Nat × Int)}
    (h : decodeCursorWithin limits cursor = .ok key) :
    (listTasksWithin limits limit cursor filters).resultOf db world =
      (listTasks limit cursor filters).resultOf db world := by
  rw [listTasksWithin, h]
  rfl

/-- Where no limit stops the reading, the listing goes on. -/
theorem listTasksWithin_eq
    (h : ((truthy cursor).bind fun text => (cursorText text.toList).bind limits) = none) :
    (listTasksWithin limits limit cursor filters).resultOf db world =
      (listTasks limit cursor filters).resultOf db world := by
  have hwithin : decodeCursorWithin limits cursor = decodeCursor cursor := by
    rw [decodeCursorWithin, h]
  cases hkey : decodeCursor cursor with
  | ok key => exact listTasksWithin_ok (hwithin.trans hkey)
  | error e =>
      rw [listTasksWithin_error (hwithin.trans hkey), listTasks_error (e := e)]
      rw [hkey]
      rfl

theorem truthy_eq_some {text : String} :
    truthy cursor = some text ↔ cursor = some text ∧ text ≠ "" := by
  rw [truthy, Option.filter_eq_some_iff, decide_eq_true_iff]

/-- An absent or empty cursor asks for the first page. -/
theorem decodeCursor_of_truthy_none (h : truthy cursor = none) :
    decodeCursor cursor = .ok none := by
  cases cursor with
  | none => rfl
  | some text =>
      by_cases hempty : text = ""
      · rw [decodeCursor, if_pos hempty]
      · rw [truthy_eq_some.mpr ⟨rfl, hempty⟩] at h
        cases h

theorem cursorText_encodeCursor (createdAt : String) (rowId : Nat) :
    cursorText (encodeCursor createdAt rowId).toList = some (cursorJson createdAt rowId) := by
  have hascii : (encodeCursor createdAt rowId).toList.all (fun c => c.toNat < 128) = true := by
    rw [encodeCursor, String.toList_ofList, List.all_eq_true]
    intro c hc
    exact decide_eq_true (Base64.unpadded_ascii cursorJson_lt hc)
  rw [cursorText, if_pos hascii, encodeCursor, String.toList_ofList,
    Base64.urlsafeDecode_unpadded cursorJson_lt, Option.bind_some, Base64.utf8Decode?_utf8]

/-- A cursor that no limit stops is answered exactly if its key fits. -/
theorem bindable_iff {text : String} (h : (cursorText text.toList).bind limits = none) :
    Bindable limits text.toList ↔
      ∀ key, parseCursor text.toList = some key →
        ∃ params, cursorParams (some key) = .ok params := by
  have hnone : ∀ json, cursorText text.toList = some json → limits json = none := by
    intro json hjson
    rwa [hjson, Option.bind_some] at h
  constructor
  · intro hbind key hkey
    obtain ⟨createdAt, rowId⟩ := key
    rw [parseCursor_eq] at hkey
    obtain ⟨json, hjson, hread⟩ := Option.bind_eq_some_iff.mp hkey
    obtain ⟨fields, hfields, hcreated, hid⟩ := readKey_eq_some.mp hread
    exact cursorParams_ok.mpr (hbind.fits json fields createdAt rowId hjson (hnone json hjson)
      hfields hcreated hid)
  · intro hkeys
    constructor
    · intro json hjson
      rw [hnone json hjson]
      simp
    · intro json fields createdAt rowId hjson _ hfields hcreated hid
      refine cursorParams_ok.mp (hkeys (createdAt, rowId) ?_)
      rw [parseCursor_eq, hjson, Option.bind_some]
      exact readKey_eq_some.mpr ⟨fields, hfields, hcreated, hid⟩

/-- A cursor that the server gave out is decoded to its key, and a cursor is answered by a page or
as invalid if and only if it is bindable. -/
theorem listTasks_answered_iff (limits : ReadLimits) (limit : Nat) (cursor : Option String)
    (filters : TaskFilters) (db : Db) (world : World) :
    (∀ createdAt rowId, limits (cursorJson createdAt rowId) = none →
      decodeCursorWithin limits (some (encodeCursor createdAt rowId)) =
        .ok (some (createdAt.toList.map Char.toNat, (rowId : Int)))) ∧
      (Answered ((listTasksWithin limits limit cursor filters).resultOf db world) ↔
        ∀ text, truthy cursor = some text → Bindable limits text.toList) := by
  constructor
  · intro createdAt rowId hread
    have htruthy := truthy_eq_some.mpr ⟨rfl, encodeCursor_ne_empty createdAt rowId⟩
    rw [decodeCursorWithin, htruthy, Option.bind_some, cursorText_encodeCursor, Option.bind_some,
      hread]
    exact decodeCursor_encodeCursor createdAt rowId
  · cases htruthy : truthy cursor with
    | none =>
        rw [listTasksWithin_eq (by rw [htruthy, Option.bind_none])]
        have hok : (decodeCursor cursor).bind cursorParams = .ok none := by
          rw [decodeCursor_of_truthy_none htruthy]
          rfl
        exact ⟨fun _ text htext => (by cases htext), fun _ => Or.inl (listTasks_ok hok)⟩
    | some text =>
        obtain ⟨rfl, htext⟩ := truthy_eq_some.mp htruthy
        simp only [Option.some.injEq, forall_eq']
        cases hlimit : (cursorText text.toList).bind limits with
        | none =>
            rw [listTasksWithin_eq (by rw [htruthy, Option.bind_some, hlimit]),
              listTasks_answered htext, bindable_iff hlimit]
        | some reason =>
            obtain ⟨json, hjson, hreason⟩ := Option.bind_eq_some_iff.mp hlimit
            cases reason with
            | recursion =>
                have herror : decodeCursorWithin limits (some text) = .error .runtime := by
                  rw [decodeCursorWithin, htruthy, Option.bind_some, hlimit]
                rw [listTasksWithin_error herror]
                constructor
                · intro h
                  rcases h with ⟨page, hpage⟩ | hinvalid
                  · cases hpage
                  · cases hinvalid
                · exact fun h => absurd hreason (h.shallow json hjson)
            | digits =>
                have herror : decodeCursorWithin limits (some text) = .error invalidCursor := by
                  rw [decodeCursorWithin, htruthy, Option.bind_some, hlimit]
                rw [listTasksWithin_error herror]
                refine ⟨fun _ => ⟨fun json' hjson' => ?_, ?_⟩, fun _ => Or.inr rfl⟩
                · rw [hjson] at hjson'
                  cases hjson'
                  rw [hreason]
                  simp
                · intro json' fields createdAt rowId hjson' hnone
                  rw [hjson] at hjson'
                  cases hjson'
                  rw [hreason] at hnone
                  cases hnone

/-- A cursor of the server, read by an interpreter without limits. -/
theorem listTasks_answered_given :
    decodeCursorWithin (fun _ => none) (some (encodeCursor "2026-01-02T03:04:05Z" 7)) =
        .ok (some ("2026-01-02T03:04:05Z".toList.map Char.toNat, 7)) ∧
      (Answered ((listTasksWithin (fun _ => none) 50 (some (encodeCursor "2026-01-02T03:04:05Z" 7))
          {}).resultOf {} default) ↔
        ∀ text, truthy (some (encodeCursor "2026-01-02T03:04:05Z" 7)) = some text →
          Bindable (fun _ => none) text.toList) := by
  have h := listTasks_answered_iff (fun _ => none) 50
    (some (encodeCursor "2026-01-02T03:04:05Z" 7)) {} {} default
  exact ⟨h.1 _ _ rfl, h.2⟩

/-- A cursor with an id of 64 bits without sign passes the checks of `decode_cursor`, and the
database refuses it with an `OverflowError`. -/
theorem hugeId_overflows :
    (listTasksWithin (fun _ => none) 50 (some (encodeCursor "a" (2 ^ 63))) {}).resultOf {} default =
        .error .overflow ∧
      ¬ Answered ((listTasksWithin (fun _ => none) 50 (some (encodeCursor "a" (2 ^ 63)))
        {}).resultOf {} default) := by
  have hresult : (listTasksWithin (fun _ => none) 50 (some (encodeCursor "a" (2 ^ 63)))
      {}).resultOf {} default = .error .overflow := by
    have hparams : (decodeCursor (some (encodeCursor "a" (2 ^ 63)))).bind cursorParams =
        .error .overflow := by
      rw [decodeCursor_encodeCursor]
      rfl
    rw [listTasksWithin_eq (by
      cases (truthy (some (encodeCursor "a" (2 ^ 63)))) with
      | none => rfl
      | some text => cases cursorText text.toList <;> simp)]
    exact listTasks_error hparams
  refine ⟨hresult, ?_⟩
  rw [hresult]
  simp [Answered, invalidCursor]

end GpuFleet
