import GpuFleet.Foundations.Base64
import GpuFleet.Foundations.JsonText
import GpuFleet.Foundations.Keyset
import GpuFleet.Server.TaskUtils
import Mathlib.Data.Prod.Lex
import Mathlib.Data.String.Basic

/-!
# Listing the tasks

`listTasks` returns a page of the tasks and a cursor, the encoded key of the
page's last row, and `requestAllCursorPages` follows the cursors.

The order of the texts is that of their code points, which is the order of
their bytes in UTF-8.  A cursor is any text that a client sends.

The pages are those of `Foundations.Keyset` (`listTasks_page`), so following the
cursors while rows are inserted returns every matching row once, in descending
order (`requestAllCursorPages_exact`).
-/

namespace GpuFleet

open Foundations

/-! ## Cursors -/

/-- The JSON text in a cursor. -/
def cursorJson (createdAt : String) (rowId : Nat) : List Char :=
  '{' :: (JsonText.stringText "created_at".toList ++ ':' :: (JsonText.stringText createdAt.toList ++
    ',' :: (JsonText.stringText "id".toList ++ ':' :: (JsonText.decimal rowId ++ ['}']))))

/-- `encode_cursor` -/
def encodeCursor (createdAt : String) (rowId : Nat) : String :=
  String.ofList (Base64.unpadded (Base64.urlsafeEncode (Base64.utf8 (cursorJson createdAt rowId))))

/-- An integer in a cursor.  The truth values are integers, too. -/
def jsonInt? : JsonText.Value → Option Int
  | .int n => some n
  | .bool b => some (if b then 1 else 0)
  | _ => none

/-- The fields of a cursor's text. -/
def parseCursor (text : List Char) : Option (List Nat × Int) :=
  if text.all fun c => c.toNat < 128 then do
    let bytes ← Base64.urlsafeDecode (Base64.pad text)
    let json ← Base64.utf8Decode? bytes
    match ← JsonText.loads json with
    | .obj fields => do
        let createdAt ← JsonText.field? fields "created_at"
        let rowId ← JsonText.field? fields "id"
        match createdAt with
        | .str codePoints => (jsonInt? rowId).map fun n => (codePoints, n)
        | _ => none
    | _ => none
  else none

/-- The error of `decode_cursor`. -/
def invalidCursor : Exc :=
  .api ⟨"ERR_VALIDATION_INVALID_CURSOR", "Invalid cursor", 400, []⟩

/-- `decode_cursor` -/
def decodeCursor (cursor : Option String) : Except Exc (Option (List Nat × Int)) :=
  match cursor with
  | none => .ok none
  | some text =>
      if text = "" then .ok none
      else match parseCursor text.toList with
        | some key => .ok (some key)
        | none => .error invalidCursor

/-- The text of code points, unless one of them is half of a surrogate pair. -/
def codePointsText? (codePoints : List Nat) : Option String :=
  (codePoints.mapM fun n : Nat => if n.isValidChar then some (Char.ofNat n) else none).map String.ofList

/-- The parameters of `add_cursor_filter`.  A text that cannot be encoded and a number that is too
large for the database are refused when the statement is executed. -/
def cursorParams : Option (List Nat × Int) → Except Exc (Option (String × Int))
  | none => .ok none
  | some (codePoints, rowId) =>
      match codePointsText? codePoints with
      | none => .error .value
      | some createdAt =>
          if -2 ^ 63 ≤ rowId ∧ rowId < 2 ^ 63 then .ok (some (createdAt, rowId))
          else .error .overflow

/-! ## Pages -/

structure AdminTaskListItem where
  taskId : String
  revision : Int
  nodeId : String
  type : TaskType
  status : TaskStatus
  workdir : Option String
  requestedGpuIds : List Int
  timeoutSec : Nat
  dangerLevel : String
  createdAt : String
  claimedAt : Option String
  startedAt : Option String
  finishedAt : Option String
  deriving DecidableEq

structure AdminTaskListPage where
  items : List AdminTaskListItem
  nextCursor : Option String := none
  totalEstimate : Option Nat := none

/-- `task_row_to_list_item` -/
def taskRowToListItem (row : Task) : AdminTaskListItem where
  taskId := row.taskId
  revision := row.revision
  nodeId := row.nodeId
  type := row.type
  status := row.status
  workdir := row.workdir
  requestedGpuIds := row.requestedGpuIds
  timeoutSec := row.timeoutSec
  dangerLevel := row.dangerLevel
  createdAt := row.createdAt
  claimedAt := row.claimedAt
  startedAt := row.startedAt
  finishedAt := row.finishedAt

/-- The filters of a request. -/
structure TaskFilters where
  nodeId : Option String := none
  status : Option String := none
  taskType : Option String := none
  since : Option String := none
  «until» : Option String := none

/-- A filter that is given.  The empty text is none. -/
def truthy (value : Option String) : Option String := value.filter (· ≠ "")

/-- The conditions of the filters, with those of `add_time_filters`. -/
def TaskFilters.keeps (filters : TaskFilters) (row : Task) : Bool :=
  (truthy filters.nodeId).all (row.nodeId = ·) &&
  (truthy filters.status).all (row.status.text = ·) &&
  (truthy filters.taskType).all (row.type.text = ·) &&
  (truthy filters.since).all (· ≤ row.createdAt) &&
  (truthy filters.«until»).all (row.createdAt ≤ ·)

/-- `created_at < ? OR (created_at = ? AND id < ?)` -/
def beforeCursor (params : Option (String × Int)) (row : Task) : Bool :=
  params.all fun (createdAt, rowId) =>
    row.createdAt < createdAt || (row.createdAt = createdAt && (row.id : Int) < rowId)

/-- `ORDER BY created_at DESC, id DESC` -/
def newestFirst (rows : List Task) : List Task :=
  rows.mergeSort fun a b => b.createdAt < a.createdAt || (b.createdAt = a.createdAt && b.id ≤ a.id)

/-- `list_tasks` -/
def listTasks (limit : Nat) (cursor : Option String) (filters : TaskFilters) :
    Tx AdminTaskListPage := do
  let key ← ofExcept (decodeCursor cursor)
  let params ← ofExcept (cursorParams key)
  let rows ← Prog.query fun db =>
    (newestFirst (db.tasks.select fun row => filters.keeps row && beforeCursor params row)).take
      (limit + 1)
  let totalEstimate ← Prog.query fun db => (db.tasks.select filters.keeps).length
  let pageRows := rows.take limit
  let nextCursor :=
    if limit < rows.length then
      pageRows.getLast?.map fun last => encodeCursor last.createdAt last.id
    else none
  pure ⟨pageRows.map taskRowToListItem, nextCursor, some totalEstimate⟩

/-- `requestAllCursorPages`: the items of the pages from the `k`-th request on, when no more than
`fuel` requests are needed. -/
def requestAllCursorPages (request : Nat → Option String → Except Exc AdminTaskListPage) :
    (fuel k : Nat) → Option String → Option (Except Exc (List AdminTaskListItem))
  | 0, _, _ => none
  | fuel + 1, k, cursor =>
      match request k cursor with
      | .error e => some (.error e)
      | .ok page =>
          if (truthy page.nextCursor).isNone then some (.ok page.items)
          else (requestAllCursorPages request fuel (k + 1) page.nextCursor).map fun later =>
            later.map fun items => page.items ++ items

/-! ## A cursor is decoded to the key it was encoded from -/

theorem codePointsText?_toNat (s : String) : codePointsText? (s.toList.map Char.toNat) = some s := by
  have hall : ∀ cs : List Char, (cs.map Char.toNat).mapM
      (fun n : Nat => if n.isValidChar then some (Char.ofNat n) else none) = some cs := by
    intro cs
    induction cs with
    | nil => rfl
    | cons c cs ih =>
        have hvalid : c.toNat.isValidChar := c.valid
        simp [ih, hvalid, Char.ofNat_toNat]
  rw [codePointsText?, hall, Option.map_some, String.ofList_toList]

theorem skipWs_decimal (n : Nat) : JsonText.skipWs (JsonText.decimal n ++ ['}']) =
    JsonText.decimal n ++ ['}'] := by
  have hne : JsonText.decimal n ≠ [] := Nat.toDigits_ne_nil
  obtain ⟨d, ds, hd⟩ := List.exists_cons_of_ne_nil hne
  have hdigit : d.isDigit = true := JsonText.isDigit_decimal (hd ▸ List.mem_cons_self)
  rw [hd, List.cons_append]
  refine JsonText.skipWs_of_head ⟨?_, ?_, ?_, ?_⟩
  all_goals
    rintro rfl
    exact absurd hdigit (by decide)

theorem loads_cursorJson (createdAt : String) (rowId : Nat) :
    JsonText.loads (cursorJson createdAt rowId) =
      some (.obj [("created_at".toList.map Char.toNat, .str (createdAt.toList.map Char.toNat)),
        ("id".toList.map Char.toNat, .int rowId)]) := by
  have hid : ∀ depth, JsonText.scanFields (depth + 2)
      (JsonText.stringText "id".toList ++ ':' :: (JsonText.decimal rowId ++ ['}'])) =
        some ([("id".toList.map Char.toNat, .int rowId)], []) := fun depth =>
    JsonText.scanFields_last (skipWs_decimal rowId)
      (JsonText.scanValue_decimal depth rowId (by decide) (by decide) (by decide) (by decide))
  have hfields : ∀ depth, JsonText.scanFields (depth + 3) (JsonText.stringText "created_at".toList ++
      ':' :: (JsonText.stringText createdAt.toList ++ ',' :: (JsonText.stringText "id".toList ++
        ':' :: (JsonText.decimal rowId ++ ['}'])))) =
          some ([("created_at".toList.map Char.toNat, .str (createdAt.toList.map Char.toNat)),
            ("id".toList.map Char.toNat, .int rowId)], []) := fun depth =>
    JsonText.scanFields_cons (JsonText.skipWs_of_head (by decide))
      (JsonText.skipWs_of_head (by decide)) (JsonText.scanValue_stringText _ _ _) (hid depth)
  have hlength : ∃ depth, (cursorJson createdAt rowId).length + 1 = depth + 4 := by
    refine ⟨(cursorJson createdAt rowId).length - 3, ?_⟩
    simp [cursorJson, JsonText.stringText]
    omega
  obtain ⟨depth, hdepth⟩ := hlength
  have hstart : JsonText.skipWs (cursorJson createdAt rowId) = cursorJson createdAt rowId :=
    JsonText.skipWs_of_head (by decide)
  rw [JsonText.loads, hdepth, hstart, cursorJson, JsonText.scanValue_obj (hfields depth)]
  rfl

theorem cursorJson_lt {createdAt : String} {rowId : Nat} :
    ∀ b ∈ Base64.utf8 (cursorJson createdAt rowId), b < 256 :=
  fun _ hb => Base64.utf8_lt hb

theorem parseCursor_encodeCursor (createdAt : String) (rowId : Nat) :
    parseCursor (encodeCursor createdAt rowId).toList =
      some (createdAt.toList.map Char.toNat, (rowId : Int)) := by
  have hascii : (encodeCursor createdAt rowId).toList.all (fun c => c.toNat < 128) = true := by
    rw [encodeCursor, String.toList_ofList, List.all_eq_true]
    intro c hc
    exact decide_eq_true (Base64.unpadded_ascii cursorJson_lt hc)
  rw [parseCursor, if_pos hascii, encodeCursor, String.toList_ofList,
    Base64.urlsafeDecode_unpadded cursorJson_lt]
  simp only [Option.bind_eq_bind, Option.bind_some, Base64.utf8Decode?_utf8, loads_cursorJson]
  rfl

theorem encodeCursor_ne_empty (createdAt : String) (rowId : Nat) :
    encodeCursor createdAt rowId ≠ "" := by
  intro h
  have hnil := congrArg String.toList h
  rw [encodeCursor, String.toList_ofList] at hnil
  refine Base64.unpadded_ne_nil cursorJson_lt ?_ hnil
  simp [Base64.utf8, cursorJson]

/-- A cursor that `listTasks` gave out is accepted, and stands for the key it was encoded from. -/
theorem decodeCursor_encodeCursor (createdAt : String) (rowId : Nat) :
    decodeCursor (some (encodeCursor createdAt rowId)) =
      .ok (some (createdAt.toList.map Char.toNat, (rowId : Int))) := by
  simp only [decodeCursor, if_neg (encodeCursor_ne_empty createdAt rowId),
    parseCursor_encodeCursor]

/-! ## The pages are keyset pages -/

/-- The key a listing is ordered by. -/
def Task.listKey (row : Task) : String ×ₗ Nat := toLex (row.createdAt, row.id)

theorem listKey_lt {a b : Task} : a.listKey < b.listKey ↔
    a.createdAt < b.createdAt ∨ a.createdAt = b.createdAt ∧ a.id < b.id :=
  Prod.Lex.lt_iff

theorem listKey_le {a b : Task} : a.listKey ≤ b.listKey ↔
    a.createdAt < b.createdAt ∨ a.createdAt = b.createdAt ∧ a.id ≤ b.id :=
  Prod.Lex.le_iff

theorem newestFirst_eq (rows : List Task) :
    newestFirst rows = Keyset.descending Task.listKey rows := by
  unfold newestFirst Keyset.descending
  congr 1
  funext a b
  rw [Bool.eq_iff_iff]
  simp [listKey_le]

/-- The cursor that stands for a key. -/
def keyCursor (key : String ×ₗ Nat) : String := encodeCursor (ofLex key).1 (ofLex key).2

/-- The parameters that stand for a key. -/
def keyParams (key : String ×ₗ Nat) : String × Int := ((ofLex key).1, ((ofLex key).2 : Int))

/-- The cursor of a key gives the parameters of the key. -/
theorem cursorParams_keyCursor {key : String ×ₗ Nat} (hid : (ofLex key).2 < 2 ^ 63) :
    (decodeCursor (some (keyCursor key))).bind cursorParams = .ok (some (keyParams key)) := by
  rw [keyCursor, decodeCursor_encodeCursor]
  simp only [Except.bind, cursorParams, codePointsText?_toNat, keyParams]
  rw [if_pos (by omega)]

theorem beforeCursor_eq (bound : Option (String ×ₗ Nat)) (row : Task) :
    beforeCursor (bound.map keyParams) row = bound.all fun key => row.listKey < key := by
  cases bound with
  | none => rfl
  | some key =>
      rw [Bool.eq_iff_iff]
      simp [beforeCursor, keyParams, Task.listKey, Prod.Lex.lt_iff]

theorem found_eq (filters : TaskFilters) (bound : Option (String ×ₗ Nat)) (db : Db) :
    newestFirst (db.tasks.select fun row =>
      filters.keeps row && beforeCursor (bound.map keyParams) row) =
      Keyset.descending Task.listKey
        (Keyset.below Task.listKey bound (db.tasks.select filters.keeps)) := by
  rw [newestFirst_eq, Keyset.below, Table.select, Table.select, List.filter_filter]
  congr 2
  funext row
  rw [beforeCursor_eq, Bool.and_comm]

variable {filters : TaskFilters} {limit : Nat} {world : World}

/-- A page of the listing is a keyset page. -/
theorem listTasks_page (bound : Option (String ×ₗ Nat)) (hbound : ∀ key ∈ bound, (ofLex key).2 < 2 ^ 63)
    (db : Db) :
    (listTasks limit (bound.map keyCursor) filters).resultOf db world =
      .ok ⟨(Keyset.page Task.listKey limit bound (db.tasks.select filters.keeps)).1.map
          taskRowToListItem,
        (Keyset.page Task.listKey limit bound (db.tasks.select filters.keeps)).2.map keyCursor,
        some (db.tasks.select filters.keeps).length⟩ := by
  have hparams : (decodeCursor (bound.map keyCursor)).bind cursorParams =
      .ok (bound.map keyParams) := by
    cases bound with
    | none => rfl
    | some key => exact cursorParams_keyCursor (hbound key rfl)
  unfold listTasks
  cases hkey : decodeCursor (bound.map keyCursor) with
  | error e =>
      rw [hkey] at hparams
      cases hparams
  | ok key =>
      rw [hkey] at hparams
      have hkey' : cursorParams key = .ok (bound.map keyParams) := hparams
      simp only [ofExcept, Prog.ret_bind, hkey', Prog.query_bind, found_eq]
      simp only [Prog.resultOf, Prog.atomic, Prog.exec_select, Prog.pure_eq, Prog.exec_ret,
        Prog.Out.close_ok, Keyset.page]
      split
      · simp [Option.map_map, keyCursor, Task.listKey, Function.comp_def]
      · rfl

/-! ## Following the cursors while rows are inserted -/

/-- The pages of the listing, the `k`-th one read from the `k`-th database. -/
def listing (limit : Nat) (filters : TaskFilters) (dbs : Nat → Db) (world : World) (k : Nat)
    (cursor : Option String) : Except Exc AdminTaskListPage :=
  (listTasks limit cursor filters).resultOf (dbs k) world

/-- A row as it was inserted: what the filters ask for does not change. -/
structure SameListed (filters : TaskFilters) (row row' : Task) : Prop where
  id : row'.id = row.id
  taskId : row'.taskId = row.taskId
  createdAt : row'.createdAt = row.createdAt
  keeps : filters.keeps row' = filters.keeps row

/-- Between two pages rows are inserted and none goes away. -/
structure Inserting (filters : TaskFilters) (dbs : Nat → Db) : Prop where
  /-- Row ids are signed 64-bit numbers. -/
  rowid : ∀ k, ∀ row ∈ (dbs k).tasks.rows, row.id < 2 ^ 63
  kept : ∀ k, ∀ row ∈ (dbs k).tasks.rows,
    ∃ row' ∈ (dbs (k + 1)).tasks.rows, SameListed filters row row'

/-- Finitely many rows are inserted. -/
def FinitelyMany (dbs : Nat → Db) : Prop :=
  ∃ n, ∀ k, n ≤ k → ∀ row ∈ (dbs k).tasks.rows, ∃ row' ∈ (dbs n).tasks.rows, row'.id = row.id

variable {dbs : Nat → Db}

theorem SameListed.listKey {row row' : Task} (h : SameListed filters row row') :
    row'.listKey = row.listKey := by
  rw [Task.listKey, Task.listKey, h.createdAt, h.id]

theorem Inserting.persists (h : Inserting filters dbs) {j k : Nat} (hjk : j ≤ k) {row : Task}
    (hrow : row ∈ (dbs j).tasks.rows) :
    ∃ row' ∈ (dbs k).tasks.rows, SameListed filters row row' := by
  induction hjk with
  | refl => exact ⟨row, hrow, rfl, rfl, rfl, rfl⟩
  | step hjk ih =>
      obtain ⟨row', hrow', hsame⟩ := ih
      obtain ⟨row'', hrow'', hsame'⟩ := h.kept _ row' hrow'
      exact ⟨row'', hrow'', hsame'.id.trans hsame.id, hsame'.taskId.trans hsame.taskId,
        hsame'.createdAt.trans hsame.createdAt, hsame'.keeps.trans hsame.keeps⟩

/-- A task has one key, whenever it is read. -/
theorem Inserting.listKey_eq (h : Inserting filters dbs) {i j : Nat} {a b : Task}
    (ha : a ∈ (dbs i).tasks.rows) (hb : b ∈ (dbs j).tasks.rows) (htask : a.taskId = b.taskId) :
    a.listKey = b.listKey := by
  obtain ⟨a', ha', hsame⟩ := h.persists (Nat.le_max_left i j) ha
  obtain ⟨b', hb', hsame'⟩ := h.persists (Nat.le_max_right i j) hb
  have hkey : Row.key a' = Row.key b' := hsame.taskId.trans (htask.trans hsame'.taskId.symm)
  have hget := Table.get?_of_mem ha'
  rw [hkey, Table.get?_of_mem hb'] at hget
  cases hget
  exact hsame.listKey.symm.trans hsame'.listKey

theorem mem_matching {k : Nat} {row : Task} :
    row ∈ (dbs k).tasks.select filters.keeps ↔
      row ∈ (dbs k).tasks.rows ∧ filters.keeps row = true :=
  List.mem_filter

theorem Inserting.growing (h : Inserting filters dbs) :
    Keyset.Growing Task.listKey fun k => (dbs k).tasks.select filters.keeps where
  nodup := fun k => by
    have hids : ((dbs k).tasks.select filters.keeps).Pairwise fun a b => a.id < b.id :=
      (dbs k).tasks.ordered.sublist List.filter_sublist
    refine List.pairwise_map.mpr (hids.imp fun hlt heq => ?_)
    exact Nat.ne_of_lt hlt (congrArg (fun key => (ofLex key).2) heq)
  kept := fun k row hrow => by
    obtain ⟨hmem, hkeeps⟩ := mem_matching.mp hrow
    obtain ⟨row', hmem', hsame⟩ := h.kept k row hmem
    exact ⟨row', mem_matching.mpr ⟨hmem', hsame.keeps.trans hkeeps⟩, hsame.listKey⟩

theorem keyCursor_truthy (key : String ×ₗ Nat) :
    truthy (some (keyCursor key)) = some (keyCursor key) := by
  simp [truthy, Option.filter, keyCursor, encodeCursor_ne_empty]

/-- Following the cursors is the walk over the keyset pages. -/
theorem requestAllCursorPages_eq_walk (h : Inserting filters dbs) (hlimit : 0 < limit)
    (fuel k : Nat) (bound : Option (String ×ₗ Nat)) (hbound : ∀ key ∈ bound, (ofLex key).2 < 2 ^ 63) :
    requestAllCursorPages (listing limit filters dbs world) fuel k (bound.map keyCursor) =
      (Keyset.walk Task.listKey limit (fun k => (dbs k).tasks.select filters.keeps) fuel k
        bound).map fun rows => .ok (rows.map taskRowToListItem) := by
  induction fuel generalizing k bound with
  | zero => rfl
  | succ fuel ih =>
      have hpage := Keyset.page_spec bound hlimit (h.growing.nodup k)
      rw [requestAllCursorPages, listing, listTasks_page bound hbound, Keyset.walk]
      generalize Keyset.page Task.listKey limit bound ((dbs k).tasks.select filters.keeps) = out
        at hpage ⊢
      obtain ⟨items, next⟩ := out
      obtain ⟨-, hbelow, -, hnext⟩ := hpage
      cases next with
      | none => rfl
      | some key =>
          obtain ⟨⟨last, hlast, rfl⟩, -⟩ := hnext key rfl
          have hrow := (mem_matching.mp (Keyset.mem_below.mp (hbelow last hlast)).1).1
          have hid : ∀ key ∈ some last.listKey, (ofLex key).2 < 2 ^ 63 := by
            rintro key ⟨⟩
            exact h.rowid k last hrow
          have hrest := ih (k + 1) (some last.listKey) hid
          simp only [Option.map_some] at hrest ⊢
          simp only [keyCursor_truthy, Option.isNone_some, Bool.false_eq_true, if_false, hrest,
            Option.map_map]
          congr 1
          funext rows
          simp [Except.map]

/-- Following the cursors returns the rows in strictly descending order of creation time and id, no
task twice, and every matching task that was there at the start.  It ends when finitely many rows
are inserted. -/
theorem requestAllCursorPages_exact (h : Inserting filters dbs) (hlimit : 1 ≤ limit) :
    (∀ fuel result, requestAllCursorPages (listing limit filters dbs world) fuel 0 none =
        some result →
      ∃ rows : List Task, result = .ok (rows.map taskRowToListItem) ∧
        (rows.Pairwise fun a b =>
          b.createdAt < a.createdAt ∨ b.createdAt = a.createdAt ∧ b.id < a.id) ∧
        (rows.map Task.taskId).Nodup ∧
        (∀ row ∈ rows, filters.keeps row = true ∧ ∃ k, row ∈ (dbs k).tasks.rows) ∧
        ∀ row ∈ (dbs 0).tasks.rows, filters.keeps row = true →
          ∃ row' ∈ rows, row'.taskId = row.taskId) ∧
      (FinitelyMany dbs → ∃ fuel items,
        requestAllCursorPages (listing limit filters dbs world) fuel 0 none =
          some (.ok items)) := by
  have hwalk : ∀ fuel, requestAllCursorPages (listing limit filters dbs world) fuel 0 none = _ :=
    fun fuel => requestAllCursorPages_eq_walk h hlimit fuel 0 none nofun
  constructor
  · intro fuel result hresult
    rw [hwalk, Option.map_eq_some_iff] at hresult
    obtain ⟨rows, hrows, rfl⟩ := hresult
    obtain ⟨hsorted, hread, hcomplete⟩ := Keyset.walk_spec h.growing hlimit hrows
    have hmem : ∀ row ∈ rows, filters.keeps row = true ∧ ∃ k, row ∈ (dbs k).tasks.rows := by
      intro row hrow
      obtain ⟨⟨k, -, hk⟩, -⟩ := hread row hrow
      exact ⟨(mem_matching.mp hk).2, k, (mem_matching.mp hk).1⟩
    refine ⟨rows, rfl, hsorted.imp listKey_lt.mp, ?_, hmem, ?_⟩
    · refine List.pairwise_map.mpr (hsorted.imp_of_mem fun {a b} ha hb hlt htask => ?_)
      obtain ⟨-, i, hi⟩ := hmem a ha
      obtain ⟨-, j, hj⟩ := hmem b hb
      exact lt_irrefl _ (h.listKey_eq hi hj htask ▸ hlt)
    · intro row hrow hkeeps
      obtain ⟨row', hrow', hkey⟩ := hcomplete row
        (Keyset.mem_below.mpr ⟨mem_matching.mpr ⟨hrow, hkeeps⟩, nofun⟩)
      obtain ⟨-, k, hk⟩ := hmem row' hrow'
      obtain ⟨row'', hrow'', hsame⟩ := h.persists (Nat.zero_le k) hrow
      have hid : row''.id = row'.id :=
        hsame.id.trans (congrArg (fun key => (ofLex key).2) hkey).symm
      rw [Table.eq_of_id hrow'' hk hid] at hsame
      exact ⟨row', hrow', hsame.taskId⟩
  · rintro ⟨n, hn⟩
    have hkeys : ∀ k, ∀ row ∈ (dbs k).tasks.select filters.keeps,
        row.listKey ∈ (dbs n).tasks.rows.map Task.listKey := by
      intro k row hrow
      obtain ⟨hmem, -⟩ := mem_matching.mp hrow
      rcases Nat.le_total k n with hkn | hnk
      · obtain ⟨row', hrow', hsame⟩ := h.persists hkn hmem
        exact List.mem_map.mpr ⟨row', hrow', hsame.listKey⟩
      · obtain ⟨row', hrow', hid⟩ := hn k hnk row hmem
        obtain ⟨row'', hrow'', hsame⟩ := h.persists hnk hrow'
        rw [Table.eq_of_id hrow'' hmem (hsame.id.trans hid)] at hsame
        exact List.mem_map.mpr ⟨row', hrow', hsame.listKey.symm⟩
    obtain ⟨fuel, rows, hrows⟩ := Keyset.walk_ends h.growing hlimit hkeys 0 none
    exact ⟨fuel, rows.map taskRowToListItem, by rw [hwalk, hrows, Option.map_some]⟩

/-- A task as it is inserted. -/
def insertedTask (taskId createdAt : String) (id : Nat) : Task where
  id := id
  taskId := taskId
  revision := 1
  idempotencyKey := taskId
  nodeId := "n"
  type := .healthCheck
  status := .pending
  payload := .null
  workdir := none
  env := []
  requestedGpuIds := []
  timeoutSec := 300
  killGraceSec := 15
  dangerLevel := "normal"
  createdByAdminId := none
  createdAt := createdAt

/-- Two tasks of one moment, and an older one that is inserted after the first page. -/
def insertedDbs : Nat → Db
  | 0 => { tasks := (Table.empty.insert (insertedTask "a" "2") fun _ => rfl).insert
            (insertedTask "b" "2") fun _ => rfl }
  | _ + 1 => { tasks := ((Table.empty.insert (insertedTask "a" "2") fun _ => rfl).insert
            (insertedTask "b" "2") fun _ => rfl).insert (insertedTask "c" "1") fun _ => rfl }

theorem insertedDbs_zero : (insertedDbs 0).tasks.rows =
    [insertedTask "a" "2" 1, insertedTask "b" "2" 2] := rfl

theorem insertedDbs_succ (k : Nat) : (insertedDbs (k + 1)).tasks.rows =
    [insertedTask "a" "2" 1, insertedTask "b" "2" 2, insertedTask "c" "1" 3] := rfl

/-- The listing of these tasks, one on a page, ends. -/
theorem insertedDbs_listed : Inserting {} insertedDbs ∧ FinitelyMany insertedDbs ∧
    ∃ fuel items, requestAllCursorPages (listing 1 {} insertedDbs {}) fuel 0 none =
      some (.ok items) := by
  have hinserting : Inserting {} insertedDbs := by
    constructor
    · intro k row hrow
      cases k with
      | zero =>
          rw [insertedDbs_zero] at hrow
          rcases hrow with _ | ⟨_, _ | ⟨_, ⟨⟩⟩⟩ <;> decide
      | succ k =>
          rw [insertedDbs_succ] at hrow
          rcases hrow with _ | ⟨_, _ | ⟨_, _ | ⟨_, ⟨⟩⟩⟩⟩ <;> decide
    · intro k row hrow
      refine ⟨row, ?_, rfl, rfl, rfl, rfl⟩
      cases k with
      | zero => exact List.mem_append_left [insertedTask "c" "1" 3] hrow
      | succ k => exact hrow
  have hfinite : FinitelyMany insertedDbs := by
    refine ⟨1, fun k hk row hrow => ⟨row, ?_, rfl⟩⟩
    obtain ⟨k, rfl⟩ := Nat.exists_eq_add_of_le' hk
    exact hrow
  exact ⟨hinserting, hfinite, (requestAllCursorPages_exact hinserting (Nat.le_refl 1)).2 hfinite⟩

end GpuFleet
