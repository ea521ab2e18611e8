import GpuFleet.Foundations.IsoBounds
import GpuFleet.Server.ListTasks
import GpuFleet.Server.Retention
import GpuFleet.Server.StatusHistory

/-!
# Time windows

`list_tasks` and `get_status_history` take the rows between two texts, as texts
compare.  This selects by instant if and only if the text of every row in
question lies between them exactly when its instant lies between theirs
(`windows_select_by_instant_iff`).

The server writes whole seconds of UTC for the creation of a task and for a
heartbeat.  A bound suits all of these if and only if it stands among them where
its instant does (`Iso.SinceFits`, `Iso.UntilFits`), and a window of two bounds
if and only if both do or no time of the server can be in it
(`window_suits_iff`).  A `Z` after whole seconds sorts after the text of its own
second, and so do the milliseconds `.000`.  So the bound that the frontend
computes loses the tasks of its first second exactly if its milliseconds are zero
(`windowSince_fits_iff`).
-/

namespace GpuFleet

open Foundations

/-! ## The status history -/

/-- An item of the history.  The columns with measurements are left out. -/
structure NodeStatusHistoryItem where
  reportedAt : String
  deriving DecidableEq

structure NodeStatusHistoryResponse where
  nodeId : String
  items : List NodeStatusHistoryItem
  deriving DecidableEq

def Snapshot.historyItem (row : Snapshot) : NodeStatusHistoryItem := ⟨row.reportedAt⟩

/-- The conditions of `add_time_filters` on the time of a row. -/
def withinTexts (since till : Option String) (stored : String) : Bool :=
  (truthy since).all (· ≤ stored) && (truthy till).all (stored ≤ ·)

/-- `ORDER BY reported_at DESC, id DESC` -/
def latestFirst (rows : List Snapshot) : List Snapshot :=
  rows.mergeSort fun a b =>
    b.reportedAt < a.reportedAt || (b.reportedAt = a.reportedAt && b.id ≤ a.id)

/-- `get_status_history` -/
def getStatusHistory (nodeId : String) (limit : Nat) (since till : Option String) :
    Tx NodeStatusHistoryResponse := do
  let nodeExists ← Prog.query fun db => (db.nodes.get? nodeId).isSome
  if nodeExists then
    let rows ← Prog.query fun db =>
      (latestFirst (db.snapshots.select fun row =>
        row.nodeId = nodeId && withinTexts since till row.reportedAt)).take limit
    pure ⟨nodeId, rows.reverse.map Snapshot.historyItem⟩
  else .raise (nodeNotFound nodeId)

/-! ## Windows of instants -/

/-- The instant of a bound that is given. -/
def boundOf (bound : Option String) : Option Int := (truthy bound).bind instantOf

/-- The instant of a row lies in the closed interval. -/
def withinInstants (since till : Option String) (stored : String) : Bool :=
  (instantOf stored).any fun t => (boundOf since).all (· ≤ t) && (boundOf till).all (t ≤ ·)

/-- The conditions of the filters other than the times. -/
def TaskFilters.asksFor (filters : TaskFilters) (row : Task) : Bool :=
  (truthy filters.nodeId).all (row.nodeId = ·) &&
  (truthy filters.status).all (row.status.text = ·) &&
  (truthy filters.taskType).all (row.type.text = ·)

/-- The listing has the tasks whose instants lie in the window, up to every limit. -/
def ListsByInstant (filters : TaskFilters) (db : Db) : Prop :=
  ∀ (limit : Nat) (world : World),
    ((listTasks limit none filters).resultOf db world).map AdminTaskListPage.items =
      .ok (((newestFirst (db.tasks.select fun row => filters.asksFor row &&
        withinInstants filters.since filters.«until» row.createdAt)).take limit).map
          taskRowToListItem)

/-- The history of the node has the rows whose instants lie in the window, up to every limit. -/
def HistoryByInstant (nodeId : String) (since till : Option String) (db : Db) : Prop :=
  ∀ (limit : Nat) (world : World),
    (getStatusHistory nodeId limit since till).resultOf db world =
      .ok ⟨nodeId, ((latestFirst (db.snapshots.select fun row => row.nodeId = nodeId &&
        withinInstants since till row.reportedAt)).take limit).reverse.map Snapshot.historyItem⟩

/-! ## Selections -/

section Selections

variable {db : Db} {world : World} {filters : TaskFilters} {limit : Nat} {nodeId : String}
  {since till : Option String}

theorem TaskFilters.keeps_eq (filters : TaskFilters) (row : Task) :
    filters.keeps row = (filters.asksFor row &&
      withinTexts filters.since filters.«until» row.createdAt) := by
  simp [TaskFilters.keeps, TaskFilters.asksFor, withinTexts, Bool.and_assoc]

theorem listTasks_items :
    ((listTasks limit none filters).resultOf db world).map AdminTaskListPage.items =
      .ok (((newestFirst (db.tasks.select fun row => filters.asksFor row &&
        withinTexts filters.since filters.«until» row.createdAt)).take limit).map
          taskRowToListItem) := by
  simp [listTasks, decodeCursor, cursorParams, ofExcept, Prog.resultOf, Prog.atomic, beforeCursor,
    Except.map, TaskFilters.keeps_eq, List.take_take]

theorem getStatusHistory_eq (h : (db.nodes.get? nodeId).isSome = true) :
    (getStatusHistory nodeId limit since till).resultOf db world =
      .ok ⟨nodeId, ((latestFirst (db.snapshots.select fun row => row.nodeId = nodeId &&
        withinTexts since till row.reportedAt)).take limit).reverse.map Snapshot.historyItem⟩ := by
  simp [getStatusHistory, h, Prog.resultOf, Prog.atomic]

/-- Two selections are listed alike up to every limit if and only if they select the same rows, when
an item tells a selected row from the others. -/
theorem listed_eq_iff {α β : Type} {rows : List α} {p q : α → Bool} {f : α → β}
    {arrange : List α → List α} (harrange : ∀ l, (arrange l).Perm l)
    (hitem : ∀ a ∈ rows, ∀ b ∈ rows, f a = f b →
      (p a = true → q b = true → q a = true) ∧ (q a = true → p b = true → p a = true)) :
    (∀ limit, ((arrange (rows.filter p)).take limit).map f =
        ((arrange (rows.filter q)).take limit).map f) ↔
      ∀ a ∈ rows, p a = q a := by
  have hmem : ∀ {r : α → Bool} {a : α}, a ∈ arrange (rows.filter r) ↔ a ∈ rows ∧ r a = true :=
    fun {r a} => (harrange _).mem_iff.trans List.mem_filter
  constructor
  · intro h a ha
    have hall := h ((arrange (rows.filter p)).length + (arrange (rows.filter q)).length)
    rw [List.take_of_length_le (by omega), List.take_of_length_le (by omega)] at hall
    rw [Bool.eq_iff_iff]
    constructor
    · intro hp
      have hthere := List.mem_map_of_mem (f := f) (hmem.mpr ⟨ha, hp⟩)
      rw [hall] at hthere
      obtain ⟨b, hb, heq⟩ := List.mem_map.mp hthere
      exact (hitem a ha b (hmem.mp hb).1 heq.symm).1 hp (hmem.mp hb).2
    · intro hq
      have hthere := List.mem_map_of_mem (f := f) (hmem.mpr ⟨ha, hq⟩)
      rw [← hall] at hthere
      obtain ⟨b, hb, heq⟩ := List.mem_map.mp hthere
      exact (hitem a ha b (hmem.mp hb).1 heq.symm).2 hq (hmem.mp hb).2
  · intro h limit
    rw [List.filter_congr h]

theorem listsByInstant_iff :
    ListsByInstant filters db ↔ ∀ row ∈ db.tasks.rows, filters.asksFor row = true →
      withinTexts filters.since filters.«until» row.createdAt =
        withinInstants filters.since filters.«until» row.createdAt := by
  have hlisted := @listed_eq_iff Task AdminTaskListItem db.tasks.rows
    (fun row => filters.asksFor row && withinTexts filters.since filters.«until» row.createdAt)
    (fun row => filters.asksFor row && withinInstants filters.since filters.«until» row.createdAt)
    taskRowToListItem newestFirst (fun l => List.mergeSort_perm l _) ?_
  · rw [ListsByInstant]
    simp only [listTasks_items, Except.ok.injEq]
    refine (forall_congr' fun limit => forall_const World).trans (hlisted.trans ?_)
    refine forall₂_congr fun row _ => ?_
    cases filters.asksFor row <;> simp
  · intro a ha b hb heq
    have hkey : Row.key a = Row.key b := congrArg AdminTaskListItem.taskId heq
    have hget := Table.get?_of_mem ha
    rw [hkey, Table.get?_of_mem hb] at hget
    obtain rfl := Option.some.inj hget
    exact ⟨fun _ h => h, fun _ h => h⟩

theorem historyByInstant_iff (h : (db.nodes.get? nodeId).isSome = true) :
    HistoryByInstant nodeId since till db ↔ ∀ row ∈ db.snapshots.rows, row.nodeId = nodeId →
      withinTexts since till row.reportedAt = withinInstants since till row.reportedAt := by
  have hlisted := @listed_eq_iff Snapshot NodeStatusHistoryItem db.snapshots.rows
    (fun row => row.nodeId = nodeId && withinTexts since till row.reportedAt)
    (fun row => row.nodeId = nodeId && withinInstants since till row.reportedAt)
    Snapshot.historyItem latestFirst (fun l => List.mergeSort_perm l _) ?_
  · rw [HistoryByInstant]
    simp only [getStatusHistory_eq h, Except.ok.injEq, NodeStatusHistoryResponse.mk.injEq, true_and,
      List.map_reverse, List.reverse_inj]
    refine (forall_congr' fun limit => forall_const World).trans (hlisted.trans ?_)
    refine forall₂_congr fun row _ => ?_
    by_cases hnode : row.nodeId = nodeId <;> simp [hnode]
  · intro a _ b _ heq
    have htime : a.reportedAt = b.reportedAt := congrArg NodeStatusHistoryItem.reportedAt heq
    simp only [Bool.and_eq_true, decide_eq_true_eq, htime]
    exact ⟨fun ha hb => ⟨ha.1, hb.2⟩, fun ha hb => ⟨ha.1, hb.2⟩⟩

end Selections

/-! ## Bounds among the server's times -/

section Bounds

variable {bound : String} {instant : Int}

theorem truthy_of_instantOf (h : instantOf bound = some instant) :
    truthy (some bound) = some bound := by
  have hnone : instantOf "" = none := by decide
  have hne : bound ≠ "" := by
    rintro rfl
    rw [hnone] at h
    cases h
  simp [truthy, hne]

/-- What holds of all times of the server holds of all whole seconds. -/
theorem forall_utcNowIso {p : String → Prop} :
    (∀ now < Iso.maxMicros, p (utcNowIso now)) ↔ ∀ second < Iso.maxSeconds, p (Iso.isoformat second) := by
  constructor
  · intro h second hsecond
    have hnow := h (second * 1000000) (by unfold Iso.maxMicros; omega)
    rwa [utcNowIso, Nat.mul_div_cancel _ (by decide)] at hnow
  · exact fun h now hnow => h _ (Iso.seconds_lt hnow)

/-- A lower bound suits all times of the server if and only if it fits. -/
theorem since_suits_iff (h : instantOf bound = some instant) :
    (∀ now < Iso.maxMicros, withinTexts (some bound) none (utcNowIso now) =
        withinInstants (some bound) none (utcNowIso now)) ↔
      Iso.SinceFits bound instant := by
  rw [@forall_utcNowIso fun stored =>
    withinTexts (some bound) none stored = withinInstants (some bound) none stored,
    ← Iso.since_agrees_iff]
  refine forall₂_congr fun second hsecond => ?_
  simp only [withinTexts, withinInstants, boundOf, truthy_of_instantOf h, instantOf_isoformat hsecond,
    Option.bind_some, h]
  rw [Bool.eq_iff_iff]
  simp [truthy]

/-- An upper bound suits all times of the server if and only if it fits. -/
theorem until_suits_iff (h : instantOf bound = some instant) :
    (∀ now < Iso.maxMicros, withinTexts none (some bound) (utcNowIso now) =
        withinInstants none (some bound) (utcNowIso now)) ↔
      Iso.UntilFits bound instant := by
  rw [@forall_utcNowIso fun stored =>
    withinTexts none (some bound) stored = withinInstants none (some bound) stored,
    ← Iso.until_agrees_iff]
  refine forall₂_congr fun second hsecond => ?_
  simp only [withinTexts, withinInstants, boundOf, truthy_of_instantOf h, instantOf_isoformat hsecond,
    Option.bind_some, h]
  rw [Bool.eq_iff_iff]
  simp [truthy]

/-- A lower end of whole seconds, as texts or as instants. -/
theorem monotone_lower (since : Option String) :
    (Monotone fun second : Set.Iio Iso.maxSeconds =>
      (truthy since).all (· ≤ Iso.isoformat second) = true) ∧
    Monotone fun second : Set.Iio Iso.maxSeconds =>
      (boundOf since).all (· ≤ (second.1 : Int) * 1000000) = true := by
  constructor
  · intro a b hab ha
    simp only [Option.all_eq_true, decide_eq_true_eq] at ha ⊢
    exact fun bound hbound => (ha bound hbound).trans (Iso.isoformat_le hab b.2)
  · intro a b hab ha
    have hle : a.1 ≤ b.1 := hab
    simp only [Option.all_eq_true, decide_eq_true_eq] at ha ⊢
    exact fun instant hinstant => (ha instant hinstant).trans (by omega)

/-- An upper end of whole seconds, as texts or as instants. -/
theorem antitone_upper (till : Option String) :
    (Antitone fun second : Set.Iio Iso.maxSeconds =>
      (truthy till).all (Iso.isoformat second ≤ ·) = true) ∧
    Antitone fun second : Set.Iio Iso.maxSeconds =>
      (boundOf till).all ((second.1 : Int) * 1000000 ≤ ·) = true := by
  constructor
  · intro a b hab hb
    simp only [Option.all_eq_true, decide_eq_true_eq] at hb ⊢
    exact fun bound hbound => (Iso.isoformat_le hab b.2).trans (hb bound hbound)
  · intro a b hab hb
    have hle : a.1 ≤ b.1 := hab
    simp only [Option.all_eq_true, decide_eq_true_eq] at hb ⊢
    exact fun instant hinstant => le_trans (by omega) (hb instant hinstant)

/-- Every bound that is given can be read. -/
def ReadableBounds (since till : Option String) : Prop :=
  ∀ bound, truthy since = some bound ∨ truthy till = some bound → (instantOf bound).isSome = true

/-- Every bound that is given stands among the times of the server where its instant stands. -/
structure WindowFits (since till : Option String) : Prop where
  since : ∀ bound, truthy since = some bound → ∀ instant, instantOf bound = some instant →
    Iso.SinceFits bound instant
  till : ∀ bound, truthy till = some bound → ∀ instant, instantOf bound = some instant →
    Iso.UntilFits bound instant

/-- No time of the server is in the window, neither as a text nor as an instant. -/
def EmptyWindow (since till : Option String) : Prop :=
  ∀ now < Iso.maxMicros, withinTexts since till (utcNowIso now) = false ∧
    withinInstants since till (utcNowIso now) = false

theorem lower_agrees_iff {since : Option String}
    (h : ∀ bound, truthy since = some bound → (instantOf bound).isSome = true) :
    (∀ second : Set.Iio Iso.maxSeconds, (truthy since).all (· ≤ Iso.isoformat second) = true ↔
        (boundOf since).all (· ≤ (second.1 : Int) * 1000000) = true) ↔
      ∀ bound, truthy since = some bound → ∀ instant, instantOf bound = some instant →
        Iso.SinceFits bound instant := by
  rcases hsince : truthy since with _ | bound
  · simp [boundOf, hsince]
  · obtain ⟨instant, hinstant⟩ := Option.isSome_iff_exists.mp (h bound hsince)
    simp [boundOf, hsince, hinstant, ← Iso.since_agrees_iff]

theorem upper_agrees_iff {till : Option String}
    (h : ∀ bound, truthy till = some bound → (instantOf bound).isSome = true) :
    (∀ second : Set.Iio Iso.maxSeconds, (truthy till).all (Iso.isoformat second ≤ ·) = true ↔
        (boundOf till).all ((second.1 : Int) * 1000000 ≤ ·) = true) ↔
      ∀ bound, truthy till = some bound → ∀ instant, instantOf bound = some instant →
        Iso.UntilFits bound instant := by
  rcases htill : truthy till with _ | bound
  · simp [boundOf, htill]
  · obtain ⟨instant, hinstant⟩ := Option.isSome_iff_exists.mp (h bound htill)
    simp [boundOf, htill, hinstant, ← Iso.until_agrees_iff]

/-- A window suits all times of the server if and only if its bounds fit or none of these times can
be in it. -/
theorem window_suits_iff {since till : Option String} (h : ReadableBounds since till) :
    (∀ now < Iso.maxMicros, withinTexts since till (utcNowIso now) =
        withinInstants since till (utcNowIso now)) ↔
      WindowFits since till ∨ EmptyWindow since till := by
  have hagree := Iso.windows_agree_iff (monotone_lower since).1 (monotone_lower since).2
    (antitone_upper till).1 (antitone_upper till).2
  rw [lower_agrees_iff fun bound hbound => h bound (Or.inl hbound),
    upper_agrees_iff fun bound hbound => h bound (Or.inr hbound)] at hagree
  rw [@forall_utcNowIso fun stored => withinTexts since till stored = withinInstants since till stored,
    EmptyWindow, @forall_utcNowIso fun stored => withinTexts since till stored = false ∧
      withinInstants since till stored = false]
  have hwithin : ∀ second < Iso.maxSeconds,
      withinInstants since till (Iso.isoformat second) =
        ((boundOf since).all (· ≤ (second : Int) * 1000000) &&
          (boundOf till).all ((second : Int) * 1000000 ≤ ·)) := by
    intro second hsecond
    simp [withinInstants, instantOf_isoformat hsecond]
  calc
    _ ↔ ∀ second : Set.Iio Iso.maxSeconds, _ := by
      rw [Subtype.forall]
      refine forall₂_congr fun second hsecond => ?_
      rw [hwithin second hsecond, withinTexts, Bool.eq_iff_iff, Bool.and_eq_true, Bool.and_eq_true]
    _ ↔ _ := hagree
    _ ↔ _ := by
      rw [Subtype.forall]
      refine or_congr ⟨fun h => ⟨h.1, h.2⟩, fun h => ⟨h.1, h.2⟩⟩
        (forall₂_congr fun second hsecond => ?_)
      rw [hwithin second hsecond, withinTexts, ← Bool.not_eq_true, ← Bool.not_eq_true,
        Bool.and_eq_true, Bool.and_eq_true]

/-- A task that was created at this time. -/
def taskCreatedAt (createdAt : String) : Db where
  tasks := Table.empty.insert (fun id =>
    { id
      taskId := "t"
      revision := 1
      idempotencyKey := "k"
      nodeId := "n"
      type := .shell
      status := .pending
      payload := .obj []
      workdir := none
      env := []
      requestedGpuIds := []
      timeoutSec := 3600
      killGraceSec := 15
      dangerLevel := "normal"
      createdByAdminId := none
      createdAt }) fun _ => rfl

theorem mem_taskCreatedAt {createdAt : String} {row : Task}
    (h : row ∈ (taskCreatedAt createdAt).tasks.rows) : row.createdAt = createdAt := by
  obtain rfl := List.mem_singleton.mp h
  rfl

theorem exists_taskCreatedAt (createdAt : String) :
    ∃ row ∈ (taskCreatedAt createdAt).tasks.rows, row.createdAt = createdAt :=
  ⟨_, List.mem_singleton.mpr rfl, rfl⟩

/-- The server wrote the creation times of all tasks. -/
def CreatedByServer (db : Db) : Prop :=
  ∀ row ∈ db.tasks.rows, ∃ now < Iso.maxMicros, row.createdAt = utcNowIso now

/-- A window selects by instant in every table of the server if and only if it suits its times. -/
theorem listings_iff {since till : Option String} :
    (∀ (filters : TaskFilters) (db : Db), filters.since = since → filters.«until» = till →
        CreatedByServer db → ListsByInstant filters db) ↔
      ∀ now < Iso.maxMicros, withinTexts since till (utcNowIso now) =
        withinInstants since till (utcNowIso now) := by
  constructor
  · intro h now hnow
    have hlists := h { since, «until» := till } (taskCreatedAt (utcNowIso now)) rfl rfl
      fun row hrow => ⟨now, hnow, mem_taskCreatedAt hrow⟩
    obtain ⟨row, hrow, hcreated⟩ := exists_taskCreatedAt (utcNowIso now)
    have hthis := listsByInstant_iff.mp hlists row hrow (by simp [TaskFilters.asksFor, truthy])
    rwa [hcreated] at hthis
  · rintro h filters db rfl rfl hserver
    refine listsByInstant_iff.mpr fun row hrow _ => ?_
    obtain ⟨now, hnow, hcreated⟩ := hserver row hrow
    rw [hcreated]
    exact h now hnow

end Bounds

/-- The listing of the tasks and the history of a node select by instant if and only if the texts
of the rows in question lie between the texts of the bounds exactly when their instants lie between
theirs.  A bound does this for all times of the server if and only if it fits, and a window selects
by instant in all tables of the server if and only if its bounds fit or it is empty. -/
theorem windows_select_by_instant_iff (filters : TaskFilters) (db : Db) (nodeId : String)
    (since till : Option String) :
    (ListsByInstant filters db ↔
      ∀ row ∈ db.tasks.rows, filters.asksFor row = true →
        withinTexts filters.since filters.«until» row.createdAt =
          withinInstants filters.since filters.«until» row.createdAt) ∧
    ((db.nodes.get? nodeId).isSome = true →
      (HistoryByInstant nodeId since till db ↔
        ∀ row ∈ db.snapshots.rows, row.nodeId = nodeId →
          withinTexts since till row.reportedAt = withinInstants since till row.reportedAt)) ∧
    (∀ bound instant, instantOf bound = some instant →
      ((∀ now < Iso.maxMicros, withinTexts (some bound) none (utcNowIso now) =
        withinInstants (some bound) none (utcNowIso now)) ↔ Iso.SinceFits bound instant) ∧
      ((∀ now < Iso.maxMicros, withinTexts none (some bound) (utcNowIso now) =
        withinInstants none (some bound) (utcNowIso now)) ↔ Iso.UntilFits bound instant)) ∧
    (ReadableBounds since till →
      ((∀ (filters : TaskFilters) (db : Db), filters.since = since → filters.«until» = till →
          CreatedByServer db → ListsByInstant filters db) ↔
        WindowFits since till ∨ EmptyWindow since till)) :=
  ⟨listsByInstant_iff, historyByInstant_iff,
    fun _ _ h => ⟨since_suits_iff h, until_suits_iff h⟩,
    fun h => listings_iff.trans (window_suits_iff h)⟩

/-! ## The windows of the frontend -/

/-- `TimeWindow` -/
inductive TimeWindow where
  | always
  | hour
  | day
  | week
  | month
  deriving DecidableEq

/-- The length of a window in milliseconds. -/
def TimeWindow.millis : TimeWindow → Nat
  | always => 0
  | hour => 3600000
  | day => 86400000
  | week => 7 * 86400000
  | month => 30 * 86400000

/-- `windowSince`, at a reading of the clock in milliseconds. -/
def windowSince (w : TimeWindow) (now : Nat) : Option String :=
  if w = .always then none else some (Iso.toISOString (now - w.millis))

theorem instantOf_toISOString {millis : Nat} (h : millis < Iso.maxSeconds * 1000) :
    instantOf (Iso.toISOString millis) = some ((millis * 1000 : Nat) : Int) := by
  rw [instantOf, Iso.fromisoformat_toISOString h]
  simp [momentOf]

/-- The bound of a window suits all times of the server if and only if the clock shows milliseconds
other than zero. -/
theorem windowSince_fits_iff {w : TimeWindow} {now : Nat} (hw : w ≠ .always)
    (hpast : w.millis ≤ now) (h : now < Iso.maxSeconds * 1000) :
    (∀ stored < Iso.maxMicros, withinTexts (windowSince w now) none (utcNowIso stored) =
        withinInstants (windowSince w now) none (utcNowIso stored)) ↔ now % 1000 ≠ 0 := by
  have hlt : now - w.millis < Iso.maxSeconds * 1000 := by omega
  have hmod : (now - w.millis) % 1000 = now % 1000 := by
    cases w with
    | always => exact absurd rfl hw
    | hour | day | week | month =>
        simp only [TimeWindow.millis] at hpast ⊢
        omega
  rw [windowSince, if_neg hw, since_suits_iff (instantOf_toISOString hlt),
    Iso.sinceFits_toISOString hlt, hmod]

/-- A window from a quarter of a second to midnight selects by instant in all tables of the
server. -/
theorem windows_select_by_instant_quarter :
    ReadableBounds (some "2026-01-01T00:00:00.250Z") (some "2026-01-02T00:00:00.000Z") ∧
      ∀ (filters : TaskFilters) (db : Db), filters.since = some "2026-01-01T00:00:00.250Z" →
        filters.«until» = some "2026-01-02T00:00:00.000Z" → CreatedByServer db →
          ListsByInstant filters db := by
  have hsince : instantOf "2026-01-01T00:00:00.250Z" = some 63902822400250000 := by decide
  have htill : instantOf "2026-01-02T00:00:00.000Z" = some 63902908800000000 := by decide
  have hread : ReadableBounds (some "2026-01-01T00:00:00.250Z")
      (some "2026-01-02T00:00:00.000Z") := by
    rintro bound (hbound | hbound) <;> obtain rfl := Option.some.inj hbound
    · exact Option.isSome_of_eq_some hsince
    · exact Option.isSome_of_eq_some htill
  refine ⟨hread, ((windows_select_by_instant_iff {} {} "n" _ _).2.2.2 hread).mpr (Or.inl ⟨?_, ?_⟩)⟩
  · intro bound hbound instant hinstant
    obtain rfl := Option.some.inj hbound
    obtain rfl := Option.some.inj (hsince.symm.trans hinstant)
    exact (@Iso.sinceFits_toISOString 63902822400250 (by decide)).mpr (by decide)
  · intro bound hbound instant hinstant
    obtain rfl := Option.some.inj hbound
    obtain rfl := Option.some.inj (htill.symm.trans hinstant)
    exact @Iso.untilFits_toISOString 63902908800000 (by decide)

/-- A task created at the very moment of the bound is missing. -/
theorem midnight_task_lost :
    ¬ ∀ (filters : TaskFilters) (db : Db),
      (∀ bound, bound ∈ filters.since ∨ bound ∈ filters.«until» → (instantOf bound).isSome = true) →
      CreatedByServer db → ListsByInstant filters db := by
  intro h
  have hthis := listsByInstant_iff.mp
    (h { since := some "2026-01-01T00:00:00.000Z" } (taskCreatedAt "2026-01-01T00:00:00+00:00")
      ?_ ?_)
  · exact absurd (hthis _ (List.mem_singleton.mpr rfl) rfl) (by decide)
  · rintro bound (hbound | hbound)
    · obtain rfl := Option.some.inj hbound
      decide
    · cases hbound
  · exact fun row hrow => ⟨63902822400000000, by decide, mem_taskCreatedAt hrow⟩

end GpuFleet
