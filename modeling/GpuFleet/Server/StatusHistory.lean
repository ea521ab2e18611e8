import GpuFleet.Server.NodeRuntime

/-!
# The status history

A heartbeat stores a base row at the server's time and a row for each sample at
the sample's own time.  `SnapshotStmt.rows_insertMany` lists the table after an
insertion; `freshSamples` keeps each sample of a payload once.
-/

namespace GpuFleet

open Foundations

/-- The row is a sample of the node. -/
def Snapshot.isSampleOf (nodeId : String) (row : Snapshot) : Bool :=
  row.nodeId = nodeId && !row.hasMetadata

/-- The row is a base row of the node. -/
def Snapshot.isBaseOf (nodeId : String) (row : Snapshot) : Bool :=
  row.nodeId = nodeId && row.hasMetadata

/-- The samples of a node in the status history. -/
def sampleTimes (nodeId : String) (db : Db) : List String :=
  (db.snapshots.select (Snapshot.isSampleOf nodeId)).map Snapshot.reportedAt

theorem Snapshot.isSampleOf_iff {nodeId : String} {row : Snapshot} :
    row.isSampleOf nodeId = true ↔ row.nodeId = nodeId ∧ row.hasMetadata = false := by
  simp [Snapshot.isSampleOf]

theorem Snapshot.isBaseOf_iff {nodeId : String} {row : Snapshot} :
    row.isBaseOf nodeId = true ↔ row.nodeId = nodeId ∧ row.hasMetadata = true := by
  simp [Snapshot.isBaseOf]

theorem Snapshot.before_iff {a b : Snapshot} :
    a.before b = true ↔ b.reportedAt < a.reportedAt ∨ a.reportedAt = b.reportedAt ∧ b.id < a.id := by
  simp only [Snapshot.before, Bool.or_eq_true, Bool.and_eq_true, decide_eq_true_eq, gt_iff_lt]

/-! ## The samples of a payload -/

theorem freshSamples_sublist (seen l : List String) : (freshSamples seen l).Sublist l := by
  induction l generalizing seen with
  | nil => exact List.Sublist.refl _
  | cons ts l ih =>
      rw [freshSamples]
      split
      · exact (ih seen).cons ts
      · exact (ih (ts :: seen)).cons_cons ts

theorem not_mem_freshSamples {seen l : List String} {ts : String} (h : ts ∈ seen) :
    ts ∉ freshSamples seen l := by
  induction l generalizing seen with
  | nil => simp [freshSamples]
  | cons t l ih =>
      rw [freshSamples]
      split
      · exact ih h
      · rename_i hnew
        rw [List.mem_cons]
        rintro (rfl | hmem)
        · exact hnew h
        · exact ih (List.mem_cons_of_mem _ h) hmem

/-- No sample of a payload is stored twice. -/
theorem freshSamples_nodup (seen l : List String) : (freshSamples seen l).Nodup := by
  induction l generalizing seen with
  | nil => exact List.nodup_nil
  | cons ts l ih =>
      rw [freshSamples]
      split
      · exact ih seen
      · exact List.nodup_cons.mpr ⟨not_mem_freshSamples (List.mem_cons_self ..), ih _⟩

theorem mem_buildSnapshotRows {nodeId nowIso : String} {payload : HeartbeatRequest} {row : Snapshot}
    (h : row ∈ buildSnapshotRows nodeId nowIso payload) :
    row.nodeId = nodeId ∧ (row.hasMetadata = true → row.reportedAt = nowIso) := by
  rcases List.mem_cons.mp h with rfl | h
  · exact ⟨rfl, fun _ => rfl⟩
  · obtain ⟨ts, -, rfl⟩ := List.mem_map.mp h
    exact ⟨rfl, nofun⟩

/-! ## Insertions -/

/-- Rows with the ids that an insertion gives them. -/
def numbered (first : Nat) : List Snapshot → List Snapshot
  | [] => []
  | row :: rows => { row with id := first } :: numbered (first + 1) rows

theorem mem_numbered {first : Nat} {rows : List Snapshot} {row : Snapshot}
    (h : row ∈ numbered first rows) : first ≤ row.id ∧ ∃ r ∈ rows, row = { r with id := row.id } := by
  induction rows generalizing first with
  | nil => cases h
  | cons r rows ih =>
      rcases List.mem_cons.mp h with rfl | h
      · exact ⟨Nat.le_refl _, r, List.mem_cons_self .., rfl⟩
      · obtain ⟨hle, r', hr', heq⟩ := ih h
        exact ⟨Nat.le_of_succ_le hle, r', List.mem_cons_of_mem _ hr', heq⟩

/-- What does not read the ids is the same of both lists. -/
theorem filter_map_numbered {α : Type} {p : Snapshot → Bool} {f : Snapshot → α}
    (hp : ∀ (row : Snapshot) id, p { row with id } = p row)
    (hf : ∀ (row : Snapshot) id, f { row with id } = f row) (first : Nat) (rows : List Snapshot) :
    ((numbered first rows).filter p).map f = (rows.filter p).map f := by
  induction rows generalizing first with
  | nil => rfl
  | cons row rows ih =>
      rw [numbered, List.filter_cons, List.filter_cons, hp]
      split
      · rw [List.map_cons, List.map_cons, hf, ih]
      · exact ih _

theorem countP_numbered {p : Snapshot → Bool} (hp : ∀ (row : Snapshot) id, p { row with id } = p row)
    (first : Nat) (rows : List Snapshot) : (numbered first rows).countP p = rows.countP p := by
  have := congrArg List.length (filter_map_numbered hp (f := fun _ => ()) (fun _ _ => rfl) first rows)
  rwa [List.length_map, List.length_map, ← List.countP_eq_length_filter,
    ← List.countP_eq_length_filter] at this

/-- Every row is appended. -/
theorem SnapshotStmt.rows_insertMany (rows : List Snapshot) (t : Table Snapshot) :
    ((SnapshotStmt.insertMany rows).apply t).rows = t.rows ++ numbered (t.seq + 1) rows := by
  induction rows generalizing t with
  | nil => exact (List.append_nil _).symm
  | cons row rows ih =>
      have hnew : t.conflicts (fun id => { row with id }) = false := by
        rw [Table.conflicts, List.any_eq_false]
        intro old hold hid
        have hle : old.id ≤ t.seq := t.bounded old hold
        have heq : old.id = t.seq + 1 := of_decide_eq_true hid
        omega
      have hrows : (t.insert (fun id => { row with id }) fun _ => rfl).rows =
          t.rows ++ [{ row with id := t.seq + 1 }] := Table.insert_rows hnew
      have hseq : (t.insert (fun id => { row with id }) fun _ => rfl).seq = t.seq + 1 := by
        rw [Table.insert, dif_neg (by simp [hnew])]
      refine (ih (t.insert (fun id => { row with id }) fun _ => rfl)).trans ?_
      rw [hrows, hseq, numbered, List.append_assoc, List.singleton_append]

/-- The rows of the node that stay are those with fewer than `keep` rows before them. -/
theorem SnapshotStmt.mem_trim {nodeId : String} {keep : Nat} {t : Table Snapshot} {row : Snapshot} :
    row ∈ ((SnapshotStmt.trim nodeId keep).apply t).rows ↔ row ∈ t.rows ∧ (row.nodeId = nodeId →
      (t.select fun other => other.nodeId = nodeId && other.before row).length < keep) := by
  show row ∈ List.filter _ t.rows ↔ _
  rw [List.mem_filter]
  refine and_congr_right fun _ => ?_
  simp only [Bool.not_eq_true', Bool.and_eq_false_iff, decide_eq_false_iff_not, Nat.not_le]
  rw [← imp_iff_not_or]

end GpuFleet
