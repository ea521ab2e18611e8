import GpuFleet.Server.LogRows
import GpuFleet.Server.Outcomes

/-!
# What a pass may delete

The passes compare the time at which a task finished with the cutoff as texts.
The server writes times that compare as their moments do, but a result may
bring any text.  A text deletes nothing early, whatever the clock says, if and
only if it does not sort before the time of its own moment, as the server would
write it (`inOrder_iff`).

In a run in which all results bring such texts, and the ids of the tasks are
clear, the passes delete the logs and artifacts of tasks only that are over and
finished before the cutoff (`retention_never_early`).
-/

namespace GpuFleet

open Foundations

/-! ## Texts and moments -/

/-- The moment that a text denotes, if any. -/
def instantOf (raw : String) : Option Int := (Iso.fromisoformat raw).map momentOf

/-- A text, accepted at a clock reading, does not sort before the time of its moment: the time it
denotes, or else the one at which it was accepted. -/
def InOrder (raw : String) (accepted : Nat) : Prop :=
  let instant := (instantOf raw).getD accepted
  0 ≤ instant →
    ¬ raw < Iso.isoformat (min (instant.toNat / 1000000) (Iso.maxSeconds - 1))

instance (raw : String) (accepted : Nat) : Decidable (InOrder raw accepted) :=
  inferInstanceAs (Decidable (0 ≤ (instantOf raw).getD accepted → ¬ _))

theorem instantOf_isoformat {sec : Nat} (h : sec < Iso.maxSeconds) :
    instantOf (Iso.isoformat sec) = some (sec * 1000000 : Int) := by
  rw [instantOf, Iso.fromisoformat_isoformat h]
  simp [momentOf]

theorem instantOf_utcNowIso {now : Nat} (h : now < Iso.maxMicros) :
    instantOf (utcNowIso now) = some (wholeSecond now : Int) :=
  instantOf_isoformat (Iso.seconds_lt h)

/-- The texts in order are those that sort before a time of the server only when their moment lies
before it. -/
theorem inOrder_iff {raw : String} {accepted : Nat} :
    InOrder raw accepted ↔ ∀ sec < Iso.maxSeconds, raw < Iso.isoformat sec →
      (instantOf raw).getD accepted < (sec * 1000000 : Nat) := by
  have hmax : 0 < Iso.maxSeconds := by decide
  simp only [InOrder]
  generalize (instantOf raw).getD (accepted : Int) = instant
  constructor
  · intro h sec hsec hbefore
    by_cases hneg : instant < 0
    · omega
    · have hnot := h (by omega)
      by_contra hlate
      refine hnot (lt_of_lt_of_le hbefore ?_)
      rw [← not_lt, Iso.isoformat_lt_iff (by omega) hsec]
      omega
  · intro h hnonneg hbefore
    have := h _ (by omega) hbefore
    omega

/-! ## Finished tasks -/

/-- The moment at which a task finished: what its text denotes, or else the time at which its
result was accepted. -/
def Task.finishInstant (row : Task) : Option Int :=
  row.finishedAt.bind instantOf <|> row.resultLockedAt.bind instantOf

/-- Whenever the text of the row sorts before a time of the server, the task finished before it. -/
def Task.FinishInOrder (row : Task) : Prop :=
  ∀ raw, row.finishedAt = some raw → ∀ sec < Iso.maxSeconds, raw < Iso.isoformat sec →
    ∃ instant, row.finishInstant = some instant ∧ instant < (sec * 1000000 : Nat)

/-- The texts of all tasks sort as their moments do. -/
def FinishesInOrder (db : Db) : Prop := ∀ row ∈ db.tasks.rows, row.FinishInOrder

/-- A row that has not finished, or whose text the server wrote. -/
theorem Task.FinishInOrder.of_server {row : Task} {now : Nat} (hnow : now < Iso.maxMicros)
    (hrow : row.finishedAt = some (utcNowIso now)) : row.FinishInOrder := by
  intro raw hraw sec hsec hbefore
  rw [hrow] at hraw
  obtain rfl := Option.some.inj hraw
  rw [finishInstant, hrow, Option.bind_some, instantOf_utcNowIso hnow]
  rw [utcNowIso, Iso.isoformat_lt_iff (Iso.seconds_lt hnow) hsec] at hbefore
  refine ⟨wholeSecond now, rfl, ?_⟩
  unfold wholeSecond
  omega

/-- A row whose text came with a result that was accepted at a clock reading. -/
theorem Task.FinishInOrder.of_result {row : Task} {raw : String} {now : Nat}
    (hnow : now < Iso.maxMicros) (hfinished : row.finishedAt = some raw)
    (hlocked : row.resultLockedAt = some (utcNowIso now)) (hraw : InOrder raw now) :
    row.FinishInOrder := by
  intro raw' hraw' sec hsec hbefore
  obtain rfl := Option.some.inj (hfinished.symm.trans hraw')
  have hinstant := inOrder_iff.mp hraw sec hsec hbefore
  rw [finishInstant, hfinished, hlocked, Option.bind_some, Option.bind_some,
    instantOf_utcNowIso hnow]
  cases hdenoted : instantOf raw with
  | some instant =>
      rw [hdenoted] at hinstant
      exact ⟨instant, rfl, hinstant⟩
  | none =>
      rw [hdenoted] at hinstant
      refine ⟨_, rfl, lt_of_le_of_lt ?_ hinstant⟩
      exact Int.ofNat_le.mpr (wholeSecond_le now)

/-- A row with the times of another. -/
theorem Task.FinishInOrder.congr {row row' : Task} (h : row.FinishInOrder)
    (hfinished : row'.finishedAt = row.finishedAt)
    (hlocked : row'.resultLockedAt = row.resultLockedAt) : row'.FinishInOrder := by
  rw [FinishInOrder, finishInstant, hfinished, hlocked]
  exact h

/-! ## Statements -/

section Statements

variable {op : SystemOp} {start db : Db}

/-- A statement of an operation keeps the texts in order, unless it stores a result whose text is
not. -/
theorem FinishesInOrder.apply {q : Dml} (hnow : op.now < Iso.maxMicros)
    (hq : Permitted op start q db) (h : FinishesInOrder db)
    (hresult : ∀ nodeId payload now, op = .result nodeId payload now →
      InOrder (orElse payload.finishedAt (utcNowIso now)) now) :
    FinishesInOrder (Statement.apply q db) := by
  cases q with
  | task t =>
      obtain ⟨hq, hdb⟩ := hq
      intro row hrow
      rcases TaskStmt.mem_apply_cases hrow with ⟨old, hold, rfl⟩ | ⟨old, hold, hsel, rfl⟩ | ⟨new, rfl, rfl⟩
      · exact h row hold
      · have hkeep := h old hold
        cases t with
        | insert new => exact hkeep
        | setEvent taskId status startedAt finishedAt =>
            obtain ⟨row, e, hrow, -, -, -, hfinished | hfinished⟩ := hq
            · have htasks : db.tasks = start.tasks := hdb.resolve_right nofun
              rw [htasks] at hold
              have hid : old.taskId = taskId := of_decide_eq_true hsel
              obtain rfl := Table.eq_of_get? hrow hold hid
              exact hkeep.congr hfinished rfl
            · exact .of_server hnow hfinished
        | setCancelled taskId finishedAt => exact .of_server hnow (congrArg some hq)
        | setCancelRequested taskId finishedAt =>
            refine .of_server hnow ?_
            show (finishedAt <|> old.finishedAt) = _
            rw [hq.2]
            rfl
        | setBackground taskId status finishedAt => exact .of_server hnow (congrArg some hq.2)
        | setResult taskId status startedAt finishedAt nowIso =>
            obtain ⟨nodeId, payload, now, rfl, -, hfinished, hiso⟩ := hq
            refine .of_result hnow (congrArg some hfinished) (congrArg some hiso) ?_
            rw [hiso]
            exact hresult nodeId payload now rfl
        | _ => exact hkeep.congr rfl rfl
      · obtain ⟨payload, ctx, taskId, key, -, -, -, -, rfl⟩ := hq
        intro raw hraw
        cases hraw
  | _ => exact h

end Statements

/-! ## Runs -/

/-- The clock reading of an operation. -/
def StorageOp.now : StorageOp → Nat
  | request (.logChunk _ _ now) => now
  | request (.artifact _ _ _ now) => now
  | system op => op.now
  | pruneLogs now => now
  | pruneArtifacts now => now
  | deleteNode _ _ _ now => now

/-- The server accepts a result of the node for the task. -/
def acceptsResult (db : Db) (nodeId taskId : String) : Bool :=
  (db.nodes.get? nodeId).any Node.isEnabled &&
    (db.tasks.get? taskId).any fun row =>
      row.nodeId = nodeId && row.status.isActive && row.resultLockedAt.isNone

/-- The text of a result that is accepted is in order. -/
def StoreStep.BringsInOrder (t : StoreStep) : Prop :=
  match t.op with
  | .system (.result nodeId payload now) => acceptsResult t.before.db nodeId payload.taskId = true →
      InOrder (orElse payload.finishedAt (utcNowIso now)) now
  | _ => True

instance : (t : StoreStep) → Decidable t.BringsInOrder
  | ⟨before, .system (.result nodeId payload now), _, _⟩ =>
      inferInstanceAs (Decidable (acceptsResult before.db nodeId payload.taskId = true →
        InOrder (orElse payload.finishedAt (utcNowIso now)) now))
  | ⟨_, .system (.createNode ..), _, _⟩ | ⟨_, .system (.updateNode ..), _, _⟩
  | ⟨_, .system (.setNodeEnabled ..), _, _⟩ | ⟨_, .system (.resetSecret ..), _, _⟩
  | ⟨_, .system (.regenerateOnboarding ..), _, _⟩ | ⟨_, .system (.createTask ..), _, _⟩
  | ⟨_, .system (.cancel ..), _, _⟩ | ⟨_, .system (.escalate ..), _, _⟩
  | ⟨_, .system (.approve ..), _, _⟩ | ⟨_, .system (.reject ..), _, _⟩
  | ⟨_, .system (.heartbeat ..), _, _⟩ | ⟨_, .system (.event ..), _, _⟩
  | ⟨_, .system (.markLost ..), _, _⟩ | ⟨_, .system (.expireReviews ..), _, _⟩
  | ⟨_, .request _, _, _⟩ | ⟨_, .pruneLogs _, _, _⟩ | ⟨_, .pruneArtifacts _, _, _⟩
  | ⟨_, .deleteNode .., _, _⟩ => isTrue trivial

/-- The task is over, and it finished before the moment. -/
def FinishedBefore (db : Db) (moment : Nat) (taskId : String) : Prop :=
  ∃ row instant, db.tasks.get? taskId = some row ∧ row.status.isTerminal = true ∧
    row.finishInstant = some instant ∧ instant < moment

/-- The step deletes rows and files only of tasks that meet a condition. -/
structure StoreStep.DeletesOnly (t : StoreStep) (P : String → Prop) : Prop where
  logs : ∀ row ∈ t.before.db.logs.rows, row ∉ t.after.db.logs.rows → P row.taskId
  artifacts : ∀ row ∈ t.before.db.artifacts.rows, row ∉ t.after.db.artifacts.rows → P row.taskId
  files : ∀ f : StoredFile, t.after.world.files.read f ≠ t.before.world.files.read f → P f.taskId

/-- A pass deletes nothing of a task that finished at its cutoff or later, be it a row, a file or
what lies at the path of a file. -/
def StoreStep.NeverEarly (site : Site) (ids : List String) (t : StoreStep) : Prop :=
  let only := fun days now =>
    let early := FinishedBefore t.before.db (wholeSecond (cutoffMoment days now))
    t.DeletesOnly early ∧ t.LeavesOnDisk site.root ids fun taskId => ¬ early taskId
  match t.op with
  | .pruneLogs now => only site.settings.taskLogRetentionDays now
  | .pruneArtifacts now => only site.settings.artifactRetentionDays now
  | _ => True

section Runs

variable {site : Site} {s : Store}

/-- A task that a pass takes for expired did finish before its cutoff. -/
theorem FinishesInOrder.finishedBefore {db : Db} (h : FinishesInOrder db) {days now : Nat}
    (hnow : now < Iso.maxMicros) {cutoff : String} (hcutoff : retentionCutoff days now = .ok cutoff)
    {taskId : String} (hexpired : expiredIn db cutoff taskId = true) :
    FinishedBefore db (wholeSecond (cutoffMoment days now)) taskId := by
  have hmoment : cutoffMoment days now < Iso.maxMicros := lt_of_le_of_lt (Nat.sub_le ..) hnow
  obtain rfl : utcNowIso (cutoffMoment days now) = cutoff := by
    rw [retentionCutoff] at hcutoff
    split at hcutoff <;> cases hcutoff
    rfl
  cases hrow : db.tasks.get? taskId with
  | none =>
      rw [expiredIn, hrow] at hexpired
      cases hexpired
  | some row =>
      rw [expiredIn, hrow, Option.any_some, Task.expired, Bool.and_eq_true] at hexpired
      obtain ⟨hterm, hbefore⟩ := hexpired
      cases hraw : row.finishedAt with
      | none =>
          rw [hraw] at hbefore
          cases hbefore
      | some raw =>
          rw [hraw, Option.any_some, decide_eq_true_eq] at hbefore
          obtain ⟨instant, hinstant, hlt⟩ := h row (Table.get?_mem hrow) raw hraw _
            (Iso.seconds_lt hmoment) hbefore
          exact ⟨row, instant, hrow, hterm, hinstant, hlt⟩

theorem StoreStep.DeletesOnly.of_same {t : StoreStep} {P : String → Prop}
    (h : t.after = t.before) : t.DeletesOnly P := by
  constructor <;> rw [h]
  · exact fun row hrow hgone => absurd hrow hgone
  · exact fun row hrow hgone => absurd hrow hgone
  · exact fun f hf => absurd rfl hf

theorem StoreStep.DeletesOnly.imp {t : StoreStep} {P P' : String → Prop} (h : t.DeletesOnly P)
    (hP : ∀ taskId, P taskId → P' taskId) : t.DeletesOnly P' where
  logs row hrow hgone := hP _ (h.logs row hrow hgone)
  artifacts row hrow hgone := hP _ (h.artifacts row hrow hgone)
  files f hf := hP _ (h.files f hf)

/-- Rows that a deletion takes away meet its condition. -/
theorem mem_deleted {α : Type} [Row α] {t : Table α} {p : α → Bool} {row : α} (hrow : row ∈ t.rows)
    (hgone : row ∉ (t.delete p).rows) : p row = true := by
  by_contra hkept
  exact hgone (List.mem_filter.mpr ⟨hrow, by simpa using hkept⟩)

/-- The pass over the logs deletes only what is expired. -/
theorem pruneLogs_deletesOnly (hown : OwnPaths s.db) (now : Nat) :
    ((StorageOp.pruneLogs now).step site s).DeletesOnly fun taskId =>
      ∃ cutoff, retentionCutoff site.settings.taskLogRetentionDays now = .ok cutoff ∧
        expiredIn s.db cutoff taskId = true := by
  rcases StorageOp.pruneLogs_cases site now s with hsame | ⟨cutoff, hcutoff, hrun⟩
  · exact .of_same hsame
  · have hrun : ((StorageOp.pruneLogs now).step site s).after = _ := hrun
    constructor <;> rw [hrun]
    · exact fun row hrow hgone => ⟨cutoff, hcutoff,
        mem_deleted (p := fun row : TaskLog => expiredIn s.db cutoff row.taskId) hrow hgone⟩
    · exact fun row hrow hgone => absurd hrow hgone
    · intro f hf
      cases f with
      | log f =>
          have hpruned : f ∈ prunedFiles site.root s.db cutoff := by
            by_contra hkept
            refine hf (congrArg (Option.map Content.text) ?_)
            exact (log?_eraseLogs ..).trans (if_neg hkept)
          obtain ⟨row, hrow, hclean⟩ := List.mem_filterMap.mp hpruned
          obtain ⟨hmem, hexpired⟩ := List.mem_filter.mp hrow
          have hget : s.db.logs.get? (row.taskId, row.stream) = some row := Table.get?_of_mem hmem
          have hlive := hown.log row.taskId row.stream f (by
            rw [hget]
            exact (Option.filter_eq_some_iff.mp hclean).1)
          exact ⟨cutoff, hcutoff, hlive ▸ hexpired⟩
      | artifact f => exact absurd rfl hf

/-- The pass over the artifacts deletes only what is expired. -/
theorem pruneArtifacts_deletesOnly (hown : OwnPaths s.db) (now : Nat) :
    ((StorageOp.pruneArtifacts now).step site s).DeletesOnly fun taskId =>
      ∃ cutoff, retentionCutoff site.settings.artifactRetentionDays now = .ok cutoff ∧
        expiredIn s.db cutoff taskId = true := by
  rcases StorageOp.pruneArtifacts_cases site now s with
    hsame | ⟨cutoff, artifacts, hcutoff, hrun, hothers, -⟩
  · exact .of_same hsame
  · have hrun : ((StorageOp.pruneArtifacts now).step site s).after = _ := hrun
    constructor <;> rw [hrun]
    · exact fun row hrow hgone => absurd hrow hgone
    · exact fun row hrow hgone => ⟨cutoff, hcutoff,
        mem_deleted (p := fun row : Artifact => expiredIn s.db cutoff row.taskId) hrow hgone⟩
    · intro f hf
      cases f with
      | log f => exact absurd rfl hf
      | artifact f =>
          by_contra hnone
          refine hf (congrArg (Option.map Content.bytes) (hothers f fun row hrow hexpired heq => ?_))
          refine hnone ⟨cutoff, hcutoff, ?_⟩
          rw [StoredFile.taskId, ← heq, hown.artifact row hrow]
          exact hexpired

/-- In order before, the passes delete nothing early. -/
theorem FinishesInOrder.neverEarly (h : FinishesInOrder s.db) {ids : List String}
    (hclear : ClearIds ids) (hhoused : Housed ids s) (hown : OwnPaths s.db) (op : StorageOp)
    (hnow : op.now < Iso.maxMicros) (hid : ∀ id, op.createdId = some id → id ∈ ids) :
    (op.step site s).NeverEarly site ids := by
  have hnext : Housed ids (op.run site s).2 := hhoused.step op hid
  have hdisk : ∀ {P : String → Prop}, (op.step site s).DeletesOnly P →
      (op.step site s).LeavesOnDisk site.root ids fun taskId => ¬ P taskId := fun hdeletes =>
    StoreStep.leavesOnDisk hclear hhoused hnext fun f hf =>
      by_contra fun hchanged => hf (hdeletes.files f hchanged)
  cases op with
  | pruneLogs now =>
      have hdeletes : ((StorageOp.pruneLogs now).step site s).DeletesOnly _ :=
        (pruneLogs_deletesOnly hown now).imp fun taskId ⟨cutoff, hcutoff, hexpired⟩ =>
          h.finishedBefore hnow hcutoff hexpired
      exact ⟨hdeletes, hdisk hdeletes⟩
  | pruneArtifacts now =>
      have hdeletes : ((StorageOp.pruneArtifacts now).step site s).DeletesOnly _ :=
        (pruneArtifacts_deletesOnly hown now).imp fun taskId ⟨cutoff, hcutoff, hexpired⟩ =>
          h.finishedBefore hnow hcutoff hexpired
      exact ⟨hdeletes, hdisk hdeletes⟩
  | _ => trivial

/-- Requests of nodes leave the tasks. -/
theorem StorageRequest.tasks (r : StorageRequest) :
    ((StorageOp.request r).run site s).2.db.tasks = s.db.tasks := by
  refine r.run_keeps (I := fun s' => s'.db.tasks = s.db.tasks) rfl
    (fun nodeId payload now => ?_) fun nodeId payload now => ?_
  · rcases taskLogChunk_frame site.settings site.gzipSize nodeId payload now s.db s.world with
      ⟨hdb, -⟩ | ⟨-, -, hdb | ⟨q, hdb, -⟩⟩ <;> exact (congrArg Db.tasks hdb).trans rfl
  · rcases artifactUpload_outcome site.settings nodeId payload now s.db s.world with
      ⟨-, hdb, -⟩ | ⟨content, ack, existing, -, -, -, -, hdb, -⟩ <;>
        exact (congrArg Db.tasks hdb).trans rfl

/-- A result that is not accepted changes nothing. -/
theorem result_cases (settings : Settings) (crypto : Crypto) (x : World) (db : Db)
    (nodeId : String) (payload : NodeTaskResultRequest) (now : Nat) :
    ((SystemOp.result nodeId payload now).code settings crypto).dbAfter db x = db ∨
      acceptsResult db nodeId payload.taskId = true := by
  cases hnode : (db.nodes.get? nodeId).filter Node.isEnabled with
  | none =>
      refine Or.inl ?_
      simp only [SystemOp.code, asNode, Prog.dbAfter, Prog.atomic, Prog.query_bind,
        Prog.exec_select, hnode]
      rfl
  | some node =>
      obtain ⟨hnode, henabled⟩ := Option.filter_eq_some_iff.mp hnode
      have hruns : ((SystemOp.result nodeId payload now).step settings crypto db x).Runs settings
          crypto x := SystemOp.step_runs _ _ _
      refine (hruns.resultDone rfl).imp id ?_
      rintro ⟨row, _, _, _, _, hrow, hid, hactive, hlocked, -⟩
      have hrow : db.tasks.get? payload.taskId = some row := hrow
      simp [acceptsResult, hnode, henabled, hrow, hid, hactive, hlocked]

/-- An operation keeps the texts in order, unless it stores a result whose text is not. -/
theorem FinishesInOrder.step (h : FinishesInOrder s.db) (op : StorageOp)
    (hnow : op.now < Iso.maxMicros) (hbrings : (op.step site s).BringsInOrder) :
    FinishesInOrder (op.run site s).2.db := by
  cases op with
  | request r =>
      rw [FinishesInOrder, r.tasks]
      exact h
  | system op =>
      have hruns : (op.step site.settings site.crypto s.db s.world).Runs site.settings site.crypto
          s.world := op.step_runs s.db s.world
      have hkeeps : (∀ nodeId payload now, op = .result nodeId payload now →
          InOrder (orElse payload.finishedAt (utcNowIso now)) now) →
          FinishesInOrder (op.step site.settings site.crypto s.db s.world).after := fun hresult =>
        hruns.keeps (fun q w hq hw => hw.apply hnow hq hresult) h
      cases op with
      | result nodeId payload now =>
          rcases result_cases site.settings site.crypto s.world s.db nodeId payload now with
            hsame | haccepts
          · show FinishesInOrder (Prog.dbAfter _ _ _)
            rw [hsame]
            exact h
          · refine hkeeps fun nodeId' payload' now' heq => ?_
            obtain ⟨rfl, rfl, rfl⟩ := SystemOp.result.inj heq
            exact hbrings haccepts
      | _ => exact hkeeps fun _ _ _ heq => by cases heq
  | pruneLogs now =>
      rcases StorageOp.pruneLogs_cases site now s with hrun | ⟨cutoff, -, hrun⟩ <;>
        rw [hrun] <;> exact h
  | pruneArtifacts now =>
      rcases StorageOp.pruneArtifacts_cases site now s with hrun | ⟨cutoff, artifacts, -, hrun, -⟩ <;>
        rw [hrun] <;> exact h
  | deleteNode nodeId requestIp admin now =>
      have hafter := deleteNode_after now s.db s.world nodeId requestIp admin
      simp only [StorageOp.run] at hafter ⊢
      rcases hafter with ⟨-, hsame⟩ | ⟨-, -, htasks, -⟩
      · rw [hsame]
        exact h
      · rw [FinishesInOrder, htasks]
        exact fun row hrow => h row (List.mem_of_mem_filter hrow)

/-- In a run in which every accepted result brings a text in order and the ids of the tasks are
clear, the passes delete logs and artifacts only of tasks that are over and finished before the
cutoff. -/
theorem retention_never_early (site : Site) (ops : List StorageOp)
    (hclock : ∀ op ∈ ops, op.now < Iso.maxMicros) (hclear : ClearIds (createdIds ops))
    (hbrings : ∀ t ∈ storeSteps site {} ops, t.BringsInOrder) :
    ∀ t ∈ storeSteps site {} ops, t.NeverEarly site (createdIds ops) := by
  suffices hrun : ∀ (later : List StorageOp) (s : Store), (∀ op ∈ later, op ∈ ops) →
      FinishesInOrder s.db → Housed (createdIds ops) s → OwnPaths s.db →
      (∀ t ∈ storeSteps site s later, t.BringsInOrder) →
      ∀ t ∈ storeSteps site s later, t.NeverEarly site (createdIds ops) from
    hrun ops {} (fun _ => id) (fun row hrow => by cases hrow) .empty .empty hbrings
  intro later
  induction later with
  | nil => exact fun _ _ _ _ _ _ t ht => by cases ht
  | cons op later ih =>
      intro s hops hfinishes hhoused hown hbrings
      obtain ⟨hop, hops⟩ := List.forall_mem_cons.mp hops
      have hid : ∀ id, op.createdId = some id → id ∈ createdIds ops := fun id hid =>
        List.mem_filterMap.mpr ⟨op, hop, hid⟩
      simp only [storeSteps, List.forall_mem_cons] at hbrings ⊢
      exact ⟨hfinishes.neverEarly hclear hhoused hown op (hclock op hop) hid,
        ih _ hops (hfinishes.step op (hclock op hop) hbrings.1) (hhoused.step op hid)
          (hown.step op) hbrings.2⟩

/-- A task logs two bytes and ends, with a text for the time at which it finished, and then its
logs are pruned. -/
def finishedAs (finishedAt : String) (pruned : Nat) : List StorageOp :=
  let admin : Admin := ⟨1, "admin"⟩
  let start := 63902822400000000
  [.system (.createNode { nodeId := "n", displayName := "n" } ⟨"secret", "", ""⟩ admin start),
    .system (.createTask { nodeId := "n", type := .healthCheck, taskId := some "t" }
      { admin, review := none, freshTaskId := "", freshKey := "", now := start
        reviewedAt := start }),
    .system (.heartbeat "n" { bootId := "b" } start),
    .request (.logChunk "n" firstChunk start),
    .system (.result "n" { taskId := "t", finalStatus := .succeeded, finishedAt := some finishedAt }
      start),
    .pruneLogs pruned]

theorem retention_never_early_zulu :
    (storeSteps (smallSite 4) {} (finishedAs "2026-01-01T00:00:00Z" 63934358400000000)) ≠ [] ∧
      ∀ t ∈ storeSteps (smallSite 4) {} (finishedAs "2026-01-01T00:00:00Z" 63934358400000000),
        t.NeverEarly (smallSite 4) ["t"] := by
  refine ⟨by decide +kernel, ?_⟩
  exact retention_never_early (smallSite 4) (finishedAs "2026-01-01T00:00:00Z" 63934358400000000)
    (by decide) (by decide) (by decide +kernel)

/-- The step prunes logs at the clock reading and deletes those of the task, whose finish moment
is the clock reading. -/
def StoreStep.prunesAt (t : StoreStep) (now : Nat) : Bool :=
  match t.op with
  | .pruneLogs pruned =>
      pruned = now && t.before.db.logs.rows.any (fun row => row.taskId = "t") &&
        t.after.db.logs.rows.all (fun row => row.taskId ≠ "t") &&
        (t.before.db.tasks.get? "t").all fun row => row.finishInstant = some (now : Int)
  | _ => false

/-- A task finishes at the time "0", and its logs are pruned in the same second. -/
theorem retention_early :
    ¬ ∀ (site : Site) (ops : List StorageOp), (∀ op ∈ ops, op.now < Iso.maxMicros) →
      ∀ t ∈ storeSteps site {} ops, t.NeverEarly site (createdIds ops) := by
  intro h
  have hrun : (storeSteps (smallSite 4) {} (finishedAs "0" 63902822400000000)).any
      (fun t => t.prunesAt 63902822400000000) = true := by
    decide +kernel
  obtain ⟨t, ht, hprunes⟩ := List.any_eq_true.mp hrun
  have hnever := h (smallSite 4) (finishedAs "0" 63902822400000000) (by decide) t ht
  obtain ⟨before, op, reply, after⟩ := t
  cases op with
  | pruneLogs now =>
      simp only [StoreStep.prunesAt, Bool.and_eq_true, decide_eq_true_eq, List.any_eq_true,
        List.all_eq_true] at hprunes
      obtain ⟨⟨⟨rfl, row, hrow, htask⟩, hgone⟩, hinstant⟩ := hprunes
      obtain ⟨task, instant, htask', -, hfinished, hbefore⟩ := hnever.1.logs row hrow fun hkept =>
        hgone row hkept htask
      rw [htask] at htask'
      rw [htask', Option.all_some, decide_eq_true_eq, hfinished] at hinstant
      obtain rfl := Option.some.inj hinstant
      revert hbefore
      decide
  | _ => cases hprunes

end Runs

end GpuFleet
