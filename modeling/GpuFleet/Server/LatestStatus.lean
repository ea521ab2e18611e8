import GpuFleet.Server.Permitted
import GpuFleet.Server.StatusHistory

/-!
# The latest status of a node

`get_latest_status` returns the latest base row of a node.  The query leaves the
samples out; the trimming of the history does not.  It keeps the latest rows of
either kind, and a sample carries the time the node says.  So samples that lie
after the server's clock can push the base row out that the same heartbeat has
just stored (`latest_status_lost`).

In a run of accepted heartbeats `get_latest_status` returns the base row of the
last heartbeat at every moment if and only if at every heartbeat fewer samples
than are kept lie after the server's clock (`latest_status_iff`).
-/

namespace GpuFleet

open Foundations

/-! ## Runs of heartbeats -/

/-- The operation is a heartbeat of the node. -/
def SystemOp.beats (nodeId : String) : SystemOp → Bool
  | heartbeat n _ _ => n = nodeId
  | _ => false

/-- The base row that a heartbeat of the node records. -/
def Step.base (nodeId : String) (s : Step) : Option Snapshot :=
  if s.op.beats nodeId then
    some
      { id := s.before.snapshots.seq + 1
        nodeId
        reportedAt := utcNowIso s.op.now
        hasMetadata := true }
  else none

theorem Step.base_eq_some {nodeId : String} {s : Step} {b : Snapshot} (h : s.base nodeId = some b) :
    s.op.beats nodeId = true ∧
      b = ⟨s.before.snapshots.seq + 1, nodeId, utcNowIso s.op.now, true⟩ := by
  rw [Step.base] at h
  split at h
  · rename_i hbeat
    exact ⟨hbeat, (Option.some.inj h).symm⟩
  · cases h

theorem Step.beats_of_base_none {nodeId : String} {s : Step} (h : s.base nodeId = none) :
    s.op.beats nodeId = false := by
  rw [Step.base] at h
  split at h
  · cases h
  · rename_i hbeat
    exact Bool.eq_false_iff.mpr hbeat

/-- The base row of the last heartbeat. -/
def lastBase (nodeId : String) (past : List Step) : Option Snapshot :=
  (past.filterMap (Step.base nodeId)).getLast?

/-- The heartbeats of the node are accepted, at clock readings that do not decrease. -/
structure Paced (nodeId : String) (l : List Step) : Prop where
  accepted : ∀ s ∈ l, s.op.beats nodeId = true → s.reply.isOk = true
  clock : ∀ s ∈ l, s.op.beats nodeId = true → s.op.now < Iso.maxMicros
  nondecreasing : (l.filter fun s => s.op.beats nodeId).Pairwise fun s t => s.op.now ≤ t.op.now

/-- At a heartbeat of the node, fewer samples than are kept lie after the server's clock. -/
def Step.Room (keep : Nat) (nodeId : String) (s : Step) : Prop :=
  match s.op with
  | .heartbeat n payload now => n = nodeId →
      (sampleTimes nodeId s.before ++ freshSamples [utcNowIso now] payload.samples).countP
        (fun ts => utcNowIso now < ts) < keep
  | _ => True

theorem Step.room_of_not_beats {keep : Nat} {nodeId : String} {s : Step}
    (h : s.op.beats nodeId = false) : s.Room keep nodeId := by
  rw [Step.Room]
  split
  · rename_i n payload now hop
    rw [hop] at h
    exact fun hn => absurd hn (of_decide_eq_false h)
  · trivial

/-! ## The effect of a step -/

section Effect

variable {settings : Settings} {crypto : Crypto} {nodeId : String} {s : Step} {x : World}

/-- Only a heartbeat of the node changes its rows. -/
theorem Step.Runs.status_iff (h : s.Runs settings crypto x) (hop : s.op.beats nodeId = false)
    {row : Snapshot} (hrow : row.nodeId = nodeId) :
    row ∈ s.after.snapshots.rows ↔ row ∈ s.before.snapshots.rows := by
  refine h.keeps (I := fun db => row ∈ db.snapshots.rows ↔ row ∈ s.before.snapshots.rows)
    (fun q w hq hw => ?_) Iff.rfl
  cases q with
  | snapshot q =>
      refine Iff.trans ?_ hw
      cases q with
      | insertMany rows =>
          obtain ⟨n, payload, now, hs, rfl⟩ := hq
          show row ∈ ((SnapshotStmt.insertMany _).apply w.snapshots).rows ↔ _
          rw [SnapshotStmt.rows_insertMany, List.mem_append, or_iff_left]
          intro hmem
          obtain ⟨-, r, hr, heq⟩ := mem_numbered hmem
          rw [heq] at hrow
          have hn : n = nodeId := (mem_buildSnapshotRows hr).1.symm.trans hrow
          simp [hs, SystemOp.beats, hn] at hop
      | trim n keep =>
          obtain ⟨payload, now, hs⟩ := hq
          have hn : n ≠ nodeId := by simpa [hs, SystemOp.beats] using hop
          show row ∈ (List.filter _ w.snapshots.rows) ↔ _
          simp [List.mem_filter, hrow, Ne.symm hn]
  | _ => exact hw

theorem syncReportedActiveTask_status {activeTaskId : Option String} {claimedAt : String} {db : Db} :
    (syncReportedActiveTask nodeId activeTaskId claimedAt).wp (fun _ _ => True) (fun _ _ => True)
      (fun _ w => w.snapshots = db.snapshots) db := by
  unfold syncReportedActiveTask
  split
  · exact rfl
  · split
    · exact rfl
    · rw [Prog.wp_bind, Prog.wp_query]
      cases (db.tasks.get? _).filter _ with
      | none => exact rfl
      | some row =>
          simp only
          split
          · exact ⟨trivial, rfl⟩
          · exact rfl

/-- A heartbeat stores its rows and trims the history. -/
theorem heartbeat_status (keep : Nat) (node : Node) (payload : HeartbeatRequest) (now : Nat)
    (db : Db) :
    (heartbeat keep nodeId node payload now).wp (fun _ _ => True) (fun _ _ => True)
      (fun _ w => w.snapshots = (SnapshotStmt.trim nodeId keep).apply
        ((SnapshotStmt.insertMany (buildSnapshotRows nodeId (utcNowIso now) payload)).apply
          db.snapshots)) db := by
  simp only [heartbeat, Prog.execute_bind, Prog.wp_write]
  refine ⟨trivial, trivial, trivial, ?_⟩
  rw [Prog.wp_bind]
  refine Prog.wp_imp syncReportedActiveTask_status fun r w hw => ?_
  have htrim : (SnapshotStmt.trim nodeId keep).apply w.snapshots = (SnapshotStmt.trim nodeId keep).apply
      ((SnapshotStmt.insertMany (buildSnapshotRows nodeId (utcNowIso now) payload)).apply
        db.snapshots) := congrArg _ hw
  cases r with
  | some row => exact ⟨trivial, fun _ => htrim⟩
  | none => exact ⟨trivial, trivial, fun _ => htrim⟩

theorem Step.Runs.status_beat (h : s.Runs settings crypto x) {payload : HeartbeatRequest} {now : Nat}
    (hop : s.op = .heartbeat nodeId payload now) (hok : s.reply.isOk = true) :
    s.after.snapshots = (SnapshotStmt.trim nodeId settings.maxStatusHistoryPerNode).apply
      ((SnapshotStmt.insertMany (buildSnapshotRows nodeId (utcNowIso now) payload)).apply
        s.before.snapshots) := by
  have hcode : (s.op.code settings crypto).wp (fun _ _ => True) (fun _ _ => True)
      (fun _ w => w.snapshots = (SnapshotStmt.trim nodeId settings.maxStatusHistoryPerNode).apply
        ((SnapshotStmt.insertMany (buildSnapshotRows nodeId (utcNowIso now) payload)).apply
          s.before.snapshots)) s.before := by
    rw [hop]
    refine asNode_wp (fun _ => trivial) fun _ node => ?_
    rw [Prog.wp_bind]
    exact heartbeat_status _ node payload now s.before
  cases hr : s.reply with
  | error e => rw [hr] at hok; cases hok
  | ok reply =>
      rw [h.reply] at hr
      rw [h.after]
      exact Prog.wp.ok x hcode hr

end Effect

/-! ## The trimming -/

section Trimming

variable {nodeId : String} {payload : HeartbeatRequest} {now : Nat} {db : Db}

/-- The rows that come before the base row of a heartbeat are the samples after the server's
clock. -/
theorem length_before_base (hbases : ∀ row ∈ db.snapshots.rows, row.isBaseOf nodeId = true →
      ¬ utcNowIso now < row.reportedAt) {b : Snapshot} (hb : b.reportedAt = utcNowIso now)
    (hid : b.id = db.snapshots.seq + 1) :
    (((SnapshotStmt.insertMany (buildSnapshotRows nodeId (utcNowIso now) payload)).apply
        db.snapshots).select fun other => other.nodeId = nodeId && other.before b).length =
      (sampleTimes nodeId db ++ freshSamples [utcNowIso now] payload.samples).countP
        fun ts => utcNowIso now < ts := by
  have hold : db.snapshots.rows.countP (fun other => other.nodeId = nodeId && other.before b) =
      (sampleTimes nodeId db).countP fun ts => utcNowIso now < ts := by
    rw [sampleTimes, Table.select, List.countP_map, List.countP_filter]
    refine List.countP_congr fun row hrow => ?_
    have hlt : row.id < b.id := by
      rw [hid]
      exact Nat.lt_succ_of_le (db.snapshots.bounded row hrow)
    simp only [Bool.and_eq_true, decide_eq_true_eq, Snapshot.before_iff, Snapshot.isSampleOf_iff,
      Function.comp_apply, hb]
    constructor
    · rintro ⟨hn, hlater | ⟨-, hid⟩⟩
      · refine ⟨hlater, hn, Bool.eq_false_iff.mpr fun hmeta => ?_⟩
        exact hbases row hrow (Snapshot.isBaseOf_iff.mpr ⟨hn, hmeta⟩) hlater
      · exact absurd hid (Nat.not_lt_of_gt hlt)
    · rintro ⟨hlater, hn, -⟩
      exact ⟨hn, Or.inl hlater⟩
  have hnew : (numbered (db.snapshots.seq + 2) ((freshSamples [utcNowIso now] payload.samples).map
      fun ts => { id := 0, nodeId, reportedAt := ts, hasMetadata := false })).countP
        (fun other => other.nodeId = nodeId && other.before b) =
      (freshSamples [utcNowIso now] payload.samples).countP fun ts => utcNowIso now < ts := by
    calc
      _ = (numbered (db.snapshots.seq + 2) _).countP fun other => utcNowIso now < other.reportedAt := by
        refine List.countP_congr fun row hrow => ?_
        obtain ⟨-, r, hr, heq⟩ := mem_numbered hrow
        obtain ⟨ts, hts, rfl⟩ := List.mem_map.mp hr
        have hn : row.nodeId = nodeId := congrArg Snapshot.nodeId heq
        have hne : row.reportedAt ≠ utcNowIso now := by
          intro hnow
          rw [heq] at hnow
          exact not_mem_freshSamples (List.mem_singleton.mpr hnow) hts
        simp only [Bool.and_eq_true, decide_eq_true_eq, Snapshot.before_iff, hb, hn, hne, false_and,
          or_false, true_and]
      _ = _ := by
        rw [countP_numbered fun _ _ => rfl, List.countP_map]
        rfl
  rw [Table.select, ← List.countP_eq_length_filter, SnapshotStmt.rows_insertMany, List.countP_append,
    List.countP_append, hold, buildSnapshotRows, numbered, List.countP_cons_of_neg, hnew]
  simp only [Bool.and_eq_true, Snapshot.before_iff, hb, hid]
  exact fun h => h.2.elim (lt_irrefl _) fun h => Nat.lt_irrefl _ h.2

end Trimming

/-! ## Runs -/

section Runs

variable {settings : Settings} {crypto : Crypto} {nodeId : String} {past : List Step} {s : Step}
  {x : World} {db : Db} {b : Snapshot}

theorem utcNowIso_le {m n : Nat} (h : m ≤ n) (hn : n < Iso.maxMicros) :
    ¬ utcNowIso n < utcNowIso m := by
  rw [utcNowIso, utcNowIso, Iso.isoformat_lt_iff (Iso.seconds_lt hn)
    (Iso.seconds_lt (Nat.lt_of_le_of_lt h hn))]
  exact Nat.not_lt_of_le (Nat.div_le_div_right h)

theorem Paced.sublist {l l' : List Step} (h : Paced nodeId l') (hsub : l.Sublist l') :
    Paced nodeId l where
  accepted t ht := h.accepted t (hsub.subset ht)
  clock t ht := h.clock t (hsub.subset ht)
  nondecreasing := h.nondecreasing.sublist (hsub.filter _)

theorem Paced.le (h : Paced nodeId (past ++ [s])) {t : Step} (ht : t ∈ past)
    (hbeat : t.op.beats nodeId = true) (hs : s.op.beats nodeId = true) : t.op.now ≤ s.op.now := by
  have hordered := h.nondecreasing
  rw [List.filter_append, List.pairwise_append] at hordered
  exact hordered.2.2 t (List.mem_filter.mpr ⟨ht, hbeat⟩) s
    (List.mem_filter.mpr ⟨List.mem_singleton_self s, hs⟩)

/-- The row is there, and comes before all other base rows of the node. -/
def LatestBase (nodeId : String) (db : Db) (b : Snapshot) : Prop :=
  b ∈ db.snapshots.rows ∧ b.isBaseOf nodeId = true ∧
    ∀ row ∈ db.snapshots.rows, row.isBaseOf nodeId = true → row ≠ b → b.before row = true

/-- What a run keeps: base rows carry the times of past heartbeats, and the last one is the
latest. -/
structure BasesKept (keep : Nat) (nodeId : String) (past : List Step) (db : Db) : Prop where
  recorded : ∀ row ∈ db.snapshots.rows, row.isBaseOf nodeId = true →
    ∃ s ∈ past, s.op.beats nodeId = true ∧ row.reportedAt = utcNowIso s.op.now
  latest : (∀ s ∈ past, s.Room keep nodeId) → ∀ b ∈ lastBase nodeId past, LatestBase nodeId db b

/-- `get_latest_status` returns a row if and only if it is the first in the order of its query. -/
theorem getLatestStatus_ok_iff :
    (getLatestStatus nodeId).resultOf db x = .ok b ↔
      firstBy Snapshot.before (db.snapshots.select (Snapshot.isBaseOf nodeId)) = some b := by
  rw [getLatestStatus, Prog.query_bind]
  show Prog.resultOf (Prog.select _) db x = .ok b ↔
    firstBy Snapshot.before (db.snapshots.select fun row => row.nodeId = nodeId && row.hasMetadata) = _
  simp only [Prog.resultOf, Prog.atomic, Prog.exec_select]
  cases firstBy Snapshot.before
    (db.snapshots.select fun row => row.nodeId = nodeId && row.hasMetadata) <;> simp

theorem LatestBase.returned (h : LatestBase nodeId db b) (x : World) :
    (getLatestStatus nodeId).resultOf db x = .ok b := by
  obtain ⟨hmem, hbase, hfirst⟩ := h
  refine getLatestStatus_ok_iff.mpr (firstBy_eq_some (List.mem_filter.mpr ⟨hmem, hbase⟩) ?_)
  intro row hrow hne
  obtain ⟨hrow, hrowbase⟩ := List.mem_filter.mp hrow
  have hbefore := hfirst row hrow hrowbase hne
  refine ⟨hbefore, Bool.eq_false_iff.mpr fun hafter => ?_⟩
  rw [Snapshot.before_iff] at hbefore hafter
  rcases hbefore with hlt | ⟨heq, hid⟩ <;> rcases hafter with hlt' | ⟨heq', hid'⟩
  · exact lt_asymm hlt hlt'
  · exact absurd hlt (heq' ▸ lt_irrefl _)
  · exact absurd hlt' (heq ▸ lt_irrefl _)
  · exact Nat.lt_asymm hid hid'

theorem mem_of_getLatestStatus (h : (getLatestStatus nodeId).resultOf db x = .ok b) :
    b ∈ db.snapshots.rows :=
  List.mem_of_mem_filter (firstBy_mem (getLatestStatus_ok_iff.mp h))

theorem lastBase_append (past : List Step) (s : Step) :
    lastBase nodeId (past ++ [s]) = (s.base nodeId).or (lastBase nodeId past) := by
  rw [lastBase, List.filterMap_append]
  cases hs : s.base nodeId with
  | none => simp [hs, lastBase]
  | some b => simp [hs]

/-- A step without a heartbeat of the node leaves the latest base row. -/
theorem BasesKept.quiet {keep : Nat} (hk : BasesKept keep nodeId past s.before)
    (h : s.Runs settings crypto x) (hop : s.op.beats nodeId = false) :
    BasesKept keep nodeId (past ++ [s]) s.after := by
  have hback : ∀ row ∈ s.after.snapshots.rows, row.isBaseOf nodeId = true →
      row ∈ s.before.snapshots.rows := fun row hrow hbase =>
    (h.status_iff hop (Snapshot.isBaseOf_iff.mp hbase).1).mp hrow
  refine ⟨fun row hrow hbase => ?_, fun hroom b hb => ?_⟩
  · obtain ⟨t, ht, hbeat⟩ := hk.recorded row (hback row hrow hbase) hbase
    exact ⟨t, List.mem_append_left _ ht, hbeat⟩
  · rw [lastBase_append, Step.base, hop] at hb
    obtain ⟨hmem, hbase, hfirst⟩ := hk.latest (fun t ht => hroom t (List.mem_append_left _ ht)) b hb
    refine ⟨(h.status_iff hop (Snapshot.isBaseOf_iff.mp hbase).1).mpr hmem, hbase, ?_⟩
    exact fun row hrow hrowbase => hfirst row (hback row hrow hrowbase) hrowbase

/-- After an accepted heartbeat its base row is there if and only if there was room for it, and
it comes before all other base rows. -/
theorem BasesKept.beat (hk : BasesKept settings.maxStatusHistoryPerNode nodeId past s.before)
    (hpaced : Paced nodeId (past ++ [s])) (h : s.Runs settings crypto x)
    (hb : s.base nodeId = some b) :
    (b ∈ s.after.snapshots.rows ↔ s.Room settings.maxStatusHistoryPerNode nodeId) ∧
      ∀ row ∈ s.after.snapshots.rows, row.isBaseOf nodeId = true → row ≠ b →
        row ∈ s.before.snapshots.rows ∧ b.before row = true := by
  obtain ⟨hbeat, rfl⟩ := Step.base_eq_some hb
  have hmem : s ∈ past ++ [s] := List.mem_append_right _ (List.mem_singleton_self s)
  obtain ⟨payload, now, hop⟩ : ∃ payload now, s.op = .heartbeat nodeId payload now := by
    cases hop : s.op with
    | heartbeat n payload now =>
        rw [hop] at hbeat
        exact ⟨payload, now, by rw [of_decide_eq_true hbeat]⟩
    | _ => rw [hop] at hbeat; cases hbeat
  have hnow : s.op.now = now := by rw [hop]; rfl
  have hbases : ∀ row ∈ s.before.snapshots.rows, row.isBaseOf nodeId = true →
      ¬ utcNowIso now < row.reportedAt := by
    intro row hrow hbase
    obtain ⟨t, ht, htbeat, htime⟩ := hk.recorded row hrow hbase
    rw [htime, ← hnow]
    exact utcNowIso_le (hpaced.le ht htbeat hbeat) (hpaced.clock s hmem hbeat)
  have hroom : s.Room settings.maxStatusHistoryPerNode nodeId ↔
      (sampleTimes nodeId s.before ++ freshSamples [utcNowIso now] payload.samples).countP
        (fun ts => utcNowIso now < ts) < settings.maxStatusHistoryPerNode := by
    simp only [Step.Room, hop, true_implies]
  rw [hnow, h.status_beat hop (hpaced.accepted s hmem hbeat), SnapshotStmt.mem_trim, hroom,
    length_before_base hbases rfl rfl]
  constructor
  · rw [SnapshotStmt.rows_insertMany]
    exact ⟨fun hin => hin.2 rfl, fun hlt => ⟨List.mem_append_right _ (List.mem_cons_self ..), fun _ => hlt⟩⟩
  · intro row hrow hbase hne
    have hin := (SnapshotStmt.mem_trim.mp hrow).1
    rw [SnapshotStmt.rows_insertMany] at hin
    rcases List.mem_append.mp hin with hold | hnew
    · refine ⟨hold, Snapshot.before_iff.mpr ?_⟩
      have hid : row.id < s.before.snapshots.seq + 1 :=
        Nat.lt_succ_of_le (s.before.snapshots.bounded row hold)
      rcases lt_or_eq_of_le (le_of_not_gt (hbases row hold hbase)) with hlt | heq
      · exact Or.inl hlt
      · exact Or.inr ⟨heq.symm, hid⟩
    · rcases List.mem_cons.mp hnew with heq | hnew
      · exact absurd heq hne
      · obtain ⟨-, r, hr, heq⟩ := mem_numbered hnew
        obtain ⟨ts, -, rfl⟩ := List.mem_map.mp hr
        rw [heq] at hbase
        cases (Snapshot.isBaseOf_iff.mp hbase).2

theorem BasesKept.step (hk : BasesKept settings.maxStatusHistoryPerNode nodeId past s.before)
    (hpaced : Paced nodeId (past ++ [s])) (h : s.Runs settings crypto x) :
    BasesKept settings.maxStatusHistoryPerNode nodeId (past ++ [s]) s.after := by
  have hmem : s ∈ past ++ [s] := List.mem_append_right _ (List.mem_singleton_self s)
  cases hb : s.base nodeId with
  | none => exact hk.quiet h (Step.beats_of_base_none hb)
  | some b =>
      obtain ⟨hiff, hothers⟩ := hk.beat hpaced h hb
      obtain ⟨hbeat, heq⟩ := Step.base_eq_some hb
      refine ⟨fun row hrow hbase => ?_, fun hroom c hc => ?_⟩
      · by_cases hrb : row = b
        · exact ⟨s, hmem, hbeat, by rw [hrb, heq]⟩
        · obtain ⟨t, ht, htbeat⟩ := hk.recorded row (hothers row hrow hbase hrb).1 hbase
          exact ⟨t, List.mem_append_left _ ht, htbeat⟩
      · rw [lastBase_append, hb] at hc
        cases hc
        refine ⟨hiff.mpr (hroom s hmem), ?_, fun row hrow hbase hne => (hothers row hrow hbase hne).2⟩
        rw [heq]
        exact Snapshot.isBaseOf_iff.mpr ⟨rfl, rfl⟩

/-- The invariant around a step of a run. -/
theorem basesKept_of_split {ops : List SystemOp} {later : List Step}
    (hpaced : Paced nodeId (steps settings crypto {} x ops))
    (hsplit : steps settings crypto {} x ops = past ++ s :: later) :
    Paced nodeId (past ++ [s]) ∧ (∃ x, s.Runs settings crypto x) ∧
      BasesKept settings.maxStatusHistoryPerNode nodeId past s.before ∧
      BasesKept settings.maxStatusHistoryPerNode nodeId (past ++ [s]) s.after := by
  have hfirst : BasesKept settings.maxStatusHistoryPerNode nodeId [] ({} : Db) :=
    ⟨fun _ hrow => (List.not_mem_nil hrow).elim, fun _ _ hb => (Option.not_mem_none _ hb).elim⟩
  have hpast : Paced nodeId (past ++ [s]) := by
    rw [hsplit, ← List.singleton_append, ← List.append_assoc] at hpaced
    exact hpaced.sublist (List.sublist_append_left _ _)
  obtain ⟨hruns, hbefore, hafter⟩ := steps_induction
    (I := fun past db => Paced nodeId past →
      BasesKept settings.maxStatusHistoryPerNode nodeId past db) (C := fun _ => True)
    (fun past s x h _ hk hpaced => (hk (hpaced.sublist (List.sublist_append_left _ _))).step hpaced h)
    [] (fun _ => hfirst) (fun _ _ => trivial) hsplit
  exact ⟨hpast, hruns, hbefore (hpast.sublist (List.sublist_append_left _ _)), hafter hpast⟩

/-- In every run of accepted heartbeats, `get_latest_status` returns the base row of the last one
at every moment if and only if there was room for each. -/
theorem latest_status_iff {ops : List SystemOp}
    (hpaced : Paced nodeId (steps settings crypto {} x ops)) :
    (∀ past s later, steps settings crypto {} x ops = past ++ s :: later →
      ∀ b ∈ lastBase nodeId (past ++ [s]), ∀ x,
        (getLatestStatus nodeId).resultOf s.after x = .ok b) ↔
      ∀ s ∈ steps settings crypto {} x ops, s.Room settings.maxStatusHistoryPerNode nodeId := by
  constructor
  · intro hlatest s hs
    obtain ⟨past, later, hsplit⟩ := List.append_of_mem hs
    obtain ⟨hpast, ⟨x, hruns⟩, hk, -⟩ := basesKept_of_split hpaced hsplit
    cases hb : s.base nodeId with
    | none => exact Step.room_of_not_beats (Step.beats_of_base_none hb)
    | some b =>
        have hlast : b ∈ lastBase nodeId (past ++ [s]) := by
          rw [lastBase_append, hb]
          rfl
        have hret := hlatest past s later hsplit b hlast x
        exact (hk.beat hpast hruns hb).1.mp (mem_of_getLatestStatus hret)
  · intro hroom past s later hsplit b hb x
    obtain ⟨-, -, -, hk⟩ := basesKept_of_split hpaced hsplit
    refine (hk.latest (fun t ht => hroom t ?_) b hb).returned x
    rw [hsplit]
    rcases List.mem_append.mp ht with ht | ht
    · exact List.mem_append_left _ ht
    · rw [List.mem_singleton.mp ht]
      exact List.mem_append_right _ (List.mem_cons_self ..)

end Runs

/-! ## Concrete data -/

instance (nodeId : String) (l : List Step) : Decidable (Paced nodeId l) :=
  decidable_of_iff ((∀ s ∈ l, s.op.beats nodeId = true → s.reply.isOk = true) ∧
      (∀ s ∈ l, s.op.beats nodeId = true → s.op.now < Iso.maxMicros) ∧
        (l.filter fun s => s.op.beats nodeId).Pairwise fun s t => s.op.now ≤ t.op.now)
    ⟨fun ⟨h₁, h₂, h₃⟩ => ⟨h₁, h₂, h₃⟩, fun h => ⟨h.1, h.2, h.3⟩⟩

instance (keep : Nat) (nodeId : String) (s : Step) : Decidable (s.Room keep nodeId) := by
  unfold Step.Room
  split <;> infer_instance

/-- A node whose clock is ahead sends its samples of five seconds. -/
def aheadSamples : HeartbeatRequest :=
  { bootId := "b"
    samples :=
      ["2099-12-31T23:59:50.123000+00:00", "2099-12-31T23:59:51.123000+00:00",
        "2099-12-31T23:59:52.123000+00:00", "2099-12-31T23:59:53.123000+00:00",
        "2099-12-31T23:59:54.123000+00:00"] }

/-- Where `keep` rows are kept. -/
def keeping (keep : Nat) : Settings := { maxStatusHistoryPerNode := keep }

/-- With six rows kept, the base row of the heartbeat is the latest. -/
theorem latest_status_kept :
    ∃ past s later, steps (keeping 6) plainCrypto {} {}
        (claimTask ++ [.heartbeat "n" aheadSamples 5000000]) = past ++ s :: later ∧
      (getLatestStatus "n").resultOf s.after {} = .ok ⟨2, "n", utcNowIso 5000000, true⟩ := by
  obtain ⟨later, hrun⟩ := steps_append_cons (keeping 6) plainCrypto {} {} claimTask
    (.heartbeat "n" aheadSamples 5000000) []
  refine ⟨_, _, later, hrun, ?_⟩
  refine (latest_status_iff (by decide +kernel)).mpr (by decide +kernel) _ _ _ hrun _ ?_ {}
  rw [lastBase_append]
  rfl

/-- With five rows kept, the samples push the base row out. -/
theorem latest_status_lost :
    ¬ ∀ (settings : Settings) (crypto : Crypto) (nodeId : String) (x : World) (ops : List SystemOp),
      1 ≤ settings.maxStatusHistoryPerNode → Paced nodeId (steps settings crypto {} x ops) →
        ∀ past s later, steps settings crypto {} x ops = past ++ s :: later →
          ∀ b ∈ lastBase nodeId (past ++ [s]), ∀ x,
            (getLatestStatus nodeId).resultOf s.after x = .ok b := by
  intro h
  obtain ⟨later, hrun⟩ := steps_append_cons (keeping 5) plainCrypto {} {} claimTask
    (.heartbeat "n" aheadSamples 5000000) []
  have hlatest := h (keeping 5) plainCrypto "n" {} _ (by decide) (by decide +kernel) _ _ _ hrun
    ⟨2, "n", utcNowIso 5000000, true⟩ (by rw [lastBase_append]; rfl) {}
  have hnone : ((getLatestStatus "n").resultOf (SystemOp.step (keeping 5) plainCrypto
      (.heartbeat "n" aheadSamples 5000000) (finish (keeping 5) plainCrypto {} {} claimTask).1
        (finish (keeping 5) plainCrypto {} {} claimTask).2).after {}).isOk = false := by
    decide +kernel
  rw [hlatest] at hnone
  cases hnone

end GpuFleet
