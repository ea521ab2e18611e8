import GpuFleet.Foundations.SqlTime
import GpuFleet.Server.HonestAgent
import GpuFleet.Server.Permitted

/-!
# Whether a node is online

The node list and the dashboard compute a node's status from three times its
heartbeat interval.  The scanner, whose status drives the gauges and the offline
alerts, computes it in SQL from half a minute, counted in whole seconds.

In a reachable row both time stamps are missing or both were written by a
heartbeat (`Seen.finish`), so the missing values are judged alike, and the
statuses differ exactly for the ages between the two thresholds
(`statuses_agree_iff`).
-/

namespace GpuFleet

open Foundations

/-! ## The three computations -/

/-- The statuses of a node's connection. -/
inductive ConnectionStatus where
  | disabled | neverSeen | offline | online
  deriving DecidableEq, Repr

/-- `parse_iso_or_none` -/
def parseIsoOrNone (raw : Option String) : Except Exc (Option Int) :=
  match raw with
  | none => .ok none
  | some raw =>
      if raw = "" then .ok none else ((parseMoment (replaceZ raw)).bind toUtc).map some

/-- The common text of the two functions below.  A time before the year 1 is an overflow. -/
def connectionStatus (isEnabled : Bool) (firstSeenAt lastSeenAt : Option String)
    (heartbeatIntervalSec now : Nat) : Except Exc ConnectionStatus :=
  if !isEnabled then .ok .disabled
  else if (firstSeenAt.filter (· ≠ "")).isNone then .ok .neverSeen
  else (parseIsoOrNone lastSeenAt).bind fun seenAt =>
    match seenAt with
    | none => .ok .offline
    | some seenAt =>
        let silence := heartbeatIntervalSec * 3 * 1000000
        if now < silence then .error .overflow
        else if (now : Int) - silence ≤ seenAt then .ok .online else .ok .offline

/-- `compute_connection_status` -/
def computeConnectionStatus (isEnabled : Bool) (firstSeenAt lastSeenAt : Option String)
    (heartbeatIntervalSec now : Nat) : Except Exc ConnectionStatus :=
  connectionStatus isEnabled firstSeenAt lastSeenAt heartbeatIntervalSec now

/-- `_compute_online_status` of the dashboard. -/
def computeOnlineStatus (isEnabled : Bool) (firstSeenAt lastSeenAt : Option String)
    (heartbeatIntervalSec now : Nat) : Except Exc ConnectionStatus :=
  connectionStatus isEnabled firstSeenAt lastSeenAt heartbeatIntervalSec now

/-- The `CASE` of `_refresh_status_gauges`.  A text that is no time compares with nothing. -/
def scannedStatus (row : Node) (now : Nat) : ConnectionStatus :=
  if !row.isEnabled then .disabled
  else match row.lastSeenAt with
    | none => .neverSeen
    | some lastSeenAt =>
        let cutoff : Int := (now / 1000000 : Nat) - 30
        if (SqlTime.datetime lastSeenAt).any fun seen => seen < cutoff then .offline else .online

/-! ## Reachable rows -/

/-- A node was never seen, or both time stamps were written by heartbeats. -/
def Seen (time : Nat) (row : Node) : Prop :=
  (row.firstSeenAt = none ∧ row.lastSeenAt = none) ∨
    (∃ t < time, row.firstSeenAt = some (utcNowIso t)) ∧
      ∃ t < time, row.lastSeenAt = some (utcNowIso t)

theorem Seen.apply {op : SystemOp} {start db : Db} {time : Nat} {q : Dml}
    (h : Permitted op start q db) (hnow : op.now < time) (hdb : ∀ row ∈ db.nodes.rows, Seen time row) :
    ∀ row ∈ (Statement.apply q db).nodes.rows, Seen time row := by
  cases q with
  | node q =>
      intro row' hrow'
      rcases NodeStmt.mem_apply_cases hrow' with ⟨row, hrow, rfl⟩ | ⟨row, hrow, -, rfl⟩ | hins
      · exact hdb row' hrow
      · cases q with
        | touch _ _ _ nowIso =>
            obtain ⟨rfl, -⟩ := h
            refine Or.inr ⟨?_, op.now, hnow, rfl⟩
            rcases hdb row hrow with ⟨hfirst, -⟩ | ⟨⟨t, ht, hfirst⟩, -⟩
            · exact ⟨op.now, hnow, by simp [NodeStmt.edit, hfirst]⟩
            · exact ⟨t, ht, by simp [NodeStmt.edit, hfirst]⟩
        | _ => exact hdb row hrow
      · obtain ⟨row, rfl, rfl⟩ := hins
        exact Or.inl ⟨h.2.2.2, h.1⟩
  | _ => exact hdb

theorem Seen.empty {time : Nat} : ∀ row ∈ ({} : Db).nodes.rows, Seen time row :=
  fun _ hrow => absurd hrow List.not_mem_nil

/-- Every node of a run was never seen, or was seen at a heartbeat. -/
theorem Seen.finish {settings : Settings} {crypto : Crypto} {time : Nat} {db : Db} {x : World}
    {ops : List SystemOp} (hclock : ∀ op ∈ ops, op.now < time)
    (hdb : ∀ row ∈ db.nodes.rows, Seen time row) :
    ∀ row ∈ (GpuFleet.finish settings crypto db x ops).1.nodes.rows, Seen time row := by
  induction ops generalizing db x with
  | nil => exact hdb
  | cons op ops ih =>
      rw [GpuFleet.finish]
      refine ih (fun op' hop' => hclock op' (List.mem_cons_of_mem _ hop')) ?_
      have hruns : (op.step settings crypto db x).Runs settings crypto x := op.step_runs db x
      exact hruns.keeps (fun _ _ hq => Seen.apply hq (hclock op (List.mem_cons_self ..))) hdb

/-! ## Where the three agree -/

/-- The ages, in microseconds, that both thresholds judge alike: three intervals, and half a minute
and a second, since the scanner counts whole seconds. -/
def SameSide (heartbeatIntervalSec now : Nat) (seenAt : Int) : Prop :=
  let silence : Int := heartbeatIntervalSec * 3 * 1000000
  let age := now - seenAt
  ¬ (silence < age ∧ age < 31000000) ∧ ¬ (31000000 ≤ age ∧ age ≤ silence)

theorem parseIsoOrNone_utcNowIso {t : Nat} (h : t < Iso.maxMicros) :
    parseIsoOrNone (some (utcNowIso t)) = .ok (some (wholeSecond t : Int)) := by
  have hparse := parseUtcOrNone_utcNowIso h
  rw [parseUtcOrNone, if_neg (utcNowIso_ne_empty h)] at hparse
  rw [parseIsoOrNone, if_neg (utcNowIso_ne_empty h), replaceZ_utcNowIso h, hparse]

/-- The status of a node that was seen. -/
theorem connectionStatus_seen {first last interval now : Nat} (hfirst : first < Iso.maxMicros)
    (hlast : last < Iso.maxMicros) :
    connectionStatus true (some (utcNowIso first)) (some (utcNowIso last)) interval now =
      if now < interval * 3 * 1000000 then .error .overflow
      else if (now : Int) - (interval * 3 * 1000000 : Nat) ≤ wholeSecond last then .ok .online
      else .ok .offline := by
  have hset : ((some (utcNowIso first)).filter (· ≠ "")).isNone = false := by
    rw [Option.filter_some, if_pos (decide_eq_true (utcNowIso_ne_empty hfirst)), Option.isNone_some]
  simp only [connectionStatus, parseIsoOrNone_utcNowIso hlast, hset, Bool.not_true,
    Bool.false_eq_true, if_false, Except.bind]

theorem scannedStatus_seen {row : Node} {last now : Nat} (henabled : row.isEnabled = true)
    (hseen : row.lastSeenAt = some (utcNowIso last)) (hlast : last < Iso.maxMicros) :
    scannedStatus row now =
      if (last / 1000000 : Nat) < ((now / 1000000 : Nat) - 30 : Int) then .offline else .online := by
  rw [scannedStatus, henabled, hseen]
  simp [utcNowIso, SqlTime.datetime_isoformat (Iso.seconds_lt hlast)]

/-- The two thresholds on whole seconds. -/
theorem thresholds_agree_iff (silence now seen : Nat) :
    (((now : Int) - silence ≤ (seen * 1000000 : Nat)) ↔ ¬ (seen : Int) < (now / 1000000 : Nat) - 30) ↔
      ¬ ((silence : Int) < now - (seen * 1000000 : Nat) ∧
          (now : Int) - (seen * 1000000 : Nat) < 31000000) ∧
        ¬ ((31000000 : Int) ≤ now - (seen * 1000000 : Nat) ∧
          (now : Int) - (seen * 1000000 : Nat) ≤ silence) := by
  have hscan : (seen : Int) < (now / 1000000 : Nat) - 30 ↔
      (31000000 : Int) ≤ now - (seen * 1000000 : Nat) := by omega
  rw [hscan]
  constructor
  · intro h
    constructor
    · rintro ⟨hlow, hhigh⟩
      have := h.mpr (by omega)
      omega
    · rintro ⟨hlow, hhigh⟩
      exact h.mp (by omega) hlow
  · rintro ⟨hlow, hhigh⟩
    constructor
    · intro hseen hlate
      exact hhigh ⟨hlate, by omega⟩
    · intro hsoon
      by_contra hnot
      exact hlow ⟨by omega, by omega⟩

/-- A node is judged alike by all three exactly if it is disabled, or its age is on the same side
of both thresholds and three intervals have passed since the clock's beginning. -/
theorem statuses_agree_iff {settings : Settings} {crypto : Crypto} {x : World}
    {ops : List SystemOp} (hclock : ∀ op ∈ ops, op.now < Iso.maxMicros) {row : Node}
    (hrow : row ∈ (finish settings crypto {} x ops).1.nodes.rows) (now : Nat) :
    (computeConnectionStatus row.isEnabled row.firstSeenAt row.lastSeenAt row.heartbeatIntervalSec
        now = .ok (scannedStatus row now) ∧
      computeOnlineStatus row.isEnabled row.firstSeenAt row.lastSeenAt row.heartbeatIntervalSec
        now = .ok (scannedStatus row now)) ↔
      (row.isEnabled = true → ∀ seenAt, parseIsoOrNone row.lastSeenAt = .ok (some seenAt) →
        row.heartbeatIntervalSec * 3 * 1000000 ≤ now ∧
          SameSide row.heartbeatIntervalSec now seenAt) := by
  rw [computeConnectionStatus, computeOnlineStatus, and_self]
  cases henabled : row.isEnabled with
  | false => simp [connectionStatus, scannedStatus, henabled]
  | true =>
      rcases Seen.finish hclock Seen.empty row hrow with ⟨hfirst, hlast⟩ | ⟨hfirst, hlast⟩
      · simp [connectionStatus, scannedStatus, henabled, hfirst, hlast, parseIsoOrNone]
      · obtain ⟨first, hfirst', hfirst⟩ := hfirst
        obtain ⟨last, hlast', hlast⟩ := hlast
        rw [scannedStatus_seen henabled hlast hlast', hfirst, hlast,
          connectionStatus_seen hfirst' hlast', parseIsoOrNone_utcNowIso hlast']
        have hagree := thresholds_agree_iff (row.heartbeatIntervalSec * 3 * 1000000) now
          (last / 1000000)
        simp only [forall_const, Except.ok.injEq, Option.some.injEq, forall_eq', SameSide,
          wholeSecond]
        by_cases hnow : now < row.heartbeatIntervalSec * 3 * 1000000
        · rw [if_pos hnow]
          exact ⟨fun h => (by cases h), fun h => absurd h.1 (Nat.not_le_of_lt hnow)⟩
        · rw [if_neg hnow]
          push_cast at hagree ⊢
          rw [← hagree, and_iff_right (Nat.le_of_not_lt hnow)]
          split <;> split <;> simp_all

/-- A node with the usual interval, and its heartbeat at the beginning of 2026. -/
def seenOnce : List SystemOp :=
  [.createNode { nodeId := "n", displayName := "n" } ⟨"secret", "", ""⟩ ⟨1, "admin"⟩
      63902822400000000,
    .heartbeat "n" { bootId := "b" } 63902822400000000]

theorem seenOnce_clock : ∀ op ∈ seenOnce, op.now < Iso.maxMicros := by
  rintro op (_ | ⟨_, _ | ⟨_, ⟨⟩⟩⟩) <;> decide

theorem seenOnce_ne_nil : (finish {} plainCrypto {} {} seenOnce).1.nodes.rows ≠ [] := by
  decide +kernel

/-- The row of the node. -/
def seenNode : Node := (finish {} plainCrypto {} {} seenOnce).1.nodes.rows.head seenOnce_ne_nil

theorem seenNode_mem : seenNode ∈ (finish {} plainCrypto {} {} seenOnce).1.nodes.rows :=
  List.head_mem seenOnce_ne_nil

/-- Ten seconds after the heartbeat all say that the node is online. -/
theorem seenNode_online :
    computeConnectionStatus seenNode.isEnabled seenNode.firstSeenAt seenNode.lastSeenAt
        seenNode.heartbeatIntervalSec 63902822410000000 =
          .ok (scannedStatus seenNode 63902822410000000) ∧
      computeOnlineStatus seenNode.isEnabled seenNode.firstSeenAt seenNode.lastSeenAt
        seenNode.heartbeatIntervalSec 63902822410000000 =
          .ok (scannedStatus seenNode 63902822410000000) := by
  refine (statuses_agree_iff seenOnce_clock seenNode_mem _).mpr ?_
  intro _ seenAt hseen
  have hread : (parseIsoOrNone seenNode.lastSeenAt).toOption = some (some 63902822400000000) := by
    decide +kernel
  have hinterval : seenNode.heartbeatIntervalSec = 5 := by decide +kernel
  rw [hseen] at hread
  cases hread
  rw [hinterval]
  simp [SameSide]

/-- Twenty seconds after the heartbeat the node list and the dashboard say that the node is offline,
and the scanner that it is online. -/
theorem statuses_disagree :
    ¬ ∀ (settings : Settings) (crypto : Crypto) (x : World) (ops : List SystemOp),
      (∀ op ∈ ops, op.now < Iso.maxMicros) →
        ∀ row ∈ (finish settings crypto {} x ops).1.nodes.rows, ∀ now,
          computeConnectionStatus row.isEnabled row.firstSeenAt row.lastSeenAt
              row.heartbeatIntervalSec now = .ok (scannedStatus row now) ∧
            computeOnlineStatus row.isEnabled row.firstSeenAt row.lastSeenAt
              row.heartbeatIntervalSec now = .ok (scannedStatus row now) := by
  intro h
  have hagree := (h {} plainCrypto {} seenOnce seenOnce_clock seenNode
    seenNode_mem 63902822420000000).1
  have hlist : (computeConnectionStatus seenNode.isEnabled seenNode.firstSeenAt seenNode.lastSeenAt
      seenNode.heartbeatIntervalSec 63902822420000000).toOption = some .offline := by
    decide +kernel
  have hscanner : scannedStatus seenNode 63902822420000000 = .online := by decide +kernel
  rw [hagree, hscanner] at hlist
  cases hlist

end GpuFleet
