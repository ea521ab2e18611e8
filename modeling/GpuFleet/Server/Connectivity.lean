import GpuFleet.Server.ConnectionStatus
import GpuFleet.Server.Storage
import Mathlib.Data.List.Chain

/-!
# The scanner's events about nodes

At each tick the scanner computes the status of every node, and compares the
nodes that are offline now with those of the tick before, the only thing it
remembers.  A node that left this set is reported as online.

It may have left it otherwise: an administrator disabled or deleted it.  So the
events tell the transitions of the nodes exactly when no node that was offline
vanished in this way (`notifications_reflect_iff`).

An exception ends a tick before it emits anything, and its set stays.  The time
stamps that a run of the server stores raise none.
-/

namespace GpuFleet

open Foundations

/-! ## Ticks -/

/-- What the scanner remembers from its last tick: `_offline_node_cache` and
`_scanner_first_tick`. -/
structure Scanner where
  offlineNodeCache : List String := []
  firstTick : Bool := true

def nodeOffline (nodeId : String) : WebhookEvent :=
  ⟨"node.offline", .obj [("node_id", .str nodeId)], "warning"⟩

def nodeOnline (nodeId : String) : WebhookEvent :=
  ⟨"node.online", .obj [("node_id", .str nodeId)], "info"⟩

/-- `current_offline` -/
def currentOffline (now : Nat) (db : Db) : List String :=
  (db.nodes.rows.filter fun row => scannedStatus row now = .offline).map Node.nodeId

/-- The events of a tick after the first: those of `newly_offline` and of `recovered`.  The sets
have no order. -/
def transitions (now : Nat) (db : Db) (offlineNodeCache : List String) : List WebhookEvent :=
  ((currentOffline now db).filter (· ∉ offlineNodeCache)).map nodeOffline ++
    (offlineNodeCache.filter (· ∉ currentOffline now db)).map nodeOnline

/-- The body of `_refresh_status_gauges`, without its gauges: the events and what is
remembered. -/
def detectTransitions (now : Nat) (db : Db) (scanner : Scanner) :
    Except Exc (List WebhookEvent × Scanner) := do
  let _ ← db.nodes.rows.mapM fun row => parseUtcOrNone row.lastSeenAt
  pure (if scanner.firstTick then [] else transitions now db scanner.offlineNodeCache,
    { offlineNodeCache := currentOffline now db, firstTick := false })

/-- `_refresh_status_gauges`: an exception is logged, and nothing else happens. -/
def refreshStatusGauges (now : Nat) (db : Db) (scanner : Scanner) : List WebhookEvent × Scanner :=
  match detectTransitions now db scanner with
  | .error _ => ([], scanner)
  | .ok out => out

/-- A tick: the database it saw, when, and the events it emitted. -/
structure Tick where
  db : Db
  now : Nat
  events : List WebhookEvent

/-- The status of a node at a tick, if there is such a node. -/
def Tick.classifies (t : Tick) (nodeId : String) : Option ConnectionStatus :=
  (t.db.nodes.get? nodeId).map fun row => scannedStatus row t.now

/-- The tick reports each node that it finds offline and the tick before did not, and each that it
finds online and the tick before found offline, once, and no others. -/
structure Tick.Reflects (p t : Tick) : Prop where
  offline : ∀ nodeId, nodeOffline nodeId ∈ t.events ↔
    t.classifies nodeId = some .offline ∧ p.classifies nodeId ≠ some .offline
  online : ∀ nodeId, nodeOnline nodeId ∈ t.events ↔
    t.classifies nodeId = some .online ∧ p.classifies nodeId = some .offline
  once : t.events.Nodup

/-- A node that was offline at the tick before is disabled now, or deleted, or was created anew and
is yet to be seen. -/
def Tick.Vanishes (p t : Tick) (nodeId : String) : Prop :=
  p.classifies nodeId = some .offline ∧ t.classifies nodeId ≠ some .offline ∧
    t.classifies nodeId ≠ some .online

/-! ## Runs -/

/-- What happens while the scanner runs. -/
inductive ScannerOp where
  | server (op : SystemOp)
  | deleteNode (nodeId : String) (requestIp : Option String) (admin : Admin) (now : Nat)
  | tick (now : Nat)

/-- The clock reading of an operation of the server. -/
def ScannerOp.serverNow : ScannerOp → Option Nat
  | .server op => some op.now
  | .deleteNode .. | .tick _ => none

/-- The server and its scanner, with the ticks so far. -/
structure Scanning where
  db : Db := {}
  world : World := {}
  scanner : Scanner := {}
  ticks : List Tick := []

section Runs

variable (settings : Settings) (crypto : Crypto)

def ScannerOp.step (st : Scanning) : ScannerOp → Scanning
  | .server op =>
      let p := op.code settings crypto
      { st with db := p.dbAfter st.db st.world, world := p.outsideAfter st.db st.world }
  | .deleteNode nodeId requestIp admin now =>
      let (db, world) := ((GpuFleet.deleteNode nodeId requestIp admin now).atomic st.db st.world).2
      { st with db, world }
  | .tick now =>
      let (events, scanner) := refreshStatusGauges now st.db st.scanner
      { st with
        world := { st.world with events := st.world.events ++ events }
        scanner
        ticks := st.ticks ++ [⟨st.db, now, events⟩] }

/-- A run of the scanner. -/
def scanning (ops : List ScannerOp) : Scanning := ops.foldl (ScannerOp.step settings crypto) {}

end Runs

/-! ## One tick -/

section OneTick

variable {now : Nat} {db : Db} {scanner : Scanner} {p t : Tick} {nodeId : String}

/-- The set of a tick is what it classifies as offline. -/
theorem mem_currentOffline :
    nodeId ∈ currentOffline now db ↔
      (db.nodes.get? nodeId).map (fun row => scannedStatus row now) = some .offline := by
  rw [currentOffline, List.mem_map, Option.map_eq_some_iff]
  constructor
  · rintro ⟨row, hrow, rfl⟩
    obtain ⟨hmem, hstatus⟩ := List.mem_filter.mp hrow
    exact ⟨row, Table.get?_of_mem hmem, of_decide_eq_true hstatus⟩
  · rintro ⟨row, hrow, hstatus⟩
    exact ⟨row, List.mem_filter.mpr ⟨Table.get?_mem hrow, decide_eq_true hstatus⟩,
      Table.get?_key hrow⟩

theorem nodup_currentOffline : (currentOffline now db).Nodup :=
  db.nodes.unique.sublist (List.filter_sublist.map Node.nodeId)

theorem nodeOffline_injective : Function.Injective nodeOffline := by
  intro a b h
  simpa [nodeOffline] using h

theorem nodeOnline_injective : Function.Injective nodeOnline := by
  intro a b h
  simpa [nodeOnline] using h

theorem nodeOffline_ne_nodeOnline (a b : String) : nodeOffline a ≠ nodeOnline b := by
  simp [nodeOffline, nodeOnline]

theorem nodeOffline_mem_transitions {cache : List String} :
    nodeOffline nodeId ∈ transitions now db cache ↔
      nodeId ∈ currentOffline now db ∧ nodeId ∉ cache := by
  have hother : nodeOffline nodeId ∉ (cache.filter (· ∉ currentOffline now db)).map nodeOnline := by
    intro h
    obtain ⟨a, -, ha⟩ := List.mem_map.mp h
    exact nodeOffline_ne_nodeOnline nodeId a ha.symm
  rw [transitions, List.mem_append, or_iff_left hother,
    List.mem_map_of_injective nodeOffline_injective, List.mem_filter, decide_eq_true_eq]

theorem nodeOnline_mem_transitions {cache : List String} :
    nodeOnline nodeId ∈ transitions now db cache ↔
      nodeId ∈ cache ∧ nodeId ∉ currentOffline now db := by
  have hother : nodeOnline nodeId ∉ ((currentOffline now db).filter (· ∉ cache)).map nodeOffline := by
    intro h
    obtain ⟨a, -, ha⟩ := List.mem_map.mp h
    exact nodeOffline_ne_nodeOnline a nodeId ha
  rw [transitions, List.mem_append, or_iff_right hother,
    List.mem_map_of_injective nodeOnline_injective, List.mem_filter, decide_eq_true_eq]

theorem nodup_transitions {cache : List String} (h : cache.Nodup) :
    (transitions now db cache).Nodup := by
  refine List.Nodup.append ((nodup_currentOffline.filter _).map nodeOffline_injective)
    ((h.filter _).map nodeOnline_injective) ?_
  intro event hoffline honline
  obtain ⟨a, -, rfl⟩ := List.mem_map.mp hoffline
  obtain ⟨b, -, hb⟩ := List.mem_map.mp honline
  exact nodeOffline_ne_nodeOnline a b hb.symm

/-- What a tick emits, in terms of the tick before: it reports as online what left the set. -/
structure Tick.Reports (p t : Tick) : Prop where
  offline : ∀ nodeId, nodeOffline nodeId ∈ t.events ↔
    t.classifies nodeId = some .offline ∧ p.classifies nodeId ≠ some .offline
  online : ∀ nodeId, nodeOnline nodeId ∈ t.events ↔
    p.classifies nodeId = some .offline ∧ t.classifies nodeId ≠ some .offline
  once : t.events.Nodup

/-- The reports are those of the transitions if and only if no node vanished. -/
theorem Tick.Reports.reflects_iff (h : p.Reports t) :
    p.Reflects t ↔ ∀ nodeId, ¬ p.Vanishes t nodeId := by
  constructor
  · rintro hreflects nodeId ⟨hwas, hnotOffline, hnotOnline⟩
    exact hnotOnline ((hreflects.online nodeId).mp ((h.online nodeId).mpr ⟨hwas, hnotOffline⟩)).1
  · intro hnone
    refine ⟨h.offline, fun nodeId => (h.online nodeId).trans ⟨?_, ?_⟩, h.once⟩
    · rintro ⟨hwas, hnotOffline⟩
      refine ⟨?_, hwas⟩
      by_contra hnotOnline
      exact hnone nodeId ⟨hwas, hnotOffline, hnotOnline⟩
    · rintro ⟨honline, hwas⟩
      exact ⟨hwas, by simp [honline]⟩

/-- The time stamps that heartbeats write raise nothing. -/
theorem parseUtcOrNone_of_seen {row : Node} (h : Seen Iso.maxMicros row) :
    ∃ seen, parseUtcOrNone row.lastSeenAt = .ok seen := by
  rcases h with ⟨-, hlast⟩ | ⟨-, t, ht, hlast⟩
  · exact ⟨none, by rw [hlast]; rfl⟩
  · exact ⟨_, by rw [hlast, parseUtcOrNone_utcNowIso ht]⟩

/-- A tick that raises nothing. -/
theorem refreshStatusGauges_eq (hseen : ∀ row ∈ db.nodes.rows, Seen Iso.maxMicros row) :
    refreshStatusGauges now db scanner =
      (if scanner.firstTick then [] else transitions now db scanner.offlineNodeCache,
        { offlineNodeCache := currentOffline now db, firstTick := false }) := by
  have hparse : ∃ out, (db.nodes.rows.mapM fun row => parseUtcOrNone row.lastSeenAt) = .ok out := by
    generalize db.nodes.rows = rows at hseen
    induction rows with
    | nil => exact ⟨[], rfl⟩
    | cons row rows ih =>
        obtain ⟨seen, hrow⟩ := parseUtcOrNone_of_seen (hseen row (List.mem_cons_self ..))
        obtain ⟨out, hrows⟩ := ih fun row' hrow' => hseen row' (List.mem_cons_of_mem _ hrow')
        refine ⟨seen :: out, ?_⟩
        rw [List.mapM_cons, hrow, hrows]
        rfl
  obtain ⟨out, hout⟩ := hparse
  rw [refreshStatusGauges, detectTransitions, hout]
  rfl

end OneTick

/-! ## All ticks -/

section AllTicks

variable {settings : Settings} {crypto : Crypto} {st : Scanning}

/-- The state of a run: the scanner remembers what its last tick found offline, and each tick
reported what changed since the one before. -/
structure TickRecord (st : Scanning) : Prop where
  seen : ∀ row ∈ st.db.nodes.rows, Seen Iso.maxMicros row
  first : st.scanner.firstTick = true ↔ st.ticks = []
  cache : ∀ p ∈ st.ticks.getLast?, ∀ nodeId,
    nodeId ∈ st.scanner.offlineNodeCache ↔ p.classifies nodeId = some .offline
  nodup : st.scanner.offlineNodeCache.Nodup
  reports : st.ticks.IsChain Tick.Reports

theorem TickRecord.start : TickRecord {} where
  seen := by
    intro row hrow
    cases hrow
  first := iff_of_true rfl rfl
  cache := by
    intro p hp
    cases hp
  nodup := .nil
  reports := .nil

/-- A change of the database alone. -/
theorem TickRecord.setDb (h : TickRecord st) {db : Db} {world : World}
    (hdb : ∀ row ∈ db.nodes.rows, Seen Iso.maxMicros row) : TickRecord { st with db, world } :=
  ⟨hdb, h.first, h.cache, h.nodup, h.reports⟩

theorem TickRecord.server (h : TickRecord st) (op : SystemOp) (hclock : op.now < Iso.maxMicros) :
    TickRecord (ScannerOp.step settings crypto st (.server op)) := by
  refine h.setDb ?_
  have hruns : (op.step settings crypto st.db st.world).Runs settings crypto st.world :=
    op.step_runs st.db st.world
  exact hruns.keeps (fun _ _ hq => Seen.apply hq hclock) h.seen

theorem TickRecord.deleteNode (h : TickRecord st) (nodeId : String) (requestIp : Option String)
    (admin : Admin) (now : Nat) :
    TickRecord (ScannerOp.step settings crypto st (.deleteNode nodeId requestIp admin now)) := by
  refine h.setDb ?_
  simp only [GpuFleet.deleteNode, Prog.atomic, Prog.query_bind, Prog.exec_select]
  cases st.db.nodes.get? nodeId with
  | none => exact h.seen
  | some row => exact fun row' hrow' => h.seen row' (List.mem_of_mem_filter hrow')

theorem TickRecord.tick (h : TickRecord st) (now : Nat) :
    TickRecord (ScannerOp.step settings crypto st (.tick now)) := by
  rw [ScannerOp.step, refreshStatusGauges_eq h.seen]
  refine ⟨h.seen, iff_of_false Bool.false_ne_true (by simp), ?_, nodup_currentOffline, ?_⟩
  · intro p hp nodeId
    simp only [List.getLast?_append, List.getLast?_singleton, Option.some_or, Option.mem_def,
      Option.some.injEq] at hp
    rw [← hp]
    exact mem_currentOffline
  · refine List.isChain_append.mpr ⟨h.reports, .singleton _, fun p hp t ht => ?_⟩
    have hnext : st.scanner.firstTick = false := by
      rw [Bool.eq_false_iff, Ne, h.first]
      rintro hempty
      rw [hempty] at hp
      cases hp
    simp only [List.head?_cons, Option.mem_def, Option.some.injEq] at ht
    rw [← ht, hnext, if_neg Bool.false_ne_true]
    refine ⟨fun nodeId => ?_, fun nodeId => ?_, nodup_transitions h.nodup⟩
    · exact nodeOffline_mem_transitions.trans
        (and_congr mem_currentOffline (not_congr (h.cache p hp nodeId)))
    · exact nodeOnline_mem_transitions.trans
        (and_congr (h.cache p hp nodeId) (not_congr mem_currentOffline))

theorem TickRecord.step (h : TickRecord st) {op : ScannerOp}
    (hclock : ∀ now ∈ op.serverNow, now < Iso.maxMicros) :
    TickRecord (op.step settings crypto st) := by
  cases op with
  | server op => exact h.server op (hclock _ rfl)
  | deleteNode nodeId requestIp admin now => exact h.deleteNode nodeId requestIp admin now
  | tick now => exact h.tick now

theorem ticks_recorded {ops : List ScannerOp}
    (hclock : ∀ op ∈ ops, ∀ now ∈ op.serverNow, now < Iso.maxMicros) :
    TickRecord (scanning settings crypto ops) := by
  induction ops using List.reverseRecOn with
  | nil => exact .start
  | append_singleton ops op ih =>
      rw [scanning, List.foldl_append]
      refine TickRecord.step (ih fun op' hop' => hclock op' (List.mem_append_left _ hop')) ?_
      exact hclock op (List.mem_append_right _ (List.mem_singleton.mpr rfl))

/-- Each tick of a run reports what left the set of the one before. -/
theorem tick_reports {ops : List ScannerOp}
    (hclock : ∀ op ∈ ops, ∀ now ∈ op.serverNow, now < Iso.maxMicros) {pre post : List Tick}
    {p t : Tick} (h : (scanning settings crypto ops).ticks = pre ++ p :: t :: post) :
    p.Reports t := by
  have hchain : (pre ++ p :: t :: post).IsChain Tick.Reports := h ▸ (ticks_recorded hclock).reports
  exact (List.isChain_append_cons_cons.mp hchain).2.1

/-- In a run of the server with its scanner, a tick tells the transitions of the nodes since the
tick before if and only if no node that was offline then vanished. -/
theorem notifications_reflect_iff {ops : List ScannerOp}
    (hclock : ∀ op ∈ ops, ∀ now ∈ op.serverNow, now < Iso.maxMicros) {pre post : List Tick}
    {p t : Tick} (h : (scanning settings crypto ops).ticks = pre ++ p :: t :: post) :
    p.Reflects t ↔ ∀ nodeId, ¬ p.Vanishes t nodeId :=
  (tick_reports hclock h).reflects_iff

end AllTicks

/-- A node that falls silent after its heartbeat, at two ticks a minute apart. -/
def silentNode : List ScannerOp :=
  seenOnce.map .server ++ [.tick 63902822400000000, .tick 63902822460000000]

/-- The node comes back before the third tick. -/
def nodeReturns : List ScannerOp :=
  silentNode ++ [.server (.heartbeat "n" { bootId := "b" } 63902822510000000), .tick 63902822520000000]

/-- The node is disabled before the third tick. -/
def nodeDisabled : List ScannerOp :=
  silentNode ++ [.server (.setNodeEnabled "n" false ⟨1, "admin"⟩ 63902822510000000),
    .tick 63902822520000000]

theorem nodeReturns_clock : ∀ op ∈ nodeReturns, ∀ now ∈ op.serverNow, now < Iso.maxMicros := by
  decide

theorem nodeDisabled_clock : ∀ op ∈ nodeDisabled, ∀ now ∈ op.serverNow, now < Iso.maxMicros := by
  decide

/-- Three ticks, by what is computed of each. -/
theorem three_ticks {α : Type} {l : List Tick} {f : Tick → α} {a b c : α}
    (h : l.map f = [a, b, c]) : ∃ s p t, l = [s] ++ p :: t :: [] ∧ f p = b ∧ f t = c := by
  obtain ⟨s, l, rfl, -, h⟩ := List.map_eq_cons_iff.mp h
  obtain ⟨p, l, rfl, hp, h⟩ := List.map_eq_cons_iff.mp h
  obtain ⟨t, l, rfl, ht, h⟩ := List.map_eq_cons_iff.mp h
  rw [List.map_eq_nil_iff.mp h]
  exact ⟨s, p, t, rfl, hp, ht⟩

/-- The return of a node is told at the third tick. -/
theorem notifications_reflect_nodeReturns :
    ∃ pre p t post, (scanning {} plainCrypto nodeReturns).ticks = pre ++ p :: t :: post ∧
      p.classifies "n" = some .offline ∧ p.Reflects t := by
  have hticks : (scanning {} plainCrypto nodeReturns).ticks.map
      (fun t => (currentOffline t.now t.db, t.classifies "n")) =
        [([], some .online), (["n"], some .offline), ([], some .online)] := by
    decide +kernel
  obtain ⟨s, p, t, hl, hp, ht⟩ := three_ticks hticks
  obtain ⟨hoffline, hwas⟩ := Prod.mk.inj hp
  refine ⟨_, p, t, _, hl, hwas, (notifications_reflect_iff nodeReturns_clock hl).mpr ?_⟩
  rintro nodeId ⟨hthis, -, hnotOnline⟩
  have hmem : nodeId ∈ currentOffline p.now p.db := mem_currentOffline.mpr hthis
  rw [hoffline, List.mem_singleton] at hmem
  rw [hmem] at hnotOnline
  exact hnotOnline (Prod.mk.inj ht).2

/-- A node that is disabled while it is offline is reported as online. -/
theorem disabled_node_online :
    ¬ ∀ (settings : Settings) (crypto : Crypto) (ops : List ScannerOp),
      (∀ op ∈ ops, ∀ now ∈ op.serverNow, now < Iso.maxMicros) →
        ∀ pre p t post, (scanning settings crypto ops).ticks = pre ++ p :: t :: post →
          p.Reflects t := by
  intro h
  have hticks : (scanning {} plainCrypto nodeDisabled).ticks.map (Tick.classifies · "n") =
      [some .online, some .offline, some .disabled] := by
    decide +kernel
  obtain ⟨s, p, t, hl, hwas, hnow⟩ := three_ticks hticks
  have hreports := tick_reports nodeDisabled_clock hl
  have hreflects := h {} plainCrypto nodeDisabled nodeDisabled_clock _ p t _ hl
  refine hreports.reflects_iff.mp hreflects "n" ⟨hwas, ?_, ?_⟩
  · rw [hnow]
    simp
  · rw [hnow]
    simp

end GpuFleet
