import GpuFleet.Foundations.OffsetPages
import GpuFleet.Server.ConnectionStatus

/-!
# Listing all nodes

The frontend asks for the nodes page by page, by offset, until a page is not full.
Nodes may be created and deleted between two requests.  Creation times do not decrease,
so the nodes stand in the order of their ids.

A node that exists throughout is listed exactly once if and only if it does not slip
before the offset of the next request (`requestAllPages_complete_iff`): when nodes before
it are deleted, it moves down, and the next page begins behind it.
-/

namespace GpuFleet

open Foundations

/-! ## The pages of the server -/

/-- How far a node has come since it was created. -/
inductive OnboardingStatus where
  | disabled | awaitingFirstHeartbeat | connected
  deriving DecidableEq

/-- `compute_onboarding_status`: a node is connected from its first heartbeat on. -/
def computeOnboardingStatus (isEnabled : Bool) (firstSeenAt : Option String) : OnboardingStatus :=
  if !isEnabled then .disabled
  else if (firstSeenAt.filter (· ≠ "")).isNone then .awaitingFirstHeartbeat
  else .connected

/-- A node as the API shows it. -/
structure NodeResponse where
  nodeId : String
  displayName : String
  nodeType : NodeType
  osType : Option String
  hostname : Option String
  heartbeatIntervalSec : Nat
  allowedWorkdirs : List String
  tags : List String
  isEnabled : Bool
  firstSeenAt : Option String
  lastSeenAt : Option String
  connectionStatus : ConnectionStatus
  onboardingStatus : OnboardingStatus
  allowShell : Bool
  allowModal : Bool
  createdAt : String
  updatedAt : String

/-- `row_to_node_response` -/
def rowToNodeResponse (row : Node) (now : Nat) : Except Exc NodeResponse :=
  (computeConnectionStatus row.isEnabled row.firstSeenAt row.lastSeenAt row.heartbeatIntervalSec
    now).map fun connectionStatus =>
    { nodeId := row.nodeId
      displayName := row.displayName
      nodeType := row.nodeType
      osType := row.osType
      hostname := row.hostname
      heartbeatIntervalSec := row.heartbeatIntervalSec
      allowedWorkdirs := row.allowedWorkdirs
      tags := row.tags
      isEnabled := row.isEnabled
      firstSeenAt := row.firstSeenAt
      lastSeenAt := row.lastSeenAt
      connectionStatus := connectionStatus
      onboardingStatus := computeOnboardingStatus row.isEnabled row.firstSeenAt
      allowShell := row.allowShell
      allowModal := row.allowModal
      createdAt := row.createdAt
      updatedAt := row.updatedAt }

/-- `ORDER BY created_at ASC`.  Rows of one time come in the order they are scanned. -/
def oldestFirst (rows : List Node) : List Node :=
  rows.mergeSort fun a b => a.createdAt ≤ b.createdAt

/-- `list_nodes` -/
def listNodes (limit offset now : Nat) : Tx (List NodeResponse) := do
  let rows ← Prog.query fun db => ((oldestFirst db.nodes.rows).drop offset).take limit
  ofExcept (rows.mapM (rowToNodeResponse · now))

/-- `requestAllPages`: the items of the pages from the `k`-th request on, when no more than `fuel`
requests are needed. -/
def requestAllPages {T : Type} (request : (k limit offset : Nat) → Except Exc (List T))
    (limit : Nat) : (fuel k offset : Nat) → Option (Except Exc (List T))
  | 0, _, _ => none
  | fuel + 1, k, offset =>
      match request k limit offset with
      | .error e => some (.error e)
      | .ok page =>
          if page.length < limit then some (.ok page)
          else (requestAllPages request limit fuel (k + 1) (offset + page.length)).map fun later =>
            later.map fun items => page ++ items

/-- The answers to the requests, the `k`-th one read from the `k`-th database. -/
def nodePages (dbs : Nat → Db) (world : World) (now : Nat → Nat) (k limit offset : Nat) :
    Except Exc (List NodeResponse) :=
  (listNodes limit offset (now k)).resultOf (dbs k) world

/-! ## What a page lists -/

variable {dbs : Nat → Db} {world : World} {now : Nat → Nat} {limit : Nat}

/-- Between two requests nodes are deleted and created, with creation times that do not
decrease. -/
structure NodesChange (dbs : Nat → Db) : Prop where
  created : ∀ k, (dbs k).nodes.rows.Pairwise fun a b => a.createdAt ≤ b.createdAt
  /-- A node has been there before, or got a new id. -/
  step : ∀ k, ∀ b ∈ (dbs (k + 1)).nodes.rows,
    (∃ a ∈ (dbs k).nodes.rows, a.id = b.id ∧ a.nodeId = b.nodeId) ∨
      ∀ a ∈ (dbs k).nodes.rows, a.id < b.id

/-- The node ids in the order of the rows. -/
def nodeIds (dbs : Nat → Db) (k : Nat) : List String := (dbs k).nodes.rows.map Node.nodeId

/-- The node is there at the requests `0` to `n`. -/
def Remains (dbs : Nat → Db) (n : Nat) (node : Node) : Prop :=
  ∀ k ≤ n, ∃ row ∈ (dbs k).nodes.rows, row.id = node.id ∧ row.nodeId = node.nodeId

/-- Request `n` is the first one whose page is not full. -/
structure LastRequest (limit : Nat) (dbs : Nat → Db) (n : Nat) : Prop where
  short : (dbs n).nodes.rows.length < (n + 1) * limit
  full : ∀ k < n, (k + 1) * limit ≤ (dbs k).nodes.rows.length

theorem NodesChange.oldestFirst (h : NodesChange dbs) (k : Nat) :
    oldestFirst (dbs k).nodes.rows = (dbs k).nodes.rows :=
  List.mergeSort_of_pairwise ((h.created k).imp fun hle => decide_eq_true hle)

theorem nodeId_rowToNodeResponse {row : Node} {time : Nat} {response : NodeResponse}
    (h : rowToNodeResponse row time = .ok response) : response.nodeId = row.nodeId := by
  rw [rowToNodeResponse] at h
  cases hstatus : computeConnectionStatus row.isEnabled row.firstSeenAt row.lastSeenAt
      row.heartbeatIntervalSec time with
  | error e =>
      rw [hstatus] at h
      cases h
  | ok status =>
      rw [hstatus] at h
      cases h
      rfl

theorem map_nodeId_of_mapM {rows : List Node} {time : Nat} {page : List NodeResponse}
    (h : rows.mapM (rowToNodeResponse · time) = .ok page) :
    page.map NodeResponse.nodeId = rows.map Node.nodeId := by
  induction rows generalizing page with
  | nil =>
      cases h
      rfl
  | cons row rows ih =>
      rw [List.mapM_cons] at h
      cases hrow : rowToNodeResponse row time with
      | error e =>
          rw [hrow] at h
          cases h
      | ok response =>
          rw [hrow] at h
          cases hrows : rows.mapM (rowToNodeResponse · time) with
          | error e =>
              simp only [hrows] at h
              cases h
          | ok later =>
              simp only [hrows] at h
              cases h
              rw [List.map_cons, List.map_cons, nodeId_rowToNodeResponse hrow, ih hrows]

/-- The answer to a request, for rows in the order of their creation. -/
theorem NodesChange.nodePages_eq (h : NodesChange dbs) (k offset : Nat) :
    nodePages dbs world now k limit offset =
      (((dbs k).nodes.rows.drop offset).take limit).mapM (rowToNodeResponse · (now k)) := by
  rw [nodePages, listNodes]
  simp only [Prog.query_bind, Prog.resultOf, Prog.atomic, Prog.exec_select, h.oldestFirst]
  cases (((dbs k).nodes.rows.drop offset).take limit).mapM (rowToNodeResponse · (now k)) <;> rfl

/-- A page holds the nodes at its positions. -/
theorem NodesChange.page (h : NodesChange dbs) {k offset : Nat} {page : List NodeResponse}
    (hpage : nodePages dbs world now k limit offset = .ok page) :
    page.map NodeResponse.nodeId = OffsetPages.page limit offset (nodeIds dbs k) := by
  rw [h.nodePages_eq] at hpage
  rw [map_nodeId_of_mapM hpage, OffsetPages.page, nodeIds, List.map_take, List.map_drop]

/-- A page is not full exactly if it reaches the end. -/
theorem NodesChange.length_page (h : NodesChange dbs) {k : Nat} {page : List NodeResponse}
    (hlimit : 1 ≤ limit) (hpage : nodePages dbs world now k limit (k * limit) = .ok page) :
    (page.length < limit ↔ (dbs k).nodes.rows.length < (k + 1) * limit) ∧ page.length ≤ limit := by
  have hlength := congrArg List.length (h.page hpage)
  simp only [List.length_map, OffsetPages.page, nodeIds, List.length_take, List.length_drop]
    at hlength
  rw [hlength, Nat.succ_mul]
  omega

/-- The requests from the `k`-th on list the nodes on the pages up to the last request. -/
theorem NodesChange.listed_from (h : NodesChange dbs) (hlimit : 1 ≤ limit) {fuel k : Nat}
    {items : List NodeResponse}
    (hresult : requestAllPages (nodePages dbs world now) limit fuel k (k * limit) =
      some (.ok items)) :
    ∃ n, k ≤ n ∧ (dbs n).nodes.rows.length < (n + 1) * limit ∧
      (∀ j, k ≤ j → j < n → (j + 1) * limit ≤ (dbs j).nodes.rows.length) ∧
      items.map NodeResponse.nodeId = (List.range' k (n + 1 - k)).flatMap fun j =>
        OffsetPages.page limit (j * limit) (nodeIds dbs j) := by
  induction fuel generalizing k items with
  | zero => cases hresult
  | succ fuel ih =>
      rw [requestAllPages] at hresult
      cases hpage : nodePages dbs world now k limit (k * limit) with
      | error e =>
          rw [hpage] at hresult
          cases hresult
      | ok page =>
          obtain ⟨hshort, hle⟩ := h.length_page hlimit hpage
          simp only [hpage] at hresult
          split at hresult
          · next hlt =>
            cases hresult
            refine ⟨k, Nat.le_refl k, hshort.mp hlt, fun j hkj hjk => ?_, ?_⟩
            · exact absurd hjk (Nat.not_lt.mpr hkj)
            · rw [Nat.add_sub_cancel_left]
              simpa using h.page hpage
          · next hfull =>
            have hlength : page.length = limit := Nat.le_antisymm hle (Nat.le_of_not_lt hfull)
            rw [hlength, ← Nat.succ_mul] at hresult
            obtain ⟨result, hrest, hmap⟩ := Option.map_eq_some_iff.mp hresult
            cases result with
            | error e => cases hmap
            | ok later =>
                cases hmap
                obtain ⟨n, hkn, hend, hbefore, hlater⟩ := ih hrest
                refine ⟨n, Nat.le_of_succ_le hkn, hend, fun j hkj hjn => ?_, ?_⟩
                · rcases Nat.eq_or_lt_of_le hkj with rfl | hkj
                  · exact Nat.le_of_not_lt fun hlt => hfull (hshort.mpr hlt)
                  · exact hbefore j hkj hjn
                · obtain ⟨m, hm⟩ : ∃ m, n + 1 - k = m + 1 := ⟨n - k, by omega⟩
                  have hm' : n + 1 - (k + 1) = m := by omega
                  rw [List.map_append, h.page hpage, hlater, hm, hm', List.range'_succ,
                    List.flatMap_cons]

/-- All pages together list the nodes of the pages up to the last request. -/
theorem NodesChange.listed (h : NodesChange dbs) (hlimit : 1 ≤ limit) {fuel : Nat}
    {items : List NodeResponse}
    (hresult : requestAllPages (nodePages dbs world now) limit fuel 0 0 = some (.ok items)) :
    ∃ n, LastRequest limit dbs n ∧
      items.map NodeResponse.nodeId = OffsetPages.listed limit (nodeIds dbs) n := by
  have hstart : requestAllPages (nodePages dbs world now) limit fuel 0 (0 * limit) =
      some (.ok items) := by
    rwa [Nat.zero_mul]
  obtain ⟨n, -, hend, hbefore, hitems⟩ := h.listed_from hlimit hstart
  refine ⟨n, ⟨hend, fun k hk => hbefore k (Nat.zero_le k) hk⟩, ?_⟩
  rw [hitems, OffsetPages.listed, List.range_eq_range', Nat.sub_zero]

/-- The requests end when the number of nodes is bounded. -/
theorem NodesChange.ends (h : NodesChange dbs) (hlimit : 1 ≤ limit) {bound : Nat}
    (hbound : ∀ k, (dbs k).nodes.rows.length ≤ bound) :
    ∃ fuel result, requestAllPages (nodePages dbs world now) limit fuel 0 0 = some result := by
  have hfuel : ∀ fuel k, bound < (k + fuel + 1) * limit →
      ∃ result, requestAllPages (nodePages dbs world now) limit (fuel + 1) k (k * limit) =
        some result := by
    intro fuel
    induction fuel with
    | zero =>
        intro k hk
        rw [requestAllPages]
        cases hpage : nodePages dbs world now k limit (k * limit) with
        | error e => exact ⟨_, rfl⟩
        | ok page =>
            have hshort := (h.length_page hlimit hpage).1.mpr ((hbound k).trans_lt hk)
            exact ⟨_, if_pos hshort⟩
    | succ fuel ih =>
        intro k hk
        rw [requestAllPages]
        cases hpage : nodePages dbs world now k limit (k * limit) with
        | error e => exact ⟨_, rfl⟩
        | ok page =>
            simp only
            split
            · exact ⟨_, rfl⟩
            · next hfull =>
              have hle := (h.length_page hlimit hpage).2
              have hlength : page.length = limit := Nat.le_antisymm hle (Nat.le_of_not_lt hfull)
              obtain ⟨result, hrest⟩ := ih (k + 1) (by rwa [Nat.add_right_comm k 1 fuel])
              rw [hlength, ← Nat.succ_mul, hrest]
              exact ⟨_, rfl⟩
  obtain ⟨result, hresult⟩ := hfuel bound 0 (by
    rw [Nat.zero_add]
    exact Nat.lt_of_lt_of_le (Nat.lt_succ_self bound) (Nat.le_mul_of_pos_right _ hlimit))
  rw [Nat.zero_mul] at hresult
  exact ⟨_, result, hresult⟩

/-! ## Nodes that stay -/

theorem nodeIds_nodup (dbs : Nat → Db) (k : Nat) : (nodeIds dbs k).Nodup := (dbs k).nodes.unique

/-- The rows before a row are those with smaller ids. -/
theorem mem_take_idxOf_iff {nodes : Table Node} {a b : Node} (ha : a ∈ nodes.rows)
    (hb : b ∈ nodes.rows) :
    b.nodeId ∈ (nodes.rows.map Node.nodeId).take ((nodes.rows.map Node.nodeId).idxOf a.nodeId) ↔
      b.id < a.id := by
  have hnodup : (nodes.rows.map Node.nodeId).Nodup := nodes.unique
  have hordered := List.pairwise_iff_getElem.mp nodes.ordered
  obtain ⟨i, hi, rfl⟩ := List.mem_iff_getElem.mp ha
  obtain ⟨j, hj, rfl⟩ := List.mem_iff_getElem.mp hb
  have hidx : (nodes.rows.map Node.nodeId).idxOf nodes.rows[i].nodeId = i := by
    have hget := hnodup.idxOf_getElem i (by rwa [List.length_map])
    rwa [List.getElem_map] at hget
  rw [hidx, List.mem_take_iff_getElem]
  constructor
  · rintro ⟨m, hm, heq⟩
    rw [List.getElem_map] at heq
    have hrow := List.inj_on_of_nodup_map hnodup (List.getElem_mem _) (List.getElem_mem _) heq
    rw [← hrow]
    exact hordered m i _ hi (Nat.lt_of_lt_of_le hm (Nat.min_le_left _ _))
  · intro hlt
    refine ⟨j, ?_, List.getElem_map _⟩
    rw [List.length_map]
    refine Nat.lt_min.mpr ⟨Nat.lt_of_not_le fun hij => ?_, hj⟩
    rcases Nat.eq_or_lt_of_le hij with rfl | hij
    · exact Nat.lt_irrefl _ hlt
    · exact Nat.lt_asymm hlt (hordered i j hi hj hij)

theorem Remains.mem {n : Nat} {node : Node} (h : Remains dbs n node) {k : Nat} (hk : k ≤ n) :
    node.nodeId ∈ nodeIds dbs k := by
  obtain ⟨row, hrow, -, hname⟩ := h k hk
  exact List.mem_map.mpr ⟨row, hrow, hname⟩

/-- The nodes before one that stays were before it already. -/
theorem NodesChange.idxOf_le (h : NodesChange dbs) {n : Nat} {node : Node} (hstays : Remains dbs n node)
    {k : Nat} (hk : k < n) :
    (nodeIds dbs (k + 1)).idxOf node.nodeId ≤ (nodeIds dbs k).idxOf node.nodeId := by
  obtain ⟨a, ha, haid, haname⟩ := hstays k hk.le
  obtain ⟨a', ha', haid', haname'⟩ := hstays (k + 1) hk
  refine OffsetPages.idxOf_le_of_before (nodeIds_nodup dbs (k + 1)) ?_ (hstays.mem hk)
  intro name hname
  obtain ⟨b', hb', rfl⟩ := List.mem_map.mp (List.mem_of_mem_take hname)
  rw [← haname'] at hname
  have hlt : b'.id < a'.id := (mem_take_idxOf_iff ha' hb').mp hname
  rcases h.step k b' hb' with ⟨b, hb, hbid, hbname⟩ | hnew
  · rw [← haname, ← hbname]
    refine (mem_take_idxOf_iff ha hb).mpr ?_
    rw [hbid, haid, ← haid']
    exact hlt
  · have hgt : a.id < b'.id := hnew a ha
    rw [haid, ← haid'] at hgt
    exact absurd hlt (Nat.lt_asymm hgt)

/-- A node that exists throughout is listed exactly once if and only if it never slips before the
offset of the next request. -/
theorem requestAllPages_complete_iff (h : NodesChange dbs) (hlimit : 1 ≤ limit) {fuel : Nat}
    {items : List NodeResponse}
    (hresult : requestAllPages (nodePages dbs world now) limit fuel 0 0 = some (.ok items)) :
    ∃ n, LastRequest limit dbs n ∧
      ((∀ node, Remains dbs n node →
          (items.map NodeResponse.nodeId).count node.nodeId = 1) ↔
        ∀ node, Remains dbs n node →
          ∀ k < n, ¬ OffsetPages.Slips limit (nodeIds dbs) k node.nodeId) := by
  obtain ⟨n, hlast, hitems⟩ := h.listed hlimit hresult
  have hnode : ∀ node, Remains dbs n node → ((items.map NodeResponse.nodeId).count node.nodeId = 1 ↔
      ∀ k < n, ¬ OffsetPages.Slips limit (nodeIds dbs) k node.nodeId) := by
    intro node hstays
    rw [hitems]
    refine OffsetPages.count_listed_eq_one_iff (fun k _ => nodeIds_nodup dbs k)
      (fun k hk => hstays.mem hk) (fun k hk => h.idxOf_le hstays hk) ?_
    rw [nodeIds, List.length_map]
    exact hlast.short.le
  exact ⟨n, hlast, forall_congr' fun node => forall_congr' fun hstays => hnode node hstays⟩

/-- A node as it is created. -/
def createdNode (nodeId createdAt : String) (id : Nat) : Node where
  id := id
  nodeId := nodeId
  displayName := nodeId
  nodeSigningKey := none
  encryptedSigningKey := none
  onboardingTokenEncrypted := none
  onboardingTokenCreatedAt := none
  onboardingTokenExpiresAt := none
  nodeType := .physical
  osType := none
  hostname := none
  heartbeatIntervalSec := 5
  allowedWorkdirs := []
  tags := []
  allowShell := false
  allowModal := false
  isEnabled := true
  firstSeenAt := none
  lastSeenAt := none
  lastRequestTs := none
  lastBootId := none
  createdAt := createdAt
  updatedAt := createdAt

/-- Node `a` with an older node than `b`. -/
def twoNodes : Table Node :=
  (Table.empty.insert (createdNode "a" "1") fun _ => rfl).insert (createdNode "b" "2") fun _ => rfl

/-- Two nodes, of which the first one is deleted after the first request. -/
def deletedDbs : Nat → Db
  | 0 => { nodes := twoNodes }
  | _ + 1 => { nodes := twoNodes.delete fun row => row.nodeId = "a" }

theorem twoNodes_rows : twoNodes.rows = [createdNode "a" "1" 1, createdNode "b" "2" 2] := rfl

theorem deletedDbs_succ (k : Nat) :
    (deletedDbs (k + 1)).nodes.rows = [createdNode "b" "2" 2] := rfl

theorem deletedDbs_change : NodesChange deletedDbs := by
  constructor
  · intro k
    cases k with
    | zero => decide
    | succ k => simp [deletedDbs_succ]
  · intro k b hb
    rw [deletedDbs_succ, List.mem_singleton] at hb
    subst hb
    refine Or.inl ⟨createdNode "b" "2" 2, ?_, rfl, rfl⟩
    cases k with
    | zero => exact List.mem_cons_of_mem _ List.mem_cons_self
    | succ k => exact List.mem_cons_self

/-- The answer of the server on a node that was never seen. -/
def neverSeen (nodeId createdAt : String) : NodeResponse where
  nodeId := nodeId
  displayName := nodeId
  nodeType := .physical
  osType := none
  hostname := none
  heartbeatIntervalSec := 5
  allowedWorkdirs := []
  tags := []
  isEnabled := true
  firstSeenAt := none
  lastSeenAt := none
  connectionStatus := .neverSeen
  onboardingStatus := .awaitingFirstHeartbeat
  allowShell := false
  allowModal := false
  createdAt := createdAt
  updatedAt := createdAt

theorem twoNodes_change : NodesChange fun _ => { nodes := twoNodes } :=
  ⟨fun _ => by decide, fun _ b hb => Or.inl ⟨b, hb, rfl, rfl⟩⟩

theorem twoNodes_listed :
    requestAllPages (nodePages (fun _ => { nodes := twoNodes }) {} fun _ => 0) 1 3 0 0 =
      some (.ok [neverSeen "a" "1", neverSeen "b" "2"]) := by
  simp only [requestAllPages, twoNodes_change.nodePages_eq, twoNodes_rows]
  rfl

/-- Of two nodes that stay, each is listed exactly once. -/
theorem requestAllPages_complete_two : ∃ n, LastRequest 1 (fun _ => { nodes := twoNodes }) n ∧
    ((∀ node, Remains (fun _ => { nodes := twoNodes }) n node →
        (["a", "b"]).count node.nodeId = 1) ↔
      ∀ node, Remains (fun _ => { nodes := twoNodes }) n node → ∀ k < n,
        ¬ OffsetPages.Slips 1 (nodeIds fun _ => { nodes := twoNodes }) k node.nodeId) :=
  requestAllPages_complete_iff twoNodes_change (Nat.le_refl 1) twoNodes_listed

/-- The first node is deleted after it was listed, and the second one is missed. -/
theorem deleted_misses : NodesChange deletedDbs ∧ (∀ k, createdNode "b" "2" 2 ∈ (deletedDbs k).nodes.rows) ∧
    ∃ items, requestAllPages (nodePages deletedDbs {} fun _ => 0) 1 2 0 0 = some (.ok items) ∧
      "b" ∉ items.map NodeResponse.nodeId := by
  refine ⟨deletedDbs_change, fun k => ?_, [neverSeen "a" "1"], ?_, by decide⟩
  · cases k with
    | zero => exact List.mem_cons_of_mem _ List.mem_cons_self
    | succ k => exact List.mem_cons_self
  · simp only [requestAllPages, deletedDbs_change.nodePages_eq, deletedDbs_succ]
    rfl

end GpuFleet
