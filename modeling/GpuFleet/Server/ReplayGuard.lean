import GpuFleet.Foundations.Sessions
import GpuFleet.Server.System

/-!
# No request is accepted twice

Requests are authenticated side by side with every other transaction of the
server, a statement at a time.  Whoever sends them may repeat, reorder and drop
them, and the clock may show anything.

The time stamp stored for a node only grows (`Advances`): no statement lowers
it, whatever secret the node has and whether or not its nonces were pruned.  An
authentication that succeeds finds a smaller time stamp than its own and leaves
its own behind (`authenticateNode_serial`), so a request that was accepted is
not accepted again (`accepted_at_most_once`).  That a signature is valid under
one key only is not needed.
-/

namespace GpuFleet

open Foundations

/-! ## The stored time stamp -/

/-- No node is lost, and the time stamp stored for it only grows. -/
def Advances (db db' : Db) : Prop :=
  ∀ nodeId row, db.nodes.get? nodeId = some row → ∃ row', db'.nodes.get? nodeId = some row' ∧
    ∀ last ∈ row.lastRequestTs, ∃ last' ∈ row'.lastRequestTs, last ≤ last'

theorem Advances.refl (db : Db) : Advances db db :=
  fun _ row hrow => ⟨row, hrow, fun last hlast => ⟨last, hlast, String.le_refl last⟩⟩

theorem Advances.trans {a b c : Db} (h : Advances a b) (h' : Advances b c) : Advances a c := by
  intro nodeId row hrow
  obtain ⟨row₁, hrow₁, hlast₁⟩ := h nodeId row hrow
  obtain ⟨row₂, hrow₂, hlast₂⟩ := h' nodeId row₁ hrow₁
  refine ⟨row₂, hrow₂, fun last hlast => ?_⟩
  obtain ⟨last₁, hmem₁, hle₁⟩ := hlast₁ last hlast
  obtain ⟨last₂, hmem₂, hle₂⟩ := hlast₂ last₁ hmem₁
  exact ⟨last₂, hmem₂, String.le_trans hle₁ hle₂⟩

/-- An update never lowers the time stamp of a row it selects. -/
theorem NodeStmt.edit_advances {q : NodeStmt} {row : Node} (hsel : q.selects row = true) :
    ∀ last ∈ row.lastRequestTs, ∃ last' ∈ (q.edit row).lastRequestTs, last ≤ last' := by
  intro last hlast
  cases q with
  | setRequestTs nodeId timestamp nowIso =>
      refine ⟨timestamp, rfl, ?_⟩
      simp only [selects, Bool.and_eq_true] at hsel
      have hlt := hsel.2
      rw [Option.mem_def.mp hlast, Option.all_some, decide_eq_true_eq] at hlt
      exact le_of_lt hlt
  | _ => exact ⟨last, hlast, String.le_refl last⟩

/-- Every statement lets the stored time stamps grow. -/
theorem advances_apply (q : Dml) (db : Db) : Advances db (Statement.apply q db) := by
  by_cases hq : ∃ n, q = .node n
  · obtain ⟨n, rfl⟩ := hq
    intro nodeId row hrow
    by_cases hins : ∃ new, n = .insert new
    · obtain ⟨new, rfl⟩ := hins
      have hkept : (db.nodes.insert (fun id => { new with id }) fun _ => rfl).get? nodeId = some row :=
        Table.get?_insert_of_some hrow
      exact ⟨row, hkept, fun last hlast => ⟨last, hlast, String.le_refl last⟩⟩
    · refine ⟨if n.selects row then n.edit row else row, ?_, ?_⟩
      · rw [apply_nodes_node, NodeStmt.get?_apply fun new e => hins ⟨new, e⟩, hrow, Option.map_some]
      · split
        · rename_i hsel
          exact NodeStmt.edit_advances hsel
        · exact fun last hlast => ⟨last, hlast, String.le_refl last⟩
  · intro nodeId row hrow
    rw [apply_nodes db fun n e => hq ⟨n, e⟩]
    exact Advances.refl db nodeId row hrow

/-! ## What an authentication commits -/

/-- The time stamp stored for the node is smaller than the given one. -/
def Before (nodeId timestamp : String) (db : Db) : Prop :=
  ∀ row, db.nodes.get? nodeId = some row → ∀ last ∈ row.lastRequestTs, last < timestamp

/-- The time stamp stored for the node is the given one or a greater one. -/
def Reached (nodeId timestamp : String) (db : Db) : Prop :=
  ∃ row, db.nodes.get? nodeId = some row ∧ ∃ last ∈ row.lastRequestTs, timestamp ≤ last

theorem Before.of_advances {nodeId timestamp : String} {db db' : Db} (h : Advances db db')
    (hb : Before nodeId timestamp db') : Before nodeId timestamp db := by
  intro row hrow last hlast
  obtain ⟨row', hrow', hgrow⟩ := h nodeId row hrow
  obtain ⟨last', hlast', hle⟩ := hgrow last hlast
  exact lt_of_le_of_lt hle (hb row' hrow' last' hlast')

theorem Reached.of_advances {nodeId timestamp : String} {db db' : Db} (h : Advances db db')
    (hr : Reached nodeId timestamp db) : Reached nodeId timestamp db' := by
  obtain ⟨row, hrow, last, hlast, hle⟩ := hr
  obtain ⟨row', hrow', hgrow⟩ := h nodeId row hrow
  obtain ⟨last', hlast', hle'⟩ := hgrow last hlast
  exact ⟨row', hrow', last', hlast', String.le_trans hle hle'⟩

theorem Reached.not_before {nodeId timestamp : String} {db : Db} (h : Reached nodeId timestamp db) :
    ¬ Before nodeId timestamp db := by
  intro hb
  obtain ⟨row, hrow, last, hlast, hle⟩ := h
  exact String.not_lt.mpr hle (hb row hrow last hlast)

/-- The transaction of an accepted request takes the node from a smaller time stamp to the
request's. -/
structure Accepts (nodeId timestamp : String) (db db' : Db) : Prop where
  advances : Advances db db'
  before : Before nodeId timestamp db
  reached : Reached nodeId timestamp db'

/-- The update of the time stamp counts one row exactly if the stored time stamp was smaller. -/
theorem setRequestTs_rowcount {nodeId timestamp nowIso : String} {db : Db}
    (h : (NodeStmt.setRequestTs nodeId timestamp nowIso).rowcount db.nodes = 1) :
    Before nodeId timestamp db ∧
      Reached nodeId timestamp
        (Statement.apply (Dml.node (.setRequestTs nodeId timestamp nowIso)) db) := by
  have hpos : 0 < (db.nodes.select (NodeStmt.setRequestTs nodeId timestamp nowIso).selects).length := by
    rw [NodeStmt.rowcount] at h
    rw [h]
    exact Nat.one_pos
  obtain ⟨row, hrow⟩ := List.exists_mem_of_length_pos hpos
  obtain ⟨hmem, hsel⟩ := List.mem_filter.mp hrow
  have hfound := Table.get?_of_mem hmem
  have hcond := hsel
  simp only [NodeStmt.selects, Bool.and_eq_true, decide_eq_true_eq] at hcond
  obtain ⟨⟨hid, -⟩, hlt⟩ := hcond
  have hfound : db.nodes.get? nodeId = some row := hid ▸ hfound
  constructor
  · intro row' hrow' last hlast
    rw [hfound] at hrow'
    cases hrow'
    rw [Option.mem_def.mp hlast, Option.all_some, decide_eq_true_eq] at hlt
    exact hlt
  · have hraised := NodeStmt.get?_apply_selected (q := .setRequestTs nodeId timestamp nowIso)
      (by intro _ h; cases h) hfound hsel
    exact ⟨_, hraised, timestamp, rfl, String.le_refl timestamp⟩

/-- Storing a request raises the time stamp of the node to the request's. -/
theorem storeRequest_serial {settings : Settings} {nodeId timestamp nonce : String} {now : Nat}
    {o : Option (Db × Db)} (ho : Prog.Since Advances o) :
    (storeRequest settings nodeId timestamp nonce now).Serial (Prog.Since Advances)
      (fun _ => Prog.Since (Accepts nodeId timestamp)) o := by
  unfold storeRequest
  simp only
  split
  · trivial
  · rw [Prog.serial_bind]
    refine Prog.serial_executeReturning Advances.refl ho fun db w hw => ?_
    split
    · trivial
    · rw [Prog.serial_bind]
      -- The nonce has been inserted, and the session holds the write lock.
      have grows := fun q => hw.trans (advances_apply q w)
      refine Prog.serial_executeReturning Advances.refl (o := some (db, _)) (grows _) fun db w hw => ?_
      split
      · trivial
      · rename_i hcount
        obtain ⟨hb, hr⟩ := setRequestTs_rowcount (not_not.mp hcount)
        exact ⟨hw.trans (advances_apply _ w), hb.of_advances hw, hr⟩

/-- A part of a transaction of which it only matters that it lowers no time stamp. -/
theorem serial_bind_of_advances {α β : Type} {p : Tx α} {g : α → Tx β} {P : β → Option (Db × Db) → Prop}
    {o : Option (Db × Db)} (ho : Prog.Since Advances o)
    (hg : ∀ a o, Prog.Since Advances o → (g a).Serial (Prog.Since Advances) P o) :
    (p >>= g).Serial (Prog.Since Advances) P o :=
  Prog.serial_bind_of_rel Advances.refl Advances.trans advances_apply ho hg

/-- An authentication that succeeds takes the node from a smaller time stamp to the request's. -/
theorem authenticateNode_serial (settings : Settings) (crypto : Crypto) (request : SignedRequest)
    (random : String) (now : Nat) :
    (authenticateNode settings crypto request random now).Serial (Prog.Since Advances)
      (fun _ => Prog.Since fun db db' => ∃ nodeId timestamp, request.nodeId = some nodeId ∧
        request.timestamp = some timestamp ∧ Accepts nodeId timestamp db db') none := by
  unfold authenticateNode
  split
  · rename_i nodeId timestamp nonce signature hid hts _ _
    have hid := (Option.filter_eq_some_iff.mp hid).1
    have hts := (Option.filter_eq_some_iff.mp hts).1
    generalize ofExcept (parseTimestamp timestamp) = parse
    refine serial_bind_of_advances (o := none) Advances.refl fun _ o ho => ?_
    refine serial_bind_of_advances ho fun _ o ho => ?_
    refine serial_bind_of_advances ho fun node o ho => ?_
    split
    · trivial
    · refine serial_bind_of_advances ho fun key o ho => ?_
      refine serial_bind_of_advances ho fun valid o ho => ?_
      split
      · trivial
      · rw [Prog.serial_bind]
        refine Prog.serial_mono (storeRequest_serial ho) fun _ o ho => ?_
        rw [Prog.pure_eq, Prog.Serial]
        exact Prog.Since.mono (fun _ _ h => ⟨nodeId, timestamp, hid, hts, h⟩) ho
  · trivial

/-! ## Runs -/

/-- The transactions of the server: the authentication of a request, the pruning of nonces, and
everything else. -/
inductive ServerOp where
  | authenticate (request : SignedRequest) (random : String) (now : Nat)
  | pruneNonces (now : Nat)
  | other (op : SystemOp)

section Runs

variable (settings : Settings) (crypto : Crypto)

/-- The program of a transaction. -/
def ServerOp.code : ServerOp → Tx Unit
  | authenticate request random now => do
      let _ ← authenticateNode settings crypto request random now
  | pruneNonces now => pruneExpiredNonces (utcNowIso now)
  | other op => do let _ ← op.code settings crypto

/-- What a transaction commits, with the result it returns. -/
def ServerOp.Commits : ServerOp → Option Unit → Db → Db → Prop
  | authenticate request .., some _, db, db' =>
      ∃ nodeId timestamp, request.nodeId = some nodeId ∧ request.timestamp = some timestamp ∧
        Accepts nodeId timestamp db db'
  | _, _, db, db' => Advances db db'

variable {settings crypto}

theorem ServerOp.Commits.advances {op : ServerOp} {r : Option Unit} {db db' : Db}
    (h : op.Commits r db db') : Advances db db' := by
  cases op with
  | authenticate request random now =>
      cases r with
      | none => exact h
      | some _ =>
          obtain ⟨_, _, _, _, h⟩ := h
          exact h.advances
  | pruneNonces now => exact h
  | other op => exact h

theorem ServerOp.code_serial (op : ServerOp) :
    (op.code settings crypto).Serial (Prog.Since (op.Commits none))
      (fun a => Prog.Since (op.Commits (some a))) none := by
  have rel (p : Tx Unit) := Prog.serial_of_rel Advances.refl Advances.trans advances_apply p
    (o := none) Advances.refl
  cases op with
  | authenticate request random now =>
      have h := authenticateNode_serial settings crypto request random now
      exact Prog.serial_bind.mpr (Prog.serial_mono h fun _ _ => id)
  | pruneNonces now => exact rel _
  | other op => exact rel _

/-- A configuration of transactions running side by side. -/
abbrev ServerConf := Conf ServerOp Dml Db World Exc Unit

/-- The session is an authentication of the request that succeeded. -/
def accepted (request : SignedRequest) (s : Session ServerOp Dml Db World Exc Unit) : Bool :=
  match s.tag, s.done with
  | .authenticate request' .., some (.ok _) => request' = request
  | _, _ => false

theorem accepted_iff {request : SignedRequest} {s : Session ServerOp Dml Db World Exc Unit} :
    accepted request s = true ↔
      (∃ random now, s.tag = .authenticate request random now) ∧ s.done = some (.ok ()) := by
  unfold accepted
  split
  · rename_i htag hdone
    simp [htag, hdone]
  · rename_i hno
    simp only [Bool.false_eq_true, false_iff]
    rintro ⟨⟨random, now, htag⟩, hdone⟩
    exact hno _ _ _ _ htag hdone

/-- What every run keeps. -/
structure Guarded (c : ServerConf) : Prop where
  exclusive : c.Exclusive
  serialised : c.Serialised ServerOp.Commits
  /-- The time stamp of an accepted request has been reached. -/
  reached : ∀ (i : Nat) s request, c.sessions[i]? = some s → accepted request s = true →
    ∃ nodeId timestamp, request.nodeId = some nodeId ∧ request.timestamp = some timestamp ∧
      Reached nodeId timestamp c.db
  /-- A request was accepted by one session at most. -/
  once : ∀ (i j : Nat) s t request, c.sessions[i]? = some s → c.sessions[j]? = some t →
    accepted request s = true → accepted request t = true → i = j

theorem guarded_init (db : Db) (x : World) : Guarded (Conf.init db x : ServerConf) where
  exclusive := Conf.exclusive_init db x
  serialised := Conf.serialised_init _ db x
  reached := by
    intro i s request hs
    simp [Conf.init] at hs
  once := by
    intro i j s t request hs
    simp [Conf.init] at hs

theorem Guarded.step {c c' : ServerConf} {a : Act ServerOp Exc} (hc : Guarded c)
    (h : c.step (ServerOp.code settings crypto) a = some c') : Guarded c' := by
  have hx := hc.exclusive.step _ h
  have hser := hc.serialised.step _ ServerOp.code_serial hc.exclusive h
  cases hc.serialised.committed _ h with
  | quiet hdb rest =>
      have old : ∀ (i : Nat) s request, c'.sessions[i]? = some s → accepted request s = true →
          c.sessions[i]? = some s := fun i s request hs ha => rest i s () hs (accepted_iff.mp ha).2
      refine ⟨hx, hser, fun i s request hs ha => ?_, fun i j s t request hs ht ha hb => ?_⟩
      · rw [hdb]
        exact hc.reached i s request (old i s request hs ha) ha
      · exact hc.once i j s t request (old i s request hs ha) (old j t request ht hb) ha hb
  | session i s r hs hopen hdb rest =>
      have hadv := hdb.advances
      -- A session accepted before, or session `i` accepted now.
      have cases_of : ∀ (j : Nat) t request, c'.sessions[j]? = some t → accepted request t = true →
          (j ≠ i ∧ c.sessions[j]? = some t) ∨ (j = i ∧ ∃ nodeId timestamp,
            request.nodeId = some nodeId ∧ request.timestamp = some timestamp ∧
              Accepts nodeId timestamp c.db c'.db) := by
        intro j t request ht ha
        obtain ⟨⟨random, now, htag⟩, hdone⟩ := accepted_iff.mp ha
        refine (rest j t () ht hdone).imp_right fun ⟨hj, htags, hr⟩ => ⟨hj, ?_⟩
        rw [← htags, htag, hr] at hdb
        exact hdb
      -- A request accepted before is not accepted now.
      have absent : ∀ (j : Nat) t request, c.sessions[j]? = some t → accepted request t = true →
          ¬ ∃ nodeId timestamp, request.nodeId = some nodeId ∧
            request.timestamp = some timestamp ∧ Accepts nodeId timestamp c.db c'.db := by
        rintro j t request ht ha ⟨nodeId, timestamp, hid, hts, hacc⟩
        obtain ⟨nodeId', timestamp', hid', hts', hreached⟩ := hc.reached j t request ht ha
        rw [hid] at hid'
        rw [hts] at hts'
        cases hid'
        cases hts'
        exact hreached.not_before hacc.before
      refine ⟨hx, hser, fun j t request ht ha => ?_, fun j k t u request ht hu ha hb => ?_⟩
      · rcases cases_of j t request ht ha with ⟨-, ht₀⟩ | ⟨-, nodeId, timestamp, hid, hts, hacc⟩
        · obtain ⟨nodeId, timestamp, hid, hts, hr⟩ := hc.reached j t request ht₀ ha
          exact ⟨nodeId, timestamp, hid, hts, hr.of_advances hadv⟩
        · exact ⟨nodeId, timestamp, hid, hts, hacc.reached⟩
      · rcases cases_of j t request ht ha with ⟨-, ht₀⟩ | ⟨hji, hacc⟩
        · rcases cases_of k u request hu hb with ⟨-, hu₀⟩ | ⟨-, hacc⟩
          · exact hc.once j k t u request ht₀ hu₀ ha hb
          · exact absurd hacc (absent j t request ht₀ ha)
        · rcases cases_of k u request hu hb with ⟨-, hu₀⟩ | ⟨hki, -⟩
          · exact absurd hacc (absent k u request hu₀ hb)
          · rw [hji, hki]

/-- In every run a request passes authentication at most once. -/
theorem accepted_at_most_once {db : Db} {x : World} {as : List (Act ServerOp Exc)}
    {c : ServerConf}
    (h : (Conf.init db x : ServerConf).run (ServerOp.code settings crypto) as = some c)
    (request : SignedRequest) : c.sessions.countP (accepted request) ≤ 1 := by
  have hc : Guarded c := Conf.run_induction _ (fun _ _ _ hc h => hc.step h) h (guarded_init db x)
  refine Conf.countP_le_one ?_
  exact fun i j s t hs ht => hc.once i j s t request hs ht

end Runs

/-- A request, its authentication at 0 s, the pruning of its expired nonce at 200 s and the
authentication of a copy. -/
def replayed (request : SignedRequest) : List (Act ServerOp Exc) :=
  .spawn (.authenticate request "" 0) :: List.replicate 4 (.turn 0) ++
    .spawn (.pruneNonces 200000000) :: List.replicate 2 (.turn 1) ++
      .spawn (.authenticate request "" 200000000) :: List.replicate 4 (.turn 2)

/-- A copy that comes after its nonce was pruned is not accepted. -/
theorem accepted_at_most_once_replayed :
    ∃ c : ServerConf, (Conf.init oneNodeDb {}).run (ServerOp.code {} plainCrypto)
        (replayed (buildHeaders plainCrypto "n" "secret" "{}" "a" 0)) = some c ∧
      c.sessions.countP (accepted (buildHeaders plainCrypto "n" "secret" "{}" "a" 0)) ≤ 1 := by
  have hruns : ((Conf.init oneNodeDb {} : ServerConf).run (ServerOp.code {} plainCrypto)
      (replayed (buildHeaders plainCrypto "n" "secret" "{}" "a" 0))).isSome = true := by
    decide +kernel
  obtain ⟨c, hc⟩ := Option.isSome_iff_exists.mp hruns
  exact ⟨c, hc, accepted_at_most_once hc _⟩

end GpuFleet
