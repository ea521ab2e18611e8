import GpuFleet.Server.Secrets
import GpuFleet.Server.Security

/-!
# The migration of stored keys

When the server starts it encrypts the keys that older versions stored as they
are: in `node_signing_key`, or in the legacy column `node_secret_hash`.  It
empties the first column and leaves the second.

Every key stays what it is, and a second migration changes no key at all
(`LegacyDb.migrate_keeps`, `Migrated.migrate_same`).  After a migration no key
is stored as it is if and only if the legacy column was empty from the start
(`migration_iff`).
-/

namespace GpuFleet

open Foundations

/-! ## The migration -/

/-- The database of an older version.  The column `node_secret_hash` is given by the `id` of the
row; to a table without the column it is one of nulls, and so are columns the migration adds. -/
structure LegacyDb where
  db : Db
  nodeSecretHash : Nat → Option String

instance : Inhabited LegacyDb := ⟨⟨{}, fun _ => none⟩⟩

/-- `UPDATE nodes SET node_signing_key = '', encrypted_signing_key WHERE id`. -/
structure SetKeys where
  id : Nat
  encryptedKey : String

/-- The row after the update. -/
def SetKeys.edit (q : SetKeys) (row : Node) : Node :=
  { row with nodeSigningKey := some "", encryptedSigningKey := some q.encryptedKey }

instance : Statement SetKeys LegacyDb where
  apply q d := { d with
    db := { d.db with
      nodes := d.db.nodes.update (fun row => row.id = q.id) q.edit (fun _ => rfl) fun _ => rfl } }

/-- The transaction of the migration. -/
abbrev MigrationTx (α : Type) := Prog SetKeys LegacyDb World Exc α

section Migration

variable (crypto : Crypto)

/-- The key that a row and its legacy column hold as it is. -/
def plaintextKey (row : Node) (hash : Option String) : String :=
  orElse row.nodeSigningKey (orElse hash "")

/-- The step of the migration for a row; `random` is drawn for each row. -/
def migrateRow (random : Nat → String) (row : Node) (hash : Option String) : MigrationTx Unit := do
  let plaintext := plaintextKey row hash
  let stored := orElse row.encryptedSigningKey ""
  let encrypted ←
    if plaintext ≠ "" ∧ stored = "" then
      match crypto.encryptNodeSigningKey (random row.id) plaintext with
      | none => .raise .value
      | some encrypted => pure encrypted
    else pure stored
  if plaintext ≠ "" ∨ some encrypted ≠ row.encryptedSigningKey then
    Prog.execute ⟨row.id, encrypted⟩
  else pure ()

/-- The part of `_migrate_schema` that is about the keys. -/
def migrateSchema (random : Nat → String) : MigrationTx Unit := do
  let rows ← Prog.query fun d : LegacyDb => d.db.nodes.rows.map fun row =>
    (row, d.nodeSecretHash row.id)
  Prog.forEach rows fun row => migrateRow crypto random row.1 row.2

end Migration

/-! ## Runs -/

/-- What happens to the keys: a start of the server, or a heartbeat. -/
inductive KeyOp where
  | migrate (random : Nat → String)
  | heartbeat (nodeId : String) (request : SignedRequest) (random : String) (authenticatedAt : Nat)
      (payload : Option HeartbeatRequest) (now : Nat)

/-- The operation is a start of the server. -/
def KeyOp.isMigrate : KeyOp → Bool
  | migrate _ => true
  | heartbeat .. => false

section Runs

variable (settings : Settings) (crypto : Crypto)

/-- An operation, run alone: whether it succeeded, and what it leaves. -/
def KeyOp.run (op : KeyOp) (d : LegacyDb) (x : World) : Bool × LegacyDb × World :=
  match op with
  | migrate random =>
      let out := (migrateSchema crypto random).atomic d x
      (out.1.isOk, out.2)
  | heartbeat nodeId request random authenticatedAt payload now =>
      let out := ((NodeOp.heartbeat request random authenticatedAt payload now).code settings crypto
        nodeId).atomic d.db x
      (out.1.isOk, { d with db := out.2.1 }, out.2.2)

/-- One operation of a run, and whether a migration had succeeded before it and has after it. -/
structure KeyStep where
  before : LegacyDb
  migratedBefore : Bool
  after : LegacyDb
  migrated : Bool

/-- The steps of a run. -/
def keySteps (migrated : Bool) (d : LegacyDb) (x : World) : List KeyOp → List KeyStep
  | [] => []
  | op :: ops =>
      let out := op.run settings crypto d x
      let migrated' := migrated || (out.1 && op.isMigrate)
      ⟨d, migrated, out.2.1, migrated'⟩ :: keySteps migrated' out.2.1 out.2.2 ops

end Runs

/-- A node that has a key keeps it, and after a migration no node gets one. -/
structure KeyStep.KeepsKeys (crypto : Crypto) (t : KeyStep) : Prop where
  key : ∀ nodeId key, keyOf crypto nodeId t.before.db = some key →
    keyOf crypto nodeId t.after.db = some key
  again : t.migratedBefore = true →
    ∀ nodeId, keyOf crypto nodeId t.after.db = keyOf crypto nodeId t.before.db

/-- No column holds a key as it is. -/
def LegacyDb.NoPlaintext (d : LegacyDb) : Prop :=
  ∀ nodeId row, d.db.nodes.get? nodeId = some row →
    orElse row.nodeSigningKey "" = "" ∧ orElse (d.nodeSecretHash row.id) "" = ""

/-- The legacy column is empty. -/
def LegacyDb.NoLegacyHash (d : LegacyDb) : Prop :=
  ∀ nodeId row, d.db.nodes.get? nodeId = some row → orElse (d.nodeSecretHash row.id) "" = ""

/-! ## What the migration does to a row -/

section Rows

variable {crypto : Crypto} {row : Node} {hash : Option String}

/-- The row is as a migration leaves it: its key is not there as it is, and what the legacy column
holds has been encrypted. -/
def RowMigrated (hash : Option String) (row : Node) : Prop :=
  orElse row.nodeSigningKey "" = "" ∧
    (orElse hash "" ≠ "" → orElse row.encryptedSigningKey "" ≠ "")

/-- The update of a row by the migration: it takes the encrypted key that is there, or encrypts the
plain one, or there is none. -/
inductive Seals (crypto : Crypto) (hash : Option String) (row : Node) : SetKeys → Prop where
  | stored (h : orElse row.encryptedSigningKey "" ≠ "") :
      Seals crypto hash row ⟨row.id, orElse row.encryptedSigningKey ""⟩
  | plaintext {encrypted} (h : orElse row.encryptedSigningKey "" = "")
      (hplain : plaintextKey row hash ≠ "") (hne : encrypted ≠ "")
      (hdec : crypto.decryptNodeSigningKey encrypted = some ⟨plaintextKey row hash, false⟩) :
      Seals crypto hash row ⟨row.id, encrypted⟩
  | missing (h : orElse row.encryptedSigningKey "" = "") (hplain : plaintextKey row hash = "") :
      Seals crypto hash row ⟨row.id, ""⟩

theorem orElse_some_empty (s : String) : orElse (some s) "" = s := by
  rw [orElse]
  split
  · exact Eq.symm ‹_›
  · rfl

theorem orElse_eq_empty {value : Option String} {default : String}
    (h : orElse value default = "") : orElse value "" = "" ∧ default = "" := by
  cases value with
  | none => exact ⟨rfl, h⟩
  | some s =>
      by_cases hs : s = ""
      · subst hs
        exact ⟨rfl, h⟩
      · rw [orElse, if_neg hs] at h
        exact absurd h hs

theorem orElse_of_empty {value : Option String} (h : orElse value "" = "") (default : String) :
    orElse value default = default := by
  cases value with
  | none => rfl
  | some s =>
      by_cases hs : s = ""
      · rw [hs]
        rfl
      · rw [orElse, if_neg hs] at h
        exact absurd h hs

theorem filter_eq_orElse (value : Option String) :
    value.filter (· ≠ "") = if orElse value "" = "" then none else some (orElse value "") := by
  cases value with
  | none => rfl
  | some s => by_cases hs : s = "" <;> simp [orElse, hs]

/-- The key of a row, by its encrypted column. -/
theorem effectiveKey_eq (crypto : Crypto) (row : Node) :
    effectiveKey crypto row =
      (if orElse row.encryptedSigningKey "" = "" then row.nodeSigningKey
        else (crypto.decryptNodeSigningKey (orElse row.encryptedSigningKey "")).map
          DecryptedNodeSigningKey.signingKey).filter (· ≠ "") := by
  rw [effectiveKey, filter_eq_orElse row.encryptedSigningKey]
  by_cases h : orElse row.encryptedSigningKey "" = ""
  · rw [if_pos h, if_pos h]
  · rw [if_neg h, if_neg h]

/-- A key that is there stays, and none comes to a migrated row. -/
theorem Seals.effectiveKey {q : SetKeys} (h : Seals crypto hash row q) :
    effectiveKey crypto (q.edit row) = effectiveKey crypto row ∨
      (effectiveKey crypto row = none ∧ ¬ RowMigrated hash row) := by
  cases h with
  | stored h =>
      left
      rw [effectiveKey_eq, effectiveKey_eq]
      simp only [SetKeys.edit, orElse_some_empty, if_neg h]
  | @plaintext encrypted h hplain hne hdec =>
      have hnew : GpuFleet.effectiveKey crypto (SetKeys.edit ⟨row.id, encrypted⟩ row) =
          some (plaintextKey row hash) := by
        rw [effectiveKey_eq]
        simp only [SetKeys.edit, orElse_some_empty, if_neg hne, hdec]
        simp [hplain]
      rw [hnew, effectiveKey_eq, if_pos h, filter_eq_orElse]
      by_cases hkey : orElse row.nodeSigningKey "" = ""
      · refine Or.inr ⟨by rw [if_pos hkey], fun hmigrated => hmigrated.2 ?_ h⟩
        rwa [plaintextKey, orElse_of_empty hkey] at hplain
      · refine Or.inl ?_
        rw [if_neg hkey, plaintextKey]
        cases hvalue : row.nodeSigningKey with
        | none =>
            rw [hvalue] at hkey
            exact absurd rfl hkey
        | some s =>
            rw [hvalue, orElse_some_empty] at hkey
            rw [orElse_some_empty, orElse, if_neg hkey]
  | missing h hplain =>
      left
      have hkey := (orElse_eq_empty hplain).1
      rw [effectiveKey_eq, effectiveKey_eq, if_pos h, filter_eq_orElse row.nodeSigningKey,
        if_pos hkey]
      rfl

theorem Seals.id_eq {q : SetKeys} (h : Seals crypto hash row q) : q.id = row.id := by
  cases h <;> rfl

/-- The row that is updated is migrated. -/
theorem Seals.migrated {q : SetKeys} (h : Seals crypto hash row q) :
    RowMigrated hash (q.edit row) := by
  refine ⟨rfl, fun hhash => ?_⟩
  cases h with
  | stored h =>
      simp only [SetKeys.edit, orElse_some_empty]
      exact h
  | plaintext h hplain hne hdec =>
      simp only [SetKeys.edit, orElse_some_empty]
      exact hne
  | missing h hplain => exact absurd (orElse_eq_empty hplain).2 hhash

end Rows

/-! ## The loop -/

section Loop

variable {crypto : Crypto} {d : LegacyDb}

/-- All rows are as a migration leaves them. -/
def Migrated (d : LegacyDb) : Prop :=
  ∀ row ∈ d.db.nodes.rows, RowMigrated (d.nodeSecretHash row.id) row

/-- The statement updates a row as the migration does. -/
def SealsRow (crypto : Crypto) (q : SetKeys) (d : LegacyDb) : Prop :=
  ∃ row ∈ d.db.nodes.rows, Seals crypto (d.nodeSecretHash row.id) row q

/-- What holds when the rows `rows` are still to come. -/
structure Pending (rows : List (Node × Option String)) (d : LegacyDb) : Prop where
  there : ∀ row ∈ rows, row.1 ∈ d.db.nodes.rows ∧ row.2 = d.nodeSecretHash row.1.id
  once : rows.Pairwise fun a b => a.1.id ≠ b.1.id
  done : ∀ row ∈ d.db.nodes.rows, (row, d.nodeSecretHash row.id) ∈ rows ∨
    RowMigrated (d.nodeSecretHash row.id) row

/-- The rows after an update. -/
theorem mem_rows_apply {q : SetKeys} {row : Node} :
    row ∈ (Statement.apply q d).db.nodes.rows ↔
      ∃ old ∈ d.db.nodes.rows, (if old.id = q.id then q.edit old else old) = row := by
  show row ∈ (d.db.nodes.rows.map fun a => if decide (a.id = q.id) then q.edit a else a) ↔ _
  simp only [List.mem_map, decide_eq_true_eq]

theorem get?_apply_setKeys (q : SetKeys) (nodeId : String) :
    (Statement.apply q d).db.nodes.get? nodeId =
      (d.db.nodes.get? nodeId).map fun row => if row.id = q.id then q.edit row else row := by
  have hget := Table.get?_update d.db.nodes (fun row => row.id = q.id) q.edit (fun _ => rfl)
    (fun _ => rfl) nodeId
  simp only [decide_eq_true_eq] at hget
  exact hget

/-- A row that is updated is done. -/
theorem Pending.apply {row : Node} {hash : Option String} {rows : List (Node × Option String)}
    (h : Pending ((row, hash) :: rows) d) {q : SetKeys} (hq : Seals crypto hash row q) :
    Pending rows (Statement.apply q d) := by
  obtain ⟨hthere, honce, hdone⟩ := h
  obtain ⟨⟨hrow, hhash⟩, hlater⟩ := List.forall_mem_cons.mp hthere
  obtain ⟨hfirst, honce⟩ := List.pairwise_cons.mp honce
  refine ⟨fun other hother => ?_, honce, fun new hnew => ?_⟩
  · obtain ⟨hmem, hhash'⟩ := hlater other hother
    refine ⟨mem_rows_apply.mpr ⟨other.1, hmem, if_neg ?_⟩, hhash'⟩
    rw [hq.id_eq]
    exact (hfirst other hother).symm
  · obtain ⟨old, hold, rfl⟩ := mem_rows_apply.mp hnew
    by_cases hid : old.id = q.id
    · rw [if_pos hid]
      obtain rfl := Table.eq_of_id hold hrow (hid.trans hq.id_eq)
      simp only at hhash
      rw [hhash] at hq
      exact Or.inr hq.migrated
    · rw [if_neg hid]
      refine (hdone old hold).imp (fun hmem => ?_) id
      rcases List.mem_cons.mp hmem with heq | hmem
      · rw [(Prod.mk.inj heq).1] at hid
        exact absurd hq.id_eq.symm hid
      · exact hmem

/-- A row that needs no update is done. -/
theorem Pending.skip {row : Node} {hash : Option String} {rows : List (Node × Option String)}
    (h : Pending ((row, hash) :: rows) d) (hrow : RowMigrated hash row) : Pending rows d := by
  obtain ⟨hthere, honce, hdone⟩ := h
  obtain ⟨⟨-, hhash⟩, hlater⟩ := List.forall_mem_cons.mp hthere
  refine ⟨hlater, (List.pairwise_cons.mp honce).2, fun other hother => ?_⟩
  rcases hdone other hother with hmem | hmigrated
  · rcases List.mem_cons.mp hmem with heq | hmem
    · obtain ⟨rfl, rfl⟩ := Prod.mk.inj heq
      exact Or.inr hrow
    · exact Or.inl hmem
  · exact Or.inr hmigrated

/-- The step for a row. -/
theorem migrateRow_wp (hcrypto : crypto.Inverts) (random : Nat → String) {row : Node}
    {hash : Option String} {rows : List (Node × Option String)}
    (h : Pending ((row, hash) :: rows) d) :
    (migrateRow crypto random row hash).wp (SealsRow crypto) (fun _ _ => True)
      (fun _ w => Pending rows w) d := by
  obtain ⟨hmem, hhash⟩ := h.there _ (List.mem_cons_self ..)
  have hupdate : ∀ encrypted, Seals crypto hash row ⟨row.id, encrypted⟩ →
      (Prog.execute ⟨row.id, encrypted⟩ : MigrationTx Unit).wp (SealsRow crypto) (fun _ _ => True)
        (fun _ w => Pending rows w) d := fun encrypted hq =>
    ⟨⟨row, hmem, by simp only at hhash; rwa [← hhash]⟩, h.apply hq⟩
  unfold migrateRow
  by_cases hplain : plaintextKey row hash = ""
  · obtain ⟨hkey, hhash'⟩ := orElse_eq_empty hplain
    cases hvalue : row.encryptedSigningKey with
    | none =>
        simp only [hplain, ne_eq, not_true_eq_false, false_and, if_false, false_or, Prog.pure_eq,
          Prog.ret_bind, reduceCtorEq, not_false_eq_true, if_true]
        refine hupdate "" (.missing ?_ hplain)
        rw [hvalue]
        rfl
    | some stored =>
        simp only [hplain, ne_eq, not_true_eq_false, false_and, if_false, false_or, Prog.pure_eq,
          Prog.ret_bind, orElse_some_empty]
        exact h.skip ⟨hkey, fun hne => absurd hhash' hne⟩
  · by_cases hstored : orElse row.encryptedSigningKey "" = ""
    · cases henc : crypto.encryptNodeSigningKey (random row.id) (plaintextKey row hash) with
      | none =>
          simp only [hplain, hstored, henc, ne_eq, not_false_eq_true, and_self, if_true,
            Prog.raise_bind]
          trivial
      | some encrypted =>
          obtain ⟨hne, hdec⟩ := hcrypto _ _ _ henc
          simp only [hplain, hstored, henc, ne_eq, not_false_eq_true, and_self, if_true, true_or,
            Prog.pure_eq, Prog.ret_bind]
          exact hupdate encrypted (.plaintext hstored hplain hne hdec)
    · simp only [hplain, hstored, ne_eq, not_false_eq_true, and_false, if_false, if_true, true_or,
        Prog.pure_eq, Prog.ret_bind]
      exact hupdate _ (.stored hstored)

/-- The migration updates rows one by one, and then all of them are migrated. -/
theorem migrateSchema_wp (hcrypto : crypto.Inverts) (random : Nat → String) (d : LegacyDb) :
    (migrateSchema crypto random).wp (SealsRow crypto) (fun _ _ => True)
      (fun _ w => Migrated w) d := by
  have hpending : Pending (d.db.nodes.rows.map fun row => (row, d.nodeSecretHash row.id)) d := by
    refine ⟨fun pair hpair => ?_, ?_, fun row hrow => Or.inl (List.mem_map_of_mem hrow)⟩
    · obtain ⟨row, hrow, rfl⟩ := List.mem_map.mp hpair
      exact ⟨hrow, rfl⟩
    · exact List.pairwise_map.mpr (d.db.nodes.ordered.imp fun hlt => Nat.ne_of_lt hlt)
  have hloop : (Prog.forEach (d.db.nodes.rows.map fun row => (row, d.nodeSecretHash row.id))
      fun row => migrateRow crypto random row.1 row.2).wp (SealsRow crypto) (fun _ _ => True)
      (fun _ w => Pending [] w) d :=
    Prog.wp_forEach (I := Pending) (fun _ _ _ hw => migrateRow_wp hcrypto random hw) hpending
  rw [migrateSchema, Prog.query_bind, Prog.wp_select]
  exact Prog.wp_imp hloop fun _ w hw row hrow => (hw.done row hrow).resolve_left List.not_mem_nil

/-- An update of the migration keeps every key. -/
theorem SealsRow.keeps {q : SetKeys} (h : SealsRow crypto q d) (nodeId key : String)
    (hkey : keyOf crypto nodeId d.db = some key) :
    keyOf crypto nodeId (Statement.apply q d).db = some key := by
  obtain ⟨row, hrow, hseals⟩ := h
  rw [keyOf] at hkey ⊢
  rw [get?_apply_setKeys]
  cases hget : d.db.nodes.get? nodeId with
  | none =>
      rw [hget] at hkey
      cases hkey
  | some found =>
      rw [hget, Option.bind_some] at hkey
      rw [Option.map_some, Option.bind_some]
      by_cases hid : found.id = q.id
      · obtain rfl := Table.eq_of_id (Table.get?_mem hget) hrow (hid.trans hseals.id_eq)
        rw [if_pos hid]
        rcases hseals.effectiveKey with hsame | ⟨hnone, -⟩
        · rw [hsame, hkey]
        · rw [hnone] at hkey
          cases hkey
      · rw [if_neg hid, hkey]

/-- An update of migrated rows changes no key. -/
theorem SealsRow.same {q : SetKeys} (h : SealsRow crypto q d) (hd : Migrated d) (nodeId : String) :
    keyOf crypto nodeId (Statement.apply q d).db = keyOf crypto nodeId d.db := by
  obtain ⟨row, hrow, hseals⟩ := h
  rw [keyOf, keyOf, get?_apply_setKeys]
  cases hget : d.db.nodes.get? nodeId with
  | none => rfl
  | some found =>
      rw [Option.map_some, Option.bind_some, Option.bind_some]
      by_cases hid : found.id = q.id
      · obtain rfl := Table.eq_of_id (Table.get?_mem hget) hrow (hid.trans hseals.id_eq)
        rw [if_pos hid]
        exact hseals.effectiveKey.resolve_right fun hnone => hnone.2 (hd found hrow)
      · rw [if_neg hid]

/-- Migrated rows stay migrated. -/
theorem SealsRow.migrated {q : SetKeys} (h : SealsRow crypto q d) (hd : Migrated d) :
    Migrated (Statement.apply q d) := by
  obtain ⟨row, hrow, hseals⟩ := h
  intro new hnew
  obtain ⟨old, hold, rfl⟩ := mem_rows_apply.mp hnew
  split
  · rename_i hid
    obtain rfl := Table.eq_of_id hold hrow (hid.trans hseals.id_eq)
    exact hseals.migrated
  · exact hd old hold

end Loop

/-! ## All operations -/

/-- The sealed key is a text, and it is opened again. -/
theorem Primitives.crypto_inverts {p : Primitives} (h : p.Sound) (keys : KeySettings) :
    (p.crypto keys).Inverts := by
  intro random text encrypted henc
  have henc : encryptNodeSigningKey p keys (tokenBytes random) text = .ok encrypted := by
    simp only [Primitives.crypto] at henc
    cases hresult : encryptNodeSigningKey p keys (tokenBytes random) text with
    | error e =>
        rw [hresult] at henc
        cases henc
    | ok encrypted' =>
        rw [hresult] at henc
        rw [Option.some.inj henc]
  have hback := decryptNodeSigningKey_encrypt h (length_tokenBytes random)
    (fun _ => tokenBytes_lt) henc
  refine ⟨fun hempty => ?_, ?_⟩
  · rw [hempty] at hback
    cases hback
  · simp only [Primitives.crypto, hback, Except.toOption]

section Steps

variable {settings : Settings} {crypto : Crypto} {d : LegacyDb}

/-- The same nodes, with the same legacy column. -/
structure SameNodes (d d' : LegacyDb) : Prop where
  hash : d'.nodeSecretHash = d.nodeSecretHash
  ids : ∀ nodeId, (d'.db.nodes.get? nodeId).map Node.id = (d.db.nodes.get? nodeId).map Node.id

theorem SameNodes.trans {d' d'' : LegacyDb} (h : SameNodes d d') (h' : SameNodes d' d'') :
    SameNodes d d'' :=
  ⟨h'.hash.trans h.hash, fun nodeId => (h'.ids nodeId).trans (h.ids nodeId)⟩

theorem SameNodes.noLegacyHash {d' : LegacyDb} (h : SameNodes d d') :
    d'.NoLegacyHash ↔ d.NoLegacyHash := by
  have hcases : ∀ d : LegacyDb, d.NoLegacyHash ↔ ∀ nodeId,
      ∀ id ∈ (d.db.nodes.get? nodeId).map Node.id, orElse (d.nodeSecretHash id) "" = "" := by
    intro d
    refine forall_congr' fun nodeId => ?_
    simp
  rw [hcases, hcases, h.hash]
  simp only [h.ids]

/-- Migrated rows hold no key as it is if and only if the legacy column is empty. -/
theorem Migrated.noPlaintext_iff (h : Migrated d) : d.NoPlaintext ↔ d.NoLegacyHash := by
  constructor
  · exact fun hnone nodeId row hrow => (hnone nodeId row hrow).2
  · exact fun hnone nodeId row hrow => ⟨(h row (Table.get?_mem hrow)).1, hnone nodeId row hrow⟩

theorem SealsRow.sameNodes (q : SetKeys) (d : LegacyDb) : SameNodes d (Statement.apply q d) := by
  refine ⟨rfl, fun nodeId => ?_⟩
  rw [get?_apply_setKeys, Option.map_map]
  refine congrArg (Option.map · _) (funext fun row => ?_)
  rw [Function.comp]
  split <;> rfl

/-- The same views of the keys. -/
theorem SameKeys.sameNodes {db' : Db} (h : SameKeys crypto d.db db') :
    SameNodes d { d with db := db' } := by
  refine ⟨rfl, fun nodeId => ?_⟩
  have hid : ∀ db : Db, (db.nodes.get? nodeId).map Node.id =
      ((db.nodes.get? nodeId).map (keyView crypto)).map Prod.fst := by
    intro db
    rw [Option.map_map]
    rfl
  rw [hid, hid, h nodeId]

theorem SameKeys.migrated {db' : Db} (h : SameKeys crypto d.db db') (hd : Migrated d) :
    Migrated { d with db := db' } := by
  intro row hrow
  have hget := Table.get?_of_mem hrow
  have hview := h row.nodeId
  rw [show db'.nodes.get? row.nodeId = some row from hget, Option.map_some] at hview
  obtain ⟨old, hold, hsame⟩ := Option.map_eq_some_iff.mp hview.symm
  obtain ⟨hid, hkey, hstored, -⟩ : old.id = row.id ∧ old.nodeSigningKey = row.nodeSigningKey ∧
      old.encryptedSigningKey.any (· ≠ "") = row.encryptedSigningKey.any (· ≠ "") ∧ _ := by
    simpa only [keyView, Prod.mk.injEq] using hsame
  obtain ⟨hplain, hsealed⟩ := hd old (Table.get?_mem hold)
  have hany : ∀ value : Option String, orElse value "" ≠ "" ↔ value.any (· ≠ "") = true := by
    intro value
    cases value with
    | none => simp [orElse]
    | some s => simp [orElse_some_empty]
  refine ⟨hkey ▸ hplain, fun hhash => ?_⟩
  rw [hany, ← hstored, ← hany]
  exact hsealed (hid ▸ hhash)

/-- A start of the server. -/
theorem LegacyDb.migrate_keeps (settings : Settings) (d : LegacyDb) (hcrypto : crypto.Inverts)
    (random : Nat → String) (x : World) :
    let out := (KeyOp.migrate random).run settings crypto d x
    SameNodes d out.2.1 ∧
      (∀ nodeId key, keyOf crypto nodeId d.db = some key →
        keyOf crypto nodeId out.2.1.db = some key) ∧
      (out.1 = true → Migrated out.2.1) := by
  have hwp := migrateSchema_wp hcrypto random d
  refine ⟨?_, ?_, fun hok => ?_⟩
  · exact Prog.wp.dbAfter (I := SameNodes d) x hwp
      (fun q w _ hw => hw.trans (SealsRow.sameNodes q w)) ⟨rfl, fun _ => rfl⟩
  · exact Prog.wp.dbAfter (I := fun w => ∀ nodeId key, keyOf crypto nodeId d.db = some key →
      keyOf crypto nodeId w.db = some key) x hwp
      (fun q w hq hw nodeId key hkey => hq.keeps nodeId key (hw nodeId key hkey))
      fun _ _ => id
  · have hresult : ∃ a, (migrateSchema crypto random).resultOf d x = .ok a := by
      simp only [KeyOp.run] at hok
      rw [Prog.resultOf]
      cases hout : ((migrateSchema crypto random).atomic d x).1 with
      | error e =>
          rw [hout] at hok
          cases hok
      | ok a => exact ⟨a, rfl⟩
    obtain ⟨a, hresult⟩ := hresult
    exact Prog.wp.ok x hwp hresult

/-- A start of the server after a migration. -/
theorem Migrated.migrate_same (hcrypto : crypto.Inverts) (hd : Migrated d) (random : Nat → String)
    (x : World) :
    let out := (KeyOp.migrate random).run settings crypto d x
    Migrated out.2.1 ∧ ∀ nodeId, keyOf crypto nodeId out.2.1.db = keyOf crypto nodeId d.db :=
  Prog.wp.dbAfter (I := fun w => Migrated w ∧ ∀ nodeId,
      keyOf crypto nodeId w.db = keyOf crypto nodeId d.db) x
    (migrateSchema_wp hcrypto random d)
    (fun _ _ hq hw => ⟨hq.migrated hw.1, fun nodeId => (hq.same hw.1 nodeId).trans (hw.2 nodeId)⟩)
    ⟨hd, fun _ => rfl⟩

/-- What every step of a run shows. -/
theorem keySteps_spec (hcrypto : crypto.Inverts) {migrated : Bool} {x : World} {ops : List KeyOp}
    (hd : migrated = true → Migrated d) {t : KeyStep}
    (ht : t ∈ keySteps settings crypto migrated d x ops) :
    t.KeepsKeys crypto ∧ (t.migrated = true → Migrated t.after) ∧ SameNodes d t.after := by
  induction ops generalizing migrated d x with
  | nil => cases ht
  | cons op ops ih =>
      have hstep : SameNodes d (op.run settings crypto d x).2.1 ∧
          (∀ nodeId key, keyOf crypto nodeId d.db = some key →
            keyOf crypto nodeId (op.run settings crypto d x).2.1.db = some key) ∧
          (migrated = true → ∀ nodeId,
            keyOf crypto nodeId (op.run settings crypto d x).2.1.db = keyOf crypto nodeId d.db) ∧
          ((migrated || ((op.run settings crypto d x).1 && op.isMigrate)) = true →
            Migrated (op.run settings crypto d x).2.1) := by
        cases op with
        | migrate random =>
            obtain ⟨hnodes, hkeeps, hdone⟩ :=
              LegacyDb.migrate_keeps settings d hcrypto random x
            refine ⟨hnodes, hkeeps, fun h => ((hd h).migrate_same hcrypto random x).2, fun h => ?_⟩
            rcases Bool.or_eq_true_iff.mp h with h | h
            · exact ((hd h).migrate_same hcrypto random x).1
            · exact hdone (Bool.and_eq_true_iff.mp h).1
        | heartbeat nodeId request random authenticatedAt payload now =>
            have hleaves : LeavesKeys crypto ((NodeOp.heartbeat request random authenticatedAt
                payload now).code settings crypto nodeId) d.db :=
              signedHeartbeat_leavesKeys hcrypto settings nodeId request random authenticatedAt
                payload now
            have hsame := hleaves.sameKeys x
            refine ⟨hsame.sameNodes, fun nodeId key hkey => ?_, fun _ nodeId => hsame.keyOf nodeId,
              fun h => ?_⟩
            · exact (hsame.keyOf nodeId).trans hkey
            · rcases Bool.or_eq_true_iff.mp h with h | h
              · exact hsame.migrated (hd h)
              · exact absurd (Bool.and_eq_true_iff.mp h).2 Bool.false_ne_true
      obtain ⟨hnodes, hkeeps, hagain, hmigrated⟩ := hstep
      rcases List.mem_cons.mp ht with rfl | ht
      · exact ⟨⟨hkeeps, hagain⟩, hmigrated, hnodes⟩
      · obtain ⟨hkeeps', hmigrated', hnodes'⟩ := ih hmigrated ht
        exact ⟨hkeeps', hmigrated', hnodes.trans hnodes'⟩

end Steps

/-- In every run of starts and heartbeats every node keeps the key it has, and no start after the
first successful one changes any; and after it no column holds a key as it is, if and only if the
legacy column was empty. -/
theorem migration_iff (p : Primitives) (h : p.Sound) (keys : KeySettings) (settings : Settings)
    (start : LegacyDb) (x : World) (ops : List KeyOp) :
    let steps := keySteps settings (p.crypto keys) false start x ops
    (∀ t ∈ steps, t.KeepsKeys (p.crypto keys) ∧ (t.migrated = true → t.after.NoPlaintext)) ↔
      ((∃ t ∈ steps, t.migrated = true) → start.NoLegacyHash) := by
  intro steps
  have hspec : ∀ t ∈ steps, t.KeepsKeys (p.crypto keys) ∧
      (t.migrated = true → Migrated t.after) ∧ SameNodes start t.after :=
    fun t ht => keySteps_spec (Primitives.crypto_inverts h keys)
      (fun h => absurd h Bool.false_ne_true) ht
  constructor
  · rintro hall ⟨t, ht, hdone⟩
    obtain ⟨-, hmigrated, hnodes⟩ := hspec t ht
    rw [← hnodes.noLegacyHash, ← (hmigrated hdone).noPlaintext_iff]
    exact (hall t ht).2 hdone
  · intro hbare t ht
    obtain ⟨hkeeps, hmigrated, hnodes⟩ := hspec t ht
    refine ⟨hkeeps, fun hdone => ?_⟩
    rw [(hmigrated hdone).noPlaintext_iff, hnodes.noLegacyHash]
    exact hbare ⟨t, ht, hdone⟩

/-- Primitives for concrete runs: a sealed text is the text after a tag of zeros. -/
def plainPrimitives : Primitives where
  sha256 _ := List.replicate 32 0
  hmacSha256 _ _ := List.replicate 32 0
  aesGcmEncrypt _ _ text _ := List.replicate 16 0 ++ text.map (· % 256)
  aesGcmDecrypt _ _ sealedText _ := some (sealedText.drop 16)

theorem plainPrimitives_sound : plainPrimitives.Sound where
  digest _ := rfl
  tag _ _ text _ _ _ := by simp [plainPrimitives]
  bytes _ _ text _ b hb := by
    rcases List.mem_append.mp hb with hzero | htext
    · rw [List.eq_of_mem_replicate hzero]
      decide
    · obtain ⟨c, -, rfl⟩ := List.mem_map.mp htext
      exact Nat.mod_lt _ (by decide)
  opens _ _ text _ _ _ htext := by
    have hmod : text.map (· % 256) = text := by
      rw [List.map_congr_left (g := id), List.map_id]
      exact fun b hb => Nat.mod_eq_of_lt (htext b hb)
    simp [plainPrimitives, hmod]

/-- Settings of a server with both secrets. -/
def plainKeys : KeySettings where
  nodeKeyEncryptionSecret := "storage"
  jwtSecret := "tokens"
  nodeKeyV1FallbackEnabled := true

/-- The server starts twice. -/
def startedTwice : List KeyOp := [.migrate fun _ => "", .migrate fun _ => ""]

/-- A key in `node_signing_key` is encrypted. -/
theorem migration_startedTwice :
    (keySteps {} (plainPrimitives.crypto plainKeys) false ⟨oneNodeDb, fun _ => none⟩ {}
        startedTwice).length = 2 ∧
      ∀ t ∈ keySteps {} (plainPrimitives.crypto plainKeys) false ⟨oneNodeDb, fun _ => none⟩ {}
          startedTwice,
        t.KeepsKeys (plainPrimitives.crypto plainKeys) ∧
          (t.migrated = true → t.after.NoPlaintext) := by
  refine ⟨rfl, ?_⟩
  exact (migration_iff plainPrimitives plainPrimitives_sound plainKeys {}
    ⟨oneNodeDb, fun _ => none⟩ {} startedTwice).mpr fun _ _ _ _ => rfl

/-- A key in the legacy column stays there. -/
theorem legacy_hash_kept :
    ¬ ∀ (p : Primitives), p.Sound → ∀ (keys : KeySettings) (settings : Settings)
      (start : LegacyDb) (x : World) (ops : List KeyOp),
      ∀ t ∈ keySteps settings (p.crypto keys) false start x ops,
        t.KeepsKeys (p.crypto keys) ∧ (t.migrated = true → t.after.NoPlaintext) := by
  intro h
  have hall := h plainPrimitives plainPrimitives_sound plainKeys {}
    ⟨oneNodeDb, fun _ => some "key"⟩ {} startedTwice
  have hdone : (keySteps {} (plainPrimitives.crypto plainKeys) false
      ⟨oneNodeDb, fun _ => some "key"⟩ {} startedTwice).any KeyStep.migrated = true := by
    decide +kernel
  obtain ⟨t, ht, hdone⟩ := List.any_eq_true.mp hdone
  obtain ⟨-, -, hnodes⟩ := keySteps_spec (Primitives.crypto_inverts plainPrimitives_sound plainKeys)
    (fun h => absurd h Bool.false_ne_true) ht
  have hnone : t.after.NoLegacyHash := fun nodeId row hrow => ((hall t ht).2 hdone nodeId row hrow).2
  have hkey := hnodes.noLegacyHash.mp hnone "n" (oneNodeDb.nodes.rows.head (by decide)) (by rfl)
  revert hkey
  decide

end GpuFleet
