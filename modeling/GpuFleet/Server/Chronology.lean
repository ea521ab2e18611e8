import GpuFleet.Foundations.IsoOrder
import GpuFleet.Server.HonestAgent
import GpuFleet.Server.Rejections

/-!
# The order of time stamps

`authenticate_node` asks for time stamps that strictly increase, and compares
them as texts.  Texts of one layout compare as their instants do, and of two
layouts in which one instant can be written no others do
(`layoutsInOrder_iff`): a `Z` sorts after a fraction and after an offset, and
times with different offsets compare by their clocks.

So a sequence of requests is accepted in the order of the instants, and no
request that is later than all those accepted before is called a replay, when
each request that reaches the comparison has the layout of the time stamp
stored for its node (`replay_order`).
-/

namespace GpuFleet

open Foundations

/-! ## Instants -/

/-- The instant of a time stamp that `parse_timestamp` accepts. -/
def timestampInstant (raw : String) : Option Int := (parseTimestamp raw).toOption

/-- The first text denotes an earlier instant. -/
def isEarlier (first second : String) : Bool :=
  match timestampInstant first, timestampInstant second with
  | some i, some j => i < j
  | _, _ => false

theorem isEarlier_iff {first second : String} {i j : Int} (hi : timestampInstant first = some i)
    (hj : timestampInstant second = some j) : isEarlier first second = true ↔ i < j := by
  simp [isEarlier, hi, hj]

/-! ## Layouts -/

/-- The layout of a time stamp, as it is compared and as it is read. -/
def timestampLayout (raw : String) : List Char × Iso.Layout :=
  (Iso.shape raw.toList, Iso.layout (replaceZ raw).toList)

/-- The smaller of two texts of one shape stays the smaller. -/
theorem replaceZ_lt {s t : String} (hshape : Iso.shape s.toList = Iso.shape t.toList) (h : s < t) :
    replaceZ s < replaceZ t := by
  rw [String.lt_iff_toList_lt] at h ⊢
  rw [replaceZ, replaceZ, String.toList_ofList, String.toList_ofList]
  generalize s.toList = s at *
  generalize t.toList = t at *
  induction s generalizing t with
  | nil =>
      cases t with
      | nil => exact absurd h (List.lt_irrefl _)
      | cons d t => cases hshape
  | cons c s ih =>
      cases t with
      | nil => cases hshape
      | cons d t =>
          obtain ⟨hmask, hrest⟩ := Iso.shape_cons_eq.mp hshape
          rw [List.flatMap_cons, List.flatMap_cons]
          rcases List.cons_lt_cons_iff.mp h with hlt | ⟨rfl, hlt⟩
          · -- Only digits of one shape differ, and a `Z` is none.
            have hc : c ≠ 'Z' := by
              rintro rfl
              rw [Iso.eq_of_mask hmask.symm rfl] at hlt
              exact absurd hlt (lt_irrefl _)
            have hd : d ≠ 'Z' := by
              rintro rfl
              rw [Iso.eq_of_mask hmask rfl] at hlt
              exact absurd hlt (lt_irrefl _)
            rw [if_neg hc, if_neg hd]
            exact List.cons_lt_cons_iff.mpr (.inl hlt)
          · exact List.append_left_lt (ih _ hrest hlt)

section Layouts

variable {first second : String} {i j : Int}

theorem instant_lt_of_layout (hlayout : timestampLayout first = timestampLayout second)
    (hi : timestampInstant first = some i) (hj : timestampInstant second = some j)
    (hlt : first < second) : i < j := by
  obtain ⟨hshape, hlayout⟩ := Prod.mk.inj hlayout
  have hlt := replaceZ_lt hshape hlt
  unfold timestampInstant parseTimestamp at hi hj
  cases hd : Iso.fromisoformat (replaceZ first) with
  | none =>
      rw [hd] at hi
      cases hi
  | some d =>
      cases he : Iso.fromisoformat (replaceZ second) with
      | none =>
          rw [he] at hj
          cases hj
      | some e =>
          obtain ⟨hoffset, hclock⟩ := Iso.clock_lt_of_layout hlayout hd he
          have := hclock hlt
          rw [hd] at hi
          rw [he] at hj
          have instant_of : ∀ {d : Iso.DateTime} {i : Int}, (toUtc (momentOf d)).toOption = some i →
              i = momentOf d := by
            intro d i h
            unfold toUtc at h
            split at h
            · exact (Option.some.inj h).symm
            · cases h
          rw [instant_of hi, instant_of hj, momentOf, momentOf, hoffset]
          omega

/-- Texts of one layout compare as their instants do. -/
theorem lt_iff_of_layout (hlayout : timestampLayout first = timestampLayout second)
    (hi : timestampInstant first = some i) (hj : timestampInstant second = some j) :
    first < second ↔ i < j := by
  constructor
  · exact instant_lt_of_layout hlayout hi hj
  · intro hlt
    rcases lt_trichotomy first second with h | rfl | h
    · exact h
    · rw [hi] at hj
      cases hj
      exact absurd hlt (lt_irrefl _)
    · exact absurd (instant_lt_of_layout hlayout.symm hj hi h) (not_lt_of_gt hlt)

/-- Whatever is written in the two layouts, the texts compare as the instants do. -/
def LayoutsInOrder (l l' : List Char × Iso.Layout) : Prop :=
  ∀ first second i j, timestampLayout first = l → timestampLayout second = l' →
    timestampInstant first = some i → timestampInstant second = some j →
      ((first < second ↔ i < j) ∧ (second < first ↔ j < i))

/-- Of two layouts in which one instant can be written, the texts compare as the instants do if and
only if they are one. -/
theorem layoutsInOrder_iff (hi : timestampInstant first = some i)
    (hj : timestampInstant second = some i) :
    LayoutsInOrder (timestampLayout first) (timestampLayout second) ↔
      timestampLayout first = timestampLayout second := by
  constructor
  · intro h
    obtain ⟨hlt, hgt⟩ := h first second i i rfl rfl hi hj
    rcases lt_trichotomy first second with hless | rfl | hless
    · exact absurd (hlt.mp hless) (lt_irrefl _)
    · rfl
    · exact absurd (hgt.mp hless) (lt_irrefl _)
  · rintro h first' second' i' j' hf hs hi' hj'
    have hlayout : timestampLayout first' = timestampLayout second' := by rw [hf, hs, h]
    exact ⟨lt_iff_of_layout hlayout hi' hj', lt_iff_of_layout hlayout.symm hj' hi'⟩

end Layouts

/-! ## Requests that reach the comparison -/

/-- A request that comes to the server. -/
structure Arrival where
  request : SignedRequest
  /-- The bytes an encryption draws while it is handled. -/
  random : String
  /-- The clock reading of the server. -/
  now : Nat

/-- The key that `nodeSigningKey` returns. -/
def usableKey (crypto : Crypto) (node : Node) (random : String) : Option String :=
  match node.encryptedSigningKey.filter (· ≠ "") with
  | none => node.nodeSigningKey.filter (· ≠ "")
  | some encrypted =>
      match crypto.decryptNodeSigningKey encrypted with
      | none => none
      | some decrypted =>
          if decrypted.legacy && (crypto.encryptNodeSigningKey random decrypted.signingKey).isNone then
            none
          else (some decrypted.signingKey).filter (· ≠ "")

/-- The request is correctly signed for an enabled node, within the clock skew, and its nonce is
fresh. -/
structure Genuine (settings : Settings) (crypto : Crypto) (db : Db) (a : Arrival) (node : Node)
    (timestamp : String) (instant : Int) : Prop where
  nodeId : a.request.nodeId = some node.nodeId
  nodeId_ne : node.nodeId ≠ ""
  row : db.nodes.get? node.nodeId = some node
  enabled : node.isEnabled = true
  stamped : a.request.timestamp = some timestamp
  parses : parseTimestamp timestamp = .ok instant
  skew : checkSkew settings a.now instant = .ok ()
  expires : a.now + settings.nonceTtlSec * 1000000 < Iso.maxMicros
  signed : ∃ key nonce signature, usableKey crypto node a.random = some key ∧
    a.request.nonce = some nonce ∧ nonce ≠ "" ∧ a.request.signature = some signature ∧
    signature ≠ "" ∧
    verifyNodeRequestSignature crypto key node.nodeId timestamp nonce
      (crypto.hashRequestBody a.request.body) signature = .ok true ∧
    db.nonces.get? (node.nodeId, nonce) = none

/-- What the comparison reads of a node. -/
def stampOf (db : Db) (nodeId : String) : Option (Bool × Option String) :=
  (db.nodes.get? nodeId).map fun row => (row.isEnabled, row.lastRequestTs)

theorem stampOf_apply {q : NodeStmt} (h : ∀ row, q ≠ .insert row)
    (hq : ∀ row, q.selects row = true → (q.edit row).isEnabled = row.isEnabled ∧
      (q.edit row).lastRequestTs = row.lastRequestTs) (db : Db) :
    stampOf (Statement.apply (Dml.node q) db) = stampOf db := by
  funext nodeId
  rw [stampOf, stampOf, apply_nodes_node, NodeStmt.get?_apply h, Option.map_map]
  refine congrArg (Option.map · _) (funext fun row => ?_)
  simp only [Function.comp]
  split
  · rename_i hsel
    rw [(hq row hsel).1, (hq row hsel).2]
  · rfl

section Parts

variable {settings : Settings} {crypto : Crypto} {db : Db} {nodeId timestamp nonce : String}

theorem nodeSigningKey_spec (node : Node) (random nowIso : String) :
    (nodeSigningKey crypto node nodeId random nowIso).wp (fun _ _ => True)
      (fun e _ => isTimestampReplay e = false ∧ usableKey crypto node random = none)
      (fun key w => usableKey crypto node random = some key ∧ stampOf w = stampOf db ∧
        w.nonces = db.nonces) db := by
  unfold nodeSigningKey usableKey
  simp only
  cases node.encryptedSigningKey.filter (· ≠ "") with
  | none =>
      simp only [Prog.pure_eq, Prog.ret_bind]
      cases node.nodeSigningKey with
      | none => simp [isTimestampReplay, unauthorized]
      | some key => by_cases hne : key = "" <;> simp [hne, isTimestampReplay, unauthorized]
  | some encrypted =>
      simp only
      cases crypto.decryptNodeSigningKey encrypted with
      | none => simp [isTimestampReplay, unauthorized]
      | some decrypted =>
          simp only
          cases decrypted.legacy with
          | false =>
              by_cases hne : decrypted.signingKey = "" <;>
                simp [hne, isTimestampReplay, unauthorized]
          | true =>
              cases crypto.encryptNodeSigningKey random decrypted.signingKey with
              | none => simp [isTimestampReplay, unauthorized]
              | some renewed =>
                  have hstamp : stampOf (Statement.apply
                      (Dml.node (.setEncryptedKey node.id renewed nowIso)) db) = stampOf db :=
                    stampOf_apply (by intro _ h; cases h) (fun _ _ => ⟨rfl, rfl⟩) db
                  have hnonces : (Statement.apply
                      (Dml.node (.setEncryptedKey node.id renewed nowIso)) db).nonces = db.nonces := rfl
                  by_cases hne : decrypted.signingKey = "" <;>
                    simp [hne, hstamp, hnonces, isTimestampReplay, unauthorized]

/-- Storing a request with a fresh nonce succeeds exactly if its time stamp is the greater text. -/
theorem storeRequest_spec {last : Option String} {now : Nat}
    (hstamp : stampOf db nodeId = some (true, last)) :
    (storeRequest settings nodeId timestamp nonce now).wp (fun _ _ => True)
      (fun e _ => if isTimestampReplay e = true then
          db.nonces.get? (nodeId, nonce) = none ∧
            now + settings.nonceTtlSec * 1000000 < Iso.maxMicros ∧
              last.all (· < timestamp) = false
        else ¬ (db.nonces.get? (nodeId, nonce) = none ∧
          now + settings.nonceTtlSec * 1000000 < Iso.maxMicros))
      (fun _ w => db.nonces.get? (nodeId, nonce) = none ∧
        now + settings.nonceTtlSec * 1000000 < Iso.maxMicros ∧ last.all (· < timestamp) = true ∧
          stampOf w = Function.update (stampOf db) nodeId (some (true, some timestamp))) db := by
  obtain ⟨node, hrow, hstamp⟩ := Option.map_eq_some_iff.mp hstamp
  obtain ⟨henabled, rfl⟩ := Prod.mk.inj hstamp
  have hid : node.nodeId = nodeId := Table.get?_key hrow
  have hsel : (NodeStmt.setRequestTs nodeId timestamp (utcNowIso now)).selects node =
      node.lastRequestTs.all (· < timestamp) := by
    simp [NodeStmt.selects, hid, henabled]
  have hcount : (NodeStmt.setRequestTs nodeId timestamp (utcNowIso now)).rowcount db.nodes =
      if node.lastRequestTs.all (· < timestamp) then 1 else 0 := by
    rw [NodeStmt.rowcount, Table.length_select (k := nodeId), hrow, Option.any_some, hsel]
    intro row hrow
    simp only [NodeStmt.selects, Bool.and_eq_true, decide_eq_true_eq] at hrow
    exact hrow.1.1
  unfold storeRequest
  simp only
  by_cases hexpires : now + settings.nonceTtlSec * 1000000 < Iso.maxMicros
  · rw [if_neg (not_not.mpr hexpires)]
    simp only [Prog.executeReturning_bind, Prog.wp_write]
    refine ⟨trivial, ?_⟩
    cases hnonce : db.nonces.get? (nodeId, nonce) with
    | some used => simp [isTimestampReplay]
    | none =>
        simp only [Option.isSome_none, Bool.false_eq_true, if_false, Prog.wp_write,
          apply_nodes_nonce, hcount]
        refine ⟨trivial, ?_⟩
        cases hlast : node.lastRequestTs.all (· < timestamp) with
        | false => simp [isTimestampReplay, hexpires]
        | true =>
            simp only [if_true, ne_eq, not_true_eq_false, if_false]
            refine ⟨trivial, hexpires, trivial, ?_⟩
            have hins : ∀ row, NodeStmt.setRequestTs nodeId timestamp (utcNowIso now) ≠ .insert row := by
              intro _ h
              cases h
            funext other
            rw [stampOf, apply_nodes_node, NodeStmt.get?_apply hins, apply_nodes_nonce]
            by_cases hother : other = nodeId
            · subst hother
              rw [Function.update_self, hrow, Option.map_some, Option.map_some,
                if_pos (hsel.trans hlast)]
              exact congrArg (fun b => some (b, some timestamp)) henabled
            · rw [Function.update_of_ne hother, stampOf]
              cases hget : db.nodes.get? other with
              | none => rfl
              | some row =>
                  have hid' : row.nodeId = other := Table.get?_key hget
                  have hskip : (NodeStmt.setRequestTs nodeId timestamp (utcNowIso now)).selects row =
                      false := by
                    simp [NodeStmt.selects, hid', hother]
                  rw [Option.map_some, hskip]
                  rfl
  · rw [if_pos hexpires]
    simp [isTimestampReplay, hexpires]

theorem parseTimestamp_error {raw : String} {e : Exc} (h : parseTimestamp raw = .error e) :
    isTimestampReplay e = false := by
  unfold parseTimestamp at h
  split at h
  · cases h
    simp [isTimestampReplay, unauthorized]
  · unfold toUtc at h
    split at h
    · cases h
    · cases h
      rfl

theorem checkSkew_error {now : Nat} {instant : Int} {e : Exc}
    (h : checkSkew settings now instant = .error e) : isTimestampReplay e = false := by
  simp only [checkSkew] at h
  split at h
  · cases h
    simp [isTimestampReplay, unauthorized]
  · cases h

theorem verifyNodeRequestSignature_error {key hash signature : String} {e : Exc}
    (h : verifyNodeRequestSignature crypto key nodeId timestamp nonce hash signature = .error e) :
    isTimestampReplay e = false := by
  unfold verifyNodeRequestSignature at h
  split at h
  · cases h
    rfl
  · cases h

/-- A request with the four headers that is genuine is signed with the key the server finds. -/
theorem Genuine.read {a : Arrival} {node : Node} {signature timestamp' : String} {instant : Int}
    (h : Genuine settings crypto db a node timestamp' instant)
    (hid : a.request.nodeId = some nodeId) (hts : a.request.timestamp = some timestamp)
    (hnonce : a.request.nonce = some nonce) (hsig : a.request.signature = some signature) :
    node.nodeId = nodeId ∧ timestamp' = timestamp ∧ ∃ key,
      usableKey crypto node a.random = some key ∧
        verifyNodeRequestSignature crypto key nodeId timestamp nonce
          (crypto.hashRequestBody a.request.body) signature = .ok true ∧
        db.nonces.get? (nodeId, nonce) = none := by
  obtain ⟨key, nonce', signature', hkey, hnonce', -, hsig', -, hverify, hfresh⟩ := h.signed
  obtain rfl : node.nodeId = nodeId := Option.some.inj (h.nodeId.symm.trans hid)
  obtain rfl : timestamp' = timestamp := Option.some.inj (h.stamped.symm.trans hts)
  obtain rfl : nonce' = nonce := Option.some.inj (hnonce'.symm.trans hnonce)
  obtain rfl : signature' = signature := Option.some.inj (hsig'.symm.trans hsig)
  exact ⟨rfl, rfl, key, hkey, hverify, hfresh⟩

/-- An exception says that the request is genuine and late as a text, or that it is not genuine. -/
def Refuses (settings : Settings) (crypto : Crypto) (db : Db) (a : Arrival) (e : Exc) : Prop :=
  if isTimestampReplay e = true then
    ∃ node timestamp instant, Genuine settings crypto db a node timestamp instant ∧
      node.lastRequestTs.all (· < timestamp) = false
  else ∀ node timestamp instant, ¬ Genuine settings crypto db a node timestamp instant

/-- The request of the node is genuine, its time stamp is the greater text, and it is stored. -/
def Admits (settings : Settings) (crypto : Crypto) (db : Db) (a : Arrival) (node : Node)
    (db' : Db) : Prop :=
  ∃ timestamp instant, Genuine settings crypto db a node timestamp instant ∧
    node.lastRequestTs.all (· < timestamp) = true ∧
      stampOf db' = Function.update (stampOf db) node.nodeId (some (true, some timestamp))

/-- An exception of a check that a genuine request passes. -/
theorem Refuses.of_check {a : Arrival} {e : Exc} (he : isTimestampReplay e = false)
    (h : ∀ node timestamp instant, ¬ Genuine settings crypto db a node timestamp instant) :
    Refuses settings crypto db a e := by
  rw [Refuses, he, if_neg Bool.false_ne_true]
  exact h

/-- The last part of authentication, for a request that is genuine if its nonce is fresh. -/
theorem compared_spec {a : Arrival} {w : Db} {node : Node} {instant : Int}
    (hrow : db.nodes.get? nodeId = some node) (henabled : node.isEnabled = true)
    (hstamp : stampOf w = stampOf db)
    (genuine : w.nonces.get? (nodeId, nonce) = none →
      a.now + settings.nonceTtlSec * 1000000 < Iso.maxMicros →
        Genuine settings crypto db a node timestamp instant)
    (fresh : ∀ node timestamp instant, Genuine settings crypto db a node timestamp instant →
      w.nonces.get? (nodeId, nonce) = none) :
    (storeRequest settings nodeId timestamp nonce a.now >>= fun _ => pure node).wp
      (fun _ _ => True) (fun e _ => Refuses settings crypto db a e)
      (fun n w' => Admits settings crypto db a n w') w := by
  have hid : node.nodeId = nodeId := Table.get?_key hrow
  have hstamp' : stampOf w nodeId = some (true, node.lastRequestTs) := by
    rw [hstamp, stampOf, hrow, Option.map_some, henabled]
  rw [Prog.wp_bind]
  refine Prog.wp_mono (storeRequest_spec hstamp') (fun _ _ => id) ?_ ?_
  · intro e w' he
    split at he
    · rename_i hreplay
      rw [Refuses, if_pos hreplay]
      exact ⟨node, timestamp, instant, genuine he.1 he.2.1, he.2.2⟩
    · rename_i hreplay
      refine .of_check (Bool.eq_false_iff.mpr hreplay) fun node' timestamp' instant' h => he ?_
      exact ⟨fresh node' timestamp' instant' h, h.expires⟩
  · rintro _ w' ⟨hfresh, hexpires, hlt, hw'⟩
    refine ⟨timestamp, instant, genuine hfresh hexpires, hlt, ?_⟩
    rw [hw', hstamp, hid]

/-- Authentication from the row of the node on, for a request that is genuine exactly if it is signed
with the key of the node, its nonce is fresh and the clock leaves room for its expiry. -/
theorem signed_spec {a : Arrival} {node : Node} {instant : Int} {signature : String} {refusal : Exc}
    (hrow : db.nodes.get? nodeId = some node) (henabled : node.isEnabled = true)
    (hrefusal : isTimestampReplay refusal = false)
    (genuine : ∀ key, usableKey crypto node a.random = some key →
      verifyNodeRequestSignature crypto key nodeId timestamp nonce
          (crypto.hashRequestBody a.request.body) signature = .ok true →
        db.nonces.get? (nodeId, nonce) = none →
          a.now + settings.nonceTtlSec * 1000000 < Iso.maxMicros →
            Genuine settings crypto db a node timestamp instant)
    (signed : ∀ node' timestamp' instant', Genuine settings crypto db a node' timestamp' instant' →
      ∃ key, usableKey crypto node a.random = some key ∧
        verifyNodeRequestSignature crypto key nodeId timestamp nonce
          (crypto.hashRequestBody a.request.body) signature = .ok true ∧
        db.nonces.get? (nodeId, nonce) = none) :
    (nodeSigningKey crypto node nodeId a.random (utcNowIso a.now) >>= fun key =>
      ofExcept (verifyNodeRequestSignature crypto key nodeId timestamp nonce
        (crypto.hashRequestBody a.request.body) signature) >>= fun valid =>
      if !valid then .raise refusal
      else storeRequest settings nodeId timestamp nonce a.now >>= fun _ => pure node).wp
      (fun _ _ => True) (fun e _ => Refuses settings crypto db a e)
      (fun node w => Admits settings crypto db a node w) db := by
  rw [Prog.wp_bind]
  refine Prog.wp_mono (nodeSigningKey_spec node a.random (utcNowIso a.now)) (fun _ _ => id) ?_ ?_
  · rintro e w ⟨he, hnokey⟩
    refine .of_check he fun node' timestamp' instant' h => ?_
    obtain ⟨key, hkey, -⟩ := signed _ _ _ h
    rw [hnokey] at hkey
    cases hkey
  · rintro key w ⟨hkey, hstamp, hnonces⟩
    -- With another answer of the check than `True`, the request is not signed with this key.
    have forged : verifyNodeRequestSignature crypto key nodeId timestamp nonce
        (crypto.hashRequestBody a.request.body) signature ≠ .ok true →
        ∀ node' timestamp' instant',
          ¬ Genuine settings crypto db a node' timestamp' instant' := by
      intro hfails node' timestamp' instant' h
      obtain ⟨key', hkey', hverify, -⟩ := signed _ _ _ h
      rw [hkey] at hkey'
      exact hfails (Option.some.inj hkey' ▸ hverify)
    rw [Prog.wp_bind]
    cases hverify : verifyNodeRequestSignature crypto key nodeId timestamp nonce
        (crypto.hashRequestBody a.request.body) signature with
    | error e =>
        refine .of_check (verifyNodeRequestSignature_error hverify) (forged ?_)
        rw [hverify]
        nofun
    | ok valid =>
        cases valid with
        | false =>
            rw [ofExcept, Prog.wp_ret, Bool.not_false, if_pos rfl, Prog.wp_raise]
            refine .of_check hrefusal (forged ?_)
            rw [hverify]
            nofun
        | true =>
            rw [ofExcept, Prog.wp_ret, Bool.not_true, if_neg Bool.false_ne_true]
            refine compared_spec hrow henabled hstamp
              (fun hfresh => genuine key hkey hverify (hnonces ▸ hfresh))
              fun node' timestamp' instant' h => ?_
            obtain ⟨-, -, -, hfresh⟩ := signed _ _ _ h
            rw [hnonces]
            exact hfresh

/-- A request is accepted exactly if it is genuine and its time stamp is the greater text. -/
theorem authenticateNode_spec (a : Arrival) :
    (authenticateNode settings crypto a.request a.random a.now).wp (fun _ _ => True)
      (fun e _ => Refuses settings crypto db a e)
      (fun node w => Admits settings crypto db a node w) db := by
  have filtered : ∀ {o : Option String} {t : String}, o = some t → t ≠ "" →
      o.filter (· ≠ "") = some t := by
    rintro _ t rfl ht
    simp [ht]
  unfold authenticateNode
  split
  · rename_i nodeId timestamp nonce signature hid hts hnonce hsig
    simp only [Option.filter_eq_some_iff, decide_eq_true_eq] at hid hts hnonce hsig
    have read := fun {node : Node} {timestamp' : String} {instant : Int}
      (h : Genuine settings crypto db a node timestamp' instant) =>
        h.read hid.1 hts.1 hnonce.1 hsig.1
    cases hparse : parseTimestamp timestamp with
    | error e =>
        refine .of_check (parseTimestamp_error hparse) fun node timestamp' instant h => ?_
        have hparses := h.parses
        rw [(read h).2.1, hparse] at hparses
        cases hparses
    | ok instant =>
        rw [ofExcept, Prog.ret_bind]
        generalize hskew : checkSkew settings a.now instant = skew
        cases skew with
        | error e =>
            refine .of_check (checkSkew_error hskew) fun node timestamp' instant' h => ?_
            have hparses := h.parses
            rw [(read h).2.1, hparse] at hparses
            have hpasses := h.skew
            rw [← Except.ok.inj hparses, hskew] at hpasses
            cases hpasses
        | ok _ =>
            rw [ofExcept, Prog.ret_bind, Prog.wp_bind, Prog.wp_query]
            cases hrow : (db.nodes.get? nodeId).filter Node.isEnabled with
            | none =>
                simp only [Prog.wp_raise]
                refine .of_check ?_ fun node timestamp' instant' h => ?_
                · simp [isTimestampReplay, unauthorized]
                have hfound := h.row
                rw [(read h).1] at hfound
                rw [hfound, Option.filter_some, if_pos h.enabled] at hrow
                cases hrow
            | some node =>
                obtain ⟨hrow, henabled⟩ := Option.filter_eq_some_iff.mp hrow
                have hid' : node.nodeId = nodeId := Table.get?_key hrow
                subst hid'
                refine signed_spec hrow henabled (by simp [isTimestampReplay, unauthorized])
                  (fun key hkey hverify hfresh hexpires =>
                    ⟨hid.1, hid.2, hrow, henabled, hts.1, hparse, hskew, hexpires, key, nonce,
                      signature, hkey, hnonce.1, hnonce.2, hsig.1, hsig.2, hverify, hfresh⟩)
                  fun node' timestamp' instant' h => ?_
                have hrow' := h.row
                rw [(read h).1, hrow] at hrow'
                exact Option.some.inj hrow' ▸ (read h).2.2
  · rename_i hnone
    refine .of_check (by simp [isTimestampReplay, unauthorized]) fun node timestamp instant h => ?_
    obtain ⟨key, nonce, signature, -, hnonce, hnonce', hsig, hsig', -⟩ := h.signed
    have hne : timestamp ≠ "" := by
      rintro rfl
      have hparses := h.parses
      have hempty : (parseTimestamp "").toOption = none := by decide
      rw [hparses] at hempty
      cases hempty
    exact hnone _ _ _ _ (filtered h.nodeId h.nodeId_ne) (filtered h.stamped hne)
      (filtered hnonce hnonce') (filtered hsig hsig')

end Parts

/-! ## Sequences -/

/-- An authentication, with the database before and after it. -/
structure AuthStep where
  before : Db
  arrival : Arrival
  result : Except Exc Node
  after : Db

/-- The authentications of requests that come one after another. -/
def authSteps (settings : Settings) (crypto : Crypto) (db : Db) (x : World) :
    List Arrival → List AuthStep
  | [] => []
  | a :: as =>
      let p := authenticateNode settings crypto a.request a.random a.now
      ⟨db, a, p.resultOf db x, p.dbAfter db x⟩ ::
        authSteps settings crypto (p.dbAfter db x) (p.outsideAfter db x) as

/-- The node and the instant of a request that was accepted. -/
def AuthStep.accepted (s : AuthStep) : Option (String × Int) :=
  match s.result with
  | .ok node => (s.arrival.request.timestamp.bind timestampInstant).map (node.nodeId, ·)
  | .error _ => none

/-- The instant is later than those accepted from the node. -/
def LaterThanAll (heard : List (String × Int)) (nodeId : String) (instant : Int) : Prop :=
  ∀ e ∈ heard, e.1 = nodeId → e.2 < instant

/-- A request that is accepted is later than those accepted before it, and one that is genuine
and later than those is not called a replay. -/
def AuthStep.InOrder (settings : Settings) (crypto : Crypto) (heard : List (String × Int))
    (s : AuthStep) : Prop :=
  (∀ e, s.accepted = some e → LaterThanAll heard e.1 e.2) ∧
    ∀ node timestamp instant, Genuine settings crypto s.before s.arrival node timestamp instant →
      LaterThanAll heard node.nodeId instant → isReplay s.result = false

/-- Each request is answered in order, after the accepted requests of `heard`. -/
def Chronological (settings : Settings) (crypto : Crypto) :
    List (String × Int) → List AuthStep → Prop
  | _, [] => True
  | heard, s :: rest => s.InOrder settings crypto heard ∧
      Chronological settings crypto (s.accepted.toList ++ heard) rest

/-- The time stamp of the request and the one stored for its node compare as their instants do. -/
def comparesInOrder (db : Db) (request : SignedRequest) : Bool :=
  match request.nodeId.bind db.nodes.get?, request.timestamp with
  | some node, some timestamp =>
      node.lastRequestTs.all fun last => decide (last < timestamp) = isEarlier last timestamp
  | _, _ => true

/-- The time stamp of the request has the layout of the one stored for its node. -/
def keepsLayout (db : Db) (request : SignedRequest) : Bool :=
  match request.nodeId.bind db.nodes.get?, request.timestamp with
  | some node, some timestamp =>
      node.lastRequestTs.all fun last => timestampLayout last = timestampLayout timestamp
  | _, _ => true

/-- The time stamp stored for a node is that of its latest accepted request. -/
def Heard (db : Db) (heard : List (String × Int)) : Prop :=
  ∀ nodeId enabled last, stampOf db nodeId = some (enabled, last) →
    match last with
    | none => ∀ e ∈ heard, e.1 ≠ nodeId
    | some last => ∃ instant, timestampInstant last = some instant ∧ (nodeId, instant) ∈ heard ∧
        ∀ e ∈ heard, e.1 = nodeId → e.2 ≤ instant

section Sequences

variable {settings : Settings} {crypto : Crypto} {db : Db} {heard : List (String × Int)}
  {a : Arrival} {node : Node} {timestamp : String} {instant : Int}

theorem Genuine.instant_eq (h : Genuine settings crypto db a node timestamp instant) :
    timestampInstant timestamp = some instant := by
  rw [timestampInstant, h.parses]
  rfl

theorem Genuine.stampOf_eq (h : Genuine settings crypto db a node timestamp instant) :
    stampOf db node.nodeId = some (true, node.lastRequestTs) := by
  rw [stampOf, h.row, Option.map_some, h.enabled]

theorem Genuine.comparesInOrder_eq (h : Genuine settings crypto db a node timestamp instant) :
    comparesInOrder db a.request =
      node.lastRequestTs.all fun last => decide (last < timestamp) = isEarlier last timestamp := by
  rw [comparesInOrder, h.nodeId, Option.bind_some, h.row, h.stamped]

theorem Genuine.keepsLayout_eq (h : Genuine settings crypto db a node timestamp instant) :
    keepsLayout db a.request =
      node.lastRequestTs.all fun last => timestampLayout last = timestampLayout timestamp := by
  rw [keepsLayout, h.nodeId, Option.bind_some, h.row, h.stamped]

/-- Where the two orders agree, the greater text is the later instant. -/
theorem Genuine.later_iff (h : Genuine settings crypto db a node timestamp instant)
    (hdb : Heard db heard) :
    comparesInOrder db a.request = true ↔
      (node.lastRequestTs.all (· < timestamp) = true ↔ LaterThanAll heard node.nodeId instant) := by
  have hheard := hdb _ _ _ h.stampOf_eq
  rw [h.comparesInOrder_eq]
  cases hlast : node.lastRequestTs with
  | none =>
      rw [hlast] at hheard
      refine iff_of_true rfl (iff_of_true rfl fun e he hid => absurd hid (hheard e he))
  | some last =>
      rw [hlast] at hheard
      obtain ⟨latest, hlatest, hmem, hmax⟩ := hheard
      have hlater : LaterThanAll heard node.nodeId instant ↔ isEarlier last timestamp = true := by
        rw [isEarlier_iff hlatest h.instant_eq]
        exact ⟨fun hall => hall _ hmem rfl, fun hlt e he hid => (hmax e he hid).trans_lt hlt⟩
      rw [hlater, Option.all_some, Option.all_some, decide_eq_true_eq, decide_eq_true_eq]
      cases isEarlier last timestamp <;> simp

/-- A request that is stored is the latest of its node, if it is later than the others. -/
theorem Heard.store {db' : Db} (hdb : Heard db heard)
    (h : Genuine settings crypto db a node timestamp instant)
    (hlater : LaterThanAll heard node.nodeId instant)
    (hdb' : stampOf db' =
      Function.update (stampOf db) node.nodeId (some (true, some timestamp))) :
    Heard db' ((node.nodeId, instant) :: heard) := by
  intro nodeId enabled last hstamp
  rw [hdb'] at hstamp
  by_cases hid : nodeId = node.nodeId
  · subst hid
    rw [Function.update_self] at hstamp
    cases hstamp
    refine ⟨instant, h.instant_eq, List.mem_cons_self .., fun e he hnode => ?_⟩
    rcases List.mem_cons.mp he with rfl | he
    · exact le_refl _
    · exact (hlater e he hnode).le
  · rw [Function.update_of_ne hid] at hstamp
    have hold := hdb _ _ _ hstamp
    cases last with
    | none =>
        intro e he hnode
        rcases List.mem_cons.mp he with rfl | he
        · exact hid hnode.symm
        · exact hold e he hnode
    | some last =>
        obtain ⟨latest, hlatest, hmem, hmax⟩ := hold
        refine ⟨latest, hlatest, List.mem_cons_of_mem _ hmem, fun e he hnode => ?_⟩
        rcases List.mem_cons.mp he with rfl | he
        · exact absurd hnode.symm hid
        · exact hmax e he hnode

theorem Genuine.unique {node' : Node} {timestamp' : String} {instant' : Int}
    (h : Genuine settings crypto db a node timestamp instant)
    (h' : Genuine settings crypto db a node' timestamp' instant') :
    node' = node ∧ timestamp' = timestamp ∧ instant' = instant := by
  have hid := Option.some.inj (h'.nodeId.symm.trans h.nodeId)
  have hrow := h'.row
  rw [hid, h.row] at hrow
  obtain rfl := Option.some.inj hrow
  obtain rfl := Option.some.inj (h'.stamped.symm.trans h.stamped)
  exact ⟨rfl, rfl, Except.ok.inj (h'.parses.symm.trans h.parses)⟩

/-- A request is answered in order if and only if the texts compare as the instants do, when it
gets to the comparison. -/
theorem answered_inOrder_iff (hdb : Heard db heard) (x : World) :
    let p := authenticateNode settings crypto a.request a.random a.now
    let s : AuthStep := ⟨db, a, p.resultOf db x, p.dbAfter db x⟩
    (s.InOrder settings crypto heard ↔
        ∀ node timestamp instant, Genuine settings crypto db a node timestamp instant →
          comparesInOrder db a.request = true) ∧
      (s.InOrder settings crypto heard → Heard s.after (s.accepted.toList ++ heard)) := by
  intro p s
  have hspec := @authenticateNode_spec settings crypto db a
  cases hresult : p.resultOf db x with
  | error e =>
      have hnone : s.accepted = none := by simp only [AuthStep.accepted, s, hresult]
      have hafter : s.after = db :=
        (authenticateNode_oneTransaction settings crypto a.request a.random
          a.now).dbAfter_of_error hresult
      refine ⟨?_, fun _ => by rw [hafter, hnone]; exact hdb⟩
      have hreplay : isReplay s.result = isTimestampReplay e := by
        simp only [s, hresult, isReplay]
      rw [AuthStep.InOrder, hnone, hreplay]
      obtain ⟨-, hrefuses⟩ := hspec.error x hresult
      unfold Refuses at hrefuses
      split at hrefuses
      · rename_i he
        obtain ⟨node, timestamp, instant, h, hlt⟩ := hrefuses
        rw [he]
        have hiff := h.later_iff hdb
        rw [hlt] at hiff
        constructor
        · rintro ⟨-, hno⟩ _ _ _ -
          refine hiff.mpr (iff_of_false Bool.false_ne_true fun hlater => ?_)
          cases hno _ _ _ h hlater
        · intro hcompares
          refine ⟨fun _ hs => (by cases hs), fun node' timestamp' instant' h' hlater => ?_⟩
          obtain ⟨rfl, rfl, rfl⟩ := h.unique h'
          exact absurd ((hiff.mp (hcompares _ _ _ h)).mpr hlater) Bool.false_ne_true
      · rename_i he
        refine iff_of_true ⟨fun _ hs => (by cases hs), fun _ _ _ h _ => ?_⟩
          fun _ _ _ h => absurd h (hrefuses _ _ _)
        exact absurd h (hrefuses _ _ _)
  | ok node =>
      obtain ⟨timestamp, instant, h, hlt, hstamp⟩ := hspec.ok x hresult
      have haccepted : s.accepted = some (node.nodeId, instant) := by
        simp only [AuthStep.accepted, s, hresult, h.stamped, Option.bind_some, h.instant_eq,
          Option.map_some]
      have hreplay : isReplay s.result = false := by simp only [s, hresult, isReplay]
      have hiff := h.later_iff hdb
      rw [hlt] at hiff
      rw [AuthStep.InOrder, haccepted, hreplay]
      refine ⟨⟨fun hin _ _ _ _ => hiff.mpr (iff_of_true rfl (hin.1 _ rfl)), fun hcompares => ?_⟩,
        fun hin => hdb.store h (hin.1 _ rfl) hstamp⟩
      refine ⟨?_, fun _ _ _ _ _ => rfl⟩
      rintro _ ⟨⟩
      exact (hiff.mp (hcompares _ _ _ h)).mp rfl

/-- Where the layout is kept, the two orders agree. -/
theorem Genuine.compares_of_layout (h : Genuine settings crypto db a node timestamp instant)
    (hdb : Heard db heard) (hkeeps : keepsLayout db a.request = true) :
    comparesInOrder db a.request = true := by
  have hheard := hdb _ _ _ h.stampOf_eq
  rw [h.comparesInOrder_eq]
  rw [h.keepsLayout_eq] at hkeeps
  cases hlast : node.lastRequestTs with
  | none => rfl
  | some last =>
      rw [hlast] at hheard hkeeps
      obtain ⟨latest, hlatest, -, -⟩ := hheard
      have hlayout := of_decide_eq_true hkeeps
      have hlt := lt_iff_of_layout hlayout hlatest h.instant_eq
      rw [Option.all_some, decide_eq_true_eq, Bool.eq_iff_iff, decide_eq_true_eq,
        isEarlier_iff hlatest h.instant_eq]
      exact hlt

/-- Requests that keep to the layout are answered in order. -/
theorem chronological_of_layouts (hdb : Heard db heard) (x : World) {as : List Arrival}
    (h : ∀ s ∈ authSteps settings crypto db x as, ∀ node timestamp instant,
      Genuine settings crypto s.before s.arrival node timestamp instant →
        keepsLayout s.before s.arrival.request = true) :
    Chronological settings crypto heard (authSteps settings crypto db x as) := by
  induction as generalizing db heard x with
  | nil => trivial
  | cons a as ih =>
      have hstep := @answered_inOrder_iff settings crypto db heard a hdb x
      obtain ⟨hfirst, hrest⟩ := List.forall_mem_cons.mp h
      have hin := hstep.1.mpr fun node timestamp instant hgenuine =>
        hgenuine.compares_of_layout hdb (hfirst node timestamp instant hgenuine)
      exact ⟨hin, ih (hstep.2 hin) _ hrest⟩

/-- Requests are answered in order if and only if the two orders agree at each that gets to the
comparison. -/
theorem chronological_iff (hdb : Heard db heard) (x : World) (as : List Arrival) :
    Chronological settings crypto heard (authSteps settings crypto db x as) ↔
      ∀ s ∈ authSteps settings crypto db x as, ∀ node timestamp instant,
        Genuine settings crypto s.before s.arrival node timestamp instant →
          comparesInOrder s.before s.arrival.request = true := by
  induction as generalizing db heard x with
  | nil => simp [authSteps, Chronological]
  | cons a as ih =>
      have hstep := @answered_inOrder_iff settings crypto db heard a hdb x
      simp only [authSteps, Chronological, List.forall_mem_cons]
      constructor
      · rintro ⟨hin, hrest⟩
        exact ⟨hstep.1.mp hin, (ih (hstep.2 hin) _).mp hrest⟩
      · rintro ⟨hcompares, hrest⟩
        have hin := hstep.1.mpr hcompares
        exact ⟨hin, (ih (hstep.2 hin) _).mpr hrest⟩

theorem heard_nil (hdb : ∀ node ∈ db.nodes.rows, node.lastRequestTs = none) : Heard db [] := by
  intro nodeId enabled last hstamp
  obtain ⟨node, hrow, hnode⟩ := Option.map_eq_some_iff.mp hstamp
  rw [hdb node (Table.get?_mem hrow)] at hnode
  cases hnode
  exact fun e he => absurd he List.not_mem_nil

/-- Only genuine requests are called replays. -/
theorem genuine_of_isReplay {x : World} {as : List Arrival} {s : AuthStep}
    (hs : s ∈ authSteps settings crypto db x as) (h : isReplay s.result = true) :
    ∃ node timestamp instant,
      Genuine settings crypto s.before s.arrival node timestamp instant := by
  induction as generalizing db x with
  | nil => cases hs
  | cons a as ih =>
      rcases List.mem_cons.mp hs with rfl | hs
      · simp only at h
        cases hresult : (authenticateNode settings crypto a.request a.random a.now).resultOf db x with
        | ok node =>
            rw [hresult] at h
            cases h
        | error e =>
            rw [hresult, isReplay] at h
            obtain ⟨-, hrefuses⟩ := (authenticateNode_spec a).error x hresult
            rw [Refuses, if_pos h] at hrefuses
            obtain ⟨node, timestamp, instant, hgenuine, -⟩ := hrefuses
            exact ⟨node, timestamp, instant, hgenuine⟩
      · exact ih hs

/-- Requests to a server that has accepted none yet are answered in the order of their instants, if
each genuine one has the layout of the time stamp stored for its node.  Other layouts do not do: of
two in which one instant can be written, the texts compare as the instants do only if they are one. -/
theorem replay_order :
    (∀ (db : Db) (x : World) (as : List Arrival),
      (∀ node ∈ db.nodes.rows, node.lastRequestTs = none) →
      (∀ s ∈ authSteps settings crypto db x as, ∀ node timestamp instant,
        Genuine settings crypto s.before s.arrival node timestamp instant →
          keepsLayout s.before s.arrival.request = true) →
      Chronological settings crypto [] (authSteps settings crypto db x as)) ∧
    ∀ (first second : String) (i : Int), timestampInstant first = some i →
      timestampInstant second = some i →
        (LayoutsInOrder (timestampLayout first) (timestampLayout second) ↔
          timestampLayout first = timestampLayout second) :=
  ⟨fun _ x _ hdb h => chronological_of_layouts (heard_nil hdb) x h,
    fun _ _ _ => layoutsInOrder_iff⟩

end Sequences

/-! ## Concrete sequences -/

/-- A request of the node of `oneNodeDb` with this time stamp, received at the first moment. -/
def stamped (timestamp nonce : String) : Arrival where
  request :=
    { nodeId := some "n"
      timestamp := some timestamp
      nonce := some nonce
      signature := some (plainCrypto.signNodeRequest (plainCrypto.deriveNodeSigningKey "secret") "n"
        timestamp nonce (plainCrypto.hashRequestBody "{}"))
      body := "{}" }
  random := ""
  now := 0

/-- Two time stamps of one layout. -/
def twoSeconds : List Arrival :=
  [stamped "0001-01-01T00:00:00Z" "a", stamped "0001-01-01T00:00:01Z" "b"]

/-- The second instant is half a second later, and its text sorts before the first. -/
def halfSecond : List Arrival :=
  [stamped "0001-01-01T00:00:00Z" "a", stamped "0001-01-01T00:00:00.500Z" "b"]

theorem twoSeconds_keeps :
    (∀ s ∈ authSteps {} plainCrypto oneNodeDb {} twoSeconds, s.accepted.isSome = true) ∧
      ∀ s ∈ authSteps {} plainCrypto oneNodeDb {} twoSeconds,
        keepsLayout s.before s.arrival.request = true := by
  decide +kernel

theorem replay_order_twoSeconds :
    (∀ s ∈ authSteps {} plainCrypto oneNodeDb {} twoSeconds, s.accepted.isSome = true) ∧
      Chronological {} plainCrypto [] (authSteps {} plainCrypto oneNodeDb {} twoSeconds) :=
  ⟨twoSeconds_keeps.1, replay_order.1 oneNodeDb {} twoSeconds (by decide)
    fun s hs _ _ _ _ => twoSeconds_keeps.2 s hs⟩

/-- A request half a second after the one accepted before it is answered as a replay. -/
theorem half_second_replay :
    ¬ ∀ (settings : Settings) (crypto : Crypto) (db : Db) (x : World) (as : List Arrival),
      (∀ node ∈ db.nodes.rows, node.lastRequestTs = none) →
        Chronological settings crypto [] (authSteps settings crypto db x as) := by
  intro h
  have hdb : ∀ node ∈ oneNodeDb.nodes.rows, node.lastRequestTs = none := by decide
  have hcompares := (chronological_iff (heard_nil hdb) {} halfSecond).mp
    (h {} plainCrypto oneNodeDb {} halfSecond hdb)
  have hreplay : (authSteps {} plainCrypto oneNodeDb {} halfSecond).any (fun s =>
      isReplay s.result && !comparesInOrder s.before s.arrival.request) = true := by
    decide +kernel
  obtain ⟨s, hs, hbad⟩ := List.any_eq_true.mp hreplay
  obtain ⟨hbad, hdiffers⟩ := Bool.and_eq_true_iff.mp hbad
  obtain ⟨node, timestamp, instant, hgenuine⟩ := genuine_of_isReplay hs hbad
  rw [hcompares s hs node timestamp instant hgenuine] at hdiffers
  cases hdiffers

end GpuFleet
