import GpuFleet.Foundations.Triple
import GpuFleet.Server.Auth

/-!
# An honest agent against the replay check

The server accepts a request only if its time stamp is greater, as a text, than
the one it accepted last.  The agent cuts its time stamps to whole seconds, so
two requests signed within one second carry the same one, and the second is
rejected as a replay (`honest_request_rejected`).

`no_replay_iff` says when that happens.  Requests of an honest agent that
arrive in order are all accepted if and only if they are signed in strictly
increasing seconds, all after the last time stamp accepted before.
-/

namespace GpuFleet

open Foundations

/-! ## The parts of authentication -/

/-- The server finds this key for the node, and goes on finding it after it has encrypted the
key anew. -/
def KeyKnown (crypto : Crypto) (node : Node) (key : String) : Prop :=
  match node.encryptedSigningKey.filter (· ≠ "") with
  | none => node.nodeSigningKey = some key
  | some encrypted => ∃ legacy, crypto.decryptNodeSigningKey encrypted = some ⟨key, legacy⟩ ∧
      (legacy = true → ∀ random, ∃ renewed, crypto.encryptNodeSigningKey random key = some renewed ∧
        renewed ≠ "" ∧ crypto.decryptNodeSigningKey renewed = some ⟨key, false⟩)

/-- The enabled node with its key and the last time stamp accepted from it. -/
structure Serves (crypto : Crypto) (db : Db) (nodeId key : String) (last : Option String) :
    Prop where
  row : ∃ node, db.nodes.get? nodeId = some node ∧ node.isEnabled = true ∧
    KeyKnown crypto node key ∧ node.lastRequestTs = last
  key : key ≠ ""

/-- Signatures are hexadecimal digests. -/
def Crypto.SignsHex (crypto : Crypto) : Prop :=
  ∀ key nodeId timestamp nonce hash,
    crypto.signNodeRequest key nodeId timestamp nonce hash ≠ "" ∧
      ∀ c ∈ (crypto.signNodeRequest key nodeId timestamp nonce hash).toList, c.toNat ≤ 127

theorem parseTimestamp_utcNowIso {now : Nat} (h : now < Iso.maxMicros) :
    parseTimestamp (utcNowIso now) = .ok (wholeSecond now : Int) := by
  rw [parseTimestamp, replaceZ_utcNowIso h, utcNowIso,
    Iso.fromisoformat_isoformat (Iso.seconds_lt h)]
  simp only [momentOf, Option.getD_some, Int.sub_zero]
  exact toUtc_natCast (Nat.lt_of_le_of_lt (wholeSecond_le now) h)

section Parts

variable {crypto : Crypto} {nodeId key : String} {last : Option String} {db : Db}

/-- The server finds the key of a node it serves.  The node stays served. -/
theorem nodeSigningKey_wp {node : Node} (hrow : db.nodes.get? nodeId = some node)
    (henabled : node.isEnabled = true) (hknown : KeyKnown crypto node key)
    (hlast : node.lastRequestTs = last) (hkey : key ≠ "") (random nowIso : String) :
    (nodeSigningKey crypto node nodeId random nowIso).wp (fun _ _ => True) (fun _ _ => False)
      (fun k w => k = key ∧ Serves crypto w nodeId key last ∧ w.nonces = db.nonces) db := by
  have hserves : Serves crypto db nodeId key last := ⟨⟨node, hrow, henabled, hknown, hlast⟩, hkey⟩
  unfold nodeSigningKey
  unfold KeyKnown at hknown
  cases hsome : node.encryptedSigningKey.filter (· ≠ "") with
  | none =>
      rw [hsome] at hknown
      simp only [hknown, Option.getD_some, Prog.pure_eq, Prog.ret_bind, if_neg hkey]
      exact ⟨rfl, hserves, rfl⟩
  | some encrypted =>
      rw [hsome] at hknown
      obtain ⟨legacy, hdec, hrenew⟩ := hknown
      simp only [hdec]
      cases legacy with
      | false =>
          simp only [Prog.pure_eq, Prog.ret_bind, if_neg hkey]
          exact ⟨rfl, hserves, rfl⟩
      | true =>
          obtain ⟨renewed, henc, hne, hdec'⟩ := hrenew rfl random
          simp only [henc, Prog.execute_bind, Prog.pure_eq, Prog.ret_bind, if_neg hkey,
            if_true, Prog.wp_write]
          refine ⟨trivial, rfl, ⟨?_, hkey⟩, rfl⟩
          refine ⟨{ node with encryptedSigningKey := some renewed, updatedAt := nowIso }, ?_,
            henabled, ?_, hlast⟩
          · exact NodeStmt.get?_apply_selected (q := .setEncryptedKey node.id renewed nowIso)
              (by intro _ h; cases h) hrow (decide_eq_true rfl)
          · have hfilter : (some renewed).filter (· ≠ "") = some renewed := by
              simp [hne]
            simp only [KeyKnown, hfilter]
            exact ⟨false, hdec', nofun⟩

/-- Storing a request with a fresh nonce succeeds if and only if its time stamp is greater
than the last one, and is a replay otherwise. -/
theorem storeRequest_wp {settings : Settings} {timestamp nonce : String} {now : Nat}
    (hdb : Serves crypto db nodeId key last) (hfresh : db.nonces.get? (nodeId, nonce) = none)
    (hexpires : now + settings.nonceTtlSec * 1000000 < Iso.maxMicros) :
    (storeRequest settings nodeId timestamp nonce now).wp (fun _ _ => True)
      (fun e _ => isTimestampReplay e = true ∧ last.all (· < timestamp) = false)
      (fun _ w => last.all (· < timestamp) = true ∧
        Serves crypto w nodeId key (some timestamp) ∧
        ∀ n, n ≠ nonce → w.nonces.get? (nodeId, n) = db.nonces.get? (nodeId, n)) db := by
  obtain ⟨⟨node, hrow, henabled, hknown, rfl⟩, hkey⟩ := hdb
  have hid : node.nodeId = nodeId := Table.get?_key hrow
  have hsel : (NodeStmt.setRequestTs nodeId timestamp (utcNowIso now)).selects node =
      node.lastRequestTs.all (· < timestamp) := by
    simp [NodeStmt.selects, hid, henabled]
  have hcount : (NodeStmt.setRequestTs nodeId timestamp (utcNowIso now)).rowcount db.nodes =
      if node.lastRequestTs.all (· < timestamp) then 1 else 0 := by
    rw [NodeStmt.rowcount, Table.length_select (k := nodeId), hrow, Option.any_some, hsel]
    intro row hrow
    simp only [NodeStmt.selects, Bool.and_eq_true, decide_eq_true_eq] at hrow
    exact hrow.1.1
  simp only [storeRequest, hexpires, not_true_eq_false, if_false, Prog.executeReturning_bind,
    Prog.wp_write, hfresh, Option.isSome_none, Bool.false_eq_true, apply_nodes_nonce, hcount]
  refine ⟨trivial, trivial, ?_⟩
  cases hlast : node.lastRequestTs.all (· < timestamp) with
  | false => simp [isTimestampReplay]
  | true =>
      simp only [if_true, ne_eq, not_true_eq_false, if_false]
      refine ⟨trivial, ⟨⟨{ node with lastRequestTs := some timestamp, updatedAt := utcNowIso now }, ?_,
        henabled, hknown, rfl⟩, hkey⟩, fun n hn => ?_⟩
      · exact NodeStmt.get?_apply_selected (q := .setRequestTs nodeId timestamp (utcNowIso now))
          (by intro _ h; cases h) hrow (hsel.trans hlast)
      · refine NonceStmt.get?_insert_of_ne fun he => hn ?_
        exact (Prod.mk.inj he).2.symm

/-- A computation that succeeds goes on with its result. -/
theorem wp_ofExcept_ok {α : Type} {P : Dml → Db → Prop} {exn : Exc → Db → Prop}
    {post : α → Db → Prop} (a : α) : (ofExcept (.ok a)).wp P exn post db = post a db := rfl

theorem checkSkew_ok {settings : Settings} {now : Nat} {requestTime : Int}
    (h : ((now : Int) - requestTime).natAbs ≤ settings.nodeAllowedClockSkewSec * 1000000) :
    checkSkew settings now requestTime = .ok () := by
  simp only [checkSkew]
  exact if_neg (Nat.not_lt.mpr h)

/-- A signature of the signing function is accepted. -/
theorem verifyNodeRequestSignature_ok (hsign : crypto.SignsHex)
    (key nodeId timestamp nonce hash : String) :
    verifyNodeRequestSignature crypto key nodeId timestamp nonce hash
      (crypto.signNodeRequest key nodeId timestamp nonce hash) = .ok true := by
  have hascii : (crypto.signNodeRequest key nodeId timestamp nonce hash).toList.any
      (fun c => decide (127 < c.toNat)) = false := by
    rw [List.any_eq_false]
    intro c hc
    simpa using (hsign key nodeId timestamp nonce hash).2 c hc
  simp [verifyNodeRequestSignature, hascii]

theorem some_filter_ne_empty {s : String} (h : s ≠ "") : (some s).filter (· ≠ "") = some s := by
  simp [h]

/-- A request signed with the right key, within the clock skew and with a fresh nonce is
accepted if and only if its time stamp is greater than the last one, and is a replay
otherwise. -/
theorem authenticateNode_wp {settings : Settings} {nodeSecret nonce : String}
    {built received : Nat} (body random : String) (hsign : crypto.SignsHex) (hid : nodeId ≠ "") (hnonce : nonce ≠ "")
    (hdb : Serves crypto db nodeId (crypto.deriveNodeSigningKey nodeSecret) last)
    (hfresh : db.nonces.get? (nodeId, nonce) = none) (hbuilt : built < Iso.maxMicros)
    (hskew : ((received : Int) - wholeSecond built).natAbs ≤
      settings.nodeAllowedClockSkewSec * 1000000)
    (hexpires : received + settings.nonceTtlSec * 1000000 < Iso.maxMicros) :
    (authenticateNode settings crypto (buildHeaders crypto nodeId nodeSecret body nonce built)
        random received).wp (fun _ _ => True)
      (fun e _ => isTimestampReplay e = true ∧ last.all (· < utcNowIso built) = false)
      (fun _ w => last.all (· < utcNowIso built) = true ∧
        Serves crypto w nodeId (crypto.deriveNodeSigningKey nodeSecret)
          (some (utcNowIso built)) ∧
        ∀ n, n ≠ nonce → w.nonces.get? (nodeId, n) = db.nonces.get? (nodeId, n)) db := by
  obtain ⟨⟨node, hrow, henabled, hknown, hlast⟩, hkey⟩ := hdb
  have hsig := (hsign (crypto.deriveNodeSigningKey nodeSecret) nodeId (utcNowIso built) nonce
    (crypto.hashRequestBody body)).1
  have hparse := parseTimestamp_utcNowIso hbuilt
  have htime := utcNowIso_ne_empty hbuilt
  have hchecked := checkSkew_ok hskew
  -- What follows speaks of the time stamp as a text only.
  unfold buildHeaders
  generalize utcNowIso built = timestamp at *
  generalize (wholeSecond built : Int) = requestTime at *
  simp only [authenticateNode, some_filter_ne_empty hid, some_filter_ne_empty htime,
    some_filter_ne_empty hnonce, some_filter_ne_empty hsig]
  rw [Prog.wp_bind, hparse, wp_ofExcept_ok, Prog.wp_bind, hchecked, wp_ofExcept_ok, Prog.wp_bind,
    Prog.wp_query, hrow, Option.filter_some, if_pos henabled]
  simp only
  rw [Prog.wp_bind]
  refine Prog.wp_mono (nodeSigningKey_wp hrow henabled hknown hlast hkey random (utcNowIso received))
    (fun _ _ => id) (fun _ _ => False.elim) ?_
  rintro _ w ⟨rfl, hserves, hnonces⟩
  rw [Prog.wp_bind, verifyNodeRequestSignature_ok hsign, wp_ofExcept_ok, Bool.not_true,
    if_neg Bool.false_ne_true, Prog.wp_bind]
  refine Prog.wp_imp (storeRequest_wp hserves (by rw [hnonces]; exact hfresh) hexpires) ?_
  rintro _ w' ⟨hlt, hserves', hkept⟩
  exact ⟨hlt, hserves', fun n hn => by rw [hkept n hn, hnonces]⟩

end Parts

/-! ## Sequences of requests -/

/-- A request of the agent on its way: when it was signed and when it is handled. -/
structure Delivery where
  built : Nat
  received : Nat
  nonce : String
  body : String
  /-- The bytes an encryption of the server draws while handling it. -/
  random : String

section Sequences

variable (settings : Settings) (crypto : Crypto) (nodeId nodeSecret : String)

/-- How the server answers requests that arrive one after another. -/
def outcomes (db : Db) (x : World) : List Delivery → List (Except Exc Node)
  | [] => []
  | d :: ds =>
      let p := authenticateNode settings crypto
        (buildHeaders crypto nodeId nodeSecret d.body d.nonce d.built) d.random d.received
      p.resultOf db x :: outcomes (p.dbAfter db x) (p.outsideAfter db x) ds

/-- Requests with fresh nonces, handled within the clock skew. -/
structure Honest (db : Db) (ds : List Delivery) : Prop where
  skew : ∀ d ∈ ds, ((d.received : Int) - wholeSecond d.built).natAbs ≤
    settings.nodeAllowedClockSkewSec * 1000000
  clock : ∀ d ∈ ds, d.built < Iso.maxMicros ∧
    d.received + settings.nonceTtlSec * 1000000 < Iso.maxMicros
  fresh : (ds.map Delivery.nonce).Nodup
  unused : ∀ d ∈ ds, d.nonce ≠ "" ∧ db.nonces.get? (nodeId, d.nonce) = none

/-- The answer calls the request a replay. -/
def isReplay : Except Exc Node → Bool
  | .error e => isTimestampReplay e
  | .ok _ => false

/-- Each time stamp is greater than the one before it. -/
def Increasing : Option String → List Delivery → Prop
  | _, [] => True
  | last, d :: ds => last.all (· < utcNowIso d.built) = true ∧
      Increasing (some (utcNowIso d.built)) ds

variable {settings crypto nodeId nodeSecret}

theorem no_replay_iff_increasing (hsign : crypto.SignsHex) (hid : nodeId ≠ "") {db : Db} {x : World}
    {last : Option String} {ds : List Delivery}
    (hdb : Serves crypto db nodeId (crypto.deriveNodeSigningKey nodeSecret) last)
    (h : Honest settings nodeId db ds) :
    (∀ r ∈ outcomes settings crypto nodeId nodeSecret db x ds, isReplay r = false) ↔
      Increasing last ds := by
  induction ds generalizing db x last with
  | nil => simp [outcomes, Increasing]
  | cons d ds ih =>
      obtain ⟨hbuilt, hexpires⟩ := h.clock d (List.mem_cons_self ..)
      obtain ⟨hnonce, hunused⟩ := h.unused d (List.mem_cons_self ..)
      have hwp := authenticateNode_wp d.body d.random hsign hid hnonce hdb
        hunused hbuilt (h.skew d (List.mem_cons_self ..)) hexpires
      rw [outcomes, Increasing, List.forall_mem_cons]
      cases hlast : last.all (· < utcNowIso d.built) with
      | false =>
          obtain ⟨e, he, -, hreplay, -⟩ := (Prog.wp_mono hwp (fun _ _ => id) (fun _ _ => id)
            fun _ _ hok => by rw [hlast] at hok; cases hok.1).raises x
          refine iff_of_false (fun hno => ?_) (fun hinc => by cases hinc.1)
          have hno := hno.1
          rw [he] at hno
          simp only [isReplay] at hno
          rw [hreplay] at hno
          cases hno
      | true =>
          obtain ⟨a, ha, -, hserves, hkept⟩ := (Prog.wp_mono hwp (fun _ _ => id)
            (fun _ _ herr => by rw [hlast] at herr; cases herr.2) fun _ _ => id).returns x
          have hrest : Honest settings nodeId _ ds :=
            { skew := fun d' hd' => h.skew d' (List.mem_cons_of_mem _ hd')
              clock := fun d' hd' => h.clock d' (List.mem_cons_of_mem _ hd')
              fresh := (List.nodup_cons.mp h.fresh).2
              unused := fun d' hd' => by
                obtain ⟨hne, hun⟩ := h.unused d' (List.mem_cons_of_mem _ hd')
                refine ⟨hne, (hkept d'.nonce fun he => ?_).trans hun⟩
                exact (List.nodup_cons.mp h.fresh).1 (he ▸ List.mem_map_of_mem hd') }
          rw [ha, ih hserves hrest]
          exact and_congr_left fun _ => iff_of_true rfl rfl

/-- Time stamps that increase from one to the next increase all along. -/
theorem increasing_iff {last : Option String} {ds : List Delivery} :
    Increasing last ds ↔ ds.Pairwise (fun a b => utcNowIso a.built < utcNowIso b.built) ∧
      ∀ d ∈ ds, last.all (· < utcNowIso d.built) = true := by
  induction ds generalizing last with
  | nil => simp [Increasing]
  | cons d ds ih =>
      rw [Increasing, ih, List.pairwise_cons, List.forall_mem_cons]
      simp only [Option.all_some, decide_eq_true_eq]
      constructor
      · rintro ⟨hd, hds, hall⟩
        refine ⟨⟨hall, hds⟩, hd, fun d' hd' => ?_⟩
        cases last with
        | none => rfl
        | some l =>
            simp only [Option.all_some, decide_eq_true_eq] at hd ⊢
            exact String.lt_trans hd (hall d' hd')
      · rintro ⟨⟨hall, hds⟩, hd, -⟩
        exact ⟨hd, hds, hall⟩

/-- Requests of an honest agent that arrive in order are never answered as replays if and only
if they are signed in strictly increasing seconds, after the last time stamp accepted. -/
theorem no_replay_iff (hsign : crypto.SignsHex) (hid : nodeId ≠ "") {db : Db} {x : World}
    {last : Option String} {ds : List Delivery}
    (hdb : Serves crypto db nodeId (crypto.deriveNodeSigningKey nodeSecret) last)
    (h : Honest settings nodeId db ds) :
    (∀ r ∈ outcomes settings crypto nodeId nodeSecret db x ds, isReplay r = false) ↔
      ds.Pairwise (fun a b => a.built / 1000000 < b.built / 1000000) ∧
        ∀ d ∈ ds, last.all (· < utcNowIso d.built) = true := by
  rw [no_replay_iff_increasing hsign hid hdb h, increasing_iff]
  refine and_congr_left fun _ => List.Pairwise.iff_of_mem fun {a b} ha hb => ?_
  exact Iso.isoformat_lt_iff (Iso.seconds_lt (h.clock a ha).1) (Iso.seconds_lt (h.clock b hb).1)

end Sequences

/-! ## Concrete sequences -/

theorem plainCrypto_signsHex : plainCrypto.SignsHex := by
  intro key nodeId timestamp nonce hash
  refine ⟨fun he => ?_, fun c hc => ?_⟩
  · have := congrArg String.toList he
    simp [plainCrypto, letters] at this
  · simp only [plainCrypto, letters, String.toList_ofList, List.mem_cons, List.mem_map] at hc
    have small : ∀ k < 16, (Char.ofNat (97 + k)).toNat ≤ 127 := by decide
    rcases hc with rfl | ⟨d, -, rfl⟩
    · decide
    · exact small _ (Nat.mod_lt _ (by decide))

theorem oneNodeDb_serves : Serves plainCrypto oneNodeDb "n" "secret" none :=
  ⟨⟨_, rfl, rfl, rfl, rfl⟩, by decide⟩

/-- Two requests signed at these moments. -/
def twoRequests (first second : Nat) : List Delivery :=
  [⟨first, first, "a", "{}", ""⟩, ⟨second, second, "b", "{}", ""⟩]

theorem twoRequests_honest :
    Honest {} "n" oneNodeDb (twoRequests 0 500000) ∧
      Honest {} "n" oneNodeDb (twoRequests 0 1000000) := by
  constructor <;> constructor <;> decide +kernel

/-- Requests of two different seconds are accepted. -/
theorem no_replay_iff_twoRequests :
    (outcomes {} plainCrypto "n" "secret" oneNodeDb {} (twoRequests 0 1000000)).length = 2 ∧
      ∀ r ∈ outcomes {} plainCrypto "n" "secret" oneNodeDb {} (twoRequests 0 1000000),
        isReplay r = false := by
  refine ⟨by decide +kernel, ?_⟩
  exact (no_replay_iff plainCrypto_signsHex (by decide) oneNodeDb_serves twoRequests_honest.2).mpr
    (by decide +kernel)

/-- Of two requests signed half a second apart the second is answered as a replay. -/
theorem honest_request_rejected :
    ¬ ∀ (settings : Settings) (crypto : Crypto) (nodeId nodeSecret : String) (db : Db) (x : World)
      (last : Option String) (ds : List Delivery), crypto.SignsHex → nodeId ≠ "" →
      Serves crypto db nodeId (crypto.deriveNodeSigningKey nodeSecret) last →
      Honest settings nodeId db ds → ds.Pairwise (fun a b => a.built ≤ b.built) →
      ∀ r ∈ outcomes settings crypto nodeId nodeSecret db x ds, isReplay r = false := by
  intro h
  have hno := h {} plainCrypto "n" "secret" oneNodeDb {} none (twoRequests 0 500000)
    plainCrypto_signsHex (by decide) oneNodeDb_serves twoRequests_honest.1 (by decide)
  have hreplay : (outcomes {} plainCrypto "n" "secret" oneNodeDb {} (twoRequests 0 500000)).any
      isReplay = true := by
    decide +kernel
  obtain ⟨r, hr, hbad⟩ := List.any_eq_true.mp hreplay
  rw [hno r hr] at hbad
  cases hbad

end GpuFleet
