import Lets.Dictionaries
import Lets.Reconciliation
import Lets.Sample
import Lets.Statements

set_option autoImplicit false

/-!
# What the service writes is what the verifiers accept

The audit log of a warden holds events that the warden itself has signed, for its one envelope, each
chained to the one before it.
-/

namespace Lets

open Library

variable {d : ℕ}

namespace AuditVerifier

def payload (body : AuditBody d) (keyId signature : String) : Bytes :=
  match canonicalJson (.object (body.signed keyId signature)) with
  | .ok payload => payload
  | .error _ => []

def columns (previousHash : Bytes) (body : AuditBody d)
    (keyId signature : String) (eventHash : Bytes) : StoredAuditRow where
  sequence := body.sequence
  eventType := body.eventType
  entityType := some body.entityType
  entityId := some body.entityId
  payload := payload body keyId signature
  previousHash := previousHash
  eventHash := eventHash
  createdAtNs := body.occurredAtNs

def stored (row : AuditRow d Bytes) : StoredAuditRow :=
  columns row.previousHash row.body row.keyId row.signature row.eventHash

def equip (v : AuditVerifier) (node : WardenNode d Bytes) : WardenNode d Bytes :=
  { node with service := { node.service with
      auditHash := fun previousHash body keyId signature =>
        v.sha256 (columns previousHash body keyId signature []).hashInput
      zeroHash := zeroBytes } }

/-- The part of `_append_audit` that can fail besides the signing: the payload is serialised and the
database asked for the hash. -/
def insertAudit (v : AuditVerifier) (row : AuditRow d Bytes) : Outcome Unit := do
  let _ ← canonicalJson (.object (row.body.signed row.keyId row.signature))
  let _ ← v.selectAuditHash (stored row)
  pure ()

variable (v : AuditVerifier) (node : WardenNode d Bytes)

def exec (clock : Reading) (operation : StoreOperation d Bytes) (store : WardenStore d Bytes) :
    Outcome (WardenStore d Bytes × StoreResponse d) := do
  let (store', out) ← (v.equip node).exec clock operation store
  (store'.database.auditLog.drop store.database.auditLog.length).forM v.insertAudit
  pure (store', out)

def system (envelope : Envelope d) (signingPublicKeySha256 databaseInstanceId : Bytes) :
    System (WardenStore d Bytes) (Reading × StoreOperation d Bytes) where
  Init store := store = .genesis node.service.wardenId node.service.keyId envelope
    signingPublicKeySha256 databaseInstanceId zeroBytes
  Step store call store' := (∃ out, v.exec node call.1 call.2 store = .ok (store', out)) ∨
    (∃ error, v.exec node call.1 call.2 store = .error error) ∧ store' = store

def scope (node : WardenNode d Bytes) (envelope : Envelope d) : AuditScope where
  wardenId := node.service.wardenId
  signerKeyId := node.service.keyId
  tenantId := envelope.tenantId
  envelopeId := envelope.envelopeId

/-- The signature that the warden makes of an event is base64url, and verifies over what was
signed. -/
def OwnSignaturesVerify (envelope : Envelope d) : Prop :=
  ∀ (body : AuditBody d) message, canonicalJson (auditSigningObject body.members) = .ok message →
    ∃ signature, b64urlDecode (node.service.signAudit body) = .ok signature ∧
      v.checkSignature (scope node envelope) node.service.keyId message signature = .ok ()

end AuditVerifier

namespace WardenService

structure Authored {Hash : Type} (svc : WardenService d Hash) (envelope : Envelope d)
    (row : AuditRow d Hash) : Prop where
  keyId : row.keyId = svc.keyId
  signature : row.signature = svc.signAudit row.body
  tenantId : row.body.tenantId = envelope.tenantId
  envelopeId : row.body.envelopeId = envelope.envelopeId
  details : (row.body.details.map Prod.fst).Nodup

/-- The envelope is this one and every event of the log is the warden's own. -/
def AuthoredLog {Hash : Type} (svc : WardenService d Hash) (envelope : Envelope d)
    (db : Database d Hash) : Prop :=
  db.envelope = envelope ∧ ∀ row ∈ db.auditLog, svc.Authored envelope row

variable {Hash : Type} {svc : WardenService d Hash} {clock : Reading} {envelope : Envelope d}
  {db db' : Database d Hash}

theorem Statement.authoredLog (h : svc.Statement clock db db') (hdb : svc.AuthoredLog envelope db) :
    svc.AuthoredLog envelope db' := by
  cases h with
  | leases written =>
    simp only [Database.writeLeases, bind_ok_iff, pure_ok_iff] at written
    obtain ⟨_, _, rfl⟩ := written
    exact hdb
  | audit eventType entityType entityId actorId distinct =>
    refine ⟨hdb.1, fun row hrow => ?_⟩
    rcases List.mem_append.mp hrow with hold | hnew
    · exact hdb.2 row hold
    · rw [List.mem_singleton.mp hnew]
      exact ⟨rfl, rfl, congrArg Envelope.tenantId hdb.1, congrArg Envelope.envelopeId hdb.1,
        distinct⟩
  | elsewhere same =>
    simp only [Database.tracked, Prod.mk.injEq] at same
    obtain ⟨henvelope, _, _, hlog⟩ := same
    rw [AuthoredLog, henvelope, hlog]
    exact hdb

theorem Transacts.authoredLog (h : svc.Transacts clock db db') (hdb : svc.AuthoredLog envelope db) :
    svc.AuthoredLog envelope db' := by
  induction h with
  | refl => exact hdb
  | tail _ statement ih => exact statement.authoredLog ih

end WardenService

namespace WardenNode

variable {Hash : Type} {node : WardenNode d Hash} {clock : Reading} {store : WardenStore d Hash}

theorem claimPeerRequest_transacts (req : PeerRequest) :
    Ensures (node.claimPeerRequest clock req store) fun result =>
      node.service.Transacts clock store.database result.1.database := by
  unfold claimPeerRequest
  iterate 9 refine .next fun _ => ?_
  refine .ite (.next fun _ => .pure .refl) ?_
  refine .bind (R := node.service.Transacts clock store.database)
    (WardenService.clockIsSafe_transacts .refl) fun db hdb => ?_
  refine .bind (R := node.service.Transacts clock store.database)
    (WardenService.appendAudit_transacts (by simp) hdb) fun db hdb => ?_
  exact .next fun _ => .pure hdb

theorem importLegacyPeerReplay_transacts [DecidableEq Hash] (req : LegacyImportRequest Hash) :
    Ensures (node.importLegacyPeerReplay clock req store) fun result =>
      node.service.Transacts clock store.database result.1.database := by
  unfold importLegacyPeerReplay
  iterate 5 refine .next fun _ => ?_
  split
  · exact .next fun _ => .next fun _ => .pure .refl
  · iterate 2 refine .next fun _ => ?_
    refine .bind (R := node.service.Transacts clock store.database)
      (WardenService.clockIsSafe_transacts .refl) fun db hdb => ?_
    refine .next fun _ => ?_
    refine .bind (R := node.service.Transacts clock store.database)
      (WardenService.appendAudit_transacts (by simp) hdb) fun db hdb => ?_
    exact .next fun _ => .pure hdb

theorem exec_transacts [DecidableEq Hash] (operation : StoreOperation d Hash) :
    Ensures (node.exec clock operation store) fun result =>
      node.service.Transacts clock store.database result.1.database := by
  cases operation with
  | service operation =>
    exact .bind WardenService.exec_transacts fun _ h => .pure h
  | claimPeerRequest req =>
    exact .bind (claimPeerRequest_transacts req) fun _ h => .pure h
  | importLegacyPeerReplay req =>
    exact .bind (importLegacyPeerReplay_transacts req) fun _ h => .pure h

end WardenNode

namespace AuditVerifier

variable {v : AuditVerifier} {node : WardenNode d Bytes} {envelope : Envelope d}
  {row : AuditRow d Bytes} {store store' : WardenStore d Bytes}

theorem insertAudit_ok_iff {u : Unit} :
    v.insertAudit row = .ok u ↔
      (∃ payload, canonicalJson (.object (row.body.signed row.keyId row.signature)) =
        .ok payload) ∧ ∃ hash, v.auditEventHash (stored row) = .ok hash := by
  simp only [insertAudit, bind_ok_iff, selectAuditHash_ok_iff, pure_ok_iff]
  constructor
  · rintro ⟨payload, hpayload, hash, hhash, _⟩
    exact ⟨⟨payload, hpayload⟩, hash, hhash⟩
  · rintro ⟨⟨payload, hpayload⟩, hash, hhash⟩
    exact ⟨payload, hpayload, hash, hhash, trivial⟩

theorem distinct_json (detail : Detail d) : detail.json.distinct = true := by
  cases detail with
  | amount v =>
    refine Json.itemsDistinct_iff.mpr fun item hitem => ?_
    obtain ⟨i, rfl⟩ := List.mem_ofFn.mp hitem
    rfl
  | texts l =>
    refine Json.itemsDistinct_iff.mpr fun item hitem => ?_
    obtain ⟨s, -, rfl⟩ := List.mem_map.mp hitem
    rfl
  | _ => rfl

section Signed

variable {body : AuditBody d} {keyId signature : String}

/-- An event with distinct details that has been serialised is a well-formed value. -/
theorem signed_wellFormed {payload : Bytes} (hdetails : (body.details.map Prod.fst).Nodup)
    (hpayload : canonicalJson (.object (body.signed keyId signature)) = .ok payload) :
    (Json.object (body.signed keyId signature)).WellFormed := by
  refine ⟨(canonicalJson_ok_iff.mp hpayload).1, ?_⟩
  have hkeys : ((body.signed keyId signature).map Prod.fst).Nodup := by
    simp [AuditBody.signed, AuditBody.members]
  have hobject : (Json.object (body.details.map fun entry => (entry.1, entry.2.json))).distinct =
      true := by
    rw [Json.distinct, List.map_map, Bool.and_eq_true, decide_eq_true_eq, Json.membersDistinct_iff]
    refine ⟨hdetails, fun m hm => ?_⟩
    obtain ⟨entry, -, rfl⟩ := List.mem_map.mp hm
    exact distinct_json entry.2
  rw [Json.distinct, decide_eq_true hkeys, Bool.true_and, Json.membersDistinct_iff]
  simp only [AuditBody.signed, AuditBody.members, List.cons_append, List.nil_append,
    List.forall_mem_cons]
  exact ⟨rfl, rfl, rfl, rfl, rfl, rfl, rfl, rfl, hobject, rfl, rfl, List.forall_mem_nil _⟩

theorem wellFormed_signingObject {payload : List (String × Json)} :
    (auditSigningObject payload).WellFormed ↔ (Json.object payload).WellFormed := by
  rw [auditSigningObject, Json.wellFormed_object]
  refine ⟨fun h => h.2 _ (.tail _ (.head _)), fun h => ⟨by simp, fun m hm => ?_⟩⟩
  simp only [List.mem_cons, List.not_mem_nil, or_false] at hm
  rcases hm with rfl | rfl
  · exact ⟨rfl, rfl⟩
  · exact h

theorem WellFormed.filter {members : List (String × Json)} (h : (Json.object members).WellFormed)
    (p : String × Json → Bool) : (Json.object (members.filter p)).WellFormed := by
  obtain ⟨hnodup, hall⟩ := Json.wellFormed_object.mp h
  exact Json.wellFormed_object.mpr ⟨(List.filter_sublist.map Prod.fst).nodup hnodup,
    fun m hm => hall m (List.mem_of_mem_filter hm)⟩

/-- What is verified of an event that was read back is what was signed. -/
theorem canonicalJson_readBack (h : (Json.object (body.signed keyId signature)).WellFormed) :
    canonicalJson (auditSigningObject ((Json.sortedMembers (body.signed keyId signature)).filter
        fun member => member.1 ∉ ["signature", "key_id"])) =
      canonicalJson (auditSigningObject body.members) ∧
    (auditSigningObject body.members).WellFormed := by
  have hunsigned : (body.signed keyId signature).filter
      (fun member => member.1 ∉ ["signature", "key_id"]) = body.members := by
    simp [AuditBody.signed, AuditBody.members]
  have hbody : (Json.object body.members).WellFormed := hunsigned ▸ WellFormed.filter h _
  have hsame := Json.same_filter_sortedMembers (Json.wellFormed_object.mp h).1
    fun key => key ∉ ["signature", "key_id"]
  rw [hunsigned] at hsame
  refine ⟨canonicalJson_eq_of_same (wellFormed_signingObject.mpr (WellFormed.filter h.sorted _))
    (wellFormed_signingObject.mpr hbody) ?_, wellFormed_signingObject.mpr hbody⟩
  exact congrArg (fun payload => Json.object (byKey [("kind", .text "audit-event/v1"),
    ("payload", payload)])) hsame

end Signed

theorem describes_sorted (hnodup : ((row.body.signed row.keyId row.signature).map Prod.fst).Nodup)
    (h : (v.equip node).service.Authored envelope row) :
    describes (scope node envelope)
      (Json.sortedMembers (row.body.signed row.keyId row.signature)) (stored row) = true := by
  simp only [describes, Json.get_sortedMembers hnodup]
  simp [Json.get, AuditBody.signed, AuditBody.members, List.lookup, Json.normalize, Json.isNumber,
    Json.isText, stored, columns, scope, h.tenantId, h.envelopeId]

theorem verifySigned_sorted (hown : v.OwnSignaturesVerify node envelope)
    (hwell : (Json.object (row.body.signed row.keyId row.signature)).WellFormed)
    (h : (v.equip node).service.Authored envelope row) :
    v.verifySigned (scope node envelope)
      (Json.sortedMembers (row.body.signed row.keyId row.signature)) = .ok () := by
  obtain ⟨hmessage, hsigned⟩ := canonicalJson_readBack hwell
  obtain ⟨message, hbytes⟩ : ∃ message, canonicalJson (auditSigningObject row.body.members) =
      .ok message := ⟨_, canonicalJson_ok_iff.mpr ⟨hsigned.fits, rfl⟩⟩
  obtain ⟨signature, hdecoded, hverified⟩ := hown row.body message hbytes
  have hkey : row.keyId = node.service.keyId := h.keyId
  have hsignature : row.signature = node.service.signAudit row.body := h.signature
  have hnodup := (Json.wellFormed_object.mp hwell).1
  have hkeyId : Json.get (row.body.signed row.keyId row.signature) "key_id" = .text row.keyId := rfl
  have htext : Json.get (row.body.signed row.keyId row.signature) "signature" =
      .text row.signature := rfl
  rw [verifySigned, Json.get_sortedMembers hnodup, Json.get_sortedMembers hnodup, hkeyId, htext]
  simp only [Json.normalize]
  refine (bind_ok_iff _ _ _).mpr ⟨signature, orError_ok_iff.mpr ?_, (bind_ok_iff _ _ _).mpr
    ⟨message, hmessage.trans hbytes, hkey ▸ hverified⟩⟩
  rw [hsignature, hdecoded]
  rfl

theorem follows_stored {head : ℤ × Bytes} (hown : v.OwnSignaturesVerify node envelope)
    (hchained : (v.equip node).service.auditChain.Follows head row)
    (hauthored : (v.equip node).service.Authored envelope row)
    (hinserted : v.insertAudit row = .ok ()) :
    (v.logChain (scope node envelope)).Follows head (stored row) := by
  obtain ⟨hsequence, hprevious, hhash⟩ := hchained
  obtain ⟨⟨payload, hpayload⟩, _, hcomputed⟩ := insertAudit_ok_iff.mp hinserted
  obtain ⟨hhashable, _⟩ := auditEventHash_ok_iff.mp hcomputed
  have hstored : (stored row).payload = payload := by
    change AuditVerifier.payload row.body row.keyId row.signature = payload
    rw [AuditVerifier.payload, hpayload]
  have hwell := signed_wellFormed hauthored.details hpayload
  have hread := jsonObject_canonicalJson v.decoder hwell hpayload
  refine checkAuditRow_ok_iff.mpr ⟨hsequence, hprevious, ?_, _, hstored ▸ hread, ?_, ?_⟩
  · exact auditEventHash_ok_iff.mpr ⟨hhashable, hhash⟩
  · exact verifySigned_sorted hown hwell hauthored
  · exact describes_sorted (Json.wellFormed_object.mp hwell).1 hauthored

theorem valid_map_stored {log : List (AuditRow d Bytes)}
    (hown : v.OwnSignaturesVerify node envelope)
    (hchained : (v.equip node).service.auditChain.Valid log)
    (hauthored : ∀ row ∈ log, (v.equip node).service.Authored envelope row)
    (hinserted : ∀ row ∈ log, v.insertAudit row = .ok ()) :
    (v.logChain (scope node envelope)).Valid (log.map stored) ∧
      (v.logChain (scope node envelope)).tipOf (log.map stored) =
        (v.equip node).service.auditChain.tipOf log := by
  induction hchained with
  | nil => exact ⟨.nil, rfl⟩
  | @snoc log row _ hfollows ih =>
    obtain ⟨hvalid, htip⟩ := ih (fun row hrow => hauthored row (List.mem_append_left _ hrow))
      (fun row hrow => hinserted row (List.mem_append_left _ hrow))
    rw [List.map_append, List.map_singleton, HashChain.tipOf_concat, HashChain.tipOf_concat]
    refine ⟨.snoc hvalid ?_, rfl⟩
    rw [htip]
    exact follows_stored hown hfollows (hauthored row (by simp)) (hinserted row (by simp))

structure Kept (v : AuditVerifier) (node : WardenNode d Bytes) (envelope : Envelope d)
    (store : WardenStore d Bytes) : Prop where
  chained : (v.equip node).ChainedStore store
  authored : (v.equip node).service.AuthoredLog envelope store.database
  inserted : ∀ row ∈ store.database.auditLog, v.insertAudit row = .ok ()

theorem exec_kept {clock : Reading} {operation : StoreOperation d Bytes} {out : StoreResponse d}
    (h : v.Kept node envelope store)
    (hexec : v.exec node clock operation store = .ok (store', out)) :
    v.Kept node envelope store' := by
  simp only [exec, bind_ok_iff, forM_ok_iff, pure_ok_iff, exists_unit_iff, Prod.mk.injEq] at hexec
  obtain ⟨⟨_, _⟩, hnode, hinserted, rfl, rfl⟩ := hexec
  have hlogged := (WardenNode.exec_audited hnode).1.logged
  refine ⟨hlogged.2 h.chained, ?_, fun row hrow => ?_⟩
  · exact (WardenNode.exec_transacts operation _ hnode).authoredLog h.authored
  · obtain ⟨rows, hrows⟩ := hlogged.1
    rw [← hrows] at hrow
    rcases List.mem_append.mp hrow with hold | hnew
    · exact h.inserted row hold
    · apply hinserted
      rw [← hrows, List.drop_left]
      exact hnew

theorem exec_log_le {clock : Reading} {operation : StoreOperation d Bytes} {out : StoreResponse d}
    (hexec : v.exec node clock operation store = .ok (store', out)) :
    store.database.auditLog <+: store'.database.auditLog := by
  simp only [exec, bind_ok_iff, pure_ok_iff, exists_unit_iff, Prod.mk.injEq] at hexec
  obtain ⟨⟨_, _⟩, hnode, _, rfl, rfl⟩ := hexec
  exact (WardenNode.exec_audited hnode).1.logged.1

theorem kept_of_reachable {publicKey instanceId : Bytes}
    (h : (v.system node envelope publicKey instanceId).Reachable store) :
    v.Kept node envelope store := by
  refine h.invariant ?_ ?_
  · rintro _ rfl
    exact ⟨.nil, ⟨rfl, (fun _ h => by cases h)⟩, (fun _ h => by cases h)⟩
  · rintro store call store' hstore (⟨out, hexec⟩ | ⟨_, rfl⟩)
    · exact exec_kept hstore hexec
    · exact hstore

end AuditVerifier

section Verifiable

open AuditVerifier

/-- The whole log of a warden is accepted at its head, whatever the service has done; page by page
the same logs are accepted as in one pass, and at the same head; and two accepted logs with one head
are the same, row by row and in every field. -/
theorem audit_log_verifiable (v : AuditVerifier) (node : WardenNode d Bytes)
    (envelope : Envelope d) (publicKey instanceId : Bytes)
    (hown : v.OwnSignaturesVerify node envelope) :
    (∀ store identity, (v.system node envelope publicKey instanceId).Reachable store →
      MayVerify (scope node envelope) identity →
      v.verifyAuditHead (scope node envelope) identity (store.database.auditLog.map stored) =
        .ok (store.auditHead zeroBytes)) ∧
    (∀ scope identity pages head, MayVerify scope identity →
      (v.verifyPages scope (-1, zeroBytes) pages = .ok head ↔
        v.verifyAuditHead scope identity pages.flatten = .ok head)) ∧
    ∀ scope scope' identity identity' rows rows' head, v.CollisionFree (rows ++ rows') →
      v.verifyAuditHead scope identity rows = .ok head →
      v.verifyAuditHead scope' identity' rows' = .ok head → rows = rows' := by
  refine ⟨fun store identity hreach hmay => ?_, fun scope identity pages head hmay => ?_, ?_⟩
  · have hkept := kept_of_reachable hreach
    have hhead : store.auditHead (v.equip node).service.zeroHash =
        (v.equip node).service.auditChain.tipOf store.database.auditLog := WardenNode.auditHead_eq
    obtain ⟨hvalid, htip⟩ :=
      valid_map_stored hown hkept.chained hkept.authored.2 hkept.inserted
    exact verifyAuditHead_ok_iff.mpr ⟨hmay, hvalid, htip.trans hhead.symm⟩
  · rw [verifyPages_ok_iff (by decide), verifyAuditHead_ok_iff, HashChain.valid_iff_validFrom,
      ← HashChain.tipFrom_genesis]
    exact (and_iff_right hmay).symm
  · intro scope scope' identity identity' rows rows' head hfree h h'
    obtain ⟨_, hvalid, htip⟩ := verifyAuditHead_ok_iff.mp h
    obtain ⟨_, hvalid', htip'⟩ := verifyAuditHead_ok_iff.mp h'
    exact eq_of_head_eq hfree hvalid hvalid' (htip.trans htip'.symm)

end Verifiable

namespace Sample

/-- A toy scheme in which one byte signs every message. -/
def auditVerifier : AuditVerifier where
  decoder := .utf8
  signerVerify := some fun _ signature => some (signature = [97])
  trustRegistry := none
  sha256 bytes := (bytes.reverse ++ zeroBytes).take 32
  length_sha256 bytes := by simp [zeroBytes]

def auditedNode : WardenNode 1 Bytes where
  service := { service "a" with
    signAudit := fun _ => b64urlEncode [97]
    auditHash := fun previousHash _ _ _ => previousHash
    zeroHash := [] }
  nonceDigest := utf8
  hex _ := ""
  replayClaimDigest _ := []
  replayImportDigest _ := []
  stateDigest _ := []

theorem ownSignaturesVerify : auditVerifier.OwnSignaturesVerify auditedNode (envelope 10) := by
  intro body message _
  refine ⟨[97], b64urlDecode_b64urlEncode [97], ?_⟩
  simp [AuditVerifier.checkSignature, AuditVerifier.scope, auditVerifier]

def auditedStore : WardenStore 1 Bytes :=
  .genesis "a" "a" (envelope 10) [] [] zeroBytes

def auditedDrain : Outcome (WardenStore 1 Bytes × StoreResponse 1) :=
  auditVerifier.exec auditedNode (exactly 1)
    (.service (.setRuntimeMode ⟨"drain", operator, .draining, "reason"⟩)) auditedStore

end Sample

open Sample

theorem audit_log_verifiable_drained :
    ∃ store, (auditVerifier.system auditedNode (envelope 10) [] []).Reachable
        store ∧ store.database.auditLog.length = 1 ∧
      auditVerifier.verifyPages (AuditVerifier.scope auditedNode (envelope 10))
        (-1, zeroBytes) [[], store.database.auditLog.map AuditVerifier.stored] =
          .ok (store.auditHead zeroBytes) := by
  obtain ⟨haccepted, hpages, _⟩ := audit_log_verifiable auditVerifier auditedNode
    (envelope 10) [] [] ownSignaturesVerify
  have hmay : AuditVerifier.MayVerify
      (AuditVerifier.scope auditedNode (envelope 10)) operator := ⟨by decide, rfl⟩
  have hlength : (auditedDrain.toOption.map fun result =>
      result.1.database.auditLog.length) = some 1 := by decide +kernel
  obtain ⟨⟨store, out⟩, hdrain⟩ : ∃ result, auditedDrain = .ok result := by
    match hdrain : auditedDrain with
    | .ok result => exact ⟨result, rfl⟩
    | .error _ =>
      rw [hdrain] at hlength
      cases hlength
  have hreach : (auditVerifier.system auditedNode (envelope 10) []
      []).Reachable store := by
    have hstep : (auditVerifier.system auditedNode (envelope 10) [] []).Step
        auditedStore (_, _) store := .inl ⟨out, hdrain⟩
    exact ⟨auditedStore, _, rfl, .cons hstep (.nil _)⟩
  rw [hdrain] at hlength
  refine ⟨store, hreach, Option.some.inj hlength, ?_⟩
  apply (hpages _ operator _ _ hmay).mpr
  simpa using haccepted store operator hreach hmay

end Lets
