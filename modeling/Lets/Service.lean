import Lets.Database
import Lets.Library.HashChain

set_option autoImplicit false

/-!
# The warden service: environment and transaction primitives

What every operation of the service is built from: the configured environment of one warden, the
clock check with its durable floor, idempotent replies, the audit log, the lease rows with their
constraints and triggers, and the conservation check at commit.
-/

namespace Lets

open Library

variable {d : ℕ} {Hash : Type}

inductive LifecycleOperation
  | quiesce | resume | close
  deriving DecidableEq, Repr

def LifecycleOperation.name : LifecycleOperation → String
  | quiesce => "quiesce"
  | resume => "resume"
  | close => "close"

/-- The operation and arguments that a request fingerprint is the digest of. -/
inductive Arguments (d : ℕ)
  | setRuntimeMode (actor : String) (mode : RuntimeMode) (reason : String)
  | issueRoot (actor subjectId : String) (allocation : ResourceVector d)
      (capabilities : Finset String) (policyDigest : String) (ttlNs : ℕ)
      (lineageId : Option String) (configEpoch : ℕ)
  | spawn (actor parentId subjectId : String) (allocation : ResourceVector d)
      (capabilities : Finset String) (ttlNs : ℕ) (requestedPolicyDigest : Option String)
      (expectedSequence : Option ℕ) (configEpoch : ℕ)
  | spawnRemote (actor parentId targetWarden subjectId : String) (allocation : ResourceVector d)
      (capabilities : Finset String) (ttlNs : ℕ) (expectedSequence : Option ℕ) (configEpoch : ℕ)
  | authorize (actor leaseId transition audience nonce : String)
      (evidenceDigest expectedState : Option String) (expectedSequence : Option ℕ)
      (configEpoch : ℕ)
  | renew (actor leaseId : String) (ttlNs : ℕ) (expectedSequence : Option ℕ) (cascade : Bool)
      (configEpoch : ℕ)
  | lifecycle (operation : LifecycleOperation) (actor leaseId : String)
      (expectedSequence : Option ℕ) (configEpoch : ℕ)
  | revokeBranch (actor leaseId reason : String) (expectedEpoch : Option ℕ) (configEpoch : ℕ)
  | prepareTransfer (actor targetWarden : String) (amount : ResourceVector d)
      (requestedPolicyDigest : Option String) (configEpoch : ℕ)
  deriving DecidableEq

/-- One configured warden: its identity and key, its peers, its trust registry, the functions that
sign and digest canonical JSON, and the evidence evaluator. -/
structure WardenService (d : ℕ) (Hash : Type) where
  wardenId : String
  keyId : String
  signingKeyValidity : Option (Option ℕ × Option ℕ)
  allowedPeerWardens : Option (List String)
  peersNodup : ∀ peers ∈ allowedPeerWardens, peers.Nodup
  /-- The local warden is not its own peer. -/
  notOwnPeer : ∀ peers ∈ allowedPeerWardens, wardenId ∉ peers
  sign : SignedRecord d → String
  signAudit : AuditBody d → String
  /-- Whether the registry accepts the record as signed by the given warden. -/
  verifyRecord : SignedRecord d → String → Bool
  /-- Whether the registry has current verification material for the given warden. -/
  hasCurrentWarden : String → Bool
  evidenceEvaluator : Option Json → Option Json → ℕ → String → String → Bool
  fingerprint : Arguments d → String
  recordDigest : SignedRecord d → String
  evidenceDigest : Json → String
  branchDigest : String → String → String
  policyDigest : PolicyPayload d → String
  machineDigest : PolicyPayload d → String
  /-- The hash over the previous hash, the event, the key id and the signature. -/
  auditHash : Hash → AuditBody d → String → String → Hash
  zeroHash : Hash

def adminScopes : List String := ["lets.admin", "lets.warden.admin"]

def subjectLifecycleScopes : List String := ["lets.admin", "lets.lease.manage"]

def rootIssuerScopes : List String := adminScopes ++ ["lets.lease.issue"]

def IdentityContext.HasScope (identity : IdentityContext) (accepted : List String) : Prop :=
  ∃ scope ∈ accepted, scope ∈ identity.scopes

instance (identity : IdentityContext) (accepted : List String) :
    Decidable (identity.HasScope accepted) :=
  inferInstanceAs (Decidable (∃ scope ∈ accepted, scope ∈ identity.scopes))

def positiveTtl (ttlNs : ℕ) : Outcome Unit :=
  require (0 < ttlNs ∧ ttlNs ≤ maxResource)
    (.validation "ttl_ns must be a positive signed 64-bit integer")

def checkExpectedSequence (expectedSequence : Option ℕ) : Outcome Unit :=
  require (∀ s ∈ expectedSequence, s ≤ maxResource)
    (.validation "expected_sequence must be a non-negative integer")

def PeerDelivery.queued (orderingKey : String) (streamPosition : ℕ) (payload : SignedRecord d)
    (nowNs : ℕ) : PeerDelivery d where
  orderingKey := orderingKey
  streamPosition := streamPosition
  payload := payload
  createdAtNs := nowNs
  attempts := 0
  nextAttemptNs := 0
  lastAttemptNs := none
  deliveredAtNs := none
  supersededAtNs := none
  lastError := none

/-- A record that newer state of its stream may have replaced before it was delivered. -/
def PeerDelivery.supersededBy (recordKind : RecordKind) (targetWarden orderingKey : String)
    (nowNs : ℕ) (key : RecordKind × String × String) (row : PeerDelivery d) : PeerDelivery d :=
  if key.1 = recordKind ∧ key.2.2 = targetWarden ∧ row.orderingKey = orderingKey ∧
      row.deliveredAtNs = none ∧ row.supersededAtNs = none then
    { row with
      supersededAtNs := some nowNs
      lastError := some "superseded by newer signed state" }
  else row

namespace Database

def advancedFloor (db : Database d Hash) (nowNs : ℕ) : ℕ :=
  match db.clockFloorNs with
  | none => nowNs
  | some floor => max floor nowNs

/-- `_clock_is_safe`.  Repeating it with the same reading changes nothing and cannot fail, so an
operation that makes the check several times makes it once here. -/
def clockIsSafe (clock : Reading) (db : Database d Hash) : Outcome (Database d Hash) := do
  require (clock.nowNs ≤ maxResource)
    (.clockUncertain "clock time is outside signed 64-bit Unix nanoseconds")
  require (clock.uncertaintyNs ≤ maxResource)
    (.clockUncertain "clock reported invalid uncertainty")
  require (clock.uncertaintyNs ≤ db.envelope.maxClockUncertaintyNs)
    (.clockUncertain ("clock uncertainty " ++ toString clock.uncertaintyNs ++
      "ns exceeds configured maximum " ++ toString db.envelope.maxClockUncertaintyNs ++ "ns"))
  require (clock.nowNs + clock.uncertaintyNs ≤ maxResource)
    (.clockUncertain "clock uncertainty interval exceeds signed 64-bit time")
  require (∀ floor ∈ db.clockFloorNs, floor ≤ clock.nowNs + clock.uncertaintyNs)
    (.clockUncertain
      "clock moved behind the durable warden clock floor beyond its declared uncertainty")
  pure { db with clockFloorNs := some (db.advancedFloor clock.nowNs) }

def requireEnvelope (tenantId envelopeId : String) (db : Database d Hash) : Outcome Unit :=
  require (db.envelope.tenantId = tenantId ∧ db.envelope.envelopeId = envelopeId)
    (.notFound "envelope is not configured")

def drainingError (db : Database d Hash) : LetsError :=
  .draining ("warden is draining at generation " ++ toString db.runtime.generation ++ ": " ++
    db.runtime.reason)

def requireRuntimeActive (db : Database d Hash) : Outcome Unit :=
  require (db.runtime.mode = .active) db.drainingError

def idempotentResponse (scope requestId fingerprint : String) (db : Database d Hash) :
    Outcome (Option (Response d)) :=
  match db.idempotency.lookup requestId with
  | none => pure none
  | some row => do
    require (row.scope = scope ∧ row.fingerprint = fingerprint)
      (.conflict ("request_id " ++ quoted requestId ++
        " was already used with incompatible arguments"))
    pure (some row.response)

def rememberResponse (scope requestId fingerprint : String) (response : Response d)
    (nowNs statusCode : ℕ) (db : Database d Hash) : Database d Hash :=
  { db with
    idempotency := db.idempotency.insert requestId
      { scope, fingerprint, response, statusCode, createdAtNs := nowNs } }

def registeredPolicy (policyDigest : String) (db : Database d Hash) : Outcome (PolicyRow d) :=
  orError (db.policies.lookup policyDigest)
    (.policy ("policy " ++ quoted policyDigest ++ " is not registered for this envelope"))

def loadLease (leaseId : String) (db : Database d Hash) : Outcome (Lease d) :=
  orError (db.leases.lookup leaseId) (.notFound ("lease " ++ quoted leaseId ++ " does not exist"))

/-- The constraints of the `leases` table that an update of one row can break. -/
def LeaseRowOk (lease : Lease d) : Prop :=
  lease.issuedAtNs ≤ lease.expiresAtNs ∧ lease.createdAtNs ≤ lease.updatedAtNs

instance (lease : Lease d) : Decidable (LeaseRowOk lease) :=
  inferInstanceAs (Decidable (_ ∧ _))

/-- Insert a lease row; the trigger adds its residual to the running total. -/
def insertLease (leaseId : String) (lease : Lease d) (db : Database d Hash) :
    Outcome (Database d Hash) := do
  require (leaseId ∉ db.leases) (.integrity "UNIQUE constraint failed: leases.lease_id")
  require (LeaseRowOk lease) (.integrity "CHECK constraint failed: leases")
  require (lease.parentWarden ≠ some db.wardenId)
    (.integrity "remote parent warden must differ from the issuing warden")
  let total ← db.leaseResidual.addOr (.storage "SQLite transaction failed") lease.residual
  pure { db with leases := db.leases.insert leaseId lease, leaseResidual := total }

def updateLease (leaseId : String) (f : Lease d → Lease d) (db : Database d Hash) :
    Outcome (Database d Hash) := do
  require (∀ lease ∈ db.leases.lookup leaseId, LeaseRowOk (f lease))
    (.integrity "CHECK constraint failed: leases")
  pure { db with leases := db.leases.update leaseId f }

/-- Update a lease row and its residual; the trigger moves the running total by the difference. -/
def updateLeaseResidual (leaseId : String) (residual : ResourceVector d) (f : Lease d → Lease d)
    (db : Database d Hash) : Outcome (Database d Hash) := do
  let lease ← db.loadLease leaseId
  let rest ← db.leaseResidual.subtractOr (.storage "SQLite transaction failed") lease.residual
  let total ← rest.addOr (.storage "SQLite transaction failed") residual
  let db ← db.updateLease leaseId fun lease => { f lease with residual }
  pure { db with leaseResidual := total }

def pathRevoked (lineageId : String) (path : List String) (db : Database d Hash) : Bool :=
  path.any fun branch => (db.revocations.lookup (lineageId, branch)).isSome

def leaseRevoked (leaseId : String) (lease : Lease d) (db : Database d Hash) : Bool :=
  db.pathRevoked lease.lineageId (lease.ancestorPath ++ [leaseId])

def requireActionable (leaseId : String) (lease : Lease d) (clock : Reading)
    (db : Database d Hash) : Outcome Unit := do
  require (lease.status = .active)
    (.policy ("lease status " ++ quoted lease.status.name ++ " is not actionable"))
  require (clock.nowNs + clock.uncertaintyNs < lease.expiresAtNs)
    (.expired "lease is expired or cannot be proven fresh")
  require (db.leaseRevoked leaseId lease = false) (.policy "lease is beneath a revoked branch")

def grantFromRow (leaseId : String) (lease : Lease d) (db : Database d Hash) :
    Outcome (LeaseGrant d) := do
  let policy ← orError (db.policies.lookup lease.policyDigest)
    (.storage "lease references a missing policy")
  let grant : LeaseGrant d :=
    { tenantId := db.envelope.tenantId
      envelopeId := db.envelope.envelopeId
      configEpoch := lease.configEpoch
      leaseId
      lineageId := lease.lineageId
      parentId := lease.remoteParentId <|> lease.parentId
      subjectId := lease.subjectId
      wardenId := db.wardenId
      allocation := lease.allocation
      capabilities := lease.capabilities
      policyId := policy.payload.policyId
      policyVersion := lease.policyVersion
      policyDigest := lease.policyDigest
      machineDigest := lease.machineDigest
      ancestorPath := lease.ancestorPath
      branchEpoch := lease.branchEpoch
      issuedAtNs := lease.issuedAtNs
      expiresAtNs := lease.expiresAtNs
      keyId := lease.keyId
      signature := lease.signature }
  grant.validate
  pure grant

def snapshotFromRow (leaseId : String) (lease : Lease d) (db : Database d Hash) :
    Outcome (LeaseSnapshot d) := do
  let grant ← db.grantFromRow leaseId lease
  require (lease.residual.lessThanOrEqual lease.allocation)
    (.validation "lease residual exceeds its signed allocation")
  pure
    { grant
      residual := lease.residual
      currentState := lease.state
      status := lease.status
      sequence := lease.sequence
      updatedAtNs := lease.updatedAtNs }

def assertLocalConservation (db : Database d Hash) : Outcome Unit := do
  let invalid := LetsError.invariant "conservation ledger contains an invalid vector"
  let available ← db.envelope.initialLocalShare.addOr invalid db.transferredIn
  let held ← db.freePool.addOr invalid db.leaseResidual
  let spent ← db.consumed.addOr invalid db.transferredOut
  let accounted ← held.addOr invalid spent
  require (available = accounted) (.invariant "local conservation violated")

/-- The delivery records once a record is queued, older ones of its stream superseded if asked. -/
def enqueued (recordKind : RecordKind) (recordId targetWarden orderingKey : String)
    (streamPosition : ℕ) (payload : SignedRecord d) (nowNs : ℕ) (supersedeOlder : Bool)
    (deliveries : PeerDeliveries d) : PeerDeliveries d :=
  (if supersedeOlder then
      deliveries.mapRows (PeerDelivery.supersededBy recordKind targetWarden orderingKey nowNs)
    else deliveries).insert (recordKind, recordId, targetWarden)
    (PeerDelivery.queued orderingKey streamPosition payload nowNs)

/-- Queue a signed record for a peer; superseding changes no key, so the insertion is refused for a key
that was there before. -/
def enqueuePeerDelivery (recordKind : RecordKind) (recordId targetWarden orderingKey : String)
    (streamPosition : ℕ) (payload : SignedRecord d) (nowNs : ℕ) (supersedeOlder : Bool)
    (db : Database d Hash) : Outcome (Database d Hash) := do
  require ((recordKind, recordId, targetWarden) ∉ db.peerDeliveries)
    (.integrity "UNIQUE constraint failed: peer_delivery_state")
  pure { db with
    peerDeliveries := enqueued recordKind recordId targetWarden orderingKey streamPosition payload
      nowNs supersedeOlder db.peerDeliveries }

end Database

namespace PolicyRow

def declaredCapabilities (policy : PolicyRow d) : Finset String :=
  (policy.payload.transitions.map TransitionRule.capability).toFinset

def transition (policy : PolicyRow d) (state name : String) : Outcome (TransitionRule d) :=
  match policy.payload.transitions.filter fun rule => rule.name = name ∧ rule.source = state with
  | [rule] => .ok rule
  | _ => .error (.policy ("transition " ++ quoted name ++ " is not uniquely enabled from state " ++
      quoted state))

end PolicyRow

namespace WardenService

def verifyDatabaseIdentity (svc : WardenService d Hash) (db : Database d Hash) : Outcome Unit := do
  require (db.wardenId = svc.wardenId)
    (.conflict "signer warden_id does not match the durable database identity")
  require (db.signingKeyId = svc.keyId)
    (.conflict "signer key_id does not match the durable database identity")

def requireSigningKeyCurrent (svc : WardenService d Hash) (clock : Reading) : Outcome Unit :=
  match svc.signingKeyValidity with
  | none => pure ()
  | some (notBefore, notAfter) => do
    require (clock.nowNs + clock.uncertaintyNs ≤ maxResource)
      (.clockUncertain "clock cannot establish local signing-key validity")
    require (∀ start ∈ notBefore, start + clock.uncertaintyNs ≤ clock.nowNs)
      (.signature "local signing key is not yet valid for the full clock interval")
    require (∀ stop ∈ notAfter, clock.nowNs + clock.uncertaintyNs < stop)
      (.signature "local signing key is expired for the full clock interval")

def signRecord (svc : WardenService d Hash) (clock : Reading) (record : SignedRecord d) :
    Outcome String := do
  svc.requireSigningKeyCurrent clock
  pure (svc.sign record)

/-- The next row of the audit log: signed, and chained to the last one by its hash. -/
def nextAuditRow (svc : WardenService d Hash) (clock : Reading)
    (eventType entityType entityId actorId : String) (details : List (String × Detail d))
    (db : Database d Hash) : AuditRow d Hash :=
  let last := db.auditLog.getLast?
  let body : AuditBody d :=
    { sequence := match last with
        | none => 0
        | some row => row.body.sequence + 1
      eventType
      tenantId := db.envelope.tenantId
      envelopeId := db.envelope.envelopeId
      entityType
      entityId
      actorId
      occurredAtNs := clock.nowNs
      details }
  let signature := svc.signAudit body
  let previousHash := match last with
    | none => svc.zeroHash
    | some row => row.eventHash
  { body, signature, previousHash
    keyId := svc.keyId
    eventHash := svc.auditHash previousHash body svc.keyId signature }

/-- How audit rows are chained: what the trigger and the check of the table demand of a row. -/
def auditChain (svc : WardenService d Hash) : HashChain (AuditRow d Hash) (ℤ × Hash) where
  genesis := (-1, svc.zeroHash)
  tip row := (row.body.sequence, row.eventHash)
  Follows tip row := (row.body.sequence : ℤ) = tip.1 + 1 ∧ row.previousHash = tip.2 ∧
    row.eventHash = svc.auditHash row.previousHash row.body row.keyId row.signature

def AuditExtends (svc : WardenService d Hash) (log log' : List (AuditRow d Hash)) : Prop :=
  log <+: log' ∧ (svc.auditChain.Valid log → svc.auditChain.Valid log')

def appendAudit (svc : WardenService d Hash) (clock : Reading)
    (eventType entityType entityId actorId : String) (details : List (String × Detail d))
    (db : Database d Hash) : Outcome (Database d Hash) := do
  svc.requireSigningKeyCurrent clock
  pure { db with
    auditLog := db.auditLog ++
      [svc.nextAuditRow clock eventType entityType entityId actorId details db] }

def requireAdmin (identity : IdentityContext) (tenantId : String) : Outcome Unit := do
  require (identity.tenantId = tenantId) (.policy "identity tenant does not match request tenant")
  require (identity.HasScope adminScopes) (.policy "warden administration scope is required")

def unsignedGrant (svc : WardenService d Hash) (clock : Reading) (db : Database d Hash)
    (policy : PolicyRow d) (policyDigest leaseId lineageId : String) (parentId : Option String)
    (subjectId : String) (allocation : ResourceVector d) (capabilities : Finset String)
    (ancestorPath : List String) (branchEpoch expiresAtNs : ℕ) : LeaseGrant d where
  tenantId := db.envelope.tenantId
  envelopeId := db.envelope.envelopeId
  configEpoch := db.envelope.configEpoch
  leaseId := leaseId
  lineageId := lineageId
  parentId := parentId
  subjectId := subjectId
  wardenId := svc.wardenId
  allocation := allocation
  capabilities := capabilities
  policyId := policy.payload.policyId
  policyVersion := policy.payload.policyVersion
  policyDigest := policyDigest
  machineDigest := policy.machineDigest
  ancestorPath := ancestorPath
  branchEpoch := branchEpoch
  issuedAtNs := clock.nowNs
  expiresAtNs := expiresAtNs
  keyId := svc.keyId
  signature := ""

def signGrant (svc : WardenService d Hash) (clock : Reading) (unsigned : LeaseGrant d) :
    Outcome (LeaseGrant d) := do
  unsigned.validate
  let signature ← svc.signRecord clock (.grant unsigned)
  pure { unsigned with signature }

def newGrant (svc : WardenService d Hash) (clock : Reading) (db : Database d Hash)
    (policy : PolicyRow d) (policyDigest leaseId lineageId : String) (parentId : Option String)
    (subjectId : String) (allocation : ResourceVector d) (capabilities : Finset String)
    (ancestorPath : List String) (branchEpoch expiresAtNs : ℕ) : Outcome (LeaseGrant d) :=
  svc.signGrant clock (svc.unsignedGrant clock db policy policyDigest leaseId lineageId parentId
    subjectId allocation capabilities ancestorPath branchEpoch expiresAtNs)

end WardenService

def LeaseGrant.toRow (grant : LeaseGrant d) (parentWarden : Option String) (state : String)
    (nowNs : ℕ) : Lease d where
  lineageId := grant.lineageId
  parentId := if parentWarden = none then grant.parentId else none
  parentWarden := parentWarden
  remoteParentId := if parentWarden = none then none else grant.parentId
  subjectId := grant.subjectId
  allocation := grant.allocation
  residual := grant.allocation
  capabilities := grant.capabilities
  machineDigest := grant.machineDigest
  ancestorPath := grant.ancestorPath
  branchEpoch := grant.branchEpoch
  configEpoch := grant.configEpoch
  issuedAtNs := grant.issuedAtNs
  expiresAtNs := grant.expiresAtNs
  keyId := grant.keyId
  signature := grant.signature
  state := state
  status := .active
  sequence := 0
  policyVersion := grant.policyVersion
  policyDigest := grant.policyDigest
  createdAtNs := nowNs
  updatedAtNs := nowNs

/-- Run the body of a write transaction and check the ledger before the commit; an error anywhere
leaves the database as it was. -/
def writeTransaction {α : Type} (db : Database d Hash)
    (body : Database d Hash → Outcome (Database d Hash × α)) : Outcome (Database d Hash × α) := do
  let result ← body db
  result.1.assertLocalConservation
  pure result

/-! ### What a primitive that succeeds has done -/

namespace Database

variable {db db' : Database d Hash} {clock : Reading}

def touch (nowNs : ℕ) (db : Database d Hash) : Database d Hash :=
  { db with clockFloorNs := some (db.advancedFloor nowNs) }

/-- The readings that `_clock_is_safe` admits. -/
structure ClockSafe (clock : Reading) (db : Database d Hash) : Prop where
  now_le : clock.nowNs ≤ maxResource
  uncertainty_le : clock.uncertaintyNs ≤ db.envelope.maxClockUncertaintyNs
  interval_le : clock.nowNs + clock.uncertaintyNs ≤ maxResource
  floor_le : ∀ floor ∈ db.clockFloorNs, floor ≤ clock.nowNs + clock.uncertaintyNs

theorem clockIsSafe_ok_iff :
    db.clockIsSafe clock = .ok db' ↔ db.ClockSafe clock ∧ db' = db.touch clock.nowNs := by
  simp only [clockIsSafe, bind_ok_iff, require_ok_iff, exists_unit_iff, pure_ok_iff, touch]
  constructor
  · rintro ⟨h₁, _, h₃, h₄, h₅, rfl⟩
    exact ⟨⟨h₁, h₃, h₄, h₅⟩, rfl⟩
  · rintro ⟨h, rfl⟩
    exact ⟨h.now_le, by have := h.interval_le; omega, h.uncertainty_le, h.interval_le, h.floor_le,
      rfl⟩

theorem idempotentResponse_none_iff {scope requestId fingerprint : String} :
    db.idempotentResponse scope requestId fingerprint = .ok none ↔
      db.idempotency.lookup requestId = none := by
  unfold idempotentResponse
  cases h : db.idempotency.lookup requestId with
  | none => simp
  | some row => simp only [bind_ok_iff, pure_ok_iff, reduceCtorEq, and_false, exists_const]

theorem idempotentResponse_some_iff {scope requestId fingerprint : String} {prior : Response d} :
    db.idempotentResponse scope requestId fingerprint = .ok (some prior) ↔
      ∃ row, db.idempotency.lookup requestId = some row ∧ row.scope = scope ∧
        row.fingerprint = fingerprint ∧ row.response = prior := by
  unfold idempotentResponse
  cases h : db.idempotency.lookup requestId with
  | none => simp
  | some row =>
    simp only [bind_ok_iff, require_ok_iff, pure_ok_iff, exists_unit_iff, Option.some.injEq,
      exists_eq_left', and_assoc]

theorem registeredPolicy_ok_iff {digest : String} {policy : PolicyRow d} :
    db.registeredPolicy digest = .ok policy ↔ db.policies.lookup digest = some policy :=
  orError_ok_iff

variable {leaseId : String} {lease : Lease d}

theorem loadLease_ok_iff :
    db.loadLease leaseId = .ok lease ↔ db.leases.lookup leaseId = some lease :=
  orError_ok_iff

theorem insertLease_ok_iff :
    db.insertLease leaseId lease = .ok db' ↔
      leaseId ∉ db.leases ∧ LeaseRowOk lease ∧ lease.parentWarden ≠ some db.wardenId ∧
      ∃ total : ResourceVector d, (∀ i, total i = db.leaseResidual i + lease.residual i) ∧
        db' = { db with leases := db.leases.insert leaseId lease, leaseResidual := total } := by
  simp only [insertLease, bind_ok_iff, require_ok_iff, exists_unit_iff, pure_ok_iff,
    ResourceVector.addOr_ok_iff, eq_comm (b := db')]

variable {f : Lease d → Lease d}

theorem updateLease_ok_iff :
    db.updateLease leaseId f = .ok db' ↔
      (∀ lease ∈ db.leases.lookup leaseId, LeaseRowOk (f lease)) ∧
        db' = { db with leases := db.leases.update leaseId f } := by
  simp only [updateLease, bind_ok_iff, require_ok_iff, exists_unit_iff, pure_ok_iff,
    eq_comm (b := db')]

theorem updateLeaseResidual_ok {residual : ResourceVector d}
    (h : db.updateLeaseResidual leaseId residual f = .ok db') :
    ∃ lease total, db.leases.lookup leaseId = some lease ∧
      LeaseRowOk { f lease with residual } ∧
      (∀ i, total i + lease.residual i = db.leaseResidual i + residual i) ∧
      db' = { db with
        leases := db.leases.update leaseId fun lease => { f lease with residual }
        leaseResidual := total } := by
  simp only [updateLeaseResidual, bind_ok_iff, pure_ok_iff, loadLease_ok_iff, updateLease_ok_iff,
    ResourceVector.addOr_ok_iff, ResourceVector.subtractOr_ok_iff] at h
  obtain ⟨lease, hlease, rest, hrest, total, htotal, _, ⟨hok, rfl⟩, rfl⟩ := h
  refine ⟨lease, total, hlease, hok lease hlease, fun i => ?_, rfl⟩
  rw [htotal i, add_right_comm, hrest i]

theorem requireActionable_ok_iff {u : Unit} :
    db.requireActionable leaseId lease clock = .ok u ↔
      lease.status = .active ∧ clock.nowNs + clock.uncertaintyNs < lease.expiresAtNs ∧
        db.leaseRevoked leaseId lease = false := by
  simp only [requireActionable, bind_ok_iff, require_ok_iff, exists_unit_iff]

theorem mem_enqueued {recordKind : RecordKind} {recordId targetWarden orderingKey : String}
    {streamPosition nowNs : ℕ} {payload : SignedRecord d} {supersedeOlder : Bool}
    {deliveries : PeerDeliveries d}
    {key : RecordKind × String × String} :
    key ∈ enqueued recordKind recordId targetWarden orderingKey streamPosition payload nowNs
      supersedeOlder deliveries ↔
    key = (recordKind, recordId, targetWarden) ∨ key ∈ deliveries := by
  rw [enqueued, AList.mem_insert]
  cases supersedeOlder with
  | false => exact Iff.rfl
  | true => exact or_congr_right Table.mem_mapRows

theorem enqueuePeerDelivery_ok_iff {recordKind : RecordKind}
    {recordId targetWarden orderingKey : String} {streamPosition nowNs : ℕ}
    {payload : SignedRecord d} {supersedeOlder : Bool} :
    db.enqueuePeerDelivery recordKind recordId targetWarden orderingKey streamPosition payload
      nowNs supersedeOlder = .ok db' ↔
    (recordKind, recordId, targetWarden) ∉ db.peerDeliveries ∧
      db' = { db with
        peerDeliveries := enqueued recordKind recordId targetWarden orderingKey streamPosition
          payload nowNs supersedeOlder db.peerDeliveries } := by
  simp only [enqueuePeerDelivery, bind_ok_iff, require_ok_iff, exists_unit_iff, pure_ok_iff]
  exact and_congr_right fun _ => eq_comm

/-- A recorded request is answered again: nothing moves but the clock floor. -/
def Replays (clock : Reading) (scope requestId fingerprint : String) (out : Response d)
    (db db' : Database d Hash) : Prop :=
  db' = db.touch clock.nowNs ∧
    ∃ row, db.idempotency.lookup requestId = some row ∧ row.scope = scope ∧
      row.fingerprint = fingerprint ∧ row.response = out

theorem replays_of {clock : Reading} {scope requestId fingerprint : String} {prior out : Response d}
    (hprior : (db.touch clock.nowNs).idempotentResponse scope requestId fingerprint =
      .ok (some prior))
    (h : (pure (db.touch clock.nowNs, prior) : Outcome _) = .ok (db', out)) :
    Replays clock scope requestId fingerprint out db db' := by
  obtain ⟨rfl, rfl⟩ := Prod.mk.inj (Except.ok.inj h)
  exact ⟨rfl, idempotentResponse_some_iff.mp hprior⟩

/-- The ledger identity that every commit checks, with what it adds up to in range. -/
structure Conserved (db : Database d Hash) : Prop where
  identity : ∀ i, db.envelope.initialLocalShare i + db.transferredIn i =
    db.freePool i + db.leaseResidual i + (db.consumed i + db.transferredOut i)
  le_max : ∀ i, db.envelope.initialLocalShare i + db.transferredIn i ≤ maxResource

theorem assertLocalConservation_ok_iff : db.assertLocalConservation = .ok () ↔ db.Conserved := by
  simp only [assertLocalConservation, bind_ok_iff, require_ok_iff, ResourceVector.addOr_ok_iff]
  constructor
  · rintro ⟨available, havailable, held, hheld, spent, hspent, accounted, haccounted, heq⟩
    refine ⟨fun i => ?_, fun i => ?_⟩
    · rw [← havailable i, ← hheld i, ← hspent i, ← haccounted i, heq]
    · exact havailable i ▸ available.le_max i
  · intro h
    have hmax := h.le_max
    have hsum := fun i => h.identity i ▸ hmax i
    refine ⟨⟨_, hmax⟩, fun i => rfl, ⟨_, fun i => ?_⟩, fun i => rfl, ⟨_, fun i => ?_⟩, fun i => rfl,
      ⟨_, hsum⟩, fun i => rfl, ?_⟩
    · exact (Nat.le_add_right _ _).trans (hsum i)
    · exact (Nat.le_add_left _ _).trans (hsum i)
    · exact ResourceVector.ext h.identity

/-- The running total of the residuals is what the lease rows hold together. -/
def ResidualSum (db : Database d Hash) : Prop :=
  ∀ i, db.leaseResidual i = db.leases.sumOf fun _ lease => lease.residual i

variable {leases : Table String (Lease d)}

theorem sumOf_insert_lease (hnew : leaseId ∉ leases) (i : Fin d) :
    Table.sumOf (fun _ lease => lease.residual i) (leases.insert leaseId lease) =
      lease.residual i + leases.sumOf fun _ lease => lease.residual i :=
  Table.sumOf_insert _ lease hnew

theorem sumOf_update_lease (hlease : leases.lookup leaseId = some lease) (i : Fin d) :
    ((leases.update leaseId f).sumOf fun _ lease => lease.residual i) + lease.residual i =
      (leases.sumOf fun _ lease => lease.residual i) + (f lease).residual i :=
  Table.sumOf_update (g := fun lease : Lease d => lease.residual i) hlease

end Database

theorem writeTransaction_ok {α : Type} {db db' : Database d Hash} {a : α}
    {body : Database d Hash → Outcome (Database d Hash × α)}
    (h : writeTransaction db body = .ok (db', a)) : body db = .ok (db', a) ∧ db'.Conserved := by
  simp only [writeTransaction, bind_ok_iff, pure_ok_iff, exists_unit_iff] at h
  obtain ⟨result, hbody, hassert, rfl⟩ := h
  exact ⟨hbody, Database.assertLocalConservation_ok_iff.mp hassert⟩

theorem writeTransaction_of {α : Type} {db db' : Database d Hash} {a : α}
    {body : Database d Hash → Outcome (Database d Hash × α)} (h : body db = .ok (db', a))
    (hconserved : db'.Conserved) : writeTransaction db body = .ok (db', a) := by
  simp only [writeTransaction, bind_ok_iff, pure_ok_iff, exists_unit_iff]
  exact ⟨_, h, Database.assertLocalConservation_ok_iff.mpr hconserved, rfl⟩

namespace WardenService

variable {svc : WardenService d Hash} {clock : Reading} {db db' : Database d Hash}

theorem AuditExtends.refl (log : List (AuditRow d Hash)) : svc.AuditExtends log log :=
  ⟨List.prefix_refl log, id⟩

theorem AuditExtends.append_nil (log : List (AuditRow d Hash)) :
    svc.AuditExtends log (log ++ []) := by
  rw [List.append_nil]
  exact .refl log

theorem AuditExtends.trans {log log' log'' : List (AuditRow d Hash)}
    (h : svc.AuditExtends log log') (h' : svc.AuditExtends log' log'') :
    svc.AuditExtends log log'' :=
  ⟨h.1.trans h'.1, fun hvalid => h'.2 (h.2 hvalid)⟩

variable {details : List (String × Detail d)}

theorem nextAuditRow_follows {eventType entityType entityId actorId : String} :
    svc.auditChain.Follows
      (svc.auditChain.tipOf db.auditLog)
      (svc.nextAuditRow clock eventType entityType entityId actorId details db) := by
  unfold nextAuditRow HashChain.tipOf
  cases db.auditLog.getLast? with
  | none => exact ⟨rfl, rfl, rfl⟩
  | some row => exact ⟨by simp [auditChain], rfl, rfl⟩

theorem appendAudit_ok {eventType entityType entityId actorId : String}
    (h : svc.appendAudit clock eventType entityType entityId actorId details db = .ok db') :
    ∃ row, svc.AuditExtends db.auditLog (db.auditLog ++ [row]) ∧
      db' = { db with auditLog := db.auditLog ++ [row] } := by
  simp only [appendAudit, bind_ok_iff, pure_ok_iff] at h
  obtain ⟨_, _, rfl⟩ := h
  refine ⟨_, ⟨List.prefix_append _ _, fun hvalid => ?_⟩, rfl⟩
  exact .snoc hvalid nextAuditRow_follows

theorem appendAudit_of (hcurrent : svc.requireSigningKeyCurrent clock = .ok ())
    (eventType entityType entityId actorId : String) (details : List (String × Detail d))
    (db : Database d Hash) : ∃ row,
      svc.appendAudit clock eventType entityType entityId actorId details db =
        .ok { db with auditLog := db.auditLog ++ [row] } := by
  simp only [appendAudit, bind_ok_iff, pure_ok_iff, exists_unit_iff]
  exact ⟨_, hcurrent, rfl⟩

theorem signGrant_ok {unsigned grant : LeaseGrant d}
    (h : svc.signGrant clock unsigned = .ok grant) :
    unsigned.validate = .ok () ∧ ∃ signature, grant = { unsigned with signature } := by
  simp only [signGrant, bind_ok_iff, pure_ok_iff, exists_unit_iff] at h
  obtain ⟨hvalid, signature, _, rfl⟩ := h
  exact ⟨hvalid, signature, rfl⟩

end WardenService

end Lets
