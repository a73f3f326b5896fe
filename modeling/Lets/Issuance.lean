import Lets.Service

set_option autoImplicit false

/-!
# Issuing leases

`issue_root` takes a lease from the free pool, `spawn` one from a parent on the same warden, and
`spawn_remote` debits a parent and signs the voucher that asks a peer to create the child.
-/

namespace Lets

open Library

variable {d : ℕ} {Hash : Type}

structure IssueRootRequest (d : ℕ) where
  requestId : String
  identity : IdentityContext
  tenantId : String
  envelopeId : String
  subjectId : String
  allocation : ResourceVector d
  capabilities : Finset String
  policyDigest : String
  ttlNs : ℕ
  lineageId : Option String

structure SpawnRequest (d : ℕ) where
  requestId : String
  identity : IdentityContext
  parentId : String
  subjectId : String
  allocation : ResourceVector d
  capabilities : Finset String
  ttlNs : ℕ
  policyDigest : Option String
  expectedSequence : Option ℕ

structure SpawnRemoteRequest (d : ℕ) where
  requestId : String
  identity : IdentityContext
  parentId : String
  targetWarden : String
  subjectId : String
  allocation : ResourceVector d
  capabilities : Finset String
  ttlNs : ℕ
  expectedSequence : Option ℕ

def IssueRootRequest.arguments (req : IssueRootRequest d) (configEpoch : ℕ) : Arguments d :=
  .issueRoot req.identity.subjectId req.subjectId req.allocation req.capabilities
    req.policyDigest req.ttlNs req.lineageId configEpoch

def SpawnRequest.arguments (req : SpawnRequest d) (configEpoch : ℕ) : Arguments d :=
  .spawn req.identity.subjectId req.parentId req.subjectId req.allocation req.capabilities
    req.ttlNs req.policyDigest req.expectedSequence configEpoch

def SpawnRemoteRequest.arguments (req : SpawnRemoteRequest d) (configEpoch : ℕ) : Arguments d :=
  .spawnRemote req.identity.subjectId req.parentId req.targetWarden req.subjectId req.allocation
    req.capabilities req.ttlNs req.expectedSequence configEpoch

def OutgoingTransfer.prepared (voucher : TransferVoucher d) (digest : String) (nowNs : ℕ) :
    OutgoingTransfer d where
  digest := digest
  voucher := voucher
  status := .prepared
  preparedAtNs := nowNs
  acknowledgedAtNs := none
  ackPayload := none

def OutgoingStream.new (configEpoch : ℕ) : OutgoingStream where
  configEpoch := configEpoch
  nextSequence := 1
  ackedThrough := 0
  compactedThrough := 0
  checkpointPayload := none

namespace Database

/-- The stream to a target, as it is or as a first transfer opens it. -/
def outgoingStream (targetWarden : String) (db : Database d Hash) : OutgoingStream :=
  (db.outgoingStreams.lookup targetWarden).getD (.new db.envelope.configEpoch)

def openOutgoingStream (targetWarden : String) (db : Database d Hash) : Outcome OutgoingStream := do
  require (targetWarden ≠ db.wardenId) (.integrity "outgoing transfer target must be remote")
  require ((db.outgoingStream targetWarden).configEpoch = db.envelope.configEpoch)
    (.conflict "outgoing stream belongs to another configuration epoch")
  pure (db.outgoingStream targetWarden)

def storeVoucher (stream : OutgoingStream) (voucher : TransferVoucher d) (digest : String)
    (nowNs : ℕ) (db : Database d Hash) : Outcome (Database d Hash) := do
  require ((voucher.targetWarden, voucher.sequence) ∉ db.outgoingTransfers)
    (.integrity "UNIQUE constraint failed: outgoing_transfers.sequence")
  require (db.outgoingTransfers.anyRow
      (fun _ row => row.voucher.transferId = voucher.transferId ∨ row.digest = digest) = false)
    (.integrity "UNIQUE constraint failed: outgoing_transfers.transfer_id")
  pure { db with
    outgoingTransfers := db.outgoingTransfers.insert (voucher.targetWarden, voucher.sequence)
      (.prepared voucher digest nowNs)
    outgoingStreams := db.outgoingStreams.insert voucher.targetWarden
      { stream with nextSequence := stream.nextSequence + 1 } }

end Database

def SpawnRemoteRequest.leaseRequest (req : SpawnRemoteRequest d) (childLeaseId : String)
    (parent : Lease d) (expiresAtNs : ℕ) : LeaseRequest where
  childLeaseId := childLeaseId
  lineageId := parent.lineageId
  parentId := req.parentId
  subjectId := req.subjectId
  capabilities := req.capabilities
  ancestorPath := parent.ancestorPath ++ [req.parentId]
  branchEpoch := parent.branchEpoch
  expiresAtNs := expiresAtNs

def SpawnRemoteRequest.pendingChild (req : SpawnRemoteRequest d) (transferId : String)
    (sequence expiresAtNs nowNs : ℕ) : RemoteChild d where
  parentId := req.parentId
  targetWarden := req.targetWarden
  transferId := transferId
  sequence := sequence
  allocation := req.allocation
  expiresAtNs := expiresAtNs
  status := .pending
  observedStatus := none
  createdAtNs := nowNs
  updatedAtNs := nowNs

namespace WardenService

def unsignedVoucher (svc : WardenService d Hash) (clock : Reading) (db : Database d Hash)
    (policy : PolicyRow d) (policyDigest transferId targetWarden : String) (sequence : ℕ)
    (amount : ResourceVector d) (leaseRequest : Option LeaseRequest) : TransferVoucher d where
  tenantId := db.envelope.tenantId
  envelopeId := db.envelope.envelopeId
  configEpoch := db.envelope.configEpoch
  transferId := transferId
  sourceWarden := svc.wardenId
  targetWarden := targetWarden
  policyId := policy.payload.policyId
  policyVersion := policy.payload.policyVersion
  policyDigest := policyDigest
  sequence := sequence
  amount := amount
  issuedAtNs := clock.nowNs
  keyId := svc.keyId
  signature := ""
  leaseRequest := leaseRequest

def newVoucher (svc : WardenService d Hash) (clock : Reading) (db : Database d Hash)
    (policy : PolicyRow d) (policyDigest transferId targetWarden : String) (sequence : ℕ)
    (amount : ResourceVector d) (leaseRequest : Option LeaseRequest) :
    Outcome (TransferVoucher d) := do
  let unsigned := svc.unsignedVoucher clock db policy policyDigest transferId targetWarden
    sequence amount leaseRequest
  unsigned.validate
  let signature ← svc.signRecord clock (.voucher unsigned)
  pure { unsigned with signature }

def issueRoot (svc : WardenService d Hash) (clock : Reading) (newLeaseId newLineageId : String)
    (req : IssueRootRequest d) (db : Database d Hash) :
    Outcome (Database d Hash × Response d) := do
  let actor := req.identity.subjectId
  require (req.identity.tenantId = req.tenantId)
    (.policy "identity tenant does not match request tenant")
  require (req.identity.HasScope rootIssuerScopes) (.policy "root lease issuance scope is required")
  positiveTtl req.ttlNs
  require req.allocation.NonZero
    (.validation "root allocation must contain a non-zero dimension")
  let fingerprint := svc.fingerprint (req.arguments db.envelope.configEpoch)
  writeTransaction db fun db => do
    svc.verifyDatabaseIdentity db
    db.requireEnvelope req.tenantId req.envelopeId
    let db ← db.clockIsSafe clock
    match ← db.idempotentResponse "issue_root" req.requestId fingerprint with
    | some prior => pure (db, prior)
    | none => do
      db.requireRuntimeActive
      let policy ← db.registeredPolicy req.policyDigest
      require (req.capabilities ⊆ policy.declaredCapabilities)
        (.policy "root grant requests capabilities undeclared by its policy")
      require (∃ maximum ∈ policy.payload.maxLeaseTtlNs, req.ttlNs ≤ maximum)
        (.policy "requested root TTL exceeds the registered policy maximum")
      require (req.allocation.lessThanOrEqual db.freePool)
        (.policy "local warden free pool lacks the requested root allocation")
      let expiresAtNs := clock.nowNs + req.ttlNs
      require (clock.nowNs + clock.uncertaintyNs < expiresAtNs)
        (.expired "requested root lease is not fresh under clock uncertainty")
      let lineageId := req.lineageId.getD newLineageId
      let grant ← svc.newGrant clock db policy req.policyDigest newLeaseId lineageId none
        req.subjectId req.allocation req.capabilities [] 0 expiresAtNs
      let db ← db.insertLease newLeaseId (grant.toRow none policy.payload.initialState clock.nowNs)
      let freePool ← db.freePool.subtract req.allocation
      let db := { db with freePool, revision := db.revision + 1 }
      let db ← svc.appendAudit clock "lease.root-issued" "lease" newLeaseId actor
        [("lineage_id", .text lineageId), ("allocation", .amount req.allocation),
          ("policy_digest", .text req.policyDigest)] db
      pure (db.rememberResponse "issue_root" req.requestId fingerprint (.grant grant)
        clock.nowNs 201, .grant grant)

def spawn (svc : WardenService d Hash) (clock : Reading) (newLeaseId : String)
    (req : SpawnRequest d) (db : Database d Hash) : Outcome (Database d Hash × Response d) := do
  let actor := req.identity.subjectId
  positiveTtl req.ttlNs
  checkExpectedSequence req.expectedSequence
  require (req.identity.tenantId = db.envelope.tenantId)
    (.policy "identity tenant does not match parent tenant")
  require req.allocation.NonZero
    (.validation "child allocation must contain a non-zero dimension")
  let fingerprint := svc.fingerprint (req.arguments db.envelope.configEpoch)
  let scope := "spawn:" ++ req.parentId
  writeTransaction db fun db => do
    let db ← db.clockIsSafe clock
    let parent ← db.loadLease req.parentId
    require (actor = parent.subjectId ∨ req.identity.HasScope subjectLifecycleScopes)
      (.policy "only the parent subject may spawn a child")
    let policyDigest := req.policyDigest.getD parent.policyDigest
    match ← db.idempotentResponse scope req.requestId fingerprint with
    | some prior => pure (db, prior)
    | none => do
      db.requireRuntimeActive
      db.requireActionable req.parentId parent clock
      require (∀ s ∈ req.expectedSequence, parent.sequence = s)
        (.conflict (expectedText "parent sequence" (toString parent.sequence)
          (toString (req.expectedSequence.getD 0))))
      require (req.capabilities ⊆ parent.capabilities)
        (.policy "child capability set is not attenuated from its parent")
      require (req.allocation.lessThanOrEqual parent.residual)
        (.policy "parent residual does not cover the child allocation")
      let policy ← db.registeredPolicy policyDigest
      require (policyDigest = parent.policyDigest)
        (.policy "child policy is not inherited exactly from its parent")
      require (∃ maximum ∈ policy.payload.maxLeaseTtlNs, req.ttlNs ≤ maximum)
        (.policy "requested child TTL exceeds the registered policy maximum")
      let expiresAtNs := min (clock.nowNs + req.ttlNs) parent.expiresAtNs
      require (clock.nowNs + clock.uncertaintyNs < expiresAtNs)
        (.expired "child expiry is not fresh under clock uncertainty")
      require (parent.ancestorPath.length < maxLineageDepth)
        (.policy "child would exceed the v1 lineage depth limit of 64")
      let grant ← svc.newGrant clock db policy policyDigest newLeaseId parent.lineageId
        (some req.parentId) req.subjectId req.allocation req.capabilities
        (parent.ancestorPath ++ [req.parentId]) parent.branchEpoch expiresAtNs
      let residual ← parent.residual.subtract req.allocation
      let db ← db.updateLeaseResidual req.parentId residual fun lease =>
        { lease with sequence := lease.sequence + 1, updatedAtNs := clock.nowNs }
      let db ← db.insertLease newLeaseId (grant.toRow none policy.payload.initialState clock.nowNs)
      let db ← svc.appendAudit clock "lease.spawned" "lease" newLeaseId actor
        [("parent_id", .text req.parentId), ("lineage_id", .text parent.lineageId),
          ("allocation", .amount req.allocation), ("policy_digest", .text policyDigest)] db
      pure (db.rememberResponse scope req.requestId fingerprint (.grant grant) clock.nowNs 201,
        .grant grant)

def spawnRemote (svc : WardenService d Hash) (clock : Reading) (newLeaseId newTransferId : String)
    (req : SpawnRemoteRequest d) (db : Database d Hash) :
    Outcome (Database d Hash × Response d) := do
  let actor := req.identity.subjectId
  require (req.targetWarden ≠ svc.wardenId)
    (.validation "remote spawn target must differ from the parent's warden")
  require (∃ peers ∈ svc.allowedPeerWardens, req.targetWarden ∈ peers)
    (.policy "remote spawn target is not authorized by this warden configuration")
  positiveTtl req.ttlNs
  checkExpectedSequence req.expectedSequence
  require (req.identity.tenantId = db.envelope.tenantId)
    (.policy "identity tenant does not match parent tenant")
  require req.allocation.NonZero
    (.validation "child allocation must contain a non-zero dimension")
  let fingerprint := svc.fingerprint (req.arguments db.envelope.configEpoch)
  let scope := "spawn_remote:" ++ req.parentId
  writeTransaction db fun db => do
    svc.verifyDatabaseIdentity db
    let db ← db.clockIsSafe clock
    let parent ← db.loadLease req.parentId
    require (actor = parent.subjectId ∨ req.identity.HasScope subjectLifecycleScopes)
      (.policy "only the parent subject may spawn a child")
    match ← db.idempotentResponse scope req.requestId fingerprint with
    | some prior => pure (db, prior)
    | none => do
      db.requireRuntimeActive
      db.requireActionable req.parentId parent clock
      require (∀ s ∈ req.expectedSequence, parent.sequence = s)
        (.conflict (expectedText "parent sequence" (toString parent.sequence)
          (toString (req.expectedSequence.getD 0))))
      require (req.capabilities ⊆ parent.capabilities)
        (.policy "child capability set is not attenuated from its parent")
      require (req.allocation.lessThanOrEqual parent.residual)
        (.policy "parent residual does not cover the child allocation")
      let policy ← db.registeredPolicy parent.policyDigest
      require (∃ maximum ∈ policy.payload.maxLeaseTtlNs, req.ttlNs ≤ maximum)
        (.policy "requested child TTL exceeds the registered policy maximum")
      let expiresAtNs := min (clock.nowNs + req.ttlNs) parent.expiresAtNs
      require (clock.nowNs + clock.uncertaintyNs < expiresAtNs)
        (.expired "child expiry is not fresh under clock uncertainty")
      require (parent.ancestorPath.length < maxLineageDepth)
        (.policy "child would exceed the v1 lineage depth limit of 64")
      require (svc.hasCurrentWarden req.targetWarden = true)
        (.signature "remote spawn requires current target verification material")
      let stream ← db.openOutgoingStream req.targetWarden
      let voucher ← svc.newVoucher clock db policy parent.policyDigest newTransferId
        req.targetWarden stream.nextSequence req.allocation
        (some (req.leaseRequest newLeaseId parent expiresAtNs))
      let digest := svc.recordDigest (.voucher voucher)
      let db ← db.storeVoucher stream voucher digest clock.nowNs
      let db ← db.enqueuePeerDelivery .transfer newTransferId req.targetWarden req.targetWarden
        stream.nextSequence (.voucher voucher) clock.nowNs false
      let residual ← parent.residual.subtract req.allocation
      let db ← db.updateLeaseResidual req.parentId residual fun lease =>
        { lease with sequence := lease.sequence + 1, updatedAtNs := clock.nowNs }
      let transferredOut ← db.transferredOut.add req.allocation
      let db := { db with transferredOut, revision := db.revision + 1 }
      require (newLeaseId ∉ db.remoteChildren)
        (.integrity "UNIQUE constraint failed: remote_children.child_lease_id")
      let db := { db with
        remoteChildren := db.remoteChildren.insert newLeaseId
          (req.pendingChild newTransferId stream.nextSequence expiresAtNs clock.nowNs) }
      let db ← svc.appendAudit clock "lease.spawned-remote" "lease" newLeaseId actor
        [("parent_id", .text req.parentId), ("lineage_id", .text parent.lineageId),
          ("target_warden", .text req.targetWarden), ("transfer_id", .text newTransferId),
          ("sequence", .number stream.nextSequence), ("allocation", .amount req.allocation),
          ("voucher_digest", .text digest)] db
      pure (db.rememberResponse scope req.requestId fingerprint (.voucher voucher) clock.nowNs 201,
        .voucher voucher)

section Spec

variable {svc : WardenService d Hash} {clock : Reading} {db db' : Database d Hash}
  {out : Response d}

/-- What `issue_root` has checked and done when it issues a new lease. -/
structure RootIssued (svc : WardenService d Hash) (clock : Reading)
    (newLeaseId newLineageId : String) (req : IssueRootRequest d) (db db' : Database d Hash)
    (out : Response d) where
  policy : PolicyRow d
  signature : String
  freePool : ResourceVector d
  total : ResourceVector d
  auditRow : AuditRow d Hash
  runtimeActive : db.runtime.mode = .active
  policy_eq : db.policies.lookup req.policyDigest = some policy
  capabilities_subset : req.capabilities ⊆ policy.declaredCapabilities
  fresh : clock.nowNs + clock.uncertaintyNs < clock.nowNs + req.ttlNs
  valid : (svc.unsignedGrant clock db policy req.policyDigest newLeaseId
    (req.lineageId.getD newLineageId) none req.subjectId req.allocation req.capabilities
    [] 0 (clock.nowNs + req.ttlNs)).validate = .ok ()
  leaseId_new : newLeaseId ∉ db.leases
  freePool_eq : ∀ i, freePool i + req.allocation i = db.freePool i
  total_eq : ∀ i, total i = db.leaseResidual i + req.allocation i
  request_new : db.idempotency.lookup req.requestId = none
  grant : LeaseGrant d
  grant_eq : grant = { svc.unsignedGrant clock db policy req.policyDigest newLeaseId
    (req.lineageId.getD newLineageId) none req.subjectId req.allocation req.capabilities
    [] 0 (clock.nowNs + req.ttlNs) with signature }
  out_eq : out = .grant grant
  chained : svc.AuditExtends db.auditLog (db.auditLog ++ [auditRow])
  result : db' = Database.rememberResponse "issue_root" req.requestId
    (svc.fingerprint (req.arguments db.envelope.configEpoch)) out clock.nowNs 201
    { db.touch clock.nowNs with
      leases := db.leases.insert newLeaseId
        (grant.toRow none policy.payload.initialState clock.nowNs)
      leaseResidual := total
      freePool
      revision := db.revision + 1
      auditLog := db.auditLog ++ [auditRow] }

variable {newLeaseId : String}

theorem issueRoot_ok {newLineageId : String} {req : IssueRootRequest d}
    (h : svc.issueRoot clock newLeaseId newLineageId req db = .ok (db', out)) :
    db.ClockSafe clock ∧ db'.Conserved ∧
      (Database.Replays clock "issue_root" req.requestId
          (svc.fingerprint (req.arguments db.envelope.configEpoch)) out db db' ∨
        Nonempty (RootIssued svc clock newLeaseId newLineageId req db db' out)) := by
  simp only [issueRoot, bind_ok_iff, require_ok_iff, exists_unit_iff] at h
  obtain ⟨_, _, _, _, h⟩ := h
  obtain ⟨h, hcons⟩ := writeTransaction_ok h
  simp only [bind_ok_iff, exists_unit_iff, Database.clockIsSafe_ok_iff] at h
  obtain ⟨_, _, _, ⟨hclock, rfl⟩, prior, hprior, h⟩ := h
  refine ⟨hclock, hcons, ?_⟩
  cases prior with
  | some prior => exact .inl (Database.replays_of hprior h)
  | none =>
    simp only [bind_ok_iff, require_ok_iff, exists_unit_iff, pure_ok_iff, newGrant,
      Database.requireRuntimeActive, Database.registeredPolicy_ok_iff,
      Database.insertLease_ok_iff, ResourceVector.subtract_ok_iff, Prod.mk.injEq] at h
    obtain ⟨hactive, policy, hpolicy, hcaps, _, _, hfresh, grant, hgrant, _,
      ⟨hnew, _, _, total, htotal, rfl⟩, freePool, hfree, _, haudit, rfl, rfl⟩ := h
    obtain ⟨auditRow, hchained, rfl⟩ := appendAudit_ok haudit
    obtain ⟨hvalid, signature, rfl⟩ := signGrant_ok hgrant
    exact .inr ⟨{
      policy, signature, freePool, total, auditRow
      runtimeActive := hactive
      policy_eq := hpolicy
      capabilities_subset := hcaps
      fresh := hfresh
      valid := hvalid
      leaseId_new := hnew
      freePool_eq := hfree
      total_eq := htotal
      request_new := Database.idempotentResponse_none_iff.mp hprior
      grant := _
      grant_eq := rfl
      out_eq := rfl
      chained := hchained
      result := rfl }⟩

def childExpiry (clock : Reading) (ttlNs : ℕ) (parent : Lease d) : ℕ :=
  min (clock.nowNs + ttlNs) parent.expiresAtNs

def debited (residual : ResourceVector d) (nowNs : ℕ) (parent : Lease d) : Lease d :=
  { parent with residual, sequence := parent.sequence + 1, updatedAtNs := nowNs }

/-- What `spawn` has checked and done when it creates a new child. -/
structure Spawned (svc : WardenService d Hash) (clock : Reading) (newLeaseId : String)
    (req : SpawnRequest d) (db db' : Database d Hash) (out : Response d) where
  parent : Lease d
  policy : PolicyRow d
  signature : String
  residual : ResourceVector d
  total : ResourceVector d
  auditRow : AuditRow d Hash
  parent_eq : db.leases.lookup req.parentId = some parent
  runtimeActive : db.runtime.mode = .active
  parentActive : parent.status = .active
  parentFresh : clock.nowNs + clock.uncertaintyNs < parent.expiresAtNs
  parentNotRevoked : db.leaseRevoked req.parentId parent = false
  capabilities_subset : req.capabilities ⊆ parent.capabilities
  policy_eq : db.policies.lookup parent.policyDigest = some policy
  fresh : clock.nowNs + clock.uncertaintyNs < childExpiry clock req.ttlNs parent
  depth_lt : parent.ancestorPath.length < maxLineageDepth
  grant : LeaseGrant d
  valid : (svc.unsignedGrant clock db policy parent.policyDigest newLeaseId parent.lineageId
    (some req.parentId) req.subjectId req.allocation req.capabilities
    (parent.ancestorPath ++ [req.parentId]) parent.branchEpoch
    (childExpiry clock req.ttlNs parent)).validate = .ok ()
  grant_eq : grant = { svc.unsignedGrant clock db policy parent.policyDigest newLeaseId
    parent.lineageId (some req.parentId) req.subjectId req.allocation req.capabilities
    (parent.ancestorPath ++ [req.parentId]) parent.branchEpoch
    (childExpiry clock req.ttlNs parent) with signature }
  leaseId_new : newLeaseId ∉ db.leases
  parentTimes : parent.createdAtNs ≤ clock.nowNs
  residual_eq : ∀ i, residual i + req.allocation i = parent.residual i
  total_eq : ∀ i, total i = db.leaseResidual i
  request_new : db.idempotency.lookup req.requestId = none
  out_eq : out = .grant grant
  chained : svc.AuditExtends db.auditLog (db.auditLog ++ [auditRow])
  result : db' = Database.rememberResponse ("spawn:" ++ req.parentId) req.requestId
    (svc.fingerprint (req.arguments db.envelope.configEpoch)) out clock.nowNs 201
    { db.touch clock.nowNs with
      leases := (db.leases.update req.parentId (debited residual clock.nowNs)).insert newLeaseId
        (grant.toRow none policy.payload.initialState clock.nowNs)
      leaseResidual := total
      auditLog := db.auditLog ++ [auditRow] }

theorem mem_update_iff {leases : Table String (Lease d)} {leaseId leaseId' : String}
    {f : Lease d → Lease d} : leaseId' ∈ leases.update leaseId f ↔ leaseId' ∈ leases := by
  simp only [Table.mem_iff_lookup, Table.lookup_update]
  split_ifs <;> simp

theorem spawn_ok {req : SpawnRequest d} (h : svc.spawn clock newLeaseId req db = .ok (db', out)) :
    db.ClockSafe clock ∧ db'.Conserved ∧
      (Database.Replays clock ("spawn:" ++ req.parentId) req.requestId
          (svc.fingerprint (req.arguments db.envelope.configEpoch)) out db db' ∨
        Nonempty (Spawned svc clock newLeaseId req db db' out)) := by
  simp only [spawn, bind_ok_iff, require_ok_iff, exists_unit_iff] at h
  obtain ⟨_, _, _, _, h⟩ := h
  obtain ⟨h, hcons⟩ := writeTransaction_ok h
  simp only [bind_ok_iff, require_ok_iff, exists_unit_iff, Database.clockIsSafe_ok_iff,
    Database.loadLease_ok_iff] at h
  obtain ⟨_, ⟨hclock, rfl⟩, parent, hparent, _, prior, hprior, h⟩ := h
  refine ⟨hclock, hcons, ?_⟩
  cases prior with
  | some prior => exact .inl (Database.replays_of hprior h)
  | none =>
    simp only [bind_ok_iff, require_ok_iff, exists_unit_iff, pure_ok_iff, newGrant,
      Database.requireRuntimeActive, Database.requireActionable_ok_iff,
      Database.registeredPolicy_ok_iff, Database.insertLease_ok_iff,
      ResourceVector.subtract_ok_iff, Prod.mk.injEq] at h
    obtain ⟨hactive, ⟨hstatus, hexpiry, hrevoked⟩, _, hcaps, _, policy, hpolicy, hdigest, _, hfresh,
      hdepth, grant, hgrant, residual, hresidual, _, hupdate, _,
      ⟨hnew, _, _, total, htotal, rfl⟩, _, haudit, rfl, rfl⟩ := h
    rw [hdigest] at hpolicy hgrant
    obtain ⟨lease, total', hlease, hok, htotal', rfl⟩ := Database.updateLeaseResidual_ok hupdate
    obtain rfl := some_unique hparent hlease
    obtain ⟨auditRow, hchained, rfl⟩ := appendAudit_ok haudit
    obtain ⟨hvalid, signature, rfl⟩ := signGrant_ok hgrant
    exact .inr ⟨{
      parent, policy, signature, residual, total, auditRow
      parent_eq := hparent
      runtimeActive := hactive
      parentActive := hstatus
      parentFresh := hexpiry
      parentNotRevoked := hrevoked
      capabilities_subset := hcaps
      policy_eq := hpolicy
      fresh := hfresh
      depth_lt := hdepth
      valid := hvalid
      grant := _
      grant_eq := rfl
      leaseId_new := fun hmem => hnew (mem_update_iff.mpr hmem)
      parentTimes := hok.2
      residual_eq := hresidual
      total_eq := fun i => by
        have h₁ := htotal i
        have h₂ := htotal' i
        have h₃ := hresidual i
        simp only [LeaseGrant.toRow, unsignedGrant, Database.touch] at h₁ h₂
        omega
      request_new := Database.idempotentResponse_none_iff.mp hprior
      out_eq := rfl
      chained := hchained
      result := rfl }⟩

theorem storeVoucher_ok {stream : OutgoingStream} {voucher : TransferVoucher d} {digest : String}
    {nowNs : ℕ} (h : db.storeVoucher stream voucher digest nowNs = .ok db') :
    (voucher.targetWarden, voucher.sequence) ∉ db.outgoingTransfers ∧
      db' = { db with
        outgoingTransfers := db.outgoingTransfers.insert (voucher.targetWarden, voucher.sequence)
          (.prepared voucher digest nowNs)
        outgoingStreams := db.outgoingStreams.insert voucher.targetWarden
          { stream with nextSequence := stream.nextSequence + 1 } } := by
  simp only [Database.storeVoucher, bind_ok_iff, require_ok_iff, exists_unit_iff,
    pure_ok_iff] at h
  exact ⟨h.1, h.2.2.symm⟩

theorem newVoucher_ok {policy : PolicyRow d} {policyDigest transferId targetWarden : String}
    {sequence : ℕ} {amount : ResourceVector d} {leaseRequest : Option LeaseRequest}
    {voucher : TransferVoucher d}
    (h : svc.newVoucher clock db policy policyDigest transferId targetWarden sequence amount
      leaseRequest = .ok voucher) :
    (svc.unsignedVoucher clock db policy policyDigest transferId targetWarden sequence amount
        leaseRequest).validate = .ok () ∧
      ∃ signature, voucher = { svc.unsignedVoucher clock db policy policyDigest transferId
        targetWarden sequence amount leaseRequest with signature } := by
  simp only [newVoucher, bind_ok_iff, pure_ok_iff, exists_unit_iff] at h
  obtain ⟨hvalid, signature, _, rfl⟩ := h
  exact ⟨hvalid, signature, rfl⟩

/-- What `spawn_remote` has checked and done when it debits the parent. -/
structure RemoteSpawned (svc : WardenService d Hash) (clock : Reading)
    (newLeaseId newTransferId : String) (req : SpawnRemoteRequest d) (db db' : Database d Hash)
    (out : Response d) where
  parent : Lease d
  policy : PolicyRow d
  signature : String
  residual : ResourceVector d
  total : ResourceVector d
  transferredOut : ResourceVector d
  deliveries : PeerDeliveries d
  auditRow : AuditRow d Hash
  target_ne : req.targetWarden ≠ svc.wardenId
  target_peer : ∃ peers ∈ svc.allowedPeerWardens, req.targetWarden ∈ peers
  identity : db.wardenId = svc.wardenId
  parent_eq : db.leases.lookup req.parentId = some parent
  runtimeActive : db.runtime.mode = .active
  parentActive : parent.status = .active
  parentFresh : clock.nowNs + clock.uncertaintyNs < parent.expiresAtNs
  parentNotRevoked : db.leaseRevoked req.parentId parent = false
  capabilities_subset : req.capabilities ⊆ parent.capabilities
  policy_eq : db.policies.lookup parent.policyDigest = some policy
  fresh : clock.nowNs + clock.uncertaintyNs < childExpiry clock req.ttlNs parent
  depth_lt : parent.ancestorPath.length < maxLineageDepth
  stream_epoch : (db.outgoingStream req.targetWarden).configEpoch = db.envelope.configEpoch
  voucher : TransferVoucher d
  valid : (svc.unsignedVoucher clock db policy parent.policyDigest newTransferId req.targetWarden
    (db.outgoingStream req.targetWarden).nextSequence req.allocation
    (some (req.leaseRequest newLeaseId parent
      (childExpiry clock req.ttlNs parent)))).validate = .ok ()
  voucher_eq : voucher = { svc.unsignedVoucher clock db policy parent.policyDigest newTransferId
    req.targetWarden (db.outgoingStream req.targetWarden).nextSequence req.allocation
    (some (req.leaseRequest newLeaseId parent (childExpiry clock req.ttlNs parent))) with
    signature }
  sequence_new : (req.targetWarden, (db.outgoingStream req.targetWarden).nextSequence) ∉
    db.outgoingTransfers
  child_new : newLeaseId ∉ db.remoteChildren
  parentTimes : parent.createdAtNs ≤ clock.nowNs
  residual_eq : ∀ i, residual i + req.allocation i = parent.residual i
  total_eq : ∀ i, total i + req.allocation i = db.leaseResidual i
  transferredOut_eq : ∀ i, transferredOut i = db.transferredOut i + req.allocation i
  request_new : db.idempotency.lookup req.requestId = none
  out_eq : out = .voucher voucher
  queue_new : (RecordKind.transfer, newTransferId, req.targetWarden) ∉ db.peerDeliveries
  deliveries_eq : deliveries = Database.enqueued .transfer newTransferId req.targetWarden
    req.targetWarden (db.outgoingStream req.targetWarden).nextSequence (.voucher voucher)
    clock.nowNs false db.peerDeliveries
  chained : svc.AuditExtends db.auditLog (db.auditLog ++ [auditRow])
  result : db' = Database.rememberResponse ("spawn_remote:" ++ req.parentId) req.requestId
    (svc.fingerprint (req.arguments db.envelope.configEpoch)) out clock.nowNs 201
    { db.touch clock.nowNs with
      leases := db.leases.update req.parentId (debited residual clock.nowNs)
      leaseResidual := total
      transferredOut
      revision := db.revision + 1
      outgoingTransfers := db.outgoingTransfers.insert
        (req.targetWarden, (db.outgoingStream req.targetWarden).nextSequence)
        (.prepared voucher (svc.recordDigest (.voucher voucher)) clock.nowNs)
      outgoingStreams := db.outgoingStreams.insert req.targetWarden
        { db.outgoingStream req.targetWarden with
          nextSequence := (db.outgoingStream req.targetWarden).nextSequence + 1 }
      remoteChildren := db.remoteChildren.insert newLeaseId
        (req.pendingChild newTransferId (db.outgoingStream req.targetWarden).nextSequence
          (childExpiry clock req.ttlNs parent) clock.nowNs)
      peerDeliveries := deliveries
      auditLog := db.auditLog ++ [auditRow] }

theorem spawnRemote_ok {newTransferId : String} {req : SpawnRemoteRequest d}
    (h : svc.spawnRemote clock newLeaseId newTransferId req db = .ok (db', out)) :
    db.ClockSafe clock ∧ db'.Conserved ∧
      (Database.Replays clock ("spawn_remote:" ++ req.parentId) req.requestId
          (svc.fingerprint (req.arguments db.envelope.configEpoch)) out db db' ∨
        Nonempty (RemoteSpawned svc clock newLeaseId newTransferId req db db' out)) := by
  simp only [spawnRemote, bind_ok_iff, require_ok_iff, exists_unit_iff] at h
  obtain ⟨htarget, hpeer, _, _, _, _, h⟩ := h
  obtain ⟨h, hcons⟩ := writeTransaction_ok h
  simp only [bind_ok_iff, require_ok_iff, exists_unit_iff, Database.clockIsSafe_ok_iff,
    Database.loadLease_ok_iff, verifyDatabaseIdentity] at h
  obtain ⟨⟨hidentity, _⟩, _, ⟨hclock, rfl⟩, parent, hparent, _, prior, hprior, h⟩ := h
  refine ⟨hclock, hcons, ?_⟩
  cases prior with
  | some prior => exact .inl (Database.replays_of hprior h)
  | none =>
    simp only [bind_ok_iff, require_ok_iff, exists_unit_iff, pure_ok_iff,
      Database.requireRuntimeActive, Database.requireActionable_ok_iff,
      Database.registeredPolicy_ok_iff, Database.openOutgoingStream,
      ResourceVector.subtract_ok_iff, ResourceVector.add_ok_iff, Prod.mk.injEq] at h
    obtain ⟨hactive, ⟨hstatus, hexpiry, hrevoked⟩, _, hcaps, _, policy, hpolicy, _, hfresh, hdepth,
      _, _, ⟨_, hepoch, rfl⟩, voucher, hvoucher, _, hstore, _, henqueue, residual, hresidual, _,
      hupdate, transferredOut, hout, hchild, _, haudit, rfl, rfl⟩ := h
    obtain ⟨hvalid, signature, rfl⟩ := newVoucher_ok hvoucher
    obtain ⟨hseq, rfl⟩ := storeVoucher_ok hstore
    obtain ⟨hqueued, rfl⟩ := Database.enqueuePeerDelivery_ok_iff.mp henqueue
    obtain ⟨lease, total, hlease, hok, htotal, rfl⟩ := Database.updateLeaseResidual_ok hupdate
    obtain rfl := some_unique hparent hlease
    obtain ⟨auditRow, hchained, rfl⟩ := appendAudit_ok haudit
    exact .inr ⟨{
      parent, policy, signature, residual, total, transferredOut, auditRow
      deliveries := _
      target_ne := htarget
      target_peer := hpeer
      identity := hidentity
      parent_eq := hparent
      runtimeActive := hactive
      parentActive := hstatus
      parentFresh := hexpiry
      parentNotRevoked := hrevoked
      capabilities_subset := hcaps
      policy_eq := hpolicy
      fresh := hfresh
      depth_lt := hdepth
      stream_epoch := hepoch
      voucher := _
      valid := hvalid
      voucher_eq := rfl
      sequence_new := hseq
      child_new := hchild
      parentTimes := hok.2
      residual_eq := hresidual
      total_eq := fun i => by
        have h₁ := htotal i
        have h₂ := hresidual i
        simp only [Database.touch] at h₁
        omega
      transferredOut_eq := hout
      request_new := Database.idempotentResponse_none_iff.mp hprior
      out_eq := rfl
      queue_new := hqueued
      deliveries_eq := rfl
      chained := hchained
      result := rfl }⟩

end Spec

end WardenService

end Lets
