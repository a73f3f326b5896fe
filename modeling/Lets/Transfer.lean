import Lets.Library.Window
import Lets.Issuance
import Lets.Revocation

set_option autoImplicit false

/-!
# Transfers between wardens

A source debits an amount and signs a voucher with the next sequence of its stream; the target
credits each sequence once, keeps the acknowledgement until a checkpoint covers it, and tracks which
sequences it has accepted by a contiguous watermark and the gaps above it; the source finalizes on
the acknowledgement and compacts its finalized prefix.
-/

namespace Lets

open Library

variable {d : ℕ} {Hash : Type}

structure PrepareTransferRequest (d : ℕ) where
  requestId : String
  identity : IdentityContext
  tenantId : String
  envelopeId : String
  targetWarden : String
  amount : ResourceVector d
  policyDigest : Option String

def PrepareTransferRequest.arguments (req : PrepareTransferRequest d) (configEpoch : ℕ) :
    Arguments d :=
  .prepareTransfer req.identity.subjectId req.targetWarden req.amount req.policyDigest configEpoch

def InboundStream.new (configEpoch : ℕ) : InboundStream where
  configEpoch := configEpoch
  contiguousThrough := 0
  highestSeen := 0
  compactedThrough := 0
  checkpointPayload := none

def OutgoingTransfer.finalized (ack : TransferAck) (nowNs : ℕ) (row : OutgoingTransfer d) :
    OutgoingTransfer d :=
  { row with
    status := .finalized
    acknowledgedAtNs := some nowNs
    ackPayload := some ack }

def RemoteChild.acknowledged (outcome : ChildOutcome) (nowNs : ℕ) (row : RemoteChild d) :
    RemoteChild d :=
  if row.status = .pending then
    { row with
      status := match outcome with
        | .issued => .active
        | .fenced => .fenced
      observedStatus := some (.outcome outcome)
      updatedAtNs := nowNs }
  else row

namespace Database

def gapBatch (sourceWarden : String) (watermark : ℕ) (db : Database d Hash) : List ℕ :=
  db.inboundGaps.batch (fun key _ => key.2) (fun key _ => key.1 = sourceWarden ∧ watermark < key.2)
    maintenanceRowBatch

/-- `_advance_inbound_gap_prefix`: the watermark after the consecutive gaps of one batch, which are
removed. -/
def advanceInboundGapPrefix (sourceWarden : String) (watermark : ℕ) (db : Database d Hash) :
    Database d Hash × ℕ :=
  let advanced := advancePrefix watermark (db.gapBatch sourceWarden watermark)
  ({ db with
      inboundGaps := db.inboundGaps.filterRows fun key _ =>
        ¬(key.1 = sourceWarden ∧ watermark < key.2 ∧ key.2 ≤ advanced) },
    advanced)

def inboundStream (sourceWarden : String) (configEpoch : ℕ) (db : Database d Hash) :
    InboundStream :=
  (db.inboundStreams.lookup sourceWarden).getD (.new configEpoch)

/-- Note a sequence above the watermark: a gap row where earlier ones are missing, else the new
watermark. -/
def recordSequence (sourceWarden : String) (sequence nowNs : ℕ) (stream : InboundStream)
    (db : Database d Hash) : Outcome (Database d Hash × ℕ) :=
  if stream.contiguousThrough + 1 < sequence then do
    require ((sourceWarden, sequence) ∉ db.inboundGaps)
      (.integrity "UNIQUE constraint failed: inbound_transfer_gaps")
    pure ({ db with inboundGaps := db.inboundGaps.insert (sourceWarden, sequence) nowNs },
      stream.contiguousThrough)
  else pure (db.advanceInboundGapPrefix sourceWarden sequence)

/-- Credit a transfer: to the lease that was issued for it, or to the free pool. -/
def creditVoucher (amount : ResourceVector d) (issued : Bool) (db : Database d Hash) :
    Outcome (Database d Hash) := do
  let freePool ← if issued then pure db.freePool else db.freePool.add amount
  let transferredIn ← db.transferredIn.add amount
  pure { db with freePool, transferredIn, revision := db.revision + 1 }

/-- The constraints of the `inbound_transfer_streams` table. -/
def InboundStreamOk (stream : InboundStream) : Prop :=
  stream.contiguousThrough ≤ stream.highestSeen ∧
    stream.compactedThrough ≤ stream.contiguousThrough ∧
    (stream.compactedThrough = 0 ∨ stream.checkpointPayload ≠ none)

instance (stream : InboundStream) : Decidable (InboundStreamOk stream) :=
  inferInstanceAs (Decidable (_ ∧ _))

def setInboundStream (sourceWarden : String) (stream : InboundStream) (db : Database d Hash) :
    Outcome (Database d Hash) := do
  require (InboundStreamOk stream) (.integrity "CHECK constraint failed: inbound_transfer_streams")
  pure { db with inboundStreams := db.inboundStreams.insert sourceWarden stream }

def ackBatch (sourceWarden : String) (through : ℕ) (db : Database d Hash) : List ℕ :=
  db.inboundAcks.batch (fun key _ => key.2) (fun key _ => key.1 = sourceWarden ∧ key.2 ≤ through)
    maintenanceRowBatch

def pruneInboundAckPrefix (sourceWarden : String) (through : ℕ) (db : Database d Hash) :
    Database d Hash :=
  { db with
    inboundAcks := db.inboundAcks.filterRows fun key _ =>
      ¬(key.1 = sourceWarden ∧ key.2 ∈ db.ackBatch sourceWarden through) }

def pruneOutgoingTransferPrefix (targetWarden : String) (through : ℕ) (db : Database d Hash) :
    Database d Hash :=
  let pruned := db.outgoingTransfers.batch (fun key _ => key.2)
    (fun key _ => key.1 = targetWarden ∧ key.2 ≤ through) maintenanceRowBatch
  { db with
    outgoingTransfers := db.outgoingTransfers.filterRows fun key _ =>
      ¬(key.1 = targetWarden ∧ key.2 ∈ pruned) }

/-- The rows of a target above a watermark, in order, with whether each is final. -/
def outgoingBatch (targetWarden : String) (watermark : ℕ) (db : Database d Hash) :
    List (ℕ × Bool) :=
  (db.outgoingTransfers.batch (fun key _ => key.2)
      (fun key _ => key.1 = targetWarden ∧ watermark < key.2) maintenanceRowBatch).map
    fun sequence => (sequence,
      (db.outgoingTransfers.lookup (targetWarden, sequence)).any fun row => row.status.isFinal)

def advanceOutgoingFinalizedPrefix (targetWarden : String) (watermark : ℕ)
    (db : Database d Hash) : ℕ :=
  advancePrefix watermark
    (((db.outgoingBatch targetWarden watermark).takeWhile Prod.snd).map Prod.fst)

/-- The constraints of the `outgoing_transfer_streams` table. -/
def OutgoingStreamOk (stream : OutgoingStream) : Prop :=
  stream.ackedThrough < stream.nextSequence ∧ stream.compactedThrough ≤ stream.ackedThrough ∧
    (stream.compactedThrough = 0 ∨ stream.checkpointPayload ≠ none)

instance (stream : OutgoingStream) : Decidable (OutgoingStreamOk stream) :=
  inferInstanceAs (Decidable (_ ∧ _))

def setOutgoingStream (targetWarden : String) (stream : OutgoingStream) (db : Database d Hash) :
    Outcome (Database d Hash) := do
  require (OutgoingStreamOk stream) (.integrity "CHECK constraint failed: outgoing_transfer_streams")
  pure { db with outgoingStreams := db.outgoingStreams.insert targetWarden stream }

/-- The policy a prepared transfer is bound to: the given one, or the active one. -/
def selectPolicy (policyDigest : Option String) (db : Database d Hash) :
    Outcome (String × PolicyRow d) :=
  match policyDigest with
  | some digest => do
    let policy ← db.registeredPolicy digest
    pure (digest, policy)
  | none =>
    match db.policies.entries.find? (fun entry => entry.2.active) with
    | some entry => .ok (entry.1, entry.2)
    | none => .error (.policy "no active policy is registered")

end Database

namespace WardenService

/-- Queue a record of a transfer stream for its peer, where peers are configured. -/
def queueRecord (svc : WardenService d Hash) (recordKind : RecordKind)
    (recordId targetWarden : String) (streamPosition : ℕ) (payload : SignedRecord d) (nowNs : ℕ)
    (supersedeOlder : Bool) (db : Database d Hash) : Outcome (Database d Hash) :=
  if svc.allowedPeerWardens = none then pure db
  else
    db.enqueuePeerDelivery recordKind recordId targetWarden targetWarden streamPosition payload
      nowNs supersedeOlder

def prepareTransfer (svc : WardenService d Hash) (clock : Reading) (newTransferId : String)
    (req : PrepareTransferRequest d) (db : Database d Hash) :
    Outcome (Database d Hash × Response d) := do
  let actor := req.identity.subjectId
  require (req.targetWarden ≠ svc.wardenId)
    (.validation "transfer target must differ from the source warden")
  require (∀ peers ∈ svc.allowedPeerWardens, req.targetWarden ∈ peers)
    (.policy "transfer target is not authorized by this warden configuration")
  require (req.identity.tenantId = req.tenantId)
    (.policy "identity tenant does not match request tenant")
  require (actor = svc.wardenId ∨ req.identity.HasScope (adminScopes ++ ["lets.transfer"]))
    (.policy "transfer preparation scope is required")
  require req.amount.NonZero (.validation "transfer amount must contain a non-zero dimension")
  let fingerprint := svc.fingerprint (req.arguments db.envelope.configEpoch)
  let scope := "prepare_transfer:" ++ req.targetWarden
  writeTransaction db fun db => do
    svc.verifyDatabaseIdentity db
    db.requireEnvelope req.tenantId req.envelopeId
    let db ← db.clockIsSafe clock
    let (policyDigest, policy) ← db.selectPolicy req.policyDigest
    match ← db.idempotentResponse scope req.requestId fingerprint with
    | some prior => pure (db, prior)
    | none => do
      db.requireRuntimeActive
      require (svc.hasCurrentWarden req.targetWarden = true)
        (.signature "transfer preparation requires current target verification material")
      require (req.amount.lessThanOrEqual db.freePool)
        (.policy "local free pool does not cover transfer amount")
      let stream ← db.openOutgoingStream req.targetWarden
      let voucher ← svc.newVoucher clock db policy policyDigest newTransferId req.targetWarden
        stream.nextSequence req.amount none
      let digest := svc.recordDigest (.voucher voucher)
      let db ← db.storeVoucher stream voucher digest clock.nowNs
      let db ← svc.queueRecord .transfer newTransferId req.targetWarden stream.nextSequence
        (.voucher voucher) clock.nowNs false db
      let freePool ← db.freePool.subtract req.amount
      let transferredOut ← db.transferredOut.add req.amount
      let db := { db with freePool, transferredOut, revision := db.revision + 1 }
      let db ← svc.appendAudit clock "transfer.prepared" "transfer" newTransferId actor
        [("target_warden", .text req.targetWarden), ("sequence", .number stream.nextSequence),
          ("amount", .amount req.amount), ("voucher_digest", .text digest)] db
      pure (db.rememberResponse scope req.requestId fingerprint (.voucher voucher) clock.nowNs 201,
        .voucher voucher)

/-- `_admit_remote_child`: create the child a lease voucher asks for, or fence it. -/
def admitRemoteChild (svc : WardenService d Hash) (clock : Reading) (voucher : TransferVoucher d)
    (request : LeaseRequest) (policy : PolicyRow d) (db : Database d Hash) :
    Outcome (Database d Hash × ChildOutcome) := do
  require (request.childLeaseId ∉ db.leases)
    (.conflict "remote child lease identifier already exists on this warden")
  require (request.capabilities ⊆ policy.declaredCapabilities)
    (.policy "remote child requests capabilities undeclared by its policy")
  if request.expiresAtNs ≤ clock.nowNs + clock.uncertaintyNs ∨
      db.pathRevoked request.lineageId request.ancestorPath = true then
    pure (db, .fenced)
  else do
    let grant ← svc.newGrant clock db policy voucher.policyDigest request.childLeaseId
      request.lineageId (some request.parentId) request.subjectId voucher.amount
      request.capabilities request.ancestorPath request.branchEpoch request.expiresAtNs
    let db ← db.insertLease request.childLeaseId
      (grant.toRow (some voucher.sourceWarden) policy.payload.initialState clock.nowNs)
    pure (db, .issued)

/-- Redelivery of a voucher that is still acknowledged: advance the watermark over one batch of
gaps and return the stored acknowledgement. -/
def redeliver (svc : WardenService d Hash) (clock : Reading) (actor : String)
    (voucher : TransferVoucher d) (digest : String) (existing : InboundAck)
    (db : Database d Hash) : Outcome (Database d Hash × Response d) := do
  require (existing.transferDigest = digest)
    (.conflict "transfer sequence is bound to another voucher digest")
  let stream ← orError (db.inboundStreams.lookup voucher.sourceWarden)
    (.storage "inbound transfer stream is missing")
  require (stream.compactedThrough < voucher.sequence)
    (.replay "compacted transfer prefix rejects voucher replay")
  let (db, advanced) := db.advanceInboundGapPrefix voucher.sourceWarden stream.contiguousThrough
  if stream.contiguousThrough < advanced then do
    let db ← db.setInboundStream voucher.sourceWarden { stream with contiguousThrough := advanced }
    let db ← svc.appendAudit clock "transfer.inbound-watermark-advanced" "warden"
      voucher.sourceWarden actor
      [("trigger_transfer_id", .text voucher.transferId),
        ("trigger_sequence", .number voucher.sequence),
        ("prior_contiguous_through", .number stream.contiguousThrough),
        ("contiguous_through", .number advanced)] db
    pure (db, .ack existing.ackPayload)
  else pure (db, .ack existing.ackPayload)

def admitChild (svc : WardenService d Hash) (clock : Reading) (voucher : TransferVoucher d)
    (policy : PolicyRow d) (db : Database d Hash) :
    Outcome (Database d Hash × Option (LeaseRequest × ChildOutcome)) :=
  match voucher.leaseRequest with
  | none => pure (db, none)
  | some request => do
    let (db, outcome) ← svc.admitRemoteChild clock voucher request policy db
    pure (db, some (request, outcome))

def unsignedAck (svc : WardenService d Hash) (clock : Reading) (voucher : TransferVoucher d)
    (digest : String) (contiguous : ℕ) (child : Option (LeaseRequest × ChildOutcome)) :
    TransferAck where
  tenantId := voucher.tenantId
  envelopeId := voucher.envelopeId
  configEpoch := voucher.configEpoch
  transferId := voucher.transferId
  sourceWarden := voucher.sourceWarden
  targetWarden := svc.wardenId
  sequence := voucher.sequence
  voucherDigest := digest
  acceptedAtNs := clock.nowNs
  contiguousWatermark := contiguous
  keyId := svc.keyId
  signature := ""
  child := child.map fun c => (c.1.childLeaseId, c.2)

def auditChild (svc : WardenService d Hash) (clock : Reading) (actor : String)
    (voucher : TransferVoucher d) (child : Option (LeaseRequest × ChildOutcome))
    (db : Database d Hash) : Outcome (Database d Hash) :=
  match child with
  | none => pure db
  | some (request, outcome) =>
    svc.appendAudit clock
      (match outcome with
        | .issued => "lease.remote-child-issued"
        | .fenced => "lease.remote-child-fenced")
      "lease" request.childLeaseId actor
      [("source_warden", .text voucher.sourceWarden), ("transfer_id", .text voucher.transferId),
        ("sequence", .number voucher.sequence), ("allocation", .amount voucher.amount),
        ("child_outcome", .text outcome.name), ("parent_id", .text request.parentId)] db

def credit (svc : WardenService d Hash) (clock : Reading) (actor : String)
    (voucher : TransferVoucher d) (digest : String) (policy : PolicyRow d)
    (db : Database d Hash) : Outcome (Database d Hash × Response d) := do
  db.inboundAcks.forbid (fun key row => key.1 = voucher.sourceWarden ∧
      row.ackPayload.transferId = voucher.transferId)
    fun key _ => .conflict ("transfer_id is already bound to sequence " ++ toString key.2)
  require (voucher.sourceWarden ≠ db.wardenId) (.integrity "inbound transfer source must be remote")
  let stream := db.inboundStream voucher.sourceWarden voucher.configEpoch
  require (stream.configEpoch = voucher.configEpoch)
    (.conflict "inbound stream belongs to another configuration epoch")
  require (stream.contiguousThrough < voucher.sequence)
    (.replay "compacted transfer prefix has no matching acknowledgement")
  require (voucher.sequence ≤ stream.contiguousThrough + db.envelope.transferGapWindow)
    (.replay ("transfer sequence " ++ toString voucher.sequence ++
      " exceeds admission window ending at " ++
      toString (stream.contiguousThrough + db.envelope.transferGapWindow)))
  let (db, contiguous) ←
    db.recordSequence voucher.sourceWarden voucher.sequence clock.nowNs stream
  let (db, child) ← svc.admitChild clock voucher policy db
  let unsigned := svc.unsignedAck clock voucher digest contiguous child
  let signature ← svc.signRecord clock (.ack unsigned)
  let ack := { unsigned with signature }
  let db ← db.creditVoucher voucher.amount (child.any fun c => c.2 = .issued)
  let db ← svc.auditChild clock actor voucher child db
  let db ← db.setInboundStream voucher.sourceWarden
    { stream with
      contiguousThrough := contiguous
      highestSeen := max stream.highestSeen voucher.sequence }
  let db := { db with
    inboundAcks := db.inboundAcks.insert (voucher.sourceWarden, voucher.sequence)
      { transferDigest := digest, ackPayload := ack } }
  let db ← svc.appendAudit clock "transfer.accepted" "transfer" voucher.transferId actor
    [("source_warden", .text voucher.sourceWarden), ("sequence", .number voucher.sequence),
      ("amount", .amount voucher.amount), ("voucher_digest", .text digest),
      ("contiguous_watermark", .number contiguous)] db
  pure (db, .ack ack)

def acceptTransfer (svc : WardenService d Hash) (clock : Reading) (identity : IdentityContext)
    (voucher : TransferVoucher d) (db : Database d Hash) :
    Outcome (Database d Hash × Response d) := do
  let actor := identity.subjectId
  voucher.validate
  require (actor = svc.wardenId ∨
      identity.HasScope (adminScopes ++ ["lets.peer", "lets.transfer"]))
    (.policy "transfer acceptance scope is required")
  require (svc.verifyRecord (.voucher voucher) voucher.sourceWarden = true)
    (.signature "invalid record signature")
  writeTransaction db fun db => do
    db.requireEnvelope voucher.tenantId voucher.envelopeId
    let db ← db.clockIsSafe clock
    require (identity.tenantId = voucher.tenantId)
      (.policy "identity tenant does not match transfer tenant")
    require (voucher.targetWarden = svc.wardenId)
      (.policy "voucher target does not match this warden")
    require (voucher.configEpoch = db.envelope.configEpoch)
      (.conflict "voucher configuration epoch does not match target")
    let policy ← db.registeredPolicy voucher.policyDigest
    require (voucher.policyVersion = policy.payload.policyVersion ∧
        voucher.policyId = policy.payload.policyId)
      (.policy "voucher policy identity does not match registered policy")
    let digest := svc.recordDigest (.voucher voucher)
    match db.inboundAcks.lookup (voucher.sourceWarden, voucher.sequence) with
    | some existing => svc.redeliver clock actor voucher digest existing db
    | none => svc.credit clock actor voucher digest policy db

def acknowledgeChild (svc : WardenService d Hash) (clock : Reading) (actor : String)
    (ack : TransferAck) (request : LeaseRequest) (db : Database d Hash) :
    Outcome (Database d Hash) := do
  let child ← orError ack.child
    (.conflict "acknowledgement does not report the remote spawn child outcome")
  require (child.1 = request.childLeaseId)
    (.conflict "acknowledgement does not report the remote spawn child outcome")
  require (∀ row ∈ db.remoteChildren.lookup request.childLeaseId,
      row.status = .pending → row.createdAtNs ≤ clock.nowNs)
    (.integrity "CHECK constraint failed: remote_children")
  let db := { db with
    remoteChildren :=
      db.remoteChildren.update request.childLeaseId (RemoteChild.acknowledged child.2 clock.nowNs) }
  svc.appendAudit clock "lease.remote-child-acknowledged" "lease" request.childLeaseId actor
    [("target_warden", .text ack.targetWarden), ("transfer_id", .text ack.transferId),
      ("sequence", .number ack.sequence), ("child_outcome", .text child.2.name)] db

def acknowledgeRequest (svc : WardenService d Hash) (clock : Reading) (actor : String)
    (ack : TransferAck) (leaseRequest : Option LeaseRequest) (db : Database d Hash) :
    Outcome (Database d Hash) :=
  match leaseRequest with
  | some request => svc.acknowledgeChild clock actor ack request db
  | none => do
    require (ack.child = none) (.conflict "pool transfer acknowledgement must not report a child")
    pure db

def finalizeTransfer (svc : WardenService d Hash) (clock : Reading) (identity : IdentityContext)
    (ack : TransferAck) (db : Database d Hash) : Outcome (Database d Hash × Response d) := do
  let actor := identity.subjectId
  require (actor = svc.wardenId ∨
      identity.HasScope (adminScopes ++ ["lets.peer", "lets.transfer"]))
    (.policy "transfer finalization scope is required")
  require (svc.verifyRecord (.ack ack) ack.targetWarden = true)
    (.signature "invalid record signature")
  writeTransaction db fun db => do
    db.requireEnvelope ack.tenantId ack.envelopeId
    let db ← db.clockIsSafe clock
    require (identity.tenantId = ack.tenantId)
      (.policy "identity tenant does not match transfer tenant")
    require (ack.sourceWarden = svc.wardenId)
      (.policy "acknowledgement source does not match this warden")
    require (ack.configEpoch = db.envelope.configEpoch)
      (.conflict "acknowledgement configuration epoch does not match source")
    let outgoing ← orError (db.outgoingTransfers.lookup (ack.targetWarden, ack.sequence))
      (.notFound "outgoing transfer does not exist")
    require (outgoing.voucher.transferId = ack.transferId)
      (.conflict "acknowledgement transfer_id does not match voucher")
    require (outgoing.digest = ack.voucherDigest)
      (.conflict "acknowledgement voucher digest does not match transfer")
    let stream ← orError (db.outgoingStreams.lookup ack.targetWarden)
      (.storage "outgoing transfer stream is missing")
    if outgoing.status.isFinal then do
      require (outgoing.ackPayload = some ack)
        (.conflict "transfer was finalized with another acknowledgement")
      let watermark := db.advanceOutgoingFinalizedPrefix ack.targetWarden stream.ackedThrough
      if stream.ackedThrough < watermark then do
        let db ← db.setOutgoingStream ack.targetWarden { stream with ackedThrough := watermark }
        let db ← svc.appendAudit clock "transfer.outbound-watermark-advanced" "warden"
          ack.targetWarden actor
          [("trigger_transfer_id", .text ack.transferId),
            ("trigger_sequence", .number ack.sequence),
            ("prior_acked_through", .number stream.ackedThrough),
            ("acked_through", .number watermark)] db
        pure (db, .ack ack)
      else pure (db, .ack ack)
    else do
      require (outgoing.status = .prepared)
        (.conflict ("transfer status " ++ quoted outgoing.status.name ++ " cannot be finalized"))
      let db ← svc.acknowledgeRequest clock actor ack outgoing.voucher.leaseRequest db
      require (outgoing.preparedAtNs ≤ clock.nowNs)
        (.integrity "CHECK constraint failed: outgoing_transfers")
      let db := { db with
        outgoingTransfers := db.outgoingTransfers.update (ack.targetWarden, ack.sequence)
          (OutgoingTransfer.finalized ack clock.nowNs) }
      let watermark := db.advanceOutgoingFinalizedPrefix ack.targetWarden stream.ackedThrough
      let db ← db.setOutgoingStream ack.targetWarden { stream with ackedThrough := watermark }
      let db ← svc.appendAudit clock "transfer.finalized" "transfer" ack.transferId actor
        [("target_warden", .text ack.targetWarden), ("sequence", .number ack.sequence),
          ("acked_through", .number watermark), ("voucher_digest", .text ack.voucherDigest)] db
      pure (db, .ack ack)

def unsignedCheckpoint (svc : WardenService d Hash) (clock : Reading) (db : Database d Hash)
    (targetWarden : String) (through : ℕ) : TransferCheckpoint where
  tenantId := db.envelope.tenantId
  envelopeId := db.envelope.envelopeId
  configEpoch := db.envelope.configEpoch
  sourceWarden := svc.wardenId
  targetWarden := targetWarden
  throughSequence := through
  issuedAtNs := clock.nowNs
  keyId := svc.keyId
  signature := ""

def createTransferCheckpoint (svc : WardenService d Hash) (clock : Reading)
    (identity : IdentityContext) (targetWarden : String) (throughSequence : Option ℕ)
    (db : Database d Hash) : Outcome (Database d Hash × Response d) := do
  let actor := identity.subjectId
  require (actor = svc.wardenId ∨
      identity.HasScope (adminScopes ++ ["lets.transfer", "lets.peer"]))
    (.policy "transfer checkpoint scope is required")
  require (∀ s ∈ throughSequence, 0 < s ∧ s ≤ maxResource)
    (.validation "through_sequence must be a positive integer")
  writeTransaction db fun db => do
    let db ← db.clockIsSafe clock
    require (identity.tenantId = db.envelope.tenantId)
      (.policy "identity tenant does not match transfer tenant")
    let stream ← orError (db.outgoingStreams.lookup targetWarden)
      (.notFound "outgoing transfer stream does not exist")
    let through := throughSequence.getD stream.ackedThrough
    require (0 < through) (.conflict "outgoing transfer stream has no finalized prefix")
    require (through ≤ stream.ackedThrough)
      (.conflict "checkpoint exceeds the finalized acknowledgement watermark")
    if through = stream.compactedThrough then do
      let existing ← orError stream.checkpointPayload
        (.storage "compacted stream is missing its checkpoint proof")
      pure (db.pruneOutgoingTransferPrefix targetWarden through, .checkpoint existing)
    else do
      require (stream.compactedThrough < through)
        (.conflict "transfer checkpoint would move backward")
      require (db.outgoingTransfers.anyRow (fun key row => key.1 = targetWarden ∧
          key.2 ≤ through ∧ row.status.isFinal = false) = false)
        (.conflict "checkpoint prefix contains an unfinalized transfer")
      require (svc.allowedPeerWardens = none ∨ db.outgoingTransfers.anyRow (fun key row =>
          key.1 = targetWarden ∧ key.2 ≤ through ∧
            ¬(db.peerDeliveries.lookup (.transfer, row.voucher.transferId, targetWarden)).any
              fun delivery => delivery.deliveredAtNs.isSome) = false)
        (.conflict "checkpoint prefix still contains an unconfirmed peer delivery")
      let unsigned := svc.unsignedCheckpoint clock db targetWarden through
      let signature ← svc.signRecord clock (.checkpoint unsigned)
      let checkpoint := { unsigned with signature }
      let db ← db.setOutgoingStream targetWarden
        { stream with compactedThrough := through, checkpointPayload := some checkpoint }
      let db ← svc.queueRecord .checkpoint (svc.recordDigest (.checkpoint checkpoint))
        targetWarden through (.checkpoint checkpoint) clock.nowNs true db
      let db := db.pruneOutgoingTransferPrefix targetWarden through
      let db ← svc.appendAudit clock "transfer.checkpoint-created" "warden" targetWarden actor
        [("through_sequence", .number through)] db
      pure (db, .checkpoint checkpoint)

def ingestTransferCheckpoint (svc : WardenService d Hash) (clock : Reading)
    (identity : IdentityContext) (checkpoint : TransferCheckpoint) (db : Database d Hash) :
    Outcome (Database d Hash × Response d) := do
  let actor := identity.subjectId
  let source := checkpoint.sourceWarden
  let through := checkpoint.throughSequence
  require (0 < through ∧ through ≤ maxResource)
    (.validation "checkpoint through_sequence is invalid")
  require (actor = source ∨ identity.HasScope (adminScopes ++ ["lets.transfer", "lets.peer"]))
    (.policy "peer identity does not match checkpoint source")
  require (svc.verifyRecord (.checkpoint checkpoint) source = true)
    (.signature "invalid transfer-checkpoint/v1 signature")
  writeTransaction db fun db => do
    db.requireEnvelope checkpoint.tenantId checkpoint.envelopeId
    let db ← db.clockIsSafe clock
    require (identity.tenantId = checkpoint.tenantId)
      (.policy "identity tenant does not match checkpoint tenant")
    require (checkpoint.targetWarden = svc.wardenId)
      (.policy "checkpoint target does not match this warden")
    require (checkpoint.configEpoch = db.envelope.configEpoch)
      (.conflict "checkpoint configuration epoch does not match target")
    let stream ← orError (db.inboundStreams.lookup source)
      (.notFound "inbound transfer stream does not exist")
    require (through ≤ stream.contiguousThrough)
      (.conflict "checkpoint exceeds the target contiguous watermark")
    require (stream.compactedThrough ≤ through)
      (.replay "checkpoint is older than the durable compacted watermark")
    if through = stream.compactedThrough then do
      require (stream.checkpointPayload = some checkpoint)
        (.conflict "checkpoint watermark is bound to different signed content")
      pure (db.pruneInboundAckPrefix source through, .checkpoint checkpoint)
    else do
      let db ← db.setInboundStream source
        { stream with compactedThrough := through, checkpointPayload := some checkpoint }
      let db := db.pruneInboundAckPrefix source through
      let db ← svc.appendAudit clock "transfer.checkpoint-ingested" "warden" source actor
        [("through_sequence", .number through)] db
      pure (db, .checkpoint checkpoint)

end WardenService

end Lets
