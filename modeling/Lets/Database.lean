import Lets.Library.Table
import Lets.Records

set_option autoImplicit false

/-!
# The warden database

The tables of one warden's durable store.  A database holds one envelope, so the tenant and envelope
columns of every key are left out.
-/

namespace Lets

open Library

variable {d : ℕ} {Hash : Type}

structure Envelope (d : ℕ) where
  tenantId : String
  envelopeId : String
  configEpoch : ℕ
  budget : ResourceVector d
  initialLocalShare : ResourceVector d
  receiptTtlNs : ℕ
  maxClockUncertaintyNs : ℕ
  transferGapWindow : ℕ
  configEpoch_pos : 0 < configEpoch
  receiptTtlNs_pos : 0 < receiptTtlNs
  transferGapWindow_pos : 0 < transferGapWindow

structure TransitionRule (d : ℕ) where
  name : String
  source : String
  target : String
  capability : String
  cost : ResourceVector d
  audiences : Option (List String)
  evidence : Option Json

/-- The content of a policy, which its digest covers. -/
structure PolicyPayload (d : ℕ) where
  policyId : String
  policyVersion : String
  initialState : String
  transitions : List (TransitionRule d)
  maxLeaseTtlNs : Option ℕ
  receiptTtlNs : ℕ
  maxClockUncertaintyNs : ℕ
  transferGapWindow : ℕ

/-- A registered policy; the table is keyed by its digest. -/
structure PolicyRow (d : ℕ) where
  machineDigest : String
  payload : PolicyPayload d
  active : Bool
  createdAtNs : ℕ

structure Lease (d : ℕ) where
  lineageId : String
  parentId : Option String
  parentWarden : Option String
  remoteParentId : Option String
  subjectId : String
  allocation : ResourceVector d
  residual : ResourceVector d
  capabilities : Finset String
  machineDigest : String
  ancestorPath : List String
  branchEpoch : ℕ
  configEpoch : ℕ
  issuedAtNs : ℕ
  expiresAtNs : ℕ
  keyId : String
  signature : String
  state : String
  status : LeaseStatus
  sequence : ℕ
  policyVersion : String
  policyDigest : String
  createdAtNs : ℕ
  updatedAtNs : ℕ
  deriving DecidableEq

/-- What an operation answers, and what the idempotency table remembers of it. -/
inductive Response (d : ℕ)
  | runtime (status : RuntimeStatus)
  | digest (digest : String)
  | grant (grant : LeaseGrant d)
  | snapshot (snapshot : LeaseSnapshot d)
  | receipt (receipt : Receipt d)
  | voucher (voucher : TransferVoucher d)
  | ack (ack : TransferAck)
  | revocation (revocation : BranchRevocation)
  | checkpoint (checkpoint : TransferCheckpoint)
  | reclaimed (amount : ResourceVector d)
  | done
  deriving DecidableEq

structure IdempotencyRow (d : ℕ) where
  scope : String
  fingerprint : String
  response : Response d
  statusCode : ℕ
  createdAtNs : ℕ

/-- A stored revocation; the table is keyed by lineage and branch. -/
structure RevocationRow where
  epoch : ℕ
  observedAtNs : ℕ
  payload : BranchRevocation

structure OutgoingStream where
  configEpoch : ℕ
  nextSequence : ℕ
  ackedThrough : ℕ
  compactedThrough : ℕ
  checkpointPayload : Option TransferCheckpoint

inductive TransferStatus
  | prepared | accepted | finalized | acknowledged | cancelled
  deriving DecidableEq, Repr

def TransferStatus.name : TransferStatus → String
  | prepared => "PREPARED"
  | accepted => "ACCEPTED"
  | finalized => "FINALIZED"
  | acknowledged => "ACKNOWLEDGED"
  | cancelled => "CANCELLED"

def TransferStatus.isFinal : TransferStatus → Bool
  | finalized | acknowledged => true
  | prepared | accepted | cancelled => false

/-- A prepared transfer; the table is keyed by target and sequence. -/
structure OutgoingTransfer (d : ℕ) where
  digest : String
  voucher : TransferVoucher d
  status : TransferStatus
  preparedAtNs : ℕ
  acknowledgedAtNs : Option ℕ
  ackPayload : Option TransferAck

structure InboundStream where
  configEpoch : ℕ
  contiguousThrough : ℕ
  highestSeen : ℕ
  compactedThrough : ℕ
  checkpointPayload : Option TransferCheckpoint
  deriving DecidableEq

/-- A retained acknowledgement; the table is keyed by source and sequence. -/
structure InboundAck where
  transferDigest : String
  ackPayload : TransferAck
  deriving DecidableEq

inductive RemoteChildStatus
  | pending | active | fenced | terminated
  deriving DecidableEq, Repr

def RemoteChildStatus.lowerName : RemoteChildStatus → String
  | pending => "pending"
  | active => "active"
  | fenced => "fenced"
  | terminated => "terminated"

def RemoteChildStatus.isOpen : RemoteChildStatus → Bool
  | pending | active => true
  | fenced | terminated => false

inductive ObservedStatus
  | outcome (outcome : ChildOutcome)
  | lease (status : LeaseStatus)
  deriving DecidableEq, Repr

structure RemoteChild (d : ℕ) where
  parentId : String
  targetWarden : String
  transferId : String
  sequence : ℕ
  allocation : ResourceVector d
  expiresAtNs : ℕ
  status : RemoteChildStatus
  observedStatus : Option ObservedStatus
  createdAtNs : ℕ
  updatedAtNs : ℕ
  deriving DecidableEq

inductive RecordKind
  | transfer | revocation | checkpoint
  deriving DecidableEq, Repr

/-- A record queued for a peer; the table is keyed by kind, record id and target. -/
structure PeerDelivery (d : ℕ) where
  orderingKey : String
  streamPosition : ℕ
  payload : SignedRecord d
  createdAtNs : ℕ
  attempts : ℕ
  nextAttemptNs : ℕ
  lastAttemptNs : Option ℕ
  deliveredAtNs : Option ℕ
  supersededAtNs : Option ℕ
  lastError : Option String

inductive Detail (d : ℕ)
  | text (s : String)
  | number (n : ℕ)
  | amount (v : ResourceVector d)
  | texts (l : List String)
  | flag (b : Bool)
  | absent
  deriving DecidableEq

structure AuditBody (d : ℕ) where
  sequence : ℕ
  eventType : String
  tenantId : String
  envelopeId : String
  entityType : String
  entityId : String
  actorId : String
  occurredAtNs : ℕ
  details : List (String × Detail d)
  deriving DecidableEq

structure AuditRow (d : ℕ) (Hash : Type) where
  body : AuditBody d
  keyId : String
  signature : String
  previousHash : Hash
  eventHash : Hash
  deriving DecidableEq

abbrev PeerDeliveries (d : ℕ) := Table (RecordKind × String × String) (PeerDelivery d)

structure Database (d : ℕ) (Hash : Type) where
  wardenId : String
  signingKeyId : String
  envelope : Envelope d
  freePool : ResourceVector d
  leaseResidual : ResourceVector d
  consumed : ResourceVector d
  transferredIn : ResourceVector d
  transferredOut : ResourceVector d
  clockFloorNs : Option ℕ
  revision : ℕ
  runtime : RuntimeStatus
  policies : Table String (PolicyRow d)
  leases : Table String (Lease d)
  idempotency : Table String (IdempotencyRow d)
  receipts : Table String (Receipt d)
  revocations : Table (String × String) RevocationRow
  outgoingStreams : Table String OutgoingStream
  outgoingTransfers : Table (String × ℕ) (OutgoingTransfer d)
  inboundStreams : Table String InboundStream
  inboundGaps : Table (String × ℕ) ℕ
  inboundAcks : Table (String × ℕ) InboundAck
  remoteChildren : Table String (RemoteChild d)
  peerDeliveries : PeerDeliveries d
  auditLog : List (AuditRow d Hash)

end Lets
