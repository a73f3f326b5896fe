import Lets.Resources

set_option autoImplicit false

/-!
# Domain and wire records

The immutable records of the protocol.  Identifiers, digests, key ids and signatures are strings;
times are nanoseconds.
-/

namespace Lets

open Library

variable {d : ℕ}

def maxLineageDepth : ℕ := 64

inductive Json
  | null
  | bool (b : Bool)
  | number (n : ℤ)
  | text (s : String)
  | array (items : List Json)
  | object (members : List (String × Json))

inductive LeaseStatus
  | provisioned | active | quiescent | migrating | revoked | expired | terminated | closed
  deriving DecidableEq, Repr

namespace LeaseStatus

def name : LeaseStatus → String
  | provisioned => "PROVISIONED"
  | active => "ACTIVE"
  | quiescent => "QUIESCENT"
  | migrating => "MIGRATING"
  | revoked => "REVOKED"
  | expired => "EXPIRED"
  | terminated => "TERMINATED"
  | closed => "CLOSED"

/-- `_LIVE`: the lease may still hold rights. -/
def isLive : LeaseStatus → Bool
  | provisioned | active | quiescent | migrating | revoked => true
  | expired | terminated | closed => false

/-- `_LIVE_LEASE_STATUSES`: what counts as a live descendant, which a revoked lease does not. -/
def isLiveLease : LeaseStatus → Bool
  | provisioned | active | quiescent | migrating => true
  | revoked | expired | terminated | closed => false

def isRenewable : LeaseStatus → Bool
  | active | quiescent => true
  | _ => false

end LeaseStatus

inductive RuntimeMode
  | active | draining
  deriving DecidableEq, Repr

def RuntimeMode.name : RuntimeMode → String
  | active => "ACTIVE"
  | draining => "DRAINING"

structure RuntimeStatus where
  mode : RuntimeMode
  generation : ℕ
  reason : String
  changedAtNs : ℕ
  changedBy : String
  deriving DecidableEq, Repr

structure IdentityContext where
  subjectId : String
  tenantId : String
  scopes : Finset String
  deriving DecidableEq

/-- One reading of a warden's clock, with the uncertainty it declares. -/
@[ext]
structure Reading where
  nowNs : ℕ
  uncertaintyNs : ℕ
  deriving DecidableEq, Repr

structure LeaseGrant (d : ℕ) where
  tenantId : String
  envelopeId : String
  configEpoch : ℕ
  leaseId : String
  lineageId : String
  parentId : Option String
  subjectId : String
  wardenId : String
  allocation : ResourceVector d
  capabilities : Finset String
  policyId : String
  policyVersion : String
  policyDigest : String
  machineDigest : String
  ancestorPath : List String
  branchEpoch : ℕ
  issuedAtNs : ℕ
  expiresAtNs : ℕ
  keyId : String
  signature : String
  deriving DecidableEq

def LeaseGrant.validate (grant : LeaseGrant d) : Outcome Unit := do
  require (grant.expiresAtNs ≤ maxResource)
    (.validation "expires_at_ns must fit in a signed 64-bit integer")
  require (grant.issuedAtNs < grant.expiresAtNs)
    (.validation "lease expiry must be later than issuance")
  require grant.allocation.NonZero
    (.validation "lease allocation must contain a non-zero dimension")
  require (grant.ancestorPath.length ≤ maxLineageDepth)
    (.validation "lease ancestor_path exceeds the v1 limit of 64")
  require grant.ancestorPath.Nodup
    (.validation "lease ancestor_path must not contain a cycle")
  require (grant.leaseId ∉ grant.ancestorPath)
    (.validation "lease ancestor_path must not contain the lease itself")
  require (grant.parentId = none → grant.ancestorPath = [])
    (.validation "root lease ancestor_path must be empty")
  require (∀ p ∈ grant.parentId, grant.ancestorPath.getLast? = some p)
    (.validation "child lease ancestor_path must end with parent_id")

structure LeaseSnapshot (d : ℕ) where
  grant : LeaseGrant d
  residual : ResourceVector d
  currentState : String
  status : LeaseStatus
  sequence : ℕ
  updatedAtNs : ℕ
  deriving DecidableEq

structure Receipt (d : ℕ) where
  tenantId : String
  envelopeId : String
  configEpoch : ℕ
  receiptId : String
  requestId : String
  wardenId : String
  keyId : String
  policyId : String
  policyVersion : String
  policyDigest : String
  machineDigest : String
  leaseId : String
  lineageId : String
  subjectId : String
  executorAudience : String
  transition : String
  sourceState : String
  targetState : String
  cost : ResourceVector d
  resultingSequence : ℕ
  evidenceDigest : Option String
  nonce : String
  issuedAtNs : ℕ
  expiresAtNs : ℕ
  signature : String
  deriving DecidableEq

def Receipt.validate (receipt : Receipt d) : Outcome Unit := do
  require (receipt.resultingSequence ≤ maxResource)
    (.validation "resulting_sequence must fit in a signed 64-bit integer")
  require (receipt.expiresAtNs ≤ maxResource)
    (.validation "expires_at_ns must fit in a signed 64-bit integer")
  require (receipt.issuedAtNs < receipt.expiresAtNs)
    (.validation "receipt expiry must be later than issuance")

structure LeaseRequest where
  childLeaseId : String
  lineageId : String
  parentId : String
  subjectId : String
  capabilities : Finset String
  ancestorPath : List String
  branchEpoch : ℕ
  expiresAtNs : ℕ
  deriving DecidableEq

/-- `validate_lease_request`. -/
def LeaseRequest.validate (request : LeaseRequest) : Outcome Unit := do
  require (request.ancestorPath.getLast? = some request.parentId)
    (.validation "lease_request.ancestor_path must end with parent_id")
  require request.ancestorPath.Nodup
    (.validation "lease_request.ancestor_path must not contain a cycle")
  require (request.childLeaseId ∉ request.ancestorPath)
    (.validation "lease_request.ancestor_path must not contain the child")
  require (request.ancestorPath.length ≤ maxLineageDepth)
    (.validation "lease_request.ancestor_path exceeds the v1 limit of 64")
  require (0 < request.expiresAtNs ∧ request.expiresAtNs ≤ maxResource)
    (.validation "lease_request.expires_at_ns must be positive")

/-- A signed transfer of an amount; one with a lease request is of kind `lease`, else `pool`. -/
structure TransferVoucher (d : ℕ) where
  tenantId : String
  envelopeId : String
  configEpoch : ℕ
  transferId : String
  sourceWarden : String
  targetWarden : String
  policyId : String
  policyVersion : String
  policyDigest : String
  sequence : ℕ
  amount : ResourceVector d
  issuedAtNs : ℕ
  keyId : String
  signature : String
  leaseRequest : Option LeaseRequest
  deriving DecidableEq

def TransferVoucher.validate (voucher : TransferVoucher d) : Outcome Unit := do
  require (voucher.sourceWarden ≠ voucher.targetWarden)
    (.validation "transfer source and target must differ")
  require (0 < voucher.configEpoch) (.validation "config_epoch must be positive")
  require (0 < voucher.sequence ∧ voucher.sequence ≤ maxResource)
    (.validation "sequence must be positive")
  require voucher.amount.NonZero
    (.validation "transfer amount must contain a non-zero dimension")
  match voucher.leaseRequest with
  | none => pure ()
  | some request => request.validate

inductive ChildOutcome
  | issued | fenced
  deriving DecidableEq, Repr

def ChildOutcome.name : ChildOutcome → String
  | issued => "ISSUED"
  | fenced => "FENCED"

structure TransferAck where
  tenantId : String
  envelopeId : String
  configEpoch : ℕ
  transferId : String
  sourceWarden : String
  targetWarden : String
  sequence : ℕ
  voucherDigest : String
  acceptedAtNs : ℕ
  contiguousWatermark : ℕ
  keyId : String
  signature : String
  child : Option (String × ChildOutcome)
  deriving DecidableEq

structure BranchRevocation where
  tenantId : String
  envelopeId : String
  configEpoch : ℕ
  branchLeaseId : String
  lineageId : String
  epoch : ℕ
  issuerWarden : String
  issuedAtNs : ℕ
  reason : String
  keyId : String
  signature : String
  deriving DecidableEq

def BranchRevocation.validate (revocation : BranchRevocation) : Outcome Unit := do
  require (0 < revocation.epoch ∧ revocation.epoch ≤ maxResource)
    (.validation "epoch must be positive")
  require (0 < revocation.reason.length ∧ revocation.reason.length ≤ 1000)
    (.validation "revocation reason must contain 1..1000 characters")

structure TransferCheckpoint where
  tenantId : String
  envelopeId : String
  configEpoch : ℕ
  sourceWarden : String
  targetWarden : String
  throughSequence : ℕ
  issuedAtNs : ℕ
  keyId : String
  signature : String
  deriving DecidableEq

/-- The records a warden signs; the signature is over the record with an empty signature. -/
inductive SignedRecord (d : ℕ)
  | grant (grant : LeaseGrant d)
  | receipt (receipt : Receipt d)
  | voucher (voucher : TransferVoucher d)
  | ack (ack : TransferAck)
  | revocation (revocation : BranchRevocation)
  | checkpoint (checkpoint : TransferCheckpoint)
  deriving DecidableEq

end Lets
