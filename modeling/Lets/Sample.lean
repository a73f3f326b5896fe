import Lets.Warden

set_option autoImplicit false

/-!
# A small configuration

Wardens of one resource whose signatures and digests are names, with an envelope and a policy of one
transition.
-/

namespace Lets

open Library

def SignedRecord.signature {d : ℕ} : SignedRecord d → String
  | grant g => g.signature
  | receipt r => r.signature
  | voucher v => v.signature
  | ack a => a.signature
  | revocation r => r.signature
  | checkpoint c => c.signature

def SignedRecord.recordName {d : ℕ} : SignedRecord d → String
  | grant g => g.leaseId
  | receipt r => r.receiptId
  | voucher v => v.transferId
  | ack a => a.transferId
  | revocation r => r.branchLeaseId
  | checkpoint c => c.sourceWarden

namespace Sample

def service (wardenId : String) : WardenService 1 ℕ where
  wardenId := wardenId
  keyId := wardenId
  signingKeyValidity := none
  allowedPeerWardens := some (["a", "b", "c"].filter (· ≠ wardenId))
  peersNodup := by
    rintro _ ⟨⟩
    exact List.Nodup.filter _ (by decide)
  notOwnPeer := by
    rintro _ ⟨⟩
    simp
  sign _ := wardenId
  signAudit _ := wardenId
  verifyRecord record source := record.signature = source
  hasCurrentWarden _ := true
  evidenceEvaluator _ _ _ _ _ := true
  fingerprint _ := ""
  recordDigest record := record.recordName
  evidenceDigest _ := ""
  branchDigest lineageId branch := lineageId ++ branch
  policyDigest payload := payload.policyVersion
  machineDigest payload := payload.policyVersion
  auditHash previousHash _ _ _ := previousHash + 1
  zeroHash := 0

def units (n : ℕ) : ResourceVector 1 where
  amount _ := min n maxResource
  le_max _ := Nat.min_le_right _ _

def envelope (share : ℕ) : Envelope 1 where
  tenantId := "tenant"
  envelopeId := "envelope"
  configEpoch := 1
  budget := units 10
  initialLocalShare := units share
  receiptTtlNs := 5
  maxClockUncertaintyNs := 1
  transferGapWindow := 4
  configEpoch_pos := by decide
  receiptTtlNs_pos := by decide
  transferGapWindow_pos := by decide

def policy : PolicyPayload 1 where
  policyId := "policy"
  policyVersion := "v1"
  initialState := "idle"
  transitions := [⟨"run", "idle", "idle", "act", units 1, none, none⟩]
  maxLeaseTtlNs := some 100
  receiptTtlNs := 5
  maxClockUncertaintyNs := 1
  transferGapWindow := 4

def operator : IdentityContext where
  subjectId := "operator"
  tenantId := "tenant"
  scopes := {"lets.admin"}

def exactly (nowNs : ℕ) : Reading := ⟨nowNs, 0⟩

def genesis (wardenId : String) (share : ℕ) : Database 1 ℕ :=
  .genesis wardenId wardenId (envelope share)

def registerPolicy : Operation 1 := .registerPolicy none policy

def rootRequest (allocation : ℕ) : IssueRootRequest 1 :=
  ⟨"r1", operator, "tenant", "envelope", "subject", units allocation, {"act"}, "v1", 50, none⟩

def voucher (sequence : ℕ) (transferId : String) : TransferVoucher 1 where
  tenantId := "tenant"
  envelopeId := "envelope"
  configEpoch := 1
  transferId := transferId
  sourceWarden := "a"
  targetWarden := "b"
  policyId := "policy"
  policyVersion := "v1"
  policyDigest := "v1"
  sequence := sequence
  amount := units 3
  issuedAtNs := 1
  keyId := "a"
  signature := "a"
  leaseRequest := none

end Sample

end Lets
