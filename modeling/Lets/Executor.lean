import Lets.Library.Runs
import Lets.Library.Table
import Lets.Records

set_option autoImplicit false

/-!
# The executor

A protected executor checks a warden's signed receipt and claims it in its replay store.
-/

namespace Lets

open Library

variable {d : ℕ} {Hash : Type}

def replayGcBatch : ℕ := 128

structure ExecutorPolicy where
  audience : String
  tenantId : Option String
  envelopeId : Option String
  configEpoch : Option ℕ
  allowedPolicyDigests : Finset String
  allowedMachineDigests : Finset String
  trustedWardens : Finset String
  maxClockUncertaintyNs : ℕ

structure ExecutorReplayIdentity (Hash : Type) where
  audience : String
  tenantId : String
  envelopeId : String
  configEpoch : ℕ
  executorPolicySha256 : Hash
  trustRegistrySha256 : Hash
  deriving DecidableEq

/-- A claimed receipt; the table is keyed by its id. -/
structure ReceiptClaim where
  tenantId : String
  envelopeId : String
  wardenId : String
  leaseId : String
  audience : String
  resultingSequence : ℕ
  nonce : String
  claimedAtNs : ℕ
  expiresAtNs : ℕ
  deriving DecidableEq

/-- The last sequence claimed; the table is keyed by warden, lease and audience. -/
structure LeaseWatermark where
  lastSequence : ℕ
  updatedAtNs : ℕ
  expiresAtNs : ℕ
  deriving DecidableEq

/-- What the digest of a claim covers, beside the digest before it. -/
structure ClaimEvent (Hash : Type) where
  databaseInstanceId : Hash
  sequence : ℕ
  previousDigest : Hash
  receiptDigest : Hash
  receiptId : String
  tenantId : String
  envelopeId : String
  wardenId : String
  leaseId : String
  audience : String
  resultingSequence : ℕ
  nonce : String
  claimedAtNs : ℕ
  clockUncertaintyNs : ℕ
  clockFloorNs : ℕ
  expiresAtNs : ℕ
  deriving DecidableEq

structure ClaimHistoryRow (Hash : Type) where
  sequence : ℕ
  previousDigest : Hash
  claimDigest : Hash
  receiptDigest : Hash
  receiptId : String
  claimedAtNs : ℕ
  clockFloorNs : ℕ
  deriving DecidableEq

/-- The replay database of one executor.  The claim history is in order of its sequence. -/
structure ReplayStore (Hash : Type) where
  identity : Option (ExecutorReplayIdentity Hash)
  schemaVersion : ℕ
  databaseInstanceId : Hash
  claimSequence : ℕ
  claimDigest : Hash
  clockFloorNs : Option ℕ
  receiptClaims : Table String ReceiptClaim
  leaseWatermarks : Table (String × String × String) LeaseWatermark
  claimHistory : List (ClaimHistoryRow Hash)

/-- A configured executor: its policy, its trust registry and the digests it computes. -/
structure ReceiptVerifier (d : ℕ) (Hash : Type) where
  policy : ExecutorPolicy
  signatureDecodes : String → Bool
  /-- Whether the registry accepts the signature over the unsigned receipt. -/
  registryVerify : Receipt d → Bool
  receiptDigest : Receipt d → Hash
  claimDigest : Hash → ClaimEvent Hash → Hash
  zeroHash : Hash

def Receipt.watermarkKey (receipt : Receipt d) : String × String × String :=
  (receipt.wardenId, receipt.leaseId, receipt.executorAudience)

namespace ReplayStore

def genesis (identity : Option (ExecutorReplayIdentity Hash)) (databaseInstanceId zeroHash : Hash) :
    ReplayStore Hash where
  identity := identity
  schemaVersion := 5
  databaseInstanceId := databaseInstanceId
  claimSequence := 0
  claimDigest := zeroHash
  clockFloorNs := none
  receiptClaims := ∅
  leaseWatermarks := ∅
  claimHistory := []

def nextFloor (claimedAtNs : ℕ) (store : ReplayStore Hash) : ℕ :=
  match store.clockFloorNs with
  | none => claimedAtNs
  | some floor => max claimedAtNs floor

/-- Forget the first of the claims and of the watermarks that have expired. -/
def collect (claimedAtNs : ℕ) (store : ReplayStore Hash) : ReplayStore Hash :=
  { store with
    receiptClaims := store.receiptClaims.deleteBatch
      (fun receiptId row => toLex (row.expiresAtNs, receiptId))
      (fun _ row => row.expiresAtNs ≤ claimedAtNs) replayGcBatch
    leaseWatermarks := store.leaseWatermarks.deleteBatch
      (fun key row => toLex (row.expiresAtNs, toLex (key.1, toLex (key.2.1, key.2.2))))
      (fun _ row => row.expiresAtNs ≤ claimedAtNs) replayGcBatch }

/-- What `_write` raises for every broken constraint. -/
def consumedError : LetsError := .replay "receipt id or nonce has already been consumed"

def insertClaim (receipt : Receipt d) (claimedAtNs : ℕ) (store : ReplayStore Hash) :
    Outcome (ReplayStore Hash) := do
  require (receipt.receiptId ∉ store.receiptClaims) consumedError
  require (0 < receipt.resultingSequence ∧ claimedAtNs < receipt.expiresAtNs) consumedError
  require (store.receiptClaims.anyRow (fun _ row =>
      row.tenantId = receipt.tenantId ∧ row.envelopeId = receipt.envelopeId ∧
        row.audience = receipt.executorAudience ∧ row.nonce = receipt.nonce) = false) consumedError
  pure { store with
    receiptClaims := store.receiptClaims.insert receipt.receiptId
      { tenantId := receipt.tenantId
        envelopeId := receipt.envelopeId
        wardenId := receipt.wardenId
        leaseId := receipt.leaseId
        audience := receipt.executorAudience
        resultingSequence := receipt.resultingSequence
        nonce := receipt.nonce
        claimedAtNs
        expiresAtNs := receipt.expiresAtNs } }

/-- The row of a watermark after a claim; its expiry never goes back. -/
def advancedWatermark (receipt : Receipt d) (claimedAtNs : ℕ) (store : ReplayStore Hash) :
    LeaseWatermark where
  lastSequence := receipt.resultingSequence
  updatedAtNs := claimedAtNs
  expiresAtNs := match store.leaseWatermarks.lookup receipt.watermarkKey with
    | none => receipt.expiresAtNs
    | some row => max row.expiresAtNs receipt.expiresAtNs

/-- The constraints of the row hold already where the claim's own row is accepted. -/
def advanceWatermark (receipt : Receipt d) (claimedAtNs : ℕ) (store : ReplayStore Hash) :
    ReplayStore Hash :=
  { store with
    leaseWatermarks := store.leaseWatermarks.insert receipt.watermarkKey
      (store.advancedWatermark receipt claimedAtNs) }

end ReplayStore

namespace ReceiptVerifier

def claimEvent (verifier : ReceiptVerifier d Hash) (receipt : Receipt d)
    (claimedAtNs clockUncertaintyNs : ℕ) (store : ReplayStore Hash) : ClaimEvent Hash where
  databaseInstanceId := store.databaseInstanceId
  sequence := store.claimSequence + 1
  previousDigest := store.claimDigest
  receiptDigest := verifier.receiptDigest receipt
  receiptId := receipt.receiptId
  tenantId := receipt.tenantId
  envelopeId := receipt.envelopeId
  wardenId := receipt.wardenId
  leaseId := receipt.leaseId
  audience := receipt.executorAudience
  resultingSequence := receipt.resultingSequence
  nonce := receipt.nonce
  claimedAtNs := claimedAtNs
  clockUncertaintyNs := clockUncertaintyNs
  clockFloorNs := store.nextFloor claimedAtNs
  expiresAtNs := receipt.expiresAtNs

def claimRow (verifier : ReceiptVerifier d Hash) (event : ClaimEvent Hash) :
    ClaimHistoryRow Hash where
  sequence := event.sequence
  previousDigest := event.previousDigest
  claimDigest := verifier.claimDigest event.previousDigest event
  receiptDigest := event.receiptDigest
  receiptId := event.receiptId
  claimedAtNs := event.claimedAtNs
  clockFloorNs := event.clockFloorNs

def appendClaim [DecidableEq Hash] (verifier : ReceiptVerifier d Hash) (event : ClaimEvent Hash)
    (store : ReplayStore Hash) : Outcome (ReplayStore Hash) := do
  require (store.claimSequence < maxResource)
    (.storage "executor claim sequence exhausted signed 64-bit authority")
  let row := verifier.claimRow event
  require (∀ prior ∈ store.claimHistory, prior.sequence ≠ row.sequence ∧
    prior.claimDigest ≠ row.claimDigest) ReplayStore.consumedError
  pure { store with
    claimHistory := store.claimHistory ++ [row]
    clockFloorNs := some event.clockFloorNs
    claimSequence := row.sequence
    claimDigest := row.claimDigest }

/-- `claim`: the transaction that records a receipt as used. -/
def claim [DecidableEq Hash] (verifier : ReceiptVerifier d Hash) (receipt : Receipt d)
    (clock : Reading) (store : ReplayStore Hash) : Outcome (ReplayStore Hash) := do
  require (clock.nowNs ≤ maxResource) (.clockUncertain "executor claimed_at_ns is invalid")
  require (clock.uncertaintyNs ≤ maxResource)
    (.clockUncertain "executor clock_uncertainty_ns is invalid")
  require (clock.nowNs ≤ maxResource - clock.uncertaintyNs)
    (.clockUncertain "executor clock interval exceeds signed 64-bit time")
  require (∀ identity ∈ store.identity, receipt.executorAudience = identity.audience ∧
      receipt.tenantId = identity.tenantId ∧ receipt.envelopeId = identity.envelopeId ∧
      receipt.configEpoch = identity.configEpoch)
    (.policy "receipt does not match the executor replay store identity")
  require (∀ floor ∈ store.clockFloorNs, floor ≤ clock.nowNs + clock.uncertaintyNs)
    (.clockUncertain "executor clock moved behind its durable floor beyond declared uncertainty")
  let kept := store.collect clock.nowNs
  require (∀ row ∈ kept.leaseWatermarks.lookup receipt.watermarkKey,
      row.lastSequence < receipt.resultingSequence)
    (.replay "receipt sequence does not advance the executor's lease watermark")
  let claimed ← kept.insertClaim receipt clock.nowNs
  verifier.appendClaim (verifier.claimEvent receipt clock.nowNs clock.uncertaintyNs store)
    (claimed.advanceWatermark receipt clock.nowNs)

/-- `_clock_interval`, of a reading that has been taken. -/
def clockInterval (verifier : ReceiptVerifier d Hash) (clock : Reading) : Outcome Unit := do
  require (clock.uncertaintyNs ≤ verifier.policy.maxClockUncertaintyNs)
    (.clockUncertain "executor clock uncertainty exceeds policy")
  require (clock.nowNs ≤ maxResource - clock.uncertaintyNs)
    (.clockUncertain "executor clock time is invalid")

def verifyAt (verifier : ReceiptVerifier d Hash) (receipt : Receipt d) (clock : Reading) :
    Outcome Unit := do
  let policy := verifier.policy
  require (receipt.executorAudience = policy.audience)
    (.policy "receipt audience does not match this executor")
  require (∀ tenantId ∈ policy.tenantId, receipt.tenantId = tenantId)
    (.policy "receipt tenant is not accepted by this executor")
  require (∀ envelopeId ∈ policy.envelopeId, receipt.envelopeId = envelopeId)
    (.policy "receipt envelope is not accepted by this executor")
  require (∀ configEpoch ∈ policy.configEpoch, receipt.configEpoch = configEpoch)
    (.policy "receipt configuration epoch is not accepted")
  require (policy.allowedPolicyDigests = ∅ ∨ receipt.policyDigest ∈ policy.allowedPolicyDigests)
    (.policy "receipt policy digest is not accepted")
  require (policy.allowedMachineDigests = ∅ ∨ receipt.machineDigest ∈ policy.allowedMachineDigests)
    (.policy "receipt machine digest is not accepted")
  require (policy.trustedWardens = ∅ ∨ receipt.wardenId ∈ policy.trustedWardens)
    (.policy "receipt issuer is not accepted")
  require (receipt.issuedAtNs ≤ clock.nowNs + clock.uncertaintyNs)
    (.policy "receipt issuance is in the future")
  require (clock.nowNs + clock.uncertaintyNs < receipt.expiresAtNs)
    (.policy "receipt is expired or cannot be proven fresh")
  require (verifier.signatureDecodes receipt.signature = true)
    (.signature "receipt signature is malformed")
  require (verifier.registryVerify receipt = true)
    (.signature "receipt signature is invalid or untrusted")

def verify (verifier : ReceiptVerifier d Hash) (receipt : Receipt d) (clock : Reading) :
    Outcome Unit := do
  verifier.clockInterval clock
  verifier.verifyAt receipt clock

def verifyAndClaim [DecidableEq Hash] (verifier : ReceiptVerifier d Hash) (receipt : Receipt d)
    (clock : Reading) (store : ReplayStore Hash) : Outcome (ReplayStore Hash) := do
  verifier.verify receipt clock
  verifier.claim receipt clock store

section Spec

variable [DecidableEq Hash] {verifier : ReceiptVerifier d Hash} {receipt : Receipt d}
  {clock : Reading} {store store' : ReplayStore Hash}

/-- What a claim has checked and done.  A row that is gone was expired. -/
structure Claimed (verifier : ReceiptVerifier d Hash) (receipt : Receipt d) (clock : Reading)
    (store store' : ReplayStore Hash) : Prop where
  floor_le : ∀ floor ∈ store.clockFloorNs, floor ≤ clock.nowNs + clock.uncertaintyNs
  floor_eq : store'.clockFloorNs = some (store.nextFloor clock.nowNs)
  claim_new : ∀ row, store.receiptClaims.lookup receipt.receiptId = some row →
    row.expiresAtNs ≤ clock.nowNs
  claim_eq : ∃ row, store'.receiptClaims.lookup receipt.receiptId = some row ∧
    row.expiresAtNs = receipt.expiresAtNs
  claim_kept : ∀ receiptId row, store.receiptClaims.lookup receiptId = some row →
    store'.receiptClaims.lookup receiptId = some row ∨ row.expiresAtNs ≤ clock.nowNs
  watermark_lt : ∀ row, store.leaseWatermarks.lookup receipt.watermarkKey = some row →
    row.lastSequence < receipt.resultingSequence ∨ row.expiresAtNs ≤ clock.nowNs
  watermark_eq : ∃ row, store'.leaseWatermarks.lookup receipt.watermarkKey = some row ∧
    row.lastSequence = receipt.resultingSequence ∧ receipt.expiresAtNs ≤ row.expiresAtNs ∧
      ∀ old, store.leaseWatermarks.lookup receipt.watermarkKey = some old →
        old.expiresAtNs ≤ row.expiresAtNs ∨ old.expiresAtNs ≤ clock.nowNs
  watermark_kept : ∀ key row, key ≠ receipt.watermarkKey →
    store.leaseWatermarks.lookup key = some row →
      store'.leaseWatermarks.lookup key = some row ∨ row.expiresAtNs ≤ clock.nowNs
  history_eq : store'.claimHistory = store.claimHistory ++ [verifier.claimRow
    (verifier.claimEvent receipt clock.nowNs clock.uncertaintyNs store)]
  sequence_eq : store'.claimSequence = store.claimSequence + 1
  digest_eq : store'.claimDigest = verifier.claimDigest store.claimDigest
    (verifier.claimEvent receipt clock.nowNs clock.uncertaintyNs store)
  identity_eq : store'.identity = store.identity
  schemaVersion_eq : store'.schemaVersion = store.schemaVersion
  databaseInstanceId_eq : store'.databaseInstanceId = store.databaseInstanceId

variable {claimedAtNs : ℕ}

omit [DecidableEq Hash] in
theorem collect_claims_cases {receiptId : String} {row : ReceiptClaim}
    (h : store.receiptClaims.lookup receiptId = some row) :
    (store.collect claimedAtNs).receiptClaims.lookup receiptId = some row ∨
      (store.collect claimedAtNs).receiptClaims.lookup receiptId = none ∧
        row.expiresAtNs ≤ claimedAtNs := by
  have hcases := Table.lookup_deleteBatch_cases (n := replayGcBatch)
    (g := fun receiptId (row : ReceiptClaim) => toLex (row.expiresAtNs, receiptId))
    (p := fun _ row => row.expiresAtNs ≤ claimedAtNs)
    (fun k k' r r' heq => by rw [(Prod.mk.inj (toLex_inj.mp heq)).1]) h
  exact hcases.imp id fun hgone => ⟨hgone.1, of_decide_eq_true hgone.2⟩

omit [DecidableEq Hash] in
theorem collect_watermarks_cases {key : String × String × String} {row : LeaseWatermark}
    (h : store.leaseWatermarks.lookup key = some row) :
    (store.collect claimedAtNs).leaseWatermarks.lookup key = some row ∨
      (store.collect claimedAtNs).leaseWatermarks.lookup key = none ∧
        row.expiresAtNs ≤ claimedAtNs := by
  have hcases := Table.lookup_deleteBatch_cases (n := replayGcBatch)
    (g := fun key (row : LeaseWatermark) =>
      toLex (row.expiresAtNs, toLex (key.1, toLex (key.2.1, key.2.2))))
    (p := fun _ row => row.expiresAtNs ≤ claimedAtNs)
    (fun k k' r r' heq => by rw [(Prod.mk.inj (toLex_inj.mp heq)).1]) h
  exact hcases.imp id fun hgone => ⟨hgone.1, of_decide_eq_true hgone.2⟩

omit [DecidableEq Hash] in
theorem le_advancedWatermark :
    receipt.expiresAtNs ≤ (store.advancedWatermark receipt claimedAtNs).expiresAtNs := by
  unfold ReplayStore.advancedWatermark
  cases store.leaseWatermarks.lookup receipt.watermarkKey with
  | none => exact Nat.le_refl _
  | some row => exact Nat.le_max_right _ _

omit [DecidableEq Hash] in
theorem advancedWatermark_of_row {row : LeaseWatermark}
    (h : store.leaseWatermarks.lookup receipt.watermarkKey = some row) :
    row.expiresAtNs ≤ (store.advancedWatermark receipt claimedAtNs).expiresAtNs := by
  simp only [ReplayStore.advancedWatermark, h]
  exact Nat.le_max_left _ _

theorem claim_ok (h : verifier.claim receipt clock store = .ok store') :
    Claimed verifier receipt clock store store' := by
  simp only [claim, ReplayStore.insertClaim, appendClaim, bind_ok_iff, require_ok_iff,
    exists_unit_iff, pure_ok_iff] at h
  obtain ⟨_, _, _, _, hfloor, hwatermark, _, ⟨hnew, _, _, rfl⟩, _, _, rfl⟩ := h
  refine ⟨hfloor, rfl, ?_, ⟨_, AList.lookup_insert _, rfl⟩, ?_, ?_,
    ⟨_, AList.lookup_insert _, rfl, ?_, ?_⟩, ?_, rfl, rfl, rfl, rfl, rfl, rfl⟩
  · intro row hrow
    rcases collect_claims_cases hrow with hkept | ⟨_, hexpired⟩
    · exact absurd (Table.mem_of_lookup hkept) hnew
    · exact hexpired
  · intro receiptId row hrow
    rcases collect_claims_cases hrow with hkept | ⟨_, hexpired⟩
    · exact .inl (Table.lookup_insert_of_new hnew hkept)
    · exact .inr hexpired
  · intro row hrow
    rcases collect_watermarks_cases hrow with hkept | ⟨_, hexpired⟩
    · exact .inl (hwatermark row hkept)
    · exact .inr hexpired
  · exact le_advancedWatermark
  · intro old hold
    rcases collect_watermarks_cases hold with hkept | ⟨_, hexpired⟩
    · exact .inl (advancedWatermark_of_row hkept)
    · exact .inr hexpired
  · intro key row hne hrow
    rcases collect_watermarks_cases hrow with hkept | ⟨_, hexpired⟩
    · exact .inl ((AList.lookup_insert_ne hne).trans hkept)
    · exact .inr hexpired

omit [DecidableEq Hash] in
theorem verify_ok (h : verifier.verify receipt clock = .ok ()) :
    clock.nowNs + clock.uncertaintyNs < receipt.expiresAtNs := by
  simp only [verify, verifyAt, bind_ok_iff, require_ok_iff, exists_unit_iff] at h
  obtain ⟨_, _, _, _, _, _, _, _, _, hfresh, _⟩ := h
  exact hfresh

theorem verifyAndClaim_ok_iff : verifier.verifyAndClaim receipt clock store = .ok store' ↔
    verifier.verify receipt clock = .ok () ∧ verifier.claim receipt clock store = .ok store' := by
  simp only [verifyAndClaim, bind_ok_iff, exists_unit_iff]

end Spec

end ReceiptVerifier

end Lets
