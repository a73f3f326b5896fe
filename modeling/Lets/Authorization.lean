import Lets.Service

set_option autoImplicit false

/-!
# Authorizing transitions

`authorize` takes one transition of a lease's state machine, charges its cost to the lease and signs
the receipt that an executor will claim.
-/

namespace Lets

open Library

variable {d : ℕ} {Hash : Type}

structure AuthorizeRequest where
  requestId : String
  identity : IdentityContext
  leaseId : String
  transition : String
  audience : String
  nonce : String
  evidence : Option Json
  expectedState : Option String
  expectedSequence : Option ℕ

def AuthorizeRequest.arguments (req : AuthorizeRequest) (evidenceDigest : Option String)
    (configEpoch : ℕ) : Arguments d :=
  .authorize req.identity.subjectId req.leaseId req.transition req.audience req.nonce
    evidenceDigest req.expectedState req.expectedSequence configEpoch

namespace Database

def latestReceipt (leaseId audience : String) (db : Database d Hash) : Option (Receipt d) :=
  (db.receipts.entries.map Sigma.snd).foldl
    (fun best receipt =>
      if receipt.leaseId = leaseId ∧ receipt.executorAudience = audience ∧
          (∀ r ∈ best, r.resultingSequence ≤ receipt.resultingSequence) then some receipt
      else best) none

/-- Insert a receipt; the unique indexes and the expiry triggers of the table may refuse it. -/
def insertReceipt (receipt : Receipt d) (db : Database d Hash) : Outcome (Database d Hash) := do
  require (receipt.receiptId ∉ db.receipts)
    (.integrity "UNIQUE constraint failed: receipts.receipt_id")
  require (db.receipts.anyRow (fun _ r =>
      r.leaseId = receipt.leaseId ∧ r.resultingSequence = receipt.resultingSequence) = false)
    (.integrity "UNIQUE constraint failed: receipts.resulting_sequence")
  require (db.receipts.anyRow (fun _ r =>
      r.leaseId = receipt.leaseId ∧ r.executorAudience = receipt.executorAudience ∧
        r.resultingSequence < receipt.resultingSequence ∧
        receipt.expiresAtNs < r.expiresAtNs) = false)
    (.integrity "receipt expiry regresses below an earlier sequence")
  require (db.receipts.anyRow (fun _ r =>
      r.leaseId = receipt.leaseId ∧ r.executorAudience = receipt.executorAudience ∧
        receipt.resultingSequence < r.resultingSequence ∧
        r.expiresAtNs < receipt.expiresAtNs) = false)
    (.integrity "receipt expiry exceeds a later sequence")
  pure { db with receipts := db.receipts.insert receipt.receiptId receipt }

end Database

namespace WardenService

def unsignedReceipt (svc : WardenService d Hash) (clock : Reading) (db : Database d Hash)
    (newReceiptId : String) (req : AuthorizeRequest) (lease : Lease d) (policy : PolicyRow d)
    (rule : TransitionRule d) (expiresAtNs : ℕ) : Receipt d where
  tenantId := db.envelope.tenantId
  envelopeId := db.envelope.envelopeId
  configEpoch := db.envelope.configEpoch
  receiptId := newReceiptId
  requestId := req.requestId
  wardenId := svc.wardenId
  keyId := svc.keyId
  policyId := policy.payload.policyId
  policyVersion := policy.payload.policyVersion
  policyDigest := lease.policyDigest
  machineDigest := policy.machineDigest
  leaseId := req.leaseId
  lineageId := lease.lineageId
  subjectId := lease.subjectId
  executorAudience := req.audience
  transition := req.transition
  sourceState := lease.state
  targetState := rule.target
  cost := rule.cost
  resultingSequence := lease.sequence + 1
  evidenceDigest := req.evidence.map svc.evidenceDigest
  nonce := req.nonce
  issuedAtNs := clock.nowNs
  expiresAtNs := expiresAtNs
  signature := ""

def authorize (svc : WardenService d Hash) (clock : Reading) (newReceiptId : String)
    (req : AuthorizeRequest) (db : Database d Hash) : Outcome (Database d Hash × Response d) := do
  let actor := req.identity.subjectId
  require (16 ≤ req.nonce.length) (.validation "nonce must contain at least 16 characters")
  checkExpectedSequence req.expectedSequence
  let evidenceDigest := req.evidence.map svc.evidenceDigest
  require (req.identity.tenantId = db.envelope.tenantId)
    (.policy "identity tenant does not match lease tenant")
  let fingerprint := svc.fingerprint (req.arguments evidenceDigest db.envelope.configEpoch)
  let scope := "authorize:" ++ req.leaseId
  writeTransaction db fun db => do
    let db ← db.clockIsSafe clock
    let lease ← db.loadLease req.leaseId
    require (actor = lease.subjectId ∨ req.identity.HasScope subjectLifecycleScopes)
      (.policy "authenticated subject does not own this lease")
    match ← db.idempotentResponse scope req.requestId fingerprint with
    | some prior => pure (db, prior)
    | none => do
      db.requireRuntimeActive
      db.requireActionable req.leaseId lease clock
      require (∀ s ∈ req.expectedState, lease.state = s)
        (.conflict (expectedText "lease state" (quoted lease.state)
          (quoted (req.expectedState.getD ""))))
      require (∀ s ∈ req.expectedSequence, lease.sequence = s)
        (.conflict (expectedText "lease sequence" (toString lease.sequence)
          (toString (req.expectedSequence.getD 0))))
      require (db.receipts.anyRow (fun _ r =>
          r.executorAudience = req.audience ∧ r.nonce = req.nonce) = false)
        (.replay "executor nonce was already authorized")
      let policy ← db.registeredPolicy lease.policyDigest
      require (policy.machineDigest = lease.machineDigest)
        (.policy "lease machine digest is not bound to its registered policy")
      let rule ← policy.transition lease.state req.transition
      require (rule.capability ∈ lease.capabilities)
        (.policy "lease lacks transition capability")
      require (∀ allowed ∈ rule.audiences, req.audience ∈ allowed)
        (.policy "executor audience is not allowed for this transition")
      require (svc.evidenceEvaluator rule.evidence req.evidence clock.nowNs lease.subjectId
          req.audience = true)
        (.policy "transition evidence predicate was not satisfied")
      require (rule.cost.lessThanOrEqual lease.residual)
        (.policy "lease residual does not cover transition cost")
      let resultingSequence := lease.sequence + 1
      let expiresAtNs := min (clock.nowNs + db.envelope.receiptTtlNs) lease.expiresAtNs
      require (∀ prior ∈ db.latestReceipt req.leaseId req.audience, prior.expiresAtNs ≤ expiresAtNs)
        (.conflict "receipt expiry would regress below an outstanding authorization horizon")
      require (clock.nowNs + clock.uncertaintyNs < expiresAtNs)
        (.expired "receipt cannot be fresh under clock uncertainty")
      let unsigned := svc.unsignedReceipt clock db newReceiptId req lease policy rule expiresAtNs
      unsigned.validate
      let signature ← svc.signRecord clock (.receipt unsigned)
      let receipt := { unsigned with signature }
      let residual ← lease.residual.subtract rule.cost
      let db ← db.updateLeaseResidual req.leaseId residual fun lease =>
        { lease with
          state := rule.target
          sequence := resultingSequence
          updatedAtNs := clock.nowNs }
      let consumed ← db.consumed.add rule.cost
      let db := { db with consumed, revision := db.revision + 1 }
      let db ← db.insertReceipt receipt
      let db ← svc.appendAudit clock "transition.authorized" "receipt" newReceiptId actor
        [("lease_id", .text req.leaseId), ("transition", .text req.transition),
          ("source_state", .text lease.state), ("target_state", .text rule.target),
          ("cost", .amount rule.cost), ("resulting_sequence", .number resultingSequence),
          ("executor_audience", .text req.audience),
          ("evidence_digest", match evidenceDigest with
            | none => .absent
            | some digest => .text digest)] db
      pure (db.rememberResponse scope req.requestId fingerprint (.receipt receipt) clock.nowNs 200,
        .receipt receipt)

section Spec

variable {svc : WardenService d Hash} {clock : Reading} {db db' : Database d Hash}
  {out : Response d}

def charged (rule : TransitionRule d) (residual : ResourceVector d)
    (resultingSequence nowNs : ℕ) (lease : Lease d) : Lease d :=
  { lease with
    state := rule.target
    residual
    sequence := resultingSequence
    updatedAtNs := nowNs }

/-- What `authorize` has checked and done when it issues a new receipt. -/
structure Authorized (svc : WardenService d Hash) (clock : Reading) (newReceiptId : String)
    (req : AuthorizeRequest) (db db' : Database d Hash) (out : Response d) where
  lease : Lease d
  policy : PolicyRow d
  rule : TransitionRule d
  expiresAtNs : ℕ
  signature : String
  receipt : Receipt d
  residual : ResourceVector d
  total : ResourceVector d
  consumed : ResourceVector d
  auditRow : AuditRow d Hash
  lease_eq : db.leases.lookup req.leaseId = some lease
  runtimeActive : db.runtime.mode = .active
  active : lease.status = .active
  leaseFresh : clock.nowNs + clock.uncertaintyNs < lease.expiresAtNs
  notRevoked : db.leaseRevoked req.leaseId lease = false
  expiry_eq : expiresAtNs = min (clock.nowNs + db.envelope.receiptTtlNs) lease.expiresAtNs
  fresh : clock.nowNs + clock.uncertaintyNs < expiresAtNs
  receipt_eq : receipt = { svc.unsignedReceipt clock db newReceiptId req lease policy rule
    expiresAtNs with signature }
  receipt_new : newReceiptId ∉ db.receipts
  nonce_new : ∀ receiptId r, db.receipts.lookup receiptId = some r →
    r.executorAudience = req.audience → r.nonce ≠ req.nonce
  sequence_new : ∀ receiptId r, db.receipts.lookup receiptId = some r → r.leaseId = req.leaseId →
    r.resultingSequence ≠ lease.sequence + 1
  expiry_after : ∀ receiptId r, db.receipts.lookup receiptId = some r → r.leaseId = req.leaseId →
    r.executorAudience = req.audience → r.resultingSequence < lease.sequence + 1 →
      r.expiresAtNs ≤ expiresAtNs
  expiry_before : ∀ receiptId r, db.receipts.lookup receiptId = some r → r.leaseId = req.leaseId →
    r.executorAudience = req.audience → lease.sequence + 1 < r.resultingSequence →
      expiresAtNs ≤ r.expiresAtNs
  residual_eq : ∀ i, residual i + rule.cost i = lease.residual i
  total_eq : ∀ i, total i + rule.cost i = db.leaseResidual i
  consumed_eq : ∀ i, consumed i = db.consumed i + rule.cost i
  request_new : db.idempotency.lookup req.requestId = none
  out_eq : out = .receipt receipt
  chained : svc.AuditExtends db.auditLog (db.auditLog ++ [auditRow])
  result : db' = Database.rememberResponse ("authorize:" ++ req.leaseId) req.requestId
    (svc.fingerprint
      (req.arguments (req.evidence.map svc.evidenceDigest) db.envelope.configEpoch))
    out clock.nowNs 200
    { db.touch clock.nowNs with
      leases := db.leases.update req.leaseId
        (charged rule residual (lease.sequence + 1) clock.nowNs)
      leaseResidual := total
      consumed
      revision := db.revision + 1
      receipts := db.receipts.insert newReceiptId receipt
      auditLog := db.auditLog ++ [auditRow] }
  policy_eq : db.policies.lookup lease.policyDigest = some policy
  machine_eq : policy.machineDigest = lease.machineDigest
  rule_eq : policy.transition lease.state req.transition = .ok rule
  capability : rule.capability ∈ lease.capabilities

theorem insertReceipt_ok {receipt : Receipt d} (h : db.insertReceipt receipt = .ok db') :
    receipt.receiptId ∉ db.receipts ∧
      (∀ receiptId r, db.receipts.lookup receiptId = some r → r.leaseId = receipt.leaseId →
        r.resultingSequence ≠ receipt.resultingSequence) ∧
      (∀ receiptId r, db.receipts.lookup receiptId = some r → r.leaseId = receipt.leaseId →
        r.executorAudience = receipt.executorAudience →
        r.resultingSequence < receipt.resultingSequence → r.expiresAtNs ≤ receipt.expiresAtNs) ∧
      (∀ receiptId r, db.receipts.lookup receiptId = some r → r.leaseId = receipt.leaseId →
        r.executorAudience = receipt.executorAudience →
        receipt.resultingSequence < r.resultingSequence → receipt.expiresAtNs ≤ r.expiresAtNs) ∧
      db' = { db with receipts := db.receipts.insert receipt.receiptId receipt } := by
  simp only [Database.insertReceipt, bind_ok_iff, require_ok_iff, exists_unit_iff, pure_ok_iff,
    Table.anyRow_eq_false_iff, decide_eq_false_iff_not, not_and, not_lt] at h
  obtain ⟨hnew, hseq, hafter, hbefore, rfl⟩ := h
  exact ⟨hnew, hseq, hafter, hbefore, rfl⟩

theorem authorize_ok {newReceiptId : String} {req : AuthorizeRequest}
    (h : svc.authorize clock newReceiptId req db = .ok (db', out)) :
    db.ClockSafe clock ∧ db'.Conserved ∧
      (Database.Replays clock ("authorize:" ++ req.leaseId) req.requestId
          (svc.fingerprint
            (req.arguments (req.evidence.map svc.evidenceDigest) db.envelope.configEpoch))
          out db db' ∨
        Nonempty (Authorized svc clock newReceiptId req db db' out)) := by
  simp only [authorize, bind_ok_iff, require_ok_iff, exists_unit_iff] at h
  obtain ⟨_, _, _, h⟩ := h
  obtain ⟨h, hcons⟩ := writeTransaction_ok h
  simp only [bind_ok_iff, require_ok_iff, exists_unit_iff, Database.clockIsSafe_ok_iff,
    Database.loadLease_ok_iff] at h
  obtain ⟨_, ⟨hclock, rfl⟩, lease, hlease, _, prior, hprior, h⟩ := h
  refine ⟨hclock, hcons, ?_⟩
  cases prior with
  | some prior => exact .inl (Database.replays_of hprior h)
  | none =>
    simp only [bind_ok_iff, require_ok_iff, exists_unit_iff, pure_ok_iff,
      Database.requireRuntimeActive, Database.requireActionable_ok_iff,
      Database.registeredPolicy_ok_iff, ResourceVector.subtract_ok_iff,
      ResourceVector.add_ok_iff, Prod.mk.injEq] at h
    obtain ⟨hactive, ⟨hstatus, hexpiry, hrevoked⟩, _, _, hnonce, policy, hpolicy, hmachine, rule,
      hrule, hcapability, _, _, _, _, hfresh, _, signature, _, residual, hresidual, _, hupdate,
      consumed, hconsumed, _, hinsert, _, haudit, rfl, rfl⟩ := h
    obtain ⟨lease', total, hlease', _, htotal, rfl⟩ := Database.updateLeaseResidual_ok hupdate
    obtain rfl := some_unique hlease hlease'
    obtain ⟨hnew, hseq, hafter, hbefore, rfl⟩ := insertReceipt_ok hinsert
    obtain ⟨auditRow, hchained, rfl⟩ := appendAudit_ok haudit
    simp only [Table.anyRow_eq_false_iff, decide_eq_false_iff_not, not_and] at hnonce
    exact .inr ⟨{
      lease, policy, rule, signature, residual, total, consumed, auditRow
      expiresAtNs := _
      receipt := _
      lease_eq := hlease
      runtimeActive := hactive
      active := hstatus
      leaseFresh := hexpiry
      notRevoked := hrevoked
      expiry_eq := rfl
      fresh := hfresh
      receipt_eq := rfl
      receipt_new := hnew
      nonce_new := hnonce
      sequence_new := hseq
      expiry_after := hafter
      expiry_before := hbefore
      residual_eq := hresidual
      total_eq := fun i => by
        have h₁ := htotal i
        have h₂ := hresidual i
        simp only [Database.touch] at h₁
        omega
      consumed_eq := hconsumed
      request_new := Database.idempotentResponse_none_iff.mp hprior
      out_eq := rfl
      chained := hchained
      result := rfl
      policy_eq := hpolicy
      machine_eq := hmachine
      rule_eq := hrule
      capability := hcapability }⟩

end Spec

end WardenService

end Lets
