import Lets.Sample

set_option autoImplicit false

/-!
# What authorizing a transition does

A request that is not a retry fails and changes nothing, or takes one transition of the machine the
lease was registered with: one receipt, one charge, one step of the lease, and nothing else.
-/

namespace Lets

open Library

variable {d : ℕ} {Hash : Type}

/-- The only transition of a machine with that name out of that state. -/
def PolicyPayload.Enables (payload : PolicyPayload d) (state name : String)
    (rule : TransitionRule d) : Prop :=
  ∀ rule', rule' = rule ↔ rule' ∈ payload.transitions ∧ rule'.name = name ∧ rule'.source = state

theorem PolicyRow.enables_of_transition {policy : PolicyRow d} {state name : String}
    {rule : TransitionRule d} (h : policy.transition state name = .ok rule) :
    policy.payload.Enables state name rule := by
  unfold PolicyRow.transition at h
  split at h
  · next only honly =>
    obtain rfl := Except.ok.inj h
    intro rule'
    rw [← List.mem_singleton, ← honly, List.mem_filter, decide_eq_true_iff]
  · cases h

/-- A receipt has been issued for a transition of a lease, and nothing else has happened. -/
structure ReceiptIssued (clock : Reading) (req : AuthorizeRequest) (lease : Lease d)
    (policy : PolicyRow d) (rule : TransitionRule d) (receipt : Receipt d)
    (db db' : Database d Hash) : Prop where
  held : db.leases.lookup req.leaseId = some lease
  registered : db.policies.lookup lease.policyDigest = some policy
  machine : policy.machineDigest = lease.machineDigest
  enabled : policy.payload.Enables lease.state req.transition rule
  capable : rule.capability ∈ lease.capabilities
  active : lease.status = .active
  unexpired : clock.nowNs + clock.uncertaintyNs < lease.expiresAtNs
  unrevoked : ∀ branch ∈ lease.ancestorPath ++ [req.leaseId],
    db.revocations.lookup (lease.lineageId, branch) = none
  names : receipt.leaseId = req.leaseId ∧ receipt.requestId = req.requestId ∧
    receipt.transition = req.transition ∧ receipt.executorAudience = req.audience
  charge : receipt.cost = rule.cost
  source : receipt.sourceState = lease.state
  target : receipt.targetState = rule.target
  sequence : receipt.resultingSequence = lease.sequence + 1
  receipt_new : receipt.receiptId ∉ db.receipts
  receipts : ∀ receiptId, db'.receipts.lookup receiptId =
    if receiptId = receipt.receiptId then some receipt else db.receipts.lookup receiptId
  lease_after : ∃ residual : ResourceVector d,
    (∀ i, residual i + receipt.cost i = lease.residual i) ∧
      db'.leases.lookup req.leaseId = some { lease with
        state := receipt.targetState
        residual
        sequence := receipt.resultingSequence
        updatedAtNs := clock.nowNs }
  other_leases : ∀ leaseId ≠ req.leaseId, db'.leases.lookup leaseId = db.leases.lookup leaseId
  residual_total : ∀ i, db'.leaseResidual i + receipt.cost i = db.leaseResidual i
  consumed : ∀ i, db'.consumed i = db.consumed i + receipt.cost i
  audited : ∃ row, db'.auditLog = db.auditLog ++ [row]
  remembered : ∀ requestId ≠ req.requestId,
    db'.idempotency.lookup requestId = db.idempotency.lookup requestId
  -- everything the fields above do not speak of is as it was
  kept : db' = { db with
    clockFloorNs := db'.clockFloorNs
    revision := db.revision + 1
    leases := db'.leases
    leaseResidual := db'.leaseResidual
    consumed := db'.consumed
    receipts := db'.receipts
    idempotency := db'.idempotency
    auditLog := db'.auditLog }

namespace WardenService

variable {svc : WardenService d Hash} {clock : Reading} {newReceiptId : String}
  {req : AuthorizeRequest} {db db' : Database d Hash} {out : Response d}

theorem Authorized.unrevoked (done : Authorized svc clock newReceiptId req db db' out) :
    ∀ branch ∈ done.lease.ancestorPath ++ [req.leaseId],
      db.revocations.lookup (done.lease.lineageId, branch) = none := by
  have h := done.notRevoked
  simp only [Database.leaseRevoked, Database.pathRevoked, List.any_eq_false,
    Bool.not_eq_true, Option.isSome_eq_false_iff, Option.isNone_iff_eq_none] at h
  exact h

theorem Authorized.receiptIssued (done : Authorized svc clock newReceiptId req db db' out) :
    ReceiptIssued clock req done.lease done.policy done.rule done.receipt db db' := by
  have hunrevoked := done.unrevoked
  obtain ⟨lease, policy, rule, expiresAtNs, signature, receipt, residual, total, consumed, auditRow,
    hlease, _, hactive, hfresh, _, _, _, hreceipt, hnew, _, _, _, _, hresidual, htotal, hconsumed,
    _, _, _, hresult, hpolicy, hmachine, hrule, hcapability⟩ := done
  subst hreceipt hresult
  exact {
    held := hlease
    registered := hpolicy
    machine := hmachine
    enabled := PolicyRow.enables_of_transition hrule
    capable := hcapability
    active := hactive
    unexpired := hfresh
    unrevoked := hunrevoked
    names := ⟨rfl, rfl, rfl, rfl⟩
    charge := rfl
    source := rfl
    target := rfl
    sequence := rfl
    receipt_new := hnew
    receipts := fun _ => Table.lookup_insert_eq
    lease_after := by
      refine ⟨residual, hresidual, ?_⟩
      change (db.leases.update req.leaseId _).lookup req.leaseId = _
      rw [Table.lookup_update, if_pos rfl, hlease]
      rfl
    other_leases := fun leaseId hne => by
      change (db.leases.update req.leaseId _).lookup leaseId = _
      rw [Table.lookup_update, if_neg hne]
    residual_total := htotal
    consumed := hconsumed
    audited := ⟨auditRow, rfl⟩
    remembered := fun requestId hne => by
      change (db.idempotency.insert req.requestId _).lookup requestId = _
      rw [Table.lookup_insert_eq, if_neg hne]
    kept := rfl }

/-- A new request to authorize a transition is rejected without a trace, or takes it exactly. -/
theorem authorize_exact (svc : WardenService d Hash) (clock : Reading) (newReceiptId : String)
    (req : AuthorizeRequest) (db : Database d Hash)
    (hnew : db.idempotency.lookup req.requestId = none) :
    svc.Rejects clock (.authorize newReceiptId req) db ∨
      ∃ db' receipt,
        svc.serve clock (.authorize newReceiptId req) db = (db', .ok (.receipt receipt)) ∧
          ∃ lease policy rule, ReceiptIssued clock req lease policy rule receipt db db' := by
  by_cases hok : ∃ db' out, svc.exec clock (.authorize newReceiptId req) db = .ok (db', out)
  · obtain ⟨db', out, hexec⟩ := hok
    obtain ⟨_, _, ⟨_, _, hrow, _⟩ | ⟨⟨done⟩⟩⟩ := authorize_ok hexec
    · rw [hnew] at hrow
      cases hrow
    · have hserve := serve_ok_iff.mpr hexec
      rw [done.out_eq] at hserve
      exact .inr ⟨db', done.receipt, hserve, done.lease, done.policy, done.rule,
        done.receiptIssued⟩
  · exact .inl (rejects_of_not_ok fun db' out h => hok ⟨db', out, h⟩)

end WardenService

namespace Sample

def rooted : Database 1 ℕ :=
  ((service "a").play (genesis "a" 6)
    [(exactly 1, registerPolicy), (exactly 2, .issueRoot "root" "line" (rootRequest 5))]).1

def runRequest : AuthorizeRequest :=
  ⟨"r2", operator, "root", "run", "executor", "nonce-0123456789", none, none, none⟩

end Sample

open Sample

theorem authorize_exact_rooted :
    ∃ db' receipt,
      (service "a").serve (exactly 3) (.authorize "receipt" runRequest)
          rooted = (db', .ok (.receipt receipt)) ∧
        ∃ lease policy rule, ReceiptIssued (exactly 3) runRequest lease policy rule
          receipt rooted db' := by
  rcases WardenService.authorize_exact (service "a") (exactly 3) "receipt"
    runRequest rooted (by decide +kernel) with ⟨e, he⟩ | h
  · have hok : ((service "a").serve (exactly 3) (.authorize "receipt"
        runRequest) rooted).2.toOption.isSome = true := by decide +kernel
    rw [he] at hok
    cases hok
  · exact h

end Lets
