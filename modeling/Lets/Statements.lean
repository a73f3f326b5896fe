import Lets.Library.Aggregate
import Lets.LeaseRows

set_option autoImplicit false

/-!
# Operations as sequences of statements

What a transaction does to the rows of `leases` it does by statements whose triggers keep the total
of the residuals, and what it does to the audit log by appending signed and chained rows.
-/

namespace Lets

open Library

variable {d : ℕ} {Hash : Type}

/-- Vectors as a bounded type of amounts, with the error of a statement that overflows. -/
def checkedVectors (d : ℕ) (e : LetsError) :
    CheckedSum (ResourceVector d) (Fin d → ℕ) LetsError where
  measure := ResourceVector.amount
  zero := .zero d
  add v w := v.addOr e w
  subtract v w := v.subtractOr e w
  measure_injective := fun _ _ h => ResourceVector.ext fun i => congrFun h i
  measure_zero := rfl
  add_ok_iff := ResourceVector.addOr_ok_iff.trans funext_iff.symm
  subtract_ok_iff := ResourceVector.subtractOr_ok_iff.trans funext_iff.symm
  exists_part := by
    intro m n c h
    refine ⟨⟨m, fun i => ?_⟩, rfl⟩
    have hle : m i ≤ c i := by
      rw [congrFun h i]
      exact Nat.le_add_right _ _
    exact hle.trans (c.le_max i)

namespace Database

def residuals (db : Database d Hash) : Tally String (Lease d) (ResourceVector d) :=
  ⟨db.leases, db.leaseResidual⟩

/-- A statement on `leases` with its trigger: `leases_residual_total_insert`, `_update` and
`_delete`. -/
def writeLeases (write : RowWrite String (Lease.residual (d := d))) (db : Database d Hash) :
    Outcome (Database d Hash) := do
  let tally ← db.residuals.write (checkedVectors d (.storage "SQLite transaction failed"))
    Lease.residual (.integrity "UNIQUE constraint failed: leases.lease_id") write
  pure { db with leases := tally.rows, leaseResidual := tally.total }

def tracked (db : Database d Hash) :
    Envelope d × Table String (Lease d) × ResourceVector d × List (AuditRow d Hash) :=
  (db.envelope, db.leases, db.leaseResidual, db.auditLog)

end Database

namespace WardenService

/-- One statement of a transaction: on the rows of `leases`, an insertion into the audit log, or on
anything else. -/
inductive Statement (svc : WardenService d Hash) (clock : Reading) (db : Database d Hash) :
    Database d Hash → Prop
  | leases {write : RowWrite String (Lease.residual (d := d))} {db' : Database d Hash}
      (written : db.writeLeases write = .ok db') : Statement svc clock db db'
  | audit (eventType entityType entityId actorId : String) {details : List (String × Detail d)}
      (distinct : (details.map Prod.fst).Nodup) :
      Statement svc clock db { db with
        auditLog := db.auditLog ++
          [svc.nextAuditRow clock eventType entityType entityId actorId details db] }
  | elsewhere {db' : Database d Hash} (same : db'.tracked = db.tracked) : Statement svc clock db db'

abbrev Transacts (svc : WardenService d Hash) (clock : Reading) :
    Database d Hash → Database d Hash → Prop :=
  Relation.ReflTransGen (svc.Statement clock)

/-- Where the computation succeeds, statements have led from the store to the one it leaves. -/
abbrev Commits (svc : WardenService d Hash) (clock : Reading) (db : Database d Hash) {α : Type}
    (x : Outcome (Database d Hash × α)) : Prop :=
  Ensures x fun result => svc.Transacts clock db result.1

variable {svc : WardenService d Hash} {clock : Reading} {db db₁ db' : Database d Hash}

theorem Transacts.elsewhere (h : svc.Transacts clock db db₁) (same : db'.tracked = db₁.tracked) :
    svc.Transacts clock db db' :=
  h.tail (.elsewhere same)

theorem Statement.ofWrite (write : RowWrite String (Lease.residual (d := d)))
    (written : db.writeLeases write = .ok db') : svc.Statement clock db db' :=
  .leases written

theorem clockIsSafe_transacts (h : svc.Transacts clock db db₁) :
    Ensures (db₁.clockIsSafe clock) (svc.Transacts clock db) := by
  intro db' hsafe
  obtain ⟨_, rfl⟩ := Database.clockIsSafe_ok_iff.mp hsafe
  exact h.elsewhere rfl

variable {leaseId : String} {lease : Lease d}

theorem insertLease_transacts (h : svc.Transacts clock db db₁) :
    Ensures (db₁.insertLease leaseId lease) (svc.Transacts clock db) := by
  intro db' hinsert
  obtain ⟨hnew, _, _, total, htotal, rfl⟩ := Database.insertLease_ok_iff.mp hinsert
  apply h.tail
  apply Statement.ofWrite (.insert leaseId lease)
  simp only [Database.writeLeases, Tally.write, bind_ok_iff, require_ok_iff, exists_unit_iff,
    pure_ok_iff]
  exact ⟨_, ⟨hnew, total, ResourceVector.addOr_ok_iff.mpr htotal, rfl⟩, rfl⟩

theorem updateLease_transacts {f : Lease d → Lease d} (h : svc.Transacts clock db db₁)
    (hf : ∀ lease, (f lease).residual = lease.residual) :
    Ensures (db₁.updateLease leaseId f) (svc.Transacts clock db) := by
  intro db' hupdate
  obtain ⟨_, rfl⟩ := Database.updateLease_ok_iff.mp hupdate
  apply h.tail
  have hkeeps : ∀ id lease,
      (if id = leaseId then f lease else lease).residual = lease.residual := by
    intro id lease
    split_ifs
    · exact hf lease
    · rfl
  exact .ofWrite (.rewrite (fun id lease => if id = leaseId then f lease else lease) hkeeps) rfl

theorem updateLeaseResidual_transacts {residual : ResourceVector d} {f : Lease d → Lease d}
    (h : svc.Transacts clock db db₁) :
    Ensures (db₁.updateLeaseResidual leaseId residual f) (svc.Transacts clock db) := by
  intro db' hupdate
  simp only [Database.updateLeaseResidual, bind_ok_iff, Database.loadLease_ok_iff,
    Database.updateLease_ok_iff, pure_ok_iff] at hupdate
  obtain ⟨lease, hlease, rest, hrest, total, htotal, _, ⟨_, rfl⟩, rfl⟩ := hupdate
  apply h.tail
  apply Statement.ofWrite (.update leaseId fun lease => { f lease with residual })
  have hrow : db₁.residuals.rows.lookup leaseId = some lease := hlease
  simp only [Database.writeLeases, Tally.write, hrow, bind_ok_iff, pure_ok_iff]
  exact ⟨_, ⟨rest, hrest, total, htotal, rfl⟩, rfl⟩

variable {nowNs : ℕ} {ids : List String}

theorem revokeLeases_transacts (h : svc.Transacts clock db db₁) :
    Ensures (db₁.revokeLeases nowNs ids) (svc.Transacts clock db) := by
  induction ids generalizing db₁ with
  | nil => exact .pure h
  | cons leaseId rest ih =>
    exact .bind (updateLease_transacts h (Effect.revoked_residual nowNs)) fun _ => ih

theorem materializeRevokedBranch_transacts {lineageId branchLeaseId : String}
    (h : svc.Transacts clock db db₁) :
    svc.Commits clock db (db₁.materializeRevokedBranch lineageId branchLeaseId nowNs) :=
  .bind (revokeLeases_transacts h) fun _ h => .pure h

theorem expireLeases_transacts {reclaimed : ResourceVector d} (h : svc.Transacts clock db db₁) :
    svc.Commits clock db (db₁.expireLeases nowNs ids reclaimed) := by
  induction ids generalizing db₁ reclaimed with
  | nil => exact .pure h
  | cons leaseId rest ih =>
    refine .next fun lease => .next fun total => ?_
    exact .bind (updateLeaseResidual_transacts h) fun _ => ih

theorem clockIsSafe_bind {f : Database d Hash → Outcome (Database d Hash × Response d)}
    (hf : ∀ db₁, svc.Transacts clock db db₁ → svc.Commits clock db (f db₁)) :
    svc.Commits clock db (db.clockIsSafe clock >>= f) :=
  .bind (clockIsSafe_transacts .refl) hf

theorem writeTransaction_transacts
    {body : Database d Hash → Outcome (Database d Hash × Response d)}
    (hbody : svc.Commits clock db (body db)) :
    svc.Commits clock db (writeTransaction db body) :=
  .bind hbody fun _ h => .next fun _ => .pure h

variable {details : List (String × Detail d)}

theorem appendAudit_transacts {eventType entityType entityId actorId : String}
    (hdetails : (details.map Prod.fst).Nodup) (h : svc.Transacts clock db db₁) :
    Ensures (svc.appendAudit clock eventType entityType entityId actorId details db₁)
      (svc.Transacts clock db) :=
  .next fun _ => .pure (h.tail (.audit _ _ _ _ hdetails))

variable {actor : String}

theorem auditMaterialized_transacts {branchLeaseId : String} {affected : List String}
    (hdetails : (details.map Prod.fst).Nodup) (h : svc.Transacts clock db db₁) :
    Ensures (svc.auditMaterialized clock branchLeaseId actor affected details db₁)
      (svc.Transacts clock db) :=
  .ite (.pure h) (appendAudit_transacts hdetails h)

variable {newLeaseId : String}

theorem issueRoot_transacts {newLineageId : String} {req : IssueRootRequest d} :
    svc.Commits clock db (svc.issueRoot clock newLeaseId newLineageId req db) := by
  unfold issueRoot
  iterate 4 apply Ensures.next; intro _
  apply writeTransaction_transacts
  iterate 2 apply Ensures.next; intro _
  refine clockIsSafe_bind fun db₁ h => ?_
  apply Ensures.next; intro prior
  cases prior with
  | some prior => exact .pure h
  | none =>
    iterate 6 apply Ensures.next; intro _
    apply Ensures.next; intro grant
    refine .bind (insertLease_transacts h) fun db₁ h => ?_
    apply Ensures.next; intro freePool
    exact .bind (appendAudit_transacts (by simp) (h.elsewhere rfl)) fun _ h =>
      .pure (h.elsewhere rfl)

theorem spawn_transacts {req : SpawnRequest d} :
    svc.Commits clock db (svc.spawn clock newLeaseId req db) := by
  unfold spawn
  iterate 4 apply Ensures.next; intro _
  apply writeTransaction_transacts
  refine clockIsSafe_bind fun db₁ h => ?_
  apply Ensures.next; intro parent
  apply Ensures.next; intro _
  apply Ensures.next; intro prior
  cases prior with
  | some prior => exact .pure h
  | none =>
    iterate 5 apply Ensures.next; intro _
    apply Ensures.next; intro policy
    iterate 4 apply Ensures.next; intro _
    apply Ensures.next; intro grant
    apply Ensures.next; intro residual
    refine .bind (updateLeaseResidual_transacts h) fun db₁ h => ?_
    refine .bind (insertLease_transacts h) fun db₁ h => ?_
    exact .bind (appendAudit_transacts (by simp) h) fun _ h => .pure (h.elsewhere rfl)

variable {voucher : TransferVoucher d}

theorem storeVoucher_transacts {stream : OutgoingStream} {digest : String}
    (h : svc.Transacts clock db db₁) :
    Ensures (db₁.storeVoucher stream voucher digest nowNs) (svc.Transacts clock db) := by
  intro db' hstore
  obtain ⟨_, rfl⟩ := storeVoucher_ok hstore
  exact h.elsewhere rfl

theorem spawnRemote_transacts {newTransferId : String} {req : SpawnRemoteRequest d} :
    svc.Commits clock db (svc.spawnRemote clock newLeaseId newTransferId req db) := by
  unfold spawnRemote
  iterate 6 apply Ensures.next; intro _
  apply writeTransaction_transacts
  apply Ensures.next; intro _
  refine clockIsSafe_bind fun db₁ h => ?_
  apply Ensures.next; intro parent
  apply Ensures.next; intro _
  apply Ensures.next; intro prior
  cases prior with
  | some prior => exact .pure h
  | none =>
    iterate 5 apply Ensures.next; intro _
    apply Ensures.next; intro policy
    iterate 4 apply Ensures.next; intro _
    apply Ensures.next; intro stream
    apply Ensures.next; intro voucher
    refine .bind (storeVoucher_transacts h) fun db₁ h => ?_
    refine .bind (R := svc.Transacts clock db) ?_ fun db₁ h => ?_
    · intro db' hqueue
      obtain ⟨_, rfl⟩ := Database.enqueuePeerDelivery_ok_iff.mp hqueue
      exact h.elsewhere rfl
    apply Ensures.next; intro residual
    refine .bind (updateLeaseResidual_transacts h) fun db₁ h => ?_
    apply Ensures.next; intro transferredOut
    apply Ensures.next; intro _
    exact .bind (appendAudit_transacts (by simp) (h.elsewhere rfl)) fun _ h =>
      .pure (h.elsewhere rfl)

theorem authorize_transacts {newReceiptId : String} {req : AuthorizeRequest} :
    svc.Commits clock db (svc.authorize clock newReceiptId req db) := by
  unfold authorize
  iterate 3 apply Ensures.next; intro _
  apply writeTransaction_transacts
  refine clockIsSafe_bind fun db₁ h => ?_
  apply Ensures.next; intro lease
  apply Ensures.next; intro _
  apply Ensures.next; intro prior
  cases prior with
  | some prior => exact .pure h
  | none =>
    iterate 5 apply Ensures.next; intro _
    apply Ensures.next; intro policy
    apply Ensures.next; intro _
    apply Ensures.next; intro rule
    iterate 7 apply Ensures.next; intro _
    apply Ensures.next; intro signature
    apply Ensures.next; intro residual
    refine .bind (updateLeaseResidual_transacts h) fun db₁ h => ?_
    apply Ensures.next; intro consumed
    refine .bind (R := svc.Transacts clock db) ?_ fun db₁ h => ?_
    · intro db' hinsert
      obtain ⟨_, _, _, _, rfl⟩ := insertReceipt_ok hinsert
      exact h.elsewhere rfl
    exact .bind (appendAudit_transacts (by simp) h) fun _ h => .pure (h.elsewhere rfl)

theorem renewRow_transacts {expiresAtNs : ℕ} (h : svc.Transacts clock db db₁) :
    Ensures (svc.renewRow clock expiresAtNs leaseId lease db₁) (svc.Transacts clock db) := by
  unfold renewRow
  refine .next fun grant => .next fun renewed => ?_
  exact updateLease_transacts h fun _ => rfl

theorem renewDescendants_transacts {expiresAtNs : ℕ} (h : svc.Transacts clock db db₁) :
    Ensures (svc.renewDescendants clock expiresAtNs ids db₁) (svc.Transacts clock db) := by
  induction ids generalizing db₁ with
  | nil => exact .pure h
  | cons leaseId rest ih =>
    refine .next fun lease => ?_
    exact .bind (renewRow_transacts h) fun _ => ih

theorem renew_transacts {req : RenewRequest} :
    svc.Commits clock db (svc.renew clock req db) := by
  unfold renew
  iterate 3 apply Ensures.next; intro _
  apply writeTransaction_transacts
  refine clockIsSafe_bind fun db₁ h => ?_
  apply Ensures.next; intro lease
  iterate 2 apply Ensures.next; intro _
  apply Ensures.next; intro prior
  cases prior with
  | some prior => exact .pure h
  | none =>
    iterate 4 apply Ensures.next; intro _
    apply Ensures.next; intro policy
    iterate 6 apply Ensures.next; intro _
    refine .bind (renewDescendants_transacts h) fun db₁ h => ?_
    refine .bind (renewRow_transacts h) fun db₁ h => ?_
    iterate 2 apply Ensures.next; intro _
    exact .bind (appendAudit_transacts (by simp) h) fun _ h => .pure (h.elsewhere rfl)

variable {terminated : List (String × LeaseStatus)}

theorem markTerminated_transacts (h : svc.Transacts clock db db₁) :
    Ensures (svc.markTerminated clock leaseId actor terminated db₁) (svc.Transacts clock db) := by
  induction terminated generalizing db₁ with
  | nil => exact .pure h
  | cons report rest ih =>
    unfold markTerminated
    dsimp only
    cases (db₁.remoteChildren.lookup report.1).filter fun child =>
        child.parentId = leaseId ∧ child.status.isOpen with
    | none => exact ih h
    | some child =>
      apply Ensures.next; intro _
      exact .bind (appendAudit_transacts (by simp) (h.elsewhere rfl)) fun _ => ih

variable {operation : LifecycleOperation}

theorem lifecycleTarget_transacts (h : svc.Transacts clock db db₁) :
    svc.Commits clock db (svc.lifecycleTarget operation clock leaseId actor lease terminated db₁) := by
  cases operation with
  | quiesce => exact .ite (.pure h) (.next fun _ => .pure h)
  | resume => exact .ite (.pure h) (.next fun _ => .next fun _ => .next fun _ => .pure h)
  | close =>
    refine .ite (.pure h) (.bind (R := svc.Transacts clock db) ?_ fun _ h => .pure h)
    exact .bind (markTerminated_transacts h) fun _ h => .next fun _ => .next fun _ => .pure h

theorem applyTarget_transacts {target : Option LeaseStatus} (h : svc.Transacts clock db db₁) :
    Ensures (svc.applyTarget operation clock leaseId actor lease target db₁)
      (svc.Transacts clock db) := by
  cases target with
  | none => exact .pure h
  | some status =>
    refine .bind (updateLeaseResidual_transacts h) fun db₁ h => ?_
    refine .bind (R := svc.Transacts clock db) ?_ fun _ => appendAudit_transacts (by simp)
    exact .ite (.next fun _ => .pure (h.elsewhere rfl)) (.pure h)

theorem lifecycle_transacts {req : LifecycleRequest} :
    svc.Commits clock db (svc.lifecycle operation clock terminated req db) := by
  unfold lifecycle
  iterate 2 apply Ensures.next; intro _
  apply writeTransaction_transacts
  refine clockIsSafe_bind fun db₁ h => ?_
  apply Ensures.next; intro lease
  apply Ensures.next; intro _
  apply Ensures.next; intro prior
  cases prior with
  | some prior => exact .pure h
  | none =>
    iterate 2 apply Ensures.next; intro _
    refine .bind (lifecycleTarget_transacts h) fun result h => ?_
    refine .bind (applyTarget_transacts h) fun db₁ h => ?_
    iterate 2 apply Ensures.next; intro _
    exact .pure (h.elsewhere rfl)

theorem storeRevocation_transacts {revocation : BranchRevocation} (h : svc.Transacts clock db db₁) :
    Ensures (db₁.storeRevocation revocation nowNs) (svc.Transacts clock db) := by
  intro db' hstore
  obtain ⟨_, rfl⟩ := Database.storeRevocation_ok hstore
  exact h.elsewhere rfl

theorem revokeBranch_transacts {req : RevokeBranchRequest} :
    svc.Commits clock db (svc.revokeBranch clock req db) := by
  unfold revokeBranch
  iterate 4 apply Ensures.next; intro _
  apply writeTransaction_transacts
  refine clockIsSafe_bind fun db₁ h => ?_
  apply Ensures.next; intro branch
  apply Ensures.next; intro prior
  cases prior with
  | some prior =>
    refine .bind (materializeRevokedBranch_transacts h) fun _ h => ?_
    exact .bind (auditMaterialized_transacts (by simp) h) fun _ h => .pure h
  | none =>
    iterate 2 apply Ensures.next; intro _
    apply Ensures.next; intro signature
    refine .bind (storeRevocation_transacts h) fun db₁ h => ?_
    refine .bind (R := svc.Transacts clock db) ?_ fun db₁ h => ?_
    · intro db' henqueue
      obtain ⟨_, rfl⟩ := (enqueueRevocation_ok_iff svc.nodup_sortedPeers).mp henqueue
      exact h.elsewhere rfl
    refine .bind (materializeRevokedBranch_transacts h) fun _ h => ?_
    exact .bind (appendAudit_transacts (by simp) h) fun _ h => .pure (h.elsewhere rfl)

variable {identity : IdentityContext}

theorem ingestRevocation_transacts {revocation : BranchRevocation} :
    svc.Commits clock db (svc.ingestRevocation clock identity revocation db) := by
  unfold ingestRevocation
  iterate 3 apply Ensures.next; intro _
  apply writeTransaction_transacts
  apply Ensures.next; intro _
  refine clockIsSafe_bind fun db₁ h => ?_
  iterate 5 apply Ensures.next; intro _
  apply Ensures.ite
  · apply Ensures.next; intro _
    refine .bind (materializeRevokedBranch_transacts h) fun _ h => ?_
    exact .bind (auditMaterialized_transacts (by simp) h) fun _ h => .pure h
  · refine .bind (storeRevocation_transacts h) fun db₁ h => ?_
    refine .bind (materializeRevokedBranch_transacts h) fun _ h => ?_
    exact .bind (appendAudit_transacts (by simp) h) fun _ h => .pure h

theorem reclaimExpired_transacts {tenantId envelopeId : Option String} :
    svc.Commits clock db (svc.reclaimExpired clock identity tenantId envelopeId db) := by
  unfold reclaimExpired
  apply writeTransaction_transacts
  iterate 3 apply Ensures.next; intro _
  refine clockIsSafe_bind fun db₁ h => ?_
  refine .bind (expireLeases_transacts h) fun result h => ?_
  apply Ensures.ite
  · exact .pure h
  · apply Ensures.next; intro freePool
    exact .bind (appendAudit_transacts (by simp) (h.elsewhere rfl)) fun _ h => .pure h

theorem admitChild_transacts {policy : PolicyRow d} (h : svc.Transacts clock db db₁) :
    svc.Commits clock db (svc.admitChild clock voucher policy db₁) := by
  unfold admitChild
  cases voucher.leaseRequest with
  | none => exact .pure h
  | some request =>
    refine .bind (R := fun result => svc.Transacts clock db result.1) ?_ fun _ h => .pure h
    unfold admitRemoteChild
    iterate 2 apply Ensures.next; intro _
    apply Ensures.ite
    · exact .pure h
    · apply Ensures.next; intro grant
      exact .bind (insertLease_transacts h) fun _ h => .pure h

theorem setInboundStream_transacts {source : String} {stream : InboundStream}
    (h : svc.Transacts clock db db₁) :
    Ensures (db₁.setInboundStream source stream) (svc.Transacts clock db) :=
  .next fun _ => .pure (h.elsewhere rfl)

theorem credit_transacts {digest : String} {policy : PolicyRow d} (h : svc.Transacts clock db db₁) :
    svc.Commits clock db (svc.credit clock actor voucher digest policy db₁) := by
  unfold credit
  iterate 5 apply Ensures.next; intro _
  refine .bind (R := fun result => svc.Transacts clock db result.1) ?_ fun noted h => ?_
  · exact .ite (.next fun _ => .pure (h.elsewhere rfl)) (.pure (h.elsewhere rfl))
  refine .bind (admitChild_transacts h) fun admitted h => ?_
  apply Ensures.next; intro signature
  refine .bind (R := svc.Transacts clock db) ?_ fun db₁ h => ?_
  · exact .ite (.next fun _ => .next fun _ => .pure (h.elsewhere rfl))
      (.next fun _ => .next fun _ => .pure (h.elsewhere rfl))
  refine .bind (R := svc.Transacts clock db) ?_ fun db₁ h => ?_
  · cases admitted.2 with
    | none => exact .pure h
    | some child => exact appendAudit_transacts (by simp) h
  refine .bind (setInboundStream_transacts h) fun db₁ h => ?_
  exact .bind (appendAudit_transacts (by simp) (h.elsewhere rfl)) fun _ h => .pure h

theorem acceptTransfer_transacts :
    svc.Commits clock db (svc.acceptTransfer clock identity voucher db) := by
  unfold acceptTransfer
  iterate 3 apply Ensures.next; intro _
  apply writeTransaction_transacts
  apply Ensures.next; intro _
  refine clockIsSafe_bind fun db₁ h => ?_
  iterate 5 apply Ensures.next; intro _
  dsimp only
  cases db₁.inboundAcks.lookup (voucher.sourceWarden, voucher.sequence) with
  | none => exact credit_transacts h
  | some existing =>
    unfold redeliver
    iterate 3 apply Ensures.next; intro _
    apply Ensures.ite
    · refine .bind (setInboundStream_transacts (h.elsewhere rfl)) fun _ h => ?_
      exact .bind (appendAudit_transacts (by simp) h) fun _ h => .pure h
    · exact .pure (h.elsewhere rfl)

theorem setRuntimeMode_transacts {req : SetRuntimeModeRequest} :
    svc.Commits clock db (svc.setRuntimeMode clock req db) := by
  unfold setRuntimeMode
  iterate 2 apply Ensures.next; intro _
  apply writeTransaction_transacts
  apply Ensures.next; intro _
  refine clockIsSafe_bind fun db₁ h => ?_
  apply Ensures.next; intro prior
  cases prior with
  | some prior => exact .pure h
  | none =>
    apply Ensures.ite
    · exact .pure (h.elsewhere rfl)
    · apply Ensures.next; intro _
      exact .bind (appendAudit_transacts (by simp) (h.elsewhere rfl)) fun _ h =>
        .pure (h.elsewhere rfl)

theorem registerPolicy_transacts {identity : Option IdentityContext} {payload : PolicyPayload d} :
    svc.Commits clock db (svc.registerPolicy clock identity payload db) := by
  unfold registerPolicy
  apply writeTransaction_transacts
  apply Ensures.next; intro _
  refine clockIsSafe_bind fun db₁ h => ?_
  iterate 3 apply Ensures.next; intro _
  apply Ensures.ite
  · exact .next fun _ => .pure h
  · iterate 2 apply Ensures.next; intro _
    exact .bind (appendAudit_transacts (by simp) (h.elsewhere rfl)) fun _ h => .pure h

variable {target : String}

theorem queueRecord_transacts {kind : RecordKind} {recordId : String} {position : ℕ}
    {payload : SignedRecord d} {supersedeOlder : Bool} (h : svc.Transacts clock db db₁) :
    Ensures (svc.queueRecord kind recordId target position payload nowNs supersedeOlder db₁)
      (svc.Transacts clock db) := by
  intro db' hqueue
  obtain ⟨_, _, rfl⟩ := queueRecord_ok hqueue
  exact h.elsewhere rfl

theorem prepareTransfer_transacts {newTransferId : String} {req : PrepareTransferRequest d} :
    svc.Commits clock db (svc.prepareTransfer clock newTransferId req db) := by
  unfold prepareTransfer
  iterate 5 apply Ensures.next; intro _
  apply writeTransaction_transacts
  iterate 2 apply Ensures.next; intro _
  refine clockIsSafe_bind fun db₁ h => ?_
  apply Ensures.next; intro selected
  apply Ensures.next; intro prior
  cases prior with
  | some prior => exact .pure h
  | none =>
    iterate 3 apply Ensures.next; intro _
    apply Ensures.next; intro stream
    apply Ensures.next; intro voucher
    refine .bind (storeVoucher_transacts h) fun db₁ h => ?_
    refine .bind (queueRecord_transacts h) fun db₁ h => ?_
    apply Ensures.next; intro freePool
    apply Ensures.next; intro transferredOut
    exact .bind (appendAudit_transacts (by simp) (h.elsewhere rfl)) fun _ h =>
      .pure (h.elsewhere rfl)

theorem setOutgoingStream_transacts {stream : OutgoingStream} (h : svc.Transacts clock db db₁) :
    Ensures (db₁.setOutgoingStream target stream) (svc.Transacts clock db) :=
  .next fun _ => .pure (h.elsewhere rfl)

theorem acknowledgeRequest_transacts {ack : TransferAck} {request : Option LeaseRequest}
    (h : svc.Transacts clock db db₁) :
    Ensures (svc.acknowledgeRequest clock actor ack request db₁) (svc.Transacts clock db) := by
  cases request with
  | none => exact .next fun _ => .pure h
  | some request =>
    apply Ensures.next; intro child
    iterate 2 apply Ensures.next; intro _
    exact appendAudit_transacts (by simp) (h.elsewhere rfl)

theorem finalizeTransfer_transacts {ack : TransferAck} :
    svc.Commits clock db (svc.finalizeTransfer clock identity ack db) := by
  unfold finalizeTransfer
  iterate 2 apply Ensures.next; intro _
  apply writeTransaction_transacts
  apply Ensures.next; intro _
  refine clockIsSafe_bind fun db₁ h => ?_
  iterate 3 apply Ensures.next; intro _
  apply Ensures.next; intro outgoing
  iterate 2 apply Ensures.next; intro _
  apply Ensures.next; intro stream
  apply Ensures.ite
  · apply Ensures.next; intro _
    apply Ensures.ite
    · refine .bind (setOutgoingStream_transacts h) fun _ h => ?_
      exact .bind (appendAudit_transacts (by simp) h) fun _ h => .pure h
    · exact .pure h
  · apply Ensures.next; intro _
    refine .bind (acknowledgeRequest_transacts h) fun db₁ h => ?_
    apply Ensures.next; intro _
    refine .bind (setOutgoingStream_transacts (h.elsewhere rfl)) fun _ h => ?_
    exact .bind (appendAudit_transacts (by simp) h) fun _ h => .pure h

theorem createTransferCheckpoint_transacts {throughSequence : Option ℕ} :
    svc.Commits clock db (svc.createTransferCheckpoint clock identity target throughSequence db) := by
  unfold createTransferCheckpoint
  iterate 2 apply Ensures.next; intro _
  apply writeTransaction_transacts
  refine clockIsSafe_bind fun db₁ h => ?_
  apply Ensures.next; intro _
  apply Ensures.next; intro stream
  iterate 2 apply Ensures.next; intro _
  apply Ensures.ite
  · exact .next fun _ => .pure (h.elsewhere rfl)
  · iterate 3 apply Ensures.next; intro _
    apply Ensures.next; intro signature
    refine .bind (setOutgoingStream_transacts h) fun _ h => ?_
    refine .bind (queueRecord_transacts h) fun _ h => ?_
    exact .bind (appendAudit_transacts (by simp) (h.elsewhere rfl)) fun _ h => .pure h

theorem ingestTransferCheckpoint_transacts {checkpoint : TransferCheckpoint} :
    svc.Commits clock db (svc.ingestTransferCheckpoint clock identity checkpoint db) := by
  unfold ingestTransferCheckpoint
  iterate 3 apply Ensures.next; intro _
  apply writeTransaction_transacts
  apply Ensures.next; intro _
  refine clockIsSafe_bind fun db₁ h => ?_
  iterate 3 apply Ensures.next; intro _
  apply Ensures.next; intro stream
  iterate 2 apply Ensures.next; intro _
  apply Ensures.ite
  · exact .next fun _ => .pure (h.elsewhere rfl)
  · refine .bind (setInboundStream_transacts h) fun _ h => ?_
    exact .bind (appendAudit_transacts (by simp) (h.elsewhere rfl)) fun _ h => .pure h

theorem recordAttempt_transacts {kind : RecordKind} {recordId : String} {error : Option String} :
    svc.Commits clock db (recordAttempt kind recordId target clock.nowNs error db) := by
  apply writeTransaction_transacts
  apply Ensures.next; intro row
  exact .ite (.pure .refl) (.pure (Transacts.elsewhere .refl rfl))

theorem pruneTerminal_transacts {batchSize : ℕ} :
    svc.Commits clock db (pruneTerminal batchSize db) := by
  apply writeTransaction_transacts
  exact .pure (Transacts.elsewhere .refl rfl)

theorem pruneCompactedTransferHistory_transacts {batchSize : ℕ} :
    svc.Commits clock db (pruneCompactedTransferHistory batchSize db) := by
  apply writeTransaction_transacts
  exact .pure (Transacts.elsewhere .refl rfl)

theorem exec_transacts {operation : Operation d} :
    svc.Commits clock db (svc.exec clock operation db) := by
  cases operation with
  | setRuntimeMode => exact setRuntimeMode_transacts
  | registerPolicy => exact registerPolicy_transacts
  | issueRoot => exact issueRoot_transacts
  | spawn => exact spawn_transacts
  | spawnRemote => exact spawnRemote_transacts
  | authorize => exact authorize_transacts
  | renew => exact renew_transacts
  | lifecycle => exact lifecycle_transacts
  | revokeBranch => exact revokeBranch_transacts
  | ingestRevocation => exact ingestRevocation_transacts
  | reclaimExpired => exact reclaimExpired_transacts
  | prepareTransfer => exact prepareTransfer_transacts
  | acceptTransfer => exact acceptTransfer_transacts
  | finalizeTransfer => exact finalizeTransfer_transacts
  | createTransferCheckpoint => exact createTransferCheckpoint_transacts
  | ingestTransferCheckpoint => exact ingestTransferCheckpoint_transacts
  | recordAttempt => exact recordAttempt_transacts
  | pruneTerminal => exact pruneTerminal_transacts
  | pruneCompactedTransferHistory => exact pruneCompactedTransferHistory_transacts

end WardenService

end Lets
