import Lets.Deliveries
import Lets.Grants
import Lets.Idempotency

set_option autoImplicit false

/-!
# Operations that only reduce authority

Taking in a peer's revocation, revoking a branch, quiescing a lease and draining the warden only
take authority away.
-/

namespace Lets

open Library

variable {d : ℕ} {Hash : Type}

namespace WardenService

def nextRevocation (svc : WardenService d Hash) (clock : Reading) (db : Database d Hash)
    (req : RevokeBranchRequest) (lineageId : String) : BranchRevocation :=
  let unsigned :=
    svc.unsignedRevocation clock db req lineageId (db.branchEpoch lineageId req.leaseId)
  { unsigned with signature := svc.sign (.revocation unsigned) }

/-- The digest of the next revocation is not that of another queued one. -/
def DigestNew (svc : WardenService d Hash) (clock : Reading) (db : Database d Hash)
    (req : RevokeBranchRequest) (lineageId : String) : Prop :=
  ∀ queued row revocation, db.peerDeliveries.lookup queued = some row →
    row.payload = .revocation revocation → svc.recordDigest (.revocation revocation) =
      svc.recordDigest (.revocation (svc.nextRevocation clock db req lineageId)) →
    revocation = svc.nextRevocation clock db req lineageId

/-- An operation that only reduces authority and passes every check but those on times. -/
inductive Reduces (svc : WardenService d Hash) (clock : Reading) (db : Database d Hash) :
    Operation d → Prop
  /-- A correctly signed revocation of the right tenant, epoch, lineage and owner, newer than the
  stored one. -/
  | ingestRevocation {identity : IdentityContext} {revocation : BranchRevocation}
      (valid : revocation.validate = .ok ())
      (scope : identity.subjectId = revocation.issuerWarden ∨ identity.HasScope (adminScopes ++
        ["lets.branch.revoke.ingest", "lets.revocation.propagate", "lets.peer"]))
      (verified : svc.verifyRecord (.revocation revocation) revocation.issuerWarden = true)
      (envelope : db.requireEnvelope revocation.tenantId revocation.envelopeId = .ok ())
      (tenant : identity.tenantId = revocation.tenantId)
      (epoch : revocation.configEpoch = db.envelope.configEpoch)
      (lineage : ∀ branch ∈ db.leases.lookup revocation.branchLeaseId,
        branch.lineageId = revocation.lineageId)
      (owner : revocation.branchLeaseId ∈ db.leases → db.wardenId = revocation.issuerWarden)
      (newer : ∀ row ∈ db.revocations.lookup (revocation.lineageId, revocation.branchLeaseId),
        row.epoch < revocation.epoch)
      (key : svc.requireSigningKeyCurrent clock = .ok ()) :
      Reduces svc clock db (.ingestRevocation identity revocation)
  /-- A new revocation of an existing branch at the expected epoch. -/
  | revokeBranch {req : RevokeBranchRequest} {branch : Lease d}
      (admissible : svc.Admissible db (.revokeBranch req))
      (request_new : db.idempotency.lookup req.requestId = none)
      (branch_eq : db.leases.lookup req.leaseId = some branch)
      (expected : ∀ e ∈ req.expectedEpoch, e = db.branchEpoch branch.lineageId req.leaseId)
      (valid : (svc.unsignedRevocation clock db req branch.lineageId
        (db.branchEpoch branch.lineageId req.leaseId)).validate = .ok ())
      (key : svc.requireSigningKeyCurrent clock = .ok ())
      (digest : svc.DigestNew clock db req branch.lineageId) :
      Reduces svc clock db (.revokeBranch req)
  /-- The quiescing of an active lease that is neither expired nor revoked. -/
  | quiesce {terminated : List (String × LeaseStatus)} {req : LifecycleRequest} {lease : Lease d}
      (admissible : svc.Admissible db (.lifecycle .quiesce terminated req))
      (request_new : db.idempotency.lookup req.requestId = none)
      (lease_eq : db.leases.lookup req.leaseId = some lease)
      (expected : ∀ s ∈ req.expectedSequence, lease.sequence = s)
      (active : lease.status = .active)
      (fresh : clock.nowNs + clock.uncertaintyNs < lease.expiresAtNs)
      (notRevoked : db.leaseRevoked req.leaseId lease = false)
      (key : svc.requireSigningKeyCurrent clock = .ok ()) :
      Reduces svc clock db (.lifecycle .quiesce terminated req)
  | drain {req : SetRuntimeModeRequest} (mode_eq : req.mode = .draining)
      (admissible : svc.Admissible db (.setRuntimeMode req))
      (request_new : db.idempotency.lookup req.requestId = none)
      (key : svc.requireSigningKeyCurrent clock = .ok ()) :
      Reduces svc clock db (.setRuntimeMode req)
  /-- One of the last three, asked again under its request id. -/
  | again {operation : Operation d} {out : Response d}
      (reducing : (∃ req, operation = .revokeBranch req) ∨
        (∃ terminated req, operation = .lifecycle .quiesce terminated req) ∨
        ∃ req, operation = .setRuntimeMode req ∧ req.mode = .draining)
      (admissible : svc.Admissible db operation) (remembered : svc.Remembered operation out db)
      (key : svc.requireSigningKeyCurrent clock = .ok ()) : Reduces svc clock db operation

/-- The times that an operation writes are in the order that the tables ask for. -/
def TimesAllow (clock : Reading) (db : Database d Hash) : Operation d → Prop
  | .ingestRevocation _ revocation => revocation.issuedAtNs ≤ clock.nowNs ∧
      db.BatchCreated revocation.lineageId revocation.branchLeaseId clock.nowNs
  | .revokeBranch req => ∀ branch, db.leases.lookup req.leaseId = some branch →
      db.BatchCreated branch.lineageId req.leaseId clock.nowNs
  | .lifecycle _ _ req => db.idempotency.lookup req.requestId = none →
      ∀ lease, db.leases.lookup req.leaseId = some lease → lease.createdAtNs ≤ clock.nowNs
  | .setRuntimeMode req => db.idempotency.lookup req.requestId = none →
      db.runtime.mode = req.mode ∧ db.runtime.reason = req.reason ∨
        db.runtime.changedAtNs ≤ clock.nowNs
  | _ => True

variable {svc : WardenService d Hash} {clock : Reading} {operation : Operation d}
  {db db' : Database d Hash} {out : Response d}

/-- Every queued revocation is at most as new as the stored one of its branch. -/
def RevocationsQueued (svc : WardenService d Hash) (db : Database d Hash) : Prop :=
  ∀ key row, db.peerDeliveries.lookup key = some row → key.1 = .revocation → ∃ revocation,
    row.payload = .revocation revocation ∧ key.2.1 = svc.recordDigest (.revocation revocation) ∧
      revocation.epoch ≤ db.branchEpoch revocation.lineageId revocation.branchLeaseId

variable {revocation : BranchRevocation}

theorem BranchRevoked.branchEpoch_eq (h : BranchRevoked svc clock revocation db db') :
    db'.branchEpoch revocation.lineageId revocation.branchLeaseId = revocation.epoch := by
  rw [Database.branchEpoch, h.revocations_eq, AList.lookup_insert]
  rfl

theorem Effect.branchEpoch_le (h : Effect svc clock db operation db' out)
    (lineageId branchLeaseId : String) :
    db.branchEpoch lineageId branchLeaseId ≤ db'.branchEpoch lineageId branchLeaseId := by
  unfold Database.branchEpoch
  rcases h.revocation_step (lineageId, branchLeaseId) with hsame | ⟨_, _, hlt, hnew⟩
  · rw [hsame]
  · rw [hnew]
    cases hrow : db.revocations.lookup (lineageId, branchLeaseId) with
    | none => exact Nat.zero_le _
    | some row => exact (hlt row hrow).le

theorem DeliveryStep.payload_eq {key : RecordKind × String × String} {row row' : PeerDelivery d}
    (h : DeliveryStep clock operation key row row') : row'.payload = row.payload := by
  cases h with
  | kept => rfl
  | superseded => rfl
  | attempted => rfl

theorem Effect.revocationsQueued (h : Effect svc clock db operation db' out)
    (hdb : svc.RevocationsQueued db) : svc.RevocationsQueued db' := by
  intro key row' hrow' hkind
  cases hrow : db.peerDeliveries.lookup key with
  | some row =>
    rcases h.delivery_step hrow with ⟨row₁, hrow₁, hstep⟩ | ⟨hnone, _⟩
    · obtain rfl := some_unique hrow₁ hrow'
      obtain ⟨revocation, hpayload, hid, hepoch⟩ := hdb key row hrow hkind
      exact ⟨revocation, hstep.payload_eq.trans hpayload, hid, hepoch.trans (h.branchEpoch_le _ _)⟩
    · rw [hnone] at hrow'
      cases hrow'
  | none =>
    have hnew := h.delivery_new (AList.lookup_eq_none.mp hrow) hrow'
    cases hnew with
    | revoked done revocations_eq _ id_eq payload_eq =>
      refine ⟨_, payload_eq, id_eq, ?_⟩
      rw [Database.branchEpoch, revocations_eq]
      exact done.branchEpoch_eq.ge
    | remoteSpawned _ key_eq => rw [key_eq] at hkind; cases hkind
    | prepared _ key_eq => rw [key_eq] at hkind; cases hkind
    | checkpointCreated _ _ key_eq => rw [key_eq] at hkind; cases hkind

theorem revocationsQueued_of_reachable {envelope : Envelope d}
    (hreach : (svc.system envelope).Reachable db) : svc.RevocationsQueued db :=
  invariant_of_reachable (fun _ _ h => (by cases h))
    (fun _ _ _ _ _ h _ heffect => heffect.revocationsQueued h) hreach

variable {req : RevokeBranchRequest}

theorem nextRevocation_unqueued {lineageId : String} (hqueued : svc.RevocationsQueued db)
    (hdigest : svc.DigestNew clock db req lineageId)
    (targetWarden : String) :
    (RecordKind.revocation,
      svc.recordDigest (.revocation (svc.nextRevocation clock db req lineageId)), targetWarden) ∉
        db.peerDeliveries := by
  intro hmem
  obtain ⟨row, hrow⟩ := Table.mem_iff_lookup.mp hmem
  obtain ⟨revocation, hpayload, hid, hepoch⟩ := hqueued _ row hrow rfl
  obtain rfl := hdigest _ row revocation hrow hpayload hid.symm
  have hnext : (svc.nextRevocation clock db req lineageId).epoch =
      db.branchEpoch lineageId req.leaseId + 1 := rfl
  have hbranch : db.branchEpoch (svc.nextRevocation clock db req lineageId).lineageId
      (svc.nextRevocation clock db req lineageId).branchLeaseId =
      db.branchEpoch lineageId req.leaseId := rfl
  omega

structure Sound (svc : WardenService d Hash) (db : Database d Hash) : Prop where
  conserved : db.Conserved
  residualSum : db.ResidualSum
  issued : db.IssuedBeforeExpiry
  grants : db.GrantsValid
  residual_le : ∀ leaseId lease, db.leases.lookup leaseId = some lease →
    ∀ i, lease.residual i ≤ lease.allocation i
  queued : svc.RevocationsQueued db

theorem sound_of_reachable {envelope : Envelope d} (hreach : (svc.system envelope).Reachable db) :
    svc.Sound db := by
  have hissued := issuedBeforeExpiry_of_reachable hreach
  have hgrants := grantsValid_of_reachable hreach
  have hqueued := revocationsQueued_of_reachable hreach
  have hresidual : ∀ leaseId lease, db.leases.lookup leaseId = some lease →
      ∀ i, lease.residual i ≤ lease.allocation i :=
    fun leaseId lease hlease => residual_le_of_reachable hreach hlease
  obtain ⟨db₀, calls, hinit, run⟩ := hreach
  have haccounts := accounts_of_run hinit run
  exact ⟨haccounts.conserved, haccounts.residualSum, hissued, hgrants, hresidual, hqueued⟩

theorem ingestRevocation_commits_iff {identity : IdentityContext}
    (h : svc.Reduces clock db (.ingestRevocation identity revocation)) (hdb : svc.Sound db)
    (hclock : db.ClockSafe clock) :
    (∃ db' out, svc.ingestRevocation clock identity revocation db = .ok (db', out)) ↔
      revocation.issuedAtNs ≤ clock.nowNs ∧
        db.BatchCreated revocation.lineageId revocation.branchLeaseId clock.nowNs := by
  have hrows : _ ↔ db.BatchCreated revocation.lineageId revocation.branchLeaseId clock.nowNs :=
    Database.batchCreated_iff hdb.issued
  cases h with
  | again reducing => simp at reducing
  | ingestRevocation valid scope verified envelope tenant epoch lineage owner newer key =>
  have hknown : ¬((db.touch clock.nowNs).revocations.lookup
      (revocation.lineageId, revocation.branchLeaseId)).any
      (fun row => decide (row.epoch = revocation.epoch)) = true := by
    intro hany
    obtain ⟨row, hrow, hepoch⟩ := (Option.any_eq_true _ _).mp hany
    exact absurd (of_decide_eq_true hepoch) (newer row hrow).ne
  simp only [ingestRevocation, bind_ok_iff, require_ok_iff, exists_unit_iff]
  constructor
  · rintro ⟨db', out, _, _, _, h⟩
    obtain ⟨h, _⟩ := writeTransaction_ok h
    simp only [bind_ok_iff, require_ok_iff, exists_unit_iff, Database.clockIsSafe_ok_iff] at h
    obtain ⟨_, _, ⟨_, rfl⟩, _, _, _, _, _, h⟩ := h
    rw [if_neg hknown] at h
    simp only [Database.storeRevocation, bind_ok_iff, require_ok_iff, exists_unit_iff,
      pure_ok_iff] at h
    obtain ⟨_, ⟨_, hissued, rfl⟩, ⟨db₁, affected, complete⟩, hmark, _⟩ := h
    obtain ⟨hok, _⟩ := Database.materializeRevokedBranch_ok_iff.mp hmark
    exact ⟨hissued, hrows.mp hok⟩
  · rintro ⟨hissued, htimes⟩
    refine ⟨_, _, valid, scope, verified, writeTransaction_of (by
      simp only [bind_ok_iff, require_ok_iff, exists_unit_iff, Database.clockIsSafe_ok_iff]
      refine ⟨envelope, _, ⟨hclock, rfl⟩, tenant, epoch, lineage, owner,
        fun row hrow => (newer row hrow).le, ?_⟩
      rw [if_neg hknown]
      simp only [Database.storeRevocation, appendAudit, bind_ok_iff, require_ok_iff,
        exists_unit_iff, pure_ok_iff]
      exact ⟨_, ⟨newer, hissued, rfl⟩, _,
        Database.materializeRevokedBranch_ok_iff.mpr ⟨hrows.mpr htimes, rfl, rfl, rfl⟩, _,
        ⟨key, rfl⟩, rfl⟩) ?_⟩
    exact ⟨hdb.conserved.identity, hdb.conserved.le_max⟩

theorem revokeBranch_new_iff {branch : Lease d} (hdb : svc.Sound db) (hclock : db.ClockSafe clock)
    (hadmissible : svc.Admissible db (.revokeBranch req))
    (hnew : db.idempotency.lookup req.requestId = none)
    (hbranch : db.leases.lookup req.leaseId = some branch)
    (hexpected : ∀ e ∈ req.expectedEpoch, e = db.branchEpoch branch.lineageId req.leaseId)
    (hvalid : (svc.unsignedRevocation clock db req branch.lineageId
      (db.branchEpoch branch.lineageId req.leaseId)).validate = .ok ())
    (hkey : svc.requireSigningKeyCurrent clock = .ok ())
    (hqueue : ∀ targetWarden, (.revocation,
      svc.recordDigest (.revocation (svc.nextRevocation clock db req branch.lineageId)),
      targetWarden) ∉ db.peerDeliveries) :
    (∃ db' out, svc.revokeBranch clock req db = .ok (db', out)) ↔
      db.BatchCreated branch.lineageId req.leaseId clock.nowNs := by
  obtain ⟨hreason, hepoch, hadmin, htenant, _⟩ := hadmissible
  have hrows : _ ↔ db.BatchCreated branch.lineageId req.leaseId clock.nowNs :=
    Database.batchCreated_iff hdb.issued
  have hprior : (db.touch clock.nowNs).idempotentResponse ("revoke:" ++ req.leaseId) req.requestId
      (svc.fingerprint (req.arguments db.envelope.configEpoch)) = .ok none :=
    Database.idempotentResponse_none_iff.mpr hnew
  have hnext : ∀ row ∈ db.revocations.lookup (branch.lineageId, req.leaseId),
      row.epoch < db.branchEpoch branch.lineageId req.leaseId + 1 := by
    intro row hrow
    rw [Database.branchEpoch, hrow]
    exact Nat.lt_succ_self _
  have hcurrent : req.expectedEpoch.getD (db.branchEpoch branch.lineageId req.leaseId) =
      db.branchEpoch branch.lineageId req.leaseId := by
    cases hasked : req.expectedEpoch with
    | none => rfl
    | some e => exact hexpected e hasked
  simp only [revokeBranch, bind_ok_iff, require_ok_iff, exists_unit_iff]
  constructor
  · rintro ⟨db', out, _, _, _, _, h⟩
    obtain ⟨h, _⟩ := writeTransaction_ok h
    simp only [bind_ok_iff, Database.clockIsSafe_ok_iff, Database.loadLease_ok_iff] at h
    obtain ⟨_, ⟨_, rfl⟩, branch', hbranch', prior, hprior', h⟩ := h
    obtain rfl := some_unique hbranch hbranch'
    obtain rfl := Except.ok.inj (hprior.symm.trans hprior')
    simp only [bind_ok_iff, require_ok_iff, exists_unit_iff] at h
    obtain ⟨_, _, signature, _, _, hstore, _, henqueue, ⟨db₁, affected, complete⟩, hmark, _⟩ := h
    obtain ⟨_, rfl⟩ := Database.storeRevocation_ok hstore
    rw [enqueueRevocation_ok_iff svc.nodup_sortedPeers] at henqueue
    obtain ⟨_, rfl⟩ := henqueue
    obtain ⟨hok, _⟩ := Database.materializeRevokedBranch_ok_iff.mp hmark
    exact hrows.mp hok
  · intro htimes
    refine ⟨_, _, hreason, hepoch, hadmin, htenant, writeTransaction_of (by
      simp only [bind_ok_iff, Database.clockIsSafe_ok_iff, Database.loadLease_ok_iff]
      refine ⟨_, ⟨hclock, rfl⟩, branch, hbranch, none, hprior, ?_⟩
      simp only [Database.storeRevocation, signRecord, appendAudit, bind_ok_iff, require_ok_iff,
        exists_unit_iff, pure_ok_iff]
      exact ⟨hcurrent, hvalid, _, ⟨hkey, rfl⟩, _, ⟨hnext, le_rfl, rfl⟩, _,
        (enqueueRevocation_ok_iff svc.nodup_sortedPeers).mpr ⟨fun w _ => hqueue w, rfl⟩, _,
        Database.materializeRevokedBranch_ok_iff.mpr ⟨hrows.mpr htimes, rfl, rfl, rfl⟩, _,
        ⟨hkey, rfl⟩, rfl⟩) ?_⟩
    exact ⟨hdb.conserved.identity, hdb.conserved.le_max⟩

theorem revokeBranch_commits_iff (h : svc.Reduces clock db (.revokeBranch req)) (hdb : svc.Sound db)
    (hclock : db.ClockSafe clock) :
    (∃ db' out, svc.revokeBranch clock req db = .ok (db', out)) ↔
      ∀ branch, db.leases.lookup req.leaseId = some branch →
        db.BatchCreated branch.lineageId req.leaseId clock.nowNs := by
  cases h with
  | @revokeBranch _ branch admissible request_new branch_eq expected valid key digest =>
    have hqueue := nextRevocation_unqueued hdb.queued digest
    rw [revokeBranch_new_iff hdb hclock admissible request_new branch_eq expected valid key hqueue]
    refine ⟨fun htimes branch' hbranch' => ?_, fun htimes => htimes branch branch_eq⟩
    obtain rfl := some_unique branch_eq hbranch'
    exact htimes
  | again reducing admissible remembered key =>
    obtain ⟨row, hrow, hscope, hfingerprint, _⟩ := remembered _ _ _ rfl rfl
    have hagain := revokeBranch_again_iff admissible hclock hdb.conserved hdb.issued hrow hscope
      hfingerprint
    constructor
    · rintro ⟨db', out, hexec⟩ branch hbranch
      have hserved : svc.exec clock (.revokeBranch req) db = .ok (db', out) := hexec
      obtain ⟨_, _, heffect⟩ := exec_ok hserved
      obtain ⟨_, _, rfl, _⟩ := heffect.answered rfl hrow
      exact (hagain.mp ⟨db', hexec⟩ branch hbranch).1
    · intro htimes
      obtain ⟨db', hexec⟩ := hagain.mpr fun branch hbranch => ⟨htimes branch hbranch, .inr key⟩
      exact ⟨db', _, hexec⟩

theorem setRuntimeMode_commits_iff {req : SetRuntimeModeRequest}
    (h : svc.Reduces clock db (.setRuntimeMode req)) (hdb : svc.Sound db)
    (hclock : db.ClockSafe clock) :
    (∃ db' out, svc.setRuntimeMode clock req db = .ok (db', out)) ↔
      (db.idempotency.lookup req.requestId = none →
        db.runtime.mode = req.mode ∧ db.runtime.reason = req.reason ∨
          db.runtime.changedAtNs ≤ clock.nowNs) := by
  cases h with
  | again reducing admissible remembered key =>
    obtain ⟨row, hrow, _⟩ := remembered _ _ _ rfl rfl
    have hexec := exec_of_remembered admissible hclock hdb.conserved remembered rfl (by simp)
    rw [hrow]
    exact ⟨fun _ => (by simp), fun _ => ⟨_, _, hexec⟩⟩
  | drain mode_eq admissible request_new key =>
    obtain ⟨hreason, hadmin, hidentity⟩ := admissible
    have hprior : (db.touch clock.nowNs).idempotentResponse "set_runtime_mode" req.requestId
        (svc.fingerprint req.arguments) = .ok none :=
      Database.idempotentResponse_none_iff.mpr request_new
    simp only [setRuntimeMode, bind_ok_iff, require_ok_iff, exists_unit_iff]
    constructor
    · rintro ⟨db', out, _, _, h⟩ _
      obtain ⟨h, _⟩ := writeTransaction_ok h
      simp only [bind_ok_iff, exists_unit_iff, Database.clockIsSafe_ok_iff] at h
      obtain ⟨_, _, ⟨_, rfl⟩, prior, hprior', h⟩ := h
      obtain rfl := Except.ok.inj (hprior.symm.trans hprior')
      by_cases hsame : db.runtime.mode = req.mode ∧ db.runtime.reason = req.reason
      · exact .inl hsame
      · simp only [Database.touch, hsame, if_false, bind_ok_iff, exists_unit_iff] at h
        exact .inr (require_ok_iff.mp h.1)
    · intro htimes
      by_cases hsame : db.runtime.mode = req.mode ∧ db.runtime.reason = req.reason
      · refine ⟨_, _, hreason, hadmin, writeTransaction_of (by
          simp only [bind_ok_iff, exists_unit_iff, Database.clockIsSafe_ok_iff]
          refine ⟨hidentity, _, ⟨hclock, rfl⟩, none, hprior, ?_⟩
          simp only [Database.touch, hsame, and_self, if_true, pure_ok_iff]
          rfl) ?_⟩
        exact ⟨hdb.conserved.identity, hdb.conserved.le_max⟩
      · refine ⟨_, _, hreason, hadmin, writeTransaction_of (by
          simp only [bind_ok_iff, exists_unit_iff, Database.clockIsSafe_ok_iff]
          refine ⟨hidentity, _, ⟨hclock, rfl⟩, none, hprior, ?_⟩
          simp only [Database.touch, hsame, if_false, appendAudit, bind_ok_iff, exists_unit_iff,
            pure_ok_iff]
          exact ⟨require_ok_iff.mpr ((htimes request_new).resolve_left hsame), _, ⟨key, rfl⟩,
            rfl⟩) ?_⟩
        exact ⟨hdb.conserved.identity, hdb.conserved.le_max⟩

variable {leaseId : String} {lease : Lease d}

theorem residual_le_leaseResidual (hsum : db.ResidualSum)
    (hlease : db.leases.lookup leaseId = some lease) (i : Fin d) :
    lease.residual i ≤ db.leaseResidual i := by
  have hmoved := Database.sumOf_update_lease (f := fun lease => { lease with residual := .zero d })
    hlease i
  rw [hsum i]
  simp only [ResourceVector.zero_apply] at hmoved
  omega

/-- What a lease holds can be lowered: the running total stays within its bounds. -/
theorem updateLeaseResidual_of (hsum : db.ResidualSum)
    (hlease : db.leases.lookup leaseId = some lease) (residual : ResourceVector d)
    (hle : ∀ i, residual i ≤ lease.residual i) {f : Lease d → Lease d}
    (hok : Database.LeaseRowOk { f lease with residual := residual }) :
    ∃ total : ResourceVector d, db.updateLeaseResidual leaseId residual f = .ok { db with
        leases := db.leases.update leaseId fun lease' => { f lease' with residual := residual }
        leaseResidual := total } ∧
      ∀ i, total i + lease.residual i = db.leaseResidual i + residual i := by
  have hheld := residual_le_leaseResidual hsum hlease
  let rest : ResourceVector d := ⟨fun i => db.leaseResidual i - lease.residual i, fun i =>
    (Nat.sub_le _ _).trans (db.leaseResidual.le_max i)⟩
  have hrest : ∀ i, rest i + lease.residual i = db.leaseResidual i :=
    fun i => Nat.sub_add_cancel (hheld i)
  let total : ResourceVector d := ⟨fun i => rest i + residual i, fun i => by
    have hmax := db.leaseResidual.le_max i
    have := hrest i
    have := hle i
    omega⟩
  refine ⟨total, ?_, fun i => ?_⟩
  · simp only [Database.updateLeaseResidual, bind_ok_iff, pure_ok_iff, Database.loadLease_ok_iff,
      Database.updateLease_ok_iff, ResourceVector.addOr_ok_iff, ResourceVector.subtractOr_ok_iff]
    refine ⟨lease, hlease, rest, hrest, total, fun _ => rfl, _, ⟨fun lease' hlease' => ?_, rfl⟩, rfl⟩
    obtain rfl := some_unique hlease hlease'
    exact hok
  · rw [← hrest i]
    exact Nat.add_right_comm _ _ _

theorem moveLease_quiesce (hsum : db.ResidualSum) {actor : String}
    (hlease : db.leases.lookup leaseId = some lease)
    (hissued : lease.issuedAtNs ≤ lease.expiresAtNs) (hcreated : lease.createdAtNs ≤ clock.nowNs)
    (hkey : svc.requireSigningKeyCurrent clock = .ok ()) :
    ∃ row, svc.moveLease .quiesce clock leaseId actor lease .quiescent db = .ok { db with
      leases := db.leases.update leaseId (Lease.moved .quiescent lease.residual clock.nowNs)
      auditLog := db.auditLog ++ [row] } := by
  obtain ⟨total, hupdate, htotal⟩ := updateLeaseResidual_of hsum hlease _ (fun _ => le_rfl)
    (f := fun lease => { lease with
      status := .quiescent, sequence := lease.sequence + 1, updatedAtNs := clock.nowNs })
    ⟨hissued, hcreated⟩
  obtain rfl : total = db.leaseResidual := ResourceVector.ext fun i => Nat.add_right_cancel (htotal i)
  simp only [moveLease, Database.returnToPool, reduceCtorEq, if_false, false_and, bind_ok_iff,
    pure_ok_iff, appendAudit, exists_unit_iff]
  exact ⟨_, _, hupdate, _, rfl, hkey, rfl⟩

theorem snapshotFromRow_moved (hdb : svc.Sound db) (db₁ : Database d Hash) (lease' : Lease d)
    (hlease : db.leases.lookup leaseId = some lease) (hpolicies : db₁.policies = db.policies)
    (hterms : lease'.terms = lease.terms) (hresidual : lease'.residual = lease.residual)
    (hissued : lease'.issuedAtNs = lease.issuedAtNs)
    (hexpiry : lease'.expiresAtNs = lease.expiresAtNs) :
    ∃ snapshot, db₁.snapshotFromRow leaseId lease' = .ok snapshot := by
  obtain ⟨hvalid, policy, hpolicy, _⟩ := hdb.grants leaseId lease hlease
  have hdigest : lease'.policyDigest = lease.policyDigest :=
    (Lease.keeps hterms).policyDigest
  have hallocation : lease'.allocation = lease.allocation :=
    (Lease.keeps hterms).allocation
  have hvalid' : lease'.Valid leaseId := by
    refine hvalid.of_terms hterms ?_ ?_
    · rw [hexpiry]; exact hvalid.expiry_le
    · rw [hexpiry, hissued]; exact hvalid.issued_lt
  have hregistered : lease'.policyDigest ∈ db₁.policies := by
    rw [hdigest, hpolicies]
    exact Table.mem_of_lookup hpolicy
  obtain ⟨grant, hgrant⟩ := Database.grantFromRow_isOk hvalid' hregistered
  have hle : lease'.residual.lessThanOrEqual lease'.allocation := by
    rw [hresidual, hallocation]
    exact hdb.residual_le leaseId lease hlease
  simp only [Database.snapshotFromRow, bind_ok_iff, require_ok_iff, exists_unit_iff, pure_ok_iff]
  exact ⟨_, grant, hgrant, hle, rfl⟩

theorem quiesce_commits_iff {terminated : List (String × LeaseStatus)} {req : LifecycleRequest}
    (h : svc.Reduces clock db (.lifecycle .quiesce terminated req)) (hdb : svc.Sound db)
    (hclock : db.ClockSafe clock) :
    (∃ db' out, svc.lifecycle .quiesce clock terminated req db = .ok (db', out)) ↔
      (db.idempotency.lookup req.requestId = none → ∀ lease,
        db.leases.lookup req.leaseId = some lease → lease.createdAtNs ≤ clock.nowNs) := by
  cases h with
  | again reducing admissible remembered key =>
    obtain ⟨row, hrow, _⟩ := remembered _ _ _ rfl rfl
    have hexec := exec_of_remembered admissible hclock hdb.conserved remembered rfl (by simp)
    rw [hrow]
    exact ⟨fun _ => (by simp), fun _ => ⟨_, _, hexec⟩⟩
  | @quiesce _ _ lease admissible request_new lease_eq expected active fresh notRevoked key =>
    obtain ⟨hsequence, htenant, holder, hholder, hactor⟩ := admissible
    obtain rfl := some_unique lease_eq hholder
    have hprior : (db.touch clock.nowNs).idempotentResponse
        (LifecycleOperation.quiesce.name ++ ":" ++ req.leaseId) req.requestId
        (svc.fingerprint (req.arguments .quiesce db.envelope.configEpoch)) = .ok none :=
      Database.idempotentResponse_none_iff.mpr request_new
    have hstatus : lease.status ≠ .quiescent := by
      rw [active]
      decide
    have hissued := hdb.issued req.leaseId lease lease_eq
    simp only [lifecycle, bind_ok_iff, require_ok_iff, exists_unit_iff]
    constructor
    · rintro ⟨db', out, _, _, h⟩ _ lease' hlease'
      obtain rfl := some_unique lease_eq hlease'
      obtain ⟨h, _⟩ := writeTransaction_ok h
      simp only [bind_ok_iff, require_ok_iff, exists_unit_iff, Database.clockIsSafe_ok_iff,
        Database.loadLease_ok_iff] at h
      obtain ⟨_, ⟨_, rfl⟩, lease', hlease', _, prior, hprior', h⟩ := h
      obtain rfl := some_unique lease_eq hlease'
      obtain rfl := Except.ok.inj (hprior.symm.trans hprior')
      simp only [lifecycleTarget, hstatus, if_false, bind_ok_iff, exists_unit_iff,
        pure_ok_iff] at h
      obtain ⟨_, _, _, ⟨_, rfl⟩, db₁, hmove, _⟩ := h
      simp only [applyTarget, moveLease, bind_ok_iff] at hmove
      obtain ⟨_, hupdate, _⟩ := hmove
      obtain ⟨lease', _, hlease', hok, _⟩ := Database.updateLeaseResidual_ok hupdate
      obtain rfl := some_unique lease_eq hlease'
      exact hok.2
    · intro htimes
      have hcreated := htimes request_new lease lease_eq
      have hsum : (db.touch clock.nowNs).ResidualSum := hdb.residualSum
      obtain ⟨row, hmove⟩ : ∃ row, svc.moveLease .quiesce clock req.leaseId
          req.identity.subjectId lease .quiescent (db.touch clock.nowNs) = .ok _ :=
        moveLease_quiesce hsum lease_eq hissued hcreated key
      have hmoved : (db.leases.update req.leaseId (Lease.moved .quiescent lease.residual
          clock.nowNs)).lookup req.leaseId = some (lease.moved .quiescent lease.residual
          clock.nowNs) := by
        rw [Table.lookup_update, if_pos rfl, lease_eq]
        rfl
      obtain ⟨snapshot, hsnapshot⟩ := snapshotFromRow_moved hdb { db.touch clock.nowNs with
        leases := db.leases.update req.leaseId (Lease.moved .quiescent lease.residual clock.nowNs)
        auditLog := db.auditLog ++ [row] } (lease.moved .quiescent lease.residual clock.nowNs)
        lease_eq rfl rfl rfl rfl rfl
      refine ⟨_, _, hsequence, htenant, writeTransaction_of (by
        simp only [bind_ok_iff, require_ok_iff, exists_unit_iff, Database.clockIsSafe_ok_iff,
          Database.loadLease_ok_iff]
        refine ⟨_, ⟨hclock, rfl⟩, lease, lease_eq, hactor, none, hprior, ?_⟩
        simp only [lifecycleTarget, hstatus, if_false, bind_ok_iff, require_ok_iff,
          exists_unit_iff, pure_ok_iff, Database.requireActionable_ok_iff,
          Database.loadLease_ok_iff]
        exact ⟨(by simp), expected, _, ⟨⟨active, fresh, notRevoked⟩, rfl⟩, _, hmove, _, hmoved,
          snapshot, hsnapshot, rfl⟩) ?_⟩
      exact ⟨hdb.conserved.identity, hdb.conserved.le_max⟩

end WardenService

/-- In every reachable state and at every safe reading, an operation that only reduces authority
commits exactly where the times that it writes are in the order that the tables ask for. -/
theorem authority_reduction_commits_iff {svc : WardenService d Hash} {envelope : Envelope d}
    {db : Database d Hash} {clock : Reading} {operation : Operation d}
    (hreach : (svc.system envelope).Reachable db) (hclock : db.ClockSafe clock)
    (hreduces : svc.Reduces clock db operation) :
    (∃ db' out, svc.exec clock operation db = .ok (db', out)) ↔
      WardenService.TimesAllow clock db operation := by
  have hdb := WardenService.sound_of_reachable hreach
  cases operation with
  | ingestRevocation identity revocation =>
    exact WardenService.ingestRevocation_commits_iff hreduces hdb hclock
  | revokeBranch req => exact WardenService.revokeBranch_commits_iff hreduces hdb hclock
  | setRuntimeMode req => exact WardenService.setRuntimeMode_commits_iff hreduces hdb hclock
  | lifecycle move terminated req =>
    cases move with
    | quiesce => exact WardenService.quiesce_commits_iff hreduces hdb hclock
    | resume | close =>
      cases hreduces with
      | again reducing => simp at reducing
  | issueRoot | spawn | spawnRemote | authorize | renew | prepareTransfer | registerPolicy
  | reclaimExpired | acceptTransfer | finalizeTransfer | createTransferCheckpoint
  | ingestTransferCheckpoint | recordAttempt | pruneTerminal | pruneCompactedTransferHistory =>
    cases hreduces with
    | again reducing => simp at reducing

open Sample

/-- A revocation by `b` of a branch that `a` does not hold. -/
def Sample.peerRevocation (issuedAtNs : ℕ) : BranchRevocation where
  tenantId := "tenant"
  envelopeId := "envelope"
  configEpoch := 1
  branchLeaseId := "elsewhere"
  lineageId := "line"
  epoch := 1
  issuerWarden := "b"
  issuedAtNs := issuedAtNs
  reason := "reason"
  keyId := "b"
  signature := "b"

theorem Sample.reduces_peerRevocation (clock : Reading) (issuedAtNs : ℕ) :
    (service "a").Reduces clock (genesis "a" 6)
      (.ingestRevocation operator (peerRevocation issuedAtNs)) := by
  have hepoch : 0 < 1 ∧ 1 ≤ maxResource := by decide
  have hreason : 0 < "reason".length ∧ "reason".length ≤ 1000 := by decide
  have hvalid : (peerRevocation issuedAtNs).validate = .ok () := by
    simp only [BranchRevocation.validate, bind_ok_iff, require_ok_iff, exists_unit_iff]
    exact ⟨hepoch, hreason⟩
  exact .ingestRevocation hvalid (.inr (by decide)) rfl rfl rfl rfl nofun nofun nofun rfl

theorem authority_reduction_commits_iff_peer :
    ∃ db' out, (service "a").exec ⟨5, 1⟩
      (.ingestRevocation operator (peerRevocation 5)) (genesis "a" 6) =
        .ok (db', out) := by
  have hreach := (service "a").play_reachable (envelope 6) []
  have hclock : (genesis "a" 6).ClockSafe ⟨5, 1⟩ :=
    ⟨by decide, by decide, by decide, (fun _ h => by cases h)⟩
  exact (authority_reduction_commits_iff hreach hclock (reduces_peerRevocation _ 5)).mpr
    ⟨le_rfl, (fun _ h => by cases h)⟩

/-- A revocation that a peer issued with a clock that is ahead, within the declared uncertainty, is
rolled back by a constraint on its times. -/
theorem peer_revocation_rolled_back :
    ((service "a").system (envelope 6)).Reachable (genesis "a" 6) ∧
      (genesis "a" 6).ClockSafe ⟨5, 1⟩ ∧
      (service "a").Reduces ⟨5, 1⟩ (genesis "a" 6)
        (.ingestRevocation operator (peerRevocation 6)) ∧
      (service "a").exec ⟨5, 1⟩
        (.ingestRevocation operator (peerRevocation 6)) (genesis "a" 6) =
          .error (.integrity "CHECK constraint failed: revocations") := by
  have hreach := (service "a").play_reachable (envelope 6) []
  exact ⟨hreach, ⟨by decide, by decide, by decide, (fun _ h => by cases h)⟩,
    reduces_peerRevocation _ 6, rfl⟩

end Lets
