import Lets.Service

set_option autoImplicit false

/-!
# Revocation and reclamation

A revocation is stored at once and marks the leases beneath it in bounded batches; an expired lease
is returned to the free pool only when no receipt of it can still be fresh anywhere.
-/

namespace Lets

open Library

variable {d : ℕ} {Hash : Type}

def maintenanceRowBatch : ℕ := 64

structure RevokeBranchRequest where
  requestId : String
  identity : IdentityContext
  leaseId : String
  reason : String
  expectedEpoch : Option ℕ

def RevokeBranchRequest.arguments (req : RevokeBranchRequest) (configEpoch : ℕ) : Arguments d :=
  .revokeBranch req.identity.subjectId req.leaseId req.reason req.expectedEpoch configEpoch

def Lease.revoked (nowNs : ℕ) (lease : Lease d) : Lease d :=
  if lease.status.isLiveLease then
    { lease with status := .revoked, sequence := lease.sequence + 1, updatedAtNs := nowNs }
  else lease

def Lease.expired (nowNs : ℕ) (lease : Lease d) : Lease d :=
  { lease with
    status := .expired
    residual := .zero d
    sequence := lease.sequence + 1
    updatedAtNs := nowNs }

namespace Database

def revokeLeases (nowNs : ℕ) : List String → Database d Hash → Outcome (Database d Hash)
  | [], db => pure db
  | leaseId :: rest, db => do
    let db ← db.updateLease leaseId (Lease.revoked nowNs)
    revokeLeases nowNs rest db

/-- The live leases of a lineage that are the branch or lie beneath it, in batches. -/
def revocableLeases (lineageId branchLeaseId : String) (db : Database d Hash) : List String :=
  db.leases.batch (fun leaseId _ => leaseId)
    (fun leaseId lease => lease.lineageId = lineageId ∧ lease.status.isLiveLease ∧
      (leaseId = branchLeaseId ∨ branchLeaseId ∈ lease.ancestorPath))
    (maintenanceRowBatch + 1)

/-- Mark the first batch of live leases beneath a branch; also what it marked and whether that was
all. -/
def materializeRevokedBranch (lineageId branchLeaseId : String) (nowNs : ℕ)
    (db : Database d Hash) : Outcome (Database d Hash × List String × Bool) := do
  let rows := db.revocableLeases lineageId branchLeaseId
  let affected := rows.take maintenanceRowBatch
  let db ← db.revokeLeases nowNs affected
  pure (db, affected, rows.length ≤ maintenanceRowBatch)

/-- The epoch of the stored revocation of a branch, zero where there is none. -/
def branchEpoch (lineageId branchLeaseId : String) (db : Database d Hash) : ℕ :=
  ((db.revocations.lookup (lineageId, branchLeaseId)).map RevocationRow.epoch).getD 0

def storeRevocation (revocation : BranchRevocation) (nowNs : ℕ) (db : Database d Hash) :
    Outcome (Database d Hash) := do
  let key := (revocation.lineageId, revocation.branchLeaseId)
  require (∀ row ∈ db.revocations.lookup key, row.epoch < revocation.epoch)
    (.integrity "revocation epoch must increase")
  require (revocation.issuedAtNs ≤ nowNs) (.integrity "CHECK constraint failed: revocations")
  pure { db with
    revocations := db.revocations.insert key
      { epoch := revocation.epoch, observedAtNs := nowNs, payload := revocation } }

end Database

namespace WardenService

def enqueueRevocation (svc : WardenService d Hash) (revocation : BranchRevocation) (nowNs : ℕ) :
    List String → Database d Hash → Outcome (Database d Hash)
  | [], db => pure db
  | targetWarden :: rest, db => do
    let db ← db.enqueuePeerDelivery .revocation (svc.recordDigest (.revocation revocation))
      targetWarden (svc.branchDigest revocation.lineageId revocation.branchLeaseId)
      revocation.epoch (.revocation revocation) nowNs true
    enqueueRevocation svc revocation nowNs rest db

def unsignedRevocation (svc : WardenService d Hash) (clock : Reading) (db : Database d Hash)
    (req : RevokeBranchRequest) (lineageId : String) (currentEpoch : ℕ) : BranchRevocation where
  tenantId := db.envelope.tenantId
  envelopeId := db.envelope.envelopeId
  configEpoch := db.envelope.configEpoch
  branchLeaseId := req.leaseId
  lineageId := lineageId
  epoch := currentEpoch + 1
  issuerWarden := svc.wardenId
  issuedAtNs := clock.nowNs
  reason := req.reason
  keyId := svc.keyId
  signature := ""

/-- Note in the audit log what a repeated revocation has marked, if anything. -/
def auditMaterialized (svc : WardenService d Hash) (clock : Reading) (branchLeaseId actor : String)
    (affected : List String) (details : List (String × Detail d)) (db : Database d Hash) :
    Outcome (Database d Hash) :=
  if affected = [] then pure db
  else svc.appendAudit clock "branch.revocation-materialized" "lease" branchLeaseId actor details db

def revokeBranch (svc : WardenService d Hash) (clock : Reading) (req : RevokeBranchRequest)
    (db : Database d Hash) : Outcome (Database d Hash × Response d) := do
  let actor := req.identity.subjectId
  require (0 < req.reason.length ∧ req.reason.length ≤ 1000)
    (.validation "revocation reason must contain 1..1000 characters")
  require (∀ e ∈ req.expectedEpoch, e ≤ maxResource)
    (.validation "expected_epoch must be a non-negative integer")
  require (req.identity.HasScope (adminScopes ++ ["lets.branch.revoke"]))
    (.policy "branch revocation scope is required")
  require (req.identity.tenantId = db.envelope.tenantId)
    (.policy "identity tenant does not match branch tenant")
  let fingerprint := svc.fingerprint (req.arguments db.envelope.configEpoch)
  let scope := "revoke:" ++ req.leaseId
  writeTransaction db fun db => do
    let db ← db.clockIsSafe clock
    let branch ← db.loadLease req.leaseId
    let lineageId := branch.lineageId
    let currentEpoch := db.branchEpoch lineageId req.leaseId
    match ← db.idempotentResponse scope req.requestId fingerprint with
    | some prior => do
      let (db, affected, complete) ←
        db.materializeRevokedBranch lineageId req.leaseId clock.nowNs
      let db ← svc.auditMaterialized clock req.leaseId actor affected
        [("lineage_id", .text lineageId), ("epoch", .number currentEpoch),
          ("affected", .texts affected), ("materialization_complete", .flag complete)] db
      pure (db, prior)
    | none => do
      let expected := req.expectedEpoch.getD currentEpoch
      require (expected = currentEpoch)
        (.conflict (expectedText "branch revocation epoch" (toString currentEpoch)
          (toString expected)))
      let unsigned := svc.unsignedRevocation clock db req lineageId currentEpoch
      unsigned.validate
      let signature ← svc.signRecord clock (.revocation unsigned)
      let revocation := { unsigned with signature }
      let db ← db.storeRevocation revocation clock.nowNs
      let peers := svc.allowedPeerWardens.getD []
      let db ← svc.enqueueRevocation revocation clock.nowNs (peers.insertionSort (· ≤ ·)) db
      let (db, affected, complete) ←
        db.materializeRevokedBranch lineageId req.leaseId clock.nowNs
      let db ← svc.appendAudit clock "branch.revoked" "lease" req.leaseId actor
        [("lineage_id", .text lineageId), ("epoch", .number revocation.epoch),
          ("reason", .text req.reason), ("affected", .texts affected),
          ("materialization_complete", .flag complete)] db
      pure (db.rememberResponse scope req.requestId fingerprint (.revocation revocation)
        clock.nowNs 200, .revocation revocation)

def ingestRevocation (svc : WardenService d Hash) (clock : Reading) (identity : IdentityContext)
    (revocation : BranchRevocation) (db : Database d Hash) :
    Outcome (Database d Hash × Response d) := do
  let actor := identity.subjectId
  revocation.validate
  require (actor = revocation.issuerWarden ∨ identity.HasScope (adminScopes ++
      ["lets.branch.revoke.ingest", "lets.revocation.propagate", "lets.peer"]))
    (.policy "peer identity does not match revocation issuer")
  require (svc.verifyRecord (.revocation revocation) revocation.issuerWarden = true)
    (.signature "invalid record signature")
  writeTransaction db fun db => do
    db.requireEnvelope revocation.tenantId revocation.envelopeId
    let db ← db.clockIsSafe clock
    require (identity.tenantId = revocation.tenantId)
      (.policy "identity tenant does not match revocation tenant")
    require (revocation.configEpoch = db.envelope.configEpoch)
      (.conflict "revocation configuration epoch does not match target")
    require (∀ branch ∈ db.leases.lookup revocation.branchLeaseId,
        branch.lineageId = revocation.lineageId)
      (.conflict "revocation lineage does not match local branch")
    require (revocation.branchLeaseId ∈ db.leases → db.wardenId = revocation.issuerWarden)
      (.policy "revocation issuer does not own the addressed local branch")
    let existing := db.revocations.lookup (revocation.lineageId, revocation.branchLeaseId)
    require (∀ row ∈ existing, row.epoch ≤ revocation.epoch)
      (.replay "revocation epoch is older than the durable branch epoch")
    let details := fun (affected : List String) (complete : Bool) =>
      [("lineage_id", Detail.text revocation.lineageId), ("epoch", .number revocation.epoch),
        ("issuer_warden", .text revocation.issuerWarden), ("affected", .texts affected),
        ("materialization_complete", .flag complete)]
    if existing.any (fun row => row.epoch = revocation.epoch) then do
      require (∀ row ∈ existing, row.payload = revocation)
        (.conflict "revocation epoch is bound to different signed content")
      let (db, affected, complete) ← db.materializeRevokedBranch revocation.lineageId
        revocation.branchLeaseId clock.nowNs
      let db ← svc.auditMaterialized clock revocation.branchLeaseId actor affected
        (details affected complete) db
      pure (db, .revocation revocation)
    else do
      let db ← db.storeRevocation revocation clock.nowNs
      let (db, affected, complete) ← db.materializeRevokedBranch revocation.lineageId
        revocation.branchLeaseId clock.nowNs
      let db ← svc.appendAudit clock "branch.revocation-ingested" "lease"
        revocation.branchLeaseId actor (details affected complete) db
      pure (db, .revocation revocation)

end WardenService

namespace Database

/-- The leases that can be reclaimed at this reading: live rows whose expiry is past by more than
the uncertainty and the receipt lifetime, with no receipt that may still be fresh. -/
def reclaimableLeases (clock : Reading) (db : Database d Hash) : List String :=
  db.leases.batch (fun leaseId _ => leaseId)
    (fun leaseId lease => lease.status.isLive ∧
      lease.expiresAtNs + db.envelope.receiptTtlNs + clock.uncertaintyNs ≤ clock.nowNs ∧
      db.receipts.anyRow (fun _ receipt => receipt.leaseId = leaseId ∧
        clock.nowNs < receipt.expiresAtNs + clock.uncertaintyNs) = false)
    maintenanceRowBatch

def expireLeases (nowNs : ℕ) : List String → ResourceVector d → Database d Hash →
    Outcome (Database d Hash × ResourceVector d)
  | [], reclaimed, db => pure (db, reclaimed)
  | leaseId :: rest, reclaimed, db => do
    let lease ← db.loadLease leaseId
    let reclaimed ← reclaimed.add lease.residual
    let db ← db.updateLeaseResidual leaseId (.zero d) fun lease =>
      { lease with status := .expired, sequence := lease.sequence + 1, updatedAtNs := nowNs }
    expireLeases nowNs rest reclaimed db

end Database

namespace WardenService

def reclaimExpired (svc : WardenService d Hash) (clock : Reading) (identity : IdentityContext)
    (tenantId envelopeId : Option String) (db : Database d Hash) :
    Outcome (Database d Hash × Response d) :=
  writeTransaction db fun db => do
    require (∀ t ∈ tenantId, t = db.envelope.tenantId)
      (.notFound "requested tenant is not configured by this warden")
    require (∀ e ∈ envelopeId, e = db.envelope.envelopeId)
      (.notFound "requested envelope is not configured by this warden")
    requireAdmin identity db.envelope.tenantId
    let db ← db.clockIsSafe clock
    let candidates := db.reclaimableLeases clock
    let (db, reclaimed) ← db.expireLeases clock.nowNs candidates (.zero d)
    if candidates = [] then pure (db, .reclaimed reclaimed)
    else do
      let freePool ← db.freePool.add reclaimed
      let db := { db with freePool, revision := db.revision + 1 }
      let db ← svc.appendAudit clock "leases.reclaimed" "envelope" db.envelope.envelopeId
        identity.subjectId
        [("lease_ids", .texts candidates), ("reclaimed", .amount reclaimed),
          ("lower_bound_now_ns", .number (clock.nowNs - clock.uncertaintyNs))] db
      pure (db, .reclaimed reclaimed)

end WardenService

section Spec

open WardenService

variable {svc : WardenService d Hash} {clock : Reading} {db db' : Database d Hash}
  {out : Response d}

namespace Database

variable {lineageId branchLeaseId : String}

theorem nodup_revocableLeases : (db.revocableLeases lineageId branchLeaseId).Nodup :=
  Table.nodup_batch fun _ _ _ _ _ _ _ _ heq => heq

theorem mem_revocableLeases {id : String} (h : id ∈ db.revocableLeases lineageId branchLeaseId) :
    ∃ lease, db.leases.lookup id = some lease ∧ lease.lineageId = lineageId ∧
      lease.status.isLiveLease = true ∧
      (id = branchLeaseId ∨ branchLeaseId ∈ lease.ancestorPath) := by
  obtain ⟨id', lease, hlease, hcond, rfl⟩ := Table.exists_of_mem_batch h
  simp only [decide_eq_true_eq] at hcond
  exact ⟨lease, hlease, hcond⟩

variable {nowNs : ℕ}

theorem revokeLeases_ok_iff {leaseIds : List String} (hnodup : leaseIds.Nodup) :
    db.revokeLeases nowNs leaseIds = .ok db' ↔
      (∀ id ∈ leaseIds, ∀ lease ∈ db.leases.lookup id, LeaseRowOk (lease.revoked nowNs)) ∧
        db' = { db with leases := db.leases.updateAll leaseIds fun _ => Lease.revoked nowNs } := by
  induction leaseIds generalizing db with
  | nil =>
    rw [Table.updateAll_nil]
    simp only [revokeLeases, pure_ok_iff, List.not_mem_nil, false_implies, implies_true, true_and,
      eq_comm (b := db')]
  | cons leaseId rest ih =>
    have hrest := List.nodup_cons.mp hnodup
    -- the head is not marked again, and marking it leaves the rows of the rest
    have hrows : (∀ id ∈ rest, ∀ lease ∈ (db.leases.update leaseId (Lease.revoked nowNs)).lookup id,
        LeaseRowOk (lease.revoked nowNs)) ↔
        ∀ id ∈ rest, ∀ lease ∈ db.leases.lookup id, LeaseRowOk (lease.revoked nowNs) := by
      refine forall₂_congr fun id hid => ?_
      have hne : id ≠ leaseId := fun heq => hrest.1 (heq ▸ hid)
      rw [Table.lookup_update, if_neg hne]
    simp only [revokeLeases, bind_ok_iff, updateLease_ok_iff, List.forall_mem_cons]
    constructor
    · rintro ⟨_, ⟨hhead, rfl⟩, h⟩
      obtain ⟨hok, rfl⟩ := (ih hrest.2).mp h
      exact ⟨⟨hhead, hrows.mp hok⟩, by rw [Table.updateAll_update_const _ _ hrest.1]⟩
    · rintro ⟨⟨hhead, hok⟩, rfl⟩
      refine ⟨_, ⟨hhead, rfl⟩, (ih hrest.2).mpr ⟨hrows.mpr hok, ?_⟩⟩
      rw [Table.updateAll_update_const _ _ hrest.1]

structure Materialized (lineageId branchLeaseId : String) (nowNs : ℕ) (affected : List String)
    (db db' : Database d Hash) : Prop where
  nodup : affected.Nodup
  beneath : ∀ id ∈ affected, ∃ lease, db.leases.lookup id = some lease ∧
    lease.lineageId = lineageId ∧ lease.status.isLiveLease = true ∧
    (id = branchLeaseId ∨ branchLeaseId ∈ lease.ancestorPath)
  result : db' = { db with leases := db.leases.updateAll affected fun _ => Lease.revoked nowNs }

def nextBatch (lineageId branchLeaseId : String) (db : Database d Hash) : List String :=
  (db.revocableLeases lineageId branchLeaseId).take maintenanceRowBatch

theorem mem_nextBatch {id : String} (h : id ∈ db.nextBatch lineageId branchLeaseId) :
    ∃ lease, db.leases.lookup id = some lease ∧ lease.lineageId = lineageId ∧
      lease.status.isLiveLease = true ∧
      (id = branchLeaseId ∨ branchLeaseId ∈ lease.ancestorPath) :=
  mem_revocableLeases (List.mem_of_mem_take h)

theorem nodup_nextBatch : (db.nextBatch lineageId branchLeaseId).Nodup :=
  nodup_revocableLeases.sublist (List.take_sublist _ _)

theorem materializeRevokedBranch_ok_iff {affected : List String} {complete : Bool} :
    db.materializeRevokedBranch lineageId branchLeaseId nowNs = .ok (db', affected, complete) ↔
      (∀ id ∈ db.nextBatch lineageId branchLeaseId, ∀ lease ∈ db.leases.lookup id,
        LeaseRowOk (lease.revoked nowNs)) ∧
      db' = { db with
        leases := db.leases.updateAll (db.nextBatch lineageId branchLeaseId)
          fun _ => Lease.revoked nowNs } ∧
      affected = db.nextBatch lineageId branchLeaseId ∧
      complete = decide ((db.revocableLeases lineageId branchLeaseId).length ≤
        maintenanceRowBatch) := by
  simp only [materializeRevokedBranch, bind_ok_iff, pure_ok_iff, Prod.mk.injEq]
  constructor
  · rintro ⟨_, hrevoke, rfl, rfl, rfl⟩
    obtain ⟨hok, rfl⟩ := (revokeLeases_ok_iff nodup_nextBatch).mp hrevoke
    exact ⟨hok, rfl, rfl, rfl⟩
  · rintro ⟨hok, rfl, rfl, rfl⟩
    exact ⟨_, (revokeLeases_ok_iff nodup_nextBatch).mpr ⟨hok, rfl⟩, rfl, rfl, rfl⟩

theorem materializeRevokedBranch_ok {affected : List String} {complete : Bool}
    (h : db.materializeRevokedBranch lineageId branchLeaseId nowNs = .ok (db', affected, complete)) :
    Materialized lineageId branchLeaseId nowNs affected db db' := by
  obtain ⟨_, rfl, rfl, _⟩ := materializeRevokedBranch_ok_iff.mp h
  exact ⟨nodup_nextBatch, fun id hid => mem_nextBatch hid, rfl⟩

theorem storeRevocation_ok {revocation : BranchRevocation}
    (h : db.storeRevocation revocation nowNs = .ok db') :
    (∀ row, db.revocations.lookup (revocation.lineageId, revocation.branchLeaseId) = some row →
      row.epoch < revocation.epoch) ∧
    db' = { db with
      revocations := db.revocations.insert (revocation.lineageId, revocation.branchLeaseId)
        { epoch := revocation.epoch, observedAtNs := nowNs, payload := revocation } } := by
  simp only [storeRevocation, bind_ok_iff, require_ok_iff, exists_unit_iff, pure_ok_iff] at h
  obtain ⟨hepoch, _, rfl⟩ := h
  exact ⟨hepoch, rfl⟩

theorem nodup_reclaimableLeases : (db.reclaimableLeases clock).Nodup :=
  Table.nodup_batch fun _ _ _ _ _ _ _ _ heq => heq

theorem mem_reclaimableLeases {id : String} (h : id ∈ db.reclaimableLeases clock) :
    ∃ lease, db.leases.lookup id = some lease ∧ lease.status.isLive = true ∧
      lease.expiresAtNs + db.envelope.receiptTtlNs + clock.uncertaintyNs ≤ clock.nowNs := by
  obtain ⟨id', lease, hlease, hcond, rfl⟩ := Table.exists_of_mem_batch h
  simp only [decide_eq_true_eq] at hcond
  exact ⟨lease, hlease, hcond.1, hcond.2.1⟩

theorem expireLeases_ok {leaseIds : List String} {reclaimed reclaimed' : ResourceVector d}
    (h : db.expireLeases nowNs leaseIds reclaimed = .ok (db', reclaimed')) (hnodup : leaseIds.Nodup) :
    ∃ total, db' = { db with
        leases := db.leases.updateAll leaseIds fun _ => Lease.expired nowNs
        leaseResidual := total } ∧
      (db.ResidualSum → db'.ResidualSum) := by
  induction leaseIds generalizing db reclaimed with
  | nil =>
    obtain ⟨rfl, rfl⟩ := Prod.mk.inj (Except.ok.inj h)
    exact ⟨db.leaseResidual, by rw [Table.updateAll_nil], id⟩
  | cons leaseId rest ih =>
    simp only [expireLeases, bind_ok_iff, loadLease_ok_iff] at h
    obtain ⟨lease, hlease, _, _, db₁, hupdate, h⟩ := h
    obtain ⟨lease', total, hlease', _, htotal, hdb₁⟩ := updateLeaseResidual_ok hupdate
    obtain rfl := some_unique hlease hlease'
    replace hdb₁ : db₁ = { db with
      leases := db.leases.update leaseId (Lease.expired nowNs), leaseResidual := total } := hdb₁
    subst hdb₁
    have hrest := List.nodup_cons.mp hnodup
    obtain ⟨total', rfl, hsum⟩ := ih h hrest.2
    refine ⟨total', by rw [Table.updateAll_update_const _ _ hrest.1], fun hdb => hsum fun i => ?_⟩
    have h₁ : total i + lease.residual i = db.leaseResidual i := htotal i
    have h₂ := sumOf_update_lease (f := Lease.expired nowNs) hlease i
    have h₃ : (Lease.expired nowNs lease).residual i = 0 := rfl
    have h₄ := hdb i
    change total i = Table.sumOf (fun _ lease => lease.residual i)
      (db.leases.update leaseId (Lease.expired nowNs))
    omega

end Database

namespace WardenService

/-- The delivery records once a revocation is queued for each of the peers. -/
def queuedRevocation (svc : WardenService d Hash) (revocation : BranchRevocation) (nowNs : ℕ)
    (peers : List String) (deliveries : PeerDeliveries d) : PeerDeliveries d :=
  peers.foldl (fun deliveries targetWarden =>
    Database.enqueued .revocation (svc.recordDigest (.revocation revocation)) targetWarden
      (svc.branchDigest revocation.lineageId revocation.branchLeaseId) revocation.epoch
      (.revocation revocation) nowNs true deliveries) deliveries

theorem nodup_sortedPeers (svc : WardenService d Hash) :
    ((svc.allowedPeerWardens.getD []).insertionSort (· ≤ ·)).Nodup := by
  rw [(List.perm_insertionSort _ _).nodup_iff]
  cases hpeers : svc.allowedPeerWardens with
  | none => exact List.nodup_nil
  | some peers => exact svc.peersNodup peers hpeers

variable {revocation : BranchRevocation}

theorem enqueueRevocation_ok_iff {nowNs : ℕ} {peers : List String} (hnodup : peers.Nodup) :
    svc.enqueueRevocation revocation nowNs peers db = .ok db' ↔
      (∀ targetWarden ∈ peers,
        (RecordKind.revocation, svc.recordDigest (.revocation revocation), targetWarden) ∉
          db.peerDeliveries) ∧
      db' = { db with
        peerDeliveries := svc.queuedRevocation revocation nowNs peers db.peerDeliveries } := by
  induction peers generalizing db with
  | nil =>
    simp only [enqueueRevocation, queuedRevocation, pure_ok_iff, List.foldl_nil,
      List.not_mem_nil, false_implies, implies_true, true_and]
    exact eq_comm
  | cons targetWarden rest ih =>
    obtain ⟨hhead, hrest⟩ := List.nodup_cons.mp hnodup
    simp only [enqueueRevocation, bind_ok_iff, Database.enqueuePeerDelivery_ok_iff, ih hrest,
      List.forall_mem_cons]
    constructor
    · rintro ⟨_, ⟨hnew, rfl⟩, hall, rfl⟩
      refine ⟨⟨hnew, fun target htarget hmem => hall target htarget ?_⟩, rfl⟩
      exact Database.mem_enqueued.mpr (.inr hmem)
    · rintro ⟨⟨hnew, hall⟩, rfl⟩
      refine ⟨_, ⟨hnew, rfl⟩, fun target htarget hmem => ?_, rfl⟩
      obtain heq | hmem := Database.mem_enqueued.mp hmem
      · exact hhead ((Prod.mk.inj (Prod.mk.inj heq).2).2 ▸ htarget)
      · exact hall target htarget hmem

theorem auditMaterialized_ok {branchLeaseId actor : String} {affected : List String}
    {details : List (String × Detail d)}
    (h : svc.auditMaterialized clock branchLeaseId actor affected details db = .ok db') :
    ∃ rows, svc.AuditExtends db.auditLog (db.auditLog ++ rows) ∧
      db' = { db with auditLog := db.auditLog ++ rows } := by
  unfold auditMaterialized at h
  split_ifs at h with hnone
  · obtain rfl := Except.ok.inj h
    exact ⟨[], .append_nil _, by rw [List.append_nil]⟩
  · obtain ⟨row, hchained, rfl⟩ := appendAudit_ok h
    exact ⟨[row], hchained, rfl⟩

structure MarkedAgain (svc : WardenService d Hash) (clock : Reading)
    (lineageId branchLeaseId : String) (db db' : Database d Hash) where
  affected : List String
  auditRows : List (AuditRow d Hash)
  marked : Database d Hash
  materialized : Database.Materialized lineageId branchLeaseId clock.nowNs affected
    (db.touch clock.nowNs) marked
  chained : svc.AuditExtends db.auditLog (db.auditLog ++ auditRows)
  result : db' = { marked with auditLog := db.auditLog ++ auditRows }
  affected_eq : affected = db.nextBatch lineageId branchLeaseId

/-- A new revocation is stored, queued for the peers, and marks its first batch. -/
structure BranchRevoked (svc : WardenService d Hash) (clock : Reading)
    (revocation : BranchRevocation) (db db' : Database d Hash) where
  deliveries : PeerDeliveries d
  peers : List String
  affected : List String
  auditRow : AuditRow d Hash
  marked : Database d Hash
  epoch_lt : ∀ row,
    db.revocations.lookup (revocation.lineageId, revocation.branchLeaseId) = some row →
      row.epoch < revocation.epoch
  deliveries_eq : deliveries =
    svc.queuedRevocation revocation clock.nowNs peers db.peerDeliveries
  peers_nodup : peers.Nodup
  queue_new : ∀ targetWarden ∈ peers,
    (RecordKind.revocation, svc.recordDigest (.revocation revocation), targetWarden) ∉
      db.peerDeliveries
  materialized : Database.Materialized revocation.lineageId revocation.branchLeaseId clock.nowNs
    affected
    { db.touch clock.nowNs with
      revocations := db.revocations.insert (revocation.lineageId, revocation.branchLeaseId)
        { epoch := revocation.epoch, observedAtNs := clock.nowNs, payload := revocation }
      peerDeliveries := deliveries } marked
  chained : svc.AuditExtends db.auditLog (db.auditLog ++ [auditRow])
  result : db' = { marked with auditLog := db.auditLog ++ [auditRow] }

theorem revokeBranch_ok {req : RevokeBranchRequest}
    (h : svc.revokeBranch clock req db = .ok (db', out)) :
    db.ClockSafe clock ∧ db'.Conserved ∧ ∃ branch, db.leases.lookup req.leaseId = some branch ∧
      ((∃ row, db.idempotency.lookup req.requestId = some row ∧
          row.scope = "revoke:" ++ req.leaseId ∧
          row.fingerprint = svc.fingerprint (req.arguments db.envelope.configEpoch) ∧
          row.response = out ∧
          Nonempty (MarkedAgain svc clock branch.lineageId req.leaseId db db')) ∨
        db.idempotency.lookup req.requestId = none ∧ ∃ signature db₁, out = .revocation
            { svc.unsignedRevocation clock db req branch.lineageId
              (db.branchEpoch branch.lineageId req.leaseId) with signature } ∧
          Nonempty (BranchRevoked svc clock
            { svc.unsignedRevocation clock db req branch.lineageId
              (db.branchEpoch branch.lineageId req.leaseId) with signature } db db₁) ∧
          db' = db₁.rememberResponse ("revoke:" ++ req.leaseId) req.requestId
            (svc.fingerprint (req.arguments db.envelope.configEpoch)) out clock.nowNs 200) := by
  simp only [revokeBranch, bind_ok_iff, require_ok_iff, exists_unit_iff] at h
  obtain ⟨_, _, _, _, h⟩ := h
  obtain ⟨h, hcons⟩ := writeTransaction_ok h
  simp only [bind_ok_iff, Database.clockIsSafe_ok_iff, Database.loadLease_ok_iff] at h
  obtain ⟨_, ⟨hclock, rfl⟩, branch, hbranch, prior, hprior, h⟩ := h
  refine ⟨hclock, hcons, branch, hbranch, ?_⟩
  cases prior with
  | some prior =>
    simp only [bind_ok_iff, pure_ok_iff, Prod.mk.injEq] at h
    obtain ⟨⟨db₁, affected, complete⟩, hmark, db₂, haudit, rfl, rfl⟩ := h
    obtain ⟨row, hrow, hscope, hfingerprint, hresponse⟩ :=
      Database.idempotentResponse_some_iff.mp hprior
    have hmaterialized := Database.materializeRevokedBranch_ok hmark
    obtain ⟨_, _, haffected, _⟩ := Database.materializeRevokedBranch_ok_iff.mp hmark
    obtain ⟨rows, hchained, rfl⟩ := auditMaterialized_ok haudit
    obtain rfl := hmaterialized.result
    exact .inl ⟨row, hrow, hscope, hfingerprint, hresponse, ⟨{
      affected
      auditRows := rows
      marked := _
      materialized := hmaterialized
      chained := hchained
      result := rfl
      affected_eq := haffected }⟩⟩
  | none =>
    simp only [bind_ok_iff, require_ok_iff, exists_unit_iff, pure_ok_iff, Prod.mk.injEq] at h
    obtain ⟨_, _, signature, _, _, hstore, _, henqueue, ⟨db₁, affected, complete⟩, hmark, db₂,
      haudit, rfl, rfl⟩ := h
    obtain ⟨hepoch, rfl⟩ := Database.storeRevocation_ok hstore
    rw [enqueueRevocation_ok_iff svc.nodup_sortedPeers] at henqueue
    obtain ⟨hqueue, rfl⟩ := henqueue
    have hmaterialized := Database.materializeRevokedBranch_ok hmark
    obtain ⟨auditRow, hchained, rfl⟩ := appendAudit_ok haudit
    obtain rfl := hmaterialized.result
    refine .inr ⟨Database.idempotentResponse_none_iff.mp hprior, signature, _, rfl, ⟨{
      affected, auditRow
      deliveries := _
      peers := _
      marked := _
      epoch_lt := hepoch
      deliveries_eq := rfl
      peers_nodup := svc.nodup_sortedPeers
      queue_new := hqueue
      materialized := hmaterialized
      chained := hchained
      result := rfl }⟩, rfl⟩

theorem ingestRevocation_ok {identity : IdentityContext}
    (h : svc.ingestRevocation clock identity revocation db = .ok (db', out)) :
    db.ClockSafe clock ∧ db'.Conserved ∧ out = .revocation revocation ∧
      svc.verifyRecord (.revocation revocation) revocation.issuerWarden = true ∧
      (∀ branch, db.leases.lookup revocation.branchLeaseId = some branch →
        branch.lineageId = revocation.lineageId) ∧
      ((revocation.lineageId, revocation.branchLeaseId) ∈ db.revocations ∧
          Nonempty (MarkedAgain svc clock revocation.lineageId revocation.branchLeaseId db db') ∨
        ∃ done : BranchRevoked svc clock revocation db db', done.peers = []) := by
  simp only [ingestRevocation, bind_ok_iff, require_ok_iff, exists_unit_iff] at h
  obtain ⟨_, _, hverify, h⟩ := h
  obtain ⟨h, hcons⟩ := writeTransaction_ok h
  simp only [bind_ok_iff, require_ok_iff, exists_unit_iff, Database.clockIsSafe_ok_iff] at h
  obtain ⟨_, _, ⟨hclock, rfl⟩, _, _, hlineage, _, _, h⟩ := h
  split_ifs at h with hknown
  · simp only [bind_ok_iff, require_ok_iff, exists_unit_iff, pure_ok_iff, Prod.mk.injEq] at h
    obtain ⟨_, ⟨db₁, affected, complete⟩, hmark, db₂, haudit, rfl, rfl⟩ := h
    have hmaterialized := Database.materializeRevokedBranch_ok hmark
    obtain ⟨_, _, haffected, _⟩ := Database.materializeRevokedBranch_ok_iff.mp hmark
    obtain ⟨rows, hchained, rfl⟩ := auditMaterialized_ok haudit
    obtain rfl := hmaterialized.result
    obtain ⟨row, hrow, _⟩ := (Option.any_eq_true _ _).mp hknown
    have hmem := Table.mem_of_lookup hrow
    exact ⟨hclock, hcons, rfl, hverify, hlineage, .inl ⟨hmem, ⟨{
      affected
      auditRows := rows
      marked := _
      materialized := hmaterialized
      chained := hchained
      result := rfl
      affected_eq := haffected }⟩⟩⟩
  · simp only [bind_ok_iff, pure_ok_iff, Prod.mk.injEq] at h
    obtain ⟨_, hstore, ⟨db₁, affected, complete⟩, hmark, db₂, haudit, rfl, rfl⟩ := h
    obtain ⟨hepoch, rfl⟩ := Database.storeRevocation_ok hstore
    have hmaterialized := Database.materializeRevokedBranch_ok hmark
    obtain ⟨auditRow, hchained, rfl⟩ := appendAudit_ok haudit
    obtain rfl := hmaterialized.result
    exact ⟨hclock, hcons, rfl, hverify, hlineage, .inr ⟨{
      deliveries := db.peerDeliveries
      peers := []
      deliveries_eq := rfl
      peers_nodup := List.nodup_nil
      queue_new := by simp
      affected, auditRow
      marked := _
      epoch_lt := hepoch
      materialized := hmaterialized
      chained := hchained
      result := rfl }, rfl⟩⟩

/-- What `reclaim_expired` has done with the leases of one batch. -/
structure Reclaimed (svc : WardenService d Hash) (clock : Reading)
    (db db' : Database d Hash) where
  freePool : ResourceVector d
  total : ResourceVector d
  revision : ℕ
  auditRows : List (AuditRow d Hash)
  residualSum : db.ResidualSum → db'.ResidualSum
  /-- Where nothing was reclaimed there is nothing to record. -/
  unaudited : auditRows = [] →
    total = db.leaseResidual ∧ freePool = db.freePool ∧ revision = db.revision
  revision_le : db.revision ≤ revision
  chained : svc.AuditExtends db.auditLog (db.auditLog ++ auditRows)
  result : db' = { db.touch clock.nowNs with
    leases := db.leases.updateAll (db.reclaimableLeases clock) fun _ => Lease.expired clock.nowNs
    leaseResidual := total
    freePool
    revision
    auditLog := db.auditLog ++ auditRows }
  freePool_le : ∀ i, db.freePool i ≤ freePool i

theorem reclaimExpired_ok {identity : IdentityContext} {tenantId envelopeId : Option String}
    (h : svc.reclaimExpired clock identity tenantId envelopeId db = .ok (db', out)) :
    db.ClockSafe clock ∧ db'.Conserved ∧ (∃ amount, out = .reclaimed amount) ∧
      Nonempty (Reclaimed svc clock db db') := by
  obtain ⟨h, hcons⟩ := writeTransaction_ok h
  simp only [bind_ok_iff, require_ok_iff, exists_unit_iff, Database.clockIsSafe_ok_iff] at h
  obtain ⟨_, _, _, _, ⟨hclock, rfl⟩, ⟨db₁, reclaimed⟩, hexpire, h⟩ := h
  obtain ⟨total, rfl, hsum⟩ := Database.expireLeases_ok hexpire Database.nodup_reclaimableLeases
  refine ⟨hclock, hcons, ?_⟩
  split_ifs at h with hnone
  · obtain ⟨rfl, rfl⟩ := Prod.mk.inj (Except.ok.inj h)
    exact ⟨⟨reclaimed, rfl⟩, ⟨{
      freePool := db.freePool
      total
      revision := db.revision
      auditRows := []
      residualSum := hsum
      unaudited := fun _ => by
        rw [hnone] at hexpire
        obtain ⟨hdb, -⟩ := Prod.mk.inj (Except.ok.inj hexpire)
        exact ⟨(congrArg Database.leaseResidual hdb).symm, rfl, rfl⟩
      revision_le := le_rfl
      chained := .append_nil _
      result := by rw [List.append_nil]; rfl
      freePool_le := fun _ => le_rfl }⟩⟩
  · simp only [bind_ok_iff, pure_ok_iff, Prod.mk.injEq, ResourceVector.add_ok_iff] at h
    obtain ⟨freePool, hfree, _, haudit, rfl, rfl⟩ := h
    obtain ⟨auditRow, hchained, rfl⟩ := appendAudit_ok haudit
    exact ⟨⟨reclaimed, rfl⟩, ⟨{
      freePool, total
      revision := _
      auditRows := [auditRow]
      residualSum := hsum
      unaudited := by simp
      revision_le := Nat.le_succ _
      chained := hchained
      result := rfl
      freePool_le := fun i => hfree i ▸ Nat.le_add_right _ _ }⟩⟩

end WardenService

end Spec

end Lets
