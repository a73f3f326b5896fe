import Lets.Service

set_option autoImplicit false

/-!
# Renewal and lifecycle

`renew` moves a lease's expiry and shortens the local descendants that would outlive it; `quiesce`,
`resume` and `close` move its status.
-/

namespace Lets

open Library

variable {d : ℕ} {Hash : Type}

def maxAtomicCascadeDescendants : ℕ := 64

structure RenewRequest where
  requestId : String
  identity : IdentityContext
  leaseId : String
  ttlNs : ℕ
  expectedSequence : Option ℕ
  cascade : Bool

structure LifecycleRequest where
  requestId : String
  identity : IdentityContext
  leaseId : String
  expectedSequence : Option ℕ

def RenewRequest.arguments (req : RenewRequest) (configEpoch : ℕ) : Arguments d :=
  .renew req.identity.subjectId req.leaseId req.ttlNs req.expectedSequence req.cascade configEpoch

def LifecycleRequest.arguments (req : LifecycleRequest) (operation : LifecycleOperation)
    (configEpoch : ℕ) : Arguments d :=
  .lifecycle operation req.identity.subjectId req.leaseId req.expectedSequence configEpoch

namespace Database

def outlivingDescendants (leaseId : String) (expiresAtNs : ℕ) (db : Database d Hash) :
    List String :=
  db.leases.batch (fun leaseId _ => leaseId)
    (fun _ lease => lease.status.isLive ∧ expiresAtNs < lease.expiresAtNs ∧
      leaseId ∈ lease.ancestorPath)
    (maxAtomicCascadeDescendants + 1)

def checkParent (expiresAtNs : ℕ) (parentId : Option String) (db : Database d Hash) :
    Outcome Unit :=
  match parentId with
  | none => pure ()
  | some parentId => do
    let parent ← db.loadLease parentId
    require (parent.status.isRenewable = true) (.policy "lease parent is not renewable")
    require (db.leaseRevoked parentId parent = false) (.policy "lease parent is revoked")
    require (expiresAtNs ≤ parent.expiresAtNs) (.policy "renewal would outlive the parent lease")

def returnToPool (operation : LifecycleOperation) (returned : ResourceVector d)
    (db : Database d Hash) : Outcome (Database d Hash) :=
  if operation = .close ∧ returned.NonZero then do
    let freePool ← db.freePool.add returned
    pure { db with freePool, revision := db.revision + 1 }
  else pure db

/-- The open remote children of a lease whose recorded expiry, with the grace added, is not past. -/
def openRemoteChild (parentId : String) (graceNs nowNs : ℕ) (child : RemoteChild d) : Bool :=
  child.parentId = parentId ∧ child.status.isOpen ∧ nowNs < child.expiresAtNs + graceNs

end Database

def Lease.renewed (nowNs expiresAtNs : ℕ) (keyId signature : String) (lease : Lease d) : Lease d :=
  { lease with
    issuedAtNs := nowNs
    expiresAtNs
    keyId
    signature
    sequence := lease.sequence + 1
    updatedAtNs := nowNs }

def Lease.moved (status : LeaseStatus) (residual : ResourceVector d) (nowNs : ℕ)
    (lease : Lease d) : Lease d :=
  { lease with status, residual, sequence := lease.sequence + 1, updatedAtNs := nowNs }

def RemoteChild.terminated (observed : LeaseStatus) (nowNs : ℕ) (child : RemoteChild d) :
    RemoteChild d :=
  { child with
    status := .terminated
    observedStatus := some (.lease observed)
    updatedAtNs := nowNs }

namespace WardenService

/-- Renew one lease row to expire at `expiresAtNs`, with a new signature. -/
def renewRow (svc : WardenService d Hash) (clock : Reading) (expiresAtNs : ℕ) (leaseId : String)
    (lease : Lease d) (db : Database d Hash) : Outcome (Database d Hash) := do
  let grant ← db.grantFromRow leaseId lease
  let unsigned := { grant with
    issuedAtNs := clock.nowNs
    expiresAtNs
    keyId := svc.keyId
    signature := "" }
  let renewed ← svc.signGrant clock unsigned
  db.updateLease leaseId (Lease.renewed clock.nowNs expiresAtNs renewed.keyId renewed.signature)

def renewDescendants (svc : WardenService d Hash) (clock : Reading) (expiresAtNs : ℕ) :
    List String → Database d Hash → Outcome (Database d Hash)
  | [], db => pure db
  | leaseId :: rest, db => do
    let lease ← db.loadLease leaseId
    let db ← svc.renewRow clock expiresAtNs leaseId lease db
    renewDescendants svc clock expiresAtNs rest db

def renew (svc : WardenService d Hash) (clock : Reading) (req : RenewRequest)
    (db : Database d Hash) : Outcome (Database d Hash × Response d) := do
  let actor := req.identity.subjectId
  positiveTtl req.ttlNs
  checkExpectedSequence req.expectedSequence
  require (req.identity.tenantId = db.envelope.tenantId)
    (.policy "identity tenant does not match lease tenant")
  let fingerprint := svc.fingerprint (req.arguments db.envelope.configEpoch)
  let scope := "renew:" ++ req.leaseId
  writeTransaction db fun db => do
    let db ← db.clockIsSafe clock
    let lease ← db.loadLease req.leaseId
    require (actor = lease.subjectId ∨ req.identity.HasScope subjectLifecycleScopes)
      (.policy "authenticated subject may not renew this lease")
    require (lease.parentId = none → req.identity.HasScope subjectLifecycleScopes)
      (.policy "root lease renewal requires lease-management scope")
    match ← db.idempotentResponse scope req.requestId fingerprint with
    | some prior => pure (db, prior)
    | none => do
      db.requireRuntimeActive
      require (lease.status.isRenewable = true)
        (.policy ("lease status " ++ quoted lease.status.name ++ " cannot be renewed"))
      require (clock.nowNs + clock.uncertaintyNs < lease.expiresAtNs)
        (.expired "expired lease cannot be renewed")
      require (db.leaseRevoked req.leaseId lease = false)
        (.policy "revoked branch cannot be renewed")
      let policy ← db.registeredPolicy lease.policyDigest
      require (∃ maximum ∈ policy.payload.maxLeaseTtlNs, req.ttlNs ≤ maximum)
        (.policy "requested renewal TTL exceeds the registered policy maximum")
      require (∀ s ∈ req.expectedSequence, lease.sequence = s)
        (.conflict (expectedText "lease sequence" (toString lease.sequence)
          (toString (req.expectedSequence.getD 0))))
      let expiresAtNs := clock.nowNs + req.ttlNs
      db.checkParent expiresAtNs lease.parentId
      require (clock.nowNs + clock.uncertaintyNs < expiresAtNs)
        (.expired "renewal is not fresh under clock uncertainty")
      let descendants := db.outlivingDescendants req.leaseId expiresAtNs
      require (descendants.length ≤ maxAtomicCascadeDescendants)
        (.policy ("renewal would shorten more than 64 live descendants; " ++
          "shorten descendant leases in smaller branches first"))
      require (descendants = [] ∨ req.cascade = true)
        (.conflict "renewal shortens the parent beneath a live child; use cascade=True")
      let db ← svc.renewDescendants clock expiresAtNs descendants db
      let db ← svc.renewRow clock expiresAtNs req.leaseId lease db
      let updated ← db.loadLease req.leaseId
      let snapshot ← db.snapshotFromRow req.leaseId updated
      let db ← svc.appendAudit clock "lease.renewed" "lease" req.leaseId actor
        [("expires_at_ns", .number expiresAtNs), ("cascaded_descendants", .texts descendants),
          ("sequence", .number snapshot.sequence)] db
      pure (db.rememberResponse scope req.requestId fingerprint (.snapshot snapshot)
        clock.nowNs 200, .snapshot snapshot)

/-- Record as terminated the open remote children of `leaseId` that a peer reported as over. -/
def markTerminated (svc : WardenService d Hash) (clock : Reading) (leaseId actor : String) :
    List (String × LeaseStatus) → Database d Hash → Outcome (Database d Hash)
  | [], db => pure db
  | (childLeaseId, observed) :: rest, db => do
    let matched := (db.remoteChildren.lookup childLeaseId).filter fun child =>
      child.parentId = leaseId ∧ child.status.isOpen
    match matched with
    | none => markTerminated svc clock leaseId actor rest db
    | some child => do
      require (child.createdAtNs ≤ clock.nowNs)
        (.integrity "CHECK constraint failed: remote_children")
      let db := { db with
        remoteChildren :=
          db.remoteChildren.update childLeaseId (RemoteChild.terminated observed clock.nowNs) }
      let db ← svc.appendAudit clock "lease.remote-child-terminated" "lease" childLeaseId actor
        [("parent_id", .text leaseId), ("observed_status", .text observed.name)] db
      markTerminated svc clock leaseId actor rest db

def requireNoLiveDescendants (svc : WardenService d Hash) (clock : Reading)
    (leaseId actor : String) (terminated : List (String × LeaseStatus)) (db : Database d Hash) :
    Outcome (Database d Hash) := do
  let db ← svc.markTerminated clock leaseId actor terminated db
  db.leases.forbid (fun _ lease => lease.parentId = some leaseId ∧ lease.status.isLiveLease ∧
      clock.nowNs < lease.expiresAtNs + clock.uncertaintyNs)
    fun id _ => .policy ("lease has a live local descendant " ++ quoted id)
  db.remoteChildren.forbid (fun _ child => Database.openRemoteChild leaseId
      (clock.uncertaintyNs + db.envelope.receiptTtlNs) clock.nowNs child)
    fun id child => .policy ("remote descendant " ++ quoted id ++ " on " ++
      quoted child.targetWarden ++ " is " ++ child.status.lowerName ++ " and not proven terminated")
  pure db

/-- The status a lifecycle operation leads to; `none` where it leaves the lease as it is. -/
def lifecycleTarget (svc : WardenService d Hash) (operation : LifecycleOperation)
    (clock : Reading) (leaseId actor : String) (lease : Lease d)
    (terminated : List (String × LeaseStatus)) (db : Database d Hash) :
    Outcome (Database d Hash × Option LeaseStatus) :=
  match operation with
  | .quiesce =>
    if lease.status = .quiescent then pure (db, none)
    else do
      db.requireActionable leaseId lease clock
      pure (db, some .quiescent)
  | .resume =>
    if lease.status = .active then pure (db, none)
    else do
      require (lease.status = .quiescent)
        (.policy ("lease status " ++ quoted lease.status.name ++ " cannot be resumed"))
      require (clock.nowNs + clock.uncertaintyNs < lease.expiresAtNs)
        (.expired "lease cannot be safely resumed")
      require (db.leaseRevoked leaseId lease = false) (.policy "revoked branch cannot be resumed")
      pure (db, some .active)
  | .close =>
    if lease.status = .closed ∨ lease.status = .expired then pure (db, none)
    else do
      let db ← svc.requireNoLiveDescendants clock leaseId actor terminated db
      pure (db, some .closed)

/-- Move a lease to a new status; closing returns what it still held to the free pool. -/
def moveLease (svc : WardenService d Hash) (operation : LifecycleOperation) (clock : Reading)
    (leaseId actor : String) (lease : Lease d) (status : LeaseStatus) (db : Database d Hash) :
    Outcome (Database d Hash) := do
  let returned := if operation = .close then lease.residual else .zero d
  let residual := if operation = .close then .zero d else lease.residual
  let db ← db.updateLeaseResidual leaseId residual fun lease =>
    { lease with
      status
      sequence := lease.sequence + 1
      updatedAtNs := clock.nowNs }
  let db ← db.returnToPool operation returned
  svc.appendAudit clock
    (match operation with
      | .quiesce => "lease.quiesced"
      | .resume => "lease.resumed"
      | .close => "lease.closed")
    "lease" leaseId actor [("returned", .amount returned)] db

def applyTarget (svc : WardenService d Hash) (operation : LifecycleOperation) (clock : Reading)
    (leaseId actor : String) (lease : Lease d) (target : Option LeaseStatus)
    (db : Database d Hash) : Outcome (Database d Hash) :=
  match target with
  | none => pure db
  | some status => svc.moveLease operation clock leaseId actor lease status db

/-- `quiesce`, `resume` and `close`; `terminated` is what the probe of the remote children, made
before the transaction, found. -/
def lifecycle (svc : WardenService d Hash) (operation : LifecycleOperation) (clock : Reading)
    (terminated : List (String × LeaseStatus)) (req : LifecycleRequest) (db : Database d Hash) :
    Outcome (Database d Hash × Response d) := do
  let actor := req.identity.subjectId
  checkExpectedSequence req.expectedSequence
  require (req.identity.tenantId = db.envelope.tenantId)
    (.policy "identity tenant does not match lease tenant")
  let fingerprint := svc.fingerprint (req.arguments operation db.envelope.configEpoch)
  let scope := operation.name ++ ":" ++ req.leaseId
  writeTransaction db fun db => do
    let db ← db.clockIsSafe clock
    let lease ← db.loadLease req.leaseId
    require (actor = lease.subjectId ∨ req.identity.HasScope subjectLifecycleScopes)
      (.policy "authenticated subject may not manage this lease")
    match ← db.idempotentResponse scope req.requestId fingerprint with
    | some prior => pure (db, prior)
    | none => do
      require (operation = .resume → db.runtime.mode = .active) db.drainingError
      require (∀ s ∈ req.expectedSequence, lease.sequence = s)
        (.conflict (expectedText "lease sequence" (toString lease.sequence)
          (toString (req.expectedSequence.getD 0))))
      let (db, target) ← svc.lifecycleTarget operation clock req.leaseId actor lease terminated db
      let db ← svc.applyTarget operation clock req.leaseId actor lease target db
      let updated ← db.loadLease req.leaseId
      let snapshot ← db.snapshotFromRow req.leaseId updated
      pure (db.rememberResponse scope req.requestId fingerprint (.snapshot snapshot)
        clock.nowNs 200, .snapshot snapshot)

section Spec

variable {svc : WardenService d Hash} {clock : Reading} {db db' : Database d Hash}
  {out : Response d}

def renewedRows (svc : WardenService d Hash) (nowNs expiresAtNs : ℕ) (signatures : String → String)
    (leaseId : String) (lease : Lease d) : Lease d :=
  lease.renewed nowNs expiresAtNs svc.keyId (signatures leaseId)

variable {expiresAtNs : ℕ} {leaseId : String}

theorem renewedRows_cons {nowNs : ℕ} {signature : String} {signatures : String → String} :
    (fun id => if id = leaseId then Lease.renewed nowNs expiresAtNs svc.keyId signature
      else svc.renewedRows nowNs expiresAtNs signatures id) =
      svc.renewedRows nowNs expiresAtNs
        fun id => if id = leaseId then signature else signatures id := by
  funext id lease
  by_cases hid : id = leaseId <;> simp [renewedRows, hid]

variable {lease : Lease d}

theorem grantFromRow_ok {grant : LeaseGrant d} (h : db.grantFromRow leaseId lease = .ok grant) :
    grant.validate = .ok () ∧ grant.leaseId = leaseId ∧ grant.ancestorPath = lease.ancestorPath := by
  simp only [Database.grantFromRow, bind_ok_iff, exists_unit_iff, pure_ok_iff] at h
  obtain ⟨policy, _, hvalid, rfl⟩ := h
  exact ⟨hvalid, rfl, rfl⟩

theorem validate_ok {grant : LeaseGrant d} (h : grant.validate = .ok ()) :
    grant.issuedAtNs < grant.expiresAtNs ∧ grant.leaseId ∉ grant.ancestorPath := by
  simp only [LeaseGrant.validate, bind_ok_iff, require_ok_iff, exists_unit_iff] at h
  obtain ⟨_, htimes, _, _, _, hself, _⟩ := h
  exact ⟨htimes, hself⟩

theorem renewRow_ok (h : svc.renewRow clock expiresAtNs leaseId lease db = .ok db') :
    leaseId ∉ lease.ancestorPath ∧ expiresAtNs ≤ maxResource ∧ ∃ signature, db' = { db with
      leases := db.leases.update leaseId
        (Lease.renewed clock.nowNs expiresAtNs svc.keyId signature) } := by
  simp only [renewRow, bind_ok_iff, Database.updateLease_ok_iff] at h
  obtain ⟨grant, hgrant, renewed, hsign, _, rfl⟩ := h
  obtain ⟨hvalid, hid, hpath⟩ := grantFromRow_ok hgrant
  obtain ⟨hrenewed, signature, rfl⟩ := signGrant_ok hsign
  simp only [LeaseGrant.validate, bind_ok_iff, require_ok_iff, exists_unit_iff] at hrenewed
  exact ⟨hid ▸ hpath ▸ (validate_ok hvalid).2, hrenewed.1, signature, rfl⟩

theorem renewDescendants_ok {leaseIds : List String}
    (h : svc.renewDescendants clock expiresAtNs leaseIds db = .ok db') (hnodup : leaseIds.Nodup) :
    ∃ signatures, db' = { db with
      leases := db.leases.updateAll leaseIds
        (svc.renewedRows clock.nowNs expiresAtNs signatures) } := by
  induction leaseIds generalizing db with
  | nil =>
    obtain rfl := Except.ok.inj h
    exact ⟨fun _ => "", by rw [Table.updateAll_nil]⟩
  | cons leaseId rest ih =>
    simp only [renewDescendants, bind_ok_iff, Database.loadLease_ok_iff] at h
    obtain ⟨lease, _, db₁, hrow, h⟩ := h
    obtain ⟨_, _, signature, rfl⟩ := renewRow_ok hrow
    have hrest := List.nodup_cons.mp hnodup
    obtain ⟨signatures, rfl⟩ := ih h hrest.2
    refine ⟨fun id => if id = leaseId then signature else signatures id, ?_⟩
    rw [Table.updateAll_update _ _ _ hrest.1, renewedRows_cons]

theorem renewRow_created (h : svc.renewRow clock expiresAtNs leaseId lease db = .ok db') :
    ∀ row, db.leases.lookup leaseId = some row → row.createdAtNs ≤ clock.nowNs := by
  simp only [renewRow, bind_ok_iff, Database.updateLease_ok_iff] at h
  obtain ⟨_, _, _, _, hrows, _⟩ := h
  exact fun row hrow => (hrows row hrow).2

theorem renewDescendants_created {leaseIds : List String}
    (h : svc.renewDescendants clock expiresAtNs leaseIds db = .ok db') (hnodup : leaseIds.Nodup) :
    ∀ id ∈ leaseIds, ∀ row, db.leases.lookup id = some row → row.createdAtNs ≤ clock.nowNs := by
  induction leaseIds generalizing db with
  | nil => simp
  | cons leaseId rest ih =>
    simp only [renewDescendants, bind_ok_iff, Database.loadLease_ok_iff] at h
    obtain ⟨lease, _, db₁, hrow, h⟩ := h
    obtain ⟨_, _, signature, rfl⟩ := renewRow_ok hrow
    have hrest := List.nodup_cons.mp hnodup
    refine List.forall_mem_cons.mpr ⟨renewRow_created hrow, fun id hid row hlookup => ?_⟩
    have hne : id ≠ leaseId := fun heq => hrest.1 (heq ▸ hid)
    refine ih h hrest.2 id hid row ?_
    change (db.leases.update leaseId _).lookup id = some row
    rw [Table.lookup_update, if_neg hne, hlookup]

/-- What `renew` has checked and done when it renews a lease. -/
structure Renewed (svc : WardenService d Hash) (clock : Reading) (req : RenewRequest)
    (db db' : Database d Hash) (out : Response d) where
  lease : Lease d
  expiresAtNs : ℕ
  signatures : String → String
  snapshot : LeaseSnapshot d
  auditRow : AuditRow d Hash
  lease_eq : db.leases.lookup req.leaseId = some lease
  runtimeActive : db.runtime.mode = .active
  renewable : lease.status.isRenewable = true
  leaseFresh : clock.nowNs + clock.uncertaintyNs < lease.expiresAtNs
  notRevoked : db.leaseRevoked req.leaseId lease = false
  expiry_eq : expiresAtNs = clock.nowNs + req.ttlNs
  expiry_le : expiresAtNs ≤ maxResource
  fresh : clock.nowNs + clock.uncertaintyNs < expiresAtNs
  parent_ok : ∀ parentId, lease.parentId = some parentId → ∃ parent,
    db.leases.lookup parentId = some parent ∧ parent.status.isRenewable = true ∧
      db.leaseRevoked parentId parent = false ∧ expiresAtNs ≤ parent.expiresAtNs
  /-- The descendants that would outlive the new expiry are all in the batch. -/
  descendants_length : (db.outlivingDescendants req.leaseId expiresAtNs).length ≤
    maxAtomicCascadeDescendants
  self_notMem : req.leaseId ∉ db.outlivingDescendants req.leaseId expiresAtNs
  request_new : db.idempotency.lookup req.requestId = none
  out_eq : out = .snapshot snapshot
  chained : svc.AuditExtends db.auditLog (db.auditLog ++ [auditRow])
  result : db' = Database.rememberResponse ("renew:" ++ req.leaseId) req.requestId
    (svc.fingerprint (req.arguments db.envelope.configEpoch)) out clock.nowNs 200
    { db.touch clock.nowNs with
      leases := db.leases.updateAll
        (req.leaseId :: db.outlivingDescendants req.leaseId expiresAtNs)
        (svc.renewedRows clock.nowNs expiresAtNs signatures)
      auditLog := db.auditLog ++ [auditRow] }
  cascades : db.outlivingDescendants req.leaseId expiresAtNs = [] ∨ req.cascade = true
  created : ∀ id ∈ req.leaseId :: db.outlivingDescendants req.leaseId expiresAtNs, ∀ row,
    db.leases.lookup id = some row → row.createdAtNs ≤ clock.nowNs

theorem nodup_outlivingDescendants : (db.outlivingDescendants leaseId expiresAtNs).Nodup :=
  Table.nodup_batch fun _ _ _ _ _ _ _ _ heq => heq

theorem mem_outlivingDescendants {id : String}
    (h : id ∈ db.outlivingDescendants leaseId expiresAtNs) :
    ∃ lease, db.leases.lookup id = some lease ∧ lease.status.isLive = true ∧
      expiresAtNs < lease.expiresAtNs ∧ leaseId ∈ lease.ancestorPath := by
  obtain ⟨id', lease, hlease, hcond, rfl⟩ := Table.exists_of_mem_batch h
  simp only [decide_eq_true_eq] at hcond
  exact ⟨lease, hlease, hcond⟩

theorem mem_outlivingDescendants_of {id : String}
    (hlen : (db.outlivingDescendants leaseId expiresAtNs).length ≤ maxAtomicCascadeDescendants)
    (hlease : db.leases.lookup id = some lease) (hlive : lease.status.isLive = true)
    (hexpiry : expiresAtNs < lease.expiresAtNs) (hpath : leaseId ∈ lease.ancestorPath) :
    id ∈ db.outlivingDescendants leaseId expiresAtNs := by
  refine Table.mem_batch_of_length_lt (Nat.lt_succ_of_le hlen) hlease ?_
  simp only [decide_eq_true_eq]
  exact ⟨hlive, hexpiry, hpath⟩

theorem checkParent_ok {parentId : Option String} (h : db.checkParent expiresAtNs parentId = .ok ()) :
    ∀ id, parentId = some id → ∃ parent,
      db.leases.lookup id = some parent ∧ parent.status.isRenewable = true ∧
        db.leaseRevoked id parent = false ∧ expiresAtNs ≤ parent.expiresAtNs := by
  rintro id rfl
  simpa only [Database.checkParent, bind_ok_iff, require_ok_iff, exists_unit_iff,
    Database.loadLease_ok_iff] using h

theorem renew_ok {req : RenewRequest} (h : svc.renew clock req db = .ok (db', out)) :
    db.ClockSafe clock ∧ db'.Conserved ∧
      (Database.Replays clock ("renew:" ++ req.leaseId) req.requestId
          (svc.fingerprint (req.arguments db.envelope.configEpoch)) out db db' ∨
        Nonempty (Renewed svc clock req db db' out)) := by
  simp only [renew, bind_ok_iff, require_ok_iff, exists_unit_iff] at h
  obtain ⟨_, _, _, h⟩ := h
  obtain ⟨h, hcons⟩ := writeTransaction_ok h
  simp only [bind_ok_iff, require_ok_iff, exists_unit_iff, Database.clockIsSafe_ok_iff,
    Database.loadLease_ok_iff] at h
  obtain ⟨_, ⟨hclock, rfl⟩, lease, hlease, _, _, prior, hprior, h⟩ := h
  refine ⟨hclock, hcons, ?_⟩
  cases prior with
  | some prior => exact .inl (Database.replays_of hprior h)
  | none =>
    simp only [bind_ok_iff, require_ok_iff, exists_unit_iff, pure_ok_iff,
      Database.requireRuntimeActive, Database.registeredPolicy_ok_iff,
      Prod.mk.injEq] at h
    obtain ⟨hactive, hrenewable, hexpiry, hrevoked, policy, _, _, _, hparent, hfresh, hlen,
      hcascades, _, hcascade, _, hself, _, _, snapshot, _, _, haudit, rfl, rfl⟩ := h
    have hcreated := renewDescendants_created hcascade nodup_outlivingDescendants
    have hcreatedSelf := renewRow_created hself
    obtain ⟨signatures, rfl⟩ := renewDescendants_ok hcascade nodup_outlivingDescendants
    obtain ⟨hnotMem, hexpiry_le, signature, rfl⟩ := renewRow_ok hself
    obtain ⟨auditRow, hchained, rfl⟩ := appendAudit_ok haudit
    have hself : req.leaseId ∉ db.outlivingDescendants req.leaseId (clock.nowNs + req.ttlNs) := by
      intro hmem
      obtain ⟨lease', hlease', _, _, hpath⟩ := mem_outlivingDescendants hmem
      obtain rfl := some_unique hlease hlease'
      exact hnotMem hpath
    replace hcreatedSelf : ∀ row, db.leases.lookup req.leaseId = some row →
        row.createdAtNs ≤ clock.nowNs := by
      intro row hrow
      refine hcreatedSelf row ?_
      change (db.leases.updateAll _ _).lookup req.leaseId = some row
      rw [Table.lookup_updateAll]
      exact (if_neg hself).trans hrow
    exact .inr ⟨{
      lease, snapshot, auditRow
      expiresAtNs := _
      signatures := fun id => if id = req.leaseId then signature else signatures id
      lease_eq := hlease
      runtimeActive := hactive
      renewable := hrenewable
      leaseFresh := hexpiry
      notRevoked := hrevoked
      expiry_eq := rfl
      expiry_le := hexpiry_le
      fresh := hfresh
      parent_ok := checkParent_ok hparent
      descendants_length := hlen
      self_notMem := hself
      request_new := Database.idempotentResponse_none_iff.mp hprior
      out_eq := rfl
      chained := hchained
      result := by
        rw [← renewedRows_cons, ← Table.update_updateAll _ _ _ hself]
        rfl
      cascades := hcascades
      created := List.forall_mem_cons.mpr ⟨hcreatedSelf, hcreated⟩ }⟩

/-- The remote children of `parentId` after a probe: the first report about an open one counts. -/
def probedRow (parentId : String) (nowNs : ℕ) (terminated : List (String × LeaseStatus))
    (childLeaseId : String) (child : RemoteChild d) : RemoteChild d :=
  if child.parentId = parentId ∧ child.status.isOpen then
    match terminated.lookup childLeaseId with
    | some observed => child.terminated observed nowNs
    | none => child
  else child

variable {terminated : List (String × LeaseStatus)}

theorem probedRow_of_not_open {parentId childLeaseId : String} {nowNs : ℕ} {child : RemoteChild d}
    (h : ¬(child.parentId = parentId ∧ child.status.isOpen = true)) :
    probedRow parentId nowNs terminated childLeaseId child = child :=
  if_neg h

theorem probedRow_cons_of_ne {parentId id childLeaseId : String} {nowNs : ℕ}
    {observed : LeaseStatus} {rest : List (String × LeaseStatus)} (h : id ≠ childLeaseId) :
    (probedRow parentId nowNs ((childLeaseId, observed) :: rest) id :
      RemoteChild d → RemoteChild d) = probedRow parentId nowNs rest id := by
  funext child
  have hbeq : (id == childLeaseId) = false := beq_eq_false_iff_ne.mpr h
  simp only [probedRow, List.lookup_cons, hbeq]

variable {actor : String}

theorem markTerminated_ok (h : svc.markTerminated clock leaseId actor terminated db = .ok db') :
    ∃ rows, svc.AuditExtends db.auditLog (db.auditLog ++ rows) ∧ db' = { db with
      remoteChildren := db.remoteChildren.mapRows (probedRow leaseId clock.nowNs terminated)
      auditLog := db.auditLog ++ rows } := by
  induction terminated generalizing db with
  | nil =>
    obtain rfl := Except.ok.inj h
    have hrows : db.remoteChildren.mapRows (probedRow leaseId clock.nowNs []) =
        db.remoteChildren := by
      rw [Table.mapRows_congr (g := fun _ child => child), Table.mapRows_self]
      intro id child _
      simp [probedRow]
    exact ⟨[], .append_nil _, by rw [hrows, List.append_nil]⟩
  | cons entry rest ih =>
    obtain ⟨childLeaseId, observed⟩ := entry
    simp only [markTerminated] at h
    split at h
    · -- no open child of that name: the report changes nothing
      rename_i hmatched
      obtain ⟨rows, hchained, rfl⟩ := ih h
      refine ⟨rows, hchained, ?_⟩
      rw [Table.mapRows_congr fun id child hchild => ?_]
      by_cases hid : id = childLeaseId
      · subst hid
        have hclosed := Option.filter_eq_none_iff.mp hmatched child hchild
        rw [decide_eq_true_eq] at hclosed
        rw [probedRow_of_not_open hclosed, probedRow_of_not_open hclosed]
      · rw [probedRow_cons_of_ne hid]
    · rename_i child hmatched
      simp only [bind_ok_iff, require_ok_iff, exists_unit_iff] at h
      obtain ⟨_, db₁, haudit, h⟩ := h
      obtain ⟨row, hrow, rfl⟩ := appendAudit_ok haudit
      obtain ⟨rows, hrows, rfl⟩ := ih h
      refine ⟨row :: rows, ?_, ?_⟩
      · simpa only [List.append_assoc, List.cons_append, List.nil_append] using hrow.trans hrows
      obtain ⟨hchild, hopen⟩ := Option.filter_eq_some_iff.mp hmatched
      rw [decide_eq_true_eq] at hopen
      simp only [List.append_assoc, List.cons_append, List.nil_append, Table.update,
        Table.mapRows_mapRows]
      congr 1
      refine Table.mapRows_congr fun id child' hchild' => ?_
      by_cases hid : id = childLeaseId
      · subst hid
        obtain rfl := some_unique hchild hchild'
        rw [if_pos rfl, probedRow_of_not_open (by simp [RemoteChild.terminated,
          RemoteChildStatus.isOpen]), probedRow, if_pos hopen, List.lookup_cons_self]
      · rw [if_neg hid, probedRow_cons_of_ne hid]

/-- A lifecycle operation that found the lease already as it should be. -/
structure Unmoved (svc : WardenService d Hash) (operation : LifecycleOperation) (clock : Reading)
    (req : LifecycleRequest) (db db' : Database d Hash) (out : Response d) where
  lease : Lease d
  snapshot : LeaseSnapshot d
  lease_eq : db.leases.lookup req.leaseId = some lease
  already : (operation = .quiesce ∧ lease.status = .quiescent) ∨
    (operation = .resume ∧ lease.status = .active) ∨
    (operation = .close ∧ (lease.status = .closed ∨ lease.status = .expired))
  request_new : db.idempotency.lookup req.requestId = none
  out_eq : out = .snapshot snapshot
  result : db' = Database.rememberResponse (operation.name ++ ":" ++ req.leaseId) req.requestId
    (svc.fingerprint (req.arguments operation db.envelope.configEpoch)) out clock.nowNs 200
    (db.touch clock.nowNs)

/-- What `quiesce` and `resume` have checked and done when they move a lease. -/
structure Switched (svc : WardenService d Hash) (operation : LifecycleOperation) (clock : Reading)
    (req : LifecycleRequest) (db db' : Database d Hash) (out : Response d) where
  lease : Lease d
  status : LeaseStatus
  total : ResourceVector d
  snapshot : LeaseSnapshot d
  auditRow : AuditRow d Hash
  lease_eq : db.leases.lookup req.leaseId = some lease
  moves : (operation = .quiesce ∧ lease.status = .active ∧ status = .quiescent) ∨
    (operation = .resume ∧ db.runtime.mode = .active ∧ lease.status = .quiescent ∧
      status = .active)
  leaseFresh : clock.nowNs + clock.uncertaintyNs < lease.expiresAtNs
  notRevoked : db.leaseRevoked req.leaseId lease = false
  total_eq : ∀ i, total i = db.leaseResidual i
  request_new : db.idempotency.lookup req.requestId = none
  out_eq : out = .snapshot snapshot
  chained : svc.AuditExtends db.auditLog (db.auditLog ++ [auditRow])
  result : db' = Database.rememberResponse (operation.name ++ ":" ++ req.leaseId) req.requestId
    (svc.fingerprint (req.arguments operation db.envelope.configEpoch)) out clock.nowNs 200
    { db.touch clock.nowNs with
      leases := db.leases.update req.leaseId (Lease.moved status lease.residual clock.nowNs)
      leaseResidual := total
      auditLog := db.auditLog ++ [auditRow] }

/-- What `close` has checked and done when it closes a lease. -/
structure Closed (svc : WardenService d Hash) (clock : Reading)
    (terminated : List (String × LeaseStatus)) (req : LifecycleRequest)
    (db db' : Database d Hash) (out : Response d) where
  lease : Lease d
  total : ResourceVector d
  freePool : ResourceVector d
  revision : ℕ
  snapshot : LeaseSnapshot d
  auditRows : List (AuditRow d Hash)
  auditRow : AuditRow d Hash
  lease_eq : db.leases.lookup req.leaseId = some lease
  notClosed : lease.status ≠ .closed
  notExpired : lease.status ≠ .expired
  noLocal : ∀ id child, db.leases.lookup id = some child → child.parentId = some req.leaseId →
    child.status.isLiveLease = true → child.expiresAtNs + clock.uncertaintyNs ≤ clock.nowNs
  noRemote : ∀ id child, db.remoteChildren.lookup id = some child →
    child.parentId = req.leaseId → child.status.isOpen = true → terminated.lookup id = none →
      child.expiresAtNs + (clock.uncertaintyNs + db.envelope.receiptTtlNs) ≤ clock.nowNs
  total_eq : ∀ i, total i + lease.residual i = db.leaseResidual i
  freePool_eq : ∀ i, freePool i = db.freePool i + lease.residual i
  revision_le : db.revision ≤ revision
  request_new : db.idempotency.lookup req.requestId = none
  out_eq : out = .snapshot snapshot
  chained : svc.AuditExtends db.auditLog (db.auditLog ++ auditRows ++ [auditRow])
  result : db' = Database.rememberResponse
    (LifecycleOperation.close.name ++ ":" ++ req.leaseId) req.requestId
    (svc.fingerprint (req.arguments .close db.envelope.configEpoch)) out clock.nowNs 200
    { db.touch clock.nowNs with
      leases := db.leases.update req.leaseId (Lease.moved .closed (.zero d) clock.nowNs)
      leaseResidual := total
      freePool
      revision
      remoteChildren := db.remoteChildren.mapRows (probedRow req.leaseId clock.nowNs terminated)
      auditLog := db.auditLog ++ auditRows ++ [auditRow] }

variable {operation : LifecycleOperation}

theorem moveLease_switch_ok {status : LeaseStatus} (hop : operation ≠ .close)
    (hlease : db.leases.lookup leaseId = some lease)
    (h : svc.moveLease operation clock leaseId actor lease status db = .ok db') :
    ∃ total auditRow, (∀ i, total i = db.leaseResidual i) ∧
      svc.AuditExtends db.auditLog (db.auditLog ++ [auditRow]) ∧ db' = { db with
      leases := db.leases.update leaseId (Lease.moved status lease.residual clock.nowNs)
      leaseResidual := total
      auditLog := db.auditLog ++ [auditRow] } := by
  simp only [moveLease, Database.returnToPool, hop, if_false, false_and, bind_ok_iff, pure_ok_iff,
    exists_eq_left'] at h
  obtain ⟨db₁, hupdate, haudit⟩ := h
  obtain ⟨lease', total, hlease', _, htotal, rfl⟩ := Database.updateLeaseResidual_ok hupdate
  obtain rfl := some_unique hlease hlease'
  obtain ⟨auditRow, hchained, rfl⟩ := appendAudit_ok haudit
  exact ⟨total, auditRow, fun i => Nat.add_right_cancel (htotal i), hchained, rfl⟩

theorem moveLease_close_ok {status : LeaseStatus} (hlease : db.leases.lookup leaseId = some lease)
    (h : svc.moveLease .close clock leaseId actor lease status db = .ok db') :
    ∃ total freePool revision auditRow,
      (∀ i, total i + lease.residual i = db.leaseResidual i) ∧
      (∀ i, freePool i = db.freePool i + lease.residual i) ∧ db.revision ≤ revision ∧
      svc.AuditExtends db.auditLog (db.auditLog ++ [auditRow]) ∧ db' = { db with
        leases := db.leases.update leaseId (Lease.moved status (.zero d) clock.nowNs)
        leaseResidual := total
        freePool
        revision
        auditLog := db.auditLog ++ [auditRow] } := by
  simp only [moveLease, Database.returnToPool, if_true, true_and, bind_ok_iff] at h
  obtain ⟨db₁, hupdate, db₂, hreturn, haudit⟩ := h
  obtain ⟨lease', total, hlease', _, htotal, rfl⟩ := Database.updateLeaseResidual_ok hupdate
  obtain rfl := some_unique hlease hlease'
  have htotal' : ∀ i, total i + lease.residual i = db.leaseResidual i := htotal
  by_cases hzero : lease.residual.NonZero
  · simp only [if_pos hzero, bind_ok_iff, pure_ok_iff, ResourceVector.add_ok_iff] at hreturn
    obtain ⟨freePool, hfree, rfl⟩ := hreturn
    obtain ⟨auditRow, hchained, rfl⟩ := appendAudit_ok haudit
    exact ⟨total, freePool, _, auditRow, htotal', hfree, Nat.le_succ _, hchained, rfl⟩
  · simp only [if_neg hzero, pure_ok_iff] at hreturn
    subst hreturn
    obtain ⟨auditRow, hchained, rfl⟩ := appendAudit_ok haudit
    have hnone : ∀ i, lease.residual i = 0 := fun i => by
      by_contra hi
      exact hzero ⟨i, hi⟩
    exact ⟨total, db.freePool, _, auditRow, htotal', fun i => by rw [hnone i]; rfl, le_rfl,
      hchained, rfl⟩

theorem requireNoLiveDescendants_ok
    (h : svc.requireNoLiveDescendants clock leaseId actor terminated db = .ok db') :
    (∀ id child, db.leases.lookup id = some child → child.parentId = some leaseId →
      child.status.isLiveLease = true → child.expiresAtNs + clock.uncertaintyNs ≤ clock.nowNs) ∧
    (∀ id child, db.remoteChildren.lookup id = some child → child.parentId = leaseId →
      child.status.isOpen = true → terminated.lookup id = none →
        child.expiresAtNs + (clock.uncertaintyNs + db.envelope.receiptTtlNs) ≤ clock.nowNs) ∧
    ∃ rows, svc.AuditExtends db.auditLog (db.auditLog ++ rows) ∧ db' = { db with
      remoteChildren := db.remoteChildren.mapRows (probedRow leaseId clock.nowNs terminated)
      auditLog := db.auditLog ++ rows } := by
  simp only [requireNoLiveDescendants, bind_ok_iff, exists_unit_iff, pure_ok_iff,
    Table.forbid_ok_iff, Database.openRemoteChild, decide_eq_false_iff_not, not_and, not_lt] at h
  obtain ⟨db₁, hmark, hlocal, hremote, rfl⟩ := h
  obtain ⟨rows, hchained, rfl⟩ := markTerminated_ok hmark
  refine ⟨hlocal, fun id child hchild hparent hopen hnone => ?_, rows, hchained, rfl⟩
  have hsame : probedRow leaseId clock.nowNs terminated id child = child := by
    rw [probedRow, if_pos ⟨hparent, hopen⟩, hnone]
  refine hremote id child ?_ hparent hopen
  rw [Table.lookup_mapRows, hchild, Option.map_some, hsame]

theorem lifecycle_ok {req : LifecycleRequest}
    (h : svc.lifecycle operation clock terminated req db = .ok (db', out)) :
    db.ClockSafe clock ∧ db'.Conserved ∧
      (Database.Replays clock (operation.name ++ ":" ++ req.leaseId) req.requestId
          (svc.fingerprint (req.arguments operation db.envelope.configEpoch)) out db db' ∨
        Nonempty (Unmoved svc operation clock req db db' out) ∨
        Nonempty (Switched svc operation clock req db db' out) ∨
        operation = .close ∧ Nonempty (Closed svc clock terminated req db db' out)) := by
  simp only [lifecycle, bind_ok_iff, require_ok_iff, exists_unit_iff] at h
  obtain ⟨_, _, h⟩ := h
  obtain ⟨h, hcons⟩ := writeTransaction_ok h
  simp only [bind_ok_iff, require_ok_iff, exists_unit_iff, Database.clockIsSafe_ok_iff,
    Database.loadLease_ok_iff] at h
  obtain ⟨_, ⟨hclock, rfl⟩, lease, hlease, _, prior, hprior, h⟩ := h
  refine ⟨hclock, hcons, ?_⟩
  cases prior with
  | some prior => exact .inl (Database.replays_of hprior h)
  | none =>
    have hnew := Database.idempotentResponse_none_iff.mp hprior
    simp only [bind_ok_iff, require_ok_iff, exists_unit_iff, pure_ok_iff, Prod.mk.injEq] at h
    obtain ⟨hruntime, _, ⟨db₁, target⟩, htarget, db₂, happly, _, _, snapshot, _, rfl, rfl⟩ := h
    right
    cases operation with
    | quiesce =>
      simp only [lifecycleTarget] at htarget
      split_ifs at htarget with hstatus
      · obtain ⟨rfl, rfl⟩ := Prod.mk.inj (Except.ok.inj htarget)
        obtain rfl := Except.ok.inj happly
        exact .inl ⟨{
          lease, snapshot
          lease_eq := hlease
          already := .inl ⟨rfl, hstatus⟩
          request_new := hnew
          out_eq := rfl
          result := rfl }⟩
      · simp only [bind_ok_iff, exists_unit_iff, Database.requireActionable_ok_iff, pure_ok_iff,
          Prod.mk.injEq] at htarget
        obtain ⟨⟨hactive, hfresh, hrevoked⟩, rfl, rfl⟩ := htarget
        obtain ⟨total, auditRow, htotal, hchained, rfl⟩ :=
          moveLease_switch_ok (by decide) hlease happly
        exact .inr (.inl ⟨{
          lease, total, snapshot, auditRow
          status := _
          lease_eq := hlease
          moves := .inl ⟨rfl, hactive, rfl⟩
          leaseFresh := hfresh
          notRevoked := hrevoked
          total_eq := htotal
          request_new := hnew
          out_eq := rfl
          chained := hchained
          result := rfl }⟩)
    | resume =>
      simp only [lifecycleTarget] at htarget
      split_ifs at htarget with hstatus
      · obtain ⟨rfl, rfl⟩ := Prod.mk.inj (Except.ok.inj htarget)
        obtain rfl := Except.ok.inj happly
        exact .inl ⟨{
          lease, snapshot
          lease_eq := hlease
          already := .inr (.inl ⟨rfl, hstatus⟩)
          request_new := hnew
          out_eq := rfl
          result := rfl }⟩
      · simp only [bind_ok_iff, exists_unit_iff, require_ok_iff, pure_ok_iff,
          Prod.mk.injEq] at htarget
        obtain ⟨hquiescent, hfresh, hrevoked, rfl, rfl⟩ := htarget
        obtain ⟨total, auditRow, htotal, hchained, rfl⟩ :=
          moveLease_switch_ok (by decide) hlease happly
        exact .inr (.inl ⟨{
          lease, total, snapshot, auditRow
          status := _
          lease_eq := hlease
          moves := .inr ⟨rfl, hruntime rfl, hquiescent, rfl⟩
          leaseFresh := hfresh
          notRevoked := hrevoked
          total_eq := htotal
          request_new := hnew
          out_eq := rfl
          chained := hchained
          result := rfl }⟩)
    | close =>
      simp only [lifecycleTarget] at htarget
      split_ifs at htarget with hstatus
      · obtain ⟨rfl, rfl⟩ := Prod.mk.inj (Except.ok.inj htarget)
        obtain rfl := Except.ok.inj happly
        exact .inl ⟨{
          lease, snapshot
          lease_eq := hlease
          already := .inr (.inr ⟨rfl, hstatus⟩)
          request_new := hnew
          out_eq := rfl
          result := rfl }⟩
      · simp only [bind_ok_iff, pure_ok_iff, Prod.mk.injEq] at htarget
        obtain ⟨_, hnone, rfl, rfl⟩ := htarget
        obtain ⟨hlocal, hremote, rows, hrows, rfl⟩ := requireNoLiveDescendants_ok hnone
        obtain ⟨total, freePool, revision, auditRow, htotal, hfree, hrevision, hrow, rfl⟩ :=
          moveLease_close_ok (by exact hlease) happly
        rw [not_or] at hstatus
        exact .inr (.inr ⟨rfl, ⟨{
          lease, total, freePool, revision, snapshot, auditRow
          auditRows := rows
          lease_eq := hlease
          notClosed := hstatus.1
          notExpired := hstatus.2
          noLocal := hlocal
          noRemote := hremote
          total_eq := htotal
          freePool_eq := hfree
          revision_le := hrevision
          request_new := hnew
          out_eq := rfl
          chained := hrows.trans hrow
          result := rfl }⟩⟩)

end Spec

end WardenService

end Lets
