import Lets.Warden

set_option autoImplicit false

/-!
# How lease rows come about and move

Every effect of an operation on the table of leases, row by row: where a new row comes from, and how
an existing row may change.
-/

namespace Lets

open Library

variable {d : ℕ} {Hash : Type}

def Lease.origin (lease : Lease d) :
    String × Option String × Option String × Option String × List String :=
  (lease.lineageId, lease.parentId, lease.parentWarden, lease.remoteParentId, lease.ancestorPath)

def Lease.terms (lease : Lease d) :
    (String × Option String × Option String × Option String × List String) × String ×
      ResourceVector d × Finset String × String × ℕ × ℕ × String × String × ℕ :=
  (lease.origin, lease.subjectId, lease.allocation, lease.capabilities, lease.machineDigest,
    lease.branchEpoch, lease.configEpoch, lease.policyVersion, lease.policyDigest,
    lease.createdAtNs)

structure Lease.Keeps (lease' lease : Lease d) : Prop where
  lineageId : lease'.lineageId = lease.lineageId
  parentId : lease'.parentId = lease.parentId
  parentWarden : lease'.parentWarden = lease.parentWarden
  remoteParentId : lease'.remoteParentId = lease.remoteParentId
  ancestorPath : lease'.ancestorPath = lease.ancestorPath
  subjectId : lease'.subjectId = lease.subjectId
  allocation : lease'.allocation = lease.allocation
  capabilities : lease'.capabilities = lease.capabilities
  branchEpoch : lease'.branchEpoch = lease.branchEpoch
  policyDigest : lease'.policyDigest = lease.policyDigest
  createdAtNs : lease'.createdAtNs = lease.createdAtNs

theorem Lease.keeps {lease lease' : Lease d} (h : lease'.terms = lease.terms) :
    lease'.Keeps lease := by
  simp only [Lease.terms, Lease.origin, Prod.mk.injEq] at h
  obtain ⟨⟨hlineage, hparent, hwarden, hremote, hpath⟩, hsubject, hallocation, hcapabilities, _,
    hbranch, _, _, hpolicy, hcreated⟩ := h
  exact ⟨hlineage, hparent, hwarden, hremote, hpath, hsubject, hallocation, hcapabilities, hbranch,
    hpolicy, hcreated⟩

namespace WardenService

inductive Debits (svc : WardenService d Hash) (clock : Reading) (db db' : Database d Hash) :
    Operation d → String → ResourceVector d → Prop
  | authorized {newReceiptId : String} {req : AuthorizeRequest} {out : Response d}
      (done : Authorized svc clock newReceiptId req db db' out) :
      Debits svc clock db db' (.authorize newReceiptId req) req.leaseId done.rule.cost
  | spawned {newLeaseId : String} {req : SpawnRequest d} {out : Response d}
      (done : Spawned svc clock newLeaseId req db db' out) :
      Debits svc clock db db' (.spawn newLeaseId req) req.parentId req.allocation
  | remoteSpawned {newLeaseId newTransferId : String} {req : SpawnRemoteRequest d}
      {out : Response d} (done : RemoteSpawned svc clock newLeaseId newTransferId req db db' out) :
      Debits svc clock db db' (.spawnRemote newLeaseId newTransferId req) req.parentId
        req.allocation

/-- The revocation of a branch is stored, or a request to revoke it has been answered. -/
def RevocationKnown (db db' : Database d Hash) (lineageId branch : String) : Prop :=
  (lineageId, branch) ∈ db'.revocations ∨
    ∃ requestId row, db.idempotency.lookup requestId = some row ∧
      row.scope = "revoke:" ++ branch ∧ ∃ root, db.leases.lookup branch = some root ∧
        root.lineageId = lineageId

inductive RowStep (svc : WardenService d Hash) (clock : Reading) (operation : Operation d)
    (db db' : Database d Hash) (leaseId : String) (lease lease' : Lease d) : Prop
  | kept (status_eq : lease'.status = lease.status)
      (expiry_eq : lease'.expiresAtNs = lease.expiresAtNs)
      (issued_eq : lease'.issuedAtNs = lease.issuedAtNs)
      (residual_eq : (∃ debtor amount, Debits svc clock db db' operation debtor amount) ∨
        lease'.residual = lease.residual)
  | renewed {req : RenewRequest} {out : Response d} (operation_eq : operation = .renew req)
      (done : Renewed svc clock req db db' out)
      (mem : leaseId ∈ req.leaseId :: db.outlivingDescendants req.leaseId done.expiresAtNs)
      (status_eq : lease'.status = lease.status) (expiry_eq : lease'.expiresAtNs = done.expiresAtNs)
      (issued_eq : lease'.issuedAtNs = clock.nowNs)
      (residual_eq : lease'.residual = lease.residual)
  | switched {move : LifecycleOperation} {terminated : List (String × LeaseStatus)}
      {req : LifecycleRequest} {out : Response d}
      (operation_eq : operation = .lifecycle move terminated req)
      (done : Switched svc move clock req db db' out) (id_eq : leaseId = req.leaseId)
      (status_eq : lease'.status = done.status) (expiry_eq : lease'.expiresAtNs = lease.expiresAtNs)
      (issued_eq : lease'.issuedAtNs = lease.issuedAtNs)
      (residual_eq : lease'.residual = lease.residual)
  | closed {terminated : List (String × LeaseStatus)} {req : LifecycleRequest} {out : Response d}
      (operation_eq : operation = .lifecycle .close terminated req)
      (done : Closed svc clock terminated req db db' out) (id_eq : leaseId = req.leaseId)
      (status_eq : lease'.status = .closed) (expiry_eq : lease'.expiresAtNs = lease.expiresAtNs)
      (issued_eq : lease'.issuedAtNs = lease.issuedAtNs)
      (residual_eq : lease'.residual = .zero d)
  | revoked {branch : String} (live : lease.status.isLiveLease = true)
      (beneath : leaseId = branch ∨ branch ∈ lease.ancestorPath)
      (stored : RevocationKnown db db' lease.lineageId branch)
      (status_eq : lease'.status = .revoked) (expiry_eq : lease'.expiresAtNs = lease.expiresAtNs)
      (issued_eq : lease'.issuedAtNs = lease.issuedAtNs)
      (residual_eq : lease'.residual = lease.residual)
  | expired (reads : operation.readsClock = true) (live : lease.status.isLive = true)
      (past : lease.expiresAtNs + db.envelope.receiptTtlNs + clock.uncertaintyNs ≤ clock.nowNs)
      (status_eq : lease'.status = .expired) (expiry_eq : lease'.expiresAtNs = lease.expiresAtNs)
      (issued_eq : lease'.issuedAtNs = lease.issuedAtNs)
      (residual_eq : lease'.residual = .zero d)
      {identity : IdentityContext} {tenantId envelopeId : Option String}
      (operation_eq : operation = .reclaimExpired identity tenantId envelopeId)
      (done : Reclaimed svc clock db db')

inductive RowNew (svc : WardenService d Hash) (clock : Reading) (db db' : Database d Hash)
    (leaseId : String) (lease : Lease d) : Operation d → Prop
  | root {newLineageId : String} {req : IssueRootRequest d} (parent_eq : lease.parentId = none)
      (warden_eq : lease.parentWarden = none) (path_eq : lease.ancestorPath = [])
      (status_eq : lease.status = .active) {out : Response d}
      (done : RootIssued svc clock leaseId newLineageId req db db' out)
      (row_eq : lease = done.grant.toRow none done.policy.payload.initialState clock.nowNs) :
      RowNew svc clock db db' leaseId lease (.issueRoot leaseId newLineageId req)
  | child {req : SpawnRequest d} {out : Response d}
      (done : Spawned svc clock leaseId req db db' out)
      (parent_eq : lease.parentId = some req.parentId) (warden_eq : lease.parentWarden = none)
      (lineage_eq : lease.lineageId = done.parent.lineageId)
      (path_eq : lease.ancestorPath = done.parent.ancestorPath ++ [req.parentId])
      (status_eq : lease.status = .active)
      (expiry_le : lease.expiresAtNs ≤ done.parent.expiresAtNs)
      (row_eq : lease = done.grant.toRow none done.policy.payload.initialState clock.nowNs) :
      RowNew svc clock db db' leaseId lease (.spawn leaseId req)
  | remote {identity : IdentityContext} {voucher : TransferVoucher d} {request : LeaseRequest}
      {out : Response d} (done : Credited svc clock voucher db db' out)
      (child_eq : done.child = some (request, .issued))
      (request_eq : voucher.leaseRequest = some request) (id_eq : request.childLeaseId = leaseId)
      (fresh : clock.nowNs + clock.uncertaintyNs < request.expiresAtNs)
      (notRevoked : db.pathRevoked request.lineageId request.ancestorPath = false)
      (parent_eq : lease.parentId = none) (warden_eq : lease.parentWarden = some voucher.sourceWarden)
      (lineage_eq : lease.lineageId = request.lineageId)
      (path_eq : lease.ancestorPath = request.ancestorPath) (status_eq : lease.status = .active)
      (expiry_eq : lease.expiresAtNs = request.expiresAtNs) {signature : String}
      (row_eq : lease = svc.requestedRow clock db done.policy voucher request signature)
      (declared : request.capabilities ⊆ done.policy.declaredCapabilities)
      (valid : (svc.requestedGrant clock db done.policy voucher request).validate = .ok ()) :
      RowNew svc clock db db' leaseId lease (.acceptTransfer identity voucher)

variable {leases : Table String (Lease d)} {child : Option (LeaseRequest × ChildOutcome)}

theorem Admits.lookup_kept {svc : WardenService d Hash} {clock : Reading}
    {voucher : TransferVoucher d} {policy : PolicyRow d} {db : Database d Hash}
    {total freePool : ResourceVector d} {leaseId : String} {lease : Lease d}
    (h : Admits svc clock voucher policy db leases total freePool child)
    (hlease : db.leases.lookup leaseId = some lease) : leases.lookup leaseId = some lease := by
  cases h with
  | pool | fenced => exact hlease
  | issued _ child_new => exact Table.lookup_insert_of_new child_new hlease

theorem Admits.issued_of_new {svc : WardenService d Hash} {clock : Reading}
    {voucher : TransferVoucher d} {policy : PolicyRow d} {db : Database d Hash}
    {total freePool : ResourceVector d} {leaseId : String} {lease : Lease d}
    (h : Admits svc clock voucher policy db leases total freePool child)
    (hnew : leaseId ∉ db.leases) (hlease : leases.lookup leaseId = some lease) :
    ∃ request signature, voucher.leaseRequest = some request ∧ child = some (request, .issued) ∧
      clock.nowNs + clock.uncertaintyNs < request.expiresAtNs ∧
      db.pathRevoked request.lineageId request.ancestorPath = false ∧
      request.childLeaseId = leaseId ∧
      lease = svc.requestedRow clock db policy voucher request signature ∧
      request.capabilities ⊆ policy.declaredCapabilities ∧
      (svc.requestedGrant clock db policy voucher request).validate = .ok () := by
  cases h with
  | pool | fenced => exact absurd (Table.mem_of_lookup hlease) hnew
  | @issued request signature _ request_eq child_new fresh notRevoked _ declared valid =>
    rw [Table.lookup_insert_eq] at hlease
    split_ifs at hlease with hid
    · exact ⟨request, signature, request_eq, rfl, fresh, notRevoked, hid.symm,
        (Option.some.inj hlease).symm, declared, valid⟩
    · exact absurd (Table.mem_of_lookup hlease) hnew

namespace Effect

variable {svc : WardenService d Hash} {clock : Reading} {operation : Operation d}
  {db db' : Database d Hash} {out : Response d}

variable {leaseId : String} {lease : Lease d}

theorem row_step_of_materialized {lineageId branch : String} {affected : List String}
    {db₀ : Database d Hash} {marked : Database d Hash}
    (hmarked : Database.Materialized lineageId branch clock.nowNs affected db₀ marked)
    (hleases₀ : db₀.leases = db.leases) (hleases : db'.leases = marked.leases)
    (hstored : RevocationKnown db db' lineageId branch)
    (hlease : db.leases.lookup leaseId = some lease) : ∃ lease',
      db'.leases.lookup leaseId = some lease' ∧ lease'.terms = lease.terms ∧
        RowStep svc clock operation db db' leaseId lease lease' := by
  have hrows : db'.leases = db.leases.updateAll affected fun _ => Lease.revoked clock.nowNs := by
    rw [hleases, hmarked.result, ← hleases₀]
  have hlookup := Table.lookup_updateAll affected (fun _ => Lease.revoked clock.nowNs) db.leases
    leaseId
  rw [← hrows] at hlookup
  by_cases hmem : leaseId ∈ affected
  · obtain ⟨lease₀, hlease₀, rfl, hlive, hbeneath⟩ := hmarked.beneath leaseId hmem
    rw [hleases₀] at hlease₀
    obtain rfl := some_unique hlease hlease₀
    rw [if_pos hmem, hlease, Option.map_some] at hlookup
    have hrow : lease.revoked clock.nowNs = { lease with
        status := .revoked, sequence := lease.sequence + 1, updatedAtNs := clock.nowNs } :=
      if_pos hlive
    refine ⟨_, hlookup, ?_, .revoked hlive hbeneath hstored ?_ ?_ ?_ ?_⟩
    · rw [hrow]; rfl
    · rw [hrow]
    · rw [hrow]
    · rw [hrow]
    · rw [hrow]
  · rw [if_neg hmem, hlease] at hlookup
    exact ⟨lease, hlookup, rfl, .kept rfl rfl rfl (.inr rfl)⟩

theorem row_terms (h : Effect svc clock db operation db' out)
    (hlease : db.leases.lookup leaseId = some lease) : ∃ lease',
      db'.leases.lookup leaseId = some lease' ∧ lease'.terms = lease.terms ∧
        RowStep svc clock operation db db' leaseId lease lease' := by
  have hsame : db'.leases = db.leases → ∃ lease', db'.leases.lookup leaseId = some lease' ∧
      lease'.terms = lease.terms ∧ RowStep svc clock operation db db' leaseId lease lease' :=
    fun heq => ⟨lease, heq ▸ hlease, rfl, .kept rfl rfl rfl (.inr rfl)⟩
  -- one row is rewritten, all others stay
  have hupdate : ∀ {id f}, db'.leases = db.leases.update id f →
      (leaseId = id → (f lease).terms = lease.terms ∧
        RowStep svc clock operation db db' leaseId lease (f lease)) →
      ∃ lease', db'.leases.lookup leaseId = some lease' ∧ lease'.terms = lease.terms ∧
        RowStep svc clock operation db db' leaseId lease lease' := by
    intro id f heq hrow
    have hlookup := Table.lookup_update id f db.leases leaseId
    rw [← heq, hlease, Option.map_some] at hlookup
    by_cases hid : leaseId = id
    · rw [if_pos hid] at hlookup
      exact ⟨_, hlookup, hrow hid⟩
    · rw [if_neg hid] at hlookup
      exact ⟨lease, hlookup, rfl, .kept rfl rfl rfl (.inr rfl)⟩
  cases h with
  | replayed _ _ _ _ result | runtimeSet _ _ result | policyRegistered _ _ result
  | attempted _ result | prunedTerminal _ result | prunedHistory _ _ result =>
    have hleases := congrArg Database.leases result
    exact hsame hleases
  | unmoved done | prepared done | redelivered _ done | finalized _ done
  | checkpointCreated _ done | checkpointIngested _ done =>
    have hleases := congrArg Database.leases done.result
    exact hsame hleases
  | rootIssued done =>
    have hleases := congrArg Database.leases done.result
    refine ⟨lease, ?_, rfl, .kept rfl rfl rfl (.inr rfl)⟩
    rw [hleases]
    exact Table.lookup_insert_of_new done.leaseId_new hlease
  | @spawned newLeaseId req _ _ done =>
    have hleases : db'.leases = AList.insert newLeaseId _
      (db.leases.update req.parentId (debited done.residual clock.nowNs)) :=
      congrArg Database.leases done.result
    have hnew : newLeaseId ∉ db.leases.update req.parentId (debited done.residual clock.nowNs) :=
      fun hmem => done.leaseId_new (mem_update_iff.mp hmem)
    by_cases hid : leaseId = req.parentId
    · refine ⟨debited done.residual clock.nowNs lease, ?_, rfl,
        .kept rfl rfl rfl (.inl ⟨_, _, .spawned done⟩)⟩
      rw [hleases]
      refine Table.lookup_insert_of_new hnew ?_
      rw [Table.lookup_update, if_pos hid, hlease, Option.map_some]
    · refine ⟨lease, ?_, rfl, .kept rfl rfl rfl (.inr rfl)⟩
      rw [hleases]
      refine Table.lookup_insert_of_new hnew ?_
      rw [Table.lookup_update, if_neg hid, hlease]
  | remoteSpawned done =>
    have hleases := congrArg Database.leases done.result
    exact hupdate hleases fun _ => ⟨rfl, .kept rfl rfl rfl (.inl ⟨_, _, .remoteSpawned done⟩)⟩
  | authorized done =>
    have hleases := congrArg Database.leases done.result
    exact hupdate hleases fun _ => ⟨rfl, .kept rfl rfl rfl (.inl ⟨_, _, .authorized done⟩)⟩
  | @renewed req _ _ done =>
    have hleases : db'.leases = db.leases.updateAll
        (req.leaseId :: db.outlivingDescendants req.leaseId done.expiresAtNs)
        (svc.renewedRows clock.nowNs done.expiresAtNs done.signatures) :=
      congrArg Database.leases done.result
    have hlookup := Table.lookup_updateAll
      (req.leaseId :: db.outlivingDescendants req.leaseId done.expiresAtNs)
      (svc.renewedRows clock.nowNs done.expiresAtNs done.signatures) db.leases leaseId
    rw [hlease, Option.map_some, ← hleases] at hlookup
    by_cases hmem : leaseId ∈ req.leaseId :: db.outlivingDescendants req.leaseId done.expiresAtNs
    · rw [if_pos hmem] at hlookup
      exact ⟨_, hlookup, rfl, .renewed rfl done hmem rfl rfl rfl rfl⟩
    · rw [if_neg hmem] at hlookup
      exact ⟨lease, hlookup, rfl, .kept rfl rfl rfl (.inr rfl)⟩
  | switched done =>
    have hleases := congrArg Database.leases done.result
    refine hupdate hleases fun hid => ⟨rfl, .switched rfl done hid rfl rfl rfl ?_⟩
    have hrow := done.lease_eq
    rw [← hid, hlease] at hrow
    rw [Option.some.inj hrow]
    rfl
  | closed done =>
    have hleases := congrArg Database.leases done.result
    exact hupdate hleases fun hid => ⟨rfl, .closed rfl done hid rfl rfl rfl rfl⟩
  | revokedAgain branch_eq recorded scope_eq _ done =>
    have hleases := congrArg Database.leases done.result
    exact row_step_of_materialized done.materialized rfl hleases
      (.inr ⟨_, _, recorded, scope_eq, _, branch_eq, rfl⟩) hlease
  | branchRevoked _ _ _ done result =>
    have hremembered := congrArg Database.leases result
    have hstored := congrArg Database.leases done.result
    have hleases := hremembered.trans hstored
    refine row_step_of_materialized done.materialized rfl hleases (.inl ?_) hlease
    rw [result, done.result, done.materialized.result]
    exact (AList.mem_insert _).mpr (.inl rfl)
  | revocationKnown _ _ stored done =>
    have hleases := congrArg Database.leases done.result
    refine row_step_of_materialized done.materialized rfl hleases (.inl ?_) hlease
    rw [done.result, done.materialized.result]
    exact stored
  | revocationStored _ _ done =>
    have hleases := congrArg Database.leases done.result
    refine row_step_of_materialized done.materialized rfl hleases (.inl ?_) hlease
    rw [done.result, done.materialized.result]
    exact (AList.mem_insert _).mpr (.inl rfl)
  | reclaimed _ done =>
    have hleases : db'.leases = db.leases.updateAll (db.reclaimableLeases clock)
      fun _ => Lease.expired clock.nowNs := congrArg Database.leases done.result
    have hlookup := Table.lookup_updateAll (db.reclaimableLeases clock)
      (fun _ => Lease.expired clock.nowNs) db.leases leaseId
    rw [hlease, Option.map_some, ← hleases] at hlookup
    by_cases hmem : leaseId ∈ db.reclaimableLeases clock
    · rw [if_pos hmem] at hlookup
      obtain ⟨lease₀, hlease₀, hlive, hpast⟩ := Database.mem_reclaimableLeases hmem
      obtain rfl := some_unique hlease hlease₀
      exact ⟨_, hlookup, rfl, .expired rfl hlive hpast rfl rfl rfl rfl rfl done⟩
    · rw [if_neg hmem] at hlookup
      exact ⟨lease, hlookup, rfl, .kept rfl rfl rfl (.inr rfl)⟩
  | credited _ done =>
    have hleases : db'.leases = done.leases := congrArg Database.leases done.result
    refine ⟨lease, ?_, rfl, .kept rfl rfl rfl (.inr rfl)⟩
    rw [hleases]
    exact done.admits.lookup_kept hlease

theorem row_step (h : Effect svc clock db operation db' out)
    (hlease : db.leases.lookup leaseId = some lease) : ∃ lease',
      db'.leases.lookup leaseId = some lease' ∧ lease'.origin = lease.origin ∧
        RowStep svc clock operation db db' leaseId lease lease' := by
  obtain ⟨lease', hlease', hterms, hstep⟩ := h.row_terms hlease
  exact ⟨lease', hlease', congrArg Prod.fst hterms, hstep⟩

variable {leases : Table String (Lease d)} {f : String → Lease d → Lease d}

theorem lookup_updateAll_none {ids : List String} (h : leaseId ∉ leases) :
    leaseId ∉ leases.updateAll ids f := by
  rw [Table.mem_iff_lookup, Table.lookup_updateAll]
  rw [Table.mem_iff_lookup] at h
  split_ifs <;> simp_all

theorem row_new (h : Effect svc clock db operation db' out) (hnew : leaseId ∉ db.leases)
    (hlease : db'.leases.lookup leaseId = some lease) :
    RowNew svc clock db db' leaseId lease operation := by
  have habsent : ∀ {leases : Table String (Lease d)}, db'.leases = leases → leaseId ∉ leases →
      RowNew svc clock db db' leaseId lease operation := by
    intro leases heq hmem
    exact absurd (Table.mem_of_lookup hlease) (heq ▸ hmem)
  have hmarks : ∀ {affected}, (db.leases.updateAll affected fun _ =>
      Lease.revoked clock.nowNs).lookup leaseId = some lease →
      RowNew svc clock db db' leaseId lease operation := by
    intro affected hrow
    exact absurd (Table.mem_of_lookup hrow) (lookup_updateAll_none hnew)
  cases h with
  | replayed _ _ _ _ result | runtimeSet _ _ result | policyRegistered _ _ result
  | attempted _ result | prunedTerminal _ result | prunedHistory _ _ result =>
    have hleases := congrArg Database.leases result
    exact habsent hleases hnew
  | unmoved done | prepared done | redelivered _ done | finalized _ done
  | checkpointCreated _ done | checkpointIngested _ done =>
    have hleases := congrArg Database.leases done.result
    exact habsent hleases hnew
  | remoteSpawned done | authorized done | switched done | closed done =>
    have hleases := congrArg Database.leases done.result
    exact habsent hleases fun hmem => hnew (mem_update_iff.mp hmem)
  | renewed done | reclaimed _ done =>
    have hleases := congrArg Database.leases done.result
    exact habsent hleases (lookup_updateAll_none hnew)
  | revokedAgain _ _ _ _ done | revocationKnown _ _ _ done | revocationStored _ _ done =>
    rw [done.result, done.materialized.result] at hlease
    exact hmarks hlease
  | branchRevoked _ _ _ done result =>
    rw [result, done.result, done.materialized.result] at hlease
    exact hmarks hlease
  | @rootIssued newLeaseId newLineageId req _ _ done =>
    have hleases : db'.leases = AList.insert newLeaseId _ db.leases :=
      congrArg Database.leases done.result
    rw [hleases, Table.lookup_insert_eq] at hlease
    split_ifs at hlease with hid
    · subst hid
      obtain rfl := Option.some.inj hlease
      refine .root ?_ ?_ ?_ rfl done rfl
      · rw [done.grant_eq]; rfl
      · rw [done.grant_eq]; rfl
      · rw [done.grant_eq]; rfl
    · exact absurd (Table.mem_of_lookup hlease) hnew
  | @spawned newLeaseId req _ _ done =>
    have hleases : db'.leases = AList.insert newLeaseId _
      (db.leases.update req.parentId (debited done.residual clock.nowNs)) :=
      congrArg Database.leases done.result
    rw [hleases, Table.lookup_insert_eq] at hlease
    split_ifs at hlease with hid
    · subst hid
      obtain rfl := Option.some.inj hlease
      refine .child done ?_ ?_ ?_ ?_ rfl ?_ rfl
      · rw [done.grant_eq]; rfl
      · rw [done.grant_eq]; rfl
      · rw [done.grant_eq]; rfl
      · rw [done.grant_eq]; rfl
      · rw [done.grant_eq]; exact min_le_right _ _
    · exact absurd (mem_update_iff.mp (Table.mem_of_lookup hlease)) hnew
  | @credited identity voucher _ _ shown done =>
    have hleases : db'.leases = done.leases := congrArg Database.leases done.result
    rw [hleases] at hlease
    obtain ⟨request, signature, hrequest, hchild, hfresh, hrevoked, hrow⟩ :=
      done.admits.issued_of_new hnew hlease
    obtain ⟨hid, rfl, hdeclared, hvalid⟩ := hrow
    exact .remote done hchild hrequest hid hfresh hrevoked rfl rfl rfl rfl rfl rfl rfl hdeclared
      hvalid

theorem sumOf_updateAll {ids : List String}
    (hf : ∀ id lease, (f id lease).residual = lease.residual) (i : Fin d) :
    ((leases.updateAll ids f).sumOf fun _ lease => lease.residual i) =
      leases.sumOf fun _ lease => lease.residual i := by
  rw [Table.updateAll, Table.sumOf_mapRows]
  refine Table.sumOf_congr fun id lease _ => ?_
  split_ifs
  · rw [hf]
  · rfl

theorem revoked_residual (nowNs : ℕ) (lease : Lease d) :
    (lease.revoked nowNs).residual = lease.residual := by
  unfold Lease.revoked
  split_ifs <;> rfl

theorem Admits.residualSum {voucher : TransferVoucher d} {policy : PolicyRow d}
    {total freePool : ResourceVector d} {child : Option (LeaseRequest × ChildOutcome)}
    (h : Admits svc clock voucher policy db leases total freePool child) (hsum : db.ResidualSum)
    (i : Fin d) : total i = leases.sumOf fun _ lease => lease.residual i := by
  cases h with
  | pool | fenced => exact hsum i
  | issued _ child_new _ _ total_eq =>
    rw [Database.sumOf_insert_lease child_new, total_eq, hsum i, add_comm]
    rfl

theorem residualSum (h : Effect svc clock db operation db' out) (hsum : db.ResidualSum) :
    db'.ResidualSum := by
  have hsame : db'.leases = db.leases → db'.leaseResidual = db.leaseResidual →
      db'.ResidualSum := by
    intro hleases htotal i
    rw [hleases, htotal]
    exact hsum i
  have hupdateAll : ∀ {ids f}, db'.leases = db.leases.updateAll ids f →
      db'.leaseResidual = db.leaseResidual → (∀ id lease, (f id lease).residual = lease.residual) →
      db'.ResidualSum := by
    intro ids f hleases htotal hf i
    rw [hleases, htotal, sumOf_updateAll hf]
    exact hsum i
  have hupdate : ∀ {id f lease}, db'.leases = db.leases.update id f →
      db.leases.lookup id = some lease →
      (∀ i, db'.leaseResidual i + lease.residual i = db.leaseResidual i + (f lease).residual i) →
      db'.ResidualSum := by
    intro id f lease hleases hlease htotal i
    have hmoved := Database.sumOf_update_lease (f := f) hlease i
    rw [← hleases] at hmoved
    have := htotal i
    have := hsum i
    omega
  have hmarks : ∀ {affected} i, db.leaseResidual i = Table.sumOf (fun _ lease => lease.residual i)
      (db.leases.updateAll affected fun _ => Lease.revoked clock.nowNs) :=
    fun i => (hsum i).trans (sumOf_updateAll (fun _ => revoked_residual _) i).symm
  cases h with
  | replayed _ _ _ _ result | runtimeSet _ _ result | policyRegistered _ _ result
  | attempted _ result | prunedTerminal _ result | prunedHistory _ _ result =>
    have hleases := congrArg Database.leases result
    have htotal := congrArg Database.leaseResidual result
    exact hsame hleases htotal
  | unmoved done | prepared done | redelivered _ done | finalized _ done
  | checkpointCreated _ done | checkpointIngested _ done =>
    have hleases := congrArg Database.leases done.result
    have htotal := congrArg Database.leaseResidual done.result
    exact hsame hleases htotal
  | @rootIssued newLeaseId newLineageId req _ _ done =>
    have hleases : db'.leases = AList.insert newLeaseId _ db.leases :=
      congrArg Database.leases done.result
    have htotal : db'.leaseResidual = done.total := congrArg Database.leaseResidual done.result
    have halloc : done.grant.allocation = req.allocation := by rw [done.grant_eq]; rfl
    intro i
    rw [hleases, htotal, Database.sumOf_insert_lease done.leaseId_new, done.total_eq, hsum i,
      add_comm]
    exact congrArg (· + _) (congrArg (fun v : ResourceVector d => v i) halloc).symm
  | @spawned newLeaseId req _ _ done =>
    have hleases : db'.leases = AList.insert newLeaseId _
      (db.leases.update req.parentId (debited done.residual clock.nowNs)) :=
      congrArg Database.leases done.result
    have htotal : db'.leaseResidual = done.total := congrArg Database.leaseResidual done.result
    have halloc : done.grant.allocation = req.allocation := by rw [done.grant_eq]; rfl
    intro i
    have hparent := Database.sumOf_update_lease (f := debited done.residual clock.nowNs)
      done.parent_eq i
    have hrow : ((done.grant.toRow none done.policy.payload.initialState clock.nowNs).residual) i =
        req.allocation i := congrArg (fun v : ResourceVector d => v i) halloc
    have hdebit : (debited done.residual clock.nowNs done.parent).residual i = done.residual i := rfl
    have hgiven := done.residual_eq i
    have hdb := hsum i
    rw [hleases, htotal, Database.sumOf_insert_lease
      (fun hmem => done.leaseId_new (mem_update_iff.mp hmem)), done.total_eq]
    omega
  | remoteSpawned done =>
    have hleases := congrArg Database.leases done.result
    have htotal : db'.leaseResidual = done.total := congrArg Database.leaseResidual done.result
    refine hupdate hleases done.parent_eq fun i => ?_
    have hdebit : (debited done.residual clock.nowNs done.parent).residual i = done.residual i := rfl
    have hgiven := done.residual_eq i
    have hmoved := done.total_eq i
    rw [htotal]
    omega
  | authorized done =>
    have hleases := congrArg Database.leases done.result
    have htotal : db'.leaseResidual = done.total := congrArg Database.leaseResidual done.result
    refine hupdate hleases done.lease_eq fun i => ?_
    have hcharged : (charged done.rule done.residual (done.lease.sequence + 1) clock.nowNs
      done.lease).residual i = done.residual i := rfl
    have hpaid := done.residual_eq i
    have hmoved := done.total_eq i
    rw [htotal]
    omega
  | switched done | closed done =>
    have hleases := congrArg Database.leases done.result
    have htotal : db'.leaseResidual = done.total := congrArg Database.leaseResidual done.result
    refine hupdate hleases done.lease_eq fun i => ?_
    rw [htotal, done.total_eq i]
    rfl
  | renewed done =>
    have hleases := congrArg Database.leases done.result
    have htotal := congrArg Database.leaseResidual done.result
    exact hupdateAll hleases htotal fun _ _ => rfl
  | reclaimed _ done => exact done.residualSum hsum
  | revokedAgain _ _ _ _ done | revocationKnown _ _ _ done | revocationStored _ _ done =>
    rw [done.result, done.materialized.result]
    exact hmarks
  | branchRevoked _ _ _ done result =>
    rw [result, done.result, done.materialized.result]
    exact hmarks
  | credited _ done =>
    have hleases : db'.leases = done.leases := congrArg Database.leases done.result
    have htotal : db'.leaseResidual = done.leaseResidual :=
      congrArg Database.leaseResidual done.result
    intro i
    rw [hleases, htotal]
    exact Admits.residualSum done.admits hsum i

end Effect

end WardenService

end Lets
