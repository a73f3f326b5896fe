import Lets.LeaseRows
import Lets.Sample

set_option autoImplicit false

/-!
# The lease tree of one warden

What ties the rows of one warden together along every run: a local child stands below its parent in
the same lineage and, while it is live, expires no later; a revoked row is beneath a stored
revocation; an expired row is past the clock floor; and when a lease is closed its children are over.
-/

namespace Lets

open Library

variable {d : ℕ} {Hash : Type}

/-- The lease that an operation puts to use: a transition is authorized on it, a child is taken from
it, or it is renewed or resumed. -/
def Operation.uses : Operation d → Option String
  | authorize _ req => some req.leaseId
  | spawn _ req => some req.parentId
  | spawnRemote _ _ req => some req.parentId
  | renew req => some req.leaseId
  | lifecycle .resume _ req => some req.leaseId
  | _ => none

/-- The operation is not a repetition of a request that has been answered. -/
def Operation.IsNew (operation : Operation d) (db : Database d Hash) : Prop :=
  ∀ scope requestId, operation.request = some (scope, requestId) →
    db.idempotency.lookup requestId = none

/-- An operation on a lease that, if it is to resume it, finds it suspended. -/
def Operation.Resumes (operation : Operation d) (lease : Lease d) : Prop :=
  ∀ terminated req, operation = .lifecycle .resume terminated req → lease.status = .quiescent

theorem Operation.revokeBranch_of_request {operation : Operation d} {branch requestId : String}
    (h : operation.request = some ("revoke:" ++ branch, requestId)) :
    ∃ req, operation = .revokeBranch req ∧ req.leaseId = branch ∧ req.requestId = requestId := by
  -- the scopes of different operations differ within their first three characters
  have hscope : ∀ scope id, operation.request = some (scope, id) →
      scope.toList = ("revoke:" ++ branch).toList := by
    intro scope id heq
    rw [h] at heq
    rw [(Prod.mk.inj (Option.some.inj heq)).1]
  cases operation with
  | revokeBranch req =>
    obtain ⟨hscope, hid⟩ := Prod.mk.inj (Option.some.inj h)
    have hlist := congrArg String.toList hscope
    rw [String.toList_append, String.toList_append, List.append_cancel_left_eq] at hlist
    exact ⟨req, rfl, String.toList_inj.mp hlist, hid⟩
  | lifecycle move terminated req =>
    have hlist := hscope _ _ rfl
    cases move <;> simp [LifecycleOperation.name] at hlist
  | setRuntimeMode req => exact absurd (hscope _ _ rfl) (by simp)
  | issueRoot newLeaseId newLineageId req => exact absurd (hscope _ _ rfl) (by simp)
  | spawn newLeaseId req => exact absurd (hscope _ _ rfl) (by simp)
  | spawnRemote newLeaseId newTransferId req => exact absurd (hscope _ _ rfl) (by simp)
  | authorize newReceiptId req => exact absurd (hscope _ _ rfl) (by simp)
  | renew req => exact absurd (hscope _ _ rfl) (by simp)
  | prepareTransfer newTransferId req => exact absurd (hscope _ _ rfl) (by simp)
  | registerPolicy | ingestRevocation | reclaimExpired | acceptTransfer | finalizeTransfer
  | createTransferCheckpoint | ingestTransferCheckpoint | recordAttempt | pruneTerminal
  | pruneCompactedTransferHistory => exact absurd h (by rintro ⟨⟩)

def Database.Expired (leaseId : String) (db : Database d Hash) : Prop :=
  ∃ lease, db.leases.lookup leaseId = some lease ∧ lease.status = .expired

namespace WardenService

variable {svc : WardenService d Hash} {clock : Reading} {operation : Operation d}
  {db db' : Database d Hash} {out : Response d} {leaseId : String} {lease lease' : Lease d}

namespace RowStep

variable (h : RowStep svc clock operation db db' leaseId lease lease')
  (hlease : db.leases.lookup leaseId = some lease)

include h hlease

theorem isLive_of_isLive (hlive : lease'.status.isLive = true) : lease.status.isLive = true := by
  cases h with
  | kept status_eq | renewed _ _ _ status_eq => rwa [status_eq] at hlive
  | switched _ done id_eq =>
    obtain rfl : lease = done.lease :=
      Option.some.inj (hlease.symm.trans (id_eq ▸ done.lease_eq))
    rcases done.moves with ⟨_, hstatus, _⟩ | ⟨_, _, hstatus, _⟩ <;> rw [hstatus] <;> rfl
  | closed _ _ _ status_eq | expired _ _ _ status_eq =>
    rw [status_eq] at hlive
    exact absurd hlive (by rintro ⟨⟩)
  | revoked live =>
    cases hstatus : lease.status <;> simp_all [LeaseStatus.isLive, LeaseStatus.isLiveLease]

theorem status_of_over (hover : lease.status = .closed ∨ lease.status = .expired) :
    lease'.status = lease.status := by
  cases h with
  | kept status_eq | renewed _ _ _ status_eq => exact status_eq
  | switched _ done id_eq =>
    obtain rfl : lease = done.lease :=
      Option.some.inj (hlease.symm.trans (id_eq ▸ done.lease_eq))
    rcases done.moves with ⟨_, hstatus, _⟩ | ⟨_, _, hstatus, _⟩ <;> rw [hstatus] at hover <;>
      exact absurd hover (by simp)
  | closed _ done id_eq =>
    obtain rfl : lease = done.lease :=
      Option.some.inj (hlease.symm.trans (id_eq ▸ done.lease_eq))
    rcases hover with hclosed | hexpired
    · exact absurd hclosed done.notClosed
    · exact absurd hexpired done.notExpired
  | revoked live | expired _ live =>
    rcases hover with hover | hover <;> rw [hover] at live <;> exact absurd live (by rintro ⟨⟩)

omit hlease in
theorem closed_cases (hclosed : lease'.status = .closed) :
    (lease.status = .closed ∨ ∃ terminated req, operation = .lifecycle .close terminated req ∧
      leaseId = req.leaseId ∧ ∃ out, Nonempty (Closed svc clock terminated req db db' out)) := by
  cases h with
  | kept status_eq | renewed _ _ _ status_eq => exact .inl (status_eq ▸ hclosed)
  | switched _ done _ status_eq =>
    rw [status_eq] at hclosed
    rcases done.moves with ⟨_, _, hstatus⟩ | ⟨_, _, _, hstatus⟩ <;>
      exact absurd (hclosed.symm.trans hstatus) (by simp)
  | closed operation_eq done id_eq =>
    exact .inr ⟨_, _, operation_eq, id_eq, _, ⟨done⟩⟩
  | revoked _ _ _ status_eq | expired _ _ _ status_eq =>
    exact absurd (status_eq.symm.trans hclosed) (by simp)

omit hlease in
theorem expired_cases (hexpired : lease'.status = .expired) : lease.status = .expired ∨
    lease.expiresAtNs ≤ clock.nowNs ∧ (∃ identity tenantId envelopeId,
      operation = .reclaimExpired identity tenantId envelopeId) ∧
        Nonempty (Reclaimed svc clock db db') := by
  cases h with
  | kept status_eq | renewed _ _ _ status_eq => exact .inl (status_eq ▸ hexpired)
  | switched _ done _ status_eq =>
    rw [status_eq] at hexpired
    rcases done.moves with ⟨_, _, hstatus⟩ | ⟨_, _, _, hstatus⟩ <;>
      exact absurd (hexpired.symm.trans hstatus) (by simp)
  | closed _ _ _ status_eq | revoked _ _ _ status_eq =>
    exact absurd (status_eq.symm.trans hexpired) (by simp)
  | expired _ _ past _ _ _ _ operation_eq done =>
    exact .inr ⟨by omega, ⟨_, _, _, operation_eq⟩, ⟨done⟩⟩

omit hlease in
theorem revoked_cases (hrevoked : lease'.status = .revoked) : lease.status = .revoked ∨
    ∃ branch ∈ lease.ancestorPath ++ [leaseId], RevocationKnown db db' lease.lineageId branch := by
  cases h with
  | kept status_eq | renewed _ _ _ status_eq => exact .inl (status_eq ▸ hrevoked)
  | switched _ done _ status_eq =>
    rw [status_eq] at hrevoked
    rcases done.moves with ⟨_, _, hstatus⟩ | ⟨_, _, _, hstatus⟩ <;>
      exact absurd (hrevoked.symm.trans hstatus) (by simp)
  | closed _ _ _ status_eq | expired _ _ _ status_eq =>
    exact absurd (status_eq.symm.trans hrevoked) (by simp)
  | @revoked branch _ beneath stored =>
    refine .inr ⟨branch, ?_, stored⟩
    rcases beneath with rfl | hpath
    · exact List.mem_concat_self
    · exact List.mem_append_left _ hpath

omit hlease in
theorem expiry_of_not_renewed
    (hne : ∀ req out, operation = .renew req → Renewed svc clock req db db' out → False) :
    lease'.expiresAtNs = lease.expiresAtNs := by
  cases h with
  | kept _ expiry_eq | switched _ _ _ _ expiry_eq | closed _ _ _ _ expiry_eq
  | revoked _ _ _ _ expiry_eq | expired _ _ _ _ expiry_eq => exact expiry_eq
  | renewed operation_eq done => exact (hne _ _ operation_eq done).elim

end RowStep

theorem RowNew.active (h : RowNew svc clock db db' leaseId lease operation) :
    lease.status = .active := by
  cases h with
  | root _ _ _ status_eq => exact status_eq
  | child _ _ _ _ _ status_eq => exact status_eq
  | remote _ _ _ _ _ _ _ _ _ _ status_eq => exact status_eq

theorem BranchRevoked.revocations_eq {revocation : BranchRevocation}
    (h : BranchRevoked svc clock revocation db db') : db'.revocations =
      db.revocations.insert (revocation.lineageId, revocation.branchLeaseId)
        ⟨revocation.epoch, clock.nowNs, revocation⟩ := by
  rw [h.result, h.materialized.result]

namespace Effect

variable (h : Effect svc clock db operation db' out)

include h

theorem row_cases (hlease' : db'.leases.lookup leaseId = some lease') :
    (∃ lease, db.leases.lookup leaseId = some lease ∧ lease'.origin = lease.origin ∧
        RowStep svc clock operation db db' leaseId lease lease') ∨
      leaseId ∉ db.leases ∧ RowNew svc clock db db' leaseId lease' operation := by
  by_cases hmem : leaseId ∈ db.leases
  · obtain ⟨lease, hlease⟩ := Table.mem_iff_lookup.mp hmem
    obtain ⟨lease₁, hlease₁, horigin, hstep⟩ := h.row_step hlease
    obtain rfl := some_unique hlease₁ hlease'
    exact .inl ⟨lease, hlease, horigin, hstep⟩
  · exact .inr ⟨hmem, h.row_new hmem hlease'⟩

theorem expired_cases (hdb' : db'.Expired leaseId) : db.Expired leaseId ∨
    ∃ identity tenantId envelopeId, operation = .reclaimExpired identity tenantId envelopeId := by
  obtain ⟨lease', hlease', hexpired⟩ := hdb'
  rcases h.row_cases hlease' with ⟨lease, hlease, _, hstep⟩ | ⟨_, hnew⟩
  · rcases hstep.expired_cases hexpired with hold | ⟨_, hoperation, _⟩
    · exact .inl ⟨lease, hlease, hold⟩
    · exact .inr hoperation
  · exact absurd (hnew.active.symm.trans hexpired) (by simp)

theorem expiry_cases : (∀ leaseId lease lease', db.leases.lookup leaseId = some lease →
        db'.leases.lookup leaseId = some lease' → lease'.expiresAtNs = lease.expiresAtNs) ∨
      ∃ req, operation = .renew req ∧ ∃ done : Renewed svc clock req db db' out,
        ∀ leaseId lease lease', db.leases.lookup leaseId = some lease →
          db'.leases.lookup leaseId = some lease' → lease'.expiresAtNs =
            if leaseId ∈ req.leaseId :: db.outlivingDescendants req.leaseId done.expiresAtNs then
              done.expiresAtNs else lease.expiresAtNs := by
  -- where the operation is no renewal of its own, no row is renewed
  have hkept : (∀ req out', operation = .renew req → Renewed svc clock req db db' out' → False) →
      ∀ leaseId lease lease', db.leases.lookup leaseId = some lease →
        db'.leases.lookup leaseId = some lease' → lease'.expiresAtNs = lease.expiresAtNs := by
    intro hne leaseId lease lease' hlease hlease'
    obtain ⟨lease₁, hlease₁, _, hstep⟩ := h.row_step hlease
    obtain rfl := some_unique hlease₁ hlease'
    exact hstep.expiry_of_not_renewed hne
  cases h with
  | @renewed req _ _ done =>
    refine .inr ⟨req, rfl, done, fun leaseId lease lease' hlease hlease' => ?_⟩
    have hleases : db'.leases = db.leases.updateAll
        (req.leaseId :: db.outlivingDescendants req.leaseId done.expiresAtNs)
        (svc.renewedRows clock.nowNs done.expiresAtNs done.signatures) :=
      congrArg Database.leases done.result
    rw [hleases, Table.lookup_updateAll, hlease, Option.map_some] at hlease'
    split_ifs at hlease' ⊢ with hmem
    · rw [← Option.some.inj hlease']
      rfl
    · rw [Option.some.inj hlease']
  | replayed request recorded =>
    refine .inl (hkept fun req out' heq done => ?_)
    rw [heq] at request
    obtain ⟨_, rfl⟩ := Prod.mk.inj (Option.some.inj request)
    exact absurd (recorded.symm.trans done.request_new) (by simp)
  | runtimeSet | policyRegistered | rootIssued | spawned | remoteSpawned | authorized | unmoved
  | switched | closed | revokedAgain | branchRevoked | revocationKnown | revocationStored
  | reclaimed | prepared | redelivered | credited | finalized | checkpointCreated
  | checkpointIngested | attempted | prunedTerminal | prunedHistory =>
    exact .inl (hkept fun _ _ heq _ => (by cases heq))

theorem revocation_step (key : String × String) :
    db'.revocations.lookup key = db.revocations.lookup key ∨
      ∃ revocation : BranchRevocation, key = (revocation.lineageId, revocation.branchLeaseId) ∧
        (∀ row, db.revocations.lookup key = some row → row.epoch < revocation.epoch) ∧
        db'.revocations.lookup key = some ⟨revocation.epoch, clock.nowNs, revocation⟩ := by
  have hstored : ∀ {revocation db₁}, BranchRevoked svc clock revocation db db₁ →
      db'.revocations = db₁.revocations → db'.revocations.lookup key = db.revocations.lookup key ∨
        ∃ revocation : BranchRevocation, key = (revocation.lineageId, revocation.branchLeaseId) ∧
          (∀ row, db.revocations.lookup key = some row → row.epoch < revocation.epoch) ∧
          db'.revocations.lookup key = some ⟨revocation.epoch, clock.nowNs, revocation⟩ := by
    intro revocation db₁ done heq
    rw [heq, done.revocations_eq, Table.lookup_insert_eq]
    by_cases hkey : key = (revocation.lineageId, revocation.branchLeaseId)
    · subst hkey
      exact .inr ⟨revocation, rfl, done.epoch_lt, if_pos rfl⟩
    · exact .inl (if_neg hkey)
  cases h with
  | replayed _ _ _ _ result | runtimeSet _ _ result | policyRegistered _ _ result
  | attempted _ result | prunedTerminal _ result | prunedHistory _ _ result =>
    rw [result]; exact .inl rfl
  | rootIssued done | spawned done | remoteSpawned done | authorized done | renewed done
  | unmoved done | switched done | closed done | prepared done => rw [done.result]; exact .inl rfl
  | redelivered _ done | credited _ done | reclaimed _ done | finalized _ done
  | checkpointCreated _ done | checkpointIngested _ done => rw [done.result]; exact .inl rfl
  | revokedAgain _ _ _ _ done | revocationKnown _ _ _ done =>
    rw [done.result, done.materialized.result]; exact .inl rfl
  | branchRevoked _ _ _ done result =>
    have hremembered := congrArg Database.revocations result
    exact hstored done hremembered
  | revocationStored _ _ done => exact hstored done rfl

theorem revocations_kept {key : String × String} (hkey : key ∈ db.revocations) :
    key ∈ db'.revocations := by
  rcases h.revocation_step key with hsame | ⟨_, _, _, hnew⟩
  · obtain ⟨row, hrow⟩ := Table.mem_iff_lookup.mp hkey
    exact Table.mem_of_lookup (hsame.trans hrow)
  · exact Table.mem_of_lookup hnew

theorem floor_kept {floor : ℕ} (hfloor : db.clockFloorNs = some floor) :
    ∃ floor', db'.clockFloorNs = some floor' ∧ floor ≤ floor' := by
  rw [h.floor_eq]
  split_ifs
  · refine ⟨_, rfl, ?_⟩
    unfold Database.advancedFloor
    rw [hfloor]
    exact le_max_left _ _
  · exact ⟨floor, hfloor, le_rfl⟩

theorem now_le_floor (hreads : operation.readsClock = true) :
    ∃ floor, db'.clockFloorNs = some floor ∧ clock.nowNs ≤ floor := by
  rw [h.floor_eq, if_pos hreads]
  refine ⟨_, rfl, ?_⟩
  unfold Database.advancedFloor
  cases db.clockFloorNs with
  | none => exact le_rfl
  | some floor => exact le_max_right _ _

end Effect

end WardenService

namespace Database

variable {db : Database d Hash} {leaseId : String} {lease : Lease d}

theorem pathRevoked_of_mem {lineageId branch : String} {path : List String}
    (hrevoked : (lineageId, branch) ∈ db.revocations) (hmem : branch ∈ path) :
    db.pathRevoked lineageId path = true := by
  unfold pathRevoked
  rw [List.any_eq_true]
  obtain ⟨row, hrow⟩ := Table.mem_iff_lookup.mp hrevoked
  exact ⟨branch, hmem, by rw [hrow]; rfl⟩

theorem leaseRevoked_iff : db.leaseRevoked leaseId lease = true ↔
    ∃ branch ∈ lease.ancestorPath ++ [leaseId], (lease.lineageId, branch) ∈ db.revocations := by
  unfold leaseRevoked pathRevoked
  rw [List.any_eq_true]
  refine exists_congr fun branch => and_congr_right fun _ => ?_
  rw [Table.mem_iff_lookup, Option.isSome_iff_exists]

/-- The row can no longer be put to use: the lease is over, beneath a revoked branch, or past the
clock floor. -/
def Dead (leaseId : String) (lease : Lease d) (db : Database d Hash) : Prop :=
  (∃ floor, db.clockFloorNs = some floor ∧ lease.expiresAtNs ≤ floor) ∨
    db.leaseRevoked leaseId lease = true ∨ lease.status = .closed ∨ lease.status = .expired

end Database

namespace WardenService

variable {svc : WardenService d Hash} {clock : Reading} {operation : Operation d}
  {db db' : Database d Hash} {out : Response d} {leaseId : String} {lease lease' : Lease d}

namespace Effect

theorem leaseRevoked_kept (h : Effect svc clock db operation db' out)
    (horigin : lease'.origin = lease.origin) (hrevoked : db.leaseRevoked leaseId lease = true) :
    db'.leaseRevoked leaseId lease' = true := by
  have hlineage : lease'.lineageId = lease.lineageId := congrArg Prod.fst horigin
  have hpath : lease'.ancestorPath = lease.ancestorPath := congrArg (fun x => x.2.2.2.2) horigin
  obtain ⟨branch, hmem, hstored⟩ := Database.leaseRevoked_iff.mp hrevoked
  refine Database.leaseRevoked_iff.mpr ⟨branch, hpath ▸ hmem, ?_⟩
  rw [hlineage]
  exact h.revocations_kept hstored

/-- Putting a lease to use, in a request that is new, takes a lease that is live, fresh and not
revoked. -/
theorem of_use (h : Effect svc clock db operation db' out) (huse : operation.uses = some leaseId)
    (hnew : operation.IsNew db) (hlease : db.leases.lookup leaseId = some lease)
    (hresumes : operation.Resumes lease) :
    clock.nowNs + clock.uncertaintyNs < lease.expiresAtNs ∧ lease.status.isRenewable = true ∧
      db.leaseRevoked leaseId lease = false := by
  cases h with
  | replayed request recorded => exact absurd (recorded.symm.trans (hnew _ _ request)) (by simp)
  | authorized done =>
    obtain rfl := Option.some.inj huse
    obtain rfl := some_unique hlease done.lease_eq
    exact ⟨done.leaseFresh, by rw [done.active]; rfl, done.notRevoked⟩
  | spawned done | remoteSpawned done =>
    obtain rfl := Option.some.inj huse
    obtain rfl := some_unique hlease done.parent_eq
    exact ⟨done.parentFresh, by rw [done.parentActive]; rfl, done.parentNotRevoked⟩
  | renewed done =>
    obtain rfl := Option.some.inj huse
    obtain rfl := some_unique hlease done.lease_eq
    exact ⟨done.leaseFresh, done.renewable, done.notRevoked⟩
  | unmoved done =>
    rcases done.already with ⟨rfl, _⟩ | ⟨rfl, hactive⟩ | ⟨rfl, _⟩
    · exact absurd huse (by rintro ⟨⟩)
    · obtain rfl := Option.some.inj huse
      obtain rfl := some_unique hlease done.lease_eq
      exact absurd (hactive.symm.trans (hresumes _ _ rfl)) (by simp)
    · exact absurd huse (by rintro ⟨⟩)
  | switched done =>
    rcases done.moves with ⟨rfl, _⟩ | ⟨rfl, _, hstatus, _⟩
    · exact absurd huse (by rintro ⟨⟩)
    · obtain rfl := Option.some.inj huse
      obtain rfl := some_unique hlease done.lease_eq
      exact ⟨done.leaseFresh, by rw [hstatus]; rfl, done.notRevoked⟩
  | runtimeSet | policyRegistered | rootIssued | closed | revokedAgain | branchRevoked
  | revocationKnown | revocationStored | reclaimed | prepared | redelivered | credited | finalized
  | checkpointCreated | checkpointIngested | attempted | prunedTerminal | prunedHistory =>
    exact absurd huse (by rintro ⟨⟩)

end Effect

theorem rejects_of_dead {operation : Operation d} (huse : operation.uses = some leaseId)
    (hnew : operation.IsNew db) (hlease : db.leases.lookup leaseId = some lease)
    (hresumes : operation.Resumes lease) (hdead : db.Dead leaseId lease) :
    svc.Rejects clock operation db := by
  refine rejects_of_not_ok fun db' out hexec => ?_
  obtain ⟨hclock, _, heffect⟩ := exec_ok hexec
  obtain ⟨hfresh, hrenewable, hrevoked⟩ := heffect.of_use huse hnew hlease hresumes
  have hreads : operation.readsClock = true := by
    cases operation <;> simp_all [Operation.uses, Operation.readsClock]
  rcases hdead with ⟨floor, hfloor, hpast⟩ | hrevoked' | hover | hover
  · have hle := (hclock hreads).floor_le floor hfloor
    omega
  · exact absurd (hrevoked'.symm.trans hrevoked) (by simp)
  · rw [hover] at hrenewable
    exact absurd hrenewable (by rintro ⟨⟩)
  · rw [hover] at hrenewable
    exact absurd hrenewable (by rintro ⟨⟩)

def leaseStatuses : List LeaseStatus := [.active, .quiescent, .revoked, .expired, .closed]

theorem over_of_not_live {status : LeaseStatus} (hmem : status ∈ leaseStatuses)
    (hlive : ¬status.isLive = true) : status = .closed ∨ status = .expired := by
  cases status <;> simp_all [leaseStatuses, LeaseStatus.isLive]

structure LeaseTree (db : Database d Hash) : Prop where
  statuses : ∀ leaseId lease, db.leases.lookup leaseId = some lease → lease.status ∈ leaseStatuses
  parent : ∀ leaseId lease parentId, db.leases.lookup leaseId = some lease →
    lease.parentId = some parentId → ∃ parent, db.leases.lookup parentId = some parent ∧
      lease.lineageId = parent.lineageId ∧ lease.ancestorPath = parent.ancestorPath ++ [parentId]
  nested : ∀ leaseId lease parentId parent, db.leases.lookup leaseId = some lease →
    lease.parentId = some parentId → db.leases.lookup parentId = some parent →
      lease.status.isLive = true → lease.expiresAtNs ≤ parent.expiresAtNs
  expired : ∀ leaseId lease, db.leases.lookup leaseId = some lease → lease.status = .expired →
    ∃ floor, db.clockFloorNs = some floor ∧ lease.expiresAtNs ≤ floor
  revokeScope : ∀ requestId row branch, db.idempotency.lookup requestId = some row →
    row.scope = "revoke:" ++ branch → ∃ root, db.leases.lookup branch = some root ∧
      (root.lineageId, branch) ∈ db.revocations
  revoked : ∀ leaseId lease, db.leases.lookup leaseId = some lease → lease.status = .revoked →
    db.leaseRevoked leaseId lease = true
  closedChildren : ∀ leaseId lease parentId parent, db.leases.lookup leaseId = some lease →
    lease.parentId = some parentId → db.leases.lookup parentId = some parent →
      parent.status = .closed → db.Dead leaseId lease

namespace Effect

theorem dead_kept (h : Effect svc clock db operation db' out)
    (hclock : operation.readsClock = true → db.ClockSafe clock)
    (hlease : db.leases.lookup leaseId = some lease)
    (hlease' : db'.leases.lookup leaseId = some lease') (hdead : db.Dead leaseId lease) :
    db'.Dead leaseId lease' := by
  obtain ⟨lease₁, hlease₁, horigin, hstep⟩ := h.row_step hlease
  obtain rfl := some_unique hlease₁ hlease'
  rcases hdead with ⟨floor, hfloor, hpast⟩ | hrevoked | hover
  · obtain ⟨floor', hfloor', hle⟩ := h.floor_kept hfloor
    refine .inl ⟨floor', hfloor', ?_⟩
    rcases h.expiry_cases with hsame | ⟨req, rfl, done, hmoved⟩
    · rw [hsame _ _ _ hlease hlease']
      omega
    · rw [hmoved _ _ _ hlease hlease']
      split_ifs with hmem
      · rcases List.mem_cons.mp hmem with rfl | hmem
        · -- the floor has passed its expiry, so it could not have been renewed
          obtain rfl := some_unique hlease done.lease_eq
          have hsafe := (hclock rfl).floor_le floor hfloor
          have hfresh := done.leaseFresh
          omega
        · obtain ⟨lease₂, hlease₂, _, hlt, _⟩ := mem_outlivingDescendants hmem
          obtain rfl := some_unique hlease hlease₂
          omega
      · omega
  · exact .inr (.inl (h.leaseRevoked_kept horigin hrevoked))
  · rw [← hstep.status_of_over hlease hover] at hover
    exact .inr (.inr hover)

theorem revocation_stored {req : RevokeBranchRequest}
    (h : Effect svc clock db (.revokeBranch req) db' out)
    (hnew : db.idempotency.lookup req.requestId = none) : ∃ root,
      db.leases.lookup req.leaseId = some root ∧ (root.lineageId, req.leaseId) ∈ db'.revocations := by
  cases h with
  | replayed request recorded =>
    obtain ⟨_, rfl⟩ := Prod.mk.inj (Option.some.inj request)
    exact absurd (recorded.symm.trans hnew) (by simp)
  | revokedAgain _ recorded => exact absurd (recorded.symm.trans hnew) (by simp)
  | branchRevoked branch_eq _ _ done result =>
    refine ⟨_, branch_eq, ?_⟩
    rw [result, done.result, done.materialized.result]
    exact (AList.mem_insert _).mpr (.inl rfl)

end Effect

namespace LeaseTree

theorem genesis (svc : WardenService d Hash) (envelope : Envelope d) :
    LeaseTree (.genesis svc.wardenId svc.keyId envelope : Database d Hash) where
  statuses _ _ h := (by cases h)
  parent _ _ _ h := (by cases h)
  nested _ _ _ _ h := (by cases h)
  expired _ _ h := (by cases h)
  revokeScope _ _ _ h := (by cases h)
  revoked _ _ h := (by cases h)
  closedChildren _ _ _ _ h := (by cases h)

theorem dead_child (h : LeaseTree db) {parentId : String} {parent : Lease d}
    (hlease : db.leases.lookup leaseId = some lease) (hparentId : lease.parentId = some parentId)
    (hparent : db.leases.lookup parentId = some parent) (hdead : db.Dead parentId parent) :
    db.Dead leaseId lease := by
  have hpast : (∃ floor, db.clockFloorNs = some floor ∧ parent.expiresAtNs ≤ floor) →
      db.Dead leaseId lease := by
    rintro ⟨floor, hfloor, hle⟩
    by_cases hlive : lease.status.isLive = true
    · have hnested := h.nested _ _ _ _ hlease hparentId hparent hlive
      exact .inl ⟨floor, hfloor, hnested.trans hle⟩
    · exact .inr (.inr (over_of_not_live (h.statuses _ _ hlease) hlive))
  rcases hdead with hfloor | hrevoked | hclosed | hexpired
  · exact hpast hfloor
  · obtain ⟨parent', hparent', hlineage, hpath⟩ := h.parent _ _ _ hlease hparentId
    obtain rfl := some_unique hparent hparent'
    obtain ⟨branch, hmem, hstored⟩ := Database.leaseRevoked_iff.mp hrevoked
    refine .inr (.inl (Database.leaseRevoked_iff.mpr ⟨branch, ?_, hlineage ▸ hstored⟩))
    rw [hpath]
    exact List.mem_append_left _ hmem
  · exact h.closedChildren _ _ _ _ hlease hparentId hparent hclosed
  · exact hpast (h.expired _ _ hparent hexpired)

section Step

variable (h : LeaseTree db) (heffect : Effect svc clock db operation db' out)
include h heffect

theorem statuses_step (hlease' : db'.leases.lookup leaseId = some lease') :
    lease'.status ∈ leaseStatuses := by
  rcases heffect.row_cases hlease' with ⟨lease, hlease, _, hstep⟩ | ⟨_, hnew⟩
  · cases hstep with
    | kept status_eq | renewed _ _ _ status_eq =>
      rw [status_eq]
      exact h.statuses _ _ hlease
    | switched _ done _ status_eq =>
      rw [status_eq]
      rcases done.moves with ⟨_, _, hstatus⟩ | ⟨_, _, _, hstatus⟩ <;> rw [hstatus] <;> decide
    | closed _ _ _ status_eq | revoked _ _ _ status_eq | expired _ _ _ status_eq =>
      rw [status_eq]
      decide
  · rw [hnew.active]
    decide

variable {parentId : String} {parent' : Lease d}

section

variable (hlease' : db'.leases.lookup leaseId = some lease')

include hlease'

theorem child_cases (hparentId : lease'.parentId = some parentId)
    (hparent' : db'.leases.lookup parentId = some parent') :
    (∃ lease parent, db.leases.lookup leaseId = some lease ∧ lease.parentId = some parentId ∧
        db.leases.lookup parentId = some parent ∧ lease'.origin = lease.origin ∧
        parent'.origin = parent.origin ∧
        RowStep svc clock operation db db' leaseId lease lease' ∧
        RowStep svc clock operation db db' parentId parent parent') ∨
      ∃ req parent, operation = .spawn leaseId req ∧ req.parentId = parentId ∧
        db.leases.lookup parentId = some parent ∧ parent'.origin = parent.origin ∧
        parent.status = .active ∧ lease'.lineageId = parent.lineageId ∧
        lease'.ancestorPath = parent.ancestorPath ++ [parentId] ∧
        lease'.expiresAtNs ≤ parent.expiresAtNs ∧
        RowStep svc clock operation db db' parentId parent parent' := by
  rcases heffect.row_cases hlease' with ⟨lease, hlease, horigin, hstep⟩ | ⟨_, hnew⟩
  · have hsame : lease'.parentId = lease.parentId := congrArg (fun x => x.2.1) horigin
    rw [hsame] at hparentId
    obtain ⟨parent, hparent, _⟩ := h.parent _ _ _ hlease hparentId
    obtain ⟨parent₁, hparent₁, hparentOrigin, hparentStep⟩ := heffect.row_step hparent
    obtain rfl := some_unique hparent₁ hparent'
    exact .inl ⟨lease, parent, hlease, hparentId, hparent, horigin, hparentOrigin, hstep,
      hparentStep⟩
  · cases hnew with
    | root parent_eq | remote _ _ _ _ _ _ parent_eq =>
      exact absurd (parent_eq.symm.trans hparentId) (by simp)
    | @child req _ done parent_eq _ lineage_eq path_eq _ expiry_le =>
      obtain rfl := some_unique parent_eq hparentId
      obtain ⟨parent₁, hparent₁, hparentOrigin, hparentStep⟩ := heffect.row_step done.parent_eq
      obtain rfl := some_unique hparent₁ hparent'
      exact .inr ⟨req, done.parent, rfl, rfl, done.parent_eq, hparentOrigin, done.parentActive,
        lineage_eq, path_eq, expiry_le, hparentStep⟩

theorem parent_step (hparentId : lease'.parentId = some parentId) : ∃ parent,
      db'.leases.lookup parentId = some parent ∧ lease'.lineageId = parent.lineageId ∧
        lease'.ancestorPath = parent.ancestorPath ++ [parentId] := by
  -- the parent is there already, whether the child is new or not
  have hparent' : ∃ parent', db'.leases.lookup parentId = some parent' := by
    rcases heffect.row_cases hlease' with ⟨lease, hlease, horigin, _⟩ | ⟨_, hnew⟩
    · have hsame : lease'.parentId = lease.parentId := congrArg (fun x => x.2.1) horigin
      obtain ⟨parent, hparent, _⟩ := h.parent _ _ _ hlease (hsame ▸ hparentId)
      obtain ⟨parent', hparent', _⟩ := heffect.row_step hparent
      exact ⟨parent', hparent'⟩
    · cases hnew with
      | root parent_eq | remote _ _ _ _ _ _ parent_eq =>
        exact absurd (parent_eq.symm.trans hparentId) (by simp)
      | child done parent_eq =>
        obtain rfl := some_unique parent_eq hparentId
        obtain ⟨parent', hparent', _⟩ := heffect.row_step done.parent_eq
        exact ⟨parent', hparent'⟩
  obtain ⟨parent', hparent'⟩ := hparent'
  have hplace : ∀ {a b : Lease d}, a.origin = b.origin →
      a.lineageId = b.lineageId ∧ a.ancestorPath = b.ancestorPath := fun heq =>
    ⟨congrArg Prod.fst heq, congrArg (fun x => x.2.2.2.2) heq⟩
  refine ⟨parent', hparent', ?_⟩
  rcases h.child_cases heffect hlease' hparentId hparent' with
    ⟨lease, parent, hlease, hid, hparent, horigin, hparentOrigin, _, _⟩ |
    ⟨req, parent, _, _, hparent, hparentOrigin, _, hlineage, hpath, _, _⟩
  · obtain ⟨parent₁, hparent₁, hlineage, hpath⟩ := h.parent _ _ _ hlease hid
    obtain rfl := some_unique hparent₁ hparent
    rw [(hplace horigin).1, (hplace horigin).2, (hplace hparentOrigin).1,
      (hplace hparentOrigin).2]
    exact ⟨hlineage, hpath⟩
  · rw [(hplace hparentOrigin).1, (hplace hparentOrigin).2]
    exact ⟨hlineage, hpath⟩

theorem nested_step (hparentId : lease'.parentId = some parentId)
    (hparent' : db'.leases.lookup parentId = some parent') (hlive : lease'.status.isLive = true) :
    lease'.expiresAtNs ≤ parent'.expiresAtNs := by
  rcases h.child_cases heffect hlease' hparentId hparent' with
    ⟨lease, parent, hlease, hid, hparent, _, _, hstep, _⟩ |
    ⟨req, parent, rfl, rfl, hparent, _, _, _, _, hle, hparentStep⟩
  · have hold := h.nested _ _ _ _ hlease hid hparent (hstep.isLive_of_isLive hlease hlive)
    have hwas := hstep.isLive_of_isLive hlease hlive
    obtain ⟨parent₁, hparent₁, _, hpath⟩ := h.parent _ _ _ hlease hid
    obtain rfl := some_unique hparent₁ hparent
    rcases heffect.expiry_cases with hsame | ⟨req, rfl, done, hmoved⟩
    · rw [hsame _ _ _ hlease hlease', hsame _ _ _ hparent hparent']
      exact hold
    · rw [hmoved _ _ _ hlease hlease', hmoved _ _ _ hparent hparent']
      split_ifs with hchild hpar hpar
      · exact le_rfl
      · -- the parent keeps its expiry: the child is renewed beneath it, or shortened
        rcases List.mem_cons.mp hchild with rfl | hmem
        · obtain rfl := some_unique hlease done.lease_eq
          obtain ⟨parent₂, hparent₂, _, _, hle⟩ := done.parent_ok _ hid
          obtain rfl := some_unique hparent hparent₂
          exact hle
        · obtain ⟨lease₂, hlease₂, _, hlt, _⟩ := mem_outlivingDescendants hmem
          obtain rfl := some_unique hlease hlease₂
          omega
      · -- the parent is renewed or shortened, and the child below it would have been too
        by_contra hlt
        refine hchild (List.mem_cons_of_mem _ (mem_outlivingDescendants_of
          done.descendants_length hlease hwas (by omega) ?_))
        rw [hpath]
        rcases List.mem_cons.mp hpar with rfl | hmem
        · exact List.mem_concat_self
        · obtain ⟨parent₂, hparent₂, _, _, hbelow⟩ := mem_outlivingDescendants hmem
          obtain rfl := some_unique hparent hparent₂
          exact List.mem_append_left _ hbelow
      · exact hold
  · rw [hparentStep.expiry_of_not_renewed fun _ _ heq _ => (by cases heq)]
    exact hle

theorem expired_step (hexpired : lease'.status = .expired) :
    ∃ floor, db'.clockFloorNs = some floor ∧ lease'.expiresAtNs ≤ floor := by
  rcases heffect.row_cases hlease' with ⟨lease, hlease, _, hstep⟩ | ⟨_, hnew⟩
  · have hexpiry : lease'.expiresAtNs ≤ lease.expiresAtNs := by
      rcases heffect.expiry_cases with hsame | ⟨req, rfl, done, hmoved⟩
      · rw [hsame _ _ _ hlease hlease']
      · rw [hmoved _ _ _ hlease hlease']
        split_ifs with hmem
        · rcases List.mem_cons.mp hmem with rfl | hmem
          · -- an expired lease is not renewed
            obtain rfl := some_unique hlease done.lease_eq
            have hrenewable := done.renewable
            rcases hstep.expired_cases hexpired with hold | ⟨hpast, _⟩
            · rw [hold] at hrenewable
              exact absurd hrenewable (by rintro ⟨⟩)
            · have hfresh := done.leaseFresh
              omega
          · obtain ⟨lease₂, hlease₂, _, hlt, _⟩ := mem_outlivingDescendants hmem
            obtain rfl := some_unique hlease hlease₂
            omega
        · exact le_rfl
    rcases hstep.expired_cases hexpired with hold | ⟨hpast, ⟨_, _, _, rfl⟩, _⟩
    · obtain ⟨floor, hfloor, hle⟩ := h.expired _ _ hlease hold
      obtain ⟨floor', hfloor', hle'⟩ := heffect.floor_kept hfloor
      exact ⟨floor', hfloor', by omega⟩
    · obtain ⟨floor, hfloor, hle⟩ := heffect.now_le_floor rfl
      exact ⟨floor, hfloor, by omega⟩
  · exact absurd (hnew.active.symm.trans hexpired) (by simp)

end

theorem revokeScope_step {requestId branch : String} {row : IdempotencyRow d}
    (hrow : db'.idempotency.lookup requestId = some row) (hscope : row.scope = "revoke:" ++ branch) :
    ∃ root, db'.leases.lookup branch = some root ∧ (root.lineageId, branch) ∈ db'.revocations := by
  have hkept : ∀ root, db.leases.lookup branch = some root →
      (root.lineageId, branch) ∈ db'.revocations → ∃ root',
        db'.leases.lookup branch = some root' ∧ (root'.lineageId, branch) ∈ db'.revocations := by
    intro root hroot hstored
    obtain ⟨root', hroot', horigin, _⟩ := heffect.row_step hroot
    have hlineage : root'.lineageId = root.lineageId := congrArg Prod.fst horigin
    exact ⟨root', hroot', hlineage ▸ hstored⟩
  have hold : db.idempotency.lookup requestId = some row → ∃ root,
      db'.leases.lookup branch = some root ∧ (root.lineageId, branch) ∈ db'.revocations := by
    intro hrow
    obtain ⟨root, hroot, hstored⟩ := h.revokeScope _ _ _ hrow hscope
    exact hkept root hroot (heffect.revocations_kept hstored)
  rcases heffect.idempotency_eq with hsame | ⟨scope, newId, _, _, hrequest, hnew, hinsert⟩
  · exact hold (hsame ▸ hrow)
  · rw [hinsert, Table.lookup_insert_eq] at hrow
    split_ifs at hrow with hid
    · obtain rfl := Option.some.inj hrow
      have hscope' : scope = "revoke:" ++ branch := hscope
      rw [hscope'] at hrequest
      obtain ⟨req, rfl, rfl, rfl⟩ := Operation.revokeBranch_of_request hrequest
      obtain ⟨root, hroot, hstored⟩ := heffect.revocation_stored hnew
      exact hkept root hroot hstored
    · exact hold hrow

theorem revoked_step (hlease' : db'.leases.lookup leaseId = some lease')
    (hrevoked : lease'.status = .revoked) : db'.leaseRevoked leaseId lease' = true := by
  rcases heffect.row_cases hlease' with ⟨lease, hlease, horigin, hstep⟩ | ⟨_, hnew⟩
  · rcases hstep.revoked_cases hrevoked with hold | ⟨branch, hmem, hstored⟩
    · exact heffect.leaseRevoked_kept horigin (h.revoked _ _ hlease hold)
    · have hlineage : lease'.lineageId = lease.lineageId := congrArg Prod.fst horigin
      have hpath : lease'.ancestorPath = lease.ancestorPath :=
        congrArg (fun x => x.2.2.2.2) horigin
      refine Database.leaseRevoked_iff.mpr ⟨branch, hpath ▸ hmem, ?_⟩
      rw [hlineage]
      rcases hstored with hstored | ⟨requestId, row, hrow, hscope, root, hroot, hsame⟩
      · exact hstored
      · obtain ⟨root', hroot', hstored⟩ := h.revokeScope _ _ _ hrow hscope
        obtain rfl := some_unique hroot hroot'
        exact heffect.revocations_kept (hsame ▸ hstored)
  · exact absurd (hnew.active.symm.trans hrevoked) (by simp)

theorem closedChildren_step (hclock : operation.readsClock = true → db.ClockSafe clock)
    (hlease' : db'.leases.lookup leaseId = some lease')
    (hparentId : lease'.parentId = some parentId)
    (hparent' : db'.leases.lookup parentId = some parent') (hclosed : parent'.status = .closed) :
    db'.Dead leaseId lease' := by
  rcases h.child_cases heffect hlease' hparentId hparent' with
    ⟨lease, parent, hlease, hid, hparent, _, _, hstep, hparentStep⟩ |
    ⟨req, parent, rfl, rfl, hparent, _, hactive, _, _, _, hparentStep⟩
  · have hdead : db.Dead leaseId lease → db'.Dead leaseId lease' :=
      heffect.dead_kept hclock hlease hlease'
    rcases hparentStep.closed_cases hclosed with hold | ⟨terminated, req, rfl, rfl, out', ⟨done⟩⟩
    · exact hdead (h.closedChildren _ _ _ _ hlease hid hparent hold)
    · by_cases hlive : lease.status.isLiveLease = true
      · have hpast := done.noLocal _ _ hlease hid hlive
        obtain ⟨floor, hfloor, hle⟩ := heffect.now_le_floor rfl
        refine .inl ⟨floor, hfloor, ?_⟩
        rw [hstep.expiry_of_not_renewed fun _ _ heq _ => (by cases heq)]
        omega
      · have hstatus := h.statuses _ _ hlease
        by_cases hrevoked : lease.status = .revoked
        · exact hdead (.inr (.inl (h.revoked _ _ hlease hrevoked)))
        · refine hdead (.inr (.inr (over_of_not_live hstatus fun hlive' => hlive ?_)))
          cases hs : lease.status <;>
            simp_all [LeaseStatus.isLive, LeaseStatus.isLiveLease]
  · rcases hparentStep.closed_cases hclosed with hold | ⟨_, _, heq, _⟩
    · exact absurd (hactive.symm.trans hold) (by simp)
    · cases heq

theorem step (hclock : operation.readsClock = true → db.ClockSafe clock) : LeaseTree db' where
  statuses _ _ := h.statuses_step heffect
  parent _ _ _ := h.parent_step heffect
  nested _ _ _ _ := h.nested_step heffect
  expired _ _ := h.expired_step heffect
  revokeScope _ _ _ := h.revokeScope_step heffect
  revoked _ _ := h.revoked_step heffect
  closedChildren _ _ _ _ := h.closedChildren_step heffect hclock

end Step

theorem of_reachable {envelope : Envelope d} (hreach : (svc.system envelope).Reachable db) :
    LeaseTree db :=
  invariant_of_reachable (genesis svc envelope)
    (fun _ _ _ _ _ h hclock heffect => h.step heffect hclock) hreach

end LeaseTree

end WardenService

def Database.ChildOf (db : Database d Hash) (leaseId parentId : String) : Prop :=
  ∃ lease, db.leases.lookup leaseId = some lease ∧ lease.parentId = some parentId

theorem WardenService.LeaseTree.dead_of_chain {db : Database d Hash} (h : LeaseTree db)
    {leaseId ancestorId : String} {ancestor : Lease d}
    (hchain : Relation.ReflTransGen db.ChildOf leaseId ancestorId)
    (hancestor : db.leases.lookup ancestorId = some ancestor)
    (hdead : db.Dead ancestorId ancestor) :
    ∀ lease, db.leases.lookup leaseId = some lease → db.Dead leaseId lease := by
  -- from the ancestor down, one child at a time
  induction hchain using Relation.ReflTransGen.head_induction_on with
  | refl =>
    intro lease hlease
    obtain rfl := some_unique hlease hancestor
    exact hdead
  | @head leaseId parentId hchild _ ih =>
    intro lease hlease
    obtain ⟨lease', hlease', hparentId⟩ := hchild
    obtain rfl := some_unique hlease hlease'
    obtain ⟨parent, hparent, _⟩ := h.parent _ _ _ hlease hparentId
    exact h.dead_child hlease hparentId hparent (ih parent hparent)

/-- Below a closed or expired lease nothing can be put to use: in every state a warden can reach, and
whatever its clock reads, no new request to authorize, spawn, spawn remotely, renew or resume
succeeds on a lease with a closed or expired one on its chain of local parents. -/
theorem closed_branch_unusable {svc : WardenService d Hash} {envelope : Envelope d}
    {db : Database d Hash} (hreach : (svc.system envelope).Reachable db)
    {leaseId ancestorId : String} {lease ancestor : Lease d}
    (hlease : db.leases.lookup leaseId = some lease)
    (hchain : Relation.ReflTransGen db.ChildOf leaseId ancestorId)
    (hancestor : db.leases.lookup ancestorId = some ancestor)
    (hover : ancestor.status = .closed ∨ ancestor.status = .expired)
    {operation : Operation d} (huse : operation.uses = some leaseId) (hnew : operation.IsNew db)
    (hresumes : operation.Resumes lease) (clock : Reading) :
    svc.Rejects clock operation db := by
  have htree := WardenService.LeaseTree.of_reachable hreach
  have hdead := htree.dead_of_chain hchain hancestor (.inr (.inr hover)) lease hlease
  exact WardenService.rejects_of_dead huse hnew hlease hresumes hdead

open Sample

def Sample.closingRoot : List (Reading × Operation 1) :=
  [(exactly 1, registerPolicy),
    (exactly 2, .issueRoot "root" "line"
      ⟨"r1", operator, "tenant", "envelope", "subject", units 5, {"act"}, "v1", 50, none⟩),
    (exactly 3, .spawn "child"
      ⟨"r2", operator, "root", "subject", units 2, {"act"}, 10, none, none⟩),
    (exactly 20, .lifecycle .close [] ⟨"r3", operator, "root", none⟩)]

def Sample.closedRoot : Database 1 ℕ := ((service "a").play (genesis "a" 6) closingRoot).1

theorem closed_branch_unusable_closedRoot :
    (closedRoot.leases.lookup "root").map Lease.status = some .closed ∧
      (service "a").Rejects (exactly 12) (.authorize "receipt"
        ⟨"r4", operator, "child", "run", "executor", "nonce-0123456789", none, none, none⟩)
        closedRoot := by
  have hstatus : (closedRoot.leases.lookup "root").map Lease.status = some .closed := by
    decide +kernel
  have hlink : (closedRoot.leases.lookup "child").map Lease.parentId = some (some "root") := by
    decide +kernel
  have hreach : ((service "a").system (envelope 6)).Reachable closedRoot :=
    (service "a").play_reachable (envelope 6) closingRoot
  obtain ⟨root, hroot, hclosed⟩ := Option.map_eq_some_iff.mp hstatus
  obtain ⟨child, hchild, hparentId⟩ := Option.map_eq_some_iff.mp hlink
  refine ⟨hstatus, closed_branch_unusable hreach hchild (.single ⟨child, hchild, hparentId⟩) hroot
    (.inl hclosed) rfl ?_ ?_ _⟩
  · rintro _ _ ⟨⟩
    decide +kernel
  · exact fun _ _ heq => (by cases heq)

end Lets
