import Lets.LeaseTree

set_option autoImplicit false

/-!
# Times in the tables

What the rows of a reachable database say about time, and what follows for the constraints that
compare a time that is about to be written with one that is already there.
-/

namespace Lets

open Library

variable {d : ℕ} {Hash : Type}

def Database.IssuedBeforeExpiry (db : Database d Hash) : Prop :=
  ∀ leaseId lease, db.leases.lookup leaseId = some lease → lease.issuedAtNs ≤ lease.expiresAtNs

namespace WardenService

variable {svc : WardenService d Hash} {clock : Reading} {operation : Operation d}
  {db db' : Database d Hash} {out : Response d}

variable {leaseId : String} {lease : Lease d}

theorem RowStep.issued_le {lease' : Lease d}
    (h : RowStep svc clock operation db db' leaseId lease lease')
    (hle : lease.issuedAtNs ≤ lease.expiresAtNs) : lease'.issuedAtNs ≤ lease'.expiresAtNs := by
  cases h with
  | renewed _ done _ _ expiry_eq issued_eq =>
    have hfresh := done.fresh
    rw [expiry_eq, issued_eq]
    omega
  | kept _ expiry_eq issued_eq => rwa [expiry_eq, issued_eq]
  | switched _ _ _ _ expiry_eq issued_eq => rwa [expiry_eq, issued_eq]
  | closed _ _ _ _ expiry_eq issued_eq => rwa [expiry_eq, issued_eq]
  | revoked _ _ _ _ expiry_eq issued_eq => rwa [expiry_eq, issued_eq]
  | expired _ _ _ _ expiry_eq issued_eq => rwa [expiry_eq, issued_eq]

theorem RowNew.issued_le (h : RowNew svc clock db db' leaseId lease operation) :
    lease.issuedAtNs ≤ lease.expiresAtNs := by
  cases h with
  | root _ _ _ _ done row_eq =>
    rw [row_eq, done.grant_eq]
    exact Nat.le_add_right _ _
  | child done _ _ _ _ _ _ row_eq =>
    have hfresh := done.fresh
    rw [row_eq, done.grant_eq]
    change clock.nowNs ≤ childExpiry clock _ done.parent
    omega
  | remote _ _ _ _ fresh _ _ _ _ _ _ _ row_eq =>
    rw [row_eq]
    exact (Nat.le_add_right _ _).trans fresh.le

theorem Effect.issuedBeforeExpiry (h : Effect svc clock db operation db' out)
    (hrows : db.IssuedBeforeExpiry) : db'.IssuedBeforeExpiry := by
  intro leaseId lease' hlease'
  rcases h.row_cases hlease' with ⟨lease, hlease, _, hstep⟩ | ⟨_, hnew⟩
  · exact hstep.issued_le (hrows leaseId lease hlease)
  · exact hnew.issued_le

theorem issuedBeforeExpiry_of_reachable {envelope : Envelope d}
    (hreach : (svc.system envelope).Reachable db) : db.IssuedBeforeExpiry :=
  invariant_of_reachable (fun _ _ h => (by cases h))
    (fun _ _ _ _ _ h _ heffect => heffect.issuedBeforeExpiry h) hreach

theorem RowStep.created_le {lease' : Lease d}
    (h : RowStep svc clock operation db db' leaseId lease lease')
    (hlease : db.leases.lookup leaseId = some lease) (hterms : lease'.terms = lease.terms)
    (hle : lease.createdAtNs ≤ lease.expiresAtNs) : lease'.createdAtNs ≤ lease'.expiresAtNs := by
  rw [(Lease.keeps hterms).createdAtNs]
  cases h with
  | renewed _ done mem _ expiry_eq _ =>
    have hfresh := done.fresh
    have hcreated := done.created leaseId mem lease hlease
    omega
  | kept _ expiry_eq _ => rwa [expiry_eq]
  | switched _ _ _ _ expiry_eq _ => rwa [expiry_eq]
  | closed _ _ _ _ expiry_eq _ => rwa [expiry_eq]
  | revoked _ _ _ _ expiry_eq _ => rwa [expiry_eq]
  | expired _ _ _ _ expiry_eq _ => rwa [expiry_eq]

theorem RowNew.created_eq (h : RowNew svc clock db db' leaseId lease operation) :
    lease.createdAtNs = lease.issuedAtNs := by
  cases h with
  | root _ _ _ _ done row_eq => rw [row_eq, done.grant_eq]; rfl
  | child done _ _ _ _ _ _ row_eq => rw [row_eq, done.grant_eq]; rfl
  | remote _ _ _ _ _ _ _ _ _ _ _ _ row_eq => rw [row_eq]; rfl

theorem created_le_of_reachable {envelope : Envelope d}
    (hreach : (svc.system envelope).Reachable db) : ∀ leaseId lease,
      db.leases.lookup leaseId = some lease → lease.createdAtNs ≤ lease.expiresAtNs := by
  refine invariant_of_reachable (P := fun db => ∀ leaseId lease,
    db.leases.lookup leaseId = some lease → lease.createdAtNs ≤ lease.expiresAtNs)
    (fun _ _ h => (by cases h)) ?_ hreach
  intro clock db operation db' out h _ heffect leaseId lease' hlease'
  rcases heffect.row_cases hlease' with ⟨lease, hlease, _, hstep⟩ | ⟨_, hnew⟩
  · obtain ⟨lease'', hlease'', hterms, _⟩ := heffect.row_terms hlease
    obtain rfl := some_unique hlease' hlease''
    exact hstep.created_le hlease hterms (h leaseId lease hlease)
  · exact hnew.created_eq ▸ hnew.issued_le

end WardenService

theorem Database.leaseRowOk_revoked_iff {lease : Lease d} {nowNs : ℕ}
    (hlive : lease.status.isLiveLease = true) (hle : lease.issuedAtNs ≤ lease.expiresAtNs) :
    Database.LeaseRowOk (lease.revoked nowNs) ↔ lease.createdAtNs ≤ nowNs := by
  unfold Lease.revoked Database.LeaseRowOk
  rw [if_pos hlive]
  exact ⟨fun h => h.2, fun h => ⟨hle, h⟩⟩

/-- Every lease that the next batch of a branch would mark was created by the given time. -/
def Database.BatchCreated (lineageId branchLeaseId : String) (nowNs : ℕ) (db : Database d Hash) :
    Prop :=
  ∀ leaseId ∈ db.nextBatch lineageId branchLeaseId, ∀ lease,
    db.leases.lookup leaseId = some lease → lease.createdAtNs ≤ nowNs

theorem Database.batchCreated_iff {db : Database d Hash} {lineageId branchLeaseId : String}
    {nowNs : ℕ} (hissued : db.IssuedBeforeExpiry) :
    (∀ id ∈ db.nextBatch lineageId branchLeaseId, ∀ lease ∈ db.leases.lookup id,
      Database.LeaseRowOk (lease.revoked nowNs)) ↔
      db.BatchCreated lineageId branchLeaseId nowNs := by
  refine forall₄_congr fun id hid lease hlease => ?_
  obtain ⟨lease', hlease', _, hlive, _⟩ := Database.mem_nextBatch hid
  obtain rfl := some_unique hlease' hlease
  exact Database.leaseRowOk_revoked_iff hlive (hissued id _ hlease)

end Lets
