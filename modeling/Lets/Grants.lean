import Lets.Accounting

set_option autoImplicit false

/-!
# Every row is a valid grant

A lease is issued only with a grant that passes its checks, under a registered policy that declares
its capabilities.
-/

namespace Lets

open Library

variable {d : ℕ} {Hash : Type}

def Lease.parent (lease : Lease d) : Option String := lease.remoteParentId <|> lease.parentId

structure Lease.Valid (leaseId : String) (lease : Lease d) : Prop where
  expiry_le : lease.expiresAtNs ≤ maxResource
  issued_lt : lease.issuedAtNs < lease.expiresAtNs
  nonZero : lease.allocation.NonZero
  depth_le : lease.ancestorPath.length ≤ maxLineageDepth
  nodup : lease.ancestorPath.Nodup
  self_notMem : leaseId ∉ lease.ancestorPath
  root : lease.parent = none → lease.ancestorPath = []
  last : ∀ parentId, lease.parent = some parentId → lease.ancestorPath.getLast? = some parentId

theorem LeaseGrant.toRow_parent (grant : LeaseGrant d) (parentWarden : Option String)
    (state : String) (nowNs : ℕ) :
    (grant.toRow parentWarden state nowNs).parent = grant.parentId := by
  unfold Lease.parent LeaseGrant.toRow
  by_cases hlocal : parentWarden = none
  · simp only [hlocal, if_true]
    rfl
  · simp only [hlocal, if_false]
    cases grant.parentId <;> rfl

theorem LeaseGrant.toRow_valid {grant : LeaseGrant d} {leaseId : String}
    (h : grant.validate = .ok ()) (hid : grant.leaseId = leaseId) (parentWarden : Option String)
    (state : String) (nowNs : ℕ) : (grant.toRow parentWarden state nowNs).Valid leaseId := by
  subst hid
  simp only [LeaseGrant.validate, bind_ok_iff, require_ok_iff, exists_unit_iff] at h
  obtain ⟨hexpiry, hissued, hallocation, hdepth, hnodup, hself, hroot, hlast⟩ := h
  refine ⟨hexpiry, hissued, hallocation, hdepth, hnodup, hself, ?_, ?_⟩
  · rw [LeaseGrant.toRow_parent]
    exact hroot
  · rw [LeaseGrant.toRow_parent]
    exact hlast

theorem Lease.Valid.of_terms {leaseId : String} {lease lease' : Lease d} (h : lease.Valid leaseId)
    (hterms : lease'.terms = lease.terms) (hexpiry : lease'.expiresAtNs ≤ maxResource)
    (hissued : lease'.issuedAtNs < lease'.expiresAtNs) : lease'.Valid leaseId := by
  have hpath : lease'.ancestorPath = lease.ancestorPath :=
    (Lease.keeps hterms).ancestorPath
  have hallocation : lease'.allocation = lease.allocation :=
    (Lease.keeps hterms).allocation
  have hparent : lease'.parent = lease.parent := by
    rw [Lease.parent, (Lease.keeps hterms).remoteParentId, (Lease.keeps hterms).parentId]
    rfl
  exact {
    expiry_le := hexpiry
    issued_lt := hissued
    nonZero := hallocation ▸ h.nonZero
    depth_le := hpath ▸ h.depth_le
    nodup := hpath ▸ h.nodup
    self_notMem := hpath ▸ h.self_notMem
    root := by rw [hparent, hpath]; exact h.root
    last := by rw [hparent, hpath]; exact h.last }

namespace Database

variable {db : Database d Hash}

theorem grantFromRow_isOk {leaseId : String} {lease : Lease d} (hvalid : lease.Valid leaseId)
    (hpolicy : lease.policyDigest ∈ db.policies) :
    ∃ grant, db.grantFromRow leaseId lease = .ok grant := by
  obtain ⟨policy, hpolicy⟩ := Table.mem_iff_lookup.mp hpolicy
  simp only [grantFromRow, bind_ok_iff, orError_ok_iff, exists_unit_iff, pure_ok_iff,
    LeaseGrant.validate, require_ok_iff]
  exact ⟨_, policy, hpolicy, ⟨hvalid.expiry_le, hvalid.issued_lt, hvalid.nonZero, hvalid.depth_le,
    hvalid.nodup, hvalid.self_notMem, hvalid.root, hvalid.last⟩, rfl⟩

/-- Every row is a valid grant under a registered policy that declares its capabilities. -/
def GrantsValid (db : Database d Hash) : Prop :=
  ∀ leaseId lease, db.leases.lookup leaseId = some lease → lease.Valid leaseId ∧
    ∃ policy, db.policies.lookup lease.policyDigest = some policy ∧
      lease.capabilities ⊆ policy.declaredCapabilities

end Database

namespace WardenService

variable {svc : WardenService d Hash} {clock : Reading} {operation : Operation d}
  {db db' : Database d Hash} {out : Response d}

variable {leaseId : String} {lease : Lease d}

theorem RowStep.valid {lease' : Lease d}
    (h : RowStep svc clock operation db db' leaseId lease lease')
    (hterms : lease'.terms = lease.terms) (hvalid : lease.Valid leaseId) :
    lease'.Valid leaseId := by
  have hsame : lease'.expiresAtNs = lease.expiresAtNs → lease'.issuedAtNs = lease.issuedAtNs →
      lease'.Valid leaseId := by
    intro hexpiry hissued
    refine hvalid.of_terms hterms ?_ ?_
    · rw [hexpiry]; exact hvalid.expiry_le
    · rw [hexpiry, hissued]; exact hvalid.issued_lt
  cases h with
  | renewed _ done _ _ expiry_eq issued_eq =>
    have hfresh := done.fresh
    refine hvalid.of_terms hterms ?_ ?_
    · rw [expiry_eq]; exact done.expiry_le
    · rw [expiry_eq, issued_eq]; omega
  | kept _ expiry_eq issued_eq => exact hsame expiry_eq issued_eq
  | switched _ _ _ _ expiry_eq issued_eq => exact hsame expiry_eq issued_eq
  | closed _ _ _ _ expiry_eq issued_eq => exact hsame expiry_eq issued_eq
  | revoked _ _ _ _ expiry_eq issued_eq => exact hsame expiry_eq issued_eq
  | expired _ _ _ _ expiry_eq issued_eq => exact hsame expiry_eq issued_eq

theorem RowNew.valid (h : RowNew svc clock db db' leaseId lease operation) :
    lease.Valid leaseId := by
  cases h with
  | root _ _ _ _ done row_eq | child done _ _ _ _ _ _ row_eq =>
    have hvalid : done.grant.validate = .ok () := by rw [done.grant_eq]; exact done.valid
    have hid : done.grant.leaseId = leaseId := by rw [done.grant_eq]; rfl
    rw [row_eq]
    exact LeaseGrant.toRow_valid hvalid hid _ _ _
  | remote done _ _ id_eq _ _ _ _ _ _ _ _ row_eq _ valid =>
    rw [row_eq]
    refine LeaseGrant.toRow_valid ?_ ?_ _ _ _
    · exact valid
    · exact id_eq

theorem RowNew.declared (h : RowNew svc clock db db' leaseId lease operation) (hdb : db.GrantsValid) :
    ∃ policy, db.policies.lookup lease.policyDigest = some policy ∧
      lease.capabilities ⊆ policy.declaredCapabilities := by
  cases h with
  | root _ _ _ _ done row_eq =>
    rw [row_eq, done.grant_eq]
    exact ⟨done.policy, done.policy_eq, done.capabilities_subset⟩
  | child done _ _ _ _ _ _ row_eq =>
    obtain ⟨_, policy, hpolicy, hdeclared⟩ := hdb _ _ done.parent_eq
    rw [row_eq, done.grant_eq]
    exact ⟨policy, hpolicy, done.capabilities_subset.trans hdeclared⟩
  | remote done _ _ _ _ _ _ _ _ _ _ _ row_eq declared =>
    rw [row_eq]
    exact ⟨done.policy, done.policy_eq, declared⟩

theorem Effect.grantsValid (h : Effect svc clock db operation db' out) (hdb : db.GrantsValid) :
    db'.GrantsValid := by
  intro leaseId lease' hlease'
  cases hlease : db.leases.lookup leaseId with
  | some lease =>
    obtain ⟨lease₁, hlease₁, hterms, hstep⟩ := h.row_terms hlease
    obtain rfl := some_unique hlease₁ hlease'
    obtain ⟨hvalid, policy, hpolicy, hdeclared⟩ := hdb leaseId lease hlease
    have hdigest : lease₁.policyDigest = lease.policyDigest :=
      (Lease.keeps hterms).policyDigest
    have hcapabilities : lease₁.capabilities = lease.capabilities :=
      (Lease.keeps hterms).capabilities
    refine ⟨hstep.valid hterms hvalid, policy, ?_, ?_⟩
    · rw [hdigest]
      exact h.policies_kept hpolicy
    · rw [hcapabilities]
      exact hdeclared
  | none =>
    have hnew := h.row_new (AList.lookup_eq_none.mp hlease) hlease'
    obtain ⟨policy, hpolicy, hdeclared⟩ := hnew.declared hdb
    exact ⟨hnew.valid, policy, h.policies_kept hpolicy, hdeclared⟩

theorem grantsValid_of_reachable {envelope : Envelope d}
    (hreach : (svc.system envelope).Reachable db) : db.GrantsValid :=
  invariant_of_reachable (fun _ _ h => (by cases h))
    (fun _ _ _ _ _ h _ heffect => heffect.grantsValid h) hreach

theorem residual_le_of_reachable {envelope : Envelope d}
    (hreach : (svc.system envelope).Reachable db) (hlease : db.leases.lookup leaseId = some lease)
    (i : Fin d) : lease.residual i ≤ lease.allocation i := by
  obtain ⟨credits, hcredits⟩ := hreach.record fun (db : Database d Hash) _ db' => db.ended db'
  have haccounted : Accounted db credits := accounted_of_reachable hcredits
  rw [haccounted.balance leaseId lease hlease i]
  omega

end WardenService

end Lets
