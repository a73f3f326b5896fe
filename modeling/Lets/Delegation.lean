import Lets.Conservation
import Lets.Vouchers

set_option autoImplicit false

/-!
# Delegation across wardens

A lease is spawned from another on the same warden, or from one on a peer by way of a signed
voucher.
-/

namespace Lets

open Library

variable {d : ℕ} {Hash : Type}

/-- The lease of a warden: `node` names both. -/
def ClusterState.lease (s : ClusterState d Hash) (node : String × String) : Option (Lease d) :=
  (s.database node.1).leases.lookup node.2

/-- One lease was spawned from another, on the same warden or on a peer. -/
inductive ClusterState.SpawnedFrom (s : ClusterState d Hash) : String × String → String × String →
    Prop
  | here {warden leaseId parentId : String} {lease : Lease d}
      (lease_eq : s.lease (warden, leaseId) = some lease)
      (parent_eq : lease.parentId = some parentId) :
      SpawnedFrom s (warden, leaseId) (warden, parentId)
  | elsewhere {warden leaseId source parentId : String} {lease : Lease d}
      (lease_eq : s.lease (warden, leaseId) = some lease)
      (warden_eq : lease.parentWarden = some source)
      (parent_eq : lease.remoteParentId = some parentId) :
      SpawnedFrom s (warden, leaseId) (source, parentId)

namespace Deployment

variable {D : Deployment d Hash} {s : ClusterState d Hash} {warden : String}

theorem reachable_local (hreach : D.system.Reachable s) (warden : String) :
    ((D.service warden).system (D.envelope warden)).Reachable (s.database warden) :=
  ⟨_, _, init_local warden, local_run hreach warden⟩

theorem arrivals (hreach : D.system.Reachable s) (warden : String) :
    WardenService.Arrivals (D.service warden) (deliveries (s.calls warden)) (s.database warden) :=
  WardenService.arrivals_of_run (init_local warden) (local_run hreach warden)

variable {lease : Lease d}

theorem voucher_of_remote (hreach : D.system.Reachable s) (hmember : warden ∈ D.members)
    {leaseId source : String} (hlease : s.lease (warden, leaseId) = some lease)
    (hsource : lease.parentWarden = some source) :
    source ∈ D.members ∧ ∃ voucher request, voucher ∈ signed (s.calls source) ∧
      voucher.sourceWarden = source ∧ voucher.targetWarden = warden ∧
      lease.IssuedFor leaseId voucher request := by
  have hremote : lease.parentWarden ≠ none := by
    rw [hsource]
    simp
  obtain ⟨⟨voucher, ack⟩, hdelivery, request, hfor, _⟩ :=
    (arrivals hreach warden).remote leaseId lease hlease hremote
  obtain ⟨htarget, hmember', hsigned⟩ := accepted_signed hreach hmember hdelivery
  have hnamed : lease.parentWarden = some voucher.sourceWarden :=
    congrArg (fun origin => origin.2.2.1) hfor.origin_eq
  obtain rfl := some_unique hnamed hsource
  exact ⟨hmember', voucher, request, hsigned, rfl, htarget, hfor⟩

variable {node : String × String}

theorem spawnedFrom_attenuates (hreach : D.system.Reachable s) {node' : String × String}
    (hmember : node.1 ∈ D.members) (h : s.SpawnedFrom node node') : node'.1 ∈ D.members ∧
      ∃ lease parent, s.lease node = some lease ∧ s.lease node' = some parent ∧
        lease.Attenuates node'.2 parent := by
  cases h with
  | @here warden leaseId parentId lease lease_eq parent_eq =>
    have hlocal := WardenService.localChildren_of_reachable (reachable_local hreach warden)
    obtain ⟨parent, hparent, hwithin⟩ := hlocal leaseId lease lease_eq parentId parent_eq
    exact ⟨hmember, lease, parent, lease_eq, hparent, hwithin⟩
  | @elsewhere warden leaseId source parentId lease lease_eq warden_eq parent_eq =>
    obtain ⟨hsource, voucher, request, hsigned, _, _, hfor⟩ :=
      voucher_of_remote hreach hmember lease_eq warden_eq
    obtain ⟨parent, hparent, hwithin⟩ := WardenService.signed_attenuates (init_local source)
      (local_run hreach source) hsigned hfor.request_eq
    have hnamed : lease.remoteParentId = some request.parentId :=
      congrArg (fun origin => origin.2.2.2.1) hfor.origin_eq
    obtain rfl := some_unique hnamed parent_eq
    refine ⟨hsource, lease, parent, lease_eq, hparent, ?_⟩
    have hlineage : lease.lineageId = request.lineageId :=
      congrArg (fun origin => origin.1) hfor.origin_eq
    have hpath : lease.ancestorPath = request.ancestorPath :=
      congrArg (fun origin => origin.2.2.2.2) hfor.origin_eq
    unfold Lease.Attenuates
    rw [hlineage, hpath, hfor.policy_eq, hfor.capabilities_eq, hfor.allocation_eq]
    exact hwithin

theorem chain_attenuates (hreach : D.system.Reachable s) {node' : String × String}
    (hmember : node.1 ∈ D.members) (hlease : s.lease node = some lease)
    (h : Relation.ReflTransGen s.SpawnedFrom node node') : node'.1 ∈ D.members ∧
      ∃ ancestor, s.lease node' = some ancestor ∧ lease.lineageId = ancestor.lineageId ∧
        lease.policyDigest = ancestor.policyDigest ∧ lease.capabilities ⊆ ancestor.capabilities ∧
        ∀ i, lease.allocation i ≤ ancestor.allocation i := by
  induction h with
  | refl => exact ⟨hmember, lease, hlease, rfl, rfl, Finset.Subset.refl _, fun i => le_rfl⟩
  | tail _ hop ih =>
    obtain ⟨hmember', ancestor, hancestor, hlineage, hpolicy, hcapabilities, hallocation⟩ := ih
    obtain ⟨hmember'', lease', parent, hlease', hparent, hwithin⟩ :=
      spawnedFrom_attenuates hreach hmember' hop
    obtain rfl := some_unique hancestor hlease'
    refine ⟨hmember'', parent, hparent, hlineage.trans hwithin.lineage_eq,
      hpolicy.trans hwithin.policy_eq, hcapabilities.trans hwithin.capabilities_subset, fun i => ?_⟩
    exact (hallocation i).trans (hwithin.allocation_le i)

theorem exists_root (hreach : D.system.Reachable s) (hmember : node.1 ∈ D.members)
    (hlease : s.lease node = some lease) :
    ∃ root, Relation.ReflTransGen s.SpawnedFrom node root ∧ ∀ node', ¬s.SpawnedFrom root node' := by
  induction hdepth : lease.ancestorPath.length generalizing node lease with
  | zero =>
    refine ⟨node, .refl, fun node' hop => ?_⟩
    obtain ⟨_, lease', parent, hlease', _, hwithin⟩ := spawnedFrom_attenuates hreach hmember hop
    obtain rfl := some_unique hlease hlease'
    rw [hwithin.path_eq, List.length_append, List.length_singleton] at hdepth
    omega
  | succ n ih =>
    by_cases hparent : ∃ node', s.SpawnedFrom node node'
    · obtain ⟨node', hop⟩ := hparent
      obtain ⟨hmember', lease', parent, hlease', hparent, hwithin⟩ :=
        spawnedFrom_attenuates hreach hmember hop
      obtain rfl := some_unique hlease hlease'
      rw [hwithin.path_eq, List.length_append, List.length_singleton] at hdepth
      obtain ⟨root, hchain, hroot⟩ := ih hmember' hparent (by omega)
      exact ⟨root, .head hop hchain, hroot⟩
    · exact ⟨node, .refl, fun node' hop => hparent ⟨node', hop⟩⟩

end Deployment

/-- In every reachable state of a cluster, along every chain of local and remote spawns, a lease has
the lineage and the policy of each ancestor, no capability that the ancestor lacks and an allocation
within its parent's; and such a chain leads to a root. -/
theorem delegation_attenuates {D : Deployment d Hash} {s : ClusterState d Hash}
    (hreach : D.system.Reachable s) {warden leaseId : String} {lease : Lease d}
    (hmember : warden ∈ D.members)
    (hlease : (s.database warden).leases.lookup leaseId = some lease) :
    (lease.ancestorPath.Nodup ∧ lease.ancestorPath.length ≤ 64) ∧
    (∃ policy, (s.database warden).policies.lookup lease.policyDigest = some policy ∧
      lease.capabilities ⊆ policy.declaredCapabilities) ∧
    (∀ node, s.SpawnedFrom (warden, leaseId) node → ∃ parent, s.lease node = some parent ∧
      lease.ancestorPath = parent.ancestorPath ++ [node.2] ∧
      ∀ i, lease.allocation i ≤ parent.allocation i) ∧
    (∀ node, Relation.ReflTransGen s.SpawnedFrom (warden, leaseId) node → ∃ ancestor,
      s.lease node = some ancestor ∧ lease.lineageId = ancestor.lineageId ∧
      lease.policyDigest = ancestor.policyDigest ∧ lease.capabilities ⊆ ancestor.capabilities) ∧
    ∃ root, Relation.ReflTransGen s.SpawnedFrom (warden, leaseId) root ∧
      ∀ node, ¬s.SpawnedFrom root node := by
  have hnode : s.lease (warden, leaseId) = some lease := hlease
  have hgrants := WardenService.grantsValid_of_reachable (Deployment.reachable_local hreach warden)
  obtain ⟨hvalid, hpolicy⟩ := hgrants leaseId lease hlease
  refine ⟨⟨hvalid.nodup, hvalid.depth_le⟩, hpolicy, fun node hop => ?_, fun node hchain => ?_,
    Deployment.exists_root hreach hmember hnode⟩
  · obtain ⟨_, lease', parent, hlease', hparent, hwithin⟩ :=
      Deployment.spawnedFrom_attenuates hreach hmember hop
    obtain rfl := some_unique hnode hlease'
    exact ⟨parent, hparent, hwithin.path_eq, hwithin.allocation_le⟩
  · obtain ⟨_, ancestor, hancestor, hlineage, hdigest, hcapabilities, _⟩ :=
      Deployment.chain_attenuates hreach hmember hnode hchain
    exact ⟨ancestor, hancestor, hlineage, hdigest, hcapabilities⟩

open Sample

def Sample.childVoucher : TransferVoucher 1 :=
  { voucher 1 "x1" with
    issuedAtNs := 3
    leaseRequest := some
      { childLeaseId := "child"
        lineageId := "line"
        parentId := "root"
        subjectId := "subject"
        capabilities := {"act"}
        ancestorPath := ["root"]
        branchEpoch := 0
        expiresAtNs := 23 } }

def Sample.delegating : List (Action 1) :=
  [.call "a" 1 (exactly 1) registerPolicy, .call "b" 1 (exactly 1) registerPolicy,
    .call "a" 2 (exactly 2) (.issueRoot "root" "line" (rootRequest 5)),
    .call "a" 3 (exactly 3) (.spawnRemote "child" "x1"
      ⟨"r2", operator, "root", "b", "subject", units 3, {"act"}, 20, none⟩),
    .call "b" 4 (exactly 4) (.acceptTransfer operator childVoucher),
    .call "b" 5 (exactly 5) (.spawn "grandchild"
      ⟨"r3", operator, "child", "subject", units 1, {"act"}, 10, none, none⟩)]

theorem delegation_attenuates_grandchild :
    ∃ s : ClusterState 1 ℕ, deployment.system.Reachable s ∧ ∃ lease root,
      s.lease ("b", "grandchild") = some lease ∧ s.lease ("a", "root") = some root ∧
      lease.lineageId = root.lineageId ∧ lease.capabilities ⊆ root.capabilities := by
  have hreach := (Deployment.play_reachable (D := deployment)
    (C := fun _ _ _ => True) (.of_init rfl) delegating).of_restrict
  obtain ⟨s, hs⟩ : ∃ s, deployment.play (fun _ _ _ => True) deployment.genesis
    delegating = s := ⟨_, rfl⟩
  have hfacts : (s.lease ("b", "grandchild")).map Lease.parentId = some (some "child") ∧
      (s.lease ("b", "child")).map (fun lease => (lease.parentWarden, lease.remoteParentId)) =
        some (some "a", some "root") := by
    subst hs
    decide +kernel
  rw [hs] at hreach
  obtain ⟨hgrandchild, hchild⟩ := hfacts
  obtain ⟨lease, hlease, hparent⟩ := Option.map_eq_some_iff.mp hgrandchild
  obtain ⟨child, hchild, horigin⟩ := Option.map_eq_some_iff.mp hchild
  obtain ⟨hwarden, hremote⟩ := Prod.mk.inj horigin
  have hchain : Relation.ReflTransGen s.SpawnedFrom ("b", "grandchild") ("a", "root") :=
    .tail (.single (.here hlease hparent)) (.elsewhere hchild hwarden hremote)
  obtain ⟨_, _, _, hancestors, _⟩ := delegation_attenuates hreach (by decide) hlease
  obtain ⟨root, hroot, hlineage, _, hcapabilities⟩ := hancestors _ hchain
  exact ⟨s, hreach, lease, root, hlease, hroot, hlineage, hcapabilities⟩

end Lets
