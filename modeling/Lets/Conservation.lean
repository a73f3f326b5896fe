import Lets.Cluster

set_option autoImplicit false

/-!
# Conservation of the budget

In every state a cluster can reach, what its wardens hold and have consumed, together with the
vouchers that are still in flight, is the budget.
-/

namespace Lets

open Library

variable {d : ℕ} {Hash : Type}

namespace Deployment

def prepared (D : Deployment d Hash) (s : ClusterState d Hash) : Finset (TransferVoucher d) :=
  D.members.biUnion fun warden => signed (s.calls warden)

def accepted (D : Deployment d Hash) (s : ClusterState d Hash) : Finset (TransferVoucher d) :=
  D.members.biUnion fun warden => ((deliveries (s.calls warden)).map Prod.fst).toFinset

def receipts (D : Deployment d Hash) (s : ClusterState d Hash) : Finset (Receipt d) :=
  D.members.biUnion fun warden => issued (s.calls warden)

variable {D : Deployment d Hash} {s : ClusterState d Hash}

variable (hreach : D.system.Reachable s)

include hreach

theorem accepted_subset_prepared : D.accepted s ⊆ D.prepared s := by
  intro voucher hmem
  obtain ⟨warden, hmember, hmem⟩ := Finset.mem_biUnion.mp hmem
  rw [List.mem_toFinset, List.mem_map] at hmem
  obtain ⟨⟨_, ack⟩, hdelivery, rfl⟩ := hmem
  obtain ⟨_, hsource, hsigned⟩ := accepted_signed hreach hmember hdelivery
  exact Finset.mem_biUnion.mpr ⟨_, hsource, hsigned⟩

theorem sum_prepared (i : Fin d) : ∑ voucher ∈ D.prepared s, voucher.amount i =
      ∑ warden ∈ D.members, (s.database warden).transferredOut i := by
  unfold prepared
  rw [Finset.sum_biUnion]
  · exact Finset.sum_congr rfl fun warden _ =>
      ((accounts hreach warden).outbound.transferredOut i).symm
  · -- a voucher names its source, so no two members have signed the same one
    intro w hw w' hw' hne
    refine Finset.disjoint_left.mpr fun voucher hv hv' => hne ?_
    have hsource := (accounts hreach w).outbound.source voucher hv
    have hsource' := (accounts hreach w').outbound.source voucher hv'
    rw [D.wardenId_eq w hw] at hsource
    rw [D.wardenId_eq w' hw'] at hsource'
    exact hsource.symm.trans hsource'

theorem transferredIn_eq {warden : String} (hmember : warden ∈ D.members) (i : Fin d) :
    (s.database warden).transferredIn i =
      ∑ voucher ∈ ((deliveries (s.calls warden)).map Prod.fst).toFinset, voucher.amount i := by
  have hunique : ∀ voucher ∈ (deliveries (s.calls warden)).map Prod.fst,
      ∀ voucher' ∈ (deliveries (s.calls warden)).map Prod.fst,
      voucher.key = voucher'.key → voucher = voucher' := by
    intro voucher hv voucher' hv' hkey
    obtain ⟨delivery, hdelivery, rfl⟩ := List.mem_map.mp hv
    obtain ⟨delivery', hdelivery', rfl⟩ := List.mem_map.mp hv'
    exact accepted_eq_of_key hreach hmember hdelivery hdelivery' hkey
  have hmap := map_firsts TransferVoucher.key Prod.fst (deliveries (s.calls warden))
  rw [(streams hreach warden).credited i, ← sum_firsts TransferVoucher.key _ hunique, ← hmap,
    List.map_map]
  rfl

theorem sum_accepted (i : Fin d) : ∑ voucher ∈ D.accepted s, voucher.amount i =
      ∑ warden ∈ D.members, (s.database warden).transferredIn i := by
  unfold accepted
  rw [Finset.sum_biUnion]
  · exact Finset.sum_congr rfl fun warden hmember => (transferredIn_eq hreach hmember i).symm
  · intro w hw w' hw' hne
    refine Finset.disjoint_left.mpr fun voucher hv hv' => hne ?_
    rw [List.mem_toFinset, List.mem_map] at hv hv'
    obtain ⟨⟨_, ack⟩, hdelivery, rfl⟩ := hv
    obtain ⟨⟨_, ack'⟩, hdelivery', heq⟩ := hv'
    have htarget := (accepted_signed hreach hw hdelivery).1
    have htarget' := (accepted_signed hreach hw' hdelivery').1
    exact htarget.symm.trans ((congrArg TransferVoucher.targetWarden heq).symm.trans htarget')

theorem sum_receipts (i : Fin d) : ∑ receipt ∈ D.receipts s, receipt.cost i =
      ∑ warden ∈ D.members, (s.database warden).consumed i := by
  unfold receipts
  rw [Finset.sum_biUnion]
  · exact Finset.sum_congr rfl fun warden _ => ((accounts hreach warden).charged.consumed i).symm
  · intro w hw w' hw' hne
    refine Finset.disjoint_left.mpr fun receipt hr hr' => hne ?_
    have hissuer := (accounts hreach w).charged.issuer receipt hr
    have hissuer' := (accounts hreach w').charged.issuer receipt hr'
    rw [D.wardenId_eq w hw] at hissuer
    rw [D.wardenId_eq w' hw'] at hissuer'
    exact hissuer.symm.trans hissuer'

theorem sum_held (i : Fin d) : ∑ warden ∈ D.members, ((s.database warden).freePool i +
        ((s.database warden).leases.sumOf fun _ lease => lease.residual i) +
        (s.database warden).consumed i) +
      ∑ warden ∈ D.members, (s.database warden).transferredOut i =
    D.budget i + ∑ warden ∈ D.members, (s.database warden).transferredIn i := by
  rw [← D.shares i, ← Finset.sum_add_distrib, ← Finset.sum_add_distrib]
  refine Finset.sum_congr rfl fun warden _ => ?_
  have haccounts := accounts hreach warden
  have henvelope : (s.database warden).envelope = D.envelope warden :=
    congrArg (fun x => x.2.2) haccounts.fixed
  have hidentity := haccounts.conserved.identity i
  have hresidual := haccounts.residualSum i
  rw [henvelope] at hidentity
  omega

end Deployment

/-- In every reachable state the free pools, the residuals of the leases and the consumed units of
all wardens, with the vouchers that are prepared but not accepted, are the budget; so the receipts
ever issued never cost more. -/
theorem budget_conserved {D : Deployment d Hash} {s : ClusterState d Hash}
    (hreach : D.system.Reachable s) (i : Fin d) :
    ∑ warden ∈ D.members, ((s.database warden).freePool i +
        ((s.database warden).leases.sumOf fun _ lease => lease.residual i) +
        (s.database warden).consumed i) +
      ∑ voucher ∈ D.prepared s \ D.accepted s, voucher.amount i = D.budget i ∧
    ∑ receipt ∈ D.receipts s, receipt.cost i ≤ D.budget i := by
  have hheld := Deployment.sum_held hreach i
  rw [← Deployment.sum_prepared hreach, ← Deployment.sum_accepted hreach,
    ← Finset.sum_sdiff (Deployment.accepted_subset_prepared hreach)] at hheld
  have hconsumed : ∑ receipt ∈ D.receipts s, receipt.cost i ≤
      ∑ warden ∈ D.members, ((s.database warden).freePool i +
        ((s.database warden).leases.sumOf fun _ lease => lease.residual i) +
        (s.database warden).consumed i) := by
    rw [Deployment.sum_receipts hreach]
    exact Finset.sum_le_sum fun warden _ => Nat.le_add_left _ _
  constructor <;> omega

open Sample

def Sample.deployment : Deployment 1 ℕ where
  members := {"a", "b"}
  service := service
  envelope warden := envelope (if warden = "a" then 6 else 4)
  budget := units 10
  wardenId_eq _ _ := rfl
  shares := by decide

/-- One transfer has arrived, another is in flight, and a transition has been authorized. -/
def Sample.transferring : ClusterState 1 ℕ :=
  deployment.play (fun _ _ _ => True) deployment.genesis
    [.call "a" 1 (exactly 1) registerPolicy, .call "b" 1 (exactly 1) registerPolicy,
      .call "a" 1 (exactly 1) (.prepareTransfer "x1"
        ⟨"r1", operator, "tenant", "envelope", "b", units 3, none⟩),
      .call "b" 2 (exactly 2) (.acceptTransfer operator (voucher 1 "x1")),
      .call "a" 3 (exactly 3) (.prepareTransfer "x2"
        ⟨"r2", operator, "tenant", "envelope", "b", units 1, none⟩),
      .call "b" 4 (exactly 4) (.issueRoot "root" "line"
        ⟨"r3", operator, "tenant", "envelope", "subject", units 5, {"act"}, "v1", 50, none⟩),
      .call "b" 5 (exactly 5) (.authorize "receipt"
        ⟨"r4", operator, "root", "run", "executor", "nonce-0123456789", none, none, none⟩)]

theorem budget_conserved_transferring :
    (deployment.prepared transferring \
        deployment.accepted transferring).card = 1 ∧
      (deployment.receipts transferring).card = 1 ∧
      ∑ receipt ∈ deployment.receipts transferring, receipt.cost 0 ≤ 10 :=
  ⟨by decide +kernel, by decide +kernel,
    (budget_conserved (Deployment.play_reachable (.of_init rfl) _).of_restrict 0).2⟩

end Lets
