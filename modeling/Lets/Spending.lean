import Lets.Accounting
import Lets.ReceiptOrder

set_option autoImplicit false

/-!
# What an executor claims is within what was allotted

Between the budget of a lease and the effects that are carried out on its account stand the warden,
which issues receipts, and the executor, which is shown them in any order and more than once.
-/

namespace Lets

open Library

variable {d : ℕ} {Hash Digest : Type} [DecidableEq Digest] {svc : WardenService d Hash}
  {envelope : Envelope d} {verifier : ReceiptVerifier d Digest}
  {identity : Option (ExecutorReplayIdentity Digest)} {databaseInstanceId : Digest}
  {s₀ s : Handoff d Hash Digest} {events : List (HandoffEvent d)}

/-- The receipts of a warden that an executor has claimed, in order. -/
def claimedFrom (wardenId : String) (events : List (HandoffEvent d)) : List (Receipt d) :=
  (claimedReceipts (executorEvents events)).filter fun receipt => receipt.wardenId = wardenId

theorem Interleaved.issued_of_claimedFrom
    (h : Interleaved svc envelope verifier identity databaseInstanceId s₀ events s)
    {receipt : Receipt d} (hmem : receipt ∈ claimedFrom svc.wardenId events) :
    receipt ∈ issued s.calls := by
  obtain ⟨hclaimed, hown⟩ := List.mem_filter.mp hmem
  exact h.claimed receipt hclaimed (of_decide_eq_true hown)

/-- No receipt of the warden is claimed twice: the claims of one watermark follow its sequence. -/
theorem Interleaved.claimedFrom_nodup
    (h : Interleaved svc envelope verifier identity databaseInstanceId s₀ events s)
    (hinit : (handoffSystem svc envelope verifier identity databaseInstanceId).Init s₀) :
    (claimedFrom svc.wardenId events).Nodup := by
  refine List.nodup_iff_sublist.mpr fun receipt hsublist => ?_
  have hown : receipt.wardenId = svc.wardenId :=
    of_decide_eq_true (List.mem_filter.mp (hsublist.subset List.mem_cons_self)).2
  have hexpiry : ExpiryFollowsSequence receipt.watermarkKey
      (claimedReceipts (executorEvents events)) := by
    intro earlier he later hl hkey hkey' hsequence
    have hwarden := (congrArg Prod.fst hkey).trans hown
    have hwarden' := (congrArg Prod.fst hkey').trans hown
    exact WardenService.issued_expiry_le hinit.1 h.warden (h.claimed earlier he hwarden)
      (h.claimed later hl hwarden') (hkey.trans hkey'.symm) hsequence
  have hordered := ReceiptVerifier.claimed_sequenceOrdered hinit.2.2 h.executor hexpiry
  have hpair := hordered.sublist (hsublist.trans List.filter_sublist)
  exact lt_irrefl _ (List.rel_of_pairwise_cons hpair List.mem_cons_self rfl rfl)

/-- However the receipts of a warden reach an executor, in whatever order and however often, and
whatever the warden does meanwhile: what is claimed on a lease costs, with what the lease still
holds, no more than the lease was given, and all that is claimed no more than the warden has
consumed. -/
theorem claims_within_allocation
    (hinit : (handoffSystem svc envelope verifier identity databaseInstanceId).Init s₀)
    (run : (handoffSystem svc envelope verifier identity databaseInstanceId).Run s₀ events s)
    (i : Fin d) :
    (∀ leaseId lease, s.database.leases.lookup leaseId = some lease →
      (((claimedFrom svc.wardenId events).filter fun receipt => receipt.leaseId = leaseId).map
        fun receipt => receipt.cost i).sum + lease.residual i ≤ lease.allocation i) ∧
    ((claimedFrom svc.wardenId events).map fun receipt => receipt.cost i).sum ≤
      s.database.consumed i := by
  have hboth := interleaved_of_run hinit run
  have hcharged := (accounts_of_run hinit.1 hboth.warden).charged
  have hnodup := hboth.claimedFrom_nodup hinit
  constructor
  · intro leaseId lease hlease
    have hreach : (svc.system envelope).Reachable s.database := ⟨_, _, hinit.1, hboth.warden⟩
    obtain ⟨credits, hcredits⟩ := hreach.record fun (db : Database d Hash) _ db' => db.ended db'
    have haccounted : Accounted s.database credits := accounted_of_reachable hcredits
    have hspent : (((claimedFrom svc.wardenId events).filter fun receipt =>
        receipt.leaseId = leaseId).map fun receipt => receipt.cost i).sum ≤
          s.database.spentOn leaseId i := by
      rw [← List.sum_toFinset _ (hnodup.filter _), ← List.filter_toFinset, Finset.sum_filter]
      refine Table.sum_le_sumOf (g := Receipt.receiptId) (fun receipt hmem => ?_) _
      exact hcharged.stored _ (hboth.issued_of_claimedFrom (List.mem_toFinset.mp hmem))
    rw [haccounted.balance leaseId lease hlease i, Database.drawn]
    omega
  · rw [← List.sum_toFinset _ hnodup, hcharged.consumed]
    refine Finset.sum_le_sum_of_subset fun receipt hmem => ?_
    exact hboth.issued_of_claimedFrom (List.mem_toFinset.mp hmem)

open Sample

def Sample.handoff : List (HandoffEvent 1) :=
  authorized.2.map .warden ++ handedOver.2.map .executor

theorem claims_within_allocation_handedOver :
    ((claimedFrom "a" handoff).map fun receipt => receipt.cost 0).sum = 2 ∧
      ∀ lease, authorized.1.leases.lookup "root" = some lease →
        (((claimedFrom "a" handoff).filter fun receipt => receipt.leaseId = "root").map
          fun receipt => receipt.cost 0).sum + lease.residual 0 ≤ lease.allocation 0 := by
  refine ⟨by decide +kernel, ?_⟩
  have hwarden := (service "a").play_run (envelope 6) (genesis "a" 6)
  have hexecutor := verifier.play_run none .zero emptyReplayStore
  have hgenuine : ∀ event ∈ handedOver.2, event.Genuine "a" authorized.2 := by
    decide +kernel
  have run := handoff_of_runs (hwarden _) (hexecutor _) hgenuine
  exact (claims_within_allocation (by exact ⟨rfl, rfl, rfl⟩) run 0).1 "root"

end Lets
