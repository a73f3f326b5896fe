import Lets.Authorizing
import Lets.ReceiptHorizon

set_option autoImplicit false

/-!
# Leases run the machines of their policies

The state of a lease is where its receipts, in the order in which they were issued, have taken the
machine that its policy was registered with.
-/

namespace Lets

open Library

variable {d : ℕ} {Hash : Type}

/-- The machine of a policy as a transition system, each step labelled with the receipt for it. -/
def PolicyPayload.machine (payload : PolicyPayload d) : System String (Receipt d) where
  Init state := state = payload.initialState
  Step state receipt state' := receipt.sourceState = state ∧ receipt.targetState = state' ∧
    ∃ rule, payload.Enables state receipt.transition rule ∧ rule.target = state' ∧
      rule.cost = receipt.cost

def receiptsOf (leaseId : String) (calls : List (Call d)) : List (Receipt d) :=
  (issueOrder calls).filter fun receipt => receipt.leaseId = leaseId

/-- The policy of a lease is registered, with the machine that the lease is bound to, and the
receipts of the lease are a run of this machine from its initial state to the state of the lease. -/
def RunsMachine (calls : List (Call d)) (db : Database d Hash) (leaseId : String)
    (lease : Lease d) : Prop :=
  ∃ policy, db.policies.lookup lease.policyDigest = some policy ∧
    policy.machineDigest = lease.machineDigest ∧
    policy.payload.machine.Run policy.payload.initialState (receiptsOf leaseId calls) lease.state

theorem RunsMachine.of_terms {calls calls' : List (Call d)} {db db' : Database d Hash}
    {leaseId : String} {lease lease' : Lease d} (h : RunsMachine calls db leaseId lease)
    (hpolicies : ∀ {digest row}, db.policies.lookup digest = some row →
      db'.policies.lookup digest = some row)
    (hterms : lease'.terms = lease.terms) (hstate : lease'.state = lease.state)
    (hreceipts : receiptsOf leaseId calls' = receiptsOf leaseId calls) :
    RunsMachine calls' db' leaseId lease' := by
  obtain ⟨policy, hpolicy, hmachine, run⟩ := h
  have hbound : lease'.machineDigest = lease.machineDigest := congrArg (·.2.2.2.2.1) hterms
  refine ⟨policy, ?_, hmachine.trans hbound.symm, ?_⟩
  · rw [(Lease.keeps hterms).policyDigest]
    exact hpolicies hpolicy
  · rw [hreceipts, hstate]
    exact run

namespace WardenService

variable {svc : WardenService d Hash} {envelope : Envelope d} {clock : Reading}
  {operation : Operation d} {db₀ db db' : Database d Hash} {out : Response d}
  {calls : List (Call d)} {call : Call d} {leaseId : String} {lease : Lease d}

theorem RowNew.initial (h : RowNew svc clock db db' leaseId lease operation) : ∃ policy,
    db.policies.lookup lease.policyDigest = some policy ∧
      policy.machineDigest = lease.machineDigest ∧ lease.state = policy.payload.initialState := by
  cases h with
  | root _ _ _ _ done row_eq | child done _ _ _ _ _ _ row_eq =>
    rw [row_eq, done.grant_eq]
    exact ⟨done.policy, done.policy_eq, rfl, rfl⟩
  | remote done _ _ _ _ _ _ _ _ _ _ _ row_eq =>
    rw [row_eq]
    exact ⟨done.policy, done.policy_eq, rfl, rfl⟩

theorem Authorized.issueOrder_eq {newReceiptId : String} {req : AuthorizeRequest}
    (done : Authorized svc clock newReceiptId req db db' out) (hcharged : Charged svc calls db)
    (hreply : call.reply = .ok out) :
    issueOrder (calls ++ [call]) = issueOrder calls ++ [done.receipt] := by
  rw [done.out_eq] at hreply
  rcases issueOrder_concat calls call with heq | ⟨receipt, hreceipt, _, heq⟩
  · have hmem : done.receipt ∈ issued (calls ++ [call]) := mem_answers_iff.mpr
      ⟨call, List.mem_concat_self, _, hreply, rfl⟩
    rw [← mem_issueOrder, heq, mem_issueOrder] at hmem
    have hstored := hcharged.stored _ hmem
    rw [done.receipt_eq] at hstored
    exact absurd (Table.mem_of_lookup hstored) done.receipt_new
  · rw [heq, Response.receipt.inj (Except.ok.inj (hreceipt.symm.trans hreply))]

theorem receiptsOf_of_new (hinit : (svc.system envelope).Init db₀)
    (run : (svc.system envelope).Run db₀ calls db) (hnew : leaseId ∉ db.leases) :
    receiptsOf leaseId calls = [] := by
  refine List.filter_eq_nil_iff.mpr fun receipt hmem hlease => hnew ?_
  have hstored := (accounts_of_run hinit run).charged.stored _ (mem_issueOrder.mp hmem)
  obtain ⟨lease, hlookup, _⟩ := receiptsBehind_of_run hinit run _ _ hstored
  rw [of_decide_eq_true hlease] at hlookup
  exact Table.mem_of_lookup hlookup

theorem Authorized.receipts_ne {newReceiptId : String} {req : AuthorizeRequest}
    (done : Authorized svc clock newReceiptId req db db' out) : db'.receipts ≠ db.receipts := by
  intro hsame
  refine done.receipt_new (hsame ▸ ?_)
  rw [done.receipts_eq]
  exact (AList.mem_insert _).mpr (.inl rfl)

theorem Authorized.runsMachine {newReceiptId : String} {req : AuthorizeRequest}
    (done : Authorized svc clock newReceiptId req db db' out)
    (h : RunsMachine calls db req.leaseId done.lease)
    (hlease : db'.leases.lookup req.leaseId = some lease)
    (hreceipts : receiptsOf req.leaseId (calls ++ [call]) =
      receiptsOf req.leaseId calls ++ [done.receipt]) :
    RunsMachine (calls ++ [call]) db' req.leaseId lease := by
  have hissued := done.receiptIssued
  obtain ⟨residual, _, hrow⟩ := hissued.lease_after
  obtain rfl := some_unique hrow hlease
  obtain ⟨policy, hpolicy, hmachine, run⟩ := h
  obtain rfl := some_unique hpolicy done.policy_eq
  have hpolicies : db'.policies = db.policies := by rw [hissued.kept]
  refine ⟨done.policy, hpolicies ▸ hpolicy, hmachine, ?_⟩
  rw [hreceipts]
  refine .snoc run ⟨hissued.source, rfl, done.rule, ?_, hissued.target.symm, hissued.charge.symm⟩
  rw [hissued.names.2.2.1]
  exact hissued.enabled

/-- Where a call takes no transition, every lease stays in its state and a new one is in the initial
state of its machine. -/
theorem Effect.runsMachine (h : Effect svc clock db operation db' out)
    (hreceipts : db'.receipts = db.receipts)
    (ih : ∀ lease, db.leases.lookup leaseId = some lease → RunsMachine calls db leaseId lease)
    (hempty : leaseId ∉ db.leases → receiptsOf leaseId calls = [])
    (hlease : db'.leases.lookup leaseId = some lease) : RunsMachine calls db' leaseId lease := by
  cases hbefore : db.leases.lookup leaseId with
  | some before =>
    have hevolves := h.leases_evolve (R := fun lease lease' => lease'.state = lease.state)
      (fun _ _ hstate _ => hstate) fun _ _ done => absurd hreceipts done.receipts_ne
    obtain ⟨lease₁, hlease₁, hstate⟩ := hevolves _ _ hbefore
    obtain ⟨lease₂, hlease₂, hterms, _⟩ := h.row_terms hbefore
    obtain rfl := some_unique hlease₁ hlease
    obtain rfl := some_unique hlease₂ hlease
    exact (ih before hbefore).of_terms h.policies_kept hterms hstate rfl
  | none =>
    have hnew := AList.lookup_eq_none.mp hbefore
    obtain ⟨policy, hpolicy, hmachine, hstate⟩ := (h.row_new hnew hlease).initial
    refine ⟨policy, h.policies_kept hpolicy, hmachine, ?_⟩
    rw [hempty hnew, hstate]
    exact .nil _

theorem runsMachine_step (hinit : (svc.system envelope).Init db₀)
    (run : (svc.system envelope).Run db₀ calls db) (step : (svc.system envelope).Step db call db')
    (ih : ∀ leaseId lease, db.leases.lookup leaseId = some lease →
      RunsMachine calls db leaseId lease)
    (hlease : db'.leases.lookup leaseId = some lease) :
    RunsMachine (calls ++ [call]) db' leaseId lease := by
  have haccounts := accounts_of_run hinit run
  -- a call that stores no receipt does not issue one either
  have hsame : db'.receipts = db.receipts →
      receiptsOf leaseId (calls ++ [call]) = receiptsOf leaseId calls := by
    intro hreceipts
    rcases issueOrder_concat calls call with heq | ⟨receipt, hreply, hnew, _⟩
    · rw [receiptsOf, heq, receiptsOf]
    · obtain ⟨_, _, _, done, _⟩ := authorized_of_new haccounts.remembers step hreply hnew
      exact absurd hreceipts done.receipts_ne
  rcases effect_cases step with ⟨out, hreply, heffect⟩ | ⟨_, rfl⟩
  case inr => exact (ih leaseId lease hlease).of_terms id rfl rfl (hsame rfl)
  rcases heffect.charges_cases with ⟨hcharges, _⟩ | ⟨newReceiptId, req, _, ⟨done⟩⟩
  · have hreceipts : db'.receipts = db.receipts := congrArg Prod.fst hcharges
    exact (heffect.runsMachine hreceipts (ih leaseId) (receiptsOf_of_new hinit run) hlease).of_terms
      id rfl rfl (hsame hreceipts)
  · have hconcat : receiptsOf leaseId (calls ++ [call]) = receiptsOf leaseId calls ++
        [done.receipt].filter fun receipt => receipt.leaseId = leaseId := by
      rw [receiptsOf, done.issueOrder_eq haccounts.charged hreply, List.filter_append, receiptsOf]
    by_cases hid : leaseId = req.leaseId
    · subst hid
      refine done.runsMachine (ih _ _ done.lease_eq) hlease (hconcat.trans ?_)
      rw [List.filter_singleton, decide_eq_true done.leaseId_eq]
      rfl
    · have hkept := done.receiptIssued.other_leases leaseId hid
      refine (ih leaseId lease (hkept ▸ hlease)).of_terms heffect.policies_kept rfl rfl ?_
      rw [hconcat, List.filter_singleton, done.leaseId_eq, decide_eq_false (Ne.symm hid)]
      exact List.append_nil _

/-- In every run of a warden, whatever its operations and their order, the receipts issued on a lease
are, one after the other, steps of the machine that the policy of the lease was registered with, from
its initial state to the state the lease is in, each at the cost of the rule that allows it. -/
theorem lease_runs_machine (hinit : (svc.system envelope).Init db₀)
    (run : (svc.system envelope).Run db₀ calls db)
    (hlease : db.leases.lookup leaseId = some lease) : RunsMachine calls db leaseId lease := by
  induction run generalizing leaseId lease with
  | nil =>
    rw [hinit] at hlease
    cases hlease
  | snoc run step ih => exact runsMachine_step hinit run step (fun _ _ => ih) hlease

theorem lease_runs_machine_authorized : (receiptsOf "root" Sample.authorized.2).length = 2 ∧
    ∃ lease, Sample.authorized.1.leases.lookup "root" = some lease ∧
      RunsMachine Sample.authorized.2 Sample.authorized.1 "root" lease := by
  refine ⟨by decide +kernel, ?_⟩
  obtain ⟨lease, hlease⟩ : ∃ lease, Sample.authorized.1.leases.lookup "root" = some lease :=
    Option.isSome_iff_exists.mp (by decide +kernel)
  have run := (Sample.service "a").play_run (Sample.envelope 6) (Sample.genesis "a" 6)
  exact ⟨lease, hlease, lease_runs_machine rfl (run _) hlease⟩

/-- No nonce is authorized twice: the receipts that a warden issues for one audience, in any run and
on whatever leases, have different nonces. -/
theorem nonces_unique (hinit : (svc.system envelope).Init db₀)
    (run : (svc.system envelope).Run db₀ calls db) :
    (issueOrder calls).Pairwise fun earlier later =>
      earlier.executorAudience = later.executorAudience → earlier.nonce ≠ later.nonce := by
  induction run with
  | nil => exact List.Pairwise.nil
  | snoc run step ih =>
    rcases issueOrder_concat _ _ with heq | ⟨receipt, hreply, hnew, heq⟩
    · rwa [heq]
    have haccounts := accounts_of_run hinit run
    obtain ⟨newReceiptId, req, out, done, rfl⟩ :=
      authorized_of_new haccounts.remembers step hreply hnew
    rw [heq]
    refine List.pairwise_append.mpr ⟨ih, List.pairwise_singleton _ _, ?_⟩
    intro earlier hearlier later hlater haudience
    rw [List.mem_singleton.mp hlater] at haudience ⊢
    have hstored := haccounts.charged.stored earlier (mem_issueOrder.mp hearlier)
    have hnonce := done.nonce_new _ _ hstored (haudience.trans done.audience_eq)
    rw [done.receipt_eq]
    exact hnonce

theorem nonces_unique_authorized : (issueOrder Sample.authorized.2).length = 2 ∧
    (issueOrder Sample.authorized.2).Pairwise fun earlier later =>
      earlier.executorAudience = later.executorAudience → earlier.nonce ≠ later.nonce := by
  have run := (Sample.service "a").play_run (Sample.envelope 6) (Sample.genesis "a" 6)
  exact ⟨by decide +kernel, nonces_unique rfl (run _)⟩

end WardenService

end Lets
