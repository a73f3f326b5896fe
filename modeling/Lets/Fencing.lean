import Lets.ExactlyOnce
import Lets.LeaseTree

set_option autoImplicit false

/-!
# Revocations are permanent

Once a warden has stored the revocation of a branch, no lease beneath it can be put to use there, and
a remote child that arrives beneath it is fenced: its amount goes to the free pool.
-/

namespace Lets

open Library

variable {d : ℕ} {Hash : Type}

namespace WardenService

variable {svc : WardenService d Hash} {envelope : Envelope d} {clock : Reading}
  {db db' : Database d Hash} {out : Response d}

theorem revocations_kept_of_run {calls : List (Call d)} {key : String × String}
    (run : (svc.system envelope).Run db calls db') (h : key ∈ db.revocations) :
    key ∈ db'.revocations := by
  refine run.preserves (P := fun db => key ∈ db.revocations) (fun db call db' hkey step => ?_) h
  rcases effect_cases step with ⟨out, _, heffect⟩ | ⟨_, rfl⟩
  · exact heffect.revocations_kept hkey
  · exact hkey

theorem Admits.fenced_of_revoked {voucher : TransferVoucher d} {request : LeaseRequest}
    {policy : PolicyRow d} {leases : Table String (Lease d)} {total freePool : ResourceVector d}
    {child : Option (LeaseRequest × ChildOutcome)}
    (h : Admits svc clock voucher policy db leases total freePool child)
    (hrequest : voucher.leaseRequest = some request)
    (hrevoked : db.pathRevoked request.lineageId request.ancestorPath = true) :
    leases = db.leases ∧ (∀ i, freePool i = db.freePool i + voucher.amount i) ∧
      child = some (request, .fenced) := by
  cases h with
  | pool request_eq => exact absurd (request_eq.symm.trans hrequest) (by simp)
  | fenced request_eq _ _ free =>
    obtain rfl := some_unique request_eq hrequest
    exact ⟨rfl, free, rfl⟩
  | issued request_eq _ _ notRevoked =>
    obtain rfl := some_unique request_eq hrequest
    exact absurd (notRevoked.symm.trans hrevoked) (by simp)

theorem Streams.fenced {accepted : List (TransferVoucher d × TransferAck)}
    {identity : IdentityContext} {voucher : TransferVoucher d} {request : LeaseRequest}
    (h : Streams svc accepted db) (hrequest : voucher.leaseRequest = some request)
    (hrevoked : db.pathRevoked request.lineageId request.ancestorPath = true)
    (hnew : voucher.sequence ∉ receivedFrom voucher.sourceWarden accepted)
    (hexec : svc.exec clock (.acceptTransfer identity voucher) db = .ok (db', out)) :
    db'.leases = db.leases ∧ (∀ i, db'.freePool i = db.freePool i + voucher.amount i) ∧
      ∃ ack, out = .ack ack ∧ ack.child = some (request.childLeaseId, .fenced) := by
  obtain ⟨_, _, hshown, ⟨⟨done⟩⟩ | ⟨⟨done⟩⟩⟩ := acceptTransfer_ok hexec
  · obtain ⟨first, hfirst, hkey, _⟩ := h.acks _ _ done.existing_eq
    exact absurd (mem_receivedFrom_iff.mpr ⟨first, hfirst, hkey⟩) hnew
  · obtain ⟨hleases, hfree, hchild⟩ := done.admits.fenced_of_revoked hrequest hrevoked
    have hleases' : db'.leases = done.leases := congrArg Database.leases done.result
    have hfree' : db'.freePool = done.freePool := congrArg Database.freePool done.result
    refine ⟨hleases'.trans hleases, fun i => by rw [hfree', hfree], done.ack, done.out_eq, ?_⟩
    rw [done.ack_eq, hchild]
    rfl

end WardenService

/-- Once a branch has been revoked, no new request to authorize, spawn, spawn remotely, renew or
resume succeeds on a lease beneath it, and a lease voucher for a child beneath it that is accepted
then creates no lease. -/
theorem revocation_permanent {svc : WardenService d Hash} {envelope : Envelope d}
    {db₀ db db' : Database d Hash} {calls later : List (Call d)} {lineageId branch : String}
    (hinit : (svc.system envelope).Init db₀) (run : (svc.system envelope).Run db₀ calls db)
    (hrevoked : (lineageId, branch) ∈ db.revocations)
    (run' : (svc.system envelope).Run db later db') :
    (∀ leaseId lease, db'.leases.lookup leaseId = some lease → lease.lineageId = lineageId →
      leaseId = branch ∨ branch ∈ lease.ancestorPath → ∀ clock operation,
        operation.uses = some leaseId → operation.IsNew db' → operation.Resumes lease →
          svc.Rejects clock operation db') ∧
    ∀ clock identity voucher request db'' out, voucher.leaseRequest = some request →
      request.lineageId = lineageId → branch ∈ request.ancestorPath →
      voucher.sequence ∉ receivedFrom voucher.sourceWarden (deliveries (calls ++ later)) →
      svc.serve clock (.acceptTransfer identity voucher) db' = (db'', .ok out) →
        db''.leases = db'.leases ∧ (∀ i, db''.freePool i = db'.freePool i + voucher.amount i) ∧
        (∃ ack, out = .ack ack ∧ ack.child = some (request.childLeaseId, .fenced)) ∧
        ∀ more db₁ clock' identity' db₂ out', (svc.system envelope).Run db'' more db₁ →
          svc.serve clock' (.acceptTransfer identity' voucher) db₁ = (db₂, .ok out') →
            out' = out ∧ db₂.ledger = db₁.ledger := by
  have hstored := WardenService.revocations_kept_of_run run' hrevoked
  have hrun := run.trans run'
  constructor
  · intro leaseId lease hlease hlineage hbeneath clock operation huse hnew hresumes
    have hmem : branch ∈ lease.ancestorPath ++ [leaseId] := by
      rw [List.mem_append, List.mem_singleton]
      exact hbeneath.symm.imp_right Eq.symm
    have hdead : db'.Dead leaseId lease :=
      .inr (.inl (Database.leaseRevoked_iff.mpr ⟨branch, hmem, hlineage ▸ hstored⟩))
    exact WardenService.rejects_of_dead huse hnew hlease hresumes hdead
  · intro clock identity voucher request db'' out hrequest hlineage hbranch hnew hserve
    have hstreams := (WardenService.streams_of_run hinit hrun).1
    have hpath : db'.pathRevoked request.lineageId request.ancestorPath = true :=
      Database.pathRevoked_of_mem (hlineage ▸ hstored) hbranch
    obtain ⟨hleases, hfree, ack, rfl, hchild⟩ :=
      hstreams.fenced hrequest hpath hnew (WardenService.serve_ok_iff.mp hserve)
    refine ⟨hleases, hfree, ⟨ack, rfl, hchild⟩, ?_⟩
    intro more db₁ clock' identity' db₂ out' run'' hserve'
    have hstep : (svc.system envelope).Step db'
      ⟨clock, .acceptTransfer identity voucher, .ok (.ack ack)⟩ db'' := hserve
    have hlonger := (hrun.snoc hstep).trans run''
    refine (WardenService.streams_of_run hinit hlonger).1.accept_again
      (mem_deliveries_iff.mpr ?_) (WardenService.serve_ok_iff.mp hserve')
    exact ⟨_, List.mem_append_left _ List.mem_concat_self, identity, rfl,
      rfl⟩

open Sample

/-- A branch is revoked on a warden before its remote child arrives there. -/
def Sample.revoking : List (Reading × Operation 1) :=
  [(exactly 1, registerPolicy),
    (exactly 2, .ingestRevocation operator
      { tenantId := "tenant"
        envelopeId := "envelope"
        configEpoch := 1
        branchLeaseId := "root"
        lineageId := "line"
        epoch := 1
        issuerWarden := "a"
        issuedAtNs := 1
        reason := "compromised"
        keyId := "a"
        signature := "a" })]

def Sample.lateChild : TransferVoucher 1 :=
  { voucher 1 "x1" with
    leaseRequest := some
      { childLeaseId := "child"
        lineageId := "line"
        parentId := "root"
        subjectId := "subject"
        capabilities := {"act"}
        ancestorPath := ["root"]
        branchEpoch := 0
        expiresAtNs := 50 } }

def Sample.revoked : Database 1 ℕ × List (Call 1) := (service "b").play (genesis "b" 4) revoking

def Sample.lateDelivery : Database 1 ℕ × Outcome (Response 1) :=
  (service "b").serve (exactly 3) (.acceptTransfer operator lateChild) revoked.1

theorem revocation_permanent_lateChild :
    lateDelivery.2.toOption.isSome = true ∧ lateDelivery.1.freePool 0 = 7 ∧
      lateDelivery.1.leases = revoked.1.leases := by
  have hok : lateDelivery.2.toOption.isSome = true := by decide +kernel
  refine ⟨hok, by decide +kernel, ?_⟩
  have hrun : ((service "b").system (envelope 4)).Run (genesis "b" 4)
    revoked.2 revoked.1 := (service "b").play_run (envelope 4) _ _
  have hstored : ("line", "root") ∈ revoked.1.revocations := by decide +kernel
  have hnone : deliveries revoked.2 = [] := by decide +kernel
  cases hreply : lateDelivery.2 with
  | error e =>
    rw [hreply] at hok
    exact absurd hok (by rintro ⟨⟩)
  | ok out =>
    refine ((revocation_permanent rfl hrun hstored (.nil _)).2 _ _ lateChild _ _ out rfl rfl
      List.mem_cons_self ?_ (Prod.ext rfl hreply)).1
    rw [List.append_nil, hnone]
    rintro ⟨⟩

end Lets
