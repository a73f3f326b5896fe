import Lets.ExactlyOnce
import Lets.Grants

set_option autoImplicit false

/-!
# Vouchers and the leases they create

What a warden knows of the vouchers it has signed, in every later state, and which voucher each
lease with a remote parent was created for.
-/

namespace Lets

open Library

variable {d : ℕ} {Hash : Type}

/-- The terms of a delegation are within those of the lease that it draws from. -/
structure Attenuated (parentId : String) (parent : Lease d) (lineageId policyDigest : String)
    (capabilities : Finset String) (ancestorPath : List String) (allocation : ResourceVector d) :
    Prop where
  lineage_eq : lineageId = parent.lineageId
  policy_eq : policyDigest = parent.policyDigest
  capabilities_subset : capabilities ⊆ parent.capabilities
  path_eq : ancestorPath = parent.ancestorPath ++ [parentId]
  allocation_le : ∀ i, allocation i ≤ parent.allocation i

theorem Attenuated.of_terms {parentId lineageId policyDigest : String} {parent parent' : Lease d}
    {capabilities : Finset String} {ancestorPath : List String} {allocation : ResourceVector d}
    (h : Attenuated parentId parent lineageId policyDigest capabilities ancestorPath allocation)
    (hterms : parent'.terms = parent.terms) :
    Attenuated parentId parent' lineageId policyDigest capabilities ancestorPath allocation where
  lineage_eq := h.lineage_eq.trans (Lease.keeps hterms).lineageId.symm
  policy_eq := h.policy_eq.trans (Lease.keeps hterms).policyDigest.symm
  capabilities_subset := h.capabilities_subset.trans (Lease.keeps hterms).capabilities.ge
  path_eq := by
    rw [(Lease.keeps hterms).ancestorPath]
    exact h.path_eq
  allocation_le i := by
    rw [(Lease.keeps hterms).allocation]
    exact h.allocation_le i

def Lease.Attenuates (lease : Lease d) (parentId : String) (parent : Lease d) : Prop :=
  Attenuated parentId parent lease.lineageId lease.policyDigest lease.capabilities
    lease.ancestorPath lease.allocation

theorem Lease.Attenuates.of_terms {lease lease' parent parent' : Lease d} {parentId : String}
    (h : lease.Attenuates parentId parent) (hterms : lease'.terms = lease.terms)
    (hterms' : parent'.terms = parent.terms) : lease'.Attenuates parentId parent' := by
  have hkeeps := Lease.keeps hterms
  unfold Lease.Attenuates
  rw [hkeeps.lineageId, hkeeps.policyDigest, hkeeps.capabilities, hkeeps.ancestorPath,
    hkeeps.allocation]
  exact Attenuated.of_terms h hterms'

def TransferVoucher.Attenuates (voucher : TransferVoucher d) (request : LeaseRequest)
    (parent : Lease d) : Prop :=
  Attenuated request.parentId parent request.lineageId voucher.policyDigest request.capabilities
    request.ancestorPath voucher.amount

structure Lease.IssuedFor (leaseId : String) (lease : Lease d) (voucher : TransferVoucher d)
    (request : LeaseRequest) : Prop where
  request_eq : voucher.leaseRequest = some request
  id_eq : leaseId = request.childLeaseId
  origin_eq : lease.origin = (request.lineageId, none, some voucher.sourceWarden,
    some request.parentId, request.ancestorPath)
  subject_eq : lease.subjectId = request.subjectId
  allocation_eq : lease.allocation = voucher.amount
  capabilities_eq : lease.capabilities = request.capabilities
  policy_eq : lease.policyDigest = voucher.policyDigest

theorem Lease.IssuedFor.of_terms {leaseId : String} {lease lease' : Lease d}
    {voucher : TransferVoucher d} {request : LeaseRequest}
    (h : lease.IssuedFor leaseId voucher request) (hterms : lease'.terms = lease.terms) :
    lease'.IssuedFor leaseId voucher request where
  request_eq := h.request_eq
  id_eq := h.id_eq
  origin_eq := (congrArg Prod.fst hterms).trans h.origin_eq
  subject_eq := (Lease.keeps hterms).subjectId.trans h.subject_eq
  allocation_eq := (Lease.keeps hterms).allocation.trans h.allocation_eq
  capabilities_eq := (Lease.keeps hterms).capabilities.trans h.capabilities_eq
  policy_eq := (Lease.keeps hterms).policyDigest.trans h.policy_eq

namespace WardenService

inductive SignedBy (svc : WardenService d Hash) (clock : Reading) (db db' : Database d Hash) :
    Operation d → TransferVoucher d → Prop
  | remoteSpawned {newLeaseId newTransferId : String} {req : SpawnRemoteRequest d}
      {out : Response d}
      (done : RemoteSpawned svc clock newLeaseId newTransferId req db db' out) :
      SignedBy svc clock db db' (.spawnRemote newLeaseId newTransferId req) done.voucher
  | prepared {newTransferId : String} {req : PrepareTransferRequest d} {out : Response d}
      (done : Prepared svc clock newTransferId req db db' out) :
      SignedBy svc clock db db' (.prepareTransfer newTransferId req) done.voucher

variable {svc : WardenService d Hash} {clock : Reading} {operation : Operation d}
  {db db' : Database d Hash} {out : Response d}

variable {voucher : TransferVoucher d}

theorem Effect.signedBy (h : Effect svc clock db operation db' out) (hout : out = .voucher voucher) :
    db.Recorded out ∨ SignedBy svc clock db db' operation voucher := by
  cases h with
  | remoteSpawned done =>
    obtain rfl := Response.voucher.inj (done.out_eq.symm.trans hout)
    exact .inr (.remoteSpawned done)
  | prepared done =>
    obtain rfl := Response.voucher.inj (done.out_eq.symm.trans hout)
    exact .inr (.prepared done)
  | replayed _ recorded _ response_eq | revokedAgain _ recorded _ response_eq =>
    exact .inl ⟨_, _, recorded, response_eq⟩
  | runtimeSet _ out_eq | branchRevoked _ _ out_eq => exact absurd (out_eq.symm.trans hout) (by simp)
  | policyRegistered out_eq | attempted out_eq | prunedTerminal out_eq | prunedHistory out_eq
  | reclaimed out_eq | finalized out_eq | checkpointCreated out_eq | checkpointIngested out_eq
  | revocationKnown out_eq | revocationStored out_eq => exact absurd (out_eq.symm.trans hout) (by simp)
  | rootIssued done | spawned done | authorized done | renewed done | unmoved done | switched done
  | closed done => exact absurd (done.out_eq.symm.trans hout) (by simp)
  | redelivered _ done | credited _ done => exact absurd (done.out_eq.symm.trans hout) (by simp)

variable {calls : List (Call d)}

theorem mem_signed_concat {call : Call d} (hremembers : Remembers calls db)
    (hreply : call.reply = .ok out) (heffect : Effect svc call.clock db call.operation db' out)
    (hmem : voucher ∈ signed (calls ++ [call])) :
    voucher ∈ signed calls ∨ SignedBy svc call.clock db db' call.operation voucher := by
  obtain ⟨c, hc, o, hc_reply, hvoucher⟩ := mem_answers_iff.mp hmem
  rcases List.mem_append.mp hc with hc | hc
  · exact .inl (mem_answers_iff.mpr ⟨c, hc, o, hc_reply, hvoucher⟩)
  · rw [List.mem_singleton.mp hc, hreply] at hc_reply
    obtain rfl := Except.ok.inj hc_reply
    rcases heffect.signedBy (Response.voucher?_eq_some hvoucher) with hrecorded | hsigns
    · exact .inl (mem_answers_of_recorded hremembers hrecorded hvoucher)
    · exact .inr hsigns

theorem mem_signed_of_mem (call : Call d) (hmem : voucher ∈ signed calls) :
    voucher ∈ signed (calls ++ [call]) := by
  obtain ⟨c, hc, hanswer⟩ := mem_answers_iff.mp hmem
  exact mem_answers_iff.mpr ⟨c, List.mem_append_left _ hc, hanswer⟩

variable {envelope : Envelope d} {db₀ : Database d Hash}

/-- What holds of a voucher when it is signed and is kept by every operation holds of every signed
voucher ever after. -/
theorem signed_induction {P : TransferVoucher d → Database d Hash → Prop}
    (hsigned : ∀ {clock db operation db' voucher}, (svc.system envelope).Reachable db →
      SignedBy svc clock db db' operation voucher → P voucher db')
    (hkept : ∀ {clock db operation db' out voucher}, (svc.system envelope).Reachable db →
      Effect svc clock db operation db' out → P voucher db → P voucher db')
    (hinit : (svc.system envelope).Init db₀) (run : (svc.system envelope).Run db₀ calls db)
    (hmem : voucher ∈ signed calls) : P voucher db := by
  induction run with
  | nil => exact absurd hmem (Finset.notMem_empty _)
  | @snoc s t calls call run step ih =>
    have hreach : (svc.system envelope).Reachable s := ⟨_, _, hinit, run⟩
    have hremembers := (accounts_of_run hinit run).remembers
    rcases effect_cases step with ⟨out, hreply, heffect⟩ | ⟨⟨e, hreply⟩, rfl⟩
    · rcases mem_signed_concat hremembers hreply heffect hmem with hold | hsigns
      · exact hkept hreach heffect (ih hold)
      · exact hsigned hreach hsigns
    · have hsame : signed (calls ++ [call]) = signed calls := answers_concat_error hreply
      rw [hsame] at hmem
      exact ih hmem

def LocalChildren (db : Database d Hash) : Prop :=
  ∀ leaseId lease, db.leases.lookup leaseId = some lease → ∀ parentId,
    lease.parentId = some parentId → ∃ parent, db.leases.lookup parentId = some parent ∧
      lease.Attenuates parentId parent

theorem Effect.localChildren (h : Effect svc clock db operation db' out) (hdb : LocalChildren db)
    (hresidual : ∀ leaseId lease, db.leases.lookup leaseId = some lease →
      ∀ i, lease.residual i ≤ lease.allocation i) : LocalChildren db' := by
  intro leaseId lease' hlease' parentId hparent
  cases hlease : db.leases.lookup leaseId with
  | some lease =>
    obtain ⟨lease₁, hlease₁, hterms, _⟩ := h.row_terms hlease
    obtain rfl := some_unique hlease₁ hlease'
    rw [(Lease.keeps hterms).parentId] at hparent
    obtain ⟨parent, hlookup, hwithin⟩ := hdb leaseId lease hlease parentId hparent
    obtain ⟨parent', hlookup', hterms', _⟩ := h.row_terms hlookup
    exact ⟨parent', hlookup', hwithin.of_terms hterms hterms'⟩
  | none =>
    cases h.row_new (AList.lookup_eq_none.mp hlease) hlease' with
    | root parent_eq => rw [parent_eq] at hparent; cases hparent
    | remote _ _ _ _ _ _ parent_eq => rw [parent_eq] at hparent; cases hparent
    | @child req _ done parent_eq _ _ _ _ _ row_eq =>
      obtain rfl := some_unique parent_eq hparent
      obtain ⟨parent', hlookup', hterms', _⟩ := h.row_terms done.parent_eq
      refine ⟨parent', hlookup', Attenuated.of_terms ?_ hterms'⟩
      rw [row_eq, done.grant_eq]
      refine ⟨rfl, rfl, done.capabilities_subset, rfl, fun i => ?_⟩
      have hdrawn := done.residual_eq i
      have hheld := hresidual _ _ done.parent_eq i
      change req.allocation i ≤ done.parent.allocation i
      omega

theorem localChildren_of_reachable (hreach : (svc.system envelope).Reachable db) :
    LocalChildren db := by
  obtain ⟨db₀, calls, hinit, run⟩ := hreach
  induction run with
  | nil =>
    subst hinit
    exact fun leaseId lease hlease => (by cases hlease)
  | @snoc s t calls call run step ih =>
    have hreach : (svc.system envelope).Reachable s := ⟨_, _, hinit, run⟩
    rcases effect_cases step with ⟨out, _, heffect⟩ | ⟨_, rfl⟩
    · apply heffect.localChildren ih
      exact fun leaseId lease hlease => residual_le_of_reachable hreach hlease
    · exact ih

theorem signed_attenuates (hinit : (svc.system envelope).Init db₀)
    (run : (svc.system envelope).Run db₀ calls db) {request : LeaseRequest}
    (hmem : voucher ∈ signed calls) (hrequest : voucher.leaseRequest = some request) :
    ∃ parent, db.leases.lookup request.parentId = some parent ∧
      voucher.Attenuates request parent := by
  apply signed_induction (P := fun voucher (db : Database d Hash) => ∀ request,
    voucher.leaseRequest = some request → ∃ parent, db.leases.lookup request.parentId = some parent ∧
      voucher.Attenuates request parent) ?_ ?_ hinit run hmem request hrequest
  · intro clock db operation db' voucher hreach hsigned request hrequest
    cases hsigned with
    | prepared done => rw [done.voucher_eq] at hrequest; cases hrequest
    | @remoteSpawned newLeaseId newTransferId req out done =>
      rw [done.voucher_eq] at hrequest ⊢
      obtain rfl := Option.some.inj hrequest
      have hleases : db'.leases = db.leases.update req.parentId _ :=
        congrArg Database.leases done.result
      refine ⟨debited done.residual clock.nowNs done.parent, ?_, rfl, rfl,
        done.capabilities_subset, rfl, fun i => ?_⟩
      · rw [hleases]
        change (db.leases.update req.parentId _).lookup req.parentId = _
        rw [Table.lookup_update, if_pos rfl, done.parent_eq]
        rfl
      · have hdrawn := done.residual_eq i
        have hheld := residual_le_of_reachable hreach done.parent_eq i
        change req.allocation i ≤ done.parent.allocation i
        omega
  · intro clock db operation db' out voucher _ heffect hold request hrequest
    obtain ⟨parent, hparent, hwithin⟩ := hold request hrequest
    obtain ⟨parent', hparent', hterms, _⟩ := heffect.row_terms hparent
    exact ⟨parent', hparent', Attenuated.of_terms hwithin hterms⟩

/-- What the acknowledgement of a voucher says, and that a lease it reports is there. -/
structure Acknowledges (svc : WardenService d Hash) (voucher : TransferVoucher d)
    (ack : TransferAck) (db : Database d Hash) : Prop where
  transferId_eq : ack.transferId = voucher.transferId
  source_eq : ack.sourceWarden = voucher.sourceWarden
  target_eq : ack.targetWarden = svc.wardenId
  sequence_eq : ack.sequence = voucher.sequence
  digest_eq : ack.voucherDigest = svc.recordDigest (.voucher voucher)
  child_eq : voucher.leaseRequest = none ∧ ack.child = none ∨
    ∃ request, voucher.leaseRequest = some request ∧
      (ack.child = some (request.childLeaseId, .fenced) ∨
        ack.child = some (request.childLeaseId, .issued) ∧
          ∃ lease, db.leases.lookup request.childLeaseId = some lease ∧
            lease.IssuedFor request.childLeaseId voucher request)

theorem Acknowledges.kept {ack : TransferAck} (h : Acknowledges svc voucher ack db)
    (heffect : Effect svc clock db operation db' out) : Acknowledges svc voucher ack db' := by
  refine ⟨h.transferId_eq, h.source_eq, h.target_eq, h.sequence_eq, h.digest_eq, ?_⟩
  rcases h.child_eq with hnone | ⟨request, hrequest, hfenced | ⟨hissued, lease, hlease, hfor⟩⟩
  · exact .inl hnone
  · exact .inr ⟨request, hrequest, .inl hfenced⟩
  · obtain ⟨lease', hlease', hterms, _⟩ := heffect.row_terms hlease
    exact .inr ⟨request, hrequest, .inr ⟨hissued, lease', hlease', hfor.of_terms hterms⟩⟩

theorem Credited.acknowledges (done : Credited svc clock voucher db db' out) :
    Acknowledges svc voucher done.ack db' := by
  have hleases : db'.leases = done.leases := congrArg Database.leases done.result
  rw [done.ack_eq]
  refine ⟨rfl, rfl, rfl, rfl, rfl, ?_⟩
  change voucher.leaseRequest = none ∧ done.child.map _ = none ∨ _
  rw [hleases]
  have hadmits := done.admits
  generalize done.leases = leases, done.leaseResidual = total, done.freePool = freePool,
    done.child = child at hadmits
  cases hadmits with
  | pool request_eq => exact .inl ⟨request_eq, rfl⟩
  | fenced request_eq => exact .inr ⟨_, request_eq, .inl rfl⟩
  | issued request_eq =>
    refine .inr ⟨_, request_eq, .inr ⟨rfl, _, AList.lookup_insert _, request_eq, rfl, ?_, rfl, rfl,
      rfl, rfl⟩⟩
    rfl

/-- What a warden has made of the vouchers that it has accepted. -/
structure Arrivals (svc : WardenService d Hash) (accepted : List (TransferVoucher d × TransferAck))
    (db : Database d Hash) : Prop where
  /-- Every delivery has the acknowledgement of the first one of its sequence. -/
  settled : ∀ delivery ∈ accepted, ∃ first ∈ accepted, first.1.key = delivery.1.key ∧
    first.2 = delivery.2 ∧ Acknowledges svc first.1 first.2 db
  /-- Every lease with a remote parent was created for one of the vouchers. -/
  remote : ∀ leaseId lease, db.leases.lookup leaseId = some lease → lease.parentWarden ≠ none →
    ∃ delivery ∈ accepted, ∃ request, lease.IssuedFor leaseId delivery.1 request ∧
      delivery.2.child = some (leaseId, .issued)

theorem Effect.accepted (h : Effect svc clock db operation db' out) {identity : IdentityContext}
    (hoperation : operation = .acceptTransfer identity voucher) :
    Nonempty (Redelivered svc clock voucher db db' out) ∨
      Nonempty (Credited svc clock voucher db db' out) := by
  rcases h.inbound_cases with ⟨_, hne⟩ | ⟨_, voucher', hop, _, hdone⟩ | ⟨_, _, hop, _⟩ |
    ⟨_, _, hop, _⟩
  · exact absurd hoperation (hne identity voucher)
  · obtain ⟨_, rfl⟩ := Operation.acceptTransfer.inj (hoperation.symm.trans hop)
    exact hdone
  · cases hoperation.symm.trans hop
  · cases hoperation.symm.trans hop

theorem Effect.credited_of_new (h : Effect svc clock db operation db' out) {leaseId : String}
    {lease : Lease d} (hnew : leaseId ∉ db.leases) (hlease : db'.leases.lookup leaseId = some lease)
    (hremote : lease.parentWarden ≠ none) : ∃ identity voucher request,
      operation = .acceptTransfer identity voucher ∧ lease.IssuedFor leaseId voucher request ∧
      lease.expiresAtNs = request.expiresAtNs ∧
      ∃ done : Credited svc clock voucher db db' out,
        done.ack.child = some (leaseId, .issued) := by
  cases h.row_new hnew hlease with
  | root _ warden_eq => exact absurd warden_eq hremote
  | child _ _ warden_eq => exact absurd warden_eq hremote
  | @remote identity voucher =>
    rcases h.accepted rfl with ⟨⟨done⟩⟩ | ⟨⟨done⟩⟩
    · have hleases : db'.leases = db.leases := by rw [done.result]; rfl
      rw [hleases, AList.lookup_eq_none.mpr hnew] at hlease
      cases hlease
    · have hleases : db'.leases = done.leases := congrArg Database.leases done.result
      rw [hleases] at hlease
      obtain ⟨request, signature, hrequest, hchild, _, _, hid, hrow, _⟩ :=
        done.admits.issued_of_new hnew hlease
      refine ⟨identity, voucher, request, rfl, ?_, ?_, done, ?_⟩
      · rw [hrow]
        exact ⟨hrequest, hid.symm, rfl, rfl, rfl, rfl, rfl⟩
      · rw [hrow]
        rfl
      · rw [done.ack_eq, hchild, ← hid]
        rfl

theorem mem_deliveries_concat {call : Call d} {delivery : TransferVoucher d × TransferAck}
    (h : delivery ∈ deliveries (calls ++ [call])) :
    delivery ∈ deliveries calls ∨ ∃ identity,
      call.operation = .acceptTransfer identity delivery.1 ∧ call.reply = .ok (.ack delivery.2) := by
  obtain ⟨c, hc, identity, hoperation, hreply⟩ := mem_deliveries_iff.mp h
  rcases List.mem_append.mp hc with hc | hc
  · exact .inl (mem_deliveries_iff.mpr ⟨c, hc, identity, hoperation, hreply⟩)
  · rw [List.mem_singleton] at hc
    subst hc
    exact .inr ⟨identity, hoperation, hreply⟩

theorem Arrivals.step {call : Call d} (h : Arrivals svc (deliveries calls) db)
    (hstreams : Streams svc (deliveries calls) db) (hreply : call.reply = .ok out)
    (heffect : Effect svc call.clock db call.operation db' out) :
    Arrivals svc (deliveries (calls ++ [call])) db' := by
  have hmono : ∀ delivery ∈ deliveries calls, delivery ∈ deliveries (calls ++ [call]) := by
    intro delivery hmem
    unfold deliveries
    rw [List.filterMap_append]
    exact List.mem_append_left _ hmem
  constructor
  · intro delivery hmem
    rcases mem_deliveries_concat hmem with hold | ⟨identity, hoperation, hack⟩
    · obtain ⟨first, hfirst, hkey, heq, hacknowledges⟩ := h.settled delivery hold
      exact ⟨first, hmono first hfirst, hkey, heq, hacknowledges.kept heffect⟩
    · obtain rfl := Except.ok.inj (hreply.symm.trans hack)
      rcases heffect.accepted hoperation with ⟨⟨done⟩⟩ | ⟨⟨done⟩⟩
      · -- the acknowledgement is that of the first delivery
        obtain ⟨earlier, hearlier, hkey, hrow⟩ := hstreams.acks _ _ done.existing_eq
        obtain ⟨first, hfirst, hkey', heq, hacknowledges⟩ := h.settled earlier hearlier
        have hack : delivery.2 = earlier.2 := by
          rw [Response.ack.inj done.out_eq, hrow]
        refine ⟨first, hmono first hfirst, hkey'.trans hkey, heq.trans hack.symm, ?_⟩
        exact hacknowledges.kept heffect
      · have hack := Response.ack.inj done.out_eq
        refine ⟨delivery, hmem, rfl, rfl, ?_⟩
        rw [hack]
        exact done.acknowledges
  · intro leaseId lease' hlease' hremote
    cases hlease : db.leases.lookup leaseId with
    | some lease =>
      obtain ⟨lease₁, hlease₁, hterms, _⟩ := heffect.row_terms hlease
      obtain rfl := some_unique hlease₁ hlease'
      rw [(Lease.keeps hterms).parentWarden] at hremote
      obtain ⟨delivery, hmem, request, hfor, hchild⟩ := h.remote leaseId lease hlease hremote
      exact ⟨delivery, hmono delivery hmem, request, hfor.of_terms hterms, hchild⟩
    | none =>
      obtain ⟨identity, voucher, request, hoperation, hfor, _, done, hchild⟩ :=
        heffect.credited_of_new (AList.lookup_eq_none.mp hlease) hlease' hremote
      refine ⟨(voucher, done.ack), mem_deliveries_iff.mpr ⟨call, ?_, identity, hoperation, ?_⟩,
        request, hfor, hchild⟩
      · exact List.mem_concat_self
      · exact hreply.trans (congrArg Except.ok done.out_eq)

theorem arrivals_of_run (hinit : (svc.system envelope).Init db₀)
    (run : (svc.system envelope).Run db₀ calls db) : Arrivals svc (deliveries calls) db := by
  induction run with
  | nil =>
    subst hinit
    exact ⟨(fun _ h => by cases h), fun leaseId lease hlease => (by cases hlease)⟩
  | @snoc s t calls call run step ih =>
    have hstreams := (streams_of_run hinit run).1
    rcases effect_cases step with ⟨out, hreply, heffect⟩ | ⟨⟨e, hreply⟩, rfl⟩
    · exact ih.step hstreams hreply heffect
    · rw [deliveries_concat_error hreply]
      exact ih

end WardenService

end Lets
