import Lets.Delegation

set_option autoImplicit false

/-!
# Crediting a voucher

Everything that a target checks of a voucher in its admission window is settled when the voucher is
signed, except that the initial share and all that was ever transferred in must fit, together with
the amount, into one signed integer.
-/

namespace Lets

open Library

variable {d : ℕ} {Hash : Type}

theorem TransferVoucher.validate_signed (voucher : TransferVoucher d) (signature : String) :
    { voucher with signature }.validate = voucher.validate := rfl

theorem LeaseRequest.grant_valid {svc : WardenService d Hash} {clock : Reading} {db : Database d Hash}
    {policy : PolicyRow d} {voucher : TransferVoucher d} {request : LeaseRequest}
    (hvalid : voucher.validate = .ok ()) (hrequest : voucher.leaseRequest = some request)
    (hfresh : clock.nowNs + clock.uncertaintyNs < request.expiresAtNs) :
    (svc.requestedGrant clock db policy voucher request).validate = .ok () := by
  simp only [TransferVoucher.validate, hrequest, LeaseRequest.validate, bind_ok_iff, require_ok_iff,
    exists_unit_iff] at hvalid
  obtain ⟨_, _, _, hnonzero, hlast, hnodup, hself, hdepth, _, hmax⟩ := hvalid
  simp only [LeaseGrant.validate, bind_ok_iff, require_ok_iff, exists_unit_iff]
  refine ⟨hmax, ?_, hnonzero, hdepth, hnodup, hself, (by rintro ⟨⟩), ?_⟩
  · change clock.nowNs < request.expiresAtNs
    omega
  · rintro _ ⟨⟩
    exact hlast

namespace WardenService

variable {svc : WardenService d Hash} {clock : Reading} {operation : Operation d}
  {identity : IdentityContext} {voucher : TransferVoucher d} {db db' : Database d Hash}
  {out : Response d}

/-- Every inbound stream is of the configuration epoch of the envelope. -/
def InboundEpochs (db : Database d Hash) : Prop :=
  ∀ source row, db.inboundStreams.lookup source = some row →
    row.configEpoch = db.envelope.configEpoch

theorem InboundEpochs.of_insert (h : InboundEpochs db) (henvelope : db'.envelope = db.envelope)
    {source : String} {stream : InboundStream}
    (hstreams : db'.inboundStreams = db.inboundStreams.insert source stream)
    (hepoch : stream.configEpoch = db.envelope.configEpoch) : InboundEpochs db' := by
  intro other row hrow
  rw [hstreams, Table.lookup_insert_eq] at hrow
  rw [henvelope]
  split_ifs at hrow with hs
  · obtain rfl := Option.some.inj hrow
    exact hepoch
  · exact h other row hrow

theorem InboundEpochs.of_same (h : InboundEpochs db) (henvelope : db'.envelope = db.envelope)
    (hstreams : db'.inboundStreams = db.inboundStreams) : InboundEpochs db' := by
  unfold InboundEpochs
  rw [hstreams, henvelope]
  exact h

theorem Effect.inboundEpochs (h : Effect svc clock db operation db' out) (hdb : InboundEpochs db) :
    InboundEpochs db' := by
  have henvelope : db'.envelope = db.envelope := congrArg (fun x => x.2.2) h.fixed_eq
  rcases h.inbound_cases with ⟨hsame, _⟩ | ⟨_, voucher, _, hshown, ⟨⟨done⟩⟩ | ⟨⟨done⟩⟩⟩ |
    ⟨_, _, _, ⟨done⟩⟩ | ⟨_, _, _, _, hpruned⟩
  · exact hdb.of_same henvelope (congrArg Prod.fst hsame)
  · have hstreams := congrArg Database.inboundStreams done.result
    have hepoch := hdb _ _ done.stream_eq
    by_cases hmoved : done.stream.contiguousThrough <
        (db.advanceInboundGapPrefix voucher.sourceWarden done.stream.contiguousThrough).2
    · exact hdb.of_insert henvelope (hstreams.trans (if_pos hmoved)) hepoch
    · exact hdb.of_same henvelope (hstreams.trans (if_neg hmoved))
  · apply hdb.of_insert henvelope (congrArg Database.inboundStreams done.result)
    exact done.stream_epoch.trans hshown.epoch
  · have hstreams := congrArg Database.inboundStreams done.result
    have hepoch := hdb _ _ done.stream_eq
    rcases done.streams_eq with ⟨hsame, _⟩ | hinsert
    · exact hdb.of_same henvelope (hstreams.trans hsame)
    · exact hdb.of_insert henvelope (hstreams.trans hinsert) hepoch
  · exact hdb.of_same henvelope (congrArg Prod.fst hpruned)

theorem inboundEpochs_of_reachable {envelope : Envelope d}
    (hreach : (svc.system envelope).Reachable db) : InboundEpochs db :=
  invariant_of_reachable (fun _ _ h => (by cases h))
    (fun _ _ _ _ _ h _ heffect => heffect.inboundEpochs h) hreach

/-! ### What is enough for each part of the first delivery -/

theorem recordSequence_of {sourceWarden : String} {sequence : ℕ}
    (hnew : (sourceWarden, sequence) ∉ db.inboundGaps) (nowNs : ℕ) (stream : InboundStream) :
    ∃ result, db.recordSequence sourceWarden sequence nowNs stream = .ok result := by
  unfold Database.recordSequence
  split_ifs
  · rw [show require ((sourceWarden, sequence) ∉ db.inboundGaps) _ = .ok () from
      require_ok_iff.mpr hnew]
    exact ⟨_, rfl⟩
  · exact ⟨_, rfl⟩

variable {policy : PolicyRow d}

theorem admitRemoteChild_of {request : LeaseRequest} (hvalid : voucher.validate = .ok ())
    (hrequest : voucher.leaseRequest = some request)
    (hcurrent : svc.requireSigningKeyCurrent clock = .ok ())
    (hnew : request.childLeaseId ∉ db.leases)
    (hdeclared : request.capabilities ⊆ policy.declaredCapabilities)
    (hsource : voucher.sourceWarden ≠ db.wardenId)
    (hfits : ∀ i, db.leaseResidual i + voucher.amount i ≤ maxResource) :
    ∃ result, svc.admitRemoteChild clock voucher request policy db = .ok result := by
  simp only [admitRemoteChild, bind_ok_iff, require_ok_iff, exists_unit_iff]
  by_cases hbarred : request.expiresAtNs ≤ clock.nowNs + clock.uncertaintyNs ∨
      db.pathRevoked request.lineageId request.ancestorPath = true
  · refine ⟨(db, .fenced), hnew, hdeclared, ?_⟩
    rw [if_pos hbarred]
    rfl
  · have hfresh : clock.nowNs + clock.uncertaintyNs < request.expiresAtNs := by
      rw [not_or, not_le] at hbarred
      exact hbarred.1
    have hgrant : (svc.requestedGrant clock db policy voucher request).validate = .ok () :=
      LeaseRequest.grant_valid hvalid hrequest hfresh
    apply Exists.intro
    refine ⟨hnew, hdeclared, ?_⟩
    rw [if_neg hbarred]
    simp only [bind_ok_iff, newGrant, signGrant, signRecord, hgrant, hcurrent, exists_unit_iff,
      pure_ok_iff, Database.insertLease_ok_iff]
    refine ⟨_, ⟨trivial, _, ⟨trivial, rfl⟩, rfl⟩, _, ⟨hnew, ⟨?_, le_rfl⟩, ?_, ⟨_, hfits⟩, fun i => rfl,
      rfl⟩, rfl⟩
    · change clock.nowNs ≤ request.expiresAtNs
      omega
    · exact fun heq => hsource (Option.some.inj heq)

theorem admitChild_of (hvalid : voucher.validate = .ok ())
    (hcurrent : svc.requireSigningKeyCurrent clock = .ok ())
    (hchild : ∀ request, voucher.leaseRequest = some request → request.childLeaseId ∉ db.leases ∧
      request.capabilities ⊆ policy.declaredCapabilities)
    (hsource : voucher.sourceWarden ≠ db.wardenId)
    (hfits : ∀ i, db.leaseResidual i + voucher.amount i ≤ maxResource) :
    ∃ db₁ child, svc.admitChild clock voucher policy db = .ok (db₁, child) ∧
      db₁.freePool = db.freePool ∧ db₁.transferredIn = db.transferredIn := by
  unfold admitChild
  cases hrequest : voucher.leaseRequest with
  | none => exact ⟨db, none, rfl, rfl, rfl⟩
  | some request =>
    obtain ⟨hnew, hdeclared⟩ := hchild request hrequest
    obtain ⟨⟨db₁, outcome⟩, hadmits⟩ :=
      admitRemoteChild_of hvalid hrequest hcurrent hnew hdeclared hsource hfits
    refine ⟨db₁, some (request, outcome), ?_, ?_⟩
    · change (svc.admitRemoteChild clock voucher request policy db >>= fun _ => _) = _
      rw [hadmits]
      rfl
    · obtain ⟨_, ⟨_, rfl, _⟩ | ⟨_, _, _, _, _, _, _, _, rfl⟩⟩ := admitRemoteChild_ok hadmits
      · exact ⟨rfl, rfl⟩
      · exact ⟨rfl, rfl⟩

theorem auditChild_of (hcurrent : svc.requireSigningKeyCurrent clock = .ok ()) (actor : String)
    (voucher : TransferVoucher d) (child : Option (LeaseRequest × ChildOutcome))
    (db : Database d Hash) : ∃ rows, svc.auditChild clock actor voucher child db =
      .ok { db with auditLog := db.auditLog ++ rows } := by
  cases child with
  | none => exact ⟨[], by rw [List.append_nil]; rfl⟩
  | some child =>
    simp only [auditChild, appendAudit, hcurrent]
    exact ⟨_, rfl⟩

theorem creditVoucher_of {amount : ResourceVector d} (hconserved : db.Conserved)
    (hfits : ∀ i, db.envelope.initialLocalShare i + db.transferredIn i + amount i ≤ maxResource)
    {db₁ : Database d Hash} (hfree : db₁.freePool = db.freePool)
    (hin : db₁.transferredIn = db.transferredIn) (issued : Bool) :
    ∃ freePool transferredIn, db₁.creditVoucher amount issued =
      .ok { db₁ with freePool, transferredIn, revision := db₁.revision + 1 } := by
  have hfree_le : ∀ i, db.freePool i + amount i ≤ maxResource := by
    intro i
    have hidentity := hconserved.identity i
    have hle := hfits i
    omega
  have hin_le : ∀ i, db.transferredIn i + amount i ≤ maxResource := by
    intro i
    have hle := hfits i
    omega
  have hadd : db.freePool.add amount = .ok ⟨_, hfree_le⟩ := dif_pos hfree_le
  have hadd' : db.transferredIn.add amount = .ok ⟨_, hin_le⟩ := dif_pos hin_le
  cases issued with
  | true => exact ⟨db.freePool, _, by rw [Database.creditVoucher, hfree, hin, hadd']; rfl⟩
  | false => exact ⟨_, _, by rw [Database.creditVoucher, hfree, hin, hadd, hadd']; rfl⟩

variable {accepted : List (TransferVoucher d × TransferAck)}

theorem Streams.arrives_ok (h : Streams svc accepted db) {gaps : Table (String × ℕ) ℕ}
    {contiguous : ℕ} (hnew : voucher.sequence ∉ receivedFrom voucher.sourceWarden accepted)
    (harrives : Arrives voucher.sourceWarden voucher.sequence clock.nowNs
      (db.stream voucher.sourceWarden) db gaps contiguous) :
    Database.InboundStreamOk { db.stream voucher.sourceWarden with
      contiguousThrough := contiguous
      highestSeen := max (db.stream voucher.sourceWarden).highestSeen voucher.sequence } := by
  have hmoved : (db.stream voucher.sourceWarden).contiguousThrough ≤ contiguous := by
    cases harrives with
    | gap => exact le_rfl
    | next consecutive =>
      have hle := db.advance_le voucher.sourceWarden voucher.sequence
      omega
  have hwindow := h.window_arrives (svc.unsignedAck clock voucher "" 0 none) hnew harrives
    voucher.sourceWarden
  rw [if_pos rfl] at hwindow
  refine ⟨?_, (h.compacted voucher.sourceWarden).trans hmoved, h.checkpointed voucher.sourceWarden⟩
  change contiguous ≤ max _ _
  rcases Nat.eq_zero_or_pos contiguous with hzero | hpos
  · omega
  · have hreceived := hwindow.covered contiguous hpos le_rfl
    rw [receivedFrom_concat, if_pos rfl] at hreceived
    rcases hreceived with hnow | hbefore
    · exact le_max_of_le_right (le_of_eq hnow)
    · obtain ⟨delivery, hmem, hkey⟩ := mem_receivedFrom_iff.mp hbefore
      obtain ⟨hsource, hsequence⟩ := Prod.mk.inj hkey
      have hseen := h.seen delivery hmem
      rw [hsource, hsequence] at hseen
      exact le_max_of_le_left hseen

/-- What a target checks of the first delivery of a voucher apart from its sums. -/
structure Creditable (svc : WardenService d Hash) (clock : Reading) (voucher : TransferVoucher d)
    (policy : PolicyRow d) (db : Database d Hash) : Prop where
  valid : voucher.validate = .ok ()
  current : svc.requireSigningKeyCurrent clock = .ok ()
  source_ne : voucher.sourceWarden ≠ db.wardenId
  epoch : voucher.configEpoch = db.envelope.configEpoch
  above : (db.stream voucher.sourceWarden).contiguousThrough < voucher.sequence
  within : voucher.sequence ≤ (db.stream voucher.sourceWarden).contiguousThrough +
    db.envelope.transferGapWindow
  notAcked : db.inboundAcks.lookup voucher.key = none
  transferId_new : ∀ key row, db.inboundAcks.lookup key = some row →
    ¬(key.1 = voucher.sourceWarden ∧ row.ackPayload.transferId = voucher.transferId)
  child : ∀ request, voucher.leaseRequest = some request →
    request.childLeaseId ∉ db.leases ∧ request.capabilities ⊆ policy.declaredCapabilities

theorem credit_of (actor : String) (hstreams : Streams svc accepted db) (hepochs : InboundEpochs db)
    (hconserved : db.Conserved) (h : Creditable svc clock voucher policy db)
    (hfits : ∀ i, db.envelope.initialLocalShare i + db.transferredIn i + voucher.amount i ≤
      maxResource) :
    ∃ result, svc.credit clock actor voucher (svc.recordDigest (.voucher voucher)) policy
      (db.touch clock.nowNs) = .ok result := by
  have hopen : (db.touch clock.nowNs).inboundStream voucher.sourceWarden voucher.configEpoch =
      db.stream voucher.sourceWarden := by
    rw [h.epoch]
    rfl
  have hstream_epoch : (db.stream voucher.sourceWarden).configEpoch = voucher.configEpoch := by
    rw [h.epoch]
    cases hlookup : db.inboundStreams.lookup voucher.sourceWarden with
    | none =>
      unfold Database.stream Database.inboundStream
      rw [hlookup]
      rfl
    | some row =>
      rw [Database.stream_of_lookup hlookup]
      exact hepochs _ row hlookup
  have hnew := hstreams.notReceived h.notAcked h.above
  have hgap : (voucher.sourceWarden, voucher.sequence) ∉ (db.touch clock.nowNs).inboundGaps :=
    fun hmem => hnew (((hstreams.window _).gaps_iff _).mp hmem).1
  obtain ⟨⟨db₁, contiguous⟩, hrecord⟩ := recordSequence_of hgap clock.nowNs
    (db.stream voucher.sourceWarden)
  obtain ⟨gaps, harrives, rfl⟩ := recordSequence_ok h.above hrecord
  have harrives' : Arrives voucher.sourceWarden voucher.sequence clock.nowNs
      (db.stream voucher.sourceWarden) db gaps contiguous := by
    cases harrives with
    | gap missing new => exact .gap missing new
    | next consecutive => exact .next consecutive
  have hok := hstreams.arrives_ok hnew harrives'
  have hresidual : ∀ i, db.leaseResidual i + voucher.amount i ≤ maxResource := by
    intro i
    have hidentity := hconserved.identity i
    have hle := hfits i
    omega
  obtain ⟨db₂, child, hadmits, hfree, hin⟩ : ∃ db₁ child, svc.admitChild clock voucher policy
      { db.touch clock.nowNs with inboundGaps := gaps } = .ok (db₁, child) ∧
        db₁.freePool = db.freePool ∧ db₁.transferredIn = db.transferredIn :=
    admitChild_of h.valid h.current h.child h.source_ne hresidual
  obtain ⟨freePool, transferredIn, hcredit⟩ := creditVoucher_of hconserved hfits hfree hin
    (child.any fun c => c.2 = .issued)
  obtain ⟨rows, haudit⟩ := auditChild_of h.current actor voucher child
    { db₂ with freePool, transferredIn, revision := db₂.revision + 1 }
  simp only [credit, hopen, bind_ok_iff, require_ok_iff, exists_unit_iff, pure_ok_iff,
    Database.setInboundStream, Table.forbid_ok_iff, signRecord, h.current, appendAudit]
  apply Exists.intro
  refine ⟨fun key row hrow => decide_eq_false (h.transferId_new key row hrow), h.source_ne,
    hstream_epoch, h.above, h.within, _, hrecord, _, hadmits, _, ⟨trivial, rfl⟩, _, hcredit, _, haudit,
    _, ⟨hok, rfl⟩, _, ⟨trivial, rfl⟩, rfl⟩

theorem Credited.conserved (done : Credited svc clock voucher db db' out) (hconserved : db.Conserved)
    (hfits : ∀ i, db.envelope.initialLocalShare i + db.transferredIn i + voucher.amount i ≤
      maxResource) : db'.Conserved := by
  have hin := done.transferredIn_eq
  have hheld : ∀ i, done.freePool i + done.leaseResidual i =
      db.freePool i + db.leaseResidual i + voucher.amount i := by
    intro i
    have hadmits := done.admits
    generalize done.leases = leases, done.leaseResidual = total, done.freePool = freePool,
      done.child = child at hadmits ⊢
    cases hadmits with
    | pool _ free =>
      have hfree := free i
      omega
    | fenced _ _ _ free =>
      have hfree := free i
      omega
    | issued _ _ _ _ total_eq =>
      have htotal := total_eq i
      omega
  rw [done.result]
  constructor
  · intro i
    have hidentity := hconserved.identity i
    have hin_i := hin i
    have hheld_i := hheld i
    change db.envelope.initialLocalShare i + done.transferredIn i =
      done.freePool i + done.leaseResidual i + (db.consumed i + db.transferredOut i)
    omega
  · intro i
    have hin_i := hin i
    have hle := hfits i
    change db.envelope.initialLocalShare i + done.transferredIn i ≤ maxResource
    omega

theorem acceptTransfer_of_creditable (hstreams : Streams svc accepted db)
    (hepochs : InboundEpochs db) (hconserved : db.Conserved) (hclock : db.ClockSafe clock)
    (hshown : Presented svc identity voucher db)
    (hpolicy : db.policies.lookup voucher.policyDigest = some policy)
    (h : Creditable svc clock voucher policy db)
    (hfits : ∀ i, db.envelope.initialLocalShare i + db.transferredIn i + voucher.amount i ≤
      maxResource) :
    ∃ db' out, svc.acceptTransfer clock identity voucher db = .ok (db', out) := by
  obtain ⟨⟨db', out⟩, hcredit⟩ := credit_of identity.subjectId hstreams hepochs hconserved h
    hfits
  obtain ⟨done⟩ := credit_ok hpolicy h.notAcked hcredit
  obtain ⟨policy', hpolicy', hversion⟩ := hshown.policy
  obtain rfl := some_unique hpolicy' hpolicy
  have hack : (db.touch clock.nowNs).inboundAcks.lookup (voucher.sourceWarden, voucher.sequence) =
    none := h.notAcked
  refine ⟨db', out, ?_⟩
  simp only [acceptTransfer, bind_ok_iff, require_ok_iff, exists_unit_iff]
  refine ⟨hshown.valid, hshown.scope, hshown.verified, writeTransaction_of ?_
    (done.conserved hconserved hfits)⟩
  simp only [bind_ok_iff, require_ok_iff, exists_unit_iff, Database.requireEnvelope,
    Database.clockIsSafe_ok_iff, Database.registeredPolicy_ok_iff]
  refine ⟨⟨hshown.tenant, hshown.envelope⟩, _, ⟨hclock, rfl⟩, hshown.caller, hshown.target,
    hshown.epoch, policy', hpolicy', hversion, ?_⟩
  rw [hack]
  exact hcredit

theorem Credited.fits (done : Credited svc clock voucher db db' out) (hconserved : db'.Conserved)
    (i : Fin d) :
    db.envelope.initialLocalShare i + db.transferredIn i + voucher.amount i ≤ maxResource := by
  have hle := hconserved.le_max i
  have hin := done.transferredIn_eq i
  rw [done.result] at hle
  change db.envelope.initialLocalShare i + done.transferredIn i ≤ maxResource at hle
  omega

theorem signed_valid {envelope : Envelope d} {db₀ : Database d Hash} {calls : List (Call d)}
    (hinit : (svc.system envelope).Init db₀) (run : (svc.system envelope).Run db₀ calls db)
    (hmem : voucher ∈ signed calls) : voucher.validate = .ok () ∧
      voucher.tenantId = db.envelope.tenantId ∧ voucher.envelopeId = db.envelope.envelopeId ∧
      voucher.configEpoch = db.envelope.configEpoch := by
  apply signed_induction (P := fun voucher (db : Database d Hash) => voucher.validate = .ok () ∧
    voucher.tenantId = db.envelope.tenantId ∧ voucher.envelopeId = db.envelope.envelopeId ∧
    voucher.configEpoch = db.envelope.configEpoch) ?_ ?_ hinit run hmem
  · intro clock db operation db' voucher _ hsigned
    cases hsigned with
    | prepared done | remoteSpawned done =>
      have henvelope : db'.envelope = db.envelope := by rw [done.result]; rfl
      rw [done.voucher_eq, henvelope, TransferVoucher.validate_signed]
      exact ⟨done.valid, rfl, rfl, rfl⟩
  · intro clock db operation db' out voucher _ heffect hold
    have henvelope : db'.envelope = db.envelope := congrArg (fun x => x.2.2) heffect.fixed_eq
    rw [henvelope]
    exact hold

end WardenService

namespace Deployment

/-- A voucher that is presented to its target as it should be: correctly signed, by a caller that may
deliver it and at a reading that the target takes as safe, bound to a policy that the target has
registered, and inside the admission window of its stream.  Identifiers do not repeat. -/
structure Admissible (D : Deployment d Hash) (s : ClusterState d Hash) (clock : Reading)
    (identity : IdentityContext) (voucher : TransferVoucher d) : Prop where
  shared : (D.envelope voucher.sourceWarden).tenantId = (D.envelope voucher.targetWarden).tenantId ∧
    (D.envelope voucher.sourceWarden).envelopeId = (D.envelope voucher.targetWarden).envelopeId ∧
    (D.envelope voucher.sourceWarden).configEpoch = (D.envelope voucher.targetWarden).configEpoch
  clock_safe : (s.database voucher.targetWarden).ClockSafe clock
  current : (D.service voucher.targetWarden).requireSigningKeyCurrent clock = .ok ()
  deliverer : (D.service voucher.targetWarden).MayDeliver identity (s.database voucher.targetWarden)
  verified : (D.service voucher.targetWarden).verifyRecord (.voucher voucher)
    voucher.sourceWarden = true
  policy : ∃ policy, (s.database voucher.targetWarden).policies.lookup voucher.policyDigest =
      some policy ∧ (voucher.policyVersion = policy.payload.policyVersion ∧
        voucher.policyId = policy.payload.policyId) ∧
      ∀ request, voucher.leaseRequest = some request →
        request.capabilities ⊆ policy.declaredCapabilities
  window : ((s.database voucher.targetWarden).stream voucher.sourceWarden).compactedThrough <
      voucher.sequence ∧
    voucher.sequence ≤
      ((s.database voucher.targetWarden).stream voucher.sourceWarden).contiguousThrough +
        (D.envelope voucher.targetWarden).transferGapWindow
  transferId_new : ∀ delivery ∈ deliveries (s.calls voucher.targetWarden),
    delivery.1.sourceWarden = voucher.sourceWarden →
      delivery.2.transferId = voucher.transferId → delivery.1.sequence = voucher.sequence
  child_new : (∀ ack, (voucher, ack) ∉ deliveries (s.calls voucher.targetWarden)) →
    ∀ request, voucher.leaseRequest = some request →
      request.childLeaseId ∉ (s.database voucher.targetWarden).leases

variable {D : Deployment d Hash} {s : ClusterState d Hash} {clock : Reading}
  {identity : IdentityContext} {voucher : TransferVoucher d}

theorem envelope_eq (hreach : D.system.Reachable s) (warden : String) :
    (s.database warden).envelope = D.envelope warden :=
  congrArg (fun x => x.2.2) (accounts hreach warden).fixed

theorem Admissible.presented (h : D.Admissible s clock identity voucher)
    (hreach : D.system.Reachable s) (htarget : voucher.targetWarden ∈ D.members)
    (hsigned : voucher ∈ signed (s.calls voucher.sourceWarden)) :
    WardenService.Presented (D.service voucher.targetWarden) identity voucher
      (s.database voucher.targetWarden) := by
  obtain ⟨hvalid, htenant, henvelope, hepoch⟩ := WardenService.signed_valid
    (init_local voucher.sourceWarden) (local_run hreach voucher.sourceWarden) hsigned
  obtain ⟨policy, hpolicy, hversion, _⟩ := h.policy
  rw [envelope_eq hreach] at htenant henvelope hepoch
  obtain ⟨htenants, henvelopes, hepochs⟩ := h.shared
  have htenant' : voucher.tenantId = (s.database voucher.targetWarden).envelope.tenantId := by
    rw [envelope_eq hreach, htenant, htenants]
  refine ⟨hvalid, h.deliverer.scope, h.verified, htenant'.symm, ?_,
    h.deliverer.tenant.trans htenant'.symm, (D.wardenId_eq _ htarget).symm, ?_,
    policy, hpolicy, hversion⟩
  · rw [envelope_eq hreach, henvelope, henvelopes]
  · rw [envelope_eq hreach, hepoch, hepochs]

theorem delivered_of_received (hreach : D.system.Reachable s)
    (htarget : voucher.targetWarden ∈ D.members)
    (hsigned : voucher ∈ signed (s.calls voucher.sourceWarden))
    (h : voucher.sequence ∈ receivedFrom voucher.sourceWarden
      (deliveries (s.calls voucher.targetWarden))) :
    ∃ ack, (voucher, ack) ∈ deliveries (s.calls voucher.targetWarden) := by
  obtain ⟨⟨accepted, ack⟩, hmem, hkey⟩ := mem_receivedFrom_iff.mp h
  obtain ⟨htarget', _, hsigned'⟩ := accepted_signed hreach htarget hmem
  obtain ⟨hsource, hsequence⟩ := Prod.mk.inj hkey
  rw [hsource] at hsigned'
  have heq : accepted = voucher := (accounts hreach _).outbound.unique accepted hsigned' voucher
    hsigned htarget' hsequence
  rw [heq] at hmem
  exact ⟨ack, hmem⟩

theorem Admissible.creditable (h : D.Admissible s clock identity voucher)
    (hreach : D.system.Reachable s) (htarget : voucher.targetWarden ∈ D.members)
    (hsigned : voucher ∈ signed (s.calls voucher.sourceWarden))
    (hnew : ∀ ack, (voucher, ack) ∉ deliveries (s.calls voucher.targetWarden)) :
    ∃ policy, (s.database voucher.targetWarden).policies.lookup voucher.policyDigest = some policy ∧
      WardenService.Creditable (D.service voucher.targetWarden) clock voucher policy
        (s.database voucher.targetWarden) := by
  have hstreams := streams hreach voucher.targetWarden
  have hpresented := h.presented hreach htarget hsigned
  obtain ⟨policy, hpolicy, _, hdeclared⟩ := h.policy
  have hnotReceived : voucher.sequence ∉ receivedFrom voucher.sourceWarden
      (deliveries (s.calls voucher.targetWarden)) := by
    intro hmem
    obtain ⟨ack, hack⟩ := delivered_of_received hreach htarget hsigned hmem
    exact hnew ack hack
  have hpositive : voucher.sourceWarden ≠ voucher.targetWarden ∧ 0 < voucher.sequence := by
    have hvalid := hpresented.valid
    simp only [TransferVoucher.validate, bind_ok_iff, require_ok_iff, exists_unit_iff] at hvalid
    exact ⟨hvalid.1, hvalid.2.2.1.1⟩
  have hwarden : (s.database voucher.targetWarden).wardenId = voucher.targetWarden :=
    (congrArg Prod.fst (accounts hreach _).fixed).trans (D.wardenId_eq _ htarget)
  have hnone : (s.database voucher.targetWarden).inboundAcks.lookup voucher.key = none := by
    by_contra hsome
    obtain ⟨row, hrow⟩ := Option.ne_none_iff_exists'.mp hsome
    obtain ⟨delivery, hmem, hkey, _⟩ := hstreams.acks _ _ hrow
    exact hnotReceived (mem_receivedFrom_iff.mpr ⟨delivery, hmem, hkey⟩)
  refine ⟨policy, hpolicy, hpresented.valid, h.current, ?_, hpresented.epoch, ?_, ?_, hnone, ?_, ?_⟩
  · rw [hwarden]
    exact hpositive.1
  · by_contra hle
    exact hnotReceived ((hstreams.window _).covered _ hpositive.2 (not_lt.mp hle))
  · rw [envelope_eq hreach]
    exact h.window.2
  · rintro key row hrow ⟨hsame, htransfer⟩
    obtain ⟨delivery, hmem, hkey, hrow'⟩ := hstreams.acks key row hrow
    rw [hrow'] at htransfer
    rw [← hkey] at hsame
    have hsequence := h.transferId_new delivery hmem hsame htransfer
    exact hnotReceived (mem_receivedFrom_iff.mpr ⟨delivery, hmem, Prod.ext hsame hsequence⟩)
  · exact fun request hrequest => ⟨h.child_new hnew request hrequest, hdeclared request hrequest⟩

end Deployment

/-- In every reachable state of a cluster, a signed voucher that is presented as it should be is
accepted if and only if it has been accepted before or the share of the target, all that was ever
transferred in and the amount fit into a signed 64-bit integer. -/
theorem signed_voucher_accepted_iff {D : Deployment d Hash} {s : ClusterState d Hash}
    (hreach : D.system.Reachable s) {voucher : TransferVoucher d}
    (htarget : voucher.targetWarden ∈ D.members)
    (hsigned : voucher ∈ signed (s.calls voucher.sourceWarden)) {clock : Reading}
    {identity : IdentityContext} (h : D.Admissible s clock identity voucher) :
    (∃ db' out, (D.service voucher.targetWarden).serve clock (.acceptTransfer identity voucher)
        (s.database voucher.targetWarden) = (db', .ok out)) ↔
      (∃ ack, (voucher, ack) ∈ deliveries (s.calls voucher.targetWarden)) ∨
        ∀ i, (D.envelope voucher.targetWarden).initialLocalShare i +
          (s.database voucher.targetWarden).transferredIn i + voucher.amount i ≤ maxResource := by
  have hstreams := Deployment.streams hreach voucher.targetWarden
  have hconserved := (Deployment.accounts hreach voucher.targetWarden).conserved
  have hpresented := h.presented hreach htarget hsigned
  have henvelope := Deployment.envelope_eq hreach voucher.targetWarden
  constructor
  · rintro ⟨db', out, hserve⟩
    obtain ⟨_, hconserved', _, ⟨⟨done⟩⟩ | ⟨⟨done⟩⟩⟩ :=
      WardenService.acceptTransfer_ok (WardenService.serve_ok_iff.mp hserve)
    · obtain ⟨delivery, hmem, hkey, _⟩ := hstreams.acks _ _ done.existing_eq
      exact .inl (Deployment.delivered_of_received hreach htarget hsigned
        (mem_receivedFrom_iff.mpr ⟨delivery, hmem, hkey⟩))
    · right
      rw [← henvelope]
      exact done.fits hconserved'
  · intro hcases
    by_cases haccepted : ∃ ack, (voucher, ack) ∈ deliveries (s.calls voucher.targetWarden)
    · obtain ⟨ack, hmem⟩ := haccepted
      obtain ⟨db', hexec, _⟩ := hstreams.answers_again hmem h.clock_safe hpresented hconserved
        h.current h.window.1
      exact ⟨db', _, WardenService.serve_ok_iff.mpr hexec⟩
    · have hfits := hcases.resolve_left haccepted
      rw [← henvelope] at hfits
      obtain ⟨policy, hpolicy, hcreditable⟩ := h.creditable hreach htarget hsigned
        (not_exists.mp haccepted)
      have hepochs := WardenService.inboundEpochs_of_reachable
        (Deployment.reachable_local hreach voucher.targetWarden)
      obtain ⟨db', out, hexec⟩ := WardenService.acceptTransfer_of_creditable hstreams hepochs
        hconserved h.clock_safe hpresented hpolicy hcreditable hfits
      exact ⟨db', out, WardenService.serve_ok_iff.mpr hexec⟩

open Sample

theorem Sample.admissible {D : Deployment 1 ℕ} {s : ClusterState 1 ℕ} {voucher : TransferVoucher 1}
    {clock : Reading} (hreach : D.system.Reachable s) (hservice : D.service = service)
    (hshared : (D.envelope voucher.sourceWarden).tenantId =
        (D.envelope voucher.targetWarden).tenantId ∧
      (D.envelope voucher.sourceWarden).envelopeId =
        (D.envelope voucher.targetWarden).envelopeId ∧
      (D.envelope voucher.sourceWarden).configEpoch = (D.envelope voucher.targetWarden).configEpoch)
    (hclock : clock.nowNs + clock.uncertaintyNs ≤ maxResource ∧ clock.uncertaintyNs = 0 ∧
      (s.database voucher.targetWarden).clockFloorNs.getD 0 ≤ clock.nowNs)
    (htenant : (D.envelope voucher.targetWarden).tenantId = "tenant")
    (hsignature : voucher.signature = voucher.sourceWarden)
    (hpolicy : ((s.database voucher.targetWarden).policies.lookup voucher.policyDigest).map
      (fun policy => (policy.payload.policyVersion, policy.payload.policyId)) =
        some (voucher.policyVersion, voucher.policyId))
    (hwindow : ((s.database voucher.targetWarden).stream voucher.sourceWarden).compactedThrough <
        voucher.sequence ∧ voucher.sequence ≤ (D.envelope voucher.targetWarden).transferGapWindow)
    (hfirst : deliveries (s.calls voucher.targetWarden) = []) (hpool : voucher.leaseRequest = none) :
    D.Admissible s clock operator voucher := by
  obtain ⟨policy, hlookup, hversion⟩ := Option.map_eq_some_iff.mp hpolicy
  obtain ⟨hversion, hid⟩ := Prod.mk.inj hversion
  refine ⟨hshared, ⟨?_, ?_, hclock.1, ?_⟩, ?_, ⟨.inr ?_, ?_⟩, ?_,
    ⟨policy, hlookup, ⟨hversion.symm, hid.symm⟩, ?_⟩, ⟨hwindow.1, ?_⟩, ?_, ?_⟩
  · omega
  · omega
  · intro floor hfloor
    rw [Option.mem_def] at hfloor
    rw [hfloor, Option.getD_some] at hclock
    omega
  · rw [hservice]
    rfl
  · decide
  · rw [Deployment.envelope_eq hreach]
    exact htenant.symm
  · rw [hservice]
    exact decide_eq_true hsignature
  · rw [hpool]
    simp
  · exact hwindow.2.trans (Nat.le_add_left _ _)
  · rw [hfirst]
    simp
  · rw [hpool]
    simp

theorem signed_voucher_accepted_iff_pool :
    ∃ s : ClusterState 1 ℕ, deployment.system.Reachable s ∧
      voucher 1 "x1" ∈ signed (s.calls "a") ∧
      ∃ db' out, (deployment.service "b").serve (exactly 2)
        (.acceptTransfer operator (voucher 1 "x1")) (s.database "b") =
          (db', .ok out) := by
  obtain ⟨s, hs⟩ : ∃ s, deployment.play (fun _ _ _ => True) deployment.genesis
    [.call "a" 1 (exactly 1) registerPolicy,
      .call "b" 1 (exactly 1) registerPolicy,
      .call "a" 1 (exactly 1) (.prepareTransfer "x1"
        ⟨"r1", operator, "tenant", "envelope", "b", units 3, none⟩)] = s := ⟨_, rfl⟩
  have hreach : deployment.system.Reachable s := by
    rw [← hs]
    exact (Deployment.play_reachable (C := fun _ _ _ => True) (.of_init rfl) _).of_restrict
  have hfacts : voucher 1 "x1" ∈ signed (s.calls "a") ∧
      (s.database "b").clockFloorNs.getD 0 ≤ 2 ∧
      ((s.database "b").policies.lookup "v1").map
        (fun policy => (policy.payload.policyVersion, policy.payload.policyId)) =
          some ("v1", "policy") ∧
      ((s.database "b").stream "a").compactedThrough = 0 ∧
      (deliveries (s.calls "b")).length = 0 ∧ ∀ i, (s.database "b").transferredIn i = 0 := by
    subst hs
    decide +kernel
  obtain ⟨hsigned, hfloor, hpolicy, hcompacted, hfirst, hin⟩ := hfacts
  have hwindow : ((s.database "b").stream "a").compactedThrough < 1 ∧
      1 ≤ (envelope 4).transferGapWindow := by
    rw [hcompacted]
    decide
  have hadmissible : deployment.Admissible s (exactly 2) operator
      (voucher 1 "x1") :=
    admissible hreach rfl ⟨rfl, rfl, rfl⟩ ⟨by decide, rfl, hfloor⟩ rfl rfl hpolicy hwindow
      (List.length_eq_zero_iff.mp hfirst) rfl
  have hsigned' : voucher 1 "x1" ∈ signed (s.calls (voucher 1 "x1").sourceWarden) :=
    hsigned
  have hiff := signed_voucher_accepted_iff hreach (by decide) hsigned' hadmissible
  refine ⟨s, hreach, hsigned, hiff.mpr (.inr fun i => ?_)⟩
  have hroom : (envelope 4).initialLocalShare i + 0 + (units 3) i ≤ maxResource := by
    change min 4 maxResource + 0 + min 3 maxResource ≤ maxResource
    decide
  rw [← hin i] at hroom
  exact hroom

theorem Sample.wardenId_service : ∀ warden ∈ ({"a", "b"} : Finset String),
    (service warden).wardenId = warden :=
  fun _ _ => rfl

def Sample.brimming : Deployment 1 ℕ where
  members := {"a", "b"}
  service := service
  envelope warden := { envelope (if warden = "a" then maxResource else 0) with
    budget := units maxResource }
  budget := units maxResource
  wardenId_eq := wardenId_service
  shares := by decide

/-- The whole budget goes from one warden to the other and is on its way back. -/
def Sample.roundTrip : List (Action 1) :=
  [.call "a" 1 (exactly 1) registerPolicy, .call "b" 1 (exactly 1) registerPolicy,
    .call "a" 1 (exactly 1) (.prepareTransfer "x1"
      ⟨"r1", operator, "tenant", "envelope", "b", units maxResource, none⟩),
    .call "b" 2 (exactly 2) (.acceptTransfer operator
      { voucher 1 "x1" with amount := units maxResource }),
    .call "b" 3 (exactly 3) (.prepareTransfer "y1"
      ⟨"r2", operator, "tenant", "envelope", "a", units maxResource, none⟩)]

def Sample.returning : TransferVoucher 1 :=
  { voucher 1 "y1" with
    sourceWarden := "b"
    targetWarden := "a"
    amount := units maxResource
    issuedAtNs := 3
    keyId := "b"
    signature := "b" }

theorem returning_voucher_refused :
    (∀ i, brimming.budget i = 2 ^ 63 - 1) ∧
      ∃ s : ClusterState 1 ℕ, brimming.system.Reachable s ∧
        returning ∈ signed (s.calls "b") ∧
        brimming.Admissible s (exactly 4) operator returning ∧
        (service "a").exec (exactly 4)
          (.acceptTransfer operator returning) (s.database "a") =
            .error (.invariant "conservation ledger contains an invalid vector") := by
  obtain ⟨s, hs⟩ : ∃ s, brimming.play (fun _ _ _ => True) brimming.genesis
    roundTrip = s := ⟨_, rfl⟩
  have hreach : brimming.system.Reachable s := by
    rw [← hs]
    exact (Deployment.play_reachable (C := fun _ _ _ => True) (.of_init rfl) _).of_restrict
  have hfacts : returning ∈ signed (s.calls "b") ∧
      (s.database "a").clockFloorNs.getD 0 ≤ 4 ∧
      ((s.database "a").policies.lookup "v1").map
        (fun policy => (policy.payload.policyVersion, policy.payload.policyId)) =
          some ("v1", "policy") ∧
      ((s.database "a").stream "b").compactedThrough = 0 ∧
      (deliveries (s.calls "a")).length = 0 ∧
      failure? ((service "a").exec (exactly 4)
        (.acceptTransfer operator returning) (s.database "a")) =
          some (.invariant "conservation ledger contains an invalid vector") := by
    subst hs
    decide +kernel
  obtain ⟨hsigned, hfloor, hpolicy, hcompacted, hfirst, hrefused⟩ := hfacts
  have hwindow : ((s.database "a").stream "b").compactedThrough < 1 ∧
      1 ≤ (envelope 4).transferGapWindow := by
    rw [hcompacted]
    decide
  refine ⟨fun i => rfl, s, hreach, hsigned, ?_, failure?_eq_some_iff.mp hrefused⟩
  exact admissible hreach rfl ⟨rfl, rfl, rfl⟩ ⟨by decide, rfl, hfloor⟩ rfl rfl hpolicy hwindow
    (List.length_eq_zero_iff.mp hfirst) rfl

end Lets
