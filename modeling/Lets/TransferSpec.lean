import Lets.Transfer

set_option autoImplicit false

/-!
# What the transfer operations do

One lemma per operation takes a successful call apart into what it has checked and what it has
written.
-/

namespace Lets

open Library

namespace WardenService

variable {d : ℕ} {Hash : Type} {svc : WardenService d Hash} {clock : Reading}
  {db db' : Database d Hash} {out : Response d}

/-- The delivery records once a record of a transfer stream is queued, where peers are
configured. -/
inductive Queues (svc : WardenService d Hash) (recordKind : RecordKind)
    (recordId targetWarden : String) (streamPosition : ℕ) (payload : SignedRecord d) (nowNs : ℕ)
    (supersedeOlder : Bool) (deliveries : PeerDeliveries d) : PeerDeliveries d → Prop
  | unconfigured (none : svc.allowedPeerWardens = none) :
      Queues svc recordKind recordId targetWarden streamPosition payload nowNs supersedeOlder
        deliveries deliveries
  | queued (configured : svc.allowedPeerWardens ≠ none)
      (new : (recordKind, recordId, targetWarden) ∉ deliveries) :
      Queues svc recordKind recordId targetWarden streamPosition payload nowNs supersedeOlder
        deliveries (Database.enqueued recordKind recordId targetWarden targetWarden streamPosition
          payload nowNs supersedeOlder deliveries)

variable {targetWarden : String}

theorem queueRecord_ok {recordKind : RecordKind} {recordId : String} {streamPosition nowNs : ℕ}
    {payload : SignedRecord d} {supersedeOlder : Bool}
    (h : svc.queueRecord recordKind recordId targetWarden streamPosition payload nowNs
      supersedeOlder db = .ok db') :
    ∃ deliveries, Queues svc recordKind recordId targetWarden streamPosition payload nowNs
      supersedeOlder db.peerDeliveries deliveries ∧
        db' = { db with peerDeliveries := deliveries } := by
  unfold queueRecord at h
  split_ifs at h with hnone
  · obtain rfl := Except.ok.inj h
    exact ⟨db.peerDeliveries, .unconfigured hnone, rfl⟩
  · obtain ⟨hnew, rfl⟩ := Database.enqueuePeerDelivery_ok_iff.mp h
    exact ⟨_, .queued hnone hnew, rfl⟩

theorem selectPolicy_ok {policyDigest : Option String} {selected : String × PolicyRow d}
    (h : db.selectPolicy policyDigest = .ok selected) :
    db.policies.lookup selected.1 = some selected.2 := by
  unfold Database.selectPolicy at h
  cases policyDigest with
  | some digest =>
    simp only [bind_ok_iff, Database.registeredPolicy_ok_iff, pure_ok_iff] at h
    obtain ⟨policy, hpolicy, rfl⟩ := h
    exact hpolicy
  | none =>
    cases hfind : db.policies.entries.find? fun entry => entry.2.active with
    | none =>
      rw [hfind] at h
      cases h
    | some entry =>
      rw [hfind] at h
      obtain rfl := Except.ok.inj h
      exact Table.lookup_eq_some_iff.mpr (List.mem_of_find?_eq_some hfind)

/-- What `prepare_transfer` has checked and done when it debits the free pool. -/
structure Prepared (svc : WardenService d Hash) (clock : Reading) (newTransferId : String)
    (req : PrepareTransferRequest d) (db db' : Database d Hash) (out : Response d) where
  policyDigest : String
  policy : PolicyRow d
  signature : String
  freePool : ResourceVector d
  transferredOut : ResourceVector d
  deliveries : PeerDeliveries d
  auditRow : AuditRow d Hash
  voucher : TransferVoucher d
  target_ne : req.targetWarden ≠ svc.wardenId
  identity : db.wardenId = svc.wardenId
  valid : (svc.unsignedVoucher clock db policy policyDigest newTransferId req.targetWarden
    (db.outgoingStream req.targetWarden).nextSequence req.amount none).validate = .ok ()
  voucher_eq : voucher = { svc.unsignedVoucher clock db policy policyDigest newTransferId
    req.targetWarden (db.outgoingStream req.targetWarden).nextSequence req.amount none with
    signature }
  sequence_new : (req.targetWarden, (db.outgoingStream req.targetWarden).nextSequence) ∉
    db.outgoingTransfers
  freePool_eq : ∀ i, freePool i + req.amount i = db.freePool i
  transferredOut_eq : ∀ i, transferredOut i = db.transferredOut i + req.amount i
  request_new : db.idempotency.lookup req.requestId = none
  out_eq : out = .voucher voucher
  stream_epoch : (db.outgoingStream req.targetWarden).configEpoch = db.envelope.configEpoch
  policy_eq : db.policies.lookup policyDigest = some policy
  queues : Queues svc .transfer newTransferId req.targetWarden
    (db.outgoingStream req.targetWarden).nextSequence (.voucher voucher) clock.nowNs false
    db.peerDeliveries deliveries
  chained : svc.AuditExtends db.auditLog (db.auditLog ++ [auditRow])
  result : db' = Database.rememberResponse ("prepare_transfer:" ++ req.targetWarden) req.requestId
    (svc.fingerprint (req.arguments db.envelope.configEpoch)) out clock.nowNs 201
    { db.touch clock.nowNs with
      freePool
      transferredOut
      revision := db.revision + 1
      outgoingTransfers := db.outgoingTransfers.insert
        (req.targetWarden, (db.outgoingStream req.targetWarden).nextSequence)
        (.prepared voucher (svc.recordDigest (.voucher voucher)) clock.nowNs)
      outgoingStreams := db.outgoingStreams.insert req.targetWarden
        { db.outgoingStream req.targetWarden with
          nextSequence := (db.outgoingStream req.targetWarden).nextSequence + 1 }
      peerDeliveries := deliveries
      auditLog := db.auditLog ++ [auditRow] }
  runtimeActive : db.runtime.mode = .active

theorem prepareTransfer_ok {newTransferId : String} {req : PrepareTransferRequest d}
    (h : svc.prepareTransfer clock newTransferId req db = .ok (db', out)) :
    db.ClockSafe clock ∧ db'.Conserved ∧
      (Database.Replays clock ("prepare_transfer:" ++ req.targetWarden) req.requestId
          (svc.fingerprint (req.arguments db.envelope.configEpoch)) out db db' ∨
        Nonempty (Prepared svc clock newTransferId req db db' out)) := by
  simp only [prepareTransfer, bind_ok_iff, require_ok_iff, exists_unit_iff] at h
  obtain ⟨htarget, _, _, _, _, h⟩ := h
  obtain ⟨h, hcons⟩ := writeTransaction_ok h
  simp only [bind_ok_iff, require_ok_iff, exists_unit_iff, Database.clockIsSafe_ok_iff,
    verifyDatabaseIdentity] at h
  obtain ⟨⟨hidentity, _⟩, _, _, ⟨hclock, rfl⟩, ⟨policyDigest, policy⟩, hselect, prior, hprior, h⟩ := h
  refine ⟨hclock, hcons, ?_⟩
  cases prior with
  | some prior => exact .inl (Database.replays_of hprior h)
  | none =>
    simp only [bind_ok_iff, require_ok_iff, exists_unit_iff, pure_ok_iff,
      Database.requireRuntimeActive, Database.openOutgoingStream,
      ResourceVector.subtract_ok_iff, ResourceVector.add_ok_iff, Prod.mk.injEq] at h
    obtain ⟨hactive, _, _, _, ⟨_, hepoch, rfl⟩, voucher, hvoucher, _, hstore, _, hqueue, freePool,
      hfree, transferredOut, hout, _, haudit, rfl, rfl⟩ := h
    obtain ⟨hvalid, signature, rfl⟩ := newVoucher_ok hvoucher
    obtain ⟨hseq, rfl⟩ := storeVoucher_ok hstore
    obtain ⟨deliveries, hqueues, rfl⟩ := queueRecord_ok hqueue
    obtain ⟨auditRow, hchained, rfl⟩ := appendAudit_ok haudit
    exact .inr ⟨{
      policyDigest, policy, signature, freePool, transferredOut, deliveries, auditRow
      voucher := _
      target_ne := htarget
      identity := hidentity
      valid := hvalid
      voucher_eq := rfl
      sequence_new := hseq
      freePool_eq := hfree
      transferredOut_eq := hout
      request_new := Database.idempotentResponse_none_iff.mp hprior
      out_eq := rfl
      stream_epoch := hepoch
      policy_eq := selectPolicy_ok hselect
      queues := hqueues
      chained := hchained
      result := rfl
      runtimeActive := hactive }⟩

/-- How the gap rows and the watermark of a stream move when a sequence above it arrives. -/
inductive Arrives (sourceWarden : String) (sequence nowNs : ℕ) (stream : InboundStream)
    (db : Database d Hash) : Table (String × ℕ) ℕ → ℕ → Prop
  | gap (missing : stream.contiguousThrough + 1 < sequence)
      (new : (sourceWarden, sequence) ∉ db.inboundGaps) :
      Arrives sourceWarden sequence nowNs stream db
        (db.inboundGaps.insert (sourceWarden, sequence) nowNs) stream.contiguousThrough
  | next (consecutive : sequence = stream.contiguousThrough + 1) :
      Arrives sourceWarden sequence nowNs stream db
        (db.advanceInboundGapPrefix sourceWarden sequence).1.inboundGaps
        (db.advanceInboundGapPrefix sourceWarden sequence).2

theorem recordSequence_ok {sourceWarden : String} {sequence nowNs contiguous : ℕ}
    {stream : InboundStream} (hlt : stream.contiguousThrough < sequence)
    (h : db.recordSequence sourceWarden sequence nowNs stream = .ok (db', contiguous)) :
    ∃ gaps, Arrives sourceWarden sequence nowNs stream db gaps contiguous ∧
      db' = { db with inboundGaps := gaps } := by
  unfold Database.recordSequence at h
  split_ifs at h with hgap
  · simp only [bind_ok_iff, require_ok_iff, exists_unit_iff, pure_ok_iff, Prod.mk.injEq] at h
    obtain ⟨hnew, rfl, rfl⟩ := h
    exact ⟨_, .gap hgap hnew, rfl⟩
  · have heq : db.advanceInboundGapPrefix sourceWarden sequence = (db', contiguous) :=
      Except.ok.inj h
    have hdb : (db.advanceInboundGapPrefix sourceWarden sequence).1 = db' := congrArg Prod.fst heq
    have hcontiguous : (db.advanceInboundGapPrefix sourceWarden sequence).2 = contiguous :=
      congrArg Prod.snd heq
    subst hdb hcontiguous
    exact ⟨_, .next (by omega), rfl⟩

/-- The grant that a voucher asks for, before it is signed. -/
abbrev requestedGrant (svc : WardenService d Hash) (clock : Reading) (db : Database d Hash)
    (policy : PolicyRow d) (voucher : TransferVoucher d) (request : LeaseRequest) : LeaseGrant d :=
  svc.unsignedGrant clock db policy voucher.policyDigest request.childLeaseId request.lineageId
    (some request.parentId) request.subjectId voucher.amount request.capabilities
    request.ancestorPath request.branchEpoch request.expiresAtNs

abbrev requestedRow (svc : WardenService d Hash) (clock : Reading) (db : Database d Hash)
    (policy : PolicyRow d) (voucher : TransferVoucher d) (request : LeaseRequest)
    (signature : String) : Lease d :=
  LeaseGrant.toRow { svc.requestedGrant clock db policy voucher request with signature }
    (some voucher.sourceWarden) policy.payload.initialState clock.nowNs

/-- What became of the amount of a voucher: a lease was issued for it, or it went to the pool. -/
inductive Admits (svc : WardenService d Hash) (clock : Reading) (voucher : TransferVoucher d)
    (policy : PolicyRow d) (db : Database d Hash) : Table String (Lease d) → ResourceVector d →
      ResourceVector d → Option (LeaseRequest × ChildOutcome) → Prop
  | pool {freePool : ResourceVector d} (request_eq : voucher.leaseRequest = none)
      (free : ∀ i, freePool i = db.freePool i + voucher.amount i) :
      Admits svc clock voucher policy db db.leases db.leaseResidual freePool none
  | fenced {request : LeaseRequest} {freePool : ResourceVector d}
      (request_eq : voucher.leaseRequest = some request)
      (child_new : request.childLeaseId ∉ db.leases)
      (barred : request.expiresAtNs ≤ clock.nowNs + clock.uncertaintyNs ∨
        db.pathRevoked request.lineageId request.ancestorPath = true)
      (free : ∀ i, freePool i = db.freePool i + voucher.amount i) :
      Admits svc clock voucher policy db db.leases db.leaseResidual freePool
        (some (request, .fenced))
  | issued {request : LeaseRequest} {signature : String} {total : ResourceVector d}
      (request_eq : voucher.leaseRequest = some request)
      (child_new : request.childLeaseId ∉ db.leases)
      (fresh : clock.nowNs + clock.uncertaintyNs < request.expiresAtNs)
      (notRevoked : db.pathRevoked request.lineageId request.ancestorPath = false)
      (total_eq : ∀ i, total i = db.leaseResidual i + voucher.amount i)
      (declared : request.capabilities ⊆ policy.declaredCapabilities)
      (valid : (svc.requestedGrant clock db policy voucher request).validate = .ok ()) :
      Admits svc clock voucher policy db
        (db.leases.insert request.childLeaseId
          (svc.requestedRow clock db policy voucher request signature))
        total db.freePool (some (request, .issued))

variable {voucher : TransferVoucher d} {policy : PolicyRow d}

theorem admitRemoteChild_ok {request : LeaseRequest} {outcome : ChildOutcome}
    (h : svc.admitRemoteChild clock voucher request policy db = .ok (db', outcome)) :
    request.childLeaseId ∉ db.leases ∧
      (outcome = .fenced ∧ db' = db ∧ (request.expiresAtNs ≤ clock.nowNs + clock.uncertaintyNs ∨
          db.pathRevoked request.lineageId request.ancestorPath = true) ∨
        outcome = .issued ∧ clock.nowNs + clock.uncertaintyNs < request.expiresAtNs ∧
          db.pathRevoked request.lineageId request.ancestorPath = false ∧
          request.capabilities ⊆ policy.declaredCapabilities ∧
          (svc.requestedGrant clock db policy voucher request).validate = .ok () ∧
          ∃ signature total, (∀ i, total i = db.leaseResidual i + voucher.amount i) ∧
            db' = { db with
              leases := db.leases.insert request.childLeaseId
                (svc.requestedRow clock db policy voucher request signature)
              leaseResidual := total }) := by
  simp only [admitRemoteChild, bind_ok_iff, require_ok_iff, exists_unit_iff] at h
  obtain ⟨hnew, hdeclared, h⟩ := h
  refine ⟨hnew, ?_⟩
  split_ifs at h with hbarred
  · obtain ⟨rfl, rfl⟩ := Prod.mk.inj (Except.ok.inj h)
    exact .inl ⟨rfl, rfl, hbarred⟩
  · simp only [bind_ok_iff, newGrant, Database.insertLease_ok_iff, pure_ok_iff,
      Prod.mk.injEq] at h
    obtain ⟨grant, hgrant, _, ⟨_, _, _, total, htotal, rfl⟩, rfl, rfl⟩ := h
    obtain ⟨hvalid, signature, rfl⟩ := signGrant_ok hgrant
    rw [not_or, not_le, Bool.not_eq_true] at hbarred
    exact .inr ⟨rfl, hbarred.1, hbarred.2, hdeclared, hvalid, signature, total, htotal, rfl⟩

theorem creditVoucher_ok {amount : ResourceVector d} {issued : Bool}
    (h : db.creditVoucher amount issued = .ok db') :
    ∃ freePool transferredIn, (issued = true → freePool = db.freePool) ∧
      (issued = false → ∀ i, freePool i = db.freePool i + amount i) ∧
      (∀ i, transferredIn i = db.transferredIn i + amount i) ∧
      db' = { db with freePool, transferredIn, revision := db.revision + 1 } := by
  cases issued with
  | true =>
    simp only [Database.creditVoucher, if_true, bind_ok_iff, pure_ok_iff,
      ResourceVector.add_ok_iff, exists_eq_left'] at h
    obtain ⟨transferredIn, hin, rfl⟩ := h
    exact ⟨db.freePool, transferredIn, fun _ => rfl, (by simp), hin, rfl⟩
  | false =>
    simp only [Database.creditVoucher, Bool.false_eq_true, if_false, bind_ok_iff, pure_ok_iff,
      ResourceVector.add_ok_iff] at h
    obtain ⟨freePool, hfree, transferredIn, hin, rfl⟩ := h
    exact ⟨freePool, transferredIn, (by simp), fun _ => hfree, hin, rfl⟩

variable {actor : String} {child : Option (LeaseRequest × ChildOutcome)}

theorem auditChild_ok (h : svc.auditChild clock actor voucher child db = .ok db') :
    ∃ rows, svc.AuditExtends db.auditLog (db.auditLog ++ rows) ∧
      db' = { db with auditLog := db.auditLog ++ rows } := by
  match child with
  | none =>
    obtain rfl := Except.ok.inj h
    exact ⟨[], .append_nil _, by rw [List.append_nil]⟩
  | some (request, outcome) =>
    obtain ⟨row, hchained, rfl⟩ := appendAudit_ok h
    exact ⟨[row], hchained, rfl⟩

/-- What `accept_transfer` has checked and done on the first delivery of a sequence. -/
structure Credited (svc : WardenService d Hash) (clock : Reading) (voucher : TransferVoucher d)
    (db db' : Database d Hash) (out : Response d) where
  policy : PolicyRow d
  gaps : Table (String × ℕ) ℕ
  contiguous : ℕ
  leases : Table String (Lease d)
  leaseResidual : ResourceVector d
  freePool : ResourceVector d
  transferredIn : ResourceVector d
  child : Option (LeaseRequest × ChildOutcome)
  signature : String
  auditRows : List (AuditRow d Hash)
  auditRow : AuditRow d Hash
  ack : TransferAck
  policy_eq : db.policies.lookup voucher.policyDigest = some policy
  notAcked : db.inboundAcks.lookup (voucher.sourceWarden, voucher.sequence) = none
  source_ne : voucher.sourceWarden ≠ db.wardenId
  stream_epoch :
    (db.inboundStream voucher.sourceWarden voucher.configEpoch).configEpoch = voucher.configEpoch
  above : (db.inboundStream voucher.sourceWarden voucher.configEpoch).contiguousThrough <
    voucher.sequence
  within : voucher.sequence ≤ (db.inboundStream voucher.sourceWarden
    voucher.configEpoch).contiguousThrough + db.envelope.transferGapWindow
  arrives : Arrives voucher.sourceWarden voucher.sequence clock.nowNs
    (db.inboundStream voucher.sourceWarden voucher.configEpoch) db gaps contiguous
  admits : Admits svc clock voucher policy db leases leaseResidual freePool child
  transferredIn_eq : ∀ i, transferredIn i = db.transferredIn i + voucher.amount i
  stream_ok : Database.InboundStreamOk
    { db.inboundStream voucher.sourceWarden voucher.configEpoch with
      contiguousThrough := contiguous
      highestSeen := max (db.inboundStream voucher.sourceWarden voucher.configEpoch).highestSeen
        voucher.sequence }
  ack_eq : ack = { svc.unsignedAck clock voucher (svc.recordDigest (.voucher voucher)) contiguous
    child with signature }
  out_eq : out = .ack ack
  chained : svc.AuditExtends db.auditLog (db.auditLog ++ auditRows ++ [auditRow])
  result : db' = { db.touch clock.nowNs with
    inboundGaps := gaps
    leases
    leaseResidual
    freePool
    transferredIn
    revision := db.revision + 1
    inboundStreams := db.inboundStreams.insert voucher.sourceWarden
      { db.inboundStream voucher.sourceWarden voucher.configEpoch with
        contiguousThrough := contiguous
        highestSeen := max (db.inboundStream voucher.sourceWarden voucher.configEpoch).highestSeen
          voucher.sequence }
    inboundAcks := db.inboundAcks.insert (voucher.sourceWarden, voucher.sequence)
      { transferDigest := svc.recordDigest (.voucher voucher), ackPayload := ack }
    auditLog := db.auditLog ++ auditRows ++ [auditRow] }

/-- What `accept_transfer` has checked and done on a redelivery. -/
structure Redelivered (svc : WardenService d Hash) (clock : Reading) (voucher : TransferVoucher d)
    (db db' : Database d Hash) (out : Response d) where
  existing : InboundAck
  stream : InboundStream
  auditRows : List (AuditRow d Hash)
  existing_eq : db.inboundAcks.lookup (voucher.sourceWarden, voucher.sequence) = some existing
  digest_eq : existing.transferDigest = svc.recordDigest (.voucher voucher)
  stream_eq : db.inboundStreams.lookup voucher.sourceWarden = some stream
  above : stream.compactedThrough < voucher.sequence
  out_eq : out = .ack existing.ackPayload
  chained : svc.AuditExtends db.auditLog (db.auditLog ++ auditRows)
  result : db' = { db.touch clock.nowNs with
    inboundGaps :=
      (db.advanceInboundGapPrefix voucher.sourceWarden stream.contiguousThrough).1.inboundGaps
    inboundStreams := if stream.contiguousThrough <
        (db.advanceInboundGapPrefix voucher.sourceWarden stream.contiguousThrough).2 then
      db.inboundStreams.insert voucher.sourceWarden { stream with
        contiguousThrough :=
          (db.advanceInboundGapPrefix voucher.sourceWarden stream.contiguousThrough).2 }
      else db.inboundStreams
    auditLog := db.auditLog ++ auditRows }

theorem redeliver_ok {existing : InboundAck}
    (hexisting : db.inboundAcks.lookup (voucher.sourceWarden, voucher.sequence) = some existing)
    (h : svc.redeliver clock actor voucher (svc.recordDigest (.voucher voucher)) existing
      (db.touch clock.nowNs) = .ok (db', out)) :
    Nonempty (Redelivered svc clock voucher db db' out) := by
  simp only [redeliver, bind_ok_iff, require_ok_iff, orError_ok_iff, exists_unit_iff] at h
  obtain ⟨hdigest, stream, hstream, habove, h⟩ := h
  split_ifs at h with hmoved
  · simp only [bind_ok_iff, pure_ok_iff, Prod.mk.injEq, Database.setInboundStream, require_ok_iff,
      exists_unit_iff] at h
    obtain ⟨_, ⟨_, rfl⟩, _, haudit, rfl, rfl⟩ := h
    obtain ⟨row, hchained, rfl⟩ := appendAudit_ok haudit
    have hmoved' : stream.contiguousThrough <
        (db.advanceInboundGapPrefix voucher.sourceWarden stream.contiguousThrough).2 := hmoved
    exact ⟨{
      existing, stream
      auditRows := [row]
      existing_eq := hexisting
      digest_eq := hdigest
      stream_eq := hstream
      above := habove
      out_eq := rfl
      chained := hchained
      result := by rw [if_pos hmoved']; rfl }⟩
  · have hmoved' : ¬stream.contiguousThrough <
        (db.advanceInboundGapPrefix voucher.sourceWarden stream.contiguousThrough).2 := hmoved
    obtain ⟨rfl, rfl⟩ := Prod.mk.inj (Except.ok.inj h)
    exact ⟨{
      existing, stream
      auditRows := []
      existing_eq := hexisting
      digest_eq := hdigest
      stream_eq := hstream
      above := habove
      out_eq := rfl
      chained := .append_nil _
      result := by rw [if_neg hmoved', List.append_nil]; rfl }⟩

theorem admitChild_ok {db₂ : Database d Hash}
    (h : svc.admitChild clock voucher policy db = .ok (db', child))
    (hcredit : db'.creditVoucher voucher.amount (child.any fun c => c.2 = .issued) = .ok db₂) :
    ∃ leases leaseResidual freePool transferredIn,
      Admits svc clock voucher policy db leases leaseResidual freePool child ∧
      (∀ i, transferredIn i = db.transferredIn i + voucher.amount i) ∧
      db₂ = { db with
        leases, leaseResidual, freePool, transferredIn, revision := db.revision + 1 } := by
  obtain ⟨freePool, transferredIn, hissued, hpool, hin, rfl⟩ := creditVoucher_ok hcredit
  unfold admitChild at h
  split at h
  · rename_i hrequest
    obtain ⟨rfl, rfl⟩ := Prod.mk.inj (Except.ok.inj h)
    exact ⟨_, _, freePool, transferredIn, .pool hrequest (hpool rfl), hin, rfl⟩
  · rename_i request hrequest
    simp only [bind_ok_iff, pure_ok_iff, Prod.mk.injEq] at h
    obtain ⟨⟨db₁, outcome⟩, hadmit, rfl, rfl⟩ := h
    obtain ⟨hnew, ⟨rfl, rfl, hbarred⟩ | ⟨rfl, hfresh, hrevoked, hdeclared, hvalid, signature, total,
      htotal, rfl⟩⟩ := admitRemoteChild_ok hadmit
    · exact ⟨_, _, freePool, transferredIn, .fenced hrequest hnew hbarred (hpool rfl), hin, rfl⟩
    · obtain rfl := hissued rfl
      exact ⟨_, total, _, transferredIn,
        .issued hrequest hnew hfresh hrevoked htotal hdeclared hvalid, hin, rfl⟩

theorem credit_ok (hpolicy : db.policies.lookup voucher.policyDigest = some policy)
    (hnone : db.inboundAcks.lookup (voucher.sourceWarden, voucher.sequence) = none)
    (h : svc.credit clock actor voucher (svc.recordDigest (.voucher voucher)) policy
      (db.touch clock.nowNs) = .ok (db', out)) :
    Nonempty (Credited svc clock voucher db db' out) := by
  simp only [credit, bind_ok_iff, require_ok_iff, exists_unit_iff, pure_ok_iff,
    Database.setInboundStream, Prod.mk.injEq] at h
  obtain ⟨_, hsource, hepoch, habove, hwithin, ⟨db₁, contiguous⟩, hrecord, ⟨db₂, child⟩, hadmit,
    signature, _, db₃, hcredit, db₄, hchild, db₅, ⟨hok, rfl⟩, _, haudit, rfl, rfl⟩ := h
  obtain ⟨gaps, harrives, rfl⟩ := recordSequence_ok habove hrecord
  obtain ⟨leases, leaseResidual, freePool, transferredIn, hadmits, hin, rfl⟩ :=
    admitChild_ok hadmit hcredit
  obtain ⟨auditRows, hrows, rfl⟩ := auditChild_ok hchild
  obtain ⟨auditRow, hrow, rfl⟩ := appendAudit_ok haudit
  exact ⟨{
    policy, gaps, contiguous, leases, leaseResidual, freePool, transferredIn, child, signature,
    auditRows, auditRow
    ack := _
    policy_eq := hpolicy
    notAcked := hnone
    source_ne := hsource
    stream_epoch := hepoch
    above := habove
    within := hwithin
    arrives := by cases harrives with
      | gap missing new => exact .gap missing new
      | next consecutive => exact .next consecutive
    admits := by cases hadmits with
      | pool request_eq free => exact .pool request_eq free
      | fenced request_eq child_new barred free => exact .fenced request_eq child_new barred free
      | issued request_eq child_new fresh notRevoked total_eq declared valid =>
        exact .issued request_eq child_new fresh notRevoked total_eq declared valid
    transferredIn_eq := hin
    stream_ok := hok
    ack_eq := rfl
    out_eq := rfl
    chained := hrows.trans hrow
    result := rfl }⟩

/-- The part of `accept_transfer` before the voucher is looked up among the acknowledgements. -/
structure Presented (svc : WardenService d Hash) (identity : IdentityContext)
    (voucher : TransferVoucher d) (db : Database d Hash) : Prop where
  valid : voucher.validate = .ok ()
  scope : identity.subjectId = svc.wardenId ∨
    identity.HasScope (adminScopes ++ ["lets.peer", "lets.transfer"])
  verified : svc.verifyRecord (.voucher voucher) voucher.sourceWarden = true
  tenant : db.envelope.tenantId = voucher.tenantId
  envelope : db.envelope.envelopeId = voucher.envelopeId
  caller : identity.tenantId = voucher.tenantId
  target : voucher.targetWarden = svc.wardenId
  epoch : voucher.configEpoch = db.envelope.configEpoch
  policy : ∃ policy, db.policies.lookup voucher.policyDigest = some policy ∧
    voucher.policyVersion = policy.payload.policyVersion ∧
    voucher.policyId = policy.payload.policyId

variable {identity : IdentityContext}

theorem acceptTransfer_ok (h : svc.acceptTransfer clock identity voucher db = .ok (db', out)) :
    db.ClockSafe clock ∧ db'.Conserved ∧ Presented svc identity voucher db ∧
      (Nonempty (Redelivered svc clock voucher db db' out) ∨
        Nonempty (Credited svc clock voucher db db' out)) := by
  simp only [acceptTransfer, bind_ok_iff, require_ok_iff, exists_unit_iff] at h
  obtain ⟨hvalid, hscope, hverify, h⟩ := h
  obtain ⟨h, hcons⟩ := writeTransaction_ok h
  simp only [bind_ok_iff, require_ok_iff, exists_unit_iff, Database.clockIsSafe_ok_iff,
    Database.requireEnvelope, Database.registeredPolicy_ok_iff] at h
  obtain ⟨⟨htenant, henvelope⟩, _, ⟨hclock, rfl⟩, hcaller, htarget, hepoch, policy, hpolicy, hversion,
    h⟩ := h
  refine ⟨hclock, hcons, ⟨hvalid, hscope, hverify, htenant, henvelope, hcaller, htarget, hepoch,
    policy, hpolicy, hversion⟩, ?_⟩
  cases hack : db.inboundAcks.lookup (voucher.sourceWarden, voucher.sequence) with
  | some existing =>
    have hack' : (db.touch clock.nowNs).inboundAcks.lookup
      (voucher.sourceWarden, voucher.sequence) = some existing := hack
    simp only [hack'] at h
    exact .inl (redeliver_ok hack h)
  | none =>
    have hack' : (db.touch clock.nowNs).inboundAcks.lookup
      (voucher.sourceWarden, voucher.sequence) = none := hack
    simp only [hack'] at h
    exact .inr (credit_ok hpolicy hack h)

inductive Finalizes (ack : TransferAck) (nowNs : ℕ) (db : Database d Hash)
    (outgoing : OutgoingTransfer d) (stream : OutgoingStream) :
    Table String (RemoteChild d) → Table (String × ℕ) (OutgoingTransfer d) →
      Table String OutgoingStream → Prop
  /-- The transfer was final already, with this acknowledgement. -/
  | again (final : outgoing.status.isFinal = true) (ack_eq : outgoing.ackPayload = some ack) :
      Finalizes ack nowNs db outgoing stream db.remoteChildren db.outgoingTransfers
        db.outgoingStreams
  /-- It was, and the watermark moves over one more batch. -/
  | advanced {watermark : ℕ} (final : outgoing.status.isFinal = true)
      (ack_eq : outgoing.ackPayload = some ack)
      (watermark_eq : watermark =
        db.advanceOutgoingFinalizedPrefix ack.targetWarden stream.ackedThrough)
      (ok : Database.OutgoingStreamOk { stream with ackedThrough := watermark }) :
      Finalizes ack nowNs db outgoing stream db.remoteChildren db.outgoingTransfers
        (db.outgoingStreams.insert ack.targetWarden { stream with ackedThrough := watermark })
  /-- It becomes final, and the child of a lease voucher takes the outcome that the target
  reports. -/
  | first {children : Table String (RemoteChild d)}
      {transfers : Table (String × ℕ) (OutgoingTransfer d)} {watermark : ℕ}
      (prepared : outgoing.status = .prepared)
      (children_eq : outgoing.voucher.leaseRequest = none ∧ ack.child = none ∧
          children = db.remoteChildren ∨
        ∃ request outcome, outgoing.voucher.leaseRequest = some request ∧
          ack.child = some (request.childLeaseId, outcome) ∧
          children = db.remoteChildren.update request.childLeaseId
            (RemoteChild.acknowledged outcome nowNs))
      (transfers_eq : transfers = db.outgoingTransfers.update (ack.targetWarden, ack.sequence)
        (OutgoingTransfer.finalized ack nowNs))
      (watermark_eq : watermark = ({ db with outgoingTransfers := transfers } :
        Database d Hash).advanceOutgoingFinalizedPrefix ack.targetWarden stream.ackedThrough)
      (ok : Database.OutgoingStreamOk { stream with ackedThrough := watermark }) :
      Finalizes ack nowNs db outgoing stream children transfers
        (db.outgoingStreams.insert ack.targetWarden { stream with ackedThrough := watermark })

/-- What `finalize_transfer` has checked and done. -/
structure Finalized (svc : WardenService d Hash) (clock : Reading) (ack : TransferAck)
    (db db' : Database d Hash) where
  outgoing : OutgoingTransfer d
  stream : OutgoingStream
  watermark : ℕ
  auditRows : List (AuditRow d Hash)
  verified : svc.verifyRecord (.ack ack) ack.targetWarden = true
  source_eq : ack.sourceWarden = svc.wardenId
  outgoing_eq : db.outgoingTransfers.lookup (ack.targetWarden, ack.sequence) = some outgoing
  transferId_eq : outgoing.voucher.transferId = ack.transferId
  digest_eq : outgoing.digest = ack.voucherDigest
  stream_eq : db.outgoingStreams.lookup ack.targetWarden = some stream
  children : Table String (RemoteChild d)
  transfers : Table (String × ℕ) (OutgoingTransfer d)
  streams : Table String OutgoingStream
  finalizes : Finalizes ack clock.nowNs db outgoing stream children transfers streams
  streams_eq : streams = db.outgoingStreams ∨
    streams = db.outgoingStreams.insert ack.targetWarden { stream with ackedThrough := watermark }
  chained : svc.AuditExtends db.auditLog (db.auditLog ++ auditRows)
  result : db' = { db.touch clock.nowNs with
    remoteChildren := children
    outgoingTransfers := transfers
    outgoingStreams := streams
    auditLog := db.auditLog ++ auditRows }

theorem acknowledgeRequest_ok {ack : TransferAck} {leaseRequest : Option LeaseRequest}
    (h : svc.acknowledgeRequest clock actor ack leaseRequest db = .ok db') :
    ∃ children rows, (leaseRequest = none ∧ ack.child = none ∧ children = db.remoteChildren ∨
        ∃ request outcome, leaseRequest = some request ∧
          ack.child = some (request.childLeaseId, outcome) ∧
        children = db.remoteChildren.update request.childLeaseId
          (RemoteChild.acknowledged outcome clock.nowNs)) ∧
      svc.AuditExtends db.auditLog (db.auditLog ++ rows) ∧
      db' = { db with remoteChildren := children, auditLog := db.auditLog ++ rows } := by
  cases leaseRequest with
  | none =>
    simp only [acknowledgeRequest, bind_ok_iff, require_ok_iff, exists_unit_iff,
      pure_ok_iff] at h
    obtain ⟨hchild, rfl⟩ := h
    exact ⟨db.remoteChildren, [], .inl ⟨rfl, hchild, rfl⟩, .append_nil _,
      by rw [List.append_nil]⟩
  | some request =>
    simp only [acknowledgeRequest, acknowledgeChild, bind_ok_iff, require_ok_iff, exists_unit_iff,
      orError_ok_iff] at h
    obtain ⟨⟨childLeaseId, outcome⟩, hchild, rfl, _, haudit⟩ := h
    obtain ⟨row, hchained, rfl⟩ := appendAudit_ok haudit
    exact ⟨_, [row], .inr ⟨request, outcome, rfl, hchild, rfl⟩, hchained, rfl⟩

theorem finalizeTransfer_ok {ack : TransferAck}
    (h : svc.finalizeTransfer clock identity ack db = .ok (db', out)) :
    db.ClockSafe clock ∧ db'.Conserved ∧ out = .ack ack ∧
      Nonempty (Finalized svc clock ack db db') := by
  simp only [finalizeTransfer, bind_ok_iff, require_ok_iff, exists_unit_iff] at h
  obtain ⟨_, hverify, h⟩ := h
  obtain ⟨h, hcons⟩ := writeTransaction_ok h
  simp only [bind_ok_iff, require_ok_iff, exists_unit_iff, orError_ok_iff,
    Database.clockIsSafe_ok_iff] at h
  obtain ⟨_, _, ⟨hclock, rfl⟩, _, hsource, _, outgoing, houtgoing, hid, hdigest, stream, hstream,
    h⟩ := h
  refine ⟨hclock, hcons, ?_⟩
  split_ifs at h with hfinal hmoved
  · simp only [bind_ok_iff, require_ok_iff, exists_unit_iff, pure_ok_iff, Prod.mk.injEq,
      Database.setOutgoingStream] at h
    obtain ⟨hack, _, ⟨hok, rfl⟩, _, haudit, rfl, rfl⟩ := h
    obtain ⟨row, hchained, rfl⟩ := appendAudit_ok haudit
    exact ⟨rfl, ⟨{
      outgoing, stream
      watermark := _
      auditRows := [row]
      verified := hverify
      source_eq := hsource
      outgoing_eq := houtgoing
      transferId_eq := hid
      digest_eq := hdigest
      stream_eq := hstream
      children := _
      transfers := _
      streams := _
      finalizes := .advanced hfinal hack rfl hok
      streams_eq := .inr rfl
      chained := hchained
      result := rfl }⟩⟩
  · simp only [bind_ok_iff, require_ok_iff, exists_unit_iff, pure_ok_iff, Prod.mk.injEq] at h
    obtain ⟨hack, rfl, rfl⟩ := h
    exact ⟨rfl, ⟨{
      outgoing, stream
      watermark := 0
      auditRows := []
      verified := hverify
      source_eq := hsource
      outgoing_eq := houtgoing
      transferId_eq := hid
      digest_eq := hdigest
      stream_eq := hstream
      children := _
      transfers := _
      streams := _
      finalizes := .again hfinal hack
      streams_eq := .inl rfl
      chained := .append_nil _
      result := by rw [List.append_nil]; rfl }⟩⟩
  · simp only [bind_ok_iff, require_ok_iff, exists_unit_iff, pure_ok_iff, Prod.mk.injEq,
      Database.setOutgoingStream] at h
    obtain ⟨hprepared, _, hrequest, _, _, ⟨hok, rfl⟩, _, haudit, rfl, rfl⟩ := h
    obtain ⟨children, rows, hchildren, hrows, rfl⟩ := acknowledgeRequest_ok hrequest
    obtain ⟨row, hrow, rfl⟩ := appendAudit_ok haudit
    exact ⟨rfl, ⟨{
      outgoing, stream, children
      watermark := _
      auditRows := rows ++ [row]
      verified := hverify
      source_eq := hsource
      outgoing_eq := houtgoing
      transferId_eq := hid
      digest_eq := hdigest
      stream_eq := hstream
      transfers := _
      streams := _
      finalizes := .first hprepared hchildren rfl rfl hok
      streams_eq := .inr rfl
      chained := by rw [← List.append_assoc]; exact hrows.trans hrow
      result := by rw [← List.append_assoc]; rfl }⟩⟩

/-- No outgoing transfer at or below a sequence is open, and no delivery of one, where peers are
configured, is unconfirmed. -/
structure Compactable (svc : WardenService d Hash) (targetWarden : String) (through : ℕ)
    (db : Database d Hash) : Prop where
  final : ∀ sequence row, db.outgoingTransfers.lookup (targetWarden, sequence) = some row →
    sequence ≤ through → row.status.isFinal = true
  confirmed : svc.allowedPeerWardens = none ∨ ∀ sequence row,
    db.outgoingTransfers.lookup (targetWarden, sequence) = some row → sequence ≤ through →
      ∃ delivery, db.peerDeliveries.lookup
          (.transfer, row.voucher.transferId, targetWarden) = some delivery ∧
        delivery.deliveredAtNs.isSome = true

/-- The checkpoint, the streams and the delivery records once a checkpoint has been made. -/
inductive Checkpoints (svc : WardenService d Hash) (clock : Reading) (targetWarden : String)
    (through : ℕ) (db : Database d Hash) (stream : OutgoingStream) : TransferCheckpoint →
    Table String OutgoingStream → PeerDeliveries d → Prop
  /-- The stream is compacted as far already. -/
  | again {checkpoint : TransferCheckpoint} (through_eq : through = stream.compactedThrough)
      (payload_eq : stream.checkpointPayload = some checkpoint) :
      Checkpoints svc clock targetWarden through db stream checkpoint db.outgoingStreams
        db.peerDeliveries
  | new {checkpoint : TransferCheckpoint} {signature : String}
      {deliveries : PeerDeliveries d}
      (forward : stream.compactedThrough < through)
      (compactable : Compactable svc targetWarden through db)
      (checkpoint_eq : checkpoint =
        { svc.unsignedCheckpoint clock db targetWarden through with signature })
      (ok : Database.OutgoingStreamOk
        { stream with compactedThrough := through, checkpointPayload := some checkpoint })
      (queues : Queues svc .checkpoint (svc.recordDigest (.checkpoint checkpoint)) targetWarden
        through (.checkpoint checkpoint) clock.nowNs true db.peerDeliveries deliveries) :
      Checkpoints svc clock targetWarden through db stream checkpoint
        (db.outgoingStreams.insert targetWarden
          { stream with compactedThrough := through, checkpointPayload := some checkpoint })
        deliveries

/-- What `create_transfer_checkpoint` has done: history at or below the checkpoint may go. -/
structure CheckpointCreated (svc : WardenService d Hash) (clock : Reading) (targetWarden : String)
    (checkpoint : TransferCheckpoint) (db db' : Database d Hash) where
  stream : OutgoingStream
  stream' : OutgoingStream
  through : ℕ
  deliveries : PeerDeliveries d
  auditRows : List (AuditRow d Hash)
  stream_eq : db.outgoingStreams.lookup targetWarden = some stream
  nextSequence_eq : stream'.nextSequence = stream.nextSequence
  streams : Table String OutgoingStream
  streams_eq : streams = db.outgoingStreams ∨
    streams = db.outgoingStreams.insert targetWarden stream'
  positive : 0 < through
  reached : through ≤ stream.ackedThrough
  checkpoints : Checkpoints svc clock targetWarden through db stream checkpoint streams deliveries
  chained : svc.AuditExtends db.auditLog (db.auditLog ++ auditRows)
  result : db' = { db.touch clock.nowNs with
    outgoingTransfers := (db.pruneOutgoingTransferPrefix targetWarden through).outgoingTransfers
    outgoingStreams := streams
    peerDeliveries := deliveries
    auditLog := db.auditLog ++ auditRows }

theorem compactable_iff {through : ℕ} :
    Compactable svc targetWarden through db ↔
      db.outgoingTransfers.anyRow (fun key row => key.1 = targetWarden ∧ key.2 ≤ through ∧
        row.status.isFinal = false) = false ∧
      (svc.allowedPeerWardens = none ∨ db.outgoingTransfers.anyRow (fun key row =>
        key.1 = targetWarden ∧ key.2 ≤ through ∧
          ¬(db.peerDeliveries.lookup (.transfer, row.voucher.transferId, targetWarden)).any
            fun delivery => delivery.deliveredAtNs.isSome) = false) := by
  simp only [Table.anyRow_eq_false_iff, decide_eq_false_iff_not, not_and, Prod.forall,
    Bool.not_eq_false, not_not, Option.any_eq_true]
  constructor
  · rintro ⟨hfinal, hconfirmed⟩
    refine ⟨fun target sequence row hrow htarget => ?_, hconfirmed.imp id fun hall target sequence
      row hrow htarget => ?_⟩
    · subst htarget
      exact hfinal sequence row hrow
    · subst htarget
      exact hall sequence row hrow
  · rintro ⟨hfinal, hconfirmed⟩
    exact ⟨fun sequence row hrow => hfinal targetWarden sequence row hrow rfl,
      hconfirmed.imp id fun hall sequence row hrow => hall targetWarden sequence row hrow rfl⟩

theorem createTransferCheckpoint_ok {throughSequence : Option ℕ}
    (h : svc.createTransferCheckpoint clock identity targetWarden throughSequence db = .ok (db', out)) :
    db.ClockSafe clock ∧ db'.Conserved ∧ ∃ checkpoint, out = .checkpoint checkpoint ∧
      Nonempty (CheckpointCreated svc clock targetWarden checkpoint db db') := by
  simp only [createTransferCheckpoint, bind_ok_iff, require_ok_iff, exists_unit_iff] at h
  obtain ⟨_, _, h⟩ := h
  obtain ⟨h, hcons⟩ := writeTransaction_ok h
  simp only [bind_ok_iff, require_ok_iff, exists_unit_iff, orError_ok_iff,
    Database.clockIsSafe_ok_iff] at h
  obtain ⟨_, ⟨hclock, rfl⟩, _, stream, hstream, hpos, hreached, h⟩ := h
  refine ⟨hclock, hcons, ?_⟩
  split_ifs at h with hsame
  · simp only [bind_ok_iff, orError_ok_iff, pure_ok_iff, Prod.mk.injEq] at h
    obtain ⟨existing, hpayload, rfl, rfl⟩ := h
    exact ⟨existing, rfl, ⟨{
      stream
      stream' := stream
      through := _
      deliveries := db.peerDeliveries
      auditRows := []
      stream_eq := hstream
      nextSequence_eq := rfl
      streams := _
      streams_eq := .inl rfl
      positive := hpos
      reached := hreached
      checkpoints := .again hsame hpayload
      chained := .append_nil _
      result := by rw [List.append_nil]; rfl }⟩⟩
  · simp only [bind_ok_iff, require_ok_iff, exists_unit_iff, pure_ok_iff, Prod.mk.injEq,
      Database.setOutgoingStream] at h
    obtain ⟨hforward, hfinal, hconfirmed, signature, _, _, ⟨hok, rfl⟩, _, hqueue, _, haudit, rfl,
      rfl⟩ := h
    obtain ⟨deliveries, hqueues, rfl⟩ := queueRecord_ok hqueue
    obtain ⟨row, hchained, rfl⟩ := appendAudit_ok haudit
    have hcompactable : Compactable svc targetWarden
        (throughSequence.getD stream.ackedThrough) db :=
      compactable_iff.mpr ⟨hfinal, hconfirmed⟩
    exact ⟨_, rfl, ⟨{
      stream, deliveries
      stream' := { stream with
        compactedThrough := throughSequence.getD stream.ackedThrough, checkpointPayload := _ }
      through := throughSequence.getD stream.ackedThrough
      auditRows := [row]
      stream_eq := hstream
      nextSequence_eq := rfl
      streams := _
      streams_eq := .inr rfl
      positive := hpos
      reached := hreached
      checkpoints := .new hforward hcompactable rfl hok hqueues
      chained := hchained
      result := rfl }⟩⟩

/-- What `ingest_transfer_checkpoint` has checked and done. -/
structure CheckpointIngested (svc : WardenService d Hash) (clock : Reading)
    (checkpoint : TransferCheckpoint) (db db' : Database d Hash) where
  stream : InboundStream
  auditRows : List (AuditRow d Hash)
  verified : svc.verifyRecord (.checkpoint checkpoint) checkpoint.sourceWarden = true
  stream_eq : db.inboundStreams.lookup checkpoint.sourceWarden = some stream
  reached : checkpoint.throughSequence ≤ stream.contiguousThrough
  forward : stream.compactedThrough ≤ checkpoint.throughSequence
  streams : Table String InboundStream
  streams_eq : streams = db.inboundStreams ∧
      checkpoint.throughSequence = stream.compactedThrough ∨
    streams = db.inboundStreams.insert checkpoint.sourceWarden { stream with
      compactedThrough := checkpoint.throughSequence, checkpointPayload := some checkpoint }
  chained : svc.AuditExtends db.auditLog (db.auditLog ++ auditRows)
  result : db' = { db.touch clock.nowNs with
    inboundStreams := streams
    inboundAcks := (db.pruneInboundAckPrefix checkpoint.sourceWarden
      checkpoint.throughSequence).inboundAcks
    auditLog := db.auditLog ++ auditRows }

theorem ingestTransferCheckpoint_ok {checkpoint : TransferCheckpoint}
    (h : svc.ingestTransferCheckpoint clock identity checkpoint db = .ok (db', out)) :
    db.ClockSafe clock ∧ db'.Conserved ∧ out = .checkpoint checkpoint ∧
      Nonempty (CheckpointIngested svc clock checkpoint db db') := by
  simp only [ingestTransferCheckpoint, bind_ok_iff, require_ok_iff, exists_unit_iff] at h
  obtain ⟨_, _, hverify, h⟩ := h
  obtain ⟨h, hcons⟩ := writeTransaction_ok h
  simp only [bind_ok_iff, require_ok_iff, exists_unit_iff, orError_ok_iff,
    Database.clockIsSafe_ok_iff] at h
  obtain ⟨_, _, ⟨hclock, rfl⟩, _, _, _, stream, hstream, hreached, hforward, h⟩ := h
  refine ⟨hclock, hcons, ?_⟩
  split_ifs at h with hsame
  · simp only [bind_ok_iff, require_ok_iff, exists_unit_iff, pure_ok_iff, Prod.mk.injEq] at h
    obtain ⟨_, rfl, rfl⟩ := h
    exact ⟨rfl, ⟨{
      stream
      auditRows := []
      verified := hverify
      stream_eq := hstream
      reached := hreached
      forward := hforward
      streams := _
      streams_eq := .inl ⟨rfl, hsame⟩
      chained := .append_nil _
      result := by rw [List.append_nil]; rfl }⟩⟩
  · simp only [bind_ok_iff, require_ok_iff, exists_unit_iff, pure_ok_iff, Prod.mk.injEq,
      Database.setInboundStream] at h
    obtain ⟨_, ⟨_, rfl⟩, _, haudit, rfl, rfl⟩ := h
    obtain ⟨row, hchained, rfl⟩ := appendAudit_ok haudit
    exact ⟨rfl, ⟨{
      stream
      auditRows := [row]
      verified := hverify
      stream_eq := hstream
      reached := hreached
      forward := hforward
      streams := _
      streams_eq := .inr rfl
      chained := hchained
      result := rfl }⟩⟩

end WardenService

end Lets
