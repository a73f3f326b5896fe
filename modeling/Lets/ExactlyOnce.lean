import Lets.Streams
import Lets.Sample

set_option autoImplicit false

/-!
# Exactly-once transfers

After any run, every sequence a warden has accepted is credited once: delivering its voucher again
either returns the acknowledgement of the first delivery or is refused, and nothing else can be
credited in its place.
-/

namespace Lets

open Library

variable {d : ℕ} {Hash : Type}

namespace Database

def ledger (db : Database d Hash) : Envelope d × Table String (Lease d) × ResourceVector d ×
    ResourceVector d × ResourceVector d × ResourceVector d × ResourceVector d :=
  (db.envelope, db.leases, db.freePool, db.leaseResidual, db.consumed, db.transferredIn,
    db.transferredOut)

theorem conserved_of_ledger {db db' : Database d Hash} (hledger : db'.ledger = db.ledger)
    (h : db.Conserved) : db'.Conserved := by
  have henvelope : db'.envelope = db.envelope := congrArg Prod.fst hledger
  have hfree : db'.freePool = db.freePool := congrArg (fun x => x.2.2.1) hledger
  have hresidual : db'.leaseResidual = db.leaseResidual := congrArg (fun x => x.2.2.2.1) hledger
  have hconsumed : db'.consumed = db.consumed := congrArg (fun x => x.2.2.2.2.1) hledger
  have hin : db'.transferredIn = db.transferredIn := congrArg (fun x => x.2.2.2.2.2.1) hledger
  have hout : db'.transferredOut = db.transferredOut := congrArg (fun x => x.2.2.2.2.2.2) hledger
  constructor
  · rw [henvelope, hfree, hresidual, hconsumed, hin, hout]
    exact h.identity
  · rw [henvelope, hin]
    exact h.le_max

end Database

namespace WardenService

variable {svc : WardenService d Hash} {clock : Reading} {operation : Operation d}
  {identity : IdentityContext} {voucher : TransferVoucher d} {db db' : Database d Hash}
  {out : Response d}

structure MayDeliver (svc : WardenService d Hash) (identity : IdentityContext)
    (db : Database d Hash) : Prop where
  scope : identity.subjectId = svc.wardenId ∨
    identity.HasScope (adminScopes ++ ["lets.peer", "lets.transfer"])
  tenant : identity.tenantId = db.envelope.tenantId

theorem Presented.kept (h : Presented svc identity voucher db)
    (heffect : Effect svc clock db operation db' out) : Presented svc identity voucher db' := by
  have henvelope : db'.envelope = db.envelope := congrArg (fun x => x.2.2) heffect.fixed_eq
  obtain ⟨policy, hpolicy, hversion⟩ := h.policy
  refine { h with tenant := ?_, envelope := ?_, epoch := ?_, policy := ?_ }
  · rw [henvelope]
    exact h.tenant
  · rw [henvelope]
    exact h.envelope
  · rw [henvelope]
    exact h.epoch
  · exact ⟨policy, heffect.policies_kept hpolicy, hversion⟩

theorem Presented.of_mayDeliver {identity' : IdentityContext} (h : Presented svc identity voucher db)
    (hmay : MayDeliver svc identity' db) : Presented svc identity' voucher db :=
  { h with
    scope := hmay.scope
    caller := hmay.tenant.trans h.tenant }

theorem streams_of_run {envelope : Envelope d} {db₀ : Database d Hash} {calls : List (Call d)}
    (hinit : (svc.system envelope).Init db₀) (run : (svc.system envelope).Run db₀ calls db) :
    Streams svc (deliveries calls) db ∧ ∀ delivery ∈ deliveries calls,
      ∃ identity, Presented svc identity delivery.1 db := by
  refine run_induction (P := fun calls db => Streams svc (deliveries calls) db ∧
    ∀ delivery ∈ deliveries calls, ∃ identity, Presented svc identity delivery.1 db)
    ⟨Streams.genesis svc envelope, (fun _ h => by cases h)⟩ ?_ ?_ hinit run
  · rintro calls db call db' out ⟨hstreams, hshown⟩ hreply _ _ heffect
    refine ⟨hstreams.step hreply heffect, fun ⟨voucher, ack⟩ hmem => ?_⟩
    obtain ⟨c, hc, identity, hoperation, hc_reply⟩ := mem_deliveries_iff.mp hmem
    rcases List.mem_append.mp hc with hc | hc
    · obtain ⟨identity', hold⟩ :=
        hshown (voucher, ack) (mem_deliveries_iff.mpr ⟨c, hc, identity, hoperation, hc_reply⟩)
      exact ⟨identity', hold.kept heffect⟩
    · rw [List.mem_singleton] at hc
      subst hc
      have hnew : Presented svc identity voucher db := by
        rcases heffect.inbound_cases with ⟨_, hne⟩ | ⟨_, _, heq, hpresented, _⟩ | ⟨_, _, heq, _⟩ |
          ⟨_, _, heq, _⟩
        · exact absurd hoperation (hne _ _)
        · rw [hoperation] at heq
          obtain ⟨rfl, rfl⟩ := Operation.acceptTransfer.inj heq
          exact hpresented
        · exact absurd (hoperation.symm.trans heq) (by simp)
        · exact absurd (hoperation.symm.trans heq) (by simp)
      exact ⟨identity, hnew.kept heffect⟩
  · rintro calls db call e ⟨hstreams, hshown⟩ hreply
    rw [deliveries_concat_error hreply]
    exact ⟨hstreams, hshown⟩

theorem redeliver_of_acked (actor : String) (existing : InboundAck) {stream : InboundStream}
    (hstream : db.inboundStreams.lookup voucher.sourceWarden = some stream)
    (hcurrent : svc.requireSigningKeyCurrent clock = .ok ())
    (habove : stream.compactedThrough < voucher.sequence)
    (hok : Database.InboundStreamOk { stream with contiguousThrough :=
      (db.advanceInboundGapPrefix voucher.sourceWarden stream.contiguousThrough).2 }) :
    ∃ db', svc.redeliver clock actor voucher existing.transferDigest existing db =
        .ok (db', .ack existing.ackPayload) ∧ db'.ledger = db.ledger := by
  simp only [redeliver, bind_ok_iff, require_ok_iff, orError_ok_iff, exists_unit_iff]
  by_cases hmoved : stream.contiguousThrough <
      (db.advanceInboundGapPrefix voucher.sourceWarden stream.contiguousThrough).2
  · apply Exists.intro
    apply And.intro
    · refine ⟨trivial, stream, hstream, habove, ?_⟩
      rw [if_pos hmoved]
      simp only [bind_ok_iff, Database.setInboundStream, require_ok_iff, exists_unit_iff,
        pure_ok_iff, appendAudit, hcurrent]
      exact ⟨_, ⟨hok, rfl⟩, _, ⟨trivial, rfl⟩, rfl⟩
    · rfl
  · apply Exists.intro
    apply And.intro
    · refine ⟨trivial, stream, hstream, habove, ?_⟩
      rw [if_neg hmoved]
      rfl
    · rfl

variable {ack : TransferAck}

theorem acceptTransfer_of_acked {stream : InboundStream} (hclock : db.ClockSafe clock)
    (hshown : Presented svc identity voucher db) (hconserved : db.Conserved)
    (hcurrent : svc.requireSigningKeyCurrent clock = .ok ())
    (hack : db.inboundAcks.lookup voucher.key = some ⟨svc.recordDigest (.voucher voucher), ack⟩)
    (hstream : db.inboundStreams.lookup voucher.sourceWarden = some stream)
    (habove : stream.compactedThrough < voucher.sequence)
    (hok : Database.InboundStreamOk { stream with contiguousThrough :=
      (db.advanceInboundGapPrefix voucher.sourceWarden stream.contiguousThrough).2 }) :
    ∃ db', svc.acceptTransfer clock identity voucher db = .ok (db', .ack ack) ∧
      db'.ledger = db.ledger := by
  have hstream' : (db.touch clock.nowNs).inboundStreams.lookup voucher.sourceWarden =
    some stream := hstream
  obtain ⟨db', hredeliver, hledger⟩ := redeliver_of_acked identity.subjectId
    ⟨svc.recordDigest (.voucher voucher), ack⟩ hstream' hcurrent habove hok
  refine ⟨db', ?_, hledger⟩
  obtain ⟨policy, hpolicy, hversion⟩ := hshown.policy
  have hack' : (db.touch clock.nowNs).inboundAcks.lookup (voucher.sourceWarden, voucher.sequence) =
    some ⟨svc.recordDigest (.voucher voucher), ack⟩ := hack
  simp only [acceptTransfer, writeTransaction, bind_ok_iff, require_ok_iff, exists_unit_iff,
    Database.requireEnvelope, Database.clockIsSafe_ok_iff, Database.registeredPolicy_ok_iff,
    pure_ok_iff]
  refine ⟨hshown.valid, hshown.scope, hshown.verified, _, ⟨⟨hshown.tenant, hshown.envelope⟩, _,
    ⟨hclock, rfl⟩, hshown.caller, hshown.target, hshown.epoch, policy, hpolicy, hversion, ?_⟩,
    Database.assertLocalConservation_ok_iff.mpr (Database.conserved_of_ledger hledger hconserved),
    rfl⟩
  rw [hack']
  exact hredeliver

variable {accepted : List (TransferVoucher d × TransferAck)}

theorem Streams.answers_again (h : Streams svc accepted db) (hmem : (voucher, ack) ∈ accepted)
    (hclock : db.ClockSafe clock) (hshown : Presented svc identity voucher db)
    (hconserved : db.Conserved) (hcurrent : svc.requireSigningKeyCurrent clock = .ok ())
    (habove : (db.stream voucher.sourceWarden).compactedThrough < voucher.sequence) :
    ∃ db', svc.acceptTransfer clock identity voucher db = .ok (db', .ack ack) ∧
      db'.ledger = db.ledger := by
  have hack := h.acked _ hmem habove
  obtain ⟨stream, hlookup⟩ := Table.mem_iff_lookup.mp (h.opened _ hmem)
  have hstream := Database.stream_of_lookup hlookup
  have hwindow := Database.window_advance (hstream ▸ h.window voucher.sourceWarden)
  have hseen := h.contiguous_le_highestSeen hwindow
  have hle := db.advance_le voucher.sourceWarden stream.contiguousThrough
  have hcompacted := h.compacted voucher.sourceWarden
  have hcheckpointed := h.checkpointed voucher.sourceWarden
  rw [hstream] at habove hseen hcompacted hcheckpointed
  exact acceptTransfer_of_acked hclock hshown hconserved hcurrent hack hlookup habove
    ⟨hseen, hcompacted.trans hle, hcheckpointed⟩

theorem Streams.accept_again (h : Streams svc accepted db) (hmem : (voucher, ack) ∈ accepted)
    (hexec : svc.exec clock (.acceptTransfer identity voucher) db = .ok (db', out)) :
    out = .ack ack ∧ db'.ledger = db.ledger := by
  obtain ⟨_, _, hshown, ⟨⟨done⟩⟩ | ⟨⟨done⟩⟩⟩ := acceptTransfer_ok hexec
  · obtain ⟨first, hfirst, hkey, hrow⟩ := h.acks _ _ done.existing_eq
    have hunique := h.unique first hfirst (voucher, ack) hmem hkey
    rw [done.out_eq, hrow, hunique.2]
    exact ⟨rfl, by rw [done.result]; rfl⟩
  · have habove := done.above
    rw [hshown.epoch] at habove
    have hnew := h.notReceived done.notAcked habove
    exact absurd (mem_receivedFrom_iff.mpr ⟨_, hmem, rfl⟩) hnew

theorem rejects_stale {clock : Reading} {identity : IdentityContext}
    (h : voucher.sequence ≤ (db.stream voucher.sourceWarden).compactedThrough ∨
      voucher.sequence ≤ (db.stream voucher.sourceWarden).contiguousThrough ∧
        voucher.key ∉ db.inboundAcks) (hcompacted : (db.stream voucher.sourceWarden).compactedThrough ≤
      (db.stream voucher.sourceWarden).contiguousThrough) :
    svc.Rejects clock (.acceptTransfer identity voucher) db := by
  refine rejects_of_not_ok fun db' out hexec => ?_
  obtain ⟨_, _, hshown, ⟨⟨done⟩⟩ | ⟨⟨done⟩⟩⟩ := acceptTransfer_ok hexec
  · have hstream := Database.stream_of_lookup done.stream_eq
    have habove := done.above
    rw [← hstream] at habove
    rcases h with hle | ⟨_, hnone⟩
    · omega
    · exact hnone (Table.mem_iff_lookup.mpr ⟨_, done.existing_eq⟩)
  · have habove : (db.stream voucher.sourceWarden).contiguousThrough < voucher.sequence := by
      have habove := done.above
      rwa [hshown.epoch] at habove
    rcases h with hle | ⟨hle, _⟩ <;> omega

end WardenService

/-- Every sequence of every source is credited at most once: a voucher above the compacted watermark
that is delivered again gets the acknowledgement of its first delivery and moves nothing, and a
stale or different one is refused. -/
theorem inbound_exactly_once {svc : WardenService d Hash} {envelope : Envelope d}
    {db₀ db : Database d Hash} {calls : List (Call d)} (hinit : (svc.system envelope).Init db₀)
    (run : (svc.system envelope).Run db₀ calls db) :
    (∀ i, db.transferredIn i = ((firsts (fun delivery => delivery.1.key) (deliveries calls)).map
      fun delivery => delivery.1.amount i).sum) ∧
    (∀ source, (db.stream source).compactedThrough ≤ (db.stream source).contiguousThrough ∧
      (∀ n, 0 < n → n ≤ (db.stream source).contiguousThrough →
        n ∈ receivedFrom source (deliveries calls)) ∧
      ∀ n, (source, n) ∈ db.inboundGaps ↔ n ∈ receivedFrom source (deliveries calls) ∧
        (db.stream source).contiguousThrough < n) ∧
    (∀ voucher ack, (voucher, ack) ∈ deliveries calls →
      ((db.stream voucher.sourceWarden).compactedThrough < voucher.sequence →
        db.inboundAcks.lookup voucher.key = some ⟨svc.recordDigest (.voucher voucher), ack⟩ ∧
        ∀ clock identity, db.ClockSafe clock → svc.MayDeliver identity db →
          svc.requireSigningKeyCurrent clock = .ok () →
          ∃ db', svc.serve clock (.acceptTransfer identity voucher) db = (db', .ok (.ack ack)) ∧
            db'.ledger = db.ledger) ∧
      (∀ clock identity db' out,
        svc.serve clock (.acceptTransfer identity voucher) db = (db', .ok out) →
          out = .ack ack ∧ db'.ledger = db.ledger) ∧
      ∀ clock identity voucher', voucher'.key = voucher.key →
        svc.recordDigest (.voucher voucher') ≠ svc.recordDigest (.voucher voucher) →
        svc.Rejects clock (.acceptTransfer identity voucher') db) ∧
    ∀ clock identity voucher,
      voucher.sequence ≤ (db.stream voucher.sourceWarden).compactedThrough ∨
        voucher.sequence ≤ (db.stream voucher.sourceWarden).contiguousThrough ∧
          voucher.key ∉ db.inboundAcks →
      svc.Rejects clock (.acceptTransfer identity voucher) db := by
  obtain ⟨h, hshown⟩ := WardenService.streams_of_run hinit run
  have hconserved := (accounts_of_run hinit run).conserved
  refine ⟨h.credited, fun source => ⟨h.compacted source, (h.window source).covered,
    (h.window source).gaps_iff⟩, fun voucher ack hmem => ⟨fun habove => ?_, ?_, ?_⟩,
    fun clock identity voucher hstale => WardenService.rejects_stale hstale (h.compacted _)⟩
  · have hack := h.acked _ hmem habove
    refine ⟨hack, fun clock identity hclock hmay hcurrent => ?_⟩
    obtain ⟨_, hold⟩ := hshown _ hmem
    obtain ⟨db', hexec, hledger⟩ := h.answers_again hmem hclock (hold.of_mayDeliver hmay) hconserved
      hcurrent habove
    exact ⟨db', WardenService.serve_ok_iff.mpr hexec, hledger⟩
  · intro clock identity db' out hserve
    exact h.accept_again hmem (WardenService.serve_ok_iff.mp hserve)
  · intro clock identity voucher' hkey hdigest
    refine WardenService.rejects_of_not_ok fun db' out hexec => ?_
    obtain ⟨_, _, hshown', ⟨⟨done⟩⟩ | ⟨⟨done⟩⟩⟩ := WardenService.acceptTransfer_ok hexec
    · obtain ⟨first, hfirst, hkey', hrow⟩ := h.acks _ _ done.existing_eq
      have hfirst_key : first.1.key = voucher.key := hkey'.trans hkey
      have hunique := h.unique first hfirst (voucher, ack) hmem hfirst_key
      have hsame := done.digest_eq
      rw [hrow] at hsame
      exact hdigest (hsame.symm.trans hunique.1)
    · have habove := done.above
      rw [hshown'.epoch] at habove
      have hnew := h.notReceived done.notAcked habove
      exact absurd (mem_receivedFrom_iff.mpr ⟨_, hmem, hkey.symm⟩) hnew

open Sample

/-- Two transfers that arrive out of order, the first of them twice. -/
def Sample.deliverAgain : Database 1 ℕ × List (Call 1) :=
  (service "b").play (genesis "b" 4)
    [(exactly 1, registerPolicy), (exactly 2, .acceptTransfer operator (voucher 2 "x2")),
      (exactly 3, .acceptTransfer operator (voucher 1 "x1")),
      (exactly 4, .acceptTransfer operator (voucher 2 "x2"))]

theorem inbound_exactly_once_deliverAgain :
    (deliveries deliverAgain.2).length = 3 ∧
      deliverAgain.1.transferredIn 0 = 6 ∧
      deliverAgain.1.transferredIn 0 = ((firsts (fun delivery => delivery.1.key)
        (deliveries deliverAgain.2)).map fun delivery => delivery.1.amount 0).sum :=
  ⟨by decide +kernel, by decide +kernel,
    (inbound_exactly_once rfl (WardenService.play_run _ (envelope 4) _ _)).1 0⟩

end Lets
