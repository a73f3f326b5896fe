import Lets.ExactlyOnce
import Lets.Reclaiming

set_option autoImplicit false

/-!
# Catching up after an inbound gap

A transfer accepted before its turn leaves a gap row, and the watermark moves over gap rows one
batch at a time.
-/

namespace Lets

open Library

variable {d : ℕ} {Hash : Type}

theorem finite_receivedFrom (source : String) (accepted : List (TransferVoucher d × TransferAck)) :
    (receivedFrom source accepted).Finite := by
  refine ((accepted.map fun delivery => delivery.1.sequence).toFinset.finite_toSet).subset ?_
  intro n hn
  obtain ⟨delivery, hmem, hkey⟩ := mem_receivedFrom_iff.mp hn
  rw [List.coe_toFinset]
  exact List.mem_map.mpr ⟨delivery, hmem, congrArg Prod.snd hkey⟩

namespace WardenService

variable {svc : WardenService d Hash} {clock : Reading} {identity : IdentityContext}
  {voucher : TransferVoucher d} {ack : TransferAck} {db db' : Database d Hash} {out : Response d}
  {accepted : List (TransferVoucher d × TransferAck)} {m : ℕ}

/-- One redelivery: the stored acknowledgement, nothing credited, and the watermark a batch further or
at the end. -/
structure CaughtUp (clock : Reading) (voucher : TransferVoucher d) (ack : TransferAck) (m : ℕ)
    (db db' : Database d Hash) (out : Response d) : Prop where
  out_eq : out = .ack ack
  ledger : db'.ledger = db.ledger
  envelope : db'.envelope = db.envelope
  clockSafe : db'.ClockSafe clock
  compacted : (db'.stream voucher.sourceWarden).compactedThrough =
    (db.stream voucher.sourceWarden).compactedThrough
  contiguous : (db'.stream voucher.sourceWarden).contiguousThrough =
    (db.stream voucher.sourceWarden).contiguousThrough + min maintenanceRowBatch
      (m - (db.stream voucher.sourceWarden).contiguousThrough)

theorem Streams.caughtUp (h : Streams svc accepted db) (hmem : (voucher, ack) ∈ accepted)
    (hreaches : Reaches (receivedFrom voucher.sourceWarden accepted) m)
    (hexec : svc.exec clock (.acceptTransfer identity voucher) db = .ok (db', out)) :
    CaughtUp clock voucher ack m db db' out := by
  obtain ⟨hout, hledger⟩ := h.accept_again hmem hexec
  obtain ⟨hclock, _, hshown, ⟨⟨done⟩⟩ | ⟨⟨done⟩⟩⟩ := acceptTransfer_ok hexec
  · have hstream := Database.stream_of_lookup done.stream_eq
    have hstream' := stream_of_redelivered done voucher.sourceWarden
    have hwindow := h.window voucher.sourceWarden
    rw [if_pos rfl] at hstream'
    rw [hstream] at hwindow
    refine ⟨hout, hledger, by rw [done.result]; rfl, ?_, by rw [hstream', hstream], ?_⟩
    · have hsafe := hclock.touch
      rw [done.result]
      exact ⟨hsafe.now_le, hsafe.uncertainty_le, hsafe.interval_le, hsafe.floor_le⟩
    · rw [hstream', hstream]
      exact Database.advance_eq hwindow hreaches
  · -- a first delivery would be of a sequence not accepted before
    have habove := done.above
    rw [hshown.epoch] at habove
    have hnew := h.notReceived done.notAcked habove
    exact absurd (mem_receivedFrom_iff.mpr ⟨_, hmem, rfl⟩) hnew

end WardenService

def Call.Redelivers (voucher : TransferVoucher d) (call : Call d) : Prop :=
  ∃ identity out, call.operation = .acceptTransfer identity voucher ∧ call.reply = .ok out

section

variable {svc : WardenService d Hash} {envelope : Envelope d} {db₀ db db' : Database d Hash}
  {calls l : List (Call d)} {voucher : TransferVoucher d} {ack : TransferAck} {m : ℕ}

/-- Redeliveries one after the other: nothing new is received and nothing credited, and the watermark
moves on by full batches until it is at the end. -/
theorem caughtUp_of_run (hinit : (svc.system envelope).Init db₀)
    (run : (svc.system envelope).Run db₀ calls db) (hmem : (voucher, ack) ∈ deliveries calls)
    (hreaches : Reaches (receivedFrom voucher.sourceWarden (deliveries calls)) m)
    (run' : (svc.system envelope).Run db l db') (hl : ∀ call ∈ l, call.Redelivers voucher) :
    (∀ source, receivedFrom source (deliveries (calls ++ l)) =
      receivedFrom source (deliveries calls)) ∧ db'.ledger = db.ledger ∧
    db'.envelope = db.envelope ∧ (db'.stream voucher.sourceWarden).compactedThrough =
      (db.stream voucher.sourceWarden).compactedThrough ∧
    (db'.stream voucher.sourceWarden).contiguousThrough =
      min m ((db.stream voucher.sourceWarden).contiguousThrough +
        maintenanceRowBatch * l.length) := by
  induction run' with
  | nil =>
    have hwindow := (WardenService.streams_of_run hinit run).1.window voucher.sourceWarden
    have hle := hreaches.le hwindow.covered
    refine ⟨fun source => by rw [List.append_nil], rfl, rfl, rfl, ?_⟩
    rw [List.length_nil]
    omega
  | @snoc t u l call run'' step ih =>
    obtain ⟨hreceived, hledger, henvelope, hcompacted, hcontiguous⟩ :=
      ih fun c hc => hl c (List.mem_append_left _ hc)
    obtain ⟨identity, out, hoperation, hreply⟩ := hl call (by simp)
    have hstreams := (WardenService.streams_of_run hinit (run.trans run'')).1
    have hstill : (voucher, ack) ∈ deliveries (calls ++ l) := by
      unfold deliveries
      rw [List.filterMap_append]
      exact List.mem_append_left _ hmem
    have hreaches' := hreaches
    rw [← hreceived] at hreaches'
    have hserve : svc.serve call.clock call.operation t = (u, call.reply) := step
    rw [hoperation, hreply] at hserve
    have hdone := hstreams.caughtUp hstill hreaches' (WardenService.serve_ok_iff.mp hserve)
    have hconcat : deliveries (calls ++ l ++ [call]) = deliveries (calls ++ l) ++ [(voucher, ack)] :=
      deliveries_concat hoperation (hdone.out_eq ▸ hreply)
    refine ⟨fun source => ?_, hdone.ledger.trans hledger, hdone.envelope.trans henvelope,
      hdone.compacted.trans hcompacted, ?_⟩
    · rw [← List.append_assoc, hconcat, receivedFrom_concat_of_mem, hreceived]
      exact mem_receivedFrom_iff.mpr ⟨_, hstill, rfl⟩
    · rw [hdone.contiguous, hcontiguous, List.length_append, List.length_singleton]
      generalize maintenanceRowBatch = b
      have hmul : b * (l.length + 1) = b * l.length + b := Nat.mul_succ _ _
      omega

theorem exists_redeliveries (hinit : (svc.system envelope).Init db₀)
    (run : (svc.system envelope).Run db₀ calls db) (hmem : (voucher, ack) ∈ deliveries calls)
    (hreaches : Reaches (receivedFrom voucher.sourceWarden (deliveries calls)) m)
    (habove : (db.stream voucher.sourceWarden).compactedThrough < voucher.sequence)
    {clock : Reading} {identity : IdentityContext} (hclock : db.ClockSafe clock)
    (hmay : svc.MayDeliver identity db) (hcurrent : svc.requireSigningKeyCurrent clock = .ok ())
    (k : ℕ) : ∃ db', db'.ClockSafe clock ∧ (svc.system envelope).Run db
      (List.replicate k ⟨clock, .acceptTransfer identity voucher, .ok (.ack ack)⟩) db' := by
  induction k with
  | zero => exact ⟨db, hclock, .nil db⟩
  | succ k ih =>
    obtain ⟨t, hclock', run'⟩ := ih
    have hl : ∀ call ∈ List.replicate k (⟨clock, .acceptTransfer identity voucher,
        .ok (.ack ack)⟩ : Call d), call.Redelivers voucher := by
      intro call hcall
      rw [List.eq_of_mem_replicate hcall]
      exact ⟨identity, _, rfl, rfl⟩
    obtain ⟨hreceived, _, henvelope, hcompacted, _⟩ :=
      caughtUp_of_run hinit run hmem hreaches run' hl
    obtain ⟨hstreams, hshown⟩ := WardenService.streams_of_run hinit (run.trans run')
    have hstill : (voucher, ack) ∈ deliveries (calls ++ List.replicate k
        (⟨clock, .acceptTransfer identity voucher, .ok (.ack ack)⟩ : Call d)) := by
      unfold deliveries
      rw [List.filterMap_append]
      exact List.mem_append_left _ hmem
    obtain ⟨_, hold⟩ := hshown _ hstill
    have hmay' : svc.MayDeliver identity t := ⟨hmay.scope, by rw [henvelope]; exact hmay.tenant⟩
    obtain ⟨db', hexec, _⟩ := hstreams.answers_again hstill hclock' (hold.of_mayDeliver hmay')
      (accounts_of_run hinit (run.trans run')).conserved hcurrent (hcompacted ▸ habove)
    have hdone := hstreams.caughtUp hstill (hreceived voucher.sourceWarden ▸ hreaches) hexec
    refine ⟨db', hdone.clockSafe, ?_⟩
    rw [List.replicate_succ']
    exact .snoc run' (WardenService.serve_ok_iff.mpr hexec)

end

/-- What has been received without a gap is caught up with: while the watermark is behind, each
redelivery of a voucher that is still acknowledged moves it by a batch or the rest and credits
nothing, and the next voucher is then within the window. -/
theorem inbound_catches_up {svc : WardenService d Hash} {envelope : Envelope d}
    {db₀ db : Database d Hash} {calls : List (Call d)} (hinit : (svc.system envelope).Init db₀)
    (run : (svc.system envelope).Run db₀ calls db) (source : String) (n : ℕ)
    (hn : ∀ i, 0 < i → i ≤ n → i ∈ receivedFrom source (deliveries calls)) :
    ∃ m, Reaches (receivedFrom source (deliveries calls)) m ∧ n ≤ m ∧
      (db.stream source).contiguousThrough ≤ m ∧
      ((db.stream source).contiguousThrough < m → ∃ delivery ∈ deliveries calls,
        delivery.1.sourceWarden = source ∧
        (db.stream source).compactedThrough < delivery.1.sequence) ∧
      ∀ voucher ack, (voucher, ack) ∈ deliveries calls → voucher.sourceWarden = source →
        (db.stream source).compactedThrough < voucher.sequence →
        (∀ clock identity db' out,
          svc.serve clock (.acceptTransfer identity voucher) db = (db', .ok out) →
          out = .ack ack ∧ db'.ledger = db.ledger ∧ (db'.stream source).contiguousThrough =
            (db.stream source).contiguousThrough +
              min 64 (m - (db.stream source).contiguousThrough)) ∧
        (∀ clock identity, db.ClockSafe clock → svc.MayDeliver identity db →
          svc.requireSigningKeyCurrent clock = .ok () → ∀ k, ∃ db',
            (svc.system envelope).Run db
              (List.replicate k ⟨clock, .acceptTransfer identity voucher, .ok (.ack ack)⟩) db') ∧
        ∀ l db', (svc.system envelope).Run db l db' → (∀ call ∈ l, call.Redelivers voucher) →
          db'.ledger = db.ledger ∧ (db'.stream source).contiguousThrough =
            min m ((db.stream source).contiguousThrough + 64 * l.length) ∧
          (m ≤ (db.stream source).contiguousThrough + 64 * l.length →
            n + 1 ∉ receivedFrom source (deliveries calls) →
            (db'.stream source).contiguousThrough < n + 1 ∧
            n + 1 ≤ (db'.stream source).contiguousThrough + db'.envelope.transferGapWindow) := by
  obtain ⟨m, hreaches⟩ := exists_reaches (finite_receivedFrom source (deliveries calls))
  have hstreams := (WardenService.streams_of_run hinit run).1
  have hwindow := hstreams.window source
  refine ⟨m, hreaches, hreaches.le hn, hreaches.le hwindow.covered, fun hbehind => ?_,
    fun voucher ack hmem hsource habove => ⟨?_, ?_, ?_⟩⟩
  · -- the first gap is above the watermark, so above what is compacted
    obtain ⟨delivery, hmem, hkey⟩ := mem_receivedFrom_iff.mp (hreaches.covered m (by omega) le_rfl)
    obtain ⟨hsource, hsequence⟩ := Prod.mk.inj hkey
    have hcompacted := hstreams.compacted source
    exact ⟨delivery, hmem, hsource, by omega⟩
  · subst hsource
    intro clock identity db' out hserve
    have hdone := hstreams.caughtUp hmem hreaches (WardenService.serve_ok_iff.mp hserve)
    exact ⟨hdone.out_eq, hdone.ledger, hdone.contiguous⟩
  · subst hsource
    intro clock identity hclock hmay hcurrent k
    obtain ⟨db', _, run'⟩ :=
      exists_redeliveries hinit run hmem hreaches habove hclock hmay hcurrent k
    exact ⟨db', run'⟩
  · subst hsource
    intro l db' run' hl
    obtain ⟨_, hledger, _, _, hcontiguous⟩ := caughtUp_of_run hinit run hmem hreaches run' hl
    have hbatch : maintenanceRowBatch = 64 := rfl
    rw [hbatch] at hcontiguous
    refine ⟨hledger, hcontiguous, fun henough hnew => ?_⟩
    have hle := hreaches.le hn
    have hend : m = n := by
      by_contra hne
      exact hnew (hreaches.covered (n + 1) (by omega) (by omega))
    have hpos := db'.envelope.transferGapWindow_pos
    omega

namespace Sample

def wideEnvelope : Envelope 1 :=
  { envelope 4 with
    transferGapWindow := 80
    transferGapWindow_pos := by decide }

/-- Seventy transfers, the first of them last: what it closes is more than one batch. -/
def overtaken : Database 1 ℕ × List (Call 1) :=
  (service "b").play (.genesis "b" "b" wideEnvelope)
    ((exactly 1, .registerPolicy none { policy with transferGapWindow := 80 }) ::
      (List.range 70).reverse.map fun i => (exactly 2, .acceptTransfer operator
        (voucher (i + 1) (String.singleton (Char.ofNat (i + 50))))))

theorem overtaken_facts :
    overtaken.1.clockFloorNs = some 2 ∧ (overtaken.1.stream "a").contiguousThrough = 65 ∧
      (∀ i ∈ List.range 70, ("a", i + 1) ∈ (deliveries overtaken.2).map fun d => d.1.key) ∧
      ("a", 71) ∉ (deliveries overtaken.2).map fun d => d.1.key := by
  decide +kernel

end Sample

open Sample

theorem inbound_catches_up_overtaken :
    (overtaken.1.stream "a").contiguousThrough = 65 ∧
      ∃ delivery ∈ deliveries overtaken.2, ∃ db', ((service "b").system wideEnvelope).Run
        overtaken.1 [⟨exactly 3, .acceptTransfer operator delivery.1, .ok (.ack delivery.2)⟩] db' ∧
        db'.ledger = overtaken.1.ledger ∧ (db'.stream "a").contiguousThrough = 70 := by
  obtain ⟨hfloor, hbehind, hreceived, hmissing⟩ := overtaken_facts
  have run : ((service "b").system wideEnvelope).Run _ overtaken.2 overtaken.1 :=
    WardenService.play_run _ _ _ _
  obtain ⟨_, henvelope⟩ := fixed_of_reachable ⟨_, _, rfl, run⟩
  have hclock : overtaken.1.ClockSafe (exactly 3) := by
    refine ⟨by decide, Nat.zero_le _, by decide, fun floor hmem => ?_⟩
    obtain rfl := some_unique hfloor hmem
    decide
  have hmay : (service "b").MayDeliver operator overtaken.1 :=
    ⟨by decide, by rw [henvelope]; rfl⟩
  have hn : ∀ i, 0 < i → i ≤ 70 → i ∈ receivedFrom "a" (deliveries overtaken.2) := by
    intro i hpos hle
    obtain ⟨i, rfl⟩ := Nat.exists_eq_succ_of_ne_zero hpos.ne'
    exact hreceived i (List.mem_range.mpr hle)
  obtain ⟨m, hreaches, hle, _, hlate, hagain⟩ := inbound_catches_up rfl run "a" 70 hn
  have hm : m = 70 := by
    by_contra hne
    exact hmissing (hreaches.covered 71 (by decide) (by omega))
  obtain ⟨⟨v, ack⟩, hmem, hsource, habove⟩ := hlate (by omega)
  obtain ⟨_, hruns, hcaught⟩ := hagain v ack hmem hsource habove
  obtain ⟨db', run'⟩ := hruns (exactly 3) operator hclock hmay rfl 1
  obtain ⟨hledger, hthrough, _⟩ := hcaught _ db' run' fun call hcall => by
    rw [List.eq_of_mem_replicate hcall]
    exact ⟨operator, _, rfl, rfl⟩
  refine ⟨hbehind, (v, ack), hmem, db', run', hledger, ?_⟩
  rw [hthrough, hbehind, hm]
  rfl

end Lets
