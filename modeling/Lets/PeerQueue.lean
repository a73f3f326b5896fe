import Lets.Deliveries
import Lets.OutgoingStreams

set_option autoImplicit false

/-!
# The queue of outgoing transfers

A transfer has three traces at its source: its row, its place in the stream, and the record that the
dispatcher delivers.
-/

namespace Lets

open Library

variable {d : ℕ} {Hash : Type}

namespace WardenService

/-- The delivery records of a warden against the streams they belong to. -/
structure Queued (db : Database d Hash) : Prop where
  transfer : ∀ target n row, db.outgoingTransfers.lookup (target, n) = some row →
    (db.outgoingStream target).compactedThrough < n → ∃ delivery,
      db.peerDeliveries.lookup (.transfer, row.voucher.transferId, target) = some delivery ∧
        delivery.streamPosition = n ∧ delivery.payload = .voucher row.voucher
  checkpoint : ∀ key delivery, db.peerDeliveries.lookup key = some delivery →
    key.1 = .checkpoint →
      delivery.streamPosition ≤ (db.outgoingStream key.2.2).compactedThrough

variable {svc : WardenService d Hash} {clock : Reading} {operation : Operation d}
  {db db' : Database d Hash} {out : Response d}

variable {key : RecordKind × String × String}

theorem DeliveryStep.content_eq {row row' : PeerDelivery d}
    (h : DeliveryStep clock operation key row row') :
    row'.streamPosition = row.streamPosition ∧ row'.payload = row.payload ∧
      row'.orderingKey = row.orderingKey ∧ row'.createdAtNs = row.createdAtNs := by
  cases h with
  | kept => exact ⟨rfl, rfl, rfl, rfl⟩
  | superseded => exact ⟨rfl, rfl, rfl, rfl⟩
  | attempted => exact ⟨rfl, rfl, rfl, rfl⟩

theorem SignedBy.queued {voucher : TransferVoucher d}
    (h : SignedBy svc clock db db' operation voucher) (hpeers : svc.allowedPeerWardens ≠ none) :
    db'.peerDeliveries.lookup (.transfer, voucher.transferId, voucher.targetWarden) =
      some (.queued voucher.targetWarden voucher.sequence (.voucher voucher) clock.nowNs) := by
  cases h with
  | remoteSpawned done =>
    have hdeliveries : db'.peerDeliveries = done.deliveries :=
      congrArg Database.peerDeliveries done.result
    rw [hdeliveries, done.deliveries_eq, Database.enqueued, done.voucher_eq]
    exact AList.lookup_insert _
  | prepared done =>
    have hdeliveries : db'.peerDeliveries = done.deliveries :=
      congrArg Database.peerDeliveries done.result
    have hqueues := done.queues
    rw [hdeliveries]
    generalize done.deliveries = deliveries at hqueues
    cases hqueues with
    | unconfigured none => exact absurd none hpeers
    | queued =>
      rw [Database.enqueued, done.voucher_eq]
      exact AList.lookup_insert _

variable {target : String}

theorem Queued.delivery_kept (h : Queued db) (heffect : Effect svc clock db operation db' out)
    {transferId : String} {delivery : PeerDelivery d}
    (hdelivery : db.peerDeliveries.lookup (.transfer, transferId, target) = some delivery)
    (habove : (db.outgoingStream target).compactedThrough < delivery.streamPosition) :
    ∃ delivery', db'.peerDeliveries.lookup (.transfer, transferId, target) = some delivery' ∧
      DeliveryStep clock operation (.transfer, transferId, target) delivery delivery' := by
  rcases heffect.delivery_step hdelivery with hfound | ⟨_, _, hremoved⟩
  · exact hfound
  · obtain ⟨_, key', checkpoint, hcheckpoint, hkind, htarget, _, hreaches⟩ := hremoved rfl
    have hcovered := h.checkpoint key' checkpoint hcheckpoint hkind
    rw [htarget] at hcovered
    change checkpoint.streamPosition ≤ (db.outgoingStream target).compactedThrough at hcovered
    omega

theorem Queued.transfer_step (h : Queued db) (hpeers : svc.allowedPeerWardens ≠ none)
    (heffect : Effect svc clock db operation db' out) {n : ℕ} {row' : OutgoingTransfer d}
    (hrow' : db'.outgoingTransfers.lookup (target, n) = some row')
    (habove : (db'.outgoingStream target).compactedThrough < n) : ∃ delivery,
      db'.peerDeliveries.lookup (.transfer, row'.voucher.transferId, target) = some delivery ∧
        delivery.streamPosition = n ∧ delivery.payload = .voucher row'.voucher := by
  cases hrow : db.outgoingTransfers.lookup (target, n) with
  | none =>
    obtain ⟨voucher, _, hsigned, hkey, rfl⟩ :=
      heffect.transfer_new (AList.lookup_eq_none.mp hrow) hrow'
    obtain ⟨rfl, rfl⟩ := Prod.mk.inj hkey
    exact ⟨_, hsigned.queued hpeers, rfl, rfl⟩
  | some row =>
    have hvoucher : row'.voucher = row.voucher := by
      have hstep := heffect.transfer_step hrow
      rw [hrow'] at hstep
      cases hstep with
      | kept => rfl
      | finalized => rfl
    have hbefore := (heffect.outgoingStream_step target).le.2.trans_lt habove
    obtain ⟨delivery, hdelivery, hposition, hpayload⟩ := h.transfer target n row hrow hbefore
    obtain ⟨delivery', hdelivery', hstep⟩ :=
      h.delivery_kept heffect hdelivery (hposition ▸ hbefore)
    rw [hvoucher]
    exact ⟨delivery', hdelivery', hstep.content_eq.1.trans hposition,
      hstep.content_eq.2.1.trans hpayload⟩

theorem CheckpointCreated.through_le {checkpoint : TransferCheckpoint}
    (done : CheckpointCreated svc clock target checkpoint db db')
    (hforward : done.stream.compactedThrough < done.through) :
    done.through ≤ (db'.outgoingStream target).compactedThrough := by
  have henvelope : db'.envelope = db.envelope := by rw [done.result]; rfl
  have hstreams : db'.outgoingStreams = done.streams :=
    congrArg Database.outgoingStreams done.result
  rcases done.checkpoints.streams_cases with ⟨_, heq⟩ | ⟨_, _, _, hinsert⟩
  · omega
  · rw [Database.outgoingStream_of_insert henvelope (hstreams.trans hinsert), if_pos rfl]

theorem Queued.checkpoint_step (h : Queued db) (heffect : Effect svc clock db operation db' out)
    {delivery' : PeerDelivery d} (hdelivery' : db'.peerDeliveries.lookup key = some delivery')
    (hkind : key.1 = .checkpoint) :
    delivery'.streamPosition ≤ (db'.outgoingStream key.2.2).compactedThrough := by
  cases hdelivery : db.peerDeliveries.lookup key with
  | some delivery =>
    have hcompacted := (heffect.outgoingStream_step key.2.2).le.2
    rcases heffect.delivery_step hdelivery with ⟨row, hrow, hstep⟩ | ⟨hnone, _⟩
    · obtain rfl := some_unique hrow hdelivery'
      rw [hstep.content_eq.1]
      exact (h.checkpoint key delivery hdelivery hkind).trans hcompacted
    · rw [hnone] at hdelivery'
      cases hdelivery'
  | none =>
    have hnew := heffect.delivery_new (AList.lookup_eq_none.mp hdelivery) hdelivery'
    cases hnew with
    | remoteSpawned _ key_eq =>
      rw [key_eq] at hkind
      cases hkind
    | prepared _ key_eq =>
      rw [key_eq] at hkind
      cases hkind
    | revoked _ _ kind_eq => cases kind_eq.symm.trans hkind
    | checkpointCreated done through_lt key_eq row_eq =>
      rw [key_eq, row_eq]
      exact done.through_le through_lt

theorem queued_of_reachable {envelope : Envelope d} (hpeers : svc.allowedPeerWardens ≠ none)
    (hreach : (svc.system envelope).Reachable db) : Queued db := by
  refine hreach.invariant ?_ fun s call t h step => ?_
  · rintro _ rfl
    exact ⟨fun _ _ _ hrow _ => (by cases hrow), fun _ _ hrow _ => (by cases hrow)⟩
  · rcases effect_cases step with ⟨out, _, heffect⟩ | ⟨_, rfl⟩
    · exact ⟨fun _ _ _ hrow habove => h.transfer_step hpeers heffect hrow habove,
        fun _ _ hrow hkind => h.checkpoint_step heffect hrow hkind⟩
    · exact h

end WardenService

/-- An operation that signs no voucher, moves no stream and notes no failed delivery. -/
def Operation.Quiet : Operation d → Bool
  | .spawnRemote .. | .prepareTransfer .. | .finalizeTransfer .. | .createTransferCheckpoint .. =>
    false
  | .recordAttempt _ _ _ error => error.isNone
  | _ => true

def Operation.prunesHistory : Operation d → Bool
  | .pruneCompactedTransferHistory batchSize => 0 < batchSize
  | _ => false

namespace Database

def compacted (db : Database d Hash) (key : String × ℕ) : Bool :=
  (db.outgoingStreams.lookup key.1).any fun stream => key.2 ≤ stream.compactedThrough

def compactedTransfers (db : Database d Hash) : Table (String × ℕ) (OutgoingTransfer d) :=
  db.outgoingTransfers.filterRows fun key _ => db.compacted key

/-- Every transfer between the compaction of its stream and the watermark is delivered. -/
def Delivered (db : Database d Hash) (target : String) : Prop :=
  ∀ n row, db.outgoingTransfers.lookup (target, n) = some row →
    (db.outgoingStream target).compactedThrough < n → n ≤ (db.outgoingStream target).ackedThrough →
      ∃ delivery, db.peerDeliveries.lookup (.transfer, row.voucher.transferId, target) =
        some delivery ∧ delivery.deliveredAtNs.isSome = true

theorem delivered_iff {db : Database d Hash} {target : String} :
    db.Delivered target ↔ db.outgoingTransfers.anyRow (fun key row => key.1 = target ∧
      (db.outgoingStream target).compactedThrough < key.2 ∧
      key.2 ≤ (db.outgoingStream target).ackedThrough ∧
      ¬(db.peerDeliveries.lookup (.transfer, row.voucher.transferId, target)).any
        fun delivery => delivery.deliveredAtNs.isSome) = false := by
  simp only [Delivered, Table.anyRow_eq_false_iff, decide_eq_false_iff_not, not_and, Prod.forall,
    not_not, Option.any_eq_true]
  constructor
  · intro h target' n row hrow htarget
    subst htarget
    exact h n row hrow
  · exact fun h n row hrow => h target n row hrow rfl

instance (db : Database d Hash) (target : String) : Decidable (db.Delivered target) :=
  decidable_of_iff _ delivered_iff.symm

end Database

namespace WardenService

variable {svc : WardenService d Hash} {clock : Reading} {operation : Operation d}
  {db db' : Database d Hash} {out : Response d}

section

variable (h : Effect svc clock db operation db' out)

include h

variable (hquiet : operation.Quiet = true)

include hquiet

theorem Effect.outgoing_of_quiet : db'.outgoingStreams = db.outgoingStreams ∧
      (db'.outgoingTransfers = db.outgoingTransfers ∨ ∃ keep : String × ℕ → Bool,
        db'.outgoingTransfers = db.outgoingTransfers.filterRows fun key _ => keep key) := by
  rcases h.outgoing_cases with ⟨htransfers, hstreams⟩ | ⟨voucher, _, hsigned⟩ |
    ⟨identity, ack, rfl, _⟩ | ⟨identity, target, through, checkpoint, rfl, _⟩ |
    ⟨keep, _, hpruned, hstreams⟩
  · exact ⟨hstreams, .inl htransfers⟩
  · cases hsigned with
    | remoteSpawned => cases hquiet
    | prepared => cases hquiet
  · cases hquiet
  · cases hquiet
  · exact ⟨hstreams, .inr ⟨keep, hpruned⟩⟩

theorem Effect.lookup_of_quiet {key : String × ℕ} {row : OutgoingTransfer d}
    (hrow : db'.outgoingTransfers.lookup key = some row) :
    db.outgoingTransfers.lookup key = some row := by
  rcases (h.outgoing_of_quiet hquiet).2 with hsame | ⟨keep, hpruned⟩
  · rwa [hsame] at hrow
  · rw [hpruned, Table.lookup_filterRows, Option.filter_eq_some_iff] at hrow
    exact hrow.1

theorem Effect.compactedTransfers_le :
    db'.compactedTransfers.entries.length ≤ db.compactedTransfers.entries.length := by
  obtain ⟨hstreams, htransfers⟩ := h.outgoing_of_quiet hquiet
  unfold Database.compactedTransfers Database.compacted
  rw [hstreams]
  rcases htransfers with hsame | ⟨keep, hpruned⟩
  · rw [hsame]
  · rw [hpruned]
    exact Table.length_filterRows_le _ _ _

end

theorem DeliveryStep.delivered {key : RecordKind × String × String} {row row' : PeerDelivery d}
    (h : DeliveryStep clock operation key row row') (hquiet : operation.Quiet = true)
    (hdelivered : row.deliveredAtNs.isSome = true) : row'.deliveredAtNs.isSome = true := by
  cases h with
  | kept => exact hdelivered
  | superseded => exact hdelivered
  | @attempted error operation_eq =>
    subst operation_eq
    obtain rfl : error = none := Option.isNone_iff_eq_none.mp hquiet
    rfl

variable {target : String}

theorem Effect.delivered_step (h : Effect svc clock db operation db' out)
    (hquiet : operation.Quiet = true) (hqueued : Queued db) (hdelivered : db.Delivered target) :
    db'.Delivered target := by
  intro n row hrow habove hacked
  have henvelope : db'.envelope = db.envelope := congrArg (fun x => x.2.2) h.fixed_eq
  rw [Database.outgoingStream_of_same henvelope (h.outgoing_of_quiet hquiet).1] at habove hacked
  have hrow₀ := h.lookup_of_quiet hquiet hrow
  obtain ⟨delivery, hlookup, hsome⟩ := hdelivered n row hrow₀ habove hacked
  obtain ⟨delivery', hlookup', hposition, _⟩ := hqueued.transfer target n row hrow₀ habove
  obtain rfl := some_unique hlookup hlookup'
  obtain ⟨after, hafter, hstep⟩ := hqueued.delivery_kept h hlookup (hposition ▸ habove)
  exact ⟨after, hafter, hstep.delivered hquiet hsome⟩

theorem compactedTransfers_lt {batchSize : ℕ} (hpos : 0 < batchSize)
    (h : pruneCompactedTransferHistory batchSize db = .ok (db', out))
    (hne : 0 < db.compactedTransfers.entries.length) :
    db'.compactedTransfers.entries.length < db.compactedTransfers.entries.length := by
  obtain ⟨h, _⟩ := writeTransaction_ok h
  obtain ⟨rfl, rfl⟩ := Prod.mk.inj (Except.ok.inj h)
  obtain ⟨⟨key, row⟩, hmem⟩ := List.exists_mem_of_length_pos hne
  have hrow := Table.lookup_eq_some_iff.mpr hmem
  rw [Database.compactedTransfers, Table.lookup_filterRows, Option.filter_eq_some_iff] at hrow
  obtain ⟨b, hb⟩ := Table.exists_mem_batch (g := fun key _ => toLex key)
    (p := fun key _ => db.compacted key) hpos hrow.1 hrow.2
  obtain ⟨key', row', hrow', hcovered, rfl⟩ := Table.exists_of_mem_batch hb
  refine Table.length_filterRows_lt (p := fun key _ => db.compacted key) hrow' hcovered ?_
  exact decide_eq_false fun hnot => hnot hb

theorem exec_pruneHistory (svc : WardenService d Hash) (clock : Reading) (batchSize : ℕ)
    (hconserved : db.Conserved) : ∃ db',
      svc.exec clock (.pruneCompactedTransferHistory batchSize) db = .ok (db', .done) := by
  apply Exists.intro
  unfold exec pruneCompactedTransferHistory
  exact writeTransaction_of rfl (Database.conserved_of_ledger (rfl : _ = db.ledger) hconserved)

theorem reply_of_prunesHistory {envelope : Envelope d} {call : Call d}
    (step : (svc.system envelope).Step db call db') (hconserved : db.Conserved)
    (hprunes : call.operation.prunesHistory = true) : call.reply = .ok .done := by
  cases hoperation : call.operation with
  | pruneCompactedTransferHistory batchSize =>
    obtain ⟨after, hexec⟩ := exec_pruneHistory svc call.clock batchSize hconserved
    have hserve := serve_ok_iff.mpr hexec
    rw [← hoperation] at hserve
    exact congrArg Prod.snd (step.symm.trans hserve)
  | _ =>
    rw [hoperation] at hprunes
    cases hprunes

theorem quiet_run {envelope : Envelope d} (hpeers : svc.allowedPeerWardens ≠ none)
    (hreach : (svc.system envelope).Reachable db) {calls : List (Call d)}
    (run : (svc.system envelope).Run db calls db')
    (hquiet : ∀ call ∈ calls, call.operation.Quiet = true) (hdelivered : db.Delivered target) :
    db'.Delivered target ∧
      db'.compactedTransfers.entries.length ≤ db.compactedTransfers.entries.length -
        calls.countP fun call => call.operation.prunesHistory := by
  induction run with
  | nil => exact ⟨hdelivered, le_rfl⟩
  | @snoc s t calls call run step ih =>
    obtain ⟨hdelivered', hlength⟩ := ih fun c hc => hquiet c (List.mem_append_left _ hc)
    have hcall := hquiet call List.mem_concat_self
    have hreach' := hreach.run run
    rw [List.countP_append, List.countP_singleton]
    rcases step_cases step with ⟨out, _, hexec⟩ | ⟨⟨e, hreply⟩, rfl⟩
    · have heffect := (exec_ok hexec).2.2
      refine ⟨heffect.delivered_step hcall (queued_of_reachable hpeers hreach') hdelivered', ?_⟩
      have hle := heffect.compactedTransfers_le hcall
      split_ifs with hprunes
      · cases hoperation : call.operation with
        | pruneCompactedTransferHistory batchSize =>
          rw [hoperation] at hexec hprunes
          have hlt := compactedTransfers_lt (of_decide_eq_true hprunes) hexec
          omega
        | _ =>
          rw [hoperation] at hprunes
          cases hprunes
      · omega
    · refine ⟨hdelivered', ?_⟩
      split_ifs with hprunes
      · obtain ⟨db₀, history, hinit, hrun⟩ := hreach'
        have hok := reply_of_prunesHistory step (accounts_of_run hinit hrun).conserved hprunes
        rw [hreply] at hok
        cases hok
      · omega

/-! ### The refusal -/

/-- What `create_transfer_checkpoint` reports when a transfer that the checkpoint would cover is not
delivered. -/
def unconfirmedDelivery : LetsError :=
  .conflict "checkpoint prefix still contains an unconfirmed peer delivery"

theorem requireSigningKeyCurrent_ne :
    svc.requireSigningKeyCurrent clock ≠ .error unconfirmedDelivery := by
  unfold requireSigningKeyCurrent
  split
  · exact pure_ne_error _ _
  · exact bind_ne_error (require_ne_error (by rintro ⟨⟩)) fun _ _ =>
      bind_ne_error (require_ne_error (by rintro ⟨⟩)) fun _ _ => require_ne_error (by rintro ⟨⟩)

theorem clockIsSafe_ne : db.clockIsSafe clock ≠ .error unconfirmedDelivery := by
  unfold Database.clockIsSafe
  refine bind_ne_error (require_ne_error (by rintro ⟨⟩)) fun _ _ => ?_
  refine bind_ne_error (require_ne_error (by rintro ⟨⟩)) fun _ _ => ?_
  refine bind_ne_error (require_ne_error (by rintro ⟨⟩)) fun _ _ => ?_
  refine bind_ne_error (require_ne_error (by rintro ⟨⟩)) fun _ _ => ?_
  exact bind_ne_error (require_ne_error (by rintro ⟨⟩)) fun _ _ => pure_ne_error _ _

theorem assertLocalConservation_ne :
    db.assertLocalConservation ≠ .error unconfirmedDelivery := by
  have haddOr (v w : ResourceVector d) (message : String) :
      v.addOr (.invariant message) w ≠ .error unconfirmedDelivery := by
    unfold ResourceVector.addOr
    cases v.add w with
    | ok sum => rintro ⟨⟩
    | error e => rintro ⟨⟩
  unfold Database.assertLocalConservation
  refine bind_ne_error (haddOr _ _ _) fun _ _ => ?_
  refine bind_ne_error (haddOr _ _ _) fun _ _ => ?_
  refine bind_ne_error (haddOr _ _ _) fun _ _ => ?_
  exact bind_ne_error (haddOr _ _ _) fun _ _ => require_ne_error (by rintro ⟨⟩)

theorem queueRecord_ne {recordKind : RecordKind} {recordId : String} {streamPosition : ℕ}
    {payload : SignedRecord d} {nowNs : ℕ} {supersedeOlder : Bool} :
    svc.queueRecord recordKind recordId target streamPosition payload nowNs supersedeOlder db ≠
      .error unconfirmedDelivery := by
  unfold queueRecord
  split_ifs
  · exact pure_ne_error _ _
  · exact bind_ne_error (require_ne_error (by rintro ⟨⟩)) fun _ _ => pure_ne_error _ _

theorem createTransferCheckpoint_ne {identity : IdentityContext} {throughSequence : Option ℕ}
    (h : ∀ stream n row, db.outgoingStreams.lookup target = some stream →
      db.outgoingTransfers.lookup (target, n) = some row → n ≤ stream.ackedThrough →
        ∃ delivery, db.peerDeliveries.lookup (.transfer, row.voucher.transferId, target) =
          some delivery ∧ delivery.deliveredAtNs.isSome = true) :
    svc.createTransferCheckpoint clock identity target throughSequence db ≠
      .error unconfirmedDelivery := by
  unfold createTransferCheckpoint
  refine bind_ne_error (require_ne_error (by rintro ⟨⟩)) fun _ _ => ?_
  refine bind_ne_error (require_ne_error (by rintro ⟨⟩)) fun _ _ => ?_
  refine bind_ne_error ?_ fun _ _ =>
    bind_ne_error assertLocalConservation_ne fun _ _ => pure_ne_error _ _
  refine bind_ne_error clockIsSafe_ne fun db₁ hclock => ?_
  refine bind_ne_error (require_ne_error (by rintro ⟨⟩)) fun _ _ => ?_
  refine bind_ne_error (orError_ne_error (by rintro ⟨⟩)) fun stream hstream => ?_
  refine bind_ne_error (require_ne_error (by decide)) fun _ _ => ?_
  refine bind_ne_error (require_ne_error (by decide)) fun _ hreached => ?_
  split_ifs
  · exact bind_ne_error (orError_ne_error (by rintro ⟨⟩)) fun _ _ => pure_ne_error _ _
  · refine bind_ne_error (require_ne_error (by decide)) fun _ _ => ?_
    refine bind_ne_error (require_ne_error (by decide)) fun _ _ => ?_
    have hconfirmed : svc.allowedPeerWardens = none ∨ db₁.outgoingTransfers.anyRow
        (fun key row => key.1 = target ∧ key.2 ≤ throughSequence.getD stream.ackedThrough ∧
          ¬(db₁.peerDeliveries.lookup (.transfer, row.voucher.transferId, target)).any
            fun delivery => delivery.deliveredAtNs.isSome) = false := by
      obtain ⟨_, rfl⟩ := Database.clockIsSafe_ok_iff.mp hclock
      refine .inr (Table.anyRow_eq_false_iff.mpr fun key row hrow => decide_eq_false ?_)
      rintro ⟨rfl, hle, hunconfirmed⟩
      have hacked := hle.trans (require_ok_iff.mp hreached)
      exact hunconfirmed ((Option.any_eq_true _ _).mpr
        (h stream key.2 row (orError_ok_iff.mp hstream) hrow hacked))
    rw [require_of _ hconfirmed, ok_bind]
    refine bind_ne_error ?_ fun _ _ => ?_
    · exact bind_ne_error requireSigningKeyCurrent_ne fun _ _ => pure_ne_error _ _
    refine bind_ne_error ?_ fun _ _ => ?_
    · exact bind_ne_error (require_ne_error (by rintro ⟨⟩)) fun _ _ => pure_ne_error _ _
    refine bind_ne_error queueRecord_ne fun _ _ => ?_
    refine bind_ne_error ?_ fun _ _ => pure_ne_error _ _
    exact bind_ne_error requireSigningKeyCurrent_ne fun _ _ => pure_ne_error _ _

end WardenService

/-- In every reachable state an outgoing transfer above the compaction of its stream has its
delivery record; and where every transfer up to the watermark is delivered, enough history passes
lead to a state in which no checkpoint is refused for an unconfirmed one. -/
theorem outgoing_delivery_retained {svc : WardenService d Hash} {envelope : Envelope d}
    {db : Database d Hash} (hpeers : svc.allowedPeerWardens ≠ none)
    (hreach : (svc.system envelope).Reachable db) :
    (∀ target n row, db.outgoingTransfers.lookup (target, n) = some row →
      (db.outgoingStream target).compactedThrough < n → ∃ delivery,
        db.peerDeliveries.lookup (.transfer, row.voucher.transferId, target) = some delivery ∧
          delivery.streamPosition = n ∧ delivery.payload = .voucher row.voucher) ∧
    ∀ target, db.Delivered target → ∀ calls db', (svc.system envelope).Run db calls db' →
      (∀ call ∈ calls, call.operation.Quiet = true) →
      db.outgoingTransfers.entries.length ≤
        (calls.countP fun call => call.operation.prunesHistory) →
      ∀ clock identity throughSequence,
        svc.createTransferCheckpoint clock identity target throughSequence db' ≠
          .error WardenService.unconfirmedDelivery := by
  refine ⟨(WardenService.queued_of_reachable hpeers hreach).transfer, ?_⟩
  intro target hdelivered calls db' run hquiet hpasses clock identity throughSequence
  obtain ⟨hdelivered', hlength⟩ := WardenService.quiet_run hpeers hreach run hquiet hdelivered
  refine WardenService.createTransferCheckpoint_ne fun stream n row hstream hrow hacked => ?_
  have hrows : db.compactedTransfers.entries.length ≤ db.outgoingTransfers.entries.length :=
    List.length_filter_le _ _
  have hnone : db'.compactedTransfers.entries = [] := List.length_eq_zero_iff.mp (by omega)
  rw [← Database.outgoingStream_of_lookup hstream] at hacked
  rcases Nat.lt_or_ge (db'.outgoingStream target).compactedThrough n with habove | hcovered
  · exact hdelivered' n row hrow habove hacked
  · -- every row that the compaction covers is gone
    rw [Database.outgoingStream_of_lookup hstream] at hcovered
    have hcompacted : db'.compacted (target, n) = true :=
      (Option.any_eq_true _ _).mpr ⟨stream, hstream, decide_eq_true hcovered⟩
    have hmem := Table.lookup_eq_some_iff.mp hrow
    have hmem' : (⟨(target, n), row⟩ : (_ : String × ℕ) × OutgoingTransfer d) ∈
        db'.compactedTransfers.entries := List.mem_filter.mpr ⟨hmem, hcompacted⟩
    rw [hnone] at hmem'
    cases hmem'

open Sample

/-- After a first checkpoint, a second transfer is acknowledged and delivered, and a third waits. -/
def Sample.queueing : Database 1 ℕ :=
  ((service "a").play finalizing.1
    [(exactly 6, .prepareTransfer "x2"
        ⟨"r2", operator, "tenant", "envelope", "b", units 1, none⟩),
      (exactly 7, .prepareTransfer "x3"
        ⟨"r3", operator, "tenant", "envelope", "b", units 1, none⟩),
      (exactly 8, .finalizeTransfer operator
        { ack with transferId := "x2", sequence := 2, voucherDigest := "x2" }),
      (exactly 9, .recordAttempt .transfer "x2" "b" none)]).1

def Sample.historyPasses : List (Reading × Operation 1) :=
  [(exactly 10, .pruneCompactedTransferHistory 1), (exactly 10, .pruneTerminal 1),
    (exactly 10, .pruneCompactedTransferHistory 1)]

theorem outgoing_delivery_retained_queueing :
    (∃ delivery, queueing.peerDeliveries.lookup (.transfer, "x3", "b") = some delivery) ∧
      ∀ clock identity throughSequence,
        (service "a").createTransferCheckpoint clock identity "b" throughSequence
          ((service "a").play queueing historyPasses).1 ≠
            .error WardenService.unconfirmedDelivery := by
  have hreach : ((service "a").system (envelope 6)).Reachable queueing :=
    ((service "a").play_reachable (envelope 6) _).run
      ((service "a").play_run (envelope 6) _ _)
  have hfacts : queueing.Delivered "b" ∧
      (queueing.outgoingStream "b").compactedThrough < 3 ∧
      ((queueing.outgoingTransfers.lookup ("b", 3)).map fun row => row.voucher.transferId) =
        some "x3" ∧
      queueing.outgoingTransfers.entries.length ≤ 2 := by
    decide +kernel
  obtain ⟨hdelivered, hcompacted, hid, hrows⟩ := hfacts
  obtain ⟨hretained, hends⟩ := outgoing_delivery_retained (Option.some_ne_none _) hreach
  obtain ⟨row, hrow, hid⟩ := Option.map_eq_some_iff.mp hid
  obtain ⟨delivery, hdelivery, _⟩ := hretained "b" 3 row hrow hcompacted
  rw [hid] at hdelivery
  refine ⟨⟨delivery, hdelivery⟩, hends "b" hdelivered _ _
    ((service "a").play_run (envelope 6) _ _) ?_ hrows⟩
  decide

end Lets
