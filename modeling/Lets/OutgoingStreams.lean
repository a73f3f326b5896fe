import Lets.Sample
import Lets.Vouchers

set_option autoImplicit false

/-!
# Outgoing streams

A source keeps a row for every voucher it has signed, makes it final when the target's
acknowledgement arrives, moves the watermark of the stream over final rows, a batch at a time, and
deletes rows that a checkpoint of the stream covers.
-/

namespace Lets

open Library

variable {d : ℕ} {Hash : Type}

def Call.finalization? (call : Call d) : Option TransferAck :=
  match call.operation, call.reply with
  | .finalizeTransfer _ ack, .ok _ => some ack
  | _, _ => none

def finalizations (calls : List (Call d)) : List TransferAck :=
  calls.filterMap Call.finalization?

theorem finalizations_concat_error {calls : List (Call d)} {call : Call d} {e : LetsError}
    (h : call.reply = .error e) : finalizations (calls ++ [call]) = finalizations calls := by
  have hnone : call.finalization? = none := by
    unfold Call.finalization?
    rw [h]
    split <;> simp_all
  rw [finalizations, filterMap_concat, hnone]
  exact List.append_nil _

theorem mem_finalizations_of_call {calls : List (Call d)} {call : Call d} {out : Response d}
    {identity : IdentityContext} {ack : TransferAck}
    (hoperation : call.operation = .finalizeTransfer identity ack) (hreply : call.reply = .ok out) :
    ack ∈ finalizations (calls ++ [call]) := by
  have hsome : call.finalization? = some ack := by
    unfold Call.finalization?
    rw [hoperation, hreply]
  rw [finalizations, filterMap_concat, hsome]
  exact List.mem_concat_self

theorem call_of_mem_finalizations {calls : List (Call d)} {ack : TransferAck}
    (h : ack ∈ finalizations calls) :
    ∃ call ∈ calls, ∃ identity, call.operation = .finalizeTransfer identity ack := by
  obtain ⟨call, hcall, hack⟩ := List.mem_filterMap.mp h
  unfold Call.finalization? at hack
  split at hack
  · rename_i identity _ _ hoperation _
    obtain rfl := Option.some.inj hack
    exact ⟨call, hcall, identity, hoperation⟩
  · cases hack

theorem mem_finalizations_concat {calls : List (Call d)} {call : Call d} {ack : TransferAck}
    (h : ack ∈ finalizations (calls ++ [call])) :
    ack ∈ finalizations calls ∨ ∃ identity, call.operation = .finalizeTransfer identity ack := by
  rw [finalizations, List.filterMap_append, List.mem_append] at h
  refine h.imp id fun h => ?_
  obtain ⟨c, hc, hoperation⟩ := call_of_mem_finalizations h
  rw [List.mem_singleton] at hc
  rwa [hc] at hoperation

theorem mem_finalizations_of_mem {calls : List (Call d)} {ack : TransferAck} (call : Call d)
    (h : ack ∈ finalizations calls) : ack ∈ finalizations (calls ++ [call]) := by
  rw [finalizations, List.filterMap_append]
  exact List.mem_append_left _ h

namespace Database

variable {db db' : Database d Hash}

theorem outgoingStream_of_lookup {target : String} {stream : OutgoingStream}
    (h : db.outgoingStreams.lookup target = some stream) : db.outgoingStream target = stream := by
  rw [outgoingStream, h]
  rfl

theorem outgoingStream_of_insert (henvelope : db'.envelope = db.envelope) {target : String}
    {stream : OutgoingStream} (h : db'.outgoingStreams = db.outgoingStreams.insert target stream)
    (other : String) :
    db'.outgoingStream other = if other = target then stream else db.outgoingStream other := by
  rw [outgoingStream, h, Table.lookup_insert_eq, henvelope]
  split_ifs <;> rfl

theorem outgoingStream_of_same (henvelope : db'.envelope = db.envelope)
    (h : db'.outgoingStreams = db.outgoingStreams) (target : String) :
    db'.outgoingStream target = db.outgoingStream target := by
  rw [outgoingStream, h, henvelope]
  rfl

theorem final_of_le_advance {target : String} {watermark n : ℕ} (hlt : watermark < n)
    (hle : n ≤ db.advanceOutgoingFinalizedPrefix target watermark) :
    ∃ row, db.outgoingTransfers.lookup (target, n) = some row ∧ row.status.isFinal = true := by
  obtain ⟨⟨m, final⟩, hmem, rfl⟩ := List.mem_map.mp (mem_of_le_advancePrefix hlt hle)
  have hfinal : final = true := List.mem_takeWhile_imp hmem
  obtain ⟨m', _, heq⟩ := List.mem_map.mp ((List.takeWhile_sublist _).subset hmem)
  obtain ⟨rfl, rfl⟩ := Prod.mk.inj heq
  exact (Option.any_eq_true _ _).mp hfinal

theorem le_advanceOutgoingFinalizedPrefix (target : String) (watermark : ℕ) :
    watermark ≤ db.advanceOutgoingFinalizedPrefix target watermark :=
  le_advancePrefix _ _

end Database

namespace WardenService

inductive TransferStep (svc : WardenService d Hash) (clock : Reading) (operation : Operation d)
    (db db' : Database d Hash) (key : String × ℕ) (row : OutgoingTransfer d) :
    Option (OutgoingTransfer d) → Prop
  | kept : TransferStep svc clock operation db db' key row (some row)
  | finalized {identity : IdentityContext} {ack : TransferAck}
      (operation_eq : operation = .finalizeTransfer identity ack)
      (done : Finalized svc clock ack db db') (outgoing_eq : done.outgoing = row)
      (key_eq : key = (ack.targetWarden, ack.sequence)) (prepared : row.status = .prepared) :
      TransferStep svc clock operation db db' key row (some (row.finalized ack clock.nowNs))
  | removed (covered : key.2 ≤ (db'.outgoingStream key.1).compactedThrough) :
      TransferStep svc clock operation db db' key row none

inductive OutgoingStreamStep (svc : WardenService d Hash) (clock : Reading)
    (operation : Operation d) (db db' : Database d Hash) (target : String)
    (stream : OutgoingStream) : OutgoingStream → Prop
  | kept : OutgoingStreamStep svc clock operation db db' target stream stream
  | extended {voucher : TransferVoucher d} (signed : SignedBy svc clock db db' operation voucher)
      (target_eq : voucher.targetWarden = target) :
      OutgoingStreamStep svc clock operation db db' target stream
        { stream with nextSequence := stream.nextSequence + 1 }
  | advanced {watermark : ℕ} (le : stream.ackedThrough ≤ watermark)
      (final : ∀ n, stream.ackedThrough < n → n ≤ watermark → ∃ row,
        db'.outgoingTransfers.lookup (target, n) = some row ∧ row.status.isFinal = true)
      (ok : Database.OutgoingStreamOk { stream with ackedThrough := watermark }) :
      OutgoingStreamStep svc clock operation db db' target stream
        { stream with ackedThrough := watermark }
  | compacted {identity : IdentityContext} {throughSequence : Option ℕ}
      {checkpoint : TransferCheckpoint} {through : ℕ}
      (operation_eq : operation = .createTransferCheckpoint identity target throughSequence)
      (forward : stream.compactedThrough < through)
      (compactable : Compactable svc target through db)
      (ok : Database.OutgoingStreamOk
        { stream with compactedThrough := through, checkpointPayload := some checkpoint }) :
      OutgoingStreamStep svc clock operation db db' target stream
        { stream with compactedThrough := through, checkpointPayload := some checkpoint }

variable {svc : WardenService d Hash} {clock : Reading} {operation : Operation d}
  {db db' : Database d Hash} {out : Response d}

theorem SignedBy.outgoing {voucher : TransferVoucher d}
    (h : SignedBy svc clock db db' operation voucher) :
    voucher.sequence = (db.outgoingStream voucher.targetWarden).nextSequence ∧
    (voucher.targetWarden, voucher.sequence) ∉ db.outgoingTransfers ∧
    db'.outgoingTransfers = db.outgoingTransfers.insert (voucher.targetWarden, voucher.sequence)
      (.prepared voucher (svc.recordDigest (.voucher voucher)) clock.nowNs) ∧
    db'.outgoingStreams = db.outgoingStreams.insert voucher.targetWarden
      { db.outgoingStream voucher.targetWarden with
        nextSequence := (db.outgoingStream voucher.targetWarden).nextSequence + 1 } := by
  cases h with
  | remoteSpawned done | prepared done =>
    have htarget := congrArg TransferVoucher.targetWarden done.voucher_eq
    have hsequence := congrArg TransferVoucher.sequence done.voucher_eq
    rw [htarget, hsequence]
    exact ⟨rfl, done.sequence_new, congrArg Database.outgoingTransfers done.result,
      congrArg Database.outgoingStreams done.result⟩

theorem Effect.outgoing_cases (h : Effect svc clock db operation db' out) :
    (db'.outgoingTransfers = db.outgoingTransfers ∧ db'.outgoingStreams = db.outgoingStreams) ∨
      (∃ voucher, out = .voucher voucher ∧ SignedBy svc clock db db' operation voucher) ∨
      (∃ identity ack, operation = .finalizeTransfer identity ack ∧
        Nonempty (Finalized svc clock ack db db')) ∨
      (∃ identity target throughSequence checkpoint,
        operation = .createTransferCheckpoint identity target throughSequence ∧
        Nonempty (CheckpointCreated svc clock target checkpoint db db')) ∨
      ∃ keep : String × ℕ → Bool,
        (∀ key, keep key = false → ∃ stream, db.outgoingStreams.lookup key.1 = some stream ∧
          key.2 ≤ stream.compactedThrough) ∧
        db'.outgoingTransfers = db.outgoingTransfers.filterRows (fun key _ => keep key) ∧
        db'.outgoingStreams = db.outgoingStreams := by
  cases h with
  | remoteSpawned done => exact .inr (.inl ⟨_, done.out_eq, .remoteSpawned done⟩)
  | prepared done => exact .inr (.inl ⟨_, done.out_eq, .prepared done⟩)
  | finalized _ done => exact .inr (.inr (.inl ⟨_, _, rfl, ⟨done⟩⟩))
  | checkpointCreated _ done => exact .inr (.inr (.inr (.inl ⟨_, _, _, _, rfl, ⟨done⟩⟩)))
  | prunedHistory _ _ result covered =>
    rw [result]
    exact .inr (.inr (.inr (.inr ⟨_, covered, rfl, rfl⟩)))
  | replayed _ _ _ _ result | runtimeSet _ _ result | policyRegistered _ _ result
  | attempted _ result | prunedTerminal _ result => rw [result]; exact .inl ⟨rfl, rfl⟩
  | rootIssued done | spawned done | authorized done | renewed done | unmoved done
  | switched done | closed done => rw [done.result]; exact .inl ⟨rfl, rfl⟩
  | redelivered _ done | credited _ done | reclaimed _ done | checkpointIngested _ done =>
    rw [done.result]; exact .inl ⟨rfl, rfl⟩
  | revokedAgain _ _ _ _ done | revocationKnown _ _ _ done | revocationStored _ _ done =>
    rw [done.result, done.materialized.result]; exact .inl ⟨rfl, rfl⟩
  | branchRevoked _ _ _ done result =>
    rw [result, done.result, done.materialized.result]; exact .inl ⟨rfl, rfl⟩

section Finalizes

variable {ack : TransferAck} {nowNs : ℕ} {outgoing : OutgoingTransfer d} {stream : OutgoingStream}
  {children : Table String (RemoteChild d)} {transfers : Table (String × ℕ) (OutgoingTransfer d)}
  {streams : Table String OutgoingStream}

variable (h : Finalizes ack nowNs db outgoing stream children transfers streams)

include h

theorem Finalizes.transfers_cases :
    (transfers = db.outgoingTransfers ∧ outgoing.status.isFinal = true ∧
        outgoing.ackPayload = some ack) ∨
      outgoing.status = .prepared ∧ transfers = db.outgoingTransfers.update
        (ack.targetWarden, ack.sequence) (OutgoingTransfer.finalized ack nowNs) := by
  cases h with
  | again final ack_eq | advanced final ack_eq => exact .inl ⟨rfl, final, ack_eq⟩
  | first prepared _ transfers_eq => exact .inr ⟨prepared, transfers_eq⟩

theorem Finalizes.streams_cases :
    streams = db.outgoingStreams ∨ ∃ watermark, stream.ackedThrough ≤ watermark ∧
      (∀ n, stream.ackedThrough < n → n ≤ watermark → ∃ row,
        transfers.lookup (ack.targetWarden, n) = some row ∧ row.status.isFinal = true) ∧
      Database.OutgoingStreamOk { stream with ackedThrough := watermark } ∧
      streams = db.outgoingStreams.insert ack.targetWarden
        { stream with ackedThrough := watermark } := by
  cases h with
  | again => exact .inl rfl
  | advanced _ _ watermark_eq ok | first _ _ _ watermark_eq ok =>
    refine .inr ⟨_, ?_, fun n hlt hle => ?_, ok, rfl⟩
    · rw [watermark_eq]
      exact Database.le_advanceOutgoingFinalizedPrefix _ _
    · rw [watermark_eq] at hle
      exact Database.final_of_le_advance hlt hle

end Finalizes

theorem Checkpoints.streams_cases {target : String} {through : ℕ} {stream : OutgoingStream}
    {checkpoint : TransferCheckpoint} {streams : Table String OutgoingStream}
    {deliveries : PeerDeliveries d}
    (h : Checkpoints svc clock target through db stream checkpoint streams deliveries) :
    (streams = db.outgoingStreams ∧ through = stream.compactedThrough) ∨
      (stream.compactedThrough < through ∧ Compactable svc target through db ∧
        Database.OutgoingStreamOk
          { stream with compactedThrough := through, checkpointPayload := some checkpoint } ∧
        streams = db.outgoingStreams.insert target
          { stream with compactedThrough := through, checkpointPayload := some checkpoint }) := by
  cases h with
  | again through_eq => exact .inl ⟨rfl, through_eq⟩
  | new forward compactable _ ok => exact .inr ⟨forward, compactable, ok, rfl⟩

theorem lookup_pruneOutgoingTransferPrefix (target : String) (through : ℕ) {key : String × ℕ}
    {row : OutgoingTransfer d} (hrow : db.outgoingTransfers.lookup key = some row) :
    (db.pruneOutgoingTransferPrefix target through).outgoingTransfers.lookup key = some row ∨
      (db.pruneOutgoingTransferPrefix target through).outgoingTransfers.lookup key = none ∧
        key.1 = target ∧ key.2 ≤ through := by
  rw [Database.pruneOutgoingTransferPrefix, Table.lookup_filterRows, hrow, Option.filter_some]
  split_ifs with hkeep
  · exact .inl rfl
  · simp only [decide_not, Bool.not_eq_true', Bool.not_eq_false, decide_eq_true_eq] at hkeep
    obtain ⟨htarget, hmem⟩ := hkeep
    obtain ⟨key', _, _, hp, heq⟩ := Table.exists_of_mem_batch hmem
    refine .inr ⟨rfl, htarget, ?_⟩
    rw [← heq]
    exact (of_decide_eq_true hp).2

section

variable (h : Effect svc clock db operation db' out)

include h

theorem Effect.transfer_step {key : String × ℕ} {row : OutgoingTransfer d}
    (hrow : db.outgoingTransfers.lookup key = some row) :
    TransferStep svc clock operation db db' key row (db'.outgoingTransfers.lookup key) := by
  have henvelope : db'.envelope = db.envelope := congrArg (fun x => x.2.2) h.fixed_eq
  rcases h.outgoing_cases with ⟨hsame, _⟩ | ⟨voucher, _, hsigned⟩ |
    ⟨identity, ack, hoperation, ⟨done⟩⟩ | ⟨identity, target, through, checkpoint, _, ⟨done⟩⟩ |
    ⟨keep, hcovered, hpruned, hstreams⟩
  · rw [hsame, hrow]
    exact .kept
  · obtain ⟨_, hnew, hinsert, _⟩ := hsigned.outgoing
    rw [hinsert, Table.lookup_insert_of_new hnew hrow]
    exact .kept
  · have htransfers : db'.outgoingTransfers = done.transfers :=
      congrArg Database.outgoingTransfers done.result
    rw [htransfers]
    rcases done.finalizes.transfers_cases with ⟨hsame, _⟩ | ⟨hprepared, hupdate⟩
    · rw [hsame, hrow]
      exact .kept
    · rw [hupdate, Table.lookup_update, hrow]
      split_ifs with hkey
      · have houtgoing : done.outgoing = row := by
          have hlookup := done.outgoing_eq
          rw [← hkey, hrow] at hlookup
          exact (Option.some.inj hlookup).symm
        rw [houtgoing] at hprepared
        exact .finalized hoperation done houtgoing hkey hprepared
      · exact .kept
  · have htransfers : db'.outgoingTransfers =
        (db.pruneOutgoingTransferPrefix target done.through).outgoingTransfers :=
      (congrArg Database.outgoingTransfers done.result).trans rfl
    have hstreams : db'.outgoingStreams = done.streams :=
      congrArg Database.outgoingStreams done.result
    rw [htransfers]
    rcases lookup_pruneOutgoingTransferPrefix target done.through hrow with
      hkept | ⟨hgone, htarget, hle⟩
    · rw [hkept]
      exact .kept
    · rw [hgone]
      refine .removed ?_
      rcases done.checkpoints.streams_cases with ⟨hsame, hthrough⟩ | ⟨_, _, _, hinsert⟩
      · rw [Database.outgoingStream_of_same henvelope (hstreams.trans hsame), htarget,
          Database.outgoingStream_of_lookup done.stream_eq]
        omega
      · rw [Database.outgoingStream_of_insert henvelope (hstreams.trans hinsert), if_pos htarget]
        exact hle
  · rw [hpruned, Table.lookup_filterRows, hrow, Option.filter_some]
    split_ifs with hkeep
    · exact .kept
    · obtain ⟨stream, hstream, hle⟩ := hcovered key (Bool.not_eq_true _ ▸ hkeep)
      refine .removed ?_
      rw [Database.outgoingStream_of_same henvelope hstreams,
        Database.outgoingStream_of_lookup hstream]
      exact hle

theorem Effect.transfer_new {key : String × ℕ} {row : OutgoingTransfer d}
    (hnew : key ∉ db.outgoingTransfers) (hrow : db'.outgoingTransfers.lookup key = some row) :
    ∃ voucher, out = .voucher voucher ∧ SignedBy svc clock db db' operation voucher ∧
      key = (voucher.targetWarden, voucher.sequence) ∧
      row = .prepared voucher (svc.recordDigest (.voucher voucher)) clock.nowNs := by
  have habsent : db.outgoingTransfers.lookup key = none := AList.lookup_eq_none.mpr hnew
  rcases h.outgoing_cases with ⟨hsame, _⟩ | ⟨voucher, hout, hsigned⟩ |
    ⟨identity, ack, _, ⟨done⟩⟩ | ⟨identity, target, through, checkpoint, _, ⟨done⟩⟩ |
    ⟨keep, _, hpruned, _⟩
  · rw [hsame, habsent] at hrow
    cases hrow
  · obtain ⟨_, _, hinsert, _⟩ := hsigned.outgoing
    rw [hinsert, Table.lookup_insert_eq, habsent] at hrow
    split_ifs at hrow with hkey
    exact ⟨voucher, hout, hsigned, hkey, (Option.some.inj hrow).symm⟩
  · have htransfers : db'.outgoingTransfers = done.transfers :=
      congrArg Database.outgoingTransfers done.result
    rw [htransfers] at hrow
    rcases done.finalizes.transfers_cases with ⟨hsame, _⟩ | ⟨_, hupdate⟩
    · rw [hsame, habsent] at hrow
      cases hrow
    · rw [hupdate, Table.lookup_update, habsent] at hrow
      split_ifs at hrow
      cases hrow
  · have htransfers : db'.outgoingTransfers =
        (db.pruneOutgoingTransferPrefix target done.through).outgoingTransfers :=
      (congrArg Database.outgoingTransfers done.result).trans rfl
    rw [htransfers, Database.pruneOutgoingTransferPrefix, Table.lookup_filterRows, habsent] at hrow
    cases hrow
  · rw [hpruned, Table.lookup_filterRows, habsent] at hrow
    cases hrow

theorem Effect.outgoingStream_step (target : String) :
    OutgoingStreamStep svc clock operation db db' target (db.outgoingStream target)
      (db'.outgoingStream target) := by
  have henvelope : db'.envelope = db.envelope := congrArg (fun x => x.2.2) h.fixed_eq
  have hsame : db'.outgoingStreams = db.outgoingStreams →
      OutgoingStreamStep svc clock operation db db' target (db.outgoingStream target)
        (db'.outgoingStream target) := by
    intro heq
    rw [Database.outgoingStream_of_same henvelope heq]
    exact .kept
  rcases h.outgoing_cases with ⟨_, hstreams⟩ | ⟨voucher, _, hsigned⟩ |
    ⟨identity, ack, hoperation, ⟨done⟩⟩ | ⟨identity, checked, _, checkpoint, hoperation, ⟨done⟩⟩ |
    ⟨keep, _, _, hstreams⟩
  · exact hsame hstreams
  · obtain ⟨_, _, _, hinsert⟩ := hsigned.outgoing
    rw [Database.outgoingStream_of_insert henvelope hinsert]
    split_ifs with htarget
    · rw [htarget]
      exact .extended hsigned rfl
    · exact .kept
  · have hstreams : db'.outgoingStreams = done.streams :=
      congrArg Database.outgoingStreams done.result
    have htransfers : db'.outgoingTransfers = done.transfers :=
      congrArg Database.outgoingTransfers done.result
    rcases done.finalizes.streams_cases with heq | ⟨watermark, hle, hfinal, hok, hinsert⟩
    · exact hsame (hstreams.trans heq)
    · rw [Database.outgoingStream_of_insert henvelope (hstreams.trans hinsert)]
      split_ifs with htarget
      · rw [htarget, Database.outgoingStream_of_lookup done.stream_eq]
        rw [← htransfers] at hfinal
        exact .advanced hle hfinal hok
      · exact .kept
  · have hstreams : db'.outgoingStreams = done.streams :=
      congrArg Database.outgoingStreams done.result
    rcases done.checkpoints.streams_cases with ⟨heq, _⟩ | ⟨hforward, hcompactable, hok, hinsert⟩
    · exact hsame (hstreams.trans heq)
    · rw [Database.outgoingStream_of_insert henvelope (hstreams.trans hinsert)]
      split_ifs with htarget
      · rw [htarget, Database.outgoingStream_of_lookup done.stream_eq]
        exact .compacted hoperation hforward hcompactable hok
      · exact .kept
  · exact hsame hstreams

end

/-- An acknowledgement that verifies as the target's and names this voucher. -/
structure AcknowledgedBy (svc : WardenService d Hash) (voucher : TransferVoucher d)
    (ack : TransferAck) : Prop where
  source_eq : ack.sourceWarden = svc.wardenId
  target_eq : ack.targetWarden = voucher.targetWarden
  sequence_eq : ack.sequence = voucher.sequence
  transferId_eq : ack.transferId = voucher.transferId
  digest_eq : ack.voucherDigest = svc.recordDigest (.voucher voucher)
  verified : svc.verifyRecord (.ack ack) voucher.targetWarden = true

/-- The row of a signed voucher: prepared, or final with an acknowledgement of it. -/
structure OutgoingRow (svc : WardenService d Hash) (calls : List (Call d)) (key : String × ℕ)
    (row : OutgoingTransfer d) : Prop where
  key_eq : key = (row.voucher.targetWarden, row.voucher.sequence)
  signed : row.voucher ∈ signed calls
  digest_eq : row.digest = svc.recordDigest (.voucher row.voucher)
  status : row.status = .prepared ∨ row.status.isFinal = true ∧ ∃ ack ∈ finalizations calls,
    row.ackPayload = some ack ∧ AcknowledgedBy svc row.voucher ack

/-- The outgoing side of a warden against the history of its calls. -/
structure Outgoing (svc : WardenService d Hash) (calls : List (Call d)) (db : Database d Hash) :
    Prop where
  ok : ∀ target, Database.OutgoingStreamOk (db.outgoingStream target)
  rows : ∀ key row, db.outgoingTransfers.lookup key = some row → OutgoingRow svc calls key row
  /-- Rows that the watermark has passed are final. -/
  settled : ∀ key row, db.outgoingTransfers.lookup key = some row →
    key.2 ≤ (db.outgoingStream key.1).ackedThrough → row.status.isFinal = true
  /-- Every signed voucher has its row, or the stream is compacted past it. -/
  present : ∀ voucher ∈ Lets.signed calls,
    (∃ row, db.outgoingTransfers.lookup (voucher.targetWarden, voucher.sequence) = some row) ∨
      voucher.sequence ≤ (db.outgoingStream voucher.targetWarden).compactedThrough
  /-- What the watermark has passed was finalized. -/
  acked : ∀ target n, 0 < n → n ≤ (db.outgoingStream target).ackedThrough →
    ∃ voucher ∈ Lets.signed calls, voucher.targetWarden = target ∧ voucher.sequence = n ∧
      ∃ ack ∈ finalizations calls, AcknowledgedBy svc voucher ack
  /-- The acknowledgement of a finalized transfer is in its row for as long as there is one. -/
  recorded : ∀ ack ∈ finalizations calls,
    (∃ row, db.outgoingTransfers.lookup (ack.targetWarden, ack.sequence) = some row ∧
      row.status.isFinal = true ∧ row.ackPayload = some ack) ∨
    db.outgoingTransfers.lookup (ack.targetWarden, ack.sequence) = none ∧
      ack.sequence ≤ (db.outgoingStream ack.targetWarden).compactedThrough
  acknowledged : ∀ ack ∈ finalizations calls, ∃ voucher ∈ Lets.signed calls,
    AcknowledgedBy svc voucher ack
  unique : ∀ ack ∈ finalizations calls, ∀ ack' ∈ finalizations calls,
    ack.targetWarden = ack'.targetWarden → ack.sequence = ack'.sequence → ack = ack'

theorem outgoing_genesis (svc : WardenService d Hash) (envelope : Envelope d) :
    Outgoing svc [] (.genesis svc.wardenId svc.keyId envelope) where
  ok _ := ⟨Nat.zero_lt_one, le_rfl, .inl rfl⟩
  rows _ _ hrow := (by cases hrow)
  settled _ _ hrow := (by cases hrow)
  present _ hmem := absurd hmem (Finset.notMem_empty _)
  acked _ _ hpos hle := absurd hpos (Nat.not_lt.mpr hle)
  recorded _ hmem := absurd hmem List.not_mem_nil
  acknowledged _ hmem := absurd hmem List.not_mem_nil
  unique _ hmem := absurd hmem List.not_mem_nil

theorem OutgoingStreamStep.le {target : String} {stream stream' : OutgoingStream}
    (h : OutgoingStreamStep svc clock operation db db' target stream stream') :
    stream.ackedThrough ≤ stream'.ackedThrough ∧
      stream.compactedThrough ≤ stream'.compactedThrough := by
  cases h with
  | kept => exact ⟨le_rfl, le_rfl⟩
  | extended => exact ⟨le_rfl, le_rfl⟩
  | advanced le => exact ⟨le, le_rfl⟩
  | compacted _ forward => exact ⟨le_rfl, forward.le⟩

theorem OutgoingStreamStep.ok {target : String} {stream stream' : OutgoingStream}
    (h : OutgoingStreamStep svc clock operation db db' target stream stream')
    (hok : Database.OutgoingStreamOk stream) : Database.OutgoingStreamOk stream' := by
  cases h with
  | kept => exact hok
  | extended => exact ⟨hok.1.trans (Nat.lt_succ_self _), hok.2⟩
  | advanced _ _ ok => exact ok
  | compacted _ _ _ ok => exact ok

theorem OutgoingStreamStep.acked_cases {target : String} {stream stream' : OutgoingStream}
    (h : OutgoingStreamStep svc clock operation db db' target stream stream') {n : ℕ}
    (hle : n ≤ stream'.ackedThrough) : n ≤ stream.ackedThrough ∨ ∃ row,
      db'.outgoingTransfers.lookup (target, n) = some row ∧ row.status.isFinal = true := by
  cases h with
  | kept => exact .inl hle
  | extended => exact .inl hle
  | compacted => exact .inl hle
  | advanced _ final =>
    rcases Nat.lt_or_ge stream.ackedThrough n with hlt | hge
    · exact .inr (final n hlt hle)
    · exact .inl hge

theorem Effect.finalized_of (h : Effect svc clock db operation db' out)
    {identity : IdentityContext} {ack : TransferAck}
    (hoperation : operation = .finalizeTransfer identity ack) :
    Nonempty (Finalized svc clock ack db db') := by
  subst hoperation
  cases h with
  | replayed request => cases request
  | finalized _ done => exact ⟨done⟩

namespace Outgoing

variable {calls : List (Call d)} {call : Call d}

theorem rows_step (h : Outgoing svc calls db) (hreply : call.reply = .ok out)
    (heffect : Effect svc call.clock db call.operation db' out) {key : String × ℕ}
    {row' : OutgoingTransfer d} (hrow' : db'.outgoingTransfers.lookup key = some row') :
    OutgoingRow svc (calls ++ [call]) key row' := by
  cases hrow : db.outgoingTransfers.lookup key with
  | none =>
    obtain ⟨voucher, hout, _, rfl, rfl⟩ :=
      heffect.transfer_new (AList.lookup_eq_none.mp hrow) hrow'
    refine ⟨rfl, mem_answers_iff.mpr ⟨call, ?_, out, hreply, ?_⟩, rfl, .inl rfl⟩
    · exact List.mem_concat_self
    · rw [hout]
      rfl
  | some row =>
    have hold := h.rows key row hrow
    have hstep := heffect.transfer_step hrow
    rw [hrow'] at hstep
    cases hstep with
    | kept =>
      refine ⟨hold.key_eq, mem_signed_of_mem call hold.signed, hold.digest_eq, ?_⟩
      refine hold.status.imp id fun ⟨hfinal, ack, hmem, hpayload, hacked⟩ => ?_
      exact ⟨hfinal, ack, mem_finalizations_of_mem call hmem, hpayload, hacked⟩
    | @finalized identity ack operation_eq done outgoing_eq key_eq =>
      refine ⟨hold.key_eq, mem_signed_of_mem call hold.signed, hold.digest_eq, .inr ⟨rfl, ack,
        mem_finalizations_of_call operation_eq hreply, rfl, ?_⟩⟩
      obtain ⟨htarget, hsequence⟩ := Prod.mk.inj (key_eq.symm.trans hold.key_eq)
      have hid := done.transferId_eq
      have hdigest := done.digest_eq
      have hverified := done.verified
      rw [outgoing_eq] at hid hdigest
      rw [htarget] at hverified
      exact ⟨done.source_eq, htarget, hsequence, hid.symm,
        hdigest.symm.trans hold.digest_eq, hverified⟩

theorem recorded_step (h : Outgoing svc calls db)
    (heffect : Effect svc call.clock db call.operation db' out) {ack : TransferAck}
    (hmem : ack ∈ finalizations calls) :
    (∃ row, db'.outgoingTransfers.lookup (ack.targetWarden, ack.sequence) = some row ∧
      row.status.isFinal = true ∧ row.ackPayload = some ack) ∨
    db'.outgoingTransfers.lookup (ack.targetWarden, ack.sequence) = none ∧
      ack.sequence ≤ (db'.outgoingStream ack.targetWarden).compactedThrough := by
  rcases h.recorded ack hmem with ⟨row, hrow, hfinal, hpayload⟩ | ⟨hnone, hle⟩
  · have hstep := heffect.transfer_step hrow
    generalize hrow' : db'.outgoingTransfers.lookup (ack.targetWarden, ack.sequence) = after at hstep
    cases hstep with
    | kept => exact .inl ⟨row, rfl, hfinal, hpayload⟩
    | finalized _ _ _ _ prepared =>
      rw [prepared] at hfinal
      cases hfinal
    | removed covered => exact .inr ⟨rfl, covered⟩
  · have hcompacted := (heffect.outgoingStream_step ack.targetWarden).le.2
    have hok := h.ok ack.targetWarden
    refine .inr ⟨?_, hle.trans hcompacted⟩
    -- a new row has a sequence that the stream has not reached
    cases hrow' : db'.outgoingTransfers.lookup (ack.targetWarden, ack.sequence) with
    | none => rfl
    | some row' =>
      obtain ⟨voucher, _, hsigned, hkey, _⟩ :=
        heffect.transfer_new (AList.lookup_eq_none.mp hnone) hrow'
      obtain ⟨htarget, hsequence⟩ := Prod.mk.inj hkey
      have hnext := hsigned.outgoing.1
      rw [← htarget, ← hsequence] at hnext
      have hacked := hok.1
      have hreached := hok.2.1
      omega

theorem recorded_of_call (heffect : Effect svc call.clock db call.operation db' out)
    {identity : IdentityContext} {ack : TransferAck}
    (hoperation : call.operation = .finalizeTransfer identity ack) :
    ∃ row, db'.outgoingTransfers.lookup (ack.targetWarden, ack.sequence) = some row ∧
      row.status.isFinal = true ∧ row.ackPayload = some ack := by
  obtain ⟨done⟩ := heffect.finalized_of hoperation
  have htransfers : db'.outgoingTransfers = done.transfers :=
    congrArg Database.outgoingTransfers done.result
  rw [htransfers]
  rcases done.finalizes.transfers_cases with ⟨hsame, hfinal, hpayload⟩ | ⟨_, hupdate⟩
  · exact ⟨done.outgoing, hsame ▸ done.outgoing_eq, hfinal, hpayload⟩
  · rw [hupdate, Table.lookup_update, if_pos rfl, done.outgoing_eq]
    exact ⟨_, rfl, rfl, rfl⟩

variable (h : Outgoing svc calls db)

include h

theorem acknowledged_of_call (hreply : call.reply = .ok out)
    (heffect : Effect svc call.clock db call.operation db' out) {identity : IdentityContext}
    {ack : TransferAck} (hoperation : call.operation = .finalizeTransfer identity ack) :
    ∃ voucher ∈ Lets.signed (calls ++ [call]), AcknowledgedBy svc voucher ack := by
  obtain ⟨row, hrow, hfinal, hpayload⟩ := recorded_of_call heffect hoperation
  have hnew := h.rows_step hreply heffect hrow
  rcases hnew.status with hprepared | ⟨_, ack', _, hpayload', hacked⟩
  · rw [hprepared] at hfinal
    cases hfinal
  · obtain rfl := some_unique hpayload hpayload'
    exact ⟨row.voucher, hnew.signed, hacked⟩

theorem settled_step (heffect : Effect svc call.clock db call.operation db' out) {key : String × ℕ}
    {row' : OutgoingTransfer d} (hrow' : db'.outgoingTransfers.lookup key = some row')
    (hle : key.2 ≤ (db'.outgoingStream key.1).ackedThrough) : row'.status.isFinal = true := by
  rcases (heffect.outgoingStream_step key.1).acked_cases hle with hold | ⟨row, hrow, hfinal⟩
  · cases hrow : db.outgoingTransfers.lookup key with
    | none =>
      obtain ⟨voucher, _, hsigned, hkey, _⟩ :=
        heffect.transfer_new (AList.lookup_eq_none.mp hrow) hrow'
      have hnext := hsigned.outgoing.1
      have hok := (h.ok voucher.targetWarden).1
      rw [hkey] at hold
      change voucher.sequence ≤ (db.outgoingStream voucher.targetWarden).ackedThrough at hold
      omega
    | some row =>
      have hfinal := h.settled key row hrow hold
      have hstep := heffect.transfer_step hrow
      rw [hrow'] at hstep
      cases hstep with
      | kept => exact hfinal
      | finalized => rfl
  · obtain rfl := some_unique hrow hrow'
    exact hfinal

theorem final_of_covered (heffect : Effect svc clock db operation db' out) {key : String × ℕ}
    {row : OutgoingTransfer d} (hrow : db.outgoingTransfers.lookup key = some row)
    (hle : key.2 ≤ (db'.outgoingStream key.1).compactedThrough) : row.status.isFinal = true := by
  have hsettled := h.settled key row hrow
  have hreached := (h.ok key.1).2.1
  have hstep := heffect.outgoingStream_step key.1
  generalize db'.outgoingStream key.1 = stream' at hstep hle
  cases hstep with
  | kept => exact hsettled (hle.trans hreached)
  | extended => exact hsettled (hle.trans hreached)
  | advanced => exact hsettled (hle.trans hreached)
  | compacted _ _ compactable => exact compactable.final key.2 row hrow hle

theorem present_step (hremembers : Remembers calls db) (hreply : call.reply = .ok out)
    (heffect : Effect svc call.clock db call.operation db' out) {voucher : TransferVoucher d}
    (hmem : voucher ∈ Lets.signed (calls ++ [call])) :
    (∃ row, db'.outgoingTransfers.lookup (voucher.targetWarden, voucher.sequence) = some row) ∨
      voucher.sequence ≤ (db'.outgoingStream voucher.targetWarden).compactedThrough := by
  rcases mem_signed_concat hremembers hreply heffect hmem with hold | hsigned
  · rcases h.present voucher hold with ⟨row, hrow⟩ | hle
    · have hstep := heffect.transfer_step hrow
      generalize db'.outgoingTransfers.lookup (voucher.targetWarden, voucher.sequence) = after
        at hstep ⊢
      cases hstep with
      | kept => exact .inl ⟨row, rfl⟩
      | finalized => exact .inl ⟨_, rfl⟩
      | removed covered => exact .inr covered
    · exact .inr (hle.trans (heffect.outgoingStream_step voucher.targetWarden).le.2)
  · obtain ⟨_, _, hinsert, _⟩ := hsigned.outgoing
    rw [hinsert]
    exact .inl ⟨_, AList.lookup_insert _⟩

theorem acked_step (hreply : call.reply = .ok out)
    (heffect : Effect svc call.clock db call.operation db' out) {target : String} {n : ℕ}
    (hpos : 0 < n) (hle : n ≤ (db'.outgoingStream target).ackedThrough) :
    ∃ voucher ∈ Lets.signed (calls ++ [call]), voucher.targetWarden = target ∧
      voucher.sequence = n ∧
      ∃ ack ∈ finalizations (calls ++ [call]), AcknowledgedBy svc voucher ack := by
  rcases (heffect.outgoingStream_step target).acked_cases hle with hold | ⟨row, hrow, hfinal⟩
  · obtain ⟨voucher, hmem, htarget, hsequence, ack, hack, hacked⟩ := h.acked target n hpos hold
    exact ⟨voucher, mem_signed_of_mem call hmem, htarget, hsequence, ack,
      mem_finalizations_of_mem call hack, hacked⟩
  · have hnew := h.rows_step hreply heffect hrow
    obtain ⟨htarget, hsequence⟩ := Prod.mk.inj hnew.key_eq
    rcases hnew.status with hprepared | ⟨_, ack, hack, _, hacked⟩
    · rw [hprepared] at hfinal
      cases hfinal
    · exact ⟨row.voucher, hnew.signed, htarget.symm, hsequence.symm, ack, hack, hacked⟩

theorem unique_step (heffect : Effect svc call.clock db call.operation db' out)
    {ack ack' : TransferAck} (hmem : ack ∈ finalizations (calls ++ [call]))
    (hmem' : ack' ∈ finalizations (calls ++ [call]))
    (htarget : ack.targetWarden = ack'.targetWarden) (hsequence : ack.sequence = ack'.sequence) :
    ack = ack' := by
  rcases mem_finalizations_concat hmem with hold | ⟨identity, hoperation⟩
  · rcases mem_finalizations_concat hmem' with hold' | ⟨identity', hoperation'⟩
    · exact h.unique ack hold ack' hold' htarget hsequence
    · -- the row of the new one carries the acknowledgement of the old one
      obtain ⟨row', hrow', _, hpayload'⟩ := recorded_of_call heffect hoperation'
      rw [← htarget, ← hsequence] at hrow'
      rcases h.recorded_step heffect hold with ⟨row, hrow, _, hpayload⟩ | ⟨hnone, _⟩
      · obtain rfl := some_unique hrow hrow'
        exact some_unique hpayload hpayload'
      · rw [hnone] at hrow'
        cases hrow'
  · obtain ⟨row, hrow, _, hpayload⟩ := recorded_of_call heffect hoperation
    rw [htarget, hsequence] at hrow
    rcases mem_finalizations_concat hmem' with hold' | ⟨identity', hoperation'⟩
    · rcases h.recorded_step heffect hold' with ⟨row', hrow', _, hpayload'⟩ | ⟨hnone, _⟩
      · obtain rfl := some_unique hrow hrow'
        exact some_unique hpayload hpayload'
      · rw [hnone] at hrow
        cases hrow
    · obtain ⟨_, rfl⟩ := Operation.finalizeTransfer.inj (hoperation.symm.trans hoperation')
      rfl

theorem step (hremembers : Remembers calls db) (hreply : call.reply = .ok out)
    (heffect : Effect svc call.clock db call.operation db' out) :
    Outgoing svc (calls ++ [call]) db' where
  ok target := (heffect.outgoingStream_step target).ok (h.ok target)
  rows _ _ hrow := h.rows_step hreply heffect hrow
  settled _ _ hrow hle := h.settled_step heffect hrow hle
  present _ hmem := h.present_step hremembers hreply heffect hmem
  acked _ _ hpos hle := h.acked_step hreply heffect hpos hle
  recorded ack hmem := by
    rcases mem_finalizations_concat hmem with hold | ⟨identity, hoperation⟩
    · exact h.recorded_step heffect hold
    · exact .inl (recorded_of_call heffect hoperation)
  acknowledged ack hmem := by
    rcases mem_finalizations_concat hmem with hold | ⟨identity, hoperation⟩
    · obtain ⟨voucher, hsigned, hacked⟩ := h.acknowledged ack hold
      exact ⟨voucher, mem_signed_of_mem call hsigned, hacked⟩
    · exact h.acknowledged_of_call hreply heffect hoperation
  unique _ hmem _ hmem' htarget hsequence :=
    h.unique_step heffect hmem hmem' htarget hsequence

end Outgoing

theorem outgoing_of_run {envelope : Envelope d} {db₀ : Database d Hash} {calls : List (Call d)}
    (hinit : (svc.system envelope).Init db₀) (run : (svc.system envelope).Run db₀ calls db) :
    Outgoing svc calls db := by
  induction run with
  | nil =>
    subst hinit
    exact outgoing_genesis svc envelope
  | @snoc s t calls call run step ih =>
    rcases effect_cases step with ⟨out, hreply, heffect⟩ | ⟨⟨e, hreply⟩, rfl⟩
    · exact ih.step (accounts_of_run hinit run).remembers hreply heffect
    · have hsigned : signed (calls ++ [call]) = signed calls := answers_concat_error hreply
      have hfinal : finalizations (calls ++ [call]) = finalizations calls :=
        finalizations_concat_error hreply
      refine ⟨ih.ok, fun key row hrow => ?_, ih.settled, ?_, ?_, ?_, ?_, ?_⟩
      · have hold := ih.rows key row hrow
        refine ⟨hold.key_eq, mem_signed_of_mem call hold.signed, hold.digest_eq, ?_⟩
        rw [hfinal]
        exact hold.status
      · rw [hsigned]
        exact ih.present
      · rw [hsigned, hfinal]
        exact ih.acked
      · rw [hfinal]
        exact ih.recorded
      · rw [hsigned, hfinal]
        exact ih.acknowledged
      · rw [hfinal]
        exact ih.unique

end WardenService

/-- For every stream, along every run: the compaction has not passed the watermark, which is below
the next sequence, and every sequence that the watermark has passed was finalized with one
acknowledgement of the target that names its voucher. -/
theorem outgoing_stream_finalized_prefix {svc : WardenService d Hash} {envelope : Envelope d}
    {db₀ db : Database d Hash} {calls : List (Call d)} (hinit : (svc.system envelope).Init db₀)
    (run : (svc.system envelope).Run db₀ calls db) (target : String) :
    ((db.outgoingStream target).compactedThrough ≤ (db.outgoingStream target).ackedThrough ∧
      (db.outgoingStream target).ackedThrough < (db.outgoingStream target).nextSequence) ∧
    (∀ n, 0 < n → n ≤ (db.outgoingStream target).ackedThrough →
      ∃ voucher ∈ signed calls, voucher.targetWarden = target ∧ voucher.sequence = n ∧
        ∃ ack ∈ finalizations calls, WardenService.AcknowledgedBy svc voucher ack) ∧
    (∀ call db' n row, (svc.system envelope).Step db call db' →
      db.outgoingTransfers.lookup (target, n) = some row → row.status = .prepared →
        ∃ row', db'.outgoingTransfers.lookup (target, n) = some row') ∧
    ∀ ack ∈ finalizations calls, ∀ ack' ∈ finalizations calls, ack.targetWarden = target →
      ack'.targetWarden = target → ack.sequence = ack'.sequence → ack = ack' := by
  have h := WardenService.outgoing_of_run hinit run
  have hok := h.ok target
  refine ⟨⟨hok.2.1, hok.1⟩, h.acked target, fun call db' n row hstep hrow hprepared => ?_,
    fun ack hmem ack' hmem' htarget htarget' => h.unique ack hmem ack' hmem'
      (htarget.trans htarget'.symm)⟩
  rcases WardenService.effect_cases hstep with ⟨out, hreply, heffect⟩ | ⟨_, rfl⟩
  · have hrowStep := heffect.transfer_step hrow
    generalize db'.outgoingTransfers.lookup (target, n) = after at hrowStep ⊢
    cases hrowStep with
    | kept => exact ⟨row, rfl⟩
    | finalized => exact ⟨_, rfl⟩
    | removed covered =>
      have hfinal := h.final_of_covered heffect hrow covered
      rw [hprepared] at hfinal
      cases hfinal
  · exact ⟨row, hrow⟩

open Sample

def Sample.ack : TransferAck where
  tenantId := "tenant"
  envelopeId := "envelope"
  configEpoch := 1
  transferId := "x1"
  sourceWarden := "a"
  targetWarden := "b"
  sequence := 1
  voucherDigest := "x1"
  acceptedAtNs := 3
  contiguousWatermark := 1
  keyId := "b"
  signature := "b"
  child := none

def Sample.finalizing : Database 1 ℕ × List (Call 1) :=
  (service "a").play (genesis "a" 6)
    [(exactly 1, registerPolicy),
      (exactly 2, .prepareTransfer "x1"
        ⟨"r1", operator, "tenant", "envelope", "b", units 3, none⟩),
      (exactly 3, .finalizeTransfer operator ack),
      (exactly 4, .recordAttempt .transfer "x1" "b" none),
      (exactly 5, .createTransferCheckpoint operator "b" none)]

theorem outgoing_stream_finalized_prefix_finalizing :
    (finalizing.1.outgoingStream "b").compactedThrough = 1 ∧
      ∃ voucher ∈ signed finalizing.2, voucher.sequence = 1 ∧
        ∃ ack ∈ finalizations finalizing.2,
          WardenService.AcknowledgedBy (service "a") voucher ack := by
  have hrun : ((service "a").system (envelope 6)).Run (genesis "a" 6)
    finalizing.2 finalizing.1 := (service "a").play_run (envelope 6) _ _
  have hfacts : (finalizing.1.outgoingStream "b").compactedThrough = 1 ∧
      1 ≤ (finalizing.1.outgoingStream "b").ackedThrough := by
    decide +kernel
  obtain ⟨_, hacked, _⟩ := outgoing_stream_finalized_prefix rfl hrun "b"
  obtain ⟨voucher, hmem, _, hsequence, hack⟩ := hacked 1 Nat.zero_lt_one hfacts.2
  exact ⟨hfacts.1, voucher, hmem, hsequence, hack⟩

end Lets
