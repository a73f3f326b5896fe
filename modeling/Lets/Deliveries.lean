import Lets.Warden

set_option autoImplicit false

/-!
# What may become of a queued record

A record is queued once, under its kind, its id and its target.
-/

namespace Lets

open Library

variable {d : ℕ} {Hash : Type}

def PeerDelivery.superseded (nowNs : ℕ) (row : PeerDelivery d) : PeerDelivery d :=
  { row with
    supersededAtNs := some nowNs
    lastError := some "superseded by newer signed state" }

namespace Database

variable {deliveries : PeerDeliveries d}
  {key : RecordKind × String × String} {row : PeerDelivery d}

theorem supersededBy_cases (recordKind : RecordKind) (targetWarden orderingKey : String)
    (nowNs : ℕ) (key : RecordKind × String × String) (row : PeerDelivery d) :
    PeerDelivery.supersededBy recordKind targetWarden orderingKey nowNs key row = row ∨
      key.1 = recordKind ∧ row.deliveredAtNs = none ∧ row.supersededAtNs = none ∧
        PeerDelivery.supersededBy recordKind targetWarden orderingKey nowNs key row =
          PeerDelivery.superseded nowNs row := by
  unfold PeerDelivery.supersededBy
  split_ifs with h
  · exact .inr ⟨h.1, h.2.2.2.1, h.2.2.2.2, rfl⟩
  · exact .inl rfl

variable {recordKind : RecordKind} {recordId targetWarden orderingKey : String} {streamPosition : ℕ}
  {payload : SignedRecord d}

theorem lookup_enqueued_of_lookup {nowNs : ℕ} {supersedeOlder : Bool}
    (hnew : (recordKind, recordId, targetWarden) ∉ deliveries)
    (hrow : deliveries.lookup key = some row) : ∃ row',
      (enqueued recordKind recordId targetWarden orderingKey streamPosition payload nowNs
        supersedeOlder deliveries).lookup key = some row' ∧
      (row' = row ∨ supersedeOlder = true ∧ key.1 = recordKind ∧ row.deliveredAtNs = none ∧
        row.supersededAtNs = none ∧ row' = PeerDelivery.superseded nowNs row) := by
  have hne : key ≠ (recordKind, recordId, targetWarden) := by
    rintro rfl
    exact hnew (Table.mem_of_lookup hrow)
  rw [enqueued, Table.lookup_insert_eq, if_neg hne]
  cases supersedeOlder with
  | false => exact ⟨row, hrow, .inl rfl⟩
  | true =>
    rw [if_pos rfl, Table.lookup_mapRows, hrow, Option.map_some]
    rcases supersededBy_cases recordKind targetWarden orderingKey nowNs key row with hsame | hmoved
    · exact ⟨_, rfl, .inl hsame⟩
    · exact ⟨_, rfl, .inr ⟨rfl, hmoved⟩⟩

theorem lookup_enqueued_kept {nowNs : ℕ} (hnew : (recordKind, recordId, targetWarden) ∉ deliveries)
    (hrow : deliveries.lookup key = some row) :
    (enqueued recordKind recordId targetWarden orderingKey streamPosition payload nowNs false
      deliveries).lookup key = some row :=
  Table.lookup_insert_of_new hnew hrow

theorem lookup_enqueued_of_new {nowNs : ℕ} {supersedeOlder : Bool} (hnew : key ∉ deliveries)
    (hrow : (enqueued recordKind recordId targetWarden orderingKey streamPosition payload nowNs
      supersedeOlder deliveries).lookup key = some row) :
    key = (recordKind, recordId, targetWarden) ∧
      row = PeerDelivery.queued orderingKey streamPosition payload nowNs := by
  rw [enqueued, Table.lookup_insert_eq] at hrow
  split_ifs at hrow with hkey
  · exact ⟨hkey, (Option.some.inj hrow).symm⟩
  · rw [Table.lookup_mapRows, AList.lookup_eq_none.mpr hnew] at hrow
    cases hrow
  · rw [AList.lookup_eq_none.mpr hnew] at hrow
    cases hrow

end Database

namespace WardenService

variable {svc : WardenService d Hash} {clock : Reading} {operation : Operation d}
  {db db' : Database d Hash} {out : Response d}
  {deliveries deliveries' : PeerDeliveries d}
  {key : RecordKind × String × String} {row : PeerDelivery d}

inductive DeliveryStep (clock : Reading) (operation : Operation d)
    (key : RecordKind × String × String) (row : PeerDelivery d) : PeerDelivery d → Prop
  | kept : DeliveryStep clock operation key row row
  | superseded (kind_ne : key.1 ≠ .transfer) (undelivered : row.deliveredAtNs = none)
      (current : row.supersededAtNs = none) :
      DeliveryStep clock operation key row (PeerDelivery.superseded clock.nowNs row)
  | attempted {error : Option String}
      (operation_eq : operation = .recordAttempt key.1 key.2.1 key.2.2 error)
      (current : row.supersededAtNs = none) :
      DeliveryStep clock operation key row (row.attempted clock.nowNs error)

inductive DeliveryNew (svc : WardenService d Hash) (clock : Reading) (db db' : Database d Hash)
    (key : RecordKind × String × String) (row : PeerDelivery d) : Operation d → Prop
  | remoteSpawned {newLeaseId newTransferId : String} {req : SpawnRemoteRequest d}
      {out : Response d} (done : RemoteSpawned svc clock newLeaseId newTransferId req db db' out)
      (key_eq : key = (.transfer, newTransferId, req.targetWarden))
      (row_eq : row = .queued req.targetWarden (db.outgoingStream req.targetWarden).nextSequence
        (.voucher done.voucher) clock.nowNs) :
      DeliveryNew svc clock db db' key row (.spawnRemote newLeaseId newTransferId req)
  | prepared {newTransferId : String} {req : PrepareTransferRequest d} {out : Response d}
      (done : Prepared svc clock newTransferId req db db' out)
      (key_eq : key = (.transfer, newTransferId, req.targetWarden))
      (row_eq : row = .queued req.targetWarden (db.outgoingStream req.targetWarden).nextSequence
        (.voucher done.voucher) clock.nowNs) :
      DeliveryNew svc clock db db' key row (.prepareTransfer newTransferId req)
  | revoked {req : RevokeBranchRequest} {revocation : BranchRevocation} {db₁ : Database d Hash}
      (done : BranchRevoked svc clock revocation db db₁)
      (revocations_eq : db'.revocations = db₁.revocations)
      (kind_eq : key.1 = .revocation) (id_eq : key.2.1 = svc.recordDigest (.revocation revocation))
      (payload_eq : row.payload = .revocation revocation) :
      DeliveryNew svc clock db db' key row (.revokeBranch req)
  | checkpointCreated {identity : IdentityContext} {targetWarden : String}
      {throughSequence : Option ℕ} {checkpoint : TransferCheckpoint}
      (done : CheckpointCreated svc clock targetWarden checkpoint db db')
      (through_lt : done.stream.compactedThrough < done.through)
      (key_eq : key = (.checkpoint, svc.recordDigest (.checkpoint checkpoint), targetWarden))
      (row_eq : row = .queued targetWarden done.through (.checkpoint checkpoint) clock.nowNs) :
      DeliveryNew svc clock db db' key row
        (.createTransferCheckpoint identity targetWarden throughSequence)

theorem queuedRevocation_cons (revocation : BranchRevocation) (nowNs : ℕ) (targetWarden : String)
    (peers : List String) :
    svc.queuedRevocation revocation nowNs (targetWarden :: peers) deliveries =
      svc.queuedRevocation revocation nowNs peers
        (Database.enqueued .revocation (svc.recordDigest (.revocation revocation)) targetWarden
          (svc.branchDigest revocation.lineageId revocation.branchLeaseId) revocation.epoch
          (.revocation revocation) nowNs true deliveries) :=
  rfl

variable {revocation : BranchRevocation} {peers : List String}

theorem queue_new_enqueued (nowNs : ℕ) {targetWarden : String}
    (hnodup : (targetWarden :: peers).Nodup)
    (hnew : ∀ target ∈ targetWarden :: peers, (RecordKind.revocation,
      svc.recordDigest (.revocation revocation), target) ∉ deliveries) :
    ∀ target ∈ peers, (RecordKind.revocation, svc.recordDigest (.revocation revocation), target) ∉
      Database.enqueued .revocation (svc.recordDigest (.revocation revocation)) targetWarden
        (svc.branchDigest revocation.lineageId revocation.branchLeaseId) revocation.epoch
        (.revocation revocation) nowNs true deliveries := by
  intro target htarget hmem
  rcases Database.mem_enqueued.mp hmem with heq | hold
  · have hsame : target = targetWarden := (Prod.mk.inj (Prod.mk.inj heq).2).2
    exact (List.nodup_cons.mp hnodup).1 (hsame ▸ htarget)
  · exact hnew target (List.mem_cons_of_mem _ htarget) hold

theorem lookup_queuedRevocation_of_lookup (nowNs : ℕ) (hnodup : peers.Nodup)
    (hnew : ∀ target ∈ peers, (RecordKind.revocation, svc.recordDigest (.revocation revocation),
      target) ∉ deliveries)
    (hrow : deliveries.lookup key = some row) : ∃ row',
      (svc.queuedRevocation revocation nowNs peers deliveries).lookup key = some row' ∧
      (row' = row ∨ key.1 = .revocation ∧ row.deliveredAtNs = none ∧ row.supersededAtNs = none ∧
        row' = row.superseded nowNs) := by
  induction peers generalizing deliveries row with
  | nil => exact ⟨row, hrow, .inl rfl⟩
  | cons targetWarden rest ih =>
    obtain ⟨row₁, hrow₁, hstep⟩ :=
      Database.lookup_enqueued_of_lookup (hnew targetWarden List.mem_cons_self) hrow
    obtain ⟨row₂, hrow₂, hrest⟩ :=
      ih (List.nodup_cons.mp hnodup).2 (queue_new_enqueued nowNs hnodup hnew) hrow₁
    rw [queuedRevocation_cons]
    refine ⟨row₂, hrow₂, ?_⟩
    rcases hstep with rfl | ⟨_, hkind, hundelivered, hcurrent, rfl⟩
    · exact hrest
    · -- what one peer's copy has superseded, the next cannot supersede again
      rcases hrest with rfl | ⟨_, _, hnone, _⟩
      · exact .inr ⟨hkind, hundelivered, hcurrent, rfl⟩
      · cases hnone

theorem lookup_queuedRevocation_of_new {nowNs : ℕ} (hnodup : peers.Nodup)
    (hnew : ∀ target ∈ peers, (RecordKind.revocation, svc.recordDigest (.revocation revocation),
      target) ∉ deliveries)
    (hkey : key ∉ deliveries)
    (hrow : (svc.queuedRevocation revocation nowNs peers deliveries).lookup key = some row) :
    key.1 = .revocation ∧ key.2.1 = svc.recordDigest (.revocation revocation) ∧
      row.payload = .revocation revocation := by
  induction peers generalizing deliveries with
  | nil =>
    rw [queuedRevocation, List.foldl_nil, AList.lookup_eq_none.mpr hkey] at hrow
    cases hrow
  | cons targetWarden rest ih =>
    rw [queuedRevocation_cons] at hrow
    have hnew' := queue_new_enqueued nowNs hnodup hnew
    have hrest := (List.nodup_cons.mp hnodup).2
    generalize htable : Database.enqueued .revocation (svc.recordDigest (.revocation revocation))
      targetWarden (svc.branchDigest revocation.lineageId revocation.branchLeaseId)
      revocation.epoch (.revocation revocation) nowNs true deliveries = table at hrow hnew'
    cases hfirst : table.lookup key with
    | none => exact ih hrest hnew' (AList.lookup_eq_none.mp hfirst) hrow
    | some row₁ =>
      obtain ⟨rfl, rfl⟩ := Database.lookup_enqueued_of_new hkey (htable ▸ hfirst)
      obtain ⟨row₂, hrow₂, hstep⟩ := lookup_queuedRevocation_of_lookup nowNs hrest hnew' hfirst
      obtain rfl := some_unique hrow₂ hrow
      refine ⟨rfl, rfl, ?_⟩
      rcases hstep with rfl | ⟨_, _, _, rfl⟩
      · rfl
      · rfl

theorem Checkpoints.queues {targetWarden : String} {through : ℕ} {stream : OutgoingStream}
    {checkpoint : TransferCheckpoint} {streams : Table String OutgoingStream}
    (h : Checkpoints svc clock targetWarden through db stream checkpoint streams deliveries) :
    deliveries = db.peerDeliveries ∨ stream.compactedThrough < through ∧
      Queues svc .checkpoint (svc.recordDigest (.checkpoint checkpoint)) targetWarden through
        (.checkpoint checkpoint) clock.nowNs true db.peerDeliveries deliveries := by
  cases h with
  | again => exact .inl rfl
  | new forward _ _ _ queues => exact .inr ⟨forward, queues⟩

theorem BranchRevoked.peerDeliveries_eq (h : BranchRevoked svc clock revocation db db') :
    db'.peerDeliveries = h.deliveries := by
  have hmarked := congrArg Database.peerDeliveries h.materialized.result
  exact (congrArg Database.peerDeliveries h.result).trans hmarked

theorem Effect.delivery_step (h : Effect svc clock db operation db' out)
    (hrow : db.peerDeliveries.lookup key = some row) :
    (∃ row', db'.peerDeliveries.lookup key = some row' ∧
        DeliveryStep clock operation key row row') ∨
      db'.peerDeliveries.lookup key = none ∧ (∃ batchSize, operation = .pruneTerminal batchSize) ∧
        (key.1 = .transfer →
          row.deliveredAtNs.isSome = true ∧ CheckpointReaches db.peerDeliveries key row) := by
  have hsame : db'.peerDeliveries = db.peerDeliveries →
      ∃ row', db'.peerDeliveries.lookup key = some row' ∧
        DeliveryStep clock operation key row row' :=
    fun heq => ⟨row, heq ▸ hrow, .kept⟩
  have hqueues : ∀ {recordKind recordId targetWarden streamPosition payload supersedeOlder},
      Queues svc recordKind recordId targetWarden streamPosition payload clock.nowNs supersedeOlder
        db.peerDeliveries db'.peerDeliveries →
      (supersedeOlder = true → recordKind ≠ .transfer) →
      ∃ row', db'.peerDeliveries.lookup key = some row' ∧
        DeliveryStep clock operation key row row' := by
    intro recordKind recordId targetWarden streamPosition payload supersedeOlder hqueues hkind
    generalize db'.peerDeliveries = deliveries' at hqueues
    cases hqueues with
    | unconfigured => exact ⟨row, hrow, .kept⟩
    | queued _ new =>
      obtain ⟨row', hrow', hstep⟩ := Database.lookup_enqueued_of_lookup new hrow
      refine ⟨row', hrow', ?_⟩
      rcases hstep with rfl | ⟨hsupersede, hkey, hundelivered, hcurrent, rfl⟩
      · exact .kept
      · exact .superseded (fun htransfer => hkind hsupersede (hkey.symm.trans htransfer))
          hundelivered hcurrent
  have hrevoked : ∀ {revocation db₁}, BranchRevoked svc clock revocation db db₁ →
      db'.peerDeliveries = db₁.peerDeliveries → ∃ row',
        db'.peerDeliveries.lookup key = some row' ∧
          DeliveryStep clock operation key row row' := by
    intro revocation db₁ done heq
    obtain ⟨row', hrow', hstep⟩ :=
      lookup_queuedRevocation_of_lookup clock.nowNs done.peers_nodup done.queue_new hrow
    rw [heq, done.peerDeliveries_eq, done.deliveries_eq]
    refine ⟨row', hrow', ?_⟩
    rcases hstep with rfl | ⟨hkey, hundelivered, hcurrent, rfl⟩
    · exact .kept
    · exact .superseded (fun htransfer => nomatch hkey.symm.trans htransfer) hundelivered hcurrent
  cases h with
  | replayed _ _ _ _ result | runtimeSet _ _ result | policyRegistered _ _ result
  | prunedHistory _ _ result =>
    have hdeliveries := congrArg Database.peerDeliveries result
    exact .inl (hsame hdeliveries)
  | rootIssued done | spawned done | authorized done | renewed done | unmoved done
  | switched done | closed done | redelivered _ done | credited _ done | reclaimed _ done
  | finalized _ done | checkpointIngested _ done =>
    have hdeliveries := congrArg Database.peerDeliveries done.result
    exact .inl (hsame hdeliveries)
  | revokedAgain _ _ _ _ done | revocationKnown _ _ _ done =>
    have hmarked := congrArg Database.peerDeliveries done.materialized.result
    have hdeliveries := congrArg Database.peerDeliveries done.result
    exact .inl (hsame (hdeliveries.trans hmarked))
  | branchRevoked _ _ _ done result =>
    have hdeliveries := congrArg Database.peerDeliveries result
    exact .inl (hrevoked done hdeliveries)
  | revocationStored _ _ done => exact .inl (hrevoked done rfl)
  | @remoteSpawned newLeaseId newTransferId req _ _ done =>
    have hdeliveries : db'.peerDeliveries = done.deliveries :=
      congrArg Database.peerDeliveries done.result
    rw [hdeliveries, done.deliveries_eq]
    exact .inl ⟨row, Database.lookup_enqueued_kept done.queue_new hrow, .kept⟩
  | prepared done =>
    have hdeliveries : db'.peerDeliveries = done.deliveries :=
      congrArg Database.peerDeliveries done.result
    have hqueued := done.queues
    rw [← hdeliveries] at hqueued
    exact .inl (hqueues hqueued fun hfalse => (by cases hfalse))
  | checkpointCreated _ done =>
    have hdeliveries : db'.peerDeliveries = done.deliveries :=
      congrArg Database.peerDeliveries done.result
    rcases done.checkpoints.queues with heq | ⟨_, hqueued⟩
    · exact .inl (hsame (hdeliveries.trans heq))
    · rw [← hdeliveries] at hqueued
      exact .inl (hqueues hqueued fun _ => (by simp))
  | attempted _ result attempts =>
    have hdeliveries := congrArg Database.peerDeliveries result
    rw [hdeliveries]
    left
    cases attempts with
    | superseded => exact ⟨row, hrow, .kept⟩
    | @noted row₁ row_eq current =>
      rw [Table.lookup_insert_eq]
      split_ifs with hkey
      · subst hkey
        obtain rfl := some_unique row_eq hrow
        exact ⟨_, rfl, .attempted rfl current⟩
      · exact ⟨row, hrow, .kept⟩
  | @prunedTerminal batchSize _ _ deliveries _ result prunes =>
    have hdeliveries : db'.peerDeliveries = deliveries := congrArg Database.peerDeliveries result
    rw [hdeliveries]
    cases hkept : deliveries.lookup key with
    | some row' =>
      obtain rfl := Option.some.inj ((prunes.kept key row' hkept).symm.trans hrow)
      exact .inl ⟨_, rfl, .kept⟩
    | none =>
      refine .inr ⟨rfl, ⟨_, rfl⟩, fun hkind => ?_⟩
      rcases prunes.transfer key row hrow hkind with hsome | hdelivered
      · rw [hkept] at hsome
        cases hsome
      · exact hdelivered

theorem Effect.delivery_new (h : Effect svc clock db operation db' out)
    (hnew : key ∉ db.peerDeliveries) (hrow : db'.peerDeliveries.lookup key = some row) :
    DeliveryNew svc clock db db' key row operation := by
  have habsent : db'.peerDeliveries = db.peerDeliveries →
      DeliveryNew svc clock db db' key row operation := by
    intro heq
    rw [heq, AList.lookup_eq_none.mpr hnew] at hrow
    cases hrow
  have hqueues : ∀ {recordKind recordId targetWarden streamPosition payload supersedeOlder},
      Queues svc recordKind recordId targetWarden streamPosition payload clock.nowNs supersedeOlder
        db.peerDeliveries db'.peerDeliveries →
      key = (recordKind, recordId, targetWarden) ∧
        row = PeerDelivery.queued targetWarden streamPosition payload clock.nowNs := by
    intro recordKind recordId targetWarden streamPosition payload supersedeOlder hqueues
    generalize db'.peerDeliveries = deliveries' at hqueues hrow
    cases hqueues with
    | unconfigured => exact absurd (Table.mem_of_lookup hrow) hnew
    | queued => exact Database.lookup_enqueued_of_new hnew hrow
  cases h with
  | replayed _ _ _ _ result | runtimeSet _ _ result | policyRegistered _ _ result
  | prunedHistory _ _ result =>
    have hdeliveries := congrArg Database.peerDeliveries result
    exact habsent hdeliveries
  | rootIssued done | spawned done | authorized done | renewed done | unmoved done
  | switched done | closed done | redelivered _ done | credited _ done | reclaimed _ done
  | finalized _ done | checkpointIngested _ done =>
    have hdeliveries := congrArg Database.peerDeliveries done.result
    exact habsent hdeliveries
  | revokedAgain _ _ _ _ done | revocationKnown _ _ _ done =>
    have hmarked := congrArg Database.peerDeliveries done.materialized.result
    have hdeliveries := congrArg Database.peerDeliveries done.result
    exact habsent (hdeliveries.trans hmarked)
  | branchRevoked _ _ _ done result =>
    have hremembered := congrArg Database.peerDeliveries result
    rw [hremembered.trans done.peerDeliveries_eq, done.deliveries_eq] at hrow
    obtain ⟨hkind, hid, hpayload⟩ :=
      lookup_queuedRevocation_of_new done.peers_nodup done.queue_new hnew hrow
    have hrevocations := congrArg Database.revocations result
    exact .revoked done hrevocations hkind hid hpayload
  | revocationStored _ _ done unqueued =>
    -- what a peer has issued is not passed on
    have hdeliveries := done.peerDeliveries_eq
    rw [done.deliveries_eq, unqueued] at hdeliveries
    exact habsent hdeliveries
  | remoteSpawned done =>
    have hdeliveries : db'.peerDeliveries = done.deliveries :=
      congrArg Database.peerDeliveries done.result
    rw [hdeliveries, done.deliveries_eq] at hrow
    obtain ⟨hkey, hqueued⟩ := Database.lookup_enqueued_of_new hnew hrow
    exact .remoteSpawned done hkey hqueued
  | prepared done =>
    have hdeliveries : db'.peerDeliveries = done.deliveries :=
      congrArg Database.peerDeliveries done.result
    have hqueued := done.queues
    rw [← hdeliveries] at hqueued
    obtain ⟨hkey, hqueued⟩ := hqueues hqueued
    exact .prepared done hkey hqueued
  | checkpointCreated _ done =>
    have hdeliveries : db'.peerDeliveries = done.deliveries :=
      congrArg Database.peerDeliveries done.result
    rcases done.checkpoints.queues with heq | ⟨hforward, hqueued⟩
    · exact habsent (hdeliveries.trans heq)
    · rw [← hdeliveries] at hqueued
      obtain ⟨hkey, hqueued⟩ := hqueues hqueued
      exact .checkpointCreated done hforward hkey hqueued
  | attempted _ result attempts =>
    have hdeliveries := congrArg Database.peerDeliveries result
    rw [hdeliveries] at hrow
    cases attempts with
    | superseded => exact absurd (Table.mem_of_lookup hrow) hnew
    | noted row_eq =>
      rw [Table.lookup_insert_eq] at hrow
      split_ifs at hrow with hkey
      · exact absurd (Table.mem_iff_lookup.mpr ⟨_, hkey ▸ row_eq⟩) hnew
      · exact absurd (Table.mem_of_lookup hrow) hnew
  | prunedTerminal _ result prunes =>
    have hdeliveries := congrArg Database.peerDeliveries result
    rw [hdeliveries] at hrow
    exact absurd (Table.mem_iff_lookup.mpr ⟨row, prunes.kept key row hrow⟩) hnew

end WardenService

end Lets
