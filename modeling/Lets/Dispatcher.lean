import Lets.Transfer

set_option autoImplicit false

/-!
# The peer dispatcher's bookkeeping

What the dispatcher writes to the warden's store between deliveries: the outcome of an attempt, and
the bounded pruning of terminal delivery records and of compacted transfer history.
-/

namespace Lets

open Library

variable {d : ℕ} {Hash : Type}

/-- The wait before the next attempt, doubling from a quarter second up to half a minute. -/
def retryDelayNs (attempts : ℕ) : ℕ :=
  min 30000000000 (250000000 * 2 ^ min (attempts - 1) 7)

def PeerDelivery.attempted (nowNs : ℕ) (error : Option String) (row : PeerDelivery d) :
    PeerDelivery d :=
  { row with
    attempts := row.attempts + 1
    nextAttemptNs := match error with
      | none => 0
      | some _ => min maxResource (nowNs + retryDelayNs (row.attempts + 1))
    lastAttemptNs := some nowNs
    deliveredAtNs := match error with
      | none => some nowNs
      | some _ => none
    lastError := error }

/-- `_record_attempt`: note that a delivery succeeded, or the class of the error it failed with. -/
def recordAttempt (recordKind : RecordKind) (recordId targetWarden : String) (nowNs : ℕ)
    (error : Option String) (db : Database d Hash) : Outcome (Database d Hash × Response d) :=
  writeTransaction db fun db => do
    let key := (recordKind, recordId, targetWarden)
    let row ← orError (db.peerDeliveries.lookup key)
      (.storage "durable peer delivery record disappeared")
    if row.supersededAtNs.isSome then pure (db, .done)
    else pure ({ db with
      peerDeliveries := db.peerDeliveries.insert key (row.attempted nowNs error) }, .done)

abbrev DeliveryOrder := String ×ₗ ℕ ×ₗ String

instance : LawfulBEq DeliveryOrder := inferInstance

def deliveryOrder (key : RecordKind × String × String) (row : PeerDelivery d) : DeliveryOrder :=
  toLex (key.2.2, toLex (row.streamPosition, key.2.1))

namespace Database

def CoveredTransfer (db : Database d Hash) (key : RecordKind × String × String)
    (row : PeerDelivery d) : Bool :=
  key.1 = .transfer ∧ row.deliveredAtNs.isSome ∧
    db.peerDeliveries.anyRow (fun key' row' => key'.1 = .checkpoint ∧ key'.2.2 = key.2.2 ∧
      row'.deliveredAtNs.isSome ∧ row.streamPosition ≤ row'.streamPosition) = true

def TerminalRecord (db : Database d Hash) (key : RecordKind × String × String)
    (row : PeerDelivery d) : Bool :=
  (key.1 = .revocation ∧ (row.deliveredAtNs.isSome ∨ row.supersededAtNs.isSome)) ∨
    (key.1 = .checkpoint ∧ (row.supersededAtNs.isSome ∨ (row.deliveredAtNs.isSome ∧
      db.peerDeliveries.anyRow (fun key' row' => key'.1 = .transfer ∧ key'.2.2 = key.2.2 ∧
        row'.deliveredAtNs.isSome ∧ row'.streamPosition ≤ row.streamPosition) = false)))

def pruneDeliveries (p : RecordKind × String × String → PeerDelivery d → Bool) (kind : RecordKind)
    (n : ℕ) (db : Database d Hash) : Database d Hash × ℕ :=
  let pruned := db.peerDeliveries.batch deliveryOrder (fun key row => p key row ∧ key.1 = kind) n
  ({ db with
      peerDeliveries := db.peerDeliveries.filterRows fun key row =>
        ¬(p key row ∧ key.1 = kind ∧ deliveryOrder key row ∈ pruned) },
    pruned.length)

end Database

/-- `_prune_terminal`; the record kinds are taken in the order of their names. -/
def pruneTerminal (batchSize : ℕ) (db : Database d Hash) :
    Outcome (Database d Hash × Response d) :=
  writeTransaction db fun db => do
    let (db, removed) := db.pruneDeliveries db.CoveredTransfer .transfer batchSize
    let terminal := db.TerminalRecord
    let (db, removed') := db.pruneDeliveries terminal .checkpoint (batchSize - removed)
    let (db, _) := db.pruneDeliveries terminal .revocation (batchSize - removed - removed')
    pure (db, .done)

/-- `_prune_compacted_transfer_history`: transfers and acknowledgements that a checkpoint has
compacted. -/
def pruneCompactedTransferHistory (batchSize : ℕ) (db : Database d Hash) :
    Outcome (Database d Hash × Response d) :=
  writeTransaction db fun db => do
    let compactedOut := fun (key : String × ℕ) =>
      (db.outgoingStreams.lookup key.1).any fun stream => key.2 ≤ stream.compactedThrough
    let compactedIn := fun (key : String × ℕ) =>
      (db.inboundStreams.lookup key.1).any fun stream => key.2 ≤ stream.compactedThrough
    let transfers : List (String ×ₗ ℕ) :=
      db.outgoingTransfers.batch (fun key _ => toLex key) (fun key _ => compactedOut key) batchSize
    let acks : List (String ×ₗ ℕ) :=
      db.inboundAcks.batch (fun key _ => toLex key) (fun key _ => compactedIn key)
        (batchSize - transfers.length)
    pure ({ db with
      outgoingTransfers := db.outgoingTransfers.filterRows fun key _ => toLex key ∉ transfers
      inboundAcks := db.inboundAcks.filterRows fun key _ => toLex key ∉ acks }, .done)

section Spec

variable {db db' : Database d Hash} {out : Response d}

/-- The delivery records once an attempt is noted; one that was superseded meanwhile stays as it
is. -/
inductive Attempts (key : RecordKind × String × String) (nowNs : ℕ) (error : Option String)
    (deliveries : PeerDeliveries d) : PeerDeliveries d → Prop
  | superseded {row : PeerDelivery d} (row_eq : deliveries.lookup key = some row)
      (superseded : row.supersededAtNs.isSome = true) :
      Attempts key nowNs error deliveries deliveries
  | noted {row : PeerDelivery d} (row_eq : deliveries.lookup key = some row)
      (current : row.supersededAtNs = none) :
      Attempts key nowNs error deliveries
        (deliveries.insert key (row.attempted nowNs error))

theorem recordAttempt_ok {recordKind : RecordKind} {recordId targetWarden : String} {nowNs : ℕ}
    {error : Option String}
    (h : recordAttempt recordKind recordId targetWarden nowNs error db = .ok (db', out)) :
    db'.Conserved ∧ out = .done ∧ ∃ deliveries,
      Attempts (recordKind, recordId, targetWarden) nowNs error db.peerDeliveries deliveries ∧
        db' = { db with peerDeliveries := deliveries } := by
  obtain ⟨h, hcons⟩ := writeTransaction_ok h
  simp only [bind_ok_iff, orError_ok_iff] at h
  obtain ⟨row, hrow, h⟩ := h
  refine ⟨hcons, ?_⟩
  split_ifs at h with hsuperseded
  · obtain ⟨rfl, rfl⟩ := Prod.mk.inj (Except.ok.inj h)
    exact ⟨rfl, db.peerDeliveries, .superseded hrow hsuperseded, rfl⟩
  · obtain ⟨rfl, rfl⟩ := Prod.mk.inj (Except.ok.inj h)
    exact ⟨rfl, _, .noted hrow (Option.not_isSome_iff_eq_none.mp hsuperseded), rfl⟩

/-- A checkpoint of the stream of a transfer that reaches it has been delivered. -/
def CheckpointReaches (deliveries : PeerDeliveries d) (key : RecordKind × String × String)
    (row : PeerDelivery d) : Prop :=
  ∃ key' row', deliveries.lookup key' = some row' ∧ key'.1 = .checkpoint ∧ key'.2.2 = key.2.2 ∧
    row'.deliveredAtNs.isSome = true ∧ row.streamPosition ≤ row'.streamPosition

/-- The delivery records after pruning: no other is changed, and no transfer goes that is not
delivered and reached by a checkpoint. -/
structure Prunes (deliveries pruned : PeerDeliveries d) : Prop where
  kept : ∀ key row, pruned.lookup key = some row → deliveries.lookup key = some row
  transfer : ∀ key row, deliveries.lookup key = some row → key.1 = .transfer →
    pruned.lookup key = some row ∨
      row.deliveredAtNs.isSome = true ∧ CheckpointReaches deliveries key row

theorem Prunes.trans {deliveries₁ deliveries₂ deliveries₃ : PeerDeliveries d}
    (h : Prunes deliveries₁ deliveries₂) (h' : Prunes deliveries₂ deliveries₃) :
    Prunes deliveries₁ deliveries₃ where
  kept key row hrow := h.kept key row (h'.kept key row hrow)
  transfer key row hrow hkind := by
    rcases h.transfer key row hrow hkind with hkept | hdelivered
    · refine (h'.transfer key row hkept hkind).imp id fun ⟨hdelivered, hreached⟩ => ?_
      obtain ⟨key', row', hrow', hcheckpoint⟩ := hreached
      exact ⟨hdelivered, key', row', h.kept key' row' hrow', hcheckpoint⟩
    · exact .inr hdelivered

theorem prunes_pruneDeliveries {p : RecordKind × String × String → PeerDelivery d → Bool}
    {kind : RecordKind} {n : ℕ}
    (hp : ∀ key row, p key row = true → key.1 = .transfer → kind = .transfer →
      row.deliveredAtNs.isSome = true ∧ CheckpointReaches db.peerDeliveries key row) :
    Prunes db.peerDeliveries (db.pruneDeliveries p kind n).1.peerDeliveries where
  kept key row hrow := by
    rw [Database.pruneDeliveries, Table.lookup_filterRows, Option.filter_eq_some_iff] at hrow
    exact hrow.1
  transfer key row hrow hkind := by
    rw [Database.pruneDeliveries, Table.lookup_filterRows, hrow]
    by_cases hpruned : p key row = true ∧ key.1 = kind
    · exact .inr (hp key row hpruned.1 hkind (hpruned.2.symm.trans hkind))
    · refine .inl (Option.filter_eq_some_iff.mpr ⟨rfl, decide_eq_true fun h => ?_⟩)
      exact hpruned ⟨h.1, h.2.1⟩

theorem pruneTerminal_ok {batchSize : ℕ} (h : pruneTerminal batchSize db = .ok (db', out)) :
    db'.Conserved ∧ out = .done ∧ ∃ deliveries, Prunes db.peerDeliveries deliveries ∧
      db' = { db with peerDeliveries := deliveries } := by
  obtain ⟨h, hcons⟩ := writeTransaction_ok h
  obtain ⟨rfl, rfl⟩ := Prod.mk.inj (Except.ok.inj h)
  refine ⟨hcons, rfl, _, ?_, rfl⟩
  have hcovered : Prunes db.peerDeliveries
      (db.pruneDeliveries db.CoveredTransfer .transfer batchSize).1.peerDeliveries :=
    prunes_pruneDeliveries fun key row hcovered _ _ => by
      obtain ⟨_, hdelivered, hany⟩ := of_decide_eq_true hcovered
      obtain ⟨key', row', hrow', hreaches⟩ := Table.anyRow_iff.mp hany
      exact ⟨hdelivered, key', row', hrow', of_decide_eq_true hreaches⟩
  have hother (kind : RecordKind) (hkind : kind ≠ .transfer) (db : Database d Hash)
      (p : RecordKind × String × String → PeerDelivery d → Bool) (n : ℕ) :
      Prunes db.peerDeliveries (db.pruneDeliveries p kind n).1.peerDeliveries :=
    prunes_pruneDeliveries fun _ _ _ _ htransfer => absurd htransfer hkind
  exact hcovered.trans ((hother .checkpoint (by simp) _ _ _).trans (hother .revocation (by simp) _ _ _))

theorem pruneCompactedTransferHistory_ok {batchSize : ℕ}
    (h : pruneCompactedTransferHistory batchSize db = .ok (db', out)) :
    db'.Conserved ∧ out = .done ∧ ∃ keepTransfer keepAck : String × ℕ → Bool,
      (∀ key, keepAck key = false → ∃ stream, db.inboundStreams.lookup key.1 = some stream ∧
        key.2 ≤ stream.compactedThrough) ∧
      (∀ key, keepTransfer key = false → ∃ stream,
        db.outgoingStreams.lookup key.1 = some stream ∧ key.2 ≤ stream.compactedThrough) ∧
      db' = { db with
        outgoingTransfers := db.outgoingTransfers.filterRows fun key _ => keepTransfer key
        inboundAcks := db.inboundAcks.filterRows fun key _ => keepAck key } := by
  obtain ⟨h, hcons⟩ := writeTransaction_ok h
  obtain ⟨rfl, rfl⟩ := Prod.mk.inj (Except.ok.inj h)
  refine ⟨hcons, rfl, _, _, fun key hkey => ?_, fun key hkey => ?_, rfl⟩
  all_goals
    simp only [decide_not, Bool.not_eq_false', decide_eq_true_eq] at hkey
    obtain ⟨key', row, _, hcompacted, heq⟩ := Table.exists_of_mem_batch hkey
    obtain rfl : key' = key := toLex_inj.mp heq
    obtain ⟨stream, hstream, hle⟩ := (Option.any_eq_true _ _).mp hcompacted
    exact ⟨stream, hstream, of_decide_eq_true hle⟩

end Spec

end Lets
