import Lets.Library.Runs
import Lets.PeerHeads
import Lets.Sample

set_option autoImplicit false

/-!
# The table of heads, row by row

Whatever is done to the delivery records is done by statements that write one row after the other,
and triggers keep the table of heads beside them.
-/

namespace Lets

open Library

variable {d : ℕ} {Hash : Type}

/-- The triggers `peer_delivery_head_insert`, `peer_delivery_head_terminal_update` and
`peer_delivery_head_delete`, and the foreign key of the heads. -/
def peerDeliveryTriggers (d : ℕ) : IndexTriggers (RecordKind × String × String) (PeerDelivery d)
    (String × RecordKind × String) (ℕ ×ₗ ℕ ×ₗ String) String where
  toQueueing := peerDeliveryHeads d
  fires old new :=
    new.deliveredAtNs ≠ old.deliveredAtNs ∨ new.supersededAtNs ≠ old.supersededAtNs
  refers key queue head :=
    queue.2.1 = key.1 ∧ (peerDeliveryHeads d).name head = key.2.1 ∧ queue.1 = key.2.2
  fires_of_ne := by
    intro old new hne
    rw [decide_eq_true_iff]
    by_contra hsame
    rw [not_or, not_not, not_not] at hsame
    apply hne
    simp only [peerDeliveryHeads, hsame]
  refers_iff := by
    intro key key' row
    rw [decide_eq_true_iff]
    exact ⟨fun h => Prod.ext h.1 (Prod.ext h.2.1 h.2.2), fun h => by rw [h]; exact ⟨rfl, rfl, rfl⟩⟩

abbrev DeliveryChange (d : ℕ) := RowChange (RecordKind × String × String) (PeerDelivery d)

structure DeliveryStore (d : ℕ) (Hash : Type) where
  database : Database d Hash
  heads : Table (String × RecordKind × String) (ℕ ×ₗ ℕ ×ₗ String)

namespace DeliveryStore

def indexed (s : DeliveryStore d Hash) :
    Indexed (RecordKind × String × String) (PeerDelivery d) (String × RecordKind × String)
      (ℕ ×ₗ ℕ ×ₗ String) :=
  ⟨s.database.peerDeliveries, s.heads⟩

def write (changes : List (DeliveryChange d)) (s : DeliveryStore d Hash) : DeliveryStore d Hash :=
  let written := (peerDeliveryTriggers d).writeAll changes s.indexed
  { database := { s.database with peerDeliveries := written.rows }, heads := written.index }

end DeliveryStore

inductive DeliveryOperation (d : ℕ)
  | enqueue (recordKind : RecordKind) (recordId targetWarden orderingKey : String)
      (streamPosition : ℕ) (payload : SignedRecord d) (nowNs : ℕ) (supersedeOlder : Bool)
  | recordAttempt (recordKind : RecordKind) (recordId targetWarden : String) (nowNs : ℕ)
      (error : Option String)
  | pruneTerminal (batchSize : ℕ)

namespace Database

def superseding (recordKind : RecordKind) (targetWarden orderingKey : String) (nowNs : ℕ)
    (db : Database d Hash) : List (DeliveryChange d) :=
  (db.peerDeliveries.entries.filter fun e => e.1.1 = recordKind ∧ e.1.2.2 = targetWarden ∧
      e.2.orderingKey = orderingKey ∧ e.2.deliveredAtNs = none ∧ e.2.supersededAtNs = none).map
    fun e => .update e.1 (PeerDelivery.supersededBy recordKind targetWarden orderingKey nowNs e.1 e.2)

def pruning (p : RecordKind × String × String → PeerDelivery d → Bool) (kind : RecordKind) (n : ℕ)
    (db : Database d Hash) : List (DeliveryChange d) :=
  let pruned := db.peerDeliveries.batch deliveryOrder (fun key row => p key row ∧ key.1 = kind) n
  (db.peerDeliveries.entries.filter fun e =>
    p e.1 e.2 ∧ e.1.1 = kind ∧ deliveryOrder e.1 e.2 ∈ pruned).map fun e => .delete e.1

end Database

def DeliveryOperation.changes (db : Database d Hash) :
    DeliveryOperation d → List (DeliveryChange d) × Outcome Unit
  | enqueue recordKind recordId targetWarden orderingKey streamPosition payload nowNs
      supersedeOlder =>
    let superseding :=
      if supersedeOlder then db.superseding recordKind targetWarden orderingKey nowNs else []
    if (recordKind, recordId, targetWarden) ∈ db.peerDeliveries then
      (superseding, .error (.integrity "UNIQUE constraint failed: peer_delivery_state"))
    else
      (superseding ++ [.insert (recordKind, recordId, targetWarden)
        (PeerDelivery.queued orderingKey streamPosition payload nowNs)], .ok ())
  | recordAttempt recordKind recordId targetWarden nowNs error =>
    match db.peerDeliveries.lookup (recordKind, recordId, targetWarden) with
    | none => ([], .error (.storage "durable peer delivery record disappeared"))
    | some row =>
      if row.supersededAtNs.isSome then ([], .ok ())
      else ([.update (recordKind, recordId, targetWarden) (row.attempted nowNs error)], .ok ())
  | pruneTerminal batchSize =>
    let (db₁, removed) := db.pruneDeliveries db.CoveredTransfer .transfer batchSize
    let (db₂, removed') :=
      db₁.pruneDeliveries db₁.TerminalRecord .checkpoint (batchSize - removed)
    (db.pruning db.CoveredTransfer .transfer batchSize ++
      db₁.pruning db₁.TerminalRecord .checkpoint (batchSize - removed) ++
      db₂.pruning db₁.TerminalRecord .revocation (batchSize - removed - removed'), .ok ())

/-- The same operation as the warden makes it, on the table as a whole. -/
def DeliveryOperation.serve (db : Database d Hash) :
    DeliveryOperation d → Outcome (Database d Hash)
  | enqueue recordKind recordId targetWarden orderingKey streamPosition payload nowNs
      supersedeOlder =>
    db.enqueuePeerDelivery recordKind recordId targetWarden orderingKey streamPosition payload nowNs
      supersedeOlder
  | recordAttempt recordKind recordId targetWarden nowNs error =>
    (Lets.recordAttempt recordKind recordId targetWarden nowNs error db).map Prod.fst
  | pruneTerminal batchSize => (Lets.pruneTerminal batchSize db).map Prod.fst

namespace DeliveryStore

/-- One transaction: what it has written stays if it succeeds, and is rolled back if it fails. -/
def exec (operation : DeliveryOperation d) (s : DeliveryStore d Hash) : DeliveryStore d Hash :=
  match operation.changes s.database with
  | (changes, .ok ()) => s.write changes
  | (_, .error _) => s

def system (d : ℕ) (Hash : Type) : System (DeliveryStore d Hash) (DeliveryOperation d) where
  Init s := s.database.peerDeliveries = ∅ ∧ s.heads = ∅
  Step s operation s' := s' = s.exec operation

/-- A record of a stream that is neither delivered nor superseded. -/
structure Pending (s : DeliveryStore d Hash) (targetWarden : String) (recordKind : RecordKind)
    (orderingKey recordId : String) (row : PeerDelivery d) : Prop where
  row_eq : s.database.peerDeliveries.lookup (recordKind, recordId, targetWarden) = some row
  stream : row.orderingKey = orderingKey
  undelivered : row.deliveredAtNs = none
  current : row.supersededAtNs = none

/-- For every stream the table has its least pending record, and nothing where none is pending. -/
def HeadsExact (s : DeliveryStore d Hash) : Prop :=
  ∀ targetWarden recordKind orderingKey,
    (∀ head, s.heads.lookup (targetWarden, recordKind, orderingKey) = some head ↔
      (∃ recordId row, s.Pending targetWarden recordKind orderingKey recordId row ∧
        head = toLex (row.streamPosition, toLex (row.createdAtNs, recordId))) ∧
      ∀ recordId row, s.Pending targetWarden recordKind orderingKey recordId row →
        head ≤ toLex (row.streamPosition, toLex (row.createdAtNs, recordId))) ∧
    (s.heads.lookup (targetWarden, recordKind, orderingKey) = none ↔
      ∀ recordId row, ¬ s.Pending targetWarden recordKind orderingKey recordId row)

variable {s s' : DeliveryStore d Hash} {operation : DeliveryOperation d}

variable {targetWarden orderingKey : String} {recordKind : RecordKind}
  {key : RecordKind × String × String}

theorem waits_iff {row : PeerDelivery d} :
    (peerDeliveryHeads d).Waits s.database.peerDeliveries (targetWarden, recordKind, orderingKey) key
        row ↔
      ∃ recordId, key = (recordKind, recordId, targetWarden) ∧
        s.Pending targetWarden recordKind orderingKey recordId row := by
  obtain ⟨kind, recordId, target⟩ := key
  simp only [Queueing.Waits, peerDeliveryHeads, Bool.and_eq_true, Option.isNone_iff_eq_none,
    Prod.mk.injEq]
  constructor
  · rintro ⟨hrow, ⟨hundelivered, hcurrent⟩, rfl, rfl, hstream⟩
    exact ⟨recordId, ⟨rfl, rfl, rfl⟩, hrow, hstream, hundelivered, hcurrent⟩
  · rintro ⟨_, ⟨rfl, rfl, rfl⟩, hrow, hstream, hundelivered, hcurrent⟩
    exact ⟨hrow, ⟨hundelivered, hcurrent⟩, rfl, rfl, hstream⟩

theorem headsExact_of_exact
    (h : (peerDeliveryHeads d).Exact s.database.peerDeliveries s.heads) : s.HeadsExact := by
  intro targetWarden recordKind orderingKey
  refine ⟨fun head => ?_, ?_⟩
  · rw [h, Queueing.headOf_eq_some_iff]
    simp only [waits_iff]
    constructor
    · rintro ⟨⟨_, row, ⟨recordId, rfl, hpending⟩, rfl⟩, hleast⟩
      exact ⟨⟨recordId, row, hpending, rfl⟩, fun recordId' row' hpending' =>
        hleast _ row' ⟨recordId', rfl, hpending'⟩⟩
    · rintro ⟨⟨recordId, row, hpending, rfl⟩, hleast⟩
      refine ⟨⟨_, row, ⟨recordId, rfl, hpending⟩, rfl⟩, ?_⟩
      rintro _ row' ⟨recordId', rfl, hpending'⟩
      exact hleast recordId' row' hpending'
  · rw [h, Queueing.headOf_eq_none_iff]
    simp only [waits_iff]
    constructor
    · exact fun hnone recordId row hpending => hnone _ row ⟨recordId, rfl, hpending⟩
    · rintro hnone _ row ⟨recordId, rfl, hpending⟩
      exact hnone recordId row hpending

/-! ### The rows of each operation -/

theorem superseded_place (recordKind : RecordKind) (targetWarden orderingKey : String) (nowNs : ℕ)
    (key : RecordKind × String × String) (row : PeerDelivery d) :
    (peerDeliveryHeads d).group key
        (PeerDelivery.supersededBy recordKind targetWarden orderingKey nowNs key row) =
      (peerDeliveryHeads d).group key row ∧
    (peerDeliveryHeads d).order key
        (PeerDelivery.supersededBy recordKind targetWarden orderingKey nowNs key row) =
      (peerDeliveryHeads d).order key row := by
  unfold PeerDelivery.supersededBy
  split_ifs
  · exact ⟨rfl, rfl⟩
  · exact ⟨rfl, rfl⟩

theorem permits_superseding (recordKind : RecordKind) (targetWarden orderingKey : String)
    (nowNs : ℕ) : (peerDeliveryTriggers d).PermitsAll
      (s.database.superseding recordKind targetWarden orderingKey nowNs) s.indexed := by
  have hmap : s.database.superseding recordKind targetWarden orderingKey nowNs =
      ((s.database.peerDeliveries.entries.filter fun e => e.1.1 = recordKind ∧
        e.1.2.2 = targetWarden ∧ e.2.orderingKey = orderingKey ∧ e.2.deliveredAtNs = none ∧
        e.2.supersededAtNs = none).map fun e =>
          (⟨e.1, PeerDelivery.supersededBy recordKind targetWarden orderingKey nowNs e.1 e.2⟩ :
            (_ : RecordKind × String × String) × PeerDelivery d)).map
        fun e => .update e.1 e.2 := by
    rw [List.map_map]
    rfl
  rw [hmap]
  refine IndexTriggers.permitsAll_updates fun e he old hold => ?_
  obtain ⟨e₀, he₀, rfl⟩ := List.mem_map.mp he
  have hrow : s.database.peerDeliveries.lookup e₀.1 = some e₀.2 :=
    Table.lookup_eq_some_iff.mpr (List.mem_of_mem_filter he₀)
  obtain rfl := some_unique hrow hold
  exact superseded_place recordKind targetWarden orderingKey nowNs e₀.1 e₀.2

variable {db : Database d Hash}

theorem mem_of_superseding {nowNs : ℕ} :
    key ∈ RowChange.applyAll (db.superseding recordKind targetWarden orderingKey nowNs)
      db.peerDeliveries ↔ key ∈ db.peerDeliveries := by
  have hnodup : (db.peerDeliveries.entries.filter fun e => e.1.1 = recordKind ∧
      e.1.2.2 = targetWarden ∧ e.2.orderingKey = orderingKey ∧ e.2.deliveredAtNs = none ∧
      e.2.supersededAtNs = none).NodupKeys :=
    db.peerDeliveries.nodupKeys.sublist (List.filter_sublist)
  rw [← AList.lookup_isSome, ← AList.lookup_isSome]
  unfold Database.superseding
  rw [RowChange.lookup_updates _ hnodup fun e he =>
    Table.lookup_eq_some_iff.mpr (List.mem_of_mem_filter he)]
  split_ifs
  · rw [Option.isSome_map]
  · rfl

theorem permits_changes (operation : DeliveryOperation d) (s : DeliveryStore d Hash) :
    (peerDeliveryTriggers d).PermitsAll (operation.changes s.database).1 s.indexed := by
  cases operation with
  | enqueue recordKind recordId targetWarden orderingKey streamPosition payload nowNs
      supersedeOlder =>
    have hfirst : (peerDeliveryTriggers d).PermitsAll (if supersedeOlder then
        s.database.superseding recordKind targetWarden orderingKey nowNs else []) s.indexed := by
      split_ifs
      · exact permits_superseding recordKind targetWarden orderingKey nowNs
      · trivial
    have hmem : ∀ key, key ∈ RowChange.applyAll (if supersedeOlder then
        s.database.superseding recordKind targetWarden orderingKey nowNs else [])
        s.database.peerDeliveries ↔ key ∈ s.database.peerDeliveries := by
      intro key
      split_ifs
      · exact mem_of_superseding
      · exact Iff.rfl
    dsimp only [DeliveryOperation.changes]
    generalize (if supersedeOlder then s.database.superseding recordKind targetWarden orderingKey
      nowNs else []) = superseding at hfirst hmem
    split_ifs with hkey
    · exact hfirst
    · refine IndexTriggers.permitsAll_append.mpr ⟨hfirst, ?_, trivial⟩
      rw [IndexTriggers.writeAll_rows]
      exact mt (hmem _).mp hkey
  | recordAttempt recordKind recordId targetWarden nowNs error =>
    dsimp only [DeliveryOperation.changes]
    split
    next => trivial
    next row hrow =>
      split_ifs
      · trivial
      · refine ⟨fun old hold => ?_, trivial⟩
        obtain rfl := some_unique hrow hold
        exact ⟨rfl, rfl⟩
  | pruneTerminal batchSize =>
    refine IndexTriggers.permitsAll_append.mpr ⟨IndexTriggers.permitsAll_append.mpr ⟨?_, ?_⟩, ?_⟩
    · exact IndexTriggers.permitsAll_deletes _ _
    · exact IndexTriggers.permitsAll_deletes _ _
    · exact IndexTriggers.permitsAll_deletes _ _

theorem exact_of_changes (h : (peerDeliveryHeads d).Exact s.database.peerDeliveries s.heads)
    (operation : DeliveryOperation d) (n : ℕ) :
    (peerDeliveryHeads d).Exact
      (s.write ((operation.changes s.database).1.take n)).database.peerDeliveries
      (s.write ((operation.changes s.database).1.take n)).heads := by
  have hexact : (peerDeliveryTriggers d).Exact s.indexed.rows s.indexed.index := h
  exact IndexTriggers.exact_writeAll hexact (permits_changes operation s) n

theorem exact_exec (h : (peerDeliveryHeads d).Exact s.database.peerDeliveries s.heads)
    (operation : DeliveryOperation d) :
    (peerDeliveryHeads d).Exact (s.exec operation).database.peerDeliveries
      (s.exec operation).heads := by
  have hall := exact_of_changes h operation (operation.changes s.database).1.length
  rw [List.take_length] at hall
  unfold exec
  generalize operation.changes s.database = written at hall
  obtain ⟨changes, result⟩ := written
  cases result with
  | ok u => exact hall
  | error e => exact h

theorem exact_of_reachable (h : (system d Hash).Reachable s) :
    (peerDeliveryHeads d).Exact s.database.peerDeliveries s.heads := by
  refine System.Reachable.invariant (P := fun t => (peerDeliveryHeads d).Exact
    t.database.peerDeliveries t.heads) ?_ ?_ h
  · rintro t ⟨hdeliveries, hheads⟩
    rw [hdeliveries, hheads]
    exact Queueing.exact_indexOf ∅
  · rintro t operation t' ht rfl
    exact exact_exec ht operation

/-! ### The same records as the operations of the warden leave -/

def Agrees (s : DeliveryStore d Hash) (db : Database d Hash) : Prop :=
  ∀ key, s.database.peerDeliveries.lookup key = db.peerDeliveries.lookup key

theorem write_deliveries (changes : List (DeliveryChange d)) (s : DeliveryStore d Hash) :
    (s.write changes).database.peerDeliveries =
      RowChange.applyAll changes s.database.peerDeliveries :=
  IndexTriggers.writeAll_rows changes s.indexed

theorem lookup_superseding (recordKind : RecordKind) (targetWarden orderingKey : String) (nowNs : ℕ)
    (db : Database d Hash) (key : RecordKind × String × String) :
    (RowChange.applyAll (db.superseding recordKind targetWarden orderingKey nowNs)
        db.peerDeliveries).lookup key =
      (db.peerDeliveries.mapRows
        (PeerDelivery.supersededBy recordKind targetWarden orderingKey nowNs)).lookup key := by
  have hnodup : (db.peerDeliveries.entries.filter fun e => e.1.1 = recordKind ∧
      e.1.2.2 = targetWarden ∧ e.2.orderingKey = orderingKey ∧ e.2.deliveredAtNs = none ∧
      e.2.supersededAtNs = none).NodupKeys :=
    db.peerDeliveries.nodupKeys.sublist List.filter_sublist
  unfold Database.superseding
  rw [RowChange.lookup_updates _ hnodup fun e he =>
    Table.lookup_eq_some_iff.mpr (List.mem_of_mem_filter he), Table.lookup_mapRows]
  split_ifs with hkey
  · rfl
  · -- a row that is not written is one that superseding leaves as it is
    cases hrow : db.peerDeliveries.lookup key with
    | none => rfl
    | some row =>
      have hother : PeerDelivery.supersededBy recordKind targetWarden orderingKey nowNs key row =
          row := by
        refine if_neg fun hcond => hkey ?_
        refine List.mem_keys.mpr ⟨row, List.mem_filter.mpr ?_⟩
        exact ⟨Table.lookup_eq_some_iff.mp hrow, decide_eq_true hcond⟩
      rw [Option.map_some, hother]

theorem exec_enqueue {recordId : String} {streamPosition nowNs : ℕ} {payload : SignedRecord d}
    {supersedeOlder : Bool}
    (h : s.database.enqueuePeerDelivery recordKind recordId targetWarden orderingKey streamPosition
      payload nowNs supersedeOlder = .ok db) :
    (s.exec (.enqueue recordKind recordId targetWarden orderingKey streamPosition payload nowNs
      supersedeOlder)).Agrees db := by
  obtain ⟨hnew, rfl⟩ := Database.enqueuePeerDelivery_ok_iff.mp h
  intro key
  have hexec : s.exec (.enqueue recordKind recordId targetWarden orderingKey streamPosition payload
      nowNs supersedeOlder) = s.write ((if supersedeOlder then
        s.database.superseding recordKind targetWarden orderingKey nowNs else []) ++
          [.insert (recordKind, recordId, targetWarden)
            (PeerDelivery.queued orderingKey streamPosition payload nowNs)]) := by
    simp only [exec, DeliveryOperation.changes, hnew, if_false]
  rw [hexec, write_deliveries, RowChange.applyAll_append]
  change AList.lookup key (AList.insert _ _ _) = AList.lookup key (AList.insert _ _ _)
  rw [Table.lookup_insert_eq, Table.lookup_insert_eq]
  cases supersedeOlder with
  | false => rfl
  | true =>
    simp only [if_true]
    rw [lookup_superseding]

theorem exec_recordAttempt {recordId : String} {nowNs : ℕ} {error : Option String}
    {out : Response d}
    (h : recordAttempt recordKind recordId targetWarden nowNs error s.database = .ok (db, out)) :
    (s.exec (.recordAttempt recordKind recordId targetWarden nowNs error)).Agrees db := by
  obtain ⟨_, _, deliveries, hattempts, rfl⟩ := recordAttempt_ok h
  intro key
  cases hattempts with
  | superseded row_eq superseded =>
    simp only [exec, DeliveryOperation.changes, row_eq, superseded, if_true]
    rfl
  | @noted row row_eq current =>
    have hin : (recordKind, recordId, targetWarden) ∈ s.database.peerDeliveries :=
      Table.mem_of_lookup row_eq
    have hexec : s.exec (.recordAttempt recordKind recordId targetWarden nowNs error) =
        s.write [.update (recordKind, recordId, targetWarden) (row.attempted nowNs error)] := by
      simp only [exec, DeliveryOperation.changes, row_eq, current, Option.isSome_none,
        Bool.false_eq_true, if_false]
    rw [hexec, write_deliveries]
    change AList.lookup key (if _ ∈ s.database.peerDeliveries then _ else _) = _
    rw [if_pos hin]

theorem lookup_pruning (p : RecordKind × String × String → PeerDelivery d → Bool) (kind : RecordKind)
    (n : ℕ) (db : Database d Hash) {rows : PeerDeliveries d}
    (hrows : ∀ key, rows.lookup key = db.peerDeliveries.lookup key)
    (key : RecordKind × String × String) :
    (RowChange.applyAll (db.pruning p kind n) rows).lookup key =
      (db.pruneDeliveries p kind n).1.peerDeliveries.lookup key := by
  unfold Database.pruning Database.pruneDeliveries
  rw [RowChange.lookup_deleteRows (fun key row => decide (p key row = true ∧ key.1 = kind ∧
    deliveryOrder key row ∈ db.peerDeliveries.batch deliveryOrder
      (fun key row => p key row ∧ key.1 = kind) n)) hrows]
  simp only [decide_not]

theorem exec_pruneTerminal {batchSize : ℕ} {out : Response d}
    (h : pruneTerminal batchSize s.database = .ok (db, out)) :
    (s.exec (.pruneTerminal batchSize)).Agrees db := by
  obtain ⟨h, _⟩ := writeTransaction_ok h
  obtain ⟨rfl, rfl⟩ := Prod.mk.inj (Except.ok.inj h)
  intro key
  change (s.write _).database.peerDeliveries.lookup key = _
  rw [write_deliveries, RowChange.applyAll_append, RowChange.applyAll_append]
  refine lookup_pruning _ _ _ _ (fun key => lookup_pruning _ _ _ _ (fun key => ?_) key) key
  exact lookup_pruning _ _ _ _ (fun _ => rfl) key

end DeliveryStore

/-- The table of heads has for every stream exactly the least of its pending records, and no row where
none is pending: from an empty store on, after every row that queueing a record, noting an attempt and
pruning write, and after any other rows that the table lets through. -/
theorem peer_delivery_heads_exact {s : DeliveryStore d Hash}
    (hs : (DeliveryStore.system d Hash).Reachable s) :
    s.HeadsExact ∧
    (∀ (operation : DeliveryOperation d) (n : ℕ),
      (s.write ((operation.changes s.database).1.take n)).HeadsExact) ∧
    ∀ changes : List (DeliveryChange d), (peerDeliveryTriggers d).PermitsAll changes s.indexed →
      ∀ n, (s.write (changes.take n)).HeadsExact := by
  have hexact := DeliveryStore.exact_of_reachable hs
  refine ⟨DeliveryStore.headsExact_of_exact hexact, fun operation n => ?_,
    fun changes hpermits n => ?_⟩
  · exact DeliveryStore.headsExact_of_exact (DeliveryStore.exact_of_changes hexact operation n)
  · have htriggers : (peerDeliveryTriggers d).Exact s.indexed.rows s.indexed.index := hexact
    exact DeliveryStore.headsExact_of_exact (IndexTriggers.exact_writeAll htriggers hpermits n)

namespace Sample

/-- Three transfers are queued for one peer, the second before the first; then that one is delivered
and pruning finds nothing to do. -/
def deliveryOperations : List (DeliveryOperation 1) :=
  [.enqueue .transfer "x2" "b" "b" 2 (.voucher (voucher 2 "x2")) 1 false,
    .enqueue .transfer "x1" "b" "b" 1 (.voucher (voucher 1 "x1")) 2 false,
    .enqueue .transfer "x3" "b" "b" 3 (.voucher (voucher 3 "x3")) 3 false,
    .recordAttempt .transfer "x1" "b" 4 none, .pruneTerminal 8]

def deliveryStore : DeliveryStore 1 ℕ :=
  deliveryOperations.foldl (fun s operation => s.exec operation) ⟨genesis "a" 6, ∅⟩

theorem deliveryStore_reachable : (DeliveryStore.system 1 ℕ).Reachable deliveryStore := by
  have hrun : ∀ (l : List (DeliveryOperation 1)) (s : DeliveryStore 1 ℕ),
      (DeliveryStore.system 1 ℕ).Run s l (l.foldl (fun s operation => s.exec operation) s) := by
    intro l
    induction l with
    | nil => exact fun s => .nil s
    | cons operation rest ih => exact fun s => .cons rfl (ih _)
  exact ⟨_, _, ⟨rfl, rfl⟩, hrun deliveryOperations _⟩

end Sample

open Sample

theorem peer_delivery_heads_exact_queue :
    deliveryStore.heads.lookup ("b", .transfer, "b") = some (toLex (2, toLex (1, "x2"))) ∧
      deliveryStore.HeadsExact :=
  ⟨by decide +kernel, (peer_delivery_heads_exact deliveryStore_reachable).1⟩

/-- In every state of the store, what an operation writes row by row, with the triggers firing, are
the records that the same operation of the warden leaves, and the heads are exact for them. -/
theorem delivery_rows_agree {s : DeliveryStore d Hash} {operation : DeliveryOperation d}
    {db : Database d Hash} (hs : (DeliveryStore.system d Hash).Reachable s)
    (h : operation.serve s.database = .ok db) :
    (s.exec operation).Agrees db ∧ (s.exec operation).HeadsExact := by
  have hexact := DeliveryStore.exact_exec (DeliveryStore.exact_of_reachable hs) operation
  refine ⟨?_, DeliveryStore.headsExact_of_exact hexact⟩
  cases operation with
  | enqueue => exact DeliveryStore.exec_enqueue h
  | recordAttempt =>
    obtain ⟨out, hok⟩ := exists_of_map_fst h
    exact DeliveryStore.exec_recordAttempt hok
  | pruneTerminal =>
    obtain ⟨out, hok⟩ := exists_of_map_fst h
    exact DeliveryStore.exec_pruneTerminal hok

theorem delivery_rows_agree_delivered : ∃ db,
    (DeliveryOperation.recordAttempt .transfer "x2" "b" 5 none).serve
      deliveryStore.database = .ok db ∧
    (deliveryStore.exec (.recordAttempt .transfer "x2" "b" 5 none)).Agrees db := by
  have hok : ((DeliveryOperation.recordAttempt .transfer "x2" "b" 5 none).serve
      deliveryStore.database).toOption.isSome = true := by decide +kernel
  generalize hserve : DeliveryOperation.serve _ _ = served at hok
  cases served with
  | ok db => exact ⟨db, rfl, (delivery_rows_agree deliveryStore_reachable hserve).1⟩
  | error e => cases hok

end Lets
