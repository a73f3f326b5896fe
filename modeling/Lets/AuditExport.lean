import Lets.Library.Numbered
import Lets.AuditLog

set_option autoImplicit false

/-!
# The audit exporter

The exporter copies the audit log of a warden to an archive in another database, row by row, and
marks in the warden's outbox what has arrived there.
-/

namespace Lets

open Library

variable {d : ℕ}

/-! ### The archive -/

structure ExportKey where
  wardenId : String
  tenantId : String
  envelopeId : String
  configEpoch : ℕ
  databaseInstanceId : Bytes
  deriving DecidableEq

structure AuditExportRecord where
  key : ExportKey
  row : StoredAuditRow
  deriving DecidableEq

structure AuditArchiveHead where
  sequence : ℤ
  eventHash : Bytes
  deriving DecidableEq

def StoredAuditRow.head (row : StoredAuditRow) : AuditArchiveHead := ⟨row.sequence, row.eventHash⟩

abbrev AuditArchive := ExportKey → List StoredAuditRow

namespace AuditArchive

def expectedNext (rows : List StoredAuditRow) : ℤ × Bytes :=
  match rows.getLast? with
  | none => (0, zeroBytes)
  | some prior => (prior.sequence + 1, prior.eventHash)

def publish (record : AuditExportRecord) (archive : AuditArchive) : Outcome AuditArchive :=
  let rows := archive record.key
  match rows.find? (fun row => row.sequence = record.row.sequence) with
  | some existing => do
    require (existing = record.row)
      (.conflict "audit archive sequence is bound to different content")
    pure archive
  | none => do
    require ((record.row.sequence, record.row.previousHash) = expectedNext rows)
      (.conflict "audit archive requires one contiguous hash-chain successor")
    pure (Function.update archive record.key (rows ++ [record.row]))

def head (archive : AuditArchive) (key : ExportKey) : Option AuditArchiveHead :=
  (archive key).getLast?.map StoredAuditRow.head

end AuditArchive

/-! ### The outbox -/

/-- A row of `audit_outbox`, keyed by its sequence. -/
structure OutboxRow where
  eventHash : Bytes
  payload : Bytes
  createdAtNs : ℤ
  publishedAtNs : Option ℕ
  attempts : ℕ
  lastError : Option String
  deriving DecidableEq

abbrev Outbox := Table ℤ OutboxRow

namespace Outbox

def insertEvent (outbox : Outbox) (row : StoredAuditRow) : Outbox :=
  outbox.insert row.sequence
    { eventHash := row.eventHash
      payload := row.payload
      createdAtNs := row.createdAtNs
      publishedAtNs := none
      attempts := 0
      lastError := none }

def markPublished (nowNs : ℕ) (row : OutboxRow) : OutboxRow :=
  { row with publishedAtNs := some nowNs, attempts := row.attempts + 1, lastError := none }

def publishedTooEarly : LetsError :=
  .integrity "CHECK constraint failed: published_at_ns IS NULL OR published_at_ns >= created_at_ns"

/-- Mark the row of one published record, where it is still pending. -/
def acknowledge (nowNs : ℕ) (outbox : Outbox) (record : AuditExportRecord) : Outcome Outbox :=
  match outbox.lookup record.row.sequence with
  | none => pure outbox
  | some row =>
    if row.eventHash = record.row.eventHash ∧ row.publishedAtNs = none then do
      require (row.createdAtNs ≤ nowNs) publishedTooEarly
      pure (outbox.updateAll [record.row.sequence] fun _ row => markPublished nowNs row)
    else pure outbox

def prune (threshold : ℤ) (limit : ℕ) (outbox : Outbox) : Outbox :=
  outbox.deleteBatch (fun sequence _ => sequence)
    (fun sequence row => row.publishedAtNs.isSome && decide (sequence < threshold)) limit

def acknowledgeBatch (batchSize retainPublished nowNs : ℕ) (records : List AuditExportRecord)
    (outbox : Outbox) : Outcome Outbox :=
  if records = [] then pure outbox
  else do
    let outbox ← records.foldlM (acknowledge nowNs) outbox
    match (outbox.filterRows fun _ row => row.publishedAtNs.isSome).keys.max? with
    | none => pure outbox
    | some published =>
      let threshold := published - retainPublished + 1
      pure (if 0 < threshold then prune threshold batchSize outbox else outbox)

/-- `_acknowledge_archive_prefix`: the outbox, and whether nothing remains to be done up to the
head. -/
def acknowledgeArchivePrefix (batchSize retainPublished nowNs : ℕ) (head : AuditArchiveHead)
    (log : List StoredAuditRow) (outbox : Outbox) : Outcome (Outbox × Bool) := do
  require (outbox.anyRow (fun sequence row => decide (sequence ≤ head.sequence) &&
      log.any fun event => event.sequence = sequence && event.eventHash ≠ row.eventHash) = false)
    (.storage "audit outbox diverges from its immutable audit log")
  let pending := outbox.batch (fun sequence _ => sequence)
    (fun sequence row => decide (sequence ≤ head.sequence) && row.publishedAtNs.isNone) batchSize
  require (outbox.anyRow (fun sequence row =>
      decide (sequence ∈ pending) && decide ((nowNs : ℤ) < row.createdAtNs)) = false)
    publishedTooEarly
  let marked := outbox.updateAll pending fun _ row => markPublished nowNs row
  let threshold := head.sequence - retainPublished + 1
  let pruneBudget := batchSize - pending.length
  let pruned := if 0 < threshold ∧ 0 < pruneBudget then prune threshold pruneBudget marked
    else marked
  let remaining := pruned.anyRow fun sequence row =>
    decide (sequence ≤ head.sequence) && row.publishedAtNs.isNone
  let retained := decide (0 < threshold) && pruned.anyRow fun sequence row =>
    row.publishedAtNs.isSome && decide (sequence < threshold)
  pure (pruned, !remaining && !retained)

end Outbox

/-! ### The exporter -/

inductive ExportPhase
  | idle
  | reading
  | located (archiveHead : Option AuditArchiveHead) (continued : Bool)
  | reconciling (archiveHead : AuditArchiveHead) (records : List AuditExportRecord)
  | publishing (published remaining : List AuditExportRecord) (batch : ℕ)
  deriving DecidableEq

/-- What the process keeps in memory; a call of the archive that has been given up blocks the next
one until it has ended. -/
structure Exporter where
  continuationHead : Option AuditArchiveHead
  blockedSinkCall : Bool
  phase : ExportPhase
  deriving DecidableEq

def Exporter.initial : Exporter := ⟨none, false, .idle⟩

/-- The warden's database with its outbox, the archive, the exporter, and the records of calls that
were given up, each of which the archive may take at any later time. -/
structure ExportState (d : ℕ) where
  store : WardenStore d Bytes
  outbox : Outbox
  archive : AuditArchive
  exporter : Exporter
  late : List AuditExportRecord

def ExportState.log {d : ℕ} (s : ExportState d) : List StoredAuditRow :=
  s.store.database.auditLog.map AuditVerifier.stored

/-- How a call of the archive ends for the exporter: it returns what the archive says, it fails
before or after the archive has taken the record, or it exceeds its deadline. -/
inductive SinkOutcome
  | returns
  | fails (stored : Bool)
  | exceedsDeadline
  deriving DecidableEq

namespace ExportState

def goTo (phase : ExportPhase) (s : ExportState d) : ExportState d :=
  { s with exporter := { s.exporter with phase } }

/-- `_publish` of the next record. -/
def publishNext (published remaining : List AuditExportRecord) (batch : ℕ)
    (record : AuditExportRecord) (outcome : SinkOutcome) (s : ExportState d) : ExportState d :=
  match s.exporter.blockedSinkCall, outcome with
  -- a prior audit sink operation remains blocked
  | true, _ => s.goTo .idle
  | false, .returns =>
    match s.archive.publish record with
    | .error _ => s.goTo .idle
    | .ok archive =>
      ({ s with archive } : ExportState d).goTo (.publishing (published ++ [record]) remaining batch)
  | false, .fails stored =>
    match (if stored then s.archive.publish record else pure s.archive) with
    | .error _ => s.goTo .idle
    | .ok archive => ({ s with archive } : ExportState d).goTo .idle
  | false, .exceedsDeadline =>
    { s with
      late := record :: s.late
      exporter := { s.exporter with blockedSinkCall := true, phase := .idle } }

end ExportState

inductive ExportEvent (d : ℕ)
  | serve (clock : Reading) (operation : StoreOperation d Bytes)
  | begin
  | readHead (outcome : SinkOutcome)
  | readBatch
  | reconcile (nowNs : ℕ)
  | publish (outcome : SinkOutcome)
  | acknowledge (nowNs : ℕ)
  | fail
  | lateArrival (record : AuditExportRecord)
  | blockedEnds
  | crash

structure AuditExporter (d : ℕ) where
  verifier : AuditVerifier
  node : WardenNode d Bytes
  key : ExportKey
  batchSize : ℕ
  retainPublished : ℕ
  batchSize_pos : 0 < batchSize

namespace AuditExporter

variable (x : AuditExporter d)

/-- `AuditExportRecord`: a row that authenticates itself. -/
def exportRecord (row : StoredAuditRow) : Outcome AuditExportRecord := do
  require (row.payload ≠ []) (.validation "audit export payload must be non-empty bytes")
  match strictJsonLoads x.verifier.decoder (.bytes row.payload) with
  | .error _ => .error (.validation "audit export payload is outside LETS-CJ/1")
  | .ok (.object _) => do
    let expectedHash ← x.verifier.auditEventHash row
    require (row.eventHash = expectedHash)
      (.validation "audit export event_hash does not authenticate its record")
    pure ⟨x.key, row⟩
  | .ok _ => .error (.validation "audit export payload must be a JSON object")

/-- `_core_batch`: the rows after the head of the archive, which has to be in the log. -/
def coreBatch (archiveHead : Option AuditArchiveHead) (log : List StoredAuditRow) :
    Outcome (List AuditExportRecord) := do
  require (∀ head ∈ archiveHead, ∃ core ∈ log.getLast?, head.sequence ≤ core.sequence)
    (.storage "audit archive is ahead of the authoritative audit log")
  require (∀ head ∈ archiveHead, (log.find? fun row => row.sequence = head.sequence).map
      StoredAuditRow.eventHash = some head.eventHash)
    (.storage "audit archive diverges from the authoritative audit log")
  let afterSequence := match archiveHead with
    | none => -1
    | some head => head.sequence
  ((log.filter fun row => afterSequence < row.sequence).take x.batchSize).mapM x.exportRecord

def serve (clock : Reading) (operation : StoreOperation d Bytes) (s : ExportState d) :
    ExportState d :=
  match x.verifier.exec x.node clock operation s.store with
  | .error _ => s
  | .ok (store, _) =>
    { s with
      store
      outbox := ((store.database.auditLog.drop s.store.database.auditLog.length).map
        AuditVerifier.stored).foldl Outbox.insertEvent s.outbox }

/-- The end of a cycle that has published something: its acknowledgement, and where the next cycle
may go on without asking the archive. -/
def acknowledge (published remaining : List AuditExportRecord) (batch nowNs : ℕ)
    (s : ExportState d) : ExportState d :=
  match s.outbox.acknowledgeBatch x.batchSize x.retainPublished nowNs published with
  | .error _ => s.goTo .idle
  | .ok outbox =>
    { s with
      outbox
      exporter := { s.exporter with
        continuationHead :=
          if remaining ≠ [] ∨ batch = x.batchSize then
            published.getLast?.map fun record => record.row.head
          else none
        phase := .idle } }

def next (event : ExportEvent d) (s : ExportState d) : ExportState d :=
  match event, s.exporter.phase with
  | .serve clock operation, _ => x.serve clock operation s
  | .begin, .idle =>
    { s with exporter := { s.exporter with
      continuationHead := none
      phase := match s.exporter.continuationHead with
        | some head => .located (some head) true
        | none => .reading } }
  | .readHead outcome, .reading =>
    match s.exporter.blockedSinkCall, outcome with
    | true, _ | false, .fails _ => s.goTo .idle
    | false, .returns => s.goTo (.located (s.archive.head x.key) false)
    | false, .exceedsDeadline =>
      { s with exporter := { s.exporter with blockedSinkCall := true, phase := .idle } }
  | .readBatch, .located archiveHead continued =>
    match x.coreBatch archiveHead s.log with
    | .error _ => s.goTo .idle
    | .ok records =>
      match archiveHead, continued with
      | some head, false => s.goTo (.reconciling head records)
      | _, _ => s.goTo (.publishing [] records records.length)
  | .reconcile nowNs, .reconciling archiveHead records =>
    match s.outbox.acknowledgeArchivePrefix x.batchSize x.retainPublished nowNs archiveHead
        s.log with
    | .error _ => s.goTo .idle
    | .ok (outbox, true) =>
      ({ s with outbox } : ExportState d).goTo (.publishing [] records records.length)
    | .ok (outbox, false) => ({ s with outbox } : ExportState d).goTo .idle
  | .publish outcome, .publishing published (record :: remaining) batch =>
    s.publishNext published remaining batch record outcome
  | .acknowledge nowNs, .publishing published remaining batch =>
    x.acknowledge published remaining batch nowNs s
  | .fail, _ => s.goTo .idle
  | .lateArrival record, _ =>
    if record ∈ s.late then
      match s.archive.publish record with
      | .error _ => s
      | .ok archive => { s with archive }
    else s
  | .blockedEnds, _ => { s with exporter := { s.exporter with blockedSinkCall := false } }
  | .crash, _ => { s with exporter := .initial }
  | _, _ => s

def system (envelope : Envelope d) (signingPublicKeySha256 databaseInstanceId : Bytes) :
    System (ExportState d) (ExportEvent d) where
  Init s := s.store = .genesis x.node.service.wardenId x.node.service.keyId envelope
      signingPublicKeySha256 databaseInstanceId zeroBytes ∧
    s.outbox = ∅ ∧ s.archive x.key = [] ∧ s.exporter = .initial ∧ s.late = []
  Step s event s' := s' = x.next event s

end AuditExporter

/-! ### What happens to the outbox -/

def HasEvent (rows : List StoredAuditRow) (sequence : ℤ) (eventHash : Bytes) : Prop :=
  ∃ row ∈ rows, row.sequence = sequence ∧ row.eventHash = eventHash

theorem HasEvent.mono {rows rows' : List StoredAuditRow} {sequence : ℤ} {eventHash : Bytes}
    (h : HasEvent rows sequence eventHash) (hsub : rows ⊆ rows') :
    HasEvent rows' sequence eventHash := by
  obtain ⟨row, hrow, heq⟩ := h
  exact ⟨row, hsub hrow, heq⟩

namespace Outbox

/-- One statement on the outbox: an event of the log comes in unpublished, rows that the archive has
are marked as published, or rows so marked are deleted. -/
inductive Statement (logged archived : List StoredAuditRow) (outbox : Outbox) : Outbox → Prop
  | insert (event : StoredAuditRow) (inLog : event ∈ logged) (fresh : event.sequence ∉ outbox) :
      Statement logged archived outbox (outbox.insertEvent event)
  | mark (sequences : List ℤ) (nowNs : ℕ)
      (inArchive : ∀ sequence ∈ sequences, ∀ row, outbox.lookup sequence = some row →
        HasEvent archived sequence row.eventHash) :
      Statement logged archived outbox
        (outbox.updateAll sequences fun _ row => markPublished nowNs row)
  | delete (kept : ℤ → OutboxRow → Bool)
      (published : ∀ sequence row, outbox.lookup sequence = some row → kept sequence row = false →
        row.publishedAtNs.isSome = true) :
      Statement logged archived outbox (outbox.filterRows kept)

abbrev Transacts (logged archived : List StoredAuditRow) : Outbox → Outbox → Prop :=
  Relation.ReflTransGen (Statement logged archived)

/-- Every row is an event of the log, and every row marked as published is in the archive. -/
def Sound (logged archived : List StoredAuditRow) (outbox : Outbox) : Prop :=
  ∀ sequence row, outbox.lookup sequence = some row → HasEvent logged sequence row.eventHash ∧
    (row.publishedAtNs.isSome = true → HasEvent archived sequence row.eventHash)

variable {logged archived : List StoredAuditRow} {outbox outbox' : Outbox}

theorem Sound.mono {logged' archived' : List StoredAuditRow} (h : outbox.Sound logged archived)
    (hlogged : logged ⊆ logged') (harchived : archived ⊆ archived') :
    outbox.Sound logged' archived' := by
  intro sequence row hrow
  obtain ⟨hlog, hpublished⟩ := h sequence row hrow
  exact ⟨hlog.mono hlogged, fun hsome => (hpublished hsome).mono harchived⟩

theorem Transacts.mono {logged' archived' : List StoredAuditRow}
    (h : Transacts logged archived outbox outbox') (hlogged : logged ⊆ logged')
    (harchived : archived ⊆ archived') : Transacts logged' archived' outbox outbox' := by
  induction h with
  | refl => exact .refl
  | tail _ statement ih =>
    refine .tail ih ?_
    cases statement with
    | insert event inLog fresh => exact .insert event (hlogged inLog) fresh
    | mark sequences nowNs inArchive =>
      exact .mark sequences nowNs fun sequence hmem row hrow =>
        (inArchive sequence hmem row hrow).mono harchived
    | delete kept published => exact .delete kept published

theorem Statement.sound (h : Statement logged archived outbox outbox')
    (hsound : outbox.Sound logged archived) : outbox'.Sound logged archived := by
  intro sequence row hrow
  cases h with
  | insert event inLog _ =>
    rw [insertEvent, Table.lookup_insert_eq] at hrow
    split_ifs at hrow with heq
    · rw [← Option.some.inj hrow]
      exact ⟨⟨event, inLog, heq.symm, rfl⟩, (by simp)⟩
    · exact hsound sequence row hrow
  | mark sequences nowNs inArchive =>
    rw [Table.lookup_updateAll] at hrow
    split_ifs at hrow with hmem
    · obtain ⟨old, hold, rfl⟩ := Option.map_eq_some_iff.mp hrow
      exact ⟨(hsound sequence old hold).1, fun _ => inArchive sequence hmem old hold⟩
    · exact hsound sequence row hrow
  | delete kept _ =>
    rw [Table.lookup_filterRows, Option.filter_eq_some_iff] at hrow
    exact hsound sequence row hrow.1

theorem Transacts.sound (h : Transacts logged archived outbox outbox')
    (hsound : outbox.Sound logged archived) : outbox'.Sound logged archived := by
  induction h with
  | refl => exact hsound
  | tail _ statement ih => exact statement.sound ih

def KeptOrArchived (archived : List StoredAuditRow) (sequence : ℤ) (eventHash : Bytes)
    (outbox : Outbox) : Prop :=
  (∃ row, outbox.lookup sequence = some row ∧ row.eventHash = eventHash) ∨
    HasEvent archived sequence eventHash

theorem Statement.keptOrArchived (h : Statement logged archived outbox outbox')
    (hsound : outbox.Sound logged archived) {sequence : ℤ} {eventHash : Bytes}
    (hrow : outbox.KeptOrArchived archived sequence eventHash) :
    outbox'.KeptOrArchived archived sequence eventHash := by
  rcases hrow with ⟨row, hrow, rfl⟩ | harchived
  · cases h with
    | insert event _ fresh =>
      refine .inl ⟨row, ?_, rfl⟩
      rw [insertEvent, Table.lookup_insert_eq, if_neg]
      · exact hrow
      · rintro rfl
        exact fresh (Table.mem_of_lookup hrow)
    | mark sequences nowNs _ =>
      rw [KeptOrArchived, Table.lookup_updateAll, hrow]
      split_ifs
      · exact .inl ⟨_, rfl, rfl⟩
      · exact .inl ⟨_, rfl, rfl⟩
    | delete kept published =>
      rw [KeptOrArchived, Table.lookup_filterRows, hrow]
      by_cases hkept : kept sequence row = true
      · exact .inl ⟨row, by simp [Option.filter, hkept], rfl⟩
      · exact .inr ((hsound sequence row hrow).2
          (published sequence row hrow (by simpa using hkept)))
  · exact .inr harchived

theorem Transacts.keptOrArchived (h : Transacts logged archived outbox outbox')
    (hsound : outbox.Sound logged archived) {sequence : ℤ} {row : OutboxRow}
    (hrow : outbox.lookup sequence = some row) :
    outbox'.KeptOrArchived archived sequence row.eventHash := by
  induction h with
  | refl => exact .inl ⟨row, hrow, rfl⟩
  | tail before statement ih => exact statement.keptOrArchived (Transacts.sound before hsound) ih

theorem published_of_mem_batch {threshold sequence : ℤ} {limit : ℕ} {row : OutboxRow}
    (hrow : outbox.lookup sequence = some row)
    (hmem : sequence ∈ outbox.batch (fun sequence _ => sequence)
      (fun sequence row => row.publishedAtNs.isSome && decide (sequence < threshold)) limit) :
    row.publishedAtNs.isSome = true := by
  obtain ⟨_, row', hrow', hp, rfl⟩ := Table.exists_of_mem_batch hmem
  rw [some_unique hrow hrow']
  exact (Bool.and_eq_true_iff.mp hp).1

/-- `prune` deletes only rows that are marked as published. -/
theorem published_of_prune {threshold sequence : ℤ} {limit : ℕ} {row : OutboxRow}
    (hrow : outbox.lookup sequence = some row)
    (hgone : (prune threshold limit outbox).lookup sequence = none) :
    row.publishedAtNs.isSome = true := by
  rw [prune, Table.deleteBatch, Table.lookup_filterRows, hrow] at hgone
  exact published_of_mem_batch hrow (by simpa [Option.filter] using hgone)

theorem prune_transacts (threshold : ℤ) (limit : ℕ) :
    Transacts logged archived outbox (prune threshold limit outbox) := by
  unfold prune Table.deleteBatch
  refine .single (.delete _ fun sequence row hrow hdeleted => ?_)
  exact published_of_mem_batch hrow (by simpa using hdeleted)

theorem acknowledge_transacts {nowNs : ℕ} {record : AuditExportRecord}
    (harchived : record.row ∈ archived) :
    Ensures (acknowledge nowNs outbox record) (Transacts logged archived outbox) := by
  unfold acknowledge
  split
  · exact .pure .refl
  · next row hrow =>
    split_ifs with hpending
    · refine .next fun _ => .pure (.single (.mark _ nowNs fun sequence hmem row' hrow' => ?_))
      rw [List.mem_singleton.mp hmem, hrow] at hrow'
      rw [List.mem_singleton.mp hmem, ← Option.some.inj hrow', hpending.1]
      exact ⟨record.row, harchived, rfl, rfl⟩
    · exact .pure .refl

theorem acknowledgeBatch_transacts {batchSize retainPublished nowNs : ℕ}
    {records : List AuditExportRecord} (harchived : ∀ record ∈ records, record.row ∈ archived) :
    Ensures (acknowledgeBatch batchSize retainPublished nowNs records outbox)
      (Transacts logged archived outbox) := by
  have hfold : Ensures (records.foldlM (acknowledge nowNs) outbox)
      (Transacts logged archived outbox) := by
    clear batchSize retainPublished
    induction records generalizing outbox with
    | nil => exact .pure .refl
    | cons record records ih =>
      rw [List.foldlM_cons]
      refine .bind (R := Transacts logged archived outbox)
        (acknowledge_transacts (harchived record (by simp))) fun mid hmid => ?_
      intro last hlast
      exact hmid.trans (ih (fun r hr => harchived r (List.mem_cons_of_mem _ hr)) last hlast)
  unfold acknowledgeBatch
  refine .ite (.pure .refl) (.bind hfold fun mid hmid => ?_)
  split
  · exact .pure hmid
  · refine .pure ?_
    split_ifs
    · exact hmid.trans (prune_transacts _ _)
    · exact hmid

theorem hasEvent_of_le {head : AuditArchiveHead} (hnumbered : Numbered StoredAuditRow.sequence logged)
    (hle : archived <+: logged) (hhead : ∃ row ∈ archived, row.head = head) {sequence : ℤ}
    {eventHash : Bytes} (hevent : HasEvent logged sequence eventHash)
    (hsequence : sequence ≤ head.sequence) : HasEvent archived sequence eventHash := by
  obtain ⟨last, hlast, rfl⟩ := hhead
  obtain ⟨row, hrow, rfl, rfl⟩ := hevent
  have hlt := (hnumbered.of_prefix hle).number_lt hlast
  exact ⟨row, hnumbered.mem_of_lt hle hrow (lt_of_le_of_lt hsequence hlt), rfl, rfl⟩

theorem acknowledgeArchivePrefix_transacts (batchSize retainPublished nowNs : ℕ)
    {head : AuditArchiveHead} (hnumbered : Numbered StoredAuditRow.sequence logged)
    (hle : archived <+: logged) (hhead : ∃ row ∈ archived, row.head = head)
    (hsound : outbox.Sound logged archived) :
    Ensures (acknowledgeArchivePrefix batchSize retainPublished nowNs head logged outbox)
      fun result => Transacts logged archived outbox result.1 := by
  unfold acknowledgeArchivePrefix
  refine .next fun _ => .next fun _ => .pure ?_
  have hmarked : Transacts logged archived outbox (outbox.updateAll
      (outbox.batch (fun sequence _ => sequence) (fun sequence row =>
        decide (sequence ≤ head.sequence) && row.publishedAtNs.isNone) batchSize)
      fun _ row => markPublished nowNs row) := by
    refine .single (.mark _ nowNs fun sequence hmem row hrow => ?_)
    obtain ⟨_, _, _, hp, rfl⟩ := Table.exists_of_mem_batch hmem
    refine hasEvent_of_le hnumbered hle hhead (hsound _ row hrow).1 ?_
    exact of_decide_eq_true (Bool.and_eq_true_iff.mp hp).1
  dsimp only
  split_ifs
  · exact hmarked.trans (prune_transacts _ _)
  · exact hmarked

end Outbox

/-! ### What the archive takes -/

theorem AuditArchive.expectedNext_fst {rows : List StoredAuditRow}
    (hnumbered : Numbered StoredAuditRow.sequence rows) : (expectedNext rows).1 = rows.length := by
  unfold expectedNext
  split
  · next hlast =>
    rw [List.getLast?_eq_none_iff.mp hlast]
    rfl
  · next prior hlast =>
    have hprior := hnumbered.number_getLast? hlast
    change prior.sequence + 1 = _
    omega

theorem AuditArchive.publish_prefix {archive archive' : AuditArchive} {record : AuditExportRecord}
    {log : List StoredAuditRow} (hnumbered : Numbered StoredAuditRow.sequence log)
    (hle : archive record.key <+: log) (hrow : record.row ∈ log)
    (h : archive.publish record = .ok archive') :
    archive' record.key <+: log ∧ archive record.key <+: archive' record.key ∧
      record.row ∈ archive' record.key := by
  dsimp only [publish] at h
  split at h
  · next existing hfind =>
    simp only [bind_ok_iff, require_ok_iff, exists_unit_iff, pure_ok_iff] at h
    obtain ⟨rfl, rfl⟩ := h
    exact ⟨hle, List.prefix_rfl, List.mem_of_find?_eq_some hfind⟩
  · simp only [bind_ok_iff, require_ok_iff, exists_unit_iff, pure_ok_iff] at h
    obtain ⟨hnext, rfl⟩ := h
    rw [Function.update_self]
    refine ⟨?_, List.prefix_append _ _, by simp⟩
    apply hnumbered.concat_prefix hle hrow
    exact (congrArg Prod.fst hnext).trans (expectedNext_fst (hnumbered.of_prefix hle))

theorem numbered_stored {svc : WardenService d Bytes}
    {log : List (AuditRow d Bytes)} (h : svc.auditChain.Valid log) :
    Numbered StoredAuditRow.sequence (log.map AuditVerifier.stored) := by
  intro i row hrow
  rw [List.getElem?_map] at hrow
  obtain ⟨event, hevent, rfl⟩ := Option.map_eq_some_iff.mp hrow
  obtain ⟨hlt, rfl⟩ := List.getElem?_eq_some_iff.mp hevent
  have hsplit : log = log.take i ++ log[i] :: log.drop (i + 1) := by
    rw [List.getElem_cons_drop, List.take_append_drop]
  have hsequence := WardenService.sequence_eq_length (hsplit ▸ h)
  change ((log[i].body.sequence : ℕ) : ℤ) = i
  rw [hsequence, List.length_take]
  omega

namespace ExportPhase

/-- What the exporter knows at a phase: the head it works from and the records it has published are
in the archive, and the records it has yet to publish are rows of the log. -/
def Sound (key : ExportKey) (logged archived : List StoredAuditRow) : ExportPhase → Prop
  | idle | reading => True
  | located archiveHead _ => ∀ head ∈ archiveHead, ∃ row ∈ archived, row.head = head
  | reconciling head records => (∃ row ∈ archived, row.head = head) ∧
      ∀ record ∈ records, record.key = key ∧ record.row ∈ logged
  | publishing published remaining _ => (∀ record ∈ published, record.row ∈ archived) ∧
      ∀ record ∈ remaining, record.key = key ∧ record.row ∈ logged

theorem Sound.mono {key : ExportKey} {logged logged' archived archived' : List StoredAuditRow}
    {phase : ExportPhase} (h : phase.Sound key logged archived) (hlogged : logged ⊆ logged')
    (harchived : archived ⊆ archived') : phase.Sound key logged' archived' := by
  have hrow {head : AuditArchiveHead} (h : ∃ row ∈ archived, row.head = head) :
      ∃ row ∈ archived', row.head = head := by
    obtain ⟨row, hrow, heq⟩ := h
    exact ⟨row, harchived hrow, heq⟩
  cases phase with
  | idle | reading => trivial
  | located => exact fun head hhead => hrow (h head hhead)
  | reconciling => exact ⟨hrow h.1, fun record hr => ⟨(h.2 record hr).1, hlogged (h.2 record hr).2⟩⟩
  | publishing =>
    exact ⟨fun record hr => harchived (h.1 record hr),
      fun record hr => ⟨(h.2 record hr).1, hlogged (h.2 record hr).2⟩⟩

end ExportPhase

namespace AuditExporter

variable {x : AuditExporter d} {envelope : Envelope d} {s s' : ExportState d}

/-- The archive is a part of the log, the outbox is sound, and so is what the exporter knows. -/
structure Sound (x : AuditExporter d) (envelope : Envelope d) (s : ExportState d) : Prop where
  kept : x.verifier.Kept x.node envelope s.store
  archive : s.archive x.key <+: s.log
  outbox : s.outbox.Sound s.log (s.archive x.key)
  late : ∀ record ∈ s.late, record.key = x.key ∧ record.row ∈ s.log
  continuation : ∀ head ∈ s.exporter.continuationHead, ∃ row ∈ s.archive x.key, row.head = head
  phase : s.exporter.phase.Sound x.key s.log (s.archive x.key)

/-- What one step does: log and archive grow, and the outbox changes by sound statements. -/
structure Steps (x : AuditExporter d) (envelope : Envelope d) (s s' : ExportState d) : Prop where
  sound : x.Sound envelope s'
  log_le : s.log <+: s'.log
  archive_le : s.archive x.key <+: s'.archive x.key
  outbox : Outbox.Transacts s'.log (s'.archive x.key) s.outbox s'.outbox

section

variable (h : x.Sound envelope s)

include h

theorem Sound.numbered : Numbered StoredAuditRow.sequence s.log :=
  numbered_stored h.kept.chained

theorem Sound.moved {exporter : Exporter} {late : List AuditExportRecord}
    (hlate : ∀ record ∈ late, record.key = x.key ∧ record.row ∈ s.log)
    (hcontinuation : ∀ head ∈ exporter.continuationHead, ∃ row ∈ s.archive x.key, row.head = head)
    (hphase : exporter.phase.Sound x.key s.log (s.archive x.key)) :
    x.Steps envelope s { s with exporter, late } :=
  ⟨⟨h.kept, h.archive, h.outbox, hlate, hcontinuation, hphase⟩, List.prefix_rfl, List.prefix_rfl,
    .refl⟩

theorem Sound.goTo {phase : ExportPhase} (hphase : phase.Sound x.key s.log (s.archive x.key)) :
    x.Steps envelope s (s.goTo phase) :=
  h.moved h.late h.continuation hphase

theorem Sound.published {record : AuditExportRecord} {archive : AuditArchive}
    (hown : record.key = x.key ∧ record.row ∈ s.log)
    (hpublish : s.archive.publish record = .ok archive) :
    x.Steps envelope s { s with archive } ∧ record.row ∈ archive x.key := by
  obtain ⟨hkey, hrow⟩ := hown
  have harchive : s.archive record.key <+: s.log := hkey ▸ h.archive
  obtain ⟨hle, hgrows, hmem⟩ := AuditArchive.publish_prefix h.numbered harchive hrow hpublish
  rw [hkey] at hle hgrows hmem
  refine ⟨⟨⟨h.kept, hle, ?_, h.late, fun head hhead => ?_, ?_⟩, List.prefix_rfl, hgrows, .refl⟩,
    hmem⟩
  · exact h.outbox.mono (List.Subset.refl _) hgrows.subset
  · obtain ⟨row, hrow, heq⟩ := h.continuation head hhead
    exact ⟨row, hgrows.subset hrow, heq⟩
  · exact h.phase.mono (List.Subset.refl _) hgrows.subset

theorem Sound.transacted {outbox : Outbox}
    (htransacts : Outbox.Transacts s.log (s.archive x.key) s.outbox outbox) :
    x.Steps envelope s { s with outbox } :=
  ⟨⟨h.kept, h.archive, htransacts.sound h.outbox, h.late, h.continuation, h.phase⟩,
    List.prefix_rfl, List.prefix_rfl, htransacts⟩

end

theorem Steps.trans {s'' : ExportState d} (h : x.Steps envelope s s')
    (h' : x.Steps envelope s' s'') : x.Steps envelope s s'' where
  sound := h'.sound
  log_le := h.log_le.trans h'.log_le
  archive_le := h.archive_le.trans h'.archive_le
  outbox := (h.outbox.mono h'.log_le.subset h'.archive_le.subset).trans h'.outbox

theorem insertEvents_transacts {before events : List StoredAuditRow} {archived : List StoredAuditRow}
    {outbox : Outbox} (hnumbered : Numbered StoredAuditRow.sequence (before ++ events))
    (hsound : outbox.Sound before archived) :
    Outbox.Transacts (before ++ events) archived outbox (events.foldl Outbox.insertEvent outbox) := by
  induction events generalizing before outbox with
  | nil => exact .refl
  | cons event events ih =>
    have hsplit : before ++ event :: events = before ++ [event] ++ events := by simp
    rw [hsplit] at hnumbered ⊢
    have hfresh : event.sequence ∉ outbox := by
      intro hmem
      -- the outbox has no row but of an earlier event
      obtain ⟨row, hrow⟩ := Table.mem_iff_lookup.mp hmem
      obtain ⟨earlier, hearlier, hsame, _⟩ := (hsound _ row hrow).1
      have hbefore := hnumbered.of_prefix ((List.prefix_append before [event]).trans
        (List.prefix_append _ _))
      have hlt := hbefore.number_lt hearlier
      have hsequence : event.sequence = before.length := hnumbered before.length event (by simp)
      omega
    have hsound' := hsound.mono (List.subset_append_left before [event]) (List.Subset.refl _)
    have hinserted : Outbox.Statement (before ++ [event]) archived outbox
        (outbox.insertEvent event) := .insert event (by simp) hfresh
    exact .head (.insert event (by simp) hfresh) (ih hnumbered (hinserted.sound hsound'))

theorem serve_steps (h : x.Sound envelope s) (clock : Reading)
    (operation : StoreOperation d Bytes) : x.Steps envelope s (x.serve clock operation s) := by
  unfold serve
  split
  · exact ⟨h, List.prefix_rfl, List.prefix_rfl, .refl⟩
  · next store out hexec =>
    have hkept := AuditVerifier.exec_kept h.kept hexec
    obtain ⟨rows, hrows⟩ := AuditVerifier.exec_log_le hexec
    generalize houtbox : List.foldl _ _ _ = outbox
    have hlog : ExportState.log { s with store := store, outbox } =
        s.log ++ rows.map AuditVerifier.stored := by
      change store.database.auditLog.map AuditVerifier.stored = _
      rw [← hrows, List.map_append]
      rfl
    have hnumbered := numbered_stored hkept.chained
    change Numbered StoredAuditRow.sequence
      (ExportState.log { s with store := store, outbox }) at hnumbered
    have hle : s.log <+: ExportState.log { s with store := store, outbox } :=
      hlog ▸ List.prefix_append _ _
    have htransacts : Outbox.Transacts (ExportState.log { s with store := store, outbox })
        (s.archive x.key) s.outbox outbox := by
      rw [← hrows, List.drop_left] at houtbox
      rw [hlog] at hnumbered ⊢
      rw [← houtbox]
      exact insertEvents_transacts hnumbered h.outbox
    refine ⟨⟨hkept, h.archive.trans hle, ?_, ?_, h.continuation, ?_⟩, hle, List.prefix_rfl,
      htransacts⟩
    · exact htransacts.sound (h.outbox.mono hle.subset (List.Subset.refl _))
    · exact fun record hr => ⟨(h.late record hr).1, hle.subset (h.late record hr).2⟩
    · exact h.phase.mono hle.subset (List.Subset.refl _)

theorem coreBatch_own {archiveHead : Option AuditArchiveHead} {log : List StoredAuditRow}
    {records : List AuditExportRecord} (h : x.coreBatch archiveHead log = .ok records) :
    ∀ record ∈ records, record.key = x.key ∧ record.row ∈ log := by
  simp only [coreBatch, bind_ok_iff, exists_unit_iff] at h
  obtain ⟨_, _, h⟩ := h
  intro record hrecord
  obtain ⟨row, hrow, hexport⟩ := exists_of_mem_mapM h hrecord
  have hlog : row ∈ log := (List.mem_filter.mp (List.mem_of_mem_take hrow)).1
  unfold exportRecord at hexport
  simp only [bind_ok_iff, exists_unit_iff] at hexport
  obtain ⟨_, hexport⟩ := hexport
  split at hexport
  · cases hexport
  · simp only [bind_ok_iff, exists_unit_iff, pure_ok_iff] at hexport
    obtain ⟨_, _, _, rfl⟩ := hexport
    exact ⟨rfl, hlog⟩
  · cases hexport

theorem publishNext_steps {published remaining : List AuditExportRecord} {batch : ℕ}
    {record : AuditExportRecord} {outcome : SinkOutcome} (h : x.Sound envelope s)
    (hpublished : ∀ record ∈ published, record.row ∈ s.archive x.key)
    (hown : record.key = x.key ∧ record.row ∈ s.log)
    (hremaining : ∀ record ∈ remaining, record.key = x.key ∧ record.row ∈ s.log) :
    x.Steps envelope s (s.publishNext published remaining batch record outcome) := by
  unfold ExportState.publishNext
  split
  · exact h.goTo trivial
  · split
    · exact h.goTo trivial
    · next archive hpublish =>
      obtain ⟨hsteps, hmem⟩ := h.published hown hpublish
      refine hsteps.trans (hsteps.sound.goTo ⟨fun r hr => ?_, hremaining⟩)
      rcases List.mem_append.mp hr with hr | hr
      · exact hsteps.archive_le.subset (hpublished r hr)
      · rw [List.mem_singleton.mp hr]
        exact hmem
  · next stored _ =>
    split
    · exact h.goTo trivial
    · next archive hpublish =>
      cases stored with
      | true =>
        obtain ⟨hsteps, _⟩ := h.published hown hpublish
        exact hsteps.trans (hsteps.sound.goTo trivial)
      | false =>
        have hsame : s.archive = archive := Except.ok.inj hpublish
        subst hsame
        exact h.goTo trivial
  · refine h.moved (fun r hr => ?_) h.continuation trivial
    rcases List.mem_cons.mp hr with rfl | hr
    · exact hown
    · exact h.late r hr

theorem acknowledge_steps {published remaining : List AuditExportRecord} {batch nowNs : ℕ}
    (h : x.Sound envelope s) (hpublished : ∀ record ∈ published, record.row ∈ s.archive x.key) :
    x.Steps envelope s (x.acknowledge published remaining batch nowNs s) := by
  unfold acknowledge
  split
  · exact h.goTo trivial
  · next outbox hack =>
    have hsteps := h.transacted (Outbox.acknowledgeBatch_transacts hpublished outbox hack)
    refine hsteps.trans (hsteps.sound.moved h.late (fun head hhead => ?_) trivial)
    dsimp only at hhead
    split_ifs at hhead with hbacklog
    · obtain ⟨record, hrecord, rfl⟩ := Option.map_eq_some_iff.mp hhead
      exact ⟨record.row, hpublished record (List.mem_of_getLast? hrecord), rfl⟩
    · cases hhead

theorem next_steps (h : x.Sound envelope s) (event : ExportEvent d) :
    x.Steps envelope s (x.next event s) := by
  have hphase := h.phase
  unfold next
  split
  · exact serve_steps h _ _
  · refine h.moved h.late (by simp) ?_
    dsimp only
    split
    · next head hhead =>
      rintro _ ⟨⟩
      exact h.continuation head hhead
    · trivial
  · split
    · exact h.goTo trivial
    · exact h.goTo trivial
    · refine h.goTo fun head hhead => ?_
      obtain ⟨row, hrow, rfl⟩ := Option.map_eq_some_iff.mp hhead
      exact ⟨row, List.mem_of_getLast? hrow, rfl⟩
    · exact h.moved h.late h.continuation trivial
  · next archiveHead continued hlocated =>
    rw [hlocated] at hphase
    split
    · exact h.goTo trivial
    · next records hrecords =>
      have hown := coreBatch_own hrecords
      split
      · next head => exact h.goTo ⟨hphase head rfl, hown⟩
      · exact h.goTo ⟨(by simp), hown⟩
  · next nowNs archiveHead records hreconciling =>
    rw [hreconciling] at hphase
    have hpart := Outbox.acknowledgeArchivePrefix_transacts x.batchSize x.retainPublished nowNs
      h.numbered h.archive hphase.1 h.outbox
    split
    · exact h.goTo trivial
    · next outbox hack =>
      have hsteps := h.transacted (hpart _ hack)
      exact hsteps.trans (hsteps.sound.goTo ⟨(by simp), hphase.2⟩)
    · next outbox hack =>
      have hsteps := h.transacted (hpart _ hack)
      exact hsteps.trans (hsteps.sound.goTo trivial)
  · next published record remaining batch hpublishing =>
    rw [hpublishing] at hphase
    exact publishNext_steps h hphase.1 (hphase.2 record (by simp))
      fun r hr => hphase.2 r (List.mem_cons_of_mem _ hr)
  · next nowNs published remaining batch hpublishing =>
    rw [hpublishing] at hphase
    exact acknowledge_steps h hphase.1
  · exact h.goTo trivial
  · next record =>
    split_ifs with hlate
    · split
      · exact ⟨h, List.prefix_rfl, List.prefix_rfl, .refl⟩
      · next archive hpublish => exact (h.published (h.late record hlate) hpublish).1
    · exact ⟨h, List.prefix_rfl, List.prefix_rfl, .refl⟩
  · exact h.moved h.late h.continuation h.phase
  · exact h.moved h.late (fun _ h => by cases h) trivial
  · exact ⟨h, List.prefix_rfl, List.prefix_rfl, .refl⟩

theorem sound_of_reachable {publicKey instanceId : Bytes}
    (h : (x.system envelope publicKey instanceId).Reachable s) : x.Sound envelope s := by
  refine h.invariant ?_ ?_
  · rintro s ⟨hstore, houtbox, harchive, hexporter, hlate⟩
    have hlog : s.log = [] := by
      rw [ExportState.log, hstore]
      rfl
    refine ⟨?_, ?_, ?_, ?_, ?_, ?_⟩
    · rw [hstore]
      exact ⟨.nil, ⟨rfl, (fun _ h => by cases h)⟩, (fun _ h => by cases h)⟩
    · rw [harchive]
      exact List.nil_prefix
    · rw [houtbox]
      exact fun _ _ hrow => (by cases hrow)
    · rw [hlate]
      simp
    · rw [hexporter]
      intro _ h; cases h
    · rw [hexporter]
      trivial
  · rintro s event s' hsound rfl
    exact (next_steps hsound event).sound

theorem reachable_next {publicKey instanceId : Bytes}
    (h : (x.system envelope publicKey instanceId).Reachable s) (event : ExportEvent d) :
    (x.system envelope publicKey instanceId).Reachable (x.next event s) := by
  obtain ⟨s₀, before, hinit, run⟩ := h
  exact ⟨s₀, before ++ [event], hinit, run.snoc rfl⟩

theorem reachable_foldl {publicKey instanceId : Bytes}
    (h : (x.system envelope publicKey instanceId).Reachable s) (events : List (ExportEvent d)) :
    (x.system envelope publicKey instanceId).Reachable
      (events.foldl (fun s event => x.next event s) s) := by
  induction events generalizing s with
  | nil => exact h
  | cons event events ih => exact ih (reachable_next h event)

end AuditExporter

section Exported

open AuditExporter

/-- Whatever the order of appended events and exporter steps, and wherever one is cut off: the
archive is a part of the audit log from its beginning, and every row of the outbox that is marked as
published is in it.  Of the outbox `prune` deletes only rows so marked. -/
theorem audit_archive_exact (x : AuditExporter d) (envelope : Envelope d)
    (publicKey instanceId : Bytes) {s : ExportState d}
    (hreach : (x.system envelope publicKey instanceId).Reachable s) :
    s.archive x.key <+: s.log ∧
    (∀ sequence row, s.outbox.lookup sequence = some row → row.publishedAtNs.isSome = true →
      HasEvent (s.archive x.key) sequence row.eventHash) ∧
    (∀ threshold limit sequence row, s.outbox.lookup sequence = some row →
      (Outbox.prune threshold limit s.outbox).lookup sequence = none →
      row.publishedAtNs.isSome = true) ∧
    ∀ event, Outbox.Transacts (x.next event s).log ((x.next event s).archive x.key) s.outbox
        (x.next event s).outbox ∧
      ∀ sequence row, s.outbox.lookup sequence = some row →
        (x.next event s).outbox.lookup sequence = none →
        HasEvent ((x.next event s).archive x.key) sequence row.eventHash := by
  have hsound := sound_of_reachable hreach
  refine ⟨hsound.archive, fun sequence row hrow => (hsound.outbox sequence row hrow).2,
    fun _ _ _ _ hrow => Outbox.published_of_prune hrow, fun event => ?_⟩
  have hsteps := next_steps hsound event
  refine ⟨hsteps.outbox, fun sequence row hrow hgone => ?_⟩
  have hsound' := hsound.outbox.mono hsteps.log_le.subset hsteps.archive_le.subset
  rcases hsteps.outbox.keptOrArchived hsound' hrow with ⟨row', hrow', _⟩ | harchived
  · cases hgone.symm.trans hrow'
  · exact harchived

end Exported

namespace Sample

def auditExporter : AuditExporter 1 where
  verifier := auditVerifier
  node := auditedNode
  key := ⟨"a", "tenant", "envelope", 1, []⟩
  batchSize := 2
  retainPublished := 1
  batchSize_pos := by decide

def exportStart : ExportState 1 where
  store := auditedStore
  outbox := ∅
  archive := fun _ => []
  exporter := .initial
  late := []

def exportPending : ExportState 1 :=
  auditExporter.next
    (.serve (exactly 1) (.service (.setRuntimeMode ⟨"drain", operator, .draining, "reason"⟩)))
    exportStart

/-- The record is given up and arrives late; the next cycle, after a crash, finds it in the
archive. -/
def lateExport : List (ExportEvent 1) :=
  let arrivals := exportPending.log.map fun row =>
    ExportEvent.lateArrival ⟨auditExporter.key, row⟩
  [.begin, .readHead .returns, .readBatch, .publish .exceedsDeadline] ++ arrivals ++
    [.crash, .begin, .readHead .returns, .readBatch, .reconcile 2]

def exported : ExportState 1 :=
  lateExport.foldl (fun s event => auditExporter.next event s) exportPending

end Sample

open Sample

theorem audit_archive_exact_late :
    (exported.archive auditExporter.key).length = 1 ∧
      (exported.outbox.lookup 0).map OutboxRow.publishedAtNs = some (some 2) ∧
      exported.archive auditExporter.key <+: exported.log ∧
      ∃ row, exported.outbox.lookup 0 = some row ∧
        HasEvent (exported.archive auditExporter.key) 0 row.eventHash := by
  have hstart : (auditExporter.system (envelope 10) [] []).Reachable
      exportStart := ⟨_, [], ⟨rfl, rfl, rfl, rfl, rfl⟩, .nil _⟩
  have hpending : (auditExporter.system (envelope 10) [] []).Reachable
      exportPending := by
    unfold exportPending
    exact AuditExporter.reachable_next hstart _
  have hreach : (auditExporter.system (envelope 10) [] []).Reachable
      exported := AuditExporter.reachable_foldl hpending lateExport
  obtain ⟨hpart, hpublished, _⟩ := audit_archive_exact auditExporter (envelope 10)
    [] [] hreach
  obtain ⟨hlength, hrow⟩ : (exported.archive auditExporter.key).length = 1 ∧
      (exported.outbox.lookup 0).map OutboxRow.publishedAtNs = some (some 2) := by
    decide +kernel
  obtain ⟨row, hlookup, hmarked⟩ := Option.map_eq_some_iff.mp hrow
  refine ⟨hlength, hrow, hpart, row, hlookup, hpublished 0 row hlookup ?_⟩
  rw [hmarked]
  rfl

end Lets
