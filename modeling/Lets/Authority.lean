import Lets.Auditing
import Lets.Sample

set_option autoImplicit false

/-!
# Copies of a warden database under one anchor

A warden's database may be cloned or restored from a snapshot.
-/

namespace Lets

open Library

variable {d : ℕ} {Hash : Type}

structure AuthorityCheckpoint (Hash : Type) where
  wardenId : String
  tenantId : String
  envelopeId : String
  configEpoch : ℕ
  schemaVersion : ℕ
  signingKeyId : String
  signingPublicKeySha256 : Hash
  databaseInstanceId : Hash
  /-- Minus one while the audit log is empty. -/
  auditSequence : ℤ
  auditHash : Hash
  stateRevision : ℕ
  stateDigest : Hash
  clockFloorNs : Option ℕ
  deriving DecidableEq

namespace AuthorityCheckpoint

def head (checkpoint : AuthorityCheckpoint Hash) : ℤ × Hash :=
  (checkpoint.auditSequence, checkpoint.auditHash)

def stableIdentity (checkpoint : AuthorityCheckpoint Hash) :
    String × String × String × ℕ × String × Hash × Hash :=
  (checkpoint.wardenId, checkpoint.tenantId, checkpoint.envelopeId, checkpoint.configEpoch,
    checkpoint.signingKeyId, checkpoint.signingPublicKeySha256, checkpoint.databaseInstanceId)

def requiresAdvance [DecidableEq Hash] (zeroHash : Hash)
    (anchored checkpoint : AuthorityCheckpoint Hash) (auditHashAt : ℤ → Option Hash)
    (allowSchemaUpgrade : Bool) : Outcome Bool := do
  require (anchored.stableIdentity = checkpoint.stableIdentity)
    (.storage "authority anchor identity does not match this warden database")
  require (anchored.schemaVersion ≤ checkpoint.schemaVersion)
    (.storage "warden schema is older than its authority anchor")
  require (checkpoint.schemaVersion ≠ anchored.schemaVersion → allowSchemaUpgrade = true)
    (.storage "authority anchor schema transition requires explicit migration admission")
  require (anchored.auditSequence ≤ checkpoint.auditSequence)
    (.storage "warden database is older than its monotonic authority anchor")
  if checkpoint.auditSequence = anchored.auditSequence then do
    require (checkpoint.auditHash = anchored.auditHash)
      (.storage "warden database audit head diverges from its authority anchor")
    require (checkpoint.stateRevision = anchored.stateRevision ∧
        checkpoint.stateDigest = anchored.stateDigest)
      (.storage "warden database authority state diverges at the anchored audit head")
    require (FloorKept anchored.clockFloorNs checkpoint.clockFloorNs)
      (.storage "warden clock floor moved behind its authority anchor")
    pure (checkpoint.schemaVersion ≠ anchored.schemaVersion ∨
      checkpoint.clockFloorNs ≠ anchored.clockFloorNs)
  else do
    let historical :=
      if anchored.auditSequence = -1 then some zeroHash else auditHashAt anchored.auditSequence
    require (historical = some anchored.auditHash)
      (.storage "warden database does not extend the anchored audit history")
    require (anchored.stateRevision ≤ checkpoint.stateRevision)
      (.storage "warden database state revision moved behind its authority anchor")
    require (FloorKept anchored.clockFloorNs checkpoint.clockFloorNs)
      (.storage "warden clock floor moved behind its authority anchor")
    pure true

structure Advances (anchored anchored' : AuthorityCheckpoint Hash) : Prop where
  sequence_le : anchored.auditSequence ≤ anchored'.auditSequence
  revision_le : anchored.stateRevision ≤ anchored'.stateRevision
  floor_kept : FloorKept anchored.clockFloorNs anchored'.clockFloorNs

theorem Advances.refl (anchored : AuthorityCheckpoint Hash) : anchored.Advances anchored :=
  ⟨le_rfl, le_rfl, .refl _⟩

theorem Advances.trans {a b c : AuthorityCheckpoint Hash} (h : a.Advances b) (h' : b.Advances c) :
    a.Advances c :=
  ⟨h.sequence_le.trans h'.sequence_le, h.revision_le.trans h'.revision_le,
    h.floor_kept.trans h'.floor_kept⟩

end AuthorityCheckpoint

namespace WardenStore

def auditHead (zeroHash : Hash) (store : WardenStore d Hash) : ℤ × Hash :=
  match store.database.auditLog.getLast? with
  | none => (-1, zeroHash)
  | some row => (row.body.sequence, row.eventHash)

def auditHashAt (store : WardenStore d Hash) (sequence : ℤ) : Option Hash :=
  (store.database.auditLog.find? fun row => row.body.sequence = sequence).map AuditRow.eventHash

end WardenStore

namespace WardenNode

def authorityCheckpoint (node : WardenNode d Hash) (store : WardenStore d Hash) :
    AuthorityCheckpoint Hash where
  wardenId := store.database.wardenId
  tenantId := store.database.envelope.tenantId
  envelopeId := store.database.envelope.envelopeId
  configEpoch := store.database.envelope.configEpoch
  schemaVersion := store.schemaVersion
  signingKeyId := store.database.signingKeyId
  signingPublicKeySha256 := store.signingPublicKeySha256
  databaseInstanceId := store.databaseInstanceId
  auditSequence := (store.auditHead node.service.zeroHash).1
  auditHash := (store.auditHead node.service.zeroHash).2
  stateRevision := store.database.revision
  stateDigest := node.stateDigest store.statePayload
  clockFloorNs := store.database.clockFloorNs

/-- `reconcile`: the anchor afterwards. -/
def reconcile [DecidableEq Hash] (node : WardenNode d Hash) (allowSchemaUpgrade : Bool)
    (anchored : AuthorityCheckpoint Hash) (store : WardenStore d Hash) :
    Outcome (AuthorityCheckpoint Hash) := do
  let checkpoint := node.authorityCheckpoint store
  let advance ← anchored.requiresAdvance node.service.zeroHash checkpoint store.auditHashAt
    allowSchemaUpgrade
  pure (if advance then checkpoint else anchored)

instance [DecidableEq Hash] (svc : WardenService d Hash) (tip : ℤ × Hash) (row : AuditRow d Hash) :
    Decidable (svc.auditChain.Follows tip row) :=
  inferInstanceAs (Decidable (_ ∧ _ ∧ _))

/-- A write transaction with any body: the triggers and checks of the `audit_log` table hold it to
chained appends, and the ledger is checked before the commit. -/
def transact [DecidableEq Hash] (node : WardenNode d Hash)
    (body : WardenStore d Hash → Outcome (WardenStore d Hash)) (store : WardenStore d Hash) :
    Outcome (WardenStore d Hash) := do
  let store' ← body store
  require (node.service.auditChain.Extends store.database.auditLog store'.database.auditLog)
    (.integrity "audit log is append-only")
  store'.database.assertLocalConservation
  pure store'

/-- A warden database under its anchor.  Outside migrations the schema may not change. -/
def anchoring [DecidableEq Hash] (node : WardenNode d Hash) :
    Anchoring (WardenStore d Hash) (AuthorityCheckpoint Hash)
      (WardenStore d Hash → Outcome (WardenStore d Hash)) (AuditRow d Hash) LetsError where
  log store := store.database.auditLog
  reconcile := node.reconcile false
  commit := node.transact

def AuditHashInjective (node : WardenNode d Hash) : Prop :=
  ∀ previous previous' body body' keyId keyId' signature signature',
    node.service.auditHash previous body keyId signature =
      node.service.auditHash previous' body' keyId' signature' →
    previous = previous' ∧ body = body' ∧ keyId = keyId' ∧ signature = signature'

def ChainedStore (node : WardenNode d Hash) (store : WardenStore d Hash) : Prop :=
  node.service.auditChain.Valid store.database.auditLog

structure AnchoredLog (node : WardenNode d Hash) (anchor : AuthorityCheckpoint Hash)
    (log : List (AuditRow d Hash)) : Prop where
  valid : node.service.auditChain.Valid log
  head_eq : anchor.head = node.service.auditChain.tipOf log

variable {node : WardenNode d Hash} {clock : Reading} {store store' : WardenStore d Hash}

theorem auditHead_eq : store.auditHead node.service.zeroHash =
    node.service.auditChain.tipOf store.database.auditLog := by
  unfold WardenStore.auditHead HashChain.tipOf
  cases store.database.auditLog.getLast? <;> rfl

theorem auditChain_collisionFree (hinj : node.AuditHashInjective) :
    node.service.auditChain.CollisionFree where
  tip_ne_genesis := by
    intro tip row _ heq
    have hsequence : (row.body.sequence : ℤ) = -1 := congrArg Prod.fst heq
    omega
  eq_of_tip_eq := by
    rintro tip tip' row row' ⟨hsequence, hprevious, hhash⟩ ⟨hsequence', hprevious', hhash'⟩ heq
    have hevent : row.eventHash = row'.eventHash := congrArg Prod.snd heq
    obtain ⟨hp, hbody, hkey, hsignature⟩ :=
      hinj _ _ _ _ _ _ _ _ (hhash.symm.trans (hevent.trans hhash'))
    have hrow : row = row' := by
      cases row
      cases row'
      simp_all only
    refine ⟨Prod.ext ?_ ?_, hrow⟩
    · rw [hrow] at hsequence
      omega
    · rw [← hprevious, ← hprevious', hp]

theorem head_authorityCheckpoint : (node.authorityCheckpoint store).head =
    node.service.auditChain.tipOf store.database.auditLog :=
  auditHead_eq

theorem anchoredLog_checkpoint (hstore : node.ChainedStore store) :
    node.AnchoredLog (node.authorityCheckpoint store) store.database.auditLog :=
  ⟨hstore, head_authorityCheckpoint⟩

theorem mem_of_auditHashAt {sequence : ℤ} {hash : Hash}
    (h : store.auditHashAt sequence = some hash) :
    ∃ row ∈ store.database.auditLog, node.service.auditChain.tip row = (sequence, hash) := by
  obtain ⟨row, hfind, rfl⟩ := Option.map_eq_some_iff.mp h
  have hsequence : (row.body.sequence : ℤ) = sequence := by simpa using List.find?_some hfind
  exact ⟨row, List.mem_of_find?_eq_some hfind, Prod.ext hsequence rfl⟩

section Anchored

variable [DecidableEq Hash] {anchor anchor' : AuthorityCheckpoint Hash} {upgrade : Bool}

/-- A successful reconciliation has found the anchored head in the log; the anchor then holds the
head of the store, and has not gone back. -/
theorem reconcile_ok (h : node.reconcile upgrade anchor store = .ok anchor') :
    anchor'.head = node.service.auditChain.tipOf store.database.auditLog ∧
      anchor.Advances anchor' ∧
      (anchor.head = node.service.auditChain.tipOf store.database.auditLog ∨
        anchor.head = node.service.auditChain.genesis ∨
        ∃ row ∈ store.database.auditLog, node.service.auditChain.tip row = anchor.head) := by
  simp only [reconcile, bind_ok_iff, pure_ok_iff] at h
  obtain ⟨advance, hadvance, rfl⟩ := h
  have hhead : (node.authorityCheckpoint store).head =
    node.service.auditChain.tipOf store.database.auditLog := head_authorityCheckpoint
  generalize node.authorityCheckpoint store = checkpoint at hadvance hhead ⊢
  simp only [AuthorityCheckpoint.requiresAdvance, bind_ok_iff, require_ok_iff,
    exists_unit_iff] at hadvance
  obtain ⟨_, _, _, hsequence, hadvance⟩ := hadvance
  by_cases hsame : checkpoint.auditSequence = anchor.auditSequence
  · rw [if_pos hsame] at hadvance
    simp only [bind_ok_iff, require_ok_iff, exists_unit_iff] at hadvance
    obtain ⟨hhash, ⟨hrevision, _⟩, hfloor, _⟩ := hadvance
    have hanchor : anchor.head = checkpoint.head := Prod.ext hsame.symm hhash.symm
    refine ⟨?_, ?_, .inl (hanchor.trans hhead)⟩
    · cases advance with
      | true => exact hhead
      | false => exact hanchor.trans hhead
    · cases advance with
      | true => exact ⟨hsequence, hrevision.ge, hfloor⟩
      | false => exact .refl _
  · rw [if_neg hsame] at hadvance
    simp only [bind_ok_iff, require_ok_iff, exists_unit_iff, pure_ok_iff] at hadvance
    obtain ⟨hhistorical, hrevision, hfloor, rfl⟩ := hadvance
    refine ⟨hhead, ⟨hsequence, hrevision, hfloor⟩, .inr ?_⟩
    split_ifs at hhistorical with hempty
    · exact .inl (Prod.ext hempty (Option.some.inj hhistorical).symm)
    · exact .inr (mem_of_auditHashAt hhistorical)

theorem transact_ok {body : WardenStore d Hash → Outcome (WardenStore d Hash)}
    (h : node.transact body store = .ok store') :
    node.service.auditChain.Extends store.database.auditLog store'.database.auditLog := by
  simp only [transact, bind_ok_iff, require_ok_iff, exists_unit_iff, pure_ok_iff] at h
  obtain ⟨_, _, hextends, _, rfl⟩ := h
  exact hextends

theorem anchoring_sound (hinj : node.AuditHashInjective) :
    node.anchoring.Sound node.ChainedStore node.AnchoredLog where
  commit_valid hstore hcommit := (transact_ok hcommit).valid hstore
  commit_prefix _ hcommit := (transact_ok hcommit).1
  reconcile_prefix := by
    intro anchor anchor' log store hanchored hstore h
    obtain ⟨_, _, hcheck⟩ := reconcile_ok h
    rw [hanchored.head_eq] at hcheck
    exact hanchored.valid.prefix_of_check (auditChain_collisionFree hinj) hstore hcheck
  reconcile_anchored := by
    intro anchor anchor' log store _ hstore h
    exact ⟨hstore, (reconcile_ok h).1⟩

variable {ι : Type} [DecidableEq ι]

def copies (node : WardenNode d Hash) (origin : ι) (store : WardenStore d Hash) :
    System (Copies ι (WardenStore d Hash) (AuthorityCheckpoint Hash)
        (WardenStore d Hash → Outcome (WardenStore d Hash)))
      (CopyEvent ι (WardenStore d Hash) (WardenStore d Hash → Outcome (WardenStore d Hash))
        LetsError) :=
  node.anchoring.system origin store (node.authorityCheckpoint store)

variable {origin : ι}
  {s₀ s s' : Copies ι (WardenStore d Hash) (AuthorityCheckpoint Hash)
    (WardenStore d Hash → Outcome (WardenStore d Hash))}
  {events events' : List (CopyEvent ι (WardenStore d Hash)
    (WardenStore d Hash → Outcome (WardenStore d Hash)) LetsError)}

theorem anchor_advances (run : (node.copies origin store).Run s events s') :
    s.anchor.Advances s'.anchor := by
  refine run.relates (R := fun s s' => s.anchor.Advances s'.anchor) (fun s => .refl _)
    (fun _ _ _ h h' => h.trans h') ?_
  intro s event s' step
  rcases (Anchoring.step_effect step).anchor with hsame | ⟨copy, store, _, hreconcile⟩
  · rw [hsame]
    exact .refl _
  · exact (reconcile_ok hreconcile).2.1

theorem reconcile_behind (hinj : node.AuditHashInjective) {log : List (AuditRow d Hash)}
    (hanchored : node.AnchoredLog anchor log) (hstore : node.ChainedStore store)
    (hbehind : store.database.auditLog <+: log) (hne : store.database.auditLog ≠ log) :
    ∃ error, node.reconcile false anchor store = .error error := by
  cases h : node.reconcile false anchor store with
  | error error => exact ⟨error, rfl⟩
  | ok anchor' =>
    have hsound := anchoring_sound hinj
    have hle := hsound.reconcile_prefix hanchored hstore h
    exact absurd (hbehind.sublist.antisymm hle.sublist) hne

end Anchored

end WardenNode

section Copies

open WardenNode Anchoring

variable [DecidableEq Hash] {ι : Type} [DecidableEq ι] {node : WardenNode d Hash} {origin : ι}
  {store : WardenStore d Hash}
  {s₀ s : Copies ι (WardenStore d Hash) (AuthorityCheckpoint Hash)
    (WardenStore d Hash → Outcome (WardenStore d Hash))}
  {events : List (CopyEvent ι (WardenStore d Hash)
    (WardenStore d Hash → Outcome (WardenStore d Hash)) LetsError)}

/-- The copies of one warden database: the audit logs that transactions are acknowledged from form a
chain, diverged copies are not both acknowledged, a copy behind the anchor is refused before it can
begin, and the anchor never goes back. -/
theorem acknowledged_logs_of_copies (hinj : node.AuditHashInjective)
    (hstore : node.ChainedStore store) (hinit : (node.copies origin store).Init s₀)
    (run : (node.copies origin store).Run s₀ events s) :
    ((acknowledgements events).Pairwise fun earlier later =>
        earlier.2.database.auditLog <+: later.2.database.auditLog) ∧
      (∀ copy copy' st st' later s', s.stores copy = some st → s.stores copy' = some st' →
        ¬st.database.auditLog <+: st'.database.auditLog →
        ¬st'.database.auditLog <+: st.database.auditLog →
        (node.copies origin store).Run s later s' →
          ¬((∃ ack ∈ acknowledgements later, ack.1.copy = copy) ∧
            ∃ ack ∈ acknowledgements later, ack.1.copy = copy')) ∧
      (∃ log, node.AnchoredLog s.anchor log ∧ ∀ copy st, s.stores copy = some st →
        st.database.auditLog <+: log → st.database.auditLog ≠ log →
          (∃ error, (node.copies origin store).Step s (.refused copy error) s) ∧
            ∀ s', ¬(node.copies origin store).Step s (.admitted copy) s') ∧
      ∀ later s', (node.copies origin store).Run s later s' → s.anchor.Advances s'.anchor := by
  have hsound := anchoring_sound hinj
  have hanchored := anchoredLog_checkpoint hstore
  have hchained := chained_of_run hsound hstore hanchored hinit run
  refine ⟨acknowledgements_chain hchained, ?_, ?_, fun later s' hlater => anchor_advances hlater⟩
  · intro copy copy' st st' later s' hst hst' hdiverged hdiverged' hlater
    rintro ⟨⟨ack, hack, hcopy⟩, ack', hack', hcopy'⟩
    have hanswer : ∀ ack ∈ acknowledgements later, (ack.1.copy, ack.2) ∈ Anchoring.answers later :=
      fun ack hack => (acknowledgements_sublist later).subset
        (List.mem_map_of_mem (f := fun ack => (ack.1.copy, ack.2)) hack)
    exact not_both_answer hsound hstore hanchored hinit run hlater hst hst'
      ⟨hdiverged, hdiverged'⟩
      ⟨⟨_, hanswer ack hack, hcopy⟩, _, hanswer ack' hack', hcopy'⟩
  · obtain ⟨log, hlog, _⟩ := hchained.anchored
    refine ⟨log, hlog, fun copy st hst hbehind hne => ?_⟩
    obtain ⟨error, herror⟩ := reconcile_behind hinj hlog (hchained.valid copy st hst) hbehind hne
    refine ⟨⟨error, st, hst, herror, rfl⟩, ?_⟩
    rintro s' ⟨st', anchor, hst', hreconcile, _⟩
    obtain rfl := some_unique hst hst'
    cases herror.symm.trans hreconcile

end Copies

namespace Sample

inductive AuditDigest
  | zero
  | event (previous : AuditDigest) (body : AuditBody 1) (keyId signature : String)
  deriving DecidableEq

def chainedService (wardenId : String) : WardenService 1 AuditDigest :=
  { service wardenId with auditHash := .event, zeroHash := .zero }

def node : WardenNode 1 AuditDigest where
  service := chainedService "a"
  nonceDigest _ := .zero
  hex _ := ""
  replayClaimDigest _ := .zero
  replayImportDigest _ := .zero
  stateDigest _ := .zero

theorem node_auditHashInjective : node.AuditHashInjective := by
  intro previous previous' body body' keyId keyId' signature signature' h
  simpa only [node, chainedService, AuditDigest.event.injEq] using h

def wardenStore : WardenStore 1 AuditDigest :=
  .genesis "a" "a" (envelope 10) .zero .zero .zero

def anchoredWarden : Copies ℕ (WardenStore 1 AuditDigest) (AuthorityCheckpoint AuditDigest)
    (WardenStore 1 AuditDigest → Outcome (WardenStore 1 AuditDigest)) :=
  ⟨node.authorityCheckpoint wardenStore, Function.update (fun _ => none) 0 (some wardenStore), [],
    []⟩

def setMode (requestId reason : String) (nowNs : ℕ) (store : WardenStore 1 AuditDigest) :
    Outcome (WardenStore 1 AuditDigest) :=
  (node.exec (exactly nowNs) (.service (.setRuntimeMode ⟨requestId, operator, .draining, reason⟩))
    store).map Prod.fst

/-- A clone commits at the head of the first copy, and loses the race to the anchor. -/
def racedToAnchor := node.anchoring.play anchoredWarden
  [.copy 0 1, .enter 0, .enter 1, .commit 0 (setMode "q1" "drain" 2),
    .commit 1 (setMode "q2" "stop" 2), .acknowledge, .enter 1, .enter 0,
    .commit 0 (setMode "q3" "halt" 3)]

end Sample

open Sample

theorem acknowledged_logs_of_copies_racedToAnchor :
    ((Anchoring.acknowledgements racedToAnchor.1).map fun ack =>
        ack.2.database.auditLog.length) = [1] ∧
      (∃ log, node.AnchoredLog racedToAnchor.2.anchor log) ∧
      anchoredWarden.anchor.Advances racedToAnchor.2.anchor := by
  have hrun : (node.copies 0 wardenStore).Run anchoredWarden
      racedToAnchor.1 racedToAnchor.2 := Anchoring.play_run _ _ _ _ _ _
  have hinit : (node.copies 0 wardenStore).Init anchoredWarden := rfl
  have hstore : node.ChainedStore wardenStore := .nil
  have hinj := node_auditHashInjective
  obtain ⟨_, _, ⟨log, hlog, _⟩, _⟩ := acknowledged_logs_of_copies hinj hstore hinit hrun
  obtain ⟨_, _, _, hadvances⟩ := acknowledged_logs_of_copies hinj hstore hinit (.nil _)
  exact ⟨by decide +kernel, ⟨log, hlog⟩, hadvances _ _ hrun⟩

end Lets
