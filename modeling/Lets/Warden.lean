import Lets.Library.Runs
import Lets.Authorization
import Lets.Lifecycle
import Lets.TransferSpec
import Lets.Administration
import Lets.Dispatcher

set_option autoImplicit false

/-!
# One warden

The operations of one warden as a labelled transition system.
-/

namespace Lets

open Library

variable {d : ℕ} {Hash : Type}

inductive Operation (d : ℕ)
  | setRuntimeMode (req : SetRuntimeModeRequest)
  | registerPolicy (identity : Option IdentityContext) (payload : PolicyPayload d)
  | issueRoot (newLeaseId newLineageId : String) (req : IssueRootRequest d)
  | spawn (newLeaseId : String) (req : SpawnRequest d)
  | spawnRemote (newLeaseId newTransferId : String) (req : SpawnRemoteRequest d)
  | authorize (newReceiptId : String) (req : AuthorizeRequest)
  | renew (req : RenewRequest)
  | lifecycle (operation : LifecycleOperation) (terminated : List (String × LeaseStatus))
      (req : LifecycleRequest)
  | revokeBranch (req : RevokeBranchRequest)
  | ingestRevocation (identity : IdentityContext) (revocation : BranchRevocation)
  | reclaimExpired (identity : IdentityContext) (tenantId envelopeId : Option String)
  | prepareTransfer (newTransferId : String) (req : PrepareTransferRequest d)
  | acceptTransfer (identity : IdentityContext) (voucher : TransferVoucher d)
  | finalizeTransfer (identity : IdentityContext) (ack : TransferAck)
  | createTransferCheckpoint (identity : IdentityContext) (targetWarden : String)
      (throughSequence : Option ℕ)
  | ingestTransferCheckpoint (identity : IdentityContext) (checkpoint : TransferCheckpoint)
  | recordAttempt (recordKind : RecordKind) (recordId targetWarden : String)
      (error : Option String)
  | pruneTerminal (batchSize : ℕ)
  | pruneCompactedTransferHistory (batchSize : ℕ)

def Operation.request : Operation d → Option (String × String)
  | setRuntimeMode req => some ("set_runtime_mode", req.requestId)
  | issueRoot _ _ req => some ("issue_root", req.requestId)
  | spawn _ req => some ("spawn:" ++ req.parentId, req.requestId)
  | spawnRemote _ _ req => some ("spawn_remote:" ++ req.parentId, req.requestId)
  | authorize _ req => some ("authorize:" ++ req.leaseId, req.requestId)
  | renew req => some ("renew:" ++ req.leaseId, req.requestId)
  | lifecycle operation _ req => some (operation.name ++ ":" ++ req.leaseId, req.requestId)
  | revokeBranch req => some ("revoke:" ++ req.leaseId, req.requestId)
  | prepareTransfer _ req => some ("prepare_transfer:" ++ req.targetWarden, req.requestId)
  | _ => none

def Operation.arguments (svc : WardenService d Hash) (configEpoch : ℕ) :
    Operation d → Option (Arguments d)
  | setRuntimeMode req => some req.arguments
  | issueRoot _ _ req => some (req.arguments configEpoch)
  | spawn _ req => some (req.arguments configEpoch)
  | spawnRemote _ _ req => some (req.arguments configEpoch)
  | authorize _ req => some (req.arguments (req.evidence.map svc.evidenceDigest) configEpoch)
  | renew req => some (req.arguments configEpoch)
  | lifecycle operation _ req => some (req.arguments operation configEpoch)
  | revokeBranch req => some (req.arguments configEpoch)
  | prepareTransfer _ req => some (req.arguments configEpoch)
  | _ => none

def Operation.readsClock : Operation d → Bool
  | recordAttempt .. | pruneTerminal _ | pruneCompactedTransferHistory _ => false
  | _ => true

namespace WardenService

def exec (svc : WardenService d Hash) (clock : Reading) (operation : Operation d)
    (db : Database d Hash) : Outcome (Database d Hash × Response d) :=
  match operation with
  | .setRuntimeMode req => svc.setRuntimeMode clock req db
  | .registerPolicy identity payload => svc.registerPolicy clock identity payload db
  | .issueRoot newLeaseId newLineageId req => svc.issueRoot clock newLeaseId newLineageId req db
  | .spawn newLeaseId req => svc.spawn clock newLeaseId req db
  | .spawnRemote newLeaseId newTransferId req =>
    svc.spawnRemote clock newLeaseId newTransferId req db
  | .authorize newReceiptId req => svc.authorize clock newReceiptId req db
  | .renew req => svc.renew clock req db
  | .lifecycle operation terminated req => svc.lifecycle operation clock terminated req db
  | .revokeBranch req => svc.revokeBranch clock req db
  | .ingestRevocation identity revocation => svc.ingestRevocation clock identity revocation db
  | .reclaimExpired identity tenantId envelopeId =>
    svc.reclaimExpired clock identity tenantId envelopeId db
  | .prepareTransfer newTransferId req => svc.prepareTransfer clock newTransferId req db
  | .acceptTransfer identity voucher => svc.acceptTransfer clock identity voucher db
  | .finalizeTransfer identity ack => svc.finalizeTransfer clock identity ack db
  | .createTransferCheckpoint identity targetWarden throughSequence =>
    svc.createTransferCheckpoint clock identity targetWarden throughSequence db
  | .ingestTransferCheckpoint identity checkpoint =>
    svc.ingestTransferCheckpoint clock identity checkpoint db
  | .recordAttempt recordKind recordId targetWarden error =>
    Lets.recordAttempt recordKind recordId targetWarden clock.nowNs error db
  | .pruneTerminal batchSize => Lets.pruneTerminal batchSize db
  | .pruneCompactedTransferHistory batchSize => Lets.pruneCompactedTransferHistory batchSize db

def serve (svc : WardenService d Hash) (clock : Reading) (operation : Operation d)
    (db : Database d Hash) : Database d Hash × Outcome (Response d) :=
  match svc.exec clock operation db with
  | .ok (db', out) => (db', .ok out)
  | .error e => (db, .error e)

end WardenService

structure Call (d : ℕ) where
  clock : Reading
  operation : Operation d
  reply : Outcome (Response d)

namespace WardenService

def system (svc : WardenService d Hash) (envelope : Envelope d) :
    System (Database d Hash) (Call d) where
  Init db := db = .genesis svc.wardenId svc.keyId envelope
  Step db call db' := svc.serve call.clock call.operation db = (db', call.reply)

def play (svc : WardenService d Hash) (db : Database d Hash) :
    List (Reading × Operation d) → Database d Hash × List (Call d)
  | [] => (db, [])
  | (clock, operation) :: rest =>
    let served := svc.serve clock operation db
    let played := svc.play served.1 rest
    (played.1, ⟨clock, operation, served.2⟩ :: played.2)

theorem play_run (svc : WardenService d Hash) (envelope : Envelope d) (db : Database d Hash)
    (script : List (Reading × Operation d)) :
    (svc.system envelope).Run db (svc.play db script).2 (svc.play db script).1 := by
  induction script generalizing db with
  | nil => exact .nil db
  | cons call rest ih => exact System.Run.cons rfl (ih _)

theorem play_reachable (svc : WardenService d Hash) (envelope : Envelope d)
    (script : List (Reading × Operation d)) : (svc.system envelope).Reachable
      (svc.play (.genesis svc.wardenId svc.keyId envelope) script).1 :=
  ⟨_, _, rfl, svc.play_run envelope _ script⟩

variable {svc : WardenService d Hash} {clock : Reading} {operation : Operation d}
  {db db' : Database d Hash} {out : Response d}

theorem serve_ok_iff : svc.serve clock operation db = (db', .ok out) ↔
    svc.exec clock operation db = .ok (db', out) := by
  unfold serve
  cases h : svc.exec clock operation db with
  | ok result => simp [Prod.ext_iff]
  | error e => simp

def Rejects (svc : WardenService d Hash) (clock : Reading) (operation : Operation d)
    (db : Database d Hash) : Prop :=
  ∃ e, svc.serve clock operation db = (db, .error e)

theorem rejects_of_not_ok (h : ∀ db' out, svc.exec clock operation db ≠ .ok (db', out)) :
    svc.Rejects clock operation db := by
  unfold Rejects serve
  cases hexec : svc.exec clock operation db with
  | ok result => exact absurd hexec (h result.1 result.2)
  | error e => exact ⟨e, rfl⟩

theorem rejects_of_isNone (h : (svc.exec clock operation db).toOption.isNone = true) :
    svc.Rejects clock operation db := by
  refine rejects_of_not_ok fun db' out hexec => ?_
  rw [hexec] at h
  cases h

theorem step_cases {envelope : Envelope d} {call : Call d}
    (h : (svc.system envelope).Step db call db') :
    (∃ out, call.reply = .ok out ∧ svc.exec call.clock call.operation db = .ok (db', out)) ∨
      (∃ e, call.reply = .error e) ∧ db' = db := by
  cases hreply : call.reply with
  | ok out =>
    refine .inl ⟨out, rfl, serve_ok_iff.mp ?_⟩
    rw [← hreply]
    exact h
  | error e =>
    have hserve : svc.serve call.clock call.operation db = (db', .error e) := hreply ▸ h
    unfold serve at hserve
    cases hexec : svc.exec call.clock call.operation db with
    | ok result => simp [hexec] at hserve
    | error e' =>
      simp only [hexec, Prod.mk.injEq] at hserve
      exact .inr ⟨⟨e, rfl⟩, hserve.1.symm⟩

inductive Effect (svc : WardenService d Hash) (clock : Reading) (db : Database d Hash) :
    Operation d → Database d Hash → Response d → Prop
  | replayed {operation : Operation d} {db' : Database d Hash} {out : Response d}
      {scope requestId : String} {row : IdempotencyRow d}
      (request : operation.request = some (scope, requestId))
      (recorded : db.idempotency.lookup requestId = some row) (scope_eq : row.scope = scope)
      (response_eq : row.response = out) (touched : db' = db.touch clock.nowNs)
      (fingerprint_eq : ∀ arguments ∈ operation.arguments svc db.envelope.configEpoch,
        row.fingerprint = svc.fingerprint arguments) :
      Effect svc clock db operation db' out
  | runtimeSet {req : SetRuntimeModeRequest} {db' : Database d Hash} {out : Response d}
      {runtime : RuntimeStatus} {auditRows : List (AuditRow d Hash)}
      (request_new : db.idempotency.lookup req.requestId = none) (out_eq : out = .runtime runtime)
      (result : db' = Database.rememberResponse "set_runtime_mode" req.requestId
        (svc.fingerprint req.arguments) out clock.nowNs 200
        { db.touch clock.nowNs with runtime, auditLog := db.auditLog ++ auditRows })
      (unaudited : auditRows = [] → runtime = db.runtime)
      (chained : svc.AuditExtends db.auditLog (db.auditLog ++ auditRows)) :
      Effect svc clock db (.setRuntimeMode req) db' out
  | policyRegistered {identity : Option IdentityContext} {payload : PolicyPayload d}
      {db' : Database d Hash} {out : Response d} {policies : Table String (PolicyRow d)}
      {auditRows : List (AuditRow d Hash)} (out_eq : out = .digest (svc.policyDigest payload))
      (kept : ∀ digest row, db.policies.lookup digest = some row →
        policies.lookup digest = some row)
      (result : db' = { db.touch clock.nowNs with
        policies, auditLog := db.auditLog ++ auditRows })
      (chained : svc.AuditExtends db.auditLog (db.auditLog ++ auditRows)) :
      Effect svc clock db (.registerPolicy identity payload) db' out
  | rootIssued {newLeaseId newLineageId : String} {req : IssueRootRequest d}
      {db' : Database d Hash} {out : Response d}
      (done : RootIssued svc clock newLeaseId newLineageId req db db' out) :
      Effect svc clock db (.issueRoot newLeaseId newLineageId req) db' out
  | spawned {newLeaseId : String} {req : SpawnRequest d} {db' : Database d Hash}
      {out : Response d} (done : Spawned svc clock newLeaseId req db db' out) :
      Effect svc clock db (.spawn newLeaseId req) db' out
  | remoteSpawned {newLeaseId newTransferId : String} {req : SpawnRemoteRequest d}
      {db' : Database d Hash} {out : Response d}
      (done : RemoteSpawned svc clock newLeaseId newTransferId req db db' out) :
      Effect svc clock db (.spawnRemote newLeaseId newTransferId req) db' out
  | authorized {newReceiptId : String} {req : AuthorizeRequest} {db' : Database d Hash}
      {out : Response d} (done : Authorized svc clock newReceiptId req db db' out) :
      Effect svc clock db (.authorize newReceiptId req) db' out
  | renewed {req : RenewRequest} {db' : Database d Hash} {out : Response d}
      (done : Renewed svc clock req db db' out) : Effect svc clock db (.renew req) db' out
  | unmoved {operation : LifecycleOperation} {terminated : List (String × LeaseStatus)}
      {req : LifecycleRequest} {db' : Database d Hash} {out : Response d}
      (done : Unmoved svc operation clock req db db' out) :
      Effect svc clock db (.lifecycle operation terminated req) db' out
  | switched {operation : LifecycleOperation} {terminated : List (String × LeaseStatus)}
      {req : LifecycleRequest} {db' : Database d Hash} {out : Response d}
      (done : Switched svc operation clock req db db' out) :
      Effect svc clock db (.lifecycle operation terminated req) db' out
  | closed {terminated : List (String × LeaseStatus)} {req : LifecycleRequest}
      {db' : Database d Hash} {out : Response d}
      (done : Closed svc clock terminated req db db' out) :
      Effect svc clock db (.lifecycle .close terminated req) db' out
  | revokedAgain {req : RevokeBranchRequest} {branch : Lease d} {row : IdempotencyRow d}
      {db' : Database d Hash} {out : Response d}
      (branch_eq : db.leases.lookup req.leaseId = some branch)
      (recorded : db.idempotency.lookup req.requestId = some row)
      (scope_eq : row.scope = "revoke:" ++ req.leaseId) (response_eq : row.response = out)
      (done : MarkedAgain svc clock branch.lineageId req.leaseId db db')
      (fingerprint_eq : row.fingerprint =
        svc.fingerprint (req.arguments db.envelope.configEpoch)) :
      Effect svc clock db (.revokeBranch req) db' out
  | branchRevoked {req : RevokeBranchRequest} {branch : Lease d} {signature : String}
      {db₁ db' : Database d Hash} {out : Response d}
      (branch_eq : db.leases.lookup req.leaseId = some branch)
      (request_new : db.idempotency.lookup req.requestId = none)
      (out_eq : out = .revocation { svc.unsignedRevocation clock db req branch.lineageId
        (db.branchEpoch branch.lineageId req.leaseId) with signature })
      (done : BranchRevoked svc clock { svc.unsignedRevocation clock db req branch.lineageId
        (db.branchEpoch branch.lineageId req.leaseId) with signature } db db₁)
      (result : db' = db₁.rememberResponse ("revoke:" ++ req.leaseId) req.requestId
        (svc.fingerprint (req.arguments db.envelope.configEpoch)) out clock.nowNs 200) :
      Effect svc clock db (.revokeBranch req) db' out
  | revocationKnown {identity : IdentityContext} {revocation : BranchRevocation}
      {db' : Database d Hash} {out : Response d} (out_eq : out = .revocation revocation)
      (verified : svc.verifyRecord (.revocation revocation) revocation.issuerWarden = true)
      (stored : (revocation.lineageId, revocation.branchLeaseId) ∈ db.revocations)
      (done : MarkedAgain svc clock revocation.lineageId revocation.branchLeaseId db db') :
      Effect svc clock db (.ingestRevocation identity revocation) db' out
  | revocationStored {identity : IdentityContext} {revocation : BranchRevocation}
      {db' : Database d Hash} {out : Response d} (out_eq : out = .revocation revocation)
      (verified : svc.verifyRecord (.revocation revocation) revocation.issuerWarden = true)
      (done : BranchRevoked svc clock revocation db db') (unqueued : done.peers = []) :
      Effect svc clock db (.ingestRevocation identity revocation) db' out
  | reclaimed {identity : IdentityContext} {tenantId envelopeId : Option String}
      {db' : Database d Hash} {out : Response d} {amount : ResourceVector d}
      (out_eq : out = .reclaimed amount) (done : Reclaimed svc clock db db') :
      Effect svc clock db (.reclaimExpired identity tenantId envelopeId) db' out
  | prepared {newTransferId : String} {req : PrepareTransferRequest d} {db' : Database d Hash}
      {out : Response d} (done : Prepared svc clock newTransferId req db db' out) :
      Effect svc clock db (.prepareTransfer newTransferId req) db' out
  | redelivered {identity : IdentityContext} {voucher : TransferVoucher d}
      {db' : Database d Hash} {out : Response d} (shown : Presented svc identity voucher db)
      (done : Redelivered svc clock voucher db db' out) :
      Effect svc clock db (.acceptTransfer identity voucher) db' out
  | credited {identity : IdentityContext} {voucher : TransferVoucher d}
      {db' : Database d Hash} {out : Response d} (shown : Presented svc identity voucher db)
      (done : Credited svc clock voucher db db' out) :
      Effect svc clock db (.acceptTransfer identity voucher) db' out
  | finalized {identity : IdentityContext} {ack : TransferAck} {db' : Database d Hash}
      {out : Response d} (out_eq : out = .ack ack) (done : Finalized svc clock ack db db') :
      Effect svc clock db (.finalizeTransfer identity ack) db' out
  | checkpointCreated {identity : IdentityContext} {targetWarden : String}
      {throughSequence : Option ℕ} {db' : Database d Hash} {out : Response d}
      {checkpoint : TransferCheckpoint} (out_eq : out = .checkpoint checkpoint)
      (done : CheckpointCreated svc clock targetWarden checkpoint db db') :
      Effect svc clock db (.createTransferCheckpoint identity targetWarden throughSequence) db' out
  | checkpointIngested {identity : IdentityContext} {checkpoint : TransferCheckpoint}
      {db' : Database d Hash} {out : Response d} (out_eq : out = .checkpoint checkpoint)
      (done : CheckpointIngested svc clock checkpoint db db') :
      Effect svc clock db (.ingestTransferCheckpoint identity checkpoint) db' out
  | attempted {recordKind : RecordKind} {recordId targetWarden : String} {error : Option String}
      {db' : Database d Hash} {out : Response d}
      {deliveries : PeerDeliveries d} (out_eq : out = .done)
      (result : db' = { db with peerDeliveries := deliveries })
      (attempts : Attempts (recordKind, recordId, targetWarden) clock.nowNs error
        db.peerDeliveries deliveries) :
      Effect svc clock db (.recordAttempt recordKind recordId targetWarden error) db' out
  | prunedTerminal {batchSize : ℕ} {db' : Database d Hash} {out : Response d}
      {deliveries : PeerDeliveries d} (out_eq : out = .done)
      (result : db' = { db with peerDeliveries := deliveries })
      (prunes : Prunes db.peerDeliveries deliveries) :
      Effect svc clock db (.pruneTerminal batchSize) db' out
  | prunedHistory {batchSize : ℕ} {db' : Database d Hash} {out : Response d}
      {keepTransfer keepAck : String × ℕ → Bool} (out_eq : out = .done)
      (covered : ∀ key, keepAck key = false → ∃ stream,
        db.inboundStreams.lookup key.1 = some stream ∧ key.2 ≤ stream.compactedThrough)
      (result : db' = { db with
        outgoingTransfers := db.outgoingTransfers.filterRows fun key _ => keepTransfer key
        inboundAcks := db.inboundAcks.filterRows fun key _ => keepAck key })
      (coveredTransfers : ∀ key, keepTransfer key = false → ∃ stream,
        db.outgoingStreams.lookup key.1 = some stream ∧ key.2 ≤ stream.compactedThrough) :
      Effect svc clock db (.pruneCompactedTransferHistory batchSize) db' out

theorem effect_of_replays {scope requestId : String} {arguments : Arguments d}
    (hrequest : operation.request = some (scope, requestId))
    (harguments : operation.arguments svc db.envelope.configEpoch = some arguments)
    (h : Database.Replays clock scope requestId (svc.fingerprint arguments) out db db') :
    Effect svc clock db operation db' out := by
  obtain ⟨hdb, row, hrow, hscope, hfingerprint, hresponse⟩ := h
  refine .replayed hrequest hrow hscope hresponse hdb fun arguments' harguments' => ?_
  rw [hfingerprint, some_unique harguments harguments']

/-- A successful operation has read an admissible clock, left the ledger balanced, and done what it
is there to do. -/
theorem exec_ok (h : svc.exec clock operation db = .ok (db', out)) :
    (operation.readsClock = true → db.ClockSafe clock) ∧ db'.Conserved ∧
      Effect svc clock db operation db' out := by
  cases operation with
  | setRuntimeMode req =>
    obtain ⟨hclock, hcons, hreplay | ⟨hnew, runtime, rows, hout, hrows, hchained, hdb⟩⟩ :=
      setRuntimeMode_ok h
    · exact ⟨fun _ => hclock, hcons, effect_of_replays rfl rfl hreplay⟩
    · exact ⟨fun _ => hclock, hcons, .runtimeSet hnew hout hdb hrows hchained⟩
  | registerPolicy identity payload =>
    obtain ⟨hclock, hcons, hout, policies, rows, hkept, hchained, hdb⟩ := registerPolicy_ok h
    exact ⟨fun _ => hclock, hcons, .policyRegistered hout hkept hdb hchained⟩
  | issueRoot newLeaseId newLineageId req =>
    obtain ⟨hclock, hcons, hreplay | ⟨⟨done⟩⟩⟩ := issueRoot_ok h
    · exact ⟨fun _ => hclock, hcons, effect_of_replays rfl rfl hreplay⟩
    · exact ⟨fun _ => hclock, hcons, .rootIssued done⟩
  | spawn newLeaseId req =>
    obtain ⟨hclock, hcons, hreplay | ⟨⟨done⟩⟩⟩ := spawn_ok h
    · exact ⟨fun _ => hclock, hcons, effect_of_replays rfl rfl hreplay⟩
    · exact ⟨fun _ => hclock, hcons, .spawned done⟩
  | spawnRemote newLeaseId newTransferId req =>
    obtain ⟨hclock, hcons, hreplay | ⟨⟨done⟩⟩⟩ := spawnRemote_ok h
    · exact ⟨fun _ => hclock, hcons, effect_of_replays rfl rfl hreplay⟩
    · exact ⟨fun _ => hclock, hcons, .remoteSpawned done⟩
  | authorize newReceiptId req =>
    obtain ⟨hclock, hcons, hreplay | ⟨⟨done⟩⟩⟩ := authorize_ok h
    · exact ⟨fun _ => hclock, hcons, effect_of_replays rfl rfl hreplay⟩
    · exact ⟨fun _ => hclock, hcons, .authorized done⟩
  | renew req =>
    obtain ⟨hclock, hcons, hreplay | ⟨⟨done⟩⟩⟩ := renew_ok h
    · exact ⟨fun _ => hclock, hcons, effect_of_replays rfl rfl hreplay⟩
    · exact ⟨fun _ => hclock, hcons, .renewed done⟩
  | lifecycle operation terminated req =>
    obtain ⟨hclock, hcons, hreplay | ⟨⟨done⟩⟩ | ⟨⟨done⟩⟩ | ⟨rfl, ⟨done⟩⟩⟩ := lifecycle_ok h
    · exact ⟨fun _ => hclock, hcons, effect_of_replays rfl rfl hreplay⟩
    · exact ⟨fun _ => hclock, hcons, .unmoved done⟩
    · exact ⟨fun _ => hclock, hcons, .switched done⟩
    · exact ⟨fun _ => hclock, hcons, .closed done⟩
  | revokeBranch req =>
    obtain ⟨hclock, hcons, branch, hbranch, ⟨row, hrow, hscope, hfingerprint, hresponse, ⟨done⟩⟩ |
      ⟨hnew, signature, db₁, hout, ⟨done⟩, hdb⟩⟩ := revokeBranch_ok h
    · exact ⟨fun _ => hclock, hcons, .revokedAgain hbranch hrow hscope hresponse done hfingerprint⟩
    · exact ⟨fun _ => hclock, hcons, .branchRevoked hbranch hnew hout done hdb⟩
  | ingestRevocation identity revocation =>
    obtain ⟨hclock, hcons, hout, hverify, _, ⟨hstored, ⟨done⟩⟩ | ⟨done, hpeers⟩⟩ :=
      ingestRevocation_ok h
    · exact ⟨fun _ => hclock, hcons, .revocationKnown hout hverify hstored done⟩
    · exact ⟨fun _ => hclock, hcons, .revocationStored hout hverify done hpeers⟩
  | reclaimExpired identity tenantId envelopeId =>
    obtain ⟨hclock, hcons, ⟨amount, hout⟩, ⟨done⟩⟩ := reclaimExpired_ok h
    exact ⟨fun _ => hclock, hcons, .reclaimed hout done⟩
  | prepareTransfer newTransferId req =>
    obtain ⟨hclock, hcons, hreplay | ⟨⟨done⟩⟩⟩ := prepareTransfer_ok h
    · exact ⟨fun _ => hclock, hcons, effect_of_replays rfl rfl hreplay⟩
    · exact ⟨fun _ => hclock, hcons, .prepared done⟩
  | acceptTransfer identity voucher =>
    obtain ⟨hclock, hcons, hshown, ⟨⟨done⟩⟩ | ⟨⟨done⟩⟩⟩ := acceptTransfer_ok h
    · exact ⟨fun _ => hclock, hcons, .redelivered hshown done⟩
    · exact ⟨fun _ => hclock, hcons, .credited hshown done⟩
  | finalizeTransfer identity ack =>
    obtain ⟨hclock, hcons, hout, ⟨done⟩⟩ := finalizeTransfer_ok h
    exact ⟨fun _ => hclock, hcons, .finalized hout done⟩
  | createTransferCheckpoint identity targetWarden throughSequence =>
    obtain ⟨hclock, hcons, checkpoint, hout, ⟨done⟩⟩ := createTransferCheckpoint_ok h
    exact ⟨fun _ => hclock, hcons, .checkpointCreated hout done⟩
  | ingestTransferCheckpoint identity checkpoint =>
    obtain ⟨hclock, hcons, hout, ⟨done⟩⟩ := ingestTransferCheckpoint_ok h
    exact ⟨fun _ => hclock, hcons, .checkpointIngested hout done⟩
  | recordAttempt recordKind recordId targetWarden error =>
    obtain ⟨hcons, hout, deliveries, hattempts, hdb⟩ := recordAttempt_ok h
    exact ⟨(by rintro ⟨⟩), hcons, .attempted hout hdb hattempts⟩
  | pruneTerminal batchSize =>
    obtain ⟨hcons, hout, deliveries, hprunes, hdb⟩ := pruneTerminal_ok h
    exact ⟨(by rintro ⟨⟩), hcons, .prunedTerminal hout hdb hprunes⟩
  | pruneCompactedTransferHistory batchSize =>
    obtain ⟨hcons, hout, keepTransfer, keepAck, hcovered, htransfers, hdb⟩ :=
      pruneCompactedTransferHistory_ok h
    exact ⟨(by rintro ⟨⟩), hcons, .prunedHistory hout hcovered hdb htransfers⟩

theorem effect_cases {envelope : Envelope d} {call : Call d}
    (h : (svc.system envelope).Step db call db') :
    (∃ out, call.reply = .ok out ∧ Effect svc call.clock db call.operation db' out) ∨
      (∃ e, call.reply = .error e) ∧ db' = db := by
  rcases step_cases h with ⟨out, hreply, hexec⟩ | herror
  · exact .inl ⟨out, hreply, (exec_ok hexec).2.2⟩
  · exact .inr herror

/-- What holds of a new store and is kept by every successful operation, and by every failed one,
holds along every run. -/
theorem run_induction {envelope : Envelope d} {P : List (Call d) → Database d Hash → Prop}
    (hgenesis : P [] (.genesis svc.wardenId svc.keyId envelope))
    (hok : ∀ calls db call db' out, P calls db → call.reply = .ok out →
      (call.operation.readsClock = true → db.ClockSafe call.clock) → db'.Conserved →
      Effect svc call.clock db call.operation db' out → P (calls ++ [call]) db')
    (herror : ∀ calls db call e, P calls db → call.reply = .error e → P (calls ++ [call]) db)
    {db₀ : Database d Hash} {calls : List (Call d)} (hinit : (svc.system envelope).Init db₀)
    (run : (svc.system envelope).Run db₀ calls db) : P calls db := by
  refine run.history (hinit ▸ hgenesis) fun calls db call db' hP step => ?_
  rcases step_cases step with ⟨out, hreply, hexec⟩ | ⟨⟨e, hreply⟩, rfl⟩
  · obtain ⟨hclock, hconserved, heffect⟩ := exec_ok hexec
    exact hok calls db call db' out hP hreply hclock hconserved heffect
  · exact herror calls db' call e hP hreply

/-- What holds of a new store and is kept by every effect holds of every store that is reached. -/
theorem invariant_of_reachable {envelope : Envelope d} {P : Database d Hash → Prop}
    (hgenesis : P (.genesis svc.wardenId svc.keyId envelope))
    (heffect : ∀ clock db operation db' out, P db →
      (operation.readsClock = true → db.ClockSafe clock) →
      Effect svc clock db operation db' out → P db')
    (hreach : (svc.system envelope).Reachable db) : P db := by
  obtain ⟨db₀, calls, hinit, run⟩ := hreach
  refine run_induction (P := fun _ db => P db) hgenesis ?_ ?_ hinit run
  · exact fun _ _ _ _ _ h _ hclock _ hstep => heffect _ _ _ _ _ h hclock hstep
  · exact fun _ _ _ _ h _ => h

end WardenService

/-! ### What an operation leaves alone -/

namespace Database

def fixed (db : Database d Hash) : String × String × Envelope d :=
  (db.wardenId, db.signingKeyId, db.envelope)

def inbound (db : Database d Hash) : Table String InboundStream × Table (String × ℕ) ℕ ×
    Table (String × ℕ) InboundAck × ResourceVector d :=
  (db.inboundStreams, db.inboundGaps, db.inboundAcks, db.transferredIn)

def charges (db : Database d Hash) : Table String (Receipt d) × ResourceVector d :=
  (db.receipts, db.consumed)

def nextSequence (targetWarden : String) (db : Database d Hash) : ℕ :=
  (db.outgoingStream targetWarden).nextSequence

variable {db db' : Database d Hash} {targetWarden : String} {stream : OutgoingStream}

theorem nextSequence_of_insert (henvelope : db'.envelope = db.envelope)
    (hstreams : db'.outgoingStreams = db.outgoingStreams.insert targetWarden stream)
    (target : String) : db'.nextSequence target =
      if target = targetWarden then stream.nextSequence else db.nextSequence target := by
  unfold nextSequence outgoingStream
  rw [hstreams, henvelope, Table.lookup_insert_eq]
  split_ifs <;> rfl

theorem nextSequence_of_same (henvelope : db'.envelope = db.envelope) {stream' : OutgoingStream}
    (hstream : db.outgoingStreams.lookup targetWarden = some stream)
    (hnext : stream'.nextSequence = stream.nextSequence)
    (hstreams : db'.outgoingStreams = db.outgoingStreams ∨
      db'.outgoingStreams = db.outgoingStreams.insert targetWarden stream')
    (target : String) : db'.nextSequence target = db.nextSequence target := by
  rcases hstreams with hsame | hinsert
  · unfold nextSequence outgoingStream
    rw [hsame, henvelope]
  · rw [nextSequence_of_insert henvelope hinsert]
    split_ifs with htarget
    · rw [htarget, nextSequence, outgoingStream, hstream, hnext]
      rfl
    · rfl

end Database

def Database.Recorded (out : Response d) (db : Database d Hash) : Prop :=
  ∃ requestId row, db.idempotency.lookup requestId = some row ∧ row.response = out

namespace WardenService

/-- What signing a new voucher does to the outgoing side of the database. -/
structure Signs (svc : WardenService d Hash) (voucher : TransferVoucher d)
    (db db' : Database d Hash) : Prop where
  source_eq : voucher.sourceWarden = svc.wardenId
  sequence_eq : voucher.sequence = db.nextSequence voucher.targetWarden
  next_eq : ∀ target, db'.nextSequence target =
    if target = voucher.targetWarden then db.nextSequence target + 1 else db.nextSequence target
  out_eq : ∀ i, db'.transferredOut i = db.transferredOut i + voucher.amount i

theorem signs_of_insert {svc : WardenService d Hash} {voucher : TransferVoucher d}
    {db db' : Database d Hash} {targetWarden : String} {stream : OutgoingStream}
    (henvelope : db'.envelope = db.envelope)
    (hstreams : db'.outgoingStreams = db.outgoingStreams.insert targetWarden stream)
    (hsource : voucher.sourceWarden = svc.wardenId) (htarget : voucher.targetWarden = targetWarden)
    (hsequence : voucher.sequence = db.nextSequence targetWarden)
    (hstream : stream.nextSequence = db.nextSequence targetWarden + 1)
    (hout : ∀ i, db'.transferredOut i = db.transferredOut i + voucher.amount i) :
    Signs svc voucher db db' := by
  subst htarget
  refine ⟨hsource, hsequence, fun target => ?_, hout⟩
  rw [Database.nextSequence_of_insert henvelope hstreams, hstream]
  split_ifs with heq
  · rw [heq]
  · rfl

theorem Authorized.receipts_eq {svc : WardenService d Hash} {clock : Reading}
    {newReceiptId : String} {req : AuthorizeRequest} {db db' : Database d Hash} {out : Response d}
    (done : Authorized svc clock newReceiptId req db db' out) :
    db'.receipts = db.receipts.insert newReceiptId done.receipt :=
  congrArg Database.receipts done.result

namespace Effect

variable {svc : WardenService d Hash} {clock : Reading} {operation : Operation d}
  {db db' : Database d Hash} {out : Response d}

variable (h : Effect svc clock db operation db' out)

include h

theorem fixed_eq : db'.fixed = db.fixed := by
  cases h with
  | replayed _ _ _ _ result | runtimeSet _ _ result | policyRegistered _ _ result
  | attempted _ result | prunedTerminal _ result | prunedHistory _ _ result => rw [result]; rfl
  | rootIssued done | spawned done | remoteSpawned done | authorized done | renewed done
  | unmoved done | switched done | closed done | prepared done => rw [done.result]; rfl
  | redelivered _ done | credited _ done | reclaimed _ done | finalized _ done
  | checkpointCreated _ done | checkpointIngested _ done => rw [done.result]; rfl
  | revokedAgain _ _ _ _ done => rw [done.result, done.materialized.result]; rfl
  | branchRevoked _ _ _ done result => rw [result, done.result, done.materialized.result]; rfl
  | revocationKnown _ _ _ done | revocationStored _ _ done =>
    rw [done.result, done.materialized.result]; rfl

theorem floor_eq : db'.clockFloorNs =
      if operation.readsClock then some (db.advancedFloor clock.nowNs) else db.clockFloorNs := by
  cases h with
  | replayed hrequest _ _ _ result =>
    rw [result, if_pos]
    · rfl
    · cases operation <;> simp_all [Operation.request, Operation.readsClock]
  | runtimeSet _ _ result | policyRegistered _ _ result | attempted _ result
  | prunedTerminal _ result | prunedHistory _ _ result => rw [result]; rfl
  | rootIssued done | spawned done | remoteSpawned done | authorized done | renewed done
  | unmoved done | switched done | closed done | prepared done => rw [done.result]; rfl
  | redelivered _ done | credited _ done | reclaimed _ done | finalized _ done
  | checkpointCreated _ done | checkpointIngested _ done => rw [done.result]; rfl
  | revokedAgain _ _ _ _ done => rw [done.result, done.materialized.result]; rfl
  | branchRevoked _ _ _ done result => rw [result, done.result, done.materialized.result]; rfl
  | revocationKnown _ _ _ done | revocationStored _ _ done =>
    rw [done.result, done.materialized.result]; rfl

theorem policies_kept {digest : String} {row : PolicyRow d}
    (hrow : db.policies.lookup digest = some row) : db'.policies.lookup digest = some row := by
  cases h with
  | policyRegistered _ kept result => rw [result]; exact kept digest row hrow
  | replayed _ _ _ _ result | runtimeSet _ _ result | attempted _ result
  | prunedTerminal _ result | prunedHistory _ _ result => rw [result]; exact hrow
  | rootIssued done | spawned done | remoteSpawned done | authorized done | renewed done
  | unmoved done | switched done | closed done | prepared done => rw [done.result]; exact hrow
  | redelivered _ done | credited _ done | reclaimed _ done | finalized _ done
  | checkpointCreated _ done | checkpointIngested _ done => rw [done.result]; exact hrow
  | revokedAgain _ _ _ _ done => rw [done.result, done.materialized.result]; exact hrow
  | branchRevoked _ _ _ done result =>
    rw [result, done.result, done.materialized.result]; exact hrow
  | revocationKnown _ _ _ done | revocationStored _ _ done =>
    rw [done.result, done.materialized.result]; exact hrow

theorem idempotency_eq :
    db'.idempotency = db.idempotency ∨ ∃ scope requestId fingerprint statusCode,
      operation.request = some (scope, requestId) ∧ db.idempotency.lookup requestId = none ∧
      db'.idempotency = db.idempotency.insert requestId
        { scope, fingerprint, response := out, statusCode, createdAtNs := clock.nowNs } := by
  cases h with
  | runtimeSet request_new _ result =>
    rw [result]; exact .inr ⟨_, _, _, _, rfl, request_new, rfl⟩
  | rootIssued done | spawned done | remoteSpawned done | authorized done | renewed done
  | unmoved done | switched done | closed done | prepared done =>
    rw [done.result]; exact .inr ⟨_, _, _, _, rfl, done.request_new, rfl⟩
  | branchRevoked _ request_new _ done result =>
    rw [result, done.result, done.materialized.result]
    exact .inr ⟨_, _, _, _, rfl, request_new, rfl⟩
  | replayed _ _ _ _ result | policyRegistered _ _ result | attempted _ result
  | prunedTerminal _ result | prunedHistory _ _ result => rw [result]; exact .inl rfl
  | redelivered _ done | credited _ done | reclaimed _ done | finalized _ done
  | checkpointCreated _ done | checkpointIngested _ done => rw [done.result]; exact .inl rfl
  | revokedAgain _ _ _ _ done | revocationKnown _ _ _ done | revocationStored _ _ done =>
    rw [done.result, done.materialized.result]; exact .inl rfl

theorem charges_cases :
    (db'.charges = db.charges ∧ ∀ receipt, out = .receipt receipt → db.Recorded out) ∨
      ∃ newReceiptId req, operation = .authorize newReceiptId req ∧
        Nonempty (Authorized svc clock newReceiptId req db db' out) := by
  cases h with
  | authorized done => exact .inr ⟨_, _, rfl, ⟨done⟩⟩
  | replayed _ recorded _ response_eq result =>
    rw [result]; exact .inl ⟨rfl, fun _ _ => ⟨_, _, recorded, response_eq⟩⟩
  | runtimeSet _ out_eq result => rw [result, out_eq]; exact .inl ⟨rfl, (by simp)⟩
  | policyRegistered out_eq _ result | attempted out_eq result | prunedTerminal out_eq result
  | prunedHistory out_eq _ result => rw [result, out_eq]; exact .inl ⟨rfl, (by simp)⟩
  | rootIssued done | spawned done | remoteSpawned done | renewed done | unmoved done
  | switched done | closed done | prepared done | redelivered _ done | credited _ done =>
    exact .inl ⟨by rw [done.result]; rfl, fun _ h => absurd (done.out_eq.symm.trans h) (by simp)⟩
  | reclaimed out_eq done | finalized out_eq done | checkpointCreated out_eq done
  | checkpointIngested out_eq done => rw [done.result, out_eq]; exact .inl ⟨rfl, (by simp)⟩
  | revokedAgain _ recorded _ response_eq done =>
    rw [done.result, done.materialized.result]
    exact .inl ⟨rfl, fun _ _ => ⟨_, _, recorded, response_eq⟩⟩
  | branchRevoked _ _ out_eq done result =>
    rw [result, done.result, done.materialized.result, out_eq]; exact .inl ⟨rfl, (by simp)⟩
  | revocationKnown out_eq _ _ done | revocationStored out_eq _ done =>
    rw [done.result, done.materialized.result, out_eq]; exact .inl ⟨rfl, (by simp)⟩

theorem receipt_cases {receiptId : String} {receipt : Receipt d}
    (hreceipt : db'.receipts.lookup receiptId = some receipt) :
    db.receipts.lookup receiptId = some receipt ∨
      ∃ req, ∃ done : Authorized svc clock receiptId req db db' out, receipt = done.receipt := by
  rcases h.charges_cases with ⟨hcharges, _⟩ | ⟨newReceiptId, req, _, ⟨done⟩⟩
  · have hreceipts : db'.receipts = db.receipts := congrArg Prod.fst hcharges
    exact .inl (hreceipts ▸ hreceipt)
  · rw [done.receipts_eq, Table.lookup_insert_eq] at hreceipt
    split_ifs at hreceipt with hid
    · subst hid
      exact .inr ⟨req, done, (Option.some.inj hreceipt).symm⟩
    · exact .inl hreceipt

theorem outbound_cases : (((∀ target, db'.nextSequence target = db.nextSequence target) ∧
        db'.transferredOut = db.transferredOut) ∧
        ∀ voucher, out = .voucher voucher → db.Recorded out) ∨
      ∃ voucher, out = .voucher voucher ∧ Signs svc voucher db db' := by
  cases h with
  | remoteSpawned done | prepared done =>
    refine .inr ⟨_, done.out_eq, signs_of_insert (by rw [done.result]; rfl)
      (congrArg Database.outgoingStreams done.result) ?_ ?_ ?_ rfl fun i => ?_⟩
    · rw [done.voucher_eq]; rfl
    · rw [done.voucher_eq]; rfl
    · rw [done.voucher_eq]; rfl
    · rw [done.voucher_eq, congrFun (congrArg ResourceVector.amount
        (congrArg Database.transferredOut done.result)) i]
      exact done.transferredOut_eq i
  | replayed _ recorded _ response_eq result =>
    rw [result]; exact .inl ⟨⟨fun _ => rfl, rfl⟩, fun _ _ => ⟨_, _, recorded, response_eq⟩⟩
  | runtimeSet _ out_eq result | policyRegistered out_eq _ result | attempted out_eq result
  | prunedTerminal out_eq result | prunedHistory out_eq _ result =>
    rw [result, out_eq]; exact .inl ⟨⟨fun _ => rfl, rfl⟩, (by simp)⟩
  | rootIssued done | spawned done | authorized done | renewed done | unmoved done
  | switched done | closed done | redelivered _ done | credited _ done =>
    exact .inl ⟨by rw [done.result]; exact ⟨fun _ => rfl, rfl⟩,
      fun _ h => absurd (done.out_eq.symm.trans h) (by simp)⟩
  | finalized out_eq done =>
    refine .inl ⟨⟨?_, by rw [done.result]; rfl⟩, by rw [out_eq]; exact (by simp)⟩
    have hstreams : db'.outgoingStreams = done.streams :=
      congrArg Database.outgoingStreams done.result
    have hnext : ({ done.stream with ackedThrough := done.watermark } : OutgoingStream).nextSequence =
      done.stream.nextSequence := rfl
    exact Database.nextSequence_of_same (by rw [done.result]; rfl) done.stream_eq hnext
      (hstreams ▸ done.streams_eq)
  | checkpointCreated out_eq done =>
    refine .inl ⟨⟨?_, by rw [done.result]; rfl⟩, by rw [out_eq]; exact (by simp)⟩
    have hstreams : db'.outgoingStreams = done.streams :=
      congrArg Database.outgoingStreams done.result
    exact Database.nextSequence_of_same (by rw [done.result]; rfl) done.stream_eq
      done.nextSequence_eq (hstreams ▸ done.streams_eq)
  | reclaimed out_eq done | checkpointIngested out_eq done =>
    rw [done.result, out_eq]; exact .inl ⟨⟨fun _ => rfl, rfl⟩, (by simp)⟩
  | revokedAgain _ recorded _ response_eq done =>
    rw [done.result, done.materialized.result]
    exact .inl ⟨⟨fun _ => rfl, rfl⟩, fun _ _ => ⟨_, _, recorded, response_eq⟩⟩
  | branchRevoked _ _ out_eq done result =>
    rw [result, done.result, done.materialized.result, out_eq]
    exact .inl ⟨⟨fun _ => rfl, rfl⟩, (by simp)⟩
  | revocationKnown out_eq _ _ done | revocationStored out_eq _ done =>
    rw [done.result, done.materialized.result, out_eq]; exact .inl ⟨⟨fun _ => rfl, rfl⟩, (by simp)⟩

theorem inbound_cases :
    db'.inbound = db.inbound ∧ (∀ identity voucher, operation ≠ .acceptTransfer identity voucher) ∨
      (∃ identity voucher, operation = .acceptTransfer identity voucher ∧
        Presented svc identity voucher db ∧
        (Nonempty (Redelivered svc clock voucher db db' out) ∨
          Nonempty (Credited svc clock voucher db db' out))) ∨
      (∃ identity checkpoint, operation = .ingestTransferCheckpoint identity checkpoint ∧
        Nonempty (CheckpointIngested svc clock checkpoint db db')) ∨
      (∃ (batchSize : ℕ) (keepAck : String × ℕ → Bool),
        operation = .pruneCompactedTransferHistory batchSize ∧
        (∀ key, keepAck key = false → ∃ stream, db.inboundStreams.lookup key.1 = some stream ∧
          key.2 ≤ stream.compactedThrough) ∧
        db'.inbound = (db.inboundStreams, db.inboundGaps,
          db.inboundAcks.filterRows (fun key _ => keepAck key), db.transferredIn)) := by
  cases h with
  | redelivered shown done => exact .inr (.inl ⟨_, _, rfl, shown, .inl ⟨done⟩⟩)
  | credited shown done => exact .inr (.inl ⟨_, _, rfl, shown, .inr ⟨done⟩⟩)
  | checkpointIngested _ done => exact .inr (.inr (.inl ⟨_, _, rfl, ⟨done⟩⟩))
  | prunedHistory _ covered result =>
    rw [result]; exact .inr (.inr (.inr ⟨_, _, rfl, covered, rfl⟩))
  | replayed request _ _ _ result =>
    rw [result]
    refine .inl ⟨rfl, ?_⟩
    rintro identity voucher rfl
    exact absurd request (by rintro ⟨⟩)
  | runtimeSet _ _ result | policyRegistered _ _ result | attempted _ result
  | prunedTerminal _ result => rw [result]; exact .inl ⟨rfl, (by simp)⟩
  | rootIssued done | spawned done | remoteSpawned done | authorized done | renewed done
  | unmoved done | switched done | closed done | prepared done =>
    rw [done.result]; exact .inl ⟨rfl, (by simp)⟩
  | reclaimed _ done | finalized _ done | checkpointCreated _ done =>
    rw [done.result]; exact .inl ⟨rfl, (by simp)⟩
  | revokedAgain _ _ _ _ done | revocationKnown _ _ _ done | revocationStored _ _ done =>
    rw [done.result, done.materialized.result]; exact .inl ⟨rfl, (by simp)⟩
  | branchRevoked _ _ _ done result =>
    rw [result, done.result, done.materialized.result]; exact .inl ⟨rfl, (by simp)⟩

end Effect

end WardenService

end Lets
