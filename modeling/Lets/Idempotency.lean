import Lets.Ledger
import Lets.Timestamps
import Lets.Sample

set_option autoImplicit false

/-!
# Answering a request again

A request that has succeeded is remembered with its scope, the fingerprint of its arguments and its
reply.
-/

namespace Lets

open Library

variable {d : ℕ} {Hash : Type}

/-- The two calls make the same request; the identifiers a warden would draw for it and what it
found by asking its peers may differ. -/
inductive Operation.Repeats : Operation d → Operation d → Prop
  | setRuntimeMode (req : SetRuntimeModeRequest) : Repeats (.setRuntimeMode req) (.setRuntimeMode req)
  | issueRoot {leaseId lineageId leaseId' lineageId' : String} (req : IssueRootRequest d) :
      Repeats (.issueRoot leaseId lineageId req) (.issueRoot leaseId' lineageId' req)
  | spawn {leaseId leaseId' : String} (req : SpawnRequest d) :
      Repeats (.spawn leaseId req) (.spawn leaseId' req)
  | spawnRemote {leaseId transferId leaseId' transferId' : String} (req : SpawnRemoteRequest d) :
      Repeats (.spawnRemote leaseId transferId req) (.spawnRemote leaseId' transferId' req)
  | authorize {receiptId receiptId' : String} (req : AuthorizeRequest) :
      Repeats (.authorize receiptId req) (.authorize receiptId' req)
  | renew (req : RenewRequest) : Repeats (.renew req) (.renew req)
  | lifecycle (operation : LifecycleOperation) {terminated terminated' : List (String × LeaseStatus)}
      (req : LifecycleRequest) :
      Repeats (.lifecycle operation terminated req) (.lifecycle operation terminated' req)
  | revokeBranch (req : RevokeBranchRequest) : Repeats (.revokeBranch req) (.revokeBranch req)
  | prepareTransfer {transferId transferId' : String} (req : PrepareTransferRequest d) :
      Repeats (.prepareTransfer transferId req) (.prepareTransfer transferId' req)

/-- The tenant and envelope that an operation names besides its fingerprinted arguments. -/
def Operation.addressee : Operation d → Option (String × String)
  | issueRoot _ _ req => some (req.tenantId, req.envelopeId)
  | prepareTransfer _ req => some (req.tenantId, req.envelopeId)
  | _ => none

/-- A tenant and envelope that the operation names are the ones configured. -/
def Operation.Addressed (db : Database d Hash) (operation : Operation d) : Prop :=
  ∀ addressee ∈ operation.addressee,
    addressee = (db.envelope.tenantId, db.envelope.envelopeId)

namespace WardenService

def HoldsLease (identity : IdentityContext) (leaseId : String) (db : Database d Hash) : Prop :=
  ∃ lease, db.leases.lookup leaseId = some lease ∧
    (identity.subjectId = lease.subjectId ∨ identity.HasScope subjectLifecycleScopes)

/-- What an operation with a request id checks before it looks the request up, its clock apart. -/
def Admissible (svc : WardenService d Hash) (db : Database d Hash) : Operation d → Prop
  | .setRuntimeMode req =>
    (0 < req.reason.length ∧ req.reason.length ≤ 2000) ∧
      requireAdmin req.identity db.envelope.tenantId = .ok () ∧
      svc.verifyDatabaseIdentity db = .ok ()
  | .issueRoot _ _ req =>
    req.identity.tenantId = req.tenantId ∧ req.identity.HasScope rootIssuerScopes ∧
      positiveTtl req.ttlNs = .ok () ∧ req.allocation.NonZero ∧
      svc.verifyDatabaseIdentity db = .ok () ∧
      db.requireEnvelope req.tenantId req.envelopeId = .ok ()
  | .spawn _ req =>
    positiveTtl req.ttlNs = .ok () ∧ checkExpectedSequence req.expectedSequence = .ok () ∧
      req.identity.tenantId = db.envelope.tenantId ∧ req.allocation.NonZero ∧
      HoldsLease req.identity req.parentId db
  | .spawnRemote _ _ req =>
    req.targetWarden ≠ svc.wardenId ∧
      (∃ peers ∈ svc.allowedPeerWardens, req.targetWarden ∈ peers) ∧
      positiveTtl req.ttlNs = .ok () ∧ checkExpectedSequence req.expectedSequence = .ok () ∧
      req.identity.tenantId = db.envelope.tenantId ∧ req.allocation.NonZero ∧
      svc.verifyDatabaseIdentity db = .ok () ∧ HoldsLease req.identity req.parentId db
  | .authorize _ req =>
    16 ≤ req.nonce.length ∧ checkExpectedSequence req.expectedSequence = .ok () ∧
      req.identity.tenantId = db.envelope.tenantId ∧ HoldsLease req.identity req.leaseId db
  | .renew req =>
    positiveTtl req.ttlNs = .ok () ∧ checkExpectedSequence req.expectedSequence = .ok () ∧
      req.identity.tenantId = db.envelope.tenantId ∧
      ∃ lease, db.leases.lookup req.leaseId = some lease ∧
        (req.identity.subjectId = lease.subjectId ∨
          req.identity.HasScope subjectLifecycleScopes) ∧
        (lease.parentId = none → req.identity.HasScope subjectLifecycleScopes)
  | .lifecycle _ _ req =>
    checkExpectedSequence req.expectedSequence = .ok () ∧
      req.identity.tenantId = db.envelope.tenantId ∧ HoldsLease req.identity req.leaseId db
  | .revokeBranch req =>
    (0 < req.reason.length ∧ req.reason.length ≤ 1000) ∧
      (∀ e ∈ req.expectedEpoch, e ≤ maxResource) ∧
      req.identity.HasScope (adminScopes ++ ["lets.branch.revoke"]) ∧
      req.identity.tenantId = db.envelope.tenantId ∧
      ∃ branch, db.leases.lookup req.leaseId = some branch
  | .prepareTransfer _ req =>
    req.targetWarden ≠ svc.wardenId ∧
      (∀ peers ∈ svc.allowedPeerWardens, req.targetWarden ∈ peers) ∧
      req.identity.tenantId = req.tenantId ∧
      (req.identity.subjectId = svc.wardenId ∨
        req.identity.HasScope (adminScopes ++ ["lets.transfer"])) ∧
      req.amount.NonZero ∧ svc.verifyDatabaseIdentity db = .ok () ∧
      db.requireEnvelope req.tenantId req.envelopeId = .ok () ∧
      ∃ selected, db.selectPolicy req.policyDigest = .ok selected
  | _ => True

variable {svc : WardenService d Hash} {clock : Reading} {operation : Operation d}
  {db db' : Database d Hash} {out : Response d}

theorem admissible_of_exec (h : svc.exec clock operation db = .ok (db', out)) :
    svc.Admissible db operation := by
  cases operation with
  | setRuntimeMode req =>
    simp only [exec, setRuntimeMode, bind_ok_iff, require_ok_iff, exists_unit_iff] at h
    obtain ⟨hreason, hadmin, h⟩ := h
    obtain ⟨h, _⟩ := writeTransaction_ok h
    simp only [bind_ok_iff, exists_unit_iff] at h
    exact ⟨hreason, hadmin, h.1⟩
  | issueRoot newLeaseId newLineageId req =>
    simp only [exec, issueRoot, bind_ok_iff, require_ok_iff, exists_unit_iff] at h
    obtain ⟨htenant, hscope, httl, hallocation, h⟩ := h
    obtain ⟨h, _⟩ := writeTransaction_ok h
    simp only [bind_ok_iff, exists_unit_iff] at h
    exact ⟨htenant, hscope, httl, hallocation, h.1, h.2.1⟩
  | spawn newLeaseId req =>
    simp only [exec, spawn, bind_ok_iff, require_ok_iff, exists_unit_iff] at h
    obtain ⟨httl, hsequence, htenant, hallocation, h⟩ := h
    obtain ⟨h, _⟩ := writeTransaction_ok h
    simp only [bind_ok_iff, require_ok_iff, exists_unit_iff, Database.clockIsSafe_ok_iff,
      Database.loadLease_ok_iff] at h
    obtain ⟨_, ⟨_, rfl⟩, parent, hparent, hactor, _⟩ := h
    exact ⟨httl, hsequence, htenant, hallocation, parent, hparent, hactor⟩
  | spawnRemote newLeaseId newTransferId req =>
    simp only [exec, spawnRemote, bind_ok_iff, require_ok_iff, exists_unit_iff] at h
    obtain ⟨hremote, hpeer, httl, hsequence, htenant, hallocation, h⟩ := h
    obtain ⟨h, _⟩ := writeTransaction_ok h
    simp only [bind_ok_iff, require_ok_iff, exists_unit_iff, Database.clockIsSafe_ok_iff,
      Database.loadLease_ok_iff] at h
    obtain ⟨hidentity, _, ⟨_, rfl⟩, parent, hparent, hactor, _⟩ := h
    exact ⟨hremote, hpeer, httl, hsequence, htenant, hallocation, hidentity, parent, hparent,
      hactor⟩
  | authorize newReceiptId req =>
    simp only [exec, authorize, bind_ok_iff, require_ok_iff, exists_unit_iff] at h
    obtain ⟨hnonce, hsequence, htenant, h⟩ := h
    obtain ⟨h, _⟩ := writeTransaction_ok h
    simp only [bind_ok_iff, require_ok_iff, exists_unit_iff, Database.clockIsSafe_ok_iff,
      Database.loadLease_ok_iff] at h
    obtain ⟨_, ⟨_, rfl⟩, lease, hlease, hactor, _⟩ := h
    exact ⟨hnonce, hsequence, htenant, lease, hlease, hactor⟩
  | renew req =>
    simp only [exec, renew, bind_ok_iff, require_ok_iff, exists_unit_iff] at h
    obtain ⟨httl, hsequence, htenant, h⟩ := h
    obtain ⟨h, _⟩ := writeTransaction_ok h
    simp only [bind_ok_iff, require_ok_iff, exists_unit_iff, Database.clockIsSafe_ok_iff,
      Database.loadLease_ok_iff] at h
    obtain ⟨_, ⟨_, rfl⟩, lease, hlease, hactor, hroot, _⟩ := h
    exact ⟨httl, hsequence, htenant, lease, hlease, hactor, hroot⟩
  | lifecycle move terminated req =>
    simp only [exec, lifecycle, bind_ok_iff, require_ok_iff, exists_unit_iff] at h
    obtain ⟨hsequence, htenant, h⟩ := h
    obtain ⟨h, _⟩ := writeTransaction_ok h
    simp only [bind_ok_iff, require_ok_iff, exists_unit_iff, Database.clockIsSafe_ok_iff,
      Database.loadLease_ok_iff] at h
    obtain ⟨_, ⟨_, rfl⟩, lease, hlease, hactor, _⟩ := h
    exact ⟨hsequence, htenant, lease, hlease, hactor⟩
  | revokeBranch req =>
    simp only [exec, revokeBranch, bind_ok_iff, require_ok_iff, exists_unit_iff] at h
    obtain ⟨hreason, hepoch, hscope, htenant, h⟩ := h
    obtain ⟨h, _⟩ := writeTransaction_ok h
    simp only [bind_ok_iff, Database.clockIsSafe_ok_iff, Database.loadLease_ok_iff] at h
    obtain ⟨_, ⟨_, rfl⟩, branch, hbranch, _⟩ := h
    exact ⟨hreason, hepoch, hscope, htenant, branch, hbranch⟩
  | prepareTransfer newTransferId req =>
    simp only [exec, prepareTransfer, bind_ok_iff, require_ok_iff, exists_unit_iff] at h
    obtain ⟨hremote, hpeer, htenant, hscope, hamount, h⟩ := h
    obtain ⟨h, _⟩ := writeTransaction_ok h
    simp only [bind_ok_iff, exists_unit_iff, Database.clockIsSafe_ok_iff] at h
    obtain ⟨hidentity, henvelope, _, ⟨_, rfl⟩, selected, hselected, _⟩ := h
    exact ⟨hremote, hpeer, htenant, hscope, hamount, hidentity, henvelope, selected, hselected⟩
  | registerPolicy | ingestRevocation | reclaimExpired | acceptTransfer | finalizeTransfer
  | createTransferCheckpoint | ingestTransferCheckpoint | recordAttempt | pruneTerminal
  | pruneCompactedTransferHistory => trivial

theorem selectPolicy_kept {policyDigest : Option String}
    (hkept : ∀ digest row, db.policies.lookup digest = some row →
      db'.policies.lookup digest = some row)
    (h : ∃ selected, db.selectPolicy policyDigest = .ok selected) :
    ∃ selected, db'.selectPolicy policyDigest = .ok selected := by
  obtain ⟨selected, hselected⟩ := h
  cases policyDigest with
  | some digest =>
    simp only [Database.selectPolicy, bind_ok_iff, pure_ok_iff,
      Database.registeredPolicy_ok_iff] at hselected ⊢
    obtain ⟨policy, hpolicy, _⟩ := hselected
    exact ⟨_, policy, hkept digest policy hpolicy, rfl⟩
  | none =>
    simp only [Database.selectPolicy] at hselected ⊢
    cases hfound : db.policies.entries.find? fun entry => entry.2.active with
    | none =>
      rw [hfound] at hselected
      cases hselected
    | some entry =>
      have hactive : entry.2.active = true := by simpa using List.find?_some hfound
      have hlookup := Table.lookup_eq_some_iff.mpr (List.mem_of_find?_eq_some hfound)
      have hmem := Table.lookup_eq_some_iff.mp (hkept entry.1 entry.2 hlookup)
      cases hfound' : db'.policies.entries.find? fun entry => entry.2.active with
      | some entry' => exact ⟨_, rfl⟩
      | none => exact absurd hactive (by simpa using List.find?_eq_none.mp hfound' _ hmem)

theorem HoldsLease.kept {identity : IdentityContext} {leaseId : String}
    (h : HoldsLease identity leaseId db) (heffect : Effect svc clock db operation db' out) :
    HoldsLease identity leaseId db' := by
  obtain ⟨lease, hlease, hactor⟩ := h
  obtain ⟨lease', hlease', hterms, _⟩ := heffect.row_terms hlease
  have hsubject : lease'.subjectId = lease.subjectId := (Lease.keeps hterms).subjectId
  exact ⟨lease', hlease', hsubject ▸ hactor⟩

theorem Admissible.kept {request : Operation d} (h : svc.Admissible db request)
    (heffect : Effect svc clock db operation db' out) : svc.Admissible db' request := by
  have hwarden : db'.wardenId = db.wardenId := congrArg Prod.fst heffect.fixed_eq
  have hkey : db'.signingKeyId = db.signingKeyId := congrArg (fun x => x.2.1) heffect.fixed_eq
  have henvelope : db'.envelope = db.envelope := congrArg (fun x => x.2.2) heffect.fixed_eq
  have hidentity : svc.verifyDatabaseIdentity db' = svc.verifyDatabaseIdentity db := by
    unfold verifyDatabaseIdentity
    rw [hwarden, hkey]
  have haddressed : ∀ tenantId envelopeId, db'.requireEnvelope tenantId envelopeId =
      db.requireEnvelope tenantId envelopeId := by
    intro tenantId envelopeId
    unfold Database.requireEnvelope
    rw [henvelope]
  cases request with
  | setRuntimeMode req =>
    obtain ⟨hreason, hadmin, hid⟩ := h
    exact ⟨hreason, henvelope ▸ hadmin, hidentity.trans hid⟩
  | issueRoot newLeaseId newLineageId req =>
    obtain ⟨htenant, hscope, httl, hallocation, hid, henv⟩ := h
    exact ⟨htenant, hscope, httl, hallocation, hidentity.trans hid, (haddressed _ _).trans henv⟩
  | spawn newLeaseId req =>
    obtain ⟨httl, hsequence, htenant, hallocation, hholds⟩ := h
    exact ⟨httl, hsequence, henvelope ▸ htenant, hallocation, hholds.kept heffect⟩
  | spawnRemote newLeaseId newTransferId req =>
    obtain ⟨hremote, hpeer, httl, hsequence, htenant, hallocation, hid, hholds⟩ := h
    exact ⟨hremote, hpeer, httl, hsequence, henvelope ▸ htenant, hallocation, hidentity.trans hid,
      hholds.kept heffect⟩
  | authorize newReceiptId req =>
    obtain ⟨hnonce, hsequence, htenant, hholds⟩ := h
    exact ⟨hnonce, hsequence, henvelope ▸ htenant, hholds.kept heffect⟩
  | renew req =>
    obtain ⟨httl, hsequence, htenant, lease, hlease, hactor, hroot⟩ := h
    obtain ⟨lease', hlease', hterms, _⟩ := heffect.row_terms hlease
    have hsubject : lease'.subjectId = lease.subjectId := (Lease.keeps hterms).subjectId
    have hparent : lease'.parentId = lease.parentId := (Lease.keeps hterms).parentId
    exact ⟨httl, hsequence, henvelope ▸ htenant, lease', hlease', hsubject ▸ hactor,
      hparent ▸ hroot⟩
  | lifecycle move terminated req =>
    obtain ⟨hsequence, htenant, hholds⟩ := h
    exact ⟨hsequence, henvelope ▸ htenant, hholds.kept heffect⟩
  | revokeBranch req =>
    obtain ⟨hreason, hepoch, hscope, htenant, branch, hbranch⟩ := h
    obtain ⟨branch', hbranch', _⟩ := heffect.row_terms hbranch
    exact ⟨hreason, hepoch, hscope, henvelope ▸ htenant, branch', hbranch'⟩
  | prepareTransfer newTransferId req =>
    obtain ⟨hremote, hpeer, htenant, hscope, hamount, hid, henv, hselected⟩ := h
    exact ⟨hremote, hpeer, htenant, hscope, hamount, hidentity.trans hid,
      (haddressed _ _).trans henv, selectPolicy_kept (fun _ _ => heffect.policies_kept) hselected⟩
  | registerPolicy | ingestRevocation | reclaimExpired | acceptTransfer | finalizeTransfer
  | createTransferCheckpoint | ingestTransferCheckpoint | recordAttempt | pruneTerminal
  | pruneCompactedTransferHistory => trivial

def Remembered (svc : WardenService d Hash) (operation : Operation d) (out : Response d)
    (db : Database d Hash) : Prop :=
  ∀ scope requestId arguments, operation.request = some (scope, requestId) →
    operation.arguments svc db.envelope.configEpoch = some arguments →
    ∃ row, db.idempotency.lookup requestId = some row ∧ row.scope = scope ∧
      row.fingerprint = svc.fingerprint arguments ∧ row.response = out

variable {row : IdempotencyRow d}

theorem Effect.row_remembered (h : Effect svc clock db operation db' out) {requestId : String}
    (hrow : db.idempotency.lookup requestId = some row) :
    db'.idempotency.lookup requestId = some row := by
  rcases h.idempotency_eq with hsame | ⟨scope, id, fingerprint, statusCode, _, hnone, hinsert⟩
  · rw [hsame, hrow]
  · rw [hinsert, Table.lookup_insert_eq, if_neg, hrow]
    rintro rfl
    rw [hrow] at hnone
    cases hnone

theorem Remembered.kept {request : Operation d} {response : Response d}
    (h : svc.Remembered request response db) (heffect : Effect svc clock db operation db' out) :
    svc.Remembered request response db' := by
  have henvelope : db'.envelope = db.envelope := congrArg (fun x => x.2.2) heffect.fixed_eq
  intro scope requestId arguments hrequest harguments
  rw [henvelope] at harguments
  obtain ⟨row, hrow, hfields⟩ := h scope requestId arguments hrequest harguments
  exact ⟨row, heffect.row_remembered hrow, hfields⟩

theorem Effect.remembered (h : Effect svc clock db operation db' out) :
    svc.Remembered operation out db' := by
  have henvelope : db'.envelope = db.envelope := congrArg (fun x => x.2.2) h.fixed_eq
  intro scope requestId arguments hrequest harguments
  rw [henvelope] at harguments
  cases h with
  | replayed request recorded scope_eq response_eq touched fingerprint_eq =>
    obtain ⟨rfl, rfl⟩ := Prod.mk.inj (some_unique request hrequest)
    rw [touched]
    exact ⟨_, recorded, scope_eq, fingerprint_eq arguments harguments, response_eq⟩
  | revokedAgain _ recorded scope_eq response_eq done fingerprint_eq =>
    obtain ⟨rfl, rfl⟩ := Prod.mk.inj (Option.some.inj hrequest)
    obtain rfl := Option.some.inj harguments
    rw [done.result, done.materialized.result]
    exact ⟨_, recorded, scope_eq, fingerprint_eq, response_eq⟩
  | runtimeSet _ _ result | branchRevoked _ _ _ done result =>
    obtain ⟨rfl, rfl⟩ := Prod.mk.inj (Option.some.inj hrequest)
    obtain rfl := Option.some.inj harguments
    rw [result]
    exact ⟨_, AList.lookup_insert _, rfl, rfl, rfl⟩
  | rootIssued done | spawned done | remoteSpawned done | authorized done | renewed done
  | unmoved done | switched done | closed done | prepared done =>
    obtain ⟨rfl, rfl⟩ := Prod.mk.inj (Option.some.inj hrequest)
    obtain rfl := Option.some.inj harguments
    rw [done.result]
    exact ⟨_, AList.lookup_insert _, rfl, rfl, rfl⟩
  | policyRegistered | revocationKnown | revocationStored | reclaimed | redelivered | credited
  | finalized | checkpointCreated | checkpointIngested | attempted | prunedTerminal
  | prunedHistory => cases hrequest

/-- What answering a remembered request again may change: the clock floor and, for a revocation,
the leases of its branch that were still live, with a note of it in the audit log. -/
structure AnsweredAgain (operation : Operation d) (nowNs : ℕ) (db db' : Database d Hash) :
    Prop where
  frame : db' = { db with
    clockFloorNs := db'.clockFloorNs, leases := db'.leases, auditLog := db'.auditLog }
  leases : ∀ leaseId, db'.leases.lookup leaseId = db.leases.lookup leaseId ∨
    ∃ req branch lease, operation = .revokeBranch req ∧
      db.leases.lookup req.leaseId = some branch ∧ db.leases.lookup leaseId = some lease ∧
      lease.status.isLiveLease = true ∧ lease.lineageId = branch.lineageId ∧
      (leaseId = req.leaseId ∨ req.leaseId ∈ lease.ancestorPath) ∧
      db'.leases.lookup leaseId = some { lease with
        status := .revoked, sequence := lease.sequence + 1, updatedAtNs := nowNs }

theorem Effect.answered (h : Effect svc clock db operation db' out) {scope requestId : String}
    (hrequest : operation.request = some (scope, requestId))
    (hrow : db.idempotency.lookup requestId = some row) :
    row.scope = scope ∧ (∀ arguments ∈ operation.arguments svc db.envelope.configEpoch,
      row.fingerprint = svc.fingerprint arguments) ∧ row.response = out ∧
      AnsweredAgain operation clock.nowNs db db' := by
  -- a request that is carried out anew was not remembered
  have hnew : ∀ {id}, operation.request.map Prod.snd = some id →
      db.idempotency.lookup id ≠ none := by
    intro id hid hnone
    rw [hrequest] at hid
    obtain rfl := Option.some.inj hid
    rw [hnone] at hrow
    cases hrow
  cases h with
  | replayed request recorded scope_eq response_eq touched fingerprint_eq =>
    obtain ⟨rfl, rfl⟩ := Prod.mk.inj (some_unique request hrequest)
    obtain rfl := some_unique recorded hrow
    exact ⟨scope_eq, fingerprint_eq, response_eq, touched ▸ ⟨rfl, fun _ => .inl rfl⟩⟩
  | @revokedAgain req branch _ _ _ branch_eq recorded scope_eq response_eq done fingerprint_eq =>
    obtain ⟨rfl, rfl⟩ := Prod.mk.inj (Option.some.inj hrequest)
    obtain rfl := some_unique recorded hrow
    have hdb := done.result
    rw [done.materialized.result] at hdb
    refine ⟨scope_eq, ?_, response_eq, by rw [hdb]; rfl, fun leaseId => ?_⟩
    · rintro _ ⟨⟩
      exact fingerprint_eq
    have hleases : db'.leases = db.leases.updateAll done.affected
      fun _ => Lease.revoked clock.nowNs := congrArg Database.leases hdb
    have hlookup := Table.lookup_updateAll done.affected (fun _ => Lease.revoked clock.nowNs)
      db.leases leaseId
    rw [← hleases] at hlookup
    by_cases hmem : leaseId ∈ done.affected
    · obtain ⟨lease, hlease, hlineage, hlive, hbeneath⟩ := done.materialized.beneath leaseId hmem
      have hlease : db.leases.lookup leaseId = some lease := hlease
      rw [if_pos hmem, hlease, Option.map_some, Lease.revoked, if_pos hlive] at hlookup
      exact .inr ⟨req, branch, lease, rfl, branch_eq, hlease, hlive, hlineage, hbeneath, hlookup⟩
    · rw [if_neg hmem] at hlookup
      exact .inl hlookup
  | runtimeSet request_new => exact absurd request_new (hnew rfl)
  | rootIssued done | spawned done | remoteSpawned done | authorized done | renewed done
  | unmoved done | switched done | closed done | prepared done =>
    exact absurd done.request_new (hnew rfl)
  | branchRevoked _ request_new => exact absurd request_new (hnew rfl)
  | policyRegistered | revocationKnown | revocationStored | reclaimed | redelivered | credited
  | finalized | checkpointCreated | checkpointIngested | attempted | prunedTerminal
  | prunedHistory => cases hrequest

/-- The next batch of a revoked branch can be marked at this reading: none of its rows was created
later, and the note of it can be signed. -/
def MayMark (svc : WardenService d Hash) (clock : Reading) (branchLeaseId : String)
    (db : Database d Hash) : Prop :=
  ∀ branch, db.leases.lookup branchLeaseId = some branch →
    (∀ leaseId ∈ db.nextBatch branch.lineageId branchLeaseId, ∀ lease,
      db.leases.lookup leaseId = some lease → lease.createdAtNs ≤ clock.nowNs) ∧
    (db.nextBatch branch.lineageId branchLeaseId = [] ∨
      svc.requireSigningKeyCurrent clock = .ok ())

theorem auditMaterialized_isOk_iff {branchLeaseId actor : String} {affected : List String}
    {details : List (String × Detail d)} :
    (∃ db', svc.auditMaterialized clock branchLeaseId actor affected details db = .ok db') ↔
      affected = [] ∨ svc.requireSigningKeyCurrent clock = .ok () := by
  unfold auditMaterialized
  split_ifs with hnone
  · exact ⟨fun _ => .inl hnone, fun _ => ⟨db, rfl⟩⟩
  · simp only [appendAudit, bind_ok_iff, exists_unit_iff, pure_ok_iff, hnone, false_or]
    exact ⟨fun ⟨_, hcurrent, _⟩ => hcurrent, fun hcurrent => ⟨_, hcurrent, rfl⟩⟩

theorem revokeBranch_again_iff {req : RevokeBranchRequest}
    (hadmissible : svc.Admissible db (.revokeBranch req)) (hclock : db.ClockSafe clock)
    (hconserved : db.Conserved) (hissued : db.IssuedBeforeExpiry)
    (hrow : db.idempotency.lookup req.requestId = some row)
    (hscope : row.scope = "revoke:" ++ req.leaseId)
    (hfingerprint : row.fingerprint = svc.fingerprint (req.arguments db.envelope.configEpoch)) :
    (∃ db', svc.revokeBranch clock req db = .ok (db', row.response)) ↔
      svc.MayMark clock req.leaseId db := by
  obtain ⟨hreason, hepoch, hadmin, htenant, branch, hbranch⟩ := hadmissible
  have hprior : (db.touch clock.nowNs).idempotentResponse ("revoke:" ++ req.leaseId) req.requestId
      (svc.fingerprint (req.arguments db.envelope.configEpoch)) = .ok (some row.response) :=
    Database.idempotentResponse_some_iff.mpr ⟨row, hrow, hscope, hfingerprint, rfl⟩
  have hrows : _ ↔ db.BatchCreated branch.lineageId req.leaseId clock.nowNs :=
    Database.batchCreated_iff hissued
  simp only [revokeBranch, bind_ok_iff, require_ok_iff, exists_unit_iff]
  constructor
  · rintro ⟨db', _, _, _, _, h⟩ branch' hbranch'
    obtain rfl := some_unique hbranch hbranch'
    obtain ⟨h, _⟩ := writeTransaction_ok h
    simp only [bind_ok_iff, Database.clockIsSafe_ok_iff, Database.loadLease_ok_iff] at h
    obtain ⟨_, ⟨_, rfl⟩, branch', hbranch', prior, hprior', h⟩ := h
    obtain rfl := some_unique hbranch hbranch'
    obtain rfl := Except.ok.inj (hprior.symm.trans hprior')
    simp only [bind_ok_iff] at h
    obtain ⟨⟨db₁, affected, complete⟩, hmark, db₂, haudit, _⟩ := h
    obtain ⟨hok, _, haffected, _⟩ := Database.materializeRevokedBranch_ok_iff.mp hmark
    refine ⟨hrows.mp hok, ?_⟩
    have hsigned := auditMaterialized_isOk_iff.mp ⟨db₂, haudit⟩
    rwa [haffected] at hsigned
  · intro hmay
    obtain ⟨htimes, hsigned⟩ := hmay branch hbranch
    have hmark : (db.touch clock.nowNs).materializeRevokedBranch branch.lineageId req.leaseId
        clock.nowNs = .ok (_, db.nextBatch branch.lineageId req.leaseId, _) :=
      Database.materializeRevokedBranch_ok_iff.mpr ⟨hrows.mpr htimes, rfl, rfl, rfl⟩
    have haudited : ∀ details marked, ∃ db₂, svc.auditMaterialized clock req.leaseId
        req.identity.subjectId (db.nextBatch branch.lineageId req.leaseId) details marked =
          .ok db₂ :=
      fun _ _ => auditMaterialized_isOk_iff.mpr hsigned
    obtain ⟨db₂, haudit⟩ := haudited
      [("lineage_id", .text branch.lineageId),
        ("epoch", .number (db.branchEpoch branch.lineageId req.leaseId)),
        ("affected", .texts (db.nextBatch branch.lineageId req.leaseId)),
        ("materialization_complete", .flag (decide
          ((db.revocableLeases branch.lineageId req.leaseId).length ≤ maintenanceRowBatch)))] _
    refine ⟨db₂, hreason, hepoch, hadmin, htenant, writeTransaction_of ?_ ?_⟩
    · simp only [bind_ok_iff, Database.clockIsSafe_ok_iff, Database.loadLease_ok_iff]
      refine ⟨_, ⟨hclock, rfl⟩, branch, hbranch, some row.response, hprior, ?_⟩
      simp only [bind_ok_iff]
      exact ⟨_, hmark, db₂, haudit, rfl⟩
    · obtain ⟨rows, _, rfl⟩ := auditMaterialized_ok haudit
      exact ⟨hconserved.identity, hconserved.le_max⟩

theorem exec_of_remembered (hadmissible : svc.Admissible db operation)
    (hclock : db.ClockSafe clock) (hconserved : db.Conserved)
    (hremembered : svc.Remembered operation out db) {request : String × String}
    (hrequest : operation.request = some request)
    (hother : ∀ req, operation ≠ .revokeBranch req) :
    svc.exec clock operation db = .ok (db.touch clock.nowNs, out) := by
  have hkept : (db.touch clock.nowNs).Conserved := ⟨hconserved.identity, hconserved.le_max⟩
  have hprior : ∀ {scope requestId arguments}, operation.request = some (scope, requestId) →
      operation.arguments svc db.envelope.configEpoch = some arguments →
      (db.touch clock.nowNs).idempotentResponse scope requestId (svc.fingerprint arguments) =
        .ok (some out) := by
    intro scope requestId arguments hrequest harguments
    obtain ⟨row, hrow, hfields⟩ := hremembered scope requestId arguments hrequest harguments
    exact Database.idempotentResponse_some_iff.mpr ⟨row, hrow, hfields⟩
  cases operation with
  | setRuntimeMode req =>
    obtain ⟨hreason, hadmin, hidentity⟩ := hadmissible
    simp only [exec, setRuntimeMode, bind_ok_iff, require_ok_iff, exists_unit_iff]
    refine ⟨hreason, hadmin, writeTransaction_of ?_ hkept⟩
    simp only [bind_ok_iff, exists_unit_iff, Database.clockIsSafe_ok_iff]
    exact ⟨hidentity, _, ⟨hclock, rfl⟩, some out, hprior rfl rfl, rfl⟩
  | issueRoot newLeaseId newLineageId req =>
    obtain ⟨htenant, hscope, httl, hallocation, hidentity, henvelope⟩ := hadmissible
    simp only [exec, issueRoot, bind_ok_iff, require_ok_iff, exists_unit_iff]
    refine ⟨htenant, hscope, httl, hallocation, writeTransaction_of ?_ hkept⟩
    simp only [bind_ok_iff, exists_unit_iff, Database.clockIsSafe_ok_iff]
    exact ⟨hidentity, henvelope, _, ⟨hclock, rfl⟩, some out, hprior rfl rfl, rfl⟩
  | spawn newLeaseId req =>
    obtain ⟨httl, hsequence, htenant, hallocation, parent, hparent, hactor⟩ := hadmissible
    simp only [exec, spawn, bind_ok_iff, require_ok_iff, exists_unit_iff]
    refine ⟨httl, hsequence, htenant, hallocation, writeTransaction_of ?_ hkept⟩
    simp only [bind_ok_iff, require_ok_iff, exists_unit_iff, Database.clockIsSafe_ok_iff,
      Database.loadLease_ok_iff]
    exact ⟨_, ⟨hclock, rfl⟩, parent, hparent, hactor, some out, hprior rfl rfl, rfl⟩
  | spawnRemote newLeaseId newTransferId req =>
    obtain ⟨hremote, hpeer, httl, hsequence, htenant, hallocation, hidentity, parent, hparent,
      hactor⟩ := hadmissible
    simp only [exec, spawnRemote, bind_ok_iff, require_ok_iff, exists_unit_iff]
    refine ⟨hremote, hpeer, httl, hsequence, htenant, hallocation, writeTransaction_of ?_ hkept⟩
    simp only [bind_ok_iff, require_ok_iff, exists_unit_iff, Database.clockIsSafe_ok_iff,
      Database.loadLease_ok_iff]
    exact ⟨hidentity, _, ⟨hclock, rfl⟩, parent, hparent, hactor, some out, hprior rfl rfl, rfl⟩
  | authorize newReceiptId req =>
    obtain ⟨hnonce, hsequence, htenant, lease, hlease, hactor⟩ := hadmissible
    simp only [exec, authorize, bind_ok_iff, require_ok_iff, exists_unit_iff]
    refine ⟨hnonce, hsequence, htenant, writeTransaction_of ?_ hkept⟩
    simp only [bind_ok_iff, require_ok_iff, exists_unit_iff, Database.clockIsSafe_ok_iff,
      Database.loadLease_ok_iff]
    exact ⟨_, ⟨hclock, rfl⟩, lease, hlease, hactor, some out, hprior rfl rfl, rfl⟩
  | renew req =>
    obtain ⟨httl, hsequence, htenant, lease, hlease, hactor, hroot⟩ := hadmissible
    simp only [exec, renew, bind_ok_iff, require_ok_iff, exists_unit_iff]
    refine ⟨httl, hsequence, htenant, writeTransaction_of ?_ hkept⟩
    simp only [bind_ok_iff, require_ok_iff, exists_unit_iff, Database.clockIsSafe_ok_iff,
      Database.loadLease_ok_iff]
    exact ⟨_, ⟨hclock, rfl⟩, lease, hlease, hactor, hroot, some out, hprior rfl rfl, rfl⟩
  | lifecycle move terminated req =>
    obtain ⟨hsequence, htenant, lease, hlease, hactor⟩ := hadmissible
    simp only [exec, lifecycle, bind_ok_iff, require_ok_iff, exists_unit_iff]
    refine ⟨hsequence, htenant, writeTransaction_of ?_ hkept⟩
    simp only [bind_ok_iff, require_ok_iff, exists_unit_iff, Database.clockIsSafe_ok_iff,
      Database.loadLease_ok_iff]
    exact ⟨_, ⟨hclock, rfl⟩, lease, hlease, hactor, some out, hprior rfl rfl, rfl⟩
  | prepareTransfer newTransferId req =>
    obtain ⟨hremote, hpeer, htenant, hscope, hamount, hidentity, henvelope, selected, hselected⟩ :=
      hadmissible
    simp only [exec, prepareTransfer, bind_ok_iff, require_ok_iff, exists_unit_iff]
    refine ⟨hremote, hpeer, htenant, hscope, hamount, writeTransaction_of ?_ hkept⟩
    simp only [bind_ok_iff, exists_unit_iff, Database.clockIsSafe_ok_iff]
    exact ⟨hidentity, henvelope, _, ⟨hclock, rfl⟩, selected, hselected, some out, hprior rfl rfl,
      rfl⟩
  | revokeBranch req => exact absurd rfl (hother req)
  | registerPolicy | ingestRevocation | reclaimExpired | acceptTransfer | finalizeTransfer
  | createTransferCheckpoint | ingestTransferCheckpoint | recordAttempt | pruneTerminal
  | pruneCompactedTransferHistory => cases hrequest

/-- What is known of a request that has succeeded, in every later state. -/
structure Standing (svc : WardenService d Hash) (operation : Operation d) (out : Response d)
    (db : Database d Hash) : Prop where
  admissible : svc.Admissible db operation
  remembered : svc.Remembered operation out db
  conserved : db.Conserved

theorem Standing.step {envelope : Envelope d} {call : Call d}
    (h : svc.Standing operation out db) (hstep : (svc.system envelope).Step db call db') :
    svc.Standing operation out db' := by
  rcases step_cases hstep with ⟨out', _, hexec⟩ | ⟨_, rfl⟩
  · obtain ⟨_, hconserved, heffect⟩ := exec_ok hexec
    exact ⟨h.admissible.kept heffect, h.remembered.kept heffect, hconserved⟩
  · exact h

theorem standing_of_run {envelope : Envelope d} {db₀ db₁ : Database d Hash} {call : Call d}
    {calls : List (Call d)} (hstep : (svc.system envelope).Step db₀ call db₁)
    (hreply : call.reply = .ok out) (run : (svc.system envelope).Run db₁ calls db) :
    svc.Standing call.operation out db := by
  rcases step_cases hstep with ⟨out', hreply', hexec⟩ | ⟨⟨e, hreply'⟩, _⟩
  · obtain rfl : out = out' := Except.ok.inj (hreply.symm.trans hreply')
    obtain ⟨_, hconserved, heffect⟩ := exec_ok hexec
    have hfirst : svc.Standing call.operation out db₁ :=
      ⟨(admissible_of_exec hexec).kept heffect, heffect.remembered, hconserved⟩
    exact run.preserves (fun _ _ _ h step => h.step step) hfirst
  · rw [hreply] at hreply'
    cases hreply'

end WardenService

variable {operation again : Operation d} {out : Response d} {svc : WardenService d Hash}
  {db : Database d Hash}

theorem Operation.Repeats.standing (h : operation.Repeats again)
    (hstanding : svc.Standing operation out db) : svc.Standing again out db := by
  obtain ⟨hadmissible, hremembered, hconserved⟩ := hstanding
  cases h <;> exact ⟨hadmissible, hremembered, hconserved⟩

theorem Operation.Repeats.request_eq (h : operation.Repeats again) :
    again.request = operation.request := by
  cases h <;> rfl

theorem Operation.Repeats.arguments_eq (h : operation.Repeats again) (svc : WardenService d Hash)
    (configEpoch : ℕ) : again.arguments svc configEpoch = operation.arguments svc configEpoch := by
  cases h <;> rfl

theorem Operation.exists_arguments {request : String × String} (svc : WardenService d Hash)
    (configEpoch : ℕ) (h : operation.request = some request) :
    ∃ arguments, operation.arguments svc configEpoch = some arguments := by
  cases operation with
  | registerPolicy | ingestRevocation | reclaimExpired | acceptTransfer | finalizeTransfer
  | createTransferCheckpoint | ingestTransferCheckpoint | recordAttempt | pruneTerminal
  | pruneCompactedTransferHistory => cases h
  | _ => exact ⟨_, rfl⟩

variable {other : Operation d}

/-- Equal arguments are those of one operation: it is remembered under one scope, and names a tenant
and an envelope or does not. -/
theorem Operation.eq_of_arguments {configEpoch : ℕ} {arguments : Arguments d}
    (h : operation.arguments svc configEpoch = some arguments)
    (h' : other.arguments svc configEpoch = some arguments) :
    other.request.map Prod.fst = operation.request.map Prod.fst ∧
      other.addressee.isSome = operation.addressee.isSome := by
  have hkind : ∀ {op : Operation d}, op.arguments svc configEpoch = some arguments →
      op.request.map Prod.fst = some (match arguments with
        | .setRuntimeMode .. => "set_runtime_mode"
        | .issueRoot .. => "issue_root"
        | .spawn _ parentId .. => "spawn:" ++ parentId
        | .spawnRemote _ parentId .. => "spawn_remote:" ++ parentId
        | .authorize _ leaseId .. => "authorize:" ++ leaseId
        | .renew _ leaseId .. => "renew:" ++ leaseId
        | .lifecycle move _ leaseId .. => move.name ++ ":" ++ leaseId
        | .revokeBranch _ leaseId .. => "revoke:" ++ leaseId
        | .prepareTransfer _ targetWarden .. => "prepare_transfer:" ++ targetWarden) ∧
      op.addressee.isSome = match arguments with
        | .issueRoot .. => true
        | .prepareTransfer .. => true
        | _ => false := by
    intro op hop
    cases op <;> cases hop <;> exact ⟨rfl, rfl⟩
  exact ⟨(hkind h').1.trans (hkind h).1.symm, (hkind h').2.trans (hkind h).2.symm⟩

theorem WardenService.Admissible.addressed (h : svc.Admissible db operation) :
    operation.Addressed db := by
  intro addressee haddressee
  cases operation <;> cases haddressee
  · obtain ⟨_, _, _, _, _, henvelope⟩ := h
    obtain ⟨htenant, hid⟩ := require_ok_iff.mp henvelope
    rw [htenant, hid]
  · obtain ⟨_, _, _, _, _, _, henvelope, _⟩ := h
    obtain ⟨htenant, hid⟩ := require_ok_iff.mp henvelope
    rw [htenant, hid]

/-- Another operation, or another argument, than that of the request. -/
def Operation.Differs (svc : WardenService d Hash) (configEpoch : ℕ)
    (operation other : Operation d) : Prop :=
  other.request ≠ operation.request ∨
    other.arguments svc configEpoch ≠ operation.arguments svc configEpoch ∨
    other.addressee ≠ operation.addressee

/-- The fingerprints of the two operations' arguments do not collide. -/
def Operation.NoCollision (svc : WardenService d Hash) (configEpoch : ℕ)
    (operation other : Operation d) : Prop :=
  ∀ arguments arguments', operation.arguments svc configEpoch = some arguments →
    other.arguments svc configEpoch = some arguments' →
    svc.fingerprint arguments' = svc.fingerprint arguments → arguments' = arguments

theorem Operation.not_differs {scope scope' requestId : String} {arguments : Arguments d}
    (haddressed : operation.Addressed db) (haddressed' : other.Addressed db)
    (hrequest : operation.request = some (scope, requestId))
    (hother : other.request = some (scope', requestId))
    (harguments : operation.arguments svc db.envelope.configEpoch = some arguments)
    (harguments' : other.arguments svc db.envelope.configEpoch = some arguments) :
    ¬operation.Differs svc db.envelope.configEpoch other := by
  obtain ⟨hscope, hnamed⟩ := Operation.eq_of_arguments harguments harguments'
  rintro (hne | hne | hne)
  · rw [hrequest, hother, Option.map_some, Option.map_some] at hscope
    have hscope : scope' = scope := Option.some.inj hscope
    exact hne (by rw [hrequest, hother, hscope])
  · exact hne (harguments'.trans harguments.symm)
  · -- both name the one envelope of the warden
    cases haddressee : operation.addressee with
    | none =>
      rw [haddressee, Option.isSome_none, Option.isSome_eq_false_iff, Option.isNone_iff_eq_none]
        at hnamed
      exact hne (hnamed.trans haddressee.symm)
    | some addressee =>
      rw [haddressee, Option.isSome_some, Option.isSome_iff_exists] at hnamed
      obtain ⟨addressee', haddressee'⟩ := hnamed
      rw [haddressee', haddressee, haddressed' _ haddressee', haddressed _ haddressee] at hne
      exact hne rfl

variable {clock : Reading}

theorem WardenService.rejects_of_differs {scope scope' requestId : String}
    (hstanding : svc.Standing operation out db)
    (hrequest : operation.request = some (scope, requestId))
    (hother : other.request = some (scope', requestId))
    (hdigest : operation.NoCollision svc db.envelope.configEpoch other)
    (hdiffers : operation.Differs svc db.envelope.configEpoch other) :
    svc.Rejects clock other db := by
  obtain ⟨arguments, harguments⟩ :=
    Operation.exists_arguments svc db.envelope.configEpoch hrequest
  obtain ⟨arguments', harguments'⟩ :=
    Operation.exists_arguments svc db.envelope.configEpoch hother
  obtain ⟨row, hrow, hscope, hfingerprint, _⟩ :=
    hstanding.remembered scope requestId arguments hrequest harguments
  refine rejects_of_not_ok fun db' out' hexec => ?_
  obtain ⟨_, _, heffect⟩ := exec_ok hexec
  obtain ⟨_, hfingerprint', _⟩ := heffect.answered hother hrow
  have hsame := hdigest arguments arguments' harguments harguments'
    ((hfingerprint' arguments' harguments').symm.trans hfingerprint)
  subst hsame
  exact Operation.not_differs hstanding.admissible.addressed (admissible_of_exec hexec).addressed
    hrequest hother harguments harguments' hdiffers

/-- At a safe reading the repetition of a request that stands returns the recorded reply, for a
revocation exactly where the next batch of its branch can be marked. -/
theorem WardenService.Standing.answered_iff {request : String × String}
    (hstanding : svc.Standing operation out db) (hissued : db.IssuedBeforeExpiry)
    (hrequest : operation.request = some request) (hrepeats : operation.Repeats again)
    (hclock : db.ClockSafe clock) :
    (∃ db', svc.serve clock again db = (db', .ok out)) ↔
      ∀ req, operation = .revokeBranch req → svc.MayMark clock req.leaseId db := by
  have hagain := hrepeats.standing hstanding
  have hasked := hrepeats.request_eq.trans hrequest
  simp only [WardenService.serve_ok_iff]
  by_cases hrevoke : ∃ req, operation = .revokeBranch req
  · obtain ⟨req, hoperation⟩ := hrevoke
    rw [hoperation] at hrepeats ⊢
    cases hrepeats
    obtain ⟨row, hrow, hscope, hfingerprint, rfl⟩ := hagain.remembered _ _ _ rfl rfl
    refine (WardenService.revokeBranch_again_iff hagain.admissible hclock hagain.conserved hissued
      hrow hscope hfingerprint).trans ⟨?_, fun hmay => hmay req rfl⟩
    rintro hmay _ ⟨⟩
    exact hmay
  · refine ⟨fun _ req hoperation => absurd ⟨req, hoperation⟩ hrevoke,
      fun _ => ⟨db.touch clock.nowNs, ?_⟩⟩
    refine WardenService.exec_of_remembered hagain.admissible hclock hagain.conserved
      hagain.remembered hasked fun req hoperation => hrevoke ⟨req, ?_⟩
    subst hoperation
    cases hrepeats
    rfl

/-- Once a request has succeeded, in every later state: at a safe reading its repetition returns the
recorded reply, for a revocation exactly where the next batch of its branch can be marked, and
changes nothing else; a changed call is refused. -/
theorem remembered_request_idempotent {svc : WardenService d Hash} {envelope : Envelope d}
    {db₀ db₁ db : Database d Hash} {call : Call d} {calls : List (Call d)} {out : Response d}
    {scope requestId : String} (hreach : (svc.system envelope).Reachable db₀)
    (hstep : (svc.system envelope).Step db₀ call db₁) (hreply : call.reply = .ok out)
    (hrequest : call.operation.request = some (scope, requestId))
    (run : (svc.system envelope).Run db₁ calls db) (clock : Reading) :
    (∀ again, call.operation.Repeats again → db.ClockSafe clock →
      ((∃ db', svc.serve clock again db = (db', .ok out)) ↔
        ∀ req, call.operation = .revokeBranch req → svc.MayMark clock req.leaseId db)) ∧
    (∀ again db' out', call.operation.Repeats again →
      svc.serve clock again db = (db', .ok out') →
        out' = out ∧ WardenService.AnsweredAgain again clock.nowNs db db') ∧
    ∀ other scope', other.request = some (scope', requestId) →
      (∀ arguments arguments',
        call.operation.arguments svc db.envelope.configEpoch = some arguments →
        other.arguments svc db.envelope.configEpoch = some arguments' →
        svc.fingerprint arguments' = svc.fingerprint arguments → arguments' = arguments) →
      call.operation.Differs svc db.envelope.configEpoch other → svc.Rejects clock other db := by
  have hstanding : svc.Standing call.operation out db :=
    WardenService.standing_of_run hstep hreply run
  have hissued : db.IssuedBeforeExpiry := WardenService.issuedBeforeExpiry_of_reachable
    (hreach.run (.cons hstep run))
  refine ⟨fun again hrepeats hclock => hstanding.answered_iff hissued hrequest hrepeats hclock,
    fun again db' out' hrepeats hserve => ?_, fun other scope' hother hdigest hdiffers =>
      WardenService.rejects_of_differs hstanding hrequest hother hdigest hdiffers⟩
  have hasked := hrepeats.request_eq.trans hrequest
  obtain ⟨_, _, heffect⟩ := WardenService.exec_ok (WardenService.serve_ok_iff.mp hserve)
  obtain ⟨arguments, harguments⟩ :=
    Operation.exists_arguments svc db.envelope.configEpoch hrequest
  obtain ⟨row, hrow, _, _, hrecorded⟩ :=
    hstanding.remembered scope requestId arguments hrequest harguments
  obtain ⟨_, _, hresponse, hframe⟩ := heffect.answered hasked hrow
  exact ⟨hresponse.symm.trans hrecorded, hframe⟩

def WardenService.withFingerprint (svc : WardenService d Hash) (fingerprint : Arguments d → String) :
    WardenService d Hash :=
  { svc with fingerprint }

open Sample

def Sample.fingerprinted (wardenId : String) : WardenService 1 ℕ :=
  (service wardenId).withFingerprint fun arguments => match arguments with
    | .issueRoot _ _ allocation .. => toString (allocation 0)
    | _ => ""

theorem remembered_request_idempotent_root :
    ∃ db out, (fingerprinted "a").serve (exactly 2)
        (.issueRoot "root" "line" (rootRequest 5))
        ((fingerprinted "a").play (genesis "a" 6)
          [(exactly 1, registerPolicy)]).1 = (db, .ok out) ∧
      (∃ db', (fingerprinted "a").serve (exactly 3)
        (.issueRoot "root2" "line2" (rootRequest 5)) db = (db', .ok out)) ∧
      (fingerprinted "a").Rejects (exactly 3)
        (.issueRoot "root2" "line2" (rootRequest 4)) db := by
  generalize hdb₀ : ((fingerprinted "a").play (genesis "a" 6)
    [(exactly 1, registerPolicy)]).1 = db₀
  have hreach : ((fingerprinted "a").system (envelope 6)).Reachable db₀ :=
    hdb₀ ▸ (fingerprinted "a").play_reachable (envelope 6) _
  generalize hserve : (fingerprinted "a").serve (exactly 2)
    (.issueRoot "root" "line" (rootRequest 5)) db₀ = served
  have hfacts : served.2.toOption.isSome = true ∧ served.1.clockFloorNs = some 2 ∧
      served.1.envelope.configEpoch = 1 ∧ served.1.envelope.maxClockUncertaintyNs = 1 := by
    subst hserve hdb₀
    decide +kernel
  obtain ⟨db, reply⟩ := served
  obtain ⟨hok, hfloor, hepoch, huncertainty⟩ := hfacts
  cases reply with
  | error e => cases hok
  | ok out =>
    have hstep : ((fingerprinted "a").system (envelope 6)).Step db₀
      ⟨exactly 2, .issueRoot "root" "line" (rootRequest 5), .ok out⟩ db := hserve
    have hne : (Operation.issueRoot "root2" "line2" (rootRequest 4)).arguments
        (fingerprinted "a") 1 ≠
      (Operation.issueRoot "root" "line" (rootRequest 5)).arguments
        (fingerprinted "a") 1 := by decide
    have hfingerprint : toString ((rootRequest 4).allocation 0) ≠
      toString ((rootRequest 5).allocation 0) := by decide
    obtain ⟨hagain, _, hother⟩ := remembered_request_idempotent hreach hstep rfl rfl (.nil db)
      (exactly 3)
    refine ⟨db, out, rfl, (hagain _ (.issueRoot _) ?_).mpr (by simp), hother _ _ rfl ?_ ?_⟩
    · exact ⟨by decide, Nat.zero_le _, by decide, by rw [hfloor]; rintro _ ⟨⟩; decide⟩
    · rintro _ _ ⟨⟩ ⟨⟩ heq
      exact absurd heq hfingerprint
    · refine .inr (.inl ?_)
      rw [hepoch]
      exact hne

/-- A root with sixty-four children, revoked: the mark reaches all but one of the leases. -/
def Sample.wideBranch : List (Reading × Operation 1) :=
  [(exactly 1, registerPolicy),
    (exactly 2, .issueRoot "0" "line"
      ⟨"root", operator, "tenant", "envelope", "subject", units 70, {"act"}, "v1", 50, none⟩)] ++
  ((List.range 64).map fun i => String.singleton (Char.ofNat (i + 50))).map (fun name =>
    (exactly 3, .spawn name
      ⟨name, operator, "0", "subject", units 1, {"act"}, 10, none, none⟩)) ++
  [(exactly 3, .revokeBranch ⟨"revoke", operator, "0", "reason", none⟩)]

def Sample.widelyRevoked : Database 1 ℕ := ((service "a").play (genesis "a" 70) wideBranch).1

theorem Sample.widelyRevoked_reachable :
    ((service "a").system (envelope 70)).Reachable widelyRevoked :=
  (service "a").play_reachable (envelope 70) wideBranch

/-- The revocation that has marked the first 64 leases of the branch. -/
def Sample.wideRevocation : BranchRevocation :=
  ⟨"tenant", "envelope", 1, "0", "line", 1, "a", 3, "reason", "a", "a"⟩

theorem Sample.widelyRevoked_facts :
    widelyRevoked.clockFloorNs = some 3 ∧
      (widelyRevoked.idempotency.lookup "revoke").map IdempotencyRow.scope = some "revoke:0" ∧
      (widelyRevoked.revocations.lookup ("line", "0")).map RevocationRow.payload =
        some wideRevocation ∧
      (widelyRevoked.leases.lookup "0").map Lease.lineageId = some "line" ∧
      (widelyRevoked.nextBatch "line" "0").map
        (fun id => (widelyRevoked.leases.lookup id).map Lease.createdAtNs) = [some 3] ∧
      ((service "a").exec ⟨2, 1⟩
        (.revokeBranch ⟨"revoke", operator, "0", "reason", none⟩)
        widelyRevoked).toOption.isNone = true := by
  decide +kernel

theorem Sample.widelyRevoked_clockSafe (hmax : clock.nowNs + clock.uncertaintyNs ≤ 10)
    (huncertainty : clock.uncertaintyNs ≤ 1) (hfloor : 3 ≤ clock.nowNs + clock.uncertaintyNs) :
    widelyRevoked.ClockSafe clock := by
  have hlarge : 10 ≤ maxResource := by decide
  have hbound : widelyRevoked.envelope.maxClockUncertaintyNs = 1 := by
    rw [(fixed_of_reachable widelyRevoked_reachable).2]
    rfl
  refine ⟨by omega, by omega, by omega, fun floor hmem => ?_⟩
  obtain rfl := some_unique widelyRevoked_facts.1 hmem
  exact hfloor

/-- With a clock that has moved back within its uncertainty, the repetition of a recorded revocation
is refused: the last lease of the branch was created later than the time it would be marked with. -/
theorem repeated_revocation_refused :
    ∃ db, ((service "a").system (envelope 70)).Reachable db ∧
      (db.idempotency.lookup "revoke").map IdempotencyRow.scope = some "revoke:0" ∧
      db.ClockSafe ⟨2, 1⟩ ∧
      (service "a").Rejects ⟨2, 1⟩
        (.revokeBranch ⟨"revoke", operator, "0", "reason", none⟩) db := by
  obtain ⟨_, hrecorded, _, _, _, hrefused⟩ := widelyRevoked_facts
  exact ⟨widelyRevoked, widelyRevoked_reachable, hrecorded,
    widelyRevoked_clockSafe (by decide) (by decide) (by decide),
    WardenService.rejects_of_isNone hrefused⟩

end Lets
