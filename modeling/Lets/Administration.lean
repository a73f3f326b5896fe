import Lets.Service

set_option autoImplicit false

/-!
# Genesis, runtime mode and policies

The state a store is created with, switching the warden between active and draining, and
registering policies.
-/

namespace Lets

open Library

variable {d : ℕ} {Hash : Type}

def maxMachineTransitions : ℕ := 1024

/-- The database as the store creates it (`_insert_genesis`). -/
def Database.genesis (wardenId signingKeyId : String) (envelope : Envelope d) :
    Database d Hash where
  wardenId := wardenId
  signingKeyId := signingKeyId
  envelope := envelope
  freePool := envelope.initialLocalShare
  leaseResidual := .zero d
  consumed := .zero d
  transferredIn := .zero d
  transferredOut := .zero d
  clockFloorNs := none
  revision := 0
  runtime :=
    { mode := .active
      generation := 0
      reason := "schema initialization"
      changedAtNs := 0
      changedBy := "lets-migration" }
  policies := ∅
  leases := ∅
  idempotency := ∅
  receipts := ∅
  revocations := ∅
  outgoingStreams := ∅
  outgoingTransfers := ∅
  inboundStreams := ∅
  inboundGaps := ∅
  inboundAcks := ∅
  remoteChildren := ∅
  peerDeliveries := ∅
  auditLog := []

structure SetRuntimeModeRequest where
  requestId : String
  identity : IdentityContext
  mode : RuntimeMode
  reason : String

def SetRuntimeModeRequest.arguments (req : SetRuntimeModeRequest) : Arguments d :=
  .setRuntimeMode req.identity.subjectId req.mode req.reason

namespace WardenService

def setRuntimeMode (svc : WardenService d Hash) (clock : Reading) (req : SetRuntimeModeRequest)
    (db : Database d Hash) : Outcome (Database d Hash × Response d) := do
  let actor := req.identity.subjectId
  require (0 < req.reason.length ∧ req.reason.length ≤ 2000)
    (.validation "runtime mode reason must contain 1..2000 characters")
  requireAdmin req.identity db.envelope.tenantId
  let fingerprint := svc.fingerprint req.arguments
  let scope := "set_runtime_mode"
  writeTransaction db fun db => do
    svc.verifyDatabaseIdentity db
    let db ← db.clockIsSafe clock
    match ← db.idempotentResponse scope req.requestId fingerprint with
    | some prior => pure (db, prior)
    | none =>
      let current := db.runtime
      if current.mode = req.mode ∧ current.reason = req.reason then
        pure (db.rememberResponse scope req.requestId fingerprint (.runtime current)
          clock.nowNs 200, .runtime current)
      else do
        let updated : RuntimeStatus :=
          { mode := req.mode
            generation := current.generation + 1
            reason := req.reason
            changedAtNs := clock.nowNs
            changedBy := actor }
        require (current.changedAtNs ≤ clock.nowNs)
          (.integrity "runtime control timestamp cannot move backward")
        let db := { db with runtime := updated }
        let db ← svc.appendAudit clock "warden.runtime-mode-changed" "warden" svc.wardenId actor
          [("previous_mode", .text current.mode.name), ("mode", .text updated.mode.name),
            ("generation", .number updated.generation), ("reason", .text updated.reason)] db
        pure (db.rememberResponse scope req.requestId fingerprint (.runtime updated)
          clock.nowNs 200, .runtime updated)

def checkPolicy (payload : PolicyPayload d) (db : Database d Hash) : Outcome Unit := do
  require (payload.receiptTtlNs = db.envelope.receiptTtlNs)
    (.validation "policy receipt_ttl_ns does not match immutable envelope configuration")
  require (payload.maxClockUncertaintyNs = db.envelope.maxClockUncertaintyNs)
    (.validation "policy max_clock_uncertainty_ns does not match immutable envelope configuration")
  require (payload.transferGapWindow = db.envelope.transferGapWindow)
    (.validation "policy transfer_gap_window does not match immutable envelope configuration")
  require (payload.transitions ≠ [] ∧ payload.transitions.length ≤ maxMachineTransitions)
    (.validation "policy machine must define between 1 and 1024 transitions")
  require (payload.transitions.map fun rule => (rule.source, rule.name)).Nodup
    (.validation "duplicate transition")
  require (∀ rule ∈ payload.transitions, rule.cost.NonZero)
    (.validation "transition cost must contain a non-zero dimension")

/-- `register_policy` of a decoded policy whose stated digests, where given, are the computed
ones. -/
def registerPolicy (svc : WardenService d Hash) (clock : Reading)
    (identity : Option IdentityContext) (payload : PolicyPayload d) (db : Database d Hash) :
    Outcome (Database d Hash × Response d) :=
  writeTransaction db fun db => do
    svc.verifyDatabaseIdentity db
    let db ← db.clockIsSafe clock
    require (∀ i ∈ identity, i.HasScope adminScopes)
      (.policy "policy registration requires administrative scope")
    require (∀ i ∈ identity, i.tenantId = db.envelope.tenantId)
      (.policy "identity tenant does not match policy tenant")
    let digest := svc.policyDigest payload
    checkPolicy payload db
    let sameVersion := db.policies.anyRow fun _ row =>
      row.payload.policyVersion = payload.policyVersion
    let sameContent := (db.policies.lookup digest).any fun row =>
      row.payload.policyVersion = payload.policyVersion
    if sameVersion then do
      require (sameContent = true)
        (.conflict "policy_version is already bound to different content")
      pure (db, .digest digest)
    else do
      db.requireRuntimeActive
      require (digest ∉ db.policies) (.integrity "UNIQUE constraint failed: policies.policy_digest")
      let active := !db.policies.anyRow fun _ row => row.active
      let machineDigest := svc.machineDigest payload
      let db := { db with
        policies := db.policies.insert digest
          { machineDigest, payload, active, createdAtNs := clock.nowNs } }
      let actor := match identity with
        | none => svc.wardenId
        | some i => i.subjectId
      let db ← svc.appendAudit clock "policy.registered" "policy" digest actor
        [("policy_id", .text payload.policyId), ("policy_version", .text payload.policyVersion),
          ("machine_digest", .text machineDigest), ("active", .flag active)] db
      pure (db, .digest digest)

section Spec

variable {svc : WardenService d Hash} {clock : Reading} {db db' : Database d Hash}
  {out : Response d}

theorem setRuntimeMode_ok {req : SetRuntimeModeRequest}
    (h : svc.setRuntimeMode clock req db = .ok (db', out)) :
    db.ClockSafe clock ∧ db'.Conserved ∧
      (Database.Replays clock "set_runtime_mode" req.requestId (svc.fingerprint req.arguments)
          out db db' ∨
        db.idempotency.lookup req.requestId = none ∧ ∃ runtime auditRows, out = .runtime runtime ∧
          (auditRows = [] → runtime = db.runtime) ∧
          svc.AuditExtends db.auditLog (db.auditLog ++ auditRows) ∧
            db' = Database.rememberResponse "set_runtime_mode" req.requestId
            (svc.fingerprint req.arguments) out clock.nowNs 200
            { db.touch clock.nowNs with runtime, auditLog := db.auditLog ++ auditRows }) := by
  simp only [setRuntimeMode, bind_ok_iff, require_ok_iff, exists_unit_iff] at h
  obtain ⟨_, _, h⟩ := h
  obtain ⟨h, hcons⟩ := writeTransaction_ok h
  simp only [bind_ok_iff, exists_unit_iff, Database.clockIsSafe_ok_iff] at h
  obtain ⟨_, _, ⟨hclock, rfl⟩, prior, hprior, h⟩ := h
  refine ⟨hclock, hcons, ?_⟩
  cases prior with
  | some prior => exact .inl (Database.replays_of hprior h)
  | none =>
    refine .inr ⟨Database.idempotentResponse_none_iff.mp hprior, ?_⟩
    dsimp only at h
    split_ifs at h with hsame
    · obtain ⟨rfl, rfl⟩ := Prod.mk.inj (Except.ok.inj h)
      exact ⟨db.runtime, [], rfl, fun _ => rfl, .append_nil _, by rw [List.append_nil]; rfl⟩
    · simp only [bind_ok_iff, require_ok_iff, exists_unit_iff, pure_ok_iff, Prod.mk.injEq] at h
      obtain ⟨_, _, haudit, rfl, rfl⟩ := h
      obtain ⟨row, hchained, rfl⟩ := appendAudit_ok haudit
      exact ⟨_, [row], rfl, (by simp), hchained, rfl⟩

theorem registerPolicy_ok {identity : Option IdentityContext} {payload : PolicyPayload d}
    (h : svc.registerPolicy clock identity payload db = .ok (db', out)) :
    db.ClockSafe clock ∧ db'.Conserved ∧ out = .digest (svc.policyDigest payload) ∧
      ∃ policies auditRows,
        (∀ digest row, db.policies.lookup digest = some row → policies.lookup digest = some row) ∧
        svc.AuditExtends db.auditLog (db.auditLog ++ auditRows) ∧
          db' = { db.touch clock.nowNs with policies, auditLog := db.auditLog ++ auditRows } := by
  obtain ⟨h, hcons⟩ := writeTransaction_ok h
  simp only [bind_ok_iff, require_ok_iff, exists_unit_iff, Database.clockIsSafe_ok_iff] at h
  obtain ⟨_, _, ⟨hclock, rfl⟩, _, _, _, h⟩ := h
  refine ⟨hclock, hcons, ?_⟩
  split_ifs at h with hsame
  · simp only [bind_ok_iff, require_ok_iff, exists_unit_iff, pure_ok_iff, Prod.mk.injEq] at h
    obtain ⟨_, rfl, rfl⟩ := h
    exact ⟨rfl, db.policies, [], fun _ _ hrow => hrow, .append_nil _,
      by rw [List.append_nil]; rfl⟩
  · simp only [bind_ok_iff, require_ok_iff, exists_unit_iff, pure_ok_iff, Prod.mk.injEq] at h
    obtain ⟨_, hnew, _, haudit, rfl, rfl⟩ := h
    obtain ⟨row, hchained, rfl⟩ := appendAudit_ok haudit
    exact ⟨rfl, _, [row], fun digest policy hpolicy => Table.lookup_insert_of_new hnew hpolicy,
      hchained, rfl⟩

end Spec

end WardenService

end Lets
