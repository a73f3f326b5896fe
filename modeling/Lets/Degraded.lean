import Lets.Idempotency

set_option autoImplicit false

/-!
# Retries on a node without capacity

Where the store refuses a write for lack of capacity, each operation that remembers its replies
answers from a read of the database instead: the recorded reply for an exact retry, a conflict for a
changed one, and a capacity error for a request it does not know.
-/

namespace Lets

open Library

variable {d : ℕ} {Hash : Type}

namespace Database

def capacityExhausted : LetsError :=
  .capacity "storage capacity reserve is exhausted; only exact durable retries are available"

/-- `_degraded_idempotent_response`.  Rows are stored under the one configured envelope, so a request
that names another one finds nothing. -/
def degradedIdempotentResponse (tenantId envelopeId scope requestId fingerprint : String)
    (db : Database d Hash) : Outcome (Response d) := do
  let response ←
    if db.envelope.tenantId = tenantId ∧ db.envelope.envelopeId = envelopeId then
      db.idempotentResponse scope requestId fingerprint
    else pure none
  orError response capacityExhausted

/-- What `_degraded_lease_idempotent_response` checks before it looks the request up. -/
def degradedLeaseChecks (leaseId : String) (identity : IdentityContext)
    (authorizationError : String) (requireRootManagement : Bool) (db : Database d Hash) :
    Outcome Unit := do
  let lease ← db.loadLease leaseId
  require (identity.subjectId = lease.subjectId ∨ identity.HasScope subjectLifecycleScopes)
    (.policy authorizationError)
  require (requireRootManagement = true → lease.parentId = none →
      identity.HasScope subjectLifecycleScopes)
    (.policy "root lease renewal requires lease-management scope")

end Database

namespace WardenService

/-- What an operation checks before its read-only path looks the request up. -/
def degradedChecks (svc : WardenService d Hash) (db : Database d Hash) :
    Operation d → Outcome Unit
  | .setRuntimeMode req => do
    require (0 < req.reason.length ∧ req.reason.length ≤ 2000)
      (.validation "runtime mode reason must contain 1..2000 characters")
    requireAdmin req.identity db.envelope.tenantId
  | .issueRoot _ _ req => do
    require (req.identity.tenantId = req.tenantId)
      (.policy "identity tenant does not match request tenant")
    require (req.identity.HasScope rootIssuerScopes)
      (.policy "root lease issuance scope is required")
    positiveTtl req.ttlNs
    require req.allocation.NonZero
      (.validation "root allocation must contain a non-zero dimension")
  | .spawn _ req => do
    positiveTtl req.ttlNs
    checkExpectedSequence req.expectedSequence
    require (req.identity.tenantId = db.envelope.tenantId)
      (.policy "identity tenant does not match parent tenant")
    require req.allocation.NonZero
      (.validation "child allocation must contain a non-zero dimension")
    db.degradedLeaseChecks req.parentId req.identity "only the parent subject may spawn a child"
      false
  | .spawnRemote _ _ req => do
    require (req.targetWarden ≠ svc.wardenId)
      (.validation "remote spawn target must differ from the parent's warden")
    require (∃ peers ∈ svc.allowedPeerWardens, req.targetWarden ∈ peers)
      (.policy "remote spawn target is not authorized by this warden configuration")
    positiveTtl req.ttlNs
    checkExpectedSequence req.expectedSequence
    require (req.identity.tenantId = db.envelope.tenantId)
      (.policy "identity tenant does not match parent tenant")
    require req.allocation.NonZero
      (.validation "child allocation must contain a non-zero dimension")
    db.degradedLeaseChecks req.parentId req.identity "only the parent subject may spawn a child"
      false
  | .authorize _ req => do
    require (16 ≤ req.nonce.length) (.validation "nonce must contain at least 16 characters")
    checkExpectedSequence req.expectedSequence
    require (req.identity.tenantId = db.envelope.tenantId)
      (.policy "identity tenant does not match lease tenant")
    db.degradedLeaseChecks req.leaseId req.identity "authenticated subject does not own this lease"
      false
  | .renew req => do
    positiveTtl req.ttlNs
    checkExpectedSequence req.expectedSequence
    require (req.identity.tenantId = db.envelope.tenantId)
      (.policy "identity tenant does not match lease tenant")
    db.degradedLeaseChecks req.leaseId req.identity "authenticated subject may not renew this lease"
      true
  | .lifecycle _ _ req => do
    checkExpectedSequence req.expectedSequence
    require (req.identity.tenantId = db.envelope.tenantId)
      (.policy "identity tenant does not match lease tenant")
    db.degradedLeaseChecks req.leaseId req.identity
      "authenticated subject may not manage this lease" false
  | .revokeBranch req => do
    require (0 < req.reason.length ∧ req.reason.length ≤ 1000)
      (.validation "revocation reason must contain 1..1000 characters")
    require (∀ e ∈ req.expectedEpoch, e ≤ maxResource)
      (.validation "expected_epoch must be a non-negative integer")
    require (req.identity.HasScope (adminScopes ++ ["lets.branch.revoke"]))
      (.policy "branch revocation scope is required")
    require (req.identity.tenantId = db.envelope.tenantId)
      (.policy "identity tenant does not match branch tenant")
  | .prepareTransfer _ req => do
    require (req.targetWarden ≠ svc.wardenId)
      (.validation "transfer target must differ from the source warden")
    require (∀ peers ∈ svc.allowedPeerWardens, req.targetWarden ∈ peers)
      (.policy "transfer target is not authorized by this warden configuration")
    require (req.identity.tenantId = req.tenantId)
      (.policy "identity tenant does not match request tenant")
    require (req.identity.subjectId = svc.wardenId ∨
        req.identity.HasScope (adminScopes ++ ["lets.transfer"]))
      (.policy "transfer preparation scope is required")
    require req.amount.NonZero (.validation "transfer amount must contain a non-zero dimension")
  | _ => pure ()

/-- The scope under which the read-only path looks a request up, where the write path has
remembered it under the given one. -/
def readScope (operation : Operation d) (scope : String) : String :=
  match operation with
  | .setRuntimeMode _ => "runtime-mode"
  | _ => scope

/-- What a call returns where write admission is refused for lack of capacity; `none` for the
operations that have no read-only path. -/
def degraded (svc : WardenService d Hash) (db : Database d Hash) (operation : Operation d) :
    Option (Outcome (Response d)) :=
  match operation.request, operation.arguments svc db.envelope.configEpoch with
  | some (scope, requestId), some arguments => some do
    svc.degradedChecks db operation
    let (tenantId, envelopeId) :=
      operation.addressee.getD (db.envelope.tenantId, db.envelope.envelopeId)
    db.degradedIdempotentResponse tenantId envelopeId (readScope operation scope) requestId
      (svc.fingerprint arguments)
  | _, _ => none

variable {svc : WardenService d Hash} {operation : Operation d} {db : Database d Hash}
  {scope requestId : String}

theorem readScope_eq_iff (hrequest : operation.request = some (scope, requestId)) :
    scope = readScope operation scope ↔ ∀ req, operation ≠ .setRuntimeMode req := by
  cases operation with
  | setRuntimeMode req =>
    obtain ⟨rfl, -⟩ := Prod.mk.inj (Option.some.inj hrequest)
    have hne : "set_runtime_mode" ≠ "runtime-mode" := by decide
    exact ⟨fun heq => absurd heq hne, fun h => absurd rfl (h req)⟩
  | _ => exact ⟨fun _ => (by simp), fun _ => rfl⟩

variable {arguments : Arguments d}

theorem degraded_of_addressed (haddressed : operation.Addressed db)
    (hrequest : operation.request = some (scope, requestId))
    (harguments : operation.arguments svc db.envelope.configEpoch = some arguments) :
    svc.degraded db operation = some (svc.degradedChecks db operation >>= fun _ =>
      db.idempotentResponse (readScope operation scope) requestId (svc.fingerprint arguments) >>=
        fun response => orError response Database.capacityExhausted) := by
  have haddressee : operation.addressee.getD (db.envelope.tenantId, db.envelope.envelopeId) =
      (db.envelope.tenantId, db.envelope.envelopeId) := by
    cases h : operation.addressee with
    | none => rfl
    | some addressee => exact haddressed addressee h
  simp only [degraded, hrequest, harguments, haddressee, Database.degradedIdempotentResponse,
    and_self, if_true]

/-- A request for another envelope finds nothing. -/
theorem degraded_of_not_addressed (haddressed : ¬operation.Addressed db)
    (hrequest : operation.request = some (scope, requestId)) :
    svc.degraded db operation = some (svc.degradedChecks db operation >>= fun _ =>
      .error Database.capacityExhausted) := by
  obtain ⟨arguments, harguments⟩ :=
    Operation.exists_arguments svc db.envelope.configEpoch hrequest
  simp only [Operation.Addressed, not_forall] at haddressed
  obtain ⟨⟨tenantId, envelopeId⟩, haddressee, hne⟩ := haddressed
  have hother : ¬(db.envelope.tenantId = tenantId ∧ db.envelope.envelopeId = envelopeId) := by
    rintro ⟨rfl, rfl⟩
    exact hne rfl
  rw [Option.mem_def] at haddressee
  simp only [degraded, hrequest, harguments, haddressee, Option.getD_some,
    Database.degradedIdempotentResponse, if_neg hother]
  rfl

theorem degraded_of_row {row : IdempotencyRow d} (haddressed : operation.Addressed db)
    (hrequest : operation.request = some (scope, requestId))
    (harguments : operation.arguments svc db.envelope.configEpoch = some arguments)
    (hrow : db.idempotency.lookup requestId = some row) :
    svc.degraded db operation = some (svc.degradedChecks db operation >>= fun _ =>
      if row.scope = readScope operation scope ∧ row.fingerprint = svc.fingerprint arguments then
        .ok row.response
      else .error (.conflict ("request_id " ++ quoted requestId ++
        " was already used with incompatible arguments"))) := by
  rw [degraded_of_addressed haddressed hrequest harguments]
  unfold Database.idempotentResponse
  rw [hrow]
  by_cases hsame : row.scope = readScope operation scope ∧
      row.fingerprint = svc.fingerprint arguments
  · simp only [if_pos hsame, require_of _ hsame, ok_bind]
    rfl
  · simp only [require, if_neg hsame]
    rfl

/-- The read-only path checks no more than the write path. -/
theorem Admissible.degradedChecks (h : svc.Admissible db operation) :
    svc.degradedChecks db operation = .ok () := by
  have hlease : ∀ {leaseId identity message}, HoldsLease identity leaseId db →
      db.degradedLeaseChecks leaseId identity message false = .ok () := by
    rintro leaseId identity message ⟨lease, hlease, hactor⟩
    simp only [Database.degradedLeaseChecks, bind_ok_iff, require_ok_iff, exists_unit_iff,
      Database.loadLease_ok_iff]
    exact ⟨lease, hlease, hactor, by simp⟩
  cases operation with
  | setRuntimeMode req =>
    obtain ⟨hreason, hadmin, _⟩ := h
    simp only [WardenService.degradedChecks, bind_ok_iff, require_ok_iff, exists_unit_iff]
    exact ⟨hreason, hadmin⟩
  | issueRoot _ _ req =>
    obtain ⟨htenant, hscope, httl, hallocation, _⟩ := h
    simp only [WardenService.degradedChecks, bind_ok_iff, require_ok_iff, exists_unit_iff]
    exact ⟨htenant, hscope, httl, hallocation⟩
  | spawn _ req =>
    obtain ⟨httl, hsequence, htenant, hallocation, hholds⟩ := h
    simp only [WardenService.degradedChecks, bind_ok_iff, require_ok_iff, exists_unit_iff]
    exact ⟨httl, hsequence, htenant, hallocation, hlease hholds⟩
  | spawnRemote _ _ req =>
    obtain ⟨hremote, hpeer, httl, hsequence, htenant, hallocation, _, hholds⟩ := h
    simp only [WardenService.degradedChecks, bind_ok_iff, require_ok_iff, exists_unit_iff]
    exact ⟨hremote, hpeer, httl, hsequence, htenant, hallocation, hlease hholds⟩
  | authorize _ req =>
    obtain ⟨hnonce, hsequence, htenant, hholds⟩ := h
    simp only [WardenService.degradedChecks, bind_ok_iff, require_ok_iff, exists_unit_iff]
    exact ⟨hnonce, hsequence, htenant, hlease hholds⟩
  | renew req =>
    obtain ⟨httl, hsequence, htenant, lease, hfound, hactor, hroot⟩ := h
    simp only [WardenService.degradedChecks, Database.degradedLeaseChecks, bind_ok_iff,
      require_ok_iff, exists_unit_iff, Database.loadLease_ok_iff]
    exact ⟨httl, hsequence, htenant, lease, hfound, hactor, fun _ => hroot⟩
  | lifecycle _ _ req =>
    obtain ⟨hsequence, htenant, hholds⟩ := h
    simp only [WardenService.degradedChecks, bind_ok_iff, require_ok_iff, exists_unit_iff]
    exact ⟨hsequence, htenant, hlease hholds⟩
  | revokeBranch req =>
    obtain ⟨hreason, hepoch, hscope, htenant, _⟩ := h
    simp only [WardenService.degradedChecks, bind_ok_iff, require_ok_iff, exists_unit_iff]
    exact ⟨hreason, hepoch, hscope, htenant⟩
  | prepareTransfer _ req =>
    obtain ⟨hremote, hpeer, htenant, hscope, hamount, _⟩ := h
    simp only [WardenService.degradedChecks, bind_ok_iff, require_ok_iff, exists_unit_iff]
    exact ⟨hremote, hpeer, htenant, hscope, hamount⟩
  | _ => rfl

/-- A check that fails is of the arguments, of the caller's authority, or of the lease. -/
theorem degradedChecks_error {e : LetsError} (h : svc.degradedChecks db operation = .error e) :
    ∃ message, e = .validation message ∨ e = .policy message ∨ e = .notFound message := by
  cases operation <;>
    simp only [WardenService.degradedChecks, Database.degradedLeaseChecks, requireAdmin, positiveTtl,
      checkExpectedSequence, Database.loadLease, bind_error_iff, require_error_iff,
      orError_error_iff, pure_ne_error] at h
  all_goals grind

/-- Where the lookup answers with an error of its own, the call gets it exactly if its checks
pass. -/
theorem bind_degradedChecks_error {x : Outcome (Response d)} {e : LetsError}
    (hx : x = .error e) (he : ∀ message, e ≠ .validation message ∧ e ≠ .policy message ∧
      e ≠ .notFound message) :
    (svc.degradedChecks db operation >>= fun _ => x) = .error e ↔
      svc.degradedChecks db operation = .ok () := by
  rw [bind_error_iff, exists_unit_iff, and_iff_left hx, or_iff_right]
  intro hcheck
  obtain ⟨message, herror⟩ := degradedChecks_error hcheck
  have := he message
  tauto

theorem degraded_unknown_iff (hrequest : operation.request = some (scope, requestId))
    (hunknown : db.idempotency.lookup requestId = none) :
    svc.degraded db operation = some (.error Database.capacityExhausted) ↔
      svc.degradedChecks db operation = .ok () := by
  obtain ⟨arguments, harguments⟩ :=
    Operation.exists_arguments svc db.envelope.configEpoch hrequest
  by_cases haddressed : operation.Addressed db
  · rw [degraded_of_addressed haddressed hrequest harguments, Option.some.injEq,
      Database.idempotentResponse_none_iff.mpr hunknown]
    exact bind_degradedChecks_error rfl (by simp [Database.capacityExhausted])
  · rw [degraded_of_not_addressed haddressed hrequest, Option.some.injEq]
    exact bind_degradedChecks_error rfl (by simp [Database.capacityExhausted])

end WardenService

theorem Operation.Repeats.readScope_eq {operation again : Operation d}
    (h : operation.Repeats again) (scope : String) :
    WardenService.readScope again scope = WardenService.readScope operation scope := by
  cases h <;> rfl

theorem WardenService.Standing.degraded_ok_iff {svc : WardenService d Hash} {db : Database d Hash}
    {operation again : Operation d} {out : Response d} {scope requestId : String}
    (h : svc.Standing operation out db) (hrequest : operation.request = some (scope, requestId))
    (hrepeats : operation.Repeats again) :
    svc.degraded db again = some (.ok out) ↔ ∀ req, operation ≠ .setRuntimeMode req := by
  obtain ⟨arguments, harguments⟩ :=
    Operation.exists_arguments svc db.envelope.configEpoch hrequest
  obtain ⟨row, hrow, hscope, hfingerprint, hresponse⟩ :=
    h.remembered scope requestId arguments hrequest harguments
  have hargued := (hrepeats.arguments_eq svc db.envelope.configEpoch).trans harguments
  have hadmissible := (hrepeats.standing h).admissible
  rw [degraded_of_row hadmissible.addressed (hrepeats.request_eq.trans hrequest) hargued hrow,
    hadmissible.degradedChecks, ok_bind, hscope, hfingerprint, hresponse,
    ← readScope_eq_iff hrequest, ← hrepeats.readScope_eq]
  by_cases hsame : scope = readScope again scope
  · rw [if_pos ⟨hsame, rfl⟩]
    exact iff_of_true rfl hsame
  · rw [if_neg fun h => hsame h.1]
    exact iff_of_false (by rintro ⟨⟩) hsame

/-- On a node without capacity, an exact retry returns the recorded reply exactly where the operation
is not `set_runtime_mode`, and the write path answers as it does exactly where the reading is safe
and, for a revocation, the next batch of its branch can be marked.  A changed call is refused as a
conflict, unless fingerprints collide, exactly where it passes the checks of the read-only path and
names no other envelope; an unknown one for lack of capacity exactly where it passes them. -/
theorem degraded_retry_agrees {svc : WardenService d Hash} {envelope : Envelope d}
    {db₀ db₁ db : Database d Hash} {call : Call d} {calls : List (Call d)} {out : Response d}
    {scope requestId : String} (hreach : (svc.system envelope).Reachable db₀)
    (hstep : (svc.system envelope).Step db₀ call db₁) (hreply : call.reply = .ok out)
    (hrequest : call.operation.request = some (scope, requestId))
    (run : (svc.system envelope).Run db₁ calls db) :
    (∀ again, call.operation.Repeats again →
      (svc.degraded db again = some (.ok out) ↔ ∀ req, call.operation ≠ .setRuntimeMode req) ∧
      ∀ clock, (∀ db' out', svc.serve clock again db = (db', .ok out') → out' = out) ∧
        ((∃ response, svc.degraded db again = some (.ok response) ∧
            (svc.serve clock again db).2 = .ok response) ↔
          (∀ req, call.operation ≠ .setRuntimeMode req) ∧ db.ClockSafe clock ∧
            ∀ req, call.operation = .revokeBranch req → svc.MayMark clock req.leaseId db)) ∧
    (∀ other scope', other.request = some (scope', requestId) →
      call.operation.NoCollision svc db.envelope.configEpoch other →
      call.operation.Differs svc db.envelope.configEpoch other →
      (svc.degraded db other = some (.error (.conflict ("request_id " ++ quoted requestId ++
          " was already used with incompatible arguments"))) ↔
        svc.degradedChecks db other = .ok () ∧ other.Addressed db)) ∧
    ∀ other scope' requestId', other.request = some (scope', requestId') →
      db.idempotency.lookup requestId' = none →
      (svc.degraded db other = some (.error Database.capacityExhausted) ↔
        svc.degradedChecks db other = .ok ()) := by
  have hstanding : svc.Standing call.operation out db :=
    WardenService.standing_of_run hstep hreply run
  have hissued : db.IssuedBeforeExpiry := WardenService.issuedBeforeExpiry_of_reachable
    (hreach.run (.cons hstep run))
  obtain ⟨arguments, harguments⟩ :=
    Operation.exists_arguments svc db.envelope.configEpoch hrequest
  obtain ⟨row, hrow, _, hfingerprint, hresponse⟩ :=
    hstanding.remembered scope requestId arguments hrequest harguments
  refine ⟨fun again hrepeats => ?_, fun other scope' hother hdigest hdiffers => ?_,
    fun other scope' requestId' hother hunknown => ?_⟩
  · have hasked := hrepeats.request_eq.trans hrequest
    have hread := hstanding.degraded_ok_iff hrequest hrepeats
    have hwritten : ∀ clock db' out', svc.serve clock again db = (db', .ok out') →
        out' = out ∧ db.ClockSafe clock := by
      intro clock db' out' hserve
      obtain ⟨hclock, _, heffect⟩ :=
        WardenService.exec_ok (WardenService.serve_ok_iff.mp hserve)
      obtain ⟨_, _, hanswer, _⟩ := heffect.answered hasked hrow
      refine ⟨hanswer.symm.trans hresponse, hclock ?_⟩
      cases again <;> first | rfl | cases hasked
    refine ⟨hread, fun clock => ⟨fun db' out' hserve => (hwritten clock db' out' hserve).1, ?_⟩⟩
    constructor
    · rintro ⟨response, hdegraded, hserve⟩
      have hserve : svc.serve clock again db = (_, .ok response) := Prod.ext rfl hserve
      obtain ⟨rfl, hclock⟩ := hwritten clock _ response hserve
      exact ⟨hread.mp hdegraded, hclock,
        (hstanding.answered_iff hissued hrequest hrepeats hclock).mp ⟨_, hserve⟩⟩
    · rintro ⟨hother, hclock, hmay⟩
      obtain ⟨db', hserve⟩ := (hstanding.answered_iff hissued hrequest hrepeats hclock).mpr hmay
      exact ⟨out, hread.mpr hother, congrArg Prod.snd hserve⟩
  · obtain ⟨arguments', harguments'⟩ :=
      Operation.exists_arguments svc db.envelope.configEpoch hother
    by_cases haddressed : other.Addressed db
    · rw [WardenService.degraded_of_row haddressed hother harguments' hrow, Option.some.injEq,
        and_iff_left haddressed]
      refine WardenService.bind_degradedChecks_error (if_neg ?_) (by simp)
      rintro ⟨_, hfingerprint'⟩
      have hsame := hdigest arguments arguments' harguments harguments'
        (hfingerprint'.symm.trans hfingerprint)
      subst hsame
      exact Operation.not_differs hstanding.admissible.addressed haddressed hrequest hother
        harguments harguments' hdiffers
    · rw [WardenService.degraded_of_not_addressed haddressed hother, Option.some.injEq,
        bind_error_iff]
      refine ⟨?_, fun h => absurd h.2 haddressed⟩
      rintro (hcheck | ⟨_, _, ⟨⟩⟩)
      obtain ⟨_, h | h | h⟩ := WardenService.degradedChecks_error hcheck <;> cases h
  · exact WardenService.degraded_unknown_iff hother hunknown

open Sample

theorem degraded_retry_agrees_root :
    ∃ db out, (service "a").serve (exactly 2)
        (.issueRoot "root" "line" (rootRequest 5))
        ((service "a").play (genesis "a" 6)
          [(exactly 1, registerPolicy)]).1 = (db, .ok out) ∧
      (service "a").degraded db (.issueRoot "root2" "line2" (rootRequest 5)) =
        some (.ok out) := by
  generalize hserve : (service "a").serve (exactly 2)
    (.issueRoot "root" "line" (rootRequest 5)) ((service "a").play
      (genesis "a" 6) [(exactly 1, registerPolicy)]).1 = served
  have hok : served.2.toOption.isSome = true := by
    subst hserve
    decide +kernel
  obtain ⟨db, reply⟩ := served
  cases reply with
  | error e => cases hok
  | ok out =>
    have hstep : ((service "a").system (envelope 6)).Step _
      ⟨exactly 2, .issueRoot "root" "line" (rootRequest 5), .ok out⟩ db := hserve
    have hreach := (service "a").play_reachable (envelope 6)
      [(exactly 1, registerPolicy)]
    obtain ⟨hagain, _⟩ := degraded_retry_agrees hreach hstep rfl rfl (.nil db)
    exact ⟨db, out, rfl, (hagain _ (.issueRoot _)).1.mpr (by simp)⟩

/-- The retry of a recorded `set_runtime_mode`: the write path answers it, and without capacity it is
refused as a conflict, because the two paths look for it under different scopes. -/
theorem runtime_mode_retry_conflicts :
    ∃ db, ((service "a").system (envelope 6)).Reachable db ∧
      ((service "a").serve (exactly 2)
        (.setRuntimeMode ⟨"m", operator, .active, "reason"⟩) db).2 =
          .ok (.runtime ⟨.active, 1, "reason", 1, "operator"⟩) ∧
      (service "a").degraded db
        (.setRuntimeMode ⟨"m", operator, .active, "reason"⟩) =
          some (.error (.conflict "request_id 'm' was already used with incompatible arguments")) := by
  refine ⟨_, (service "a").play_reachable (envelope 6)
    [(exactly 1, .setRuntimeMode ⟨"m", operator, .active, "reason"⟩)], ?_⟩
  decide +kernel

end Lets
