import Lets.Library.Threads
import Lets.Warden
import Lets.Wire

set_option autoImplicit false

/-!
# The A2A task profile

Tasks are admitted beneath leases, charged for their effects, completed and canceled by calls that
update a task ledger and make LETS calls in separate steps.
-/

namespace Lets

open Library

variable {d : ℕ} {Hash : Type}

inductive TaskState
  | submitted | working | completed | failed | canceled | rejected
  deriving DecidableEq, Repr

namespace TaskState

def value : TaskState → String
  | submitted => "TASK_STATE_SUBMITTED"
  | working => "TASK_STATE_WORKING"
  | completed => "TASK_STATE_COMPLETED"
  | failed => "TASK_STATE_FAILED"
  | canceled => "TASK_STATE_CANCELED"
  | rejected => "TASK_STATE_REJECTED"

/-- `TERMINAL_STATES`. -/
def isTerminal : TaskState → Bool
  | completed | failed | canceled | rejected => true
  | submitted | working => false

end TaskState

structure TaskKey where
  tenantId : String
  principal : String
  taskId : String
  deriving DecidableEq

/-- A task record; one that has no lease yet has none here, where the source has the empty text. -/
structure TaskRecord (d : ℕ) where
  key : TaskKey
  contextId : String
  subjectId : String
  leaseId : Option String
  admissionDigest : String
  state : TaskState
  parent : Option TaskKey
  cancelRequested : Bool
  reason : Option String
  revokedAtNs : Option ℕ
  receiptHorizonNs : ℕ
  completionRequested : Bool
  parentLeaseId : String
  allocation : ResourceVector d
  capabilities : Finset String
  ttlNs : ℕ
  deriving DecidableEq

inductive TaskError
  | profile (name : String) (code : ℤ) (message : String)
  | lets (error : LetsError)
  | recursion
  deriving DecidableEq

namespace TaskError

def taskNotFound : TaskError := .profile "TaskNotFoundError" (-32001) "task not found"

def notCancelable (state : TaskState) : TaskError :=
  .profile "TaskNotCancelableError" (-32002) ("task is already terminal (" ++ state.value ++ ")")

end TaskError

/-- `ValidationError`, or `PolicyError` with the classes below it. -/
def LetsError.deniesAdmission : LetsError → Bool
  | validation _ | policy _ | expired _ | replay _ | signature _ | clockUncertain _
  | authentication _ => true
  | notFound _ | conflict _ | invariant _ | storage _ | draining _ | capacity _ | integrity _ =>
    false

def LetsError.isExpired : LetsError → Bool
  | expired _ => true
  | _ => false

/-! ### The ledger -/

/-- The updates of a record that the profile makes, under the names they have there. -/
inductive TaskMutation
  | gate (refusal : String)
  | bind (leaseId : String)
  | reject
  | note (horizon : ℕ)
  | fail (reason : String)
  | begin
  | finish
  | intent
  | canceled (reason : String) (revokedAt : ℕ)
  | mirror
  deriving DecidableEq

def TaskError.overtaken : TaskError :=
  .lets (.conflict "task is canceled, canceling, or already failed")

def TaskMutation.apply (current : TaskRecord d) : TaskMutation → Except TaskError (TaskRecord d)
  | gate refusal => do
    require (current.state.isTerminal = false ∧ current.cancelRequested = false ∧
      current.completionRequested = false) (.lets (.policy refusal))
    pure current
  | bind leaseId =>
    pure (if current.leaseId.isSome then current else { current with leaseId := some leaseId })
  | reject =>
    pure (if current.leaseId.isSome ∨ current.state.isTerminal = true then current
      else { current with state := .rejected, reason := some "admission_denied" })
  | note horizon =>
    let moved := max current.receiptHorizonNs horizon
    pure (if current.state = .submitted then
        { current with state := .working, receiptHorizonNs := moved }
      else { current with receiptHorizonNs := moved })
  | fail reason =>
    pure (if current.state.isTerminal then current
      else { current with state := .failed, reason := some reason })
  | begin =>
    if current.state = .completed then pure current
    else do
      require (current.state.isTerminal = false ∧ current.cancelRequested = false) .overtaken
      pure { current with completionRequested := true }
  | finish =>
    if current.state = .completed then pure current
    else do
      require (current.state.isTerminal = false ∧ current.cancelRequested = false) .overtaken
      pure { current with state := .completed, completionRequested := false }
  | intent =>
    if current.state = .canceled then pure current
    else do
      require (current.state.isTerminal = false) (.notCancelable current.state)
      pure { current with cancelRequested := true }
  | canceled reason revokedAt =>
    pure { current with
      state := .canceled
      cancelRequested := false
      reason := some reason
      revokedAtNs := some revokedAt }
  | mirror =>
    pure (if current.state.isTerminal then current
      else { current with state := .canceled, reason := some "parent_canceled" })

/-- The ledger, the warden's store and the spawn requests that the warden has been sent, each with
the task it was for and its answer. -/
structure TaskWorld (d : ℕ) (Hash : Type) where
  ledger : Table TaskKey (TaskRecord d)
  database : Database d Hash
  spawns : List (TaskKey × SpawnRequest d × Outcome (Response d))

namespace TaskWorld

def putIfAbsent (record : TaskRecord d) (w : TaskWorld d Hash) :
    TaskRecord d × TaskWorld d Hash :=
  match w.ledger.lookup record.key with
  | some stored => (stored, w)
  | none => (record, { w with ledger := w.ledger.insert record.key record })

def update (key : TaskKey) (mutation : TaskMutation) (w : TaskWorld d Hash) :
    Except TaskError (TaskRecord d) × TaskWorld d Hash :=
  match w.ledger.lookup key with
  | none => (.error .taskNotFound, w)
  | some current =>
    match mutation.apply current with
    | .error e => (.error e, w)
    | .ok updated => (.ok updated, { w with ledger := w.ledger.insert key updated })

def childrenOf (key : TaskKey) (w : TaskWorld d Hash) : List (TaskRecord d) :=
  w.ledger.entries.filterMap fun row => if row.2.parent = some key then some row.2 else none

end TaskWorld

/-! ### LETS calls -/

inductive CallFate
  | answered
  | lost (error : LetsError)
  | refused (error : LetsError)

/-- The circumstances of a LETS call: the clock, the fresh identifier and the remote children found
terminated when it is served, and its fate. -/
structure CallChoice where
  clock : Reading
  freshId : String
  terminated : List (String × LeaseStatus)
  fate : CallFate

/-- The profile: the configured tenant, policy and capabilities, the identity its client has at the
warden, the audiences of executors, and the digests identifiers and admissions are named by. -/
structure TaskProfile (d : ℕ) where
  tenantId : String
  policyDigest : String
  defaultCapabilities : Finset String
  identity : IdentityContext
  audiences : Table String String
  /-- The SHA-256 digest in hexadecimal. -/
  hexDigest : Bytes → String
  /-- The first 48 digits of it. -/
  shortDigest : Bytes → String
  /-- How deep calls of `_cascade` may nest. -/
  recursionLimit : ℕ

/-- `require_identifier` of each value. -/
def requireIdentifiers (fields : List (String × String)) : Outcome Unit :=
  fields.forM fun field => do
    let _ ← requireIdentifier field.1 (.text field.2)

inductive TaskQuery (d : ℕ)
  | get (key : TaskKey)
  | putIfAbsent (record : TaskRecord d)
  | update (key : TaskKey) (mutation : TaskMutation)
  | childrenOf (key : TaskKey)
  | replicate (key : TaskKey) (request : SpawnRequest d)
  | authorizeEffect (key : TaskKey) (request : AuthorizeRequest)
  | close (key : TaskKey) (request : LifecycleRequest)
  | revoke (key : TaskKey) (request : RevokeBranchRequest)

def TaskQuery.Reply : TaskQuery d → Type
  | get _ => Option (TaskRecord d)
  | putIfAbsent _ => TaskRecord d
  | update _ _ => Except TaskError (TaskRecord d)
  | childrenOf _ => List (TaskRecord d)
  | replicate _ _ => Outcome (LeaseGrant d)
  | authorizeEffect _ _ => Outcome (Receipt d)
  | close _ _ => Outcome Unit
  | revoke _ _ => Outcome BranchRevocation

namespace TaskProfile

variable (P : TaskProfile d)

/-- What `replicate` checks before it calls. -/
def checkReplicate (request : SpawnRequest d) : Outcome Unit := do
  requireIdentifiers [("request_id", request.requestId), ("parent_lease_id", request.parentId),
    ("replica_id", request.subjectId)]
  require (request.capabilities ≠ ∅)
    (.validation "a replica must receive at least one capability")
  require (request.capabilities ⊆ P.defaultCapabilities)
    (.policy ("replica capabilities exceed the configured profile: " ++
      shownNames (sortedTexts (request.capabilities \ P.defaultCapabilities))))
  requireIdentifiers ((sortedTexts request.capabilities).map fun s => ("replica capability", s))
  require (0 < request.ttlNs) (.validation "replica ttl_ns must be a positive integer")

def checkAuthorizeEffect (request : AuthorizeRequest) : Outcome Unit :=
  requireIdentifiers [("request_id", request.requestId), ("lease_id", request.leaseId),
    ("transition", request.transition), ("executor_audience", request.audience),
    ("nonce", request.nonce)]

def checkClose (request : LifecycleRequest) : Outcome Unit :=
  requireIdentifiers [("lease_id", request.leaseId), ("request_id", request.requestId)]

def checkRevoke (request : RevokeBranchRequest) : Outcome Unit := do
  requireIdentifiers [("lease_id", request.leaseId), ("request_id", request.requestId)]
  require (0 < request.reason.length ∧ request.reason.length ≤ 1000)
    (.validation "revocation reason must contain 1..1000 characters")

def serve (svc : WardenService d Hash) (choice : CallChoice) (key : TaskKey)
    (operation : Operation d) (w : TaskWorld d Hash) :
    Outcome (Response d) × TaskWorld d Hash :=
  let served := svc.serve choice.clock operation w.database
  (served.2,
    { w with
      database := served.1
      spawns := w.spawns ++ (match operation with
        | .spawn _ request => [(key, request, served.2)]
        | _ => []) })

/-- One LETS call: the checks of the authorizer, the call, and what is read off its reply. -/
def exchange {β : Type} (svc : WardenService d Hash) (choice : CallChoice) (key : TaskKey)
    (checks : Outcome Unit) (operation : Operation d) (read : Response d → Outcome β)
    (w : TaskWorld d Hash) : Outcome β × TaskWorld d Hash :=
  match checks, choice.fate with
  | .error e, _ => (.error e, w)
  | .ok _, .refused e => (.error e, w)
  | .ok _, .lost e => (.error e, (serve svc choice key operation w).2)
  | .ok _, .answered =>
    ((serve svc choice key operation w).1 >>= read, (serve svc choice key operation w).2)

def malformed {β : Type} : Outcome β := .error (.storage "malformed reply")

def readGrant : Response d → Outcome (LeaseGrant d)
  | .grant grant => pure grant
  | _ => malformed

def readReceipt : Response d → Outcome (Receipt d)
  | .receipt receipt => pure receipt
  | _ => malformed

def readRevocation : Response d → Outcome BranchRevocation
  | .revocation revocation => pure revocation
  | _ => malformed

def answer (svc : WardenService d Hash) (choice : CallChoice) :
    (q : TaskQuery d) → TaskWorld d Hash → q.Reply × TaskWorld d Hash
  | .get key, w => (w.ledger.lookup key, w)
  | .putIfAbsent record, w => w.putIfAbsent record
  | .update key mutation, w => w.update key mutation
  | .childrenOf key, w => (w.childrenOf key, w)
  | .replicate key request, w => exchange svc choice key (P.checkReplicate request)
      (.spawn choice.freshId request) readGrant w
  | .authorizeEffect key request, w => exchange svc choice key (checkAuthorizeEffect request)
      (.authorize choice.freshId request) readReceipt w
  | .close key request, w => exchange svc choice key (checkClose request)
      (.lifecycle .close choice.terminated request) (fun _ => pure ()) w
  | .revoke key request, w => exchange svc choice key (checkRevoke request)
      (.revokeBranch request) readRevocation w

end TaskProfile

/-! ### The calls -/

abbrev TaskProg (d : ℕ) (α : Type) := Prog (TaskQuery d) TaskQuery.Reply TaskError α

/-- What a task is admitted with, by its caller or by the subject of its parent. -/
structure Admission (d : ℕ) where
  taskId : String
  contextId : String
  content : List (String × Json)
  subjectId : String
  allocation : ResourceVector d
  capabilities : Finset String
  ttlNs : ℕ

inductive TaskRequest (d : ℕ)
  | admitCall (identity : IdentityContext) (admission : Admission d) (parentLeaseId : String)
  | delegate (identity : IdentityContext) (parentKey : TaskKey) (admission : Admission d)
  | authorizeEffect (identity : IdentityContext) (taskId effectId transition
      verifiedExecutorId : String) (expectedState : Option String) (expectedSequence : Option ℕ)
  | completeTask (identity : IdentityContext) (taskId : String)
  | cancelTask (identity : IdentityContext) (taskId reason : String)

inductive TaskAnswer (d : ℕ)
  | record (record : TaskRecord d)
  | receipt (receipt : Receipt d)

def IdentityContext.taskKey (identity : IdentityContext) (taskId : String) : TaskKey :=
  ⟨identity.tenantId, identity.subjectId, taskId⟩

def raising {α : Type} (x : Outcome α) : TaskProg d α :=
  .ofExcept (x.mapError .lets)

def updateTask (key : TaskKey) (mutation : TaskMutation) : TaskProg d (TaskRecord d) :=
  .ask (.update key mutation) fun (result : Except TaskError (TaskRecord d)) => .ofExcept result

def accepting (key : TaskKey) (refusal : String) : TaskProg d (TaskRecord d) :=
  updateTask key (.gate refusal)

/-- `_cascade`, nested at most so deep. -/
def cascade : ℕ → TaskKey → TaskProg d Unit
  | 0, _ => .fail .recursion
  | depth + 1, key => .ask (.childrenOf key) fun (children : List (TaskRecord d)) =>
    Prog.each (fun child => do
      let _ ← updateTask child.key .mirror
      cascade depth child.key) children

namespace TaskProfile

variable (P : TaskProfile d)

def derivation (kind : String) (key : TaskKey) (contextId discriminator : String) : Json :=
  .object [("type", .text "lets.a2a-profile/v1"), ("kind", .text kind),
    ("tenant", .text key.tenantId), ("principal", .text key.principal),
    ("task", .text key.taskId), ("context", .text contextId),
    ("discriminator", .text discriminator)]

def deriveId (kind : String) (key : TaskKey) (contextId discriminator : String) : String :=
  "a2a1." ++ kind ++ "." ++ P.shortDigest
    (String.ofList (derivation kind key contextId discriminator).jsonText).toUTF8.data.toList

def contentDigest (content : Json) : Outcome String := do
  let bytes ← canonicalJson content
  pure ("sha256:" ++ P.hexDigest bytes)

def admissionDigest (admission : Admission d) (parentLeaseId : String) : Outcome String := do
  let content ← P.contentDigest (.object admission.content)
  P.contentDigest (.object [("content", .text content), ("subject", .text admission.subjectId),
    ("parent_lease", .text parentLeaseId), ("allocation", admission.allocation.json),
    ("capabilities", textArray (sortedTexts admission.capabilities)),
    ("ttl_ns", .number admission.ttlNs)])

def verified (identity : IdentityContext) : TaskProg d Unit :=
  raising (require (identity.tenantId = P.tenantId)
    (.policy "identity tenant does not match the configured LETS tenant"))

/-- A record that has just been read, or `TaskNotFoundError`. -/
def found (key : TaskKey) : TaskProg d (TaskRecord d) :=
  .ask (.get key) fun (record : Option (TaskRecord d)) =>
    match record with
    | some record => .done record
    | none => .fail .taskNotFound

def owned (identity : IdentityContext) (taskId : String) : TaskProg d (TaskRecord d) := do
  P.verified identity
  found (identity.taskKey taskId)

def spawnRequest (record : TaskRecord d) : SpawnRequest d where
  requestId := P.deriveId "spawn" record.key record.contextId ""
  identity := P.identity
  parentId := record.parentLeaseId
  subjectId := record.subjectId
  allocation := record.allocation
  capabilities := record.capabilities
  ttlNs := record.ttlNs
  policyDigest := some P.policyDigest
  expectedSequence := none

def ensureLease (record : TaskRecord d) : TaskProg d (TaskRecord d) :=
  if record.leaseId.isSome ∨ record.state.isTerminal = true then .done record
  else .ask (.replicate record.key (P.spawnRequest record))
    fun (reply : Outcome (LeaseGrant d)) =>
      match reply with
      | .ok grant => updateTask record.key (.bind grant.leaseId)
      | .error e =>
        if e.deniesAdmission then do
          let _ ← updateTask record.key .reject
          .fail (.lets e)
        else .fail (.lets e)

def sameAdmission (record : TaskRecord d) (contextId digest : String) : Outcome Unit := do
  require (record.contextId = contextId)
    (.conflict "task id is already bound to a different context")
  require (record.admissionDigest = digest)
    (.conflict "task id was already admitted with different content or authority")

def pending (identity : IdentityContext) (admission : Admission d) (parentLeaseId : String)
    (parent : Option TaskKey) (digest : String) : TaskRecord d where
  key := identity.taskKey admission.taskId
  contextId := admission.contextId
  subjectId := admission.subjectId
  leaseId := none
  admissionDigest := digest
  state := .submitted
  parent := parent
  cancelRequested := false
  reason := none
  revokedAtNs := none
  receiptHorizonNs := 0
  completionRequested := false
  parentLeaseId := parentLeaseId
  allocation := admission.allocation
  capabilities := admission.capabilities
  ttlNs := admission.ttlNs

/-- What `_admit` checks and digests before it touches the ledger. -/
def admissionChecked (identity : IdentityContext) (admission : Admission d)
    (parentLeaseId : String) : Outcome String := do
  require (identity.tenantId = P.tenantId)
    (.policy "identity tenant does not match the configured LETS tenant")
  requireIdentifiers [("task id", admission.taskId), ("context id", admission.contextId)]
  P.admissionDigest admission parentLeaseId

/-- `_admit`. -/
def admitTask (identity : IdentityContext) (admission : Admission d) (parentLeaseId : String)
    (parent : Option TaskKey) : TaskProg d (TaskAnswer d) := do
  let digest ← raising (P.admissionChecked identity admission parentLeaseId)
  let bound ← .ask (.putIfAbsent (pending identity admission parentLeaseId parent digest))
    fun (bound : TaskRecord d) => .done bound
  raising (sameAdmission bound admission.contextId digest)
  let record ← P.ensureLease bound
  pure (.record record)

/-- `admit`. -/
def admitCall (identity : IdentityContext) (admission : Admission d) (parentLeaseId : String) :
    TaskProg d (TaskAnswer d) :=
  P.admitTask identity admission parentLeaseId none

def delegate (identity : IdentityContext) (parentKey : TaskKey) (admission : Admission d) :
    TaskProg d (TaskAnswer d) := do
  P.verified identity
  if parentKey.tenantId ≠ identity.tenantId then .fail .taskNotFound
  else do
    let parent ← found parentKey
    raising (require (parent.subjectId = identity.subjectId)
      (.policy "only the parent task's executing subject may delegate"))
    let _ ← accepting parentKey "parent task is not accepting delegation"
    let _ ← P.ensureLease parent
    let parent ← accepting parentKey "parent task is not accepting delegation"
    P.admitTask identity admission (parent.leaseId.getD "") (some parentKey)

def resolve (verifiedExecutorId : String) : Outcome String :=
  orError (P.audiences.lookup verifiedExecutorId)
    (.policy "executor identity has no audience binding")

def effectRequest (record : TaskRecord d) (effectId transition audience : String)
    (expectedState : Option String) (expectedSequence : Option ℕ) : AuthorizeRequest where
  requestId := P.deriveId "effect" record.key record.contextId effectId
  identity := P.identity
  leaseId := record.leaseId.getD ""
  transition := transition
  audience := audience
  nonce := P.deriveId "nonce" record.key record.contextId effectId
  evidence := none
  expectedState := expectedState
  expectedSequence := expectedSequence

def authorizeEffect (identity : IdentityContext) (taskId effectId transition
    verifiedExecutorId : String) (expectedState : Option String) (expectedSequence : Option ℕ) :
    TaskProg d (TaskAnswer d) := do
  let record ← P.owned identity taskId
  raising (requireIdentifiers [("effect id", effectId)])
  let _ ← accepting record.key "task is not accepting new effects"
  let audience ← raising (P.resolve verifiedExecutorId)
  let _ ← P.ensureLease record
  let record ← accepting record.key "task is not accepting new effects"
  .ask (.authorizeEffect record.key (P.effectRequest record effectId transition audience
      expectedState expectedSequence)) fun (reply : Outcome (Receipt d)) =>
    match reply with
    | .ok receipt => do
      let _ ← updateTask record.key (.note receipt.expiresAtNs)
      .done (.receipt receipt)
    | .error e =>
      if e.isExpired then do
        let _ ← updateTask record.key (.fail "authority_expired")
        .fail (.lets e)
      else .fail (.lets e)

def closeRequest (record : TaskRecord d) : LifecycleRequest where
  requestId := P.deriveId "close" record.key record.contextId ""
  identity := P.identity
  leaseId := record.leaseId.getD ""
  expectedSequence := none

def completeTask (identity : IdentityContext) (taskId : String) : TaskProg d (TaskAnswer d) := do
  let record ← P.owned identity taskId
  let started ← updateTask record.key .begin
  if started.state = .completed then .done (.record started)
  else do
    let started ← P.ensureLease started
    .ask (.close started.key (P.closeRequest started)) fun (reply : Outcome Unit) =>
      match reply with
      | .ok _ => do
        let finished ← updateTask started.key .finish
        .done (.record finished)
      | .error e => .fail (.lets e)

def revokeRequest (record : TaskRecord d) (reason : String) : RevokeBranchRequest where
  requestId := P.deriveId "cancel" record.key record.contextId ""
  identity := P.identity
  leaseId := record.leaseId.getD ""
  reason := reason
  expectedEpoch := none

def cancelTask (identity : IdentityContext) (taskId reason : String) :
    TaskProg d (TaskAnswer d) := do
  let record ← P.owned identity taskId
  let marked ← updateTask record.key .intent
  if marked.state = .canceled then do
    cascade P.recursionLimit marked.key
    .done (.record marked)
  else do
    let marked ← P.ensureLease marked
    .ask (.revoke marked.key (P.revokeRequest marked reason))
      fun (reply : Outcome BranchRevocation) =>
        match reply with
        | .ok revocation => do
          let result ← updateTask marked.key (.canceled reason revocation.issuedAtNs)
          cascade P.recursionLimit result.key
          .done (.record result)
        | .error e => .fail (.lets e)

def program : TaskRequest d → TaskProg d (TaskAnswer d)
  | .admitCall identity admission parentLeaseId => P.admitCall identity admission parentLeaseId
  | .delegate identity parentKey admission => P.delegate identity parentKey admission
  | .authorizeEffect identity taskId effectId transition verifiedExecutorId expectedState
      expectedSequence => P.authorizeEffect identity taskId effectId transition
        verifiedExecutorId expectedState expectedSequence
  | .completeTask identity taskId => P.completeTask identity taskId
  | .cancelTask identity taskId reason => P.cancelTask identity taskId reason

/-- The profile and its warden; what others do is call the same warden. -/
def host (svc : WardenService d Hash) : Host (TaskWorld d Hash) (TaskQuery d) TaskQuery.Reply
    TaskError (TaskAnswer d) CallChoice (TaskRequest d) (Reading × Operation d) where
  answer := P.answer svc
  program := P.program
  outside call w := { w with database := (svc.serve call.1 call.2 w.database).1 }

def start (database : Database d Hash) : TaskWorld d Hash := ⟨∅, database, []⟩

end TaskProfile

end Lets
