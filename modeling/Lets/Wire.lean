import Lets.AuditVerification
import Lets.CanonicalJson

set_option autoImplicit false

/-!
# The wire form of the signed records

`to_dict` and `from_dict` of the five wire types, with the checks their constructors make.
-/

namespace Lets

open Library

/-! ### Identifiers -/

def isSpace (c : Char) : Bool :=
  (9 ≤ c.toNat ∧ c.toNat ≤ 13) ∨ (28 ≤ c.toNat ∧ c.toNat ≤ 32) ∨ c.toNat = 133 ∨ c.toNat = 160 ∨
    c.toNat = 5760 ∨ (8192 ≤ c.toNat ∧ c.toNat ≤ 8202) ∨ c.toNat = 8232 ∨ c.toNat = 8233 ∨
    c.toNat = 8239 ∨ c.toNat = 8287 ∨ c.toNat = 12288

/-- Whether `str.strip` leaves the text as it is. -/
def stripped (s : String) : Bool :=
  (s.toList.head?.all fun c => !isSpace c) && s.toList.getLast?.all fun c => !isSpace c

def isControl (c : Char) : Bool := c.toNat < 32 ∨ c.toNat = 127

def isIdentifier (s : String) : Bool :=
  s ≠ "" ∧ s.length ≤ 512 ∧ stripped s ∧ s.toList.all fun c => !isControl c

def requireIdentifier (field : String) : Json → Outcome String
  | .text s => do
    require (s ≠ "") (.validation (field ++ " must be a non-empty string"))
    require (s.length ≤ 512) (.validation (field ++ " exceeds 512 characters"))
    require (stripped s = true)
      (.validation (field ++ " must not contain surrounding whitespace"))
    require (s.toList.all (fun c => !isControl c) = true)
      (.validation (field ++ " must not contain control characters"))
    pure s
  | _ => .error (.validation (field ++ " must be a non-empty string"))

/-- `sha256:` and 64 lower-case hexadecimal digits. -/
def isDigest (s : String) : Bool :=
  s.toList.take 7 = "sha256:".toList ∧ (s.toList.drop 7).length = 64 ∧
    (s.toList.drop 7).all fun c => c.isDigit || ('a' ≤ c && c ≤ 'f')

/-- An alphanumeric character and at most so many more, of which some others may be. -/
def isToken (others : List Char) (more : ℕ) (s : String) : Bool :=
  match s.toList with
  | [] => false
  | c :: rest => c.isAlphanum && rest.length ≤ more && rest.all fun c => c.isAlphanum || c ∈ others

def isWardenId (s : String) : Bool := isToken ['.', '_', '~', '-'] 127 s

def isKeyId (s : String) : Bool := isToken ['.', '_', '~', ':', '/', '+', '-'] 511 s

def requireShape (shape : String → Bool) (message : String) : Json → Outcome String
  | .text s => do
    require (shape s = true) (.validation message)
    pure s
  | _ => .error (.validation message)

def requireDigest (field : String) : Json → Outcome String :=
  requireShape isDigest (field ++ " must match sha256:<64 lowercase hex characters>")

def requireWardenId (field : String) : Json → Outcome String :=
  requireShape isWardenId (field ++ " must be 1..128 ASCII URI-unreserved characters, start with " ++
    "an alphanumeric character, and contain no percent escapes")

def requireKeyId (field : String) : Json → Outcome String :=
  requireShape isKeyId (field ++ " must be an ASCII transport-safe key identifier")

/-! ### Other members -/

def optional {α : Type} (check : Json → Outcome α) : Json → Outcome (Option α)
  | .null => pure none
  | value => some <$> check value

def positive (field : String) (allowZero : Bool) : Json → Outcome ℕ
  | .number n => do
    require (0 ≤ n ∧ (allowZero = true ∨ n ≠ 0)) (.validation (field ++ " must be " ++
      if allowZero then "non-negative" else "positive"))
    require (n ≤ maxResource) (.validation (field ++ " must fit in a signed 64-bit integer"))
    pure n.toNat
  | _ => .error (.validation (field ++ " must be an integer"))

def nonEmptyText (field : String) : Json → Outcome String
  | .text s => do
    require (s ≠ "") (.validation (field ++ " must contain non-empty strings"))
    pure s
  | _ => .error (.validation (field ++ " must contain non-empty strings"))

/-- `_strings`; what is iterated over in an object is its keys. -/
def strings (field : String) : Json → Outcome (List String)
  | .array items => items.mapM (nonEmptyText field)
  | .object members => members.mapM fun m => nonEmptyText field (.text m.1)
  | _ => .error (.validation (field ++ " must be an array of strings"))

abbrev Amount := { n : ℕ // n ≤ maxResource }

def amount : Json → Outcome Amount
  | .number n =>
    if _h : n < 0 then .error (.validation "resource-vector values must be non-negative")
    else if h : n.toNat ≤ maxResource then pure ⟨n.toNat, h⟩
    else .error (.validation "resource-vector values must not exceed 9223372036854775807")
  | _ => .error (.validation "resource-vector values must be integers")

def ResourceVector.ofList (amounts : List Amount) : Σ d, ResourceVector d :=
  ⟨amounts.length, fun i => (amounts.get i).1, fun i => (amounts.get i).2⟩

def ResourceVector.amounts {d : ℕ} (v : ResourceVector d) : List Amount :=
  List.ofFn fun i => ⟨v i, v.le_max i⟩

/-- `tuple(value)`, as far as a resource vector goes: no other value has amounts in it. -/
def vectorItems : Json → Outcome (List Json)
  | .array items => pure items
  | .text s => pure (s.toList.map fun c => .text c.toString)
  | .object members => pure (members.map fun m => .text m.1)
  | _ => .error (.storage "object is not iterable")

def vector (value : Json) : Outcome (Σ d, ResourceVector d) := do
  let items ← vectorItems value
  require (items.isEmpty = false)
    (.validation "resource vectors must contain at least one dimension")
  let amounts ← items.mapM amount
  pure (ResourceVector.ofList amounts)

def ResourceVector.json {d : ℕ} (v : ResourceVector d) : Json :=
  .array (v.amounts.map fun n => .number n.1)

def textArray (l : List String) : Json := .array (l.map .text)

def optionalText : Option String → Json
  | none => .null
  | some s => .text s

/-- The elements of a set as `sorted` gives them. -/
def sortedTexts (s : Finset String) : List String := s.sort (· ≤ ·)

def shownNames (names : List String) : String :=
  "[" ++ ", ".intercalate (names.map quoted) ++ "]"

def strict (data : List (String × Json)) (allowed required : List String) (name : String) :
    Outcome Unit := do
  let unknown := (data.map Prod.fst).filter fun key => key ∉ allowed
  require (unknown.isEmpty = true)
    (.validation ("unknown " ++ name ++ " fields: " ++ shownNames (sortedTexts unknown.toFinset)))
  let missing := required.filter fun key => key ∉ data.map Prod.fst
  require (missing.isEmpty = true)
    (.validation ("missing " ++ name ++ " fields: " ++ shownNames (sortedTexts missing.toFinset)))

def signatureText : Json → Outcome String
  | .text s => pure s
  | _ => .error (.signature "signed record contains malformed base64url")

/-- The keys of a wire type that is strict about all of them, and its type. -/
def checkType (data : List (String × Json)) (wireType name : String) : Outcome Unit :=
  require ((Json.get data "type").isText (some wireType) = true)
    (.validation ("unsupported " ++ name ++ " type"))

/-! ### Lease grants -/

namespace LeaseGrant

variable {d : ℕ}

def unsignedPayload (grant : LeaseGrant d) : List (String × Json) :=
  [("type", .text "lets.lease-grant/v1"), ("tenant_id", .text grant.tenantId),
    ("envelope_id", .text grant.envelopeId), ("config_epoch", .number grant.configEpoch),
    ("lease_id", .text grant.leaseId), ("lineage_id", .text grant.lineageId),
    ("parent_id", optionalText grant.parentId), ("subject_id", .text grant.subjectId),
    ("warden_id", .text grant.wardenId), ("allocation", grant.allocation.json),
    ("capabilities", textArray (sortedTexts grant.capabilities)),
    ("policy_id", .text grant.policyId), ("policy_version", .text grant.policyVersion),
    ("policy_digest", .text grant.policyDigest), ("machine_digest", .text grant.machineDigest),
    ("ancestor_path", textArray grant.ancestorPath), ("branch_epoch", .number grant.branchEpoch),
    ("issued_at_ns", .number grant.issuedAtNs), ("expires_at_ns", .number grant.expiresAtNs),
    ("key_id", .text grant.keyId)]

def toDict (grant : LeaseGrant d) : List (String × Json) :=
  grant.unsignedPayload ++ [("signature", .text grant.signature)]

def dictFields : List String :=
  ["type", "tenant_id", "envelope_id", "config_epoch", "lease_id", "lineage_id", "parent_id",
    "subject_id", "warden_id", "allocation", "capabilities", "policy_id", "policy_version",
    "policy_digest", "machine_digest", "ancestor_path", "branch_epoch", "issued_at_ns",
    "expires_at_ns", "key_id", "signature"]

def fromDict (data : List (String × Json)) : Outcome (Σ d, LeaseGrant d) := do
  strict data dictFields (dictFields.erase "parent_id") "lease grant"
  checkType data "lets.lease-grant/v1" "lease grant"
  let allocation ← vector (Json.get data "allocation")
  let capabilities ← strings "capabilities" (Json.get data "capabilities")
  let ancestorPath ← strings "ancestor_path" (Json.get data "ancestor_path")
  let tenantId ← requireIdentifier "tenant_id" (Json.get data "tenant_id")
  let envelopeId ← requireIdentifier "envelope_id" (Json.get data "envelope_id")
  let leaseId ← requireIdentifier "lease_id" (Json.get data "lease_id")
  let lineageId ← requireIdentifier "lineage_id" (Json.get data "lineage_id")
  let subjectId ← requireIdentifier "subject_id" (Json.get data "subject_id")
  let policyId ← requireIdentifier "policy_id" (Json.get data "policy_id")
  let policyVersion ← requireIdentifier "policy_version" (Json.get data "policy_version")
  let wardenId ← requireWardenId "warden_id" (Json.get data "warden_id")
  let keyId ← requireKeyId "key_id" (Json.get data "key_id")
  let parentId ← optional (requireIdentifier "parent_id") (Json.get data "parent_id")
  let policyDigest ← requireDigest "policy_digest" (Json.get data "policy_digest")
  let machineDigest ← requireDigest "machine_digest" (Json.get data "machine_digest")
  let configEpoch ← positive "config_epoch" false (Json.get data "config_epoch")
  let branchEpoch ← positive "branch_epoch" true (Json.get data "branch_epoch")
  let issuedAtNs ← positive "issued_at_ns" true (Json.get data "issued_at_ns")
  let expiresAtNs ← positive "expires_at_ns" false (Json.get data "expires_at_ns")
  require (issuedAtNs < expiresAtNs) (.validation "lease expiry must be later than issuance")
  require allocation.2.NonZero
    (.validation "lease allocation must contain a non-zero dimension")
  let _ ← capabilities.mapM fun s => requireIdentifier "capability" (.text s)
  let _ ← ancestorPath.mapM fun s => requireIdentifier "ancestor_path item" (.text s)
  require (ancestorPath.length ≤ maxLineageDepth)
    (.validation "lease ancestor_path exceeds the v1 limit of 64")
  require ancestorPath.Nodup (.validation "lease ancestor_path must not contain a cycle")
  require (leaseId ∉ ancestorPath)
    (.validation "lease ancestor_path must not contain the lease itself")
  require (parentId = none → ancestorPath = [])
    (.validation "root lease ancestor_path must be empty")
  require (∀ p ∈ parentId, ancestorPath.getLast? = some p)
    (.validation "child lease ancestor_path must end with parent_id")
  let signature ← signatureText (Json.get data "signature")
  pure ⟨allocation.1, {
    tenantId, envelopeId, configEpoch, leaseId, lineageId, parentId, subjectId, wardenId
    allocation := allocation.2
    capabilities := capabilities.toFinset
    policyId, policyVersion, policyDigest, machineDigest, ancestorPath, branchEpoch, issuedAtNs
    expiresAtNs, keyId, signature }⟩

end LeaseGrant

/-! ### Receipts -/

namespace Receipt

variable {d : ℕ}

def unsignedPayload (receipt : Receipt d) : List (String × Json) :=
  [("type", .text "lets.receipt/v1"), ("tenant_id", .text receipt.tenantId),
    ("envelope_id", .text receipt.envelopeId), ("config_epoch", .number receipt.configEpoch),
    ("receipt_id", .text receipt.receiptId), ("request_id", .text receipt.requestId),
    ("warden_id", .text receipt.wardenId), ("key_id", .text receipt.keyId),
    ("policy_id", .text receipt.policyId), ("policy_version", .text receipt.policyVersion),
    ("policy_digest", .text receipt.policyDigest),
    ("machine_digest", .text receipt.machineDigest), ("lease_id", .text receipt.leaseId),
    ("lineage_id", .text receipt.lineageId), ("subject_id", .text receipt.subjectId),
    ("executor_audience", .text receipt.executorAudience),
    ("transition", .text receipt.transition), ("source_state", .text receipt.sourceState),
    ("target_state", .text receipt.targetState), ("cost", receipt.cost.json),
    ("resulting_sequence", .number receipt.resultingSequence),
    ("evidence_digest", optionalText receipt.evidenceDigest), ("nonce", .text receipt.nonce),
    ("issued_at_ns", .number receipt.issuedAtNs), ("expires_at_ns", .number receipt.expiresAtNs)]

def toDict (receipt : Receipt d) : List (String × Json) :=
  receipt.unsignedPayload ++ [("signature", .text receipt.signature)]

def dictFields : List String :=
  ["type", "tenant_id", "envelope_id", "config_epoch", "receipt_id", "request_id", "warden_id",
    "key_id", "policy_id", "policy_version", "policy_digest", "machine_digest", "lease_id",
    "lineage_id", "subject_id", "executor_audience", "transition", "source_state", "target_state",
    "cost", "resulting_sequence", "evidence_digest", "nonce", "issued_at_ns", "expires_at_ns",
    "signature"]

def fromDict (data : List (String × Json)) : Outcome (Σ d, Receipt d) := do
  strict data dictFields dictFields "receipt"
  checkType data "lets.receipt/v1" "receipt"
  let cost ← vector (Json.get data "cost")
  let tenantId ← requireIdentifier "tenant_id" (Json.get data "tenant_id")
  let envelopeId ← requireIdentifier "envelope_id" (Json.get data "envelope_id")
  let receiptId ← requireIdentifier "receipt_id" (Json.get data "receipt_id")
  let requestId ← requireIdentifier "request_id" (Json.get data "request_id")
  let policyId ← requireIdentifier "policy_id" (Json.get data "policy_id")
  let policyVersion ← requireIdentifier "policy_version" (Json.get data "policy_version")
  let leaseId ← requireIdentifier "lease_id" (Json.get data "lease_id")
  let lineageId ← requireIdentifier "lineage_id" (Json.get data "lineage_id")
  let subjectId ← requireIdentifier "subject_id" (Json.get data "subject_id")
  let executorAudience ← requireIdentifier "executor_audience" (Json.get data "executor_audience")
  let transition ← requireIdentifier "transition" (Json.get data "transition")
  let sourceState ← requireIdentifier "source_state" (Json.get data "source_state")
  let targetState ← requireIdentifier "target_state" (Json.get data "target_state")
  let nonce ← requireIdentifier "nonce" (Json.get data "nonce")
  let wardenId ← requireWardenId "warden_id" (Json.get data "warden_id")
  let keyId ← requireKeyId "key_id" (Json.get data "key_id")
  let policyDigest ← requireDigest "policy_digest" (Json.get data "policy_digest")
  let machineDigest ← requireDigest "machine_digest" (Json.get data "machine_digest")
  let evidenceDigest ← optional (requireDigest "evidence_digest") (Json.get data "evidence_digest")
  let configEpoch ← positive "config_epoch" false (Json.get data "config_epoch")
  let resultingSequence ← positive "resulting_sequence" false (Json.get data "resulting_sequence")
  let issuedAtNs ← positive "issued_at_ns" true (Json.get data "issued_at_ns")
  let expiresAtNs ← positive "expires_at_ns" false (Json.get data "expires_at_ns")
  require (issuedAtNs < expiresAtNs) (.validation "receipt expiry must be later than issuance")
  let signature ← signatureText (Json.get data "signature")
  pure ⟨cost.1, {
    tenantId, envelopeId, configEpoch, receiptId, requestId, wardenId, keyId, policyId
    policyVersion, policyDigest, machineDigest, leaseId, lineageId, subjectId, executorAudience
    transition, sourceState, targetState
    cost := cost.2
    resultingSequence, evidenceDigest, nonce, issuedAtNs, expiresAtNs, signature }⟩

end Receipt

/-! ### Transfer vouchers -/

/-- A lease request as a voucher carries it: the capabilities are a sorted array. -/
structure LeaseRequestDict where
  childLeaseId : String
  lineageId : String
  parentId : String
  subjectId : String
  capabilities : List String
  ancestorPath : List String
  branchEpoch : ℕ
  expiresAtNs : ℕ
  deriving DecidableEq

namespace LeaseRequestDict

def members (request : LeaseRequestDict) : List (String × Json) :=
  [("child_lease_id", .text request.childLeaseId), ("lineage_id", .text request.lineageId),
    ("parent_id", .text request.parentId), ("subject_id", .text request.subjectId),
    ("capabilities", textArray request.capabilities),
    ("ancestor_path", textArray request.ancestorPath),
    ("branch_epoch", .number request.branchEpoch),
    ("expires_at_ns", .number request.expiresAtNs)]

def dictFields : List String :=
  ["child_lease_id", "lineage_id", "parent_id", "subject_id", "capabilities", "ancestor_path",
    "branch_epoch", "expires_at_ns"]

/-- `validate_lease_request`. -/
def validateDict : Json → Outcome LeaseRequestDict
  | .object data => do
    strict data dictFields dictFields "lease request"
    let childLeaseId ← requireIdentifier "lease_request.child_lease_id"
      (Json.get data "child_lease_id")
    let lineageId ← requireIdentifier "lease_request.lineage_id" (Json.get data "lineage_id")
    let parentId ← requireIdentifier "lease_request.parent_id" (Json.get data "parent_id")
    let subjectId ← requireIdentifier "lease_request.subject_id" (Json.get data "subject_id")
    let capabilities ← strings "lease_request.capabilities" (Json.get data "capabilities")
    let ancestorPath ← strings "lease_request.ancestor_path" (Json.get data "ancestor_path")
    require (ancestorPath.getLast? = some parentId)
      (.validation "lease_request.ancestor_path must end with parent_id")
    require ancestorPath.Nodup
      (.validation "lease_request.ancestor_path must not contain a cycle")
    require (childLeaseId ∉ ancestorPath)
      (.validation "lease_request.ancestor_path must not contain the child")
    require (ancestorPath.length ≤ maxLineageDepth)
      (.validation "lease_request.ancestor_path exceeds the v1 limit of 64")
    let branchEpoch ← positive "lease_request.branch_epoch" true (Json.get data "branch_epoch")
    let expiresAtNs ← positive "lease_request.expires_at_ns" false (Json.get data "expires_at_ns")
    pure {
      childLeaseId, lineageId, parentId, subjectId
      capabilities := capabilities.insertionSort (· ≤ ·)
      ancestorPath, branchEpoch, expiresAtNs }
  | _ => .error (.validation "lease_request must be an object")

end LeaseRequestDict

/-- A transfer voucher as the wire has it; it is of kind `lease` where it has a lease request. -/
structure VoucherDict (d : ℕ) where
  tenantId : String
  envelopeId : String
  configEpoch : ℕ
  transferId : String
  sourceWarden : String
  targetWarden : String
  policyId : String
  policyVersion : String
  policyDigest : String
  sequence : ℕ
  amount : ResourceVector d
  issuedAtNs : ℕ
  keyId : String
  signature : String
  leaseRequest : Option LeaseRequestDict
  deriving DecidableEq

namespace VoucherDict

variable {d : ℕ}

def leaseMembers : Option LeaseRequestDict → List (String × Json)
  | none => []
  | some request => [("kind", .text "lease"), ("lease_request", .object request.members)]

def unsignedPayload (voucher : VoucherDict d) : List (String × Json) :=
  [("type", .text "lets.transfer-voucher/v1"), ("tenant_id", .text voucher.tenantId),
    ("envelope_id", .text voucher.envelopeId), ("config_epoch", .number voucher.configEpoch),
    ("transfer_id", .text voucher.transferId), ("source_warden", .text voucher.sourceWarden),
    ("target_warden", .text voucher.targetWarden), ("policy_id", .text voucher.policyId),
    ("policy_version", .text voucher.policyVersion),
    ("policy_digest", .text voucher.policyDigest), ("sequence", .number voucher.sequence),
    ("amount", voucher.amount.json), ("issued_at_ns", .number voucher.issuedAtNs),
    ("key_id", .text voucher.keyId)] ++ leaseMembers voucher.leaseRequest

def toDict (voucher : VoucherDict d) : List (String × Json) :=
  voucher.unsignedPayload ++ [("signature", .text voucher.signature)]

def dictFields : List String :=
  ["type", "tenant_id", "envelope_id", "config_epoch", "transfer_id", "source_warden",
    "target_warden", "policy_id", "policy_version", "policy_digest", "sequence", "amount",
    "issued_at_ns", "key_id", "signature", "kind", "lease_request"]

def requestOfKind (kind request : Json) : Outcome (Option LeaseRequestDict) :=
  match kind with
  | .text "lease" => some <$> LeaseRequestDict.validateDict request
  | .text "pool" =>
    match request with
    | .null => pure none
    | _ => .error (.validation "pool transfers must not carry a lease request")
  | _ => .error (.validation "transfer kind must be 'pool' or 'lease'")

def fromDict (data : List (String × Json)) : Outcome (Σ d, VoucherDict d) := do
  strict data dictFields ((dictFields.erase "kind").erase "lease_request") "transfer voucher"
  checkType data "lets.transfer-voucher/v1" "transfer voucher"
  let amount ← vector (Json.get data "amount")
  let tenantId ← requireIdentifier "tenant_id" (Json.get data "tenant_id")
  let envelopeId ← requireIdentifier "envelope_id" (Json.get data "envelope_id")
  let transferId ← requireIdentifier "transfer_id" (Json.get data "transfer_id")
  let policyId ← requireIdentifier "policy_id" (Json.get data "policy_id")
  let policyVersion ← requireIdentifier "policy_version" (Json.get data "policy_version")
  let sourceWarden ← requireWardenId "source_warden" (Json.get data "source_warden")
  let targetWarden ← requireWardenId "target_warden" (Json.get data "target_warden")
  let keyId ← requireKeyId "key_id" (Json.get data "key_id")
  let policyDigest ← requireDigest "policy_digest" (Json.get data "policy_digest")
  require (sourceWarden ≠ targetWarden) (.validation "transfer source and target must differ")
  let configEpoch ← positive "config_epoch" false (Json.get data "config_epoch")
  let sequence ← positive "sequence" false (Json.get data "sequence")
  let issuedAtNs ← positive "issued_at_ns" true (Json.get data "issued_at_ns")
  require amount.2.NonZero (.validation "transfer amount must contain a non-zero dimension")
  let leaseRequest ← requestOfKind ((data.lookup "kind").getD (.text "pool"))
    (Json.get data "lease_request")
  let signature ← signatureText (Json.get data "signature")
  pure ⟨amount.1, {
    tenantId, envelopeId, configEpoch, transferId, sourceWarden, targetWarden, policyId
    policyVersion, policyDigest, sequence
    amount := amount.2
    issuedAtNs, keyId, signature, leaseRequest }⟩

end VoucherDict

/-! ### Acknowledgements and revocations -/

namespace TransferAck

def childMembers : Option (String × ChildOutcome) → List (String × Json)
  | none => []
  | some (childLeaseId, outcome) =>
    [("child_lease_id", .text childLeaseId), ("child_outcome", .text outcome.name)]

def unsignedPayload (ack : TransferAck) : List (String × Json) :=
  [("type", .text "lets.transfer-ack/v1"), ("tenant_id", .text ack.tenantId),
    ("envelope_id", .text ack.envelopeId), ("config_epoch", .number ack.configEpoch),
    ("transfer_id", .text ack.transferId), ("source_warden", .text ack.sourceWarden),
    ("target_warden", .text ack.targetWarden), ("sequence", .number ack.sequence),
    ("voucher_digest", .text ack.voucherDigest), ("accepted_at_ns", .number ack.acceptedAtNs),
    ("contiguous_watermark", .number ack.contiguousWatermark), ("key_id", .text ack.keyId)] ++
    childMembers ack.child

def toDict (ack : TransferAck) : List (String × Json) :=
  ack.unsignedPayload ++ [("signature", .text ack.signature)]

def dictFields : List String :=
  ["type", "tenant_id", "envelope_id", "config_epoch", "transfer_id", "source_warden",
    "target_warden", "sequence", "voucher_digest", "accepted_at_ns", "contiguous_watermark",
    "key_id", "signature", "child_lease_id", "child_outcome"]

def childOutcome : Json → Outcome ChildOutcome
  | .text "ISSUED" => pure .issued
  | .text "FENCED" => pure .fenced
  | _ => .error (.validation "child_outcome must be ISSUED or FENCED")

/-- The child of an acknowledgement, of which both members are set or neither. -/
def childOf (childLeaseId outcome : Json) : Outcome (Option (String × ChildOutcome)) :=
  match childLeaseId, outcome with
  | .null, .null => pure none
  | .null, _ | _, .null =>
    .error (.validation "child_lease_id and child_outcome must be set together")
  | childLeaseId, outcome => do
    let childLeaseId ← requireIdentifier "child_lease_id" childLeaseId
    let outcome ← childOutcome outcome
    pure (some (childLeaseId, outcome))

def fromDict (data : List (String × Json)) : Outcome TransferAck := do
  strict data dictFields ((dictFields.erase "child_lease_id").erase "child_outcome")
    "transfer acknowledgement"
  checkType data "lets.transfer-ack/v1" "transfer acknowledgement"
  let tenantId ← requireIdentifier "tenant_id" (Json.get data "tenant_id")
  let envelopeId ← requireIdentifier "envelope_id" (Json.get data "envelope_id")
  let transferId ← requireIdentifier "transfer_id" (Json.get data "transfer_id")
  let sourceWarden ← requireWardenId "source_warden" (Json.get data "source_warden")
  let targetWarden ← requireWardenId "target_warden" (Json.get data "target_warden")
  let keyId ← requireKeyId "key_id" (Json.get data "key_id")
  let voucherDigest ← requireDigest "voucher_digest" (Json.get data "voucher_digest")
  let configEpoch ← positive "config_epoch" false (Json.get data "config_epoch")
  let sequence ← positive "sequence" false (Json.get data "sequence")
  let contiguousWatermark ← positive "contiguous_watermark" true
    (Json.get data "contiguous_watermark")
  let acceptedAtNs ← positive "accepted_at_ns" true (Json.get data "accepted_at_ns")
  let child ← childOf (Json.get data "child_lease_id") (Json.get data "child_outcome")
  let signature ← signatureText (Json.get data "signature")
  pure {
    tenantId, envelopeId, configEpoch, transferId, sourceWarden, targetWarden, sequence
    voucherDigest, acceptedAtNs, contiguousWatermark, keyId, signature, child }

end TransferAck

namespace BranchRevocation

def unsignedPayload (revocation : BranchRevocation) : List (String × Json) :=
  [("type", .text "lets.branch-revocation/v1"), ("tenant_id", .text revocation.tenantId),
    ("envelope_id", .text revocation.envelopeId),
    ("config_epoch", .number revocation.configEpoch),
    ("branch_lease_id", .text revocation.branchLeaseId),
    ("lineage_id", .text revocation.lineageId), ("epoch", .number revocation.epoch),
    ("issuer_warden", .text revocation.issuerWarden),
    ("issued_at_ns", .number revocation.issuedAtNs), ("reason", .text revocation.reason),
    ("key_id", .text revocation.keyId)]

def toDict (revocation : BranchRevocation) : List (String × Json) :=
  revocation.unsignedPayload ++ [("signature", .text revocation.signature)]

def dictFields : List String :=
  ["type", "tenant_id", "envelope_id", "config_epoch", "branch_lease_id", "lineage_id", "epoch",
    "issuer_warden", "issued_at_ns", "reason", "key_id", "signature"]

/-- The reason; the length of what is not text cannot be taken. -/
def reasonText : Json → Outcome String
  | .text s => do
    require (0 < s.length ∧ s.length ≤ 1000)
      (.validation "revocation reason must contain 1..1000 characters")
    pure s
  | _ => .error (.storage "object has no length")

def fromDict (data : List (String × Json)) : Outcome BranchRevocation := do
  strict data dictFields dictFields "branch revocation"
  checkType data "lets.branch-revocation/v1" "branch revocation"
  let tenantId ← requireIdentifier "tenant_id" (Json.get data "tenant_id")
  let envelopeId ← requireIdentifier "envelope_id" (Json.get data "envelope_id")
  let branchLeaseId ← requireIdentifier "branch_lease_id" (Json.get data "branch_lease_id")
  let lineageId ← requireIdentifier "lineage_id" (Json.get data "lineage_id")
  let issuerWarden ← requireWardenId "issuer_warden" (Json.get data "issuer_warden")
  let keyId ← requireKeyId "key_id" (Json.get data "key_id")
  let configEpoch ← positive "config_epoch" false (Json.get data "config_epoch")
  let epoch ← positive "epoch" false (Json.get data "epoch")
  let issuedAtNs ← positive "issued_at_ns" true (Json.get data "issued_at_ns")
  let reason ← reasonText (Json.get data "reason")
  let signature ← signatureText (Json.get data "signature")
  pure {
    tenantId, envelopeId, configEpoch, branchLeaseId, lineageId, epoch, issuerWarden, issuedAtNs
    reason, keyId, signature }

end BranchRevocation

end Lets
