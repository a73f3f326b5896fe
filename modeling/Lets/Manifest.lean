import Lets.Base64Url
import Lets.PolicySpec

set_option autoImplicit false

/-!
# Cluster manifests

The signed document that says which wardens there are, with their keys, endpoints and shares, and
which policies hold.
-/

namespace Lets

open Library

def maxManifestWardens : ℕ := 1024

def maxManifestPolicies : ℕ := 256

def maxManifestSignatures : ℕ := 64

/-- What a manifest is checked with: the reader of timestamps, which names the field it complains
about, Ed25519 and the hash of digests. -/
structure ManifestTools where
  timestamp : String → String → Outcome Unit
  verify : Bytes → Bytes → Bytes → Bool
  sha : Bytes → String

/-- The text before the first `c`, whether there is one, and the text after it. -/
def partitionAt (c : Char) (text : List Char) : List Char × Bool × List Char :=
  match text.dropWhile (· ≠ c) with
  | [] => (text, false, [])
  | _ :: rest => (text.takeWhile (· ≠ c), true, rest)

/-- A full match of `[a-z][a-z0-9.-]+/[a-zA-Z0-9._-]+`. -/
def isExtensionName (name : String) : Bool :=
  let (space, slash, rest) := partitionAt '/' name.toList
  slash ∧ space.head?.any Char.isLower ∧ 2 ≤ space.length ∧
    (space.all fun c => c.isLower || c.isDigit || c ∈ ['.', '-']) ∧ rest ≠ [] ∧
    rest.all fun c => c.isAlphanum || c ∈ ['.', '_', '-']

def validateExtensions (extensions : List (String × Json)) (name : String) : Outcome Unit := do
  require (extensions.all fun m => isExtensionName m.1)
    (.validation (name ++ " extension names must use the reverse-DNS/name namespace form"))
  match canonicalJson (.object extensions) with
  | .ok _ => pure ()
  | .error _ => .error (.validation (name ++ " extensions must use LETS-CJ/1 values"))

/-- `add` of two vectors. -/
def addAmounts (left right : List Amount) : Outcome (List Amount) := do
  require (left.length = right.length) (.validation ("resource-vector dimension mismatch: " ++
    toString left.length ++ " != " ++ toString right.length))
  (left.zip right).mapM fun pair =>
    if h : pair.1.1 + pair.2.1 ≤ maxResource then pure ⟨pair.1.1 + pair.2.1, h⟩
    else .error (.validation "resource-vector addition overflow")

/-! ### Keys -/

structure ManifestPublicKey where
  keyId : String
  publicKey : Bytes
  notBefore : Option String
  notAfter : Option String
  deriving DecidableEq

namespace ManifestPublicKey

def optionalMember (name : String) : Option String → List (String × Json)
  | none => []
  | some value => [(name, .text value)]

def toDict (key : ManifestPublicKey) : Json :=
  .object ([("key_id", .text key.keyId), ("algorithm", .text "Ed25519"),
    ("public_key", .text (b64urlEncode key.publicKey))] ++
    optionalMember "not_before" key.notBefore ++ optionalMember "not_after" key.notAfter)

end ManifestPublicKey

/-! ### Wardens -/

structure WardenManifest where
  wardenId : String
  peerEndpoint : String
  clientEndpoint : String
  initialShare : List Amount
  keys : List ManifestPublicKey
  extensions : List (String × Json)

def extensionsMember (extensions : List (String × Json)) : List (String × Json) :=
  if extensions.isEmpty then [] else [("extensions", .object extensions)]

namespace WardenManifest

def toDict (warden : WardenManifest) : Json :=
  .object ([("warden_id", .text warden.wardenId), ("peer_endpoint", .text warden.peerEndpoint),
    ("client_endpoint", .text warden.clientEndpoint),
    ("initial_share", amountsJson warden.initialShare),
    ("keys", .array (warden.keys.map ManifestPublicKey.toDict))] ++
    extensionsMember warden.extensions)

end WardenManifest

/-! ### Signatures -/

structure ManifestSignature where
  keyId : String
  signature : Bytes
  deriving DecidableEq

/-! ### The manifest -/

structure ClusterManifest where
  tenantId : String
  envelopeId : String
  configEpoch : ℤ
  createdAt : String
  resources : List ResourceDimension
  initialBudget : List Amount
  wardens : List WardenManifest
  policies : List PolicySpec
  extensions : List (String × Json)
  signatures : List ManifestSignature

namespace ClusterManifest

def wardenKeys (m : ClusterManifest) : List ManifestPublicKey := m.wardens.flatMap WardenManifest.keys

def checkPolicy (m : ClusterManifest) (first policy : PolicySpec) : Outcome Unit := do
  require (policy.dimensions = m.resources)
    (.validation "policy resources do not match manifest resources")
  require (policy.receiptTtlNs = first.receiptTtlNs)
    (.validation "all manifest policies must agree on immutable receipt_ttl_ns")
  require (policy.maxClockUncertaintyNs = first.maxClockUncertaintyNs)
    (.validation "all manifest policies must agree on immutable max_clock_uncertainty_ns")
  require (policy.transferGapWindow = first.transferGapWindow)
    (.validation "all manifest policies must agree on immutable transfer_gap_window")

def allocated (m : ClusterManifest) : Outcome (List Amount) :=
  m.wardens.foldlM (fun sum warden => do
    requireDimensions m.resources.length warden.initialShare
    addAmounts sum warden.initialShare) (List.replicate m.resources.length ⟨0, Nat.zero_le _⟩)

def make (M : ManifestTools) (m : ClusterManifest) : Outcome ClusterManifest := do
  let _ ← requireIdentifier "manifest tenant_id" (.text m.tenantId)
  let _ ← requireIdentifier "manifest envelope_id" (.text m.envelopeId)
  validateExtensions m.extensions "manifest"
  require (0 < m.configEpoch ∧ m.configEpoch ≤ maxResource)
    (.validation "manifest config_epoch must be a positive integer")
  M.timestamp "manifest created_at" m.createdAt
  require (m.resources ≠ [] ∧ m.resources.length ≤ 256)
    (.validation "manifest requires 1..256 resource dimensions")
  require (m.resources.map ResourceDimension.id).Nodup
    (.validation "manifest resource dimension ids must be unique")
  requireDimensions m.resources.length m.initialBudget
  require (m.wardens ≠ [] ∧ m.wardens.length ≤ maxManifestWardens)
    (.validation "manifest requires 1..1024 wardens")
  require (m.wardens.map WardenManifest.wardenId).Nodup
    (.validation "manifest warden ids must be unique")
  require (m.wardens.map WardenManifest.peerEndpoint).Nodup
    (.validation "manifest peer endpoint origins must be unique across wardens")
  require (m.wardenKeys.map ManifestPublicKey.keyId).Nodup
    (.validation "manifest key ids must be globally unique")
  require (m.wardenKeys.map ManifestPublicKey.publicKey).Nodup
    (.validation "manifest Ed25519 public-key material must be globally unique across wardens")
  let allocated ← m.allocated
  require (allocated = m.initialBudget)
    (.validation "the component-wise sum of warden shares must equal initial_budget")
  require (m.policies.length ≤ maxManifestPolicies)
    (.validation "manifest requires 1..256 policies")
  match m.policies with
  | [] => .error (.validation "manifest requires 1..256 policies")
  | first :: rest => do
    require ((first :: rest).map PolicySpec.policyVersion).Nodup
      (.validation "manifest policy versions must be unique")
    (first :: rest).forM (m.checkPolicy first)
  require (m.signatures.length ≤ maxManifestSignatures)
    (.validation "manifest signatures exceed the v1 limit of 64")
  require (m.signatures.map ManifestSignature.keyId).Nodup
    (.validation "manifest contains duplicate signer key ids")
  pure m

def unsignedDict (M : ManifestTools) (m : ClusterManifest) : Outcome Json := do
  let policies ← m.policies.mapM (PolicySpec.toDict M.sha)
  pure (.object ([("api_version", .text "lets.manifest/v1"), ("tenant_id", .text m.tenantId),
    ("envelope_id", .text m.envelopeId), ("config_epoch", .number m.configEpoch),
    ("created_at", .text m.createdAt),
    ("resources", .array (m.resources.map ResourceDimension.toDict)),
    ("initial_budget", amountsJson m.initialBudget),
    ("wardens", .array (m.wardens.map WardenManifest.toDict)), ("policies", .array policies)] ++
    extensionsMember m.extensions))

def payload (M : ManifestTools) (m : ClusterManifest) : Outcome Bytes := do
  let unsigned ← m.unsignedDict M
  canonicalJson unsigned

end ClusterManifest

/-! ### Signatures of operators -/

structure OperatorKeys where
  entries : List (String × Bytes)
  nodup : (entries.map Prod.fst).Nodup

namespace ClusterManifest

def checkOperatorKey (owners : List (Bytes × String)) (entry : String × Bytes) :
    Outcome (List (Bytes × String)) := do
  let _ ← requireIdentifier "trusted operator key_id" (.text entry.1)
  require (entry.2.length = 32)
    (.validation ("trusted operator key " ++ quoted entry.1 ++ " is malformed"))
  require (∀ owner ∈ owners.lookup entry.2, owner = entry.1)
    (.validation "trusted operator key aliases must not reuse Ed25519 public-key material")
  pure ((entry.2, entry.1) :: owners)

def acceptSignature (M : ManifestTools) (payload : Bytes) (keys : OperatorKeys)
    (accepted : Finset String × Finset Bytes) (signed : ManifestSignature) :
    Finset String × Finset Bytes :=
  match keys.entries.lookup signed.keyId with
  | none => accepted
  | some key =>
    if M.verify key payload signed.signature then
      (insert signed.keyId accepted.1, insert key accepted.2)
    else accepted

def verifySignatures (M : ManifestTools) (m : ClusterManifest) (keys : OperatorKeys)
    (threshold : ℤ) : Outcome (Finset String) := do
  require (0 < threshold) (.validation "manifest signature threshold must be positive")
  let owners ← keys.entries.foldlM checkOperatorKey []
  require (∀ key ∈ m.wardenKeys, key.publicKey ∉ owners.map Prod.fst)
    (.validation "operator and online warden roles must use disjoint Ed25519 public-key material")
  let payload ← m.payload M
  let accepted := m.signatures.foldl (acceptSignature M payload keys) (∅, ∅)
  require (threshold ≤ accepted.2.card)
    (.signature ("manifest has " ++ toString accepted.2.card ++ " distinct trusted signatures; " ++
      toString threshold ++ " required"))
  pure accepted.1

end ClusterManifest

/-- A signature of this toy scheme begins with the key it is of. -/
def Sample.manifestTools : ManifestTools where
  timestamp _ _ := pure ()
  verify key _ signature := signature.take 32 = key
  sha _ := ""

end Lets
