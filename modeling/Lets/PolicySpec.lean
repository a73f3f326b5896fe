import Lets.Administration
import Lets.Dictionaries
import Lets.EvidenceRules

set_option autoImplicit false

/-!
# Policies and machines

The immutable definitions a policy is made of, their dictionaries and their digests.
-/

namespace Lets

open Library

def requireDimensions (dimensions : ℕ) (amounts : List Amount) : Outcome Unit :=
  require (amounts.length = dimensions) (.validation ("resource-vector dimension mismatch: expected " ++
    toString dimensions ++ ", got " ++ toString amounts.length))

def amountsJson (amounts : List Amount) : Json := .array (amounts.map fun n => .number n.1)

/-! ### Dimensions -/

structure ResourceDimension where
  id : String
  unit : String
  description : String
  deriving DecidableEq

namespace ResourceDimension

def members (r : ResourceDimension) : List (String × Json) :=
  [("id", .text r.id), ("unit", .text r.unit)] ++
    if r.description = "" then [] else [("description", .text r.description)]

def toDict (r : ResourceDimension) : Json := .object r.members

end ResourceDimension

/-! ### Transitions -/

structure TransitionSpec where
  name : String
  source : String
  target : String
  cost : List Amount
  capability : String
  evidence : Option EvidenceRule

namespace TransitionSpec

def evidenceMembers : Option EvidenceRule → List (String × Json)
  | none => []
  | some rule => [("evidence", EvidenceRule.toDict rule)]

def members (t : TransitionSpec) : List (String × Json) :=
  [("name", .text t.name), ("source", .text t.source), ("target", .text t.target),
    ("cost", amountsJson t.cost), ("capability", .text t.capability)] ++ evidenceMembers t.evidence

def toDict (t : TransitionSpec) : Json := .object t.members

end TransitionSpec

/-! ### Machines -/

structure MachineSpec where
  machineId : String
  initialState : String
  transitions : List TransitionSpec

namespace MachineSpec

/-- `_semantic_dict`. -/
def semanticMembers (m : MachineSpec) : List (String × Json) :=
  [("machine_id", .text m.machineId), ("initial_state", .text m.initialState),
    ("transitions", .array (m.transitions.map TransitionSpec.toDict))]

def digest (sha : Bytes → String) (m : MachineSpec) : Outcome String :=
  canonicalDigest sha (.object m.semanticMembers)

def toDict (sha : Bytes → String) (m : MachineSpec) : Outcome Json := do
  let digest ← m.digest sha
  pure (.object (m.semanticMembers ++ [("machine_digest", .text digest)]))

end MachineSpec

/-! ### Policies -/

structure PolicySpec where
  policyId : String
  policyVersion : String
  dimensions : List ResourceDimension
  machine : MachineSpec
  maxLeaseTtlNs : ℕ
  receiptTtlNs : ℕ
  maxClockUncertaintyNs : ℕ
  transferGapWindow : ℕ

namespace PolicySpec

/-- The members the digest covers, given the dictionary of the machine and its digest. -/
def semanticMembers (p : PolicySpec) (machine : Json) (machineDigest : String) :
    List (String × Json) :=
  [("policy_id", .text p.policyId), ("policy_version", .text p.policyVersion),
    ("resources", .array (p.dimensions.map ResourceDimension.toDict)), ("machine", machine),
    ("machine_digest", .text machineDigest), ("max_lease_ttl_ns", .number p.maxLeaseTtlNs),
    ("receipt_ttl_ns", .number p.receiptTtlNs),
    ("max_clock_uncertainty_ns", .number p.maxClockUncertaintyNs),
    ("transfer_gap_window", .number p.transferGapWindow)]

def semanticDict (sha : Bytes → String) (p : PolicySpec) : Outcome (List (String × Json)) := do
  let machine ← p.machine.toDict sha
  let machineDigest ← p.machine.digest sha
  pure (p.semanticMembers machine machineDigest)

def digest (sha : Bytes → String) (p : PolicySpec) : Outcome String := do
  let members ← p.semanticDict sha
  canonicalDigest sha (.object members)

def toDict (sha : Bytes → String) (p : PolicySpec) : Outcome Json := do
  let members ← p.semanticDict sha
  let digest ← p.digest sha
  pure (.object (members ++ [("policy_digest", .text digest)]))

end PolicySpec

end Lets
