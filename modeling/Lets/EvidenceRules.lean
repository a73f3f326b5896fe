import Lets.Library.BooleanTrees
import Lets.SignedMessages
import Lets.StrictJson

set_option autoImplicit false

/-!
# Evidence rules

A rule is a tree of `all`, `any` and `not` over comparisons of paths with literals.
-/

namespace Lets

open Library

def maxEvidenceDepth : ℕ := 32

def maxEvidenceNodes : ℕ := 256

def maxEvidenceValues : ℕ := 256

inductive ComparisonOp
  | eq | ne | lt | lte | gt | gte
  deriving DecidableEq, Repr

namespace ComparisonOp

def name : ComparisonOp → String
  | eq => "eq"
  | ne => "ne"
  | lt => "lt"
  | lte => "lte"
  | gt => "gt"
  | gte => "gte"

def ofName (s : String) : Option ComparisonOp :=
  [eq, ne, lt, lte, gt, gte].find? fun op => op.name = s

theorem name_of_ofName {s : String} {op : ComparisonOp} (h : ofName s = some op) : op.name = s := by
  have hfound := List.find?_some h
  exact of_decide_eq_true hfound

end ComparisonOp

/-- The rules without rules in them; `within` is the operation `in`. -/
inductive EvidenceLeaf
  | present (path : String)
  | compare (op : ComparisonOp) (path : String) (value : Json)
  | within (path : String) (values : List Json)
  | fresh (observedAtPath : String) (maxAgeNs : ℕ)

abbrev EvidenceRule := BooleanTree EvidenceLeaf

/-! ### Construction -/

/-- The arguments of the constructor; `None` is `null`, a value that is not given is none at all. -/
structure RuleFields where
  op : String
  path : Json
  value : Option Json
  values : List Json
  rules : List EvidenceRule
  rule : Option EvidenceRule
  observedAtPath : Json
  maxAgeNs : Json

def Json.isNull : Json → Bool
  | .null => true
  | _ => false

def splitPath (path : String) : List String :=
  (path.toList.splitOn '.').map String.ofList

def requirePathPart (field part : String) : Outcome Unit := do
  require (part ≠ "") (.validation (field ++ " must be a non-empty string"))
  require (part.length ≤ 128) (.validation (field ++ " exceeds 128 characters"))
  require (stripped part = true)
    (.validation (field ++ " must not contain surrounding whitespace"))
  require (part.toList.all (fun c => !isControl c) = true)
    (.validation (field ++ " must not contain control characters"))

def validatePath (field : String) : Json → Outcome String
  | .text path => do
    require (path ≠ "") (.validation (field ++ " must be a non-empty dotted path"))
    (splitPath path).forM (requirePathPart field)
    pure path
  | _ => .error (.validation (field ++ " must be a non-empty dotted path"))

def validateLiteral (value : Json) : Outcome Unit :=
  match canonicalJson value with
  | .ok _ => pure ()
  | .error _ => .error (.validation "evidence literal is outside the LETS-CJ/1 subset")

def freshAge : Json → Outcome ℕ
  | .number n => do
    require (0 ≤ n ∧ n ≤ maxResource)
      (.validation "evidence fresh requires signed-int64 non-negative max_age_ns")
    pure n.toNat
  | _ => .error (.validation "evidence fresh requires signed-int64 non-negative max_age_ns")

/-- `_validate_shape`: the rules still to be visited, the next one first, each with its depth, and
how many more nodes there may be. -/
def validateShape : ℕ → List (EvidenceRule × ℕ) → Outcome Unit
  | _, [] => pure ()
  | 0, (_, depth) :: _ => do
    require (depth ≤ maxEvidenceDepth) (.validation "evidence depth exceeds the v1 limit of 32")
    .error (.validation "evidence node count exceeds the v1 limit of 256")
  | left + 1, (current, depth) :: stack => do
    require (depth ≤ maxEvidenceDepth) (.validation "evidence depth exceeds the v1 limit of 32")
    validateShape left (current.branches.reverse.map (fun item => (item, depth + 1)) ++ stack)

namespace RuleFields

def given (f : RuleFields) : List (String × Bool) :=
  [("path", !f.path.isNull), ("value", f.value.isSome), ("values", !f.values.isEmpty),
    ("rules", !f.rules.isEmpty), ("rule", f.rule.isSome),
    ("observed_at_path", !f.observedAtPath.isNull), ("max_age_ns", !f.maxAgeNs.isNull)]

def rejectExtras (f : RuleFields) (allowed : List String) : Outcome Unit := do
  let extras := (f.given.filter fun field => field.2 && field.1 ∉ allowed).map Prod.fst
  require (extras.isEmpty = true) (.validation ("evidence " ++ f.op ++
    " has incompatible fields: " ++ shownNames (sortedTexts extras.toFinset)))

def shape (f : RuleFields) : Outcome EvidenceRule :=
  if f.op = "all" ∨ f.op = "any" then do
    require (f.rules.isEmpty = false)
      (.validation ("evidence " ++ f.op ++ " requires at least one rule"))
    f.rejectExtras ["rules"]
    pure (if f.op = "all" then .all f.rules else .any f.rules)
  else if f.op = "not" then do
    let rule ← orError f.rule (.validation "evidence not requires one rule")
    f.rejectExtras ["rule"]
    pure (.not rule)
  else if f.op = "exists" then do
    let path ← validatePath "evidence path" f.path
    require (f.value.isNone = true) (.validation "evidence exists does not accept value")
    f.rejectExtras ["path"]
    pure (.leaf (.present path))
  else if f.op = "in" then do
    let path ← validatePath "evidence path" f.path
    require (f.values.isEmpty = false)
      (.validation "evidence in requires a non-empty values array")
    f.rejectExtras ["path", "values"]
    pure (.leaf (.within path f.values))
  else if f.op = "fresh" then do
    let path ← validatePath "observed_at_path" f.observedAtPath
    let maxAgeNs ← freshAge f.maxAgeNs
    f.rejectExtras ["observed_at_path", "max_age_ns"]
    pure (.leaf (.fresh path maxAgeNs))
  else
    match ComparisonOp.ofName f.op with
    | some op => do
      let path ← validatePath "evidence path" f.path
      let value ← orError f.value (.validation ("evidence " ++ f.op ++ " requires value"))
      f.rejectExtras ["path", "value"]
      pure (.leaf (.compare op path value))
    | none => .error (.validation ("unknown evidence operation " ++ quoted f.op))

/-- `EvidenceRule.__post_init__`. -/
def make (f : RuleFields) : Outcome EvidenceRule := do
  let rule ← f.shape
  f.value.toList.forM validateLiteral
  require (f.values.length ≤ maxEvidenceValues)
    (.validation "evidence values exceeds the v1 limit of 256")
  f.values.forM validateLiteral
  validateShape maxEvidenceNodes [(rule, 1)]
  pure rule

end RuleFields

inductive EvidenceRule.Constructible : EvidenceRule → Prop
  | make {f : RuleFields} {rule : EvidenceRule} (rules : ∀ r ∈ f.rules, Constructible r)
      (nested : ∀ r ∈ f.rule, Constructible r) (made : f.make = .ok rule) : Constructible rule

/-! ### Dictionaries -/

namespace EvidenceLeaf

def literals : EvidenceLeaf → List Json
  | .compare _ _ value => [value]
  | .within _ values => values
  | _ => []

def toDict : EvidenceLeaf → Json
  | .present path => .object [("op", .text "exists"), ("path", .text path)]
  | .compare op path value =>
    .object [("op", .text op.name), ("path", .text path), ("value", value)]
  | .within path values =>
    .object [("op", .text "in"), ("path", .text path), ("values", .array values)]
  | .fresh observedAtPath maxAgeNs =>
    .object [("op", .text "fresh"), ("observed_at_path", .text observedAtPath),
      ("max_age_ns", .number maxAgeNs)]

end EvidenceLeaf

def membersOf (data : Json) (message : String) : Outcome (List (String × Json)) :=
  match data with
  | .object members => pure members
  | _ => .error (.validation message)

def textOf (data : Json) (message : String) : Outcome String :=
  match data with
  | .text s => pure s
  | _ => .error (.validation message)

namespace EvidenceRule

def dictWith (leaf : EvidenceLeaf → Json) : EvidenceRule → Json :=
  BooleanTree.fold leaf
    (fun rules => .object [("op", .text "all"), ("rules", .array rules)])
    (fun rules => .object [("op", .text "any"), ("rules", .array rules)])
    (fun rule => .object [("op", .text "not"), ("rule", rule)])

def toDict : EvidenceRule → Json := dictWith EvidenceLeaf.toDict

def dictFields : List String :=
  ["op", "path", "value", "values", "rules", "rule", "observed_at_path", "max_age_ns"]

def arrayMember (members : List (String × Json)) (key message : String) : Outcome (List Json) :=
  match members.lookup key with
  | none => pure []
  | some (.array items) => pure items
  | some _ => .error (.validation message)

def readRules (read : Json → ℕ → Outcome (EvidenceRule × ℕ)) :
    List Json → ℕ → Outcome (List EvidenceRule × ℕ)
  | [], counter => pure ([], counter)
  | item :: rest, counter => do
    let (rule, counter) ← read item counter
    let (rules, counter) ← readRules read rest counter
    pure (rule :: rules, counter)

def readNested (read : Json → ℕ → Outcome (EvidenceRule × ℕ)) (raw : Json) (counter : ℕ) :
    Outcome (Option EvidenceRule × ℕ) :=
  if raw.isNull then pure (none, counter)
  else do
    let (rule, counter) ← read raw counter
    pure (some rule, counter)

def givenFields (members : List (String × Json)) (op : String) (values : List Json)
    (rules : List EvidenceRule) (rule : Option EvidenceRule) : RuleFields where
  op := op
  path := Json.get members "path"
  value := members.lookup "value"
  values := values
  rules := rules
  rule := rule
  observedAtPath := Json.get members "observed_at_path"
  maxAgeNs := Json.get members "max_age_ns"

/-- `_from_dict`, with the number of levels there may be from here on. -/
def readDict : ℕ → Json → ℕ → Outcome (EvidenceRule × ℕ)
  | 0, _, _ => .error (.validation "evidence depth exceeds the v1 limit of 32")
  | levels + 1, data, counter => do
    require (counter + 1 ≤ maxEvidenceNodes)
      (.validation "evidence node count exceeds the v1 limit of 256")
    let members ← membersOf data "evidence rule must be an object"
    let unknown := (members.map Prod.fst).filter fun key => key ∉ dictFields
    require (unknown.isEmpty = true)
      (.validation ("unknown evidence fields: " ++ shownNames (sortedTexts unknown.toFinset)))
    let op ← textOf (Json.get members "op") "evidence op must be a string"
    let rawRules ← arrayMember members "rules" "evidence rules must be an array"
    let (rules, counter) ← readRules (readDict levels) rawRules (counter + 1)
    let (rule, counter) ← readNested (readDict levels) (Json.get members "rule") counter
    let values ← arrayMember members "values" "evidence values must be an array"
    let made ← (givenFields members op values rules rule).make
    pure (made, counter)

def fromDict (data : Json) : Outcome EvidenceRule := do
  let (rule, _) ← readDict maxEvidenceDepth data 0
  pure rule

/-! ### What is constructed -/

theorem validateShape_ok_iff {left : ℕ} {stack : List (EvidenceRule × ℕ)} :
    validateShape left stack = .ok () ↔
      (stack.map fun e => e.1.nodes).sum ≤ left ∧
        ∀ e ∈ stack, e.1.depth + e.2 ≤ maxEvidenceDepth + 1 := by
  induction left generalizing stack with
  | zero =>
    cases stack with
    | nil => simp [validateShape]
    | cons e stack =>
      have hnodes := e.1.nodes_eq
      simp only [validateShape, bind_ok_iff, List.map_cons, List.sum_cons]
      constructor
      · rintro ⟨_, _, h⟩
        cases h
      · intro h
        omega
  | succ left ih =>
    cases stack with
    | nil => simp [validateShape]
    | cons e stack =>
      obtain ⟨current, depth⟩ := e
      have hdepth : depth ≤ maxEvidenceDepth → (current.depth + depth ≤ maxEvidenceDepth + 1 ↔
          ∀ b ∈ current.branches, b.depth + (depth + 1) ≤ maxEvidenceDepth + 1) := by
        intro hle
        have hiff := current.depth_le_iff (n := maxEvidenceDepth - depth)
        constructor
        · intro h b hb
          have := hiff.mp (by omega) b hb
          omega
        · intro h
          have := hiff.mpr fun b hb => by have := h b hb; omega
          omega
      have hpos := current.depth_pos
      have hnodes := current.nodes_eq
      have hsum : ((current.branches.reverse.map fun item => (item, depth + 1)).map
          fun e => e.1.nodes).sum = (current.branches.map BooleanTree.nodes).sum := by
        rw [List.map_map, List.map_reverse, List.sum_reverse]
        rfl
      simp only [validateShape, bind_ok_iff, require_ok_iff, exists_unit_iff, ih, List.map_append,
        List.sum_append, hsum, List.forall_mem_append, List.forall_mem_map, List.mem_reverse,
        List.map_cons, List.sum_cons, List.forall_mem_cons]
      constructor
      · rintro ⟨hle, hsum, hbranches, hrest⟩
        exact ⟨by omega, (hdepth hle).mpr hbranches, hrest⟩
      · rintro ⟨hsum, hcurrent, hrest⟩
        exact ⟨by omega, by omega, (hdepth (by omega)).mp hcurrent, hrest⟩

end EvidenceRule

def RuleFields.blank (op : String) : RuleFields where
  op := op
  path := .null
  value := none
  values := []
  rules := []
  rule := none
  observedAtPath := .null
  maxAgeNs := .null

def EvidenceRule.fields : EvidenceRule → RuleFields
  | .all rules => { RuleFields.blank "all" with rules }
  | .any rules => { RuleFields.blank "any" with rules }
  | .not rule => { RuleFields.blank "not" with rule := some rule }
  | .leaf (.present path) => { RuleFields.blank "exists" with path := .text path }
  | .leaf (.compare op path value) =>
    { RuleFields.blank op.name with path := .text path, value := some value }
  | .leaf (.within path values) => { RuleFields.blank "in" with path := .text path, values }
  | .leaf (.fresh path maxAgeNs) =>
    { RuleFields.blank "fresh" with observedAtPath := .text path, maxAgeNs := .number maxAgeNs }

theorem Json.isNull_iff {a : Json} : a.isNull = true ↔ a = .null := by
  cases a <;> simp [Json.isNull]

theorem validateLiteral_ok_iff {value : Json} :
    validateLiteral value = .ok () ↔ value.fits = true := by
  unfold validateLiteral
  by_cases h : value.fits = true
  · rw [canonicalJson_ok_iff.mpr ⟨h, rfl⟩]
    exact ⟨fun _ => h, fun _ => rfl⟩
  · cases hbytes : canonicalJson value with
    | ok bytes => exact absurd (canonicalJson_ok_iff.mp hbytes).1 h
    | error e => exact ⟨(by simp), fun hfits => absurd hfits h⟩

theorem validatePath_ok {field : String} {json : Json} {path : String}
    (h : validatePath field json = .ok path) : json = .text path := by
  cases json with
  | text s =>
    simp only [validatePath, bind_ok_iff, pure_ok_iff] at h
    obtain ⟨_, _, _, _, rfl⟩ := h
    rfl
  | _ => cases h

theorem freshAge_ok {json : Json} {n : ℕ} (h : freshAge json = .ok n) :
    json = .number n ∧ n ≤ maxResource := by
  cases json with
  | number m =>
    simp only [freshAge, bind_ok_iff, require_ok_iff, exists_unit_iff, pure_ok_iff] at h
    obtain ⟨⟨hpos, hle⟩, rfl⟩ := h
    exact ⟨congrArg Json.number (Int.toNat_of_nonneg hpos).symm, by omega⟩
  | _ => cases h

namespace RuleFields

variable {f : RuleFields}

theorem rejectExtras_ok {allowed : List String} (h : f.rejectExtras allowed = .ok ()) :
    ∀ field ∈ f.given, field.2 = true → field.1 ∈ allowed := by
  simp only [rejectExtras, require_ok_iff, List.isEmpty_iff, List.map_eq_nil_iff,
    List.filter_eq_nil_iff] at h
  intro field hfield hgiven
  have := h field hfield
  simpa [hgiven] using this

theorem eq_fields_of_shape {rule : EvidenceRule} (h : f.shape = .ok rule) : f = rule.fields := by
  obtain ⟨op, path, value, values, rules, nested, observedAtPath, maxAgeNs⟩ := f
  unfold shape at h
  dsimp only at h
  by_cases hbool : op = "all" ∨ op = "any"
  · rw [if_pos hbool] at h
    simp only [bind_ok_iff, require_ok_iff, exists_unit_iff, pure_ok_iff] at h
    obtain ⟨-, hextras, hrule⟩ := h
    have hgiven := rejectExtras_ok hextras
    simp [given, Json.isNull_iff] at hgiven
    obtain ⟨rfl, rfl, rfl, rfl, rfl, rfl⟩ := hgiven
    rcases hbool with rfl | rfl
    · rw [← hrule]
      rfl
    · rw [← hrule]
      rfl
  rw [if_neg hbool] at h
  by_cases hnot : op = "not"
  · rw [if_pos hnot] at h
    simp only [bind_ok_iff, orError_ok_iff, exists_unit_iff, pure_ok_iff] at h
    obtain ⟨rule, rfl, hextras, rfl⟩ := h
    have hgiven := rejectExtras_ok hextras
    simp [given, Json.isNull_iff] at hgiven
    obtain ⟨rfl, rfl, rfl, rfl, rfl, rfl⟩ := hgiven
    rw [hnot]
    rfl
  rw [if_neg hnot] at h
  by_cases hexists : op = "exists"
  · rw [if_pos hexists] at h
    simp only [bind_ok_iff, require_ok_iff, exists_unit_iff, pure_ok_iff] at h
    obtain ⟨path, hpath, -, hextras, rfl⟩ := h
    have hgiven := rejectExtras_ok hextras
    simp [given, Json.isNull_iff] at hgiven
    obtain ⟨rfl, rfl, rfl, rfl, rfl, rfl⟩ := hgiven
    rw [hexists, validatePath_ok hpath]
    rfl
  rw [if_neg hexists] at h
  by_cases hin : op = "in"
  · rw [if_pos hin] at h
    simp only [bind_ok_iff, require_ok_iff, exists_unit_iff, pure_ok_iff] at h
    obtain ⟨path, hpath, -, hextras, rfl⟩ := h
    have hgiven := rejectExtras_ok hextras
    simp [given, Json.isNull_iff] at hgiven
    obtain ⟨rfl, rfl, rfl, rfl, rfl⟩ := hgiven
    rw [hin, validatePath_ok hpath]
    rfl
  rw [if_neg hin] at h
  by_cases hfresh : op = "fresh"
  · rw [if_pos hfresh] at h
    simp only [bind_ok_iff, exists_unit_iff, pure_ok_iff] at h
    obtain ⟨path, hpath, maxAge, hage, hextras, rfl⟩ := h
    have hgiven := rejectExtras_ok hextras
    simp [given, Json.isNull_iff] at hgiven
    obtain ⟨rfl, rfl, rfl, rfl, rfl⟩ := hgiven
    rw [hfresh, validatePath_ok hpath, (freshAge_ok hage).1]
    rfl
  rw [if_neg hfresh] at h
  cases hop : ComparisonOp.ofName op with
  | none =>
    rw [hop] at h
    cases h
  | some comparison =>
    rw [hop] at h
    simp only [bind_ok_iff, orError_ok_iff, exists_unit_iff, pure_ok_iff] at h
    obtain ⟨path, hpath, value, rfl, hextras, rfl⟩ := h
    have hgiven := rejectExtras_ok hextras
    simp [given, Json.isNull_iff] at hgiven
    obtain ⟨rfl, rfl, rfl, rfl, rfl⟩ := hgiven
    rw [← ComparisonOp.name_of_ofName hop, validatePath_ok hpath]
    rfl

theorem make_ok_iff {rule : EvidenceRule} :
    f.make = .ok rule ↔ f.shape = .ok rule ∧ (∀ v ∈ f.value, v.fits = true) ∧
      f.values.length ≤ maxEvidenceValues ∧ (∀ v ∈ f.values, v.fits = true) ∧
      rule.nodes ≤ maxEvidenceNodes ∧ rule.depth ≤ maxEvidenceDepth := by
  have hshape : ∀ rule : EvidenceRule, validateShape maxEvidenceNodes [(rule, 1)] = .ok () ↔
      rule.nodes ≤ maxEvidenceNodes ∧ rule.depth ≤ maxEvidenceDepth := by
    intro rule
    rw [EvidenceRule.validateShape_ok_iff]
    simp
  simp only [make, bind_ok_iff, exists_unit_iff, require_ok_iff, forM_ok_iff,
    validateLiteral_ok_iff, pure_ok_iff, Option.mem_toList, hshape]
  constructor
  · rintro ⟨rule, h1, h2, h3, h4, h5, rfl⟩
    exact ⟨h1, h2, h3, h4, h5⟩
  · rintro ⟨h1, h2, h3, h4, h5⟩
    exact ⟨rule, h1, h2, h3, h4, h5, rfl⟩

end RuleFields

namespace EvidenceRule

variable {rule : EvidenceRule}

theorem Constructible.made (h : Constructible rule) :
    rule.fields.make = .ok rule ∧ ∀ b ∈ rule.branches, Constructible b := by
  cases h with
  | @make f _ rules nested made =>
    obtain rfl := RuleFields.eq_fields_of_shape (RuleFields.make_ok_iff.mp made).1
    refine ⟨made, fun b hb => ?_⟩
    cases rule with
    | leaf a => cases hb
    | all branches => exact rules b hb
    | any branches => exact rules b hb
    | not branch =>
      obtain rfl := List.mem_singleton.mp hb
      exact nested b rfl

variable {counter' : ℕ}

theorem readDict_ok_iff {levels counter : ℕ} {data : Json} :
    readDict (levels + 1) data counter = .ok (rule, counter') ↔
      counter + 1 ≤ maxEvidenceNodes ∧ ∃ members, data = .object members ∧
        (∀ key ∈ members.map Prod.fst, key ∈ dictFields) ∧
        ∃ op, Json.get members "op" = .text op ∧
        ∃ rawRules, arrayMember members "rules" "evidence rules must be an array" = .ok rawRules ∧
        ∃ rules count, readRules (readDict levels) rawRules (counter + 1) = .ok (rules, count) ∧
        ∃ nested, readNested (readDict levels) (Json.get members "rule") count =
          .ok (nested, counter') ∧
        ∃ values, arrayMember members "values" "evidence values must be an array" = .ok values ∧
          (givenFields members op values rules nested).make = .ok rule := by
  have hmembers : ∀ message members, membersOf data message = .ok members ↔
      data = .object members := by
    intro message members
    cases data <;> simp [membersOf, pure_ok_iff]
  have htext : ∀ data message op, textOf data message = .ok op ↔ data = .text op := by
    intro data message op
    cases data <;> simp [textOf, pure_ok_iff]
  simp only [readDict, bind_ok_iff, require_ok_iff, exists_unit_iff, hmembers, htext, pure_ok_iff,
    List.isEmpty_iff, List.filter_eq_nil_iff, decide_eq_true_eq, not_not, Prod.exists,
    Prod.mk.injEq]
  constructor
  · rintro ⟨hcount, members, hdata, hknown, op, hop, raw, hraw, rules, count, hrules, nested, _,
      hnested, values, hvalues, _, hmade, rfl, rfl⟩
    exact ⟨hcount, members, hdata, hknown, op, hop, raw, hraw, rules, count, hrules, nested,
      hnested, values, hvalues, hmade⟩
  · rintro ⟨hcount, members, hdata, hknown, op, hop, raw, hraw, rules, count, hrules, nested,
      hnested, values, hvalues, hmade⟩
    exact ⟨hcount, members, hdata, hknown, op, hop, raw, hraw, rules, count, hrules, nested, _,
      hnested, values, hvalues, _, hmade, rfl, rfl⟩

theorem exists_of_mem_readRules {read : Json → ℕ → Outcome (EvidenceRule × ℕ)} {items : List Json}
    {counter : ℕ} {rules : List EvidenceRule}
    (h : readRules read items counter = .ok (rules, counter')) :
    ∀ rule ∈ rules, ∃ item count count', read item count = .ok (rule, count') := by
  induction items generalizing counter rules with
  | nil =>
    obtain ⟨rfl, -⟩ := Prod.mk.inj (Except.ok.inj h)
    exact fun _ hrule => (by cases hrule)
  | cons item rest ih =>
    simp only [readRules, bind_ok_iff, Prod.exists, pure_ok_iff, Prod.mk.injEq] at h
    obtain ⟨rule, count, hrule, rules, _, hrules, rfl, rfl⟩ := h
    exact List.forall_mem_cons.mpr ⟨⟨item, counter, count, hrule⟩, ih hrules⟩

theorem constructible_of_readDict {levels counter : ℕ} {data : Json}
    (h : readDict levels data counter = .ok (rule, counter')) : Constructible rule := by
  induction levels generalizing data counter counter' rule with
  | zero => cases h
  | succ levels ih =>
    obtain ⟨-, members, -, -, op, -, raw, -, rules, count, hrules, nested, hnested, values, -, hmade⟩ :=
      readDict_ok_iff.mp h
    refine .make (fun r hr => ?_) (fun r hr => ?_) hmade
    · obtain ⟨item, count, count', hread⟩ := exists_of_mem_readRules hrules r hr
      exact ih hread
    · obtain rfl : nested = some r := hr
      unfold readNested at hnested
      split_ifs at hnested
      · cases hnested
      · simp only [bind_ok_iff, Prod.exists, pure_ok_iff, Prod.mk.injEq, Option.some.injEq] at hnested
        obtain ⟨r, count', hread, rfl, -⟩ := hnested
        exact ih hread

theorem literals_fit (h : Constructible rule) :
    ∀ l ∈ rule.leaves, ∀ v ∈ l.literals, v.fits = true := by
  induction rule using BooleanTree.induction with
  | leaf l =>
    intro l' hl'
    obtain rfl := List.mem_singleton.mp hl'
    obtain ⟨-, hvalue, -, hvalues, -⟩ := RuleFields.make_ok_iff.mp h.made.1
    cases l' with
    | compare op path value => exact List.forall_mem_singleton.mpr (hvalue value rfl)
    | within path values => exact hvalues
    | _ => exact fun _ hv => (by cases hv)
  | all rules ih =>
    intro l hl
    obtain ⟨r, hr, hl⟩ := BooleanTree.mem_leaves_all.mp hl
    exact ih r hr (h.made.2 r hr) l hl
  | any rules ih =>
    intro l hl
    obtain ⟨r, hr, hl⟩ := BooleanTree.mem_leaves_any.mp hl
    exact ih r hr (h.made.2 r hr) l hl
  | not rule ih => exact ih (h.made.2 rule (List.mem_singleton_self rule))

theorem constructible_of_fromDict {data : Json} (h : fromDict data = .ok rule) :
    Constructible rule := by
  simp only [fromDict, bind_ok_iff, Prod.exists, pure_ok_iff] at h
  obtain ⟨rule, counter, hread, rfl⟩ := h
  exact constructible_of_readDict hread

end EvidenceRule

end Lets
