import Lets.EvidenceRules

set_option autoImplicit false

/-!
# Evaluation of evidence

A leaf whose path is missing or whose value is of another type is neither true nor false: it makes
the whole rule invalid, whatever stands around it.
-/

namespace Lets

open Library

structure EvidenceContext where
  facts : List (String × Json)
  nowNs : ℤ
  subjectId : String
  audience : String

def reservedRoots : List String := ["evidence", "now_ns", "subject", "audience"]

def Json.follow : Json → List String → Option Json
  | current, [] => some current
  | .object members, part :: rest => (members.lookup part).bind fun value => value.follow rest
  | _, _ :: _ => none

namespace EvidenceContext

def members (c : EvidenceContext) : List (String × Json) :=
  [("evidence", .object c.facts), ("now_ns", .number c.nowNs), ("subject", .text c.subjectId),
    ("audience", .text c.audience)]

def resolvePath (c : EvidenceContext) (path : String) : Option Json :=
  let parts := splitPath path
  let current := if ∃ root ∈ reservedRoots, parts.head? = some root then c.members else c.facts
  Json.follow (.object current) parts

end EvidenceContext

/-- `_EvidenceResult`. -/
inductive EvidenceResult
  | allow | deny | invalid
  deriving DecidableEq, Repr

namespace EvidenceResult

def ofBool (b : Bool) : EvidenceResult := if b then allow else deny

def negated : EvidenceResult → EvidenceResult
  | allow => deny
  | deny => allow
  | invalid => invalid

def ofAll (results : List EvidenceResult) : EvidenceResult :=
  if invalid ∈ results then invalid else ofBool (results.all (· = allow))

def ofAny (results : List EvidenceResult) : EvidenceResult :=
  if invalid ∈ results then invalid else ofBool (results.any (· = allow))

end EvidenceResult

/-- The comparisons of an order; equality is compared as canonical JSON instead. -/
def ComparisonOp.ordered {α : Type} [LinearOrder α] (x y : α) : ComparisonOp → Bool
  | .lt => x < y
  | .lte => x ≤ y
  | .gt => x > y
  | .gte => x ≥ y
  | _ => false

def compareEncoded (negate : Bool) (actual expected : Json) : Outcome EvidenceResult :=
  if actual.sort = expected.sort then do
    let encoded ← canonicalJson actual
    let wanted ← canonicalJson expected
    pure (.ofBool (decide (encoded = wanted) != negate))
  else pure .invalid

def compareOrdered (op : ComparisonOp) : Json → Json → EvidenceResult
  | .number x, .number y => .ofBool (op.ordered x y)
  | .text x, .text y => .ofBool (op.ordered x y)
  | _, _ => .invalid

namespace EvidenceLeaf

def resultOn (nowNs : ℤ) (actual : Json) : EvidenceLeaf → Outcome EvidenceResult
  | .present _ => pure .allow
  | .compare .eq _ value => compareEncoded false actual value
  | .compare .ne _ value => compareEncoded true actual value
  | .compare op _ value => pure (compareOrdered op actual value)
  | .within _ values => do
    let compatible := values.filter fun candidate => candidate.sort = actual.sort
    if compatible.isEmpty then pure .invalid
    else do
      let encoded ← canonicalJson actual
      let candidates ← compatible.mapM canonicalJson
      pure (.ofBool (encoded ∈ candidates))
  | .fresh _ maxAgeNs =>
    match actual with
    | .number observed => pure (.ofBool (0 ≤ nowNs - observed ∧ nowNs - observed ≤ maxAgeNs))
    | _ => pure .invalid

def path : EvidenceLeaf → String
  | .present path => path
  | .compare _ path _ => path
  | .within path _ => path
  | .fresh observedAtPath _ => observedAtPath

def resultMissing : EvidenceLeaf → EvidenceResult
  | .present _ => .deny
  | _ => .invalid

def result (c : EvidenceContext) (leaf : EvidenceLeaf) : Outcome EvidenceResult :=
  match c.resolvePath leaf.path with
  | none => pure leaf.resultMissing
  | some actual => leaf.resultOn c.nowNs actual

end EvidenceLeaf

mutual

def evidenceResult (c : EvidenceContext) : EvidenceRule → Outcome EvidenceResult
  | .leaf l => l.result c
  | .all rules => do
    let results ← evidenceResults c rules
    pure (.ofAll results)
  | .any rules => do
    let results ← evidenceResults c rules
    pure (.ofAny results)
  | .not rule => do
    let nested ← evidenceResult c rule
    pure nested.negated

def evidenceResults (c : EvidenceContext) : List EvidenceRule → Outcome (List EvidenceResult)
  | [] => pure []
  | rule :: rest => do
    let result ← evidenceResult c rule
    let results ← evidenceResults c rest
    pure (result :: results)

end

inductive RuleInput
  | rule (rule : EvidenceRule) (constructible : rule.Constructible)
  | dict (data : Json)

def RuleInput.expression : RuleInput → Outcome EvidenceRule
  | .rule expression _ => pure expression
  | .dict data => EvidenceRule.fromDict data

def evidenceOutcome (c : EvidenceContext) (input : RuleInput) : Outcome EvidenceResult := do
  let expression ← input.expression
  let _ ← canonicalJson (.object c.facts)
  evidenceResult c expression

/-- `evaluate_evidence`: whatever goes wrong is no. -/
def evaluateEvidence (input : Option RuleInput) (evidence : Option (List (String × Json)))
    (nowNs : ℤ) (subjectId audience : String) : Bool :=
  match input with
  | none => true
  | some input =>
    match evidenceOutcome ⟨evidence.getD [], nowNs, subjectId, audience⟩ input with
    | .ok result => result = .allow
    | .error _ => false

/-! ### The classical meaning -/

namespace EvidenceLeaf

/-- Whether a comparison with a value of that sort means anything. -/
def Compatible (leaf : EvidenceLeaf) (actual : Json) : Prop :=
  match leaf with
  | .present _ => True
  | .compare .eq _ value => actual.sort = value.sort
  | .compare .ne _ value => actual.sort = value.sort
  | .compare _ _ value =>
    (∃ x y, actual = .number x ∧ value = .number y) ∨ ∃ x y, actual = .text x ∧ value = .text y
  | .within _ values => ∃ v ∈ values, actual.sort = v.sort
  | .fresh _ _ => ∃ n, actual = .number n

/-- A leaf other than `exists` needs a value it can be compared with. -/
def Valid (c : EvidenceContext) : EvidenceLeaf → Prop
  | .present _ => True
  | leaf => ∃ actual, c.resolvePath leaf.path = some actual ∧ leaf.Compatible actual

def Satisfied (nowNs : ℤ) (actual : Json) : EvidenceLeaf → Prop
  | .present _ => True
  | .compare .eq _ value => actual.Same value
  | .compare .ne _ value => ¬ actual.Same value
  | .compare op _ value =>
    (∃ x y, actual = .number x ∧ value = .number y ∧ op.ordered x y = true) ∨
      ∃ x y, actual = .text x ∧ value = .text y ∧ op.ordered x y = true
  | .within _ values => ∃ v ∈ values, actual.Same v
  | .fresh _ maxAgeNs => ∃ n, actual = .number n ∧ 0 ≤ nowNs - n ∧ nowNs - n ≤ maxAgeNs

def Holds (c : EvidenceContext) (leaf : EvidenceLeaf) : Prop :=
  ∃ actual, c.resolvePath leaf.path = some actual ∧ leaf.Satisfied c.nowNs actual

def encodes : EvidenceLeaf → Bool
  | .compare op _ _ => op = .eq ∨ op = .ne
  | .within _ _ => true
  | _ => false

/-- Whether the value under the path, if the leaf encodes it, is in the range of canonical JSON. -/
def Encodable (c : EvidenceContext) (leaf : EvidenceLeaf) : Prop :=
  leaf.encodes = true → ∀ actual ∈ c.resolvePath leaf.path, actual.fits = true

theorem ofBool_eq_allow {b : Bool} : EvidenceResult.ofBool b = .allow ↔ b = true := by
  cases b <;> decide

theorem ofBool_eq_deny {b : Bool} : EvidenceResult.ofBool b = .deny ↔ b = false := by
  cases b <;> decide

def Decides (outcome : Outcome EvidenceResult) (sound truth : Prop) : Prop :=
  (outcome = .ok .allow ↔ sound ∧ truth) ∧ (outcome = .ok .deny ↔ sound ∧ ¬ truth)

variable {sound truth : Prop}

theorem decides_ofBool {b : Bool} (hsound : sound) (h : b = true ↔ truth) :
    Decides (pure (.ofBool b)) sound truth := by
  have hfalse : b = false ↔ ¬ truth := by rw [← h, Bool.not_eq_true]
  constructor
  · rw [pure_ok_iff, ofBool_eq_allow, h]
    exact ⟨fun ht => ⟨hsound, ht⟩, And.right⟩
  · rw [pure_ok_iff, ofBool_eq_deny, hfalse]
    exact ⟨fun ht => ⟨hsound, ht⟩, And.right⟩

theorem decides_invalid (hsound : ¬ sound) : Decides (pure .invalid) sound truth :=
  ⟨⟨(by simp), fun h => absurd h.1 hsound⟩, ⟨(by simp), fun h => absurd h.1 hsound⟩⟩

theorem decides_error {e : LetsError} (hsound : ¬ sound) : Decides (.error e) sound truth :=
  ⟨⟨(by simp), fun h => absurd h.1 hsound⟩, ⟨(by simp), fun h => absurd h.1 hsound⟩⟩

theorem Decides.congr {outcome : Outcome EvidenceResult} {sound' truth' : Prop}
    (h : Decides outcome sound truth) (hsound : sound ↔ sound') (htruth : truth ↔ truth') :
    Decides outcome sound' truth' := by
  rwa [← hsound, ← htruth]

variable {a : Json}

theorem encoded_eq_iff {b : Json} {x y : Bytes} (ha : canonicalJson a = .ok x)
    (hb : canonicalJson b = .ok y) : x = y ↔ a.Same b := by
  constructor
  · rintro rfl
    exact same_of_canonicalJson_eq ha hb
  · intro hsame
    have htext : a.jsonText = b.jsonText := by
      rw [← a.jsonText_normalize, ← b.jsonText_normalize, hsame]
    rw [← (canonicalJson_ok_iff.mp ha).2, ← (canonicalJson_ok_iff.mp hb).2, htext]

theorem canonicalJson_of_fits (h : a.fits = true) : ∃ bytes, canonicalJson a = .ok bytes :=
  ⟨_, canonicalJson_ok_iff.mpr ⟨h, rfl⟩⟩

theorem canonicalJson_of_not_fits (h : ¬ a.fits = true) : ∃ e, canonicalJson a = .error e := by
  cases hbytes : canonicalJson a with
  | ok bytes => exact absurd (canonicalJson_ok_iff.mp hbytes).1 h
  | error e => exact ⟨e, rfl⟩

variable {actual : Json}

theorem decides_compareEncoded {negate : Bool} {value : Json} (hvalue : value.fits = true) :
    Decides (compareEncoded negate actual value) (actual.sort = value.sort ∧ actual.fits = true)
      (actual.Same value ↔ negate = false) := by
  unfold compareEncoded
  split_ifs with hsort
  · by_cases hfits : actual.fits = true
    · obtain ⟨x, hx⟩ := canonicalJson_of_fits hfits
      obtain ⟨y, hy⟩ := canonicalJson_of_fits hvalue
      rw [hx, hy]
      refine decides_ofBool ⟨hsort, hfits⟩ ?_
      rw [← encoded_eq_iff hx hy]
      cases negate <;> simp
    · obtain ⟨e, he⟩ := canonicalJson_of_not_fits hfits
      rw [he]
      exact decides_error fun h => hfits h.2
  · exact decides_invalid fun h => hsort h.1

theorem decides_compareOrdered {op : ComparisonOp} {value : Json} :
    Decides (pure (compareOrdered op actual value))
      ((∃ x y, actual = .number x ∧ value = .number y) ∨ ∃ x y, actual = .text x ∧ value = .text y)
      ((∃ x y, actual = .number x ∧ value = .number y ∧ op.ordered x y = true) ∨
        ∃ x y, actual = .text x ∧ value = .text y ∧ op.ordered x y = true) := by
  unfold compareOrdered
  split
  · next x y =>
    refine decides_ofBool (.inl ⟨x, y, rfl, rfl⟩) ?_
    simp
  · next x y =>
    refine decides_ofBool (.inr ⟨x, y, rfl, rfl⟩) ?_
    simp
  · next hnumber htext =>
    refine decides_invalid ?_
    rintro (⟨x, y, rfl, rfl⟩ | ⟨x, y, rfl, rfl⟩)
    · exact hnumber x y rfl rfl
    · exact htext x y rfl rfl

theorem sort_of_same {b : Json} (h : a.Same b) : a.sort = b.sort := by
  have hsort : ∀ a : Json, a.normalize.sort = a.sort := by
    intro a
    cases a <;> rfl
  rw [← hsort a, ← hsort b, h]

def encoding (a : Json) : Bytes := (String.ofList a.jsonText).toUTF8.data.toList

theorem canonicalJson_encoding (h : a.fits = true) : canonicalJson a = .ok (encoding a) :=
  canonicalJson_ok_iff.mpr ⟨h, rfl⟩

theorem decides_within {path : String} {values : List Json} {nowNs : ℤ}
    (hvalues : ∀ v ∈ values, v.fits = true) :
    Decides ((EvidenceLeaf.within path values).resultOn nowNs actual)
      ((∃ v ∈ values, actual.sort = v.sort) ∧ actual.fits = true) (∃ v ∈ values, actual.Same v) := by
  have hmem : ∀ v, v ∈ values.filter (fun candidate => candidate.sort = actual.sort) ↔
      v ∈ values ∧ actual.sort = v.sort := by
    intro v
    rw [List.mem_filter, decide_eq_true_eq, eq_comm]
  unfold resultOn
  dsimp only
  generalize values.filter (fun candidate => candidate.sort = actual.sort) = compatible at hmem ⊢
  cases compatible with
  | nil =>
    refine decides_invalid ?_
    rintro ⟨⟨v, hv, hsort⟩, -⟩
    exact absurd ((hmem v).mpr ⟨hv, hsort⟩) (by simp)
  | cons first rest =>
    have hfirst := (hmem first).mp List.mem_cons_self
    by_cases hfits : actual.fits = true
    · have hcandidates : (first :: rest).mapM canonicalJson = .ok ((first :: rest).map encoding) :=
        mapM_of fun v hv => canonicalJson_encoding (hvalues v ((hmem v).mp hv).1)
      rw [canonicalJson_encoding hfits, hcandidates]
      refine decides_ofBool ⟨⟨first, hfirst⟩, hfits⟩ ?_
      rw [decide_eq_true_eq, List.mem_map]
      constructor
      · rintro ⟨v, hv, heq⟩
        obtain ⟨hv, -⟩ := (hmem v).mp hv
        exact ⟨v, hv, (encoded_eq_iff (canonicalJson_encoding hfits)
          (canonicalJson_encoding (hvalues v hv))).mp heq.symm⟩
      · rintro ⟨v, hv, hsame⟩
        exact ⟨v, (hmem v).mpr ⟨hv, sort_of_same hsame⟩, ((encoded_eq_iff
          (canonicalJson_encoding hfits) (canonicalJson_encoding (hvalues v hv))).mpr hsame).symm⟩
    · obtain ⟨e, he⟩ := canonicalJson_of_not_fits hfits
      rw [he]
      exact decides_error fun h => hfits h.2

theorem decides_resultOn {leaf : EvidenceLeaf} (hliterals : ∀ v ∈ leaf.literals, v.fits = true)
    {nowNs : ℤ} :
    Decides (leaf.resultOn nowNs actual)
      (leaf.Compatible actual ∧ (leaf.encodes = true → actual.fits = true))
      (leaf.Satisfied nowNs actual) := by
  have hused : ∀ {b : Bool} {P : Prop}, b = true → (P ↔ (b = true → P)) := fun hb =>
    ⟨fun h _ => h, fun h => h hb⟩
  cases leaf with
  | present path => exact decides_ofBool ⟨trivial, fun h => (by cases h)⟩ (iff_of_true rfl trivial)
  | compare op path value =>
    have hvalue := hliterals value List.mem_cons_self
    have hunused : ∀ P : Prop, P ↔ P ∧ (false = true → actual.fits = true) := fun P =>
      ⟨fun h => ⟨h, fun hne => (by cases hne)⟩, And.left⟩
    cases op with
    | eq =>
      exact (decides_compareEncoded hvalue).congr (and_congr_right' (hused rfl))
        (iff_true_right rfl)
    | ne =>
      exact (decides_compareEncoded hvalue).congr (and_congr_right' (hused rfl))
        (iff_false_right (by decide))
    | _ => exact decides_compareOrdered.congr (hunused _) Iff.rfl
  | within path values =>
    exact (decides_within hliterals).congr (and_congr_right' (hused rfl)) Iff.rfl
  | fresh path maxAgeNs =>
    cases actual with
    | number n =>
      refine decides_ofBool ⟨⟨n, rfl⟩, fun h => (by cases h)⟩ ?_
      simp [Satisfied]
    | _ =>
      refine decides_invalid ?_
      rintro ⟨⟨n, hn⟩, -⟩
      cases hn

theorem decides_result {leaf : EvidenceLeaf} (hliterals : ∀ v ∈ leaf.literals, v.fits = true)
    (c : EvidenceContext) :
    Decides (leaf.result c) (leaf.Valid c ∧ leaf.Encodable c) (leaf.Holds c) := by
  unfold result
  cases hpath : c.resolvePath leaf.path with
  | none =>
    cases leaf with
    | present path =>
      refine decides_ofBool (b := false) ⟨trivial, fun h => (by cases h)⟩ (iff_of_false (by simp) ?_)
      rintro ⟨actual, hactual, -⟩
      rw [hpath] at hactual
      cases hactual
    | _ =>
      refine decides_invalid ?_
      rintro ⟨⟨actual, hactual, -⟩, -⟩
      rw [hpath] at hactual
      cases hactual
  | some actual =>
    have hvalid : leaf.Compatible actual ↔ leaf.Valid c := by
      cases leaf with
      | present path => exact Iff.rfl
      | _ => simp only [Valid, hpath, Option.some.injEq, exists_eq_left']
    have hencodable : (leaf.encodes = true → actual.fits = true) ↔ leaf.Encodable c := by
      simp only [Encodable, hpath, Option.mem_some_iff, forall_eq']
    have hholds : leaf.Satisfied c.nowNs actual ↔ leaf.Holds c := by
      simp only [Holds, hpath, Option.some.injEq, exists_eq_left']
    exact (decides_resultOn hliterals).congr (and_congr hvalid hencodable) hholds

end EvidenceLeaf

/-! ### Trees -/

section Trees

variable {c : EvidenceContext}

variable {rules : List EvidenceRule} {results : List EvidenceResult}

theorem evidenceResults_ok_iff :
    evidenceResults c rules = .ok results ↔
      List.Forall₂ (fun rule result => evidenceResult c rule = .ok result) rules results := by
  induction rules generalizing results with
  | nil =>
    rw [evidenceResults, pure_ok_iff, List.forall₂_nil_left_iff, eq_comm]
  | cons rule rest ih =>
    simp only [evidenceResults, bind_ok_iff, pure_ok_iff, ih]
    constructor
    · rintro ⟨result, hresult, results, hresults, rfl⟩
      exact .cons hresult hresults
    · intro h
      cases h with
      | cons hresult hresults => exact ⟨_, hresult, _, hresults, rfl⟩

theorem results_of_rules (h : evidenceResults c rules = .ok results) :
    (∀ rule ∈ rules, ∃ r ∈ results, evidenceResult c rule = .ok r) ∧
      ∀ r ∈ results, ∃ rule ∈ rules, evidenceResult c rule = .ok r := by
  rw [evidenceResults_ok_iff] at h
  induction h with
  | nil => exact ⟨fun _ h => (by cases h), fun _ h => (by cases h)⟩
  | @cons rule r rules results hresult _ ih =>
    constructor
    · refine List.forall_mem_cons.mpr ⟨⟨r, List.mem_cons_self, hresult⟩, fun rule' hrule' => ?_⟩
      obtain ⟨r', hr', h'⟩ := ih.1 rule' hrule'
      exact ⟨r', List.mem_cons_of_mem _ hr', h'⟩
    · refine List.forall_mem_cons.mpr ⟨⟨rule, List.mem_cons_self, hresult⟩, fun r' hr' => ?_⟩
      obtain ⟨rule', hrule', h'⟩ := ih.2 r' hr'
      exact ⟨rule', List.mem_cons_of_mem _ hrule', h'⟩

theorem exists_results (h : ∀ rule ∈ rules, ∃ r, evidenceResult c rule = .ok r) :
    ∃ results, evidenceResults c rules = .ok results := by
  induction rules with
  | nil => exact ⟨[], rfl⟩
  | cons rule rest ih =>
    rw [List.forall_mem_cons] at h
    obtain ⟨r, hr⟩ := h.1
    obtain ⟨results, hresults⟩ := ih h.2
    rw [evidenceResults, hr, hresults]
    exact ⟨r :: results, rfl⟩

theorem exists_results_all {x : EvidenceResult} :
    (∃ results, evidenceResults c rules = .ok results ∧ ∀ r ∈ results, r = x) ↔
      ∀ rule ∈ rules, evidenceResult c rule = .ok x := by
  constructor
  · rintro ⟨results, hresults, hall⟩ rule hrule
    obtain ⟨r, hr, hresult⟩ := (results_of_rules hresults).1 rule hrule
    rw [hresult, hall r hr]
  · intro h
    obtain ⟨results, hresults⟩ := exists_results fun rule hrule => ⟨x, h rule hrule⟩
    refine ⟨results, hresults, fun r hr => ?_⟩
    obtain ⟨rule, hrule, hresult⟩ := (results_of_rules hresults).2 r hr
    exact Except.ok.inj (hresult.symm.trans (h rule hrule))

theorem exists_results_any {x : EvidenceResult} :
    (∃ results, evidenceResults c rules = .ok results ∧ .invalid ∉ results ∧ x ∈ results) ↔
      (∀ rule ∈ rules, ∃ r, evidenceResult c rule = .ok r ∧ r ≠ .invalid) ∧
        ∃ rule ∈ rules, evidenceResult c rule = .ok x := by
  constructor
  · rintro ⟨results, hresults, hvalid, hmem⟩
    refine ⟨fun rule hrule => ?_, (results_of_rules hresults).2 x hmem⟩
    obtain ⟨r, hr, hresult⟩ := (results_of_rules hresults).1 rule hrule
    exact ⟨r, hresult, fun h => hvalid (h ▸ hr)⟩
  · rintro ⟨hall, rule, hrule, hresult⟩
    obtain ⟨results, hresults⟩ := exists_results fun rule hrule =>
      (hall rule hrule).imp fun _ h => h.1
    refine ⟨results, hresults, fun hinvalid => ?_, ?_⟩
    · obtain ⟨rule, hrule, hresult⟩ := (results_of_rules hresults).2 _ hinvalid
      obtain ⟨r, hr, hne⟩ := hall rule hrule
      exact hne (Except.ok.inj (hr.symm.trans hresult))
    · obtain ⟨r, hr, hresult'⟩ := (results_of_rules hresults).1 rule hrule
      rw [Except.ok.inj (hresult.symm.trans hresult')]
      exact hr

theorem ofAll_eq_allow : EvidenceResult.ofAll results = .allow ↔ ∀ r ∈ results, r = .allow := by
  unfold EvidenceResult.ofAll
  split_ifs with hinvalid
  · exact ⟨(fun h => by cases h), fun h => nomatch h _ hinvalid⟩
  · rw [EvidenceLeaf.ofBool_eq_allow, List.all_eq_true]
    simp only [decide_eq_true_eq]

theorem ofAll_eq_deny :
    EvidenceResult.ofAll results = .deny ↔ .invalid ∉ results ∧ .deny ∈ results := by
  unfold EvidenceResult.ofAll
  split_ifs with hinvalid
  · exact ⟨(by simp), fun h => absurd hinvalid h.1⟩
  · rw [EvidenceLeaf.ofBool_eq_deny, List.all_eq_false]
    simp only [decide_eq_true_eq]
    constructor
    · rintro ⟨r, hr, hne⟩
      refine ⟨hinvalid, ?_⟩
      cases r with
      | allow => exact absurd rfl hne
      | deny => exact hr
      | invalid => exact absurd hr hinvalid
    · exact fun h => ⟨_, h.2, by decide⟩

theorem ofAny_eq_allow :
    EvidenceResult.ofAny results = .allow ↔ .invalid ∉ results ∧ .allow ∈ results := by
  unfold EvidenceResult.ofAny
  split_ifs with hinvalid
  · exact ⟨(by simp), fun h => absurd hinvalid h.1⟩
  · rw [EvidenceLeaf.ofBool_eq_allow, List.any_eq_true]
    simp only [decide_eq_true_eq, exists_eq_right]
    exact ⟨fun h => ⟨hinvalid, h⟩, And.right⟩

theorem ofAny_eq_deny : EvidenceResult.ofAny results = .deny ↔ ∀ r ∈ results, r = .deny := by
  unfold EvidenceResult.ofAny
  split_ifs with hinvalid
  · exact ⟨(fun h => by cases h), fun h => nomatch h _ hinvalid⟩
  · rw [EvidenceLeaf.ofBool_eq_deny, List.any_eq_false]
    simp only [decide_eq_true_eq]
    constructor
    · intro h r hr
      cases r with
      | allow => exact absurd rfl (h _ hr)
      | deny => rfl
      | invalid => exact absurd hr hinvalid
    · intro h r hr
      rw [h r hr]
      decide

/-- Whether every leaf of the rule has a value it can be compared with. -/
def EvidenceRule.Sound (c : EvidenceContext) (rule : EvidenceRule) : Prop :=
  ∀ l ∈ rule.leaves, l.Valid c ∧ l.Encodable c

theorem sound_of_decided
    (ih : ∀ rule ∈ rules, EvidenceLeaf.Decides (evidenceResult c rule) (EvidenceRule.Sound c rule)
      (rule.Holds (EvidenceLeaf.Holds c))) :
    (∀ rule ∈ rules, ∃ r, evidenceResult c rule = .ok r ∧ r ≠ .invalid) ↔
      ∀ rule ∈ rules, EvidenceRule.Sound c rule := by
  refine forall₂_congr fun rule hrule => ?_
  obtain ⟨hallow, hdeny⟩ := ih rule hrule
  constructor
  · rintro ⟨r, hr, hne⟩
    cases r with
    | allow => exact (hallow.mp hr).1
    | deny => exact (hdeny.mp hr).1
    | invalid => exact absurd rfl hne
  · intro hsound
    by_cases hholds : rule.Holds (EvidenceLeaf.Holds c)
    · exact ⟨_, hallow.mpr ⟨hsound, hholds⟩, by decide⟩
    · exact ⟨_, hdeny.mpr ⟨hsound, hholds⟩, by decide⟩

theorem forall_mem_exists_iff {α β : Type} {P : α → β → Prop} {Q : β → Prop} {l : List α} :
    (∀ b, (∃ a ∈ l, P a b) → Q b) ↔ ∀ a ∈ l, ∀ b, P a b → Q b := by
  constructor
  · intro h a ha b hb
    exact h b ⟨a, ha, hb⟩
  · rintro h b ⟨a, ha, hb⟩
    exact h a ha b hb

theorem decides_evidenceResult {rule : EvidenceRule}
    (hliterals : ∀ l ∈ rule.leaves, ∀ v ∈ l.literals, v.fits = true) :
    EvidenceLeaf.Decides (evidenceResult c rule) (EvidenceRule.Sound c rule)
      (rule.Holds (EvidenceLeaf.Holds c)) := by
  induction rule using BooleanTree.induction with
  | leaf l =>
    refine (EvidenceLeaf.decides_result (hliterals l (List.mem_singleton.mpr rfl)) c).congr ?_ Iff.rfl
    rw [EvidenceRule.Sound, BooleanTree.leaves_leaf, List.forall_mem_singleton]
  | all rules ih =>
    have ih' := fun rule hrule => ih rule hrule fun l hl =>
      hliterals l (BooleanTree.mem_leaves_all.mpr ⟨rule, hrule, hl⟩)
    have hsound : EvidenceRule.Sound c (.all rules) ↔ ∀ r ∈ rules, EvidenceRule.Sound c r := by
      simp only [EvidenceRule.Sound, BooleanTree.mem_leaves_all]
      exact forall_mem_exists_iff
    rw [hsound, BooleanTree.holds_all]
    constructor
    · simp only [evidenceResult, bind_ok_iff, pure_ok_iff, ofAll_eq_allow, exists_results_all]
      exact ⟨fun h => ⟨fun r hr => ((ih' r hr).1.mp (h r hr)).1,
        fun r hr => ((ih' r hr).1.mp (h r hr)).2⟩, fun h r hr => (ih' r hr).1.mpr ⟨h.1 r hr, h.2 r hr⟩⟩
    · simp only [evidenceResult, bind_ok_iff, pure_ok_iff, ofAll_eq_deny, exists_results_any,
        sound_of_decided ih', not_forall]
      refine and_congr_right fun hall => ?_
      constructor
      · rintro ⟨r, hr, h⟩
        exact ⟨r, hr, ((ih' r hr).2.mp h).2⟩
      · rintro ⟨r, hr, h⟩
        exact ⟨r, hr, (ih' r hr).2.mpr ⟨hall r hr, h⟩⟩
  | any rules ih =>
    have ih' := fun rule hrule => ih rule hrule fun l hl =>
      hliterals l (BooleanTree.mem_leaves_any.mpr ⟨rule, hrule, hl⟩)
    have hsound : EvidenceRule.Sound c (.any rules) ↔ ∀ r ∈ rules, EvidenceRule.Sound c r := by
      simp only [EvidenceRule.Sound, BooleanTree.mem_leaves_any]
      exact forall_mem_exists_iff
    rw [hsound, BooleanTree.holds_any]
    constructor
    · simp only [evidenceResult, bind_ok_iff, pure_ok_iff, ofAny_eq_allow, exists_results_any,
        sound_of_decided ih']
      refine and_congr_right fun hall => ?_
      constructor
      · rintro ⟨r, hr, h⟩
        exact ⟨r, hr, ((ih' r hr).1.mp h).2⟩
      · rintro ⟨r, hr, h⟩
        exact ⟨r, hr, (ih' r hr).1.mpr ⟨hall r hr, h⟩⟩
    · simp only [evidenceResult, bind_ok_iff, pure_ok_iff, ofAny_eq_deny, exists_results_all,
        not_exists, not_and]
      exact ⟨fun h => ⟨fun r hr => ((ih' r hr).2.mp (h r hr)).1,
        fun r hr => ((ih' r hr).2.mp (h r hr)).2⟩, fun h r hr => (ih' r hr).2.mpr ⟨h.1 r hr, h.2 r hr⟩⟩
  | not rule ih =>
    obtain ⟨hallow, hdeny⟩ := ih hliterals
    have hsound : EvidenceRule.Sound c (.not rule) ↔ EvidenceRule.Sound c rule := Iff.rfl
    have hnegated : ∀ r : EvidenceResult, (r.negated = .allow ↔ r = .deny) ∧
        (r.negated = .deny ↔ r = .allow) := by
      intro r
      cases r <;> decide
    rw [hsound, BooleanTree.holds_not]
    constructor
    · simp only [evidenceResult, bind_ok_iff, pure_ok_iff, (hnegated _).1, exists_eq_right]
      exact hdeny
    · simp only [evidenceResult, bind_ok_iff, pure_ok_iff, (hnegated _).2, exists_eq_right, not_not]
      exact hallow

end Trees

/-! ### What a rule may look at -/

variable {rule : EvidenceRule}

theorem RuleInput.constructible {input : RuleInput} (h : input.expression = .ok rule) :
    rule.Constructible := by
  cases input with
  | rule expression hconstructible =>
    obtain rfl := Except.ok.inj h
    exact hconstructible
  | dict data => exact EvidenceRule.constructible_of_fromDict h

theorem Json.fits_follow {a b : Json} {parts : List String} (h : a.fits = true)
    (hfollow : a.follow parts = some b) : b.fits = true := by
  induction parts generalizing a with
  | nil =>
    obtain rfl := Option.some.inj hfollow
    exact h
  | cons part rest ih =>
    cases a with
    | object members =>
      obtain ⟨value, hvalue, hrest⟩ := Option.bind_eq_some_iff.mp hfollow
      obtain ⟨before, after, hmembers, -⟩ := List.lookup_eq_some_iff.mp hvalue
      have hmem : (part, value) ∈ members := by
        rw [hmembers]
        exact List.mem_append_cons_self
      exact ih (Json.membersFit_iff.mp h _ hmem) hrest
    | _ => cases hfollow

theorem encodable_of_fits {c : EvidenceContext} (hfacts : (Json.object c.facts).fits = true)
    (hnow : Json.numberFits c.nowNs = true) (l : EvidenceLeaf) : l.Encodable c := by
  intro _ actual hactual
  have hmembers : (Json.object c.members).fits = true := by
    refine Json.membersFit_iff.mpr ?_
    simp only [EvidenceContext.members, List.forall_mem_cons]
    exact ⟨hfacts, hnow, rfl, rfl, fun _ h => (by cases h)⟩
  unfold EvidenceContext.resolvePath at hactual
  dsimp only at hactual
  split_ifs at hactual
  · exact Json.fits_follow hmembers hactual
  · exact Json.fits_follow hfacts hactual

def EvidenceLeaf.Fixed (l : EvidenceLeaf) : Prop :=
  ∃ root ∈ ["now_ns", "subject", "audience"], (splitPath l.path).head? = some root

theorem resolvePath_of_fixed {l : EvidenceLeaf} (h : l.Fixed) (c : EvidenceContext)
    (facts : List (String × Json)) :
    EvidenceContext.resolvePath { c with facts } l.path = c.resolvePath l.path := by
  obtain ⟨root, hroot, hhead⟩ := h
  cases hparts : splitPath l.path with
  | nil =>
    rw [hparts] at hhead
    cases hhead
  | cons part rest =>
    rw [hparts] at hhead
    obtain rfl := Option.some.inj hhead
    have hreserved : ∃ root ∈ reservedRoots, (part :: rest).head? = some root :=
      ⟨part, List.mem_cons_of_mem _ hroot, rfl⟩
    simp only [EvidenceContext.resolvePath, hparts, if_pos hreserved]
    -- The three roots are looked up past the evidence.
    simp only [List.mem_cons, List.not_mem_nil, or_false] at hroot
    rcases hroot with rfl | rfl | rfl <;> rfl

theorem evidenceResults_congr {c c' : EvidenceContext} {rules : List EvidenceRule}
    (h : ∀ rule ∈ rules, evidenceResult c' rule = evidenceResult c rule) :
    evidenceResults c' rules = evidenceResults c rules := by
  induction rules with
  | nil => rfl
  | cons rule rest ih =>
    rw [List.forall_mem_cons] at h
    rw [evidenceResults, evidenceResults, h.1, ih h.2]

theorem evidenceResult_of_fixed (h : ∀ l ∈ rule.leaves, l.Fixed) (c : EvidenceContext)
    (facts : List (String × Json)) :
    evidenceResult { c with facts } rule = evidenceResult c rule := by
  induction rule using BooleanTree.induction with
  | leaf l =>
    have hpath := resolvePath_of_fixed (h l (List.mem_singleton.mpr rfl)) c facts
    rw [evidenceResult, evidenceResult, EvidenceLeaf.result, EvidenceLeaf.result, hpath]
  | all rules ih =>
    rw [evidenceResult, evidenceResult, evidenceResults_congr fun r hr => ih r hr fun l hl =>
      h l (BooleanTree.mem_leaves_all.mpr ⟨r, hr, hl⟩)]
  | any rules ih =>
    rw [evidenceResult, evidenceResult, evidenceResults_congr fun r hr => ih r hr fun l hl =>
      h l (BooleanTree.mem_leaves_any.mpr ⟨r, hr, hl⟩)]
  | not rule ih => rw [evidenceResult, evidenceResult, ih h]

theorem evaluateEvidence_iff {input : RuleInput} (h : input.expression = .ok rule)
    (facts : List (String × Json)) (nowNs : ℤ) (subjectId audience : String) :
    evaluateEvidence (some input) (some facts) nowNs subjectId audience = true ↔
      (Json.object facts).fits = true ∧
        evidenceResult ⟨facts, nowNs, subjectId, audience⟩ rule = .ok .allow := by
  have houtcome : ∀ c r, evidenceOutcome c input = .ok r ↔
      (Json.object c.facts).fits = true ∧ evidenceResult c rule = .ok r := by
    intro c r
    simp only [evidenceOutcome, h, bind_ok_iff, Except.ok.injEq, exists_eq_left',
      canonicalJson_ok_iff]
    exact ⟨fun ⟨_, hfits, hr⟩ => ⟨hfits.1, hr⟩, fun ⟨hfits, hr⟩ => ⟨_, ⟨hfits, rfl⟩, hr⟩⟩
  rw [← houtcome ⟨facts, nowNs, subjectId, audience⟩]
  unfold evaluateEvidence
  dsimp only [Option.getD_some]
  cases evidenceOutcome ⟨facts, nowNs, subjectId, audience⟩ input with
  | ok r => rw [decide_eq_true_eq, Except.ok.injEq]
  | error e => exact ⟨(by simp), (by simp)⟩

/-- Evidence is accepted exactly when every leaf but `exists` has a value of a type it can be compared
with and the tree is true in the classical sense; and a rule on the time, the subject and the audience
only does not depend on the evidence. -/
theorem evaluate_evidence_exact {input : RuleInput} {rule : EvidenceRule}
    (hrule : input.expression = .ok rule) (facts : List (String × Json)) (nowNs : ℤ)
    (subjectId audience : String) :
    (evaluateEvidence (some input) (some facts) nowNs subjectId audience = true ↔
      (Json.object facts).fits = true ∧
      (∀ l ∈ rule.leaves, l.Valid ⟨facts, nowNs, subjectId, audience⟩ ∧
        l.Encodable ⟨facts, nowNs, subjectId, audience⟩) ∧
      rule.Holds (EvidenceLeaf.Holds ⟨facts, nowNs, subjectId, audience⟩)) ∧
    ((Json.object facts).fits = true → Json.numberFits nowNs = true →
      (evaluateEvidence (some input) (some facts) nowNs subjectId audience = true ↔
        (∀ l ∈ rule.leaves, l.Valid ⟨facts, nowNs, subjectId, audience⟩) ∧
        rule.Holds (EvidenceLeaf.Holds ⟨facts, nowNs, subjectId, audience⟩))) ∧
    ((∀ l ∈ rule.leaves, l.Fixed) → ∀ facts', (Json.object facts).fits = true →
      (Json.object facts').fits = true →
        evaluateEvidence (some input) (some facts) nowNs subjectId audience =
          evaluateEvidence (some input) (some facts') nowNs subjectId audience) := by
  have hliterals := EvidenceRule.literals_fit (RuleInput.constructible hrule)
  have hgeneral := (evaluateEvidence_iff hrule facts nowNs subjectId audience).trans
    (and_congr_right' (decides_evidenceResult hliterals).1)
  refine ⟨hgeneral, fun hfacts hnow => ?_, fun hfixed facts' hfacts hfacts' => ?_⟩
  · rw [hgeneral]
    constructor
    · rintro ⟨-, hsound, hholds⟩
      exact ⟨fun l hl => (hsound l hl).1, hholds⟩
    · rintro ⟨hvalid, hholds⟩
      exact ⟨hfacts, fun l hl => ⟨hvalid l hl, encodable_of_fits hfacts hnow l⟩, hholds⟩
  · rw [Bool.eq_iff_iff, evaluateEvidence_iff hrule, evaluateEvidence_iff hrule,
      ← evidenceResult_of_fixed hfixed ⟨facts, nowNs, subjectId, audience⟩ facts']
    exact and_congr_left' (iff_of_true hfacts hfacts')

def Sample.evidenceRule : EvidenceRule :=
  .all [.not (.leaf (.compare .eq "tier" (.text "low"))), .leaf (.fresh "seen_at" 5)]

theorem evaluate_evidence_exact_tier :
    (RuleInput.dict Sample.evidenceRule.toDict).expression = .ok Sample.evidenceRule ∧
      ∀ facts, (Json.object facts).fits = true →
        (evaluateEvidence (some (.dict Sample.evidenceRule.toDict)) (some facts) 7 "s" "a" = true ↔
          (∀ l ∈ Sample.evidenceRule.leaves, l.Valid ⟨facts, 7, "s", "a"⟩) ∧
            Sample.evidenceRule.Holds (EvidenceLeaf.Holds ⟨facts, 7, "s", "a"⟩)) := by
  have hrule : (RuleInput.dict Sample.evidenceRule.toDict).expression = .ok Sample.evidenceRule :=
    rfl
  exact ⟨hrule, fun facts hfacts =>
    (evaluate_evidence_exact hrule facts 7 "s" "a").2.1 hfacts (by decide)⟩

def Sample.presence : EvidenceRule := .leaf (.present "a")

def Sample.oversized : List (String × Json) := [("a", .number 1), ("b", .number (2 ^ 63))]

/-- A fact outside the range of canonical JSON refuses the evidence as a whole, though no leaf reads
it. -/
theorem evidence_refused_as_a_whole :
    (RuleInput.dict Sample.presence.toDict).expression = .ok Sample.presence ∧
      (∀ l ∈ Sample.presence.leaves, l.Valid ⟨Sample.oversized, 7, "s", "a"⟩) ∧
      Sample.presence.Holds (EvidenceLeaf.Holds ⟨Sample.oversized, 7, "s", "a"⟩) ∧
      evaluateEvidence (some (.dict Sample.presence.toDict)) (some Sample.oversized) 7 "s" "a" =
        false := by
  refine ⟨rfl, fun l hl => ?_, ⟨.number 1, rfl, trivial⟩, by decide +kernel⟩
  rw [List.mem_singleton.mp hl]
  trivial

end Lets
