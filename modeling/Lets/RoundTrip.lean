import Lets.Wire

set_option autoImplicit false

/-!
# What is written to the wire can be read back

For each of the five wire types, what its constructor checks, and that `from_dict` gets back every
record that passes these checks from what `to_dict` made of it.
-/

namespace Lets

open Library

/-! ### Members -/

variable {field : String}

theorem requireIdentifier_ok_iff {s t : String} :
    requireIdentifier field (.text s) = .ok t ↔ isIdentifier s = true ∧ s = t := by
  simp only [requireIdentifier, bind_ok_iff, require_ok_iff, exists_unit_iff, pure_ok_iff,
    isIdentifier, decide_eq_true_eq, and_assoc]

theorem identifier_of {s : String} (h : isIdentifier s = true) :
    requireIdentifier field (.text s) = .ok s :=
  requireIdentifier_ok_iff.mpr ⟨h, rfl⟩

theorem shape_of {shape : String → Bool} {message s : String} (h : shape s = true) :
    requireShape shape message (.text s) = .ok s := by
  simp only [requireShape, bind_ok_iff, require_ok_iff, exists_unit_iff, pure_ok_iff, and_true]
  exact h

theorem positive_of {allowZero : Bool} {n : ℕ} (h : allowZero = true ∨ n ≠ 0)
    (hmax : n ≤ maxResource) : positive field allowZero (.number n) = .ok n := by
  simp only [positive, bind_ok_iff, require_ok_iff, exists_unit_iff, pure_ok_iff, Int.toNat_natCast,
    and_true, Int.ofNat_le]
  exact ⟨⟨Int.natCast_nonneg n, h.imp id Int.natCast_ne_zero.mpr⟩, hmax⟩

theorem mapM_of {α β : Type} {f : α → Outcome β} {g : α → β} {l : List α}
    (h : ∀ a ∈ l, f a = .ok (g a)) : l.mapM f = .ok (l.map g) := by
  induction l with
  | nil => rfl
  | cons a rest ih =>
    rw [List.mapM_cons, h a List.mem_cons_self,
      ih fun a ha => h a (List.mem_cons_of_mem _ ha)]
    rfl

theorem identifiers_of {l : List String} (h : ∀ s ∈ l, isIdentifier s = true) :
    l.mapM (fun s => requireIdentifier field (.text s)) = .ok l := by
  rw [mapM_of (g := id) fun s hs => requireIdentifier_ok_iff.mpr ⟨h s hs, rfl⟩, List.map_id]

theorem strings_of {l : List String} (h : ∀ s ∈ l, s ≠ "") :
    strings field (textArray l) = .ok l := by
  have htexts : (l.map Json.text).mapM (nonEmptyText field) = .ok l := by
    rw [List.mapM_map]
    rw [mapM_of (g := id), List.map_id]
    intro s hs
    simp only [Function.comp, nonEmptyText, bind_ok_iff, require_ok_iff, exists_unit_iff,
      pure_ok_iff, id, and_true]
    exact h s hs
  exact htexts

theorem ne_empty_of_isIdentifier {s : String} (h : isIdentifier s = true) : s ≠ "" := by
  simp only [isIdentifier, decide_eq_true_eq] at h
  exact h.1

theorem ResourceVector.ofList_amounts {d : ℕ} (v : ResourceVector d) :
    ofList v.amounts = ⟨d, v⟩ := by
  have hcast : ∀ {n : ℕ} (hn : n = d) (w : ResourceVector n), (∀ i, w i = v (Fin.cast hn i)) →
      (⟨n, w⟩ : Σ d, ResourceVector d) = ⟨d, v⟩ := by
    rintro n rfl w hw
    rw [ResourceVector.ext hw]
  refine hcast List.length_ofFn _ fun i => ?_
  exact congrArg Subtype.val (List.get_ofFn (fun i => (⟨v i, v.le_max i⟩ : Amount)) i)

theorem mapM_amount (amounts : List Amount) :
    (amounts.map fun n => Json.number n.1).mapM amount = .ok amounts := by
  rw [List.mapM_map, mapM_of (g := id), List.map_id]
  intro n _
  have hneg : ¬((n.1 : ℤ) < 0) := by omega
  have hle : (n.1 : ℤ).toNat ≤ maxResource := n.2
  simp only [Function.comp, amount, dif_neg hneg, dif_pos hle]
  rfl

theorem vector_of {d : ℕ} (hd : 0 < d) (v : ResourceVector d) : vector v.json = .ok ⟨d, v⟩ := by
  have hitems : (v.amounts.map fun n => Json.number n.1).isEmpty = false := by
    rw [List.isEmpty_eq_false_iff, ← List.length_pos_iff, List.length_map]
    exact hd.trans_eq List.length_ofFn.symm
  simp only [vector, ResourceVector.json, vectorItems, bind_ok_iff, pure_ok_iff, require_ok_iff,
    exists_unit_iff]
  exact ⟨_, rfl, hitems, _, mapM_amount v.amounts, v.ofList_amounts⟩

structure LeaseGrant.Valid {d : ℕ} (grant : LeaseGrant d) : Prop where
  dimension : 0 < d
  tenantId : isIdentifier grant.tenantId = true
  envelopeId : isIdentifier grant.envelopeId = true
  leaseId : isIdentifier grant.leaseId = true
  lineageId : isIdentifier grant.lineageId = true
  subjectId : isIdentifier grant.subjectId = true
  policyId : isIdentifier grant.policyId = true
  policyVersion : isIdentifier grant.policyVersion = true
  wardenId : isWardenId grant.wardenId = true
  keyId : isKeyId grant.keyId = true
  parentId : ∀ p ∈ grant.parentId, isIdentifier p = true
  policyDigest : isDigest grant.policyDigest = true
  machineDigest : isDigest grant.machineDigest = true
  configEpoch : grant.configEpoch ≠ 0 ∧ grant.configEpoch ≤ maxResource
  branchEpoch : grant.branchEpoch ≤ maxResource
  expiresAtNs : grant.expiresAtNs ≤ maxResource
  lifetime : grant.issuedAtNs < grant.expiresAtNs
  allocation : grant.allocation.NonZero
  capabilities : ∀ s ∈ grant.capabilities, isIdentifier s = true
  ancestorPath : ∀ s ∈ grant.ancestorPath, isIdentifier s = true
  depth : grant.ancestorPath.length ≤ maxLineageDepth
  acyclic : grant.ancestorPath.Nodup
  notSelf : grant.leaseId ∉ grant.ancestorPath
  root : grant.parentId = none → grant.ancestorPath = []
  child : ∀ p ∈ grant.parentId, grant.ancestorPath.getLast? = some p

theorem optional_of {check : Json → Outcome String} {s : Option String}
    (h : ∀ t ∈ s, check (.text t) = .ok t) : optional check (optionalText s) = .ok s := by
  cases s with
  | none => rfl
  | some t =>
    change some <$> check (.text t) = .ok (some t)
    rw [h t rfl]
    rfl

theorem strict_of {data : List (String × Json)} {allowed required keys : List String} {name : String}
    (hkeys : data.map Prod.fst = keys) (hallowed : keys ⊆ allowed) (hrequired : required ⊆ keys) :
    strict data allowed required name = .ok () := by
  have hunknown : (keys.filter fun key => key ∉ allowed) = [] := by
    refine List.filter_eq_nil_iff.mpr fun key hkey => ?_
    simpa using hallowed hkey
  have hmissing : (required.filter fun key => key ∉ keys) = [] := by
    refine List.filter_eq_nil_iff.mpr fun key hkey => ?_
    simpa using hrequired hkey
  simp only [strict, hkeys, bind_ok_iff, require_ok_iff, exists_unit_iff, hunknown, hmissing,
    List.isEmpty_nil, and_self]

theorem LeaseGrant.fromDict_toDict {d : ℕ} {grant : LeaseGrant d} (h : grant.Valid) :
    fromDict grant.toDict = .ok ⟨d, grant⟩ := by
  have hstrict : strict grant.toDict dictFields (dictFields.erase "parent_id") "lease grant" =
      .ok () := by
    have hkeys : grant.toDict.map Prod.fst = dictFields := rfl
    exact strict_of hkeys (List.Subset.refl _) (by decide)
  have hcapabilities : ∀ s ∈ sortedTexts grant.capabilities, isIdentifier s = true := fun s hs =>
    h.capabilities s ((Finset.mem_sort _).mp hs)
  have hissued : grant.issuedAtNs ≤ maxResource := h.lifetime.le.trans h.expiresAtNs
  have hexpires : grant.expiresAtNs ≠ 0 := Nat.ne_of_gt (Nat.zero_lt_of_lt h.lifetime)
  simp only [fromDict, hstrict, bind_ok_iff, require_ok_iff, exists_unit_iff, pure_ok_iff, true_and]
  simp only [checkType, toDict, unsignedPayload, Json.get, List.cons_append, List.nil_append,
    List.lookup_cons, String.reduceBEq, Option.getD_some]
  refine ⟨rfl, _, vector_of h.dimension _,
    _, strings_of fun s hs => ne_empty_of_isIdentifier (hcapabilities s hs),
    _, strings_of fun s hs => ne_empty_of_isIdentifier (h.ancestorPath s hs),
    _, identifier_of h.tenantId, _, identifier_of h.envelopeId, _, identifier_of h.leaseId,
    _, identifier_of h.lineageId, _, identifier_of h.subjectId, _, identifier_of h.policyId,
    _, identifier_of h.policyVersion, _, shape_of h.wardenId, _, shape_of h.keyId,
    _, optional_of fun p hp => identifier_of (h.parentId p hp), _, shape_of h.policyDigest,
    _, shape_of h.machineDigest, _, positive_of (.inr h.configEpoch.1) h.configEpoch.2,
    _, positive_of (.inl rfl) h.branchEpoch, _, positive_of (.inl rfl) hissued,
    _, positive_of (.inr hexpires) h.expiresAtNs, h.lifetime, h.allocation,
    _, identifiers_of hcapabilities, _, identifiers_of h.ancestorPath, h.depth, h.acyclic,
    h.notSelf, h.root, h.child, _, rfl, ?_⟩
  rw [sortedTexts, Finset.sort_toFinset]

structure Receipt.Valid {d : ℕ} (receipt : Receipt d) : Prop where
  dimension : 0 < d
  tenantId : isIdentifier receipt.tenantId = true
  envelopeId : isIdentifier receipt.envelopeId = true
  receiptId : isIdentifier receipt.receiptId = true
  requestId : isIdentifier receipt.requestId = true
  policyId : isIdentifier receipt.policyId = true
  policyVersion : isIdentifier receipt.policyVersion = true
  leaseId : isIdentifier receipt.leaseId = true
  lineageId : isIdentifier receipt.lineageId = true
  subjectId : isIdentifier receipt.subjectId = true
  executorAudience : isIdentifier receipt.executorAudience = true
  transition : isIdentifier receipt.transition = true
  sourceState : isIdentifier receipt.sourceState = true
  targetState : isIdentifier receipt.targetState = true
  nonce : isIdentifier receipt.nonce = true
  wardenId : isWardenId receipt.wardenId = true
  keyId : isKeyId receipt.keyId = true
  policyDigest : isDigest receipt.policyDigest = true
  machineDigest : isDigest receipt.machineDigest = true
  evidenceDigest : ∀ digest ∈ receipt.evidenceDigest, isDigest digest = true
  configEpoch : receipt.configEpoch ≠ 0 ∧ receipt.configEpoch ≤ maxResource
  resultingSequence : receipt.resultingSequence ≠ 0 ∧ receipt.resultingSequence ≤ maxResource
  expiresAtNs : receipt.expiresAtNs ≤ maxResource
  lifetime : receipt.issuedAtNs < receipt.expiresAtNs

theorem Receipt.fromDict_toDict {d : ℕ} {receipt : Receipt d} (h : receipt.Valid) :
    fromDict receipt.toDict = .ok ⟨d, receipt⟩ := by
  have hstrict : strict receipt.toDict dictFields dictFields "receipt" = .ok () := by
    have hkeys : receipt.toDict.map Prod.fst = dictFields := rfl
    exact strict_of hkeys (List.Subset.refl _) (List.Subset.refl _)
  have hissued : receipt.issuedAtNs ≤ maxResource := h.lifetime.le.trans h.expiresAtNs
  have hexpires : receipt.expiresAtNs ≠ 0 := Nat.ne_of_gt (Nat.zero_lt_of_lt h.lifetime)
  simp only [fromDict, hstrict, bind_ok_iff, require_ok_iff, exists_unit_iff, pure_ok_iff, true_and]
  simp only [checkType, toDict, unsignedPayload, Json.get, List.cons_append, List.nil_append,
    List.lookup_cons, String.reduceBEq, Option.getD_some]
  exact ⟨rfl, _, vector_of h.dimension _, _, identifier_of h.tenantId,
    _, identifier_of h.envelopeId, _, identifier_of h.receiptId, _, identifier_of h.requestId,
    _, identifier_of h.policyId, _, identifier_of h.policyVersion, _, identifier_of h.leaseId,
    _, identifier_of h.lineageId, _, identifier_of h.subjectId, _, identifier_of h.executorAudience,
    _, identifier_of h.transition, _, identifier_of h.sourceState, _, identifier_of h.targetState,
    _, identifier_of h.nonce, _, shape_of h.wardenId, _, shape_of h.keyId,
    _, shape_of h.policyDigest, _, shape_of h.machineDigest,
    _, optional_of fun digest hdigest => shape_of (h.evidenceDigest digest hdigest),
    _, positive_of (.inr h.configEpoch.1) h.configEpoch.2,
    _, positive_of (.inr h.resultingSequence.1) h.resultingSequence.2,
    _, positive_of (.inl rfl) hissued, _, positive_of (.inr hexpires) h.expiresAtNs, h.lifetime,
    _, rfl, rfl⟩

/-- What `validate_lease_request` checks. -/
structure LeaseRequestDict.Valid (request : LeaseRequestDict) : Prop where
  childLeaseId : isIdentifier request.childLeaseId = true
  lineageId : isIdentifier request.lineageId = true
  parentId : isIdentifier request.parentId = true
  subjectId : isIdentifier request.subjectId = true
  capabilities : ∀ s ∈ request.capabilities, s ≠ ""
  capabilities_sorted : request.capabilities.Pairwise (· ≤ ·)
  ancestorPath : ∀ s ∈ request.ancestorPath, s ≠ ""
  child : request.ancestorPath.getLast? = some request.parentId
  acyclic : request.ancestorPath.Nodup
  notSelf : request.childLeaseId ∉ request.ancestorPath
  depth : request.ancestorPath.length ≤ maxLineageDepth
  branchEpoch : request.branchEpoch ≤ maxResource
  expiresAtNs : request.expiresAtNs ≠ 0 ∧ request.expiresAtNs ≤ maxResource

theorem LeaseRequestDict.validateDict_members {request : LeaseRequestDict} (h : request.Valid) :
    validateDict (.object request.members) = .ok request := by
  have hstrict : strict request.members dictFields dictFields "lease request" = .ok () := by
    have hkeys : request.members.map Prod.fst = dictFields := rfl
    exact strict_of hkeys (List.Subset.refl _) (List.Subset.refl _)
  simp only [validateDict, hstrict, bind_ok_iff, require_ok_iff, exists_unit_iff, pure_ok_iff,
    true_and]
  simp only [members, Json.get, List.lookup_cons, String.reduceBEq, Option.getD_some]
  refine ⟨_, identifier_of h.childLeaseId, _, identifier_of h.lineageId,
    _, identifier_of h.parentId, _, identifier_of h.subjectId, _, strings_of h.capabilities,
    _, strings_of h.ancestorPath, h.child, h.acyclic, h.notSelf, h.depth,
    _, positive_of (.inl rfl) h.branchEpoch, _, positive_of (.inr h.expiresAtNs.1) h.expiresAtNs.2,
    ?_⟩
  rw [List.Pairwise.insertionSort_eq h.capabilities_sorted]

structure VoucherDict.Valid {d : ℕ} (voucher : VoucherDict d) : Prop where
  dimension : 0 < d
  tenantId : isIdentifier voucher.tenantId = true
  envelopeId : isIdentifier voucher.envelopeId = true
  transferId : isIdentifier voucher.transferId = true
  policyId : isIdentifier voucher.policyId = true
  policyVersion : isIdentifier voucher.policyVersion = true
  sourceWarden : isWardenId voucher.sourceWarden = true
  targetWarden : isWardenId voucher.targetWarden = true
  keyId : isKeyId voucher.keyId = true
  policyDigest : isDigest voucher.policyDigest = true
  wardens_ne : voucher.sourceWarden ≠ voucher.targetWarden
  configEpoch : voucher.configEpoch ≠ 0 ∧ voucher.configEpoch ≤ maxResource
  sequence : voucher.sequence ≠ 0 ∧ voucher.sequence ≤ maxResource
  issuedAtNs : voucher.issuedAtNs ≤ maxResource
  amount : voucher.amount.NonZero
  leaseRequest : ∀ request ∈ voucher.leaseRequest, request.Valid

namespace VoucherDict

variable {request : Option LeaseRequestDict}

theorem requestOfKind_leaseMembers {signature : String} (h : ∀ r ∈ request, r.Valid) :
    requestOfKind
        (((leaseMembers request ++ [("signature", Json.text signature)]).lookup "kind").getD
          (.text "pool"))
        (((leaseMembers request ++ [("signature", Json.text signature)]).lookup
          "lease_request").getD .null) = .ok request := by
  cases request with
  | none => rfl
  | some r =>
    change some <$> LeaseRequestDict.validateDict (.object r.members) = .ok (some r)
    rw [LeaseRequestDict.validateDict_members (h r rfl)]
    rfl

theorem lookup_signature {signature : String} :
    (leaseMembers request ++ [("signature", Json.text signature)]).lookup "signature" =
      some (.text signature) := by
  cases request <;> rfl

theorem fromDict_toDict {d : ℕ} {voucher : VoucherDict d} (h : voucher.Valid) :
    fromDict voucher.toDict = .ok ⟨d, voucher⟩ := by
  have hstrict : strict voucher.toDict dictFields
      ((dictFields.erase "kind").erase "lease_request") "transfer voucher" = .ok () := by
    have hkeys : voucher.toDict.map Prod.fst = ["type", "tenant_id", "envelope_id", "config_epoch",
        "transfer_id", "source_warden", "target_warden", "policy_id", "policy_version",
        "policy_digest", "sequence", "amount", "issued_at_ns", "key_id"] ++
          ((leaseMembers voucher.leaseRequest).map Prod.fst ++ ["signature"]) := by
      simp only [toDict, unsignedPayload, List.map_append, List.append_assoc]
      rfl
    cases hrequest : voucher.leaseRequest with
    | none =>
      rw [hrequest] at hkeys
      exact strict_of hkeys (by decide) (by decide)
    | some request =>
      have hmembers : (leaseMembers (some request)).map Prod.fst = ["kind", "lease_request"] := rfl
      rw [hrequest, hmembers] at hkeys
      exact strict_of hkeys (by decide) (by decide)
  simp only [fromDict, hstrict, bind_ok_iff, require_ok_iff, exists_unit_iff, pure_ok_iff, true_and]
  simp only [checkType, toDict, unsignedPayload, Json.get, List.cons_append, List.nil_append,
    List.lookup_cons, String.reduceBEq, Option.getD_some]
  exact ⟨rfl, _, vector_of h.dimension _, _, identifier_of h.tenantId,
    _, identifier_of h.envelopeId, _, identifier_of h.transferId, _, identifier_of h.policyId,
    _, identifier_of h.policyVersion, _, shape_of h.sourceWarden, _, shape_of h.targetWarden,
    _, shape_of h.keyId, _, shape_of h.policyDigest, h.wardens_ne,
    _, positive_of (.inr h.configEpoch.1) h.configEpoch.2,
    _, positive_of (.inr h.sequence.1) h.sequence.2, _, positive_of (.inl rfl) h.issuedAtNs,
    h.amount, _, requestOfKind_leaseMembers h.leaseRequest,
    _, (congrArg (fun v => signatureText (Option.getD v .null)) lookup_signature).trans rfl, rfl⟩

end VoucherDict

structure TransferAck.Valid (ack : TransferAck) : Prop where
  tenantId : isIdentifier ack.tenantId = true
  envelopeId : isIdentifier ack.envelopeId = true
  transferId : isIdentifier ack.transferId = true
  sourceWarden : isWardenId ack.sourceWarden = true
  targetWarden : isWardenId ack.targetWarden = true
  keyId : isKeyId ack.keyId = true
  voucherDigest : isDigest ack.voucherDigest = true
  configEpoch : ack.configEpoch ≠ 0 ∧ ack.configEpoch ≤ maxResource
  sequence : ack.sequence ≠ 0 ∧ ack.sequence ≤ maxResource
  contiguousWatermark : ack.contiguousWatermark ≤ maxResource
  acceptedAtNs : ack.acceptedAtNs ≤ maxResource
  child : ∀ c ∈ ack.child, isIdentifier c.1 = true

namespace TransferAck

variable {child : Option (String × ChildOutcome)}

theorem childOf_childMembers {signature : String} (h : ∀ c ∈ child, isIdentifier c.1 = true) :
    childOf
        (((childMembers child ++ [("signature", Json.text signature)]).lookup
          "child_lease_id").getD .null)
        (((childMembers child ++ [("signature", Json.text signature)]).lookup
          "child_outcome").getD .null) = .ok child := by
  cases child with
  | none => rfl
  | some c =>
    obtain ⟨childLeaseId, outcome⟩ := c
    have hchild : requireIdentifier "child_lease_id" (.text childLeaseId) = .ok childLeaseId :=
      identifier_of (h _ rfl)
    have houtcome : childOutcome (.text outcome.name) = .ok outcome := by cases outcome <;> rfl
    change (requireIdentifier "child_lease_id" (.text childLeaseId) >>= fun childLeaseId =>
      childOutcome (.text outcome.name) >>= fun outcome => pure (some (childLeaseId, outcome))) = _
    rw [hchild, houtcome]
    rfl

theorem lookup_signature {signature : String} :
    (childMembers child ++ [("signature", Json.text signature)]).lookup "signature" =
      some (.text signature) := by
  cases child <;> rfl

theorem fromDict_toDict {ack : TransferAck} (h : ack.Valid) : fromDict ack.toDict = .ok ack := by
  have hstrict : strict ack.toDict dictFields
      ((dictFields.erase "child_lease_id").erase "child_outcome") "transfer acknowledgement" =
        .ok () := by
    have hkeys : ack.toDict.map Prod.fst = ["type", "tenant_id", "envelope_id", "config_epoch",
        "transfer_id", "source_warden", "target_warden", "sequence", "voucher_digest",
        "accepted_at_ns", "contiguous_watermark", "key_id"] ++
          ((childMembers ack.child).map Prod.fst ++ ["signature"]) := by
      simp only [toDict, unsignedPayload, List.map_append, List.append_assoc]
      rfl
    cases hchild : ack.child with
    | none =>
      rw [hchild] at hkeys
      exact strict_of hkeys (by decide) (by decide)
    | some child =>
      have hmembers : (childMembers (some child)).map Prod.fst =
        ["child_lease_id", "child_outcome"] := rfl
      rw [hchild, hmembers] at hkeys
      exact strict_of hkeys (by decide) (by decide)
  simp only [fromDict, hstrict, bind_ok_iff, exists_unit_iff, pure_ok_iff, true_and]
  simp only [checkType, toDict, unsignedPayload, Json.get, List.cons_append, List.nil_append,
    List.lookup_cons, String.reduceBEq, Option.getD_some]
  exact ⟨rfl, _, identifier_of h.tenantId, _, identifier_of h.envelopeId,
    _, identifier_of h.transferId, _, shape_of h.sourceWarden, _, shape_of h.targetWarden,
    _, shape_of h.keyId, _, shape_of h.voucherDigest,
    _, positive_of (.inr h.configEpoch.1) h.configEpoch.2,
    _, positive_of (.inr h.sequence.1) h.sequence.2,
    _, positive_of (.inl rfl) h.contiguousWatermark, _, positive_of (.inl rfl) h.acceptedAtNs,
    _, childOf_childMembers h.child,
    _, (congrArg (fun v => signatureText (Option.getD v .null)) lookup_signature).trans rfl, rfl⟩

end TransferAck

structure BranchRevocation.Valid (revocation : BranchRevocation) : Prop where
  tenantId : isIdentifier revocation.tenantId = true
  envelopeId : isIdentifier revocation.envelopeId = true
  branchLeaseId : isIdentifier revocation.branchLeaseId = true
  lineageId : isIdentifier revocation.lineageId = true
  issuerWarden : isWardenId revocation.issuerWarden = true
  keyId : isKeyId revocation.keyId = true
  configEpoch : revocation.configEpoch ≠ 0 ∧ revocation.configEpoch ≤ maxResource
  epoch : revocation.epoch ≠ 0 ∧ revocation.epoch ≤ maxResource
  issuedAtNs : revocation.issuedAtNs ≤ maxResource
  reason : 0 < revocation.reason.length ∧ revocation.reason.length ≤ 1000

theorem BranchRevocation.fromDict_toDict {revocation : BranchRevocation} (h : revocation.Valid) :
    fromDict revocation.toDict = .ok revocation := by
  have hstrict : strict revocation.toDict dictFields dictFields "branch revocation" = .ok () := by
    have hkeys : revocation.toDict.map Prod.fst = dictFields := rfl
    exact strict_of hkeys (List.Subset.refl _) (List.Subset.refl _)
  have hreason : reasonText (.text revocation.reason) = .ok revocation.reason := by
    simp only [reasonText, bind_ok_iff, require_ok_iff, exists_unit_iff, pure_ok_iff, and_true]
    exact h.reason
  simp only [fromDict, hstrict, bind_ok_iff, exists_unit_iff, pure_ok_iff, true_and]
  simp only [checkType, toDict, unsignedPayload, Json.get, List.cons_append, List.nil_append,
    List.lookup_cons, String.reduceBEq, Option.getD_some]
  exact ⟨rfl, _, identifier_of h.tenantId, _, identifier_of h.envelopeId,
    _, identifier_of h.branchLeaseId, _, identifier_of h.lineageId, _, shape_of h.issuerWarden,
    _, shape_of h.keyId, _, positive_of (.inr h.configEpoch.1) h.configEpoch.2,
    _, positive_of (.inr h.epoch.1) h.epoch.2, _, positive_of (.inl rfl) h.issuedAtNs, _, hreason,
    _, rfl, rfl⟩

end Lets
