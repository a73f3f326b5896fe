import Lets.PeerAuthentication
import Lets.RoundTrip

set_option autoImplicit false

/-!
# What a warden's key signs

The five wire records are signed as they are, without their signature; events of the audit log and
transfer checkpoints inside an object that names their kind; requests between peers as a description
of their own.
-/

namespace Lets

open Library

/-! ### Objects with the same bytes -/

theorem eq_of_perm_of_keys_eq {β : Type} {l l' : List (String × β)} (hperm : l.Perm l')
    (hkeys : l.map Prod.fst = l'.map Prod.fst) (hnodup : (l.map Prod.fst).Nodup) : l = l' := by
  induction l generalizing l' with
  | nil => exact hperm.nil_eq
  | cons a rest ih =>
    cases l' with
    | nil => exact absurd hperm.length_eq (by simp)
    | cons b rest' =>
      rw [List.map_cons, List.map_cons] at hkeys
      rw [List.map_cons] at hnodup
      obtain ⟨hkey, hrest⟩ := List.cons.inj hkeys
      have hab : a = b := by
        rcases List.mem_cons.mp (hperm.mem_iff.mp List.mem_cons_self) with hab | hmem
        · exact hab
        · have hin : a.1 ∈ rest.map Prod.fst := hrest ▸ List.mem_map_of_mem hmem
          exact absurd hin (List.nodup_cons.mp hnodup).1
      subst hab
      rw [ih hperm.cons_inv hrest (List.nodup_cons.mp hnodup).2]

namespace Json

variable {members members' : List (String × Json)}

theorem keys_normalizeMembers (members : List (String × Json)) :
    (normalizeMembers members).map Prod.fst = members.map Prod.fst := by
  rw [normalizeMembers_eq, List.map_map]
  rfl

theorem perm_of_same (h : Same (.object members) (.object members')) :
    (normalizeMembers members).Perm (normalizeMembers members') := by
  rw [Same, normalize, normalize] at h
  have hsorted := byKey_perm (normalizeMembers members)
  rw [Json.object.inj h] at hsorted
  exact hsorted.symm.trans (byKey_perm _)

theorem keys_of_same (h : Same (.object members) (.object members')) :
    (members.map Prod.fst).Perm (members'.map Prod.fst) := by
  rw [← keys_normalizeMembers members, ← keys_normalizeMembers members']
  exact (perm_of_same h).map _

theorem values_of_same (keys : List String) (hnodup : keys.Nodup)
    (h : Same (.object members) (.object members')) (hkeys : members.map Prod.fst = keys)
    (hkeys' : members'.map Prod.fst = keys) :
    members.map (fun m => m.2.normalize) = members'.map fun m => m.2.normalize := by
  rw [← keys_normalizeMembers] at hkeys hkeys'
  have heq := eq_of_perm_of_keys_eq (perm_of_same h) (hkeys.trans hkeys'.symm) (hkeys ▸ hnodup)
  have hvalues := congrArg (List.map Prod.snd) heq
  rw [normalizeMembers_eq, normalizeMembers_eq, List.map_map, List.map_map] at hvalues
  exact hvalues

def valuesAt (key : String) (members : List (String × Json)) : List Json :=
  (members.filter fun m => m.1 = key).map Prod.snd

theorem valuesAt_of_same (h : Same (.object members) (.object members')) (key : String) :
    (valuesAt key (normalizeMembers members)).Perm (valuesAt key (normalizeMembers members')) :=
  ((perm_of_same h).filter _).map _

theorem valuesAt_normalizeMembers (key : String) (members : List (String × Json)) :
    valuesAt key (normalizeMembers members) = (valuesAt key members).map normalize := by
  rw [normalizeMembers_eq, valuesAt, valuesAt, List.filter_map, List.map_map, List.map_map]
  rfl

@[simp] theorem normalize_textArray (l : List String) : (textArray l).normalize = textArray l := by
  rw [textArray, normalize, normalizeItems_eq, List.map_map]
  rfl

@[simp] theorem normalize_vector {d : ℕ} (v : ResourceVector d) : v.json.normalize = v.json := by
  rw [ResourceVector.json, normalize, normalizeItems_eq, List.map_map]
  rfl

@[simp] theorem normalize_optionalText (s : Option String) :
    (optionalText s).normalize = optionalText s := by
  cases s <;> rfl

@[simp] theorem textArray_inj {l l' : List String} : textArray l = textArray l' ↔ l = l' := by
  rw [textArray, textArray, Json.array.injEq]
  exact (List.map_injective_iff.mpr fun _ _ => Json.text.inj).eq_iff

@[simp] theorem optionalText_inj {s s' : Option String} :
    optionalText s = optionalText s' ↔ s = s' := by
  cases s <;> cases s' <;> simp [optionalText]

@[simp] theorem sortedTexts_inj {s s' : Finset String} :
    sortedTexts s = sortedTexts s' ↔ s = s' := by
  refine ⟨fun h => ?_, congrArg _⟩
  rw [← Finset.sort_toFinset s (· ≤ ·), ← Finset.sort_toFinset s' (· ≤ ·)]
  exact congrArg List.toFinset h

theorem vector_inj {d d' : ℕ} {v : ResourceVector d} {v' : ResourceVector d'}
    (h : v.json = v'.json) : (⟨d, v⟩ : Σ d, ResourceVector d) = ⟨d', v'⟩ := by
  rw [ResourceVector.json, ResourceVector.json, Json.array.injEq] at h
  have hinj : Function.Injective fun n : Amount => Json.number n.1 := fun a b hab =>
    Subtype.ext (Int.ofNat.inj (Json.number.inj hab))
  rw [← v.ofList_amounts, ← v'.ofList_amounts, List.map_injective_iff.mpr hinj h]

theorem vector_inj_iff {d d' : ℕ} {v : ResourceVector d} {v' : ResourceVector d'} :
    v.json = v'.json ↔ d = d' ∧ v ≍ v' := by
  refine ⟨fun h => Sigma.mk.inj_iff.mp (vector_inj h), ?_⟩
  rintro ⟨rfl, h⟩
  rw [eq_of_heq h]

end Json

/-! ### The signed objects -/

/-- An event of the audit log, as `_append_audit` signs it. -/
structure AuditEvent where
  sequence : ℕ
  eventType : String
  tenantId : String
  envelopeId : String
  entityType : Option String
  entityId : Option String
  actorId : String
  occurredAtNs : ℕ
  details : List (String × Json)

def AuditEvent.body (event : AuditEvent) : List (String × Json) :=
  [("sequence", .number event.sequence), ("event_type", .text event.eventType),
    ("tenant_id", .text event.tenantId), ("envelope_id", .text event.envelopeId),
    ("entity_type", optionalText event.entityType), ("entity_id", optionalText event.entityId),
    ("actor_id", .text event.actorId), ("occurred_at_ns", .number event.occurredAtNs),
    ("details", .object event.details)]

def TransferCheckpoint.body (checkpoint : TransferCheckpoint) : List (String × Json) :=
  [("type", .text "lets.transfer-checkpoint/v1"), ("tenant_id", .text checkpoint.tenantId),
    ("envelope_id", .text checkpoint.envelopeId), ("config_epoch", .number checkpoint.configEpoch),
    ("source_warden", .text checkpoint.sourceWarden),
    ("target_warden", .text checkpoint.targetWarden),
    ("through_sequence", .number checkpoint.throughSequence),
    ("issued_at_ns", .number checkpoint.issuedAtNs)]

/-- The object `_sign` signs. -/
def signingObject (kind : String) (payload : List (String × Json)) : List (String × Json) :=
  [("kind", .text kind), ("payload", .object payload)]

inductive SignedKind
  | grant | receipt | voucher | ack | revocation | auditEvent | checkpoint | peerMessage
  deriving DecidableEq

/-- The wire type that the signed object has for its `type`, where it has one. -/
def SignedKind.wireType : SignedKind → Option String
  | grant => some "lets.lease-grant/v1"
  | receipt => some "lets.receipt/v1"
  | voucher => some "lets.transfer-voucher/v1"
  | ack => some "lets.transfer-ack/v1"
  | revocation => some "lets.branch-revocation/v1"
  | auditEvent => none
  | checkpoint => none
  | peerMessage => some "lets.peer-http-signature/v1"

theorem SignedKind.wireType_inj {k k' : SignedKind} (h : k.wireType = k'.wireType) :
    k = k' ∨ k.wireType = none ∧ k'.wireType = none := by
  cases k <;> cases k' <;> simp [SignedKind.wireType] at h ⊢

/-- Everything that is signed with the key of a warden, resource vectors in any dimension. -/
inductive SignedContent
  | grant (d : ℕ) (grant : LeaseGrant d)
  | receipt (d : ℕ) (receipt : Receipt d)
  | voucher (d : ℕ) (voucher : VoucherDict d)
  | ack (ack : TransferAck)
  | revocation (revocation : BranchRevocation)
  | auditEvent (event : AuditEvent)
  | checkpoint (checkpoint : TransferCheckpoint)
  | peerMessage (message : PeerMessage)

namespace SignedContent

def kind : SignedContent → SignedKind
  | grant .. => .grant
  | receipt .. => .receipt
  | voucher .. => .voucher
  | ack _ => .ack
  | revocation _ => .revocation
  | auditEvent _ => .auditEvent
  | checkpoint _ => .checkpoint
  | peerMessage _ => .peerMessage

def signedMembers : SignedContent → List (String × Json)
  | grant _ g => g.unsignedPayload
  | receipt _ r => r.unsignedPayload
  | voucher _ v => v.unsignedPayload
  | ack a => a.unsignedPayload
  | revocation r => r.unsignedPayload
  | auditEvent e => signingObject "audit-event/v1" e.body
  | checkpoint c => signingObject "transfer-checkpoint/v1" c.body
  | peerMessage m => m.body

def message (content : SignedContent) : Outcome Bytes :=
  canonicalJson (.object content.signedMembers)

/-- The contents without the signature, and without the key id where it is added to what has been
signed; the order of the details of an event and the case of a method are not told apart. -/
def unsigned : SignedContent → SignedContent
  | grant d g => .grant d { g with signature := "" }
  | receipt d r => .receipt d { r with signature := "" }
  | voucher d v => .voucher d { v with signature := "" }
  | ack a => .ack { a with signature := "" }
  | revocation r => .revocation { r with signature := "" }
  | auditEvent e => .auditEvent { e with details := byKey (Json.normalizeMembers e.details) }
  | checkpoint c => .checkpoint { c with keyId := "", signature := "" }
  | peerMessage m => .peerMessage { m with method := m.method.toUpper }

theorem valuesAt_type (content : SignedContent) :
    Json.valuesAt "type" (Json.normalizeMembers content.signedMembers) =
      content.kind.wireType.toList.map .text := by
  rw [Json.valuesAt_normalizeMembers]
  cases content with
  | voucher d voucher =>
    cases hrequest : voucher.leaseRequest <;>
      simp [signedMembers, VoucherDict.unsignedPayload, hrequest, VoucherDict.leaseMembers,
        Json.valuesAt, kind, SignedKind.wireType, Json.normalize]
  | ack ack =>
    cases hchild : ack.child <;>
      simp [signedMembers, TransferAck.unsignedPayload, hchild, TransferAck.childMembers,
        Json.valuesAt, kind, SignedKind.wireType, Json.normalize]
  | _ => rfl

variable {a b : SignedContent}

theorem wireType_of_same (h : Json.Same (.object a.signedMembers) (.object b.signedMembers)) :
    a.kind.wireType = b.kind.wireType := by
  have htype := Json.valuesAt_of_same h "type"
  rw [valuesAt_type, valuesAt_type] at htype
  have hlength := htype.length_eq
  cases ha : a.kind.wireType with
  | none =>
    cases hb : b.kind.wireType with
    | none => rfl
    | some t => rw [ha, hb] at hlength; cases hlength
  | some s =>
    cases hb : b.kind.wireType with
    | none => rw [ha, hb] at hlength; cases hlength
    | some t =>
      rw [ha, hb] at htype
      rw [Json.text.inj (List.singleton_perm_singleton.mp htype)]

variable {content : SignedContent}

theorem of_wireType_none (h : content.kind.wireType = none) :
    (∃ e, content = .auditEvent e) ∨ ∃ c, content = .checkpoint c := by
  cases content with
  | auditEvent e => exact .inl ⟨e, rfl⟩
  | checkpoint c => exact .inr ⟨c, rfl⟩
  | _ => cases h

theorem kind_eq_of_signingObject {kind kind' : String} {payload payload' : List (String × Json)}
    (h : Json.Same (.object (signingObject kind payload))
      (.object (signingObject kind' payload'))) :
    kind = kind' ∧ Json.Same (.object payload) (.object payload') := by
  have hvalues := Json.values_of_same ["kind", "payload"] (by decide) h rfl rfl
  simp only [signingObject, List.map_cons, List.map_nil, List.cons.injEq, and_true] at hvalues
  exact ⟨Json.text.inj hvalues.1, hvalues.2⟩

theorem kind_of_same (h : Json.Same (.object a.signedMembers) (.object b.signedMembers)) :
    a.kind = b.kind := by
  rcases SignedKind.wireType_inj (wireType_of_same h) with hkind | ⟨ha, hb⟩
  · exact hkind
  · rcases of_wireType_none ha with ⟨e, rfl⟩ | ⟨c, rfl⟩ <;>
      rcases of_wireType_none hb with ⟨e', rfl⟩ | ⟨c', rfl⟩
    · rfl
    · exact absurd (kind_eq_of_signingObject h).1 (by decide)
    · exact absurd (kind_eq_of_signingObject h).1 (by decide)
    · rfl

theorem grant_of_same {d d' : ℕ} {g : LeaseGrant d} {g' : LeaseGrant d'}
    (h : Json.Same (.object g.unsignedPayload) (.object g'.unsignedPayload)) :
    unsigned (.grant d g) = unsigned (.grant d' g') := by
  have hvalues := Json.values_of_same LeaseGrant.dictFields.dropLast (by decide) h rfl rfl
  simp only [LeaseGrant.unsignedPayload, List.map_cons, List.map_nil, Json.normalize,
    Json.normalize_vector, Json.normalize_textArray, Json.normalize_optionalText, List.cons.injEq,
    Json.text.injEq, Json.number.injEq, Json.textArray_inj, Json.optionalText_inj,
    Json.sortedTexts_inj, Json.vector_inj_iff, Int.natCast_inj, and_true, true_and] at hvalues
  obtain rfl : d = d' := by simp only [hvalues]
  cases g
  cases g'
  simp_all [unsigned]

theorem receipt_of_same {d d' : ℕ} {r : Receipt d} {r' : Receipt d'}
    (h : Json.Same (.object r.unsignedPayload) (.object r'.unsignedPayload)) :
    unsigned (.receipt d r) = unsigned (.receipt d' r') := by
  have hvalues := Json.values_of_same Receipt.dictFields.dropLast (by decide) h rfl rfl
  simp only [Receipt.unsignedPayload, List.map_cons, List.map_nil, Json.normalize,
    Json.normalize_vector, Json.normalize_optionalText, List.cons.injEq, Json.text.injEq,
    Json.number.injEq, Json.optionalText_inj, Json.vector_inj_iff, Int.natCast_inj, and_true,
    true_and] at hvalues
  obtain rfl : d = d' := by simp only [hvalues]
  cases r
  cases r'
  simp_all [unsigned]

theorem request_of_same {r r' : LeaseRequestDict}
    (h : Json.Same (.object r.members) (.object r'.members)) : r = r' := by
  have hvalues := Json.values_of_same LeaseRequestDict.dictFields (by decide) h rfl rfl
  simp only [LeaseRequestDict.members, List.map_cons, List.map_nil, Json.normalize,
    Json.normalize_textArray, List.cons.injEq, Json.text.injEq, Json.number.injEq,
    Json.textArray_inj, Int.natCast_inj, and_true] at hvalues
  cases r
  cases r'
  simp_all

def voucherFields : List String := VoucherDict.dictFields.take 14

theorem voucher_of_same {d d' : ℕ} {v : VoucherDict d} {v' : VoucherDict d'}
    (h : Json.Same (.object v.unsignedPayload) (.object v'.unsignedPayload)) :
    unsigned (.voucher d v) = unsigned (.voucher d' v') := by
  have hlength := (Json.keys_of_same h).length_eq
  -- a lease voucher has two members more than a pool voucher
  cases hv : v.leaseRequest with
  | none =>
    cases hv' : v'.leaseRequest with
    | some r' => simp [VoucherDict.unsignedPayload, VoucherDict.leaseMembers, hv, hv'] at hlength
    | none =>
      simp only [VoucherDict.unsignedPayload, hv, hv', VoucherDict.leaseMembers,
        List.append_nil] at h
      have hvalues := Json.values_of_same voucherFields (by decide) h rfl rfl
      simp only [List.map_cons, List.map_nil, Json.normalize,
        Json.normalize_vector, List.cons.injEq, Json.text.injEq, Json.number.injEq,
        Json.vector_inj_iff, Int.natCast_inj, and_true, true_and] at hvalues
      obtain rfl : d = d' := by simp only [hvalues]
      cases v
      cases v'
      simp_all [unsigned]
  | some r =>
    cases hv' : v'.leaseRequest with
    | none => simp [VoucherDict.unsignedPayload, VoucherDict.leaseMembers, hv, hv'] at hlength
    | some r' =>
      simp only [VoucherDict.unsignedPayload, hv, hv', VoucherDict.leaseMembers, List.cons_append,
        List.nil_append] at h
      have hvalues := Json.values_of_same (voucherFields ++ ["kind", "lease_request"]) (by decide)
        h rfl rfl
      simp only [List.map_cons, List.map_nil, Json.normalize,
        Json.normalize_vector, List.cons.injEq, Json.text.injEq, Json.number.injEq,
        Json.vector_inj_iff, Int.natCast_inj, and_true, true_and] at hvalues
      obtain rfl : d = d' := by simp only [hvalues]
      have hrequest : Json.Same (.object r.members) (.object r'.members) := by
        simp only [Json.Same, Json.normalize, hvalues]
      obtain rfl := request_of_same hrequest
      cases v
      cases v'
      simp_all [unsigned]

theorem revocation_of_same {r r' : BranchRevocation}
    (h : Json.Same (.object r.unsignedPayload) (.object r'.unsignedPayload)) :
    unsigned (.revocation r) = unsigned (.revocation r') := by
  have hvalues := Json.values_of_same BranchRevocation.dictFields.dropLast (by decide) h rfl rfl
  simp only [BranchRevocation.unsignedPayload, List.map_cons, List.map_nil, Json.normalize,
    List.cons.injEq, Json.text.injEq, Json.number.injEq, Int.natCast_inj, and_true, true_and]
    at hvalues
  cases r
  cases r'
  simp_all [unsigned]

def ackFields : List String := TransferAck.dictFields.take 12

theorem ack_of_same {a a' : TransferAck}
    (h : Json.Same (.object a.unsignedPayload) (.object a'.unsignedPayload)) :
    unsigned (.ack a) = unsigned (.ack a') := by
  have hlength := (Json.keys_of_same h).length_eq
  cases ha : a.child with
  | none =>
    cases ha' : a'.child with
    | some c' => simp [TransferAck.unsignedPayload, TransferAck.childMembers, ha, ha'] at hlength
    | none =>
      simp only [TransferAck.unsignedPayload, ha, ha', TransferAck.childMembers,
        List.append_nil] at h
      have hvalues := Json.values_of_same ackFields (by decide) h rfl rfl
      simp only [List.map_cons, List.map_nil, Json.normalize,
        List.cons.injEq, Json.text.injEq, Json.number.injEq, Int.natCast_inj, and_true,
        true_and] at hvalues
      cases a
      cases a'
      simp_all [unsigned]
  | some c =>
    cases ha' : a'.child with
    | none => simp [TransferAck.unsignedPayload, TransferAck.childMembers, ha, ha'] at hlength
    | some c' =>
      obtain ⟨childLeaseId, outcome⟩ := c
      obtain ⟨childLeaseId', outcome'⟩ := c'
      have hname : outcome.name = outcome'.name → outcome = outcome' := by
        cases outcome <;> cases outcome' <;> decide
      simp only [TransferAck.unsignedPayload, ha, ha', TransferAck.childMembers, List.cons_append,
        List.nil_append] at h
      have hvalues := Json.values_of_same (ackFields ++ ["child_lease_id", "child_outcome"])
        (by decide) h rfl rfl
      simp only [List.map_cons, List.map_nil, Json.normalize,
        List.cons.injEq, Json.text.injEq, Json.number.injEq, Int.natCast_inj, and_true,
        true_and] at hvalues
      obtain rfl : outcome = outcome' := hname (by simp only [hvalues])
      cases a
      cases a'
      simp_all [unsigned]

theorem event_of_same {e e' : AuditEvent}
    (h : Json.Same (.object e.body) (.object e'.body)) :
    unsigned (.auditEvent e) = unsigned (.auditEvent e') := by
  have hvalues := Json.values_of_same ["sequence", "event_type", "tenant_id", "envelope_id",
    "entity_type", "entity_id", "actor_id", "occurred_at_ns", "details"] (by decide) h rfl rfl
  simp only [AuditEvent.body, List.map_cons, List.map_nil, Json.normalize_optionalText,
    List.cons.injEq, Json.text.injEq,
    Json.number.injEq, Json.optionalText_inj, Json.normalize, Json.object.injEq, Int.natCast_inj,
    and_true] at hvalues
  cases e
  cases e'
  simp_all [unsigned]

theorem checkpoint_of_same {c c' : TransferCheckpoint}
    (h : Json.Same (.object c.body) (.object c'.body)) :
    unsigned (.checkpoint c) = unsigned (.checkpoint c') := by
  have hvalues := Json.values_of_same ["type", "tenant_id", "envelope_id", "config_epoch",
    "source_warden", "target_warden", "through_sequence", "issued_at_ns"] (by decide) h rfl rfl
  simp only [TransferCheckpoint.body, List.map_cons, List.map_nil, Json.normalize,
    List.cons.injEq, Json.text.injEq, Json.number.injEq, Int.natCast_inj, and_true, true_and]
    at hvalues
  cases c
  cases c'
  simp_all [unsigned]

theorem peerMessage_of_same {m m' : PeerMessage}
    (h : Json.Same (.object m.body) (.object m'.body)) :
    unsigned (.peerMessage m) = unsigned (.peerMessage m') := by
  have hvalues := Json.values_of_same ["type", "method", "path", "content_digest", "timestamp_s",
    "nonce", "warden_id", "key_id"] (by decide) h rfl rfl
  simp only [PeerMessage.body, List.map_cons, List.map_nil, Json.normalize, List.cons.injEq,
    Json.text.injEq, Json.number.injEq, Int.natCast_inj, and_true, true_and] at hvalues
  cases m
  cases m'
  simp_all [unsigned]

theorem unsigned_of_same (h : Json.Same (.object a.signedMembers) (.object b.signedMembers)) :
    a.unsigned = b.unsigned := by
  have hkind := kind_of_same h
  cases a with
  | grant d g => cases b with
    | grant d' g' => exact grant_of_same h
    | _ => cases hkind
  | receipt d r => cases b with
    | receipt d' r' => exact receipt_of_same h
    | _ => cases hkind
  | voucher d v => cases b with
    | voucher d' v' => exact voucher_of_same h
    | _ => cases hkind
  | ack a => cases b with
    | ack a' => exact ack_of_same h
    | _ => cases hkind
  | revocation r => cases b with
    | revocation r' => exact revocation_of_same h
    | _ => cases hkind
  | auditEvent e => cases b with
    | auditEvent e' => exact event_of_same (kind_eq_of_signingObject h).2
    | _ => cases hkind
  | checkpoint c => cases b with
    | checkpoint c' => exact checkpoint_of_same (kind_eq_of_signingObject h).2
    | _ => cases hkind
  | peerMessage m => cases b with
    | peerMessage m' => exact peerMessage_of_same h
    | _ => cases hkind

/-! ### Valid contents have bytes to sign -/

theorem numberFits_of {n : ℕ} (h : n ≤ maxResource) : Json.numberFits n = true := by
  rw [Json.numberFits, decide_eq_true_eq]
  unfold maxResource at h
  omega

theorem itemsFit_of {items : List Json} (h : ∀ item ∈ items, item.fits = true) :
    Json.itemsFit items = true := by
  induction items with
  | nil => rfl
  | cons item rest ih =>
    rw [Json.itemsFit, h item List.mem_cons_self,
      ih fun item hmem => h item (List.mem_cons_of_mem _ hmem)]
    rfl

@[simp] theorem fits_textArray (l : List String) : (textArray l).fits = true := by
  refine itemsFit_of fun item hmem => ?_
  obtain ⟨s, _, rfl⟩ := List.mem_map.mp hmem
  rfl

@[simp] theorem fits_vector {d : ℕ} (v : ResourceVector d) : v.json.fits = true := by
  refine itemsFit_of fun item hmem => ?_
  obtain ⟨n, _, rfl⟩ := List.mem_map.mp hmem
  exact numberFits_of n.2

@[simp] theorem fits_optionalText (s : Option String) : (optionalText s).fits = true := by
  cases s <;> rfl

/-- What is signed for it has been accepted: by its constructor, or by what makes it. -/
def Valid : SignedContent → Prop
  | grant _ g => g.Valid
  | receipt _ r => r.Valid
  | voucher _ v => v.Valid
  | ack a => a.Valid
  | revocation r => r.Valid
  | auditEvent e => e.sequence ≤ maxResource ∧ e.occurredAtNs ≤ maxResource ∧
      Json.membersFit e.details = true
  | checkpoint c => c.configEpoch ≤ maxResource ∧ c.throughSequence ≤ maxResource ∧
      c.issuedAtNs ≤ maxResource
  | peerMessage m => m.timestampS ≤ maxResource

theorem fits_object (members : List (String × Json)) :
    (Json.object members).fits = Json.membersFit members := rfl

theorem membersFit_append (members members' : List (String × Json)) :
    Json.membersFit (members ++ members') =
      (Json.membersFit members && Json.membersFit members') := by
  induction members with
  | nil => rfl
  | cons m rest ih => rw [List.cons_append, Json.membersFit, Json.membersFit, ih, Bool.and_assoc]

theorem leaseMembers_fit {request : Option LeaseRequestDict} (h : ∀ r ∈ request, r.Valid) :
    Json.membersFit (VoucherDict.leaseMembers request) = true := by
  cases request with
  | none => rfl
  | some r =>
    have hr := h r rfl
    simp only [VoucherDict.leaseMembers, LeaseRequestDict.members, Json.membersFit, Json.fits,
      fits_textArray, numberFits_of hr.branchEpoch, numberFits_of hr.expiresAtNs.2,
      Bool.and_self]

theorem childMembers_fit (child : Option (String × ChildOutcome)) :
    Json.membersFit (TransferAck.childMembers child) = true := by
  cases child <;> rfl

theorem fits_of_valid (h : content.Valid) : (Json.object content.signedMembers).fits = true := by
  rw [fits_object]
  cases content with
  | grant d g =>
    simp only [signedMembers, LeaseGrant.unsignedPayload, Json.membersFit, Json.fits, fits_vector,
      fits_textArray, fits_optionalText, numberFits_of h.configEpoch.2, numberFits_of h.branchEpoch,
      numberFits_of (h.lifetime.le.trans h.expiresAtNs), numberFits_of h.expiresAtNs, Bool.and_self]
  | receipt d r =>
    simp only [signedMembers, Receipt.unsignedPayload, Json.membersFit, Json.fits, fits_vector,
      fits_optionalText, numberFits_of h.configEpoch.2, numberFits_of h.resultingSequence.2,
      numberFits_of (h.lifetime.le.trans h.expiresAtNs), numberFits_of h.expiresAtNs, Bool.and_self]
  | voucher d v =>
    simp only [signedMembers, VoucherDict.unsignedPayload, membersFit_append,
      leaseMembers_fit h.leaseRequest, Json.membersFit, Json.fits, fits_vector,
      numberFits_of h.configEpoch.2, numberFits_of h.sequence.2, numberFits_of h.issuedAtNs,
      Bool.and_self]
  | ack a =>
    simp only [signedMembers, TransferAck.unsignedPayload, membersFit_append, childMembers_fit,
      Json.membersFit, Json.fits, numberFits_of h.configEpoch.2, numberFits_of h.sequence.2,
      numberFits_of h.acceptedAtNs, numberFits_of h.contiguousWatermark, Bool.and_self]
  | revocation r =>
    simp only [signedMembers, BranchRevocation.unsignedPayload, Json.membersFit, Json.fits,
      numberFits_of h.configEpoch.2, numberFits_of h.epoch.2, numberFits_of h.issuedAtNs,
      Bool.and_self]
  | auditEvent e =>
    simp only [signedMembers, signingObject, AuditEvent.body, Json.membersFit, Json.fits,
      fits_optionalText, numberFits_of h.1, numberFits_of h.2.1, h.2.2, Bool.and_self]
  | checkpoint c =>
    simp only [signedMembers, signingObject, TransferCheckpoint.body, Json.membersFit, Json.fits,
      numberFits_of h.1, numberFits_of h.2.1, numberFits_of h.2.2, Bool.and_self]
  | peerMessage m =>
    have htime : m.timestampS ≤ maxResource := h
    simp only [signedMembers, PeerMessage.body, Json.membersFit, Json.fits, numberFits_of htime,
      Bool.and_self]

theorem message_of_valid (h : content.Valid) : ∃ bytes, content.message = .ok bytes := by
  apply Exists.intro
  simp only [message, canonicalJson, bind_ok_iff, require_ok_iff, exists_unit_iff]
  exact ⟨fits_of_valid h, rfl⟩

theorem unsigned_of_message_eq {bytes : Bytes} (ha : a.message = .ok bytes)
    (hb : b.message = .ok bytes) : a.unsigned = b.unsigned :=
  unsigned_of_same (same_of_canonicalJson_eq ha hb)

theorem kind_unsigned (content : SignedContent) : content.unsigned.kind = content.kind := by
  cases content <;> rfl

end SignedContent

/-- The bytes that the key of a warden signs for valid contents of any two kinds are different,
those for contents of one kind determine the contents; and each of the five wire types is read back
from its own dictionary. -/
theorem signed_messages_distinct :
    (∀ content : SignedContent, content.Valid → ∃ bytes, content.message = .ok bytes) ∧
      (∀ (a b : SignedContent) (bytes : Bytes), a.message = .ok bytes → b.message = .ok bytes →
        a.kind = b.kind ∧ a.unsigned = b.unsigned) ∧
      (∀ (verify : Bytes → Bytes → Bool) (a b : SignedContent) (bytes bytes' signature : Bytes),
        a.message = .ok bytes → b.message = .ok bytes' →
        (∀ other, verify other signature = true → other = bytes) →
        verify bytes' signature = true → a.unsigned = b.unsigned) ∧
      (∀ (d : ℕ) (g : LeaseGrant d), g.Valid → LeaseGrant.fromDict g.toDict = .ok ⟨d, g⟩) ∧
      (∀ (d : ℕ) (r : Receipt d), r.Valid → Receipt.fromDict r.toDict = .ok ⟨d, r⟩) ∧
      (∀ (d : ℕ) (v : VoucherDict d), v.Valid → VoucherDict.fromDict v.toDict = .ok ⟨d, v⟩) ∧
      (∀ a : TransferAck, a.Valid → TransferAck.fromDict a.toDict = .ok a) ∧
      ∀ r : BranchRevocation, r.Valid → BranchRevocation.fromDict r.toDict = .ok r := by
  refine ⟨fun content => SignedContent.message_of_valid, ?_, ?_,
    fun d g => LeaseGrant.fromDict_toDict, fun d r => Receipt.fromDict_toDict,
    fun d v => VoucherDict.fromDict_toDict, fun a => TransferAck.fromDict_toDict,
    fun r => BranchRevocation.fromDict_toDict⟩
  · intro a b bytes ha hb
    have hunsigned := SignedContent.unsigned_of_message_eq ha hb
    refine ⟨?_, hunsigned⟩
    rw [← SignedContent.kind_unsigned a, hunsigned, SignedContent.kind_unsigned]
  · intro verify a b bytes bytes' signature ha hb honly hverifies
    rw [honly bytes' hverifies] at hb
    exact SignedContent.unsigned_of_message_eq ha hb

open Sample

def Sample.revocation : BranchRevocation where
  tenantId := "tenant"
  envelopeId := "envelope"
  configEpoch := 1
  branchLeaseId := "lease"
  lineageId := "line"
  epoch := 1
  issuerWarden := "a"
  issuedAtNs := 0
  reason := "over"
  keyId := "key"
  signature := ""

theorem signed_messages_distinct_revocation : revocation.Valid ∧
    (∃ bytes, (SignedContent.revocation revocation).message = .ok bytes) ∧
      BranchRevocation.fromDict revocation.toDict = .ok revocation := by
  have hvalid : revocation.Valid := by constructor <;> decide
  exact ⟨hvalid, signed_messages_distinct.1 (.revocation revocation) hvalid,
    signed_messages_distinct.2.2.2.2.2.2.2 _ hvalid⟩

end Lets
