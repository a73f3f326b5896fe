import Lets.Library.Framing
import Lets.Library.HashChain
import Lets.Authorization
import Lets.Base64Url
import Lets.StrictJson

set_option autoImplicit false

/-!
# The two verifiers of the audit log

`verify_audit_head` walks the whole log of an envelope, `verify_audit_rows` one page of it from
where the page before it ended.
-/

namespace Lets

open Library

namespace Json

def get (members : List (String × Json)) (key : String) : Json :=
  (members.lookup key).getD null

def isNumber : Json → ℤ → Bool
  | number m, n => m = n
  | bool b, n => (if b then 1 else 0) = n
  | _, _ => false

def isText : Json → Option String → Bool
  | null, none => true
  | text s, some t => s = t
  | _, _ => false

end Json

def Detail.json {d : ℕ} : Detail d → Json
  | .text s => .text s
  | .number n => .number n
  | .amount v => .array (List.ofFn fun i => .number (v.amount i))
  | .texts l => .array (l.map .text)
  | .flag b => .bool b
  | .absent => .null

def AuditBody.members {d : ℕ} (body : AuditBody d) : List (String × Json) :=
  [("sequence", .number body.sequence), ("event_type", .text body.eventType),
    ("tenant_id", .text body.tenantId), ("envelope_id", .text body.envelopeId),
    ("entity_type", .text body.entityType), ("entity_id", .text body.entityId),
    ("actor_id", .text body.actorId), ("occurred_at_ns", .number body.occurredAtNs),
    ("details", .object (body.details.map fun entry => (entry.1, entry.2.json)))]

def AuditBody.signed {d : ℕ} (body : AuditBody d) (keyId signature : String) :
    List (String × Json) :=
  body.members ++ [("key_id", .text keyId), ("signature", .text signature)]

/-- What `_sign` signs for an event, and `_verify_signed` verifies. -/
def auditSigningObject (payload : List (String × Json)) : Json :=
  .object [("kind", .text "audit-event/v1"), ("payload", .object payload)]

def Json.members : Json → Outcome (List (String × Json))
  | object members => pure members
  | _ => .error (.storage "stored protocol payload is not a JSON object")

/-- `_json_object`. -/
def jsonObject (D : JsonDecoder) (payload : Bytes) : Outcome (List (String × Json)) := do
  let decoded ← strictJsonLoads D (.bytes payload)
  decoded.members

/-- A row of `audit_log` as it is stored, the columns of its envelope apart. -/
structure StoredAuditRow where
  sequence : ℤ
  eventType : String
  entityType : Option String
  entityId : Option String
  payload : Bytes
  previousHash : Bytes
  eventHash : Bytes
  createdAtNs : ℤ
  deriving DecidableEq

/-- What the verifiers rest on: how `json.loads` decodes bytes, the digest and the keys.  A signature
is checked by the signer itself where it can and by the trust registry otherwise; each may raise,
which is `none`. -/
structure AuditVerifier where
  decoder : JsonDecoder
  signerVerify : Option (Bytes → Bytes → Option Bool)
  trustRegistry : Option (String → String → Bytes → Bytes → Option Bool)
  sha256 : Bytes → Bytes
  length_sha256 : ∀ bytes, (sha256 bytes).length = 32

/-- The log whose rows are verified: its warden and signing key, and its envelope. -/
structure AuditScope where
  wardenId : String
  signerKeyId : String
  tenantId : String
  envelopeId : String
  deriving DecidableEq

def zeroBytes : Bytes := List.replicate 32 0

def utf8 (s : String) : Bytes := s.toUTF8.data.toList

/-- `_identifier`. -/
def storedIdentifier (value name : String) : Outcome Unit :=
  require (1 ≤ value.length ∧ value.length ≤ 512)
    (.validation (name ++ " must be a non-empty string of at most 512 characters"))

def nonnegativeInteger (value : ℤ) (name : String) : Outcome Unit :=
  require (0 ≤ value ∧ value ≤ maxResource)
    (.validation (name ++ " must be non-negative and no greater than " ++ toString maxResource))

/-- `_framed_hash_part`: eight bytes hold no longer length. -/
def framedHashPart (value : Bytes) : Outcome Bytes := do
  require (value.length < 256 ^ 8) (.storage "int too big to convert")
  pure (framed value)

def StoredAuditRow.hashInput (row : StoredAuditRow) : Bytes :=
  utf8 "LETS-AUDIT-v1\x00" ++ (row.previousHash ++ (bigEndian 8 row.sequence.toNat ++
    (bigEndian 8 row.createdAtNs.toNat ++ (framed (utf8 row.eventType) ++
      (framed (utf8 (row.entityType.getD "")) ++ (framed (utf8 (row.entityId.getD "")) ++
        (framed row.payload ++ [])))))))

namespace AuditVerifier

def auditEventHash (v : AuditVerifier) (row : StoredAuditRow) : Outcome Bytes := do
  require (row.previousHash.length = 32) (.validation "previous_hash must contain 32 bytes")
  nonnegativeInteger row.sequence "sequence"
  nonnegativeInteger row.createdAtNs "created_at_ns"
  storedIdentifier row.eventType "event_type"
  row.entityType.toList.forM (storedIdentifier · "entity_type")
  row.entityId.toList.forM (storedIdentifier · "entity_id")
  let event ← framedHashPart (utf8 row.eventType)
  let entityType ← framedHashPart (utf8 (row.entityType.getD ""))
  let entityId ← framedHashPart (utf8 (row.entityId.getD ""))
  let payload ← framedHashPart row.payload
  pure (v.sha256 (utf8 "LETS-AUDIT-v1\x00" ++ (row.previousHash ++
    (bigEndian 8 row.sequence.toNat ++ (bigEndian 8 row.createdAtNs.toNat ++
      (event ++ (entityType ++ (entityId ++ (payload ++ [])))))))))

/-- `_sqlite_audit_hash`: no result where an argument is not valid. -/
def sqliteAuditHash (v : AuditVerifier) (row : StoredAuditRow) : Outcome (Option Bytes) :=
  match v.auditEventHash row with
  | .ok hash => .ok (some hash)
  | .error (.validation _) => .ok none
  | .error e => .error e

/-- `lets_audit_hash` asked of the database, and the result read as bytes. -/
def selectAuditHash (v : AuditVerifier) (row : StoredAuditRow) : Outcome Bytes := do
  let computed ← v.sqliteAuditHash row
  orError computed (.storage "cannot convert 'NoneType' object to bytes")

/-- The end of `_verify_signed`, for a signature in the name of the warden itself. -/
def checkSignature (v : AuditVerifier) (scope : AuditScope) (keyId : String)
    (message signature : Bytes) : Outcome Unit :=
  match (if keyId = scope.signerKeyId then v.signerVerify else none), v.trustRegistry with
  | some verify, _ =>
    require (∃ result ∈ verify message signature, result = true)
      (.signature "invalid local audit-event/v1 signature")
  | none, none =>
    .error (.signature ("no trusted key is configured for warden " ++ quoted scope.wardenId))
  | none, some verify => do
    let valid ← orError (verify scope.wardenId keyId message signature)
      (.signature ("could not verify audit-event/v1 from " ++ quoted scope.wardenId))
    require (valid = true)
      (.signature ("invalid audit-event/v1 signature from " ++ quoted scope.wardenId))

/-- `_verify_signed` of an audit event of the warden itself. -/
def verifySigned (v : AuditVerifier) (scope : AuditScope) (wire : List (String × Json)) :
    Outcome Unit :=
  match Json.get wire "key_id", Json.get wire "signature" with
  | .text keyId, .text signatureText => do
    let signature ← orError (b64urlDecode signatureText).toOption
      (.signature "signed audit-event/v1 contains malformed base64url")
    let unsigned := wire.filter fun member => member.1 ∉ ["signature", "key_id"]
    let message ← canonicalJson (auditSigningObject unsigned)
    v.checkSignature scope keyId message signature
  | _, _ => .error (.signature "signed audit-event/v1 is missing key_id or signature")

def describes (scope : AuditScope) (wire : List (String × Json)) (row : StoredAuditRow) : Bool :=
  (Json.get wire "sequence").isNumber row.sequence &&
    (Json.get wire "event_type").isText (some row.eventType) &&
    (Json.get wire "tenant_id").isText (some scope.tenantId) &&
    (Json.get wire "envelope_id").isText (some scope.envelopeId) &&
    (Json.get wire "entity_type").isText row.entityType &&
    (Json.get wire "entity_id").isText row.entityId &&
    (Json.get wire "occurred_at_ns").isNumber row.createdAtNs

/-- The checks of one row, after `expectedPrevious` and at `expectedSequence`. -/
def checkAuditRow (v : AuditVerifier) (hashOf : StoredAuditRow → Outcome Bytes)
    (scope : AuditScope) (expectedSequence : ℤ) (expectedPrevious : Bytes)
    (row : StoredAuditRow) : Outcome Unit := do
  let place := " at sequence " ++ toString row.sequence
  require (row.sequence = expectedSequence)
    (.invariant ("audit sequence gap: got " ++ toString row.sequence ++ ", expected " ++
      toString expectedSequence))
  require (row.previousHash = expectedPrevious)
    (.invariant ("audit previous hash mismatch" ++ place))
  let computed ← hashOf row
  require (computed = row.eventHash) (.invariant ("audit event hash mismatch" ++ place))
  let signed ← jsonObject v.decoder row.payload
  v.verifySigned scope signed
  require (describes scope signed row = true) (.invariant ("audit payload/row mismatch" ++ place))

def verifyHeadFrom (v : AuditVerifier) (scope : AuditScope) :
    ℕ → Bytes → ℤ → List StoredAuditRow → Outcome (ℤ × Bytes)
  | _, expectedPrevious, verifiedSequence, [] => pure (verifiedSequence, expectedPrevious)
  | expectedSequence, expectedPrevious, _, row :: rows => do
    v.checkAuditRow v.selectAuditHash scope expectedSequence expectedPrevious row
    verifyHeadFrom v scope (expectedSequence + 1) row.eventHash row.sequence rows

def verifyAuditHead (v : AuditVerifier) (scope : AuditScope) (identity : IdentityContext)
    (rows : List StoredAuditRow) : Outcome (ℤ × Bytes) := do
  require (identity.HasScope (adminScopes ++ ["lets.audit.read", "lets.audit.verify"]))
    (.policy "audit verification scope is required")
  require (identity.tenantId = scope.tenantId)
    (.policy "identity tenant does not match audit tenant")
  v.verifyHeadFrom scope 0 zeroBytes (-1) rows

def verifyRowsFrom (v : AuditVerifier) (scope : AuditScope) :
    ℤ → Bytes → List StoredAuditRow → Outcome (ℤ × Bytes)
  | sequenceCursor, previousCursor, [] => pure (sequenceCursor - 1, previousCursor)
  | sequenceCursor, previousCursor, row :: rows => do
    v.checkAuditRow v.auditEventHash scope sequenceCursor previousCursor row
    verifyRowsFrom v scope (sequenceCursor + 1) row.eventHash rows

def verifyAuditRows (v : AuditVerifier) (scope : AuditScope) (expectedSequence : ℤ)
    (expectedPreviousHash : Bytes) (rows : List StoredAuditRow) : Outcome (ℤ × Bytes) := do
  require (expectedPreviousHash.length = 32)
    (.validation "expected audit previous hash must contain 32 bytes")
  v.verifyRowsFrom scope expectedSequence expectedPreviousHash rows

def verifyPages (v : AuditVerifier) (scope : AuditScope) :
    ℤ × Bytes → List (List StoredAuditRow) → Outcome (ℤ × Bytes)
  | head, [] => pure head
  | head, page :: pages => do
    let head ← v.verifyAuditRows scope (head.1 + 1) head.2 page
    verifyPages v scope head pages

end AuditVerifier

/-! ### The hash and what it is over -/

theorem utf8_injective {s t : String} (h : utf8 s = utf8 t) : s = t := by
  apply String.toByteArray_inj.mp
  apply ByteArray.ext
  exact Array.toList_inj.mp h

theorem eq_of_getD_eq {name name' : Option String} (h : ∀ s ∈ name, 1 ≤ s.length)
    (h' : ∀ s ∈ name', 1 ≤ s.length) (heq : name.getD "" = name'.getD "") : name = name' := by
  match name, name', h, h', heq with
  | none, none, _, _, _ => rfl
  | some s, some t, _, _, heq => exact congrArg some heq
  | none, some t, _, h', heq =>
    have hlength := h' t rfl
    rw [← show "" = t from heq] at hlength
    exact absurd hlength (by decide)
  | some s, none, h, _, heq =>
    have hlength := h s rfl
    rw [show s = "" from heq] at hlength
    exact absurd hlength (by decide)

namespace StoredAuditRow

/-- What `audit_event_hash` asks of its arguments. -/
structure Hashable (row : StoredAuditRow) : Prop where
  previousHash : row.previousHash.length = 32
  sequence : 0 ≤ row.sequence ∧ row.sequence ≤ maxResource
  createdAtNs : 0 ≤ row.createdAtNs ∧ row.createdAtNs ≤ maxResource
  eventType : 1 ≤ row.eventType.length ∧ row.eventType.length ≤ 512
  entityType : ∀ name ∈ row.entityType, 1 ≤ name.length ∧ name.length ≤ 512
  entityId : ∀ name ∈ row.entityId, 1 ≤ name.length ∧ name.length ≤ 512
  eventFrame : (utf8 row.eventType).length < 256 ^ 8
  entityTypeFrame : (utf8 (row.entityType.getD "")).length < 256 ^ 8
  entityIdFrame : (utf8 (row.entityId.getD "")).length < 256 ^ 8
  payloadFrame : row.payload.length < 256 ^ 8

def hashed (row : StoredAuditRow) :
    Bytes × ℤ × ℤ × String × Option String × Option String × Bytes :=
  (row.previousHash, row.sequence, row.createdAtNs, row.eventType, row.entityType, row.entityId,
    row.payload)

theorem toNat_lt_frame {n : ℤ} (h : n ≤ maxResource) : n.toNat < 256 ^ 8 := by
  have hmax : maxResource < 256 ^ 8 := by decide
  omega

theorem Hashable.hashed_eq {row row' : StoredAuditRow} (h : row.Hashable) (h' : row'.Hashable)
    (heq : row.hashInput = row'.hashInput) : row.hashed = row'.hashed := by
  have heq := List.append_cancel_left heq
  obtain ⟨hprevious, heq⟩ := List.append_inj heq (h.previousHash.trans h'.previousHash.symm)
  obtain ⟨hsequence, heq⟩ := bigEndian_append_inj (toNat_lt_frame h.sequence.2)
    (toNat_lt_frame h'.sequence.2) heq
  obtain ⟨hcreated, heq⟩ := bigEndian_append_inj (toNat_lt_frame h.createdAtNs.2)
    (toNat_lt_frame h'.createdAtNs.2) heq
  obtain ⟨hevent, heq⟩ := framed_append_inj h.eventFrame h'.eventFrame heq
  obtain ⟨htype, heq⟩ := framed_append_inj h.entityTypeFrame h'.entityTypeFrame heq
  obtain ⟨hid, heq⟩ := framed_append_inj h.entityIdFrame h'.entityIdFrame heq
  obtain ⟨hpayload, _⟩ := framed_append_inj h.payloadFrame h'.payloadFrame heq
  have hsequence : row.sequence = row'.sequence := by
    have := h.sequence.1
    have := h'.sequence.1
    omega
  have hcreated : row.createdAtNs = row'.createdAtNs := by
    have := h.createdAtNs.1
    have := h'.createdAtNs.1
    omega
  have htype : row.entityType = row'.entityType :=
    eq_of_getD_eq (fun s hs => (h.entityType s hs).1) (fun s hs => (h'.entityType s hs).1)
      (utf8_injective htype)
  have hid : row.entityId = row'.entityId :=
    eq_of_getD_eq (fun s hs => (h.entityId s hs).1) (fun s hs => (h'.entityId s hs).1)
      (utf8_injective hid)
  rw [hashed, hashed, hprevious, hsequence, hcreated, utf8_injective hevent, htype, hid, hpayload]

theorem eq_of_hashed {row row' : StoredAuditRow} (h : row.hashed = row'.hashed)
    (heq : row.eventHash = row'.eventHash) : row = row' := by
  cases row
  cases row'
  simp only [hashed, Prod.mk.injEq] at h heq
  simp only [mk.injEq]
  tauto

end StoredAuditRow

namespace AuditVerifier

variable {v : AuditVerifier} {scope : AuditScope} {row : StoredAuditRow} {hash : Bytes}

theorem framedHashPart_ok_iff {value part : Bytes} :
    framedHashPart value = .ok part ↔ value.length < 256 ^ 8 ∧ framed value = part := by
  simp only [framedHashPart, bind_ok_iff, require_ok_iff, exists_unit_iff, pure_ok_iff]

theorem auditEventHash_ok_iff :
    v.auditEventHash row = .ok hash ↔ row.Hashable ∧ hash = v.sha256 row.hashInput := by
  simp only [auditEventHash, nonnegativeInteger, storedIdentifier, bind_ok_iff, forM_ok_iff,
    require_ok_iff, exists_unit_iff, pure_ok_iff, framedHashPart_ok_iff, Option.mem_toList]
  constructor
  · rintro ⟨h₁, h₂, h₃, h₄, h₅, h₆, _, ⟨h₇, rfl⟩, _, ⟨h₈, rfl⟩, _, ⟨h₉, rfl⟩, _, ⟨h₁₀, rfl⟩, rfl⟩
    exact ⟨⟨h₁, h₂, h₃, h₄, h₅, h₆, h₇, h₈, h₉, h₁₀⟩, rfl⟩
  · rintro ⟨⟨h₁, h₂, h₃, h₄, h₅, h₆, h₇, h₈, h₉, h₁₀⟩, rfl⟩
    exact ⟨h₁, h₂, h₃, h₄, h₅, h₆, _, ⟨h₇, rfl⟩, _, ⟨h₈, rfl⟩, _, ⟨h₉, rfl⟩, _, ⟨h₁₀, rfl⟩, rfl⟩

theorem selectAuditHash_ok_iff :
    v.selectAuditHash row = .ok hash ↔ v.auditEventHash row = .ok hash := by
  rw [selectAuditHash, sqliteAuditHash, bind_ok_iff]
  cases v.auditEventHash row with
  | ok computed => simp
  | error e => cases e <;> simp

/-! ### What the loops accept -/

def logChain (v : AuditVerifier) (scope : AuditScope) :
    HashChain StoredAuditRow (ℤ × Bytes) where
  genesis := (-1, zeroBytes)
  tip row := (row.sequence, row.eventHash)
  Follows head row := v.checkAuditRow v.auditEventHash scope (head.1 + 1) head.2 row = .ok ()

theorem checkAuditRow_ok_iff {hashOf : StoredAuditRow → Outcome Bytes} {sequence : ℤ}
    {previous : Bytes} {u : Unit} :
    v.checkAuditRow hashOf scope sequence previous row = .ok u ↔
      row.sequence = sequence ∧ row.previousHash = previous ∧ hashOf row = .ok row.eventHash ∧
        ∃ signed, jsonObject v.decoder row.payload = .ok signed ∧
          v.verifySigned scope signed = .ok () ∧ describes scope signed row = true := by
  simp only [checkAuditRow, bind_ok_iff, require_ok_iff, exists_unit_iff]
  constructor
  · rintro ⟨hsequence, hprevious, _, hhash, rfl, signed, hread, hsigned, hdescribes⟩
    exact ⟨hsequence, hprevious, hhash, signed, hread, hsigned, hdescribes⟩
  · rintro ⟨hsequence, hprevious, hhash, signed, hread, hsigned, hdescribes⟩
    exact ⟨hsequence, hprevious, _, hhash, rfl, signed, hread, hsigned, hdescribes⟩

theorem checkAuditRow_select_iff {sequence : ℤ} {previous : Bytes} {u : Unit} :
    v.checkAuditRow v.selectAuditHash scope sequence previous row = .ok u ↔
      v.checkAuditRow v.auditEventHash scope sequence previous row = .ok u := by
  rw [checkAuditRow_ok_iff, checkAuditRow_ok_iff, selectAuditHash_ok_iff]

theorem follows_iff {cursor : ℤ} {previous : Bytes} :
    (v.logChain scope).Follows (cursor - 1, previous) row ↔
      v.checkAuditRow v.auditEventHash scope cursor previous row = .ok () := by
  change v.checkAuditRow v.auditEventHash scope (cursor - 1 + 1) previous row = .ok () ↔ _
  rw [sub_add_cancel]

theorem verifyRowsFrom_ok_iff {head : ℤ × Bytes} {rows : List StoredAuditRow} {cursor : ℤ}
    {previous : Bytes} :
    v.verifyRowsFrom scope cursor previous rows = .ok head ↔
      (v.logChain scope).ValidFrom (cursor - 1, previous) rows ∧
        (v.logChain scope).tipFrom (cursor - 1, previous) rows = head := by
  induction rows generalizing cursor previous with
  | nil => simp [verifyRowsFrom, HashChain.ValidFrom, HashChain.tipFrom]
  | cons row rows ih =>
    rw [verifyRowsFrom, bind_ok_iff, exists_unit_iff, ih, HashChain.ValidFrom, HashChain.tipFrom,
      and_assoc]
    rw [follows_iff]
    apply and_congr_right
    intro hcheck
    -- a row that passes is at the cursor
    have htip : (v.logChain scope).tip row = (cursor + 1 - 1, row.eventHash) := by
      rw [add_sub_cancel_right]
      exact congrArg (·, row.eventHash) (checkAuditRow_ok_iff.mp hcheck).1
    rw [htip]

theorem verifyHeadFrom_ok_iff {head : ℤ × Bytes} {rows : List StoredAuditRow} {expected : ℕ}
    {previous : Bytes} :
    v.verifyHeadFrom scope expected previous (expected - 1) rows = .ok head ↔
      (v.logChain scope).ValidFrom (expected - 1, previous) rows ∧
        (v.logChain scope).tipFrom (expected - 1, previous) rows = head := by
  induction rows generalizing expected previous with
  | nil => simp [verifyHeadFrom, HashChain.ValidFrom, HashChain.tipFrom]
  | cons row rows ih =>
    rw [verifyHeadFrom, bind_ok_iff, exists_unit_iff, checkAuditRow_select_iff,
      HashChain.ValidFrom, HashChain.tipFrom, and_assoc]
    rw [follows_iff]
    apply and_congr_right
    intro hcheck
    have hsequence : row.sequence = ((expected + 1 : ℕ) : ℤ) - 1 := by
      have := (checkAuditRow_ok_iff.mp hcheck).1
      omega
    have htip : (v.logChain scope).tip row = (((expected + 1 : ℕ) : ℤ) - 1, row.eventHash) :=
      congrArg (·, row.eventHash) hsequence
    rw [htip, hsequence]
    exact ih

theorem length_tipFrom {head : ℤ × Bytes} {rows : List StoredAuditRow} (hhead : head.2.length = 32)
    (h : (v.logChain scope).ValidFrom head rows) :
    ((v.logChain scope).tipFrom head rows).2.length = 32 := by
  induction rows generalizing head with
  | nil => exact hhead
  | cons row rows ih =>
    refine ih ?_ h.2
    obtain ⟨_, _, hhash, _⟩ := checkAuditRow_ok_iff.mp h.1
    obtain ⟨_, hcomputed⟩ := auditEventHash_ok_iff.mp hhash
    change row.eventHash.length = 32
    rw [hcomputed, v.length_sha256]

theorem verifyPages_ok_iff {start head : ℤ × Bytes} {pages : List (List StoredAuditRow)}
    (hstart : start.2.length = 32) :
    v.verifyPages scope start pages = .ok head ↔
      (v.logChain scope).ValidFrom start pages.flatten ∧
        (v.logChain scope).tipFrom start pages.flatten = head := by
  induction pages generalizing start with
  | nil => simp [verifyPages, HashChain.ValidFrom, HashChain.tipFrom]
  | cons page pages ih =>
    have hpage {next : ℤ × Bytes} : v.verifyAuditRows scope (start.1 + 1) start.2 page = .ok next ↔
        (v.logChain scope).ValidFrom start page ∧
          (v.logChain scope).tipFrom start page = next := by
      rw [verifyAuditRows, bind_ok_iff, exists_unit_iff, require_ok_iff, verifyRowsFrom_ok_iff,
        add_sub_cancel_right]
      exact and_iff_right hstart
    rw [verifyPages, bind_ok_iff, List.flatten_cons, HashChain.validFrom_append_iff,
      HashChain.tipFrom_append]
    constructor
    · rintro ⟨next, hnext, hrest⟩
      obtain ⟨hvalid, rfl⟩ := hpage.mp hnext
      obtain ⟨hvalid', htip⟩ := (ih (length_tipFrom hstart hvalid)).mp hrest
      exact ⟨⟨hvalid, hvalid'⟩, htip⟩
    · rintro ⟨⟨hvalid, hvalid'⟩, htip⟩
      exact ⟨_, hpage.mpr ⟨hvalid, rfl⟩, (ih (length_tipFrom hstart hvalid)).mpr ⟨hvalid', htip⟩⟩

/-- The caller of `verify_audit_head` may verify the log. -/
def MayVerify (scope : AuditScope) (identity : IdentityContext) : Prop :=
  identity.HasScope (adminScopes ++ ["lets.audit.read", "lets.audit.verify"]) ∧
    identity.tenantId = scope.tenantId

theorem verifyAuditHead_ok_iff {identity : IdentityContext} {rows : List StoredAuditRow}
    {head : ℤ × Bytes} :
    v.verifyAuditHead scope identity rows = .ok head ↔
      MayVerify scope identity ∧ (v.logChain scope).Valid rows ∧
        (v.logChain scope).tipOf rows = head := by
  have hloop : v.verifyHeadFrom scope 0 zeroBytes (-1) rows = .ok head ↔
      (v.logChain scope).ValidFrom (-1, zeroBytes) rows ∧
        (v.logChain scope).tipFrom (-1, zeroBytes) rows = head :=
    @verifyHeadFrom_ok_iff v scope head rows 0 zeroBytes
  have hvalid : (v.logChain scope).ValidFrom (-1, zeroBytes) rows ↔
      (v.logChain scope).Valid rows := HashChain.valid_iff_validFrom.symm
  have htip : (v.logChain scope).tipFrom (-1, zeroBytes) rows = (v.logChain scope).tipOf rows :=
    HashChain.tipFrom_genesis rows
  rw [verifyAuditHead, bind_ok_iff, exists_unit_iff, require_ok_iff, bind_ok_iff, exists_unit_iff,
    require_ok_iff, hloop, hvalid, htip, MayVerify, and_assoc]

/-! ### One head, one log -/

def CollisionFree (v : AuditVerifier) (rows : List StoredAuditRow) : Prop :=
  ∀ row ∈ rows, ∀ row' ∈ rows, v.sha256 row.hashInput = v.sha256 row'.hashInput →
    row.hashInput = row'.hashInput

def hashChain (v : AuditVerifier) (rows : List StoredAuditRow) :
    HashChain StoredAuditRow (ℤ × Bytes) where
  genesis := (-1, zeroBytes)
  tip row := (row.sequence, row.eventHash)
  Follows head row := row ∈ rows ∧ row.sequence = head.1 + 1 ∧ row.previousHash = head.2 ∧
    v.auditEventHash row = .ok row.eventHash

theorem hashChain_collisionFree {rows : List StoredAuditRow} (h : v.CollisionFree rows) :
    (v.hashChain rows).CollisionFree where
  tip_ne_genesis := by
    rintro head row ⟨_, _, _, hhash⟩ htip
    have hsequence : row.sequence = -1 := congrArg Prod.fst htip
    have := (auditEventHash_ok_iff.mp hhash).1.sequence.1
    omega
  eq_of_tip_eq := by
    rintro head head' row row' ⟨hmem, hsequence, hprevious, hhash⟩
      ⟨hmem', hsequence', hprevious', hhash'⟩ htip
    obtain ⟨hhashable, hcomputed⟩ := auditEventHash_ok_iff.mp hhash
    obtain ⟨hhashable', hcomputed'⟩ := auditEventHash_ok_iff.mp hhash'
    have hevent : row.eventHash = row'.eventHash := congrArg Prod.snd htip
    have hinput : row.hashInput = row'.hashInput := by
      apply h row hmem row' hmem'
      rw [← hcomputed, ← hcomputed', hevent]
    have hrow := StoredAuditRow.eq_of_hashed (hhashable.hashed_eq hhashable' hinput) hevent
    subst hrow
    refine ⟨Prod.ext ?_ (hprevious.symm.trans hprevious'), rfl⟩
    omega

theorem hashChain_valid {rows all : List StoredAuditRow} (h : (v.logChain scope).Valid rows)
    (hsub : rows ⊆ all) : (v.hashChain all).Valid rows := by
  induction h with
  | nil => exact .nil
  | @snoc rows row _ hfollows ih =>
    obtain ⟨hsequence, hprevious, hhash, _⟩ := checkAuditRow_ok_iff.mp hfollows
    have hmem : row ∈ all := hsub (by simp)
    exact .snoc (ih fun _ h => hsub (List.mem_append_left _ h)) ⟨hmem, hsequence, hprevious, hhash⟩

theorem eq_of_head_eq {scope' : AuditScope} {rows rows' : List StoredAuditRow}
    (hfree : v.CollisionFree (rows ++ rows')) (h : (v.logChain scope).Valid rows)
    (h' : (v.logChain scope').Valid rows')
    (hhead : (v.logChain scope).tipOf rows = (v.logChain scope').tipOf rows') : rows = rows' := by
  apply HashChain.Valid.eq_of_tipOf_eq (hashChain_collisionFree hfree)
  · exact hashChain_valid h (List.subset_append_left _ _)
  · exact hashChain_valid h' (List.subset_append_right _ _)
  · exact hhead

end AuditVerifier

end Lets
