import Lets.Dictionaries
import Lets.Manifest
import Lets.RoundTrip

set_option autoImplicit false

/-!
# Operators who signed a manifest

`verify_signatures` goes over the trusted keys and over the signatures, and counts key material.
-/

namespace Lets

open Library

/-- Ids are identifiers, keys have 32 bytes, and no two ids share key material. -/
structure OperatorKeys.WellFormed (keys : OperatorKeys) : Prop where
  identifiers : ∀ entry ∈ keys.entries, isIdentifier entry.1 = true
  lengths : ∀ entry ∈ keys.entries, entry.2.length = 32
  material : (keys.entries.map Prod.snd).Nodup

theorem OperatorKeys.WellFormed.of_perm {keys keys' : OperatorKeys} (h : keys'.WellFormed)
    (hperm : keys'.entries.Perm keys.entries) : keys.WellFormed where
  identifiers entry hentry := h.identifiers entry (hperm.mem_iff.mpr hentry)
  lengths entry hentry := h.lengths entry (hperm.mem_iff.mpr hentry)
  material := (hperm.map Prod.snd).nodup_iff.mp h.material

namespace ClusterManifest

variable {M : ManifestTools} {keys : OperatorKeys}

/-! ### The trusted keys -/

variable {owners result : List (Bytes × String)} {entry : String × Bytes}

theorem checkOperatorKey_ok_iff :
    checkOperatorKey owners entry = .ok result ↔
      isIdentifier entry.1 = true ∧ entry.2.length = 32 ∧
      (∀ owner ∈ owners.lookup entry.2, owner = entry.1) ∧ (entry.2, entry.1) :: owners = result := by
  simp only [checkOperatorKey, bind_ok_iff, require_ok_iff, exists_unit_iff, pure_ok_iff,
    requireIdentifier_ok_iff]
  aesop

theorem lookup_owner_iff (hfresh : entry.1 ∉ owners.map Prod.snd) :
    (∀ owner ∈ owners.lookup entry.2, owner = entry.1) ↔ entry.2 ∉ owners.map Prod.fst := by
  cases howner : owners.lookup entry.2 with
  | none =>
    have hnone := List.lookup_eq_none_iff.mp howner
    constructor
    · intro _ hmem
      obtain ⟨member, hmember, heq⟩ := List.mem_map.mp hmem
      have hne := hnone member hmember
      rw [heq, bne_self_eq_false] at hne
      cases hne
    · intro _ owner h
      cases h
  | some owner =>
    obtain ⟨before, after, rfl, -⟩ := List.lookup_eq_some_iff.mp howner
    constructor
    · intro h
      refine absurd ?_ hfresh
      rw [← h owner rfl]
      simp
    · intro h
      exact absurd (by simp) h

theorem foldlM_checkOperatorKey {entries : List (String × Bytes)}
    (hnodup : (entries.map Prod.fst).Nodup)
    (hfresh : ∀ entry ∈ entries, entry.1 ∉ owners.map Prod.snd) :
    entries.foldlM checkOperatorKey owners = .ok result ↔
      (∀ entry ∈ entries, isIdentifier entry.1 = true) ∧
      (∀ entry ∈ entries, entry.2.length = 32) ∧ (entries.map Prod.snd).Nodup ∧
      (∀ entry ∈ entries, entry.2 ∉ owners.map Prod.fst) ∧
      (entries.map Prod.swap).reverse ++ owners = result := by
  induction entries generalizing owners with
  | nil => simp [pure_ok_iff]
  | cons entry entries ih =>
    rw [List.map_cons, List.nodup_cons] at hnodup
    have hfirst := lookup_owner_iff (hfresh entry List.mem_cons_self)
    have hlater : ∀ e ∈ entries, e.1 ∉ ((entry.2, entry.1) :: owners).map Prod.snd := by
      intro e he hmem
      rcases List.mem_cons.mp hmem with heq | hmem
      · have hsame : e.1 = entry.1 := heq
        exact hnodup.1 (hsame ▸ List.mem_map_of_mem he)
      · exact hfresh e (List.mem_cons_of_mem _ he) hmem
    have hstep : (∃ owners', checkOperatorKey owners entry = .ok owners' ∧
        entries.foldlM checkOperatorKey owners' = .ok result) ↔
        isIdentifier entry.1 = true ∧ entry.2.length = 32 ∧ entry.2 ∉ owners.map Prod.fst ∧
          entries.foldlM checkOperatorKey ((entry.2, entry.1) :: owners) = .ok result := by
      simp only [checkOperatorKey_ok_iff, hfirst]
      constructor
      · rintro ⟨_, ⟨hid, hlength, hnew, rfl⟩, hrest⟩
        exact ⟨hid, hlength, hnew, hrest⟩
      · rintro ⟨hid, hlength, hnew, hrest⟩
        exact ⟨_, ⟨hid, hlength, hnew, rfl⟩, hrest⟩
    rw [List.foldlM_cons, bind_ok_iff, hstep, ih hnodup.2 hlater]
    simp only [List.forall_mem_cons, List.map_cons, List.nodup_cons]
    simp only [List.mem_cons, not_or, List.reverse_cons, List.append_assoc, List.singleton_append]
    constructor
    · rintro ⟨hid, hlength, hnew, hids, hlengths, hmaterial, hother, hresult⟩
      refine ⟨⟨hid, hids⟩, ⟨hlength, hlengths⟩, ⟨fun hmem => ?_, hmaterial⟩, ⟨hnew, fun e he =>
        (hother e he).2⟩, hresult⟩
      obtain ⟨e, he, heq⟩ := List.mem_map.mp hmem
      exact (hother e he).1 heq
    · rintro ⟨⟨hid, hids⟩, ⟨hlength, hlengths⟩, ⟨hother, hmaterial⟩, ⟨hnew, hnews⟩, hresult⟩
      refine ⟨hid, hlength, hnew, hids, hlengths, hmaterial, fun e he => ⟨fun heq => ?_, hnews e he⟩,
        hresult⟩
      exact hother (heq ▸ List.mem_map_of_mem he)

theorem checkOperatorKeys_ok_iff :
    keys.entries.foldlM checkOperatorKey [] = .ok owners ↔
      keys.WellFormed ∧ (keys.entries.map Prod.swap).reverse = owners := by
  rw [foldlM_checkOperatorKey keys.nodup fun _ _ => List.not_mem_nil]
  constructor
  · rintro ⟨hids, hlengths, hmaterial, -, howners⟩
    exact ⟨⟨hids, hlengths, hmaterial⟩, (List.append_nil _).symm.trans howners⟩
  · rintro ⟨h, howners⟩
    exact ⟨h.identifiers, h.lengths, h.material, fun _ _ => List.not_mem_nil,
      (List.append_nil _).trans howners⟩

/-! ### The signatures -/

def signersOf (M : ManifestTools) (payload : Bytes) (keys : OperatorKeys)
    (signatures : List ManifestSignature) : Finset (String × Bytes) :=
  keys.entries.toFinset.filter fun entry =>
    ∃ signed ∈ signatures, signed.keyId = entry.1 ∧ M.verify entry.2 payload signed.signature = true

variable {signatures : List ManifestSignature}

theorem mem_signersOf {payload : Bytes} : entry ∈ signersOf M payload keys signatures ↔
      entry ∈ keys.entries ∧ ∃ signed ∈ signatures, signed.keyId = entry.1 ∧
        M.verify entry.2 payload signed.signature = true := by
  rw [signersOf, Finset.mem_filter, List.mem_toFinset]

theorem signersOf_congr {keys' : OperatorKeys} (payload : Bytes)
    {signatures' : List ManifestSignature}
    (hkeys : ∀ entry, entry ∈ keys'.entries ↔ entry ∈ keys.entries)
    (hsignatures : ∀ signed, signed ∈ signatures' ↔ signed ∈ signatures) :
    signersOf M payload keys' signatures' = signersOf M payload keys signatures := by
  ext entry
  simp only [mem_signersOf, hkeys, hsignatures]

theorem signersOf_cons (payload : Bytes) (signed : ManifestSignature)
    (signatures : List ManifestSignature) :
    signersOf M payload keys (signed :: signatures) =
      signersOf M payload keys [signed] ∪ signersOf M payload keys signatures := by
  ext entry
  simp only [mem_signersOf, Finset.mem_union, List.mem_cons, List.not_mem_nil, or_false,
    or_and_right, exists_or, and_or_left]

theorem acceptSignature_eq (payload : Bytes) (accepted : Finset String × Finset Bytes)
    (signed : ManifestSignature) :
    acceptSignature M payload keys accepted signed =
      (accepted.1 ∪ (signersOf M payload keys [signed]).image Prod.fst,
        accepted.2 ∪ (signersOf M payload keys [signed]).image Prod.snd) := by
  rw [acceptSignature]
  cases hkey : keys.entries.lookup signed.keyId with
  | none =>
    have hnone : signersOf M payload keys [signed] = ∅ := by
      refine Finset.eq_empty_of_forall_notMem fun entry hentry => ?_
      obtain ⟨hmem, signed', hsigned', hid, -⟩ := mem_signersOf.mp hentry
      have hlookup := lookup_of_mem keys.nodup hmem
      rw [← hid, List.mem_singleton.mp hsigned', hkey] at hlookup
      cases hlookup
    rw [hnone]
    simp
  | some key =>
    have hone : signersOf M payload keys [signed] =
        if M.verify key payload signed.signature then {(signed.keyId, key)} else ∅ := by
      ext entry
      rw [mem_signersOf]
      constructor
      · rintro ⟨hmem, signed', hsigned', hid, hverify⟩
        have hlookup := lookup_of_mem keys.nodup hmem
        rw [List.mem_singleton.mp hsigned'] at hid hverify
        rw [← hid, hkey] at hlookup
        rw [Option.some.inj hlookup, if_pos hverify, Finset.mem_singleton, hid]
      · intro hmem
        by_cases hverify : M.verify key payload signed.signature = true
        · rw [if_pos hverify, Finset.mem_singleton] at hmem
          rw [hmem]
          exact ⟨mem_of_lookup hkey, signed, List.mem_singleton_self _, rfl, hverify⟩
        · rw [if_neg hverify] at hmem
          exact absurd hmem (Finset.notMem_empty _)
    rw [hone]
    by_cases hverify : M.verify key payload signed.signature = true
    · rw [if_pos hverify]
      simp [hverify]
    · rw [if_neg hverify]
      simp [hverify]

theorem foldl_acceptSignature (payload : Bytes) (signatures : List ManifestSignature)
    (accepted : Finset String × Finset Bytes) :
    signatures.foldl (acceptSignature M payload keys) accepted =
      (accepted.1 ∪ (signersOf M payload keys signatures).image Prod.fst,
        accepted.2 ∪ (signersOf M payload keys signatures).image Prod.snd) := by
  induction signatures generalizing accepted with
  | nil =>
    have hnone : signersOf M payload keys [] = ∅ := by
      ext entry
      simp [mem_signersOf]
    rw [hnone]
    simp
  | cons signed signatures ih =>
    rw [List.foldl_cons, ih, acceptSignature_eq, signersOf_cons payload signed signatures]
    simp only [Finset.image_union, Finset.union_assoc]

/-! ### The whole check -/

def DisjointFrom (m : ClusterManifest) (keys : OperatorKeys) : Prop :=
  ∀ key ∈ m.wardenKeys, key.publicKey ∉ keys.entries.map Prod.snd

instance (m : ClusterManifest) (keys : OperatorKeys) : Decidable (m.DisjointFrom keys) :=
  inferInstanceAs (Decidable (∀ key ∈ m.wardenKeys, key.publicKey ∉ keys.entries.map Prod.snd))

theorem card_material (h : keys.WellFormed) (payload : Bytes) (signatures : List ManifestSignature) :
    ((signersOf M payload keys signatures).image Prod.snd).card =
      (signersOf M payload keys signatures).card := by
  refine Finset.card_image_of_injOn fun entry hentry entry' hentry' heq => ?_
  exact List.inj_on_of_nodup_map h.material (mem_signersOf.mp hentry).1
    (mem_signersOf.mp hentry').1 heq

theorem verifySignatures_ok_iff {m : ClusterManifest} {threshold : ℤ} {ids : Finset String} :
    m.verifySignatures M keys threshold = .ok ids ↔
      0 < threshold ∧ keys.WellFormed ∧ m.DisjointFrom keys ∧
      ∃ payload, m.payload M = .ok payload ∧
        threshold ≤ (signersOf M payload keys m.signatures).card ∧
        ids = (signersOf M payload keys m.signatures).image Prod.fst := by
  have hswap : ((keys.entries.map Prod.swap).reverse.map Prod.fst) =
      (keys.entries.map Prod.snd).reverse := by
    rw [List.map_reverse, List.map_map]
    rfl
  simp only [verifySignatures, bind_ok_iff, require_ok_iff, exists_unit_iff,
    checkOperatorKeys_ok_iff, foldl_acceptSignature, Finset.empty_union, pure_ok_iff]
  constructor
  · rintro ⟨hpos, _, ⟨hwell, rfl⟩, hdisjoint, payload, hpayload, hcard, rfl⟩
    rw [hswap] at hdisjoint
    rw [card_material hwell] at hcard
    exact ⟨hpos, hwell, fun key hkey hmem => hdisjoint key hkey (List.mem_reverse.mpr hmem), payload,
      hpayload, hcard, rfl⟩
  · rintro ⟨hpos, hwell, hdisjoint, payload, hpayload, hcard, rfl⟩
    refine ⟨hpos, _, ⟨hwell, rfl⟩, ?_, payload, hpayload, ?_, rfl⟩
    · rw [hswap]
      exact fun key hkey hmem => hdisjoint key hkey (List.mem_reverse.mp hmem)
    · rw [card_material hwell]
      exact hcard

end ClusterManifest

open ClusterManifest in
/-- Signatures are verified exactly if the threshold is positive, the trusted keys are well formed
and none is a warden's, and at least so many of them verify a signature that bears their id, in
whatever order and however often. -/
theorem manifest_signatures_counted (M : ManifestTools) (m : ClusterManifest) (keys : OperatorKeys)
    (threshold : ℤ) :
    ((∃ ids, m.verifySignatures M keys threshold = .ok ids) ↔
      0 < threshold ∧ keys.WellFormed ∧ m.DisjointFrom keys ∧
      ∃ payload, m.payload M = .ok payload ∧
        threshold ≤ (signersOf M payload keys m.signatures).card) ∧
    (∀ ids, m.verifySignatures M keys threshold = .ok ids →
      ∃ payload, m.payload M = .ok payload ∧
        threshold ≤ ((signersOf M payload keys m.signatures).image Prod.snd).card ∧
        ids = (signersOf M payload keys m.signatures).image Prod.fst) ∧
    (∀ signatures ids, (∀ signed, signed ∈ signatures ↔ signed ∈ m.signatures) →
      (({ m with signatures } : ClusterManifest).verifySignatures M keys threshold = .ok ids ↔
        m.verifySignatures M keys threshold = .ok ids)) ∧
    ∀ keys' ids, keys'.entries.Perm keys.entries →
      (m.verifySignatures M keys' threshold = .ok ids ↔
        m.verifySignatures M keys threshold = .ok ids) := by
  refine ⟨?_, ?_, ?_, ?_⟩
  · constructor
    · rintro ⟨ids, h⟩
      obtain ⟨hpos, hwell, hdisjoint, payload, hpayload, hcard, -⟩ := verifySignatures_ok_iff.mp h
      exact ⟨hpos, hwell, hdisjoint, payload, hpayload, hcard⟩
    · rintro ⟨hpos, hwell, hdisjoint, payload, hpayload, hcard⟩
      exact ⟨_, verifySignatures_ok_iff.mpr ⟨hpos, hwell, hdisjoint, payload, hpayload, hcard, rfl⟩⟩
  · intro ids h
    obtain ⟨-, hwell, -, payload, hpayload, hcard, hids⟩ := verifySignatures_ok_iff.mp h
    exact ⟨payload, hpayload, by rw [card_material hwell]; exact hcard, hids⟩
  · intro signatures ids hsame
    have hsigners : ∀ payload, signersOf M payload keys signatures =
        signersOf M payload keys m.signatures := fun payload => signersOf_congr payload
          (fun _ => Iff.rfl) hsame
    rw [verifySignatures_ok_iff, verifySignatures_ok_iff]
    simp only [hsigners]
    exact Iff.rfl
  · intro keys' ids hperm
    have hsigners : ∀ payload, signersOf M payload keys' m.signatures =
        signersOf M payload keys m.signatures := fun payload => signersOf_congr payload
          (fun _ => hperm.mem_iff) fun _ => Iff.rfl
    have hwell : keys'.WellFormed ↔ keys.WellFormed :=
      ⟨fun h => h.of_perm hperm, fun h => h.of_perm hperm.symm⟩
    have hdisjoint : m.DisjointFrom keys' ↔ m.DisjointFrom keys := by
      simp only [DisjointFrom, (hperm.map Prod.snd).mem_iff]
    rw [verifySignatures_ok_iff, verifySignatures_ok_iff, hwell, hdisjoint]
    simp only [hsigners]

open Sample

/-- One transition, allowed to a subject whose badge is known and lately seen. -/
def Sample.badgeRule : EvidenceRule :=
  .all [.leaf (.compare .eq "badge" (.object [("site", .text "b"), ("level", .number 2)])),
    .leaf (.fresh "seen_at" 5)]

def Sample.badgePolicy : PolicySpec where
  policyId := "p"
  policyVersion := "1"
  dimensions := [⟨"calls", "call", ""⟩]
  machine := ⟨"m", "s", [⟨"go", "s", "t", [⟨1, by decide⟩], "c", some badgeRule⟩]⟩
  maxLeaseTtlNs := 9
  receiptTtlNs := 3
  maxClockUncertaintyNs := 0
  transferGapWindow := 4

def Sample.operatorKey : Bytes := List.replicate 32 7

def Sample.soleWarden : WardenManifest where
  wardenId := "w"
  peerEndpoint := "https://w.example"
  clientEndpoint := "https://w.example:8443"
  initialShare := [⟨5, by decide⟩]
  keys := [⟨"k", List.replicate 32 1, none, none⟩]
  extensions := []

def Sample.signedManifest (keyId : String) : ClusterManifest where
  tenantId := "t"
  envelopeId := "e"
  configEpoch := 1
  createdAt := "2026-01-01T00:00:00Z"
  resources := [⟨"calls", "call", ""⟩]
  initialBudget := [⟨5, by decide⟩]
  wardens := [soleWarden]
  policies := [badgePolicy]
  extensions := []
  signatures := [⟨keyId, operatorKey ++ List.replicate 32 0⟩]

def Sample.operators : OperatorKeys := ⟨[("alice", operatorKey)], by decide⟩

theorem Sample.operators_wellFormed : operators.WellFormed :=
  ⟨by decide, by decide, by decide⟩

theorem Sample.signedManifest_payload (keyId : String) :
    ∃ payload, (signedManifest keyId).payload manifestTools = .ok payload := by
  have hok : ((signedManifest "").payload manifestTools).isOk = true := by
    decide +kernel
  -- the signatures are no part of what is signed
  change ∃ payload, (signedManifest "").payload manifestTools = .ok payload
  cases hpayload : (signedManifest "").payload manifestTools with
  | ok payload => exact ⟨payload, rfl⟩
  | error e =>
    rw [hpayload] at hok
    cases hok

open ClusterManifest in
theorem manifest_signatures_counted_alice :
    ((signedManifest "alice").make manifestTools).isOk = true ∧
      ∃ ids, (signedManifest "alice").verifySignatures manifestTools operators 1 =
        .ok ids := by
  refine ⟨by decide +kernel, ?_⟩
  obtain ⟨payload, hpayload⟩ := signedManifest_payload "alice"
  have hcard : (1 : ℤ) ≤ (signersOf manifestTools payload operators
      (signedManifest "alice").signatures).card := by
    rw [show signersOf manifestTools payload operators
      (signedManifest "alice").signatures = {("alice", operatorKey)} by rfl]
    decide
  exact (manifest_signatures_counted _ _ _ _).1.mpr
    ⟨by decide, operators_wellFormed, by decide +kernel, payload, hpayload, hcard⟩

/-- A threshold of zero is refused, and a trusted key does not count for a signature that bears another
id, although it verifies it. -/
theorem mislabelled_signature_not_counted :
    ((signedManifest "mallory").make manifestTools).isOk = true ∧
    operators.WellFormed ∧ (signedManifest "mallory").DisjointFrom operators ∧
    (∃ payload, (signedManifest "mallory").payload manifestTools = .ok payload ∧
      ∀ entry ∈ operators.entries, ∃ signed ∈ (signedManifest "mallory").signatures,
        manifestTools.verify entry.2 payload signed.signature = true) ∧
    (signedManifest "mallory").verifySignatures manifestTools operators 1 =
      .error (.signature "manifest has 0 distinct trusted signatures; 1 required") ∧
    (signedManifest "mallory").verifySignatures manifestTools operators 0 =
      .error (.validation "manifest signature threshold must be positive") := by
  obtain ⟨payload, hpayload⟩ := signedManifest_payload "mallory"
  refine ⟨by decide +kernel, operators_wellFormed, by decide +kernel,
    ⟨payload, hpayload, ?_⟩, by decide +kernel, by decide +kernel⟩
  refine List.forall_mem_singleton.mpr ⟨_, List.mem_singleton_self _, ?_⟩
  change decide (List.take 32 (operatorKey ++ List.replicate 32 0) = operatorKey) = true
  decide

end Lets
