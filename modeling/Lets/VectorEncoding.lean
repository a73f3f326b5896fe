import Lets.Library.Framing
import Lets.RoundTrip

set_option autoImplicit false

/-!
# Resource vectors in the database

A vector is stored as its dimension in two bytes and its components in eight bytes each.
-/

namespace Lets

open Library

/-- `vector`, told how many dimensions there have to be. -/
def vectorOf (dimensions : Option ℕ) (value : Json) : Outcome (Σ d, ResourceVector d) := do
  let items ← vectorItems value
  require (∀ n ∈ dimensions, items.length = n) (.validation
    ("resource-vector dimension mismatch: expected " ++ toString (dimensions.getD 0) ++ ", got " ++
      toString items.length))
  vector value

/-- What `struct.pack` makes of the dimension and the components. -/
def ResourceVector.blob {d : ℕ} (v : ResourceVector d) : Bytes :=
  bigEndian 2 d ++ (v.amounts.map Subtype.val).flatMap (bigEndian 8)

def pack (value : Json) : Outcome Bytes := do
  let checked ← vector value
  require (checked.1 ≤ 0xFFFF) (.validation "resource vector has too many dimensions")
  pure checked.2.blob

def unpack (dimensions : Option ℕ) (value : Bytes) : Outcome (Σ d, ResourceVector d) := do
  require (2 ≤ value.length) (.validation "truncated resource-vector encoding")
  let (count, rest) := readNumber 2 value
  require (value.length = 2 + 8 * count) (.validation "invalid resource-vector encoding length")
  vectorOf dimensions (.array ((readNumbers 8 count rest).map fun n : ℕ => .number n))

theorem length_amounts {d : ℕ} (v : ResourceVector d) : v.amounts.length = d :=
  List.length_ofFn

theorem mapM_amount_iff {ns : List ℕ} {amounts : List Amount} :
    (ns.map fun n : ℕ => Json.number n).mapM amount = .ok amounts ↔ ns = amounts.map Subtype.val := by
  constructor
  · intro h
    induction ns generalizing amounts with
    | nil => cases h; rfl
    | cons n ns ih =>
      simp only [List.map_cons, List.mapM_cons, bind_ok_iff, pure_ok_iff] at h
      obtain ⟨a, ha, rest, hrest, rfl⟩ := h
      have hneg : ¬((n : ℤ) < 0) := by omega
      rw [amount, dif_neg hneg] at ha
      split_ifs at ha with hle
      cases ha
      rw [List.map_cons, ← ih hrest]
      rfl
  · rintro rfl
    rw [List.map_map]
    exact mapM_amount amounts

theorem vector_array_iff {ns : List ℕ} {d : ℕ} {v : ResourceVector d} :
    vector (.array (ns.map fun n : ℕ => .number n)) = .ok ⟨d, v⟩ ↔
      0 < d ∧ ns = v.amounts.map Subtype.val := by
  constructor
  · intro h
    simp only [vector, vectorItems, bind_ok_iff, pure_ok_iff, require_ok_iff, exists_unit_iff] at h
    obtain ⟨_, rfl, hne, amounts, hamounts, hread⟩ := h
    obtain rfl := mapM_amount_iff.mp hamounts
    -- the amounts that were read are those of the vector made of them
    have hsame : amounts = v.amounts := by
      have hget : (ResourceVector.ofList amounts).2.amounts = amounts := List.ofFn_get amounts
      rw [hread] at hget
      exact hget.symm
    refine ⟨?_, congrArg _ hsame⟩
    rw [← length_amounts v, ← hsame, List.length_pos_iff]
    rintro rfl
    cases hne
  · rintro ⟨hd, rfl⟩
    rw [List.map_map]
    exact vector_of hd v

theorem unpack_ok_iff {dimensions : Option ℕ} {bytes : Bytes} {d : ℕ} {v : ResourceVector d} :
    unpack dimensions bytes = .ok ⟨d, v⟩ ↔
      (∀ n ∈ dimensions, d = n) ∧ 0 < d ∧ d ≤ 65535 ∧ bytes = v.blob := by
  have hread : unpack dimensions bytes = .ok ⟨d, v⟩ ↔ 2 ≤ bytes.length ∧
      bytes.length = 2 + 8 * (readNumber 2 bytes).1 ∧
      (∀ n ∈ dimensions, (readNumber 2 bytes).1 = n) ∧ 0 < d ∧
      readNumbers 8 (readNumber 2 bytes).1 (readNumber 2 bytes).2 = v.amounts.map Subtype.val := by
    simp only [unpack, vectorOf, vectorItems, bind_ok_iff, pure_ok_iff, require_ok_iff,
      exists_unit_iff, exists_eq_left', List.length_map, length_readNumbers, vector_array_iff]
  rw [hread]
  constructor
  · rintro ⟨hshort, hlength, hdimensions, hd, hamounts⟩
    have hcount : (readNumber 2 bytes).1 = d := by
      rw [← length_amounts v, ← List.length_map, ← hamounts, length_readNumbers]
    rw [hcount] at hlength hdimensions hamounts
    have hhead : (bytes.take 2).length = 2 := List.length_take_of_le hshort
    have hbound := ofBigEndian_lt (bytes.take 2)
    have hfirst := bigEndian_ofBigEndian (bytes.take 2)
    have htail : (bytes.drop 2).length = 8 * d := by
      rw [List.length_drop]
      omega
    change ofBigEndian (bytes.take 2) = d at hcount
    rw [hhead, hcount] at hbound hfirst
    refine ⟨hdimensions, hd, Nat.le_of_lt_succ hbound, ?_⟩
    rw [ResourceVector.blob, ← hamounts, hfirst]
    change bytes = bytes.take 2 ++ (readNumbers 8 d (bytes.drop 2)).flatMap (bigEndian 8)
    rw [flatMap_readNumbers htail, List.take_append_drop]
  · rintro ⟨hdimensions, hd, hmax, rfl⟩
    have hnumber := @readNumber_append 2 d (Nat.lt_succ_of_le hmax)
    have hfits : ∀ n ∈ v.amounts.map Subtype.val, n < 256 ^ 8 := by
      intro n hn
      obtain ⟨a, _, rfl⟩ := List.mem_map.mp hn
      exact a.2.trans_lt (by decide)
    have hback := readNumbers_flatMap hfits
    have hlength : ((v.amounts.map Subtype.val).flatMap (bigEndian 8)).length = 8 * d := by
      simp only [List.length_flatMap, length_bigEndian, List.map_const', List.length_map,
        length_amounts, List.sum_replicate, smul_eq_mul, Nat.mul_comm]
    rw [List.length_map, length_amounts] at hback
    rw [ResourceVector.blob, hnumber, List.length_append, length_bigEndian, hlength]
    exact ⟨Nat.le_add_right _ _, rfl, hdimensions, hd, hback⟩

theorem pack_ok_iff {d : ℕ} {v : ResourceVector d} {bytes : Bytes} :
    pack v.json = .ok bytes ↔ 0 < d ∧ d ≤ 65535 ∧ bytes = v.blob := by
  have hvector : ∀ value, vector v.json = .ok value ↔ 0 < d ∧ value = ⟨d, v⟩ := by
    intro value
    constructor
    · intro h
      have hjson : v.json = .array ((v.amounts.map Subtype.val).map fun n : ℕ => .number n) := by
        rw [List.map_map]
        rfl
      by_cases hd : 0 < d
      · rw [vector_of hd] at h
        exact ⟨hd, (Except.ok.inj h).symm⟩
      · obtain ⟨e, w⟩ := value
        rw [hjson, vector_array_iff] at h
        have hlength := congrArg List.length h.2
        rw [List.length_map, List.length_map, length_amounts, length_amounts] at hlength
        exact absurd (hlength ▸ h.1) hd
    · rintro ⟨hd, rfl⟩
      exact vector_of hd v
  simp only [pack, bind_ok_iff, pure_ok_iff, require_ok_iff, exists_unit_iff, hvector]
  constructor
  · rintro ⟨_, ⟨hd, rfl⟩, hmax, rfl⟩
    exact ⟨hd, hmax, rfl⟩
  · rintro ⟨hd, hmax, rfl⟩
    exact ⟨_, ⟨hd, rfl⟩, hmax, rfl⟩

/-- The stored form of a vector of at most 65535 dimensions is read back, and nothing else is read:
a blob is accepted exactly when it is the stored form of a vector, which is the one it is read as. -/
theorem vector_encoding_exact :
    (∀ {d : ℕ} (v : ResourceVector d), 0 < d → d ≤ 65535 →
      ∃ blob, pack v.json = .ok blob ∧ unpack none blob = .ok ⟨d, v⟩) ∧
    (∀ blob, (∃ value, unpack none blob = .ok value) ↔
      ∃ d, 0 < d ∧ d ≤ 65535 ∧ ∃ v : ResourceVector d, pack v.json = .ok blob) ∧
    (∀ {d : ℕ} (v : ResourceVector d) (blob : Bytes),
      unpack none blob = .ok ⟨d, v⟩ ↔ pack v.json = .ok blob) ∧
    ∀ {d e : ℕ} (v : ResourceVector d) (w : ResourceVector e) (blob : Bytes),
      pack v.json = .ok blob → pack w.json = .ok blob →
        (⟨d, v⟩ : Σ d, ResourceVector d) = ⟨e, w⟩ := by
  have hsame : ∀ {d : ℕ} (v : ResourceVector d) (blob : Bytes),
      unpack none blob = .ok ⟨d, v⟩ ↔ pack v.json = .ok blob := by
    intro d v blob
    rw [unpack_ok_iff, pack_ok_iff]
    exact and_iff_right fun _ hn => (by cases hn)
  refine ⟨fun {d} v hd hmax => ?_, fun blob => ⟨?_, ?_⟩, hsame, fun v w blob hv hw => ?_⟩
  · have hpack : pack v.json = .ok v.blob := pack_ok_iff.mpr ⟨hd, hmax, rfl⟩
    exact ⟨_, hpack, (hsame v _).mpr hpack⟩
  · rintro ⟨⟨d, v⟩, hread⟩
    have hpack := (hsame v blob).mp hread
    obtain ⟨hd, hmax, _⟩ := pack_ok_iff.mp hpack
    exact ⟨d, hd, hmax, v, hpack⟩
  · rintro ⟨d, _, _, v, hpack⟩
    exact ⟨⟨d, v⟩, (hsame v blob).mpr hpack⟩
  · have hread := (hsame v blob).mpr hv
    rw [(hsame w blob).mpr hw] at hread
    exact (Except.ok.inj hread).symm

namespace Sample

def storedVector : ResourceVector 2 := ⟨fun i => if i = 0 then 3 else maxResource, by decide⟩

def stored : Bytes := [0, 2, 0, 0, 0, 0, 0, 0, 0, 3, 127, 255, 255, 255, 255, 255, 255, 255]

end Sample

open Sample

theorem vector_encoding_exact_pair :
    (∃ blob, pack storedVector.json = .ok blob ∧ unpack none blob = .ok ⟨2, storedVector⟩) ∧
    unpack none stored = .ok ⟨2, storedVector⟩ ∧
    pack (ResourceVector.zero 3).json ≠ .ok stored ∧
    ¬ ∃ d, 0 < d ∧ d ≤ 65535 ∧ ∃ v : ResourceVector d, pack v.json = .ok (stored ++ [0]) := by
  have hpack : pack storedVector.json = .ok stored := by decide +kernel
  obtain ⟨hback, hread, hsame, hone⟩ := vector_encoding_exact
  refine ⟨hback _ (by decide) (by decide), (hsame _ _).mpr hpack, fun hzero => ?_, fun hlong => ?_⟩
  · exact absurd (congrArg Sigma.fst (hone _ _ _ hpack hzero)) (by decide)
  · -- a blob that is longer than its dimensions say is not read
    obtain ⟨value, hvalue⟩ := (hread _).mpr hlong
    have hnone : (unpack none (stored ++ [0])).toOption = none := by decide +kernel
    rw [hvalue] at hnone
    cases hnone

end Lets
