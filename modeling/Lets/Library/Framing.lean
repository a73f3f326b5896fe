import Mathlib

set_option autoImplicit false

/-!
# Byte strings that can be taken apart again

Numbers of fixed width and parts that carry their length.
-/

namespace Library

abbrev Bytes := List UInt8

instance : LawfulBEq Bytes := inferInstance

def bigEndian : ℕ → ℕ → Bytes
  | 0, _ => []
  | width + 1, n => bigEndian width (n / 256) ++ [UInt8.ofNat (n % 256)]

def ofBigEndian (bytes : Bytes) : ℕ :=
  bytes.foldl (fun n byte => n * 256 + byte.toNat) 0

def framed (part : Bytes) : Bytes :=
  bigEndian 8 part.length ++ part

def readNumber (width : ℕ) (bytes : Bytes) : ℕ × Bytes :=
  (ofBigEndian (bytes.take width), bytes.drop width)

def readNumbers (width : ℕ) : ℕ → Bytes → List ℕ
  | 0, _ => []
  | count + 1, bytes =>
    let (n, rest) := readNumber width bytes
    n :: readNumbers width count rest

def readFramed (bytes : Bytes) : Bytes × Bytes :=
  let (length, bytes) := readNumber 8 bytes
  (bytes.take length, bytes.drop length)

@[simp] theorem length_bigEndian (width n : ℕ) : (bigEndian width n).length = width := by
  induction width generalizing n with
  | zero => rfl
  | succ width ih => rw [bigEndian, List.length_append, ih]; rfl

theorem ofBigEndian_append (bytes : Bytes) (byte : UInt8) :
    ofBigEndian (bytes ++ [byte]) = ofBigEndian bytes * 256 + byte.toNat := by
  rw [ofBigEndian, List.foldl_append, ← ofBigEndian]
  rfl

variable {width : ℕ}

theorem ofBigEndian_bigEndian {n : ℕ} (h : n < 256 ^ width) :
    ofBigEndian (bigEndian width n) = n := by
  induction width generalizing n with
  | zero =>
    change 0 = n
    omega
  | succ width ih =>
    have hhigh : ofBigEndian (bigEndian width (n / 256)) = n / 256 := by
      apply ih
      rw [Nat.pow_succ] at h
      omega
    have hlow : (UInt8.ofNat (n % 256)).toNat = n % 256 := by
      rw [UInt8.toNat_ofNat']
      omega
    rw [bigEndian, ofBigEndian_append, hhigh, hlow]
    omega

theorem ofBigEndian_lt (bytes : Bytes) : ofBigEndian bytes < 256 ^ bytes.length := by
  induction bytes using List.reverseRecOn with
  | nil => exact Nat.one_pos
  | append_singleton bytes byte ih =>
    have hbyte := byte.toNat_lt
    rw [ofBigEndian_append, List.length_append, List.length_singleton, Nat.pow_succ]
    omega

theorem bigEndian_ofBigEndian (bytes : Bytes) :
    bigEndian bytes.length (ofBigEndian bytes) = bytes := by
  induction bytes using List.reverseRecOn with
  | nil => rfl
  | append_singleton bytes byte ih =>
    have hbyte := byte.toNat_lt
    have hhigh : (ofBigEndian bytes * 256 + byte.toNat) / 256 = ofBigEndian bytes := by omega
    have hlow : (ofBigEndian bytes * 256 + byte.toNat) % 256 = byte.toNat := by omega
    rw [ofBigEndian_append, List.length_append, List.length_singleton, bigEndian, hhigh, hlow, ih,
      UInt8.ofNat_toNat]

theorem readNumber_append {n : ℕ} (h : n < 256 ^ width) (rest : Bytes) :
    readNumber width (bigEndian width n ++ rest) = (n, rest) := by
  have hlength := length_bigEndian width n
  rw [readNumber, List.take_left' hlength, List.drop_left' hlength, ofBigEndian_bigEndian h]

theorem readNumbers_flatMap {ns : List ℕ} (h : ∀ n ∈ ns, n < 256 ^ width) :
    readNumbers width ns.length (ns.flatMap (bigEndian width)) = ns := by
  induction ns with
  | nil => rfl
  | cons n ns ih =>
    obtain ⟨hn, hns⟩ := List.forall_mem_cons.mp h
    rw [List.length_cons, List.flatMap_cons, readNumbers, readNumber_append hn]
    exact congrArg (n :: ·) (ih hns)

theorem flatMap_readNumbers {count : ℕ} {bytes : Bytes} (h : bytes.length = width * count) :
    (readNumbers width count bytes).flatMap (bigEndian width) = bytes := by
  induction count generalizing bytes with
  | zero => exact (List.length_eq_zero_iff.mp h).symm
  | succ count ih =>
    rw [Nat.mul_succ] at h
    have htake : (bytes.take width).length = width := by
      rw [List.length_take]
      omega
    have hdrop : (bytes.drop width).length = width * count := by
      rw [List.length_drop]
      omega
    have hfirst := bigEndian_ofBigEndian (bytes.take width)
    rw [htake] at hfirst
    rw [readNumbers, readNumber]
    change bigEndian width _ ++ (readNumbers width count _).flatMap _ = bytes
    rw [ih hdrop, hfirst, List.take_append_drop]

theorem length_readNumbers (width count : ℕ) (bytes : Bytes) :
    (readNumbers width count bytes).length = count := by
  induction count generalizing bytes with
  | zero => rfl
  | succ count ih => exact congrArg Nat.succ (ih _)

theorem readFramed_append {part : Bytes} (h : part.length < 256 ^ 8) (rest : Bytes) :
    readFramed (framed part ++ rest) = (part, rest) := by
  rw [readFramed, framed, List.append_assoc, readNumber_append h]
  simp only [List.take_left, List.drop_left]

theorem bigEndian_append_inj {n m : ℕ} {rest rest' : Bytes} (hn : n < 256 ^ width)
    (hm : m < 256 ^ width) (h : bigEndian width n ++ rest = bigEndian width m ++ rest') :
    n = m ∧ rest = rest' := by
  have hread := congrArg (readNumber width) h
  rw [readNumber_append hn, readNumber_append hm] at hread
  exact Prod.mk.inj hread

theorem framed_append_inj {part part' rest rest' : Bytes} (hpart : part.length < 256 ^ 8)
    (hpart' : part'.length < 256 ^ 8) (h : framed part ++ rest = framed part' ++ rest') :
    part = part' ∧ rest = rest' := by
  have hread := congrArg readFramed h
  rw [readFramed_append hpart, readFramed_append hpart'] at hread
  exact Prod.mk.inj hread

end Library
