import Lets.Library.Framing

set_option autoImplicit false

/-!
# Base64

Three bytes are written with four of sixty-four symbols, and a last group of one or two bytes is
filled up with a padding symbol.
-/

namespace Library

/-- The symbols, and what each is worth to a reader, who may know more spellings than are written. -/
structure Alphabet (σ : Type) where
  symbol : Fin 64 → σ
  value : σ → Option (Fin 64)
  pad : σ
  value_symbol : ∀ i, value (symbol i) = some i
  value_pad : value pad = none

namespace Alphabet

/-! ### Eight bits from six and six from eight -/

def sextet (n : ℕ) : Fin 64 := Fin.ofNat 64 n

def firstByte (i j : Fin 64) : UInt8 := UInt8.ofNat (i.val * 4 + j.val / 16)

def secondByte (j k : Fin 64) : UInt8 := UInt8.ofNat (j.val % 16 * 16 + k.val / 4)

def thirdByte (k l : Fin 64) : UInt8 := UInt8.ofNat (k.val % 4 * 64 + l.val)

theorem firstByte_sextets (x : UInt8) {n : ℕ} (hn : n < 16) :
    firstByte (sextet (x.toNat / 4)) (sextet (x.toNat % 4 * 16 + n)) = x := by
  apply UInt8.toNat_inj.mp
  have hx := x.toNat_lt
  simp only [firstByte, sextet, Fin.ofNat, UInt8.toNat_ofNat']
  omega

theorem secondByte_sextets (x y : UInt8) {n : ℕ} (hn : n < 4) :
    secondByte (sextet (x.toNat % 4 * 16 + y.toNat / 16)) (sextet (y.toNat % 16 * 4 + n)) = y := by
  apply UInt8.toNat_inj.mp
  have hy := y.toNat_lt
  simp only [secondByte, sextet, Fin.ofNat, UInt8.toNat_ofNat']
  omega

theorem thirdByte_sextets (y z : UInt8) :
    thirdByte (sextet (y.toNat % 16 * 4 + z.toNat / 64)) (sextet (z.toNat % 64)) = z := by
  apply UInt8.toNat_inj.mp
  have hz := z.toNat_lt
  simp only [thirdByte, sextet, Fin.ofNat, UInt8.toNat_ofNat']
  omega

variable {σ : Type} (A : Alphabet σ)

theorem symbol_ne_pad (i : Fin 64) : A.symbol i ≠ A.pad := by
  intro h
  have hvalue := A.value_symbol i
  rw [h, A.value_pad] at hvalue
  cases hvalue

def encode : Bytes → List σ
  | [] => []
  | [x] => [A.symbol (sextet (x.toNat / 4)), A.symbol (sextet (x.toNat % 4 * 16)), A.pad, A.pad]
  | [x, y] =>
    [A.symbol (sextet (x.toNat / 4)), A.symbol (sextet (x.toNat % 4 * 16 + y.toNat / 16)),
      A.symbol (sextet (y.toNat % 16 * 4)), A.pad]
  | x :: y :: z :: bytes =>
    A.symbol (sextet (x.toNat / 4)) :: A.symbol (sextet (x.toNat % 4 * 16 + y.toNat / 16)) ::
      A.symbol (sextet (y.toNat % 16 * 4 + z.toNat / 64)) :: A.symbol (sextet (z.toNat % 64)) ::
        encode bytes

def padded (text : List σ) : List σ :=
  text ++ List.replicate ((4 - text.length % 4) % 4) A.pad

theorem padded_group (a b c d : σ) (text : List σ) :
    A.padded (a :: b :: c :: d :: text) = a :: b :: c :: d :: A.padded text := by
  have hlength : (text.length + 1 + 1 + 1 + 1) % 4 = text.length % 4 := by omega
  simp only [padded, List.cons_append, List.length_cons, hlength]

theorem exists_sextets (bytes : Bytes) :
    ∃ sextets : List (Fin 64), A.encode bytes = A.padded (sextets.map A.symbol) := by
  fun_induction A.encode bytes with
  | case1 => exact ⟨[], by simp [padded]⟩
  | case2 x => exact ⟨[_, _], rfl⟩
  | case3 x y => exact ⟨[_, _, _], rfl⟩
  | case4 x y z bytes ih =>
    obtain ⟨sextets, hsextets⟩ := ih
    rw [hsextets, ← A.padded_group]
    exact ⟨_ :: _ :: _ :: _ :: sextets, rfl⟩

variable [DecidableEq σ]

/-- The bytes of full groups of four symbols.  Padding stands at the very end only, and the bits it
leaves over are not looked at. -/
def decode : List σ → Option Bytes
  | [] => some []
  | a :: b :: c :: d :: text => do
    let i ← A.value a
    let j ← A.value b
    if text = [] ∧ d = A.pad then
      if c = A.pad then some [firstByte i j]
      else
        let k ← A.value c
        some [firstByte i j, secondByte j k]
    else
      let k ← A.value c
      let l ← A.value d
      let bytes ← decode text
      some (firstByte i j :: secondByte j k :: thirdByte k l :: bytes)
  | _ => none

theorem decode_encode (bytes : Bytes) : A.decode (A.encode bytes) = some bytes := by
  fun_induction A.encode bytes with
  | case1 => rfl
  | case2 x =>
    have hx := firstByte_sextets x (n := 0) (by decide)
    rw [Nat.add_zero] at hx
    simp [decode, A.value_symbol, hx]
  | case3 x y =>
    have hx := firstByte_sextets x (n := y.toNat / 16) (by have := y.toNat_lt; omega)
    have hy := secondByte_sextets x y (n := 0) (by decide)
    rw [Nat.add_zero] at hy
    simp [decode, A.value_symbol, A.symbol_ne_pad, hx, hy]
  | case4 x y z bytes ih =>
    have hx := firstByte_sextets x (n := y.toNat / 16) (by have := y.toNat_lt; omega)
    have hy := secondByte_sextets x y (n := z.toNat / 64) (by have := z.toNat_lt; omega)
    have hz := thirdByte_sextets y z
    simp [decode, A.value_symbol, A.symbol_ne_pad, ih, hx, hy, hz]

/-! ### Without the padding -/

def unpadded (text : List σ) : List σ := text.rdropWhile (· = A.pad)

theorem unpadded_padded {text : List σ} (h : A.pad ∉ text) : A.unpadded (A.padded text) = text := by
  have hstrip : ∀ n, A.unpadded (text ++ List.replicate n A.pad) = text := by
    intro n
    induction n with
    | zero =>
      rw [List.replicate_zero, List.append_nil]
      refine List.rdropWhile_eq_self_iff.mpr fun hne hpad => h ?_
      rw [← of_decide_eq_true hpad]
      exact List.getLast_mem hne
    | succ n ih =>
      rw [List.replicate_succ', ← List.append_assoc, unpadded,
        List.rdropWhile_concat_pos _ _ _ (by simp)]
      exact ih
  exact hstrip _

theorem exists_unpadded_encode (bytes : Bytes) :
    ∃ sextets : List (Fin 64), A.unpadded (A.encode bytes) = sextets.map A.symbol ∧
      A.encode bytes = A.padded (sextets.map A.symbol) := by
  obtain ⟨sextets, hsextets⟩ := A.exists_sextets bytes
  refine ⟨sextets, ?_, hsextets⟩
  rw [hsextets, A.unpadded_padded]
  intro hpad
  obtain ⟨i, -, hi⟩ := List.mem_map.mp hpad
  exact A.symbol_ne_pad i hi

theorem padded_unpadded_encode (bytes : Bytes) :
    A.padded (A.unpadded (A.encode bytes)) = A.encode bytes := by
  obtain ⟨sextets, hunpadded, hencode⟩ := A.exists_unpadded_encode bytes
  rw [hunpadded, hencode]

theorem exists_symbol_of_mem {bytes : Bytes} {c : σ} (h : c ∈ A.unpadded (A.encode bytes)) :
    ∃ i, c = A.symbol i := by
  obtain ⟨sextets, hunpadded, -⟩ := A.exists_unpadded_encode bytes
  rw [hunpadded] at h
  obtain ⟨i, -, rfl⟩ := List.mem_map.mp h
  exact ⟨i, rfl⟩

end Alphabet

end Library
