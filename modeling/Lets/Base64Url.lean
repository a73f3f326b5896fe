import Lets.Library.Base64
import Lets.Resources

set_option autoImplicit false

/-!
# Unpadded base64url text

Keys and signatures are written with `b64url_encode`.
-/

namespace Lets

open Library

/-- The digits of `urlsafe_b64encode`. -/
def base64Digits : List Char :=
  "ABCDEFGHIJKLMNOPQRSTUVWXYZabcdefghijklmnopqrstuvwxyz0123456789-_".toList

def base64Digit (i : Fin 64) : Char := base64Digits.getD i.val 'A'

/-- What a character is worth to `b64decode(…, altchars=b"-_")`: the alternative characters are
translated to `+` and `/`, and those two remain what they are. -/
def base64Value (c : Char) : Option (Fin 64) :=
  if c = '+' then some ⟨62, by decide⟩
  else if c = '/' then some ⟨63, by decide⟩
  else (List.finRange 64).find? fun i => base64Digit i = c

def base64Url : Alphabet Char where
  symbol := base64Digit
  value := base64Value
  pad := '='
  value_symbol := by decide +kernel
  value_pad := by decide +kernel

def b64urlEncode (value : Bytes) : String :=
  String.ofList (base64Url.unpadded (base64Url.encode value))

/-- `b64url_decode` of a text.  Its `ValueError`s are `storage` errors here. -/
def b64urlDecode (value : String) : Outcome Bytes := do
  require ('=' ∉ value.toList) (.storage "base64url value must be unpadded text")
  require (value.toList.all fun c => c.toNat < 128)
    (.storage "base64url value must contain ASCII characters")
  let decoded ← orError (base64Url.decode (base64Url.padded value.toList))
    (.storage "malformed base64url value")
  require (b64urlEncode decoded = value) (.storage "base64url value is not canonical")
  pure decoded

theorem base64Digit_plain : ∀ i, base64Digit i ≠ '=' ∧ (base64Digit i).toNat < 128 := by
  decide +kernel

theorem b64urlDecode_ok_iff {value : String} {bytes : Bytes} :
    b64urlDecode value = .ok bytes ↔
      '=' ∉ value.toList ∧ (value.toList.all fun c => c.toNat < 128) ∧
      base64Url.decode (base64Url.padded value.toList) = some bytes ∧
      b64urlEncode bytes = value := by
  simp only [b64urlDecode, bind_ok_iff, require_ok_iff, exists_unit_iff, orError_ok_iff,
    pure_ok_iff]
  aesop

theorem b64urlDecode_b64urlEncode (bytes : Bytes) :
    b64urlDecode (b64urlEncode bytes) = .ok bytes := by
  have hplain : ∀ c ∈ (b64urlEncode bytes).toList, c ≠ '=' ∧ c.toNat < 128 := by
    intro c hc
    rw [b64urlEncode, String.toList_ofList] at hc
    obtain ⟨i, rfl⟩ := base64Url.exists_symbol_of_mem hc
    exact base64Digit_plain i
  refine b64urlDecode_ok_iff.mpr ⟨fun h => (hplain _ h).1 rfl, ?_, ?_, rfl⟩
  · exact List.all_eq_true.mpr fun c hc => decide_eq_true (hplain c hc).2
  · rw [b64urlEncode, String.toList_ofList, base64Url.padded_unpadded_encode,
      base64Url.decode_encode]

/-- Reading gives back what was written, and nothing else is read: the texts accepted are the texts
written, each for the bytes it was written for. -/
theorem base64url_exact :
    (∀ d, b64urlDecode (b64urlEncode d) = .ok d) ∧
    (∀ s, (∃ d, b64urlDecode s = .ok d) ↔ ∃ d, s = b64urlEncode d) ∧
    (∀ s d, b64urlDecode s = .ok d ↔ s = b64urlEncode d) ∧
    ∀ s s' d, b64urlDecode s = .ok d → b64urlDecode s' = .ok d → s = s' := by
  have hexact : ∀ s d, b64urlDecode s = .ok d ↔ s = b64urlEncode d := by
    intro s d
    constructor
    · intro h
      exact (b64urlDecode_ok_iff.mp h).2.2.2.symm
    · intro h
      rw [h]
      exact b64urlDecode_b64urlEncode d
  refine ⟨b64urlDecode_b64urlEncode, fun s => exists_congr (hexact s), hexact, ?_⟩
  intro s s' d h h'
  rw [(hexact s d).mp h, (hexact s' d).mp h']

theorem base64url_exact_word :
    b64urlDecode "-_8" = .ok [251, 255] ∧ ∀ s, b64urlDecode s = .ok [251, 255] → s = "-_8" :=
  have hword : b64urlDecode "-_8" = .ok [251, 255] :=
    (base64url_exact.2.2.1 _ _).mpr (by decide +kernel)
  ⟨hword, fun s hs => base64url_exact.2.2.2 s "-_8" _ hs hword⟩

-- The other spelling of a symbol, and bits left over, are read by the decoder and then refused.
example : b64urlDecode "-_8" = .ok [251, 255] ∧
    b64urlDecode "+/8" = .error (.storage "base64url value is not canonical") ∧
    b64urlDecode "-_9" = .error (.storage "base64url value is not canonical") := by
  decide +kernel

end Lets
