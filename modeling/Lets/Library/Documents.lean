import Mathlib

set_option autoImplicit false

/-!
# Reading JSON text

The grammar a lenient JSON reader accepts, and what it reads: numbers that are not integers and the
names of numbers that are not finite are kept as they are written, members are the pairs found, with
whatever keys they have, and a string is the list of its code points, in which an escape may have
put half of a surrogate pair.
-/

namespace Library

inductive Document
  | null
  | bool (b : Bool)
  | integer (n : ℤ)
  | float (digits : List Char)
  | constant (name : List Char)
  | text (points : List ℕ)
  | array (items : List Document)
  | object (members : List (List ℕ × Document))

namespace Document

@[elab_as_elim]
theorem induction {P : Document → Prop} (null : P .null) (bool : ∀ b, P (.bool b))
    (integer : ∀ n, P (.integer n)) (float : ∀ s, P (.float s)) (constant : ∀ s, P (.constant s))
    (text : ∀ s, P (.text s)) (array : ∀ items, (∀ d ∈ items, P d) → P (.array items))
    (object : ∀ members : List (List ℕ × Document), (∀ m ∈ members, P m.2) → P (.object members))
    (d : Document) : P d :=
  @Document.rec P (fun items => ∀ d ∈ items, P d) (fun members => ∀ m ∈ members, P m.2)
    (fun m => P m.2) null bool integer float constant text array object
    (fun _ hd => (by cases hd))
    (fun _ _ hhead htail d hd => (List.mem_cons.mp hd).elim (fun h => h ▸ hhead) (htail d))
    (fun _ hm => (by cases hm))
    (fun _ _ hhead htail m hm => (List.mem_cons.mp hm).elim (fun h => h ▸ hhead) (htail m))
    (fun _ _ h => h) d

/-! ### Blanks -/

def isBlank (c : Char) : Bool := c = ' ' ∨ c = '\t' ∨ c = '\n' ∨ c = '\r'

def skipBlanks (s : List Char) : List Char := s.dropWhile isBlank

theorem skipBlanks_cons {c : Char} (h : isBlank c = false) (s : List Char) :
    skipBlanks (c :: s) = c :: s := by
  rw [skipBlanks, List.dropWhile_cons, h]
  rfl

/-! ### Strings -/

/-- One piece of a string: a character or a named escape, or the unit of a `\u` escape. -/
inductive StringUnit
  | point (n : ℕ)
  | escape (n : ℕ)

def hexadecimal (c : Char) : Option ℕ :=
  if c.isDigit then some (c.toNat - 48)
  else if 'a' ≤ c ∧ c ≤ 'f' then some (c.toNat - 87)
  else if 'A' ≤ c ∧ c ≤ 'F' then some (c.toNat - 55)
  else none

def fourDigits (a b c d : Char) : Option ℕ := do
  let a ← hexadecimal a
  let b ← hexadecimal b
  let c ← hexadecimal c
  let d ← hexadecimal d
  some (((a * 16 + b) * 16 + c) * 16 + d)

def namedEscape : Char → Option ℕ
  | '"' => some 34
  | '\\' => some 92
  | '/' => some 47
  | 'b' => some 8
  | 'f' => some 12
  | 'n' => some 10
  | 'r' => some 13
  | 't' => some 9
  | _ => none

def readUnits : List Char → Option (List StringUnit × List Char)
  | [] => none
  | '"' :: rest => some ([], rest)
  | '\\' :: 'u' :: a :: b :: c :: d :: rest => do
    let unit ← fourDigits a b c d
    let (units, rest) ← readUnits rest
    some (.escape unit :: units, rest)
  | '\\' :: c :: rest => do
    let point ← namedEscape c
    let (units, rest) ← readUnits rest
    some (.point point :: units, rest)
  | c :: rest =>
    if c.toNat < 32 ∨ c = '\\' then none
    else do
      let (units, rest) ← readUnits rest
      some (.point c.toNat :: units, rest)

def StringUnit.before (unit : StringUnit) (r : List StringUnit × List Char) :
    List StringUnit × List Char := (unit :: r.1, r.2)

theorem readUnits_named {c : Char} {point : ℕ} (h : namedEscape c = some point) (s : List Char) :
    readUnits ('\\' :: c :: s) = (readUnits s).map (StringUnit.point point).before := by
  have hu : c ≠ 'u' := by
    rintro rfl
    cases h
  rw [readUnits]
  · rw [h]
    cases readUnits s <;> rfl
  · intro _ _ _ _ _ hc
    exact absurd hc hu

theorem readUnits_escape {a b c d : Char} {unit : ℕ} (h : fourDigits a b c d = some unit)
    (s : List Char) : readUnits ('\\' :: 'u' :: a :: b :: c :: d :: s) =
      (readUnits s).map (StringUnit.escape unit).before := by
  rw [readUnits, h]
  cases readUnits s <;> rfl

theorem readUnits_plain {c : Char} (hcontrol : ¬ c.toNat < 32) (hquote : c ≠ '"')
    (hslash : c ≠ '\\') (s : List Char) :
    readUnits (c :: s) = (readUnits s).map (StringUnit.point c.toNat).before := by
  rw [readUnits]
  · rw [if_neg (not_or.mpr ⟨hcontrol, hslash⟩)]
    cases readUnits s <;> rfl
  · exact hquote
  · intro _ _ _ _ _ hc
    exact absurd hc hslash
  · intro _ _ hc
    exact absurd hc hslash

def joinSurrogates : List StringUnit → List ℕ
  | [] => []
  | .point n :: rest => n :: joinSurrogates rest
  | .escape high :: .escape low :: rest =>
    if (0xD800 ≤ high ∧ high ≤ 0xDBFF) ∧ (0xDC00 ≤ low ∧ low ≤ 0xDFFF) then
      (0x10000 + (high - 0xD800) * 0x400 + (low - 0xDC00)) :: joinSurrogates rest
    else high :: joinSurrogates (.escape low :: rest)
  | .escape n :: rest => n :: joinSurrogates rest

def readString (s : List Char) : Option (List ℕ × List Char) := do
  let (units, rest) ← readUnits s
  some (joinSurrogates units, rest)

/-! ### Numbers -/

/-- The digits of the integer part: a zero, or digits that do not begin with one. -/
def readInteger : List Char → Option (List Char × List Char)
  | [] => none
  | c :: rest =>
    if c = '0' then some (['0'], rest)
    else if c.isDigit then
      some ((c :: rest).takeWhile Char.isDigit, (c :: rest).dropWhile Char.isDigit)
    else none

def readMarked (mark s rest : List Char) : List Char × List Char :=
  if (rest.takeWhile Char.isDigit).isEmpty then ([], s)
  else (mark ++ rest.takeWhile Char.isDigit, rest.dropWhile Char.isDigit)

def readFraction : List Char → List Char × List Char
  | '.' :: rest => readMarked ['.'] ('.' :: rest) rest
  | s => ([], s)

def readExponent : List Char → List Char × List Char
  | [] => ([], [])
  | c :: rest =>
    if c = 'e' ∨ c = 'E' then
      match rest with
      | '+' :: digits => readMarked [c, '+'] (c :: rest) digits
      | '-' :: digits => readMarked [c, '-'] (c :: rest) digits
      | digits => readMarked [c] (c :: rest) digits
    else ([], c :: rest)

def readMagnitude (sign : List Char) (negate : ℕ → ℤ) (s : List Char) :
    Option (Document × List Char) := do
  let (digits, rest) ← readInteger s
  let (fraction, rest) := readFraction rest
  let (exponent, rest) := readExponent rest
  if fraction.isEmpty && exponent.isEmpty then
    some (.integer (negate (Nat.ofDigitChars 10 digits 0)), rest)
  else some (.float (sign ++ digits ++ fraction ++ exponent), rest)

def readNumber : List Char → Option (Document × List Char)
  | '-' :: rest => readMagnitude ['-'] (fun n => -(n : ℤ)) rest
  | s => readMagnitude [] (fun n => (n : ℤ)) s

def Stops (s : List Char) : Prop :=
  ∀ c ∈ s.head?, c.isDigit = false ∧ c ≠ '.' ∧ c ≠ 'e' ∧ c ≠ 'E'

theorem head?_toDigits {n : ℕ} (h : 0 < n) : ∀ c ∈ (Nat.toDigits 10 n).head?, c ≠ '0' := by
  induction n using Nat.strong_induction_on with
  | _ n ih =>
    by_cases hn : n < 10
    · have hdigit : ∀ k : Fin 10, 0 < k.1 → Nat.digitChar k ≠ '0' := by decide
      rw [Nat.toDigits_of_lt_base hn]
      intro c hc
      rw [← Option.some.inj hc]
      exact hdigit ⟨n, hn⟩ h
    · intro c hc
      have hdiv : 0 < n / 10 := Nat.div_pos (by omega) (by decide)
      rw [Nat.toDigits_of_base_le (by decide) (by omega)] at hc
      cases htext : Nat.toDigits 10 (n / 10) with
      | nil => exact absurd htext Nat.toDigits_ne_nil
      | cons first rest =>
        rw [htext] at hc
        exact ih (n / 10) (by omega) hdiv c (htext ▸ hc)

theorem readInteger_toDigits {s : List Char} (hs : Stops s) (n : ℕ) :
    readInteger (Nat.toDigits 10 n ++ s) = some (Nat.toDigits 10 n, s) := by
  have hdigits : ∀ c ∈ Nat.toDigits 10 n, c.isDigit = true := fun c hc =>
    Nat.isDigit_of_mem_toDigits (by decide) (by decide) hc
  have hdrop : s.dropWhile Char.isDigit = s := by
    cases s with
    | nil => rfl
    | cons c s => rw [List.dropWhile_cons, (hs c rfl).1]; rfl
  have htake : s.takeWhile Char.isDigit = [] := by
    cases s with
    | nil => rfl
    | cons c s => rw [List.takeWhile_cons, (hs c rfl).1]; rfl
  by_cases hn : 0 < n
  · cases htext : Nat.toDigits 10 n with
    | nil => exact absurd htext Nat.toDigits_ne_nil
    | cons c rest =>
      have hzero : c ≠ '0' := head?_toDigits hn c (by rw [htext]; rfl)
      rw [htext] at hdigits
      rw [List.cons_append, readInteger, if_neg hzero, if_pos (hdigits c List.mem_cons_self),
        ← List.cons_append, List.takeWhile_append_of_pos hdigits,
        List.dropWhile_append_of_pos hdigits, hdrop, htake, List.append_nil]
  · obtain rfl : n = 0 := by omega
    rfl

theorem readMagnitude_toDigits {s : List Char} (hs : Stops s) (sign : List Char)
    (negate : ℕ → ℤ) (n : ℕ) :
    readMagnitude sign negate (Nat.toDigits 10 n ++ s) = some (.integer (negate n), s) := by
  have hfraction : readFraction s = ([], s) := by
    unfold readFraction
    split
    · exact absurd rfl (hs '.' rfl).2.1
    · rfl
  have hexponent : readExponent s = ([], s) := by
    cases s with
    | nil => rfl
    | cons c s =>
      obtain ⟨-, -, he, hE⟩ := hs c rfl
      exact if_neg (not_or.mpr ⟨he, hE⟩)
  simp only [readMagnitude, readInteger_toDigits hs, Option.bind_eq_bind, Option.bind_some,
    hfraction, hexponent, Nat.ofDigitChars_toDigits (b := 10) (n := n) (by decide) (by decide)]
  rfl

/-! ### Values -/

def infinity : List Char := ['I', 'n', 'f', 'i', 'n', 'i', 't', 'y']

def literals : List (List Char × Document) :=
  [(['n', 'u', 'l', 'l'], .null), (['t', 'r', 'u', 'e'], .bool true),
    (['f', 'a', 'l', 's', 'e'], .bool false), (['N', 'a', 'N'], .constant ['N', 'a', 'N']),
    (infinity, .constant infinity), ('-' :: infinity, .constant ('-' :: infinity))]

def readLiteral (s : List Char) : Option (Document × List Char) :=
  literals.findSome? fun l => (l.1.isPrefixOf? s).map fun rest => (l.2, rest)

mutual

/-- A value and what follows it.  Each call is one step down or along, so that the length of the text
is more than enough. -/
def readValue : ℕ → List Char → Option (Document × List Char)
  | 0, _ => none
  | fuel + 1, s =>
    match s with
    | '"' :: rest => do
      let (points, rest) ← readString rest
      some (.text points, rest)
    | '[' :: rest =>
      match skipBlanks rest with
      | ']' :: rest => some (.array [], rest)
      | s => do
        let (items, rest) ← readItems fuel s
        some (.array items, rest)
    | '{' :: rest =>
      match skipBlanks rest with
      | '}' :: rest => some (.object [], rest)
      | s => do
        let (members, rest) ← readMembers fuel s
        some (.object members, rest)
    | s => (readLiteral s).or (readNumber s)

def readItems : ℕ → List Char → Option (List Document × List Char)
  | 0, _ => none
  | fuel + 1, s => do
    let (item, rest) ← readValue fuel s
    match skipBlanks rest with
    | ']' :: rest => some ([item], rest)
    | ',' :: rest => do
      let (items, rest) ← readItems fuel (skipBlanks rest)
      some (item :: items, rest)
    | _ => none

def readMembers : ℕ → List Char → Option (List (List ℕ × Document) × List Char)
  | 0, _ => none
  | fuel + 1, s =>
    match s with
    | '"' :: rest => do
      let (key, rest) ← readString rest
      match skipBlanks rest with
      | ':' :: rest => do
        let (value, rest) ← readValue fuel (skipBlanks rest)
        match skipBlanks rest with
        | '}' :: rest => some ([(key, value)], rest)
        | ',' :: rest => do
          let (members, rest) ← readMembers fuel (skipBlanks rest)
          some ((key, value) :: members, rest)
        | _ => none
      | _ => none
    | _ => none

end

theorem readValue_other {c : Char} (hquote : c ≠ '"') (harray : c ≠ '[') (hobject : c ≠ '{')
    (fuel : ℕ) (s : List Char) :
    readValue (fuel + 1) (c :: s) = (readLiteral (c :: s)).or (readNumber (c :: s)) := by
  rw [readValue]
  · exact fun _ h => hquote (List.cons.inj h).1
  · exact fun _ h => harray (List.cons.inj h).1
  · exact fun _ h => hobject (List.cons.inj h).1

theorem readValue_array {c : Char} (hblank : isBlank c = false) (hclose : c ≠ ']') (fuel : ℕ)
    (s : List Char) :
    readValue (fuel + 1) ('[' :: c :: s) =
      (readItems fuel (c :: s)).map fun r => (.array r.1, r.2) := by
  rw [readValue, skipBlanks_cons hblank]
  split
  · next heq => exact absurd (List.cons.inj heq).1 hclose
  · cases readItems fuel (c :: s) <;> rfl

theorem readValue_object {c : Char} (hblank : isBlank c = false) (hclose : c ≠ '}') (fuel : ℕ)
    (s : List Char) :
    readValue (fuel + 1) ('{' :: c :: s) =
      (readMembers fuel (c :: s)).map fun r => (.object r.1, r.2) := by
  rw [readValue, skipBlanks_cons hblank]
  split
  · next heq => exact absurd (List.cons.inj heq).1 hclose
  · cases readMembers fuel (c :: s) <;> rfl

def readDocument (s : List Char) : Option Document := do
  let (d, rest) ← readValue (s.length + 1) (skipBlanks s)
  if (skipBlanks rest).isEmpty then some d else none

end Document

end Library
