import Lets.Library.Documents
import Lets.CanonicalJson

set_option autoImplicit false

/-!
# Reading canonical JSON back

`strict_json_loads` reads a text, refuses what canonical JSON has no place for, and returns the
value.
-/

namespace Lets

open Library Library.Document

@[elab_as_elim]
theorem Json.induction {P : Json → Prop} (null : P .null) (bool : ∀ b, P (.bool b))
    (number : ∀ n, P (.number n)) (text : ∀ s, P (.text s))
    (array : ∀ items, (∀ a ∈ items, P a) → P (.array items))
    (object : ∀ members : List (String × Json), (∀ m ∈ members, P m.2) → P (.object members))
    (a : Json) : P a :=
  @Json.rec P (fun items => ∀ a ∈ items, P a) (fun members => ∀ m ∈ members, P m.2)
    (fun m => P m.2) null bool number text array object
    (fun _ ha => (by cases ha))
    (fun _ _ hhead htail a ha => (List.mem_cons.mp ha).elim (fun h => h ▸ hhead) (htail a))
    (fun _ hm => (by cases hm))
    (fun _ _ hhead htail m hm => (List.mem_cons.mp hm).elim (fun h => h ▸ hhead) (htail m))
    (fun _ _ h => h) a

def points (s : String) : List ℕ := s.toList.map Char.toNat

namespace Json

mutual

def document : Json → Document
  | .null => .null
  | .bool b => .bool b
  | .number n => .integer n
  | .text s => .text (points s)
  | .array items => .array (documentItems items)
  | .object members => .object (documentMembers members)

def documentItems : List Json → List Document
  | [] => []
  | item :: rest => document item :: documentItems rest

def documentMembers : List (String × Json) → List (List ℕ × Document)
  | [] => []
  | (key, value) :: rest => (points key, document value) :: documentMembers rest

end

theorem documentItems_eq (items : List Json) : documentItems items = items.map document := by
  induction items with
  | nil => rfl
  | cons item rest ih => rw [documentItems, ih, List.map_cons]

theorem documentMembers_eq (members : List (String × Json)) :
    documentMembers members = members.map fun m => (points m.1, document m.2) := by
  induction members with
  | nil => rfl
  | cons member rest ih => rw [documentMembers, ih, List.map_cons]

mutual

def distinct : Json → Bool
  | .array items => itemsDistinct items
  | .object members => decide (members.map Prod.fst).Nodup && membersDistinct members
  | _ => true

def itemsDistinct : List Json → Bool
  | [] => true
  | item :: rest => distinct item && itemsDistinct rest

def membersDistinct : List (String × Json) → Bool
  | [] => true
  | (_, value) :: rest => distinct value && membersDistinct rest

end

/-- The values canonical JSON is for: numbers in range and objects that are dictionaries. -/
structure WellFormed (a : Json) : Prop where
  fits : a.fits = true
  distinct : a.distinct = true

theorem itemsFit_iff {items : List Json} :
    itemsFit items = true ↔ ∀ a ∈ items, a.fits = true := by
  induction items with
  | nil => simp [itemsFit]
  | cons item rest ih => simp [itemsFit, ih]

theorem membersFit_iff {members : List (String × Json)} :
    membersFit members = true ↔ ∀ m ∈ members, m.2.fits = true := by
  induction members with
  | nil => simp [membersFit]
  | cons member rest ih => simp [membersFit, ih]

theorem itemsDistinct_iff {items : List Json} :
    itemsDistinct items = true ↔ ∀ a ∈ items, a.distinct = true := by
  induction items with
  | nil => simp [itemsDistinct]
  | cons item rest ih => simp [itemsDistinct, ih]

theorem membersDistinct_iff {members : List (String × Json)} :
    membersDistinct members = true ↔ ∀ m ∈ members, m.2.distinct = true := by
  induction members with
  | nil => simp [membersDistinct]
  | cons member rest ih => simp [membersDistinct, ih]

theorem wellFormed_array {items : List Json} :
    WellFormed (.array items) ↔ ∀ a ∈ items, WellFormed a := by
  constructor
  · intro h a ha
    exact ⟨itemsFit_iff.mp h.fits a ha, itemsDistinct_iff.mp h.distinct a ha⟩
  · intro h
    exact ⟨itemsFit_iff.mpr fun a ha => (h a ha).fits,
      itemsDistinct_iff.mpr fun a ha => (h a ha).distinct⟩

theorem wellFormed_object {members : List (String × Json)} :
    WellFormed (.object members) ↔
      (members.map Prod.fst).Nodup ∧ ∀ m ∈ members, WellFormed m.2 := by
  have hdistinct : distinct (.object members) = true ↔
      (members.map Prod.fst).Nodup ∧ ∀ m ∈ members, m.2.distinct = true := by
    rw [distinct, Bool.and_eq_true, decide_eq_true_eq, membersDistinct_iff]
  constructor
  · intro h
    obtain ⟨hnodup, hall⟩ := hdistinct.mp h.distinct
    exact ⟨hnodup, fun m hm => ⟨membersFit_iff.mp h.fits m hm, hall m hm⟩⟩
  · intro h
    exact ⟨membersFit_iff.mpr fun m hm => (h.2 m hm).fits,
      hdistinct.mpr ⟨h.1, fun m hm => (h.2 m hm).distinct⟩⟩

end Json

/-! ### The text of a value, read -/

def unitOf (c : Char) : Document.StringUnit :=
  if c.toNat < 32 ∧ c.toNat ∉ [8, 9, 10, 12, 13] then .escape c.toNat else .point c.toNat

theorem fourDigits_control {n : ℕ} (h : n < 32) :
    fourDigits '0' '0' (hexDigit (n / 16)) (hexDigit (n % 16)) = some n := by
  have hall : ∀ n : Fin 32, fourDigits '0' '0' (hexDigit (n / 16)) (hexDigit (n % 16)) = some n.1 := by
    decide
  exact hall ⟨n, h⟩

theorem readUnits_escaped (c : Char) (s : List Char) :
    readUnits (escaped c ++ s) = (readUnits s).map (unitOf c).before := by
  unfold escaped
  split_ifs with hquote hslash hn hr ht hf hb hlow
  · rw [hquote]
    exact readUnits_named rfl s
  · rw [hslash]
    exact readUnits_named rfl s
  · rw [hn]
    exact readUnits_named rfl s
  · rw [hr]
    exact readUnits_named rfl s
  · rw [ht]
    exact readUnits_named rfl s
  · rw [hf]
    exact readUnits_named rfl s
  · rw [hb]
    exact readUnits_named rfl s
  · have hnamed : ∀ n ∈ [8, 9, 10, 12, 13], c.toNat ≠ n := by
      have hchar : ∀ n, c.toNat = n → c = Char.ofNat n := fun n h => h ▸ (Char.ofNat_toNat c).symm
      simp only [List.forall_mem_cons]
      exact ⟨fun h => hb (hchar _ h), fun h => ht (hchar _ h), fun h => hn (hchar _ h),
        fun h => hf (hchar _ h), fun h => hr (hchar _ h), fun _ h => (by cases h)⟩
    rw [unitOf, if_pos ⟨hlow, fun hmem => hnamed _ hmem rfl⟩]
    exact readUnits_escape (fourDigits_control hlow) s
  · rw [unitOf, if_neg fun h => hlow h.1]
    exact readUnits_plain hlow hquote hslash s

theorem joinSurrogates_units (s : List Char) :
    joinSurrogates (s.map unitOf) = s.map Char.toNat := by
  induction s with
  | nil => rfl
  | cons c s ih =>
    rw [List.map_cons, List.map_cons, unitOf]
    split_ifs with hcontrol
    · -- A control character is no half of a surrogate pair.
      rw [← ih]
      cases htail : s.map unitOf with
      | nil => rfl
      | cons unit rest =>
        cases unit with
        | point n => rfl
        | escape n =>
          rw [joinSurrogates, if_neg]
          rintro ⟨⟨hhigh, -⟩, -⟩
          omega
    · rw [joinSurrogates, ih]

theorem readString_stringText (s : String) (rest : List Char) :
    readString (s.toList.flatMap escaped ++ '"' :: rest) = some (points s, rest) := by
  have hunits : ∀ l : List Char,
      readUnits (l.flatMap escaped ++ '"' :: rest) = some (l.map unitOf, rest) := by
    intro l
    induction l with
    | nil => rfl
    | cons c l ih =>
      rw [List.flatMap_cons, List.append_assoc, readUnits_escaped, ih]
      rfl
  rw [readString, hunits, points, ← joinSurrogates_units]
  rfl

theorem stops_of {c : Char} (h : c.isDigit = false ∧ c ≠ '.' ∧ c ≠ 'e' ∧ c ≠ 'E') (s : List Char) :
    Stops (c :: s) := by
  intro c' hc'
  rw [← Option.some.inj hc']
  exact h

theorem ne_of_isDigit {c c' : Char} (h : c.isDigit = true) (h' : c'.isDigit = false) : c ≠ c' := by
  rintro rfl
  exact Bool.false_ne_true (h'.symm.trans h)

theorem toNat_digit {c : Char} (h : c.isDigit = true) : 48 ≤ c.toNat ∧ c.toNat ≤ 57 := by
  rw [Char.isDigit, Bool.and_eq_true, decide_eq_true_eq, decide_eq_true_eq] at h
  exact ⟨UInt32.le_iff_toNat_le.mp h.1, UInt32.le_iff_toNat_le.mp h.2⟩

theorem isBlank_digit {c : Char} (h : c.isDigit = true) : isBlank c = false := by
  simp [isBlank, ne_of_isDigit h]

theorem toDigits_eq_cons (n : ℕ) : ∃ c rest, Nat.toDigits 10 n = c :: rest ∧ c.isDigit = true := by
  cases hdigits : Nat.toDigits 10 n with
  | nil => exact absurd hdigits Nat.toDigits_ne_nil
  | cons c rest =>
    have hmem : c ∈ Nat.toDigits 10 n := hdigits ▸ List.mem_cons_self
    exact ⟨c, rest, rfl, Nat.isDigit_of_mem_toDigits (by decide) (by decide) hmem⟩

theorem readLiteral_digit {c : Char} (h : c.isDigit = true) (s : List Char) :
    readLiteral (c :: s) = none := by
  simp [readLiteral, literals, infinity, List.isPrefixOf?, (ne_of_isDigit h _).symm]

theorem readValue_number {fuel : ℕ} {s : List Char} (hs : Stops s) (n : ℤ) :
    readValue (fuel + 1) (numberText n ++ s) = some (.integer n, s) := by
  cases n with
  | ofNat n =>
    obtain ⟨c, rest, htext, hc⟩ := toDigits_eq_cons n
    have hread := readMagnitude_toDigits hs [] (fun n => (n : ℤ)) n
    rw [htext, List.cons_append] at hread
    rw [numberText, htext, List.cons_append,
      readValue_other (ne_of_isDigit hc rfl) (ne_of_isDigit hc rfl) (ne_of_isDigit hc rfl),
      readLiteral_digit hc, Option.none_or, Document.readNumber, hread]
    · rfl
    · exact fun _ h => ne_of_isDigit hc rfl (List.cons.inj h).1
  | negSucc n =>
    obtain ⟨c, rest, htext, hc⟩ := toDigits_eq_cons (n + 1)
    have hread := readMagnitude_toDigits hs ['-'] (fun n => -(n : ℤ)) (n + 1)
    have hliteral : readLiteral ('-' :: (c :: rest ++ s)) = none := by
      simp [readLiteral, literals, infinity, List.isPrefixOf?, (ne_of_isDigit hc _).symm]
    rw [htext] at hread
    rw [numberText, htext, List.cons_append, readValue_other (by decide) (by decide) (by decide),
      hliteral, Option.none_or, Document.readNumber, hread]
    rfl

namespace Json

theorem jsonText_begins (a : Json) (s : List Char) :
    ∃ c rest, a.jsonText ++ s = c :: rest ∧ isBlank c = false ∧ c ≠ ']' ∧
      c.toNat < 128 := by
  cases a with
  | null => exact ⟨_, _, rfl, rfl, by decide, by decide⟩
  | bool b => cases b with
    | true => exact ⟨_, _, rfl, rfl, by decide, by decide⟩
    | false => exact ⟨_, _, rfl, rfl, by decide, by decide⟩
  | number n => cases n with
    | ofNat n =>
      obtain ⟨c, rest, htext, hc⟩ := toDigits_eq_cons n
      exact ⟨c, rest ++ s, by rw [jsonText, numberText, htext]; rfl, isBlank_digit hc,
        ne_of_isDigit hc rfl, (toNat_digit hc).2.trans_lt (by decide)⟩
    | negSucc n => exact ⟨_, _, rfl, rfl, by decide, by decide⟩
  | text x => exact ⟨_, _, rfl, rfl, by decide, by decide⟩
  | array items => exact ⟨_, _, rfl, rfl, by decide, by decide⟩
  | object members => exact ⟨_, _, rfl, rfl, by decide, by decide⟩

/-- The text of a value is read as that value, with the members of objects in order. -/
def ReadsBack (a : Json) : Prop :=
  ∀ fuel s, a.jsonText.length ≤ fuel → Stops s →
    readValue fuel (a.jsonText ++ s) = some (a.normalize.document, s)

theorem readItems_closing {items : List Json} {item : Json} (hall : ∀ a ∈ item :: items, a.ReadsBack)
    {fuel : ℕ} {s : List Char}
    (hfuel : (item.jsonText ++ closing jsonText ',' ']' items).length ≤ fuel) :
    readItems fuel (item.jsonText ++ closing jsonText ',' ']' items ++ s) =
      some ((item :: items).map fun a => a.normalize.document, s) := by
  induction items generalizing item fuel with
  | nil =>
    obtain ⟨fuel, rfl⟩ : ∃ f, fuel = f + 1 := ⟨fuel - 1, by simp [closing] at hfuel; omega⟩
    have hitem := hall item List.mem_cons_self fuel (']' :: s)
      (by simp [closing] at hfuel; omega) (stops_of (by decide) s)
    simp only [closing, List.append_assoc, List.singleton_append, readItems, hitem,
      Option.bind_eq_bind, Option.bind_some, skipBlanks_cons (show isBlank ']' = false by decide),
      List.map_cons, List.map_nil]
  | cons next items ih =>
    obtain ⟨fuel, rfl⟩ : ∃ f, fuel = f + 1 := ⟨fuel - 1, by simp [closing] at hfuel; omega⟩
    obtain ⟨c, rest, htext, hc, -⟩ := jsonText_begins next (closing jsonText ',' ']' items ++ s)
    have hitem := hall item List.mem_cons_self fuel
      (',' :: (next.jsonText ++ closing jsonText ',' ']' items ++ s))
      (by simp [closing] at hfuel; omega) (stops_of (by decide) _)
    have hrest : readItems fuel (next.jsonText ++ closing jsonText ',' ']' items ++ s) = _ :=
      ih (fun a ha => hall a (List.mem_cons_of_mem _ ha)) (by simp [closing] at hfuel ⊢; omega)
    have hskip : skipBlanks (next.jsonText ++ closing jsonText ',' ']' items ++ s) =
        next.jsonText ++ closing jsonText ',' ']' items ++ s := by
      rw [List.append_assoc, htext, skipBlanks_cons hc]
    rw [closing, List.append_assoc, List.cons_append]
    simp only [readItems, hitem, Option.bind_eq_bind, Option.bind_some,
      skipBlanks_cons (show isBlank ',' = false by decide), hskip, hrest]
    rfl

def memberOf (m : String × Json) : List Char := memberText (m.1, m.2.jsonText)

theorem readMembers_member {m : String × Json} (hm : m.2.ReadsBack) {fuel : ℕ}
    (hfuel : m.2.jsonText.length ≤ fuel) {t : List Char} (ht : Stops t) :
    readMembers (fuel + 1) (memberOf m ++ t) =
      match skipBlanks t with
      | '}' :: rest => some ([(points m.1, m.2.normalize.document)], rest)
      | ',' :: rest => do
        let (members, rest) ← readMembers fuel (skipBlanks rest)
        some ((points m.1, m.2.normalize.document) :: members, rest)
      | _ => none := by
  obtain ⟨c, rest, htext, hc, -⟩ := jsonText_begins m.2 t
  have hshape : memberOf m ++ t =
      '"' :: (m.1.toList.flatMap escaped ++ '"' :: ':' :: (m.2.jsonText ++ t)) := by
    simp [memberOf, memberText, stringText]
  have hskip : skipBlanks (m.2.jsonText ++ t) = m.2.jsonText ++ t := by
    rw [htext, skipBlanks_cons hc]
  have hcolon : ∀ r, skipBlanks (':' :: r) = ':' :: r := skipBlanks_cons (by decide)
  have hread := readMembers.eq_def (fuel + 1) (memberOf m ++ t)
  simp only [hshape, readString_stringText, Option.bind_eq_bind, Option.bind_some, hcolon, hskip,
    hm fuel t hfuel ht] at hread
  rw [hshape]
  exact hread

theorem readMembers_closing {members : List (String × Json)} {member : String × Json}
    (hall : ∀ m ∈ member :: members, m.2.ReadsBack) {fuel : ℕ} {s : List Char}
    (hfuel : (memberOf member ++ closing memberOf ',' '}' members).length ≤ fuel) :
    readMembers fuel (memberOf member ++ closing memberOf ',' '}' members ++ s) =
      some ((member :: members).map fun m => (points m.1, m.2.normalize.document), s) := by
  have hlength : ∀ m, m.2.jsonText.length ≤ (memberOf m).length := by
    intro m
    simp [memberOf, memberText]
    omega
  induction members generalizing member fuel with
  | nil =>
    obtain ⟨fuel, rfl⟩ : ∃ f, fuel = f + 1 := ⟨fuel - 1, by simp [closing] at hfuel; omega⟩
    have hle := hlength member
    rw [closing, List.append_assoc, List.singleton_append,
      readMembers_member (hall member List.mem_cons_self) (by simp [closing] at hfuel; omega)
        (stops_of (by decide) s), skipBlanks_cons (by decide)]
    rfl
  | cons next members ih =>
    obtain ⟨fuel, rfl⟩ : ∃ f, fuel = f + 1 := ⟨fuel - 1, by simp [closing] at hfuel; omega⟩
    have hle := hlength member
    have hrest : readMembers fuel (memberOf next ++ closing memberOf ',' '}' members ++ s) = _ :=
      ih (fun m hm => hall m (List.mem_cons_of_mem _ hm)) (by simp [closing] at hfuel ⊢; omega)
    have hskip : skipBlanks (memberOf next ++ closing memberOf ',' '}' members ++ s) =
        memberOf next ++ closing memberOf ',' '}' members ++ s :=
      skipBlanks_cons (by decide) _
    rw [closing, List.append_assoc, List.cons_append,
      readMembers_member (hall member List.mem_cons_self) (by simp [closing] at hfuel; omega)
        (stops_of (by decide) _), skipBlanks_cons (by decide)]
    simp only [hskip, hrest]
    rfl

theorem exists_fuel {a : Json} {fuel : ℕ} (h : a.jsonText.length ≤ fuel) : ∃ f, fuel = f + 1 := by
  obtain ⟨c, rest, htext, -⟩ := jsonText_cons a
  rw [htext, List.length_cons] at h
  exact ⟨fuel - 1, by omega⟩

theorem readsBack_array {items : List Json} (hall : ∀ a ∈ items, a.ReadsBack) :
    (Json.array items).ReadsBack := by
  intro fuel s hfuel hs
  obtain ⟨fuel, rfl⟩ := exists_fuel hfuel
  cases items with
  | nil => rfl
  | cons item rest =>
    have htext : (Json.array (item :: rest)).jsonText =
        '[' :: (item.jsonText ++ closing jsonText ',' ']' rest) := by
      rw [jsonText, itemTexts_eq, listing_map]
      rfl
    rw [htext, List.length_cons] at hfuel
    obtain ⟨c, tail, hbegin, hblank, hclose, -⟩ :=
      jsonText_begins item (closing jsonText ',' ']' rest ++ s)
    have hitems := readItems_closing hall (s := s) (Nat.le_of_succ_le_succ hfuel)
    rw [List.append_assoc, hbegin] at hitems
    rw [htext, List.cons_append, List.append_assoc, hbegin, readValue_array hblank hclose, hitems,
      normalize, document, normalizeItems_eq, documentItems_eq, List.map_map]
    rfl

theorem readsBack_object {members : List (String × Json)} (hall : ∀ m ∈ members, m.2.ReadsBack) :
    (Json.object members).ReadsBack := by
  intro fuel s hfuel hs
  obtain ⟨fuel, rfl⟩ := exists_fuel hfuel
  have hsorted : ∀ m ∈ byKey members, m.2.ReadsBack := fun m hm =>
    hall m ((byKey_perm members).mem_iff.mp hm)
  have htext : (Json.object members).jsonText = '{' :: listing memberOf ',' '}' (byKey members) := by
    rw [jsonText, memberTexts_eq, byKey_map, listing_map]
    rfl
  rw [htext, List.length_cons] at hfuel
  rw [htext, List.cons_append, normalize, document, normalizeMembers_eq, documentMembers_eq, byKey_map,
    List.map_map]
  cases hmembers : byKey members with
  | nil => rfl
  | cons member rest =>
    rw [hmembers] at hsorted hfuel
    have hread := readMembers_closing hsorted (s := s) (Nat.le_of_succ_le_succ hfuel)
    have hvalue : readValue (fuel + 1)
          ('{' :: (memberOf member ++ closing memberOf ',' '}' rest ++ s)) =
        (readMembers fuel (memberOf member ++ closing memberOf ',' '}' rest ++ s)).map
          fun r => (.object r.1, r.2) := readValue_object (by decide) (by decide) fuel _
    rw [listing, hvalue, hread]
    rfl

theorem readsBack (a : Json) : a.ReadsBack := by
  induction a using Json.induction with
  | null =>
    intro fuel s hfuel hs
    obtain ⟨fuel, rfl⟩ := exists_fuel hfuel
    exact readValue_other (by decide) (by decide) (by decide) fuel _
  | bool b =>
    intro fuel s hfuel hs
    obtain ⟨fuel, rfl⟩ := exists_fuel hfuel
    cases b with
    | true => exact readValue_other (by decide) (by decide) (by decide) fuel _
    | false => exact readValue_other (by decide) (by decide) (by decide) fuel _
  | number n =>
    intro fuel s hfuel hs
    obtain ⟨fuel, rfl⟩ := exists_fuel hfuel
    exact readValue_number hs n
  | text x =>
    intro fuel s hfuel hs
    obtain ⟨fuel, rfl⟩ := exists_fuel hfuel
    rw [jsonText, stringText, List.cons_append, List.append_assoc, List.singleton_append, readValue,
      readString_stringText]
    rfl
  | array items ih => exact readsBack_array ih
  | object members ih => exact readsBack_object ih

end Json

/-! ### What is refused -/

def scalar (n : ℕ) : Outcome Char := do
  require (n.isValidChar) (.storage "canonical JSON strings must be valid Unicode scalar values")
  pure (Char.ofNat n)

/-- `unique_object`: the members so far, and those to come. -/
def uniqueObject (result : List (String × Json)) :
    List (String × Json) → Outcome (List (String × Json))
  | [] => pure result
  | (key, item) :: rest => do
    require (key ∉ result.map Prod.fst) (.storage ("duplicate JSON object key: " ++ quoted key))
    uniqueObject (result ++ [(key, item)]) rest

mutual

def strictValue : Document → Outcome Json
  | .null => pure .null
  | .bool b => pure (.bool b)
  | .integer n => do
    require (Json.numberFits n = true)
      (.storage "canonical JSON integers must fit in signed 64-bit range")
    pure (.number n)
  | .float digits =>
    .error (.storage ("floating-point JSON number is forbidden: " ++ String.ofList digits))
  | .constant name =>
    .error (.storage ("non-finite JSON number is forbidden: " ++ String.ofList name))
  | .text points => do
    let s ← points.mapM scalar
    pure (.text (String.ofList s))
  | .array items => do
    let items ← strictItems items
    pure (.array items)
  | .object members => do
    let pairs ← strictMembers members
    let members ← uniqueObject [] pairs
    pure (.object members)

def strictItems : List Document → Outcome (List Json)
  | [] => pure []
  | item :: rest => do
    let item ← strictValue item
    let rest ← strictItems rest
    pure (item :: rest)

def strictMembers : List (List ℕ × Document) → Outcome (List (String × Json))
  | [] => pure []
  | (key, value) :: rest => do
    let key ← key.mapM scalar
    let value ← strictValue value
    let rest ← strictMembers rest
    pure ((String.ofList key, value) :: rest)

end

theorem toNat_ofNat {n : ℕ} (h : n.isValidChar) : (Char.ofNat n).toNat = n := by
  rw [Char.ofNat, dif_pos h]
  rfl

theorem scalars_ok_iff {l : List ℕ} {s : List Char} :
    l.mapM scalar = .ok s ↔ l = s.map Char.toNat := by
  induction l generalizing s with
  | nil =>
    cases s with
    | nil => simp [List.mapM_nil, pure_ok_iff]
    | cons c s => simp [List.mapM_nil, pure_ok_iff]
  | cons n l ih =>
    rw [List.mapM_cons]
    simp only [bind_ok_iff, pure_ok_iff, scalar, require_ok_iff, exists_unit_iff, ih]
    constructor
    · rintro ⟨c, ⟨hvalid, rfl⟩, s, rfl, rfl⟩
      rw [List.map_cons, toNat_ofNat hvalid]
    · intro h
      cases s with
      | nil => cases h
      | cons c s =>
        obtain ⟨rfl, rfl⟩ := List.cons.inj h
        exact ⟨c, ⟨c.valid, Char.ofNat_toNat c⟩, s, rfl, rfl⟩

theorem uniqueObject_ok_iff {result pairs members : List (String × Json)}
    (h : (result.map Prod.fst).Nodup) :
    uniqueObject result pairs = .ok members ↔
      members = result ++ pairs ∧ ((result ++ pairs).map Prod.fst).Nodup := by
  induction pairs generalizing result with
  | nil =>
    rw [uniqueObject, pure_ok_iff, List.append_nil]
    exact ⟨fun heq => ⟨heq.symm, h⟩, fun heq => heq.1.symm⟩
  | cons pair rest ih =>
    obtain ⟨key, item⟩ := pair
    have hmove : result ++ (key, item) :: rest = (result ++ [(key, item)]) ++ rest := by simp
    simp only [uniqueObject, bind_ok_iff, require_ok_iff, exists_unit_iff]
    constructor
    · rintro ⟨hnew, hrest⟩
      have hnodup : ((result ++ [(key, item)]).map Prod.fst).Nodup := by
        rw [List.map_append, List.nodup_append]
        exact ⟨h, by simp, fun a ha b hb => by
          rw [List.map_singleton, List.mem_singleton] at hb
          intro heq
          have hkey : a = key := heq.trans hb
          exact hnew (hkey ▸ ha)⟩
      rw [hmove]
      exact (ih hnodup).mp hrest
    · rw [hmove]
      rintro ⟨heq, hnodup⟩
      have hfront : ((result ++ [(key, item)]).map Prod.fst).Nodup := by
        rw [List.map_append] at hnodup
        exact (List.nodup_append.mp hnodup).1
      refine ⟨fun hmem => ?_, (ih hfront).mpr ⟨heq, hnodup⟩⟩
      rw [List.map_append, List.nodup_append] at hfront
      exact hfront.2.2 key hmem key (List.mem_singleton.mpr rfl) rfl

theorem uniqueObject_nil_ok_iff {pairs members : List (String × Json)} :
    uniqueObject [] pairs = .ok members ↔ members = pairs ∧ (pairs.map Prod.fst).Nodup :=
  @uniqueObject_ok_iff [] pairs members List.nodup_nil

theorem strictItems_sound {items : List Document}
    (ih : ∀ d ∈ items, ∀ {v}, strictValue d = .ok v → d = v.document ∧ v.WellFormed)
    {vs : List Json} (h : strictItems items = .ok vs) :
    items = vs.map Json.document ∧ ∀ v ∈ vs, v.WellFormed := by
  induction items generalizing vs with
  | nil =>
    obtain rfl := Except.ok.inj h
    exact ⟨rfl, fun _ hv => (by cases hv)⟩
  | cons item rest ihrest =>
    simp only [strictItems, bind_ok_iff, pure_ok_iff] at h
    obtain ⟨v, hv, vs, hvs, rfl⟩ := h
    obtain ⟨rfl, hwell⟩ := ih item List.mem_cons_self hv
    obtain ⟨rfl, hall⟩ := ihrest (fun d hd => ih d (List.mem_cons_of_mem _ hd)) hvs
    exact ⟨rfl, List.forall_mem_cons.mpr ⟨hwell, hall⟩⟩

theorem strictMembers_sound {members : List (List ℕ × Document)}
    (ih : ∀ m ∈ members, ∀ {v}, strictValue m.2 = .ok v → m.2 = v.document ∧ v.WellFormed)
    {pairs : List (String × Json)} (h : strictMembers members = .ok pairs) :
    members = pairs.map (fun m => (points m.1, m.2.document)) ∧ ∀ m ∈ pairs, m.2.WellFormed := by
  induction members generalizing pairs with
  | nil =>
    obtain rfl := Except.ok.inj h
    exact ⟨rfl, fun _ hm => (by cases hm)⟩
  | cons member rest ihrest =>
    obtain ⟨key, value⟩ := member
    simp only [strictMembers, bind_ok_iff, pure_ok_iff, scalars_ok_iff] at h
    obtain ⟨s, rfl, v, hv, pairs, hpairs, rfl⟩ := h
    obtain ⟨rfl, hwell⟩ := ih (_, value) List.mem_cons_self hv
    obtain ⟨rfl, hall⟩ := ihrest (fun m hm => ih m (List.mem_cons_of_mem _ hm)) hpairs
    refine ⟨?_, List.forall_mem_cons.mpr ⟨hwell, hall⟩⟩
    rw [List.map_cons, points, String.toList_ofList]

theorem strictValue_sound {d : Document} {v : Json} (h : strictValue d = .ok v) :
    d = v.document ∧ v.WellFormed := by
  induction d using Document.induction generalizing v with
  | null =>
    obtain rfl := Except.ok.inj h
    exact ⟨rfl, rfl, rfl⟩
  | bool b =>
    obtain rfl := Except.ok.inj h
    exact ⟨rfl, rfl, rfl⟩
  | integer n =>
    simp only [strictValue, bind_ok_iff, require_ok_iff, exists_unit_iff, pure_ok_iff] at h
    obtain ⟨hfits, rfl⟩ := h
    exact ⟨rfl, hfits, rfl⟩
  | float digits => cases h
  | constant name => cases h
  | text points =>
    simp only [strictValue, bind_ok_iff, pure_ok_iff, scalars_ok_iff] at h
    obtain ⟨s, rfl, rfl⟩ := h
    refine ⟨?_, rfl, rfl⟩
    rw [Json.document, Lets.points, String.toList_ofList]
  | array items ih =>
    simp only [strictValue, bind_ok_iff, pure_ok_iff] at h
    obtain ⟨vs, hvs, rfl⟩ := h
    obtain ⟨rfl, hall⟩ := strictItems_sound ih hvs
    exact ⟨by rw [Json.document, Json.documentItems_eq], Json.wellFormed_array.mpr hall⟩
  | object members ih =>
    simp only [strictValue, bind_ok_iff, pure_ok_iff, uniqueObject_nil_ok_iff] at h
    obtain ⟨pairs, hpairs, unique, ⟨rfl, hnodup⟩, rfl⟩ := h
    obtain ⟨rfl, hall⟩ := strictMembers_sound ih hpairs
    exact ⟨by rw [Json.document, Json.documentMembers_eq], Json.wellFormed_object.mpr ⟨hnodup, hall⟩⟩

theorem strictItems_document {items : List Json}
    (h : ∀ v ∈ items, strictValue v.document = .ok v) :
    strictItems (items.map Json.document) = .ok items := by
  induction items with
  | nil => rfl
  | cons item rest ih =>
    rw [List.map_cons, strictItems, h item List.mem_cons_self,
      ih fun v hv => h v (List.mem_cons_of_mem _ hv)]
    rfl

theorem strictMembers_document {members : List (String × Json)}
    (h : ∀ m ∈ members, strictValue m.2.document = .ok m.2) :
    strictMembers (members.map fun m => (points m.1, m.2.document)) = .ok members := by
  induction members with
  | nil => rfl
  | cons member rest ih =>
    have hkey : (points member.1).mapM scalar = .ok member.1.toList := scalars_ok_iff.mpr rfl
    rw [List.map_cons, strictMembers, hkey, h member List.mem_cons_self,
      ih fun m hm => h m (List.mem_cons_of_mem _ hm)]
    exact congrArg (fun s => Except.ok ((s, member.2) :: rest)) String.ofList_toList

theorem strictValue_document {v : Json} (h : v.WellFormed) : strictValue v.document = .ok v := by
  induction v using Json.induction with
  | null => rfl
  | bool b => rfl
  | number n =>
    have hfits : Json.numberFits n = true := h.fits
    rw [Json.document, strictValue, hfits]
    rfl
  | text s =>
    have hpoints : (points s).mapM scalar = .ok s.toList := scalars_ok_iff.mpr rfl
    rw [Json.document, strictValue, hpoints]
    exact congrArg (fun s => Except.ok (Json.text s)) (String.ofList_toList)
  | array items ih =>
    have hall := Json.wellFormed_array.mp h
    rw [Json.document, Json.documentItems_eq, strictValue,
      strictItems_document fun v hv => ih v hv (hall v hv)]
    rfl
  | object members ih =>
    obtain ⟨hnodup, hall⟩ := Json.wellFormed_object.mp h
    have hunique : uniqueObject [] members = .ok members :=
      uniqueObject_nil_ok_iff.mpr ⟨rfl, hnodup⟩
    rw [Json.document, Json.documentMembers_eq, strictValue,
      strictMembers_document fun m hm => ih m hm (hall m hm)]
    exact congrArg (fun r => r >>= fun m => Except.ok (Json.object m)) hunique

/-! ### Values in the order of their keys -/

theorem byKey_sorted {β : Type} (members : List (String × β)) :
    (byKey members).Pairwise fun a b => a.1 ≤ b.1 :=
  haveI : Std.Total fun a b : String × β => a.1 ≤ b.1 := ⟨fun a b => le_total a.1 b.1⟩
  haveI : IsTrans (String × β) fun a b => a.1 ≤ b.1 := ⟨fun _ _ _ => le_trans⟩
  List.pairwise_insertionSort _ members

theorem byKey_byKey {β : Type} (members : List (String × β)) :
    byKey (byKey members) = byKey members :=
  (byKey_sorted members).insertionSort_eq

theorem digits_printable (n : ℕ) : ∀ c ∈ Nat.toDigits 10 n, 32 ≤ c.toNat := by
  intro c hc
  have hdigit := toNat_digit (Nat.isDigit_of_mem_toDigits (by decide) (by decide) hc)
  omega

theorem numberText_printable (n : ℤ) : ∀ c ∈ numberText n, 32 ≤ c.toNat := by
  cases n with
  | ofNat n => exact digits_printable n
  | negSucc n => exact List.forall_mem_cons.mpr ⟨by decide, digits_printable (n + 1)⟩

theorem printable_of_all {text : List Char} (h : (text.all fun c => 32 ≤ c.toNat) = true) :
    ∀ c ∈ text, 32 ≤ c.toNat := by
  simpa using h

theorem escaped_printable (c : Char) : ∀ e ∈ escaped c, 32 ≤ e.toNat := by
  have hcontrol : ∀ n : Fin 32, (['\\', 'u', '0', '0', hexDigit (n / 16), hexDigit (n % 16)].all
      fun e => 32 ≤ e.toNat) = true := by decide
  unfold escaped
  split_ifs with hquote hslash hn hr ht hf hb hlow
  · exact printable_of_all rfl
  · exact printable_of_all rfl
  · exact printable_of_all rfl
  · exact printable_of_all rfl
  · exact printable_of_all rfl
  · exact printable_of_all rfl
  · exact printable_of_all rfl
  · exact printable_of_all (hcontrol ⟨c.toNat, hlow⟩)
  · rw [List.forall_mem_singleton]
    omega

theorem stringText_printable (s : String) : ∀ c ∈ stringText s, 32 ≤ c.toNat := by
  rw [stringText, List.forall_mem_cons, List.forall_mem_append]
  refine ⟨by decide, ?_, printable_of_all rfl⟩
  intro e he
  obtain ⟨c, -, hc⟩ := List.mem_flatMap.mp he
  exact escaped_printable c e hc

namespace Json

theorem normalize_object (members : List (String × Json)) :
    normalize (.object members) = .object ((byKey members).map fun m => (m.1, m.2.normalize)) := by
  rw [normalize, normalizeMembers_eq, byKey_map]

theorem normalize_array (items : List Json) :
    normalize (.array items) = .array (items.map normalize) := by
  rw [normalize, normalizeItems_eq]

theorem normalize_normalize (a : Json) : a.normalize.normalize = a.normalize := by
  induction a using Json.induction with
  | null => rfl
  | bool b => rfl
  | number n => rfl
  | text s => rfl
  | array items ih =>
    rw [normalize_array, normalize_array, List.map_map]
    exact congrArg Json.array (List.map_congr_left ih)
  | object members ih =>
    rw [normalize_object, normalize_object, byKey_map, byKey_byKey, List.map_map]
    refine congrArg Json.object (List.map_congr_left fun m hm => ?_)
    exact congrArg (Prod.mk m.1) (ih m ((byKey_perm members).mem_iff.mp hm))

theorem jsonText_normalize (a : Json) : a.normalize.jsonText = a.jsonText := by
  induction a using Json.induction with
  | null => rfl
  | bool b => rfl
  | number n => rfl
  | text s => rfl
  | array items ih =>
    rw [normalize_array, jsonText, jsonText, itemTexts_eq, itemTexts_eq, List.map_map]
    exact congrArg (fun l => '[' :: listing id ',' ']' l) (List.map_congr_left ih)
  | object members ih =>
    rw [normalize_object, jsonText, jsonText, memberTexts_eq, memberTexts_eq, byKey_map, byKey_map,
      byKey_map, byKey_byKey, List.map_map]
    refine congrArg (fun l => '{' :: listing memberText ',' '}' l) (List.map_congr_left ?_)
    intro m hm
    exact congrArg (Prod.mk m.1) (ih m ((byKey_perm members).mem_iff.mp hm))

theorem WellFormed.normalize {a : Json} (h : a.WellFormed) : a.normalize.WellFormed := by
  induction a using Json.induction with
  | null => exact h
  | bool b => exact h
  | number n => exact h
  | text s => exact h
  | array items ih =>
    rw [normalize_array, wellFormed_array]
    intro a ha
    obtain ⟨b, hb, rfl⟩ := List.mem_map.mp ha
    exact ih b hb (wellFormed_array.mp h b hb)
  | object members ih =>
    obtain ⟨hnodup, hall⟩ := wellFormed_object.mp h
    rw [normalize_object, wellFormed_object, List.map_map]
    constructor
    · exact ((byKey_perm members).map Prod.fst).nodup_iff.mpr hnodup
    · intro m hm
      obtain ⟨m', hm', rfl⟩ := List.mem_map.mp hm
      have hmem := (byKey_perm members).mem_iff.mp hm'
      exact ih m' hmem (hall m' hmem)

theorem jsonText_printable (a : Json) : ∀ c ∈ a.jsonText, 32 ≤ c.toNat := by
  induction a using Json.induction with
  | null => exact printable_of_all rfl
  | bool b => cases b <;> exact printable_of_all rfl
  | number n => exact numberText_printable n
  | text s => exact stringText_printable s
  | array items ih =>
    rw [jsonText, itemTexts_eq, listing_map]
    exact List.forall_mem_cons.mpr ⟨by decide, listing_all (by decide) (by decide) ih⟩
  | object members ih =>
    rw [jsonText, memberTexts_eq, byKey_map, listing_map]
    refine List.forall_mem_cons.mpr ⟨by decide, listing_all (by decide) (by decide) ?_⟩
    intro m hm
    rw [memberText, List.forall_mem_append, List.forall_mem_cons]
    exact ⟨stringText_printable m.1, by decide, ih m ((byKey_perm members).mem_iff.mp hm)⟩

end Json

/-! ### `strict_json_loads` -/

/-- How `json.loads` turns bytes into text.  It recognises several encodings by their first bytes; of
UTF-8 it is only needed that ASCII at the beginning and no zero byte are recognised. -/
structure JsonDecoder where
  decode : Bytes → Option (List Char)
  decode_utf8 : ∀ s : String, (∀ c ∈ s.toList, c.toNat ≠ 0) →
    (∀ c ∈ s.toList.head?, c.toNat < 128) → decode s.toUTF8.data.toList = some s.toList

def JsonDecoder.utf8 : JsonDecoder where
  decode b := (ByteArray.mk b.toArray).utf8Decode?.map Array.toList
  decode_utf8 s _ _ := by
    change s.toByteArray.utf8Decode?.map Array.toList = some s.toList
    rw [← String.utf8Encode_toList, List.utf8Decode?_utf8Encode]
    rfl

/-- Text, as its code points, or bytes. -/
inductive JsonInput
  | text (points : List ℕ)
  | bytes (b : Bytes)

/-- The characters of the input.  Half a surrogate pair in it is refused at once; the source refuses
it as no part of any value, or else when it encodes the string it stands in. -/
def JsonInput.characters (D : JsonDecoder) : JsonInput → Outcome (List Char)
  | .text points => points.mapM scalar
  | .bytes b => orError (D.decode b) (.storage "codec can't decode bytes")

def JsonInput.document (D : JsonDecoder) (input : JsonInput) : Outcome Document := do
  let s ← input.characters D
  orError (readDocument s) (.storage "malformed JSON document")

def strictJsonLoads (D : JsonDecoder) (input : JsonInput) : Outcome Json := do
  let d ← input.document D
  strictValue d

theorem readDocument_jsonText (a : Json) : readDocument a.jsonText = some a.normalize.document := by
  obtain ⟨c, rest, htext, hblank, -⟩ := a.jsonText_begins []
  rw [List.append_nil] at htext
  have hskip : skipBlanks a.jsonText = a.jsonText := by rw [htext, skipBlanks_cons hblank]
  have hread := a.readsBack (a.jsonText.length + 1) [] (Nat.le_succ _) fun _ hc => (by cases hc)
  rw [List.append_nil] at hread
  rw [readDocument, hskip, hread]
  rfl

theorem canonicalJson_ok_iff {a : Json} {bytes : Bytes} :
    canonicalJson a = .ok bytes ↔
      a.fits = true ∧ (String.ofList a.jsonText).toUTF8.data.toList = bytes := by
  simp only [canonicalJson, bind_ok_iff, require_ok_iff, exists_unit_iff, pure_ok_iff]

theorem strictJsonLoads_canonicalJson (D : JsonDecoder) {a : Json} {bytes : Bytes}
    (h : a.WellFormed) (hbytes : canonicalJson a = .ok bytes) :
    strictJsonLoads D (.bytes bytes) = .ok a.normalize := by
  obtain ⟨-, rfl⟩ := canonicalJson_ok_iff.mp hbytes
  have hdecode : D.decode (String.ofList a.jsonText).toUTF8.data.toList = some a.jsonText := by
    rw [D.decode_utf8, String.toList_ofList]
    · intro c hc hzero
      rw [String.toList_ofList] at hc
      have hprintable := a.jsonText_printable c hc
      omega
    · intro c hc
      obtain ⟨first, rest, htext, -, -, hascii⟩ := a.jsonText_begins []
      rw [List.append_nil] at htext
      rw [String.toList_ofList, htext] at hc
      rw [← Option.some.inj hc]
      exact hascii
  have hdocument : JsonInput.document D (.bytes (String.ofList a.jsonText).toUTF8.data.toList) =
      .ok a.normalize.document :=
    (bind_ok_iff _ _ _).mpr ⟨_, orError_ok_iff.mpr hdecode,
      orError_ok_iff.mpr (readDocument_jsonText a)⟩
  exact (bind_ok_iff _ _ _).mpr ⟨_, hdocument, strictValue_document h.normalize⟩

theorem canonicalJson_normalize (a : Json) (h : a.WellFormed) :
    canonicalJson a.normalize = canonicalJson a := by
  have hok := canonicalJson_ok_iff.mpr ⟨h.fits, rfl⟩
  rw [hok, canonicalJson_ok_iff, a.jsonText_normalize]
  exact ⟨h.normalize.fits, rfl⟩

theorem canonicalJson_eq_of_same {a b : Json} (ha : a.WellFormed) (hb : b.WellFormed)
    (h : a.Same b) : canonicalJson a = canonicalJson b := by
  rw [← canonicalJson_normalize a ha, h, canonicalJson_normalize b hb]

/-- Canonical bytes are equal exactly for values that are equal up to the order of members, they are
read back as the value, and nothing but such values is ever read. -/
theorem canonical_json_exact (D : JsonDecoder) :
    (∀ a b : Json, a.WellFormed → b.WellFormed →
      ((∃ bytes, canonicalJson a = .ok bytes ∧ canonicalJson b = .ok bytes) ↔ a.Same b)) ∧
    (∀ v : Json, v.WellFormed → ∃ bytes, canonicalJson v = .ok bytes ∧
      ∃ v', strictJsonLoads D (.bytes bytes) = .ok v' ∧ v'.Same v) ∧
    (∀ input v, strictJsonLoads D input = .ok v →
      input.document D = .ok v.document ∧ v.WellFormed ∧
      ∃ bytes, canonicalJson v = .ok bytes ∧
        ∃ v', strictJsonLoads D (.bytes bytes) = .ok v' ∧ v'.Same v ∧
          canonicalJson v' = .ok bytes) := by
  have hencode : ∀ v : Json, v.WellFormed → ∃ bytes, canonicalJson v = .ok bytes := fun v hv =>
    ⟨_, canonicalJson_ok_iff.mpr ⟨hv.fits, rfl⟩⟩
  refine ⟨fun a b ha hb => ⟨?_, ?_⟩, fun v hv => ?_, fun input v hv => ?_⟩
  · rintro ⟨bytes, hbytes, hbytes'⟩
    exact same_of_canonicalJson_eq hbytes hbytes'
  · intro hsame
    obtain ⟨bytes, hbytes⟩ := hencode a ha
    exact ⟨bytes, hbytes, (canonicalJson_eq_of_same ha hb hsame).symm.trans hbytes⟩
  · obtain ⟨bytes, hbytes⟩ := hencode v hv
    exact ⟨bytes, hbytes, _, strictJsonLoads_canonicalJson D hv hbytes, v.normalize_normalize⟩
  · obtain ⟨d, hd, hvalue⟩ := (bind_ok_iff _ _ _).mp hv
    obtain ⟨rfl, hwell⟩ := strictValue_sound hvalue
    obtain ⟨bytes, hbytes⟩ := hencode v hwell
    exact ⟨hd, hwell, bytes, hbytes, _, strictJsonLoads_canonicalJson D hwell hbytes,
      v.normalize_normalize, (canonicalJson_normalize v hwell).trans hbytes⟩

def Sample.json : Json :=
  .object [("b", .array [.number (-7), .null, .bool true]), ("a", .text "é\n"), ("", .object [])]

theorem canonical_json_exact_sample : Sample.json.WellFormed ∧
    ∃ bytes, canonicalJson Sample.json = .ok bytes ∧
      ∃ v, strictJsonLoads .utf8 (.bytes bytes) = .ok v ∧ v.Same Sample.json := by
  have hwell : Sample.json.WellFormed := ⟨by decide, by decide⟩
  exact ⟨hwell, (canonical_json_exact .utf8).2.1 Sample.json hwell⟩

end Lets
