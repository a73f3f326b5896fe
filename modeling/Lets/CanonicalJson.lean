import Lets.Library.Codes
import Lets.Library.Framing
import Lets.Records

set_option autoImplicit false

/-!
# Canonical JSON

The text that is hashed and signed: no blanks, members in the order of their keys, strings escaped
as `json.dumps` does without escaping what is not ASCII.
-/

namespace Lets

open Library

def byKey {β : Type} (members : List (String × β)) : List (String × β) :=
  members.insertionSort fun a b => a.1 ≤ b.1

theorem byKey_perm {β : Type} (members : List (String × β)) : (byKey members).Perm members :=
  List.perm_insertionSort _ _

theorem byKey_map {β γ : Type} (f : β → γ) (members : List (String × β)) :
    byKey (members.map fun m => (m.1, f m.2)) = (byKey members).map fun m => (m.1, f m.2) :=
  (List.map_insertionSort (fun a b : String × β => a.1 ≤ b.1) (fun a b : String × γ => a.1 ≤ b.1)
    (fun m => (m.1, f m.2)) members fun _ _ _ _ => Iff.rfl).symm

/-! ### The text of a value -/

def hexDigit (n : ℕ) : Char := Nat.digitChar n

def escaped (c : Char) : List Char :=
  if c = '"' then ['\\', '"']
  else if c = '\\' then ['\\', '\\']
  else if c = '\n' then ['\\', 'n']
  else if c = '\r' then ['\\', 'r']
  else if c = '\t' then ['\\', 't']
  else if c = Char.ofNat 12 then ['\\', 'f']
  else if c = Char.ofNat 8 then ['\\', 'b']
  else if c.toNat < 32 then ['\\', 'u', '0', '0', hexDigit (c.toNat / 16), hexDigit (c.toNat % 16)]
  else [c]

def stringText (s : String) : List Char :=
  '"' :: (s.toList.flatMap escaped ++ ['"'])

def numberText : ℤ → List Char
  | .ofNat n => Nat.toDigits 10 n
  | .negSucc n => '-' :: Nat.toDigits 10 (n + 1)

def memberText (member : String × List Char) : List Char :=
  stringText member.1 ++ ':' :: member.2

namespace Json

mutual

def jsonText : Json → List Char
  | .null => ['n', 'u', 'l', 'l']
  | .bool true => ['t', 'r', 'u', 'e']
  | .bool false => ['f', 'a', 'l', 's', 'e']
  | .number n => numberText n
  | .text s => stringText s
  | .array items => '[' :: listing id ',' ']' (itemTexts items)
  | .object members => '{' :: listing memberText ',' '}' (byKey (memberTexts members))

def itemTexts : List Json → List (List Char)
  | [] => []
  | item :: rest => jsonText item :: itemTexts rest

def memberTexts : List (String × Json) → List (String × List Char)
  | [] => []
  | (key, value) :: rest => (key, jsonText value) :: memberTexts rest

end

def numberFits (n : ℤ) : Bool := -2 ^ 63 ≤ n ∧ n ≤ 2 ^ 63 - 1

mutual

def fits : Json → Bool
  | .number n => numberFits n
  | .array items => itemsFit items
  | .object members => membersFit members
  | _ => true

def itemsFit : List Json → Bool
  | [] => true
  | item :: rest => fits item && itemsFit rest

def membersFit : List (String × Json) → Bool
  | [] => true
  | (_, value) :: rest => fits value && membersFit rest

end

mutual

def normalize : Json → Json
  | .null => .null
  | .bool b => .bool b
  | .number n => .number n
  | .text s => .text s
  | .array items => .array (normalizeItems items)
  | .object members => .object (byKey (normalizeMembers members))

def normalizeItems : List Json → List Json
  | [] => []
  | item :: rest => normalize item :: normalizeItems rest

def normalizeMembers : List (String × Json) → List (String × Json)
  | [] => []
  | (key, value) :: rest => (key, normalize value) :: normalizeMembers rest

end

theorem itemTexts_eq (items : List Json) : itemTexts items = items.map jsonText := by
  induction items with
  | nil => rfl
  | cons item rest ih => rw [itemTexts, ih, List.map_cons]

theorem memberTexts_eq (members : List (String × Json)) :
    memberTexts members = members.map fun m => (m.1, jsonText m.2) := by
  induction members with
  | nil => rfl
  | cons member rest ih => rw [memberTexts, ih, List.map_cons]

theorem normalizeItems_eq (items : List Json) : normalizeItems items = items.map normalize := by
  induction items with
  | nil => rfl
  | cons item rest ih => rw [normalizeItems, ih, List.map_cons]

theorem normalizeMembers_eq (members : List (String × Json)) :
    normalizeMembers members = members.map fun m => (m.1, normalize m.2) := by
  induction members with
  | nil => rfl
  | cons member rest ih => rw [normalizeMembers, ih, List.map_cons]

end Json

/-! ### Reading the text -/

def hexValue (c : Char) : ℕ := if c.isDigit then c.toNat - 48 else c.toNat - 87

def unescape : List Char → Option (Char × List Char)
  | '\\' :: '"' :: s => some ('"', s)
  | '\\' :: '\\' :: s => some ('\\', s)
  | '\\' :: 'n' :: s => some ('\n', s)
  | '\\' :: 'r' :: s => some ('\r', s)
  | '\\' :: 't' :: s => some ('\t', s)
  | '\\' :: 'f' :: s => some (Char.ofNat 12, s)
  | '\\' :: 'b' :: s => some (Char.ofNat 8, s)
  | '\\' :: 'u' :: '0' :: '0' :: high :: low :: s =>
    some (Char.ofNat (16 * hexValue high + hexValue low), s)
  | c :: s => some (c, s)
  | [] => none

theorem unescape_escaped (c : Char) (s : List Char) : unescape (escaped c ++ s) = some (c, s) := by
  have hcontrol : ∀ n : Fin 32,
      16 * hexValue (hexDigit (n / 16)) + hexValue (hexDigit (n % 16)) = n := by decide
  unfold escaped
  split_ifs with hquote hslash hn hr ht hf hb hlow
  · rw [hquote]; rfl
  · rw [hslash]; rfl
  · rw [hn]; rfl
  · rw [hr]; rfl
  · rw [ht]; rfl
  · rw [hf]; rfl
  · rw [hb]; rfl
  · change some (Char.ofNat (16 * hexValue (hexDigit (c.toNat / 16)) +
      hexValue (hexDigit (c.toNat % 16))), s) = some (c, s)
    rw [hcontrol ⟨c.toNat, hlow⟩, Char.ofNat_toNat]
  · rw [List.singleton_append]
    unfold unescape
    split <;> simp_all

theorem escaped_reads (a b : Char) (s t : List Char) (h : escaped a ++ s = escaped b ++ t) :
    a = b ∧ s = t := by
  have hread := congrArg unescape h
  rw [unescape_escaped, unescape_escaped] at hread
  exact Prod.mk.inj (Option.some.inj hread)

theorem escaped_ne_quote (c : Char) (s t : List Char) : escaped c ++ s ≠ '"' :: t := by
  unfold escaped
  split_ifs with hquote <;> simp [hquote]

theorem stringText_reads {a b : String} {s t : List Char}
    (h : stringText a ++ s = stringText b ++ t) : a = b ∧ s = t := by
  rw [stringText, stringText, List.cons_append, List.cons_append, List.append_assoc,
    List.append_assoc] at h
  obtain ⟨hab, hst⟩ := flatMap_reads escaped_ne_quote escaped_reads (List.cons.inj h).2
  exact ⟨String.toList_inj.mp hab, hst⟩

/-- What may follow a value: nothing that could continue a number. -/
def AfterValue (s : List Char) : Prop := ∀ c ∈ s.head?, c.isDigit = false

theorem toDigits_reads {n m : ℕ} {s t : List Char} (hs : AfterValue s) (ht : AfterValue t)
    (h : Nat.toDigits 10 n ++ s = Nat.toDigits 10 m ++ t) : n = m ∧ s = t := by
  have hdigits : ∀ n, ∀ c ∈ Nat.toDigits 10 n, c.isDigit = true := fun n c hc =>
    Nat.isDigit_of_mem_toDigits (by decide) (by decide) hc
  obtain ⟨hnm, hst⟩ := append_inj_of_all (hdigits n) (hdigits m) hs ht h
  have hvalue := congrArg (Nat.ofDigitChars 10 · 0) hnm
  simp only [Nat.ofDigitChars_toDigits (b := 10) (by decide) (by decide)] at hvalue
  exact ⟨hvalue, hst⟩

theorem toDigits_ne_cons {n : ℕ} {c : Char} (hc : c.isDigit = false) (s t : List Char) :
    Nat.toDigits 10 n ++ s ≠ c :: t := by
  intro h
  cases hdigits : Nat.toDigits 10 n with
  | nil => exact absurd hdigits Nat.toDigits_ne_nil
  | cons a rest =>
    rw [hdigits] at h
    have ha : a.isDigit = true :=
      Nat.isDigit_of_mem_toDigits (b := 10) (n := n) (by decide) (by decide)
        (hdigits ▸ List.mem_cons_self)
    rw [(List.cons.inj h).1, hc] at ha
    exact Bool.false_ne_true ha

theorem numberText_ne_cons {n : ℤ} {c : Char} (hc : c.isDigit = false) (hminus : c ≠ '-')
    (s t : List Char) : numberText n ++ s ≠ c :: t := by
  cases n with
  | ofNat n => exact toDigits_ne_cons hc s t
  | negSucc n => exact fun h => hminus (List.cons.inj h).1.symm

theorem numberText_reads {n m : ℤ} {s t : List Char} (hs : AfterValue s) (ht : AfterValue t)
    (h : numberText n ++ s = numberText m ++ t) : n = m ∧ s = t := by
  cases n with
  | ofNat n =>
    cases m with
    | ofNat m =>
      obtain ⟨rfl, hst⟩ := toDigits_reads hs ht h
      exact ⟨rfl, hst⟩
    | negSucc m => exact absurd h (toDigits_ne_cons (by decide) s _)
  | negSucc n =>
    cases m with
    | ofNat m => exact absurd h.symm (toDigits_ne_cons (by decide) t _)
    | negSucc m =>
      obtain ⟨hnm, hst⟩ := toDigits_reads hs ht (List.cons.inj h).2
      obtain rfl := Nat.succ.inj hnm
      exact ⟨rfl, hst⟩

namespace Json

def sort : Json → Fin 6
  | .null => 0
  | .bool _ => 1
  | .number _ => 2
  | .text _ => 3
  | .array _ => 4
  | .object _ => 5

def sortOf (c : Char) : Fin 6 :=
  if c = 'n' then 0 else if c = 't' ∨ c = 'f' then 1 else if c = '"' then 3
  else if c = '[' then 4 else if c = '{' then 5 else 2

theorem sortOf_digit {c : Char} (h : c.isDigit = true) : sortOf c = 2 := by
  have hne : ∀ c', c'.isDigit = false → c ≠ c' := by
    rintro c' hc' rfl
    exact Bool.false_ne_true (hc'.symm.trans h)
  unfold sortOf
  rw [if_neg (hne _ (by decide)), if_neg (not_or.mpr ⟨hne _ (by decide), hne _ (by decide)⟩),
    if_neg (hne _ (by decide)), if_neg (hne _ (by decide)), if_neg (hne _ (by decide))]

theorem jsonText_cons (a : Json) : ∃ c rest, jsonText a = c :: rest ∧ sortOf c = a.sort := by
  cases a with
  | null => exact ⟨'n', _, rfl, rfl⟩
  | bool b => cases b with
    | true => exact ⟨'t', _, rfl, rfl⟩
    | false => exact ⟨'f', _, rfl, rfl⟩
  | number n => cases n with
    | ofNat n =>
      cases hdigits : Nat.toDigits 10 n with
      | nil => exact absurd hdigits Nat.toDigits_ne_nil
      | cons c rest =>
        have hc : c.isDigit = true :=
          Nat.isDigit_of_mem_toDigits (b := 10) (n := n) (by decide) (by decide)
            (hdigits ▸ List.mem_cons_self)
        exact ⟨c, rest, hdigits, sortOf_digit hc⟩
    | negSucc n => exact ⟨'-', _, rfl, rfl⟩
  | text s => exact ⟨'"', _, rfl, rfl⟩
  | array items => exact ⟨'[', _, rfl, rfl⟩
  | object members => exact ⟨'{', _, rfl, rfl⟩

theorem sort_eq {a b : Json} {s t : List Char} (h : jsonText a ++ s = jsonText b ++ t) :
    a.sort = b.sort := by
  obtain ⟨c, rest, ha, hc⟩ := jsonText_cons a
  obtain ⟨c', rest', hb, hc'⟩ := jsonText_cons b
  rw [ha, hb] at h
  rw [← hc, ← hc', (List.cons.inj h).1]

theorem jsonText_ne_close (a : Json) (s t : List Char) : jsonText a ++ s ≠ ']' :: t := by
  intro h
  have hsort : a.sort = 2 := by
    obtain ⟨c, rest, ha, hc⟩ := jsonText_cons a
    rw [ha] at h
    rw [← hc, (List.cons.inj h).1]
    rfl
  cases a with
  | number n => exact numberText_ne_cons (by decide) (by decide) s t h
  | _ => cases hsort

def Same (a b : Json) : Prop := a.normalize = b.normalize

theorem same_array {items items' : List Json} (h : List.Forall₂ Same items items') :
    Same (.array items) (.array items') := by
  have hmap : ∀ l l' : List Json, List.Forall₂ Same l l' → l.map normalize = l'.map normalize := by
    intro l l' h
    induction h with
    | nil => rfl
    | cons hsame _ ih => rw [List.map_cons, List.map_cons, hsame, ih]
  rw [Same, normalize, normalize, normalizeItems_eq, normalizeItems_eq, hmap _ _ h]

def SameMember (m m' : String × Json) : Prop := m.1 = m'.1 ∧ Same m.2 m'.2

theorem same_object {members members' : List (String × Json)}
    (h : List.Forall₂ SameMember (byKey members) (byKey members')) :
    Same (.object members) (.object members') := by
  have hmap : ∀ l l' : List (String × Json), List.Forall₂ SameMember l l' →
      l.map (fun m => (m.1, normalize m.2)) = l'.map fun m => (m.1, normalize m.2) := by
    intro l l' h
    induction h with
    | nil => rfl
    | cons hsame _ ih => rw [List.map_cons, List.map_cons, hsame.1, hsame.2, ih]
  rw [Same, normalize, normalize, normalizeMembers_eq, normalizeMembers_eq, byKey_map, byKey_map,
    hmap _ _ h]

theorem afterValue_of {c : Char} (hc : c.isDigit = false) (r : List Char) :
    AfterValue (c :: r) := by
  intro c' hc'
  rw [← Option.some.inj hc']
  exact hc

theorem memberText_reads {value : Json} (key : String) (h : ReadsAt Same AfterValue jsonText value) :
    ReadsAt SameMember AfterValue (fun m => memberText (m.1, jsonText m.2)) (key, value) := by
  intro m s t hs ht heq
  simp only [memberText, List.append_assoc, List.cons_append] at heq
  obtain ⟨hkey, hrest⟩ := stringText_reads heq
  obtain ⟨hsame, hst⟩ := h m.2 s t hs ht (List.cons.inj hrest).2
  exact ⟨⟨hkey, hsame⟩, hst⟩

theorem memberText_ne_close (m : String × List Char) (s t : List Char) :
    memberText m ++ s ≠ '}' :: t := by
  intro h
  rw [memberText, stringText, List.cons_append, List.cons_append] at h
  exact absurd (List.cons.inj h).1 (by decide)

mutual

theorem reads : ∀ a : Json, ReadsAt Same AfterValue jsonText a
  | .null => by
    intro b s t hs ht h
    have hsort := sort_eq h
    cases b with
    | null => exact ⟨rfl, List.append_cancel_left h⟩
    | _ => cases hsort
  | .bool x => by
    intro b s t hs ht h
    have hsort := sort_eq h
    cases b with
    | bool y =>
      cases x <;> cases y <;> simp [jsonText] at h <;> exact ⟨rfl, h⟩
    | _ => cases hsort
  | .number n => by
    intro b s t hs ht h
    have hsort := sort_eq h
    cases b with
    | number m =>
      obtain ⟨rfl, hst⟩ := numberText_reads hs ht h
      exact ⟨rfl, hst⟩
    | _ => cases hsort
  | .text x => by
    intro b s t hs ht h
    have hsort := sort_eq h
    cases b with
    | text y =>
      obtain ⟨rfl, hst⟩ := stringText_reads h
      exact ⟨rfl, hst⟩
    | _ => cases hsort
  | .array items => by
    intro b s t hs ht h
    have hsort := sort_eq h
    cases b with
    | array items' =>
      rw [jsonText, jsonText, itemTexts_eq, itemTexts_eq, listing_map, listing_map] at h
      obtain ⟨hsame, hst⟩ := listing_reads (by decide) (afterValue_of (by decide))
        (afterValue_of (by decide)) jsonText_ne_close (readsItems items) (List.cons.inj h).2
      exact ⟨same_array hsame, hst⟩
    | _ => cases hsort
  | .object members => by
    intro b s t hs ht h
    have hsort := sort_eq h
    cases b with
    | object members' =>
      rw [jsonText, jsonText, memberTexts_eq, memberTexts_eq, byKey_map, byKey_map, listing_map,
        listing_map] at h
      have hreads : ∀ m ∈ byKey members,
          ReadsAt SameMember AfterValue (fun m => memberText (m.1, jsonText m.2)) m := fun m hm =>
        memberText_reads m.1 (readsMembers members m ((byKey_perm members).mem_iff.mp hm))
      obtain ⟨hsame, hst⟩ := listing_reads (by decide) (afterValue_of (by decide))
        (afterValue_of (by decide)) (fun m => memberText_ne_close _) hreads (List.cons.inj h).2
      exact ⟨same_object hsame, hst⟩
    | _ => cases hsort

theorem readsItems : ∀ items : List Json, ∀ a ∈ items, ReadsAt Same AfterValue jsonText a
  | [] => fun _ ha => (by cases ha)
  | item :: rest => fun a ha => by
    rcases List.mem_cons.mp ha with heq | ha
    · rw [heq]
      exact reads item
    · exact readsItems rest a ha

theorem readsMembers : ∀ members : List (String × Json), ∀ m ∈ members,
    ReadsAt Same AfterValue jsonText m.2
  | [] => fun _ hm => (by cases hm)
  | (key, value) :: rest => fun m hm => by
    rcases List.mem_cons.mp hm with heq | hm
    · rw [heq]
      exact reads value
    · exact readsMembers rest m hm

end

theorem same_of_jsonText_eq {a b : Json} (h : jsonText a = jsonText b) : Same a b := by
  refine (reads a b [] [] (fun _ h => by cases h) (fun _ h => by cases h) ?_).1
  rw [h]

end Json

/-- `canonical_json`: the UTF-8 bytes of the text, unless a number is out of range. -/
def canonicalJson (value : Json) : Outcome Bytes := do
  require (value.fits = true)
    (.storage "canonical JSON integers must fit in signed 64-bit range")
  pure (String.ofList value.jsonText).toUTF8.data.toList

/-- `canonical_digest`, for a hash of bytes shown as text. -/
def canonicalDigest (sha : Bytes → String) (value : Json) : Outcome String := do
  let bytes ← canonicalJson value
  pure (sha bytes)

theorem same_of_canonicalJson_eq {a b : Json} {bytes : Bytes} (ha : canonicalJson a = .ok bytes)
    (hb : canonicalJson b = .ok bytes) : Json.Same a b := by
  simp only [canonicalJson, bind_ok_iff, require_ok_iff, exists_unit_iff, pure_ok_iff] at ha hb
  have hbytes := ha.2.trans hb.2.symm
  have harray := Array.toList_inj.mp hbytes
  have htext := String.toByteArray_inj.mp (ByteArray.ext harray)
  exact Json.same_of_jsonText_eq (String.ofList_inj.mp htext)

end Lets
