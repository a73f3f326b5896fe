import Mathlib

set_option autoImplicit false

/-!
# Hash chains

A log whose rows are chained: a row is appended after the tip of the rows before it, and has a tip
of its own.
-/

namespace Library

/-- How rows are chained: the tip of the empty log, the tip of a row, and which rows may follow a
tip. -/
structure HashChain (ρ τ : Type) where
  genesis : τ
  tip : ρ → τ
  Follows : τ → ρ → Prop

namespace HashChain

variable {ρ τ : Type} (C : HashChain ρ τ)

def tipOf (l : List ρ) : τ :=
  match l.getLast? with
  | none => C.genesis
  | some r => C.tip r

inductive Valid : List ρ → Prop
  | nil : Valid []
  | snoc {l : List ρ} {r : ρ} (valid : Valid l) (follows : C.Follows (C.tipOf l) r) :
      Valid (l ++ [r])

/-- Each of the rows follows the one before it, the first one the tip. -/
def ValidFrom : τ → List ρ → Prop
  | _, [] => True
  | t, r :: rest => C.Follows t r ∧ ValidFrom (C.tip r) rest

def tipFrom : τ → List ρ → τ
  | t, [] => t
  | _, r :: rest => tipFrom (C.tip r) rest

instance decidableValidFrom [∀ t r, Decidable (C.Follows t r)] :
    (t : τ) → (l : List ρ) → Decidable (C.ValidFrom t l)
  | _, [] => inferInstanceAs (Decidable True)
  | t, r :: rest =>
    have := decidableValidFrom (C.tip r) rest
    inferInstanceAs (Decidable (C.Follows t r ∧ C.ValidFrom (C.tip r) rest))

/-- A log that has only been appended to, by rows that follow it. -/
def Extends (l m : List ρ) : Prop :=
  l <+: m ∧ C.ValidFrom (C.tipOf l) (m.drop l.length)

instance [DecidableEq ρ] [∀ t r, Decidable (C.Follows t r)] (l m : List ρ) :
    Decidable (C.Extends l m) :=
  inferInstanceAs (Decidable (l <+: m ∧ C.ValidFrom (C.tipOf l) (m.drop l.length)))

/-- A tip belongs to one row only, after one tip only, and to no empty log. -/
structure CollisionFree : Prop where
  tip_ne_genesis : ∀ {t : τ} {r : ρ}, C.Follows t r → C.tip r ≠ C.genesis
  eq_of_tip_eq : ∀ {t t' : τ} {r r' : ρ}, C.Follows t r → C.Follows t' r' → C.tip r = C.tip r' →
    t = t' ∧ r = r'

@[simp] theorem tipOf_nil : C.tipOf [] = C.genesis := rfl

@[simp] theorem tipOf_concat (l : List ρ) (r : ρ) : C.tipOf (l ++ [r]) = C.tip r := by
  simp [tipOf]

variable {C}

theorem tipFrom_append (t : τ) (l m : List ρ) :
    C.tipFrom t (l ++ m) = C.tipFrom (C.tipFrom t l) m := by
  induction l generalizing t with
  | nil => rfl
  | cons r rest ih => exact ih (C.tip r)

theorem tipFrom_genesis (l : List ρ) : C.tipFrom C.genesis l = C.tipOf l := by
  induction l using List.reverseRecOn with
  | nil => rfl
  | append_singleton l r _ =>
    rw [tipFrom_append, tipOf_concat]
    rfl

variable {l m : List ρ}

theorem validFrom_append_iff {t : τ} :
    C.ValidFrom t (l ++ m) ↔ C.ValidFrom t l ∧ C.ValidFrom (C.tipFrom t l) m := by
  induction l generalizing t with
  | nil => exact ⟨fun h => ⟨trivial, h⟩, fun h => h.2⟩
  | cons r rest ih =>
    rw [List.cons_append, ValidFrom, ValidFrom, tipFrom, ih, and_assoc]

theorem Valid.cases (h : C.Valid l) :
    l = [] ∨ ∃ m r, l = m ++ [r] ∧ C.Valid m ∧ C.Follows (C.tipOf m) r := by
  cases h with
  | nil => exact .inl rfl
  | snoc valid follows => exact .inr ⟨_, _, rfl, valid, follows⟩

theorem Valid.of_concat {r : ρ} (h : C.Valid (l ++ [r])) : C.Valid l ∧ C.Follows (C.tipOf l) r := by
  rcases h.cases with hnil | ⟨m, r', heq, hvalid, hfollows⟩
  · simp at hnil
  · obtain ⟨rfl, hr⟩ := List.append_inj' heq rfl
    cases hr
    exact ⟨hvalid, hfollows⟩

theorem Valid.of_append (h : C.Valid (l ++ m)) : C.Valid l := by
  induction m using List.reverseRecOn with
  | nil => simpa using h
  | append_singleton m r ih =>
    rw [← List.append_assoc] at h
    exact ih h.of_concat.1

theorem valid_append_iff : C.Valid (l ++ m) ↔ C.Valid l ∧ C.ValidFrom (C.tipOf l) m := by
  induction m generalizing l with
  | nil => simp [ValidFrom]
  | cons r rest ih =>
    have hsplit : l ++ r :: rest = l ++ [r] ++ rest := by simp
    rw [hsplit, ih, tipOf_concat]
    constructor
    · rintro ⟨hvalid, hrest⟩
      exact ⟨hvalid.of_concat.1, hvalid.of_concat.2, hrest⟩
    · rintro ⟨hvalid, hfollows, hrest⟩
      exact ⟨.snoc hvalid hfollows, hrest⟩

theorem valid_iff_validFrom : C.Valid l ↔ C.ValidFrom C.genesis l := by
  have happend := valid_append_iff (C := C) (l := []) (m := l)
  rw [List.nil_append, tipOf_nil] at happend
  exact happend.trans (and_iff_right .nil)

theorem Extends.valid (h : C.Extends l m) (hl : C.Valid l) : C.Valid m := by
  obtain ⟨⟨rest, rfl⟩, hrest⟩ := h
  rw [List.drop_left] at hrest
  exact valid_append_iff.mpr ⟨hl, hrest⟩

theorem Valid.eq_of_tipOf_eq (hfree : C.CollisionFree) (hl : C.Valid l) (hm : C.Valid m)
    (htip : C.tipOf l = C.tipOf m) : l = m := by
  induction hl generalizing m with
  | nil =>
    rcases hm.cases with rfl | ⟨m, r, rfl, _, hfollows⟩
    · rfl
    · rw [tipOf_nil, tipOf_concat] at htip
      exact absurd htip.symm (hfree.tip_ne_genesis hfollows)
  | @snoc l r _ hfollows ih =>
    rcases hm.cases with rfl | ⟨m, r', rfl, hm', hfollows'⟩
    · rw [tipOf_nil, tipOf_concat] at htip
      exact absurd htip (hfree.tip_ne_genesis hfollows)
    · rw [tipOf_concat, tipOf_concat] at htip
      obtain ⟨htips, rfl⟩ := hfree.eq_of_tip_eq hfollows hfollows' htip
      rw [ih hm' htips]

theorem Valid.prefix_of_mem (hfree : C.CollisionFree) {r : ρ} (hl : C.Valid l) (hm : C.Valid m)
    (hr : r ∈ m) (htip : C.tip r = C.tipOf l) : l <+: m := by
  obtain ⟨before, after, rfl⟩ := List.append_of_mem hr
  have hsplit : before ++ r :: after = before ++ [r] ++ after := by simp
  rw [hsplit] at hm ⊢
  have heq : l = before ++ [r] := hl.eq_of_tipOf_eq hfree hm.of_append (by rw [tipOf_concat, htip])
  rw [heq]
  exact List.prefix_append _ _

/-- What a check of one tip against a log tells: a tip that is the log's own, that of the empty log
or that of one of its rows is the tip of a part of it. -/
theorem Valid.prefix_of_check (hfree : C.CollisionFree) (hl : C.Valid l) (hm : C.Valid m)
    (h : C.tipOf l = C.tipOf m ∨ C.tipOf l = C.genesis ∨ ∃ r ∈ m, C.tip r = C.tipOf l) :
    l <+: m := by
  rcases h with hsame | hgenesis | ⟨r, hr, htip⟩
  · rw [hl.eq_of_tipOf_eq hfree hm hsame]
  · rw [hl.eq_of_tipOf_eq hfree .nil hgenesis]
    exact List.nil_prefix
  · exact hl.prefix_of_mem hfree hm hr htip

end HashChain

end Library
