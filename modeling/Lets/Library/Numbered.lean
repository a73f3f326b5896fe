import Mathlib

set_option autoImplicit false

/-!
# Numbered logs

A log whose rows carry their own position.
-/

namespace Library

variable {ρ : Type} {number : ρ → ℤ} {l m : List ρ} {r r' : ρ}

def Numbered (number : ρ → ℤ) (l : List ρ) : Prop :=
  ∀ (i : ℕ) r, l[i]? = some r → number r = i

namespace Numbered

theorem of_prefix (hm : Numbered number m) (hle : l <+: m) : Numbered number l := by
  intro i r hr
  obtain ⟨rest, rfl⟩ := hle
  have hlt : i < l.length := (List.getElem?_eq_some_iff.mp hr).1
  apply hm i r
  rw [List.getElem?_append_left hlt]
  exact hr

theorem getElem?_eq (hl : Numbered number l) (hr : r ∈ l) :
    ∃ i : ℕ, number r = i ∧ l[i]? = some r := by
  obtain ⟨i, hi⟩ := List.getElem?_of_mem hr
  exact ⟨i, hl i r hi, hi⟩

theorem number_lt (hl : Numbered number l) (hr : r ∈ l) : number r < l.length := by
  obtain ⟨i, hnumber, hi⟩ := hl.getElem?_eq hr
  have := (List.getElem?_eq_some_iff.mp hi).1
  omega

theorem number_getLast? (hl : Numbered number l) (hr : l.getLast? = some r) :
    number r = (l.length : ℤ) - 1 := by
  have hpos : 0 < l.length := by
    rw [List.length_pos_iff]
    rintro rfl
    cases hr
  rw [List.getLast?_eq_getElem?] at hr
  have := hl _ _ hr
  omega

theorem mem_of_lt (hm : Numbered number m) (hle : l <+: m) (hr : r ∈ m)
    (hlt : number r < l.length) : r ∈ l := by
  obtain ⟨i, hi, hget⟩ := hm.getElem?_eq hr
  obtain ⟨rest, rfl⟩ := hle
  rw [List.getElem?_append_left (by omega)] at hget
  exact List.mem_of_getElem? hget

theorem concat_prefix (hm : Numbered number m) (hle : l <+: m) (hr : r ∈ m)
    (heq : number r = l.length) : l ++ [r] <+: m := by
  obtain ⟨i, hi, hget⟩ := hm.getElem?_eq hr
  obtain ⟨rest, rfl⟩ := hle
  have hil : i = l.length := by omega
  subst hil
  rw [List.getElem?_append_right le_rfl, Nat.sub_self] at hget
  cases rest with
  | nil => cases hget
  | cons r' rest =>
    have hsame : r' = r := Option.some.inj hget
    subst hsame
    exact ⟨rest, by simp⟩

end Numbered

end Library
