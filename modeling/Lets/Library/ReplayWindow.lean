import Lets.Library.Anchor

set_option autoImplicit false

/-!
# Replay windows

A memory of claimed keys that may forget: each claim is for a point in time and remembered until an
expiry, and a clock floor says up to where claims are refused without being looked up.
-/

namespace Library

/-- What is remembered: the floor, and the expiry of each remembered key. -/
structure ReplayWindow (κ : Type) where
  floor : Option ℕ
  expiry : κ → Option ℕ

namespace ReplayWindow

variable {κ : Type} {w w' : ReplayWindow κ} {skew t : ℕ} {k : κ} {accepted : List (κ × ℕ)}

def TooOld (skew t : ℕ) (w : ReplayWindow κ) : Prop :=
  ∃ floor ∈ w.floor, t + skew < floor

/-- Every accepted claim is remembered for long enough, or too old to be made again. -/
def Covers (skew : ℕ) (accepted : List (κ × ℕ)) (w : ReplayWindow κ) : Prop :=
  ∀ claim ∈ accepted, (∃ expiry ∈ w.expiry claim.1, claim.2 + skew ≤ expiry) ∨
    w.TooOld skew claim.2

/-- The floor rises, and keys are forgotten only once they have expired before it. -/
structure Forgets (w w' : ReplayWindow κ) : Prop where
  floor_kept : FloorKept w.floor w'.floor
  expired : ∀ k, ∀ expiry ∈ w.expiry k, expiry ∈ w'.expiry k ∨ ∃ floor ∈ w'.floor, expiry < floor

/-- A claim is accepted: something may be forgotten, the key is not remembered, the floor does not
refuse it, and it is remembered from now on. -/
structure Accepts (skew : ℕ) (k : κ) (t : ℕ) (w w' : ReplayWindow κ) : Prop where
  forgets : ∃ mid, Forgets w mid ∧ mid.expiry k = none ∧ w'.floor = mid.floor ∧
    ∀ k' ≠ k, w'.expiry k' = mid.expiry k'
  fresh : ¬ w'.TooOld skew t
  remembered : ∃ expiry ∈ w'.expiry k, t + skew ≤ expiry

theorem Forgets.refl (w : ReplayWindow κ) : Forgets w w :=
  ⟨.refl _, fun _ _ h => .inl h⟩

theorem TooOld.mono (h : w.TooOld skew t) (hfloor : FloorKept w.floor w'.floor) :
    w'.TooOld skew t := by
  obtain ⟨floor, hmem, hlt⟩ := h
  obtain ⟨floor', hmem', hle⟩ := hfloor floor hmem
  exact ⟨floor', hmem', by omega⟩

theorem Covers.forgets (h : w.Covers skew accepted) (hforgets : w.Forgets w') :
    w'.Covers skew accepted := by
  intro claim hclaim
  rcases h claim hclaim with ⟨expiry, hexpiry, hle⟩ | hold
  · rcases hforgets.expired _ _ hexpiry with hkept | ⟨floor, hfloor, hlt⟩
    · exact .inl ⟨expiry, hkept, hle⟩
    · exact .inr ⟨floor, hfloor, by omega⟩
  · exact .inr (hold.mono hforgets.floor_kept)

theorem Covers.accepts (h : w.Covers skew accepted) (haccepts : w.Accepts skew k t w') :
    (k, t) ∉ accepted ∧ w'.Covers skew (accepted ++ [(k, t)]) := by
  obtain ⟨⟨mid, hforgets, hunknown, hfloor, hothers⟩, hfresh, hremembered⟩ := haccepts
  have hmid := h.forgets hforgets
  have holdIff {u : ℕ} : w'.TooOld skew u ↔ mid.TooOld skew u := by
    rw [TooOld, TooOld, hfloor]
  constructor
  · intro hmem
    rcases hmid _ hmem with ⟨expiry, hexpiry, _⟩ | hold
    · rw [hunknown] at hexpiry
      cases hexpiry
    · exact hfresh (holdIff.mpr hold)
  · intro claim hclaim
    rcases List.mem_append.mp hclaim with hclaim | hclaim
    · rcases hmid claim hclaim with ⟨expiry, hexpiry, hle⟩ | hold
      · -- the key of the claim is remembered, so it is not the new one
        have hne : claim.1 ≠ k := by
          rintro rfl
          rw [hunknown] at hexpiry
          cases hexpiry
        rw [← hothers _ hne] at hexpiry
        exact .inl ⟨expiry, hexpiry, hle⟩
      · exact .inr (holdIff.mpr hold)
    · rw [List.mem_singleton.mp hclaim]
      exact .inl hremembered

end ReplayWindow

end Library
