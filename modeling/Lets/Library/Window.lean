import Mathlib

set_option autoImplicit false

/-!
# Numbers received behind a watermark

A receiver of numbered messages keeps a watermark, through which it has received everything, and the
numbers it has received above it.
-/

namespace Library

/-- Extend a watermark by the consecutive numbers at the head of a sorted list. -/
def advancePrefix (watermark : ℕ) : List ℕ → ℕ
  | [] => watermark
  | n :: rest => if n = watermark + 1 then advancePrefix n rest else watermark

theorem le_advancePrefix (watermark : ℕ) (l : List ℕ) : watermark ≤ advancePrefix watermark l := by
  induction l generalizing watermark with
  | nil => exact le_rfl
  | cons n rest ih =>
    unfold advancePrefix
    split_ifs with hn
    · have := ih n
      omega
    · exact le_rfl

theorem mem_of_le_advancePrefix {watermark n : ℕ} {l : List ℕ} (hlt : watermark < n)
    (hle : n ≤ advancePrefix watermark l) : n ∈ l := by
  induction l generalizing watermark with
  | nil =>
    unfold advancePrefix at hle
    omega
  | cons m rest ih =>
    unfold advancePrefix at hle
    split_ifs at hle with hm
    · by_cases hnm : n = m
      · rw [hnm]
        exact List.mem_cons_self
      · exact List.mem_cons_of_mem m (ih (by omega) hle)
    · omega

theorem advancePrefix_take {l : List ℕ} {watermark m : ℕ} (k : ℕ) (hsorted : l.Pairwise (· < ·))
    (hle : watermark ≤ m) (habove : ∀ n ∈ l, watermark < n)
    (hall : ∀ n, watermark < n → n ≤ m → n ∈ l) (hstop : m + 1 ∉ l) :
    advancePrefix watermark (l.take k) = watermark + min k (m - watermark) := by
  induction l generalizing watermark k with
  | nil =>
    have hend : ¬ watermark < m := fun hlt => nomatch hall (watermark + 1) (by omega) (by omega)
    rw [List.take_nil]
    unfold advancePrefix
    omega
  | cons n rest ih =>
    obtain ⟨hfirst, hrest⟩ := List.pairwise_cons.mp hsorted
    have hn := habove n List.mem_cons_self
    cases k with
    | zero =>
      rw [List.take_zero]
      unfold advancePrefix
      omega
    | succ k =>
      rw [List.take_succ_cons]
      unfold advancePrefix
      by_cases hend : watermark = m
      · have hne : n ≠ watermark + 1 := fun heq => hstop (by rw [← hend, ← heq]; simp)
        rw [if_neg hne]
        omega
      · -- the least number above the watermark is the next one
        have hnext : n = watermark + 1 := by
          rcases List.mem_cons.mp (hall (watermark + 1) (by omega) (by omega)) with heq | hmem
          · exact heq.symm
          · have hlt := hfirst _ hmem
            omega
        have hih : advancePrefix n (rest.take k) = n + min k (m - n) := ih k hrest (by omega) hfirst
          (fun i hlt hi => (List.mem_cons.mp (hall i (by omega) hi)).resolve_left (by omega))
          (fun hmem => hstop (List.mem_cons_of_mem n hmem))
        rw [if_pos hnext, hih]
        omega

/-- The numbers received begin with those up to the given one, and the next one is missing. -/
structure Reaches (received : Set ℕ) (m : ℕ) : Prop where
  covered : ∀ n, 0 < n → n ≤ m → n ∈ received
  missing : m + 1 ∉ received

theorem exists_reaches {received : Set ℕ} (hfinite : received.Finite) : ∃ m, Reaches received m := by
  obtain ⟨bound, hbound⟩ := hfinite.bddAbove
  have hmissing : ∃ m, m + 1 ∉ received := by
    refine ⟨bound, fun hmem => ?_⟩
    have hle := hbound hmem
    omega
  classical
  refine ⟨Nat.find hmissing, fun n hpos hle => ?_, Nat.find_spec hmissing⟩
  have hearlier := Nat.find_min hmissing (m := n - 1) (by omega)
  rwa [not_not, Nat.sub_add_cancel hpos] at hearlier

theorem Reaches.le {received : Set ℕ} {m n : ℕ} (h : Reaches received m)
    (hn : ∀ i, 0 < i → i ≤ n → i ∈ received) : n ≤ m := by
  by_contra hlt
  exact h.missing (hn (m + 1) (by omega) (by omega))

/-- The watermark and the gaps above it represent the set of numbers received. -/
structure Window (received : Set ℕ) (watermark : ℕ) (gaps : Set ℕ) : Prop where
  covered : ∀ n, 0 < n → n ≤ watermark → n ∈ received
  gaps_iff : ∀ n, n ∈ gaps ↔ n ∈ received ∧ watermark < n

namespace Window

variable {received gaps : Set ℕ} {watermark : ℕ}

variable (h : Window received watermark gaps)

include h

theorem gap {n : ℕ} (hn : watermark < n) :
    Window (insert n received) watermark (insert n gaps) where
  covered m hpos hle := .inr (h.covered m hpos hle)
  gaps_iff m := by
    rw [Set.mem_insert_iff, Set.mem_insert_iff, h.gaps_iff]
    constructor
    · rintro (rfl | ⟨hm, hlt⟩)
      · exact ⟨.inl rfl, hn⟩
      · exact ⟨.inr hm, hlt⟩
    · rintro ⟨rfl | hm, hlt⟩
      · exact .inl rfl
      · exact .inr ⟨hm, hlt⟩

theorem next (hnew : watermark + 1 ∉ received) :
    Window (insert (watermark + 1) received) (watermark + 1) gaps where
  covered m hpos hle := by
    by_cases hm : m = watermark + 1
    · exact .inl hm
    · exact .inr (h.covered m hpos (by omega))
  gaps_iff m := by
    rw [Set.mem_insert_iff, h.gaps_iff]
    constructor
    · rintro ⟨hm, hlt⟩
      have hne : m ≠ watermark + 1 := fun heq => hnew (heq ▸ hm)
      exact ⟨.inr hm, by omega⟩
    · rintro ⟨rfl | hm, hlt⟩
      · omega
      · exact ⟨hm, by omega⟩

theorem advance {watermark' : ℕ} (hle : watermark ≤ watermark')
    (hgaps : ∀ n, watermark < n → n ≤ watermark' → n ∈ gaps) :
    Window received watermark' {n | n ∈ gaps ∧ ¬(watermark < n ∧ n ≤ watermark')} where
  covered n hpos hn := by
    by_cases hold : n ≤ watermark
    · exact h.covered n hpos hold
    · exact ((h.gaps_iff n).mp (hgaps n (by omega) hn)).1
  gaps_iff n := by
    change n ∈ gaps ∧ ¬(watermark < n ∧ n ≤ watermark') ↔ _
    rw [h.gaps_iff]
    constructor
    · rintro ⟨⟨hn, hlt⟩, hnot⟩
      exact ⟨hn, by omega⟩
    · rintro ⟨hn, hlt⟩
      exact ⟨⟨hn, by omega⟩, by omega⟩

end Window

end Library
