import Lets.Library.Table

set_option autoImplicit false

/-!
# Working a table off in batches

Each pass rewrites the first `n` rows, in the order of their keys, that still qualify.
-/

namespace Library

namespace Table

variable {κ ρ : Type} [LinearOrder κ]

def pending (p : κ → ρ → Bool) (t : Table κ ρ) : ℕ :=
  (t.filterRows p).entries.length

def pass (n : ℕ) (p : κ → ρ → Bool) (f : κ → ρ → ρ) (t : Table κ ρ) : Table κ ρ :=
  t.updateAll (t.batch (fun k _ => k) p n) f

def passes (n : ℕ) (p : κ → ρ → Bool) : List (κ → ρ → ρ) → Table κ ρ → Table κ ρ
  | [], t => t
  | f :: fs, t => passes n p fs (t.pass n p f)

def Settles (p : κ → ρ → Bool) (f : κ → ρ → ρ) : Prop :=
  ∀ k r, p k r = true → p k (f k r) = false

variable {n : ℕ} {p : κ → ρ → Bool} {f : κ → ρ → ρ} {fs : List (κ → ρ → ρ)} {t : Table κ ρ}

theorem length_batch : (t.batch (fun k _ => k) p n).length = min n (t.pending p) := by
  simp [batch, pending, List.length_insertionSort]

theorem pending_eq_sumOf : t.pending p = t.sumOf fun k r => if p k r then 1 else 0 := by
  rw [← sumOf_filterRows]
  simp [pending, sumOf]

theorem pending_eq_zero_iff :
    t.pending p = 0 ↔ ∀ k r, t.lookup k = some r → p k r = false := by
  rw [pending, List.length_eq_zero_iff]
  constructor
  · intro hnil k r hr
    by_contra hp
    have hmem : (⟨k, r⟩ : (_ : κ) × ρ) ∈ (t.filterRows p).entries :=
      List.mem_filter.mpr ⟨lookup_eq_some_iff.mp hr, by simpa using hp⟩
    rw [hnil] at hmem
    cases hmem
  · intro hnone
    refine List.filter_eq_nil_iff.mpr fun e he => ?_
    rw [hnone e.1 e.2 (lookup_eq_some_iff.mpr he)]
    exact Bool.false_ne_true

theorem sumOf_of_mem {M : Type} [AddCommMonoid M] {ks : List κ} (hnodup : ks.Nodup)
    (h : κ → ρ → M) : (t.sumOf fun k r => if k ∈ ks then h k r else 0) =
      (ks.map fun k => (t.lookup k).elim 0 (h k)).sum := by
  have hkeys : ∀ k ∈ t.keys, k ∈ t.keys.toFinset ∪ ks.toFinset := fun k hk =>
    Finset.mem_union_left _ (List.mem_toFinset.mpr hk)
  have hoff : ∀ k ∈ t.keys.toFinset ∪ ks.toFinset, k ∉ ks.toFinset →
      ((t.lookup k).elim 0 fun r => if k ∈ ks then h k r else 0) = 0 := by
    intro k _ hk
    cases t.lookup k with
    | none => rfl
    | some r => exact if_neg fun hmem => hk (List.mem_toFinset.mpr hmem)
  rw [sumOf_eq_sum _ t hkeys, ← Finset.sum_subset Finset.subset_union_right hoff,
    ← List.sum_toFinset _ hnodup]
  refine Finset.sum_congr rfl fun k hk => ?_
  simp only [List.mem_toFinset.mp hk, if_true]

theorem lookup_pass (k : κ) : (t.pass n p f).lookup k =
    if k ∈ t.batch (fun k _ => k) p n then (t.lookup k).map (f k) else t.lookup k :=
  lookup_updateAll _ _ _ _

theorem qualifies_of_mem_batch {k : κ} {r : ρ} (hk : k ∈ t.batch (fun k _ => k) p n)
    (hr : t.lookup k = some r) : p k r = true := by
  obtain ⟨k', r', hr', hp, rfl⟩ := exists_of_mem_batch hk
  obtain rfl := some_unique hr' hr
  exact hp

theorem pending_pass (hf : Settles p f) : (t.pass n p f).pending p = t.pending p - n := by
  have hnodup : (t.batch (fun k _ => k) p n).Nodup := nodup_batch fun _ _ _ _ _ _ _ _ heq => heq
  have hcount : (t.sumOf fun k _ => if k ∈ t.batch (fun k _ => k) p n then 1 else 0) =
      (t.batch (fun k _ => k) p n).length := by
    rw [sumOf_of_mem hnodup fun _ _ => 1, List.map_congr_left (g := fun _ => 1)]
    · simp
    · intro k hk
      obtain ⟨k', r, hr, _, rfl⟩ := exists_of_mem_batch hk
      rw [hr]
      rfl
  have hsplit : (t.pass n p f).pending p + (t.batch (fun k _ => k) p n).length = t.pending p := by
    rw [pending_eq_sumOf, pending_eq_sumOf, ← hcount, pass, updateAll, sumOf_mapRows, ← sumOf_add]
    refine sumOf_congr fun k r hr => ?_
    by_cases hk : k ∈ t.batch (fun k _ => k) p n
    · have hp := qualifies_of_mem_batch hk hr
      simp [hk, hp, hf k r hp]
    · simp [hk]
  rw [length_batch] at hsplit
  omega

theorem pending_passes (hfs : ∀ f ∈ fs, Settles p f) :
    (t.passes n p fs).pending p = t.pending p - n * fs.length := by
  induction fs generalizing t with
  | nil => simp [passes]
  | cons f fs ih =>
    have hrest := ih (t := t.pass n p f) fun g hg => hfs g (List.mem_cons_of_mem f hg)
    rw [passes, hrest, pending_pass (hfs f List.mem_cons_self), List.length_cons, Nat.mul_succ]
    omega

theorem lookup_passes (hfs : ∀ f ∈ fs, Settles p f) {k : κ} {r : ρ} (hr : t.lookup k = some r) :
    (t.passes n p fs).lookup k = some r ∨
      p k r = true ∧ ∃ f ∈ fs, (t.passes n p fs).lookup k = some (f k r) := by
  induction fs generalizing t r with
  | nil => exact .inl hr
  | cons f fs ih =>
    have hrest : ∀ g ∈ fs, Settles p g := fun g hg => hfs g (List.mem_cons_of_mem f hg)
    by_cases hk : k ∈ t.batch (fun k _ => k) p n
    · have hp := qualifies_of_mem_batch hk hr
      have hpass : (t.pass n p f).lookup k = some (f k r) := by
        rw [lookup_pass, if_pos hk, hr]
        rfl
      refine .inr ⟨hp, f, List.mem_cons_self, ?_⟩
      rcases ih hrest hpass with hsame | ⟨hagain, _⟩
      · exact hsame
      · rw [hfs f List.mem_cons_self k r hp] at hagain
        cases hagain
    · have hpass : (t.pass n p f).lookup k = some r := by rw [lookup_pass, if_neg hk, hr]
      rcases ih hrest hpass with hsame | ⟨hp, g, hg, hrow⟩
      · exact .inl hsame
      · exact .inr ⟨hp, g, List.mem_cons_of_mem f hg, hrow⟩

theorem lookup_passes_none {k : κ} (hr : t.lookup k = none) :
    (t.passes n p fs).lookup k = none := by
  induction fs generalizing t with
  | nil => exact hr
  | cons f fs ih =>
    refine ih ?_
    rw [lookup_pass, hr]
    exact ite_self _

theorem pending_passes_eq_zero (hn : 0 < n) (hfs : ∀ f ∈ fs, Settles p f)
    (hlength : t.pending p ⌈/⌉ n ≤ fs.length) : (t.passes n p fs).pending p = 0 := by
  rw [pending_passes hfs, Nat.sub_eq_zero_iff_le]
  exact (ceilDiv_le_iff_le_mul hn).mp hlength

theorem lookup_passes_of_pending (hn : 0 < n) (hfs : ∀ f ∈ fs, Settles p f)
    (hlength : t.pending p ⌈/⌉ n ≤ fs.length) {k : κ} {r : ρ} (hr : t.lookup k = some r)
    (hp : p k r = true) : ∃ f ∈ fs, (t.passes n p fs).lookup k = some (f k r) := by
  rcases lookup_passes (n := n) hfs hr with hsame | ⟨_, hrow⟩
  · have hdone := pending_eq_zero_iff.mp (pending_passes_eq_zero hn hfs hlength) k r hsame
    rw [hp] at hdone
    cases hdone
  · exact hrow

end Table

end Library
