import Mathlib
import Lets.Library.Outcome

set_option autoImplicit false

/-!
# Keyed tables

A table is a finite map with a unique key per row.
-/

namespace Library

abbrev Table (κ ρ : Type) := AList (fun _ : κ => ρ)

namespace Table

variable {κ ρ : Type}

def mapRows (f : κ → ρ → ρ) (t : Table κ ρ) : Table κ ρ where
  entries := t.entries.map fun e => ⟨e.1, f e.1 e.2⟩
  nodupKeys := by
    have hkeys : (t.entries.map fun e => (⟨e.1, f e.1 e.2⟩ : (_ : κ) × ρ)).keys = t.entries.keys := by
      simp [List.keys]
    simpa [List.NodupKeys, hkeys] using t.nodupKeys

def update [DecidableEq κ] (k : κ) (f : ρ → ρ) (t : Table κ ρ) : Table κ ρ :=
  t.mapRows fun k' r => if k' = k then f r else r

def updateAll [DecidableEq κ] (ks : List κ) (f : κ → ρ → ρ) (t : Table κ ρ) : Table κ ρ :=
  t.mapRows fun k r => if k ∈ ks then f k r else r

def filterRows (p : κ → ρ → Bool) (t : Table κ ρ) : Table κ ρ where
  entries := t.entries.filter fun e => p e.1 e.2
  nodupKeys := t.nodupKeys.sublist List.filter_sublist

def anyRow (p : κ → ρ → Bool) (t : Table κ ρ) : Bool :=
  t.entries.any fun e => p e.1 e.2

/-- Fail, naming a row, when some row satisfies `p`. -/
def forbid {ε : Type} (p : κ → ρ → Bool) (error : κ → ρ → ε) (t : Table κ ρ) : Except ε Unit :=
  match t.entries.find? fun e => p e.1 e.2 with
  | some e => .error (error e.1 e.2)
  | none => .ok ()

def sumOf {M : Type} [AddCommMonoid M] (f : κ → ρ → M) (t : Table κ ρ) : M :=
  (t.entries.map fun e => f e.1 e.2).sum

/-- The first `n`, in ascending order, of the values `g` takes on the rows that satisfy `p`: a query
`SELECT g(row) WHERE p(row) ORDER BY g(row) LIMIT n`. -/
def batch {β : Type} [LinearOrder β] (g : κ → ρ → β) (p : κ → ρ → Bool) (n : ℕ) (t : Table κ ρ) :
    List β :=
  (((t.filterRows p).entries.map fun e => g e.1 e.2).insertionSort (· ≤ ·)).take n

/-- Delete the rows of one batch: `DELETE` of what the query above selects. -/
def deleteBatch {β : Type} [LinearOrder β] (g : κ → ρ → β) (p : κ → ρ → Bool) (n : ℕ)
    (t : Table κ ρ) : Table κ ρ :=
  t.filterRows fun k r => g k r ∉ t.batch g p n

section Lookup

variable [DecidableEq κ]

variable {t : Table κ ρ} {k : κ} {r : ρ}

theorem lookup_eq_some_iff : t.lookup k = some r ↔ (⟨k, r⟩ : (_ : κ) × ρ) ∈ t.entries :=
  AList.mem_lookup_iff

theorem mem_iff_lookup : k ∈ t ↔ ∃ r, t.lookup k = some r := by
  rw [← AList.lookup_isSome, Option.isSome_iff_exists]

theorem mem_of_lookup (h : t.lookup k = some r) : k ∈ t :=
  mem_iff_lookup.mpr ⟨r, h⟩

theorem lookup_insert_eq {k' : κ} :
    (t.insert k' r).lookup k = if k = k' then some r else t.lookup k := by
  split_ifs with h
  · subst h
    exact AList.lookup_insert t
  · exact AList.lookup_insert_ne h

theorem lookup_insert_of_new {k' : κ} {r' : ρ} (hnew : k' ∉ t) (hr : t.lookup k = some r) :
    (t.insert k' r').lookup k = some r := by
  rw [lookup_insert_eq, if_neg]
  · exact hr
  · rintro rfl
    exact hnew (mem_iff_lookup.mpr ⟨r, hr⟩)

theorem lookup_of_lookup_erase {k' : κ} (h : (t.erase k').lookup k = some r) :
    t.lookup k = some r := by
  by_cases hk : k = k'
  · rw [hk, AList.lookup_erase] at h
    cases h
  · rwa [AList.lookup_erase_ne hk] at h

@[simp] theorem lookup_mapRows (f : κ → ρ → ρ) (t : Table κ ρ) (k : κ) :
    (t.mapRows f).lookup k = (t.lookup k).map (f k) := by
  ext r
  simp only [lookup_eq_some_iff, mapRows, List.mem_map, Option.map_eq_some_iff]
  constructor
  · rintro ⟨⟨k', r'⟩, hmem, heq⟩
    cases heq
    exact ⟨r', hmem, rfl⟩
  · rintro ⟨r', hmem, rfl⟩
    exact ⟨⟨k, r'⟩, hmem, rfl⟩

@[simp] theorem mem_mapRows {f : κ → ρ → ρ} : k ∈ t.mapRows f ↔ k ∈ t := by
  rw [← AList.lookup_isSome, ← AList.lookup_isSome, lookup_mapRows, Option.isSome_map]

theorem lookup_update (k : κ) (f : ρ → ρ) (t : Table κ ρ) (k' : κ) :
    (t.update k f).lookup k' = if k' = k then (t.lookup k').map f else t.lookup k' := by
  rw [update, lookup_mapRows]
  split_ifs with h <;> simp

theorem lookup_updateAll (ks : List κ) (f : κ → ρ → ρ) (t : Table κ ρ) (k : κ) :
    (t.updateAll ks f).lookup k = if k ∈ ks then (t.lookup k).map (f k) else t.lookup k := by
  rw [updateAll, lookup_mapRows]
  split_ifs with h <;> simp

omit [DecidableEq κ] in
theorem mapRows_mapRows (f g : κ → ρ → ρ) (t : Table κ ρ) :
    (t.mapRows f).mapRows g = t.mapRows fun k r => g k (f k r) := by
  refine AList.ext ?_
  simp [mapRows]

omit [DecidableEq κ] in
theorem mapRows_self (t : Table κ ρ) : (t.mapRows fun _ r => r) = t := by
  refine AList.ext ?_
  simp [mapRows]

theorem mapRows_congr {f g : κ → ρ → ρ} (h : ∀ k r, t.lookup k = some r → f k r = g k r) :
    t.mapRows f = t.mapRows g := by
  refine AList.ext (List.map_congr_left fun e he => ?_)
  rw [h e.1 e.2 (lookup_eq_some_iff.mpr he)]

theorem updateAll_nil (f : κ → ρ → ρ) (t : Table κ ρ) : t.updateAll [] f = t := by
  refine AList.ext ?_
  simp [updateAll, mapRows]

theorem updateAll_update {ks : List κ} (f : ρ → ρ) (g : κ → ρ → ρ) (t : Table κ ρ) (hk : k ∉ ks) :
    (t.update k f).updateAll ks g =
      t.updateAll (k :: ks) fun k' => if k' = k then f else g k' := by
  rw [update, updateAll, mapRows_mapRows, updateAll]
  congr 1
  funext k' r
  by_cases hkk : k' = k
  · subst hkk
    simp [hk]
  · simp [hkk]

theorem updateAll_update_const {ks : List κ} (f : ρ → ρ) (t : Table κ ρ) (hk : k ∉ ks) :
    ((t.update k f).updateAll ks fun _ => f) = t.updateAll (k :: ks) fun _ => f := by
  rw [updateAll_update _ _ _ hk]
  simp only [ite_self]

theorem update_updateAll {ks : List κ} (f : ρ → ρ) (g : κ → ρ → ρ) (t : Table κ ρ) (hk : k ∉ ks) :
    (t.updateAll ks g).update k f =
      t.updateAll (k :: ks) fun k' => if k' = k then f else g k' := by
  rw [update, updateAll, mapRows_mapRows, updateAll]
  congr 1
  funext k' r
  by_cases hkk : k' = k
  · subst hkk
    simp [hk]
  · simp [hkk]

@[simp] theorem lookup_filterRows (p : κ → ρ → Bool) (t : Table κ ρ) (k : κ) :
    (t.filterRows p).lookup k = (t.lookup k).filter (p k) := by
  ext r
  simp [lookup_eq_some_iff, filterRows, Option.filter_eq_some_iff]

omit [DecidableEq κ] in
theorem length_filterRows_le (p q : κ → ρ → Bool) (t : Table κ ρ) :
    ((t.filterRows q).filterRows p).entries.length ≤ (t.filterRows p).entries.length :=
  (List.filter_sublist.filter _).length_le

variable {p : κ → ρ → Bool}

theorem length_filterRows_lt {q : κ → ρ → Bool} (hr : t.lookup k = some r) (hp : p k r = true)
    (hq : q k r = false) :
    ((t.filterRows q).filterRows p).entries.length < (t.filterRows p).entries.length := by
  refine lt_of_le_of_ne (length_filterRows_le p q t) fun hlength => ?_
  have hsub : ((t.filterRows q).filterRows p).entries.Sublist (t.filterRows p).entries :=
    List.filter_sublist.filter _
  have hmem : (⟨k, r⟩ : (_ : κ) × ρ) ∈ ((t.filterRows q).filterRows p).entries := by
    rw [hsub.eq_of_length hlength]
    exact List.mem_filter.mpr ⟨lookup_eq_some_iff.mp hr, hp⟩
  have hkept := (List.mem_filter.mp (List.mem_filter.mp hmem).1).2
  rw [hq] at hkept
  cases hkept

theorem mem_filterRows_iff {p : κ → Bool} :
    (k ∈ t.filterRows fun k _ => p k) ↔ k ∈ t ∧ p k = true := by
  simp only [mem_iff_lookup, lookup_filterRows, Option.filter_eq_some_iff]
  constructor
  · rintro ⟨r, hr, hp⟩
    exact ⟨⟨r, hr⟩, hp⟩
  · rintro ⟨⟨r, hr⟩, hp⟩
    exact ⟨r, hr, hp⟩

theorem anyRow_iff : t.anyRow p = true ↔ ∃ k r, t.lookup k = some r ∧ p k r = true := by
  simp only [anyRow, List.any_eq_true, lookup_eq_some_iff]
  constructor
  · rintro ⟨⟨k, r⟩, hmem, hp⟩
    exact ⟨k, r, hmem, hp⟩
  · rintro ⟨k, r, hmem, hp⟩
    exact ⟨⟨k, r⟩, hmem, hp⟩

theorem anyRow_eq_false_iff : t.anyRow p = false ↔ ∀ k r, t.lookup k = some r → p k r = false := by
  rw [← Bool.not_eq_true, anyRow_iff]
  push Not
  simp

theorem forbid_ok_iff {ε : Type} {error : κ → ρ → ε} {u : Unit} :
    t.forbid p error = .ok u ↔ ∀ k r, t.lookup k = some r → p k r = false := by
  unfold forbid
  cases hfind : t.entries.find? fun e => p e.1 e.2 with
  | none =>
    rw [List.find?_eq_none] at hfind
    refine iff_of_true rfl fun k r hr => ?_
    exact Bool.not_eq_true _ ▸ hfind ⟨k, r⟩ (lookup_eq_some_iff.mp hr)
  | some e =>
    have hmem := List.mem_of_find?_eq_some hfind
    have hp := List.find?_some hfind
    refine iff_of_false (by simp) fun hall => ?_
    rw [hall e.1 e.2 (lookup_eq_some_iff.mpr hmem)] at hp
    exact Bool.false_ne_true hp

end Lookup

section Batch

variable [DecidableEq κ] {β : Type} [LinearOrder β] {g : κ → ρ → β} {p : κ → ρ → Bool} {n : ℕ}
  {t : Table κ ρ}

theorem mem_sorted_iff {b : β} :
    b ∈ ((t.filterRows p).entries.map fun e => g e.1 e.2).insertionSort (· ≤ ·) ↔
      ∃ k r, t.lookup k = some r ∧ p k r = true ∧ g k r = b := by
  rw [List.mem_insertionSort, List.mem_map]
  constructor
  · rintro ⟨⟨k, r⟩, he, rfl⟩
    have hr := lookup_eq_some_iff.mpr he
    rw [lookup_filterRows, Option.filter_eq_some_iff] at hr
    exact ⟨k, r, hr.1, hr.2, rfl⟩
  · rintro ⟨k, r, hr, hp, rfl⟩
    refine ⟨⟨k, r⟩, lookup_eq_some_iff.mp ?_, rfl⟩
    rw [lookup_filterRows, Option.filter_eq_some_iff]
    exact ⟨hr, hp⟩

theorem exists_of_mem_batch {b : β} (h : b ∈ t.batch g p n) :
    ∃ k r, t.lookup k = some r ∧ p k r = true ∧ g k r = b :=
  mem_sorted_iff.mp (List.mem_of_mem_take h)

omit [DecidableEq κ] in
theorem length_batch_le : (t.batch g p n).length ≤ n :=
  List.length_take_le n _

theorem mem_batch_of_length_lt {k : κ} {r : ρ} (hlen : (t.batch g p n).length < n)
    (hr : t.lookup k = some r) (hp : p k r = true) : g k r ∈ t.batch g p n := by
  have hall : (((t.filterRows p).entries.map fun e => g e.1 e.2).insertionSort (· ≤ ·)).length ≤ n := by
    unfold batch at hlen
    rw [List.length_take] at hlen
    omega
  rw [batch, List.take_of_length_le hall]
  exact mem_sorted_iff.mpr ⟨k, r, hr, hp, rfl⟩

theorem exists_mem_batch {k : κ} {r : ρ} (hn : 0 < n) (hr : t.lookup k = some r)
    (hp : p k r = true) : ∃ b, b ∈ t.batch g p n := by
  by_contra hnone
  have hempty : t.batch g p n = [] :=
    List.eq_nil_iff_forall_not_mem.mpr fun b hb => hnone ⟨b, hb⟩
  have hlen : (t.batch g p n).length < n := by
    rw [hempty]
    exact hn
  exact hnone ⟨_, mem_batch_of_length_lt hlen hr hp⟩

theorem pairwise_sorted (hg : ∀ k k' r r', t.lookup k = some r → t.lookup k' = some r' →
    p k r = true → p k' r' = true → g k r = g k' r' → k = k') :
    (((t.filterRows p).entries.map fun e => g e.1 e.2).insertionSort (· ≤ ·)).Pairwise (· < ·) := by
  have hentries : (t.filterRows p).entries.Nodup := (t.filterRows p).nodupKeys.nodup
  have hnodup : ((t.filterRows p).entries.map fun e => g e.1 e.2).Nodup := by
    refine hentries.map_on fun e he e' he' heq => ?_
    have hr := lookup_eq_some_iff.mpr he
    have hr' := lookup_eq_some_iff.mpr he'
    have hlook := hr
    have hlook' := hr'
    rw [lookup_filterRows, Option.filter_eq_some_iff] at hr hr'
    have hkey := hg _ _ _ _ hr.1 hr'.1 hr.2 hr'.2 heq
    rw [hkey, hlook'] at hlook
    exact Sigma.ext hkey (heq_of_eq (Option.some.inj hlook).symm)
  rw [← (List.perm_insertionSort (· ≤ ·) _).nodup_iff] at hnodup
  exact (List.pairwise_insertionSort (· ≤ ·) _).imp₂ (fun _ _ => lt_of_le_of_ne) hnodup

theorem nodup_batch (hg : ∀ k k' r r', t.lookup k = some r → t.lookup k' = some r' →
    p k r = true → p k' r' = true → g k r = g k' r' → k = k') : (t.batch g p n).Nodup :=
  ((pairwise_sorted hg).sublist (List.take_sublist _ _)).imp ne_of_lt

theorem lookup_deleteBatch_cases (hg : ∀ k k' r r', g k r = g k' r' → p k r = p k' r') {k : κ} {r : ρ}
    (hr : t.lookup k = some r) : (t.deleteBatch g p n).lookup k = some r ∨
      (t.deleteBatch g p n).lookup k = none ∧ p k r = true := by
  rw [deleteBatch, lookup_filterRows, hr]
  by_cases hmem : g k r ∈ t.batch g p n
  · obtain ⟨k', r', _, hp, heq⟩ := exists_of_mem_batch hmem
    refine .inr ⟨?_, (hg k' k r' r heq).symm.trans hp⟩
    simp [Option.filter, hmem]
  · simp [Option.filter, hmem]

end Batch

theorem filter_key {β : Type} [DecidableEq κ] (g : ρ → β) (t : Table κ ρ) (k : κ) :
    (t.entries.map fun e => (e.1, g e.2)).filter (fun e => e.1 = k) =
      ((t.lookup k).map fun r => (k, g r)).toList := by
  have hnodup := t.nodupKeys
  unfold AList.lookup
  revert hnodup
  induction t.entries with
  | nil => exact fun _ => rfl
  | cons e l ih =>
    intro hnodup
    obtain ⟨hkey, hrest⟩ := List.nodupKeys_cons.mp hnodup
    obtain ⟨k', r⟩ := e
    by_cases hk : k' = k
    · subst hk
      have hnone := List.dlookup_eq_none.mpr hkey
      rw [List.map_cons, List.filter_cons_of_pos (by simp), ih hrest, hnone, List.dlookup_cons_eq]
      rfl
    · rw [List.map_cons, List.filter_cons_of_neg (by simp [hk]), ih hrest,
        List.dlookup_cons_ne _ _ (Ne.symm hk)]

section Sum

variable {M : Type} [AddCommMonoid M]

variable {t : Table κ ρ}

theorem sumOf_insert [DecidableEq κ] {k : κ} (f : κ → ρ → M) (r : ρ) (h : k ∉ t) :
    sumOf f (t.insert k r) = f k r + sumOf f t := by
  rw [sumOf, AList.entries_insert_of_notMem h]
  rfl

theorem sumOf_mapRows (f : κ → ρ → M) (g : κ → ρ → ρ) (t : Table κ ρ) :
    sumOf f (t.mapRows g) = sumOf (fun k r => f k (g k r)) t := by
  simp [sumOf, mapRows, Function.comp_def]

variable {f : κ → ρ → M}

theorem sumOf_congr [DecidableEq κ] {g : κ → ρ → M} (h : ∀ k r, t.lookup k = some r → f k r = g k r) :
    sumOf f t = sumOf g t := by
  refine congrArg List.sum (List.map_congr_left fun e he => ?_)
  exact h e.1 e.2 (lookup_eq_some_iff.mpr he)

theorem sumOf_eq_sum [DecidableEq κ] (f : κ → ρ → M) (t : Table κ ρ) {s : Finset κ}
    (hs : ∀ k ∈ t.keys, k ∈ s) : sumOf f t = ∑ k ∈ s, (t.lookup k).elim 0 (f k) := by
  have hkeys : t.keys.toFinset ⊆ s := fun k hk => hs k (List.mem_toFinset.mp hk)
  rw [← Finset.sum_subset hkeys, List.sum_toFinset _ t.keys_nodup, sumOf, AList.keys, List.keys,
    List.map_map]
  · refine congrArg List.sum (List.map_congr_left fun e he => ?_)
    rw [Function.comp_apply, lookup_eq_some_iff.mpr he]
    rfl
  · intro k _ hk
    rw [AList.lookup_eq_none.mpr fun hmem => hk (List.mem_toFinset.mpr (AList.mem_keys.mp hmem))]
    rfl

theorem sumOf_eq_of_lookup [DecidableEq κ] {σ : Type} {g : κ → σ → M} {t' : Table κ σ}
    (h : ∀ k, (t.lookup k).elim 0 (f k) = (t'.lookup k).elim 0 (g k)) : sumOf f t = sumOf g t' := by
  rw [sumOf_eq_sum f t (s := t.keys.toFinset ∪ t'.keys.toFinset),
    sumOf_eq_sum g t' (s := t.keys.toFinset ∪ t'.keys.toFinset)]
  · exact Finset.sum_congr rfl fun k _ => h k
  · exact fun k hk => Finset.mem_union_right _ (List.mem_toFinset.mpr hk)
  · exact fun k hk => Finset.mem_union_left _ (List.mem_toFinset.mpr hk)

theorem sumOf_filterRows [DecidableEq κ] (f : κ → ρ → M) (p : κ → ρ → Bool) (t : Table κ ρ) :
    sumOf f (t.filterRows p) = sumOf (fun k r => if p k r then f k r else 0) t := by
  refine sumOf_eq_of_lookup fun k => ?_
  rw [lookup_filterRows]
  cases t.lookup k with
  | none => rfl
  | some r =>
    by_cases hp : p k r = true
    · simp [Option.filter, hp]
    · simp [Option.filter, hp]

theorem sumOf_add (f g : κ → ρ → M) (t : Table κ ρ) :
    sumOf (fun k r => f k r + g k r) t = sumOf f t + sumOf g t :=
  List.sum_map_add

theorem sumOf_add_of_eq_off [DecidableEq κ] {g : κ → ρ → M} {k : κ} {r : ρ}
    (hr : t.lookup k = some r) (hoff : ∀ k' r', k' ≠ k → f k' r' = g k' r') :
    sumOf f t + g k r = sumOf g t + f k r := by
  have hmem := lookup_eq_some_iff.mp hr
  have hnodup := t.nodupKeys
  unfold sumOf
  revert hmem hnodup
  induction t.entries with
  | nil => intro hmem; exact absurd hmem List.not_mem_nil
  | cons e l ih =>
    intro hmem hnodup
    have hkey : e.1 ∉ l.keys := (List.nodupKeys_cons.mp hnodup).1
    simp only [List.map_cons, List.sum_cons]
    rcases List.mem_cons.mp hmem with heq | htail
    · subst heq
      have hrest : l.map (fun e => f e.1 e.2) = l.map (fun e => g e.1 e.2) := by
        refine List.map_congr_left fun e he => hoff _ _ fun hek => hkey ?_
        have hmem' : e.1 ∈ l.keys := List.mem_map_of_mem he
        rwa [hek] at hmem'
      rw [hrest, add_right_comm, add_comm (f k r), add_assoc, add_comm (f k r), ← add_assoc]
    · have hne : e.1 ≠ k := fun hek => hkey (hek ▸ List.mem_map_of_mem htail)
      rw [hoff _ _ hne, add_assoc, ih htail (List.nodupKeys_cons.mp hnodup).2, ← add_assoc]

theorem sumOf_update [DecidableEq κ] {k : κ} {r : ρ} {g : ρ → M} {f : ρ → ρ}
    (hr : t.lookup k = some r) :
    ((t.update k f).sumOf fun _ r => g r) + g r = (t.sumOf fun _ r => g r) + g (f r) := by
  rw [update, sumOf_mapRows]
  have h := sumOf_add_of_eq_off (f := fun k' r => g (if k' = k then f r else r))
    (g := fun _ r => g r) hr fun k' r hne => by rw [if_neg hne]
  rwa [if_pos rfl] at h

theorem sumOf_delete [DecidableEq κ] {k : κ} {r : ρ} {g : ρ → M} (hr : t.lookup k = some r) :
    ((t.filterRows fun k' _ => k' ≠ k).sumOf fun _ r => g r) + g r = t.sumOf fun _ r => g r := by
  rw [sumOf_filterRows]
  have h := sumOf_add_of_eq_off (f := fun k' r => if decide (k' ≠ k) = true then g r else 0)
    (g := fun _ r => g r) hr fun k' r hne => by rw [if_pos (decide_eq_true hne)]
  rwa [if_neg (by simp), add_zero] at h

/-- Rows that a table holds, each under its own key, add up to no more than the table does. -/
theorem sum_le_sumOf [DecidableEq κ] [DecidableEq ρ] {g : ρ → κ} {rows : Finset ρ}
    (hrows : ∀ r ∈ rows, t.lookup (g r) = some r) (f : ρ → ℕ) :
    ∑ r ∈ rows, f r ≤ t.sumOf fun _ r => f r := by
  have hinj : Set.InjOn g rows := fun r hr r' hr' heq =>
    some_unique (hrows r hr) (heq ▸ hrows r' hr')
  calc ∑ r ∈ rows, f r = ∑ k ∈ rows.image g, (t.lookup k).elim 0 f := by
        rw [Finset.sum_image hinj]
        exact Finset.sum_congr rfl fun r hr => by rw [hrows r hr]; rfl
    _ ≤ ∑ k ∈ t.keys.toFinset ∪ rows.image g, (t.lookup k).elim 0 f :=
        Finset.sum_le_sum_of_subset Finset.subset_union_right
    _ = t.sumOf fun _ r => f r := (sumOf_eq_sum _ t fun k hk =>
        Finset.mem_union_left _ (List.mem_toFinset.mpr hk)).symm

end Sum

section Evolution

variable [DecidableEq κ] {R : ρ → ρ → Prop} {t t' : Table κ ρ}

/-- No row is lost, and each has become one that `R` allows. -/
def Evolves (R : ρ → ρ → Prop) (t t' : Table κ ρ) : Prop :=
  ∀ k r, t.lookup k = some r → ∃ r', t'.lookup k = some r' ∧ R r r'

theorem Evolves.of_eq (hR : ∀ r, R r r) (h : t' = t) : Evolves R t t' :=
  fun _ r hr => ⟨r, h ▸ hr, hR r⟩

theorem Evolves.insert {k : κ} {r : ρ} (h : Evolves R t t') (hnew : k ∉ t) :
    Evolves R t (t'.insert k r) := by
  intro k' r' hr'
  have hne : k' ≠ k := by
    rintro rfl
    exact hnew (mem_iff_lookup.mpr ⟨r', hr'⟩)
  rw [lookup_insert_eq, if_neg hne]
  exact h k' r' hr'

theorem Evolves.trans {t'' : Table κ ρ} (hR : ∀ r r' r'', R r r' → R r' r'' → R r r'')
    (h : Evolves R t t') (h' : Evolves R t' t'') : Evolves R t t'' := by
  intro k r hr
  obtain ⟨r', hr', hrel⟩ := h k r hr
  obtain ⟨r'', hr'', hrel'⟩ := h' k r' hr'
  exact ⟨r'', hr'', hR _ _ _ hrel hrel'⟩

theorem evolves_updateAll (hR : ∀ r, R r r) {f : κ → ρ → ρ} (hf : ∀ k r, R r (f k r))
    (ks : List κ) : Evolves R t (t.updateAll ks f) := by
  intro k r hr
  rw [lookup_updateAll, hr]
  split_ifs
  · exact ⟨f k r, rfl, hf k r⟩
  · exact ⟨r, rfl, hR r⟩

theorem evolves_update (hR : ∀ r, R r r) {k : κ} {f : ρ → ρ}
    (hf : ∀ r, t.lookup k = some r → R r (f r)) : Evolves R t (t.update k f) := by
  intro k' r hr
  rw [lookup_update, hr]
  by_cases hk : k' = k
  · subst hk
    rw [if_pos rfl]
    exact ⟨f r, rfl, hf r hr⟩
  · rw [if_neg hk]
    exact ⟨r, rfl, hR r⟩

end Evolution

end Table

end Library
