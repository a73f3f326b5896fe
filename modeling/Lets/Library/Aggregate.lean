import Lets.Library.Outcome
import Lets.Library.Table

set_option autoImplicit false

/-!
# Running totals kept by row triggers

A table whose rows carry amounts, beside a stored total that triggers move with every insertion,
update and deletion of a row.
-/

namespace Library

/-- Amounts of a bounded type `τ`, measured in `M`, with checked sums and differences. -/
structure CheckedSum (τ M ε : Type) [AddCommMonoid M] where
  measure : τ → M
  zero : τ
  add : τ → τ → Except ε τ
  subtract : τ → τ → Except ε τ
  measure_injective : Function.Injective measure
  measure_zero : measure zero = 0
  add_ok_iff : ∀ {a b c}, add a b = .ok c ↔ measure c = measure a + measure b
  subtract_ok_iff : ∀ {a b c}, subtract a b = .ok c ↔ measure c + measure b = measure a
  /-- A part of an amount is an amount. -/
  exists_part : ∀ {m n c}, measure c = m + n → ∃ a, measure a = m

inductive RowWrite (κ : Type) {ρ τ : Type} (amount : ρ → τ)
  | insert (key : κ) (row : ρ)
  | update (key : κ) (f : ρ → ρ)
  | delete (key : κ)
  /-- Columns other than the amount are set; the trigger does not fire. -/
  | rewrite (f : κ → ρ → ρ) (keeps : ∀ key row, amount (f key row) = amount row)

structure Tally (κ ρ τ : Type) where
  rows : Table κ ρ
  total : τ

namespace Tally

variable {κ ρ τ M ε : Type} [DecidableEq κ] [AddCommMonoid M] (C : CheckedSum τ M ε)
  (amount : ρ → τ)

/-- Carry out a statement and fire its trigger; `duplicate` is the error of a second row under one
key. -/
def write (duplicate : ε) (t : Tally κ ρ τ) : RowWrite κ amount → Except ε (Tally κ ρ τ)
  | .insert key row => do
    require (key ∉ t.rows) duplicate
    let total ← C.add t.total (amount row)
    pure ⟨t.rows.insert key row, total⟩
  | .update key f =>
    match t.rows.lookup key with
    | none => pure t
    | some row => do
      let rest ← C.subtract t.total (amount row)
      let total ← C.add rest (amount (f row))
      pure ⟨t.rows.update key f, total⟩
  | .delete key =>
    match t.rows.lookup key with
    | none => pure t
    | some row => do
      let total ← C.subtract t.total (amount row)
      pure ⟨t.rows.filterRows fun key' _ => key' ≠ key, total⟩
  | .rewrite f _ => pure ⟨t.rows.mapRows f, t.total⟩

def Exact (t : Tally κ ρ τ) : Prop :=
  C.measure t.total = t.rows.sumOf fun _ row => C.measure (amount row)

def scan (t : Tally κ ρ τ) : Except ε τ :=
  t.rows.entries.foldlM (fun total entry => C.add total (amount entry.2)) C.zero

variable {C amount} {t t' : Tally κ ρ τ}

theorem Exact.write [IsCancelAdd M] {duplicate : ε} {w : RowWrite κ amount} (h : t.Exact C amount)
    (hwrite : t.write C amount duplicate w = .ok t') : t'.Exact C amount := by
  unfold Exact at h ⊢
  cases w with
  | insert key row =>
    simp only [Tally.write, bind_ok_iff, require_ok_iff, exists_unit_iff, pure_ok_iff] at hwrite
    obtain ⟨hnew, total, htotal, rfl⟩ := hwrite
    rw [Table.sumOf_insert _ row hnew, C.add_ok_iff.mp htotal, h, add_comm]
  | update key f =>
    cases hrow : t.rows.lookup key with
    | none =>
      simp only [Tally.write, hrow, pure_ok_iff] at hwrite
      exact hwrite ▸ h
    | some row =>
      simp only [Tally.write, hrow, bind_ok_iff, pure_ok_iff] at hwrite
      obtain ⟨rest, hrest, total, htotal, rfl⟩ := hwrite
      have hmoved := Table.sumOf_update (g := fun row => C.measure (amount row)) (f := f) hrow
      rw [← h, ← C.subtract_ok_iff.mp hrest] at hmoved
      rw [C.add_ok_iff.mp htotal]
      apply add_right_cancel (b := C.measure (amount row))
      rw [hmoved, add_right_comm]
  | delete key =>
    cases hrow : t.rows.lookup key with
    | none =>
      simp only [Tally.write, hrow, pure_ok_iff] at hwrite
      exact hwrite ▸ h
    | some row =>
      simp only [Tally.write, hrow, bind_ok_iff, pure_ok_iff] at hwrite
      obtain ⟨total, htotal, rfl⟩ := hwrite
      have hgone := Table.sumOf_delete (g := fun row => C.measure (amount row)) hrow
      rw [← h, ← C.subtract_ok_iff.mp htotal] at hgone
      exact (add_right_cancel hgone).symm
  | rewrite f keeps =>
    simp only [Tally.write, pure_ok_iff] at hwrite
    subst hwrite
    rw [Table.sumOf_mapRows, h]
    exact Table.sumOf_congr fun key row _ => by rw [keeps]

omit [DecidableEq κ] in
theorem foldlM_add {l : List (Sigma fun _ : κ => ρ)} {start c : τ}
    (h : C.measure c = C.measure start + (l.map fun entry => C.measure (amount entry.2)).sum) :
    l.foldlM (fun total entry => C.add total (amount entry.2)) start = .ok c := by
  induction l generalizing start with
  | nil =>
    rw [List.map_nil, List.sum_nil, add_zero] at h
    exact congrArg Except.ok (C.measure_injective h.symm)
  | cons entry l ih =>
    rw [List.map_cons, List.sum_cons, ← add_assoc] at h
    obtain ⟨next, hnext⟩ := C.exists_part h
    rw [← hnext] at h
    rw [List.foldlM_cons, C.add_ok_iff.mpr hnext]
    exact ih h

omit [DecidableEq κ] in
theorem Exact.scan_eq (h : t.Exact C amount) : t.scan C amount = .ok t.total := by
  apply foldlM_add
  rw [C.measure_zero, zero_add]
  exact h

end Tally

end Library
