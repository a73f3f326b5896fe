import Mathlib

set_option autoImplicit false

/-!
# Trees of connectives

Conjunctions, disjunctions and negations over leaves of any sort.
-/

namespace Library

inductive BooleanTree (α : Type)
  | leaf (a : α)
  | all (branches : List (BooleanTree α))
  | any (branches : List (BooleanTree α))
  | not (branch : BooleanTree α)

namespace BooleanTree

variable {α β γ : Type}

@[elab_as_elim]
theorem induction {P : BooleanTree α → Prop} (leaf : ∀ a, P (.leaf a))
    (all : ∀ branches, (∀ t ∈ branches, P t) → P (.all branches))
    (any : ∀ branches, (∀ t ∈ branches, P t) → P (.any branches))
    (not : ∀ branch, P branch → P (.not branch)) (t : BooleanTree α) : P t :=
  @BooleanTree.rec α P (fun branches => ∀ t ∈ branches, P t) leaf all any not
    (fun _ ht => (by cases ht))
    (fun _ _ hhead htail t ht => (List.mem_cons.mp ht).elim (fun h => h ▸ hhead) (htail t)) t

section Fold

variable (leaf : α → β) (all any : List β → β) (not : β → β)

mutual

def fold : BooleanTree α → β
  | .leaf a => leaf a
  | .all branches => all (foldBranches branches)
  | .any branches => any (foldBranches branches)
  | .not branch => not (fold branch)

def foldBranches : List (BooleanTree α) → List β
  | [] => []
  | t :: rest => fold t :: foldBranches rest

end

theorem foldBranches_eq (branches : List (BooleanTree α)) :
    foldBranches leaf all any not branches = branches.map (fold leaf all any not) := by
  induction branches with
  | nil => rfl
  | cons t rest ih => rw [foldBranches, ih, List.map_cons]

theorem fold_all (branches : List (BooleanTree α)) :
    fold leaf all any not (.all branches) = all (branches.map (fold leaf all any not)) := by
  rw [fold, foldBranches_eq]

theorem fold_any (branches : List (BooleanTree α)) :
    fold leaf all any not (.any branches) = any (branches.map (fold leaf all any not)) := by
  rw [fold, foldBranches_eq]

end Fold

/-! ### Truth -/

def Holds (P : α → Prop) : BooleanTree α → Prop :=
  fold P (fun l => ∀ p ∈ l, p) (fun l => ∃ p ∈ l, p) Not

variable {P : α → Prop}

@[simp] theorem holds_all {branches : List (BooleanTree α)} :
    (all branches).Holds P ↔ ∀ t ∈ branches, t.Holds P := by
  rw [Holds, fold_all, List.forall_mem_map]

@[simp] theorem holds_any {branches : List (BooleanTree α)} :
    (any branches).Holds P ↔ ∃ t ∈ branches, t.Holds P := by
  rw [Holds, fold_any]
  simp only [List.mem_map, exists_exists_and_eq_and]

@[simp] theorem holds_not {branch : BooleanTree α} :
    (BooleanTree.not branch).Holds P ↔ ¬ branch.Holds P := Iff.rfl

/-! ### Leaves -/

def leaves : BooleanTree α → List α :=
  fold (fun a => [a]) List.flatten List.flatten id

@[simp] theorem leaves_leaf {a : α} : (leaf a).leaves = [a] := rfl

@[simp] theorem mem_leaves_all {branches : List (BooleanTree α)} {a : α} :
    a ∈ (all branches).leaves ↔ ∃ t ∈ branches, a ∈ t.leaves := by
  simp [leaves, fold_all]

@[simp] theorem mem_leaves_any {branches : List (BooleanTree α)} {a : α} :
    a ∈ (any branches).leaves ↔ ∃ t ∈ branches, a ∈ t.leaves := by
  simp [leaves, fold_any]

/-! ### Size -/

def depth : BooleanTree α → ℕ :=
  fold (fun _ => 1) (fun l => l.foldr max 0 + 1) (fun l => l.foldr max 0 + 1) (· + 1)

def nodes : BooleanTree α → ℕ :=
  fold (fun _ => 1) (fun l => l.sum + 1) (fun l => l.sum + 1) (· + 1)

def branches : BooleanTree α → List (BooleanTree α)
  | .leaf _ => []
  | .all branches => branches
  | .any branches => branches
  | .not branch => [branch]

theorem nodes_eq (t : BooleanTree α) : t.nodes = (t.branches.map nodes).sum + 1 := by
  cases t with
  | leaf a => rfl
  | all branches => exact fold_all ..
  | any branches => exact fold_any ..
  | not branch => rfl

theorem foldr_max_le_iff {l : List ℕ} {n : ℕ} : l.foldr max 0 ≤ n ↔ ∀ m ∈ l, m ≤ n := by
  induction l with
  | nil => simp
  | cons m l ih => rw [List.foldr_cons, Nat.max_le, ih, List.forall_mem_cons]

theorem depth_eq (t : BooleanTree α) : t.depth = (t.branches.map depth).foldr max 0 + 1 := by
  cases t with
  | leaf a => rfl
  | all branches => exact fold_all ..
  | any branches => exact fold_any ..
  | not branch =>
    change branch.depth + 1 = max branch.depth 0 + 1
    rw [Nat.max_zero]

theorem depth_le_iff {t : BooleanTree α} {n : ℕ} :
    t.depth ≤ n + 1 ↔ ∀ b ∈ t.branches, b.depth ≤ n := by
  rw [depth_eq, Nat.add_le_add_iff_right, foldr_max_le_iff, List.forall_mem_map]

theorem depth_pos (t : BooleanTree α) : 0 < t.depth := by
  rw [depth_eq]
  exact Nat.succ_pos _

end BooleanTree

end Library
