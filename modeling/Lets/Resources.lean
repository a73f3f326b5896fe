import Lets.Library.Outcome

set_option autoImplicit false

/-!
# Resource vectors

Checked, fixed-dimension arithmetic on the resource vectors of one envelope.
-/

namespace Lets

open Library

def maxResource : ℕ := 2 ^ 63 - 1

/-- The exceptions of the package, with the text they are raised with, and the integrity errors that
the database raises for a broken constraint. -/
inductive LetsError
  | validation (message : String)
  | notFound (message : String)
  | conflict (message : String)
  | policy (message : String)
  | expired (message : String)
  | replay (message : String)
  | signature (message : String)
  | invariant (message : String)
  | storage (message : String)
  | draining (message : String)
  | capacity (message : String)
  | clockUncertain (message : String)
  | integrity (message : String)
  | authentication (message : String)
  deriving DecidableEq, Repr

def quoted (name : String) : String := "'" ++ name ++ "'"

def expectedText (what found expected : String) : String :=
  what ++ " is " ++ found ++ ", expected " ++ expected

abbrev Outcome (α : Type) := Except LetsError α

structure ResourceVector (d : ℕ) where
  amount : Fin d → ℕ
  le_max : ∀ i, amount i ≤ maxResource

namespace ResourceVector

variable {d : ℕ}

instance : CoeFun (ResourceVector d) (fun _ => Fin d → ℕ) := ⟨amount⟩

variable {v w : ResourceVector d}

@[ext] theorem ext (h : ∀ i, v i = w i) : v = w := by
  cases v
  cases w
  simpa using funext h

instance : DecidableEq (ResourceVector d) := fun v w =>
  decidable_of_iff (∀ i, v i = w i) ⟨ext, fun h i => congrArg (fun u => amount u i) h⟩

def add (v w : ResourceVector d) : Outcome (ResourceVector d) :=
  if h : ∀ i, v i + w i ≤ maxResource then .ok ⟨fun i => v i + w i, h⟩
  else .error (.validation "resource-vector addition overflow")

def subtract (v w : ResourceVector d) : Outcome (ResourceVector d) :=
  if ∀ i, w i ≤ v i then .ok ⟨fun i => v i - w i, fun i => (Nat.sub_le _ _).trans (v.le_max i)⟩
  else .error (.validation "insufficient escrow rights")

def addOr (v : ResourceVector d) (e : LetsError) (w : ResourceVector d) : Outcome (ResourceVector d) :=
  (v.add w).mapError fun _ => e

def subtractOr (v : ResourceVector d) (e : LetsError) (w : ResourceVector d) :
    Outcome (ResourceVector d) :=
  (v.subtract w).mapError fun _ => e

def lessThanOrEqual (v w : ResourceVector d) : Prop := ∀ i, v i ≤ w i

instance (v w : ResourceVector d) : Decidable (v.lessThanOrEqual w) :=
  inferInstanceAs (Decidable (∀ i, v i ≤ w i))

def zero (d : ℕ) : ResourceVector d := ⟨fun _ => 0, fun _ => Nat.zero_le _⟩

def NonZero (v : ResourceVector d) : Prop := ∃ i, v i ≠ 0

instance (v : ResourceVector d) : Decidable v.NonZero :=
  inferInstanceAs (Decidable (∃ i, v i ≠ 0))

@[simp] theorem zero_apply (i : Fin d) : zero d i = 0 := rfl

variable {u : ResourceVector d}

theorem add_ok_iff : v.add w = .ok u ↔ ∀ i, u i = v i + w i := by
  unfold add
  split_ifs with h
  · simp only [Except.ok.injEq]
    constructor
    · rintro rfl i
      rfl
    · intro hu
      exact ext fun i => (hu i).symm
  · simp only [false_iff]
    intro hu
    exact h fun i => hu i ▸ u.le_max i

theorem subtract_ok_iff : v.subtract w = .ok u ↔ ∀ i, u i + w i = v i := by
  unfold subtract
  split_ifs with h
  · simp only [Except.ok.injEq]
    constructor
    · rintro rfl i
      exact Nat.sub_add_cancel (h i)
    · intro hu
      exact ext fun i => (Nat.sub_eq_of_eq_add (hu i).symm)
  · simp only [false_iff]
    intro hu
    exact h fun i => (hu i) ▸ Nat.le_add_left _ _

theorem mapError_ok_iff {α : Type} {f : LetsError → LetsError} {x : Outcome α} {a : α} :
    x.mapError f = .ok a ↔ x = .ok a := by
  cases x <;> simp [Except.mapError]

theorem addOr_ok_iff {e : LetsError} : v.addOr e w = .ok u ↔ ∀ i, u i = v i + w i := by
  rw [addOr, mapError_ok_iff, add_ok_iff]

theorem subtractOr_ok_iff {e : LetsError} : v.subtractOr e w = .ok u ↔ ∀ i, u i + w i = v i := by
  rw [subtractOr, mapError_ok_iff, subtract_ok_iff]

end ResourceVector

end Lets
