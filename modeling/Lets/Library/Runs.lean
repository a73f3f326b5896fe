import Mathlib

set_option autoImplicit false

/-!
# Labelled transition systems

States, labelled steps, finite runs and the induction rules that carry an invariant, or a relation
between the first and the last state, along a run.
-/

namespace Library

structure System (σ α : Type) where
  Init : σ → Prop
  Step : σ → α → σ → Prop

namespace System

variable {σ α : Type} (S : System σ α)

/-- A finite run from one state to another, with the labels of its steps in order. -/
inductive Run : σ → List α → σ → Prop
  | nil (s : σ) : Run s [] s
  | snoc {s t u : σ} {l : List α} {a : α} (run : Run s l t) (step : S.Step t a u) :
      Run s (l ++ [a]) u

def Reachable (s : σ) : Prop :=
  ∃ s₀ l, S.Init s₀ ∧ S.Run s₀ l s

def restrict (C : σ → α → σ → Prop) : System σ α where
  Init := S.Init
  Step s a t := S.Step s a t ∧ C s a t

def record {β : Type} (f : σ → α → σ → List β) : System (σ × List β) α where
  Init s := S.Init s.1 ∧ s.2 = []
  Step s a t := S.Step s.1 a t.1 ∧ t.2 = s.2 ++ f s.1 a t.1

variable {S}

variable {s t : σ} {l : List α}

theorem Run.preserves {P : σ → Prop} (hstep : ∀ s a t, P s → S.Step s a t → P t) (run : S.Run s l t)
    (hs : P s) : P t := by
  induction run with
  | nil => exact hs
  | snoc run step ih => exact hstep _ _ _ ih step

theorem Run.history {P : List α → σ → Prop} (run : S.Run s l t) (hs : P [] s)
    (hstep : ∀ l t a u, P l t → S.Step t a u → P (l ++ [a]) u) : P l t := by
  induction run with
  | nil => exact hs
  | snoc run step ih => exact hstep _ _ _ _ ih step

theorem Run.relates {R : σ → σ → Prop} (hrefl : ∀ s, R s s)
    (htrans : ∀ s t u, R s t → R t u → R s u) (hstep : ∀ s a t, S.Step s a t → R s t)
    (run : S.Run s l t) : R s t := by
  induction run with
  | nil => exact hrefl s
  | snoc run step ih => exact htrans _ _ _ ih (hstep _ _ _ step)

theorem Run.trans {u : σ} {m : List α} (h : S.Run s l t) (h' : S.Run t m u) :
    S.Run s (l ++ m) u := by
  induction h' with
  | nil => simpa using h
  | snoc run step ih =>
    rw [← List.append_assoc]
    exact .snoc ih step

theorem Run.cons {u : σ} {a : α} (step : S.Step s a t) (run : S.Run t l u) : S.Run s (a :: l) u :=
  Run.trans (.snoc (.nil s) step) run

theorem Reachable.of_init (h : S.Init s) : S.Reachable s :=
  ⟨s, [], h, .nil s⟩

theorem Reachable.run (h : S.Reachable s) (run : S.Run s l t) : S.Reachable t := by
  obtain ⟨s₀, m, hinit, hrun⟩ := h
  exact ⟨s₀, m ++ l, hinit, hrun.trans run⟩

theorem Reachable.invariant {P : σ → Prop} (hinit : ∀ s, S.Init s → P s)
    (hstep : ∀ s a t, P s → S.Step s a t → P t) (h : S.Reachable s) : P s := by
  obtain ⟨s₀, l, h₀, run⟩ := h
  exact run.preserves hstep (hinit s₀ h₀)

variable {C : σ → α → σ → Prop}

theorem Run.of_restrict (run : (S.restrict C).Run s l t) : S.Run s l t := by
  induction run with
  | nil => exact .nil s
  | snoc run step ih => exact .snoc ih step.1

theorem Reachable.of_restrict (h : (S.restrict C).Reachable s) : S.Reachable s := by
  obtain ⟨s₀, l, hinit, run⟩ := h
  exact ⟨s₀, l, hinit, run.of_restrict⟩

theorem Reachable.of_record {β : Type} {f : σ → α → σ → List β} {s : σ × List β}
    (h : (S.record f).Reachable s) : S.Reachable s.1 := by
  obtain ⟨s₀, l, hinit, run⟩ := h
  refine ⟨s₀.1, l, hinit.1, ?_⟩
  induction run with
  | nil => exact .nil _
  | snoc run step ih => exact .snoc ih step.1

theorem Reachable.record {β : Type} (f : σ → α → σ → List β) (h : S.Reachable s) :
    ∃ history, (S.record f).Reachable (s, history) := by
  obtain ⟨s₀, l, hinit, run⟩ := h
  induction run with
  | nil => exact ⟨[], .of_init ⟨hinit, rfl⟩⟩
  | @snoc t u _ a run step ih =>
    obtain ⟨history, hreach⟩ := ih
    have hstep : (S.record f).Step (t, history) a (u, history ++ f t a u) := ⟨step, rfl⟩
    exact ⟨_, hreach.run (.cons hstep (.nil _))⟩

end System

theorem filterMap_concat {α β : Type} (f : α → Option β) (l : List α) (a : α) :
    (l ++ [a]).filterMap f = l.filterMap f ++ (f a).toList := by
  rw [List.filterMap_append]
  cases h : f a <;> simp [h]

end Library
