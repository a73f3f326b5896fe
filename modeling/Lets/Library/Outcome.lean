import Mathlib

set_option autoImplicit false

/-!
# Guarded computations

Fallible code is written in `Except ε`.  The lemmas here take a successful computation apart: a
guard that passed gives its condition, a bind that succeeded gives the value it passed on.
-/

namespace Library

variable {ε α β : Type}

def require (c : Prop) [Decidable c] (e : ε) : Except ε Unit :=
  if c then .ok () else .error e

def orError (o : Option α) (e : ε) : Except ε α :=
  match o with
  | some a => .ok a
  | none => .error e

variable {c : Prop} {e : ε}

@[simp] theorem require_ok_iff [Decidable c] {u : Unit} : require c e = .ok u ↔ c := by
  unfold require
  split_ifs with h <;> simp [h]

@[simp] theorem orError_ok_iff {o : Option α} {a : α} : orError o e = .ok a ↔ o = some a := by
  cases o <;> simp [orError]

theorem some_unique {o : Option α} {a b : α} (h : o = some a) (h' : o = some b) : a = b :=
  Option.some.inj (h.symm.trans h')

theorem bind_ok_iff (x : Except ε α) (f : α → Except ε β) (b : β) :
    (x >>= f) = .ok b ↔ ∃ a, x = .ok a ∧ f a = .ok b := by
  constructor
  · intro h
    match x, h with
    | .ok a, h => exact ⟨a, rfl, h⟩
  · rintro ⟨a, rfl, h⟩
    exact h

theorem exists_of_map_fst {x : Except ε (α × β)} {a : α} (h : x.map Prod.fst = .ok a) :
    ∃ b, x = .ok (a, b) := by
  cases x with
  | ok r => exact ⟨r.2, by rw [← Except.ok.inj h]⟩
  | error e => cases h

theorem forM_ok_iff {f : α → Except ε Unit} {l : List α} {u : Unit} :
    l.forM f = .ok u ↔ ∀ a ∈ l, f a = .ok () := by
  induction l with
  | nil => exact ⟨fun _ => (by simp), fun _ => rfl⟩
  | cons a l ih =>
    change (f a >>= fun _ => l.forM f) = .ok u ↔ _
    rw [bind_ok_iff, List.forall_mem_cons, ← ih]
    exact ⟨fun ⟨_, h⟩ => h, fun h => ⟨(), h⟩⟩

theorem exists_of_mem_mapM {f : α → Except ε β} {l : List α} {m : List β} (h : l.mapM f = .ok m)
    {b : β} (hb : b ∈ m) : ∃ a ∈ l, f a = .ok b := by
  induction l generalizing m with
  | nil =>
    rw [List.mapM_nil] at h
    cases h
    cases hb
  | cons a l ih =>
    rw [List.mapM_cons] at h
    simp only [bind_ok_iff, pure] at h
    obtain ⟨c, hc, n, hn, h⟩ := h
    cases h
    rcases List.mem_cons.mp hb with rfl | hb
    · exact ⟨a, List.mem_cons_self, hc⟩
    · obtain ⟨a', ha', hb'⟩ := ih hn hb
      exact ⟨a', List.mem_cons_of_mem _ ha', hb'⟩

theorem require_ne_error [Decidable c] {e' : ε} (h : e ≠ e') : require c e ≠ .error e' := by
  unfold require
  split_ifs
  · simp
  · exact fun heq => h (Except.error.inj heq)

theorem orError_ne_error {o : Option α} {e' : ε} (h : e ≠ e') : orError o e ≠ .error e' := by
  cases o with
  | none => exact fun heq => h (Except.error.inj heq)
  | some a => rintro ⟨⟩

theorem pure_ne_error (a : α) (e : ε) : (pure a : Except ε α) ≠ .error e :=
  (by rintro ⟨⟩)

variable {x : Except ε α} {f : α → Except ε β}

theorem bind_ne_error (hx : x ≠ .error e) (hf : ∀ a, x = .ok a → f a ≠ .error e) :
    (x >>= f) ≠ .error e := by
  cases x with
  | error e' => exact fun h => hx (congrArg Except.error (Except.error.inj h))
  | ok a => exact hf a rfl

theorem bind_error_iff :
    (x >>= f) = .error e ↔ x = .error e ∨ ∃ a, x = .ok a ∧ f a = .error e := by
  cases x with
  | error e' =>
    change Except.error e' = Except.error e ↔ _
    simp
  | ok a =>
    change f a = .error e ↔ _
    simp

theorem require_error_iff [Decidable c] {e' : ε} : require c e = .error e' ↔ ¬c ∧ e = e' := by
  unfold require
  split_ifs with h <;> simp [h]

theorem orError_error_iff {o : Option α} {e' : ε} : orError o e = .error e' ↔ o = none ∧ e = e' := by
  cases o <;> simp [orError]

theorem require_of [Decidable c] (e : ε) (h : c) : require c e = .ok () :=
  if_pos h

theorem ok_bind (a : α) (f : α → Except ε β) : ((.ok a : Except ε α) >>= f) = f a := rfl

theorem exists_unit_iff {p : Unit → Prop} : (∃ u, p u) ↔ p () :=
  ⟨fun ⟨_, h⟩ => h, fun h => ⟨(), h⟩⟩

@[simp] theorem pure_ok_iff (a b : α) : (pure a : Except ε α) = .ok b ↔ a = b :=
  ⟨fun h => Except.ok.inj h, fun h => congrArg Except.ok h⟩

/-! ### What a computation ensures where it succeeds -/

def Ensures (x : Except ε α) (Q : α → Prop) : Prop :=
  ∀ a, x = .ok a → Q a

theorem Ensures.bind {R : α → Prop} {Q : β → Prop} (hx : Ensures x R)
    (hf : ∀ a, R a → Ensures (f a) Q) : Ensures (x >>= f) Q := by
  intro b h
  obtain ⟨a, ha, hb⟩ := (bind_ok_iff x f b).mp h
  exact hf a (hx a ha) b hb

theorem Ensures.next {Q : β → Prop} (hf : ∀ a, Ensures (f a) Q) : Ensures (x >>= f) Q := by
  intro b h
  obtain ⟨a, _, hb⟩ := (bind_ok_iff x f b).mp h
  exact hf a b hb

theorem Ensures.pure {a : α} {Q : α → Prop} (h : Q a) : Ensures (Pure.pure a : Except ε α) Q := by
  rintro _ ⟨⟩
  exact h

theorem Ensures.ite [Decidable c] {y : Except ε α} {Q : α → Prop} (hx : Ensures x Q)
    (hy : Ensures y Q) : Ensures (if c then x else y) Q := by
  split_ifs
  · exact hx
  · exact hy

/-! ### One computation as the image of another -/

theorem bind_map {γ δ : Type} {y : Except ε β} {f : α → β} {k : α → Except ε γ}
    {k' : β → Except ε δ} {g : γ → δ} (hx : y = x.map f) (hk : ∀ a, k' (f a) = (k a).map g) :
    (y >>= k') = (x >>= k).map g := by
  subst hx
  cases x with
  | error e => rfl
  | ok a => exact hk a

theorem bind_map_same {γ δ : Type} {k : α → Except ε γ} {k' : α → Except ε δ} {g : γ → δ}
    (hk : ∀ a, k' a = (k a).map g) : (x >>= k') = (x >>= k).map g := by
  cases x with
  | error e => rfl
  | ok a => exact hk a

theorem ite_map {γ δ : Type} [Decidable c] {x y : Except ε γ} {x' y' : Except ε δ} {g : γ → δ}
    (hx : x' = x.map g) (hy : y' = y.map g) :
    (if c then x' else y') = (if c then x else y).map g := by
  split_ifs
  · exact hx
  · exact hy

def failure? (x : Except ε α) : Option ε :=
  match x with
  | .ok _ => none
  | .error e => some e

theorem failure?_eq_some_iff : failure? x = some e ↔ x = .error e := by
  cases x <;> simp [failure?]

end Library
