import Mathlib

set_option autoImplicit false

/-!
# Texts that can be taken apart again

The text of a value is followed by more text.
-/

namespace Library

variable {α κ : Type}

/-- What follows the text of `a` can be told from it. -/
def ReadsAt (same : α → α → Prop) (after : List κ → Prop) (text : α → List κ) (a : α) : Prop :=
  ∀ b s t, after s → after t → text a ++ s = text b ++ t → same a b ∧ s = t

theorem append_inj_of_all {p : κ → Bool} {l l' s t : List κ} (hl : ∀ a ∈ l, p a = true)
    (hl' : ∀ a ∈ l', p a = true) (hs : ∀ a ∈ s.head?, p a = false) (ht : ∀ a ∈ t.head?, p a = false)
    (h : l ++ s = l' ++ t) : l = l' ∧ s = t := by
  have hend : ∀ r : List κ, (∀ a ∈ r.head?, p a = false) → r.takeWhile p = [] := by
    intro r hr
    cases r with
    | nil => rfl
    | cons a r => rw [List.takeWhile_cons, hr a rfl]; rfl
  have htake := congrArg (List.takeWhile p) h
  rw [List.takeWhile_append_of_pos hl, List.takeWhile_append_of_pos hl', hend s hs, hend t ht,
    List.append_nil, List.append_nil] at htake
  subst htake
  exact ⟨rfl, List.append_cancel_left h⟩

section Sequences

variable (text : α → List κ) (sep close : κ)

/-- The elements after the first of a sequence, each after a separator, and what closes it. -/
def closing : List α → List κ
  | [] => [close]
  | a :: rest => sep :: (text a ++ closing rest)

def listing : List α → List κ
  | [] => [close]
  | a :: rest => text a ++ closing text sep close rest

variable {text sep close} {same : α → α → Prop} {after : List κ → Prop}

theorem after_closing (hsep : ∀ r, after (sep :: r)) (hclose : ∀ r, after (close :: r))
    (l : List α) (s : List κ) : after (closing text sep close l ++ s) := by
  cases l with
  | nil => exact hclose s
  | cons a rest => exact hsep _

variable {l : List α}

theorem closing_reads (hne : sep ≠ close) (hsep : ∀ r, after (sep :: r))
    (hclose : ∀ r, after (close :: r)) {l' : List α} {s t : List κ}
    (hl : ∀ a ∈ l, ReadsAt same after text a)
    (h : closing text sep close l ++ s = closing text sep close l' ++ t) :
    List.Forall₂ same l l' ∧ s = t := by
  induction l generalizing l' with
  | nil =>
    cases l' with
    | nil => exact ⟨.nil, (List.cons.inj h).2⟩
    | cons b rest' => exact absurd (List.cons.inj h).1.symm hne
  | cons a rest ih =>
    cases l' with
    | nil => exact absurd (List.cons.inj h).1 hne
    | cons b rest' =>
      rw [closing, closing, List.cons_append, List.cons_append, List.append_assoc,
        List.append_assoc] at h
      have htail := (List.cons.inj h).2
      obtain ⟨hsame, hrest⟩ := hl a List.mem_cons_self b _ _
        (after_closing hsep hclose rest s) (after_closing hsep hclose rest' t) htail
      obtain ⟨hall, hst⟩ := ih (fun a ha => hl a (List.mem_cons_of_mem _ ha)) hrest
      exact ⟨.cons hsame hall, hst⟩

theorem listing_map {β : Type} (f : β → α) (l : List β) :
    listing text sep close (l.map f) = listing (fun b => text (f b)) sep close l := by
  have hclosing : ∀ l : List β,
      closing text sep close (l.map f) = closing (fun b => text (f b)) sep close l := by
    intro l
    induction l with
    | nil => rfl
    | cons b rest ih => rw [List.map_cons, closing, closing, ih]
  cases l with
  | nil => rfl
  | cons b rest => rw [List.map_cons, listing, listing, hclosing]

theorem closing_all {p : κ → Prop} (hsep : p sep) (hclose : p close)
    (h : ∀ a ∈ l, ∀ c ∈ text a, p c) : ∀ c ∈ closing text sep close l, p c := by
  induction l with
  | nil => simpa [closing] using hclose
  | cons a rest ih =>
    rw [closing, List.forall_mem_cons, List.forall_mem_append]
    rw [List.forall_mem_cons] at h
    exact ⟨hsep, h.1, ih h.2⟩

theorem listing_all {p : κ → Prop} (hsep : p sep) (hclose : p close)
    (h : ∀ a ∈ l, ∀ c ∈ text a, p c) : ∀ c ∈ listing text sep close l, p c := by
  cases l with
  | nil => simpa [listing] using hclose
  | cons a rest =>
    rw [List.forall_mem_cons] at h
    rw [listing, List.forall_mem_append]
    exact ⟨h.1, closing_all hsep hclose h.2⟩

theorem listing_reads (hne : sep ≠ close) (hsep : ∀ r, after (sep :: r))
    (hclose : ∀ r, after (close :: r)) (hstart : ∀ a s t, text a ++ s ≠ close :: t) {l' : List α}
    {s t : List κ} (hl : ∀ a ∈ l, ReadsAt same after text a)
    (h : listing text sep close l ++ s = listing text sep close l' ++ t) :
    List.Forall₂ same l l' ∧ s = t := by
  cases l with
  | nil =>
    cases l' with
    | nil => exact ⟨.nil, (List.cons.inj h).2⟩
    | cons b rest' =>
      rw [listing, listing, List.append_assoc] at h
      exact absurd h.symm (hstart b _ _)
  | cons a rest =>
    cases l' with
    | nil =>
      rw [listing, listing, List.append_assoc] at h
      exact absurd h (hstart a _ _)
    | cons b rest' =>
      rw [listing, listing, List.append_assoc, List.append_assoc] at h
      obtain ⟨hsame, hrest⟩ := hl a List.mem_cons_self b _ _
        (after_closing hsep hclose rest s) (after_closing hsep hclose rest' t) h
      obtain ⟨hall, hst⟩ := closing_reads hne hsep hclose
        (fun a ha => hl a (List.mem_cons_of_mem _ ha)) hrest
      exact ⟨.cons hsame hall, hst⟩

end Sequences

theorem flatMap_reads {letter : α → List κ} {close : κ}
    (hstart : ∀ a s t, letter a ++ s ≠ close :: t)
    (hletter : ∀ a b s t, letter a ++ s = letter b ++ t → a = b ∧ s = t) {l l' : List α}
    {s t : List κ} (h : l.flatMap letter ++ close :: s = l'.flatMap letter ++ close :: t) :
    l = l' ∧ s = t := by
  induction l generalizing l' with
  | nil =>
    cases l' with
    | nil => exact ⟨rfl, (List.cons.inj h).2⟩
    | cons b rest' =>
      rw [List.flatMap_cons, List.append_assoc] at h
      exact absurd h.symm (hstart b _ _)
  | cons a rest ih =>
    cases l' with
    | nil =>
      rw [List.flatMap_cons, List.append_assoc] at h
      exact absurd h (hstart a _ _)
    | cons b rest' =>
      rw [List.flatMap_cons, List.flatMap_cons, List.append_assoc, List.append_assoc] at h
      obtain ⟨rfl, hrest⟩ := hletter a b _ _ h
      obtain ⟨rfl, hst⟩ := ih hrest
      exact ⟨rfl, hst⟩

end Library
