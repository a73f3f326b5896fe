import Mathlib

set_option autoImplicit false

/-!
# First occurrences

In a history that may name the same thing many times, the first occurrence of every key.
-/

namespace Library

variable {α κ : Type} [DecidableEq κ] (key : α → κ)

def firsts (l : List α) : List α :=
  l.foldl (fun acc a => if key a ∈ acc.map key then acc else acc ++ [a]) []

theorem firsts_concat (l : List α) (a : α) : firsts key (l ++ [a]) =
    if key a ∈ (firsts key l).map key then firsts key l else firsts key l ++ [a] := by
  unfold firsts
  rw [List.foldl_append]
  rfl

theorem mem_map_firsts {l : List α} {k : κ} : k ∈ (firsts key l).map key ↔ k ∈ l.map key := by
  induction l using List.reverseRecOn with
  | nil => rfl
  | append_singleton l a ih =>
    rw [firsts_concat, List.map_append, List.mem_append, ← ih]
    split_ifs with hmem
    · constructor
      · exact .inl
      · rintro (h | h)
        · exact h
        · rw [List.map_singleton, List.mem_singleton] at h
          exact h ▸ hmem
    · rw [List.map_append, List.mem_append]

theorem nodup_map_firsts (l : List α) : ((firsts key l).map key).Nodup := by
  induction l using List.reverseRecOn with
  | nil => exact List.nodup_nil
  | append_singleton l a ih =>
    rw [firsts_concat]
    split_ifs with hmem
    · exact ih
    · rw [List.map_append, List.map_singleton]
      refine List.Nodup.append ih (List.nodup_singleton _) ?_
      rwa [List.disjoint_singleton]

variable {key} in
theorem mem_of_mem_firsts {l : List α} {a : α} (h : a ∈ firsts key l) : a ∈ l := by
  induction l using List.reverseRecOn with
  | nil => exact h
  | append_singleton l b ih =>
    rw [firsts_concat] at h
    split_ifs at h with hmem
    · exact List.mem_append_left _ (ih h)
    · rcases List.mem_append.mp h with hold | hnew
      · exact List.mem_append_left _ (ih hold)
      · exact List.mem_append_right _ hnew

theorem map_firsts {β : Type} (g : β → α) (l : List β) :
    (firsts (fun b => key (g b)) l).map g = firsts key (l.map g) := by
  induction l using List.reverseRecOn with
  | nil => rfl
  | append_singleton l b ih =>
    have hkeys : (firsts (fun b => key (g b)) l).map (fun b => key (g b)) =
        (firsts key (l.map g)).map key := by
      rw [← ih, List.map_map]
      rfl
    rw [List.map_append, List.map_singleton, firsts_concat, firsts_concat, hkeys]
    split_ifs
    · exact ih
    · rw [List.map_append, ih, List.map_singleton]

theorem sum_firsts [DecidableEq α] {M : Type} [AddCommMonoid M] {l : List α} (f : α → M)
    (hkey : ∀ a ∈ l, ∀ b ∈ l, key a = key b → a = b) :
    ((firsts key l).map f).sum = ∑ a ∈ l.toFinset, f a := by
  have hnodup : (firsts key l).Nodup := (nodup_map_firsts key l).of_map
  have hset : (firsts key l).toFinset = l.toFinset := by
    ext a
    rw [List.mem_toFinset, List.mem_toFinset]
    refine ⟨mem_of_mem_firsts, fun ha => ?_⟩
    have hk : key a ∈ (firsts key l).map key :=
      (mem_map_firsts key).mpr (List.mem_map_of_mem ha)
    obtain ⟨b, hb, heq⟩ := List.mem_map.mp hk
    rwa [← hkey b (mem_of_mem_firsts hb) a ha heq]
  rw [← hset, List.sum_toFinset f hnodup]

end Library
