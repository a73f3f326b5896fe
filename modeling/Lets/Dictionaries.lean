import Lets.AuditVerification

set_option autoImplicit false

/-!
# Dictionaries in any order

What is found under a key does not depend on the order of the members, so it is the same in an object
and in what its canonical text is read as.
-/

namespace Lets

open Library

section Members

variable {β γ : Type} {members members' : List (String × β)}

theorem lookup_cons_if (member : String × β) (key : String) : (member :: members).lookup key =
    if key = member.1 then some member.2 else members.lookup key := by
  rw [List.lookup_cons]
  by_cases h : key = member.1
  · rw [if_pos h, beq_iff_eq.mpr h]
  · rw [if_neg h, beq_eq_false_iff_ne.mpr h]

theorem mem_of_lookup {key : String} {value : β} (h : members.lookup key = some value) :
    (key, value) ∈ members := by
  obtain ⟨before, after, rfl, -⟩ := List.lookup_eq_some_iff.mp h
  exact List.mem_append_cons_self

theorem lookup_of_mem (hnodup : (members.map Prod.fst).Nodup) {key : String} {value : β}
    (h : (key, value) ∈ members) : members.lookup key = some value := by
  induction members with
  | nil => cases h
  | cons member rest ih =>
    obtain ⟨key', value'⟩ := member
    rw [List.map_cons, List.nodup_cons] at hnodup
    rw [lookup_cons_if]
    rcases List.mem_cons.mp h with heq | hmem
    · obtain ⟨rfl, rfl⟩ := Prod.mk.inj heq
      exact if_pos rfl
    · have hne : key ≠ key' := by
        rintro rfl
        exact hnodup.1 (List.mem_map.mpr ⟨_, hmem, rfl⟩)
      rw [if_neg hne]
      exact ih hnodup.2 hmem

theorem byKey_eq_of_perm (hperm : members.Perm members') (hnodup : (members.map Prod.fst).Nodup) :
    byKey members = byKey members' := by
  refine List.Perm.eq_of_pairwise ?_ (byKey_sorted members) (byKey_sorted members')
    ((byKey_perm members).trans (hperm.trans (byKey_perm members').symm))
  intro a b ha hb hle hge
  have ha' := (byKey_perm members).mem_iff.mp ha
  have hb' := hperm.mem_iff.mpr ((byKey_perm members').mem_iff.mp hb)
  exact List.inj_on_of_nodup_map hnodup ha' hb' (le_antisymm hle hge)

end Members

namespace Json

variable {members : List (String × Json)}

/-- Members as they are read back: by key, and each value in its own order. -/
def sortedMembers (members : List (String × Json)) : List (String × Json) :=
  (byKey members).map fun m => (m.1, m.2.normalize)

theorem WellFormed.sorted (h : (object members).WellFormed) :
    (object (sortedMembers members)).WellFormed := by
  rw [sortedMembers, ← normalize_object]
  exact h.normalize

theorem lookup_sortedMembers (hnodup : (members.map Prod.fst).Nodup) (key : String) :
    (sortedMembers members).lookup key = (members.lookup key).map normalize := by
  have hkeys : (sortedMembers members).map Prod.fst = (byKey members).map Prod.fst := by
    rw [sortedMembers, List.map_map]
    rfl
  have hnodup' : ((sortedMembers members).map Prod.fst).Nodup :=
    hkeys ▸ ((byKey_perm members).map Prod.fst).nodup_iff.mpr hnodup
  ext value
  rw [Option.map_eq_some_iff]
  constructor
  · intro hlookup
    obtain ⟨⟨key', value'⟩, hmem, heq⟩ := List.mem_map.mp (mem_of_lookup hlookup)
    obtain ⟨rfl, rfl⟩ := Prod.mk.inj heq
    exact ⟨value', lookup_of_mem hnodup ((byKey_perm members).mem_iff.mp hmem), rfl⟩
  · rintro ⟨value', hlookup, rfl⟩
    have hmem := (byKey_perm members).mem_iff.mpr (mem_of_lookup hlookup)
    exact lookup_of_mem hnodup' (List.mem_map.mpr ⟨_, hmem, rfl⟩)

theorem get_sortedMembers (hnodup : (members.map Prod.fst).Nodup) (key : String) :
    get (sortedMembers members) key = (get members key).normalize := by
  rw [get, lookup_sortedMembers hnodup, get]
  cases members.lookup key <;> rfl

/-- What is left of an object when members are dropped by their keys does not depend on whether it
was sorted before. -/
theorem same_filter_sortedMembers (hnodup : (members.map Prod.fst).Nodup) (p : String → Bool) :
    Same (.object ((sortedMembers members).filter fun m => p m.1))
      (.object (members.filter fun m => p m.1)) := by
  have hkeys : ((members.filter fun m => p m.1).map Prod.fst).Nodup :=
    (List.filter_sublist.map Prod.fst).nodup hnodup
  have hfilter : (sortedMembers members).filter (fun m => p m.1) =
      ((byKey members).filter fun m => p m.1).map fun m => (m.1, m.2.normalize) := by
    rw [sortedMembers, List.filter_map]
    rfl
  rw [Same, hfilter, normalize_object, normalize_object, byKey_map, List.map_map,
    byKey_eq_of_perm ((byKey_perm members).symm.filter _) hkeys]
  exact congrArg Json.object (List.map_congr_left fun m _ =>
    congrArg (Prod.mk m.1) m.2.normalize_normalize)

end Json

theorem jsonObject_canonicalJson (D : JsonDecoder) {members : List (String × Json)}
    {payload : Bytes} (h : (Json.object members).WellFormed)
    (hpayload : canonicalJson (.object members) = .ok payload) :
    jsonObject D payload = .ok (Json.sortedMembers members) := by
  have hread := strictJsonLoads_canonicalJson D h hpayload
  rw [Json.normalize_object] at hread
  exact (bind_ok_iff _ _ _).mpr ⟨_, hread, rfl⟩

end Lets
