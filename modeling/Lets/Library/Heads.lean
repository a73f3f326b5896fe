import Lets.Library.Table

set_option autoImplicit false

/-!
# Heads of queues

Rows of a table that wait are grouped into queues, and each queue is served from its least row.
-/

namespace Library

open Table

/-- How the rows of a table are queued.  The index knows a row by the name in its place. -/
structure Queueing (κ ρ γ β ν : Type) where
  waiting : ρ → Bool
  group : κ → ρ → γ
  order : κ → ρ → β
  name : β → ν

namespace Queueing

variable {κ ρ γ β ν : Type} [DecidableEq κ] (Q : Queueing κ ρ γ β ν)

def Waits (t : Table κ ρ) (g : γ) (k : κ) (r : ρ) : Prop :=
  t.lookup k = some r ∧ Q.waiting r = true ∧ Q.group k r = g

variable {Q} {t t' : Table κ ρ} {g : γ} {b : β} {k : κ} {r r' : ρ}

theorem waits_insert (new : k ∉ t) {k' : κ} :
    Q.Waits (t.insert k r) g k' r' ↔
      Q.Waits t g k' r' ∨ k' = k ∧ r' = r ∧ Q.waiting r = true ∧ Q.group k r = g := by
  unfold Waits
  rw [lookup_insert_eq]
  split_ifs with hk
  · subst hk
    rw [AList.lookup_eq_none.mpr new, Option.some_inj]
    constructor
    · rintro ⟨rfl, hwaits⟩
      exact .inr ⟨rfl, rfl, hwaits⟩
    · rintro (⟨hnone, _⟩ | ⟨_, rfl, hwaits⟩)
      · cases hnone
      · exact ⟨rfl, hwaits⟩
  · simp [hk]

variable [DecidableEq γ] [LinearOrder β]

variable (Q) in
def headOf (t : Table κ ρ) (g : γ) : Option β :=
  (t.batch Q.order (fun k r => Q.waiting r ∧ Q.group k r = g) 1).head?

theorem headOf_eq_some_iff : Q.headOf t g = some b ↔
    (∃ k r, Q.Waits t g k r ∧ Q.order k r = b) ∧ ∀ k r, Q.Waits t g k r → b ≤ Q.order k r := by
  have hmem (c : β) : c ∈ (((t.filterRows fun k r => Q.waiting r ∧ Q.group k r = g).entries.map
      fun e => Q.order e.1 e.2).insertionSort (· ≤ ·)) ↔
        ∃ k r, Q.Waits t g k r ∧ Q.order k r = c := by
    rw [mem_sorted_iff]
    simp only [decide_eq_true_eq, Waits, and_assoc]
  have hsorted := List.pairwise_insertionSort (· ≤ ·)
    ((t.filterRows fun k r => Q.waiting r ∧ Q.group k r = g).entries.map fun e => Q.order e.1 e.2)
  unfold headOf batch
  generalize (((t.filterRows fun k r => Q.waiting r ∧ Q.group k r = g).entries.map
    fun e => Q.order e.1 e.2).insertionSort (· ≤ ·)) = sorted at hmem hsorted
  cases sorted with
  | nil =>
    refine iff_of_false (by simp) fun h => ?_
    cases (hmem b).mpr h.1
  | cons c rest =>
    rw [List.take_succ_cons, List.head?_cons, Option.some_inj]
    have hle : ∀ k r, Q.Waits t g k r → c ≤ Q.order k r := by
      intro k r hwaits
      rcases List.mem_cons.mp ((hmem (Q.order k r)).mpr ⟨k, r, hwaits, rfl⟩) with heq | hrest
      · exact heq.ge
      · exact (List.pairwise_cons.mp hsorted).1 _ hrest
    constructor
    · rintro rfl
      exact ⟨(hmem c).mp List.mem_cons_self, hle⟩
    · rintro ⟨⟨k, r, hwaits, rfl⟩, hleast⟩
      obtain ⟨k', r', hwaits', heq⟩ := (hmem c).mp List.mem_cons_self
      exact le_antisymm (hle k r hwaits) (heq ▸ hleast k' r' hwaits')

theorem headOf_eq_none_iff : Q.headOf t g = none ↔ ∀ k r, ¬Q.Waits t g k r := by
  constructor
  · intro hnone k r hwaits
    obtain ⟨c, hc⟩ := exists_mem_batch (g := Q.order)
      (p := fun k r => decide (Q.waiting r ∧ Q.group k r = g)) Nat.zero_lt_one hwaits.1
      (decide_eq_true hwaits.2)
    rw [List.head?_eq_none_iff.mp hnone] at hc
    cases hc
  · intro hall
    cases hhead : Q.headOf t g with
    | none => rfl
    | some b =>
      obtain ⟨⟨k, r, hwaits, _⟩, _⟩ := headOf_eq_some_iff.mp hhead
      exact absurd hwaits (hall k r)

theorem headOf_congr
    (hto : ∀ k r, Q.Waits t' g k r → ∃ r₁, Q.Waits t g k r₁ ∧ Q.order k r₁ = Q.order k r)
    (hfrom : ∀ k r, Q.Waits t g k r → ∃ r₁, Q.Waits t' g k r₁ ∧ Q.order k r₁ = Q.order k r) :
    Q.headOf t' g = Q.headOf t g := by
  ext b
  rw [headOf_eq_some_iff, headOf_eq_some_iff]
  constructor
  · rintro ⟨⟨k, r, hwaits, rfl⟩, hleast⟩
    obtain ⟨r₁, hwaits₁, heq⟩ := hto k r hwaits
    refine ⟨⟨k, r₁, hwaits₁, heq⟩, fun k' r' hwaits' => ?_⟩
    obtain ⟨r₂, hwaits₂, heq₂⟩ := hfrom k' r' hwaits'
    exact (hleast k' r₂ hwaits₂).trans_eq heq₂
  · rintro ⟨⟨k, r, hwaits, rfl⟩, hleast⟩
    obtain ⟨r₁, hwaits₁, heq⟩ := hfrom k r hwaits
    refine ⟨⟨k, r₁, hwaits₁, heq⟩, fun k' r' hwaits' => ?_⟩
    obtain ⟨r₂, hwaits₂, heq₂⟩ := hto k' r' hwaits'
    exact (hleast k' r₂ hwaits₂).trans_eq heq₂

theorem headOf_of_waits_iff (h : ∀ k r, Q.Waits t' g k r ↔ Q.Waits t g k r) :
    Q.headOf t' g = Q.headOf t g :=
  headOf_congr (fun k r hwaits => ⟨r, (h k r).mp hwaits, rfl⟩)
    fun k r hwaits => ⟨r, (h k r).mpr hwaits, rfl⟩

theorem headOf_insert (row : t.lookup k = some r) (group_eq : Q.group k r' = Q.group k r)
    (order_eq : Q.order k r' = Q.order k r) (waiting_eq : Q.waiting r' = Q.waiting r) :
    Q.headOf (t.insert k r') g = Q.headOf t g := by
  apply headOf_congr
  · intro k₁ r₁ hwaits
    by_cases hk : k₁ = k
    · subst hk
      obtain rfl : r' = r₁ := Option.some.inj ((AList.lookup_insert t).symm.trans hwaits.1)
      exact ⟨r, ⟨row, waiting_eq.symm.trans hwaits.2.1, group_eq.symm.trans hwaits.2.2⟩,
        order_eq.symm⟩
    · exact ⟨r₁, ⟨(AList.lookup_insert_ne hk).symm.trans hwaits.1, hwaits.2⟩, rfl⟩
  · intro k₁ r₁ hwaits
    by_cases hk : k₁ = k
    · subst hk
      obtain rfl := some_unique row hwaits.1
      exact ⟨r', ⟨AList.lookup_insert t, waiting_eq.trans hwaits.2.1, group_eq.trans hwaits.2.2⟩,
        order_eq⟩
    · exact ⟨r₁, ⟨(AList.lookup_insert_ne hk).trans hwaits.1, hwaits.2⟩, rfl⟩

variable (Q)

def Exact (t : Table κ ρ) (index : Table γ β) : Prop :=
  ∀ g, index.lookup g = Q.headOf t g

def onInsert (k : κ) (r : ρ) (index : Table γ β) : Table γ β :=
  if Q.waiting r = true then
    match index.lookup (Q.group k r) with
    | none => index.insert (Q.group k r) (Q.order k r)
    | some b => if Q.order k r < b then index.insert (Q.group k r) (Q.order k r) else index
  else index

variable {Q} {index : Table γ β}

theorem Exact.insert (h : Q.Exact t index) (new : k ∉ t) :
    Q.Exact (t.insert k r) (Q.onInsert k r index) := by
  intro g
  by_cases hg : Q.waiting r = true ∧ Q.group k r = g
  · obtain ⟨hwaiting, rfl⟩ := hg
    have hnew : Q.Waits (t.insert k r) (Q.group k r) k r :=
      (waits_insert new).mpr (.inr ⟨rfl, rfl, hwaiting, rfl⟩)
    unfold onInsert
    rw [if_pos hwaiting]
    cases hhead : index.lookup (Q.group k r) with
    | none =>
      have hnone := headOf_eq_none_iff.mp ((h _).symm.trans hhead)
      refine (AList.lookup_insert _).trans (headOf_eq_some_iff.mpr ⟨⟨k, r, hnew, rfl⟩, ?_⟩).symm
      intro k' r' hwaits
      rcases (waits_insert new).mp hwaits with hold | ⟨rfl, rfl, _⟩
      · exact absurd hold (hnone k' r')
      · exact le_rfl
    | some b =>
      obtain ⟨⟨k₀, r₀, hwaits₀, heq⟩, hleast⟩ := headOf_eq_some_iff.mp ((h _).symm.trans hhead)
      change AList.lookup (Q.group k r) (if Q.order k r < b then _ else index) = _
      split_ifs with hlt
      · refine (AList.lookup_insert _).trans (headOf_eq_some_iff.mpr ⟨⟨k, r, hnew, rfl⟩, ?_⟩).symm
        intro k' r' hwaits
        rcases (waits_insert new).mp hwaits with hold | ⟨rfl, rfl, _⟩
        · exact hlt.le.trans (hleast k' r' hold)
        · exact le_rfl
      · refine hhead.trans (headOf_eq_some_iff.mpr
          ⟨⟨k₀, r₀, (waits_insert new).mpr (.inl hwaits₀), heq⟩, ?_⟩).symm
        intro k' r' hwaits
        rcases (waits_insert new).mp hwaits with hold | ⟨rfl, rfl, _⟩
        · exact hleast k' r' hold
        · exact not_lt.mp hlt
  · have hsame : Q.headOf (t.insert k r) g = Q.headOf t g := by
      refine headOf_of_waits_iff fun k' r' => (waits_insert new).trans (or_iff_left ?_)
      exact fun hnew => hg ⟨hnew.2.2.1, hnew.2.2.2⟩
    rw [hsame, ← h g]
    unfold onInsert
    split_ifs with hwaiting
    · have hne : g ≠ Q.group k r := fun heq => hg ⟨hwaiting, heq.symm⟩
      split
      · exact AList.lookup_insert_ne hne
      · split_ifs
        · exact AList.lookup_insert_ne hne
        · rfl
    · rfl

variable (Q) in
def indexOf (t : Table κ ρ) : Table γ β :=
  t.entries.foldr (fun e index => Q.onInsert e.1 e.2 index) ∅

theorem exact_indexOf (t : Table κ ρ) : Q.Exact t (Q.indexOf t) := by
  obtain ⟨entries, hnodup⟩ := t
  induction entries with
  | nil =>
    refine fun g => (headOf_eq_none_iff.mpr fun k r hwaits => ?_).symm
    cases hwaits.1
  | cons e rest ih =>
    obtain ⟨hnew, hrest⟩ := List.nodupKeys_cons.mp hnodup
    have hstep : Q.Exact (AList.insert e.1 e.2 (⟨rest, hrest⟩ : Table κ ρ))
        (Q.onInsert e.1 e.2 (Q.indexOf ⟨rest, hrest⟩)) := (ih hrest).insert hnew
    rwa [AList.insert_of_notMem hnew] at hstep

variable (Q) [DecidableEq ν]

/-- A row that was changed or deleted leaves the index, and the least one that waits takes its
place. -/
def onChange (t' : Table κ ρ) (k : κ) (r : ρ) (index : Table γ β) : Table γ β :=
  let index' := if (index.lookup (Q.group k r)).map Q.name = some (Q.name (Q.order k r)) then
    index.erase (Q.group k r) else index
  match Q.headOf t' (Q.group k r) with
  | none => index'
  | some b => index'.insert (Q.group k r) b

variable {Q}

/-- A row is changed or deleted, and all others are as before.  The index may have lost the head of
the queue already. -/
theorem Exact.change (hindex : ∀ g, g ≠ Q.group k r → index.lookup g = Q.headOf t g)
    (hown : ∀ b, index.lookup (Q.group k r) = some b → Q.headOf t (Q.group k r) = some b)
    (row : t.lookup k = some r) (others : ∀ k', k' ≠ k → t'.lookup k' = t.lookup k')
    (hgroup : ∀ r', t'.lookup k = some r' → Q.group k r' = Q.group k r) :
    Q.Exact t' (Q.onChange t' k r index) := by
  intro g
  by_cases hg : g = Q.group k r
  · subst hg
    unfold onChange
    cases hhead : Q.headOf t' (Q.group k r) with
    | some b => exact AList.lookup_insert _
    | none =>
      have hnone := headOf_eq_none_iff.mp hhead
      change AList.lookup (Q.group k r) (if _ then _ else index) = none
      split_ifs with hname
      · exact AList.lookup_erase _ _
      · -- whatever headed the queue has to be the row itself
        cases hold : index.lookup (Q.group k r) with
        | none => rfl
        | some b =>
          obtain ⟨⟨k₀, r₀, hwaits₀, heq⟩, _⟩ := headOf_eq_some_iff.mp (hown b hold)
          by_cases hk : k₀ = k
          · subst hk
            obtain rfl := some_unique row hwaits₀.1
            rw [hold, ← heq] at hname
            exact absurd rfl hname
          · refine absurd ⟨?_, hwaits₀.2⟩ (hnone k₀ r₀)
            rw [others k₀ hk]
            exact hwaits₀.1
  · have hsame : Q.headOf t' g = Q.headOf t g := by
      refine headOf_of_waits_iff fun k' r' => ?_
      by_cases hk : k' = k
      · subst hk
        refine iff_of_false (fun hw => ?_) fun hw => ?_
        · exact hg (hw.2.2.symm.trans (hgroup r' hw.1))
        · obtain rfl := some_unique row hw.1
          exact hg hw.2.2.symm
      · unfold Waits
        rw [others k' hk]
    have herased : AList.lookup g (if (index.lookup (Q.group k r)).map Q.name =
        some (Q.name (Q.order k r)) then index.erase (Q.group k r) else index) =
          index.lookup g := by
      split_ifs
      · exact AList.lookup_erase_ne hg
      · rfl
    rw [hsame, ← hindex g hg, ← herased]
    unfold onChange
    cases Q.headOf t' (Q.group k r) with
    | none => rfl
    | some b => exact AList.lookup_insert_ne hg

end Queueing

/-! ### An index kept by triggers -/

inductive RowChange (κ ρ : Type)
  | insert (key : κ) (row : ρ)
  | update (key : κ) (row : ρ)
  | delete (key : κ)

namespace RowChange

variable {κ ρ : Type} [DecidableEq κ]

def apply (change : RowChange κ ρ) (t : Table κ ρ) : Table κ ρ :=
  match change with
  | insert key row => t.insert key row
  | update key row => if key ∈ t then t.insert key row else t
  | delete key => t.erase key

def applyAll (changes : List (RowChange κ ρ)) (t : Table κ ρ) : Table κ ρ :=
  changes.foldl (fun t change => change.apply t) t

theorem applyAll_append (changes rest : List (RowChange κ ρ)) (t : Table κ ρ) :
    applyAll (changes ++ rest) t = applyAll rest (applyAll changes t) :=
  List.foldl_append

theorem lookup_updates (f : κ → ρ → ρ) {l : List ((_ : κ) × ρ)} {t : Table κ ρ}
    (hnodup : l.NodupKeys) (hmem : ∀ e ∈ l, t.lookup e.1 = some e.2) (k : κ) :
    (applyAll (l.map fun e => update e.1 (f e.1 e.2)) t).lookup k =
      if k ∈ l.keys then (t.lookup k).map (f k) else t.lookup k := by
  induction l generalizing t with
  | nil => simp [applyAll]
  | cons e rest ih =>
    obtain ⟨hnew, hrest⟩ := List.nodupKeys_cons.mp hnodup
    have hrow := hmem e List.mem_cons_self
    have happly : (update e.1 (f e.1 e.2)).apply t = t.insert e.1 (f e.1 e.2) :=
      if_pos (mem_iff_lookup.mpr ⟨_, hrow⟩)
    change (applyAll _ ((update e.1 (f e.1 e.2)).apply t)).lookup k = _
    rw [happly, ih hrest, lookup_insert_eq]
    · by_cases hk : k = e.1
      · subst hk
        rw [if_neg hnew, if_pos rfl, if_pos (by simp), hrow]
        rfl
      · simp [hk]
    · intro e' he'
      have hne : e'.1 ≠ e.1 := by
        intro heq
        exact hnew (heq ▸ List.mem_keys_of_mem he')
      rw [AList.lookup_insert_ne hne]
      exact hmem e' (List.mem_cons_of_mem e he')

theorem lookup_deletes (keys : List κ) (t : Table κ ρ) (k : κ) :
    (applyAll (keys.map delete) t).lookup k = if k ∈ keys then none else t.lookup k := by
  induction keys generalizing t with
  | nil => simp [applyAll]
  | cons key rest ih =>
    change (applyAll _ (t.erase key)).lookup k = _
    rw [ih]
    by_cases hk : k = key
    · subst hk
      simp
    · simp [hk, AList.lookup_erase_ne hk]

theorem lookup_deleteRows (q : κ → ρ → Bool) {t t' : Table κ ρ}
    (h : ∀ k, t'.lookup k = t.lookup k) (k : κ) :
    (applyAll ((t.entries.filter fun e => q e.1 e.2).map fun e => delete e.1) t').lookup k =
      (t.filterRows fun k r => !q k r).lookup k := by
  have hmap : (t.entries.filter fun e => q e.1 e.2).map (fun e => (delete e.1 : RowChange κ ρ)) =
      (t.entries.filter fun e => q e.1 e.2).keys.map delete := by
    rw [List.keys, List.map_map]
    rfl
  rw [hmap, lookup_deletes, h, lookup_filterRows]
  cases hrow : t.lookup k with
  | none => simp
  | some r =>
    have hkeys : k ∈ (t.entries.filter fun e => q e.1 e.2).keys ↔ q k r = true := by
      rw [List.mem_keys]
      constructor
      · rintro ⟨r', hmem⟩
        obtain ⟨hentry, hq⟩ := List.mem_filter.mp hmem
        obtain rfl := Option.some.inj (hrow.symm.trans (lookup_eq_some_iff.mpr hentry))
        exact hq
      · exact fun hq => ⟨r, List.mem_filter.mpr ⟨lookup_eq_some_iff.mp hrow, hq⟩⟩
    by_cases hq : q k r = true
    · rw [if_pos (hkeys.mpr hq), Option.filter_some, hq]
      rfl
    · rw [if_neg (mt hkeys.mp hq), Option.filter_some, Bool.eq_false_iff.mpr hq]
      rfl

end RowChange

structure Indexed (κ ρ γ β : Type) where
  rows : Table κ ρ
  index : Table γ β

/-- How an index is kept: when the trigger of an update fires, and which rows of the index refer to a
row of the table and are deleted with it. -/
structure IndexTriggers (κ ρ γ β ν : Type) extends Queueing κ ρ γ β ν where
  fires : ρ → ρ → Bool
  refers : κ → γ → β → Bool
  fires_of_ne : ∀ {r r'}, waiting r' ≠ waiting r → fires r r' = true
  refers_iff : ∀ {k k' r}, refers k (group k' r) (order k' r) = true ↔ k' = k

namespace IndexTriggers

variable {κ ρ γ β ν : Type} [DecidableEq κ] [DecidableEq γ] [LinearOrder β] [DecidableEq ν]
  (T : IndexTriggers κ ρ γ β ν)

def write (change : RowChange κ ρ) (s : Indexed κ ρ γ β) : Indexed κ ρ γ β :=
  match change with
  | .insert key row => ⟨s.rows.insert key row, T.onInsert key row s.index⟩
  | .update key row =>
    match s.rows.lookup key with
    | none => s
    | some old => ⟨s.rows.insert key row, if T.fires old row then
        T.onChange (s.rows.insert key row) key old s.index else s.index⟩
  | .delete key =>
    match s.rows.lookup key with
    | none => s
    | some old => ⟨s.rows.erase key, T.onChange (s.rows.erase key) key old
        (s.index.filterRows fun g b => !T.refers key g b)⟩

def writeAll (changes : List (RowChange κ ρ)) (s : Indexed κ ρ γ β) : Indexed κ ρ γ β :=
  changes.foldl (fun s change => T.write change s) s

/-- What the table's own constraints let through: a key that is new, and an update that leaves a row
where it is. -/
def Permits (rows : Table κ ρ) : RowChange κ ρ → Prop
  | .insert key _ => key ∉ rows
  | .update key row => ∀ old, rows.lookup key = some old →
      T.group key row = T.group key old ∧ T.order key row = T.order key old
  | .delete _ => True

def PermitsAll : List (RowChange κ ρ) → Indexed κ ρ γ β → Prop
  | [], _ => True
  | change :: rest, s => T.Permits s.rows change ∧ PermitsAll rest (T.write change s)

variable {T} {s : Indexed κ ρ γ β} {change : RowChange κ ρ} {changes : List (RowChange κ ρ)}

theorem exact_write (h : T.Exact s.rows s.index) (hpermits : T.Permits s.rows change) :
    T.Exact (T.write change s).rows (T.write change s).index := by
  cases change with
  | insert key row => exact h.insert hpermits
  | update key row =>
    simp only [write]
    cases hold : s.rows.lookup key with
    | none => exact h
    | some old =>
      obtain ⟨hgroup, horder⟩ := hpermits old hold
      dsimp only
      split_ifs with hfires
      · refine Queueing.Exact.change (fun g _ => h g) (fun b hb => (h _).symm.trans hb) hold
          (fun k' hk => AList.lookup_insert_ne hk) fun r' hr' => ?_
        rw [AList.lookup_insert] at hr'
        obtain rfl := Option.some.inj hr'
        exact hgroup
      · have hwaiting : T.waiting row = T.waiting old := by
          by_contra hne
          exact hfires (T.fires_of_ne hne)
        exact fun g => (h g).trans (Queueing.headOf_insert hold hgroup horder hwaiting).symm
  | delete key =>
    simp only [write]
    cases hold : s.rows.lookup key with
    | none => exact h
    | some old =>
      -- only the head of the row's own queue can refer to it
      have hkept : ∀ g b, (s.index.filterRows fun g b => !T.refers key g b).lookup g = some b →
          s.index.lookup g = some b := by
        intro g b hb
        rw [lookup_filterRows, Option.filter_eq_some_iff] at hb
        exact hb.1
      refine Queueing.Exact.change (fun g hg => ?_) (fun b hb => (h _).symm.trans (hkept _ b hb)) hold
        (fun k' hk => AList.lookup_erase_ne hk) fun r' hr' => ?_
      · rw [← h g, lookup_filterRows]
        cases hb : s.index.lookup g with
        | none => rfl
        | some b =>
          obtain ⟨⟨k', r', hwaits, rfl⟩, _⟩ :=
            Queueing.headOf_eq_some_iff.mp ((h g).symm.trans hb)
          have hother : T.refers key g (T.order k' r') = false := by
            rw [Bool.eq_false_iff]
            intro hrefers
            rw [← hwaits.2.2] at hrefers
            obtain rfl := T.refers_iff.mp hrefers
            obtain rfl := some_unique hold hwaits.1
            exact hg hwaits.2.2.symm
          rw [Option.filter_some, hother]
          rfl
      · rw [AList.lookup_erase] at hr'
        cases hr'

theorem write_rows (change : RowChange κ ρ) (s : Indexed κ ρ γ β) :
    (T.write change s).rows = change.apply s.rows := by
  cases change with
  | insert key row => rfl
  | update key row =>
    cases hold : s.rows.lookup key with
    | none =>
      have hnew : key ∉ s.rows := AList.lookup_eq_none.mp hold
      simp only [write, RowChange.apply, hold, hnew, if_false]
    | some old =>
      have hin : key ∈ s.rows := mem_iff_lookup.mpr ⟨old, hold⟩
      simp only [write, RowChange.apply, hold, hin, if_true]
  | delete key =>
    cases hold : s.rows.lookup key with
    | none =>
      have hkeys : key ∉ s.rows.entries.keys := AList.lookup_eq_none.mp hold
      simp only [write, RowChange.apply, hold]
      exact AList.ext (List.kerase_of_notMem_keys hkeys).symm
    | some old => simp only [write, RowChange.apply, hold]

theorem writeAll_rows (changes : List (RowChange κ ρ)) (s : Indexed κ ρ γ β) :
    (T.writeAll changes s).rows = RowChange.applyAll changes s.rows := by
  induction changes generalizing s with
  | nil => rfl
  | cons change rest ih =>
    change (T.writeAll rest (T.write change s)).rows = _
    rw [ih, write_rows]
    rfl

theorem permitsAll_append {rest : List (RowChange κ ρ)} : T.PermitsAll (changes ++ rest) s ↔
    T.PermitsAll changes s ∧ T.PermitsAll rest (T.writeAll changes s) := by
  induction changes generalizing s with
  | nil => exact (and_iff_right trivial).symm
  | cons change changes ih =>
    change T.Permits s.rows change ∧ T.PermitsAll (changes ++ rest) (T.write change s) ↔
      (T.Permits s.rows change ∧ T.PermitsAll changes (T.write change s)) ∧ _
    rw [ih, and_assoc]
    rfl

theorem permitsAll_deletes (l : List ((_ : κ) × ρ)) (s : Indexed κ ρ γ β) :
    T.PermitsAll (l.map fun e => .delete e.1) s := by
  induction l generalizing s with
  | nil => trivial
  | cons e rest ih => exact ⟨trivial, ih _⟩

theorem permitsAll_updates {l : List ((_ : κ) × ρ)} {s : Indexed κ ρ γ β}
    (h : ∀ e ∈ l, T.Permits s.rows (.update e.1 e.2)) :
    T.PermitsAll (l.map fun e => .update e.1 e.2) s := by
  induction l generalizing s with
  | nil => trivial
  | cons e rest ih =>
    have hfirst := h e List.mem_cons_self
    refine ⟨hfirst, ih fun e' he' old hold => ?_⟩
    have hlater := h e' (List.mem_cons_of_mem e he')
    rw [write_rows] at hold
    unfold RowChange.apply at hold
    by_cases hin : e.1 ∈ s.rows
    · simp only [hin, if_true, lookup_insert_eq] at hold
      split_ifs at hold with hkey
      · obtain ⟨row, hrow⟩ := mem_iff_lookup.mp hin
        obtain rfl := Option.some.inj hold
        have hplace := hfirst row hrow
        have hplace' := hlater row (hkey ▸ hrow)
        rw [hkey] at hplace' ⊢
        exact ⟨hplace'.1.trans hplace.1.symm, hplace'.2.trans hplace.2.symm⟩
      · exact hlater old hold
    · simp only [hin, if_false] at hold
      exact hlater old hold

theorem exact_writeAll (h : T.Exact s.rows s.index) (hpermits : T.PermitsAll changes s) (n : ℕ) :
    T.Exact (T.writeAll (changes.take n) s).rows (T.writeAll (changes.take n) s).index := by
  induction changes generalizing s n with
  | nil =>
    rw [List.take_nil]
    exact h
  | cons change rest ih =>
    cases n with
    | zero => exact h
    | succ n => exact ih (exact_write h hpermits.1) hpermits.2 n

end IndexTriggers

end Library
