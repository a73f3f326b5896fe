import Lets.Library.Runs

set_option autoImplicit false

/-!
# Copies of a store that share an anchor

A store keeps an append-only log.
-/

namespace Library

def FloorKept (anchored current : Option ℕ) : Prop :=
  ∀ floor ∈ anchored, ∃ now ∈ current, floor ≤ now

instance (anchored current : Option ℕ) : Decidable (FloorKept anchored current) :=
  inferInstanceAs (Decidable (∀ floor ∈ anchored, ∃ now ∈ current, floor ≤ now))

theorem FloorKept.refl (floor : Option ℕ) : FloorKept floor floor :=
  fun f hf => ⟨f, hf, le_rfl⟩

theorem FloorKept.trans {a b c : Option ℕ} (h : FloorKept a b) (h' : FloorKept b c) :
    FloorKept a c := by
  intro f hf
  obtain ⟨g, hg, hle⟩ := h f hf
  obtain ⟨k, hk, hle'⟩ := h' g hg
  exact ⟨k, hk, hle.trans hle'⟩

/-- A store with its log, the transactions on it, and its reconciliation with a register. -/
structure Anchoring (σ α ω ε κ : Type) where
  log : σ → List ε
  reconcile : α → σ → Except κ α
  commit : ω → σ → Except κ σ

/-- A transaction that has committed: on which copy, and the store as it left it. -/
structure Committed (ι σ ω : Type) where
  copy : ι
  txn : ω
  store : σ

/-- The register, the copies in use, the transactions that have been let in and those that have
committed and are still to be reconciled. -/
structure Copies (ι σ α ω : Type) where
  anchor : α
  stores : ι → Option σ
  admitted : List ι
  waiting : List (Committed ι σ ω)

inductive CopyEvent (ι σ ω κ : Type)
  /-- A snapshot of a copy comes into use as another one. -/
  | copied (source target : ι)
  | admitted (copy : ι)
  /-- A transaction that reads only. -/
  | observed (copy : ι) (store : σ)
  | refused (copy : ι) (error : κ)
  | committed (done : Committed ι σ ω)
  /-- A committed transaction is reconciled and its caller is told, the store being as given. -/
  | acknowledged (done : Committed ι σ ω) (store : σ)
  /-- The register was reconciled, but nobody learned of it. -/
  | lost (copy : ι)
  | crashed (copy : ι)

namespace CopyEvent

variable {ι σ ω κ : Type}

def answer? : CopyEvent ι σ ω κ → Option (ι × σ)
  | observed copy store => some (copy, store)
  | acknowledged done store => some (done.copy, store)
  | _ => none

def committed? : CopyEvent ι σ ω κ → Option (Committed ι σ ω)
  | committed done => some done
  | _ => none

def acknowledged? : CopyEvent ι σ ω κ → Option (Committed ι σ ω × σ)
  | acknowledged done store => some (done, store)
  | _ => none

end CopyEvent

/-- What a script may ask of the copies.  It acknowledges the transaction that has waited longest. -/
inductive CopyAction (ι ω : Type)
  | copy (source target : ι)
  | enter (copy : ι)
  | commit (copy : ι) (txn : ω)
  | acknowledge

namespace Anchoring

variable {ι σ α ω ε κ : Type} [DecidableEq ι]

def Step (A : Anchoring σ α ω ε κ) (s : Copies ι σ α ω) (event : CopyEvent ι σ ω κ)
    (s' : Copies ι σ α ω) : Prop :=
  match event with
  | .copied source target => ∃ store, s.stores source = some store ∧ s.stores target = none ∧
      s' = { s with stores := Function.update s.stores target (some store) }
  | .admitted copy => ∃ store anchor, s.stores copy = some store ∧
      A.reconcile s.anchor store = .ok anchor ∧
      s' = { s with anchor, admitted := copy :: s.admitted }
  | .observed copy store => s.stores copy = some store ∧
      ∃ anchor, A.reconcile s.anchor store = .ok anchor ∧ s' = { s with anchor }
  | .refused copy error => ∃ store, s.stores copy = some store ∧
      A.reconcile s.anchor store = .error error ∧ s' = s
  | .committed done => ∃ store, s.stores done.copy = some store ∧ done.copy ∈ s.admitted ∧
      A.commit done.txn store = .ok done.store ∧
      s' = { s with
        stores := Function.update s.stores done.copy (some done.store)
        admitted := s.admitted.erase done.copy
        waiting := s.waiting ++ [done] }
  | .acknowledged done store => s.stores done.copy = some store ∧
      ∃ anchor before after, A.reconcile s.anchor store = .ok anchor ∧
        s.waiting = before ++ done :: after ∧ s' = { s with anchor, waiting := before ++ after }
  | .lost copy => ∃ store anchor, s.stores copy = some store ∧
      A.reconcile s.anchor store = .ok anchor ∧ s' = { s with anchor }
  | .crashed copy => s' = { s with
      admitted := s.admitted.filter (· ≠ copy)
      waiting := s.waiting.filter (·.copy ≠ copy) }

def system (A : Anchoring σ α ω ε κ) (origin : ι) (store : σ) (anchor : α) :
    System (Copies ι σ α ω) (CopyEvent ι σ ω κ) where
  Init s := s = ⟨anchor, Function.update (fun _ => none) origin (some store), [], []⟩
  Step := A.Step

/-- The answers of a run, in order: which copy gave them, and from which store. -/
def answers (events : List (CopyEvent ι σ ω κ)) : List (ι × σ) :=
  events.filterMap CopyEvent.answer?

def commits (events : List (CopyEvent ι σ ω κ)) : List (Committed ι σ ω) :=
  events.filterMap CopyEvent.committed?

/-- The acknowledged transactions of a run, each with the store it is acknowledged from. -/
def acknowledgements (events : List (CopyEvent ι σ ω κ)) : List (Committed ι σ ω × σ) :=
  events.filterMap CopyEvent.acknowledged?

/-- What makes an anchor sound: transactions append to the log, and a store that is reconciled
extends the log that was anchored and becomes the anchored one. -/
structure Sound (A : Anchoring σ α ω ε κ) (Valid : σ → Prop) (Anchored : α → List ε → Prop) :
    Prop where
  commit_valid : ∀ {txn store store'}, Valid store → A.commit txn store = .ok store' → Valid store'
  commit_prefix : ∀ {txn store store'}, Valid store → A.commit txn store = .ok store' →
    A.log store <+: A.log store'
  reconcile_prefix : ∀ {anchor anchor' l store}, Anchored anchor l → Valid store →
    A.reconcile anchor store = .ok anchor' → l <+: A.log store
  reconcile_anchored : ∀ {anchor anchor' l store}, Anchored anchor l → Valid store →
    A.reconcile anchor store = .ok anchor' → Anchored anchor' (A.log store)

variable {A : Anchoring σ α ω ε κ} {s s' : Copies ι σ α ω} {event : CopyEvent ι σ ω κ}
  {events : List (CopyEvent ι σ ω κ)}

/-! ### What a step does -/

/-- What a step can do: copy a store, commit a transaction, reconcile the register with a copy, or
drop what was under way. -/
inductive Effect (A : Anchoring σ α ω ε κ) (s : Copies ι σ α ω) :
    CopyEvent ι σ ω κ → Copies ι σ α ω → Prop
  | copied {source target : ι} {store : σ} {s' : Copies ι σ α ω}
      (source_eq : s.stores source = some store) (target_new : s.stores target = none)
      (stores_eq : s'.stores = Function.update s.stores target (some store))
      (anchor_eq : s'.anchor = s.anchor) (waiting_eq : s'.waiting = s.waiting) :
      Effect A s (.copied source target) s'
  | committed {done : Committed ι σ ω} {store : σ} {s' : Copies ι σ α ω}
      (store_eq : s.stores done.copy = some store)
      (commit_eq : A.commit done.txn store = .ok done.store)
      (stores_eq : s'.stores = Function.update s.stores done.copy (some done.store))
      (anchor_eq : s'.anchor = s.anchor) (waiting_eq : s'.waiting = s.waiting ++ [done]) :
      Effect A s (.committed done) s'
  | acknowledged {done : Committed ι σ ω} {store : σ} {before after : List (Committed ι σ ω)}
      {s' : Copies ι σ α ω} (store_eq : s.stores done.copy = some store)
      (reconcile_eq : A.reconcile s.anchor store = .ok s'.anchor)
      (stores_eq : s'.stores = s.stores) (waiting_eq : s.waiting = before ++ done :: after)
      (waiting_eq' : s'.waiting = before ++ after) : Effect A s (.acknowledged done store) s'
  | reconciled {event : CopyEvent ι σ ω κ} {copy : ι} {store : σ} {s' : Copies ι σ α ω}
      (event_eq : event = .admitted copy ∨ event = .observed copy store ∨ event = .lost copy)
      (store_eq : s.stores copy = some store)
      (reconcile_eq : A.reconcile s.anchor store = .ok s'.anchor)
      (stores_eq : s'.stores = s.stores) (waiting_eq : s'.waiting = s.waiting) : Effect A s event s'
  | dropped {event : CopyEvent ι σ ω κ} {s' : Copies ι σ α ω}
      (event_eq : (∃ copy error, event = .refused copy error) ∨ ∃ copy, event = .crashed copy)
      (stores_eq : s'.stores = s.stores) (anchor_eq : s'.anchor = s.anchor)
      (waiting_le : List.Sublist s'.waiting s.waiting) : Effect A s event s'

theorem step_effect (step : A.Step s event s') : Effect A s event s' := by
  cases event with
  | copied source target =>
    obtain ⟨store, hsource, htarget, rfl⟩ := step
    exact .copied hsource htarget rfl rfl rfl
  | admitted copy =>
    obtain ⟨store, anchor, hstore, hreconcile, rfl⟩ := step
    exact .reconciled (.inl rfl) hstore hreconcile rfl rfl
  | observed copy store =>
    obtain ⟨hstore, anchor, hreconcile, rfl⟩ := step
    exact .reconciled (.inr (.inl rfl)) hstore hreconcile rfl rfl
  | refused copy error =>
    obtain ⟨_, _, _, rfl⟩ := step
    exact .dropped (.inl ⟨copy, error, rfl⟩) rfl rfl (List.Sublist.refl _)
  | committed done =>
    obtain ⟨store, hstore, _, hcommit, rfl⟩ := step
    exact .committed hstore hcommit rfl rfl rfl
  | acknowledged done store =>
    obtain ⟨hstore, anchor, before, after, hreconcile, hwaiting, rfl⟩ := step
    exact .acknowledged hstore hreconcile rfl hwaiting rfl
  | lost copy =>
    obtain ⟨store, anchor, hstore, hreconcile, rfl⟩ := step
    exact .reconciled (.inr (.inr rfl)) hstore hreconcile rfl rfl
  | crashed copy =>
    obtain rfl := step
    exact .dropped (.inr ⟨copy, rfl⟩) rfl rfl List.filter_sublist

section

variable (h : Effect A s event s')

include h

theorem Effect.store {copy : ι} {store : σ} (hstore : s.stores copy = some store) :
    ∃ store', s'.stores copy = some store' ∧
      (store' = store ∨ ∃ txn, A.commit txn store = .ok store') := by
  cases h with
  | copied _ htarget hstores =>
    refine ⟨store, ?_, .inl rfl⟩
    rw [hstores, Function.update_of_ne]
    · exact hstore
    · rintro rfl
      rw [htarget] at hstore
      cases hstore
  | @committed done old _ hold hcommit hstores =>
    by_cases hcopy : copy = done.copy
    · rw [hcopy, hold, Option.some.injEq] at hstore
      rw [hstore] at hcommit
      refine ⟨done.store, ?_, .inr ⟨done.txn, hcommit⟩⟩
      rw [hstores, hcopy, Function.update_self]
    · refine ⟨store, ?_, .inl rfl⟩
      rw [hstores, Function.update_of_ne hcopy]
      exact hstore
  | acknowledged _ _ hstores | reconciled _ _ _ hstores | dropped _ hstores =>
    exact ⟨store, hstores ▸ hstore, .inl rfl⟩

/-- Every store was there before, as that copy or as the one it was taken from, or is the result of
a transaction. -/
theorem Effect.store_cases {copy : ι} {store' : σ} (hstore : s'.stores copy = some store') :
    (∃ source, s.stores source = some store') ∨
      ∃ done store, event = .committed done ∧ done.copy = copy ∧ done.store = store' ∧
        s.stores copy = some store ∧ A.commit done.txn store = .ok store' := by
  cases h with
  | @copied source target _ _ hsource _ hstores =>
    rw [hstores] at hstore
    by_cases hcopy : copy = target
    · rw [hcopy, Function.update_self] at hstore
      exact .inl ⟨source, hsource.trans hstore⟩
    · rw [Function.update_of_ne hcopy] at hstore
      exact .inl ⟨copy, hstore⟩
  | @committed done store _ hold hcommit hstores =>
    rw [hstores] at hstore
    by_cases hcopy : copy = done.copy
    · rw [hcopy, Function.update_self, Option.some.injEq] at hstore
      exact .inr ⟨done, store, rfl, hcopy.symm, hstore, hcopy ▸ hold, hstore ▸ hcommit⟩
    · rw [Function.update_of_ne hcopy] at hstore
      exact .inl ⟨copy, hstore⟩
  | acknowledged _ _ hstores | reconciled _ _ _ hstores | dropped _ hstores =>
    exact .inl ⟨copy, hstores ▸ hstore⟩

theorem Effect.anchor : s'.anchor = s.anchor ∨
    ∃ copy store, s.stores copy = some store ∧ A.reconcile s.anchor store = .ok s'.anchor := by
  cases h with
  | copied _ _ _ hanchor | committed _ _ _ hanchor | dropped _ _ hanchor => exact .inl hanchor
  | acknowledged hstore hreconcile => exact .inr ⟨_, _, hstore, hreconcile⟩
  | reconciled _ hstore hreconcile => exact .inr ⟨_, _, hstore, hreconcile⟩

theorem Effect.answer {copy : ι} {store : σ} (hanswer : event.answer? = some (copy, store)) :
    s.stores copy = some store ∧
      A.reconcile s.anchor store = .ok s'.anchor := by
  cases h with
  | copied | committed => cases hanswer
  | dropped hevent =>
    rcases hevent with ⟨_, _, rfl⟩ | ⟨_, rfl⟩ <;> cases hanswer
  | acknowledged hstore hreconcile =>
    cases hanswer
    exact ⟨hstore, hreconcile⟩
  | reconciled hevent hstore hreconcile =>
    rcases hevent with rfl | rfl | rfl
    · cases hanswer
    · cases hanswer
      exact ⟨hstore, hreconcile⟩
    · cases hanswer

end

omit [DecidableEq ι] in
theorem answers_concat (events : List (CopyEvent ι σ ω κ)) (event : CopyEvent ι σ ω κ) :
    answers (events ++ [event]) = answers events ++ event.answer?.toList :=
  filterMap_concat _ _ _

omit [DecidableEq ι] in
theorem commits_concat (events : List (CopyEvent ι σ ω κ)) (event : CopyEvent ι σ ω κ) :
    commits (events ++ [event]) = commits events ++ event.committed?.toList :=
  filterMap_concat _ _ _

omit [DecidableEq ι] in
theorem acknowledgements_concat (events : List (CopyEvent ι σ ω κ)) (event : CopyEvent ι σ ω κ) :
    acknowledgements (events ++ [event]) =
      acknowledgements events ++ event.acknowledged?.toList :=
  filterMap_concat _ _ _

theorem Effect.waiting_cases (h : Effect A s event s') :
    (∃ done, event = .committed done) ∨ (∃ done store, event = .acknowledged done store) ∨
      event.committed? = none ∧ event.acknowledged? = none ∧
        List.Sublist s'.waiting s.waiting := by
  cases h with
  | committed => exact .inl ⟨_, rfl⟩
  | acknowledged => exact .inr (.inl ⟨_, _, rfl⟩)
  | copied _ _ _ _ hwaiting =>
    exact .inr (.inr ⟨rfl, rfl, hwaiting ▸ List.Sublist.refl _⟩)
  | reconciled hevent _ _ _ hwaiting =>
    rcases hevent with rfl | rfl | rfl <;>
      exact .inr (.inr ⟨rfl, rfl, hwaiting ▸ List.Sublist.refl _⟩)
  | dropped hevent _ _ hwaiting =>
    rcases hevent with ⟨_, _, rfl⟩ | ⟨_, rfl⟩ <;> exact .inr (.inr ⟨rfl, rfl, hwaiting⟩)

/-! ### Runs -/

section Sound

variable {Valid : σ → Prop} {Anchored : α → List ε → Prop}

/-- The logs that answers were given from form a chain that ends below the anchored log. -/
structure Chained (A : Anchoring σ α ω ε κ) (Valid : σ → Prop) (Anchored : α → List ε → Prop)
    (events : List (CopyEvent ι σ ω κ)) (s : Copies ι σ α ω) : Prop where
  valid : ∀ copy store, s.stores copy = some store → Valid store
  anchored : ∃ l, Anchored s.anchor l ∧ ∀ answer ∈ answers events, A.log answer.2 <+: l
  chain : (answers events).Pairwise fun earlier later => A.log earlier.2 <+: A.log later.2

theorem valid_step (hsound : A.Sound Valid Anchored)
    (h : ∀ copy store, s.stores copy = some store → Valid store) (step : A.Step s event s') :
    ∀ copy store, s'.stores copy = some store → Valid store := by
  intro copy store hstore
  rcases (step_effect step).store_cases hstore with ⟨source, hsource⟩ |
    ⟨_, old, _, _, _, hold, hcommit⟩
  · exact h source store hsource
  · exact hsound.commit_valid (h copy old hold) hcommit

theorem chained_step (hsound : A.Sound Valid Anchored) (h : Chained A Valid Anchored events s)
    (step : A.Step s event s') : Chained A Valid Anchored (events ++ [event]) s' := by
  obtain ⟨l, hanchored, hbelow⟩ := h.anchored
  -- whatever was anchored before is below what is anchored now
  have hnext : ∃ l', Anchored s'.anchor l' ∧ l <+: l' := by
    rcases (step_effect step).anchor with hsame | ⟨copy, store, hstore, hreconcile⟩
    · exact ⟨l, hsame ▸ hanchored, List.prefix_refl l⟩
    · have hvalid := h.valid copy store hstore
      exact ⟨A.log store, hsound.reconcile_anchored hanchored hvalid hreconcile,
        hsound.reconcile_prefix hanchored hvalid hreconcile⟩
  refine ⟨valid_step hsound h.valid step, ?_, ?_⟩
  · cases hanswer : event.answer? with
    | none =>
      obtain ⟨l', hanchored', hle⟩ := hnext
      refine ⟨l', hanchored', fun answer hmem => ?_⟩
      rw [answers_concat, hanswer, Option.toList_none, List.append_nil] at hmem
      exact (hbelow answer hmem).trans hle
    | some answer =>
      obtain ⟨hstore, hreconcile⟩ := (step_effect step).answer hanswer
      have hvalid := h.valid _ _ hstore
      have hle := hsound.reconcile_prefix hanchored hvalid hreconcile
      refine ⟨A.log answer.2, hsound.reconcile_anchored hanchored hvalid hreconcile, ?_⟩
      intro other hmem
      rw [answers_concat, hanswer] at hmem
      rcases List.mem_append.mp hmem with hold | hnew
      · exact (hbelow other hold).trans hle
      · rw [List.mem_singleton.mp hnew]
  · rw [answers_concat]
    cases hanswer : event.answer? with
    | none =>
      rw [Option.toList_none, List.append_nil]
      exact h.chain
    | some answer =>
      obtain ⟨hstore, hreconcile⟩ := (step_effect step).answer hanswer
      have hle := hsound.reconcile_prefix hanchored (h.valid _ _ hstore) hreconcile
      refine List.pairwise_append.mpr ⟨h.chain, List.pairwise_singleton _ _, ?_⟩
      intro earlier hearlier later hlater
      rw [List.mem_singleton.mp hlater]
      exact (hbelow earlier hearlier).trans hle

variable {origin : ι} {store : σ} {anchor : α} {s₀ : Copies ι σ α ω}

section

variable (hsound : A.Sound Valid Anchored)

include hsound

theorem chained_of_run (hvalid : Valid store) (hanchored : Anchored anchor (A.log store))
    (hinit : (A.system origin store anchor).Init s₀)
    (run : (A.system origin store anchor).Run s₀ events s) : Chained A Valid Anchored events s := by
  refine run.history ?_ fun events s event s' h step => chained_step hsound h step
  rw [show s₀ = _ from hinit]
  refine ⟨?_, ⟨A.log store, hanchored, List.forall_mem_nil _⟩, List.Pairwise.nil⟩
  intro copy st hst
  by_cases hcopy : copy = origin
  · subst hcopy
    simp only [Function.update_self, Option.some.injEq] at hst
    exact hst ▸ hvalid
  · simp only [Function.update_of_ne hcopy] at hst
    cases hst

theorem logs_grow (hvalid : ∀ copy store, s.stores copy = some store → Valid store)
    (run : (A.system origin store anchor).Run s events s') {copy : ι} {st : σ}
    (hst : s.stores copy = some st) : (∃ st', s'.stores copy = some st' ∧ A.log st <+: A.log st') ∧
      ∀ answer ∈ answers events, answer.1 = copy → A.log st <+: A.log answer.2 := by
  have hall : (∀ copy store, s'.stores copy = some store → Valid store) ∧
      (∃ st', s'.stores copy = some st' ∧ A.log st <+: A.log st') ∧
      ∀ answer ∈ answers events, answer.1 = copy → A.log st <+: A.log answer.2 := by
    refine run.history (P := fun events s' =>
      (∀ copy store, s'.stores copy = some store → Valid store) ∧
      (∃ st', s'.stores copy = some st' ∧ A.log st <+: A.log st') ∧
      ∀ answer ∈ answers events, answer.1 = copy → A.log st <+: A.log answer.2) ?_ ?_
    · exact ⟨hvalid, ⟨st, hst, List.prefix_refl _⟩, List.forall_mem_nil _⟩
    · rintro events t event u ⟨hvalid, ⟨mid, hmid, hle⟩, hanswers⟩ step
      refine ⟨valid_step hsound hvalid step, ?_, ?_⟩
      · obtain ⟨st', hst', rfl | ⟨txn, hcommit⟩⟩ := (step_effect step).store hmid
        · exact ⟨st', hst', hle⟩
        · exact ⟨st', hst', hle.trans (hsound.commit_prefix (hvalid copy mid hmid) hcommit)⟩
      · intro answer hmem hcopy
        rw [answers_concat] at hmem
        rcases List.mem_append.mp hmem with hold | hnew
        · exact hanswers answer hold hcopy
        · obtain ⟨hstore, _⟩ := (step_effect step).answer (Option.mem_toList.mp hnew)
          rw [hcopy, hmid] at hstore
          rw [← Option.some.inj hstore]
          exact hle
  exact hall.2

theorem not_both_answer (hvalid : Valid store) (hanchored : Anchored anchor (A.log store))
    {before after : List (CopyEvent ι σ ω κ)} (hinit : (A.system origin store anchor).Init s₀)
    (run : (A.system origin store anchor).Run s₀ before s)
    (later : (A.system origin store anchor).Run s after s') {copy copy' : ι} {st st' : σ}
    (hst : s.stores copy = some st) (hst' : s.stores copy' = some st')
    (hdiverged : ¬A.log st <+: A.log st' ∧ ¬A.log st' <+: A.log st) :
    ¬((∃ answer ∈ answers after, answer.1 = copy) ∧
      ∃ answer ∈ answers after, answer.1 = copy') := by
  rintro ⟨⟨answer, hanswer, hcopy⟩, answer', hanswer', hcopy'⟩
  have hmid := chained_of_run hsound hvalid hanchored hinit run
  have hend := chained_of_run hsound hvalid hanchored hinit (run.trans later)
  have hle := (logs_grow hsound hmid.valid later hst).2 answer hanswer hcopy
  have hle' := (logs_grow hsound hmid.valid later hst').2 answer' hanswer' hcopy'
  -- both answers lie below the log that is anchored in the end
  obtain ⟨l, _, hbelow⟩ := hend.anchored
  have hmem : ∀ a ∈ answers after, a ∈ answers (before ++ after) := fun a ha => by
    rw [answers, List.filterMap_append]
    exact List.mem_append_right _ ha
  have hl := hle.trans (hbelow answer (hmem answer hanswer))
  have hl' := hle'.trans (hbelow answer' (hmem answer' hanswer'))
  rcases Nat.le_total (A.log st).length (A.log st').length with hlen | hlen
  · exact hdiverged.1 (List.prefix_of_prefix_length_le hl hl' hlen)
  · exact hdiverged.2 (List.prefix_of_prefix_length_le hl' hl hlen)

end

/-- The transactions that wait or are acknowledged: each is one that committed, and its log is part
of the copy's. -/
structure InFlight (A : Anchoring σ α ω ε κ) (events : List (CopyEvent ι σ ω κ))
    (s : Copies ι σ α ω) : Prop where
  once : ((acknowledgements events).map Prod.fst ++ s.waiting).Subperm (commits events)
  waiting : ∀ done ∈ s.waiting, ∃ store, s.stores done.copy = some store ∧
    A.log done.store <+: A.log store
  acknowledged : ∀ ack ∈ acknowledgements events, A.log ack.1.store <+: A.log ack.2

section

variable (hsound : A.Sound Valid Anchored)

include hsound

section

variable (hvalid : ∀ copy store, s.stores copy = some store → Valid store)

include hvalid

theorem waiting_step (h : Effect A s event s') {done : Committed ι σ ω}
    (hdone : ∃ store, s.stores done.copy = some store ∧ A.log done.store <+: A.log store) :
    ∃ store, s'.stores done.copy = some store ∧ A.log done.store <+: A.log store := by
  obtain ⟨store, hstore, hle⟩ := hdone
  obtain ⟨store', hstore', rfl | ⟨txn, hcommit⟩⟩ := h.store hstore
  · exact ⟨store', hstore', hle⟩
  · exact ⟨store', hstore', hle.trans (hsound.commit_prefix (hvalid _ _ hstore) hcommit)⟩

theorem inFlight_step (h : InFlight A events s) (step : A.Step s event s') :
    InFlight A (events ++ [event]) s' := by
  have heffect := step_effect step
  have hkept := fun done hdone => waiting_step hsound hvalid heffect (h.waiting done hdone)
  rcases heffect.waiting_cases with ⟨done, rfl⟩ | ⟨done, store, rfl⟩ | ⟨hcommit, hack, hless⟩
  · obtain ⟨store, hstore, _, hcommit, rfl⟩ := step
    refine ⟨?_, ?_, ?_⟩
    · rw [acknowledgements_concat, commits_concat]
      simp only [CopyEvent.acknowledged?, CopyEvent.committed?, Option.toList_none,
        Option.toList_some, List.append_nil]
      rw [← List.append_assoc]
      exact h.once.append (List.Subperm.refl _)
    · intro other hother
      rcases List.mem_append.mp hother with hold | hnew
      · exact hkept other hold
      · rw [List.mem_singleton.mp hnew]
        exact ⟨done.store, Function.update_self _ _ _, List.prefix_refl _⟩
    · rw [acknowledgements_concat]
      simp only [CopyEvent.acknowledged?, Option.toList_none, List.append_nil]
      exact h.acknowledged
  · obtain ⟨hstore, anchor, before, after, _, hwaiting, rfl⟩ := step
    have hmem : done ∈ s.waiting := by
      rw [hwaiting]
      exact List.mem_append_cons_self
    refine ⟨?_, ?_, ?_⟩
    · rw [acknowledgements_concat, commits_concat]
      simp only [CopyEvent.acknowledged?, CopyEvent.committed?, Option.toList_none,
        Option.toList_some, List.append_nil, List.map_append, List.map_cons, List.map_nil]
      refine List.Subperm.trans (List.Perm.subperm ?_) h.once
      rw [hwaiting, List.append_assoc, List.singleton_append]
      exact List.perm_middle.symm.append_left _
    · intro other hother
      refine hkept other ?_
      rw [hwaiting]
      rcases List.mem_append.mp hother with hold | hold
      · exact List.mem_append_left _ hold
      · exact List.mem_append_right _ (List.mem_cons_of_mem _ hold)
    · rw [acknowledgements_concat]
      intro ack hack
      rcases List.mem_append.mp hack with hold | hnew
      · exact h.acknowledged ack hold
      · rw [List.mem_singleton.mp hnew]
        obtain ⟨current, hcurrent, hle⟩ := h.waiting done hmem
        rw [hstore, Option.some.injEq] at hcurrent
        rw [hcurrent]
        exact hle
  · have hacks : acknowledgements (events ++ [event]) = acknowledgements events := by
      rw [acknowledgements_concat, hack, Option.toList_none, List.append_nil]
    have hcommits : commits (events ++ [event]) = commits events := by
      rw [commits_concat, hcommit, Option.toList_none, List.append_nil]
    refine ⟨?_, fun done hdone => hkept done (hless.subset hdone), ?_⟩
    · rw [hacks, hcommits]
      exact (hless.append_left _).subperm.trans h.once
    · rw [hacks]
      exact h.acknowledged

end

theorem inFlight_of_run (hvalid : Valid store) (hanchored : Anchored anchor (A.log store))
    (hinit : (A.system origin store anchor).Init s₀)
    (run : (A.system origin store anchor).Run s₀ events s) : InFlight A events s := by
  have hboth : Chained A Valid Anchored events s ∧ InFlight A events s := by
    induction run with
    | nil =>
      refine ⟨chained_of_run hsound hvalid hanchored hinit (.nil _), ?_⟩
      rw [show s₀ = _ from hinit]
      exact ⟨List.Subperm.refl _, List.forall_mem_nil _,
        List.forall_mem_nil _⟩
    | snoc run step ih =>
      obtain ⟨hchained, hflight⟩ := ih
      exact ⟨chained_step hsound hchained step, inFlight_step hsound hchained.valid hflight step⟩
  exact hboth.2

end

omit [DecidableEq ι] in
theorem InFlight.nodup {β : Type} {f : Committed ι σ ω → β} (h : InFlight A events s)
    (hnodup : ((commits events).map f).Nodup) :
    ((acknowledgements events).map fun ack => f ack.1).Nodup := by
  have hsub : ((acknowledgements events).map Prod.fst).Subperm (commits events) :=
    (List.sublist_append_left _ _).subperm.trans h.once
  obtain ⟨l, hperm, hsublist⟩ := hsub
  have hl : (l.map f).Nodup := hnodup.sublist (hsublist.map f)
  have hacks := (hperm.map f).nodup_iff.mp hl
  rwa [List.map_map] at hacks

omit [DecidableEq ι] in
theorem acknowledgements_sublist (events : List (CopyEvent ι σ ω κ)) :
    List.Sublist ((acknowledgements events).map fun ack => (ack.1.copy, ack.2)) (answers events) := by
  induction events with
  | nil => exact List.Sublist.refl _
  | cons event events ih =>
    cases event with
    | acknowledged done store => exact ih.cons_cons _
    | observed copy store => exact ih.cons _
    | copied _ _ | admitted _ | refused _ _ | committed _ | lost _ | crashed _ => exact ih

omit [DecidableEq ι] in
theorem acknowledgements_chain (h : Chained A Valid Anchored events s) :
    (acknowledgements events).Pairwise fun earlier later => A.log earlier.2 <+: A.log later.2 := by
  have hsub := h.chain.sublist (acknowledgements_sublist events)
  rwa [List.pairwise_map] at hsub

end Sound

/-! ### Playing a script -/

/-- One step of a script, where it can be taken. -/
def next (A : Anchoring σ α ω ε κ) (s : Copies ι σ α ω) :
    CopyAction ι ω → Option (CopyEvent ι σ ω κ × Copies ι σ α ω)
  | .copy source target =>
    match s.stores source, s.stores target with
    | some store, none => some (.copied source target,
        { s with stores := Function.update s.stores target (some store) })
    | _, _ => none
  | .enter copy => do
    let store ← s.stores copy
    match A.reconcile s.anchor store with
    | .ok anchor => some (.admitted copy, { s with anchor, admitted := copy :: s.admitted })
    | .error error => some (.refused copy error, s)
  | .commit copy txn => do
    let store ← s.stores copy
    match A.commit txn store with
    | .ok store' =>
      if copy ∈ s.admitted then
        some (.committed ⟨copy, txn, store'⟩,
          { s with
            stores := Function.update s.stores copy (some store')
            admitted := s.admitted.erase copy
            waiting := s.waiting ++ [⟨copy, txn, store'⟩] })
      else none
    | .error _ => none
  | .acknowledge =>
    match s.waiting with
    | [] => none
    | done :: after => do
      let store ← s.stores done.copy
      match A.reconcile s.anchor store with
      | .ok anchor => some (.acknowledged done store, { s with anchor, waiting := after })
      | .error error => some (.refused done.copy error, s)

theorem next_step {action : CopyAction ι ω} (h : A.next s action = some (event, s')) :
    A.Step s event s' := by
  cases action with
  | copy source target =>
    simp only [next] at h
    split at h
    next store hsource htarget =>
      cases h
      exact ⟨store, hsource, htarget, rfl⟩
    · cases h
  | enter copy =>
    simp only [next, Option.bind_eq_bind, Option.bind_eq_some_iff] at h
    obtain ⟨store, hstore, h⟩ := h
    split at h
    next anchor hreconcile =>
      cases h
      exact ⟨store, anchor, hstore, hreconcile, rfl⟩
    next error hreconcile =>
      cases h
      exact ⟨store, hstore, hreconcile, rfl⟩
  | commit copy txn =>
    simp only [next, Option.bind_eq_bind, Option.bind_eq_some_iff] at h
    obtain ⟨store, hstore, h⟩ := h
    split at h
    next store' hcommit =>
      split_ifs at h with hadmitted
      cases h
      exact ⟨store, hstore, hadmitted, hcommit, rfl⟩
    · cases h
  | acknowledge =>
    simp only [next] at h
    split at h
    · cases h
    next done after hwaiting =>
      simp only [Option.bind_eq_bind, Option.bind_eq_some_iff] at h
      obtain ⟨store, hstore, h⟩ := h
      split at h
      next anchor hreconcile =>
        cases h
        exact ⟨hstore, anchor, [], after, hreconcile, hwaiting, rfl⟩
      next error hreconcile =>
        cases h
        exact ⟨store, hstore, hreconcile, rfl⟩

def play (A : Anchoring σ α ω ε κ) (s : Copies ι σ α ω) :
    List (CopyAction ι ω) → List (CopyEvent ι σ ω κ) × Copies ι σ α ω
  | [] => ([], s)
  | action :: rest =>
    match A.next s action with
    | some (event, s') => ((event :: (A.play s' rest).1), (A.play s' rest).2)
    | none => A.play s rest

theorem play_run (A : Anchoring σ α ω ε κ) (origin : ι) (store : σ) (anchor : α)
    (s : Copies ι σ α ω) (script : List (CopyAction ι ω)) :
    (A.system origin store anchor).Run s (A.play s script).1 (A.play s script).2 := by
  induction script generalizing s with
  | nil => exact .nil s
  | cons action rest ih =>
    unfold play
    split
    next event s' hnext => exact .cons (next_step hnext) (ih s')
    next => exact ih s

end Anchoring

theorem eq_of_prefix_of_last_key {ε β : Type} {key : ε → β} {l l' m : List ε} {r r' : ε}
    (hnodup : (m.map key).Nodup) (hl : l ++ [r] <+: m) (hl' : l' ++ [r'] <+: m)
    (hkey : key r = key r') : l ++ [r] = l' ++ [r'] := by
  -- of two different ones the shorter would lie before the end of the longer
  have hshort : ∀ {l l' : List ε} {r r' : ε}, l' ++ [r'] <+: m → key r = key r' →
      l ++ [r] <+: l' ++ [r'] → l ++ [r] = l' ++ [r'] := by
    intro l l' r r' hl' hkey hle
    rcases List.prefix_concat_iff.mp hle with heq | hbefore
    · exact heq
    · have hmem : r ∈ l' := hbefore.subset List.mem_concat_self
      have hdistinct := hnodup.sublist (hl'.sublist.map key)
      rw [List.map_append] at hdistinct
      exact absurd rfl ((List.nodup_append.mp hdistinct).2.2 (key r) (List.mem_map_of_mem hmem)
        (key r) (by rw [hkey]; exact List.mem_cons_self))
  rcases Nat.le_total (l ++ [r]).length (l' ++ [r']).length with hlen | hlen
  · exact hshort hl' hkey (List.prefix_of_prefix_length_le hl hl' hlen)
  · exact (hshort hl hkey.symm (List.prefix_of_prefix_length_le hl' hl hlen)).symm

end Library
