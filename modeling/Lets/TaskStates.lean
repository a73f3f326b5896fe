import Lets.Sample
import Lets.TaskCalls

set_option autoImplicit false

/-!
# When the end of a task is final

A task that has ended stays as it ended, and a rejected one gets no lease, unless a cancellation that
has revoked its lease finds the task failed or rejected meanwhile, or a spawn that was granted finds
it rejected: those two updates do not look at the state they overwrite.
-/

namespace Lets

open Library

variable {d : ℕ} {Hash : Type}

abbrev TaskPool (d : ℕ) (Hash : Type) :=
  Pool (TaskWorld d Hash) (TaskQuery d) TaskQuery.Reply TaskError (TaskAnswer d) (TaskRequest d)

abbrev TaskEvent (d : ℕ) := PoolEvent CallChoice (TaskRequest d) (Reading × Operation d)

def TaskWorld.Settled (w w' : TaskWorld d Hash) : Prop :=
  ∀ key r, w.ledger.lookup key = some r → r.state.isTerminal = true →
    ∃ r', w'.ledger.lookup key = some r' ∧ r'.state = r.state

def TaskWorld.RejectedUnbound (w : TaskWorld d Hash) : Prop :=
  ∀ key r, w.ledger.lookup key = some r → r.state = .rejected → r.leaseId = none

/-- A cancellation does not find the task failed or rejected, and a lease is not bound to a rejected
task. -/
def TaskMutation.Timely (r : TaskRecord d) : TaskMutation → Prop
  | canceled _ _ => r.state ≠ .failed ∧ r.state ≠ .rejected
  | bind _ => r.state ≠ .rejected
  | _ => True

def TaskPool.Timely (p : TaskPool d Hash) (event : TaskEvent d) : Prop :=
  ∀ ticket choice request key mutation k, event = .act ticket choice →
    p.threads.lookup ticket = some (request, .ask (.update key mutation) k) →
    ∀ r, p.shared.ledger.lookup key = some r → mutation.Timely r

namespace TaskMutation

variable {mutation : TaskMutation} {r r' : TaskRecord d}

theorem state_of_apply (h : mutation.apply r = .ok r') (htimely : mutation.Timely r)
    (hstate : r.state = .failed ∨ r.state = .rejected) : r'.state = r.state := by
  have hterminal : r.state.isTerminal = true := by
    rcases hstate with heq | heq <;> rw [heq] <;> rfl
  cases mutation with
  | gate refusal =>
    simp only [apply, bind_ok_iff, require_ok_iff, exists_unit_iff, pure_ok_iff] at h
    rw [← h.2]
  | begin | finish | intent =>
    simp only [apply] at h
    split_ifs at h with hdone
    · rw [Except.ok.inj h]
    · simp only [bind_ok_iff, require_ok_iff, exists_unit_iff, hterminal] at h
      simp at h
  | note horizon =>
    obtain rfl := Except.ok.inj h
    split_ifs with hsubmitted
    · rw [hsubmitted] at hterminal
      cases hterminal
    · rfl
  | canceled reason revokedAt =>
    rcases hstate with heq | heq
    · exact absurd heq htimely.1
    · exact absurd heq htimely.2
  | bind leaseId =>
    obtain rfl := Except.ok.inj h
    split_ifs <;> rfl
  | reject | fail | mirror =>
    obtain rfl := Except.ok.inj h
    simp [hterminal]

theorem unbound_of_apply (h : mutation.apply r = .ok r') (htimely : mutation.Timely r)
    (hr : r.state = .rejected → r.leaseId = none) (hstate : r'.state = .rejected) :
    r'.leaseId = none := by
  have hsame (heq : r' = r) : r'.leaseId = none := by
    rw [heq] at hstate ⊢
    exact hr hstate
  cases mutation with
  | gate refusal =>
    simp only [apply, bind_ok_iff, require_ok_iff, exists_unit_iff, pure_ok_iff] at h
    exact hsame h.2.symm
  | begin | intent =>
    simp only [apply] at h
    split_ifs at h with hdone
    · exact hsame (Except.ok.inj h).symm
    · simp only [bind_ok_iff, require_ok_iff, exists_unit_iff, pure_ok_iff] at h
      obtain ⟨_, rfl⟩ := h
      exact hr hstate
  | finish =>
    simp only [apply] at h
    split_ifs at h with hdone
    · exact hsame (Except.ok.inj h).symm
    · simp only [bind_ok_iff, require_ok_iff, exists_unit_iff, pure_ok_iff] at h
      obtain ⟨_, rfl⟩ := h
      cases hstate
  | note horizon =>
    obtain rfl := Except.ok.inj h
    split_ifs at hstate ⊢ with hsubmitted
    exact hr hstate
  | bind leaseId =>
    obtain rfl := Except.ok.inj h
    split_ifs at hstate ⊢ with hbound
    · exact hr hstate
    · exact absurd hstate htimely
  | reject =>
    obtain rfl := Except.ok.inj h
    split_ifs at hstate ⊢ with hdecided
    · exact hr hstate
    · exact Option.not_isSome_iff_eq_none.mp fun hbound => hdecided (.inl hbound)
  | canceled reason revokedAt =>
    obtain rfl := Except.ok.inj h
    cases hstate
  | fail reason | mirror =>
    obtain rfl := Except.ok.inj h
    split_ifs at hstate ⊢ with hover
    exact hr hstate

end TaskMutation

namespace TaskProfile

open TaskWorld

variable {svc : WardenService d Hash} {envelope : Envelope d} {P : TaskProfile d}
  {db : Database d Hash} {p p' : TaskPool d Hash} {event : TaskEvent d}

theorem exchange_ledger {β : Type} (choice : CallChoice) (key : TaskKey) (checks : Outcome Unit)
    (operation : Operation d) (read : Response d → Outcome β) (w : TaskWorld d Hash) :
    (exchange svc choice key checks operation read w).2.ledger = w.ledger := by
  unfold exchange
  split <;> rfl

/-- What an event does to the ledger: nothing, or it puts a fresh record there, or it updates one. -/
inductive LedgerStep (p : TaskPool d Hash) (event : TaskEvent d) (p' : TaskPool d Hash) : Prop
  | kept (ledger_eq : p'.shared.ledger = p.shared.ledger)
  | put {record : TaskRecord d} (absent : p.shared.ledger.lookup record.key = none)
      (unbound : record.leaseId = none)
      (ledger_eq : p'.shared.ledger = p.shared.ledger.insert record.key record)
  | updated {ticket : ℕ} {choice : CallChoice} {request : TaskRequest d} {key : TaskKey}
      {mutation : TaskMutation} {k : Except TaskError (TaskRecord d) → TaskProg d (TaskAnswer d)}
      {r r' : TaskRecord d} (event_eq : event = .act ticket choice)
      (thread_eq : p.threads.lookup ticket = some (request, .ask (.update key mutation) k))
      (lookup_eq : p.shared.ledger.lookup key = some r) (applied : mutation.apply r = .ok r')
      (ledger_eq : p'.shared.ledger = p.shared.ledger.insert key r')

theorem ledgerStep (hguarded : (P.host svc).Guarded (P.rely svc envelope)
      P.Proper P.Promise p) (h : (P.host svc).next p event = some p') :
    LedgerStep p event p' := by
  cases event with
  | call request =>
    rw [Host.next_call h]
    exact .kept rfl
  | finish ticket =>
    obtain ⟨_, _, _, _, _, rfl⟩ := Host.next_finish h
    exact .kept rfl
  | stop ticket =>
    obtain rfl := Option.some.inj h
    exact .kept rfl
  | outside call =>
    obtain rfl := Option.some.inj h
    exact .kept rfl
  | act ticket choice =>
    obtain ⟨request, q, k, hthread, rfl⟩ := Host.next_act h
    have hproper := (hguarded.threads _ _ _ hthread p.shared (Le.refl _) hguarded.inv).1
    cases q with
    | get | childrenOf => exact .kept rfl
    | replicate | authorizeEffect | close | revoke =>
      exact .kept (exchange_ledger _ _ _ _ _ _)
    | putIfAbsent record =>
      cases hlookup : p.shared.ledger.lookup record.key with
      | some stored =>
        have heq : p.shared.putIfAbsent record = (stored, p.shared) := by
          simp only [putIfAbsent, hlookup]
        exact .kept (congrArg (fun x => x.2.ledger) heq)
      | none =>
        have heq : p.shared.putIfAbsent record = (record,
            { p.shared with ledger := p.shared.ledger.insert record.key record }) := by
          simp only [putIfAbsent, hlookup]
        exact .put hlookup hproper.1 (congrArg (fun x => x.2.ledger) heq)
    | update key mutation =>
      cases hlookup : p.shared.ledger.lookup key with
      | none =>
        have heq : p.shared.update key mutation = (.error .taskNotFound, p.shared) := by
          simp only [TaskWorld.update, hlookup]
        exact .kept (congrArg (fun x => x.2.ledger) heq)
      | some r =>
        cases happly : mutation.apply r with
        | error e =>
          have heq : p.shared.update key mutation = (.error e, p.shared) := by
            simp only [TaskWorld.update, hlookup, happly]
          exact .kept (congrArg (fun x => x.2.ledger) heq)
        | ok r' =>
          have heq : p.shared.update key mutation = (.ok r',
              { p.shared with ledger := p.shared.ledger.insert key r' }) := by
            simp only [TaskWorld.update, hlookup, happly]
          exact .updated rfl hthread hlookup happly (congrArg (fun x => x.2.ledger) heq)

theorem settled_insert {w w' : TaskWorld d Hash} {key : TaskKey} {r' : TaskRecord d}
    (hledger : w'.ledger = w.ledger.insert key r')
    (hstate : ∀ r, w.ledger.lookup key = some r → r.state.isTerminal = true →
      r'.state = r.state) : w.Settled w' := by
  intro key' r hr hterminal
  rw [hledger]
  by_cases hkey : key' = key
  · subst hkey
    exact ⟨r', AList.lookup_insert _, hstate r hr hterminal⟩
  · exact ⟨r, (AList.lookup_insert_ne hkey).trans hr, rfl⟩

theorem rejectedUnbound_insert {w w' : TaskWorld d Hash} {key : TaskKey} {r' : TaskRecord d}
    (hledger : w'.ledger = w.ledger.insert key r') (hw : w.RejectedUnbound)
    (hr' : r'.state = .rejected → r'.leaseId = none) : w'.RejectedUnbound := by
  intro key' r hr hstate
  rw [hledger, Table.lookup_insert_eq] at hr
  split_ifs at hr with hkey
  · obtain rfl := Option.some.inj hr
    exact hr' hstate
  · exact hw key' r hr hstate

/-- An event keeps every end final and every rejected task without a lease exactly if it is
timely. -/
theorem timely_iff (hguarded : (P.host svc).Guarded (P.rely svc envelope)
      P.Proper P.Promise p) (hunbound : p.shared.RejectedUnbound)
    (h : (P.host svc).next p event = some p') :
    p.shared.Settled p'.shared ∧ p'.shared.RejectedUnbound ↔ TaskPool.Timely p event := by
  constructor
  · rintro ⟨hsettled, hunbound'⟩ ticket choice request key mutation k rfl hthread r hr
    obtain ⟨_, _, _, hthread', rfl⟩ := Host.next_act h
    obtain ⟨rfl, hask⟩ := Prod.mk.inj (some_unique hthread hthread')
    obtain ⟨rfl, hk⟩ := Prog.ask.inj hask
    have hupdate : ∀ r', mutation.apply r = .ok r' →
        (p.shared.update key mutation).2.ledger.lookup key = some r' := by
      intro r' happly
      simp only [TaskWorld.update, hr, happly]
      exact AList.lookup_insert _
    cases mutation with
    | canceled reason revokedAt =>
      have hlookup := hupdate _ rfl
      constructor
      · intro hstate
        obtain ⟨r', hr', hsame⟩ := hsettled key r hr (by rw [hstate]; rfl)
        obtain rfl := some_unique hlookup hr'
        exact absurd (hsame.trans hstate) (by simp)
      · intro hstate
        obtain ⟨r', hr', hsame⟩ := hsettled key r hr (by rw [hstate]; rfl)
        obtain rfl := some_unique hlookup hr'
        exact absurd (hsame.trans hstate) (by simp)
    | bind leaseId =>
      intro hstate
      have hnone := hunbound key r hr hstate
      have hlookup := hupdate { r with leaseId := some leaseId }
        (by simp [TaskMutation.apply, hnone, pure, Except.pure])
      exact absurd (hunbound' key _ hlookup hstate) (by simp)
    | _ => trivial
  · intro htimely
    have hle := (hguarded.le_next (fun call _ hinv => outside_ok call hinv) h).2
    cases ledgerStep hguarded h with
    | kept ledger_eq =>
      unfold TaskWorld.Settled TaskWorld.RejectedUnbound
      rw [ledger_eq]
      exact ⟨fun key r hr _ => ⟨r, hr, rfl⟩, hunbound⟩
    | put absent unbound ledger_eq =>
      refine ⟨settled_insert ledger_eq fun r hr => ?_, rejectedUnbound_insert ledger_eq hunbound
        fun _ => unbound⟩
      exact absurd (absent.symm.trans hr) (by simp)
    | @updated ticket choice request key mutation k r r' event_eq thread_eq lookup_eq applied
        ledger_eq =>
      have hmutation := htimely _ _ _ _ _ _ event_eq thread_eq r lookup_eq
      refine ⟨settled_insert ledger_eq fun r₀ hr₀ hterminal => ?_,
        rejectedUnbound_insert ledger_eq hunbound
          (TaskMutation.unbound_of_apply applied hmutation (hunbound key r lookup_eq))⟩
      obtain rfl := some_unique lookup_eq hr₀
      -- a completed or canceled task stays so in any case
      obtain ⟨r₁, hr₁, hgrows⟩ := hle.ledger key r lookup_eq
      rw [ledger_eq, AList.lookup_insert] at hr₁
      obtain rfl := Option.some.inj hr₁
      cases hstate : r.state with
      | completed => exact hgrows.completed hstate
      | canceled => exact hgrows.canceled hstate
      | failed => exact (TaskMutation.state_of_apply applied hmutation (.inl hstate)).trans hstate
      | rejected => exact (TaskMutation.state_of_apply applied hmutation (.inr hstate)).trans hstate
      | submitted | working =>
        rw [hstate] at hterminal
        cases hterminal

theorem rejectedUnbound_of_run (hdb : (svc.system envelope).Reachable db)
    (hreach : ((P.system svc db).restrict fun p event _ => TaskPool.Timely p event).Reachable p) :
    p.shared.RejectedUnbound := by
  obtain ⟨p₀, l, hinit, run⟩ := hreach
  induction run with
  | nil =>
    rw [show p₀ = _ from hinit]
    exact fun _ _ h => (by cases h)
  | snoc run step ih =>
    have hguarded := guarded hdb (System.Reachable.of_restrict ⟨_, _, hinit, run⟩)
    exact ((timely_iff hguarded ih step.1).mpr step.2).2

/-- In every interleaving whose events are all timely, a task that has ended stays as it ended and a
rejected task has no lease; and an event that is not timely breaks one or the other. -/
theorem task_ends_final (svc : WardenService d Hash) (envelope : Envelope d) (P : TaskProfile d)
    (db : Database d Hash) (hdb : (svc.system envelope).Reachable db) :
    (∀ p l p', ((P.system svc db).restrict fun p event _ => TaskPool.Timely p event).Reachable p →
      ((P.system svc db).restrict fun p event _ => TaskPool.Timely p event).Run p l p' →
      p.shared.Settled p'.shared ∧ p'.shared.RejectedUnbound) ∧
    ∀ p event p', (P.system svc db).Reachable p → p.shared.RejectedUnbound →
      (P.system svc db).Step p event p' →
      (p.shared.Settled p'.shared ∧ p'.shared.RejectedUnbound ↔ TaskPool.Timely p event) := by
  refine ⟨fun p l p' hreach run => ?_, fun p event p' hreach hunbound step =>
    timely_iff (guarded hdb hreach) hunbound step⟩
  refine ⟨?_, rejectedUnbound_of_run hdb (hreach.run run)⟩
  induction run with
  | nil => exact fun key r hr _ => ⟨r, hr, rfl⟩
  | snoc run step ih =>
    have hreach' := hreach.run run
    have hsettled := ((timely_iff (guarded hdb (System.Reachable.of_restrict hreach'))
      (rejectedUnbound_of_run hdb hreach') step.1).mpr step.2).1
    intro key r hr hterminal
    obtain ⟨r₁, hr₁, hstate₁⟩ := ih key r hr hterminal
    obtain ⟨r₂, hr₂, hstate₂⟩ := hsettled key r₁ hr₁ (hstate₁ ▸ hterminal)
    exact ⟨r₂, hr₂, hstate₂.trans hstate₁⟩

end TaskProfile

/-! ### Ends that are overwritten -/

namespace Sample

def profile : TaskProfile 1 where
  tenantId := "tenant"
  policyDigest := "v1"
  defaultCapabilities := {"act"}
  identity := operator
  audiences := AList.insert "host" "executor" ∅
  hexDigest bytes := String.ofList (bytes.map fun b => Char.ofNat b.toNat)
  shortDigest bytes := "digest-" ++ toString bytes.length
  recursionLimit := 100

def taskStore : Database 1 ℕ :=
  ((service "a").play (genesis "a" 6) [(exactly 1, registerPolicy),
    (exactly 2, .issueRoot "root" "line" (rootRequest 5))]).1

theorem taskStore_reachable :
    ((service "a").system (envelope 6)).Reachable taskStore :=
  (service "a").play_reachable (envelope 6) _

def taskKey : TaskKey := ⟨"tenant", "operator", "task"⟩

def admission : Admission 1 := ⟨"task", "context", [], "worker", units 2, {"act"}, 5⟩

def step (ticket nowNs : ℕ) (freshId : String) : TaskEvent 1 :=
  .act ticket ⟨exactly nowNs, freshId, [], .answered⟩

def tasks (events : List (TaskEvent 1)) : TaskPool 1 ℕ :=
  (profile.host (service "a")).play events (Host.pool (TaskProfile.start taskStore))

def admitting : List (TaskEvent 1) :=
  [.call (.admitCall operator admission "root"), step 0 3 "", step 0 3 "lease", step 0 3 "",
    .finish 0]

/-- A task is admitted; an effect has passed the gate when the task is marked for cancellation, and
its authorization comes when the lease has expired. -/
def failing : List (TaskEvent 1) :=
  admitting ++ [.call (.authorizeEffect operator "task" "effect" "run" "host" none none),
    step 1 4 "", step 1 4 "", step 1 4 "",
    .call (.cancelTask operator "task" "stop"), step 2 5 "", step 2 5 "",
    step 1 10 "receipt", step 1 10 "", .finish 1]

def canceling : List (TaskEvent 1) := [step 2 11 "", step 2 11 ""]

/-- Two deliveries of one admission: the clock is uncertain when the spawn of the first is served, and
the second is granted its lease before the first records the rejection. -/
def rejecting : List (TaskEvent 1) :=
  [.call (.admitCall operator admission "root"), .call (.admitCall operator admission "root"),
    step 0 3 "", step 1 3 "",
    .act 0 ⟨⟨3, 5⟩, "lease", [], .answered⟩, step 1 4 "lease", step 0 4 "", step 1 4 ""]

/-- A task is admitted and canceled, and a completion comes too late. -/
def ending : List (TaskEvent 1) :=
  admitting ++ [.call (.cancelTask operator "task" "stop"), step 1 4 "", step 1 4 "", step 1 4 "",
    step 1 4 "", step 1 4 "", .finish 1]

def completing : List (TaskEvent 1) :=
  [.call (.completeTask operator "task"), step 2 5 "", step 2 5 "", .finish 2]

def completed : TaskPool 1 ℕ := (profile.host (service "a")).play completing (tasks ending)

theorem timely_of_open {p : TaskPool 1 ℕ} (h : p.shared.ledger.anyRow
    (fun _ r => r.state = .failed ∨ r.state = .rejected) = false) (event : TaskEvent 1) :
    p.Timely event := by
  intro ticket choice request key mutation k _ _ r hr
  have hopen := not_or.mp (of_decide_eq_false (Table.anyRow_eq_false_iff.mp h key r hr))
  cases mutation with
  | canceled => exact hopen
  | bind => exact hopen.2
  | _ => trivial

theorem timely_run (events : List (TaskEvent 1)) (p : TaskPool 1 ℕ)
    (h : ∀ n ≤ events.length, ((profile.host (service "a")).play (events.take n)
      p).shared.ledger.anyRow (fun _ r => r.state = .failed ∨ r.state = .rejected) = false) :
    ∃ l, ((profile.system (service "a") taskStore).restrict fun p event _ =>
      TaskPool.Timely p event).Run p l ((profile.host (service "a")).play events p) :=
  Host.play_run_restrict _ _ fun n hn event _ => timely_of_open (h n hn) event

end Sample

open Sample

theorem task_ends_final_canceled :
    ((tasks ending).shared.ledger.lookup taskKey).map TaskRecord.state = some .canceled ∧
      ∃ r, completed.shared.ledger.lookup taskKey = some r ∧ r.state = .canceled := by
  have hstate : ((tasks ending).shared.ledger.lookup taskKey).map TaskRecord.state =
      some .canceled := by decide +kernel
  obtain ⟨l, before⟩ := timely_run ending (Host.pool (TaskProfile.start taskStore))
    (by decide +kernel)
  obtain ⟨l', run⟩ := timely_run completing (tasks ending) (by decide +kernel)
  obtain ⟨r, hr, hcanceled⟩ := Option.map_eq_some_iff.mp hstate
  have hsettled := ((TaskProfile.task_ends_final (service "a") (envelope 6) profile taskStore
    taskStore_reachable).1 _ _ _ ⟨_, l, rfl, before⟩ run).1
  obtain ⟨r', hr', hsame⟩ := hsettled taskKey r hr (by rw [hcanceled]; rfl)
  exact ⟨hstate, r', hr', hsame.trans hcanceled⟩

/-- A failed task becomes canceled, and a rejected one has a lease. -/
theorem task_end_overwritten :
    ((tasks failing).shared.ledger.lookup taskKey).map TaskRecord.state =
        some .failed ∧
      ((tasks (failing ++ canceling)).shared.ledger.lookup
        taskKey).map TaskRecord.state = some .canceled ∧
      ((tasks rejecting).shared.ledger.lookup taskKey).map
        (fun r => (r.state, r.leaseId)) = some (.rejected, some "lease") := by
  decide +kernel

end Lets
