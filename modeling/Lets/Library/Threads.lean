import Lets.Library.Runs
import Lets.Library.Table

set_option autoImplicit false

/-!
# Calls in flight on shared state

A call is a program that acts on shared state one atomic action at a time; any number of calls are
in flight, their actions interleave in any order, and a call may stop between two of them.
-/

namespace Library

/-- A program of atomic actions, which goes on with the answer to each of them. -/
inductive Prog (Q : Type) (R : Q → Type) (ε α : Type)
  | done (a : α)
  | fail (e : ε)
  | ask (q : Q) (k : R q → Prog Q R ε α)

namespace Prog

variable {Q : Type} {R : Q → Type} {ε α β : Type}

def bind : Prog Q R ε α → (α → Prog Q R ε β) → Prog Q R ε β
  | done a, f => f a
  | fail e, _ => fail e
  | ask q k, f => ask q fun r => (k r).bind f

instance : Monad (Prog Q R ε) where
  pure := done
  bind := bind

def ofExcept : Except ε α → Prog Q R ε α
  | .ok a => done a
  | .error e => fail e

def each (f : β → Prog Q R ε Unit) : List β → Prog Q R ε Unit
  | [] => done ()
  | b :: rest => (f b).bind fun _ => each f rest

end Prog

/-- What calls are made of: the answer to an action, chosen among several, the program of a request,
and what others do with the shared state. -/
structure Host (σ Q : Type) (R : Q → Type) (ε α C ρ O : Type) where
  answer : C → (q : Q) → σ → R q × σ
  program : ρ → Prog Q R ε α
  outside : O → σ → σ

/-- The shared state, the calls in flight and what the others have returned. -/
structure Pool (σ Q : Type) (R : Q → Type) (ε α ρ : Type) where
  shared : σ
  threads : Table ℕ (ρ × Prog Q R ε α)
  nextTicket : ℕ
  returned : List (ρ × Except ε α)

inductive PoolEvent (C ρ O : Type)
  | call (request : ρ)
  | act (ticket : ℕ) (choice : C)
  | finish (ticket : ℕ)
  | stop (ticket : ℕ)
  | outside (o : O)

structure Rely (σ : Type) where
  Inv : σ → Prop
  Le : σ → σ → Prop
  refl : ∀ s, Le s s
  trans : ∀ {s t u}, Le s t → Le t u → Le s u

section

variable {σ Q ε α β C ρ O : Type} {R : Q → Type}

def Ends {ε α : Type} (good : α → σ → Prop) (bad : ε → σ → Prop) : Except ε α → σ → Prop
  | .ok a => good a
  | .error e => bad e

namespace Host

variable (H : Host σ Q R ε α C ρ O)

def next (s : Pool σ Q R ε α ρ) : PoolEvent C ρ O → Option (Pool σ Q R ε α ρ)
  | .call request => some { s with
      threads := s.threads.insert s.nextTicket (request, H.program request)
      nextTicket := s.nextTicket + 1 }
  | .act ticket choice =>
    match s.threads.lookup ticket with
    | some (request, .ask q k) =>
      let (r, shared) := H.answer choice q s.shared
      some { s with shared, threads := s.threads.insert ticket (request, k r) }
    | _ => none
  | .finish ticket =>
    match s.threads.lookup ticket with
    | some (request, .done a) => some { s with
        threads := s.threads.erase ticket, returned := s.returned ++ [(request, .ok a)] }
    | some (request, .fail e) => some { s with
        threads := s.threads.erase ticket, returned := s.returned ++ [(request, .error e)] }
    | _ => none
  | .stop ticket => some { s with threads := s.threads.erase ticket }
  | .outside o => some { s with shared := H.outside o s.shared }

def pool (shared : σ) : Pool σ Q R ε α ρ := ⟨shared, ∅, 0, []⟩

def system (shared : σ) : System (Pool σ Q R ε α ρ) (PoolEvent C ρ O) where
  Init s := s = pool shared
  Step s event s' := H.next s event = some s'

def play : List (PoolEvent C ρ O) → Pool σ Q R ε α ρ → Pool σ Q R ε α ρ
  | [], s => s
  | event :: rest, s => play rest ((H.next s event).getD s)

theorem play_run (shared : σ) (events : List (PoolEvent C ρ O)) (s : Pool σ Q R ε α ρ) :
    ∃ l, l ⊆ events ∧ (H.system shared).Run s l (H.play events s) := by
  induction events generalizing s with
  | nil => exact ⟨[], List.Subset.refl _, .nil s⟩
  | cons event rest ih =>
    unfold play
    cases hnext : H.next s event with
    | none =>
      obtain ⟨l, hsub, run⟩ := ih s
      exact ⟨l, List.subset_cons_of_subset _ hsub, run⟩
    | some s' =>
      obtain ⟨l, hsub, run⟩ := ih s'
      exact ⟨event :: l, List.cons_subset_cons _ hsub, .cons hnext run⟩

theorem play_reachable (shared : σ) (events : List (PoolEvent C ρ O)) :
    (H.system shared).Reachable (H.play events (pool shared)) := by
  obtain ⟨l, _, run⟩ := H.play_run shared events (pool shared)
  exact ⟨_, l, rfl, run⟩

theorem play_run_restrict {D : Pool σ Q R ε α ρ → PoolEvent C ρ O → Pool σ Q R ε α ρ → Prop}
    (shared : σ) {events : List (PoolEvent C ρ O)} {s : Pool σ Q R ε α ρ}
    (h : ∀ n ≤ events.length, ∀ event t, D (H.play (events.take n) s) event t) :
    ∃ l, ((H.system shared).restrict D).Run s l (H.play events s) := by
  induction events generalizing s with
  | nil => exact ⟨[], .nil s⟩
  | cons event rest ih =>
    have hrest := ih fun n hn => h (n + 1) (Nat.succ_le_succ hn)
    unfold play
    cases hnext : H.next s event with
    | none =>
      rw [hnext] at hrest
      exact hrest
    | some s' =>
      rw [hnext] at hrest
      obtain ⟨l, run⟩ := hrest
      exact ⟨event :: l, .cons ⟨hnext, h 0 (Nat.zero_le _) event s'⟩ run⟩

/-! ### Safe programs -/

variable (L : Rely σ) (may : Q → σ → Prop)

/-- From the given state on, whatever the others do, the program takes no action but those it may,
each of them keeps the invariant and moves along the preorder, and the result is as promised. -/
def Safe {α : Type} (post : Except ε α → σ → Prop) : Prog Q R ε α → σ → Prop
  | .done a, s => ∀ t, L.Le s t → L.Inv t → post (.ok a) t
  | .fail e, s => ∀ t, L.Le s t → L.Inv t → post (.error e) t
  | .ask q k, s => ∀ t, L.Le s t → L.Inv t → may q t ∧ ∀ c, L.Inv (H.answer c q t).2 ∧
      L.Le t (H.answer c q t).2 ∧ Safe post (k (H.answer c q t).1) (H.answer c q t).2

section

variable {H L may} {α : Type} {post : Except ε α → σ → Prop} {s t : σ} {p : Prog Q R ε α}

theorem Safe.mono (h : H.Safe L may post p s) (hle : L.Le s t) : H.Safe L may post p t := by
  cases p with
  | done a | fail e | ask q k => exact fun u hu => h u (L.trans hle hu)

theorem safe_of_later (h : ∀ t, L.Le s t → L.Inv t → H.Safe L may post p t) :
    H.Safe L may post p s := by
  cases p with
  | done a | fail e | ask q k => exact fun t hle hinv => h t hle hinv t (L.refl t) hinv

theorem Safe.imp {post' : Except ε α → σ → Prop} (h : H.Safe L may post p s)
    (himp : ∀ result t, L.Le s t → L.Inv t → post result t → post' result t) :
    H.Safe L may post' p s := by
  induction p generalizing s with
  | done a | fail e => exact fun t hle hinv => himp _ t hle hinv (h t hle hinv)
  | ask q k ih =>
    intro t hle hinv
    refine ⟨(h t hle hinv).1, fun c => ?_⟩
    obtain ⟨hinv', hle', hsafe⟩ := (h t hle hinv).2 c
    exact ⟨hinv', hle', ih _ hsafe fun result u hu =>
      himp result u (L.trans hle (L.trans hle' hu))⟩

theorem safe_bind {P : Except ε α → σ → Prop} {post : Except ε β → σ → Prop}
    {f : α → Prog Q R ε β} (h : H.Safe L may P p s)
    (hok : ∀ a t, L.Le s t → L.Inv t → P (.ok a) t → H.Safe L may post (f a) t)
    (herror : ∀ e t, L.Le s t → L.Inv t → P (.error e) t → post (.error e) t) :
    H.Safe L may post (p.bind f) s := by
  induction p generalizing s with
  | done a => exact safe_of_later fun t hle hinv => hok a t hle hinv (h t hle hinv)
  | fail e => exact fun t hle hinv => herror e t hle hinv (h t hle hinv)
  | ask q k ih =>
    intro t hle hinv
    refine ⟨(h t hle hinv).1, fun c => ?_⟩
    obtain ⟨hinv', hle', hsafe⟩ := (h t hle hinv).2 c
    exact ⟨hinv', hle', ih _ hsafe (fun a u hu => hok a u (L.trans hle (L.trans hle' hu)))
      fun e u hu => herror e u (L.trans hle (L.trans hle' hu))⟩

theorem safe_each {P : List β → σ → Prop} {E : ε → σ → Prop} {f : β → Prog Q R ε Unit}
    {l : List β} (hP : P l s) (hmono : ∀ l s t, L.Le s t → P l s → P l t)
    (hf : ∀ b rest s, L.Inv s → P (b :: rest) s → H.Safe L may (Ends (fun _ => P rest) E) (f b) s) :
    H.Safe L may (Ends (fun _ => P []) E) (Prog.each f l) s := by
  induction l generalizing s with
  | nil => exact fun t hle _ => hmono _ _ _ hle hP
  | cons b rest ih =>
    refine safe_of_later fun u hle hinv => ?_
    exact safe_bind (hf b rest u hinv (hmono _ _ _ hle hP)) (fun a t _ _ hrest => ih hrest)
      fun e t _ _ h => h

end

/-! ### Runs of safe calls -/

/-- The shared state is as it should be, and every call in flight is safe. -/
structure Guarded (may : ρ → Q → σ → Prop) (post : ρ → Except ε α → σ → Prop)
    (s : Pool σ Q R ε α ρ) : Prop where
  inv : L.Inv s.shared
  threads : ∀ ticket request p, s.threads.lookup ticket = some (request, p) →
    H.Safe L (may request) (post request) p s.shared
  returned : ∀ entry ∈ s.returned, ∀ t, L.Le s.shared t → L.Inv t → post entry.1 entry.2 t
  tickets : ∀ ticket ∈ s.threads, ticket < s.nextTicket

variable {H L}

variable {s s' : Pool σ Q R ε α ρ}

theorem next_call {request : ρ} (h : H.next s (.call request) = some s') : s' = { s with
      threads := s.threads.insert s.nextTicket (request, H.program request)
      nextTicket := s.nextTicket + 1 } :=
  (Option.some.inj h).symm

theorem next_act {ticket : ℕ} {choice : C} (h : H.next s (.act ticket choice) = some s') :
    ∃ request q k,
      s.threads.lookup ticket = some (request, .ask q k) ∧ s' = { s with
        shared := (H.answer choice q s.shared).2
        threads := s.threads.insert ticket (request, k (H.answer choice q s.shared).1) } := by
  simp only [next] at h
  split at h
  next request q k hthread => exact ⟨request, q, k, hthread, (Option.some.inj h).symm⟩
  next => cases h

theorem next_finish {ticket : ℕ} (h : H.next s (.finish ticket) = some s') : ∃ request p result,
      s.threads.lookup ticket = some (request, p) ∧
      (p = .ofExcept result) ∧ s' = { s with
        threads := s.threads.erase ticket, returned := s.returned ++ [(request, result)] } := by
  simp only [next] at h
  split at h
  next request a hthread => exact ⟨request, _, .ok a, hthread, rfl, (Option.some.inj h).symm⟩
  next request e hthread => exact ⟨request, _, .error e, hthread, rfl, (Option.some.inj h).symm⟩
  next => cases h

theorem nextTicket_le {event : PoolEvent C ρ O} (h : H.next s event = some s') :
    s.nextTicket ≤ s'.nextTicket := by
  cases event with
  | call request =>
    rw [next_call h]
    exact Nat.le_succ _
  | act ticket choice =>
    obtain ⟨_, _, _, _, rfl⟩ := next_act h
    exact le_rfl
  | finish ticket =>
    obtain ⟨_, _, _, _, _, rfl⟩ := next_finish h
    exact le_rfl
  | stop ticket | outside o =>
    obtain rfl := Option.some.inj h
    exact le_rfl

theorem Safe.result {α : Type} {may : Q → σ → Prop} {post : Except ε α → σ → Prop} {s : σ}
    {result : Except ε α} (h : H.Safe L may post (.ofExcept result) s) :
    ∀ t, L.Le s t → L.Inv t → post result t := by
  cases result with
  | ok a => exact h
  | error e => exact h

theorem settles (shared : σ) {ticket : ℕ} {request : ρ} {p : Prog Q R ε α} (choice : C)
    (hthread : s.threads.lookup ticket = some (request, p)) :
    ∃ l t result, (H.system shared).Run s l t ∧ (∀ event ∈ l, event = .act ticket choice) ∧
      t.threads.lookup ticket = some (request, .ofExcept result) := by
  induction p generalizing s with
  | done a => exact ⟨[], s, .ok a, .nil s, (by simp), hthread⟩
  | fail e => exact ⟨[], s, .error e, .nil s, (by simp), hthread⟩
  | ask q k ih =>
    have hstep : ∃ s', H.next s (.act ticket choice) = some s' ∧ s'.threads.lookup ticket =
        some (request, k (H.answer choice q s.shared).1) := by
      simp only [next, hthread, Option.some.injEq, exists_eq_left', AList.lookup_insert]
    obtain ⟨s', hnext, hthread'⟩ := hstep
    obtain ⟨l, t, result, run, halone, hend⟩ := ih _ hthread'
    refine ⟨.act ticket choice :: l, t, result, .cons hnext run, ?_, hend⟩
    exact List.forall_mem_cons.mpr ⟨rfl, halone⟩

section

variable {may : ρ → Q → σ → Prop} {post : ρ → Except ε α → σ → Prop} {s s' : Pool σ Q R ε α ρ}
  (hprogram : ∀ request t, L.Inv t → H.Safe L (may request) (post request) (H.program request) t)
  (houtside : ∀ o t, L.Inv t → L.Inv (H.outside o t) ∧ L.Le t (H.outside o t))

include houtside

variable {event : PoolEvent C ρ O}

theorem Guarded.le_next (h : H.Guarded L may post s) (hnext : H.next s event = some s') :
    L.Inv s'.shared ∧ L.Le s.shared s'.shared := by
  cases event with
  | call request =>
    rw [next_call hnext]
    exact ⟨h.inv, L.refl _⟩
  | act ticket choice =>
    obtain ⟨request, q, k, hthread, rfl⟩ := next_act hnext
    obtain ⟨hinv, hle, _⟩ := (h.threads _ _ _ hthread s.shared (L.refl _) h.inv).2 choice
    exact ⟨hinv, hle⟩
  | finish ticket =>
    obtain ⟨_, _, _, _, _, rfl⟩ := next_finish hnext
    exact ⟨h.inv, L.refl _⟩
  | stop ticket =>
    obtain rfl := Option.some.inj hnext
    exact ⟨h.inv, L.refl _⟩
  | outside o =>
    obtain rfl := Option.some.inj hnext
    exact houtside o s.shared h.inv

/-- A call that is in flight after an event was there before, and has taken one of its actions or
none; or it has just been made. -/
theorem Guarded.thread_next (h : H.Guarded L may post s) (hnext : H.next s event = some s')
    {ticket : ℕ} {request : ρ} {p : Prog Q R ε α}
    (hthread : s'.threads.lookup ticket = some (request, p)) :
    (∃ p₀, s.threads.lookup ticket = some (request, p₀) ∧
        ∀ (may : Q → σ → Prop) post, H.Safe L may post p₀ s.shared → H.Safe L may post p s'.shared) ∨
      event = .call request ∧ ticket = s.nextTicket ∧ p = H.program request := by
  have hle := (h.le_next houtside hnext).2
  have hkept (hold : s.threads.lookup ticket = some (request, p)) :
      (∃ p₀, s.threads.lookup ticket = some (request, p₀) ∧
        ∀ (may : Q → σ → Prop) post, H.Safe L may post p₀ s.shared → H.Safe L may post p s'.shared) ∨
      event = .call request ∧ ticket = s.nextTicket ∧ p = H.program request :=
    .inl ⟨p, hold, fun may post hsafe => hsafe.mono hle⟩
  cases event with
  | call request' =>
    rw [next_call hnext, Table.lookup_insert_eq] at hthread
    split_ifs at hthread with hticket
    · obtain ⟨rfl, rfl⟩ := Prod.mk.inj (Option.some.inj hthread)
      exact .inr ⟨rfl, hticket, rfl⟩
    · exact hkept hthread
  | act ticket' choice =>
    obtain ⟨request', q, k, hthread', rfl⟩ := next_act hnext
    rw [Table.lookup_insert_eq] at hthread
    split_ifs at hthread with hticket
    · obtain ⟨rfl, rfl⟩ := Prod.mk.inj (Option.some.inj hthread)
      refine .inl ⟨_, hticket ▸ hthread', fun may post hsafe => ?_⟩
      exact ((hsafe s.shared (L.refl _) h.inv).2 choice).2.2
    · exact hkept hthread
  | finish ticket' =>
    obtain ⟨_, _, _, _, _, rfl⟩ := next_finish hnext
    exact hkept (Table.lookup_of_lookup_erase hthread)
  | stop ticket' =>
    obtain rfl := Option.some.inj hnext
    exact hkept (Table.lookup_of_lookup_erase hthread)
  | outside o =>
    obtain rfl := Option.some.inj hnext
    exact hkept hthread

include hprogram

theorem Guarded.next (h : H.Guarded L may post s) (hnext : H.next s event = some s') :
    H.Guarded L may post s' where
  inv := (h.le_next houtside hnext).1
  threads ticket request p hthread := by
    rcases h.thread_next houtside hnext hthread with ⟨p₀, hold, hsafe⟩ | ⟨_, _, rfl⟩
    · exact hsafe _ _ (h.threads _ _ _ hold)
    · exact hprogram request _ (h.le_next houtside hnext).1
  returned entry hentry t hle hinv := by
    have hkept : entry ∈ s.returned → post entry.1 entry.2 t := fun hold =>
      h.returned entry hold t (L.trans (h.le_next houtside hnext).2 hle) hinv
    cases event with
    | finish ticket =>
      obtain ⟨request, p, result, hthread, rfl, rfl⟩ := next_finish hnext
      rcases List.mem_append.mp hentry with hold | hnew
      · exact hkept hold
      · obtain rfl := List.mem_singleton.mp hnew
        exact (h.threads _ _ _ hthread).result t hle hinv
    | call request =>
      rw [next_call hnext] at hentry
      exact hkept hentry
    | act ticket choice =>
      obtain ⟨_, _, _, _, rfl⟩ := next_act hnext
      exact hkept hentry
    | stop ticket | outside o =>
      obtain rfl := Option.some.inj hnext
      exact hkept hentry
  tickets ticket hticket := by
    obtain ⟨⟨request, p⟩, hthread⟩ := Table.mem_iff_lookup.mp hticket
    rcases h.thread_next houtside hnext hthread with ⟨p₀, hold, _⟩ | ⟨rfl, rfl, _⟩
    · have hlt := h.tickets ticket (Table.mem_of_lookup hold)
      exact lt_of_lt_of_le hlt (nextTicket_le hnext)
    · rw [next_call hnext]
      exact Nat.lt_succ_self _

theorem Guarded.run {shared : σ} (h : H.Guarded L may post s) {l : List (PoolEvent C ρ O)}
    (run : (H.system shared).Run s l s') : H.Guarded L may post s' ∧ L.Le s.shared s'.shared := by
  induction run with
  | nil => exact ⟨h, L.refl _⟩
  | snoc run step ih =>
    exact ⟨ih.1.next hprogram houtside step, L.trans ih.2 (ih.1.le_next houtside step).2⟩

theorem guarded_of_reachable {shared : σ} (hinv : L.Inv shared)
    (hreach : (H.system shared).Reachable s) : H.Guarded L may post s := by
  obtain ⟨s₀, l, rfl, run⟩ := hreach
  have hstart : H.Guarded L may post (pool shared) := ⟨hinv, nofun, nofun, nofun⟩
  exact (hstart.run hprogram houtside run).1

theorem Guarded.safe_of_run {shared : σ} (h : H.Guarded L may post s) {l : List (PoolEvent C ρ O)}
    (run : (H.system shared).Run s l s') {ticket : ℕ} {request : ρ} {p : Prog Q R ε α}
    {allowed : Q → σ → Prop} {promise : Except ε α → σ → Prop}
    (hthread : s.threads.lookup ticket = some (request, p))
    (hsafe : H.Safe L allowed promise p s.shared) :
    ticket < s'.nextTicket ∧ ∀ request' p', s'.threads.lookup ticket = some (request', p') →
      request' = request ∧ H.Safe L allowed promise p' s'.shared := by
  induction run with
  | nil =>
    refine ⟨h.tickets ticket (Table.mem_of_lookup hthread), fun request' p' hthread' => ?_⟩
    obtain ⟨rfl, rfl⟩ := Prod.mk.inj (some_unique hthread hthread')
    exact ⟨rfl, hsafe⟩
  | snoc run step ih =>
    obtain ⟨hlt, hold⟩ := ih
    have hguarded := (h.run hprogram houtside run).1
    refine ⟨lt_of_lt_of_le hlt (nextTicket_le step), fun request' p' hthread' => ?_⟩
    rcases hguarded.thread_next houtside step hthread' with ⟨p₀, hp₀, hkept⟩ | ⟨_, heq, _⟩
    · obtain ⟨rfl, hsafe₀⟩ := hold _ _ hp₀
      exact ⟨rfl, hkept _ _ hsafe₀⟩
    · omega

end

end Host

end

end Library
