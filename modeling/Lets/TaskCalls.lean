import Lets.TaskSafety

set_option autoImplicit false

/-!
# The calls of the task profile, step by step

Each call is safe: every one of its steps keeps what all calls rely on, and its result is as
promised.
-/

namespace Lets

open Library

variable {d : ℕ} {Hash : Type}

def TaskRequest.admits : TaskRequest d → Option TaskKey
  | admitCall identity admission _ => some (identity.taskKey admission.taskId)
  | delegate identity _ admission => some (identity.taskKey admission.taskId)
  | _ => none

def TaskRequest.AdmitsOther (key : TaskKey) : TaskRequest d → Prop
  | delegate _ parentKey _ => parentKey ≠ key
  | _ => True

namespace TaskProfile

open TaskWorld

variable {svc : WardenService d Hash} {envelope : Envelope d} {P : TaskProfile d}
  {may : TaskQuery d → TaskWorld d Hash → Prop} {s : TaskWorld d Hash}

/-! ### Shared parts -/

theorem safe_raising {α : Type} (x : Outcome α) :
    (P.host svc).Safe (P.rely svc envelope) may (Ends (fun a _ => x = .ok a) fun _ _ => True)
      (raising x) s := by
  cases x with
  | ok a => exact fun _ _ _ => rfl
  | error e => exact fun _ _ _ => trivial

variable {key : TaskKey}

theorem safe_found (hmay : ∀ t, may (.get key) t) :
    (P.host svc).Safe (P.rely svc envelope) may
      (Ends (fun r t => t.Seen r ∧ r.key = key) fun _ _ => True) (found key) s := by
  intro t hle hinv
  refine ⟨hmay t, fun c => ⟨hinv, .refl t, ?_⟩⟩
  have hanswer : (P.answer svc c (.get key) t).1 = t.ledger.lookup key := rfl
  simp only [host, hanswer]
  cases hlookup : t.ledger.lookup key with
  | none => exact fun _ _ _ => trivial
  | some r =>
    have hkey := (hinv.records key r hlookup).key_eq
    have hseen : t.Seen r := ⟨r, hkey ▸ hlookup, .refl r⟩
    exact fun u hle' _ => ⟨Le.seen hle' hseen, hkey⟩

theorem safe_update {r₀ : TaskRecord d} {mutation : TaskMutation}
    (hmay : ∀ t, may (.update r₀.key mutation) t) (hseen : s.Seen r₀)
    (hpermitted : ∀ t r, Le svc envelope s t → Inv svc envelope P t →
      t.ledger.lookup r₀.key = some r → r₀.Grows r → mutation.Permitted r₀.key r t) :
    (P.host svc).Safe (P.rely svc envelope) may
      (Ends (fun r' t => t.Seen r' ∧ r₀.Grows r' ∧ ∃ r, r₀.Grows r ∧ mutation.apply r = .ok r')
        fun e _ => ∃ r, r₀.Grows r ∧ mutation.apply r = .error e)
      (updateTask r₀.key mutation) s := by
  intro t hle hinv
  obtain ⟨r, hr, hgrows⟩ := Le.seen hle hseen
  have hpermitted' : ∀ r, t.ledger.lookup r₀.key = some r → mutation.Permitted r₀.key r t := by
    intro r' hr'
    obtain rfl := some_unique hr hr'
    exact hpermitted t r hle hinv hr hgrows
  obtain ⟨hinv', hle', hok, herror⟩ := update_ok hinv hpermitted'
  refine ⟨hmay t, fun c => ⟨hinv', hle', ?_⟩⟩
  change (P.host svc).Safe (P.rely svc envelope) may _ (.ofExcept (t.update r₀.key mutation).1)
    (t.update r₀.key mutation).2
  cases hresult : (t.update r₀.key mutation).1 with
  | error e => exact fun _ _ _ => ⟨r, hgrows, herror e hresult r hr⟩
  | ok r' =>
    obtain ⟨hlookup, hkey, r₁, hr₁, happly, hgrows'⟩ := hok r' hresult
    obtain rfl := some_unique hr hr₁
    have hseen' : (t.update r₀.key mutation).2.Seen r' := ⟨r', hkey ▸ hlookup, .refl r'⟩
    exact fun u hle'' _ => ⟨Le.seen hle'' hseen', hgrows.trans hgrows', r, hgrows, happly⟩

theorem safe_accepting {r₀ : TaskRecord d} {refusal : String}
    (hmay : ∀ t, may (.update r₀.key (.gate refusal)) t) (hseen : s.Seen r₀) :
    (P.host svc).Safe (P.rely svc envelope) may
      (Ends (fun r t => t.Seen r ∧ r₀.Grows r ∧ r.state.isTerminal = false) fun _ _ => True)
      (accepting r₀.key refusal) s := by
  refine (safe_update hmay hseen fun _ _ _ _ _ _ => trivial).imp fun result t _ _ h => ?_
  cases result with
  | error e => trivial
  | ok r' =>
    obtain ⟨hseen', hgrows, r, _, happly⟩ := h
    simp only [TaskMutation.apply, bind_ok_iff, require_ok_iff, exists_unit_iff, pure_ok_iff] at happly
    obtain ⟨⟨hopen, _⟩, rfl⟩ := happly
    exact ⟨hseen', hgrows, hopen⟩

theorem safe_ensureLease {r : TaskRecord d}
    (hspawn : ∀ request t, Le svc envelope s t → may (.replicate r.key request) t)
    (hmay : ∀ mutation t, may (.update r.key mutation) t) (hseen : s.Seen r) :
    (P.host svc).Safe (P.rely svc envelope) may
      (Ends (fun r' t => t.Seen r' ∧ r.Grows r' ∧
        (r'.leaseId.isSome = true ∨ r.state.isTerminal = true)) fun _ _ => True)
      (P.ensureLease r) s := by
  unfold ensureLease
  split_ifs with hdone
  · exact fun t hle _ => ⟨Le.seen hle hseen, .refl r, hdone⟩
  · intro t hle hinv
    refine ⟨hspawn _ t hle, fun c => ?_⟩
    obtain ⟨r₁, hr₁, hgrows₁⟩ := Le.seen hle hseen
    have hown : ∀ newLeaseId request, Operation.spawn c.freshId (P.spawnRequest r) =
        .spawn newLeaseId request → ∃ r₁, t.ledger.lookup r.key = some r₁ ∧
          request = P.spawnRequest r₁ := by
      rintro _ _ ⟨⟩
      exact ⟨r₁, hr₁, (hgrows₁.spawnRequest_eq P).symm⟩
    have hexchange := exchange_ok hinv c r.key (P.checkReplicate (P.spawnRequest r))
      (.spawn c.freshId (P.spawnRequest r)) readGrant hown
    have hanswer : (P.host svc).answer c (.replicate r.key (P.spawnRequest r)) t = exchange svc c
      r.key (P.checkReplicate (P.spawnRequest r)) (.spawn c.freshId (P.spawnRequest r))
        readGrant t := rfl
    rw [hanswer]
    generalize exchange svc c r.key (P.checkReplicate (P.spawnRequest r))
      (.spawn c.freshId (P.spawnRequest r)) readGrant t = x at hexchange
    obtain ⟨reply, t'⟩ := x
    obtain ⟨hinv', hle', hok⟩ := hexchange
    refine ⟨hinv', hle', ?_⟩
    have hseen' : t'.Seen r := Le.seen hle' (Le.seen hle hseen)
    cases reply with
    | ok grant =>
      obtain ⟨out, hexec, hread⟩ := hok grant rfl
      obtain ⟨grant', rfl, hunder, _⟩ := WardenService.leasedUnder_of_spawn hinv.reachable hexec
      obtain rfl : grant' = grant := Except.ok.inj hread
      refine (safe_update (hmay _) hseen' fun u r₂ hle'' _ _ hgrows₂ => ?_).imp
        fun result u _ _ h => ?_
      · change u.database.LeasedUnder r₂.parentLeaseId grant'.leaseId
        rw [hgrows₂.parentLeaseId_eq]
        exact Le.leasedUnder hle'' hunder
      · cases result with
        | error e => trivial
        | ok r' =>
          obtain ⟨hseen'', hgrows, r₂, _, happly⟩ := h
          refine ⟨hseen'', hgrows, .inl ?_⟩
          obtain rfl := Except.ok.inj happly
          split_ifs with hbound
          · exact hbound
          · rfl
    | error e =>
      change (P.host svc).Safe (P.rely svc envelope) may _ (if e.deniesAdmission then
        (updateTask r.key .reject).bind fun _ => .fail (.lets e) else .fail (.lets e)) t'
      split_ifs with hdenies
      · exact Host.safe_bind (safe_update (hmay _) hseen' fun _ _ _ _ _ _ => trivial)
          (fun _ _ _ _ _ _ _ _ => trivial) fun _ _ _ _ _ => trivial
      · exact fun _ _ _ => trivial

variable {identity : IdentityContext}

theorem safe_owned {taskId : String} (hmay : ∀ t, may (.get (identity.taskKey taskId)) t) :
    (P.host svc).Safe (P.rely svc envelope) may
      (Ends (fun r t => t.Seen r ∧ r.key = identity.taskKey taskId) fun _ _ => True)
      (P.owned identity taskId) s :=
  Host.safe_bind (safe_raising _) (fun _ _ _ _ _ => safe_found hmay) fun _ _ _ _ _ => trivial

/-! ### The cascade -/

def Descent (w : TaskWorld d Hash) (key : TaskKey) (path : List TaskKey) : Prop :=
  List.IsChain (fun parentKey key => w.Beneath key parentKey) (key :: path)

/-- What is left to do of a cascade: whoever was recorded beneath the task is over, or beneath one of
the children that are still to be visited. -/
structure Remaining (svc : WardenService d Hash) (envelope : Envelope d) (w : TaskWorld d Hash)
    (key : TaskKey) (children : List (TaskRecord d)) (t : TaskWorld d Hash) : Prop where
  later : Le svc envelope w t
  fenced : t.Fenced key
  listed : ∀ child ∈ children, t.Seen child ∧ child.parent = some key
  visited : ∀ key', Relation.TransGen w.Beneath key' key →
    (∃ r, t.ledger.lookup key' = some r ∧ r.state.isTerminal = true) ∨
      ∃ child ∈ children, Relation.ReflTransGen w.Beneath key' child.key

variable {w : TaskWorld d Hash}

theorem Remaining.mono {t u : TaskWorld d Hash} {children : List (TaskRecord d)}
    (h : Remaining svc envelope w key children t) (hle : Le svc envelope t u) :
    Remaining svc envelope w key children u where
  later := h.later.trans hle
  fenced := hle.fenced h.fenced
  listed child hchild := ⟨hle.seen (h.listed child hchild).1, (h.listed child hchild).2⟩
  visited key' hkey' := by
    rcases h.visited key' hkey' with ⟨r, hr, hterminal⟩ | hchild
    · obtain ⟨r', hr', hgrows⟩ := hle.ledger key' r hr
      exact .inl ⟨r', hr', hgrows.terminal hterminal⟩
    · exact .inr hchild

theorem mem_childrenOf {child : TaskRecord d} :
    child ∈ w.childrenOf key ↔
      ∃ key', w.ledger.lookup key' = some child ∧ child.parent = some key := by
  unfold childrenOf
  rw [List.mem_filterMap]
  constructor
  · rintro ⟨⟨key', r⟩, hmem, hr⟩
    split_ifs at hr with hparent
    obtain rfl := Option.some.inj hr
    exact ⟨key', Table.lookup_eq_some_iff.mpr hmem, hparent⟩
  · rintro ⟨key', hlookup, hparent⟩
    exact ⟨⟨key', child⟩, Table.lookup_eq_some_iff.mp hlookup, if_pos hparent⟩

theorem remaining_of_read {t : TaskWorld d Hash} (hle : Le svc envelope w t)
    (hinv : Inv svc envelope P t) (hfenced : t.Fenced key) :
    Remaining svc envelope w key (t.childrenOf key) t where
  later := hle
  fenced := hfenced
  listed child hchild := by
    obtain ⟨key', hlookup, hparent⟩ := mem_childrenOf.mp hchild
    have hkey := (hinv.records key' child hlookup).key_eq
    exact ⟨⟨child, hkey ▸ hlookup, .refl child⟩, hparent⟩
  visited key' hkey' := by
    right
    obtain ⟨childKey, hchain, hbeneath⟩ := Relation.TransGen.tail'_iff.mp hkey'
    obtain ⟨child, hlookup, hparent⟩ := hle.beneath hbeneath
    have hkey := (hinv.records childKey child hlookup).key_eq
    exact ⟨child, mem_childrenOf.mpr ⟨childKey, hlookup, hparent⟩, hkey ▸ hchain⟩

/-- A cascade beneath a fenced task ends with everyone over who was recorded beneath it when it began,
unless there is a line of descent longer than it may nest. -/
theorem safe_cascade (hread : ∀ key t, may (.childrenOf key) t)
    (hmay : ∀ key mutation t, may (.update key mutation) t) (depth : ℕ) (hfenced : w.Fenced key) :
    (P.host svc).Safe (P.rely svc envelope) may
      (Ends (fun _ t => ∀ key', Relation.TransGen w.Beneath key' key →
          ∃ r, t.ledger.lookup key' = some r ∧ r.state.isTerminal = true)
        fun e t => e = .recursion ∧ ∃ path, path.length = depth ∧ Descent t key path)
      (cascade depth key) w := by
  induction depth generalizing key w with
  | zero => exact fun t _ _ => ⟨rfl, [], rfl, .singleton key⟩
  | succ depth ih =>
    intro t hle hinv
    refine ⟨hread key t, fun c => ⟨hinv, .refl t, ?_⟩⟩
    have hstart := remaining_of_read hle hinv (hle.fenced hfenced)
    refine (Host.safe_each (P := Remaining svc envelope w key)
      (E := fun e t => e = .recursion ∧ ∃ path, path.length = depth + 1 ∧ Descent t key path)
      hstart (fun _ _ _ hle h => h.mono hle) ?_).imp fun result u _ _ h => ?_
    · intro child rest u hinvu hremaining
      obtain ⟨hseen, hparent⟩ := hremaining.listed child List.mem_cons_self
      have hbeneath : u.Beneath child.key key := by
        obtain ⟨r, hr, hgrows⟩ := hseen
        exact ⟨r, hr, hgrows.parent_eq.trans hparent⟩
      have hfencedu : u.Fenced child.key := hremaining.fenced.of_beneath hbeneath
      refine Host.safe_bind (safe_update (hmay _ _) hseen fun v r hle' _ _ _ => hle'.fenced hfencedu)
        (fun r' v hle' hinv' h => ?_) fun e v _ _ h => ?_
      · -- the child is over, and the cascade goes on below it
        obtain ⟨hseen', hgrows, r, _, happly⟩ := h
        have hterminal : r'.state.isTerminal = true := by
          obtain rfl := Except.ok.inj happly
          split_ifs with hover
          · exact hover
          · rfl
        have hkey : r'.key = child.key := hgrows.key_eq
        refine (ih (hle'.fenced hfencedu)).imp fun result x hlex _ h => ?_
        have hlater : Le svc envelope u x := hle'.trans hlex
        cases result with
        | error e =>
          obtain ⟨rfl, path, hlength, hdescent⟩ := h
          exact ⟨rfl, child.key :: path, by rw [List.length_cons, hlength],
            .cons_cons (hlater.beneath hbeneath) hdescent⟩
        | ok a =>
          have hrest := hremaining.mono hlater
          refine ⟨hrest.later, hrest.fenced, fun c hc => hrest.listed c (List.mem_cons_of_mem _ hc),
            fun key' hkey' => ?_⟩
          rcases hrest.visited key' hkey' with hover | ⟨c, hc, hchain⟩
          · exact .inl hover
          rcases List.mem_cons.mp hc with rfl | hc
          · left
            rcases Relation.reflTransGen_iff_eq_or_transGen.mp hchain with heq | hbelow
            · obtain ⟨r₁, hr₁, hgrows₁⟩ := hlex.seen hseen'
              rw [hkey, heq] at hr₁
              exact ⟨r₁, hr₁, hgrows₁.terminal hterminal⟩
            · refine h key' (Relation.TransGen.mono (fun _ _ hb => ?_) _ _ hbelow)
              exact hle'.beneath (hremaining.later.beneath hb)
          · exact .inr ⟨c, hc, hchain⟩
      · obtain ⟨r, _, happly⟩ := h
        cases happly
    · cases result with
      | error e => exact h
      | ok a =>
        intro key' hkey'
        rcases h.visited key' hkey' with hover | ⟨_, hmem, _⟩
        · exact hover
        · cases hmem

/-! ### The calls -/

/-- The task is recorded with the context and the digest of an admission. -/
def Admitted (P : TaskProfile d) (key : TaskKey) (admission : Admission d)
    (parentLeaseId : String) (w : TaskWorld d Hash) : Prop :=
  ∃ r, w.ledger.lookup key = some r ∧ r.contextId = admission.contextId ∧
    P.admissionDigest admission parentLeaseId = .ok r.admissionDigest

def Promise (P : TaskProfile d) (request : TaskRequest d)
    (result : Except TaskError (TaskAnswer d)) (w : TaskWorld d Hash) : Prop :=
  match request, result with
  | .admitCall identity admission parentLeaseId, .ok _ =>
    Admitted P (identity.taskKey admission.taskId) admission parentLeaseId w
  | .delegate identity parentKey admission, .ok _ => ∃ parent leaseId,
      w.ledger.lookup parentKey = some parent ∧ parent.leaseId = some leaseId ∧
      Admitted P (identity.taskKey admission.taskId) admission leaseId w
  | .authorizeEffect identity taskId _ _ _ _ _, .ok (.receipt receipt) =>
    ∃ r, w.ledger.lookup (identity.taskKey taskId) = some r ∧
      receipt.expiresAtNs ≤ r.receiptHorizonNs
  | .cancelTask identity taskId _, .ok _ => w.Fenced (identity.taskKey taskId)
  | _, _ => True

/-- What a call may ask.  A record that it puts into the ledger is fresh, and it spawns a lease for the
task that it admits only if that task is recorded with the admission that the call makes. -/
def Proper (P : TaskProfile d) (request : TaskRequest d) (q : TaskQuery d) (w : TaskWorld d Hash) :
    Prop :=
  match q with
  | .putIfAbsent record => record.leaseId = none ∧ record.state = .submitted
  | .replicate key _ => request.admits = some key → request.AdmitsOther key →
      ∀ answer, P.Promise request (.ok answer) w
  | _ => True

variable {admission : Admission d} {parentLeaseId : String}

theorem recordOk_pending {digest : String} {parent : Option TaskKey}
    (hdigest : P.admissionDigest admission parentLeaseId = .ok digest)
    (hparent : ∀ parentKey, parent = some parentKey → ∃ r, s.ledger.lookup parentKey = some r ∧
      r.leaseId = some parentLeaseId) :
    RecordOk P (identity.taskKey admission.taskId)
      (pending identity admission parentLeaseId parent digest) s where
  key_eq := rfl
  leased := fun _ h => by cases h
  beneath := hparent
  ended := by rintro ⟨⟩
  fenced := by rintro ⟨⟩
  undecided := by rintro ⟨⟩
  admission := ⟨admission, rfl, rfl, rfl, rfl, hdigest⟩

theorem admissionDigest_of_checked {digest : String}
    (h : P.admissionChecked identity admission parentLeaseId = .ok digest) :
    P.admissionDigest admission parentLeaseId = .ok digest := by
  simp only [admissionChecked, bind_ok_iff, require_ok_iff, exists_unit_iff] at h
  exact h.2.2

theorem safe_admitTask {parent : Option TaskKey}
    (hput : ∀ r t, r.leaseId = none → r.state = .submitted → may (.putIfAbsent r) t)
    (hspawn : ∀ request t, Le svc envelope s t →
      Admitted P (identity.taskKey admission.taskId) admission parentLeaseId t →
      may (.replicate (identity.taskKey admission.taskId) request) t)
    (hmay : ∀ key mutation t, may (.update key mutation) t)
    (hparent : ∀ parentKey, parent = some parentKey → ∃ r, s.ledger.lookup parentKey = some r ∧
      r.leaseId = some parentLeaseId) :
    (P.host svc).Safe (P.rely svc envelope) may
      (Ends (fun _ t => Admitted P (identity.taskKey admission.taskId) admission parentLeaseId t)
        fun _ _ => True) (P.admitTask identity admission parentLeaseId parent) s := by
  refine Host.safe_bind (safe_raising _) (fun digest t hle hinv hchecked => ?_)
    fun _ _ _ _ _ => trivial
  have hdigest := admissionDigest_of_checked hchecked
  intro t' hle' hinv'
  have hlater := hle.trans hle'
  have hparent' : ∀ parentKey, parent = some parentKey → ∃ r,
      t'.ledger.lookup parentKey = some r ∧ r.leaseId = some parentLeaseId := by
    intro parentKey heq
    obtain ⟨r, hr, hlease⟩ := hparent parentKey heq
    obtain ⟨r', hr', hgrows⟩ := hlater.ledger _ _ hr
    exact ⟨r', hr', hgrows.leaseId _ hlease⟩
  obtain ⟨hinvput, hleput, hlookup, _⟩ := putIfAbsent_ok
    (r := pending identity admission parentLeaseId parent digest) hinv'
    (recordOk_pending hdigest hparent')
  have hanswer : ∀ c, (P.host svc).answer c (.putIfAbsent (pending identity admission parentLeaseId
    parent digest)) t' = t'.putIfAbsent (pending identity admission parentLeaseId parent digest) :=
    fun _ => rfl
  refine ⟨hput _ _ rfl rfl, fun c => ?_⟩
  rw [hanswer]
  refine ⟨hinvput, hleput, ?_⟩
  generalize t'.putIfAbsent (pending identity admission parentLeaseId parent digest) =
    bound at hinvput hleput hlookup
  obtain ⟨r, t''⟩ := bound
  change (P.host svc).Safe (P.rely svc envelope) may _
    ((raising (sameAdmission r admission.contextId digest)).bind fun _ =>
      (P.ensureLease r).bind fun record => .done (TaskAnswer.record record)) t''
  refine Host.safe_bind (safe_raising (sameAdmission r admission.contextId digest))
    (fun _ u hleu hinvu hsame => ?_) fun _ _ _ _ _ => trivial
  simp only [sameAdmission, bind_ok_iff, require_ok_iff, exists_unit_iff] at hsame
  obtain ⟨hcontext, hdigest'⟩ := hsame
  have hkey : r.key = identity.taskKey admission.taskId := (hinvput.records _ r hlookup).key_eq
  have hseen : u.Seen r := hleu.seen ⟨r, hkey ▸ hlookup, .refl r⟩
  have hadmitted : ∀ {x : TaskWorld d Hash}, Le svc envelope u x →
      Admitted P (identity.taskKey admission.taskId) admission parentLeaseId x := by
    intro x hlex
    obtain ⟨r₁, hr₁, hgrows₁⟩ := Le.seen hlex hseen
    refine ⟨r₁, hkey ▸ hr₁, hgrows₁.contextId_eq.trans hcontext, ?_⟩
    rw [hgrows₁.digest_eq, hdigest']
    exact hdigest
  have hlateru : Le svc envelope s u := hlater.trans (hleput.trans hleu)
  refine Host.safe_bind (safe_ensureLease (fun request x hlex => ?_) (hmay _) hseen)
    (fun r' v hlev _ _ x hlex _ => hadmitted (Le.trans hlev hlex)) fun _ _ _ _ _ => trivial
  rw [hkey]
  exact hspawn request x (hlateru.trans hlex) (hadmitted hlex)

theorem safe_delegate (identity : IdentityContext) (parentKey : TaskKey) (admission : Admission d) :
    (P.host svc).Safe (P.rely svc envelope) (P.Proper (.delegate identity parentKey admission))
      (P.Promise (.delegate identity parentKey admission)) (P.delegate identity parentKey admission)
      s := by
  refine Host.safe_bind (safe_raising _) (fun _ t₀ _ _ _ => ?_) fun _ _ _ _ _ => trivial
  split_ifs with htenant
  · exact fun _ _ _ => trivial
  refine Host.safe_bind (safe_found fun _ => trivial) (fun parent t₁ _ _ h => ?_)
    fun _ _ _ _ _ => trivial
  obtain ⟨hseen, rfl⟩ := h
  refine Host.safe_bind (safe_raising _) (fun _ t₂ hle₂ _ _ => ?_) fun _ _ _ _ _ => trivial
  have hseen₂ := hle₂.seen hseen
  refine Host.safe_bind (safe_accepting (fun _ => trivial) hseen₂) (fun _ t₃ hle₃ _ _ => ?_)
    fun _ _ _ _ _ => trivial
  have hseen₃ := hle₃.seen hseen₂
  -- this lease is for the parent, so it is not the call's own to spawn if it delegates to itself
  refine Host.safe_bind (safe_ensureLease (fun _ _ _ _ hother => absurd rfl hother)
    (fun _ _ => trivial) hseen₃) (fun r t₄ hle₄ _ h => ?_) fun _ _ _ _ _ => trivial
  obtain ⟨hseen₄, hgrows, hleased⟩ := h
  have hkey : r.key = parent.key := hgrows.key_eq
  rw [← hkey]
  refine Host.safe_bind (safe_accepting (fun _ => trivial) hseen₄) (fun r' t₅ hle₅ _ h => ?_)
    fun _ _ _ _ _ => trivial
  obtain ⟨hseen₅, hgrows', hopen⟩ := h
  -- the parent has not ended, so it had not when it was read, and has got its lease
  have hlease : ∃ leaseId, r'.leaseId = some leaseId := by
    rcases hleased with hsome | hterminal
    · obtain ⟨l, hl⟩ := Option.isSome_iff_exists.mp hsome
      exact ⟨l, hgrows'.leaseId l hl⟩
    · have hover := (hgrows.trans hgrows').terminal hterminal
      exact absurd (hopen.symm.trans hover) (by simp)
  obtain ⟨leaseId, hleaseId⟩ := hlease
  have hparent : ∃ r₁, t₅.ledger.lookup r.key = some r₁ ∧ r₁.leaseId = some leaseId := by
    obtain ⟨r₁, hr₁, hgrows₁⟩ := hseen₅
    exact ⟨r₁, hgrows'.key_eq ▸ hr₁, hgrows₁.leaseId _ hleaseId⟩
  rw [hleaseId, Option.getD_some]
  have hpromise : ∀ {t₆ : TaskWorld d Hash}, Le svc envelope t₅ t₆ →
      Admitted P (identity.taskKey admission.taskId) admission leaseId t₆ → ∀ answer,
        P.Promise (.delegate identity r.key admission) (.ok answer) t₆ := by
    intro t₆ hle₆ hadmitted answer
    obtain ⟨r₁, hr₁, hlease₁⟩ := hparent
    obtain ⟨r₂, hr₂, hgrows₂⟩ := hle₆.ledger _ _ hr₁
    exact ⟨r₂, leaseId, hr₂, hgrows₂.leaseId _ hlease₁, hadmitted⟩
  refine (safe_admitTask (fun _ _ hunbound hfresh => ⟨hunbound, hfresh⟩)
    (fun _ t₆ hle₆ hadmitted _ _ => hpromise hle₆ hadmitted) (fun _ _ _ => trivial)
    fun parentKey heq => Option.some.inj heq ▸ hparent).imp fun result t₆ hle₆ _ h => ?_
  cases result with
  | error e => trivial
  | ok answer => exact hpromise hle₆ h answer

section

variable {α : Type} {post : Except TaskError α → TaskWorld d Hash → Prop} {key : TaskKey}

theorem safe_authorize {request : AuthorizeRequest} {k : Outcome (Receipt d) → TaskProg d α}
    (hmay : ∀ t, may (.authorizeEffect key request) t)
    (h : ∀ reply t, Le svc envelope s t → Inv svc envelope P t →
      (P.host svc).Safe (P.rely svc envelope) may post (k reply) t) :
    (P.host svc).Safe (P.rely svc envelope) may post
      (.ask (.authorizeEffect key request) k) s := by
  intro t hle hinv
  refine ⟨hmay t, fun c => ?_⟩
  obtain ⟨hinv', hle', _⟩ := exchange_ok hinv c key (checkAuthorizeEffect request)
    (.authorize c.freshId request) readReceipt (by simp)
  exact ⟨hinv', hle', h _ _ (hle.trans hle') hinv'⟩

theorem safe_close {request : LifecycleRequest} {k : Outcome Unit → TaskProg d α}
    (hmay : ∀ t, may (.close key request) t)
    (h : ∀ reply t, Le svc envelope s t → Inv svc envelope P t →
      (reply = .ok () → t.database.Over request.leaseId) →
      (P.host svc).Safe (P.rely svc envelope) may post (k reply) t) :
    (P.host svc).Safe (P.rely svc envelope) may post (.ask (.close key request) k)
      s := by
  intro t hle hinv
  refine ⟨hmay t, fun c => ?_⟩
  obtain ⟨hinv', hle', hok⟩ := exchange_ok hinv c key (checkClose request)
    (.lifecycle .close c.terminated request) (fun _ => pure ()) (by simp)
  refine ⟨hinv', hle', h _ _ (hle.trans hle') hinv' fun hreply => ?_⟩
  obtain ⟨out, hexec, _⟩ := hok () hreply
  exact WardenService.over_of_close hinv.reachable hexec

theorem safe_revoke {request : RevokeBranchRequest} {k : Outcome BranchRevocation → TaskProg d α}
    (hmay : ∀ t, may (.revoke key request) t)
    (h : ∀ reply t, Le svc envelope s t → Inv svc envelope P t →
      (∀ revocation, reply = .ok revocation → t.database.BranchFenced request.leaseId) →
      (P.host svc).Safe (P.rely svc envelope) may post (k reply) t) :
    (P.host svc).Safe (P.rely svc envelope) may post (.ask (.revoke key request) k)
      s := by
  intro t hle hinv
  refine ⟨hmay t, fun c => ?_⟩
  obtain ⟨hinv', hle', hok⟩ := exchange_ok hinv c key (checkRevoke request)
    (.revokeBranch request) readRevocation (by simp)
  refine ⟨hinv', hle', h _ _ (hle.trans hle') hinv' fun revocation hreply => ?_⟩
  obtain ⟨out, hexec, _⟩ := hok revocation hreply
  exact WardenService.branchFenced_of_revoke hinv.reachable hexec

end

theorem safe_authorizeEffect (identity : IdentityContext) (taskId effectId transition
    verifiedExecutorId : String) (expectedState : Option String) (expectedSequence : Option ℕ) :
    (P.host svc).Safe (P.rely svc envelope)
      (P.Proper (.authorizeEffect identity taskId effectId transition verifiedExecutorId
        expectedState expectedSequence))
      (P.Promise (.authorizeEffect identity taskId effectId transition verifiedExecutorId
        expectedState expectedSequence))
      (P.authorizeEffect identity taskId effectId transition verifiedExecutorId expectedState
        expectedSequence) s := by
  refine Host.safe_bind (safe_owned fun _ => trivial) (fun r₀ t₀ _ _ h => ?_) fun _ _ _ _ _ => trivial
  obtain ⟨hseen₀, hkey₀⟩ := h
  refine Host.safe_bind (safe_raising _) (fun _ t₁ hle₁ _ _ => ?_) fun _ _ _ _ _ => trivial
  have hseen₁ := hle₁.seen hseen₀
  refine Host.safe_bind (safe_accepting (fun _ => trivial) hseen₁) (fun _ t₂ hle₂ _ _ => ?_)
    fun _ _ _ _ _ => trivial
  have hseen₂ := hle₂.seen hseen₁
  refine Host.safe_bind (safe_raising _) (fun audience t₃ hle₃ _ _ => ?_) fun _ _ _ _ _ => trivial
  have hseen₃ := hle₃.seen hseen₂
  refine Host.safe_bind (safe_ensureLease (fun _ _ _ => (by rintro ⟨⟩)) (fun _ _ => trivial) hseen₃)
    (fun _ t₄ hle₄ _ _ => ?_) fun _ _ _ _ _ => trivial
  have hseen₄ := hle₄.seen hseen₃
  refine Host.safe_bind (safe_accepting (fun _ => trivial) hseen₄) (fun r t₅ _ _ h => ?_)
    fun _ _ _ _ _ => trivial
  obtain ⟨hseen₅, hgrows, _⟩ := h
  have hkey : r.key = identity.taskKey taskId := hgrows.key_eq.trans hkey₀
  refine safe_authorize (fun _ => trivial) fun reply t₆ hle₆ _ => ?_
  have hseen₆ := hle₆.seen hseen₅
  cases reply with
  | ok receipt =>
    -- the horizon is moved before the receipt is returned
    refine Host.safe_bind (safe_update (fun _ => trivial) hseen₆ fun _ _ _ _ _ _ => trivial)
      (fun r' t₇ _ _ h t₈ hle₈ _ => ?_) fun _ _ _ _ _ => trivial
    obtain ⟨hseen₇, hgrows', r₁, _, happly⟩ := h
    obtain ⟨r₂, hr₂, hgrows₂⟩ := Le.seen hle₈ hseen₇
    have hkey' : r'.key = identity.taskKey taskId := hgrows'.key_eq.trans hkey
    have hnoted : receipt.expiresAtNs ≤ r'.receiptHorizonNs := by
      obtain rfl := Except.ok.inj happly
      split_ifs <;> exact le_max_right _ _
    exact ⟨r₂, hkey' ▸ hr₂, hnoted.trans hgrows₂.horizon⟩
  | error e =>
    dsimp only
    split_ifs with hexpired
    · exact Host.safe_bind (safe_update (fun _ => trivial) hseen₆ fun _ _ _ _ _ _ => trivial)
        (fun _ _ _ _ _ _ _ _ => trivial) fun _ _ _ _ _ => trivial
    · exact fun _ _ _ => trivial

theorem safe_completeTask (identity : IdentityContext) (taskId : String) :
    (P.host svc).Safe (P.rely svc envelope) (P.Proper (.completeTask identity taskId))
      (P.Promise (.completeTask identity taskId)) (P.completeTask identity taskId) s := by
  refine Host.safe_bind (safe_owned fun _ => trivial) (fun r₀ t₀ _ _ h => ?_) fun _ _ _ _ _ => trivial
  obtain ⟨hseen₀, _⟩ := h
  refine Host.safe_bind (safe_update (fun _ => trivial) hseen₀ fun _ _ _ _ _ _ => trivial)
    (fun started t₁ _ _ h => ?_) fun _ _ _ _ _ => trivial
  obtain ⟨hseen₁, _, r₁, _, happly⟩ := h
  split_ifs with hcompleted
  · exact fun _ _ _ => trivial
  have hopen : started.state.isTerminal = false := by
    simp only [TaskMutation.apply] at happly
    split_ifs at happly with hdone
    · obtain rfl := Except.ok.inj happly
      exact absurd hdone hcompleted
    · simp only [bind_ok_iff, require_ok_iff, exists_unit_iff, pure_ok_iff] at happly
      obtain ⟨⟨hopen, _⟩, rfl⟩ := happly
      exact hopen
  refine Host.safe_bind (safe_ensureLease (fun _ _ _ => (by rintro ⟨⟩)) (fun _ _ => trivial) hseen₁)
    (fun r t₂ _ _ h => ?_) fun _ _ _ _ _ => trivial
  obtain ⟨hseen₂, _, hleased⟩ := h
  refine safe_close (fun _ => trivial) fun reply t₃ hle₃ _ hover => ?_
  have hseen₃ := hle₃.seen hseen₂
  cases reply with
  | error e => exact fun _ _ _ => trivial
  | ok u =>
    refine Host.safe_bind (safe_update (fun _ => trivial) hseen₃ fun t₄ r' hle₄ _ _ hgrows => ?_)
      (fun _ _ _ _ _ _ _ _ => trivial) fun _ _ _ _ _ => trivial
    -- what was closed is the lease that the task has now
    rcases hleased with hsome | hterminal
    · obtain ⟨leaseId, hlease⟩ := Option.isSome_iff_exists.mp hsome
      have hclosed := hover rfl
      simp only [closeRequest, hlease, Option.getD_some] at hclosed
      exact ⟨leaseId, hgrows.leaseId _ hlease, Le.ended hle₄ hclosed⟩
    · exact absurd (hopen.symm.trans hterminal) (by simp)

theorem safe_cancelTask (identity : IdentityContext) (taskId reason : String) :
    (P.host svc).Safe (P.rely svc envelope) (P.Proper (.cancelTask identity taskId reason))
      (P.Promise (.cancelTask identity taskId reason)) (P.cancelTask identity taskId reason) s := by
  refine Host.safe_bind (safe_owned fun _ => trivial) (fun r₀ t₀ _ _ h => ?_) fun _ _ _ _ _ => trivial
  obtain ⟨hseen₀, hkey₀⟩ := h
  refine Host.safe_bind (safe_update (fun _ => trivial) hseen₀ fun _ _ _ _ _ _ => trivial)
    (fun marked t₁ _ hinv₁ h => ?_) fun _ _ _ _ _ => trivial
  obtain ⟨hseen₁, hgrows₁, r₁, _, happly⟩ := h
  have hkey₁ : marked.key = identity.taskKey taskId := hgrows₁.key_eq.trans hkey₀
  have hcascade : ∀ {r : TaskRecord d} {t : TaskWorld d Hash}, r.key = identity.taskKey taskId →
      t.Fenced (identity.taskKey taskId) → (P.host svc).Safe (P.rely svc envelope)
        (P.Proper (.cancelTask identity taskId reason)) (P.Promise (.cancelTask identity taskId reason))
        ((cascade P.recursionLimit r.key).bind fun _ => .done (TaskAnswer.record r)) t := by
    intro r t hkey hfenced
    rw [hkey]
    exact Host.safe_bind (safe_cascade (fun _ _ => trivial) (fun _ _ _ => trivial) _ hfenced)
      (fun _ u hle _ _ v hle' _ => Le.fenced hle' (Le.fenced hle hfenced)) fun _ _ _ _ _ => trivial
  split_ifs with hcanceled
  · obtain ⟨r, hr, hgrows⟩ := hseen₁
    exact hcascade hkey₁ (hkey₁ ▸ (hinv₁.records _ r hr).fenced (hgrows.canceled hcanceled))
  have hmarked : marked.cancelRequested = true ∧ marked.state.isTerminal = false := by
    simp only [TaskMutation.apply] at happly
    split_ifs at happly with hdone
    · obtain rfl := Except.ok.inj happly
      exact absurd hdone hcanceled
    · simp only [bind_ok_iff, require_ok_iff, exists_unit_iff, pure_ok_iff] at happly
      obtain ⟨hopen, rfl⟩ := happly
      exact ⟨rfl, hopen⟩
  refine Host.safe_bind (safe_ensureLease (fun _ _ _ => (by rintro ⟨⟩)) (fun _ _ => trivial) hseen₁)
    (fun r t₂ _ _ h => ?_) fun _ _ _ _ _ => trivial
  obtain ⟨hseen₂, hgrows₂, hleased⟩ := h
  have hkey₂ : r.key = identity.taskKey taskId := hgrows₂.key_eq.trans hkey₁
  refine safe_revoke (fun _ => trivial) fun reply t₃ hle₃ _ hfenced => ?_
  have hseen₃ := hle₃.seen hseen₂
  cases reply with
  | error e => exact fun _ _ _ => trivial
  | ok revocation =>
    rcases hleased with hsome | hterminal
    · obtain ⟨leaseId, hlease⟩ := Option.isSome_iff_exists.mp hsome
      have hrevoked := hfenced revocation rfl
      simp only [revokeRequest, hlease, Option.getD_some] at hrevoked
      -- the lease that was revoked is the task's own
      have hown : ∀ {t : TaskWorld d Hash}, Le svc envelope t₃ t →
          t.Fenced (identity.taskKey taskId) := by
        intro t hle
        obtain ⟨r', hr', hgrows⟩ := hle.seen hseen₃
        exact ⟨r.key, r', leaseId, hkey₂ ▸ .refl, hr', hgrows.leaseId _ hlease,
          hle.branchFenced hrevoked⟩
      refine Host.safe_bind (safe_update (fun _ => trivial) hseen₃ fun t₄ r' hle₄ _ _ hgrows => ?_)
        (fun r' t₄ hle₄ _ h => ?_) fun _ _ _ _ _ => trivial
      · exact ⟨(hgrows₂.trans hgrows).doomed (.inl hmarked.1), hkey₂ ▸ hown hle₄⟩
      · exact hcascade (h.2.1.key_eq.trans hkey₂) (hown hle₄)
    · exact absurd (hmarked.2.symm.trans hterminal) (by simp)

theorem safe_program (request : TaskRequest d) (t : TaskWorld d Hash) :
    (P.host svc).Safe (P.rely svc envelope) (P.Proper request) (P.Promise request)
      ((P.host svc).program request) t := by
  cases request with
  | admitCall identity admission parentLeaseId =>
    have hroot : ∀ parentKey : TaskKey, none = some parentKey → ∃ r,
      t.ledger.lookup parentKey = some r ∧ r.leaseId = some parentLeaseId := by simp
    refine (safe_admitTask (fun _ _ hunbound hfresh => ⟨hunbound, hfresh⟩)
      (fun _ _ _ hadmitted _ _ _ => hadmitted) (fun _ _ _ => trivial) hroot).imp
      fun result t _ _ h => ?_
    cases result with
    | ok answer => exact h
    | error e => trivial
  | delegate identity parentKey admission => exact safe_delegate identity parentKey admission
  | authorizeEffect => exact safe_authorizeEffect _ _ _ _ _ _ _
  | completeTask identity taskId => exact safe_completeTask identity taskId
  | cancelTask identity taskId reason => exact safe_cancelTask identity taskId reason

/-- Any number of calls, interleaved, beside a warden that others call as well. -/
def system (P : TaskProfile d) (svc : WardenService d Hash) (db : Database d Hash) :=
  (P.host svc).system (start db)

section

variable {db : Database d Hash}
  {p : Pool (TaskWorld d Hash) (TaskQuery d) TaskQuery.Reply TaskError (TaskAnswer d)
    (TaskRequest d)}

theorem guarded (hdb : (svc.system envelope).Reachable db) (h : (P.system svc db).Reachable p) :
    (P.host svc).Guarded (P.rely svc envelope) P.Proper P.Promise p :=
  Host.guarded_of_reachable (fun request t _ => safe_program request t)
    (fun call _ hinv => outside_ok call hinv) (start_inv hdb) h

end

end TaskProfile

end Lets
