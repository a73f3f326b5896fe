import Lets.Remembering
import Lets.TaskProfile

set_option autoImplicit false

/-!
# What the calls of the task profile rely on

Along every interleaving a record keeps what it was admitted with and the lease it is bound to, and
its horizon only rises; what is recorded of a task agrees with its lease on the warden.
-/

namespace Lets

open Library

variable {d : ℕ} {Hash : Type}

namespace TaskRecord

def admitted (r : TaskRecord d) : TaskKey × String × String × String × Option TaskKey × String ×
    ResourceVector d × Finset String × ℕ :=
  (r.key, r.contextId, r.subjectId, r.admissionDigest, r.parent, r.parentLeaseId, r.allocation,
    r.capabilities, r.ttlNs)

def Doomed (r : TaskRecord d) : Prop :=
  r.cancelRequested = true ∨ r.state.isTerminal = true ∧ r.state ≠ .completed

structure Grows (r r' : TaskRecord d) : Prop where
  admitted : r'.admitted = r.admitted
  leaseId : ∀ l, r.leaseId = some l → r'.leaseId = some l
  horizon : r.receiptHorizonNs ≤ r'.receiptHorizonNs
  terminal : r.state.isTerminal = true → r'.state.isTerminal = true
  completed : r.state = .completed → r'.state = .completed
  doomed : r.Doomed → r'.Doomed
  canceled : r.state = .canceled → r'.state = .canceled

namespace Grows

theorem refl (r : TaskRecord d) : r.Grows r :=
  ⟨rfl, fun _ h => h, le_rfl, id, id, id, id⟩

theorem trans {r r' r'' : TaskRecord d} (h : r.Grows r') (h' : r'.Grows r'') : r.Grows r'' where
  admitted := h'.admitted.trans h.admitted
  leaseId l hl := h'.leaseId l (h.leaseId l hl)
  horizon := h.horizon.trans h'.horizon
  terminal hr := h'.terminal (h.terminal hr)
  completed hr := h'.completed (h.completed hr)
  doomed hr := h'.doomed (h.doomed hr)
  canceled hr := h'.canceled (h.canceled hr)

variable {r r' : TaskRecord d} (h : r.Grows r')
include h

theorem key_eq : r'.key = r.key := congrArg (fun x => x.1) h.admitted

theorem contextId_eq : r'.contextId = r.contextId := congrArg (fun x => x.2.1) h.admitted

theorem digest_eq : r'.admissionDigest = r.admissionDigest :=
  congrArg (fun x => x.2.2.2.1) h.admitted

theorem parent_eq : r'.parent = r.parent := congrArg (fun x => x.2.2.2.2.1) h.admitted

theorem parentLeaseId_eq : r'.parentLeaseId = r.parentLeaseId :=
  congrArg (fun x => x.2.2.2.2.2.1) h.admitted

theorem spawnRequest_eq (P : TaskProfile d) : P.spawnRequest r' = P.spawnRequest r := by
  obtain ⟨hkey, hcontext, hsubject, _, _, hparent, hallocation, hcapabilities, httl⟩ :
      r'.key = r.key ∧ r'.contextId = r.contextId ∧ r'.subjectId = r.subjectId ∧
        r'.admissionDigest = r.admissionDigest ∧ r'.parent = r.parent ∧
        r'.parentLeaseId = r.parentLeaseId ∧ r'.allocation = r.allocation ∧
        r'.capabilities = r.capabilities ∧ r'.ttlNs = r.ttlNs := by
    simpa only [TaskRecord.admitted, Prod.mk.injEq] using h.admitted
  unfold TaskProfile.spawnRequest
  rw [hkey, hcontext, hsubject, hparent, hallocation, hcapabilities, httl]

end Grows

end TaskRecord

namespace TaskWorld

def Beneath (w : TaskWorld d Hash) (key parentKey : TaskKey) : Prop :=
  ∃ r, w.ledger.lookup key = some r ∧ r.parent = some parentKey

/-- A revocation is stored for the lease of the task or of a task it descends from. -/
def Fenced (key : TaskKey) (w : TaskWorld d Hash) : Prop :=
  ∃ ancestor r leaseId, Relation.ReflTransGen w.Beneath key ancestor ∧
    w.ledger.lookup ancestor = some r ∧ r.leaseId = some leaseId ∧
    w.database.BranchFenced leaseId

def Seen (r : TaskRecord d) (w : TaskWorld d Hash) : Prop :=
  ∃ r', w.ledger.lookup r.key = some r' ∧ r.Grows r'

/-- How the ledger, the warden and the list of spawns may move. -/
structure Le (svc : WardenService d Hash) (envelope : Envelope d) (w w' : TaskWorld d Hash) :
    Prop where
  ledger : Table.Evolves TaskRecord.Grows w.ledger w'.ledger
  database : ∃ calls, (svc.system envelope).Run w.database calls w'.database
  spawns : w.spawns ⊆ w'.spawns

variable {svc : WardenService d Hash} {envelope : Envelope d} {w w' w'' : TaskWorld d Hash}

theorem Le.refl (w : TaskWorld d Hash) : Le svc envelope w w :=
  ⟨.of_eq TaskRecord.Grows.refl rfl, ⟨[], .nil _⟩, fun _ h => h⟩

theorem Le.trans (h : Le svc envelope w w') (h' : Le svc envelope w' w'') :
    Le svc envelope w w'' := by
  obtain ⟨calls, run⟩ := h.database
  obtain ⟨calls', run'⟩ := h'.database
  refine ⟨fun key r hr => ?_, ⟨_, run.trans run'⟩, fun _ he => h'.spawns (h.spawns he)⟩
  obtain ⟨r', hr', hgrows⟩ := h.ledger key r hr
  obtain ⟨r'', hr'', hgrows'⟩ := h'.ledger key r' hr'
  exact ⟨r'', hr'', hgrows.trans hgrows'⟩

section

variable (h : Le svc envelope w w')
include h

variable {leaseId : String}

theorem Le.leasedUnder {parentId : String} (hw : w.database.LeasedUnder parentId leaseId) :
    w'.database.LeasedUnder parentId leaseId := by
  obtain ⟨calls, run⟩ := h.database
  exact WardenService.kept_of_run (fun _ _ _ _ _ heffect => heffect.leasedUnder_kept) run hw

theorem Le.ended (hw : w.database.Over leaseId) : w'.database.Over leaseId := by
  obtain ⟨calls, run⟩ := h.database
  exact WardenService.kept_of_run (fun _ _ _ _ _ heffect => heffect.over_kept) run hw

theorem Le.branchFenced (hw : w.database.BranchFenced leaseId) :
    w'.database.BranchFenced leaseId := by
  obtain ⟨calls, run⟩ := h.database
  exact WardenService.kept_of_run (fun _ _ _ _ _ heffect => heffect.branchFenced_kept) run hw

theorem Le.beneath {key parentKey : TaskKey} (hw : w.Beneath key parentKey) :
    w'.Beneath key parentKey := by
  obtain ⟨r, hr, hparent⟩ := hw
  obtain ⟨r', hr', hgrows⟩ := h.ledger key r hr
  exact ⟨r', hr', hgrows.parent_eq.trans hparent⟩

theorem Le.fenced {key : TaskKey} (hw : w.Fenced key) : w'.Fenced key := by
  obtain ⟨ancestor, r, leaseId, hchain, hr, hlease, hfenced⟩ := hw
  obtain ⟨r', hr', hgrows⟩ := h.ledger ancestor r hr
  exact ⟨ancestor, r', leaseId,
    Relation.ReflTransGen.mono (fun _ _ => h.beneath) _ _ hchain, hr', hgrows.leaseId _ hlease,
    h.branchFenced hfenced⟩

theorem Le.seen {r : TaskRecord d} (hw : w.Seen r) : w'.Seen r := by
  obtain ⟨r₁, hr₁, hgrows⟩ := hw
  obtain ⟨r₂, hr₂, hgrows'⟩ := h.ledger _ r₁ hr₁
  exact ⟨r₂, hr₂, hgrows.trans hgrows'⟩

end

theorem Fenced.of_beneath {key parentKey : TaskKey} (h : w.Fenced parentKey)
    (hbeneath : w.Beneath key parentKey) : w.Fenced key := by
  obtain ⟨ancestor, r, leaseId, hchain, hr⟩ := h
  exact ⟨ancestor, r, leaseId, .head hbeneath hchain, hr⟩

/-! ### What a record agrees with -/

/-- A record agrees with its key, its parent, its admission, and the warden. -/
structure RecordOk (P : TaskProfile d) (key : TaskKey) (r : TaskRecord d)
    (w : TaskWorld d Hash) : Prop where
  key_eq : r.key = key
  leased : ∀ l, r.leaseId = some l → w.database.LeasedUnder r.parentLeaseId l
  beneath : ∀ parentKey, r.parent = some parentKey → ∃ parent,
    w.ledger.lookup parentKey = some parent ∧ parent.leaseId = some r.parentLeaseId
  ended : r.state = .completed → ∃ l, r.leaseId = some l ∧ w.database.Over l
  fenced : r.state = .canceled → w.Fenced key
  undecided : r.cancelRequested = true → r.state ≠ .completed
  admission : ∃ admission : Admission d, admission.subjectId = r.subjectId ∧
    admission.allocation = r.allocation ∧ admission.capabilities = r.capabilities ∧
    admission.ttlNs = r.ttlNs ∧
    P.admissionDigest admission r.parentLeaseId = .ok r.admissionDigest

variable {P : TaskProfile d}

theorem RecordOk.mono {key : TaskKey} {r : TaskRecord d} (hr : RecordOk P key r w)
    (h : Le svc envelope w w') : RecordOk P key r w' where
  key_eq := hr.key_eq
  leased l hl := h.leasedUnder (hr.leased l hl)
  beneath parentKey hparent := by
    obtain ⟨parent, hlookup, hlease⟩ := hr.beneath parentKey hparent
    obtain ⟨parent', hlookup', hgrows⟩ := h.ledger _ _ hlookup
    exact ⟨parent', hlookup', hgrows.leaseId _ hlease⟩
  ended hstate := by
    obtain ⟨l, hl, hover⟩ := hr.ended hstate
    exact ⟨l, hl, h.ended hover⟩
  fenced hstate := h.fenced (hr.fenced hstate)
  undecided := hr.undecided
  admission := hr.admission

theorem RecordOk.not_completed {key : TaskKey} {r : TaskRecord d} (hr : RecordOk P key r w)
    (hdoomed : r.Doomed) : r.state ≠ .completed := by
  rcases hdoomed with hcancel | ⟨_, hstate⟩
  · exact hr.undecided hcancel
  · exact hstate

/-- A spawn was sent as the record of its task has it, and if it was answered the answer is the one
that the warden remembers. -/
def SpawnOk (svc : WardenService d Hash) (envelope : Envelope d) (P : TaskProfile d)
    (entry : TaskKey × SpawnRequest d × Outcome (Response d)) (w : TaskWorld d Hash) : Prop :=
  ∃ r, w.ledger.lookup entry.1 = some r ∧ entry.2.1 = P.spawnRequest r ∧
    ∀ out, entry.2.2 = .ok out → ∃ grant row, out = .grant grant ∧
      (Function.Injective svc.fingerprint → svc.GrantedFor envelope entry.2.1 grant) ∧
      w.database.idempotency.lookup entry.2.1.requestId = some row ∧ row.response = out

theorem SpawnOk.mono {entry : TaskKey × SpawnRequest d × Outcome (Response d)}
    (hentry : SpawnOk svc envelope P entry w) (h : Le svc envelope w w') :
    SpawnOk svc envelope P entry w' := by
  obtain ⟨r, hr, hrequest, hreply⟩ := hentry
  obtain ⟨r', hr', hgrows⟩ := h.ledger _ r hr
  refine ⟨r', hr', hrequest.trans (hgrows.spawnRequest_eq P).symm, fun out hout => ?_⟩
  obtain ⟨grant, row, hgrant, hgranted, hrow, hresponse⟩ := hreply out hout
  obtain ⟨calls, run⟩ := h.database
  exact ⟨grant, row, hgrant, hgranted, WardenService.kept_of_run
    (Q := fun db => db.idempotency.lookup entry.2.1.requestId = some row)
    (fun _ _ _ _ _ heffect => heffect.row_remembered) run hrow, hresponse⟩

/-- What holds of the ledger, the warden and the spawns sent to it, between any two steps. -/
structure Inv (svc : WardenService d Hash) (envelope : Envelope d) (P : TaskProfile d)
    (w : TaskWorld d Hash) : Prop where
  reachable : (svc.system envelope).Reachable w.database
  records : ∀ key r, w.ledger.lookup key = some r → RecordOk P key r w
  rank : ∃ rank : TaskKey → ℕ, ∀ key parentKey, w.Beneath key parentKey → rank parentKey < rank key
  spawns : ∀ entry ∈ w.spawns, SpawnOk svc envelope P entry w

end TaskWorld

/-! ### Steps on the ledger -/

def TaskMutation.Permitted (key : TaskKey) (r : TaskRecord d) (w : TaskWorld d Hash) :
    TaskMutation → Prop
  | bind leaseId => w.database.LeasedUnder r.parentLeaseId leaseId
  | finish => ∃ l, r.leaseId = some l ∧ w.database.Over l
  | canceled _ _ => r.Doomed ∧ w.Fenced key
  | mirror => w.Fenced key
  | _ => True

namespace TaskWorld

variable {svc : WardenService d Hash} {envelope : Envelope d} {P : TaskProfile d}
  {w : TaskWorld d Hash} {key : TaskKey} {r r' : TaskRecord d} {mutation : TaskMutation}

theorem RecordOk.apply (hr : RecordOk P key r w) (hpermitted : mutation.Permitted key r w)
    (h : mutation.apply r = .ok r') : r.Grows r' ∧ RecordOk P key r' w := by
  have hsame (heq : r' = r) : r.Grows r' ∧ RecordOk P key r' w := by
    rw [heq]
    exact ⟨.refl r, hr⟩
  cases mutation with
  | gate refusal =>
    simp only [TaskMutation.apply, bind_ok_iff, require_ok_iff, exists_unit_iff, pure_ok_iff] at h
    exact hsame h.2.symm
  | bind leaseId =>
    obtain rfl := Except.ok.inj h
    split_ifs with hbound
    · exact ⟨.refl r, hr⟩
    · have hnone : r.leaseId = none := Option.not_isSome_iff_eq_none.mp hbound
      refine ⟨⟨rfl, fun l hl => ?_, le_rfl, id, id, id, id⟩, { hr with leased := ?_, ended := ?_ }⟩
      · rw [hnone] at hl
        cases hl
      · rintro l ⟨⟩
        exact hpermitted
      · intro hstate
        obtain ⟨l, hl, _⟩ := hr.ended hstate
        rw [hnone] at hl
        cases hl
  | reject =>
    obtain rfl := Except.ok.inj h
    split_ifs with hdecided
    · exact ⟨.refl r, hr⟩
    · have hopen : r.state.isTerminal ≠ true := fun hterminal => hdecided (.inr hterminal)
      refine ⟨⟨rfl, fun _ hl => hl, le_rfl, fun _ => rfl, fun hstate => ?_,
        fun _ => .inr ⟨rfl, (by simp)⟩, fun hstate => ?_⟩,
        { hr with ended := (by simp), fenced := (by simp), undecided := (by simp) }⟩
      · exact absurd (congrArg TaskState.isTerminal hstate) hopen
      · exact absurd (congrArg TaskState.isTerminal hstate) hopen
  | note horizon =>
    obtain rfl := Except.ok.inj h
    have hrises : r.receiptHorizonNs ≤ max r.receiptHorizonNs horizon := le_max_left _ _
    split_ifs with hsubmitted
    · have hopen : r.state.isTerminal ≠ true := by rw [hsubmitted]; rintro ⟨⟩
      refine ⟨⟨rfl, fun _ hl => hl, hrises, fun hstate => absurd hstate hopen,
        fun hstate => absurd (congrArg TaskState.isTerminal hstate) hopen, fun hdoomed => ?_,
        fun hstate => absurd (congrArg TaskState.isTerminal hstate) hopen⟩,
        { hr with ended := (by simp), fenced := (by simp), undecided := (by simp) }⟩
      rcases hdoomed with hcancel | ⟨hterminal, _⟩
      · exact .inl hcancel
      · exact absurd hterminal hopen
    · exact ⟨⟨rfl, fun _ hl => hl, hrises, id, id, id, id⟩, { hr with }⟩
  | fail reason =>
    obtain rfl := Except.ok.inj h
    split_ifs with hterminal
    · exact ⟨.refl r, hr⟩
    · exact ⟨⟨rfl, fun _ hl => hl, le_rfl, fun _ => rfl,
        fun hstate => absurd (congrArg TaskState.isTerminal hstate) hterminal,
        fun _ => .inr ⟨rfl, (by simp)⟩,
        fun hstate => absurd (congrArg TaskState.isTerminal hstate) hterminal⟩,
        { hr with ended := (by simp), fenced := (by simp), undecided := (by simp) }⟩
  | begin =>
    simp only [TaskMutation.apply] at h
    split_ifs at h with hcompleted
    · exact hsame (Except.ok.inj h).symm
    · simp only [bind_ok_iff, require_ok_iff, exists_unit_iff, pure_ok_iff] at h
      obtain ⟨_, rfl⟩ := h
      exact ⟨⟨rfl, fun _ hl => hl, le_rfl, id, id, id, id⟩, { hr with }⟩
  | finish =>
    simp only [TaskMutation.apply] at h
    split_ifs at h with hcompleted
    · exact hsame (Except.ok.inj h).symm
    · simp only [bind_ok_iff, require_ok_iff, exists_unit_iff, pure_ok_iff] at h
      obtain ⟨⟨hopen, hcancel⟩, rfl⟩ := h
      refine ⟨⟨rfl, fun _ hl => hl, le_rfl, fun _ => rfl, fun _ => rfl, fun hdoomed => ?_,
        fun hstate => ?_⟩,
        { hr with ended := fun _ => hpermitted, fenced := (by simp), undecided := ?_ }⟩
      · rcases hdoomed with hdoomed | ⟨hterminal, _⟩
        · exact absurd (hcancel.symm.trans hdoomed) (by simp)
        · exact absurd (hopen.symm.trans hterminal) (by simp)
      · exact absurd (hopen.symm.trans (congrArg TaskState.isTerminal hstate)) (by rintro ⟨⟩)
      · intro hrequested
        exact absurd (hcancel.symm.trans hrequested) (by simp)
  | intent =>
    simp only [TaskMutation.apply] at h
    split_ifs at h with hcanceled
    · exact hsame (Except.ok.inj h).symm
    · simp only [bind_ok_iff, require_ok_iff, exists_unit_iff, pure_ok_iff] at h
      obtain ⟨hopen, rfl⟩ := h
      refine ⟨⟨rfl, fun _ hl => hl, le_rfl, id, id, fun _ => .inl rfl, id⟩,
        { hr with undecided := ?_ }⟩
      intro _ hstate
      have hstate' : r.state = .completed := hstate
      rw [hstate'] at hopen
      cases hopen
  | canceled reason revokedAt =>
    obtain rfl := Except.ok.inj h
    obtain ⟨hdoomed, hfenced⟩ := hpermitted
    have hstate := hr.not_completed hdoomed
    exact ⟨⟨rfl, fun _ hl => hl, le_rfl, fun _ => rfl, fun heq => absurd heq hstate,
      fun _ => .inr ⟨rfl, (by simp)⟩, fun _ => rfl⟩,
      { hr with ended := (by simp), fenced := fun _ => hfenced, undecided := (by simp) }⟩
  | mirror =>
    obtain rfl := Except.ok.inj h
    split_ifs with hterminal
    · exact ⟨.refl r, hr⟩
    · exact ⟨⟨rfl, fun _ hl => hl, le_rfl, fun _ => rfl,
        fun hstate => absurd (congrArg TaskState.isTerminal hstate) hterminal,
        fun _ => .inr ⟨rfl, (by simp)⟩, fun _ => rfl⟩,
        { hr with ended := (by simp), fenced := fun _ => hpermitted, undecided := (by simp) }⟩

theorem le_insert (hw : ∀ r₀, w.ledger.lookup key = some r₀ → r₀.Grows r) :
    Le svc envelope w { w with ledger := w.ledger.insert key r } := by
  refine ⟨fun key' r₀ hr₀ => ?_, ⟨[], .nil _⟩, fun _ he => he⟩
  by_cases hkey : key' = key
  · subst hkey
    exact ⟨r, AList.lookup_insert _, hw r₀ hr₀⟩
  · exact ⟨r₀, (AList.lookup_insert_ne hkey).trans hr₀, .refl r₀⟩

theorem Inv.insert (hinv : Inv svc envelope P w)
    (hgrows : ∀ r₀, w.ledger.lookup key = some r₀ → r₀.Grows r) (hr : RecordOk P key r w) :
    Inv svc envelope P { w with ledger := w.ledger.insert key r } where
  reachable := hinv.reachable
  records key' r' hr' := by
    have hle : Le svc envelope w { w with ledger := w.ledger.insert key r } := le_insert hgrows
    have hlookup : (w.ledger.insert key r).lookup key' = some r' := hr'
    rw [Table.lookup_insert_eq] at hlookup
    split_ifs at hlookup with hkey
    · obtain rfl := Option.some.inj hlookup
      exact hkey ▸ hr.mono hle
    · exact (hinv.records key' r' hlookup).mono hle
  rank := by
    obtain ⟨rank, hrank⟩ := hinv.rank
    by_cases hmem : key ∈ w.ledger
    · -- the parent of a record is the parent it had
      refine ⟨rank, fun key' parentKey hbeneath => hrank _ _ ?_⟩
      obtain ⟨r', hr', hparent⟩ := hbeneath
      have hlookup : (w.ledger.insert key r).lookup key' = some r' := hr'
      rw [Table.lookup_insert_eq] at hlookup
      split_ifs at hlookup with hkey
      · obtain ⟨r₀, hr₀⟩ := Table.mem_iff_lookup.mp hmem
        obtain rfl := Option.some.inj hlookup
        exact ⟨r₀, hkey ▸ hr₀, (hgrows r₀ hr₀).parent_eq ▸ hparent⟩
      · exact ⟨r', hlookup, hparent⟩
    · -- no record has the new one for its parent, so it ranks above its own
      have hnew : ∀ key' r', w.ledger.lookup key' = some r' → r'.parent ≠ some key := by
        intro key' r' hr' hparent
        obtain ⟨parent, hlookup, _⟩ := (hinv.records key' r' hr').beneath key hparent
        exact hmem (Table.mem_of_lookup hlookup)
      have hown : r.parent ≠ some key := by
        intro hparent
        obtain ⟨parent, hlookup, _⟩ := hr.beneath key hparent
        exact hmem (Table.mem_of_lookup hlookup)
      refine ⟨fun k => if k = key then (r.parent.map rank).getD 0 + 1 else rank k,
        fun key' parentKey hbeneath => ?_⟩
      obtain ⟨r', hr', hparent⟩ := hbeneath
      have hlookup : (w.ledger.insert key r).lookup key' = some r' := hr'
      rw [Table.lookup_insert_eq] at hlookup
      split_ifs at hlookup with hkey
      · obtain rfl := Option.some.inj hlookup
        have hne : parentKey ≠ key := fun heq => hown (heq ▸ hparent)
        simp only [if_neg hne, if_pos hkey, hparent, Option.map_some, Option.getD_some]
        omega
      · have hne : parentKey ≠ key := fun heq => hnew key' r' hlookup (heq ▸ hparent)
        simp only [if_neg hne, if_neg hkey]
        exact hrank _ _ ⟨r', hlookup, hparent⟩
  spawns entry hentry := (hinv.spawns entry hentry).mono (le_insert hgrows)

theorem putIfAbsent_ok (hinv : Inv svc envelope P w) (hr : RecordOk P r.key r w) :
    Inv svc envelope P (w.putIfAbsent r).2 ∧ Le svc envelope w (w.putIfAbsent r).2 ∧
      (w.putIfAbsent r).2.ledger.lookup r.key = some (w.putIfAbsent r).1 ∧
      (∀ r₀, w.ledger.lookup r.key = some r₀ → (w.putIfAbsent r).1 = r₀) ∧
      (w.ledger.lookup r.key = none → (w.putIfAbsent r).1 = r) := by
  unfold putIfAbsent
  cases hlookup : w.ledger.lookup r.key with
  | some stored => exact ⟨hinv, .refl w, hlookup, fun _ h => Option.some.inj h, (by simp)⟩
  | none =>
    have hnone : ∀ r₀, w.ledger.lookup r.key = some r₀ → r₀.Grows r := by
      intro r₀ hr₀
      rw [hlookup] at hr₀
      cases hr₀
    exact ⟨hinv.insert hnone hr, le_insert hnone, AList.lookup_insert _, (by simp), fun _ => rfl⟩

theorem update_ok (hinv : Inv svc envelope P w)
    (hpermitted : ∀ r, w.ledger.lookup key = some r → mutation.Permitted key r w) :
    Inv svc envelope P (w.update key mutation).2 ∧ Le svc envelope w (w.update key mutation).2 ∧
      (∀ r', (w.update key mutation).1 = .ok r' →
        (w.update key mutation).2.ledger.lookup key = some r' ∧ r'.key = key ∧
          ∃ r, w.ledger.lookup key = some r ∧ mutation.apply r = .ok r' ∧ r.Grows r') ∧
      ∀ e, (w.update key mutation).1 = .error e → ∀ r, w.ledger.lookup key = some r →
        mutation.apply r = .error e := by
  cases hlookup : w.ledger.lookup key with
  | none =>
    have heq : w.update key mutation = (.error .taskNotFound, w) := by simp only [update, hlookup]
    rw [heq]
    exact ⟨hinv, .refl w, (by simp), fun _ _ _ h => (by cases h)⟩
  | some r =>
    cases happly : mutation.apply r with
    | error e =>
      have heq : w.update key mutation = (.error e, w) := by simp only [update, hlookup, happly]
      rw [heq]
      refine ⟨hinv, .refl w, (by simp), fun e' he r₀ hr₀ => ?_⟩
      obtain rfl := Option.some.inj hr₀
      obtain rfl := Except.error.inj he
      exact happly
    | ok r' =>
      obtain ⟨hgrows, hr'⟩ := (hinv.records key r hlookup).apply (hpermitted r hlookup) happly
      have hgrows' : ∀ r₀, w.ledger.lookup key = some r₀ → r₀.Grows r' := by
        intro r₀ hr₀
        rwa [← some_unique hlookup hr₀]
      have heq : w.update key mutation = (.ok r', { w with ledger := w.ledger.insert key r' }) := by
        simp only [update, hlookup, happly]
      rw [heq]
      refine ⟨hinv.insert hgrows' hr', le_insert hgrows', ?_, fun _ h => (by cases h)⟩
      rintro r₁ ⟨⟩
      exact ⟨AList.lookup_insert _, hr'.key_eq, r, rfl, happly, hgrows⟩

end TaskWorld

/-! ### Steps on the warden -/

namespace TaskProfile

open TaskWorld

variable {svc : WardenService d Hash} {envelope : Envelope d} {P : TaskProfile d}
  {w : TaskWorld d Hash}

theorem run_of_serve (clock : Reading) (operation : Operation d) (db : Database d Hash) :
    (svc.system envelope).Run db [⟨clock, operation, (svc.serve clock operation db).2⟩]
      (svc.serve clock operation db).1 :=
  .cons rfl (.nil _)

theorem serve_le (choice : CallChoice) (key : TaskKey) (operation : Operation d) :
    Le svc envelope w (serve svc choice key operation w).2 :=
  ⟨.of_eq TaskRecord.Grows.refl rfl, ⟨_, run_of_serve _ _ _⟩, List.subset_append_left _ _⟩

theorem serve_inv (hinv : Inv svc envelope P w) (choice : CallChoice) (key : TaskKey)
    (operation : Operation d) (hspawn : ∀ newLeaseId request,
      operation = .spawn newLeaseId request → ∃ r, w.ledger.lookup key = some r ∧
        request = P.spawnRequest r) :
    Inv svc envelope P (serve svc choice key operation w).2 where
  reachable := hinv.reachable.run (run_of_serve _ _ _)
  records key' r hr := by
    have hle : Le svc envelope w (serve svc choice key operation w).2 := serve_le choice key operation
    exact (hinv.records key' r hr).mono hle
  rank := hinv.rank
  spawns entry hentry := by
    rcases List.mem_append.mp hentry with hold | hnew
    · exact (hinv.spawns entry hold).mono (serve_le choice key operation)
    · cases operation with
      | spawn newLeaseId request =>
        obtain rfl := List.mem_singleton.mp hnew
        obtain ⟨r, hr, hrequest⟩ := hspawn newLeaseId request rfl
        refine ⟨r, hr, hrequest, fun out hout => ?_⟩
        have hexec : svc.exec choice.clock (.spawn newLeaseId request) w.database =
            .ok ((svc.serve choice.clock (.spawn newLeaseId request) w.database).1, out) := by
          rw [← WardenService.serve_ok_iff]
          exact Prod.ext rfl hout
        obtain ⟨grant, hgrant, _, hgranted⟩ :=
          WardenService.leasedUnder_of_spawn hinv.reachable hexec
        obtain ⟨row, hrow, _, _, hresponse⟩ :=
          (WardenService.exec_ok hexec).2.2.remembered _ _ _ rfl rfl
        exact ⟨grant, row, hgrant, hgranted, hrow, hresponse⟩
      | _ => cases hnew

theorem exchange_ok {β : Type} (hinv : Inv svc envelope P w) (choice : CallChoice) (key : TaskKey)
    (checks : Outcome Unit) (operation : Operation d) (read : Response d → Outcome β)
    (hspawn : ∀ newLeaseId request, operation = .spawn newLeaseId request →
      ∃ r, w.ledger.lookup key = some r ∧ request = P.spawnRequest r) :
    Inv svc envelope P (exchange svc choice key checks operation read w).2 ∧
      Le svc envelope w (exchange svc choice key checks operation read w).2 ∧
      ∀ b, (exchange svc choice key checks operation read w).1 = .ok b → ∃ out,
        svc.exec choice.clock operation w.database =
          .ok ((exchange svc choice key checks operation read w).2.database, out) ∧
        read out = .ok b := by
  unfold exchange
  split
  · exact ⟨hinv, .refl w, (by simp)⟩
  · exact ⟨hinv, .refl w, (by simp)⟩
  · exact ⟨serve_inv hinv choice key operation hspawn, serve_le choice key operation, (by simp)⟩
  · refine ⟨serve_inv hinv choice key operation hspawn, serve_le choice key operation, ?_⟩
    intro b hb
    obtain ⟨out, hout, hread⟩ := (bind_ok_iff _ _ _).mp hb
    refine ⟨out, ?_, hread⟩
    rw [← WardenService.serve_ok_iff]
    exact Prod.ext rfl hout

def rely (svc : WardenService d Hash) (envelope : Envelope d) (P : TaskProfile d) :
    Rely (TaskWorld d Hash) where
  Inv := Inv svc envelope P
  Le := Le svc envelope
  refl := Le.refl
  trans := Le.trans

theorem outside_ok (call : Reading × Operation d) (hinv : Inv svc envelope P w) :
    (P.rely svc envelope).Inv ((P.host svc).outside call w) ∧
      (P.rely svc envelope).Le w ((P.host svc).outside call w) := by
  have hle : Le svc envelope w ((P.host svc).outside call w) :=
    ⟨.of_eq TaskRecord.Grows.refl rfl, ⟨_, run_of_serve _ _ _⟩, fun _ h => h⟩
  exact ⟨⟨hinv.reachable.run (run_of_serve _ _ _), fun key r hr => (hinv.records key r hr).mono hle,
    hinv.rank, fun entry hentry => (hinv.spawns entry hentry).mono hle⟩, hle⟩

theorem start_inv {db : Database d Hash} (hreach : (svc.system envelope).Reachable db) :
    Inv svc envelope P (start db) where
  reachable := hreach
  records _ _ h := (by cases h)
  rank := ⟨fun _ => 0, fun _ _ ⟨_, h, _⟩ => (by cases h)⟩
  spawns _ h := (by cases h)

end TaskProfile

end Lets
