import Lets.Grants
import Lets.SignedMessages
import Lets.TaskCancellation

set_option autoImplicit false

/-!
# One admission for a task

The first admission that is recorded for a task is the one that counts: every spawn sent for the
task is made with its parameters, all of them are answered with one lease, and an admission that
differs is refused before it spawns anything.
-/

namespace Lets

open Library

variable {d : ℕ} {Hash : Type}

/-- Two admissions ask for the same, with the same content up to the order of its members. -/
structure Admission.Agrees (a b : Admission d) : Prop where
  content : Json.Same (.object a.content) (.object b.content)
  subjectId : a.subjectId = b.subjectId
  allocation : a.allocation = b.allocation
  capabilities : a.capabilities = b.capabilities
  ttlNs : a.ttlNs = b.ttlNs

namespace TaskProfile

open TaskWorld

variable {svc : WardenService d Hash} {envelope : Envelope d} {P : TaskProfile d}
  {s w : TaskWorld d Hash}

/-! ### The digest of an admission -/

theorem same_of_contentDigest_eq (hhex : Function.Injective P.hexDigest) {a b : Json}
    {digest : String} (ha : P.contentDigest a = .ok digest) (hb : P.contentDigest b = .ok digest) :
    Json.Same a b := by
  simp only [contentDigest, bind_ok_iff, pure_ok_iff] at ha hb
  obtain ⟨bytes, hbytes, rfl⟩ := ha
  obtain ⟨bytes', hbytes', heq⟩ := hb
  have htext := congrArg String.toList heq
  rw [String.toList_append, String.toList_append] at htext
  obtain rfl := hhex (String.toList_inj.mp (List.append_cancel_left htext))
  exact same_of_canonicalJson_eq hbytes hbytes'

theorem agrees_of_digest_eq (hhex : Function.Injective P.hexDigest) {a b : Admission d}
    {parentLeaseId parentLeaseId' digest : String}
    (ha : P.admissionDigest a parentLeaseId = .ok digest)
    (hb : P.admissionDigest b parentLeaseId' = .ok digest) :
    a.Agrees b ∧ parentLeaseId = parentLeaseId' := by
  simp only [admissionDigest, bind_ok_iff] at ha hb
  obtain ⟨content, hcontent, ha⟩ := ha
  obtain ⟨content', hcontent', hb⟩ := hb
  have hvalues := Json.values_of_same ["content", "subject", "parent_lease", "allocation",
    "capabilities", "ttl_ns"] (by decide) (same_of_contentDigest_eq hhex ha hb) rfl rfl
  simp only [List.map_cons, List.map_nil, Json.normalize,
    Json.normalize_vector, Json.normalize_textArray, List.cons.injEq, Json.text.injEq,
    Json.number.injEq, Json.textArray_inj, Json.sortedTexts_inj, Json.vector_inj_iff,
    Int.natCast_inj, and_true, true_and, heq_eq_eq] at hvalues
  obtain ⟨rfl, hsubject, hparent, hallocation, hcapabilities, httl⟩ := hvalues
  exact ⟨⟨same_of_contentDigest_eq hhex hcontent hcontent', hsubject, hallocation, hcapabilities,
    httl⟩, hparent⟩

end TaskProfile

/-- A call repeats an admission: it has the context of the record, asks for what was first asked for,
and beneath the same lease. -/
def TaskRequest.Repeats (first : Admission d) (r : TaskRecord d) (w : TaskWorld d Hash) :
    TaskRequest d → Prop
  | admitCall _ admission parentLeaseId => admission.contextId = r.contextId ∧
      admission.Agrees first ∧ parentLeaseId = r.parentLeaseId
  | delegate _ parentKey admission => admission.contextId = r.contextId ∧
      admission.Agrees first ∧ ∀ parent leaseId, w.ledger.lookup parentKey = some parent →
        parent.leaseId = some leaseId → leaseId = r.parentLeaseId
  | _ => False

/-- The first admission of a task, as its record has it. -/
structure TaskRecord.AdmittedAs (P : TaskProfile d) (r : TaskRecord d) (first : Admission d) :
    Prop where
  subjectId : first.subjectId = r.subjectId
  allocation : first.allocation = r.allocation
  capabilities : first.capabilities = r.capabilities
  ttlNs : first.ttlNs = r.ttlNs
  digest : P.admissionDigest first r.parentLeaseId = .ok r.admissionDigest

namespace TaskProfile

open TaskWorld

variable {svc : WardenService d Hash} {envelope : Envelope d} {P : TaskProfile d}
  {s w : TaskWorld d Hash} {key : TaskKey} {r : TaskRecord d} {first : Admission d}

theorem repeats_of_promise (hhex : Function.Injective P.hexDigest)
    (hr : w.ledger.lookup key = some r) (hfirst : r.AdmittedAs P first) {request : TaskRequest d}
    {answer : TaskAnswer d} (hadmits : request.admits = some key)
    (h : P.Promise request (.ok answer) w) : request.Repeats first r w := by
  cases request with
  | admitCall identity admission parentLeaseId =>
    obtain rfl := Option.some.inj hadmits
    obtain ⟨r', hr', hcontext, hdigest⟩ := h
    obtain rfl := some_unique hr hr'
    obtain ⟨hagrees, hparent⟩ := agrees_of_digest_eq hhex hdigest hfirst.digest
    exact ⟨hcontext.symm, hagrees, hparent⟩
  | delegate identity parentKey admission =>
    obtain rfl := Option.some.inj hadmits
    obtain ⟨parent, leaseId, hlookup, hlease, r', hr', hcontext, hdigest⟩ := h
    obtain rfl := some_unique hr hr'
    obtain ⟨hagrees, hparent⟩ := agrees_of_digest_eq hhex hdigest hfirst.digest
    refine ⟨hcontext.symm, hagrees, fun parent' leaseId' hlookup' hlease' => ?_⟩
    obtain rfl := some_unique hlookup hlookup'
    exact (some_unique hlease' hlease).trans hparent
  | authorizeEffect | completeTask | cancelTask => cases hadmits

/-! ### Lines of descent -/

theorem rank_of_transGen {rank : TaskKey → ℕ}
    (hrank : ∀ key parentKey, w.Beneath key parentKey → rank parentKey < rank key)
    {key ancestor : TaskKey} (h : Relation.TransGen w.Beneath key ancestor) :
    rank ancestor < rank key := by
  induction h with
  | single hbeneath => exact hrank _ _ hbeneath
  | tail _ hbeneath ih => exact (hrank _ _ hbeneath).trans ih

theorem depth_of_descent (hinv : Inv svc envelope P w) {path : List TaskKey}
    (h : Descent w key path) (hr : w.ledger.lookup key = some r) {leaseId : String} {lease : Lease d}
    (hleaseId : r.leaseId = some leaseId)
    (hlease : w.database.leases.lookup leaseId = some lease) :
    lease.ancestorPath.length + path.length ≤ maxLineageDepth + 1 := by
  induction path generalizing key r leaseId lease with
  | nil =>
    have hvalid := (WardenService.grantsValid_of_reachable hinv.reachable _ _ hlease).1
    rw [List.length_nil]
    exact hvalid.depth_le.trans (Nat.le_succ _)
  | cons child rest ih =>
    obtain ⟨⟨r', hr', hparent⟩, hrest⟩ := List.isChain_cons_cons.mp h
    cases rest with
    | nil =>
      have hvalid := (WardenService.grantsValid_of_reachable hinv.reachable _ _ hlease).1
      exact Nat.succ_le_succ hvalid.depth_le
    | cons grandchild rest =>
      -- a child that has delegated has got its lease, one below that of the task
      obtain ⟨⟨r₂, hr₂, hparent₂⟩, _⟩ := List.isChain_cons_cons.mp hrest
      obtain ⟨r₁, hr₁, hleaseId₁⟩ := (hinv.records _ _ hr₂).beneath _ hparent₂
      obtain rfl := some_unique hr' hr₁
      obtain ⟨r₀, hr₀, hleaseId₀⟩ := (hinv.records _ _ hr').beneath _ hparent
      obtain rfl := some_unique hr hr₀
      obtain rfl := some_unique hleaseId hleaseId₀
      obtain ⟨lease₁, hlease₁, hparentId⟩ := (hinv.records _ _ hr').leased _ hleaseId₁
      obtain ⟨parent, hparentRow, _, hpath⟩ :=
        (WardenService.LeaseTree.of_reachable hinv.reachable).parent _ _ _ hlease₁ hparentId
      obtain rfl := some_unique hlease hparentRow
      have hdeeper := ih hrest hr' hleaseId₁ hlease₁
      rw [hpath, List.length_append, List.length_singleton] at hdeeper
      rw [List.length_cons]
      omega

theorem length_of_descent (hinv : Inv svc envelope P w) {path : List TaskKey}
    (h : Descent w key path) : path.length ≤ maxLineageDepth := by
  cases path with
  | nil => exact Nat.zero_le _
  | cons child rest =>
    obtain ⟨⟨r', hr', hparent⟩, _⟩ := List.isChain_cons_cons.mp h
    obtain ⟨r₀, hr₀, hleaseId⟩ := (hinv.records _ _ hr').beneath _ hparent
    obtain ⟨lease, hlease, hparentId⟩ := (hinv.records _ _ hr₀).leased _ hleaseId
    obtain ⟨_, _, _, hpath⟩ :=
      (WardenService.LeaseTree.of_reachable hinv.reachable).parent _ _ _ hlease hparentId
    have hdepth := depth_of_descent hinv h hr₀ hleaseId hlease
    rw [hpath, List.length_append, List.length_singleton] at hdepth
    omega

/-! ### One admission -/

/-- All spawns sent for a task are the one that its record stands for, and are answered with one
grant, of what was asked for. -/
theorem spawned_once (hinv : Inv svc envelope P w) (hfingerprint : Function.Injective svc.fingerprint)
    (hr : w.ledger.lookup key = some r) {request : SpawnRequest d} {reply : Outcome (Response d)}
    (hentry : (key, request, reply) ∈ w.spawns) : request = P.spawnRequest r ∧
      ∀ out, reply = .ok out → (∃ grant, out = .grant grant ∧
          svc.GrantedFor envelope (P.spawnRequest r) grant) ∧
        ∀ request' out', (key, request', .ok out') ∈ w.spawns → out' = out := by
  obtain ⟨r', hr', hrequest, hreply⟩ := hinv.spawns _ hentry
  obtain rfl := some_unique hr hr'
  have hrequest' : request = P.spawnRequest r := hrequest
  subst hrequest'
  refine ⟨rfl, fun out hout => ?_⟩
  obtain ⟨grant, row, hgrant, hgranted, hrow, hresponse⟩ := hreply out hout
  refine ⟨⟨grant, hgrant, hgranted hfingerprint⟩, fun request' out' hentry' => ?_⟩
  obtain ⟨r₁, hr₁, hrequest₁, hreply₁⟩ := hinv.spawns _ hentry'
  obtain rfl := some_unique hr hr₁
  obtain ⟨_, row₁, _, _, hrow₁, hresponse₁⟩ := hreply₁ out' rfl
  have hrequest₁' : request' = P.spawnRequest r := hrequest₁
  subst hrequest₁'
  obtain rfl := some_unique hrow hrow₁
  exact hresponse₁.symm.trans hresponse

variable {db : Database d Hash}

/-- A cascade that has begun beneath a canceled task comes to its end if it is left alone.  However it
is interleaved, when it is done everyone is over who was recorded beneath the task when it began. -/
theorem cascade_completes (hdb : (svc.system envelope).Reachable db) {p : TaskPool d Hash}
    (hp : (P.system svc db).Reachable p) {ticket depth : ℕ} (hdepth : maxLineageDepth < depth)
    {request : TaskRequest d} {answer : TaskAnswer d} (hthread : p.threads.lookup ticket =
      some (request, (cascade depth key).bind fun _ => .done answer))
    (hr : p.shared.ledger.lookup key = some r) (hstate : r.state = .canceled) :
    (∀ choice, ∃ l p' result, (P.system svc db).Run p l p' ∧
      (∀ event ∈ l, event = .act ticket choice) ∧
      p'.threads.lookup ticket = some (request, .ofExcept result)) ∧
    ∀ l p' request' result, (P.system svc db).Run p l p' →
      p'.threads.lookup ticket = some (request', .ofExcept result) →
      result = .ok answer ∧ ∀ key', Relation.TransGen p.shared.Beneath key' key →
        ∃ r', p'.shared.ledger.lookup key' = some r' ∧ r'.state.isTerminal = true := by
  refine ⟨fun choice => Host.settles _ choice hthread, fun l p' request' result run hend => ?_⟩
  have hguarded := guarded hdb hp
  have hguarded' := (hguarded.run (fun request t _ => safe_program request t)
    (fun call _ hinv => outside_ok call hinv) run).1
  have hfenced := (hguarded.inv.records key r hr).fenced hstate
  have hsafe : (P.host svc).Safe (P.rely svc envelope) (fun _ _ => True)
      (Ends (fun a t => a = answer ∧ ∀ key', Relation.TransGen p.shared.Beneath key' key →
          ∃ r, t.ledger.lookup key' = some r ∧ r.state.isTerminal = true)
        fun e t => e = .recursion ∧ ∃ path, path.length = depth ∧ Descent t key path)
      ((cascade depth key).bind fun _ => .done answer) p.shared := by
    refine Host.safe_bind (safe_cascade (fun _ _ => trivial) (fun _ _ _ => trivial) depth hfenced)
      (fun _ t _ _ h u hle' _ => ⟨rfl, fun key' hkey' => ?_⟩) fun _ _ _ _ h => h
    obtain ⟨r', hr', hterminal⟩ := h key' hkey'
    obtain ⟨r'', hr'', hgrows⟩ := hle'.ledger _ _ hr'
    exact ⟨r'', hr'', hgrows.terminal hterminal⟩
  have hlast := ((hguarded.safe_of_run (fun request t _ => safe_program request t)
    (fun call _ hinv => outside_ok call hinv) run hthread hsafe).2 _ _ hend).2.result p'.shared
    (Le.refl _) hguarded'.inv
  cases result with
  | ok a =>
    obtain ⟨rfl, hover⟩ := hlast
    exact ⟨rfl, hover⟩
  | error e =>
    obtain ⟨_, path, hlength, hdescent⟩ := hlast
    have hshort := length_of_descent hguarded'.inv hdescent
    omega

/-- One lease for a task, whatever is delivered twice, lost or sent again: every spawn sent for the
task is made with the parameters of its first recorded admission and answered with one grant, and
whoever is told that it is admitted repeats that admission. -/
theorem admission_once (svc : WardenService d Hash) (envelope : Envelope d) (P : TaskProfile d)
    (hhex : Function.Injective P.hexDigest) (hfingerprint : Function.Injective svc.fingerprint)
    (hlimit : maxLineageDepth < P.recursionLimit) (db : Database d Hash)
    (hdb : (svc.system envelope).Reachable db) (p : TaskPool d Hash)
    (hp : (P.system svc db).Reachable p) :
    (∀ key r, p.shared.ledger.lookup key = some r → (∃ first, r.AdmittedAs P first) ∧
      ∀ l p', (P.system svc db).Run p l p' →
        ∃ r', p'.shared.ledger.lookup key = some r' ∧ r'.admitted = r.admitted) ∧
    (∀ key request reply, (key, request, reply) ∈ p.shared.spawns →
      ∃ r, p.shared.ledger.lookup key = some r ∧ request = P.spawnRequest r ∧
        ∀ out, reply = .ok out →
          (∃ grant, out = .grant grant ∧ svc.GrantedFor envelope (P.spawnRequest r) grant) ∧
          ∀ request' out', (key, request', .ok out') ∈ p.shared.spawns → out' = out) ∧
    (∀ key r first, p.shared.ledger.lookup key = some r → r.AdmittedAs P first →
      (∀ ticket request spawn k,
        p.threads.lookup ticket = some (request, .ask (.replicate key spawn) k) →
        request.admits = some key → request.AdmitsOther key → request.Repeats first r p.shared) ∧
      ∀ request answer, (request, .ok answer) ∈ p.returned → request.admits = some key →
        request.Repeats first r p.shared) ∧
    (∀ key, ¬ Relation.TransGen p.shared.Beneath key key) ∧
    ∀ key r ticket request answer, p.threads.lookup ticket =
        some (request, (cascade P.recursionLimit key).bind fun _ => .done answer) →
      p.shared.ledger.lookup key = some r → r.state = .canceled →
      (∀ choice, ∃ l p' result, (P.system svc db).Run p l p' ∧
        (∀ event ∈ l, event = .act ticket choice) ∧
        p'.threads.lookup ticket = some (request, .ofExcept result)) ∧
      ∀ l p' request' result, (P.system svc db).Run p l p' →
        p'.threads.lookup ticket = some (request', .ofExcept result) →
        result = .ok answer ∧ ∀ key', Relation.TransGen p.shared.Beneath key' key →
          ∃ r', p'.shared.ledger.lookup key' = some r' ∧ r'.state.isTerminal = true := by
  have hguarded := guarded hdb hp
  refine ⟨fun key r hr => ⟨?_, fun l p' run => ?_⟩, fun key request reply hentry => ?_,
    fun key r first hr hfirst => ⟨fun ticket request spawn k hthread hadmits hother => ?_,
      fun request answer hreturned hadmits => ?_⟩, fun key hcycle => ?_,
    fun key r ticket request answer hthread hr hstate =>
      cascade_completes hdb hp hlimit hthread hr hstate⟩
  · obtain ⟨first, hsubject, hallocation, hcapabilities, httl, hdigest⟩ :=
      (hguarded.inv.records key r hr).admission
    exact ⟨first, hsubject, hallocation, hcapabilities, httl, hdigest⟩
  · have hle := (hguarded.run (fun request t _ => safe_program request t)
      (fun call _ hinv => outside_ok call hinv) run).2
    obtain ⟨r', hr', hgrows⟩ := hle.ledger _ _ hr
    exact ⟨r', hr', hgrows.admitted⟩
  · obtain ⟨r, hr, _⟩ := hguarded.inv.spawns _ hentry
    exact ⟨r, hr, spawned_once hguarded.inv hfingerprint hr hentry⟩
  · have hproper := (hguarded.threads _ _ _ hthread p.shared (Le.refl _) hguarded.inv).1
    have hanswer : TaskAnswer d := .record r
    exact repeats_of_promise hhex hr hfirst hadmits (hproper hadmits hother hanswer)
  · have hpromise := hguarded.returned _ hreturned p.shared (Le.refl _) hguarded.inv
    exact repeats_of_promise hhex hr hfirst hadmits hpromise
  · obtain ⟨rank, hrank⟩ := hguarded.inv.rank
    exact absurd (rank_of_transGen hrank hcycle) (lt_irrefl _)

end TaskProfile

namespace Sample

def optionalNumber : Option ℕ → Json
  | none => .null
  | some n => .number n

def argumentValues : Arguments 1 → List Json
  | .setRuntimeMode actor mode reason => [.number 0, .text actor, .text mode.name, .text reason]
  | .issueRoot actor subjectId allocation capabilities policyDigest ttlNs lineageId configEpoch =>
    [.number 1, .text actor, .text subjectId, allocation.json, textArray (sortedTexts capabilities),
      .text policyDigest, .number ttlNs, optionalText lineageId, .number configEpoch]
  | .spawn actor parentId subjectId allocation capabilities ttlNs requested expectedSequence
      configEpoch => [.number 2, .text actor, .text parentId, .text subjectId, allocation.json,
        textArray (sortedTexts capabilities), .number ttlNs, optionalText requested,
        optionalNumber expectedSequence, .number configEpoch]
  | .spawnRemote actor parentId targetWarden subjectId allocation capabilities ttlNs
      expectedSequence configEpoch => [.number 3, .text actor, .text parentId, .text targetWarden,
        .text subjectId, allocation.json, textArray (sortedTexts capabilities), .number ttlNs,
        optionalNumber expectedSequence, .number configEpoch]
  | .authorize actor leaseId transition audience nonce evidenceDigest expectedState
      expectedSequence configEpoch => [.number 4, .text actor, .text leaseId, .text transition,
        .text audience, .text nonce, optionalText evidenceDigest, optionalText expectedState,
        optionalNumber expectedSequence, .number configEpoch]
  | .renew actor leaseId ttlNs expectedSequence cascade configEpoch =>
    [.number 5, .text actor, .text leaseId, .number ttlNs, optionalNumber expectedSequence,
      .bool cascade, .number configEpoch]
  | .lifecycle operation actor leaseId expectedSequence configEpoch =>
    [.number 6, .text operation.name, .text actor, .text leaseId, optionalNumber expectedSequence,
      .number configEpoch]
  | .revokeBranch actor leaseId reason expectedEpoch configEpoch =>
    [.number 7, .text actor, .text leaseId, .text reason, optionalNumber expectedEpoch,
      .number configEpoch]
  | .prepareTransfer actor targetWarden amount requested configEpoch =>
    [.number 8, .text actor, .text targetWarden, amount.json, optionalText requested,
      .number configEpoch]

/-- The arguments are told apart by the text of their JSON. -/
def fingerprint (arguments : Arguments 1) : String :=
  String.ofList (Json.array (argumentValues arguments)).jsonText

theorem fingerprint_injective : Function.Injective fingerprint := by
  have hmode : ∀ a b : RuntimeMode, a.name = b.name → a = b := by
    intro a b
    cases a <;> cases b <;> decide
  have hoperation : ∀ a b : LifecycleOperation, a.name = b.name → a = b := by
    intro a b
    cases a <;> cases b <;> decide
  have hnumber : ∀ n, (optionalNumber n).normalize = optionalNumber n := by
    intro n
    cases n <;> rfl
  have hnumbers : ∀ m n, optionalNumber m = optionalNumber n → m = n := by
    intro m n h
    cases m <;> cases n <;> simp_all [optionalNumber]
  intro a b h
  have hsame := Json.same_of_jsonText_eq (String.ofList_inj.mp h)
  simp only [Json.Same, Json.normalize_array, Json.array.injEq] at hsame
  cases a <;> cases b <;>
    simp [argumentValues, Json.normalize, hnumber, Json.vector_inj_iff] at hsame <;> grind

theorem profile_hexDigest_injective : Function.Injective profile.hexDigest := by
  have hbyte : Function.Injective fun b : UInt8 => Char.ofNat b.toNat := by
    have hchar : ∀ n : Fin 256, (Char.ofNat n).toNat = n := by decide +kernel
    intro a b h
    have hnat := congrArg Char.toNat h
    rw [hchar ⟨a.toNat, a.toNat_lt⟩, hchar ⟨b.toNat, b.toNat_lt⟩] at hnat
    exact UInt8.toNat_inj.mp hnat
  intro a b h
  exact List.map_injective_iff.mpr hbyte (String.ofList_inj.mp h)

def fingerprinting : WardenService 1 ℕ := (service "a").withFingerprint fingerprint

def fingerprintedStore : Database 1 ℕ :=
  (fingerprinting.play (genesis "a" 6) [(exactly 1, registerPolicy),
    (exactly 2, .issueRoot "root" "line" (rootRequest 5))]).1

/-- The reply to the spawn of an admission is lost, and the admission is delivered again. -/
def admittedTwice : TaskPool 1 ℕ :=
  (profile.host fingerprinting).play
    [.call (.admitCall operator admission "root"), step 0 3 "",
      .act 0 ⟨exactly 3, "lease", [], .lost (.storage "timeout")⟩, .finish 0,
      .call (.admitCall operator admission "root"), step 1 4 "", step 1 4 "other", step 1 4 ""]
    (Host.pool (TaskProfile.start fingerprintedStore))

end Sample

open Sample

theorem admission_once_retried :
    (admittedTwice.shared.spawns.map fun entry => (entry.1, entry.2.2.toOption.isSome)) =
        [(taskKey, true), (taskKey, true)] ∧
      ∀ request out request' out', (taskKey, request, .ok out) ∈ admittedTwice.shared.spawns →
        (taskKey, request', .ok out') ∈ admittedTwice.shared.spawns →
        request' = request ∧ out' = out ∧
          ∃ grant, out = .grant grant ∧ fingerprinting.GrantedFor (envelope 6) request grant := by
  obtain ⟨_, hspawns, _⟩ := TaskProfile.admission_once fingerprinting (envelope 6) profile
    profile_hexDigest_injective fingerprint_injective (by decide) fingerprintedStore
    (WardenService.play_reachable _ _ _) admittedTwice (Host.play_reachable _ _ _)
  refine ⟨by decide +kernel, fun request out request' out' h h' => ?_⟩
  obtain ⟨r, hr, rfl, hout⟩ := hspawns _ _ _ h
  obtain ⟨r', hr', rfl, _⟩ := hspawns _ _ _ h'
  obtain rfl := some_unique hr hr'
  obtain ⟨hgrant, hone⟩ := hout _ rfl
  exact ⟨rfl, hone _ _ h', hgrant⟩

end Lets
