import Lets.Idempotency
import Lets.LeaseTree

set_option autoImplicit false

/-!
# What a remembered reply stands for

A request id is answered from the idempotency table once it is known.
-/

namespace Lets

open Library

variable {d : ℕ} {Hash : Type}

/-! ### The scope of a request -/

def Operation.word : Operation d → String
  | setRuntimeMode _ => "set_runtime_mode"
  | issueRoot .. => "issue_root"
  | spawn .. => "spawn"
  | spawnRemote .. => "spawn_remote"
  | authorize .. => "authorize"
  | renew _ => "renew"
  | lifecycle operation _ _ => operation.name
  | revokeBranch _ => "revoke"
  | prepareTransfer .. => "prepare_transfer"
  | _ => ""

def Operation.scopeRest : Operation d → List Char
  | spawn _ req => ':' :: req.parentId.toList
  | spawnRemote _ _ req => ':' :: req.parentId.toList
  | authorize _ req => ':' :: req.leaseId.toList
  | renew req => ':' :: req.leaseId.toList
  | lifecycle _ _ req => ':' :: req.leaseId.toList
  | revokeBranch req => ':' :: req.leaseId.toList
  | prepareTransfer _ req => ':' :: req.targetWarden.toList
  | _ => []

theorem Operation.scope_eq {operation : Operation d} {scope requestId : String}
    (h : operation.request = some (scope, requestId)) :
    scope.toList = operation.word.toList ++ operation.scopeRest := by
  cases operation with
  | setRuntimeMode | issueRoot | spawn | spawnRemote | authorize | renew | lifecycle
  | revokeBranch | prepareTransfer =>
    rw [← (Prod.mk.inj (Option.some.inj h)).1]
    simp [word, scopeRest]
  | registerPolicy | ingestRevocation | reclaimExpired | acceptTransfer | finalizeTransfer
  | createTransferCheckpoint | ingestTransferCheckpoint | recordAttempt | pruneTerminal
  | pruneCompactedTransferHistory => cases h

theorem Operation.word_noColon (operation : Operation d) :
    ∀ c ∈ operation.word.toList, (c != ':') = true := by
  refine List.all_eq_true.mp ?_
  cases operation with
  | lifecycle move => cases move <;> (simp only [word, LifecycleOperation.name]; decide)
  | _ => simp only [word]; decide

theorem Operation.scopeRest_head (operation : Operation d) :
    operation.scopeRest.takeWhile (· != ':') = [] := by
  cases operation <;> rfl

theorem Operation.of_scope {operation again : Operation d} {scope id id' : String}
    (h : operation.request = some (scope, id)) (h' : again.request = some (scope, id')) :
    operation.word = again.word ∧ operation.scopeRest = again.scopeRest := by
  have hlist := (scope_eq h).symm.trans (scope_eq h')
  have hword := congrArg (List.takeWhile (· != ':')) hlist
  rw [List.takeWhile_append_of_pos operation.word_noColon,
    List.takeWhile_append_of_pos again.word_noColon, operation.scopeRest_head,
    again.scopeRest_head, List.append_nil, List.append_nil] at hword
  rw [hword] at hlist
  exact ⟨String.toList_inj.mp hword, List.append_cancel_left hlist⟩

namespace WardenService

variable {svc : WardenService d Hash} {envelope : Envelope d} {clock : Reading}
  {operation : Operation d} {db db' : Database d Hash} {out : Response d}

theorem kept_of_run {Q : Database d Hash → Prop} {calls : List (Call d)}
    (hkept : ∀ clock db operation db' out, Effect svc clock db operation db' out → Q db → Q db')
    (run : (svc.system envelope).Run db calls db') (hQ : Q db) : Q db' := by
  refine run.preserves (fun db call db' hQ step => ?_) hQ
  rcases effect_cases step with ⟨out, _, heffect⟩ | ⟨_, rfl⟩
  · exact hkept _ _ _ _ _ heffect hQ
  · exact hQ

variable {Q : Operation d → Response d → Database d Hash → Prop}

variable (hnew : ∀ clock db operation db' out, (svc.system envelope).Reachable db →
  operation.IsNew db → Effect svc clock db operation db' out → Q operation out db')

include hnew

variable (hkept : ∀ clock db operation db' out operation₀ out₀,
  Effect svc clock db operation db' out → Q operation₀ out₀ db → Q operation₀ out₀ db')

include hkept

/-- Every remembered reply is that of some operation with its scope, request id and fingerprint, and
what the operation established, if no other takes it back, still holds. -/
theorem remembered_of_reachable (hreach : (svc.system envelope).Reachable db) {requestId : String}
    {row : IdempotencyRow d} (hrow : db.idempotency.lookup requestId = some row) :
    ∃ operation, operation.request = some (row.scope, requestId) ∧
      (∀ arguments ∈ operation.arguments svc db.envelope.configEpoch,
        row.fingerprint = svc.fingerprint arguments) ∧ Q operation row.response db := by
  obtain ⟨db₀, calls, hinit, run⟩ := hreach
  induction run generalizing requestId row with
  | nil =>
    rw [show db₀ = _ from hinit] at hrow
    cases hrow
  | @snoc db₁ db₂ calls call run step ih =>
    rcases effect_cases step with ⟨out, hreply, heffect⟩ | ⟨_, rfl⟩
    · have henvelope : db₂.envelope = db₁.envelope :=
        congrArg (fun x => x.2.2) heffect.fixed_eq
      have hold (hrow₁ : db₁.idempotency.lookup requestId = some row) :
          ∃ operation, operation.request = some (row.scope, requestId) ∧
            (∀ arguments ∈ operation.arguments svc db₂.envelope.configEpoch,
              row.fingerprint = svc.fingerprint arguments) ∧ Q operation row.response db₂ := by
        obtain ⟨operation, hrequest, harguments, hQ⟩ := ih hrow₁
        rw [henvelope]
        exact ⟨operation, hrequest, harguments, hkept _ _ _ _ _ _ _ heffect hQ⟩
      rcases heffect.idempotency_eq with hsame | ⟨scope, id, fp, code, hrequest, hnone, hinsert⟩
      · exact hold (hsame ▸ hrow)
      · rw [hinsert, Table.lookup_insert_eq] at hrow
        split_ifs at hrow with hid
        · -- the row is new: it was written by this operation
          have hisNew : call.operation.IsNew db₁ := by
            intro scope' id' hrequest'
            obtain ⟨_, rfl⟩ := Prod.mk.inj (some_unique hrequest hrequest')
            exact hnone
          have hQ := hnew _ _ _ _ _ ⟨db₀, calls, hinit, run⟩ hisNew heffect
          obtain rfl := Option.some.inj hrow
          rw [hid]
          refine ⟨call.operation, hrequest, fun arguments harguments => ?_, hQ⟩
          obtain ⟨row', hrow', _, hfingerprint, _⟩ :=
            heffect.remembered scope id arguments hrequest harguments
          rw [hinsert, AList.lookup_insert] at hrow'
          obtain rfl := Option.some.inj hrow'
          exact hfingerprint
        · exact hold hrow
    · exact ih hrow

theorem stands_of_exec (hreach : (svc.system envelope).Reachable db)
    (hexec : svc.exec clock operation db = .ok (db', out)) {scope requestId : String}
    {arguments : Arguments d} (hrequest : operation.request = some (scope, requestId))
    (harguments : operation.arguments svc db'.envelope.configEpoch = some arguments) :
    ∃ first, first.request = some (scope, requestId) ∧
      (∀ arguments' ∈ first.arguments svc db'.envelope.configEpoch,
        svc.fingerprint arguments' = svc.fingerprint arguments) ∧ Q first out db' := by
  have hstep : (svc.system envelope).Step db ⟨clock, operation, .ok out⟩ db' :=
    serve_ok_iff.mpr hexec
  have hreach' := hreach.run (.cons hstep (.nil _))
  obtain ⟨row, hrow, hscope, hfingerprint, hresponse⟩ :=
    (exec_ok hexec).2.2.remembered scope requestId arguments hrequest harguments
  obtain ⟨first, hfirst, hsame, hQ⟩ := remembered_of_reachable hnew hkept hreach' hrow
  rw [hscope] at hfirst
  rw [hresponse] at hQ
  exact ⟨first, hfirst, fun arguments' h => (hsame arguments' h).symm.trans hfingerprint, hQ⟩

end WardenService

def Database.LeasedUnder (parentId leaseId : String) (db : Database d Hash) : Prop :=
  ∃ lease, db.leases.lookup leaseId = some lease ∧ lease.parentId = some parentId

/-- A lease that is closed, or has been reclaimed after its expiry. -/
def Database.Over (leaseId : String) (db : Database d Hash) : Prop :=
  ∃ lease, db.leases.lookup leaseId = some lease ∧
    (lease.status = .closed ∨ lease.status = .expired)

def Database.BranchFenced (leaseId : String) (db : Database d Hash) : Prop :=
  ∃ lease, db.leases.lookup leaseId = some lease ∧
    (lease.lineageId, leaseId) ∈ db.revocations

namespace WardenService

/-- A grant is what a spawn has asked for: its lifetime is cut at the expiry of the parent, as it was
when the lease was spawned. -/
structure GrantedFor (svc : WardenService d Hash) (envelope : Envelope d) (req : SpawnRequest d)
    (grant : LeaseGrant d) : Prop where
  parentId : grant.parentId = some req.parentId
  subjectId : grant.subjectId = req.subjectId
  allocation : grant.allocation = req.allocation
  capabilities : grant.capabilities = req.capabilities
  lifetime : ∃ db parent, (svc.system envelope).Reachable db ∧
    db.leases.lookup req.parentId = some parent ∧
    grant.expiresAtNs = min (grant.issuedAtNs + req.ttlNs) parent.expiresAtNs

/-- What a successful spawn, close or revocation has brought about for good. -/
def Stands (svc : WardenService d Hash) (envelope : Envelope d) (operation : Operation d)
    (out : Response d) (db : Database d Hash) : Prop :=
  match operation with
  | .spawn _ req => ∃ grant, out = .grant grant ∧ GrantedFor svc envelope req grant ∧
      db.LeasedUnder req.parentId grant.leaseId
  | .lifecycle .close _ req => db.Over req.leaseId
  | .revokeBranch req => db.BranchFenced req.leaseId
  | _ => True

variable {svc : WardenService d Hash} {envelope : Envelope d} {clock : Reading}
  {operation : Operation d} {db db' : Database d Hash} {out : Response d}

namespace Effect

variable (h : Effect svc clock db operation db' out)
include h

variable {leaseId : String}

theorem leasedUnder_kept {parentId : String} (hdb : db.LeasedUnder parentId leaseId) :
    db'.LeasedUnder parentId leaseId := by
  obtain ⟨lease, hlease, hparent⟩ := hdb
  obtain ⟨lease', hlease', hterms, _⟩ := h.row_terms hlease
  exact ⟨lease', hlease', (Lease.keeps hterms).parentId.trans hparent⟩

theorem over_kept (hdb : db.Over leaseId) : db'.Over leaseId := by
  obtain ⟨lease, hlease, hover⟩ := hdb
  obtain ⟨lease', hlease', _, hstep⟩ := h.row_step hlease
  rw [← hstep.status_of_over hlease hover] at hover
  exact ⟨lease', hlease', hover⟩

theorem branchFenced_kept (hdb : db.BranchFenced leaseId) : db'.BranchFenced leaseId := by
  obtain ⟨lease, hlease, hstored⟩ := hdb
  obtain ⟨lease', hlease', hterms, _⟩ := h.row_terms hlease
  refine ⟨lease', hlease', ?_⟩
  rw [(Lease.keeps hterms).lineageId]
  exact h.revocations_kept hstored

theorem stands_kept {first : Operation d} {reply : Response d}
    (hstands : Stands svc envelope first reply db) : Stands svc envelope first reply db' := by
  cases first with
  | spawn newLeaseId req =>
    obtain ⟨grant, hout, hgranted, hunder⟩ := hstands
    exact ⟨grant, hout, hgranted, h.leasedUnder_kept hunder⟩
  | lifecycle move terminated req =>
    cases move with
    | close => exact h.over_kept hstands
    | quiesce | resume => trivial
  | revokeBranch req => exact h.branchFenced_kept hstands
  | _ => trivial

omit h

theorem stands_of_spawned {newLeaseId : String} {req : SpawnRequest d}
    (hreach : (svc.system envelope).Reachable db)
    (done : Spawned svc clock newLeaseId req db db' out) :
    Stands svc envelope (.spawn newLeaseId req) out db' := by
  have hgrant := done.grant_eq
  refine ⟨done.grant, done.out_eq, ⟨?_, ?_, ?_, ?_, db, done.parent, hreach, done.parent_eq, ?_⟩,
    done.grant.toRow none done.policy.payload.initialState clock.nowNs, ?_, ?_⟩
  · rw [hgrant]; rfl
  · rw [hgrant]; rfl
  · rw [hgrant]; rfl
  · rw [hgrant]; rfl
  · rw [hgrant]; rfl
  · have hid : done.grant.leaseId = newLeaseId := by rw [hgrant]; rfl
    have hleases := congrArg Database.leases done.result
    rw [hleases, hid]
    exact AList.lookup_insert _
  · rw [hgrant]; rfl

theorem over_of_closed {terminated : List (String × LeaseStatus)} {req : LifecycleRequest}
    (done : Closed svc clock terminated req db db' out) : db'.Over req.leaseId := by
  refine ⟨Lease.moved .closed (.zero d) clock.nowNs done.lease, ?_, .inl rfl⟩
  have hlookup := Table.lookup_update req.leaseId (Lease.moved .closed (.zero d) clock.nowNs)
    db.leases req.leaseId
  rw [if_pos rfl, done.lease_eq] at hlookup
  have hleases := congrArg Database.leases done.result
  rw [hleases]
  exact hlookup

theorem stands_of_new (hreach : (svc.system envelope).Reachable db) (hnew : operation.IsNew db)
    (h : Effect svc clock db operation db' out) : Stands svc envelope operation out db' := by
  cases h with
  | replayed request recorded => exact absurd (recorded.symm.trans (hnew _ _ request)) (by simp)
  | spawned done => exact stands_of_spawned hreach done
  | @unmoved move terminated req _ _ done =>
    rcases done.already with ⟨rfl, _⟩ | ⟨rfl, _⟩ | ⟨rfl, hover⟩
    · trivial
    · trivial
    · have hleases : db'.leases = db.leases := by rw [done.result]; rfl
      exact ⟨done.lease, hleases ▸ done.lease_eq, hover⟩
  | @switched move terminated req _ _ done =>
    rcases done.moves with ⟨rfl, _⟩ | ⟨rfl, _⟩ <;> trivial
  | closed done => exact over_of_closed done
  | revokedAgain _ recorded => exact absurd (recorded.symm.trans (hnew _ _ rfl)) (by simp)
  | @branchRevoked req branch signature db₁ _ _ branch_eq request_new out_eq done result =>
    have heffect : Effect svc clock db (.revokeBranch req) db' out :=
      .branchRevoked branch_eq request_new out_eq done result
    obtain ⟨root, hroot, hstored⟩ := heffect.revocation_stored request_new
    obtain ⟨root', hroot', hterms, _⟩ := heffect.row_terms hroot
    exact ⟨root', hroot', (Lease.keeps hterms).lineageId ▸ hstored⟩
  | _ => trivial

end Effect

variable (hreach : (svc.system envelope).Reachable db)

include hreach

theorem stands_of_request (hexec : svc.exec clock operation db = .ok (db', out))
    {scope requestId : String} {arguments : Arguments d}
    (hrequest : operation.request = some (scope, requestId))
    (harguments : operation.arguments svc db'.envelope.configEpoch = some arguments) :
    ∃ first : Operation d, first.word = operation.word ∧ first.scopeRest = operation.scopeRest ∧
      (∀ arguments' ∈ first.arguments svc db'.envelope.configEpoch,
        svc.fingerprint arguments' = svc.fingerprint arguments) ∧
      Stands svc envelope first out db' := by
  obtain ⟨first, hfirst, hsame, hstands⟩ := stands_of_exec (Q := Stands svc envelope)
    (fun _ _ _ _ _ hreach hnew heffect => heffect.stands_of_new hreach hnew)
    (fun _ _ _ _ _ _ _ heffect => heffect.stands_kept) hreach hexec hrequest harguments
  obtain ⟨hword, hrest⟩ := Operation.of_scope hfirst hrequest
  exact ⟨first, hword, hrest, hsame, hstands⟩

/-- The lease that a spawn answers with is a child of the parent it was asked for; with digests that
do not collide it is the lease that was asked for. -/
theorem leasedUnder_of_spawn {newLeaseId : String} {req : SpawnRequest d}
    (hexec : svc.exec clock (.spawn newLeaseId req) db = .ok (db', out)) :
    ∃ grant, out = .grant grant ∧ db'.LeasedUnder req.parentId grant.leaseId ∧
      (Function.Injective svc.fingerprint → GrantedFor svc envelope req grant) := by
  obtain ⟨first, hword, hrest, hsame, hstands⟩ := stands_of_request hreach hexec rfl rfl
  cases first with
  | spawn newLeaseId' req' =>
    obtain ⟨grant, hout, hgranted, hunder⟩ := hstands
    have hparent : req'.parentId = req.parentId := String.toList_inj.mp (List.cons.inj hrest).2
    refine ⟨grant, hout, hparent ▸ hunder, fun hinjective => ?_⟩
    have harguments := hinjective (hsame _ rfl)
    simp only [SpawnRequest.arguments, Arguments.spawn.injEq] at harguments
    obtain ⟨_, hparent, hsubject, hallocation, hcapabilities, httl, _⟩ := harguments
    obtain ⟨h₁, h₂, h₃, h₄, h₅⟩ := hgranted
    rw [hparent] at h₁
    rw [hparent, httl] at h₅
    exact ⟨h₁, h₂.trans hsubject, h₃.trans hallocation, h₄.trans hcapabilities, h₅⟩
  | lifecycle move =>
    cases move <;> exact absurd hword (by simp [Operation.word, LifecycleOperation.name])
  | _ => exact absurd hword (by simp [Operation.word])

theorem over_of_close {terminated : List (String × LeaseStatus)} {req : LifecycleRequest}
    (hexec : svc.exec clock (.lifecycle .close terminated req) db = .ok (db', out)) :
    db'.Over req.leaseId := by
  obtain ⟨first, hword, hrest, _, hstands⟩ := stands_of_request hreach hexec rfl rfl
  cases first with
  | lifecycle move terminated' req' =>
    have hlease : req'.leaseId = req.leaseId := String.toList_inj.mp (List.cons.inj hrest).2
    cases move with
    | close => exact hlease ▸ hstands
    | quiesce | resume =>
      exact absurd hword (by simp [Operation.word, LifecycleOperation.name])
  | _ => exact absurd hword (by simp [Operation.word, LifecycleOperation.name])

theorem branchFenced_of_revoke {req : RevokeBranchRequest}
    (hexec : svc.exec clock (.revokeBranch req) db = .ok (db', out)) :
    db'.BranchFenced req.leaseId := by
  obtain ⟨first, hword, hrest, _, hstands⟩ := stands_of_request hreach hexec rfl rfl
  cases first with
  | revokeBranch req' =>
    have hlease : req'.leaseId = req.leaseId := String.toList_inj.mp (List.cons.inj hrest).2
    exact hlease ▸ hstands
  | lifecycle move =>
    cases move <;> exact absurd hword (by simp [Operation.word, LifecycleOperation.name])
  | _ => exact absurd hword (by simp [Operation.word])

end WardenService

end Lets
