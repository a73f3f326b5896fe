import Lets.Delegation
import Lets.OutgoingStreams

set_option autoImplicit false

/-!
# Spawning on another warden

The warden of the parent debits it and signs a lease voucher; the target creates the lease or adds
the amount to its free pool, and says which in its acknowledgement; the source records what the
acknowledgement says.
-/

namespace Lets

open Library

variable {d : ℕ} {Hash : Type}

theorem Call.ack_of_releases {call : Call d} {ack : TransferAck}
    (h : call.releases = some (.ack ack)) : ∃ identity voucher,
      call.operation = .acceptTransfer identity voucher ∧ call.reply = .ok (.ack ack) := by
  unfold releases at h
  split at h <;> simp_all

namespace WardenService

variable {svc : WardenService d Hash} {clock : Reading} {operation : Operation d}
  {db db' : Database d Hash} {out : Response d}

variable {envelope : Envelope d} {db₀ : Database d Hash} {calls : List (Call d)}
  {voucher : TransferVoucher d} {request : LeaseRequest}

theorem signed_child (hinit : (svc.system envelope).Init db₀)
    (run : (svc.system envelope).Run db₀ calls db) (hmem : voucher ∈ signed calls)
    (hrequest : voucher.leaseRequest = some request) :
    ∃ child, db.remoteChildren.lookup request.childLeaseId = some child ∧
      child.terms = (request.parentId, voucher.targetWarden, voucher.transferId, voucher.sequence,
        voucher.amount, request.expiresAtNs, voucher.issuedAtNs) := by
  apply signed_induction (P := fun voucher (db : Database d Hash) => ∀ request,
    voucher.leaseRequest = some request → ∃ child,
      db.remoteChildren.lookup request.childLeaseId = some child ∧
        child.terms = (request.parentId, voucher.targetWarden, voucher.transferId,
          voucher.sequence, voucher.amount, request.expiresAtNs, voucher.issuedAtNs)) ?_ ?_ hinit run
    hmem request hrequest
  · intro clock db operation db' voucher _ hsigned request hrequest
    cases hsigned with
    | prepared done => rw [done.voucher_eq] at hrequest; cases hrequest
    | @remoteSpawned newLeaseId newTransferId req out done =>
      rw [done.voucher_eq] at hrequest ⊢
      obtain rfl := Option.some.inj hrequest
      have hchildren : db'.remoteChildren = AList.insert newLeaseId _ db.remoteChildren :=
        congrArg Database.remoteChildren done.result
      rw [hchildren]
      exact ⟨_, AList.lookup_insert _, rfl⟩
  · intro clock db operation db' out voucher _ heffect hold request hrequest
    obtain ⟨child, hchild, hterms⟩ := hold request hrequest
    obtain ⟨child', hchild', hstep⟩ := heffect.child_step hchild
    exact ⟨child', hchild', hstep.terms_eq.trans hterms⟩

/-- The outcome that the record of a child has taken is that of an acknowledgement. -/
def ChildrenAcknowledged (calls : List (Call d)) (db : Database d Hash) : Prop :=
  ∀ childLeaseId child, db.remoteChildren.lookup childLeaseId = some child →
    (child.status = .active →
      ∃ ack ∈ finalizations calls, ack.child = some (childLeaseId, .issued)) ∧
    (child.status = .fenced →
      ∃ ack ∈ finalizations calls, ack.child = some (childLeaseId, .fenced))

theorem ChildrenAcknowledged.step {call : Call d} (h : ChildrenAcknowledged calls db)
    (hreply : call.reply = .ok out) (heffect : Effect svc call.clock db call.operation db' out) :
    ChildrenAcknowledged (calls ++ [call]) db' := by
  intro childLeaseId child' hchild'
  cases hchild : db.remoteChildren.lookup childLeaseId with
  | none =>
    obtain ⟨_, _, _, _, hpending⟩ := heffect.child_new (AList.lookup_eq_none.mp hchild) hchild'
    rw [hpending]
    exact ⟨(by rintro ⟨⟩), (by rintro ⟨⟩)⟩
  | some child =>
    obtain ⟨hactive, hfenced⟩ := h childLeaseId child hchild
    have hkept : ∀ {outcome}, (∃ ack ∈ finalizations calls, ack.child = some (childLeaseId, outcome)) →
        ∃ ack ∈ finalizations (calls ++ [call]), ack.child = some (childLeaseId, outcome) :=
      fun ⟨ack, hmem, heq⟩ => ⟨ack, mem_finalizations_of_mem call hmem, heq⟩
    obtain ⟨child₁, hchild₁, hstep⟩ := heffect.child_step hchild
    obtain rfl := some_unique hchild₁ hchild'
    cases hstep with
    | kept => exact ⟨fun h => hkept (hactive h), fun h => hkept (hfenced h)⟩
    | terminated => exact ⟨(by rintro ⟨⟩), (by rintro ⟨⟩)⟩
    | @acknowledged identity ack outcome request _ operation_eq _ _ _ ack_eq id_eq =>
      have hnew : ack.child = some (childLeaseId, outcome) := by rw [id_eq]; exact ack_eq
      have hmem : ack ∈ finalizations (calls ++ [call]) :=
        mem_finalizations_of_call operation_eq hreply
      unfold RemoteChild.acknowledged
      split_ifs with hpending
      · cases outcome with
        | issued => exact ⟨fun _ => ⟨ack, hmem, hnew⟩, (by simp)⟩
        | fenced => exact ⟨(by simp), fun _ => ⟨ack, hmem, hnew⟩⟩
      · exact ⟨fun h => hkept (hactive h), fun h => hkept (hfenced h)⟩

theorem childrenAcknowledged_of_run (hinit : (svc.system envelope).Init db₀)
    (run : (svc.system envelope).Run db₀ calls db) : ChildrenAcknowledged calls db := by
  apply run_induction (P := ChildrenAcknowledged) ?_ ?_ ?_ hinit run
  · exact fun childLeaseId child hchild => (by cases hchild)
  · exact fun calls db call db' out h hreply _ _ heffect => h.step hreply heffect
  · intro calls db call e h hreply
    unfold ChildrenAcknowledged
    rw [finalizations_concat_error hreply]
    exact h

/-- A lease voucher is signed in a `spawn_remote` for what it asks for. -/
def Requested (calls : List (Call d)) (voucher : TransferVoucher d) (request : LeaseRequest) : Prop :=
  ∃ call ∈ calls, ∃ transferId req,
    call.operation = .spawnRemote request.childLeaseId transferId req ∧
    call.reply = .ok (.voucher voucher) ∧ request.parentId = req.parentId ∧
    request.subjectId = req.subjectId ∧ request.capabilities = req.capabilities ∧
    voucher.amount = req.allocation ∧ voucher.targetWarden = req.targetWarden

theorem requested_of_run (hinit : (svc.system envelope).Init db₀)
    (run : (svc.system envelope).Run db₀ calls db) (hmem : voucher ∈ signed calls)
    (hrequest : voucher.leaseRequest = some request) : Requested calls voucher request := by
  induction run with
  | nil => exact absurd hmem (Finset.notMem_empty _)
  | @snoc s t calls call run step ih =>
    have hold : voucher ∈ signed calls → Requested (calls ++ [call]) voucher request := by
      intro hmem
      obtain ⟨called, hcalled, hasked⟩ := ih hmem
      exact ⟨called, List.mem_append_left _ hcalled, hasked⟩
    obtain ⟨called, hcalled, out, hreply, hvoucher⟩ := mem_answers_iff.mp hmem
    rcases List.mem_append.mp hcalled with hcalled | hcalled
    · exact hold (mem_answers_iff.mpr ⟨called, hcalled, out, hreply, hvoucher⟩)
    rw [List.mem_singleton] at hcalled
    subst hcalled
    rcases effect_cases step with ⟨out', hreply', heffect⟩ | ⟨⟨e, hreply'⟩, _⟩
    · obtain rfl := Except.ok.inj (hreply.symm.trans hreply')
      have hout := Response.voucher?_eq_some hvoucher
      rcases heffect.signedBy hout with hrecorded | hsigns
      · have hremembers := (accounts_of_run hinit run).remembers
        exact hold (mem_answers_of_recorded hremembers hrecorded hvoucher)
      · rw [hout] at hreply
        refine ⟨called, List.mem_concat_self, ?_⟩
        generalize called.operation = operation at hsigns
        cases hsigns with
        | prepared done => rw [done.voucher_eq] at hrequest; cases hrequest
        | @remoteSpawned newLeaseId newTransferId req out done =>
          have heq := done.voucher_eq
          rw [heq] at hrequest
          obtain rfl := Option.some.inj hrequest
          refine ⟨newTransferId, req, rfl, hreply, rfl, rfl, rfl, ?_, ?_⟩
          · rw [heq]
            rfl
          · rw [heq]
            rfl
    · cases hreply.symm.trans hreply'

theorem Credited.child_cases (done : Credited svc clock voucher db db' out)
    (hrequest : voucher.leaseRequest = some request) :
    done.ack.child = some (request.childLeaseId, .issued) ∨
      done.ack.child = some (request.childLeaseId, .fenced) ∧
        ∀ i, db'.freePool i = db.freePool i + voucher.amount i := by
  have hchild : done.ack.child = done.child.map fun c => (c.1.childLeaseId, c.2) := by
    rw [done.ack_eq]
    rfl
  have hfree : db'.freePool = done.freePool := congrArg Database.freePool done.result
  have hadmits := done.admits
  rw [hchild, hfree]
  generalize done.leases = leases, done.leaseResidual = total, done.freePool = freePool,
    done.child = child at hadmits
  cases hadmits with
  | pool request_eq => cases hrequest.symm.trans request_eq
  | fenced request_eq _ _ free =>
    obtain rfl := some_unique hrequest request_eq
    exact .inr ⟨rfl, free⟩
  | issued request_eq =>
    obtain rfl := some_unique hrequest request_eq
    exact .inl rfl

end WardenService

/-- The lease of a warden with the given id, if it is the child of a lease of `source`. -/
def ClusterState.remoteChild (s : ClusterState d Hash) (warden source childLeaseId : String) :
    Option (Lease d) :=
  (s.lease (warden, childLeaseId)).filter fun lease => lease.parentWarden = some source

theorem ClusterState.remoteChild_eq_some {s : ClusterState d Hash}
    {warden source childLeaseId : String} {lease : Lease d} :
    s.remoteChild warden source childLeaseId = some lease ↔
      s.lease (warden, childLeaseId) = some lease ∧ lease.parentWarden = some source := by
  unfold remoteChild
  rw [Option.filter_eq_some_iff, decide_eq_true_iff]

namespace Deployment

variable {D : Deployment d Hash} {s s' : ClusterState d Hash} {warden source : String}

theorem outgoing (hreach : D.system.Reachable s) (warden : String) :
    WardenService.Outgoing (D.service warden) (s.calls warden) (s.database warden) :=
  WardenService.outgoing_of_run (init_local warden) (local_run hreach warden)

variable {voucher : TransferVoucher d}

section

variable (hreach : D.system.Reachable s)

include hreach

theorem delivered_acknowledges (hmember : warden ∈ D.members) {ack : TransferAck}
    (hmem : (voucher, ack) ∈ deliveries (s.calls warden)) :
    WardenService.Acknowledges (D.service warden) voucher ack (s.database warden) := by
  obtain ⟨first, hfirst, hkey, heq, hacknowledges⟩ := (arrivals hreach warden).settled _ hmem
  have hvoucher : first.1 = voucher := accepted_eq_of_key hreach hmember hfirst hmem hkey
  rwa [hvoucher, heq] at hacknowledges

theorem finalization_delivered (hsource : source ∈ D.members) {ack : TransferAck}
    (hack : ack ∈ finalizations (s.calls source)) :
    ack.targetWarden ∈ D.members ∧ ∃ voucher ∈ signed (s.calls source),
      WardenService.AcknowledgedBy (D.service source) voucher ack ∧
      (voucher, ack) ∈ deliveries (s.calls ack.targetWarden) := by
  obtain ⟨voucher, hsigned, hacked⟩ := (outgoing hreach source).acknowledged ack hack
  obtain ⟨call, hcall, identity, hoperation⟩ := call_of_mem_finalizations hack
  have hunforged := unforged_of_mem hreach hcall
  rw [hoperation] at hunforged
  have hverified := hacked.verified
  rw [← hacked.target_eq] at hverified
  obtain ⟨htarget, released, hreleased, hrecord⟩ := hunforged _ _ rfl hverified
  obtain ⟨voucher', hdelivery⟩ : ∃ voucher', (voucher', ack) ∈
      deliveries (s.calls ack.targetWarden) := by
    obtain ⟨identity', voucher', hop, hreply⟩ := Call.ack_of_releases hrecord
    exact ⟨voucher', mem_deliveries_iff.mpr ⟨released, hreleased, identity', hop, hreply⟩⟩
  refine ⟨htarget, voucher, hsigned, hacked, ?_⟩
  -- the voucher that the target has acknowledged is the one that was signed
  have hacknowledges := delivered_acknowledges hreach htarget hdelivery
  obtain ⟨htarget', _, hsigned'⟩ := accepted_signed hreach htarget hdelivery
  have hsource' : voucher'.sourceWarden = source := by
    rw [← hacknowledges.source_eq, hacked.source_eq, D.wardenId_eq source hsource]
  rw [hsource'] at hsigned'
  have heq : voucher = voucher' := by
    apply (accounts hreach source).outbound.unique voucher hsigned voucher' hsigned'
    · rw [htarget', hacked.target_eq]
    · rw [← hacked.sequence_eq, hacknowledges.sequence_eq]
  rwa [heq]

theorem signed_eq_of_child {voucher' : TransferVoucher d} {request request' : LeaseRequest}
    (hmem : voucher ∈ signed (s.calls source)) (hmem' : voucher' ∈ signed (s.calls source))
    (hrequest : voucher.leaseRequest = some request)
    (hrequest' : voucher'.leaseRequest = some request')
    (hchild : request.childLeaseId = request'.childLeaseId) : voucher = voucher' := by
  have hrun := local_run hreach source
  obtain ⟨child, hlookup, hterms⟩ :=
    WardenService.signed_child (init_local source) hrun hmem hrequest
  obtain ⟨child', hlookup', hterms'⟩ :=
    WardenService.signed_child (init_local source) hrun hmem' hrequest'
  rw [hchild] at hlookup
  obtain rfl := some_unique hlookup hlookup'
  rw [hterms, Prod.mk.injEq, Prod.mk.injEq, Prod.mk.injEq, Prod.mk.injEq] at hterms'
  obtain ⟨_, htarget, _, hsequence, _⟩ := hterms'
  exact (accounts hreach source).outbound.unique voucher hmem voucher' hmem' htarget hsequence

theorem issuedFor_of_remoteChild (hsource : source ∈ D.members) {request : LeaseRequest}
    (hsigned : voucher ∈ signed (s.calls source)) (hrequest : voucher.leaseRequest = some request)
    (hmember : warden ∈ D.members) {lease : Lease d}
    (hlease : s.remoteChild warden source request.childLeaseId = some lease) :
    warden = voucher.targetWarden ∧ lease.IssuedFor request.childLeaseId voucher request ∧
      ∃ ack, (voucher, ack) ∈ deliveries (s.calls warden) ∧
        ack.child = some (request.childLeaseId, .issued) := by
  obtain ⟨hlookup, hparent⟩ := ClusterState.remoteChild_eq_some.mp hlease
  have hremote : lease.parentWarden ≠ none := by
    rw [hparent]
    simp
  obtain ⟨⟨voucher', ack⟩, hdelivery, request', hfor, hchild⟩ :=
    (arrivals hreach warden).remote _ lease hlookup hremote
  obtain ⟨htarget, _, hsigned'⟩ := accepted_signed hreach hmember hdelivery
  have hnamed : lease.parentWarden = some voucher'.sourceWarden :=
    congrArg (fun origin => origin.2.2.1) hfor.origin_eq
  obtain rfl := some_unique hnamed hparent
  obtain rfl := signed_eq_of_child hreach hsigned hsigned' hrequest hfor.request_eq hfor.id_eq
  obtain rfl := some_unique hrequest hfor.request_eq
  exact ⟨htarget.symm, hfor, ack, hdelivery, hchild⟩

end

/-- What the source, the target and the messages of one `spawn_remote` say about its child. -/
structure SpawnAgreed (D : Deployment d Hash) (s : ClusterState d Hash) (source : String)
    (voucher : TransferVoucher d) (request : LeaseRequest) : Prop where
  requested : WardenService.Requested (s.calls source) voucher request
  drawn : ∃ parent, s.lease (source, request.parentId) = some parent ∧
    voucher.Attenuates request parent
  /-- The child is on the target, with what the voucher fixes. -/
  created : ∀ warden ∈ D.members, ∀ lease,
    s.remoteChild warden source request.childLeaseId = some lease →
      warden = voucher.targetWarden ∧ lease.IssuedFor request.childLeaseId voucher request
  /-- Every acknowledgement says whether there is a child. -/
  accepted : ∀ warden ∈ D.members, ∀ ack, (voucher, ack) ∈ deliveries (s.calls warden) →
    warden = voucher.targetWarden ∧
      (ack.child = some (request.childLeaseId, .issued) ∧
          s.remoteChild warden source request.childLeaseId ≠ none ∨
        ack.child = some (request.childLeaseId, .fenced) ∧
          ∀ other ∈ D.members, s.remoteChild other source request.childLeaseId = none)
  /-- So does the record of the source, once it is settled. -/
  recorded : ∃ child, (s.database source).remoteChildren.lookup request.childLeaseId = some child ∧
    child.terms = (request.parentId, voucher.targetWarden, voucher.transferId, voucher.sequence,
      voucher.amount, request.expiresAtNs, voucher.issuedAtNs) ∧
    (child.status = .active →
      s.remoteChild voucher.targetWarden source request.childLeaseId ≠ none) ∧
    (child.status = .fenced →
      (∃ ack, (voucher, ack) ∈ deliveries (s.calls voucher.targetWarden)) ∧
        ∀ other ∈ D.members, s.remoteChild other source request.childLeaseId = none)

section Agreement

variable {voucher : TransferVoucher d} {request : LeaseRequest}

variable {ack : TransferAck}

variable (hreach : D.system.Reachable s)

include hreach

theorem child_of_accepted (hsource : source ∈ D.members)
    (hsigned : voucher ∈ signed (s.calls source)) (hrequest : voucher.leaseRequest = some request)
    (hmember : warden ∈ D.members) (hmem : (voucher, ack) ∈ deliveries (s.calls warden)) :
    ack.child = some (request.childLeaseId, .issued) ∧
        s.remoteChild warden source request.childLeaseId ≠ none ∨
      ack.child = some (request.childLeaseId, .fenced) ∧
        ∀ other ∈ D.members, s.remoteChild other source request.childLeaseId = none := by
  have hnamed : voucher.sourceWarden = source :=
    ((accounts hreach source).outbound.source voucher hsigned).trans (D.wardenId_eq source hsource)
  rcases (delivered_acknowledges hreach hmember hmem).child_eq with ⟨hnone, _⟩ |
    ⟨request', hrequest', hchild | ⟨hchild, lease, hlease, hfor⟩⟩
  · cases hrequest.symm.trans hnone
  · obtain rfl := some_unique hrequest hrequest'
    refine .inr ⟨hchild, fun other hother => ?_⟩
    by_contra hthere
    obtain ⟨lease, hlease⟩ := Option.ne_none_iff_exists'.mp hthere
    -- the child would have been acknowledged as issued, for the same sequence
    obtain ⟨htarget, _, ack', hmem', hissued⟩ :=
      issuedFor_of_remoteChild hreach hsource hsigned hrequest hother hlease
    obtain ⟨htarget', _, _⟩ := accepted_signed hreach hmember hmem
    rw [htarget, htarget'] at hmem'
    obtain ⟨_, hacks⟩ := (streams hreach warden).unique _ hmem _ hmem' rfl
    have houtcome := hchild.symm.trans ((congrArg TransferAck.child hacks).trans hissued)
    cases houtcome
  · obtain rfl := some_unique hrequest hrequest'
    have hparent : lease.parentWarden = some source := by
      rw [← hnamed]
      exact congrArg (fun origin => origin.2.2.1) hfor.origin_eq
    have hthere : s.remoteChild warden source request.childLeaseId = some lease :=
      ClusterState.remoteChild_eq_some.mpr ⟨hlease, hparent⟩
    refine .inl ⟨hchild, ?_⟩
    rw [hthere]
    simp

theorem delivered_of_finalized (hsource : source ∈ D.members)
    (hsigned : voucher ∈ signed (s.calls source)) (hrequest : voucher.leaseRequest = some request)
    {outcome : ChildOutcome} (hack : ack ∈ finalizations (s.calls source))
    (hchild : ack.child = some (request.childLeaseId, outcome)) : voucher.targetWarden ∈ D.members ∧
      (voucher, ack) ∈ deliveries (s.calls voucher.targetWarden) := by
  obtain ⟨htarget, voucher', hsigned', hacked, hmem⟩ := finalization_delivered hreach hsource hack
  obtain ⟨htarget', _, _⟩ := accepted_signed hreach htarget hmem
  obtain ⟨request', hrequest', hid⟩ : ∃ request', voucher'.leaseRequest = some request' ∧
      request'.childLeaseId = request.childLeaseId := by
    rcases (delivered_acknowledges hreach htarget hmem).child_eq with ⟨_, hnone⟩ |
      ⟨request', hrequest', hfenced | ⟨hissued, _⟩⟩
    · cases hchild.symm.trans hnone
    · exact ⟨request', hrequest', congrArg Prod.fst (some_unique hfenced hchild)⟩
    · exact ⟨request', hrequest', congrArg Prod.fst (some_unique hissued hchild)⟩
  obtain rfl := signed_eq_of_child hreach hsigned hsigned' hrequest hrequest' hid.symm
  rw [htarget']
  exact ⟨htarget, hmem⟩

theorem spawnAgreed (hsource : source ∈ D.members) (hsigned : voucher ∈ signed (s.calls source))
    (hrequest : voucher.leaseRequest = some request) : D.SpawnAgreed s source voucher request where
  requested := WardenService.requested_of_run (init_local source) (local_run hreach source) hsigned
    hrequest
  drawn := WardenService.signed_attenuates (init_local source) (local_run hreach source) hsigned
    hrequest
  created warden hmember lease hlease := by
    obtain ⟨htarget, hfor, _⟩ :=
      issuedFor_of_remoteChild hreach hsource hsigned hrequest hmember hlease
    exact ⟨htarget, hfor⟩
  accepted warden hmember ack hmem :=
    ⟨(accepted_signed hreach hmember hmem).1.symm,
      child_of_accepted hreach hsource hsigned hrequest hmember hmem⟩
  recorded := by
    obtain ⟨child, hchild, hterms⟩ := WardenService.signed_child (init_local source)
      (local_run hreach source) hsigned hrequest
    obtain ⟨hactive, hfenced⟩ := WardenService.childrenAcknowledged_of_run (init_local source)
      (local_run hreach source) _ child hchild
    refine ⟨child, hchild, hterms, fun hstatus => ?_, fun hstatus => ?_⟩
    · obtain ⟨ack, hack, houtcome⟩ := hactive hstatus
      obtain ⟨htarget, hmem⟩ := delivered_of_finalized hreach hsource hsigned hrequest hack houtcome
      rcases child_of_accepted hreach hsource hsigned hrequest htarget hmem with ⟨_, hthere⟩ |
        ⟨hother, _⟩
      · exact hthere
      · cases houtcome.symm.trans hother
    · obtain ⟨ack, hack, houtcome⟩ := hfenced hstatus
      obtain ⟨htarget, hmem⟩ := delivered_of_finalized hreach hsource hsigned hrequest hack houtcome
      rcases child_of_accepted hreach hsource hsigned hrequest htarget hmem with ⟨hother, _⟩ |
        ⟨_, hnowhere⟩
      · cases houtcome.symm.trans hother
      · exact ⟨⟨ack, hmem⟩, hnowhere⟩

theorem notDelivered_of_credited {clock : Reading} {db' : Database d Hash} {out : Response d}
    (done : WardenService.Credited (D.service warden) clock voucher (s.database warden) db' out) :
    (voucher, ack) ∉ deliveries (s.calls warden) := by
  intro hmem
  obtain ⟨hstreams, hshown⟩ :=
    WardenService.streams_of_run (init_local warden) (local_run hreach warden)
  obtain ⟨_, hpresented⟩ := hshown _ hmem
  have habove := done.above
  rw [hpresented.epoch] at habove
  apply hstreams.notReceived done.notAcked habove
  exact mem_receivedFrom_iff.mpr ⟨_, hmem, rfl⟩

theorem remoteChild_new (hsource : source ∈ D.members) (hsigned : voucher ∈ signed (s.calls source))
    (hrequest : voucher.leaseRequest = some request) {event : Event d}
    (hstep : D.system.Step s event s') (hmember : warden ∈ D.members) {lease : Lease d}
    (hnone : s.remoteChild warden source request.childLeaseId = none)
    (hlease : s'.remoteChild warden source request.childLeaseId = some lease) :
    lease.expiresAtNs = request.expiresAtNs ∧
      ∀ ack, (voucher, ack) ∉ deliveries (s.calls warden) := by
  obtain ⟨hlookup, hparent⟩ := ClusterState.remoteChild_eq_some.mp hlease
  rcases step_database_cases hstep warden with hsame | ⟨timeNs, call, out, rfl, hreply⟩
  · have hold : s.lease (warden, request.childLeaseId) = some lease := by
      rw [← hlookup, ClusterState.lease, ClusterState.lease, hsame]
    rw [ClusterState.remoteChild_eq_some.mpr ⟨hold, hparent⟩] at hnone
    cases hnone
  · have heffect := step_effect hstep hreply
    cases hold : (s.database warden).leases.lookup request.childLeaseId with
    | some row =>
      obtain ⟨row', hrow', hterms, _⟩ := heffect.row_terms hold
      obtain rfl := some_unique hrow' hlookup
      have hparent' : row.parentWarden = some source := by
        rw [← (Lease.keeps hterms).parentWarden, hparent]
      rw [ClusterState.remoteChild_eq_some.mpr ⟨hold, hparent'⟩] at hnone
      cases hnone
    | none =>
      obtain ⟨identity, voucher', request', hoperation, hfor, hexpiry, done, _⟩ :=
        heffect.credited_of_new (AList.lookup_eq_none.mp hold) hlookup
          (by rw [hparent]; exact (by simp))
      have hreach' : D.system.Reachable s' := hreach.run (.snoc (.nil s) hstep)
      have hmem' : (voucher', done.ack) ∈ deliveries (s'.calls warden) := by
        have hout := hreply.trans (congrArg Except.ok done.out_eq)
        rw [calls_concat_call hstep.1, if_pos rfl, deliveries_concat hoperation hout]
        exact List.mem_concat_self
      obtain ⟨_, _, hsigned'⟩ := accepted_signed hreach' hmember hmem'
      have hnamed : lease.parentWarden = some voucher'.sourceWarden :=
        congrArg (fun origin => origin.2.2.1) hfor.origin_eq
      obtain rfl := some_unique hnamed hparent
      obtain rfl := signed_eq_of_child hreach' (mem_signed_step hstep hsigned) hsigned' hrequest
        hfor.request_eq hfor.id_eq
      obtain rfl := some_unique hrequest hfor.request_eq
      exact ⟨hexpiry, fun ack => notDelivered_of_credited hreach done⟩

theorem freePool_of_fenced (hsource : source ∈ D.members)
    (hsigned : voucher ∈ signed (s.calls source)) (hrequest : voucher.leaseRequest = some request)
    {timeNs : ℕ} {call : Call d} (hstep : D.system.Step s (.call warden timeNs call) s')
    {identity : IdentityContext} (hoperation : call.operation = .acceptTransfer identity voucher)
    (hreply : call.reply = .ok (.ack ack))
    (hfirst : ∀ ack, (voucher, ack) ∉ deliveries (s.calls warden))
    (hnone : s'.remoteChild warden source request.childLeaseId = none) (i : Fin d) :
    (s'.database warden).freePool i = (s.database warden).freePool i + voucher.amount i := by
  have hreach' : D.system.Reachable s' := hreach.run (.snoc (.nil s) hstep)
  have hmember : warden ∈ D.members := hstep.2.1
  have hmem' : (voucher, ack) ∈ deliveries (s'.calls warden) := by
    rw [calls_concat_call hstep.1, if_pos rfl, deliveries_concat hoperation hreply]
    exact List.mem_concat_self
  rcases (step_effect hstep hreply).accepted hoperation with ⟨⟨done⟩⟩ | ⟨⟨done⟩⟩
  · -- a redelivery is the acknowledgement of an earlier delivery of the same sequence
    obtain ⟨⟨earlier, ack'⟩, hearlier, hkey, _⟩ :=
      (streams hreach warden).acks _ _ done.existing_eq
    have hearlier' : (earlier, ack') ∈ deliveries (s'.calls warden) := by
      rw [calls_concat_call hstep.1, if_pos rfl, deliveries_concat hoperation hreply]
      exact List.mem_append_left _ hearlier
    have heq : earlier = voucher := accepted_eq_of_key hreach' hmember hearlier' hmem' hkey
    rw [heq] at hearlier
    exact absurd hearlier (hfirst ack')
  · have hack : ack = done.ack := Response.ack.inj done.out_eq
    rcases child_of_accepted hreach' hsource (mem_signed_step hstep hsigned) hrequest hmember hmem'
      with ⟨_, hthere⟩ | ⟨hfenced, _⟩
    · exact absurd hnone hthere
    · rcases done.child_cases hrequest with hissued | ⟨_, hfree⟩
      · rw [hack, hissued] at hfenced
        cases hfenced
      · exact hfree i

end Agreement

end Deployment

/-- In every reachable state of a cluster the target of a `spawn_remote` has created at most one
lease for it, with what the voucher fixes, in its first delivery or never; acknowledgements and the
record of the source say truly whether there is one. -/
theorem remote_spawn_agreement {D : Deployment d Hash} {s : ClusterState d Hash}
    (hreach : D.system.Reachable s) {source : String} (hsource : source ∈ D.members)
    {voucher : TransferVoucher d} {request : LeaseRequest}
    (hsigned : voucher ∈ signed (s.calls source))
    (hrequest : voucher.leaseRequest = some request) :
    D.SpawnAgreed s source voucher request ∧
    (∀ event s', D.system.Step s event s' → ∀ warden ∈ D.members, ∀ lease,
      s.remoteChild warden source request.childLeaseId = none →
      s'.remoteChild warden source request.childLeaseId = some lease →
      lease.expiresAtNs = request.expiresAtNs ∧
        ∀ ack, (voucher, ack) ∉ deliveries (s.calls warden)) ∧
    ∀ warden timeNs call s', D.system.Step s (.call warden timeNs call) s' →
      ∀ identity ack, call.operation = .acceptTransfer identity voucher →
      call.reply = .ok (.ack ack) → (∀ ack, (voucher, ack) ∉ deliveries (s.calls warden)) →
      s'.remoteChild warden source request.childLeaseId = none →
      ∀ i, (s'.database warden).freePool i = (s.database warden).freePool i + voucher.amount i :=
  ⟨Deployment.spawnAgreed hreach hsource hsigned hrequest,
    fun _ _ hstep _ hmember _ hnone hlease =>
      Deployment.remoteChild_new hreach hsource hsigned hrequest hstep hmember hnone hlease,
    fun _ _ _ _ hstep _ _ hoperation hreply hfirst hnone =>
      Deployment.freePool_of_fenced hreach hsource hsigned hrequest hstep hoperation hreply hfirst
        hnone⟩

open Sample

/-- The acknowledgement of `b` for the voucher of the child. -/
def Sample.childAck : TransferAck :=
  { ack with
    acceptedAtNs := 4
    child := some ("child", .issued) }

theorem remote_spawn_agreement_child :
    ∃ s : ClusterState 1 ℕ, deployment.system.Reachable s ∧
      childVoucher ∈ signed (s.calls "a") ∧
      ((s.database "a").remoteChildren.lookup "child").map RemoteChild.status = some .active ∧
      s.remoteChild "b" "a" "child" ≠ none := by
  have hreach := (Deployment.play_reachable (D := deployment)
    (C := fun _ _ _ => True) (.of_init rfl) (delegating ++
      [.call "a" 6 (exactly 6) (.finalizeTransfer operator childAck)])).of_restrict
  obtain ⟨s, hs⟩ : ∃ s, deployment.play (fun _ _ _ => True) deployment.genesis
    (delegating ++ [.call "a" 6 (exactly 6)
      (.finalizeTransfer operator childAck)]) = s := ⟨_, rfl⟩
  have hfacts : childVoucher ∈ signed (s.calls "a") ∧
      ((s.database "a").remoteChildren.lookup "child").map RemoteChild.status = some .active := by
    subst hs
    decide +kernel
  rw [hs] at hreach
  obtain ⟨hsigned, hstatus⟩ := hfacts
  obtain ⟨hagreed, _, _⟩ := remote_spawn_agreement hreach (by decide) hsigned rfl
  obtain ⟨child, hchild, _, hactive, _⟩ := hagreed.recorded
  refine ⟨s, hreach, hsigned, hstatus, hactive ?_⟩
  obtain ⟨child', hchild', hactive'⟩ := Option.map_eq_some_iff.mp hstatus
  obtain rfl := some_unique hchild hchild'
  exact hactive'

end Lets
