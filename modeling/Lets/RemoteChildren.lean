import Lets.LeaseRows

set_option autoImplicit false

/-!
# What may become of a remote child's row

The source of a remote child keeps a row about it: `spawn_remote` adds it, the acknowledgement of the
voucher and the probe of a closing parent move its status, and nothing removes it or changes what it
was recorded with.
-/

namespace Lets

open Library

variable {d : ℕ} {Hash : Type}

def RemoteChild.terms (child : RemoteChild d) :
    String × String × String × ℕ × ResourceVector d × ℕ × ℕ :=
  (child.parentId, child.targetWarden, child.transferId, child.sequence, child.allocation,
    child.expiresAtNs, child.createdAtNs)

theorem RemoteChild.acknowledged_terms (outcome : ChildOutcome) (nowNs : ℕ)
    (child : RemoteChild d) : (child.acknowledged outcome nowNs).terms = child.terms := by
  unfold RemoteChild.acknowledged
  split_ifs <;> rfl

namespace WardenService

inductive ChildStep (svc : WardenService d Hash) (clock : Reading) (operation : Operation d)
    (db : Database d Hash) (childLeaseId : String) (child : RemoteChild d) : RemoteChild d → Prop
  | kept : ChildStep svc clock operation db childLeaseId child child
  | acknowledged {identity : IdentityContext} {ack : TransferAck} {outcome : ChildOutcome}
      {request : LeaseRequest} {db' : Database d Hash}
      (operation_eq : operation = .finalizeTransfer identity ack)
      (done : Finalized svc clock ack db db') (prepared : done.outgoing.status = .prepared)
      (request_eq : done.outgoing.voucher.leaseRequest = some request)
      (ack_eq : ack.child = some (request.childLeaseId, outcome))
      (id_eq : childLeaseId = request.childLeaseId) :
      ChildStep svc clock operation db childLeaseId child
        (child.acknowledged outcome clock.nowNs)
  | terminated {terminated : List (String × LeaseStatus)} {req : LifecycleRequest}
      {observed : LeaseStatus} (operation_eq : operation = .lifecycle .close terminated req)
      (parent_eq : child.parentId = req.leaseId) (isOpen : child.status.isOpen = true)
      (reported : terminated.lookup childLeaseId = some observed) :
      ChildStep svc clock operation db childLeaseId child (child.terminated observed clock.nowNs)

variable {svc : WardenService d Hash} {clock : Reading} {operation : Operation d}
  {db db' : Database d Hash} {out : Response d} {childLeaseId : String}

variable {child : RemoteChild d}

theorem ChildStep.terms_eq {child' : RemoteChild d}
    (h : ChildStep svc clock operation db childLeaseId child child') :
    child'.terms = child.terms := by
  cases h with
  | kept => rfl
  | acknowledged => exact RemoteChild.acknowledged_terms _ _ _
  | terminated => rfl

theorem Finalizes.children_cases {ack : TransferAck} {nowNs : ℕ} {outgoing : OutgoingTransfer d}
    {stream : OutgoingStream} {children : Table String (RemoteChild d)}
    {transfers : Table (String × ℕ) (OutgoingTransfer d)} {streams : Table String OutgoingStream}
    (h : Finalizes ack nowNs db outgoing stream children transfers streams) :
    children = db.remoteChildren ∨ outgoing.status = .prepared ∧ ∃ request outcome,
      outgoing.voucher.leaseRequest = some request ∧
        ack.child = some (request.childLeaseId, outcome) ∧
        children = db.remoteChildren.update request.childLeaseId
          (RemoteChild.acknowledged outcome nowNs) := by
  cases h with
  | again | advanced => exact .inl rfl
  | first prepared children_eq =>
    rcases children_eq with ⟨_, _, heq⟩ | hrequest
    · exact .inl heq
    · exact .inr ⟨prepared, hrequest⟩

variable (h : Effect svc clock db operation db' out)

include h

theorem Effect.children_cases : db'.remoteChildren = db.remoteChildren ∨
      (∃ newLeaseId newTransferId req, operation = .spawnRemote newLeaseId newTransferId req ∧
        Nonempty (RemoteSpawned svc clock newLeaseId newTransferId req db db' out)) ∨
      (∃ identity ack, operation = .finalizeTransfer identity ack ∧
        Nonempty (Finalized svc clock ack db db')) ∨
      ∃ terminated req, operation = .lifecycle .close terminated req ∧
        Nonempty (Closed svc clock terminated req db db' out) := by
  cases h with
  | remoteSpawned done => exact .inr (.inl ⟨_, _, _, rfl, ⟨done⟩⟩)
  | finalized _ done => exact .inr (.inr (.inl ⟨_, _, rfl, ⟨done⟩⟩))
  | closed done => exact .inr (.inr (.inr ⟨_, _, rfl, ⟨done⟩⟩))
  | replayed _ _ _ _ result | runtimeSet _ _ result | policyRegistered _ _ result
  | attempted _ result | prunedTerminal _ result | prunedHistory _ _ result =>
    rw [result]; exact .inl rfl
  | rootIssued done | spawned done | authorized done | renewed done | unmoved done
  | switched done | prepared done => rw [done.result]; exact .inl rfl
  | redelivered _ done | credited _ done | reclaimed _ done | checkpointCreated _ done
  | checkpointIngested _ done => rw [done.result]; exact .inl rfl
  | revokedAgain _ _ _ _ done | revocationKnown _ _ _ done | revocationStored _ _ done =>
    rw [done.result, done.materialized.result]; exact .inl rfl
  | branchRevoked _ _ _ done result =>
    rw [result, done.result, done.materialized.result]; exact .inl rfl

theorem Effect.child_step (hchild : db.remoteChildren.lookup childLeaseId = some child) : ∃ child',
      db'.remoteChildren.lookup childLeaseId = some child' ∧
        ChildStep svc clock operation db childLeaseId child child' := by
  rcases h.children_cases with hsame | ⟨newLeaseId, newTransferId, req, _, ⟨done⟩⟩ |
    ⟨identity, ack, hoperation, ⟨done⟩⟩ | ⟨terminated, req, hoperation, ⟨done⟩⟩
  · exact ⟨child, hsame ▸ hchild, .kept⟩
  · have hchildren : db'.remoteChildren = AList.insert newLeaseId _ db.remoteChildren :=
      congrArg Database.remoteChildren done.result
    exact ⟨child, hchildren ▸ Table.lookup_insert_of_new done.child_new hchild, .kept⟩
  · have hchildren : db'.remoteChildren = done.children :=
      congrArg Database.remoteChildren done.result
    rw [hchildren]
    rcases done.finalizes.children_cases with heq | ⟨hprepared, request, outcome, hrequest, hack, heq⟩
    · exact ⟨child, heq ▸ hchild, .kept⟩
    · have hlookup := Table.lookup_update request.childLeaseId
        (RemoteChild.acknowledged outcome clock.nowNs) db.remoteChildren childLeaseId
      rw [← heq, hchild, Option.map_some] at hlookup
      by_cases hid : childLeaseId = request.childLeaseId
      · rw [if_pos hid] at hlookup
        exact ⟨_, hlookup, .acknowledged hoperation done hprepared hrequest hack hid⟩
      · rw [if_neg hid] at hlookup
        exact ⟨child, hlookup, .kept⟩
  · have hchildren : db'.remoteChildren =
        db.remoteChildren.mapRows (probedRow req.leaseId clock.nowNs terminated) :=
      congrArg Database.remoteChildren done.result
    have hlookup := Table.lookup_mapRows (probedRow req.leaseId clock.nowNs terminated)
      db.remoteChildren childLeaseId
    rw [← hchildren, hchild, Option.map_some, probedRow] at hlookup
    split_ifs at hlookup with hopen
    · cases hreported : terminated.lookup childLeaseId with
      | none =>
        rw [hreported] at hlookup
        exact ⟨child, hlookup, .kept⟩
      | some observed =>
        rw [hreported] at hlookup
        exact ⟨_, hlookup, .terminated hoperation hopen.1 hopen.2 hreported⟩
    · exact ⟨child, hlookup, .kept⟩

theorem Effect.child_new (hnew : childLeaseId ∉ db.remoteChildren)
    (hchild : db'.remoteChildren.lookup childLeaseId = some child) :
    ∃ newTransferId req, operation = .spawnRemote childLeaseId newTransferId req ∧
      ∃ done : RemoteSpawned svc clock childLeaseId newTransferId req db db' out,
        child = req.pendingChild newTransferId (db.outgoingStream req.targetWarden).nextSequence
          (childExpiry clock req.ttlNs done.parent) clock.nowNs := by
  have habsent : db.remoteChildren.lookup childLeaseId = none := by
    rw [AList.lookup_eq_none]
    exact hnew
  rcases h.children_cases with hsame | ⟨newLeaseId, newTransferId, req, hoperation, ⟨done⟩⟩ |
    ⟨identity, ack, _, ⟨done⟩⟩ | ⟨terminated, req, _, ⟨done⟩⟩
  · rw [hsame, habsent] at hchild
    cases hchild
  · have hchildren : db'.remoteChildren = AList.insert newLeaseId _ db.remoteChildren :=
      congrArg Database.remoteChildren done.result
    rw [hchildren, Table.lookup_insert_eq, habsent] at hchild
    split_ifs at hchild with hid
    subst hid
    exact ⟨newTransferId, req, hoperation, done, (Option.some.inj hchild).symm⟩
  · have hchildren : db'.remoteChildren = done.children :=
      congrArg Database.remoteChildren done.result
    rw [hchildren] at hchild
    rcases done.finalizes.children_cases with heq | ⟨_, request, outcome, _, _, heq⟩
    · rw [heq, habsent] at hchild
      cases hchild
    · rw [heq, Table.lookup_update, habsent] at hchild
      split_ifs at hchild
      cases hchild
  · have hchildren : db'.remoteChildren =
        db.remoteChildren.mapRows (probedRow req.leaseId clock.nowNs terminated) :=
      congrArg Database.remoteChildren done.result
    rw [hchildren, Table.lookup_mapRows, habsent] at hchild
    cases hchild

end WardenService

end Lets
