import Lets.Accounting
import Lets.Idempotency
import Lets.OutgoingStreams

set_option autoImplicit false

/-!
# A draining warden

While a warden drains, it issues no receipt and no voucher, allocates nothing, renews and resumes no
lease.
-/

namespace Lets

open Library

variable {d : ℕ} {Hash : Type}

def Database.under (runtime : RuntimeStatus) (db : Database d Hash) : Database d Hash :=
  { db with runtime }

def Database.resultUnder {α : Type} (runtime : RuntimeStatus) (result : Database d Hash × α) :
    Database d Hash × α :=
  (result.1.under runtime, result.2)

/-! ### What does not look at the mode -/

section ModeBlind

variable {svc : WardenService d Hash} {clock : Reading} {db db' : Database d Hash}
  {runtime : RuntimeStatus}

theorem Database.clockIsSafe_under : (db.under runtime).clockIsSafe clock =
    (db.clockIsSafe clock).map (Database.under runtime) := by
  unfold Database.clockIsSafe
  iterate 5 apply bind_map_same; intro _
  rfl

theorem Database.setInboundStream_under {source : String} {stream : InboundStream}
    (hdb : db' = db.under runtime) : db'.setInboundStream source stream =
      (db.setInboundStream source stream).map (Database.under runtime) := by
  subst hdb
  exact bind_map_same fun _ => rfl

theorem Database.setOutgoingStream_under {target : String} {stream : OutgoingStream}
    (hdb : db' = db.under runtime) : db'.setOutgoingStream target stream =
      (db.setOutgoingStream target stream).map (Database.under runtime) := by
  subst hdb
  exact bind_map_same fun _ => rfl

theorem Database.insertLease_under {leaseId : String} {lease : Lease d} :
    (db.under runtime).insertLease leaseId lease =
      (db.insertLease leaseId lease).map (Database.under runtime) := by
  unfold Database.insertLease
  iterate 4 apply bind_map_same; intro _
  rfl

theorem Database.creditVoucher_under {amount : ResourceVector d} {issued : Bool} :
    (db.under runtime).creditVoucher amount issued =
      (db.creditVoucher amount issued).map (Database.under runtime) := by
  unfold Database.creditVoucher
  apply ite_map
  · iterate 2 apply bind_map_same; intro _
    rfl
  · iterate 2 apply bind_map_same; intro _
    rfl

theorem Database.recordSequence_under {source : String} {sequence nowNs : ℕ}
    {stream : InboundStream} : (db.under runtime).recordSequence source sequence nowNs stream =
      (db.recordSequence source sequence nowNs stream).map (Database.resultUnder runtime) := by
  unfold Database.recordSequence
  apply ite_map
  · exact bind_map_same fun _ => rfl
  · rfl

namespace WardenService

theorem appendAudit_under {eventType entityType entityId actorId : String}
    {details : List (String × Detail d)} (hdb : db' = db.under runtime) :
    svc.appendAudit clock eventType entityType entityId actorId details db' =
      (svc.appendAudit clock eventType entityType entityId actorId details db).map
        (Database.under runtime) := by
  subst hdb
  exact bind_map_same fun _ => rfl

theorem writeTransaction_under {α : Type} {body : Database d Hash → Outcome (Database d Hash × α)}
    (hbody : ∀ db, body (db.under runtime) = (body db).map (Database.resultUnder runtime)) :
    writeTransaction (db.under runtime) body =
      (writeTransaction db body).map (Database.resultUnder runtime) := by
  unfold writeTransaction
  apply bind_map (hbody db)
  intro result
  exact bind_map_same fun _ => rfl

theorem queueRecord_under {kind : RecordKind} {recordId target : String} {position nowNs : ℕ}
    {payload : SignedRecord d} {supersedeOlder : Bool} :
    svc.queueRecord kind recordId target position payload nowNs supersedeOlder (db.under runtime) =
      (svc.queueRecord kind recordId target position payload nowNs supersedeOlder db).map
        (Database.under runtime) := by
  unfold queueRecord
  apply ite_map
  · rfl
  · exact bind_map_same fun _ => rfl

variable {voucher : TransferVoucher d}

theorem admitChild_under {policy : PolicyRow d} :
    svc.admitChild clock voucher policy (db.under runtime) =
      (svc.admitChild clock voucher policy db).map (Database.resultUnder runtime) := by
  unfold admitChild
  cases voucher.leaseRequest with
  | none => rfl
  | some request =>
    refine bind_map (f := Database.resultUnder runtime) ?_ fun _ => rfl
    unfold admitRemoteChild
    iterate 2 apply bind_map_same; intro _
    apply ite_map
    · rfl
    · apply bind_map_same; intro grant
      exact bind_map Database.insertLease_under fun _ => rfl

variable {actor : String}

theorem auditChild_under {child : Option (LeaseRequest × ChildOutcome)} :
    svc.auditChild clock actor voucher child (db.under runtime) =
      (svc.auditChild clock actor voucher child db).map (Database.under runtime) := by
  cases child with
  | none => rfl
  | some child => exact appendAudit_under rfl

theorem redeliver_under {digest : String} {existing : InboundAck} :
    svc.redeliver clock actor voucher digest existing (db.under runtime) =
      (svc.redeliver clock actor voucher digest existing db).map
        (Database.resultUnder runtime) := by
  unfold redeliver
  apply bind_map_same; intro _
  apply bind_map_same; intro stream
  apply bind_map_same; intro _
  apply ite_map
  · refine bind_map (Database.setInboundStream_under rfl) fun _ => ?_
    exact bind_map (appendAudit_under rfl) fun _ => rfl
  · rfl

theorem credit_under {digest : String} {policy : PolicyRow d} :
    svc.credit clock actor voucher digest policy (db.under runtime) =
      (svc.credit clock actor voucher digest policy db).map (Database.resultUnder runtime) := by
  unfold credit
  iterate 5 apply bind_map_same; intro _
  refine bind_map Database.recordSequence_under fun noted => ?_
  refine bind_map admitChild_under fun admitted => ?_
  apply bind_map_same; intro signature
  refine bind_map Database.creditVoucher_under fun _ => ?_
  refine bind_map auditChild_under fun _ => ?_
  refine bind_map (Database.setInboundStream_under rfl) fun _ => ?_
  exact bind_map (appendAudit_under rfl) fun _ => rfl

variable {identity : IdentityContext}

theorem acceptTransfer_under :
    svc.acceptTransfer clock identity voucher (db.under runtime) =
      (svc.acceptTransfer clock identity voucher db).map (Database.resultUnder runtime) := by
  unfold acceptTransfer
  iterate 3 apply bind_map_same; intro _
  apply writeTransaction_under
  intro db
  apply bind_map_same; intro _
  refine bind_map Database.clockIsSafe_under fun db => ?_
  iterate 5 apply bind_map_same; intro _
  -- the acknowledgements are the same on both sides
  dsimp only [Database.under]
  cases db.inboundAcks.lookup (voucher.sourceWarden, voucher.sequence) with
  | none => exact credit_under
  | some existing => exact redeliver_under

theorem finalizeTransfer_under {ack : TransferAck} :
    svc.finalizeTransfer clock identity ack (db.under runtime) =
      (svc.finalizeTransfer clock identity ack db).map (Database.resultUnder runtime) := by
  unfold finalizeTransfer
  iterate 2 apply bind_map_same; intro _
  apply writeTransaction_under
  intro db
  apply bind_map_same; intro _
  refine bind_map Database.clockIsSafe_under fun db => ?_
  iterate 3 apply bind_map_same; intro _
  apply bind_map_same; intro outgoing
  iterate 2 apply bind_map_same; intro _
  apply bind_map_same; intro stream
  apply ite_map
  · apply bind_map_same; intro _
    apply ite_map
    · refine bind_map (Database.setOutgoingStream_under rfl) fun _ => ?_
      exact bind_map (appendAudit_under rfl) fun _ => rfl
    · rfl
  · apply bind_map_same; intro _
    have hacknowledge : svc.acknowledgeRequest clock identity.subjectId ack
        outgoing.voucher.leaseRequest (db.under runtime) =
          (svc.acknowledgeRequest clock identity.subjectId ack
            outgoing.voucher.leaseRequest db).map (Database.under runtime) := by
      unfold acknowledgeRequest
      cases outgoing.voucher.leaseRequest with
      | none => exact bind_map_same fun _ => rfl
      | some request =>
        unfold acknowledgeChild
        iterate 3 apply bind_map_same; intro _
        exact appendAudit_under rfl
    refine bind_map hacknowledge fun db => ?_
    apply bind_map_same; intro _
    refine bind_map (Database.setOutgoingStream_under rfl) fun _ => ?_
    exact bind_map (appendAudit_under rfl) fun _ => rfl

theorem createTransferCheckpoint_under {target : String} {throughSequence : Option ℕ} :
    svc.createTransferCheckpoint clock identity target throughSequence (db.under runtime) =
      (svc.createTransferCheckpoint clock identity target throughSequence db).map
        (Database.resultUnder runtime) := by
  unfold createTransferCheckpoint
  iterate 2 apply bind_map_same; intro _
  apply writeTransaction_under
  intro db
  refine bind_map Database.clockIsSafe_under fun db => ?_
  apply bind_map_same; intro _
  apply bind_map_same; intro stream
  iterate 2 apply bind_map_same; intro _
  apply ite_map
  · exact bind_map_same fun _ => rfl
  · iterate 3 apply bind_map_same; intro _
    apply bind_map_same; intro signature
    refine bind_map (Database.setOutgoingStream_under rfl) fun _ => ?_
    refine bind_map queueRecord_under fun _ => ?_
    exact bind_map (appendAudit_under rfl) fun _ => rfl

theorem ingestTransferCheckpoint_under {checkpoint : TransferCheckpoint} :
    svc.ingestTransferCheckpoint clock identity checkpoint (db.under runtime) =
      (svc.ingestTransferCheckpoint clock identity checkpoint db).map
        (Database.resultUnder runtime) := by
  unfold ingestTransferCheckpoint
  iterate 3 apply bind_map_same; intro _
  apply writeTransaction_under
  intro db
  apply bind_map_same; intro _
  refine bind_map Database.clockIsSafe_under fun db => ?_
  iterate 3 apply bind_map_same; intro _
  apply bind_map_same; intro stream
  iterate 2 apply bind_map_same; intro _
  apply ite_map
  · exact bind_map_same fun _ => rfl
  · refine bind_map (Database.setInboundStream_under rfl) fun _ => ?_
    exact bind_map (appendAudit_under rfl) fun _ => rfl

end WardenService

end ModeBlind

def Operation.settlesTransfers : Operation d → Bool
  | .acceptTransfer .. | .finalizeTransfer .. | .createTransferCheckpoint ..
  | .ingestTransferCheckpoint .. => true
  | _ => false

/-- Transfers are settled alike in every mode: with the same reply, and with the same effect on
everything but the runtime status, which stays. -/
theorem WardenService.exec_under {svc : WardenService d Hash} {clock : Reading}
    {operation : Operation d} (hsettles : operation.settlesTransfers = true)
    (runtime : RuntimeStatus) (db : Database d Hash) :
    svc.exec clock operation (db.under runtime) =
      (svc.exec clock operation db).map (Database.resultUnder runtime) := by
  cases operation with
  | acceptTransfer identity voucher => exact acceptTransfer_under
  | finalizeTransfer identity ack => exact finalizeTransfer_under
  | createTransferCheckpoint identity target through => exact createTransferCheckpoint_under
  | ingestTransferCheckpoint identity checkpoint => exact ingestTransferCheckpoint_under
  | _ => cases hsettles

/-! ### What a draining warden does not do -/

/-- What a lease may become while the warden drains: it may end and give back what it holds. -/
structure Lease.WindsDown (lease lease' : Lease d) : Prop where
  terms_eq : lease'.terms = lease.terms
  expiry_eq : lease'.expiresAtNs = lease.expiresAtNs
  active : lease'.status = .active → lease.status = .active
  holds : WardenService.Holds lease lease'

theorem Lease.WindsDown.refl (lease : Lease d) : lease.WindsDown lease :=
  ⟨rfl, rfl, id, .kept rfl rfl⟩

theorem Lease.WindsDown.trans {lease lease' lease'' : Lease d} (h : lease.WindsDown lease')
    (h' : lease'.WindsDown lease'') : lease.WindsDown lease'' where
  terms_eq := h'.terms_eq.trans h.terms_eq
  expiry_eq := h'.expiry_eq.trans h.expiry_eq
  active := fun hactive => h.active (h'.active hactive)
  holds := by
    cases h.holds with
    | kept residual_eq over_eq =>
      cases h'.holds with
      | kept residual_eq' over_eq' =>
        exact .kept (residual_eq'.trans residual_eq) (over_eq'.trans over_eq)
      | released residual_eq' before after => exact .released residual_eq' (over_eq ▸ before) after
    | released residual_eq before after =>
      cases h'.holds with
      | kept residual_eq' over_eq' =>
        exact .released (fun i => residual_eq' ▸ residual_eq i) before (over_eq'.trans after)
      | released residual_eq' _ after' => exact .released residual_eq' before after'

structure Database.WindsDown (db db' : Database d Hash) : Prop where
  receipts_eq : db'.receipts = db.receipts
  consumed_eq : db'.consumed = db.consumed
  transferredOut_eq : db'.transferredOut = db.transferredOut
  freePool_le : ∀ i, db.freePool i ≤ db'.freePool i
  outgoing : ∀ key row', db'.outgoingTransfers.lookup key = some row' →
    ∃ row, db.outgoingTransfers.lookup key = some row ∧ row'.voucher = row.voucher
  leases : ∀ leaseId lease, db.leases.lookup leaseId = some lease →
    ∃ lease', db'.leases.lookup leaseId = some lease' ∧ lease.WindsDown lease'
  /-- A lease that is not among them came with a voucher of another warden. -/
  imported : ∀ leaseId lease', db'.leases.lookup leaseId = some lease' →
    leaseId ∈ db.leases ∨ lease'.parentWarden ≠ none

namespace Database.WindsDown

variable {db db' db'' : Database d Hash}

theorem refl (db : Database d Hash) : db.WindsDown db where
  receipts_eq := rfl
  consumed_eq := rfl
  transferredOut_eq := rfl
  freePool_le := fun _ => le_rfl
  outgoing := fun _ row hrow => ⟨row, hrow, rfl⟩
  leases := fun _ lease hlease => ⟨lease, hlease, .refl lease⟩
  imported := fun _ _ hlease => .inl (Table.mem_of_lookup hlease)

theorem trans (h : db.WindsDown db') (h' : db'.WindsDown db'') : db.WindsDown db'' where
  receipts_eq := h'.receipts_eq.trans h.receipts_eq
  consumed_eq := h'.consumed_eq.trans h.consumed_eq
  transferredOut_eq := h'.transferredOut_eq.trans h.transferredOut_eq
  freePool_le := fun i => (h.freePool_le i).trans (h'.freePool_le i)
  outgoing := by
    intro key row'' hrow''
    obtain ⟨row', hrow', hvoucher'⟩ := h'.outgoing key row'' hrow''
    obtain ⟨row, hrow, hvoucher⟩ := h.outgoing key row' hrow'
    exact ⟨row, hrow, hvoucher'.trans hvoucher⟩
  leases := by
    intro leaseId lease hlease
    obtain ⟨lease', hlease', hdown⟩ := h.leases leaseId lease hlease
    obtain ⟨lease'', hlease'', hdown'⟩ := h'.leases leaseId lease' hlease'
    exact ⟨lease'', hlease'', hdown.trans hdown'⟩
  imported := by
    intro leaseId lease'' hlease''
    rcases h'.imported leaseId lease'' hlease'' with hmem | hremote
    · obtain ⟨lease', hlease'⟩ := Table.mem_iff_lookup.mp hmem
      apply (h.imported leaseId lease' hlease').imp_right
      intro hremote
      -- the row that came in is still the same lease
      obtain ⟨found, hfound, hdown⟩ := h'.leases leaseId lease' hlease'
      obtain rfl := some_unique hfound hlease''
      rwa [(Lease.keeps hdown.terms_eq).parentWarden]
    · exact .inr hremote

end Database.WindsDown

namespace WardenService

variable {svc : WardenService d Hash} {clock : Reading} {operation : Operation d}
  {db db' : Database d Hash} {out : Response d}

theorem SignedBy.runtimeActive {voucher : TransferVoucher d}
    (h : SignedBy svc clock db db' operation voucher) : db.runtime.mode = .active := by
  cases h with
  | remoteSpawned done => exact done.runtimeActive
  | prepared done => exact done.runtimeActive

theorem Debits.runtimeActive {debtor : String} {amount : ResourceVector d}
    (h : Debits svc clock db db' operation debtor amount) : db.runtime.mode = .active := by
  cases h with
  | authorized done => exact done.runtimeActive
  | spawned done => exact done.runtimeActive
  | remoteSpawned done => exact done.runtimeActive

theorem Admits.freePool_le {voucher : TransferVoucher d} {policy : PolicyRow d}
    {leases : Table String (Lease d)} {total freePool : ResourceVector d}
    {child : Option (LeaseRequest × ChildOutcome)}
    (h : Admits svc clock voucher policy db leases total freePool child) (i : Fin d) :
    db.freePool i ≤ freePool i := by
  cases h with
  | pool _ free => exact free i ▸ Nat.le_add_right _ _
  | fenced _ _ _ free => exact free i ▸ Nat.le_add_right _ _
  | issued => exact le_rfl

namespace Effect

variable (h : Effect svc clock db operation db' out)

include h

variable (hdraining : db.runtime.mode ≠ .active)

include hdraining

theorem ledger_of_draining : db'.charges = db.charges ∧ db'.transferredOut = db.transferredOut ∧
      ∀ i, db.freePool i ≤ db'.freePool i := by
  cases h with
  | rootIssued done | spawned done | remoteSpawned done | authorized done | renewed done
  | prepared done => exact absurd done.runtimeActive hdraining
  | replayed _ _ _ _ result | runtimeSet _ _ result | policyRegistered _ _ result
  | attempted _ result | prunedTerminal _ result | prunedHistory _ _ result =>
    rw [result]
    exact ⟨rfl, rfl, fun _ => le_rfl⟩
  | unmoved done | switched done =>
    rw [done.result]
    exact ⟨rfl, rfl, fun _ => le_rfl⟩
  | redelivered _ done | finalized _ done | checkpointCreated _ done | checkpointIngested _ done =>
    rw [done.result]
    exact ⟨rfl, rfl, fun _ => le_rfl⟩
  | revokedAgain _ _ _ _ done | revocationKnown _ _ _ done | revocationStored _ _ done =>
    rw [done.result, done.materialized.result]
    exact ⟨rfl, rfl, fun _ => le_rfl⟩
  | branchRevoked _ _ _ done result =>
    rw [result, done.result, done.materialized.result]
    exact ⟨rfl, rfl, fun _ => le_rfl⟩
  | closed done =>
    have hfree : db'.freePool = done.freePool := congrArg Database.freePool done.result
    refine ⟨by rw [done.result]; rfl, by rw [done.result]; rfl, fun i => ?_⟩
    rw [hfree, done.freePool_eq i]
    exact Nat.le_add_right _ _
  | reclaimed _ done =>
    have hfree : db'.freePool = done.freePool := congrArg Database.freePool done.result
    refine ⟨by rw [done.result]; rfl, by rw [done.result]; rfl, fun i => ?_⟩
    rw [hfree]
    exact done.freePool_le i
  | credited _ done =>
    have hfree : db'.freePool = done.freePool := congrArg Database.freePool done.result
    refine ⟨by rw [done.result]; rfl, by rw [done.result]; rfl, fun i => ?_⟩
    rw [hfree]
    exact done.admits.freePool_le i

theorem lease_of_draining {leaseId : String} {lease : Lease d}
    (hlease : db.leases.lookup leaseId = some lease) :
    ∃ lease', db'.leases.lookup leaseId = some lease' ∧ lease.WindsDown lease' := by
  have hdebits : ¬∃ debtor amount, Debits svc clock db db' operation debtor amount := by
    rintro ⟨_, _, hdebits⟩
    exact hdraining hdebits.runtimeActive
  obtain ⟨lease', hlease', hterms, hstep⟩ := h.row_terms hlease
  obtain ⟨found, hfound, _, hholds⟩ := h.holds hdebits hlease
  obtain rfl := some_unique hfound hlease'
  refine ⟨found, hlease', hterms, ?_, ?_, hholds⟩
  · cases hstep with
    | renewed _ done => exact absurd done.runtimeActive hdraining
    | kept _ expiry_eq | switched _ _ _ _ expiry_eq | closed _ _ _ _ expiry_eq
    | revoked _ _ _ _ expiry_eq | expired _ _ _ _ expiry_eq => exact expiry_eq
  · intro hactive
    cases hstep with
    | kept status_eq => exact status_eq ▸ hactive
    | renewed _ _ _ status_eq => exact status_eq ▸ hactive
    | switched _ done _ status_eq =>
      rcases done.moves with ⟨_, _, hto⟩ | ⟨_, hmode, _⟩
      · exact absurd (hactive.symm.trans (status_eq.trans hto)) (by simp)
      · exact absurd hmode hdraining
    | closed _ _ _ status_eq | revoked _ _ _ status_eq | expired _ _ _ status_eq =>
      exact absurd (hactive.symm.trans status_eq) (by simp)

theorem windsDown : db.WindsDown db' := by
  obtain ⟨hcharges, hout, hfree⟩ := h.ledger_of_draining hdraining
  refine ⟨congrArg Prod.fst hcharges, congrArg Prod.snd hcharges, hout, hfree, ?_,
    fun _ _ hlease => h.lease_of_draining hdraining hlease, ?_⟩
  · intro key row' hrow'
    cases hrow : db.outgoingTransfers.lookup key with
    | none =>
      obtain ⟨_, _, hsigned, _⟩ := h.transfer_new (AList.lookup_eq_none.mp hrow) hrow'
      exact absurd hsigned.runtimeActive hdraining
    | some row =>
      refine ⟨row, rfl, ?_⟩
      have hstep := h.transfer_step hrow
      rw [hrow'] at hstep
      cases hstep with
      | kept => rfl
      | finalized => rfl
  · intro leaseId lease' hlease'
    by_cases hmem : leaseId ∈ db.leases
    · exact .inl hmem
    · refine .inr ?_
      cases h.row_new hmem hlease' with
      | root _ _ _ _ done => exact absurd done.runtimeActive hdraining
      | child done => exact absurd done.runtimeActive hdraining
      | remote _ _ _ _ _ _ _ warden_eq => exact warden_eq ▸ (by simp)

end Effect

def drainingSystem (svc : WardenService d Hash) (envelope : Envelope d) :
    System (Database d Hash) (Call d) :=
  (svc.system envelope).restrict fun _ _ db' => db'.runtime.mode = .draining

theorem windsDown_of_run {envelope : Envelope d} {calls later : List (Call d)}
    (hdraining : db.runtime.mode = .draining) (hremembers : Remembers calls db)
    (run : (svc.drainingSystem envelope).Run db later db') :
    db.WindsDown db' ∧ signed (calls ++ later) ⊆ signed calls := by
  have hinvariant : db'.runtime.mode = .draining ∧ db.WindsDown db' ∧
      Remembers (calls ++ later) db' ∧ signed (calls ++ later) ⊆ signed calls := by
    refine run.history (P := fun later db' => db'.runtime.mode = .draining ∧ db.WindsDown db' ∧
      Remembers (calls ++ later) db' ∧ signed (calls ++ later) ⊆ signed calls) ?_ ?_
    · rw [List.append_nil]
      exact ⟨hdraining, .refl db, hremembers, subset_rfl⟩
    · intro later db₁ call db₂ hP hstep
      obtain ⟨hmode, hdown, hremembers, hsigned⟩ := hP
      rw [← List.append_assoc]
      refine ⟨hstep.2, ?_⟩
      rcases effect_cases hstep.1 with ⟨out, hreply, heffect⟩ | ⟨⟨e, hreply⟩, rfl⟩
      · have hinactive : db₁.runtime.mode ≠ .active := by
          rw [hmode]
          simp
        refine ⟨hdown.trans (heffect.windsDown hinactive),
          remembers_step hremembers hreply heffect, ?_⟩
        intro voucher hvoucher
        rcases mem_signed_concat hremembers hreply heffect hvoucher with hold | hnew
        · exact hsigned hold
        · exact absurd hnew.runtimeActive hinactive
      · refine ⟨hdown, ?_, ?_⟩
        · intro requestId row hrow
          obtain ⟨c, hc, hc_reply⟩ := hremembers requestId row hrow
          exact ⟨c, List.mem_append_left _ hc, hc_reply⟩
        · have hsame : signed (calls ++ later ++ [call]) = signed (calls ++ later) :=
            answers_concat_error hreply
          rw [hsame]
          exact hsigned
  exact ⟨hinvariant.2.1, hinvariant.2.2.2⟩

end WardenService

/-- While a warden drains, no receipt is issued and no voucher signed, nothing is consumed,
transferred out or taken from the free pool, no expiry moves and no lease becomes active; transfers
are settled as in any other mode, and retries are answered. -/
theorem draining_warden_winds_down {svc : WardenService d Hash} {envelope : Envelope d}
    {db₀ db db' : Database d Hash} {calls later : List (Call d)}
    (hinit : (svc.system envelope).Init db₀) (run : (svc.system envelope).Run db₀ calls db)
    (hdraining : db.runtime.mode = .draining)
    (drain : (svc.drainingSystem envelope).Run db later db') :
    (issued (calls ++ later) = issued calls ∧ signed (calls ++ later) = signed calls ∧
      db.WindsDown db') ∧
    (∀ clock operation runtime, operation.settlesTransfers = true →
      svc.exec clock operation (db'.under runtime) =
        (svc.exec clock operation db').map (Database.resultUnder runtime)) ∧
    ∀ db₁ call db₂ since out request again clock, (svc.system envelope).Reachable db₁ →
      (svc.system envelope).Step db₁ call db₂ → (svc.system envelope).Run db₂ since db' →
      call.reply = .ok out → call.operation.request = some request →
      call.operation.Repeats again → db'.ClockSafe clock →
      ((∃ db'', svc.serve clock again db' = (db'', .ok out)) ↔
        ∀ req, call.operation = .revokeBranch req → svc.MayMark clock req.leaseId db') := by
  have haccounts := accounts_of_run hinit run
  have haccounts' := accounts_of_run hinit (run.trans drain.of_restrict)
  obtain ⟨hdown, hsigned⟩ :=
    WardenService.windsDown_of_run hdraining haccounts.remembers drain
  refine ⟨⟨?_, ?_, hdown⟩, fun clock operation runtime hsettles =>
    WardenService.exec_under hsettles runtime db', ?_⟩
  · -- what is issued is what the receipts table holds, and the table has not changed
    ext receipt
    constructor
    · intro hmem
      have hstored := haccounts'.charged.stored receipt hmem
      rw [hdown.receipts_eq] at hstored
      exact haccounts.charged.from_issued _ receipt hstored
    · intro hmem
      have hstored := haccounts.charged.stored receipt hmem
      rw [← hdown.receipts_eq] at hstored
      exact haccounts'.charged.from_issued _ receipt hstored
  · apply Finset.Subset.antisymm hsigned
    intro voucher hmem
    obtain ⟨call, hcall, out, hreply, hvoucher⟩ := mem_answers_iff.mp hmem
    exact mem_answers_iff.mpr ⟨call, List.mem_append_left _ hcall, out, hreply, hvoucher⟩
  · intro db₁ call db₂ since out request again clock hreach hstep hsince hreply hrequest hrepeats
      hclock
    have hissued : db'.IssuedBeforeExpiry := WardenService.issuedBeforeExpiry_of_reachable
      (hreach.run (.cons hstep hsince))
    exact (WardenService.standing_of_run hstep hreply hsince).answered_iff hissued hrequest hrepeats
      hclock

open Sample

def Sample.drain : Operation 1 := .setRuntimeMode ⟨"drain", operator, .draining, "reason"⟩

def Sample.drainedWarden : Database 1 ℕ × List (Call 1) :=
  (service "b").play (genesis "b" 4) [(exactly 1, registerPolicy),
    (exactly 2, .issueRoot "root" "line" (rootRequest 3)), (exactly 3, drain)]

def Sample.drainedDelivery : Database 1 ℕ × Outcome (Response 1) :=
  (service "b").serve (exactly 4) (.acceptTransfer operator (voucher 1 "t1")) drainedWarden.1

theorem draining_warden_winds_down_delivery :
    drainedDelivery.2.toOption.isSome = true ∧ drainedWarden.1.freePool 0 = 1 ∧
      drainedDelivery.1.freePool 0 = 4 ∧
      drainedWarden.1.WindsDown drainedDelivery.1 := by
  have hfacts : drainedDelivery.2.toOption.isSome = true ∧
      drainedWarden.1.freePool 0 = 1 ∧ drainedDelivery.1.freePool 0 = 4 ∧
      drainedWarden.1.runtime.mode = .draining ∧
      drainedDelivery.1.runtime.mode = .draining := by decide +kernel
  obtain ⟨hok, hbefore, hafter, hmode, hmode'⟩ := hfacts
  have hrun : ((service "b").system (envelope 4)).Run (genesis "b" 4)
    drainedWarden.2 drainedWarden.1 := (service "b").play_run (envelope 4) _ _
  have hstep : ((service "b").system (envelope 4)).Step drainedWarden.1
    ⟨exactly 4, .acceptTransfer operator (voucher 1 "t1"),
      drainedDelivery.2⟩ drainedDelivery.1 := rfl
  have hdrain : ((service "b").drainingSystem (envelope 4)).Run drainedWarden.1
    _ drainedDelivery.1 := .snoc (.nil _) ⟨hstep, hmode'⟩
  exact ⟨hok, hbefore, hafter, (draining_warden_winds_down rfl hrun hmode hdrain).1.2.2⟩

/-- A draining warden, with a clock that has moved back within its uncertainty, refuses the
repetition of a revocation that it has recorded. -/
theorem draining_retry_refused :
    ∃ db, ((service "a").system (envelope 70)).Reachable db ∧
      db.runtime.mode = .draining ∧
      (db.idempotency.lookup "revoke").map IdempotencyRow.scope = some "revoke:0" ∧
      db.ClockSafe ⟨2, 1⟩ ∧
      (service "a").Rejects ⟨2, 1⟩
        (.revokeBranch ⟨"revoke", operator, "0", "reason", none⟩) db := by
  have hreach := (service "a").play_reachable (envelope 70)
    (wideBranch ++ [(exactly 3, drain)])
  obtain ⟨db, hdb⟩ : ∃ db, ((service "a").play (.genesis (service "a").wardenId
    (service "a").keyId (envelope 70))
      (wideBranch ++ [(exactly 3, drain)])).1 = db := ⟨_, rfl⟩
  have hfacts : db.runtime.mode = .draining ∧
      (db.idempotency.lookup "revoke").map IdempotencyRow.scope = some "revoke:0" ∧
      ((2 ≤ maxResource ∧ 1 ≤ db.envelope.maxClockUncertaintyNs) ∧
        2 + 1 ≤ maxResource ∧ ∀ floor ∈ db.clockFloorNs, floor ≤ 2 + 1) ∧
      ((service "a").exec ⟨2, 1⟩
        (.revokeBranch ⟨"revoke", operator, "0", "reason", none⟩) db).toOption.isNone =
          true := by
    subst hdb
    decide +kernel
  rw [hdb] at hreach
  obtain ⟨hmode, hrecorded, ⟨⟨hnow, huncertainty⟩, hinterval, hfloor⟩, hrefused⟩ := hfacts
  exact ⟨db, hreach, hmode, hrecorded, ⟨hnow, huncertainty, hinterval, hfloor⟩,
    WardenService.rejects_of_isNone hrefused⟩

end Lets
