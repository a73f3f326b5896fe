import Lets.ExactlyOnce

set_option autoImplicit false

/-!
# A cluster of wardens

Several wardens, each with its own database, that exchange signed records over an unreliable
network.
-/

namespace Lets

open Library

variable {d : ℕ} {Hash : Type}

/-- The signed record an operation is called with, and the warden that is to have signed it. -/
def Operation.presents : Operation d → Option (SignedRecord d × String)
  | acceptTransfer _ voucher => some (.voucher voucher, voucher.sourceWarden)
  | finalizeTransfer _ ack => some (.ack ack, ack.targetWarden)
  | ingestRevocation _ revocation => some (.revocation revocation, revocation.issuerWarden)
  | ingestTransferCheckpoint _ checkpoint => some (.checkpoint checkpoint, checkpoint.sourceWarden)
  | _ => none

def Call.releases (call : Call d) : Option (SignedRecord d) :=
  match call.operation, call.reply with
  | _, .ok (.voucher voucher) => some (.voucher voucher)
  | .acceptTransfer _ _, .ok (.ack ack) => some (.ack ack)
  | .revokeBranch _, .ok (.revocation revocation) => some (.revocation revocation)
  | .createTransferCheckpoint _ _ _, .ok (.checkpoint checkpoint) => some (.checkpoint checkpoint)
  | _, _ => none

theorem Call.voucher_of_releases {call : Call d} {voucher : TransferVoucher d}
    (h : call.releases = some (.voucher voucher)) : call.reply = .ok (.voucher voucher) := by
  unfold releases at h
  split at h <;> simp_all

/-- What happens in a cluster: a warden is called at some time, or it tells a peer the status of one
of its leases. -/
inductive Event (d : ℕ)
  | call (warden : String) (timeNs : ℕ) (call : Call d)
  | report (warden leaseId : String) (status : LeaseStatus)

inductive Action (d : ℕ)
  | call (warden : String) (timeNs : ℕ) (clock : Reading) (operation : Operation d)
  | report (warden leaseId : String) (status : LeaseStatus)

def Event.callOf (warden : String) : Event d → Option (Call d)
  | call w _ c => if w = warden then some c else none
  | report .. => none

structure ClusterState (d : ℕ) (Hash : Type) where
  database : String → Database d Hash
  history : List (Event d)

def ClusterState.calls (warden : String) (s : ClusterState d Hash) : List (Call d) :=
  s.history.filterMap (Event.callOf warden)

/-- The wardens of one envelope and their shares of its budget. -/
structure Deployment (d : ℕ) (Hash : Type) where
  members : Finset String
  service : String → WardenService d Hash
  envelope : String → Envelope d
  budget : ResourceVector d
  wardenId_eq : ∀ warden ∈ members, (service warden).wardenId = warden
  shares : ∀ i, ∑ warden ∈ members, (envelope warden).initialLocalShare i = budget i

namespace Deployment

/-- What a warden verifies as signed by another, that one is a member and has released. -/
def Unforged (D : Deployment d Hash) (s : ClusterState d Hash) (warden : String)
    (operation : Operation d) : Prop :=
  ∀ record source, operation.presents = some (record, source) →
    (D.service warden).verifyRecord record source = true →
    source ∈ D.members ∧ ∃ call ∈ s.calls source, call.releases = some record

def genesis (D : Deployment d Hash) : ClusterState d Hash where
  database warden := .genesis (D.service warden).wardenId (D.service warden).keyId
    (D.envelope warden)
  history := []

def system (D : Deployment d Hash) : System (ClusterState d Hash) (Event d) where
  Init s := s = D.genesis
  Step s event s' := s'.history = s.history ++ [event] ∧
    match event with
    | .call warden _ call => warden ∈ D.members ∧ D.Unforged s warden call.operation ∧
        ∃ db', (D.service warden).serve call.clock call.operation (s.database warden) =
            (db', call.reply) ∧
          s'.database = Function.update s.database warden db'
    | .report warden leaseId status => warden ∈ D.members ∧
        (∃ lease, (s.database warden).leases.lookup leaseId = some lease ∧
          lease.status = status) ∧ s'.database = s.database

variable {D : Deployment d Hash} {s s' : ClusterState d Hash} {warden : String}

variable {call : Call d}

theorem calls_concat_call {timeNs : ℕ}
    (hhistory : s'.history = s.history ++ [.call warden timeNs call]) (other : String) :
    s'.calls other = if other = warden then s.calls other ++ [call] else s.calls other := by
  unfold ClusterState.calls
  rw [hhistory, List.filterMap_append, List.filterMap_cons, List.filterMap_nil]
  split_ifs with hw
  · rw [hw, show (Event.call warden timeNs call).callOf warden = some call from if_pos rfl]
  · rw [show (Event.call warden timeNs call).callOf other = none from if_neg (Ne.symm hw),
      List.append_nil]

theorem calls_concat_report {leaseId : String} {status : LeaseStatus}
    (hhistory : s'.history = s.history ++ [.report warden leaseId status]) (other : String) :
    s'.calls other = s.calls other := by
  unfold ClusterState.calls
  rw [hhistory, List.filterMap_append]
  exact List.append_nil _

theorem local_run (hreach : D.system.Reachable s) (warden : String) :
    ((D.service warden).system (D.envelope warden)).Run (D.genesis.database warden)
      (s.calls warden) (s.database warden) := by
  refine hreach.invariant (P := fun s => ((D.service warden).system (D.envelope warden)).Run
    (D.genesis.database warden) (s.calls warden) (s.database warden)) ?_ ?_
  · rintro s rfl
    exact .nil _
  · rintro s (⟨w, timeNs, call⟩ | ⟨w, leaseId, status⟩) s' hrun ⟨hhistory, hstep⟩
    · obtain ⟨_, _, db', hserve, hdatabase⟩ := hstep
      rw [calls_concat_call hhistory, hdatabase]
      split_ifs with hw
      · subst hw
        rw [Function.update_self]
        exact .snoc hrun hserve
      · rw [Function.update_of_ne hw]
        exact hrun
    · obtain ⟨_, _, hdatabase⟩ := hstep
      rw [calls_concat_report hhistory, hdatabase]
      exact hrun

theorem init_local (warden : String) :
    ((D.service warden).system (D.envelope warden)).Init (D.genesis.database warden) := rfl

theorem accounts (hreach : D.system.Reachable s) (warden : String) :
    Accounts (D.service warden) (D.envelope warden) (s.calls warden) (s.database warden) :=
  accounts_of_run (init_local warden) (local_run hreach warden)

theorem streams (hreach : D.system.Reachable s) (warden : String) :
    WardenService.Streams (D.service warden) (deliveries (s.calls warden)) (s.database warden) :=
  (WardenService.streams_of_run (init_local warden) (local_run hreach warden)).1

variable {event : Event d}

theorem mem_calls_step (hstep : D.system.Step s event s') (h : call ∈ s.calls warden) :
    call ∈ s'.calls warden := by
  unfold ClusterState.calls at h ⊢
  rw [hstep.1, List.filterMap_append]
  exact List.mem_append_left _ h

theorem mem_signed_step (hstep : D.system.Step s event s') {voucher : TransferVoucher d}
    (h : voucher ∈ signed (s.calls warden)) : voucher ∈ signed (s'.calls warden) := by
  obtain ⟨call, hcall, hanswer⟩ := mem_answers_iff.mp h
  exact mem_answers_iff.mpr ⟨call, mem_calls_step hstep hcall, hanswer⟩

theorem unforged_of_mem (hreach : D.system.Reachable s) (hmem : call ∈ s.calls warden) :
    D.Unforged s warden call.operation := by
  refine hreach.invariant (P := fun s => call ∈ s.calls warden →
    D.Unforged s warden call.operation) ?_ ?_ hmem
  · rintro s rfl
    rintro ⟨⟩
  · intro s event s' ih step hnew
    have hkept : D.Unforged s warden call.operation → D.Unforged s' warden call.operation := by
      intro hold record source hpresents hverified
      obtain ⟨hmember, released, hreleased, hrecord⟩ := hold record source hpresents hverified
      exact ⟨hmember, released, mem_calls_step step hreleased, hrecord⟩
    by_cases hold : call ∈ s.calls warden
    · exact hkept (ih hold)
    · obtain ⟨hhistory, hstep⟩ := step
      cases event with
      | report w leaseId status =>
        rw [calls_concat_report hhistory] at hnew
        exact absurd hnew hold
      | call w timeNs called =>
        rw [calls_concat_call hhistory] at hnew
        split_ifs at hnew with hw
        · rcases List.mem_append.mp hnew with hc | hc
          · exact absurd hc hold
          · rw [List.mem_singleton] at hc
            subst hc hw
            exact hkept hstep.2.1
        · exact absurd hnew hold

theorem accepted_signed (hreach : D.system.Reachable s) (hmember : warden ∈ D.members)
    {voucher : TransferVoucher d} {ack : TransferAck}
    (hmem : (voucher, ack) ∈ deliveries (s.calls warden)) :
    voucher.targetWarden = warden ∧ voucher.sourceWarden ∈ D.members ∧
      voucher ∈ signed (s.calls voucher.sourceWarden) := by
  obtain ⟨_, hshown⟩ := WardenService.streams_of_run (init_local warden) (local_run hreach warden)
  obtain ⟨identity, hpresented⟩ := hshown _ hmem
  obtain ⟨call, hcall, identity', hoperation, _⟩ := mem_deliveries_iff.mp hmem
  have hunforged := unforged_of_mem hreach hcall
  rw [hoperation] at hunforged
  obtain ⟨hsource, released, hreleased, hrecord⟩ := hunforged _ _ rfl hpresented.verified
  refine ⟨hpresented.target.trans (D.wardenId_eq _ hmember), hsource, ?_⟩
  exact mem_answers_iff.mpr ⟨released, hreleased, _, Call.voucher_of_releases hrecord, rfl⟩

theorem accepted_eq_of_key (hreach : D.system.Reachable s) (hmember : warden ∈ D.members)
    {delivery delivery' : TransferVoucher d × TransferAck}
    (hmem : delivery ∈ deliveries (s.calls warden))
    (hmem' : delivery' ∈ deliveries (s.calls warden)) (hkey : delivery.1.key = delivery'.1.key) :
    delivery.1 = delivery'.1 := by
  obtain ⟨htarget, _, hsigned⟩ := accepted_signed hreach hmember hmem
  obtain ⟨htarget', _, hsigned'⟩ := accepted_signed hreach hmember hmem'
  obtain ⟨hsource, hsequence⟩ := Prod.mk.inj hkey
  rw [← hsource] at hsigned'
  exact (accounts hreach _).outbound.unique _ hsigned _ hsigned' (htarget.trans htarget'.symm)
    hsequence

theorem step_effect {timeNs : ℕ} {out : Response d}
    (hstep : D.system.Step s (.call warden timeNs call) s') (hreply : call.reply = .ok out) :
    WardenService.Effect (D.service warden) call.clock (s.database warden) call.operation
      (s'.database warden) out := by
  obtain ⟨_, _, _, db', hserve, hdatabase⟩ := hstep
  have hlocal : ((D.service warden).system (D.envelope warden)).Step (s.database warden) call db' :=
    hserve
  rw [hdatabase, Function.update_self]
  rcases WardenService.effect_cases hlocal with ⟨out', hreply', heffect⟩ | ⟨⟨e, hreply'⟩, _⟩
  · obtain rfl := Except.ok.inj (hreply.symm.trans hreply')
    exact heffect
  · cases hreply.symm.trans hreply'

theorem step_database_cases (hstep : D.system.Step s event s') (warden : String) :
    s'.database warden = s.database warden ∨
      ∃ timeNs call out, event = .call warden timeNs call ∧ call.reply = .ok out := by
  cases event with
  | report other leaseId status =>
    obtain ⟨_, _, _, hdatabase⟩ := hstep
    rw [hdatabase]
    exact .inl rfl
  | call other timeNs call =>
    obtain ⟨_, _, _, db', hserve, hdatabase⟩ := hstep
    rw [hdatabase]
    by_cases hw : warden = other
    · subst hw
      have hlocal : ((D.service warden).system (D.envelope warden)).Step (s.database warden) call
        db' := hserve
      rw [Function.update_self]
      rcases WardenService.step_cases hlocal with ⟨out, hreply, _⟩ | ⟨_, hsame⟩
      · exact .inr ⟨timeNs, call, out, rfl, hreply⟩
      · exact .inl hsame
    · rw [Function.update_of_ne hw]
      exact .inl rfl

/-! ### Playing a script -/

instance (D : Deployment d Hash) (s : ClusterState d Hash) (warden : String)
    (operation : Operation d) : Decidable (D.Unforged s warden operation) :=
  match h : operation.presents with
  | none => .isTrue fun _ _ heq => absurd (h.symm.trans heq) nofun
  | some (record, source) =>
    decidable_of_iff ((D.service warden).verifyRecord record source = true →
        source ∈ D.members ∧ ∃ call ∈ s.calls source, call.releases = some record) <| by
      unfold Unforged
      rw [h]
      constructor
      · rintro hrecord _ _ ⟨⟩
        exact hrecord
      · exact fun hall => hall record source rfl

def Permitted (D : Deployment d Hash) (s : ClusterState d Hash) : Action d → Prop
  | .call warden _ _ operation => warden ∈ D.members ∧ D.Unforged s warden operation
  | .report warden leaseId status => warden ∈ D.members ∧
      ((s.database warden).leases.lookup leaseId).map Lease.status = some status

instance (D : Deployment d Hash) (s : ClusterState d Hash) (action : Action d) :
    Decidable (D.Permitted s action) :=
  match action with
  | .call .. => inferInstanceAs (Decidable (_ ∧ _))
  | .report .. => inferInstanceAs (Decidable (_ ∧ _))

def next (D : Deployment d Hash) (s : ClusterState d Hash) : Action d →
    Event d × ClusterState d Hash
  | .call warden timeNs clock operation =>
    let served := (D.service warden).serve clock operation (s.database warden)
    let event := Event.call warden timeNs ⟨clock, operation, served.2⟩
    (event, ⟨Function.update s.database warden served.1, s.history ++ [event]⟩)
  | .report warden leaseId status =>
    (.report warden leaseId status,
      ⟨s.database, s.history ++ [.report warden leaseId status]⟩)

theorem next_step {action : Action d} (h : D.Permitted s action) :
    D.system.Step s (D.next s action).1 (D.next s action).2 := by
  cases action with
  | call warden timeNs clock operation => exact ⟨rfl, h.1, h.2, _, rfl, rfl⟩
  | report warden leaseId status =>
    obtain ⟨lease, hlease, hstatus⟩ := Option.map_eq_some_iff.mp h.2
    exact ⟨rfl, h.1, ⟨lease, hlease, hstatus⟩, rfl⟩

/-- Take the actions of a script one after another, leaving out those that are not permitted or that
`C` excludes. -/
def play (D : Deployment d Hash) (C : ClusterState d Hash → Event d → ClusterState d Hash → Prop)
    [∀ s event s', Decidable (C s event s')] :
    ClusterState d Hash → List (Action d) → ClusterState d Hash
  | s, [] => s
  | s, action :: rest =>
    if D.Permitted s action ∧ C s (D.next s action).1 (D.next s action).2 then
      D.play C (D.next s action).2 rest
    else D.play C s rest

theorem play_reachable {C : ClusterState d Hash → Event d → ClusterState d Hash → Prop}
    [∀ s event s', Decidable (C s event s')] {s : ClusterState d Hash}
    (hreach : (D.system.restrict C).Reachable s) (script : List (Action d)) :
    (D.system.restrict C).Reachable (D.play C s script) := by
  induction script generalizing s with
  | nil => exact hreach
  | cons action rest ih =>
    unfold play
    split_ifs with h
    · exact ih (hreach.run (.snoc (.nil s) ⟨next_step h.1, h.2⟩))
    · exact ih hreach

end Deployment

end Lets
