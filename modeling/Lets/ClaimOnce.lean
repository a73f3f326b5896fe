import Lets.Executor
import Lets.Sample

set_option autoImplicit false

/-!
# A receipt is claimed at most once

The calls of one executor interleave: a call reads the clock and verifies its receipt, and claims it
later in a transaction of its own.
-/

namespace Lets

open Library

variable {d : ℕ} {Hash : Type}

/-- The replay store, and the calls that have verified a receipt and not yet claimed it. -/
structure ExecutorState (d : ℕ) (Hash : Type) where
  store : ReplayStore Hash
  verified : List (Receipt d × Reading)

/-- A step of one call.  A claim that was committed is reported as failed where the authority anchor
does not confirm it. -/
inductive ExecutorEvent (d : ℕ)
  | verified (receipt : Receipt d) (clock : Reading)
  | claimed (receipt : Receipt d) (clock : Reading)
  | unconfirmed (receipt : Receipt d) (clock : Reading)
  | refused (receipt : Receipt d) (clock : Reading) (error : LetsError)

def ExecutorEvent.claimed? : ExecutorEvent d → Option (Receipt d)
  | claimed receipt _ => some receipt
  | _ => none

def claimedReceipts (events : List (ExecutorEvent d)) : List (Receipt d) :=
  events.filterMap ExecutorEvent.claimed?

namespace ReplayStore

/-- The receipt can no longer be claimed: its row is there, or the floor has reached its expiry. -/
def Spent (receipt : Receipt d) (store : ReplayStore Hash) : Prop :=
  (∃ row, store.receiptClaims.lookup receipt.receiptId = some row ∧
      row.expiresAtNs = receipt.expiresAtNs) ∨
    ∃ floor ∈ store.clockFloorNs, receipt.expiresAtNs ≤ floor

theorem le_nextFloor {nowNs : ℕ} {store : ReplayStore Hash} : nowNs ≤ store.nextFloor nowNs := by
  unfold nextFloor
  cases store.clockFloorNs with
  | none => exact Nat.le_refl _
  | some floor => exact Nat.le_max_left _ _

theorem floor_le_nextFloor {nowNs floor : ℕ} {store : ReplayStore Hash}
    (h : floor ∈ store.clockFloorNs) : floor ≤ store.nextFloor nowNs := by
  simp only [nextFloor, Option.mem_def.mp h]
  exact Nat.le_max_right _ _

end ReplayStore

namespace ReceiptVerifier

variable {verifier : ReceiptVerifier d Hash} {receipt other : Receipt d} {clock : Reading}
  {store store' : ReplayStore Hash}

namespace Claimed

variable (h : Claimed verifier receipt clock store store')

include h

theorem floor_passed {expiresAtNs : ℕ} (hexpired : expiresAtNs ≤ clock.nowNs) :
    ∃ floor ∈ store'.clockFloorNs, expiresAtNs ≤ floor :=
  ⟨_, h.floor_eq, hexpired.trans ReplayStore.le_nextFloor⟩

theorem floor_kept {expiresAtNs : ℕ} (hpassed : ∃ floor ∈ store.clockFloorNs, expiresAtNs ≤ floor) :
    ∃ floor ∈ store'.clockFloorNs, expiresAtNs ≤ floor := by
  obtain ⟨floor, hfloor, hle⟩ := hpassed
  exact ⟨_, h.floor_eq, hle.trans (ReplayStore.floor_le_nextFloor hfloor)⟩

theorem floor_ahead (hfresh : clock.nowNs + clock.uncertaintyNs < receipt.expiresAtNs) :
    ¬∃ floor ∈ store.clockFloorNs, receipt.expiresAtNs ≤ floor := by
  rintro ⟨floor, hfloor, hle⟩
  have hbound := h.floor_le floor hfloor
  omega

theorem spent : store'.Spent receipt :=
  .inl h.claim_eq

theorem spent_kept (hspent : store.Spent other) : store'.Spent other := by
  rcases hspent with ⟨row, hrow, hexpiry⟩ | hpassed
  · rcases h.claim_kept _ _ hrow with hkept | hexpired
    · exact .inl ⟨row, hkept, hexpiry⟩
    · exact .inr (h.floor_passed (hexpiry ▸ hexpired))
  · exact .inr (h.floor_kept hpassed)

theorem not_spent (hfresh : clock.nowNs + clock.uncertaintyNs < receipt.expiresAtNs) :
    ¬store.Spent receipt := by
  rintro (⟨row, hrow, hexpiry⟩ | hpassed)
  · have hexpired := h.claim_new row hrow
    omega
  · exact h.floor_ahead hfresh hpassed

end Claimed

variable [DecidableEq Hash]

def system (verifier : ReceiptVerifier d Hash) (identity : Option (ExecutorReplayIdentity Hash))
    (databaseInstanceId : Hash) : System (ExecutorState d Hash) (ExecutorEvent d) where
  Init s := s = ⟨.genesis identity databaseInstanceId verifier.zeroHash, []⟩
  Step s event s' :=
    match event with
    | .verified receipt clock => verifier.verify receipt clock = .ok () ∧
        s' = { s with verified := (receipt, clock) :: s.verified }
    | .claimed receipt clock | .unconfirmed receipt clock => (receipt, clock) ∈ s.verified ∧
        verifier.claim receipt clock s.store = .ok s'.store ∧
        s'.verified = s.verified.erase (receipt, clock)
    | .refused receipt clock error => (receipt, clock) ∈ s.verified ∧
        verifier.claim receipt clock s.store = .error error ∧
        s' = { s with verified := s.verified.erase (receipt, clock) }

section Run

variable {identity : Option (ExecutorReplayIdentity Hash)} {databaseInstanceId : Hash}
  {s s' : ExecutorState d Hash} {event : ExecutorEvent d} {events : List (ExecutorEvent d)}

/-- What a step does to the store: nothing, or the claim of a receipt that is still fresh. -/
inductive StoreStep (verifier : ReceiptVerifier d Hash) (store : ReplayStore Hash) :
    ExecutorEvent d → ReplayStore Hash → Prop
  | kept {event : ExecutorEvent d} (unclaimed : event.claimed? = none) :
      StoreStep verifier store event store
  | unconfirmed {receipt : Receipt d} {clock : Reading} {store' : ReplayStore Hash}
      (fresh : clock.nowNs + clock.uncertaintyNs < receipt.expiresAtNs)
      (done : Claimed verifier receipt clock store store') :
      StoreStep verifier store (.unconfirmed receipt clock) store'
  | claimed {receipt : Receipt d} {clock : Reading} {store' : ReplayStore Hash}
      (fresh : clock.nowNs + clock.uncertaintyNs < receipt.expiresAtNs)
      (done : Claimed verifier receipt clock store store') :
      StoreStep verifier store (.claimed receipt clock) store'

/-- The calls that have verified a receipt have found it fresh. -/
def VerifiedFresh (s : ExecutorState d Hash) : Prop :=
  ∀ call ∈ s.verified, call.2.nowNs + call.2.uncertaintyNs < call.1.expiresAtNs

theorem verifiedFresh_step (h : VerifiedFresh s)
    (step : (verifier.system identity databaseInstanceId).Step s event s') : VerifiedFresh s' := by
  intro call hcall
  cases event with
  | verified receipt clock =>
    obtain ⟨hverify, rfl⟩ := step
    rcases List.mem_cons.mp hcall with rfl | hold
    · exact verify_ok hverify
    · exact h call hold
  | claimed receipt clock | unconfirmed receipt clock =>
    obtain ⟨_, _, hrest⟩ := step
    rw [hrest] at hcall
    exact h call (List.mem_of_mem_erase hcall)
  | refused receipt clock error =>
    obtain ⟨_, _, rfl⟩ := step
    exact h call (List.mem_of_mem_erase hcall)

theorem store_step (h : VerifiedFresh s)
    (step : (verifier.system identity databaseInstanceId).Step s event s') :
    StoreStep verifier s.store event s'.store := by
  cases event with
  | verified receipt clock =>
    obtain ⟨_, rfl⟩ := step
    exact .kept rfl
  | claimed receipt clock =>
    obtain ⟨hmem, hclaim, _⟩ := step
    exact .claimed (h _ hmem) (claim_ok hclaim)
  | unconfirmed receipt clock =>
    obtain ⟨hmem, hclaim, _⟩ := step
    exact .unconfirmed (h _ hmem) (claim_ok hclaim)
  | refused receipt clock error =>
    obtain ⟨_, _, rfl⟩ := step
    exact .kept rfl

theorem run_induction {P : List (ExecutorEvent d) → ReplayStore Hash → Prop}
    (hgenesis : P [] (.genesis identity databaseInstanceId verifier.zeroHash))
    (hstep : ∀ events store event store', P events store →
      StoreStep verifier store event store' → P (events ++ [event]) store')
    {s₀ : ExecutorState d Hash} (hinit : (verifier.system identity databaseInstanceId).Init s₀)
    (run : (verifier.system identity databaseInstanceId).Run s₀ events s) : P events s.store := by
  have hboth : VerifiedFresh s ∧ P events s.store := by
    refine run.history (P := fun events s => VerifiedFresh s ∧ P events s.store) ?_ ?_
    · rw [show s₀ = _ from hinit]
      exact ⟨List.forall_mem_nil _, hgenesis⟩
    · intro events t event u ⟨hfresh, hP⟩ step
      exact ⟨verifiedFresh_step hfresh step, hstep _ _ _ _ hP (store_step hfresh step)⟩
  exact hboth.2

end Run

def play (verifier : ReceiptVerifier d Hash) (s : ExecutorState d Hash) :
    List (Receipt d × Reading) → ExecutorState d Hash × List (ExecutorEvent d)
  | [] => (s, [])
  | (receipt, clock) :: rest =>
    match verifier.verify receipt clock with
    | .error _ => verifier.play s rest
    | .ok () =>
      match verifier.claim receipt clock s.store with
      | .ok store' =>
        let played := verifier.play { s with store := store' } rest
        (played.1, .verified receipt clock :: .claimed receipt clock :: played.2)
      | .error error =>
        let played := verifier.play s rest
        (played.1, .verified receipt clock :: .refused receipt clock error :: played.2)

theorem play_run (verifier : ReceiptVerifier d Hash)
    (identity : Option (ExecutorReplayIdentity Hash)) (databaseInstanceId : Hash)
    (s : ExecutorState d Hash) (script : List (Receipt d × Reading)) :
    (verifier.system identity databaseInstanceId).Run s (verifier.play s script).2
      (verifier.play s script).1 := by
  induction script generalizing s with
  | nil => exact .nil s
  | cons call rest ih =>
    obtain ⟨receipt, clock⟩ := call
    simp only [play]
    split
    · exact ih s
    next hverify =>
      split
      next store' hclaim =>
        refine .cons ⟨hverify, rfl⟩ (.cons ⟨List.mem_cons_self, hclaim, ?_⟩ (ih _))
        exact (List.erase_cons_head _ _).symm
      next error hclaim =>
        refine .cons ⟨hverify, rfl⟩ (.cons ⟨List.mem_cons_self, hclaim, ?_⟩ (ih _))
        rw [List.erase_cons_head]

end ReceiptVerifier

theorem claimedReceipts_concat (events : List (ExecutorEvent d)) (event : ExecutorEvent d) :
    claimedReceipts (events ++ [event]) = claimedReceipts events ++ event.claimed?.toList :=
  filterMap_concat _ _ _

/-- In every interleaving of calls, with clocks that may go back and uncertainties that may change,
no receipt is claimed twice. -/
theorem receipt_claimed_once [DecidableEq Hash] {verifier : ReceiptVerifier d Hash}
    {identity : Option (ExecutorReplayIdentity Hash)} {databaseInstanceId : Hash}
    {s₀ s : ExecutorState d Hash} {events : List (ExecutorEvent d)}
    (hinit : (verifier.system identity databaseInstanceId).Init s₀)
    (run : (verifier.system identity databaseInstanceId).Run s₀ events s) :
    (claimedReceipts events).Nodup := by
  have hinv : (claimedReceipts events).Nodup ∧
      ∀ receipt ∈ claimedReceipts events, s.store.Spent receipt := by
    refine ReceiptVerifier.run_induction (P := fun events store => (claimedReceipts events).Nodup ∧
      ∀ receipt ∈ claimedReceipts events, store.Spent receipt) ?_ ?_ hinit run
    · exact ⟨List.nodup_nil, List.forall_mem_nil _⟩
    · rintro events store event store' ⟨hnodup, hspent⟩ step
      rw [claimedReceipts_concat]
      cases step with
      | kept hnone =>
        rw [hnone, Option.toList_none, List.append_nil]
        exact ⟨hnodup, hspent⟩
      | unconfirmed _ done =>
        rw [show ExecutorEvent.claimed? (.unconfirmed _ _) = none from rfl, Option.toList_none,
          List.append_nil]
        exact ⟨hnodup, fun receipt hmem => done.spent_kept (hspent receipt hmem)⟩
      | @claimed receipt clock _ fresh done =>
        have hnew : receipt ∉ claimedReceipts events :=
          fun hmem => done.not_spent fresh (hspent receipt hmem)
        refine ⟨hnodup.append (List.nodup_singleton receipt) (List.disjoint_singleton.mpr hnew),
          fun other hmem => ?_⟩
        rcases List.mem_append.mp hmem with hold | hsame
        · exact done.spent_kept (hspent other hold)
        · rw [List.mem_singleton.mp hsame]
          exact done.spent
  exact hinv.1

namespace Sample

inductive ClaimDigest
  | zero
  | receipt (receiptId : String)
  | event (prior databaseInstanceId previousDigest receiptDigest : ClaimDigest) (sequence : ℕ)
      (receiptId tenantId envelopeId wardenId leaseId audience : String) (resultingSequence : ℕ)
      (nonce : String) (claimedAtNs clockUncertaintyNs clockFloorNs expiresAtNs : ℕ)
  deriving DecidableEq

def verifier : ReceiptVerifier 1 ClaimDigest where
  policy :=
    { audience := "executor"
      tenantId := none
      envelopeId := none
      configEpoch := none
      allowedPolicyDigests := ∅
      allowedMachineDigests := ∅
      trustedWardens := ∅
      maxClockUncertaintyNs := 1 }
  signatureDecodes _ := true
  registryVerify _ := true
  receiptDigest receipt := .receipt receipt.receiptId
  claimDigest prior e := .event prior e.databaseInstanceId e.previousDigest e.receiptDigest
    e.sequence e.receiptId e.tenantId e.envelopeId e.wardenId e.leaseId e.audience
    e.resultingSequence e.nonce e.claimedAtNs e.clockUncertaintyNs e.clockFloorNs e.expiresAtNs
  zeroHash := .zero

def receipt (receiptId leaseId : String) (resultingSequence expiresAtNs : ℕ) : Receipt 1 where
  tenantId := "tenant"
  envelopeId := "envelope"
  configEpoch := 1
  receiptId := receiptId
  requestId := receiptId
  wardenId := "a"
  keyId := "a"
  policyId := "policy"
  policyVersion := "v1"
  policyDigest := "v1"
  machineDigest := "v1"
  leaseId := leaseId
  lineageId := "lineage"
  subjectId := "operator"
  executorAudience := "executor"
  transition := "run"
  sourceState := "idle"
  targetState := "idle"
  cost := units 1
  resultingSequence := resultingSequence
  evidenceDigest := none
  nonce := receiptId
  issuedAtNs := 1
  expiresAtNs := expiresAtNs
  signature := "a"

def emptyReplayStore : ExecutorState 1 ClaimDigest :=
  ⟨.genesis none .zero verifier.zeroHash, []⟩

/-- The second claim deletes the row of the first; then the clock goes back, and the first receipt
is presented again. -/
def claimingAgain : ExecutorState 1 ClaimDigest × List (ExecutorEvent 1) :=
  verifier.play emptyReplayStore
    [(receipt "r1" "lease" 1 6, exactly 2), (receipt "r2" "other" 1 20, exactly 10),
      (receipt "r1" "lease" 1 6, exactly 3)]

end Sample

open Sample

theorem receipt_claimed_once_claimingAgain :
    claimedReceipts claimingAgain.2 =
        [receipt "r1" "lease" 1 6, receipt "r2" "other" 1 20] ∧
      (claimingAgain.1.store.receiptClaims.lookup "r1").isNone = true ∧
      (claimedReceipts claimingAgain.2).Nodup := by
  have hrun : (verifier.system none .zero).Run emptyReplayStore
      claimingAgain.2 claimingAgain.1 :=
    verifier.play_run none .zero _ _
  have hinit : (verifier.system none .zero).Init emptyReplayStore := rfl
  exact ⟨by decide +kernel, by decide +kernel, receipt_claimed_once hinit hrun⟩

end Lets
