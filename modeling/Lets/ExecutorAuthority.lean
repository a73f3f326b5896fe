import Lets.Library.Anchor
import Lets.Library.HashChain
import Lets.ClaimOnce

set_option autoImplicit false

/-!
# Copies of a replay database under one anchor

The replay database of an executor may be cloned or restored from a snapshot.
-/

namespace Lets

open Library

variable {d : ℕ} {Hash : Type}

structure ExecutorAuthorityCheckpoint (Hash : Type) where
  identity : ExecutorReplayIdentity Hash
  schemaVersion : ℕ
  databaseInstanceId : Hash
  claimSequence : ℕ
  claimDigest : Hash
  clockFloorNs : Option ℕ
  deriving DecidableEq

namespace ExecutorAuthorityCheckpoint

def head (checkpoint : ExecutorAuthorityCheckpoint Hash) : ℕ × Hash :=
  (checkpoint.claimSequence, checkpoint.claimDigest)

def stableIdentity (checkpoint : ExecutorAuthorityCheckpoint Hash) :
    ExecutorReplayIdentity Hash × ℕ × Hash :=
  (checkpoint.identity, checkpoint.schemaVersion, checkpoint.databaseInstanceId)

def requiresAdvance [DecidableEq Hash] (zeroHash : Hash)
    (anchored current : ExecutorAuthorityCheckpoint Hash) (claimDigestAt : ℕ → Option Hash) :
    Outcome Bool := do
  require (anchored.stableIdentity = current.stableIdentity)
    (.storage "executor authority anchor identity does not match this replay database")
  require (anchored.claimSequence ≤ current.claimSequence)
    (.storage "executor replay database is older than its monotonic authority anchor")
  if current.claimSequence = anchored.claimSequence then do
    require (current.claimDigest = anchored.claimDigest)
      (.storage "executor replay claim head diverges from its authority anchor")
    require (FloorKept anchored.clockFloorNs current.clockFloorNs)
      (.storage "executor replay clock floor moved behind its authority anchor")
    pure (current.clockFloorNs ≠ anchored.clockFloorNs)
  else do
    let historical :=
      if anchored.claimSequence = 0 then some zeroHash else claimDigestAt anchored.claimSequence
    require (historical = some anchored.claimDigest)
      (.storage "executor replay database does not extend the anchored claim history")
    require (FloorKept anchored.clockFloorNs current.clockFloorNs)
      (.storage "executor replay clock floor moved behind its authority anchor")
    pure true

end ExecutorAuthorityCheckpoint

namespace ReplayStore

def authorityCheckpoint (store : ReplayStore Hash) : Outcome (ExecutorAuthorityCheckpoint Hash) := do
  let identity ← orError store.identity (.storage "anchored executor replay identity is missing")
  pure
    { identity
      schemaVersion := store.schemaVersion
      databaseInstanceId := store.databaseInstanceId
      claimSequence := store.claimSequence
      claimDigest := store.claimDigest
      clockFloorNs := store.clockFloorNs }

def head (store : ReplayStore Hash) : ℕ × Hash := (store.claimSequence, store.claimDigest)

def claimDigestAt (store : ReplayStore Hash) (sequence : ℕ) : Option Hash :=
  (store.claimHistory.find? fun row => row.sequence = sequence).map ClaimHistoryRow.claimDigest

end ReplayStore

namespace ReceiptVerifier

/-- `reconcile`: the anchor afterwards. -/
def reconcile [DecidableEq Hash] (verifier : ReceiptVerifier d Hash)
    (anchored : ExecutorAuthorityCheckpoint Hash) (store : ReplayStore Hash) :
    Outcome (ExecutorAuthorityCheckpoint Hash) := do
  let checkpoint ← store.authorityCheckpoint
  let advance ← anchored.requiresAdvance verifier.zeroHash checkpoint store.claimDigestAt
  pure (if advance then checkpoint else anchored)

/-- A replay database under its anchor; a transaction is one call of `verify_and_claim`. -/
def anchoring [DecidableEq Hash] (verifier : ReceiptVerifier d Hash) :
    Anchoring (ReplayStore Hash) (ExecutorAuthorityCheckpoint Hash) (Receipt d × Reading)
      (ClaimHistoryRow Hash) LetsError where
  log := ReplayStore.claimHistory
  reconcile := verifier.reconcile
  commit call := verifier.verifyAndClaim call.1 call.2

def claimChain (verifier : ReceiptVerifier d Hash) : HashChain (ClaimHistoryRow Hash) (ℕ × Hash) where
  genesis := (0, verifier.zeroHash)
  tip row := (row.sequence, row.claimDigest)
  Follows tip row := ∃ event, event.sequence = tip.1 + 1 ∧ event.previousDigest = tip.2 ∧
    row = verifier.claimRow event

def DigestInjective (verifier : ReceiptVerifier d Hash) : Prop :=
  Function.Injective2 verifier.claimDigest

variable {verifier : ReceiptVerifier d Hash}

theorem claimChain_collisionFree (hinj : verifier.DigestInjective) :
    verifier.claimChain.CollisionFree where
  tip_ne_genesis := by
    rintro tip row ⟨event, hsequence, _, rfl⟩ heq
    have hzero : event.sequence = 0 := congrArg Prod.fst heq
    omega
  eq_of_tip_eq := by
    rintro tip tip' row row' ⟨event, hsequence, hprevious, rfl⟩ ⟨event', hsequence', hprevious', rfl⟩
      heq
    have hdigest := congrArg Prod.snd heq
    obtain ⟨_, rfl⟩ := hinj hdigest
    refine ⟨Prod.ext ?_ ?_, rfl⟩
    · omega
    · exact hprevious.symm.trans hprevious'

structure ChainedStore (verifier : ReceiptVerifier d Hash) (databaseInstanceId : Hash)
    (store : ReplayStore Hash) : Prop where
  valid : verifier.claimChain.Valid store.claimHistory
  head_eq : store.head = verifier.claimChain.tipOf store.claimHistory
  floor_eq : store.clockFloorNs = store.claimHistory.getLast?.map ClaimHistoryRow.clockFloorNs
  instance_eq : store.databaseInstanceId = databaseInstanceId

structure AnchoredLog (verifier : ReceiptVerifier d Hash)
    (anchor : ExecutorAuthorityCheckpoint Hash) (log : List (ClaimHistoryRow Hash)) : Prop where
  valid : verifier.claimChain.Valid log
  head_eq : anchor.head = verifier.claimChain.tipOf log

variable {receipt : Receipt d} {clock : Reading} {databaseInstanceId : Hash}
  {store store' : ReplayStore Hash}

/-- All that a claim event takes from a store is in its claim history. -/
theorem ChainedStore.claimEvent_eq (h : verifier.ChainedStore databaseInstanceId store)
    (h' : verifier.ChainedStore databaseInstanceId store')
    (hsame : store.claimHistory = store'.claimHistory) (claimedAtNs clockUncertaintyNs : ℕ) :
    verifier.claimEvent receipt claimedAtNs clockUncertaintyNs store =
      verifier.claimEvent receipt claimedAtNs clockUncertaintyNs store' := by
  have hhead : store.head = store'.head := by rw [h.head_eq, h'.head_eq, hsame]
  have hsequence : store.claimSequence = store'.claimSequence := congrArg Prod.fst hhead
  have hdigest : store.claimDigest = store'.claimDigest := congrArg Prod.snd hhead
  have hfloor : store.clockFloorNs = store'.clockFloorNs := by rw [h.floor_eq, h'.floor_eq, hsame]
  simp only [claimEvent, ReplayStore.nextFloor, h.instance_eq, h'.instance_eq, hsequence, hdigest,
    hfloor]

theorem Claimed.chainedStore (h : Claimed verifier receipt clock store store')
    (hstore : verifier.ChainedStore databaseInstanceId store) :
    verifier.ChainedStore databaseInstanceId store' := by
  have hrow : verifier.claimChain.Follows (verifier.claimChain.tipOf store.claimHistory)
      (verifier.claimRow (verifier.claimEvent receipt clock.nowNs clock.uncertaintyNs store)) := by
    rw [← hstore.head_eq]
    exact ⟨_, rfl, rfl, rfl⟩
  constructor
  · rw [h.history_eq]
    exact .snoc hstore.valid hrow
  · rw [h.history_eq, HashChain.tipOf_concat, ReplayStore.head, h.sequence_eq, h.digest_eq]
    rfl
  · rw [h.history_eq, List.getLast?_concat, h.floor_eq]
    rfl
  · exact h.databaseInstanceId_eq.trans hstore.instance_eq

section Anchored

variable [DecidableEq Hash] {anchor anchor' : ExecutorAuthorityCheckpoint Hash}

omit [DecidableEq Hash] in
theorem mem_of_claimDigestAt {sequence : ℕ} {digest : Hash}
    (h : store.claimDigestAt sequence = some digest) :
    ∃ row ∈ store.claimHistory, verifier.claimChain.tip row = (sequence, digest) := by
  obtain ⟨row, hfind, rfl⟩ := Option.map_eq_some_iff.mp h
  have hsequence : row.sequence = sequence := by simpa using List.find?_some hfind
  exact ⟨row, List.mem_of_find?_eq_some hfind, Prod.ext hsequence rfl⟩

theorem reconcile_ok (h : verifier.reconcile anchor store = .ok anchor') :
    anchor'.head = store.head ∧
      (anchor.head = store.head ∨ anchor.head = verifier.claimChain.genesis ∨
        ∃ row ∈ store.claimHistory, verifier.claimChain.tip row = anchor.head) := by
  simp only [reconcile, ReplayStore.authorityCheckpoint, bind_ok_iff, pure_ok_iff,
    orError_ok_iff] at h
  obtain ⟨checkpoint, ⟨identity, _, rfl⟩, advance, hadvance, rfl⟩ := h
  simp only [ExecutorAuthorityCheckpoint.requiresAdvance, bind_ok_iff, require_ok_iff,
    exists_unit_iff] at hadvance
  obtain ⟨_, _, hadvance⟩ := hadvance
  by_cases hsequence : store.claimSequence = anchor.claimSequence
  · rw [if_pos hsequence] at hadvance
    simp only [bind_ok_iff, require_ok_iff, exists_unit_iff] at hadvance
    obtain ⟨hdigest, _, _⟩ := hadvance
    have hhead : anchor.head = store.head := Prod.ext hsequence.symm hdigest.symm
    refine ⟨?_, .inl hhead⟩
    cases advance with
    | true => rfl
    | false => exact hhead
  · rw [if_neg hsequence] at hadvance
    simp only [bind_ok_iff, require_ok_iff, exists_unit_iff, pure_ok_iff] at hadvance
    obtain ⟨hhistorical, _, rfl⟩ := hadvance
    refine ⟨rfl, .inr ?_⟩
    split_ifs at hhistorical with hzero
    · exact .inl (Prod.ext hzero (Option.some.inj hhistorical).symm)
    · exact .inr (mem_of_claimDigestAt hhistorical)

theorem anchoring_sound (hinj : verifier.DigestInjective) :
    verifier.anchoring.Sound (verifier.ChainedStore databaseInstanceId) verifier.AnchoredLog where
  commit_valid := by
    intro call store store' hstore hcommit
    exact (claim_ok (verifyAndClaim_ok_iff.mp hcommit).2).chainedStore hstore
  commit_prefix := by
    intro call store store' _ hcommit
    exact ⟨_, (claim_ok (verifyAndClaim_ok_iff.mp hcommit).2).history_eq.symm⟩
  reconcile_prefix := by
    intro anchor anchor' log store hanchored hstore h
    have hcheck := (reconcile_ok h).2
    rw [hanchored.head_eq, hstore.head_eq] at hcheck
    exact hanchored.valid.prefix_of_check (claimChain_collisionFree hinj) hstore.valid hcheck
  reconcile_anchored := by
    intro anchor anchor' log store _ hstore h
    exact ⟨hstore.valid, (reconcile_ok h).1.trans hstore.head_eq⟩

end Anchored

/-! ### Claims across copies -/

/-- The anchor as `initialize` writes it. -/
def genesisCheckpoint (identity : ExecutorReplayIdentity Hash) (databaseInstanceId zeroHash : Hash) :
    ExecutorAuthorityCheckpoint Hash where
  identity := identity
  schemaVersion := 5
  databaseInstanceId := databaseInstanceId
  claimSequence := 0
  claimDigest := zeroHash
  clockFloorNs := none

variable [DecidableEq Hash] {ι : Type} [DecidableEq ι]

/-- What a committed call was made on and with: the claim history it found, its receipt and its
reading. -/
def calledOn (claim : Committed ι (ReplayStore Hash) (Receipt d × Reading)) :
    List (ClaimHistoryRow Hash) × Receipt d × Reading :=
  (claim.store.claimHistory.dropLast, claim.txn)

def copies (verifier : ReceiptVerifier d Hash) (identity : ExecutorReplayIdentity Hash)
    (databaseInstanceId : Hash) (origin : ι) :
    System (Copies ι (ReplayStore Hash) (ExecutorAuthorityCheckpoint Hash) (Receipt d × Reading))
      (CopyEvent ι (ReplayStore Hash) (Receipt d × Reading) LetsError) :=
  verifier.anchoring.system origin (.genesis (some identity) databaseInstanceId verifier.zeroHash)
    (genesisCheckpoint identity databaseInstanceId verifier.zeroHash)

section Run

variable {identity : ExecutorReplayIdentity Hash} {databaseInstanceId : Hash} {origin : ι}
  {s₀ s s' : Copies ι (ReplayStore Hash) (ExecutorAuthorityCheckpoint Hash) (Receipt d × Reading)}
  {event : CopyEvent ι (ReplayStore Hash) (Receipt d × Reading) LetsError}
  {events : List (CopyEvent ι (ReplayStore Hash) (Receipt d × Reading) LetsError)}

def IdsDistinct (claims : List (Committed ι (ReplayStore Hash) (Receipt d × Reading))) : Prop :=
  ∀ claim ∈ claims, ∀ claim' ∈ claims, claim.txn.1.receiptId = claim'.txn.1.receiptId →
    claim.txn.1 = claim'.txn.1

instance (claims : List (Committed ι (ReplayStore Hash) (Receipt d × Reading))) :
    Decidable (IdsDistinct claims) :=
  inferInstanceAs (Decidable (∀ claim ∈ claims, ∀ claim' ∈ claims,
    claim.txn.1.receiptId = claim'.txn.1.receiptId → claim.txn.1 = claim'.txn.1))

/-- Every row of a history is of a claim that was made, once, and cannot be made again. -/
structure Accounted (claims : List (Committed ι (ReplayStore Hash) (Receipt d × Reading)))
    (store : ReplayStore Hash) : Prop where
  nodup : (store.claimHistory.map ClaimHistoryRow.receiptId).Nodup
  spent : ∀ row ∈ store.claimHistory, ∃ claim ∈ claims,
    claim.txn.1.receiptId = row.receiptId ∧ store.Spent claim.txn.1

variable {claims : List (Committed ι (ReplayStore Hash) (Receipt d × Reading))}

omit [DecidableEq Hash] [DecidableEq ι] in
theorem Accounted.mono {claims' : List (Committed ι (ReplayStore Hash) (Receipt d × Reading))}
    (h : Accounted claims store) (hsub : claims ⊆ claims') : Accounted claims' store where
  nodup := h.nodup
  spent row hrow := by
    obtain ⟨claim, hclaim, hid, hspent⟩ := h.spent row hrow
    exact ⟨claim, hsub hclaim, hid, hspent⟩

omit [DecidableEq Hash] [DecidableEq ι] in
theorem Accounted.claimed {claim : Committed ι (ReplayStore Hash) (Receipt d × Reading)}
    (h : Accounted claims store) (hids : IdsDistinct claims) (hclaim : claim ∈ claims)
    (hfresh : claim.txn.2.nowNs + claim.txn.2.uncertaintyNs < claim.txn.1.expiresAtNs)
    (hdone : Claimed verifier claim.txn.1 claim.txn.2 store store') : Accounted claims store' := by
  have hnew : claim.txn.1.receiptId ∉ store.claimHistory.map ClaimHistoryRow.receiptId := by
    intro hmem
    obtain ⟨row, hrow, hid⟩ := List.mem_map.mp hmem
    obtain ⟨other, hother, hotherId, hspent⟩ := h.spent row hrow
    rw [hids other hother claim hclaim (hotherId.trans hid)] at hspent
    exact hdone.not_spent hfresh hspent
  constructor
  · rw [hdone.history_eq, List.map_append]
    exact h.nodup.append (List.nodup_singleton _) (List.disjoint_singleton.mpr hnew)
  · rw [hdone.history_eq]
    intro row hrow
    rcases List.mem_append.mp hrow with hold | hlast
    · obtain ⟨other, hother, hid, hspent⟩ := h.spent row hold
      exact ⟨other, hother, hid, hdone.spent_kept hspent⟩
    · rw [List.mem_singleton.mp hlast]
      exact ⟨claim, hclaim, rfl, hdone.spent⟩

section

variable (hinit : (verifier.copies identity databaseInstanceId origin).Init s₀)

include hinit

variable (run : (verifier.copies identity databaseInstanceId origin).Run s₀ events s)

include run

theorem accounted_of_run (hids : IdsDistinct (Anchoring.commits events)) {copy : ι}
    (hstore : s.stores copy = some store) : Accounted (Anchoring.commits events) store := by
  induction run generalizing copy store with
  | nil =>
    rw [show s₀ = _ from hinit] at hstore
    by_cases hcopy : copy = origin
    · simp only [hcopy, Function.update_self, Option.some.injEq] at hstore
      rw [← hstore]
      exact ⟨List.nodup_nil, List.forall_mem_nil _⟩
    · simp only [Function.update_of_ne hcopy] at hstore
      cases hstore
  | @snoc t u l event run step ih =>
    have hsub : Anchoring.commits l ⊆ Anchoring.commits (l ++ [event]) := by
      rw [Anchoring.commits_concat]
      exact List.subset_append_left _ _
    have hbefore : IdsDistinct (Anchoring.commits l) :=
      fun claim hclaim claim' hclaim' => hids claim (hsub hclaim) claim' (hsub hclaim')
    rcases (Anchoring.step_effect step).store_cases hstore with ⟨source, hsource⟩ |
      ⟨claim, old, rfl, hcopy, _, hold, hcommit⟩
    · exact (ih hbefore hsource).mono hsub
    · have hclaim : claim ∈ Anchoring.commits (l ++ [.committed claim]) := by
        rw [Anchoring.commits_concat]
        exact List.mem_concat_self
      obtain ⟨hverify, hclaimed⟩ := verifyAndClaim_ok_iff.mp hcommit
      exact ((ih hbefore hold).mono hsub).claimed hids hclaim (verify_ok hverify) (claim_ok hclaimed)

theorem acknowledged_accounted (hids : IdsDistinct (Anchoring.commits events)) :
    ∀ ack ∈ Anchoring.acknowledgements events, Accounted (Anchoring.commits events) ack.2 := by
  induction run with
  | nil => exact List.forall_mem_nil _
  | @snoc t u l event run step ih =>
    have hsub : Anchoring.commits l ⊆ Anchoring.commits (l ++ [event]) := by
      rw [Anchoring.commits_concat]
      exact List.subset_append_left _ _
    have hbefore : IdsDistinct (Anchoring.commits l) :=
      fun claim hclaim claim' hclaim' => hids claim (hsub hclaim) claim' (hsub hclaim')
    intro ack hack
    rw [Anchoring.acknowledgements_concat] at hack
    rcases List.mem_append.mp hack with hold | hnew
    · exact (ih hbefore ack hold).mono hsub
    · cases event with
      | acknowledged done st =>
        rw [List.mem_singleton.mp hnew]
        exact (accounted_of_run hinit run hbefore step.1).mono hsub
      | copied _ _ | admitted _ | observed _ _ | refused _ _ | committed _ | lost _ | crashed _ =>
        exact absurd hnew List.not_mem_nil

end

omit [DecidableEq Hash] [DecidableEq ι] in
theorem genesis_chained : verifier.ChainedStore databaseInstanceId
    (.genesis (some identity) databaseInstanceId verifier.zeroHash) :=
  ⟨.nil, rfl, rfl, rfl⟩

omit [DecidableEq Hash] [DecidableEq ι] in
theorem genesis_anchored : verifier.AnchoredLog
    (genesisCheckpoint identity databaseInstanceId verifier.zeroHash) [] :=
  ⟨.nil, rfl⟩

end Run

end ReceiptVerifier

section Acknowledged

open ReceiptVerifier Anchoring

variable [DecidableEq Hash] {ι : Type} [DecidableEq ι] {verifier : ReceiptVerifier d Hash}
  {identity : ExecutorReplayIdentity Hash} {databaseInstanceId : Hash} {origin : ι}
  {s₀ s : Copies ι (ReplayStore Hash) (ExecutorAuthorityCheckpoint Hash) (Receipt d × Reading)}
  {events : List (CopyEvent ι (ReplayStore Hash) (Receipt d × Reading) LetsError)}

section

variable (hinj : verifier.DigestInjective)

include hinj

variable (hinit : (verifier.copies identity databaseInstanceId origin).Init s₀)
  (run : (verifier.copies identity databaseInstanceId origin).Run s₀ events s)

include hinit run

theorem committed_on : ∀ claim ∈ commits events, ∃ store,
    verifier.ChainedStore databaseInstanceId store ∧
      verifier.verifyAndClaim claim.txn.1 claim.txn.2 store = .ok claim.store := by
  induction run with
  | nil => exact List.forall_mem_nil _
  | @snoc t u l event run step ih =>
    intro claim hclaim
    rw [commits_concat] at hclaim
    rcases List.mem_append.mp hclaim with hold | hnew
    · exact ih claim hold
    · cases event with
      | committed done =>
        rw [List.mem_singleton.mp hnew]
        obtain ⟨store, hstore, _, hcommit, _⟩ := step
        have hchained :=
          chained_of_run (anchoring_sound hinj) genesis_chained genesis_anchored hinit run
        exact ⟨store, hchained.valid _ store hstore, hcommit⟩
      | copied _ _ | admitted _ | observed _ _ | refused _ _ | acknowledged _ _ | lost _
      | crashed _ => exact absurd hnew List.not_mem_nil

theorem committed_history {claim : Committed ι (ReplayStore Hash) (Receipt d × Reading)}
    (hclaim : claim ∈ commits events) : ∃ store,
    verifier.ChainedStore databaseInstanceId store ∧ calledOn claim = (store.claimHistory, claim.txn) ∧
      verifier.verifyAndClaim claim.txn.1 claim.txn.2 store = .ok claim.store ∧
      claim.store.claimHistory = store.claimHistory ++ [verifier.claimRow
        (verifier.claimEvent claim.txn.1 claim.txn.2.nowNs claim.txn.2.uncertaintyNs store)] := by
  obtain ⟨store, hchained, hcommit⟩ := committed_on hinj hinit run claim hclaim
  have hhistory := (claim_ok (verifyAndClaim_ok_iff.mp hcommit).2).history_eq
  exact ⟨store, hchained, by rw [calledOn, hhistory, List.dropLast_concat], hcommit, hhistory⟩

/-- The digest of the last row covers the receipt and the reading, and through the digest before it
the history the claim was made on. -/
theorem history_eq_iff_calledOn (hids : IdsDistinct (commits events))
    {claim claim' : Committed ι (ReplayStore Hash) (Receipt d × Reading)}
    (hclaim : claim ∈ commits events) (hclaim' : claim' ∈ commits events) :
    claim.store.claimHistory = claim'.store.claimHistory ↔ calledOn claim = calledOn claim' := by
  obtain ⟨store, hchained, hcalled, _, hhistory⟩ := committed_history hinj hinit run hclaim
  obtain ⟨store', hchained', hcalled', _, hhistory'⟩ := committed_history hinj hinit run hclaim'
  rw [hcalled, hcalled', hhistory, hhistory', Prod.mk.injEq]
  constructor
  · intro hsame
    obtain ⟨hbefore, hrows⟩ := List.append_inj' hsame rfl
    have hdigest := congrArg ClaimHistoryRow.claimDigest (List.singleton_inj.mp hrows)
    obtain ⟨_, hevent⟩ := hinj hdigest
    have hreceipt := hids claim hclaim claim' hclaim' (congrArg ClaimEvent.receiptId hevent)
    have hnow : claim.txn.2.nowNs = claim'.txn.2.nowNs := congrArg ClaimEvent.claimedAtNs hevent
    have huncertainty : claim.txn.2.uncertaintyNs = claim'.txn.2.uncertaintyNs :=
      congrArg ClaimEvent.clockUncertaintyNs hevent
    exact ⟨hbefore, Prod.ext hreceipt (Reading.ext hnow huncertainty)⟩
  · rintro ⟨hbefore, htxn⟩
    rw [hbefore, htxn, hchained.claimEvent_eq hchained' hbefore]

theorem acknowledged_last
    {ack : Committed ι (ReplayStore Hash) (Receipt d × Reading) × ReplayStore Hash}
    (hack : ack ∈ acknowledgements events) :
    ack.1 ∈ commits events ∧ ∃ before row, ack.1.store.claimHistory = before ++ [row] ∧
      row.receiptId = ack.1.txn.1.receiptId ∧ before ++ [row] <+: ack.2.claimHistory := by
  have hflight := inFlight_of_run (anchoring_sound hinj) genesis_chained genesis_anchored hinit run
  have hcommit : ack.1 ∈ commits events :=
    hflight.once.subset (List.mem_append_left _ (List.mem_map_of_mem hack))
  obtain ⟨store, _, _, _, hhistory⟩ := committed_history hinj hinit run hcommit
  exact ⟨hcommit, _, _, hhistory, rfl, hhistory ▸ hflight.acknowledged ack hack⟩

end

/-- An acknowledged claim is in the history of every copy that is acknowledged later.  Two commits
leave one history behind exactly when they were called on the same history with the same receipt and
reading; a receipt is acknowledged twice exactly when two acknowledged claims were so called. -/
theorem acknowledged_claims_of_copies (hinj : verifier.DigestInjective)
    (hinit : (verifier.copies identity databaseInstanceId origin).Init s₀)
    (run : (verifier.copies identity databaseInstanceId origin).Run s₀ events s)
    (hids : IdsDistinct (commits events)) :
    ((acknowledgements events).Pairwise fun earlier later =>
        ∃ row ∈ later.2.claimHistory, earlier.1.store.claimHistory.getLast? = some row ∧
          row.receiptId = earlier.1.txn.1.receiptId) ∧
      (∀ claim ∈ commits events, ∃ store, calledOn claim = (store.claimHistory, claim.txn) ∧
        verifier.verifyAndClaim claim.txn.1 claim.txn.2 store = .ok claim.store) ∧
      (∀ claim ∈ commits events, ∀ claim' ∈ commits events,
        claim.store.claimHistory = claim'.store.claimHistory ↔ calledOn claim = calledOn claim') ∧
      (((acknowledgements events).map fun ack => ack.1.txn.1).Nodup ↔
        ((acknowledgements events).map fun ack => calledOn ack.1).Nodup) ∧
      (((commits events).map calledOn).Nodup →
        ((acknowledgements events).map fun ack => ack.1.txn.1).Nodup) := by
  have hsound : verifier.anchoring.Sound (verifier.ChainedStore databaseInstanceId)
      verifier.AnchoredLog := anchoring_sound hinj
  have hchain := acknowledgements_chain
    (chained_of_run hsound genesis_chained genesis_anchored hinit run)
  have hflight := inFlight_of_run hsound genesis_chained genesis_anchored hinit run
  have honce : ((acknowledgements events).map fun ack => ack.1.txn.1).Nodup ↔
      ((acknowledgements events).map fun ack => calledOn ack.1).Nodup := by
    rw [List.Nodup, List.pairwise_map, List.Nodup, List.pairwise_map]
    constructor
    · exact List.Pairwise.imp fun hne hsame => hne (congrArg (fun call => call.2.1) hsame)
    · intro hnodup
      refine (hchain.and hnodup).imp_of_mem ?_
      rintro earlier later hearlier hlater ⟨hle, hne⟩ hsame
      obtain ⟨hcommit, before, row, hhistory, hid, hbelow⟩ :=
        acknowledged_last hinj hinit run hearlier
      obtain ⟨hcommit', before', row', hhistory', hid', hbelow'⟩ :=
        acknowledged_last hinj hinit run hlater
      -- both claims lie in the later history, where receipt ids do not repeat
      have haccounted := acknowledged_accounted hinit run hids later hlater
      refine hne ((history_eq_iff_calledOn hinj hinit run hids hcommit hcommit').mp ?_)
      rw [hhistory, hhistory']
      exact eq_of_prefix_of_last_key haccounted.nodup (hbelow.trans hle) hbelow'
        (hid.trans ((congrArg Receipt.receiptId hsame).trans hid'.symm))
  refine ⟨?_, ?_, fun claim hclaim claim' hclaim' => history_eq_iff_calledOn hinj hinit run hids
    hclaim hclaim', honce, fun hdistinct => honce.mpr (hflight.nodup hdistinct)⟩
  · refine hchain.imp_of_mem fun {earlier later} hearlier _ hle => ?_
    obtain ⟨_, before, row, hhistory, hid, hbelow⟩ := acknowledged_last hinj hinit run hearlier
    refine ⟨row, (hbelow.trans hle).subset ?_, ?_, hid⟩
    · exact List.mem_concat_self
    · rw [hhistory, List.getLast?_concat]
  · intro claim hclaim
    obtain ⟨store, _, hcalled, hcommit, _⟩ := committed_history hinj hinit run hclaim
    exact ⟨store, hcalled, hcommit⟩

end Acknowledged

namespace Sample

def replayIdentity : ExecutorReplayIdentity ClaimDigest where
  audience := "executor"
  tenantId := "tenant"
  envelopeId := "envelope"
  configEpoch := 1
  executorPolicySha256 := .zero
  trustRegistrySha256 := .zero

def anchored : Copies ℕ (ReplayStore ClaimDigest) (ExecutorAuthorityCheckpoint ClaimDigest)
    (Receipt 1 × Reading) :=
  ⟨ReceiptVerifier.genesisCheckpoint replayIdentity .zero .zero,
    Function.update (fun _ => none) 0 (some (.genesis (some replayIdentity) .zero .zero)), [], []⟩

def claimCall (receiptId : String) (resultingSequence nowNs : ℕ) : Receipt 1 × Reading :=
  (receipt receiptId "lease" resultingSequence 20, exactly nowNs)

/-- A clone is let in at the same head as the first copy, and both claim one receipt at one time. -/
def claimedByBoth := verifier.anchoring.play anchored
  [.copy 0 1, .enter 0, .enter 1, .commit 0 (claimCall "r1" 1 2), .commit 1 (claimCall "r1" 1 2),
    .acknowledge, .acknowledge]

def claimedInTurn := verifier.anchoring.play anchored
  [.copy 0 1, .enter 0, .commit 0 (claimCall "r1" 1 2), .acknowledge, .enter 1, .enter 0,
    .commit 0 (claimCall "r2" 2 3), .acknowledge]

theorem verifier_digestInjective : verifier.DigestInjective := by
  rintro prior prior' ⟨⟩ ⟨⟩ h
  simp only [verifier, ClaimDigest.event.injEq] at h
  simp only [ClaimEvent.mk.injEq]
  tauto

end Sample

open Sample

/-- Two copies that claim the same receipt at the same head and time both have it acknowledged. -/
theorem claim_acknowledged_by_both : verifier.DigestInjective ∧
    (verifier.copies replayIdentity .zero 0).Init anchored ∧
    (verifier.copies replayIdentity .zero 0).Run anchored
      claimedByBoth.1 claimedByBoth.2 ∧
    ReceiptVerifier.IdsDistinct (Anchoring.commits claimedByBoth.1) ∧
    ¬((Anchoring.acknowledgements claimedByBoth.1).map fun ack => ack.1.txn.1).Nodup := by
  refine ⟨verifier_digestInjective, rfl, Anchoring.play_run _ _ _ _ _ _, ?_, ?_⟩
  · decide +kernel
  · decide +kernel

theorem acknowledged_claims_of_copies_claimedInTurn :
    ((Anchoring.acknowledgements claimedInTurn.1).map fun ack => ack.1.txn.1.receiptId) =
        ["r1", "r2"] ∧
      ((Anchoring.acknowledgements claimedInTurn.1).map fun ack => ack.1.txn.1).Nodup := by
  have hrun : (verifier.copies replayIdentity .zero 0).Run anchored
      claimedInTurn.1 claimedInTurn.2 := Anchoring.play_run _ _ _ _ _ _
  have hinit : (verifier.copies replayIdentity .zero 0).Init anchored := rfl
  have hids : ReceiptVerifier.IdsDistinct (Anchoring.commits claimedInTurn.1) := by decide +kernel
  refine ⟨by decide +kernel, ?_⟩
  exact (acknowledged_claims_of_copies verifier_digestInjective hinit hrun hids).2.2.2.2
    (by decide +kernel)

end Lets
