import Lets.ClaimOnce
import Lets.Ledger

set_option autoImplicit false

/-!
# Receipts are claimed in the order of their sequence

The executor forgets a lease watermark once it has expired.
-/

namespace Lets

open Library

variable {d : ℕ} {Hash Digest : Type}

/-! ### The executor's side -/

/-- A claimed receipt holds its place: the watermark covers it, or the floor has reached its
expiry. -/
def ReplayStore.Covers (receipt : Receipt d) (store : ReplayStore Digest) : Prop :=
  (∃ row, store.leaseWatermarks.lookup receipt.watermarkKey = some row ∧
      receipt.resultingSequence ≤ row.lastSequence ∧ receipt.expiresAtNs ≤ row.expiresAtNs) ∨
    ∃ floor ∈ store.clockFloorNs, receipt.expiresAtNs ≤ floor

/-- Among the receipts of one watermark, a later sequence does not expire earlier. -/
def ExpiryFollowsSequence (key : String × String × String) (receipts : List (Receipt d)) : Prop :=
  ∀ earlier ∈ receipts, ∀ later ∈ receipts, earlier.watermarkKey = key → later.watermarkKey = key →
    earlier.resultingSequence ≤ later.resultingSequence → earlier.expiresAtNs ≤ later.expiresAtNs

/-- The receipts of one watermark are in the order of their sequence. -/
def SequenceOrdered (key : String × String × String) (receipts : List (Receipt d)) : Prop :=
  receipts.Pairwise fun earlier later => earlier.watermarkKey = key → later.watermarkKey = key →
    earlier.resultingSequence < later.resultingSequence

namespace ReceiptVerifier

variable {verifier : ReceiptVerifier d Digest} {receipt other : Receipt d} {clock : Reading}
  {store store' : ReplayStore Digest}

namespace Claimed

variable (h : Claimed verifier receipt clock store store')

include h

theorem covers : store'.Covers receipt := by
  obtain ⟨row, hrow, hlast, hexpiry, _⟩ := h.watermark_eq
  exact .inl ⟨row, hrow, hlast.ge, hexpiry⟩

theorem covers_kept (hcovers : store.Covers other) : store'.Covers other := by
  rcases hcovers with ⟨row, hrow, hsequence, hexpiry⟩ | hpassed
  · by_cases hgone : row.expiresAtNs ≤ clock.nowNs
    · exact .inr (h.floor_passed (hexpiry.trans hgone))
    by_cases hkey : other.watermarkKey = receipt.watermarkKey
    · rw [hkey] at hrow
      have hlast := (h.watermark_lt row hrow).resolve_right hgone
      obtain ⟨row', hrow', hlast', _, hold⟩ := h.watermark_eq
      have hexpiry' := (hold row hrow).resolve_right hgone
      refine .inl ⟨row', hkey ▸ hrow', ?_, hexpiry.trans hexpiry'⟩
      omega
    · have hkept := (h.watermark_kept _ row hkey hrow).resolve_right hgone
      exact .inl ⟨row, hkept, hsequence, hexpiry⟩
  · exact .inr (h.floor_kept hpassed)

theorem sequence_lt (hfresh : clock.nowNs + clock.uncertaintyNs < receipt.expiresAtNs)
    (hcovers : store.Covers other) (hkey : other.watermarkKey = receipt.watermarkKey)
    (horder : receipt.resultingSequence ≤ other.resultingSequence →
      receipt.expiresAtNs ≤ other.expiresAtNs) :
     other.resultingSequence < receipt.resultingSequence := by
  by_contra hnot
  have hexpiry := horder (Nat.le_of_not_lt hnot)
  rcases hcovers with ⟨row, hrow, hsequence, hrowExpiry⟩ | ⟨floor, hfloor, hpassed⟩
  · rw [hkey] at hrow
    rcases h.watermark_lt row hrow with hlast | hgone
    · omega
    · omega
  · exact h.floor_ahead hfresh ⟨floor, hfloor, hexpiry.trans hpassed⟩

end Claimed

/-- Along a run of one executor, receipts whose expiry follows their sequence are claimed in the
order of their sequence. -/
theorem claimed_sequenceOrdered [DecidableEq Digest]
    {identity : Option (ExecutorReplayIdentity Digest)} {databaseInstanceId : Digest}
    {s₀ s : ExecutorState d Digest} {events : List (ExecutorEvent d)}
    {key : String × String × String}
    (hinit : (verifier.system identity databaseInstanceId).Init s₀)
    (run : (verifier.system identity databaseInstanceId).Run s₀ events s)
    (hexpiry : ExpiryFollowsSequence key (claimedReceipts events)) :
    SequenceOrdered key (claimedReceipts events) := by
  have hinv : (∀ receipt ∈ claimedReceipts events, s.store.Covers receipt) ∧
      (ExpiryFollowsSequence key (claimedReceipts events) →
        SequenceOrdered key (claimedReceipts events)) := by
    refine run_induction (P := fun events store =>
      (∀ receipt ∈ claimedReceipts events, store.Covers receipt) ∧
        (ExpiryFollowsSequence key (claimedReceipts events) →
          SequenceOrdered key (claimedReceipts events))) ?_ ?_ hinit run
    · exact ⟨List.forall_mem_nil _, fun _ => List.Pairwise.nil⟩
    · rintro events store event store' ⟨hcovers, hordered⟩ step
      rw [claimedReceipts_concat]
      cases step with
      | kept hnone =>
        rw [hnone, Option.toList_none, List.append_nil]
        exact ⟨hcovers, hordered⟩
      | unconfirmed _ done =>
        rw [show ExecutorEvent.claimed? (.unconfirmed _ _) = none from rfl, Option.toList_none,
          List.append_nil]
        exact ⟨fun receipt hmem => done.covers_kept (hcovers receipt hmem), hordered⟩
      | @claimed receipt clock _ fresh done =>
        rw [show ExecutorEvent.claimed? (.claimed receipt clock) = some receipt from rfl,
          Option.toList_some]
        constructor
        · intro other hmem
          rcases List.mem_append.mp hmem with hold | hsame
          · exact done.covers_kept (hcovers other hold)
          · rw [List.mem_singleton.mp hsame]
            exact done.covers
        · intro hfollows
          have hmem : receipt ∈ claimedReceipts events ++ [receipt] :=
            List.mem_concat_self
          have hbefore := hordered fun earlier he later hl =>
            hfollows earlier (List.mem_append_left _ he) later (List.mem_append_left _ hl)
          refine List.pairwise_append.mpr ⟨hbefore, List.pairwise_singleton _ _, ?_⟩
          intro other hother last hlast hkey hlastKey
          rw [List.mem_singleton.mp hlast] at hlastKey ⊢
          exact done.sequence_lt fresh (hcovers other hother) (hkey.trans hlastKey.symm)
            (hfollows receipt hmem other (List.mem_append_left _ hother) hlastKey hkey)
  exact hinv.2 hexpiry

end ReceiptVerifier

/-! ### The warden's side -/

structure ReceiptOrder (db : Database d Hash) : Prop where
  unique : ∀ receiptId receiptId' receipt receipt', db.receipts.lookup receiptId = some receipt →
    db.receipts.lookup receiptId' = some receipt' → receipt.leaseId = receipt'.leaseId →
      receipt.resultingSequence = receipt'.resultingSequence → receipt = receipt'
  expiry_le : ∀ receiptId receiptId' receipt receipt',
    db.receipts.lookup receiptId = some receipt → db.receipts.lookup receiptId' = some receipt' →
      receipt.leaseId = receipt'.leaseId → receipt.executorAudience = receipt'.executorAudience →
        receipt.resultingSequence < receipt'.resultingSequence →
          receipt.expiresAtNs ≤ receipt'.expiresAtNs

namespace WardenService

variable {svc : WardenService d Hash} {clock : Reading} {operation : Operation d}
  {db db' : Database d Hash} {out : Response d}

namespace Authorized

variable {newReceiptId : String} {req : AuthorizeRequest}
  (done : Authorized svc clock newReceiptId req db db' out)

include done

theorem leaseId_eq : done.receipt.leaseId = req.leaseId := by rw [done.receipt_eq]; rfl

theorem audience_eq : done.receipt.executorAudience = req.audience := by
  rw [done.receipt_eq]; rfl

theorem sequence_eq : done.receipt.resultingSequence = done.lease.sequence + 1 := by
  rw [done.receipt_eq]; rfl

theorem expires_eq : done.receipt.expiresAtNs = done.expiresAtNs := by rw [done.receipt_eq]; rfl

theorem issuedAt_eq : done.receipt.issuedAtNs = clock.nowNs := by rw [done.receipt_eq]; rfl

end Authorized

theorem receiptOrder_step (h : ReceiptOrder db) (heffect : Effect svc clock db operation db' out) :
    ReceiptOrder db' := by
  rcases heffect.charges_cases with ⟨hcharges, _⟩ | ⟨newReceiptId, req, _, ⟨done⟩⟩
  · have hreceipts : db'.receipts = db.receipts := congrArg Prod.fst hcharges
    constructor
    · rw [hreceipts]
      exact h.unique
    · rw [hreceipts]
      exact h.expiry_le
  · have hreceipts := done.receipts_eq
    have hlease := done.leaseId_eq
    have haudience := done.audience_eq
    have hsequence := done.sequence_eq
    have hexpires := done.expires_eq
    constructor
    · rw [hreceipts]
      intro receiptId receiptId' receipt receipt' hr hr' hsame hseq
      rw [Table.lookup_insert_eq] at hr hr'
      split_ifs at hr hr' with hid hid' hid'
      · rw [← Option.some.inj hr, ← Option.some.inj hr']
      · rw [← Option.some.inj hr] at hsame hseq
        exact absurd (hseq.symm.trans hsequence)
          (done.sequence_new receiptId' receipt' hr' (hsame.symm.trans hlease))
      · rw [← Option.some.inj hr'] at hsame hseq
        exact absurd (hseq.trans hsequence)
          (done.sequence_new receiptId receipt hr (hsame.trans hlease))
      · exact h.unique receiptId receiptId' receipt receipt' hr hr' hsame hseq
    · rw [hreceipts]
      intro receiptId receiptId' receipt receipt' hr hr' hsame haud hlt
      rw [Table.lookup_insert_eq] at hr hr'
      split_ifs at hr hr' with hid hid' hid'
      · rw [← Option.some.inj hr, ← Option.some.inj hr']
      · rw [← Option.some.inj hr] at hsame haud hlt ⊢
        rw [hexpires]
        refine done.expiry_before receiptId' receipt' hr' (hsame.symm.trans hlease)
          (haud.symm.trans haudience) ?_
        rwa [hsequence] at hlt
      · rw [← Option.some.inj hr'] at hsame haud hlt ⊢
        rw [hexpires]
        refine done.expiry_after receiptId receipt hr (hsame.trans hlease)
          (haud.trans haudience) ?_
        rwa [hsequence] at hlt
      · exact h.expiry_le receiptId receiptId' receipt receipt' hr hr' hsame haud hlt

theorem receiptOrder_of_run {envelope : Envelope d} {db₀ : Database d Hash} {calls : List (Call d)}
    (hinit : (svc.system envelope).Init db₀) (run : (svc.system envelope).Run db₀ calls db) :
    ReceiptOrder db := by
  refine invariant_of_reachable ?_ (fun _ _ _ _ _ h _ => receiptOrder_step h) ⟨_, _, hinit, run⟩
  constructor <;> exact fun _ _ _ _ h => (by cases h)

theorem issued_expiry_le {envelope : Envelope d} {db₀ : Database d Hash} {calls : List (Call d)}
    (hinit : (svc.system envelope).Init db₀) (run : (svc.system envelope).Run db₀ calls db)
    {earlier later : Receipt d} (he : earlier ∈ issued calls) (hl : later ∈ issued calls)
    (hkey : earlier.watermarkKey = later.watermarkKey)
    (hsequence : earlier.resultingSequence ≤ later.resultingSequence) :
    earlier.expiresAtNs ≤ later.expiresAtNs := by
  have hcharged := (accounts_of_run hinit run).charged
  have horder := receiptOrder_of_run hinit run
  have hlease : earlier.leaseId = later.leaseId := congrArg (fun key => key.2.1) hkey
  have haudience : earlier.executorAudience = later.executorAudience :=
    congrArg (fun key => key.2.2) hkey
  have hstored := hcharged.stored earlier he
  have hstored' := hcharged.stored later hl
  rcases Nat.lt_or_eq_of_le hsequence with hlt | heq
  · exact horder.expiry_le _ _ _ _ hstored hstored' hlease haudience hlt
  · rw [horder.unique _ _ _ _ hstored hstored' hlease heq]

end WardenService

/-! ### Both sides together -/

/-- A warden with the calls it has served, and an executor that is shown its receipts. -/
structure Handoff (d : ℕ) (Hash Digest : Type) where
  database : Database d Hash
  calls : List (Call d)
  executor : ExecutorState d Digest

inductive HandoffEvent (d : ℕ)
  | warden (call : Call d)
  | executor (event : ExecutorEvent d)

def HandoffEvent.executor? : HandoffEvent d → Option (ExecutorEvent d)
  | executor event => some event
  | warden _ => none

def executorEvents (events : List (HandoffEvent d)) : List (ExecutorEvent d) :=
  events.filterMap HandoffEvent.executor?

/-- Signatures are not forged: a receipt of this warden that is verified has been issued. -/
def ExecutorEvent.Genuine (wardenId : String) (calls : List (Call d)) : ExecutorEvent d → Prop
  | verified receipt _ => receipt.wardenId = wardenId → receipt ∈ issued calls
  | _ => True

instance (wardenId : String) (calls : List (Call d)) (event : ExecutorEvent d) :
    Decidable (event.Genuine wardenId calls) :=
  match event with
  | .verified receipt _ =>
    inferInstanceAs (Decidable (receipt.wardenId = wardenId → receipt ∈ issued calls))
  | .claimed .. | .unconfirmed .. | .refused .. => isTrue trivial

/-- A warden and an executor, in any interleaving, the receipts delivered in any order. -/
def handoffSystem [DecidableEq Digest] (svc : WardenService d Hash) (envelope : Envelope d)
    (verifier : ReceiptVerifier d Digest) (identity : Option (ExecutorReplayIdentity Digest))
    (databaseInstanceId : Digest) : System (Handoff d Hash Digest) (HandoffEvent d) where
  Init s := (svc.system envelope).Init s.database ∧ s.calls = [] ∧
    (verifier.system identity databaseInstanceId).Init s.executor
  Step s event s' :=
    match event with
    | .warden call => (svc.system envelope).Step s.database call s'.database ∧
        s'.calls = s.calls ++ [call] ∧ s'.executor = s.executor
    | .executor event => (verifier.system identity databaseInstanceId).Step s.executor event
        s'.executor ∧ event.Genuine svc.wardenId s.calls ∧ s'.database = s.database ∧
        s'.calls = s.calls

section Handoff

variable [DecidableEq Digest] {svc : WardenService d Hash} {envelope : Envelope d}
  {verifier : ReceiptVerifier d Digest} {identity : Option (ExecutorReplayIdentity Digest)}
  {databaseInstanceId : Digest} {s₀ s : Handoff d Hash Digest} {events : List (HandoffEvent d)}

/-- What an interleaving is made of: a run of each side, and only issued receipts of the warden in
the executor's hands. -/
structure Interleaved (svc : WardenService d Hash) (envelope : Envelope d)
    (verifier : ReceiptVerifier d Digest) (identity : Option (ExecutorReplayIdentity Digest))
    (databaseInstanceId : Digest) (s₀ : Handoff d Hash Digest) (events : List (HandoffEvent d))
    (s : Handoff d Hash Digest) : Prop where
  warden : (svc.system envelope).Run s₀.database s.calls s.database
  executor : (verifier.system identity databaseInstanceId).Run s₀.executor (executorEvents events)
    s.executor
  verified : ∀ call ∈ s.executor.verified, call.1.wardenId = svc.wardenId →
    call.1 ∈ issued s.calls
  claimed : ∀ receipt ∈ claimedReceipts (executorEvents events),
    receipt.wardenId = svc.wardenId → receipt ∈ issued s.calls

theorem issued_concat {calls : List (Call d)} {call : Call d} {receipt : Receipt d}
    (h : receipt ∈ issued calls) : receipt ∈ issued (calls ++ [call]) := by
  obtain ⟨c, hc, out, hreply, hout⟩ := mem_answers_iff.mp h
  exact mem_answers_iff.mpr ⟨c, List.mem_append_left _ hc, out, hreply, hout⟩

theorem executorEvents_concat (events : List (HandoffEvent d)) (event : HandoffEvent d) :
    executorEvents (events ++ [event]) = executorEvents events ++ event.executor?.toList :=
  filterMap_concat _ _ _

theorem interleaved_step {s' : Handoff d Hash Digest} {event : HandoffEvent d}
    (h : Interleaved svc envelope verifier identity databaseInstanceId s₀ events s)
    (step : (handoffSystem svc envelope verifier identity databaseInstanceId).Step s event s') :
    Interleaved svc envelope verifier identity databaseInstanceId s₀ (events ++ [event]) s' := by
  cases event with
  | warden call =>
    obtain ⟨hstep, hcalls, hexecutor⟩ := step
    constructor
    · rw [hcalls]
      exact .snoc h.warden hstep
    · rw [executorEvents_concat, hexecutor]
      exact (List.append_nil (executorEvents events)).symm ▸ h.executor
    · rw [hcalls, hexecutor]
      exact fun call hcall hown => issued_concat (h.verified call hcall hown)
    · rw [hcalls, executorEvents_concat]
      intro receipt hmem hown
      exact issued_concat (h.claimed receipt (by simpa [HandoffEvent.executor?] using hmem) hown)
  | executor event =>
    obtain ⟨hstep, hgenuine, hdatabase, hcalls⟩ := step
    have hconcat : executorEvents (events ++ [.executor event]) = executorEvents events ++ [event] :=
      executorEvents_concat _ _
    refine ⟨?_, ?_, ?_, ?_⟩
    · rw [hcalls, hdatabase]
      exact h.warden
    · rw [hconcat]
      exact .snoc h.executor hstep
    · rw [hcalls]
      intro call hcall hown
      cases event with
      | verified receipt clock =>
        obtain ⟨_, hstate⟩ := hstep
        rw [hstate] at hcall
        rcases List.mem_cons.mp hcall with rfl | hold
        · exact hgenuine hown
        · exact h.verified call hold hown
      | claimed receipt clock | unconfirmed receipt clock =>
        obtain ⟨_, _, hrest⟩ := hstep
        rw [hrest] at hcall
        exact h.verified call (List.mem_of_mem_erase hcall) hown
      | refused receipt clock error =>
        obtain ⟨_, _, hstate⟩ := hstep
        rw [hstate] at hcall
        exact h.verified call (List.mem_of_mem_erase hcall) hown
    · rw [hcalls, hconcat, claimedReceipts_concat]
      intro receipt hmem hown
      rcases List.mem_append.mp hmem with hold | hnew
      · exact h.claimed receipt hold hown
      · cases event with
        | claimed claimed clock =>
          obtain ⟨hverified, _⟩ := hstep
          rw [List.mem_singleton.mp hnew] at hown ⊢
          exact h.verified _ hverified hown
        | verified _ _ | unconfirmed _ _ | refused _ _ _ => exact absurd hnew List.not_mem_nil

theorem interleaved_of_run
    (hinit : (handoffSystem svc envelope verifier identity databaseInstanceId).Init s₀)
    (run : (handoffSystem svc envelope verifier identity databaseInstanceId).Run s₀ events s) :
    Interleaved svc envelope verifier identity databaseInstanceId s₀ events s := by
  obtain ⟨_, hcalls, hexecutor⟩ := hinit
  refine run.history ?_ fun events s event s' h step => interleaved_step h step
  have hempty : s₀.executor.verified = [] := congrArg ExecutorState.verified hexecutor
  refine ⟨hcalls ▸ .nil _, .nil _, ?_, List.forall_mem_nil _⟩
  rw [hempty]
  exact List.forall_mem_nil _

/-- Whatever the warden does and however its receipts are delivered, those of one lease and audience
are claimed in the order of their sequence. -/
theorem claims_follow_sequence
    (hinit : (handoffSystem svc envelope verifier identity databaseInstanceId).Init s₀)
    (run : (handoffSystem svc envelope verifier identity databaseInstanceId).Run s₀ events s)
    (leaseId audience : String) :
    (((claimedReceipts (executorEvents events)).filter fun receipt =>
        receipt.watermarkKey = (svc.wardenId, leaseId, audience)).map
      Receipt.resultingSequence).Pairwise (· < ·) := by
  have hboth := interleaved_of_run hinit run
  have hexpiry : ExpiryFollowsSequence (svc.wardenId, leaseId, audience)
      (claimedReceipts (executorEvents events)) := by
    intro earlier he later hl hkey hkey' hsequence
    have hissued := hboth.claimed earlier he (congrArg Prod.fst hkey)
    have hissued' := hboth.claimed later hl (congrArg Prod.fst hkey')
    exact WardenService.issued_expiry_le hinit.1 hboth.warden hissued hissued'
      (hkey.trans hkey'.symm) hsequence
  have hordered := ReceiptVerifier.claimed_sequenceOrdered hinit.2.2 hboth.executor hexpiry
  rw [List.pairwise_map, List.pairwise_filter]
  exact hordered.imp fun h hkey hkey' => h (of_decide_eq_true hkey) (of_decide_eq_true hkey')

theorem handoff_of_runs {db₀ db : Database d Hash} {calls : List (Call d)}
    {e₀ e : ExecutorState d Digest} {shown : List (ExecutorEvent d)}
    (hwarden : (svc.system envelope).Run db₀ calls db)
    (hexecutor : (verifier.system identity databaseInstanceId).Run e₀ shown e)
    (hgenuine : ∀ event ∈ shown, event.Genuine svc.wardenId calls) :
    (handoffSystem svc envelope verifier identity databaseInstanceId).Run ⟨db₀, [], e₀⟩
      (calls.map .warden ++ shown.map .executor) ⟨db, calls, e⟩ := by
  have hfirst : (handoffSystem svc envelope verifier identity databaseInstanceId).Run
      ⟨db₀, [], e₀⟩ (calls.map .warden) ⟨db, calls, e₀⟩ := by
    clear hgenuine
    induction hwarden with
    | nil => exact .nil _
    | snoc run step ih =>
      rw [List.map_append]
      exact .snoc ih ⟨step, rfl, rfl⟩
  refine hfirst.trans ?_
  clear hfirst hwarden
  induction hexecutor with
  | nil => exact .nil _
  | snoc run step ih =>
    rw [List.map_append]
    refine .snoc (ih fun event hmem => hgenuine event (List.mem_append_left _ hmem)) ?_
    exact ⟨step, hgenuine _ List.mem_concat_self, rfl, rfl⟩

end Handoff

namespace Sample

/-- Two transitions of one lease; the second receipt is issued after the first has expired. -/
def authorized : Database 1 ℕ × List (Call 1) :=
  (service "a").play (genesis "a" 6)
    [(exactly 1, registerPolicy),
      (exactly 2, .issueRoot "root" "line"
        ⟨"q1", operator, "tenant", "envelope", "subject", units 5, {"act"}, "v1", 50, none⟩),
      (exactly 3, .authorize "first"
        ⟨"q2", operator, "root", "run", "executor", "nonce-0123456789", none, none, none⟩),
      (exactly 20, .authorize "second"
        ⟨"q3", operator, "root", "run", "executor", "nonce-9876543210", none, none, none⟩)]

def shown (receiptId : String) (nowNs : ℕ) : List (Receipt 1 × Reading) :=
  (authorized.1.receipts.lookup receiptId).toList.map (·, exactly nowNs)

/-- A receipt of another warden makes the executor forget the watermark between the two. -/
def handedOver : ExecutorState 1 ClaimDigest × List (ExecutorEvent 1) :=
  verifier.play emptyReplayStore
    (shown "first" 4 ++ [({ receipt "other" "lease" 1 30 with wardenId := "z" }, exactly 10)] ++
      shown "second" 21 ++ shown "first" 5)

end Sample

open Sample

theorem claims_follow_sequence_handedOver :
    ((claimedReceipts handedOver.2).filter fun receipt =>
        receipt.watermarkKey = ("a", "root", "executor")).map Receipt.resultingSequence = [1, 2] ∧
      (((claimedReceipts (executorEvents (authorized.2.map HandoffEvent.warden ++
          handedOver.2.map HandoffEvent.executor))).filter fun receipt =>
        receipt.watermarkKey = ("a", "root", "executor")).map
          Receipt.resultingSequence).Pairwise (· < ·) := by
  refine ⟨by decide +kernel, ?_⟩
  have hwarden : ((service "a").system (envelope 6)).Run (genesis "a" 6)
      authorized.2 authorized.1 := (service "a").play_run _ _ _
  have hexecutor : (verifier.system none .zero).Run emptyReplayStore
      handedOver.2 handedOver.1 := verifier.play_run none .zero _ _
  have hgenuine : ∀ event ∈ handedOver.2, event.Genuine "a" authorized.2 := by
    decide +kernel
  have hrun : (handoffSystem (service "a") (envelope 6) verifier none .zero).Run
      ⟨genesis "a" 6, [], emptyReplayStore⟩ _ _ :=
    handoff_of_runs hwarden hexecutor hgenuine
  have hinit : (handoffSystem (service "a") (envelope 6) verifier none .zero).Init
      ⟨genesis "a" 6, [], emptyReplayStore⟩ := ⟨rfl, rfl, rfl⟩
  exact claims_follow_sequence hinit hrun "root" "executor"

end Lets
