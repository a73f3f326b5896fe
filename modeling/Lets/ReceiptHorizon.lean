import Lets.Materializing
import Lets.ReceiptOrder

set_option autoImplicit false

/-!
# Receipts and the residual they were drawn from

The receipts of one lease and audience are issued with growing sequences and expiries that do not
fall back, although the lease may be shortened and the clock may step back in between.
-/

namespace Lets

open Library

variable {d : ℕ} {Hash Digest : Type}

/-- A reading that is off from true time by at most the uncertainty it declares. -/
def Reading.Accurate (clock : Reading) (trueTime : ℝ) : Prop :=
  |(clock.nowNs : ℝ) - trueTime| ≤ clock.uncertaintyNs

/-- What has passed by an accurate reading, less its uncertainty, has passed by every accurate reading
from then on. -/
theorem Reading.Accurate.stale {clock reading : Reading} {trueTime laterTime : ℝ} {expiresAtNs : ℕ}
    (h : clock.Accurate trueTime) (hpast : expiresAtNs + clock.uncertaintyNs ≤ clock.nowNs)
    (hlater : trueTime ≤ laterTime) (hreading : reading.Accurate laterTime) :
    expiresAtNs ≤ reading.nowNs + reading.uncertaintyNs := by
  have hclock := (abs_le.mp h).2
  have hnow := (abs_le.mp hreading).1
  have hpast' : (expiresAtNs : ℝ) + clock.uncertaintyNs ≤ clock.nowNs := by exact_mod_cast hpast
  have hstale : (expiresAtNs : ℝ) ≤ reading.nowNs + reading.uncertaintyNs := by linarith
  exact_mod_cast hstale

def issueOrder (calls : List (Call d)) : List (Receipt d) :=
  firsts id (calls.filterMap fun call => call.reply.toOption.bind Response.receipt?)

theorem mem_issueOrder {calls : List (Call d)} {receipt : Receipt d} :
    receipt ∈ issueOrder calls ↔ receipt ∈ issued calls := by
  have h : receipt ∈ (issueOrder calls).map id ↔ _ := mem_map_firsts id
  rw [List.map_id, List.map_id] at h
  rw [h]
  exact List.mem_toFinset.symm

theorem issueOrder_concat (calls : List (Call d)) (call : Call d) :
    issueOrder (calls ++ [call]) = issueOrder calls ∨ ∃ receipt,
      call.reply = .ok (.receipt receipt) ∧ receipt ∉ issued calls ∧
        issueOrder (calls ++ [call]) = issueOrder calls ++ [receipt] := by
  unfold issueOrder
  rw [filterMap_concat]
  cases hreceipt : call.reply.toOption.bind Response.receipt? with
  | none => exact .inl (by rw [Option.toList_none, List.append_nil])
  | some receipt =>
    rw [Option.toList_some, firsts_concat]
    have hmem : id receipt ∈ (issueOrder calls).map id ↔ receipt ∈ issued calls := by
      rw [List.map_id]
      exact mem_issueOrder
    by_cases hold : receipt ∈ issued calls
    · exact .inl (if_pos (hmem.mpr hold))
    · refine .inr ⟨receipt, ?_, hold, if_neg fun h => hold (hmem.mp h)⟩
      obtain ⟨out, hout, hreceipt⟩ := Option.bind_eq_some_iff.mp hreceipt
      cases hreply : call.reply with
      | error e => simp [hreply, Except.toOption] at hout
      | ok reply =>
        rw [hreply] at hout
        obtain rfl := Option.some.inj hout
        rw [Response.receipt?_eq_some hreceipt]

def Lease.Precedes (lease lease' : Lease d) : Prop := lease.sequence ≤ lease'.sequence

theorem Lease.revoked_step (nowNs : ℕ) (lease : Lease d) :
    (lease.revoked nowNs).state = lease.state ∧ lease.Precedes (lease.revoked nowNs) := by
  unfold Lease.Precedes Lease.revoked
  split_ifs <;> simp

namespace WardenService

variable {svc : WardenService d Hash} {envelope : Envelope d} {clock : Reading}
  {operation : Operation d} {db₀ db db' : Database d Hash} {out : Response d}
  {calls : List (Call d)} {call : Call d} {receipt : Receipt d}

/-- A relation that holds wherever a row keeps its state and its sequence does not fall, and where a
transition is charged, holds between the rows before and after every operation. -/
theorem Effect.leases_evolve (h : Effect svc clock db operation db' out)
    {R : Lease d → Lease d → Prop}
    (hkept : ∀ lease lease', lease'.state = lease.state → lease.Precedes lease' → R lease lease')
    (hcharged : ∀ newReceiptId req (done : Authorized svc clock newReceiptId req db db' out),
      R done.lease (charged done.rule done.residual (done.lease.sequence + 1) clock.nowNs
        done.lease)) : Table.Evolves R db.leases db'.leases := by
  have hrefl : ∀ lease, R lease lease := fun lease => hkept lease lease rfl le_rfl
  have hsame : db'.leases = db.leases → Table.Evolves R db.leases db'.leases := .of_eq hrefl
  have hupdate : ∀ {leaseId f}, db'.leases = db.leases.update leaseId f →
      (∀ lease, db.leases.lookup leaseId = some lease → R lease (f lease)) →
      Table.Evolves R db.leases db'.leases := fun heq hf => heq ▸ Table.evolves_update hrefl hf
  have hall : ∀ {ids f}, db'.leases = db.leases.updateAll ids f →
      (∀ id (lease : Lease d), (f id lease).state = lease.state ∧ lease.Precedes (f id lease)) →
      Table.Evolves R db.leases db'.leases := fun heq hf =>
    heq ▸ Table.evolves_updateAll hrefl (fun id lease => hkept _ _ (hf id lease).1 (hf id lease).2) _
  have hmarks : ∀ {lineageId branch affected} {before marked : Database d Hash},
      Database.Materialized lineageId branch clock.nowNs affected before marked →
      before.leases = db.leases → db'.leases = marked.leases →
      Table.Evolves R db.leases db'.leases := by
    intro lineageId branch affected before marked hmarked hbefore hafter
    rw [hmarked.result, hbefore] at hafter
    exact hall hafter fun _ => Lease.revoked_step clock.nowNs
  cases h with
  | replayed _ _ _ _ result | runtimeSet _ _ result | policyRegistered _ _ result
  | attempted _ result | prunedTerminal _ result | prunedHistory _ _ result =>
    have hleases := congrArg Database.leases result
    exact hsame hleases
  | unmoved done | prepared done | redelivered _ done | finalized _ done
  | checkpointCreated _ done | checkpointIngested _ done =>
    have hleases := congrArg Database.leases done.result
    exact hsame hleases
  | rootIssued done =>
    have hleases := congrArg Database.leases done.result
    rw [hleases]
    exact (Table.Evolves.of_eq hrefl rfl).insert done.leaseId_new
  | spawned done =>
    have hleases := congrArg Database.leases done.result
    rw [hleases]
    refine (Table.evolves_update hrefl fun lease _ => ?_).insert done.leaseId_new
    exact hkept lease _ rfl (Nat.le_succ _)
  | remoteSpawned done | switched done | closed done =>
    have hleases := congrArg Database.leases done.result
    exact hupdate hleases fun lease _ => hkept _ _ rfl (Nat.le_succ _)
  | authorized done =>
    have hleases := congrArg Database.leases done.result
    refine hupdate hleases fun lease hlease => ?_
    obtain rfl := some_unique hlease done.lease_eq
    exact hcharged _ _ done
  | renewed done =>
    have hleases := congrArg Database.leases done.result
    exact hall hleases fun _ lease => ⟨rfl, Nat.le_succ lease.sequence⟩
  | reclaimed _ done =>
    have hleases : db'.leases = db.leases.updateAll (db.reclaimableLeases clock)
      fun _ => Lease.expired clock.nowNs := congrArg Database.leases done.result
    exact hall hleases fun _ lease => ⟨rfl, Nat.le_succ lease.sequence⟩
  | revokedAgain _ _ _ _ done | revocationKnown _ _ _ done | revocationStored _ _ done =>
    have hleases := congrArg Database.leases done.result
    exact hmarks done.materialized rfl hleases
  | branchRevoked _ _ _ done result =>
    have hleases := congrArg Database.leases result
    have hstored := congrArg Database.leases done.result
    exact hmarks done.materialized rfl (hleases.trans hstored)
  | credited _ done =>
    have hleases : db'.leases = done.leases := congrArg Database.leases done.result
    intro leaseId lease hlease
    exact ⟨lease, hleases ▸ done.admits.lookup_kept hlease, hrefl lease⟩

theorem Effect.sequence_kept (h : Effect svc clock db operation db' out) :
    Table.Evolves Lease.Precedes db.leases db'.leases :=
  h.leases_evolve (fun _ _ _ hle => hle) fun _ _ _ => Nat.le_succ _

theorem authorized_of_new (hremembers : Remembers calls db)
    (step : (svc.system envelope).Step db call db') (hreply : call.reply = .ok (.receipt receipt))
    (hnew : receipt ∉ issued calls) : ∃ newReceiptId req out,
      ∃ done : Authorized svc call.clock newReceiptId req db db' out, done.receipt = receipt := by
  rcases step_cases step with ⟨out, hok, hexec⟩ | ⟨⟨e, herror⟩, _⟩
  case inr =>
    rw [hreply] at herror
    cases herror
  obtain rfl : out = .receipt receipt := Except.ok.inj (hok.symm.trans hreply)
  have heffect := (exec_ok hexec).2.2
  rcases heffect.charges_cases with ⟨_, hold⟩ | ⟨newReceiptId, req, _, ⟨done⟩⟩
  · have hrecorded := hold receipt rfl
    exact absurd (mem_answers_of_recorded (f := Response.receipt?) hremembers hrecorded rfl) hnew
  · exact ⟨newReceiptId, req, _, done, Response.receipt.inj done.out_eq.symm⟩

/-! ### The receipts of one lease -/

def ReceiptsBehind (db : Database d Hash) : Prop :=
  ∀ receiptId receipt, db.receipts.lookup receiptId = some receipt → ∃ lease,
    db.leases.lookup receipt.leaseId = some lease ∧ receipt.resultingSequence ≤ lease.sequence

theorem receiptsBehind_step (h : ReceiptsBehind db)
    (heffect : Effect svc clock db operation db' out) : ReceiptsBehind db' := by
  have hkept : ∀ receiptId receipt, db.receipts.lookup receiptId = some receipt → ∃ lease,
      db'.leases.lookup receipt.leaseId = some lease ∧
        receipt.resultingSequence ≤ lease.sequence := by
    intro receiptId receipt hreceipt
    obtain ⟨lease, hlease, hle⟩ := h receiptId receipt hreceipt
    obtain ⟨lease', hlease', hprecedes⟩ := heffect.sequence_kept _ _ hlease
    exact ⟨lease', hlease', hle.trans hprecedes⟩
  intro receiptId receipt hreceipt
  rcases heffect.receipt_cases hreceipt with hold | ⟨req, done, rfl⟩
  · exact hkept receiptId receipt hold
  · have hleases : db'.leases = db.leases.update req.leaseId _ :=
      congrArg Database.leases done.result
    rw [hleases, done.leaseId_eq, Table.lookup_update, if_pos rfl, done.lease_eq]
    exact ⟨_, rfl, done.sequence_eq.le⟩

theorem receiptsBehind_of_run (hinit : (svc.system envelope).Init db₀)
    (run : (svc.system envelope).Run db₀ calls db) : ReceiptsBehind db :=
  invariant_of_reachable (fun _ _ h => (by cases h)) (fun _ _ _ _ _ h _ => receiptsBehind_step h)
    ⟨_, _, hinit, run⟩

/-- What holds of an earlier and a later receipt of the warden. -/
def Follows (earlier later : Receipt d) : Prop :=
  earlier.leaseId = later.leaseId → earlier.executorAudience = later.executorAudience →
    earlier.resultingSequence < later.resultingSequence ∧ earlier.expiresAtNs ≤ later.expiresAtNs

theorem follows_of_authorized {newReceiptId : String} {req : AuthorizeRequest}
    (hbehind : ReceiptsBehind db) (hstored : db.receipts.lookup receipt.receiptId = some receipt)
    (done : Authorized svc clock newReceiptId req db db' out) : Follows receipt done.receipt := by
  intro hlease haudience
  rw [done.leaseId_eq] at hlease
  rw [done.audience_eq] at haudience
  obtain ⟨lease, hrow, hle⟩ := hbehind _ _ hstored
  rw [hlease] at hrow
  obtain rfl := some_unique hrow done.lease_eq
  have hlt : receipt.resultingSequence < done.lease.sequence + 1 := Nat.lt_succ_of_le hle
  rw [done.sequence_eq, done.expires_eq]
  exact ⟨hlt, done.expiry_after _ receipt hstored hlease haudience hlt⟩

theorem issueOrder_follows (hinit : (svc.system envelope).Init db₀)
    (run : (svc.system envelope).Run db₀ calls db) : (issueOrder calls).Pairwise Follows := by
  induction run with
  | nil => exact List.Pairwise.nil
  | snoc run step ih =>
    rcases issueOrder_concat _ _ with heq | ⟨receipt, hreply, hnew, heq⟩
    · rwa [heq]
    · have haccounts := accounts_of_run hinit run
      obtain ⟨newReceiptId, req, out, done, rfl⟩ :=
        authorized_of_new haccounts.remembers step hreply hnew
      rw [heq]
      refine List.pairwise_append.mpr ⟨ih, List.pairwise_singleton _ _, ?_⟩
      intro earlier hearlier later hlater
      rw [List.mem_singleton.mp hlater]
      exact follows_of_authorized (receiptsBehind_of_run hinit run)
        (haccounts.charged.stored earlier (mem_issueOrder.mp hearlier)) done

/-! ### When a receipt is issued -/

/-- The call that issued a receipt, and the lease it was issued from. -/
structure IssuedAt (svc : WardenService d Hash) (envelope : Envelope d) (db₀ : Database d Hash)
    (receipt : Receipt d) (before : List (Call d)) (call : Call d) (db db' : Database d Hash)
    (lease : Lease d) : Prop where
  run : (svc.system envelope).Run db₀ before db
  step : (svc.system envelope).Step db call db'
  reply_eq : call.reply = .ok (.receipt receipt)
  issued_new : receipt ∉ issued before
  lease_eq : db.leases.lookup receipt.leaseId = some lease
  issuedAt_eq : receipt.issuedAtNs = call.clock.nowNs
  fresh : receipt.issuedAtNs < receipt.expiresAtNs
  within : receipt.expiresAtNs ≤ min (receipt.issuedAtNs + envelope.receiptTtlNs) lease.expiresAtNs

theorem issuedAt_of_authorized (hinit : (svc.system envelope).Init db₀)
    (run : (svc.system envelope).Run db₀ calls db) (step : (svc.system envelope).Step db call db')
    (hreply : call.reply = .ok (.receipt receipt)) (hnew : receipt ∉ issued calls) :
    ∃ lease, IssuedAt svc envelope db₀ receipt calls call db db' lease := by
  have haccounts := accounts_of_run hinit run
  have henvelope : db.envelope = envelope := congrArg (fun x => x.2.2) haccounts.fixed
  obtain ⟨newReceiptId, req, out, done, rfl⟩ :=
    authorized_of_new haccounts.remembers step hreply hnew
  have hfresh := done.fresh
  refine ⟨done.lease, run, step, hreply, hnew, ?_, done.issuedAt_eq, ?_, ?_⟩
  · rw [done.leaseId_eq]
    exact done.lease_eq
  · rw [done.issuedAt_eq, done.expires_eq]
    omega
  · rw [done.expires_eq, done.issuedAt_eq, done.expiry_eq, henvelope]

theorem issuedAt_of_mem (hinit : (svc.system envelope).Init db₀)
    (run : (svc.system envelope).Run db₀ calls db) (hmem : receipt ∈ issueOrder calls) :
    ∃ before call after db₁ db₂ lease, calls = before ++ call :: after ∧
      IssuedAt svc envelope db₀ receipt before call db₁ db₂ lease := by
  induction run with
  | nil => exact absurd hmem List.not_mem_nil
  | @snoc db₁ db₂ calls last run step ih =>
    have hearlier : receipt ∈ issueOrder calls → ∃ before call after db₁ db₂ lease,
        calls ++ [last] = before ++ call :: after ∧
          IssuedAt svc envelope db₀ receipt before call db₁ db₂ lease := by
      intro hmem
      obtain ⟨before, call, after, db₁, db₂, lease, hcalls, hissuedAt⟩ := ih hmem
      refine ⟨before, call, after ++ [last], db₁, db₂, lease, ?_, hissuedAt⟩
      rw [hcalls, List.append_assoc, List.cons_append]
    rcases issueOrder_concat calls last with heq | ⟨latest, hreply, hnew, heq⟩
    · exact hearlier (heq ▸ hmem)
    · rw [heq] at hmem
      rcases List.mem_append.mp hmem with hmem | hmem
      · exact hearlier hmem
      · rw [List.mem_singleton.mp hmem]
        obtain ⟨lease, hissuedAt⟩ := issuedAt_of_authorized hinit run step hreply hnew
        exact ⟨calls, last, [], db₁, db₂, lease, rfl, hissuedAt⟩

/-! ### Receipts of a reclaimed lease -/

def ReturnsResidual (db db' : Database d Hash) (leaseId : String) : Prop :=
  ∃ lease lease', db.leases.lookup leaseId = some lease ∧ lease.status ≠ .expired ∧
    db'.leases.lookup leaseId = some lease' ∧ lease'.status = .expired

variable {leaseId : String}

theorem Effect.past_of_returns (h : Effect svc clock db operation db' out)
    (hreturns : ReturnsResidual db db' leaseId) {receiptId : String}
    (hreceipt : db'.receipts.lookup receiptId = some receipt) (hleaseId : receipt.leaseId = leaseId) :
    receipt.expiresAtNs + clock.uncertaintyNs ≤ clock.nowNs := by
  obtain ⟨lease, lease', hlease, hstatus, hlease', hexpired⟩ := hreturns
  obtain ⟨row, hrow, _, hstep⟩ := h.row_terms hlease
  obtain rfl := some_unique hrow hlease'
  rcases hstep.expired_cases hexpired with hold | ⟨_, _, ⟨done⟩⟩
  · exact absurd hold hstatus
  · have hleases : db'.leases = db.leases.updateAll (db.reclaimableLeases clock)
      fun _ => Lease.expired clock.nowNs := congrArg Database.leases done.result
    have hreceipts : db'.receipts = db.receipts := by rw [done.result]; rfl
    rw [hreceipts] at hreceipt
    rw [hleases, Table.lookup_updateAll, hlease] at hlease'
    by_cases hmem : leaseId ∈ db.reclaimableLeases clock
    · have hqualifies : db.reclaimable clock leaseId lease = true :=
        Table.qualifies_of_mem_batch hmem hlease
      have hnone := (of_decide_eq_true hqualifies).2.2
      have hpast := of_decide_eq_false
        (Table.anyRow_eq_false_iff.mp hnone receiptId receipt hreceipt)
      exact Nat.le_of_not_lt fun hfresh => hpast ⟨hleaseId, hfresh⟩
    · rw [if_neg hmem] at hlease'
      exact absurd (Option.some.inj hlease' ▸ hexpired) hstatus

theorem Effect.receipts_of_inactive (h : Effect svc clock db operation db' out) {lease : Lease d}
    (hlease : db.leases.lookup leaseId = some lease) (hstatus : lease.status ≠ .active)
    {receiptId : String} (hreceipt : db'.receipts.lookup receiptId = some receipt)
    (hleaseId : receipt.leaseId = leaseId) : db.receipts.lookup receiptId = some receipt := by
  rcases h.receipt_cases hreceipt with hold | ⟨req, done, rfl⟩
  · exact hold
  · rw [← hleaseId, done.leaseId_eq] at hlease
    obtain rfl := some_unique hlease done.lease_eq
    exact absurd done.active hstatus

def ExpiredWith (leaseId : String) (receipts : Table String (Receipt d)) (db : Database d Hash) :
    Prop :=
  db.Expired leaseId ∧
    ∀ receiptId receipt, db.receipts.lookup receiptId = some receipt → receipt.leaseId = leaseId →
      receipts.lookup receiptId = some receipt

theorem expiredWith_of_run {receipts : Table String (Receipt d)}
    (h : ExpiredWith leaseId receipts db) (run : (svc.system envelope).Run db calls db') :
    ExpiredWith leaseId receipts db' := by
  refine run.preserves (fun db call db' h step => ?_) h
  rcases effect_cases step with ⟨out, _, heffect⟩ | ⟨_, rfl⟩
  · obtain ⟨⟨lease, hlease, hstatus⟩, hreceipts⟩ := h
    obtain ⟨lease', hlease', _, hrow⟩ := heffect.row_terms hlease
    refine ⟨⟨lease', hlease', ?_⟩, fun receiptId receipt hreceipt hleaseId => ?_⟩
    · rw [hrow.status_of_over hlease (.inr hstatus), hstatus]
    · have hactive : lease.status ≠ .active := by
        rw [hstatus]
        decide
      have hold := heffect.receipts_of_inactive hlease hactive hreceipt hleaseId
      exact hreceipts receiptId receipt hold hleaseId
  · exact h

theorem past_of_reclaimed {before after : List (Call d)} {db₁ db₂ : Database d Hash}
    (hinit : (svc.system envelope).Init db₀) (hbefore : (svc.system envelope).Run db₀ before db₁)
    (step : (svc.system envelope).Step db₁ call db₂)
    (hafter : (svc.system envelope).Run db₂ after db) (hreturns : ReturnsResidual db₁ db₂ leaseId)
    (hmem : receipt ∈ issued (before ++ call :: after)) (hleaseId : receipt.leaseId = leaseId) :
    receipt.expiresAtNs + call.clock.uncertaintyNs ≤ call.clock.nowNs := by
  have hstored := (accounts_of_run hinit (hbefore.trans (.cons step hafter))).charged.stored _ hmem
  rcases effect_cases step with ⟨out, _, heffect⟩ | ⟨_, rfl⟩
  · have ⟨_, lease', _, _, hlease', hexpired⟩ := hreturns
    have hexpiredWith : ExpiredWith leaseId db₂.receipts db₂ :=
      ⟨⟨lease', hlease', hexpired⟩, fun _ _ h _ => h⟩
    have hold := (expiredWith_of_run hexpiredWith hafter).2 _ _ hstored hleaseId
    exact heffect.past_of_returns hreturns hold hleaseId
  · obtain ⟨lease, lease', hlease, hstatus, hlease', hexpired⟩ := hreturns
    obtain rfl := some_unique hlease hlease'
    exact absurd hexpired hstatus

/-- The receipts a warden issues for a lease and an audience have rising sequences and expiries that
do not fall, each within its lifetime and the lease; and once the residual of a lease has been
returned, no executor with an accurate reading finds one fresh. -/
theorem receipt_horizon (svc : WardenService d Hash) (envelope : Envelope d)
    {db₀ db : Database d Hash} {calls : List (Call d)} (hinit : (svc.system envelope).Init db₀)
    (run : (svc.system envelope).Run db₀ calls db) :
    (issueOrder calls).Pairwise Follows ∧
      (∀ receipt ∈ issueOrder calls, ∃ before call after db₁ db₂ lease,
        calls = before ++ call :: after ∧
          IssuedAt svc envelope db₀ receipt before call db₁ db₂ lease) ∧
      ∀ before call after db₁ db₂ leaseId, calls = before ++ call :: after →
        (svc.system envelope).Run db₀ before db₁ → (svc.system envelope).Step db₁ call db₂ →
        (svc.system envelope).Run db₂ after db → ReturnsResidual db₁ db₂ leaseId →
        ∀ receipt ∈ issueOrder calls, receipt.leaseId = leaseId →
        ∀ trueTime laterTime : ℝ, call.clock.Accurate trueTime → trueTime ≤ laterTime →
        ∀ (Digest : Type) (verifier : ReceiptVerifier d Digest) (reading : Reading),
          reading.Accurate laterTime →
            receipt.expiresAtNs ≤ reading.nowNs + reading.uncertaintyNs ∧
              verifier.verify receipt reading ≠ .ok () := by
  refine ⟨issueOrder_follows hinit run, fun receipt => issuedAt_of_mem hinit run, ?_⟩
  rintro before call after db₁ db₂ leaseId rfl hbefore step hafter hreturns receipt hmem hleaseId
    trueTime laterTime hwarden hlater Digest verifier reading hreading
  have hpast := past_of_reclaimed hinit hbefore step hafter hreturns (mem_issueOrder.mp hmem)
    hleaseId
  have hstale := hwarden.stale hpast hlater hreading
  exact ⟨hstale, fun hok => absurd (ReceiptVerifier.verify_ok hok) (Nat.not_lt.mpr hstale)⟩

end WardenService

namespace Sample

def charged : Database 1 ℕ × List (Call 1) :=
  (service "a").play (genesis "a" 6) [(exactly 1, registerPolicy),
    (exactly 2, .issueRoot "root" "line" (rootRequest 5)), (exactly 3, .authorize "receipt" runRequest)]

def reclaim : Operation 1 := .reclaimExpired operator none none

def returned : Database 1 ℕ × Outcome (Response 1) :=
  (service "a").serve (exactly 60) reclaim charged.1

end Sample

open Sample

theorem receipt_horizon_returned : ∃ receipt ∈ issueOrder (charged.2 ++
      [⟨exactly 60, reclaim, Sample.returned.2⟩]),
    WardenService.ReturnsResidual charged.1 Sample.returned.1 receipt.leaseId ∧
      ∀ verifier : ReceiptVerifier 1 ℕ, verifier.verify receipt (exactly 61) ≠ .ok () := by
  have hrun : ((service "a").system (envelope 6)).Run (genesis "a" 6)
      charged.2 charged.1 := (service "a").play_run _ _ _
  have hstep : ((service "a").system (envelope 6)).Step charged.1
      ⟨exactly 60, reclaim, Sample.returned.2⟩ Sample.returned.1 := rfl
  have hissued : (issueOrder (charged.2 ++
      [⟨exactly 60, reclaim, Sample.returned.2⟩])).map Receipt.leaseId =
        ["root"] := by decide +kernel
  have hrows : (charged.1.leases.lookup "root").map Lease.status = some .active ∧
      (Sample.returned.1.leases.lookup "root").map Lease.status = some .expired := by
    decide +kernel
  obtain ⟨receipt, hmem, hleaseId⟩ := List.mem_map.mp (hissued ▸ List.mem_cons_self)
  obtain ⟨lease, hlease, hactive⟩ := Option.map_eq_some_iff.mp hrows.1
  obtain ⟨lease', hlease', hexpired⟩ := Option.map_eq_some_iff.mp hrows.2
  have hreturns : WardenService.ReturnsResidual charged.1 Sample.returned.1 "root" :=
    ⟨lease, lease', hlease, by rw [hactive]; decide, hlease', hexpired⟩
  have haccurate : ∀ n : ℕ, (exactly n).Accurate n := fun n => by
    simp [Reading.Accurate, exactly]
  refine ⟨receipt, hmem, hleaseId ▸ hreturns, fun verifier => ?_⟩
  exact ((WardenService.receipt_horizon (service "a") (envelope 6) rfl
    (hrun.trans (.cons hstep (.nil _)))).2.2 _ _ [] _ _ "root" rfl hrun hstep (.nil _) hreturns
    receipt hmem hleaseId 60 61 (haccurate 60) (by norm_num) ℕ verifier _ (haccurate 61)).2

end Lets
