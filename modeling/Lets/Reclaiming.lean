import Lets.Library.Batches
import Lets.AuthorityReduction
import Lets.Authorizing
import Lets.ExactlyOnce

set_option autoImplicit false

/-!
# Reclaiming expired leases

`reclaim_expired` expires the first 64 leases that qualify and returns what they held to the free
pool.
-/

namespace Lets

open Library

variable {d : ℕ} {Hash : Type}

/-- A live row whose expiry is past by more than the uncertainty and the receipt lifetime, with no
receipt that may still be fresh. -/
def Database.reclaimable (clock : Reading) (db : Database d Hash) (leaseId : String)
    (lease : Lease d) : Bool :=
  lease.status.isLive ∧
    lease.expiresAtNs + db.envelope.receiptTtlNs + clock.uncertaintyNs ≤ clock.nowNs ∧
    db.receipts.anyRow (fun _ receipt => receipt.leaseId = leaseId ∧
      clock.nowNs < receipt.expiresAtNs + clock.uncertaintyNs) = false

theorem Database.settles_expired (clock : Reading) (db : Database d Hash) :
    Table.Settles (db.reclaimable clock) fun _ => Lease.expired clock.nowNs := by
  intro leaseId lease _
  exact decide_eq_false fun h => Bool.false_ne_true h.1

theorem Database.ClockSafe.touch {clock : Reading} {db : Database d Hash} (h : db.ClockSafe clock) :
    (db.touch clock.nowNs).ClockSafe clock := by
  refine ⟨h.now_le, h.uncertainty_le, h.interval_le, ?_⟩
  have hfloor := h.floor_le
  simp only [Database.touch, Database.advancedFloor, Option.mem_def, Option.some.injEq,
    forall_eq']
  cases hprior : db.clockFloorNs with
  | none => exact Nat.le_add_right _ _
  | some floor => exact max_le (hfloor floor hprior) (Nat.le_add_right _ _)

def Call.reclaimed (call : Call d) (i : Fin d) : ℕ :=
  match call.reply with
  | .ok (.reclaimed amount) => amount i
  | _ => 0

def reclaimedBy (calls : List (Call d)) (i : Fin d) : ℕ :=
  (calls.map fun call => call.reclaimed i).sum

namespace WardenService

/-- The caller may ask for expired leases to be reclaimed, and the warden can record it. -/
structure MayReclaim (svc : WardenService d Hash) (clock : Reading) (identity : IdentityContext)
    (tenantId envelopeId : Option String) (db : Database d Hash) : Prop where
  clockSafe : db.ClockSafe clock
  tenant : ∀ t ∈ tenantId, t = db.envelope.tenantId
  envelope : ∀ e ∈ envelopeId, e = db.envelope.envelopeId
  ownTenant : identity.tenantId = db.envelope.tenantId
  admin : identity.HasScope adminScopes
  current : svc.requireSigningKeyCurrent clock = .ok ()

structure BatchReclaimed (clock : Reading) (amount : ResourceVector d) (db db' : Database d Hash) :
    Prop where
  leases : db'.leases = db.leases.pass maintenanceRowBatch (db.reclaimable clock)
    fun _ => Lease.expired clock.nowNs
  amount_eq : ∀ i, amount i + db'.leaseResidual i = db.leaseResidual i
  freePool_eq : ∀ i, db'.freePool i = db.freePool i + amount i
  kept : db' = { db.touch clock.nowNs with
    leases := db'.leases
    leaseResidual := db'.leaseResidual
    freePool := db'.freePool
    revision := db'.revision
    auditLog := db'.auditLog }

variable {svc : WardenService d Hash} {clock : Reading} {identity : IdentityContext}
  {tenantId envelopeId : Option String} {db db' : Database d Hash}

theorem expireLeases_of (db : Database d Hash) (nowNs : ℕ) (leaseIds : List String)
    (reclaimed : ResourceVector d) (hnodup : leaseIds.Nodup)
    (hsum : db.ResidualSum)
    (hrows : ∀ id ∈ leaseIds, ∃ lease, db.leases.lookup id = some lease ∧
      Database.LeaseRowOk (lease.expired nowNs))
    (hmax : ∀ i, reclaimed i + db.leaseResidual i ≤ maxResource) :
    ∃ total amount : ResourceVector d, db.expireLeases nowNs leaseIds reclaimed = .ok ({ db with
        leases := db.leases.updateAll leaseIds fun _ => Lease.expired nowNs
        leaseResidual := total }, amount) ∧
      ∀ i, amount i + total i = reclaimed i + db.leaseResidual i := by
  induction leaseIds generalizing db reclaimed with
  | nil =>
    refine ⟨db.leaseResidual, reclaimed, ?_, fun _ => rfl⟩
    rw [Table.updateAll_nil]
    rfl
  | cons leaseId rest ih =>
    obtain ⟨⟨lease, hlease, hok⟩, hrest⟩ := List.forall_mem_cons.mp hrows
    obtain ⟨hhead, hnodup⟩ := List.nodup_cons.mp hnodup
    obtain ⟨total, hupdate, htotal⟩ := updateLeaseResidual_of hsum hlease (.zero d)
      (fun _ => Nat.zero_le _) (f := fun lease => { lease with
        status := .expired, sequence := lease.sequence + 1, updatedAtNs := nowNs }) hok
    change ∀ i, total i + lease.residual i = db.leaseResidual i at htotal
    let next : ResourceVector d := ⟨fun i => reclaimed i + lease.residual i, fun i => by
      have hbound := hmax i
      have hmoved := htotal i
      omega⟩
    have hnext : ∀ i, next i = reclaimed i + lease.residual i := fun _ => rfl
    -- the running total stays the sum of the rows
    have hsum' : Database.ResidualSum { db with
        leases := db.leases.update leaseId (Lease.expired nowNs), leaseResidual := total } := by
      intro i
      have hrow := Database.sumOf_update_lease (f := Lease.expired nowNs) hlease i
      have hzero : (Lease.expired nowNs lease).residual i = 0 := rfl
      have hmoved := htotal i
      have hbefore := hsum i
      change total i = Table.sumOf (fun _ lease => lease.residual i)
        (db.leases.update leaseId (Lease.expired nowNs))
      omega
    have hrows' : ∀ id ∈ rest, ∃ lease',
        (db.leases.update leaseId (Lease.expired nowNs)).lookup id = some lease' ∧
          Database.LeaseRowOk (lease'.expired nowNs) := by
      intro id hid
      have hne : id ≠ leaseId := fun heq => hhead (heq ▸ hid)
      rw [Table.lookup_update, if_neg hne]
      exact hrest id hid
    obtain ⟨total', amount, hexpire, hamount⟩ := ih _ next hnodup hsum' hrows'
      fun i => by
        have hbound := hmax i
        have hmoved := htotal i
        have hstep := hnext i
        change next i + total i ≤ maxResource
        omega
    refine ⟨total', amount, ?_, fun i => ?_⟩
    · simp only [Database.expireLeases, bind_ok_iff, Database.loadLease_ok_iff,
        ResourceVector.add_ok_iff]
      refine ⟨lease, hlease, next, hnext, _, hupdate, hexpire.trans ?_⟩
      rw [Table.updateAll_update_const _ _ hhead]
    · have hmoved := htotal i
      have hstep := hnext i
      have hlast : amount i + total' i = next i + total i := hamount i
      omega

theorem reclaimable_rowOk (clock : Reading) (hdb : svc.Sound db)
    (hcreated : ∀ leaseId lease, db.leases.lookup leaseId = some lease →
      lease.createdAtNs ≤ lease.expiresAtNs) :
    ∀ id ∈ db.reclaimableLeases clock, ∃ lease, db.leases.lookup id = some lease ∧
      Database.LeaseRowOk (lease.expired clock.nowNs) := by
  intro id hid
  obtain ⟨lease, hlease, _, hpast⟩ := Database.mem_reclaimableLeases hid
  have hage : lease.createdAtNs ≤ clock.nowNs := by
    have hlife := hcreated id lease hlease
    omega
  exact ⟨lease, hlease, hdb.issued id lease hlease, hage⟩

theorem exec_reclaimExpired_of {db₁ : Database d Hash} {amount : ResourceVector d}
    (freePool : ResourceVector d)
    (hmay : svc.MayReclaim clock identity tenantId envelopeId db)
    (hexpire : (db.touch clock.nowNs).expireLeases clock.nowNs (db.reclaimableLeases clock)
      (.zero d) = .ok (db₁, amount)) (hfree : ∀ i, freePool i = db₁.freePool i + amount i)
    (hconserved : Database.Conserved { db₁ with freePool }) :
    ∃ revision auditLog, svc.exec clock (.reclaimExpired identity tenantId envelopeId) db =
      .ok ({ db₁ with freePool, revision, auditLog }, .reclaimed amount) := by
  change ∃ revision auditLog, svc.reclaimExpired clock identity tenantId envelopeId db = _
  unfold reclaimExpired
  by_cases hnone : db.reclaimableLeases clock = []
  · -- nothing qualifies: no row moves and nothing is recorded
    have hzero : amount = .zero d := by
      rw [hnone] at hexpire
      exact (Prod.mk.inj (Except.ok.inj hexpire)).2.symm
    have hsame : freePool = db₁.freePool := ResourceVector.ext fun i => by
      rw [hfree i, hzero, ResourceVector.zero_apply, Nat.add_zero]
    subst hsame
    refine ⟨db₁.revision, db₁.auditLog, writeTransaction_of ?_ hconserved⟩
    simp only [bind_ok_iff, require_ok_iff, exists_unit_iff, Database.clockIsSafe_ok_iff,
      requireAdmin]
    exact ⟨hmay.tenant, hmay.envelope, ⟨hmay.ownTenant, hmay.admin⟩, _, ⟨hmay.clockSafe, rfl⟩, _,
      hexpire, if_pos hnone⟩
  · obtain ⟨row, haudit⟩ := appendAudit_of hmay.current "leases.reclaimed" "envelope"
      db₁.envelope.envelopeId identity.subjectId
      [("lease_ids", .texts (db.reclaimableLeases clock)), ("reclaimed", .amount amount),
        ("lower_bound_now_ns", .number (clock.nowNs - clock.uncertaintyNs))]
      { db₁ with freePool, revision := db₁.revision + 1 }
    refine ⟨db₁.revision + 1, db₁.auditLog ++ [row],
      writeTransaction_of ?_ ⟨hconserved.identity, hconserved.le_max⟩⟩
    simp only [bind_ok_iff, require_ok_iff, exists_unit_iff, Database.clockIsSafe_ok_iff,
      requireAdmin]
    refine ⟨hmay.tenant, hmay.envelope, ⟨hmay.ownTenant, hmay.admin⟩, _, ⟨hmay.clockSafe, rfl⟩, _,
      hexpire, (if_neg hnone).trans ?_⟩
    simp only [bind_ok_iff, pure_ok_iff, ResourceVector.add_ok_iff]
    exact ⟨freePool, hfree, _, haudit, rfl⟩

theorem reclaimExpired_of {envelope : Envelope d} (hreach : (svc.system envelope).Reachable db)
    (hmay : svc.MayReclaim clock identity tenantId envelopeId db) :
    ∃ db' amount, svc.exec clock (.reclaimExpired identity tenantId envelopeId) db =
      .ok (db', .reclaimed amount) ∧ BatchReclaimed clock amount db db' := by
  have hdb := sound_of_reachable hreach
  have hbound : ∀ i, db.freePool i + db.leaseResidual i ≤ maxResource := by
    intro i
    have hidentity := hdb.conserved.identity i
    have hmax := hdb.conserved.le_max i
    omega
  have hrows := reclaimable_rowOk clock hdb (created_le_of_reachable hreach)
  obtain ⟨total, amount, hexpire, hamount⟩ := expireLeases_of (db.touch clock.nowNs) clock.nowNs
    (db.reclaimableLeases clock) (.zero d) Database.nodup_reclaimableLeases hdb.residualSum hrows
    fun i => by
      rw [ResourceVector.zero_apply, Nat.zero_add]
      exact db.leaseResidual.le_max i
  replace hamount : ∀ i, amount i + total i = db.leaseResidual i := fun i => by
    rw [hamount, ResourceVector.zero_apply, Nat.zero_add]
    rfl
  let freePool : ResourceVector d := ⟨fun i => db.freePool i + amount i, fun i => by
    have hsum := hbound i
    have hpart := hamount i
    omega⟩
  have hfree : ∀ i, freePool i = db.freePool i + amount i := fun _ => rfl
  obtain ⟨revision, auditLog, hexec⟩ := exec_reclaimExpired_of freePool hmay hexpire hfree
    ⟨fun i => by
      have hidentity := hdb.conserved.identity i
      have hpart := hamount i
      have hpool := hfree i
      change db.envelope.initialLocalShare i + db.transferredIn i =
        freePool i + total i + (db.consumed i + db.transferredOut i)
      omega, hdb.conserved.le_max⟩
  exact ⟨_, amount, hexec, rfl, hamount, hfree, rfl⟩

namespace BatchReclaimed

variable {amount : ResourceVector d}

variable (done : BatchReclaimed clock amount db db')

include done

theorem reclaimable_eq : db'.reclaimable clock = db.reclaimable clock := by
  rw [done.kept]
  rfl

theorem mayReclaim (hmay : svc.MayReclaim clock identity tenantId envelopeId db) :
    svc.MayReclaim clock identity tenantId envelopeId db' := by
  have hclock := hmay.clockSafe.touch
  rw [done.kept]
  exact ⟨⟨hclock.now_le, hclock.uncertainty_le, hclock.interval_le, hclock.floor_le⟩, hmay.tenant,
    hmay.envelope, hmay.ownTenant, hmay.admin, hmay.current⟩

theorem of_none (hsum : db.ResidualSum) (hsum' : db'.ResidualSum)
    (hnone : db.leases.pending (db.reclaimable clock) = 0) :
    amount = .zero d ∧ db'.ledger = db.ledger := by
  have hbatch : db.leases.batch (fun leaseId _ => leaseId) (db.reclaimable clock)
      maintenanceRowBatch = [] :=
    List.eq_nil_of_length_eq_zero (by rw [Table.length_batch, hnone, Nat.min_zero])
  have hleases : db'.leases = db.leases := by
    rw [done.leases, Table.pass, hbatch, Table.updateAll_nil]
  have htotal : db'.leaseResidual = db.leaseResidual := ResourceVector.ext fun i => by
    rw [hsum' i, hsum i, hleases]
  have hzero : amount = .zero d := ResourceVector.ext fun i => by
    have hamount := done.amount_eq i
    rw [htotal] at hamount
    rw [ResourceVector.zero_apply]
    omega
  have hfree : db'.freePool = db.freePool := ResourceVector.ext fun i => by
    rw [done.freePool_eq i, hzero, ResourceVector.zero_apply, Nat.add_zero]
  refine ⟨hzero, ?_⟩
  unfold Database.ledger
  rw [hleases, htotal, hfree, done.kept]
  rfl

end BatchReclaimed

structure BatchesReclaimed (clock : Reading) (calls : List (Call d)) (db db' : Database d Hash) :
    Prop where
  replies : ∀ call ∈ calls, ∃ amount, call.reply = .ok (.reclaimed amount)
  leases : db'.leases = db.leases.passes maintenanceRowBatch (db.reclaimable clock)
    (calls.map fun _ _ => Lease.expired clock.nowNs)
  amount_eq : ∀ i, reclaimedBy calls i + db'.leaseResidual i = db.leaseResidual i
  freePool_eq : ∀ i, db'.freePool i = db.freePool i + reclaimedBy calls i
  spent : (db'.consumed, db'.transferredIn, db'.transferredOut) =
    (db.consumed, db.transferredIn, db.transferredOut)
  reclaimable_eq : db'.reclaimable clock = db.reclaimable clock

theorem BatchesReclaimed.nil : BatchesReclaimed clock [] db db where
  replies := by simp
  leases := by rw [List.map_nil, Table.passes]
  amount_eq i := by simp [reclaimedBy]
  freePool_eq i := by simp [reclaimedBy]
  spent := by rfl
  reclaimable_eq := by rfl

theorem BatchesReclaimed.cons {db₁ : Database d Hash} {amount : ResourceVector d}
    {operation : Operation d} {calls : List (Call d)} (first : BatchReclaimed clock amount db db₁)
    (rest : BatchesReclaimed clock calls db₁ db') :
    BatchesReclaimed clock (⟨clock, operation, .ok (.reclaimed amount)⟩ :: calls) db db' where
  replies := List.forall_mem_cons.mpr ⟨⟨amount, rfl⟩, rest.replies⟩
  leases := by
    rw [rest.leases, first.leases, first.reclaimable_eq]
    rfl
  amount_eq i := by
    have hfirst := first.amount_eq i
    have hrest := rest.amount_eq i
    change amount i + reclaimedBy calls i + db'.leaseResidual i = db.leaseResidual i
    omega
  freePool_eq i := by
    have hfirst := first.freePool_eq i
    have hrest := rest.freePool_eq i
    change db'.freePool i = db.freePool i + (amount i + reclaimedBy calls i)
    omega
  spent := by
    rw [rest.spent, first.kept]
    rfl
  reclaimable_eq := rest.reclaimable_eq.trans first.reclaimable_eq

theorem play_reclaims {envelope : Envelope d} (hreach : (svc.system envelope).Reachable db)
    (hmay : svc.MayReclaim clock identity tenantId envelopeId db) (k : ℕ) :
    BatchesReclaimed clock
        (svc.play db (.replicate k (clock, .reclaimExpired identity tenantId envelopeId))).2 db
        (svc.play db (.replicate k (clock, .reclaimExpired identity tenantId envelopeId))).1 ∧
      svc.MayReclaim clock identity tenantId envelopeId
        (svc.play db (.replicate k (clock, .reclaimExpired identity tenantId envelopeId))).1 := by
  induction k generalizing db with
  | zero => exact ⟨.nil, hmay⟩
  | succ k ih =>
    obtain ⟨db₁, amount, hexec, done⟩ := reclaimExpired_of hreach hmay
    have hserve := serve_ok_iff.mpr hexec
    have hstep : (svc.system envelope).Step db
      ⟨clock, .reclaimExpired identity tenantId envelopeId, .ok (.reclaimed amount)⟩ db₁ := hserve
    obtain ⟨hrest, hmay'⟩ := ih (hreach.run (.cons hstep (.nil _))) (done.mayReclaim hmay)
    rw [List.replicate_succ]
    unfold play
    rw [hserve]
    exact ⟨.cons done hrest, hmay'⟩

theorem length_play (script : List (Reading × Operation d)) :
    (svc.play db script).2.length = script.length := by
  induction script generalizing db with
  | nil => rfl
  | cons call rest ih => exact congrArg (· + 1) ih

/-- Enough calls at one reading reclaim every lease that qualifies, and return what it held once;
one call more returns nothing. -/
theorem reclamation_exact {envelope : Envelope d} (hreach : (svc.system envelope).Reachable db)
    (hmay : svc.MayReclaim clock identity tenantId envelopeId db) :
    let operation : Operation d := .reclaimExpired identity tenantId envelopeId
    let n := db.leases.pending (db.reclaimable clock)
    let played := svc.play db (.replicate (n ⌈/⌉ 64) (clock, operation))
    (∀ call ∈ played.2, ∃ amount, call.reply = .ok (.reclaimed amount)) ∧
    (∀ leaseId lease, db.leases.lookup leaseId = some lease →
      played.1.leases.lookup leaseId = some (if db.reclaimable clock leaseId lease then
        { lease with
          status := .expired
          residual := .zero d
          sequence := lease.sequence + 1
          updatedAtNs := clock.nowNs }
        else lease)) ∧
    (∀ leaseId, db.leases.lookup leaseId = none → played.1.leases.lookup leaseId = none) ∧
    (∀ i, reclaimedBy played.2 i = db.leases.sumOf fun leaseId lease =>
      if db.reclaimable clock leaseId lease then lease.residual i else 0) ∧
    (∀ i, played.1.freePool i = db.freePool i + reclaimedBy played.2 i) ∧
    (played.1.consumed, played.1.transferredIn, played.1.transferredOut) =
      (db.consumed, db.transferredIn, db.transferredOut) ∧
    ∃ db', svc.serve clock operation played.1 = (db', .ok (.reclaimed (.zero d))) ∧
      db'.ledger = played.1.ledger := by
  intro operation n played
  obtain ⟨done, hmay'⟩ := play_reclaims hreach hmay (n ⌈/⌉ 64)
  have hreach' : (svc.system envelope).Reachable played.1 := hreach.run (svc.play_run _ _ _)
  have hdb := sound_of_reachable hreach
  have hdb' := sound_of_reachable hreach'
  have hsettles : ∀ f ∈ played.2.map fun _ _ => Lease.expired clock.nowNs,
      Table.Settles (db.reclaimable clock) f := by
    intro f hf
    obtain ⟨_, _, rfl⟩ := List.mem_map.mp hf
    exact db.settles_expired clock
  have hlength : n ⌈/⌉ maintenanceRowBatch ≤
      (played.2.map fun _ _ => Lease.expired clock.nowNs : List (String → Lease d → _)).length := by
    rw [List.length_map, length_play, List.length_replicate]
    rfl
  have hrow : ∀ leaseId lease, db.leases.lookup leaseId = some lease →
      played.1.leases.lookup leaseId = some (if db.reclaimable clock leaseId lease then
        lease.expired clock.nowNs else lease) := by
    intro leaseId lease hlease
    rw [done.leases]
    split_ifs with hp
    · obtain ⟨f, hf, hrow⟩ :=
        Table.lookup_passes_of_pending (by decide) hsettles hlength hlease hp
      obtain ⟨_, _, rfl⟩ := List.mem_map.mp hf
      exact hrow
    · rcases Table.lookup_passes (n := maintenanceRowBatch) hsettles hlease with hsame | ⟨hp', _⟩
      · exact hsame
      · exact absurd hp' hp
  have hnone : ∀ leaseId, db.leases.lookup leaseId = none →
      played.1.leases.lookup leaseId = none := by
    intro leaseId hlease
    rw [done.leases]
    exact Table.lookup_passes_none hlease
  refine ⟨done.replies, hrow, hnone, fun i => ?_, done.freePool_eq, done.spent, ?_⟩
  · -- what is left is held by the leases that did not qualify
    have hafter : played.1.leaseResidual i = db.leases.sumOf fun leaseId lease =>
        if db.reclaimable clock leaseId lease then 0 else lease.residual i := by
      rw [hdb'.residualSum i]
      refine Table.sumOf_eq_of_lookup fun leaseId => ?_
      cases hlease : db.leases.lookup leaseId with
      | none =>
        rw [hnone leaseId hlease]
        rfl
      | some lease =>
        rw [hrow leaseId lease hlease]
        simp only [Option.elim_some]
        split_ifs <;> rfl
    have hsplit : db.leaseResidual i =
        (db.leases.sumOf fun leaseId lease =>
          if db.reclaimable clock leaseId lease then lease.residual i else 0) +
        db.leases.sumOf fun leaseId lease =>
          if db.reclaimable clock leaseId lease then 0 else lease.residual i := by
      rw [hdb.residualSum i, ← Table.sumOf_add]
      refine Table.sumOf_congr fun leaseId lease _ => ?_
      split_ifs <;> simp
    have hreturned := done.amount_eq i
    change reclaimedBy played.2 i + played.1.leaseResidual i = _ at hreturned
    omega
  · obtain ⟨db', amount, hexec, last⟩ := reclaimExpired_of hreach' hmay'
    have hserve := serve_ok_iff.mpr hexec
    have hstep : (svc.system envelope).Step played.1
      ⟨clock, operation, .ok (.reclaimed amount)⟩ db' := hserve
    have hlast := sound_of_reachable (hreach'.run (.cons hstep (.nil _)))
    have hdone : played.1.leases.pending (played.1.reclaimable clock) = 0 := by
      rw [done.reclaimable_eq, done.leases]
      exact Table.pending_passes_eq_zero (by decide) hsettles hlength
    obtain ⟨rfl, hledger⟩ := last.of_none hdb'.residualSum hlast.residualSum hdone
    exact ⟨db', hserve, hledger⟩

end WardenService

open Sample

/-- Sixty-five leases qualify, so two calls are made. -/
theorem reclamation_exact_wide :
    let operation : Operation 1 := .reclaimExpired operator none none
    let played := (service "a").play widelyRevoked (.replicate 2 (exactly 60, operation))
    (∀ call ∈ played.2, ∃ amount, call.reply = .ok (.reclaimed amount)) ∧
      (played.1.leases.lookup "0").map (fun lease => (lease.status, lease.residual 0)) =
        some (.expired, 0) ∧
      reclaimedBy played.2 0 = 70 ∧ played.1.freePool 0 = widelyRevoked.freePool 0 + 70 ∧
      ∃ db', (service "a").serve (exactly 60) operation played.1 =
        (db', .ok (.reclaimed (.zero 1))) ∧ db'.ledger = played.1.ledger := by
  dsimp only
  obtain ⟨hfloor, _⟩ := widelyRevoked_facts
  obtain ⟨_, henvelope⟩ := fixed_of_reachable widelyRevoked_reachable
  have hclock : widelyRevoked.ClockSafe (exactly 60) := by
    refine ⟨by decide, Nat.zero_le _, by decide, fun floor hmem => ?_⟩
    obtain rfl := some_unique hfloor hmem
    decide
  have hmay : (service "a").MayReclaim (exactly 60) operator none none widelyRevoked :=
    ⟨hclock, (by simp), (by simp), by rw [henvelope]; rfl, by decide, rfl⟩
  have hfacts : widelyRevoked.leases.pending (widelyRevoked.reclaimable (exactly 60)) = 65 ∧
      (widelyRevoked.leases.lookup "0").map (fun lease =>
        decide (widelyRevoked.reclaimable (exactly 60) "0" lease)) = some true ∧
      (widelyRevoked.leases.sumOf fun leaseId lease =>
        if widelyRevoked.reclaimable (exactly 60) leaseId lease then lease.residual 0 else 0) =
          70 := by
    decide +kernel
  obtain ⟨hpending, hroot, hsum⟩ := hfacts
  have hall := WardenService.reclamation_exact widelyRevoked_reachable hmay
  simp only [hpending, show 65 ⌈/⌉ 64 = 2 from rfl] at hall
  obtain ⟨hreplies, hrows, _, hreclaimed, hfree, _, hmore⟩ := hall
  obtain ⟨lease, hlease, hqualifies⟩ := Option.map_eq_some_iff.mp hroot
  have hrow := hrows "0" lease hlease
  rw [if_pos (of_decide_eq_true hqualifies)] at hrow
  have htotal := (hreclaimed 0).trans hsum
  exact ⟨hreplies, by rw [hrow]; rfl, htotal, by rw [← htotal]; exact hfree 0, hmore⟩

end Lets
