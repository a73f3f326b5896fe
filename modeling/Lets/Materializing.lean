import Lets.Reclaiming

set_option autoImplicit false

/-!
# Marking a revoked branch

A stored revocation marks the live leases beneath its branch in batches of 64, one batch for every
repeated delivery of it.
-/

namespace Lets

open Library

variable {d : ℕ} {Hash : Type}

def revocable (lineageId branchLeaseId leaseId : String) (lease : Lease d) : Bool :=
  lease.lineageId = lineageId ∧ lease.status.isLiveLease ∧
    (leaseId = branchLeaseId ∨ branchLeaseId ∈ lease.ancestorPath)

theorem Database.nextBatch_eq (lineageId branchLeaseId : String) (db : Database d Hash) :
    db.nextBatch lineageId branchLeaseId = db.leases.batch (fun leaseId _ => leaseId)
      (revocable lineageId branchLeaseId) maintenanceRowBatch := by
  unfold Database.nextBatch Database.revocableLeases Table.batch
  rw [List.take_take]
  rfl

def Database.vectors (db : Database d Hash) : List (ResourceVector d) :=
  [db.freePool, db.leaseResidual, db.consumed, db.transferredIn, db.transferredOut]

theorem settles_revoked (lineageId branchLeaseId : String) (nowNs : ℕ) :
    Table.Settles (revocable (d := d) lineageId branchLeaseId) fun _ => Lease.revoked nowNs := by
  intro leaseId lease hlive
  refine decide_eq_false fun h => ?_
  have hstatus : (lease.revoked nowNs).status = .revoked := by
    unfold Lease.revoked
    rw [if_pos (of_decide_eq_true hlive).2.1]
  rw [hstatus] at h
  exact Bool.false_ne_true h.2.1

namespace WardenService

variable {svc : WardenService d Hash} {clock : Reading} {operation : Operation d}
  {db db' : Database d Hash} {out : Response d} {lineageId branchLeaseId : String}

variable {envelope : Envelope d}

theorem revocation_epoch_of_reachable (hreach : (svc.system envelope).Reachable db) : ∀ key row,
      db.revocations.lookup key = some row → row.epoch = row.payload.epoch := by
  refine invariant_of_reachable (P := fun db => ∀ key row, db.revocations.lookup key = some row →
    row.epoch = row.payload.epoch) (fun _ _ h => (by cases h)) ?_ hreach
  intro clock db operation db' out h _ heffect key row hrow
  rcases heffect.revocation_step key with hsame | ⟨revocation, _, _, hnew⟩
  · exact h key row (hsame ▸ hrow)
  · obtain rfl := some_unique hnew hrow
    rfl

theorem epoch_step {call : Call d} (step : (svc.system envelope).Step db call db')
    {key : String × String} {row : RevocationRow} (hrow : db.revocations.lookup key = some row) :
    ∃ row', db'.revocations.lookup key = some row' ∧ (row' = row ∨ row.epoch < row'.epoch) := by
  rcases effect_cases step with ⟨out, _, heffect⟩ | ⟨_, rfl⟩
  · rcases heffect.revocation_step key with hsame | ⟨revocation, _, hlt, hnew⟩
    · exact ⟨row, hsame.trans hrow, .inl rfl⟩
    · exact ⟨_, hnew, .inr (hlt row hrow)⟩
  · exact ⟨row, hrow, .inl rfl⟩

variable {revocation : BranchRevocation}

theorem ingestRevocation_newer {identity : IdentityContext}
    (h : svc.ingestRevocation clock identity revocation db = .ok (db', out)) {row : RevocationRow}
    (hrow : db.revocations.lookup (revocation.lineageId, revocation.branchLeaseId) = some row) :
    row.epoch < revocation.epoch ∨ row.epoch = revocation.epoch ∧ row.payload = revocation := by
  simp only [ingestRevocation, bind_ok_iff, require_ok_iff, exists_unit_iff] at h
  obtain ⟨_, _, _, h⟩ := h
  obtain ⟨h, _⟩ := writeTransaction_ok h
  simp only [bind_ok_iff, require_ok_iff, exists_unit_iff, Database.clockIsSafe_ok_iff] at h
  obtain ⟨_, _, ⟨_, rfl⟩, _, _, _, _, hle, h⟩ := h
  rcases (hle row hrow).lt_or_eq with hlt | heq
  · exact .inl hlt
  · split_ifs at h with hknown
    · simp only [bind_ok_iff, require_ok_iff, exists_unit_iff] at h
      exact .inr ⟨heq, h.1 row hrow⟩
    · refine absurd ((Option.any_eq_true _ _).mpr ⟨row, hrow, ?_⟩) hknown
      exact decide_eq_true heq

/-- An admitted repetition of the delivery of a stored revocation: the stored content is delivered
again, or the request that was answered with it is made again. -/
inductive Redelivers (svc : WardenService d Hash) (db : Database d Hash)
    (lineageId branchLeaseId : String) : Operation d → Prop
  | ingested {identity : IdentityContext} {revocation : BranchRevocation} {row : RevocationRow}
      (stored : db.revocations.lookup (lineageId, branchLeaseId) = some row)
      (payload_eq : row.payload = revocation) (lineage_eq : revocation.lineageId = lineageId)
      (branch_eq : revocation.branchLeaseId = branchLeaseId) (valid : revocation.validate = .ok ())
      (scope : identity.subjectId = revocation.issuerWarden ∨ identity.HasScope (adminScopes ++
        ["lets.branch.revoke.ingest", "lets.revocation.propagate", "lets.peer"]))
      (verified : svc.verifyRecord (.revocation revocation) revocation.issuerWarden = true)
      (envelope : db.requireEnvelope revocation.tenantId revocation.envelopeId = .ok ())
      (tenant : identity.tenantId = revocation.tenantId)
      (epoch : revocation.configEpoch = db.envelope.configEpoch)
      (lineage : ∀ branch ∈ db.leases.lookup branchLeaseId, branch.lineageId = lineageId)
      (owner : branchLeaseId ∈ db.leases → db.wardenId = revocation.issuerWarden) :
      Redelivers svc db lineageId branchLeaseId (.ingestRevocation identity revocation)
  | retried {req : RevokeBranchRequest} {branch : Lease d} {out : Response d}
      (id_eq : req.leaseId = branchLeaseId)
      (found : db.leases.lookup branchLeaseId = some branch)
      (lineage_eq : branch.lineageId = lineageId)
      (admissible : svc.Admissible db (.revokeBranch req))
      (remembered : svc.Remembered (.revokeBranch req) out db) :
      Redelivers svc db lineageId branchLeaseId (.revokeBranch req)

structure BatchMarked (clock : Reading) (lineageId branchLeaseId : String)
    (db db' : Database d Hash) : Prop where
  leases : db'.leases = db.leases.pass maintenanceRowBatch (revocable lineageId branchLeaseId)
    fun _ => Lease.revoked clock.nowNs
  kept : db' = { db.touch clock.nowNs with leases := db'.leases, auditLog := db'.auditLog }

theorem MarkedAgain.batchMarked (done : MarkedAgain svc clock lineageId branchLeaseId db db') :
    BatchMarked clock lineageId branchLeaseId db db' := by
  have hresult := done.result
  rw [done.materialized.result] at hresult
  refine ⟨?_, ?_⟩
  · rw [hresult, Table.pass, ← Database.nextBatch_eq, ← done.affected_eq]
    rfl
  · rw [hresult]

theorem Redelivers.batchMarked (h : svc.Redelivers db lineageId branchLeaseId operation)
    (hepoch : ∀ key row, db.revocations.lookup key = some row → row.epoch = row.payload.epoch)
    (hexec : svc.exec clock operation db = .ok (db', out)) :
    BatchMarked clock lineageId branchLeaseId db db' := by
  cases h with
  | ingested stored payload_eq lineage_eq branch_eq =>
    subst payload_eq
    obtain ⟨_, _, _, _, _, ⟨_, ⟨done⟩⟩ | ⟨done, _⟩⟩ := ingestRevocation_ok hexec
    · rw [lineage_eq, branch_eq] at done
      exact done.batchMarked
    · have hlt := done.epoch_lt
      rw [lineage_eq, branch_eq] at hlt
      exact absurd (hepoch _ _ stored) (hlt _ stored).ne
  | retried id_eq found lineage_eq _ remembered =>
    obtain ⟨row, hrow, _⟩ := remembered _ _ _ rfl rfl
    obtain ⟨_, _, branch, hbranch, ⟨_, _, _, _, _, ⟨done⟩⟩ | ⟨hnew, _⟩⟩ := revokeBranch_ok hexec
    · subst id_eq
      obtain rfl := some_unique hbranch found
      rw [lineage_eq] at done
      exact done.batchMarked
    · rw [hnew] at hrow
      cases hrow

theorem ingestRevocation_again_iff {identity : IdentityContext}
    (h : svc.Redelivers db lineageId branchLeaseId (.ingestRevocation identity revocation))
    (hdb : svc.Sound db) (hclock : db.ClockSafe clock)
    (hepoch : ∀ key row, db.revocations.lookup key = some row → row.epoch = row.payload.epoch)
    (hsigns : db.nextBatch lineageId branchLeaseId = [] ∨ svc.requireSigningKeyCurrent clock = .ok ()) :
    (∃ db' out, svc.ingestRevocation clock identity revocation db = .ok (db', out)) ↔
      db.BatchCreated lineageId branchLeaseId clock.nowNs := by
  have hrows : _ ↔ db.BatchCreated lineageId branchLeaseId clock.nowNs :=
    Database.batchCreated_iff hdb.issued
  cases h with
  | @ingested _ _ row stored payload_eq lineage_eq branch_eq valid scope verified envelope tenant
      epoch lineage owner =>
  subst payload_eq lineage_eq branch_eq
  have hsame := hepoch _ row stored
  have hknown : ((db.touch clock.nowNs).revocations.lookup
      (row.payload.lineageId, row.payload.branchLeaseId)).any
      (fun row' => decide (row'.epoch = row.payload.epoch)) = true :=
    (Option.any_eq_true _ _).mpr ⟨row, stored, decide_eq_true hsame⟩
  simp only [ingestRevocation, bind_ok_iff, require_ok_iff, exists_unit_iff]
  constructor
  · rintro ⟨db', out, _, _, _, h⟩
    obtain ⟨h, _⟩ := writeTransaction_ok h
    simp only [bind_ok_iff, require_ok_iff, exists_unit_iff, Database.clockIsSafe_ok_iff] at h
    obtain ⟨_, _, ⟨_, rfl⟩, _, _, _, _, _, h⟩ := h
    rw [if_pos hknown] at h
    simp only [bind_ok_iff, require_ok_iff, exists_unit_iff] at h
    obtain ⟨_, ⟨db₁, affected, complete⟩, hmark, _⟩ := h
    obtain ⟨hok, _⟩ := Database.materializeRevokedBranch_ok_iff.mp hmark
    exact hrows.mp hok
  · intro htimes
    have hmark : (db.touch clock.nowNs).materializeRevokedBranch row.payload.lineageId
        row.payload.branchLeaseId clock.nowNs =
          .ok (_, db.nextBatch row.payload.lineageId row.payload.branchLeaseId, _) :=
      Database.materializeRevokedBranch_ok_iff.mpr ⟨hrows.mpr htimes, rfl, rfl, rfl⟩
    have haudited : ∀ details marked, ∃ db₂, svc.auditMaterialized clock row.payload.branchLeaseId
        identity.subjectId (db.nextBatch row.payload.lineageId row.payload.branchLeaseId) details
          marked = .ok db₂ :=
      fun _ _ => auditMaterialized_isOk_iff.mpr hsigns
    obtain ⟨db₂, haudit⟩ := haudited _ _
    refine ⟨db₂, _, valid, scope, verified, writeTransaction_of (by
      simp only [bind_ok_iff, require_ok_iff, exists_unit_iff, Database.clockIsSafe_ok_iff]
      refine ⟨envelope, _, ⟨hclock, rfl⟩, tenant, epoch, lineage, owner,
        fun row' hrow' => ?_, ?_⟩
      · obtain rfl := some_unique stored hrow'
        exact hsame.le
      · rw [if_pos hknown]
        simp only [bind_ok_iff, require_ok_iff, exists_unit_iff, pure_ok_iff]
        refine ⟨fun row' hrow' => ?_, _, hmark, db₂, haudit, rfl⟩
        obtain rfl := some_unique stored hrow'
        rfl) ?_⟩
    obtain ⟨rows, _, rfl⟩ := auditMaterialized_ok haudit
    exact ⟨hdb.conserved.identity, hdb.conserved.le_max⟩

/-- A repeated delivery at a safe reading, whose note in the audit log can be signed. -/
structure Repeats (svc : WardenService d Hash) (clock : Reading) (lineageId branchLeaseId : String)
    (operation : Operation d) (db : Database d Hash) : Prop where
  redelivers : svc.Redelivers db lineageId branchLeaseId operation
  clockSafe : db.ClockSafe clock
  signs : db.nextBatch lineageId branchLeaseId = [] ∨ svc.requireSigningKeyCurrent clock = .ok ()

theorem Repeats.succeeds_iff (h : svc.Repeats clock lineageId branchLeaseId operation db)
    (hreach : (svc.system envelope).Reachable db) :
    (∃ db' out, svc.serve clock operation db = (db', .ok out)) ↔
      db.BatchCreated lineageId branchLeaseId clock.nowNs := by
  obtain ⟨hredelivers, hclock, hsigns⟩ := h
  have hdb := sound_of_reachable hreach
  have hepoch := revocation_epoch_of_reachable hreach
  simp only [serve_ok_iff]
  cases hredelivers with
  | ingested stored payload_eq lineage_eq branch_eq valid scope verified envelope tenant epoch
      lineage owner =>
    exact ingestRevocation_again_iff (.ingested stored payload_eq lineage_eq branch_eq valid scope
      verified envelope tenant epoch lineage owner) hdb hclock hepoch hsigns
  | @retried req branch out id_eq found lineage_eq admissible remembered =>
    subst id_eq lineage_eq
    obtain ⟨row, hrow, hscope, hfingerprint, _⟩ := remembered _ _ _ rfl rfl
    have hagain := revokeBranch_again_iff admissible hclock hdb.conserved hdb.issued hrow hscope
      hfingerprint
    constructor
    · rintro ⟨db', out, hexec⟩
      obtain ⟨_, _, heffect⟩ := exec_ok hexec
      obtain ⟨_, _, rfl, _⟩ := heffect.answered rfl hrow
      exact (hagain.mp ⟨db', hexec⟩ branch found).1
    · intro htimes
      obtain ⟨db', hexec⟩ := hagain.mpr fun branch' hbranch' => by
        obtain rfl := some_unique found hbranch'
        exact ⟨htimes, hsigns⟩
      exact ⟨db', _, hexec⟩

/-- Every call repeats the delivery, at a reading that the rows it marks can take. -/
def RepeatedDelivery (svc : WardenService d Hash) (lineageId branchLeaseId : String) :
    Database d Hash → List (Reading × Operation d) → Prop
  | _, [] => True
  | db, (clock, operation) :: rest =>
    svc.Repeats clock lineageId branchLeaseId operation db ∧
      db.BatchCreated lineageId branchLeaseId clock.nowNs ∧
      RepeatedDelivery svc lineageId branchLeaseId (svc.serve clock operation db).1 rest

theorem play_marks (hreach : (svc.system envelope).Reachable db)
    {script : List (Reading × Operation d)}
    (hscript : svc.RepeatedDelivery lineageId branchLeaseId db script) :
    (∀ call ∈ (svc.play db script).2, ∃ out, call.reply = .ok out) ∧
      (svc.play db script).1.leases = db.leases.passes maintenanceRowBatch
        (revocable lineageId branchLeaseId) (script.map fun call _ => Lease.revoked call.1.nowNs) ∧
      (svc.play db script).1.vectors = db.vectors ∧
      (svc.play db script).1.revocations = db.revocations := by
  induction script generalizing db with
  | nil =>
    refine ⟨by simp [play], ?_, rfl, rfl⟩
    rw [List.map_nil, Table.passes]
    rfl
  | cons call rest ih =>
    obtain ⟨clock, operation⟩ := call
    obtain ⟨hrepeats, hcreated, hrest⟩ := hscript
    obtain ⟨db₁, out, hserve⟩ := (hrepeats.succeeds_iff hreach).mpr hcreated
    have hmarked := hrepeats.redelivers.batchMarked (revocation_epoch_of_reachable hreach)
      (serve_ok_iff.mp hserve)
    have hstep : (svc.system envelope).Step db ⟨clock, operation, .ok out⟩ db₁ := hserve
    rw [hserve] at hrest
    obtain ⟨hreplies, hleases, hvectors, hrevocations⟩ :=
      ih (hreach.run (.cons hstep (.nil _))) hrest
    have hfirst : db₁.vectors = db.vectors ∧ db₁.revocations = db.revocations := by
      rw [hmarked.kept]
      exact ⟨rfl, rfl⟩
    unfold play
    rw [hserve]
    refine ⟨List.forall_mem_cons.mpr ⟨⟨out, rfl⟩, hreplies⟩, ?_, hvectors.trans hfirst.1,
      hrevocations.trans hfirst.2⟩
    rw [List.map_cons, Table.passes, ← hmarked.leases]
    exact hleases

theorem Repeats.bounded (h : svc.Repeats clock lineageId branchLeaseId operation db)
    (hreach : (svc.system envelope).Reachable db) :
    ∃ marked : List String, marked.length ≤ 64 ∧ ∀ id ∉ marked,
      (svc.serve clock operation db).1.leases.lookup id = db.leases.lookup id := by
  cases hexec : svc.exec clock operation db with
  | error e => exact ⟨[], Nat.zero_le _, fun id _ => by rw [serve, hexec]⟩
  | ok result =>
    have hmarked := h.redelivers.batchMarked (revocation_epoch_of_reachable hreach) hexec
    refine ⟨db.leases.batch (fun leaseId _ => leaseId) (revocable lineageId branchLeaseId)
      maintenanceRowBatch, Table.length_batch_le, fun id hid => ?_⟩
    rw [serve, hexec]
    change result.1.leases.lookup id = _
    rw [hmarked.leases, Table.lookup_pass, if_neg hid]

theorem revoked_of_revocable {leaseId : String} {lease : Lease d}
    (h : revocable lineageId branchLeaseId leaseId lease = true) (nowNs : ℕ) :
    lease.revoked nowNs =
      { lease with status := .revoked, sequence := lease.sequence + 1, updatedAtNs := nowNs } := by
  unfold Lease.revoked
  rw [if_pos (of_decide_eq_true h).2.1]

/-- What repeated deliveries of a stored revocation do, where no row they mark was created later
than the reading, and what is taken in at all. -/
theorem revocation_materialized {envelope : Envelope d}
    (hreach : (svc.system envelope).Reachable db) :
    (∀ clock operation, svc.Repeats clock lineageId branchLeaseId operation db →
      ((∃ db' out, svc.serve clock operation db = (db', .ok out)) ↔
        db.BatchCreated lineageId branchLeaseId clock.nowNs) ∧
      ∃ marked : List String, marked.length ≤ 64 ∧ ∀ id ∉ marked,
        (svc.serve clock operation db).1.leases.lookup id = db.leases.lookup id) ∧
    (∀ script, svc.RepeatedDelivery lineageId branchLeaseId db script →
      let n := db.leases.pending (revocable lineageId branchLeaseId)
      let db' := (svc.play db script).1
      (∀ call ∈ (svc.play db script).2, ∃ out, call.reply = .ok out) ∧
      (∀ id lease, db.leases.lookup id = some lease → db'.leases.lookup id = some lease ∨
        revocable lineageId branchLeaseId id lease = true ∧ ∃ call ∈ script,
          db'.leases.lookup id = some { lease with
            status := .revoked
            sequence := lease.sequence + 1
            updatedAtNs := call.1.nowNs }) ∧
      (∀ id, db.leases.lookup id = none → db'.leases.lookup id = none) ∧
      db'.vectors = db.vectors ∧
      db'.leases.pending (revocable lineageId branchLeaseId) = n - 64 * script.length ∧
      (n ⌈/⌉ 64 ≤ script.length → ∀ id lease, db.leases.lookup id = some lease →
        revocable lineageId branchLeaseId id lease = true →
          ∃ lease', db'.leases.lookup id = some lease' ∧ lease'.status = .revoked) ∧
      (n = 0 → ∀ id, db'.leases.lookup id = db.leases.lookup id)) ∧
    (∀ call db', (svc.system envelope).Step db call db' → ∀ key row,
      db.revocations.lookup key = some row →
        ∃ row', db'.revocations.lookup key = some row' ∧ (row' = row ∨ row.epoch < row'.epoch)) ∧
    ∀ clock identity (revocation : BranchRevocation) (row : RevocationRow),
      db.revocations.lookup (revocation.lineageId, revocation.branchLeaseId) = some row →
        revocation.epoch < row.epoch ∨ revocation.epoch = row.epoch ∧ row.payload ≠ revocation →
          svc.Rejects clock (.ingestRevocation identity revocation) db := by
  refine ⟨fun clock operation h => ⟨h.succeeds_iff hreach, h.bounded hreach⟩, ?_,
    fun call db' step key row hrow => epoch_step step hrow, ?_⟩
  · intro script hscript n db'
    obtain ⟨hreplies, hleases, hvectors, _⟩ := play_marks hreach hscript
    have hsettles : ∀ f ∈ script.map fun call _ => Lease.revoked call.1.nowNs,
        Table.Settles (revocable (d := d) lineageId branchLeaseId) f := by
      intro f hf
      obtain ⟨call, _, rfl⟩ := List.mem_map.mp hf
      exact settles_revoked _ _ _
    have hrow : ∀ id lease, db.leases.lookup id = some lease →
        db'.leases.lookup id = some lease ∨
          revocable lineageId branchLeaseId id lease = true ∧ ∃ call ∈ script,
            db'.leases.lookup id = some (lease.revoked call.1.nowNs) := by
      intro id lease hlease
      rw [hleases]
      rcases Table.lookup_passes (n := maintenanceRowBatch) hsettles hlease with
        hsame | ⟨hp, f, hf, hmarked⟩
      · exact .inl hsame
      · obtain ⟨call, hcall, rfl⟩ := List.mem_map.mp hf
        exact .inr ⟨hp, call, hcall, hmarked⟩
    have hpending : db'.leases.pending (revocable lineageId branchLeaseId) =
        n - 64 * script.length := by
      rw [hleases, Table.pending_passes hsettles, List.length_map]
      rfl
    have hnone : ∀ id, db.leases.lookup id = none → db'.leases.lookup id = none := by
      intro id hlease
      rw [hleases]
      exact Table.lookup_passes_none hlease
    refine ⟨hreplies, fun id lease hlease => ?_, hnone, hvectors, hpending, ?_, ?_⟩
    · refine (hrow id lease hlease).imp_right fun ⟨hp, call, hcall, hmarked⟩ =>
        ⟨hp, call, hcall, ?_⟩
      rw [hmarked, revoked_of_revocable hp]
    · intro hcalls id lease hlease hp
      have hdone : n - 64 * script.length = 0 :=
        Nat.sub_eq_zero_iff_le.mpr ((ceilDiv_le_iff_le_mul (by decide)).mp hcalls)
      rcases hrow id lease hlease with hsame | ⟨_, call, _, hmarked⟩
      · have hnot := Table.pending_eq_zero_iff.mp (hpending.trans hdone) id lease hsame
        rw [hp] at hnot
        cases hnot
      · rw [revoked_of_revocable hp] at hmarked
        exact ⟨_, hmarked, rfl⟩
    · intro hzero id
      cases hlease : db.leases.lookup id with
      | none => exact hnone id hlease
      | some lease =>
        rcases hrow id lease hlease with hsame | ⟨hp, _⟩
        · exact hsame
        · have hnot := Table.pending_eq_zero_iff.mp hzero id lease hlease
          rw [hp] at hnot
          cases hnot
  · intro clock identity revocation row hrow hrefused
    refine rejects_of_not_ok fun db' out hexec => ?_
    have hnewer := ingestRevocation_newer hexec hrow
    rcases hrefused with hold | ⟨hequal, hother⟩
    · omega
    · rcases hnewer with hlt | ⟨_, hsame⟩
      · omega
      · exact hother hsame

end WardenService

namespace Sample

def redeliverWide : Operation 1 := .ingestRevocation operator wideRevocation

theorem widelyRevoked_pending : widelyRevoked.leases.pending (revocable "line" "0") = 1 := by
  obtain ⟨_, _, _, _, hbatch, _⟩ := widelyRevoked_facts
  have hlength := congrArg List.length hbatch
  rw [List.length_map, Database.nextBatch_eq, Table.length_batch] at hlength
  have hbound : maintenanceRowBatch = 64 := rfl
  simp only [List.length_singleton] at hlength
  omega

theorem redeliverWide_repeats {clock : Reading} (hclock : widelyRevoked.ClockSafe clock) :
    (service "a").Repeats clock "line" "0" redeliverWide widelyRevoked := by
  obtain ⟨_, _, hpayload, hlineage, _⟩ := widelyRevoked_facts
  obtain ⟨hwarden, henvelope⟩ := fixed_of_reachable widelyRevoked_reachable
  obtain ⟨row, hrow, hpayload⟩ := Option.map_eq_some_iff.mp hpayload
  have hconfigured : widelyRevoked.requireEnvelope wideRevocation.tenantId
      wideRevocation.envelopeId = .ok () := by
    rw [Database.requireEnvelope, henvelope]
    rfl
  have hepoch : wideRevocation.configEpoch = widelyRevoked.envelope.configEpoch := by
    rw [henvelope]
    rfl
  refine ⟨.ingested hrow hpayload rfl rfl rfl (.inr (by decide)) rfl hconfigured rfl hepoch
    (fun branch hbranch => ?_) (fun _ => hwarden), hclock, .inr rfl⟩
  obtain ⟨branch', hbranch', hlineage⟩ := Option.map_eq_some_iff.mp hlineage
  obtain rfl := some_unique hbranch' hbranch
  exact hlineage

theorem widelyRevoked_created {nowNs : ℕ} :
    widelyRevoked.BatchCreated "line" "0" nowNs ↔ 3 ≤ nowNs := by
  obtain ⟨_, _, _, _, hcreated, _⟩ := widelyRevoked_facts
  obtain ⟨id, hbatch, hid⟩ := List.map_eq_singleton_iff.mp hcreated
  obtain ⟨lease, hlease, hcreated⟩ := Option.map_eq_some_iff.mp hid
  constructor
  · intro h
    have htime := h id (by rw [hbatch]; exact List.mem_singleton_self id) lease hlease
    omega
  · intro hle id' hid' lease' hlease'
    rw [hbatch, List.mem_singleton] at hid'
    subst hid'
    obtain rfl := some_unique hlease hlease'
    omega

end Sample

open Sample

/-- A reading that has moved back within its uncertainty is safe, and the delivery is refused: the
row that is left was created later. -/
theorem redelivery_refused :
    ∃ db, ((service "a").system (envelope 70)).Reachable db ∧
      (db.revocations.lookup ("line", "0")).map RevocationRow.payload =
        some wideRevocation ∧
      db.leases.pending (revocable "line" "0") = 1 ∧
      (service "a").Repeats ⟨2, 1⟩ "line" "0" redeliverWide db ∧
      (service "a").Rejects ⟨2, 1⟩ redeliverWide db := by
  obtain ⟨_, _, hstored, _⟩ := widelyRevoked_facts
  have hrepeats : (service "a").Repeats ⟨2, 1⟩ "line" "0" redeliverWide
      widelyRevoked :=
    redeliverWide_repeats (widelyRevoked_clockSafe (by decide) (by decide) (by decide))
  refine ⟨_, widelyRevoked_reachable, hstored, widelyRevoked_pending, hrepeats,
    WardenService.rejects_of_not_ok fun db' out hexec => ?_⟩
  have hcreated := (hrepeats.succeeds_iff widelyRevoked_reachable).mp
    ⟨db', out, WardenService.serve_ok_iff.mpr hexec⟩
  exact absurd (widelyRevoked_created.mp hcreated) (by decide)

theorem revocation_materialized_wide :
    (((service "a").play widelyRevoked
      [(exactly 3, redeliverWide)]).1.leases.pending (revocable "line" "0")) = 0 := by
  have hrepeats : (service "a").Repeats (exactly 3) "line" "0" redeliverWide
      widelyRevoked :=
    redeliverWide_repeats (widelyRevoked_clockSafe (by decide) (by decide) (by decide))
  have hscript : (service "a").RepeatedDelivery "line" "0" widelyRevoked
      [(exactly 3, redeliverWide)] :=
    ⟨hrepeats, widelyRevoked_created.mpr (by decide), trivial⟩
  obtain ⟨_, _, _, _, hpending, _⟩ :=
    (WardenService.revocation_materialized widelyRevoked_reachable).2.1 _ hscript
  rw [hpending, widelyRevoked_pending]
  rfl

end Lets
