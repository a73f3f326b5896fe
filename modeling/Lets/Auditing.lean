import Lets.Library.Anchor
import Lets.PeerReplay

set_option autoImplicit false

/-!
# What an operation leaves in the audit log

Every operation extends the hash-chained audit log; one that extends it by nothing has left
unchanged all that the digest of an authority checkpoint covers.
-/

namespace Lets

open Library

variable {d : ℕ} {Hash : Type}

namespace Database

def authorityState (db : Database d Hash) : (ResourceVector d × ResourceVector d ×
    ResourceVector d × ResourceVector d × ResourceVector d) × ℕ × RuntimeStatus :=
  ((db.freePool, db.leaseResidual, db.consumed, db.transferredIn, db.transferredOut),
    db.revision, db.runtime)

theorem floorKept_advanced (db : Database d Hash) (nowNs : ℕ) :
    FloorKept db.clockFloorNs (some (db.advancedFloor nowNs)) := by
  intro floor hfloor
  refine ⟨_, rfl, ?_⟩
  rw [advancedFloor, Option.mem_def.mp hfloor]
  exact le_max_left _ _

end Database

namespace WardenService

/-- The log has grown by these rows; without any, the authority state is the old one. -/
structure Logged (svc : WardenService d Hash) (rows : List (AuditRow d Hash))
    (db db' : Database d Hash) : Prop where
  log_eq : db'.auditLog = db.auditLog ++ rows
  chained : svc.AuditExtends db.auditLog (db.auditLog ++ rows)
  state_eq : rows = [] → db'.authorityState = db.authorityState
  revision_le : db.revision ≤ db'.revision

variable {svc : WardenService d Hash} {clock : Reading} {operation : Operation d}
  {db db' : Database d Hash} {out : Response d}

theorem Effect.logged (h : Effect svc clock db operation db' out) :
    ∃ rows, svc.Logged rows db db' := by
  cases h with
  | replayed _ _ _ _ result | attempted _ result | prunedTerminal _ result
  | prunedHistory _ _ result =>
    rw [result]
    exact ⟨[], (List.append_nil _).symm, .append_nil _, fun _ => rfl, le_rfl⟩
  | runtimeSet _ _ result unaudited chained =>
    rw [result]
    refine ⟨_, rfl, chained, fun hrows => ?_, le_rfl⟩
    rw [unaudited hrows]
    rfl
  | policyRegistered _ _ result chained =>
    rw [result]
    exact ⟨_, rfl, chained, fun _ => rfl, le_rfl⟩
  | unmoved done =>
    rw [done.result]
    exact ⟨[], (List.append_nil _).symm, .append_nil _, fun _ => rfl, le_rfl⟩
  | rootIssued done | remoteSpawned done | authorized done | prepared done =>
    rw [done.result]
    exact ⟨_, rfl, done.chained, (by simp), Nat.le_add_right _ _⟩
  | spawned done | renewed done | switched done =>
    rw [done.result]
    exact ⟨_, rfl, done.chained, (by simp), le_rfl⟩
  | closed done =>
    rw [done.result]
    refine ⟨done.auditRows ++ [done.auditRow], List.append_assoc _ _ _, ?_, fun hrows => ?_,
      done.revision_le⟩
    · rw [← List.append_assoc]
      exact done.chained
    · simp at hrows
  | credited _ done =>
    rw [done.result]
    refine ⟨done.auditRows ++ [done.auditRow], List.append_assoc _ _ _, ?_, fun hrows => ?_,
      Nat.le_add_right _ _⟩
    · rw [← List.append_assoc]
      exact done.chained
    · simp at hrows
  | redelivered _ done | finalized _ done | checkpointCreated _ done | checkpointIngested _ done =>
    rw [done.result]
    exact ⟨_, rfl, done.chained, fun _ => rfl, le_rfl⟩
  | reclaimed _ done =>
    rw [done.result]
    refine ⟨_, rfl, done.chained, fun hrows => ?_, done.revision_le⟩
    obtain ⟨htotal, hfree, hrevision⟩ := done.unaudited hrows
    rw [htotal, hfree, hrevision]
    rfl
  | revokedAgain _ _ _ _ done | revocationKnown _ _ _ done =>
    rw [done.result, done.materialized.result]
    exact ⟨_, rfl, done.chained, fun _ => rfl, le_rfl⟩
  | branchRevoked _ _ _ done result =>
    rw [result, done.result, done.materialized.result]
    exact ⟨_, rfl, done.chained, (by simp), le_rfl⟩
  | revocationStored _ _ done =>
    rw [done.result, done.materialized.result]
    exact ⟨_, rfl, done.chained, (by simp), le_rfl⟩

theorem Effect.clockFloor_kept (h : Effect svc clock db operation db' out) :
    FloorKept db.clockFloorNs db'.clockFloorNs := by
  rw [h.floor_eq]
  split_ifs
  · exact db.floorKept_advanced clock.nowNs
  · exact .refl _

end WardenService

namespace WardenNode

/-- What every operation does to a store: the log grows, the authority state changes only with it,
and nothing moves back. -/
structure Audited (node : WardenNode d Hash) (store store' : WardenStore d Hash) : Prop where
  fixed_eq : store'.database.fixed = store.database.fixed
  file_eq : (store'.schemaVersion, store'.signingPublicKeySha256, store'.databaseInstanceId) =
    (store.schemaVersion, store.signingPublicKeySha256, store.databaseInstanceId)
  logged : node.service.AuditExtends store.database.auditLog store'.database.auditLog
  state_eq : store'.database.auditLog = store.database.auditLog →
    store'.statePayload = store.statePayload
  revision_le : store.database.revision ≤ store'.database.revision
  floor_kept : FloorKept store.database.clockFloorNs store'.database.clockFloorNs

variable {node : WardenNode d Hash} {clock : Reading} {store store' store'' : WardenStore d Hash}

theorem Audited.refl (store : WardenStore d Hash) : node.Audited store store :=
  ⟨rfl, rfl, .refl _, fun _ => rfl, le_rfl, .refl _⟩

theorem Audited.trans (h : node.Audited store store') (h' : node.Audited store' store'') :
    node.Audited store store'' where
  fixed_eq := h'.fixed_eq.trans h.fixed_eq
  file_eq := h'.file_eq.trans h.file_eq
  logged := h.logged.trans h'.logged
  state_eq hlog := by
    -- a log that comes back to where it was has never moved
    have hmid : store'.database.auditLog = store.database.auditLog :=
      List.Sublist.antisymm (hlog ▸ h'.logged.1.sublist) h.logged.1.sublist
    exact (h'.state_eq (hlog.trans hmid.symm)).trans (h.state_eq hmid)
  revision_le := h.revision_le.trans h'.revision_le
  floor_kept := h.floor_kept.trans h'.floor_kept

theorem statePayload_eq_of {db' : Database d Hash}
    (h : db'.authorityState = store.database.authorityState) :
    ({ store with database := db' } : WardenStore d Hash).statePayload = store.statePayload := by
  simp only [Database.authorityState, Prod.mk.injEq] at h
  obtain ⟨⟨h₁, h₂, h₃, h₄, h₅⟩, h₆, h₇⟩ := h
  simp only [WardenStore.statePayload, h₁, h₂, h₃, h₄, h₅, h₆, h₇]

theorem audited_of_effect {operation : Operation d} {db' : Database d Hash} {out : Response d}
    (h : WardenService.Effect node.service clock store.database operation db' out) :
    node.Audited store { store with database := db' } := by
  obtain ⟨rows, hrows⟩ := h.logged
  have hlog := hrows.log_eq
  refine ⟨h.fixed_eq, rfl, ?_, fun hsame => ?_, hrows.revision_le, h.clockFloor_kept⟩
  · change node.service.AuditExtends _ db'.auditLog
    rw [hlog]
    exact hrows.chained
  · refine statePayload_eq_of (hrows.state_eq ?_)
    exact List.append_right_eq_self.mp (hlog.symm.trans hsame)

/-- A peer operation either leaves the store alone or writes the authority row and one event. -/
structure PeerWritten (node : WardenNode d Hash) (clock : Reading)
    (store store' : WardenStore d Hash) : Prop where
  clockSafe : store.database.ClockSafe clock
  written : ∃ auditRow, node.service.AuditExtends store.database.auditLog
      (store.database.auditLog ++ [auditRow]) ∧
    store'.database = { store.database.touch clock.nowNs with
      auditLog := store.database.auditLog ++ [auditRow] }
  file_eq : (store'.schemaVersion, store'.signingPublicKeySha256, store'.databaseInstanceId) =
    (store.schemaVersion, store.signingPublicKeySha256, store.databaseInstanceId)

theorem PeerWritten.audited (h : PeerWritten node clock store store') :
    node.Audited store store' := by
  obtain ⟨auditRow, hchained, hdb⟩ := h.written
  refine ⟨by rw [hdb]; rfl, h.file_eq, by rw [hdb]; exact hchained, fun hsame => ?_,
    by rw [hdb]; exact le_rfl, ?_⟩
  · rw [hdb] at hsame
    have hnone : [auditRow] = [] := List.append_right_eq_self.mp hsame
    cases hnone
  · rw [hdb]
    exact store.database.floorKept_advanced clock.nowNs

theorem claimPeerRequest_ok {req : PeerRequest} {claimed : Bool}
    (h : node.claimPeerRequest clock req store = .ok (store', claimed)) :
    (store' = store ∨ PeerWritten node clock store store') ∧ store'.database.Conserved := by
  simp only [claimPeerRequest, peerReplaySeconds, bind_ok_iff, require_ok_iff,
    exists_unit_iff] at h
  obtain ⟨_, _, _, _, _, _, _, _, _, h⟩ := h
  split_ifs at h with hseen
  · simp only [bind_ok_iff, exists_unit_iff, pure_ok_iff, Prod.mk.injEq] at h
    obtain ⟨hcons, rfl, _⟩ := h
    exact ⟨.inl rfl, Database.assertLocalConservation_ok_iff.mp hcons⟩
  · simp only [bind_ok_iff, exists_unit_iff, pure_ok_iff, Prod.mk.injEq,
      Database.clockIsSafe_ok_iff] at h
    obtain ⟨_, ⟨hclock, rfl⟩, db, haudit, hcons, rfl, rfl⟩ := h
    obtain ⟨auditRow, hchained, rfl⟩ := WardenService.appendAudit_ok haudit
    exact ⟨.inr ⟨hclock, ⟨auditRow, hchained, rfl⟩, rfl⟩,
      Database.assertLocalConservation_ok_iff.mp hcons⟩

variable [DecidableEq Hash]

theorem importLegacyPeerReplay_ok {req : LegacyImportRequest Hash} {imported : Bool}
    (h : node.importLegacyPeerReplay clock req store = .ok (store', imported)) :
    (store' = store ∨ PeerWritten node clock store store') ∧ store'.database.Conserved := by
  simp only [importLegacyPeerReplay, peerReplaySeconds, bind_ok_iff, require_ok_iff,
    exists_unit_iff] at h
  obtain ⟨_, _, _, _, _, h⟩ := h
  split at h
  · simp only [bind_ok_iff, require_ok_iff, exists_unit_iff, pure_ok_iff, Prod.mk.injEq] at h
    obtain ⟨_, hcons, rfl, _⟩ := h
    exact ⟨.inl rfl, Database.assertLocalConservation_ok_iff.mp hcons⟩
  · simp only [bind_ok_iff, require_ok_iff, exists_unit_iff, pure_ok_iff, Prod.mk.injEq,
      Database.clockIsSafe_ok_iff] at h
    obtain ⟨_, _, _, ⟨hclock, rfl⟩, _, db, haudit, hcons, rfl, rfl⟩ := h
    obtain ⟨auditRow, hchained, rfl⟩ := WardenService.appendAudit_ok haudit
    exact ⟨.inr ⟨hclock, ⟨auditRow, hchained, rfl⟩, rfl⟩,
      Database.assertLocalConservation_ok_iff.mp hcons⟩

theorem exec_audited {operation : StoreOperation d Hash} {out : StoreResponse d}
    (h : node.exec clock operation store = .ok (store', out)) :
    node.Audited store store' ∧ store'.database.Conserved := by
  cases operation with
  | service operation =>
    simp only [exec, bind_ok_iff, pure_ok_iff, Prod.mk.injEq] at h
    obtain ⟨⟨db', out'⟩, hexec, rfl, rfl⟩ := h
    obtain ⟨_, hcons, heffect⟩ := WardenService.exec_ok hexec
    exact ⟨audited_of_effect heffect, hcons⟩
  | claimPeerRequest req =>
    simp only [exec, bind_ok_iff, pure_ok_iff, Prod.mk.injEq] at h
    obtain ⟨⟨_, claimed⟩, hclaim, rfl, rfl⟩ := h
    obtain ⟨rfl | hwritten, hcons⟩ := claimPeerRequest_ok hclaim
    · exact ⟨.refl _, hcons⟩
    · exact ⟨hwritten.audited, hcons⟩
  | importLegacyPeerReplay req =>
    simp only [exec, bind_ok_iff, pure_ok_iff, Prod.mk.injEq] at h
    obtain ⟨⟨_, imported⟩, himport, rfl, rfl⟩ := h
    obtain ⟨rfl | hwritten, hcons⟩ := importLegacyPeerReplay_ok himport
    · exact ⟨.refl _, hcons⟩
    · exact ⟨hwritten.audited, hcons⟩

end WardenNode

end Lets
