import Lets.Authority

set_option autoImplicit false

/-!
# A database that is not forked is never refused

One unaudited change would make every later reconciliation fail.
-/

namespace Lets

open Library

variable {d : ℕ} {Hash : Type}

namespace WardenService

variable {svc : WardenService d Hash} {log log' : List (AuditRow d Hash)}

theorem tipOf_sequence (h : svc.auditChain.Valid log) :
    (svc.auditChain.tipOf log).1 = (log.length : ℤ) - 1 := by
  induction h with
  | nil => rfl
  | @snoc l row _ hfollows ih =>
    rw [HashChain.tipOf_concat, List.length_append, List.length_singleton]
    have hsequence : (row.body.sequence : ℤ) = (svc.auditChain.tipOf l).1 + 1 := hfollows.1
    change (row.body.sequence : ℤ) = _
    rw [hsequence, ih]
    push_cast
    omega

theorem sequence_eq_length {row : AuditRow d Hash} {before after : List (AuditRow d Hash)}
    (h : svc.auditChain.Valid (before ++ row :: after)) : row.body.sequence = before.length := by
  have hsplit : before ++ row :: after = before ++ [row] ++ after := by simp
  rw [hsplit] at h
  have htip := tipOf_sequence h.of_append
  rw [HashChain.tipOf_concat, List.length_append, List.length_singleton] at htip
  have hsequence : (row.body.sequence : ℤ) = ((before.length + 1 : ℕ) : ℤ) - 1 := htip
  push_cast at hsequence
  omega

end WardenService

namespace WardenNode

variable {node : WardenNode d Hash} {store store' : WardenStore d Hash}

theorem auditHashAt_of_prefix (hstore' : node.ChainedStore store')
    (hle : store.database.auditLog <+: store'.database.auditLog)
    (hne : store.database.auditLog ≠ []) :
    store'.auditHashAt (store.auditHead node.service.zeroHash).1 =
      some (store.auditHead node.service.zeroHash).2 := by
  obtain ⟨before, row, hlog⟩ := (List.eq_nil_or_concat' store.database.auditLog).resolve_left hne
  obtain ⟨after, hlog'⟩ := hle
  have hhead : store.auditHead node.service.zeroHash =
      ((row.body.sequence : ℤ), row.eventHash) := by
    rw [auditHead_eq, hlog, HashChain.tipOf_concat]
    rfl
  have hvalid : node.service.auditChain.Valid (before ++ [row]) := by
    rw [ChainedStore, ← hlog', hlog] at hstore'
    exact hstore'.of_append
  -- every event before it has a smaller sequence
  have hbefore : before.find? (fun r => (r.body.sequence : ℤ) = row.body.sequence) = none := by
    rw [List.find?_eq_none]
    intro r hr hsame
    obtain ⟨front, back, rfl⟩ := List.append_of_mem hr
    have hrow := WardenService.sequence_eq_length hvalid
    rw [List.append_assoc, List.cons_append] at hvalid
    have hr' := WardenService.sequence_eq_length hvalid
    rw [decide_eq_true_eq] at hsame
    rw [List.length_append, List.length_cons] at hrow
    omega
  rw [WardenStore.auditHashAt, ← hlog', hlog, hhead, List.append_assoc, List.find?_append, hbefore,
    Option.none_or, List.singleton_append, List.find?_cons_of_pos (by simp)]
  rfl

theorem stableIdentity_eq (h : node.Audited store store') :
    (node.authorityCheckpoint store).stableIdentity =
        (node.authorityCheckpoint store').stableIdentity ∧
      store'.schemaVersion = store.schemaVersion := by
  have hfixed := h.fixed_eq
  have hfile := h.file_eq
  simp only [Database.fixed, Prod.mk.injEq] at hfixed hfile
  obtain ⟨hwarden, hkey, henvelope⟩ := hfixed
  obtain ⟨hschema, hpublic, hinstance⟩ := hfile
  refine ⟨?_, hschema⟩
  simp only [AuthorityCheckpoint.stableIdentity, authorityCheckpoint, hwarden, hkey, henvelope,
    hpublic, hinstance]

theorem checkpoint_eq_of_sameLog (h : node.Audited store store')
    (hlog : store'.database.auditLog = store.database.auditLog)
    (hfloor : store'.database.clockFloorNs = store.database.clockFloorNs) :
    node.authorityCheckpoint store' = node.authorityCheckpoint store := by
  have hpayload := h.state_eq hlog
  have hrevision : store'.database.revision = store.database.revision :=
    congrArg StatePayload.revision hpayload
  have hfixed := h.fixed_eq
  have hfile := h.file_eq
  simp only [Database.fixed, Prod.mk.injEq] at hfixed hfile
  obtain ⟨hwarden, hkey, henvelope⟩ := hfixed
  obtain ⟨hschema, hpublic, hinstance⟩ := hfile
  simp only [authorityCheckpoint, WardenStore.auditHead, hlog, hfloor, hpayload, hrevision, hwarden,
    hkey, henvelope, hschema, hpublic, hinstance]

theorem auditSequence_eq (hstore : node.ChainedStore store) :
    (node.authorityCheckpoint store).auditSequence =
      (store.database.auditLog.length : ℤ) - 1 :=
  (congrArg Prod.fst auditHead_eq).trans (WardenService.tipOf_sequence hstore)

variable [DecidableEq Hash]

theorem reconcile_of_audited (hstore : node.ChainedStore store) (h : node.Audited store store') :
    node.reconcile false (node.authorityCheckpoint store) store' =
      .ok (node.authorityCheckpoint store') := by
  have hstore' : node.ChainedStore store' := h.logged.2 hstore
  have hsequence := auditSequence_eq hstore
  have hsequence' := auditSequence_eq hstore'
  have hlength := h.logged.1.length_le
  obtain ⟨hidentity, hschema⟩ := stableIdentity_eq h
  simp only [reconcile, AuthorityCheckpoint.requiresAdvance, bind_ok_iff, require_ok_iff,
    exists_unit_iff, pure_ok_iff]
  by_cases hsame : store'.database.auditLog = store.database.auditLog
  · have hpayload := h.state_eq hsame
    have hhead : (node.authorityCheckpoint store').head = (node.authorityCheckpoint store).head := by
      rw [head_authorityCheckpoint, head_authorityCheckpoint, hsame]
    refine ⟨decide (store'.database.clockFloorNs ≠ store.database.clockFloorNs),
      ⟨hidentity, hschema.ge, fun hne => absurd hschema hne, by rw [hsequence, hsequence', hsame],
        ?_⟩, ?_⟩
    · rw [if_pos (by rw [hsequence, hsequence', hsame])]
      simp only [bind_ok_iff, require_ok_iff, exists_unit_iff, pure_ok_iff]
      refine ⟨congrArg Prod.snd hhead,
        ⟨congrArg StatePayload.revision hpayload, congrArg node.stateDigest hpayload⟩,
        h.floor_kept, ?_⟩
      have hversion : ¬(node.authorityCheckpoint store').schemaVersion ≠
        (node.authorityCheckpoint store).schemaVersion := fun hne => hne hschema
      simp only [hversion, false_or]
      rfl
    · by_cases hfloor : store'.database.clockFloorNs = store.database.clockFloorNs
      · rw [if_neg (by simpa using hfloor), checkpoint_eq_of_sameLog h hsame hfloor]
      · rw [if_pos (by simpa using hfloor)]
  · have hlonger : store.database.auditLog.length < store'.database.auditLog.length :=
      lt_of_le_of_ne hlength fun heq => hsame (h.logged.1.eq_of_length heq).symm
    refine ⟨true, ⟨hidentity, hschema.ge, fun hne => absurd hschema hne, by omega, ?_⟩, rfl⟩
    rw [if_neg (by omega)]
    simp only [bind_ok_iff, require_ok_iff, exists_unit_iff, pure_ok_iff]
    refine ⟨?_, h.revision_le, h.floor_kept, trivial⟩
    split_ifs with hempty
    · have hnil : store.database.auditLog = [] := List.length_eq_zero_iff.mp (by omega)
      have hhash : (store.auditHead node.service.zeroHash).2 = node.service.zeroHash := by
        rw [auditHead_eq, hnil]
        rfl
      exact congrArg some hhash.symm
    · refine auditHashAt_of_prefix hstore' h.logged.1 fun hnil => hempty ?_
      rw [hsequence, hnil]
      rfl

def system (node : WardenNode d Hash) (envelope : Envelope d)
    (signingPublicKeySha256 databaseInstanceId : Hash) :
    System (WardenStore d Hash) (Reading × StoreOperation d Hash) where
  Init store := store = .genesis node.service.wardenId node.service.keyId envelope
    signingPublicKeySha256 databaseInstanceId node.service.zeroHash
  Step store call store' := (∃ out, node.exec call.1 call.2 store = .ok (store', out)) ∨
    (∃ error, node.exec call.1 call.2 store = .error error) ∧ store' = store

variable {envelope : Envelope d} {publicKey instanceId : Hash}

theorem audited_of_run {calls : List (Reading × StoreOperation d Hash)}
    (run : (node.system envelope publicKey instanceId).Run store calls store') :
    node.Audited store store' := by
  refine run.relates .refl (fun _ _ _ h h' => h.trans h') ?_
  rintro store call store' (⟨out, hexec⟩ | ⟨_, rfl⟩)
  · exact (exec_audited hexec).1
  · exact .refl _

theorem chained_of_reachable (h : (node.system envelope publicKey instanceId).Reachable store) :
    node.ChainedStore store := by
  obtain ⟨s₀, calls, hinit, run⟩ := h
  refine (audited_of_run run).logged.2 ?_
  rw [show s₀ = _ from hinit]
  exact .nil

end WardenNode

section Unforked

open WardenNode

variable [DecidableEq Hash]

/-- An operation that changes the authority state extends the audit log, and none moves the state
revision or the clock floor back; so a database that is not forked passes the check against every
earlier checkpoint of its own, before a transaction and after it. -/
theorem unforked_store_reconciles (node : WardenNode d Hash) (envelope : Envelope d)
    (publicKey instanceId : Hash) :
    (∀ clock operation store store' out, node.exec clock operation store = .ok (store', out) →
      store.database.auditLog <+: store'.database.auditLog ∧
      (store'.statePayload ≠ store.statePayload →
        store.database.auditLog.length < store'.database.auditLog.length) ∧
      store.database.revision ≤ store'.database.revision ∧
      FloorKept store.database.clockFloorNs store'.database.clockFloorNs) ∧
    ∀ earlier calls store, (node.system envelope publicKey instanceId).Reachable earlier →
      (node.system envelope publicKey instanceId).Run earlier calls store →
      node.reconcile false (node.authorityCheckpoint earlier) store =
          .ok (node.authorityCheckpoint store) ∧
        ∀ clock operation store' out, node.exec clock operation store = .ok (store', out) →
          ∀ anchor ∈ [node.authorityCheckpoint earlier, node.authorityCheckpoint store],
            node.reconcile false anchor store' = .ok (node.authorityCheckpoint store') := by
  constructor
  · intro clock operation store store' out hexec
    have haudited := (exec_audited hexec).1
    refine ⟨haudited.logged.1, fun hchanged => ?_, haudited.revision_le, haudited.floor_kept⟩
    refine lt_of_le_of_ne haudited.logged.1.length_le fun hlength => hchanged ?_
    exact haudited.state_eq (haudited.logged.1.eq_of_length hlength).symm
  · intro earlier calls store hreachable run
    have hearlier := chained_of_reachable hreachable
    have haudited := audited_of_run run
    refine ⟨reconcile_of_audited hearlier haudited, fun clock operation store' out hexec => ?_⟩
    have hstep := (exec_audited hexec).1
    intro anchor hanchor
    rcases List.mem_pair.mp hanchor with rfl | rfl
    · exact reconcile_of_audited hearlier (haudited.trans hstep)
    · exact reconcile_of_audited (chained_of_reachable (hreachable.run run)) hstep

end Unforked

namespace Sample

def drained : WardenStore 1 AuditDigest :=
  (setMode "q1" "drain" 2 wardenStore).toOption.getD wardenStore

end Sample

open Sample

theorem unforked_store_reconciles_drained :
    drained.statePayload ≠ wardenStore.statePayload ∧
      wardenStore.database.auditLog.length < drained.database.auditLog.length ∧
      node.reconcile false (node.authorityCheckpoint wardenStore)
        drained = .ok (node.authorityCheckpoint drained) := by
  have hinit : (node.system (envelope 10) .zero .zero).Init wardenStore := rfl
  have hexec : ∃ out, node.exec (exactly 2)
      (.service (.setRuntimeMode ⟨"q1", operator, .draining, "drain"⟩)) wardenStore =
        .ok (drained, out) := ⟨_, rfl⟩
  obtain ⟨out, hexec⟩ := hexec
  have hchanged : drained.statePayload ≠ wardenStore.statePayload := by
    decide +kernel
  obtain ⟨haudited, hreconciles⟩ :=
    unforked_store_reconciles node (envelope 10) .zero .zero
  have hrun : (node.system (envelope 10) .zero .zero).Run wardenStore
      ([] ++ [(exactly 2,
        .service (.setRuntimeMode ⟨"q1", operator, .draining, "drain"⟩))])
      drained := .snoc (.nil _) (.inl ⟨out, hexec⟩)
  exact ⟨hchanged, (haudited _ _ _ _ _ hexec).2.1 hchanged,
    (hreconciles _ _ _ (.of_init hinit) hrun).1⟩

end Lets
