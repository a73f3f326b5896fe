import Lets.Fencing
import Lets.ReceiptHorizon
import Lets.TaskStates

set_option autoImplicit false

/-!
# Tasks and leases agree

What a task record says of its lease holds on the warden, for every interleaving of calls, lost
replies and calls that stop half way: a completed task's lease is closed unless it was reclaimed
first, a canceled task lies beneath a revoked branch, so that nothing is authorized for it any more,
and the recorded horizon covers every receipt that was returned.
-/

namespace Lets

open Library

variable {d : ℕ} {Hash : Type}

namespace WardenService

variable {svc : WardenService d Hash} {envelope : Envelope d} {db db' : Database d Hash}

theorem receipts_of_fenced {calls : List (Call d)} {leaseId : String}
    (run : (svc.system envelope).Run db calls db')
    (hfenced : ∀ lease, db'.leases.lookup leaseId = some lease →
      ∃ branch ∈ lease.ancestorPath ++ [leaseId], (lease.lineageId, branch) ∈ db.revocations)
    {receiptId : String} {receipt : Receipt d}
    (hreceipt : db'.receipts.lookup receiptId = some receipt) (hleaseId : receipt.leaseId = leaseId) :
    db.receipts.lookup receiptId = some receipt := by
  induction run with
  | nil => exact hreceipt
  | @snoc db₁ db₂ calls call run step ih =>
    rcases effect_cases step with ⟨out, _, heffect⟩ | ⟨_, rfl⟩
    · -- the row has the path and the lineage that it has at the end
      have hfenced₁ : ∀ lease, db₁.leases.lookup leaseId = some lease →
          ∃ branch ∈ lease.ancestorPath ++ [leaseId],
            (lease.lineageId, branch) ∈ db.revocations := by
        intro lease hlease
        obtain ⟨lease', hlease', hterms, _⟩ := heffect.row_terms hlease
        have hkeeps := Lease.keeps hterms
        rw [← hkeeps.ancestorPath, ← hkeeps.lineageId]
        exact hfenced lease' hlease'
      refine ih hfenced₁ ?_
      rcases heffect.receipt_cases hreceipt with hold | ⟨req, done, rfl⟩
      · exact hold
      · rw [done.leaseId_eq] at hleaseId
        obtain ⟨branch, hmem, hstored⟩ := hfenced₁ done.lease (hleaseId ▸ done.lease_eq)
        have hrevoked : db₁.leaseRevoked req.leaseId done.lease = true :=
          Database.leaseRevoked_iff.mpr ⟨branch, hleaseId ▸ hmem,
            revocations_kept_of_run run hstored⟩
        exact absurd (done.notRevoked.symm.trans hrevoked) (by simp)
    · exact ih hfenced hreceipt

end WardenService

namespace TaskProfile

open TaskWorld

variable {svc : WardenService d Hash} {envelope : Envelope d} {P : TaskProfile d}
  {w w' : TaskWorld d Hash}

theorem path_of_beneath (hinv : Inv svc envelope P w) {key ancestor : TaskKey}
    (hchain : Relation.ReflTransGen w.Beneath key ancestor) {r₀ : TaskRecord d} {root : String}
    (hr₀ : w.ledger.lookup ancestor = some r₀) (hroot : r₀.leaseId = some root) :
    ∀ r leaseId, w.ledger.lookup key = some r → r.leaseId = some leaseId →
      ∃ lease rootLease, w.database.leases.lookup leaseId = some lease ∧
        w.database.leases.lookup root = some rootLease ∧
        root ∈ lease.ancestorPath ++ [leaseId] ∧ lease.lineageId = rootLease.lineageId := by
  have htree := WardenService.LeaseTree.of_reachable hinv.reachable
  -- from the ancestor down, one delegation at a time
  induction hchain using Relation.ReflTransGen.head_induction_on with
  | refl =>
    intro r leaseId hr hlease
    obtain rfl := some_unique hr₀ hr
    obtain rfl := some_unique hroot hlease
    obtain ⟨lease, hlookup, _⟩ := (hinv.records _ _ hr).leased _ hlease
    exact ⟨lease, lease, hlookup, hlookup, List.mem_concat_self, rfl⟩
  | @head key parentKey hbeneath _ ih =>
    intro r leaseId hr hlease
    obtain ⟨r', hr', hparent⟩ := hbeneath
    obtain rfl := some_unique hr hr'
    obtain ⟨parent, hlookup, hparentLease⟩ := (hinv.records _ _ hr).beneath _ hparent
    obtain ⟨parentRow, rootLease, hparentRow, hrootLease, hmem, hlineage⟩ :=
      ih parent _ hlookup hparentLease
    obtain ⟨lease, hrow, hparentId⟩ := (hinv.records _ _ hr).leased _ hlease
    obtain ⟨parentRow', hparentRow', hlineage', hpath⟩ := htree.parent _ _ _ hrow hparentId
    obtain rfl := some_unique hparentRow hparentRow'
    refine ⟨lease, rootLease, hrow, hrootLease, ?_, hlineage'.trans hlineage⟩
    rw [hpath]
    exact List.mem_append_left _ hmem

theorem receipts_of_task (hle : Le svc envelope w w') (hinv' : Inv svc envelope P w')
    {key task : TaskKey} (hfenced : w.Fenced task)
    (hchain : Relation.ReflTransGen w'.Beneath key task) {r : TaskRecord d} {leaseId : String}
    (hr : w'.ledger.lookup key = some r) (hlease : r.leaseId = some leaseId) {receiptId : String}
    {receipt : Receipt d} (hreceipt : w'.database.receipts.lookup receiptId = some receipt)
    (hleaseId : receipt.leaseId = leaseId) :
    w.database.receipts.lookup receiptId = some receipt := by
  obtain ⟨ancestor, r₀, root, htask, hr₀, hroot, rootLease, hrootLease, hstored⟩ := hfenced
  obtain ⟨r₁, hr₁, hgrows⟩ := hle.ledger _ _ hr₀
  have htask' := Relation.ReflTransGen.mono (fun _ _ => hle.beneath) _ _ htask
  obtain ⟨lease, rootLease', hrow, hrootLease', hmem, hlineage⟩ :=
    path_of_beneath hinv' (hchain.trans htask') hr₁ (hgrows.leaseId _ hroot) r leaseId hr hlease
  obtain ⟨calls, run⟩ := hle.database
  refine WardenService.receipts_of_fenced run (fun lease' hrow' => ?_) hreceipt hleaseId
  obtain rfl := some_unique hrow hrow'
  -- the lineage of the revoked lease has not changed
  have hsame : ∃ row, w'.database.leases.lookup root = some row ∧
      row.lineageId = rootLease.lineageId := by
    refine WardenService.kept_of_run (Q := fun db => ∃ row, db.leases.lookup root = some row ∧
      row.lineageId = rootLease.lineageId) (fun _ _ _ _ _ heffect h => ?_) run
      ⟨rootLease, hrootLease, rfl⟩
    obtain ⟨row, hrow, hlineage⟩ := h
    obtain ⟨row', hrow', hterms, _⟩ := heffect.row_terms hrow
    exact ⟨row', hrow', (Lease.keeps hterms).lineageId.trans hlineage⟩
  obtain ⟨row, hrow₁, hlineage₁⟩ := hsame
  obtain rfl := some_unique hrootLease' hrow₁
  exact ⟨root, hmem, (hlineage.trans hlineage₁) ▸ hstored⟩

/-! ### Leases that were reclaimed -/

/-- A call of `reclaim_expired`, which no call of the profile makes. -/
def Reclaims : TaskEvent d → Prop
  | .outside (_, .reclaimExpired _ _ _) => True
  | _ => False

theorem exchange_database {β : Type} (choice : CallChoice) (key : TaskKey) (checks : Outcome Unit)
    (operation : Operation d) (read : Response d → Outcome β) (w : TaskWorld d Hash) :
    (exchange svc choice key checks operation read w).2.database = w.database ∨
      (exchange svc choice key checks operation read w).2.database =
        (svc.serve choice.clock operation w.database).1 := by
  unfold exchange
  split
  · exact .inl rfl
  · exact .inl rfl
  · exact .inr rfl
  · exact .inr rfl

variable {db : Database d Hash} {p p' : TaskPool d Hash} {event : TaskEvent d} {leaseId : String}

theorem expired_of_serve {database : Database d Hash} {clock : Reading} {operation : Operation d}
    (h : (svc.serve clock operation database).1.Expired leaseId) :
    database.Expired leaseId ∨
      ∃ identity tenantId envelopeId, operation = .reclaimExpired identity tenantId envelopeId := by
  have step : (svc.system database.envelope).Step database
      ⟨clock, operation, (svc.serve clock operation database).2⟩
      (svc.serve clock operation database).1 := rfl
  rcases WardenService.effect_cases step with ⟨out, _, heffect⟩ | ⟨_, hsame⟩
  · exact heffect.expired_cases h
  · exact .inl (hsame ▸ h)

/-- The four LETS calls that a program makes are none of `reclaim_expired`. -/
theorem expired_of_answer {choice : CallChoice} {q : TaskQuery d}
    (h : ((P.host svc).answer choice q w).2.database.Expired leaseId) :
    w.database.Expired leaseId := by
  have hkept {database : Database d Hash} (heq : database = w.database)
      (hdatabase : database.Expired leaseId) : w.database.Expired leaseId := heq ▸ hdatabase
  have hserved {operation : Operation d} (hne : ∀ identity tenantId envelopeId,
        operation ≠ .reclaimExpired identity tenantId envelopeId)
      {database : Database d Hash} (heq : database = w.database ∨
        database = (svc.serve choice.clock operation w.database).1)
      (hdatabase : database.Expired leaseId) : w.database.Expired leaseId := by
    rcases heq with rfl | rfl
    · exact hdatabase
    · rcases expired_of_serve hdatabase with hold | ⟨_, _, _, hoperation⟩
      · exact hold
      · exact absurd hoperation (hne _ _ _)
  cases q with
  | get | childrenOf => exact h
  | replicate | authorizeEffect | close | revoke =>
    exact hserved (by simp) (exchange_database _ _ _ _ _ _) h
  | putIfAbsent record =>
    refine hkept ?_ h
    simp only [host, answer, putIfAbsent]
    split <;> rfl
  | update key mutation =>
    refine hkept ?_ h
    simp only [host, answer, TaskWorld.update]
    split
    · rfl
    · split <;> rfl

theorem expired_step (h : (P.host svc).next p event = some p')
    (hexpired : p'.shared.database.Expired leaseId) :
    p.shared.database.Expired leaseId ∨ Reclaims event := by
  cases event with
  | call request =>
    rw [Host.next_call h] at hexpired
    exact .inl hexpired
  | finish ticket =>
    obtain ⟨_, _, _, _, _, rfl⟩ := Host.next_finish h
    exact .inl hexpired
  | stop ticket =>
    obtain rfl := Option.some.inj h
    exact .inl hexpired
  | outside call =>
    obtain rfl := Option.some.inj h
    rcases expired_of_serve hexpired with hold | ⟨_, _, _, hoperation⟩
    · exact .inl hold
    · obtain ⟨clock, operation⟩ := call
      obtain rfl := hoperation
      exact .inr trivial
  | act ticket choice =>
    obtain ⟨request, q, k, _, rfl⟩ := Host.next_act h
    exact .inl (expired_of_answer hexpired)

theorem expired_of_run {l : List (TaskEvent d)} (run : (P.system svc db).Run p l p')
    (hexpired : p'.shared.database.Expired leaseId) :
    p.shared.database.Expired leaseId ∨ ∃ event ∈ l, Reclaims event := by
  induction run with
  | nil => exact .inl hexpired
  | @snoc t u l event run step ih =>
    rcases expired_step step hexpired with hold | hreclaims
    · rcases ih hold with hstart | ⟨earlier, hmem, hreclaims⟩
      · exact .inl hstart
      · exact .inr ⟨earlier, List.mem_append_left _ hmem, hreclaims⟩
    · exact .inr ⟨event, List.mem_concat_self, hreclaims⟩

/-- The lease of a completed task is closed, where no `reclaim_expired` from outside has come first; a
canceled task has its lease or an ancestor's revoked, and nothing is newly authorized beneath it; and
the recorded horizon covers every receipt that `authorize_effect` has returned. -/
theorem tasks_agree (svc : WardenService d Hash) (envelope : Envelope d) (P : TaskProfile d)
    (db : Database d Hash) (hdb : (svc.system envelope).Reachable db) (l : List (TaskEvent d))
    (p : TaskPool d Hash) (run : (P.system svc db).Run (Host.pool (start db)) l p) :
    (∀ key r, p.shared.ledger.lookup key = some r → r.state = .completed →
      ∃ leaseId lease, r.leaseId = some leaseId ∧
        p.shared.database.leases.lookup leaseId = some lease ∧
        (lease.status = .closed ∨ lease.status = .expired ∧
          (db.Expired leaseId ∨ ∃ event ∈ l, Reclaims event))) ∧
    (∀ key r, p.shared.ledger.lookup key = some r → r.state = .canceled → p.shared.Fenced key) ∧
    (∀ identity taskId reason answer,
      (TaskRequest.cancelTask identity taskId reason, Except.ok answer) ∈ p.returned →
      ∀ l p', (P.system svc db).Run p l p' →
      ∀ key r leaseId, Relation.ReflTransGen p'.shared.Beneath key (identity.taskKey taskId) →
        p'.shared.ledger.lookup key = some r → r.leaseId = some leaseId →
        ∀ receiptId receipt, p'.shared.database.receipts.lookup receiptId = some receipt →
          receipt.leaseId = leaseId →
          p.shared.database.receipts.lookup receiptId = some receipt) ∧
    ∀ identity taskId effectId transition verifiedExecutorId expectedState expectedSequence receipt,
      (TaskRequest.authorizeEffect identity taskId effectId transition verifiedExecutorId
        expectedState expectedSequence, Except.ok (TaskAnswer.receipt receipt)) ∈ p.returned →
      ∃ r, p.shared.ledger.lookup (identity.taskKey taskId) = some r ∧
        receipt.expiresAtNs ≤ r.receiptHorizonNs := by
  have hguarded := guarded hdb ⟨_, _, rfl, run⟩
  refine ⟨?_, fun key r hr => (hguarded.inv.records key r hr).fenced, ?_, ?_⟩
  · intro key r hr hstate
    obtain ⟨leaseId, hleaseId, lease, hlease, hover⟩ := (hguarded.inv.records key r hr).ended hstate
    refine ⟨leaseId, lease, hleaseId, hlease, hover.imp_right fun hexpired => ⟨hexpired, ?_⟩⟩
    exact expired_of_run run ⟨lease, hlease, hexpired⟩
  · intro identity taskId reason answer hreturned l p' run key r leaseId hchain hr hlease
      receiptId receipt hreceipt hleaseId
    obtain ⟨hguarded', hle⟩ := hguarded.run (fun request t _ => safe_program request t)
      (fun call _ hinv => outside_ok call hinv) run
    have hfenced : p.shared.Fenced (identity.taskKey taskId) :=
      hguarded.returned _ hreturned p.shared (Le.refl _) hguarded.inv
    exact receipts_of_task hle hguarded'.inv hfenced hchain hr hlease hreceipt hleaseId
  · intro identity taskId effectId transition verifiedExecutorId expectedState expectedSequence
      receipt hreturned
    exact hguarded.returned _ hreturned p.shared (Le.refl _) hguarded.inv

end TaskProfile

namespace Sample

/-- One task is admitted, has an effect authorized and is canceled; a second one is admitted and
completed. -/
def stopping : List (TaskEvent 1) :=
  admitting ++ [.call (.authorizeEffect operator "task" "effect" "run" "host" none none),
    step 1 4 "", step 1 4 "", step 1 4 "", step 1 4 "receipt", step 1 4 "", .finish 1,
    .call (.cancelTask operator "task" "stop"), step 2 5 "", step 2 5 "", step 2 5 "", step 2 5 "",
    step 2 5 "", .finish 2,
    .call (.admitCall operator { admission with taskId := "second" } "root"), step 3 5 "",
    step 3 5 "lease2", step 3 5 "", .finish 3,
    .call (.completeTask operator "second"), step 4 6 "", step 4 6 "", step 4 6 "", step 4 6 ""]

def stopped : TaskPool 1 ℕ := tasks stopping

theorem stopping_reclaims : ∀ event ∈ stopping, ¬TaskProfile.Reclaims event := by
  simp [stopping, admitting, step, TaskProfile.Reclaims]

theorem taskStore_not_expired (leaseId : String) : ¬taskStore.Expired leaseId := by
  rintro ⟨lease, hlease, hexpired⟩
  have hnone : taskStore.leases.anyRow (fun _ lease => lease.status = .expired) = false := by
    decide +kernel
  exact of_decide_eq_false (Table.anyRow_eq_false_iff.mp hnone leaseId lease hlease) hexpired

end Sample

open Sample

theorem tasks_agree_stopped :
    (stopped.shared.ledger.lookup taskKey).map
        (fun r => (r.state, r.receiptHorizonNs)) = some (.canceled, 8) ∧
      stopped.shared.Fenced taskKey ∧
      (stopped.shared.ledger.lookup { taskKey with taskId := "second" }).map
        (fun r => r.state) = some .completed ∧
      ∃ lease, stopped.shared.database.leases.lookup "lease2" = some lease ∧
        lease.status = .closed := by
  have hrecords : (stopped.shared.ledger.lookup taskKey).map
        (fun r => (r.state, r.receiptHorizonNs)) = some (.canceled, 8) ∧
      (stopped.shared.ledger.lookup { taskKey with taskId := "second" }).map
        (fun r => (r.state, r.leaseId)) = some (.completed, some "lease2") := by decide +kernel
  obtain ⟨hcanceled, hcompleted⟩ := hrecords
  obtain ⟨r, hr, hrecord⟩ := Option.map_eq_some_iff.mp hcanceled
  obtain ⟨r', hr', hrecord'⟩ := Option.map_eq_some_iff.mp hcompleted
  obtain ⟨hstate, hleaseId⟩ := Prod.mk.inj hrecord'
  obtain ⟨l, hsub, run⟩ := Host.play_run (profile.host (service "a"))
    (TaskProfile.start taskStore) stopping (Host.pool (TaskProfile.start taskStore))
  have hagree := TaskProfile.tasks_agree (service "a") (envelope 6) profile
    taskStore taskStore_reachable l stopped run
  refine ⟨hcanceled, hagree.2.1 _ r hr (Prod.mk.inj hrecord).1, by rw [hr', ← hstate]; rfl, ?_⟩
  obtain ⟨leaseId, lease, hleaseId', hlease, hclosed | ⟨_, hexpired | ⟨event, hmem, hreclaims⟩⟩⟩ :=
    hagree.1 _ r' hr' hstate
  · obtain rfl := some_unique hleaseId hleaseId'
    exact ⟨lease, hlease, hclosed⟩
  · exact absurd hexpired (taskStore_not_expired leaseId)
  · exact absurd hreclaims (stopping_reclaims event (hsub hmem))

end Lets
