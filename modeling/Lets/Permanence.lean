import Lets.Accounting
import Lets.Auditing
import Lets.ReceiptHorizon

set_option autoImplicit false

/-!
# What a warden never takes back

Registered policies, receipts, remembered replies, revocations and audit events are permanent, and
a lease only ever goes on from where it stands.
-/

namespace Lets

open Library

variable {d : ℕ} {Hash : Type}

/-- What may become of a lease: it stays on its terms, its sequence does not fall, it does not come
back to life, and once it is closed or expired it remains so. -/
structure Lease.Continues (lease lease' : Lease d) : Prop where
  terms : lease'.terms = lease.terms
  sequence : lease.sequence ≤ lease'.sequence
  residual : ∀ i, lease'.residual i ≤ lease.residual i
  live : lease'.status.isLive = true → lease.status.isLive = true
  ended : lease.status = .closed ∨ lease.status = .expired → lease'.status = lease.status

theorem Lease.Continues.trans {lease₁ lease₂ lease₃ : Lease d} (h : lease₁.Continues lease₂)
    (h' : lease₂.Continues lease₃) : lease₁.Continues lease₃ where
  terms := h'.terms.trans h.terms
  sequence := h.sequence.trans h'.sequence
  residual := fun i => (h'.residual i).trans (h.residual i)
  live := fun hlive => h.live (h'.live hlive)
  ended := fun hended => (h'.ended (h.ended hended ▸ hended)).trans (h.ended hended)

structure Database.Continues (db db' : Database d Hash) : Prop where
  policies : Table.Evolves Eq db.policies db'.policies
  receipts : Table.Evolves Eq db.receipts db'.receipts
  requests : Table.Evolves Eq db.idempotency db'.idempotency
  revocations : ∀ key ∈ db.revocations, key ∈ db'.revocations
  auditLog : db.auditLog <+: db'.auditLog
  leases : Table.Evolves Lease.Continues db.leases db'.leases

theorem Database.Continues.refl (db : Database d Hash) : db.Continues db where
  policies := .of_eq (fun _ => rfl) rfl
  receipts := .of_eq (fun _ => rfl) rfl
  requests := .of_eq (fun _ => rfl) rfl
  revocations := fun _ hkey => hkey
  auditLog := List.prefix_refl _
  leases := .of_eq (fun _ => ⟨rfl, le_rfl, fun _ => le_rfl, id, fun _ => rfl⟩) rfl

theorem Database.Continues.trans {db₁ db₂ db₃ : Database d Hash} (h : db₁.Continues db₂)
    (h' : db₂.Continues db₃) : db₁.Continues db₃ where
  policies := h.policies.trans (fun _ _ _ => Eq.trans) h'.policies
  receipts := h.receipts.trans (fun _ _ _ => Eq.trans) h'.receipts
  requests := h.requests.trans (fun _ _ _ => Eq.trans) h'.requests
  revocations := fun key hkey => h'.revocations key (h.revocations key hkey)
  auditLog := h.auditLog.trans h'.auditLog
  leases := h.leases.trans (fun _ _ _ => Lease.Continues.trans) h'.leases

namespace WardenService

variable {svc : WardenService d Hash} {envelope : Envelope d} {clock : Reading}
  {operation : Operation d} {db db' : Database d Hash} {out : Response d} {calls : List (Call d)}

theorem Effect.residual_le (h : Effect svc clock db operation db' out) :
    Table.Evolves (fun lease lease' => ∀ i, lease'.residual i ≤ lease.residual i) db.leases
      db'.leases := by
  intro leaseId lease hlease
  by_cases hdebits : ∃ debtor amount, Debits svc clock db db' operation debtor amount
  · obtain ⟨debtor, amount, hdebits⟩ := hdebits
    obtain ⟨lease', hlease', _, _, hresidual⟩ := hdebits.holds hlease
    exact ⟨lease', hlease', fun i => (Nat.le_add_right _ _).trans (hresidual i).le⟩
  · obtain ⟨lease', hlease', _, hholds⟩ := h.holds hdebits hlease
    refine ⟨lease', hlease', fun i => ?_⟩
    cases hholds with
    | kept residual_eq => rw [residual_eq]
    | released residual_eq => rw [residual_eq i]; exact Nat.zero_le _

theorem Effect.continues (h : Effect svc clock db operation db' out) : db.Continues db' where
  policies := fun _ row hrow => ⟨row, h.policies_kept hrow, rfl⟩
  receipts := by
    rcases h.charges_cases with ⟨hcharges, _⟩ | ⟨newReceiptId, req, _, ⟨done⟩⟩
    · exact .of_eq (fun _ => rfl) (congrArg Prod.fst hcharges)
    · rw [done.receipts_eq]
      exact (Table.Evolves.of_eq (fun _ => rfl) rfl).insert done.receipt_new
  requests := by
    rcases h.idempotency_eq with hsame | ⟨_, requestId, _, _, _, hnew, hinsert⟩
    · exact .of_eq (fun _ => rfl) hsame
    · rw [hinsert]
      exact (Table.Evolves.of_eq (fun _ => rfl) rfl).insert (AList.lookup_eq_none.mp hnew)
  revocations := fun _ => h.revocations_kept
  auditLog := by
    obtain ⟨rows, hlogged⟩ := h.logged
    exact ⟨rows, hlogged.log_eq.symm⟩
  leases := by
    intro leaseId lease hlease
    obtain ⟨lease', hlease', hterms, hstep⟩ := h.row_terms hlease
    obtain ⟨lease₁, hlease₁, hsequence⟩ := h.sequence_kept _ _ hlease
    obtain ⟨lease₂, hlease₂, hresidual⟩ := h.residual_le _ _ hlease
    obtain rfl := some_unique hlease₁ hlease'
    obtain rfl := some_unique hlease₂ hlease'
    exact ⟨_, hlease', hterms, hsequence, hresidual, hstep.isLive_of_isLive hlease,
      hstep.status_of_over hlease⟩

/-- From any state on, whatever is called and in whatever order, a warden alters and deletes no
policy, receipt or remembered reply, drops no revocation and no audit event, and loses no lease: each
stays on its terms, its sequence does not fall and what it holds does not grow, one that has ceased to
be live is not live again, and one that is closed or expired remains so. -/
theorem store_continues (run : (svc.system envelope).Run db calls db') : db.Continues db' := by
  refine run.relates Database.Continues.refl (fun _ _ _ => .trans) fun db call db' step => ?_
  rcases effect_cases step with ⟨out, _, heffect⟩ | ⟨_, rfl⟩
  · exact heffect.continues
  · exact .refl _

theorem store_continues_reclaimed :
    ∃ db calls, db.leases.anyRow (fun _ lease => lease.status = .expired) = true ∧
      ((Sample.service "a").system (Sample.envelope 6)).Run Sample.authorized.1 calls db ∧
        Sample.authorized.1.Continues db := by
  have run := (Sample.service "a").play_run (Sample.envelope 6) Sample.authorized.1
    [(Sample.exactly 70, .reclaimExpired Sample.operator none none)]
  exact ⟨_, _, by decide +kernel, run, store_continues run⟩

end WardenService

end Lets
