import Lets.RemoteChildren
import Lets.LeaseTree
import Lets.Ledger

set_option autoImplicit false

/-!
# What becomes of an allocation

Every unit of a lease's allocation is still held by the lease, was spent by a receipt, was handed to
a child on this warden or another, or went back to the free pool.
-/

namespace Lets

open Library

variable {d : ℕ} {Hash : Type}

def LeaseStatus.isOver : LeaseStatus → Bool
  | closed | expired => true
  | provisioned | active | quiescent | migrating | revoked | terminated => false

namespace Database

def spentOn (leaseId : String) (i : Fin d) (db : Database d Hash) : ℕ :=
  db.receipts.sumOf fun _ receipt => if receipt.leaseId = leaseId then receipt.cost i else 0

def delegatedLocally (leaseId : String) (i : Fin d) (db : Database d Hash) : ℕ :=
  db.leases.sumOf fun _ child => if child.parentId = some leaseId then child.allocation i else 0

def delegatedRemotely (leaseId : String) (i : Fin d) (db : Database d Hash) : ℕ :=
  db.remoteChildren.sumOf fun _ child => if child.parentId = leaseId then child.allocation i else 0

def drawn (leaseId : String) (i : Fin d) (db : Database d Hash) : ℕ :=
  db.spentOn leaseId i + (db.delegatedLocally leaseId i + db.delegatedRemotely leaseId i)

def leaseOver (leaseId : String) (db : Database d Hash) : Bool :=
  (db.leases.lookup leaseId).any fun lease => lease.status.isOver

def ended (db db' : Database d Hash) : List (String × ResourceVector d) :=
  (db.leases.filterRows fun id lease => !lease.status.isOver && db'.leaseOver id).entries.map
    fun row => (row.1, row.2.residual)

end Database

def creditsOf (leaseId : String) (credits : List (String × ResourceVector d)) :
    List (String × ResourceVector d) :=
  credits.filter fun credit => credit.1 = leaseId

def returned (leaseId : String) (i : Fin d) (credits : List (String × ResourceVector d)) : ℕ :=
  ((creditsOf leaseId credits).map fun credit => credit.2 i).sum

namespace WardenService

def creditSystem (svc : WardenService d Hash) (envelope : Envelope d) :
    System (Database d Hash × List (String × ResourceVector d)) (Call d) :=
  (svc.system envelope).record fun db _ db' => db.ended db'

/-- What one step does to what a lease holds where nothing is drawn from it. -/
inductive Holds (lease lease' : Lease d) : Prop
  | kept (residual_eq : lease'.residual = lease.residual)
      (over_eq : lease'.status.isOver = lease.status.isOver)
  | released (residual_eq : ∀ i, lease'.residual i = 0) (before : lease.status.isOver = false)
      (after : lease'.status.isOver = true)

variable {svc : WardenService d Hash} {clock : Reading} {operation : Operation d}
  {db db' : Database d Hash} {out : Response d}

namespace Effect

variable (h : Effect svc clock db operation db' out)

include h

theorem spentOn_cases : (∀ id i, db'.spentOn id i = db.spentOn id i) ∨
      ∃ newReceiptId req, operation = .authorize newReceiptId req ∧
        Nonempty (Authorized svc clock newReceiptId req db db' out) := by
  rcases h.charges_cases with ⟨hsame, _⟩ | hauthorized
  · refine .inl fun id i => ?_
    have hreceipts : db'.receipts = db.receipts := congrArg Prod.fst hsame
    rw [Database.spentOn, hreceipts, Database.spentOn]
  · exact .inr hauthorized

theorem delegatedRemotely_cases : (∀ id i, db'.delegatedRemotely id i = db.delegatedRemotely id i) ∨
      ∃ newLeaseId newTransferId req, operation = .spawnRemote newLeaseId newTransferId req ∧
        Nonempty (RemoteSpawned svc clock newLeaseId newTransferId req db db' out) := by
  by_cases hspawned : ∃ newLeaseId newTransferId req,
      operation = .spawnRemote newLeaseId newTransferId req ∧
        Nonempty (RemoteSpawned svc clock newLeaseId newTransferId req db db' out)
  · exact .inr hspawned
  left
  intro id i
  unfold Database.delegatedRemotely
  apply Table.sumOf_eq_of_lookup
  intro childLeaseId
  cases hchild : db.remoteChildren.lookup childLeaseId with
  | some child =>
    obtain ⟨child', hchild', hstep⟩ := h.child_step hchild
    have hparent : child'.parentId = child.parentId := congrArg Prod.fst hstep.terms_eq
    have hallocation : child'.allocation = child.allocation :=
      congrArg (fun terms => terms.2.2.2.2.1) hstep.terms_eq
    rw [hchild', Option.elim_some, Option.elim_some, hparent, hallocation]
  | none =>
    cases hchild' : db'.remoteChildren.lookup childLeaseId with
    | none => rfl
    | some child' =>
      obtain ⟨newTransferId, req, hoperation, done, _⟩ :=
        h.child_new (AList.lookup_eq_none.mp hchild) hchild'
      exact absurd ⟨childLeaseId, newTransferId, req, hoperation, ⟨done⟩⟩ hspawned

theorem delegatedLocally_cases : (∀ id i, db'.delegatedLocally id i = db.delegatedLocally id i) ∨
      ∃ newLeaseId req out, operation = .spawn newLeaseId req ∧
        Nonempty (Spawned svc clock newLeaseId req db db' out) := by
  by_cases hspawned : ∃ newLeaseId req out, operation = .spawn newLeaseId req ∧
      Nonempty (Spawned svc clock newLeaseId req db db' out)
  · exact .inr hspawned
  left
  intro id i
  unfold Database.delegatedLocally
  apply Table.sumOf_eq_of_lookup
  intro leaseId
  cases hlease : db.leases.lookup leaseId with
  | some lease =>
    obtain ⟨lease', hlease', hterms, _⟩ := h.row_terms hlease
    have hparent : lease'.parentId = lease.parentId :=
      (Lease.keeps hterms).parentId
    have hallocation : lease'.allocation = lease.allocation :=
      (Lease.keeps hterms).allocation
    rw [hlease', Option.elim_some, Option.elim_some, hparent, hallocation]
  | none =>
    cases hlease' : db'.leases.lookup leaseId with
    | none => rfl
    | some lease' =>
      -- a new row that no `spawn` has made has no parent on this warden
      have hparent : lease'.parentId = none := by
        cases h.row_new (AList.lookup_eq_none.mp hlease) hlease' with
        | root parent_eq => exact parent_eq
        | child done => exact absurd ⟨_, _, _, rfl, ⟨done⟩⟩ hspawned
        | remote _ _ _ _ _ _ parent_eq => exact parent_eq
      rw [Option.elim_some, hparent]
      exact if_neg (by simp)

variable (hdebits : ¬∃ debtor amount, Debits svc clock db db' operation debtor amount)

include hdebits

theorem holds {leaseId : String} {lease : Lease d} (hlease : db.leases.lookup leaseId = some lease) :
     ∃ lease', db'.leases.lookup leaseId = some lease' ∧ lease'.allocation = lease.allocation ∧
      Holds lease lease' := by
  obtain ⟨lease', hlease', hterms, hstep⟩ := h.row_terms hlease
  refine ⟨lease', hlease', (Lease.keeps hterms).allocation, ?_⟩
  cases hstep with
  | kept status_eq _ _ residual_eq =>
    exact .kept (residual_eq.resolve_left hdebits) (by rw [status_eq])
  | renewed _ _ _ status_eq _ _ residual_eq => exact .kept residual_eq (by rw [status_eq])
  | switched _ done id_eq status_eq _ _ residual_eq =>
    have hrow := done.lease_eq
    rw [← id_eq, hlease] at hrow
    obtain rfl := Option.some.inj hrow
    refine .kept residual_eq ?_
    rcases done.moves with ⟨_, hfrom, hto⟩ | ⟨_, _, hfrom, hto⟩
    · rw [status_eq, hfrom, hto]; rfl
    · rw [status_eq, hfrom, hto]; rfl
  | closed _ done id_eq status_eq _ _ residual_eq =>
    have hrow := done.lease_eq
    rw [← id_eq, hlease] at hrow
    have hclosed := done.notClosed
    have hexpired := done.notExpired
    rw [← Option.some.inj hrow] at hclosed hexpired
    refine .released (fun i => by rw [residual_eq]; rfl) ?_ (by rw [status_eq]; rfl)
    revert hclosed hexpired
    cases lease.status <;> simp [LeaseStatus.isOver]
  | revoked live _ _ status_eq _ _ residual_eq =>
    refine .kept residual_eq ?_
    rw [status_eq]
    revert live
    cases lease.status <;> simp [LeaseStatus.isOver, LeaseStatus.isLiveLease]
  | expired _ live _ status_eq _ _ residual_eq =>
    refine .released (fun i => by rw [residual_eq]; rfl) ?_ (by rw [status_eq]; rfl)
    revert live
    cases lease.status <;> simp [LeaseStatus.isOver, LeaseStatus.isLive]

theorem drawn_eq (leaseId : String) (i : Fin d) : db'.drawn leaseId i = db.drawn leaseId i := by
  have hspent := h.spentOn_cases.resolve_right fun ⟨_, _, hoperation, ⟨done⟩⟩ =>
    hdebits (hoperation ▸ ⟨_, _, Debits.authorized done⟩)
  have hlocal := h.delegatedLocally_cases.resolve_right fun ⟨_, _, _, hoperation, ⟨done⟩⟩ =>
    hdebits (hoperation ▸ ⟨_, _, Debits.spawned done⟩)
  have hremote := h.delegatedRemotely_cases.resolve_right fun ⟨_, _, _, hoperation, ⟨done⟩⟩ =>
    hdebits (hoperation ▸ ⟨_, _, Debits.remoteSpawned done⟩)
  rw [Database.drawn, hspent, hlocal, hremote, Database.drawn]

end Effect

variable {debtor : String} {amount : ResourceVector d}

variable (h : Debits svc clock db db' operation debtor amount)

include h

theorem Debits.drawn_eq (heffect : Effect svc clock db operation db' out) (leaseId : String)
    (i : Fin d) :
    db'.drawn leaseId i = db.drawn leaseId i + if leaseId = debtor then amount i else 0 := by
  cases h with
  | @authorized newReceiptId req _ done =>
    have hlocal := heffect.delegatedLocally_cases.resolve_right (by
      rintro ⟨_, _, _, h, _⟩
      cases h)
    have hremote := heffect.delegatedRemotely_cases.resolve_right (by
      rintro ⟨_, _, _, h, _⟩
      cases h)
    have hspent : db'.spentOn leaseId i =
        (if req.leaseId = leaseId then done.rule.cost i else 0) + db.spentOn leaseId i := by
      rw [Database.spentOn, done.receipts_eq, Table.sumOf_insert _ _ done.receipt_new, done.receipt_eq]
      rfl
    rw [Database.drawn, hspent, hlocal, hremote, Database.drawn]
    simp only [eq_comm (a := req.leaseId)]
    omega
  | @spawned newLeaseId req _ done =>
    have hspent := heffect.spentOn_cases.resolve_right (by
      rintro ⟨_, _, h, _⟩
      cases h)
    have hremote := heffect.delegatedRemotely_cases.resolve_right (by
      rintro ⟨_, _, _, h, _⟩
      cases h)
    have hleases : db'.leases = AList.insert newLeaseId _
        (db.leases.update req.parentId (debited done.residual clock.nowNs)) :=
      congrArg Database.leases done.result
    have hlocal : db'.delegatedLocally leaseId i =
        (if some req.parentId = some leaseId then req.allocation i else 0) +
          db.delegatedLocally leaseId i := by
      rw [Database.delegatedLocally, hleases,
        Table.sumOf_insert _ _ fun hmem => done.leaseId_new (mem_update_iff.mp hmem),
        Table.update, Table.sumOf_mapRows, done.grant_eq]
      congr 1
      refine Table.sumOf_congr fun id lease _ => ?_
      by_cases hid : id = req.parentId
      · rw [if_pos hid]; rfl
      · rw [if_neg hid]
    rw [Database.drawn, hspent, hlocal, hremote, Database.drawn]
    simp only [Option.some.injEq, eq_comm (a := req.parentId)]
    omega
  | @remoteSpawned newLeaseId newTransferId req _ done =>
    have hspent := heffect.spentOn_cases.resolve_right (by
      rintro ⟨_, _, h, _⟩
      cases h)
    have hlocal := heffect.delegatedLocally_cases.resolve_right (by
      rintro ⟨_, _, _, h, _⟩
      cases h)
    have hchildren : db'.remoteChildren = AList.insert newLeaseId _ db.remoteChildren :=
      congrArg Database.remoteChildren done.result
    have hremote : db'.delegatedRemotely leaseId i =
        (if req.parentId = leaseId then req.allocation i else 0) +
          db.delegatedRemotely leaseId i := by
      rw [Database.delegatedRemotely, hchildren, Table.sumOf_insert _ _ done.child_new]
      rfl
    rw [Database.drawn, hspent, hlocal, hremote, Database.drawn]
    simp only [eq_comm (a := req.parentId)]
    omega

theorem Debits.holds {leaseId : String} {lease : Lease d}
    (hlease : db.leases.lookup leaseId = some lease) : ∃ lease',
      db'.leases.lookup leaseId = some lease' ∧ lease'.allocation = lease.allocation ∧
        lease'.status = lease.status ∧
        ∀ i, lease'.residual i + (if leaseId = debtor then amount i else 0) = lease.residual i := by
  -- the row of the debtor is rewritten, every other one stays
  have hrow : ∀ {id f t} {residual : ResourceVector d}, db.leases.lookup id = some t →
      (∀ i, residual i + amount i = t.residual i) → id = debtor →
      (∀ lease : Lease d, (f lease).allocation = lease.allocation ∧
        (f lease).status = lease.status ∧ (f lease).residual = residual) →
      ∃ lease', (db.leases.update id f).lookup leaseId = some lease' ∧
        lease'.allocation = lease.allocation ∧ lease'.status = lease.status ∧
        ∀ i, lease'.residual i + (if leaseId = debtor then amount i else 0) =
          lease.residual i := by
    rintro id f t residual ht hresidual rfl hf
    rw [Table.lookup_update, hlease, Option.map_some]
    by_cases hid : leaseId = id
    · subst hid
      obtain rfl := some_unique ht hlease
      obtain ⟨hallocation, hstatus, heq⟩ := hf t
      refine ⟨f t, if_pos rfl, hallocation, hstatus, fun i => ?_⟩
      rw [if_pos rfl, heq, hresidual i]
    · exact ⟨lease, if_neg hid, rfl, rfl, fun i => by rw [if_neg hid, add_zero]⟩
  cases h with
  | authorized done =>
    have hleases := congrArg Database.leases done.result
    rw [hleases]
    exact hrow done.lease_eq done.residual_eq rfl fun _ => ⟨rfl, rfl, rfl⟩
  | @spawned newLeaseId req _ done =>
    have hleases : db'.leases = AList.insert newLeaseId _
        (db.leases.update req.parentId (debited done.residual clock.nowNs)) :=
      congrArg Database.leases done.result
    obtain ⟨lease', hlease', hkept⟩ := hrow (f := debited done.residual clock.nowNs)
      done.parent_eq done.residual_eq rfl fun _ => ⟨rfl, rfl, rfl⟩
    refine ⟨lease', ?_, hkept⟩
    rw [hleases]
    exact Table.lookup_insert_of_new (fun hmem => done.leaseId_new (mem_update_iff.mp hmem)) hlease'
  | remoteSpawned done =>
    have hleases := congrArg Database.leases done.result
    rw [hleases]
    exact hrow done.parent_eq done.residual_eq rfl fun _ => ⟨rfl, rfl, rfl⟩

theorem Debits.mem : debtor ∈ db.leases := by
  cases h with
  | authorized done => exact Table.mem_iff_lookup.mpr ⟨_, done.lease_eq⟩
  | spawned done => exact Table.mem_iff_lookup.mpr ⟨_, done.parent_eq⟩
  | remoteSpawned done => exact Table.mem_iff_lookup.mpr ⟨_, done.parent_eq⟩

end WardenService

theorem creditsOf_append (leaseId : String) (credits credits' : List (String × ResourceVector d)) :
    creditsOf leaseId (credits ++ credits') = creditsOf leaseId credits ++ creditsOf leaseId credits' :=
  List.filter_append _ _

theorem returned_append (leaseId : String) (i : Fin d)
    (credits credits' : List (String × ResourceVector d)) :
    returned leaseId i (credits ++ credits') =
      returned leaseId i credits + returned leaseId i credits' := by
  rw [returned, creditsOf_append, List.map_append, List.sum_append, returned, returned]

theorem creditsOf_ended (leaseId : String) (db db' : Database d Hash) :
    creditsOf leaseId (db.ended db') =
      (((db.leases.lookup leaseId).filter fun lease =>
        !lease.status.isOver && db'.leaseOver leaseId).map fun lease =>
          (leaseId, lease.residual)).toList := by
  rw [creditsOf, Database.ended, Table.filter_key, Table.lookup_filterRows]

theorem mem_ended {leaseId : String} {amount : ResourceVector d} {db db' : Database d Hash}
    (h : (leaseId, amount) ∈ db.ended db') : ∃ lease, db.leases.lookup leaseId = some lease ∧
      lease.status.isOver = false ∧ db'.leaseOver leaseId = true := by
  obtain ⟨⟨id, lease⟩, hrow, heq⟩ := List.mem_map.mp h
  obtain rfl : id = leaseId := congrArg Prod.fst heq
  have hlookup := Table.lookup_eq_some_iff.mpr hrow
  rw [Table.lookup_filterRows, Option.filter_eq_some_iff, Bool.and_eq_true, Bool.not_eq_true']
    at hlookup
  exact ⟨lease, hlookup⟩

theorem ended_self (db : Database d Hash) : db.ended db = [] := by
  rw [List.eq_nil_iff_forall_not_mem]
  rintro ⟨leaseId, amount⟩ hmem
  obtain ⟨lease, hlease, hbefore, hafter⟩ := mem_ended hmem
  rw [Database.leaseOver, hlease, Option.any_some, hbefore] at hafter
  cases hafter

structure Accounted (db : Database d Hash) (credits : List (String × ResourceVector d)) : Prop where
  balance : ∀ leaseId lease, db.leases.lookup leaseId = some lease → ∀ i,
    lease.allocation i =
      lease.residual i + db.drawn leaseId i + returned leaseId i credits
  standing : ∀ leaseId lease, db.leases.lookup leaseId = some lease →
    lease.status.isOver = false → creditsOf leaseId credits = []
  ended : ∀ leaseId lease, db.leases.lookup leaseId = some lease →
    lease.status.isOver = true → ∃ amount, creditsOf leaseId credits = [(leaseId, amount)]
  absent : ∀ leaseId, leaseId ∉ db.leases →
    creditsOf leaseId credits = [] ∧ ∀ i, db.drawn leaseId i = 0

inductive AccountStep (db db' : Database d Hash) (leaseId : String) (lease lease' : Lease d) : Prop
  | drawn (over_eq : lease'.status.isOver = lease.status.isOver)
      (balance : ∀ i, lease'.residual i + db'.drawn leaseId i =
        lease.residual i + db.drawn leaseId i)
  | released (before : lease.status.isOver = false) (after : lease'.status.isOver = true)
      (residual_eq : ∀ i, lease'.residual i = 0)
      (drawn_eq : ∀ i, db'.drawn leaseId i = db.drawn leaseId i)

namespace WardenService

variable {svc : WardenService d Hash} {clock : Reading} {operation : Operation d}
  {db db' : Database d Hash} {out : Response d}

variable {leaseId : String}

theorem Effect.account_step (h : Effect svc clock db operation db' out) {lease : Lease d}
    (hlease : db.leases.lookup leaseId = some lease) : ∃ lease',
      db'.leases.lookup leaseId = some lease' ∧ lease'.allocation = lease.allocation ∧
        AccountStep db db' leaseId lease lease' := by
  by_cases hdebits : ∃ debtor amount, Debits svc clock db db' operation debtor amount
  · obtain ⟨debtor, amount, hdebits⟩ := hdebits
    obtain ⟨lease', hlease', hallocation, hstatus, hresidual⟩ := hdebits.holds hlease
    refine ⟨lease', hlease', hallocation, .drawn (by rw [hstatus]) fun i => ?_⟩
    have hdrawn := hdebits.drawn_eq h leaseId i
    have hheld := hresidual i
    omega
  · obtain ⟨lease', hlease', hallocation, hholds⟩ := h.holds hdebits hlease
    refine ⟨lease', hlease', hallocation, ?_⟩
    cases hholds with
    | kept residual_eq over_eq =>
      exact .drawn over_eq fun i => by rw [residual_eq, h.drawn_eq hdebits]
    | released residual_eq before after =>
      exact .released before after residual_eq (h.drawn_eq hdebits leaseId)

theorem Effect.undrawn (h : Effect svc clock db operation db' out) (hnew : leaseId ∉ db.leases)
    (i : Fin d) : db'.drawn leaseId i = db.drawn leaseId i := by
  by_cases hdebits : ∃ debtor amount, Debits svc clock db db' operation debtor amount
  · obtain ⟨debtor, amount, hdebits⟩ := hdebits
    have hne : leaseId ≠ debtor := fun heq => hnew (heq ▸ hdebits.mem)
    rw [hdebits.drawn_eq h, if_neg hne, add_zero]
  · exact h.drawn_eq hdebits leaseId i

theorem RowNew.full {lease : Lease d} (h : RowNew svc clock db db' leaseId lease operation) :
    lease.residual = lease.allocation ∧ lease.status.isOver = false := by
  cases h with
  | root _ _ _ _ _ row_eq => rw [row_eq]; exact ⟨rfl, rfl⟩
  | child _ _ _ _ _ _ _ row_eq => rw [row_eq]; exact ⟨rfl, rfl⟩
  | remote _ _ _ _ _ _ _ _ _ _ _ _ row_eq => rw [row_eq]; exact ⟨rfl, rfl⟩

variable (h : Effect svc clock db operation db' out)

include h

theorem Effect.accounted {credits : List (String × ResourceVector d)} (hdb : Accounted db credits) :
    Accounted db' (credits ++ db.ended db') := by
  -- the account of a row, step by step
  have hrow : ∀ leaseId lease', db'.leases.lookup leaseId = some lease' →
      (∀ i, lease'.allocation i = lease'.residual i + db'.drawn leaseId i +
        returned leaseId i (credits ++ db.ended db')) ∧
      (lease'.status.isOver = false → creditsOf leaseId (credits ++ db.ended db') = []) ∧
      (lease'.status.isOver = true → ∃ amount,
        creditsOf leaseId (credits ++ db.ended db') = [(leaseId, amount)]) := by
    intro leaseId lease' hlease'
    have hover : db'.leaseOver leaseId = lease'.status.isOver := by
      rw [Database.leaseOver, hlease']
      rfl
    cases hlease : db.leases.lookup leaseId with
    | none =>
      have hnew := AList.lookup_eq_none.mp hlease
      obtain ⟨hfull, hactive⟩ := (h.row_new hnew hlease').full
      obtain ⟨hcredits, hdrawn⟩ := hdb.absent leaseId hnew
      have hended := creditsOf_ended leaseId db db'
      rw [hlease] at hended
      have hnone : creditsOf leaseId (credits ++ db.ended db') = [] := by
        rw [creditsOf_append, hcredits, hended]
        rfl
      refine ⟨fun i => ?_, fun _ => hnone, fun hover => ?_⟩
      · rw [h.undrawn hnew, hdrawn, returned, hnone, hfull]
        rfl
      · rw [hactive] at hover
        cases hover
    | some lease =>
      obtain ⟨lease₁, hlease₁, hallocation, hstep⟩ := h.account_step hlease
      obtain rfl := some_unique hlease₁ hlease'
      have hended := creditsOf_ended leaseId db db'
      rw [hlease, hover, Option.filter_some] at hended
      have hbalance := hdb.balance leaseId lease hlease
      cases hstep with
      | drawn over_eq balance =>
        -- nothing was given back
        have hnone : creditsOf leaseId (db.ended db') = [] := by
          rw [hended, over_eq]
          cases lease.status.isOver <;> rfl
        rw [creditsOf_append, hnone, List.append_nil, over_eq]
        refine ⟨fun i => ?_, hdb.standing leaseId lease hlease, hdb.ended leaseId lease hlease⟩
        have hreturned : returned leaseId i (db.ended db') = 0 := by
          rw [returned, hnone]
          rfl
        rw [returned_append, hreturned, hallocation, hbalance i, ← balance i, add_zero]
      | released before after residual_eq drawn_eq =>
        have hone : creditsOf leaseId (db.ended db') = [(leaseId, lease.residual)] := by
          rw [hended, before, after]
          rfl
        have hnone := hdb.standing leaseId lease hlease before
        rw [creditsOf_append, hnone, hone, List.nil_append]
        refine ⟨fun i => ?_, fun hlive => ?_, fun _ => ⟨_, rfl⟩⟩
        · have hreturned : returned leaseId i (db.ended db') = lease.residual i := by
            rw [returned, hone]
            rfl
          have hbefore : returned leaseId i credits = 0 := by
            rw [returned, hnone]
            rfl
          rw [returned_append, hreturned, hbefore, residual_eq, drawn_eq, hallocation, hbalance i,
            hbefore]
          omega
        · rw [after] at hlive
          cases hlive
  exact {
    balance := fun leaseId lease hlease => (hrow leaseId lease hlease).1
    standing := fun leaseId lease hlease => (hrow leaseId lease hlease).2.1
    ended := fun leaseId lease hlease => (hrow leaseId lease hlease).2.2
    absent := fun leaseId hnew' => by
      have hnew : leaseId ∉ db.leases := by
        intro hmem
        obtain ⟨lease, hlease⟩ := Table.mem_iff_lookup.mp hmem
        obtain ⟨lease', hlease', _⟩ := h.row_terms hlease
        exact hnew' (Table.mem_of_lookup hlease')
      obtain ⟨hcredits, hdrawn⟩ := hdb.absent leaseId hnew
      refine ⟨?_, fun i => by rw [h.undrawn hnew, hdrawn]⟩
      have hended := creditsOf_ended leaseId db db'
      rw [AList.lookup_eq_none.mpr hnew] at hended
      rw [creditsOf_append, hcredits, hended]
      rfl }

theorem Effect.ends (hended : db.ended db' ≠ []) :
    (∃ terminated req, operation = .lifecycle .close terminated req ∧ ∃ out,
        Nonempty (Closed svc clock terminated req db db' out)) ∨
      (∃ identity tenantId envelopeId, operation = .reclaimExpired identity tenantId envelopeId) ∧
        Nonempty (Reclaimed svc clock db db') := by
  obtain ⟨⟨leaseId, amount⟩, hmem⟩ := List.exists_mem_of_ne_nil _ hended
  obtain ⟨lease, hlease, hbefore, hover⟩ := mem_ended hmem
  obtain ⟨lease', hlease', _, hstep⟩ := h.row_terms hlease
  have hafter : lease'.status.isOver = true := by
    rwa [Database.leaseOver, hlease'] at hover
  cases hstep with
  | closed operation_eq done => exact .inl ⟨_, _, operation_eq, _, ⟨done⟩⟩
  | expired _ _ _ _ _ _ _ operation_eq done => exact .inr ⟨⟨_, _, _, operation_eq⟩, ⟨done⟩⟩
  | kept status_eq =>
    rw [status_eq, hbefore] at hafter
    cases hafter
  | renewed _ _ _ status_eq =>
    rw [status_eq, hbefore] at hafter
    cases hafter
  | revoked _ _ _ status_eq =>
    rw [status_eq] at hafter
    cases hafter
  | switched _ done _ status_eq =>
    rcases done.moves with ⟨_, _, hto⟩ | ⟨_, _, _, hto⟩
    · rw [status_eq, hto] at hafter
      cases hafter
    · rw [status_eq, hto] at hafter
      cases hafter

theorem Effect.residual_of_ended (hended : db.ended db' ≠ []) (i : Fin d) :
    (db.leases.sumOf fun _ lease => lease.residual i) =
      (db'.leases.sumOf fun _ lease => lease.residual i) +
        ((db.ended db').map fun credit => credit.2 i).sum := by
  have hdebits : ¬∃ debtor amount, Debits svc clock db db' operation debtor amount := by
    rintro ⟨debtor, amount, hdebits⟩
    rcases h.ends hended with ⟨_, _, rfl, _⟩ | ⟨⟨_, _, _, rfl⟩, _⟩
    · cases hdebits
    · cases hdebits
  have hgiven : ((db.ended db').map fun credit => credit.2 i).sum =
      db.leases.sumOf fun id lease =>
        if !lease.status.isOver && db'.leaseOver id then lease.residual i else 0 := by
    have hsum := Table.sumOf_filterRows (fun _ lease => lease.residual i)
      (fun id lease => !lease.status.isOver && db'.leaseOver id) db.leases
    rw [← hsum, Database.ended, List.map_map]
    rfl
  have hkept : (db'.leases.sumOf fun _ lease => lease.residual i) =
      db.leases.sumOf fun id lease =>
        if !lease.status.isOver && db'.leaseOver id then 0 else lease.residual i := by
    apply Table.sumOf_eq_of_lookup
    intro leaseId
    cases hlease : db.leases.lookup leaseId with
    | none =>
      cases hlease' : db'.leases.lookup leaseId with
      | none => rfl
      | some lease' =>
        have hnew := h.row_new (AList.lookup_eq_none.mp hlease) hlease'
        rcases h.ends hended with ⟨_, _, rfl, _⟩ | ⟨⟨_, _, _, rfl⟩, _⟩
        · cases hnew
        · cases hnew
    | some lease =>
      obtain ⟨lease', hlease', _, hholds⟩ := h.holds hdebits hlease
      have hover : db'.leaseOver leaseId = lease'.status.isOver := by
        rw [Database.leaseOver, hlease']
        rfl
      rw [hlease', Option.elim_some, Option.elim_some, hover]
      cases hholds with
      | kept residual_eq over_eq =>
        rw [residual_eq, over_eq, if_neg]
        cases lease.status.isOver <;> simp
      | released residual_eq before after =>
        rw [residual_eq, before, after]
        rfl
  rw [hgiven, hkept, ← Table.sumOf_add]
  apply Table.sumOf_congr
  intro id lease _
  split_ifs
  · exact (Nat.zero_add _).symm
  · rfl

theorem Effect.freePool_of_ended (hconserved : db.Conserved) (hconserved' : db'.Conserved)
    (hsum : db.ResidualSum) (hended : db.ended db' ≠ []) (i : Fin d) : db'.freePool i =
      db.freePool i + ((db.ended db').map fun credit => credit.2 i).sum := by
  have hrows := h.residual_of_ended hended i
  have hheld := hsum i
  have hheld' := h.residualSum hsum i
  have hidentity := hconserved.identity i
  have hidentity' := hconserved'.identity i
  have hfixed : db'.envelope = db.envelope ∧ db'.transferredIn = db.transferredIn ∧
      db'.consumed = db.consumed ∧ db'.transferredOut = db.transferredOut := by
    rcases h.ends hended with ⟨_, _, _, _, ⟨done⟩⟩ | ⟨_, ⟨done⟩⟩
    · rw [done.result]; exact ⟨rfl, rfl, rfl, rfl⟩
    · rw [done.result]; exact ⟨rfl, rfl, rfl, rfl⟩
  obtain ⟨henvelope, hin, hconsumed, hout⟩ := hfixed
  rw [henvelope, hin, hconsumed, hout] at hidentity'
  omega

end WardenService

open WardenService in
theorem accounted_of_reachable {svc : WardenService d Hash} {envelope : Envelope d}
    {s : Database d Hash × List (String × ResourceVector d)}
    (hreach : (svc.creditSystem envelope).Reachable s) : Accounted s.1 s.2 := by
  refine System.Reachable.invariant (P := fun s => Accounted s.1 s.2) ?_ ?_ hreach
  · rintro ⟨db, credits⟩ ⟨hinit, rfl⟩
    obtain rfl : db = .genesis svc.wardenId svc.keyId envelope := hinit
    exact ⟨(fun _ _ h => by cases h), (fun _ _ h => by cases h), (fun _ _ h => by cases h),
      fun _ _ => ⟨rfl, fun _ => rfl⟩⟩
  · intro s call s' h hstep
    have hcredits : s'.2 = s.2 ++ s.1.ended s'.1 := hstep.2
    rw [hcredits]
    rcases effect_cases hstep.1 with ⟨out, _, heffect⟩ | ⟨_, hsame⟩
    · exact heffect.accounted h
    · rw [hsame, ended_self, List.append_nil]
      exact h

/-- In every run of a warden the allocation of a lease is what it holds, what its receipts have
cost, what its children here and elsewhere were given and what it has given back, which it does
once, when it is closed or expired. -/
theorem allocation_accounted {svc : WardenService d Hash} {envelope : Envelope d}
    {db : Database d Hash} {credits : List (String × ResourceVector d)}
    (hreach : (svc.creditSystem envelope).Reachable (db, credits)) :
    (∀ leaseId lease, db.leases.lookup leaseId = some lease →
      (∀ i, lease.allocation i = lease.residual i + db.spentOn leaseId i +
        (db.delegatedLocally leaseId i + db.delegatedRemotely leaseId i) +
        returned leaseId i credits) ∧
      (lease.status.isOver = false → creditsOf leaseId credits = []) ∧
      (lease.status.isOver = true → ∃ amount, creditsOf leaseId credits = [(leaseId, amount)]) ∧
      ∀ i, db.spentOn leaseId i +
        (db.delegatedLocally leaseId i + db.delegatedRemotely leaseId i) +
        returned leaseId i credits ≤ lease.allocation i) ∧
    ∀ call db' credits', (svc.creditSystem envelope).Step (db, credits) call (db', credits') →
      credits' = credits ∨ credits' = credits ++ db.ended db' ∧ ∀ i, db'.freePool i =
        db.freePool i + ((db.ended db').map fun credit => credit.2 i).sum := by
  have haccounted : Accounted db credits := accounted_of_reachable hreach
  constructor
  · intro leaseId lease hlease
    have hbalance := haccounted.balance leaseId lease hlease
    refine ⟨fun i => ?_, haccounted.standing leaseId lease hlease,
      haccounted.ended leaseId lease hlease, fun i => ?_⟩
    · rw [hbalance i, Database.drawn]
      omega
    · rw [hbalance i, Database.drawn]
      omega
  · intro call db' credits' hstep
    have hcredits : credits' = credits ++ db.ended db' := hstep.2
    by_cases hended : db.ended db' = []
    · left
      rw [hcredits, hended, List.append_nil]
    · obtain ⟨db₀, calls, hinit, run⟩ := hreach.of_record
      have haccounts := accounts_of_run hinit run
      rcases WardenService.step_cases hstep.1 with ⟨out, _, hexec⟩ | ⟨_, hsame⟩
      · obtain ⟨_, hconserved, heffect⟩ := WardenService.exec_ok hexec
        exact .inr ⟨hcredits, heffect.freePool_of_ended haccounts.conserved hconserved
          haccounts.residualSum hended⟩
      · have hsame : db' = db := hsame
        exact absurd (hsame ▸ ended_self db) hended

open Sample

/-- A root of five units that handed two to a child and was closed gives three back. -/
theorem allocation_accounted_closedRoot : ∃ credits,
    ((service "a").creditSystem (envelope 6)).Reachable
      (closedRoot, credits) ∧
      ∃ amount, creditsOf "root" credits = [("root", amount)] ∧ amount 0 = 3 := by
  have hreach : ((service "a").system (envelope 6)).Reachable closedRoot :=
    (service "a").play_reachable (envelope 6) closingRoot
  obtain ⟨credits, hcredits⟩ :=
    hreach.record (fun (db : Database 1 ℕ) _ db' => db.ended db')
  have hroot : (closedRoot.leases.lookup "root").map (fun lease =>
      (lease.allocation 0, lease.residual 0, lease.status)) = some (5, 0, .closed) := by
    decide +kernel
  have hdrawn : closedRoot.spentOn "root" 0 = 0 ∧
      closedRoot.delegatedLocally "root" 0 = 2 ∧
      closedRoot.delegatedRemotely "root" 0 = 0 := by
    decide +kernel
  obtain ⟨lease, hlease, hfields⟩ := Option.map_eq_some_iff.mp hroot
  simp only [Prod.mk.injEq] at hfields
  obtain ⟨hallocation, hresidual, hstatus⟩ := hfields
  obtain ⟨hbalance, _, hover, _⟩ := (allocation_accounted hcredits).1 "root" lease hlease
  obtain ⟨amount, hamount⟩ := hover (by rw [hstatus]; rfl)
  refine ⟨credits, hcredits, amount, hamount, ?_⟩
  have hreturned : returned "root" 0 credits = amount 0 := by
    rw [returned, hamount]
    rfl
  have hunits := hbalance 0
  rw [hallocation, hresidual, hdrawn.1, hdrawn.2.1, hdrawn.2.2, hreturned] at hunits
  omega

end Lets
