import Lets.Sample

set_option autoImplicit false

/-!
# What renewing a lease does

A renewal moves the lease to its new expiry together with every lease below it that would outlive
it, or it is rejected.
-/

namespace Lets

open Library

variable {d : ℕ} {Hash : Type}

/-- `id` is a lease of the warden below `leaseId` that is not over and expires after
`expiresAtNs`. -/
def Database.Outlives (db : Database d Hash) (leaseId : String) (expiresAtNs : ℕ) (id : String) :
    Prop :=
  ∃ lease, db.leases.lookup id = some lease ∧ leaseId ∈ lease.ancestorPath ∧
    lease.status ∉ [.closed, .expired, .terminated] ∧ expiresAtNs < lease.expiresAtNs

theorem LeaseStatus.isLive_iff (status : LeaseStatus) :
    status.isLive = true ↔ status ∉ [.closed, .expired, .terminated] := by
  cases status <;> decide

namespace WardenService

/-- A lease has been renewed, and with it exactly the leases below it that outlived it. -/
structure LeaseRenewed (svc : WardenService d Hash) (clock : Reading) (req : RenewRequest)
    (db db' : Database d Hash) : Prop where
  renewed : ∃ lease signature, db.leases.lookup req.leaseId = some lease ∧
    db'.leases.lookup req.leaseId = some { lease with
      issuedAtNs := clock.nowNs
      expiresAtNs := clock.nowNs + req.ttlNs
      keyId := svc.keyId
      signature
      sequence := lease.sequence + 1
      updatedAtNs := clock.nowNs }
  none_outlives : ∀ id, ¬db'.Outlives req.leaseId (clock.nowNs + req.ttlNs) id
  shortened : ∀ id lease, db.leases.lookup id = some lease →
    db.Outlives req.leaseId (clock.nowNs + req.ttlNs) id →
      ∃ signature, db'.leases.lookup id = some { lease with
        issuedAtNs := clock.nowNs
        expiresAtNs := clock.nowNs + req.ttlNs
        keyId := svc.keyId
        signature
        sequence := lease.sequence + 1
        updatedAtNs := clock.nowNs }
  unchanged : ∀ id ≠ req.leaseId, ¬db.Outlives req.leaseId (clock.nowNs + req.ttlNs) id →
    db'.leases.lookup id = db.leases.lookup id
  beneath : ∀ lease parentId, db'.leases.lookup req.leaseId = some lease →
    lease.parentId = some parentId →
      ∃ parent, db'.leases.lookup parentId = some parent ∧ lease.expiresAtNs ≤ parent.expiresAtNs

variable {svc : WardenService d Hash} {clock : Reading} {req : RenewRequest}
  {db db' : Database d Hash} {out : Response d}

theorem mem_outlivingDescendants_iff {leaseId id : String} {expiresAtNs : ℕ}
    (hlen : (db.outlivingDescendants leaseId expiresAtNs).length ≤ maxAtomicCascadeDescendants) :
    id ∈ db.outlivingDescendants leaseId expiresAtNs ↔ db.Outlives leaseId expiresAtNs id := by
  constructor
  · intro hmem
    obtain ⟨lease, hlease, hlive, hexpiry, hpath⟩ := mem_outlivingDescendants hmem
    exact ⟨lease, hlease, hpath, (lease.status.isLive_iff).mp hlive, hexpiry⟩
  · rintro ⟨lease, hlease, hpath, hlive, hexpiry⟩
    exact mem_outlivingDescendants_of hlen hlease ((lease.status.isLive_iff).mpr hlive) hexpiry hpath

namespace Renewed

variable (done : Renewed svc clock req db db' out)

include done

theorem lookup_of_mem {id : String}
    (hid : id = req.leaseId ∨ db.Outlives req.leaseId done.expiresAtNs id) :
    db'.leases.lookup id = (db.leases.lookup id).map
      (Lease.renewed clock.nowNs done.expiresAtNs svc.keyId (done.signatures id)) := by
  rw [← mem_outlivingDescendants_iff done.descendants_length, ← List.mem_cons] at hid
  rw [(congrArg Database.leases done.result).trans rfl]
  exact (Table.lookup_updateAll _ _ _ _).trans (if_pos hid)

theorem lookup_of_notMem {id : String}
    (hid : ¬(id = req.leaseId ∨ db.Outlives req.leaseId done.expiresAtNs id)) :
    db'.leases.lookup id = db.leases.lookup id := by
  rw [← mem_outlivingDescendants_iff done.descendants_length, ← List.mem_cons] at hid
  rw [(congrArg Database.leases done.result).trans rfl]
  exact (Table.lookup_updateAll _ _ _ _).trans (if_neg hid)

theorem leaseRenewed : svc.LeaseRenewed clock req db db' := by
  have hself : db'.leases.lookup req.leaseId = some (Lease.renewed clock.nowNs done.expiresAtNs
      svc.keyId (done.signatures req.leaseId) done.lease) := by
    rw [done.lookup_of_mem (.inl rfl), done.lease_eq]
    rfl
  constructor
  case renewed =>
    rw [← done.expiry_eq]
    exact ⟨done.lease, _, done.lease_eq, hself⟩
  case none_outlives =>
    rw [← done.expiry_eq]
    rintro id ⟨after, hafter, hpath, hlive, hlate⟩
    by_cases hid : id = req.leaseId ∨ db.Outlives req.leaseId done.expiresAtNs id
    · rw [done.lookup_of_mem hid] at hafter
      obtain ⟨_, _, rfl⟩ := Option.map_eq_some_iff.mp hafter
      exact absurd hlate (lt_irrefl _)
    · rw [done.lookup_of_notMem hid] at hafter
      exact hid (.inr ⟨after, hafter, hpath, hlive, hlate⟩)
  case shortened =>
    rw [← done.expiry_eq]
    intro id lease hlease hlate
    refine ⟨done.signatures id, ?_⟩
    rw [done.lookup_of_mem (.inr hlate), hlease]
    rfl
  case unchanged =>
    rw [← done.expiry_eq]
    intro id hne hkept
    exact done.lookup_of_notMem (not_or.mpr ⟨hne, hkept⟩)
  case beneath =>
    intro after parentId hafter hparent
    obtain rfl := some_unique hself hafter
    obtain ⟨parent, hlookup, _, _, hle⟩ := done.parent_ok parentId hparent
    by_cases hid : parentId = req.leaseId ∨ db.Outlives req.leaseId done.expiresAtNs parentId
    · -- a parent that is itself in the cascade ends at the same time
      rw [done.lookup_of_mem hid, hlookup]
      exact ⟨_, rfl, le_rfl⟩
    · rw [done.lookup_of_notMem hid, hlookup]
      exact ⟨parent, rfl, hle⟩

theorem bounded {ids : Finset String}
    (hids : ∀ id ∈ ids, db.Outlives req.leaseId (clock.nowNs + req.ttlNs) id) :
    ids.card ≤ 64 ∧ (ids.Nonempty → req.cascade = true) := by
  rw [← done.expiry_eq] at hids
  have hmem : ∀ id ∈ ids, id ∈ db.outlivingDescendants req.leaseId done.expiresAtNs :=
    fun id hid => (mem_outlivingDescendants_iff done.descendants_length).mpr (hids id hid)
  constructor
  · have hsub : ids ⊆ (db.outlivingDescendants req.leaseId done.expiresAtNs).toFinset :=
      fun id hid => List.mem_toFinset.mpr (hmem id hid)
    calc ids.card
        ≤ (db.outlivingDescendants req.leaseId done.expiresAtNs).toFinset.card :=
          Finset.card_le_card hsub
      _ ≤ (db.outlivingDescendants req.leaseId done.expiresAtNs).length := List.toFinset_card_le _
      _ ≤ 64 := done.descendants_length
  · rintro ⟨id, hid⟩
    rcases done.cascades with hempty | hcascade
    · rw [hempty] at hmem
      exact absurd (hmem id hid) List.not_mem_nil
    · exact hcascade

end Renewed

/-- What a renewal does: a new request renews the lease and exactly the leases that would outlive
it, one that would shorten too many or was not told to cascade is rejected, and a retry is given the
stored answer and changes no lease. -/
theorem renew_exact (svc : WardenService d Hash) (clock : Reading) (req : RenewRequest)
    (db : Database d Hash) :
    (∀ db' out, svc.serve clock (.renew req) db = (db', .ok out) →
      (db.idempotency.lookup req.requestId = none → svc.LeaseRenewed clock req db db') ∧
      (db.idempotency.lookup req.requestId ≠ none → db' = db.touch clock.nowNs ∧
        (db.idempotency.lookup req.requestId).map IdempotencyRow.response = some out)) ∧
    (db.idempotency.lookup req.requestId = none → ∀ ids : Finset String,
      (∀ id ∈ ids, db.Outlives req.leaseId (clock.nowNs + req.ttlNs) id) →
        64 < ids.card ∨ ids.Nonempty ∧ req.cascade = false →
          svc.Rejects clock (.renew req) db) := by
  constructor
  · intro db' out hserve
    obtain ⟨_, _, ⟨hresult, row, hrow, _, _, hout⟩ | ⟨⟨done⟩⟩⟩ := renew_ok (serve_ok_iff.mp hserve)
    · refine ⟨fun hnew => absurd (hnew.symm.trans hrow) (by simp), fun _ => ⟨hresult, ?_⟩⟩
      rw [hrow, Option.map_some, hout]
    · exact ⟨fun _ => done.leaseRenewed, fun hretry => absurd done.request_new hretry⟩
  · intro hnew ids hids hrefused
    refine rejects_of_not_ok fun db' out hexec => ?_
    obtain ⟨_, _, ⟨_, _, hrow, _⟩ | ⟨⟨done⟩⟩⟩ := renew_ok hexec
    · rw [hnew] at hrow
      cases hrow
    · obtain ⟨hcard, hcascade⟩ := done.bounded hids
      rcases hrefused with hmany | ⟨hsome, hnot⟩
      · omega
      · rw [hcascade hsome] at hnot
        cases hnot

end WardenService

namespace Sample

def branching : List (Reading × Operation 1) :=
  [(exactly 1, registerPolicy), (exactly 2, .issueRoot "root" "line" (rootRequest 5)),
    (exactly 3, .spawn "child"
      ⟨"r2", operator, "root", "subject", units 2, {"act"}, 10, none, none⟩)]

def branched : Database 1 ℕ := ((service "a").play (genesis "a" 6) branching).1

/-- The root is to end five units of time from now, and with it what is below. -/
def shorten : RenewRequest := ⟨"r3", operator, "root", 5, none, true⟩

end Sample

open Sample

theorem renew_exact_branched :
    ((service "a").serve (exactly 4) (.renew shorten)
      branched).2.toOption.isSome = true ∧
    (service "a").LeaseRenewed (exactly 4) shorten branched
      ((service "a").serve (exactly 4) (.renew shorten) branched).1 := by
  have hok : ((service "a").serve (exactly 4) (.renew shorten)
      branched).2.toOption.isSome = true := by decide +kernel
  cases hserve : (service "a").serve (exactly 4) (.renew shorten)
    branched with
  | mk db' reply =>
    rw [hserve] at hok
    cases reply with
    | error e => cases hok
    | ok out =>
      exact ⟨rfl, ((WardenService.renew_exact (service "a") (exactly 4)
        shorten branched).1 db' out hserve).1 (by decide +kernel)⟩

/-- The retry of a renewal succeeds, and leaves the expiry that the first call gave. -/
theorem renewal_retried_late :
    ∃ db, ((service "a").system (envelope 6)).Reachable db ∧
      ((service "a").serve (exactly 6) (.renew shorten) db).2.toOption.isSome =
        true ∧
      (((service "a").serve (exactly 6) (.renew shorten)
        db).1.leases.lookup "root").map Lease.expiresAtNs = some 9 ∧
      (exactly 6).nowNs + shorten.ttlNs = 11 :=
  ⟨_, (service "a").play_reachable (envelope 6)
      (branching ++ [(exactly 4, .renew shorten)]),
    by decide +kernel, by decide +kernel, rfl⟩

end Lets
