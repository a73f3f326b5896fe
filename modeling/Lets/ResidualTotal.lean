import Lets.Sample
import Lets.Statements
import Lets.Ledger

set_option autoImplicit false

/-!
# The running total of the residuals

`warden_state.lease_residual` is moved by triggers on the rows of `leases`, and the check before a
commit reads it in place of the rows.
-/

namespace Lets

open Library

variable {d : ℕ} {Hash : Type}

namespace Database

/-- `_assert_local_conservation` with `reconcile=True`: the rows are scanned first. -/
def reconcileLocalConservation (db : Database d Hash) : Outcome Unit := do
  let scanned ← db.residuals.scan
    (checkedVectors d (.invariant "conservation ledger contains an invalid vector")) Lease.residual
  require (scanned = db.leaseResidual)
    (.invariant "stored lease-residual aggregate does not match durable lease rows")
  db.assertLocalConservation

variable {db db' : Database d Hash}

theorem residualSum_iff_exact {e : LetsError} :
    db.ResidualSum ↔ db.residuals.Exact (checkedVectors d e) Lease.residual := by
  have hsum : ∀ i, (db.leases.sumOf fun _ (lease : Lease d) => lease.residual.amount) i =
      db.leases.sumOf fun _ lease => lease.residual i := by
    intro i
    unfold Table.sumOf
    exact (map_list_sum (Pi.evalAddMonoidHom (fun _ : Fin d => ℕ) i) _).trans
      (congrArg List.sum (List.map_map ..))
  constructor
  · intro h
    exact funext fun i => (h i).trans (hsum i).symm
  · intro h i
    exact (congrFun h i).trans (hsum i)

theorem ResidualSum.reconcile_eq (hsum : db.ResidualSum) :
    db.reconcileLocalConservation = db.assertLocalConservation := by
  unfold reconcileLocalConservation
  rw [(residualSum_iff_exact.mp hsum).scan_eq, ok_bind]
  exact congrArg (· >>= fun _ => db.assertLocalConservation) (require_of _ rfl)

end Database

namespace WardenService

variable {svc : WardenService d Hash} {clock : Reading} {db db' : Database d Hash}

theorem Statement.residualSum (h : svc.Statement clock db db') (hsum : db.ResidualSum) :
    db'.ResidualSum := by
  cases h with
  | leases written =>
    simp only [Database.writeLeases, bind_ok_iff, pure_ok_iff] at written
    obtain ⟨tally, htally, rfl⟩ := written
    exact Database.residualSum_iff_exact.mpr
      ((Database.residualSum_iff_exact.mp hsum).write htally)
  | audit => exact hsum
  | elsewhere same =>
    have hleases : db'.leases = db.leases := congrArg (fun x => x.2.1) same
    have htotal : db'.leaseResidual = db.leaseResidual := congrArg (fun x => x.2.2.1) same
    intro i
    rw [hleases, htotal]
    exact hsum i

theorem Transacts.residualSum (h : svc.Transacts clock db db') (hsum : db.ResidualSum) :
    db'.ResidualSum := by
  induction h with
  | refl => exact hsum
  | tail _ statement ih => exact statement.residualSum ih

end WardenService

/-- In every committed state, and after every statement of a transaction, the running total is the
sum of the lease rows, so that the check that reads it comes out as the one that scans the rows; and
every operation is made of such statements. -/
theorem residual_total_exact {svc : WardenService d Hash} {envelope : Envelope d}
    {db₀ db : Database d Hash} {calls : List (Call d)} (hinit : (svc.system envelope).Init db₀)
    (run : (svc.system envelope).Run db₀ calls db) :
    (∀ i, envelope.initialLocalShare i + db.transferredIn i =
      db.freePool i + db.leaseResidual i + db.consumed i + db.transferredOut i) ∧
    (∀ i, db.leaseResidual i = db.leases.sumOf fun _ lease => lease.residual i) ∧
    (∀ clock db₁, svc.Transacts clock db db₁ →
      (∀ i, db₁.leaseResidual i = db₁.leases.sumOf fun _ lease => lease.residual i) ∧
      db₁.assertLocalConservation = db₁.reconcileLocalConservation) ∧
    ∀ clock operation db' out, svc.exec clock operation db = .ok (db', out) →
      svc.Transacts clock db db' := by
  have haccounts := accounts_of_run hinit run
  have henvelope : db.envelope = envelope := congrArg (fun x => x.2.2) haccounts.fixed
  refine ⟨fun i => ?_, haccounts.residualSum, fun clock db₁ htransacts => ?_,
    fun clock operation db' out => WardenService.exec_transacts (db', out)⟩
  · rw [← henvelope, haccounts.conserved.identity i]
    omega
  · have hsum : db₁.ResidualSum := htransacts.residualSum haccounts.residualSum
    exact ⟨hsum, hsum.reconcile_eq.symm⟩

open Sample

def Sample.oneLease : Database 1 ℕ × List (Call 1) :=
  (service "a").play (genesis "a" 6) [(exactly 1, registerPolicy),
    (exactly 2, .issueRoot "root" "line" (rootRequest 5))]

/-- A transaction that has deleted the lease, and does not pass either check. -/
theorem residual_total_exact_deleted : ∃ db₁,
    oneLease.1.writeLeases (.delete "root") = .ok db₁ ∧
      oneLease.1.leaseResidual 0 = 5 ∧ db₁.leaseResidual 0 = 0 ∧
      db₁.assertLocalConservation.toOption = none ∧
      db₁.assertLocalConservation = db₁.reconcileLocalConservation := by
  have hrun : ((service "a").system (envelope 6)).Run (genesis "a" 6)
    oneLease.2 oneLease.1 := (service "a").play_run (envelope 6) _ _
  cases hdelete : oneLease.1.writeLeases (.delete "root") with
  | error e =>
    have hok : (oneLease.1.writeLeases (.delete "root")).toOption.isSome = true := by
      decide +kernel
    rw [hdelete] at hok
    cases hok
  | ok db₁ =>
    have hfacts : ∀ db' ∈ (oneLease.1.writeLeases (.delete "root")).toOption,
        oneLease.1.leaseResidual 0 = 5 ∧ db'.leaseResidual 0 = 0 ∧
          db'.assertLocalConservation.toOption = none := by decide +kernel
    rw [hdelete] at hfacts
    obtain ⟨hbefore, hafter, hrefused⟩ := hfacts db₁ rfl
    exact ⟨db₁, rfl, hbefore, hafter, hrefused,
      ((residual_total_exact rfl hrun).2.2.1 (exactly 3) db₁ (.single (.leases hdelete))).2⟩

end Lets
