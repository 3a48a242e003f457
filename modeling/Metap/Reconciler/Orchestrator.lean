import Metap.Framework.KeyedTable
import Metap.Framework.Uuid

/-!
# The queue of schema deployments

For every tenant and entity a row says which version of the entity is desired and which one has been
applied; a row with an unapplied version is work to be done.  Workers claim such rows, reconcile
the schema and record how it went.  Every function here is one statement on the table.
-/

namespace Metap.Reconciler

/-! ## Rows -/

inductive DeploymentState where
  | pending | running | done | failed | blocked
  deriving DecidableEq, Repr

/-- Whether a failure is retried, or needs its data or the metadata fixed. -/
inductive FailureClass where
  | transient | dataError | fatal
  deriving DecidableEq, Repr

structure Deployment where
  tenantID : Uuid
  entityName : String
  desiredVersion : ℤ
  appliedVersion : Option ℤ := none
  status : DeploymentState := .pending
  failureClass : Option FailureClass := none
  attempts : ℤ := 0
  lastError : Option String := none
  priorityTier : ℤ := 0
  leaseWorker : Option String := none
  leaseHeartbeat : Option ℤ := none
  updatedAt : ℤ
  deriving DecidableEq, Repr

namespace Deployment

def key (d : Deployment) : Uuid × String := (d.tenantID, d.entityName)

/-- A version is desired that is newer than the applied one. -/
def unapplied (d : Deployment) : Bool := d.appliedVersion.getD 0 < d.desiredVersion

/-- What a caller that waits for the deployment looks at. -/
def ready (d : Deployment) : Bool :=
  d.status = .done && d.appliedVersion.any fun v => d.desiredVersion ≤ v

end Deployment

abbrev Deployments := KeyedTable Deployment.key

/-! ## Enqueueing -/

/-- The row asks for another version, with a clean slate. -/
def Deployment.enqueued (desiredVersion now : ℤ) (d : Deployment) : Deployment :=
  { d with
    desiredVersion
    status := .pending
    attempts := 0
    failureClass := none
    lastError := none
    updatedAt := now }

/-- Insert a row, or bump the row that is there to a newer version. -/
def enqueueDeployment (t : Deployments) (now : ℤ) (tenantID : Uuid) (entityName : String)
    (desiredVersion : ℤ) : Deployments :=
  match h : t.find (tenantID, entityName) with
  | none => t.insert { tenantID, entityName, desiredVersion, updatedAt := now } h
  | some _ =>
    t.update (fun d => d.key = (tenantID, entityName) && d.desiredVersion < desiredVersion)
      (.enqueued desiredVersion now) fun _ => rfl

/-- The rows of a cohort in one statement, which fails on a row it has changed already. -/
def enqueueCohort (now : ℤ) (entityName : String) (packVersion : ℤ) :
    List Uuid → List Uuid → Deployments → Option Deployments
  | _, [], t => some t
  | changed, tenantID :: cohort, t =>
    if changed.contains tenantID then none
    else
      let untouched := (t.find (tenantID, entityName)).any fun d => packVersion ≤ d.desiredVersion
      enqueueCohort now entityName packVersion (if untouched then changed else tenantID :: changed)
        cohort (enqueueDeployment t now tenantID entityName packVersion)

/-! ## Claiming -/

structure ClaimedEntity where
  tenantID : Uuid
  entityName : String
  desiredVersion : ℤ
  deriving DecidableEq, Repr

def ClaimedEntity.key (c : ClaimedEntity) : Uuid × String := (c.tenantID, c.entityName)

def Deployment.claim (d : Deployment) : ClaimedEntity :=
  ⟨d.tenantID, d.entityName, d.desiredVersion⟩

/-- An hour, in seconds. -/
def leaseStaleAfter : ℤ := 3600

/-- The lease was taken before the given time; a lease that was never taken does not count. -/
def Deployment.stale (d : Deployment) (staleBefore : ℤ) : Bool :=
  d.leaseHeartbeat.any fun t => t < staleBefore

/-- A row that may be claimed. -/
def Deployment.due (d : Deployment) (staleBefore maxAttempts : ℤ) (entityNameFilter : String) :
    Bool :=
  d.unapplied &&
    (d.status = .pending || d.status = .failed || (d.status = .running && d.stale staleBefore)) &&
    d.attempts < maxAttempts && (entityNameFilter = "" || d.entityName = entityNameFilter)

/-- Fresh work before retries, then by tier and age. -/
def Deployment.before (d d' : Deployment) : Bool :=
  toLex (decide (d.status = .failed), toLex (d.priorityTier, d.updatedAt)) ≤
    toLex (decide (d'.status = .failed), toLex (d'.priorityTier, d'.updatedAt))

def Deployment.leased (workerID : String) (now : ℤ) (d : Deployment) : Deployment :=
  { d with
    status := .running
    leaseWorker := some workerID
    leaseHeartbeat := some now
    attempts := d.attempts + 1
    updatedAt := now }

/-- The rows a call picks; rows that another call has locked are skipped. -/
def pickDue (t : Deployments) (now : ℤ) (entityNameFilter : String) (maxAttempts : ℤ) (limit : ℕ)
    (locked : List (Uuid × String)) : List Deployment :=
  ((t.rows.filter fun d =>
    d.due (now - leaseStaleAfter) maxAttempts entityNameFilter && !locked.contains d.key).mergeSort
      Deployment.before).take limit

def claimDue (t : Deployments) (now : ℤ) (workerID entityNameFilter : String) (maxAttempts : ℤ)
    (limit : ℕ) (locked : List (Uuid × String)) : Deployments × List ClaimedEntity :=
  let picked := pickDue t now entityNameFilter maxAttempts limit locked
  (t.update (fun d => (picked.map Deployment.key).contains d.key) (.leased workerID now)
    fun _ => rfl, picked.map Deployment.claim)

variable {d : Deployment} {entityNameFilter : String} {maxAttempts : ℤ} {t : Deployments}

theorem due_of_mem_pickDue {now : ℤ} {limit : ℕ} {locked : List (Uuid × String)}
    (h : d ∈ pickDue t now entityNameFilter maxAttempts limit locked) :
    d ∈ t.rows ∧ d.due (now - leaseStaleAfter) maxAttempts entityNameFilter = true := by
  have hmem := List.mem_of_mem_take h
  rw [List.mem_mergeSort, List.mem_filter, Bool.and_eq_true] at hmem
  exact ⟨hmem.1, hmem.2.1⟩

/-- A row whose key is picked is picked. -/
theorem mem_pickDue_of_key {now : ℤ} {limit : ℕ} {locked : List (Uuid × String)} (hd : d ∈ t.rows)
    (h : ((pickDue t now entityNameFilter maxAttempts limit locked).map
      Deployment.key).contains d.key = true) :
    d ∈ pickDue t now entityNameFilter maxAttempts limit locked := by
  rw [List.contains_iff_mem] at h
  obtain ⟨d', hd', hkey⟩ := List.mem_map.mp h
  rwa [← List.inj_on_of_nodup_map t.nodup (due_of_mem_pickDue hd').1 hd hkey]

/-! ## Recording -/

/-- An error with the state code of the database, if one is in its chain. -/
structure ReconcileError where
  code : Option String
  text : String
  deriving DecidableEq, Repr

def classifyError (err : ReconcileError) : FailureClass :=
  match err.code with
  | none => .fatal
  | some code =>
    if ["40001", "40P01", "55P03", "53300"].contains code then .transient
    else if ["23503", "23505", "23514", "22P02", "22003"].contains code then .dataError
    else .fatal

def Deployment.succeeded (appliedVersion now : ℤ) (d : Deployment) : Deployment :=
  { d with
    status := .done
    appliedVersion := some appliedVersion
    failureClass := none
    lastError := none
    leaseWorker := none
    updatedAt := now }

def recordSuccess (t : Deployments) (now : ℤ) (tenantID : Uuid) (entityName : String)
    (appliedVersion : ℤ) : Deployments :=
  t.update (fun d => d.key = (tenantID, entityName)) (.succeeded appliedVersion now) fun _ => rfl

/-- Only a transient failure is left to be retried. -/
def Deployment.failedWith (err : ReconcileError) (now : ℤ) (d : Deployment) : Deployment :=
  { d with
    status := if classifyError err = .transient then .failed else .blocked
    failureClass := some (classifyError err)
    lastError := some err.text
    leaseWorker := none
    updatedAt := now }

def recordFailure (t : Deployments) (now : ℤ) (tenantID : Uuid) (entityName : String)
    (err : ReconcileError) : Deployments :=
  t.update (fun d => d.key = (tenantID, entityName)) (.failedWith err now) fun _ => rfl

end Metap.Reconciler
