import Metap.Framework.KeyedTable
import Metap.Framework.Uuid

/-!
# The reconcile status of entities

One row for every tenant and entity says whether its schema is being migrated, with a lease for the
process that does it, or has run into an error.
-/

namespace Metap.Reconciler

inductive EntityStatus where
  | active | migrating | error
  deriving DecidableEq, Repr

structure StatusRow where
  tenantID : Uuid
  entityName : String
  status : EntityStatus
  leaseOwner : Option Uuid := none
  leaseExpiresAt : Option ℤ := none
  attempts : ℤ := 0
  lastError : Option String := none
  updatedAt : ℤ
  deriving DecidableEq, Repr

def StatusRow.key (r : StatusRow) : Uuid × String := (r.tenantID, r.entityName)

abbrev Statuses := KeyedTable StatusRow.key

/-- The update of a row by `setStatus`: the attempts and the last error stay. -/
def StatusRow.withStatus (status : EntityStatus) (leaseOwner : Uuid) (leaseExpiresAt : Option ℤ)
    (now : ℤ) (r : StatusRow) : StatusRow :=
  { r with status, leaseOwner := some leaseOwner, leaseExpiresAt, updatedAt := now }

/-- Set the status; only a migration takes a lease, counted from the clock of the process. -/
def setStatus (t : Statuses) (now clock : ℤ) (tenantID : Uuid) (entityName : String)
    (status : EntityStatus) (leaseOwner : Uuid) (leaseTTL : ℤ) : Statuses :=
  let leaseExpiresAt := if status = .migrating then some (clock + leaseTTL) else none
  t.upsert
    { tenantID, entityName, status, leaseOwner := some leaseOwner, leaseExpiresAt,
      updatedAt := now }
    (.withStatus status leaseOwner leaseExpiresAt now) fun _ => rfl

/-- The update of a row by `recordError`: the lease stays. -/
def StatusRow.withError (errMsg : String) (now : ℤ) (r : StatusRow) : StatusRow :=
  { r with
    status := .error, attempts := r.attempts + 1, lastError := some errMsg, updatedAt := now }

def recordError (t : Statuses) (now : ℤ) (tenantID : Uuid) (entityName errMsg : String) :
    Statuses :=
  t.upsert
    { tenantID, entityName, status := .error, attempts := 1, lastError := some errMsg,
      updatedAt := now }
    (.withError errMsg now) fun _ => rfl

/-- Ten minutes, in seconds. -/
def migrationLeaseTTL : ℤ := 600

end Metap.Reconciler
