import Metap.Framework.KeyedTable
import Metap.Permission.Service

/-!
# The policy table

Policies are rows of one table, under an identifier, each for one entity of one tenant.  The
store's queries are selections from it: the entity-level policies of an action, all policies of an
entity, and the policies that an explanation goes through.
-/

namespace Metap

/-- A row of the policy table. -/
structure StoredPolicy extends PolicyRow where
  id : Uuid
  tenantID : Uuid
  entity : String
  createdBy : Option Uuid := none

abbrev PolicyTable := KeyedTable StoredPolicy.id

/-- The policies of some rows. -/
def policiesOf (rows : List StoredPolicy) : List PolicyRow := rows.map StoredPolicy.toPolicyRow

inductive PolicySubject where
  | context | record
  deriving DecidableEq, Repr

def PolicySubject.string : PolicySubject → String
  | context => "context"
  | record => "record"

/-- What narrows the policies of an explanation; an empty field is none. -/
structure ExplainOptions where
  field : String := ""
  subject : Option PolicySubject := none

namespace PolicyTable

variable (t : PolicyTable) (tenantID : Uuid) (entity : String)

def loadAllPolicies : List StoredPolicy :=
  t.rows.filter fun r => r.tenantID = tenantID && r.entity = entity

/-- The policies of an entity for one action, without a field, on one subject. -/
def entityPolicies (action subject : String) : List StoredPolicy :=
  t.rows.filter fun r => r.tenantID = tenantID && r.entity = entity && r.action = action &&
    r.field = "" && r.subject = subject

def findContextPolicies (action : String) : List StoredPolicy :=
  t.entityPolicies tenantID entity action "context"

def findExplainPolicies (action : String) (opts : ExplainOptions) : List StoredPolicy :=
  if opts.field ≠ "" then
    t.rows.filter fun r => r.tenantID = tenantID && r.entity = entity && r.action = action &&
      r.field = opts.field
  else t.entityPolicies tenantID entity action (opts.subject.getD .context).string

/-- The table as the store that the permission service asks. -/
def store : PolicyStore where
  findContextPolicies tenantID entity action :=
    some (policiesOf (t.findContextPolicies tenantID entity action))

/-- The snapshot of an entity's policies. -/
def snapshot : PermissionSnapshot := .fromRows (policiesOf (t.loadAllPolicies tenantID entity))

theorem policiesOf_entityPolicies (action subject : String) :
    policiesOf (t.entityPolicies tenantID entity action subject) =
      ((policiesOf (t.loadAllPolicies tenantID entity)).filter fun row =>
        row.field = "" && row.subject = subject).filter fun row => row.action = action := by
  simp only [policiesOf, entityPolicies, loadAllPolicies, List.filter_map, List.filter_filter]
  refine congrArg _ (List.filter_congr fun r _ => ?_)
  simp only [Function.comp_apply]
  grind

theorem getContextPolicies_snapshot (action : String) :
    (t.snapshot tenantID entity).getContextPolicies action =
      policiesOf (t.findContextPolicies tenantID entity action) :=
  (t.policiesOf_entityPolicies tenantID entity action "context").symm

theorem getRecordPolicies_snapshot (action : EntityAction) :
    (t.snapshot tenantID entity).getRecordPolicies action =
      policiesOf (t.entityPolicies tenantID entity action.string "record") :=
  (t.policiesOf_entityPolicies tenantID entity action.string "record").symm

end PolicyTable

end Metap
