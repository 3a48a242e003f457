import Metap.Permission.Condition

/-!
# The permission snapshot

`PermissionSnapshot` is the batch of an entity's policies loaded once for one call.  It answers
the three finer questions of a request: which fields of a record the caller may read, which it
may write, and whether the caller may take an action on this record at all.  Field and record
policies are allow-by-default: they restrict only where one exists.
-/

namespace Metap

/-! ## Relations a condition reads through -/

/-- The reference field a dotted path starts from; `$` paths start from none. -/
def relationFieldOf (attr : String) : Option String :=
  if Strings.hasPrefix attr "$" then none else (Strings.cut attr '.').map Prod.fst

mutual

/-- The relation fields of a condition, each once, after those already found. -/
def collectRelationFields (out : List String) : PolicyCondition → List String
  | .attribute attr _ _ =>
    match relationFieldOf attr with
    | some field => if out.contains field then out else out ++ [field]
    | none => out
  | .all cs => collectRelationFieldsAll out cs
  | .any cs => collectRelationFieldsAll out cs

def collectRelationFieldsAll (out : List String) : List PolicyCondition → List String
  | [] => out
  | c :: cs => collectRelationFieldsAll (collectRelationFields out c) cs

end

/-- Every relation field a dotted path of the policies' conditions starts from. -/
def requiredRelationFields (policies : List PolicyRow) : List String :=
  policies.foldl (fun out p =>
    match p.condition with
    | some c => collectRelationFields out c
    | none => out) []

/-! ## The snapshot -/

structure PermissionSnapshot where
  fieldPolicies : List PolicyRow
  recordPolicies : List PolicyRow
  contextPolicies : List PolicyRow

namespace PermissionSnapshot

/-- Sort the policies of an entity into the snapshot's three groups. -/
def fromRows (rows : List PolicyRow) : PermissionSnapshot where
  fieldPolicies := rows.filter fun row => row.field ≠ ""
  recordPolicies := rows.filter fun row => row.field = "" && row.subject = "record"
  contextPolicies := rows.filter fun row => row.field = "" && row.subject = "context"

def getRecordPolicies (s : PermissionSnapshot) (action : EntityAction) : List PolicyRow :=
  s.recordPolicies.filter fun row => row.action = action.string

def getContextPolicies (s : PermissionSnapshot) (action : String) : List PolicyRow :=
  s.contextPolicies.filter fun row => row.action = action

/-- Allow on an allow verdict, forbid otherwise. -/
def verdictDecision : PolicyVerdict → PermissionDecision
  | .allow => .allow
  | _ => .forbidden

/-- The entity-level answer: scope first, then the admin bypass, then the policies. -/
def canPerformEntityAction (s : PermissionSnapshot) (ctx : RequestContext)
    (entityName : String) (action : EntityAction) : PermissionDecision :=
  if !ctx.scopePermits entityName action then .forbidden
  else if ctx.isAdmin then .allow
  else verdictDecision (evaluatePolicies (s.getContextPolicies action.string) ctx none)

/-- The entity-level answer for one workflow action: a policy on the plain `transition` action
covers every action. -/
def canTransitionAction (s : PermissionSnapshot) (ctx : RequestContext)
    (entityName action : String) : PermissionDecision :=
  if !ctx.scopePermits entityName .transition then .forbidden
  else if ctx.isAdmin then .allow
  else
    verdictDecision (evaluatePolicies
      (s.getContextPolicies "transition" ++ s.getContextPolicies ("transition:" ++ action))
      ctx none)

/-- The field policies on one field for one action. -/
def policiesOnField (s : PermissionSnapshot) (action field : String) : List PolicyRow :=
  s.fieldPolicies.filter fun p => p.action = action && p.field = field && p.field ≠ ""

/-- Whether the field policies let the caller read a field of a record. -/
def fieldReadable (s : PermissionSnapshot) (ctx : RequestContext) (record : JsonObject)
    (field : String) : Bool :=
  ctx.isAdmin || (s.policiesOnField "read" field).isEmpty ||
    evaluatePolicies (s.policiesOnField "read" field) ctx (some (.obj record)) = .allow

/-- The record with the fields the caller may not read left out. -/
def filterReadableFields (s : PermissionSnapshot) (ctx : RequestContext)
    (record : JsonObject) : JsonObject :=
  record.filter fun e => s.fieldReadable ctx record e.1

def writableFields (s : PermissionSnapshot) (ctx : RequestContext)
    (allFieldNames : List String) (existingRecord : Option JsonObject) : List String :=
  if ctx.isAdmin then allFieldNames
  else
    allFieldNames.filter fun field =>
      (s.policiesOnField "write" field).isEmpty ||
        evaluatePolicies (s.policiesOnField "write" field) ctx (existingRecord.map .obj) = .allow

def assertWritableFields (s : PermissionSnapshot) (ctx : RequestContext)
    (payloadFields : List String) (existingRecord : Option JsonObject) : PermissionDecision :=
  if ctx.isAdmin then .allow
  else
    let writable := s.writableFields ctx payloadFields existingRecord
    match payloadFields.find? fun f => !writable.contains f with
    | some f => .forbiddenField f
    | none => .allow

/-- Whether the record policies let the caller take an action on a record. -/
def canPerformRecordCondition (s : PermissionSnapshot) (ctx : RequestContext)
    (record : JsonObject) (action : EntityAction) : PermissionDecision :=
  let recordPolicies := s.getRecordPolicies action
  if ctx.isAdmin || recordPolicies.isEmpty then .allow
  else verdictDecision (evaluatePolicies recordPolicies ctx (some (.obj record)))

theorem verdictDecision_allowed {v : PolicyVerdict} :
    (verdictDecision v).allowed = true ↔ v = .allow := by
  cases v <;> simp [verdictDecision, PermissionDecision.allow, PermissionDecision.forbidden]

theorem canPerformRecordCondition_allowed (s : PermissionSnapshot) (ctx : RequestContext)
    (record : JsonObject) (action : EntityAction) :
    (s.canPerformRecordCondition ctx record action).allowed = true ↔
      ctx.isAdmin = true ∨ s.getRecordPolicies action = [] ∨
        evaluatePolicies (s.getRecordPolicies action) ctx (some (.obj record)) = .allow := by
  unfold canPerformRecordCondition
  by_cases hadmin : ctx.isAdmin = true
  · simp [hadmin, PermissionDecision.allow]
  · by_cases hnil : s.getRecordPolicies action = []
    · simp [hnil, PermissionDecision.allow]
    · simp [hadmin, hnil, verdictDecision_allowed]

theorem get_filterReadableFields (s : PermissionSnapshot) (ctx : RequestContext)
    (record : JsonObject) (k : String) : (s.filterReadableFields ctx record).get k =
      if s.fieldReadable ctx record k then JsonObject.get record k else none :=
  JsonObject.get_filter (s.fieldReadable ctx record) record k

end PermissionSnapshot

end Metap
