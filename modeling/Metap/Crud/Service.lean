import Metap.Crud.Payload
import Metap.Crud.Record
import Metap.Query.PlanList

/-!
# What the record operations share

Every operation answers with a result or a `ServiceError`: a refusal with its status, code,
message and field errors, or an internal error.  A record leaves the service as a `RecordDto`
after `maskRecordForRead` has dropped what the caller may not read; a permission check sees the
record with the related records that some policy's path reads through (`enrichRecordForActions`).
-/

namespace Metap.Crud

/-- Why an operation did not succeed. -/
inductive ServiceError where
  | refused (status : ℕ) (errorCode : String) (message : Option String)
      (fieldErrors : FieldErrors)
  /-- An unexpected failure; the transport answers 500. -/
  | internal
  deriving DecidableEq, Repr

namespace ServiceError

def err (status : ℕ) (errorCode : String) : ServiceError := .refused status errorCode none []

def withMessage (status : ℕ) (errorCode message : String) : ServiceError :=
  .refused status errorCode (some message) []

def withFieldErrors (status : ℕ) (errorCode : String) (fieldErrors : FieldErrors) :
    ServiceError :=
  .refused status errorCode none fieldErrors

def reasonOf (decision : PermissionDecision) : String :=
  if decision.reason = "" then "forbidden" else decision.reason

def forbidden (decision : PermissionDecision) : ServiceError := err 403 (reasonOf decision)

def forbiddenWithField (decision : PermissionDecision) : ServiceError :=
  if decision.field ≠ "" then
    withFieldErrors 403 (reasonOf decision) [(decision.field, ["forbidden"])]
  else err 403 (reasonOf decision)

end ServiceError

/-- Refuse unless the decision allows. -/
def require (decision : PermissionDecision) (refusal : PermissionDecision → ServiceError) :
    Except ServiceError Unit :=
  if decision.allowed then .ok () else .error (refusal decision)

theorem require_eq_ok {decision : PermissionDecision} {refusal : PermissionDecision → ServiceError}
    : require decision refusal = .ok () ↔ decision.allowed = true := by
  unfold require
  split <;> simp_all

/-- A record as it leaves the service. -/
structure RecordDto where
  id : Uuid
  entity : String
  code : Option String
  status : Option String
  data : JsonObject
  version : ℤ
  createdAt : ℤ
  updatedAt : ℤ
  /-- The display values of related records; only a list fills it. -/
  relatedDisplay : Option (List (String × String)) := none
  deriving DecidableEq

/-- The columns every operation reads of a row. -/
def recordDto (entityName : String) (r : StoredRecord) : RecordDto where
  id := r.id
  entity := entityName
  code := r.code
  status := r.status
  data := r.data
  version := r.version
  createdAt := r.createdAt
  updatedAt := r.updatedAt

/-- Drop what the caller may not read; the columns that mirror a member of the data go with it. -/
def maskRecordForRead (entity : EntityDefinition) (rc : RequestContext)
    (snapshot : PermissionSnapshot) (row : RecordDto) : RecordDto :=
  let filteredData := snapshot.filterReadableFields rc row.data
  let code := if (filteredData.get "code").isSome then row.code else none
  let status :=
    match entity.workflow with
    | some w => if (filteredData.get w.stateField).isSome then row.status else none
    | none => row.status
  { row with data := filteredData, code, status }

/-! ## Who calls -/

/-- What a call knows besides the record: the caller, the entity's policies, the registry, and
the live records of other entities of the caller's tenant. -/
structure CallContext where
  rc : RequestContext
  policies : List PolicyRow
  registry : MetadataRegistry
  related : EntityDefinition → Uuid → Option JsonObject

def CallContext.snapshot (ctx : CallContext) : PermissionSnapshot := .fromRows ctx.policies

section

variable (codec : UuidCodec)

def scopedTenant (rc : RequestContext) : Except ServiceError Uuid :=
  match Query.scopedTenant codec.parse rc with
  | .ok tenant => .ok tenant
  | .error _ => .error .internal

/-- The user of a context, if it has one. -/
def parseUserID (rc : RequestContext) : Except ServiceError (Option Uuid) :=
  if rc.userID = "" then .ok none
  else
    match codec.parse rc.userID with
    | some id => .ok (some id)
    | none => .error .internal

/-- What a reference field of a record refers to: the entity and the identifier. -/
def referenceTarget (ctx : CallContext) (entity : EntityDefinition) (record : JsonObject)
    (fieldName : String) : Option (EntityDefinition × Uuid) := do
  let field ← entity.field? fieldName
  guard (field.kind = .reference)
  let refEntity ← field.refEntity
  let refRaw ← record.get fieldName
  let refID ← refRaw.decodeString.bind codec.parse
  let refEntityDef ← ctx.registry.getEntity refEntity
  return (refEntityDef, refID)

/-- The related record behind a reference field, when there is one to read. -/
def relatedRecord (ctx : CallContext) (entity : EntityDefinition) (record : JsonObject)
    (fieldName : String) : Option JsonObject :=
  (referenceTarget codec ctx entity record fieldName).bind fun (refEntityDef, refID) =>
    ctx.related refEntityDef refID

/-- The relation fields that some policy on the actions reads through. -/
def relationFields (ctx : CallContext) (actions : List EntityAction) : List String :=
  (actions.flatMap fun a => requiredRelationFields (ctx.snapshot.getRecordPolicies a)).dedup

/-- The record with each relation that some policy on the actions reads through replaced by the
related record's data. -/
def enrichRecordForActions (ctx : CallContext) (entity : EntityDefinition)
    (actions : List EntityAction) (record : JsonObject) : JsonObject :=
  (relationFields ctx actions).foldl (fun enriched fieldName =>
    match relatedRecord codec ctx entity record fieldName with
    | some data => enriched.set fieldName (.obj data)
    | none => enriched) record

end

end Metap.Crud
