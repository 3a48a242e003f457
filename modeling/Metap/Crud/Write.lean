import Metap.Crud.Service
import Metap.Framework.KeyedTable
import Metap.Workflow.Workflow

/-!
# Create, update, transition and delete

The last three run in two transactions.  The first loads the record; everything is checked
against what it loaded, and the new data is merged from it (`updatePatch`, `transitionPatch`,
`deletePatch`).  The second writes, on the condition that the row has the version the caller
expects (`commit`).  Nothing compares the version that was loaded with the one expected.

A database that fails is not modelled; a violated unique index is, by the name the database
reports.
-/

namespace Metap.Crud

open Builder

/-- What the record operations share over one entity: texts of identifiers and numbers, the
columns a trigger fills from the data, and the unique index a row would violate. -/
structure Platform where
  codec : UuidCodec
  printer : Printer
  columnsOf : JsonObject → String → Option Sql.Value
  violates : List StoredRecord → StoredRecord → Option String

/-- An entity's table and the ledger of workflow events. -/
structure Database where
  records : KeyedTable StoredRecord.id
  events : List Workflow.WorkflowEvent := []

/-- What is done to an existing record. -/
inductive Operation where
  | update (rawData : JsonObject)
  | transition (action : String) (payload : Option JsonObject)
  | delete

def Operation.action : Operation → EntityAction
  | .update _ => .update
  | .transition _ _ => .transition
  | .delete => .delete

/-- A call on a record, with the version the client expects. -/
structure Call where
  ctx : CallContext
  id : Uuid
  expectedVersion : ℤ
  op : Operation

/-- What the second transaction writes. -/
inductive Patch where
  | update (data : JsonObject) (code : Option String) (userID : Option Uuid)
  | transition (action fromState toState : String) (data : JsonObject) (userID : Option Uuid)
  | delete (userID : Option Uuid)

/-- Whatever the database reports, the caller is told what collided. -/
def uniqueViolation (entity : EntityDefinition) (constraintName : String) : ServiceError :=
  let pre := "uniq_" ++ entity.name.map (fun c => if c = '.' then '_' else c) ++ "_"
  match entity.uniqueConstraints.find? fun c =>
      pre ++ "_".intercalate c.fields = constraintName with
  | some constraint =>
    .withFieldErrors 409 "unique_violation" (constraint.fields.map fun f =>
      (f, ["A record with this combination of values already exists."]))
  | none =>
    match Strings.cutPrefix constraintName pre with
    | some field =>
      .withFieldErrors 409 "unique_violation"
        [(field, ["A record with this value already exists."])]
    | none =>
      .withMessage 409 "unique_violation"
        ("A unique constraint was violated on \"" ++ entity.name ++ "\".")

/-- A value, or the refusal when there is none. -/
def orRefuse {α : Type} (refusal : ServiceError) : Option α → Except ServiceError α
  | some a => .ok a
  | none => .error refusal

/-- Refuse with the message of a condition that failed. -/
def refuseIf (errorCode : String) : Option String → Except ServiceError Unit
  | some message => .error (.withMessage 422 errorCode message)
  | none => .ok ()

/-- Refuse a payload with field errors. -/
def validated : Except FieldErrors JsonObject → Except ServiceError JsonObject
  | .ok data => .ok data
  | .error errs => .error (.withFieldErrors 400 "validation_failed" errs)

def rejectNamed : FieldErrors → Except ServiceError Unit
  | [] => .ok ()
  | errs => .error (.withFieldErrors 400 "validation_failed" errs)

section

variable (platform : Platform) (entity : EntityDefinition)

/-! ## The first transaction and the checks -/

/-- The live record of a tenant. -/
def fetchExisting (db : Database) (id tenantID : Uuid) : Option StoredRecord :=
  (db.records.find id).filter fun r => r.tenantID = tenantID && !r.deleted

/-- The entity-level decision. -/
def canPerformOperation (ctx : CallContext) : Operation → PermissionDecision
  | .transition action _ => ctx.snapshot.canTransitionAction ctx.rc entity.name action
  | op => ctx.snapshot.canPerformEntityAction ctx.rc entity.name op.action

/-- The record-level decision, on the record and what its policies read through it. -/
def checkRecord (ctx : CallContext) (action : EntityAction) (existing : JsonObject) :
    Except ServiceError Unit :=
  require (ctx.snapshot.canPerformRecordCondition ctx.rc
    (enrichRecordForActions platform.codec ctx entity [action] existing) action) .forbidden

/-- The state an update leaves a record in is the one it has. -/
def keepState (existing merged : JsonObject) : JsonObject :=
  match entity.workflow with
  | some w =>
    match existing.get w.stateField with
    | some state => merged.set w.stateField state
    | none => merged
  | none => merged

def updatePatch (ctx : CallContext) (existing : StoredRecord) (rawData : JsonObject) :
    Except ServiceError Patch := do
  checkRecord platform entity ctx .update existing.data
  rejectNamed (rejectSystemFields entity rawData)
  require (ctx.snapshot.assertWritableFields ctx.rc (JsonObject.keys rawData) existing.data)
    .forbiddenWithField
  let merged := keepState entity existing.data (existing.data.merge rawData)
  let data ← validated (validatePayload platform.codec entity merged)
  let data := recomputeFields platform.printer entity data
  let userID ← parseUserID platform.codec ctx.rc
  return .update data (codeOf data) userID

/-- The data a transition's payload is merged into. -/
def mergePayload (ctx : CallContext) (existing : JsonObject) :
    Option JsonObject → Except ServiceError JsonObject
  | none => .ok existing
  | some payload => do
    require (ctx.snapshot.assertWritableFields ctx.rc (JsonObject.keys payload) existing)
      .forbiddenWithField
    return existing.merge payload

/-- A transition neither rejects system fields nor recomputes computed ones. -/
def transitionPatch (ctx : CallContext) (existing : StoredRecord) (actors : Workflow.Actors)
    (action : String) (payload : Option JsonObject) : Except ServiceError Patch := do
  checkRecord platform entity ctx .transition existing.data
  let w ← orRefuse (.err 400 "no_workflow") entity.workflow
  let fromState ← orRefuse (.err 409 "invalid_transition")
    ((existing.data.get w.stateField).bind Json.decodeString)
  let t ← orRefuse (.err 409 "invalid_transition")
    (Workflow.findTransition entity action fromState)
  refuseIf "guard_failed"
    (Workflow.runGuard t (Workflow.withWorkflowContext existing.data actors) ctx.rc)
  let merged ← mergePayload ctx existing.data payload
  let nextData ← validated (validatePayload platform.codec entity
    (merged.set w.stateField (.str t.target)))
  refuseIf "validator_failed"
    (Workflow.runValidator t (Workflow.withWorkflowContext nextData actors) ctx.rc)
  let nextData := Workflow.applySetFields t nextData ctx.rc
  let userID ← parseUserID platform.codec ctx.rc
  return .transition action fromState t.target nextData userID

def deletePatch (ctx : CallContext) (existing : StoredRecord) : Except ServiceError Patch := do
  checkRecord platform entity ctx .delete existing.data
  let userID ← parseUserID platform.codec ctx.rc
  return .delete userID

/-- Everything between the two transactions. -/
def prepare (call : Call) (existing : StoredRecord) (actors : Workflow.Actors) :
    Except ServiceError Patch :=
  match call.op with
  | .update rawData => updatePatch platform entity call.ctx existing rawData
  | .transition action payload =>
    transitionPatch platform entity call.ctx existing actors action payload
  | .delete => deletePatch platform entity call.ctx existing

/-- The actors the first transaction of a call reads: only a transition asks for them, and only
when some guard or validator does. -/
def loadActors (db : Database) (call : Call) (tenantID : Uuid) : Workflow.Actors :=
  match call.op with
  | .transition _ _ =>
    if Workflow.usesWorkflowContext entity then
      Workflow.lastActors platform.codec db.events tenantID entity.name call.id
    else []
  | _ => []

/-- A call between its two transactions: the row it loaded and what it computed from it. -/
structure Pending where
  call : Call
  tenantID : Uuid
  base : StoredRecord
  actors : Workflow.Actors
  patch : Patch
  prepared : prepare platform entity call base actors = .ok patch

/-- The call up to its write. -/
def load (db : Database) (call : Call) : Except ServiceError (Pending platform entity) := do
  let tenantID ← scopedTenant platform.codec call.ctx.rc
  require (canPerformOperation entity call.ctx call.op) .forbidden
  let base ← orRefuse (.err 404 "record_not_found") (fetchExisting db call.id tenantID)
  let actors := loadActors platform entity db call tenantID
  match h : prepare platform entity call base actors with
  | .ok patch => .ok { call, tenantID, base, actors, patch, prepared := h }
  | .error e => .error e

/-! ## The second transaction -/

/-- A row that still refers to a record. -/
structure ReferencingRecordHit where
  entity : String
  field : String
  id : Uuid
  deriving DecidableEq

/-- The identifiers of the hits, by entity and field. -/
def groupHits (codec : UuidCodec) (hits : List ReferencingRecordHit) : FieldErrors :=
  let key := fun (hit : ReferencingRecordHit) => hit.entity ++ "." ++ hit.field
  (hits.map key).dedup.map fun k =>
    (k, (hits.filter fun hit => key hit = k).map fun hit => codec.format hit.id)

/-- What the second transaction draws and finds elsewhere. -/
structure CommitEnv where
  now : ℤ
  eventID : Uuid
  referencing : List ReferencingRecordHit := []

/-- System fields keep what is stored now. -/
def keepSystemFields (stored data : JsonObject) : JsonObject :=
  JsonObject.merge (data.filter fun e => !(systemFieldNames entity).contains e.1)
    (stored.filter fun e => (systemFieldNames entity).contains e.1)

/-- The row a patch makes of a row. -/
def applyPatch (now : ℤ) (row : StoredRecord) : Patch → StoredRecord
  | .update data code userID =>
    let data := keepSystemFields entity row.data data
    { row with
      data, code, version := row.version + 1, updatedAt := now, updatedBy := userID
      columns := platform.columnsOf data }
  | .transition _ _ toState data userID =>
    { row with
      data, status := some toState, version := row.version + 1, updatedAt := now
      updatedBy := userID, columns := platform.columnsOf data }
  | .delete userID =>
    { row with deleted := true, version := row.version + 1, updatedAt := now, updatedBy := userID }

/-- The event a transition appends to the ledger. -/
def eventOf (p : Pending platform entity) (env : CommitEnv) : List Workflow.WorkflowEvent :=
  match p.patch with
  | .transition action fromState toState _ userID =>
    [{ id := env.eventID, tenantID := p.tenantID, entity := entity.name, recordID := p.call.id
       action, fromState, toState, actor := userID, createdAt := env.now }]
  | _ => []

/-- Whether something still refers to a record that is to be deleted. -/
def checkReferences (env : CommitEnv) (patch : Patch) : Except ServiceError Unit :=
  match patch, env.referencing with
  | .delete _, first :: rest =>
    .error (.refused 409 "record_referenced"
      (some ("This record is referenced by \"" ++ first.field ++ "\" on \"" ++ first.entity ++
        "\" and cannot be deleted."))
      (groupHits platform.codec (first :: rest)))
  | _, _ => .ok ()

/-- Only an update names the index it violates. -/
def checkUnique (others : List StoredRecord) (row : StoredRecord) (patch : Patch) :
    Except ServiceError Unit :=
  match platform.violates others row, patch with
  | none, _ => .ok ()
  | some name, .update _ _ _ => .error (uniqueViolation entity name)
  | some _, _ => .error .internal

/-- The row the conditional update matches. -/
def matchingRow (db : Database) (p : Pending platform entity) : Option StoredRecord :=
  (db.records.find p.call.id).filter fun r =>
    r.tenantID = p.tenantID && decide (r.version = p.call.expectedVersion) && !r.deleted

/-- A committed write: the call, what it loaded, and the row it replaced and wrote. -/
structure Write where
  pending : Pending platform entity
  replaced : StoredRecord
  /-- The actors as they were when the row was replaced. -/
  actors : Workflow.Actors
  written : StoredRecord

def commit (db : Database) (p : Pending platform entity) (env : CommitEnv) :
    Except ServiceError (Write platform entity × Database) := do
  checkReferences platform env p.patch
  let row ← orRefuse (.err 409 "version_conflict") (matchingRow platform entity db p)
  let written := applyPatch platform entity env.now row p.patch
  checkUnique platform entity (db.records.rows.filter fun r => r.id ≠ row.id) written p.patch
  return ({ pending := p, replaced := row, written
            actors := loadActors platform entity db p.call p.tenantID },
    { records := db.records.replace written
      events := db.events ++ eventOf platform entity p env })

/-- What the caller of a committed write is shown. -/
def respond (w : Write platform entity) : RecordDto :=
  maskRecordForRead entity w.pending.call.ctx.rc w.pending.call.ctx.snapshot
    (recordDto entity.name w.written)

/-! ## Create -/

/-- A new record starts in its initial state. -/
def initState (data : JsonObject) : JsonObject :=
  match entity.workflow, Workflow.getInitialStatus entity data with
  | some w, some status =>
    if (data.get w.stateField).isSome then data else data.set w.stateField (.str status)
  | _, _ => data

/-- The row a create inserts, under the identifier the database draws. -/
def createRow (ctx : CallContext) (rawData : JsonObject) (newID : Uuid) (now : ℤ) :
    Except ServiceError StoredRecord := do
  let tenantID ← scopedTenant platform.codec ctx.rc
  require (ctx.snapshot.canPerformEntityAction ctx.rc entity.name .create) .forbidden
  require (ctx.snapshot.assertWritableFields ctx.rc (JsonObject.keys rawData) none)
    .forbiddenWithField
  rejectNamed (rejectSystemFields entity rawData)
  let data ← validated (validatePayload platform.codec entity rawData)
  let data := recomputeFields platform.printer entity data
  let status := Workflow.getInitialStatus entity data
  let data := initState entity data
  let userID ← parseUserID platform.codec ctx.rc
  return { id := newID, tenantID, code := codeOf data, status, data, createdAt := now
           updatedAt := now, createdBy := userID, updatedBy := userID
           columns := platform.columnsOf data }

end

/-! ## What an answer tells -/

section

variable {platform : Platform} {entity : EntityDefinition}

theorem orRefuse_eq_ok {α : Type} {refusal : ServiceError} {o : Option α} {a : α} :
    orRefuse refusal o = .ok a ↔ o = some a := by
  cases o <;> simp [orRefuse]

variable {db : Database}

theorem fetchExisting_eq_some {id tenantID : Uuid} {row : StoredRecord} :
    fetchExisting db id tenantID = some row ↔
      db.records.find id = some row ∧ row.tenantID = tenantID ∧ row.deleted = false := by
  simp [fetchExisting, Option.filter_eq_some_iff]

variable {p : Pending platform entity} {w : Write platform entity}

theorem load_eq_ok {call : Call} (h : load platform entity db call = .ok p) :
    p.call = call ∧ scopedTenant platform.codec call.ctx.rc = .ok p.tenantID ∧
      db.records.find call.id = some p.base ∧ p.base.tenantID = p.tenantID ∧
      p.actors = loadActors platform entity db p.call p.tenantID := by
  unfold load at h
  obtain ⟨tenantID, htenant, h⟩ := except_bind_eq_ok h
  obtain ⟨_, -, h⟩ := except_bind_eq_ok h
  obtain ⟨base, hbase, h⟩ := except_bind_eq_ok h
  obtain ⟨hfind, hbaseTenant, -⟩ := fetchExisting_eq_some.mp (orRefuse_eq_ok.mp hbase)
  dsimp only at h
  split at h
  · cases h
    exact ⟨rfl, htenant, hfind, hbaseTenant, rfl⟩
  · cases h

theorem matchingRow_eq_some {row : StoredRecord} (h : matchingRow platform entity db p = some row) :
    db.records.find p.call.id = some row ∧ (row.tenantID = p.tenantID ∧ row.deleted = false) ∧
      row.version = p.call.expectedVersion := by
  obtain ⟨hfind, hmatch⟩ := Option.filter_eq_some_iff.mp h
  simp only [Bool.and_eq_true, decide_eq_true_eq, Bool.not_eq_true'] at hmatch
  exact ⟨hfind, ⟨hmatch.1.1, hmatch.2⟩, hmatch.1.2⟩

variable {env : CommitEnv}

theorem commit_eq_ok {db' : Database} (h : commit platform entity db p env = .ok (w, db')) :
    db.records.find p.call.id = some w.replaced ∧
      (w.replaced.tenantID = p.tenantID ∧ w.replaced.deleted = false) ∧
        w.replaced.version = p.call.expectedVersion ∧ w.pending = p ∧
      w.actors = loadActors platform entity db p.call p.tenantID ∧
      w.written = applyPatch platform entity env.now w.replaced p.patch ∧
      db' = { records := db.records.replace w.written
              events := db.events ++ eventOf platform entity p env } := by
  unfold commit at h
  obtain ⟨_, -, h⟩ := except_bind_eq_ok h
  obtain ⟨row, hrow, h⟩ := except_bind_eq_ok h
  obtain ⟨_, -, h⟩ := except_bind_eq_ok h
  cases h
  obtain ⟨hfind, htenant, hversion⟩ := matchingRow_eq_some (orRefuse_eq_ok.mp hrow)
  exact ⟨hfind, htenant, hversion, rfl, rfl, rfl, rfl⟩

/-- A delete commits only when its guard found nothing. -/
theorem unreferenced_of_commit {db' : Database} (h : commit platform entity db p env = .ok (w, db'))
    {userID : Option Uuid} (hpatch : p.patch = .delete userID) : env.referencing = [] := by
  unfold commit at h
  obtain ⟨_, hcheck, -⟩ := except_bind_eq_ok h
  rw [hpatch] at hcheck
  cases hreferencing : env.referencing with
  | nil => rfl
  | cons first rest =>
    unfold checkReferences at hcheck
    rw [hreferencing] at hcheck
    cases hcheck

end

end Metap.Crud
