import Metap.Crud.Write
import Metap.Framework.Sql.Order
import Metap.Query.Confinement

/-!
# List and get

`Service` is the record service of a deployment and `Store` its tables.  A `List` plans a query,
selects one row more than the page holds, makes the cursor of the next page from the last row it
returns, masks every row and then fills in the display values of the records they refer to.  A
`Get` fetches a row, checks it against the record policies, computes what the caller may do with
it and masks it.

Each is cut where the database answers: what is asked (`planPage`), the rows (`fetchPage`,
`findRecord`), and what is made of them (`presentPage`, `presentRecord`).  A database that fails is
not modelled, and a cursor is kept as the data it encodes.
-/

namespace Metap.Crud

/-- The tables, by name. -/
abbrev Store := String → Database

/-- The record service of a deployment: texts, the database's dialect, the metadata and the
policies of each tenant, and what a table's triggers and indexes do. -/
structure Service where
  codec : UuidCodec
  printer : Printer
  pg : Sql.Backend
  readCursor : String → Option Query.Cursor
  formatTime : ℤ → String
  quote : String → String
  registryFor : Uuid → MetadataRegistry
  policiesFor : Uuid → String → List PolicyRow
  columnsOf : EntityDefinition → JsonObject → String → Option Sql.Value
  violates : EntityDefinition → List StoredRecord → StoredRecord → Option String

/-- A page's limit and where the next one starts. -/
structure PageInfo where
  limit : ℤ
  nextCursor : Option Query.Cursor
  deriving DecidableEq

structure ListPage where
  data : List RecordDto
  page : PageInfo
  deriving DecidableEq

structure TransitionAvailability where
  action : String
  available : Bool
  reason : Option String
  deriving DecidableEq, Repr

structure RecordCapabilities where
  writableFields : List String
  canUpdate : Bool
  canDelete : Bool
  transitions : List TransitionAvailability
  deriving DecidableEq, Repr

structure GetResult where
  record : RecordDto
  capabilities : RecordCapabilities
  deriving DecidableEq

/-- An entity a call may work on, for a tenant. -/
structure Opened where
  tenantID : Uuid
  entity : EntityDefinition
  ctx : CallContext

def Service.platform (svc : Service) (entity : EntityDefinition) : Platform where
  codec := svc.codec
  printer := svc.printer
  columnsOf := svc.columnsOf entity
  violates := svc.violates entity

/-- The data of a live record of the tenant. -/
def fetchRelatedData (store : Store) (tenantID : Uuid) (refEntity : EntityDefinition) (id : Uuid) :
    Option JsonObject :=
  (fetchExisting (store refEntity.tableName) id tenantID).map StoredRecord.data

section

variable (svc : Service) (store : Store)

def Service.context (rc : RequestContext) (tenantID : Uuid) (entityName : String) :
    CallContext where
  rc
  policies := svc.policiesFor tenantID entityName
  registry := svc.registryFor tenantID
  related := fetchRelatedData store tenantID

/-- The tenant and the entity of a call. -/
def openEntity (rc : RequestContext) (entityName : String) : Except ServiceError Opened := do
  let tenantID ← scopedTenant svc.codec rc
  let entity ← orRefuse (.err 404 "entity_not_found")
    ((svc.registryFor tenantID).getEntity entityName)
  return { tenantID, entity, ctx := svc.context store rc tenantID entity.name }

/-- An entity the caller may read. -/
def openForRead (rc : RequestContext) (entityName : String) : Except ServiceError Opened := do
  let o ← openEntity svc store rc entityName
  require (o.ctx.snapshot.canPerformEntityAction rc o.entity.name .read) .forbidden
  return o

/-! ## List -/

/-- How a list request that cannot be planned is answered. -/
def listError (e : Query.QueryError) : ServiceError :=
  let message := e.message svc.quote svc.quote
  match e with
  | .invalidCursor => .withMessage 400 "invalid_cursor" message
  | .unknownListView _ => .withMessage 400 "unknown_list_view" message
  | .jql _ => .withMessage 400 "invalid_jql" message
  | .crossRecordConditionInList _ | .unsupportedContainsConditionInList _ =>
    .withMessage 500 "unsupported_policy_condition" message
  | _ => .internal

def planPage (o : Opened) (input : Query.ListInput) :
    Except ServiceError Query.PlannedListQuery :=
  match Query.planList svc.codec.parse svc.readCursor o.ctx.registry o.entity.name input o.ctx.rc
      (o.ctx.snapshot.getRecordPolicies .read) with
  | .ok planned => .ok planned
  | .error e => .error (listError svc e)

/-- One row more than the page holds; a negative limit is an error of the database. -/
def fetchPage (o : Opened) (planned : Query.PlannedListQuery) :
    Except ServiceError (List StoredRecord) :=
  if planned.limit < 0 then .error .internal
  else
    orRefuse .internal (Sql.select svc.pg (fun r => Query.envOf r.row planned.params)
      planned.whereSQL planned.orderBySQL (planned.limit + 1).toNat
      (store o.entity.tableName).records.rows)

/-- The sort value of a row; absent when the member is missing or null. -/
def sortFieldValue (row : RecordDto) (field : String) : Option String :=
  if field = "createdAt" then some (svc.formatTime row.createdAt)
  else if field = "updatedAt" then some (svc.formatTime row.updatedAt)
  else
    match row.data.get field with
    | none | some .null => none
    | some (.str s) => some s
    | some raw =>
      match raw.decodeFloat64, raw.decodeBool with
      | some f, _ => some (formatFloat svc.printer f)
      | none, some b => some (if b then "true" else "false")
      | none, none => some (raw.render ", " ": ")

/-- Where the page after this one starts. -/
def nextCursor (planned : Query.PlannedListQuery) (last : RecordDto) : Query.Cursor where
  field := planned.resolvedSort.field
  value := sortFieldValue svc last planned.resolvedSort.field
  id := svc.codec.format last.id
  dir := planned.resolvedSort.dir

/-- A reference field whose related records are shown by one of their fields. -/
structure DisplayField where
  name : String
  refEntity : String
  displayField : String

/-- Validation gives every reference field its entity. -/
def displayFields (entity : EntityDefinition) : List DisplayField :=
  entity.fields.filterMap fun f =>
    if f.kind = .reference then do
      let refEntity ← f.refEntity
      let displayField ← f.refDisplayField
      return { name := f.name, refEntity, displayField }
    else none

/-- The record a member refers to. -/
def referenceID (data : JsonObject) (fieldName : String) : Option Uuid :=
  (data.get fieldName).bind fun raw => raw.decodeString.bind svc.codec.parse

/-- The related record a display value is read from, if the caller may read its entity. -/
def fetchDisplayed (o : Opened) (field : DisplayField) (id : Uuid) : Option StoredRecord := do
  let ctx := svc.context store o.ctx.rc o.tenantID field.refEntity
  guard (ctx.snapshot.canPerformEntityAction o.ctx.rc field.refEntity .read).allowed
  let refEntityDef ← o.ctx.registry.getEntity field.refEntity
  fetchExisting (store refEntityDef.tableName) id o.tenantID

/-- The display value of a related record: its record policies are asked, its field policies are
not. -/
def displayValue (o : Opened) (field : DisplayField) (id : Uuid) : Option String := do
  let related ← fetchDisplayed svc store o field id
  let ctx := svc.context store o.ctx.rc o.tenantID field.refEntity
  guard (ctx.snapshot.canPerformRecordCondition o.ctx.rc related.data .read).allowed
  let raw ← JsonObject.get related.data field.displayField
  raw.decodeString

/-- The display values of the records a masked row refers to. -/
def hydrateRelatedDisplay (o : Opened) (record : RecordDto) : RecordDto :=
  let display := (displayFields o.entity).filterMap fun field => do
    let id ← referenceID svc record.data field.name
    let value ← displayValue svc store o field id
    return (field.name, value)
  if display.isEmpty then record else { record with relatedDisplay := some display }

/-- The rows of the page, masked. -/
def maskedPage (o : Opened) (planned : Query.PlannedListQuery) (rows : List StoredRecord) :
    List RecordDto :=
  let dtos := rows.map (recordDto o.entity.name)
  let pageDtos := if planned.limit < dtos.length then dtos.take planned.limit.toNat else dtos
  pageDtos.map (maskRecordForRead o.entity o.ctx.rc o.ctx.snapshot)

/-- The cursor of the next page is made of the last row before it is masked. -/
def pageCursor (o : Opened) (planned : Query.PlannedListQuery) (rows : List StoredRecord) :
    Option Query.Cursor :=
  if planned.limit < rows.length then
    ((rows.take planned.limit.toNat).getLast?.map (recordDto o.entity.name)).map
      (nextCursor svc planned)
  else none

/-- The answer to a list request, from the rows the database returned. -/
def presentPage (o : Opened) (planned : Query.PlannedListQuery) (rows : List StoredRecord) :
    ListPage where
  data := (maskedPage o planned rows).map (hydrateRelatedDisplay svc store o)
  page := { limit := planned.limit, nextCursor := pageCursor svc o planned rows }

def list (rc : RequestContext) (entityName : String) (input : Query.ListInput) :
    Except ServiceError ListPage := do
  let o ← openForRead svc store rc entityName
  let planned ← planPage svc o input
  let rows ← fetchPage svc store o planned
  return presentPage svc store o planned rows

/-! ## Get -/

/-- The live record of a get, and the actors its guards may ask for. -/
def findRecord (rc : RequestContext) (entityName : String) (id : Uuid) :
    Except ServiceError (Opened × StoredRecord × Workflow.Actors) := do
  let o ← openForRead svc store rc entityName
  let db := store o.entity.tableName
  let existing ← orRefuse (.err 404 "record_not_found") (fetchExisting db id o.tenantID)
  let actors :=
    if Workflow.usesWorkflowContext o.entity then
      Workflow.lastActors svc.codec db.events o.tenantID o.entity.name id
    else []
  return (o, existing, actors)

end

section

variable (entity : EntityDefinition) (rc : RequestContext) (snapshot : PermissionSnapshot)

/-- Whether a transition from the record's state may be taken, and why not. -/
def transitionAvailability (guardSubject : JsonObject) (transitionDecision : PermissionDecision)
    (t : WorkflowTransition) : TransitionAvailability :=
  if !transitionDecision.allowed then
    { action := t.action, available := false
      reason := if transitionDecision.reason = "" then none else some transitionDecision.reason }
  else
    let actionDecision := snapshot.canTransitionAction rc entity.name t.action
    if !actionDecision.allowed then
      { action := t.action, available := false, reason := some actionDecision.reason }
    else
      let failure := Workflow.runGuard t guardSubject rc
      { action := t.action, available := failure.isNone, reason := failure }

/-- What the caller may do with a record. -/
def computeCapabilities (existing : JsonObject) (actors : Workflow.Actors) :
    RecordCapabilities :=
  let transitionDecision := snapshot.canPerformRecordCondition rc existing .transition
  let guardSubject := Workflow.withWorkflowContext existing actors
  let transitions :=
    match entity.workflow with
    | none => []
    | some w =>
      let currentState := ((existing.get w.stateField).bind Json.decodeString).getD ""
      if currentState = "" then []
      else (w.transitions.filter fun t => t.source = currentState).map
        (transitionAvailability entity rc snapshot guardSubject transitionDecision)
  { writableFields :=
      snapshot.writableFields rc (entity.fields.map EntityField.name) (some existing)
    canUpdate := (snapshot.canPerformRecordCondition rc existing .update).allowed &&
      (snapshot.canPerformEntityAction rc entity.name .update).allowed
    canDelete := (snapshot.canPerformRecordCondition rc existing .delete).allowed &&
      (snapshot.canPerformEntityAction rc entity.name .delete).allowed
    transitions }

end

section

variable (svc : Service) (store : Store)

/-- The actions a get enriches the record for. -/
def getActions : List EntityAction := [.read, .update, .transition, .delete]

/-- The answer to a get, from the row the database returned. -/
def presentRecord (o : Opened) (existing : StoredRecord) (actors : Workflow.Actors) :
    Except ServiceError GetResult := do
  let enriched := enrichRecordForActions svc.codec o.ctx o.entity getActions existing.data
  require (o.ctx.snapshot.canPerformRecordCondition o.ctx.rc enriched .read) .forbidden
  return {
    record := maskRecordForRead o.entity o.ctx.rc o.ctx.snapshot
      (recordDto o.entity.name existing)
    capabilities := computeCapabilities o.entity o.ctx.rc o.ctx.snapshot enriched actors }

def get (rc : RequestContext) (entityName : String) (id : Uuid) :
    Except ServiceError GetResult := do
  let (o, existing, actors) ← findRecord svc store rc entityName id
  presentRecord svc o existing actors

end

/-! ## Whose records are read -/

section

open Builder

variable {svc : Service} {store : Store} {rc : RequestContext} {entityName : String} {o : Opened}

theorem scopedTenant_eq_ok {codec : UuidCodec} {tenantID : Uuid} :
    scopedTenant codec rc = .ok tenantID ↔ Query.scopedTenant codec.parse rc = .ok tenantID := by
  unfold scopedTenant
  cases Query.scopedTenant codec.parse rc <;> simp

theorem openEntity_eq_ok (h : openEntity svc store rc entityName = .ok o) :
    scopedTenant svc.codec rc = .ok o.tenantID ∧
      (svc.registryFor o.tenantID).getEntity entityName = some o.entity ∧
      o.ctx = svc.context store rc o.tenantID o.entity.name := by
  unfold openEntity at h
  obtain ⟨tenantID, htenant, h⟩ := except_bind_eq_ok h
  obtain ⟨entity, hentity, h⟩ := except_bind_eq_ok h
  cases h
  exact ⟨htenant, orRefuse_eq_ok.mp hentity, rfl⟩

theorem openForRead_eq_ok (h : openForRead svc store rc entityName = .ok o) :
    openEntity svc store rc entityName = .ok o ∧
      (o.ctx.snapshot.canPerformEntityAction rc o.entity.name .read).allowed = true := by
  unfold openForRead at h
  obtain ⟨o', hopen, h⟩ := except_bind_eq_ok h
  obtain ⟨_, hread, h⟩ := except_bind_eq_ok h
  cases h
  exact ⟨hopen, require_eq_ok.mp hread⟩

variable {input : Query.ListInput} {r : StoredRecord} {planned : Query.PlannedListQuery}

theorem planPage_eq_ok : planPage svc o input = .ok planned ↔
      Query.planList svc.codec.parse svc.readCursor o.ctx.registry o.entity.name input o.ctx.rc
        (o.ctx.snapshot.getRecordPolicies .read) = .ok planned := by
  unfold planPage
  split <;> simp_all

variable {rows : List StoredRecord}

theorem fetchPage_eq_ok : fetchPage svc store o planned = .ok rows ↔
      0 ≤ planned.limit ∧ Sql.select svc.pg (fun r => Query.envOf r.row planned.params)
        planned.whereSQL planned.orderBySQL (planned.limit + 1).toNat
        (store o.entity.tableName).records.rows = some rows := by
  unfold fetchPage
  by_cases hlimit : planned.limit < 0
  · simp [hlimit]
  · rw [if_neg hlimit, orRefuse_eq_ok]
    exact ⟨fun h => ⟨not_lt.mp hlimit, h⟩, fun h => h.2⟩

/-- The rows a list may show a caller: live rows of the tenant that the record policies let
through. -/
def visible (svc : Service) (o : Opened) (r : StoredRecord) : Bool :=
  let policies := o.ctx.snapshot.getRecordPolicies .read
  r.tenantID = o.tenantID && !r.deleted &&
    (policies.isEmpty || o.ctx.rc.isAdmin ||
      Query.recordPolicyTruth svc.codec.parse svc.pg policies o.ctx.rc r.row = .tt)

theorem visible_iff : visible svc o r = true ↔
      Query.allTruth (Query.scopeTruths svc.pg svc.codec.parse o.tenantID
        (o.ctx.snapshot.getRecordPolicies .read) o.ctx.rc) r.row = .tt := by
  have htenant : Sql.strict₂ (Sql.compareOp svc.pg .eq) (r.row "tenant_id")
      (some (.uuid o.tenantID)) = .tt ↔ r.tenantID = o.tenantID := by
    constructor
    · intro h
      have heq := Sql.eq_of_strict₂_compareOp_eq h
      exact Sql.Value.uuid.inj (Option.some.inj heq)
    · intro h
      rw [← h]
      simp [StoredRecord.row, Sql.strict₂, Sql.compareOp, Sql.compareValues, Sql.Op.holds]
  have hdeleted : Sql.strict₂ (Sql.compareOp svc.pg .eq) (r.row "deleted")
      (some (.bool false)) = .tt ↔ r.deleted = false := by
    cases hflag : r.deleted <;>
      simp [StoredRecord.row, hflag, Sql.strict₂, Sql.compareOp, Sql.compareValues, Sql.Op.holds]
  rw [Query.allTruth_eq_tt, Query.scopeTruths, visible]
  by_cases hfree : ((o.ctx.snapshot.getRecordPolicies .read).isEmpty || o.ctx.rc.isAdmin) = true
  · rw [if_pos hfree]
    simp [htenant, hdeleted, hfree]
  · rw [if_neg hfree]
    simp only [Bool.not_eq_true] at hfree
    simp [htenant, hdeleted, hfree, and_assoc]

/-- A row's place in a page: its sort value and its id. -/
def position (svc : Service) (o : Opened) (sort : Query.ResolvedSort) (r : StoredRecord) :
    Sql.Position :=
  ((Query.resolvedValue svc.pg o.entity sort.field r.row).getD .null, r.id)

/-- One row stands before another in a page, or at the same place. -/
def NotAfter (svc : Service) (o : Opened) (sort : Query.ResolvedSort) (r r' : StoredRecord) :
    Prop :=
  Sql.comparePosition svc.pg ⟨.star, sort.descending, sort.descending⟩ (position svc o sort r)
    (position svc o sort r') ≠ .gt

instance (svc : Service) (o : Opened) (sort : Query.ResolvedSort) :
    DecidableRel (NotAfter svc o sort) :=
  fun _ _ => inferInstanceAs (Decidable (_ ≠ _))

/-- The rows a list request selects, before the page is cut. -/
def selects (svc : Service) (o : Opened) (listView : Option EntityListView)
    (input : Query.ListInput) (r : StoredRecord) : Bool :=
  Query.allTruth (Query.listTruths svc.pg svc.codec.parse svc.readCursor o.entity listView input
    o.tenantID o.ctx.rc (o.ctx.snapshot.getRecordPolicies .read)) r.row = .tt

theorem selects_iff {listView : Option EntityListView} : selects svc o listView input r = true ↔
      visible svc o r = true ∧
      (∀ kv ∈ Query.honouredFilters listView input,
        Query.filterTruth svc.pg o.entity r.row kv = .tt) ∧
      (∀ e ∈ Query.jqlFilter input.jql, Query.jqlTruth svc.pg o.entity r.row e = .tt) ∧
      ∀ t ∈ Query.cursorTruths svc.pg svc.codec.parse svc.readCursor o.entity
        (Query.pageSort o.entity listView input) input.cursor, t r.row = .tt := by
  rw [selects, decide_eq_true_iff, Query.allTruth_eq_tt, visible_iff, Query.allTruth_eq_tt,
    Query.listTruths, Query.filterTruths]
  simp only [List.mem_append, or_imp, forall_and, List.forall_mem_map, and_assoc]

theorem list_of_rows (hopen : openForRead svc store rc entityName = .ok o)
    (hplan : planPage svc o input = .ok planned)
    (hrows : fetchPage svc store o planned = .ok rows) :
    list svc store rc entityName input = .ok (presentPage svc store o planned rows) := by
  unfold list
  rw [hopen]
  show (planPage svc o input >>= _) = _
  rw [hplan]
  show (fetchPage svc store o planned >>= _) = _
  rw [hrows]
  rfl

/-- The rows of an answer: those fetched, but for the one more than the page holds. -/
theorem maskedPage_eq (hlimit : 0 ≤ planned.limit) : maskedPage o planned rows =
    (rows.take planned.limit.toNat).map fun r =>
      maskRecordForRead o.entity o.ctx.rc o.ctx.snapshot (recordDto o.entity.name r) := by
  simp only [maskedPage, List.length_map]
  split
  · rw [← List.map_take, List.map_map]
    rfl
  · next hall =>
    rw [List.take_of_length_le (by omega), List.map_map]
    rfl

/-- A page is planned for the entity and the tenant the call was opened for. -/
theorem planPage_means (hopen : openEntity svc store rc entityName = .ok o)
    (hplan : planPage svc o input = .ok planned) :
    ∃ listView, Query.selectListView o.entity input.listView = .ok listView ∧
      Query.ListMeaning svc.pg svc.codec.parse svc.readCursor o.entity o.tenantID listView input
        o.ctx.rc (o.ctx.snapshot.getRecordPolicies .read) planned := by
  obtain ⟨htenant, hentity, hctx⟩ := openEntity_eq_ok hopen
  obtain ⟨entity, tenant, listView, hget, hscoped, hview, hmeans⟩ :=
    Query.planList_means svc.pg (planPage_eq_ok.mp hplan)
  have hname : o.entity.name = entityName := MetadataRegistry.name_of_getEntity hentity
  have hsame : entity = o.entity := by
    have hregistry : o.ctx.registry = svc.registryFor o.tenantID := by rw [hctx]; rfl
    rw [hregistry, hname, hentity] at hget
    exact (Option.some.inj hget).symm
  have htenants : tenant = o.tenantID := by
    have hrc : o.ctx.rc = rc := by rw [hctx]; rfl
    rw [hrc, scopedTenant_eq_ok.mp htenant] at hscoped
    exact (Except.ok.inj hscoped).symm
  subst hsame htenants
  exact ⟨listView, hview, hmeans⟩

/-- What a list fetches: the first of the rows it selects, by sort value and then by id. -/
theorem fetchPage_spec (hopen : openEntity svc store rc entityName = .ok o)
    (hplan : planPage svc o input = .ok planned)
    (hrows : fetchPage svc store o planned = .ok rows) :
    ∃ listView, Query.selectListView o.entity input.listView = .ok listView ∧
      Query.ListMeaning svc.pg svc.codec.parse svc.readCursor o.entity o.tenantID listView input
        o.ctx.rc (o.ctx.snapshot.getRecordPolicies .read) planned ∧
      0 ≤ planned.limit ∧
      rows = (((store o.entity.tableName).records.rows.filter
        (selects svc o listView input)).insertionSort
          (NotAfter svc o planned.resolvedSort)).take (planned.limit + 1).toNat := by
  obtain ⟨listView, hview, hmeans⟩ := planPage_means hopen hplan
  obtain ⟨hlimit, hselect⟩ := fetchPage_eq_ok.mp hrows
  refine ⟨listView, hview, hmeans, hlimit, ?_⟩
  obtain ⟨cond, hcond, htruth⟩ := hmeans.where_means
  obtain ⟨e, hkeys, heval⟩ := hmeans.order_means
  obtain ⟨-, sorted, hsorted, rfl⟩ := (Sql.select_eq_some_iff hcond hkeys).mp hselect
  simp only [htruth] at hsorted
  -- a row without a sort value would have failed the query
  have hvalue : ∀ r ∈ (store o.entity.tableName).records.rows.filter (selects svc o listView input),
      Sql.eval svc.pg (Query.envOf r.row planned.params) e =
        some (position svc o planned.resolvedSort r).1 := by
    intro r hr
    obtain ⟨v, hv⟩ := Option.isSome_iff_exists.mp
      (Sql.isSome_eval_of_sortRows hsorted hr List.mem_cons_self)
    rw [heval] at hv ⊢
    rw [position, hv, Option.getD_some]
  have hsort := (Sql.sortRows_eq_insertionSort hvalue fun r _ => rfl).symm.trans hsorted
  rw [← Option.some.inj hsort]
  rfl

/-- The rows of a page belong to the tenant the call is scoped to. -/
theorem tenant_of_fetchPage (hscope : scopedTenant svc.codec o.ctx.rc = .ok o.tenantID)
    (hplan : planPage svc o input = .ok planned) (hrows : fetchPage svc store o planned = .ok rows)
    {row : StoredRecord} (hrow : row ∈ rows) : row.tenantID = o.tenantID := by
  obtain ⟨entity, tenant, listView, scope, rest, ws, sortExpr, -, htenant, -, hparts⟩ :=
    Query.planList_eq_ok default (planPage_eq_ok.mp hplan)
  -- the tenant of the plan is the one the call was scoped to
  have heq : tenant = o.tenantID := by
    rw [scopedTenant_eq_ok.mp hscope] at htenant
    exact (Except.ok.inj htenant).symm
  obtain ⟨clause, -, cond, hcond, hconfines⟩ :=
    Query.confinesTo_of_scope hparts.scope_eq hparts.scope_prefix hparts.readable
  obtain ⟨-, hselect⟩ := fetchPage_eq_ok.mp hrows
  obtain ⟨-, cond', hcond', htrue⟩ := Sql.mem_of_select hselect hrow
  have hsame : cond' = cond := by
    rw [hparts.where_eq, hcond] at hcond'
    exact (Option.some.inj hcond').symm
  subst hsame
  obtain ⟨htenantID, -, -⟩ := hconfines _ _ htrue
  have huuid : (some (.uuid row.tenantID) : Option Sql.Value) = some (.uuid tenant) := htenantID
  rw [← heq]
  cases huuid
  rfl

theorem findRecord_eq_ok {id : Uuid} {existing : StoredRecord} {actors : Workflow.Actors}
    (h : findRecord svc store rc entityName id = .ok (o, existing, actors)) :
    o.ctx.rc = rc ∧ scopedTenant svc.codec rc = .ok o.tenantID ∧
      fetchExisting (store o.entity.tableName) id o.tenantID = some existing ∧
      actors = if Workflow.usesWorkflowContext o.entity then
        Workflow.lastActors svc.codec (store o.entity.tableName).events o.tenantID o.entity.name id
      else [] := by
  unfold findRecord at h
  obtain ⟨o', hopen, h⟩ := except_bind_eq_ok h
  obtain ⟨existing', hexisting, h⟩ := except_bind_eq_ok h
  cases h
  obtain ⟨htenant, -, hctx⟩ := openEntity_eq_ok (openForRead_eq_ok hopen).1
  refine ⟨?_, htenant, orRefuse_eq_ok.mp hexisting, rfl⟩
  rw [hctx]
  rfl

theorem tenant_of_fetchDisplayed {field : DisplayField} {id : Uuid} {row : StoredRecord}
    (h : fetchDisplayed svc store o field id = some row) : row.tenantID = o.tenantID := by
  unfold fetchDisplayed at h
  obtain ⟨_, -, h⟩ := Option.bind_eq_some_iff.mp h
  obtain ⟨_, -, h⟩ := Option.bind_eq_some_iff.mp h
  exact (fetchExisting_eq_some.mp h).2.1

end

end Metap.Crud
