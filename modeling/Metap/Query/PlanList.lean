import Metap.Query.Jql

/-!
# Planning a list query

`planList` turns a list request into a `WHERE` and an `ORDER BY` text with their parameters.  The
`WHERE` text is a conjunction: the tenant, the soft-delete flag and the caller's record policies
come first, then one condition for each honoured filter, the compiled JQL and the position of
the cursor.

The UUID parser and the reading of a cursor's base64 and JSON are parameters.
-/

namespace Metap.Query

open Sql Builder

/-! ## Cursors -/

inductive SortDir where
  | asc | desc
  deriving DecidableEq, Repr

/-- The position after a page's last row; `value` is absent when its sort value is null. -/
structure Cursor where
  field : String
  value : Option String
  id : String
  dir : SortDir
  deriving DecidableEq, Repr

/-- The shape of a UUID: hexadecimal digits with dashes at four places. -/
def isCursorUUID (s : String) : Bool :=
  s.toList.length = 36 && s.toList.zipIdx.all fun (c, i) =>
    if i = 8 ∨ i = 13 ∨ i = 18 ∨ i = 23 then c = '-'
    else c.isDigit || ('a' ≤ c && c ≤ 'f') || ('A' ≤ c && c ≤ 'F')

/-- `readCursor` undoes the base64 and JSON encodings. -/
def decodeCursor (readCursor : String → Option Cursor) (raw : String) : Option Cursor :=
  (readCursor raw).filter fun c => isCursorUUID c.id

/-! ## Requests and plans -/

structure ListInput where
  limit : ℤ
  sort : Option String := none
  filters : List (String × String) := []
  cursor : Option String := none
  listView : Option String := none
  jql : Option String := none
  deriving DecidableEq, Repr

structure ResolvedSort where
  field : String
  descending : Bool
  deriving DecidableEq, Repr

def ResolvedSort.dir (sort : ResolvedSort) : SortDir := if sort.descending then .desc else .asc

structure PlannedListQuery where
  whereSQL : String
  orderBySQL : String
  params : List BindValue
  limit : ℤ
  resolvedSort : ResolvedSort

def parseSort (candidate : Option String) (sortableFields : List String) :
    Option ResolvedSort := do
  let c ← candidate
  let descending := Strings.hasPrefix c "-"
  let field := (Strings.cutPrefix c "-").getD c
  if sortableFields.contains field then some { field, descending } else none

inductive SortColType where
  | timestamptz | uuid | text
  deriving DecidableEq, Repr

def SortColType.castSuffix : SortColType → String
  | timestamptz => "::timestamptz"
  | uuid => "::uuid"
  | text => ""

/-- A field with a physical column resolves to it, any other to its member of `data`. -/
def sortFieldExpression (fieldName : String) (fieldDef : Option EntityField) :
    Build (String × SortColType) :=
  if fieldName = "createdAt" then pure ("created_at", .timestamptz)
  else if fieldName = "updatedAt" then pure ("updated_at", .timestamptz)
  else
    match fieldDef.filter fun f => fieldHasRealColumn f with
    | some f =>
      pure ("\"" ++ f.name ++ "\"", if f.kind = .reference ∨ f.kind = .id then .uuid else .text)
    | none => do
      let ph ← pushBind (.text fieldName)
      return ("jsonb_extract_path_text(data, " ++ ph ++ ")", .text)

def bindCursorValue (ct : SortColType) (value : String) : Build String := do
  let ph ← pushBind (.text value)
  return ph ++ ct.castSuffix

/-- Every row strictly after the cursor, when null sorts above every value. -/
def cursorCondition (sortExpr : String) (descending : Bool) (valuePh : Option String)
    (idPh : String) : String :=
  match descending, valuePh with
  | false, some v =>
    s!"(({sortExpr} > {v}) OR ({sortExpr} = {v} AND id > {idPh}) OR {sortExpr} IS NULL)"
  | true, some v => s!"(({sortExpr} < {v}) OR ({sortExpr} = {v} AND id > {idPh}))"
  | false, none => s!"({sortExpr} IS NULL AND id > {idPh})"
  | true, none => s!"(({sortExpr} IS NULL AND id > {idPh}) OR {sortExpr} IS NOT NULL)"

/-- A substring pattern, escaped as in JQL. -/
def ilikeEscape (value : String) : String :=
  "%" ++ String.ofList (value.toList.flatMap fun c =>
    if c = '\\' ∨ c = '%' ∨ c = '_' then ['\\', c] else [c]) ++ "%"

def scopedTenant (parseUuid : String → Option Uuid) (ctx : RequestContext) :
    Except QueryError Uuid :=
  if ctx.tenantID = "" then
    .error (.other "RequestContext.TenantID is required but was missing or empty")
  else
    match parseUuid ctx.tenantID with
    | some tenant => .ok tenant
    | none => .error (.invalidUUID ctx.tenantID)

/-- The named list view, or the first one when none is named. -/
def selectListView (entity : EntityDefinition) :
    Option String → Except QueryError (Option EntityListView)
  | some name =>
    match entity.listViews.find? fun v => v.name = name with
    | some view => .ok (some view)
    | none => .error (.unknownListView name)
  | none => .ok entity.listViews.head?

/-- The condition of one honoured filter. -/
def filterCondition (entity : EntityDefinition) (filter : String × String) : Build String := do
  let (field, value) := filter
  let fieldDef := entity.field? field
  let (fieldExpr, fieldColType) ← sortFieldExpression field fieldDef
  let searchable := fieldDef.any fun f => boolOrFalse f.searchable
  let isFTS := searchable && fieldDef.any fun f => f.searchMode = some "fts"
  if isFTS then
    let ph ← pushBind (.text value)
    return "to_tsvector('simple', " ++ fieldExpr ++ ") @@ plainto_tsquery('simple', " ++ ph ++ ")"
  else if searchable then
    let ph ← pushBind (.text (ilikeEscape value))
    return fieldExpr ++ " ILIKE " ++ ph
  else if value = "" then
    return fieldExpr ++ " IS NULL"
  else
    let ph ← pushBind (.text value)
    return fieldExpr ++ " = " ++ (ph ++ fieldColType.castSuffix)

def sortableFields (entity : EntityDefinition) : List String :=
  ["createdAt", "updatedAt"] ++
    (entity.fields.filter fun f => boolOrFalse f.sortable).map EntityField.name

/-- The sort of the page: JQL's own order, else the requested one, else the list view's default,
else newest first. -/
def resolveSort (entity : EntityDefinition) (listView : Option EntityListView)
    (jqlOrder : Option JqlOrder) (sort : Option String) : ResolvedSort :=
  let effectiveSort :=
    match jqlOrder with
    | some order => some (if order.descending then "-" ++ order.field else order.field)
    | none => sort
  let sortable := sortableFields entity
  ((parseSort effectiveSort sortable).or
    (parseSort (listView.bind EntityListView.defaultSort) sortable)).getD
    { field := "createdAt", descending := true }

section

variable (parseUuid : String → Option Uuid) (readCursor : String → Option Cursor)

/-- The conditions every query starts with. -/
def scopeConditions (tenant : Uuid) (policies : List PolicyRow) (ctx : RequestContext) :
    Build (List String) := do
  let ph ← pushBind (.uuid tenant)
  let clause ← recordPolicyWhereClause parseUuid policies ctx
  return ["tenant_id = " ++ ph, "deleted = false"] ++ clause.toList

/-- The condition of the cursor, if there is one: it must belong to the page's own sort. -/
def cursorConditions (cursor : Option String) (sort : ResolvedSort) (sortExpr : String)
    (sortColT : SortColType) : Build (List String) :=
  match cursor with
  | none => pure []
  | some raw =>
    match decodeCursor readCursor raw with
    | none => fail .invalidCursor
    | some c =>
      if c.field ≠ sort.field ∨ c.dir ≠ sort.dir then fail .invalidCursor
      else
        match parseUuid c.id with
        | none => fail .invalidCursor
        | some cursorID => do
          let valuePh ← c.value.mapM (bindCursorValue sortColT)
          let idPh ← pushBind (.uuid cursorID)
          return [cursorCondition sortExpr sort.descending valuePh idPh]

/-- The filter of the request's JQL, if it has one, and the order it asks for. -/
def jqlConditions (entity : EntityDefinition) :
    Option String → Build (Option String × Option JqlOrder)
  | some jql => parseAndCompileJQL jql entity
  | none => pure (none, none)

def orderBySQL (sortExpr : String) (descending : Bool) : String :=
  sortExpr ++ (if descending then " DESC NULLS FIRST" else " ASC NULLS LAST") ++ ", id ASC"

/-- The filters a list view honours; the others are ignored. -/
def allowedFilters (fields : List String) (filters : List (String × String)) :
    List (String × String) :=
  filters.filter fun kv => fields.contains kv.1

/-- The conditions a list request adds, with the page's sort and its expression. -/
def requestConditions (entity : EntityDefinition) (listView : Option EntityListView)
    (input : ListInput) : Build (List String × ResolvedSort × String) := do
  let viewFilters := (listView.map EntityListView.filters).getD []
  let filters ← (allowedFilters viewFilters input.filters).mapM (filterCondition entity)
  let (jqlWhere, jqlOrder) ← jqlConditions entity input.jql
  let sort := resolveSort entity listView jqlOrder input.sort
  let (sortExpr, sortColT) ← sortFieldExpression sort.field (entity.field? sort.field)
  let after ← cursorConditions parseUuid readCursor input.cursor sort sortExpr sortColT
  return (filters ++ jqlWhere.toList ++ after, sort, sortExpr)

def listConditions (entity : EntityDefinition) (listView : Option EntityListView)
    (tenant : Uuid) (input : ListInput) (ctx : RequestContext) (policies : List PolicyRow) :
    Build (List String × ResolvedSort × String) := do
  let scope ← scopeConditions parseUuid tenant policies ctx
  let (requested, sort, sortExpr) ← requestConditions parseUuid readCursor entity listView input
  return (scope ++ requested, sort, sortExpr)

def planList (registry : MetadataRegistry) (entityName : String) (input : ListInput)
    (ctx : RequestContext) (policies : List PolicyRow) : Except QueryError PlannedListQuery :=
  match registry.getEntity entityName with
  | none => .error (.other ("Entity not found: " ++ entityName))
  | some entity => do
    let tenant ← scopedTenant parseUuid ctx
    let listView ← selectListView entity input.listView
    let maxLimit : ℤ := (listView.map fun v => (v.maxLimit : ℤ)).getD 100
    let ((conditions, sort, sortExpr), params) ←
      (listConditions parseUuid readCursor entity listView tenant input ctx policies).run []
    return {
      whereSQL := join " AND " conditions
      orderBySQL := orderBySQL sortExpr sort.descending
      params
      limit := min input.limit maxLimit
      resolvedSort := sort }

/-! ## What a request asks for -/

/-- The position of a request's cursor and the id it parses to. -/
def cursorPosition (cursor : Option String) : Option (Cursor × Uuid) := do
  let c ← decodeCursor readCursor (← cursor)
  let id ← parseUuid c.id
  return (c, id)

end

/-- The filters of a request that its list view honours. -/
def honouredFilters (listView : Option EntityListView) (input : ListInput) :
    List (String × String) :=
  allowedFilters ((listView.map EntityListView.filters).getD []) input.filters

/-- The sort of the page. -/
def pageSort (entity : EntityDefinition) (listView : Option EntityListView) (input : ListInput) :
    ResolvedSort :=
  resolveSort entity listView (jqlOrder input.jql) input.sort

end Metap.Query
