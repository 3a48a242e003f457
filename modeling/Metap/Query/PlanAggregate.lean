import Metap.Query.PlanList

/-!
# Planning an aggregation

`planAggregate` turns a grouped request into one `SELECT`.  Its rows are filtered exactly as a
list query's are (`scopeConditions`), then bucketed by time, grouped by one field and folded by
the requested metrics.  The plan is kept in its parts, `AggregatePlan`, from which
`AggregatePlan.sql` assembles the statement.
-/

namespace Metap.Query

open Sql Builder

inductive AggregateFn where
  | count | sum | avg | min | max
  deriving DecidableEq, Repr

def AggregateFn.sqlName : AggregateFn → String
  | count => "count"
  | sum => "sum"
  | avg => "avg"
  | min => "min"
  | max => "max"

/-- A requested metric; only `count` may have no field. -/
structure AggregateMetric where
  func : AggregateFn
  field : Option String := none
  deriving DecidableEq, Repr

/-- The key of the metric in each result row. -/
def AggregateMetric.alias (m : AggregateMetric) : String :=
  match m.field with
  | some field => m.func.sqlName ++ "_" ++ field
  | none => m.func.sqlName

inductive TimeBucket where
  | hour | day | week | month
  deriving DecidableEq, Repr

def TimeBucket.truncUnit : TimeBucket → String
  | hour => "hour"
  | day => "day"
  | week => "week"
  | month => "month"

structure AggregateInput where
  metrics : List AggregateMetric
  groupBy : Option String := none
  bucket : Option TimeBucket := none
  timeField : Option String := none
  filters : List (String × String) := []
  since : Option String := none
  «until» : Option String := none
  limit : ℤ
  deriving DecidableEq, Repr

def maxGroups : ℤ := 500

def maxMetrics : ℕ := 10

def clampInt64 (v lo hi : ℤ) : ℤ := if v < lo then lo else if v > hi then hi else v

structure PlannedAggregateQuery where
  sql : String
  params : List BindValue

/-- The value of a field: its physical column when it has one, else its member of `data`. -/
def valueExpression (field : EntityField) : Build String :=
  if fieldHasRealColumn field then pure ("\"" ++ field.name ++ "\"")
  else do
    let ph ← pushBind (.text field.name)
    return "jsonb_extract_path_text(data, " ++ ph ++ ")"

/-- A blank member is turned to null before the cast. -/
def numericExpression (field : EntityField) : Build String := do
  let expr ← valueExpression field
  return "NULLIF(" ++ expr ++ ", '')::numeric"

def timestampExpression (fieldName : String) (entity : EntityDefinition) : Build String :=
  if fieldName = "createdAt" then pure "created_at"
  else if fieldName = "updatedAt" then pure "updated_at"
  else
    match entity.field? fieldName with
    | none => fail (.invalidAggregate ("Unknown field: " ++ fieldName))
    | some field =>
      if field.kind ≠ .date ∧ field.kind ≠ .datetime then
        fail (.invalidAggregate ("`" ++ fieldName ++
          "` is not a date field and cannot be used as a time axis."))
      else do
        let expr ← valueExpression field
        return "NULLIF(" ++ expr ++ ", '')::timestamptz"

/-- The fields any of the entity's list views filters by. -/
def viewFilterFields (entity : EntityDefinition) : List String :=
  entity.listViews.flatMap EntityListView.filters

def isGroupable (field : EntityField) (entity : EntityDefinition) : Bool :=
  field.name = "status" || boolOrFalse field.indexed || field.enumValues.isSome ||
    (viewFilterFields entity).contains field.name

def assertGroupable (field : EntityField) (entity : EntityDefinition) : Build Unit :=
  if isGroupable field entity then pure ()
  else fail (.invalidAggregate ("`" ++ field.name ++
    "` cannot be grouped by — mark it `indexed`, give it `enum_values`, or add it to a " ++
    "list view's filters first."))

/-- The condition of one honoured filter. -/
def aggregateFilterCondition (field : EntityField) (value : String) : Build String := do
  let expr ← valueExpression field
  if value = "" then return expr ++ " IS NULL"
  else
    let ph ← pushBind (.text value)
    let cast :=
      if fieldHasRealColumn field ∧ (field.kind = .reference ∨ field.kind = .id) then "::uuid"
      else ""
    return expr ++ " = " ++ (ph ++ cast)

/-- The honoured filters with their declared fields. -/
def aggregateFilters (entity : EntityDefinition) (filters : List (String × String)) :
    List (EntityField × String) :=
  (allowedFilters (viewFilterFields entity) filters).filterMap fun kv =>
    (entity.field? kv.1).map fun field => (field, kv.2)

/-- The time axis, when the request needs one. -/
def timeAxis (entity : EntityDefinition) (input : AggregateInput) : Build (Option String) :=
  if input.bucket.isSome ∨ input.since.isSome ∨ input.until.isSome then
    some <$> timestampExpression (input.timeField.getD "createdAt") entity
  else pure none

/-- One end of the requested time range. -/
def timeCondition (timeExpr : Option String) (sep : String) (bound : Option String) :
    Build (List String) :=
  match timeExpr, bound with
  | some te, some b => do
    let ph ← pushBind (.text b)
    return [te ++ sep ++ (ph ++ "::timestamptz")]
  | _, _ => pure []

/-- The expression of a metric, before it is cast for output. -/
def metricExpression (entity : EntityDefinition) (metric : AggregateMetric) : Build String :=
  match metric.field with
  | none =>
    if metric.func = .count then pure "count(*)"
    else fail (.invalidAggregate ("`" ++ metric.func.sqlName ++ "` needs a field."))
  | some name =>
    match entity.field? name with
    | none => fail (.invalidAggregate ("Unknown field: " ++ name))
    | some field =>
      if metric.func = .count then do
        let expr ← valueExpression field
        return "count(" ++ expr ++ ")"
      else if field.kind ≠ .number ∧ field.kind ≠ .money then
        fail (.invalidAggregate ("`" ++ field.name ++ "` is not a numeric field — `" ++
          metric.func.sqlName ++ "` needs Number or Money."))
      else do
        let expr ← numericExpression field
        return metric.func.sqlName ++ "(" ++ expr ++ ")"

/-- The parts of a planned aggregation. -/
structure AggregatePlan where
  bucketExpr : Option String
  groupExpr : Option String
  /-- Each metric's expression and alias. -/
  metrics : List (String × String)
  tableName : String
  whereSQL : String
  orderBySQL : String
  limit : ℤ

namespace AggregatePlan

def selectParts (p : AggregatePlan) : List String :=
  p.bucketExpr.toList.map (· ++ " AS \"bucket\"") ++
    p.groupExpr.toList.map (fun e => "(" ++ e ++ ")::text AS \"group\"") ++
    p.metrics.map fun m => "(" ++ m.1 ++ ")::float8 AS \"" ++ m.2 ++ "\""

def groupParts (p : AggregatePlan) : List String :=
  p.bucketExpr.toList ++ p.groupExpr.toList.map fun e => "(" ++ e ++ ")::text"

def groupBySQL (p : AggregatePlan) : String :=
  if p.groupParts.isEmpty then "" else " GROUP BY " ++ join ", " p.groupParts

/-- The statement. -/
def sql (p : AggregatePlan) : String :=
  let inner := "SELECT " ++ join ", " p.selectParts ++ " FROM " ++ p.tableName ++ " WHERE " ++
    p.whereSQL ++ p.groupBySQL ++ p.orderBySQL ++ " LIMIT " ++ toString p.limit
  "SELECT to_jsonb(agg) AS row FROM (" ++ inner ++ ") agg"

end AggregatePlan

def groupExpression (entity : EntityDefinition) : Option String → Build (Option String)
  | none => pure none
  | some name =>
    match entity.field? name with
    | none => fail (.invalidAggregate ("Unknown field: " ++ name))
    | some field => do
      assertGroupable field entity
      some <$> valueExpression field

/-- Neither ordering is caller input: chronological on a time axis, else biggest first. -/
def aggregateOrderBySQL (input : AggregateInput) : String :=
  if input.bucket.isSome then " ORDER BY \"bucket\" ASC"
  else if input.groupBy.isSome then
    " ORDER BY \"" ++ (input.metrics.head?.map AggregateMetric.alias).getD "" ++
      "\" DESC NULLS LAST"
  else ""

/-- The conditions an aggregation request adds, and its time axis. -/
def aggregateConditions (entity : EntityDefinition) (input : AggregateInput) :
    Build (List String × Option String) := do
  let filters ← (aggregateFilters entity input.filters).mapM
    fun fv => aggregateFilterCondition fv.1 fv.2
  let timeExpr ← timeAxis entity input
  let since ← timeCondition timeExpr " >= " input.since
  let before ← timeCondition timeExpr " < " input.until
  return (filters ++ since ++ before, timeExpr)

def bucketExpression (bucket : Option TimeBucket) (timeExpr : Option String) : Option String := do
  let b ← bucket
  let te ← timeExpr
  return "date_trunc('" ++ b.truncUnit ++ "', " ++ te ++ ")"

def metricColumn (entity : EntityDefinition) (metric : AggregateMetric) :
    Build (String × String) := do
  let expr ← metricExpression entity metric
  return (expr, metric.alias)

section

variable (parseUuid : String → Option Uuid)

def aggregatePlan (entity : EntityDefinition) (tenant : Uuid) (input : AggregateInput)
    (ctx : RequestContext) (policies : List PolicyRow) : Build AggregatePlan := do
  let scope ← scopeConditions parseUuid tenant policies ctx
  let (requested, timeExpr) ← aggregateConditions entity input
  let groupExpr ← groupExpression entity input.groupBy
  let metrics ← input.metrics.mapM (metricColumn entity)
  return {
    bucketExpr := bucketExpression input.bucket timeExpr
    groupExpr
    metrics
    tableName := entity.tableName
    whereSQL := join " AND " (scope ++ requested)
    orderBySQL := aggregateOrderBySQL input
    limit := clampInt64 input.limit 1 maxGroups }

/-- The plan in its parts, with its parameters. -/
def planAggregateParts (registry : MetadataRegistry) (entityName : String)
    (input : AggregateInput) (ctx : RequestContext) (policies : List PolicyRow) :
    Except QueryError (AggregatePlan × List BindValue) :=
  match registry.getEntity entityName with
  | none => .error (.other ("Entity not found: " ++ entityName))
  | some entity =>
    if input.metrics.isEmpty then .error (.invalidAggregate "At least one metric is required.")
    else if input.metrics.length > maxMetrics then
      .error (.invalidAggregate ("At most " ++ toString maxMetrics ++ " metrics per request."))
    else do
      let tenant ← scopedTenant parseUuid ctx
      (aggregatePlan parseUuid entity tenant input ctx policies).run []

def planAggregate (registry : MetadataRegistry) (entityName : String)
    (input : AggregateInput) (ctx : RequestContext) (policies : List PolicyRow) :
    Except QueryError PlannedAggregateQuery := do
  let (plan, params) ← planAggregateParts parseUuid registry entityName input ctx policies
  return { sql := plan.sql, params }

end

/-! ## What a request asks for -/

/-- Whether the request needs a time axis. -/
def usesTime (input : AggregateInput) : Bool :=
  input.bucket.isSome || input.since.isSome || input.until.isSome

/-- The name of the time axis. -/
def timeFieldName (input : AggregateInput) : String := input.timeField.getD "createdAt"

end Metap.Query
