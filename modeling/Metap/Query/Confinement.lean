import Metap.Query.AggregateMeaning

/-!
# The rows a planned query can select

Both planners put the tenant, the soft-delete flag and the record policies in front of whatever
the request asks for, joined by `AND`.  That confines the selected rows only if nothing after
them can change how the text is read: a filter value or a JQL query that contributed a bare `OR`
would widen the selection.

The argument has two halves.  Every condition a planner adds has a meaning of its own at a level
tighter than `AND` (`builds_requestConditions`, `builds_aggregateConditions`), so the conjunction
is read as the conjunction of its members; and the first members are the tenant, the flag and the
text of the policies (`scopeConditions_run`).
-/

namespace Metap.Query

open Sql Builder

/-! ## The conjunction -/

/-- Joined conditions are read as their conjunction: it is true only where all of them are. -/
theorem exists_conjunction {texts : List String} {es : List Expr} (hne : texts ≠ [])
    (h : List.Forall₂ (Reads .not) texts es) :
    ∃ e, parse (join " AND " texts) = some e ∧ ∀ pg env, truth pg env e = .tt →
      ∀ e' ∈ es, truth pg env e' = .tt := by
  cases h with
  | nil => exact absurd rfl hne
  | cons hp hps =>
    have hjoin := reads_join .and (.cons hp hps)
    refine ⟨_, (hjoin.loosen .or (by decide)).parse_eq, fun pg env htrue => ?_⟩
    rw [truth_foldl_chain] at htrue
    exact (@Truth.foldr_and_eq_tt _ _ (_ :: _)).mp htrue

theorem reads_tenant : Reads .cmp "tenant_id = $1" (.binop .eq (.col "tenant_id") (.param 1)) := by
  have hcol : Reads .prim "tenant_id" (.col "tenant_id") := reads_col ⟨[], _, _, rfl, rfl, rfl⟩
  exact (hcol.loosen .in (by decide)).comparison ((reads_param 1).loosen .in (by decide))
    separates_eq rfl

theorem reads_deleted :
    Reads .cmp "deleted = false" (.binop .eq (.col "deleted") (.bool false)) := by
  have hcol : Reads .prim "deleted" (.col "deleted") := reads_col ⟨[], _, _, rfl, rfl, rfl⟩
  exact (hcol.loosen .in (by decide)).comparison ((reads_bool false).loosen .in (by decide))
    separates_eq rfl

section

variable {parseUuid : String → Option Uuid} {policies : List PolicyRow} {ctx : RequestContext}
  {tenant : Uuid}

theorem scopeConditions_run {texts : List String} {ws : List BindValue}
    (h : scopeConditions parseUuid tenant policies ctx [] = .ok (texts, ws)) :
    ∃ clause, recordPolicyWhereClause parseUuid policies ctx [.uuid tenant] = .ok (clause, ws) ∧
      texts = ["tenant_id = $1", "deleted = false"] ++ clause.toList := by
  obtain ⟨ph, ws₁, hpush, hrest⟩ := bind_eq_ok h
  obtain ⟨clause, ws₂, hclause, hret⟩ := bind_eq_ok hrest
  have hfirst : pushBind (.uuid tenant) [] = .ok ("$1", [.uuid tenant]) := rfl
  rw [hfirst] at hpush
  cases hpush
  cases hret
  exact ⟨clause, hclause, rfl⟩

/-- The text of the record policies, when there is one, is read as an expression. -/
theorem exists_clause_exprs {clause : Option String} {ws ws' : List BindValue}
    (h : recordPolicyWhereClause parseUuid policies ctx ws = .ok (clause, ws')) :
    ∃ es, List.Forall₂ (Reads .not) clause.toList es := by
  have hclause := (builds_recordPolicyWhereClause default policies ctx).run h
  cases clause with
  | none => exact ⟨[], .nil⟩
  | some s =>
    obtain ⟨_, e, hread, _⟩ := hclause
    exact ⟨[e], .cons (hread.loosen .not (by decide)) .nil⟩

/-- A `WHERE` text that only rows of the tenant satisfy, not soft-deleted, on which the clause
is true. -/
def ConfinesTo (tenant : Uuid) (clause : Option String) (whereSQL : String)
    (params : List BindValue) : Prop :=
  ∃ e, parse whereSQL = some e ∧
    ∀ (pg : Backend) (row : String → Option Value), truth pg (envOf row params) e = .tt →
      row "tenant_id" = some (.uuid tenant) ∧ row "deleted" = some (.bool false) ∧
      ∀ s ∈ clause, ∃ ec, parse s = some ec ∧ truth pg (envOf row params) ec = .tt

theorem confinesTo_of_scope {scope rest : List String} {ws params : List BindValue}
    (hscope : scopeConditions parseUuid tenant policies ctx [] = .ok (scope, ws))
    (hext : ws <+: params) (hrest : ∀ s ∈ rest, Readable .not s) :
    ∃ clause, recordPolicyWhereClause parseUuid policies ctx [.uuid tenant] = .ok (clause, ws) ∧
      ConfinesTo tenant clause (join " AND " (scope ++ rest)) params := by
  obtain ⟨clause, hclause, rfl⟩ := scopeConditions_run hscope
  refine ⟨clause, hclause, ?_⟩
  -- the tenant is the first parameter, and stays it
  have hparams : params[0]? = some (.uuid tenant) := by
    obtain ⟨hgrow, _⟩ := builds_recordPolicyWhereClause default policies ctx _ _ _ hclause
    obtain ⟨tail, rfl⟩ := hgrow.trans hext
    rfl
  obtain ⟨ecs, hecs⟩ := exists_clause_exprs hclause
  obtain ⟨ers, hers⟩ := exists_exprs_of_readable hrest
  have hreads : List.Forall₂ (Reads .not)
      (["tenant_id = $1", "deleted = false"] ++ clause.toList ++ rest)
      ([.binop .eq (.col "tenant_id") (.param 1), .binop .eq (.col "deleted") (.bool false)] ++
        ecs ++ ers) :=
    List.rel_append (List.rel_append (.cons (reads_tenant.loosen .not (by decide))
      (.cons (reads_deleted.loosen .not (by decide)) .nil)) hecs) hers
  obtain ⟨e, hparse, htrue⟩ := exists_conjunction (by simp) hreads
  refine ⟨e, hparse, fun pg row hrow => ?_⟩
  have hmember := htrue pg _ hrow
  refine ⟨?_, ?_, ?_⟩
  · have htenant := hmember (.binop .eq (.col "tenant_id") (.param 1)) (by simp)
    rw [truth_binop] at htenant
    have hvalue := eq_of_strict₂_compareOp_eq htenant
    simpa [eval, envOf, hparams, BindValue.arg, Expr.operand, Expr.isUntyped, readBeside] using
      hvalue
  · have hdeleted := hmember (.binop .eq (.col "deleted") (.bool false)) (by simp)
    rw [truth_binop] at hdeleted
    simpa [eval, Expr.operand, Expr.isUntyped] using eq_of_strict₂_compareOp_eq hdeleted
  · intro s hs
    obtain rfl : clause = some s := hs
    cases hecs with
    | cons hread hnil =>
      refine ⟨_, (hread.loosen .or (by decide)).parse_eq, hmember _ (by simp)⟩

theorem scopedTenant_eq_ok (h : scopedTenant parseUuid ctx = .ok tenant) :
    parseUuid ctx.tenantID = some tenant := by
  unfold scopedTenant at h
  split at h
  · cases h
  · split at h
    · next t ht => cases h; exact ht
    · cases h

/-- A planned query selects only rows of the caller's tenant that are not soft-deleted and
satisfy the record policies, whatever filters, JQL, cursor, grouping or metrics it asks for. -/
theorem planned_where_confines (parseUuid : String → Option Uuid)
    (readCursor : String → Option Cursor) (registry : MetadataRegistry) (entityName : String)
    (ctx : RequestContext) (policies : List PolicyRow) :
    (∀ input q, planList parseUuid readCursor registry entityName input ctx policies = .ok q →
      ∃ tenant clause ws, parseUuid ctx.tenantID = some tenant ∧
        recordPolicyWhereClause parseUuid policies ctx [.uuid tenant] = .ok (clause, ws) ∧
        ConfinesTo tenant clause q.whereSQL q.params) ∧
    ∀ input q, planAggregate parseUuid registry entityName input ctx policies = .ok q →
      ∃ plan tenant clause ws,
        planAggregateParts parseUuid registry entityName input ctx policies =
          .ok (plan, q.params) ∧
        q.sql = plan.sql ∧ parseUuid ctx.tenantID = some tenant ∧
        recordPolicyWhereClause parseUuid policies ctx [.uuid tenant] = .ok (clause, ws) ∧
        ConfinesTo tenant clause plan.whereSQL q.params := by
  constructor
  · intro input q hplan
    obtain ⟨entity, tenant, listView, scope, rest, ws, sortExpr, -, htenant, -, hparts⟩ :=
      planList_eq_ok default hplan
    obtain ⟨clause, hclause, hconfines⟩ :=
      confinesTo_of_scope hparts.scope_eq hparts.scope_prefix hparts.readable
    exact ⟨tenant, clause, ws, scopedTenant_eq_ok htenant, hclause, hparts.where_eq ▸ hconfines⟩
  · intro input q hplan
    obtain ⟨⟨plan, params⟩, hparts, hret⟩ := except_bind_eq_ok hplan
    cases hret
    obtain ⟨entity, tenant, scope, rest, ws, te, -, htenant, hpart⟩ :=
      planAggregateParts_eq_ok default hparts
    obtain ⟨clause, hclause, hconfines⟩ :=
      confinesTo_of_scope hpart.scope_eq hpart.scope_prefix hpart.readable
    exact ⟨plan, tenant, clause, ws, hparts, rfl, scopedTenant_eq_ok htenant, hclause,
      hpart.where_eq ▸ hconfines⟩

/-- An entity with one text field and one list view that filters by it. -/
def taskEntity : EntityDefinition where
  name := "app.task"
  tableName := "app.task"
  fields := [{ name := "title", kind := .string }]
  listViews := [{ name := "all", filters := ["title"], maxLimit := 50 }]

theorem taskEntity_wellFormed : taskEntity.WellFormed where
  safe_table := by decide
  safe_names := by decide
  nodup_names := by decide
  filters_known := by decide
  state_declared := by simp [taskEntity]
  setFields_not_state := by simp [taskEntity]
  state_not_system := by simp [taskEntity]

def taskRegistry : MetadataRegistry := ⟨[taskEntity], by simpa using taskEntity_wellFormed⟩

/-- Records that are not archived may be read. -/
def taskPolicies : List PolicyRow :=
  [{ action := "read", subject := "record"
     condition := some (.attribute "status" .neq (.literal (some (.str "archived")))) }]

def taskContext : RequestContext := { tenantID := UuidCodec.dashed.format 7 }

def taskListInput : ListInput := { limit := 10, jql := some "title = 'a' OR NOT title ~ 'b'" }

def taskAggregateInput : AggregateInput :=
  { metrics := [{ func := .count }], filters := [("title", "a OR true")], limit := 10 }

theorem exists_planList_task : ∃ q, planList UuidCodec.dashed.parse (fun _ => none) taskRegistry
    "app.task" taskListInput taskContext taskPolicies = .ok q :=
  exists_eq_ok_of_isOk (by decide +kernel)

theorem exists_planAggregate_task :
    ∃ q, planAggregate UuidCodec.dashed.parse taskRegistry "app.task"
    taskAggregateInput taskContext taskPolicies = .ok q :=
  exists_eq_ok_of_isOk (by decide +kernel)

/-- A disjunction in the JQL of a restricted caller, and a filtered count. -/
theorem planned_where_confines_task :
    let parseUuid := UuidCodec.dashed.parse
    (∃ q, planList parseUuid (fun _ => none) taskRegistry "app.task" taskListInput taskContext
        taskPolicies = .ok q ∧
      ∃ tenant clause ws, parseUuid taskContext.tenantID = some tenant ∧
        recordPolicyWhereClause parseUuid taskPolicies taskContext [.uuid tenant] =
          .ok (clause, ws) ∧
        ConfinesTo tenant clause q.whereSQL q.params) ∧
    ∃ q, planAggregate parseUuid taskRegistry "app.task" taskAggregateInput taskContext
        taskPolicies = .ok q ∧
      ∃ plan tenant clause ws,
        planAggregateParts parseUuid taskRegistry "app.task" taskAggregateInput taskContext
          taskPolicies = .ok (plan, q.params) ∧
        q.sql = plan.sql ∧ parseUuid taskContext.tenantID = some tenant ∧
        recordPolicyWhereClause parseUuid taskPolicies taskContext [.uuid tenant] =
          .ok (clause, ws) ∧
        ConfinesTo tenant clause plan.whereSQL q.params := by
  intro parseUuid
  obtain ⟨hlist, haggregate⟩ :=
    planned_where_confines parseUuid (fun _ => none) taskRegistry "app.task" taskContext
      taskPolicies
  obtain ⟨q, hq⟩ := exists_planList_task
  obtain ⟨q', hq'⟩ := exists_planAggregate_task
  exact ⟨⟨q, hq, hlist taskListInput q hq⟩, ⟨q', hq', haggregate taskAggregateInput q' hq'⟩⟩

/-- A compiled filter is read as one condition, whose truth combines those of its tests as the
filter does, each test having the truth of its own text.  The condition of a planned list is the
conjunction of this truth with those of the caller's scope, the other filters and the cursor. -/
theorem compiled_jql_means (pg : Backend) (parseUuid : String → Option Uuid)
    (readCursor : String → Option Cursor) (registry : MetadataRegistry) {entityName : String}
    {entity : EntityDefinition} (hentity : registry.getEntity entityName = some entity) :
    (∀ e ws s ws', compileJqlExpr entity e ws = .ok (s, ws') → ∀ fin, ws' <+: fin →
      ∃ cond, parse s = some cond ∧
        ∀ row, truth pg (envOf row fin) cond = jqlTruth pg entity row e) ∧
    ∀ input ctx policies q,
      planList parseUuid readCursor registry entityName input ctx policies = .ok q →
      ∃ cond tenant listView, parse q.whereSQL = some cond ∧
        ∀ row, truth pg (envOf row q.params) cond = allTruth
          (scopeTruths pg parseUuid tenant policies ctx ++ (filterTruths pg entity listView input ++
            cursorTruths pg parseUuid readCursor entity (pageSort entity listView input)
              input.cursor)) row := by
  constructor
  · intro e ws s ws' hcompile fin hfin
    have hwf := MetadataRegistry.wellFormed_of_getEntity hentity
    obtain ⟨cond, hread, htruth, -⟩ := (builds_compileJqlExpr hwf pg e ws s ws' hcompile).2 fin hfin
    exact ⟨cond, (hread.loosen .or (by decide)).parse_eq, htruth⟩
  · intro input ctx policies q hplan
    obtain ⟨entity', tenant, listView, hentity', -, -, hmeaning⟩ := planList_means pg hplan
    cases hentity.symm.trans hentity'
    obtain ⟨cond, hparse, htruth⟩ := hmeaning.where_means
    exact ⟨cond, tenant, listView, hparse, htruth⟩

/-- A negated disjunction, and a disjunction in a list. -/
theorem compiled_jql_means_task :
    (∃ s ws cond, compileJqlExpr taskEntity
        (.not (.or (.isEmpty "title" false) [.isEmpty "title" true])) [] = .ok (s, ws) ∧
      parse s = some cond ∧ ∀ row, truth default (envOf row ws) cond =
        ((nullTruth false (jqlOperand default taskEntity row "title")).or
          ((nullTruth true (jqlOperand default taskEntity row "title")).or .ff)).not) ∧
    ∃ q cond, planList UuidCodec.dashed.parse (fun _ => none) taskRegistry "app.task" taskListInput
      taskContext taskPolicies = .ok q ∧ parse q.whereSQL = some cond := by
  have hentity : taskRegistry.getEntity "app.task" = some taskEntity := rfl
  obtain ⟨hexpr, hlist⟩ :=
    compiled_jql_means default UuidCodec.dashed.parse (fun _ => none) taskRegistry hentity
  obtain ⟨cond, hparse, htruth⟩ := hexpr (.not (.or (.isEmpty "title" false)
    [.isEmpty "title" true])) [] _ _ rfl _ List.prefix_rfl
  obtain ⟨q, hq⟩ := exists_planList_task
  obtain ⟨cond', tenant, listView, hparse', -⟩ := hlist _ _ _ q hq
  refine ⟨⟨_, _, cond, rfl, hparse, fun row => ?_⟩, q, cond', hq, hparse'⟩
  rw [htruth]
  simp only [jqlTruth, jqlTruthAny]

end

end Metap.Query
