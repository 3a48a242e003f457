import Metap.Crud.ReferenceGuard

/-!
# Which planned statements pass the database's check

Every generator of the planner writes its fields through `fieldHasRealColumn`, and the text around
a field decides its use.  The meaning of each generated text comes with its type, so the type of a
whole statement is known from its request: a list query, an aggregation or the delete guard is in
order exactly when all its uses of fields fit (`listFits`, `aggregateFits`, `guardFits`).
-/

namespace Metap.Reconciler

open Sql Builder Query Crud

variable {policies : List PolicyRow} {ctx : RequestContext}

section

variable {entity : EntityDefinition} {schema : PhysicalSchema} (hc : Compiled entity schema)

/-! ## List queries -/

/-- The texts of a list query pass the database's check over the columns. -/
def ListTyped (cols : String → Option PgType) (q : PlannedListQuery) : Prop :=
  (∃ e, parse q.whereSQL = some e ∧ typeOf cols e = some .boolean) ∧
    ∃ keys, parseOrderBy q.orderBySQL = some keys ∧ ∀ k ∈ keys, (typeOf cols k.expr).isSome

/-- Every use a list request makes of a field fits, its sort included. -/
def listFits (parseUuid : String → Option Uuid) (readCursor : String → Option Cursor)
    (entity : EntityDefinition) (listView : Option EntityListView) (input : ListInput) : Bool :=
  (listUses parseUuid readCursor entity listView input).all id &&
    nameFits entity (pageSort entity listView input).field .read

variable {C : Set (String → Option PgType)} {cols : String → Option PgType}
  {fin ws : List BindValue} {pg : Backend}

/-- The type of a conjunction that starts with conditions that are in order. -/
theorem boolean_of_join {α : Type} {xs : List α}
    {truths : List ((String → Option Value) → Truth)} {oks : List Bool} {texts : List String}
    (h : MeanAll pg C fin truths (xs.map (fun _ => true) ++ oks) texts) (hne : truths ≠ [])
    (hcols : cols ∈ C) :
    (∃ e, parse (join " AND " texts) = some e ∧ typeOf cols e = some .boolean) ↔
      oks.all id = true := by
  obtain ⟨cond, hcond, -, htype⟩ := h.parse_join hne
  simp [hcond, htype cols hcols]

include hc

/-- A planned list query passes the database's check exactly when its uses of fields fit. -/
theorem listTyped_iff {parseUuid : String → Option Uuid}
    {readCursor : String → Option Cursor} {tenant : Uuid} {listView : Option EntityListView}
    {input : ListInput} {q : PlannedListQuery} {scope rest : List String} {sortExpr : String}
    (h : ListParts pg parseUuid readCursor entity tenant listView input ctx policies q scope rest ws
      sortExpr) : ListTyped (columnTypes schema) q ↔
      listFits parseUuid readCursor entity listView input = true := by
  unfold ListTyped listFits
  rw [h.where_eq, h.order_eq, Bool.and_eq_true]
  refine and_congr
    (boolean_of_join h.where_means (by simp [listTruths, scopeTruths]) (columnTypes_mem hc)) ?_
  obtain ⟨e, hread, -, -, htype⟩ := h.order_means
  have hid : columnTypes schema "id" = some .uuid := columnTypes_framework hc (by decide)
  rw [parseOrderBy_orderBySQL hread, ← typeFits_resolvedType, ← htype _ (columnTypes_mem hc)]
  simp [hid, typeFits]

/-! ## Aggregations -/

/-- Every use an aggregation request makes of a field fits. -/
def aggregateFits (entity : EntityDefinition) (input : AggregateInput) : Bool :=
  (aggregateFilters entity input.filters).all (fun fv => fieldFits fv.1 (aggregateFilterUse fv)) &&
    (!usesTime input || timeFits entity (timeFieldName input)) &&
    groupFits entity input.groupBy && input.metrics.all (metricFits entity)

/-- A text reads as an expression that has a type. -/
def OutputTyped (cols : String → Option PgType) (s : String) : Prop :=
  ∃ e, parse s = some e ∧ (typeOf cols e).isSome

/-- The texts of an aggregation pass the database's check over the columns; its `ORDER BY` names
columns of the result. -/
def AggregateTyped (cols : String → Option PgType) (p : AggregatePlan) : Prop :=
  (∃ e, parse p.whereSQL = some e ∧ typeOf cols e = some .boolean) ∧
    ∀ o ∈ p.keyTexts ++ p.metricTexts, OutputTyped cols o.1

omit hc in
theorem outputTyped_iff {lvl : Level} {s : String}
    {v : (String → Option Value) → Option Value} {t : Option PgType}
    (h : Denotes pg C lvl fin s v t) (hle : lvl.rank ≤ Level.or.rank) (hcols : cols ∈ C) :
    OutputTyped cols s ↔ t.isSome = true := by
  obtain ⟨e, hread, -, -, htype⟩ := h
  rw [OutputTyped, (hread.loosen .or hle).parse_eq]
  simp [htype cols hcols]

/-- The type of a metric's column. -/
theorem outputTyped_metric {metric : AggregateMetric} {s : String}
    (h : IsMetricText pg entity metric s fin) :
    OutputTyped (columnTypes schema) ("(" ++ s ++ ")::float8") ↔
      metricFits entity metric = true := by
  obtain ⟨e, hread, htype, hvalue⟩ := h
  rw [OutputTyped, parse_metricColumn hread]
  simp only [Option.some.injEq, exists_eq_left']
  rw [typeOf, typeOf, typesOf, typesOf, htype _ (columnTypes_mem hc), Bool.eq_iff_iff.symm]
  cases hfield : metric.field.bind entity.field? with
  | none =>
    have hnone : metricValue pg entity metric = none := by
      cases hname : metric.field <;> simp_all [metricValue]
    rw [hnone] at hvalue
    obtain ⟨hname, hcount, -⟩ := hvalue
    simp only [metricArgType, metricFits, hname, hcount]
    rfl
  | some field =>
    obtain ⟨name, hname, hfield⟩ := Option.bind_eq_some_iff.mp hfield
    simp only [metricArgType, metricFits, hname, hfield, Option.bind_some, Option.map_some,
      Option.getD_some, Option.all_some]
    by_cases hcount : metric.func = .count
    · rw [if_pos hcount, if_pos hcount, hcount, ← typeFits_fieldType]
      cases fieldType field <;> rfl
    · rw [if_neg hcount, if_neg hcount]
      cases fieldFits field .text with
      | false => rfl
      | true =>
        cases hfunc : metric.func with
        | count => exact absurd hfunc hcount
        | sum | avg | min | max => rfl

omit hc in
/-- The output columns of a plan. -/
theorem forall_mem_outputs {p : AggregatePlan} {q : String → Prop} :
    (∀ o ∈ p.keyTexts ++ p.metricTexts, q o.1) ↔
      (∀ s ∈ p.bucketExpr, q s) ∧ (∀ s ∈ p.groupExpr, q ("(" ++ s ++ ")::text")) ∧
        ∀ m ∈ p.metrics, q ("(" ++ m.1 ++ ")::float8") := by
  simp only [AggregatePlan.keyTexts, AggregatePlan.metricTexts, List.forall_mem_append,
    List.forall_mem_map, Option.mem_toList, Option.mem_def, and_assoc]

omit hc in
theorem aggregateFits_iff (input : AggregateInput) : aggregateFits entity input = true ↔
    (aggregateUses entity input).all id = true ∧
      (input.bucket.isSome = true → timeFits entity (timeFieldName input) = true) ∧
      groupFits entity input.groupBy = true ∧ ∀ m ∈ input.metrics, metricFits entity m = true := by
  rw [aggregateFits, aggregateUses, usesTime]
  cases timeFits entity (timeFieldName input) <;> cases input.since <;> cases input.until <;>
    cases input.bucket <;> simp [and_assoc]

omit hc in
theorem forall_mem_iff_of_forall₂ {α β : Type} {p : β → Prop} {q : α → Prop} {xs : List α}
    {ys : List β} (h : List.Forall₂ (fun x y => p y ↔ q x) xs ys) :
    (∀ y ∈ ys, p y) ↔ ∀ x ∈ xs, q x := by
  induction h with
  | nil => simp
  | cons hx _ ih => rw [List.forall_mem_cons, List.forall_mem_cons, hx, ih]

/-- A planned aggregation passes the database's check exactly when its uses of fields fit. -/
theorem aggregateTyped_iff {parseUuid : String → Option Uuid} {tenant : Uuid}
    {input : AggregateInput}
    {plan : AggregatePlan} {params : List BindValue} {scope rest : List String} {te : Option String}
    (h : AggregateParts pg parseUuid entity tenant input ctx policies plan params scope rest ws te)
    : AggregateTyped (columnTypes schema) plan ↔ aggregateFits entity input = true := by
  have hmem := columnTypes_mem hc
  have hwhere := boolean_of_join h.where_means (by simp [aggregateTruths, scopeTruths]) hmem
  have hkeys : (∀ s ∈ plan.bucketExpr, OutputTyped (columnTypes schema) s) ↔
      (input.bucket.isSome = true → timeFits entity (timeFieldName input) = true) := by
    rw [h.bucket_eq]
    unfold bucketExpression
    cases hbucket : input.bucket with
    | none => simp
    | some b =>
      obtain ⟨te', hte⟩ := Option.isSome_iff_exists.mp
        (h.time_used.trans (by simp [usesTime, hbucket]))
      have htyped := outputTyped_iff (denotes_bucket b (h.time_means te' hte)) (by decide) hmem
      rw [hte]
      cases hfits : timeFits entity (timeFieldName input) <;> simpa [hfits, typeIf] using htyped
  have hgroup : (∀ s ∈ plan.groupExpr, OutputTyped (columnTypes schema) ("(" ++ s ++ ")::text")) ↔
      groupFits entity input.groupBy = true := by
    have hrel := h.group_means
    revert hrel
    rcases plan.groupExpr with _ | s <;> rcases input.groupBy with _ | name <;> rintro ⟨⟩
    · simp [groupFits]
    · next hfield =>
      obtain ⟨field, hfield, hdenotes⟩ := hfield
      have htyped := outputTyped_iff (denotes_groupText hdenotes) (by decide) hmem
      have hfits : (castType .text (fieldType field)).isSome = groupFits entity (some name) := by
        rw [groupFits, Option.all_some, hfield, Option.all_some, ← typeFits_fieldType]
        cases fieldType field with
        | none => rfl
        | some t => cases t <;> rfl
      rw [← hfits, ← htyped]
      simp
  have hfolds := forall_mem_iff_of_forall₂
    (p := fun m => OutputTyped (columnTypes schema) ("(" ++ m.1 ++ ")::float8"))
    (q := fun m => metricFits entity m = true)
    (h.metrics_mean.imp fun _ _ hm => outputTyped_metric hc hm.2)
  unfold AggregateTyped
  rw [forall_mem_outputs (q := OutputTyped (columnTypes schema)), h.where_eq, aggregateFits_iff]
  exact and_congr hwhere (and_congr hkeys (and_congr hgroup hfolds))

/-! ## The delete guard -/

/-- The condition of a guard's query passes the database's check over the columns. -/
def GuardTyped (cols : String → Option PgType) (whereSQL : String) : Prop :=
  ∃ e, parse whereSQL = some e ∧ typeOf cols e = some .boolean

/-- The entity's fields that can refer to the target are columns a guard can compare. -/
def guardFits (entity : EntityDefinition) (target : String) : Bool :=
  entity.fields.all fun f =>
    !(f.kind = .reference && f.refEntity = some target) || fieldFits f .equals

/-- No other registered entity uses the entity's table. -/
def OwnTable (registry : MetadataRegistry) (entity : EntityDefinition) : Prop :=
  ∀ e ∈ registry.entities,
    ((registry.getEntity e.name).map EntityDefinition.tableName).getD "" = entity.tableName →
      e = entity

/-- A guard's query on the table of an entity passes the database's check exactly when the
references it compares fit. -/
theorem guardTyped_iff {codec : UuidCodec} {registry : MetadataRegistry} {target : String}
    (tenantID id : Uuid) (hown : OwnTable registry entity) (hmem : entity ∈ registry.entities)
    (hget : registry.getEntity entity.name = some entity)
    (hgroup : guardGroup (referencingFields registry target) entity.tableName ≠ [])
    {whereSQL : String} {args : List BindValue} (hrun : guardWhere codec tenantID id
      (guardGroup (referencingFields registry target) entity.tableName) [] = .ok (whereSQL, args)) :
    GuardTyped (columnTypes schema) whereSQL ↔ guardFits entity target = true := by
  have hfields : ∀ r ∈ guardGroup (referencingFields registry target) entity.tableName,
      ∃ field ∈ entity.fields, r.refField = field.name ∧ field.kind = .reference ∧
        field.refEntity = some target := by
    intro r hr
    obtain ⟨href, htable⟩ := List.mem_filter.mp hr
    obtain ⟨summary, hsummary, field, hfield, hkind, hrefers, -, hname, -, hrefTable⟩ :=
      exists_of_mem_referencingFields href
    rw [decide_eq_true_eq, hrefTable] at htable
    obtain rfl := hown summary hsummary htable
    exact ⟨field, hfield, hname, hkind, hrefers⟩
  -- a reference to a named entity has a column, which a guard compares at its type
  have hreal : ∀ field : EntityField, field.kind = .reference → field.refEntity = some target →
      fieldHasRealColumn field = true ∧
        comparesWith (ownColumnType field) (some .uuid) = fieldFits field .equals := by
    intro field hkind hrefers
    have hreal : fieldHasRealColumn field = true := by simp [fieldHasRealColumn, hkind, hrefers]
    rw [← typeFits_fieldType]
    simp [fieldType, equalsCast, hreal, hkind]
    rfl
  have hcolumns : GuardColumns (guardGroup (referencingFields registry target) entity.tableName)
      (columnTypings entity) fun r => (entity.field? r.refField).bind ownColumnType := by
    refine guardColumns_of_typed (columnTypings_subset entity) (fun r hr cols hcols => ?_)
      fun r hr => ?_ <;> obtain ⟨field, hfield, hname, hkind, hrefers⟩ := hfields r hr <;>
      rw [hname, hc.wellFormed.field?_eq_some hfield]
    · exact hcols.2 field hfield (hreal field hkind hrefers).1
    · exact ownColumnType_ne field
  obtain ⟨cond, hcond, -, htype⟩ := parse_guardWhere default hcolumns hgroup hrun
  rw [GuardTyped, hcond]
  simp only [Option.some.injEq, exists_eq_left', htype _ (columnTypes_mem hc), boolIf_eq_some,
    and_true]
  rw [List.all_eq_true, guardFits, List.all_eq_true]
  constructor
  · intro h f hf
    by_cases hrefers : f.kind = .reference ∧ f.refEntity = some target
    · have hr := mem_referencingFields hmem hf hrefers.1 hrefers.2
      have hfits := h _ (List.mem_filter.mpr ⟨hr, by simp [hget]⟩)
      rw [hc.wellFormed.field?_eq_some hf, Option.bind_some,
        (hreal f hrefers.1 hrefers.2).2] at hfits
      simp [hfits]
    · simp only [not_and] at hrefers
      by_cases hkind : f.kind = .reference
      · simp [hrefers hkind]
      · simp [hkind]
  · intro h r hr
    obtain ⟨field, hfield, hname, hkind, hrefers⟩ := hfields r hr
    rw [hname, hc.wellFormed.field?_eq_some hfield, Option.bind_some, (hreal field hkind hrefers).2]
    simpa [hkind, hrefers] using h field hfield

end

/-! ## All statements -/

section

variable (parseUuid : String → Option Uuid) (readCursor : String → Option Cursor)
  {registry : MetadataRegistry} {entity : EntityDefinition} {schema : PhysicalSchema}

theorem planList_typed_iff (hentity : registry.getEntity entity.name = some entity)
    (hcompile : compile entity = .ok schema) {input : ListInput} {q : PlannedListQuery}
    (h : planList parseUuid readCursor registry entity.name input ctx policies = .ok q) :
    ∃ view, selectListView entity input.listView = .ok view ∧
      (ListTyped (columnTypes schema) q ↔
        listFits parseUuid readCursor entity view input = true) := by
  obtain ⟨entity', tenant, view, scope, rest, ws, sortExpr, hentity', -, hview, hparts⟩ :=
    planList_eq_ok default h
  obtain rfl := Option.some.inj (hentity.symm.trans hentity')
  exact ⟨view, hview,
    listTyped_iff ⟨MetadataRegistry.wellFormed_of_getEntity hentity, hcompile⟩ hparts⟩

theorem planAggregate_typed_iff (hentity : registry.getEntity entity.name = some entity)
    (hcompile : compile entity = .ok schema) {input : AggregateInput} {plan : AggregatePlan}
    {params : List BindValue}
    (h : planAggregateParts parseUuid registry entity.name input ctx policies =
      .ok (plan, params)) :
    AggregateTyped (columnTypes schema) plan ↔ aggregateFits entity input = true := by
  obtain ⟨entity', tenant, scope, rest, ws, te, hentity', -, hparts⟩ :=
    planAggregateParts_eq_ok default h
  obtain rfl := Option.some.inj (hentity.symm.trans hentity')
  exact aggregateTyped_iff ⟨MetadataRegistry.wellFormed_of_getEntity hentity, hcompile⟩ hparts

/-- The statements planned over a compiled table, and the guard's query on it, pass the database's
check exactly when every use they make of a field fits. -/
theorem planned_fits_iff (codec : UuidCodec) {registry : MetadataRegistry}
    {entity : EntityDefinition} {schema : PhysicalSchema}
    (hentity : registry.getEntity entity.name = some entity)
    (hcompile : compile entity = .ok schema) :
    (∀ input ctx policies q,
      planList parseUuid readCursor registry entity.name input ctx policies = .ok q →
        ∃ view, selectListView entity input.listView = .ok view ∧
          (ListTyped (columnTypes schema) q ↔
            listFits parseUuid readCursor entity view input = true)) ∧
    (∀ input ctx policies plan params,
      planAggregateParts parseUuid registry entity.name input ctx policies = .ok (plan, params) →
        (AggregateTyped (columnTypes schema) plan ↔ aggregateFits entity input = true)) ∧
    ∀ target tenantID id whereSQL args, OwnTable registry entity →
      guardGroup (referencingFields registry target) entity.tableName ≠ [] →
      guardWhere codec tenantID id
        (guardGroup (referencingFields registry target) entity.tableName) [] =
          .ok (whereSQL, args) →
        (GuardTyped (columnTypes schema) whereSQL ↔ guardFits entity target = true) := by
  refine ⟨?_, ?_, ?_⟩
  · exact fun _ _ _ _ h => planList_typed_iff parseUuid readCursor hentity hcompile h
  · exact fun _ _ _ _ _ h => planAggregate_typed_iff parseUuid hentity hcompile h
  · intro target tenantID id whereSQL args hown hgroup hrun
    have hc : Compiled entity schema :=
      ⟨MetadataRegistry.wellFormed_of_getEntity hentity, hcompile⟩
    exact guardTyped_iff hc tenantID id hown (List.mem_of_find?_eq_some hentity) hentity hgroup hrun

end

/-! ### Two fields the planner and the compiler disagree on -/

def titleField : EntityField :=
  { name := "title", kind := .string, searchable := some true, storage := some .column }

def amountField : EntityField := { name := "amount", kind := .number, storage := some .column }

/-- An invoice whose title is searched and whose amount is summed, each promoted to a column. -/
def invoiceEntity : EntityDefinition where
  name := "billing.invoice"
  tableName := "app.billing_invoice"
  fields := [titleField, amountField, { name := "note", kind := .string }]
  listViews :=
    [{ name := "all", fields := ["title"], filters := ["title", "note"], maxLimit := 50 }]

theorem validate_invoiceEntity : validate invoiceEntity = [] := by decide

def invoiceRegistry : MetadataRegistry where
  entities := [invoiceEntity]
  wellFormed := by
    intro e he
    cases List.mem_singleton.mp he
    exact wellFormed_of_validate validate_invoiceEntity

def invoiceCaller : RequestContext :=
  { tenantID := UuidCodec.dashed.format 7, hasRoles := true, roles := some ["admin"] }

def titleSearch : ListInput := { limit := 10, filters := [("title", "rent")] }

def noteFilter : ListInput := { limit := 10, filters := [("note", "rent")] }

def amountSum : AggregateInput :=
  { metrics := [{ func := .sum, field := some "amount" }], limit := 10 }

/-- A filter on a member of `data` is in order; an aggregation over the table is when it counts. -/
theorem planned_fits_invoice : ∃ schema, compile invoiceEntity = .ok schema ∧
    ∃ q, planList UuidCodec.dashed.parse (fun _ => none) invoiceRegistry "billing.invoice"
      noteFilter
        invoiceCaller [] = .ok q ∧ ListTyped (columnTypes schema) q := by
  obtain ⟨schema, hschema⟩ :=
    exists_eq_ok_of_isOk (show (compile invoiceEntity).isOk = true by decide)
  obtain ⟨q, hq⟩ := exists_eq_ok_of_isOk (show (planList UuidCodec.dashed.parse (fun _ => none)
    invoiceRegistry "billing.invoice" noteFilter invoiceCaller []).isOk = true by decide)
  have hentity : invoiceRegistry.getEntity invoiceEntity.name = some invoiceEntity := rfl
  obtain ⟨hlist, -⟩ := planned_fits_iff UuidCodec.dashed.parse (fun _ => none) UuidCodec.dashed
    hentity
    hschema
  obtain ⟨view, hview, hiff⟩ := hlist noteFilter invoiceCaller [] q hq
  cases hview
  exact ⟨schema, hschema, q, hq, hiff.mpr (by decide)⟩

/-- Searching the title names a column the table does not have, and summing the amount compares a
number with the empty text. -/
theorem invoice_statements_refused : validate invoiceEntity = [] ∧
    ∃ schema, compile invoiceEntity = .ok schema ∧ columnTypes schema "title" = none ∧
      (∃ q, planList UuidCodec.dashed.parse (fun _ => none) invoiceRegistry "billing.invoice"
          titleSearch invoiceCaller [] = .ok q ∧
        q.whereSQL = "tenant_id = $1 AND deleted = false AND \"title\" ILIKE $2" ∧
        ¬ListTyped (columnTypes schema) q) ∧
      ∃ plan params, planAggregateParts UuidCodec.dashed.parse invoiceRegistry "billing.invoice"
          amountSum invoiceCaller [] = .ok (plan, params) ∧
        plan.metrics = [("sum(NULLIF(\"amount\", '')::numeric)", "sum_amount")] ∧
        columnTypes schema "amount" = some .float8 ∧ ¬AggregateTyped (columnTypes schema) plan := by
  obtain ⟨schema, hschema⟩ :=
    exists_eq_ok_of_isOk (show (compile invoiceEntity).isOk = true by decide)
  obtain ⟨q, hq, hwhere⟩ := exists_ok_of_decide (planList UuidCodec.dashed.parse (fun _ => none)
      invoiceRegistry "billing.invoice" titleSearch invoiceCaller [])
    (fun q => q.whereSQL = "tenant_id = $1 AND deleted = false AND \"title\" ILIKE $2")
    (by decide)
  obtain ⟨⟨plan, params⟩, hplan, hmetrics⟩ := exists_ok_of_decide (planAggregateParts
      UuidCodec.dashed.parse invoiceRegistry "billing.invoice" amountSum invoiceCaller [])
    (fun p => p.1.metrics = [("sum(NULLIF(\"amount\", '')::numeric)", "sum_amount")])
    (by decide)
  have hentity : invoiceRegistry.getEntity invoiceEntity.name = some invoiceEntity := rfl
  have hc : Compiled invoiceEntity schema :=
    ⟨wellFormed_of_validate validate_invoiceEntity, hschema⟩
  obtain ⟨view, hview, hiff⟩ :=
    planList_typed_iff UuidCodec.dashed.parse (fun _ => none) hentity hschema hq
  cases hview
  have htitle : titleField ∈ invoiceEntity.fields := by simp [invoiceEntity]
  have hamount : amountField ∈ invoiceEntity.fields := by simp [invoiceEntity]
  refine ⟨validate_invoiceEntity, schema, hschema, ?_, ⟨q, hq, hwhere, ?_⟩, plan, params,
    hplan, hmetrics, ?_, ?_⟩
  · exact columnTypes_own hc htitle rfl
  · rw [hiff]
    decide
  · exact columnTypes_own hc hamount rfl
  · rw [planAggregate_typed_iff UuidCodec.dashed.parse hentity hschema hplan]
    decide

end Metap.Reconciler
