import Metap.Query.ListMeaning

/-!
# What a planned aggregation computes

The parts of an aggregation plan are texts; here each is given its meaning on a row.  The `WHERE`
text is the conjunction of the scope's conditions, the honoured filters and the two ends of the
time range (`aggregateTruths`); the bucket, the group and the argument of every metric are values
of the row (`timeValue`, `ownValue`, `metricValue`).
-/

namespace Metap.Query

open Sql Builder Reconciler

/-! ## Values -/

section

variable (pg : Backend)

/-- A declared field's value: its own column, or its member of `data`. -/
def ownValue (field : EntityField) (row : String → Option Value) : Option Value :=
  if fieldHasRealColumn field then row field.name else memberValue pg row field.name

/-- A value at a type, its blank text turned to null first. -/
def unblankedAs (ty : SqlType) (v : Option Value) : Option Value :=
  (v.bind fun a => evalCall pg "nullif" [a, .text ""]).bind (castOp pg ty)

/-- The value of the time axis. -/
def timeValue (entity : EntityDefinition) (name : String) (row : String → Option Value) :
    Option Value :=
  if name = "createdAt" then row "created_at"
  else if name = "updatedAt" then row "updated_at"
  else (entity.field? name).bind fun field =>
    unblankedAs pg .timestamptz (ownValue pg field row)

/-- The value a metric folds; a metric without a field counts rows. -/
def metricValue (entity : EntityDefinition) (metric : AggregateMetric) :
    Option ((String → Option Value) → Option Value) := do
  let field ← entity.field? (← metric.field)
  return fun row =>
    if metric.func = .count then ownValue pg field row
    else unblankedAs pg .numeric (ownValue pg field row)

/-- The truth of one filter on a row. -/
def aggregateFilterTruth (row : String → Option Value) (filter : EntityField × String) : Truth :=
  let v := ownValue pg filter.1 row
  if filter.2 = "" then nullTruth false v
  else
    let ty :=
      if fieldHasRealColumn filter.1 ∧ (filter.1.kind = .reference ∨ filter.1.kind = .id) then
        some SqlType.uuid
      else none
    strict₂ (compareOp pg .eq) v (boundAt pg ty v (some (.text filter.2)))

/-- One end of the time range. -/
def timeTruths (entity : EntityDefinition) (input : AggregateInput) (o : Op)
    (bound : Option String) : List ((String → Option Value) → Truth) :=
  bound.toList.map fun b row =>
    strict₂ (compareOp pg o) (timeValue pg entity (timeFieldName input) row)
      (castTo pg (some .timestamptz) (some (.text b)))

/-- The conditions on a row that the `WHERE` text of an aggregation is the conjunction of. -/
def aggregateTruths (parseUuid : String → Option Uuid) (entity : EntityDefinition) (tenant : Uuid)
    (input : AggregateInput) (ctx : RequestContext) (policies : List PolicyRow) :
    List ((String → Option Value) → Truth) :=
  scopeTruths pg parseUuid tenant policies ctx ++
    (((aggregateFilters entity input.filters).map fun fv row => aggregateFilterTruth pg row fv) ++
      timeTruths pg entity input .ge input.since ++ timeTruths pg entity input .lt input.until)

end

/-! ## Texts -/

theorem separates_ge : Separates " >= " [.op .ge] := ⟨rfl, by simp [Delimited]; decide, by simp⟩

section

variable {entity : EntityDefinition} (hwf : entity.WellFormed) (pg : Backend)
include hwf

variable {field : EntityField}

theorem builds_valueExpression (hfield : field ∈ entity.fields) :
    Builds (valueExpression field) fun s fin => Denotes pg (columnTypings entity) .prim fin s
      (ownValue pg field) (fieldType field) := by
  unfold valueExpression fieldType
  split
  · next hreal =>
    refine builds_pure fun _ => (denotes_column hwf hfield hreal).congr fun row => ?_
    simp [ownValue, hreal]
  · next hreal =>
    refine builds_bind (builds_pushBind pg _) fun ph => builds_pure fun _ hph => ?_
    refine (denotes_dataField (columnTypings_subset entity) (hph _)).congr fun row => ?_
    simp [ownValue, hreal]

theorem builds_aggregateFilterCondition (hfield : field ∈ entity.fields) (value : String) :
    Builds (aggregateFilterCondition field value) fun s fin =>
      Means pg (columnTypings entity) .not fin s
        (fun row => aggregateFilterTruth pg row (field, value))
        (fieldFits field (aggregateFilterUse (field, value))) := by
  refine builds_bind (builds_valueExpression hwf pg hfield) fun expr => ?_
  simp only [aggregateFilterTruth, aggregateFilterUse, ← typeFits_fieldType]
  split
  · exact builds_pure fun _ hexpr => hexpr.operand.isNull false
  refine builds_bind (builds_pushBind pg _) fun ph => builds_pure fun fin hph hexpr => ?_
  have hcast : equalsCast field = if fieldHasRealColumn field ∧
      (field.kind = .reference ∨ field.kind = .id) then some .uuid else none := by
    simp only [equalsCast, Bool.and_eq_true, Bool.or_eq_true, decide_eq_true_eq]
  have hsuffix : IsCastSuffix (if fieldHasRealColumn field ∧
      (field.kind = .reference ∨ field.kind = .id) then "::uuid" else "") (equalsCast field) := by
    rw [hcast]
    split
    · exact isCastSuffix_castSuffix .uuid
    · rfl
  have hmeans := hexpr.operand.compares (fieldType_ne field)
      ((hph _).bound hsuffix) separates_eq rfl
  simp only [boundAs_castTo] at hmeans
  rwa [← hcast]

omit hwf in
/-- A value whose blank is turned to null, at a cast type. -/
theorem denotes_unblanked {pg : Backend} {C : Set (String → Option PgType)} {fin : List BindValue}
    {expr suffix : String} {v : (String → Option Value) → Option Value} {t : Option PgType}
    (h : Denotes pg C .prim fin expr v t) {ty : SqlType} (hsuffix : IsCastSuffix suffix (some ty)) :
    Denotes pg C .cast fin ("NULLIF(" ++ expr ++ ", ''" ++ ")" ++ suffix)
      (fun row => unblankedAs pg ty (v row)) (typeIf (t.any PgType.asText) ty.pgType) := by
  obtain ⟨e, hread, heval, -, htype⟩ := h
  have hblank : Reads .prim "''" (.str "") := reads_str ⟨_, _, _, rfl, rfl, rfl⟩
  have hfn : LexesIdle "NULLIF(" [.ident "nullif", .lparen] := rfl
  have hcall : Denotes pg C .prim fin _ _ (typeIf (t.any PgType.asText) .text) :=
    denotes_call₂ hfn hread hblank (by decide) heval (fun row => by rw [eval])
      (typeIf_ne (by decide) _) fun cols hcols => by
        rw [typeOf, typesOf, typesOf, typesOf, htype cols hcols, typeOf]
        cases t with
        | none => rfl
        | some t => cases t <;> rfl
  have hcast : castTypeTo (some ty) (typeIf (t.any PgType.asText) .text) =
      typeIf (t.any PgType.asText) ty.pgType := by
    cases t.any PgType.asText <;> cases ty <;> rfl
  rw [← hcast]
  exact (hcall.castTo hsuffix).of_text (by simp)

theorem builds_numericExpression (hfield : field ∈ entity.fields) :
    Builds (numericExpression field) fun s fin => Denotes pg (columnTypings entity) .cast fin s
      (fun row => unblankedAs pg .numeric (ownValue pg field row))
      (typeIf (fieldFits field .text) .numeric) := by
  refine builds_bind (builds_valueExpression hwf pg hfield) fun expr => builds_pure ?_
  intro fin hexpr
  rw [← typeFits_fieldType]
  exact (denotes_unblanked hexpr isCastSuffix_numeric).of_text (by simp)

theorem builds_timestampExpression (name : String) :
    Builds (timestampExpression name entity) fun s fin => Denotes pg (columnTypings entity) .cast
      fin s (timeValue pg entity name) (typeIf (timeFits entity name) .timestamptz) := by
  unfold timestampExpression
  split
  · next hname =>
    subst hname
    exact builds_pure fun _ => denotes_created_at.operand
  next hcreated =>
  split
  · next hname =>
    subst hname
    exact builds_pure fun _ => denotes_updated_at.operand
  next hupdated =>
  cases hfield : entity.field? name with
  | none => exact builds_fail
  | some field =>
    dsimp only
    split
    · exact builds_fail
    have hmem := (EntityDefinition.mem_of_field?_eq_some hfield).1
    refine builds_bind (builds_valueExpression hwf pg hmem) fun expr => builds_pure ?_
    intro fin hexpr
    have hfits : timeFits entity name = fieldFits field .text := by
      simp [timeFits, hcreated, hupdated, hfield]
    rw [hfits, ← typeFits_fieldType]
    refine ((denotes_unblanked hexpr isCastSuffix_timestamptz).of_text (by simp)).congr
      fun row => ?_
    simp [timeValue, hcreated, hupdated, hfield]

theorem builds_timeAxis (input : AggregateInput) : Builds (timeAxis entity input) fun te fin =>
      te.isSome = usesTime input ∧ ∀ s ∈ te, Denotes pg (columnTypings entity) .cast fin s
        (timeValue pg entity (timeFieldName input))
        (typeIf (timeFits entity (timeFieldName input)) .timestamptz) := by
  unfold timeAxis
  split
  · next huses =>
    refine builds_map (builds_timestampExpression hwf pg _) fun s fin hs => ⟨?_, ?_⟩
    · simpa [usesTime, or_assoc] using huses
    · rintro _ ⟨⟩
      exact hs
  · next huses =>
    refine builds_pure fun fin => ⟨?_, by simp⟩
    simpa [usesTime, and_assoc, not_or] using huses

omit hwf in
theorem builds_timeCondition (entity : EntityDefinition) (input : AggregateInput)
    (timeExpr : Option String) {sep : String} {o : Op} (hsep : Separates sep [.op o])
    (ho : o.isComparison = true) (bound : Option String) :
    Builds (timeCondition timeExpr sep bound) fun ss fin =>
      (bound.isSome = true → timeExpr.isSome = true) →
      (∀ s ∈ timeExpr, Denotes pg (columnTypings entity) .cast fin s
        (timeValue pg entity (timeFieldName input))
        (typeIf (timeFits entity (timeFieldName input)) .timestamptz)) →
        MeanAll pg (columnTypings entity) fin (timeTruths pg entity input o bound)
          (bound.toList.map fun _ => timeFits entity (timeFieldName input)) ss := by
  unfold timeCondition
  split
  · next te b =>
    refine builds_bind (builds_pushBind pg _) fun ph => builds_pure fun fin hph _ hte => ?_
    have hcmp := (hte te rfl).compares (typeIf_ne (by decide) _)
      ((hph _).bound isCastSuffix_timestamptz) hsep ho
    have htype : ∀ fits, comparesWith (typeIf fits .timestamptz)
        (some (boundType (some .timestamptz))) = fits := by decide
    rw [htype] at hcmp
    exact .cons hcmp .nil
  · next hnone =>
    refine builds_pure fun fin hused _ => ?_
    cases bound with
    | none => exact .nil
    | some b =>
      obtain ⟨te, hte⟩ := Option.isSome_iff_exists.mp (hused rfl)
      exact absurd rfl (hnone te b hte)

/-- The conditions an aggregation request adds, and its time axis. -/
theorem builds_aggregateConditions (input : AggregateInput) :
    Builds (aggregateConditions entity input) fun r fin =>
      (r.2.isSome = usesTime input ∧ ∀ s ∈ r.2, Denotes pg (columnTypings entity) .cast fin s
        (timeValue pg entity (timeFieldName input))
        (typeIf (timeFits entity (timeFieldName input)) .timestamptz)) ∧
      MeanAll pg (columnTypings entity) fin
        (((aggregateFilters entity input.filters).map fun fv row =>
            aggregateFilterTruth pg row fv) ++ timeTruths pg entity input .ge input.since ++
          timeTruths pg entity input .lt input.until) (aggregateUses entity input) r.1 := by
  have hfilter : ∀ fv ∈ aggregateFilters entity input.filters,
      Builds (aggregateFilterCondition fv.1 fv.2) fun s fin =>
        Means pg (columnTypings entity) .not fin s (fun row => aggregateFilterTruth pg row fv)
          (fieldFits fv.1 (aggregateFilterUse fv)) := by
    intro fv hfv
    obtain ⟨kv, _, hkv⟩ := List.mem_filterMap.mp hfv
    obtain ⟨field, hfield, rfl⟩ := Option.map_eq_some_iff.mp hkv
    have hmem := (EntityDefinition.mem_of_field?_eq_some hfield).1
    exact builds_aggregateFilterCondition hwf pg hmem kv.2
  refine builds_bind (builds_mapM _ hfilter) fun filters => ?_
  refine builds_bind (builds_timeAxis hwf pg input) fun te => ?_
  refine builds_bind (builds_timeCondition pg entity input te separates_ge rfl input.since)
    fun since => ?_
  refine builds_bind (builds_timeCondition pg entity input te separates_lt rfl input.until)
    fun before => builds_pure ?_
  intro fin hbefore hsince hte hfilters
  refine ⟨hte, ((meanAll_of_forall₂ hfilters).append (hsince ?_ hte.2)).append (hbefore ?_ hte.2)⟩
  · intro h
    simp [hte.1, usesTime, h]
  · intro h
    simp [hte.1, usesTime, h]

theorem builds_groupExpression (groupBy : Option String) :
    Builds (groupExpression entity groupBy) fun g fin =>
      Option.Rel (fun s name => ∃ field, entity.field? name = some field ∧
        Denotes pg (columnTypings entity) .prim fin s (ownValue pg field) (fieldType field))
        g groupBy := by
  cases groupBy with
  | none => exact builds_pure fun _ => .none
  | some name =>
    simp only [groupExpression]
    cases hfield : entity.field? name with
    | none => exact builds_fail
    | some field =>
      have hmem := (EntityDefinition.mem_of_field?_eq_some hfield).1
      have hgroupable : Builds (assertGroupable field entity) fun _ _ => True := by
        unfold assertGroupable
        split
        · exact builds_pure fun _ => trivial
        · exact builds_fail
      refine builds_bind hgroupable fun _ => ?_
      exact builds_map (builds_valueExpression hwf pg hmem) fun s fin hs _ =>
        .some ⟨field, hfield, hs⟩

end

/-! ## Metrics -/

theorem lexesIdle_sqlName (f : AggregateFn) :
    LexesIdle (f.sqlName ++ "(") [.ident f.sqlName, .lparen] := by
  cases f <;> rfl

theorem reads_countStar : Reads .prim "count(*)" (.call "count" [.star]) :=
  ⟨[.ident "count", .lparen, .star, .rparen], ⟨_, _, _, rfl, rfl, rfl⟩,
    parses_prim_of_parsePrim (fun _ _ _ => rfl) (by simp)⟩

/-- A call with one argument. -/
theorem reads_call₁ {fn f arg : String} {e : Expr} (hfn : LexesIdle fn [.ident f, .lparen])
    (harg : Reads .or arg e) : Reads .prim (fn ++ arg ++ ")") (.call f [e]) := by
  have hcall := reads_call hfn (.cons harg .nil)
  simpa [join, joinTail] using hcall

/-- The type of what a metric folds. -/
def metricArgType (entity : EntityDefinition) (metric : AggregateMetric) : Option PgType :=
  ((metric.field.bind entity.field?).map fun f =>
    if metric.func = .count then fieldType f else typeIf (fieldFits f .text) .numeric).getD
      (some .unknown)

/-- `s` is the text of a metric: a fold of its value, or of the rows themselves. -/
def IsMetricText (pg : Backend) (entity : EntityDefinition) (metric : AggregateMetric)
    (s : String) (fin : List BindValue) : Prop :=
  ∃ e, Reads .prim s (.call metric.func.sqlName [e]) ∧
    (∀ cols ∈ columnTypings entity, typeOf cols e = metricArgType entity metric) ∧
    match metricValue pg entity metric with
    | none => metric.field = none ∧ metric.func = .count ∧ e = .star
    | some v => ∀ row, eval pg (envOf row fin) e = v row

variable {entity : EntityDefinition}

theorem isMetricText_of_denotes {pg : Backend}
    {metric : AggregateMetric} {fin : List BindValue} {arg : String} {lvl : Level}
    {v : (String → Option Value) → Option Value} (hvalue : metricValue pg entity metric = some v)
    (harg : Denotes pg (columnTypings entity) lvl fin arg v (metricArgType entity metric))
    (hle : lvl.rank ≤ Level.or.rank) :
    IsMetricText pg entity metric (metric.func.sqlName ++ "(" ++ arg ++ ")") fin := by
  obtain ⟨e, hread, heval, -, htype⟩ := harg
  rw [IsMetricText, hvalue]
  exact ⟨e, reads_call₁ (lexesIdle_sqlName _) (hread.loosen .or hle), htype, heval⟩

theorem builds_metricExpression (hwf : entity.WellFormed)
    (pg : Backend) (metric : AggregateMetric) :
    Builds (metricExpression entity metric) (IsMetricText pg entity metric) := by
  unfold metricExpression
  cases hname : metric.field with
  | none =>
    dsimp only
    split
    · next hcount =>
      refine builds_pure fun fin => ?_
      have hvalue : metricValue pg entity metric = none := by simp [metricValue, hname]
      rw [IsMetricText, hvalue, hcount]
      exact ⟨_, reads_countStar, fun _ _ => by simp [metricArgType, hname], hname, rfl, rfl⟩
    · exact builds_fail
  | some name =>
    dsimp only
    cases hfield : entity.field? name with
    | none => exact builds_fail
    | some field =>
      have hmem := (EntityDefinition.mem_of_field?_eq_some hfield).1
      dsimp only
      split
      · next hcount =>
        refine builds_bind (builds_valueExpression hwf pg hmem) fun expr => builds_pure ?_
        intro fin hexpr
        have hvalue : metricValue pg entity metric = some (ownValue pg field) := by
          simp [metricValue, hname, hfield, hcount]
        have hargument : metricArgType entity metric = fieldType field := by
          simp [metricArgType, hname, hfield, hcount]
        have htext := isMetricText_of_denotes hvalue (hargument ▸ hexpr) (by decide)
        rwa [hcount] at htext
      next hfold =>
      split
      · exact builds_fail
      · refine builds_bind (builds_numericExpression hwf pg hmem) fun expr => builds_pure ?_
        intro fin hexpr
        have hvalue : metricValue pg entity metric =
            some fun row => unblankedAs pg .numeric (ownValue pg field row) := by
          simp [metricValue, hname, hfield, hfold]
        have hargument : metricArgType entity metric = typeIf (fieldFits field .text) .numeric := by
          simp [metricArgType, hname, hfield, hfold]
        exact isMetricText_of_denotes hvalue (hargument ▸ hexpr) (by decide)

theorem builds_metricColumn (hwf : entity.WellFormed) (pg : Backend) (metric : AggregateMetric) :
    Builds (metricColumn entity metric) fun m fin =>
      m.2 = metric.alias ∧ IsMetricText pg entity metric m.1 fin :=
  builds_bind (builds_metricExpression hwf pg metric) fun _ =>
    builds_pure fun _ hs => ⟨rfl, hs⟩

/-! ## The grouped query -/

namespace AggregatePlan

variable (p : AggregatePlan)

/-- The columns a query groups by: each expression's text and the name of its column. -/
def keyTexts : List (String × String) :=
  p.bucketExpr.toList.map (·, "bucket") ++
    p.groupExpr.toList.map fun e => ("(" ++ e ++ ")::text", "group")

/-- The columns of the metrics. -/
def metricTexts : List (String × String) :=
  p.metrics.map fun m => ("(" ++ m.1 ++ ")::float8", m.2)

end AggregatePlan

section

variable {pg : Backend} {C : Set (String → Option PgType)} {fin : List BindValue} {s : String}
  {v : (String → Option Value) → Option Value} {t : Option PgType}
  {row row' : String → Option Value}

/-- The bucket's text: the time axis cut to its unit. -/
theorem denotes_bucket {fits : Bool} (b : TimeBucket)
    (h : Denotes pg C .cast fin s v (typeIf fits .timestamptz)) :
    Denotes pg C .prim fin ("date_trunc('" ++ b.truncUnit ++ "', " ++ s ++ ")")
      (fun row => (v row).bind fun a => evalCall pg "date_trunc" [.text b.truncUnit, a])
      (typeIf fits .timestamptz) := by
  obtain ⟨e, hread, heval, -, htype⟩ := h
  have hunit : Reads .prim ("'" ++ b.truncUnit ++ "'") (.str b.truncUnit) := by
    cases b <;> exact reads_str ⟨_, _, _, rfl, rfl, rfl⟩
  have hfn : LexesIdle "date_trunc(" [.ident "date_trunc", .lparen] := rfl
  have hcall : Denotes pg C .prim fin _ _ (typeIf fits .timestamptz) :=
    denotes_call₂ hfn hunit hread (by decide) (fun row => by rw [eval]) heval
      (typeIf_ne (by decide) _) fun cols hcols => by
      rw [typeOf, typesOf, typesOf, typesOf, typeOf, htype cols hcols]
      cases fits <;> rfl
  exact hcall.of_text (by simp)

/-- The group's text at its output type. -/
theorem denotes_groupText (h : Denotes pg C .prim fin s v t) :
    Denotes pg C .cast fin ("(" ++ s ++ ")::text") (fun row => castTo pg (some .text) (v row))
      (castType .text t) := by
  have hsuffix : IsCastSuffix "::text" (some .text) :=
    ⟨⟨_, _, _, rfl, rfl, rfl⟩, by simp [Delimited]; decide⟩
  exact ((h.paren (by decide)).castTo hsuffix).of_text (by simp)

/-- The column of a metric is a cast of its text. -/
theorem parse_metricColumn {e : Expr} (h : Reads .prim s e) :
    parse ("(" ++ s ++ ")::float8") = some (.cast e .float8) := by
  have hcast := ((h.loosen .or (by decide)).paren).castFloat8
  have htext : "(" ++ s ++ ")" ++ "::float8" = "(" ++ s ++ ")::float8" := by
    apply String.toList_injective
    simp
  rw [htext] at hcast
  exact (hcast.loosen .or (by decide)).parse_eq

end

/-- The parts of an aggregation plan. -/
structure AggregateParts (pg : Backend) (parseUuid : String → Option Uuid)
    (entity : EntityDefinition) (tenant : Uuid) (input : AggregateInput) (ctx : RequestContext)
    (policies : List PolicyRow) (plan : AggregatePlan) (params : List BindValue)
    (scope rest : List String) (ws : List BindValue) (te : Option String) : Prop where
  scope_eq : scopeConditions parseUuid tenant policies ctx [] = .ok (scope, ws)
  scope_prefix : ws <+: params
  readable : ∀ s ∈ rest, Readable .not s
  where_eq : plan.whereSQL = join " AND " (scope ++ rest)
  where_means : MeanAll pg (columnTypings entity) params
    (aggregateTruths pg parseUuid entity tenant input ctx policies)
    ((scopeTruths pg parseUuid tenant policies ctx).map (fun _ => true) ++
      aggregateUses entity input) (scope ++ rest)
  bucket_eq : plan.bucketExpr = bucketExpression input.bucket te
  time_used : te.isSome = usesTime input
  time_means : ∀ s ∈ te, Denotes pg (columnTypings entity) .cast params s
    (timeValue pg entity (timeFieldName input))
    (typeIf (timeFits entity (timeFieldName input)) .timestamptz)
  group_means : Option.Rel (fun s name => ∃ field, entity.field? name = some field ∧
    Denotes pg (columnTypings entity) .prim params s (ownValue pg field) (fieldType field))
    plan.groupExpr input.groupBy
  metrics_mean : List.Forall₂ (fun metric m => m.2 = metric.alias ∧
    IsMetricText pg entity metric m.1 params) input.metrics plan.metrics

variable {input : AggregateInput} {plan : AggregatePlan}

theorem planAggregateParts_eq_ok (pg : Backend) {parseUuid : String → Option Uuid}
    {registry : MetadataRegistry} {entityName : String}
    {ctx : RequestContext} {policies : List PolicyRow} {params : List BindValue}
    (h : planAggregateParts parseUuid registry entityName input ctx policies = .ok (plan, params)) :
    ∃ entity tenant scope rest ws te, registry.getEntity entityName = some entity ∧
      scopedTenant parseUuid ctx = .ok tenant ∧
      AggregateParts pg parseUuid entity tenant input ctx policies plan params scope rest ws
        te := by
  unfold planAggregateParts at h
  split at h
  · cases h
  next entity hentity =>
  split at h
  · cases h
  split at h
  · cases h
  have hwf := MetadataRegistry.wellFormed_of_getEntity hentity
  obtain ⟨tenant, htenant, hrun⟩ := except_bind_eq_ok h
  obtain ⟨scope, ws, hscope, hrun⟩ := bind_eq_ok hrun
  obtain ⟨requested, ws₁, hrequested, hrun⟩ := bind_eq_ok hrun
  obtain ⟨group, ws₂, hgroup, hrun⟩ := bind_eq_ok hrun
  obtain ⟨metrics, ws₃, hmetrics, hret⟩ := bind_eq_ok hrun
  cases hret
  -- every part keeps its meaning under the parameters pushed after it
  obtain ⟨hext₁, hrequest⟩ := builds_aggregateConditions hwf pg input _ _ _ hrequested
  obtain ⟨hext₂, hgroupText⟩ := builds_groupExpression hwf pg input.groupBy _ _ _ hgroup
  obtain ⟨hext₃, hmetricTexts⟩ :=
    builds_mapM _ (fun m _ => builds_metricColumn hwf pg m) _ _ _ hmetrics
  have hext := hext₁.trans (hext₂.trans hext₃)
  have hscopeMeans := (builds_scopeConditions pg tenant policies ctx _ _ _ hscope).2 _ hext
  obtain ⟨htime, hconditions⟩ := hrequest _ (hext₂.trans hext₃)
  exact ⟨entity, tenant, scope, requested.1, ws, requested.2, hentity, htenant, {
    scope_eq := hscope
    scope_prefix := hext
    readable := hconditions.readable
    where_eq := rfl
    where_means := (hscopeMeans.mono (columnTypings_subset entity)).append hconditions
    bucket_eq := rfl
    time_used := htime.1
    time_means := htime.2
    group_means := hgroupText _ hext₃
    metrics_mean := hmetricTexts _ List.prefix_rfl }⟩

end Metap.Query
