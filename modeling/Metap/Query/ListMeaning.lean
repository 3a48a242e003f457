import Metap.Framework.Sql.Like
import Metap.Framework.Sql.Select
import Metap.Query.JqlMeaning
import Metap.Query.PolicyMeaning

/-!
# What a planned list query selects

`planList` answers with two texts and their parameters.  Here they are given their meaning:
`listTruths` are the conditions on a row that the `WHERE` text is the conjunction of, one for the
tenant, the soft-delete flag, the record policies, each honoured filter, the JQL and the cursor,
and the `ORDER BY` text orders by the sort field's value and then by the id.

The main result is `planList_means`.  Everything proved later about which rows a list shows, and
in what order, starts from it and does not look at the texts again.  With the meaning goes the
database's check: the texts pass it by the uses the request makes of fields (`listUses`).
-/

namespace Metap.Query

open Sql Builder Reconciler

/-! ## The sort expression -/

def SortColType.sqlType : SortColType → Option SqlType
  | timestamptz => some .timestamptz
  | uuid => some .uuid
  | text => none

/-- The type of the column a field is sorted by. -/
def sortColType (entity : EntityDefinition) (name : String) : SortColType :=
  if name = "createdAt" ∨ name = "updatedAt" then .timestamptz
  else if (entity.field? name).any fun f =>
      fieldHasRealColumn f && (f.kind = .reference || f.kind = .id) then .uuid
  else .text

theorem isCastSuffix_castSuffix (ct : SortColType) : IsCastSuffix ct.castSuffix ct.sqlType := by
  cases ct with
  | timestamptz => exact isCastSuffix_timestamptz
  | uuid =>
    exact ⟨⟨_, _, _, rfl, rfl, rfl⟩, by simp [Delimited, SortColType.castSuffix]; decide⟩
  | text => rfl

theorem sqlType_sortColType (entity : EntityDefinition) (name : String) :
    (sortColType entity name).sqlType = nameCast entity name := by
  unfold sortColType nameCast
  split
  · rfl
  cases entity.field? name with
  | none => rfl
  | some f =>
    simp only [Option.any_some, Option.bind_some, equalsCast]
    split <;> rfl

/-- `r` is the text of a field and the type of its column. -/
def IsSortText (pg : Backend) (entity : EntityDefinition) (name : String)
    (r : String × SortColType) (fin : List BindValue) : Prop :=
  r.2 = sortColType entity name ∧ Denotes pg (columnTypings entity) .prim fin r.1
    (resolvedValue pg entity name) (resolvedType entity name)

variable {entity : EntityDefinition}

theorem builds_sortFieldExpression (hwf : entity.WellFormed) (pg : Backend) (name : String) :
    Builds (sortFieldExpression name (entity.field? name)) (IsSortText pg entity name) := by
  unfold sortFieldExpression
  split
  · next hname =>
    subst hname
    exact builds_pure fun fin => ⟨by simp [sortColType], denotes_created_at⟩
  next hcreated =>
  split
  · next hname =>
    subst hname
    exact builds_pure fun fin => ⟨by simp [sortColType], denotes_updated_at⟩
  next hupdated =>
  have hname := not_or.mpr ⟨hcreated, hupdated⟩
  cases hfilter : (entity.field? name).filter fun f => fieldHasRealColumn f with
  | some f =>
    obtain ⟨hfield, hreal⟩ := Option.filter_eq_some_iff.mp hfilter
    refine builds_pure fun fin => ⟨?_, denotes_name_column hwf hname hfield hreal⟩
    simp [sortColType, hcreated, hupdated, hfield, hreal]
  | none =>
    have hmember : ∀ f ∈ entity.field? name, fieldHasRealColumn f = false := by
      simpa [Option.filter_eq_none_iff] using hfilter
    refine builds_bind (builds_pushBind pg _) fun ph => builds_pure fun fin hph => ⟨?_, ?_⟩
    · cases hfield : entity.field? name with
      | none => simp [sortColType, hcreated, hupdated, hfield]
      | some f => simp [sortColType, hcreated, hupdated, hfield, hmember f hfield]
    · exact denotes_name_member hname hmember (hph _)

/-! ## Filters -/

/-- The truth of one filter on a row. -/
def filterTruth (pg : Backend) (entity : EntityDefinition) (row : String → Option Value)
    (filter : String × String) : Truth :=
  let v := resolvedValue pg entity filter.1 row
  let searchable := (entity.field? filter.1).any fun f => boolOrFalse f.searchable
  let isFTS := searchable && (entity.field? filter.1).any fun f => f.searchMode = some "fts"
  if isFTS then ftsTruth pg v (some (.text filter.2))
  else if searchable then strict₂ (ilikeOp pg) v (some (.text (ilikeEscape filter.2)))
  else if filter.2 = "" then nullTruth false v
  else
    strict₂ (compareOp pg .eq) v
      (boundAt pg (sortColType entity filter.1).sqlType v (some (.text filter.2)))

theorem builds_filterCondition (hwf : entity.WellFormed) (pg : Backend) (filter : String × String) :
    Builds (filterCondition entity filter) fun s fin =>
      Means pg (columnTypings entity) .not fin s (fun row => filterTruth pg entity row filter)
        (nameFits entity filter.1 (filterUse entity filter)) := by
  refine builds_bind (builds_sortFieldExpression hwf pg filter.1) fun r => ?_
  simp only [filterTruth, filterUse, ← typeFits_resolvedType]
  split
  · refine builds_bind (builds_pushBind pg _) fun ph => builds_pure fun _ hph hr => ?_
    exact means_fts hr.2 (hph _)
  split
  · refine builds_bind (builds_pushBind pg _) fun ph => builds_pure fun _ hph hr => ?_
    exact hr.2.operand.ilike false (hph _).operand
  split
  · exact builds_pure fun _ hr => hr.2.operand.isNull false
  · refine builds_bind (builds_pushBind pg _) fun ph => builds_pure fun fin hph hr => ?_
    have hbound := (hph (columnTypings entity)).bound (isCastSuffix_castSuffix r.2)
    rw [hr.1, sqlType_sortColType] at hbound
    rw [hr.1, sqlType_sortColType]
    have hmeans := hr.2.operand.compares (resolvedType_ne entity filter.1) hbound separates_eq rfl
    simp only [boundAs_castTo] at hmeans
    exact hmeans

/-! ## The cursor -/

/-- Being strictly after a position: `bound` is the position's value, absent when it is null. -/
def cursorTruth (pg : Backend) (descending : Bool) (bound : Option (Option Value))
    (cursorID : Uuid) (v id : Option Value) : Truth :=
  let tie := strict₂ (compareOp pg .gt) id (some (.uuid cursorID))
  match descending, bound with
  | false, some w =>
    (strict₂ (compareOp pg .gt) v w).or
      (((strict₂ (compareOp pg .eq) v w).and tie).or (nullTruth false v))
  | true, some w =>
    (strict₂ (compareOp pg .lt) v w).or ((strict₂ (compareOp pg .eq) v w).and tie)
  | false, none => (nullTruth false v).and tie
  | true, none => ((nullTruth false v).and tie).or (nullTruth true v)

theorem separates_gt : Separates " > " [.op .gt] := ⟨rfl, by simp [Delimited]; decide, by simp⟩

theorem separates_lt : Separates " < " [.op .lt] := ⟨rfl, by simp [Delimited]; decide, by simp⟩

/-- The four forms of the cursor condition: with a value the field is compared, without one it is
only read. -/
theorem means_cursorCondition {pg : Backend} {fin : List BindValue}
    {name sortExpr idPh : String} {v : (String → Option Value) → Option Value} {cursorID : Uuid}
    {valuePh : Option String} {bound : Option (Option Value)} (descending : Bool)
    (hsort : Denotes pg (columnTypings entity) .prim fin sortExpr v (resolvedType entity name))
    (hid : Denotes pg (columnTypings entity) .prim fin idPh (fun _ => some (.uuid cursorID))
      (some .unknown))
    (hvalue : Option.Rel (fun ph w => Denotes pg (columnTypings entity) .cast fin ph (fun _ => w)
      (some (boundType (nameCast entity name)))) valuePh bound) :
    Means pg (columnTypings entity) .not fin (cursorCondition sortExpr descending valuePh idPh)
      (fun row => cursorTruth pg descending
        (bound.map (boundAs pg (some (boundType (nameCast entity name))) (v row))) cursorID (v row)
        (row "id"))
      (nameFits entity name (if bound.isSome then .equals else .read)) := by
  have hcol : Denotes pg (columnTypings entity) .prim fin "id" (fun row => row "id") (some .uuid) :=
    denotes_framework ⟨[], _, _, rfl, rfl, rfl⟩ (by decide) (columnTypings_subset entity)
  have htie : Means pg (columnTypings entity) .not fin ("id" ++ " > " ++ idPh)
      (fun row => strict₂ (compareOp pg .gt) (row "id") (some (.uuid cursorID))) true :=
    hcol.operand.compares (by decide) hid.operand separates_gt rfl
  have hnull (negated : Bool) : Means pg (columnTypings entity) .not fin
      (sortExpr ++ (if negated then " IS NOT NULL" else " IS NULL"))
      (fun row => nullTruth negated (v row)) (nameFits entity name .read) := by
    rw [← typeFits_resolvedType]
    exact hsort.operand.isNull negated
  cases hvalue with
  | none =>
    have hblock := (hnull false).pair .and htie
    rw [Bool.and_true] at hblock
    cases descending with
    | false =>
      exact hblock.condition.of_text (by delta cursorCondition; simp [toString, Chain.sep])
    | true =>
      have hpair := hblock.condition.pair .or (hnull true)
      rw [Bool.and_self] at hpair
      exact hpair.condition.of_text (by delta cursorCondition; simp [toString, Chain.sep])
  | @some ph w hw =>
    have hcompare {o : Op} {sep : String} (hsep : Separates sep [.op o])
        (ho : o.isComparison = true) : Means pg (columnTypings entity) .not fin
          (sortExpr ++ sep ++ ph) (fun row => strict₂ (compareOp pg o) (v row)
            (boundAs pg (some (boundType (nameCast entity name))) (v row) w))
          (nameFits entity name .equals) := by
      rw [← typeFits_resolvedType]
      exact hsort.operand.compares (resolvedType_ne entity name) hw hsep ho
    have heq := (hcompare separates_eq rfl).pair .and htie
    rw [Bool.and_true] at heq
    cases descending with
    | false =>
      have hgt := ((hcompare separates_gt rfl).paren (by decide)).condition
      have htriple := hgt.triple heq.condition (hnull false)
      -- what can be compared can be read
      have hall : (nameFits entity name .equals &&
          (nameFits entity name .equals && nameFits entity name .read)) =
            nameFits entity name .equals := by
        rw [← typeFits_resolvedType, ← typeFits_resolvedType]
        cases resolvedType entity name <;> simp [typeFits]
      rw [hall] at htriple
      exact htriple.condition.of_text (by delta cursorCondition; simp [toString, Chain.sep])
    | true =>
      have hlt := ((hcompare separates_lt rfl).paren (by decide)).condition
      have hpair := hlt.pair .or heq.condition
      rw [Bool.and_self] at hpair
      exact hpair.condition.of_text (by delta cursorCondition; simp [toString, Chain.sep])

section

variable (pg : Backend) (parseUuid : String → Option Uuid) (readCursor : String → Option Cursor)

/-- The value a cursor's text is bound as, beside the sort value of a row. -/
def cursorBound (entity : EntityDefinition) (sort : ResolvedSort) (c : Cursor) (v : Option Value) :
    Option (Option Value) :=
  c.value.map fun text => boundAt pg (sortColType entity sort.field).sqlType v (some (.text text))

/-- Being after the request's cursor: no condition without one. -/
def cursorTruths (entity : EntityDefinition) (sort : ResolvedSort) (cursor : Option String) :
    List ((String → Option Value) → Truth) :=
  (cursorPosition parseUuid readCursor cursor).toList.map fun p row =>
    let v := resolvedValue pg entity sort.field row
    cursorTruth pg sort.descending (cursorBound pg entity sort p.1 v) p.2 v (row "id")

end

section

variable {parseUuid : String → Option Uuid} {readCursor : String → Option Cursor}

theorem builds_cursorConditions (pg : Backend) (entity : EntityDefinition)
    (cursor : Option String) (sort : ResolvedSort) (r : String × SortColType) :
    Builds (cursorConditions parseUuid readCursor cursor sort r.1 r.2) fun ss fin =>
      IsSortText pg entity sort.field r fin →
        (∀ p ∈ cursorPosition parseUuid readCursor cursor,
          p.1.field = sort.field ∧ p.1.dir = sort.dir) ∧
        MeanAll pg (columnTypings entity) fin
          (cursorTruths pg parseUuid readCursor entity sort cursor)
          ((cursorPosition parseUuid readCursor cursor).toList.map fun p =>
            nameFits entity sort.field (cursorUse p.1)) ss := by
  unfold cursorConditions
  cases cursor with
  | none => exact builds_pure fun _ _ => ⟨by simp [cursorPosition], .nil⟩
  | some raw =>
    dsimp only
    cases hdecode : decodeCursor readCursor raw with
    | none => exact builds_fail
    | some c =>
      dsimp only
      split
      · exact builds_fail
      next hown =>
      cases hid : parseUuid c.id with
      | none => exact builds_fail
      | some cursorID =>
        have hposition : cursorPosition parseUuid readCursor (some raw) = some (c, cursorID) := by
          simp [cursorPosition, hdecode, hid]
        have hvalue : Builds (c.value.mapM (bindCursorValue r.2)) fun ph fin =>
            IsSortText pg entity sort.field r fin →
              Option.Rel (fun ph w => Denotes pg (columnTypings entity) .cast fin ph (fun _ => w)
                (some (boundType (nameCast entity sort.field)))) ph
                (c.value.map fun text =>
                  castTo pg (nameCast entity sort.field) (some (.text text))) := by
          cases c.value with
          | none => exact builds_pure fun _ _ => .none
          | some text =>
            have hbind : Builds (bindCursorValue r.2 text) fun ph fin =>
                Denotes pg (columnTypings entity) .cast fin ph
                  (fun _ => castTo pg r.2.sqlType (some (.text text)))
                  (some (boundType r.2.sqlType)) :=
              builds_bind (builds_pushBind pg _) fun ph => builds_pure fun fin hph =>
                (hph _).bound (isCastSuffix_castSuffix r.2)
            refine builds_map hbind fun ph fin hph hr => .some ?_
            rw [hr.1] at hph
            simpa only [sqlType_sortColType] using hph
        refine builds_bind hvalue fun valuePh => ?_
        refine builds_bind (builds_pushBind pg _) fun idPh => builds_pure ?_
        intro fin hidPh hvaluePh hr
        refine ⟨?_, ?_⟩
        · rw [hposition]
          rintro p ⟨⟩
          simpa [not_or] using hown
        · have hmeans := means_cursorCondition sort.descending hr.2 (hidPh _) (hvaluePh hr)
          simp only [Option.isSome_map, Option.map_map, Function.comp_def, boundAs_castTo,
            ← sqlType_sortColType] at hmeans
          rw [cursorTruths, hposition]
          exact .cons hmeans .nil

/-! ## The conjunction -/

/-- The conditions every query starts with: the tenant, the soft-delete flag and, for a restricted
caller, the record policies. -/
def scopeTruths (pg : Backend) (parseUuid : String → Option Uuid) (tenant : Uuid)
    (policies : List PolicyRow) (ctx : RequestContext) :
    List ((String → Option Value) → Truth) :=
  [fun row => strict₂ (compareOp pg .eq) (row "tenant_id") (some (.uuid tenant)),
    fun row => strict₂ (compareOp pg .eq) (row "deleted") (some (.bool false))] ++
  if policies.isEmpty || ctx.isAdmin then []
  else [recordPolicyTruth parseUuid pg policies ctx]

section

variable {pg : Backend} {C : Set (String → Option PgType)} {fin : List BindValue}
  (hC : C ⊆ frameworkTypings)

include hC

theorem means_tenant {tenant : Uuid} {ph : String}
    (h : Denotes pg C .prim fin ph (fun _ => some (.uuid tenant)) (some .unknown)) :
    Means pg C .not fin ("tenant_id = " ++ ph)
      (fun row => strict₂ (compareOp pg .eq) (row "tenant_id") (some (.uuid tenant))) true := by
  have hcol : Denotes pg C .prim fin "tenant_id" _ _ :=
    denotes_framework ⟨[], _, _, rfl, rfl, rfl⟩ (by decide) hC
  exact (hcol.operand.compares (frameworkType_ne _) h.operand separates_eq rfl).of_text (by simp)

theorem means_deleted : Means pg C .not fin "deleted = false"
    (fun row => strict₂ (compareOp pg .eq) (row "deleted") (some (.bool false))) true := by
  have hcol : Denotes pg C .prim fin "deleted" _ _ :=
    denotes_framework ⟨[], _, _, rfl, rfl, rfl⟩ (by decide) hC
  exact (hcol.operand.compares (frameworkType_ne _) (denotes_bool false).operand separates_eq
    rfl).of_text (by decide)

end

theorem builds_scopeConditions (pg : Backend) (tenant : Uuid) (policies : List PolicyRow)
    (ctx : RequestContext) : Builds (scopeConditions parseUuid tenant policies ctx) fun ss fin =>
      MeanAll pg frameworkTypings fin (scopeTruths pg parseUuid tenant policies ctx)
        ((scopeTruths pg parseUuid tenant policies ctx).map fun _ => true) ss := by
  refine builds_bind (builds_pushBind pg _) fun ph => ?_
  refine builds_bind (builds_recordPolicyWhereClause pg policies ctx) fun clause => builds_pure ?_
  intro fin hclause hph
  have hscope := MeanAll.cons (means_tenant subset_rfl (hph _))
    (.cons (means_deleted subset_rfl) .nil)
  rw [scopeTruths, List.map_append]
  refine hscope.append ?_
  cases clause with
  | none =>
    have hfree : (policies.isEmpty || ctx.isAdmin) = true := by
      simpa [IsPolicyClause] using hclause
    rw [if_pos hfree]
    exact .nil
  | some s =>
    obtain ⟨hrestricted, hmeans⟩ := hclause
    have hbound : ¬(policies.isEmpty || ctx.isAdmin) = true := by simpa using hrestricted
    rw [if_neg hbound]
    exact .cons hmeans.condition .nil

section

variable (pg : Backend) (parseUuid : String → Option Uuid) (readCursor : String → Option Cursor)
  (entity : EntityDefinition) (listView : Option EntityListView) (input : ListInput)

/-- The conditions a list request adds before its cursor. -/
def filterTruths : List ((String → Option Value) → Truth) :=
  ((honouredFilters listView input).map fun kv row => filterTruth pg entity row kv) ++
    (jqlFilter input.jql).map fun e row => jqlTruth pg entity row e

/-- The conditions on a row that the `WHERE` text of a list query is the conjunction of. -/
def listTruths (tenant : Uuid) (ctx : RequestContext) (policies : List PolicyRow) :
    List ((String → Option Value) → Truth) :=
  scopeTruths pg parseUuid tenant policies ctx ++
    (filterTruths pg entity listView input ++
      cursorTruths pg parseUuid readCursor entity (pageSort entity listView input) input.cursor)

end

theorem builds_jqlConditions {entity : EntityDefinition} (hwf : entity.WellFormed)
    (pg : Backend) (jql : Option String) : Builds (jqlConditions entity jql) fun r fin =>
      r.2 = jqlOrder jql ∧ MeanAll pg (columnTypings entity) fin
        ((jqlFilter jql).map fun e row => jqlTruth pg entity row e)
        ((jqlFilter jql).map (jqlFits entity)) r.1.toList := by
  cases jql with
  | none => exact builds_pure fun _ => ⟨rfl, .nil⟩
  | some text => exact builds_parseAndCompileJQL hwf pg text

/-- What a list request adds: its conditions, its sort and the sort's text. -/
theorem builds_requestConditions {entity : EntityDefinition} (hwf : entity.WellFormed)
    (pg : Backend) (listView : Option EntityListView) (input : ListInput) :
    Builds (requestConditions parseUuid readCursor entity listView input) fun r fin =>
      r.2.1 = pageSort entity listView input ∧
      Denotes pg (columnTypings entity) .prim fin r.2.2
        (resolvedValue pg entity (pageSort entity listView input).field)
        (resolvedType entity (pageSort entity listView input).field) ∧
      (∀ p ∈ cursorPosition parseUuid readCursor input.cursor,
        p.1.field = (pageSort entity listView input).field ∧
        p.1.dir = (pageSort entity listView input).dir) ∧
      MeanAll pg (columnTypings entity) fin (filterTruths pg entity listView input ++
        cursorTruths pg parseUuid readCursor entity (pageSort entity listView input) input.cursor)
        (listUses parseUuid readCursor entity listView input) r.1 := by
  refine builds_bind (builds_mapM _ fun kv _ => builds_filterCondition hwf pg kv)
    fun filters => ?_
  refine builds_bind (builds_jqlConditions hwf pg input.jql) fun jql => ?_
  refine builds_bind (builds_sortFieldExpression hwf pg _) fun sortText => ?_
  refine builds_bind (builds_cursorConditions pg entity input.cursor _ sortText)
    fun after => builds_pure ?_
  intro fin hafter hsort hjql hfilters
  have hpage : resolveSort entity listView jql.2 input.sort = pageSort entity listView input := by
    rw [hjql.1]
    rfl
  rw [hpage] at hafter hsort
  obtain ⟨hown, hcursor⟩ := hafter hsort
  exact ⟨hpage, hsort.2, hown, ((meanAll_of_forall₂ hfilters).append hjql.2).append hcursor⟩

theorem allTruth_eq_tt {truths : List ((String → Option Value) → Truth)}
    {row : String → Option Value} : allTruth truths row = .tt ↔ ∀ t ∈ truths, t row = .tt :=
  Truth.foldr_and_eq_tt

theorem allTruth_append (truths truths' : List ((String → Option Value) → Truth))
    (row : String → Option Value) :
    allTruth (truths ++ truths') row = (allTruth truths row).and (allTruth truths' row) := by
  induction truths with
  | nil =>
    show allTruth truths' row = Truth.tt.and (allTruth truths' row)
    cases allTruth truths' row <;> rfl
  | cons t ts ih =>
    have hcons : ∀ us, allTruth (t :: us) row = (t row).and (allTruth us row) := fun _ => rfl
    rw [List.cons_append, hcons, hcons, ih, Truth.and_assoc]

/-- The order of a page: by the sort expression, then by the id. -/
theorem parseOrderBy_orderBySQL {sortExpr : String} {e : Expr} (h : Reads .prim sortExpr e)
    (descending : Bool) : parseOrderBy (orderBySQL sortExpr descending) =
      some [{ expr := e, descending, nullsFirst := descending }, { expr := .col "id" }] := by
  obtain ⟨ts, hlex, hparse⟩ := h
  have hsuffix : ∃ suffix, orderBySQL sortExpr descending = sortExpr ++ suffix ∧
      Delimited suffix ∧ Lexes suffix [.ident (if descending then "desc" else "asc"),
        .ident "nulls", .ident (if descending then "first" else "last"), .comma, .ident "id",
        .ident "asc"] := by
    cases descending with
    | false =>
      refine ⟨" ASC NULLS LAST, id ASC", ?_, by simp [Delimited]; decide, _, _, _, rfl, rfl, rfl⟩
      apply String.toList_injective
      simp [orderBySQL]
    | true =>
      refine ⟨" DESC NULLS FIRST, id ASC", ?_, by simp [Delimited]; decide, _, _, _, rfl, rfl, rfl⟩
      apply String.toList_injective
      simp [orderBySQL]
  obtain ⟨suffix, htext, hdelimited, hsuffixLex⟩ := hsuffix
  have hlexed := (hlex.append hsuffixLex hdelimited).lex_eq
  rw [parseOrderBy, htext, hlexed, Option.bind_some, List.length_append]
  exact parseOrderKeys_cons (hparse.loosen (by decide)) descending descending _

/-- What a planned list query is. -/
structure ListMeaning (pg : Backend) (parseUuid : String → Option Uuid)
    (readCursor : String → Option Cursor) (entity : EntityDefinition) (tenant : Uuid)
    (listView : Option EntityListView) (input : ListInput) (ctx : RequestContext)
    (policies : List PolicyRow) (q : PlannedListQuery) : Prop where
  limit_eq : q.limit = min input.limit ((listView.map fun v => (v.maxLimit : ℤ)).getD 100)
  sort_eq : q.resolvedSort = pageSort entity listView input
  own_cursor : ∀ p ∈ cursorPosition parseUuid readCursor input.cursor,
    p.1.field = q.resolvedSort.field ∧ p.1.dir = q.resolvedSort.dir
  where_means : ∃ cond, parse q.whereSQL = some cond ∧
    ∀ row, truth pg (envOf row q.params) cond =
      allTruth (listTruths pg parseUuid readCursor entity listView input tenant ctx policies) row
  order_means : ∃ e,
    parseOrderBy q.orderBySQL = some
      [⟨e, q.resolvedSort.descending, q.resolvedSort.descending⟩, ⟨.col "id", false, false⟩] ∧
    ∀ row, eval pg (envOf row q.params) e = resolvedValue pg entity q.resolvedSort.field row

/-- The parts of a planned list query. -/
structure ListParts (pg : Backend) (parseUuid : String → Option Uuid)
    (readCursor : String → Option Cursor) (entity : EntityDefinition) (tenant : Uuid)
    (listView : Option EntityListView) (input : ListInput) (ctx : RequestContext)
    (policies : List PolicyRow) (q : PlannedListQuery) (scope rest : List String)
    (ws : List BindValue) (sortExpr : String) : Prop where
  scope_eq : scopeConditions parseUuid tenant policies ctx [] = .ok (scope, ws)
  scope_prefix : ws <+: q.params
  readable : ∀ s ∈ rest, Readable .not s
  where_eq : q.whereSQL = join " AND " (scope ++ rest)
  where_means : MeanAll pg (columnTypings entity) q.params
    (listTruths pg parseUuid readCursor entity listView input tenant ctx policies)
    ((scopeTruths pg parseUuid tenant policies ctx).map (fun _ => true) ++
      listUses parseUuid readCursor entity listView input) (scope ++ rest)
  limit_eq : q.limit = min input.limit ((listView.map fun v => (v.maxLimit : ℤ)).getD 100)
  sort_eq : q.resolvedSort = pageSort entity listView input
  own_cursor : ∀ p ∈ cursorPosition parseUuid readCursor input.cursor,
    p.1.field = (pageSort entity listView input).field ∧
      p.1.dir = (pageSort entity listView input).dir
  order_eq : q.orderBySQL = orderBySQL sortExpr q.resolvedSort.descending
  order_means : Denotes pg (columnTypings entity) .prim q.params sortExpr
    (resolvedValue pg entity (pageSort entity listView input).field)
    (resolvedType entity (pageSort entity listView input).field)

variable {q : PlannedListQuery}

theorem planList_eq_ok (pg : Backend) {registry : MetadataRegistry} {entityName : String}
    {input : ListInput} {ctx : RequestContext} {policies : List PolicyRow}
    (h : planList parseUuid readCursor registry entityName input ctx policies = .ok q) :
    ∃ entity tenant listView scope rest ws sortExpr, registry.getEntity entityName = some entity ∧
      scopedTenant parseUuid ctx = .ok tenant ∧
      selectListView entity input.listView = .ok listView ∧
      ListParts pg parseUuid readCursor entity tenant listView input ctx policies q scope rest ws
        sortExpr := by
  unfold planList at h
  split at h
  · cases h
  next entity hentity =>
  have hwf := MetadataRegistry.wellFormed_of_getEntity hentity
  obtain ⟨tenant, htenant, h⟩ := except_bind_eq_ok h
  obtain ⟨listView, hview, h⟩ := except_bind_eq_ok h
  obtain ⟨⟨r, params⟩, hrun, h⟩ := except_bind_eq_ok h
  cases h
  obtain ⟨scope, ws, hscope, hrun⟩ := bind_eq_ok hrun
  obtain ⟨requested, ws₁, hrequested, hret⟩ := bind_eq_ok hrun
  cases hret
  -- the conditions of the scope keep their meaning under the parameters pushed after them
  obtain ⟨hext, hrequest⟩ :=
    builds_requestConditions hwf pg listView input _ _ _ hrequested
  obtain ⟨hsort, hexpr, hown, hmeans⟩ := hrequest _ List.prefix_rfl
  have hscopeMeans := (builds_scopeConditions pg tenant policies ctx _ _ _ hscope).2 _ hext
  exact ⟨entity, tenant, listView, scope, requested.1, ws, requested.2.2, hentity, htenant, hview, {
    scope_eq := hscope
    scope_prefix := hext
    readable := hmeans.readable
    where_eq := rfl
    where_means := (hscopeMeans.mono (columnTypings_subset entity)).append hmeans
    limit_eq := rfl
    sort_eq := hsort
    own_cursor := hown
    order_eq := rfl
    order_means := hexpr }⟩

/-- Every list query that is planned has the meaning of its request. -/
theorem planList_means (pg : Backend) {registry : MetadataRegistry} {entityName : String}
    {input : ListInput} {ctx : RequestContext} {policies : List PolicyRow}
    (h : planList parseUuid readCursor registry entityName input ctx policies = .ok q) :
    ∃ entity tenant listView, registry.getEntity entityName = some entity ∧
      scopedTenant parseUuid ctx = .ok tenant ∧
      selectListView entity input.listView = .ok listView ∧
      ListMeaning pg parseUuid readCursor entity tenant listView input ctx policies q := by
  obtain ⟨entity, tenant, listView, scope, rest, ws, sortExpr, hentity, htenant, hview, hparts⟩ :=
    planList_eq_ok pg h
  obtain ⟨cond, hcond, htruth, -⟩ :=
    hparts.where_means.parse_join (by simp [listTruths, scopeTruths])
  obtain ⟨e, hread, heval, -⟩ := hparts.order_means
  refine ⟨entity, tenant, listView, hentity, htenant, hview, hparts.limit_eq, hparts.sort_eq, ?_,
    ⟨cond, hparts.where_eq ▸ hcond, htruth⟩, e, ?_, ?_⟩
  · rw [hparts.sort_eq]
    exact hparts.own_cursor
  · rw [hparts.order_eq]
    exact parseOrderBy_orderBySQL hread _
  · rw [hparts.sort_eq]
    exact heval

end

/-- The pattern of a substring search matches the texts that contain the value; JQL writes the same
pattern. -/
theorem substring_patterns (v s : String) :
    (like s (ilikeEscape v) = some true ↔ v.toList <:+: s.toList) ∧
      like s (jqlIlikePattern v) = like s (ilikeEscape v) :=
  ⟨like_eq_true_iff s v, rfl⟩

end Metap.Query
