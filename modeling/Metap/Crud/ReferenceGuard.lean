import Metap.Crud.Read

/-!
# The delete guard

Before a record is deleted, every table with a field that can refer to it is asked for rows that
do.  `referencingFields` collects the fields from the whole registry and `findReferencingRecords`
asks one combined query for each table, up to a number of hits in all.

Only references to a named entity are collected, and such a field always has a column of its own
(`exists_of_mem_referencingFields`), so the branch that reads `data` is never taken.  A guard that
finds nothing has asked every table, and no live row of the tenant refers to the record
(`notRefers_of_guard`).
-/

namespace Metap.Crud

open Sql Builder Query Reconciler

/-- A field that may refer to a record that is to be deleted. -/
structure ReferencingField where
  refEntity : String
  refField : String
  refTable : String
  hasRealColumn : Bool
  deriving DecidableEq, Repr

/-- The reference fields that point at an entity, by the name of their own entity. -/
def referencingFields (registry : MetadataRegistry) (targetEntity : String) :
    List ReferencingField :=
  (registry.entities.mergeSort fun a b => a.name ≤ b.name).flatMap fun summary =>
    (summary.fields.filter fun f => f.kind = .reference && f.refEntity = some targetEntity).map
      fun field =>
        { refEntity := summary.name
          refField := field.name
          refTable := ((registry.getEntity summary.name).map EntityDefinition.tableName).getD ""
          hasRealColumn := fieldHasRealColumn field }

/-- The number of hits that are reported at most. -/
def maxReferencingHits : ℕ := 50

def guardTables (refs : List ReferencingField) : List String :=
  (refs.map ReferencingField.refTable).dedup.mergeSort fun a b => a ≤ b

def guardGroup (refs : List ReferencingField) (table : String) : List ReferencingField :=
  refs.filter fun r => r.refTable = table

section

variable (codec : UuidCodec) (tenantID id : Uuid)

/-- The test of one field, with the argument it binds. -/
def guardClause (r : ReferencingField) : Build String :=
  if r.hasRealColumn then do
    let ph ← pushBind (.uuid id)
    return "\"" ++ r.refField ++ "\"" ++ " = " ++ (ph ++ "::uuid")
  else do
    let ph ← pushBind (.text (codec.format id))
    return "data ->> '" ++ r.refField ++ "' = " ++ ph

def guardWhere (group : List ReferencingField) : Build String := do
  let tenantPh ← pushBind (.uuid tenantID)
  let idPh ← pushBind (.uuid id)
  let clauses ← group.mapM (guardClause codec id)
  return "tenant_id = " ++ tenantPh ++ " AND deleted = false AND id != " ++ idPh ++
    " AND (" ++ join " OR " clauses ++ ")"

def guardSQL (table whereSQL : String) (remaining : ℕ) : String :=
  "SELECT id FROM " ++ table ++ " WHERE " ++ whereSQL ++ " LIMIT " ++ toString remaining

/-- A query of the guard. -/
structure GuardQuery where
  table : String
  whereSQL : String
  args : List BindValue
  limit : ℕ

def GuardQuery.sql (q : GuardQuery) : String := guardSQL q.table q.whereSQL q.limit

/-- The loop over the tables; every hit of a table is reported under the group's first field. -/
def guardLoop (query : GuardQuery → Except QueryError (List Uuid))
    (refs : List ReferencingField) :
    List String → List ReferencingRecordHit → Except QueryError (List ReferencingRecordHit)
  | [], hits => .ok hits
  | table :: tables, hits =>
    if hits.length ≥ maxReferencingHits then .ok hits
    else
      match guardGroup refs table with
      | [] => guardLoop query refs tables hits
      | first :: rest => do
        let (whereSQL, args) ← (guardWhere codec tenantID id (first :: rest)).run []
        let ids ← query { table, whereSQL, args, limit := maxReferencingHits - hits.length }
        guardLoop query refs tables (hits ++ ids.map fun rowID =>
          { entity := first.refEntity, field := first.refField, id := rowID })

/-- The rows that still refer to a record. -/
def findReferencingRecords (query : GuardQuery → Except QueryError (List Uuid))
    (refs : List ReferencingField) : Except QueryError (List ReferencingRecordHit) :=
  guardLoop codec tenantID id query refs (guardTables refs) []

end

/-! ## Where the fields come from -/

section

variable {registry : MetadataRegistry} {target : String} {r : ReferencingField}

theorem exists_of_mem_referencingFields (h : r ∈ referencingFields registry target) :
    ∃ summary ∈ registry.entities, ∃ field ∈ summary.fields,
      field.kind = .reference ∧ field.refEntity = some target ∧ r.refEntity = summary.name ∧
      r.refField = field.name ∧ r.hasRealColumn = true ∧
      r.refTable = ((registry.getEntity summary.name).map EntityDefinition.tableName).getD "" := by
  obtain ⟨summary, hsummary, hr⟩ := List.mem_flatMap.mp h
  obtain ⟨field, hfield, rfl⟩ := List.mem_map.mp hr
  obtain ⟨hmem, hkind⟩ := List.mem_filter.mp hfield
  rw [Bool.and_eq_true, decide_eq_true_eq, decide_eq_true_eq] at hkind
  refine ⟨summary, by simpa using hsummary, field, hmem, hkind.1, hkind.2, rfl, rfl, ?_, rfl⟩
  simp [fieldHasRealColumn, hkind.1, hkind.2]

theorem mem_referencingFields {summary : EntityDefinition} (hsummary : summary ∈ registry.entities)
    {field : EntityField} (hfield : field ∈ summary.fields) (hkind : field.kind = .reference)
    (hrefers : field.refEntity = some target) :
    { refEntity := summary.name, refField := field.name,
      refTable := ((registry.getEntity summary.name).map EntityDefinition.tableName).getD "",
      hasRealColumn := fieldHasRealColumn field : ReferencingField } ∈
      referencingFields registry target := by
  refine List.mem_flatMap.mpr ⟨summary, by simpa using hsummary, ?_⟩
  refine List.mem_map.mpr ⟨field, List.mem_filter.mpr ⟨hfield, ?_⟩, rfl⟩
  simp [hkind, hrefers]

end

/-! ## What a guard that finds nothing has seen -/

section

variable {codec : UuidCodec} {tenantID id : Uuid}
  {query : GuardQuery → Except QueryError (List Uuid)} {refs : List ReferencingField}
  {tables : List String} {group : List ReferencingField}

theorem prefix_of_guardLoop {hits found : List ReferencingRecordHit}
    (h : guardLoop codec tenantID id query refs tables hits = .ok found) : hits <+: found := by
  induction tables generalizing hits with
  | nil =>
    cases h
    exact List.prefix_rfl
  | cons table tables ih =>
    unfold guardLoop at h
    split at h
    · cases h
      exact List.prefix_rfl
    · split at h
      · exact ih h
      · obtain ⟨⟨whereSQL, args⟩, -, h⟩ := except_bind_eq_ok h
        obtain ⟨ids, -, h⟩ := except_bind_eq_ok h
        exact (List.prefix_append _ _).trans (ih h)

/-- A guard that finds nothing has asked every table, and got no row. -/
theorem queried_of_guardLoop (h : guardLoop codec tenantID id query refs tables [] = .ok []) :
    ∀ table ∈ tables, guardGroup refs table ≠ [] → ∃ whereSQL args limit, 0 < limit ∧
      guardWhere codec tenantID id (guardGroup refs table) [] = .ok (whereSQL, args) ∧
      query { table, whereSQL, args, limit } = .ok [] := by
  induction tables with
  | nil => simp
  | cons table tables ih =>
    unfold guardLoop at h
    rw [if_neg (by decide)] at h
    split at h
    · next hgroup =>
      refine List.forall_mem_cons.mpr ⟨absurd hgroup, ih h⟩
    · next first rest hgroup =>
      obtain ⟨⟨whereSQL, args⟩, hwhere, h⟩ := except_bind_eq_ok h
      obtain ⟨ids, hids, h⟩ := except_bind_eq_ok h
      have hnone : ids = [] := by simpa using prefix_of_guardLoop h
      subst hnone
      refine List.forall_mem_cons.mpr ⟨fun _ => ⟨whereSQL, args, _, ?_, ?_, hids⟩, ih h⟩
      · decide
      · rw [hgroup]
        exact hwhere

/-- The truth of one field's test on a row. -/
def refersTruth (pg : Backend) (id : Uuid) (r : ReferencingField) (row : String → Option Value) :
    Truth :=
  strict₂ (compareOp pg .eq) (row r.refField) (some (.uuid id))

/-- What the guard asks of a row. -/
def guardTruths (pg : Backend) (tenantID id : Uuid) (group : List ReferencingField) :
    List ((String → Option Value) → Truth) :=
  [fun row => strict₂ (compareOp pg .eq) (row "tenant_id") (some (.uuid tenantID)),
   fun row => strict₂ (compareOp pg .eq) (row "deleted") (some (.bool false)),
   fun row => strict₂ (compareOp pg .ne) (row "id") (some (.uuid id)),
   fun row => group.foldr (fun r t => (refersTruth pg id r row).or t) .ff]

/-- Columns a guard's fields can be read from. -/
structure GuardColumns (group : List ReferencingField) (C : Set (String → Option PgType))
    (types : ReferencingField → Option PgType) : Prop where
  framework : C ⊆ frameworkTypings
  real : ∀ r ∈ group, r.hasRealColumn = true
  safe : ∀ r ∈ group, '"' ∉ r.refField.toList
  typed : ∀ r ∈ group, ∀ cols ∈ C, cols r.refField = types r
  known : ∀ r ∈ group, types r ≠ some .unknown

variable (pg : Backend)

/-- The condition of a guard: what it asks of a row, and when it passes the database's check. -/
theorem parse_guardWhere {C : Set (String → Option PgType)}
    {types : ReferencingField → Option PgType} (hgroup : GuardColumns group C types)
    (hne : group ≠ []) {whereSQL : String} {args : List BindValue}
    (hrun : guardWhere codec tenantID id group [] = .ok (whereSQL, args)) :
    ∃ cond, parse whereSQL = some cond ∧
      (∀ row, truth pg (envOf row args) cond = allTruth (guardTruths pg tenantID id group) row) ∧
      ∀ cols ∈ C, typeOf cols cond =
        boolIf (group.all fun r => comparesWith (types r) (some .uuid)) := by
  have hclause : ∀ r ∈ group, Builds (guardClause codec id r) fun s fin =>
      Means pg C .not fin s (refersTruth pg id r) (comparesWith (types r) (some .uuid)) := by
    intro r hr
    unfold guardClause
    rw [if_pos (hgroup.real r hr)]
    refine builds_bind (builds_pushBind pg _) fun ph => builds_pure fun fin hph => ?_
    exact (denotes_col (reads_quoted (hgroup.safe r hr)) (hgroup.known r hr)
      (hgroup.typed r hr)).operand.compares (hgroup.known r hr)
      ((hph _).bound (isCastSuffix_castSuffix .uuid)) separates_eq rfl
  obtain ⟨tenantPh, ws, htenant, hrun⟩ := bind_eq_ok hrun
  obtain ⟨idPh, ws₁, hid, hrun⟩ := bind_eq_ok hrun
  obtain ⟨clauses, _, hclauses, hret⟩ := bind_eq_ok hrun
  cases hret
  obtain ⟨hext, htenantPh⟩ := builds_pushBind pg _ _ _ _ htenant
  obtain ⟨hext₁, hidPh⟩ := builds_pushBind pg _ _ _ _ hid
  obtain ⟨hext₂, hmeans⟩ := builds_mapM group hclause _ _ _ hclauses
  have hany := means_group (hmeans _ List.prefix_rfl) .or hne (by decide)
  have hcol : Denotes pg C .prim args "id" (fun row => row "id") (some .uuid) :=
    denotes_framework ⟨[], _, _, rfl, rfl, rfl⟩ (by decide) hgroup.framework
  have hother : Means pg C .not args ("id" ++ " != " ++ idPh)
      (fun row => strict₂ (compareOp pg .ne) (row "id") (some (.uuid id))) true :=
    hcol.operand.compares (by decide) (hidPh _ hext₂ C).operand separates_ne rfl
  have hall : MeanAll pg C args (guardTruths pg tenantID id group) _ _ :=
    .cons (means_tenant hgroup.framework (htenantPh _ (hext₁.trans hext₂) C))
      (.cons (means_deleted hgroup.framework) (.cons hother (.cons hany.condition .nil)))
  obtain ⟨cond, hparse, htruth, htype⟩ := hall.parse_join (by simp [guardTruths])
  have htext : join " AND " ["tenant_id = " ++ tenantPh, "deleted = false", "id" ++ " != " ++ idPh,
        "(" ++ join Chain.or.sep clauses ++ ")"] =
      "tenant_id = " ++ tenantPh ++ " AND deleted = false AND id != " ++ idPh ++
        " AND (" ++ join " OR " clauses ++ ")" := by
    apply String.toList_injective
    simp [join, joinTail, Chain.sep]
  refine ⟨cond, htext ▸ hparse, htruth, fun cols hcols => ?_⟩
  simp [htype cols hcols]

theorem compare_uuid_eq (u : Uuid) :
    strict₂ (compareOp pg .eq) (some (.uuid u)) (some (.uuid u)) = .tt := by
  simp [strict₂, compareOp, compareValues, Op.holds, Truth.ofBool]

theorem compare_uuid_ne {u v : Uuid} (h : u ≠ v) :
    strict₂ (compareOp pg .ne) (some (.uuid u)) (some (.uuid v)) = .tt := by
  have hne : compare u.toNat v.toNat ≠ .eq := by
    rw [Ne, Nat.compare_eq_eq]
    exact fun heq => h (BitVec.eq_of_toNat_eq heq)
  simp [strict₂, compareOp, compareValues, Op.holds, Truth.ofBool, hne]

/-- On a live row of the tenant, not the record itself, that refers to the record, the guard's
condition is TRUE. -/
theorem allTruth_guardTruths {r : ReferencingField} (hr : r ∈ group)
    {row : StoredRecord} (htenant : row.tenantID = tenantID) (hlive : row.deleted = false)
    (hid : row.id ≠ id) (hrefers : row.row r.refField = some (.uuid id)) :
    allTruth (guardTruths pg tenantID id group) row.row = .tt := by
  have hclause : refersTruth pg id r row.row = .tt := by
    rw [refersTruth, hrefers]
    exact compare_uuid_eq pg id
  have hany :=
    (Truth.foldr_or_eq_tt (f := fun r => refersTruth pg id r row.row)).mpr ⟨r, hr, hclause⟩
  have hdeleted : strict₂ (compareOp pg .eq) (some (.bool false)) (some (.bool false)) = .tt := rfl
  simp only [guardTruths, allTruth, List.foldr_cons, List.foldr_nil, hany]
  simp only [StoredRecord.row, htenant, hlive, hdeleted, compare_uuid_eq, compare_uuid_ne pg hid]
  rfl

end

theorem guardColumns_of_typed {registry : MetadataRegistry} {target table : String}
    {C : Set (String → Option PgType)} {types : ReferencingField → Option PgType}
    (hC : C ⊆ frameworkTypings)
    (htyped : ∀ r ∈ guardGroup (referencingFields registry target) table, ∀ cols ∈ C,
      cols r.refField = types r)
    (hknown : ∀ r ∈ guardGroup (referencingFields registry target) table,
      types r ≠ some .unknown) :
    GuardColumns (guardGroup (referencingFields registry target) table) C types := by
  refine ⟨hC, fun r hr => ?_, fun r hr => ?_, htyped, hknown⟩ <;>
    obtain ⟨summary, hsummary, field, hfield, -, -, -, hname, hcolumn, -⟩ :=
      exists_of_mem_referencingFields (List.mem_filter.mp hr).1
  · exact hcolumn
  · rw [hname]
    exact notMem_of_isSafeFieldName
      ((registry.wellFormed summary hsummary).safe_names field hfield) (by decide)

/-! ## The guard on the tables -/

/-- What the database answers to a query of the guard; without an `ORDER BY` the rows come in some
order, here that of the table. -/
def answerGuard (pg : Backend) (store : Store) (q : GuardQuery) : Except QueryError (List Uuid) :=
  let rows := (store q.table).records.rows
  match parse q.whereSQL with
  | none => .error (.other "syntax error")
  | some cond =>
    if rows.all fun r => truth pg (envOf r.row q.args) cond ≠ .err then
      .ok (((rows.filter fun r => truth pg (envOf r.row q.args) cond = .tt).take q.limit).map
        StoredRecord.id)
    else .error (.other "invalid operand")

theorem answerGuard_eq_nil {pg : Backend} {store : Store} {q : GuardQuery} (hlimit : 0 < q.limit)
    (h : answerGuard pg store q = .ok []) {cond : Expr} (hcond : parse q.whereSQL = some cond) :
    ∀ row ∈ (store q.table).records.rows, truth pg (envOf row.row q.args) cond ≠ .tt := by
  unfold answerGuard at h
  rw [hcond] at h
  dsimp only at h
  split at h
  · rw [Except.ok.injEq, List.map_eq_nil_iff, List.take_eq_nil_iff, List.filter_eq_nil_iff] at h
    simpa using h.resolve_left (by omega)
  · cases h

/-- When the guard finds nothing, no other live row of the tenant refers to the record. -/
theorem notRefers_of_guard {pg : Backend} {store : Store} {registry : MetadataRegistry}
    {target : String} {codec : UuidCodec} {tenantID id : Uuid}
    (h : findReferencingRecords codec tenantID id (answerGuard pg store)
      (referencingFields registry target) = .ok []) {r : ReferencingField}
    (hr : r ∈ referencingFields registry target) {row : StoredRecord}
    (hrow : row ∈ (store r.refTable).records.rows) (htenant : row.tenantID = tenantID)
    (hlive : row.deleted = false) (hid : row.id ≠ id) : row.row r.refField ≠ some (.uuid id) := by
  intro hrefers
  have hgroup : r ∈ guardGroup (referencingFields registry target) r.refTable :=
    List.mem_filter.mpr ⟨hr, by simp⟩
  have htable : r.refTable ∈ guardTables (referencingFields registry target) := by
    simp only [guardTables, List.mem_mergeSort, List.mem_dedup]
    exact List.mem_map_of_mem hr
  obtain ⟨whereSQL, args, limit, hlimit, hwhere, hanswer⟩ :=
    queried_of_guardLoop h _ htable (List.ne_nil_of_mem hgroup)
  have hcolumns : GuardColumns (guardGroup (referencingFields registry target) r.refTable) ∅
      fun _ => none := guardColumns_of_typed (Set.empty_subset _) (by simp) (by simp)
  obtain ⟨cond, hcond, htruth, -⟩ :=
    parse_guardWhere pg hcolumns (List.ne_nil_of_mem hgroup) hwhere
  refine answerGuard_eq_nil hlimit hanswer hcond row hrow ?_
  rw [htruth]
  exact allTruth_guardTruths pg hgroup htenant hlive hid hrefers

end Metap.Crud
