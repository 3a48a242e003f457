import Metap.Framework.Sql.Types
import Metap.Query.PlanAggregate
import Metap.Reconciler.Compile

/-!
# Types of the compiled table's columns

The planner writes a field as a column or as a member of `data` by one predicate on the field,
`fieldHasRealColumn`; the schema compiler decides by its own branches which fields get a column,
and of which type.  `columnTypings` collects what both agree on: the types of the framework's
columns, and of the columns the planner takes the fields to have.

A field whose values live in `data` can be used in every way.  A field with a column of its own can
be used in a way (`FieldUse`) only if the column exists and has a type the generated operators are
defined at; `columnFits` is that condition, in terms of the field's declaration.  `listUses` and
`aggregateUses` collect how a request and its policies use the fields.
-/

namespace Metap.Reconciler

open Sql Query

/-! ## Column types -/

/-- The type a column is declared with. -/
def pgTypeOf : String → Option PgType
  | "uuid" => some .uuid
  | "varchar(120)" => some .varchar
  | "varchar(80)" => some .varchar
  | "text" => some .text
  | "jsonb" => some .jsonb
  | "integer" => some .integer
  | "boolean" => some .boolean
  | "timestamptz" => some .timestamptz
  | "double precision" => some .float8
  | "numeric(18,4)" => some .numeric
  | "date" => some .date
  | _ => none

def columnTypes (schema : PhysicalSchema) (name : String) : Option PgType :=
  (schema.columns.lookup name).bind fun c => pgTypeOf c.sqlType

def kindType : FieldKind → PgType
  | .string | .enum => .text
  | .number => .float8
  | .money => .numeric
  | .boolean => .boolean
  | .date => .date
  | .datetime => .timestamptz
  | .reference | .id => .uuid
  | .json => .jsonb

theorem pgTypeOf_fieldKindSQLType (kind : FieldKind) :
    pgTypeOf (fieldKindSQLType kind) = some (kindType kind) := by
  cases kind <;> rfl

/-- The type of the column a field is written as. -/
def ownColumnType (field : EntityField) : Option PgType :=
  if mirrorColumns.contains field.name then some .varchar
  else if !boolOrFalse field.searchable || boolOrFalse field.unique then some (kindType field.kind)
  else none

/-- The type of a column of the framework. -/
def frameworkType (name : String) : Option PgType :=
  (frameworkColumns.lookup name).bind fun c => pgTypeOf c.sqlType

theorem frameworkType_ne (name : String) : frameworkType name ≠ some .unknown := by
  intro h
  obtain ⟨c, -, hc⟩ := Option.bind_eq_some_iff.mp h
  unfold pgTypeOf at hc
  split at hc <;> cases hc

theorem ownColumnType_ne (field : EntityField) : ownColumnType field ≠ some .unknown := by
  unfold ownColumnType
  split
  · decide
  · split
    · cases field.kind <;> decide
    · decide

/-- Columns among which those of the framework have their types. -/
def frameworkTypings : Set (String → Option PgType) :=
  {cols | ∀ name ∈ frameworkColumnNames, cols name = frameworkType name}

/-- Columns of the types an entity's table has: those of the framework, and the fields' own. -/
def columnTypings (entity : EntityDefinition) : Set (String → Option PgType) :=
  {cols ∈ frameworkTypings | ∀ field ∈ entity.fields, fieldHasRealColumn field = true →
    cols field.name = ownColumnType field}

theorem columnTypings_subset (entity : EntityDefinition) :
    columnTypings entity ⊆ frameworkTypings := fun _ h => h.1

/-- A table whose columns are those of the entity's compiled schema. -/
structure Compiled (entity : EntityDefinition) (schema : PhysicalSchema) : Prop where
  wellFormed : entity.WellFormed
  compiled : compile entity = .ok schema

section

variable {entity : EntityDefinition} {schema : PhysicalSchema} (hc : Compiled entity schema)

include hc

/-- A framework column keeps its type. -/
theorem columnTypes_framework {name : String} (hname : name ∈ frameworkColumnNames) :
    columnTypes schema name = frameworkType name := by
  have hbase : columnTypes (baseSchema entity) name = frameworkType name :=
    (by decide : ∀ n ∈ frameworkColumnNames, ((frameworkColumns.foldl
      (fun columns c => columns.insert c.1 c.2) (∅ : Specs ColumnSpec)).lookup n).bind
        (fun c => pgTypeOf c.sqlType) = frameworkType n) name hname
  rw [← hbase]
  unfold columnTypes
  rw [lookup_columns_of_compile hc.compiled hc.wellFormed.nodup_names]
  split
  · next f hf =>
    obtain ⟨hmem, rfl⟩ := EntityDefinition.mem_of_field?_eq_some hf
    obtain ⟨-, -, -, hnames, -⟩ := compile_eq_ok hc.compiled
    have hmirror := hnames f hmem (by simpa using hname)
    rw [if_neg (by simp only [compilesColumn, hmirror]; simp)]
  · rfl

theorem columnTypes_own {field : EntityField} (hfield : field ∈ entity.fields)
    (hreal : fieldHasRealColumn field = true) :
    columnTypes schema field.name = ownColumnType field := by
  have hlookup : schema.columns.lookup field.name =
      if compilesColumn field then some (generatedColumn field)
      else (baseSchema entity).columns.lookup field.name := by
    rw [lookup_columns_of_compile hc.compiled hc.wellFormed.nodup_names,
      hc.wellFormed.field?_eq_some hfield]
  unfold ownColumnType
  cases hmirror : mirrorColumns.contains field.name with
  | true =>
    have hname : field.name = "code" ∨ field.name = "status" := by
      simpa [mirrorColumns] using hmirror
    have hframework : field.name ∈ frameworkColumnNames := by
      rcases hname with hname | hname <;> rw [hname] <;> decide
    rw [columnTypes_framework hc hframework]
    rcases hname with hname | hname <;> rw [hname] <;> rfl
  | false =>
    unfold columnTypes
    rw [hlookup]
    cases hcompiles : compilesColumn field with
    | true =>
      have hflags : (!boolOrFalse field.searchable || boolOrFalse field.unique) = true := by
        rw [compilesColumn, Bool.and_eq_true] at hcompiles
        exact hcompiles.2
      rw [if_pos rfl, hflags]
      exact pgTypeOf_fieldKindSQLType field.kind
    | false =>
      have hflags : (!boolOrFalse field.searchable || boolOrFalse field.unique) = false := by
        rwa [compilesColumn, hreal, hmirror, Bool.not_false, Bool.and_true, Bool.true_and]
          at hcompiles
      rw [if_neg (by simp), hflags]
      obtain ⟨-, -, -, hnames, -⟩ := compile_eq_ok hc.compiled
      have hother : field.name ∉ frameworkColumnNames := by
        intro hmem
        have := hnames field hfield (by simpa using hmem)
        rw [this] at hmirror
        cases hmirror
      have hbase : (baseSchema entity).columns.lookup field.name = none := by
        rw [AList.lookup_eq_none]
        intro hmem
        exact hother ((by decide : ∀ n ∈ (frameworkColumns.foldl
          (fun columns c => columns.insert c.1 c.2) (∅ : Specs ColumnSpec)).keys,
            n ∈ frameworkColumnNames) _ hmem)
      rw [hbase]
      rfl

theorem columnTypes_mem : columnTypes schema ∈ columnTypings entity :=
  ⟨fun _ h => columnTypes_framework hc h, fun _ h hreal => columnTypes_own hc h hreal⟩

end

/-! ## Uses of a field -/

/-- What a generated text does with a field. -/
inductive FieldUse where
  /-- It is tested for null, compared at its own type, counted, grouped or sorted by. -/
  | read
  /-- It is compared with a value, which is cast where the field is a reference or an id. -/
  | equals
  /-- It is matched by `ILIKE`, or compared with the empty text. -/
  | text
  | fullText
  deriving DecidableEq, Repr

/-- A column of its own serves the use. -/
def columnFits (field : EntityField) (use : FieldUse) : Bool :=
  let mirror := mirrorColumns.contains field.name
  let textual := mirror || field.kind = .string || field.kind = .enum
  (mirror || !boolOrFalse field.searchable || boolOrFalse field.unique) &&
    match use with
    | .read => true
    | .equals => !(mirror && (field.kind = .reference || field.kind = .id))
    | .text => textual
    | .fullText => textual || field.kind = .json

/-- A member of `data` serves every use. -/
def fieldFits (field : EntityField) (use : FieldUse) : Bool :=
  !fieldHasRealColumn field || columnFits field use

/-- A name of a request serves the use; the timestamps of the row are no texts. -/
def nameFits (entity : EntityDefinition) (name : String) (use : FieldUse) : Bool :=
  if name = "createdAt" ∨ name = "updatedAt" then use = .read || use = .equals
  else (entity.field? name).all fun f => fieldFits f use

/-! ### The types behind the uses -/

/-- The type a field's value is written at. -/
def fieldType (field : EntityField) : Option PgType :=
  if fieldHasRealColumn field then ownColumnType field else some .text

def resolvedType (entity : EntityDefinition) (name : String) : Option PgType :=
  if name = "createdAt" ∨ name = "updatedAt" then some .timestamptz
  else ((entity.field? name).map fieldType).getD (some .text)

theorem fieldType_ne (field : EntityField) : fieldType field ≠ some .unknown := by
  unfold fieldType
  split
  · exact ownColumnType_ne field
  · decide

theorem resolvedType_ne (entity : EntityDefinition) (name : String) :
    resolvedType entity name ≠ some .unknown := by
  unfold resolvedType
  split
  · decide
  · cases entity.field? name with
    | none => decide
    | some f => exact fieldType_ne f

/-- The type of a bound value under its cast. -/
def boundType : Option SqlType → PgType
  | none => .unknown
  | some ty => ty.pgType

/-- The cast a value that is compared with the field gets. -/
def equalsCast (field : EntityField) : Option SqlType :=
  if fieldHasRealColumn field && (field.kind = .reference || field.kind = .id) then some .uuid
  else none

/-- An expression of type `t` serves the use. -/
def typeFits (cast : Option SqlType) (t : Option PgType) : FieldUse → Bool
  | .read => t.isSome
  | .equals => t.any fun t => t.comparable (boundType cast)
  | .text => t.any PgType.asText
  | .fullText => t.any fun t => t.asText || t = .jsonb

theorem typeFits_fieldType (field : EntityField) (use : FieldUse) :
    typeFits (equalsCast field) (fieldType field) use = fieldFits field use := by
  unfold fieldType fieldFits columnFits ownColumnType equalsCast
  cases fieldHasRealColumn field with
  | false => cases use <;> rfl
  | true =>
    cases mirrorColumns.contains field.name <;> cases boolOrFalse field.searchable <;>
      cases boolOrFalse field.unique <;> cases field.kind <;> cases use <;> rfl

/-- The cast a value that is compared with a name gets. -/
def nameCast (entity : EntityDefinition) (name : String) : Option SqlType :=
  if name = "createdAt" ∨ name = "updatedAt" then some .timestamptz
  else (entity.field? name).bind equalsCast

theorem typeFits_resolvedType (entity : EntityDefinition) (name : String) (use : FieldUse) :
    typeFits (nameCast entity name) (resolvedType entity name) use = nameFits entity name use := by
  unfold nameCast resolvedType nameFits
  by_cases h : name = "createdAt" ∨ name = "updatedAt"
  · rw [if_pos h, if_pos h, if_pos h]
    cases use <;> rfl
  · rw [if_neg h, if_neg h, if_neg h]
    cases entity.field? name with
    | none => cases use <;> rfl
    | some f => exact typeFits_fieldType f use

/-- A type under a cast, or as it is. -/
def castTypeTo : Option SqlType → Option PgType → Option PgType
  | none, t => t
  | some ty, t => castType ty t

theorem castTypeTo_some_ne (ty : SqlType) (t : Option PgType) :
    castTypeTo (some ty) t ≠ some .unknown := by
  intro h
  obtain ⟨_, -, hty⟩ := Option.map_eq_some_iff.mp h
  cases ty <;> cases hty

/-- The type `t` if a test succeeds. -/
def typeIf (b : Bool) (t : PgType) : Option PgType := if b then some t else none

theorem typeIf_ne {t : PgType} (ht : t ≠ .unknown) (b : Bool) : typeIf b t ≠ some .unknown := by
  cases b with
  | false => exact fun h => nomatch h
  | true => exact fun h => ht (Option.some.inj h)

/-! ### The uses of a request -/

/-- What a filter does with its field. -/
def filterUse (entity : EntityDefinition) (filter : String × String) : FieldUse :=
  let searchable := (entity.field? filter.1).any fun f => boolOrFalse f.searchable
  if searchable && (entity.field? filter.1).any fun f => f.searchMode = some "fts" then .fullText
  else if searchable then .text
  else if filter.2 = "" then .read
  else .equals

mutual

/-- Every use of a field in a query's filter fits. -/
def jqlFits (entity : EntityDefinition) : JqlExpr → Bool
  | .and first rest => jqlFits entity first && jqlFitsAll entity rest
  | .or first rest => jqlFits entity first && jqlFitsAll entity rest
  | .not inner => jqlFits entity inner
  | .isEmpty field _ => nameFits entity field .read
  | .compare field op _ =>
    nameFits entity field (if op = .contains ∨ op = .notContains then .text else .read)
  | .inList field _ _ => nameFits entity field .read

def jqlFitsAll (entity : EntityDefinition) : List JqlExpr → Bool
  | [] => true
  | e :: es => jqlFits entity e && jqlFitsAll entity es

end

theorem jqlFitsAll_eq_all (entity : EntityDefinition) (es : List JqlExpr) :
    jqlFitsAll entity es = es.all (jqlFits entity) := by
  induction es with
  | nil => rw [jqlFitsAll]; rfl
  | cons e es ih => rw [jqlFitsAll, ih, List.all_cons]

/-- What a cursor does with the sort field. -/
def cursorUse (c : Cursor) : FieldUse := if c.value.isSome then .equals else .read

/-- The uses a list request makes of fields in its conditions. -/
def listUses (parseUuid : String → Option Uuid) (readCursor : String → Option Cursor)
    (entity : EntityDefinition) (listView : Option EntityListView) (input : ListInput) :
    List Bool :=
  (honouredFilters listView input).map (fun kv => nameFits entity kv.1 (filterUse entity kv)) ++
    (jqlFilter input.jql).map (jqlFits entity) ++
    (cursorPosition parseUuid readCursor input.cursor).toList.map fun p =>
      nameFits entity (pageSort entity listView input).field (cursorUse p.1)

def aggregateFilterUse (filter : EntityField × String) : FieldUse :=
  if filter.2 = "" then .read else .equals

/-- A declared time axis is compared with the empty text before it is cast. -/
def timeFits (entity : EntityDefinition) (name : String) : Bool :=
  name = "createdAt" || name = "updatedAt" || (entity.field? name).all fun f => fieldFits f .text

def groupFits (entity : EntityDefinition) (groupBy : Option String) : Bool :=
  groupBy.all fun name => (entity.field? name).all fun f => fieldFits f .read

/-- Counting reads a field; every other metric compares it with the empty text first. -/
def metricFits (entity : EntityDefinition) (metric : AggregateMetric) : Bool :=
  metric.field.all fun name => (entity.field? name).all fun f =>
    fieldFits f (if metric.func = .count then .read else .text)

/-- The uses an aggregation makes of fields in its conditions. -/
def aggregateUses (entity : EntityDefinition) (input : AggregateInput) : List Bool :=
  (aggregateFilters entity input.filters).map (fun fv => fieldFits fv.1 (aggregateFilterUse fv)) ++
    input.since.toList.map (fun _ => timeFits entity (timeFieldName input)) ++
    input.until.toList.map fun _ => timeFits entity (timeFieldName input)

end Metap.Reconciler
