import Metap.Framework.AssocList
import Metap.Metadata.Validate

/-!
# The physical schema of an entity

Every entity has a table of its own.  `compile` derives the table's desired columns, indexes and
foreign keys from the entity's declaration: the framework columns that every table has, a column
for a field that needs one, and an index for a field that is searched, sorted, filtered by or
declared unique.  Columns, indexes and foreign keys are kept by name, and a later entry replaces an
earlier one of the same name.
-/

namespace Metap.Reconciler

open AssocList

/-! ## Physical schemas -/

inductive ColumnOrigin where
  | framework
  | data
  /-- Kept in step with a member of `data` by a trigger. -/
  | generated (sourceField : String) (backfilled : Bool)
  deriving DecidableEq, Repr

structure ColumnSpec where
  sqlType : String
  nullable : Bool
  origin : ColumnOrigin
  deriving DecidableEq, Repr

structure IndexSpec where
  expression : String
  unique : Bool := false
  /-- The access method, empty for the default one. -/
  «using» : String := ""
  valid : Bool := true
  /-- The predicate of a partial index, empty for an index on the whole table. -/
  whereClause : String := ""
  deriving DecidableEq, Repr

inductive OnDelete where
  | restrict | cascade | setNull
  deriving DecidableEq, Repr

structure FkSpec where
  column : String
  refTable : String
  refColumn : String
  onDelete : OnDelete
  validated : Bool
  deriving DecidableEq, Repr

structure UniqueSpec where
  columns : List String
  deriving DecidableEq, Repr

/-- Specifications by name. -/
abbrev Specs (α : Type) := AList fun _ : String => α

structure PhysicalSchema where
  table : String
  columns : Specs ColumnSpec := ∅
  indexes : Specs IndexSpec := ∅
  foreignKeys : Specs FkSpec := ∅
  uniques : Specs UniqueSpec := ∅

/-! ## Names -/

/-- The columns every table has. -/
def frameworkColumns : List (String × ColumnSpec) :=
  [("id", ⟨"uuid", false, .framework⟩),
   ("tenant_id", ⟨"uuid", false, .framework⟩),
   ("code", ⟨"varchar(120)", true, .framework⟩),
   ("status", ⟨"varchar(80)", true, .framework⟩),
   ("data", ⟨"jsonb", false, .framework⟩),
   ("version", ⟨"integer", false, .framework⟩),
   ("deleted", ⟨"boolean", false, .framework⟩),
   ("created_at", ⟨"timestamptz", false, .framework⟩),
   ("updated_at", ⟨"timestamptz", false, .framework⟩),
   ("created_by", ⟨"uuid", true, .framework⟩),
   ("updated_by", ⟨"uuid", true, .framework⟩)]

def frameworkColumnNames : List String := frameworkColumns.map Prod.fst

def entitySchema : String := "entities"

/-- A dotted entity name as one identifier. -/
def tableNameFor (entityName : String) : String :=
  String.ofList (entityName.toList.map fun c => if c = '.' then '_' else c)

def qualifiedTableNameIn (entityName schema : String) : String :=
  schema ++ "." ++ tableNameFor entityName

def qualifiedTableNameFor (entityName : String) : String :=
  qualifiedTableNameIn entityName entitySchema

/-- The database cuts an identifier off after so many bytes. -/
def maxIdentifierBytes : ℕ := 63

inductive CompileError where
  | tableNameTooLong (entityName : String)
  | frameworkColumn (entityName field : String)
  /-- A table name without a schema, which validation does not let through. -/
  | unqualifiedTable (table : String)
  deriving DecidableEq, Repr

def CompileError.message : CompileError → String
  | tableNameTooLong entityName =>
    "entity name '" ++ entityName ++ "' mangles to a " ++
      toString (tableNameFor entityName).utf8ByteSize ++ "-byte table name ('" ++
      tableNameFor entityName ++ "'), over Postgres's 63-byte identifier limit — choose a " ++
      "shorter entity name"
  | frameworkColumn entityName field =>
    "entity '" ++ entityName ++ "' field '" ++ field ++ "' collides with a framework column name"
  | unqualifiedTable table =>
    "reconciler: Compile called with a non-schema-qualified table_name: \"" ++ table ++ "\""

def checkTableNameLength (entityName : String) : Except CompileError Unit :=
  if (tableNameFor entityName).utf8ByteSize > maxIdentifierBytes then
    .error (.tableNameTooLong entityName)
  else .ok ()

def schemaOf (table : String) : Except CompileError String :=
  match Strings.cut table '.' with
  | some (schema, _) => .ok schema
  | none => .error (.unqualifiedTable table)

def indexName (entityName fieldName kind : String) : String :=
  kind ++ "_" ++ tableNameFor entityName ++ "_" ++ fieldName

def fnv1a (bytes : List UInt8) : UInt32 :=
  bytes.foldl (fun hash b => (hash ^^^ b.toUInt32) * 0x01000193) 0x811c9dc5

/-- Eight hexadecimal digits. -/
def hex8 (n : UInt32) : String :=
  let digits := Nat.toDigits 16 n.toNat
  String.ofList (List.replicate (8 - digits.length) '0' ++ digits)

/-- The longest leading text of at most so many bytes. -/
def takeBytes : ℕ → List Char → List Char
  | _, [] => []
  | n, c :: cs => if c.utf8Size ≤ n then c :: takeBytes (n - c.utf8Size) cs else []

/-- The name the database keeps for an identifier. -/
def storedName (name : String) : String :=
  String.ofList (takeBytes maxIdentifierBytes name.toList)

/-- A name over the limit is cut and marked with a hash of the whole. -/
def compositeUniqueIndexName (entityName : String) (fields : List String) : String :=
  let full := "uniq_" ++ tableNameFor entityName ++ "_" ++ "_".intercalate fields
  if full.utf8ByteSize ≤ maxIdentifierBytes then full
  else
    let suffix := "_" ++ hex8 (fnv1a (full.toList.flatMap String.utf8EncodeChar))
    String.ofList (takeBytes (maxIdentifierBytes - suffix.utf8ByteSize) full.toList) ++ suffix

/-! ## Index expressions -/

/-- The value of a member of `data`, at the field's type unless the cast depends on a setting. -/
def memberIndexExpression (field : EntityField) : String :=
  match field.kind with
  | .date | .datetime => "(data ->> '" ++ field.name ++ "')"
  | kind => "((data ->> '" ++ field.name ++ "')::" ++ fieldKindSQLType kind ++ ")"

def columnIndexExpression (name : String) : String := "\"" ++ name ++ "\""

def fieldIndexExpression (field : EntityField) : String :=
  if fieldHasRealColumn field then columnIndexExpression field.name
  else memberIndexExpression field

def tenantColumnExpr : String := "\"tenant_id\""

def withTenantPrefix (expr : String) (lead : Bool) : String :=
  if lead then tenantColumnExpr ++ ", " ++ expr else expr

/-! ## Compilation -/

/-- The columns an entity's declaration is expected to share with the framework. -/
def mirrorColumns : List String := ["code", "status"]

/-- The index of a searchable field. -/
def searchIndex (entityName : String) (field : EntityField) : String × IndexSpec :=
  if field.searchMode = some "fts" then
    (indexName entityName field.name "gin",
      { expression := "to_tsvector('simple', (data ->> '" ++ field.name ++ "'))",
        «using» := "gin" })
  else
    (indexName entityName field.name "trgm",
      { expression := "(data ->> '" ++ field.name ++ "') gin_trgm_ops", «using» := "gin" })

/-- The predicate of a unique index: soft-deleted rows do not count. -/
def liveRows : String := "deleted = false"

def isFkReference (field : EntityField) : Bool :=
  field.kind = .reference && field.refEntity.isSome

def uniqueTenantScoped (field : EntityField) : Bool :=
  boolOrFalse field.unique && resolveUniqueScope field.uniqueScope = .tenant

/-- The index of a promoted field; a unique one covers live rows only. -/
def fieldIndex (entityName : String) (field : EntityField) (expr : String)
    (leadWithTenant : Bool) : String × IndexSpec :=
  let unique := boolOrFalse field.unique
  (indexName entityName field.name (if unique then "uniq" else "idx"),
    { expression := withTenantPrefix expr leadWithTenant
      unique
      whereClause := if unique then liveRows else "" })

def PhysicalSchema.addIndex (schema : PhysicalSchema) (index : String × IndexSpec) :
    PhysicalSchema :=
  { schema with indexes := schema.indexes.insert index.1 index.2 }

/-- A field with a column of its own: the column, its index and its foreign key. -/
def addColumnField (entityName entitySchema : String) (schema : PhysicalSchema)
    (field : EntityField) : PhysicalSchema :=
  let unique := boolOrFalse field.unique
  let schema :=
    { schema with
      columns := schema.columns.insert field.name
        ⟨fieldKindSQLType field.kind, true, .generated field.name true⟩ }
  let schema :=
    if unique || boolOrFalse field.indexed || boolOrFalse field.sortable || isFkReference field then
      -- the database looks a foreign key up by its column alone
      schema.addIndex (fieldIndex entityName field (columnIndexExpression field.name)
        (uniqueTenantScoped field || (!unique && !isFkReference field)))
    else schema
  if field.kind = .reference then
    match field.refEntity with
    | some ref =>
      { schema with
        foreignKeys := schema.foreignKeys.insert
          ("fk_" ++ tableNameFor entityName ++ "_" ++ field.name)
          { column := field.name
            refTable := qualifiedTableNameIn ref entitySchema
            refColumn := "id"
            onDelete := .restrict
            validated := true } }
    | none => schema
  else schema

/-- What a field adds beside its search index. -/
def addStoredField (entityName entitySchema : String) (schema : PhysicalSchema)
    (field : EntityField) : PhysicalSchema :=
  if fieldHasRealColumn field then addColumnField entityName entitySchema schema field
  else if resolveFieldStorageTier field = .jsonb then schema
  else
    schema.addIndex (fieldIndex entityName field (memberIndexExpression field)
      (uniqueTenantScoped field || !boolOrFalse field.unique))

/-- What a field adds; a searchable field that is not unique stops at its search index. -/
def addField (entityName entitySchema : String) (schema : PhysicalSchema) (field : EntityField) :
    PhysicalSchema :=
  if mirrorColumns.contains field.name then schema
  else if boolOrFalse field.searchable then
    let schema := schema.addIndex (searchIndex entityName field)
    if boolOrFalse field.unique then addStoredField entityName entitySchema schema field
    else schema
  else addStoredField entityName entitySchema schema field

def compileField (entityName entitySchema : String) (schema : PhysicalSchema)
    (field : EntityField) : Except CompileError PhysicalSchema :=
  if !mirrorColumns.contains field.name && frameworkColumnNames.contains field.name then
    .error (.frameworkColumn entityName field.name)
  else .ok (addField entityName entitySchema schema field)

/-- The expression of a field named by a constraint. -/
def constraintExpression (entity : EntityDefinition) (name : String) : String :=
  match entity.field? name with
  | some field => fieldIndexExpression field
  | none => "((data ->> '')::text)"

def constraintIndex (entity : EntityDefinition) (c : EntityUniqueConstraint) :
    String × IndexSpec :=
  (compositeUniqueIndexName entity.name c.fields,
    { expression := withTenantPrefix (", ".intercalate (c.fields.map (constraintExpression entity)))
        (resolveUniqueScope c.scope = .tenant)
      unique := true
      whereClause := liveRows })

theorem fst_constraintIndex (entity : EntityDefinition) (c : EntityUniqueConstraint) :
    (constraintIndex entity c).1 = compositeUniqueIndexName entity.name c.fields := by
  rw [constraintIndex]

/-- The framework columns and the index that leads with the tenant. -/
def baseSchema (entity : EntityDefinition) : PhysicalSchema :=
  { table := entity.tableName
    columns := frameworkColumns.foldl (fun columns c => columns.insert c.1 c.2) ∅
    indexes := (∅ : Specs IndexSpec).insert (indexName entity.name "tenant_id" "idx")
      { expression := tenantColumnExpr } }

def compile (entity : EntityDefinition) : Except CompileError PhysicalSchema := do
  checkTableNameLength entity.name
  let schemaName ← schemaOf entity.tableName
  let schema ← entity.fields.foldlM (compileField entity.name schemaName) (baseSchema entity)
  return entity.uniqueConstraints.foldl (fun schema c => schema.addIndex (constraintIndex entity c))
    schema

/-! ## The compiled schema -/

/-- The fields that get a column of their own. -/
def compilesColumn (field : EntityField) : Bool :=
  fieldHasRealColumn field && !mirrorColumns.contains field.name &&
    (!boolOrFalse field.searchable || boolOrFalse field.unique)

def generatedColumn (field : EntityField) : ColumnSpec :=
  ⟨fieldKindSQLType field.kind, true, .generated field.name true⟩

def fkName (entityName fieldName : String) : String :=
  "fk_" ++ tableNameFor entityName ++ "_" ++ fieldName

def referenceKey (entitySchema : String) (field : EntityField) (target : String) : FkSpec where
  column := field.name
  refTable := qualifiedTableNameIn target entitySchema
  refColumn := "id"
  onDelete := .restrict
  validated := true

theorem fkName_injective {entityName a b : String} (h : fkName entityName a = fkName entityName b) :
    a = b := by
  rw [fkName, fkName, String.append_right_inj] at h
  exact h

/-- The entity a field's foreign key leads to. -/
def keyTarget (field : EntityField) : Option String :=
  if compilesColumn field ∧ field.kind = .reference then field.refEntity else none

theorem keyTarget_eq_some {field : EntityField} {target : String} : keyTarget field = some target ↔
      (compilesColumn field = true ∧ field.kind = .reference) ∧ field.refEntity = some target := by
  unfold keyTarget
  split <;> simp_all

/-- The index of a field beside its search index. -/
def storedEntries (entityName : String) (field : EntityField) : List (String × IndexSpec) :=
  let unique := boolOrFalse field.unique
  if fieldHasRealColumn field then
    if unique || boolOrFalse field.indexed || boolOrFalse field.sortable || isFkReference field then
      [fieldIndex entityName field (columnIndexExpression field.name)
        (uniqueTenantScoped field || (!unique && !isFkReference field))]
    else []
  else if resolveFieldStorageTier field = .jsonb then []
  else [fieldIndex entityName field (memberIndexExpression field)
    (uniqueTenantScoped field || !unique)]

/-- The indexes of a field. -/
def fieldEntries (entityName : String) (field : EntityField) : List (String × IndexSpec) :=
  if mirrorColumns.contains field.name then []
  else if boolOrFalse field.searchable then
    searchIndex entityName field ::
      if boolOrFalse field.unique then storedEntries entityName field else []
  else storedEntries entityName field

/-- The indexes of an entity, in the order in which they are added. -/
def indexEntries (entity : EntityDefinition) : List (String × IndexSpec) :=
  (indexName entity.name "tenant_id" "idx", { expression := tenantColumnExpr }) ::
    (entity.fields.flatMap (fieldEntries entity.name) ++
      entity.uniqueConstraints.map (constraintIndex entity))

/-- The column of a field. -/
def columnEntries (field : EntityField) : List (String × ColumnSpec) :=
  if compilesColumn field then [(field.name, generatedColumn field)] else []

/-- The foreign key of a field with the given target. -/
def keyEntries (entityName entitySchema : String) (field : EntityField) (target : Option String) :
    List (String × FkSpec) :=
  target.toList.map fun target =>
    (fkName entityName field.name, referenceKey entitySchema field target)

section

variable (entityName entitySchema : String) (schema : PhysicalSchema) (field : EntityField)

/-- What a field adds beside its search index, as entries. -/
theorem addStoredField_eq : addStoredField entityName entitySchema schema field = { schema with
      columns := insertAll schema.columns
        (if fieldHasRealColumn field then [(field.name, generatedColumn field)] else [])
      indexes := insertAll schema.indexes (storedEntries entityName field)
      foreignKeys := insertAll schema.foreignKeys (keyEntries entityName entitySchema field
        (if fieldHasRealColumn field ∧ field.kind = .reference
          then field.refEntity else none)) } := by
  unfold addStoredField addColumnField storedEntries
  cases fieldHasRealColumn field with
  | false =>
    simp only [Bool.false_eq_true, if_false, false_and]
    split <;> rfl
  | true =>
    cases hindex : boolOrFalse field.unique || boolOrFalse field.indexed ||
      boolOrFalse field.sortable || isFkReference field
    all_goals
      by_cases hkind : field.kind = .reference
      · cases hrefers : field.refEntity <;>
          simp only [hindex, hkind, generatedColumn, and_self, if_true] <;> rfl
      · simp only [hindex, hkind, and_false, if_true, if_false]
        rfl

/-- What a field adds, as entries. -/
theorem addField_eq : addField entityName entitySchema schema field = { schema with
      columns := insertAll schema.columns (columnEntries field)
      indexes := insertAll schema.indexes (fieldEntries entityName field)
      foreignKeys := insertAll schema.foreignKeys
        (keyEntries entityName entitySchema field (keyTarget field)) } := by
  unfold addField columnEntries fieldEntries keyTarget compilesColumn
  cases mirrorColumns.contains field.name with
  | true =>
    simp only [↓reduceIte, Bool.not_true, Bool.and_false, Bool.false_and, Bool.false_eq_true,
      false_and]
    rfl
  | false =>
    cases boolOrFalse field.searchable with
    | false => simp [addStoredField_eq]
    | true =>
      simp only [Bool.false_eq_true, ↓reduceIte, Bool.not_false, Bool.and_true, Bool.not_true,
        Bool.false_or, addStoredField_eq]
      cases boolOrFalse field.unique with
      | false =>
        simp only [Bool.and_false, Bool.false_eq_true, ↓reduceIte, false_and]
        rfl
      | true =>
        simp only [Bool.and_true]
        rfl

end

/-- Compilation succeeds on fields that do not collide with the framework, and adds them in turn. -/
theorem foldlM_compileField_eq_ok {entityName entitySchema : String} {fields : List EntityField}
    {schema schema' : PhysicalSchema} :
    fields.foldlM (compileField entityName entitySchema) schema = .ok schema' ↔
      (∀ f ∈ fields, frameworkColumnNames.contains f.name = true →
        mirrorColumns.contains f.name = true) ∧
      schema' = fields.foldl (addField entityName entitySchema) schema := by
  induction fields generalizing schema with
  | nil => simp [pure, Except.pure, eq_comm]
  | cons f fs ih =>
    rw [List.foldlM_cons, List.forall_mem_cons, List.foldl_cons]
    by_cases hcollides : frameworkColumnNames.contains f.name = true →
        mirrorColumns.contains f.name = true
    · have hstep : compileField entityName entitySchema schema f =
          .ok (addField entityName entitySchema schema f) := by
        unfold compileField
        rw [if_neg]
        simpa using fun hmirror hname => hmirror (by simpa using hcollides (by simpa using hname))
      rw [hstep]
      exact ih.trans ⟨fun hrest => ⟨⟨hcollides, hrest.1⟩, hrest.2⟩, fun hall => ⟨hall.1.2, hall.2⟩⟩
    · have hstep : compileField entityName entitySchema schema f =
          .error (.frameworkColumn entityName f.name) := by
        unfold compileField
        rw [if_pos]
        simpa [and_comm] using hcollides
      rw [hstep]
      exact iff_of_false (by simp [bind, Except.bind]) fun hall => hcollides hall.1.1

theorem foldl_addField {entityName entitySchema : String} (fields : List EntityField)
    (schema : PhysicalSchema) : fields.foldl (addField entityName entitySchema) schema =
    { schema with
      columns := insertAll schema.columns (fields.flatMap columnEntries)
      indexes := insertAll schema.indexes (fields.flatMap (fieldEntries entityName))
      foreignKeys := insertAll schema.foreignKeys
        (fields.flatMap fun f => keyEntries entityName entitySchema f (keyTarget f)) } := by
  induction fields generalizing schema with
  | nil => rfl
  | cons f fs ih =>
    rw [List.foldl_cons, ih, addField_eq]
    simp only [List.flatMap_cons, insertAll_append]

theorem foldl_addIndex (entries : List (String × IndexSpec)) (schema : PhysicalSchema) :
    entries.foldl PhysicalSchema.addIndex schema =
      { schema with indexes := insertAll schema.indexes entries } := by
  induction entries generalizing schema with
  | nil => rfl
  | cons e es ih => exact ih _

/-- The fields of a constraint are declared, and their expressions are those of its index. -/
theorem map_constraintExpression {entity : EntityDefinition} (h : validate entity = [])
    {c : EntityUniqueConstraint} (hc : c ∈ entity.uniqueConstraints) :
    c.fields.map (constraintExpression entity) =
      (c.fields.filterMap entity.field?).map fieldIndexExpression := by
  have hdeclared := declared_of_constraintLoop (validate_eq_nil h).2.2.2.2.2.2.2.1 c hc
  generalize c.fields = names at hdeclared ⊢
  induction names with
  | nil => rfl
  | cons name names ih =>
    obtain ⟨hname, hrest⟩ := List.forall_mem_cons.mp hdeclared
    obtain ⟨f, hf, rfl⟩ := List.mem_map.mp hname
    have hfield := (wellFormed_of_validate h).field?_eq_some hf
    rw [List.map_cons, List.filterMap_cons_some hfield, List.map_cons, ih hrest,
      constraintExpression, hfield]

section

variable {e : String × IndexSpec} {f : EntityField} {entityName : String}

/-- An index of a field beside its search index is on its values. -/
theorem mem_storedEntries (he : e ∈ storedEntries entityName f) :
    ∃ lead, e = fieldIndex entityName f (fieldIndexExpression f) lead := by
  unfold storedEntries at he
  dsimp only at he
  split at he
  · next hcolumn =>
    split at he
    · rw [fieldIndexExpression, if_pos hcolumn]
      exact ⟨_, List.mem_singleton.mp he⟩
    · cases he
  · next hcolumn =>
    split at he
    · cases he
    · rw [fieldIndexExpression, if_neg hcolumn]
      exact ⟨_, List.mem_singleton.mp he⟩

/-- A field that has an index on its values has a column if it is to be stored in one. -/
theorem mem_fieldEntries (he : e ∈ fieldEntries entityName f) : e = searchIndex entityName f ∨
      e ∈ storedEntries entityName f ∧ f.name ∉ mirrorColumns ∧
        (fieldHasRealColumn f = true → compilesColumn f = true) := by
  unfold fieldEntries at he
  split at he
  · cases he
  next hmirror =>
  have hmirror : f.name ∉ mirrorColumns := by simpa using hmirror
  split at he
  · rcases List.mem_cons.mp he with rfl | he
    · exact .inl rfl
    · split at he
      · next hunique =>
        exact .inr ⟨he, hmirror, fun hcolumn => by
          simp [compilesColumn, hcolumn, hmirror, hunique]⟩
      · cases he
  · next hsearch =>
    exact .inr ⟨he, hmirror, fun hcolumn => by simp [compilesColumn, hcolumn, hmirror, hsearch]⟩

end

section

variable {entity : EntityDefinition} {schema : PhysicalSchema} (h : compile entity = .ok schema)

include h

/-- A schema that is compiled has the columns, indexes and foreign keys of the fields beside those
every table has. -/
theorem compile_eq_ok : ∃ schemaName, schemaOf entity.tableName = .ok schemaName ∧
    (tableNameFor entity.name).utf8ByteSize ≤ maxIdentifierBytes ∧
    (∀ f ∈ entity.fields, frameworkColumnNames.contains f.name = true →
      mirrorColumns.contains f.name = true) ∧
    schema =
      { table := entity.tableName
        columns := insertAll (baseSchema entity).columns (entity.fields.flatMap columnEntries)
        indexes := insertAll ∅ (indexEntries entity)
        foreignKeys := insertAll ∅
          (entity.fields.flatMap fun f => keyEntries entity.name schemaName f (keyTarget f)) } := by
  obtain ⟨_, hlength, hrest⟩ := Builder.except_bind_eq_ok h
  obtain ⟨schemaName, hschema, hrest⟩ := Builder.except_bind_eq_ok hrest
  obtain ⟨base, hfields, hret⟩ := Builder.except_bind_eq_ok hrest
  obtain ⟨hnames, rfl⟩ := foldlM_compileField_eq_ok.mp hfields
  refine ⟨schemaName, hschema, ?_, hnames, ?_⟩
  · unfold checkTableNameLength at hlength
    split at hlength
    · cases hlength
    · exact Nat.le_of_not_lt ‹_›
  · rw [foldl_addField, ← List.foldl_map, foldl_addIndex] at hret
    cases hret
    rw [← insertAll_append]
    rfl

theorem indexes_of_compile : schema.indexes = insertAll ∅ (indexEntries entity) := by
  obtain ⟨schemaName, -, -, -, rfl⟩ := compile_eq_ok h
  rfl

/-- The columns of the compiled table: the framework's, and those of the fields that get one. -/
theorem lookup_columns_of_compile (hnodup : (entity.fields.map EntityField.name).Nodup)
    (name : String) : schema.columns.lookup name = match entity.field? name with
      | some f =>
        if compilesColumn f then some (generatedColumn f)
        else (baseSchema entity).columns.lookup name
      | none => (baseSchema entity).columns.lookup name := by
  obtain ⟨schemaName, -, -, -, rfl⟩ := compile_eq_ok h
  have hentry : ∀ e ∈ entity.fields.flatMap columnEntries,
      ∃ f ∈ entity.fields, compilesColumn f = true ∧ e = (f.name, generatedColumn f) := by
    intro e he
    simpa [columnEntries] using he
  have hother : ∀ name, (∀ f, entity.field? name = some f → compilesColumn f = false) →
      name ∉ (entity.fields.flatMap columnEntries).map Prod.fst := by
    rintro name hnone hmem
    obtain ⟨e, he, rfl⟩ := List.mem_map.mp hmem
    obtain ⟨f, hf, hcompiles, rfl⟩ := hentry e he
    rw [hnone f (EntityDefinition.field?_eq_some hnodup hf)] at hcompiles
    cases hcompiles
  cases hfield : entity.field? name with
  | none => exact lookup_insertAll_of_notMem (hother name (by simp [hfield]))
  | some f =>
    dsimp only
    cases hcompiles : compilesColumn f with
    | false => exact lookup_insertAll_of_notMem (hother name (by simpa [hfield] using hcompiles))
    | true =>
      obtain ⟨hf, rfl⟩ := EntityDefinition.mem_of_field?_eq_some hfield
      refine lookup_insertAll_of_mem (e := (f.name, generatedColumn f)) _ ?_ fun e he hname => ?_
      · exact List.mem_flatMap.mpr ⟨f, hf, by simp [columnEntries, hcompiles]⟩
      · obtain ⟨g, hg, -, rfl⟩ := hentry e he
        rw [List.inj_on_of_nodup_map hnodup hg hf hname]

/-- Every foreign key is that of a reference. -/
theorem of_lookup_foreignKeys {name : String} {key : FkSpec}
    (hlookup : schema.foreignKeys.lookup name = some key) :
    ∃ schemaName, schemaOf entity.tableName = .ok schemaName ∧ ∃ field ∈ entity.fields,
      ∃ target, keyTarget field = some target ∧ key = referenceKey schemaName field target := by
  obtain ⟨schemaName, hschema, -, -, rfl⟩ := compile_eq_ok h
  obtain ⟨field, hfield, hentry⟩ :=
    List.mem_flatMap.mp ((mem_of_lookup_insertAll hlookup).resolve_right (by simp))
  obtain ⟨target, htarget, heq⟩ := List.mem_map.mp hentry
  cases heq
  exact ⟨schemaName, hschema, field, hfield, target, Option.mem_toList.mp htarget, rfl⟩

/-- A reference that gets a column gets a foreign key on it. -/
theorem lookup_foreignKeys_of_compile (hnodup : (entity.fields.map EntityField.name).Nodup)
    {field : EntityField} (hfield : field ∈ entity.fields) (hcompiles : compilesColumn field = true)
    (hkind : field.kind = .reference) {target : String} (hrefers : field.refEntity = some target) :
    ∃ schemaName, schemaOf entity.tableName = .ok schemaName ∧
      schema.foreignKeys.lookup (fkName entity.name field.name) =
        some (referenceKey schemaName field target) := by
  obtain ⟨schemaName, hschema, -, -, rfl⟩ := compile_eq_ok h
  have htarget := keyTarget_eq_some.mpr ⟨⟨hcompiles, hkind⟩, hrefers⟩
  refine ⟨schemaName, hschema, lookup_insertAll_of_mem
    (e := (fkName entity.name field.name, referenceKey schemaName field target)) _ ?_ ?_⟩
  · exact List.mem_flatMap.mpr ⟨field, hfield, by simp [keyEntries, htarget]⟩
  · intro e he hname
    obtain ⟨g, hg, hentry⟩ := List.mem_flatMap.mp he
    obtain ⟨target', htarget', rfl⟩ := List.mem_map.mp hentry
    cases List.inj_on_of_nodup_map hnodup hg hfield (fkName_injective hname)
    cases htarget.symm.trans (Option.mem_toList.mp htarget')
    rfl

end

end Metap.Reconciler
