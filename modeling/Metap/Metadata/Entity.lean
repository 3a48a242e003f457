import Metap.Permission.Condition

/-!
# Entity metadata

An entity is declared by data: its fields, the list views that expose it and, optionally, a
workflow over one of its fields.  `EntityDefinition.WellFormed` collects what the boot-time
validation guarantees of a registered entity and the rest of the development relies on;
`MetadataRegistry` holds only such entities, so nothing planned from a registry needs to check
names again.
-/

namespace Metap

inductive FieldKind where
  | id | string | number | boolean | date | datetime | money | enum | reference | json
  deriving DecidableEq, Repr

inductive FieldStorage where
  | native | column
  deriving DecidableEq, Repr

/-- How far a uniqueness guarantee reaches inside one table; validation refuses any other text. -/
inductive UniqueScope where
  | tenant | global
  | other (text : String)
  deriving DecidableEq, Repr

def resolveUniqueScope (scope : Option UniqueScope) : UniqueScope := scope.getD .tenant

structure EntityUniqueConstraint where
  fields : List String
  scope : Option UniqueScope := none
  deriving DecidableEq, Repr

structure ComputedSpec where
  expression : String
  dependsOn : List String
  deriving DecidableEq, Repr

/-- A declared field.  An optional flag is `none` when it is not set. -/
structure EntityField where
  name : String
  kind : FieldKind
  required : Option Bool := none
  indexed : Option Bool := none
  unique : Option Bool := none
  uniqueScope : Option UniqueScope := none
  enumValues : Option (List String) := none
  refEntity : Option String := none
  refDisplayField : Option String := none
  searchable : Option Bool := none
  searchMode : Option String := none
  sortable : Option Bool := none
  storage : Option FieldStorage := none
  min : Option Float64 := none
  max : Option Float64 := none
  minLength : Option ℕ := none
  maxLength : Option ℕ := none
  computed : Option ComputedSpec := none
  system : Option Bool := none
  deriving DecidableEq, Repr

def boolOrFalse (b : Option Bool) : Bool := b.getD false

/-- A field has a physical column of its own exactly as a reference to a named entity or by an
explicit storage override; every other field lives in the `data` document. -/
def fieldHasRealColumn (field : EntityField) : Bool :=
  (field.kind = .reference && field.refEntity.isSome) || field.storage = some .column

inductive FieldStorageTier where
  | jsonb | generatedColumn
  deriving DecidableEq, Repr

/-- The storage override decides; without one, any flag that needs an index promotes the field. -/
def resolveFieldStorageTier (field : EntityField) : FieldStorageTier :=
  match field.storage with
  | some .native => .jsonb
  | some .column => .generatedColumn
  | none =>
    if boolOrFalse field.indexed || boolOrFalse field.sortable || boolOrFalse field.unique ||
        boolOrFalse field.searchable then .generatedColumn
    else .jsonb

/-- The SQL type a promoted field uses. -/
def fieldKindSQLType : FieldKind → String
  | .string | .enum => "text"
  | .number => "double precision"
  | .money => "numeric(18,4)"
  | .boolean => "boolean"
  | .date => "date"
  | .datetime => "timestamptz"
  | .reference | .id => "uuid"
  | .json => "jsonb"

structure EntityListView where
  name : String
  fields : List String := []
  filters : List String := []
  defaultSort : Option String := none
  maxLimit : ℕ
  deriving DecidableEq, Repr

structure WorkflowTransition where
  action : String
  source : String
  target : String
  guard : Option PolicyCondition := none
  validator : Option PolicyCondition := none
  setFields : List (String × PolicyValue) := []
  guardMessage : String := ""
  validatorMessage : String := ""

structure EntityWorkflow where
  stateField : String
  initialState : String
  terminalStates : List String := []
  transitions : List WorkflowTransition := []

structure EntityDefinition where
  name : String
  tableName : String
  fields : List EntityField := []
  listViews : List EntityListView := []
  workflow : Option EntityWorkflow := none
  uniqueConstraints : List EntityUniqueConstraint := []
  /-- The fields the audit trail redacts, if the entity is audited. -/
  redactedFields : Option (List String) := none

variable {entity : EntityDefinition} {name : String} {field : EntityField}

namespace EntityDefinition

def field? (entity : EntityDefinition) (name : String) : Option EntityField :=
  entity.fields.find? fun f => f.name = name

theorem mem_of_field?_eq_some
    (h : entity.field? name = some field) : field ∈ entity.fields ∧ field.name = name :=
  ⟨List.mem_of_find?_eq_some h, by simpa using List.find?_some h⟩

end EntityDefinition

/-- The fields the platform writes, in declaration order. -/
def systemFieldNames (entity : EntityDefinition) : List String :=
  (entity.fields.filter fun f => boolOrFalse f.system).map EntityField.name

/-- `^[A-Za-z][A-Za-z0-9_]*$`. -/
def isSafeFieldName (name : String) : Bool :=
  match name.toList with
  | [] => false
  | c :: cs => c.isAlpha && (c :: cs).all fun d => d.isAlphanum || d = '_'

/-- `^[a-z][a-z0-9_]*$`. -/
def isSafeIdentSegment (segment : String) : Bool :=
  match segment.toList with
  | [] => false
  | c :: cs => c.isLower && (c :: cs).all fun d => d.isLower || d.isDigit || d = '_'

/-- A schema-qualified table name. -/
def isSafeTableName (name : String) : Bool :=
  '.' ∈ name.toList && (Strings.split name '.').all isSafeIdentSegment

/-- The fields every row has besides the declared ones. -/
def implicitSystemFields : List String := ["createdAt", "updatedAt"]

/-- What validation guarantees of an entity. -/
structure EntityDefinition.WellFormed (entity : EntityDefinition) : Prop where
  safe_table : isSafeTableName entity.tableName = true
  safe_names : ∀ f ∈ entity.fields, isSafeFieldName f.name = true
  nodup_names : (entity.fields.map EntityField.name).Nodup
  filters_known : ∀ v ∈ entity.listViews, ∀ name ∈ v.filters,
    name ∈ entity.fields.map EntityField.name ∨ name ∈ implicitSystemFields
  state_declared : ∀ w ∈ entity.workflow, w.stateField ∈ entity.fields.map EntityField.name
  setFields_not_state : ∀ w ∈ entity.workflow, ∀ t ∈ w.transitions, ∀ e ∈ t.setFields,
    e.1 ≠ w.stateField
  state_not_system : ∀ w ∈ entity.workflow, w.stateField ∉ systemFieldNames entity

/-- A declared field is found by its name. -/
theorem EntityDefinition.field?_eq_some (hnodup : (entity.fields.map EntityField.name).Nodup)
    (hfield : field ∈ entity.fields) : entity.field? field.name = some field := by
  have hsome : (entity.field? field.name).isSome := by
    rw [field?, List.find?_isSome]
    exact ⟨field, hfield, decide_eq_true rfl⟩
  obtain ⟨found, hfound⟩ := Option.isSome_iff_exists.mp hsome
  obtain ⟨hmem, hname⟩ := mem_of_field?_eq_some hfound
  rw [hfound, List.inj_on_of_nodup_map hnodup hmem hfield hname]

theorem EntityDefinition.WellFormed.field?_eq_some
    (hwf : entity.WellFormed) (hfield : field ∈ entity.fields) :
    entity.field? field.name = some field :=
  EntityDefinition.field?_eq_some hwf.nodup_names hfield

/-- Registered entities, each of them validated. -/
structure MetadataRegistry where
  entities : List EntityDefinition
  wellFormed : ∀ e ∈ entities, e.WellFormed

namespace MetadataRegistry

def empty : MetadataRegistry := ⟨[], by simp⟩

def getEntity (r : MetadataRegistry) (name : String) : Option EntityDefinition :=
  r.entities.find? fun e => e.name = name

variable {r : MetadataRegistry}

theorem wellFormed_of_getEntity (h : r.getEntity name = some entity) : entity.WellFormed :=
  r.wellFormed entity (List.mem_of_find?_eq_some h)

theorem name_of_getEntity (h : r.getEntity name = some entity) : entity.name = name := by
  have hname := List.find?_some h
  exact of_decide_eq_true hname

end MetadataRegistry

/-! ## Computed fields -/

/-- Scan a template: outside a token, or inside one whose name so far is given.  An opening brace
that nothing closes is kept. -/
def renderChars (resolve : String → Option String) : Option (List Char) → List Char → List Char
  | _, [] => []
  | none, c :: cs =>
    if c = '{' ∧ '}' ∈ cs then renderChars resolve (some []) cs
    else c :: renderChars resolve none cs
  | some name, c :: cs =>
    if c = '}' then
      ((resolve (String.ofList name)).getD "").toList ++ renderChars resolve none cs
    else renderChars resolve (some (name ++ [c])) cs

/-- The template with every `{name}` replaced by what `name` resolves to. -/
def renderExpression (expression : String) (resolve : String → Option String) : String :=
  String.ofList (renderChars resolve none expression.toList)

example : renderExpression "\x7ba\x7d-\x7bb\x7d \x7b"
    (fun n => if n = "a" then some "1" else none) = "1- \x7b" := by decide

/-- A safe name has letters, digits and underscores only. -/
theorem notMem_of_isSafeFieldName (h : isSafeFieldName name = true) {d : Char}
    (hd : (d.isAlphanum || d = '_') = false) : d ∉ name.toList := by
  unfold isSafeFieldName at h
  split at h
  · simp at h
  · next c cs hcs =>
    rw [hcs]
    simp only [Bool.and_eq_true, List.all_eq_true] at h
    intro hmem
    rw [h.2 d hmem] at hd
    cases hd

/-- A safe table name has lower-case letters, digits, underscores and dots only. -/
theorem notMem_of_isSafeTableName (h : isSafeTableName name = true) {d : Char}
    (hd : (d.isLower || d.isDigit || d = '_') = false) (hdot : d ≠ '.') : d ∉ name.toList := by
  rw [isSafeTableName, Bool.and_eq_true] at h
  intro hmem
  obtain ⟨segment, hsegment, hd'⟩ := Strings.exists_mem_split hmem hdot
  have hsafe := List.all_eq_true.mp h.2 segment hsegment
  unfold isSafeIdentSegment at hsafe
  split at hsafe
  · cases hsafe
  · next c cs hcs =>
    rw [hcs] at hd'
    rw [Bool.and_eq_true] at hsafe
    rw [List.all_eq_true.mp hsafe.2 d hd'] at hd
    cases hd

end Metap
