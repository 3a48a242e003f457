import Metap.Framework.Builder
import Metap.Workflow.Workflow

/-!
# Boot-time validation of entities

`validate` collects the issues of an entity definition, in the order in which the checks are made;
an entity is accepted when there are none.  Each check is a definition of its own, so that what an
accepted entity satisfies is read off check by check.  `wellFormed_of_validate` collects what the
rest of the development relies on: an accepted entity may be registered.
-/

namespace Metap

/-! ## Issues -/

def FieldKind.text : FieldKind → String
  | .id => "id"
  | .string => "string"
  | .number => "number"
  | .boolean => "boolean"
  | .date => "date"
  | .datetime => "datetime"
  | .money => "money"
  | .enum => "enum"
  | .reference => "reference"
  | .json => "json"

def UniqueScope.text : UniqueScope → String
  | .tenant => "tenant"
  | .global => "global"
  | .other text => text

/-- What can be wrong with an entity definition. -/
inductive ValidationIssue where
  | duplicateField (field : String)
  | unsafeFieldName (field : String)
  | enumWithoutValues (field : String)
  | referenceWithoutEntity (field : String)
  | boundsOnKind (field : String) (kind : FieldKind)
  | minAboveMax (field : String) (min max : Float64)
  | lengthOnKind (field : String) (kind : FieldKind)
  | minLengthAboveMax (field : String) (min max : ℕ)
  | computedKind (field : String) (kind : FieldKind)
  | computedRequired (field : String)
  | computedSearchable (field : String)
  | computedSelf (field : String)
  | computedChain (field dep : String)
  | computedUnknown (field dep : String)
  | computedToken (field token : String)
  | viewField (view field : String)
  | viewFilter (view field : String)
  | viewSort (view field : String)
  | stateFieldUndeclared (field : String)
  | emptyInitialState
  | emptyTerminalState
  | guardMessageAlone (action : String)
  | validatorMessageAlone (action : String)
  | workflowAttribute (action attr : String)
  | workflowAction (action attr name : String)
  | incompleteTransition (source target action : String)
  | duplicateTransition (action source : String)
  | setsStateField (action field : String)
  | setsUnknownField (action field : String)
  | initialNotEnum (state field : String)
  | terminalNotEnum (state field : String)
  | sourceNotEnum (action state field : String)
  | targetNotEnum (action state field : String)
  | unsafeTableName (table : String)
  | systemRequired (field : String)
  | systemComputed (field : String)
  | systemState (field : String)
  | fieldScope (field : String) (scope : UniqueScope)
  | scopeWithoutUnique (field : String)
  | constraintScope (fields : List String) (scope : UniqueScope)
  | constraintTooShort (fields : List String)
  | constraintUnknown (fields : List String) (field : String)
  | constraintRepeats (fields : List String) (field : String)
  | constraintTwice (fields : List String)
  | redactedUnknown (field : String)
  | redactedTwice (field : String)
  | unsafeEntityName (name : String)
  deriving DecidableEq

/-- The issue's text, given how a string is quoted and a number printed. -/
def ValidationIssue.message (quote : String → String) (number : Float64 → String) :
    ValidationIssue → String
  | duplicateField f => "duplicate field name " ++ quote f
  | unsafeFieldName f => "field name " ++ quote f ++ " must match ^[A-Za-z][A-Za-z0-9_]*$"
  | enumWithoutValues f =>
    "field " ++ quote f ++ " is kind \"enum\" but declares no enumValues"
  | referenceWithoutEntity f =>
    "field " ++ quote f ++ " is kind \"reference\" but declares no refEntity"
  | boundsOnKind f kind =>
    "field " ++ quote f ++ " declares min/max but is kind " ++ quote kind.text ++
      ", not number/money"
  | minAboveMax f min max =>
    "field " ++ quote f ++ " has min (" ++ number min ++ ") greater than max (" ++ number max ++
      ")"
  | lengthOnKind f kind =>
    "field " ++ quote f ++ " declares minLength/maxLength but is kind " ++ quote kind.text ++
      ", not string"
  | minLengthAboveMax f min max =>
    "field " ++ quote f ++ " has minLength (" ++ toString min ++ ") greater than maxLength (" ++
      toString max ++ ")"
  | computedKind f kind =>
    "field " ++ quote f ++ " declares computed but is kind " ++ quote kind.text ++
      ", not string (v1 only supports string template expressions)"
  | computedRequired f =>
    "field " ++ quote f ++ " declares computed and required — the server always overwrites a " ++
      "computed field's value, required makes no sense here"
  | computedSearchable f =>
    "field " ++ quote f ++ " declares computed and searchable/sortable — not supported in v1, " ++
      "there is no materialize step yet (see docs/features/13-computed-derived-field.md)"
  | computedSelf f => "field " ++ quote f ++ " has computed.dependsOn referencing itself"
  | computedChain f dep =>
    "field " ++ quote f ++ " has computed.dependsOn referencing another computed field " ++
      quote dep ++ " — chaining computed fields is not supported in v1"
  | computedUnknown f dep =>
    "field " ++ quote f ++ " has computed.dependsOn referencing unknown field " ++ quote dep
  | computedToken f token =>
    "field " ++ quote f ++ " has computed.expression referencing \"\x7b" ++ token ++
      "\x7d\" which is not listed in dependsOn"
  | viewField view f => "listView " ++ quote view ++ " references unknown field " ++ quote f
  | viewFilter view f => "listView " ++ quote view ++ " filters on unknown field " ++ quote f
  | viewSort view f =>
    "listView " ++ quote view ++ " defaultSort references unknown field " ++ quote f
  | stateFieldUndeclared f => "workflow.stateField " ++ quote f ++ " is not a declared field"
  | emptyInitialState => "workflow.initialState must be a non-empty string"
  | emptyTerminalState => "workflow.terminalStates contains an empty string"
  | guardMessageAlone action =>
    "transition " ++ quote action ++ " has guardMessage but no guard"
  | validatorMessageAlone action =>
    "transition " ++ quote action ++ " has validatorMessage but no validator"
  | workflowAttribute action attr =>
    "transition " ++ quote action ++ " condition attribute " ++ quote attr ++ ": only " ++
      workflowAttributePrefix ++ "actors.<action> is supported"
  | workflowAction action attr name =>
    "transition " ++ quote action ++ " condition attribute " ++ quote attr ++
      " references unknown workflow action " ++ quote name
  | incompleteTransition source target action =>
    "workflow transition is missing from/to/action: \x7b\"from\":" ++ quote source ++
      ",\"to\":" ++ quote target ++ ",\"action\":" ++ quote action ++ "\x7d"
  | duplicateTransition action source =>
    "duplicate transition action " ++ quote action ++ " from state " ++ quote source
  | setsStateField action f =>
    "transition " ++ quote action ++ " setFields sets " ++ quote f ++
      ", which is stateField — use `to` instead"
  | setsUnknownField action f =>
    "transition " ++ quote action ++ " setFields references unknown field " ++ quote f
  | initialNotEnum state f =>
    "workflow.initialState " ++ quote state ++ " is not one of stateField " ++ quote f ++
      "'s enumValues"
  | terminalNotEnum state f =>
    "workflow.terminalStates contains " ++ quote state ++ ", not one of stateField " ++ quote f ++
      "'s enumValues"
  | sourceNotEnum action state f =>
    "workflow transition " ++ quote action ++ " has from-state " ++ quote state ++
      ", not one of stateField " ++ quote f ++ "'s enumValues"
  | targetNotEnum action state f =>
    "workflow transition " ++ quote action ++ " has to-state " ++ quote state ++
      ", not one of stateField " ++ quote f ++ "'s enumValues"
  | unsafeTableName table =>
    "tableName " ++ quote table ++
      " must be a schema-qualified ^[a-z][a-z0-9_]*\\.[a-z][a-z0-9_]*$ name"
  | systemRequired f => "system field " ++ quote f ++ " cannot be required: users never write it"
  | systemComputed f => "field " ++ quote f ++ " cannot be both system and computed"
  | systemState f => "workflow state field " ++ quote f ++ " cannot be a system field"
  | fieldScope f scope =>
    "field " ++ quote f ++ " uniqueScope " ++ quote scope.text ++
      " must be \"tenant\" or \"global\""
  | scopeWithoutUnique f => "field " ++ quote f ++ " sets uniqueScope without unique: true"
  | constraintScope fields scope =>
    entry fields ++ " scope " ++ quote scope.text ++ " must be \"tenant\" or \"global\""
  | constraintTooShort fields =>
    entry fields ++ " needs >= 2 fields — a single field belongs on that field's own " ++
      "\"unique\" flag instead"
  | constraintUnknown fields f => entry fields ++ " references unknown field " ++ quote f
  | constraintRepeats fields f => entry fields ++ " lists field " ++ quote f ++ " more than once"
  | constraintTwice fields =>
    "uniqueConstraints has more than one entry over the same field set " ++ list fields
  | redactedUnknown f => "audit.redactedFields references unknown field " ++ quote f
  | redactedTwice f => "audit.redactedFields lists field " ++ quote f ++ " more than once"
  | unsafeEntityName name =>
    "entity name " ++ quote name ++
      " must be a dotted ^[a-z][a-z0-9_]*(\\.[a-z][a-z0-9_]*)+$ name"
where
  list (fields : List String) : String := "[" ++ " ".intercalate fields ++ "]"
  entry (fields : List String) : String := "uniqueConstraints entry " ++ list fields

/-- An issue that is raised on a condition. -/
def issueIf (b : Bool) (issue : ValidationIssue) : List ValidationIssue :=
  if b then [issue] else []

@[simp]
theorem issueIf_eq_nil {b : Bool} {issue : ValidationIssue} : issueIf b issue = [] ↔ b = false := by
  cases b <;> simp [issueIf]

/-! ## Fields -/

def EntityDefinition.fieldNames (entity : EntityDefinition) : List String :=
  entity.fields.map EntityField.name

def fieldIssues (f : EntityField) : List ValidationIssue :=
  issueIf (!isSafeFieldName f.name) (.unsafeFieldName f.name) ++
    issueIf (f.kind = .enum && (f.enumValues.getD []).isEmpty) (.enumWithoutValues f.name) ++
    issueIf (f.kind = .reference && f.refEntity.isNone) (.referenceWithoutEntity f.name) ++
    issueIf (!(f.kind = .number || f.kind = .money) && (f.min.isSome || f.max.isSome))
      (.boundsOnKind f.name f.kind) ++
    (match f.min, f.max with
      | some lo, some hi => issueIf (hi.value < lo.value) (.minAboveMax f.name lo hi)
      | _, _ => []) ++
    issueIf (f.kind ≠ .string && (f.minLength.isSome || f.maxLength.isSome))
      (.lengthOnKind f.name f.kind) ++
    (match f.minLength, f.maxLength with
      | some lo, some hi => issueIf (hi < lo) (.minLengthAboveMax f.name lo hi)
      | _, _ => [])

/-- The loop over the fields; `seen` are the names before. -/
def fieldLoop (seen : List String) : List EntityField → List ValidationIssue
  | [] => []
  | f :: fs =>
    issueIf (seen.contains f.name) (.duplicateField f.name) ++ fieldIssues f ++
      fieldLoop (f.name :: seen) fs

/-! ## Computed fields -/

/-- The names in braces, outside a token or inside one whose name so far is given. -/
def tokenChars : Option (List Char) → List Char → List String
  | _, [] => []
  | none, c :: cs =>
    if c = '{' ∧ '}' ∈ cs then tokenChars (some []) cs else tokenChars none cs
  | some name, c :: cs =>
    if c = '}' then String.ofList name :: tokenChars none cs
    else tokenChars (some (name ++ [c])) cs

def expressionTokens (expression : String) : List String := tokenChars none expression.toList

def EntityDefinition.computedFieldNames (entity : EntityDefinition) : List String :=
  (entity.fields.filter fun f => f.computed.isSome).map EntityField.name

def dependencyIssues (entity : EntityDefinition) (field dep : String) : List ValidationIssue :=
  if dep = field then [.computedSelf field]
  else if entity.computedFieldNames.contains dep then [.computedChain field dep]
  else issueIf (!entity.fieldNames.contains dep) (.computedUnknown field dep)

def computedIssues (entity : EntityDefinition) (f : EntityField) : List ValidationIssue :=
  match f.computed with
  | none => []
  | some computed =>
    issueIf (f.kind ≠ .string) (.computedKind f.name f.kind) ++
      issueIf (boolOrFalse f.required) (.computedRequired f.name) ++
      issueIf (boolOrFalse f.searchable || boolOrFalse f.sortable) (.computedSearchable f.name) ++
      computed.dependsOn.flatMap (dependencyIssues entity f.name) ++
      (expressionTokens computed.expression).flatMap fun token =>
        issueIf (!computed.dependsOn.contains token) (.computedToken f.name token)

/-! ## List views -/

def EntityDefinition.isKnownField (entity : EntityDefinition) (name : String) : Bool :=
  entity.fieldNames.contains name || implicitSystemFields.contains name

variable {entity : EntityDefinition}

theorem EntityDefinition.isKnownField_iff {name : String} : entity.isKnownField name = true ↔
      name ∈ entity.fields.map EntityField.name ∨ name ∈ implicitSystemFields := by
  rw [isKnownField, Bool.or_eq_true, List.contains_iff_mem, List.contains_iff_mem, fieldNames]

def listViewIssues (entity : EntityDefinition) (v : EntityListView) : List ValidationIssue :=
  (v.fields.flatMap fun f => issueIf (!entity.isKnownField f) (.viewField v.name f)) ++
    (v.filters.flatMap fun f => issueIf (!entity.isKnownField f) (.viewFilter v.name f)) ++
    (match v.defaultSort with
      | none => []
      | some sort =>
        let field := (Strings.cutPrefix sort "-").getD sort
        issueIf (!entity.isKnownField field) (.viewSort v.name field))

/-! ## Workflows -/

/-- A leaf attribute of a guard or validator: of the reserved ones, only the actor of a declared
action may be asked for. -/
def attributeIssues (actions : List String) (action attr : String) : List ValidationIssue :=
  match Strings.cutPrefix attr workflowAttributePrefix with
  | none => []
  | some rest =>
    match Strings.cutPrefix rest "actors." with
    | none => [.workflowAttribute action attr]
    | some name =>
      if name = "" ∨ '.' ∈ name.toList then [.workflowAttribute action attr]
      else issueIf (!actions.contains name) (.workflowAction action attr name)

def setFieldIssues (entity : EntityDefinition) (w : EntityWorkflow) (action field : String) :
    List ValidationIssue :=
  if field = w.stateField then [.setsStateField action field]
  else issueIf (!entity.isKnownField field) (.setsUnknownField action field)

/-- One transition; `seen` are the pairs of source and action before. -/
def transitionIssues (entity : EntityDefinition) (w : EntityWorkflow) (seen : List String)
    (t : WorkflowTransition) : List ValidationIssue :=
  issueIf (t.guardMessage ≠ "" && t.guard.isNone) (.guardMessageAlone t.action) ++
    issueIf (t.validatorMessage ≠ "" && t.validator.isNone) (.validatorMessageAlone t.action) ++
    ([t.guard, t.validator].flatMap fun condition =>
      ((condition.map Workflow.conditionAttributes).getD []).flatMap
        (attributeIssues (w.transitions.map WorkflowTransition.action) t.action)) ++
    if t.source = "" ∨ t.target = "" ∨ t.action = "" then
      [.incompleteTransition t.source t.target t.action]
    else
      issueIf (seen.contains (t.source ++ "::" ++ t.action))
          (.duplicateTransition t.action t.source) ++
        t.setFields.flatMap fun e => setFieldIssues entity w t.action e.1

def transitionLoop (entity : EntityDefinition) (w : EntityWorkflow) (seen : List String) :
    List WorkflowTransition → List ValidationIssue
  | [] => []
  | t :: ts =>
    transitionIssues entity w seen t ++
      transitionLoop entity w
        (if t.source = "" ∨ t.target = "" ∨ t.action = "" then seen
          else (t.source ++ "::" ++ t.action) :: seen) ts

/-- The states a workflow may name, when its state field is an enumeration. -/
def stateEnumValues (entity : EntityDefinition) (w : EntityWorkflow) : Option (List String) :=
  (entity.fields.find? fun f => f.name = w.stateField && f.kind = .enum).bind
    EntityField.enumValues

def stateIssues (w : EntityWorkflow) (values : List String) : List ValidationIssue :=
  issueIf (w.initialState ≠ "" && !values.contains w.initialState)
      (.initialNotEnum w.initialState w.stateField) ++
    (w.terminalStates.flatMap fun state =>
      issueIf (state ≠ "" && !values.contains state) (.terminalNotEnum state w.stateField)) ++
    w.transitions.flatMap fun t =>
      if t.source = "" ∨ t.target = "" then []
      else
        issueIf (!values.contains t.source) (.sourceNotEnum t.action t.source w.stateField) ++
          issueIf (!values.contains t.target) (.targetNotEnum t.action t.target w.stateField)

def workflowIssues (entity : EntityDefinition) (w : EntityWorkflow) : List ValidationIssue :=
  issueIf (!entity.fieldNames.contains w.stateField) (.stateFieldUndeclared w.stateField) ++
    issueIf (w.initialState = "") .emptyInitialState ++
    (w.terminalStates.flatMap fun state => issueIf (state = "") .emptyTerminalState) ++
    transitionLoop entity w [] w.transitions ++
    ((stateEnumValues entity w).map (stateIssues w)).getD []

/-! ## System fields and uniqueness -/

def systemIssues (entity : EntityDefinition) (f : EntityField) : List ValidationIssue :=
  if boolOrFalse f.system then
    issueIf (boolOrFalse f.required) (.systemRequired f.name) ++
      issueIf f.computed.isSome (.systemComputed f.name) ++
      issueIf (entity.workflow.any fun w => w.stateField = f.name) (.systemState f.name)
  else []

def UniqueScope.isKnown (scope : UniqueScope) : Bool := scope = .tenant || scope = .global

def scopeIssues (f : EntityField) : List ValidationIssue :=
  match f.uniqueScope with
  | none => []
  | some scope =>
    issueIf (!scope.isKnown) (.fieldScope f.name scope) ++
      issueIf (!boolOrFalse f.unique) (.scopeWithoutUnique f.name)

/-- The loop over the names of one constraint; `seen` are the names before. -/
def constraintNameLoop (entity : EntityDefinition) (fields seen : List String) :
    List String → List ValidationIssue
  | [] => []
  | name :: names =>
    issueIf (!entity.fieldNames.contains name) (.constraintUnknown fields name) ++
      issueIf (seen.contains name) (.constraintRepeats fields name) ++
      constraintNameLoop entity fields (name :: seen) names

/-- The fields of a constraint in order, which is what two constraints are compared by. -/
def fieldSetKey (fields : List String) : List String := fields.insertionSort (· ≤ ·)

def constraintLoop (entity : EntityDefinition) (seen : List (List String)) :
    List EntityUniqueConstraint → List ValidationIssue
  | [] => []
  | c :: cs =>
    ((c.scope.map fun scope => issueIf (!scope.isKnown) (.constraintScope c.fields scope)).getD
        []) ++
      if c.fields.length < 2 then
        .constraintTooShort c.fields :: constraintLoop entity seen cs
      else
        constraintNameLoop entity c.fields [] c.fields ++
          issueIf (seen.contains (fieldSetKey c.fields)) (.constraintTwice c.fields) ++
          constraintLoop entity (fieldSetKey c.fields :: seen) cs

/-! ## The audit trail and names -/

def redactedLoop (entity : EntityDefinition) (seen : List String) :
    List String → List ValidationIssue
  | [] => []
  | name :: names =>
    issueIf (!entity.fieldNames.contains name) (.redactedUnknown name) ++
      issueIf (seen.contains name) (.redactedTwice name) ++
      redactedLoop entity (name :: seen) names

/-- A dotted name of safe segments: an entity's own name, or that of its table. -/
abbrev isSafeEntityName (name : String) : Bool := isSafeTableName name

/-- The issues of an entity definition; it is accepted when there are none. -/
def validate (entity : EntityDefinition) : List ValidationIssue :=
  fieldLoop [] entity.fields ++
    entity.fields.flatMap (computedIssues entity) ++
    entity.listViews.flatMap (listViewIssues entity) ++
    ((entity.workflow.map (workflowIssues entity)).getD []) ++
    issueIf (!isSafeTableName entity.tableName) (.unsafeTableName entity.tableName) ++
    entity.fields.flatMap (systemIssues entity) ++
    entity.fields.flatMap scopeIssues ++
    constraintLoop entity [] entity.uniqueConstraints ++
    ((entity.redactedFields.map (redactedLoop entity [])).getD []) ++
    issueIf (!isSafeEntityName entity.name) (.unsafeEntityName entity.name)

/-! ## What an accepted entity satisfies -/

theorem fieldLoop_eq_nil {seen : List String} {fs : List EntityField} :
    fieldLoop seen fs = [] ↔ (∀ f ∈ fs, fieldIssues f = []) ∧
      (fs.map EntityField.name).Nodup ∧ ∀ f ∈ fs, f.name ∉ seen := by
  induction fs generalizing seen with
  | nil => simp [fieldLoop]
  | cons f fs ih =>
    simp only [fieldLoop, List.append_eq_nil_iff, issueIf_eq_nil, ih, List.map_cons,
      List.nodup_cons, List.forall_mem_cons]
    constructor
    · rintro ⟨⟨hseen, hf⟩, hfs, hnodup, hnew⟩
      refine ⟨⟨hf, hfs⟩, ⟨fun hmem => ?_, hnodup⟩, by simpa using hseen, fun g hg hgs => ?_⟩
      · obtain ⟨g, hg, hname⟩ := List.mem_map.mp hmem
        exact hnew g hg (by simp [hname])
      · exact hnew g hg (List.mem_cons_of_mem _ hgs)
    · rintro ⟨⟨hf, hfs⟩, ⟨hname, hnodup⟩, hseen, hnew⟩
      refine ⟨⟨by simpa using hseen, hf⟩, hfs, hnodup, fun g hg hmem => ?_⟩
      rcases List.mem_cons.mp hmem with heq | hmem
      · exact hname (heq ▸ List.mem_map_of_mem hg)
      · exact hnew g hg hmem

variable {ts : List WorkflowTransition} {w : EntityWorkflow} {r : MetadataRegistry}

/-- Every transition of an accepted workflow is complete and sets known fields other than the state,
and no two of them have the same source and action. -/
theorem of_transitionLoop {seen : List String} (h : transitionLoop entity w seen ts = []) :
    (∀ t ∈ ts, (t.source ≠ "" ∧ t.target ≠ "" ∧ t.action ≠ "") ∧
      (∀ e ∈ t.setFields, setFieldIssues entity w t.action e.1 = []) ∧
      t.source ++ "::" ++ t.action ∉ seen) ∧
    (ts.map fun t => t.source ++ "::" ++ t.action).Nodup := by
  induction ts generalizing seen with
  | nil => simp
  | cons t ts ih =>
    obtain ⟨hfirst, hrest⟩ := List.append_eq_nil_iff.mp h
    unfold transitionIssues at hfirst
    obtain ⟨-, hbody⟩ := List.append_eq_nil_iff.mp hfirst
    split at hbody
    · cases hbody
    · next hcomplete =>
      obtain ⟨hnew, hsets⟩ := List.append_eq_nil_iff.mp hbody
      rw [issueIf_eq_nil, List.contains_eq_mem, decide_eq_false_iff_not] at hnew
      rw [if_neg hcomplete] at hrest
      obtain ⟨hall, hnodup⟩ := ih hrest
      refine ⟨List.forall_mem_cons.mpr ⟨?_, fun u hu => ?_⟩, List.nodup_cons.mpr ⟨?_, hnodup⟩⟩
      · exact ⟨by simpa using hcomplete, List.flatMap_eq_nil_iff.mp hsets, hnew⟩
      · obtain ⟨hu, hset, hkey⟩ := hall u hu
        exact ⟨hu, hset, fun hmem => hkey (List.mem_cons_of_mem _ hmem)⟩
      · intro hmem
        obtain ⟨u, hu, hkey⟩ := List.mem_map.mp hmem
        exact (hall u hu).2.2 (hkey ▸ List.mem_cons_self)

theorem declared_of_constraintNameLoop {fields seen names : List String}
    (h : constraintNameLoop entity fields seen names = []) :
    ∀ name ∈ names, name ∈ entity.fields.map EntityField.name := by
  induction names generalizing seen with
  | nil => simp
  | cons name names ih =>
    simp only [constraintNameLoop, List.append_eq_nil_iff, issueIf_eq_nil] at h
    refine List.forall_mem_cons.mpr ⟨?_, ih h.2⟩
    simpa [EntityDefinition.fieldNames] using h.1.1

theorem declared_of_constraintLoop {seen : List (List String)}
    {cs : List EntityUniqueConstraint} (h : constraintLoop entity seen cs = []) :
    ∀ c ∈ cs, ∀ name ∈ c.fields, name ∈ entity.fields.map EntityField.name := by
  induction cs generalizing seen with
  | nil => simp
  | cons c cs ih =>
    obtain ⟨-, hrest⟩ := List.append_eq_nil_iff.mp h
    split at hrest
    · cases hrest
    · simp only [List.append_eq_nil_iff] at hrest
      exact List.forall_mem_cons.mpr ⟨declared_of_constraintNameLoop hrest.1.1, ih hrest.2⟩

section

variable {entity : EntityDefinition} (h : validate entity = [])

include h

/-- The checks, one by one. -/
theorem validate_eq_nil :
    fieldLoop [] entity.fields = [] ∧ (∀ f ∈ entity.fields, computedIssues entity f = []) ∧
      (∀ v ∈ entity.listViews, listViewIssues entity v = []) ∧
      (∀ w ∈ entity.workflow, workflowIssues entity w = []) ∧
      isSafeTableName entity.tableName = true ∧
      (∀ f ∈ entity.fields, systemIssues entity f = []) ∧
      (∀ f ∈ entity.fields, scopeIssues f = []) ∧
      constraintLoop entity [] entity.uniqueConstraints = [] ∧
      isSafeEntityName entity.name = true := by
  unfold validate at h
  simp only [List.append_eq_nil_iff, issueIf_eq_nil, List.flatMap_eq_nil_iff,
    Bool.not_eq_eq_eq_not, Bool.not_false] at h
  obtain ⟨⟨⟨⟨⟨⟨⟨⟨⟨hfields, hcomputed⟩, hviews⟩, hworkflow⟩, htable⟩, hsystem⟩, hscope⟩,
    hconstraints⟩, -⟩, hname⟩ := h
  refine ⟨hfields, hcomputed, hviews, fun w hw => ?_, htable, hsystem, hscope, hconstraints, hname⟩
  rw [Option.mem_def.mp hw] at hworkflow
  exact hworkflow

/-- The states of an accepted workflow are named. -/
theorem states_of_validate : ∀ w ∈ entity.workflow, w.initialState ≠ "" ∧
    ∀ t ∈ w.transitions, t.source ≠ "" ∧ t.target ≠ "" ∧ t.action ≠ "" := by
  intro w hw
  have hissues := (validate_eq_nil h).2.2.2.1 w hw
  simp only [workflowIssues, List.append_eq_nil_iff, issueIf_eq_nil, decide_eq_false_iff_not]
    at hissues
  exact ⟨hissues.1.1.1.2, fun t ht => ((of_transitionLoop hissues.1.2).1 t ht).1⟩

/-- A transition of an accepted workflow is found by its action and its source. -/
theorem findTransition_of_validate : ∀ w ∈ entity.workflow, ∀ t ∈ w.transitions,
    Workflow.findTransition entity t.action t.source = some t := by
  intro w hw t ht
  have hissues := (validate_eq_nil h).2.2.2.1 w hw
  simp only [workflowIssues, List.append_eq_nil_iff] at hissues
  have hnodup := (of_transitionLoop hissues.1.2).2
  rw [Workflow.findTransition, Option.mem_def.mp hw, Option.bind_some]
  have hsome :
      (w.transitions.find? fun u => u.action = t.action && u.source = t.source).isSome := by
    rw [List.find?_isSome]
    exact ⟨t, ht, by simp⟩
  obtain ⟨u, hu⟩ := Option.isSome_iff_exists.mp hsome
  have hmatch := List.find?_some hu
  simp only [Bool.and_eq_true, decide_eq_true_eq] at hmatch
  have hkey : u.source ++ "::" ++ u.action = t.source ++ "::" ++ t.action := by
    rw [hmatch.1, hmatch.2]
  rw [hu, List.inj_on_of_nodup_map hnodup (List.mem_of_find?_eq_some hu) ht hkey]

/-- An accepted entity may be registered. -/
theorem wellFormed_of_validate : entity.WellFormed := by
  obtain ⟨hfields, -, hviews, hworkflow, htable, hsystem, -⟩ := validate_eq_nil h
  obtain ⟨hissues, hnodup, -⟩ := fieldLoop_eq_nil.mp hfields
  refine ⟨htable, fun f hf => ?_, hnodup, fun v hv name hname => ?_, fun w hw => ?_,
    fun w hw t ht e he hstate => ?_, fun w hw hmem => ?_⟩
  · have hf' := hissues f hf
    simp only [fieldIssues, List.append_eq_nil_iff, issueIf_eq_nil] at hf'
    simpa using hf'.1.1.1.1.1.1
  · have hview := hviews v hv
    simp only [listViewIssues, List.append_eq_nil_iff, List.flatMap_eq_nil_iff, issueIf_eq_nil]
      at hview
    exact EntityDefinition.isKnownField_iff.mp (by simpa using hview.1.2 name hname)
  · have hw' := hworkflow w hw
    simp only [workflowIssues, List.append_eq_nil_iff, issueIf_eq_nil] at hw'
    simpa [EntityDefinition.fieldNames] using hw'.1.1.1.1
  · have hw' := hworkflow w hw
    simp only [workflowIssues, List.append_eq_nil_iff] at hw'
    have hset := ((of_transitionLoop hw'.1.2).1 t ht).2.1 e he
    rw [setFieldIssues, if_pos hstate] at hset
    cases hset
  · obtain ⟨f, hf, hname⟩ := List.mem_map.mp hmem
    obtain ⟨hf, hsys⟩ := List.mem_filter.mp hf
    have hf' := hsystem f hf
    rw [systemIssues, if_pos hsys] at hf'
    simp only [List.append_eq_nil_iff, issueIf_eq_nil] at hf'
    rw [Option.mem_def.mp hw] at hf'
    simp [hname] at hf'

end

/-! ## Registration -/

inductive RegistryError where
  | alreadyRegistered (name : String)
  | validation (issues : List ValidationIssue)

/-- An entity is registered if its name is free and it validates. -/
def MetadataRegistry.register (r : MetadataRegistry) (entity : EntityDefinition) :
    Except RegistryError MetadataRegistry :=
  if r.entities.any fun e => e.name = entity.name then .error (.alreadyRegistered entity.name)
  else
    match h : validate entity with
    | [] => .ok ⟨r.entities ++ [entity], by
        simpa [or_imp, forall_and] using ⟨r.wellFormed, wellFormed_of_validate h⟩⟩
    | issues => .error (.validation issues)

/-- Every entity in turn. -/
def MetadataRegistry.registerAll (entities : List EntityDefinition) :
    Except RegistryError MetadataRegistry :=
  entities.foldlM MetadataRegistry.register .empty

theorem MetadataRegistry.register_eq_ok {r' : MetadataRegistry} (h : r.register entity = .ok r') :
    r'.entities = r.entities ++ [entity] ∧ validate entity = [] ∧
      ∀ e ∈ r.entities, e.name ≠ entity.name := by
  unfold register at h
  split at h
  · cases h
  · next hfree =>
    split at h
    · next hvalid =>
      cases h
      exact ⟨rfl, hvalid, by simpa using hfree⟩
    · cases h

theorem MetadataRegistry.exists_register (hvalid : validate entity = [])
    (hfree : ∀ e ∈ r.entities, e.name ≠ entity.name) : ∃ r', r.register entity = .ok r' := by
  unfold register
  rw [if_neg (by simpa using hfree)]
  split
  · exact ⟨_, rfl⟩
  · next hissues => exact absurd hvalid hissues

/-- Entities are registered one after another exactly when they are valid and their names new. -/
theorem MetadataRegistry.foldlM_register {es : List EntityDefinition} {r₀ : MetadataRegistry} :
    es.foldlM register r₀ = .ok r ↔ r.entities = r₀.entities ++ es ∧ (∀ e ∈ es, validate e = []) ∧
      (es.map EntityDefinition.name).Nodup ∧ ∀ e ∈ r₀.entities, ∀ e' ∈ es, e.name ≠ e'.name := by
  induction es generalizing r₀ with
  | nil =>
    refine ⟨fun h => ?_, fun h => ?_⟩
    · cases h
      simp
    · obtain ⟨entities, _⟩ := r
      obtain rfl : entities = r₀.entities := h.1.trans (List.append_nil _)
      rfl
  | cons e es ih =>
    rw [List.foldlM_cons]
    constructor
    · intro h
      obtain ⟨r₁, hstep, h⟩ := Builder.except_bind_eq_ok h
      obtain ⟨hentities, he, hfree⟩ := register_eq_ok hstep
      obtain ⟨hall, hvalid, hnodup, hrest⟩ := ih.mp h
      rw [hentities] at hall hrest
      grind
    · rintro ⟨hall, hvalid, hnodup, hrest⟩
      obtain ⟨r₁, hstep⟩ := exists_register (hvalid e List.mem_cons_self)
        fun e' he' => hrest e' he' e List.mem_cons_self
      rw [hstep]
      refine ih.mpr ?_
      rw [(register_eq_ok hstep).1]
      grind

/-- The entities that may be registered together are the valid ones with names of their own. -/
theorem MetadataRegistry.registerAll_iff {entities : List EntityDefinition} :
    (∃ r, registerAll entities = .ok r) ↔
      (∀ e ∈ entities, validate e = []) ∧ (entities.map EntityDefinition.name).Nodup := by
  constructor
  · rintro ⟨r, h⟩
    obtain ⟨-, hvalid, hnodup, -⟩ := foldlM_register.mp h
    exact ⟨hvalid, hnodup⟩
  · rintro ⟨hvalid, hnodup⟩
    refine ⟨⟨entities, fun e he => wellFormed_of_validate (hvalid e he)⟩, foldlM_register.mpr ?_⟩
    exact ⟨rfl, hvalid, hnodup, by simp [empty]⟩

theorem MetadataRegistry.entities_of_registerAll {entities : List EntityDefinition}
    (h : registerAll entities = .ok r) : r.entities = entities :=
  (foldlM_register.mp h).1

end Metap
