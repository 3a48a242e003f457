import Metap.Framework.Uuid
import Metap.Metadata.Entity

/-!
# Workflows

A workflow moves a record between the states of its state field along declared transitions.  A
transition may carry a guard, evaluated on the record before the caller's payload is merged in,
a validator, evaluated after, and fields to set.  Guards and validators may ask who last performed
an action on the record: that is read from the append-only ledger of workflow events and shown to
the condition under the reserved key `$workflow`.
-/

namespace Metap.Workflow

/-- The state a new record starts in: the caller's own, else the declared initial state. -/
def getInitialStatus (entity : EntityDefinition) (data : JsonObject) : Option String :=
  entity.workflow.map fun w => ((data.get w.stateField).bind Json.decodeString).getD w.initialState

def findTransition (entity : EntityDefinition) (action fromState : String) :
    Option WorkflowTransition :=
  entity.workflow.bind fun w => w.transitions.find? fun t =>
    t.action = action && t.source = fromState

/-- A condition of a transition: `none` when it holds or there is none, else its message. -/
def runCondition (condition : Option PolicyCondition) (message : String) (data : JsonObject)
    (ctx : RequestContext) : Option String :=
  match condition with
  | none => none
  | some c =>
    match evaluateCondition (.obj data) ctx c with
    | .passed => none
    | .failed reason => some (if message ≠ "" then message else reason)

def runGuard (t : WorkflowTransition) (data : JsonObject) (ctx : RequestContext) :
    Option String :=
  runCondition t.guard t.guardMessage data ctx

def runValidator (t : WorkflowTransition) (nextData : JsonObject) (ctx : RequestContext) :
    Option String :=
  runCondition t.validator t.validatorMessage nextData ctx

/-! ## Who acted -/

def workflowContextKey : String := "$workflow"

mutual

/-- Every leaf attribute of a condition, depth first. -/
def conditionAttributes : PolicyCondition → List String
  | .attribute attr _ _ => [attr]
  | .all cs => conditionsAttributes cs
  | .any cs => conditionsAttributes cs

def conditionsAttributes : List PolicyCondition → List String
  | [] => []
  | c :: cs => conditionAttributes c ++ conditionsAttributes cs

end

def conditionUsesPrefix (c : Option PolicyCondition) (pre : String) : Bool :=
  match c with
  | none => false
  | some c => (conditionAttributes c).any fun attr => Strings.hasPrefix attr pre

/-- Whether any guard or validator of the entity reads `$workflow.`. -/
def usesWorkflowContext (entity : EntityDefinition) : Bool :=
  match entity.workflow with
  | none => false
  | some w => w.transitions.any fun t =>
      conditionUsesPrefix t.guard workflowAttributePrefix ||
        conditionUsesPrefix t.validator workflowAttributePrefix

/-- The user who last performed each action. -/
abbrev Actors := List (String × String)

/-- The record as a guard or a validator sees it. -/
def withWorkflowContext (data : JsonObject) (actors : Actors) : JsonObject :=
  data.set workflowContextKey
    (.obj [("actors", .obj (actors.map fun a => (a.1, .str a.2)))])

/-- A row of the ledger. -/
structure WorkflowEvent where
  id : Uuid
  tenantID : Uuid
  entity : String
  recordID : Uuid
  action : String
  fromState : String
  toState : String
  actor : Option Uuid
  createdAt : ℤ
  deriving DecidableEq

/-- The later of two events of one action; the identifier breaks ties. -/
def laterEvent (a b : WorkflowEvent) : WorkflowEvent :=
  if a.createdAt < b.createdAt ∨ (a.createdAt = b.createdAt ∧ a.id < b.id) then b else a

/-- The events of one record that have an actor. -/
def recordEvents (events : List WorkflowEvent) (tenantID : Uuid) (entity : String)
    (recordID : Uuid) : List WorkflowEvent :=
  events.filter fun e =>
    e.tenantID = tenantID && e.entity = entity && e.recordID = recordID && e.actor.isSome

/-- Per action, the actor of the latest event. -/
def latestActors (codec : UuidCodec) (events : List WorkflowEvent) : Actors :=
  (events.map WorkflowEvent.action).dedup.filterMap fun action =>
    match events.filter fun e => e.action = action with
    | [] => none
    | e :: rest => (rest.foldl laterEvent e).actor.map fun actor => (action, codec.format actor)

def lastActors (codec : UuidCodec) (events : List WorkflowEvent) (tenantID : Uuid)
    (entity : String) (recordID : Uuid) : Actors :=
  latestActors codec (recordEvents events tenantID entity recordID)

/-! ## Setting fields -/

/-- Write a transition's declared fields into the data. -/
def applySetFields (t : WorkflowTransition) (data : JsonObject) (ctx : RequestContext) :
    JsonObject :=
  data.merge (t.setFields.map fun e => (e.1, Permission.resolveValue e.2 ctx))

/-! ## Lemmas -/

variable {t : WorkflowTransition}

theorem findTransition_eq_some {entity : EntityDefinition} {action fromState : String}
    (h : findTransition entity action fromState = some t) :
    ∃ w, entity.workflow = some w ∧ t ∈ w.transitions ∧ t.action = action ∧
      t.source = fromState := by
  obtain ⟨w, hw, hfind⟩ := Option.bind_eq_some_iff.mp h
  have hmatch := List.find?_some hfind
  simp only [Bool.and_eq_true, decide_eq_true_eq] at hmatch
  exact ⟨w, hw, List.mem_of_find?_eq_some hfind, hmatch.1, hmatch.2⟩

/-- A field that the transition does not set keeps its value. -/
theorem get_applySetFields {k : String} (h : ∀ e ∈ t.setFields, e.1 ≠ k) (data : JsonObject)
    (ctx : RequestContext) : (applySetFields t data ctx).get k = JsonObject.get data k := by
  have hnone : JsonObject.get (t.setFields.map fun e => (e.1, Permission.resolveValue e.2 ctx)) k =
      none := by
    refine JsonObject.get_eq_none_of_notMem fun hmem => ?_
    simp only [JsonObject.keys, List.mem_dedup, List.map_map, List.mem_map] at hmem
    obtain ⟨e, he, hek⟩ := hmem
    exact h e he hek
  simp [applySetFields, hnone]

end Metap.Workflow
