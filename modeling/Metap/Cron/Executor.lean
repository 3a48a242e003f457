import Metap.Grpc.RecordService

/-!
# Executing scheduled jobs

A due job is dispatched by its target type.  Two of the types act on records, through the record
service's client: `workflow_transition` moves one record, `bulk_query_action` every record that a
list request returns.  A `steps` job runs a chain of such activities in order; it pauses at a
`wait_event` step and is resumed from the step after it.

The executor calls the record service on behalf of nobody (`serviceContext`), so each of its calls
is signed with its own service token.  The tenant of the job goes to webhooks only.

What webhooks and mails do is a parameter, and so are the texts of decoding errors.
-/

namespace Metap.Cron

open Crud Grpc Logged

/-! ## Jobs and their configurations -/

inductive TargetType where
  | workflowTransition | bulkQueryAction | webhook | email | steps | waitEvent
  deriving DecidableEq, Repr

def parseTargetType (s : String) : Option TargetType :=
  if s = "workflow_transition" then some .workflowTransition
  else if s = "bulk_query_action" then some .bulkQueryAction
  else if s = "webhook" then some .webhook
  else if s = "email" then some .email
  else if s = "steps" then some .steps
  else if s = "wait_event" then some .waitEvent
  else none

inductive RunStatus where
  | enqueued | success | failed | waiting
  deriving DecidableEq, Repr

/-- One firing of a job.  A configuration that was left out altogether is `none`. -/
structure CronJobDuePayload where
  runID : Uuid
  jobID : Uuid
  tenantID : Uuid
  targetType : String
  targetConfig : Option Json
  triggerRecordID : Option Uuid := none
  triggerEntity : Option String := none

structure WorkflowTransitionConfig where
  entity : String
  recordID : Uuid
  action : String
  deriving DecidableEq, Repr

structure BulkQueryActionConfig where
  entity : String
  filter : List (String × String)
  action : String
  deriving DecidableEq, Repr

structure WaitEventTargetConfig where
  entity : String
  action : Option String
  event : Option String
  deriving DecidableEq, Repr

/-- A step of a chain. -/
structure Activity where
  targetType : String
  targetConfig : Option Json

def decodeText (name : String) : JsonObject → Option String :=
  JsonObject.decodeMember name (Json.readScalar some) ""

def decodeOptionalText (name : String) : JsonObject → Option (Option String) :=
  JsonObject.decodeMember name (fun _ j => if j = .null then some none else j.decodeString.map some)
    none

def decodeWorkflowTransition (codec : UuidCodec) (config : Json) :
    Option WorkflowTransitionConfig := do
  let o ← config.decodeObject
  let entity ← decodeText "entity" o
  let recordID ← o.decodeMember "recordId" (Json.readScalar codec.parse) 0
  let action ← decodeText "action" o
  return { entity, recordID, action }

/-- Read a filter map into the entries read so far; a null empties it. -/
def readFilter (acc : List (String × String)) : Json → Option (List (String × String))
  | .null => some []
  | .obj fields => fields.foldlM (fun acc e =>
      (Json.decodeString e.2).map fun value => insertEntry e.1 value acc) acc
  | _ => none

def decodeBulkQueryAction (config : Json) : Option BulkQueryActionConfig := do
  let o ← config.decodeObject
  let entity ← decodeText "entity" o
  let filter ← o.decodeMember "filter" readFilter []
  let action ← decodeText "action" o
  return { entity, filter, action }

def decodeWaitEvent (config : Json) : Option WaitEventTargetConfig := do
  let o ← config.decodeObject
  let entity ← decodeText "entity" o
  let action ← decodeOptionalText "action" o
  let event ← decodeOptionalText "event" o
  return { entity, action, event }

def decodeActivity (j : Json) : Option Activity := do
  let o ← j.decodeObject
  let targetType ← decodeText "targetType" o
  let targetConfig ← o.decodeMember "targetConfig" (fun _ j => some (some j)) none
  return { targetType, targetConfig }

def decodeSteps (config : Json) : Option (List Activity) := do
  let o ← config.decodeObject
  let items ← o.decodeMember "steps" (fun _ j => j.decodeArray) []
  items.mapM decodeActivity

/-! ## Results -/

/-- What a firing reports. -/
inductive Summary where
  | record (dto : RecordDto)
  | bulk (matched succeeded : ℕ) (failed : List (Uuid × String))
  | external (response : Json)
  | steps (results : List Summary)

/-- What a dispatch comes to, if it does not fail. -/
inductive Dispatched where
  | finished (summary : Summary)
  | waiting (stepIndex : ℕ) (wait : WaitEventTargetConfig)

structure ExecutorConfig where
  targetGRPCBackend : Option Upstream
  codec : UuidCodec
  quote : String → String
  jsonError : Option Json → String
  runWebhook : (tenantID jobID runID : Uuid) → (triggerEntity : Option String) →
    (triggerRecordID : Option Uuid) → Option Json → Except String Json
  runEmail : (triggerEntity : Option String) → (triggerRecordID : Option Uuid) → Option Json →
    Except String Json

/-- A map printed by key. -/
def fieldErrorsText (fieldErrors : FieldErrors) : String :=
  let entries := fieldErrors.foldl (fun acc e => insertEntry e.1 e.2 acc) []
  "map[" ++ " ".intercalate (entries.map fun e =>
    e.1 ++ ":[" ++ " ".intercalate e.2 ++ "]") ++ "]"

/-- The text a refused call fails with. -/
def unwrapError : ServiceError → String
  | .refused status errorCode message fieldErrors =>
    let msg := match message with
      | some m => errorCode ++ ": " ++ m
      | none => errorCode
    let msg := if fieldErrors = [] then msg
      else msg ++ " (field_errors: " ++ fieldErrorsText fieldErrors ++ ")"
    toString status ++ " " ++ msg
  | .internal => "internal server error"

section

variable (config : ExecutorConfig)

/-- Read a configuration, or fail with the decoder's text. -/
def decodeConfig {α : Type} (decode : Json → Option α) (targetConfig : Option Json) :
    Except String α :=
  match targetConfig.bind decode with
  | some cfg => .ok cfg
  | none => .error (config.jsonError targetConfig)

/-! ## Acting on records -/

/-- A context of the executor's own: nothing is forwarded in it. -/
def serviceContext : RequestContext := { tenantID := "" }

def targetBackend : Except String Upstream :=
  match config.targetGRPCBackend with
  | some backend => .ok backend
  | none => .error ("CRON_TARGET_GRPC_ADDR is unset or the initial connection to it failed — " ++
      "workflow_transition/bulk_query_action jobs cannot run")

/-- Get, then transition at the version that was read. -/
def transitionOne (entity : String) (recordID : Uuid) (action : String) :
    Logged World Trace String RecordDto := do
  emit [.attempt entity recordID action]
  let b ← ofExcept (targetBackend config)
  let got ← mapError unwrapError (Grpc.get b serviceContext entity recordID)
  mapError unwrapError
    (Grpc.transition b serviceContext entity recordID action got.record.version none)

def runWorkflowTransition (targetConfig : Option Json) : Logged World Trace String Summary := do
  let cfg ← ofExcept (decodeConfig config (decodeWorkflowTransition config.codec) targetConfig)
  let record ← transitionOne config cfg.entity cfg.recordID cfg.action
  return .record record

/-- The result of one record of a bulk action. -/
def failureOf : Uuid × Except String RecordDto → Option (Uuid × String)
  | (id, .error e) => some (id, e)
  | (_, .ok _) => none

/-- The list request of a bulk action: one page of at most two hundred records. -/
def bulkInput (cfg : BulkQueryActionConfig) : Query.ListInput :=
  { limit := 200, filters := cfg.filter }

/-- Attempt the transition on each record of a page, collecting the failures. -/
def transitionEach (entity action : String) (records : List RecordDto) :
    Logged World Trace String (List (Uuid × Except String RecordDto)) :=
  forEach (fun record => do
    let result ← attempt (transitionOne config entity record.id action)
    return (record.id, result)) records

def runBulkQueryAction (targetConfig : Option Json) : Logged World Trace String Summary := do
  let cfg ← ofExcept (decodeConfig config decodeBulkQueryAction targetConfig)
  let b ← ofExcept (targetBackend config)
  let records ← mapError unwrapError (Grpc.list b serviceContext cfg.entity (bulkInput cfg))
  let results ← transitionEach config cfg.entity cfg.action records.data
  let failed := results.filterMap failureOf
  return .bulk records.data.length (results.length - failed.length) failed

/-! ## Dispatching -/

/-- Webhooks and mails. -/
def runExternal (x : Except String Json) : Logged World Trace String Summary := do
  let response ← ofExcept x
  return .external response

def runOneStep (chain : CronJobDuePayload) (step : Activity) :
    Logged World Trace String Summary :=
  match parseTargetType step.targetType with
  | some .workflowTransition => runWorkflowTransition config step.targetConfig
  | some .bulkQueryAction => runBulkQueryAction config step.targetConfig
  | some .webhook =>
    runExternal (config.runWebhook chain.tenantID chain.jobID chain.runID chain.triggerEntity
      chain.triggerRecordID step.targetConfig)
  | some .email =>
    runExternal (config.runEmail chain.triggerEntity chain.triggerRecordID step.targetConfig)
  | some .steps =>
    ofExcept (.error "nested \"steps\" targetType is not supported inside a step")
  | some .waitEvent =>
    ofExcept (.error ("wait_event step reached runOneStep — should have been intercepted by " ++
      "runStepRange"))
  | none => ofExcept (.error ("unknown targetType " ++ config.quote step.targetType ++ " in step"))

/-- The steps from an index on, with the results of those before. -/
def runStepRange (chain : CronJobDuePayload) :
    (stepIndex : ℕ) → List Activity → List Summary → Logged World Trace String Dispatched
  | _, [], results => return .finished (.steps results)
  | stepIndex, step :: rest, results =>
    if parseTargetType step.targetType = some .waitEvent then
      match step.targetConfig.bind decodeWaitEvent with
      | some wait => return .waiting stepIndex wait
      | none => ofExcept (.error (s!"step {stepIndex} (wait_event) has an invalid targetConfig: " ++
          config.jsonError step.targetConfig))
    else do
      let value ← mapError
        (fun err => s!"step {stepIndex} ({step.targetType}) failed: " ++ err)
        (runOneStep config chain step)
      runStepRange chain (stepIndex + 1) rest (results ++ [value])

def runSteps (payload : CronJobDuePayload) : Logged World Trace String Dispatched := do
  let steps ← ofExcept (decodeConfig config decodeSteps payload.targetConfig)
  if steps = [] then ofExcept (.error "steps target_config.steps must not be empty")
  else runStepRange config payload 0 steps []

def dispatch (payload : CronJobDuePayload) : Logged World Trace String Dispatched := do
  match parseTargetType payload.targetType with
  | some .workflowTransition =>
    return .finished (← runWorkflowTransition config payload.targetConfig)
  | some .bulkQueryAction =>
    return .finished (← runBulkQueryAction config payload.targetConfig)
  | some .webhook =>
    return .finished (← runExternal (config.runWebhook payload.tenantID payload.jobID payload.runID
      payload.triggerEntity payload.triggerRecordID payload.targetConfig))
  | some .email =>
    return .finished (← runExternal (config.runEmail payload.triggerEntity
      payload.triggerRecordID payload.targetConfig))
  | some .steps => runSteps config payload
  | some .waitEvent =>
    ofExcept (.error ("\"wait_event\" is not a valid top-level targetType, only a step inside a " ++
      "\"steps\" chain"))
  | none => ofExcept (.error ("unknown target_type " ++ config.quote payload.targetType))

/-! ## Firings -/

/-- What becomes of a firing: a duplicate delivery is skipped. -/
inductive Execution where
  | skipped
  | dispatched (result : Except String Dispatched)

/-- Run a due job, unless its run has already been. -/
def execute (status : Option RunStatus) (payload : CronJobDuePayload) :
    Logged World Trace String Execution :=
  match status with
  | some .success | some .failed | some .waiting => return .skipped
  | _ => do
    let result ← attempt (dispatch config payload)
    return .dispatched result

/-- Continue a paused chain. -/
def resumeSteps (payload : CronJobDuePayload) (resumeFromStepIndex : ℕ) :
    Logged World Trace String Execution := do
  let result ← attempt (do
    let steps ← ofExcept (decodeConfig config decodeSteps payload.targetConfig)
    if steps.length < resumeFromStepIndex then
      ofExcept (.error "slice bounds out of range")
    else runStepRange config payload resumeFromStepIndex (steps.drop resumeFromStepIndex) [] :
      Logged World Trace String Dispatched)
  return .dispatched result

/-- A firing of a job, delivered or resumed. -/
inductive Firing where
  | due (status : Option RunStatus) (payload : CronJobDuePayload)
  | resumed (payload : CronJobDuePayload) (resumeFromStepIndex : ℕ)

namespace Firing

def payload : Firing → CronJobDuePayload
  | .due _ payload => payload
  | .resumed payload _ => payload

def run : Firing → Logged World Trace String Execution
  | .due status payload => execute config status payload
  | .resumed payload resumeFromStepIndex => resumeSteps config payload resumeFromStepIndex

end Firing

end

end Metap.Cron
