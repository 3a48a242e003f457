import Metap.Cron.RunLifecycle

/-!
# Resuming an edited chain

A chain that pauses keeps the index of its waiting step.  The steps are read again from the job when
an event resumes it, and the job may have been edited meanwhile.  The results are allocated for the
steps left, and the steps sliced from the index on; neither is checked against the list, so with
fewer steps than the index says the process panics (`retargeted_chain_panics`).

`resume_continues_iff` says exactly when it does not.
-/

namespace Metap.Cron

/-- What an update of a job changes of its target. -/
structure JobUpdate where
  targetType : Option String := none
  targetConfig : Option Json := none

def updateJob (job : CronJob) (update : JobUpdate) : CronJob :=
  { job with
    targetType := update.targetType.getD job.targetType
    targetConfig := update.targetConfig.or job.targetConfig }

section

variable {α : Type}

/-- `make([]T, 0, capacity)`: no slice with a negative capacity. -/
def makeSlice (capacity : ℤ) : Option (List α) := if capacity < 0 then none else some []

/-- `xs[start:]`: no slice from outside. -/
def sliceFrom (xs : List α) (start : ℤ) : Option (List α) :=
  if start < 0 ∨ xs.length < start then none else some (xs.drop start.toNat)

end

/-- What a resumption begins with: the run fails, or goes on with the steps left. -/
inductive Resumption where
  | fails (err : String)
  | continues (results : List Summary) (steps : List Activity)

/-- How `ResumeSteps` and `runStepRange` begin; `none` is a panic. -/
def beginResume (config : ExecutorConfig) (targetConfig : Option Json)
    (resumeFromStepIndex : ℤ) : Option Resumption :=
  match decodeConfig config decodeSteps targetConfig with
  | .error err => some (.fails err)
  | .ok steps => do
    let results ← makeSlice (steps.length - resumeFromStepIndex)
    let left ← sliceFrom steps resumeFromStepIndex
    return .continues results left

theorem beginResume_of_decode (config : ExecutorConfig) {targetConfig : Option Json}
    {steps : List Activity} (hsteps : targetConfig.bind decodeSteps = some steps) (index : ℕ) :
    beginResume config targetConfig index =
      if index ≤ steps.length then some (.continues [] (steps.drop index)) else none := by
  have hdecode : decodeConfig config decodeSteps targetConfig = .ok steps := by
    simp only [decodeConfig, hsteps]
  rw [beginResume, hdecode]
  by_cases hle : index ≤ steps.length
  · have hnonneg : ¬(steps.length : ℤ) - index < 0 := by omega
    have hrange : ¬((index : ℤ) < 0 ∨ (steps.length : ℤ) < index) := by omega
    simp only [makeSlice, sliceFrom, if_neg hnonneg, if_neg hrange, if_pos hle]
    rfl
  · have hneg : (steps.length : ℤ) - index < 0 := by omega
    simp [makeSlice, hneg, hle]

/-- A chain paused at a step, resumed after an update of its job, goes on with the steps after that
one or fails with the decoder's text, exactly if the list, where there is one, has that step. -/
theorem resume_continues_iff (config : ExecutorConfig) (job : CronJob) (update : JobUpdate)
    (stepIndex : ℕ) :
    let targetConfig := (updateJob job update).targetConfig
    (∃ r, beginResume config targetConfig (stepIndex + 1 : ℕ) = some r ∧
      (r = .fails (config.jsonError targetConfig) ∨
        ∃ steps, targetConfig.bind decodeSteps = some steps ∧
          r = .continues [] (steps.drop (stepIndex + 1)))) ↔
      ∀ steps, targetConfig.bind decodeSteps = some steps → stepIndex < steps.length := by
  intro targetConfig
  cases hsteps : targetConfig.bind decodeSteps with
  | none =>
    refine iff_of_true ⟨_, ?_, .inl rfl⟩ (by simp)
    simp only [beginResume, decodeConfig, hsteps]
  | some steps =>
    rw [beginResume_of_decode config hsteps]
    by_cases hlt : stepIndex + 1 ≤ steps.length
    · rw [if_pos hlt]
      refine iff_of_true ⟨_, rfl, .inr ⟨steps, rfl, rfl⟩⟩ ?_
      rintro _ ⟨⟩
      exact hlt
    · rw [if_neg hlt]
      exact iff_of_false (by simp) fun h => hlt (h steps rfl)

def offlineExecutor : ExecutorConfig where
  targetGRPCBackend := none
  codec := .hex
  quote := id
  jsonError _ := ""
  runWebhook _ _ _ _ _ _ := .ok .null
  runEmail _ _ _ := .ok .null

/-- Wait for the approval of an order. -/
def approvalConfig : Json := .obj [("entity", .str "crm.orders"), ("action", .str "approve")]

def approvalJob : CronJob :=
  { sampleJob with
    targetType := "steps"
    targetConfig := some (.obj [("steps", .arr [.obj [("targetType", .str "wait_event"),
      ("targetConfig", approvalConfig)]])]) }

/-- A chain waits at its first step.  Its job is made a webhook, whose configuration has no steps,
and the resumption panics. -/
theorem retargeted_chain_panics :
    approvalJob.targetConfig.bind decodeSteps = some [⟨"wait_event", some approvalConfig⟩] ∧
    beginResume offlineExecutor
      (updateJob approvalJob
        { targetType := some "webhook", targetConfig := some (.obj []) }).targetConfig
      (0 + 1 : ℕ) = none := by
  have htype : "targetConfig".toLower ≠ "targetType".toLower := by decide_cbv
  refine ⟨?_, rfl⟩
  simp [approvalJob, decodeSteps, decodeActivity, decodeText, JsonObject.decodeMember,
    Json.decodeObject, Json.decodeArray, Json.readScalar, htype, htype.symm]

end Metap.Cron
