import Metap.Cron.Executor
import Metap.Framework.Transition

/-!
# The life of a run

A job fires: a run is inserted and its message dispatched.  A message may be delivered any number
of times, to any number of executors at once.  Each delivery reads the status of the run, marks it
started, dispatches it and writes the outcome; after a failure with attempts left it inserts the
run of the next attempt, which a ticker claims when it is due.  These are separate statements, and
a process may die between any two of them.

* `finished_once`: a run is finished once, and retried once, as long as its deliveries do not
  overlap.
* `retry_trigger_iff`: a claimed retry is dispatched without a trigger, so it has that of its first
  attempt exactly when there was none.
* `retry_inserted`: a failure with attempts left has its retry as long as no process dies between
  the two statements that write them.
* `backoffDelay_exact_iff`: the delay before it doubles with each attempt as long as it fits into
  64 bits of nanoseconds.
-/

namespace Metap.Cron

open Transition

/-! ## Jobs, runs and messages -/

structure CronJob where
  tenantID : Uuid
  enabled : Bool
  targetType : String
  targetConfig : Option Json
  maxAttempts : ℤ
  retryBackoffSeconds : ℤ

/-- A row of the run history.  Times are in nanoseconds. -/
structure CronJobRun where
  tenantID : Uuid
  jobID : Uuid
  status : RunStatus := .enqueued
  attempt : ℤ := 1
  scheduledFor : ℤ
  startedAt : Option ℤ := none

/-- The entity and the record of the event that triggered a firing. -/
abbrev Trigger := Option String × Option Uuid

/-- The message of a firing, with what its retries need. -/
structure DueMessage extends CronJobDuePayload where
  attempt : ℤ
  maxAttempts : ℤ
  retryBackoffSeconds : ℤ

def DueMessage.trigger (m : DueMessage) : Trigger := (m.triggerEntity, m.triggerRecordID)

def dispatchClaimed (jobID : Uuid) (job : CronJob) (runID : Uuid) (attempt : ℤ)
    (trigger : Trigger) : DueMessage where
  runID := runID
  jobID := jobID
  tenantID := job.tenantID
  targetType := job.targetType
  targetConfig := job.targetConfig
  triggerEntity := trigger.1
  triggerRecordID := trigger.2
  attempt := attempt
  maxAttempts := job.maxAttempts
  retryBackoffSeconds := job.retryBackoffSeconds

/-- The exponent is taken in 32 bits, where the least attempt wraps, and the product in 64. -/
def backoffDelay (retryBackoffSeconds attempt : ℤ) : ℤ :=
  let exponent := if attempt = -2 ^ 31 then 2 ^ 31 - 1 else attempt - 1
  Int.bmod (retryBackoffSeconds * 2 ^ (min (max exponent 0) 30).toNat * 10 ^ 9) (2 ^ 64)

def retryClaimStaleAfter : ℤ := 300 * 10 ^ 9

/-- The condition under which a ticker claims a retry. -/
def CronJobRun.dueRetry (row : CronJobRun) (now : ℤ) : Bool :=
  1 < row.attempt && row.status = .enqueued &&
    row.startedAt.all (· < now - retryClaimStaleAfter) && row.scheduledFor ≤ now

/-- The statuses for which a delivery is taken as a duplicate. -/
def RunStatus.duplicate : RunStatus → Bool
  | .success | .failed | .waiting => true
  | .enqueued => false

/-! ## Executions -/

/-- How far the execution of a message has come. -/
inductive Stage where
  /-- The status has been read. -/
  | checked
  | running
  /-- The outcome has been written. -/
  | finished (status : RunStatus)

/-- A process that executes a message. -/
structure Worker where
  stage : Stage
  message : DueMessage

structure CronState where
  jobs : Uuid → Option CronJob := fun _ => none
  runs : Uuid → Option CronJobRun := fun _ => none
  /-- The runs whose chains wait for an event, one for each chain. -/
  waiting : List Uuid := []
  messages : List DueMessage := []
  calls : List Worker := []
  /-- The trigger of the first attempt that led to a run. -/
  origin : Uuid → Trigger := fun _ => (none, none)
  /-- The outcomes written, latest first. -/
  finishes : List (DueMessage × RunStatus) := []
  /-- The retries inserted, each with the message that failed. -/
  retries : List (DueMessage × Uuid) := []

namespace CronState

variable (s : CronState)

def insertRun (runID : Uuid) (row : CronJobRun) (trigger : Trigger) : CronState :=
  { s with
    runs := Function.update s.runs runID (some row)
    origin := Function.update s.origin runID trigger }

def updateRun (runID : Uuid) (f : CronJobRun → CronJobRun) : CronState :=
  { s with runs := Function.update s.runs runID ((s.runs runID).map f) }

def startRun (runID : Uuid) (now : ℤ) : CronState :=
  s.updateRun runID fun row => { row with startedAt := some now }

def finishRun (m : DueMessage) (status : RunStatus) : CronState :=
  { s.updateRun m.runID fun row => { row with status } with
    finishes := (m, status) :: s.finishes }

def pauseWorkflowRun (runID : Uuid) : CronState :=
  { s.updateRun runID fun row => { row with status := .waiting } with
    waiting := runID :: s.waiting }

/-- The second statement of `FinishRunWithRetry`. -/
def insertRetry (m : DueMessage) (newID : Uuid) (now : ℤ) : CronState :=
  { s.insertRun newID
      { tenantID := m.tenantID, jobID := m.jobID, attempt := m.attempt + 1,
        scheduledFor := now + backoffDelay m.retryBackoffSeconds m.attempt } (s.origin m.runID) with
    retries := (m, newID) :: s.retries }

end CronState

inductive CronEvent where
  /-- A job is created or edited. -/
  | setJob (jobID : Uuid) (job : CronJob)
  /-- A job fires, on its schedule or on an event. -/
  | fire (runID jobID : Uuid) (scheduledFor : ℤ) (trigger : Trigger)
  | claimRetry (runID : Uuid) (now clock : ℤ)
  /-- A delivery that is not skipped.  The status is unknown if the query for it fails. -/
  | check (m : DueMessage) (unknown : Bool)
  | start (m : DueMessage) (now : ℤ)
  /-- The chain of the run reaches a step that waits. -/
  | pause (m : DueMessage)
  | finish (m : DueMessage) (status : RunStatus)
  | insertRetry (m : DueMessage) (newID : Uuid) (now : ℤ)
  /-- An event resumes the chain of a run. -/
  | resume (runID : Uuid) (trigger : Trigger)
  /-- A process returns, gives up on a statement that fails, or dies. -/
  | leave (c : Worker)

/-- The steps of any number of tickers, listeners and executors. -/
inductive CronStep : CronState → CronEvent → CronState → Prop
  | setJob {s : CronState} {jobID : Uuid} {job : CronJob} :
      CronStep s (.setJob jobID job) { s with jobs := Function.update s.jobs jobID (some job) }
  | fire {s : CronState} {runID jobID : Uuid} {job : CronJob} {scheduledFor : ℤ} {trigger : Trigger}
      (hjob : s.jobs jobID = some job) (henabled : job.enabled = true)
      (hfresh : s.runs runID = none) :
      CronStep s (.fire runID jobID scheduledFor trigger)
        { s.insertRun runID { tenantID := job.tenantID, jobID, scheduledFor } trigger with
          messages := dispatchClaimed jobID job runID 1 trigger :: s.messages }
  | claimRetry {s : CronState} {runID : Uuid} {row : CronJobRun} {job : CronJob} {now clock : ℤ}
      (hrow : s.runs runID = some row) (hdue : row.dueRetry now = true)
      (hjob : s.jobs row.jobID = some job) (henabled : job.enabled = true) :
      CronStep s (.claimRetry runID now clock)
        { s.startRun runID clock with
          messages := dispatchClaimed row.jobID job runID row.attempt (none, none) :: s.messages }
  | check {s : CronState} {m : DueMessage} {unknown : Bool} (hmessage : m ∈ s.messages)
      (hopen : unknown = false → ∀ row, s.runs m.runID = some row → row.status.duplicate = false) :
      CronStep s (.check m unknown) { s with calls := ⟨.checked, m⟩ :: s.calls }
  | start {s : CronState} {m : DueMessage} {rest : List Worker} {now : ℤ}
      (hcall : s.calls.Perm (⟨.checked, m⟩ :: rest)) :
      CronStep s (.start m now) { s.startRun m.runID now with calls := ⟨.running, m⟩ :: rest }
  | pause {s : CronState} {m : DueMessage} {rest : List Worker}
      (hcall : s.calls.Perm (⟨.running, m⟩ :: rest)) :
      CronStep s (.pause m) { s.pauseWorkflowRun m.runID with calls := rest }
  | finish {s : CronState} {m : DueMessage} {rest : List Worker} {status : RunStatus}
      (hcall : s.calls.Perm (⟨.running, m⟩ :: rest))
      (hstatus : status = .success ∨ status = .failed) :
      CronStep s (.finish m status)
        { s.finishRun m status with calls := ⟨.finished status, m⟩ :: rest }
  | insertRetry {s : CronState} {m : DueMessage} {rest : List Worker} {newID : Uuid} {now : ℤ}
      (hcall : s.calls.Perm (⟨.finished .failed, m⟩ :: rest))
      (hattempts : m.attempt < m.maxAttempts) (hfresh : s.runs newID = none) :
      CronStep s (.insertRetry m newID now) { s.insertRetry m newID now with calls := rest }
  | resume {s : CronState} {runID : Uuid} {rest : List Uuid} {row : CronJobRun} {job : CronJob}
      {trigger : Trigger} (hwaiting : s.waiting.Perm (runID :: rest))
      (hrow : s.runs runID = some row) (hjob : s.jobs row.jobID = some job) :
      CronStep s (.resume runID trigger)
        { s with
          waiting := rest
          calls := ⟨.running, { dispatchClaimed row.jobID job runID row.attempt trigger with
            targetType := "steps" }⟩ :: s.calls }
  | leave {s : CronState} {c : Worker} {rest : List Worker}
      (hcall : s.calls.Perm (c :: rest)) : CronStep s (.leave c) { s with calls := rest }

def sampleJob : CronJob where
  tenantID := 1
  enabled := true
  targetType := "webhook"
  targetConfig := none
  maxAttempts := 2
  retryBackoffSeconds := 30

def sampleMessage (trigger : Trigger) : DueMessage := dispatchClaimed 1 sampleJob 2 1 trigger

section

variable {s t : CronState} {e : CronEvent} {es : List CronEvent}

/-! ## Runs finished once -/

/-- One for the run itself. -/
def on (runID id : Uuid) : ℕ := if id = runID then 1 else 0

/-- The status of a run tells deliveries that it is not to be executed. -/
def Told (runs : Uuid → Option CronJobRun) (runID : Uuid) : Prop :=
  ∃ row, runs runID = some row ∧ row.status.duplicate = true

section

variable {runs : Uuid → Option CronJobRun} {runID id : Uuid} {f : CronJobRun → CronJobRun}

theorem Told.insert {row : CronJobRun} (h : Told runs runID) (hfresh : runs id = none) :
    Told (Function.update runs id (some row)) runID := by
  obtain ⟨old, hold, hduplicate⟩ := h
  have hne : runID ≠ id := by
    rintro rfl
    simp [hold] at hfresh
  exact ⟨old, by simp [hne, hold], hduplicate⟩

theorem Told.update (h : Told runs runID)
    (hf : ∀ row, row.status.duplicate = true → (f row).status.duplicate = true) :
    Told (Function.update runs id ((runs id).map f)) runID := by
  obtain ⟨row, hrow, hduplicate⟩ := h
  by_cases hid : runID = id
  · subst hid
    exact ⟨f row, by simp [hrow], hf row hduplicate⟩
  · exact ⟨row, by simp [hid, hrow], hduplicate⟩

theorem told_update {n : ℕ} (hrow : runs id ≠ none) (h : 0 < n → Told runs runID)
    (hf : ∀ row, (f row).status.duplicate = true) (hpos : 0 < on runID id + n) :
    Told (Function.update runs id ((runs id).map f)) runID := by
  by_cases hid : id = runID
  · subst hid
    obtain ⟨row, hrow⟩ := Option.ne_none_iff_exists'.mp hrow
    exact ⟨f row, by simp [hrow], hf row⟩
  · exact (h (by simpa [on, hid] using hpos)).update fun row _ => hf row

end

/-- One for a process that executes the run and has not finished it. -/
def Worker.active (runID : Uuid) : Worker → ℕ
  | ⟨.finished _, _⟩ => 0
  | ⟨_, m⟩ => on runID m.runID

/-- One for a process that has finished the run. -/
def Worker.ending (runID : Uuid) : Worker → ℕ
  | ⟨.finished _, m⟩ => on runID m.runID
  | _ => 0

namespace CronState

variable (s) (runID : Uuid)

/-- How many processes execute the run, or wait to. -/
def active : ℕ := (s.calls.map (Worker.active runID)).sum + (s.waiting.map (on runID)).sum

/-- How often the run was finished. -/
def finished : ℕ := (s.finishes.map fun f => on runID f.1.runID).sum

/-- How many retries of the run were inserted. -/
def retried : ℕ := (s.retries.map fun r => on runID r.1.runID).sum

structure Once : Prop where
  finished_le : s.active runID + s.finished runID ≤ 1
  retried_le : (s.calls.map (Worker.ending runID)).sum + s.retried runID ≤ s.finished runID
  told : 0 < (s.waiting.map (on runID)).sum + s.finished runID → Told s.runs runID

/-- The runs of messages and executions exist. -/
def Known : Prop :=
  (∀ m ∈ s.messages, s.runs m.runID ≠ none) ∧ ∀ c ∈ s.calls, s.runs c.message.runID ≠ none

/-- A delivery reads the status, and no other process is at work on its run. -/
def Exclusive : CronEvent → Prop
  | .check m unknown => unknown = false ∧ s.active m.runID = 0
  | _ => True

end CronState

/-- A step in which no delivery overlaps another. -/
def ExclusiveStep (s : CronState) (e : CronEvent) (t : CronState) : Prop :=
  CronStep s e t ∧ s.Exclusive e

theorem ExclusiveStep.run (hrun : Run ExclusiveStep s es t) : Run CronStep s es t :=
  hrun.history (.nil _) fun _ _ _ _ ih hstep => ih.snoc hstep.1

open CronState

/-- Rows are never deleted, and keep their job and attempt. -/
theorem CronStep.keeps_row (hstep : CronStep s e t) {id : Uuid} {row : CronJobRun}
    (h : s.runs id = some row) :
    ∃ row', t.runs id = some row' ∧ row'.jobID = row.jobID ∧ row'.attempt = row.attempt := by
  have hinsert : ∀ {newID} new, s.runs newID = none →
      Function.update s.runs newID (some new) id = some row := by
    rintro newID new hfresh
    have hne : id ≠ newID := by
      rintro rfl
      simp [h] at hfresh
    rw [Function.update_of_ne hne, h]
  have hupdate : ∀ rid (f : CronJobRun → CronJobRun),
      Function.update s.runs rid ((s.runs rid).map f) id =
        some (if id = rid then f row else row) := by
    intro rid f
    by_cases hid : id = rid
    · subst hid
      simp [h]
    · simp [hid, h]
  cases hstep with
  | fire _ _ hfresh | insertRetry _ _ hfresh => exact ⟨row, hinsert _ hfresh, rfl, rfl⟩
  | claimRetry | start | pause | finish =>
    exact ⟨_, hupdate _ _, by split_ifs <;> rfl, by split_ifs <;> rfl⟩
  | _ => exact ⟨row, h, rfl, rfl⟩

theorem CronStep.runs_ne_none (hstep : CronStep s e t) {id : Uuid} (h : s.runs id ≠ none) :
    t.runs id ≠ none := by
  obtain ⟨row, hrow⟩ := Option.ne_none_iff_exists'.mp h
  obtain ⟨row', hrow', -⟩ := hstep.keeps_row hrow
  simp [hrow']

theorem CronStep.known (hstep : CronStep s e t) (h : s.Known) : t.Known := by
  have hmessages : ∀ m ∈ s.messages, t.runs m.runID ≠ none :=
    fun m hm => hstep.runs_ne_none (h.1 m hm)
  have hcalls : ∀ c ∈ s.calls, t.runs c.message.runID ≠ none :=
    fun c hc => hstep.runs_ne_none (h.2 c hc)
  cases hstep with
  | setJob => exact h
  | fire =>
    exact ⟨List.forall_mem_cons.mpr ⟨by simp [insertRun, dispatchClaimed], hmessages⟩, hcalls⟩
  | claimRetry hrow =>
    exact ⟨List.forall_mem_cons.mpr ⟨by simp [startRun, updateRun, dispatchClaimed, hrow],
      hmessages⟩, hcalls⟩
  | check hmessage => exact ⟨hmessages, List.forall_mem_cons.mpr ⟨hmessages _ hmessage, hcalls⟩⟩
  | resume hwaiting hrow hjob =>
    exact ⟨hmessages, List.forall_mem_cons.mpr ⟨by simp [dispatchClaimed, hrow], hcalls⟩⟩
  | start hcall | finish hcall =>
    obtain ⟨hm, hrest⟩ := List.forall_mem_cons.mp fun c hc => hcalls c (hcall.mem_iff.mpr hc)
    exact ⟨hmessages, List.forall_mem_cons.mpr ⟨hm, hrest⟩⟩
  | pause hcall | insertRetry hcall | leave hcall =>
    exact ⟨hmessages, fun c hc => hcalls c (hcall.mem_iff.mpr (List.mem_cons_of_mem _ hc))⟩

theorem sum_of_perm {α : Type} {l rest : List α} {a : α} (h : l.Perm (a :: rest)) (f : α → ℕ) :
    (l.map f).sum = f a + (rest.map f).sum :=
  (h.map f).sum_eq

theorem CronStep.once (hstep : CronStep s e t) (hexclusive : s.Exclusive e) (hknown : s.Known)
    {runID : Uuid} (h : s.Once runID) : t.Once runID := by
  obtain ⟨hfinished, hretried, htold⟩ := h
  simp only [active, finished, retried] at hfinished hretried htold
  have hrow : ∀ {c rest}, s.calls.Perm (c :: rest) → s.runs c.message.runID ≠ none :=
    fun hcall => hknown.2 _ (hcall.mem_iff.mpr List.mem_cons_self)
  cases hstep with
  | setJob => exact ⟨hfinished, hretried, htold⟩
  | fire hjob henabled hfresh =>
    exact ⟨hfinished, hretried, fun h => (htold h).insert hfresh⟩
  | claimRetry => exact ⟨hfinished, hretried, fun h => (htold h).update fun _ => id⟩
  | @check m unknown hmessage hopen =>
    obtain ⟨hread, hfree⟩ := hexclusive
    refine ⟨?_, ?_, htold⟩ <;>
      simp only [active, finished, retried, List.map_cons, List.sum_cons, Worker.active,
        Worker.ending] at *
    · by_cases hm : m.runID = runID
      · subst hm
        have hzero := mt htold fun ⟨row, hrow, hduplicate⟩ => by
          simp [hopen hread row hrow] at hduplicate
        simp only [on, if_true] at *
        omega
      · simpa [on, hm] using hfinished
    · omega
  | start hcall =>
    rw [sum_of_perm hcall] at hfinished hretried
    exact ⟨hfinished, hretried, fun h => (htold h).update fun _ => id⟩
  | pause hcall =>
    rw [sum_of_perm hcall] at hfinished hretried
    refine ⟨?_, ?_, fun h => told_update (hrow hcall) htold (fun _ => rfl) ?_⟩ <;>
      simp only [active, finished, retried, pauseWorkflowRun, updateRun, List.map_cons,
        List.sum_cons, Worker.active, Worker.ending] at * <;> omega
  | @finish m rest status hcall hstatus =>
    have hf : status.duplicate = true := by rcases hstatus with rfl | rfl <;> rfl
    rw [sum_of_perm hcall] at hfinished hretried
    refine ⟨?_, ?_, fun h => told_update (hrow hcall) htold (fun _ => hf) ?_⟩ <;>
      simp only [active, finished, retried, finishRun, updateRun, List.map_cons, List.sum_cons,
        Worker.active, Worker.ending] at * <;> omega
  | insertRetry hcall hattempts hfresh =>
    rw [sum_of_perm hcall] at hfinished hretried
    refine ⟨?_, ?_, fun h => (htold h).insert hfresh⟩ <;>
      simp only [active, finished, retried, CronState.insertRetry, insertRun, List.map_cons,
        List.sum_cons, Worker.active, Worker.ending] at * <;> omega
  | resume hwaiting hrow hjob =>
    rw [sum_of_perm hwaiting] at hfinished htold
    refine ⟨?_, ?_, fun h => htold ?_⟩ <;>
      simp only [active, finished, retried, List.map_cons, List.sum_cons, Worker.active,
        Worker.ending, dispatchClaimed] at * <;> omega
  | leave hcall =>
    rw [sum_of_perm hcall] at hfinished hretried
    refine ⟨?_, ?_, htold⟩ <;> simp only [active, finished, retried] <;> omega

/-- A run is finished and retried at most once, if each of its deliveries reads the status while no
other process executes the run. -/
theorem finished_once (hrun : Run ExclusiveStep {} es s)
    (runID : Uuid) : s.finished runID ≤ 1 ∧ s.retried runID ≤ 1 := by
  have h : s.Known ∧ s.Once runID := by
    refine hrun.invariant (C := fun _ => True) (I := fun s => s.Known ∧ s.Once runID) ?_ (by simp)
      ⟨by simp [Known], by simp [active, finished], by simp [retried, finished], by simp [finished]⟩
    rintro s e t - ⟨hstep, hexclusive⟩ ⟨hknown, honce⟩
    exact ⟨hstep.known hknown, hstep.once hexclusive hknown honce⟩
  obtain ⟨-, hfinished, hretried, -⟩ := h
  omega

/-- The first attempt of a job fails, whatever triggered it. -/
theorem run_failed (trigger : Trigger) : ∃ es s, Run ExclusiveStep {} es s ∧ (∀ c, .leave c ∉ es) ∧
      s.calls = [⟨.finished .failed, sampleMessage trigger⟩] ∧
      s.finishes = [(sampleMessage trigger, .failed)] ∧ s.retries = [] ∧ s.runs 3 = none ∧
      s.jobs 1 = some sampleJob ∧ s.origin 2 = trigger := by
  refine ⟨_, _, .snoc (.snoc (.snoc (.snoc (.snoc (.nil _)
    ⟨(.setJob : CronStep _ (.setJob 1 sampleJob) _), trivial⟩)
    ⟨(.fire rfl rfl rfl : CronStep _ (.fire 2 1 0 trigger) _), trivial⟩)
    ⟨(.check List.mem_cons_self ?_ : CronStep _ (.check _ false) _), rfl, rfl⟩)
    ⟨(.start .rfl : CronStep _ (.start _ 0) _), trivial⟩)
    ⟨.finish .rfl (.inr rfl), trivial⟩, by simp, rfl, rfl, rfl, rfl, rfl, rfl⟩
  rintro - row hrow
  cases hrow
  rfl

theorem sample_finished_once :
    ∃ es s, Run ExclusiveStep {} es s ∧ s.finished 2 = 1 ∧ s.retried 2 ≤ 1 := by
  obtain ⟨es, s, hrun, -, -, hfinishes, -⟩ := run_failed (none, none)
  exact ⟨es, s, hrun, by rw [finished, hfinishes]; rfl, (finished_once hrun 2).2⟩

/-- Two deliveries of one message overlap. -/
theorem overlapping_deliveries_retry_twice :
    ∃ es s, Run CronStep {} es s ∧ s.finished 2 = 2 ∧ s.retried 2 = 2 := by
  have hopen : ∀ row : CronJobRun,
      some { tenantID := 1, jobID := 1, scheduledFor := 0 } = some row →
        row.status.duplicate = false := by
    rintro row hrow
    cases hrow
    rfl
  exact ⟨_, _, .snoc (.snoc (.snoc (.snoc (.snoc (.snoc (.snoc (.snoc (.snoc (.snoc (.nil _)
    (.setJob : CronStep _ (.setJob 1 sampleJob) _))
    (.fire rfl rfl rfl : CronStep _ (.fire 2 1 0 (none, none)) _))
    (.check List.mem_cons_self fun _ => hopen : CronStep _ (.check _ false) _))
    (.check List.mem_cons_self fun _ => hopen : CronStep _ (.check _ false) _))
    (.start .rfl : CronStep _ (.start _ 0) _)) (.finish .rfl (.inr rfl)))
    (.start (.swap ..) : CronStep _ (.start _ 0) _)) (.finish .rfl (.inr rfl)))
    (.insertRetry .rfl (by decide) rfl : CronStep _ (.insertRetry _ 3 0) _))
    (.insertRetry .rfl (by decide) rfl : CronStep _ (.insertRetry _ 4 0) _), rfl, rfl⟩

/-! ## Triggers of retries -/

/-- The messages of later attempts carry no trigger. -/
theorem CronStep.untriggered (hstep : CronStep s e t)
    (h : ∀ m ∈ s.messages, 1 < m.attempt → m.trigger = (none, none)) :
    ∀ m ∈ t.messages, 1 < m.attempt → m.trigger = (none, none) := by
  cases hstep with
  | fire => exact List.forall_mem_cons.mpr ⟨fun hlt => absurd hlt (lt_irrefl 1), h⟩
  | claimRetry => exact List.forall_mem_cons.mpr ⟨fun _ => rfl, h⟩
  | _ => exact h

theorem untriggered_of_run (hrun : Run CronStep {} es s) :
    ∀ m ∈ s.messages, 1 < m.attempt → m.trigger = (none, none) :=
  hrun.invariant (C := fun _ => True) (fun _ _ _ _ hstep h => hstep.untriggered h) (by simp)
    (by simp)

/-- A claimed retry is dispatched with the trigger of its first attempt exactly when that attempt
had none. -/
theorem retry_trigger_iff (hrun : Run CronStep {} es s) {m : DueMessage} (hm : m ∈ s.messages)
    (hretry : 1 < m.attempt) : m.trigger = s.origin m.runID ↔ s.origin m.runID = (none, none) := by
  rw [untriggered_of_run hrun m hm hretry]
  exact eq_comm

/-- The second attempt of a job is claimed, whatever triggered the first. -/
theorem run_retried (trigger : Trigger) :
    ∃ es s m, Run CronStep {} es s ∧ m ∈ s.messages ∧ 1 < m.attempt ∧
      s.origin m.runID = trigger := by
  obtain ⟨es, s, hrun, -, hcalls, -, -, hfresh, hjob, horigin⟩ := run_failed trigger
  have hattempts : (sampleMessage trigger).attempt < (sampleMessage trigger).maxAttempts := by
    norm_num [sampleMessage, dispatchClaimed, sampleJob]
  have hretry : CronStep s (.insertRetry (sampleMessage trigger) 3 0) _ :=
    .insertRetry (by rw [hcalls]) hattempts hfresh
  refine ⟨_, _, _, .snoc (.snoc (ExclusiveStep.run hrun) hretry) (@CronStep.claimRetry _ 3
    { tenantID := 1, jobID := 1, attempt := 2, scheduledFor := 0 + backoffDelay 30 1 } sampleJob
    (10 ^ 12) 0 ?_ (by decide) hjob rfl), List.mem_cons_self, by decide, ?_⟩
  · simp [CronState.insertRetry, CronState.insertRun, sampleMessage, dispatchClaimed, sampleJob]
  · change Function.update s.origin 3 (s.origin 2) 3 = trigger
    rw [Function.update_self, horigin]

theorem retry_loses_trigger :
    ∃ es s m, Run CronStep {} es s ∧ m ∈ s.messages ∧ 1 < m.attempt ∧
      s.origin m.runID = (some "app.invoice", some 7) ∧ m.trigger ≠ s.origin m.runID := by
  obtain ⟨es, s, m, hrun, hm, hattempt, horigin⟩ := run_retried (some "app.invoice", some 7)
  refine ⟨es, s, m, hrun, hm, hattempt, horigin, ?_⟩
  rw [untriggered_of_run hrun m hm hattempt, horigin]
  decide

theorem untriggered_retry_keeps_trigger :
    ∃ es s m, Run CronStep {} es s ∧ m ∈ s.messages ∧ 1 < m.attempt ∧
      m.trigger = s.origin m.runID := by
  obtain ⟨es, s, m, hrun, hm, hattempt, horigin⟩ := run_retried (none, none)
  exact ⟨es, s, m, hrun, hm, hattempt, (retry_trigger_iff hrun hm hattempt).mpr horigin⟩

/-! ## Retries inserted -/

/-- The retry of a failed attempt is in the run history. -/
def CronState.Retried (s : CronState) (m : DueMessage) : Prop :=
  ∃ newID row, (m, newID) ∈ s.retries ∧ s.runs newID = some row ∧ row.jobID = m.jobID ∧
    row.attempt = m.attempt + 1

/-- A failed attempt that is not the last has its retry, or a process is about to insert it. -/
def CronState.RetryDue (s : CronState) : Prop :=
  ∀ m, (m, .failed) ∈ s.finishes → m.attempt < m.maxAttempts →
    ⟨.finished .failed, m⟩ ∈ s.calls ∨ s.Retried m

theorem CronStep.retried (hstep : CronStep s e t) {m : DueMessage} (h : s.Retried m) :
    t.Retried m := by
  obtain ⟨newID, row, hmem, hrow, hjob, hattempt⟩ := h
  obtain ⟨row', hrow', hjob', hattempt'⟩ := hstep.keeps_row hrow
  have hmem' : (m, newID) ∈ t.retries := by
    cases hstep with
    | insertRetry => exact List.mem_cons_of_mem _ hmem
    | _ => exact hmem
  exact ⟨newID, row', hmem', hrow', hjob'.trans hjob, hattempt'.trans hattempt⟩

theorem CronStep.retryDue (hstep : CronStep s e t)
    (hleave : ∀ m, m.attempt < m.maxAttempts → e ≠ .leave ⟨.finished .failed, m⟩)
    (h : s.RetryDue) : t.RetryDue := by
  intro m hmem hattempts
  have hstays : (m, .failed) ∈ s.finishes → ⟨.finished .failed, m⟩ ∈ s.calls ∨ t.Retried m :=
    fun hold => (h m hold hattempts).imp_right hstep.retried
  -- the step is taken by another process
  have hother : ∀ {c rest}, s.calls.Perm (c :: rest) → c ≠ ⟨.finished .failed, m⟩ →
      (m, .failed) ∈ s.finishes → ⟨.finished .failed, m⟩ ∈ rest ∨ t.Retried m :=
    fun hcall hne hold => (hstays hold).imp_left fun hc =>
      List.mem_of_ne_of_mem hne.symm (hcall.mem_iff.mp hc)
  cases hstep with
  | check | resume => exact (hstays hmem).imp_left (List.mem_cons_of_mem _)
  | start hcall => exact (hother hcall (by simp) hmem).imp_left (List.mem_cons_of_mem _)
  | pause hcall => exact hother hcall (by simp) hmem
  | finish hcall hstatus =>
    rcases List.mem_cons.mp hmem with hnew | hold
    · cases hnew
      exact .inl List.mem_cons_self
    · exact (hother hcall (by simp) hold).imp_left (List.mem_cons_of_mem _)
  | @insertRetry m' rest newID now hcall _ hfresh =>
    by_cases hm : m' = m
    · subst hm
      exact .inr ⟨newID, _, List.mem_cons_self, Function.update_self .., rfl, rfl⟩
    · exact hother hcall (by simp [hm]) hmem
  | leave hcall => exact hother hcall (fun hc => hleave m hattempts (by rw [hc])) hmem
  | _ => exact hstays hmem

/-- A failed attempt that is not the last has its retry once no process is left at work, if none
of them left between finishing a run and inserting its retry. -/
theorem retry_inserted (hrun : Run CronStep {} es s)
    (hleave : ∀ m, m.attempt < m.maxAttempts → .leave ⟨.finished .failed, m⟩ ∉ es)
    (hidle : s.calls = []) {m : DueMessage} (hfailed : (m, .failed) ∈ s.finishes)
    (hattempts : m.attempt < m.maxAttempts) : s.Retried m := by
  have hdue : s.RetryDue :=
    hrun.invariant (fun _ _ _ hC hstep h => hstep.retryDue hC h)
      (fun e he m hm heq => hleave m hm (heq ▸ he)) fun m hm => absurd hm (List.not_mem_nil)
  rcases hdue m hfailed hattempts with hcall | hretried
  · simp [hidle] at hcall
  · exact hretried

theorem crash_loses_retry :
    ∃ es s m, Run CronStep {} es s ∧ s.calls = [] ∧ (m, .failed) ∈ s.finishes ∧
      m.attempt < m.maxAttempts ∧ s.retries = [] := by
  obtain ⟨es, s, hrun, -, hcalls, hfinishes, hretries, -⟩ := run_failed (none, none)
  refine ⟨_, _, sampleMessage (none, none),
    .snoc (ExclusiveStep.run hrun) (.leave (by rw [hcalls])), rfl, ?_, ?_, hretries⟩
  · exact hfinishes ▸ List.mem_cons_self
  · decide

theorem sample_retry_inserted :
    ∃ es s, Run CronStep {} es s ∧ s.calls = [] ∧ s.Retried (sampleMessage (none, none)) := by
  obtain ⟨es, s, hrun, hleave, hcalls, hfinishes, -, hfresh, -⟩ := run_failed (none, none)
  have hretry : CronStep s (.insertRetry (sampleMessage (none, none)) 3 0) _ :=
    .insertRetry (by rw [hcalls]) (by decide) hfresh
  have hrun' := (ExclusiveStep.run hrun).snoc hretry
  refine ⟨_, _, hrun', rfl, retry_inserted hrun' ?_ rfl ?_ (by decide)⟩
  · simp [hleave]
  · exact hfinishes ▸ List.mem_cons_self

end

/-! ## Backoff -/

/-- The seconds a retry is meant to wait. -/
def backoffSeconds (retryBackoffSeconds attempt : ℤ) : ℤ :=
  retryBackoffSeconds * 2 ^ (min (attempt - 1) 30).toNat

section

variable {seconds a b : ℤ}

theorem backoffSeconds_mono (hs : 0 ≤ seconds) (hab : a ≤ b) :
    backoffSeconds seconds a ≤ backoffSeconds seconds b := by
  refine mul_le_mul_of_nonneg_left (pow_le_pow_right₀ (by decide) ?_) hs
  omega

theorem backoffSeconds_lt (hs : seconds < 2 ^ 31) : backoffSeconds seconds a < 2 ^ 61 := by
  have hpow : (2 : ℤ) ^ (min (a - 1) 30).toNat ≤ 2 ^ 30 :=
    pow_le_pow_right₀ (by decide) (by omega)
  have hpos : (0 : ℤ) < 2 ^ (min (a - 1) 30).toNat := by positivity
  unfold backoffSeconds
  nlinarith

/-- A count is kept in 64 bits if it fits. -/
theorem bmod_eq_iff (ha : 0 ≤ a) : Int.bmod a (2 ^ 64) = a ↔ a < 2 ^ 63 := by
  constructor
  · intro h
    have hlt := @Int.bmod_lt a (2 ^ 64) (by decide)
    omega
  · intro h
    rw [Int.bmod_eq_of_le] <;> omega

/-- The shift is exact; the conversion to nanoseconds is up to `9223372036` seconds. -/
theorem backoffDelay_exact_iff (hs : 0 ≤ seconds) (hs' : seconds < 2 ^ 31) (ha : 1 ≤ a) :
    Int.bmod (backoffSeconds seconds a) (2 ^ 64) = backoffSeconds seconds a ∧
    (backoffDelay seconds a = backoffSeconds seconds a * 10 ^ 9 ↔
      backoffSeconds seconds a ≤ 9223372036) ∧
    (backoffSeconds seconds a ≤ 9223372036 → ∀ b, 1 ≤ b → b ≤ a →
      0 ≤ backoffDelay seconds b ∧ backoffDelay seconds b ≤ backoffDelay seconds a) := by
  have hnonneg : ∀ b, 0 ≤ backoffSeconds seconds b := fun b => mul_nonneg hs (by positivity)
  have hexact : ∀ b, 1 ≤ b → (backoffDelay seconds b = backoffSeconds seconds b * 10 ^ 9 ↔
      backoffSeconds seconds b ≤ 9223372036) := by
    intro b hb
    have hb' := hnonneg b
    rw [backoffDelay, if_neg (by omega), max_eq_left (by omega), ← backoffSeconds,
      bmod_eq_iff (by omega)]
    omega
  have hshift := @backoffSeconds_lt _ a hs'
  refine ⟨(bmod_eq_iff (hnonneg a)).mpr (by omega), hexact a ha, ?_⟩
  intro hfits b hb hba
  have hmono := backoffSeconds_mono hs hba
  have hb' := hnonneg b
  rw [(hexact b hb).mpr (hmono.trans hfits), (hexact a ha).mpr hfits]
  omega

theorem backoffDelay_exact_five : backoffDelay 30 5 = backoffSeconds 30 5 * 10 ^ 9 :=
  (@backoffDelay_exact_iff 30 5 (by decide) (by decide) (by decide)).2.1.mpr (by decide)

/-- An hour, doubled 22 times. -/
theorem backoffDelay_overflows :
    backoffDelay 3600 23 ≠ backoffSeconds 3600 23 * 10 ^ 9 ∧ backoffDelay 3600 23 < 0 := by
  decide

end

end Metap.Cron
