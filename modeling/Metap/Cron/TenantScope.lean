import Metap.Cron.Executor

/-!
# Whose records a job touches

A job belongs to a tenant, and its firing reaches records through the record service.  The service
scopes every call to the tenant of the token it is called with.  The executor always presents its
own token, so every row that a firing reads or replaces belongs to the tenant of the executor's
service account, whatever the job, its target and its configuration are
(`tenant_of_touched`).

Nothing compares that tenant with the job's.  A firing stays inside the tenant of its job if and
only if the account belongs to it or no row is touched at all
(`touched_own_tenant_iff`); a job of another tenant moves the records of the account's tenant
(`foreign_job_moves_record`).
-/

namespace Metap.Cron

open Crud Grpc Logged Builder

/-- The tenant that the token at hand names, when it verifies. -/
def tokenTenant (up : Upstream) (now : ℤ) (token : TokenText) : Option Uuid :=
  (decodeAccessToken now up.leeway token).bind fun claims => up.svc.codec.parse claims.tenantID

/-- Every token of the executor is its service account's, in the tenant `home`. -/
def AccountOf (home : Uuid) (up : Upstream) : Prop :=
  ∀ n t, tokenTenant up (up.moment n).now (up.moment n).token = some t → t = home

/-- An entry that touches no row outside a tenant. -/
def WithinTenant (home : Uuid) (entry : Trace) : Prop :=
  ∀ row ∈ entry.row?, row.tenantID = home

/-- The rows a firing reads or replaces. -/
def touched (config : ExecutorConfig) (firing : Firing) (w : World) : List StoredRecord :=
  (firing.run config w).log.filterMap Trace.row?

/-! ## One call -/

section

variable {up : Upstream} {home : Uuid} {token : TokenText}

/-- A call is scoped to the tenant its token names. -/
theorem tokenTenant_of_authenticate {now : ℤ} {rc : RequestContext}
    (h : Grpc.authenticate up now token = .ok rc) {tenantID : Uuid}
    (hscope : scopedTenant up.svc.codec rc = .ok tenantID) :
    tokenTenant up now token = some tenantID := by
  have hparse : up.svc.codec.parse rc.tenantID = some tenantID :=
    Query.scopedTenant_eq_ok (scopedTenant_eq_ok.mp hscope)
  unfold Grpc.authenticate at h
  split at h
  · cases h
  split at h
  · cases h
  next claims hclaims =>
  split at h
  next t userID ht _ =>
    -- the context names the tenant of the claims, with or without a grant
    have hrc : rc.tenantID = up.svc.codec.format t := by
      cases hcaller : up.directory t userID with
      | none => simp [resolveRequestContext, hcaller] at h
      | some caller =>
        simp only [resolveRequestContext, hcaller, Option.bind_eq_bind, Option.bind_some,
          Option.pure_def] at h
        split at h
        · cases h
          rfl
        · cases h
          rfl
    rw [hrc, UuidCodec.parse_format] at hparse
    cases hparse
    rw [tokenTenant, hclaims]
    exact ht
  · cases h

theorem withinTenant_map_read {rows : List StoredRecord} (h : ∀ row ∈ rows, row.tenantID = home) :
    ∀ entry ∈ rows.map Trace.read, WithinTenant home entry := by
  intro entry hentry row hrow
  obtain ⟨row', hrow', rfl⟩ := List.mem_map.mp hentry
  cases hrow
  exact h _ hrow'

variable {store : Store}

theorem tenant_of_relatedRows {svc : Service} {o : Opened}
    {actions : List EntityAction} {record : JsonObject} :
    ∀ row ∈ relatedRows svc store o actions record, row.tenantID = o.tenantID := by
  intro row hrow
  obtain ⟨fieldName, -, hfetch⟩ := List.mem_filterMap.mp hrow
  obtain ⟨target, -, hfetch⟩ := Option.bind_eq_some_iff.mp hfetch
  exact (fetchExisting_eq_some.mp hfetch).2.1

theorem tenant_of_displayedRows {svc : Service} {o : Opened} {records : List RecordDto} :
    ∀ row ∈ displayedRows svc store o records, row.tenantID = o.tenantID := by
  intro row hrow
  obtain ⟨record, -, hrow⟩ := List.mem_flatMap.mp hrow
  obtain ⟨field, -, hfetch⟩ := List.mem_filterMap.mp hrow
  obtain ⟨id, -, hfetch⟩ := Option.bind_eq_some_iff.mp hfetch
  exact tenant_of_fetchDisplayed hfetch

variable {P : Trace → Prop} {m : Moment}

/-- The rule of sequencing after an answer of the service. -/
theorem emits_serviced_bind {α β : Type} {x : Except ServiceError α}
    {f : α → Logged World Trace RpcStatus β} (hf : ∀ a, x = .ok a → Emits P (f a)) :
    Emits P (serviced x >>= f) := by
  refine emits_ofExcept_bind fun a ha => hf a ?_
  cases x with
  | error e => cases ha
  | ok b =>
    cases ha
    rfl

theorem tenant_of_transitionReads {o : Opened} {call : Call} :
    ∀ row ∈ transitionReads up store o call, row.tenantID = o.tenantID := by
  intro row hrow
  unfold transitionReads at hrow
  split at hrow
  · split at hrow
    next existing hfetch =>
      rcases List.mem_cons.mp hrow with rfl | hrelated
      · exact (fetchExisting_eq_some.mp hfetch).2.1
      · exact tenant_of_relatedRows row hrelated
    · cases hrow
  · cases hrow

/-- A call of the executor, at whatever moment it is made. -/
theorem emits_tick_bind {α ε : Type} {f : Moment → Logged World Trace ε α}
    (hf : ∀ n, Emits P (f (up.moment n))) : Emits P (tick up >>= f) := by
  refine emits_bind' (fun s w hw => by cases hw) fun s m hm => ?_
  cases hm
  exact hf s.calls

variable (htoken : ∀ t, tokenTenant up m.now token = some t → t = home) (entityName : String)

include htoken

theorem serveList_within (input : Query.ListInput) :
    Emits (WithinTenant home) (serveList up m token entityName input) := by
  refine emits_ofExcept_bind fun rc hrc => ?_
  refine emits_bind (emits_ofExcept _) fun _ => ?_
  refine emits_bind emits_state fun w => ?_
  refine emits_serviced_bind fun o ho => ?_
  obtain ⟨hscope, -, hctx⟩ := openEntity_eq_ok (openForRead_eq_ok ho).1
  have hhome : o.tenantID = home := htoken _ (tokenTenant_of_authenticate hrc hscope)
  have hrcCtx : o.ctx.rc = rc := by
    rw [hctx]
    rfl
  refine emits_serviced_bind fun planned hplanned => ?_
  refine emits_serviced_bind fun rows hrows => ?_
  have hpage : ∀ row ∈ rows, row.tenantID = home := by
    intro row hrow
    rw [← hhome]
    rw [← hrcCtx] at hscope
    exact tenant_of_fetchPage hscope hplanned hrows hrow
  have hdisplayed : ∀ row ∈ displayedRows up.svc w.store o (maskedPage o planned rows),
      row.tenantID = home := by
    intro row hrow
    rw [← hhome]
    exact tenant_of_displayedRows row hrow
  refine emits_bind (emits_emit (withinTenant_map_read hpage)) fun _ => ?_
  refine emits_bind (emits_emit (withinTenant_map_read hdisplayed)) fun _ => ?_
  exact emits_pure _

theorem serveGet_within (id : Uuid) :
    Emits (WithinTenant home) (serveGet up m token entityName id) := by
  refine emits_ofExcept_bind fun rc hrc => ?_
  refine emits_bind emits_state fun w => ?_
  refine emits_serviced_bind fun found hfound => ?_
  obtain ⟨o, existing, actors⟩ := found
  obtain ⟨-, hscope, hfetch, -⟩ := findRecord_eq_ok hfound
  have htenant := (fetchExisting_eq_some.mp hfetch).2.1
  have hhome : o.tenantID = home := htoken _ (tokenTenant_of_authenticate hrc hscope)
  have hrows : ∀ row ∈ existing :: relatedRows up.svc w.store o getActions existing.data,
      row.tenantID = home := by
    intro row hrow
    rw [← hhome]
    rcases List.mem_cons.mp hrow with rfl | hrelated
    · exact htenant
    · exact tenant_of_relatedRows row hrelated
  refine emits_bind (emits_emit (withinTenant_map_read hrows)) fun _ => ?_
  exact emits_ofExcept _

theorem serveTransition_within (id : Uuid) (action : String) (expectedVersion : ℤ)
    (payload : Option JsonObject) : Emits (WithinTenant home)
      (serveTransition up m token entityName id action expectedVersion payload) := by
  refine emits_ofExcept_bind fun rc hrc => ?_
  refine emits_bind emits_state fun w => ?_
  refine emits_serviced_bind fun o ho => ?_
  obtain ⟨hscope, -, hctx⟩ := openEntity_eq_ok ho
  have hhome : o.tenantID = home := htoken _ (tokenTenant_of_authenticate hrc hscope)
  have hreads : ∀ call : Call, ∀ row ∈ transitionReads up w.store o call,
      row.tenantID = home := by
    intro call row hrow
    rw [← hhome]
    exact tenant_of_transitionReads row hrow
  refine emits_bind (emits_emit (withinTenant_map_read (hreads _))) fun _ => ?_
  refine emits_serviced_bind fun p hp => ?_
  obtain ⟨-, hscope', -, -, -⟩ := load_eq_ok hp
  have hpending : p.tenantID = home := by
    have hrcCtx : o.ctx.rc = rc := by
      rw [hctx]
      rfl
    rw [hrcCtx] at hscope'
    exact htoken _ (tokenTenant_of_authenticate hrc hscope')
  refine emits_bind (emits_modify _) fun _ => ?_
  refine emits_bind emits_state fun w' => ?_
  refine emits_serviced_bind fun written hwritten => ?_
  obtain ⟨write, db⟩ := written
  obtain ⟨-, ⟨hreplaced, -⟩, -⟩ := commit_eq_ok hwritten
  have hrow : WithinTenant home (.replaced write.replaced) := by
    intro row hrow
    cases hrow
    exact hreplaced.trans hpending
  refine emits_bind (emits_emit ?_) fun _ => ?_
  · intro entry hentry
    rw [List.mem_singleton.mp hentry]
    exact hrow
  · exact emits_bind (emits_modify _) fun _ => emits_pure _

end

/-! ## One firing -/

section

variable {config : ExecutorConfig} {home : Uuid}
  (haccount : ∀ up ∈ config.targetGRPCBackend, AccountOf home up)

theorem mem_of_targetBackend {up : Upstream} (h : targetBackend config = .ok up) :
    up ∈ config.targetGRPCBackend := by
  unfold targetBackend at h
  split at h
  next backend hbackend =>
    cases h
    exact hbackend
  · cases h

theorem runExternal_within (x : Except String Json) : Emits (WithinTenant home) (runExternal x) :=
  emits_bind (emits_ofExcept _) fun _ => emits_pure _

include haccount

theorem transitionOne_within (entity : String) (recordID : Uuid) (action : String) :
    Emits (WithinTenant home) (transitionOne config entity recordID action) := by
  refine emits_bind (emits_emit ?_) fun _ => ?_
  · intro entry hentry row hrow
    rw [List.mem_singleton.mp hentry] at hrow
    cases hrow
  refine emits_ofExcept_bind fun up hup => ?_
  have hhome : AccountOf home up := haccount up (mem_of_targetBackend hup)
  refine emits_bind (emits_mapError ?_) fun got => emits_mapError ?_
  · exact emits_tick_bind fun n => emits_mapError (serveGet_within (hhome n) _ _)
  · exact emits_tick_bind fun n => emits_mapError (serveTransition_within (hhome n) _ _ _ _ _)

theorem runWorkflowTransition_within (targetConfig : Option Json) :
    Emits (WithinTenant home) (runWorkflowTransition config targetConfig) :=
  emits_bind (emits_ofExcept _) fun _ =>
    emits_bind (transitionOne_within haccount _ _ _) fun _ => emits_pure _

theorem runBulkQueryAction_within (targetConfig : Option Json) :
    Emits (WithinTenant home) (runBulkQueryAction config targetConfig) := by
  refine emits_bind (emits_ofExcept _) fun cfg => ?_
  refine emits_ofExcept_bind fun up hup => ?_
  have hhome : AccountOf home up := haccount up (mem_of_targetBackend hup)
  refine emits_bind (emits_mapError ?_) fun page => ?_
  · exact emits_tick_bind fun n => emits_mapError (serveList_within (hhome n) _ _)
  refine emits_bind (emits_forEach (fun record => ?_) _) fun _ => emits_pure _
  exact emits_bind (emits_attempt (transitionOne_within haccount _ _ _)) fun _ => emits_pure _

theorem runOneStep_within (chain : CronJobDuePayload) (step : Activity) :
    Emits (WithinTenant home) (runOneStep config chain step) := by
  unfold runOneStep
  split
  · exact runWorkflowTransition_within haccount _
  · exact runBulkQueryAction_within haccount _
  · exact runExternal_within _
  · exact runExternal_within _
  · exact emits_ofExcept _
  · exact emits_ofExcept _
  · exact emits_ofExcept _

/-- By induction on the steps that are left. -/
theorem runStepRange_within (chain : CronJobDuePayload) (stepIndex : ℕ) (steps : List Activity)
    (results : List Summary) :
    Emits (WithinTenant home) (runStepRange config chain stepIndex steps results) := by
  induction steps generalizing stepIndex results with
  | nil => exact emits_pure _
  | cons step rest ih =>
    unfold runStepRange
    split
    · split
      · exact emits_pure _
      · exact emits_ofExcept _
    · exact emits_bind (emits_mapError (runOneStep_within haccount _ _)) fun _ => ih _ _

theorem dispatch_within (payload : CronJobDuePayload) :
    Emits (WithinTenant home) (dispatch config payload) := by
  unfold dispatch
  split
  · exact emits_bind (runWorkflowTransition_within haccount _) fun _ => emits_pure _
  · exact emits_bind (runBulkQueryAction_within haccount _) fun _ => emits_pure _
  · exact emits_bind (runExternal_within _) fun _ => emits_pure _
  · exact emits_bind (runExternal_within _) fun _ => emits_pure _
  · refine emits_bind (emits_ofExcept _) fun steps => ?_
    split
    · exact emits_ofExcept _
    · exact runStepRange_within haccount _ _ _ _
  · exact emits_ofExcept _
  · exact emits_ofExcept _

theorem run_within (firing : Firing) : Emits (WithinTenant home) (firing.run config) := by
  cases firing with
  | due status payload =>
    change Emits (WithinTenant home) (execute config status payload)
    unfold execute
    split
    · exact emits_pure _
    · exact emits_pure _
    · exact emits_pure _
    · exact emits_bind (emits_attempt (dispatch_within haccount _)) fun _ => emits_pure _
  | resumed payload resumeFromStepIndex =>
    refine emits_bind (emits_attempt (emits_bind (emits_ofExcept _) fun steps => ?_))
      fun _ => emits_pure _
    split
    · exact emits_ofExcept _
    · exact runStepRange_within haccount _ _ _ _

/-- Every row a firing touches belongs to the tenant of the executor's account. -/
theorem tenant_of_touched (firing : Firing) (w : World) :
    ∀ row ∈ touched config firing w, row.tenantID = home := by
  intro row hrow
  obtain ⟨entry, hentry, hsome⟩ := List.mem_filterMap.mp hrow
  exact run_within haccount firing w entry hentry row hsome

end

/-- A firing stays inside the tenant of its job exactly when the executor's account belongs to
that tenant, or the firing touches no row. -/
theorem touched_own_tenant_iff (config : ExecutorConfig) (home : Uuid)
    (haccount : ∀ up ∈ config.targetGRPCBackend, AccountOf home up) (firing : Firing) (w : World) :
    (∀ row ∈ touched config firing w, row.tenantID = firing.payload.tenantID) ↔
      home = firing.payload.tenantID ∨ touched config firing w = [] := by
  constructor
  · intro hown
    cases hrows : touched config firing w with
    | nil => exact .inr rfl
    | cons row rows =>
      have hrow : row ∈ touched config firing w := by simp [hrows]
      have hhome : row.tenantID = home := tenant_of_touched haccount firing w row hrow
      exact .inl (hhome.symm.trans (hown row hrow))
  · rintro (hhome | hnone) row hrow
    · rw [← hhome]
      exact tenant_of_touched haccount firing w row hrow
    · rw [hnone] at hrow
      cases hrow

/-! ## An executor at home in tenant 1 -/

def ticketWorkflow : EntityWorkflow where
  stateField := "state"
  initialState := "open"
  transitions := [{ action := "close", source := "open", target := "closed" }]

def ticketEntity : EntityDefinition where
  name := "app.ticket"
  tableName := "app.ticket"
  fields := [{ name := "state", kind := .string }]
  workflow := some ticketWorkflow

theorem ticketEntity_wellFormed : ticketEntity.WellFormed where
  safe_table := by decide
  safe_names := by decide
  nodup_names := by decide
  filters_known := by simp [ticketEntity]
  state_declared := by decide
  setFields_not_state := by simp [ticketEntity, ticketWorkflow]
  state_not_system := by decide

def ticketService : Service where
  codec := .hex
  printer := { formatG := fun _ => "", marshal := fun _ => "" }
  pg := default
  readCursor := fun _ => none
  formatTime := fun _ => ""
  quote := id
  registryFor := fun _ => ⟨[ticketEntity], by simpa using ticketEntity_wellFormed⟩
  policiesFor := fun _ _ => []
  columnsOf := fun _ _ _ => none
  violates := fun _ _ _ => none

/-- User 9 of tenant 1, an administrator, is the executor's account. -/
def ticketUpstream : Upstream where
  svc := ticketService
  directory := fun _ _ => some { roles := some ["admin"] }
  leeway := 0
  readToken := .invalid
  moment := fun _ =>
    { now := 0, token := .signed (mintJWT .hex 0 "" 1 9 60), commit := { now := 0, eventID := 5 } }

def ticketExecutor : ExecutorConfig where
  targetGRPCBackend := some ticketUpstream
  codec := .hex
  quote := id
  jsonError := fun _ => ""
  runWebhook := fun _ _ _ _ _ _ => .ok .null
  runEmail := fun _ _ _ => .ok .null

def openTicket : StoredRecord where
  id := 7
  tenantID := 1
  status := some "open"
  data := [("state", .str "open")]

def ticketWorld : World where
  store := fun _ => { records := ⟨[openTicket], by simp⟩ }

/-- A tenant's job that closes ticket 7. -/
def closeTicket (tenantID : Uuid) : Firing :=
  .due (some .enqueued)
    { runID := 20, jobID := 10, tenantID, targetType := "workflow_transition"
      targetConfig := some (.obj [("entity", .str "app.ticket"),
        ("recordId", .str (UuidCodec.hex.format 7)), ("action", .str "close")]) }

theorem accountOf_ticketUpstream : ∀ up ∈ ticketExecutor.targetGRPCBackend, AccountOf 1 up := by
  intro up hup n t ht
  cases hup
  have htoken : tokenTenant ticketUpstream (ticketUpstream.moment 0).now
      (ticketUpstream.moment 0).token = some 1 := by decide
  -- the executor presents the same token at every call
  have hsome : some 1 = some t := htoken.symm.trans ht
  exact (Option.some.inj hsome).symm

/-- The account's own tenant has a job that closes the ticket. -/
theorem touched_own_tenant_at_home :
    touched ticketExecutor (closeTicket 1) ticketWorld ≠ [] ∧
      ∀ row ∈ touched ticketExecutor (closeTicket 1) ticketWorld,
        row.tenantID = (closeTicket 1).payload.tenantID := by
  have hsome : (touched ticketExecutor (closeTicket 1) ticketWorld).isEmpty = false := by
    decide +kernel
  refine ⟨?_, ?_⟩
  · intro hnil
    rw [hnil] at hsome
    cases hsome
  · exact (touched_own_tenant_iff ticketExecutor 1 accountOf_ticketUpstream (closeTicket 1)
      ticketWorld).mpr (.inl rfl)

/-- The job of tenant 2 reads and closes a ticket of tenant 1. -/
theorem foreign_job_moves_record :
    (touched ticketExecutor (closeTicket 2) ticketWorld).map StoredRecord.tenantID = [1, 1, 1] ∧
      (closeTicket 2).payload.tenantID = 2 ∧
      (((((closeTicket 2).run ticketExecutor ticketWorld).state.store "app.ticket").records.find
        7).map fun row => (row.tenantID, row.status)) = some (1, some "closed") := by
  decide +kernel

end Metap.Cron
