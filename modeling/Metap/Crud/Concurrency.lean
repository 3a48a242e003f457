import Metap.Crud.Write
import Metap.Framework.Transition

/-!
# Concurrent writes to records

Calls on the records of one entity interleave: a call loads its record in one transaction and
writes in another, and any number of other calls may commit in between.  The write is conditional
on the version the client sent, not on the version the call loaded.

`committed_base_iff` says exactly what that guarantees.  A committed write was checked against,
and merged from, the row it replaces if and only if the version the client expected is not ahead
of the version the call loaded.  When it is not, every check held on the replaced row, members
the call does not write are kept, and a change of state follows a declared transition whose guard
held on the replaced row.  A client that sends a version the call has not seen yet silently
reverts the write that made it (`stale_transition_reverts_commit`).
-/

namespace Metap.Crud

open Transition Builder

/-! ## What a patch does -/

section Patches

variable {platform : Platform} {entity : EntityDefinition}

theorem refuseIf_eq_ok {errorCode : String} {o : Option String} {u : Unit} :
    refuseIf errorCode o = .ok u ↔ o = none := by
  cases o <;> simp [refuseIf]

theorem validated_eq_ok {r : Except FieldErrors JsonObject} {data : JsonObject} :
    validated r = .ok data ↔ r = .ok data := by
  cases r <;> simp [validated]

theorem rejectNamed_eq_ok {errs : FieldErrors} {u : Unit} :
    rejectNamed errs = .ok u ↔ errs = [] := by
  cases errs <;> simp [rejectNamed]

variable {existing : StoredRecord} {ctx : CallContext} {patch : Patch}

theorem updatePatch_eq_ok {rawData : JsonObject}
    (h : updatePatch platform entity ctx existing rawData = .ok patch) :
    rejectSystemFields entity rawData = [] ∧
    ∃ data userID,
      validatePayload platform.codec entity
        (keepState entity existing.data (existing.data.merge rawData)) = .ok data ∧
      patch = .update (recomputeFields platform.printer entity data)
        (codeOf (recomputeFields platform.printer entity data)) userID := by
  unfold updatePatch at h
  obtain ⟨_, -, h⟩ := except_bind_eq_ok h
  obtain ⟨_, hsystem, h⟩ := except_bind_eq_ok h
  obtain ⟨_, -, h⟩ := except_bind_eq_ok h
  obtain ⟨data, hdata, h⟩ := except_bind_eq_ok h
  obtain ⟨userID, -, h⟩ := except_bind_eq_ok h
  cases h
  exact ⟨rejectNamed_eq_ok.mp hsystem, data, userID, validated_eq_ok.mp hdata, rfl⟩

theorem mergePayload_eq_ok {existing merged : JsonObject} {payload : Option JsonObject}
    (h : mergePayload ctx existing payload = .ok merged) :
    merged = existing.merge (payload.getD []) := by
  cases payload with
  | none => cases h; rfl
  | some p =>
    obtain ⟨_, -, h⟩ := except_bind_eq_ok h
    cases h
    rfl

variable {actors : Workflow.Actors}

theorem transitionPatch_eq_ok {action : String} {payload : Option JsonObject}
    (h : transitionPatch platform entity ctx existing actors action payload = .ok patch) :
    ∃ w t nextData userID, entity.workflow = some w ∧
      (existing.data.get w.stateField).bind Json.decodeString = some t.source ∧
      t ∈ w.transitions ∧ t.action = action ∧
      Workflow.runGuard t (Workflow.withWorkflowContext existing.data actors) ctx.rc = none ∧
      validatePayload platform.codec entity
        ((existing.data.merge (payload.getD [])).set w.stateField (.str t.target)) = .ok nextData ∧
      Workflow.findTransition entity action t.source = some t ∧
      patch = .transition action t.source t.target (Workflow.applySetFields t nextData ctx.rc)
        userID := by
  unfold transitionPatch at h
  obtain ⟨_, -, h⟩ := except_bind_eq_ok h
  obtain ⟨w, hw, h⟩ := except_bind_eq_ok h
  obtain ⟨fromState, hfrom, h⟩ := except_bind_eq_ok h
  obtain ⟨t, ht, h⟩ := except_bind_eq_ok h
  obtain ⟨_, hguard, h⟩ := except_bind_eq_ok h
  obtain ⟨merged, hmerged, h⟩ := except_bind_eq_ok h
  obtain ⟨nextData, hdata, h⟩ := except_bind_eq_ok h
  obtain ⟨_, -, h⟩ := except_bind_eq_ok h
  obtain ⟨userID, -, h⟩ := except_bind_eq_ok h
  cases h
  rw [orRefuse_eq_ok] at hw hfrom ht
  obtain ⟨w', hw', htmem, haction, rfl⟩ := Workflow.findTransition_eq_some ht
  obtain rfl : w = w' := Option.some.inj (hw.symm.trans hw')
  rw [mergePayload_eq_ok hmerged] at hdata
  exact ⟨w, t, nextData, userID, hw, hfrom, htmem, haction, refuseIf_eq_ok.mp hguard,
    validated_eq_ok.mp hdata, ht, rfl⟩

theorem deletePatch_eq_ok (h : deletePatch platform entity ctx existing = .ok patch) :
    ∃ userID, patch = .delete userID := by
  unfold deletePatch at h
  obtain ⟨_, -, h⟩ := except_bind_eq_ok h
  obtain ⟨userID, -, h⟩ := except_bind_eq_ok h
  cases h
  exact ⟨userID, rfl⟩

/-- What a write does to its row, with the document its call has loaded. -/
inductive WriteEffect (w : Write platform entity) (loaded : JsonObject) : Prop where
  | update (rawData data : JsonObject) (hop : w.pending.call.op = .update rawData)
      (hsystem : rejectSystemFields entity rawData = [])
      (hdata : validatePayload platform.codec entity
        (keepState entity loaded (loaded.merge rawData)) = .ok data)
      (hwritten : w.written.data = keepSystemFields entity w.replaced.data
        (recomputeFields platform.printer entity data))
      (hcode : w.written.code = codeOf (recomputeFields platform.printer entity data))
      (hstatus : w.written.status = w.replaced.status)
      (hdeleted : w.written.deleted = w.replaced.deleted)
  | transition (action : String) (payload : Option JsonObject) (wf : EntityWorkflow)
      (t : WorkflowTransition) (nextData : JsonObject)
      (hop : w.pending.call.op = .transition action payload) (hwf : entity.workflow = some wf)
      (ht : t ∈ wf.transitions) (hfind : Workflow.findTransition entity action t.source = some t)
      (hsource : (loaded.get wf.stateField).bind Json.decodeString = some t.source)
      (hdata : validatePayload platform.codec entity
        ((loaded.merge (payload.getD [])).set wf.stateField (.str t.target)) = .ok nextData)
      (hwritten : w.written.data = Workflow.applySetFields t nextData w.pending.call.ctx.rc)
      (hcode : w.written.code = w.replaced.code)
      (hstatus : w.written.status = some t.target)
      (hdeleted : w.written.deleted = w.replaced.deleted)
  | delete (hop : w.pending.call.op = .delete) (hwritten : w.written.data = w.replaced.data)
      (hcode : w.written.code = w.replaced.code)
      (hstatus : w.written.status = w.replaced.status) (hdeleted : w.written.deleted = true)

/-- A write is computed from the row its call has loaded. -/
theorem writeEffect_of_commit {db db' : Database} {env : CommitEnv} {p : Pending platform entity}
    {w : Write platform entity} (hcommit : commit platform entity db p env = .ok (w, db')) :
    WriteEffect w w.pending.base.data := by
  obtain ⟨-, -, -, rfl, -, hwritten, -⟩ := commit_eq_ok hcommit
  have hprepared := w.pending.prepared
  unfold prepare at hprepared
  split at hprepared
  · next rawData hop =>
    obtain ⟨hsystem, data, userID, hdata, hpatch⟩ := updatePatch_eq_ok hprepared
    rw [hpatch] at hwritten
    refine .update rawData data hop hsystem hdata ?_ ?_ ?_ ?_ <;> rw [hwritten] <;> rfl
  · next action payload hop =>
    obtain ⟨wf, t, nextData, userID, hwf, hsource, ht, -, -, hdata, hfind, hpatch⟩ :=
      transitionPatch_eq_ok hprepared
    rw [hpatch] at hwritten
    refine .transition action payload wf t nextData hop hwf ht hfind hsource hdata ?_ ?_ ?_ ?_ <;>
      rw [hwritten] <;> rfl
  · next hop =>
    obtain ⟨userID, hpatch⟩ := deletePatch_eq_ok hprepared
    rw [hpatch] at hwritten
    refine .delete hop ?_ ?_ ?_ ?_ <;> rw [hwritten] <;> rfl

/-- The values a transition sets. -/
def setValues (t : WorkflowTransition) (ctx : RequestContext) : JsonObject :=
  t.setFields.map fun e => (e.1, Permission.resolveValue e.2 ctx)

/-- A member after a transition: the value the transition sets, or else the state it moves to, what
the payload gives or what the loaded document has, in the form validation writes it in. -/
def transitionMember (codec : UuidCodec) (entity : EntityDefinition) (wf : EntityWorkflow)
    (t : WorkflowTransition) (rc : RequestContext) (loaded payload : JsonObject) (k : String) :
    Option Json :=
  ((setValues t rc).get k).or ((if k = wf.stateField then some (.str t.target)
    else (payload.get k).or (loaded.get k)).map (canonicalMember codec entity k))

theorem get_transitioned (hnodup : (entity.fields.map EntityField.name).Nodup)
    {codec : UuidCodec} {wf : EntityWorkflow} {t : WorkflowTransition}
    {loaded payload nextData : JsonObject}
    (hdata : validatePayload codec entity
      ((loaded.merge payload).set wf.stateField (.str t.target)) = .ok nextData)
    (rc : RequestContext) (k : String) : (Workflow.applySetFields t nextData rc).get k =
      transitionMember codec entity wf t rc loaded payload k := by
  rw [Workflow.applySetFields, JsonObject.get_merge, get_of_validatePayload hnodup hdata,
    JsonObject.get_set, JsonObject.get_merge]
  rfl

theorem get_keepSystemFields (stored data : JsonObject) (k : String) :
    (keepSystemFields entity stored data).get k =
      if k ∈ systemFieldNames entity then JsonObject.get stored k else JsonObject.get data k := by
  have hdata := JsonObject.get_filter (fun n => !(systemFieldNames entity).contains n) data k
  have hstored := JsonObject.get_filter (fun n => (systemFieldNames entity).contains n) stored k
  rw [keepSystemFields, JsonObject.get_merge, hdata, hstored]
  by_cases hk : k ∈ systemFieldNames entity
  · simp [hk]
  · simp [hk]

/-- An update keeps the state a record has. -/
theorem get_keepState (existing merged : JsonObject) (k : String) :
    (keepState entity existing merged).get k =
      if entity.workflow.any (fun w => k = w.stateField && (existing.get w.stateField).isSome)
      then JsonObject.get existing k else JsonObject.get merged k := by
  unfold keepState
  cases hw : entity.workflow with
  | none => simp
  | some w =>
    cases hs : JsonObject.get existing w.stateField with
    | none => simp [hs]
    | some state =>
      by_cases hk : k = w.stateField
      · subst hk
        simp [hs]
      · simp [hs, hk]

/-- The members an operation writes. -/
def Touches (entity : EntityDefinition) : Operation → String → Prop
  | .update rawData, k => k ∈ JsonObject.keys rawData ∨
      ∃ f ∈ entity.fields, f.name = k ∧ f.computed ≠ none
  | .transition action payload, k => k ∈ JsonObject.keys (payload.getD []) ∨
      ∃ w, entity.workflow = some w ∧ (k = w.stateField ∨
        ∃ t ∈ w.transitions, t.action = action ∧ ∃ e ∈ t.setFields, e.1 = k)
  | .delete, _ => False

/-- A member is as it was, or a reference in canonical form. -/
def SameMember (codec : UuidCodec) (entity : EntityDefinition) (k : String)
    (before after : Option Json) : Prop :=
  after = before ∨ after = before.map (canonicalMember codec entity k)

/-- A patch computed from a row keeps every member of that row the operation does not write. -/
theorem sameMember_applyPatch (hwf : entity.WellFormed) {call : Call} {row : StoredRecord}
    (h : prepare platform entity call row actors = .ok patch) (now : ℤ) {k : String}
    (hk : ¬ Touches entity call.op k) : SameMember platform.codec entity k (row.data.get k)
      ((applyPatch platform entity now row patch).data.get k) := by
  unfold prepare at h
  split at h
  · next rawData hop =>
    rw [hop] at hk
    simp only [Touches, not_or, not_exists, not_and, not_not] at hk
    obtain ⟨-, data, userID, hdata, rfl⟩ := updatePatch_eq_ok h
    have hmerged : (keepState entity row.data (row.data.merge rawData)).get k =
        row.data.get k := by
      rw [get_keepState, JsonObject.get_merge, JsonObject.get_eq_none_of_notMem hk.1]
      simp
    simp only [applyPatch, get_keepSystemFields]
    by_cases hsystem : k ∈ systemFieldNames entity
    · exact .inl (if_pos hsystem)
    · right
      rw [if_neg hsystem, get_recomputeFields_of_not_computed hk.2,
        get_of_validatePayload hwf.nodup_names hdata, hmerged]
  · next action payload hop =>
    rw [hop] at hk
    obtain ⟨w, t, nextData, userID, hw, -, ht, haction, -, hdata, -, rfl⟩ :=
      transitionPatch_eq_ok h
    simp only [Touches, not_or, not_exists, not_and] at hk
    have hne : k ≠ w.stateField := (hk.2 w hw).1
    have hset : ∀ e ∈ t.setFields, e.1 ≠ k := (hk.2 w hw).2 t ht haction
    have hpayload := JsonObject.get_eq_none_of_notMem hk.1
    right
    simp only [applyPatch]
    rw [Workflow.get_applySetFields hset, get_of_validatePayload hwf.nodup_names hdata]
    simp [hne, hpayload]
  · obtain ⟨userID, rfl⟩ := deletePatch_eq_ok h
    exact .inl rfl

/-! ## States -/

/-- The state field is an ordinary field: neither computed nor a reference. -/
def PlainState (entity : EntityDefinition) : Prop :=
  ∀ w ∈ entity.workflow, ∀ f ∈ entity.fields, f.name = w.stateField →
    f.kind ≠ .reference ∧ f.computed = none

/-- The record is in some state. -/
def HasState (entity : EntityDefinition) (row : StoredRecord) : Prop :=
  ∀ w ∈ entity.workflow, (row.data.get w.stateField).isSome

/-- The state of a record: the member of its data and the column that mirrors it. -/
def stateOf (entity : EntityDefinition) (row : StoredRecord) : Option Json × Option String :=
  (entity.workflow.bind fun w => row.data.get w.stateField, row.status)

/-- The call is a declared transition from the state of `before` to that of `after`, and its guard
held on `before`. -/
structure FollowsTransition (entity : EntityDefinition) (call : Call) (actors : Workflow.Actors)
    (before after : StoredRecord) : Prop where
  declared : ∃ w t action payload, call.op = .transition action payload ∧
    entity.workflow = some w ∧ t ∈ w.transitions ∧ t.action = action ∧
    (before.data.get w.stateField).bind Json.decodeString = some t.source ∧
    stateOf entity after = (some (.str t.target), some t.target) ∧
    Workflow.runGuard t (Workflow.withWorkflowContext before.data actors) call.ctx.rc = none

/-- A patch computed from a row in some state either leaves its state alone or follows a declared
transition. -/
theorem state_applyPatch (hwf : entity.WellFormed) (hplain : PlainState entity) {call : Call}
    (row : StoredRecord) {base : StoredRecord}
    (h : prepare platform entity call base actors = .ok patch) (hbase : HasState entity base)
    (now : ℤ) :
    FollowsTransition entity call actors base (applyPatch platform entity now row patch) ∨
      ((applyPatch platform entity now row patch).status = row.status ∧
        ∀ w ∈ entity.workflow,
          (applyPatch platform entity now row patch).data.get w.stateField =
            base.data.get w.stateField ∨
          (applyPatch platform entity now row patch).data.get w.stateField =
            row.data.get w.stateField) := by
  have hcanonical : ∀ w ∈ entity.workflow, ∀ raw,
      canonicalMember platform.codec entity w.stateField raw = raw :=
    fun w hw => canonicalMember_of_not_reference fun f hf hname => (hplain w hw f hf hname).1
  unfold prepare at h
  split at h
  · next rawData hop =>
    right
    obtain ⟨-, data, userID, hdata, rfl⟩ := updatePatch_eq_ok h
    refine ⟨rfl, fun w hw => .inl ?_⟩
    have hsome := hbase w hw
    have hw' : entity.workflow = some w := hw
    have hreset : (keepState entity base.data (base.data.merge rawData)).get w.stateField =
        base.data.get w.stateField := by
      rw [get_keepState, hw']
      simp [hsome]
    simp only [applyPatch]
    rw [get_keepSystemFields, if_neg (hwf.state_not_system w hw),
      get_recomputeFields_of_not_computed fun f hf hname => (hplain w hw f hf hname).2,
      get_of_validatePayload hwf.nodup_names hdata, hreset]
    cases base.data.get w.stateField <;> simp [hcanonical w hw]
  · next action payload hop =>
    left
    obtain ⟨w, t, nextData, userID, hw, hfrom, ht, haction, hguard, hdata, -, rfl⟩ :=
      transitionPatch_eq_ok h
    refine ⟨w, t, action, payload, hop, hw, ht, haction, hfrom, ?_, hguard⟩
    have hset : ∀ e ∈ t.setFields, e.1 ≠ w.stateField :=
      hwf.setFields_not_state w hw t ht
    simp only [stateOf, hw, Option.bind_some, applyPatch]
    rw [Workflow.get_applySetFields hset, get_of_validatePayload hwf.nodup_names hdata]
    simp [hcanonical w hw]
  · right
    obtain ⟨userID, rfl⟩ := deletePatch_eq_ok h
    exact ⟨rfl, fun w _ => .inr rfl⟩

end Patches

/-! ## The system -/

section System

variable (platform : Platform) (entity : EntityDefinition)

/-- The database and the calls that have loaded and not yet written. -/
structure State where
  db : Database
  pending : List (Pending platform entity) := []

/-- What happens in a step. -/
inductive Event where
  | created (row : StoredRecord)
  | loaded (p : Pending platform entity)
  | committed (w : Write platform entity)
  | failed (p : Pending platform entity)

/-- A call creates a record, loads one, writes, or fails to. -/
inductive Step : State platform entity → Event platform entity → State platform entity → Prop where
  | create {s : State platform entity} (ctx : CallContext) (rawData : JsonObject) (newID : Uuid)
      (now : ℤ) {row : StoredRecord}
      (hrow : createRow platform entity ctx rawData newID now = .ok row)
      (hunique : platform.violates s.db.records.rows row = none)
      (hfresh : s.db.records.find row.id = none) :
      Step s (.created row) { s with db.records := s.db.records.insert row hfresh }
  | load {s : State platform entity} (call : Call) {p : Pending platform entity}
      (hload : load platform entity s.db call = .ok p) :
      Step s (.loaded p) { s with pending := p :: s.pending }
  | commit {s : State platform entity} (before after : List (Pending platform entity))
      (p : Pending platform entity) (env : CommitEnv) {w : Write platform entity}
      {db' : Database} (hpending : s.pending = before ++ p :: after)
      (hcommit : commit platform entity s.db p env = .ok (w, db')) :
      Step s (.committed w) { db := db', pending := before ++ after }
  | fail {s : State platform entity} (before after : List (Pending platform entity))
      (p : Pending platform entity) (hpending : s.pending = before ++ p :: after) :
      Step s (.failed p) { s with pending := before ++ after }

/-- The start: any table whose records are in some state, and no call under way. -/
structure Initial (s : State platform entity) : Prop where
  hasState : PlainState entity → ∀ row ∈ s.db.records.rows, HasState entity row
  pending : s.pending = []

end System

/-! ## The invariant -/

section Invariant

variable {platform : Platform} {entity : EntityDefinition}

/-- The row a call loaded is an earlier version of the row there is now, or that row itself. -/
structure Tracks (db : Database) (p : Pending platform entity) : Prop where
  row : ∃ row, db.records.find p.call.id = some row ∧ p.base.version ≤ row.version ∧
    (p.base.version = row.version →
      p.base = row ∧ p.actors = loadActors platform entity db p.call p.tenantID)
  hasState : PlainState entity → HasState entity p.base

structure Invariant (s : State platform entity) : Prop where
  hasState : PlainState entity → ∀ row ∈ s.db.records.rows, HasState entity row
  tracks : ∀ p ∈ s.pending, Tracks s.db p

@[simp]
theorem id_applyPatch (now : ℤ) (row : StoredRecord) (patch : Patch) :
    (applyPatch platform entity now row patch).id = row.id := by
  cases patch <;> rfl

@[simp]
theorem version_applyPatch (now : ℤ) (row : StoredRecord) (patch : Patch) :
    (applyPatch platform entity now row patch).version = row.version + 1 := by
  cases patch <;> rfl

variable {p q : Pending platform entity} {rawData : JsonObject} {w : Write platform entity}
  {s : State platform entity}

/-- A write to one record changes no other record's last actors. -/
theorem loadActors_append_eventOf {db : Database} {records : KeyedTable StoredRecord.id}
    (env : CommitEnv) (h : q.call.id ≠ p.call.id) : loadActors platform entity
        { records, events := db.events ++ eventOf platform entity p env } q.call q.tenantID =
      loadActors platform entity db q.call q.tenantID := by
  unfold loadActors eventOf
  split
  · split
    · split
      · simp [Workflow.lastActors, Workflow.recordEvents, List.filter_append, h.symm]
      · rw [List.append_nil]
    · rfl
  · rfl

/-- A missing state becomes the initial one. -/
theorem get_initState (entity : EntityDefinition) (data : JsonObject) (k : String) :
    (initState entity data).get k = (data.get k).or (entity.workflow.bind fun w =>
        if k = w.stateField then some (.str w.initialState) else none) := by
  unfold initState Workflow.getInitialStatus
  cases hw : entity.workflow with
  | none => simp
  | some w => cases hstate : data.get w.stateField <;> by_cases hk : k = w.stateField <;> simp [*]

theorem get_initState_of_ne {k : String} (h : ∀ w ∈ entity.workflow, k ≠ w.stateField)
    (data : JsonObject) : (initState entity data).get k = JsonObject.get data k := by
  rw [get_initState]
  cases hw : entity.workflow with
  | none => simp
  | some w => simp [h w hw]

variable {row : StoredRecord}

/-- What a create inserts. -/
theorem createRow_spec {ctx : CallContext} {newID : Uuid} {now : ℤ}
    (h : createRow platform entity ctx rawData newID now = .ok row) :
    rejectSystemFields entity rawData = [] ∧
    scopedTenant platform.codec ctx.rc = .ok row.tenantID ∧
    ∃ data, validatePayload platform.codec entity rawData = .ok data ∧
      row.data = initState entity (recomputeFields platform.printer entity data) ∧
      row.code = codeOf row.data ∧
      row.status = Workflow.getInitialStatus entity (recomputeFields platform.printer entity data) ∧
      row.columns = platform.columnsOf row.data ∧ row.id = newID ∧ row.deleted = false := by
  unfold createRow at h
  obtain ⟨tenantID, htenant, h⟩ := except_bind_eq_ok h
  obtain ⟨_, -, h⟩ := except_bind_eq_ok h
  obtain ⟨_, -, h⟩ := except_bind_eq_ok h
  obtain ⟨_, hsystem, h⟩ := except_bind_eq_ok h
  obtain ⟨data, hdata, h⟩ := except_bind_eq_ok h
  obtain ⟨_, -, h⟩ := except_bind_eq_ok h
  cases h
  exact ⟨rejectNamed_eq_ok.mp hsystem, htenant, data, validated_eq_ok.mp hdata, rfl, rfl, rfl, rfl,
    rfl, rfl⟩

theorem createRow_eq_ok {ctx : CallContext} {newID : Uuid} {now : ℤ}
    (h : createRow platform entity ctx rawData newID now = .ok row) : HasState entity row := by
  obtain ⟨-, -, data, -, hrow, -⟩ := createRow_spec h
  intro w hw
  rw [hrow, get_initState, Option.mem_def.mp hw]
  simp

/-- Whatever a call writes is in some state. -/
theorem hasState_applyPatch (hwf : entity.WellFormed) (hplain : PlainState entity)
    (hbase : HasState entity p.base) (hrow : HasState entity row) (now : ℤ) :
    HasState entity (applyPatch platform entity now row p.patch) := by
  intro w hw
  have hw' : entity.workflow = some w := hw
  rcases state_applyPatch hwf hplain row p.prepared hbase now with hfollows | ⟨-, hstate⟩
  · obtain ⟨-, t, -, -, -, -, -, -, -, hafter, -⟩ := hfollows.declared
    simp only [stateOf, hw', Option.bind_some, Prod.mk.injEq] at hafter
    rw [hafter.1]
    rfl
  · rcases hstate w hw with heq | heq
    · rw [heq]
      exact hbase w hw
    · rw [heq]
      exact hrow w hw

/-- A call under way stays on track when another call commits. -/
theorem Tracks.commit {db db' : Database} {env : CommitEnv} (h : Tracks db q)
    (hcommit : commit platform entity db p env = .ok (w, db')) : Tracks db' q := by
  obtain ⟨hfind, -, -, -, -, hwritten, rfl⟩ := commit_eq_ok hcommit
  obtain ⟨⟨row, hrow, hversion, hsame⟩, hbase⟩ := h
  have hid : w.written.id = p.call.id := by
    rw [hwritten, id_applyPatch, KeyedTable.key_of_find hfind]
  refine ⟨?_, hbase⟩
  by_cases hrecord : q.call.id = p.call.id
  · -- the record just written: its version is ahead of everything loaded before
    have hreplaced : row = w.replaced := Option.some.inj (hrow.symm.trans (hrecord ▸ hfind))
    have hahead : w.written.version = row.version + 1 := by
      rw [hwritten, version_applyPatch, hreplaced]
    refine ⟨w.written, ?_, by omega, fun heq => by omega⟩
    rw [KeyedTable.find_replace, hid, if_pos hrecord, hrow]
    rfl
  · refine ⟨row, ?_, hversion, fun heq => ?_⟩
    · rw [KeyedTable.find_replace, hid, if_neg hrecord, hrow]
    · rw [loadActors_append_eventOf env hrecord]
      exact hsame heq

/-- One step keeps the invariant. -/
theorem Invariant.step (hwf : entity.WellFormed) {s' : State platform entity}
    {e : Event platform entity} (hstep : Step platform entity s e s') (h : Invariant s) :
    Invariant s' := by
  cases hstep with
  | create ctx rawData newID now hrow hunique hfresh =>
    refine ⟨fun hplain r hr => ?_, fun p hp => ?_⟩
    · rcases List.mem_append.mp hr with hr | hr
      · exact h.hasState hplain r hr
      · rw [List.mem_singleton.mp hr]
        exact createRow_eq_ok hrow
    · obtain ⟨⟨row, hfind, hversion⟩, hbase⟩ := h.tracks p hp
      refine ⟨⟨row, ?_, hversion⟩, hbase⟩
      rw [KeyedTable.find_insert, if_neg, hfind]
      rintro heq
      rw [heq, hfresh] at hfind
      cases hfind
  | load call hload =>
    obtain ⟨hcall, -, hfind, -, hactors⟩ := load_eq_ok hload
    refine ⟨h.hasState, fun p hp => ?_⟩
    rcases List.mem_cons.mp hp with rfl | hp
    · refine ⟨⟨_, hcall ▸ hfind, le_refl _, fun _ => ⟨rfl, hactors⟩⟩, fun hplain => ?_⟩
      exact h.hasState hplain _ (KeyedTable.mem_of_find hfind)
    · exact h.tracks p hp
  | commit before after p env hpending hcommit =>
    obtain ⟨hfind, -, -, -, -, hwritten, rfl⟩ := commit_eq_ok hcommit
    have hp : Tracks s.db p := h.tracks p (by simp [hpending])
    have hmem := KeyedTable.mem_of_find hfind
    refine ⟨fun hplain r hr => ?_, fun q hq => ?_⟩
    · rcases KeyedTable.mem_rows_replace hr with rfl | ⟨hr, -⟩
      · rw [hwritten]
        exact hasState_applyPatch hwf hplain (hp.hasState hplain) (h.hasState hplain _ hmem) _
      · exact h.hasState hplain r hr
    · have hq' : q ∈ s.pending := by
        rw [hpending]
        rcases List.mem_append.mp hq with hq | hq <;> simp [hq]
      exact (h.tracks q hq').commit hcommit
  | fail before after p hpending =>
    refine ⟨h.hasState, fun q hq => h.tracks q ?_⟩
    rw [hpending]
    rcases List.mem_append.mp hq with hq | hq <;> simp [hq]

theorem invariant_of_initial (h : Initial platform entity s) : Invariant s :=
  ⟨h.hasState, by simp [h.pending]⟩

/-- In every run, a call under way finds its record no older than it loaded it, and unchanged as
long as the version is. -/
theorem version_identifies_row (hwf : entity.WellFormed) {s₀ : State platform entity}
    {events : List (Event platform entity)} (hinit : Initial platform entity s₀)
    (hrun : Run (Step platform entity) s₀ events s) :
    ∀ p ∈ s.pending, ∃ row, s.db.records.find p.call.id = some row ∧
      p.base.version ≤ row.version ∧ (p.base.version = row.version →
        p.base = row ∧ p.actors = loadActors platform entity s.db p.call p.tenantID) := by
  have hinv : Invariant s := hrun.invariant (C := fun _ => True)
    (fun _ _ _ _ hstep h => h.step hwf hstep) (fun _ _ => trivial) (invariant_of_initial hinit)
  exact fun p hp => (hinv.tracks p hp).row

/-! ## Committed writes -/

/-- The write was computed from the row it replaces. -/
structure WrittenFrom (w : Write platform entity) : Prop where
  /-- The permission check, the guard and the merge were those of the replaced row. -/
  checked : prepare platform entity w.pending.call w.replaced w.actors = .ok w.pending.patch
  /-- Members the call does not write are kept. -/
  kept : ∀ k, ¬ Touches entity w.pending.call.op k →
    SameMember platform.codec entity k (w.replaced.data.get k) (w.written.data.get k)
  /-- A change of state follows a declared transition, guarded on the replaced row. -/
  state : PlainState entity → stateOf entity w.written ≠ stateOf entity w.replaced →
    FollowsTransition entity w.pending.call w.actors w.replaced w.written

theorem writtenFrom_of_base_eq (hwf : entity.WellFormed) (h : Invariant s) {env : CommitEnv}
    {db' : Database} (hcommit : commit platform entity s.db p env = .ok (w, db'))
    (hbase : p.base = w.replaced) (hactors : p.actors = w.actors) : WrittenFrom w := by
  obtain ⟨hfind, -, -, hpending, -, hwritten, -⟩ := commit_eq_ok hcommit
  have hprepared : prepare platform entity w.pending.call w.replaced w.actors =
      .ok w.pending.patch := by
    rw [← hbase, ← hactors, hpending]
    exact p.prepared
  rw [hpending] at hprepared
  refine ⟨by rwa [hpending], fun k hk => ?_, fun hplain hne => ?_⟩
  · rw [hwritten]
    rw [hpending] at hk
    exact sameMember_applyPatch hwf hprepared env.now hk
  · have hrow := h.hasState hplain _ (KeyedTable.mem_of_find hfind)
    rw [hwritten] at hne ⊢
    rw [hpending]
    rcases state_applyPatch hwf hplain w.replaced hprepared hrow env.now with
      hfollows | ⟨hstatus, hdata⟩
    · exact hfollows
    · refine absurd ?_ hne
      simp only [stateOf, hstatus, Prod.mk.injEq, and_true]
      cases hw : entity.workflow with
      | none => rfl
      | some wf =>
        rcases hdata wf hw with heq | heq
        · exact heq
        · exact heq

end Invariant

/-- In every run, a committed write was computed from the row it replaces exactly when the version
its client expected is not ahead of the version the call loaded; and then every check held on that
row, no member the call does not write was changed, and a change of state follows a declared
transition whose guard held on it. -/
theorem committed_base_iff (platform : Platform) (entity : EntityDefinition)
    (hwf : entity.WellFormed) (s₀ s : State platform entity) (events : List (Event platform entity))
    (hinit : Initial platform entity s₀) (hrun : Run (Step platform entity) s₀ events s)
    (w : Write platform entity) (hw : .committed w ∈ events) :
    (w.pending.base = w.replaced ↔
      w.pending.call.expectedVersion ≤ w.pending.base.version) ∧
    (w.pending.call.expectedVersion ≤ w.pending.base.version → WrittenFrom w) := by
  obtain ⟨s, s', h, hstep⟩ := hrun.exists_step (I := Invariant)
    (fun _ _ _ hstep h => h.step hwf hstep) (invariant_of_initial hinit) hw
  cases hstep with
  | commit before after p env hpending hcommit =>
    obtain ⟨hfind, -, hversion, hp, hactors, -, -⟩ := commit_eq_ok hcommit
    have htracks : Tracks s.db p := h.tracks p (by simp [hpending])
    obtain ⟨row, hrow, hle, hsame⟩ := htracks.row
    obtain rfl : row = w.replaced := Option.some.inj (hrow.symm.trans hfind)
    rw [hp]
    -- the replaced row has the expected version, and the loaded one is no later
    have hiff : p.call.expectedVersion ≤ p.base.version ↔ p.base.version = w.replaced.version := by
      rw [← hversion]
      omega
    refine ⟨⟨fun hbase => hiff.mpr (by rw [hbase]), fun hexpected => ?_⟩, fun hexpected => ?_⟩
    · exact (hsame (hiff.mp hexpected)).1
    · obtain ⟨hbase, hacted⟩ := hsame (hiff.mp hexpected)
      exact writtenFrom_of_base_eq hwf h hcommit hbase (hacted.trans hactors.symm)

/-! ## Invoices under review -/

def plainPlatform : Platform where
  codec := .hex
  printer := { formatG := fun _ => "", marshal := fun _ => "" }
  columnsOf := fun _ _ => none
  violates := fun _ _ => none

/-- An invoice may be approved while it counts as reviewed. -/
def invoiceWorkflow : EntityWorkflow where
  stateField := "state"
  initialState := "draft"
  transitions := [{ action := "approve", source := "draft", target := "approved"
                    guard := some (.attribute "reviewed" .eq (.literal (some (.bool true)))) }]

def invoiceEntity : EntityDefinition where
  name := "app.invoice"
  tableName := "app.invoice"
  fields := [{ name := "reviewed", kind := .boolean }, { name := "state", kind := .string }]
  workflow := some invoiceWorkflow

theorem invoiceEntity_wellFormed : invoiceEntity.WellFormed where
  safe_table := by decide
  safe_names := by decide
  nodup_names := by decide
  filters_known := by simp [invoiceEntity]
  state_declared := by decide
  setFields_not_state := by simp [invoiceEntity, invoiceWorkflow]
  state_not_system := by decide

/-- An administrator of tenant 2. -/
def adminContext : CallContext where
  rc := { tenantID := UuidCodec.hex.format 2, roles := some ["admin"], hasRoles := true }
  policies := []
  registry := ⟨[invoiceEntity], by simpa using invoiceEntity_wellFormed⟩
  related := fun _ _ => none

def reviewedData : JsonObject := [("reviewed", .bool true), ("state", .str "draft")]

def reviewedInvoice : StoredRecord where
  id := 7
  tenantID := 2
  data := reviewedData

def invoiceDatabase : Database where
  records := ⟨[reviewedInvoice], by simp⟩

def invoiceState : State plainPlatform invoiceEntity := { db := invoiceDatabase }

theorem initial_invoiceState : Initial plainPlatform invoiceEntity invoiceState where
  hasState := by
    intro _ row hrow w hw
    rw [List.mem_singleton.mp hrow]
    cases hw
    rfl
  pending := rfl

/-- An update by a client that has seen version 1: the review is withdrawn. -/
def withdrawCall : Call where
  ctx := adminContext
  id := 7
  expectedVersion := 1
  op := .update [("reviewed", .bool false)]

def withdrawPending : Pending plainPlatform invoiceEntity where
  call := withdrawCall
  tenantID := 2
  base := reviewedInvoice
  actors := []
  patch := .update [("reviewed", .bool false), ("state", .str "draft")] none none
  prepared := rfl

def commitEnv : CommitEnv := { now := 1, eventID := 1 }

def withdrawnInvoice : StoredRecord :=
  applyPatch plainPlatform invoiceEntity 1 reviewedInvoice withdrawPending.patch

def withdrawWrite : Write plainPlatform invoiceEntity where
  pending := withdrawPending
  replaced := reviewedInvoice
  actors := []
  written := withdrawnInvoice

def withdrawnDatabase : Database where
  records := invoiceDatabase.records.replace withdrawnInvoice

/-- The withdrawal, sent with the version it was read at, is checked on the row it replaces. -/
theorem committed_base_withdrawn :
    invoiceEntity.WellFormed ∧ Initial plainPlatform invoiceEntity invoiceState ∧
    Run (Step plainPlatform invoiceEntity) invoiceState
      [.loaded withdrawPending, .committed withdrawWrite] { db := withdrawnDatabase } ∧
    withdrawPending.call.expectedVersion ≤ withdrawPending.base.version ∧
    (withdrawPending.base = withdrawWrite.replaced ∧ WrittenFrom withdrawWrite) := by
  have hrun : Run (Step plainPlatform invoiceEntity) invoiceState
      [.loaded withdrawPending, .committed withdrawWrite] { db := withdrawnDatabase } :=
    .snoc (.snoc (.nil _) (.load withdrawCall rfl))
      (.commit [] [] withdrawPending commitEnv rfl rfl)
  have hversion : withdrawPending.call.expectedVersion ≤ withdrawPending.base.version := by decide
  have h := committed_base_iff plainPlatform invoiceEntity invoiceEntity_wellFormed invoiceState _
    _ initial_invoiceState hrun withdrawWrite (by simp)
  exact ⟨invoiceEntity_wellFormed, initial_invoiceState, hrun, hversion, h.1.mpr hversion,
    h.2 hversion⟩

/-- A transition by a client that sends version 2 before there is one. -/
def approveCall : Call where
  ctx := adminContext
  id := 7
  expectedVersion := 2
  op := .transition "approve" none

def approvePending : Pending plainPlatform invoiceEntity where
  call := approveCall
  tenantID := 2
  base := reviewedInvoice
  actors := []
  patch := .transition "approve" "draft" "approved"
    [("reviewed", .bool true), ("state", .str "approved")] none
  prepared := rfl

def approveWrite : Write plainPlatform invoiceEntity where
  pending := approvePending
  replaced := withdrawnInvoice
  actors := []
  written := applyPatch plainPlatform invoiceEntity 1 withdrawnInvoice approvePending.patch

/-- The withdrawal commits while the approval is under way. -/
theorem version_identifies_row_overtaken : ∃ events s,
    Run (Step plainPlatform invoiceEntity) invoiceState events s ∧ s.pending = [approvePending] ∧
      ∃ row, s.db.records.find 7 = some row ∧ approvePending.base.version ≤ row.version := by
  have hrun : Run (Step plainPlatform invoiceEntity) invoiceState _ _ :=
    .snoc (.snoc (.snoc (.nil _) (.load approveCall rfl)) (.load withdrawCall rfl))
      (.commit [] [approvePending] withdrawPending commitEnv rfl rfl)
  obtain ⟨row, hrow, hversion, -⟩ := version_identifies_row invoiceEntity_wellFormed
    initial_invoiceState hrun approvePending List.mem_cons_self
  exact ⟨_, _, hrun, rfl, row, hrow, hversion⟩

/-- The approval loads the reviewed invoice, the withdrawal commits, and the approval commits on
top of it: the withdrawn review is back, and the invoice is approved although the guard fails on
the row that was replaced. -/
theorem stale_transition_reverts_commit :
    Initial plainPlatform invoiceEntity invoiceState ∧
    ∃ s, Run (Step plainPlatform invoiceEntity) invoiceState
      [.loaded approvePending, .loaded withdrawPending, .committed withdrawWrite,
        .committed approveWrite] s ∧
      approvePending.base ≠ approveWrite.replaced ∧
      withdrawWrite.written.data.get "reviewed" = some (.bool false) ∧
      approveWrite.written.data.get "reviewed" = some (.bool true) ∧
      ¬ Touches invoiceEntity approveCall.op "reviewed" ∧
      stateOf invoiceEntity approveWrite.written ≠ stateOf invoiceEntity approveWrite.replaced ∧
      ∀ t ∈ invoiceWorkflow.transitions, Workflow.runGuard t
        (Workflow.withWorkflowContext approveWrite.replaced.data []) approveCall.ctx.rc ≠ none := by
  refine ⟨initial_invoiceState, _,
    .snoc (.snoc (.snoc (.snoc (.nil _) (.load approveCall rfl)) (.load withdrawCall rfl))
        (.commit [] [approvePending] withdrawPending commitEnv rfl rfl))
      (.commit [] [] approvePending commitEnv rfl rfl),
    fun h => ?_, rfl, rfl, ?_, by decide, ?_⟩
  · have hversion := congrArg StoredRecord.version h
    revert hversion
    decide
  · simp [Touches, approveCall, invoiceEntity, invoiceWorkflow, JsonObject.keys]
  · intro t ht
    rw [List.mem_singleton.mp ht]
    decide

end Metap.Crud
