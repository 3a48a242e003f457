import Metap.Crud.Enrichment
import Metap.Crud.SystemFields

/-!
# Capabilities

A get tells the caller which fields are writable and whether the record may be updated, deleted or
moved to another state.  The operations check these things again, on the record as it is stored or
as enriched for their own action, where the get looked at the record enriched for all of them; and
an update refuses system fields, which the get lists as writable.

`capabilities_honest` says exactly when a promise is kept, one capability at a time: where the
checks of the operation decide on their record as they do on the one the get looked at, and no field
of an update is a system field.  They do where no test of theirs reads what the get has replaced.
-/

namespace Metap

/-- Whether the field policies let the caller write a field of a record. -/
def PermissionSnapshot.fieldWritable (s : PermissionSnapshot) (rc : RequestContext)
    (record : JsonObject) (field : String) : Bool :=
  rc.isAdmin || (s.policiesOnField "write" field).isEmpty ||
    evaluatePolicies (s.policiesOnField "write" field) rc (some (.obj record)) = .allow

variable {names : List String} {s : PermissionSnapshot}

theorem PermissionSnapshot.mem_writableFields {rc : RequestContext} {record : JsonObject}
    {field : String} : field ∈ s.writableFields rc names (some record) ↔
      field ∈ names ∧ s.fieldWritable rc record field = true := by
  unfold writableFields fieldWritable
  by_cases hadmin : rc.isAdmin = true
  · simp [hadmin]
  · rw [if_neg hadmin]
    simp [hadmin]

theorem PermissionSnapshot.assertWritableFields_allowed {rc : RequestContext} {record : JsonObject}
    : (s.assertWritableFields rc names (some record)).allowed = true ↔
      ∀ field ∈ names, s.fieldWritable rc record field = true := by
  unfold assertWritableFields
  by_cases hadmin : rc.isAdmin = true
  · simp [hadmin, fieldWritable, PermissionDecision.allow]
  · rw [if_neg hadmin]
    dsimp only
    split
    · next f hfind =>
      have hmem := List.mem_of_find?_eq_some hfind
      have hnot := List.find?_some hfind
      simp only [List.contains_eq_mem, Bool.not_eq_true', decide_eq_false_iff_not] at hnot
      refine iff_of_false (by simp [PermissionDecision.forbiddenField]) fun hall => hnot ?_
      exact mem_writableFields.mpr ⟨hmem, hall f hmem⟩
    · next hnone =>
      refine iff_of_true rfl fun field hfield => ?_
      have hwritable := List.find?_eq_none.mp hnone field hfield
      simp only [List.contains_eq_mem, Bool.not_eq_true', decide_eq_false_iff_not, not_not]
        at hwritable
      exact (mem_writableFields.mp hwritable).2

namespace Crud

open Builder

/-! ## When an operation gets through its checks -/

variable {payload : Option JsonObject}

section

variable {platform : Platform} {entity : EntityDefinition}

theorem isOk_bind {ε α β : Type} {m : Except ε α} {f : α → Except ε β} :
    (m >>= f).isOk = true ↔ ∃ a, m = .ok a ∧ (f a).isOk = true := by
  cases m with
  | error e => simp [bind, Except.bind, Except.isOk, Except.toBool]
  | ok a => simp [bind, Except.bind]

/-- Why a call was refused. -/
def refusal {α : Type} : Except ServiceError α → Option ServiceError
  | .ok _ => none
  | .error e => some e

theorem isOk_iff_refusal {α : Type} {m : Except ServiceError α} :
    m.isOk = true ↔ refusal m = none := by
  cases m <;> simp [refusal, Except.isOk, Except.toBool]

/-- A call on a record that is there is refused by the entity's policies or for what its checks
find. -/
theorem refusal_load {db : Database} {call : Call} {tenantID : Uuid} {base : StoredRecord}
    (htenant : scopedTenant platform.codec call.ctx.rc = .ok tenantID)
    (hbase : fetchExisting db call.id tenantID = some base) :
    refusal (load platform entity db call) =
      refusal (require (canPerformOperation entity call.ctx call.op) .forbidden >>= fun _ =>
        prepare platform entity call base (loadActors platform entity db call tenantID)) := by
  unfold load
  cases hrequire : require (canPerformOperation entity call.ctx call.op) .forbidden with
  | error e =>
    simp only [htenant, bind, Except.bind]
    rfl
  | ok _ =>
    simp only [htenant, hbase, orRefuse, bind, Except.bind]
    split
    · next hok => exact (congrArg refusal hok).symm
    · next herror => exact (congrArg refusal herror).symm

variable {ctx : CallContext}

theorem checkRecord_isOk {action : EntityAction} {existing : JsonObject} :
    checkRecord platform entity ctx action existing = .ok () ↔
      (ctx.snapshot.canPerformRecordCondition ctx.rc
        (enrichRecordForActions platform.codec ctx entity [action] existing) action).allowed =
        true :=
  require_eq_ok

theorem rejectSystemFields_eq_nil {data : JsonObject} : rejectSystemFields entity data = [] ↔
      ∀ name ∈ JsonObject.keys data, name ∉ systemFieldNames entity := by
  simp only [rejectSystemFields, List.map_eq_nil_iff, List.filter_eq_nil_iff,
    JsonObject.mem_keys_iff]
  exact ⟨fun h name hdata hsystem => h name hsystem hdata,
    fun h name hsystem hdata => h name hdata hsystem⟩

variable {existing : StoredRecord}

theorem updatePatch_isOk {rawData : JsonObject} (hvalid : (validatePayload platform.codec entity
      (keepState entity existing.data (existing.data.merge rawData))).isOk = true)
    (huser : (parseUserID platform.codec ctx.rc).isOk = true) :
    (updatePatch platform entity ctx existing rawData).isOk = true ↔
      checkRecord platform entity ctx .update existing.data = .ok () ∧
      (∀ name ∈ JsonObject.keys rawData, name ∉ systemFieldNames entity) ∧
      ∀ name ∈ JsonObject.keys rawData,
        ctx.snapshot.fieldWritable ctx.rc existing.data name = true := by
  obtain ⟨data, hdata⟩ := exists_eq_ok_of_isOk hvalid
  obtain ⟨userID, huserID⟩ := exists_eq_ok_of_isOk huser
  unfold updatePatch
  rw [← rejectSystemFields_eq_nil, ← PermissionSnapshot.assertWritableFields_allowed]
  constructor
  · intro h
    obtain ⟨_, hcheck, h⟩ := isOk_bind.mp h
    obtain ⟨_, hsystem, h⟩ := isOk_bind.mp h
    obtain ⟨_, hwritable, -⟩ := isOk_bind.mp h
    exact ⟨hcheck, rejectNamed_eq_ok.mp hsystem, require_eq_ok.mp hwritable⟩
  · rintro ⟨hcheck, hsystem, hwritable⟩
    refine isOk_bind.mpr ⟨(), hcheck, isOk_bind.mpr ⟨(), rejectNamed_eq_ok.mpr hsystem, ?_⟩⟩
    refine isOk_bind.mpr ⟨(), require_eq_ok.mpr hwritable, ?_⟩
    refine isOk_bind.mpr ⟨data, validated_eq_ok.mpr hdata, ?_⟩
    exact isOk_bind.mpr ⟨userID, huserID, rfl⟩

theorem deletePatch_isOk (huser : (parseUserID platform.codec ctx.rc).isOk = true) :
    (deletePatch platform entity ctx existing).isOk = true ↔
      checkRecord platform entity ctx .delete existing.data = .ok () := by
  obtain ⟨userID, huserID⟩ := exists_eq_ok_of_isOk huser
  unfold deletePatch
  constructor
  · intro h
    obtain ⟨_, hcheck, -⟩ := isOk_bind.mp h
    exact hcheck
  · intro hcheck
    exact isOk_bind.mpr ⟨(), hcheck, isOk_bind.mpr ⟨userID, huserID, rfl⟩⟩

/-- The payload of a transition gives a document that validates and that its validator accepts. -/
def TransitionValid (platform : Platform) (entity : EntityDefinition) (rc : RequestContext)
    (existing : JsonObject) (actors : Workflow.Actors) (w : EntityWorkflow) (t : WorkflowTransition)
    (payload : Option JsonObject) : Prop :=
  ∃ nextData, validatePayload platform.codec entity
      ((existing.merge (payload.getD [])).set w.stateField (.str t.target)) = .ok nextData ∧
    Workflow.runValidator t (Workflow.withWorkflowContext nextData actors) rc = none

theorem mergePayload_isOk {existing : JsonObject} :
    (mergePayload ctx existing payload).isOk = true ↔
      ∀ name ∈ JsonObject.keys (payload.getD []),
        ctx.snapshot.fieldWritable ctx.rc existing name = true := by
  cases payload with
  | none => exact ⟨fun _ _ h => (nomatch h), fun _ => rfl⟩
  | some p =>
    rw [Option.getD_some, ← PermissionSnapshot.assertWritableFields_allowed]
    unfold mergePayload
    rw [isOk_bind]
    exact ⟨fun ⟨_, h, _⟩ => require_eq_ok.mp h, fun h => ⟨(), require_eq_ok.mpr h, rfl⟩⟩

theorem transitionPatch_isOk {actors : Workflow.Actors} {w : EntityWorkflow}
    {t : WorkflowTransition} (hw : entity.workflow = some w)
    (hstate : (existing.data.get w.stateField).bind Json.decodeString = some t.source)
    (hfind : Workflow.findTransition entity t.action t.source = some t)
    (hvalid : TransitionValid platform entity ctx.rc existing.data actors w t payload)
    (huser : (parseUserID platform.codec ctx.rc).isOk = true) :
    (transitionPatch platform entity ctx existing actors t.action payload).isOk = true ↔
      checkRecord platform entity ctx .transition existing.data = .ok () ∧
        Workflow.runGuard t (Workflow.withWorkflowContext existing.data actors) ctx.rc = none ∧
        ∀ name ∈ JsonObject.keys (payload.getD []),
          ctx.snapshot.fieldWritable ctx.rc existing.data name = true := by
  obtain ⟨nextData, hdata, hvalidator⟩ := hvalid
  obtain ⟨userID, huserID⟩ := exists_eq_ok_of_isOk huser
  unfold transitionPatch
  constructor
  · intro h
    obtain ⟨_, hcheck, h⟩ := isOk_bind.mp h
    obtain ⟨w', hw', h⟩ := isOk_bind.mp h
    cases Option.some.inj (hw.symm.trans (orRefuse_eq_ok.mp hw'))
    obtain ⟨source, hsource, h⟩ := isOk_bind.mp h
    cases Option.some.inj (hstate.symm.trans (orRefuse_eq_ok.mp hsource))
    obtain ⟨t', ht', h⟩ := isOk_bind.mp h
    cases Option.some.inj (hfind.symm.trans (orRefuse_eq_ok.mp ht'))
    obtain ⟨_, hguard, h⟩ := isOk_bind.mp h
    obtain ⟨_, hmerge, -⟩ := isOk_bind.mp h
    exact ⟨hcheck, refuseIf_eq_ok.mp hguard, mergePayload_isOk.mp (congrArg Except.isOk hmerge)⟩
  · rintro ⟨hcheck, hguard, hwritable⟩
    refine isOk_bind.mpr ⟨(), hcheck, isOk_bind.mpr ⟨w, orRefuse_eq_ok.mpr hw, ?_⟩⟩
    refine isOk_bind.mpr ⟨t.source, orRefuse_eq_ok.mpr hstate, ?_⟩
    refine isOk_bind.mpr ⟨t, orRefuse_eq_ok.mpr hfind, ?_⟩
    refine isOk_bind.mpr ⟨(), refuseIf_eq_ok.mpr hguard, ?_⟩
    obtain ⟨merged, hmerged⟩ := exists_eq_ok_of_isOk (mergePayload_isOk.mpr hwritable)
    rw [← mergePayload_eq_ok hmerged] at hdata
    refine isOk_bind.mpr ⟨merged, hmerged, ?_⟩
    refine isOk_bind.mpr ⟨nextData, validated_eq_ok.mpr hdata, ?_⟩
    refine isOk_bind.mpr ⟨(), refuseIf_eq_ok.mpr hvalidator, ?_⟩
    exact isOk_bind.mpr ⟨userID, huserID, rfl⟩

end

/-! ## What the enrichment leaves as it is -/

section

variable {codec : UuidCodec} {ctx : CallContext} {entity : EntityDefinition} {record : JsonObject}

section

variable (codec : UuidCodec) (ctx : CallContext) (entity : EntityDefinition) (record : JsonObject)

/-- The record a get looks at. -/
abbrev viewed : JsonObject := enrichRecordForActions codec ctx entity getActions record

/-- The record policies decide on the record an operation looks at as on the one the get did. -/
def DecisionKept (a : EntityAction) : Prop :=
  (ctx.snapshot.canPerformRecordCondition ctx.rc
      (enrichRecordForActions codec ctx entity [a] record) a).allowed =
    (ctx.snapshot.canPerformRecordCondition ctx.rc (viewed codec ctx entity record) a).allowed

/-- So do the policies on writing a field. -/
def WriteKept (name : String) : Prop :=
  ctx.snapshot.fieldWritable ctx.rc record name =
    ctx.snapshot.fieldWritable ctx.rc (viewed codec ctx entity record) name

/-- So does the guard of a transition. -/
def GuardKept (actors : Workflow.Actors) (t : WorkflowTransition) : Prop :=
  Workflow.runGuard t (Workflow.withWorkflowContext record actors) ctx.rc = none ↔
    Workflow.runGuard t (Workflow.withWorkflowContext (viewed codec ctx entity record) actors)
      ctx.rc = none

/-- What an attribute reads is not replaced in the record a get looks at. -/
def Unenriched (attr : String) : Prop :=
  let head := (Strings.split attr '.').headD ""
  isContextAttribute attr = true ∨ head ∉ relationFields ctx getActions ∨
    relatedRecord codec ctx entity record head = none

end

theorem resolveAttribute_of_unenriched {attr : String} (rc : RequestContext)
    (actors : Workflow.Actors) (h : Unenriched codec ctx entity record attr) :
    resolveAttribute (.obj record) attr rc =
        resolveAttribute (.obj (viewed codec ctx entity record)) attr rc ∧
      resolveAttribute (.obj (Workflow.withWorkflowContext record actors)) attr rc =
        resolveAttribute (.obj (Workflow.withWorkflowContext (viewed codec ctx entity record)
          actors)) attr rc := by
  have hget (hctx : isContextAttribute attr = false) :
      record.get ((Strings.split attr '.').headD "") =
        (viewed codec ctx entity record).get ((Strings.split attr '.').headD "") := by
    rw [get_enrichRecordForActions]
    rcases h with hcontext | hnot | hnone
    · cases hctx.symm.trans hcontext
    · rw [if_neg hnot]
    · rw [hnone, Option.map_none, Option.none_or, ite_self]
  refine ⟨resolveAttribute_eq_of_head rc hget, resolveAttribute_eq_of_head rc fun hctx => ?_⟩
  simp only [Workflow.withWorkflowContext, JsonObject.get_set, hget hctx]

theorem decisionKept_of_readsAlike {a : EntityAction} (ha : a ∈ getActions)
    (h : ReadsAlike codec ctx entity record getActions [a] a) :
    DecisionKept codec ctx entity record a := by
  rw [DecisionKept, canPerformRecordCondition_of_readsAlike ha (List.mem_singleton_self a) h]

theorem writeKept_of_unenriched {name : String} (h : ctx.rc.isAdmin = true ∨
      ∀ t ∈ recordTests (ctx.snapshot.policiesOnField "write" name) ctx.rc,
        Unenriched codec ctx entity record t.attr) : WriteKept codec ctx entity record name := by
  unfold WriteKept PermissionSnapshot.fieldWritable
  rcases h with hadmin | htests
  · simp [hadmin]
  · have hverdict := evaluatePolicies_congr fun t ht =>
      congrArg (matchOperator t.op · _) (resolveAttribute_of_unenriched ctx.rc [] (htests t ht)).1
    rw [hverdict]

theorem runGuard_eq_none {t : WorkflowTransition} {data : JsonObject} {rc : RequestContext} :
    Workflow.runGuard t data rc = none ↔
      ∀ c ∈ t.guard, (evaluateCondition (.obj data) rc c).isPassed = true := by
  unfold Workflow.runGuard Workflow.runCondition
  cases t.guard with
  | none => simp
  | some c => cases h : evaluateCondition (.obj data) rc c <;> simp [h]

theorem guardKept_of_unenriched {t : WorkflowTransition} (actors : Workflow.Actors)
    (h : ∀ c ∈ t.guard, ∀ test ∈ tests c, Unenriched codec ctx entity record test.attr) :
    GuardKept codec ctx entity record actors t := by
  rw [GuardKept, runGuard_eq_none, runGuard_eq_none]
  refine forall₂_congr fun c hc => ?_
  rw [isPassed_congr c fun test htest => congrArg (matchOperator test.op · _)
    (resolveAttribute_of_unenriched ctx.rc actors (h c hc test htest)).2]

/-- The state a get reads is the stored one: a related record is no state. -/
theorem state_of_enriched {field state : String} {actions : List EntityAction}
    (h : ((enrichRecordForActions codec ctx entity actions record).get field).bind
      Json.decodeString = some state) : (record.get field).bind Json.decodeString = some state := by
  rw [get_enrichRecordForActions] at h
  split at h
  · cases hrelated : relatedRecord codec ctx entity record field with
    | none => rwa [hrelated] at h
    | some data =>
      rw [hrelated] at h
      cases h
  · exact h

end

section

variable {entity : EntityDefinition} {rc : RequestContext} {snapshot : PermissionSnapshot}
  {guardSubject : JsonObject} {decision : PermissionDecision} {t : WorkflowTransition}

theorem transitionAvailability_action :
    (transitionAvailability entity rc snapshot guardSubject decision t).action = t.action := by
  unfold transitionAvailability
  dsimp only
  split
  · rfl
  · split <;> rfl

theorem transitionAvailability_available :
    (transitionAvailability entity rc snapshot guardSubject decision t).available = true ↔
      decision.allowed = true ∧
        (snapshot.canTransitionAction rc entity.name t.action).allowed = true ∧
        Workflow.runGuard t guardSubject rc = none := by
  unfold transitionAvailability
  dsimp only
  split
  · next h => simpa using fun hallowed => absurd hallowed (by simpa using h)
  · next h =>
    split
    · next haction => simpa using fun _ hallowed => absurd hallowed (by simpa using haction)
    · next haction =>
      simp only [Bool.not_eq_true', Bool.not_eq_false] at h haction
      simp [h, haction]

end

/-! ## The operation that follows -/

/-- A call on the record a get returned, with its version. -/
def followUp (o : Opened) (id : Uuid) (result : GetResult) (op : Operation) : Call where
  ctx := o.ctx
  id
  expectedVersion := result.record.version
  op

/-- Whether the call gets through its checks, on the same database. -/
def accepted (svc : Service) (store : Store) (o : Opened) (id : Uuid) (result : GetResult)
    (op : Operation) : Bool :=
  (load (svc.platform o.entity) o.entity (store o.entity.tableName) (followUp o id result op)).isOk

section

variable {svc : Service} {store : Store} {rc : RequestContext} {entityName : String} {id : Uuid}
  {o : Opened} {existing : StoredRecord} {actors : Workflow.Actors} {result : GetResult}

/-- The capabilities a get returns are those of the enriched record. -/
theorem capabilities_of_get
    (hfind : findRecord svc store rc entityName id = .ok (o, existing, actors))
    (hget : get svc store rc entityName id = .ok result) :
    result.capabilities = computeCapabilities o.entity o.ctx.rc o.ctx.snapshot
      (enrichRecordForActions svc.codec o.ctx o.entity getActions existing.data) actors := by
  unfold get at hget
  rw [hfind] at hget
  change presentRecord svc o existing actors = .ok result at hget
  obtain ⟨_, -, h⟩ := except_bind_eq_ok hget
  cases h
  rfl

section

variable (hfind : findRecord svc store rc entityName id = .ok (o, existing, actors))
include hfind

theorem refusal_followUp (op : Operation) :
    refusal (load (svc.platform o.entity) o.entity (store o.entity.tableName)
        (followUp o id result op)) =
      refusal (require (canPerformOperation o.entity o.ctx op) .forbidden >>= fun _ =>
        prepare (svc.platform o.entity) o.entity (followUp o id result op) existing
          (loadActors (svc.platform o.entity) o.entity (store o.entity.tableName)
            (followUp o id result op) o.tenantID)) := by
  obtain ⟨hrc, htenant, hexisting, -⟩ := findRecord_eq_ok hfind
  exact refusal_load (by rw [← htenant, ← hrc]; rfl) hexisting

theorem accepted_iff (op : Operation) : accepted svc store o id result op = true ↔
      (canPerformOperation o.entity o.ctx op).allowed = true ∧
        (prepare (svc.platform o.entity) o.entity (followUp o id result op) existing
          (loadActors (svc.platform o.entity) o.entity (store o.entity.tableName)
            (followUp o id result op) o.tenantID)).isOk = true := by
  rw [accepted, isOk_iff_refusal, refusal_followUp hfind, ← isOk_iff_refusal, isOk_bind]
  exact ⟨fun ⟨_, hallowed, hprepare⟩ => ⟨require_eq_ok.mp hallowed, hprepare⟩,
    fun ⟨hallowed, hprepare⟩ => ⟨(), require_eq_ok.mpr hallowed, hprepare⟩⟩

/-- A listed transition starts from the stored state. -/
theorem exists_of_mem_transitions (hget : get svc store rc entityName id = .ok result)
    {entry : TransitionAvailability} (hentry : entry ∈ result.capabilities.transitions) :
    ∃ w t, o.entity.workflow = some w ∧ t ∈ w.transitions ∧
      (existing.data.get w.stateField).bind Json.decodeString = some t.source ∧
      entry = transitionAvailability o.entity o.ctx.rc o.ctx.snapshot (Workflow.withWorkflowContext
          (enrichRecordForActions svc.codec o.ctx o.entity getActions existing.data) actors)
        (o.ctx.snapshot.canPerformRecordCondition o.ctx.rc
          (enrichRecordForActions svc.codec o.ctx o.entity getActions existing.data) .transition)
        t := by
  rw [capabilities_of_get hfind hget] at hentry
  simp only [computeCapabilities] at hentry
  split at hentry
  · cases hentry
  · next w hw =>
    split at hentry
    · cases hentry
    · next hnonempty =>
      obtain ⟨t, ht, rfl⟩ := List.mem_map.mp hentry
      obtain ⟨htmem, hsource⟩ := List.mem_filter.mp ht
      refine ⟨w, t, hw, htmem, ?_, rfl⟩
      rw [of_decide_eq_true hsource]
      -- an unreadable state counts as the empty one, from which nothing is listed
      cases hread : (JsonObject.get (enrichRecordForActions svc.codec o.ctx o.entity getActions
          existing.data) w.stateField).bind Json.decodeString with
      | none => rw [hread] at hnonempty; exact absurd rfl hnonempty
      | some state => exact state_of_enriched hread

variable (huser : (parseUserID svc.codec rc).isOk = true)
  (hget : get svc store rc entityName id = .ok result)
include huser hget

theorem accepted_update_iff {rawData : JsonObject}
    (hvalid : (validatePayload svc.codec o.entity
      (keepState o.entity existing.data (existing.data.merge rawData))).isOk = true)
    (hlisted : ∀ name ∈ JsonObject.keys rawData, name ∈ result.capabilities.writableFields) :
    accepted svc store o id result (.update rawData) = true ↔
      (o.ctx.snapshot.canPerformEntityAction o.ctx.rc o.entity.name .update).allowed = true ∧
      (o.ctx.snapshot.canPerformRecordCondition o.ctx.rc
        (enrichRecordForActions svc.codec o.ctx o.entity [.update] existing.data) .update).allowed =
          true ∧
      ∀ name ∈ JsonObject.keys rawData, name ∉ systemFieldNames o.entity ∧
        WriteKept svc.codec o.ctx o.entity existing.data name := by
  obtain ⟨hrc, -, -, -⟩ := findRecord_eq_ok hfind
  rw [← hrc] at huser
  have hpatch := @updatePatch_isOk (svc.platform o.entity) o.entity o.ctx existing rawData hvalid
    huser
  rw [checkRecord_isOk] at hpatch
  rw [capabilities_of_get hfind hget] at hlisted
  rw [accepted_iff hfind]
  change (_ ∧ (updatePatch (svc.platform o.entity) o.entity o.ctx existing rawData).isOk = true) ↔ _
  rw [hpatch, forall₂_and]
  refine and_congr_right' (and_congr_right' (and_congr_right' (forall₂_congr fun name hname => ?_)))
  rw [WriteKept, (PermissionSnapshot.mem_writableFields.mp (hlisted name hname)).2]

/-- A promised update is accepted exactly when the policies decide alike and no field of it is a
system field; one of listed fields alone is no promise. -/
theorem promised_update_iff {rawData : JsonObject}
    (hvalid : (validatePayload svc.codec o.entity
      (keepState o.entity existing.data (existing.data.merge rawData))).isOk = true)
    (hlisted : ∀ name ∈ JsonObject.keys rawData, name ∈ result.capabilities.writableFields) :
    (result.capabilities.canUpdate = true →
      (accepted svc store o id result (.update rawData) = true ↔
        DecisionKept svc.codec o.ctx o.entity existing.data .update ∧
          ∀ name ∈ JsonObject.keys rawData, name ∉ systemFieldNames o.entity ∧
            WriteKept svc.codec o.ctx o.entity existing.data name)) ∧
    (result.capabilities.canUpdate = false →
      DecisionKept svc.codec o.ctx o.entity existing.data .update →
      accepted svc store o id result (.update rawData) = false) := by
  rw [← Bool.not_eq_true (accepted svc store o id result (.update rawData)),
    accepted_update_iff hfind huser hget hvalid hlisted, capabilities_of_get hfind hget]
  simp only [computeCapabilities, Bool.and_eq_true, Bool.and_eq_false_iff, DecisionKept]
  constructor
  · rintro ⟨hrecord, hentity⟩
    simp [hrecord, hentity]
  · rintro hrefused hkept ⟨hentity, hrecord, -⟩
    rw [hkept] at hrecord
    simp [hentity, hrecord] at hrefused

/-- A promised deletion is accepted exactly when the policies decide alike. -/
theorem promised_delete_iff (hpromised : result.capabilities.canDelete = true) :
    accepted svc store o id result .delete = true ↔
      DecisionKept svc.codec o.ctx o.entity existing.data .delete := by
  obtain ⟨hrc, -, -, -⟩ := findRecord_eq_ok hfind
  rw [← hrc] at huser
  have hpatch := @deletePatch_isOk (svc.platform o.entity) o.entity o.ctx existing huser
  rw [checkRecord_isOk] at hpatch
  rw [capabilities_of_get hfind hget] at hpromised
  simp only [computeCapabilities, Bool.and_eq_true] at hpromised
  rw [accepted_iff hfind, DecisionKept, hpromised.1]
  exact (and_iff_right hpromised.2).trans hpatch

/-- A promised transition is accepted exactly when the policies and its guard decide alike. -/
theorem promised_transition_iff (haccepted : validate o.entity = [])
    {entry : TransitionAvailability} (hentry : entry ∈ result.capabilities.transitions)
    (hpromised : entry.available = true) (hlisted : ∀ name ∈ JsonObject.keys (payload.getD []),
      name ∈ result.capabilities.writableFields) {w : EntityWorkflow} {t : WorkflowTransition}
    (hw : o.entity.workflow = some w)
    (hstate : (existing.data.get w.stateField).bind Json.decodeString = some t.source)
    (hfound : Workflow.findTransition o.entity entry.action t.source = some t)
    (hvalid : TransitionValid (svc.platform o.entity) o.entity rc existing.data actors w t
      payload) :
    accepted svc store o id result (.transition entry.action payload) = true ↔
      DecisionKept svc.codec o.ctx o.entity existing.data .transition ∧
        GuardKept svc.codec o.ctx o.entity existing.data actors t ∧
        ∀ name ∈ JsonObject.keys (payload.getD []),
          WriteKept svc.codec o.ctx o.entity existing.data name := by
  obtain ⟨hrc, -, -, hactors⟩ := findRecord_eq_ok hfind
  obtain ⟨w', t', hw', ht', hstate', rfl⟩ := exists_of_mem_transitions hfind hget hentry
  rw [transitionAvailability_action] at hfound ⊢
  rw [transitionAvailability_available] at hpromised
  obtain ⟨hdecision, haction, hguard⟩ := hpromised
  cases hw.symm.trans hw'
  have hsource := Option.some.inj (hstate.symm.trans hstate')
  have hunique := findTransition_of_validate haccepted w hw t' ht'
  rw [hsource, hunique] at hfound
  cases hfound
  rw [← hrc] at huser hvalid
  rw [capabilities_of_get hfind hget] at hlisted
  have hpatch := @transitionPatch_isOk payload (svc.platform o.entity) o.entity o.ctx existing
    actors w t hw hstate hunique hvalid huser
  rw [checkRecord_isOk] at hpatch
  have hloaded : loadActors (svc.platform o.entity) o.entity (store o.entity.tableName)
      (followUp o id result (.transition t.action payload)) o.tenantID = actors := hactors.symm
  rw [accepted_iff hfind, hloaded]
  change (_ ∧ (transitionPatch (svc.platform o.entity) o.entity o.ctx existing actors t.action
    payload).isOk = true) ↔ _
  rw [hpatch, DecisionKept, hdecision, GuardKept, iff_true_right hguard]
  refine (and_iff_right haction).trans (and_congr_right' (and_congr_right'
    (forall₂_congr fun name hname => ?_)))
  rw [WriteKept, (PermissionSnapshot.mem_writableFields.mp (hlisted name hname)).2]

end

end

/-- What a get promises is kept exactly when the checks of the operation decide on the record they
look at as on the one the get did, and no field of an update is a system field.  They do if their
tests do not count for the caller or read nothing that the get has replaced. -/
theorem capabilities_honest (svc : Service) (store : Store) (rc : RequestContext)
    (entityName : String) (id : Uuid) (o : Opened) (existing : StoredRecord)
    (actors : Workflow.Actors) (result : GetResult)
    (hfind : findRecord svc store rc entityName id = .ok (o, existing, actors))
    (hget : get svc store rc entityName id = .ok result) (haccepted : validate o.entity = [])
    (huser : (parseUserID svc.codec rc).isOk = true) :
    (∀ rawData, (validatePayload svc.codec o.entity
        (keepState o.entity existing.data (existing.data.merge rawData))).isOk = true →
      (∀ name ∈ JsonObject.keys rawData, name ∈ result.capabilities.writableFields) →
      (result.capabilities.canUpdate = true →
        (accepted svc store o id result (.update rawData) = true ↔
          DecisionKept svc.codec o.ctx o.entity existing.data .update ∧
            ∀ name ∈ JsonObject.keys rawData, name ∉ systemFieldNames o.entity ∧
              WriteKept svc.codec o.ctx o.entity existing.data name)) ∧
      (result.capabilities.canUpdate = false →
        DecisionKept svc.codec o.ctx o.entity existing.data .update →
        accepted svc store o id result (.update rawData) = false)) ∧
    (result.capabilities.canDelete = true → (accepted svc store o id result .delete = true ↔
      DecisionKept svc.codec o.ctx o.entity existing.data .delete)) ∧
    (∀ entry ∈ result.capabilities.transitions, entry.available = true → ∀ payload,
      (∀ name ∈ JsonObject.keys (payload.getD []), name ∈ result.capabilities.writableFields) →
      ∀ w t, o.entity.workflow = some w →
        (existing.data.get w.stateField).bind Json.decodeString = some t.source →
        Workflow.findTransition o.entity entry.action t.source = some t →
        TransitionValid (svc.platform o.entity) o.entity rc existing.data actors w t payload →
        (accepted svc store o id result (.transition entry.action payload) = true ↔
          DecisionKept svc.codec o.ctx o.entity existing.data .transition ∧
            GuardKept svc.codec o.ctx o.entity existing.data actors t ∧
            ∀ name ∈ JsonObject.keys (payload.getD []),
              WriteKept svc.codec o.ctx o.entity existing.data name)) ∧
    (∀ a ∈ getActions, ReadsAlike svc.codec o.ctx o.entity existing.data getActions [a] a →
      DecisionKept svc.codec o.ctx o.entity existing.data a) ∧
    (∀ name, (o.ctx.rc.isAdmin = true ∨
      ∀ t ∈ recordTests (o.ctx.snapshot.policiesOnField "write" name) o.ctx.rc,
        Unenriched svc.codec o.ctx o.entity existing.data t.attr) →
      WriteKept svc.codec o.ctx o.entity existing.data name) ∧
    ∀ t : WorkflowTransition, (∀ c ∈ t.guard, ∀ test ∈ tests c,
        Unenriched svc.codec o.ctx o.entity existing.data test.attr) →
      GuardKept svc.codec o.ctx o.entity existing.data actors t :=
  ⟨fun _ hvalid hlisted => promised_update_iff hfind huser hget hvalid hlisted,
    promised_delete_iff hfind huser hget,
    fun _ hentry hpromised _ hlisted _ _ hw hstate hfound hvalid =>
      promised_transition_iff hfind huser hget haccepted hentry hpromised hlisted hw hstate hfound
        hvalid,
    fun _ => decisionKept_of_readsAlike, fun _ => writeKept_of_unenriched,
    fun _ => guardKept_of_unenriched actors⟩

/-! ## Permits with a holder and a time of last use -/

/-- A permit may be closed when an attribute has a value. -/
def permitEntity (attr value : String) : EntityDefinition where
  name := "app.permit"
  tableName := "app.permit"
  fields :=
    [{ name := "title", kind := .string },
     { name := "holder", kind := .reference, refEntity := some "app.employee" },
     { name := "usedAt", kind := .string, system := some true },
     { name := "state", kind := .enum, enumValues := some ["open", "closed"] }]
  workflow := some {
    stateField := "state"
    initialState := "open"
    transitions := [{ action := "close", source := "open", target := "closed"
                      guard := some (.attribute attr .eq (.literal (some (.str value)))) }] }

/-- Everyone may read, close and update permits, the last for a holder of the red team. -/
def permitPolicies : List PolicyRow :=
  [{ action := "read", subject := "context" },
   { action := "update", subject := "context" },
   { action := "transition", subject := "context" },
   { action := "update", subject := "record",
     condition := some (.attribute "holder.team" .eq (.literal (some (.str "red")))) }]

theorem validate_titlePermit : validate (permitEntity "title" "a") = [] := by decide

theorem validate_holderPermit : validate (permitEntity "holder.team" "red") = [] := by
  decide

def permitService (attr value : String) (h : validate (permitEntity attr value) = []) : Service :=
  { employeeService with
    registryFor := fun _ => ⟨[employeeEntity, permitEntity attr value], by
      simpa using ⟨employeeEntity_wellFormed, wellFormed_of_validate h⟩⟩
    policiesFor := fun _ _ => permitPolicies }

def permit : StoredRecord where
  id := 9
  tenantID := 1
  data := [("title", .str "a"), ("holder", .str (UuidCodec.hex.format 7)), ("state", .str "open")]

def permitStore : Store := fun table =>
  { records := ⟨if table = "app.employee" then [employee 7 "senior"] else [permit],
      by split <;> simp⟩ }

def titleService : Service := permitService "title" "a" validate_titlePermit

def openedTitle : Opened :=
  openedOn titleService permitStore employeeCaller 1 (permitEntity "title" "a")

/-- The title of a permit may be changed. -/
theorem capabilities_honest_title :
    ∃ result, get titleService permitStore employeeCaller "app.permit" 9 = .ok result ∧
      result.capabilities.canUpdate = true ∧ "title" ∈ result.capabilities.writableFields ∧
      accepted titleService permitStore openedTitle 9 result (.update [("title", .str "b")]) =
        true := by
  obtain ⟨result, hget, hupdate, htitle⟩ := exists_ok_of_decide
    (get titleService permitStore employeeCaller "app.permit" 9) (fun r =>
      r.capabilities.canUpdate = true ∧ "title" ∈ r.capabilities.writableFields) (by decide)
  obtain ⟨hhonest, -, -, hdecision, hwrite, -⟩ := capabilities_honest titleService permitStore
    employeeCaller "app.permit" 9 openedTitle permit [] result rfl hget validate_titlePermit
    (by decide)
  have hkeys : ∀ name ∈ JsonObject.keys [("title", .str "b")], name = "title" := by
    simp [JsonObject.keys]
  refine ⟨result, hget, hupdate, htitle,
    ((hhonest [("title", .str "b")] (by decide) fun name hname =>
      hkeys name hname ▸ htitle).1 hupdate).mpr ⟨hdecision .update (by decide) (.inr ?_), ?_⟩⟩
  · have hplain : ∀ t ∈ recordTests (openedTitle.ctx.snapshot.getRecordPolicies .update)
        openedTitle.ctx.rc, isPlain t.attr = false := by
      decide
    intro t ht hp
    rw [hplain t ht] at hp
    cases hp
  · intro name hname
    rw [hkeys name hname]
    exact ⟨by decide, hwrite "title" (.inr fun t ht => by cases ht)⟩

def closableService : Service := permitService "holder.team" "red" validate_holderPermit

def openedClosable : Opened :=
  openedOn closableService permitStore employeeCaller 1 (permitEntity "holder.team" "red")

/-- A get says that the permit may be updated, lists the system field as writable, and the closing
as available: its guard reads the holder's team through the record the get has enriched.  The
update of the system field is refused, and so is the closing, whose guard reads the stored
permit. -/
theorem capabilities_refused :
    ∃ result, get closableService permitStore employeeCaller "app.permit" 9 = .ok result ∧
      result.capabilities.canUpdate = true ∧ "usedAt" ∈ result.capabilities.writableFields ∧
      { action := "close", available := true, reason := none } ∈
        result.capabilities.transitions ∧
      (validatePayload closableService.codec openedClosable.entity
        (permit.data.merge [("usedAt", .str "noon")])).isOk = true ∧
      refusal (load (closableService.platform openedClosable.entity) openedClosable.entity
        (permitStore "app.permit")
        (followUp openedClosable 9 result (.update [("usedAt", .str "noon")]))) =
        some (.withFieldErrors 400 "validation_failed" [("usedAt", ["system_field"])]) ∧
      refusal (load (closableService.platform openedClosable.entity) openedClosable.entity
        (permitStore "app.permit")
        (followUp openedClosable 9 result (.transition "close" none))) =
        some (.withMessage 422 "guard_failed"
          "condition failed: holder.team eq \"red\" (got null)") := by
  obtain ⟨result, hget, hresult⟩ := exists_ok_of_decide
    (get closableService permitStore employeeCaller "app.permit" 9) (fun r => r.capabilities =
      { writableFields := ["title", "holder", "usedAt", "state"]
        canUpdate := true
        canDelete := false
        transitions := [{ action := "close", available := true, reason := none }] })
    (by decide)
  have hfind : findRecord closableService permitStore employeeCaller "app.permit" 9 =
      .ok (openedClosable, permit, []) := rfl
  refine ⟨result, hget, ?_, ?_, ?_, by decide, ?_, ?_⟩
  · rw [hresult]
  · rw [hresult]
    decide
  · rw [hresult]
    exact List.mem_singleton_self _
  · refine (refusal_followUp hfind _).trans ?_
    change refusal (_ >>= fun _ => updatePatch (closableService.platform openedClosable.entity)
      openedClosable.entity openedClosable.ctx permit [("usedAt", .str "noon")]) = _
    decide
  · refine (refusal_followUp hfind _).trans ?_
    change refusal (_ >>= fun _ => transitionPatch (closableService.platform openedClosable.entity)
      openedClosable.entity openedClosable.ctx permit [] "close" none) = _
    decide

end Crud
end Metap
