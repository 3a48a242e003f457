import Metap.Crud.Concurrency
import Metap.Crud.ReferenceGuard

/-!
# References between records

Here all tables of a deployment are written at once: `SystemStep` interleaves the calls on the
records of every entity of every tenant.  A delete is three steps, because its guard and its write
are separate statements: what was committed in between the guard has not seen.  A write is accepted
when the triggers of its table can cast its references and the foreign keys that `compile` emits
hold.

A foreign key asks for a row of the referred table and nothing else, so a record may be made to
refer to a deleted record (`reference_to_deleted_record`) or to one of another tenant, and a
reference that is written while its target is being deleted is not noticed.  `references_live` says
what is needed beyond the constraints: what a reference is given is live and of the tenant, and
nothing is written between a delete's guard and its write.
-/

namespace Metap.Crud

open Transition Builder Reconciler Sql

/-! ## The system -/

/-- A member of a document as the trigger of its column casts it. -/
def referenceValue (pg : Backend) (member : Option Json) : Option Value :=
  castOp pg .uuid ((member.map jsonText).getD .null)

def referenceColumn (pg : Backend) (data : JsonObject) (name : String) : Option Value :=
  referenceValue pg (data.get name)

section

variable (svc : Service)

/-- A call on a record that has not written yet; a delete keeps the tables its guard read and what
it found there. -/
structure InFlight where
  entity : EntityDefinition
  pending : Pending (svc.platform entity) entity
  guarded : Option (Store × List ReferencingRecordHit) := none

structure SystemState where
  store : Store
  calls : List (InFlight svc) := []

/-- The foreign keys of the compiled table hold of a row. -/
def ForeignKeysHold (store : Store) (entity : EntityDefinition) (row : StoredRecord) : Prop :=
  ∀ schema, compile entity = .ok schema → ∀ name key, schema.foreignKeys.lookup name = some key →
    ∀ u, row.row key.column = some (.uuid u) →
      ∃ r ∈ (store key.refTable).records.rows, r.id = u

/-- The triggers of the compiled table could cast the row's document. -/
def TriggersRun (entity : EntityDefinition) (row : StoredRecord) : Prop :=
  ∀ f ∈ entity.fields, compilesColumn f = true → (row.columns f.name).isSome

/-- What a step did, with the tables it found; a write also with those its guard has seen. -/
inductive SystemEvent where
  | created (entity : EntityDefinition) (rawData : JsonObject) (row : StoredRecord) (before : Store)
  | loaded
  | guarded
  | committed (entity : EntityDefinition) (w : Write (svc.platform entity) entity)
      (seen : Option Store) (before : Store)
  | failed

/-- A call creates a record, loads one, looks for references to it, writes it, or fails. -/
inductive SystemStep : SystemState svc → SystemEvent svc → SystemState svc → Prop where
  | create {s : SystemState svc} (entity : EntityDefinition) (ctx : CallContext)
      (rawData : JsonObject) (newID : Uuid) (now : ℤ) {row : StoredRecord} {after : Store}
      (hentity : entity ∈ (svc.registryFor row.tenantID).entities)
      (hrow : createRow (svc.platform entity) entity ctx rawData newID now = .ok row)
      (hunique : svc.violates entity (s.store entity.tableName).records.rows row = none)
      (hfresh : (s.store entity.tableName).records.find row.id = none)
      (hafter : after = Function.update s.store entity.tableName
        { s.store entity.tableName with
          records := (s.store entity.tableName).records.insert row hfresh })
      (htriggers : TriggersRun entity row) (hkeys : ForeignKeysHold after entity row) :
      SystemStep s (.created entity rawData row s.store) { s with store := after }
  | load {s : SystemState svc} (entity : EntityDefinition) (call : Call)
      {p : Pending (svc.platform entity) entity}
      (hentity : entity ∈ (svc.registryFor p.tenantID).entities)
      (hload : load (svc.platform entity) entity (s.store entity.tableName) call = .ok p) :
      SystemStep s .loaded { s with calls := { entity, pending := p } :: s.calls }
  | guard {s : SystemState svc} (front rest : List (InFlight svc)) (c : InFlight svc)
      {hits : List ReferencingRecordHit} (hcalls : s.calls = front ++ c :: rest)
      (hop : c.pending.call.op = .delete)
      (hhits : findReferencingRecords svc.codec c.pending.tenantID c.pending.call.id
        (answerGuard svc.pg s.store)
        (referencingFields (svc.registryFor c.pending.tenantID) c.entity.name) = .ok hits) :
      SystemStep s .guarded
        { s with calls := front ++ { c with guarded := some (s.store, hits) } :: rest }
  | commit {s : SystemState svc} (front rest : List (InFlight svc)) (c : InFlight svc)
      (env : CommitEnv) {w : Write (svc.platform c.entity) c.entity} {db : Database} {after : Store}
      (hcalls : s.calls = front ++ c :: rest)
      (hguard : c.pending.call.op = .delete → c.guarded.map Prod.snd = some env.referencing)
      (hcommit :
        commit (svc.platform c.entity) c.entity (s.store c.entity.tableName) c.pending env =
        .ok (w, db))
      (hafter : after = Function.update s.store c.entity.tableName db)
      (hconstraints : w.written.deleted = false →
        TriggersRun c.entity w.written ∧ ForeignKeysHold after c.entity w.written) :
      SystemStep s (.committed c.entity w (c.guarded.map Prod.fst) s.store)
        { store := after, calls := front ++ rest }
  | fail {s : SystemState svc} (front rest : List (InFlight svc)) (c : InFlight svc)
      (hcalls : s.calls = front ++ c :: rest) :
      SystemStep s .failed { s with calls := front ++ rest }

/-- The identifier is that of a live record of the tenant. -/
def LiveRecord (store : Store) (tenantID : Uuid) (target : String) (u : Uuid) : Prop :=
  ∃ referred, (svc.registryFor tenantID).getEntity target = some referred ∧
    ∃ r ∈ (store referred.tableName).records.rows,
      r.id = u ∧ r.tenantID = tenantID ∧ r.deleted = false

/-- Every reference of every live record is the identifier of a live record of the entity it refers
to, in the same tenant. -/
def ReferencesLive (store : Store) : Prop :=
  ∀ row entity, entity ∈ (svc.registryFor row.tenantID).entities →
    row ∈ (store entity.tableName).records.rows → row.deleted = false →
    ∀ f ∈ entity.fields, f.kind = .reference → ∀ target, f.refEntity = some target →
      ∀ v, row.data.get f.name = some v → v ≠ .null →
        ∃ u, castOp svc.pg .uuid (jsonText v) = some (.uuid u) ∧
          LiveRecord svc store row.tenantID target u

/-! ## What is needed beyond the constraints -/

/-- What the references of a record are given is live and of the tenant, if it exists; no record is
made to refer to a row of another table that has its own identifier, which the guard would
overlook. -/
def GivesLive (before : Store) (entity : EntityDefinition) (tenantID id : Uuid)
    (member : String → Option Json) : Prop :=
  ∀ f ∈ entity.fields, f.kind = .reference → ∀ target, f.refEntity = some target →
    ∀ referred, (svc.registryFor tenantID).getEntity target = some referred →
      ∀ u, referenceValue svc.pg (member f.name) = some (.uuid u) →
        (entity.tableName = referred.tableName ∨ u ≠ id) ∧
        ∀ r ∈ (before referred.tableName).records.rows, r.id = u →
          r.tenantID = tenantID ∧ r.deleted = false

/-- What a payload, the row a call has loaded and the values a transition sets give the references
is live in the tables the step finds, and a delete finds the tables as its guard has seen them. -/
def SystemEvent.KeepsReferences : SystemEvent svc → Prop
  | .created entity rawData row before =>
    ∀ data, validatePayload svc.codec entity rawData = .ok data →
      GivesLive svc before entity row.tenantID row.id
        (initState entity (recomputeFields svc.printer entity data)).get
  | .committed entity w seen before =>
    let loaded := w.pending.base.data
    match w.pending.call.op with
    | .update rawData =>
      ∀ data, validatePayload svc.codec entity (keepState entity loaded (loaded.merge rawData)) =
          .ok data →
        GivesLive svc before entity w.replaced.tenantID w.replaced.id
          (keepSystemFields entity w.replaced.data (recomputeFields svc.printer entity data)).get
    | .transition action payload =>
      ∀ wf source t, entity.workflow = some wf →
        (loaded.get wf.stateField).bind Json.decodeString = some source →
        Workflow.findTransition entity action source = some t →
        GivesLive svc before entity w.replaced.tenantID w.replaced.id
          (transitionMember svc.codec entity wf t w.pending.call.ctx.rc loaded (payload.getD []))
    | .delete => seen = some before
  | _ => True

/-- Every reference is deployed: the registries have no name and no table twice, every entity
compiles, every reference has a column, refers to a registered entity where the foreign key looks
for it, and is kept in step by its trigger. -/
structure ReferencesDeployed : Prop where
  names : ∀ tenantID, ((svc.registryFor tenantID).entities.map EntityDefinition.name).Nodup
  tables : ∀ tenantID, ((svc.registryFor tenantID).entities.map EntityDefinition.tableName).Nodup
  compiles : ∀ tenantID, ∀ entity ∈ (svc.registryFor tenantID).entities,
    ∃ schema, compile entity = .ok schema
  columns : ∀ tenantID, ∀ entity ∈ (svc.registryFor tenantID).entities, ∀ f ∈ entity.fields,
    f.kind = .reference → compilesColumn f = true
  referred : ∀ tenantID, ∀ entity ∈ (svc.registryFor tenantID).entities, ∀ f ∈ entity.fields,
    f.kind = .reference → ∀ target, f.refEntity = some target →
      ∃ referred, (svc.registryFor tenantID).getEntity target = some referred ∧
        ∀ schemaName, schemaOf entity.tableName = .ok schemaName →
          referred.tableName = qualifiedTableNameIn target schemaName
  synced : ∀ tenantID, ∀ entity ∈ (svc.registryFor tenantID).entities, ∀ f ∈ entity.fields,
    f.kind = .reference → ∀ data,
      svc.columnsOf entity data f.name = referenceColumn svc.pg data f.name

end

/-! ## Registered entities -/

variable {store : Store} {row : StoredRecord}

section

variable {svc : Service} (hdeployed : ReferencesDeployed svc) {tenantID : Uuid}
  {entity entity' : EntityDefinition} (hentity : entity ∈ (svc.registryFor tenantID).entities)

include hdeployed hentity

theorem getEntity_of_mem : (svc.registryFor tenantID).getEntity entity.name = some entity := by
  have hsome : ((svc.registryFor tenantID).getEntity entity.name).isSome := by
    rw [MetadataRegistry.getEntity, List.find?_isSome]
    exact ⟨entity, hentity, decide_eq_true rfl⟩
  obtain ⟨found, hfound⟩ := Option.isSome_iff_exists.mp hsome
  rw [hfound, List.inj_on_of_nodup_map (hdeployed.names tenantID) (List.mem_of_find?_eq_some hfound)
    hentity (MetadataRegistry.name_of_getEntity hfound)]

theorem eq_of_tableName_eq (hentity' : entity' ∈ (svc.registryFor tenantID).entities)
    (h : entity'.tableName = entity.tableName) : entity' = entity :=
  List.inj_on_of_nodup_map (hdeployed.tables tenantID) hentity' hentity h

variable {f : EntityField}

/-- A reference's column is a column of the row. -/
theorem row_reference (hf : f ∈ entity.fields) (hkind : f.kind = .reference) (row : StoredRecord) :
    row.row f.name = row.columns f.name := by
  obtain ⟨schema, hcompile⟩ := hdeployed.compiles tenantID entity hentity
  obtain ⟨-, -, -, hnames, -⟩ := compile_eq_ok hcompile
  have hcolumn := hdeployed.columns tenantID entity hentity f hf hkind
  have hmirror : f.name ∉ mirrorColumns := by
    simp only [compilesColumn, Bool.and_eq_true, Bool.not_eq_true'] at hcolumn
    simpa using hcolumn.1.2
  have hframework : f.name ∉ frameworkColumnNames := by
    intro hmem
    exact hmirror (by simpa using hnames f hf (by simpa using hmem))
  simp only [frameworkColumnNames, frameworkColumns, List.map_cons, List.map_nil, List.mem_cons,
    List.not_mem_nil, or_false, not_or] at hframework
  unfold StoredRecord.row
  split <;> simp_all

/-- A foreign key leads to a row of the table of the entity a reference refers to. -/
theorem exists_of_foreignKeysHold (hf : f ∈ entity.fields)
    (hkind : f.kind = .reference) {target : String} (hrefers : f.refEntity = some target)
    (hkeys : ForeignKeysHold store entity row) {u : Uuid}
    (hu : row.columns f.name = some (.uuid u)) :
    ∃ referred, (svc.registryFor tenantID).getEntity target = some referred ∧
      ∃ r ∈ (store referred.tableName).records.rows, r.id = u := by
  obtain ⟨schema, hcompile⟩ := hdeployed.compiles tenantID entity hentity
  have hwf := (svc.registryFor tenantID).wellFormed entity hentity
  obtain ⟨schemaName, hschema, hlookup⟩ := lookup_foreignKeys_of_compile hcompile hwf.nodup_names hf
    (hdeployed.columns tenantID entity hentity f hf hkind) hkind hrefers
  obtain ⟨referred, hreferred, htable⟩ :=
    hdeployed.referred tenantID entity hentity f hf hkind target hrefers
  refine ⟨referred, hreferred, ?_⟩
  rw [htable schemaName hschema]
  refine hkeys schema hcompile _ _ hlookup u ?_
  rw [← hu]
  exact row_reference hdeployed hentity hf hkind row

end

/-! ## One row is written -/

/-- The tables after a row is inserted or replaced. -/
structure Puts (store after : Store) (table : String) (row : StoredRecord) : Prop where
  mem : row ∈ (after table).records.rows
  keeps : ∀ t, ∀ r ∈ (store t).records.rows,
    r ∈ (after t).records.rows ∨ (t = table ∧ r.id = row.id)
  cases : ∀ t, ∀ r ∈ (after t).records.rows,
    (t = table ∧ r = row) ∨ (r ∈ (store t).records.rows ∧ (t = table → r.id ≠ row.id))

variable {db : Database} {table : String}

/-- Only the table of the row is another afterwards. -/
theorem puts_update (hmem : row ∈ db.records.rows)
    (hkeeps : ∀ r ∈ (store table).records.rows, r ∈ db.records.rows ∨ r.id = row.id)
    (hcases : ∀ r ∈ db.records.rows, r = row ∨ r ∈ (store table).records.rows ∧ r.id ≠ row.id) :
    Puts store (Function.update store table db) table row := by
  refine ⟨by rwa [Function.update_self], fun t r hr => ?_, fun t r hr => ?_⟩
  · by_cases ht : t = table
    · subst ht
      rw [Function.update_self]
      exact (hkeeps r hr).imp_right fun hid => ⟨rfl, hid⟩
    · rw [Function.update_of_ne ht]
      exact .inl hr
  · by_cases ht : t = table
    · subst ht
      rw [Function.update_self] at hr
      exact (hcases r hr).imp (fun heq => ⟨rfl, heq⟩) fun hold => ⟨hold.1, fun _ => hold.2⟩
    · rw [Function.update_of_ne ht] at hr
      exact .inr ⟨hr, fun h => absurd h ht⟩

theorem puts_insert (hfresh : (store table).records.find row.id = none) :
    Puts store (Function.update store table
      { store table with records := (store table).records.insert row hfresh }) table row := by
  refine puts_update (List.mem_append_right _ (List.mem_singleton.mpr rfl))
    (fun r hr => .inl (List.mem_append_left _ hr)) fun r hr => ?_
  rcases List.mem_append.mp hr with hr | hr
  · exact .inr ⟨hr, KeyedTable.find_eq_none_iff.mp hfresh r hr⟩
  · exact .inl (List.mem_singleton.mp hr)

theorem puts_replace {row replaced : StoredRecord}
    (hfind : (store table).records.find row.id = some replaced)
    (hdb : db.records = (store table).records.replace row) :
    Puts store (Function.update store table db) table row := by
  refine puts_update ?_ (fun r hr => ?_) fun r hr => ?_
  · rw [hdb]
    refine KeyedTable.mem_of_find (k := row.id) ?_
    rw [KeyedTable.find_replace, if_pos rfl, hfind]
    rfl
  · by_cases hid : r.id = row.id
    · exact .inr hid
    · rw [hdb]
      refine .inl (KeyedTable.mem_of_find (k := r.id) ?_)
      rw [KeyedTable.find_replace, if_neg hid, KeyedTable.find_of_mem hr]
  · rw [hdb] at hr
    exact KeyedTable.mem_rows_replace hr

/-! ## The invariant -/

section

variable {svc : Service}

/-- What holds of the tables: the columns are those of the documents, and every reference, as its
column has it, is live and is not overlooked by a guard. -/
structure StoreInv (svc : Service) (store : Store) : Prop where
  columns : ∀ row entity, entity ∈ (svc.registryFor row.tenantID).entities →
    row ∈ (store entity.tableName).records.rows → row.columns = svc.columnsOf entity row.data
  triggers : ∀ row entity, entity ∈ (svc.registryFor row.tenantID).entities →
    row ∈ (store entity.tableName).records.rows → row.deleted = false → TriggersRun entity row
  live : ∀ row entity, entity ∈ (svc.registryFor row.tenantID).entities →
    row ∈ (store entity.tableName).records.rows → row.deleted = false →
    ∀ f ∈ entity.fields, f.kind = .reference → ∀ target, f.refEntity = some target →
      ∀ referred, (svc.registryFor row.tenantID).getEntity target = some referred →
        ∀ u, row.columns f.name = some (.uuid u) →
          (entity.tableName = referred.tableName ∨ u ≠ row.id) ∧
          ∃ r ∈ (store referred.tableName).records.rows,
            r.id = u ∧ r.tenantID = row.tenantID ∧ r.deleted = false

/-- No other live record of the tenant refers to a row. -/
def Unreferenced (svc : Service) (store : Store) (entity : EntityDefinition) (row : StoredRecord) :
    Prop :=
  ∀ other entity', entity' ∈ (svc.registryFor row.tenantID).entities →
    other ∈ (store entity'.tableName).records.rows → other.tenantID = row.tenantID →
    other.deleted = false → (entity'.tableName = entity.tableName → other.id ≠ row.id) →
    ∀ f ∈ entity'.fields, f.kind = .reference → f.refEntity = some entity.name →
      other.columns f.name ≠ some (.uuid row.id)

variable {after : Store} {s : SystemState svc} {entity : EntityDefinition}

theorem tenantID_applyPatch {platform : Platform} (now : ℤ) (row : StoredRecord) (patch : Patch) :
    (applyPatch platform entity now row patch).tenantID = row.tenantID := by
  cases patch <;> rfl

/-- Only a delete prepares a delete. -/
theorem op_of_prepare_delete {platform : Platform} {call : Call}
    {existing : StoredRecord} {actors : Workflow.Actors} {userID : Option Uuid}
    (h : prepare platform entity call existing actors = .ok (.delete userID)) :
    call.op = .delete := by
  unfold prepare at h
  split at h
  · obtain ⟨-, _, _, -, hpatch⟩ := updatePatch_eq_ok h
    cases hpatch
  · obtain ⟨_, _, _, _, -, -, -, -, -, -, -, hpatch⟩ := transitionPatch_eq_ok h
    cases hpatch
  · assumption

section

variable {p : Pending (svc.platform entity) entity} {w : Write (svc.platform entity) entity}
  {seen : Option Store}

/-- The document a call writes gives its references what the call was given. -/
theorem givesLive_written (hnodup : (entity.fields.map EntityField.name).Nodup) {env : CommitEnv}
    {db db' : Database} (hcommit : commit (svc.platform entity) entity db p env = .ok (w, db'))
    (hkeeps : (SystemEvent.committed entity w seen store).KeepsReferences)
    (hlive : w.written.deleted = false) :
    GivesLive svc store entity w.replaced.tenantID w.replaced.id w.written.data.get := by
  cases writeEffect_of_commit hcommit with
  | update rawData data hop hsystem hdata hwritten =>
    simp only [SystemEvent.KeepsReferences, hop] at hkeeps
    rw [hwritten]
    exact hkeeps data hdata
  | transition action payload wf t nextData hop hwf ht hfind hsource hdata hwritten =>
    simp only [SystemEvent.KeepsReferences, hop] at hkeeps
    rw [hwritten, show (Workflow.applySetFields t nextData w.pending.call.ctx.rc).get = _ from
      funext (get_transitioned hnodup hdata _)]
    exact hkeeps wf t.source t hwf hsource hfind
  | delete hop hwritten hcode hstatus hdeleted =>
    rw [hdeleted] at hlive
    cases hlive

theorem seen_of_keepsReferences
    (hkeeps : (SystemEvent.committed entity w seen store).KeepsReferences)
    (hop : w.pending.call.op = .delete) : seen = some store := by
  simpa only [SystemEvent.KeepsReferences, hop] using hkeeps

end

/-- The invariant of the system. -/
structure ReferenceInv (s : SystemState svc) : Prop where
  store : StoreInv svc s.store
  registered : ∀ c ∈ s.calls, c.entity ∈ (svc.registryFor c.pending.tenantID).entities
  guarded : ∀ c ∈ s.calls, ∀ seen hits, c.guarded = some (seen, hits) →
    findReferencingRecords svc.codec c.pending.tenantID c.pending.call.id (answerGuard svc.pg seen)
      (referencingFields (svc.registryFor c.pending.tenantID) c.entity.name) = .ok hits

theorem mem_calls_of_rest {front rest : List (InFlight svc)} {c : InFlight svc}
    (hcalls : s.calls = front ++ c :: rest) : ∀ c' ∈ front ++ rest, c' ∈ s.calls := by
  intro c' hc'
  rw [hcalls]
  rcases List.mem_append.mp hc' with hc' | hc' <;> simp [hc']

theorem ReferenceInv.initial (hempty : ∀ table, (s.store table).records.rows = [])
    (hidle : s.calls = []) : ReferenceInv s := by
  refine ⟨⟨?_, ?_, ?_⟩, by simp [hidle], by simp [hidle]⟩ <;>
  · intro row entity _ hrow
    rw [hempty] at hrow
    cases hrow

section

variable (hdeployed : ReferencesDeployed svc)

include hdeployed

theorem StoreInv.put (h : StoreInv svc store)
    (hentity : entity ∈ (svc.registryFor row.tenantID).entities)
    (hputs : Puts store after entity.tableName row)
    (hcolumns : row.columns = svc.columnsOf entity row.data)
    (htenant : ∀ r ∈ (store entity.tableName).records.rows, r.id = row.id →
      r.tenantID = row.tenantID)
    (hlive : row.deleted = false → TriggersRun entity row ∧ ForeignKeysHold after entity row ∧
      GivesLive svc store entity row.tenantID row.id row.data.get)
    (hdead : row.deleted = true → Unreferenced svc store entity row) : StoreInv svc after := by
  refine ⟨fun r entity' hentity' hr => ?_, fun r entity' hentity' hr hdeleted => ?_, ?_⟩
  · rcases hputs.cases _ r hr with ⟨htable, rfl⟩ | ⟨hold, -⟩
    · rw [eq_of_tableName_eq hdeployed hentity hentity' htable]
      exact hcolumns
    · exact h.columns r entity' hentity' hold
  · rcases hputs.cases _ r hr with ⟨htable, rfl⟩ | ⟨hold, -⟩
    · rw [eq_of_tableName_eq hdeployed hentity hentity' htable]
      exact (hlive hdeleted).1
    · exact h.triggers r entity' hentity' hold hdeleted
  · intro r entity' hentity' hr hdeleted f hf hkind target hrefers referred hreferred u hu
    rcases hputs.cases _ r hr with ⟨htable, rfl⟩ | ⟨hold, hother⟩
    · -- the row that was written: its keys say that the target exists
      obtain rfl := eq_of_tableName_eq hdeployed hentity hentity' htable
      obtain ⟨-, hkeys, hgives⟩ := hlive hdeleted
      have hgiven : referenceValue svc.pg (r.data.get f.name) = some (.uuid u) := by
        rw [← hu, hcolumns, hdeployed.synced _ entity' hentity f hf hkind]
        rfl
      obtain ⟨hown, hall⟩ := hgives f hf hkind target hrefers referred hreferred u hgiven
      obtain ⟨referred', hreferred', x, hx, hxid⟩ :=
        exists_of_foreignKeysHold hdeployed hentity hf hkind hrefers hkeys hu
      cases hreferred.symm.trans hreferred'
      refine ⟨hown, x, hx, hxid, ?_⟩
      rcases hputs.cases _ x hx with ⟨-, rfl⟩ | ⟨hold, -⟩
      · exact ⟨rfl, hdeleted⟩
      · exact hall x hold hxid
    · obtain ⟨hown, x, hx, hxid, hxtenant, hxlive⟩ :=
        h.live r entity' hentity' hold hdeleted f hf hkind target hrefers referred hreferred u hu
      refine ⟨hown, ?_⟩
      rcases hputs.keeps _ x hx with hkept | ⟨htable, hid⟩
      · exact ⟨x, hkept, hxid, hxtenant, hxlive⟩
      · -- the target was written
        have hsame : r.tenantID = row.tenantID := by
          rw [← hxtenant]
          exact htenant x (htable ▸ hx) hid
        cases hrow : row.deleted with
        | false =>
          refine ⟨row, ?_, hid.symm.trans hxid, hsame.symm, hrow⟩
          rw [htable]
          exact hputs.mem
        | true =>
          rw [hsame] at hentity' hreferred
          have heq : referred = entity := eq_of_tableName_eq hdeployed hentity
            (List.mem_of_find?_eq_some hreferred) htable
          rw [← MetadataRegistry.name_of_getEntity hreferred, heq] at hrefers
          rw [← hxid, hid] at hu
          exact absurd hu (hdead hrow r entity' hentity' hold hsame hdeleted hother f hf hkind
            hrefers)

/-- What the guard of a delete says of the tables it read. -/
theorem unreferenced_of_guard (h : StoreInv svc store)
    (hentity : entity ∈ (svc.registryFor row.tenantID).entities)
    (hguard : findReferencingRecords svc.codec row.tenantID row.id (answerGuard svc.pg store)
      (referencingFields (svc.registryFor row.tenantID) entity.name) = .ok []) :
    Unreferenced svc store entity row := by
  intro other entity' hentity' hother htenant hlive hself f hf hkind hrefers hu
  have hget := getEntity_of_mem hdeployed hentity'
  have hid : other.id ≠ row.id := by
    by_cases htable : entity'.tableName = entity.tableName
    · exact hself htable
    · obtain ⟨hown, -⟩ := h.live other entity'
        (htenant ▸ hentity') hother hlive f hf hkind _ hrefers
        entity (htenant ▸ getEntity_of_mem hdeployed hentity) _ hu
      exact fun heq => (hown.resolve_left htable) heq.symm
  refine notRefers_of_guard hguard
    (mem_referencingFields hentity' hf hkind hrefers) ?_ htenant hlive hid ?_
  · simpa [hget] using hother
  · exact (row_reference hdeployed hentity' hf hkind other).trans hu

/-! ## The steps -/

theorem ReferenceInv.commit (h : ReferenceInv s) {front rest : List (InFlight svc)}
    {c : InFlight svc} {env : CommitEnv} {w : Write (svc.platform c.entity) c.entity}
    (hcalls : s.calls = front ++ c :: rest)
    (hguard : c.pending.call.op = .delete → c.guarded.map Prod.snd = some env.referencing)
    (hcommit : Crud.commit (svc.platform c.entity) c.entity (s.store c.entity.tableName) c.pending
      env = .ok (w, db)) (hafter : after = Function.update s.store c.entity.tableName db)
    (hconstraints : w.written.deleted = false →
      TriggersRun c.entity w.written ∧ ForeignKeysHold after c.entity w.written)
    (hkeeps : (SystemEvent.committed c.entity w (c.guarded.map Prod.fst) s.store).KeepsReferences) :
    ReferenceInv { store := after, calls := front ++ rest } := by
  subst hafter
  have hc : c ∈ s.calls := by simp [hcalls]
  refine ⟨?_, fun c' hc' => h.registered c' (mem_calls_of_rest hcalls c' hc'),
    fun c' hc' => h.guarded c' (mem_calls_of_rest hcalls c' hc')⟩
  obtain ⟨hfind, ⟨htenant, -⟩, -, hpending, -, hwritten, hdb⟩ := commit_eq_ok hcommit
  have hid : w.written.id = w.replaced.id := by rw [hwritten, id_applyPatch]
  have hkey := KeyedTable.key_of_find hfind
  have htenant' : w.written.tenantID = c.pending.tenantID := by
    rw [hwritten, tenantID_applyPatch, htenant]
  have hentity : c.entity ∈ (svc.registryFor w.written.tenantID).entities := by
    rw [htenant']
    exact h.registered c hc
  have hreplacedFind : (s.store c.entity.tableName).records.find w.written.id =
      some w.replaced := by
    rw [hid, hkey]
    exact hfind
  refine h.store.put hdeployed hentity (puts_replace hreplacedFind (by rw [hdb])) ?_
    (fun r hr hrid => ?_) (fun hlive => ?_) fun hdead => ?_
  · rw [hwritten]
    cases c.pending.patch with
    | delete userID =>
      refine h.store.columns w.replaced c.entity ?_ (KeyedTable.mem_of_find hfind)
      rw [htenant]
      exact h.registered c hc
    | update | transition => rfl
  · have hsame : some r = some w.replaced := by
      rw [← KeyedTable.find_of_mem hr, hrid, hreplacedFind]
    rw [Option.some.inj hsame, htenant', htenant]
  · refine ⟨(hconstraints hlive).1, (hconstraints hlive).2, ?_⟩
    have hwf := (svc.registryFor c.pending.tenantID).wellFormed c.entity (h.registered c hc)
    rw [htenant', ← htenant, hid]
    exact givesLive_written hwf.nodup_names hcommit hkeeps hlive
  · rw [hwritten] at hdead
    cases hdelete : c.pending.patch with
    | delete userID =>
      -- what the guard found it found in these tables, and it found nothing
      have hprepared := c.pending.prepared
      rw [hdelete] at hprepared
      have hop := op_of_prepare_delete hprepared
      have hhits := hguard hop
      have hstore := seen_of_keepsReferences hkeeps (hpending ▸ hop)
      rw [unreferenced_of_commit hcommit hdelete] at hhits
      cases hguarded : c.guarded with
      | none =>
        rw [hguarded] at hhits
        cases hhits
      | some found =>
        rw [hguarded] at hhits hstore
        have hfound := h.guarded c hc found.1 found.2 hguarded
        rw [Option.some.inj hstore, Option.some.inj hhits, ← htenant', ← hkey, ← hid] at hfound
        exact unreferenced_of_guard hdeployed h.store hentity hfound
    | update | transition =>
      rw [hdelete] at hdead
      cases (commit_eq_ok hcommit).2.1.2.symm.trans hdead

theorem ReferenceInv.step {s' : SystemState svc} {e : SystemEvent svc} (hkeeps : e.KeepsReferences)
    (hstep : SystemStep svc s e s') (h : ReferenceInv s) : ReferenceInv s' := by
  cases hstep with
  | create entity ctx rawData newID now hentity hrow hunique hfresh hafter htriggers hkeys =>
    subst hafter
    obtain ⟨-, -, data, hdata, hdocument, -, -, hcolumns, -, hlive⟩ := createRow_spec hrow
    refine ⟨h.store.put hdeployed hentity (puts_insert hfresh) hcolumns (fun r hr hid => ?_)
      (fun _ => ⟨htriggers, hkeys, hdocument ▸ hkeeps data hdata⟩) fun hdead => ?_, h.registered,
      h.guarded⟩
    · exact absurd hid (KeyedTable.find_eq_none_iff.mp hfresh r hr)
    · rw [hlive] at hdead
      cases hdead
  | load entity call hentity hload =>
    exact ⟨h.store, List.forall_mem_cons.mpr ⟨hentity, h.registered⟩,
      List.forall_mem_cons.mpr ⟨nofun, h.guarded⟩⟩
  | guard front rest c hcalls hop hhits =>
    have hregistered := h.registered
    have hguarded := h.guarded
    rw [hcalls] at hregistered hguarded
    simp only [List.forall_mem_append, List.forall_mem_cons] at hregistered hguarded
    refine ⟨h.store, ?_, ?_⟩
    · simp only [List.forall_mem_append, List.forall_mem_cons]
      exact hregistered
    · simp only [List.forall_mem_append, List.forall_mem_cons]
      refine ⟨hguarded.1, fun seen hits' heq => ?_, hguarded.2.2⟩
      cases heq
      exact hhits
  | commit front rest c env hcalls hguard hcommit hafter hconstraints =>
    exact h.commit hdeployed hcalls hguard hcommit hafter hconstraints hkeeps
  | fail front rest c hcalls =>
    exact ⟨h.store, fun c' hc' => h.registered c' (mem_calls_of_rest hcalls c' hc'),
      fun c' hc' => h.guarded c' (mem_calls_of_rest hcalls c' hc')⟩

/-- In tables where the references hold as their columns have them, they hold as the documents have
them. -/
theorem referencesLive_of_inv (h : StoreInv svc store) : ReferencesLive svc store := by
  intro row entity hentity hrow hlive f hf hkind target hrefers v hv hnull
  have hcast : row.columns f.name = castOp svc.pg .uuid (jsonText v) := by
    rw [h.columns row entity hentity hrow, hdeployed.synced _ entity hentity f hf hkind,
      referenceColumn, hv]
    rfl
  have hsome := h.triggers row entity hentity hrow hlive f hf
    (hdeployed.columns _ entity hentity f hf hkind)
  have htext : ∃ text, jsonText v = .text text := by
    cases v with
    | null => exact absurd rfl hnull
    | str | num | bool | arr | obj => exact ⟨_, rfl⟩
  obtain ⟨text, htext⟩ := htext
  have huuid : castOp svc.pg .uuid (jsonText v) = (svc.pg.uuidIn text).map .uuid := by
    rw [htext]
    rfl
  rw [hcast, huuid, Option.isSome_map] at hsome
  obtain ⟨u, hu⟩ := Option.isSome_iff_exists.mp hsome
  have hvalue : castOp svc.pg .uuid (jsonText v) = some (.uuid u) := by
    rw [huuid, hu]
    rfl
  obtain ⟨referred, hreferred, -⟩ :=
    hdeployed.referred _ entity hentity f hf hkind target hrefers
  obtain ⟨-, r, hr⟩ := h.live row entity hentity hrow hlive f hf hkind target hrefers referred
    hreferred u (hcast.trans hvalue)
  exact ⟨u, hvalue, referred, hreferred, r, hr⟩

end

/-- In every run from empty tables that meets the condition, every reference is live. -/
theorem references_live (hdeployed : ReferencesDeployed svc) {s₀ s : SystemState svc}
    {events : List (SystemEvent svc)} (hempty : ∀ table, (s₀.store table).records.rows = [])
    (hidle : s₀.calls = []) (hrun : Run (SystemStep svc) s₀ events s)
    (hkeeps : ∀ e ∈ events, e.KeepsReferences) : ReferencesLive svc s.store := by
  have hinv := hrun.invariant (I := ReferenceInv) (C := SystemEvent.KeepsReferences svc)
    (fun _ _ _ hC hstep h => h.step hdeployed hC hstep) hkeeps (.initial hempty hidle)
  exact referencesLive_of_inv hdeployed hinv.store

end

/-! ## Orders of customers -/

def customerEntity : EntityDefinition where
  name := "crm.customers"
  tableName := "entities.crm_customers"
  fields := [{ name := "label", kind := .string }]

def customerField : EntityField where
  name := "customer"
  kind := .reference
  refEntity := some "crm.customers"

def orderEntity : EntityDefinition where
  name := "crm.orders"
  tableName := "entities.crm_orders"
  fields := [customerField]

theorem validate_shop : ∀ e ∈ [customerEntity, orderEntity], validate e = [] := by decide

def shopRegistry : MetadataRegistry :=
  ⟨[customerEntity, orderEntity], fun e he => wellFormed_of_validate (validate_shop e he)⟩

def shopBackend : Backend := { (default : Backend) with uuidIn := UuidCodec.hex.parse }

def shopService : Service where
  codec := .hex
  printer := { formatG := fun _ => "", marshal := fun _ => "" }
  pg := shopBackend
  readCursor := fun _ => none
  formatTime := fun _ => ""
  quote := id
  registryFor := fun _ => shopRegistry
  policiesFor := fun _ _ => []
  columnsOf := fun entity data name =>
    if entity.name = "crm.orders" ∧ name = "customer" then referenceColumn shopBackend data name
    else none
  violates := fun _ _ _ => none

/-- The only reference is that of an order to its customer. -/
theorem shop_reference {entity : EntityDefinition} (hentity : entity ∈ shopRegistry.entities)
    {f : EntityField} (hf : f ∈ entity.fields) (hkind : f.kind = .reference) :
    entity = orderEntity ∧ f = customerField := by
  simp only [shopRegistry, List.mem_cons, List.not_mem_nil, or_false] at hentity
  rcases hentity with rfl | rfl
  · cases List.mem_singleton.mp hf
    cases hkind
  · exact ⟨rfl, List.mem_singleton.mp hf⟩

theorem shop_deployed : ReferencesDeployed shopService where
  names := fun _ => (by decide : (shopRegistry.entities.map EntityDefinition.name).Nodup)
  tables := fun _ => (by decide : (shopRegistry.entities.map EntityDefinition.tableName).Nodup)
  compiles := by
    intro _ entity hentity
    simp only [shopService, shopRegistry, List.mem_cons, List.not_mem_nil, or_false] at hentity
    rcases hentity with rfl | rfl
    · exact ⟨_, rfl⟩
    · exact ⟨_, rfl⟩
  columns := fun _ => (by decide : ∀ entity ∈ shopRegistry.entities, ∀ f ∈ entity.fields,
    f.kind = .reference → compilesColumn f = true)
  referred := by
    intro _ entity hentity f hf hkind target hrefers
    obtain ⟨rfl, rfl⟩ := shop_reference hentity hf hkind
    cases hrefers
    refine ⟨customerEntity, rfl, ?_⟩
    rintro schemaName ⟨⟩
    rfl
  synced := by
    intro _ entity hentity f hf hkind data
    obtain ⟨rfl, rfl⟩ := shop_reference hentity hf hkind
    rfl

/-- An administrator of tenant 2. -/
def shopAdmin : CallContext where
  rc := { tenantID := UuidCodec.hex.format 2, roles := some ["admin"], hasRoles := true }
  policies := []
  registry := shopRegistry
  related := fun _ _ => none

def customer (id : Uuid) : StoredRecord where
  id := id
  tenantID := 2
  columns := shopService.columnsOf customerEntity []

def orderOf (customerID : Uuid) : JsonObject :=
  [("customer", .str (UuidCodec.hex.format customerID))]

def order (id customerID : Uuid) : StoredRecord where
  id := id
  tenantID := 2
  data := orderOf customerID
  columns := shopService.columnsOf orderEntity (orderOf customerID)

theorem triggersRun_customer (row : StoredRecord) : TriggersRun customerEntity row := by
  intro f hf hcompiles
  cases List.mem_singleton.mp hf
  cases hcompiles

theorem foreignKeysHold_customer (store : Store) (row : StoredRecord) :
    ForeignKeysHold store customerEntity row := by
  intro schema hcompile name key hlookup
  obtain ⟨-, -, f, hf, target, htarget, -⟩ := of_lookup_foreignKeys hcompile hlookup
  cases List.mem_singleton.mp hf
  cases htarget

theorem triggersRun_order (h : (row.columns "customer").isSome) : TriggersRun orderEntity row := by
  intro f hf hcompiles
  cases List.mem_singleton.mp hf
  exact h

theorem foreignKeysHold_order {row r : StoredRecord}
    (hr : r ∈ (store "entities.crm_customers").records.rows)
    (h : row.columns "customer" = some (.uuid r.id)) : ForeignKeysHold store orderEntity row := by
  intro schema hcompile name key hlookup u hu
  obtain ⟨schemaName, hschema, f, hf, target, htarget, rfl⟩ :=
    of_lookup_foreignKeys hcompile hlookup
  cases hschema
  cases List.mem_singleton.mp hf
  cases htarget
  cases h.symm.trans hu
  exact ⟨r, hr, rfl⟩

theorem referencing_customers : referencingFields shopRegistry "crm.customers" =
    [{ refEntity := "crm.orders", refField := "customer", refTable := "entities.crm_orders"
       hasRealColumn := true }] := by
  unfold referencingFields
  rw [List.mergeSort_of_pairwise (by decide)]
  rfl

/-- The tables with one customer and some orders. -/
def shopStore (record : StoredRecord) (orders : KeyedTable StoredRecord.id) : Store := fun table =>
  if table = "entities.crm_customers" then { records := KeyedTable.empty.insert record rfl }
  else if table = "entities.crm_orders" then { records := orders }
  else { records := .empty }

def shopStart : SystemState shopService := { store := fun _ => { records := .empty } }

def noOrders : KeyedTable StoredRecord.id := .empty

def oneOrder : KeyedTable StoredRecord.id := noOrders.insert (order 5 1) rfl

/-- A delete of customer 1 that has been loaded. -/
def deletion : Pending (shopService.platform customerEntity) customerEntity where
  call := { ctx := shopAdmin, id := 1, expectedVersion := 1, op := .delete }
  tenantID := 2
  base := customer 1
  actors := []
  patch := .delete none
  prepared := rfl

def deletedCustomer : StoredRecord :=
  { customer 1 with deleted := true, version := 2, updatedAt := 1 }

theorem step_createCustomer : SystemStep shopService shopStart
    (.created customerEntity [] (customer 1) shopStart.store)
    { store := shopStore (customer 1) noOrders } := by
  refine .create customerEntity shopAdmin [] 1 0 List.mem_cons_self rfl rfl rfl
    (funext fun table => ?_) (triggersRun_customer _) (foreignKeysHold_customer _ _)
  rw [Function.update_apply]
  show shopStore _ _ table = if table = "entities.crm_customers" then _ else _
  unfold shopStore
  split_ifs <;> rfl

theorem guard_finds_nothing : findReferencingRecords shopService.codec 2 1
    (answerGuard shopBackend (shopStore (customer 1) noOrders))
    (referencingFields shopRegistry "crm.customers") = .ok [] := by
  rw [referencing_customers, findReferencingRecords, guardTables]
  simp only [List.map_cons, List.map_nil, List.dedup_cons_of_notMem, List.not_mem_nil,
    not_false_eq_true, List.dedup_nil, List.mergeSort_singleton]
  decide +kernel

/-- The order may be created whether or not the customer is deleted. -/
theorem step_createOrder (s : SystemState shopService) {record : StoredRecord} (hid : record.id = 1)
    (h : s.store = shopStore record noOrders) : SystemStep shopService s
      (.created orderEntity (orderOf 1) (order 5 1) s.store)
      { s with store := shopStore record oneOrder } := by
  obtain ⟨store, calls⟩ := s
  subst h
  refine .create orderEntity shopAdmin (orderOf 1) 5 0 (List.mem_cons_of_mem _ List.mem_cons_self)
    rfl rfl rfl (funext fun table => ?_) (triggersRun_order rfl)
    (foreignKeysHold_order (r := record) (List.mem_singleton.mpr rfl) ?_)
  · rw [Function.update_apply]
    show shopStore _ _ table = if table = "entities.crm_orders" then _ else shopStore _ _ table
    unfold shopStore
    split_ifs <;> first | rfl | simp_all
  · rw [hid]
    rfl

/-- The delete after its guard, which has seen no order. -/
def guardedDeletion : InFlight shopService where
  entity := customerEntity
  pending := deletion
  guarded := some (shopStore (customer 1) noOrders, [])

theorem step_delete : ∃ e s', SystemStep shopService
    { store := shopStore (customer 1) noOrders, calls := [guardedDeletion] } e s' ∧
      s'.store = shopStore deletedCustomer noOrders := by
  refine ⟨_, _, .commit [] [] _ commitEnv rfl (fun _ => rfl) rfl (funext fun table => ?_) nofun,
    rfl⟩
  rw [Function.update_apply]
  show shopStore _ _ table = if table = "entities.crm_customers" then _ else shopStore _ _ table
  unfold shopStore
  split_ifs <;> rfl

theorem not_referencesLive : ¬ReferencesLive shopService (shopStore deletedCustomer oneOrder) := by
  intro h
  obtain ⟨u, -, referred, hreferred, r, hr, -, -, hlive⟩ := h (order 5 1) orderEntity
    (List.mem_cons_of_mem _ List.mem_cons_self) (List.mem_singleton.mpr rfl) rfl customerField
    List.mem_cons_self rfl _ rfl _ rfl (by decide)
  cases hreferred
  rw [List.mem_singleton.mp hr] at hlive
  cases hlive

/-- An order of a live customer. -/
theorem references_live_ordered : ReferencesDeployed shopService ∧
    ∃ events s, Run (SystemStep shopService) shopStart events s ∧
      (∀ e ∈ events, e.KeepsReferences) ∧ order 5 1 ∈ (s.store "entities.crm_orders").records.rows ∧
      ReferencesLive shopService s.store := by
  have hcustomer : (SystemEvent.created customerEntity [] (customer 1) shopStart.store :
      SystemEvent shopService).KeepsReferences := by
    intro data _ f hf hkind
    cases List.mem_singleton.mp hf
    cases hkind
  have horder : (SystemEvent.created orderEntity (orderOf 1) (order 5 1)
      (shopStore (customer 1) noOrders) : SystemEvent shopService).KeepsReferences := by
    rintro data ⟨⟩ f hf hkind target hrefers referred hreferred u hu
    cases List.mem_singleton.mp hf
    cases hrefers
    cases hreferred
    have hone : referenceColumn shopBackend (orderOf 1) "customer" = some (.uuid 1) := by decide
    cases hone.symm.trans hu
    refine ⟨.inr (by decide), fun r hr _ => ?_⟩
    rw [List.mem_singleton.mp hr]
    exact ⟨rfl, rfl⟩
  have hrun : ∃ events s, Run (SystemStep shopService) shopStart events s ∧
      (∀ e ∈ events, e.KeepsReferences) ∧
      order 5 1 ∈ (s.store "entities.crm_orders").records.rows := by
    refine ⟨_, _, .snoc (.snoc (.nil _) step_createCustomer) (step_createOrder _ rfl rfl), ?_,
      List.mem_singleton.mpr rfl⟩
    intro e he
    simp only [List.nil_append, List.cons_append, List.mem_cons, List.not_mem_nil, or_false] at he
    rcases he with rfl | rfl
    · exact hcustomer
    · exact horder
  obtain ⟨events, s, hrun, hkeeps, hmem⟩ := hrun
  exact ⟨shop_deployed, events, s, hrun, hkeeps, hmem,
    references_live shop_deployed (fun _ => rfl) rfl hrun hkeeps⟩

/-- A customer is deleted, and then an order of the customer is created. -/
theorem reference_to_deleted_record : (∀ e ∈ shopRegistry.entities, validate e = []) ∧
    ReferencesDeployed shopService ∧ ∃ events s, Run (SystemStep shopService) shopStart events s ∧
      order 5 1 ∈ (s.store "entities.crm_orders").records.rows ∧
      ¬ReferencesLive shopService s.store := by
  obtain ⟨e, s, hdelete, hstore⟩ := step_delete
  refine ⟨validate_shop, shop_deployed, _, _, .snoc (.snoc (.snoc (.snoc (.snoc (.nil _)
    step_createCustomer)
      (.load (p := deletion) customerEntity deletion.call List.mem_cons_self rfl))
    (.guard [] [] _ rfl rfl guard_finds_nothing)) hdelete)
    (step_createOrder s rfl hstore), List.mem_singleton.mpr rfl, not_referencesLive⟩

end Metap.Crud
