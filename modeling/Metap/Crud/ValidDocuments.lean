import Metap.Crud.MirrorColumns

/-!
# Valid documents

Validation happens in the middle of each path.  After it a create and an update fill in computed
fields, a create fills in the initial state, and a transition writes its declared fields; none of
that is validated again.  So a computed text may be too long, the initial state may not be a value
of its field, and a transition may null a required field (`set_fields_null_required`).

`documents_valid_iff` says exactly when every document a sequence commits is valid: the texts have
the lengths their fields ask for, and what is written after validation fits its field.
-/

namespace Metap.Crud

open Transition

section

variable (codec : UuidCodec)

/-- Validation has no complaint about the value of a field, and it is in canonical form. -/
def FitsField (f : EntityField) (raw : Option Json) : Prop :=
  errorsOfField codec f raw = [] ∧ raw.map (canonicalValue codec f) = raw

/-- The document passes validation, which changes none of its members. -/
def ValidDocument (entity : EntityDefinition) (data : JsonObject) : Prop :=
  ∃ canonical, validatePayload codec entity data = .ok canonical ∧
    ∀ k, canonical.get k = data.get k

/-- A text has a length its field allows. -/
def FitsLength (f : EntityField) (text : String) : Prop :=
  (∀ m ∈ f.minLength, m ≤ text.length) ∧ ∀ m ∈ f.maxLength, text.length ≤ m

end

section

variable {codec : UuidCodec} {entity : EntityDefinition} {data : JsonObject}

theorem validatePayload_isOk_iff :
    (∃ canonical, validatePayload codec entity data = .ok canonical) ↔
      ∀ f ∈ entity.fields, errorsOfField codec f (data.get f.name) = [] := by
  unfold validatePayload
  constructor
  · rintro ⟨canonical, h⟩ f hf
    dsimp only at h
    split at h
    · next herrs =>
      have hnone := List.filterMap_eq_nil_iff.mp (List.isEmpty_iff.mp herrs) f hf
      split at hnone
      · assumption
      · cases hnone
    · cases h
  · intro h
    refine ⟨_, if_pos (List.isEmpty_iff.mpr (List.filterMap_eq_nil_iff.mpr fun f hf => ?_))⟩
    rw [h f hf]

variable {f : EntityField} {canonical : JsonObject}

/-- Validation has no complaint about what it has put into canonical form. -/
theorem errorsOfField_canonicalValue {raw : Option Json} (h : errorsOfField codec f raw = []) :
    errorsOfField codec f (raw.map (canonicalValue codec f)) = [] := by
  cases raw with
  | none => exact h
  | some v =>
    rw [Option.map_some]
    rcases canonicalValue_cases codec f v with hsame | ⟨hkind, u, hcanonical⟩
    · rwa [hsame]
    · rw [hcanonical]
      simp [errorsOfField, hasFieldType, kindMatches, boundErrors, hkind, Json.decodeString]

section

variable (hnodup : (entity.fields.map EntityField.name).Nodup)

include hnodup

theorem get_canonical (h : validatePayload codec entity data = .ok canonical)
    (hf : f ∈ entity.fields) :
    canonical.get f.name = (data.get f.name).map (canonicalValue codec f) := by
  rw [get_of_validatePayload hnodup h]
  congr 1
  funext raw
  rw [canonicalMember, EntityDefinition.field?_eq_some hnodup hf]

/-- What validation returns fits. -/
theorem fitsField_of_validatePayload (h : validatePayload codec entity data = .ok canonical)
    (hf : f ∈ entity.fields) : FitsField codec f (canonical.get f.name) := by
  rw [get_canonical hnodup h hf]
  refine ⟨errorsOfField_canonicalValue (validatePayload_isOk_iff.mp ⟨_, h⟩ f hf), ?_⟩
  rw [Option.map_map]
  congr 1
  funext raw
  exact canonicalValue_idem codec f raw

theorem validDocument_iff :
    ValidDocument codec entity data ↔ ∀ f ∈ entity.fields, FitsField codec f (data.get f.name) := by
  constructor
  · rintro ⟨canonical, hok, hsame⟩ f hf
    rw [← hsame]
    exact fitsField_of_validatePayload hnodup hok hf
  · intro h
    obtain ⟨canonical, hok⟩ := validatePayload_isOk_iff.mpr fun f hf => (h f hf).1
    refine ⟨canonical, hok, fun k => ?_⟩
    cases hfield : entity.field? k with
    | some f =>
      obtain ⟨hf, rfl⟩ := EntityDefinition.mem_of_field?_eq_some hfield
      rw [get_canonical hnodup hok hf, (h f hf).2]
    | none =>
      rw [get_of_validatePayload hnodup hok]
      unfold canonicalMember
      rw [hfield]
      simp

end

/-- Validation is a normal form: what it returns passes again unchanged, and differs from what it
was given at references only, each now in the canonical form of the same identifier. -/
theorem validatePayload_normal_form (codec : UuidCodec) (entity : EntityDefinition)
    (hnodup : (entity.fields.map EntityField.name).Nodup) (data canonical : JsonObject)
    (h : validatePayload codec entity data = .ok canonical) :
    ValidDocument codec entity canonical ∧
    ∀ k, canonical.get k = data.get k ∨
      ∃ f ∈ entity.fields, f.name = k ∧ f.kind = .reference ∧
        ∃ raw u, data.get k = some raw ∧ raw.decodeString.bind codec.parse = some u ∧
          canonical.get k = some (.str (codec.format u)) := by
  refine ⟨(validDocument_iff hnodup).mpr fun f hf => fitsField_of_validatePayload hnodup h hf,
    fun k => ?_⟩
  have hget := get_of_validatePayload hnodup h k
  cases hdata : data.get k with
  | none => exact .inl (by rw [hget, hdata, Option.map_none])
  | some raw =>
    rw [hdata, Option.map_some] at hget
    rw [hget]
    unfold canonicalMember canonicalValue
    -- a member is respelled only if it belongs to a reference that parses
    split
    · next f hfield =>
      obtain ⟨hf, hname⟩ := EntityDefinition.mem_of_field?_eq_some hfield
      split
      · next hreference =>
        split
        · next u hparse => exact .inr ⟨f, hf, hname, hreference.1, raw, u, rfl, hparse, rfl⟩
        · exact .inl rfl
      · exact .inl rfl
    · exact .inl rfl

def ownedEntity : EntityDefinition where
  name := "crm.people"
  tableName := "crm.people"
  fields := [{ name := "owner", kind := .reference }]

/-- An identifier without hyphens. -/
def plainOwner : JsonObject := [("owner", .str "00000000000000000000000000000001")]

theorem validatePayload_normal_form_owner :
    ∃ canonical, validatePayload .dashed ownedEntity plainOwner = .ok canonical ∧
      canonical.get "owner" = some (.str "00000000-0000-0000-0000-000000000001") ∧
      ValidDocument .dashed ownedEntity canonical := by
  have hok : validatePayload .dashed ownedEntity plainOwner =
      .ok [("owner", .str "00000000-0000-0000-0000-000000000001")] := by rfl
  exact ⟨_, hok, rfl,
    (validatePayload_normal_form .dashed ownedEntity (by decide) plainOwner _ hok).1⟩

/-- Where one name is declared twice, what is written for the reference may be too long for the
text, and does not pass again. -/
theorem twofold_field_not_normal :
    ∃ canonical,
      let twofold := { ownedEntity with
        fields := ownedEntity.fields ++
          [{ name := "owner", kind := .string, maxLength := some 32 }] }
      validatePayload .dashed twofold plainOwner = .ok canonical ∧
        validatePayload .dashed twofold canonical = .error [("owner", ["max_length"])] :=
  ⟨_, rfl, rfl⟩

theorem fitsField_str_iff (hkind : f.kind = .string) {text : String} :
    FitsField codec f (some (.str text)) ↔ FitsLength f text := by
  have hcanonical : canonicalValue codec f (.str text) = .str text := by
    simp [canonicalValue, hkind]
  rw [FitsField, FitsLength, Option.map_some, hcanonical]
  cases hmin : f.minLength <;> cases hmax : f.maxLength <;>
    simp [errorsOfField, hasFieldType, kindMatches, boundErrors, hkind, Json.decodeString, hmin,
      hmax]

end

/-! ## What each step commits -/

section

/-- The texts computed from a payload that validates have lengths their fields allow. -/
def TextsFit (platform : Platform) (entity : EntityDefinition) (raw : JsonObject) : Prop :=
  ∀ data, validatePayload platform.codec entity raw = .ok data →
    ∀ f ∈ entity.fields, ∀ c ∈ f.computed, FitsLength f (computedText platform.printer c data)

variable {platform : Platform} {entity : EntityDefinition}

/-- What a step adds after validation fits: the texts computed from what was validated, the initial
state, and the values a transition sets. -/
def SequenceEvent.FitsAfter : SequenceEvent platform entity → Prop
  | .created rawData _ => TextsFit platform entity rawData ∧
      ∀ w ∈ entity.workflow, rawData.get w.stateField = none →
        ∀ f ∈ entity.fields, f.name = w.stateField → f.computed = none →
          FitsField platform.codec f (some (.str w.initialState))
  | .wrote w =>
    match w.pending.call.op with
    | .update rawData => TextsFit platform entity
        (keepState entity w.replaced.data (w.replaced.data.merge rawData))
    | .transition action _ => ∀ wf ∈ entity.workflow, ∀ source t,
        (w.replaced.data.get wf.stateField).bind Json.decodeString = some source →
        Workflow.findTransition entity action source = some t →
        ∀ f ∈ entity.fields, ∀ v, (setValues t w.pending.call.ctx.rc).get f.name = some v →
          FitsField platform.codec f (some v)
    | .delete => True
  | .system _ _ => True

variable {w : Write platform entity} {f : EntityField} {e : SequenceEvent platform entity}

/-- It is enough that every transition of the action sets values that fit. -/
theorem fitsAfter_of_transition {action : String}
    {payload : Option JsonObject} (hop : w.pending.call.op = .transition action payload)
    (hset : ∀ wf ∈ entity.workflow, ∀ t ∈ wf.transitions, t.action = action →
      ∀ f ∈ entity.fields, ∀ v, (setValues t w.pending.call.ctx.rc).get f.name = some v →
        FitsField platform.codec f (some v)) : (SequenceEvent.wrote w).FitsAfter := by
  rw [SequenceEvent.FitsAfter, hop]
  rintro - - source t - hfind
  obtain ⟨wf, hwf, ht, haction, -⟩ := Workflow.findTransition_eq_some hfind
  exact hset wf hwf t ht haction

/-- The row a step leaves. -/
def SequenceEvent.row : SequenceEvent platform entity → StoredRecord
  | .created _ row => row
  | .wrote w => w.written
  | .system patch row => withSystemFields platform row patch

theorem get_recomputeFields_plain (hwf : entity.WellFormed) {printer : Printer} (data : JsonObject)
    (hf : f ∈ entity.fields) (hc : f.computed = none) :
    (recomputeFields printer entity data).get f.name = data.get f.name := by
  refine get_recomputeFields_of_not_computed (fun g hg hname => ?_) data
  rw [List.inj_on_of_nodup_map hwf.nodup_names hg hf hname, hc]

variable {row : StoredRecord}

section

variable (h : validate entity = [])

include h

/-- A document whose other fields fit is valid exactly when its computed texts fit. -/
theorem validDocument_iff_textsFit {raw validated data : JsonObject}
    (hvalidated : validatePayload platform.codec entity raw = .ok validated)
    (hcomputed : ∀ f ∈ entity.fields, ∀ c ∈ f.computed,
      data.get f.name = some (.str (computedText platform.printer c validated)))
    (hplain : ∀ f ∈ entity.fields, f.computed = none →
      FitsField platform.codec f (data.get f.name)) :
    ValidDocument platform.codec entity data ↔ TextsFit platform entity raw := by
  rw [validDocument_iff (wellFormed_of_validate h).nodup_names]
  constructor
  · intro hfits data' hdata' f hf c hc
    cases hvalidated.symm.trans hdata'
    have hfit := hfits f hf
    rw [hcomputed f hf c hc] at hfit
    exact (fitsField_str_iff (computed_of_validate h hf hc).1).mp hfit
  · intro htexts f hf
    cases hc : f.computed with
    | none => exact hplain f hf hc
    | some c =>
      rw [hcomputed f hf c hc, fitsField_str_iff (computed_of_validate h hf hc).1]
      exact htexts validated hvalidated f hf c hc

theorem valid_created_iff {ctx : CallContext} {rawData : JsonObject} {newID : Uuid} {now : ℤ}
    (hrow : createRow platform entity ctx rawData newID now = .ok row) :
    ValidDocument platform.codec entity row.data ↔
      (SequenceEvent.created rawData row : SequenceEvent platform entity).FitsAfter := by
  have hwf := wellFormed_of_validate h
  obtain ⟨-, -, data, hdata, hrow, -⟩ := createRow_spec hrow
  have hcomputed : ∀ f ∈ entity.fields, ∀ c ∈ f.computed,
      row.data.get f.name = some (.str (computedText platform.printer c data)) := by
    intro f hf c hc
    rw [hrow, get_initState, recomputeFields, (get_foldl_of_perm h (.refl _) data).1 f hf c hc,
      Option.some_or]
  have hplain : ∀ f ∈ entity.fields, f.computed = none →
      row.data.get f.name = (data.get f.name).or (entity.workflow.bind fun w =>
        if f.name = w.stateField then some (.str w.initialState) else none) := by
    intro f hf hc
    rw [hrow, get_initState, get_recomputeFields_plain hwf data hf hc]
  have hinitial : ∀ w ∈ entity.workflow, rawData.get w.stateField = none →
      ∀ f ∈ entity.fields, f.name = w.stateField → f.computed = none →
        row.data.get f.name = some (.str w.initialState) := by
    intro w hw hnone f hf hname hc
    rw [hplain f hf hc, get_of_validatePayload hwf.nodup_names hdata, hname, hnone,
      Option.mem_def.mp hw]
    simp
  constructor
  · intro hvalid
    have hfits := (validDocument_iff hwf.nodup_names).mp hvalid
    refine ⟨(validDocument_iff_textsFit h hdata hcomputed fun f hf _ => hfits f hf).mp hvalid,
      fun w hw hnone f hf hname hc => ?_⟩
    rw [← hinitial w hw hnone f hf hname hc]
    exact hfits f hf
  · rintro ⟨hfit, hstate⟩
    refine (validDocument_iff_textsFit h hdata hcomputed fun f hf hc => ?_).mpr hfit
    have hfits := fitsField_of_validatePayload hwf.nodup_names hdata hf
    rw [hplain f hf hc]
    cases hget : data.get f.name with
    | some v =>
      rw [Option.some_or, ← hget]
      exact hfits
    | none =>
      -- the state is the only member that is filled in, and only when it is omitted
      cases hw : entity.workflow with
      | none => simpa [hget] using hfits
      | some w =>
        by_cases hname : f.name = w.stateField
        · have hnone : rawData.get w.stateField = none := by
            rw [get_of_validatePayload hwf.nodup_names hdata, Option.map_eq_none_iff, hname] at hget
            exact hget
          simpa [hname] using hstate w hw hnone f hf hname hc
        · simpa [hname, hget] using hfits

theorem valid_written_iff (heffect : WriteEffect w w.replaced.data)
    (hreplaced : ValidDocument platform.codec entity w.replaced.data) :
    ValidDocument platform.codec entity w.written.data ↔ (SequenceEvent.wrote w).FitsAfter := by
  have hwf := wellFormed_of_validate h
  have hold := (validDocument_iff hwf.nodup_names).mp hreplaced
  cases heffect with
  | update rawData data hop hsystem hdata hwritten =>
    rw [SequenceEvent.FitsAfter, hop]
    refine validDocument_iff_textsFit h hdata (fun f hf c hc => ?_) fun f hf hc => ?_
    · have hsys : f.name ∉ systemFieldNames entity := by
        intro hmem
        rw [computed_eq_none_of_system h hmem f hf rfl] at hc
        cases hc
      rw [hwritten, get_keepSystemFields, if_neg hsys]
      exact (get_foldl_of_perm h (.refl _) data).1 f hf c hc
    · rw [hwritten, get_keepSystemFields]
      split
      · exact hold f hf
      · rw [get_recomputeFields_plain hwf data hf hc]
        exact fitsField_of_validatePayload hwf.nodup_names hdata hf
  | transition action payload wf t nextData hop hwf' ht hfind hsource hdata hwritten =>
    rw [SequenceEvent.FitsAfter, hop, validDocument_iff hwf.nodup_names]
    have hget : ∀ f ∈ entity.fields, w.written.data.get f.name =
        ((setValues t w.pending.call.ctx.rc).get f.name).or (nextData.get f.name) := by
      intro f hf
      rw [hwritten, Workflow.applySetFields, JsonObject.get_merge]
      rfl
    constructor
    · intro hfits wf₁ hwf₁ source t₁ hsource₁ hfind₁ f hf v hv
      cases hwf'.symm.trans hwf₁
      cases hsource.symm.trans hsource₁
      cases hfind.symm.trans hfind₁
      have hfit := hfits f hf
      rwa [hget f hf, hv, Option.some_or] at hfit
    · intro hset f hf
      rw [hget f hf]
      cases hv : (setValues t w.pending.call.ctx.rc).get f.name with
      | some v => exact hset wf hwf' t.source t hsource hfind f hf v hv
      | none => exact fitsField_of_validatePayload hwf.nodup_names hdata hf
  | delete hop hwritten =>
    rw [SequenceEvent.FitsAfter, hop, hwritten]
    exact iff_of_true hreplaced trivial

/-- What the platform sets is validated. -/
theorem valid_withSystemFields {fields patch : JsonObject}
    (hpatch : systemPatch platform entity fields = .ok patch)
    (hrow : ValidDocument platform.codec entity row.data) :
    ValidDocument platform.codec entity (withSystemFields platform row patch).data := by
  have hwf := wellFormed_of_validate h
  have hnodup := @nodup_restrictedTo _ fields hwf
  rw [validDocument_iff hwf.nodup_names] at hrow ⊢
  intro f hf
  rw [withSystemFields, JsonObject.get_merge]
  cases hget : patch.get f.name with
  | none => exact hrow f hf
  | some v =>
    have hok := (systemPatch_eq_ok hpatch).1
    have hgiven : (fields.get f.name).isSome := by
      have hsome : (patch.get f.name).isSome := by simp [hget]
      rwa [get_of_validatePayload hnodup hok, Option.isSome_map] at hsome
    rw [Option.some_or, ← hget]
    exact fitsField_of_validatePayload hnodup hok (List.mem_filter.mpr ⟨hf, hgiven⟩)

theorem valid_step_iff {db db' : Database} (hstep : SequenceStep platform entity db e db')
    (hdb : ∀ row ∈ db.records.rows, ValidDocument platform.codec entity row.data) :
    ValidDocument platform.codec entity e.row.data ↔ e.FitsAfter := by
  cases hstep with
  | create ctx rawData newID now hrow => exact valid_created_iff h hrow
  | write call env hload hcommit =>
    obtain ⟨heffect, hfind, -⟩ := writeEffect_of_sequence hload hcommit
    exact valid_written_iff h heffect (hdb _ (KeyedTable.mem_of_find hfind))
  | system tenantID id fields hset =>
    obtain ⟨hpatch, hfind, -⟩ := setSystemFields_eq_ok hset
    exact iff_of_true (valid_withSystemFields h hpatch (hdb _ (KeyedTable.mem_of_find hfind)))
      trivial

end

theorem mem_rows_of_step {db db' : Database} (hstep : SequenceStep platform entity db e db')
    (hrow : row ∈ db'.records.rows) : row = e.row ∨ row ∈ db.records.rows := by
  cases hstep with
  | create ctx rawData newID now hcreated hunique hfresh =>
    rcases List.mem_append.mp hrow with hrow | hrow
    · exact .inr hrow
    · exact .inl (List.mem_singleton.mp hrow)
  | write call env hload hcommit =>
    obtain ⟨-, -, hrecords⟩ := writeEffect_of_sequence hload hcommit
    rw [hrecords] at hrow
    exact (KeyedTable.mem_rows_replace hrow).imp_right And.left
  | system tenantID id fields hset =>
    obtain ⟨-, -, rfl⟩ := setSystemFields_eq_ok hset
    exact (KeyedTable.mem_rows_replace hrow).imp_right And.left

/-- Every document a sequence from an empty table commits is valid exactly when what its steps
write after validation fits. -/
theorem documents_valid_iff (h : validate entity = []) {db₀ db : Database}
    {events : List (SequenceEvent platform entity)} (hempty : db₀.records.rows = [])
    (hrun : Run (SequenceStep platform entity) db₀ events db) :
    (∀ e ∈ events, ValidDocument platform.codec entity e.row.data) ↔
      ∀ e ∈ events, e.FitsAfter := by
  -- while every document was valid, every row is, so the next step starts from valid rows
  have hinv := hrun.history (I := fun events db =>
    ((∀ e ∈ events, ValidDocument platform.codec entity e.row.data) ↔
      ∀ e ∈ events, e.FitsAfter) ∧
    ((∀ e ∈ events, ValidDocument platform.codec entity e.row.data) →
      ∀ row ∈ db.records.rows, ValidDocument platform.codec entity row.data))
    ⟨by simp, by simp [hempty]⟩ ?_
  · exact hinv.1
  · rintro events db e db' ⟨hiff, hrows⟩ hstep
    simp only [List.forall_mem_append, List.forall_mem_singleton]
    refine ⟨⟨fun hvalid => ?_, fun hfits => ?_⟩, fun hvalid row hrow => ?_⟩
    · exact ⟨hiff.mp hvalid.1, (valid_step_iff h hstep (hrows hvalid.1)).mp hvalid.2⟩
    · have hvalid := hiff.mpr hfits.1
      exact ⟨hvalid, (valid_step_iff h hstep (hrows hvalid)).mpr hfits.2⟩
    · rcases mem_rows_of_step hstep hrow with rfl | hold
      · exact hvalid.2
      · exact hrows hvalid.1 row hold

end

/-! ## A task with an owner -/

def passOn : WorkflowTransition where
  action := "pass"
  source := "held"
  target := "held"
  setFields := [("owner", .literal (some (.str "Bea")))]

def release : WorkflowTransition where
  action := "release"
  source := "held"
  target := "free"
  setFields := [("owner", .literal (some .null))]

def taskWorkflow : EntityWorkflow where
  stateField := "state"
  initialState := "held"
  transitions := [passOn, release]

def ownerField : EntityField where
  name := "owner"
  kind := .string
  required := some true
  maxLength := some 8

def taskEntity : EntityDefinition where
  name := "work.tasks"
  tableName := "work.tasks"
  fields := [{ name := "state", kind := .string }, ownerField]
  workflow := some taskWorkflow

def ownedBy (owner : String) : JsonObject := [("owner", .str owner)]

theorem fitsField_passOn {ctx : RequestContext} {f : EntityField} (hf : f ∈ taskEntity.fields)
    {v : Json} (hv : (setValues passOn ctx).get f.name = some v) :
    FitsField plainPlatform.codec f (some v) := by
  have hset : setValues passOn ctx = ownedBy "Bea" := rfl
  rw [hset] at hv
  simp only [taskEntity, List.mem_cons, List.not_mem_nil, or_false] at hf
  rcases hf with rfl | rfl
  · cases hv
  · cases hv
    simp only [FitsField]
    decide

/-- A transition that sets a text of a length its field allows. -/
theorem documents_valid_iff_passed : validate taskEntity = [] ∧
    ∃ events db, Run (SequenceStep plainPlatform taskEntity) noRecords events db ∧
      (∀ e ∈ events, e.FitsAfter) ∧ events.length = 2 ∧
      ∀ e ∈ events, ValidDocument plainPlatform.codec taskEntity e.row.data := by
  have hvalid : validate taskEntity = [] := by decide
  have hrun : ∃ events db, Run (SequenceStep plainPlatform taskEntity) noRecords events db ∧
      (∀ e ∈ events, e.FitsAfter) ∧ events.length = 2 := by
    refine ⟨_, _, .snoc (.snoc (.nil _) (.create keyAdmin (ownedBy "Ann") 7 0 rfl rfl rfl))
      (.write (personCall (.transition "pass" none)) commitEnv rfl rfl), ?_, rfl⟩
    have hplain : ∀ f ∈ taskEntity.fields, f.computed = none := by decide
    intro e he
    simp only [List.nil_append, List.cons_append, List.mem_cons, List.not_mem_nil, or_false] at he
    rcases he with rfl | rfl
    · refine ⟨fun data _ f hf c hc => ?_, ?_⟩
      · rw [hplain f hf] at hc
        cases hc
      · rintro w ⟨⟩ - f hf hname -
        revert f
        simp only [FitsField]
        decide
    · refine fitsAfter_of_transition rfl ?_
      rintro w ⟨⟩ t ht haction f hf v hv
      simp only [taskWorkflow, List.mem_cons, List.not_mem_nil, or_false] at ht
      rcases ht with rfl | rfl
      · exact fitsField_passOn hf hv
      · exact absurd haction (by decide)
  obtain ⟨events, db, hrun, hfits, hlength⟩ := hrun
  exact ⟨hvalid, events, db, hrun, hfits, hlength, (documents_valid_iff hvalid rfl hrun).mpr hfits⟩

/-- A transition may null a required field. -/
theorem set_fields_null_required : validate taskEntity = [] ∧
    ∃ events db, Run (SequenceStep plainPlatform taskEntity) noRecords events db ∧
      ∃ row ∈ db.records.rows, row.data.get "owner" = some .null ∧
        validatePayload plainPlatform.codec taskEntity row.data =
          .error [("owner", ["required"])] ∧
        ¬ValidDocument plainPlatform.codec taskEntity row.data := by
  have hrun : ∃ events db, Run (SequenceStep plainPlatform taskEntity) noRecords events db ∧
      ∃ row ∈ db.records.rows, row.data.get "owner" = some .null ∧
        validatePayload plainPlatform.codec taskEntity row.data =
          .error [("owner", ["required"])] :=
    ⟨_, _, .snoc (.snoc (.nil _) (.create keyAdmin (ownedBy "Ann") 7 0 rfl rfl rfl))
      (.write (personCall (.transition "release" none)) commitEnv rfl rfl), _,
      List.mem_singleton.mpr rfl, rfl, rfl⟩
  obtain ⟨events, db, hrun, row, hrow, hnull, herror⟩ := hrun
  refine ⟨by decide, events, db, hrun, row, hrow, hnull, herror, ?_⟩
  rintro ⟨canonical, hok, -⟩
  cases herror.symm.trans hok

end Metap.Crud
