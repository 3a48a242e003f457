import Metap.Crud.Concurrency
import Metap.Metadata.Validate

/-!
# System fields

A field marked as a system field is written by the platform alone, through `setSystemFields`, which
leaves the record's version as it is.  Create and update refuse a payload that names one, and an
update takes the stored values over what it merged.  A transition does neither: it writes the
document it computed from the row it loaded.

So a transition writes a system field that its payload or its declaration names, and puts back the
value it loaded when the platform has written another since (`transition_writes_system_field`).
`system_fields_by_system_path` says that these are the only ways: in every run without them a system
field has the value last set for it, or none.
-/

namespace Metap.Crud

open Transition Builder

/-! ## Setting system fields -/

inductive SystemFieldsError where
  | notSystem (field entity : String)
  | invalid (entity : String) (errs : FieldErrors)
  | notFound
  | internal

section

variable (platform : Platform) (entity : EntityDefinition)

/-- The entity as far as a set of fields goes. -/
def restrictedTo (fields : JsonObject) : EntityDefinition where
  name := entity.name
  tableName := ""
  fields := entity.fields.filter fun f => (fields.get f.name).isSome

/-- What is written over a record's data. -/
def systemPatch (fields : JsonObject) : Except SystemFieldsError JsonObject :=
  match (JsonObject.keys fields).find? fun name => !(systemFieldNames entity).contains name with
  | some name => .error (.notSystem name entity.name)
  | none => (validatePayload platform.codec (restrictedTo entity fields) fields).mapError
      (.invalid entity.name)

/-- The row with the fields written over; its version stays. -/
def withSystemFields (row : StoredRecord) (patch : JsonObject) : StoredRecord :=
  let data := row.data.merge patch
  { row with data, columns := platform.columnsOf data }

/-- The patch that was written, the row it was written over, and the records. -/
def setSystemFields (db : Database) (tenantID id : Uuid) (fields : JsonObject) :
    Except SystemFieldsError (JsonObject × StoredRecord × Database) := do
  let patch ← systemPatch platform entity fields
  match fetchExisting db id tenantID with
  | none => .error .notFound
  | some row =>
    let written := withSystemFields platform row patch
    match platform.violates (db.records.rows.filter fun r => r.id ≠ row.id) written with
    | some _ => .error .internal
    | none => return (patch, row, { db with records := db.records.replace written })

/-! ## The system with the platform in it -/

inductive RecordEvent where
  | call (e : Event platform entity)
  | system (id : Uuid) (patch : JsonObject)

/-- A step of a call, or the platform sets system fields. -/
inductive RecordStep :
    State platform entity → RecordEvent platform entity → State platform entity → Prop where
  | call {s s' : State platform entity} {e : Event platform entity}
      (hstep : Step platform entity s e s') : RecordStep s (.call e) s'
  | system {s : State platform entity} (tenantID id : Uuid) (fields : JsonObject)
      {patch : JsonObject} {row : StoredRecord} {db' : Database}
      (hset : setSystemFields platform entity s.db tenantID id fields = .ok (patch, row, db')) :
      RecordStep s (.system id patch) { s with db := db' }

end

section

variable {platform : Platform} {entity : EntityDefinition}

/-- The value last set for a field of a record. -/
def lastSystemValue (id : Uuid) (k : String) (events : List (RecordEvent platform entity)) :
    Option Json :=
  events.foldl (fun last e =>
    match e with
    | .system id' patch => if id' = id then (patch.get k).or last else last
    | .call _ => last) none

theorem lastSystemValue_append_call (id : Uuid) (k : String)
    (events : List (RecordEvent platform entity)) (e : Event platform entity) :
    lastSystemValue id k (events ++ [.call e]) = lastSystemValue id k events := by
  rw [lastSystemValue, List.foldl_append]
  rfl

theorem lastSystemValue_append_system (id id' : Uuid) (k : String) (patch : JsonObject)
    (events : List (RecordEvent platform entity)) :
    lastSystemValue id k (events ++ [.system id' patch]) =
      if id' = id then (patch.get k).or (lastSystemValue id k events)
      else lastSystemValue id k events := by
  rw [lastSystemValue, List.foldl_append]
  rfl

variable {k : String} {id : Uuid} {events : List (RecordEvent platform entity)}

theorem lastSystemValue_eq_none
    (h : ∀ patch, .system id patch ∉ events) : lastSystemValue id k events = none := by
  induction events using List.reverseRecOn with
  | nil => rfl
  | append_singleton events e ih =>
    have hprev : lastSystemValue id k events = none :=
      ih fun patch hmem => h patch (List.mem_append_left _ hmem)
    cases e with
    | call e => rw [lastSystemValue_append_call, hprev]
    | system id' patch =>
      rw [lastSystemValue_append_system, if_neg ?_, hprev]
      rintro rfl
      exact h patch (by simp)

/-- A transition names no system field and finds the system fields as it loaded them. -/
def RespectsSystemFields (w : Write platform entity) : Prop :=
  match w.pending.call.op, w.pending.patch with
  | .transition _ payload, .transition action fromState _ _ _ =>
    ∀ k ∈ systemFieldNames entity,
      k ∉ JsonObject.keys (payload.getD []) ∧
      (∀ wf ∈ entity.workflow, ∀ t ∈ wf.transitions, t.action = action → t.source = fromState →
        ∀ e ∈ t.setFields, e.1 ≠ k) ∧
      w.pending.base.data.get k = w.replaced.data.get k
  | _, _ => True

def RecordEvent.RespectsSystem : RecordEvent platform entity → Prop
  | .call (.committed w) => RespectsSystemFields w
  | _ => True

/-! ## What each step does to system fields -/

variable {fields : JsonObject} {patch : JsonObject}

theorem systemPatch_eq_ok (h : systemPatch platform entity fields = .ok patch) :
    validatePayload platform.codec (restrictedTo entity fields) fields = .ok patch ∧
      ∀ name ∈ JsonObject.keys fields, name ∈ systemFieldNames entity := by
  unfold systemPatch at h
  split at h
  · cases h
  · next hall => exact ⟨mapError_eq_ok.mp h, by simpa using hall⟩

theorem nodup_restrictedTo (hwf : entity.WellFormed) :
    ((restrictedTo entity fields).fields.map EntityField.name).Nodup :=
  hwf.nodup_names.sublist (List.filter_sublist.map EntityField.name)

/-- Only system fields are set. -/
theorem mem_systemFieldNames_of_systemPatch (hwf : entity.WellFormed)
    (h : systemPatch platform entity fields = .ok patch) (hk : (patch.get k).isSome) :
    k ∈ systemFieldNames entity := by
  obtain ⟨hvalid, hsystem⟩ := systemPatch_eq_ok h
  rw [get_of_validatePayload (nodup_restrictedTo hwf) hvalid, Option.isSome_map] at hk
  refine hsystem k (by_contra fun hnot => ?_)
  rw [JsonObject.get_eq_none_of_notMem hnot] at hk
  cases hk

variable {row : StoredRecord}

theorem setSystemFields_eq_ok {db db' : Database} {tenantID : Uuid}
    (h : setSystemFields platform entity db tenantID id fields = .ok (patch, row, db')) :
    systemPatch platform entity fields = .ok patch ∧ db.records.find id = some row ∧
      db' = { db with records := db.records.replace (withSystemFields platform row patch) } := by
  unfold setSystemFields at h
  obtain ⟨patch', hpatch, h⟩ := except_bind_eq_ok h
  split at h
  · cases h
  next row' hrow =>
  dsimp only at h
  split at h
  · cases h
  · cases h
    exact ⟨hpatch, (fetchExisting_eq_some.mp hrow).1, rfl⟩

variable (codec : UuidCodec)

/-- Canonical form is what was given, or the canonical text of an identifier. -/
theorem canonicalValue_cases (field : EntityField) (raw : Json) :
    canonicalValue codec field raw = raw ∨
      field.kind = .reference ∧ ∃ u, canonicalValue codec field raw = .str (codec.format u) := by
  unfold canonicalValue
  split
  · next hreference =>
    split
    · exact .inr ⟨hreference.1, _, rfl⟩
    · exact .inl rfl
  · exact .inl rfl

theorem canonicalValue_idem (field : EntityField) (raw : Json) :
    canonicalValue codec field (canonicalValue codec field raw) =
      canonicalValue codec field raw := by
  rcases canonicalValue_cases codec field raw with hsame | ⟨hkind, u, hcanonical⟩
  · rw [hsame, hsame]
  · rw [hcanonical]
    simp [canonicalValue, hkind, Json.decodeString]

theorem canonicalMember_idem (k : String) (raw : Json) :
    canonicalMember codec entity k (canonicalMember codec entity k raw) =
      canonicalMember codec entity k raw := by
  unfold canonicalMember
  split
  · exact canonicalValue_idem codec _ raw
  · rfl

/-- A field that is given is found in the restricted entity as in the whole. -/
theorem canonicalMember_restrictedTo {raw : Json} (hget : fields.get k = some raw)
    (codec : UuidCodec) (raw' : Json) : canonicalMember codec (restrictedTo entity fields) k raw' =
      canonicalMember codec entity k raw' := by
  have hfield : (restrictedTo entity fields).field? k = entity.field? k := by
    rw [EntityDefinition.field?, EntityDefinition.field?, restrictedTo, List.find?_filter]
    congr 1
    funext f
    by_cases hname : f.name = k
    · simp [hname, hget]
    · simp [hname]
  rw [canonicalMember, canonicalMember, hfield]

/-- What the platform sets is in canonical form. -/
theorem canonicalMember_of_systemPatch (hwf : entity.WellFormed)
    (h : systemPatch platform entity fields = .ok patch) {v : Json} (hv : patch.get k = some v) :
    canonicalMember platform.codec entity k v = v := by
  rw [get_of_validatePayload (nodup_restrictedTo hwf) (systemPatch_eq_ok h).1 k,
    Option.map_eq_some_iff] at hv
  obtain ⟨raw, hraw, rfl⟩ := hv
  rw [canonicalMember_restrictedTo hraw]
  exact canonicalMember_idem platform.codec k raw

/-- No system field of an accepted entity is computed. -/
theorem computed_eq_none_of_system (h : validate entity = []) (hk : k ∈ systemFieldNames entity) :
    ∀ f ∈ entity.fields, f.name = k → f.computed = none := by
  obtain ⟨g, hg, hname⟩ := List.mem_map.mp hk
  obtain ⟨hg, hsystem⟩ := List.mem_filter.mp hg
  intro f hf hfk
  obtain rfl : f = g :=
    List.inj_on_of_nodup_map (wellFormed_of_validate h).nodup_names hf hg (hfk.trans hname.symm)
  have hissues := (validate_eq_nil h).2.2.2.2.2.1 f hf
  rw [systemIssues, if_pos hsystem] at hissues
  simp only [List.append_eq_nil_iff, issueIf_eq_nil] at hissues
  simpa using hissues.1.2

/-- A new record has no system field. -/
theorem get_created (h : validate entity = []) {ctx : CallContext} {rawData : JsonObject}
    {newID : Uuid} {now : ℤ} (hrow : createRow platform entity ctx rawData newID now = .ok row)
    (hk : k ∈ systemFieldNames entity) : row.data.get k = none := by
  have hwf := wellFormed_of_validate h
  obtain ⟨hsystem, -, data, hdata, hrow, -⟩ := createRow_spec hrow
  have hstate : ∀ w ∈ entity.workflow, k ≠ w.stateField := by
    rintro w hw rfl
    exact hwf.state_not_system w hw hk
  rw [hrow, get_initState_of_ne hstate,
    get_recomputeFields_of_not_computed (computed_eq_none_of_system h hk),
    get_of_validatePayload hwf.nodup_names hdata, get_eq_none_of_rejectSystemFields hsystem hk]
  rfl

/-- A write that respects system fields keeps them. -/
theorem get_written (hwf : entity.WellFormed) {db db' : Database} {p : Pending platform entity}
    {env : CommitEnv} {w : Write platform entity}
    (hcommit : commit platform entity db p env = .ok (w, db')) (hrespects : RespectsSystemFields w)
    (hk : k ∈ systemFieldNames entity)
    (hcanonical : ∀ v, w.replaced.data.get k = some v → canonicalMember platform.codec entity k v =
      v) : w.written.data.get k = w.replaced.data.get k := by
  obtain ⟨-, -, -, hpending, -, hwritten, -⟩ := commit_eq_ok hcommit
  subst hpending
  have hprepared := w.pending.prepared
  rw [hwritten]
  unfold prepare at hprepared
  split at hprepared
  · obtain ⟨-, data, userID, -, hpatch⟩ := updatePatch_eq_ok hprepared
    rw [hpatch, applyPatch, get_keepSystemFields, if_pos hk]
  · next action payload hop =>
    obtain ⟨wf, t, nextData, userID, hwf', -, ht, haction, -, hdata, -, hpatch⟩ :=
      transitionPatch_eq_ok hprepared
    rw [RespectsSystemFields, hop, hpatch] at hrespects
    obtain ⟨hpayload, hset, hbase⟩ := hrespects k hk
    have hstate : k ≠ wf.stateField := by
      rintro rfl
      exact hwf.state_not_system wf hwf' hk
    rw [hpatch, applyPatch, Workflow.get_applySetFields (hset wf hwf' t ht haction rfl),
      get_of_validatePayload hwf.nodup_names hdata]
    simp only [JsonObject.get_set, if_neg hstate, JsonObject.get_merge,
      JsonObject.get_eq_none_of_notMem hpayload, Option.none_or, hbase]
    cases hget : w.replaced.data.get k with
    | none => rfl
    | some v => rw [Option.map_some, hcanonical v hget]
  · obtain ⟨userID, hpatch⟩ := deletePatch_eq_ok hprepared
    rw [hpatch]
    rfl

/-! ## Whole runs -/

structure SystemInv (events : List (RecordEvent platform entity)) (s : State platform entity) :
    Prop where
  value : ∀ row ∈ s.db.records.rows, ∀ k ∈ systemFieldNames entity,
    row.data.get k = lastSystemValue row.id k events
  canonical : ∀ row ∈ s.db.records.rows, ∀ k ∈ systemFieldNames entity, ∀ v,
    row.data.get k = some v → canonicalMember platform.codec entity k v = v
  known : ∀ id patch, .system id patch ∈ events → (s.db.records.find id).isSome

section

variable {events : List (RecordEvent platform entity)} {s : State platform entity}
  {e : Event platform entity}

/-- A step that writes nothing. -/
theorem SystemInv.call (hinv : SystemInv events s) {s' : State platform entity}
    (hdb : s'.db.records = s.db.records) : SystemInv (events ++ [.call e]) s' := by
  refine ⟨?_, by rw [hdb]; exact hinv.canonical, ?_⟩
  · intro row hrow k hk
    rw [hdb] at hrow
    rw [lastSystemValue_append_call]
    exact hinv.value row hrow k hk
  · intro id patch hmem
    rw [hdb]
    exact hinv.known id patch (by simpa using hmem)

theorem SystemInv.create (hinv : SystemInv events s) (h : validate entity = []) {ctx : CallContext}
    {rawData : JsonObject} {newID : Uuid} {now : ℤ}
    (hrow : createRow platform entity ctx rawData newID now = .ok row)
    (hfresh : s.db.records.find row.id = none) : SystemInv (events ++ [.call (.created row)])
      { s with db.records := s.db.records.insert row hfresh } := by
  have hnone : ∀ k ∈ systemFieldNames entity, row.data.get k = none :=
    fun k hk => get_created h hrow hk
  -- the platform has set no field of a record that was not there
  have hunset : ∀ patch, .system row.id patch ∉ events := by
    intro patch hmem
    have hsome := hinv.known row.id patch hmem
    rw [hfresh] at hsome
    cases hsome
  refine ⟨?_, ?_, ?_⟩
  · intro r hr k hk
    rw [lastSystemValue_append_call]
    rcases List.mem_append.mp hr with hr | hr
    · exact hinv.value r hr k hk
    · rw [List.mem_singleton.mp hr, hnone k hk, lastSystemValue_eq_none hunset]
  · intro r hr k hk v hv
    rcases List.mem_append.mp hr with hr | hr
    · exact hinv.canonical r hr k hk v hv
    · rw [List.mem_singleton.mp hr, hnone k hk] at hv
      cases hv
  · intro id patch hmem
    rw [KeyedTable.find_insert]
    split
    · rfl
    · exact hinv.known id patch (by simpa using hmem)

/-- The records after a row has been replaced are the same ones. -/
theorem isSome_find_replace {records : KeyedTable StoredRecord.id} (h : (records.find id).isSome) :
    ((records.replace row).find id).isSome := by
  rw [KeyedTable.find_replace]
  split
  · simpa using h
  · exact h

theorem SystemInv.replace (hinv : SystemInv events s) {p : List (Pending platform entity)}
    {ledger : List Workflow.WorkflowEvent} {written : StoredRecord}
    (hfind : s.db.records.find id = some row) (hid : written.id = row.id)
    (hkept : ∀ k ∈ systemFieldNames entity, written.data.get k = row.data.get k) :
    SystemInv (events ++ [.call e]) ⟨⟨s.db.records.replace written, ledger⟩, p⟩ := by
  have hmem := KeyedTable.mem_of_find hfind
  refine ⟨?_, ?_, ?_⟩
  · intro r hr k hk
    rw [lastSystemValue_append_call]
    rcases KeyedTable.mem_rows_replace hr with rfl | ⟨hr, -⟩
    · rw [hkept k hk, hinv.value row hmem k hk, hid]
    · exact hinv.value r hr k hk
  · intro r hr k hk v hv
    rcases KeyedTable.mem_rows_replace hr with rfl | ⟨hr, -⟩
    · rw [hkept k hk] at hv
      exact hinv.canonical row hmem k hk v hv
    · exact hinv.canonical r hr k hk v hv
  · intro id' patch hmem'
    exact isSome_find_replace (hinv.known id' patch (by simpa using hmem'))

theorem SystemInv.system (hinv : SystemInv events s) (hwf : entity.WellFormed)
    (hpatch : systemPatch platform entity fields = .ok patch)
    (hfind : s.db.records.find id = some row) : SystemInv (events ++ [.system id patch]) { s with
      db.records := s.db.records.replace (withSystemFields platform row patch) } := by
  have hmem := KeyedTable.mem_of_find hfind
  have hid : row.id = id := KeyedTable.key_of_find hfind
  refine ⟨?_, ?_, ?_⟩
  · intro r hr k hk
    rw [lastSystemValue_append_system]
    by_cases hself : r = withSystemFields platform row patch
    · subst hself
      simp only [withSystemFields, JsonObject.get_merge, hinv.value row hmem k hk, hid, if_true]
    · obtain ⟨hold, hne⟩ := (KeyedTable.mem_rows_replace hr).resolve_left hself
      rw [if_neg fun heq => hne (heq.symm.trans hid.symm)]
      exact hinv.value r hold k hk
  · intro r hr k hk v hv
    rcases KeyedTable.mem_rows_replace hr with rfl | ⟨hr, -⟩
    · rw [withSystemFields, JsonObject.get_merge, Option.or_eq_some_iff] at hv
      rcases hv with hv | hv
      · exact canonicalMember_of_systemPatch hwf hpatch hv
      · exact hinv.canonical row hmem k hk v hv.2
    · exact hinv.canonical r hr k hk v hv
  · intro id' patch' hmem'
    refine isSome_find_replace ?_
    rcases List.mem_append.mp hmem' with hmem' | hmem'
    · exact hinv.known id' patch' hmem'
    · cases List.mem_singleton.mp hmem'
      simp [hfind]

end

theorem SystemInv.step (h : validate entity = [])
    {s s' : State platform entity} {e : RecordEvent platform entity} (hinv : SystemInv events s)
    (hstep : RecordStep platform entity s e s') (hrespects : e.RespectsSystem) :
    SystemInv (events ++ [e]) s' := by
  have hwf := wellFormed_of_validate h
  cases hstep with
  | call hstep =>
    cases hstep with
    | create ctx rawData newID now hrow hunique hfresh => exact hinv.create h hrow hfresh
    | load | fail => exact hinv.call rfl
    | commit before after p env hpending hcommit =>
      obtain ⟨hfind, -, -, -, -, hwritten, rfl⟩ := commit_eq_ok hcommit
      refine hinv.replace hfind (by rw [hwritten, id_applyPatch]) fun k hk => ?_
      exact get_written hwf hcommit hrespects hk
        (hinv.canonical _ (KeyedTable.mem_of_find hfind) k hk)
  | system tenantID id fields hset =>
    obtain ⟨hpatch, hfind, rfl⟩ := setSystemFields_eq_ok hset
    exact hinv.system hwf hpatch hfind

/-- In every run from an empty table whose transitions respect system fields, a system field has
the value the platform last set for it, or none. -/
theorem system_fields_by_system_path (h : validate entity = []) {s₀ s : State platform entity}
    {events : List (RecordEvent platform entity)} (hempty : s₀.db.records.rows = [])
    (hrun : Run (RecordStep platform entity) s₀ events s)
    (hrespects : ∀ e ∈ events, e.RespectsSystem) :
    ∀ row ∈ s.db.records.rows, ∀ k ∈ systemFieldNames entity,
      row.data.get k = lastSystemValue row.id k events := by
  have hinv : (∀ e ∈ events, e.RespectsSystem) → SystemInv events s := by
    refine hrun.history (I := fun events s => (∀ e ∈ events, e.RespectsSystem) →
      SystemInv events s) ?_ ?_
    · exact fun _ => ⟨by simp [hempty], by simp [hempty], by simp⟩
    · intro events s e s' ih hstep hall
      exact (ih fun e he => hall e (List.mem_append_left _ he)).step h hstep (hall e (by simp))
  exact (hinv hrespects).value

end

/-! ## An access key -/

def keyWorkflow : EntityWorkflow where
  stateField := "state"
  initialState := "issued"
  transitions := [{ action := "activate", source := "issued", target := "active" }]

def keyEntity : EntityDefinition where
  name := "app.keys"
  tableName := "app.keys"
  fields := [{ name := "state", kind := .string },
    { name := "lastUsedAt", kind := .datetime, system := some true }]
  workflow := some keyWorkflow

/-- An administrator of tenant 2. -/
def keyAdmin : CallContext where
  rc := { tenantID := UuidCodec.hex.format 2, roles := some ["admin"], hasRoles := true }
  policies := []
  registry := .empty
  related := fun _ _ => none

def keyStart : State plainPlatform keyEntity where
  db := { records := .empty }

def issuedKey : StoredRecord where
  id := 7
  tenantID := 2
  status := some "issued"
  data := [("state", .str "issued")]

theorem createRow_issuedKey :
    createRow plainPlatform keyEntity keyAdmin [] 7 0 = .ok issuedKey := rfl

def activateCall (payload : Option JsonObject) : Call where
  ctx := keyAdmin
  id := 7
  expectedVersion := 1
  op := .transition "activate" payload

def usedAt (time : String) : JsonObject := [("lastUsedAt", .str time)]

/-- The platform sets the field, and a transition that loads the record afterwards keeps it. -/
theorem system_fields_by_system_path_keyStart : validate keyEntity = [] ∧
    ∃ events s, Run (RecordStep plainPlatform keyEntity) keyStart events s ∧
      (∀ e ∈ events, e.RespectsSystem) ∧
      ∃ row ∈ s.db.records.rows, row.status = some "active" ∧
        row.data.get "lastUsedAt" = lastSystemValue row.id "lastUsedAt" events ∧
        lastSystemValue row.id "lastUsedAt" events = some (.str "2021-01-01") := by
  have hvalid : validate keyEntity = [] := by decide
  have hrun : ∃ events s, Run (RecordStep plainPlatform keyEntity) keyStart events s ∧
      (∀ e ∈ events, e.RespectsSystem) ∧ ∃ row ∈ s.db.records.rows, row.status = some "active" ∧
        lastSystemValue row.id "lastUsedAt" events = some (.str "2021-01-01") := by
    refine ⟨_, _, .snoc (.snoc (.snoc (.snoc (.nil _)
      (.call (.create keyAdmin [] 7 0 createRow_issuedKey rfl rfl)))
      (.system 2 7 (usedAt "2021-01-01") rfl))
      (.call (.load (activateCall none) rfl)))
      (.call (.commit [] [] _ commitEnv rfl rfl)), ?_, _, List.mem_singleton.mpr rfl, rfl, rfl⟩
    intro e he
    simp only [List.nil_append, List.cons_append, List.mem_cons, List.not_mem_nil, or_false] at he
    rcases he with rfl | rfl | rfl | rfl
    · trivial
    · trivial
    · trivial
    · intro k hk
      obtain rfl : k = "lastUsedAt" := by simpa [systemFieldNames, keyEntity, boolOrFalse] using hk
      refine ⟨by decide, ?_, rfl⟩
      rintro wf ⟨⟩ t ht - - e he
      rw [List.mem_singleton.mp ht] at he
      cases he
  obtain ⟨events, s, hrun, hrespects, row, hrow, hstatus, hlast⟩ := hrun
  exact ⟨hvalid, events, s, hrun, hrespects, row, hrow, hstatus,
    system_fields_by_system_path hvalid rfl hrun hrespects row hrow "lastUsedAt" (by decide), hlast⟩

/-- The payload of a transition names the field. -/
theorem transition_writes_system_field : validate keyEntity = [] ∧
    ∃ events s, Run (RecordStep plainPlatform keyEntity) keyStart events s ∧
      ∃ row ∈ s.db.records.rows, row.data.get "lastUsedAt" = some (.str "2020-01-01") ∧
        lastSystemValue row.id "lastUsedAt" events = none := by
  refine ⟨by decide, _, _, .snoc (.snoc (.snoc (.nil _)
    (.call (.create keyAdmin [] 7 0 createRow_issuedKey rfl rfl)))
    (.call (.load (activateCall (some (usedAt "2020-01-01"))) rfl)))
    (.call (.commit [] [] _ commitEnv rfl rfl)), _, List.mem_singleton.mpr rfl, rfl, rfl⟩

end Metap.Crud
