import Metap.Crud.Read
import Metap.Framework.Lockstep
import Metap.Permission.Stability

/-!
# What a caller sees of a record's history

An audit entry describes a state that the record may no longer have, so the record's present
content must not decide who sees it.  `auditDiffVisibility` asks the policies about a probe, the
record with every declared field present, and hides each field whose readability the policies make
depend on the record; when access to the record itself depends on it, the whole diff is hidden.

So the fields exposed are a function of the caller, the policies and the entity
(`auditDiffVisibility_independent`).
-/

namespace Metap.Crud

/-- How much of a record's diffs a caller sees. -/
structure DiffVisibility where
  nothing : Bool
  fields : List String := []

namespace DiffVisibility

def exposes (v : DiffVisibility) (field : String) : Bool := !v.nothing && v.fields.contains field

end DiffVisibility

/-- A field that a record lacks is added as null. -/
def addMissing (probe : JsonObject) (field : EntityField) : JsonObject :=
  if (probe.get field.name).isSome then probe else probe.set field.name .null

/-- The record with every declared field present. -/
def probeOf (entity : EntityDefinition) (existing : Option JsonObject) : JsonObject :=
  entity.fields.foldl addMissing (existing.getD [])

/-- What the policies let a caller see of the diffs, from the record as it is now. -/
def diffVisibility (entity : EntityDefinition) (rc : RequestContext)
    (snapshot : PermissionSnapshot) (existing : Option JsonObject) : DiffVisibility :=
  if snapshot.recordAccessIsStateDependent rc .read then { nothing := true }
  else
    let stateDependent := snapshot.recordStateDependentReadFields rc
    let readable := snapshot.filterReadableFields rc (probeOf entity existing)
    { nothing := false
      fields := (JsonObject.keys readable).filter fun field => !stateDependent.contains field }

def auditDiffVisibility (svc : Service) (store : Store) (rc : RequestContext)
    (entityName : String) (recordID : Uuid) : Except ServiceError DiffVisibility := do
  let tenantID ← scopedTenant svc.codec rc
  match (svc.registryFor tenantID).getEntity entityName with
  | none => return { nothing := true }
  | some entity =>
    let existing := fetchExisting (store entity.tableName) recordID tenantID
    let snapshot := (svc.context store rc tenantID entity.name).snapshot
    return diffVisibility entity rc snapshot (existing.map StoredRecord.data)

/-! ## What is exposed -/

section

variable {entity : EntityDefinition} {rc : RequestContext} {snapshot : PermissionSnapshot}

theorem isSome_get_addMissing (probe : JsonObject) (field : EntityField) (name : String) :
    ((addMissing probe field).get name).isSome = true ↔
      (probe.get name).isSome = true ∨ name = field.name := by
  unfold addMissing
  by_cases hfield : (probe.get field.name).isSome = true
  · rw [if_pos hfield]
    exact (or_iff_left_of_imp fun heq => heq ▸ hfield).symm
  · rw [if_neg hfield, JsonObject.get_set]
    by_cases hname : name = field.name <;> simp [hname]

variable {name : String}

/-- A declared field is added, and a name that is there stays. -/
theorem isSome_get_foldl_addMissing {fields : List EntityField} {probe : JsonObject}
    (h : (probe.get name).isSome = true ∨ name ∈ fields.map EntityField.name) :
    ((fields.foldl addMissing probe).get name).isSome = true := by
  induction fields generalizing probe with
  | nil => simpa using h
  | cons f fs ih =>
    rw [List.map_cons, List.mem_cons, ← or_assoc, ← isSome_get_addMissing] at h
    exact ih h

theorem isSome_get_probeOf (h : name ∈ entity.fields.map EntityField.name)
    (existing : Option JsonObject) : ((probeOf entity existing).get name).isSome = true :=
  isSome_get_foldl_addMissing (.inr h)

/-- A declared field is exposed when neither the record's access nor the field's depends on the
record, and the field is readable. -/
theorem exposes_diffVisibility (h : name ∈ entity.fields.map EntityField.name)
    (existing : Option JsonObject) :
    (diffVisibility entity rc snapshot existing).exposes name = true ↔
      snapshot.recordAccessIsStateDependent rc .read = false ∧
      name ∉ snapshot.recordStateDependentReadFields rc ∧
      snapshot.fieldReadable rc (probeOf entity existing) name = true := by
  unfold diffVisibility
  cases haccess : snapshot.recordAccessIsStateDependent rc .read with
  | true => simp [DiffVisibility.exposes]
  | false =>
    have hkey : name ∈ JsonObject.keys
        (snapshot.filterReadableFields rc (probeOf entity existing)) ↔
        snapshot.fieldReadable rc (probeOf entity existing) name = true := by
      rw [JsonObject.mem_keys_iff, PermissionSnapshot.get_filterReadableFields]
      have hsome := isSome_get_probeOf h existing
      split <;> simp_all
    simp [DiffVisibility.exposes, hkey, and_comm]

/-- A field whose read policies depend on the record is hidden, whatever the record is. -/
theorem hidden_of_recordDependent (hadmin : rc.isAdmin = false)
    (h : verdictIsRecordDependent (snapshot.policiesOnField "read" name) rc = true)
    (existing : Option JsonObject) :
    (diffVisibility entity rc snapshot existing).exposes name = false := by
  have hmem : name ∈ snapshot.recordStateDependentReadFields rc :=
    (snapshot.mem_recordStateDependentReadFields rc).mpr ⟨hadmin, h⟩
  unfold diffVisibility
  split
  · rfl
  · simp [DiffVisibility.exposes, hmem]

theorem nothing_diffVisibility_eq (existing existing' : Option JsonObject) :
    (diffVisibility entity rc snapshot existing).nothing =
      (diffVisibility entity rc snapshot existing').nothing := by
  unfold diffVisibility
  split <;> rfl

/-- The declared fields exposed do not depend on the record. -/
theorem exposes_diffVisibility_eq (h : name ∈ entity.fields.map EntityField.name)
    (existing existing' : Option JsonObject) :
    (diffVisibility entity rc snapshot existing).exposes name =
      (diffVisibility entity rc snapshot existing').exposes name := by
  rw [Bool.eq_iff_iff, exposes_diffVisibility h, exposes_diffVisibility h]
  refine and_congr_right fun _ => and_congr_right fun hstable => ?_
  rw [snapshot.fieldReadable_eq_of_stable rc hstable (probeOf entity existing)
    (probeOf entity existing')]

end

/-- The two visibilities expose the same of the fields that the entity declares. -/
def SameDeclared (declared : List String) (v v' : DiffVisibility) : Prop :=
  v.nothing = v'.nothing ∧ ∀ name ∈ declared, v.exposes name = v'.exposes name

/-- The names of the fields an entity declares; none when there is no such entity. -/
def declaredFields (svc : Service) (rc : RequestContext) (entityName : String) : List String :=
  match scopedTenant svc.codec rc with
  | .ok tenantID =>
    (((svc.registryFor tenantID).getEntity entityName).map fun entity =>
      entity.fields.map EntityField.name).getD []
  | .error _ => []

/-- For any two states of the tables, and so of the record, a caller is shown the same declared
fields of its history: where the analysis reports no dependence the policies decide alike on all
records, and where it reports one the field is hidden. -/
theorem auditDiffVisibility_independent (svc : Service) (store store' : Store)
    (rc : RequestContext) (entityName : String) (recordID : Uuid) :
    SameOutcome (SameDeclared (declaredFields svc rc entityName))
      (auditDiffVisibility svc store rc entityName recordID)
      (auditDiffVisibility svc store' rc entityName recordID) ∧
    (∀ policies : List PolicyRow, verdictIsRecordDependent policies rc = false →
      ∀ record record' : JsonObject, evaluatePolicies policies rc (some (.obj record)) =
        evaluatePolicies policies rc (some (.obj record'))) ∧
    ∀ (entity : EntityDefinition) (snapshot : PermissionSnapshot) (name : String),
      rc.isAdmin = false →
      verdictIsRecordDependent (snapshot.policiesOnField "read" name) rc = true →
      ∀ existing, (diffVisibility entity rc snapshot existing).exposes name = false := by
  refine ⟨?_, fun policies h record record' => evaluatePolicies_eq_of_stable h _ _,
    fun entity snapshot name hadmin h existing => hidden_of_recordDependent hadmin h existing⟩
  unfold auditDiffVisibility declaredFields
  cases htenant : scopedTenant svc.codec rc with
  | error e => exact .error e e
  | ok tenantID =>
    simp only
    change SameOutcome _
      (match (svc.registryFor tenantID).getEntity entityName with | none => _ | some _ => _)
      (match (svc.registryFor tenantID).getEntity entityName with | none => _ | some _ => _)
    cases (svc.registryFor tenantID).getEntity entityName with
    | none => exact .ok ⟨rfl, fun _ _ => rfl⟩
    | some entity =>
      exact .ok ⟨nothing_diffVisibility_eq _ _,
        fun name hname => exposes_diffVisibility_eq hname _ _⟩

end Metap.Crud
