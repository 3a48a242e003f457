import Metap.Crud.Read

/-!
# Records that differ in one field

Two versions of a record that differ at most in a field `f` (`AgreeExcept`) have the same values
everywhere else: in the other members of `data`, in the other promoted columns and in the columns
the platform keeps.  The columns `code` and `status` mirror members, so they may differ when `f` is
the member they mirror.

A policy none of whose tests reads `f` cannot tell the versions apart (`evaluatePolicies_eq`).  Two
databases differ at a table when its rows correspond and everything else is the same (`DifferAt`).
-/

namespace Metap.Crud

open Sql Query Builder

/-- Two versions of a record that differ at most in the field `f`. -/
structure AgreeExcept (entity : EntityDefinition) (f : String) (r r' : StoredRecord) : Prop where
  id : r.id = r'.id
  tenantID : r.tenantID = r'.tenantID
  version : r.version = r'.version
  createdAt : r.createdAt = r'.createdAt
  updatedAt : r.updatedAt = r'.updatedAt
  createdBy : r.createdBy = r'.createdBy
  updatedBy : r.updatedBy = r'.updatedBy
  deleted : r.deleted = r'.deleted
  code : f ≠ "code" → r.code = r'.code
  status : (∀ w ∈ entity.workflow, w.stateField ≠ f) → r.status = r'.status
  data : r.data.erase f = r'.data.erase f
  columns : ∀ g, g ≠ f → r.columns g = r'.columns g

variable {attr : String}

namespace AgreeExcept

variable {entity : EntityDefinition} {f : String} {r r' : StoredRecord}

theorem refl (entity : EntityDefinition) (f : String) (r : StoredRecord) :
    AgreeExcept entity f r r := by
  constructor <;> intros <;> rfl

variable (h : AgreeExcept entity f r r')

include h

theorem get_data {g : String} (hg : g ≠ f) : JsonObject.get r.data g = JsonObject.get r'.data g :=
  JsonObject.get_eq_of_erase_eq h.data hg

end AgreeExcept

/-- Whether an attribute of a condition reads the field `f` of a record: a path reads its first
member. -/
def readsField (f attr : String) : Bool :=
  !isContextAttribute attr && (Strings.split attr '.').headD "" = f

/-! ## Policies -/

/-- A path into an object starts with the member of its first segment. -/
theorem resolveAttribute_eq_of_head {o o' : JsonObject} (rc : RequestContext)
    (h : isContextAttribute attr = false →
      o.get ((Strings.split attr '.').headD "") = o'.get ((Strings.split attr '.').headD "")) :
    resolveAttribute (.obj o) attr rc = resolveAttribute (.obj o') attr rc := by
  unfold resolveAttribute
  cases hcut : Strings.cutPrefix attr contextAttributePrefix with
  | some rest => rfl
  | none =>
    have hget := h (Strings.cutPrefix_eq_none.mp hcut)
    change resolveAttributePath (.obj o) attr = resolveAttributePath (.obj o') attr
    unfold resolveAttributePath
    cases hpath : Strings.split attr '.' with
    | nil => exact absurd hpath (Strings.split_ne_nil attr '.')
    | cons segment segments =>
      rw [hpath, List.headD_cons] at hget
      simp only [List.foldl_cons, Json.decodeObject, hget]

/-- No test that counts for the caller reads the field `f`. -/
def TestsIgnore (f : String) (ctx : RequestContext) (policies : List PolicyRow) : Prop :=
  ∀ t ∈ recordTests policies ctx, readsField f t.attr = false

/-- Tests that do not read the field give both versions the same verdict. -/
theorem evaluatePolicies_eq {f : String} {data data' : JsonObject}
    (h : data.erase f = data'.erase f) (ctx : RequestContext) {policies : List PolicyRow}
    (hpolicies : TestsIgnore f ctx policies) :
    evaluatePolicies policies ctx (some (.obj data)) =
      evaluatePolicies policies ctx (some (.obj data')) := by
  refine evaluatePolicies_congr fun t ht => ?_
  have hreads := hpolicies t ht
  have hresolve : resolveAttribute (.obj data) t.attr ctx =
      resolveAttribute (.obj data') t.attr ctx := by
    refine resolveAttribute_eq_of_head ctx fun hctx => JsonObject.get_eq_of_erase_eq h ?_
    simpa [readsField, hctx] using hreads
  rw [Test.passes, hresolve, ← Test.passes]

/-! ## Two databases -/

/-- Two databases that agree except in one table, whose rows correspond. -/
structure DifferAt (table : String) (R : StoredRecord → StoredRecord → Prop)
    (store store' : Store) : Prop where
  rows : List.Forall₂ R (store table).records.rows (store' table).records.rows
  events : (store table).events = (store' table).events
  others : ∀ table', table' ≠ table → store table' = store' table'

/-- A call on an entity of a tenant, against a database. -/
def openedOn (svc : Service) (store : Store) (rc : RequestContext) (tenantID : Uuid)
    (entity : EntityDefinition) : Opened where
  tenantID
  entity
  ctx := svc.context store rc tenantID entity.name

section

variable {svc : Service} {store : Store} {rc : RequestContext} {entityName : String} {o : Opened}
  {entity : EntityDefinition}

theorem eq_openedOn_of_openForRead (h : openForRead svc store rc entityName = .ok o) :
    o = openedOn svc store rc o.tenantID o.entity := by
  obtain ⟨-, -, hctx⟩ := openEntity_eq_ok (openForRead_eq_ok h).1
  rw [openedOn, ← hctx]

theorem openForRead_of_allowed {tenantID : Uuid}
    (htenant : scopedTenant svc.codec rc = .ok tenantID)
    (hentity : (svc.registryFor tenantID).getEntity entityName = some entity)
    (hread : ((svc.context store rc tenantID entity.name).snapshot.canPerformEntityAction rc
      entity.name .read).allowed = true) :
    openForRead svc store rc entityName = .ok (openedOn svc store rc tenantID entity) := by
  simp only [openForRead, openEntity, htenant, hentity, orRefuse, bind, Except.bind, pure,
    Except.pure]
  rw [require_eq_ok.mpr hread]
  rfl

/-- Which calls are opened does not depend on the records. -/
theorem openForRead_of_store (h : openForRead svc store rc entityName = .ok o) (store' : Store) :
    openForRead svc store' rc entityName = .ok (openedOn svc store' rc o.tenantID o.entity) := by
  obtain ⟨hopen, hread⟩ := openForRead_eq_ok h
  obtain ⟨htenant, hentity, hctx⟩ := openEntity_eq_ok hopen
  rw [hctx] at hread
  exact openForRead_of_allowed htenant hentity hread

end

/-! ## Employees whose grade is hidden -/

def employeeEntity : EntityDefinition where
  name := "app.employee"
  tableName := "app.employee"
  fields :=
    [{ name := "team", kind := .enum, enumValues := some ["red", "blue"], sortable := some true },
     { name := "grade", kind := .enum, enumValues := some ["junior", "middle", "senior"],
       sortable := some true }]

theorem employeeEntity_wellFormed : employeeEntity.WellFormed where
  safe_table := by decide
  safe_names := by decide
  nodup_names := by decide
  filters_known := by simp [employeeEntity]
  state_declared := by simp [employeeEntity]
  setFields_not_state := by simp [employeeEntity]
  state_not_system := by simp [employeeEntity]

/-- Everyone may read employees, and nobody their grades. -/
def employeePolicies : List PolicyRow :=
  [{ action := "read", subject := "context" },
   { action := "read", field := "grade", subject := "record", effect := .deny }]

def employeeService : Service where
  codec := .hex
  printer := { formatG := fun _ => "", marshal := fun _ => "" }
  pg := default
  readCursor := fun _ => none
  formatTime := fun _ => ""
  quote := id
  registryFor := fun _ => ⟨[employeeEntity], by simpa using employeeEntity_wellFormed⟩
  policiesFor := fun _ _ => employeePolicies
  columnsOf := fun _ _ _ => none
  violates := fun _ _ _ => none

def employee (id : Uuid) (grade : String) : StoredRecord where
  id
  tenantID := 1
  data := [("team", .str "red"), ("grade", .str grade)]

def employeeStore (grade : String) : Store := fun table =>
  { records := ⟨if table = "app.employee" then [employee 7 grade] else [], by split <;> simp⟩ }

def employeeCaller : RequestContext := { tenantID := UuidCodec.hex.format 1 }

def openedEmployees (store : Store) : Opened :=
  openedOn employeeService store employeeCaller 1 employeeEntity

theorem openForRead_employees (store : Store) :
    openForRead employeeService store employeeCaller "app.employee" = .ok (openedEmployees store) :=
  rfl

end Metap.Crud
