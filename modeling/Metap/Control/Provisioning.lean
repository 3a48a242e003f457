import Metap.Control.Router

/-!
# Provisioning tenants

Both flows prepare the place of a tenant's data, add an administrator and register the tenant as
active, by statements on databases that no transaction spans.  When a statement fails or the process
dies, what the statements before it have done stays: `interrupted` stops a flow after any number of
them.

A schema tenant is registered last, so it is ready whenever it is routed.  A tenant with a database
of its own is registered before its authentication and its administrator are there:
`provisioned_ready_iff`.
-/

namespace Metap.Control

/-- The tables of `metadata` that a tenant has of its own. -/
def tenantScopedTables : List String :=
  ["dashboard_configs", "policies", "reconciler_backfill_progress",
    "reconciler_entity_deployments", "reconciler_entity_status", "tenant_auth_configs",
    "tenant_configs", "user_preferences", "workflow_events", "attachments", "cron_jobs",
    "cron_job_runs", "workflow_runs"]

/-- A table, or a row of `tenant_auth_configs` (of the table in a schema), `users` or
`user_roles`. -/
inductive Entry where
  | table (schema name : String)
  | localAuthConfig (schema : String) (tenantID : Uuid)
  | user (id tenantID : Uuid) (email : String)
  | role (tenantID userID : Uuid) (role : String)
  deriving DecidableEq

/-- The entries of the shared database (`none`) and of the others by their secrets, and
`control.tenants`. -/
structure Platform where
  database : Option String → List Entry := fun _ => []
  tenants : Uuid → Option TenantRouting := fun _ => none

def Platform.withDatabase (p : Platform) (n : Option String) (db : List Entry) : Platform :=
  { p with database := Function.update p.database n db }

inductive ProvisionStep where
  | put (database : Option String) (entry : Entry)
  | dropControlSchema (database : Option String)
  | provision (tenantID : Uuid) (routing : TenantRouting)

/-- What a statement has done when it succeeds; the row of a registered tenant is left alone. -/
def Platform.exec (p : Platform) : ProvisionStep → Platform
  | .put n entry => p.withDatabase n (entry :: p.database n)
  | .dropControlSchema n => p.withDatabase n ((p.database n).filter fun
      | .table schema _ => schema ≠ "control"
      | _ => true)
  | .provision tenantID routing => { p with
      tenants := Function.update p.tenants tenantID ((p.tenants tenantID).getD routing) }

/-- The platform after the first `k` steps. -/
def Platform.interrupted (p : Platform) (steps : List ProvisionStep) (k : ℕ) : Platform :=
  (steps.take k).foldl Platform.exec p

section

variable (tenantID adminID : Uuid) (adminEmail : String)

/-- `seedLocalAuthConfig`, `CreateUser` and `AssignRole`. -/
def adminEntries (schema : String) : List Entry :=
  [.localAuthConfig schema tenantID, .user adminID tenantID adminEmail,
    .role tenantID adminID "admin"]

def provisionSchemaTenant : List ProvisionStep :=
  let schemaName := tenantSchemaName tenantID
  (tenantScopedTables.map (Entry.table schemaName) ++
    adminEntries tenantID adminID adminEmail schemaName).map (.put none) ++
  [.provision tenantID ⟨.active, .schema schemaName⟩]

/-- `migrated` are the tables the migrations create. -/
def provisionDedicatedDbTenant (dsnSecretRef : String) (migrated : List (String × String)) :
    List ProvisionStep :=
  (migrated.map fun t => Entry.table t.1 t.2).map (.put dsnSecretRef) ++
  .dropControlSchema dsnSecretRef ::
  .provision tenantID ⟨.active, .dedicatedDb dsnSecretRef⟩ ::
  (adminEntries tenantID adminID adminEmail "metadata").map (.put dsnSecretRef)

end

/-! ## Readiness -/

/-- Where a tenant's data is: the database, and the schema of its tables there. -/
def TenantStrategy.place : TenantStrategy → Option String × String
  | .schema schemaName => (none, schemaName)
  | .dedicatedDb dsnSecretRef => (some dsnSecretRef, "metadata")

structure Complete (db : List Entry) (schema : String) (tenantID : Uuid) : Prop where
  tables : ∀ name ∈ tenantScopedTables, .table schema name ∈ db
  authConfig : .localAuthConfig schema tenantID ∈ db
  admin : ∃ id email, .user id tenantID email ∈ db ∧ .role tenantID id "admin" ∈ db

/-- If the tenant is active, what it needs is where it is routed. -/
def Platform.Ready (p : Platform) (tenantID : Uuid) : Prop :=
  ∀ routing ∈ p.tenants tenantID, routing.status = .active →
    Complete (p.database routing.strategy.place.1) routing.strategy.place.2 tenantID

variable {tenantID : Uuid} {p : Platform} {n : Option String}

theorem foldl_put (es : List Entry) (p : Platform) : (es.map (.put n)).foldl Platform.exec p =
    p.withDatabase n (es.reverse ++ p.database n) := by
  induction es generalizing p with
  | nil => simp [Platform.withDatabase]
  | cons e es ih => simp [ih, Platform.exec, Platform.withDatabase]

theorem Complete.mono {db db' : List Entry} {schema : String} (h : Complete db schema tenantID)
    (hsub : db ⊆ db') : Complete db' schema tenantID := by
  obtain ⟨id, email, huser, hrole⟩ := h.admin
  exact ⟨fun t ht => hsub (h.tables t ht), hsub h.authConfig, id, email, hsub huser, hsub hrole⟩

/-- Entries that are added do not end readiness. -/
theorem Platform.Ready.add (h : p.Ready tenantID) (es : List Entry) :
    (p.withDatabase n (es ++ p.database n)).Ready tenantID := by
  intro routing hrouting hactive
  refine (h routing hrouting hactive).mono ?_
  by_cases hn : routing.strategy.place.1 = n
  · simp [Platform.withDatabase, hn]
  · simp [Platform.withDatabase, hn]

variable (adminID : Uuid) (adminEmail : String)

theorem complete_of_adminEntries {db : List Entry} {schema : String}
    (htables : ∀ name ∈ tenantScopedTables, .table schema name ∈ db)
    (hadmin : ∀ e ∈ adminEntries tenantID adminID adminEmail schema, e ∈ db) :
    Complete db schema tenantID :=
  ⟨htables, hadmin _ (by simp [adminEntries]), adminID, adminEmail,
    hadmin _ (by simp [adminEntries]), hadmin _ (by simp [adminEntries])⟩

/-- A schema tenant is ready wherever its flow ends. -/
theorem ready_schemaTenant (h : p.Ready tenantID) (k : ℕ) :
    (p.interrupted (provisionSchemaTenant tenantID adminID adminEmail) k).Ready tenantID := by
  rw [Platform.interrupted, provisionSchemaTenant, List.take_append, ← List.map_take,
    List.length_map, List.foldl_append, foldl_put]
  cases hk : k - _ with
  | zero => exact h.add _
  | succ j =>
    -- the registration is among the steps only after all entries are
    rw [List.take_of_length_le (by omega)]
    intro routing hrouting hactive
    simp only [List.take_succ_cons, List.take_nil, List.foldl_cons, List.foldl_nil, Platform.exec,
      Platform.withDatabase, Function.update_self, Option.mem_some_iff] at hrouting ⊢
    cases hrow : p.tenants tenantID with
    | some row =>
      rw [hrow, Option.getD_some] at hrouting
      exact h.add _ routing (hrouting ▸ hrow) hactive
    | none =>
      rw [hrow, Option.getD_none] at hrouting
      subst hrouting
      rw [TenantStrategy.place, Function.update_self]
      refine complete_of_adminEntries adminID adminEmail (fun name hname => ?_) fun e he => ?_
      · simp [hname]
      · simp [he]

variable {dsnSecretRef : String} {migrated : List (String × String)}

/-- Wherever a flow ends, a schema tenant is ready if it was; a tenant with a new database of its
own is, exactly when the flow ends before the registration or after the role. -/
theorem provisioned_ready_iff (hready : p.Ready tenantID)
    (hmigrated : ∀ name ∈ tenantScopedTables, ("metadata", name) ∈ migrated) (k : ℕ) :
    (p.interrupted (provisionSchemaTenant tenantID adminID adminEmail) k).Ready tenantID ∧
    (p.database dsnSecretRef = [] → p.tenants tenantID = none →
      ((p.interrupted (provisionDedicatedDbTenant tenantID adminID adminEmail dsnSecretRef migrated)
        k).Ready tenantID ↔ k ≤ migrated.length + 1 ∨ migrated.length + 5 ≤ k)) := by
  refine ⟨ready_schemaTenant adminID adminEmail hready k, fun hfresh hnone => ?_⟩
  rw [Platform.interrupted, provisionDedicatedDbTenant, List.take_append, ← List.map_take,
    List.length_map, List.length_map, List.foldl_append, foldl_put, hfresh, List.append_nil]
  match hk : k - migrated.length with
  | 0 | 1 =>
    have hle : k ≤ migrated.length + 1 := by omega
    simp [Platform.Ready, Platform.withDatabase, Platform.exec, hnone, hle]
  | j + 2 =>
    have hj : k ≤ migrated.length + 1 ∨ migrated.length + 5 ≤ k ↔ 3 ≤ j := by omega
    rw [List.take_of_length_le (by simp; omega), List.take_succ_cons, List.take_succ_cons,
      List.foldl_cons, List.foldl_cons, ← List.map_take, foldl_put, hj]
    simp only [Platform.Ready, Platform.withDatabase, Platform.exec, hnone, Option.getD_none,
      Function.update_self, Option.mem_some_iff, forall_eq', TenantStrategy.place, true_implies]
    constructor
    · rintro ⟨-, -, id, email, -, hrole⟩
      by_contra hlt
      have hfew : j = 0 ∨ j = 1 ∨ j = 2 := by omega
      rcases hfew with rfl | rfl | rfl <;> simp [adminEntries] at hrole
    · intro hle
      rw [List.take_of_length_le hle]
      refine complete_of_adminEntries adminID adminEmail (fun name hname => ?_) fun e he => ?_
      · simp [hmigrated name hname]
      · simp [he]

/-- Both flows end with a tenant that is ready. -/
theorem provisioned_ready_completed :
    let tables := tenantScopedTables.map (Prod.mk "metadata")
    (({} : Platform).interrupted (provisionSchemaTenant 1 2 "admin") 18).Ready 1 ∧
    (({} : Platform).interrupted (provisionDedicatedDbTenant 1 2 "admin" "DSN" tables)
      18).Ready 1 := by
  intro tables
  have hready := @provisioned_ready_iff 1 {} 2 "admin" "DSN" tables nofun
    (fun name hname => List.mem_map_of_mem hname) 18
  exact ⟨hready.1, (hready.2 rfl rfl).mpr (.inr (by decide))⟩

/-- A crash right after the registration: the tenant is routed, and has no authentication. -/
theorem registered_without_admin :
    let p := ({} : Platform).interrupted (provisionDedicatedDbTenant 1 2 "admin" "DSN"
      (tenantScopedTables.map (Prod.mk "metadata"))) 15
    resolve (p.tenants 1) = .ok (.dedicatedDb "DSN") ∧
    .localAuthConfig "metadata" 1 ∉ p.database "DSN" ∧ ¬p.Ready 1 := by
  intro p
  have hmissing : .localAuthConfig "metadata" 1 ∉ p.database "DSN" := by decide
  exact ⟨rfl, hmissing, fun h => hmissing (h _ rfl rfl).authConfig⟩

end Metap.Control
