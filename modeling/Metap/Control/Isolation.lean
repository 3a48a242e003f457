import Metap.Control.Router
import Metap.Framework.Transition

/-!
# Search paths on pooled connections

Connections outlive the calls that use them: a pool hands any idle connection to any caller and
resets nothing.  A step of the system opens or closes a connection, begins or ends a transaction,
provisions a tenant, reroutes one, or runs a statement; an event of a run records, for a statement,
who ran it and the search path it ran with.

`statement_isolated_iff` says exactly which statements run with the right search path.  Inside a
transaction, on a tenant's own pool and during provisioning they all do.  A statement run directly
on the shared pool does unless its connection was used to provision a tenant before: provisioning
sets the path for the session and gives the connection back as it is.
-/

namespace Metap.Control

open Transition

/-! ## Connections -/

/-- The pools: the shared one, one per schema, one per dedicated database. -/
inductive PoolKey where
  | shared
  | schema (schemaName : String)
  | dedicated (dsnSecretRef : String)
  deriving DecidableEq, Repr

/-- What a connection is used for. -/
inductive Use where
  | idle
  | closed
  | transaction (tenantID : Uuid) (strategy : TenantStrategy)
  | provisioning (tenantID : Uuid)
  deriving DecidableEq

structure Conn where
  pool : PoolKey
  session : SearchPath
  /-- Set for the running transaction only. -/
  localPath : Option SearchPath := none
  use : Use := .idle
  deriving DecidableEq

/-- The path names are resolved with. -/
def Conn.path (c : Conn) : SearchPath := c.localPath.getD c.session

/-- Execute a statement that may set the search path. -/
def Conn.exec (c : Conn) (sql : String) : Conn :=
  match readSetSearchPath sql with
  | some (.transaction, path) => { c with localPath := some path }
  | some (.session, path) => { c with session := path }
  | none => c

/-- The search paths the databases are configured with. -/
structure Deployment where
  defaultPath : SearchPath
  dedicatedPath : String → SearchPath

/-- A new connection of a pool; a schema's pool sets the path when it connects. -/
def Deployment.connect (d : Deployment) : PoolKey → Conn
  | .shared => { pool := .shared, session := d.defaultPath }
  | .schema name =>
    Conn.exec { pool := .schema name, session := d.defaultPath } (sessionSQL name)
  | .dedicated dsn => { pool := .dedicated dsn, session := d.dedicatedPath dsn }

/-- The pool a tenant's transactions run on. -/
def beginPool : TenantStrategy → PoolKey
  | .schema _ => .shared
  | .dedicatedDb dsn => .dedicated dsn

/-- Begin a tenant's transaction on a connection. -/
def begin (tenantID : Uuid) (strategy : TenantStrategy) (c : Conn) : Except RouterError Conn :=
  match strategy with
  | .schema name => do
    validateSchemaName name
    return { c.exec (beginSQL name) with use := .transaction tenantID strategy }
  | .dedicatedDb _ => return { c with use := .transaction tenantID strategy }

/-- End it; what was set for the transaction is gone. -/
def Conn.finish (c : Conn) : Conn := { c with localPath := none, use := .idle }

/-- The pool of a tenant's statements outside transactions. -/
def poolFor (strategy : TenantStrategy) : Except RouterError PoolKey :=
  match strategy with
  | .schema name =>
    if name = "public" then .ok .shared
    else do
      validateSchemaName name
      return .schema name
  | .dedicatedDb dsn => .ok (.dedicated dsn)

/-- The connection that provisions a tenant, once its path is set. -/
def Conn.provision (c : Conn) (tenantID : Uuid) : Conn :=
  { c.exec (sessionSQL (tenantSchemaName tenantID)) with use := .provisioning tenantID }

/-! ## The system -/

structure State where
  conns : ℕ → Option Conn := fun _ => none
  routing : Uuid → Option TenantRouting := fun _ => none

def State.set (s : State) (i : ℕ) (c : Conn) : State :=
  { s with conns := Function.update s.conns i (some c) }

theorem State.conns_set (s : State) (i : ℕ) (c : Conn) (j : ℕ) :
    (s.set i c).conns j = if j = i then some c else s.conns j := by
  simp [State.set, Function.update_apply]

/-- Who runs a statement. -/
inductive Owner where
  | transaction (tenantID : Uuid) (strategy : TenantStrategy)
  | sharedPool
  | tenantPool (tenantID : Uuid) (strategy : TenantStrategy)
  | provisioning (tenantID : Uuid)
  deriving DecidableEq

inductive Event where
  | opened (i : ℕ) (key : PoolKey)
  | closed (i : ℕ)
  | began (i : ℕ) (tenantID : Uuid)
  | ended (i : ℕ)
  | provisioned (i : ℕ) (tenantID : Uuid)
  | released (i : ℕ)
  | rerouted (tenantID : Uuid)
  | ran (i : ℕ) (owner : Owner) (path : SearchPath)

inductive Step (d : Deployment) : State → Event → State → Prop where
  | open {s : State} (i : ℕ) (key : PoolKey) (hnew : s.conns i = none)
      (hkey : ∀ name, key = .schema name → validateSchemaName name = .ok ()) :
      Step d s (.opened i key) (s.set i (d.connect key))
  | close {s : State} (i : ℕ) {c : Conn} (hc : s.conns i = some c) (huse : c.use = .idle) :
      Step d s (.closed i) (s.set i { c with use := .closed })
  | begin {s : State} (i : ℕ) {c c' : Conn} (tenantID : Uuid) {strategy : TenantStrategy}
      (hc : s.conns i = some c) (huse : c.use = .idle)
      (hresolve : resolve (s.routing tenantID) = .ok strategy)
      (hpool : c.pool = beginPool strategy) (hbegin : begin tenantID strategy c = .ok c') :
      Step d s (.began i tenantID) (s.set i c')
  | inTransaction {s : State} (i : ℕ) {c : Conn} {tenantID : Uuid} {strategy : TenantStrategy}
      (hc : s.conns i = some c) (huse : c.use = .transaction tenantID strategy) :
      Step d s (.ran i (.transaction tenantID strategy) c.path) s
  | finish {s : State} (i : ℕ) {c : Conn} {tenantID : Uuid} {strategy : TenantStrategy}
      (hc : s.conns i = some c) (huse : c.use = .transaction tenantID strategy) :
      Step d s (.ended i) (s.set i c.finish)
  | onSharedPool {s : State} (i : ℕ) {c : Conn} (hc : s.conns i = some c) (huse : c.use = .idle)
      (hpool : c.pool = .shared) :
      Step d s (.ran i .sharedPool c.path) s
  | onTenantPool {s : State} (i : ℕ) {c : Conn} (tenantID : Uuid) {strategy : TenantStrategy}
      (hc : s.conns i = some c) (huse : c.use = .idle)
      (hresolve : resolve (s.routing tenantID) = .ok strategy) (hne : strategy ≠ .schema "public")
      (hpool : poolFor strategy = .ok c.pool) :
      Step d s (.ran i (.tenantPool tenantID strategy) c.path) s
  | provision {s : State} (i : ℕ) {c : Conn} (tenantID : Uuid) (hc : s.conns i = some c)
      (huse : c.use = .idle) (hpool : c.pool = .shared) :
      Step d s (.provisioned i tenantID) (s.set i (c.provision tenantID))
  | inProvisioning {s : State} (i : ℕ) {c : Conn} {tenantID : Uuid} (hc : s.conns i = some c)
      (huse : c.use = .provisioning tenantID) :
      Step d s (.ran i (.provisioning tenantID) c.path) s
  | release {s : State} (i : ℕ) {c : Conn} {tenantID : Uuid} (hc : s.conns i = some c)
      (huse : c.use = .provisioning tenantID) :
      Step d s (.released i) (s.set i { c with use := .idle })
  | reroute {s : State} (tenantID : Uuid) (routing : Option TenantRouting) :
      Step d s (.rerouted tenantID)
        { s with routing := Function.update s.routing tenantID routing }

/-! ## What is right -/

def isTenantSchema (name : String) : Bool := Strings.hasPrefix name "t_"

/-- The search path of a strategy. -/
def strategyPath (d : Deployment) : TenantStrategy → SearchPath
  | .schema name => schemaPath name
  | .dedicatedDb dsn => d.dedicatedPath dsn

def Owner.expected (d : Deployment) : Owner → SearchPath
  | .transaction _ strategy => strategyPath d strategy
  | .sharedPool => d.defaultPath
  | .tenantPool _ strategy => strategyPath d strategy
  | .provisioning tenantID => schemaPath (tenantSchemaName tenantID)

/-- The schema of the tenant a statement is run for. -/
def Owner.schema : Owner → Option String
  | .transaction _ (.schema name) | .tenantPool _ (.schema name) => some name
  | .provisioning tenantID => some (tenantSchemaName tenantID)
  | _ => none

/-- The statement resolves names where its owner's are, and in no other tenant's schema. -/
structure Isolated (d : Deployment) (owner : Owner) (path : SearchPath) : Prop where
  expected : path = owner.expected d
  own : ∀ name ∈ path, isTenantSchema name = true → owner.schema = some name

/-- A tenant was provisioned on the connection. -/
def Provisioned (events : List Event) (i : ℕ) : Prop :=
  ∃ tenantID, .provisioned i tenantID ∈ events

/-! ## The invariant -/

variable {strategy : TenantStrategy} {tenantID : Uuid} {name : String}

section Invariant

variable {d : Deployment} {events : List Event} {i : ℕ} {c : Conn}

@[simp]
theorem exec_beginSQL (h : validateSchemaName name = .ok ()) (c : Conn) :
    c.exec (beginSQL name) = { c with localPath := some (schemaPath name) } := by
  rw [Conn.exec, readSetSearchPath_beginSQL h]

@[simp]
theorem exec_sessionSQL (h : validateSchemaName name = .ok ()) (c : Conn) :
    c.exec (sessionSQL name) = { c with session := schemaPath name } := by
  rw [Conn.exec, readSetSearchPath_sessionSQL h]

theorem provision_eq (c : Conn) (tenantID : Uuid) : c.provision tenantID = { c with
        session := schemaPath (tenantSchemaName tenantID), use := .provisioning tenantID } := by
  rw [Conn.provision, exec_sessionSQL (validateSchemaName_tenantSchemaName tenantID)]

/-- What the session's path is, by the pool and by whether a tenant was provisioned on it. -/
def SessionOK (d : Deployment) (provisioned : Prop) (session : SearchPath) : PoolKey → Prop
  | .shared => (¬ provisioned ∧ session = d.defaultPath) ∨
      (provisioned ∧ ∃ tenantID, session = schemaPath (tenantSchemaName tenantID))
  | .schema name => session = schemaPath name
  | .dedicated dsn => session = d.dedicatedPath dsn

/-- What is set for the transaction, by what the connection is used for. -/
def UseOK (c : Conn) : Prop :=
  match c.use with
  | .idle | .closed => c.localPath = none
  | .transaction _ (.schema name) => c.pool = .shared ∧ c.localPath = some (schemaPath name)
  | .transaction _ (.dedicatedDb dsn) => c.pool = .dedicated dsn ∧ c.localPath = none
  | .provisioning tenantID => c.pool = .shared ∧ c.localPath = none ∧
      c.session = schemaPath (tenantSchemaName tenantID)

structure ConnOK (d : Deployment) (events : List Event) (i : ℕ) (c : Conn) : Prop where
  session : SessionOK d (Provisioned events i) c.session c.pool
  use : UseOK c

structure Invariant (d : Deployment) (events : List Event) (s : State) : Prop where
  conns : ∀ i c, s.conns i = some c → ConnOK d events i c
  fresh : ∀ i, s.conns i = none → ¬ Provisioned events i

variable {e : Event}

theorem provisioned_append_iff :
    Provisioned (events ++ [e]) i ↔ Provisioned events i ∨
      ∃ tenantID, e = .provisioned i tenantID := by
  simp only [Provisioned, List.mem_append, List.mem_singleton, exists_or, eq_comm (a := e)]

/-- An event that provisions nothing on a connection leaves its account as it was. -/
theorem provisioned_append_of_ne (h : ∀ tenantID, e ≠ .provisioned i tenantID) :
    Provisioned (events ++ [e]) i ↔ Provisioned events i :=
  provisioned_append_iff.trans (or_iff_left fun ⟨tenantID, he⟩ => h tenantID he)

theorem ConnOK.append (h : ConnOK d events i c) (he : ∀ tenantID, e ≠ .provisioned i tenantID) :
    ConnOK d (events ++ [e]) i c := by
  refine ⟨?_, h.use⟩
  rw [propext (provisioned_append_of_ne he)]
  exact h.session

/-- A step that changes one connection, and provisions nothing on any other. -/
theorem Invariant.set {s : State} (h : Invariant d events s) {c' : Conn}
    (he : ∀ j tenantID, j ≠ i → e ≠ .provisioned j tenantID) (hc : ConnOK d (events ++ [e]) i c') :
    Invariant d (events ++ [e]) (s.set i c') := by
  refine ⟨fun j cj hj => ?_, fun j hj => ?_⟩
  · by_cases hji : j = i
    · subst hji
      rw [State.conns_set, if_pos rfl] at hj
      cases hj
      exact hc
    · rw [State.conns_set, if_neg hji] at hj
      exact (h.conns j cj hj).append fun tenantID => he j tenantID hji
  · by_cases hji : j = i
    · rw [State.conns_set, if_pos hji] at hj
      cases hj
    · rw [State.conns_set, if_neg hji] at hj
      rw [provisioned_append_of_ne fun tenantID => he j tenantID hji]
      exact h.fresh j hj

/-- A step that changes no connection. -/
theorem Invariant.unchanged {s s' : State} (h : Invariant d events s)
    (he : ∀ j tenantID, e ≠ .provisioned j tenantID) (hs : s'.conns = s.conns) :
    Invariant d (events ++ [e]) s' := by
  refine ⟨fun j cj hj => ?_, fun j hj => ?_⟩
  · rw [hs] at hj
    exact (h.conns j cj hj).append (he j)
  · rw [hs] at hj
    rw [provisioned_append_of_ne (he j)]
    exact h.fresh j hj

theorem connOK_connect (key : PoolKey) (hfresh : ¬ Provisioned events i)
    (hkey : ∀ name, key = .schema name → validateSchemaName name = .ok ()) :
    ConnOK d events i (d.connect key) := by
  cases key with
  | shared => exact ⟨.inl ⟨hfresh, rfl⟩, rfl⟩
  | schema name =>
    rw [Deployment.connect, exec_sessionSQL (hkey name rfl)]
    exact ⟨rfl, rfl⟩
  | dedicated dsn => exact ⟨rfl, rfl⟩

theorem ConnOK.begin (h : ConnOK d events i c) {c' : Conn} (huse : c.use = .idle)
    (hpool : c.pool = beginPool strategy)
    (hbegin : begin tenantID strategy c = .ok c') : ConnOK d events i c' := by
  have hlocal := h.use
  rw [UseOK, huse] at hlocal
  cases strategy with
  | schema name =>
    cases hname : validateSchemaName name with
    | error e => simp [Control.begin, hname, bind, Except.bind] at hbegin
    | ok u =>
      simp only [Control.begin, hname, exec_beginSQL hname, pure, Except.pure, bind,
        Except.bind, Except.ok.injEq] at hbegin
      subst hbegin
      exact ⟨h.session, hpool, rfl⟩
  | dedicatedDb dsn =>
    simp only [Control.begin, pure, Except.pure, Except.ok.injEq] at hbegin
    subst hbegin
    exact ⟨h.session, hpool, hlocal⟩

/-- One step keeps the invariant. -/
theorem Invariant.step {s s' : State} (h : Invariant d events s) (hstep : Step d s e s') :
    Invariant d (events ++ [e]) s' := by
  cases hstep with
  | «open» i key hnew hkey =>
    refine h.set (by simp) (connOK_connect key ?_ hkey)
    rw [provisioned_append_of_ne (by simp)]
    exact h.fresh i hnew
  | close i hc huse =>
    have hconn := (h.conns i _ hc).append (e := .closed i) (by simp)
    have hlocal := hconn.use
    rw [UseOK, huse] at hlocal
    exact h.set (by simp) ⟨hconn.session, hlocal⟩
  | begin i tenantID hc huse hresolve hpool hbegin =>
    have hconn := (h.conns i _ hc).append (e := .began i tenantID) (by simp)
    exact h.set (by simp) (hconn.begin huse hpool hbegin)
  | inTransaction | onSharedPool | onTenantPool | inProvisioning | reroute =>
    exact h.unchanged (by simp) rfl
  | finish i hc huse =>
    have hconn := (h.conns i _ hc).append (e := .ended i) (by simp)
    exact h.set (by simp) ⟨hconn.session, rfl⟩
  | provision i tenantID hc huse hpool =>
    have hlocal := (h.conns i _ hc).use
    rw [UseOK, huse] at hlocal
    have hprovisioned : Provisioned (events ++ [.provisioned i tenantID]) i :=
      provisioned_append_iff.mpr (.inr ⟨tenantID, rfl⟩)
    refine h.set (by simp +contextual [eq_comm]) ?_
    rw [provision_eq]
    refine ⟨?_, hpool, hlocal, rfl⟩
    rw [hpool]
    exact .inr ⟨hprovisioned, tenantID, rfl⟩
  | release i hc huse =>
    have hconn := (h.conns i _ hc).append (e := .released i) (by simp)
    have hlocal := hconn.use
    rw [UseOK, huse] at hlocal
    exact h.set (by simp) ⟨hconn.session, hlocal.2.1⟩

end Invariant

/-! ## Statements -/

section Statements

variable {d : Deployment}

theorem eq_of_mem_schemaPath {name n : String} (hn : n ∈ schemaPath name)
    (htenant : isTenantSchema n = true) : n = name := by
  simp only [schemaPath, List.mem_cons, List.not_mem_nil, or_false] at hn
  rcases hn with rfl | rfl | rfl
  · rfl
  · exact absurd htenant (by decide)
  · exact absurd htenant (by decide)

variable {owner : Owner}

/-- A schema's own path names no other tenant's schema. -/
theorem isolated_schemaPath
    (hexpected : owner.expected d = schemaPath name) (hschema : owner.schema = some name) :
    Isolated d owner (schemaPath name) where
  expected := hexpected.symm
  own n hn htenant := by rw [hschema, eq_of_mem_schemaPath hn htenant]

/-- A path that names no tenant's schema is right for whoever expects it. -/
theorem isolated_of_free {path : SearchPath} (hpath : path = owner.expected d)
    (hfree : ∀ name ∈ path, isTenantSchema name = false) : Isolated d owner path where
  expected := hpath
  own n hn htenant := by
    rw [hfree n hn] at htenant
    cases htenant

theorem isTenantSchema_tenantSchemaName (tenantID : Uuid) :
    isTenantSchema (tenantSchemaName tenantID) = true := by
  simp [isTenantSchema, tenantSchemaName, Strings.hasPrefix]

theorem pool_of_poolFor_schema {key : PoolKey} (hne : name ≠ "public")
    (h : poolFor (.schema name) = .ok key) : key = .schema name := by
  rw [poolFor, if_neg hne] at h
  cases hvalid : validateSchemaName name with
  | error e =>
    rw [hvalid] at h
    cases h
  | ok u =>
    rw [hvalid] at h
    cases h
    rfl

variable {events : List Event} {i : ℕ} {c : Conn} (h : ConnOK d events i c)

include h

theorem ConnOK.path_of_idle (huse : c.use = .idle) : c.path = c.session := by
  have hlocal := h.use
  rw [UseOK, huse] at hlocal
  rw [Conn.path, hlocal]
  rfl

theorem ConnOK.isolated_transaction
    (hdedicated : ∀ dsn, ∀ name ∈ d.dedicatedPath dsn, isTenantSchema name = false)
    (huse : c.use = .transaction tenantID strategy) :
    Isolated d (.transaction tenantID strategy) c.path := by
  have hok := h.use
  rw [UseOK, huse] at hok
  cases strategy with
  | schema name =>
    rw [Conn.path, hok.2]
    exact isolated_schemaPath rfl rfl
  | dedicatedDb dsn =>
    have hsession : c.session = d.dedicatedPath dsn := by
      have hpool := h.session
      rwa [hok.1] at hpool
    rw [Conn.path, hok.2, Option.getD_none, hsession]
    exact isolated_of_free rfl (hdedicated dsn)

theorem ConnOK.isolated_tenantPool
    (hdedicated : ∀ dsn, ∀ name ∈ d.dedicatedPath dsn, isTenantSchema name = false)
    (huse : c.use = .idle)
    (hne : strategy ≠ .schema "public") (hpool : poolFor strategy = .ok c.pool) :
    Isolated d (.tenantPool tenantID strategy) c.path := by
  have hsession := h.session
  rw [h.path_of_idle huse]
  cases strategy with
  | schema name =>
    rw [pool_of_poolFor_schema (fun heq => hne (by rw [heq])) hpool] at hsession
    rw [show c.session = schemaPath name from hsession]
    exact isolated_schemaPath rfl rfl
  | dedicatedDb dsn =>
    rw [← Except.ok.inj hpool] at hsession
    rw [show c.session = d.dedicatedPath dsn from hsession]
    exact isolated_of_free rfl (hdedicated dsn)

/-- On the shared pool everything hangs on what the connection was used for before. -/
theorem ConnOK.isolated_sharedPool_iff
    (hdefault : ∀ name ∈ d.defaultPath, isTenantSchema name = false) (huse : c.use = .idle)
    (hpool : c.pool = .shared) : Isolated d .sharedPool c.path ↔ ¬ Provisioned events i := by
  have hsession := h.session
  rw [hpool] at hsession
  rw [h.path_of_idle huse]
  rcases hsession with ⟨hnot, hpath⟩ | ⟨hprovisioned, tenantID, hpath⟩
  · refine iff_of_true ?_ hnot
    rw [hpath]
    exact isolated_of_free rfl hdefault
  · refine iff_of_false (fun hisolated => ?_) (not_not.mpr hprovisioned)
    -- the schema of the tenant provisioned before is on the path
    have hmem : tenantSchemaName tenantID ∈ c.session := by
      rw [hpath, schemaPath]
      exact List.mem_cons_self
    cases hisolated.own _ hmem (isTenantSchema_tenantSchemaName tenantID)

theorem ConnOK.isolated_provisioning (huse : c.use = .provisioning tenantID) :
    Isolated d (.provisioning tenantID) c.path := by
  have hok := h.use
  rw [UseOK, huse] at hok
  rw [Conn.path, hok.2.1, Option.getD_none, hok.2.2]
  exact isolated_schemaPath rfl rfl

end Statements

/-- In every run, a statement runs with the search path of whoever runs it, and with no other
tenant's schema on it, exactly when it is not run directly on the shared pool over a connection
that some tenant was provisioned on before.  The databases' own search paths name no tenant's
schema. -/
theorem statement_isolated_iff (d : Deployment)
    (hdefault : ∀ name ∈ d.defaultPath, isTenantSchema name = false)
    (hdedicated : ∀ dsn, ∀ name ∈ d.dedicatedPath dsn, isTenantSchema name = false)
    (events : List Event) (s s' : State) (hrun : Run (Step d) {} events s) (i : ℕ) (owner : Owner)
    (path : SearchPath) (hstep : Step d s (.ran i owner path) s') :
    Isolated d owner path ↔ ¬ (owner = .sharedPool ∧ Provisioned events i) := by
  have hinv : Invariant d events s :=
    hrun.history (I := Invariant d) ⟨by simp, by simp [Provisioned]⟩
      fun _ _ _ _ h hstep => h.step hstep
  cases hstep with
  | inTransaction i hc huse =>
    exact iff_of_true ((hinv.conns i _ hc).isolated_transaction hdedicated huse) (by simp)
  | onSharedPool i hc huse hpool =>
    rw [(hinv.conns i _ hc).isolated_sharedPool_iff hdefault huse hpool]
    simp
  | onTenantPool i tenantID hc huse hresolve hne hpool =>
    exact iff_of_true ((hinv.conns i _ hc).isolated_tenantPool hdedicated huse hne hpool) (by simp)
  | inProvisioning i hc huse =>
    exact iff_of_true ((hinv.conns i _ hc).isolated_provisioning huse) (by simp)

/-! ## A trial tenant -/

/-- The platform's own search path. -/
def plainDeployment : Deployment where
  defaultPath := ["public", "metadata", "control"]
  dedicatedPath := fun _ => ["public", "metadata"]

theorem plainDeployment_default :
    ∀ name ∈ plainDeployment.defaultPath, isTenantSchema name = false := by
  decide

theorem plainDeployment_dedicated (dsn : String) :
    ∀ name ∈ plainDeployment.dedicatedPath dsn, isTenantSchema name = false := by
  change ∀ name ∈ ["public", "metadata"], isTenantSchema name = false
  decide

def sharedConn : Conn := plainDeployment.connect .shared

/-- One shared connection is opened, and a tenant without a row begins on it. -/
theorem statement_isolated_public :
    ∃ s s', Run (Step plainDeployment) {} [.opened 0 .shared, .began 0 5] s ∧
      Step plainDeployment s (.ran 0 (.transaction 5 (.schema "public")) (schemaPath "public")) s' ∧
      (Isolated plainDeployment (.transaction 5 (.schema "public")) (schemaPath "public") ↔
        ¬ (Owner.transaction 5 (.schema "public") = .sharedPool ∧
          Provisioned [.opened 0 .shared, .began 0 5] 0)) := by
  let c : Conn := { sharedConn with
    localPath := some (schemaPath "public"), use := .transaction 5 (.schema "public") }
  have hbegun : begin 5 (.schema "public") sharedConn = .ok c := by
    have hvalid : validateSchemaName "public" = .ok () := rfl
    rw [Control.begin, hvalid, exec_beginSQL hvalid]
    rfl
  have hrun : Run (Step plainDeployment) {} [.opened 0 .shared, .began 0 5] _ :=
    .snoc (.snoc (.nil _) (.open 0 .shared rfl (by simp))) (.begin 0 5 rfl rfl rfl rfl hbegun)
  have hran := Step.inTransaction (d := plainDeployment)
    (s := .set (.set {} 0 sharedConn) 0 c) (c := c) 0 rfl rfl
  exact ⟨_, _, hrun, hran, statement_isolated_iff plainDeployment plainDeployment_default
    plainDeployment_dedicated _ _ _ hrun 0 _ _ hran⟩

/-- Tenant 5 is provisioned on the only shared connection; the next statement run directly on the
shared pool, such as a login without a tenant, resolves names in tenant 5's schema. -/
theorem provisioning_leaks_search_path :
    ∃ s s', Run (Step plainDeployment) {} [.opened 0 .shared, .provisioned 0 5, .released 0] s ∧
      Step plainDeployment s (.ran 0 .sharedPool (schemaPath (tenantSchemaName 5))) s' ∧
      schemaPath (tenantSchemaName 5) ≠ plainDeployment.defaultPath ∧
      isTenantSchema (tenantSchemaName 5) = true ∧
      ¬ Isolated plainDeployment .sharedPool (schemaPath (tenantSchemaName 5)) := by
  have hne : schemaPath (tenantSchemaName 5) ≠ plainDeployment.defaultPath := by
    intro h
    have hmem : tenantSchemaName 5 ∈ plainDeployment.defaultPath := by
      rw [← h]
      exact List.mem_cons_self
    have hfree := plainDeployment_default _ hmem
    rw [isTenantSchema_tenantSchemaName] at hfree
    cases hfree
  let s : State := .set (.set (.set {} 0 sharedConn) 0 (sharedConn.provision 5)) 0
    { sharedConn.provision 5 with use := .idle }
  have hpath : Conn.path { sharedConn.provision 5 with use := .idle } =
      schemaPath (tenantSchemaName 5) := by
    rw [provision_eq]
    rfl
  have hran : Step plainDeployment s (.ran 0 .sharedPool (schemaPath (tenantSchemaName 5))) s := by
    rw [← hpath]
    exact .onSharedPool 0 rfl rfl (by rw [provision_eq]; rfl)
  exact ⟨s, s, .snoc (.snoc (.snoc (.nil _) (.open 0 .shared rfl (by simp)))
    (.provision 0 5 rfl rfl rfl)) (.release 0 rfl rfl), hran, hne,
    isTenantSchema_tenantSchemaName 5, fun h => hne h.expected⟩

end Metap.Control
