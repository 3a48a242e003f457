import Metap.Auth.Authenticate
import Metap.Crud.Read
import Metap.Framework.Logged

/-!
# The record service over gRPC

A server authenticates each call by its bearer token, serves it with `Crud`, and answers with a
status that carries the refusal in its details; a client puts the refusal back together.  A call
made on behalf of nobody is signed with the client's own service token.

The calls of one client are interleaved with whatever other clients do.  `Moment` is what holds at
one call: the time, the client's current token, what others did to the tables before it and
between the two transactions of a transition, and the order in which a map happens to be iterated.
`Upstream` gives the moment of each call.

Every row a call reads or replaces is logged (`Trace`), the rows of other entities that
permission checks and display values read included.
-/

namespace Metap.Grpc

open Crud Logged

/-! ## Statuses -/

inductive Code where
  | invalidArgument | unauthenticated | permissionDenied | notFound | aborted | internal
  deriving DecidableEq, Repr

def codeForStatus (httpStatus : ℕ) : Code :=
  if httpStatus = 400 ∨ httpStatus = 422 then .invalidArgument
  else if httpStatus = 401 then .unauthenticated
  else if httpStatus = 403 then .permissionDenied
  else if httpStatus = 404 then .notFound
  else if httpStatus = 409 then .aborted
  else .internal

/-- The refusal that rides along with a status. -/
structure ErrorDetails where
  status : ℕ
  errorCode : String
  message : Option String
  fieldErrors : FieldErrors
  deriving DecidableEq, Repr

structure RpcStatus where
  code : Code
  text : String
  details : Option ErrorDetails := none
  deriving DecidableEq, Repr

def errorToStatus : ServiceError → RpcStatus
  | .refused status errorCode message fieldErrors =>
    { code := codeForStatus status, text := message.getD errorCode
      details := some { status, errorCode, message, fieldErrors } }
  | .internal => { code := .internal, text := "internal server error" }

/-- Without details the code decides; what originates upstream is a bad gateway. -/
def statusToServiceErr (st : RpcStatus) : ServiceError :=
  match st.details with
  | some d =>
    if d.fieldErrors ≠ [] then
      .refused d.status d.errorCode (some (d.message.getD d.errorCode)) d.fieldErrors
    else .refused d.status d.errorCode d.message []
  | none =>
    let httpStatus :=
      match st.code with
      | .invalidArgument => 400
      | .unauthenticated => 401
      | .permissionDenied => 403
      | .notFound => 404
      | .aborted => 409
      | .internal => 502
    .withMessage httpStatus "upstream_error" st.text

/-! ## The world of a client -/

/-- What a client's calls do: rows read, rows a transition replaces, and the client's own
attempts to transition a record. -/
inductive Trace where
  | read (row : StoredRecord)
  | replaced (row : StoredRecord)
  | attempt (entity : String) (id : Uuid) (action : String)

/-- The row of an entry that is about one. -/
def Trace.row? : Trace → Option StoredRecord
  | .read row => some row
  | .replaced row => some row
  | .attempt _ _ _ => none

structure World where
  store : Store
  calls : ℕ := 0

/-- What holds at one call. -/
structure Moment where
  now : ℤ
  token : TokenText
  before : Store → Store := id
  between : Store → Store := id
  commit : CommitEnv
  arrange : List (String × String) → List (String × String) := id
  arrange_perm : ∀ entries, (arrange entries).Perm entries := by exact fun _ => .rfl

structure Upstream where
  svc : Service
  directory : CallerDirectory
  leeway : ℤ
  readToken : String → TokenText
  moment : ℕ → Moment

/-- The next call begins. -/
def tick {ε : Type} (up : Upstream) : Logged World Trace ε Moment := fun w =>
  ⟨.ok (up.moment w.calls), ⟨(up.moment w.calls).before w.store, w.calls + 1⟩, []⟩

/-- The caller's own token when it was forwarded, else the service token. -/
def pickToken (up : Upstream) (rc : RequestContext) (serviceToken : TokenText) : TokenText :=
  if rc.forwardedBearerToken ≠ "" then up.readToken rc.forwardedBearerToken else serviceToken

/-! ## The server -/

def unauthenticated (text : String) : RpcStatus := { code := .unauthenticated, text }

def authenticate (up : Upstream) (now : ℤ) (token : TokenText) :
    Except RpcStatus RequestContext :=
  if token.isEmpty then .error (unauthenticated "authorization metadata must be a Bearer token")
  else
    match decodeAccessToken now up.leeway token with
    | none => .error (unauthenticated "invalid or expired token")
    | some claims =>
      match up.svc.codec.parse claims.tenantID, up.svc.codec.parse claims.subject with
      | some tenantID, some userID =>
        match resolveRequestContext up.svc.codec up.directory tenantID userID
            (claims.functionID.getD "") with
        | none => .error (unauthenticated "failed to resolve roles")
        | some rc =>
          match claims.scope with
          | some scope => .ok (rc.applyOAuthGrant scope claims.clientID)
          | none => .ok rc
      | _, _ => .error (unauthenticated "token is missing required claims")

/-- A result of the service, as the server answers it. -/
def serviced {α : Type} (x : Except ServiceError α) : Logged World Trace RpcStatus α :=
  ofExcept (x.mapError errorToStatus)

def checkLimit (limit : ℤ) : Except RpcStatus Unit :=
  if limit ≤ 0 ∨ 200 < limit then
    .error { code := .invalidArgument
             text := "`limit` must be a positive integer no greater than 200." }
  else .ok ()

/-- The rows of other entities that a permission check on a record reads. -/
def relatedRows (svc : Service) (store : Store) (o : Opened) (actions : List EntityAction)
    (record : JsonObject) : List StoredRecord :=
  (relationFields o.ctx actions).filterMap fun fieldName =>
    (referenceTarget svc.codec o.ctx o.entity record fieldName).bind fun (refEntity, id) =>
      fetchExisting (store refEntity.tableName) id o.tenantID

/-- The rows of other entities that the display values of a page are read from. -/
def displayedRows (svc : Service) (store : Store) (o : Opened) (records : List RecordDto) :
    List StoredRecord :=
  records.flatMap fun record => (displayFields o.entity).filterMap fun field =>
    (referenceID svc record.data field.name).bind fun id => fetchDisplayed svc store o field id

/-- On the wire the filters are a map. -/
def wireInput (m : Moment) (input : Query.ListInput) : Query.ListInput :=
  { input with
    filters := m.arrange (input.filters.foldl (fun acc kv => insertEntry kv.1 kv.2 acc) []) }

section

variable (up : Upstream) (m : Moment)

def serveList (token : TokenText) (entityName : String) (input : Query.ListInput) :
    Logged World Trace RpcStatus ListPage := do
  let rc ← ofExcept (authenticate up m.now token)
  ofExcept (checkLimit input.limit)
  let w ← state
  let o ← serviced (openForRead up.svc w.store rc entityName)
  let planned ← serviced (planPage up.svc o (wireInput m input))
  let rows ← serviced (fetchPage up.svc w.store o planned)
  emit (rows.map .read)
  emit ((displayedRows up.svc w.store o (maskedPage o planned rows)).map .read)
  return presentPage up.svc w.store o planned rows

def serveGet (token : TokenText) (entityName : String) (id : Uuid) :
    Logged World Trace RpcStatus GetResult := do
  let rc ← ofExcept (authenticate up m.now token)
  let w ← state
  let (o, existing, actors) ← serviced (findRecord up.svc w.store rc entityName id)
  emit ((existing :: relatedRows up.svc w.store o getActions existing.data).map .read)
  serviced (presentRecord up.svc o existing actors)

/-- The rows a transition reads before it is decided. -/
def transitionReads (store : Store) (o : Opened) (call : Call) : List StoredRecord :=
  if (canPerformOperation o.entity call.ctx call.op).allowed then
    match fetchExisting (store o.entity.tableName) call.id o.tenantID with
    | some existing =>
      existing :: relatedRows up.svc store o [.transition] existing.data
    | none => []
  else []

def serveTransition (token : TokenText) (entityName : String) (id : Uuid) (action : String)
    (expectedVersion : ℤ) (payload : Option JsonObject) :
    Logged World Trace RpcStatus RecordDto := do
  let rc ← ofExcept (authenticate up m.now token)
  let w ← state
  let o ← serviced (openEntity up.svc w.store rc entityName)
  let call : Call := { ctx := o.ctx, id, expectedVersion, op := .transition action payload }
  emit ((transitionReads up w.store o call).map .read)
  let p ← serviced (load (up.svc.platform o.entity) o.entity (w.store o.entity.tableName) call)
  modify fun w => { w with store := m.between w.store }
  let w ← state
  let (write, db) ← serviced (commit (up.svc.platform o.entity) o.entity
    (w.store o.entity.tableName) p m.commit)
  emit [.replaced write.replaced]
  modify fun w => { w with store := Function.update w.store o.entity.tableName db }
  return respond (up.svc.platform o.entity) o.entity write

end

/-! ## The client -/

section

variable (up : Upstream) (rc : RequestContext)

def list (entityName : String) (input : Query.ListInput) :
    Logged World Trace ServiceError ListPage := do
  let m ← tick up
  mapError statusToServiceErr (serveList up m (pickToken up rc m.token) entityName input)

def get (entityName : String) (id : Uuid) : Logged World Trace ServiceError GetResult := do
  let m ← tick up
  mapError statusToServiceErr (serveGet up m (pickToken up rc m.token) entityName id)

def transition (entityName : String) (id : Uuid) (action : String) (expectedVersion : ℤ)
    (payload : Option JsonObject) : Logged World Trace ServiceError RecordDto := do
  let m ← tick up
  mapError statusToServiceErr
    (serveTransition up m (pickToken up rc m.token) entityName id action expectedVersion payload)

end

/-! ## A list that was answered -/

theorem result_serviced_eq_ok {α : Type} {x : Except ServiceError α} {w : World} {a : α} :
    (serviced x w).result = .ok a ↔ x = .ok a := by
  change x.mapError errorToStatus = .ok a ↔ _
  cases x <;> simp [Except.mapError]

theorem list_eq_ok {up : Upstream} {rc : RequestContext} {entityName : String}
    {input : Query.ListInput} {w : World} {page : ListPage}
    (h : (list up rc entityName input w).result = .ok page) : ∃ caller o planned rows,
      authenticate up (up.moment w.calls).now (pickToken up rc (up.moment w.calls).token) =
        .ok caller ∧
      openForRead up.svc ((up.moment w.calls).before w.store) caller entityName = .ok o ∧
      planPage up.svc o (wireInput (up.moment w.calls) input) = .ok planned ∧
      fetchPage up.svc ((up.moment w.calls).before w.store) o planned = .ok rows ∧
      page = presentPage up.svc ((up.moment w.calls).before w.store) o planned rows := by
  obtain ⟨m, hm, h, -⟩ := exists_of_bind_ok h
  cases hm
  obtain ⟨caller, hcaller, h, -⟩ := exists_of_bind_ok (result_mapError_eq_ok.mp h)
  obtain ⟨_, -, h, -⟩ := exists_of_bind_ok h
  obtain ⟨w', hw', h, -⟩ := exists_of_bind_ok h
  cases hw'
  obtain ⟨o, ho, h, -⟩ := exists_of_bind_ok h
  obtain ⟨planned, hplanned, h, -⟩ := exists_of_bind_ok h
  obtain ⟨rows, hrows, h, -⟩ := exists_of_bind_ok h
  obtain ⟨_, -, h, -⟩ := exists_of_bind_ok h
  obtain ⟨_, -, h, -⟩ := exists_of_bind_ok h
  cases h
  exact ⟨caller, o, planned, rows, hcaller, result_serviced_eq_ok.mp ho,
    result_serviced_eq_ok.mp hplanned, result_serviced_eq_ok.mp hrows, rfl⟩

end Metap.Grpc
