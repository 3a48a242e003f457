import Metap.Auth.Token

/-!
# Authenticating a request

A request is authenticated by the token of its `Authorization` header or, when it has none, by
its session cookie; a state-changing request that relies on the cookie must also echo the CSRF
cookie in a header.  The token's user and tenant are looked up for their roles and attributes,
and an OAuth2 scope claim is folded into the context.
-/

namespace Metap

/-- The `Authorization` header of a request. -/
inductive AuthorizationHeader where
  | bearer (token : TokenText)
  | basic (id secret : String)
  | other (text : String)
  deriving DecidableEq, Repr

/-- The credentials a request carries. -/
structure Credentials where
  authorization : Option AuthorizationHeader := none
  sessionCookie : Option TokenText := none
  csrfCookie : Option String := none
  sessionStartedAtCookie : Option String := none
  /-- The empty string when the header is missing. -/
  csrfHeader : String := ""
  deriving DecidableEq, Repr

inductive Method where
  | get | head | options | post | put | patch | delete
  deriving DecidableEq, Repr

def requiresCSRFCheck : Method → Bool
  | .get | .head | .options => false
  | _ => true

/-- The double-submit comparison. -/
def csrfMatches (cookieValue : Option String) (headerValue : String) : Bool :=
  match cookieValue with
  | none => false
  | some v => headerValue ≠ "" && v ≠ "" && v = headerValue

/-- A refused request: the status, its code and the message. -/
structure AuthError where
  status : ℕ
  message : String
  deriving DecidableEq, Repr

namespace AuthError

def unauthorized (message : String) : AuthError := { status := 401, message }

def forbidden (message : String) : AuthError := { status := 403, message }

/-- The error code of the response. -/
def code (e : AuthError) : String := if e.status = 403 then "forbidden" else "unauthorized"

end AuthError

/-- The token a request authenticates by. -/
def presentedToken (method : Method) (creds : Credentials) : Except AuthError TokenText :=
  match creds.authorization with
  | some (.bearer token) =>
    if token.isEmpty then .error (.unauthorized "Missing or invalid authorization header.")
    else .ok token
  | some _ => .error (.unauthorized "Missing or invalid authorization header.")
  | none =>
    match creds.sessionCookie with
    | none => .error (.unauthorized "Missing or invalid authorization header.")
    | some cookie =>
      if cookie.isEmpty then .error (.unauthorized "Missing or invalid authorization header.")
      else if requiresCSRFCheck method && !csrfMatches creds.csrfCookie creds.csrfHeader then
        .error (.unauthorized "Missing or invalid CSRF token.")
      else .ok cookie

/-- What the database knows of a caller: the roles, and the attributes of the record configured
to describe callers.  A failed attribute lookup counts as no attributes. -/
structure CallerRecord where
  roles : Option (List String) := none
  contextAttributes : Option JsonObject := none

/-- The scope tokens a caller's own attributes name. -/
def CallerRecord.oauthScope (caller : CallerRecord) : Option (List String) :=
  RequestContext.oauthScope { tenantID := "", contextAttributes := caller.contextAttributes }

/-- The lookup of a tenant's user; it fails when the tenant cannot be reached. -/
abbrev CallerDirectory := Uuid → Uuid → Option CallerRecord

section

variable (codec : UuidCodec)

def resolveRequestContext (directory : CallerDirectory) (tenantID userID : Uuid)
    (functionID : String) : Option RequestContext := do
  let caller ← directory tenantID userID
  return {
    tenantID := codec.format tenantID
    userID := codec.format userID
    roles := caller.roles
    hasRoles := true
    functionID
    contextAttributes := caller.contextAttributes }

def tokenLeewaySeconds : ℤ := 20

/-- The context of an already presented token. -/
def authenticateToken (directory : CallerDirectory) (now : ℤ) (token : TokenText) :
    Except AuthError RequestContext :=
  match decodeAccessToken now tokenLeewaySeconds token with
  | none => .error (.unauthorized "Invalid or expired token.")
  | some claims =>
    match codec.parse claims.tenantID, codec.parse claims.subject with
    | some tenantID, some userID =>
      match resolveRequestContext codec directory tenantID userID (claims.functionID.getD "") with
      | none => .error (.unauthorized "Failed to resolve roles.")
      | some rc =>
        match claims.scope with
        | some scope => .ok (rc.applyOAuthGrant scope claims.clientID)
        | none => .ok rc
    | _, _ => .error (.unauthorized "Token is missing required claims.")

def authenticate (directory : CallerDirectory) (now : ℤ) (method : Method)
    (creds : Credentials) : Except AuthError RequestContext := do
  let token ← presentedToken method creds
  authenticateToken codec directory now token

def requireAdmin (directory : CallerDirectory) (now : ℤ) (method : Method)
    (creds : Credentials) : Except AuthError RequestContext := do
  let rc ← authenticate codec directory now method creds
  if !rc.isAdmin then throw (.forbidden "This action requires the admin role.")
  if !rc.scopePermitsAdminSurface then
    throw (.forbidden "This action requires the `admin` OAuth2 scope.")
  return rc

/-- The extra gate of the route that mints a credential: a request relying on its cookie must
present the double-submit pair even though the method is safe. -/
def credentialIssuingRequestAllowed (creds : Credentials) : Bool :=
  creds.authorization.isSome || creds.sessionCookie.isNone ||
    csrfMatches creds.csrfCookie creds.csrfHeader

/-- The grant a context carries when its token was minted with `scope`: the scope's own tokens,
or, when the scope is empty and so left out, whatever the caller's attributes say. -/
theorem authenticateToken_mintClaims (directory : CallerDirectory) {now now' : ℤ}
    (jti : String) {tenantID userID : Uuid} {ttlSeconds : ℕ} (scope clientID : String)
    {caller : CallerRecord} (hcaller : directory tenantID userID = some caller)
    (hfresh : now' < now + ttlSeconds + tokenLeewaySeconds) :
    ∃ rc, authenticateToken codec directory now'
        (.signed (mintClaims codec now jti tenantID userID ttlSeconds scope clientID)) = .ok rc ∧
      rc.tenantID = codec.format tenantID ∧ rc.userID = codec.format userID ∧
      rc.oauthScope = if scope = "" then caller.oauthScope else some (Strings.fields scope) := by
  simp only [authenticateToken, decodeAccessToken, mintClaims, hfresh, resolveRequestContext]
  by_cases hscope : scope = ""
  · subst hscope
    simp [omitEmpty, hcaller, RequestContext.oauthScope, CallerRecord.oauthScope]
  · refine ⟨_, by simp [omitEmpty, hcaller, hscope]; rfl, rfl, rfl, ?_⟩
    simp [hscope]

end

end Metap
