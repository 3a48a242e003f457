import Metap.OAuth.Store

/-!
# The auth and OAuth2 routes

The handlers that log callers in, slide their sessions, mint tokens and run the OAuth2 flows.
`handle` is the router: from the store and a request it makes the response and the new store.

What a handler draws at random and reads from elsewhere (the clock, the caller directory, the
password check, the session settings) is its `Env`.  A database that fails is not modelled; an
insert that breaks a unique constraint is, and answers 500.
-/

namespace Metap.OAuth

/-! ## Requests and responses -/

structure AuthUser where
  id : Uuid
  tenantID : Uuid
  email : String

/-- What a handler needs besides the store. -/
structure Env where
  now : ℤ
  directory : CallerDirectory
  verifyPassword : Option Uuid → String → String → Option AuthUser
  emailOf : Uuid → Uuid → Option String
  sessionTTLSeconds : Uuid → ℕ
  sessionAbsoluteMaxSeconds : Uuid → ℤ
  /-- The identifier of a token minted by this request. -/
  jti : String
  /-- Two freshly drawn secrets and a fresh row identifier. -/
  rawToken : String
  rawSecret : String
  newID : Uuid
  serviceUserID : Uuid
  csrfValue : String

/-- The digests: of opaque tokens and of code verifiers. -/
structure Digests where
  hashToken : String → String
  pkceChallenge : String → String

structure LoginBody where
  email : String
  password : String
  tenantID : Option Uuid := none

/-- The query of an authorization request; a missing parameter is empty. -/
structure AuthorizeQuery where
  responseType : String := "code"
  clientID : String
  redirectURI : String
  scope : String := ""
  state : String := ""
  codeChallenge : String := ""
  codeChallengeMethod : String := ""
  deriving DecidableEq, Repr

structure DecisionBody where
  requestID : Uuid
  approve : Bool
  deriving DecidableEq, Repr

/-- The form of a token or revocation request; a missing field is empty. -/
structure TokenForm where
  grantType : String := ""
  code : String := ""
  redirectURI : String := ""
  codeVerifier : String := ""
  refreshToken : String := ""
  scope : String := ""
  token : String := ""
  clientID : String := ""
  clientSecret : String := ""
  deriving DecidableEq, Repr

/-- The scope a refresh asks for: a missing parameter asks for what was granted. -/
def TokenForm.requestedScope (form : TokenForm) (granted : String) : String :=
  if form.scope = "" then granted else form.scope

structure CreateClientBody where
  name : String
  redirectURIs : List String
  allowedScopes : List String := []
  isConfidential : Option Bool := none
  deriving DecidableEq, Repr

/-- The routes with what the request carries for them; a body that does not decode is `none`. -/
inductive Route where
  | login (body : Option LoginBody)
  | logout
  | me
  | issueToken
  | authorize (q : AuthorizeQuery)
  | decision (body : Option DecisionBody)
  | token (form : Option TokenForm)
  | revoke (form : Option TokenForm)
  | discovery
  | createClient (body : Option CreateClientBody)
  | listClients
  | revokeClient (id : String)

def Route.method : Route → Method
  | .me | .issueToken | .authorize _ | .discovery | .listClients => .get
  | .revokeClient _ => .delete
  | _ => .post

structure Request where
  route : Route
  creds : Credentials

inductive SetCookie where
  | session (token : TokenText) (maxAge : ℤ)
  | csrf (value : String) (maxAge : ℤ)
  | sessionStartedAt (unixSecs : ℤ) (maxAge : ℤ)
  | clear (name : String)
  deriving DecidableEq, Repr

/-- Where an authorization ends: the client's redirect URI with a code, or with a refusal. -/
structure Redirect where
  uri : String
  code : Option String
  state : Option String
  deriving DecidableEq, Repr

structure TokenResponse where
  accessToken : TokenText
  tokenType : String := "Bearer"
  expiresIn : ℕ
  refreshToken : Option String
  scope : String
  deriving DecidableEq, Repr

inductive Body where
  | empty
  | error (code message : String)
  | token (token : TokenText)
  | identity (userID tenantID : String) (email : Option String) (roles : Option (List String))
  | tokenResponse (r : TokenResponse)
  | redirect (r : Redirect)
  | consentPage (clientName scope : String) (requestID : Uuid)
  | client (client : Client) (secret : String)
  | clients (clients : List Client)
  | discovery
  deriving DecidableEq, Repr

structure Response where
  status : ℕ
  cookies : List SetCookie := []
  body : Body

namespace Response

def serviceError (status : ℕ) (code message : String) : Response :=
  { status, body := .error code message }

def internalError : Response :=
  serviceError 500 "internal_error" "Internal server error."

def authError (e : AuthError) : Response := serviceError e.status e.code e.message

end Response

/-! ## Sessions -/

def oauthAccessTokenTTLSeconds : ℕ := 3600

/-- A decimal integer of 64 bits, with an optional sign. -/
def parseInt64 (s : String) : Option ℤ :=
  let (sign, digits) : ℤ × List Char :=
    match s.toList with
    | '-' :: ds => (-1, ds)
    | '+' :: ds => (1, ds)
    | ds => (1, ds)
  if digits = [] ∨ !digits.all Char.isDigit then none
  else
    let n := sign * (Nat.ofDigitChars 10 digits 0 : ℕ)
    if -2 ^ 63 ≤ n ∧ n < 2 ^ 63 then some n else none

/-- Subtraction of 64-bit integers. -/
def subInt64 (a b : ℤ) : ℤ := Int.bmod (a - b) (2 ^ 64)

section

variable (codec : UuidCodec) (digests : Digests) (env : Env) (store : Store)

def mintSession (tenantID userID : Uuid) (ttlSeconds : ℕ) : TokenText :=
  .signed (mintJWT codec env.now env.jti tenantID userID ttlSeconds)

def mintOAuth (tenantID userID : Uuid) (scope clientID : String) : TokenText :=
  .signed (mintOAuthAccessToken codec env.now env.jti tenantID userID oauthAccessTokenTTLSeconds
    scope clientID)

def login (body : Option LoginBody) : Response :=
  match body with
  | none => .serviceError 400 "validation_failed" "Invalid request body."
  | some body =>
    match env.verifyPassword body.tenantID body.email body.password with
    | none => .serviceError 401 "invalid_credentials" "Invalid email or password."
    | some user =>
      let ttl := env.sessionTTLSeconds user.tenantID
      let token := mintSession codec env user.tenantID user.id ttl
      { status := 200
        cookies := [.session token ttl, .csrf env.csrfValue ttl,
          .sessionStartedAt env.now (env.sessionAbsoluteMaxSeconds user.tenantID)]
        body := .token token }

def logout : Response :=
  { status := 204
    cookies := [.clear "metap_session", .clear "metap_csrf", .clear "metap_session_started_at"]
    body := .empty }

/-- The cookies a still young cookie session gets on a poll.  The caller may have authenticated
by a header all the same. -/
def tryRefreshSession (creds : Credentials) (rc : RequestContext) : Option (List SetCookie) := do
  let session ← creds.sessionCookie
  guard (!session.isEmpty)
  let startedAt ← creds.sessionStartedAtCookie.bind parseInt64
  let csrf ← creds.csrfCookie
  let tenantID ← codec.parse rc.tenantID
  let userID ← codec.parse rc.userID
  guard (subInt64 env.now startedAt < env.sessionAbsoluteMaxSeconds tenantID)
  let ttl := env.sessionTTLSeconds tenantID
  return [.session (mintSession codec env tenantID userID ttl) ttl, .csrf csrf ttl]

def me (creds : Credentials) : Response :=
  match authenticate codec env.directory env.now .get creds with
  | .error e => .authError e
  | .ok rc =>
    let email := do
      let userID ← codec.parse rc.userID
      let tenantID ← codec.parse rc.tenantID
      env.emailOf tenantID userID
    { status := 200
      cookies := (tryRefreshSession codec env creds rc).getD []
      body := .identity rc.userID rc.tenantID email rc.roles }

def issueToken (creds : Credentials) : Response :=
  match authenticate codec env.directory env.now .get creds with
  | .error e => .authError e
  | .ok rc =>
    if !credentialIssuingRequestAllowed creds then
      .serviceError 401 "unauthorized" "Missing or invalid CSRF token."
    else
      match codec.parse rc.tenantID, codec.parse rc.userID with
      | some tenantID, some userID =>
        { status := 200
          body := .token
            (mintSession codec env tenantID userID (env.sessionTTLSeconds tenantID)) }
      | _, _ => .internalError

/-! ## Authorization -/

def nilIfEmpty (s : String) : Option String := if s = "" then none else some s

/-- Store a fresh code for a grant; the redirect carries the code itself. -/
def issueAuthorizationCode (grant : Grant) (redirectURI : String)
    (codeChallenge codeChallengeMethod clientState : Option String) :
    Option (Redirect × Store) := do
  let store ← store.createAuthorizationCode {
    codeHash := digests.hashToken env.rawToken
    grant, redirectURI, codeChallenge, codeChallengeMethod
    expiresAt := env.now + authorizationCodeTTLSeconds }
  return ({ uri := redirectURI, code := some env.rawToken, state := clientState }, store)

/-- The checks of an authorization request against its client; the first that fails answers. -/
def checkAuthorize (tenantID : Uuid) (client : Client) (q : AuthorizeQuery) : Option Response :=
  if client.revokedAt.isSome then
    some (.serviceError 400 "invalid_client" "This client has been revoked.")
  else if client.tenantID ≠ tenantID then
    some (.serviceError 403 "invalid_client" "This client does not belong to your tenant.")
  else if !client.redirectURIs.contains q.redirectURI then
    some (.serviceError 400 "invalid_request" "redirect_uri is not registered for this client.")
  else if q.codeChallengeMethod ≠ "" ∧ q.codeChallengeMethod ≠ "S256" then
    some (.serviceError 400 "invalid_request" "Only code_challenge_method=S256 is supported.")
  else if !client.isConfidential ∧ q.codeChallenge = "" then
    some (.serviceError 400 "invalid_request"
      "code_challenge (PKCE) is required for a public client.")
  else if !scopeIsSubset q.scope client.allowedScope then
    some (.serviceError 400 "invalid_scope"
      "Requested scope exceeds what this client is allowed to request.")
  else none

/-- A scope the user has approved before goes straight to a code; any other shows the consent
page for a new pending authorization. -/
def grantOrAskConsent (client : Client) (tenantID userID : Uuid) (q : AuthorizeQuery) :
    Response × Store :=
  let grant : Grant := { clientID := client.id, tenantID, userID, scope := q.scope }
  let codeChallenge := nilIfEmpty q.codeChallenge
  let codeChallengeMethod := nilIfEmpty q.codeChallengeMethod
  let clientState := nilIfEmpty q.state
  if (store.getConsentScope client.id userID).any (scopeIsSubset q.scope) then
    match issueAuthorizationCode digests env store grant q.redirectURI codeChallenge
      codeChallengeMethod clientState with
    | some (redirect, store) => ({ status := 302, body := .redirect redirect }, store)
    | none => (.internalError, store)
  else
    match store.createPendingAuthorization {
      id := env.newID, grant, redirectURI := q.redirectURI, codeChallenge, codeChallengeMethod
      clientState, expiresAt := env.now + pendingAuthorizationTTLSeconds } with
    | some store => ({ status := 200, body := .consentPage client.name q.scope env.newID }, store)
    | none => (.internalError, store)

def authorizeOAuth2 (creds : Credentials) (q : AuthorizeQuery) : Response × Store :=
  match authenticate codec env.directory env.now .get creds with
  | .error e => (.authError e, store)
  | .ok rc =>
    if q.responseType ≠ "code" then
      (.serviceError 400 "unsupported_response_type" "Only response_type=code is supported.",
        store)
    else
      match codec.parse rc.tenantID, codec.parse rc.userID with
      | none, _ => (.internalError, store)
      | some _, none =>
        (.serviceError 401 "unauthorized" "A user session is required to authorize a client.",
          store)
      | some tenantID, some userID =>
        match store.getClientByClientID q.clientID with
        | none => (.serviceError 400 "invalid_client" "Unknown client_id.", store)
        | some client =>
          match checkAuthorize tenantID client q with
          | some refusal => (refusal, store)
          | none => grantOrAskConsent digests env store client tenantID userID q

def authorizeDecision (creds : Credentials) (body : Option DecisionBody) : Response × Store :=
  match authenticate codec env.directory env.now .post creds with
  | .error e => (.authError e, store)
  | .ok rc =>
    match body with
    | none => (.serviceError 400 "validation_failed" "Invalid request body.", store)
    | some body =>
      match codec.parse rc.tenantID, codec.parse rc.userID with
      | none, _ => (.internalError, store)
      | some _, none => (.serviceError 401 "unauthorized" "A user session is required.", store)
      | some tenantID, some userID =>
        match store.consumePendingAuthorization env.now body.requestID tenantID userID with
        | none =>
          (.serviceError 400 "invalid_request" ("This authorization request has expired or was " ++
            "already decided. Please start over."), store)
        | some (pending, store) =>
          if !body.approve then
            ({ status := 200
               body := .redirect
                { uri := pending.redirectURI, code := none, state := pending.clientState } },
              store)
          else
            let store :=
              store.recordConsent tenantID pending.grant.clientID userID pending.grant.scope
            let grant := { pending.grant with tenantID, userID }
            match issueAuthorizationCode digests env store grant pending.redirectURI
              pending.codeChallenge pending.codeChallengeMethod pending.clientState with
            | some (redirect, store) => ({ status := 200, body := .redirect redirect }, store)
            | none => (.internalError, store)

/-! ## The token endpoint -/

/-- The client's credentials: a basic `Authorization` header, else the form. -/
def extractClientAuth (creds : Credentials) (form : TokenForm) : Option (String × String) :=
  match creds.authorization with
  | some (.basic id secret) => some (id, secret)
  | _ =>
    if form.clientID ≠ "" ∧ form.clientSecret ≠ "" then some (form.clientID, form.clientSecret)
    else none

def authenticateOAuthClient (creds : Credentials) (form : TokenForm) : Except Response Client :=
  match extractClientAuth creds form with
  | none => .error (.serviceError 401 "invalid_client" "Client authentication is required.")
  | some (clientID, secret) =>
    match store.getClientByClientID clientID with
    | none => .error (.serviceError 401 "invalid_client" "Unknown client.")
    | some client =>
      if !Store.verifyClientSecret digests.hashToken client secret then
        .error (.serviceError 401 "invalid_client" "Invalid client credentials.")
      else .ok client

def clientCredentialsGrant (client : Client) : Response :=
  if !client.isConfidential then
    .serviceError 400 "unauthorized_client" "client_credentials requires a confidential client."
  else
    match client.serviceUserID with
    | none =>
      .serviceError 400 "unauthorized_client" ("This client has no service account " ++
        "provisioned; re-register it to use client_credentials.")
    | some serviceUserID =>
      -- the request's own scope parameter is not read
      let requestedScope := ""
      if !scopeIsSubset requestedScope client.allowedScope then
        .serviceError 400 "invalid_scope"
          "Requested scope exceeds what this client is allowed to request."
      else
        { status := 200
          body := .tokenResponse {
            accessToken :=
              mintOAuth codec env client.tenantID serviceUserID requestedScope client.clientID
            expiresIn := oauthAccessTokenTTLSeconds
            refreshToken := none
            scope := requestedScope } }

/-- The proof key of a code, when it was issued with one. -/
def checkPKCE (codeChallenge : Option String) (codeVerifier : String) : Option Response :=
  match codeChallenge with
  | none => none
  | some challenge =>
    if codeVerifier = "" then
      some (.serviceError 400 "invalid_grant"
        "code_verifier is required for this authorization code.")
    else if digests.pkceChallenge codeVerifier ≠ challenge then
      some (.serviceError 400 "invalid_grant" "code_verifier does not match code_challenge.")
    else none

def authorizationCodeGrant (client : Client) (form : TokenForm) : Response × Store :=
  if form.code = "" ∨ form.redirectURI = "" then
    (.serviceError 400 "invalid_request" "code and redirect_uri are required.", store)
  else
    match store.consumeAuthorizationCode env.now (digests.hashToken form.code) client.id
      form.redirectURI with
    | none =>
      (.serviceError 400 "invalid_grant" "Invalid, expired, or already-used authorization code.",
        store)
    | some (record, store) =>
      match checkPKCE digests record.codeChallenge form.codeVerifier with
      | some refusal => (refusal, store)
      | none =>
        match store.createRefreshToken {
          id := env.newID
          tokenHash := digests.hashToken env.rawToken
          grant := { record.grant with clientID := client.id }
          expiresAt := env.now + refreshTokenTTLSeconds } with
        | none => (.internalError, store)
        | some store =>
          ({ status := 200
             body := .tokenResponse {
              accessToken := mintOAuth codec env record.grant.tenantID record.grant.userID
                record.grant.scope client.clientID
              expiresIn := oauthAccessTokenTTLSeconds
              refreshToken := some env.rawToken
              scope := record.grant.scope } }, store)

def refreshTokenGrant (client : Client) (form : TokenForm) : Response × Store :=
  if form.refreshToken = "" then
    (.serviceError 400 "invalid_request" "refresh_token is required.", store)
  else
    match store.consumeRefreshToken env.now (digests.hashToken form.refreshToken) client.id
      env.newID (digests.hashToken env.rawToken) with
    | none => (.internalError, store)
    | some .invalid =>
      (.serviceError 400 "invalid_grant" "Invalid, expired, or revoked refresh token.", store)
    | some (.reused revoked) =>
      (.serviceError 400 "invalid_grant" ("Refresh token reuse detected; this client's token " ++
        "chain has been revoked. The user must re-authorize."), revoked)
    | some (.rotated record rotated) =>
      let requestedScope := form.requestedScope record.grant.scope
      if !scopeIsSubset requestedScope record.grant.scope then
        -- the rotation is rolled back
        (.serviceError 400 "invalid_scope"
          "Requested scope exceeds the originally granted scope.", store)
      else
        ({ status := 200
           body := .tokenResponse {
            accessToken := mintOAuth codec env record.grant.tenantID record.grant.userID
              requestedScope client.clientID
            expiresIn := oauthAccessTokenTTLSeconds
            refreshToken := some env.rawToken
            scope := requestedScope } }, rotated)

/-- The grant of an authenticated client. -/
def clientGrant (client : Client) (form : TokenForm) : Response × Store :=
  match form.grantType with
  | "authorization_code" => authorizationCodeGrant codec digests env store client form
  | "refresh_token" => refreshTokenGrant codec digests env store client form
  | "client_credentials" => (clientCredentialsGrant codec env client, store)
  | _ =>
    (.serviceError 400 "unsupported_grant_type"
      "Only authorization_code, refresh_token, and client_credentials are supported.", store)

def tokenEndpoint (creds : Credentials) (form : Option TokenForm) : Response × Store :=
  match form with
  | none => (.serviceError 400 "invalid_request" "Invalid request body.", store)
  | some form =>
    match authenticateOAuthClient digests store creds form with
    | .error refusal => (refusal, store)
    | .ok client =>
      if client.revokedAt.isSome then
        (.serviceError 401 "invalid_client" "This client has been revoked.", store)
      else clientGrant codec digests env store client form

def revokeEndpoint (creds : Credentials) (form : Option TokenForm) : Response × Store :=
  match form with
  | none => (.serviceError 400 "invalid_request" "Invalid request body.", store)
  | some form =>
    match authenticateOAuthClient digests store creds form with
    | .error refusal => (refusal, store)
    | .ok client =>
      ({ status := 200, body := .empty },
        store.revokeRefreshToken env.now (digests.hashToken form.token) client.id)

/-! ## Client administration -/

def createOAuthClientAdmin (creds : Credentials) (body : Option CreateClientBody) :
    Response × Store :=
  match requireAdmin codec env.directory env.now .post creds with
  | .error e => (.authError e, store)
  | .ok rc =>
    match body, codec.parse rc.tenantID with
    | none, _ => (.serviceError 400 "validation_failed" "Invalid request body.", store)
    | some _, none => (.internalError, store)
    | some body, some tenantID =>
      let client : Client := {
        id := env.newID
        tenantID
        clientID := "mcl_" ++ env.rawToken
        name := body.name
        redirectURIs := body.redirectURIs
        allowedScopes := body.allowedScopes
        isConfidential := body.isConfidential.getD true
        serviceUserID := some env.serviceUserID
        clientSecretHash := digests.hashToken env.rawSecret }
      match store.createClient client with
      | some store => ({ status := 201, body := .client client env.rawSecret }, store)
      | none => (.internalError, store)

def listOAuthClientsAdmin (creds : Credentials) : Response :=
  match requireAdmin codec env.directory env.now .get creds with
  | .error e => .authError e
  | .ok rc =>
    match codec.parse rc.tenantID with
    | none => .internalError
    | some tenantID => { status := 200, body := .clients (store.listClients tenantID) }

def revokeOAuthClientAdmin (creds : Credentials) (id : String) : Response × Store :=
  match requireAdmin codec env.directory env.now .delete creds with
  | .error e => (.authError e, store)
  | .ok rc =>
    let notFound := Response.serviceError 404 "not_found" "No such client in your tenant."
    match codec.parse id, codec.parse rc.tenantID with
    | none, _ => (notFound, store)
    | some _, none => (.internalError, store)
    | some id, some tenantID =>
      match store.revokeClient env.now tenantID id with
      | some store => ({ status := 204, body := .empty }, store)
      | none => (notFound, store)

/-- The router. -/
def handle (req : Request) : Response × Store :=
  match req.route with
  | .login body => (login codec env body, store)
  | .logout => (logout, store)
  | .me => (me codec env req.creds, store)
  | .issueToken => (issueToken codec env req.creds, store)
  | .authorize q => authorizeOAuth2 codec digests env store req.creds q
  | .decision body => authorizeDecision codec digests env store req.creds body
  | .token form => tokenEndpoint codec digests env store req.creds form
  | .revoke form => revokeEndpoint digests env store req.creds form
  | .discovery => ({ status := 200, body := .discovery }, store)
  | .createClient body => createOAuthClientAdmin codec digests env store req.creds body
  | .listClients => (listOAuthClientsAdmin codec env store req.creds, store)
  | .revokeClient id => revokeOAuthClientAdmin codec env store req.creds id

end

end Metap.OAuth
