import Metap.OAuth.Effect

/-!
# What a minted token grants

The token endpoint answers with an access token and the scope it was granted.  Whatever the grant
type, the token is minted with exactly that scope; but the claim is left out when the scope is
the empty string, and a token without the claim authenticates as an ordinary session.  So the
grant survives in the token exactly when the scope is not empty.  A client-credentials token,
whose scope is always empty, is never restricted.
-/

namespace Metap.OAuth

section

variable {codec : UuidCodec} {digests : Digests} {env : Env} {store : Store}

/-- A token response carries a token minted with the scope it reports. -/
structure MintsReportedScope (codec : UuidCodec) (env : Env) (response : Response) : Prop where
  minted : ∀ r, response.body = .tokenResponse r → ∃ tenantID userID clientID,
    r.accessToken = mintOAuth codec env tenantID userID r.scope clientID

theorem mintsReportedScope_serviceError (status : ℕ) (code message : String) :
    MintsReportedScope codec env (.serviceError status code message) :=
  ⟨fun r hr => by cases hr⟩

theorem mintsReportedScope_tokenResponse {status : ℕ} {tenantID userID : Uuid}
    {scope clientID : String} {refreshToken : Option String} {expiresIn : ℕ} :
    MintsReportedScope codec env { status, body := .tokenResponse {
      accessToken := mintOAuth codec env tenantID userID scope clientID
      expiresIn, refreshToken, scope } } := by
  refine ⟨fun r hr => ?_⟩
  cases hr
  exact ⟨_, _, _, rfl⟩

variable (client : Client)

theorem clientCredentialsGrant_mints :
    MintsReportedScope codec env (clientCredentialsGrant codec env client) := by
  unfold clientCredentialsGrant
  dsimp only
  repeat' split
  all_goals first
    | exact mintsReportedScope_tokenResponse
    | exact mintsReportedScope_serviceError ..

theorem authorizationCodeGrant_mints (form : TokenForm) : MintsReportedScope codec env
      (authorizationCodeGrant codec digests env store client form).1 := by
  unfold authorizationCodeGrant
  repeat' split
  all_goals try exact mintsReportedScope_serviceError ..
  · next refusal hrefusal =>
    obtain ⟨_, _, _, rfl⟩ := checkPKCE_eq_some hrefusal
    exact mintsReportedScope_serviceError ..
  · exact mintsReportedScope_tokenResponse

theorem refreshTokenGrant_mints (form : TokenForm) :
    MintsReportedScope codec env (refreshTokenGrant codec digests env store client form).1 := by
  unfold refreshTokenGrant
  dsimp only
  repeat' split
  all_goals first
    | exact mintsReportedScope_tokenResponse
    | exact mintsReportedScope_serviceError ..

/-- For every grant type, the token is minted with the scope the answer reports. -/
theorem tokenEndpoint_mints (creds : Credentials) (form : Option TokenForm) :
    MintsReportedScope codec env (tokenEndpoint codec digests env store creds form).1 := by
  unfold tokenEndpoint
  split
  · exact mintsReportedScope_serviceError ..
  split
  · next refusal hrefusal =>
    obtain ⟨_, _, _, rfl⟩ := authenticateOAuthClient_eq_error hrefusal
    exact mintsReportedScope_serviceError ..
  split
  · exact mintsReportedScope_serviceError ..
  unfold clientGrant
  split
  · exact authorizationCodeGrant_mints ..
  · exact refreshTokenGrant_mints ..
  · exact clientCredentialsGrant_mints ..
  · exact mintsReportedScope_serviceError ..

end

/-- Every token of the token endpoint names a tenant and a user.  Presented before it expires, it
authenticates as that user as soon as the directory answers, and the context then carries the
granted scope's tokens exactly when the scope string is not empty, or when the caller's own
attribute record happens to name an empty scope. -/
theorem tokenEndpoint_grant_survives_iff (codec : UuidCodec) (digests : Digests) (env : Env)
    (store : Store) (creds : Credentials) (form : Option TokenForm) (r : TokenResponse)
    (hresponse : (tokenEndpoint codec digests env store creds form).1.body = .tokenResponse r) :
    ∃ tenantID userID clientID,
      r.accessToken = mintOAuth codec env tenantID userID r.scope clientID ∧
      ∀ (directory : CallerDirectory) (caller : CallerRecord) (now : ℤ) (method : Method)
        (presented : Credentials), directory tenantID userID = some caller →
        now < env.now + oauthAccessTokenTTLSeconds + tokenLeewaySeconds →
        presentedToken method presented = .ok r.accessToken →
        ∃ rc, authenticate codec directory now method presented = .ok rc ∧
          (rc.oauthScope = some (Strings.fields r.scope) ↔
            r.scope ≠ "" ∨ caller.oauthScope = some []) := by
  obtain ⟨tenantID, userID, clientID, htoken⟩ :=
    (tokenEndpoint_mints creds form).minted r hresponse
  refine ⟨tenantID, userID, clientID, htoken, ?_⟩
  intro directory caller now method presented hcaller hfresh hpresented
  obtain ⟨rc, hrc, -, -, hscope⟩ :=
    authenticateToken_mintClaims codec directory env.jti r.scope clientID hcaller hfresh
  refine ⟨rc, ?_, ?_⟩
  · rw [authenticate, hpresented, htoken]
    exact hrc
  · rw [hscope]
    by_cases hempty : r.scope = ""
    · simp [hempty]
    · simp [hempty]

/-! ## A client -/

/-- Digests that change nothing. -/
def plainDigests : Digests := { hashToken := id, pkceChallenge := id }

/-- A client that may ask to read invoices. -/
def invoiceClient : Client where
  id := 1
  tenantID := 2
  clientID := "invoices"
  name := "Invoices"
  redirectURIs := ["https://invoices.test/cb"]
  allowedScopes := ["read:invoice"]
  isConfidential := true
  serviceUserID := some 3
  clientSecretHash := "s3cret"

/-- A code for the user 4 with that scope. -/
def invoiceCode : AuthorizationCode where
  codeHash := "code"
  grant := { clientID := 1, tenantID := 2, userID := 4, scope := "read:invoice" }
  redirectURI := "https://invoices.test/cb"
  codeChallenge := none
  codeChallengeMethod := none
  expiresAt := 60

def invoiceStore : Store := { clients := [invoiceClient], codes := [invoiceCode] }

/-- A deployment at time 0 in which every user exists and has no roles or attributes. -/
def plainEnv : Env where
  now := 0
  directory := fun _ _ => some {}
  verifyPassword := fun _ _ _ => none
  emailOf := fun _ _ => none
  sessionTTLSeconds := fun _ => 3600
  sessionAbsoluteMaxSeconds := fun _ => 86400
  jti := "jti"
  rawToken := "raw"
  rawSecret := "rawSecret"
  newID := 9
  serviceUserID := 10
  csrfValue := "csrf"

def redeemForm : TokenForm :=
  { grantType := "authorization_code", code := "code", redirectURI := "https://invoices.test/cb"
    clientID := "invoices", clientSecret := "s3cret" }

def redeemResponse : TokenResponse where
  accessToken := mintOAuth .hex plainEnv 2 4 "read:invoice" "invoices"
  expiresIn := 3600
  refreshToken := some "raw"
  scope := "read:invoice"

/-- The redeemed code's token carries its scope. -/
theorem tokenEndpoint_grant_survives_redeemed :
    (tokenEndpoint .hex plainDigests plainEnv invoiceStore {} (some redeemForm)).1.body =
      .tokenResponse redeemResponse ∧
    ∃ tenantID userID clientID,
      redeemResponse.accessToken = mintOAuth .hex plainEnv tenantID userID redeemResponse.scope
        clientID ∧
      ∀ (directory : CallerDirectory) (caller : CallerRecord) (now : ℤ) (method : Method)
        (presented : Credentials), directory tenantID userID = some caller →
        now < plainEnv.now + oauthAccessTokenTTLSeconds + tokenLeewaySeconds →
        presentedToken method presented = .ok redeemResponse.accessToken →
        ∃ rc, authenticate .hex directory now method presented = .ok rc ∧
          (rc.oauthScope = some (Strings.fields redeemResponse.scope) ↔
            redeemResponse.scope ≠ "" ∨ caller.oauthScope = some []) :=
  ⟨rfl, tokenEndpoint_grant_survives_iff .hex plainDigests plainEnv invoiceStore {}
    (some redeemForm) redeemResponse rfl⟩

def clientCredentialsForm : TokenForm :=
  { grantType := "client_credentials", scope := "read:invoice", clientID := "invoices"
    clientSecret := "s3cret" }

def clientCredentialsToken : TokenText := mintOAuth .hex plainEnv 2 3 "" "invoices"

/-- The client-credentials token of a client allowed to read invoices is an unrestricted
session: it carries no grant and its context permits every action and the admin surface. -/
theorem clientCredentials_token_unrestricted :
    (∃ r, (tokenEndpoint .hex plainDigests plainEnv invoiceStore {}
        (some clientCredentialsForm)).1.body = .tokenResponse r ∧
      r.accessToken = clientCredentialsToken ∧ r.scope = "") ∧
    ∃ rc, authenticate .hex plainEnv.directory 0 .get
        { authorization := some (.bearer clientCredentialsToken) } = .ok rc ∧
      rc.oauthScope = none ∧ rc.scopePermits "payroll" .delete = true ∧
      rc.scopePermitsAdminSurface = true :=
  ⟨⟨_, rfl, rfl, rfl⟩, _, rfl, rfl, rfl, rfl⟩

end Metap.OAuth
