import Metap.OAuth.Routes

/-!
# What a request can do

`Effect` says once, for all routes, what a request can reveal and what it can write.  Either it
reveals no credential and writes no new grant, or it is one of the listed cases: a session token,
a code for a new grant, a pending authorization, a redeemed code, a rotated refresh token, a
client-credentials token or a new client.  `effect_handle` is the only place where the handlers
are taken apart; the theorems about runs are case analyses over `Effect`.
-/

namespace Metap.OAuth

/-! ## Stores without new rows -/

namespace Store

/-- Every grant of `store'` was in `store`: rows may have been used, revoked or deleted. -/
structure Descends (store' store : Store) : Prop where
  codes : ∀ c' ∈ store'.codes, ∃ c ∈ store.codes, c'.codeHash = c.codeHash ∧ c'.grant = c.grant
  refreshTokens : ∀ t' ∈ store'.refreshTokens, ∃ t ∈ store.refreshTokens,
    t'.tokenHash = t.tokenHash ∧ t'.grant = t.grant
  pending : ∀ p ∈ store'.pending, p ∈ store.pending

theorem Descends.refl (store : Store) : store.Descends store where
  codes c hc := ⟨c, hc, rfl, rfl⟩
  refreshTokens t ht := ⟨t, ht, rfl, rfl⟩
  pending _ hp := hp

theorem Descends.trans {s₁ s₂ s₃ : Store} (h₁ : s₁.Descends s₂) (h₂ : s₂.Descends s₃) :
    s₁.Descends s₃ where
  codes c hc := by
    obtain ⟨c₂, hc₂, hhash, hgrant⟩ := h₁.codes c hc
    obtain ⟨c₃, hc₃, hhash', hgrant'⟩ := h₂.codes c₂ hc₂
    exact ⟨c₃, hc₃, hhash.trans hhash', hgrant.trans hgrant'⟩
  refreshTokens t ht := by
    obtain ⟨t₂, ht₂, hhash, hgrant⟩ := h₁.refreshTokens t ht
    obtain ⟨t₃, ht₃, hhash', hgrant'⟩ := h₂.refreshTokens t₂ ht₂
    exact ⟨t₃, ht₃, hhash.trans hhash', hgrant.trans hgrant'⟩
  pending p hp := h₂.pending p (h₁.pending p hp)

variable {store : Store}

/-- An update that keeps each refresh token's hash and grant. -/
theorem descends_map_refreshTokens (f : RefreshToken → RefreshToken)
    (h : ∀ t, (f t).tokenHash = t.tokenHash ∧ (f t).grant = t.grant) :
    Descends { store with refreshTokens := store.refreshTokens.map f } store := by
  refine { Descends.refl store with refreshTokens := fun t' ht' => ?_ }
  obtain ⟨t, ht, rfl⟩ := List.mem_map.mp ht'
  exact ⟨t, ht, h t⟩

theorem descends_revokeChain (now : ℤ) (clientID userID : Uuid) :
    (store.revokeChain now clientID userID).Descends store := by
  refine descends_map_refreshTokens _ fun t => ?_
  split <;> exact ⟨rfl, rfl⟩

theorem descends_revokeRefreshToken (now : ℤ) (tokenHash : String) (clientID : Uuid) :
    (store.revokeRefreshToken now tokenHash clientID).Descends store := by
  refine descends_map_refreshTokens _ fun t => ?_
  split <;> exact ⟨rfl, rfl⟩

theorem descends_recordConsent (tenantID clientID userID : Uuid) (approved : String) :
    (store.recordConsent tenantID clientID userID approved).Descends store := by
  unfold recordConsent
  split <;> exact { Descends.refl store with }

variable {store' : Store} {p : PendingAuthorization}

theorem consumeAuthorizationCode_eq_some {now : ℤ} {codeHash : String} {clientID : Uuid}
    {redirectURI : String} {record : AuthorizationCode}
    (h : store.consumeAuthorizationCode now codeHash clientID redirectURI = some (record, store')) :
    record ∈ store.codes ∧ record.codeHash = codeHash ∧ store'.Descends store := by
  simp only [consumeAuthorizationCode, Option.bind_eq_bind, Option.bind_eq_some_iff,
    Option.pure_def, Option.some.injEq, Prod.mk.injEq] at h
  obtain ⟨code, hfind, rfl, rfl⟩ := h
  have hmatch := List.find?_some hfind
  simp only [codeMatches, Bool.and_eq_true, decide_eq_true_eq] at hmatch
  refine ⟨List.mem_of_find?_eq_some hfind, hmatch.1.1.1.1,
    { Descends.refl store with codes := fun c' hc' => ?_ }⟩
  obtain ⟨c, hc, rfl⟩ := List.mem_map.mp hc'
  refine ⟨c, hc, ?_⟩
  split <;> exact ⟨rfl, rfl⟩

theorem consumePendingAuthorization_eq_some {now : ℤ} {id tenantID userID : Uuid}
    (h : store.consumePendingAuthorization now id tenantID userID = some (p, store')) :
    p ∈ store.pending ∧ p.id = id ∧ store'.Descends store := by
  simp only [consumePendingAuthorization, Option.bind_eq_bind, Option.bind_eq_some_iff,
    Option.pure_def, Option.some.injEq, Prod.mk.injEq] at h
  obtain ⟨q, hfind, rfl, rfl⟩ := h
  have hmatch := List.find?_some hfind
  simp only [pendingMatches, Bool.and_eq_true, decide_eq_true_eq] at hmatch
  refine ⟨List.mem_of_find?_eq_some hfind, hmatch.1.1.1, { Descends.refl store with pending := ?_ }⟩
  exact fun r hr => (List.mem_filter.mp hr).1

/-- What a refresh-token lookup can come to. -/
theorem consumeRefreshToken_eq_some {now : ℤ} {tokenHash newHash : String}
    {clientID newID : Uuid} {outcome : RefreshOutcome}
    (h : store.consumeRefreshToken now tokenHash clientID newID newHash = some outcome) :
    match outcome with
    | .invalid => True
    | .reused store' => store'.Descends store
    | .rotated record store' => ∃ row ∈ store.refreshTokens, row.tokenHash = tokenHash ∧
        record.tokenHash = newHash ∧ record.grant.scope = row.grant.scope ∧
        ∃ store₁, store.createRefreshToken record = some store₁ ∧ store'.Descends store₁ := by
  unfold consumeRefreshToken at h
  split at h
  · cases h; trivial
  next row hfind =>
  have hmatch := List.find?_some hfind
  simp only [Bool.and_eq_true, decide_eq_true_eq] at hmatch
  split at h
  · cases h; exact descends_revokeChain _ _ _
  split at h
  · cases h; trivial
  simp only [Option.bind_eq_bind, Option.bind_eq_some_iff, Option.pure_def,
    Option.some.injEq] at h
  obtain ⟨store₁, hcreate, rfl⟩ := h
  refine ⟨row, List.mem_of_find?_eq_some hfind, hmatch.1, rfl, rfl, store₁, hcreate, ?_⟩
  refine descends_map_refreshTokens _ fun t => ?_
  split <;> exact ⟨rfl, rfl⟩

/-- An inserted code is the only row with its hash. -/
theorem createAuthorizationCode_eq_some {code : AuthorizationCode}
    (h : store.createAuthorizationCode code = some store') :
    store' = { store with codes := store.codes ++ [code] } ∧
      ∀ c ∈ store.codes, c.codeHash ≠ code.codeHash := by
  unfold createAuthorizationCode at h
  split at h
  · cases h
  next hnew =>
  cases h
  simpa using hnew

theorem createRefreshToken_eq_some {token : RefreshToken}
    (h : store.createRefreshToken token = some store') :
    store' = { store with refreshTokens := store.refreshTokens ++ [token] } ∧
      ∀ t ∈ store.refreshTokens, t.tokenHash ≠ token.tokenHash := by
  unfold createRefreshToken at h
  split at h
  · cases h
  next hnew =>
  cases h
  simp only [List.any_eq_true, Bool.or_eq_true, decide_eq_true_eq, not_exists, not_and,
    not_or] at hnew
  exact ⟨rfl, fun t ht => (hnew t ht).1⟩

theorem createPendingAuthorization_eq_some (h : store.createPendingAuthorization p = some store') :
    store' = { store with pending := store.pending ++ [p] } ∧
      ∀ q ∈ store.pending, q.id ≠ p.id := by
  unfold createPendingAuthorization at h
  split at h
  · cases h
  next hnew =>
  cases h
  simpa using hnew

end Store

/-! ## Effects -/

/-- The credentials a response hands to whoever made the request. -/
structure Revealed where
  tokens : List TokenText := []
  codes : List String := []
  refreshTokens : List String := []
  requestIDs : List Uuid := []
  clientSecrets : List (String × String) := []

def Body.revealed : Body → Revealed
  | .token t => { tokens := [t] }
  | .tokenResponse r => { tokens := [r.accessToken], refreshTokens := r.refreshToken.toList }
  | .redirect r => { codes := r.code.toList }
  | .consentPage _ _ requestID => { requestIDs := [requestID] }
  | .client c secret => { clientSecrets := [(c.clientID, secret)] }
  | _ => {}

def SetCookie.tokens : SetCookie → List TokenText
  | .session token _ => [token]
  | _ => []

def Response.revealed (r : Response) : Revealed :=
  { r.body.revealed with tokens := r.body.revealed.tokens ++ r.cookies.flatMap SetCookie.tokens }

section

variable (codec : UuidCodec) (digests : Digests) (env : Env) (store : Store) (req : Request)

/-- What a request can reveal and write. -/
inductive Effect (resp : Response) (store' : Store) : Prop where
  | quiet (hreveals : resp.revealed = {}) (hstore : store'.Descends store)
  | login (body : LoginBody) (user : AuthUser) (hroute : req.route = .login (some body))
      (huser : env.verifyPassword body.tenantID body.email body.password = some user)
  | slid (session : TokenText) (startedAt csrf : String) (hroute : req.route = .me)
      (hsession : req.creds.sessionCookie = some session)
      (hstarted : req.creds.sessionStartedAtCookie = some startedAt)
      (hcsrf : req.creds.csrfCookie = some csrf)
  | issued (hroute : req.route = .issueToken)
  | consented (q : AuthorizeQuery) (code : AuthorizationCode) (hroute : req.route = .authorize q)
      (hreveals : resp.revealed = { codes := [env.rawToken] })
      (hhash : code.codeHash = digests.hashToken env.rawToken)
      (hscope : code.grant.scope = q.scope)
      (hstore : store.createAuthorizationCode code = some store')
  | asked (q : AuthorizeQuery) (p : PendingAuthorization) (hroute : req.route = .authorize q)
      (hreveals : resp.revealed = { requestIDs := [env.newID] }) (hid : p.id = env.newID)
      (hscope : p.grant.scope = q.scope)
      (hstore : store.createPendingAuthorization p = some store')
  | decided (body : DecisionBody) (p : PendingAuthorization) (code : AuthorizationCode)
      (store₁ : Store) (hroute : req.route = .decision (some body))
      (hreveals : resp.revealed = { codes := [env.rawToken] })
      (hpending : p ∈ store.pending) (hid : p.id = body.requestID)
      (hdescends : store₁.Descends store)
      (hhash : code.codeHash = digests.hashToken env.rawToken)
      (hscope : code.grant.scope = p.grant.scope)
      (hstore : store₁.createAuthorizationCode code = some store')
  | redeemed (form : TokenForm) (record : AuthorizationCode) (token : RefreshToken)
      (store₁ : Store) (tenantID userID : Uuid) (clientID : String)
      (hroute : req.route = .token (some form))
      (hreveals : resp.revealed =
        { tokens := [mintOAuth codec env tenantID userID record.grant.scope clientID]
          refreshTokens := [env.rawToken] })
      (hrecord : record ∈ store.codes) (hcode : record.codeHash = digests.hashToken form.code)
      (hdescends : store₁.Descends store)
      (hhash : token.tokenHash = digests.hashToken env.rawToken)
      (hscope : token.grant.scope = record.grant.scope)
      (hstore : store₁.createRefreshToken token = some store')
  | rotated (form : TokenForm) (row token : RefreshToken) (scope : String) (store₁ : Store)
      (tenantID userID : Uuid) (clientID : String) (hroute : req.route = .token (some form))
      (hreveals : resp.revealed =
        { tokens := [mintOAuth codec env tenantID userID scope clientID]
          refreshTokens := [env.rawToken] })
      (hrow : row ∈ store.refreshTokens)
      (htoken : row.tokenHash = digests.hashToken form.refreshToken)
      (hsubset : scopeIsSubset scope row.grant.scope = true)
      (hempty : scope = "" → row.grant.scope = "")
      (hhash : token.tokenHash = digests.hashToken env.rawToken)
      (hscope : token.grant.scope = row.grant.scope)
      (hstore₁ : store.createRefreshToken token = some store₁)
      (hstore : store'.Descends store₁)
  | clientCredentials (form : TokenForm) (hroute : req.route = .token (some form))
      (hgrant : form.grantType = "client_credentials")
  | clientCreated (secret : String × String)
      (hreveals : resp.revealed = { clientSecrets := [secret] }) (hstore : store'.Descends store)

/-- The effect of what a handler answers and leaves in the store. -/
abbrev EffectOf (out : Response × Store) : Prop := Effect codec digests env store req out.1 out.2

variable {codec digests env store req} {store' : Store} {q : AuthorizeQuery} {form : TokenForm}

theorem effect_login (body : Option LoginBody) (hroute : req.route = .login body) :
    Effect codec digests env store req (login codec env body) store := by
  unfold login
  repeat' split
  · exact .quiet rfl (.refl store)
  · exact .quiet rfl (.refl store)
  · next user huser => exact .login _ user hroute huser

theorem tryRefreshSession_eq_some {creds : Credentials} {rc : RequestContext}
    {cookies : List SetCookie} (h : tryRefreshSession codec env creds rc = some cookies) :
    ∃ session startedAt csrf, creds.sessionCookie = some session ∧
      creds.sessionStartedAtCookie = some startedAt ∧ creds.csrfCookie = some csrf := by
  unfold tryRefreshSession at h
  simp only [Option.bind_eq_bind, Option.bind_eq_some_iff] at h
  obtain ⟨session, hsession, _, _, startedAt, ⟨text, htext, _⟩, csrf, hcsrf, _⟩ := h
  exact ⟨session, text, csrf, hsession, htext, hcsrf⟩

theorem effect_me (hroute : req.route = .me) :
    Effect codec digests env store req (me codec env req.creds) store := by
  unfold me
  split
  · exact .quiet rfl (.refl store)
  next rc _ =>
  cases hrefresh : tryRefreshSession codec env req.creds rc with
  | none => exact .quiet rfl (.refl store)
  | some cookies =>
    obtain ⟨session, startedAt, csrf, hsession, hstarted, hcsrf⟩ :=
      tryRefreshSession_eq_some hrefresh
    exact .slid session startedAt csrf hroute hsession hstarted hcsrf

/-- A refusal reveals nothing. -/
abbrev IsRefusal (resp : Response) : Prop :=
  ∃ status code message, resp = .serviceError status code message

variable {refusal : Response}

theorem checkAuthorize_eq_some {tenantID : Uuid} {client : Client}
    (h : checkAuthorize tenantID client q = some refusal) : IsRefusal refusal := by
  unfold checkAuthorize at h
  repeat' split at h
  all_goals first | (cases h; exact ⟨_, _, _, rfl⟩) | cases h

/-- A code issued for a grant. -/
theorem issueAuthorizationCode_eq_some {grant : Grant} {redirectURI : String}
    {challenge method clientState : Option String} {redirect : Redirect}
    (h : issueAuthorizationCode digests env store grant redirectURI challenge method clientState =
      some (redirect, store')) : redirect.code = some env.rawToken ∧ ∃ code : AuthorizationCode,
      code.codeHash = digests.hashToken env.rawToken ∧ code.grant = grant ∧
      store.createAuthorizationCode code = some store' := by
  simp only [issueAuthorizationCode, Option.bind_eq_bind, Option.bind_eq_some_iff,
    Option.pure_def, Option.some.injEq, Prod.mk.injEq] at h
  obtain ⟨store₁, hcreate, rfl, rfl⟩ := h
  exact ⟨rfl, _, rfl, rfl, hcreate⟩

theorem effect_grantOrAskConsent (hroute : req.route = .authorize q)
    (client : Client) (tenantID userID : Uuid) : EffectOf codec digests env store req
      (grantOrAskConsent digests env store client tenantID userID q) := by
  unfold grantOrAskConsent
  dsimp only
  split <;> split
  · next redirect store' hissue =>
    obtain ⟨hcode, code, hhash, hgrant, hcreate⟩ := issueAuthorizationCode_eq_some hissue
    refine .consented q code hroute ?_ hhash (by rw [hgrant]) hcreate
    simp [Response.revealed, Body.revealed, hcode]
  · exact .quiet rfl (.refl store)
  · next store' hcreate => exact .asked q _ hroute rfl rfl rfl hcreate
  · exact .quiet rfl (.refl store)

theorem effect_authorizeOAuth2 (hroute : req.route = .authorize q) :
    EffectOf codec digests env store req (authorizeOAuth2 codec digests env store req.creds q) := by
  unfold authorizeOAuth2
  repeat' split
  all_goals try exact .quiet rfl (.refl store)
  · next refusal hrefusal =>
    obtain ⟨_, _, _, rfl⟩ := checkAuthorize_eq_some hrefusal
    exact .quiet rfl (.refl store)
  · exact effect_grantOrAskConsent hroute _ _ _

theorem effect_authorizeDecision {body : Option DecisionBody}
    (hroute : req.route = .decision body) : EffectOf codec digests env store req
      (authorizeDecision codec digests env store req.creds body) := by
  unfold authorizeDecision
  iterate 4
    split
    all_goals try exact .quiet rfl (.refl store)
  next body _ _ tenantID userID _ _ _ p store₁ hconsume =>
  obtain ⟨hpending, hid, hdescends⟩ := Store.consumePendingAuthorization_eq_some hconsume
  split
  · exact .quiet rfl hdescends
  have hconsent := (Store.descends_recordConsent tenantID p.grant.clientID userID
    p.grant.scope).trans hdescends
  dsimp only
  split
  · next redirect store' hissue =>
    obtain ⟨hcode, code, hhash, hgrant, hcreate⟩ := issueAuthorizationCode_eq_some hissue
    refine .decided body p code _ hroute ?_ hpending hid hconsent hhash (by rw [hgrant]) hcreate
    simp [Response.revealed, Body.revealed, hcode]
  · exact .quiet rfl hconsent

theorem authenticateOAuthClient_eq_error {creds : Credentials}
    (h : authenticateOAuthClient digests store creds form = .error refusal) :
    IsRefusal refusal := by
  unfold authenticateOAuthClient at h
  repeat' split at h
  all_goals first | (cases h; exact ⟨_, _, _, rfl⟩) | cases h

theorem checkPKCE_eq_some {challenge : Option String} {verifier : String}
    (h : checkPKCE digests challenge verifier = some refusal) : IsRefusal refusal := by
  unfold checkPKCE at h
  repeat' split at h
  all_goals first | (cases h; exact ⟨_, _, _, rfl⟩) | cases h

theorem effect_authorizationCodeGrant (hroute : req.route = .token (some form)) (client : Client) :
    EffectOf codec digests env store req
      (authorizationCodeGrant codec digests env store client form) := by
  unfold authorizationCodeGrant
  iterate 2
    split
    · exact .quiet rfl (.refl store)
  next record store₁ hconsume =>
  obtain ⟨hrecord, hcode, hdescends⟩ := Store.consumeAuthorizationCode_eq_some hconsume
  split
  · next refusal hrefusal =>
    obtain ⟨_, _, _, rfl⟩ := checkPKCE_eq_some hrefusal
    exact .quiet rfl hdescends
  split
  · exact .quiet rfl hdescends
  · next store' hcreate =>
    exact .redeemed form record _ store₁ record.grant.tenantID record.grant.userID
      client.clientID hroute rfl hrecord hcode hdescends rfl rfl hcreate

theorem effect_refreshTokenGrant (hroute : req.route = .token (some form)) (client : Client) :
    EffectOf codec digests env store req
      (refreshTokenGrant codec digests env store client form) := by
  unfold refreshTokenGrant
  split
  · exact .quiet rfl (.refl store)
  split
  · exact .quiet rfl (.refl store)
  · exact .quiet rfl (.refl store)
  · next revoked hconsume => exact .quiet rfl (Store.consumeRefreshToken_eq_some hconsume)
  next record rotated hconsume =>
  obtain ⟨row, hrow, htoken, hhash, hscope, store₁, hcreate, hdescends⟩ :=
    Store.consumeRefreshToken_eq_some hconsume
  have hempty : form.requestedScope record.grant.scope = "" → row.grant.scope = "" := by
    intro h
    unfold TokenForm.requestedScope at h
    split at h
    · rw [← hscope, h]
    · next hne => exact absurd h hne
  dsimp only
  split
  · exact .quiet rfl (.refl store)
  · next hsubset =>
    refine .rotated form row record _ store₁ record.grant.tenantID record.grant.userID
      client.clientID hroute rfl hrow htoken ?_ hempty hhash hscope hcreate hdescends
    rw [← hscope]
    simpa using hsubset

theorem effect_tokenEndpoint {form : Option TokenForm} (hroute : req.route = .token form) :
    EffectOf codec digests env store req
      (tokenEndpoint codec digests env store req.creds form) := by
  unfold tokenEndpoint
  split
  · exact .quiet rfl (.refl store)
  next form =>
  split
  · next refusal hrefusal =>
    obtain ⟨_, _, _, rfl⟩ := authenticateOAuthClient_eq_error hrefusal
    exact .quiet rfl (.refl store)
  next client _ =>
  split
  · exact .quiet rfl (.refl store)
  unfold clientGrant
  split
  · exact effect_authorizationCodeGrant hroute client
  · exact effect_refreshTokenGrant hroute client
  · next hgrant => exact .clientCredentials form hroute hgrant
  · exact .quiet rfl (.refl store)

theorem effect_revokeEndpoint (form : Option TokenForm) :
    EffectOf codec digests env store req (revokeEndpoint digests env store req.creds form) := by
  unfold revokeEndpoint
  repeat' split
  · exact .quiet rfl (.refl store)
  · next refusal hrefusal =>
    obtain ⟨_, _, _, rfl⟩ := authenticateOAuthClient_eq_error hrefusal
    exact .quiet rfl (.refl store)
  · exact .quiet rfl (Store.descends_revokeRefreshToken _ _ _)

theorem effect_createOAuthClientAdmin (body : Option CreateClientBody) :
    EffectOf codec digests env store req
      (createOAuthClientAdmin codec digests env store req.creds body) := by
  unfold createOAuthClientAdmin Store.createClient
  dsimp only
  repeat' split
  all_goals try exact .quiet rfl (.refl store)
  next hcreate =>
  split at hcreate <;> cases hcreate
  exact .clientCreated _ rfl { Store.Descends.refl store with }

theorem effect_revokeOAuthClientAdmin (id : String) :
    EffectOf codec digests env store req (revokeOAuthClientAdmin codec env store req.creds id) := by
  unfold revokeOAuthClientAdmin Store.revokeClient
  dsimp only
  repeat' split
  all_goals try exact .quiet rfl (.refl store)
  next hrevoke =>
  split at hrevoke <;> cases hrevoke
  exact .quiet rfl { Store.Descends.refl store with }

/-- Every request has one of the listed effects. -/
theorem effect_handle (codec : UuidCodec) (digests : Digests) (env : Env) (store : Store)
    (req : Request) :
    EffectOf codec digests env store req (handle codec digests env store req) := by
  unfold handle
  split
  · next body hroute => exact effect_login body hroute
  · exact .quiet rfl (.refl store)
  · next hroute => exact effect_me hroute
  · next hroute => exact .issued hroute
  · next q hroute => exact effect_authorizeOAuth2 hroute
  · next body hroute => exact effect_authorizeDecision hroute
  · next form hroute => exact effect_tokenEndpoint hroute
  · next form _ => exact effect_revokeEndpoint form
  · exact .quiet rfl (.refl store)
  · next body _ => exact effect_createOAuthClientAdmin body
  · unfold listOAuthClientsAdmin
    repeat' split
    all_goals exact .quiet rfl (.refl store)
  · next id _ => exact effect_revokeOAuthClientAdmin id

end

end Metap.OAuth
