import Metap.Framework.Builder
import Metap.Framework.Transition
import Metap.OAuth.Grant

/-!
# A grant and what its holder can make of it

The holder of OAuth2 access tokens for one client sends requests of their choice to the auth and
OAuth2 routes.  `World` is the server's store together with everything the holder has been given
so far; a step is a request that presents no other credential, and it hands the holder what the
response reveals.

No response should carry a token that permits more than the scope the holder started from.  That
fails: the routes that mint session tokens and the authorization route accept an OAuth2 token
like a session (`issueToken_amplifies_grant`).  What holds is
`returned_tokens_within_of_staysWithin`: along every run that stays away from the session-minting
routes and the client-credentials grant, and asks for no scope that is empty or permits more,
every returned token is within the scope.
-/

namespace Metap.OAuth

open Transition

/-! ## Scopes -/

/-- Whether a list of scope tokens covers an action on an entity. -/
def scopeCovers (tokens : List String) (entity : String) (action : EntityAction) : Prop :=
  ∃ t ∈ tokens, tokenPermits t entity action = true

/-- The tokens `granted` permit nothing that `limit` does not. -/
structure ScopeWithin (granted limit : List String) : Prop where
  actions : ∀ entity action, scopeCovers granted entity action → scopeCovers limit entity action
  admin : adminScope ∈ granted → adminScope ∈ limit

theorem ScopeWithin.of_subset {granted middle limit : List String} (hsub : granted ⊆ middle)
    (h : ScopeWithin middle limit) : ScopeWithin granted limit where
  actions entity action := by
    rintro ⟨t, ht, hpermits⟩
    exact h.actions entity action ⟨t, hsub ht, hpermits⟩
  admin hadmin := h.admin (hsub hadmin)

theorem subset_of_scopeIsSubset {requested allowed : String}
    (h : scopeIsSubset requested allowed = true) :
    Strings.fields requested ⊆ Strings.fields allowed := by
  intro t ht
  have hmem := List.all_eq_true.mp h t ht
  simpa [scopeTokens] using hmem

/-- A scope that survives in a token and stays within `s`. -/
structure ScopeSafe (s scope : String) : Prop where
  nonempty : scope ≠ ""
  within : ScopeWithin (Strings.fields scope) (Strings.fields s)

/-- However a token is authenticated, the context permits nothing that `s` does not. -/
def TokenWithin (codec : UuidCodec) (s : String) (token : TokenText) : Prop :=
  ∀ (directory : CallerDirectory) (now : ℤ) (rc : RequestContext),
    authenticateToken codec directory now token = .ok rc →
    (∀ entity action, rc.scopePermits entity action = true →
      scopeCovers (Strings.fields s) entity action) ∧
    (rc.scopePermitsAdminSurface = true → adminScope ∈ Strings.fields s)

variable {scope : String}

theorem oauthScope_of_authenticateToken {codec : UuidCodec} {directory : CallerDirectory}
    {now : ℤ} {claims : WireClaims} {rc : RequestContext} (hscope : claims.scope = some scope)
    (h : authenticateToken codec directory now (.signed claims) = .ok rc) :
    rc.oauthScope = some (Strings.fields scope) := by
  unfold authenticateToken at h
  split at h
  · cases h
  next decoded hdecode =>
  have hclaim : decoded.scope = some scope := by
    simp only [decodeAccessToken] at hdecode
    split at hdecode
    · cases hdecode; exact hscope
    · cases hdecode
  split at h
  · split at h
    · cases h
    · rw [hclaim] at h
      cases h
      exact RequestContext.oauthScope_applyOAuthGrant _ _ _
  · cases h

/-- A token minted with a safe scope stays within `s`. -/
theorem tokenWithin_mintOAuth {codec : UuidCodec} {env : Env} {s clientID : String}
    {tenantID userID : Uuid} (h : ScopeSafe s scope) :
    TokenWithin codec s (mintOAuth codec env tenantID userID scope clientID) := by
  intro directory now rc hrc
  have hclaim : (mintOAuthAccessToken codec env.now env.jti tenantID userID
      oauthAccessTokenTTLSeconds scope clientID).scope = some scope := by
    simp [mintOAuthAccessToken, mintClaims, omitEmpty, h.nonempty]
  have hgrant := oauthScope_of_authenticateToken hclaim hrc
  refine ⟨fun entity action hpermits => ?_, fun hadmin => ?_⟩
  · rw [RequestContext.scopePermits, hgrant] at hpermits
    exact h.within.actions entity action (by simpa [scopeCovers] using hpermits)
  · rw [RequestContext.scopePermitsAdminSurface, hgrant] at hadmin
    exact h.within.admin (by simpa using hadmin)

/-! ## The holder's world -/

namespace Store

variable (digests : Digests) (store : Store)

/-- Some code row answers to `code`, with the given scope. -/
def codeScope (code scope : String) : Prop :=
  ∃ c ∈ store.codes, c.codeHash = digests.hashToken code ∧ c.grant.scope = scope

/-- Some refresh-token row answers to `token`, with the given scope. -/
def refreshScope (token scope : String) : Prop :=
  ∃ t ∈ store.refreshTokens, t.tokenHash = digests.hashToken token ∧ t.grant.scope = scope

/-- A pending authorization has the identifier and the scope. -/
def pendingScope (requestID : Uuid) (scope : String) : Prop :=
  ∃ p ∈ store.pending, p.id = requestID ∧ p.grant.scope = scope

end Store

def Revealed.append (a b : Revealed) : Revealed where
  tokens := a.tokens ++ b.tokens
  codes := a.codes ++ b.codes
  refreshTokens := a.refreshTokens ++ b.refreshTokens
  requestIDs := a.requestIDs ++ b.requestIDs
  clientSecrets := a.clientSecrets ++ b.clientSecrets

/-- The server's store, the credentials the holder has, and the tokens it was sent. -/
structure World where
  store : Store
  held : Revealed
  returned : List TokenText := []

/-- A token of a request: one the holder has, or a text that is not a token. -/
def TokenHeld (held : Revealed) : TokenText → Prop
  | .signed claims => .signed claims ∈ held.tokens
  | .invalid _ => True

/-- The form of a token or revocation request names no secret of anyone else. -/
structure FormHeld (digests : Digests) (w : World) (creds : Credentials) (form : TokenForm) :
    Prop where
  client : ∀ id secret, extractClientAuth creds form = some (id, secret) →
    (id, secret) ∈ w.held.clientSecrets ∨
      ∀ c, w.store.getClientByClientID id = some c →
        Store.verifyClientSecret digests.hashToken c secret = false
  code : form.code ∈ w.held.codes ∨ ∀ scope, ¬ w.store.codeScope digests form.code scope
  refreshToken : form.refreshToken ∈ w.held.refreshTokens ∨
    ∀ scope, ¬ w.store.refreshScope digests form.refreshToken scope

/-- The request presents no credential but the holder's: every other one fails. -/
structure Presents (digests : Digests) (env : Env) (w : World) (req : Request) : Prop where
  bearer : ∀ token, req.creds.authorization = some (.bearer token) → TokenHeld w.held token
  cookie : ∀ token, req.creds.sessionCookie = some token → TokenHeld w.held token
  password : ∀ body, req.route = .login (some body) →
    env.verifyPassword body.tenantID body.email body.password = none
  form : ∀ form, req.route = .token (some form) ∨ req.route = .revoke (some form) →
    FormHeld digests w req.creds form
  requestID : ∀ body, req.route = .decision (some body) →
    body.requestID ∈ w.held.requestIDs ∨ ∀ scope, ¬ w.store.pendingScope body.requestID scope

/-- A request with the environment that serves it. -/
structure Action where
  env : Env
  req : Request

section

variable (codec : UuidCodec) (digests : Digests)

/-- The world after a request. -/
def World.next (w : World) (a : Action) : World :=
  let (response, store) := handle codec digests a.env w.store a.req
  { store
    held := w.held.append response.revealed
    returned := w.returned ++ response.revealed.tokens }

/-- The holder sends a request of their own. -/
structure Step (w : World) (a : Action) (w' : World) : Prop where
  presents : Presents digests a.env w a.req
  next : w' = w.next codec digests a

/-- The start: any store, tokens minted for one client with scope `s`, the client's own secret,
and nothing else. -/
structure Initial (s : String) (w : World) : Prop where
  held : ∃ clientID secret tokens,
    w.held = { tokens, clientSecrets := [(clientID, secret)] } ∧
    ∀ t ∈ tokens, ∃ env tenantID userID, t = mintOAuth codec env tenantID userID s clientID
  returned : w.returned = []

end

/-- The requests that keep a grant within `s`.  A poll of `/auth/me` slides a session only when
it carries all three cookies of one. -/
def StaysWithin (s : String) (req : Request) : Prop :=
  match req.route with
  | .me => req.creds.sessionCookie = none ∨ req.creds.csrfCookie = none ∨
      req.creds.sessionStartedAtCookie = none
  | .issueToken => False
  | .authorize q => ScopeSafe s q.scope
  | .token (some form) => form.grantType ≠ "client_credentials"
  | _ => True

/-! ## The invariant -/

section HeldSafe

variable {κ : Type*} {s : String} {rows rows' : κ → String → Prop} {held : List κ}

/-- Every row that answers to a held key has a safe scope. -/
def HeldSafe (s : String) (rows : κ → String → Prop) (held : List κ) : Prop :=
  ∀ k ∈ held, ∀ scope, rows k scope → ScopeSafe s scope

theorem HeldSafe.mono (h : HeldSafe s rows held)
    (hrows : ∀ k scope, rows' k scope → rows k scope) : HeldSafe s rows' held :=
  fun k hk scope hrow => h k hk scope (hrows k scope hrow)

/-- A table that gains no row, when the response hands out none of its keys. -/
theorem HeldSafe.unchanged (h : HeldSafe s rows held) : HeldSafe s rows (held ++ []) := by
  rwa [List.append_nil]

/-- A credential the holder presents only ever finds a row with a safe scope. -/
theorem HeldSafe.safe_of_presented (h : HeldSafe s rows held) {k : κ}
    (hpresented : k ∈ held ∨ ∀ scope, ¬ rows k scope) (hrow : rows k scope) :
    ScopeSafe s scope := by
  rcases hpresented with hk | hnone
  · exact h k hk scope hrow
  · exact absurd hrow (hnone scope)

/-- A new row with a safe scope, whose key nobody else's row has, and whose key is handed out. -/
theorem HeldSafe.insert {ρ ι : Type*} {l : List ρ} {key : ρ → ι} {hash : κ → ι} {scope : ρ → String}
    (h : HeldSafe s (fun k x => ∃ r ∈ l, key r = hash k ∧ scope r = x) held) {r₀ : ρ} {k₀ : κ}
    (hkey : key r₀ = hash k₀) (hsafe : ScopeSafe s (scope r₀)) (hunique : ∀ r ∈ l, key r ≠ key r₀) :
    HeldSafe s (fun k x => ∃ r ∈ l ++ [r₀], key r = hash k ∧ scope r = x) (held ++ [k₀]) := by
  rintro k hk _ ⟨r, hr, hrow, rfl⟩
  rcases List.mem_append.mp hr with hr | hr
  · rcases List.mem_append.mp hk with hk | hk
    · exact h k hk _ ⟨r, hr, hrow, rfl⟩
    · rw [List.mem_singleton.mp hk, ← hkey] at hrow
      exact absurd hrow (hunique r hr)
  · rwa [List.mem_singleton.mp hr]

end HeldSafe

section Rows

variable {digests : Digests} {store store' : Store}

theorem Store.Descends.codeScope (h : store'.Descends store) {code : String}
    (hrow : store'.codeScope digests code scope) : store.codeScope digests code scope := by
  obtain ⟨c', hc', hhash, hscope⟩ := hrow
  obtain ⟨c, hc, hhash', hgrant⟩ := h.codes c' hc'
  exact ⟨c, hc, hhash' ▸ hhash, hgrant ▸ hscope⟩

theorem Store.Descends.refreshScope (h : store'.Descends store) {token : String}
    (hrow : store'.refreshScope digests token scope) : store.refreshScope digests token scope := by
  obtain ⟨t', ht', hhash, hscope⟩ := hrow
  obtain ⟨t, ht, hhash', hgrant⟩ := h.refreshTokens t' ht'
  exact ⟨t, ht, hhash' ▸ hhash, hgrant ▸ hscope⟩

theorem Store.Descends.pendingScope (h : store'.Descends store) {id : Uuid}
    (hrow : store'.pendingScope id scope) : store.pendingScope id scope := by
  obtain ⟨p, hp, hid, hscope⟩ := hrow
  exact ⟨p, h.pending p hp, hid, hscope⟩

end Rows

/-- What holds in every world the holder reaches by safe requests. -/
structure Invariant (codec : UuidCodec) (digests : Digests) (s : String) (w : World) : Prop where
  codes : HeldSafe s (w.store.codeScope digests) w.held.codes
  refreshTokens : HeldSafe s (w.store.refreshScope digests) w.held.refreshTokens
  requestIDs : HeldSafe s w.store.pendingScope w.held.requestIDs
  returned : ∀ t ∈ w.returned, TokenWithin codec s t

section Preservation

variable {codec : UuidCodec} {digests : Digests} {s : String} {w : World}

theorem invariant_of_initial (h : Initial codec s w) : Invariant codec digests s w := by
  obtain ⟨clientID, secret, tokens, hheld, -⟩ := h.held
  constructor
  · simp [HeldSafe, hheld]
  · simp [HeldSafe, hheld]
  · simp [HeldSafe, hheld]
  · simp [h.returned]

variable {store' : Store} {raw : String} (h : Invariant codec digests s w)

include h

/-- Rows may be used, revoked or deleted. -/
theorem Invariant.descend (hstore : store'.Descends w.store) :
    Invariant codec digests s { w with store := store' } where
  codes := h.codes.mono fun _ _ => hstore.codeScope
  refreshTokens := h.refreshTokens.mono fun _ _ => hstore.refreshScope
  requestIDs := h.requestIDs.mono fun _ _ => hstore.pendingScope
  returned := h.returned

/-- A new code for a safe scope may be handed out. -/
theorem Invariant.insertCode {code : AuthorizationCode}
    (hhash : code.codeHash = digests.hashToken raw) (hsafe : ScopeSafe s code.grant.scope)
    (hstore : w.store.createAuthorizationCode code = some store') : Invariant codec digests s
      { w with store := store', held := w.held.append { codes := [raw] } } := by
  obtain ⟨rfl, hunique⟩ := Store.createAuthorizationCode_eq_some hstore
  exact ⟨h.codes.insert hhash hsafe hunique, h.refreshTokens.unchanged, h.requestIDs.unchanged,
    h.returned⟩

/-- A new pending authorization for a safe scope may be shown. -/
theorem Invariant.insertPending {p : PendingAuthorization} (hsafe : ScopeSafe s p.grant.scope)
    (hstore : w.store.createPendingAuthorization p = some store') : Invariant codec digests s
      { w with store := store', held := w.held.append { requestIDs := [p.id] } } := by
  obtain ⟨rfl, hunique⟩ := Store.createPendingAuthorization_eq_some hstore
  exact ⟨h.codes.unchanged, h.refreshTokens.unchanged, h.requestIDs.insert rfl hsafe hunique,
    h.returned⟩

/-- A new refresh token for a safe scope may be handed out, with an access token within `s`. -/
theorem Invariant.insertRefreshToken {token : RefreshToken} {access : TokenText}
    (hhash : token.tokenHash = digests.hashToken raw) (hsafe : ScopeSafe s token.grant.scope)
    (haccess : TokenWithin codec s access)
    (hstore : w.store.createRefreshToken token = some store') : Invariant codec digests s
      { store := store'
        held := w.held.append { tokens := [access], refreshTokens := [raw] }
        returned := w.returned ++ [access] } := by
  obtain ⟨rfl, hunique⟩ := Store.createRefreshToken_eq_some hstore
  refine ⟨h.codes.unchanged, h.refreshTokens.insert hhash hsafe hunique, h.requestIDs.unchanged, ?_⟩
  intro t ht
  rcases List.mem_append.mp ht with ht | ht
  · exact h.returned t ht
  · rwa [List.mem_singleton.mp ht]

/-- One safe request keeps the invariant. -/
theorem Invariant.step {a : Action} {w' : World} (hsafe : StaysWithin s a.req)
    (hstep : Step codec digests w a w') : Invariant codec digests s w' := by
  obtain ⟨env, req⟩ := a
  have hpresents := hstep.presents
  rw [hstep.next]
  unfold World.next
  have heffect := effect_handle codec digests env w.store req
  revert heffect
  generalize handle codec digests env w.store req = result
  obtain ⟨resp, store'⟩ := result
  intro heffect
  dsimp only at heffect hsafe hpresents ⊢
  unfold StaysWithin at hsafe
  cases heffect with
  | quiet hreveals hstore =>
    rw [hreveals]
    simpa [Revealed.append] using h.descend hstore
  | login body user hroute huser =>
    rw [hpresents.password body hroute] at huser
    cases huser
  | slid session startedAt csrf hroute hsession hstarted hcsrf =>
    simp [hroute, hsession, hstarted, hcsrf] at hsafe
  | issued hroute => simp [hroute] at hsafe
  | consented q code hroute hreveals hhash hscope hstore =>
    rw [hroute] at hsafe
    rw [hreveals, List.append_nil]
    exact h.insertCode hhash (hscope ▸ hsafe) hstore
  | asked q p hroute hreveals hid hscope hstore =>
    rw [hroute] at hsafe
    rw [hreveals, List.append_nil, ← hid]
    exact h.insertPending (hscope ▸ hsafe) hstore
  | decided body p code store₁ hroute hreveals hpending hid hdescends hhash hscope hstore =>
    have hgrant : ScopeSafe s p.grant.scope :=
      h.requestIDs.safe_of_presented (hpresents.requestID body hroute) ⟨p, hpending, hid, rfl⟩
    rw [hreveals, List.append_nil]
    exact (h.descend hdescends).insertCode hhash (hscope ▸ hgrant) hstore
  | redeemed form record token store₁ tenantID userID clientID hroute hreveals hrecord hcode
      hdescends hhash hscope hstore =>
    have hgrant : ScopeSafe s record.grant.scope :=
      h.codes.safe_of_presented (hpresents.form form (.inl hroute)).code
        ⟨record, hrecord, hcode, rfl⟩
    rw [hreveals]
    exact (h.descend hdescends).insertRefreshToken hhash (hscope ▸ hgrant)
      (tokenWithin_mintOAuth hgrant) hstore
  | rotated form row token scope store₁ tenantID userID clientID hroute hreveals hrow htoken
      hsubset hempty hhash hscope hstore₁ hstore =>
    have hgrant : ScopeSafe s row.grant.scope :=
      h.refreshTokens.safe_of_presented (hpresents.form form (.inl hroute)).refreshToken
        ⟨row, hrow, htoken, rfl⟩
    have hnarrowed : ScopeSafe s scope :=
      ⟨fun hnil => hgrant.nonempty (hempty hnil),
        hgrant.within.of_subset (subset_of_scopeIsSubset hsubset)⟩
    rw [hreveals]
    exact (h.insertRefreshToken hhash (hscope ▸ hgrant) (tokenWithin_mintOAuth hnarrowed)
      hstore₁).descend hstore
  | clientCredentials form hroute hgrant => simp [hroute, hgrant] at hsafe
  | clientCreated secret hreveals hstore =>
    rw [hreveals]
    have hkept := h.descend hstore
    exact ⟨hkept.codes.unchanged, hkept.refreshTokens.unchanged, hkept.requestIDs.unchanged,
      by simpa using h.returned⟩

end Preservation

/-- Along every run of the holder's requests that all stay within `s`, every token the server
returned authenticates, whenever it does, to a context that permits nothing `s` does not. -/
theorem returned_tokens_within_of_staysWithin (codec : UuidCodec) (digests : Digests) (s : String)
    (w₀ w : World) (actions : List Action) (hinit : Initial codec s w₀)
    (hrun : Run (Step codec digests) w₀ actions w) (hsafe : ∀ a ∈ actions, StaysWithin s a.req) :
    ∀ t ∈ w.returned, TokenWithin codec s t := by
  have hinv : Invariant codec digests s w :=
    hrun.invariant (C := fun a => StaysWithin s a.req)
      (fun _ _ _ hsafe hstep h => h.step hsafe hstep) hsafe (invariant_of_initial hinit)
  exact hinv.returned

/-! ## A holder of a token to read invoices -/

/-- The access token of a grant to read invoices. -/
def invoiceToken : TokenText := mintOAuth .hex plainEnv 2 4 "read:invoice" "invoices"

/-- The user has approved reading invoices; the holder has the token and the client's secret. -/
def invoiceWorld : World where
  store :=
    { clients := [invoiceClient]
      consents := [{ clientID := 1, tenantID := 2, userID := 4, scope := "read:invoice" }] }
  held := { tokens := [invoiceToken], clientSecrets := [("invoices", "s3cret")] }

theorem initial_invoiceWorld : Initial .hex "read:invoice" invoiceWorld where
  held := by
    refine ⟨"invoices", "s3cret", [invoiceToken], rfl, fun t ht => ?_⟩
    exact ⟨plainEnv, 2, 4, List.mem_singleton.mp ht⟩
  returned := rfl

def authorizeAction : Action where
  env := plainEnv
  req :=
    { route := .authorize { clientID := "invoices", redirectURI := "https://invoices.test/cb"
                            scope := "read:invoice" }
      creds := { authorization := some (.bearer invoiceToken) } }

def redeemAction : Action where
  env := plainEnv
  req := { route := .token (some { redeemForm with code := "raw" }), creds := {} }

theorem presents_of_bearer {digests : Digests} {env : Env} {w : World} {req : Request}
    {token : TokenText} (hcreds : req.creds = { authorization := some (.bearer token) })
    (htoken : token ∈ w.held.tokens) (hlogin : ∀ body, req.route ≠ .login (some body))
    (hform : ∀ form, req.route ≠ .token (some form) ∧ req.route ≠ .revoke (some form))
    (hdecision : ∀ body, req.route ≠ .decision (some body)) : Presents digests env w req where
  bearer t ht := by
    rw [hcreds] at ht
    cases ht
    cases token with
    | signed claims => exact htoken
    | invalid text => trivial
  cookie t ht := by rw [hcreds] at ht; cases ht
  password body hroute := absurd hroute (hlogin body)
  form f hroute := hroute.elim (fun h => absurd h (hform f).1) fun h => absurd h (hform f).2
  requestID body hroute := absurd hroute (hdecision body)

theorem presents_redeemAction :
    Presents plainDigests plainEnv (invoiceWorld.next .hex plainDigests authorizeAction)
      redeemAction.req where
  bearer t ht := by cases ht
  cookie t ht := by cases ht
  password body hroute := by cases hroute
  form f hroute := by
    rcases hroute with hroute | hroute
    · cases hroute
      refine ⟨fun id secret h => .inl ?_, .inl ?_, .inr fun scope h => ?_⟩
      · cases h
        exact List.mem_singleton.mpr rfl
      · exact List.mem_singleton.mpr rfl
      · obtain ⟨t, ht, -⟩ := h
        cases ht
    · cases hroute
  requestID body hroute := by cases hroute

/-- Asking for the granted scope again and redeeming the code returns a token within it. -/
theorem returned_tokens_within_reauthorized :
    Initial .hex "read:invoice" invoiceWorld ∧
    ∃ w, Run (Step .hex plainDigests) invoiceWorld [authorizeAction, redeemAction] w ∧
      w.returned = [invoiceToken] ∧
      ∀ t ∈ w.returned, TokenWithin .hex "read:invoice" t := by
  have hpresents : Presents plainDigests plainEnv invoiceWorld authorizeAction.req :=
    presents_of_bearer rfl (List.mem_singleton.mpr rfl) (fun _ h => by cases h)
      (fun _ => ⟨fun h => (by cases h), fun h => by cases h⟩) fun _ h => by cases h
  have hrun : Run (Step .hex plainDigests) invoiceWorld [authorizeAction, redeemAction]
      ((invoiceWorld.next .hex plainDigests authorizeAction).next .hex plainDigests
        redeemAction) :=
    .snoc (.snoc (.nil _) ⟨hpresents, rfl⟩) ⟨presents_redeemAction, rfl⟩
  refine ⟨initial_invoiceWorld, _, hrun, rfl, ?_⟩
  refine returned_tokens_within_of_staysWithin .hex plainDigests "read:invoice" invoiceWorld _ _
    initial_invoiceWorld hrun fun a ha => ?_
  rcases List.mem_cons.mp ha with rfl | ha
  · exact ⟨by decide, fun _ _ h => h, fun h => h⟩
  · rw [List.mem_singleton.mp ha]
    show "authorization_code" ≠ "client_credentials"
    decide

/-- A request to `GET /auth/token`. -/
def issueTokenAction : Action where
  env := plainEnv
  req := { route := .issueToken, creds := { authorization := some (.bearer invoiceToken) } }

/-- The holder of a token to read invoices asks for a session token and gets one: it may delete
payroll records and has the admin surface. -/
theorem issueToken_amplifies_grant :
    Initial .hex "read:invoice" invoiceWorld ∧
    ∃ w, Run (Step .hex plainDigests) invoiceWorld [issueTokenAction] w ∧
      ∃ t ∈ w.returned, ∃ rc, authenticateToken .hex plainEnv.directory 0 t = .ok rc ∧
        rc.scopePermits "payroll" .delete = true ∧ rc.scopePermitsAdminSurface = true ∧
        ¬ scopeCovers (Strings.fields "read:invoice") "payroll" .delete ∧
        adminScope ∉ Strings.fields "read:invoice" := by
  have hpresents : Presents plainDigests plainEnv invoiceWorld issueTokenAction.req :=
    presents_of_bearer rfl (List.mem_singleton.mpr rfl) (fun _ h => by cases h)
      (fun _ => ⟨fun h => (by cases h), fun h => by cases h⟩) fun _ h => by cases h
  refine ⟨initial_invoiceWorld, _, .snoc (.nil _) ⟨hpresents, rfl⟩, _, List.mem_singleton.mpr rfl,
    _, rfl, rfl, rfl, ?_, by decide⟩
  rintro ⟨t, ht, hpermits⟩
  revert hpermits
  rw [List.mem_singleton.mp ht]
  decide

end Metap.OAuth
