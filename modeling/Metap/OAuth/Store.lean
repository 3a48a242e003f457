import Metap.Auth.Authenticate

/-!
# The OAuth2 server's tables

The authorization server keeps its clients, authorization codes, refresh tokens, pending
authorizations and consents in tables shared by all tenants.  Secrets, codes and refresh tokens
are stored hashed; the digest is a parameter.  An insert that would break a unique constraint
fails, which is what makes a freshly drawn secret new.

A pending authorization or a code is consumed by the statement that checks it, so each can be
used once.
-/

namespace Metap.OAuth

def scopeTokens (scope : String) : List String := Strings.fields scope

/-- Every requested token is allowed. -/
def scopeIsSubset (requested allowed : String) : Bool :=
  (scopeTokens requested).all fun t => (scopeTokens allowed).contains t

structure Client where
  id : Uuid
  tenantID : Uuid
  clientID : String
  name : String
  redirectURIs : List String
  allowedScopes : List String
  isConfidential : Bool
  revokedAt : Option ℤ := none
  serviceUserID : Option Uuid := none
  clientSecretHash : String
  deriving DecidableEq, Repr

def Client.allowedScope (c : Client) : String := " ".intercalate c.allowedScopes

/-- What a code, a refresh token and a pending authorization all grant. -/
structure Grant where
  clientID : Uuid
  tenantID : Uuid
  userID : Uuid
  scope : String
  deriving DecidableEq, Repr

structure AuthorizationCode where
  codeHash : String
  grant : Grant
  redirectURI : String
  codeChallenge : Option String
  codeChallengeMethod : Option String
  expiresAt : ℤ
  usedAt : Option ℤ := none
  deriving DecidableEq, Repr

structure RefreshToken where
  id : Uuid
  tokenHash : String
  grant : Grant
  expiresAt : ℤ
  revokedAt : Option ℤ := none
  replacedBy : Option Uuid := none
  deriving DecidableEq, Repr

structure PendingAuthorization where
  id : Uuid
  grant : Grant
  redirectURI : String
  codeChallenge : Option String
  codeChallengeMethod : Option String
  clientState : Option String
  expiresAt : ℤ
  deriving DecidableEq, Repr

structure Consent where
  clientID : Uuid
  tenantID : Uuid
  userID : Uuid
  scope : String
  deriving DecidableEq, Repr

structure Store where
  clients : List Client := []
  codes : List AuthorizationCode := []
  refreshTokens : List RefreshToken := []
  pending : List PendingAuthorization := []
  consents : List Consent := []

def authorizationCodeTTLSeconds : ℤ := 60

def pendingAuthorizationTTLSeconds : ℤ := 10 * 60

def refreshTokenTTLSeconds : ℤ := 30 * 24 * 3600

namespace Store

variable (store : Store)

/-! ## Clients -/

def getClientByClientID (clientID : String) : Option Client :=
  store.clients.find? fun c => c.clientID = clientID

def verifyClientSecret (hashToken : String → String) (client : Client) (rawSecret : String) :
    Bool :=
  client.revokedAt.isNone && hashToken rawSecret = client.clientSecretHash

def createClient (client : Client) : Option Store :=
  if store.clients.any fun c => c.clientID = client.clientID || c.id = client.id then none
  else some { store with clients := store.clients ++ [client] }

def revokeClient (now : ℤ) (tenantID id : Uuid) : Option Store :=
  if store.clients.any fun c => c.id = id && c.tenantID = tenantID && c.revokedAt.isNone then
    some { store with clients := store.clients.map fun c =>
      if c.id = id && c.tenantID = tenantID && c.revokedAt.isNone then
        { c with revokedAt := some now }
      else c }
  else none

def listClients (tenantID : Uuid) : List Client :=
  store.clients.filter fun c => c.tenantID = tenantID && c.revokedAt.isNone

/-! ## Codes -/

def createAuthorizationCode (code : AuthorizationCode) : Option Store :=
  if store.codes.any fun c => c.codeHash = code.codeHash then none
  else some { store with codes := store.codes ++ [code] }

/-- Whether the redeeming statement matches a row. -/
def codeMatches (now : ℤ) (codeHash : String) (clientID : Uuid) (redirectURI : String)
    (c : AuthorizationCode) : Bool :=
  c.codeHash = codeHash && c.grant.clientID = clientID && c.redirectURI = redirectURI &&
    c.usedAt.isNone && decide (now < c.expiresAt)

/-- Mark the code used and return it, in one statement. -/
def consumeAuthorizationCode (now : ℤ) (codeHash : String) (clientID : Uuid)
    (redirectURI : String) : Option (AuthorizationCode × Store) := do
  let redeems := codeMatches now codeHash clientID redirectURI
  let code ← store.codes.find? redeems
  let codes := store.codes.map fun c => if redeems c then { c with usedAt := some now } else c
  return (code, { store with codes })

/-! ## Refresh tokens -/

def createRefreshToken (token : RefreshToken) : Option Store :=
  if store.refreshTokens.any fun t => t.tokenHash = token.tokenHash || t.id = token.id then none
  else some { store with refreshTokens := store.refreshTokens ++ [token] }

/-- What presenting a refresh token comes to. -/
inductive RefreshOutcome where
  | rotated (record : RefreshToken) (store : Store)
  | invalid
  /-- The token was revoked before: the live tokens of its client and user are revoked too. -/
  | reused (store : Store)

def revokeChain (now : ℤ) (clientID userID : Uuid) : Store :=
  { store with refreshTokens := store.refreshTokens.map fun t =>
      if t.grant.clientID = clientID && t.grant.userID = userID && t.revokedAt.isNone then
        { t with revokedAt := some now }
      else t }

/-- Replace a live refresh token by the fresh one `(newID, newHash)`; `none` when the fresh one
is not new. -/
def consumeRefreshToken (now : ℤ) (tokenHash : String) (clientID : Uuid) (newID : Uuid)
    (newHash : String) : Option RefreshOutcome :=
  match store.refreshTokens.find? fun t =>
    t.tokenHash = tokenHash && t.grant.clientID = clientID with
  | none => some .invalid
  | some row =>
    if row.revokedAt.isSome then some (.reused (store.revokeChain now clientID row.grant.userID))
    else if row.expiresAt ≤ now then some .invalid
    else do
      let record : RefreshToken := {
        id := newID, tokenHash := newHash, grant := { row.grant with clientID }
        expiresAt := now + refreshTokenTTLSeconds }
      let store ← store.createRefreshToken record
      let refreshTokens := store.refreshTokens.map fun t =>
        if t.id = row.id then { t with revokedAt := some now, replacedBy := some newID } else t
      return .rotated record { store with refreshTokens }

def revokeRefreshToken (now : ℤ) (tokenHash : String) (clientID : Uuid) : Store :=
  { store with refreshTokens := store.refreshTokens.map fun t =>
      if t.tokenHash = tokenHash && t.grant.clientID = clientID && t.revokedAt.isNone then
        { t with revokedAt := some now }
      else t }

/-! ## Pending authorizations and consents -/

def createPendingAuthorization (p : PendingAuthorization) : Option Store :=
  if store.pending.any fun q => q.id = p.id then none
  else some { store with pending := store.pending ++ [p] }

def pendingMatches (now : ℤ) (id tenantID userID : Uuid) (p : PendingAuthorization) : Bool :=
  p.id = id && p.grant.tenantID = tenantID && p.grant.userID = userID &&
    decide (now < p.expiresAt)

/-- Delete the pending authorization and return it, in one statement. -/
def consumePendingAuthorization (now : ℤ) (id tenantID userID : Uuid) :
    Option (PendingAuthorization × Store) := do
  let decides := pendingMatches now id tenantID userID
  let p ← store.pending.find? decides
  return (p, { store with pending := store.pending.filter fun q => !decides q })

def getConsentScope (clientID userID : Uuid) : Option String :=
  (store.consents.find? fun c => c.clientID = clientID && c.userID = userID).map Consent.scope

/-- The tokens of `existing`, then those of `added` that are new. -/
def mergeScopes (existing added : String) : String :=
  " ".intercalate ((scopeTokens added).foldl
    (fun tokens t => if tokens.contains t then tokens else tokens ++ [t]) (scopeTokens existing))

/-- Record an approval; what was approved before stays approved. -/
def recordConsent (tenantID clientID userID : Uuid) (approved : String) : Store :=
  match store.getConsentScope clientID userID with
  | some existing =>
    { store with consents := store.consents.map fun c =>
        if c.clientID = clientID && c.userID = userID then
          { c with scope := mergeScopes existing approved }
        else c }
  | none =>
    { store with consents := store.consents ++ [{ clientID, tenantID, userID, scope := approved }] }

end Store

end Metap.OAuth
