import Metap.Framework.Uuid
import Metap.Permission.Context

/-!
# Access tokens

An access token is a signed set of claims.  The signing library is taken at its word: a token
whose signature verifies carries the claims that were signed, so a token is modelled by its
claims, and a text that is no such token by `TokenText.invalid`.

What is not the library's is the shape of the claims.  They are written from one structure, whose
`scope` and `clientId` members are left out when they are empty, and read into another, where a
member that was left out is absent.
-/

namespace Metap

def jwtIssuer : String := "metap"

def jwtAudience : String := "metap-api"

/-- The members of the claims object; an optional one is `none` when it is left out. -/
structure WireClaims where
  sub : String
  exp : ℤ
  iss : String
  aud : List String
  jti : String
  tenantId : String
  functionId : Option String := none
  scope : Option String := none
  clientId : Option String := none
  deriving DecidableEq, Repr

/-- What a bearer header or a session cookie can hold. -/
inductive TokenText where
  | signed (claims : WireClaims)
  | invalid (text : String)
  deriving DecidableEq, Repr

def TokenText.isEmpty : TokenText → Bool
  | signed _ => false
  | invalid text => text = ""

/-- A string member that is left out when it is empty. -/
def omitEmpty (s : String) : Option String := if s = "" then none else some s

section

variable (codec : UuidCodec)

/-- `now` is the time of minting and `jti` the token's own fresh identifier. -/
def mintClaims (now : ℤ) (jti : String) (tenantID userID : Uuid) (ttlSeconds : ℕ)
    (scope clientID : String) : WireClaims where
  sub := codec.format userID
  exp := now + ttlSeconds
  iss := jwtIssuer
  aud := [jwtAudience]
  jti := jti
  tenantId := codec.format tenantID
  scope := omitEmpty scope
  clientId := omitEmpty clientID

/-- A session token. -/
def mintJWT (now : ℤ) (jti : String) (tenantID userID : Uuid) (ttlSeconds : ℕ) : WireClaims :=
  mintClaims codec now jti tenantID userID ttlSeconds "" ""

/-- A token of the OAuth2 token endpoint. -/
def mintOAuthAccessToken (now : ℤ) (jti : String) (tenantID userID : Uuid) (ttlSeconds : ℕ)
    (scope clientID : String) : WireClaims :=
  mintClaims codec now jti tenantID userID ttlSeconds scope clientID

end

/-- The claims as the rest of the program sees them. -/
structure AccessClaims where
  subject : String
  tenantID : String
  functionID : Option String
  jti : Option String
  scope : Option String
  clientID : Option String
  deriving DecidableEq, Repr

/-- Verify a token: its signature, issuer, audience and expiry, with `leeway` seconds of clock
skew. -/
def decodeAccessToken (now leeway : ℤ) : TokenText → Option AccessClaims
  | .invalid _ => none
  | .signed wire =>
    if wire.iss = jwtIssuer ∧ jwtAudience ∈ wire.aud ∧ now < wire.exp + leeway then
      some {
        subject := wire.sub
        tenantID := wire.tenantId
        functionID := wire.functionId
        jti := omitEmpty wire.jti
        scope := wire.scope
        clientID := wire.clientId }
    else none

end Metap
