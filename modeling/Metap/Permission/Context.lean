import Metap.Framework.Json
import Metap.Framework.Strings

/-!
# The request context

`RequestContext` is what authentication leaves behind for the rest of a request: the tenant, the
user, the caller's roles, and free attributes that policies may read.  An OAuth2 grant is folded
into the attributes (`applyOAuthGrant`) and narrows what the caller may do; a context without
the grant attribute is an ordinary session, which `scopePermits` never restricts.

A slice that the source distinguishes from the empty one when it is `nil` (it serialises as
`null`) is an `Option` here.
-/

namespace Metap

def oauthScopeAttribute : String := "oauthScope"

def oauthClientIDAttribute : String := "oauthClientId"

def adminScope : String := "admin"

/-- The five actions a policy can grant. -/
inductive EntityAction where
  | read | create | update | delete | transition
  deriving DecidableEq, Repr

namespace EntityAction

def string : EntityAction → String
  | read => "read"
  | create => "create"
  | update => "update"
  | delete => "delete"
  | transition => "transition"

/-- The verb a scope token names the action by. -/
def verb : EntityAction → String
  | read => "read"
  | create => "write"
  | update => "write"
  | delete => "delete"
  | transition => "transition"

end EntityAction

structure RequestContext where
  tenantID : String
  /-- The empty string when there is no user. -/
  userID : String := ""
  roles : Option (List String) := none
  hasRoles : Bool := false
  functionID : String := ""
  contextAttributes : Option JsonObject := none
  /-- Forwarded by a remote client; policies do not see it. -/
  forwardedBearerToken : String := ""

namespace RequestContext

/-- The caller's roles, as iteration over the slice sees them. -/
def roleList (c : RequestContext) : List String := c.roles.getD []

def isAdmin (c : RequestContext) : Bool := c.roleList.contains "admin"

/-- Fold an OAuth2 grant into the attributes. -/
def applyOAuthGrant (c : RequestContext) (scope : String) (clientID : Option String) :
    RequestContext :=
  let attrs := c.contextAttributes.getD []
  let attrs := attrs.set oauthScopeAttribute (Json.ofStrings (Strings.fields scope))
  let attrs :=
    match clientID with
    | some id => attrs.set oauthClientIDAttribute (.str id)
    | none => attrs
  { c with contextAttributes := some attrs }

/-- The granted scope tokens; `none` for an ordinary session. -/
def oauthScope (c : RequestContext) : Option (List String) := do
  let attrs ← c.contextAttributes
  let raw ← attrs.get oauthScopeAttribute
  raw.decodeStrings

end RequestContext

/-- Whether a scope token `verb:entity` (or `verb:*`) covers an action on an entity. -/
def tokenPermits (token : String) (entity : String) (action : EntityAction) : Bool :=
  match Strings.cut token ':' with
  | some (v, e) => v = action.verb && (e = "*" || e = entity)
  | none => false

namespace RequestContext

def scopePermits (c : RequestContext) (entity : String) (action : EntityAction) : Bool :=
  match c.oauthScope with
  | none => true
  | some tokens => tokens.any fun t => tokenPermits t entity action

def scopePermitsAdminSurface (c : RequestContext) : Bool :=
  match c.oauthScope with
  | none => true
  | some tokens => tokens.contains adminScope

/-- The context as a JSON object, the attributes flattened over the fixed members. -/
def toValue (c : RequestContext) : Json :=
  let out : JsonObject := [("tenantId", .str c.tenantID)]
  let out := if c.userID ≠ "" then out.set "userId" (.str c.userID) else out
  let out :=
    if c.hasRoles then out.set "roles" ((c.roles.map Json.ofStrings).getD .null) else out
  let out := if c.functionID ≠ "" then out.set "functionId" (.str c.functionID) else out
  .obj ((c.contextAttributes.getD []).foldl (fun o e => JsonObject.set o e.1 e.2) out)

/-- A context with the grant applied carries exactly the tokens of the scope string. -/
@[simp]
theorem oauthScope_applyOAuthGrant (c : RequestContext) (scope : String)
    (clientID : Option String) :
    (c.applyOAuthGrant scope clientID).oauthScope = some (Strings.fields scope) := by
  cases clientID <;> simp [applyOAuthGrant, oauthScope, oauthScopeAttribute,
    oauthClientIDAttribute]

end RequestContext

/-! ## Decisions -/

/-- `reason` and `field` are empty when absent. -/
structure PermissionDecision where
  allowed : Bool
  reason : String := ""
  field : String := ""
  deriving DecidableEq, Repr

namespace PermissionDecision

def allow : PermissionDecision := { allowed := true }

def forbidden : PermissionDecision := { allowed := false, reason := "forbidden" }

def forbiddenField (field : String) : PermissionDecision :=
  { allowed := false, reason := "forbidden", field }

end PermissionDecision

end Metap
