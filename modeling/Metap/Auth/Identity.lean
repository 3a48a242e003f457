import Metap.Auth.Authenticate
import Metap.Permission.Condition

/-!
# What policies see of the caller

Policies read the caller as a JSON object in which the attributes of the caller's own business
record are written over the verified identity.  A record with a member `roles` therefore hides the
caller's roles from every condition, and one with a member `oauthScope` makes an ordinary session
look like a grant (`caller_record_shadows_identity`).

`identity_intact_iff` says that nothing else can: what policies see of the identity is what the
token and the role lookup gave exactly if no attribute carries another value for one of its
members, and, when the token has no scope, no attribute reads as one.
-/

namespace Metap

open Permission (resolveValue)

/-- The identity a token and the role lookup establish. -/
structure VerifiedIdentity where
  tenantID : Uuid
  userID : Uuid
  roles : Option (List String)
  functionID : String
  /-- The scope the token carries, if it was issued to an OAuth2 client. -/
  scope : Option String
  deriving DecidableEq, Repr

namespace VerifiedIdentity

variable (codec : UuidCodec) (identity : VerifiedIdentity)

/-- The members of the context object that stand for the identity. -/
def members : List (String × Option Json) :=
  [("tenantId", some (.str (codec.format identity.tenantID))),
   ("userId", some (.str (codec.format identity.userID))),
   ("roles", some ((identity.roles.map Json.ofStrings).getD .null)),
   ("functionId", if identity.functionID = "" then none else some (.str identity.functionID))]

/-- Every reading of the identity from the context gives the identity, and a grant is reported only
if the token carried one. -/
structure Intact (rc : RequestContext) : Prop where
  value : ∀ m ∈ identity.members codec, (rc.toValue.decodeObject.getD []).get m.1 = m.2
  attribute_eq : ∀ m ∈ identity.members codec, ∀ subject,
    resolveAttribute subject (contextAttributePrefix ++ m.1) rc = m.2.getD .null
  value_eq : ∀ m ∈ identity.members codec, resolveValue (.fromContext m.1) rc = m.2.getD .null
  grant : rc.oauthScope.isSome → identity.scope.isSome

/-- The attributes carry no other value for a member of the identity, and no scope of their own
beside a token without one. -/
structure Unshadowed (attrs : JsonObject) : Prop where
  member : ∀ m ∈ identity.members codec, ∀ v, attrs.get m.1 = some v → m.2 = some v
  scope : identity.scope = none → ∀ v, attrs.get oauthScopeAttribute = some v →
    v.decodeStrings = none

end VerifiedIdentity

/-- The context without its attributes, as an object. -/
def RequestContext.fixedMembers (c : RequestContext) : JsonObject :=
  let out : JsonObject := [("tenantId", .str c.tenantID)]
  let out := if c.userID ≠ "" then out.set "userId" (.str c.userID) else out
  let out :=
    if c.hasRoles then out.set "roles" ((c.roles.map Json.ofStrings).getD .null) else out
  if c.functionID ≠ "" then out.set "functionId" (.str c.functionID) else out

theorem RequestContext.get_toValue (c : RequestContext) (key : String) :
    (c.toValue.decodeObject.getD []).get key =
      ((c.contextAttributes.getD []).get key).or (c.fixedMembers.get key) :=
  JsonObject.get_merge c.fixedMembers (c.contextAttributes.getD []) key

/-- A context of the identity. -/
structure VerifiedIdentity.Describes (codec : UuidCodec) (identity : VerifiedIdentity)
    (rc : RequestContext) : Prop where
  tenantID : rc.tenantID = codec.format identity.tenantID
  userID : rc.userID = codec.format identity.userID
  roles : rc.roles = identity.roles
  hasRoles : rc.hasRoles = true
  functionID : rc.functionID = identity.functionID

section

variable {codec : UuidCodec} {identity : VerifiedIdentity} {rc : RequestContext}
  {m : String × Option Json}

theorem VerifiedIdentity.Describes.get_fixedMembers (h : identity.Describes codec rc)
    (hformat : ∀ u, codec.format u ≠ "") (hm : m ∈ identity.members codec) :
    rc.fixedMembers.get m.1 = m.2 := by
  simp only [members, List.mem_cons, List.not_mem_nil, or_false] at hm
  by_cases hfunction : identity.functionID = "" <;>
    rcases hm with rfl | rfl | rfl | rfl <;>
    simp [RequestContext.fixedMembers, h.tenantID, h.userID, h.roles, h.hasRoles, h.functionID,
      hformat, hfunction, JsonObject.get]

/-- A reference to a member of the identity reads the context object. -/
theorem resolveAttribute_context (hm : m ∈ identity.members codec) (subject : Json) :
    resolveAttribute subject (contextAttributePrefix ++ m.1) rc =
      ((rc.toValue.decodeObject.getD []).get m.1).getD .null := by
  have hdot : '.' ∉ m.1.toList := by
    simp only [VerifiedIdentity.members, List.mem_cons, List.not_mem_nil, or_false] at hm
    rcases hm with rfl | rfl | rfl | rfl <;> dsimp only <;> decide
  rw [resolveAttribute, Strings.cutPrefix_append]
  simp only [resolveAttributePath, Strings.split_of_notMem hdot, List.foldl_cons, List.foldl_nil]
  rfl

theorem oauthScope_isSome_iff : rc.oauthScope.isSome ↔
    ∃ v, (rc.contextAttributes.getD []).get oauthScopeAttribute = some v ∧
      v.decodeStrings.isSome := by
  cases hattrs : rc.contextAttributes with
  | none => simp [RequestContext.oauthScope, hattrs]
  | some attrs =>
    cases hget : JsonObject.get attrs oauthScopeAttribute with
    | none | some v => simp [RequestContext.oauthScope, hattrs, hget]

theorem intact_iff (h : identity.Describes codec rc) (hformat : ∀ u, codec.format u ≠ "") :
    identity.Intact codec rc ↔ identity.Unshadowed codec (rc.contextAttributes.getD []) := by
  have hvalue : ∀ m ∈ identity.members codec, (rc.toValue.decodeObject.getD []).get m.1 = m.2 ↔
      ∀ v, (rc.contextAttributes.getD []).get m.1 = some v → m.2 = some v := by
    intro m hm
    rw [RequestContext.get_toValue, h.get_fixedMembers hformat hm]
    cases (rc.contextAttributes.getD []).get m.1 with
    | none => simp
    | some v => simp [eq_comm]
  constructor
  · intro hintact
    refine ⟨fun m hm => (hvalue m hm).mp (hintact.value m hm), ?_⟩
    intro hscope v hv
    by_contra hdecodes
    have hsome := hintact.grant
      (oauthScope_isSome_iff.mpr ⟨v, hv, Option.isSome_iff_ne_none.mpr hdecodes⟩)
    rw [hscope] at hsome
    cases hsome
  · intro hunshadowed
    have hget : ∀ m ∈ identity.members codec, (rc.toValue.decodeObject.getD []).get m.1 = m.2 :=
      fun m hm => (hvalue m hm).mpr (hunshadowed.member m hm)
    refine ⟨hget, ?_, ?_, ?_⟩
    · intro m hm subject
      rw [resolveAttribute_context hm, hget m hm]
    · intro m hm
      rw [resolveValue, hget m hm]
    · intro hsome
      obtain ⟨v, hv, hdecodes⟩ := oauthScope_isSome_iff.mp hsome
      cases hscope : identity.scope with
      | some scope => rfl
      | none =>
        rw [hunshadowed.scope hscope v hv] at hdecodes
        cases hdecodes

/-- Recording the token's scope touches no member of the identity. -/
theorem unshadowed_applyOAuthGrant (scope : String) (clientID : Option String)
    (hscope : identity.scope = some scope) :
    identity.Unshadowed codec ((rc.applyOAuthGrant scope clientID).contextAttributes.getD []) ↔
      identity.Unshadowed codec (rc.contextAttributes.getD []) := by
  have hget : ∀ m ∈ identity.members codec,
      ((rc.applyOAuthGrant scope clientID).contextAttributes.getD []).get m.1 =
        (rc.contextAttributes.getD []).get m.1 := by
    intro m hm
    simp only [VerifiedIdentity.members, List.mem_cons, List.not_mem_nil, or_false] at hm
    have hother : m.1 ≠ oauthScopeAttribute ∧ m.1 ≠ oauthClientIDAttribute := by
      rcases hm with rfl | rfl | rfl | rfl <;> dsimp only <;> decide
    cases clientID <;> simp [RequestContext.applyOAuthGrant, hother]
  have hvacuous : ∀ {p : Prop}, identity.scope = none → p := by
    intro p hnone
    rw [hscope] at hnone
    cases hnone
  constructor
  · exact fun h => ⟨fun m hm v hv => h.member m hm v ((hget m hm).trans hv), hvacuous⟩
  · exact fun h => ⟨fun m hm v hv => h.member m hm v ((hget m hm).symm.trans hv), hvacuous⟩

end

/-- For every token that is accepted, whatever the caller's record contains: policies see the
verified identity exactly if the record's attributes do not shadow it. -/
theorem identity_intact_iff {codec : UuidCodec} (hformat : ∀ u, codec.format u ≠ "")
    {directory : CallerDirectory} {now : ℤ} {token : TokenText} {rc : RequestContext}
    (h : authenticateToken codec directory now token = .ok rc) :
    ∃ claims tenantID userID caller,
      decodeAccessToken now tokenLeewaySeconds token = some claims ∧
      codec.parse claims.tenantID = some tenantID ∧ codec.parse claims.subject = some userID ∧
      directory tenantID userID = some caller ∧
      let identity : VerifiedIdentity :=
        ⟨tenantID, userID, caller.roles, claims.functionID.getD "", claims.scope⟩
      identity.Intact codec rc ↔
        identity.Unshadowed codec (caller.contextAttributes.getD []) := by
  unfold authenticateToken at h
  split at h
  · cases h
  next claims hclaims =>
  split at h
  swap
  · cases h
  next tenantID userID htenant huser =>
  cases hcaller : directory tenantID userID with
  | none => simp [resolveRequestContext, hcaller] at h
  | some caller =>
    refine ⟨claims, tenantID, userID, caller, hclaims, htenant, huser, hcaller, ?_⟩
    simp only [resolveRequestContext, hcaller, Option.bind_eq_bind, Option.bind_some,
      Option.pure_def] at h
    split at h
    · next scope hscope =>
      cases h
      intro identity
      exact (intact_iff ⟨rfl, rfl, rfl, rfl, rfl⟩ hformat).trans
        (unshadowed_applyOAuthGrant _ _ hscope)
    · cases h
      exact intact_iff ⟨rfl, rfl, rfl, rfl, rfl⟩ hformat

/-! ## A caller with a telling record -/

/-- The caller has no roles; the record that describes them has fields of its own. -/
def tellingCaller : CallerRecord where
  contextAttributes := some [("userId", .str (UuidCodec.hex.format 9)),
    ("tenantId", .str (UuidCodec.hex.format 2)), ("roles", Json.ofStrings ["approver"]),
    ("functionId", .str "payroll"), ("oauthScope", Json.ofStrings ["read:*"])]

def plainCaller : CallerRecord where
  roles := some ["clerk"]
  contextAttributes := some [("userId", .str (UuidCodec.hex.format 9)), ("region", .str "north")]

def sessionOf : TokenText := .signed (mintJWT .hex 0 "" 1 9 60)

theorem format_hex_ne_empty (u : Uuid) : UuidCodec.hex.format u ≠ "" := by
  intro h
  have hlength := congrArg (fun text => text.toList.length) h
  simp [UuidCodec.hex] at hlength

theorem decode_sessionOf : decodeAccessToken 0 tokenLeewaySeconds sessionOf =
    some ⟨UuidCodec.hex.format 9, UuidCodec.hex.format 1, none, none, none, none⟩ := by rfl

theorem identity_intact_iff_plainCaller : ∃ rc,
    authenticateToken .hex (fun _ _ => some plainCaller) 0 sessionOf = .ok rc ∧
    VerifiedIdentity.Intact .hex ⟨1, 9, some ["clerk"], "", none⟩ rc := by
  have hauth : ∃ rc, authenticateToken .hex (fun _ _ => some plainCaller) 0 sessionOf = .ok rc := by
    rw [authenticateToken, decode_sessionOf]
    simp only [UuidCodec.parse_format]
    exact ⟨_, rfl⟩
  obtain ⟨rc, hrc⟩ := hauth
  obtain ⟨claims, tenantID, userID, caller, hclaims, htenant, huser, hcaller, hiff⟩ :=
    identity_intact_iff format_hex_ne_empty hrc
  cases decode_sessionOf.symm.trans hclaims
  cases (UuidCodec.parse_format .hex 1).symm.trans htenant
  cases (UuidCodec.parse_format .hex 9).symm.trans huser
  cases hcaller
  refine ⟨rc, hrc, hiff.mpr ⟨?_, ?_⟩⟩
  · intro m hm v hv
    simp only [VerifiedIdentity.members, List.mem_cons, List.not_mem_nil, or_false] at hm
    rcases hm with rfl | rfl | rfl | rfl
    · simp [plainCaller, JsonObject.get] at hv
    · simpa [plainCaller, JsonObject.get, eq_comm] using hv
    · simp [plainCaller, JsonObject.get] at hv
    · simp [plainCaller, JsonObject.get] at hv
  · intro _ v hv
    simp [plainCaller, JsonObject.get, oauthScopeAttribute] at hv

/-- The record hides the caller's tenant, roles and function, and reports a grant for a token that
has none. -/
theorem caller_record_shadows_identity : ∃ rc,
    authenticateToken .hex (fun _ _ => some tellingCaller) 0 sessionOf = .ok rc ∧
    resolveAttribute .null "$ctx.tenantId" rc = .str (UuidCodec.hex.format 2) ∧
    rc.roles = none ∧
    resolveAttribute .null "$ctx.roles" rc = Json.ofStrings ["approver"] ∧
    resolveAttribute .null "$ctx.functionId" rc = .str "payroll" ∧
    rc.oauthScope = some ["read:*"] := by
  rw [authenticateToken, decode_sessionOf]
  simp only [UuidCodec.parse_format]
  refine ⟨_, rfl, ?_, rfl, ?_, ?_, ?_⟩ <;> rfl

end Metap
