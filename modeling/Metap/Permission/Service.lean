import Metap.Query.PlanList

/-!
# Entity-level checks

The permission service answers whether a caller may take an action on an entity at all, from the
policies in a store; the snapshot answers the same from the policies loaded for one call.  Each of
the four answers asks the OAuth2 scope first, then the admin role, then the policies.

So a grant is a ceiling (`allowed_within_grant`): whatever the roles and the policies are, an action
that is allowed under a grant is named by one of the grant's tokens.
-/

namespace Metap

/-- The policy store; `none` when it cannot be read. -/
structure PolicyStore where
  findContextPolicies : Uuid → String → String → Option (List PolicyRow)

inductive CheckError where
  | tenant (err : Query.QueryError)
  | store

structure PermissionService where
  parseUuid : String → Option Uuid
  store : PolicyStore

/-- The policy action that covers one workflow action only. -/
def transitionActionPolicy (action : String) : String := "transition:" ++ action

namespace PermissionService

open PermissionSnapshot (verdictDecision)

variable (svc : PermissionService) (ctx : RequestContext) (entityName : String)

def findContextPolicies (tenantID : Uuid) (action : String) : Except CheckError (List PolicyRow) :=
  match svc.store.findContextPolicies tenantID entityName action with
  | some rows => .ok rows
  | none => .error .store

def checkAction (action : EntityAction) : Except CheckError PermissionDecision :=
  if !ctx.scopePermits entityName action then .ok .forbidden
  else if ctx.isAdmin then .ok .allow
  else do
    let tenantID ← (Query.scopedTenant svc.parseUuid ctx).mapError .tenant
    let rows ← svc.findContextPolicies entityName tenantID action.string
    return verdictDecision (evaluatePolicies rows ctx none)

def canTransitionAction (action : String) : Except CheckError PermissionDecision :=
  if !ctx.scopePermits entityName .transition then .ok .forbidden
  else if ctx.isAdmin then .ok .allow
  else do
    let tenantID ← (Query.scopedTenant svc.parseUuid ctx).mapError .tenant
    let generic ← svc.findContextPolicies entityName tenantID EntityAction.transition.string
    let specific ← svc.findContextPolicies entityName tenantID (transitionActionPolicy action)
    return verdictDecision (evaluatePolicies (generic ++ specific) ctx none)

end PermissionService

/-! ## The scope comes first -/

section

variable {ctx : RequestContext} {entityName : String} {action : EntityAction}

theorem scopePermits_of_ite {α : Type} {P : α → Prop} {denied rest : α} (hdenied : ¬P denied)
    (h : P (if !ctx.scopePermits entityName action then denied else rest)) :
    ctx.scopePermits entityName action = true := by
  cases hscope : ctx.scopePermits entityName action with
  | true => rfl
  | false =>
    rw [hscope] at h
    exact absurd h hdenied

/-- A token of the scope string names the action on the entity, or on every entity. -/
def ScopeCovers (scope entityName : String) (action : EntityAction) : Prop :=
  action.verb ++ ":" ++ entityName ∈ Strings.fields scope ∨
    action.verb ++ ":" ++ "*" ∈ Strings.fields scope

theorem eq_of_tokenPermits {token entityName : String}
    (h : tokenPermits token entityName action = true) :
    token = action.verb ++ ":" ++ entityName ∨ token = action.verb ++ ":" ++ "*" := by
  unfold tokenPermits at h
  split at h
  · next v e hcut =>
    simp only [Bool.and_eq_true, Bool.or_eq_true, decide_eq_true_eq] at h
    obtain ⟨rfl, rfl | rfl⟩ := h
    · exact .inr (Strings.eq_of_cut_eq_some hcut)
    · exact .inl (Strings.eq_of_cut_eq_some hcut)
  · cases h

theorem scopeCovers_of_scopePermits {scope : String} {clientID : Option String}
    (h : (ctx.applyOAuthGrant scope clientID).scopePermits entityName action = true) :
    ScopeCovers scope entityName action := by
  rw [RequestContext.scopePermits, RequestContext.oauthScope_applyOAuthGrant] at h
  obtain ⟨token, htoken, hpermits⟩ := List.any_eq_true.mp h
  rcases eq_of_tokenPermits hpermits with rfl | rfl
  · exact .inl htoken
  · exact .inr htoken

end

/-- Under a grant, each of the four checks allows only what a token of the grant names. -/
theorem allowed_within_grant (ctx : RequestContext) (scope : String) (clientID : Option String)
    (svc : PermissionService) (snapshot : PermissionSnapshot) (entityName : String) :
    let granted := ctx.applyOAuthGrant scope clientID
    (∀ action d, svc.checkAction granted entityName action = .ok d → d.allowed = true →
      ScopeCovers scope entityName action) ∧
    (∀ action d, svc.canTransitionAction granted entityName action = .ok d → d.allowed = true →
      ScopeCovers scope entityName .transition) ∧
    (∀ action, (snapshot.canPerformEntityAction granted entityName action).allowed = true →
      ScopeCovers scope entityName action) ∧
    ∀ action, (snapshot.canTransitionAction granted entityName action).allowed = true →
      ScopeCovers scope entityName .transition := by
  intro granted
  refine ⟨?check, ?transition, ?entity, ?snapshot⟩
  case check | transition =>
    intro action d h hallowed
    refine scopeCovers_of_scopePermits (scopePermits_of_ite (P := (· = Except.ok d)) ?_ h)
    rintro ⟨⟩
    cases hallowed
  case entity | snapshot =>
    intro action h
    exact scopeCovers_of_scopePermits
      (scopePermits_of_ite (P := (PermissionDecision.allowed · = true)) (by decide) h)

/-- An administrator under a grant with two tokens. -/
def scopedAdmin : RequestContext :=
  RequestContext.applyOAuthGrant { tenantID := "t", roles := some ["admin"], hasRoles := true }
    "read:waf.zones write:waf.rules" none

def emptyService : PermissionService where
  parseUuid _ := none
  store := { findContextPolicies := fun _ _ _ => some [] }

theorem allowed_within_grant_scopedAdmin :
    emptyService.checkAction scopedAdmin "waf.zones" .read = .ok .allow ∧
    emptyService.checkAction scopedAdmin "waf.zones" .delete = .ok .forbidden ∧
    ScopeCovers "read:waf.zones write:waf.rules" "waf.zones" .read := by
  have hread : emptyService.checkAction scopedAdmin "waf.zones" .read = .ok .allow := by rfl
  refine ⟨hread, by rfl, ?_⟩
  have hgrant := allowed_within_grant
    { tenantID := "t", roles := some ["admin"], hasRoles := true }
    "read:waf.zones write:waf.rules" none emptyService (PermissionSnapshot.fromRows []) "waf.zones"
  exact hgrant.1 .read .allow hread rfl

/-! ## Service and snapshot -/

section

variable {svc : PermissionService} {ctx : RequestContext} {entityName : String}
  {snapshot : PermissionSnapshot} {tenantID : Uuid}

theorem findContextPolicies_eq_ok {action : String} {rows : List PolicyRow}
    (hrows : svc.store.findContextPolicies tenantID entityName action = some rows) :
    svc.findContextPolicies entityName tenantID action = .ok rows := by
  rw [PermissionService.findContextPolicies, hrows]

/-- The decision does not depend on the order of the policies. -/
theorem verdictDecision_perm {rows rows' : List PolicyRow} (h : rows.Perm rows')
    (ctx : RequestContext) (subject : Option Json) :
    PermissionSnapshot.verdictDecision (evaluatePolicies rows ctx subject) =
      PermissionSnapshot.verdictDecision (evaluatePolicies rows' ctx subject) := by
  have hallow : evaluatePolicies rows ctx subject = .allow ↔
      evaluatePolicies rows' ctx subject = .allow := by
    simp only [evaluatePolicies_eq_allow, h.mem_iff]
  cases hv : evaluatePolicies rows ctx subject <;>
    cases hv' : evaluatePolicies rows' ctx subject <;>
    simp_all [PermissionSnapshot.verdictDecision]

variable (htenant : Query.scopedTenant svc.parseUuid ctx = .ok tenantID)

include htenant

theorem mapError_scopedTenant :
    (Query.scopedTenant svc.parseUuid ctx).mapError CheckError.tenant = .ok tenantID := by
  rw [htenant]
  rfl

/-- Where the store and the snapshot hold the same policies, a caller is offered exactly what the
write path then accepts. -/
theorem checkAction_eq_canPerformEntityAction {action : EntityAction} {rows : List PolicyRow}
    (hrows : svc.store.findContextPolicies tenantID entityName action.string = some rows)
    (hperm : rows.Perm (snapshot.getContextPolicies action.string)) :
    svc.checkAction ctx entityName action =
      .ok (snapshot.canPerformEntityAction ctx entityName action) := by
  unfold PermissionService.checkAction PermissionSnapshot.canPerformEntityAction
  split
  · rfl
  split
  · rfl
  · rw [mapError_scopedTenant htenant, ← verdictDecision_perm hperm]
    change (svc.findContextPolicies entityName tenantID action.string >>= fun rows => _) = _
    rw [findContextPolicies_eq_ok hrows]
    rfl

end

end Metap
