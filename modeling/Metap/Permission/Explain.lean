import Metap.Permission.PolicyTable

/-!
# The policy explainer

`explain` traces, for the administrator, which policies were considered for an action and what
became of each.  It is a second implementation of the decision, with defaults of its own: it asks
one set of policies where enforcement asks two, it knows neither the admin role nor the OAuth2
scope, and an empty set allows.

`explain_agrees_iff` says exactly when its verdict is the one that enforcement gives.
-/

namespace Metap

/-- What became of a policy's roles or of its condition. -/
inductive Gate where
  | gateOpen | gatePassed | gateFailed
  deriving DecidableEq, Repr

structure PolicyTraceEntry where
  policyID : Uuid
  effect : PolicyEffect
  roleGate : Gate
  conditionGate : Gate
  conditionReason : String := ""
  deriving DecidableEq, Repr

def PolicyTraceEntry.matched (e : PolicyTraceEntry) : Bool :=
  e.roleGate ≠ .gateFailed && e.conditionGate ≠ .gateFailed

structure PolicyExplanation where
  allowed : Bool
  policiesConsidered : List PolicyTraceEntry := []
  deriving DecidableEq, Repr

/-- The gate of the roles is open when the policy names none. -/
def roleGateOf (row : StoredPolicy) (rolePassed : Bool) : Gate :=
  if row.hasRoles && !row.roles.isEmpty then
    if rolePassed then .gatePassed else .gateFailed
  else .gateOpen

/-- The trace of one policy. -/
def explainRow (ctx : RequestContext) (subject : Option JsonObject) (row : StoredPolicy) :
    PolicyTraceEntry :=
  let rolePassed := roleGatePassed row.roles row.hasRoles ctx.roleList
  let entry : PolicyTraceEntry :=
    { policyID := row.id, effect := row.effect, roleGate := roleGateOf row rolePassed
      conditionGate := .gateOpen }
  if !rolePassed then entry
  else
    match row.condition with
    | none => entry
    | some condition =>
      let conditionSubject :=
        if row.subject = "record" then (subject.map JsonTree.obj).getD ctx.toValue
        else ctx.toValue
      match evaluateCondition conditionSubject ctx condition with
      | .passed => { entry with conditionGate := .gatePassed }
      | .failed reason => { entry with conditionGate := .gateFailed, conditionReason := reason }

def explainPolicies (policyRows : List StoredPolicy) (ctx : RequestContext)
    (subject : Option JsonObject) : PolicyExplanation :=
  if policyRows.isEmpty then { allowed := true }
  else
    let entries := policyRows.map (explainRow ctx subject)
    let anyMatchingDeny := entries.any fun e => e.matched && e.effect = .deny
    let anyMatchingAllow := entries.any fun e => e.matched && e.effect = .allow
    { allowed := !anyMatchingDeny && anyMatchingAllow, policiesConsidered := entries }

section

variable (parseUuid : String → Option Uuid) (table : PolicyTable) (rc : RequestContext)
  (entityName : String)

def scopedTenantOf : Except CheckError Uuid :=
  (Query.scopedTenant parseUuid rc).mapError .tenant

/-- A field narrows the explanation to its own policies, a record to the record policies. -/
def explainOptions : Option String → Option JsonObject → ExplainOptions
  | some field, _ => { field }
  | none, some _ => { subject := some .record }
  | none, none => {}

def explain (action : String) (field : Option String) (record : Option JsonObject) :
    Except CheckError PolicyExplanation := do
  let tenantID ← scopedTenantOf parseUuid rc
  let rows := table.findExplainPolicies tenantID entityName action (explainOptions field record)
  return explainPolicies rows rc record

/-- What an operation does before it acts: the entity-level check, and on a record the record
condition. -/
def enforce (action : EntityAction) (record : Option JsonObject) : Except CheckError Bool := do
  let tenantID ← scopedTenantOf parseUuid rc
  let svc : PermissionService := { parseUuid, store := table.store }
  let decision ← svc.checkAction rc entityName action
  match record with
  | none => return decision.allowed
  | some record =>
    let recordDecision :=
      (table.snapshot tenantID entityName).canPerformRecordCondition rc record action
    return decision.allowed && recordDecision.allowed

end

/-! ## The trace against the evaluator -/

section

variable {ctx : RequestContext} {subject : Option JsonObject} (row : StoredPolicy)

theorem effect_explainRow : (explainRow ctx subject row).effect = row.effect := by
  unfold explainRow
  dsimp only
  split
  · rfl
  split
  · rfl
  split <;> rfl

theorem roleGateOf_ne_failed : roleGateOf row true ≠ .gateFailed := by
  unfold roleGateOf
  split <;> simp

theorem roleGateOf_failed {row : StoredPolicy} {callerRoles : List String}
    (h : roleGatePassed row.roles row.hasRoles callerRoles = false) :
    roleGateOf row false = .gateFailed := by
  unfold roleGatePassed at h
  split at h
  · cases h
  · next hroles =>
    rw [roleGateOf, if_pos (by simpa using hroles)]
    rfl

/-- An entry counts as matched exactly when the evaluator lets the policy match. -/
theorem matched_explainRow : (explainRow ctx subject row).matched =
      evaluatePolicyRow row.toPolicyRow ctx (subject.map JsonTree.obj) := by
  unfold explainRow evaluatePolicyRow
  cases hrole : roleGatePassed row.roles row.hasRoles ctx.roleList with
  | false => simp [PolicyTraceEntry.matched, roleGateOf_failed hrole]
  | true =>
    have hgate := roleGateOf_ne_failed row
    simp only [Bool.not_true, Bool.false_eq_true, if_false]
    cases row.condition with
    | none => simp [PolicyTraceEntry.matched, hgate]
    | some condition =>
      dsimp only
      cases evaluateCondition (if row.subject = "record" then
          (subject.map JsonTree.obj).getD ctx.toValue else ctx.toValue) ctx condition <;>
        simp [PolicyTraceEntry.matched, hgate]

/-- Explain's verdict: no policy at all, or the evaluator's allow. -/
def ExplainAllows (policies : List PolicyRow) (ctx : RequestContext) (subject : Option Json) :
    Prop :=
  policies = [] ∨ evaluatePolicies policies ctx subject = .allow

theorem allowed_explainPolicies (rows : List StoredPolicy) :
    (explainPolicies rows ctx subject).allowed = true ↔
      ExplainAllows (policiesOf rows) ctx (subject.map JsonTree.obj) := by
  unfold explainPolicies ExplainAllows
  cases rows with
  | nil => simp [policiesOf]
  | cons row rows =>
    have hne : policiesOf (row :: rows) ≠ [] := by simp [policiesOf]
    rw [or_iff_right hne, evaluatePolicies_eq_allow, if_neg (by simp)]
    simp only [List.any_map, Bool.and_eq_true, Bool.not_eq_true', List.any_eq_false,
      List.any_eq_true, Function.comp_apply, matched_explainRow, effect_explainRow,
      decide_eq_true_eq, policiesOf, List.mem_map, exists_exists_and_eq_and, forall_exists_index,
      and_imp, forall_apply_eq_imp_iff₂]
    refine and_congr (forall₂_congr fun r _ => ?_)
      (exists_congr fun r => and_congr_right fun _ => and_comm)
    rw [not_and', Bool.not_eq_true]

end

/-! ## Explain against enforcement -/

section

variable {parseUuid : String → Option Uuid} {table : PolicyTable} {rc : RequestContext}
  {entityName : String} {tenantID : Uuid}

/-- The policies that explain goes through: the record policies when it is given a record, the
entity-level ones otherwise. -/
def explained (table : PolicyTable) (tenantID : Uuid) (entityName : String)
    (action : EntityAction) (record : Option JsonObject) : List PolicyRow :=
  if record.isSome then (table.snapshot tenantID entityName).getRecordPolicies action
  else (table.snapshot tenantID entityName).getContextPolicies action.string

theorem policiesOf_findExplainPolicies (action : EntityAction) (record : Option JsonObject) :
    policiesOf (table.findExplainPolicies tenantID entityName action.string
      (explainOptions none record)) = explained table tenantID entityName action record := by
  cases record with
  | none => exact (table.getContextPolicies_snapshot tenantID entityName action.string).symm
  | some record => exact (table.getRecordPolicies_snapshot tenantID entityName action).symm

theorem explain_eq_ok (table : PolicyTable) (entityName : String)
    (htenant : Query.scopedTenant parseUuid rc = .ok tenantID)
    (action : EntityAction) (record : Option JsonObject) :
    ∃ e, explain parseUuid table rc entityName action.string none record = .ok e ∧
      (e.allowed = true ↔ ExplainAllows (explained table tenantID entityName action record) rc
        (record.map JsonTree.obj)) := by
  refine ⟨explainPolicies (table.findExplainPolicies tenantID entityName action.string
    (explainOptions none record)) rc record, ?_, ?_⟩
  · unfold explain scopedTenantOf
    rw [htenant]
    rfl
  · rw [allowed_explainPolicies, policiesOf_findExplainPolicies]

/-- The caller may take the action on the entity: within the scope, as an admin or by the
entity-level policies. -/
def EntityAllows (table : PolicyTable) (rc : RequestContext) (tenantID : Uuid)
    (entityName : String) (action : EntityAction) : Prop :=
  rc.scopePermits entityName action = true ∧
    (rc.isAdmin = true ∨ evaluatePolicies
      ((table.snapshot tenantID entityName).getContextPolicies action.string) rc none = .allow)

theorem allowed_canPerformEntityAction {snapshot : PermissionSnapshot} {action : EntityAction} :
    (snapshot.canPerformEntityAction rc entityName action).allowed = true ↔
      rc.scopePermits entityName action = true ∧
      (rc.isAdmin = true ∨
        evaluatePolicies (snapshot.getContextPolicies action.string) rc none = .allow) := by
  unfold PermissionSnapshot.canPerformEntityAction
  cases rc.scopePermits entityName action with
  | false => simp [PermissionDecision.forbidden]
  | true =>
    cases rc.isAdmin with
    | true => simp [PermissionDecision.allow]
    | false => simp [PermissionSnapshot.verdictDecision_allowed]

theorem enforce_eq_ok (table : PolicyTable) (entityName : String)
    (htenant : Query.scopedTenant parseUuid rc = .ok tenantID)
    (action : EntityAction) (record : Option JsonObject) :
    ∃ d, enforce parseUuid table rc entityName action record = .ok d ∧
      (d = true ↔ EntityAllows table rc tenantID entityName action ∧
        (record.isSome = true → rc.isAdmin = true ∨
          ExplainAllows (explained table tenantID entityName action record) rc
            (record.map JsonTree.obj))) := by
  have hrows : table.store.findContextPolicies tenantID entityName action.string =
      some ((table.snapshot tenantID entityName).getContextPolicies action.string) :=
    congrArg some (table.getContextPolicies_snapshot tenantID entityName action.string).symm
  have hcheck : PermissionService.checkAction { parseUuid, store := table.store } rc entityName
      action = .ok ((table.snapshot tenantID entityName).canPerformEntityAction rc entityName
        action) :=
    checkAction_eq_canPerformEntityAction htenant hrows (.refl _)
  unfold enforce scopedTenantOf
  rw [htenant]
  show ∃ d, (PermissionService.checkAction _ rc entityName action >>= _) = _ ∧ _
  rw [hcheck]
  cases record with
  | none =>
    refine ⟨_, rfl, ?_⟩
    rw [allowed_canPerformEntityAction]
    simp [EntityAllows]
  | some record =>
    refine ⟨_, rfl, ?_⟩
    rw [Bool.and_eq_true, allowed_canPerformEntityAction,
      PermissionSnapshot.canPerformRecordCondition_allowed]
    simp [EntityAllows, ExplainAllows, explained]

/-- Explain's verdict is that of enforcement exactly when what it allows is also within the scope
and allowed on the entity, and when it allows whatever an admin within the scope asks. -/
theorem explain_agrees_iff (parseUuid : String → Option Uuid) (table : PolicyTable)
    (rc : RequestContext) (entityName : String) (action : EntityAction) (record : Option JsonObject)
    {tenantID : Uuid} (htenant : Query.scopedTenant parseUuid rc = .ok tenantID) :
    ∃ e d, explain parseUuid table rc entityName action.string none record = .ok e ∧
      enforce parseUuid table rc entityName action record = .ok d ∧
      let allows := ExplainAllows (explained table tenantID entityName action record) rc
        (record.map JsonTree.obj)
      (e.allowed = d ↔
        (allows → EntityAllows table rc tenantID entityName action) ∧
        (rc.scopePermits entityName action = true → rc.isAdmin = true → allows)) := by
  obtain ⟨e, he, hallowed⟩ := explain_eq_ok table entityName htenant action record
  obtain ⟨d, hd, henforced⟩ := enforce_eq_ok table entityName htenant action record
  refine ⟨e, d, he, hd, ?_⟩
  intro allows
  rw [Bool.eq_iff_iff, hallowed, henforced]
  constructor
  · intro h
    refine ⟨fun ha => (h.mp ha).1, fun hscope hadmin => h.mpr ⟨⟨hscope, .inl hadmin⟩, ?_⟩⟩
    exact fun _ => .inl hadmin
  · rintro ⟨hwithin, hadmin⟩
    refine ⟨fun ha => ⟨hwithin ha, fun _ => .inr ha⟩, fun ⟨⟨hscope, hpolicies⟩, hrecord⟩ => ?_⟩
    cases record with
    | none =>
      -- without a record the policies explained are the entity-level ones
      exact hpolicies.elim (hadmin hscope) .inr
    | some record => exact (hrecord rfl).elim (hadmin hscope) id

end

/-! ## A table with one policy, and one with none -/

def memberContext : RequestContext := { tenantID := "t", userID := "u" }

/-- A tenant's text that every caller here sends. -/
def parseTenant (text : String) : Option Uuid := if text = "t" then some 1 else none

/-- Everyone may read orders. -/
def readersTable : PolicyTable where
  rows := [{ id := 1, tenantID := 1, entity := "shop.orders", action := "read"
             subject := "context" }]
  nodup := by simp

theorem explain_agrees_iff_readers :
    Query.scopedTenant parseTenant memberContext = .ok 1 ∧
    ∃ e d, explain parseTenant readersTable memberContext "shop.orders" "read" none none = .ok e ∧
      enforce parseTenant readersTable memberContext "shop.orders" .read none = .ok d ∧
      e.allowed = d := by
  have htenant : Query.scopedTenant parseTenant memberContext = .ok 1 := rfl
  obtain ⟨e, d, he, hd, hagree⟩ := explain_agrees_iff parseTenant readersTable memberContext
    "shop.orders" .read none htenant
  refine ⟨htenant, e, d, he, hd, hagree.mpr ⟨fun _ => ⟨rfl, .inr rfl⟩, fun _ hadmin => ?_⟩⟩
  cases hadmin

/-- With no policy at all, explain allows on a record what enforcement denies by default. -/
theorem explain_allows_unpoliced :
    explain parseTenant KeyedTable.empty memberContext "shop.orders" "read" none (some []) =
      .ok { allowed := true } ∧
    enforce parseTenant KeyedTable.empty memberContext "shop.orders" .read (some []) =
      .ok false :=
  ⟨rfl, rfl⟩

end Metap
