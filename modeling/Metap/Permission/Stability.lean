import Metap.Permission.Snapshot

/-!
# Decisions that do not depend on the record

Some requests ask about states a record no longer has, so no decision about them may rest on the
state it has now.  `matchStabilityOf` sorts a policy by what is known of it before any record is
seen: it matches every record, none, or it depends.  `verdictIsRecordDependent` combines the
policies, deny over allow, without evaluating a record condition.

The analysis is sound (`evaluatePolicies_eq_of_stable`): where it reports no dependence, the
policies give one verdict for all records.
-/

namespace Metap

/-- What is known of a policy's match before a record is seen. -/
inductive MatchStability where
  | always | never | recordDependent
  deriving DecidableEq, Repr

def matchStabilityOf (policy : PolicyRow) (ctx : RequestContext) : MatchStability :=
  if !roleGatePassed policy.roles policy.hasRoles ctx.roleList then .never
  else
    match policy.condition with
    | none => .always
    | some condition =>
      if policy.subject = "record" then .recordDependent
      else if (evaluateCondition ctx.toValue ctx condition).isPassed then .always
      else .never

/-- The four flags of the loop over the policies. -/
structure Steering where
  alwaysAllow : Bool := false
  alwaysDeny : Bool := false
  steerableAllow : Bool := false
  steerableDeny : Bool := false

def Steering.note (ctx : RequestContext) (s : Steering) (policy : PolicyRow) : Steering :=
  match matchStabilityOf policy ctx, policy.effect with
  | .never, _ => s
  | .always, .deny => { s with alwaysDeny := true }
  | .always, .allow => { s with alwaysAllow := true }
  | .recordDependent, .deny => { s with steerableDeny := true }
  | .recordDependent, .allow => { s with steerableAllow := true }

def steering (policies : List PolicyRow) (ctx : RequestContext) : Steering :=
  policies.foldl (Steering.note ctx) {}

def verdictIsRecordDependent (policies : List PolicyRow) (ctx : RequestContext) : Bool :=
  let s := steering policies ctx
  if s.alwaysDeny then false
  else if s.steerableDeny then true
  else !s.alwaysAllow && s.steerableAllow

namespace PermissionSnapshot

def recordAccessIsStateDependent (s : PermissionSnapshot) (ctx : RequestContext)
    (action : EntityAction) : Bool :=
  if ctx.isAdmin then false else verdictIsRecordDependent (s.getRecordPolicies action) ctx

/-- The fields whose readability depends on the record. -/
def recordStateDependentReadFields (s : PermissionSnapshot) (ctx : RequestContext) :
    List String :=
  if ctx.isAdmin then []
  else
    ((s.fieldPolicies.filter fun p => p.action = "read" && p.field ≠ "").map
        PolicyRow.field).dedup.filter
      fun field => verdictIsRecordDependent (s.policiesOnField "read" field) ctx

end PermissionSnapshot

/-! ## Soundness -/

section

variable {policy : PolicyRow} {policies : List PolicyRow} {ctx : RequestContext}

/-- Only a policy that depends on the record can match one record and not another. -/
theorem evaluatePolicyRow_of_stable (h : matchStabilityOf policy ctx ≠ .recordDependent)
    (subject : Option Json) :
    evaluatePolicyRow policy ctx subject = decide (matchStabilityOf policy ctx = .always) := by
  unfold matchStabilityOf evaluatePolicyRow at *
  split at h
  · next hrole => simp [hrole]
  next hrole =>
  cases hcondition : policy.condition with
  | none => simp [hrole]
  | some condition =>
    rw [hcondition] at h
    split_ifs at h with hrecord
    all_goals simp_all

/-- A policy of the given stability and effect is among the policies. -/
def HasPolicy (policies : List PolicyRow) (ctx : RequestContext) (stability : MatchStability)
    (effect : PolicyEffect) : Prop :=
  ∃ p ∈ policies, matchStabilityOf p ctx = stability ∧ p.effect = effect

/-- A flag is up at the end of the loop when it was before, or some policy raises it. -/
theorem foldl_note (policies : List PolicyRow) (ctx : RequestContext) (s : Steering) :
    let r := policies.foldl (Steering.note ctx) s
    (r.alwaysAllow = true ↔ s.alwaysAllow = true ∨ HasPolicy policies ctx .always .allow) ∧
    (r.alwaysDeny = true ↔ s.alwaysDeny = true ∨ HasPolicy policies ctx .always .deny) ∧
    (r.steerableAllow = true ↔
      s.steerableAllow = true ∨ HasPolicy policies ctx .recordDependent .allow) ∧
    (r.steerableDeny = true ↔
      s.steerableDeny = true ∨ HasPolicy policies ctx .recordDependent .deny) := by
  induction policies generalizing s with
  | nil => simp [HasPolicy]
  | cons p ps ih =>
    have hrest := ih (s.note ctx p)
    simp only [HasPolicy, List.exists_mem_cons_iff] at hrest ⊢
    cases hstab : matchStabilityOf p ctx <;> cases heff : p.effect <;>
      simpa [Steering.note, hstab, heff] using hrest

theorem verdictIsRecordDependent_eq_false : verdictIsRecordDependent policies ctx = false ↔
      HasPolicy policies ctx .always .deny ∨
      ¬HasPolicy policies ctx .recordDependent .deny ∧
        (HasPolicy policies ctx .always .allow ∨
          ¬HasPolicy policies ctx .recordDependent .allow) := by
  obtain ⟨hallow, hdeny, hsallow, hsdeny⟩ := foldl_note policies ctx {}
  simp only [Bool.false_eq_true, false_or] at hallow hdeny hsallow hsdeny
  rw [← hallow, ← hdeny, ← hsallow, ← hsdeny]
  unfold verdictIsRecordDependent steering
  generalize policies.foldl (Steering.note ctx) {} = s
  obtain ⟨a, b, c, d⟩ := s
  revert a b c d
  decide

variable (subject : Option Json)

theorem evaluatePoliciesLoop_eq_deny (anyAllow : Bool) :
    evaluatePoliciesLoop ctx subject anyAllow policies = .deny ↔
      ∃ p ∈ policies, p.effect = .deny ∧ evaluatePolicyRow p ctx subject = true := by
  induction policies generalizing anyAllow with
  | nil => cases anyAllow <;> simp [evaluatePoliciesLoop]
  | cons p ps ih =>
    cases hm : evaluatePolicyRow p ctx subject <;> cases he : p.effect <;>
      simp [evaluatePoliciesLoop, hm, he, ih]

theorem evaluatePolicies_eq_deny : evaluatePolicies policies ctx subject = .deny ↔
      ∃ p ∈ policies, p.effect = .deny ∧ evaluatePolicyRow p ctx subject = true :=
  evaluatePoliciesLoop_eq_deny subject false

/-- Without a record-dependent policy of an effect, which policies of that effect match does not
depend on the record. -/
theorem exists_matching_iff {effect : PolicyEffect}
    (h : ¬HasPolicy policies ctx .recordDependent effect) (subject subject' : Option Json) :
    (∃ p ∈ policies, p.effect = effect ∧ evaluatePolicyRow p ctx subject = true) ↔
      ∃ p ∈ policies, p.effect = effect ∧ evaluatePolicyRow p ctx subject' = true := by
  refine exists_congr fun p => and_congr_right fun hp => and_congr_right fun heff => ?_
  have hstable : matchStabilityOf p ctx ≠ .recordDependent := fun hdep => h ⟨p, hp, hdep, heff⟩
  rw [evaluatePolicyRow_of_stable hstable subject, evaluatePolicyRow_of_stable hstable subject']

theorem exists_matching_of_always {effect : PolicyEffect}
    (h : HasPolicy policies ctx .always effect) (subject : Option Json) :
    ∃ p ∈ policies, p.effect = effect ∧ evaluatePolicyRow p ctx subject = true := by
  obtain ⟨p, hp, hstab, heff⟩ := h
  refine ⟨p, hp, heff, ?_⟩
  rw [evaluatePolicyRow_of_stable (by simp [hstab]), hstab]
  rfl

theorem evaluatePolicies_eq_allow_iff : evaluatePolicies policies ctx subject = .allow ↔
      evaluatePolicies policies ctx subject ≠ .deny ∧
      ∃ p ∈ policies, p.effect = .allow ∧ evaluatePolicyRow p ctx subject = true := by
  rw [evaluatePolicies_eq_allow, Ne, evaluatePolicies_eq_deny]
  refine and_congr_left fun _ => ?_
  push Not
  exact forall₂_congr fun p _ => imp_congr_right fun _ => Bool.eq_false_iff

/-- Where the analysis reports no dependence, the policies give one verdict for all records. -/
theorem evaluatePolicies_eq_of_stable (h : verdictIsRecordDependent policies ctx = false)
    (subject subject' : Option Json) :
    evaluatePolicies policies ctx subject = evaluatePolicies policies ctx subject' := by
  have hdeny : evaluatePolicies policies ctx subject = .deny ↔
      evaluatePolicies policies ctx subject' = .deny := by
    rw [evaluatePolicies_eq_deny, evaluatePolicies_eq_deny]
    rcases verdictIsRecordDependent_eq_false.mp h with halways | ⟨hnone, -⟩
    · exact iff_of_true (exists_matching_of_always halways _) (exists_matching_of_always halways _)
    · exact exists_matching_iff hnone subject subject'
  have hallow : evaluatePolicies policies ctx subject = .allow ↔
      evaluatePolicies policies ctx subject' = .allow := by
    rw [evaluatePolicies_eq_allow_iff, evaluatePolicies_eq_allow_iff, Ne, Ne, hdeny]
    refine and_congr_right fun hnot => ?_
    rcases verdictIsRecordDependent_eq_false.mp h with halways | ⟨-, halways | hnone⟩
    · exact absurd ((evaluatePolicies_eq_deny _).mpr (exists_matching_of_always halways _)) hnot
    · exact iff_of_true (exists_matching_of_always halways _) (exists_matching_of_always halways _)
    · exact exists_matching_iff hnone subject subject'
  cases hv : evaluatePolicies policies ctx subject <;>
    cases hv' : evaluatePolicies policies ctx subject' <;> simp_all

end

namespace PermissionSnapshot

variable (s : PermissionSnapshot) (ctx : RequestContext)

theorem policiesOnField_ne_nil {action field : String} (h : s.policiesOnField action field ≠ []) :
    ∃ p ∈ s.fieldPolicies, p.action = action ∧ p.field = field ∧ field ≠ "" := by
  obtain ⟨p, hp⟩ := List.exists_mem_of_ne_nil _ h
  obtain ⟨hmem, hmatch⟩ := List.mem_filter.mp hp
  simp only [Bool.and_eq_true, decide_eq_true_eq] at hmatch
  obtain ⟨⟨haction, hfield⟩, hne⟩ := hmatch
  exact ⟨p, hmem, haction, hfield, hfield ▸ hne⟩

/-- The fields reported are those whose read policies the analysis finds dependent. -/
theorem mem_recordStateDependentReadFields {field : String} :
    field ∈ s.recordStateDependentReadFields ctx ↔
      ctx.isAdmin = false ∧
        verdictIsRecordDependent (s.policiesOnField "read" field) ctx = true := by
  unfold recordStateDependentReadFields
  cases hadmin : ctx.isAdmin with
  | true => simp
  | false =>
    simp only [Bool.false_eq_true, if_false, List.mem_filter, true_and]
    refine and_iff_right_of_imp fun hdep => ?_
    have hne : s.policiesOnField "read" field ≠ [] := by
      intro hnil
      rw [hnil] at hdep
      cases hdep
    obtain ⟨p, hp, haction, hfield, hnonempty⟩ := s.policiesOnField_ne_nil hne
    rw [List.mem_dedup, List.mem_map]
    exact ⟨p, List.mem_filter.mpr ⟨hp, by simp [haction, hfield, hnonempty]⟩, hfield⟩

/-- A field that is not reported is readable in all records or in none. -/
theorem fieldReadable_eq_of_stable {field : String}
    (h : field ∉ s.recordStateDependentReadFields ctx) (record record' : JsonObject) :
    s.fieldReadable ctx record field = s.fieldReadable ctx record' field := by
  rw [mem_recordStateDependentReadFields] at h
  unfold fieldReadable
  cases hadmin : ctx.isAdmin with
  | true => rw [Bool.true_or, Bool.true_or, Bool.true_or]
  | false =>
    have hstable : verdictIsRecordDependent (s.policiesOnField "read" field) ctx = false := by
      simpa [hadmin] using h
    rw [evaluatePolicies_eq_of_stable hstable (some (.obj record)) (some (.obj record'))]

end PermissionSnapshot

end Metap
