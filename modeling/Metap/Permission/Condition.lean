import Metap.Permission.Context

/-!
# Policy conditions and their evaluation

A policy carries an optional condition: a tree of `all`/`any` nodes over attribute tests.
`evaluateCondition` interprets it on a JSON subject (a record's data or the request context);
`evaluatePolicies` combines a list of policies with deny overriding allow.

The tests compare documents.  Equality is equality of decoded values (numbers as binary64), the
orderings compare two binary64 or, failing that, two strings; a `null` decodes into either, as
zero and as the empty string.
-/

namespace Metap

/-- The comparison operators; any other text is carried along and never matches. -/
inductive ConditionOp where
  | eq | neq | in | notIn | gt | gte | lt | lte | contains | notContains
  | other (text : String)
  deriving DecidableEq, Repr

def opString : ConditionOp → String
  | .eq => "eq"
  | .neq => "neq"
  | .in => "in"
  | .notIn => "notIn"
  | .gt => "gt"
  | .gte => "gte"
  | .lt => "lt"
  | .lte => "lte"
  | .contains => "contains"
  | .notContains => "notContains"
  | .other text => text

/-- The right-hand side of a test; an absent literal is `none`. -/
inductive PolicyValue where
  | literal (v : Option Json)
  | fromContext (key : String)

inductive PolicyCondition where
  | attribute (attr : String) (op : ConditionOp) (value : PolicyValue)
  | all (conditions : List PolicyCondition)
  | any (conditions : List PolicyCondition)

inductive PolicyEffect where
  | allow | deny
  deriving DecidableEq, Repr

/-- A stored policy.  `field` is empty for a policy on the whole entity; the columns that no
decision reads (id, tenant, entity, creator) are left out. -/
structure PolicyRow where
  action : String
  field : String := ""
  subject : String
  roles : List String := []
  hasRoles : Bool := false
  condition : Option PolicyCondition := none
  effect : PolicyEffect := .allow

/-! ## Resolving attributes and values -/

def contextAttributePrefix : String := "$ctx."

def workflowAttributePrefix : String := "$workflow."

/-- Follow a dotted path into a document; anything missing on the way reads as `null`. -/
def resolveAttributePath (subject : Json) (attr : String) : Json :=
  (Strings.split attr '.').foldl
    (fun current segment =>
      match current.decodeObject with
      | some m => (JsonObject.get m segment).getD .null
      | none => .null)
    subject

def isContextAttribute (attr : String) : Bool := Strings.hasPrefix attr contextAttributePrefix

/-- A condition's attribute: from the request context under `$ctx.`, otherwise a path into the
subject. -/
def resolveAttribute (subject : Json) (attr : String) (ctx : RequestContext) : Json :=
  match Strings.cutPrefix attr contextAttributePrefix with
  | some rest => resolveAttributePath ctx.toValue rest
  | none => resolveAttributePath subject attr

namespace Permission

def resolveValue (value : PolicyValue) (ctx : RequestContext) : Json :=
  match value with
  | .fromContext key => ((ctx.toValue.decodeObject.getD []).get key).getD .null
  | .literal v => v.getD .null

end Permission

/-! ## Operators -/

/-- Equality of decoded values.  A document with a number that no binary64 holds is compared as
it stands. -/
def jsonEqual (a b : Json) : Bool :=
  match a.decodeAny, b.decodeAny with
  | some av, some bv => av = bv
  | _, _ => a = b

/-- The order of two documents: as numbers, else as strings, else none. -/
def compareOrdering (actual expected : Json) : Option Ordering :=
  match actual.decodeFloat64, expected.decodeFloat64 with
  | some an, some bn => some (compare an.value bn.value)
  | _, _ =>
    match actual.decodeString, expected.decodeString with
    | some a, some b => some (if b < a then .gt else if a < b then .lt else .eq)
    | _, _ => none

def arrayContains (arr : List Json) (v : Json) : Bool := arr.any fun item => jsonEqual item v

def matchOperator (op : ConditionOp) (actual expected : Json) : Bool :=
  match op with
  | .eq => jsonEqual actual expected
  | .neq => !jsonEqual actual expected
  | .in =>
    match expected.decodeArray with
    | some arr => arrayContains arr actual
    | none => false
  | .notIn =>
    match expected.decodeArray with
    | some arr => !arrayContains arr actual
    | none => false
  | .contains =>
    match actual.decodeArray with
    | some arr => arrayContains arr expected
    | none => false
  | .notContains =>
    match actual.decodeArray with
    | some arr => !arrayContains arr expected
    | none => false
  | .gt => compareOrdering actual expected = some .gt
  | .gte =>
    match compareOrdering actual expected with
    | some o => o ≠ .lt
    | none => false
  | .lt => compareOrdering actual expected = some .lt
  | .lte =>
    match compareOrdering actual expected with
    | some o => o ≠ .gt
    | none => false
  | .other _ => false

/-! ## Conditions -/

/-- The outcome of a condition; a failure says which test failed. -/
inductive ConditionResult where
  | passed
  | failed (reason : String)
  deriving DecidableEq, Repr

namespace ConditionResult

def isPassed : ConditionResult → Bool
  | passed => true
  | failed _ => false

@[simp]
theorem isPassed_passed : passed.isPassed = true := rfl

@[simp]
theorem isPassed_failed (reason : String) : (failed reason).isPassed = false := rfl

end ConditionResult

mutual

def evaluateCondition (subject : Json) (ctx : RequestContext) :
    PolicyCondition → ConditionResult
  | .all conditions => evaluateAll subject ctx conditions
  | .any conditions => evaluateAny subject ctx "no condition in 'any' matched" conditions
  | .attribute attr op value =>
    let actual := resolveAttribute subject attr ctx
    let expected := Permission.resolveValue value ctx
    if matchOperator op actual expected then .passed
    else .failed ("condition failed: " ++ attr ++ " " ++ opString op ++ " " ++
      expected.compact ++ " (got " ++ actual.compact ++ ")")

/-- The loop of an `all` node: the first failure is the result. -/
def evaluateAll (subject : Json) (ctx : RequestContext) :
    List PolicyCondition → ConditionResult
  | [] => .passed
  | c :: cs =>
    match evaluateCondition subject ctx c with
    | .passed => evaluateAll subject ctx cs
    | .failed reason => .failed reason

/-- The loop of an `any` node: the first success, else the last failure. -/
def evaluateAny (subject : Json) (ctx : RequestContext) (lastFailure : String) :
    List PolicyCondition → ConditionResult
  | [] => .failed lastFailure
  | c :: cs =>
    match evaluateCondition subject ctx c with
    | .passed => .passed
    | .failed reason => evaluateAny subject ctx reason cs

end

section

variable (subject : Json) (ctx : RequestContext) (c : PolicyCondition) (cs : List PolicyCondition)

theorem isPassed_evaluateAll_cons : (evaluateAll subject ctx (c :: cs)).isPassed =
      ((evaluateCondition subject ctx c).isPassed && (evaluateAll subject ctx cs).isPassed) := by
  cases h : evaluateCondition subject ctx c <;> simp [evaluateAll, h]

theorem isPassed_evaluateAny_cons (last : String) : ∃ last',
    (evaluateAny subject ctx last (c :: cs)).isPassed =
      ((evaluateCondition subject ctx c).isPassed ||
        (evaluateAny subject ctx last' cs).isPassed) := by
  cases h : evaluateCondition subject ctx c with
  | passed => exact ⟨last, by simp [evaluateAny, h]⟩
  | failed reason => exact ⟨reason, by simp [evaluateAny, h]⟩

end

theorem isPassed_attribute (subject : Json) (ctx : RequestContext) (attr : String)
    (op : ConditionOp) (value : PolicyValue) :
    (evaluateCondition subject ctx (.attribute attr op value)).isPassed =
      matchOperator op (resolveAttribute subject attr ctx) (Permission.resolveValue value ctx) := by
  rw [evaluateCondition]
  split <;> simp_all

/-! ## Tests -/

/-- A leaf of a condition. -/
structure Test where
  attr : String
  op : ConditionOp
  value : PolicyValue

def Test.condition (t : Test) : PolicyCondition := .attribute t.attr t.op t.value

/-- Whether the test finds what it asks for. -/
def Test.passes (t : Test) (ctx : RequestContext) (subject : Json) : Bool :=
  matchOperator t.op (resolveAttribute subject t.attr ctx) (Permission.resolveValue t.value ctx)

mutual

def tests : PolicyCondition → List Test
  | .attribute attr op value => [⟨attr, op, value⟩]
  | .all cs => testsOfList cs
  | .any cs => testsOfList cs

def testsOfList : List PolicyCondition → List Test
  | [] => []
  | c :: cs => tests c ++ testsOfList cs

end

section

variable {subject subject' : Json} {ctx : RequestContext}

mutual

/-- A condition is decided as its tests are. -/
theorem isPassed_congr : (c : PolicyCondition) →
    (∀ t ∈ tests c, t.passes ctx subject = t.passes ctx subject') →
    (evaluateCondition subject ctx c).isPassed = (evaluateCondition subject' ctx c).isPassed
  | .attribute attr op value, h => by
    rw [isPassed_attribute, isPassed_attribute]
    exact h ⟨attr, op, value⟩ (by simp [tests])
  | .all cs, h => by
    simp only [evaluateCondition]
    exact isPassed_all_congr cs (by simpa [tests] using h)
  | .any cs, h => by
    simp only [evaluateCondition]
    exact isPassed_any_congr cs _ _ (by simpa [tests] using h)

theorem isPassed_all_congr : (cs : List PolicyCondition) →
    (∀ t ∈ testsOfList cs, t.passes ctx subject = t.passes ctx subject') →
    (evaluateAll subject ctx cs).isPassed = (evaluateAll subject' ctx cs).isPassed
  | [], _ => rfl
  | c :: cs, h => by
    rw [testsOfList, List.forall_mem_append] at h
    rw [isPassed_evaluateAll_cons, isPassed_evaluateAll_cons, isPassed_congr c h.1,
      isPassed_all_congr cs h.2]

theorem isPassed_any_congr : (cs : List PolicyCondition) → (last last' : String) →
    (∀ t ∈ testsOfList cs, t.passes ctx subject = t.passes ctx subject') →
    (evaluateAny subject ctx last cs).isPassed = (evaluateAny subject' ctx last' cs).isPassed
  | [], _, _, _ => rfl
  | c :: cs, last, last', h => by
    rw [testsOfList, List.forall_mem_append] at h
    obtain ⟨next, hnext⟩ := isPassed_evaluateAny_cons subject ctx c cs last
    obtain ⟨next', hnext'⟩ := isPassed_evaluateAny_cons subject' ctx c cs last'
    rw [hnext, hnext', isPassed_congr c h.1, isPassed_any_congr cs next next' h.2]

end

end

/-! ## Policies -/

/-- No policy roles at all leaves the gate open to everyone. -/
def roleGatePassed (policyRoles : List String) (hasPolicyRoles : Bool)
    (callerRoles : List String) : Bool :=
  if !hasPolicyRoles || policyRoles.isEmpty then true
  else callerRoles.any fun cr => policyRoles.any fun pr => cr = pr

/-- Whether a policy matches; a record policy evaluated without a record reads the context. -/
def evaluatePolicyRow (policy : PolicyRow) (ctx : RequestContext)
    (recordSubject : Option Json) : Bool :=
  if !roleGatePassed policy.roles policy.hasRoles ctx.roleList then false
  else
    match policy.condition with
    | none => true
    | some condition =>
      let subject :=
        if policy.subject = "record" then recordSubject.getD ctx.toValue else ctx.toValue
      (evaluateCondition subject ctx condition).isPassed

inductive PolicyVerdict where
  | allow | deny | noMatch
  deriving DecidableEq, Repr

/-- The loop over the policies: the first matching deny ends it. -/
def evaluatePoliciesLoop (ctx : RequestContext) (recordSubject : Option Json)
    (anyAllow : Bool) : List PolicyRow → PolicyVerdict
  | [] => if anyAllow then .allow else .noMatch
  | policy :: policies =>
    if evaluatePolicyRow policy ctx recordSubject then
      match policy.effect with
      | .deny => .deny
      | .allow => evaluatePoliciesLoop ctx recordSubject true policies
    else evaluatePoliciesLoop ctx recordSubject anyAllow policies

def evaluatePolicies (policies : List PolicyRow) (ctx : RequestContext)
    (recordSubject : Option Json) : PolicyVerdict :=
  evaluatePoliciesLoop ctx recordSubject false policies

/-- The record policies among some whose tests count for the caller, and their tests. -/
def recordTests (policies : List PolicyRow) (ctx : RequestContext) : List Test :=
  (policies.filter fun p => p.subject = "record" &&
    roleGatePassed p.roles p.hasRoles ctx.roleList).flatMap fun p => (p.condition.map tests).getD []

theorem mem_recordTests {policies : List PolicyRow} {ctx : RequestContext} {t : Test} :
    t ∈ recordTests policies ctx ↔ ∃ p ∈ policies, p.subject = "record" ∧
      roleGatePassed p.roles p.hasRoles ctx.roleList = true ∧ ∃ c ∈ p.condition, t ∈ tests c := by
  simp only [recordTests, List.mem_flatMap, List.mem_filter, Bool.and_eq_true, decide_eq_true_eq,
    and_assoc]
  refine exists_congr fun p => and_congr_right fun _ => and_congr_right fun _ =>
    and_congr_right fun _ => ?_
  cases p.condition <;> simp

/-- Policies give two records one verdict if the tests that count pass on both or on neither. -/
theorem evaluatePolicies_congr {policies : List PolicyRow} {ctx : RequestContext}
    {subject subject' : Json}
    (h : ∀ t ∈ recordTests policies ctx, t.passes ctx subject = t.passes ctx subject') :
    evaluatePolicies policies ctx (some subject) =
      evaluatePolicies policies ctx (some subject') := by
  have hrow : ∀ p ∈ policies,
      evaluatePolicyRow p ctx (some subject) = evaluatePolicyRow p ctx (some subject') := by
    intro p hp
    unfold evaluatePolicyRow
    split
    · rfl
    · next hgate =>
      cases hc : p.condition with
      | none => rfl
      | some c =>
        simp only [Option.getD_some]
        split
        · next hsubject =>
          exact isPassed_congr c fun t ht => h t (mem_recordTests.mpr
            ⟨p, hp, hsubject, by simpa using hgate, c, hc, ht⟩)
        · rfl
  have hloop : ∀ anyAllow, evaluatePoliciesLoop ctx (some subject) anyAllow policies =
      evaluatePoliciesLoop ctx (some subject') anyAllow policies := by
    clear h
    induction policies with
    | nil => exact fun _ => rfl
    | cons p ps ih =>
      intro anyAllow
      obtain ⟨hp, hps⟩ := List.forall_mem_cons.mp hrow
      simp only [evaluatePoliciesLoop, hp, ih hps]
  exact hloop false

theorem evaluatePoliciesLoop_eq_allow (ctx : RequestContext) (recordSubject : Option Json)
    (anyAllow : Bool) (policies : List PolicyRow) :
    evaluatePoliciesLoop ctx recordSubject anyAllow policies = .allow ↔
      (∀ p ∈ policies, p.effect = .deny → evaluatePolicyRow p ctx recordSubject = false) ∧
      (anyAllow = true ∨
        ∃ p ∈ policies, p.effect = .allow ∧ evaluatePolicyRow p ctx recordSubject = true) := by
  induction policies generalizing anyAllow with
  | nil => cases anyAllow <;> simp [evaluatePoliciesLoop]
  | cons p ps ih =>
    cases hm : evaluatePolicyRow p ctx recordSubject <;> cases he : p.effect <;>
      simp [evaluatePoliciesLoop, hm, he, ih]

/-- The verdict is *allow* exactly when no deny policy matches and some allow policy does. -/
theorem evaluatePolicies_eq_allow (policies : List PolicyRow) (ctx : RequestContext)
    (recordSubject : Option Json) : evaluatePolicies policies ctx recordSubject = .allow ↔
      (∀ p ∈ policies, p.effect = .deny → evaluatePolicyRow p ctx recordSubject = false) ∧
      ∃ p ∈ policies, p.effect = .allow ∧ evaluatePolicyRow p ctx recordSubject = true := by
  simp [evaluatePolicies, evaluatePoliciesLoop_eq_allow]

end Metap
