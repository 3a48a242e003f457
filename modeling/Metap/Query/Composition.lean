import Metap.Crud.Record
import Metap.Query.PolicyMeaning

/-!
# The clause decides as its tests do

A record policy is decided twice by two programs: `recordPolicyWhereClause` filters the rows of a
list query in the database, `canPerformRecordCondition` evaluates a fetched record.  On a test they
can disagree, since the database compares texts and the evaluator decoded JSON.  This file assumes
that they do not and compares everything above the tests: the `all` and `any`
nodes with their empty cases, the role gates, the disjunction of the allow policies, the negated
disjunction of the deny policies, and the cases in which there is no clause.

`FragmentDecides` is the assumption on one test: the text it is translated to is TRUE or FALSE on
the row, as the evaluator answers on the record.  From it a condition, a policy and a list of
policies are decided in the same way, in this order, and the main result
`recordPolicyWhereClause_holds_iff` is about the text of the whole clause.  A test of the request
context is folded to a constant; it needs no assumption (`fragmentDecides_context`).
-/

namespace Metap.Query

open Sql Builder

section

variable (parseUuid : String → Option Uuid) (pg : Backend) (ctx : RequestContext)
  (row : String → Option Value) (record : JsonObject)

/-- The text of a test, wherever it is written, is TRUE or FALSE on the row as the evaluator answers
on the record. -/
def FragmentDecides (t : Test) : Prop :=
  ∀ ps s ps' fin, conditionToSQL parseUuid ctx t.condition ps = .ok (s, ps') → ps' <+: fin →
    ∃ e, parse s = some e ∧ truth pg (envOf row fin) e =
      .ofBool (evaluateCondition (.obj record) ctx t.condition).isPassed

/-- The row satisfies a clause, and any row satisfies no clause. -/
def HoldsOn (fin : List BindValue) : Option String → Prop
  | none => True
  | some s => ∃ e, parse s = some e ∧ truth pg (envOf row fin) e = .tt

/-- The database decides a condition on the row as the evaluator does on the record. -/
def Decides (c : PolicyCondition) : Prop :=
  sqlTruth parseUuid pg ctx row c = .ofBool (evaluateCondition (.obj record) ctx c).isPassed

end

section

variable {parseUuid : String → Option Uuid} {pg : Backend} {ctx : RequestContext}
  {row : String → Option Value} {record : JsonObject}

/-! ## Conditions -/

variable {t : Test} {p : PolicyRow}

/-- A test of the request context does not look at the subject. -/
theorem resolveAttribute_context {attr : String} (hctx : isContextAttribute attr = true)
    (subject subject' : Json) :
    resolveAttribute subject attr ctx = resolveAttribute subject' attr ctx := by
  have hcut : Strings.cutPrefix attr contextAttributePrefix ≠ none := by
    rw [ne_eq, Strings.cutPrefix_eq_none]
    simpa [isContextAttribute] using hctx
  obtain ⟨rest, hrest⟩ := Option.ne_none_iff_exists'.mp hcut
  simp [resolveAttribute, hrest]

/-- A test of the request context is folded to the evaluator's answer. -/
theorem fragmentDecides_context (h : isContextAttribute t.attr = true) :
    Decides parseUuid pg ctx row record t.condition := by
  obtain ⟨attr, op, value⟩ := t
  have hsame := isPassed_attribute (.obj record) ctx attr op value
  rw [resolveAttribute_context h _ .null, ← isPassed_attribute] at hsame
  simp only [Decides, Test.condition, sqlTruth, leafTruth, h, if_true, hsame]

/-- A translated test is decided as its text is. -/
theorem decides_of_fragment {ps ps' : List BindValue} {s : String}
    (hrun : conditionToSQL parseUuid ctx t.condition ps = .ok (s, ps'))
    (h : FragmentDecides parseUuid pg ctx row record t) :
    Decides parseUuid pg ctx row record t.condition := by
  obtain ⟨e, hread, htruth, -⟩ := (builds_conditionToSQL pg ctx t.condition).run hrun
  obtain ⟨e', hparse, hdecides⟩ := h ps s ps' ps' hrun List.prefix_rfl
  obtain rfl : e = e' := by
    simpa using (hread.loosen .or (by decide)).parse_eq.symm.trans hparse
  exact (htruth row).symm.trans hdecides

theorem fragmentDecides_of_decides (h : Decides parseUuid pg ctx row record t.condition) :
    FragmentDecides parseUuid pg ctx row record t := by
  intro ps s ps' fin hrun hfin
  obtain ⟨e, hread, htruth, -⟩ :=
    (builds_conditionToSQL pg ctx t.condition ps s ps' hrun).2 fin hfin
  exact ⟨e, (hread.loosen .or (by decide)).parse_eq, (htruth row).trans h⟩

mutual

/-- A condition is decided alike when its tests are. -/
theorem decides_of_tests : (c : PolicyCondition) →
    (∀ t ∈ tests c, Decides parseUuid pg ctx row record t.condition) →
    Decides parseUuid pg ctx row record c
  | .attribute attr op value => fun h => h ⟨attr, op, value⟩ (by simp [tests])
  | .all cs => fun h => by
    rw [Decides, sqlTruth, evaluateCondition]
    exact decides_all cs (by simpa [tests] using h)
  | .any cs => fun h => by
    rw [Decides, sqlTruth, evaluateCondition]
    exact decides_any cs _ (by simpa [tests] using h)

theorem decides_all : (cs : List PolicyCondition) →
    (∀ t ∈ testsOfList cs, Decides parseUuid pg ctx row record t.condition) →
    sqlTruthAll parseUuid pg ctx row cs = .ofBool (evaluateAll (.obj record) ctx cs).isPassed
  | [] => fun _ => rfl
  | c :: cs => fun h => by
    rw [testsOfList, List.forall_mem_append] at h
    have hc : sqlTruth parseUuid pg ctx row c = _ := decides_of_tests c h.1
    rw [sqlTruthAll, isPassed_evaluateAll_cons, hc, decides_all cs h.2, Truth.ofBool_and]

theorem decides_any : (cs : List PolicyCondition) → (last : String) →
    (∀ t ∈ testsOfList cs, Decides parseUuid pg ctx row record t.condition) →
    sqlTruthAny parseUuid pg ctx row cs =
      .ofBool (evaluateAny (.obj record) ctx last cs).isPassed
  | [] => fun _ _ => rfl
  | c :: cs => fun last h => by
    rw [testsOfList, List.forall_mem_append] at h
    have hc : sqlTruth parseUuid pg ctx row c = _ := decides_of_tests c h.1
    obtain ⟨last', hpassed⟩ := isPassed_evaluateAny_cons (.obj record) ctx c cs last
    rw [sqlTruthAny, hpassed, hc, decides_any cs last' h.2, Truth.ofBool_or]

end

mutual

/-- Every test of a translated condition is translated. -/
theorem exists_run_of_mem_tests : (c : PolicyCondition) → ∀ {ps ps' : List BindValue} {s : String},
      conditionToSQL parseUuid ctx c ps = .ok (s, ps') →
      ∀ t ∈ tests c, ∃ qs s' qs', conditionToSQL parseUuid ctx t.condition qs = .ok (s', qs')
  | .attribute attr op value, ps, ps', s, h, t, ht => by
    obtain rfl : t = ⟨attr, op, value⟩ := by simpa [tests] using ht
    exact ⟨ps, s, ps', h⟩
  | .all [], _, _, _, _, t, ht | .any [], _, _, _, _, t, ht => by simp [tests, testsOfList] at ht
  | .all (c :: cs), ps, ps', s, h, t, ht | .any (c :: cs), ps, ps', s, h, t, ht => by
    rw [conditionToSQL] at h
    obtain ⟨ss, ps₁, hss, _⟩ := bind_eq_ok h
    exact exists_run_of_mem_testsOfList (c :: cs) hss t (by simpa [tests] using ht)

theorem exists_run_of_mem_testsOfList :
    (cs : List PolicyCondition) → ∀ {ps ps' : List BindValue} {ss : List String},
      conditionsToSQL parseUuid ctx cs ps = .ok (ss, ps') →
      ∀ t ∈ testsOfList cs,
        ∃ qs s' qs', conditionToSQL parseUuid ctx t.condition qs = .ok (s', qs')
  | [], _, _, _, _, t, ht => by simp [testsOfList] at ht
  | c :: cs, ps, ps', ss, h, t, ht => by
    rw [conditionsToSQL] at h
    obtain ⟨s, ps₁, hs, hrest⟩ := bind_eq_ok h
    obtain ⟨ss', ps₂, hss, _⟩ := bind_eq_ok hrest
    rw [testsOfList, List.mem_append] at ht
    rcases ht with ht | ht
    · exact exists_run_of_mem_tests c hs t ht
    · exact exists_run_of_mem_testsOfList cs hss t ht

end

/-! ## Policies -/

/-- The policies a list query and a single read are decided by. -/
def readPolicies (policies : List PolicyRow) : List PolicyRow :=
  (PermissionSnapshot.fromRows policies).getRecordPolicies .read

theorem subject_of_mem_readPolicies (h : p ∈ readPolicies policies) : p.subject = "record" := by
  simp only [readPolicies, PermissionSnapshot.fromRows, PermissionSnapshot.getRecordPolicies,
    List.mem_filter, Bool.and_eq_true, decide_eq_true_eq] at h
  exact h.1.2.2

variable {rows : List PolicyRow} {effect : PolicyEffect} {policies : List PolicyRow}
  {ps ps' : List BindValue} {clause : String}

theorem anyPolicyTruth_eq_tt {row : String → Option Value} :
    anyPolicyTruth parseUuid pg ctx row policies = .tt ↔
      ∃ p ∈ policies, policyTruth parseUuid pg ctx row p = .tt :=
  Truth.foldr_or_eq_tt

theorem anyPolicyTruth_eq_ff {row : String → Option Value} :
    anyPolicyTruth parseUuid pg ctx row policies = .ff ↔
      ∀ p ∈ policies, policyTruth parseUuid pg ctx row p = .ff :=
  Truth.foldr_or_eq_ff

theorem mem_matchingRows : p ∈ matchingRows rows ctx effect ↔
      p ∈ rows ∧ roleGatePassed p.roles p.hasRoles ctx.roleList = true ∧ p.effect = effect := by
  simp [matchingRows, and_comm, and_left_comm]

/-- Unless no allow policy is left, every policy the role gate lets through is translated. -/
theorem exists_run_policyClause
    (h : recordPolicyWhereClause parseUuid rows ctx ps = .ok (some clause, ps'))
    (hallow : matchingRows rows ctx .allow ≠ []) (effect : PolicyEffect) :
    ∀ p ∈ matchingRows rows ctx effect,
      ∃ qs s qs', policyClause parseUuid ctx p qs = .ok (s, qs') := by
  unfold recordPolicyWhereClause at h
  split at h
  · simp [pure, StateT.pure, Except.pure] at h
  dsimp only at h
  rw [if_neg (by simpa using hallow)] at h
  obtain ⟨allows, ps₁, hallows, hrest⟩ := bind_eq_ok h
  cases effect with
  | allow => exact exists_run_of_mapM hallows
  | deny =>
    split at hrest
    · next hdeny =>
      intro p hp
      simp [List.isEmpty_iff.mp hdeny] at hp
    · obtain ⟨denies, ps₂, hdenies, _⟩ := bind_eq_ok hrest
      exact exists_run_of_mapM hdenies

/-- The policies a role gate lets through, when they are decided alike. -/
theorem policyTruth_eq_ofBool (hgate : roleGatePassed p.roles p.hasRoles ctx.roleList = true)
    (hsubject : p.subject = "record") (h : ∀ c ∈ p.condition, Decides parseUuid pg ctx row record c)
    :
    policyTruth parseUuid pg ctx row p =
      .ofBool (evaluatePolicyRow p ctx (some (.obj record))) := by
  cases hc : p.condition with
  | none => simp [policyTruth, evaluatePolicyRow, hgate, hc, Truth.ofBool]
  | some c =>
    have hdecides : sqlTruth parseUuid pg ctx row c = _ := h c (by simp [hc])
    simp [policyTruth, evaluatePolicyRow, hgate, hc, hsubject, hdecides]

theorem roleGatePassed_of_evaluatePolicyRow {subject : Option Json}
    (h : evaluatePolicyRow p ctx subject = true) :
    roleGatePassed p.roles p.hasRoles ctx.roleList = true := by
  by_contra hclosed
  simp [evaluatePolicyRow, hclosed] at h

/-- Deny overrides allow in the database as in the evaluator. -/
theorem recordPolicyTruth_eq_tt_iff {rows : List PolicyRow}
    (h : ∀ effect, ∀ p ∈ matchingRows rows ctx effect,
      policyTruth parseUuid pg ctx row p = .ofBool (evaluatePolicyRow p ctx (some (.obj record)))) :
    recordPolicyTruth parseUuid pg rows ctx row = .tt ↔
      evaluatePolicies rows ctx (some (.obj record)) = .allow := by
  rw [recordPolicyTruth, Truth.and_eq_tt, Truth.not_eq_tt, anyPolicyTruth_eq_tt,
    anyPolicyTruth_eq_ff, evaluatePolicies_eq_allow, and_comm]
  refine and_congr ⟨?_, ?_⟩ ⟨?_, ?_⟩
  · intro hdeny p hp heffect
    by_contra hmatch
    rw [Bool.not_eq_false] at hmatch
    have hmem : p ∈ matchingRows rows ctx .deny :=
      mem_matchingRows.mpr ⟨hp, roleGatePassed_of_evaluatePolicyRow hmatch, heffect⟩
    have hff := hdeny p hmem
    rw [h .deny p hmem, hmatch] at hff
    cases hff
  · intro hdeny p hp
    obtain ⟨hmem, -, heffect⟩ := mem_matchingRows.mp hp
    rw [h .deny p hp, hdeny p hmem heffect]
    rfl
  · rintro ⟨p, hp, htt⟩
    obtain ⟨hmem, -, heffect⟩ := mem_matchingRows.mp hp
    rw [h .allow p hp] at htt
    refine ⟨p, hmem, heffect, ?_⟩
    by_contra hfailed
    rw [Bool.not_eq_true] at hfailed
    rw [hfailed] at htt
    cases htt
  · rintro ⟨p, hp, heffect, hmatch⟩
    have hmem : p ∈ matchingRows rows ctx .allow :=
      mem_matchingRows.mpr ⟨hp, roleGatePassed_of_evaluatePolicyRow hmatch, heffect⟩
    refine ⟨p, hmem, ?_⟩
    rw [h .allow p hmem, hmatch]
    rfl

/-- Without an allow policy neither side lets a row through. -/
theorem recordPolicyTruth_of_no_allow {rows : List PolicyRow}
    (h : matchingRows rows ctx .allow = []) : recordPolicyTruth parseUuid pg rows ctx row ≠ .tt ∧
      evaluatePolicies rows ctx (some (.obj record)) ≠ .allow := by
  constructor
  · rw [recordPolicyTruth, h, Ne, Truth.and_eq_tt, anyPolicyTruth_eq_tt]
    rintro ⟨⟨p, hp, -⟩, -⟩
    exact absurd hp List.not_mem_nil
  · rw [Ne, evaluatePolicies_eq_allow]
    rintro ⟨-, p, hp, heffect, hmatch⟩
    have hmem : p ∈ matchingRows rows ctx .allow :=
      mem_matchingRows.mpr ⟨hp, roleGatePassed_of_evaluatePolicyRow hmatch, heffect⟩
    rw [h] at hmem
    exact absurd hmem List.not_mem_nil

/-- Of a translated list of policies, those the role gate lets through are decided alike. -/
theorem policyTruth_of_fragments {policies : List PolicyRow} {ps ps' : List BindValue}
    {clause : String} (hrun : recordPolicyWhereClause parseUuid (readPolicies policies) ctx ps =
      .ok (some clause, ps')) (hallow : matchingRows (readPolicies policies) ctx .allow ≠ [])
    (hleaf : ∀ p ∈ readPolicies policies, ∀ c ∈ p.condition, ∀ t ∈ tests c,
      isContextAttribute t.attr = false → FragmentDecides parseUuid pg ctx row record t)
    (effect : PolicyEffect) : ∀ p ∈ matchingRows (readPolicies policies) ctx effect,
      policyTruth parseUuid pg ctx row p =
        .ofBool (evaluatePolicyRow p ctx (some (.obj record))) := by
  intro p hp
  obtain ⟨hmem, hgate, -⟩ := mem_matchingRows.mp hp
  refine policyTruth_eq_ofBool hgate (subject_of_mem_readPolicies hmem) fun c hc => ?_
  obtain ⟨qs, s, qs', hclause⟩ := exists_run_policyClause hrun hallow effect p hp
  rw [policyClause, Option.mem_def.mp hc] at hclause
  refine decides_of_tests c fun t ht => ?_
  cases hctx : isContextAttribute t.attr with
  | true => exact fragmentDecides_context hctx
  | false =>
    obtain ⟨_, _, _, htest⟩ := exists_run_of_mem_tests c hclause t ht
    exact decides_of_fragment htest (hleaf p hmem c hc t ht hctx)

end

/-- **Composition.**  When the text of every test decides it on the row as the evaluator does on the
record, the row satisfies the clause of the read policies, as SQL parses it, exactly when a single
read of the record is allowed; for every caller, and whatever parameters follow. -/
theorem recordPolicyWhereClause_holds_iff (parseUuid : String → Option Uuid) (pg : Backend)
    (ctx : RequestContext) (row : String → Option Value) (record : JsonObject)
    (policies : List PolicyRow) (ps : List BindValue) {ps' fin : List BindValue}
    {clause : Option String}
    (hrun : recordPolicyWhereClause parseUuid (readPolicies policies) ctx ps = .ok (clause, ps'))
    (hfin : ps' <+: fin) (hleaf : ∀ p ∈ readPolicies policies, ∀ c ∈ p.condition, ∀ t ∈ tests c,
      isContextAttribute t.attr = false → FragmentDecides parseUuid pg ctx row record t) :
    HoldsOn pg row fin clause ↔
      ((PermissionSnapshot.fromRows policies).canPerformRecordCondition ctx record
        .read).allowed = true := by
  have hclause := (builds_recordPolicyWhereClause pg _ ctx ps clause ps' hrun).2 fin hfin
  rw [PermissionSnapshot.canPerformRecordCondition_allowed]
  cases clause with
  | none =>
    -- an administrator, or no policy at all
    refine iff_of_true trivial ?_
    exact hclause.symm.imp id Or.inl
  | some s =>
    obtain ⟨hrestricted, e, hread, htruth, -⟩ := hclause
    have hparse := (hread.loosen .or (by decide)).parse_eq
    have hholds : HoldsOn pg row fin (some s) ↔
        recordPolicyTruth parseUuid pg (readPolicies policies) ctx row = .tt := by
      have hrow : truth pg (envOf row fin) e =
        recordPolicyTruth parseUuid pg (readPolicies policies) ctx row := htruth row
      rw [← hrow]
      constructor
      · rintro ⟨e', hparse', htt⟩
        obtain rfl : e = e' := by simpa using hparse.symm.trans hparse'
        exact htt
      · exact fun htt => ⟨e, hparse, htt⟩
    have hverdict : recordPolicyTruth parseUuid pg (readPolicies policies) ctx row = .tt ↔
        evaluatePolicies (readPolicies policies) ctx (some (.obj record)) = .allow := by
      by_cases hallow : matchingRows (readPolicies policies) ctx .allow = []
      · obtain ⟨hrow, hrecord⟩ := recordPolicyTruth_of_no_allow hallow
        exact iff_of_false hrow hrecord
      · exact recordPolicyTruth_eq_tt_iff (policyTruth_of_fragments hrun hallow hleaf)
    rw [not_or] at hrestricted
    rw [hholds, hverdict]
    constructor
    · exact fun h => .inr (.inr h)
    · rintro (h | h | h)
      · exact absurd h hrestricted.2
      · exact absurd h hrestricted.1
      · exact h

instance (parseUuid : String → Option Uuid) (pg : Backend) (ctx : RequestContext)
    (row : String → Option Value) (record : JsonObject) (c : PolicyCondition) :
    Decidable (Decides parseUuid pg ctx row record c) :=
  inferInstanceAs (Decidable (_ = _))

/-- The user `u1` may read gold customers that are not on hold. -/
def goldPolicies : List PolicyRow :=
  [{ action := "read", subject := "record",
     condition := some (.all [.attribute "vip" .eq (.literal (some (.str "gold"))),
       .any [.attribute "$ctx.userId" .eq (.literal (some (.str "u1"))), .any []], .all []]) },
   { action := "read", subject := "record", effect := .deny,
     condition := some (.attribute "hold" .eq (.literal (some (.str "yes")))) }]

def goldRecord (hold : String) : StoredRecord :=
  { id := 1, tenantID := 7, data := [("vip", .str "gold"), ("hold", .str hold)] }

def goldCaller : RequestContext := { tenantID := "acme", userID := "u1" }

/-- A gold customer is let through by the clause, one on hold is not. -/
theorem recordPolicyWhereClause_holds_gold :
    ∃ clause params, recordPolicyWhereClause (fun _ => none) (readPolicies goldPolicies) goldCaller
        [] = .ok (some clause, params) ∧
      HoldsOn default (goldRecord "no").row params (some clause) ∧
      ¬HoldsOn default (goldRecord "yes").row params (some clause) := by
  have hleaf : ∀ hold ∈ ["no", "yes"], ∀ p ∈ readPolicies goldPolicies, ∀ c ∈ p.condition,
      ∀ t ∈ tests c, Decides (fun _ => none) default goldCaller (goldRecord hold).row
        (goldRecord hold).data t.condition := by
    decide
  have hiff := fun hold (hhold : hold ∈ ["no", "yes"]) => recordPolicyWhereClause_holds_iff
    (fun _ => none) default goldCaller (goldRecord hold).row (goldRecord hold).data goldPolicies
    [] rfl List.prefix_rfl fun p hp c hc t ht _ =>
      fragmentDecides_of_decides (hleaf hold hhold p hp c hc t ht)
  refine ⟨_, _, rfl, (hiff "no" (by simp)).mpr (by decide), ?_⟩
  exact fun h => absurd ((hiff "yes" (by simp)).mp h) (by decide)

end Metap.Query
