import Metap.Framework.Sql.Placeholders
import Metap.Query.Confinement
import Metap.Query.RequestShape

/-!
# Which parameters a planned statement mentions

Every generator of the planner binds parameters as it writes, so it owns the positions between the
number of parameters it found and the number it left.  All of them but one write a placeholder for
each position they own: the lemmas below say `Own s i j` of their texts, generator
by generator.

The exception is the translation of a policy test.  It binds the name of the attribute before it
looks at the operator, and a membership test in an empty list is then written as a constant
(`EmptyMembership`).  So the placeholders of a plan are always among `$1 … $n`, and they are all of
them exactly when no translated policy holds such a test: `plan_mentions_params_iff`.
-/

namespace Metap.Query

open Sql Builder

/-- A text mentions the positions its generator owns. -/
abbrev Own (s : String) (i j : ℕ) : Prop := Mentions s (Set.Ioc i j)

abbrev OwnAll (ss : List String) (i j : ℕ) : Prop := MentionsAll ss (Set.Ioc i j)

/-! ## Names -/

theorem plain_attributeColumn {attr : String} {column : String × ColType}
    (h : attributeColumn attr = some column) : Plain column.1 := by
  unfold attributeColumn at h
  split at h <;> cases h <;> rfl

variable {field : EntityField}

/-- The quoted name of a declared field. -/
theorem plain_column {entity : EntityDefinition} (hwf : entity.WellFormed)
    (hfield : field ∈ entity.fields) : Plain ("\"" ++ field.name ++ "\"") := by
  have hname := notMem_of_isSafeFieldName (hwf.safe_names field hfield) (d := '$') (by decide)
  have hopen : Plain ("\"" ++ field.name) := Plain.append_of_notMem rfl (by decide) hname
  exact hopen.append rfl

theorem notMem_toString (n : ℤ) : '$' ∉ (toString n).toList := by
  have hdigits : ∀ k : ℕ, '$' ∉ (toString k).toList := by
    intro k hmem
    have hdigit := Nat.isDigit_of_mem_toDigits (b := 10) (n := k) (by omega) (by omega)
      (by simpa [toString] using hmem)
    exact absurd hdigit (by decide)
  cases n with
  | ofNat k => exact hdigits k
  | negSucc k =>
    have htext : toString (Int.negSucc k) = "-" ++ toString (k + 1) := rfl
    rw [htext, String.toList_append, List.mem_append, not_or]
    exact ⟨by decide, hdigits (k + 1)⟩

/-! ## Policies -/

/-- The placeholder of a value does not depend on the value. -/
theorem spans_pushBind (v v' : BindValue) :
    SpansAlike (pushBind v) (pushBind v') fun s i j => j = i + 1 ∧ Own s i j :=
  spans_bind (spans_push v v') fun _ => spans_pure fun _ _ _ hk =>
    ⟨hk.2, mentions_param_ioc hk.1 hk.2⟩

theorem spans_pushBind_cast (v v' : BindValue) {suffix : String} (hs : Plain suffix) :
    SpansAlike (do return (← pushBind v) ++ suffix) (do return (← pushBind v') ++ suffix) Own :=
  spans_bind (spans_pushBind v v') fun _ => spans_pure fun _ _ _ hph => hph.2.after hs

/-- A member of `data` is mentioned by the parameter of its name. -/
theorem mentions_dataMember {ph : String} {K : Set ℕ} (h : Mentions ph K) :
    Mentions ("jsonb_extract_path_text(data, " ++ ph ++ ")") K :=
  (Plain.before rfl h).after rfl

theorem spans_fieldExpression (name : String) : Spans (fieldExpression name) fun p i j =>
      Own p.1 i j ∧ (i = j ↔ attributeColumn name ≠ none) := by
  unfold fieldExpression
  split
  · exact spans_fail
  · cases hcolumn : attributeColumn name with
    | some column =>
      exact spans_pure fun n => ⟨(plain_attributeColumn hcolumn).mentions_ioc n, by simp⟩
    | none =>
      refine spans_bind (spans_pushBind _ _) fun ph => spans_pure fun j i _ hph => ?_
      refine ⟨mentions_dataMember hph.2, ?_⟩
      have hlt : i ≠ j := by omega
      simp [hlt]

theorem spans_jsonScalarToText (value : Option Json) :
    Spans (jsonScalarToText value) fun _ i j => i = j := by
  unfold jsonScalarToText
  split
  · exact spans_pure fun _ => rfl
  · exact spans_fail

/-- A scalar that is bound as text, with or without a cast. -/
theorem spans_scalar {α : Type} {value : Option Json} {f : String → Build α} {P : α → ℕ → ℕ → Prop}
    (h : ∀ text, Spans (f text) P) : Spans (do let text ← jsonScalarToText value; f text) P := by
  refine spans_bind (spans_jsonScalarToText value) fun text => ?_
  refine (h text).mono fun a j k _ hP i _ hij => ?_
  rwa [hij]

variable {sep : String}

section

variable (parseUuid : String → Option Uuid)

theorem spans_bindScalar (ct : ColType) (value : Option Json) :
    Spans (bindScalar parseUuid ct value) Own := by
  have hpush : ∀ v, Spans (pushBind v) Own :=
    fun v => (spans_pushBind v v).mono fun _ _ _ _ h => h.2
  cases ct with
  | uuid =>
    simp only [bindScalar]
    split
    · exact spans_fail
    · split
      · exact hpush _
      · exact spans_fail
  | timestamptz => exact spans_scalar fun text => spans_pushBind_cast _ _ rfl
  | text => exact spans_scalar fun text => hpush _

theorem spans_comparableExprAndValue (expr : String) (ct : ColType) (expected : Option Json) :
    Spans (comparableExprAndValue parseUuid expr ct expected) fun p i j =>
      Own p.2 i j ∧ ∀ K, Mentions expr K → Mentions p.1 K := by
  cases ct with
  | uuid => exact spans_fail
  | timestamptz =>
    refine spans_scalar fun text => spans_bind (spans_pushBind _ _) fun ph => ?_
    exact spans_pure fun j i _ hph => ⟨hph.2.after rfl, fun K hK => hK⟩
  | text =>
    simp only [comparableExprAndValue]
    split
    · refine spans_scalar fun text => spans_bind (spans_pushBind _ _) fun ph => ?_
      exact spans_pure fun j i _ hph =>
        ⟨hph.2.after rfl, fun K hK => (Plain.before rfl hK).after rfl⟩
    · refine spans_bind (spans_bindScalar parseUuid .text expected) fun rhs => ?_
      exact spans_pure fun j i _ hrhs => ⟨hrhs, fun K hK => hK⟩

/-- A membership test of a member of `data` in no values at all. -/
def EmptyMembership (ctx : RequestContext) (t : Test) : Prop :=
  isContextAttribute t.attr = false ∧ attributeColumn t.attr = none ∧
    (t.op = .in ∨ t.op = .notIn) ∧ inValues (resolveValue t.value ctx) = []

instance (ctx : RequestContext) (t : Test) : Decidable (EmptyMembership ctx t) :=
  inferInstanceAs (Decidable (_ ∧ _ ∧ _ ∧ _))

theorem spans_binary (expr : String) {m m' : Build String} (hsep : Plain sep)
    (hm : SpansAlike m m' Own) :
    SpansAlike (do return expr ++ sep ++ (← m)) (do return expr ++ sep ++ (← m')) fun s j k =>
      ∀ i ≤ j, Own expr i j → Own s i k := by
  refine spans_bind hm fun ph => spans_pure fun k j hjk hph i hij hexpr => ?_
  exact (hexpr.after hsep).append_ioc hph hij hjk

theorem plain_orderingOpText (op : ConditionOp) : Plain (orderingOpText op) := by
  cases op with
  | other text => exact (rfl : Plain "<=")
  | _ => rfl

theorem spans_ordering (op : ConditionOp) (expr : String) (ct : ColType) (expected : Option Json) :
    Spans (do
        let (lhs, rhs) ← comparableExprAndValue parseUuid expr ct expected
        return lhs ++ " " ++ orderingOpText op ++ " " ++ rhs)
      fun s j k => ∀ i ≤ j, Own expr i j → Own s i k := by
  refine spans_bind (spans_comparableExprAndValue parseUuid expr ct expected) ?_
  rintro ⟨lhs, rhs⟩
  refine spans_pure fun k j hjk hsides i hij hexpr => ?_
  have hlhs : Own (lhs ++ " " ++ orderingOpText op ++ " ") i j :=
    (((hsides.2 _ hexpr).after rfl).after (plain_orderingOpText op)).after rfl
  exact hlhs.append_ioc hsides.1 hij hjk

variable (ctx : RequestContext)

/-- A membership test: the placeholders of the list, or a constant when it is empty. -/
theorem spans_membership (t : Test) {expr open' constant : String}
    {ct : ColType} (hcontext : isContextAttribute t.attr = false)
    (hop : t.op = .in ∨ t.op = .notIn) (hopen : Plain open') (hconstant : Plain constant) :
    Spans (if (inValues (resolveValue t.value ctx)).isEmpty then pure constant
      else do
        let phs ← (inValues (resolveValue t.value ctx)).mapM
          fun v => bindScalar parseUuid ct (some v)
        return expr ++ open' ++ (join ", " phs ++ ")"))
      fun s j k => ∀ i ≤ j, Own expr i j ∧
        (i = j ↔ attributeColumn t.attr ≠ none) → Covers (¬EmptyMembership ctx t) s i k := by
  split
  · next hempty =>
    refine spans_pure fun j i hij hfield => hconstant.covers ?_ hij
    rw [hfield.2]
    simp [EmptyMembership, hcontext, hop, List.isEmpty_iff.mp hempty]
  · next hne =>
    refine spans_bind (spans_mapM_mentions <| List.forall₂_same.mpr fun v _ =>
      spans_bindScalar parseUuid ct (some v)) fun phs =>
        spans_pure fun k j hjk hphs i hij hfield => ?_
    have hlist : Own (join ", " phs ++ ")") j k := (hphs.join rfl).after rfl
    refine covers_of_mentions ((hfield.1.after hopen).append_ioc hlist hij hjk) fun hmem => ?_
    exact hne (List.isEmpty_iff.mpr hmem.2.2.2)

theorem spans_leafToSQL (t : Test) :
    Spans (leafToSQL parseUuid ctx t.attr t.op t.value) (Covers (¬EmptyMembership ctx t)) := by
  have hnot : ∀ op, t.op = op → op ≠ .in → op ≠ .notIn → ¬EmptyMembership ctx t := by
    intro op hop hin hnotIn hempty
    rcases hempty.2.2.1 with h | h
    · exact hin (hop.symm.trans h)
    · exact hnotIn (hop.symm.trans h)
  unfold leafToSQL
  split
  · next hcontext =>
    refine spans_pure fun n => Plain.covers ?_ ?_ le_rfl
    · split <;> rfl
    · simp [EmptyMembership, hcontext]
  next hcontext =>
  split
  · exact spans_fail
  refine spans_bind (spans_fieldExpression t.attr) ?_
  rintro ⟨expr, ct⟩
  have hscalar := spans_bindScalar parseUuid ct (resolveValue t.value ctx)
  have hlift : ∀ {m : Build String},
      Spans m (fun s j k => ∀ i ≤ j, Own expr i j → Own s i k) →
      ¬EmptyMembership ctx t →
      Spans m fun s j k => ∀ i ≤ j, Own expr i j ∧
        (i = j ↔ attributeColumn t.attr ≠ none) → Covers (¬EmptyMembership ctx t) s i k :=
    fun hm hne => hm.mono fun s j k _ h i hij hfield => covers_of_mentions (h i hij hfield.1) hne
  cases hop : t.op with
  | eq | neq => exact hlift (spans_binary expr rfl hscalar) (hnot _ hop (by simp) (by simp))
  | «in» => exact spans_membership parseUuid ctx t (by simpa using hcontext) (Or.inl hop) rfl rfl
  | notIn => exact spans_membership parseUuid ctx t (by simpa using hcontext) (Or.inr hop) rfl rfl
  | gt | gte | lt | lte =>
    exact hlift (spans_ordering parseUuid _ expr ct _) (hnot _ hop (by simp) (by simp))
  | contains | notContains | other text => exact spans_fail

mutual

/-- The text of a condition covers what its translation binds when no test is empty. -/
theorem spans_conditionToSQL : ∀ c : PolicyCondition,
    Spans (conditionToSQL parseUuid ctx c) (Covers (∀ t ∈ tests c, ¬EmptyMembership ctx t))
  | .all [] | .any [] => by
    rw [conditionToSQL]
    exact spans_pure fun n => Plain.covers rfl (by simp [tests, testsOfList]) le_rfl
  | .all (c :: cs) | .any (c :: cs) => by
    rw [conditionToSQL, tests]
    exact spans_bind (spans_conditionsToSQL (c :: cs)) fun ss =>
      spans_pure fun _ _ _ hss => hss.parens rfl
  | .attribute attr op value => by
    rw [conditionToSQL, tests]
    exact (spans_leafToSQL parseUuid ctx ⟨attr, op, value⟩).mono fun s i j _ h =>
      h.congr (by simp)

theorem spans_conditionsToSQL : ∀ cs : List PolicyCondition,
    Spans (conditionsToSQL parseUuid ctx cs)
      (CoversAll (∀ t ∈ testsOfList cs, ¬EmptyMembership ctx t))
  | [] => by
    rw [conditionsToSQL]
    exact spans_pure fun n => coversAll_of_mentionsAll (mentionsAll_nil_ioc n)
      (by simp [testsOfList])
  | c :: cs => by
    rw [conditionsToSQL, testsOfList]
    refine spans_bind (spans_conditionToSQL c) fun s => ?_
    refine spans_bind (spans_conditionsToSQL cs) fun ss => ?_
    refine spans_pure fun k j hjk hss i hij hs => ?_
    exact (hs.singleton.append hss hij hjk).congr (by rw [List.forall_mem_append])

end

theorem spans_policyClauses (rows : List PolicyRow) :
    Spans (rows.mapM (policyClause parseUuid ctx)) (CoversAll
      (∀ t ∈ rows.flatMap fun p => (p.condition.map tests).getD [], ¬EmptyMembership ctx t)) := by
  have hrow : ∀ row ∈ rows, Spans (policyClause parseUuid ctx row)
      (Covers (∀ t ∈ (row.condition.map tests).getD [], ¬EmptyMembership ctx t)) := by
    intro row _
    unfold policyClause
    cases row.condition with
    | none => exact spans_pure fun n => Plain.covers rfl (by simp) le_rfl
    | some c => exact spans_conditionToSQL parseUuid ctx c
  exact (spans_mapM_covers (List.forall₂_same.mpr hrow)).mono fun ss i j _ h =>
    h.congr List.forall_mem_flatMap.symm

/-- The tests of the policies the role gate lets through, with the effect of their policy. -/
def policyTests (rows : List PolicyRow) (ctx : RequestContext) (effect : PolicyEffect) :
    List Test :=
  (matchingRows rows ctx effect).flatMap fun p => (p.condition.map tests).getD []

/-- The tests of the policies that are translated to text. -/
def translatedTests (rows : List PolicyRow) (ctx : RequestContext) : List Test :=
  if rows.isEmpty || ctx.isAdmin then []
  else if (matchingRows rows ctx .allow).isEmpty then []
  else policyTests rows ctx .allow ++ policyTests rows ctx .deny

abbrev NoEmptyTests (rows : List PolicyRow) (ctx : RequestContext) : Prop :=
  ∀ t ∈ translatedTests rows ctx, ¬EmptyMembership ctx t

theorem spans_recordPolicyWhereClause (rows : List PolicyRow) (ctx : RequestContext) :
    Spans (recordPolicyWhereClause parseUuid rows ctx) fun clause =>
      CoversAll (NoEmptyTests rows ctx) clause.toList := by
  unfold recordPolicyWhereClause NoEmptyTests translatedTests
  split
  · exact spans_pure fun n => coversAll_of_mentionsAll (mentionsAll_nil_ioc n) (by simp)
  simp only
  split
  · exact spans_pure fun n => (Plain.covers rfl (by simp) le_rfl).singleton
  refine spans_bind (spans_policyClauses parseUuid ctx _) fun allowClauses => ?_
  split
  · next hdeny =>
    refine spans_pure fun j i hij hallow => (hallow.parens rfl).singleton.congr ?_
    simp [policyTests, List.isEmpty_iff.mp hdeny]
  · refine spans_bind (spans_policyClauses parseUuid ctx _) fun denyClauses => ?_
    refine spans_pure fun k j hjk hdeny i hij hallow => ?_
    have hallowSQL : Covers _ ("(" ++ join " OR " allowClauses ++ ")") i j := hallow.parens rfl
    have hdenySQL : Covers _ ("(" ++ join " OR " denyClauses ++ ")") j k := hdeny.parens rfl
    have hboth := (hallowSQL.singleton.append hdenySQL.singleton hij hjk).parens
      (rfl : Plain " AND NOT ")
    rw [← List.forall_mem_append] at hboth
    have hpair : ∀ a b, join " AND NOT " [a, b] = a ++ " AND NOT " ++ b := by
      simp [join, joinTail, String.append_assoc]
    simpa only [List.singleton_append, hpair, String.append_assoc, policyTests, Option.toList_some]
      using hboth.singleton

/-- The tenant, the flag and the policies. -/
theorem spans_scopeConditions (tenant : Uuid) (rows : List PolicyRow) (ctx : RequestContext) :
    Spans (scopeConditions parseUuid tenant rows ctx) (CoversAll (NoEmptyTests rows ctx)) := by
  refine spans_bind (spans_pushBind _ _) fun ph => ?_
  refine spans_bind (spans_recordPolicyWhereClause parseUuid rows ctx) fun clause => ?_
  refine spans_pure fun k j hjk hclause i hij hph => ?_
  have hfirst : OwnAll ["tenant_id = " ++ ph, "deleted = false"] i j := by
    have hflag : Own "deleted = false" j j := Plain.mentions_ioc rfl j
    have htenant : Own ("tenant_id = " ++ ph) i j := Plain.before rfl hph.2
    exact htenant.singleton.append_ioc hflag.singleton hij le_rfl
  exact ((coversAll_of_mentionsAll hfirst trivial).append hclause hij hjk).congr (by simp)

end

/-! ## List requests -/

section

theorem plain_castSuffix (ct : SortColType) : Plain ct.castSuffix := by
  cases ct <;> rfl

theorem plain_jqlCastSuffix (ftype : JqlFieldType) : Plain (jqlCastSuffix ftype) := by
  cases ftype <;> rfl

theorem plain_jqlOpText (op : JqlCompareOp) : Plain (" " ++ jqlOpText op ++ " ") := by
  cases op <;> rfl

/-- The texts of a first expression and of the others, joined. -/
theorem spans_joined {m m' : Build String} {ms ms' : Build (List String)}
    (hsep : Plain sep) (hm : SpansAlike m m' Own) (hms : SpansAlike ms ms' OwnAll) :
    SpansAlike (do let s ← m; let ss ← ms; return "(" ++ join sep (s :: ss) ++ ")")
      (do let s ← m'; let ss ← ms'; return "(" ++ join sep (s :: ss) ++ ")") Own := by
  refine spans_bind hm fun s => spans_bind hms fun ss => ?_
  refine spans_pure fun k j hjk hss i hij hs => Mentions.paren ?_
  exact (hs.singleton.append_ioc hss hij hjk).join hsep

theorem mentions_cursorCondition {sortExpr idPh : String} {valuePh : Option String}
    (descending : Bool) {K L M : Set ℕ} (hsort : Mentions sortExpr K)
    (hvalue : MentionsAll valuePh.toList L) (hid : Mentions idPh M) :
    Mentions (cursorCondition sortExpr descending valuePh idPh) (K ∪ L ∪ M) := by
  cases valuePh with
  | none =>
    obtain rfl : ∅ = L := refsOf_nil.symm.trans hvalue.2
    rw [Set.union_empty]
    cases descending with
    | false => exact (((Plain.before rfl hsort).after rfl).append hid).after rfl
    | true =>
      rw [← Set.union_eq_left.mpr (Set.subset_union_left : K ⊆ K ∪ M)]
      exact (((((Plain.before rfl hsort).after rfl).append hid).after rfl).append hsort).after rfl
  | some ph =>
    have hph : Mentions ph L := hvalue.of_singleton
    have htie : ∀ sep : String, Plain sep → Mentions ("((" ++ sortExpr ++ sep ++ ph ++ ") OR (" ++
        sortExpr ++ " = " ++ ph ++ " AND id > " ++ idPh) (K ∪ L ∪ M) := by
      intro sep hsep
      rw [← Set.union_self (K ∪ L), ← Set.union_assoc]
      exact ((((((((Plain.before rfl hsort).after hsep).append hph).after rfl).append hsort).after
        rfl).append hph).after rfl).append hid
    cases descending with
    | false =>
      rw [← Set.union_eq_left.mpr (Set.subset_union_left.trans Set.subset_union_left :
        K ⊆ K ∪ L ∪ M)]
      exact (((htie " > " rfl).after rfl).append hsort).after rfl
    | true => exact (htie " < " rfl).after rfl

theorem spans_bindCursorValue (ct : SortColType) {value value' : Option String}
    (h : value.isSome = value'.isSome) :
    SpansAlike (value.mapM (bindCursorValue ct)) (value'.mapM (bindCursorValue ct))
      fun (ph : Option String) => OwnAll ph.toList := by
  cases rel_of_isSome h with
  | none => exact spans_pure mentionsAll_nil_ioc
  | some _ =>
    exact spans_map (spans_pushBind_cast _ _ (plain_castSuffix ct)) fun _ _ _ _ hs => hs.singleton

variable {parseUuid : String → Option Uuid} {readCursor : String → Option Cursor}

theorem spans_cursorConditions {cursor cursor' : Option String}
    (h : Option.Rel (SamePosition parseUuid readCursor) cursor cursor') (sort : ResolvedSort)
    (sortExpr : String) (ct : SortColType) :
    SpansAlike (cursorConditions parseUuid readCursor cursor sort sortExpr ct)
      (cursorConditions parseUuid readCursor cursor' sort sortExpr ct) fun ss j k =>
        ∀ i ≤ j, Own sortExpr i j →
          ∃ K, MentionsAll ss K ∧ K ∪ Set.Ioc i j = Set.Ioc i k := by
  cases h with
  | none => exact spans_pure fun j i _ hsort => ⟨∅, mentionsAll_nil, Set.empty_union _⟩
  | @some raw raw' h =>
    unfold cursorConditions
    dsimp only
    unfold SamePosition at h
    generalize decodeCursor readCursor raw = d at h ⊢
    generalize decodeCursor readCursor raw' = d' at h ⊢
    cases h with
    | none => exact spans_fail
    | @some c c' h =>
      obtain ⟨⟨hfield, hdir, hvalue⟩, hid⟩ := h
      dsimp only
      rw [← hfield, ← hdir]
      split
      · exact spans_fail
      have hid := rel_of_isSome hid
      generalize parseUuid c.id = id at hid ⊢
      generalize parseUuid c'.id = id' at hid ⊢
      cases hid with
      | none => exact spans_fail
      | some _ =>
        refine spans_bind (spans_bindCursorValue ct hvalue) fun valuePh => ?_
        refine spans_bind (spans_pushBind _ _) fun idPh => ?_
        refine spans_pure fun m k hkm hid j hjk hvalue i hij hsort => ?_
        refine ⟨_, (mentions_cursorCondition sort.descending hsort hvalue hid.2).singleton, ?_⟩
        rw [Set.Ioc_union_Ioc_eq_Ioc hij hjk, Set.Ioc_union_Ioc_eq_Ioc (hij.trans hjk) hkm]
        exact Set.union_eq_left.mpr (Set.Ioc_subset_Ioc_right (hjk.trans hkm))

theorem mentions_orderBySQL {sortExpr : String} {K : Set ℕ} (descending : Bool)
    (h : Mentions sortExpr K) : Mentions (orderBySQL sortExpr descending) K := by
  refine (h.after ?_).after rfl
  cases descending <;> rfl

/-- `K` is within the first `n` positions, and is all of them exactly when `b`. -/
def Uses (b : Prop) (K : Set ℕ) (n : ℕ) : Prop :=
  K ⊆ Set.Icc 1 n ∧ (K = Set.Icc 1 n ↔ b)

theorem uses_of_union {b : Prop} {K L : Set ℕ} {j k : ℕ} (hK : K ⊆ Set.Ioc 0 j)
    (hb : K = Set.Ioc 0 j ↔ b) (hL : L = Set.Ioc j k) (hjk : j ≤ k) : Uses b (K ∪ L) k := by
  have hinterval : Set.Icc 1 k = Set.Ioc 0 k := rfl
  subst hL
  constructor
  · rw [hinterval, ← Set.Ioc_union_Ioc_eq_Ioc (Nat.zero_le j) hjk]
    exact Set.union_subset_union hK subset_rfl
  · rw [hinterval, ioc_union_eq_iff (Nat.zero_le j) hjk hK subset_rfl, hb]
    simp

variable {entity : EntityDefinition} (hwf : entity.WellFormed)

include hwf

theorem spans_sortFieldExpression (name : String) :
    Spans (sortFieldExpression name (entity.field? name)) fun p => Own p.1 := by
  unfold sortFieldExpression
  split
  · exact spans_pure (Plain.mentions_ioc rfl)
  split
  · exact spans_pure (Plain.mentions_ioc rfl)
  split
  · next field hfield =>
    obtain ⟨hfield, _⟩ := Option.filter_eq_some_iff.mp hfield
    obtain ⟨hmem, _⟩ := EntityDefinition.mem_of_field?_eq_some hfield
    exact spans_pure fun n => (plain_column hwf hmem).mentions_ioc n
  · exact spans_bind (spans_pushBind _ _) fun ph => spans_pure fun _ _ _ hph =>
      mentions_dataMember hph.2

/-- The tests a filter can be written as. -/
theorem spans_filterCondition {kv kv' : String × String}
    (h : kv.1 = kv'.1 ∧ (kv.2 = "" ↔ kv'.2 = "")) :
    SpansAlike (filterCondition entity kv) (filterCondition entity kv') Own := by
  obtain ⟨name, value⟩ := kv
  obtain ⟨name', value'⟩ := kv'
  obtain ⟨rfl, hempty⟩ : name = name' ∧ (value = "" ↔ value' = "") := h
  refine spans_bind (spans_sortFieldExpression hwf name) ?_
  rintro ⟨expr, ct⟩
  simp only
  split
  · refine spans_bind (spans_pushBind _ _) fun ph => spans_pure fun k j hjk hph i hij hexpr => ?_
    have hleft : Own ("to_tsvector('simple', " ++ expr ++ ") @@ plainto_tsquery('simple', ") i j :=
      (Plain.before rfl hexpr).after rfl
    exact (hleft.append_ioc hph.2 hij hjk).after rfl
  split
  · exact (spans_binary expr rfl ((spans_pushBind _ _).mono fun _ _ _ _ h => h.2))
  by_cases hvalue : value = ""
  · rw [if_pos hvalue, if_pos (hempty.mp hvalue)]
    exact spans_pure fun j i _ hexpr => hexpr.after rfl
  · rw [if_neg hvalue, if_neg (mt hempty.mpr hvalue)]
    exact spans_bind (spans_pushBind _ _) fun ph => spans_pure fun k j hjk hph i hij hexpr =>
      (hexpr.after rfl).append_ioc (hph.2.after (plain_castSuffix ct)) hij hjk

/-- The left side of a JQL test. -/
theorem spans_resolveJqlField (name : String) : Spans (resolveJqlField name entity) fun p =>
      Own (jqlLhs p.1 p.2) := by
  have hlhs : ∀ {base : String} {ftype : JqlFieldType} {K : Set ℕ}, Mentions base K →
      Mentions (jqlLhs base ftype) K := fun hbase =>
    ((Plain.before rfl hbase).after rfl).after (plain_jqlCastSuffix _)
  unfold resolveJqlField
  split
  · exact spans_pure fun n => hlhs (Plain.mentions_ioc rfl n)
  split
  · exact spans_pure fun n => hlhs (Plain.mentions_ioc rfl n)
  split
  · exact spans_fail
  next field hfield =>
  simp only
  split
  · obtain ⟨hmem, hname⟩ := EntityDefinition.mem_of_field?_eq_some hfield
    exact spans_pure fun n => hlhs (hname ▸ (plain_column hwf hmem).mentions_ioc n)
  · exact spans_bind (spans_pushBind _ _) fun ph => spans_pure fun _ _ _ hph =>
      hlhs (mentions_dataMember hph.2)

theorem spans_compileCompare (field : String) (op : JqlCompareOp) {v v' : JqlValue}
    (h : SameValue v v') :
    SpansAlike (compileCompare entity field op v) (compileCompare entity field op v') Own := by
  refine spans_bind (spans_resolveJqlField hwf field) ?_
  rintro ⟨base, ftype⟩
  have hcheck : Spans (validateJqlOp op ftype field) fun _ i j => i = j := by
    unfold validateJqlOp
    split
    · exact spans_pure fun _ => rfl
    · exact spans_fail
  refine spans_bind hcheck fun _ => ?_
  simp only
  split
  · cases h with
    | bool b => exact spans_fail
    | str s s' =>
      refine spans_bind (spans_pushBind _ _) fun ph =>
        spans_pure fun k j hjk hph j' _ hj i hij hlhs => ?_
      subst hj
      refine Mentions.paren (Mentions.append_ioc (hlhs.after ?_) hph.2 hij hjk)
      split <;> rfl
  · refine spans_bind (spans_pushBind _ _) fun ph =>
      spans_pure fun k j hjk hph j' _ hj i hij hlhs => ?_
    subst hj
    exact ((hlhs.after (plain_jqlOpText op)).append_ioc
      (hph.2.after (plain_jqlCastSuffix ftype)) hij hjk).paren

theorem spans_compileIn (field : String) (negate : Bool) {vs vs' : List JqlValue}
    (h : List.Forall₂ SameValue vs vs') :
    SpansAlike (compileIn entity field negate vs) (compileIn entity field negate vs') Own := by
  have hempty : vs.isEmpty = vs'.isEmpty := by cases h <;> rfl
  unfold compileIn
  rw [hempty]
  split
  · exact spans_fail
  refine spans_bind (spans_resolveJqlField hwf field) ?_
  rintro ⟨base, ftype⟩
  have hloop := spans_mapM_mentions (h.imp fun v v' _ => spans_pushBind_cast
    (.text (jqlValueToBindText v)) (.text (jqlValueToBindText v')) (plain_jqlCastSuffix ftype))
  refine spans_bind hloop fun phs => spans_pure fun k j hjk hphs i hij hlhs => ?_
  refine Mentions.paren (Mentions.append_ioc (hlhs.after ?_) ((hphs.join rfl).after rfl) hij hjk)
  cases negate <;> rfl

theorem spans_compileIsEmpty (field : String) (negate : Bool) :
    Spans (compileIsEmpty entity field negate) Own := by
  refine spans_bind (spans_resolveJqlField hwf field) ?_
  rintro ⟨base, ftype⟩
  refine spans_pure fun j i _ hlhs => Mentions.paren (hlhs.after ?_)
  cases negate <;> rfl

omit hwf in
mutual

/-- Expressions that differ in literals compile to one text. -/
theorem spans_compileJqlExpr (hwf : entity.WellFormed) : ∀ {e e' : JqlExpr}, SameExpr e e' →
    SpansAlike (compileJqlExpr entity e) (compileJqlExpr entity e') Own
  | _, _, .and he hes | _, _, .or he hes => by
    rw [compileJqlExpr, compileJqlExpr]
    exact spans_joined rfl (spans_compileJqlExpr hwf he) (spans_compileJqlExprs hwf hes)
  | _, _, .not he => by
    rw [compileJqlExpr, compileJqlExpr]
    refine spans_bind (spans_compileJqlExpr hwf he) fun s => ?_
    exact spans_pure fun _ _ _ hs => Mentions.paren (Plain.before rfl hs)
  | _, _, .isEmpty field negate => by
    rw [compileJqlExpr]
    exact spans_compileIsEmpty hwf field negate
  | _, _, .compare field op hv => by
    rw [compileJqlExpr, compileJqlExpr]
    exact spans_compileCompare hwf field op hv
  | _, _, .inList field negate hvs => by
    rw [compileJqlExpr, compileJqlExpr]
    exact spans_compileIn hwf field negate hvs

theorem spans_compileJqlExprs (hwf : entity.WellFormed) :
    ∀ {es es' : List JqlExpr}, SameExprs es es' →
      SpansAlike (compileJqlExprs entity es) (compileJqlExprs entity es') OwnAll
  | _, _, .nil => by
    rw [compileJqlExprs]
    exact spans_pure mentionsAll_nil_ioc
  | _, _, .cons he hes => by
    rw [compileJqlExprs, compileJqlExprs]
    refine spans_bind (spans_compileJqlExpr hwf he) fun s => ?_
    refine spans_bind (spans_compileJqlExprs hwf hes) fun ss => ?_
    exact spans_pure fun k j hjk hss i hij hs => hs.singleton.append_ioc hss hij hjk

end

theorem spans_compileWhere {e e' : Option JqlExpr} (h : Option.Rel SameExpr e e') :
    SpansAlike (compileWhere entity e) (compileWhere entity e') fun p =>
      OwnAll p.toList := by
  cases h with
  | none => exact spans_pure mentionsAll_nil_ioc
  | some he => exact spans_map (spans_compileJqlExpr hwf he) fun _ _ _ _ hs => hs.singleton

/-- JQL texts of one shape are both refused, or compile to one text and one order. -/
theorem spans_jqlConditions {jql jql' : Option String} (h : Option.Rel SameJql jql jql') :
    SpansAlike (jqlConditions entity jql) (jqlConditions entity jql') fun p =>
      OwnAll p.1.toList := by
  cases h with
  | none => exact spans_pure mentionsAll_nil_ioc
  | @some jql jql' h =>
    have hparse := sameOutcome_parse h
    simp only [jqlConditions]
    unfold parseAndCompileJQL
    revert hparse
    generalize (do JqlParser.parseQuery.run' (← jqlTokenize jql) : Except QueryError ParsedJql) = x
    generalize (do JqlParser.parseQuery.run' (← jqlTokenize jql') : Except QueryError ParsedJql) = y
    intro hparse
    cases hparse with
    | error e e' => exact spans_fail
    | @ok p p' hp =>
      refine spans_bind (spans_compileWhere hwf hp.expr) fun whereSQL => ?_
      rw [← hp.orderBy]
      split
      · exact spans_pure fun _ _ _ h => h
      · split
        · exact spans_pure fun _ _ _ h => h
        · exact spans_fail

variable {input input' : ListInput} (h : SameListShape readCursor input input')
  (hcursor : Option.Rel (SamePosition parseUuid readCursor) input.cursor input'.cursor)

include h hcursor

/-- The conditions a list request adds, together with the expression it sorts by. -/
theorem spans_requestConditions (listView : Option EntityListView) :
    SpansAlike (requestConditions parseUuid readCursor entity listView input)
      (requestConditions parseUuid readCursor entity listView input') fun p i j =>
        ∃ K L, MentionsAll p.1 K ∧ Mentions p.2.2 L ∧ K ∪ L = Set.Ioc i j := by
  have hfilters := h.filters.allowedFilters ((listView.map EntityListView.filters).getD [])
  refine spans_bind (spans_mapM_mentions (hfilters.imp
    fun _ _ hkv => spans_filterCondition hwf hkv)) fun filters => ?_
  refine spans_bind (spans_jqlConditions hwf h.jql) ?_
  rintro ⟨jqlWhere, jqlOrder⟩
  simp only
  rw [← h.sort]
  refine spans_bind (spans_sortFieldExpression hwf _) ?_
  rintro ⟨sortExpr, ct⟩
  refine spans_bind (spans_cursorConditions hcursor _ sortExpr ct) fun after => ?_
  refine spans_pure fun n m hmn hafter k hkm hsort j hjk hjql i hij hfilters => ?_
  obtain ⟨K, hK, hunion⟩ := hafter k hkm hsort
  refine ⟨_, _, (hfilters.append_ioc hjql hij hjk).append hK, hsort, ?_⟩
  rw [Set.union_assoc, hunion]
  exact Set.Ioc_union_Ioc_eq_Ioc (hij.trans hjk) (hkm.trans hmn)

theorem spans_listConditions (listView : Option EntityListView) (tenant : Uuid)
    (ctx : RequestContext) (policies : List PolicyRow) :
    SpansAlike (listConditions parseUuid readCursor entity listView tenant input ctx policies)
      (listConditions parseUuid readCursor entity listView tenant input' ctx policies) fun r i j =>
        i = 0 → Uses (NoEmptyTests policies ctx)
          (refs (join " AND " r.1) ∪ refs (orderBySQL r.2.2 r.2.1.descending)) j := by
  refine spans_bind (spans_scopeConditions parseUuid tenant policies ctx) fun scope => ?_
  refine spans_bind (spans_requestConditions hwf h hcursor listView) ?_
  rintro ⟨requested, sort, sortExpr⟩
  refine spans_pure fun k j hjk hrequested i hij hscope hi => ?_
  subst hi
  obtain ⟨K, hK, hKsub, hKiff⟩ := hscope
  obtain ⟨L, M, hL, hM, hunion⟩ := hrequested
  have hwhere : Mentions (join " AND " (scope ++ requested)) (K ∪ L) := (hK.append hL).join rfl
  have horder := mentions_orderBySQL sort.descending hM
  rw [hwhere.2, horder.2, Set.union_assoc]
  exact uses_of_union hKsub hKiff hunion hjk

omit hwf in
/-- List requests of one shape are both refused, or planned to one text. -/
theorem planList_alike (registry : MetadataRegistry) (entityName : String) (ctx : RequestContext)
    (policies : List PolicyRow) : SameOutcome (fun q q' => SamePlan q q' ∧
        Uses (NoEmptyTests policies ctx) (refs q.whereSQL ∪ refs q.orderBySQL) q.params.length)
      (planList parseUuid readCursor registry entityName input ctx policies)
      (planList parseUuid readCursor registry entityName input' ctx policies) := by
  unfold planList
  rw [← h.listView]
  cases hentity : registry.getEntity entityName with
  | none => exact .error _ _
  | some entity =>
    dsimp only
    cases scopedTenant parseUuid ctx with
    | error e => exact .error _ _
    | ok tenant =>
      cases selectListView entity input.listView with
      | error e => exact .error _ _
      | ok listView =>
        have hwf := MetadataRegistry.wellFormed_of_getEntity hentity
        have hconditions :=
          spans_listConditions hwf h hcursor listView tenant ctx policies [] [] rfl
        refine hconditions.bind ?_
        rintro ⟨r, ws⟩ ⟨_, ws'⟩ ⟨⟨rfl, hws⟩, hspan⟩
        refine .ok ⟨⟨rfl, rfl, hws, ?_, rfl⟩, hspan.holds rfl⟩
        rw [h.limit]

end

/-! ## Aggregations -/

section

theorem plain_sqlName (fn : AggregateFn) : Plain fn.sqlName := by
  cases fn <;> rfl

/-- One end of the time range repeats the time axis. -/
theorem spans_timeCondition (te : Option String) (hsep : Plain sep)
    {bound bound' : Option String} (h : bound.isSome = bound'.isSome) :
    SpansAlike (timeCondition te sep bound) (timeCondition te sep bound') fun ss j k =>
      ∀ T, MentionsAll te.toList T → ∃ K, MentionsAll ss K ∧ K ⊆ T ∪ Set.Ioc j k ∧
        Set.Ioc j k ⊆ K ∧ (bound.isSome = true → T ⊆ K) := by
  have hnone : ∀ {n} {T : Set ℕ}, (bound.isSome = true → T ⊆ ∅) →
      ∃ K, MentionsAll [] K ∧ K ⊆ T ∪ Set.Ioc n n ∧ Set.Ioc n n ⊆ K ∧
        (bound.isSome = true → T ⊆ K) :=
    fun hT => ⟨∅, mentionsAll_nil, Set.empty_subset _, by simp, hT⟩
  cases te with
  | none =>
    refine spans_pure fun n T hT => hnone fun _ => ?_
    rw [← hT.2, Option.toList_none, refsOf_nil]
  | some t =>
    cases rel_of_isSome h with
    | none => exact spans_pure fun n T hT => hnone (by simp)
    | some _ =>
      refine spans_bind (spans_pushBind _ _) fun ph => spans_pure fun k j _ hph T hT => ?_
      have ht : Mentions t T := hT.of_singleton
      have htext := ((ht.after hsep).append (hph.2.after (t := "::timestamptz") rfl)).singleton
      exact ⟨_, htext, subset_rfl, Set.subset_union_right, fun _ => Set.subset_union_left⟩

theorem mentions_bucketExpression {te : Option String} {T : Set ℕ} (bucket : Option TimeBucket)
    (hT : MentionsAll te.toList T) (hneeded : bucket.isSome = true → te.isSome = true) :
    MentionsAll (bucketExpression bucket te).toList (if bucket.isSome then T else ∅) := by
  cases bucket with
  | none => exact mentionsAll_nil
  | some b =>
    obtain ⟨t, rfl⟩ := Option.isSome_iff_exists.mp (hneeded rfl)
    have ht : Mentions t T := hT.of_singleton
    have hunit : Plain ("date_trunc('" ++ b.truncUnit ++ "', ") := by cases b <;> rfl
    exact ((hunit.before ht).after (t := ")") rfl).singleton

theorem forall₂_aggregateFilters (entity : EntityDefinition)
    {filters filters' : List (String × String)} (h : SameFilters filters filters') :
    List.Forall₂ (fun fv fv' => fv.1 ∈ entity.fields ∧ fv.1 = fv'.1 ∧ (fv.2 = "" ↔ fv'.2 = ""))
      (aggregateFilters entity filters) (aggregateFilters entity filters') := by
  unfold aggregateFilters
  have hallowed := h.allowedFilters (viewFilterFields entity)
  generalize allowedFilters (viewFilterFields entity) filters = allowed at hallowed ⊢
  generalize allowedFilters (viewFilterFields entity) filters' = allowed' at hallowed ⊢
  induction hallowed with
  | nil => exact .nil
  | @cons kv kv' rest rest' hhead htail ih =>
    rw [List.filterMap_cons, List.filterMap_cons, ← hhead.1]
    cases hfield : entity.field? kv.1 with
    | none => exact ih
    | some field =>
      exact .cons ⟨(EntityDefinition.mem_of_field?_eq_some hfield).1, rfl, hhead.2⟩ ih

/-- The statement mentions what its parts mention. -/
theorem mentions_sql (p : AggregatePlan) {B G M W : Set ℕ}
    (hbucket : MentionsAll p.bucketExpr.toList B) (hgroup : MentionsAll p.groupExpr.toList G)
    (hmetrics : MentionsAll (p.metrics.map Prod.fst) M) (halias : ∀ m ∈ p.metrics, '$' ∉ m.2.toList)
    (htable : '$' ∉ p.tableName.toList) (hwhere : Mentions p.whereSQL W)
    (horder : Plain p.orderBySQL) : Mentions p.sql (W ∪ (B ∪ (G ∪ M))) := by
  have hgroupText : MentionsAll (p.groupExpr.toList.map fun e => "(" ++ e ++ ")::text") G :=
    MentionsAll.map (f := id) (by simpa using hgroup) fun e _ L he =>
      (Plain.before rfl he).after rfl
  have hselect : MentionsAll p.selectParts (B ∪ G ∪ M) := by
    refine (MentionsAll.append ?_ ?_).append ?_
    · exact MentionsAll.map (f := id) (by simpa using hbucket) fun e _ L he => he.after rfl
    · exact MentionsAll.map (f := id) (by simpa using hgroup) fun e _ L he =>
        (Plain.before rfl he).after rfl
    · exact hmetrics.map fun m hm L he =>
        (((Plain.before rfl he).after_tail rfl (by decide) (halias m hm))).after rfl
  have hgroupBy : Mentions p.groupBySQL (B ∪ G) := by
    have hparts : MentionsAll p.groupParts (B ∪ G) := hbucket.append hgroupText
    unfold AggregatePlan.groupBySQL
    split
    · next hempty =>
      rw [List.isEmpty_iff.mp hempty] at hparts
      rw [← hparts.2, refsOf_nil]
      exact plain_empty.mentions
    · exact Plain.before rfl (hparts.join rfl)
  have hinner : Mentions ("SELECT " ++ join ", " p.selectParts ++ " FROM " ++ p.tableName ++
      " WHERE " ++ p.whereSQL ++ p.groupBySQL ++ p.orderBySQL ++ " LIMIT " ++ toString p.limit)
      (B ∪ G ∪ M ∪ W ∪ (B ∪ G)) := by
    have hfrom : Mentions ("SELECT " ++ join ", " p.selectParts ++ " FROM " ++ p.tableName)
        (B ∪ G ∪ M) :=
      (Plain.before rfl (hselect.join rfl)).after_tail rfl (by decide) htable
    exact ((((hfrom.after rfl).append hwhere).append hgroupBy).after horder).after_tail rfl
      (by decide) (notMem_toString p.limit)
  have hunion : B ∪ G ∪ M ∪ W ∪ (B ∪ G) = W ∪ (B ∪ (G ∪ M)) := by
    ext n
    simp only [Set.mem_union]
    tauto
  rw [← hunion]
  exact (Plain.before rfl hinner).after rfl

theorem plain_aggregateOrderBySQL (input : AggregateInput)
    (h : ∀ m ∈ input.metrics, '$' ∉ m.alias.toList) : Plain (aggregateOrderBySQL input) := by
  unfold aggregateOrderBySQL
  split
  · rfl
  split
  · have halias : '$' ∉ ((input.metrics.head?.map AggregateMetric.alias).getD "").toList := by
      cases hmetrics : input.metrics with
      | nil => decide
      | cons m ms => exact h m (by simp [hmetrics])
    exact (Plain.append_of_notMem rfl (by decide) halias).append rfl
  · rfl

variable {entity : EntityDefinition} (hwf : entity.WellFormed)

include hwf

theorem spans_valueExpression (hfield : field ∈ entity.fields) :
    Spans (valueExpression field) Own := by
  unfold valueExpression
  split
  · exact spans_pure fun n => (plain_column hwf hfield).mentions_ioc n
  · exact spans_bind (spans_pushBind _ _) fun ph => spans_pure fun _ _ _ hph =>
      mentions_dataMember hph.2

theorem spans_timestampExpression (name : String) :
    Spans (timestampExpression name entity) Own := by
  unfold timestampExpression
  split
  · exact spans_pure (Plain.mentions_ioc rfl)
  split
  · exact spans_pure (Plain.mentions_ioc rfl)
  split
  · exact spans_fail
  next field hfield =>
  split
  · exact spans_fail
  · obtain ⟨hmem, _⟩ := EntityDefinition.mem_of_field?_eq_some hfield
    exact spans_bind (spans_valueExpression hwf hmem) fun s => spans_pure fun _ _ _ hs =>
      (Plain.before rfl hs).after rfl

theorem spans_aggregateFilterCondition (hfield : field ∈ entity.fields)
    {value value' : String} (h : value = "" ↔ value' = "") :
    SpansAlike (aggregateFilterCondition field value) (aggregateFilterCondition field value')
      Own := by
  refine spans_bind (spans_valueExpression hwf hfield) fun expr => ?_
  by_cases hvalue : value = ""
  · rw [if_pos hvalue, if_pos (h.mp hvalue)]
    exact spans_pure fun j i _ hexpr => hexpr.after rfl
  · rw [if_neg hvalue, if_neg (mt h.mpr hvalue)]
    refine spans_bind (spans_pushBind _ _) fun ph => spans_pure fun k j hjk hph i hij hexpr => ?_
    refine Mentions.append_ioc (hexpr.after rfl) (hph.2.after ?_) hij hjk
    split <;> rfl

theorem spans_groupExpression (groupBy : Option String) :
    Spans (groupExpression entity groupBy) fun p => OwnAll p.toList := by
  unfold groupExpression
  split
  · exact spans_pure mentionsAll_nil_ioc
  split
  · exact spans_fail
  next field hfield =>
  have hcheck : Spans (assertGroupable field entity) fun _ i j => i = j := by
    unfold assertGroupable
    split
    · exact spans_pure fun _ => rfl
    · exact spans_fail
  obtain ⟨hmem, _⟩ := EntityDefinition.mem_of_field?_eq_some hfield
  refine spans_bind hcheck fun _ => spans_map (spans_valueExpression hwf hmem) ?_
  intro s j k _ hs i _ hij
  subst hij
  exact hs.singleton

/-- A metric that can be planned names a declared field, if it names one. -/
theorem spans_metricColumn (metric : AggregateMetric) :
    Spans (metricColumn entity metric) fun c i j => Own c.1 i j ∧
      c.2 = metric.alias ∧ '$' ∉ metric.alias.toList := by
  obtain ⟨fn, field⟩ := metric
  have hfn := (plain_iff.mp (plain_sqlName fn)).2
  have hexpr : Spans (metricExpression entity ⟨fn, field⟩) fun s i j => Own s i j ∧
      '$' ∉ (AggregateMetric.alias ⟨fn, field⟩).toList := by
    cases field with
    | none =>
      simp only [metricExpression, AggregateMetric.alias]
      split
      · exact spans_pure fun n => ⟨Plain.mentions_ioc rfl n, hfn⟩
      · exact spans_fail
    | some name =>
      simp only [metricExpression, AggregateMetric.alias]
      split
      · exact spans_fail
      next field hfield =>
      obtain ⟨hmem, rfl⟩ := EntityDefinition.mem_of_field?_eq_some hfield
      have hname := notMem_of_isSafeFieldName (hwf.safe_names field hmem) (d := '$') (by decide)
      have halias : '$' ∉ (fn.sqlName ++ "_" ++ field.name).toList := by
        simp [String.toList_append, hfn, hname]
      split
      · exact spans_bind (spans_valueExpression hwf hmem) fun s => spans_pure fun _ _ _ hs =>
          ⟨(Plain.before rfl hs).after rfl, halias⟩
      split
      · exact spans_fail
      · have hnumeric : Spans (numericExpression field) Own :=
          spans_bind (spans_valueExpression hwf hmem) fun s => spans_pure fun _ _ _ hs =>
            (Plain.before rfl hs).after rfl
        have hcall : Plain (fn.sqlName ++ "(") := (plain_sqlName fn).append rfl
        exact spans_bind hnumeric fun s => spans_pure fun _ _ _ hs =>
          ⟨(hcall.before hs).after rfl, halias⟩
  exact spans_bind hexpr fun s => spans_pure fun _ _ _ hs => ⟨hs.1, rfl, hs.2⟩

theorem spans_metricColumns (metrics : List AggregateMetric) :
    Spans (metrics.mapM (metricColumn entity)) fun cs i j =>
      OwnAll (cs.map Prod.fst) i j ∧
        cs.map Prod.snd = metrics.map AggregateMetric.alias ∧
        ∀ m ∈ metrics, '$' ∉ m.alias.toList := by
  induction metrics with
  | nil => exact spans_pure fun n => ⟨mentionsAll_nil_ioc n, rfl, by simp⟩
  | cons m ms ih =>
    rw [List.mapM_cons]
    refine spans_bind (spans_metricColumn hwf m) fun c => spans_bind ih fun cs => ?_
    refine spans_pure fun k j hjk hcs i hij hc => ?_
    refine ⟨hc.1.singleton.append_ioc hcs.1 hij hjk, ?_, List.forall_mem_cons.mpr ⟨hc.2.2, hcs.2.2⟩⟩
    rw [List.map_cons, List.map_cons, hc.2.1, hcs.2.1]

variable {input' : AggregateInput} {input : AggregateInput} (h : SameAggregateShape input input')

include h

theorem spans_timeAxis :
    SpansAlike (timeAxis entity input) (timeAxis entity input') fun te i j => OwnAll te.toList i j ∧
      (te.isSome = true ↔ input.bucket.isSome ∨ input.since.isSome ∨ input.until.isSome) := by
  unfold timeAxis
  rw [← h.bucket, ← h.since, ← h.until, ← h.timeField]
  split
  · next hneeded =>
    exact spans_map (spans_timestampExpression hwf _) fun _ _ _ _ hs =>
      ⟨hs.singleton, iff_of_true rfl hneeded⟩
  · next hneeded =>
    exact spans_pure fun n => ⟨mentionsAll_nil_ioc n, iff_of_false (by simp) hneeded⟩

/-- The conditions an aggregation adds, and the time axis where the statement shows it. -/
theorem spans_aggregateConditions :
    SpansAlike (aggregateConditions entity input) (aggregateConditions entity input') fun p i j =>
      ∃ K B, MentionsAll p.1 K ∧
        MentionsAll (bucketExpression input.bucket p.2).toList B ∧ K ∪ B = Set.Ioc i j := by
  have hfilters := spans_mapM_mentions ((forall₂_aggregateFilters entity h.filters).imp
    (S := fun fv fv' => SpansAlike (aggregateFilterCondition fv.1 fv.2)
      (aggregateFilterCondition fv'.1 fv'.2) Own)
    fun fv fv' hfv => hfv.2.1 ▸ spans_aggregateFilterCondition hwf hfv.1 hfv.2.2)
  refine spans_bind hfilters fun filters => spans_bind (spans_timeAxis hwf h) fun te => ?_
  refine spans_bind (spans_timeCondition te rfl h.since) fun since => ?_
  refine spans_bind (spans_timeCondition te rfl h.until) fun before => ?_
  refine spans_pure fun m l hlm hbefore k hkl hsince j hjk hte i hij hfilters => ?_
  obtain ⟨S, hS, hSsub, hSnew, hST⟩ := hsince _ hte.1
  obtain ⟨U, hU, hUsub, hUnew, hUT⟩ := hbefore _ hte.1
  have hbucket := mentions_bucketExpression input.bucket hte.1 fun h => hte.2.mpr (.inl h)
  refine ⟨_, _, (hfilters.append hS).append hU, hbucket, ?_⟩
  have haxis : Set.Ioc j k ⊆
      Set.Ioc i j ∪ S ∪ U ∪ (if input.bucket.isSome then Set.Ioc j k else ∅) := by
    cases hsome : te with
    | none =>
      have hnone := hte.1.2
      rw [hsome, Option.toList_none, refsOf_nil] at hnone
      rw [← hnone]
      exact Set.empty_subset _
    | some t =>
      rcases hte.2.mp (by simp [hsome]) with hbucket | hbound | hbound
      · rw [if_pos hbucket]
        exact Set.subset_union_right
      · exact fun n hn => .inl (.inl (.inr (hST hbound hn)))
      · exact fun n hn => .inl (.inr (hUT hbound hn))
  apply Set.Subset.antisymm
  · intro n hn
    have hpart : n ∈ Set.Ioc i j ∨ n ∈ Set.Ioc j k ∨ n ∈ Set.Ioc k l ∨ n ∈ Set.Ioc l m := by
      rcases hn with ((hn | hn) | hn) | hn
      · exact .inl hn
      · exact .inr ((hSsub hn).imp id .inl)
      · exact .inr ((hUsub hn).imp id .inr)
      · split at hn
        · exact .inr (.inl hn)
        · exact absurd hn (Set.notMem_empty n)
    simp only [Set.mem_Ioc] at hpart ⊢
    omega
  · intro n hn
    have hpart : n ∈ Set.Ioc i j ∨ n ∈ Set.Ioc j k ∨ n ∈ Set.Ioc k l ∨ n ∈ Set.Ioc l m := by
      simp only [Set.mem_Ioc] at hn ⊢
      omega
    rcases hpart with hn | hn | hn | hn
    · exact .inl (.inl (.inl hn))
    · exact haxis hn
    · exact .inl (.inl (.inr (hSnew hn)))
    · exact .inl (.inr (hUnew hn))

theorem spans_aggregatePlan (parseUuid : String → Option Uuid) (tenant : Uuid)
    (ctx : RequestContext) (policies : List PolicyRow) :
    SpansAlike (aggregatePlan parseUuid entity tenant input ctx policies)
      (aggregatePlan parseUuid entity tenant input' ctx policies) fun plan i j =>
        i = 0 → Uses (NoEmptyTests policies ctx) (refs plan.sql) j := by
  refine spans_bind (spans_scopeConditions parseUuid tenant policies ctx) fun scope => ?_
  refine spans_bind (spans_aggregateConditions hwf h) ?_
  rintro ⟨requested, te⟩
  have horder : aggregateOrderBySQL input' = aggregateOrderBySQL input := by
    unfold aggregateOrderBySQL
    rw [h.bucket, h.groupBy, h.metrics]
  simp only [← h.groupBy, ← h.metrics, ← h.bucket, ← h.limit, horder]
  refine spans_bind (spans_groupExpression hwf input.groupBy) fun group => ?_
  refine spans_bind (spans_metricColumns hwf input.metrics) fun metrics => ?_
  refine spans_pure fun m l hlm ⟨hM, hsnd, halias⟩ k hkl hG j hjk ⟨K, B, hK, hB, hrequest⟩ i hij
    ⟨S, hS, hSsub, hSiff⟩ hi => ?_
  subst hi
  have hwhere : Mentions (join " AND " (scope ++ requested)) (S ∪ K) := (hS.append hK).join rfl
  have hcolumns : ∀ m ∈ metrics, '$' ∉ m.2.toList := by
    intro m hm
    have hmem : m.2 ∈ input.metrics.map AggregateMetric.alias :=
      hsnd ▸ List.mem_map_of_mem hm
    obtain ⟨metric, hmetric, hname⟩ := List.mem_map.mp hmem
    exact hname ▸ halias metric hmetric
  have htable := notMem_of_isSafeTableName hwf.safe_table (d := '$') (by decide) (by decide)
  have hsql := mentions_sql
    { bucketExpr := bucketExpression input.bucket te, groupExpr := group, metrics,
      tableName := entity.tableName, whereSQL := join " AND " (scope ++ requested),
      orderBySQL := aggregateOrderBySQL input, limit := clampInt64 input.limit 1 maxGroups }
    hB hG hM hcolumns htable hwhere (plain_aggregateOrderBySQL input halias)
  rw [hsql.2, Set.union_assoc]
  refine uses_of_union hSsub hSiff ?_ (hjk.trans (hkl.trans hlm))
  rw [← Set.union_assoc, hrequest, Set.Ioc_union_Ioc_eq_Ioc hkl hlm]
  exact Set.Ioc_union_Ioc_eq_Ioc hjk (hkl.trans hlm)

omit hwf in
/-- Aggregations of one shape are both refused, or planned to one text. -/
theorem planAggregate_alike (parseUuid : String → Option Uuid) (registry : MetadataRegistry)
    (entityName : String) (ctx : RequestContext) (policies : List PolicyRow) :
    SameOutcome (fun q q' => (q.sql = q'.sql ∧ q.params.length = q'.params.length) ∧
        Uses (NoEmptyTests policies ctx) (refs q.sql) q.params.length)
      (planAggregate parseUuid registry entityName input ctx policies)
      (planAggregate parseUuid registry entityName input' ctx policies) := by
  unfold planAggregate planAggregateParts
  rw [← h.metrics]
  cases hentity : registry.getEntity entityName with
  | none => exact .error _ _
  | some entity =>
    dsimp only
    split
    · exact .error _ _
    split
    · exact .error _ _
    cases scopedTenant parseUuid ctx with
    | error e => exact .error _ _
    | ok tenant =>
      have hwf := MetadataRegistry.wellFormed_of_getEntity hentity
      refine SameOutcome.bind (spans_aggregatePlan hwf h parseUuid tenant ctx policies [] [] rfl) ?_
      rintro ⟨plan, ws⟩ ⟨_, ws'⟩ ⟨⟨rfl, hws⟩, hspan⟩
      exact .ok ⟨⟨rfl, hws⟩, hspan.holds rfl⟩

end

/-! ## Plans -/

/-- The placeholders of a planned statement are among its parameters; every parameter has one
exactly when no translated policy tests membership in an empty list. -/
theorem plan_mentions_params_iff (parseUuid : String → Option Uuid)
    (readCursor : String → Option Cursor) (registry : MetadataRegistry) (entityName : String)
    (ctx : RequestContext) (policies : List PolicyRow) :
    (∀ input q, planList parseUuid readCursor registry entityName input ctx policies = .ok q →
      refs q.whereSQL ∪ refs q.orderBySQL ⊆ Set.Icc 1 q.params.length ∧
      (refs q.whereSQL ∪ refs q.orderBySQL = Set.Icc 1 q.params.length ↔
        NoEmptyTests policies ctx)) ∧
    ∀ input q, planAggregate parseUuid registry entityName input ctx policies = .ok q →
      refs q.sql ⊆ Set.Icc 1 q.params.length ∧
      (refs q.sql = Set.Icc 1 q.params.length ↔
        NoEmptyTests policies ctx) := by
  -- every request has its own shape
  constructor
  · intro input q h
    have hcursor : ∀ raw, SamePosition parseUuid readCursor raw raw := fun raw =>
      rel_refl (fun c => ⟨⟨rfl, rfl, rfl⟩, rfl⟩) _
    have halike := planList_alike (.refl readCursor input) (rel_refl hcursor input.cursor) registry
      entityName ctx policies
    rw [h] at halike
    cases halike with
    | ok hq => exact hq.2
  · intro input q h
    have halike := planAggregate_alike (SameAggregateShape.refl input) parseUuid registry entityName
      ctx policies
    rw [h] at halike
    cases halike with
    | ok hq => exact hq.2

/-- A filtered list with JQL and a count, under a policy that is translated. -/
theorem plan_mentions_params_task :
    let parseUuid := UuidCodec.dashed.parse
    (∃ q, planList parseUuid (fun _ => none) taskRegistry "app.task" taskListInput taskContext
        taskPolicies = .ok q ∧
      refs q.whereSQL ∪ refs q.orderBySQL = Set.Icc 1 q.params.length) ∧
    ∃ q, planAggregate parseUuid taskRegistry "app.task" taskAggregateInput taskContext
        taskPolicies = .ok q ∧ refs q.sql = Set.Icc 1 q.params.length := by
  intro parseUuid
  obtain ⟨hlist, haggregate⟩ :=
    plan_mentions_params_iff parseUuid (fun _ => none) taskRegistry "app.task" taskContext
      taskPolicies
  have htests : ∀ t ∈ translatedTests taskPolicies taskContext, ¬EmptyMembership taskContext t := by
    decide
  obtain ⟨q, hq⟩ := exists_planList_task
  obtain ⟨q', hq'⟩ := exists_planAggregate_task
  exact ⟨⟨q, hq, (hlist _ q hq).2.mpr htests⟩, ⟨q', hq', (haggregate _ q' hq').2.mpr htests⟩⟩

/-- Records labelled with one of no labels may be read: an allow that no record passes. -/
def unlabelledPolicies : List PolicyRow :=
  [{ action := "read", subject := "record"
     condition := some (.attribute "label" .in (.literal (some (.arr [])))) }]

/-- The name of the attribute is bound, and the constant written for the test leaves it out. -/
theorem planList_leaves_label_unmentioned :
    ∃ q, planList UuidCodec.dashed.parse (fun _ => none) taskRegistry "app.task" { limit := 10 }
        taskContext unlabelledPolicies = .ok q ∧
      q.whereSQL = "tenant_id = $1 AND deleted = false AND (false)" ∧
      q.params = [.uuid 7, .text "label"] ∧
      2 ∉ refs q.whereSQL ∪ refs q.orderBySQL := by
  obtain ⟨q, hq, hwhere, horder, hparams⟩ := exists_ok_of_decide
    (planList UuidCodec.dashed.parse (fun _ => none) taskRegistry "app.task" { limit := 10 }
      taskContext unlabelledPolicies)
    (fun q => q.whereSQL = "tenant_id = $1 AND deleted = false AND (false)" ∧
      q.orderBySQL = "created_at DESC NULLS FIRST, id ASC" ∧ q.params = [.uuid 7, .text "label"])
    (by decide +kernel)
  refine ⟨q, hq, hwhere, hparams, ?_⟩
  rw [hwhere, horder]
  have hnone : 2 ∉ placeholders "tenant_id = $1 AND deleted = false AND (false)".toList ∧
      2 ∉ placeholders "created_at DESC NULLS FIRST, id ASC".toList := by decide
  exact not_or.mpr hnone

end Metap.Query
