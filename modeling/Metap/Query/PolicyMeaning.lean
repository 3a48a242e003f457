import Metap.Query.Meaning

/-!
# What the text of record policies means

`builds_conditionToSQL` and `builds_recordPolicyWhereClause` say that the text generated for a
condition, lexed and parsed with operator precedence, denotes its `sqlTruth`.  A policy names the
columns of the framework and members of `data` only, so its clause passes the database's check on
every table.
-/

namespace Metap.Query

open Sql Builder Reconciler

section

variable {parseUuid : String → Option Uuid} {fin : List BindValue}

/-! ## Leaves -/

/-- The types a policy's attribute may have. -/
def admits : ColType → PgType → Bool
  | .uuid, t => t = .uuid
  | .timestamptz, t => t = .timestamptz
  | .text, t => t.isText

/-- The type of a value a policy's attribute is compared with. -/
def scalarType : ColType → PgType
  | .timestamptz => .timestamptz
  | _ => .unknown

theorem comparesWith_scalarType {ct : ColType} {t : PgType} (h : admits ct t = true) :
    comparesWith (some t) (some (scalarType ct)) = true := by
  cases ct <;> cases t <;> first | rfl | cases h

theorem ne_unknown_of_admits {ct : ColType} {t : PgType} (h : admits ct t = true) :
    some t ≠ some PgType.unknown := by
  rintro ⟨⟩
  cases ct <;> cases h

theorem boundAs_scalarValue (pg : Backend) (ct : ColType) (v : Option Value)
    (value : Option Json) :
    boundAs pg (some (scalarType ct)) v (scalarValue parseUuid pg ct value) =
      boundValue parseUuid pg ct v value := by
  cases ct <;> rfl

/-- `r` is the text and the column type of an attribute. -/
structure IsFieldText (pg : Backend) (attr : String) (r : String × ColType)
    (fin : List BindValue) : Prop where
  colType : r.2 = fieldColType attr
  denotes : ∃ t, admits r.2 t = true ∧
    Denotes pg frameworkTypings .prim fin r.1 (fun row => fieldValue pg row attr) (some t)

variable (pg : Backend) (ctx : RequestContext) (attr : String) (r : String × ColType)

theorem builds_fieldExpression : Builds (fieldExpression attr) (IsFieldText pg attr) := by
  unfold fieldExpression
  split
  · exact builds_fail
  cases hcolumn : attributeColumn attr with
  | some column =>
    refine builds_pure fun fin => ⟨by simp [fieldColType, hcolumn], ?_⟩
    have hvalue : (fun row => fieldValue pg row attr) = fun row => row column.1 := by
      simp [fieldValue, hcolumn]
    rw [hvalue]
    unfold attributeColumn at hcolumn
    split at hcolumn <;> simp only [Option.some.injEq, reduceCtorEq] at hcolumn <;>
      subst hcolumn <;>
      exact ⟨_, rfl, denotes_framework ⟨[], _, _, rfl, rfl, rfl⟩ (by decide) subset_rfl⟩
  | none =>
    refine builds_bind (builds_pushBind pg _) fun ph => builds_pure fun fin hph => ?_
    exact ⟨by simp [fieldColType, hcolumn], .text, rfl,
      by simpa [fieldValue, memberValue, hcolumn] using denotes_dataField subset_rfl (hph _)⟩

theorem builds_jsonScalarToText (value : Option Json) :
    Builds (jsonScalarToText value) fun s _ => scalarText value = some s := by
  unfold jsonScalarToText
  cases h : scalarText value with
  | some s => exact builds_pure fun _ => rfl
  | none => exact builds_fail

theorem builds_bindScalar (ct : ColType) (value : Option Json) :
    Builds (bindScalar parseUuid ct value) fun s fin =>
      Denotes pg frameworkTypings .cast fin s (fun _ => scalarValue parseUuid pg ct value)
        (some (scalarType ct)) := by
  cases ct with
  | uuid =>
    simp only [bindScalar]
    cases hs : value.bind Json.decodeString with
    | none => exact builds_fail
    | some s =>
      cases hu : parseUuid s with
      | none => simpa [hu] using builds_fail
      | some u =>
        simp only [hu]
        refine (builds_pushBind pg _).mono fun ph fin hph => ?_
        simpa [scalarValue, hs, hu, BindValue.arg, scalarType] using (hph _).operand
  | timestamptz =>
    refine builds_bind (builds_jsonScalarToText value) fun text => ?_
    refine builds_bind (builds_pushBind pg _) fun ph => builds_pure fun fin hph htext => ?_
    simpa [scalarValue, htext, BindValue.arg, castTo, castOp, boundType, SqlType.pgType,
      scalarType] using
      (hph _).bound isCastSuffix_timestamptz
  | text =>
    refine builds_bind (builds_jsonScalarToText value) fun text => ?_
    refine (builds_pushBind pg _).mono fun ph fin hph htext => ?_
    simpa [scalarValue, htext, BindValue.arg, scalarType] using (hph _).operand

/-- Both sides of an ordering test can be compared. -/
theorem builds_comparableExprAndValue (expr : String) (ct : ColType) (expected : Option Json)
    (v : (String → Option Value) → Option Value) :
    Builds (comparableExprAndValue parseUuid expr ct expected) fun r fin => ∀ {t : PgType},
      admits ct t = true → Denotes pg frameworkTypings .prim fin expr v (some t) →
        ∃ t₁ t₂ w, some t₁ ≠ some PgType.unknown ∧ comparesWith (some t₁) (some t₂) = true ∧
          Denotes pg frameworkTypings .cast fin r.1
            (fun row => (orderedOperands parseUuid pg ct (v row) expected).1) (some t₁) ∧
          Denotes pg frameworkTypings .cast fin r.2 (fun _ => w) (some t₂) ∧
          ∀ row, boundAs pg (some t₂) (orderedOperands parseUuid pg ct (v row) expected).1 w =
            (orderedOperands parseUuid pg ct (v row) expected).2 := by
  cases ct with
  | uuid => exact builds_fail
  | timestamptz =>
    refine builds_bind (builds_jsonScalarToText expected) fun text => ?_
    refine builds_bind (builds_pushBind pg _) fun ph =>
      builds_pure fun fin hph htext t ht hexpr => ?_
    refine ⟨t, _, _, ne_unknown_of_admits ht, comparesWith_scalarType ht, hexpr.operand,
      (hph _).bound isCastSuffix_timestamptz, fun row => ?_⟩
    simp only [orderedOperands, boundValue, scalarValue, htext]
    rfl
  | text =>
    simp only [comparableExprAndValue]
    by_cases hnum : (expected.bind Json.decodeNumber).isSome = true
    · rw [if_pos hnum]
      refine builds_bind (builds_jsonScalarToText expected) fun text => ?_
      refine builds_bind (builds_pushBind pg _) fun ph =>
        builds_pure fun fin hph htext t ht hexpr => ?_
      have hl := ((hexpr.paren (by decide)).castTo isCastSuffix_numeric).of_text
        (u := "(" ++ expr ++ ")::numeric") (by simp)
      have hnumeric : castTypeTo (some .numeric) (some t) = some .numeric := by
        cases t <;> first | rfl | cases ht
      rw [hnumeric] at hl
      refine ⟨.numeric, .numeric, _, by decide, rfl,
        by simpa only [orderedOperands, if_pos hnum, castTo] using hl,
        (hph _).bound isCastSuffix_numeric, fun row => ?_⟩
      simp only [orderedOperands, if_pos hnum, htext]
      rfl
    · rw [if_neg hnum]
      refine builds_bind (builds_bindScalar pg .text expected) fun rhs => builds_pure ?_
      intro fin hrhs t ht hexpr
      exact ⟨t, _, _, ne_unknown_of_admits ht, comparesWith_scalarType ht,
        by simpa [orderedOperands, hnum] using hexpr.operand, hrhs,
        fun _ => by simp only [orderedOperands, if_neg hnum, boundAs_scalarValue]⟩

theorem separates_ordering (op : ConditionOp) :
    Separates (" " ++ orderingOpText op ++ " ") [.op (sqlOrderingOp op)] := by
  cases op <;> simp only [orderingOpText, sqlOrderingOp] <;>
    exact ⟨rfl, by simp [Delimited]; decide, by simp⟩

/-- An equality test. -/
theorem builds_equality (expected : Option Json) {o : Op} {sep : String}
    (hsep : Separates sep [.op o]) (ho : o.isComparison = true) :
    Builds (bindScalar parseUuid r.2 expected >>= fun ph => pure (r.1 ++ sep ++ ph)) fun s fin =>
      IsFieldText pg attr r fin → Means pg frameworkTypings .not fin s (fun row =>
        strict₂ (compareOp pg o) (fieldValue pg row attr)
          (boundValue parseUuid pg (fieldColType attr) (fieldValue pg row attr) expected))
        true := by
  refine builds_bind (builds_bindScalar pg r.2 _) fun ph => builds_pure fun fin hph hfield => ?_
  obtain ⟨hct, t, ht, hexpr⟩ := hfield
  have hmeans := hexpr.operand.compares (ne_unknown_of_admits ht) hph hsep ho
  simp only [boundAs_scalarValue, comparesWith_scalarType ht] at hmeans
  rwa [← hct]

/-- An ordering test. -/
theorem builds_ordering (expected : Option Json) (o : ConditionOp) :
    Builds (comparableExprAndValue parseUuid r.1 r.2 expected >>= fun q =>
        pure (q.1 ++ " " ++ orderingOpText o ++ " " ++ q.2)) fun s fin =>
      IsFieldText pg attr r fin → Means pg frameworkTypings .not fin s (fun row =>
        let operands := orderedOperands parseUuid pg (fieldColType attr)
          (fieldValue pg row attr) expected
        strict₂ (compareOp pg (sqlOrderingOp o)) operands.1 operands.2) true := by
  refine builds_bind (builds_comparableExprAndValue pg r.1 r.2 expected
    fun row => fieldValue pg row attr) fun q => builds_pure fun fin hq hfield => ?_
  obtain ⟨hct, t, ht, hexpr⟩ := hfield
  obtain ⟨t₁, t₂, w, htyped, hcompares, hl, hr, hbound⟩ := hq ht hexpr
  have ho : (sqlOrderingOp o).isComparison = true := by cases o <;> rfl
  have hmeans := hl.compares htyped hr (separates_ordering o) ho
  simp only [hbound, hcompares, String.append_assoc] at hmeans
  simpa only [← hct, String.append_assoc] using hmeans

/-- A membership test; over no values it is a constant. -/
theorem builds_membership (values : List Json) (negated : Bool) :
    Builds (if values.isEmpty then pure (if negated then "true" else "false")
      else values.mapM (fun v => bindScalar parseUuid r.2 (some v)) >>= fun phs =>
        pure (r.1 ++ (if negated then " NOT IN (" else " IN (") ++ (join ", " phs ++ ")")))
      fun s fin => IsFieldText pg attr r fin → Means pg frameworkTypings .not fin s (fun row =>
        negateIf negated (sqlIn parseUuid pg (fieldValue pg row attr) (fieldColType attr) values))
        true := by
  split
  · next hnil =>
    refine builds_pure fun fin _ => ?_
    obtain rfl := List.isEmpty_iff.mp hnil
    have hb : Means pg frameworkTypings .prim fin _ _ _ := means_bool fin negated
    cases negated <;> exact hb.condition
  · next hne =>
    refine builds_bind (builds_mapM _ fun v _ => builds_bindScalar pg r.2 (some v)) fun phs => ?_
    refine builds_pure fun fin hphs hfield => ?_
    obtain ⟨hct, t, ht, hexpr⟩ := hfield
    have hmember := hexpr.operand.memberOf negated (ne_unknown_of_admits ht) hphs
      (by simpa using hne)
    rw [comparesWith_scalarType ht, hct] at hmember
    simpa only [inTruth, List.foldr_map, sqlIn, boundAs_scalarValue] using hmember

theorem builds_leafToSQL (op : ConditionOp) (value : PolicyValue) :
    Builds (leafToSQL parseUuid ctx attr op value) fun s fin => Means pg frameworkTypings .not fin s
      (fun row => leafTruth parseUuid pg ctx row attr op value) true := by
  unfold leafToSQL
  split
  · next hctx =>
    refine builds_pure fun fin => ?_
    simpa [leafTruth, hctx] using (means_bool fin _).condition
  next hctx =>
  split
  · exact builds_fail
  refine builds_bind (builds_fieldExpression pg attr) fun r => ?_
  simp only [leafTruth, if_neg hctx]
  cases op with
  | eq => exact builds_equality pg attr r _ separates_eq rfl
  | neq => exact builds_equality pg attr r _ separates_ne rfl
  | «in» => exact builds_membership pg attr r _ false
  | notIn => exact builds_membership pg attr r _ true
  | gt => exact builds_ordering pg attr r _ .gt
  | gte => exact builds_ordering pg attr r _ .gte
  | lt => exact builds_ordering pg attr r _ .lt
  | lte => exact builds_ordering pg attr r _ .lte
  | contains | notContains | other text => exact builds_fail

/-! ## Trees and clauses -/

theorem sqlTruthAll_eq_foldr (row : String → Option Value) (cs : List PolicyCondition) :
    sqlTruthAll parseUuid pg ctx row cs =
      cs.foldr (fun c t => (sqlTruth parseUuid pg ctx row c).and t) .tt := by
  induction cs with
  | nil => rfl
  | cons c cs ih => simp [sqlTruthAll, ih]

theorem sqlTruthAny_eq_foldr (row : String → Option Value) (cs : List PolicyCondition) :
    sqlTruthAny parseUuid pg ctx row cs =
      cs.foldr (fun c t => (sqlTruth parseUuid pg ctx row c).or t) .ff := by
  induction cs with
  | nil => rfl
  | cons c cs ih => simp [sqlTruthAny, ih]

/-- Conditions that pass the check, joined in parentheses. -/
theorem means_clauses {pg : Backend} {C : Set (String → Option PgType)} (ch : Chain) {α : Type}
    {xs : List α} {ss : List String} {f : α → (String → Option Value) → Truth}
    (h : List.Forall₂ (fun x s => Means pg C .not fin s (f x) true) xs ss) (hne : xs ≠ []) :
    Means pg C .prim fin ("(" ++ join ch.sep ss ++ ")")
      (fun row => xs.foldr (fun x t => ch.combine (f x row) t) ch.unit) true := by
  have hgroup := means_group (g := fun _ => true) h ch hne (Nat.le_refl _)
  rwa [List.all_eq_true.mpr fun _ _ => rfl] at hgroup

mutual

/-- The text of a condition means its truth. -/
theorem builds_conditionToSQL (pg : Backend) (ctx : RequestContext) :
    (c : PolicyCondition) → Builds (conditionToSQL parseUuid ctx c) fun s fin =>
      Means pg frameworkTypings .not fin s (fun row => sqlTruth parseUuid pg ctx row c) true
  | .all [] => by
    simp only [conditionToSQL, sqlTruth, sqlTruthAll]
    exact builds_pure fun fin => (means_bool fin true).condition
  | .all (c :: cs) => by
    simp only [conditionToSQL, sqlTruth, sqlTruthAll_eq_foldr]
    refine builds_bind (builds_conditionsToSQL pg ctx (c :: cs)) fun ss => builds_pure ?_
    exact fun fin hss => (means_clauses .and hss (by simp)).condition
  | .any [] => by
    simp only [conditionToSQL, sqlTruth, sqlTruthAny]
    exact builds_pure fun fin => (means_bool fin false).condition
  | .any (c :: cs) => by
    simp only [conditionToSQL, sqlTruth, sqlTruthAny_eq_foldr]
    refine builds_bind (builds_conditionsToSQL pg ctx (c :: cs)) fun ss => builds_pure ?_
    exact fun fin hss => (means_clauses .or hss (by simp)).condition
  | .attribute attr op value => by
    simp only [conditionToSQL, sqlTruth]
    exact builds_leafToSQL pg ctx attr op value

theorem builds_conditionsToSQL (pg : Backend) (ctx : RequestContext) :
    (cs : List PolicyCondition) → Builds (conditionsToSQL parseUuid ctx cs) fun ss fin =>
      List.Forall₂ (fun c s => Means pg frameworkTypings .not fin s
        (fun row => sqlTruth parseUuid pg ctx row c) true) cs ss
  | [] => by
    simp only [conditionsToSQL]
    exact builds_pure fun _ => .nil
  | c :: cs => by
    simp only [conditionsToSQL]
    refine builds_bind (builds_conditionToSQL pg ctx c) fun s => ?_
    refine builds_bind (builds_conditionsToSQL pg ctx cs) fun ss => ?_
    exact builds_pure fun _ hss hs => .cons hs hss

end

theorem builds_policyClause (policy : PolicyRow) :
    Builds (policyClause parseUuid ctx policy) fun s fin => Means pg frameworkTypings .not fin s
      (fun row => policyTruth parseUuid pg ctx row policy) true := by
  unfold policyClause policyTruth
  cases policy.condition with
  | some c => exact builds_conditionToSQL pg ctx c
  | none => exact builds_pure fun fin => (means_bool fin true).condition

/-- What the clause of an action's record policies is: absent for an administrator or when there
is no policy, otherwise a text meaning `recordPolicyTruth` that no context can take apart. -/
def IsPolicyClause (parseUuid : String → Option Uuid) (pg : Backend) (rows : List PolicyRow)
    (ctx : RequestContext) (clause : Option String) (fin : List BindValue) : Prop :=
  match clause with
  | none => rows = [] ∨ ctx.isAdmin = true
  | some s => ¬(rows = [] ∨ ctx.isAdmin = true) ∧ Means pg frameworkTypings .prim fin s
      (fun row => recordPolicyTruth parseUuid pg rows ctx row) true

theorem builds_recordPolicyWhereClause (rows : List PolicyRow) (ctx : RequestContext) :
    Builds (recordPolicyWhereClause parseUuid rows ctx) (IsPolicyClause parseUuid pg rows ctx) := by
  unfold recordPolicyWhereClause
  split
  · next h => exact builds_pure fun fin => by simpa [IsPolicyClause] using h
  next h =>
  have hrestricted : ¬(rows = [] ∨ ctx.isAdmin = true) := by simpa using h
  dsimp only
  split
  · next hallow =>
    refine builds_pure fun fin => ⟨hrestricted, ?_⟩
    have hff : Means pg frameworkTypings .prim fin "false" (fun _ => .ff) true :=
      means_bool fin false
    simpa [recordPolicyTruth, List.isEmpty_iff.mp hallow, anyPolicyTruth, Truth.and] using hff
  next hallow =>
  refine builds_bind (builds_mapM _ fun p _ => builds_policyClause pg ctx p) fun allows => ?_
  split
  · next hdeny =>
    refine builds_pure fun fin hallows => ⟨hrestricted, ?_⟩
    have hany := means_clauses .or hallows (by simpa using hallow)
    simpa [recordPolicyTruth, List.isEmpty_iff.mp hdeny, anyPolicyTruth, Truth.not,
      Chain.sep, Chain.combine, Chain.unit] using hany
  · next hdeny =>
    refine builds_bind (builds_mapM _ fun p _ => builds_policyClause pg ctx p) fun denies => ?_
    refine builds_pure fun fin hdenies hallows => ⟨hrestricted, ?_⟩
    have hallowed := (means_clauses .or hallows (by simpa using hallow)).condition
    have hdenied := (means_clauses .or hdenies (by simpa using hdeny)).condition.not
    exact (hallowed.pair .and hdenied).of_text (by simp [Chain.sep])

end

end Metap.Query
