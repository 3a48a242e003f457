import Metap.Query.Meaning

/-!
# What a compiled JQL filter means

The generator is where user input meets SQL.  `builds_compileJqlExpr` says that whatever was
parsed, the generated text is a primary, so that no context can take it apart, and what it means:
every test the generator emits stands in parentheses, and what it puts inside them is a
placeholder, a column or a call.  So the text reads as one expression wherever it is placed, and
`jqlTruth` is the truth of that expression.
-/

namespace Metap.Query

open Sql Builder

/-- The type a field is compared at; text needs no cast. -/
def JqlFieldType.sqlType : JqlFieldType → Option SqlType
  | .number => some .float8
  | .money => some .numeric
  | .boolean => some .boolean
  | .date => some .date
  | .datetime => some .timestamptz
  | .uuid => some .uuid
  | .text => none

/-- The type of a field a query may name. -/
def jqlFieldType (entity : EntityDefinition) (name : String) : JqlFieldType :=
  if name = "createdAt" ∨ name = "updatedAt" then .datetime
  else ((entity.field? name).map fun f => jqlFieldTypeOf f.kind).getD .text

section

variable (pg : Backend) (entity : EntityDefinition) (row : String → Option Value)

/-- The left side of a test. -/
def jqlOperand (field : String) : Option Value :=
  castTo pg (jqlFieldType entity field).sqlType (resolvedValue pg entity field row)

/-- A value at the type of the field it is compared with. -/
def jqlBound (field : String) (value : JqlValue) : Option Value :=
  boundAt pg (jqlFieldType entity field).sqlType (jqlOperand pg entity row field)
    (some (.text (jqlValueToBindText value)))

def jqlCompareTruth (field : String) (op : JqlCompareOp) (value : JqlValue) : Truth :=
  if op = .contains ∨ op = .notContains then
    negateIf (decide (op = .notContains)) (strict₂ (ilikeOp pg) (jqlOperand pg entity row field)
      (some (.text (jqlIlikePattern (jqlValueToBindText value)))))
  else
    strict₂ (compareOp pg (jqlSqlOp op)) (jqlOperand pg entity row field)
      (jqlBound pg entity row field value)

mutual

/-- The truth the database gives a query's filter on a row. -/
def jqlTruth : JqlExpr → Truth
  | .and first rest => (jqlTruth first).and (jqlTruthAll rest)
  | .or first rest => (jqlTruth first).or (jqlTruthAny rest)
  | .not inner => (jqlTruth inner).not
  | .isEmpty field negate => nullTruth negate (jqlOperand pg entity row field)
  | .compare field op value => jqlCompareTruth pg entity row field op value
  | .inList field negate values =>
    negateIf negate
      (inTruth pg (jqlOperand pg entity row field) (values.map (jqlBound pg entity row field)))

def jqlTruthAll : List JqlExpr → Truth
  | [] => .tt
  | e :: es => (jqlTruth e).and (jqlTruthAll es)

def jqlTruthAny : List JqlExpr → Truth
  | [] => .ff
  | e :: es => (jqlTruth e).or (jqlTruthAny es)

end

theorem jqlTruthAll_eq_foldr (es : List JqlExpr) : jqlTruthAll pg entity row es =
      es.foldr (fun e t => (jqlTruth pg entity row e).and t) .tt := by
  induction es with
  | nil => rfl
  | cons e es ih => rw [jqlTruthAll, ih, List.foldr_cons]

theorem jqlTruthAny_eq_foldr (es : List JqlExpr) : jqlTruthAny pg entity row es =
      es.foldr (fun e t => (jqlTruth pg entity row e).or t) .ff := by
  induction es with
  | nil => rfl
  | cons e es ih => rw [jqlTruthAny, ih, List.foldr_cons]

end

end Query

namespace Reconciler

open Sql Query

/-- The type of the left side of a test. -/
def jqlOperandType (entity : EntityDefinition) (name : String) : Option PgType :=
  castTypeTo (jqlFieldType entity name).sqlType (resolvedType entity name)

theorem jqlOperandType_ne (entity : EntityDefinition) (name : String) :
    jqlOperandType entity name ≠ some .unknown := by
  unfold jqlOperandType
  cases (jqlFieldType entity name).sqlType with
  | none => exact resolvedType_ne entity name
  | some ty => exact castTypeTo_some_ne ty _

/-- A field is cast to the type of its kind, so it can be compared whenever it can be read. -/
theorem typeFits_jqlOperandType (entity : EntityDefinition) (name : String) {use : FieldUse}
    (huse : use = .read ∨ use = .equals) :
    typeFits (jqlFieldType entity name).sqlType (jqlOperandType entity name) use =
      nameFits entity name .read := by
  unfold jqlOperandType jqlFieldType resolvedType nameFits
  by_cases h : name = "createdAt" ∨ name = "updatedAt"
  · simp only [if_pos h]
    rcases huse with rfl | rfl <;> rfl
  simp only [if_neg h]
  cases entity.field? name with
  | none => rcases huse with rfl | rfl <;> rfl
  | some f =>
    simp only [Option.map_some, Option.getD_some, Option.all_some, fieldType, fieldFits,
      columnFits, ownColumnType]
    cases fieldHasRealColumn f with
    | false => rcases huse with rfl | rfl <;> cases f.kind <;> rfl
    | true =>
      rcases huse with rfl | rfl <;> cases mirrorColumns.contains f.name <;>
        cases boolOrFalse f.searchable <;> cases boolOrFalse f.unique <;> cases f.kind <;> rfl

/-- A text is not cast, so it is matched at the type it has. -/
theorem asText_jqlOperandType {entity : EntityDefinition} {name : String}
    (htext : jqlFieldType entity name = .text) :
    (jqlOperandType entity name).any PgType.asText = nameFits entity name .text := by
  rw [← typeFits_resolvedType, jqlOperandType, htext]
  rfl

end Reconciler

namespace Query

open Sql Builder Reconciler

theorem isCastSuffix_jqlCastSuffix (ftype : JqlFieldType) :
    IsCastSuffix (jqlCastSuffix ftype) ftype.sqlType := by
  cases ftype <;>
    first
    | exact ⟨⟨_, _, _, rfl, rfl, rfl⟩, by simp [Delimited, jqlCastSuffix]; decide⟩
    | rfl

theorem separates_jqlOp (op : JqlCompareOp) :
    Separates (" " ++ jqlOpText op ++ " ") [.op (jqlSqlOp op)] := by
  cases op <;> simp only [jqlOpText, jqlSqlOp] <;>
    exact ⟨rfl, by simp [Delimited]; decide, by simp⟩

section

variable {entity : EntityDefinition} (hwf : entity.WellFormed) (pg : Backend)
include hwf

theorem builds_resolveJqlField (name : String) : Builds (resolveJqlField name entity) fun r fin =>
      r.2 = jqlFieldType entity name ∧ Denotes pg (columnTypings entity) .prim fin r.1
        (resolvedValue pg entity name) (resolvedType entity name) := by
  unfold resolveJqlField
  split
  · next hname =>
    subst hname
    exact builds_pure fun fin => ⟨by simp [jqlFieldType], denotes_created_at⟩
  next hcreated =>
  split
  · next hname =>
    subst hname
    exact builds_pure fun fin => ⟨by simp [jqlFieldType], denotes_updated_at⟩
  next hupdated =>
  have hname := not_or.mpr ⟨hcreated, hupdated⟩
  cases hfield : entity.field? name with
  | none => exact builds_fail
  | some field =>
    obtain ⟨-, rfl⟩ := EntityDefinition.mem_of_field?_eq_some hfield
    have htype : jqlFieldTypeOf field.kind = jqlFieldType entity field.name := by
      simp [jqlFieldType, hcreated, hupdated, hfield]
    dsimp only
    split
    · next hreal => exact builds_pure fun fin => ⟨htype, denotes_name_column hwf hname hfield hreal⟩
    · next hreal =>
      refine builds_bind (builds_pushBind pg _) fun ph => builds_pure fun fin hph => ⟨htype, ?_⟩
      exact denotes_name_member hname (by simpa [hfield] using hreal) (hph _)

variable {fin : List BindValue}

omit hwf in
theorem denotes_jqlLhs {pg : Backend} {name : String} {r : String × JqlFieldType}
    (h : r.2 = jqlFieldType entity name ∧ Denotes pg (columnTypings entity) .prim fin r.1
      (resolvedValue pg entity name) (resolvedType entity name)) :
    Denotes pg (columnTypings entity) .cast fin (jqlLhs r.1 r.2)
      (fun row => jqlOperand pg entity row name) (jqlOperandType entity name) := by
  obtain ⟨htype, hread⟩ := h
  have hcast := (hread.paren (by decide)).castTo (isCastSuffix_jqlCastSuffix r.2)
  rw [htype] at hcast ⊢
  exact hcast

variable (field : String)

theorem builds_compileIsEmpty (negate : Bool) :
    Builds (compileIsEmpty entity field negate) fun s fin =>
      Means pg (columnTypings entity) .prim fin s
        (fun row => jqlTruth pg entity row (.isEmpty field negate))
        (jqlFits entity (.isEmpty field negate)) := by
  refine builds_bind (builds_resolveJqlField hwf pg field) fun r => builds_pure fun fin hr => ?_
  simp only [jqlTruth]
  rw [jqlFits, ← typeFits_jqlOperandType entity field (.inl rfl)]
  exact ((denotes_jqlLhs hr).isNull negate).paren (by decide)

theorem builds_compileCompare (op : JqlCompareOp) (value : JqlValue) :
    Builds (compileCompare entity field op value) fun s fin =>
      Means pg (columnTypings entity) .prim fin s
        (fun row => jqlTruth pg entity row (.compare field op value))
        (jqlFits entity (.compare field op value)) := by
  refine builds_bind (builds_resolveJqlField hwf pg field) fun r => ?_
  have hvalid : Builds (validateJqlOp op r.2 field) fun _ _ => jqlOpSupported op r.2 = true := by
    unfold validateJqlOp
    split
    · next h => exact builds_pure fun _ => h
    · exact builds_fail
  refine builds_bind hvalid fun _ => ?_
  simp only [jqlTruth, jqlCompareTruth, jqlFits]
  split
  · next hop =>
    cases value with
    | bool b => exact builds_fail
    | str s =>
      refine builds_bind (builds_pushBind pg _) fun ph => builds_pure fun fin hph hvalid hr => ?_
      -- the substring operators are refused on every type but text, which is not cast
      have htext : jqlFieldType entity field = .text := by
        rw [← hr.1]
        rcases hop with rfl | rfl <;> simpa [jqlOpSupported] using hvalid
      have hilike := (denotes_jqlLhs hr).ilike (decide (op = .notContains)) (hph _).operand
      rw [asText_jqlOperandType htext] at hilike
      simp only [decide_eq_true_eq] at hilike
      exact hilike.paren (by decide)
  · refine builds_bind (builds_pushBind pg _) fun ph => builds_pure fun fin hph _ hr => ?_
    have hcomparison : (jqlSqlOp op).isComparison = true := by cases op <;> rfl
    rw [← typeFits_jqlOperandType entity field (.inr rfl)]
    have hmeans := (denotes_jqlLhs hr).compares (jqlOperandType_ne entity field)
      ((hph _).bound (isCastSuffix_jqlCastSuffix r.2)) (separates_jqlOp op) hcomparison
    simp only [boundAs_castTo] at hmeans
    rw [hr.1] at hmeans ⊢
    exact hmeans.paren (by decide)

theorem builds_compileIn (negate : Bool) (values : List JqlValue) :
    Builds (compileIn entity field negate values) fun s fin =>
      Means pg (columnTypings entity) .prim fin s
        (fun row => jqlTruth pg entity row (.inList field negate values))
        (jqlFits entity (.inList field negate values)) := by
  unfold compileIn
  split
  · exact builds_fail
  next hne =>
  refine builds_bind (builds_resolveJqlField hwf pg field) fun r => ?_
  have hbound (v : JqlValue) : Builds (do
      let ph ← pushBind (.text (jqlValueToBindText v))
      return ph ++ jqlCastSuffix r.2) fun s fin => Denotes pg (columnTypings entity) .cast fin s
        (fun _ => castTo pg r.2.sqlType (some (.text (jqlValueToBindText v))))
          (some (boundType r.2.sqlType)) :=
    builds_bind (builds_pushBind pg _) fun ph => builds_pure fun fin hph =>
      (hph _).bound (isCastSuffix_jqlCastSuffix r.2)
  refine builds_bind (builds_mapM values fun v _ => hbound v) fun phs => ?_
  refine builds_pure fun fin hphs hr => ?_
  simp only [jqlTruth]
  rw [jqlFits, ← typeFits_jqlOperandType entity field (.inr rfl)]
  have hmeans := (denotes_jqlLhs hr).memberOf negate (jqlOperandType_ne entity field) hphs
    (by simpa using hne)
  simp only [boundAs_castTo] at hmeans
  rw [hr.1] at hmeans ⊢
  exact hmeans.paren (by decide)

end

mutual

/-- The text compiled from a filter means its truth, is in order exactly when its uses of fields
fit, and is a primary. -/
theorem builds_compileJqlExpr {entity : EntityDefinition} (hwf : entity.WellFormed)
    (pg : Backend) : (e : JqlExpr) → Builds (compileJqlExpr entity e) fun s fin =>
      Means pg (columnTypings entity) .prim fin s (fun row => jqlTruth pg entity row e)
        (jqlFits entity e)
  | .and first rest => by
    simp only [compileJqlExpr, jqlTruth, jqlTruthAll_eq_foldr, jqlFits, jqlFitsAll_eq_all]
    refine builds_bind (builds_compileJqlExpr hwf pg first) fun s => ?_
    refine builds_bind (builds_compileJqlExprs hwf pg rest) fun ss => builds_pure ?_
    intro fin hss hs
    exact means_group (.cons hs hss) .and (by simp) (by decide)
  | .or first rest => by
    simp only [compileJqlExpr, jqlTruth, jqlTruthAny_eq_foldr, jqlFits, jqlFitsAll_eq_all]
    refine builds_bind (builds_compileJqlExpr hwf pg first) fun s => ?_
    refine builds_bind (builds_compileJqlExprs hwf pg rest) fun ss => builds_pure ?_
    intro fin hss hs
    exact means_group (.cons hs hss) .or (by simp) (by decide)
  | .not inner => by
    simp only [compileJqlExpr, jqlTruth, jqlFits]
    refine builds_bind (builds_compileJqlExpr hwf pg inner) fun s => builds_pure fun fin hs => ?_
    exact hs.condition.not.paren (by decide)
  | .isEmpty field negate => by
    simp only [compileJqlExpr]
    exact builds_compileIsEmpty hwf pg field negate
  | .compare field op value => by
    simp only [compileJqlExpr]
    exact builds_compileCompare hwf pg field op value
  | .inList field negate values => by
    simp only [compileJqlExpr]
    exact builds_compileIn hwf pg field negate values

theorem builds_compileJqlExprs {entity : EntityDefinition} (hwf : entity.WellFormed)
    (pg : Backend) : (es : List JqlExpr) → Builds (compileJqlExprs entity es) fun ss fin =>
      List.Forall₂ (fun e s => Means pg (columnTypings entity) .prim fin s
        (fun row => jqlTruth pg entity row e) (jqlFits entity e)) es ss
  | [] => by
    simp only [compileJqlExprs]
    exact builds_pure fun _ => .nil
  | e :: es => by
    simp only [compileJqlExprs]
    refine builds_bind (builds_compileJqlExpr hwf pg e) fun s => ?_
    refine builds_bind (builds_compileJqlExprs hwf pg es) fun ss => builds_pure ?_
    exact fun _ hss hs => .cons hs hss

end

theorem builds_parseAndCompileJQL {entity : EntityDefinition} (hwf : entity.WellFormed)
    (pg : Backend) (jql : String) : Builds (parseAndCompileJQL jql entity) fun r fin =>
      r.2 = jqlOrder (some jql) ∧
        MeanAll pg (columnTypings entity) fin
          ((jqlFilter (some jql)).map fun e row => jqlTruth pg entity row e)
          ((jqlFilter (some jql)).map (jqlFits entity)) r.1.toList := by
  unfold parseAndCompileJQL
  split
  · exact builds_fail
  next parsed hparsed =>
  have hread : parseJql jql = .ok parsed := hparsed
  have hfilter : jqlFilter (some jql) = parsed.expr.toList := by
    rw [jqlFilter, Option.map_some, hread]
  have horder : jqlOrder (some jql) = parsed.orderBy := by
    rw [jqlOrder, Option.map_some, hread]
  rw [hfilter, horder]
  have hwhere : Builds (compileWhere entity parsed.expr) fun r fin =>
      MeanAll pg (columnTypings entity) fin
        (parsed.expr.toList.map fun e row => jqlTruth pg entity row e)
        (parsed.expr.toList.map (jqlFits entity)) r.toList := by
    cases parsed.expr with
    | none => exact builds_pure fun _ => .nil
    | some e =>
      exact builds_map (builds_compileJqlExpr hwf pg e) fun s _ hs => .cons hs.condition .nil
  refine builds_bind hwhere fun r => ?_
  cases parsed.orderBy with
  | none => exact builds_pure fun _ hr => ⟨rfl, hr⟩
  | some order =>
    dsimp only
    split
    · exact builds_pure fun _ hr => ⟨rfl, hr⟩
    · exact builds_fail

end Metap.Query
