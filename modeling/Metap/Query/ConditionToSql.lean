import Metap.Framework.Builder
import Metap.Framework.Sql.Eval
import Metap.Framework.Sql.Text
import Metap.Permission.Snapshot

/-!
# Policy conditions as SQL text

A list query cannot evaluate record policies one record at a time, so the planner translates them
to a `WHERE` fragment.  `conditionToSQL` is that translation for one condition and
`recordPolicyWhereClause` for the policies of an action; both build text by concatenation and
bind every value as a numbered parameter.

What the text means is stated without text: `sqlTruth` is the three-valued truth the database
gives a condition on a row.  That the generated text, lexed and parsed with operator precedence,
denotes exactly that is proved in `PolicyMeaning.lean`.
-/

namespace Metap.Query

open Sql Builder

/-! ## Parameters -/

/-- A value bound to a placeholder. -/
inductive BindValue where
  | text (s : String)
  | bool (b : Bool)
  | uuid (u : Uuid)
  deriving DecidableEq

def BindValue.arg : BindValue → Value
  | .text s => .text s
  | .bool b => .bool b
  | .uuid u => .uuid u

/-- The planner's errors.  The ones that quote an attribute keep it. -/
inductive QueryError where
  | crossRecordConditionInList (attr : String)
  | unsupportedContainsConditionInList (attr : String)
  | unknownConditionOp (op : String)
  | invalidUUID (text : String)
  | invalidCursor
  | unknownListView (name : String)
  | jql (message : String)
  | invalidAggregate (message : String)
  | other (message : String)
  deriving DecidableEq, Repr

/-- The error text, given how a string is quoted and how the UUID parser describes a text it
refuses. -/
def QueryError.message (quote uuidError : String → String) : QueryError → String
  | .crossRecordConditionInList attr =>
    "policy condition attribute " ++ quote attr ++ " is a cross-record path, not supported in " ++
      "list() queries — cross-record conditions only apply to single-record operations " ++
      "(get/update/delete/transition)"
  | .unsupportedContainsConditionInList attr =>
    "policy condition attribute " ++ quote attr ++ " uses 'contains'/'notContains', not " ++
      "supported in list() queries against a record field — only against a context-subject " ++
      "attribute, which is evaluated in-process and never reaches SQL generation"
  | .unknownConditionOp op => "unknown condition op " ++ quote op
  | .invalidUUID text => uuidError text
  | .invalidCursor => "Cursor does not match the current sort"
  | .unknownListView name => "Unknown list view: " ++ name
  | .jql message => message
  | .invalidAggregate message => message
  | .other message => message

abbrev Build := Builder QueryError BindValue

/-- Bind a value; the result is its placeholder text. -/
def pushBind (v : BindValue) : Build String := do
  let k ← push v
  return "$" ++ toString k

/-- What the row and the bound parameters are evaluated in. -/
def envOf (row : String → Option Value) (params : List BindValue) : Env :=
  { row, params := params.map BindValue.arg }

@[simp]
theorem envOf_row (row : String → Option Value) (params : List BindValue) :
    (envOf row params).row = row := rfl

/-! ## The translation -/

inductive ColType where
  | uuid | timestamptz | text
  deriving DecidableEq, Repr

/-- The attributes stored in columns of their own. -/
def attributeColumn : String → Option (String × ColType)
  | "createdBy" => some ("created_by", .uuid)
  | "updatedBy" => some ("updated_by", .uuid)
  | "status" => some ("status", .text)
  | "createdAt" => some ("created_at", .timestamptz)
  | "updatedAt" => some ("updated_at", .timestamptz)
  | _ => none

def fieldExpression (fieldName : String) : Build (String × ColType) :=
  if '.' ∈ fieldName.toList then fail (.crossRecordConditionInList fieldName)
  else
    match attributeColumn fieldName with
    | some column => pure column
    | none => do
      let ph ← pushBind (.text fieldName)
      return ("jsonb_extract_path_text(data, " ++ ph ++ ")", .text)

/-- The operand of a test.  Unlike evaluation, the translation leaves an absent literal absent. -/
def resolveValue (value : PolicyValue) (ctx : RequestContext) : Option Json :=
  match value with
  | .fromContext key => some (((ctx.toValue.decodeObject.getD []).get key).getD .null)
  | .literal v => v

/-- The text a scalar is bound as; `null` decodes into a string, as the empty one. -/
def scalarText (value : Option Json) : Option String := do
  let j ← value
  match j.decodeString with
  | some s => some s
  | none =>
    match j.decodeBool with
    | some b => some (if b then "true" else "false")
    | none => j.decodeNumber

def rawText (value : Option Json) : String := (value.map Json.compact).getD ""

def jsonScalarToText (value : Option Json) : Build String :=
  match scalarText value with
  | some s => pure s
  | none =>
    fail (.other ("policy condition value must be a string, bool, or number, got " ++
      rawText value))

section

variable (parseUuid : String → Option Uuid)

def bindScalar (ct : ColType) (value : Option Json) : Build String :=
  match ct with
  | .uuid =>
    match value.bind Json.decodeString with
    | none => fail (.other ("expected a UUID string, got " ++ rawText value))
    | some s =>
      match parseUuid s with
      | some u => pushBind (.uuid u)
      | none => fail (.invalidUUID s)
  | .timestamptz => do
    let text ← jsonScalarToText value
    let ph ← pushBind (.text text)
    return ph ++ "::timestamptz"
  | .text => do
    let text ← jsonScalarToText value
    pushBind (.text text)

/-- Both sides of an ordering test.  An operand that reads as a number makes it numeric. -/
def comparableExprAndValue (expr : String) (ct : ColType) (expected : Option Json) :
    Build (String × String) :=
  match ct with
  | .uuid => fail (.other "gt/gte/lt/lte is not supported on a UUID-typed field")
  | .timestamptz => do
    let text ← jsonScalarToText expected
    let ph ← pushBind (.text text)
    return (expr, ph ++ "::timestamptz")
  | .text =>
    if (expected.bind Json.decodeNumber).isSome then do
      let text ← jsonScalarToText expected
      let ph ← pushBind (.text text)
      return ("(" ++ expr ++ ")::numeric", ph ++ "::numeric")
    else do
      let rhs ← bindScalar parseUuid ct expected
      return (expr, rhs)

/-- The elements an `in`/`notIn` operand is unpacked to; anything but an array gives none. -/
def inValues (expected : Option Json) : List Json :=
  ((expected.bind Json.decodeArray).getD [])

/-- The SQL operator text of an ordering test. -/
def orderingOpText : ConditionOp → String
  | .gt => ">"
  | .gte => ">="
  | .lt => "<"
  | _ => "<="

def leafToSQL (ctx : RequestContext) (attr : String) (op : ConditionOp) (value : PolicyValue) :
    Build String :=
  if isContextAttribute attr then
    -- the same value for every row of this request, so folded to a constant
    pure (if (evaluateCondition .null ctx (.attribute attr op value)).isPassed then "true"
      else "false")
  else if Strings.hasPrefix attr workflowAttributePrefix then
    fail (.other (workflowAttributePrefix ++ " attributes are only available to workflow " ++
      "guards and validators, not to record policies"))
  else do
    let (expr, ct) ← fieldExpression attr
    let expected := resolveValue value ctx
    match op with
    | .eq => do
      let ph ← bindScalar parseUuid ct expected
      return expr ++ " = " ++ ph
    | .neq => do
      let ph ← bindScalar parseUuid ct expected
      return expr ++ " != " ++ ph
    | .in =>
      if (inValues expected).isEmpty then pure "false"
      else do
        let phs ← (inValues expected).mapM fun v => bindScalar parseUuid ct (some v)
        return expr ++ " IN (" ++ (join ", " phs ++ ")")
    | .notIn =>
      if (inValues expected).isEmpty then pure "true"
      else do
        let phs ← (inValues expected).mapM fun v => bindScalar parseUuid ct (some v)
        return expr ++ " NOT IN (" ++ (join ", " phs ++ ")")
    | .gt | .gte | .lt | .lte => do
      let (lhs, rhs) ← comparableExprAndValue parseUuid expr ct expected
      return lhs ++ " " ++ orderingOpText op ++ " " ++ rhs
    | .contains | .notContains => fail (.unsupportedContainsConditionInList attr)
    | .other text => fail (.unknownConditionOp text)

mutual

def conditionToSQL (ctx : RequestContext) : PolicyCondition → Build String
  | .all [] => pure "true"
  | .all (c :: cs) => do
    let clauses ← conditionsToSQL ctx (c :: cs)
    return "(" ++ join " AND " clauses ++ ")"
  | .any [] => pure "false"
  | .any (c :: cs) => do
    let clauses ← conditionsToSQL ctx (c :: cs)
    return "(" ++ join " OR " clauses ++ ")"
  | .attribute attr op value => leafToSQL parseUuid ctx attr op value

/-- The loop over the members of a node. -/
def conditionsToSQL (ctx : RequestContext) : List PolicyCondition → Build (List String)
  | [] => pure []
  | c :: cs => do
    let s ← conditionToSQL ctx c
    let ss ← conditionsToSQL ctx cs
    return s :: ss

end

/-- The clause of one policy; a policy without a condition always matches. -/
def policyClause (ctx : RequestContext) (row : PolicyRow) : Build String :=
  match row.condition with
  | some c => conditionToSQL parseUuid ctx c
  | none => pure "true"

/-- The policies of an effect whose role gate the caller passes. -/
def matchingRows (rows : List PolicyRow) (ctx : RequestContext) (effect : PolicyEffect) :
    List PolicyRow :=
  (rows.filter fun row => roleGatePassed row.roles row.hasRoles ctx.roleList).filter
    fun r => r.effect = effect

/-- The `WHERE` fragment of an action's record policies; `none` is no restriction. -/
def recordPolicyWhereClause (rows : List PolicyRow) (ctx : RequestContext) :
    Build (Option String) :=
  if rows.isEmpty || ctx.isAdmin then pure none
  else
    let allowRows := matchingRows rows ctx .allow
    if allowRows.isEmpty then pure (some "false")
    else do
      let allowClauses ← allowRows.mapM (policyClause parseUuid ctx)
      let allowSQL := "(" ++ join " OR " allowClauses ++ ")"
      let denyRows := matchingRows rows ctx .deny
      if denyRows.isEmpty then return some allowSQL
      else
        let denyClauses ← denyRows.mapM (policyClause parseUuid ctx)
        let denySQL := "(" ++ join " OR " denyClauses ++ ")"
        return some ("(" ++ allowSQL ++ " AND NOT " ++ denySQL ++ ")")

/-! ## What the text means -/

variable (pg : Backend)

/-- The value of an attribute on a row: a column, or the text of a member of `data`. -/
def fieldValue (row : String → Option Value) (attr : String) : Option Value :=
  match attributeColumn attr with
  | some column => row column.1
  | none => (row "data").bind fun d => evalCall pg "jsonb_extract_path_text" [d, .text attr]

def fieldColType (attr : String) : ColType :=
  match attributeColumn attr with
  | some column => column.2
  | none => .text

/-- The value a scalar is bound as; `none` when it is not bound or its cast fails. -/
def scalarValue (ct : ColType) (value : Option Json) : Option Value :=
  match ct with
  | .uuid => ((value.bind Json.decodeString).bind parseUuid).map .uuid
  | .timestamptz => (scalarText value).bind fun s => castText pg s .timestamptz
  | .text => (scalarText value).map .text

/-- A bound scalar beside the value it is compared with; only a time is cast. -/
def boundValue (ct : ColType) (actual : Option Value) (value : Option Json) : Option Value :=
  match ct with
  | .timestamptz => scalarValue parseUuid pg .timestamptz value
  | ct => readBeside pg actual (scalarValue parseUuid pg ct value)

/-- Both sides of an ordering test. -/
def orderedOperands (ct : ColType) (actual : Option Value) (expected : Option Json) :
    Option Value × Option Value :=
  match ct with
  | .text =>
    if (expected.bind Json.decodeNumber).isSome then
      (actual.bind (castOp pg .numeric),
        (scalarText expected).bind fun s => castText pg s .numeric)
    else (actual, boundValue parseUuid pg .text actual expected)
  | ct => (actual, boundValue parseUuid pg ct actual expected)

/-- The SQL operator of an ordering test. -/
def sqlOrderingOp : ConditionOp → Op
  | .gt => .gt
  | .gte => .ge
  | .lt => .lt
  | _ => .le

/-- `actual IN (…)` over the bound values. -/
def sqlIn (actual : Option Value) (ct : ColType) (values : List Json) : Truth :=
  values.foldr
    (fun v t =>
      (strict₂ (compareOp pg .eq) actual (boundValue parseUuid pg ct actual (some v))).or t)
    .ff

/-- The truth the database gives a test on a row. -/
def leafTruth (ctx : RequestContext) (row : String → Option Value) (attr : String)
    (op : ConditionOp) (value : PolicyValue) : Truth :=
  if isContextAttribute attr then
    .ofBool (evaluateCondition .null ctx (.attribute attr op value)).isPassed
  else
    let actual := fieldValue pg row attr
    let ct := fieldColType attr
    let expected := resolveValue value ctx
    match op with
    | .eq => strict₂ (compareOp pg .eq) actual (boundValue parseUuid pg ct actual expected)
    | .neq => strict₂ (compareOp pg .ne) actual (boundValue parseUuid pg ct actual expected)
    | .in => sqlIn parseUuid pg actual ct (inValues expected)
    | .notIn => (sqlIn parseUuid pg actual ct (inValues expected)).not
    | .gt | .gte | .lt | .lte =>
      let operands := orderedOperands parseUuid pg ct actual expected
      strict₂ (compareOp pg (sqlOrderingOp op)) operands.1 operands.2
    | _ => .err

mutual

/-- The truth the database gives a condition on a row. -/
def sqlTruth (ctx : RequestContext) (row : String → Option Value) : PolicyCondition → Truth
  | .all cs => sqlTruthAll ctx row cs
  | .any cs => sqlTruthAny ctx row cs
  | .attribute attr op value => leafTruth parseUuid pg ctx row attr op value

def sqlTruthAll (ctx : RequestContext) (row : String → Option Value) :
    List PolicyCondition → Truth
  | [] => .tt
  | c :: cs => (sqlTruth ctx row c).and (sqlTruthAll ctx row cs)

def sqlTruthAny (ctx : RequestContext) (row : String → Option Value) :
    List PolicyCondition → Truth
  | [] => .ff
  | c :: cs => (sqlTruth ctx row c).or (sqlTruthAny ctx row cs)

end

/-- The truth the database gives one policy. -/
def policyTruth (ctx : RequestContext) (row : String → Option Value) (policy : PolicyRow) :
    Truth :=
  match policy.condition with
  | some c => sqlTruth parseUuid pg ctx row c
  | none => .tt

def anyPolicyTruth (ctx : RequestContext) (row : String → Option Value)
    (policies : List PolicyRow) : Truth :=
  policies.foldr (fun p t => (policyTruth parseUuid pg ctx row p).or t) .ff

/-- The truth the database gives an action's record policies. -/
def recordPolicyTruth (rows : List PolicyRow) (ctx : RequestContext)
    (row : String → Option Value) : Truth :=
  (anyPolicyTruth parseUuid pg ctx row (matchingRows rows ctx .allow)).and
    (anyPolicyTruth parseUuid pg ctx row (matchingRows rows ctx .deny)).not

end

end Metap.Query
