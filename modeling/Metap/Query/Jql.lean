import Metap.Metadata.Entity
import Metap.Query.ConditionToSql

/-!
# JQL

The query language a list request may carry: comparisons of declared fields under `AND`, `OR` and
`NOT`, and an optional `ORDER BY`.  The text goes through a tokenizer, a recursive-descent parser
and a code generator that checks every field against the entity and binds every value.

The parser works on the tokens before the end marker, so that an empty list is the end of the
query, where `advance` stays.  Its recursion is bounded by a fuel argument; `parseQuery` supplies
more than any token list can use, since between two calls that consume no token there are at
most five levels.
-/

namespace Metap.Query

open Sql Builder

/-! ## Tokens -/

inductive JqlToken where
  | ident (text : String)
  | str (text : String)
  | number (text : String)
  | lparen | rparen | comma
  | eq | ne | gt | gte | lt | lte | tilde | notTilde
  | kwAnd | kwOr | kwNot | kwIn | kwIs | kwEmpty | kwOrder | kwBy | kwAsc | kwDesc | kwTrue
  | kwFalse
  deriving DecidableEq, Repr

def jqlKeyword (word : String) : Option JqlToken :=
  match word.toUpper with
  | "AND" => some .kwAnd
  | "OR" => some .kwOr
  | "NOT" => some .kwNot
  | "IN" => some .kwIn
  | "IS" => some .kwIs
  | "EMPTY" => some .kwEmpty
  | "ORDER" => some .kwOrder
  | "BY" => some .kwBy
  | "ASC" => some .kwAsc
  | "DESC" => some .kwDesc
  | "TRUE" => some .kwTrue
  | "FALSE" => some .kwFalse
  | _ => none

def maxJqlLen : ℕ := 2000

/-- The body of a string literal up to its closing quote: the text and what follows it. -/
def scanString (quote : Char) : List Char → List Char → Option (List Char × List Char)
  | [], _ => none
  | [c], acc => if c = quote then some (acc, []) else none
  | c :: d :: cs, acc =>
    if c = '\\' then scanString quote cs (acc ++ [d])
    else if c = quote then some (acc, d :: cs)
    else scanString quote (d :: cs) (acc ++ [c])

def isIdentChar (c : Char) : Bool := c.isAlphanum || c = '_'

/-- One round of the tokenizer's loop: the token at the front, if the round makes one, and the
rest. -/
def jqlNextToken : List Char → Except QueryError (Option JqlToken × List Char)
  | [] => .ok (none, [])
  | c :: cs =>
    if c = ' ' ∨ c = '\t' ∨ c = '\n' ∨ c = '\r' then .ok (none, cs)
    else if c = '(' then .ok (some .lparen, cs)
    else if c = ')' then .ok (some .rparen, cs)
    else if c = ',' then .ok (some .comma, cs)
    else if c = '=' then .ok (some .eq, cs)
    else if c = '!' then
      match cs with
      | '=' :: cs => .ok (some .ne, cs)
      | '~' :: cs => .ok (some .notTilde, cs)
      | _ => .error (.jql "Unexpected '!' (expected '!=' or '!~')")
    else if c = '>' then
      match cs with
      | '=' :: cs => .ok (some .gte, cs)
      | cs => .ok (some .gt, cs)
    else if c = '<' then
      match cs with
      | '=' :: cs => .ok (some .lte, cs)
      | cs => .ok (some .lt, cs)
    else if c = '~' then .ok (some .tilde, cs)
    else if c = '\'' ∨ c = '"' then
      match scanString c cs [] with
      | some (s, cs) => .ok (some (.str (String.ofList s)), cs)
      | none => .error (.jql "Unterminated string literal")
    else if c.isDigit ∨ (c = '-' ∧ (cs.head?.map Char.isDigit).getD false) then
      .ok (some (.number (String.ofList (c :: cs.takeWhile fun d => d.isDigit || d = '.'))),
        cs.dropWhile fun d => d.isDigit || d = '.')
    else if c.isAlpha ∨ c = '_' then
      let word := String.ofList (c :: cs.takeWhile isIdentChar)
      .ok (some ((jqlKeyword word).getD (.ident word)), cs.dropWhile isIdentChar)
    else .error (.jql ("Unexpected character '" ++ String.singleton c ++ "'"))

/-- The tokenizer's loop; every round consumes a character. -/
def jqlTokenizeLoop : ℕ → List Char → Except QueryError (List JqlToken)
  | _, [] => .ok []
  | 0, _ => .ok []
  | n + 1, cs => do
    let (t, cs) ← jqlNextToken cs
    let ts ← jqlTokenizeLoop n cs
    return t.toList ++ ts

def jqlTokenize (input : String) : Except QueryError (List JqlToken) :=
  if input.utf8ByteSize > maxJqlLen then
    .error (.jql ("Query too long (max " ++ toString maxJqlLen ++ " characters)"))
  else jqlTokenizeLoop input.toList.length input.toList

/-! ## Expressions -/

inductive JqlCompareOp where
  | eq | ne | gt | gte | lt | lte | contains | notContains
  deriving DecidableEq, Repr

inductive JqlValue where
  | str (s : String)
  | bool (b : Bool)
  deriving DecidableEq, Repr

/-- Parsed expressions; a conjunction or disjunction has a first member. -/
inductive JqlExpr where
  | compare (field : String) (op : JqlCompareOp) (value : JqlValue)
  | inList (field : String) (negate : Bool) (values : List JqlValue)
  | isEmpty (field : String) (negate : Bool)
  | and (first : JqlExpr) (rest : List JqlExpr)
  | or (first : JqlExpr) (rest : List JqlExpr)
  | not (inner : JqlExpr)

structure JqlOrder where
  field : String
  descending : Bool
  deriving DecidableEq, Repr

structure ParsedJql where
  expr : Option JqlExpr
  orderBy : Option JqlOrder

/-! ## The parser -/

/-- The parser's state is the tokens it has not consumed; none are left at the end marker. -/
abbrev JqlParser := StateT (List JqlToken) (Except QueryError)

namespace JqlParser

def error {α : Type} (message : String) : JqlParser α := throw (.jql message)

def peek : JqlParser (Option JqlToken) := do return (← get).head?

/-- At the end marker the position stays where it is. -/
def advance : JqlParser (Option JqlToken) := do
  let ts ← get
  set ts.tail
  return ts.head?

def eat (kind : JqlToken) : JqlParser Bool := do
  if (← peek) = some kind then
    let _ ← advance
    return true
  else return false

def expect (kind : JqlToken) (what : String) : JqlParser Unit := do
  if ← eat kind then return ()
  else error ("Expected " ++ what)

def expectIdent : JqlParser String := do
  match ← advance with
  | some (.ident text) => return text
  | _ => error "Expected a field name"

def parseValue : JqlParser JqlValue := do
  match ← advance with
  | some (.str text) => return .str text
  | some (.number text) => return .str text
  | some .kwTrue => return .bool true
  | some .kwFalse => return .bool false
  | _ => error "Expected a value (string, number, true, or false)"

/-- The values of a list after its first one. -/
def moreValues : ℕ → JqlParser (List JqlValue)
  | 0 => return []
  | n + 1 => do
    if ← eat .comma then
      let v ← parseValue
      return v :: (← moreValues n)
    else return []

def parseValueList : JqlParser (List JqlValue) := do
  expect .lparen "`(` after `IN`"
  let first ← parseValue
  let rest ← moreValues (← get).length
  expect .rparen "`)` to close the value list"
  return first :: rest

def parseComparison : JqlParser JqlExpr := do
  let field ← expectIdent
  let cmp (op : JqlCompareOp) : JqlParser JqlExpr := do return .compare field op (← parseValue)
  match ← advance with
  | some .eq => cmp .eq
  | some .ne => cmp .ne
  | some .gt => cmp .gt
  | some .gte => cmp .gte
  | some .lt => cmp .lt
  | some .lte => cmp .lte
  | some .tilde => cmp .contains
  | some .notTilde => cmp .notContains
  | some .kwIn => return .inList field false (← parseValueList)
  | some .kwNot =>
    expect .kwIn "`IN` after `NOT`"
    return .inList field true (← parseValueList)
  | some .kwIs =>
    let negate ← eat .kwNot
    expect .kwEmpty "`EMPTY` after `IS`"
    return .isEmpty field negate
  | _ => error ("Expected an operator after field `" ++ field ++ "`")

mutual

def parseOr : ℕ → JqlParser JqlExpr
  | 0 => error "Query too deep"
  | n + 1 => do
    let first ← parseAnd n
    match ← moreOr n with
    | [] => return first
    | rest => return .or first rest

/-- The members of a disjunction after its first one. -/
def moreOr : ℕ → JqlParser (List JqlExpr)
  | 0 => return []
  | n + 1 => do
    if ← eat .kwOr then
      let next ← parseAnd n
      return next :: (← moreOr n)
    else return []

def parseAnd : ℕ → JqlParser JqlExpr
  | 0 => error "Query too deep"
  | n + 1 => do
    let first ← parseNot n
    match ← moreAnd n with
    | [] => return first
    | rest => return .and first rest

/-- The members of a conjunction after its first one. -/
def moreAnd : ℕ → JqlParser (List JqlExpr)
  | 0 => return []
  | n + 1 => do
    if ← eat .kwAnd then
      let next ← parseNot n
      return next :: (← moreAnd n)
    else return []

def parseNot : ℕ → JqlParser JqlExpr
  | 0 => error "Query too deep"
  | n + 1 => do
    if ← eat .kwNot then return .not (← parseNot n)
    else parsePrimary n

def parsePrimary : ℕ → JqlParser JqlExpr
  | 0 => error "Query too deep"
  | n + 1 => do
    if ← eat .lparen then
      let e ← parseOr n
      expect .rparen "`)`"
      return e
    else parseComparison

end

def fuel (ts : List JqlToken) : ℕ := 5 * (ts.length + 1)

def parseQuery : JqlParser ParsedJql := do
  let expr ←
    match ← peek with
    | none => pure none
    | some .kwOrder => pure none
    | some _ => do pure (some (← parseOr (fuel (← get))))
  let orderBy ←
    if ← eat .kwOrder then
      expect .kwBy "`BY` after `ORDER`"
      let field ← expectIdent
      if ← eat .kwDesc then pure (some { field, descending := true })
      else
        let _ ← eat .kwAsc
        pure (some { field, descending := false })
    else pure none
  match ← peek with
  | none => return { expr, orderBy }
  | some _ => error "Unexpected trailing input"

end JqlParser

/-! ## Code generation -/

inductive JqlFieldType where
  | text | number | money | boolean | date | datetime | uuid
  deriving DecidableEq, Repr

def jqlCastSuffix : JqlFieldType → String
  | .number => "::double precision"
  | .money => "::numeric"
  | .boolean => "::boolean"
  | .date => "::date"
  | .datetime => "::timestamptz"
  | .uuid => "::uuid"
  | .text => ""

def jqlFieldTypeOf : FieldKind → JqlFieldType
  | .string | .enum | .json => .text
  | .number => .number
  | .money => .money
  | .boolean => .boolean
  | .date => .date
  | .datetime => .datetime
  | .reference | .id => .uuid

def resolveJqlField (fieldName : String) (entity : EntityDefinition) :
    Build (String × JqlFieldType) :=
  if fieldName = "createdAt" then pure ("created_at", .datetime)
  else if fieldName = "updatedAt" then pure ("updated_at", .datetime)
  else
    match entity.field? fieldName with
    | none => fail (.jql ("Unknown field: " ++ fieldName))
    | some field =>
      let ftype := jqlFieldTypeOf field.kind
      if fieldHasRealColumn field then pure ("\"" ++ fieldName ++ "\"", ftype)
      else do
        let ph ← pushBind (.text fieldName)
        return ("jsonb_extract_path_text(data, " ++ ph ++ ")", ftype)

def jqlOpSupported (op : JqlCompareOp) (ftype : JqlFieldType) : Bool :=
  match op with
  | .eq | .ne => true
  | .gt | .gte | .lt | .lte =>
    ftype = .number || ftype = .money || ftype = .date || ftype = .datetime
  | .contains | .notContains => ftype = .text

def validateJqlOp (op : JqlCompareOp) (ftype : JqlFieldType) (field : String) : Build Unit :=
  if jqlOpSupported op ftype then pure ()
  else fail (.jql ("Operator not supported on field `" ++ field ++ "`"))

def jqlValueToBindText : JqlValue → String
  | .bool b => if b then "true" else "false"
  | .str s => s

/-- A substring pattern: the wildcards of the value are escaped. -/
def jqlIlikePattern (value : String) : String :=
  "%" ++ String.ofList (value.toList.flatMap fun c =>
    if c = '\\' ∨ c = '%' ∨ c = '_' then ['\\', c] else [c]) ++ "%"

/-- The SQL operator of a comparison that is no substring test. -/
def jqlSqlOp : JqlCompareOp → Op
  | .eq => .eq
  | .ne => .ne
  | .gt => .gt
  | .gte => .ge
  | .lt => .lt
  | _ => .le

def jqlOpText : JqlCompareOp → String
  | .eq => "="
  | .ne => "!="
  | .gt => ">"
  | .gte => ">="
  | .lt => "<"
  | _ => "<="

/-- The left side of every test: the field's value at its comparison type. -/
def jqlLhs (base : String) (ftype : JqlFieldType) : String :=
  "(" ++ base ++ ")" ++ jqlCastSuffix ftype

def compileCompare (entity : EntityDefinition) (field : String) (op : JqlCompareOp)
    (value : JqlValue) : Build String := do
  let (base, ftype) ← resolveJqlField field entity
  validateJqlOp op ftype field
  let lhs := jqlLhs base ftype
  if op = .contains ∨ op = .notContains then
    match value with
    | .bool _ => fail (.jql ("`~`/`!~` need a string value for field `" ++ field ++ "`"))
    | .str s =>
      let ph ← pushBind (.text (jqlIlikePattern s))
      return "(" ++ (lhs ++ (if op = .notContains then " NOT ILIKE " else " ILIKE ") ++ ph) ++ ")"
  else
    let ph ← pushBind (.text (jqlValueToBindText value))
    return "(" ++ (lhs ++ (" " ++ jqlOpText op ++ " ") ++ (ph ++ jqlCastSuffix ftype)) ++ ")"

def compileIn (entity : EntityDefinition) (field : String) (negate : Bool)
    (values : List JqlValue) : Build String :=
  if values.isEmpty then
    fail (.jql ("`IN`/`NOT IN` needs at least one value for field `" ++ field ++ "`"))
  else do
    let (base, ftype) ← resolveJqlField field entity
    let placeholders ← values.mapM fun v => do
      let ph ← pushBind (.text (jqlValueToBindText v))
      return ph ++ jqlCastSuffix ftype
    return "(" ++ (jqlLhs base ftype ++ (if negate then " NOT IN (" else " IN (") ++
      (join ", " placeholders ++ ")")) ++ ")"

def compileIsEmpty (entity : EntityDefinition) (field : String) (negate : Bool) :
    Build String := do
  let (base, ftype) ← resolveJqlField field entity
  return "(" ++ (jqlLhs base ftype ++ (if negate then " IS NOT NULL" else " IS NULL")) ++ ")"

mutual

def compileJqlExpr (entity : EntityDefinition) : JqlExpr → Build String
  | .and first rest => do
    let s ← compileJqlExpr entity first
    let ss ← compileJqlExprs entity rest
    return "(" ++ join " AND " (s :: ss) ++ ")"
  | .or first rest => do
    let s ← compileJqlExpr entity first
    let ss ← compileJqlExprs entity rest
    return "(" ++ join " OR " (s :: ss) ++ ")"
  | .not inner => do
    let s ← compileJqlExpr entity inner
    return "(" ++ ("NOT " ++ s) ++ ")"
  | .isEmpty field negate => compileIsEmpty entity field negate
  | .compare field op value => compileCompare entity field op value
  | .inList field negate values => compileIn entity field negate values

/-- The loop over the parts of a conjunction or disjunction. -/
def compileJqlExprs (entity : EntityDefinition) : List JqlExpr → Build (List String)
  | [] => pure []
  | e :: es => do
    let s ← compileJqlExpr entity e
    let ss ← compileJqlExprs entity es
    return s :: ss

end

def isJqlSortable (fieldName : String) (entity : EntityDefinition) : Bool :=
  fieldName = "createdAt" || fieldName = "updatedAt" ||
    entity.fields.any fun f => f.name = fieldName && boolOrFalse f.sortable

def compileWhere (entity : EntityDefinition) : Option JqlExpr → Build (Option String)
  | none => pure none
  | some e => some <$> compileJqlExpr entity e

/-- The compiled filter, absent when the query only orders, and the requested order. -/
def parseAndCompileJQL (jql : String) (entity : EntityDefinition) :
    Build (Option String × Option JqlOrder) :=
  match (do JqlParser.parseQuery.run' (← jqlTokenize jql) : Except QueryError ParsedJql) with
  | .error err => fail err
  | .ok parsed => do
    let whereSQL ← compileWhere entity parsed.expr
    match parsed.orderBy with
    | none => return (whereSQL, none)
    | some order =>
      if isJqlSortable order.field entity then return (whereSQL, some order)
      else fail (.jql ("Field `" ++ order.field ++ "` is not sortable"))

/-- The query a text is read as. -/
def parseJql (jql : String) : Except QueryError ParsedJql := do
  JqlParser.parseQuery.run' (← jqlTokenize jql)

/-- The filters a request's JQL adds: none, or one. -/
def jqlFilter (jql : Option String) : List JqlExpr :=
  match jql.map parseJql with
  | some (.ok parsed) => parsed.expr.toList
  | _ => []

/-- The order a request's JQL asks for. -/
def jqlOrder (jql : Option String) : Option JqlOrder :=
  match jql.map parseJql with
  | some (.ok parsed) => parsed.orderBy
  | _ => none

end Metap.Query
