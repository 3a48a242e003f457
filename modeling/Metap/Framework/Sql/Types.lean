import Metap.Framework.Sql.Text

/-!
# Types of SQL expressions

The static check the database makes of a statement before it runs: every column exists, and every
operator, function and cast is defined at the types it is applied to.  `typeOf` computes the type
of an expression over the columns of a table, or `none` where the database refuses it.

A placeholder and a quoted literal are of type `unknown` until their context decides.  A literal
must then be an input of the type it gets: the empty text, which is the only literal that is
compared here, is one of text only.

A condition has type `boolean` or none, which `boolIf` writes as the outcome of a test.
-/

namespace Metap.Sql

inductive PgType where
  | unknown
  | text | varchar | uuid | integer | bigint | numeric | float8 | boolean | date | timestamptz
  | jsonb | tsvector | tsquery
  deriving DecidableEq, Repr

namespace PgType

def isText (t : PgType) : Bool := t = text || t = varchar

/-- A text, or what may still become one. -/
def asText (t : PgType) : Bool := t.isText || t = unknown

def isNumber (t : PgType) : Bool := t = integer || t = bigint || t = numeric || t = float8

def isTime (t : PgType) : Bool := t = date || t = timestamptz

/-- The comparison operators are defined within a type, between texts, numbers and times of
different types, and decide an unknown operand. -/
def comparable (t u : PgType) : Bool :=
  t = unknown || u = unknown || t = u || (t.isText && u.isText) || (t.isNumber && u.isNumber) ||
    (t.isTime && u.isTime)

end PgType

def SqlType.pgType : SqlType → PgType
  | .text => .text
  | .uuid => .uuid
  | .numeric => .numeric
  | .float8 => .float8
  | .boolean => .boolean
  | .date => .date
  | .timestamptz => .timestamptz

/-- Explicit casts: within a type, from text and to text, between numbers, between times, and from
a document to a number or a truth value. -/
def castable (t : PgType) (ty : SqlType) : Bool :=
  t.asText || ty = .text || t = ty.pgType || (t.isNumber && ty.pgType.isNumber) ||
    (t.isTime && ty.pgType.isTime) || (t = .jsonb && (ty.pgType.isNumber || ty = .boolean)) ||
    (t = .integer && ty = .boolean)

/-- The result of a function at the types of its arguments; where a literal is expected, the
argument itself matters. -/
def callType : String → List Expr → List PgType → Option PgType
  | "jsonb_extract_path_text", _, [.jsonb, t] => if t.asText then some .text else none
  | "to_tsvector", [.str _, _], [_, t] =>
    if t.asText || t = .jsonb then some .tsvector else none
  | "plainto_tsquery", [.str _, _], [_, t] => if t.asText then some .tsquery else none
  | "nullif", [_, .str ""], [t, _] => if t.asText then some .text else none
  | "date_trunc", [.str _, _], [_, t] =>
    if t.isTime || t = .unknown then some .timestamptz else none
  | "count", _, [_] => some .bigint
  | "sum", _, [t] =>
    if t = .float8 then some .float8
    else if t = .integer then some .bigint
    else if t.isNumber then some .numeric else none
  | "avg", _, [t] =>
    if t = .float8 then some .float8 else if t.isNumber then some .numeric else none
  | "min", _, [t] => if t.isNumber || t.isTime || t.isText then some t else none
  | "max", _, [t] => if t.isNumber || t.isTime || t.isText then some t else none
  | _, _, _ => none

/-- The type of a condition that is in order exactly when `b`. -/
def boolIf (b : Bool) : Option PgType := if b then some .boolean else none

@[simp]
theorem boolIf_eq_some {b : Bool} {t : PgType} : boolIf b = some t ↔ b = true ∧ t = .boolean := by
  cases b <;> simp [boolIf, eq_comm]

def compareType (t u : Option PgType) : Option PgType :=
  boolIf (t.any fun t => u.any fun u => t.comparable u)

def matchType (t u : Option PgType) : Option PgType :=
  boolIf (t = some .tsvector && u = some .tsquery)

def ilikeType (t u : Option PgType) : Option PgType :=
  boolIf (t.any PgType.asText && u.any PgType.asText)

def castType (ty : SqlType) (t : Option PgType) : Option PgType :=
  (t.filter fun t => castable t ty).map fun _ => ty.pgType

def isConditionType (t : Option PgType) : Bool := t = some .boolean || t = some .unknown

@[simp]
theorem isConditionType_boolIf (b : Bool) : isConditionType (boolIf b) = b := by
  cases b <;> rfl

section

variable (cols : String → Option PgType)

mutual

/-- The type of an expression; `none` where the database refuses it. -/
def typeOf : Expr → Option PgType
  | .col c => cols c
  | .param _ => some .unknown
  | .str _ => some .unknown
  | .bool _ => some .boolean
  | .star => some .unknown
  | .call f args => (typesOf args).bind (callType f args)
  | .cast e ty => castType ty (typeOf e)
  | .binop .tsMatch l r => matchType (typeOf l) (typeOf r)
  | .binop _ l r => compareType (typeOf l) (typeOf r)
  | .ilike _ l r => ilikeType (typeOf l) (typeOf r)
  | .inList _ l rs => boolIf (allComparable (typeOf l) rs)
  | .isNull _ e => boolIf (typeOf e).isSome
  | .not e => boolIf (isConditionType (typeOf e))
  | .and l r => boolIf (isConditionType (typeOf l) && isConditionType (typeOf r))
  | .or l r => boolIf (isConditionType (typeOf l) && isConditionType (typeOf r))

def typesOf : List Expr → Option (List PgType)
  | [] => some []
  | e :: es => do
    let t ← typeOf e
    let ts ← typesOf es
    return t :: ts

/-- Every member of a list can be compared with a left side of type `t`. -/
def allComparable (t : Option PgType) : List Expr → Bool
  | [] => t.isSome
  | e :: es => (compareType t (typeOf e)).isSome && allComparable t es

end

attribute [simp] typeOf typesOf allComparable

end

/-- The operators are defined between the types. -/
def comparesWith (t u : Option PgType) : Bool := t.any fun t => u.any fun u => t.comparable u

section

variable {cols : String → Option PgType}

theorem typeOf_comparison {o : Op} (ho : o.isComparison = true) (l r : Expr) :
    typeOf cols (.binop o l r) = boolIf (comparesWith (typeOf cols l) (typeOf cols r)) := by
  cases o with
  | tsMatch => cases ho
  | _ =>
    rw [typeOf]
    · rfl
    · intro h
      cases h

theorem typeOf_chain (ch : Chain) (l r : Expr) : typeOf cols (ch.expr l r) =
    boolIf (isConditionType (typeOf cols l) && isConditionType (typeOf cols r)) := by
  cases ch <;> rw [Chain.expr, typeOf]

variable {es : List Expr}

/-- Joined conditions are in order when all of them are. -/
theorem typeOf_foldl_chain (ch : Chain) {α : Type} {xs : List α} {ok : α → Bool}
    (h : List.Forall₂ (fun x e => typeOf cols e = boolIf (ok x)) xs es) {e : Expr} {b : Bool}
    (he : typeOf cols e = boolIf b) :
    typeOf cols (es.foldl ch.expr e) = boolIf (b && xs.all ok) := by
  induction h generalizing e b with
  | nil => simpa using he
  | cons hx _ ih =>
    rw [List.foldl_cons, ih (by rw [typeOf_chain, he, hx, isConditionType_boolIf,
      isConditionType_boolIf]), List.all_cons, Bool.and_assoc]

/-- A membership test over members of one type. -/
theorem allComparable_eq (t : Option PgType) {t' : Option PgType} (hne : es ≠ [])
    (h : ∀ e ∈ es, typeOf cols e = t') : allComparable cols t es = comparesWith t t' := by
  induction es with
  | nil => exact absurd rfl hne
  | cons e es ih =>
    obtain ⟨he, hes⟩ := List.forall_mem_cons.mp h
    have hsome : ∀ b, (boolIf b).isSome = b := by decide
    rw [allComparable, he, compareType, hsome]
    cases es with
    | nil => cases t <;> simp [comparesWith]
    | cons e' es =>
      rw [ih (by simp) hes]
      exact Bool.and_self _

end

end Metap.Sql
