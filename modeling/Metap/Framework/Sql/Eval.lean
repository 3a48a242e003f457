import Metap.Framework.Json
import Metap.Framework.Sql.Grammar
import Metap.Framework.Uuid

/-!
# Evaluating SQL expressions

The meaning of the expressions of `Sql/Grammar.lean` on one row, with SQL's three-valued logic.
Evaluation may also fail (a text that is no number cast to a number, operands of different types; a
placeholder or a quoted literal takes the type of what it is compared with), and the database
promises no order of evaluation for `AND` and `OR`: a failing operand is met or not.  `eval` answers
for the most permissive order, in which a failing operand is ignored whenever the other one decides
the result.  So "`eval` is TRUE" means that some order of evaluation may return the row, and a
statement that every such row has a property holds of every order.

What the dialect computes outside the logic (input syntax of numbers, times and booleans, the
collation, pattern and text-search matching) is a parameter, `Backend`; a result that needs
more of it says so by a hypothesis.
-/

namespace Metap.Sql

/-- Decimal numbers with the two infinities and, above them, the not-a-number. -/
abbrev Numeric := WithBot (WithTop (WithTop ℚ))

/-- SQL values.  A text-search vector or query is kept as the configuration and text it was
made from. -/
inductive Value where
  | null
  | bool (b : Bool)
  | text (s : String)
  | uuid (u : Uuid)
  | numeric (q : Numeric)
  | float8 (q : Numeric)
  | date (days : ℤ)
  | timestamptz (micros : ℤ)
  | jsonb (j : Json)
  | tsvector (config doc : String)
  | tsquery (config query : String)
  deriving DecidableEq

/-- The dialect's own input and matching functions. -/
structure Backend where
  numericIn : String → Option Numeric
  float8In : String → Option Numeric
  boolIn : String → Option Bool
  uuidIn : String → Option Uuid
  dateIn : String → Option ℤ
  timestamptzIn : String → Option ℤ
  /-- The text form of a value that is neither null nor text. -/
  textOut : Value → String
  /-- The collation: whether one text sorts strictly before another. -/
  collateLt : String → String → Bool
  ilike : String → String → Bool
  tsMatch : (config doc query : String) → Bool
  /-- Functions of the dialect beyond those given a meaning in `evalCall`. -/
  fn : String → List Value → Option Value

/-- The backend that refuses every text and matches nothing. -/
instance : Inhabited Backend :=
  ⟨{ numericIn := fun _ => none, float8In := fun _ => none, boolIn := fun _ => none,
     uuidIn := fun _ => none, dateIn := fun _ => none, timestamptzIn := fun _ => none,
     textOut := fun _ => "", collateLt := fun a b => decide (a < b), ilike := fun _ _ => false,
     tsMatch := fun _ _ _ => false, fn := fun _ _ => none }⟩

/-! ## Three-valued logic with failure -/

/-- A truth value; `err` is a failed evaluation. -/
inductive Truth where
  | tt | ff | unknown | err
  deriving DecidableEq, Repr

namespace Truth

def not : Truth → Truth
  | tt => ff
  | ff => tt
  | unknown => unknown
  | err => err

def and : Truth → Truth → Truth
  | ff, _ => ff
  | _, ff => ff
  | err, _ => err
  | _, err => err
  | unknown, _ => unknown
  | _, unknown => unknown
  | tt, tt => tt

def or : Truth → Truth → Truth
  | tt, _ => tt
  | _, tt => tt
  | err, _ => err
  | _, err => err
  | unknown, _ => unknown
  | _, unknown => unknown
  | ff, ff => ff

variable {a b : Truth}

@[simp]
theorem not_eq_tt : a.not = tt ↔ a = ff := by cases a <;> simp [not]

@[simp]
theorem and_eq_tt : a.and b = tt ↔ a = tt ∧ b = tt := by
  cases a <;> cases b <;> simp [and]

@[simp]
theorem or_eq_tt : a.or b = tt ↔ a = tt ∨ b = tt := by
  cases a <;> cases b <;> simp [or]

@[simp]
theorem or_eq_ff : a.or b = ff ↔ a = ff ∧ b = ff := by
  cases a <;> cases b <;> simp [or]

section

variable {ι : Type*} {f : ι → Truth} {xs : List ι}

theorem foldr_and_eq_tt : xs.foldr (fun x t => (f x).and t) tt = tt ↔ ∀ x ∈ xs, f x = tt := by
  induction xs <;> simp_all

theorem foldr_or_eq_tt : xs.foldr (fun x t => (f x).or t) ff = tt ↔ ∃ x ∈ xs, f x = tt := by
  induction xs <;> simp_all

theorem foldr_or_eq_ff : xs.foldr (fun x t => (f x).or t) ff = ff ↔ ∀ x ∈ xs, f x = ff := by
  induction xs <;> simp_all

end

theorem and_assoc (a b c : Truth) : (a.and b).and c = a.and (b.and c) := by
  cases a <;> cases b <;> cases c <;> rfl

theorem or_assoc (a b c : Truth) : (a.or b).or c = a.or (b.or c) := by
  cases a <;> cases b <;> cases c <;> rfl

@[simp]
theorem and_tt (a : Truth) : a.and tt = a := by cases a <;> rfl

@[simp]
theorem or_ff (a : Truth) : a.or ff = a := by cases a <;> rfl

def ofBool : Bool → Truth
  | true => tt
  | false => ff

@[simp]
theorem ofBool_eq_tt {b : Bool} : ofBool b = tt ↔ b = true := by cases b <;> simp [ofBool]

@[simp]
theorem ofBool_eq_ff {b : Bool} : ofBool b = ff ↔ b = false := by cases b <;> simp [ofBool]

theorem ofBool_and (b c : Bool) : (ofBool b).and (ofBool c) = ofBool (b && c) := by
  cases b <;> cases c <;> rfl

theorem ofBool_or (b c : Bool) : (ofBool b).or (ofBool c) = ofBool (b || c) := by
  cases b <;> cases c <;> rfl

/-- The truth value of an expression's value. -/
def ofValue : Option Value → Truth
  | some (.bool b) => ofBool b
  | some .null => unknown
  | _ => err

/-- The value of a truth value. -/
def toValue : Truth → Option Value
  | tt => some (.bool true)
  | ff => some (.bool false)
  | unknown => some .null
  | err => none

@[simp]
theorem ofValue_toValue (t : Truth) : ofValue t.toValue = t := by cases t <;> rfl

end Truth

/-! ## Operators -/

/-- The order of two values of one type; `none` when the types differ or have no order here. -/
def compareValues (pg : Backend) : Value → Value → Option Ordering
  | .bool a, .bool b => some (compare a b)
  | .text a, .text b =>
    some (if a = b then .eq else if pg.collateLt a b then .lt else .gt)
  | .uuid a, .uuid b => some (compare a.toNat b.toNat)
  | .numeric a, .numeric b => some (if a = b then .eq else if a < b then .lt else .gt)
  | .float8 a, .float8 b => some (if a = b then .eq else if a < b then .lt else .gt)
  | .date a, .date b => some (compare a b)
  | .timestamptz a, .timestamptz b => some (compare a b)
  | _, _ => none

/-- Whether an ordering satisfies a comparison operator. -/
def Op.holds : Op → Ordering → Bool
  | .eq, o => o = .eq
  | .ne, o => o ≠ .eq
  | .lt, o => o = .lt
  | .le, o => o ≠ .gt
  | .gt, o => o = .gt
  | .ge, o => o ≠ .lt
  | .tsMatch, _ => false

/-- A strict operator: null when an operand is, and failing when one fails. -/
def strict₂ (f : Value → Value → Truth) : Option Value → Option Value → Truth
  | some .null, some _ => .unknown
  | some _, some .null => .unknown
  | some a, some b => f a b
  | _, _ => .err

def compareOp (pg : Backend) (o : Op) (a b : Value) : Truth :=
  match o, a, b with
  | .tsMatch, .tsvector config doc, .tsquery _ query => .ofBool (pg.tsMatch config doc query)
  | .tsMatch, _, _ => .err
  | o, a, b =>
    match compareValues pg a b with
    | some ord => .ofBool (o.holds ord)
    | none => .err

/-- A comparison has a definite outcome exactly when both operands are values of one ordered
type. -/
theorem strict₂_compareOp_eq_ofBool (pg : Backend) {o : Op} (ho : o.isComparison = true)
    {x y : Option Value} {b : Bool} : strict₂ (compareOp pg o) x y = .ofBool b ↔
      ∃ u v ord, x = some u ∧ y = some v ∧ compareValues pg u v = some ord ∧ o.holds ord = b := by
  have hop : ∀ u v, compareOp pg o u v = .ofBool b ↔
      ∃ ord, compareValues pg u v = some ord ∧ o.holds ord = b := by
    intro u v
    have hdef : compareOp pg o u v =
        match compareValues pg u v with
        | some ord => .ofBool (o.holds ord)
        | none => .err := by
      cases o <;> first | rfl | simp [Op.isComparison] at ho
    rw [hdef]
    cases compareValues pg u v with
    | none => cases b <;> simp [Truth.ofBool]
    | some ord => cases hh : o.holds ord <;> cases b <;> simp [Truth.ofBool, hh]
  have hdefinite : .unknown ≠ Truth.ofBool b ∧ .err ≠ Truth.ofBool b := by
    cases b <;> simp [Truth.ofBool]
  cases x with
  | none => exact iff_of_false hdefinite.2 (by simp)
  | some u =>
    cases y with
    | none =>
      have hfails : strict₂ (compareOp pg o) (some u) none = .err := by cases u <;> rfl
      exact hfails ▸ iff_of_false hdefinite.2 (by simp)
    | some v =>
      by_cases hu : u = .null
      · subst hu
        have hnone : compareValues pg .null v = none := by cases v <;> rfl
        exact iff_of_false hdefinite.1 (by simp [hnone])
      · by_cases hv : v = .null
        · subst hv
          have hnull : strict₂ (compareOp pg o) (some u) (some .null) = .unknown := by
            cases u <;> rfl
          have hnone : compareValues pg u .null = none := by cases u <;> rfl
          exact hnull ▸ iff_of_false hdefinite.1 (by simp [hnone])
        · rw [strict₂, hop]
          · simp
          all_goals simp_all

theorem eq_of_compareValues_eq {pg : Backend} {u v : Value}
    (h : compareValues pg u v = some .eq) : u = v := by
  have hite : ∀ {p q : Prop} [Decidable p] [Decidable q],
      (if p then Ordering.eq else if q then .lt else .gt) = .eq → p := by
    intro p q _ _ hord
    by_contra hp
    rw [if_neg hp] at hord
    split at hord <;> cases hord
  cases u <;> cases v <;> simp only [compareValues, Option.some.injEq, reduceCtorEq] at h
  case bool.bool | date.date | timestamptz.timestamptz => rw [compare_eq_iff_eq.mp h]
  case text.text | numeric.numeric | float8.float8 => rw [hite h]
  case uuid.uuid => rw [BitVec.eq_of_toNat_eq (compare_eq_iff_eq.mp h)]

/-- An equality that holds is equality of values. -/
theorem eq_of_strict₂_compareOp_eq {pg : Backend} {x y : Option Value}
    (h : strict₂ (compareOp pg .eq) x y = .tt) : x = y := by
  have hdefinite : strict₂ (compareOp pg .eq) x y = .ofBool true := h
  obtain ⟨u, v, ord, rfl, rfl, hcmp, hord⟩ := (strict₂_compareOp_eq_ofBool pg rfl).mp hdefinite
  have heq : ord = .eq := by simpa [Op.holds] using hord
  subst heq
  rw [eq_of_compareValues_eq hcmp]

def ilikeOp (pg : Backend) : Value → Value → Truth
  | .text s, .text pattern => .ofBool (pg.ilike s pattern)
  | _, _ => .err

def castText (pg : Backend) (s : String) : SqlType → Option Value
  | .text => some (.text s)
  | .uuid => (pg.uuidIn s).map .uuid
  | .numeric => (pg.numericIn s).map .numeric
  | .float8 => (pg.float8In s).map .float8
  | .boolean => (pg.boolIn s).map .bool
  | .date => (pg.dateIn s).map .date
  | .timestamptz => (pg.timestamptzIn s).map .timestamptz

/-- `e::ty`.  A value is cast to its own type, to text, or from text. -/
def castOp (pg : Backend) (ty : SqlType) : Value → Option Value
  | .null => some .null
  | .text s => castText pg s ty
  | v =>
    match ty, v with
    | .text, v => some (.text (pg.textOut v))
    | .uuid, .uuid u => some (.uuid u)
    | .numeric, .numeric q => some (.numeric q)
    | .float8, .float8 q => some (.float8 q)
    | .float8, .numeric q => some (.float8 q)
    | .boolean, .bool b => some (.bool b)
    | .date, .date d => some (.date d)
    | .timestamptz, .timestamptz t => some (.timestamptz t)
    | _, _ => none

/-! ## Operands of open type -/

/-- The type of a value that can be written as text; a null has none of its own. -/
def Value.sqlType : Value → Option SqlType
  | .bool _ => some .boolean
  | .text _ => some .text
  | .uuid _ => some .uuid
  | .numeric _ => some .numeric
  | .float8 _ => some .float8
  | .date _ => some .date
  | .timestamptz _ => some .timestamptz
  | _ => none

/-- A placeholder or a quoted literal has the type its context gives it. -/
def Expr.isUntyped : Expr → Bool
  | .param _ | .str _ => true
  | _ => false

/-- A text of open type is read as an input of the type of the value beside it.  Beside a null there
is no type to read it by, and a text that is no input of the column's type goes unnoticed. -/
def readBeside (pg : Backend) (other : Option Value) : Option Value → Option Value
  | some (.text s) =>
    match other.bind Value.sqlType with
    | some ty => castText pg s ty
    | none => some (.text s)
  | v => v

/-- The value of an operand of a comparison, beside that of the other one. -/
def Expr.operand (pg : Backend) (e : Expr) (other v : Option Value) : Option Value :=
  if e.isUntyped then readBeside pg other v else v

theorem sqlType_of_compareValues {pg : Backend} {u v : Value}
    (h : (compareValues pg u v).isSome = true) : u.sqlType = v.sqlType := by
  cases u <;> cases v <;> first | rfl | cases h

/-! ## Text of a JSON value -/

/-- A JSON value as SQL text: `null` is SQL's null, a string is its own text, and the stored
form of everything else has one blank after each comma and colon. -/
def jsonText : Json → Value
  | .null => .null
  | .str s => .text s
  | j => .text (j.render ", " ": ")

/-! ## Expressions -/

/-- What an expression is evaluated in. -/
structure Env where
  row : String → Option Value
  params : List Value

def evalCall (pg : Backend) : String → List Value → Option Value
  | "jsonb_extract_path_text", [.jsonb (.obj fields), .text key] =>
    some (((JsonObject.get fields key).map jsonText).getD .null)
  | "to_tsvector", [.text config, .text doc] => some (.tsvector config doc)
  | "plainto_tsquery", [.text config, .text query] => some (.tsquery config query)
  | "nullif", [.null, _] => some .null
  | "nullif", [a, b] =>
    match compareValues pg a b with
    | some .eq => some .null
    | some _ => some a
    | none => if b = .null then some a else none
  | f, args => if .null ∈ args then some .null else pg.fn f args

mutual

def eval (pg : Backend) (env : Env) : Expr → Option Value
  | .col c => env.row c
  | .param n => if n = 0 then none else env.params[n - 1]?
  | .str s => some (.text s)
  | .bool b => some (.bool b)
  | .star => none
  | .call f args => (evalList pg env args).bind (evalCall pg f)
  | .cast e ty => (eval pg env e).bind (castOp pg ty)
  | .binop o l r =>
    let a := eval pg env l
    let b := eval pg env r
    (strict₂ (compareOp pg o) (l.operand pg b a) (r.operand pg a b)).toValue
  | .ilike negated l r =>
    let t := strict₂ (ilikeOp pg) (eval pg env l) (eval pg env r)
    (if negated then t.not else t).toValue
  | .inList negated l rs =>
    let t := evalIn pg env l (eval pg env l) rs
    (if negated then t.not else t).toValue
  | .isNull negated e =>
    (eval pg env e).map fun v => .bool (decide (v = .null) != negated)
  | .not e => (Truth.not (.ofValue (eval pg env e))).toValue
  | .and l r => (Truth.and (.ofValue (eval pg env l)) (.ofValue (eval pg env r))).toValue
  | .or l r => (Truth.or (.ofValue (eval pg env l)) (.ofValue (eval pg env r))).toValue

def evalList (pg : Backend) (env : Env) : List Expr → Option (List Value)
  | [] => some []
  | e :: es => do
    let v ← eval pg env e
    let vs ← evalList pg env es
    return v :: vs

/-- `l IN (e₁, …)`, where `l` has the value `a`: the disjunction of the equalities. -/
def evalIn (pg : Backend) (env : Env) (l : Expr) (a : Option Value) : List Expr → Truth
  | [] => .ff
  | e :: es =>
    let b := eval pg env e
    (strict₂ (compareOp pg .eq) (l.operand pg b a) (e.operand pg a b)).or (evalIn pg env l a es)

end

/-- The truth value of a condition on a row. -/
def truth (pg : Backend) (env : Env) (e : Expr) : Truth := .ofValue (eval pg env e)

/-- What a chaining connective does to truth values. -/
def Chain.combine : Chain → Truth → Truth → Truth
  | .and => Truth.and
  | .or => Truth.or

/-- The truth of the empty chain. -/
def Chain.unit : Chain → Truth
  | .and => .tt
  | .or => .ff

section truth

variable {pg : Backend} {env : Env}

@[simp]
theorem truth_bool (b : Bool) : truth pg env (.bool b) = .ofBool b := by
  simp [truth, eval, Truth.ofValue]

@[simp]
theorem truth_not (e : Expr) : truth pg env (.not e) = (truth pg env e).not := by
  simp [truth, eval]

@[simp]
theorem truth_and (l r : Expr) :
    truth pg env (.and l r) = (truth pg env l).and (truth pg env r) := by
  simp [truth, eval]

@[simp]
theorem truth_or (l r : Expr) : truth pg env (.or l r) = (truth pg env l).or (truth pg env r) := by
  simp [truth, eval]

@[simp]
theorem truth_binop (o : Op) (l r : Expr) :
    truth pg env (.binop o l r) =
      strict₂ (compareOp pg o) (l.operand pg (eval pg env r) (eval pg env l))
        (r.operand pg (eval pg env l) (eval pg env r)) := by
  simp [truth, eval]

theorem truth_inList (negated : Bool) (l : Expr) (rs : List Expr) :
    truth pg env (.inList negated l rs) = if negated then (evalIn pg env l (eval pg env l) rs).not
      else evalIn pg env l (eval pg env l) rs := by
  cases negated <;> simp [truth, eval]

/-- A chain has the truth of its members combined from the right: which way it nests does not
matter. -/
theorem truth_foldl_chain (ch : Chain) (es : List Expr) (e : Expr) :
    truth pg env (es.foldl ch.expr e) = ch.combine (truth pg env e)
        (es.foldr (fun e' t => ch.combine (truth pg env e') t) ch.unit) := by
  induction es generalizing e with
  | nil => cases ch <;> simp [Chain.combine, Chain.unit]
  | cons e' es ih =>
    cases ch
    · simpa [Chain.combine, Chain.expr, Truth.and_assoc] using ih (.and e e')
    · simpa [Chain.combine, Chain.expr, Truth.or_assoc] using ih (.or e e')

end truth

end Metap.Sql
