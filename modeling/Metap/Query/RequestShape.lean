import Metap.Framework.Lockstep
import Metap.Query.PlanAggregate

/-!
# Requests of one shape

A request carries names (fields, list views, sorts, metrics) and literals (filter values, the
literals of its JQL, the position of its cursor, the ends of a time range).  `SameListShape` and
`SameAggregateShape` say that two requests differ in literals only.  Whether a filter value is
empty is part of the shape, since an empty value asks for rows where the field is unset; so is
whether the cursor's value is null.

Two JQL texts have one shape when their tokens have the same kinds and the same identifiers, so
that only the texts of string and number literals differ (`SameToken`).  The parser looks at kinds
and identifiers only, hence both texts are refused or both parse, to expressions that differ in
literals only (`SameExpr`).
-/

namespace Metap.Query

open Builder

/-! ## Tokens, values and expressions -/

/-- Tokens of one kind; identifiers are the same, the texts of literals may differ. -/
inductive SameToken : JqlToken → JqlToken → Prop
  | same (t : JqlToken) : SameToken t t
  | str (s s' : String) : SameToken (.str s) (.str s')
  | number (s s' : String) : SameToken (.number s) (.number s')

inductive SameValue : JqlValue → JqlValue → Prop
  | str (s s' : String) : SameValue (.str s) (.str s')
  | bool (b : Bool) : SameValue (.bool b) (.bool b)

mutual

/-- Expressions that differ in the texts of their literals only. -/
inductive SameExpr : JqlExpr → JqlExpr → Prop
  | compare (field : String) (op : JqlCompareOp) {v v' : JqlValue} :
    SameValue v v' → SameExpr (.compare field op v) (.compare field op v')
  | inList (field : String) (negate : Bool) {vs vs' : List JqlValue} :
    List.Forall₂ SameValue vs vs' → SameExpr (.inList field negate vs) (.inList field negate vs')
  | isEmpty (field : String) (negate : Bool) :
    SameExpr (.isEmpty field negate) (.isEmpty field negate)
  | and {e e' : JqlExpr} {es es' : List JqlExpr} :
    SameExpr e e' → SameExprs es es' → SameExpr (.and e es) (.and e' es')
  | or {e e' : JqlExpr} {es es' : List JqlExpr} :
    SameExpr e e' → SameExprs es es' → SameExpr (.or e es) (.or e' es')
  | not {e e' : JqlExpr} : SameExpr e e' → SameExpr (.not e) (.not e')

inductive SameExprs : List JqlExpr → List JqlExpr → Prop
  | nil : SameExprs [] []
  | cons {e e' : JqlExpr} {es es' : List JqlExpr} :
    SameExpr e e' → SameExprs es es' → SameExprs (e :: es) (e' :: es')

end

/-- Parsed queries that differ in the texts of their literals only. -/
structure SameParsed (p p' : ParsedJql) : Prop where
  expr : Option.Rel SameExpr p.expr p'.expr
  orderBy : p.orderBy = p'.orderBy

abbrev SameTokens : List JqlToken → List JqlToken → Prop := List.Forall₂ SameToken

/-! ## The parser -/

namespace JqlParser

/-- The tokens whose kind says everything. -/
def IsMark : JqlToken → Prop
  | .str _ | .number _ => False
  | _ => True

variable {kind : JqlToken}

theorem head?_eq_of_isMark {ts ts' : List JqlToken} (h : SameTokens ts ts')
    (hkind : IsMark kind) : ts.head? = some kind ↔ ts'.head? = some kind := by
  cases h with
  | nil => exact Iff.rfl
  | cons hhead htail =>
    cases hhead with
    | same t => exact Iff.rfl
    | str s s' | number s s' =>
      refine iff_of_false ?_ ?_ <;> intro h <;> cases h <;> exact hkind

theorem lockstep_peek : Lockstep SameTokens (Option.Rel SameToken) peek peek := by
  refine lockstep_bind lockstep_get fun ts ts' hts => lockstep_pure ?_
  cases hts with
  | nil => exact .none
  | cons hhead _ => exact .some hhead

theorem lockstep_advance : Lockstep SameTokens (Option.Rel SameToken) advance advance := by
  refine lockstep_bind lockstep_get fun ts ts' hts => ?_
  cases hts with
  | nil => exact lockstep_bind (lockstep_set .nil) fun _ _ _ => lockstep_pure .none
  | cons hhead htail =>
    exact lockstep_bind (lockstep_set htail) fun _ _ _ => lockstep_pure (.some hhead)

theorem lockstep_eat (hkind : IsMark kind) : Lockstep SameTokens Eq (eat kind) (eat kind) := by
  have hpeek : Lockstep SameTokens (fun t t' => t = some kind ↔ t' = some kind) peek peek :=
    lockstep_bind lockstep_get fun ts ts' hts => lockstep_pure (head?_eq_of_isMark hts hkind)
  refine lockstep_bind hpeek fun t t' ht => ?_
  by_cases htoken : t = some kind
  · rw [if_pos htoken, if_pos (ht.mp htoken)]
    exact lockstep_bind lockstep_advance fun _ _ _ => lockstep_pure rfl
  · rw [if_neg htoken, if_neg (mt ht.mpr htoken)]
    exact lockstep_pure rfl

theorem lockstep_error {α β : Type} {R : α → β → Prop} (message message' : String) :
    Lockstep SameTokens R (error message) (error message') :=
  lockstep_throw _ _

/-- What is done when a token is eaten, and what when it is not there. -/
theorem lockstep_ifEat {α β : Type} {R : α → β → Prop} (hkind : IsMark kind)
    {f : Bool → JqlParser α} {g : Bool → JqlParser β}
    (htrue : Lockstep SameTokens R (f true) (g true))
    (hfalse : Lockstep SameTokens R (f false) (g false)) :
    Lockstep SameTokens R (eat kind >>= f) (eat kind >>= g) := by
  refine lockstep_bind (lockstep_eat hkind) fun b b' hb => ?_
  subst hb
  cases b with
  | true => exact htrue
  | false => exact hfalse

theorem lockstep_expect (hkind : IsMark kind) (what : String) :
    Lockstep SameTokens Eq (expect kind what) (expect kind what) :=
  lockstep_ifEat hkind (lockstep_pure rfl) (lockstep_error _ _)

theorem lockstep_expectIdent : Lockstep SameTokens Eq expectIdent expectIdent := by
  refine lockstep_bind lockstep_advance fun t t' ht => ?_
  cases ht with
  | none => exact lockstep_error _ _
  | @some token token' h =>
    cases h with
    | str | number => exact lockstep_error _ _
    | same =>
      cases token with
      | ident text => exact lockstep_pure rfl
      | _ => exact lockstep_error _ _

theorem lockstep_parseValue : Lockstep SameTokens SameValue parseValue parseValue := by
  refine lockstep_bind lockstep_advance fun t t' ht => ?_
  cases ht with
  | none => exact lockstep_error _ _
  | @some token token' h =>
    cases h with
    | str s s' | number s s' => exact lockstep_pure (.str s s')
    | same =>
      cases token with
      | str s | number s => exact lockstep_pure (.str s s)
      | kwTrue => exact lockstep_pure (.bool true)
      | kwFalse => exact lockstep_pure (.bool false)
      | _ => exact lockstep_error _ _

theorem lockstep_moreValues (n : ℕ) :
    Lockstep SameTokens (List.Forall₂ SameValue) (moreValues n) (moreValues n) := by
  induction n with
  | zero => exact lockstep_pure .nil
  | succ n ih =>
    refine lockstep_ifEat (by trivial) ?_ (lockstep_pure .nil)
    refine lockstep_bind lockstep_parseValue fun v v' hv => ?_
    exact lockstep_bind ih fun vs vs' hvs => lockstep_pure (.cons hv hvs)

theorem lockstep_parseValueList :
    Lockstep SameTokens (List.Forall₂ SameValue) parseValueList parseValueList := by
  refine lockstep_bind (lockstep_expect (by trivial) _) fun _ _ _ => ?_
  refine lockstep_bind lockstep_parseValue fun v v' hv => ?_
  refine lockstep_bind lockstep_get fun ts ts' hts => ?_
  rw [List.Forall₂.length_eq hts]
  refine lockstep_bind (lockstep_moreValues _) fun vs vs' hvs => ?_
  exact lockstep_bind (lockstep_expect (by trivial) _) fun _ _ _ => lockstep_pure (.cons hv hvs)

theorem lockstep_parseComparison :
    Lockstep SameTokens SameExpr parseComparison parseComparison := by
  refine lockstep_bind lockstep_expectIdent fun field field' hfield => ?_
  subst hfield
  have hcompare : ∀ op, Lockstep SameTokens SameExpr
      (do return JqlExpr.compare field op (← parseValue))
      (do return JqlExpr.compare field op (← parseValue)) := fun op =>
    lockstep_bind lockstep_parseValue fun v v' hv => lockstep_pure (.compare field op hv)
  have hin : ∀ negate, Lockstep SameTokens SameExpr
      (do return JqlExpr.inList field negate (← parseValueList))
      (do return JqlExpr.inList field negate (← parseValueList)) := fun negate =>
    lockstep_bind lockstep_parseValueList fun vs vs' hvs => lockstep_pure (.inList field negate hvs)
  refine lockstep_bind lockstep_advance fun t t' ht => ?_
  cases ht with
  | none => exact lockstep_error _ _
  | @some token token' h =>
    cases h with
    | str | number => exact lockstep_error _ _
    | same =>
      cases token with
      | eq | ne | gt | gte | lt | lte | tilde | notTilde => exact hcompare _
      | kwIn => exact hin false
      | kwNot => exact lockstep_bind (lockstep_expect (by trivial) _) fun _ _ _ => hin true
      | kwIs =>
        refine lockstep_bind (lockstep_eat trivial) fun negate negate' hnegate => ?_
        subst hnegate
        refine lockstep_bind (lockstep_expect (by trivial) _) fun _ _ _ => ?_
        exact lockstep_pure (.isEmpty field negate)
      | _ => exact lockstep_error _ _

mutual

theorem lockstep_parseOr : ∀ n, Lockstep SameTokens SameExpr (parseOr n) (parseOr n)
  | 0 => lockstep_error _ _
  | n + 1 => by
    rw [parseOr]
    refine lockstep_bind (lockstep_parseAnd n) fun e e' he => ?_
    refine lockstep_bind (lockstep_moreOr n) fun es es' hes => ?_
    cases hes with
    | nil => exact lockstep_pure he
    | cons h hs => exact lockstep_pure (.or he (.cons h hs))

theorem lockstep_moreOr : ∀ n, Lockstep SameTokens SameExprs (moreOr n) (moreOr n)
  | 0 => by
    rw [moreOr]
    exact lockstep_pure .nil
  | n + 1 => by
    rw [moreOr]
    refine lockstep_ifEat (by trivial) ?_ (lockstep_pure .nil)
    refine lockstep_bind (lockstep_parseAnd n) fun e e' he => ?_
    exact lockstep_bind (lockstep_moreOr n) fun es es' hes => lockstep_pure (.cons he hes)

theorem lockstep_parseAnd : ∀ n, Lockstep SameTokens SameExpr (parseAnd n) (parseAnd n)
  | 0 => lockstep_error _ _
  | n + 1 => by
    rw [parseAnd]
    refine lockstep_bind (lockstep_parseNot n) fun e e' he => ?_
    refine lockstep_bind (lockstep_moreAnd n) fun es es' hes => ?_
    cases hes with
    | nil => exact lockstep_pure he
    | cons h hs => exact lockstep_pure (.and he (.cons h hs))

theorem lockstep_moreAnd : ∀ n, Lockstep SameTokens SameExprs (moreAnd n) (moreAnd n)
  | 0 => by
    rw [moreAnd]
    exact lockstep_pure .nil
  | n + 1 => by
    rw [moreAnd]
    refine lockstep_ifEat (by trivial) ?_ (lockstep_pure .nil)
    refine lockstep_bind (lockstep_parseNot n) fun e e' he => ?_
    exact lockstep_bind (lockstep_moreAnd n) fun es es' hes => lockstep_pure (.cons he hes)

theorem lockstep_parseNot : ∀ n, Lockstep SameTokens SameExpr (parseNot n) (parseNot n)
  | 0 => lockstep_error _ _
  | n + 1 => by
    rw [parseNot]
    refine lockstep_ifEat (by trivial) ?_ (lockstep_parsePrimary n)
    exact lockstep_bind (lockstep_parseNot n) fun e e' he => lockstep_pure (.not he)

theorem lockstep_parsePrimary : ∀ n, Lockstep SameTokens SameExpr (parsePrimary n) (parsePrimary n)
  | 0 => lockstep_error _ _
  | n + 1 => by
    rw [parsePrimary]
    refine lockstep_ifEat (by trivial) ?_ lockstep_parseComparison
    refine lockstep_bind (lockstep_parseOr n) fun e e' he => ?_
    exact lockstep_bind (lockstep_expect (by trivial) _) fun _ _ _ => lockstep_pure he

end

/-- What `parseQuery` does after the filter. -/
def parseRest (expr : Option JqlExpr) : JqlParser ParsedJql := do
  let orderBy ←
    if ← eat .kwOrder then
      expect .kwBy "`BY` after `ORDER`"
      let field ← expectIdent
      if ← eat .kwDesc then pure (some { field, descending := true })
      else
        let _ ← eat .kwAsc
        pure (some { field, descending := false })
    else pure none
  match ← peek with
  | none => return { expr, orderBy }
  | some _ => error "Unexpected trailing input"

theorem lockstep_parseRest {expr expr' : Option JqlExpr} (hexpr : Option.Rel SameExpr expr expr') :
    Lockstep SameTokens SameParsed (parseRest expr) (parseRest expr') := by
  have hend : ∀ orderBy, Lockstep SameTokens SameParsed
      (do match ← peek with
          | none => return ⟨expr, orderBy⟩
          | some _ => error "Unexpected trailing input")
      (do match ← peek with
          | none => return ⟨expr', orderBy⟩
          | some _ => error "Unexpected trailing input") := by
    intro orderBy
    refine lockstep_bind lockstep_peek fun t t' ht => ?_
    cases ht with
    | none => exact lockstep_pure ⟨hexpr, rfl⟩
    | some _ => exact lockstep_error _ _
  refine lockstep_ifEat (by trivial) ?_ (hend none)
  refine lockstep_bind (lockstep_expect (by trivial) _) fun _ _ _ => ?_
  refine lockstep_bind lockstep_expectIdent fun field field' hfield => ?_
  subst hfield
  refine lockstep_ifEat (by trivial) (hend _) ?_
  exact lockstep_bind (lockstep_eat trivial) fun _ _ _ => hend _

/-- Both queries are refused, or both parse to the same query up to literals. -/
theorem lockstep_parseQuery : Lockstep SameTokens SameParsed parseQuery parseQuery := by
  have hfilter : Lockstep SameTokens SameParsed
      (do parseRest (some (← parseOr (fuel (← get)))))
      (do parseRest (some (← parseOr (fuel (← get))))) := by
    refine lockstep_bind lockstep_get fun ts ts' hts => ?_
    rw [fuel, fuel, List.Forall₂.length_eq hts]
    exact lockstep_bind (lockstep_parseOr _) fun e e' he => lockstep_parseRest (.some he)
  refine lockstep_bind lockstep_peek fun t t' ht => ?_
  cases ht with
  | none => exact lockstep_parseRest .none
  | @some token token' h =>
    cases h with
    | str | number => exact hfilter
    | same =>
      cases token with
      | kwOrder => exact lockstep_parseRest .none
      | _ => exact hfilter

end JqlParser

/-! ## Requests -/

/-- Two JQL texts of one shape: neither is tokenised, or their tokens are the same up to the texts
of literals. -/
def SameJql (jql jql' : String) : Prop :=
  SameOutcome SameTokens (jqlTokenize jql) (jqlTokenize jql')

theorem sameOutcome_parse {jql jql' : String} (h : SameJql jql jql') :
    SameOutcome SameParsed (do JqlParser.parseQuery.run' (← jqlTokenize jql))
      (do JqlParser.parseQuery.run' (← jqlTokenize jql')) := by
  refine h.bind fun ts ts' hts => ?_
  refine (JqlParser.lockstep_parseQuery ts ts' hts).bind ?_
  rintro ⟨p, rest⟩ ⟨p', rest'⟩ ⟨hp, -⟩
  exact .ok hp

/-- Filters on the same fields, with values that are empty in both or in neither. -/
def SameFilters : List (String × String) → List (String × String) → Prop :=
  List.Forall₂ fun kv kv' => kv.1 = kv'.1 ∧ (kv.2 = "" ↔ kv'.2 = "")

/-- Cursors of one sort whose value is null in both or in neither. -/
structure SameCursor (c c' : Cursor) : Prop where
  field : c.field = c'.field
  dir : c.dir = c'.dir
  value : c.value.isSome = c'.value.isSome

/-- List requests that differ in literals only.  A cursor has a shape when it can be decoded. -/
structure SameListShape (readCursor : String → Option Cursor) (input input' : ListInput) :
    Prop where
  limit : input.limit = input'.limit
  sort : input.sort = input'.sort
  filters : SameFilters input.filters input'.filters
  cursor : Option.Rel (fun raw raw' => Option.Rel SameCursor (decodeCursor readCursor raw)
    (decodeCursor readCursor raw')) input.cursor input'.cursor
  listView : input.listView = input'.listView
  jql : Option.Rel SameJql input.jql input'.jql

/-- Aggregation requests that differ in literals only. -/
structure SameAggregateShape (input input' : AggregateInput) : Prop where
  metrics : input.metrics = input'.metrics
  groupBy : input.groupBy = input'.groupBy
  bucket : input.bucket = input'.bucket
  timeField : input.timeField = input'.timeField
  filters : SameFilters input.filters input'.filters
  since : input.since.isSome = input'.since.isSome
  «until» : input.until.isSome = input'.until.isSome
  limit : input.limit = input'.limit

theorem SameFilters.allowedFilters {filters filters' : List (String × String)}
    (h : SameFilters filters filters') (fields : List String) :
    SameFilters (allowedFilters fields filters) (allowedFilters fields filters') := by
  unfold Query.allowedFilters
  induction h with
  | nil => exact .nil
  | @cons kv kv' rest rest' hhead htail ih =>
    rw [List.filter_cons, List.filter_cons, ← hhead.1]
    split
    · exact .cons hhead ih
    · exact ih

/-- Cursors that are both refused, or accepted and of one shape. -/
def SamePosition (parseUuid : String → Option Uuid) (readCursor : String → Option Cursor)
    (raw raw' : String) : Prop :=
  Option.Rel (fun c c' => SameCursor c c' ∧ (parseUuid c.id).isSome = (parseUuid c'.id).isSome)
    (decodeCursor readCursor raw) (decodeCursor readCursor raw')

/-- The texts, the limit and the sort of two plans are the same, and they have as many
parameters. -/
structure SamePlan (q q' : PlannedListQuery) : Prop where
  whereSQL : q.whereSQL = q'.whereSQL
  orderBySQL : q.orderBySQL = q'.orderBySQL
  params : q.params.length = q'.params.length
  limit : q.limit = q'.limit
  resolvedSort : q.resolvedSort = q'.resolvedSort

theorem rel_of_isSome {α : Type} {o o' : Option α} (h : o.isSome = o'.isSome) :
    Option.Rel (fun _ _ => True) o o' := by
  cases o <;> cases o' <;> first | exact .none | exact .some trivial | cases h

/-! ## Every request has its own shape -/

theorem SameJql.refl (jql : String) : SameJql jql jql := by
  unfold SameJql
  cases jqlTokenize jql with
  | error e => exact .error e e
  | ok ts => exact .ok (List.forall₂_same.mpr fun t _ => .same t)

theorem SameFilters.refl (filters : List (String × String)) : SameFilters filters filters :=
  List.forall₂_same.mpr fun _ _ => ⟨rfl, Iff.rfl⟩

theorem rel_refl {α : Type} {R : α → α → Prop} (h : ∀ a, R a a) : ∀ o, Option.Rel R o o
  | none => .none
  | some a => .some (h a)

theorem SameListShape.refl (readCursor : String → Option Cursor) (input : ListInput) :
    SameListShape readCursor input input := by
  have hcursor : ∀ c, SameCursor c c := fun _ => ⟨rfl, rfl, rfl⟩
  refine ⟨rfl, rfl, .refl _, ?_, rfl, rel_refl .refl _⟩
  cases input.cursor with
  | none => exact .none
  | some raw => exact .some (rel_refl hcursor _)

theorem SameAggregateShape.refl (input : AggregateInput) : SameAggregateShape input input :=
  ⟨rfl, rfl, rfl, rfl, .refl _, rfl, rfl, rfl⟩

end Metap.Query
