import Metap.Framework.Sql.Lexer

/-!
# Parsing SQL expressions with operator precedence

The expression grammar of the dialect, from the loosest operator to the tightest:
`OR`, `AND`, `NOT`, `IS [NOT] NULL`, the comparisons, `IN`/`ILIKE`, the other infix
operators, `::`, and primaries.  `parseExpr` is the recursive-descent parser for one level
of that table; it is structurally recursive on a fuel argument, and `parse` supplies a fuel
that every text is long enough for.

A text is read in two steps, lexing and parsing.  `Reads lvl s e` says that `s` lexes to a
token list which every context that may follow it at level `lvl` parses back to exactly `e`
(`Parses`).  The closure lemmas of this file follow the grammar: one lemma for each operator,
for a parenthesised expression (which may hold the loosest operator and is itself a primary),
and for a chain joined by `AND` or `OR`.  A text generator that only ever concatenates along
these lemmas cannot be re-associated by its context.
-/

namespace Metap.Sql

/-- The types an expression is cast to. -/
inductive SqlType where
  | text | uuid | numeric | float8 | boolean | date | timestamptz
  deriving DecidableEq, Repr

/-- SQL expressions. `star` stands only as the argument of `count`. -/
inductive Expr where
  | col (name : String)
  | param (n : ℕ)
  | str (s : String)
  | bool (b : Bool)
  | star
  | call (fn : String) (args : List Expr)
  | cast (e : Expr) (ty : SqlType)
  | binop (o : Op) (l r : Expr)
  | ilike (negated : Bool) (l r : Expr)
  | inList (negated : Bool) (l : Expr) (rs : List Expr)
  | isNull (negated : Bool) (e : Expr)
  | not (e : Expr)
  | and (l r : Expr)
  | or (l r : Expr)
  deriving Repr

/-- Precedence levels, tightest first. -/
inductive Level where
  | prim | cast | op | in | cmp | is | not | and | or
  deriving DecidableEq, Repr

namespace Level

def rank : Level → ℕ
  | prim => 0
  | cast => 1
  | op => 2
  | .in => 3
  | cmp => 4
  | is => 5
  | .not => 6
  | .and => 7
  | .or => 8

/-- The next tighter level. -/
def tighter : Level → Level
  | prim => prim
  | cast => prim
  | op => cast
  | .in => op
  | cmp => .in
  | is => cmp
  | .not => is
  | .and => .not
  | .or => .and

end Level

/-- A type name after `::`; `double precision` is the one name of two words. -/
def parseType : List Tok → Option (SqlType × List Tok)
  | .ident "double" :: .ident "precision" :: r => some (.float8, r)
  | .ident "float8" :: r => some (.float8, r)
  | .ident "text" :: r => some (.text, r)
  | .ident "uuid" :: r => some (.uuid, r)
  | .ident "numeric" :: r => some (.numeric, r)
  | .ident "boolean" :: r => some (.boolean, r)
  | .ident "date" :: r => some (.date, r)
  | .ident "timestamptz" :: r => some (.timestamptz, r)
  | _ => none

/-- Whether an operator token is a comparison (the other ones bind tighter). -/
def Op.isComparison : Op → Bool
  | .tsMatch => false
  | _ => true

mutual

/-- Parse the longest expression of a level at the front of the tokens. -/
def parseExpr : ℕ → Level → List Tok → Option (Expr × List Tok)
  | 0, _, _ => none
  | n + 1, .prim, ts => parsePrim n ts
  | n + 1, .not, ts =>
    match ts with
    | .kw .not :: r => (parseExpr n .not r).map fun p => (.not p.1, p.2)
    | ts => parseExpr n .is ts
  | n + 1, lvl, ts => (parseExpr n lvl.tighter ts).bind fun p => parseRest n lvl p.1 p.2

/-- Parse the operators of a level that follow its left operand `e`. -/
def parseRest : ℕ → Level → Expr → List Tok → Option (Expr × List Tok)
  | 0, _, _, _ => none
  | n + 1, .or, e, .kw .or :: r =>
    (parseExpr n .and r).bind fun p => parseRest n .or (.or e p.1) p.2
  | n + 1, .and, e, .kw .and :: r =>
    (parseExpr n .not r).bind fun p => parseRest n .and (.and e p.1) p.2
  | n + 1, .is, e, .kw .is :: .kw .null :: r => parseRest n .is (.isNull false e) r
  | n + 1, .is, e, .kw .is :: .kw .not :: .kw .null :: r => parseRest n .is (.isNull true e) r
  | n + 1, .cmp, e, .op o :: r =>
    if o.isComparison then (parseExpr n .in r).map fun p => (.binop o e p.1, p.2)
    else some (e, .op o :: r)
  | n + 1, .in, e, .kw .in :: .lparen :: r => parseList n (.inList false e) r
  | n + 1, .in, e, .kw .not :: .kw .in :: .lparen :: r => parseList n (.inList true e) r
  | n + 1, .in, e, .kw .ilike :: r =>
    (parseExpr n .op r).map fun p => (.ilike false e p.1, p.2)
  | n + 1, .in, e, .kw .not :: .kw .ilike :: r =>
    (parseExpr n .op r).map fun p => (.ilike true e p.1, p.2)
  | n + 1, .op, e, .op o :: r =>
    if o.isComparison then some (e, .op o :: r)
    else (parseExpr n .cast r).bind fun p => parseRest n .op (.binop o e p.1) p.2
  | n + 1, .cast, e, .typecast :: r =>
    (parseType r).bind fun p => parseRest n .cast (.cast e p.1) p.2
  | _ + 1, _, e, r => some (e, r)

def parsePrim : ℕ → List Tok → Option (Expr × List Tok)
  | 0, _ => none
  | _ + 1, .param k :: r => some (.param k, r)
  | _ + 1, .str s :: r => some (.str s, r)
  | _ + 1, .kw .true :: r => some (.bool true, r)
  | _ + 1, .kw .false :: r => some (.bool false, r)
  | _ + 1, .ident f :: .lparen :: .star :: .rparen :: r => some (.call f [.star], r)
  | n + 1, .ident f :: .lparen :: r => parseList n (.call f) r
  | _ + 1, .ident c :: r => some (.col c, r)
  | n + 1, .lparen :: r =>
    (parseExpr n .or r).bind fun p =>
      match p.2 with
      | .rparen :: r' => some (p.1, r')
      | _ => none
  | _ + 1, _ => none

/-- Parse `e, …, e )` and give the expressions to `k`. -/
def parseList : ℕ → (List Expr → Expr) → List Tok → Option (Expr × List Tok)
  | 0, _, _ => none
  | n + 1, k, ts =>
    (parseExpr n .or ts).bind fun p =>
      match p.2 with
      | .rparen :: r => some (k [p.1], r)
      | .comma :: r => parseList n (fun es => k (p.1 :: es)) r
      | _ => none

end

/-- The fuel that suffices for a token list at a level. -/
def fuel (lvl : Level) (ts : List Tok) : ℕ := 12 * ts.length + lvl.rank

/-- The expression a text denotes, if all of it is one. -/
def parse (s : String) : Option Expr := do
  let ts ← lex s
  match parseExpr (fuel .or ts + 1) .or ts with
  | some (e, []) => some e
  | _ => none

/-! ## What may follow an expression -/

/-- The rank of the level at which a token continues an expression standing before it. -/
def continuesAt : Tok → Option ℕ
  | .lparen => some 0
  | .typecast => some 1
  | .op o => if o.isComparison then some 4 else some 2
  | .kw .in => some 3
  | .kw .ilike => some 3
  | .kw .not => some 3
  | .kw .is => some 5
  | .kw .and => some 7
  | .kw .or => some 8
  | _ => none

/-- `rest` does not continue an expression of level `lvl`. -/
def Follow (lvl : Level) (rest : List Tok) : Prop :=
  ∀ t ∈ rest.head?, ∀ r, continuesAt t = some r → lvl.rank < r

theorem follow_nil (lvl : Level) : Follow lvl [] := by simp [Follow]

variable {lvl lvl' : Level} {rest ts us : List Tok} {e l r : Expr} {es : List Expr}
  {tss : List (List Tok)}

theorem follow_cons {t : Tok} (h : ∀ r, continuesAt t = some r → lvl.rank < r) :
    Follow lvl (t :: rest) := by
  simpa [Follow] using h

theorem Follow.mono (hle : lvl.rank ≤ lvl'.rank) (h : Follow lvl' rest) : Follow lvl rest :=
  fun t ht r hr => lt_of_le_of_lt hle (h t ht r hr)

theorem Level.rank_tighter_le (lvl : Level) : lvl.tighter.rank ≤ lvl.rank := by
  cases lvl <;> decide

/-- A level's operator loop stops at a token that does not continue it. -/
theorem parseRest_of_follow (h : Follow lvl rest) (n : ℕ) (e : Expr) :
    parseRest (n + 1) lvl e rest = some (e, rest) := by
  cases rest with
  | nil => cases lvl <;> simp [parseRest]
  | cons t rest =>
    have ht : ∀ r, continuesAt t = some r → lvl.rank < r := h t (by simp)
    cases t with
    | kw k => cases lvl <;> cases k <;> simp_all [parseRest, continuesAt, Level.rank]
    | op o =>
      cases ho : o.isComparison <;>
        cases lvl <;> simp_all [parseRest, continuesAt, Level.rank]
    | typecast => cases lvl <;> simp_all [parseRest, continuesAt, Level.rank]
    | ident _ | param _ | str _ | lparen | rparen | comma | star | dot =>
      cases lvl <;> simp [parseRest]

/-! ## Parsing in context -/

/-- `ts` is an expression of level `lvl` denoting `e`, whatever follows it. -/
def Parses (lvl : Level) (ts : List Tok) (e : Expr) : Prop :=
  ∀ n rest, fuel lvl ts < n → Follow lvl rest → parseExpr n lvl (ts ++ rest) = some (e, rest)

/-- `ts` continues a left operand `l` of level `lvl` to `e`, whatever follows it. -/
def Continues (lvl : Level) (l : Expr) (ts : List Tok) (e : Expr) : Prop :=
  ∀ n rest, 12 * ts.length < n → Follow lvl rest →
    parseRest n lvl l (ts ++ rest) = some (e, rest)

theorem continues_nil (lvl : Level) (e : Expr) : Continues lvl e [] e := by
  intro n rest hn hrest
  obtain ⟨n, rfl⟩ : ∃ m, n = m + 1 := ⟨n - 1, by omega⟩
  exact parseRest_of_follow hrest n e

/-- The levels parsed as a left operand followed by an operator loop. -/
def Level.isLoop : Level → Bool
  | .prim => false
  | .not => false
  | _ => true

theorem parseExpr_of_isLoop (h : lvl.isLoop = true) (n : ℕ) (ts : List Tok) :
    parseExpr (n + 1) lvl ts =
      (parseExpr n lvl.tighter ts).bind fun p => parseRest n lvl p.1 p.2 := by
  cases lvl <;> first | rfl | simp [Level.isLoop] at h

theorem Level.rank_tighter_lt (h : lvl.isLoop = true) : lvl.tighter.rank < lvl.rank := by
  cases lvl <;> revert h <;> decide

/-- An operand of the next tighter level, followed by operators of this one. -/
theorem Parses.continue (hl : lvl.isLoop = true)
    (hts : Parses lvl.tighter ts l) (hus : Continues lvl l us e)
    (hstart : ∀ rest, Follow lvl rest → Follow lvl.tighter (us ++ rest)) :
    Parses lvl (ts ++ us) e := by
  intro n rest hn hrest
  have hlt := Level.rank_tighter_lt hl
  simp only [fuel, List.length_append] at hn
  obtain ⟨n, rfl⟩ : ∃ m, n = m + 1 := ⟨n - 1, by omega⟩
  rw [parseExpr_of_isLoop hl, List.append_assoc,
    hts n (us ++ rest) (by simp only [fuel]; omega) (hstart rest hrest), Option.bind_some]
  exact hus n rest (by omega) hrest

theorem Parses.loosen_loop (hl : lvl.isLoop = true) (h : Parses lvl.tighter ts e) :
    Parses lvl ts e := by
  have hp := Parses.continue hl h (continues_nil lvl e)
    (fun rest hrest => hrest.mono (Level.rank_tighter_le lvl))
  simpa using hp

/-- Tokens that begin no primary begin no expression either, except that a leading `NOT` is
for the levels that allow it. -/
theorem parseExpr_eq_none (hprim : ∀ n, parsePrim n ts = none)
    (h : lvl.rank < Level.not.rank ∨ ∀ r, ts ≠ .kw .not :: r) (n : ℕ) :
    parseExpr n lvl ts = none := by
  induction n generalizing lvl with
  | zero => cases lvl <;> rfl
  | succ n ih =>
    cases lvl with
    | prim => exact hprim n
    | not =>
      have hne : ∀ r, ts ≠ .kw .not :: r := h.resolve_left (by decide)
      have hin : parseExpr n .is ts = none := ih (Or.inl (by decide))
      unfold parseExpr
      split
      · exact absurd rfl (hne _)
      · exact hin
    | and | or =>
      have hne : ∀ r, ts ≠ .kw .not :: r := h.resolve_left (by decide)
      rw [parseExpr_of_isLoop rfl, ih (Or.inr hne)]; rfl
    | cast | op | «in» | cmp | is => rw [parseExpr_of_isLoop rfl, ih (Or.inl (by decide))]; rfl

theorem parsePrim_nil (n : ℕ) : parsePrim n [] = none := by cases n <;> rfl

theorem parsePrim_not (n : ℕ) (ts : List Tok) : parsePrim n (.kw .not :: ts) = none := by
  cases n <;> rfl

theorem parsePrim_star (n : ℕ) (ts : List Tok) : parsePrim n (.star :: ts) = none := by
  cases n <;> rfl

/-- Alone, what parses is parsed. -/
theorem Parses.alone (h : Parses lvl ts e) : parseExpr (fuel lvl ts + 1) lvl ts = some (e, []) := by
  simpa using h (fuel lvl ts + 1) [] (by omega) (follow_nil _)

theorem Parses.loosen_not (h : Parses .is ts e) : Parses .not ts e := by
  intro n rest hn hrest
  have halone := h.alone
  obtain ⟨n, rfl⟩ : ∃ m, n = m + 1 := ⟨n - 1, by omega⟩
  have hbody : parseExpr n .is (ts ++ rest) = some (e, rest) :=
    h n rest (by simp only [fuel, Level.rank] at hn ⊢; omega) (hrest.mono (by decide))
  cases ts with
  | nil => simp [parseExpr_eq_none parsePrim_nil (Or.inr (by simp))] at halone
  | cons t ts =>
    by_cases ht : t = .kw .not
    · subst ht
      have hnone : ∀ n, parseExpr n .is (.kw .not :: ts) = none :=
        parseExpr_eq_none (parsePrim_not · ts) (Or.inl (by decide))
      simp [hnone] at halone
    · rw [← hbody, List.cons_append]
      cases t with
      | kw k => cases k <;> first | rfl | exact absurd rfl ht
      | _ => rfl

theorem Parses.not (h : Parses .not ts e) : Parses .not (.kw .not :: ts) (.not e) := by
  intro n rest hn hrest
  simp only [fuel, List.length_cons] at hn
  obtain ⟨n, rfl⟩ : ∃ m, n = m + 1 := ⟨n - 1, by omega⟩
  have hbody := h n rest (by simp only [fuel]; omega) hrest
  simp [parseExpr, hbody]

theorem Parses.loosen_step (hne : lvl ≠ .prim) (h : Parses lvl.tighter ts e) : Parses lvl ts e := by
  cases lvl with
  | prim => exact absurd rfl hne
  | not => exact h.loosen_not
  | cast | op | «in» | cmp | is | and | or => exact h.loosen_loop rfl

/-- An expression of one level is an expression of every looser level. -/
theorem Parses.loosen (hle : lvl.rank ≤ lvl'.rank) (h : Parses lvl ts e) : Parses lvl' ts e := by
  obtain ⟨d, hd⟩ : ∃ d, lvl'.rank = lvl.rank + d := ⟨_, (Nat.add_sub_of_le hle).symm⟩
  induction d generalizing lvl' with
  | zero =>
    obtain rfl : lvl' = lvl := by cases lvl <;> cases lvl' <;> simp_all [Level.rank]
    exact h
  | succ d ih =>
    have hne : lvl' ≠ .prim := by rintro rfl; simp [Level.rank] at hd
    have hstep : lvl'.tighter.rank + 1 = lvl'.rank := by
      cases lvl' <;> first | rfl | exact absurd rfl hne
    exact Parses.loosen_step hne (ih (by omega) (by omega))

/-! ## Operators -/

theorem Parses.comparison {o : Op} (ho : o.isComparison = true) (hts : Parses .in ts l)
    (hus : Parses .in us r) : Parses .cmp (ts ++ .op o :: us) (.binop o l r) := by
  refine Parses.continue rfl hts ?_ fun rest _ => follow_cons (by simp [continuesAt, ho]; decide)
  intro n rest hn hrest
  simp only [List.length_cons] at hn
  obtain ⟨n, rfl⟩ : ∃ m, n = m + 1 := ⟨n - 1, by omega⟩
  have hr := hus n rest (by simp only [fuel, Level.rank]; omega) (hrest.mono (by decide))
  simp [parseRest, ho, hr]

theorem Parses.tsMatch (hts : Parses .cast ts l) (hus : Parses .cast us r) :
    Parses .op (ts ++ .op .tsMatch :: us) (.binop .tsMatch l r) := by
  refine Parses.continue rfl hts ?_ fun rest _ => follow_cons (by simp [continuesAt]; decide)
  intro n rest hn hrest
  simp only [List.length_cons] at hn
  obtain ⟨n, rfl⟩ : ∃ m, n = m + 2 := ⟨n - 2, by omega⟩
  have hr := hus (n + 1) rest (by simp only [fuel, Level.rank]; omega) (hrest.mono (by decide))
  simp [parseRest, Op.isComparison, hr, parseRest_of_follow hrest]

variable (negated : Bool)

theorem Parses.ilike (hts : Parses .op ts l) (hus : Parses .op us r) :
    Parses .in (ts ++ ((if negated then [.kw .not, .kw .ilike] else [.kw .ilike]) ++ us))
      (.ilike negated l r) := by
  refine Parses.continue rfl hts ?_ fun rest _ => ?_
  · intro n rest hn hrest
    obtain ⟨n, rfl⟩ : ∃ m, n = m + 1 := ⟨n - 1, by omega⟩
    have hr := hus n rest (by
      cases negated <;> simp [fuel, Level.rank] at hn ⊢ <;> omega)
      (hrest.mono (by decide))
    cases negated <;> simp [parseRest, hr]
  · cases negated <;> exact follow_cons (by simp [continuesAt]; decide)

theorem Parses.isNull (hts : Parses .cmp ts e) : Parses .is
      (ts ++ (if negated then [.kw .is, .kw .not, .kw .null] else [.kw .is, .kw .null]))
      (.isNull negated e) := by
  refine Parses.continue rfl hts ?_ fun rest _ => ?_
  · intro n rest hn hrest
    obtain ⟨n, rfl⟩ : ∃ m, n = m + 2 := ⟨n - 2, by cases negated <;> simp at hn <;> omega⟩
    cases negated <;> simp [parseRest, parseRest_of_follow hrest]
  · cases negated <;> exact follow_cons (by simp [continuesAt]; decide)

/-- The tokens of a type name. -/
def SqlType.toks : SqlType → List Tok
  | .text => [.ident "text"]
  | .uuid => [.ident "uuid"]
  | .numeric => [.ident "numeric"]
  | .float8 => [.ident "double", .ident "precision"]
  | .boolean => [.ident "boolean"]
  | .date => [.ident "date"]
  | .timestamptz => [.ident "timestamptz"]

theorem parseType_toks (ty : SqlType) (rest : List Tok) :
    parseType (ty.toks ++ rest) = some (ty, rest) := by
  cases ty <;> rfl

/-- A cast to a type written with the tokens `tys`. -/
theorem Parses.castAs {ty : SqlType} {tys : List Tok}
    (hty : ∀ rest, parseType (tys ++ rest) = some (ty, rest)) (hts : Parses .prim ts e) :
    Parses .cast (ts ++ .typecast :: tys) (.cast e ty) := by
  refine Parses.continue rfl hts ?_ fun rest _ => follow_cons (by simp [continuesAt]; decide)
  intro n rest hn hrest
  simp only [List.length_cons] at hn
  obtain ⟨n, rfl⟩ : ∃ m, n = m + 2 := ⟨n - 2, by omega⟩
  simp [parseRest, hty, parseRest_of_follow hrest]

theorem Parses.cast (ty : SqlType) (hts : Parses .prim ts e) :
    Parses .cast (ts ++ .typecast :: ty.toks) (.cast e ty) :=
  hts.castAs (parseType_toks ty)

/-! ## Chains, parentheses and lists -/

/-- The two chaining connectives. -/
inductive Chain where
  | and | or
  deriving DecidableEq, Repr

namespace Chain

def level : Chain → Level
  | .and => .and
  | .or => .or

def tok : Chain → Tok
  | .and => .kw .and
  | .or => .kw .or

def expr : Chain → Expr → Expr → Expr
  | .and => .and
  | .or => .or

end Chain

variable (ch : Chain)

theorem Continues.chain
    (hts : Parses ch.level.tighter ts r) (hus : Continues ch.level (ch.expr l r) us e)
    (hstart : ∀ rest, Follow ch.level rest → Follow ch.level.tighter (us ++ rest)) :
    Continues ch.level l (ch.tok :: ts ++ us) e := by
  intro n rest hn hrest
  simp only [List.length_append, List.length_cons] at hn
  obtain ⟨n, rfl⟩ : ∃ m, n = m + 1 := ⟨n - 1, by omega⟩
  have hr := hts n (us ++ rest)
    (by cases ch <;> simp only [fuel, Chain.level, Level.tighter, Level.rank] <;> omega)
    (hstart rest hrest)
  have he := hus n rest (by omega) hrest
  cases ch <;> simp_all [parseRest, Chain.tok, Chain.level, Chain.expr, Level.tighter]

/-- The tokens of `a₀ OP a₁ OP …` after the first operand. -/
def chainToks (ch : Chain) : List (List Tok) → List Tok
  | [] => []
  | ts :: tss => ch.tok :: ts ++ chainToks ch tss

theorem follow_chainToks (tss : List (List Tok)) (h : Follow ch.level rest) :
    Follow ch.level.tighter (chainToks ch tss ++ rest) := by
  cases tss with
  | nil => exact h.mono (Level.rank_tighter_le _)
  | cons ts tss =>
    refine follow_cons fun r hr => ?_
    cases ch <;> simp_all [Chain.tok, continuesAt, Chain.level, Level.tighter, Level.rank] <;>
      omega

theorem continues_chainToks (h : List.Forall₂ (Parses ch.level.tighter) tss es)
    (l : Expr) : Continues ch.level l (chainToks ch tss) (es.foldl ch.expr l) := by
  induction h generalizing l with
  | nil => exact continues_nil _ _
  | cons hp _ ih => exact Continues.chain ch hp (ih _) fun rest hrest => follow_chainToks _ _ hrest

theorem Parses.chain (hts : Parses ch.level.tighter ts e)
    (h : List.Forall₂ (Parses ch.level.tighter) tss es) :
    Parses ch.level (ts ++ chainToks ch tss) (es.foldl ch.expr e) :=
  Parses.continue (by cases ch <;> rfl) hts (continues_chainToks ch h e)
    fun _ hrest => follow_chainToks ch tss hrest

theorem Parses.paren (h : Parses .or ts e) : Parses .prim (.lparen :: ts ++ [.rparen]) e := by
  intro n rest hn _
  simp only [fuel, List.length_append, List.length_cons, List.length_nil] at hn
  obtain ⟨n, rfl⟩ : ∃ m, n = m + 2 := ⟨n - 2, by omega⟩
  have he := h n (.rparen :: rest) (by simp only [fuel, Level.rank]; omega)
    (follow_cons (by simp [continuesAt]))
  simp [parseExpr, parsePrim, he]

/-- The tokens of `e₁, e₂, …)` after the first expression. -/
def listToks : List (List Tok) → List Tok
  | [] => [.rparen]
  | ts :: tss => .comma :: ts ++ listToks tss

theorem parseList_listToks (hts : Parses .or ts e) (h : List.Forall₂ (Parses .or) tss es)
    (k : List Expr → Expr) {n : ℕ} (hn : 12 * (ts ++ listToks tss).length < n) (rest : List Tok) :
    parseList n k (ts ++ listToks tss ++ rest) = some (k (e :: es), rest) := by
  induction h generalizing ts e k n with
  | nil =>
    simp only [listToks, List.length_append, List.length_cons, List.length_nil] at hn
    obtain ⟨n, rfl⟩ : ∃ m, n = m + 1 := ⟨n - 1, by omega⟩
    have he := hts n (.rparen :: rest) (by simp only [fuel, Level.rank]; omega)
      (follow_cons (by simp [continuesAt]))
    simp [parseList, listToks, he]
  | @cons us e' tss es hus _ ih =>
    simp only [listToks, List.length_append, List.length_cons] at hn
    obtain ⟨n, rfl⟩ : ∃ m, n = m + 1 := ⟨n - 1, by omega⟩
    have he := hts n (.comma :: (us ++ listToks tss ++ rest))
      (by simp only [fuel, Level.rank]; omega) (follow_cons (by simp [continuesAt]))
    have hrec := ih hus (fun es => k (e :: es)) (n := n)
      (by simp only [List.length_append]; omega)
    simp only [List.append_assoc] at he hrec
    simp [parseList, listToks, List.append_assoc, he, hrec]

theorem Parses.call (f : String) (hts : Parses .or ts e) (h : List.Forall₂ (Parses .or) tss es) :
    Parses .prim (.ident f :: .lparen :: (ts ++ listToks tss)) (.call f (e :: es)) := by
  intro n rest hn _
  simp only [fuel, List.length_cons] at hn
  obtain ⟨n, rfl⟩ : ∃ m, n = m + 2 := ⟨n - 2, by omega⟩
  have hl := parseList_listToks hts h (.call f) (n := n) (by omega) rest
  have halone := hts.alone
  -- the `f(*)` form is not taken: no expression begins with a star
  cases ts with
  | nil => simp [parseExpr_eq_none parsePrim_nil (Or.inr (by simp))] at halone
  | cons t ts =>
    cases t with
    | star => simp [parseExpr_eq_none (parsePrim_star · ts) (Or.inr (by simp))] at halone
    | _ => simpa [parseExpr, parsePrim] using hl

theorem Parses.inList (hts : Parses .op ts l) (hus : Parses .or us e)
    (h : List.Forall₂ (Parses .or) tss es) : Parses .in
      (ts ++ ((if negated then [.kw .not, .kw .in] else [.kw .in]) ++
        .lparen :: (us ++ listToks tss))) (.inList negated l (e :: es)) := by
  refine Parses.continue rfl hts ?_ fun rest _ => ?_
  · intro n rest hn hrest
    obtain ⟨n, rfl⟩ : ∃ m, n = m + 1 := ⟨n - 1, by omega⟩
    have hl := parseList_listToks hus h (.inList negated l) (n := n)
      (by cases negated <;> simp at hn ⊢ <;> omega) rest
    simp only [List.append_assoc] at hl
    cases negated <;> simp [parseRest, hl]
  · cases negated <;> exact follow_cons (by simp [continuesAt]; decide)

end Metap.Sql
