import Metap.Query.ConditionToSql
import Metap.Reconciler.TableFit

/-!
# What generated texts mean

The code generators of this directory concatenate texts; `Denotes` and `Means` give such a text
its value or its truth on a row, and the type the database's check finds it to have on a table.
This file has one rule for each way a text is put together, so that a generator's meaning is
derived along its own structure, and the meaning of the two texts all generators share: a field,
and a value at a type.

The types are those over any columns of a set `C`, so that one derivation serves a reader who knows
the table's columns and one who does not.
-/

namespace Metap.Query

open Sql Builder Reconciler

/-! ## Truth of the tests -/

/-- `t`, or `NOT t`. -/
def negateIf (negated : Bool) (t : Truth) : Truth := if negated then t.not else t

/-- `v IS NULL`, or `v IS NOT NULL`. -/
def nullTruth (negated : Bool) : Option Value → Truth
  | none => .err
  | some v => .ofBool (decide (v = .null) != negated)

/-- A value of type `t` beside `v`: what is of open type is read at the type of `v`. -/
def boundAs (pg : Backend) (t : Option PgType) (v w : Option Value) : Option Value :=
  if t = some .unknown then readBeside pg v w else w

/-- A bound value beside `v`: at the type it is cast to, or else at that of `v`. -/
def boundAt (pg : Backend) (ty : Option SqlType) (v w : Option Value) : Option Value :=
  match ty with
  | none => readBeside pg v w
  | some ty => w.bind (castOp pg ty)

/-- `v IN (…)`. -/
def inTruth (pg : Backend) (v : Option Value) (values : List (Option Value)) : Truth :=
  values.foldr (fun w t => (strict₂ (compareOp pg .eq) v w).or t) .ff

/-- A value at a type, or as it is. -/
def castTo (pg : Backend) : Option SqlType → Option Value → Option Value
  | none, v => v
  | some ty, v => v.bind (castOp pg ty)

/-- `to_tsvector('simple', v) @@ plainto_tsquery('simple', w)`. -/
def ftsTruth (pg : Backend) (v w : Option Value) : Truth :=
  strict₂ (compareOp pg .tsMatch)
    (v.bind fun a => evalCall pg "to_tsvector" [.text "simple", a])
    (w.bind fun a => evalCall pg "plainto_tsquery" [.text "simple", a])

/-! ## Texts -/

section

variable (pg : Backend) (C : Set (String → Option PgType))

/-- `s` denotes, with the parameters `fin`, the value `v` of each row; it has the type `t`, which is
open for a placeholder. -/
def Denotes (lvl : Level) (fin : List BindValue) (s : String)
    (v : (String → Option Value) → Option Value) (t : Option PgType) : Prop :=
  ∃ e, Reads lvl s e ∧ (∀ row, eval pg (envOf row fin) e = v row) ∧
    e.isUntyped = decide (t = some .unknown) ∧ ∀ cols ∈ C, typeOf cols e = t

/-- `s` denotes, with the parameters `fin`, the condition `b` on each row; it passes the check
exactly when `ok`. -/
def Means (lvl : Level) (fin : List BindValue) (s : String)
    (b : (String → Option Value) → Truth) (ok : Bool) : Prop :=
  ∃ e, Reads lvl s e ∧ (∀ row, truth pg (envOf row fin) e = b row) ∧
    ∀ cols ∈ C, typeOf cols e = boolIf ok

end

/-! ## Rules -/

theorem separates_eq : Separates " = " [.op .eq] := ⟨rfl, by simp [Delimited]; decide, by simp⟩

theorem separates_ne : Separates " != " [.op .ne] := ⟨rfl, by simp [Delimited]; decide, by simp⟩

section

variable {pg : Backend} {C : Set (String → Option PgType)} {lvl : Level} {fin : List BindValue}
  {s u : String} {v w : (String → Option Value) → Option Value} {t t' : Option PgType}
  {b c d : (String → Option Value) → Truth} {ok ok' : Bool}

theorem Denotes.loosen (lvl' : Level) (h : Denotes pg C lvl fin s v t)
    (hle : lvl.rank ≤ lvl'.rank) : Denotes pg C lvl' fin s v t := by
  obtain ⟨e, hread, hmeans⟩ := h
  exact ⟨e, hread.loosen lvl' hle, hmeans⟩

theorem Means.loosen (lvl' : Level) (h : Means pg C lvl fin s b ok) (hle : lvl.rank ≤ lvl'.rank) :
    Means pg C lvl' fin s b ok := by
  obtain ⟨e, hread, hmeans⟩ := h
  exact ⟨e, hread.loosen lvl' hle, hmeans⟩

/-- A side of a comparison. -/
theorem Denotes.operand (h : Denotes pg C .prim fin s v t) : Denotes pg C .cast fin s v t :=
  h.loosen .cast (by decide)

/-- A member of a conjunction. -/
theorem Means.condition (h : Means pg C .prim fin s b ok) : Means pg C .not fin s b ok :=
  h.loosen .not (by decide)

/-- A text that is written otherwise. -/
theorem Denotes.of_text (h : Denotes pg C lvl fin s v t) (htext : s.toList = u.toList) :
    Denotes pg C lvl fin u v t :=
  String.toList_injective htext ▸ h

theorem Denotes.congr (h : Denotes pg C lvl fin s v t) (hvw : ∀ row, v row = w row) :
    Denotes pg C lvl fin s w t := by
  obtain rfl : v = w := funext hvw
  exact h

theorem Denotes.paren (h : Denotes pg C lvl fin s v t) (hle : lvl.rank ≤ Level.or.rank) :
    Denotes pg C .prim fin ("(" ++ s ++ ")") v t := by
  obtain ⟨e, hread, hmeans⟩ := h
  exact ⟨e, (hread.loosen .or hle).paren, hmeans⟩

section

variable (h : Means pg C lvl fin s b ok)

include h

theorem Means.of_text (htext : s.toList = u.toList) : Means pg C lvl fin u b ok :=
  String.toList_injective htext ▸ h

theorem Means.mono {C' : Set (String → Option PgType)} (hC : C' ⊆ C) :
    Means pg C' lvl fin s b ok := by
  obtain ⟨e, hread, htruth, htype⟩ := h
  exact ⟨e, hread, htruth, fun cols hcols => htype cols (hC hcols)⟩

theorem Means.readable : Readable lvl s := by
  obtain ⟨e, hread, _⟩ := h
  exact ⟨e, hread⟩

theorem Means.congr (hbc : ∀ row, b row = c row) : Means pg C lvl fin s c ok := by
  obtain rfl : b = c := funext hbc
  exact h

theorem Means.paren (hle : lvl.rank ≤ Level.or.rank) :
    Means pg C .prim fin ("(" ++ s ++ ")") b ok := by
  obtain ⟨e, hread, hmeans⟩ := h
  exact ⟨e, (hread.loosen .or hle).paren, hmeans⟩

end

theorem denotes_bool (x : Bool) : Denotes pg C .prim fin (if x then "true" else "false")
    (fun _ => some (.bool x)) (some .boolean) :=
  ⟨.bool x, reads_bool x, fun _ => by simp [eval], rfl, fun _ _ => by rw [typeOf]⟩

theorem means_bool (fin : List BindValue) (x : Bool) : Means pg C .prim fin
    (if x then "true" else "false") (fun _ => .ofBool x) true :=
  ⟨.bool x, reads_bool x, fun _ => truth_bool _, fun _ _ => by rw [typeOf]; rfl⟩

theorem builds_pushBind (pg : Backend) (x : BindValue) :
    Builds (pushBind x) fun s fin => ∀ C, Denotes pg C .prim fin s (fun _ => some x.arg)
      (some .unknown) := by
  refine builds_bind (builds_push x) fun k => builds_pure fun fin hk C => ?_
  exact ⟨.param k, reads_param k, fun row => by simp [eval, envOf, hk.1, hk.2], rfl,
    fun _ _ => by rw [typeOf]⟩

theorem denotes_col {c : String} (h : Reads .prim s (.col c)) (ht : t ≠ some .unknown)
    (hC : ∀ cols ∈ C, cols c = t) : Denotes pg C .prim fin s (fun row => row c) t :=
  ⟨.col c, h, fun row => by simp [eval], (decide_eq_false ht).symm,
    fun cols hcols => by rw [typeOf, hC cols hcols]⟩

/-- The operand of a typed text is its value. -/
theorem operand_eq_boundAs {e : Expr} (h : e.isUntyped = decide (t = some .unknown))
    (v w : Option Value) : e.operand pg v w = boundAs pg t v w := by
  simp only [Expr.operand, boundAs, h, decide_eq_true_eq]

theorem boundAs_of_ne (ht : t ≠ some .unknown) (v w : Option Value) : boundAs pg t v w = w :=
  if_neg ht

theorem Denotes.compares {o : Op} {sep : String} (hs : Denotes pg C .cast fin s v t)
    (htyped : t ≠ some .unknown) (hu : Denotes pg C .cast fin u w t')
    (hsep : Separates sep [.op o]) (ho : o.isComparison = true) :
    Means pg C .not fin (s ++ sep ++ u)
      (fun row => strict₂ (compareOp pg o) (v row) (boundAs pg t' (v row) (w row)))
      (comparesWith t t') := by
  obtain ⟨l, hl, hv, hlt, ht⟩ := hs
  obtain ⟨r, hr, hw, hrt, ht'⟩ := hu
  have hread := (hl.loosen .in (by decide)).comparison (hr.loosen .in (by decide)) hsep ho
  refine ⟨_, hread.loosen .not (by decide), fun row => ?_, fun cols hcols => ?_⟩
  · rw [truth_binop, hv, hw, operand_eq_boundAs hlt, operand_eq_boundAs hrt, boundAs_of_ne htyped]
  · rw [typeOf_comparison ho, ht cols hcols, ht' cols hcols]

variable (negated : Bool)

theorem Denotes.isNull (h : Denotes pg C .cast fin s v t) :
    Means pg C .not fin (s ++ (if negated then " IS NOT NULL" else " IS NULL"))
      (fun row => nullTruth negated (v row)) t.isSome := by
  obtain ⟨e, hread, heval, -, htype⟩ := h
  refine ⟨_, ((hread.loosen .cmp (by decide)).isNull negated).loosen .not (by decide),
    fun row => ?_, fun cols hcols => by rw [typeOf, htype cols hcols]⟩
  rw [truth, eval, heval row]
  show _ = nullTruth negated (v row)
  cases v row <;> rfl

theorem Denotes.ilike (hs : Denotes pg C .cast fin s v t)
    (hu : Denotes pg C .cast fin u w (some .unknown)) :
    Means pg C .not fin (s ++ (if negated then " NOT ILIKE " else " ILIKE ") ++ u)
      (fun row => negateIf negated (strict₂ (ilikeOp pg) (v row) (w row)))
      (t.any PgType.asText) := by
  obtain ⟨l, hl, hv, -, ht⟩ := hs
  obtain ⟨r, hr, hw, -, ht'⟩ := hu
  have hread := (hl.loosen .op (by decide)).ilike negated (hr.loosen .op (by decide))
  refine ⟨_, hread.loosen .not (by decide), fun row => ?_, fun cols hcols => ?_⟩
  · rw [truth, eval, hv row, hw row, Truth.ofValue_toValue]
    rfl
  · rw [typeOf, ht cols hcols, ht' cols hcols]
    exact congrArg boolIf (Bool.and_true _)

theorem Means.not (h : Means pg C .not fin s b ok) :
    Means pg C .not fin ("NOT " ++ s) (fun row => (b row).not) ok := by
  obtain ⟨e, hread, htruth, htype⟩ := h
  refine ⟨_, hread.not, fun row => by rw [truth_not, htruth row], fun cols hcols => ?_⟩
  rw [typeOf, htype cols hcols, isConditionType_boolIf]

/-- A call with two arguments. -/
theorem denotes_call₂ {fn f : String} {e e' : Expr} (hfn : LexesIdle fn [.ident f, .lparen])
    (hs : Reads .prim s e) (hu : Reads lvl u e') (hle : lvl.rank ≤ Level.or.rank)
    (hv : ∀ row, eval pg (envOf row fin) e = v row) (hw : ∀ row, eval pg (envOf row fin) e' = w row)
    (htyped : t ≠ some .unknown) (htype : ∀ cols ∈ C, typeOf cols (.call f [e, e']) = t) :
    Denotes pg C .prim fin (fn ++ s ++ ", " ++ u ++ ")") (fun row =>
      (v row).bind fun a => (w row).bind fun a' => evalCall pg f [a, a']) t := by
  have hcall := reads_call hfn
    (.cons (hs.loosen .or (by decide)) (.cons (hu.loosen .or hle) .nil))
  refine Denotes.of_text ⟨_, hcall, fun row => ?_, (decide_eq_false htyped).symm, htype⟩
    (by simp [join, joinTail])
  rw [eval, evalList, evalList, evalList, hv row, hw row]
  show _ = (v row).bind fun a => (w row).bind fun a' => evalCall pg f [a, a']
  cases v row with
  | none => rfl
  | some a => cases w row <;> rfl

variable {ss : List String} {α : Type} {xs : List α} {f : α → (String → Option Value) → Truth}
  {g : α → Bool} {suffix : String} {ty : Option SqlType}

/-- The expressions of a list of texts. -/
theorem exists_exprs_of_denotes {f : α → Option Value}
    (h : List.Forall₂ (fun x s => Denotes pg C .cast fin s (fun _ => f x) t) xs ss) :
    ∃ es, List.Forall₂ (Reads .or) ss es ∧
      (∀ row l a, l.isUntyped = false → evalIn pg (envOf row fin) l a es =
        inTruth pg a (xs.map fun x => boundAs pg t a (f x))) ∧
      ∀ cols ∈ C, ∀ e ∈ es, typeOf cols e = t := by
  induction h with
  | nil => exact ⟨[], .nil, fun _ _ _ _ => rfl, by simp⟩
  | cons hx _ ih =>
    obtain ⟨e, hread, heval, huntyped, htype⟩ := hx
    obtain ⟨es, hreads, hevals, htypes⟩ := ih
    refine ⟨e :: es, .cons (hread.loosen .or (by decide)) hreads, fun row l a hl => ?_, ?_⟩
    · rw [evalIn, heval row, hevals row l a hl, operand_eq_boundAs huntyped, Expr.operand, hl]
      rfl
    · exact fun cols hcols => List.forall_mem_cons.mpr ⟨htype cols hcols, htypes cols hcols⟩

/-- A membership test over values of one type. -/
theorem Denotes.memberOf {phs : List String} {f : α → Option Value}
    (hs : Denotes pg C .cast fin s v t) (htyped : t ≠ some .unknown)
    (h : List.Forall₂ (fun x ph => Denotes pg C .cast fin ph (fun _ => f x) t') xs phs)
    (hne : xs ≠ []) : Means pg C .not fin
      (s ++ (if negated then " NOT IN (" else " IN (") ++ (join ", " phs ++ ")"))
      (fun row => negateIf negated
        (inTruth pg (v row) (xs.map fun x => boundAs pg t' (v row) (f x))))
      (comparesWith t t') := by
  obtain ⟨e, hread, heval, huntyped, htype⟩ := hs
  obtain ⟨es, hreads, hevals, htypes⟩ := exists_exprs_of_denotes h
  cases hreads with
  | nil =>
    cases h
    exact absurd rfl hne
  | cons hp hps =>
    have hlist := (hread.loosen .op (by decide)).inList negated (.cons hp hps)
    refine ⟨_, hlist.loosen .not (by decide), fun row => ?_, fun cols hcols => ?_⟩
    · rw [truth_inList, heval, hevals _ _ _ (huntyped.trans (decide_eq_false htyped))]
      rfl
    · rw [typeOf, htype cols hcols, allComparable_eq _ (by simp) (htypes cols hcols)]

section

variable (h : List.Forall₂ (fun x s => Means pg C lvl fin s (f x) (g x)) xs ss)

include h

theorem exists_exprs_of_means (lvl' : Level) (hle : lvl.rank ≤ lvl'.rank) :
    ∃ es, List.Forall₂ (Reads lvl') ss es ∧
      List.Forall₂ (fun x e => (∀ row, truth pg (envOf row fin) e = f x row) ∧
        ∀ cols ∈ C, typeOf cols e = boolIf (g x)) xs es := by
  induction h with
  | nil => exact ⟨[], .nil, .nil⟩
  | cons hx _ ih =>
    obtain ⟨e, hread, hmeans⟩ := hx
    obtain ⟨es, hreads, hall⟩ := ih
    exact ⟨e :: es, .cons (hread.loosen lvl' hle) hreads, .cons hmeans hall⟩

/-- Joined texts mean their members combined. -/
theorem means_join (ch : Chain) (hne : xs ≠ []) (hle : lvl.rank ≤ ch.level.tighter.rank) :
    Means pg C ch.level fin (join ch.sep ss)
      (fun row => xs.foldr (fun x t => ch.combine (f x row) t) ch.unit) (xs.all g) := by
  obtain ⟨es, hreads, hall⟩ := exists_exprs_of_means h ch.level.tighter hle
  have hfold : ∀ {xs : List α} {es : List Expr} (row : String → Option Value),
      List.Forall₂ (fun x e => (∀ row, truth pg (envOf row fin) e = f x row) ∧
        ∀ cols ∈ C, typeOf cols e = boolIf (g x)) xs es →
      es.foldr (fun e t => ch.combine (truth pg (envOf row fin) e) t) ch.unit =
        xs.foldr (fun x t => ch.combine (f x row) t) ch.unit := by
    intro xs es row hxs
    induction hxs with
    | nil => rfl
    | cons hx _ ih => simp [hx.1 row, ih]
  cases hall with
  | nil => exact absurd rfl hne
  | cons hx hxs =>
    cases hreads with
    | cons hp hps =>
      refine ⟨_, reads_join ch (.cons hp hps), fun row => ?_, fun cols hcols => ?_⟩
      · simp [truth_foldl_chain, hx.1 row, hfold row hxs]
      · exact typeOf_foldl_chain ch (hxs.imp fun _ _ h => h.2 cols hcols) (hx.2 cols hcols)

/-- Conditions joined by a connective, in parentheses. -/
theorem means_group (ch : Chain) (hne : xs ≠ []) (hle : lvl.rank ≤ Level.not.rank) :
    Means pg C .prim fin ("(" ++ join ch.sep ss ++ ")")
      (fun row => xs.foldr (fun x t => ch.combine (f x row) t) ch.unit) (xs.all g) := by
  have htight : lvl.rank ≤ ch.level.tighter.rank :=
    hle.trans (by cases ch <;> decide)
  exact (means_join h ch hne htight).paren (by cases ch <;> decide)

end

/-- Two conditions in parentheses. -/
theorem Means.pair (ch : Chain) (hs : Means pg C .not fin s b ok)
    (hu : Means pg C .not fin u c ok') : Means pg C .prim fin ("(" ++ s ++ ch.sep ++ u ++ ")")
      (fun row => ch.combine (b row) (c row)) (ok && ok') := by
  have hall : List.Forall₂ (fun x s => Means pg C .not fin s x.1 x.2) [(b, ok), (c, ok')] [s, u] :=
    .cons hs (.cons hu .nil)
  have hgroup := means_group hall ch (by simp) (Nat.le_refl _)
  simp only [List.all_cons, List.all_nil, Bool.and_true] at hgroup
  refine (hgroup.of_text (by simp [join, joinTail])).congr fun row => ?_
  cases ch <;> simp [Chain.combine, Chain.unit]

/-- Three conditions in parentheses. -/
theorem Means.triple {x : String} {ok'' : Bool} (hs : Means pg C .not fin s b ok)
    (hu : Means pg C .not fin u c ok') (hx : Means pg C .not fin x d ok'') :
    Means pg C .prim fin ("(" ++ s ++ " OR " ++ u ++ " OR " ++ x ++ ")")
      (fun row => (b row).or ((c row).or (d row))) (ok && (ok' && ok'')) := by
  have hall : List.Forall₂ (fun x s => Means pg C .not fin s x.1 x.2)
      [(b, ok), (c, ok'), (d, ok'')] [s, u, x] := .cons hs (.cons hu (.cons hx .nil))
  have hgroup := means_group hall .or (by simp) (Nat.le_refl _)
  simp only [List.all_cons, List.all_nil, Bool.and_true] at hgroup
  refine (hgroup.of_text (by simp [join, joinTail, Chain.sep])).congr fun row => ?_
  simp [Chain.combine, Chain.unit]

theorem reads_str {c : String} (h : Lexes s [.str c]) : Reads .prim s (.str c) :=
  ⟨_, h, parses_str c⟩

/-- A full-text test. -/
theorem means_fts (hs : Denotes pg C .prim fin s v t)
    (hu : Denotes pg C .prim fin u w (some .unknown)) : Means pg C .not fin
      ("to_tsvector('simple', " ++ s ++ ") @@ plainto_tsquery('simple', " ++ u ++ ")")
      (fun row => ftsTruth pg (v row) (w row)) (t.any fun t => t.asText || t = .jsonb) := by
  obtain ⟨e, hread, heval, -, htype⟩ := hs
  obtain ⟨e', hread', heval', -, htype'⟩ := hu
  have hconfig : Reads .prim "'simple'" (.str "simple") := reads_str ⟨_, _, _, rfl, rfl, rfl⟩
  have hvector : LexesIdle "to_tsvector(" [.ident "to_tsvector", .lparen] := rfl
  have hquery : LexesIdle "plainto_tsquery(" [.ident "plainto_tsquery", .lparen] := rfl
  have hsimple : ∀ row, eval pg (envOf row fin) (.str "simple") = some (.text "simple") :=
    fun row => by simp [eval]
  have htv : ∀ cols ∈ C, typeOf cols (.call "to_tsvector" [.str "simple", e]) =
      typeIf (t.any fun t => t.asText || t = .jsonb) .tsvector := by
    intro cols hcols
    rw [typeOf, typesOf, typesOf, typesOf, typeOf, htype cols hcols]
    cases t with
    | none => rfl
    | some t => cases t <;> rfl
  have htq : ∀ cols ∈ C, typeOf cols (.call "plainto_tsquery" [.str "simple", e']) =
      some .tsquery := by
    intro cols hcols
    rw [typeOf, typesOf, typesOf, typesOf, typeOf, htype' cols hcols]
    rfl
  obtain ⟨l, hl, hv, hlt, ht⟩ := denotes_call₂ hvector hconfig hread (by decide) hsimple heval
    (typeIf_ne (by decide) _) htv
  obtain ⟨r, hr, hw, hrt, ht'⟩ := denotes_call₂ hquery hconfig hread' (by decide) hsimple heval'
    (by decide) htq
  have hmatch := (hl.loosen .cast (by decide)).tsMatch (hr.loosen .cast (by decide))
  refine Means.of_text ⟨_, hmatch.loosen .not (by decide), fun row => ?_, fun cols hcols => ?_⟩
    (by simp)
  · rw [truth_binop, hv, hw, operand_eq_boundAs hlt, operand_eq_boundAs hrt,
      boundAs_of_ne (typeIf_ne (by decide) _), boundAs_of_ne (by decide)]
    rfl
  · rw [typeOf, ht cols hcols, ht' cols hcols]
    cases t.any fun t => t.asText || t = .jsonb <;> rfl

/-- `suffix` is the text of a cast to `ty`, or empty. -/
def IsCastSuffix (suffix : String) : Option SqlType → Prop
  | none => suffix = ""
  | some ty => Lexes suffix (.typecast :: ty.toks) ∧ Delimited suffix

theorem isCastSuffix_numeric : IsCastSuffix "::numeric" (some .numeric) :=
  ⟨⟨_, _, _, rfl, rfl, rfl⟩, by simp [Delimited]; decide⟩

theorem isCastSuffix_timestamptz : IsCastSuffix "::timestamptz" (some .timestamptz) :=
  ⟨⟨_, _, _, rfl, rfl, rfl⟩, by simp [Delimited]; decide⟩

theorem Denotes.castTo (h : Denotes pg C .prim fin s v t) (hsuffix : IsCastSuffix suffix ty) :
    Denotes pg C .cast fin (s ++ suffix) (fun row => Query.castTo pg ty (v row))
      (castTypeTo ty t) := by
  cases ty with
  | none =>
    obtain rfl : suffix = "" := hsuffix
    rw [String.append_empty]
    exact h.operand
  | some ty =>
    obtain ⟨e, hread, heval, -, htype⟩ := h
    refine ⟨.cast e ty, hread.cast ty hsuffix.1 hsuffix.2, fun row => ?_,
      (decide_eq_false (castTypeTo_some_ne ty t)).symm, fun cols hcols => ?_⟩
    · simp [eval, heval, Query.castTo]
    · rw [typeOf, htype cols hcols, castTypeTo]

/-- A placeholder at a type, or as it is. -/
theorem Denotes.bound
    (h : Denotes pg C .prim fin s v (some .unknown)) (hsuffix : IsCastSuffix suffix ty) :
    Denotes pg C .cast fin (s ++ suffix) (fun row => Query.castTo pg ty (v row))
      (some (boundType ty)) := by
  have hcast := h.castTo hsuffix
  rcases ty with _ | ty
  · exact hcast
  · cases ty <;> exact hcast

theorem boundAs_castTo (v w : Option Value) :
    boundAs pg (some (boundType ty)) v (Query.castTo pg ty w) = boundAt pg ty v w := by
  rcases ty with _ | ty
  · rfl
  · cases ty <;> rfl

end

/-! ## Lists of conditions -/

/-- `texts` mean the conditions `truths`, one each, and pass the check by `oks`. -/
def MeanAll (pg : Backend) (C : Set (String → Option PgType)) (fin : List BindValue)
    (truths : List ((String → Option Value) → Truth)) (oks : List Bool) (texts : List String) :
    Prop :=
  ∃ conds, conds.map Prod.fst = truths ∧ conds.map Prod.snd = oks ∧
    List.Forall₂ (fun p s => Means pg C .not fin s p.1 p.2) conds texts

/-- The truth of a conjunction. -/
def allTruth (truths : List ((String → Option Value) → Truth)) (row : String → Option Value) :
    Truth :=
  truths.foldr (fun t acc => (t row).and acc) .tt

section

variable {pg : Backend} {C : Set (String → Option PgType)} {fin : List BindValue}
  {truths truths' : List ((String → Option Value) → Truth)} {oks oks' : List Bool}
  {texts texts' : List String}

theorem MeanAll.nil : MeanAll pg C fin [] [] [] := ⟨[], rfl, rfl, .nil⟩

theorem MeanAll.cons {b : (String → Option Value) → Truth} {ok : Bool} {s : String}
    (hs : Means pg C .not fin s b ok) (h : MeanAll pg C fin truths oks texts) :
    MeanAll pg C fin (b :: truths) (ok :: oks) (s :: texts) := by
  obtain ⟨conds, rfl, rfl, hall⟩ := h
  exact ⟨(b, ok) :: conds, rfl, rfl, .cons hs hall⟩

theorem meanAll_of_forall₂ {α : Type} {xs : List α} {f : α → (String → Option Value) → Truth}
    {g : α → Bool} (h : List.Forall₂ (fun x s => Means pg C .not fin s (f x) (g x)) xs texts) :
    MeanAll pg C fin (xs.map f) (xs.map g) texts :=
  ⟨xs.map fun x => (f x, g x), by simp, by simp, List.forall₂_map_left_iff.mpr h⟩

variable (h : MeanAll pg C fin truths oks texts)

include h

theorem MeanAll.append (h' : MeanAll pg C fin truths' oks' texts') :
    MeanAll pg C fin (truths ++ truths') (oks ++ oks') (texts ++ texts') := by
  obtain ⟨conds, rfl, rfl, hall⟩ := h
  obtain ⟨conds', rfl, rfl, hall'⟩ := h'
  exact ⟨conds ++ conds', List.map_append, List.map_append, List.rel_append hall hall'⟩

theorem MeanAll.mono {C' : Set (String → Option PgType)} (hC : C' ⊆ C) :
    MeanAll pg C' fin truths oks texts := by
  obtain ⟨conds, htruths, hoks, hall⟩ := h
  exact ⟨conds, htruths, hoks, hall.imp fun _ _ h => h.mono hC⟩

theorem MeanAll.readable : ∀ s ∈ texts, Readable .not s := by
  obtain ⟨conds, -, -, hall⟩ := h
  induction hall with
  | nil => simp
  | cons hmeans _ ih => exact List.forall_mem_cons.mpr ⟨hmeans.readable, ih⟩

theorem MeanAll.parse_join (hne : truths ≠ []) : ∃ cond, parse (join " AND " texts) = some cond ∧
      (∀ row, truth pg (envOf row fin) cond = allTruth truths row) ∧
      ∀ cols ∈ C, typeOf cols cond = boolIf (oks.all id) := by
  obtain ⟨conds, rfl, rfl, hall⟩ := h
  obtain ⟨e, hread, htruth, htype⟩ :=
    means_join hall .and (by simpa using hne) (Nat.le_refl _)
  refine ⟨e, (hread.loosen .or (by decide)).parse_eq, fun row => ?_, fun cols hcols => ?_⟩
  · rw [htruth, allTruth, List.foldr_map]
    rfl
  · rw [htype cols hcols, List.all_map]
    rfl

end

/-! ## Fields -/

/-- The text of a member of `data`. -/
def memberValue (pg : Backend) (row : String → Option Value) (name : String) : Option Value :=
  (row "data").bind fun d => evalCall pg "jsonb_extract_path_text" [d, .text name]

/-- The value a field stands for: a timestamp of the row, its own column, or its member of
`data`. -/
def resolvedValue (pg : Backend) (entity : EntityDefinition) (name : String)
    (row : String → Option Value) : Option Value :=
  if name = "createdAt" then row "created_at"
  else if name = "updatedAt" then row "updated_at"
  else if (entity.field? name).any fieldHasRealColumn then row name
  else memberValue pg row name

section

variable {pg : Backend} {C : Set (String → Option PgType)} {fin : List BindValue}

/-- A column of the framework. -/
theorem denotes_framework {c : String} (h : Lexes c [.ident c]) (hc : c ∈ frameworkColumnNames)
    (hC : C ⊆ frameworkTypings) : Denotes pg C .prim fin c (fun row => row c) (frameworkType c) :=
  denotes_col (reads_col h) (frameworkType_ne c) fun _ hcols => hC hcols c hc

/-- A member of `data` read through its bound name. -/
theorem denotes_dataField {ph name : String} (hC : C ⊆ frameworkTypings)
    (h : Denotes pg C .prim fin ph (fun _ => some (.text name)) (some .unknown)) :
    Denotes pg C .prim fin ("jsonb_extract_path_text(data, " ++ ph ++ ")")
      (fun row => memberValue pg row name) (some .text) := by
  obtain ⟨e, hread, heval, -, htype⟩ := h
  have hfn : LexesIdle "jsonb_extract_path_text("
      [.ident "jsonb_extract_path_text", .lparen] := rfl
  have hdata : Reads .prim "data" (.col "data") := reads_col ⟨[], _, _, rfl, rfl, rfl⟩
  refine (denotes_call₂ hfn hdata hread (by decide) (fun row => by rw [eval]; rfl) heval
    (by decide) fun cols hcols => ?_).of_text (by simp)
  rw [typeOf, typesOf, typesOf, typesOf, typeOf, htype cols hcols, hC hcols "data" (by decide)]
  rfl

variable {entity : EntityDefinition}

/-- A declared field's own column. -/
theorem denotes_column (hwf : entity.WellFormed) {field : EntityField}
    (hfield : field ∈ entity.fields) (hreal : fieldHasRealColumn field = true) :
    Denotes pg (columnTypings entity) .prim fin ("\"" ++ field.name ++ "\"")
      (fun row => row field.name) (ownColumnType field) :=
  denotes_col (reads_quoted (notMem_of_isSafeFieldName (hwf.safe_names field hfield) (by decide)))
    (ownColumnType_ne field) fun _ hcols => hcols.2 field hfield hreal

theorem denotes_created_at : Denotes pg (columnTypings entity) .prim fin "created_at"
    (fun row => row "created_at") (some .timestamptz) :=
  denotes_framework ⟨[], _, _, rfl, rfl, rfl⟩ (by decide) (columnTypings_subset entity)

theorem denotes_updated_at : Denotes pg (columnTypings entity) .prim fin "updated_at"
    (fun row => row "updated_at") (some .timestamptz) :=
  denotes_framework ⟨[], _, _, rfl, rfl, rfl⟩ (by decide) (columnTypings_subset entity)

/-! ### The text of a name, by the way it is written -/

variable {name : String}

theorem denotes_name_column (hwf : entity.WellFormed) {field : EntityField}
    (hname : ¬(name = "createdAt" ∨ name = "updatedAt")) (hfield : entity.field? name = some field)
    (hreal : fieldHasRealColumn field = true) :
    Denotes pg (columnTypings entity) .prim fin ("\"" ++ field.name ++ "\"")
      (resolvedValue pg entity name) (resolvedType entity name) := by
  obtain ⟨hmem, rfl⟩ := EntityDefinition.mem_of_field?_eq_some hfield
  rw [resolvedType, if_neg hname, hfield, Option.map_some, Option.getD_some, fieldType,
    if_pos hreal]
  refine (denotes_column hwf hmem hreal).congr fun row => ?_
  simp [resolvedValue, not_or.mp hname, hfield, hreal]

theorem denotes_name_member {ph : String} (hname : ¬(name = "createdAt" ∨ name = "updatedAt"))
    (hmember : ∀ f ∈ entity.field? name, fieldHasRealColumn f = false)
    (h : Denotes pg (columnTypings entity) .prim fin ph (fun _ => some (.text name))
      (some .unknown)) :
    Denotes pg (columnTypings entity) .prim fin ("jsonb_extract_path_text(data, " ++ ph ++ ")")
      (resolvedValue pg entity name) (resolvedType entity name) := by
  have htype : resolvedType entity name = some .text := by
    rw [resolvedType, if_neg hname]
    cases hfield : entity.field? name with
    | none => rfl
    | some f => simp [fieldType, hmember f hfield]
  rw [htype]
  refine (denotes_dataField (columnTypings_subset entity) h).congr fun row => ?_
  have hany : (entity.field? name).any fieldHasRealColumn = false := by
    cases hfield : entity.field? name with
    | none => rfl
    | some f => exact hmember f hfield
  simp [resolvedValue, not_or.mp hname, hany]

end

end Metap.Query
