import Metap.Framework.Sql.Grammar

/-!
# Texts that denote expressions

`Reads lvl s e` joins the two halves of reading: the text `s` lexes to tokens that parse to
`e` at level `lvl` in every context.  The lemmas here are the ones a text generator is checked
against, one for each way of putting texts together; `Reads.parse_eq` says that a text standing
alone is parsed to the expression it reads as.
-/

namespace Metap.Sql

/-- The texts after the first in a joined list. -/
def joinTail (sep : String) : List String → String
  | [] => ""
  | p :: ps => sep ++ p ++ joinTail sep ps

/-- Texts joined by a separator. -/
def join (sep : String) : List String → String
  | [] => ""
  | p :: ps => p ++ joinTail sep ps

/-- `s` denotes `e` and may stand wherever an expression of level `lvl` may. -/
def Reads (lvl : Level) (s : String) (e : Expr) : Prop :=
  ∃ ts, Lexes s ts ∧ Parses lvl ts e

variable {e : Expr} {s t p : String} {lvl : Level} {ts : List Tok} {ps : List String}
  {tss : List (List Tok)} {es : List Expr}

theorem Reads.parse_eq (h : Reads .or s e) : parse s = some e := by
  obtain ⟨ts, hlex, hparse⟩ := h
  simp [parse, hlex.lex_eq, hparse.alone]

theorem Reads.loosen (lvl' : Level) (h : Reads lvl s e) (hle : lvl.rank ≤ lvl'.rank) :
    Reads lvl' s e := by
  obtain ⟨ts, hlex, hparse⟩ := h
  exact ⟨ts, hlex, hparse.loosen hle⟩

/-! ## Leaves -/

theorem parses_prim_of_parsePrim
    (h : ∀ n rest, Follow .prim rest → parsePrim (n + 1) (ts ++ rest) = some (e, rest))
    (hne : ts ≠ []) : Parses .prim ts e := by
  intro n rest hn hrest
  have hpos : 0 < ts.length := List.length_pos_of_ne_nil hne
  simp only [fuel] at hn
  obtain ⟨n, rfl⟩ : ∃ m, n = m + 2 := ⟨n - 2, by omega⟩
  exact h n rest hrest

theorem parses_col (c : String) : Parses .prim [.ident c] (.col c) := by
  refine parses_prim_of_parsePrim (fun n rest hrest => ?_) (by simp)
  cases rest with
  | nil => rfl
  | cons t rest =>
    cases t with
    | lparen => exact absurd (hrest .lparen (by simp) 0 rfl) (by decide)
    | _ => rfl

theorem parses_param (k : ℕ) : Parses .prim [.param k] (.param k) :=
  parses_prim_of_parsePrim (fun _ _ _ => rfl) (by simp)

theorem parses_str (s : String) : Parses .prim [.str s] (.str s) :=
  parses_prim_of_parsePrim (fun _ _ _ => rfl) (by simp)

theorem parses_bool (b : Bool) : Parses .prim [.kw (if b then .true else .false)] (.bool b) := by
  cases b <;> exact parses_prim_of_parsePrim (fun _ _ _ => rfl) (by simp)

theorem reads_param (k : ℕ) : Reads .prim ("$" ++ toString k) (.param k) :=
  ⟨_, lexes_param k, parses_param k⟩

/-- A text that lexes to one identifier is a column reference. -/
theorem reads_col {c : String} (h : Lexes s [.ident c]) : Reads .prim s (.col c) :=
  ⟨_, h, parses_col c⟩

theorem reads_quoted {name : String} (h : '"' ∉ name.toList) :
    Reads .prim ("\"" ++ name ++ "\"") (.col name) :=
  reads_col (lexes_quoted h)

theorem reads_bool (b : Bool) : Reads .prim (if b then "true" else "false") (.bool b) := by
  cases b
  · exact ⟨_, ⟨[], .word "false".toList, _, rfl, rfl, rfl⟩, parses_bool false⟩
  · exact ⟨_, ⟨[], .word "true".toList, _, rfl, rfl, rfl⟩, parses_bool true⟩

/-! ## Operators -/

/-- A separator text: it starts at a delimiter, ends between two tokens and lexes to `ts`. -/
structure Separates (sep : String) (ts : List Tok) : Prop where
  idle : LexesIdle sep ts
  delimited : Delimited sep
  nonempty : sep.toList ≠ []

theorem delimited_append (h : Delimited s) (hne : s.toList ≠ []) : Delimited (s ++ t) := by
  intro c hc
  obtain ⟨d, ds, hds⟩ := List.exists_cons_of_ne_nil hne
  have hd := h d (by simp [hds])
  simp only [String.toList_append, hds, List.cons_append, List.head?_cons, Option.mem_def,
    Option.some.injEq] at hc
  exact hc ▸ hd

theorem delimited_empty : Delimited "" := by intro c hc; simp at hc

/-- Two texts around a separator lex to their tokens around the separator's. -/
theorem Separates.lexes {sep : String} {us vs : List Tok} (h : Separates sep us)
    (hs : Lexes s ts) (ht : Lexes t vs) : Lexes (s ++ sep ++ t) (ts ++ (us ++ vs)) := by
  rw [String.append_assoc]
  exact hs.append (h.idle.append ht) (delimited_append h.delimited h.nonempty)

theorem Reads.comparison {o : Op} {sep : String} {l r : Expr} (hs : Reads .in s l)
    (ht : Reads .in t r) (h : Separates sep [.op o]) (ho : o.isComparison = true) :
    Reads .cmp (s ++ sep ++ t) (.binop o l r) := by
  obtain ⟨ts, hlex, hparse⟩ := hs
  obtain ⟨us, hlex', hparse'⟩ := ht
  exact ⟨_, h.lexes hlex hlex', hparse.comparison ho hparse'⟩

theorem Reads.tsMatch {l r : Expr} (hs : Reads .cast s l) (ht : Reads .cast t r) :
    Reads .op (s ++ " @@ " ++ t) (.binop .tsMatch l r) := by
  obtain ⟨ts, hlex, hparse⟩ := hs
  obtain ⟨us, hlex', hparse'⟩ := ht
  have h : Separates " @@ " [.op .tsMatch] := ⟨rfl, by simp [Delimited]; decide, by simp⟩
  exact ⟨_, h.lexes hlex hlex', hparse.tsMatch hparse'⟩

variable (negated : Bool)

theorem Reads.ilike {l r : Expr} (hs : Reads .op s l) (ht : Reads .op t r) :
    Reads .in (s ++ (if negated then " NOT ILIKE " else " ILIKE ") ++ t) (.ilike negated l r) := by
  obtain ⟨ts, hlex, hparse⟩ := hs
  obtain ⟨us, hlex', hparse'⟩ := ht
  have h : Separates (if negated then " NOT ILIKE " else " ILIKE ")
      (if negated then [.kw .not, .kw .ilike] else [.kw .ilike]) := by
    cases negated <;> exact ⟨rfl, by simp [Delimited]; decide, by simp⟩
  exact ⟨_, h.lexes hlex hlex', hparse.ilike negated hparse'⟩

theorem Reads.isNull (hs : Reads .cmp s e) :
    Reads .is (s ++ (if negated then " IS NOT NULL" else " IS NULL")) (.isNull negated e) := by
  obtain ⟨ts, hlex, hparse⟩ := hs
  have h : Lexes (if negated then " IS NOT NULL" else " IS NULL")
      (if negated then [.kw .is, .kw .not, .kw .null] else [.kw .is, .kw .null]) := by
    cases negated
    · exact ⟨_, _, _, rfl, rfl, rfl⟩
    · exact ⟨_, _, _, rfl, rfl, rfl⟩
  refine ⟨_, hlex.append h ?_, hparse.isNull negated⟩
  cases negated <;> simp [Delimited] <;> decide

/-- A cast suffix: a text that lexes to `::` and a type name. -/
theorem Reads.cast {suffix : String} (hs : Reads .prim s e) (ty : SqlType)
    (h : Lexes suffix (.typecast :: ty.toks)) (hd : Delimited suffix) :
    Reads .cast (s ++ suffix) (.cast e ty) := by
  obtain ⟨ts, hlex, hparse⟩ := hs
  exact ⟨_, hlex.append h hd, hparse.cast ty⟩

/-- The short name of the double precision type. -/
theorem Reads.castFloat8 (hs : Reads .prim s e) :
    Reads .cast (s ++ "::float8") (.cast e .float8) := by
  obtain ⟨ts, hlex, hparse⟩ := hs
  have hsuffix : Lexes "::float8" [.typecast, .ident "float8"] := ⟨_, _, _, rfl, rfl, rfl⟩
  have htype : ∀ rest, parseType ([.ident "float8"] ++ rest) = some (.float8, rest) :=
    fun _ => rfl
  exact ⟨_, hlex.append hsuffix (by simp [Delimited]; decide), hparse.castAs htype⟩

theorem Reads.not (hs : Reads .not s e) : Reads .not ("NOT " ++ s) (.not e) := by
  obtain ⟨ts, hlex, hparse⟩ := hs
  have h : LexesIdle "NOT " [.kw .not] := rfl
  exact ⟨_, h.append hlex, hparse.not⟩

theorem Reads.paren (hs : Reads .or s e) : Reads .prim ("(" ++ s ++ ")") e := by
  obtain ⟨ts, hlex, hparse⟩ := hs
  have hopen : LexesIdle "(" [.lparen] := rfl
  have hclose : Lexes ")" [.rparen] := ⟨_, _, _, rfl, rfl, rfl⟩
  refine ⟨_, ?_, hparse.paren⟩
  rw [String.append_assoc]
  exact hopen.append (hlex.append hclose (by simp [Delimited]; decide))

/-! ## Chains and lists -/

def Chain.sep : Chain → String
  | .and => " AND "
  | .or => " OR "

theorem Chain.separates (ch : Chain) : Separates ch.sep [ch.tok] := by
  cases ch <;> exact ⟨rfl, by simp [Delimited, Chain.sep]; decide, by simp [Chain.sep]⟩

theorem Separates.delimited_joinTail {sep : String} {us : List Tok} (h : Separates sep us)
    (ps : List String) : Delimited (joinTail sep ps) := by
  cases ps with
  | nil => exact delimited_empty
  | cons p ps =>
    rw [joinTail, String.append_assoc]
    exact delimited_append h.delimited h.nonempty

theorem lexes_joinTail_chain (ch : Chain) (h : List.Forall₂ Lexes ps tss) :
    Lexes (joinTail ch.sep ps) (chainToks ch tss) := by
  induction h with
  | nil => exact lexesIdle_nil.lexes
  | @cons p ts ps tss hp _ ih =>
    rw [joinTail, String.append_assoc]
    exact ch.separates.idle.append (hp.append ih (ch.separates.delimited_joinTail ps))

/-- What a list of texts denotes, text by text. -/
theorem exists_toks_of_reads (h : List.Forall₂ (Reads lvl) ps es) :
    ∃ tss, List.Forall₂ Lexes ps tss ∧ List.Forall₂ (Parses lvl) tss es := by
  induction h with
  | nil => exact ⟨[], .nil, .nil⟩
  | cons hp _ ih =>
    obtain ⟨ts, hlex, hparse⟩ := hp
    obtain ⟨tss, hlexes, hparses⟩ := ih
    exact ⟨ts :: tss, .cons hlex hlexes, .cons hparse hparses⟩

/-- Texts joined by `AND` (or by `OR`) denote the left-nested conjunction (disjunction),
provided each is tighter than the connective. -/
theorem reads_join (ch : Chain) (h : List.Forall₂ (Reads ch.level.tighter) (p :: ps) (e :: es)) :
    Reads ch.level (join ch.sep (p :: ps)) (es.foldl ch.expr e) := by
  cases h with
  | cons hp hps =>
    obtain ⟨ts, hlex, hparse⟩ := hp
    obtain ⟨tss, hlexes, hparses⟩ := exists_toks_of_reads hps
    exact ⟨_, hlex.append (lexes_joinTail_chain ch hlexes)
      (ch.separates.delimited_joinTail ps), hparse.chain ch hparses⟩

theorem separates_comma : Separates ", " [.comma] :=
  ⟨rfl, by simp [Delimited]; decide, by simp⟩

theorem delimited_joinTail_comma (ps : List String) : Delimited (joinTail ", " ps ++ ")") := by
  cases ps with
  | nil => simp [joinTail, Delimited]; decide
  | cons q qs =>
    rw [joinTail, String.append_assoc, String.append_assoc]
    exact delimited_append separates_comma.delimited separates_comma.nonempty

theorem lexes_joinTail_comma (h : List.Forall₂ Lexes ps tss) :
    Lexes (joinTail ", " ps ++ ")") (listToks tss) := by
  induction h with
  | nil => exact ⟨_, _, _, rfl, rfl, rfl⟩
  | @cons p ts ps tss hp _ ih =>
    have hjoin : joinTail ", " (p :: ps) ++ ")" = ", " ++ (p ++ (joinTail ", " ps ++ ")")) := by
      simp only [joinTail, String.append_assoc]
    rw [hjoin]
    exact separates_comma.idle.append (hp.append ih (delimited_joinTail_comma ps))

theorem lexes_join_comma (hp : Lexes p ts) (hps : List.Forall₂ Lexes ps tss) :
    Lexes (join ", " (p :: ps) ++ ")") (ts ++ listToks tss) := by
  rw [join, String.append_assoc]
  exact hp.append (lexes_joinTail_comma hps) (delimited_joinTail_comma ps)

/-- A function call; `fn` is the text of its name and opening parenthesis. -/
theorem reads_call {fn f : String} (hfn : LexesIdle fn [.ident f, .lparen])
    (h : List.Forall₂ (Reads .or) (p :: ps) (e :: es)) :
    Reads .prim (fn ++ join ", " (p :: ps) ++ ")") (.call f (e :: es)) := by
  cases h with
  | cons hp hps =>
    obtain ⟨ts, hlex, hparse⟩ := hp
    obtain ⟨tss, hlexes, hparses⟩ := exists_toks_of_reads hps
    refine ⟨_, ?_, hparse.call f hparses⟩
    rw [String.append_assoc]
    exact hfn.append (lexes_join_comma hlex hlexes)

theorem Reads.inList {l : Expr} (hs : Reads .op s l)
    (h : List.Forall₂ (Reads .or) (p :: ps) (e :: es)) : Reads .in
      (s ++ (if negated then " NOT IN (" else " IN (") ++ (join ", " (p :: ps) ++ ")"))
      (.inList negated l (e :: es)) := by
  obtain ⟨us, hlex', hparse'⟩ := hs
  cases h with
  | cons hp hps =>
    obtain ⟨ts, hlex, hparse⟩ := hp
    obtain ⟨tss, hlexes, hparses⟩ := exists_toks_of_reads hps
    have hsep : Separates (if negated then " NOT IN (" else " IN (")
        ((if negated then [.kw .not, .kw .in] else [.kw .in]) ++ [.lparen]) := by
      cases negated <;> exact ⟨rfl, by simp [Delimited]; decide, by simp⟩
    have hlexed := hsep.lexes hlex' (lexes_join_comma hlex hlexes)
    refine ⟨_, hlexed, ?_⟩
    simpa using hparse'.inList negated hparse hparses

/-! ## Readable texts

What is left of `Reads` when only the shape of a text matters, not its meaning. -/

/-- `s` denotes some expression of level `lvl`. -/
def Readable (lvl : Level) (s : String) : Prop := ∃ e, Reads lvl s e

/-- The expressions of a list of readable texts. -/
theorem exists_exprs_of_readable (h : ∀ p ∈ ps, Readable lvl p) :
    ∃ es, List.Forall₂ (Reads lvl) ps es := by
  induction ps with
  | nil => exact ⟨[], .nil⟩
  | cons p ps ih =>
    obtain ⟨e, he⟩ := h p (by simp)
    obtain ⟨es, hes⟩ := ih fun q hq => h q (by simp [hq])
    exact ⟨e :: es, .cons he hes⟩

end Metap.Sql
