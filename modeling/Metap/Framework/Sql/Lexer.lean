import Mathlib

/-!
# Lexing SQL text

The character level of the Postgres dialect: what a `WHERE` text assembled by string
concatenation is read as.  The lexer is a state machine, so that the reading of a
concatenation is the composition of the readings of its parts (`run_append`), and a text
built from fragments is lexed fragment by fragment.

`Lexes s ts` says that `s`, taken as a whole text, is read as the tokens `ts`.  Two texts
may be put side by side when the second begins at a character that ends whatever token the
first was in the middle of (`Lexes.append`), or when the first leaves the lexer between two
tokens (`LexesIdle.append`).  Quoted identifiers and string literals follow the dialect's
rule that a doubled quote stands for one quote character
(`standard_conforming_strings` on, so a backslash is an ordinary character).
-/

namespace Metap.Sql

/-- The comparison and match operators of the dialect that the grammar of
`Sql/Grammar.lean` gives a meaning to. -/
inductive Op where
  | eq | ne | lt | le | gt | ge
  | tsMatch
  deriving DecidableEq, Repr

/-- The reserved words an expression is structured by. -/
inductive Kw where
  | and | or | not | in | is | null | ilike | true | false
  deriving DecidableEq, Repr

/-- One token of SQL text.  An unquoted word is folded to lower case; a quoted identifier
keeps its spelling. -/
inductive Tok where
  | kw (k : Kw)
  | ident (name : String)
  | param (n : ℕ)
  | str (s : String)
  | op (o : Op)
  | lparen | rparen | comma | typecast | star | dot
  deriving DecidableEq, Repr

/-- What the lexer is in the middle of. -/
inductive Mode where
  | idle
  | word (acc : List Char)
  | digits (acc : List Char)
  | quoted (acc : List Char)
  | quotedEnd (acc : List Char)
  | str (acc : List Char)
  | strEnd (acc : List Char)
  | op (acc : List Char)
  | colon
  deriving DecidableEq, Repr

def isSpace (c : Char) : Bool := c = ' ' || c = '\t' || c = '\n' || c = '\r'

def isWordStart (c : Char) : Bool := c.isAlpha || c = '_'

def isWordChar (c : Char) : Bool := c.isAlphanum || c = '_' || c = '$'

def isOpChar (c : Char) : Bool :=
  c = '=' || c = '!' || c = '<' || c = '>' || c = '@'

/-- The reserved word a folded word spells, if it does. -/
def keyword (w : String) : Option Kw :=
  match w with
  | "and" => some .and
  | "or" => some .or
  | "not" => some .not
  | "in" => some .in
  | "is" => some .is
  | "null" => some .null
  | "ilike" => some .ilike
  | "true" => some .true
  | "false" => some .false
  | _ => none

def wordTok (acc : List Char) : Tok :=
  let w := String.ofList (acc.map Char.toLower)
  match keyword w with
  | some k => .kw k
  | none => .ident w

/-- The operator an operator-character run spells; `!=` is the dialect's second spelling of
`<>`. -/
def opTok (acc : List Char) : Option Tok :=
  match String.ofList acc with
  | "=" => some (.op .eq)
  | "!=" => some (.op .ne)
  | "<>" => some (.op .ne)
  | "<" => some (.op .lt)
  | "<=" => some (.op .le)
  | ">" => some (.op .gt)
  | ">=" => some (.op .ge)
  | "@@" => some (.op .tsMatch)
  | _ => none

/-- Read one character between two tokens. -/
def openTok (c : Char) : Option (List Tok × Mode) :=
  if isSpace c then some ([], .idle)
  else if c = '(' then some ([.lparen], .idle)
  else if c = ')' then some ([.rparen], .idle)
  else if c = ',' then some ([.comma], .idle)
  else if c = '*' then some ([.star], .idle)
  else if c = '.' then some ([.dot], .idle)
  else if c = '"' then some ([], .quoted [])
  else if c = '\'' then some ([], .str [])
  else if c = '$' then some ([], .digits [])
  else if c = ':' then some ([], .colon)
  else if isOpChar c then some ([], .op [c])
  else if isWordStart c then some ([], .word [c])
  else none

/-- The tokens still owed when the text ends in mode `m`; `none` inside an unclosed
quotation, after a bare `$` or a single `:`. -/
def flush : Mode → Option (List Tok)
  | .idle => some []
  | .word acc => some [wordTok acc]
  | .digits [] => none
  | .digits acc => some [.param (Nat.ofDigitChars 10 acc 0)]
  | .quoted _ => none
  | .quotedEnd acc => some [.ident (String.ofList acc)]
  | .str _ => none
  | .strEnd acc => some [.str (String.ofList acc)]
  | .op acc => (opTok acc).map fun t => [t]
  | .colon => none

/-- End the token the lexer is in and read `c` as the first character after it. -/
def closeThen (m : Mode) (c : Char) : Option (List Tok × Mode) := do
  let ts ← flush m
  let (us, m') ← openTok c
  return (ts ++ us, m')

def step (m : Mode) (c : Char) : Option (List Tok × Mode) :=
  match m with
  | .idle => openTok c
  | .word acc => if isWordChar c then some ([], .word (acc ++ [c])) else closeThen m c
  | .digits acc => if c.isDigit then some ([], .digits (acc ++ [c])) else closeThen m c
  | .quoted acc => if c = '"' then some ([], .quotedEnd acc) else some ([], .quoted (acc ++ [c]))
  | .quotedEnd acc => if c = '"' then some ([], .quoted (acc ++ ['"'])) else closeThen m c
  | .str acc => if c = '\'' then some ([], .strEnd acc) else some ([], .str (acc ++ [c]))
  | .strEnd acc => if c = '\'' then some ([], .str (acc ++ ['\''])) else closeThen m c
  | .op acc => if isOpChar c then some ([], .op (acc ++ [c])) else closeThen m c
  | .colon => if c = ':' then some ([.typecast], .idle) else none

/-- Read a text from mode `m`: the tokens completed on the way and the mode at its end. -/
def run : Mode → List Char → Option (List Tok × Mode)
  | m, [] => some ([], m)
  | m, c :: cs => do
    let (ts, m') ← step m c
    let (us, m'') ← run m' cs
    return (ts ++ us, m'')

/-- The tokens of a text. -/
def lex (s : String) : Option (List Tok) := do
  let (ts, m) ← run .idle s.toList
  let us ← flush m
  return ts ++ us

/-! ## Composition -/

theorem run_append (m : Mode) (s t : List Char) : run m (s ++ t) = (run m s).bind fun p =>
      (run p.2 t).map fun q => (p.1 ++ q.1, q.2) := by
  induction s generalizing m with
  | nil => simp [run]
  | cons c cs ih =>
    simp only [List.cons_append, run, bind, Option.bind]
    cases hstep : step m c with
    | none => rfl
    | some p =>
      simp only [ih]
      cases hcs : run p.2 cs with
      | none => rfl
      | some q =>
        cases ht : run q.2 t with
        | none => simp [ht]
        | some r => simp [ht, List.append_assoc]

/-- `s` is read as `ts`. -/
def Lexes (s : String) (ts : List Tok) : Prop :=
  ∃ us m vs, run .idle s.toList = some (us, m) ∧ flush m = some vs ∧ ts = us ++ vs

/-- `s` is read as `ts` and ends between two tokens, so that any text may follow it. -/
def LexesIdle (s : String) (ts : List Tok) : Prop :=
  run .idle s.toList = some (ts, .idle)

/-- A character that ends every token the lexer can be in the middle of outside quotations. -/
def isDelim (c : Char) : Bool :=
  c = ' ' || c = '(' || c = ')' || c = ',' || c = ':' || c = '.'

/-- `t` is empty or begins at a delimiter. -/
def Delimited (t : String) : Prop := ∀ c ∈ t.toList.head?, isDelim c = true

variable {s : String} {ts us vs : List Tok}

theorem Lexes.lex_eq (h : Lexes s ts) : lex s = some ts := by
  obtain ⟨us, m, vs, hrun, hflush, rfl⟩ := h
  simp [lex, hrun, hflush]

theorem LexesIdle.lexes (h : LexesIdle s ts) : Lexes s ts :=
  ⟨ts, .idle, [], h, rfl, by simp⟩

theorem lexesIdle_nil : LexesIdle "" [] := rfl

theorem LexesIdle.append {t : String} (hs : LexesIdle s ts) (ht : Lexes t us) :
    Lexes (s ++ t) (ts ++ us) := by
  obtain ⟨us', m, vs, hrun, hflush, rfl⟩ := ht
  refine ⟨ts ++ us', m, vs, ?_, hflush, by simp⟩
  unfold LexesIdle at hs
  simp [run_append, hs, hrun]

/-- At a delimiter every mode outside a quotation ends its token. -/
theorem step_delim {m : Mode} {c : Char} (hc : isDelim c = true) (hm : flush m = some vs) :
    step m c = closeThen m c := by
  simp only [isDelim, Bool.or_eq_true, decide_eq_true_eq] at hc
  cases m with
  | idle => simp [step, closeThen, flush]
  | word acc | digits acc | quotedEnd acc | strEnd acc | op acc =>
    rcases hc with ((((rfl | rfl) | rfl) | rfl) | rfl) | rfl <;> rfl
  | quoted acc | str acc | colon => simp [flush] at hm

/-- Reading a delimited text from any mode outside a quotation first ends the pending token. -/
theorem run_of_delimited {m : Mode} (hm : flush m = some vs)
    {cs : List Char} (hcs : ∀ c ∈ cs.head?, isDelim c = true) (hne : cs ≠ []) :
    run m cs = (run .idle cs).map fun p => (vs ++ p.1, p.2) := by
  cases cs with
  | nil => exact absurd rfl hne
  | cons c cs =>
    have hc : isDelim c = true := hcs c (by simp)
    simp only [run, step_delim hc hm, closeThen, hm, bind, Option.bind, pure]
    cases hopen : openTok c with
    | none => simp [step, hopen]
    | some p =>
      simp only [step, hopen]
      cases run p.2 cs with
      | none => rfl
      | some q => simp [List.append_assoc]

theorem Lexes.append {t : String} (hs : Lexes s ts) (ht : Lexes t us) (hd : Delimited t) :
    Lexes (s ++ t) (ts ++ us) := by
  obtain ⟨us₁, m₁, vs₁, hrun₁, hflush₁, rfl⟩ := hs
  obtain ⟨us₂, m₂, vs₂, hrun₂, hflush₂, rfl⟩ := ht
  by_cases hne : t.toList = []
  · rw [hne] at hrun₂
    simp only [run, Option.some.injEq, Prod.mk.injEq] at hrun₂
    obtain ⟨rfl, rfl⟩ := hrun₂
    obtain rfl : vs₂ = [] := by simpa [flush] using hflush₂.symm
    exact ⟨us₁, m₁, vs₁, by simp [hrun₁, hne], hflush₁, by simp⟩
  · refine ⟨us₁ ++ (vs₁ ++ us₂), m₂, vs₂, ?_, hflush₂, by simp⟩
    simp [run_append, hrun₁, run_of_delimited hflush₁ hd hne, hrun₂]

/-! ## Placeholders and quoted identifiers -/

theorem run_digits (acc cs : List Char) (h : ∀ c ∈ cs, c.isDigit = true) :
    run (.digits acc) cs = some ([], .digits (acc ++ cs)) := by
  induction cs generalizing acc with
  | nil => simp [run]
  | cons c cs ih =>
    have hc : c.isDigit = true := h c (by simp)
    simp [run, step, hc, ih (acc ++ [c]) (fun d hd => h d (by simp [hd]))]

/-- The placeholder text `$n` is one parameter token. -/
theorem lexes_param (n : ℕ) : Lexes ("$" ++ toString n) [.param n] := by
  have hdig : ∀ c ∈ Nat.toDigits 10 n, c.isDigit = true :=
    fun c hc => Nat.isDigit_of_mem_toDigits (by omega) (by omega) hc
  have htext : (toString n).toList = Nat.toDigits 10 n := by simp [toString]
  refine ⟨[], .digits (Nat.toDigits 10 n), [.param n], ?_, ?_, rfl⟩
  · have hopen : run .idle "$".toList = some ([], .digits []) := rfl
    rw [String.toList_append, run_append, hopen, htext]
    simp [run_digits _ _ hdig]
  · obtain ⟨d, ds, hds⟩ := List.exists_cons_of_ne_nil (Nat.toDigits_ne_nil (n := n) (b := 10))
    have hval := Nat.ofDigitChars_ten_toDigits (n := n)
    rw [hds] at hval ⊢
    simp [flush, hval]

theorem run_quoted (acc cs : List Char) (h : '"' ∉ cs) :
    run (.quoted acc) cs = some ([], .quoted (acc ++ cs)) := by
  induction cs generalizing acc with
  | nil => simp [run]
  | cons c cs ih =>
    obtain ⟨hc, hcs⟩ := not_or.mp (List.mem_cons.not.mp h)
    simp [run, step, Ne.symm hc, ih (acc ++ [c]) hcs]

/-- A quoted name without a quote character in it is one identifier token. -/
theorem lexes_quoted {name : String} (h : '"' ∉ name.toList) :
    Lexes ("\"" ++ name ++ "\"") [.ident name] := by
  refine ⟨[], .quotedEnd name.toList, [.ident name], ?_, by simp [flush], rfl⟩
  have hopen : step .idle '"' = some ([], .quoted []) := rfl
  have hclose (acc : List Char) : step (.quoted acc) '"' = some ([], .quotedEnd acc) := rfl
  simp [run, run_append, run_quoted _ _ h, hopen, hclose]

end Metap.Sql
