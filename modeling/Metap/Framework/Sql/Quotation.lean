import Mathlib

/-!
# Quotations in SQL text

What the scanner of Postgres reads at a place where a token begins: a delimited identifier, a string
literal (`standard_conforming_strings` on) or the body of a dollar quotation, each with the text
that is left after it.  Within quotes a doubled quote stands for one (`doubled`); no text goes on
beyond a NUL.

`quotation_doubled`: a text written so is read back, and what follows it is left alone.
`dollarBody_append`: a text is kept whole within a dollar quotation unless it holds its delimiter.
-/

namespace Metap.Sql

/-- A text with every `q` written twice. -/
def doubled (q : Char) (cs : List Char) : List Char :=
  cs.flatMap fun c => if c = q then [q, q] else [c]

/-- What stands between an opening `q`, already read, and the closing one, and the text after it. -/
def quotation (q : Char) : List Char → Option (List Char × List Char)
  | [] => none
  | [c] => if c = q then some ([], []) else none
  | c :: d :: cs =>
    if c = q then
      if d = q then (quotation q cs).map (Prod.map (q :: ·) id) else some ([], d :: cs)
    else if c = '\x00' then none
    else (quotation q (d :: cs)).map (Prod.map (c :: ·) id)

def readIdent : List Char → Option (String × List Char)
  | '"' :: cs => (quotation '"' cs).map (Prod.map String.ofList id)
  | _ => none

/-- A delimited identifier, or two with a dot between them. -/
def readName (cs : List Char) : Option (List String × List Char) := do
  let (schema, rest) ← readIdent cs
  match rest with
  | '.' :: rest =>
    let (name, rest) ← readIdent rest
    return ([schema, name], rest)
  | rest => return ([schema], rest)

def isLineBreak (c : Char) : Bool := c = '\n' || c = '\r'

def isBlank (c : Char) : Bool := c = ' ' || c = '\t' || c = '\x0b' || c = '\x0c'

/-- Whether a text goes on with the literal that ends before it: with a quote after a line break,
nothing but blanks and line comments between.  `comment`: within a line comment; `broken`: after a
line break. -/
def continues (comment broken : Bool) : List Char → Bool
  | [] => false
  | [c] => !comment && broken && c = '\''
  | c :: d :: cs =>
    if isLineBreak c then continues false true (d :: cs)
    else if comment then continues true broken (d :: cs)
    else if isBlank c then continues false broken (d :: cs)
    else if c = '-' && d = '-' then continues true broken cs
    else broken && c = '\''

/-- A string literal in one piece. -/
def readLiteral : List Char → Option (String × List Char)
  | '\'' :: cs => do
    let (value, rest) ← quotation '\'' cs
    if continues false false rest then none else some (.ofList value, rest)
  | _ => none

/-- The body of a dollar quotation, whose opening delimiter is already read, and the text after
it. -/
def dollarBody : List Char → Option (List Char × List Char)
  | [] | [_] => none
  | c :: d :: cs =>
    if c = '$' ∧ d = '$' then some ([], cs) else (dollarBody (d :: cs)).map (Prod.map (c :: ·) id)

/-- Whether the text holds the delimiter of a dollar quotation. -/
def hasDollars : List Char → Bool
  | [] | [_] => false
  | c :: d :: cs => (c = '$' && d = '$') || hasDollars (d :: cs)

/-! ## Quoted texts -/

variable {q c : Char} {cs after : List Char}

@[simp] theorem doubled_nil : doubled q [] = [] := rfl

@[simp] theorem doubled_cons_self : doubled q (q :: cs) = q :: q :: doubled q cs := by
  simp [doubled]

theorem doubled_cons_of_ne (h : c ≠ q) : doubled q (c :: cs) = c :: doubled q cs := by
  simp [doubled, h]

theorem quotation_cons_of_ne (h : c ≠ q) (hc : c ≠ '\x00') (hcs : cs ≠ []) :
    quotation q (c :: cs) = (quotation q cs).map (Prod.map (c :: ·) id) := by
  obtain ⟨d, cs, rfl⟩ := List.exists_cons_of_ne_nil hcs
  simp [quotation, h, hc]

/-- A quoted text is read back up to its closing quote, whatever other than a quote follows. -/
theorem quotation_doubled (hcs : '\x00' ∉ cs) (hafter : after.head? ≠ some q) :
    quotation q (doubled q cs ++ q :: after) = some (cs, after) := by
  induction cs with
  | nil =>
    cases after with
    | nil => simp [quotation]
    | cons d after =>
      have hd : d ≠ q := by simpa using hafter
      simp [quotation, hd]
  | cons c cs ih =>
    obtain ⟨hc, hcs⟩ := not_or.mp (List.mem_cons.not.mp hcs)
    by_cases hq : c = q
    · subst hq
      simp [quotation, ih hcs]
    · rw [doubled_cons_of_ne hq, List.cons_append,
        quotation_cons_of_ne hq (Ne.symm hc) (by simp), ih hcs]
      rfl

/-! ## Dollar quotations -/

theorem hasDollars_cons_of_ne (h : c ≠ '$') : hasDollars (c :: cs) = hasDollars cs := by
  cases cs <;> simp [hasDollars, h]

theorem dollarBody_cons_of_ne (h : c ≠ '$') :
    dollarBody (c :: cs) = (dollarBody cs).map (Prod.map (c :: ·) id) := by
  cases cs <;> simp [dollarBody, h]

/-- Another character keeps the dollars before it and those after it apart. -/
theorem hasDollars_append_cons (hc : c ≠ '$') (before : List Char) :
    hasDollars (before ++ c :: cs) = (hasDollars before || hasDollars cs) := by
  induction before with
  | nil => simp [hasDollars_cons_of_ne hc, hasDollars]
  | cons d before ih =>
    cases before with
    | nil => simp [hasDollars, hc, hasDollars_cons_of_ne hc]
    | cons e before =>
      rw [List.cons_append] at ih
      simp [hasDollars, ih, Bool.or_assoc]

/-- Doubling another character makes no delimiter. -/
theorem hasDollars_doubled (hq : q ≠ '$') (cs : List Char) :
    hasDollars (doubled q cs) = hasDollars cs := by
  induction cs with
  | nil => rfl
  | cons c cs ih =>
    by_cases hc : c = q
    · subst hc
      simp [hasDollars_cons_of_ne hq, ih]
    · rw [doubled_cons_of_ne hc]
      cases cs with
      | nil => rfl
      | cons d cs =>
        by_cases hd : d = q
        · subst hd
          rw [doubled_cons_self] at ih ⊢
          rw [hasDollars, ih, hasDollars]
        · rw [doubled_cons_of_ne hd] at ih ⊢
          rw [hasDollars, ih, hasDollars]

/-- A text that does not end in a dollar is kept whole in a body exactly when it does not hold the
delimiter. -/
theorem dollarBody_append (hc : c ≠ '$') (cs after : List Char) :
    dollarBody (cs ++ c :: after) = (dollarBody after).map (Prod.map (cs ++ [c] ++ ·) id) ↔
      hasDollars (cs ++ [c]) = false := by
  induction cs with
  | nil => simp [dollarBody_cons_of_ne hc, hasDollars]
  | cons d cs ih =>
    obtain ⟨e, es, fs, hes, hfs⟩ : ∃ e es fs, cs ++ c :: after = e :: es ∧ cs ++ [c] = e :: fs := by
      cases cs <;> simp
    have hbody : (dollarBody after).map (Prod.map (d :: cs ++ [c] ++ ·) id) =
        ((dollarBody after).map (Prod.map (cs ++ [c] ++ ·) id)).map (Prod.map (d :: ·) id) := by
      rw [Option.map_map]
      rfl
    rw [hbody, List.cons_append, List.cons_append, hes, hfs]
    by_cases hd : d = '$' ∧ e = '$'
    · refine iff_of_false ?_ (by simp [hasDollars, hd])
      rw [dollarBody, if_pos hd]
      cases dollarBody after <;> simp [Prod.ext_iff]
    · have hfalse : (decide (d = '$') && decide (e = '$')) = false := by simpa using hd
      rw [dollarBody, if_neg hd, hasDollars, hfalse, Bool.false_or, ← hes, ← hfs, ← ih]
      have hinj : Function.Injective (Prod.map (d :: ·) (id : List Char → List Char)) :=
        List.cons_injective.prodMap Function.injective_id
      exact (Option.map_injective hinj).eq_iff

end Metap.Sql
