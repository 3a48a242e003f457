import Mathlib

/-!
# Patterns of `LIKE`

A pattern is read once, under the escape character `\`, and then matched item by item.
-/

namespace Metap.Sql

/-- What one place of a pattern stands for. -/
inductive LikeItem where
  | anyText
  | anyChar
  | char (c : Char)
  deriving DecidableEq, Repr

def LikeItem.ofChar (c : Char) : LikeItem :=
  if c = '%' then .anyText else if c = '_' then .anyChar else .char c

/-- A pattern that ends in the escape character is an error. -/
def readPattern : List Char → Option (List LikeItem)
  | [] => some []
  | [c] => if c = '\\' then none else some [.ofChar c]
  | c :: d :: rest =>
    if c = '\\' then (readPattern rest).map (.char d :: ·)
    else (readPattern (d :: rest)).map (.ofChar c :: ·)

def matchesItems : List LikeItem → List Char → Bool
  | [], text => text.isEmpty
  | .anyText :: items, text => text.tails.any (matchesItems items)
  | .anyChar :: items, text =>
    match text with
    | [] => false
    | _ :: rest => matchesItems items rest
  | .char c :: items, text =>
    match text with
    | [] => false
    | d :: rest => d = c && matchesItems items rest

/-- `text LIKE pattern`; `none` is an error of the database. -/
def like (text pattern : String) : Option Bool :=
  (readPattern pattern.toList).map (matchesItems · text.toList)

/-- A character as it is written in a pattern that is to match it literally. -/
def escapeChar (c : Char) : List Char :=
  if c = '\\' ∨ c = '%' ∨ c = '_' then ['\\', c] else [c]

theorem readPattern_cons {c : Char} (hc : c ≠ '\\') (rest : List Char) :
    readPattern (c :: rest) = (readPattern rest).map (.ofChar c :: ·) := by
  cases rest <;> simp [readPattern, hc]

/-- An escaped text is read as its own characters. -/
theorem readPattern_escaped (cs rest : List Char) :
    readPattern (cs.flatMap escapeChar ++ rest) = (readPattern rest).map (cs.map .char ++ ·) := by
  induction cs with
  | nil => simp
  | cons c cs ih =>
    rw [List.flatMap_cons, List.append_assoc, escapeChar]
    by_cases hc : c = '\\' ∨ c = '%' ∨ c = '_'
    · rw [if_pos hc]
      simp [readPattern, ih, Function.comp_def]
    · rw [if_neg hc]
      simp only [not_or] at hc
      rw [List.singleton_append, readPattern_cons hc.1, ih]
      simp [LikeItem.ofChar, hc, Function.comp_def]

theorem matchesItems_prefix (cs text : List Char) :
    matchesItems (cs.map .char ++ [.anyText]) text = true ↔ cs <+: text := by
  induction cs generalizing text with
  | nil => exact iff_of_true (List.any_eq_true.mpr ⟨[], by simp, rfl⟩) List.nil_prefix
  | cons c cs ih =>
    cases text with
    | nil => simp [matchesItems]
    | cons d text =>
      rw [List.map_cons, List.cons_append, matchesItems, Bool.and_eq_true, decide_eq_true_iff, ih,
        List.cons_prefix_cons, eq_comm]

/-- An escaped text between two wildcards matches what contains the text. -/
theorem like_eq_true_iff (text value : String) :
    like text ("%" ++ String.ofList (value.toList.flatMap escapeChar) ++ "%") = some true ↔
      value.toList <:+: text.toList := by
  have hread : readPattern ("%" ++ String.ofList (value.toList.flatMap escapeChar) ++ "%").toList =
      some (.anyText :: (value.toList.map .char ++ [.anyText])) := by
    simp only [String.toList_append, String.toList_ofList, List.append_assoc]
    refine (readPattern_cons (by decide) _).trans ?_
    rw [List.append_eq, List.nil_append, readPattern_escaped]
    rfl
  rw [like, hread, List.infix_iff_prefix_suffix]
  simp [matchesItems, matchesItems_prefix, List.any_eq_true, and_comm]

end Metap.Sql
