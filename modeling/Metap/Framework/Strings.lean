import Mathlib

/-!
# String operations

The string functions of a systems language's standard library that the development uses:
splitting at white space and at a separator, cutting at the first separator and cutting a
leading text.  All of them work on the character list.
-/

namespace Metap.Strings

/-- Unicode white space. -/
def isSpace (c : Char) : Bool :=
  let n := c.toNat
  n = 0x20 || (0x09 ≤ n && n ≤ 0x0d) || n = 0x85 || n = 0xa0 || n = 0x1680 ||
    (0x2000 ≤ n && n ≤ 0x200a) || n = 0x2028 || n = 0x2029 || n = 0x202f || n = 0x205f ||
    n = 0x3000

/-- The maximal runs of characters that are not white space; `acc` is the run in progress. -/
def fieldsAux : List Char → List Char → List String
  | [], acc => if acc.isEmpty then [] else [String.ofList acc]
  | c :: cs, acc =>
    if isSpace c then
      if acc.isEmpty then fieldsAux cs [] else String.ofList acc :: fieldsAux cs []
    else fieldsAux cs (acc ++ [c])

def fields (s : String) : List String := fieldsAux s.toList []

/-- The pieces of `s` between occurrences of `sep`. -/
def splitAux (sep : Char) : List Char → List Char → List String
  | [], acc => [String.ofList acc]
  | c :: cs, acc =>
    if c = sep then String.ofList acc :: splitAux sep cs [] else splitAux sep cs (acc ++ [c])

def split (s : String) (sep : Char) : List String := splitAux sep s.toList []

/-- What stands before and after the first `sep`, if there is one. -/
def cut (s : String) (sep : Char) : Option (String × String) :=
  if sep ∈ s.toList then
    some (String.ofList (s.toList.takeWhile (· ≠ sep)),
      String.ofList (s.toList.dropWhile (· ≠ sep)).tail)
  else none

def hasPrefix (s p : String) : Bool := p.toList.isPrefixOf s.toList

/-- What follows the leading text `p`, if `s` begins with it. -/
def cutPrefix (s p : String) : Option String :=
  if hasPrefix s p then some (String.ofList (s.toList.drop p.toList.length)) else none

@[simp]
theorem fields_empty : fields "" = [] := rfl

variable {sep : Char}

/-- The characters before a separator are collected. -/
theorem splitAux_collect {a : List Char} (h : sep ∉ a) (b acc : List Char) :
    splitAux sep (a ++ b) acc = splitAux sep b (acc ++ a) := by
  induction a generalizing acc with
  | nil => simp
  | cons c cs ih =>
    simp only [List.mem_cons, not_or] at h
    have hne : c ≠ sep := fun hc => h.1 hc.symm
    simp [splitAux, hne, ih h.2]

theorem split_ne_nil (s : String) (sep : Char) : split s sep ≠ [] := by
  have haux : ∀ cs acc, splitAux sep cs acc ≠ [] := by
    intro cs
    induction cs with
    | nil => simp [splitAux]
    | cons c cs ih =>
      intro acc
      unfold splitAux
      split
      · simp
      · exact ih _
  exact haux _ _

variable {s : String}

/-- Every character but the separator is in one of the pieces. -/
theorem exists_mem_split {sep c : Char} (h : c ∈ s.toList) (hc : c ≠ sep) :
    ∃ piece ∈ split s sep, c ∈ piece.toList := by
  have haux : ∀ cs acc, c ∈ acc ++ cs → ∃ piece ∈ splitAux sep cs acc, c ∈ piece.toList := by
    intro cs
    induction cs with
    | nil => exact fun acc hmem => ⟨String.ofList acc, by simp [splitAux], by simpa using hmem⟩
    | cons d cs ih =>
      intro acc hmem
      rw [splitAux]
      split
      · next hd =>
        rw [List.mem_append, List.mem_cons] at hmem
        rcases hmem with hmem | rfl | hmem
        · exact ⟨String.ofList acc, by simp, by simpa using hmem⟩
        · exact absurd hd hc
        · obtain ⟨piece, hpiece, hc'⟩ := ih [] hmem
          exact ⟨piece, List.mem_cons_of_mem _ hpiece, hc'⟩
      · exact ih (acc ++ [d]) (by simpa using hmem)
  exact haux s.toList [] h

theorem split_of_notMem (h : sep ∉ s.toList) : split s sep = [s] := by
  have hcollect := splitAux_collect h [] []
  simpa [split, splitAux] using hcollect

/-- A separator ends the first piece. -/
theorem splitAux_append {a : List Char} (h : sep ∉ a) (b acc : List Char) :
    splitAux sep (a ++ sep :: b) acc = String.ofList (acc ++ a) :: splitAux sep b [] := by
  simp [splitAux_collect h, splitAux]

/-- Cutting loses nothing but the separator. -/
theorem eq_of_cut_eq_some {a b : String} (h : cut s sep = some (a, b)) :
    s = a ++ String.singleton sep ++ b := by
  unfold cut at h
  split at h
  · next hmem =>
    cases h
    have hdrop : s.toList.dropWhile (· ≠ sep) = sep :: (s.toList.dropWhile (· ≠ sep)).tail := by
      cases hrest : s.toList.dropWhile (· ≠ sep) with
      | nil =>
        have hall := List.dropWhile_eq_nil_iff.mp hrest sep hmem
        simp at hall
      | cons c cs =>
        have hne : s.toList.dropWhile (· ≠ sep) ≠ [] := by rw [hrest]; simp
        have hhead := List.head_dropWhile_not (· ≠ sep) hne
        simp only [hrest, List.head_cons, ne_eq, decide_eq_false_iff_not, not_not] at hhead
        rw [hhead, List.tail_cons]
    refine String.toList_injective ?_
    simp only [String.toList_append, String.toList_ofList, String.toList_singleton,
      List.append_assoc, List.singleton_append]
    rw [← hdrop, List.takeWhile_append_dropWhile]
  · cases h

theorem cutPrefix_append (p s : String) : cutPrefix (p ++ s) p = some s := by
  simp [cutPrefix, hasPrefix]

/-- A text does not begin with `p` when it begins with a `q` that parts from `p` within `n`
characters. -/
theorem hasPrefix_append_of_take_ne {p q : String} (s : String) {n : ℕ}
    (hp : n ≤ p.toList.length) (hq : n ≤ q.toList.length)
    (hne : p.toList.take n ≠ q.toList.take n) : hasPrefix (q ++ s) p = false := by
  rw [Bool.eq_false_iff]
  intro hprefix
  obtain ⟨rest, hrest⟩ := List.isPrefixOf_iff_prefix.mp hprefix
  rw [String.toList_append] at hrest
  have htake := congrArg (List.take n) hrest
  rw [List.take_append_of_le_length hp, List.take_append_of_le_length hq] at htake
  exact hne htake

theorem cutPrefix_eq_none {p : String} : cutPrefix s p = none ↔ hasPrefix s p = false := by
  simp [cutPrefix]

end Metap.Strings
