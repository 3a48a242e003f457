import Metap.Framework.Sql.Quotation
import Metap.Reconciler.TableNames

/-!
# Quoting

Names and literals stand in the text of a statement, quoted.  Where a token begins, they are read as
one token with the text they were made of, and what follows is read as it would be without them.  A
literal denotes its text; an identifier denotes its name if that is not empty and within the limit
of the database.  Within the body of a trigger function a quoted text is safe only if it does not
hold the delimiter of the body (`quoting_denotes_iff`).
-/

namespace Metap.Reconciler

open Sql

def quoteIdent (name : String) : String :=
  "\"" ++ .ofList (doubled '"' name.toList) ++ "\""

def quoteQualifiedIdent (name : String) : String :=
  match Strings.cut name '.' with
  | none => quoteIdent name
  | some (schema, table) => quoteIdent schema ++ "." ++ quoteIdent table

def quoteLiteral (value : String) : String :=
  "'" ++ .ofList (doubled '\'' value.toList) ++ "'"

/-- What an identifier stands for: an empty one is refused, a long one cut. -/
def denoted (name : String) : Option String := if name = "" then none else some (storedName name)

/-- A name an identifier can denote. -/
def Denotable (name : String) : Prop := name ≠ "" ∧ name.utf8ByteSize ≤ maxIdentifierBytes

/-- Text as the database can be sent it. -/
def NulFree (text : String) : Prop := '\x00' ∉ text.toList

/-- Wherever a token begins, the text is read as one that stands for `a`, if what follows keeps to
`Apart`. -/
def ReadAs {α : Type} (read : List Char → Option (α × List Char)) (Apart : List Char → Prop)
    (text : String) (a : α) : Prop :=
  ∀ after, Apart after → read (text.toList ++ after) = some (a, after)

/-- What may follow an identifier. -/
def ApartIdent (after : List Char) : Prop := after.head? ≠ some '"'

/-- What may follow a literal: neither a quote nor, on a later line, more of it. -/
def ApartLiteral (after : List Char) : Prop :=
  after.head? ≠ some '\'' ∧ continues false false after = false

/-- The text stands in the body of a dollar quotation and does not end it. -/
def KeptInBody (text : String) : Prop :=
  ∀ before after, hasDollars before = false →
    dollarBody (before ++ text.toList ++ after) =
      (dollarBody after).map (Prod.map (before ++ text.toList ++ ·) id)

variable {s schema table : String}

theorem utf8Len_takeBytes (n : ℕ) (cs : List Char) : String.utf8Len (takeBytes n cs) ≤ n := by
  fun_induction takeBytes n cs with
  | case1 n | case3 n => exact Nat.zero_le n
  | case2 n c cs hc ih =>
    rw [String.utf8Len]
    omega

theorem denoted_iff : denoted s = some s ↔ Denotable s := by
  by_cases hs : s = ""
  · simp [denoted, Denotable, hs]
  · have hstored : storedName s = s ↔ s.utf8ByteSize ≤ maxIdentifierBytes := by
      refine ⟨fun h => ?_, storedName_of_le⟩
      rw [← h, storedName, String.utf8ByteSize_ofList]
      exact utf8Len_takeBytes _ _
    simp [denoted, Denotable, hs, hstored]

theorem toList_quoteIdent (s : String) :
    (quoteIdent s).toList = '"' :: (doubled '"' s.toList ++ ['"']) := by
  simp [quoteIdent]

theorem toList_quoteLiteral (s : String) :
    (quoteLiteral s).toList = '\'' :: (doubled '\'' s.toList ++ ['\'']) := by
  simp [quoteLiteral]

theorem readAs_quoteIdent (hs : NulFree s) : ReadAs readIdent ApartIdent (quoteIdent s) s := by
  intro after hafter
  rw [toList_quoteIdent]
  simp [readIdent, quotation_doubled hs hafter]

theorem readAs_quoteLiteral (hs : NulFree s) :
    ReadAs readLiteral ApartLiteral (quoteLiteral s) s := by
  rintro after ⟨hquote, hmore⟩
  rw [toList_quoteLiteral]
  simp [readLiteral, quotation_doubled hs hquote, hmore]

theorem readAs_quoteQualifiedIdent (hdot : '.' ∉ schema.toList) (hschema : NulFree schema)
    (htable : NulFree table) :
    ReadAs readName ApartIdent (quoteQualifiedIdent (schema ++ "." ++ table)) [schema, table] := by
  have hcut : Strings.cut (schema ++ "." ++ table) '.' = some (schema, table) := by
    have hkeep : ∀ c ∈ schema.toList, (!decide (c = '.')) = true := by
      grind
    simp [Strings.cut, List.takeWhile_append_of_pos hkeep, List.dropWhile_append_of_pos hkeep]
  intro after hafter
  have hname := readAs_quoteIdent htable after hafter
  have hfront := readAs_quoteIdent hschema ('.' :: ((quoteIdent table).toList ++ after))
    (by simp [ApartIdent])
  simp only [quoteQualifiedIdent, hcut, String.toList_append, List.append_assoc]
  rw [readName, show ".".toList = ['.'] from rfl, List.singleton_append, hfront]
  simp [hname]

/-- Texts that are read back as what they were made of were made of different ones. -/
theorem ReadAs.injOn {read : List Char → Option (String × List Char)} {Apart : List Char → Prop}
    {quote : String → String} (happart : Apart [])
    (h : ∀ s, NulFree s → ReadAs read Apart (quote s) s) : Set.InjOn quote {s | NulFree s} := by
  intro a ha b hb heq
  have hread := h a ha [] happart
  rw [heq, h b hb [] happart] at hread
  simpa using hread.symm

theorem keptInBody_iff {q : Char} (hq : q ≠ '$') {text : String}
    (htext : text.toList = q :: (doubled q s.toList ++ [q])) :
    KeptInBody text ↔ hasDollars s.toList = false := by
  have hbody : ∀ before after, dollarBody (before ++ text.toList ++ after) =
      (dollarBody after).map (Prod.map (before ++ text.toList ++ ·) id) ↔
      (hasDollars before || hasDollars s.toList) = false := by
    intro before after
    have hsplit := dollarBody_append hq (before ++ q :: doubled q s.toList) after
    simp only [List.append_assoc, List.cons_append, List.nil_append, hasDollars_append_cons hq,
      hasDollars_doubled hq, hasDollars, Bool.or_false] at hsplit
    simpa [htext] using hsplit
  constructor
  · exact fun h => (hbody [] []).mp (h [] [] rfl)
  · exact fun h before after hbefore => (hbody before after).mpr (by rw [hbefore, h]; rfl)

theorem quoting_denotes_iff (hs : NulFree s) (hdot : '.' ∉ schema.toList)
    (hschema : NulFree schema) (htable : NulFree table) :
    Set.InjOn quoteIdent {s | NulFree s} ∧ Set.InjOn quoteLiteral {s | NulFree s} ∧
    ReadAs readIdent ApartIdent (quoteIdent s) s ∧ (denoted s = some s ↔ Denotable s) ∧
    ReadAs readLiteral ApartLiteral (quoteLiteral s) s ∧
    ReadAs readName ApartIdent (quoteQualifiedIdent (schema ++ "." ++ table)) [schema, table] ∧
    ([schema, table].mapM denoted = some [schema, table] ↔ Denotable schema ∧ Denotable table) ∧
    (KeptInBody (quoteIdent s) ↔ hasDollars s.toList = false) ∧
    (KeptInBody (quoteLiteral s) ↔ hasDollars s.toList = false) := by
  have hparts : [schema, table].mapM denoted = some [schema, table] ↔
      Denotable schema ∧ Denotable table := by
    rw [← denoted_iff, ← denoted_iff]
    simp [Option.bind_eq_some_iff]
  exact ⟨ReadAs.injOn (by simp [ApartIdent]) (fun _ => readAs_quoteIdent),
    ReadAs.injOn (by simp [ApartLiteral, continues]) (fun _ => readAs_quoteLiteral),
    readAs_quoteIdent hs, denoted_iff, readAs_quoteLiteral hs,
    readAs_quoteQualifiedIdent hdot hschema htable, hparts,
    keptInBody_iff (by decide) (toList_quoteIdent s),
    keptInBody_iff (by decide) (toList_quoteLiteral s)⟩

theorem quoting_denotes_orders :
    readName "\"entities\".\"crm_orders\" (".toList =
      some (["entities", "crm_orders"], " (".toList) ∧
      ["entities", "crm_orders"].mapM denoted = some ["entities", "crm_orders"] := by
  obtain ⟨-, -, -, -, -, hread, hdenoted, -⟩ :=
    @quoting_denotes_iff "" "entities" "crm_orders" (by simp [NulFree]) (by decide)
      (by simp [NulFree]) (by simp [NulFree])
  exact ⟨hread " (".toList (by simp [ApartIdent]),
    hdenoted.mpr ⟨⟨by decide, by decide⟩, ⟨by decide, by decide⟩⟩⟩

/-- The empty name is refused, a name of 64 characters loses one, and one with the delimiter in it
ends the body it stands in. -/
theorem quoted_names_not_denoted :
    denoted "" = none ∧
    denoted (.ofList (.replicate 64 'a')) = some (.ofList (.replicate 63 'a')) ∧
    dollarBody ((quoteIdent "a$$b").toList ++ " := 1 $$".toList) =
      some ("\"a".toList, "b\" := 1 $$".toList) := by
  decide

end Metap.Reconciler
