import Mathlib

/-!
# JSON values and how a typed decoder reads them

JSON as a document format: numbers keep the text they were written with (two literals of one
number are two values), objects keep the order and the duplicates of the text.  On top of it
are the readings a statically typed decoder offers: into a string, a boolean, a
number kept as text, a binary64, a slice, a map, or the decoder's dynamic value.  In all of them the
document `null` is accepted and leaves the target at its zero value; this is the point where
typed readings of one document disagree with each other.

A number decodes to the nearest binary64 (ties to even, sign of zero kept) and is refused when
its magnitude overflows.
-/

namespace Metap

/-! ## Number literals -/

/-- The pieces of a JSON number text. -/
structure NumParts where
  neg : Bool
  int : List Char
  frac : List Char
  expNeg : Bool
  exp : List Char
  deriving DecidableEq, Repr

/-- A nonempty run of digits and nothing else. -/
def allDigits (cs : List Char) : Bool := !cs.isEmpty && cs.all Char.isDigit

def splitExponent : List Char → Option (Bool × List Char)
  | [] => some (false, [])
  | c :: cs =>
    if c = 'e' ∨ c = 'E' then
      match cs with
      | '+' :: ds => if allDigits ds then some (false, ds) else none
      | '-' :: ds => if allDigits ds then some (true, ds) else none
      | ds => if allDigits ds then some (false, ds) else none
    else none

/-- Split a text by the JSON number grammar: an optional minus, an integer part without
leading zeros, an optional fraction, an optional exponent. -/
def splitNumber (cs : List Char) : Option NumParts := do
  let neg := cs.head? = some '-'
  let cs := if neg then cs.tail else cs
  let int := cs.takeWhile Char.isDigit
  guard (allDigits int && (int.head? ≠ some '0' || int.length = 1))
  let rest := cs.dropWhile Char.isDigit
  let frac := if rest.head? = some '.' then rest.tail.takeWhile Char.isDigit else []
  guard (rest.head? ≠ some '.' || allDigits frac)
  let tail := if rest.head? = some '.' then rest.tail.dropWhile Char.isDigit else rest
  let (expNeg, exp) ← splitExponent tail
  return { neg, int, frac, expNeg, exp }

def NumParts.exponent (p : NumParts) : ℤ :=
  let e : ℤ := Nat.ofDigitChars 10 p.exp 0
  (if p.expNeg then -e else e) - p.frac.length

/-- The magnitude a number text denotes. -/
def NumParts.magnitude (p : NumParts) : ℚ :=
  (Nat.ofDigitChars 10 (p.int ++ p.frac) 0 : ℚ) * (10 : ℚ) ^ p.exponent

def isJsonNumber (s : String) : Bool := (splitNumber s.toList).isSome

/-- A JSON number, kept as its text. -/
structure NumLit where
  text : String
  valid : isJsonNumber text = true
  deriving DecidableEq

namespace NumLit

def parts (n : NumLit) : NumParts := (splitNumber n.text.toList).get n.valid

/-- The number denoted. -/
def value (n : NumLit) : ℚ := if n.parts.neg then -n.parts.magnitude else n.parts.magnitude

end NumLit

/-! ## Binary64 -/

/-- A finite binary64 datum, by sign and magnitude: `-0` and `0` are two data. -/
structure Float64 where
  neg : Bool
  mag : ℚ
  deriving DecidableEq, Repr

namespace Float64

def zero : Float64 := ⟨false, 0⟩

def value (f : Float64) : ℚ := if f.neg then -f.mag else f.mag

/-- The nearest integer, ties to even. -/
def roundHalfEven (q : ℚ) : ℤ :=
  let lo := ⌊q⌋
  let d := q - lo
  if d < 1 / 2 then lo
  else if 1 / 2 < d then lo + 1
  else if lo % 2 = 0 then lo else lo + 1

/-- Round a magnitude to 53 significant bits, or to the subnormal grid below `2 ^ -1022`. -/
def roundMag (q : ℚ) : ℚ :=
  if q = 0 then 0
  else
    let e := max (Int.log 2 q) (-1022)
    let ulp : ℚ := 2 ^ (e - 52)
    roundHalfEven (q / ulp) * ulp

/-- The datum a number text is decoded to; `none` when it overflows. -/
def ofNumLit (n : NumLit) : Option Float64 :=
  let m := roundMag n.parts.magnitude
  if 2 ^ 1024 ≤ m then none else some ⟨n.parts.neg, m⟩

end Float64

/-! ## Documents -/

/-- JSON documents over a type of numbers. -/
inductive JsonTree (N : Type) where
  | null
  | bool (b : Bool)
  | num (n : N)
  | str (s : String)
  | arr (items : List (JsonTree N))
  | obj (fields : List (String × JsonTree N))

namespace JsonTree

variable {N : Type} [DecidableEq N]

mutual

def decEq : (a b : JsonTree N) → Decidable (a = b)
  | .null, .null => isTrue rfl
  | .bool a, .bool b => decidable_of_iff (a = b) (by simp)
  | .num a, .num b => decidable_of_iff (a = b) (by simp)
  | .str a, .str b => decidable_of_iff (a = b) (by simp)
  | .arr a, .arr b =>
    match decEqItems a b with
    | isTrue h => isTrue (by rw [h])
    | isFalse h => isFalse (by simpa using h)
  | .obj a, .obj b =>
    match decEqFields a b with
    | isTrue h => isTrue (by rw [h])
    | isFalse h => isFalse (by simpa using h)
  | .null, .bool _ | .null, .num _ | .null, .str _ | .null, .arr _ | .null, .obj _
  | .bool _, .null | .bool _, .num _ | .bool _, .str _ | .bool _, .arr _ | .bool _, .obj _
  | .num _, .null | .num _, .bool _ | .num _, .str _ | .num _, .arr _ | .num _, .obj _
  | .str _, .null | .str _, .bool _ | .str _, .num _ | .str _, .arr _ | .str _, .obj _
  | .arr _, .null | .arr _, .bool _ | .arr _, .num _ | .arr _, .str _ | .arr _, .obj _
  | .obj _, .null | .obj _, .bool _ | .obj _, .num _ | .obj _, .str _ | .obj _, .arr _ =>
    isFalse (by simp)

def decEqItems : (a b : List (JsonTree N)) → Decidable (a = b)
  | [], [] => isTrue rfl
  | [], _ :: _ => isFalse (by simp)
  | _ :: _, [] => isFalse (by simp)
  | x :: xs, y :: ys =>
    match decEq x y, decEqItems xs ys with
    | isTrue h, isTrue h' => isTrue (by rw [h, h'])
    | isFalse h, _ => isFalse (by simp [h])
    | _, isFalse h => isFalse (by simp [h])

def decEqFields : (a b : List (String × JsonTree N)) → Decidable (a = b)
  | [], [] => isTrue rfl
  | [], _ :: _ => isFalse (by simp)
  | _ :: _, [] => isFalse (by simp)
  | (k, x) :: xs, (l, y) :: ys =>
    match (inferInstance : Decidable (k = l)), decEq x y, decEqFields xs ys with
    | isTrue hk, isTrue h, isTrue h' => isTrue (by rw [hk, h, h'])
    | isFalse hk, _, _ => isFalse (by simp [hk])
    | _, isFalse h, _ => isFalse (by simp [h])
    | _, _, isFalse h => isFalse (by simp [h])

end

instance : DecidableEq (JsonTree N) := decEq

end JsonTree

/-- A document as it was written. -/
abbrev Json := JsonTree NumLit

/-- The dynamic value of a decoded document: numbers are binary64, an object is a map, held as
the list of its entries in key order. -/
abbrev Decoded := JsonTree Float64

/-- Insert into a key-ordered association list; a later entry replaces an earlier one. -/
def insertEntry {α : Type} (k : String) (v : α) : List (String × α) → List (String × α)
  | [] => [(k, v)]
  | (k', v') :: es =>
    if k = k' then (k, v) :: es
    else if k < k' then (k, v) :: (k', v') :: es
    else (k', v') :: insertEntry k v es

/-- Entries in the order of their keys, as an encoded map has them. -/
def SortedEntries {α : Type} (es : List (String × α)) : Prop := es.Pairwise fun a b => a.1 < b.1

variable {α : Type} {es : List (String × α)}

theorem key_of_mem_insertEntry {k : String} {v : α} {e : String × α} (h : e ∈ insertEntry k v es) :
    e.1 = k ∨ e ∈ es := by
  induction es with
  | nil => exact .inl (by simpa using congrArg Prod.fst (List.mem_singleton.mp h))
  | cons e' es ih =>
    unfold insertEntry at h
    split at h
    · rcases List.mem_cons.mp h with rfl | hrest
      · exact .inl rfl
      · exact .inr (List.mem_cons_of_mem _ hrest)
    split at h
    · rcases List.mem_cons.mp h with rfl | hrest
      · exact .inl rfl
      · exact .inr hrest
    · rcases List.mem_cons.mp h with rfl | hrest
      · exact .inr List.mem_cons_self
      · exact (ih hrest).imp_right (List.mem_cons_of_mem _)

theorem SortedEntries.insertEntry (h : SortedEntries es) (k : String) (v : α) :
    SortedEntries (Metap.insertEntry k v es) := by
  induction es with
  | nil => exact List.pairwise_singleton _ _
  | cons e es ih =>
    obtain ⟨hhead, htail⟩ := List.pairwise_cons.mp h
    unfold Metap.insertEntry
    split
    · next heq =>
      subst heq
      exact List.pairwise_cons.mpr ⟨hhead, htail⟩
    next hne =>
    split
    · next hlt =>
      refine List.pairwise_cons.mpr ⟨List.forall_mem_cons.mpr ⟨hlt, ?_⟩, h⟩
      exact fun e' he' => hlt.trans (hhead e' he')
    · next hge =>
      refine List.pairwise_cons.mpr ⟨fun e' he' => ?_, ih htail⟩
      rcases key_of_mem_insertEntry he' with hkey | hmem
      · rw [hkey]
        exact lt_of_le_of_ne (not_lt.mp hge) fun heq => hne heq.symm
      · exact hhead e' hmem

theorem insertEntry_of_forall_lt {k : String} {v : α} (h : ∀ e ∈ es, e.1 < k) :
    insertEntry k v es = es ++ [(k, v)] := by
  induction es with
  | nil => rfl
  | cons e es ih =>
    obtain ⟨hhead, htail⟩ := List.forall_mem_cons.mp h
    unfold insertEntry
    rw [if_neg hhead.ne', if_neg hhead.not_gt, ih htail, List.cons_append]

/-- A map encoded entry by entry is itself. -/
theorem foldl_insertEntry {acc : List (String × α)} (h : SortedEntries (acc ++ es)) :
    es.foldl (fun acc e => insertEntry e.1 e.2 acc) acc = acc ++ es := by
  induction es generalizing acc with
  | nil => rw [List.foldl_nil, List.append_nil]
  | cons e es ih =>
    have hlt : ∀ e' ∈ acc, e'.1 < e.1 := fun e' he' =>
      (List.pairwise_append.mp h).2.2 e' he' e List.mem_cons_self
    rw [List.foldl_cons, insertEntry_of_forall_lt hlt, ih (by simpa using h)]
    simp

namespace Json

mutual

/-- Decode into the dynamic type; `none` when some number overflows. -/
def decodeAny : Json → Option Decoded
  | .null => some .null
  | .bool b => some (.bool b)
  | .num n => (Float64.ofNumLit n).map .num
  | .str s => some (.str s)
  | .arr items => (decodeItems items).map .arr
  | .obj fields => (decodeFields fields []).map .obj

def decodeItems : List Json → Option (List Decoded)
  | [] => some []
  | j :: js => do
    let d ← decodeAny j
    let ds ← decodeItems js
    return d :: ds

def decodeFields : List (String × Json) → List (String × Decoded) →
    Option (List (String × Decoded))
  | [], acc => some acc
  | (k, j) :: fs, acc => do
    let d ← decodeAny j
    decodeFields fs (insertEntry k d acc)

end

/-! ## Typed readings -/

/-- Into a string. -/
def decodeString : Json → Option String
  | .str s => some s
  | .null => some ""
  | _ => none

/-- Into a boolean. -/
def decodeBool : Json → Option Bool
  | .bool b => some b
  | .null => some false
  | _ => none

/-- Into a number kept as text, which a string spelling a number is accepted for too. -/
def decodeNumber : Json → Option String
  | .num n => some n.text
  | .null => some ""
  | .str s => if isJsonNumber s then some s else none
  | _ => none

/-- Into a binary64. -/
def decodeFloat64 : Json → Option Float64
  | .num n => Float64.ofNumLit n
  | .null => some Float64.zero
  | _ => none

/-- Into a slice of documents. -/
def decodeArray : Json → Option (List Json)
  | .arr items => some items
  | .null => some []
  | _ => none

/-- Into a slice of strings. -/
def decodeStrings (j : Json) : Option (List String) :=
  j.decodeArray.bind fun items => items.mapM decodeString

/-- A slice of strings as a document. -/
def ofStrings (ss : List String) : Json := .arr (ss.map .str)

@[simp]
theorem decodeStrings_ofStrings (ss : List String) : decodeStrings (ofStrings ss) = some ss := by
  have hmap : (ss.map JsonTree.str).mapM decodeString = some ss := by
    induction ss with
    | nil => rfl
    | cons s ss ih => simp [List.mapM_cons, decodeString, ih]
  simpa [decodeStrings, ofStrings, decodeArray] using hmap

end Json

/-! ## Text of a document -/

/-- The two hexadecimal digits of a control character's code. -/
def hexByte (n : ℕ) : String :=
  String.ofList [Nat.digitChar (n / 16 % 16), Nat.digitChar (n % 16)]

def escapeChar (c : Char) : String :=
  if c = '"' then "\\\""
  else if c = '\\' then "\\\\"
  else if c = '\n' then "\\n"
  else if c = '\r' then "\\r"
  else if c = '\t' then "\\t"
  else if c = Char.ofNat 8 then "\\b"
  else if c = Char.ofNat 12 then "\\f"
  else if c.toNat < 32 then "\\u00" ++ hexByte c.toNat
  else String.singleton c

def quoteJson (s : String) : String :=
  "\"" ++ s.toList.foldr (fun c acc => escapeChar c ++ acc) "" ++ "\""

mutual

/-- The text of a document, for a choice of the texts that separate entries and follow keys. -/
def Json.render (comma colon : String) : Json → String
  | .null => "null"
  | .bool b => if b then "true" else "false"
  | .num n => n.text
  | .str s => quoteJson s
  | .arr items => "[" ++ Json.renderItems comma colon items ++ "]"
  | .obj fields => "\x7b" ++ Json.renderFields comma colon fields ++ "\x7d"

def Json.renderItems (comma colon : String) : List Json → String
  | [] => ""
  | [j] => Json.render comma colon j
  | j :: js => Json.render comma colon j ++ comma ++ Json.renderItems comma colon js

def Json.renderFields (comma colon : String) : List (String × Json) → String
  | [] => ""
  | [(k, j)] => quoteJson k ++ colon ++ Json.render comma colon j
  | (k, j) :: fs =>
    quoteJson k ++ colon ++ Json.render comma colon j ++ comma ++
      Json.renderFields comma colon fs

end

/-- The text without blanks. -/
def Json.compact (j : Json) : String := j.render "," ":"

/-! ## Objects as maps -/

/-- The entries of an object; a map is read from it by `get`, in which a later entry of a key
hides the earlier ones. -/
abbrev JsonObject := List (String × Json)

namespace JsonObject

def get : JsonObject → String → Option Json
  | [], _ => none
  | (k', v) :: o, k => (get o k).or (if k' = k then some v else none)

def erase (o : JsonObject) (k : String) : JsonObject := o.filter fun e => e.1 ≠ k

def set (o : JsonObject) (k : String) (v : Json) : JsonObject := erase o k ++ [(k, v)]

/-- The keys present. -/
def keys (o : JsonObject) : List String := (o.map Prod.fst).dedup

@[simp]
theorem get_nil (k : String) : get [] k = none := rfl

variable (o : JsonObject)

theorem get_append (o' : JsonObject) (k : String) : get (o ++ o') k = (get o' k).or (get o k) := by
  induction o with
  | nil => simp
  | cons e o ih => simp [get, ih, Option.or_assoc]

theorem get_filter (p : String → Bool) (o : JsonObject) (k : String) :
    get (o.filter fun e => p e.1) k = if p k then get o k else none := by
  induction o with
  | nil => simp
  | cons e o ih =>
    by_cases hk : e.1 = k
    · subst hk
      by_cases hp : p e.1 = true <;> simp [hp, get, ih]
    · by_cases hp : p e.1 = true <;> simp [hp, get, ih, hk]

@[simp]
theorem get_erase (k k' : String) : get (erase o k) k' = if k' = k then none else get o k' := by
  have h := get_filter (fun x => decide (x ≠ k)) o k'
  by_cases hk : k' = k <;> simpa [erase, hk] using h

variable {k : String}

/-- Objects that differ at `k` only. -/
theorem get_eq_of_erase_eq {o o' : JsonObject} {k' : String} (h : erase o k = erase o' k)
    (hk : k' ≠ k) : get o k' = get o' k' := by
  have hget := congrArg (fun x => get x k') h
  simpa [get_erase, hk] using hget

theorem erase_set_of_ne {k' : String} (v : Json) (hk : k' ≠ k) :
    erase (set o k' v) k = set (erase o k) k' v := by
  simp [erase, set, List.filter_filter, hk, Bool.and_comm]

theorem erase_set_self (k : String) (v : Json) : erase (set o k v) k = erase o k := by
  simp [erase, set, List.filter_filter]

/-- Folds whose steps agree away from a name agree away from it. -/
theorem erase_foldl_congr {names : List String} {f g : JsonObject → String → JsonObject}
    {o o' : JsonObject}
    (hstep : ∀ n ∈ names, ∀ o o', erase o k = erase o' k → erase (f o n) k = erase (g o' n) k)
    (h : erase o k = erase o' k) : erase (names.foldl f o) k = erase (names.foldl g o') k := by
  induction names generalizing o o' with
  | nil => exact h
  | cons n names ih =>
    obtain ⟨hn, hrest⟩ := List.forall_mem_cons.mp hstep
    exact ih hrest (hn o o' h)

@[simp]
theorem get_set (k k' : String) (v : Json) :
    get (set o k v) k' = if k' = k then some v else get o k' := by
  rw [set, get_append, get_erase]
  by_cases hk : k' = k
  · simp [get, hk]
  · have hne : k ≠ k' := fun h => hk h.symm
    simp [get, hk, hne]

/-- The entries of `o'` written over `o`. -/
def merge (o o' : JsonObject) : JsonObject := o'.foldl (fun acc e => set acc e.1 e.2) o

@[simp]
theorem get_merge (o' : JsonObject) (k : String) :
    get (merge o o') k = (get o' k).or (get o k) := by
  induction o' generalizing o with
  | nil => simp [merge]
  | cons e o' ih =>
    have hcons : merge o (e :: o') = merge (set o e.1 e.2) o' := rfl
    rw [hcons, ih, get_set]
    by_cases hk : e.1 = k
    · simp [get, hk]
    · have hne : k ≠ e.1 := fun h => hk h.symm
      simp [get, hk, hne]

theorem get_eq_none_of_notMem {o : JsonObject} (h : k ∉ keys o) : get o k = none := by
  induction o with
  | nil => rfl
  | cons e o ih =>
    simp only [keys, List.mem_dedup, List.map_cons, List.mem_cons, not_or] at h ih
    have hne : e.1 ≠ k := fun hk => h.1 hk.symm
    simp [get, ih h.2, hne]

/-- The keys present are those under which something is found. -/
theorem mem_keys_iff {o : JsonObject} : k ∈ keys o ↔ (get o k).isSome = true := by
  constructor
  · intro h
    induction o with
    | nil => simp [keys] at h
    | cons e o ih =>
      simp only [keys, List.mem_dedup, List.map_cons, List.mem_cons] at h ih
      rcases h with rfl | h
      · simp [get]
      · simp [get, Option.isSome_or, ih h]
  · intro h
    by_contra hmem
    rw [get_eq_none_of_notMem hmem] at h
    cases h

end JsonObject

/-- Into a map of documents. -/
def Json.decodeObject : Json → Option JsonObject
  | .obj fields => some fields
  | .null => some []
  | _ => none

/-- What every step of a fallible loop keeps, the loop keeps. -/
theorem foldlM_invariant {β : Type} {f : β → α → Option β} {P : β → Prop}
    (hstep : ∀ acc a acc', P acc → f acc a = some acc' → P acc') {xs : List α} {init result : β}
    (hinit : P init) (h : xs.foldlM f init = some result) : P result := by
  induction xs generalizing init with
  | nil =>
    cases h
    exact hinit
  | cons x xs ih =>
    rw [List.foldlM_cons] at h
    obtain ⟨acc, hacc, h⟩ := Option.bind_eq_some_iff.mp h
    exact ih (hstep _ _ _ hinit hacc) h

/-- Into one member of a structure: every entry whose key is the member's name up to case is read
in turn, starting from the zero value. -/
def JsonObject.decodeMember {α : Type} (name : String) (read : α → Json → Option α) (zero : α)
    (o : JsonObject) : Option α :=
  o.foldlM (fun acc e => if e.1.toLower = name.toLower then read acc e.2 else some acc) zero

/-- Into a member of a scalar type, which a null leaves as it is. -/
def Json.readScalar {α : Type} (decode : String → Option α) (acc : α) : Json → Option α
  | .null => some acc
  | .str s => decode s
  | _ => none

end Metap
