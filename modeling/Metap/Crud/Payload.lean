import Metap.Framework.Uuid
import Metap.Metadata.Entity

/-!
# Payloads

What a payload goes through before it is written: no system field may be named, every declared
field's value must have the field's kind and bounds, references are rewritten to the canonical
form of their identifier, and computed fields are filled in from the rest of the data.

`validatePayload` changes nothing but the spelling of references (`get_of_validatePayload`), and
`recomputeFields` nothing but computed fields (`get_recomputeFields_of_not_computed`).
-/

namespace Metap.Crud

/-- Messages per field. -/
abbrev FieldErrors := List (String × List String)

/-- How the runtime prints a number that is no 64-bit integer, and a compound value. -/
structure Printer where
  formatG : Float64 → String
  marshal : Decoded → String

section Validation

variable (codec : UuidCodec)

/-- Whether a value has a kind; an enum is checked against its values instead. -/
def kindMatches (kind : FieldKind) (raw : Json) : Bool :=
  match kind with
  | .id | .string | .date | .datetime => raw.decodeString.isSome
  | .reference => (raw.decodeString.bind codec.parse).isSome
  | .number | .money => raw.decodeFloat64.isSome
  | .boolean => raw.decodeBool.isSome
  | .json => true
  | .enum => false

def hasFieldType (field : EntityField) (raw : Json) : Bool :=
  if field.kind = .enum then
    match raw.decodeString with
    | some s => (field.enumValues.getD []).contains s
    | none => false
  else kindMatches codec field.kind raw

/-- The bounds a value of the right type misses. -/
def boundErrors (field : EntityField) (raw : Json) : List String :=
  let numeric :=
    match field.kind, raw.decodeFloat64 with
    | .number, some n | .money, some n =>
      (if field.min.any fun m => n.value < m.value then ["min"] else []) ++
        (if field.max.any fun m => m.value < n.value then ["max"] else [])
    | _, _ => []
  let textual :=
    match field.kind, raw.decodeString with
    | .string, some s =>
      (if field.minLength.any fun m => s.length < m then ["min_length"] else []) ++
        (if field.maxLength.any fun m => m < s.length then ["max_length"] else [])
    | _, _ => []
  numeric ++ textual

/-- What is wrong with a field of a payload. -/
def errorsOfField (field : EntityField) (raw : Option Json) : List String :=
  match raw with
  | none | some .null => if boolOrFalse field.required then ["required"] else []
  | some raw => if hasFieldType codec field raw then boundErrors field raw else ["invalid_type"]

/-- A reference in its canonical form; any other value as it is. -/
def canonicalValue (field : EntityField) (raw : Json) : Json :=
  if field.kind = .reference ∧ raw ≠ .null then
    match raw.decodeString.bind codec.parse with
    | some u => .str (codec.format u)
    | none => raw
  else raw

/-- Rewrite one field of a payload to its canonical form, if it is a reference. -/
def canonicalizeField (data result : JsonObject) (field : EntityField) : JsonObject :=
  match field.kind, data.get field.name with
  | .reference, some raw => result.set field.name (canonicalValue codec field raw)
  | _, _ => result

def validatePayload (entity : EntityDefinition) (data : JsonObject) :
    Except FieldErrors JsonObject :=
  let errs := entity.fields.filterMap fun field =>
    match errorsOfField codec field (data.get field.name) with
    | [] => none
    | messages => some (field.name, messages)
  if errs.isEmpty then .ok (entity.fields.foldl (canonicalizeField codec data) data)
  else .error errs

end Validation

/-- A field error for every system field a payload names. -/
def rejectSystemFields (entity : EntityDefinition) (data : JsonObject) : FieldErrors :=
  ((systemFieldNames entity).filter fun name => (data.get name).isSome).map fun name =>
    (name, ["system_field"])

section Computed

variable (printer : Printer)

def formatFloat (f : Float64) : String :=
  if f.value.den = 1 ∧ -2 ^ 63 ≤ f.value.num ∧ f.value.num < 2 ^ 63 then toString f.value.num
  else printer.formatG f

/-- How a value reads inside a computed text. -/
def computedTokenToString (raw : Json) : String :=
  match raw with
  | .null => ""
  | .str s => s
  | raw =>
    match raw.decodeAny with
    | some (.num f) => formatFloat printer f
    | some (.bool b) => if b then "true" else "false"
    | some v => printer.marshal v
    | none => raw.compact

/-- Fill in one field, if it is computed. -/
def recomputeField (data : JsonObject) (field : EntityField) : JsonObject :=
  match field.computed with
  | none => data
  | some c => data.set field.name (.str (renderExpression c.expression fun name =>
      (data.get name).map (computedTokenToString printer)))

def recomputeFields (entity : EntityDefinition) (data : JsonObject) : JsonObject :=
  entity.fields.foldl (recomputeField printer) data

end Computed

/-- The denormalised `code` column of a payload. -/
def codeOf (data : JsonObject) : Option String := (data.get "code").bind Json.decodeString

/-! ## What is left alone -/

variable {codec : UuidCodec} {printer : Printer}

/-- The canonical form of a member, by the field it belongs to. -/
def canonicalMember (codec : UuidCodec) (entity : EntityDefinition) (k : String) (raw : Json) :
    Json :=
  match entity.field? k with
  | some field => canonicalValue codec field raw
  | none => raw

variable {data : JsonObject}

theorem get_canonicalizeField_of_ne {result : JsonObject} {f : EntityField} {k : String}
    (hk : f.name ≠ k) : (canonicalizeField codec data result f).get k = result.get k := by
  unfold canonicalizeField
  split
  · rw [JsonObject.get_set, if_neg hk.symm]
  · rfl

variable {fields : List EntityField}

theorem get_foldl_canonicalizeField_of_notMem {k : String} (hk : k ∉ fields.map EntityField.name)
    (result : JsonObject) :
    (fields.foldl (canonicalizeField codec data) result).get k = result.get k := by
  induction fields generalizing result with
  | nil => rfl
  | cons f fs ih =>
    simp only [List.map_cons, List.mem_cons, not_or] at hk
    rw [List.foldl_cons, ih hk.2, get_canonicalizeField_of_ne (Ne.symm hk.1)]

/-- A field of the loop is written once, from the payload. -/
theorem get_foldl_canonicalizeField (hnodup : (fields.map EntityField.name).Nodup) {f : EntityField}
    (hf : f ∈ fields) {result : JsonObject}
    (hresult : result.get f.name = JsonObject.get data f.name) :
    (fields.foldl (canonicalizeField codec data) result).get f.name =
      (JsonObject.get data f.name).map (canonicalValue codec f) := by
  induction fields generalizing result with
  | nil => cases hf
  | cons g gs ih =>
    rw [List.map_cons, List.nodup_cons] at hnodup
    rw [List.foldl_cons]
    rcases List.mem_cons.mp hf with rfl | hf
    · rw [get_foldl_canonicalizeField_of_notMem hnodup.1]
      by_cases hkind : f.kind = .reference
      · cases hget : JsonObject.get data f.name <;>
          simp [canonicalizeField, hkind, hget, hresult]
      · have hsame : canonicalValue codec f = id := by
          funext raw
          simp [canonicalValue, hkind]
        simp [canonicalizeField, hkind, hresult, hsame]
    · have hne : g.name ≠ f.name := fun h => hnodup.1 (h ▸ List.mem_map_of_mem hf)
      exact ih hnodup.2 hf ((get_canonicalizeField_of_ne hne).trans hresult)

variable {entity : EntityDefinition}

/-- A payload that validates keeps every member, references in canonical form. -/
theorem get_of_validatePayload (hnodup : (entity.fields.map EntityField.name).Nodup)
    {data' : JsonObject} (h : validatePayload codec entity data = .ok data') (k : String) :
    data'.get k = (data.get k).map (canonicalMember codec entity k) := by
  unfold validatePayload at h
  dsimp only at h
  split at h
  · cases h
    unfold canonicalMember
    cases hfield : entity.field? k with
    | some f =>
      obtain ⟨hf, rfl⟩ := EntityDefinition.mem_of_field?_eq_some hfield
      exact get_foldl_canonicalizeField hnodup hf rfl
    | none =>
      have hk : k ∉ entity.fields.map EntityField.name := by
        intro hk
        obtain ⟨f, hf, rfl⟩ := List.mem_map.mp hk
        rw [EntityDefinition.field?_eq_some hnodup hf] at hfield
        cases hfield
      rw [get_foldl_canonicalizeField_of_notMem hk]
      exact Option.map_id'.symm
  · cases h

variable {k : String}

/-- Only a reference is ever respelled. -/
theorem canonicalMember_of_not_reference (h : ∀ f ∈ entity.fields, f.name = k → f.kind ≠ .reference)
    (raw : Json) : canonicalMember codec entity k raw = raw := by
  unfold canonicalMember
  split
  · next field hfield =>
    obtain ⟨hmem, hname⟩ := EntityDefinition.mem_of_field?_eq_some hfield
    simp [canonicalValue, h field hmem hname]
  · rfl

theorem get_foldl_recomputeField_of_not_computed (h : ∀ f ∈ fields, f.name = k → f.computed = none)
    (data : JsonObject) :
    (fields.foldl (recomputeField printer) data).get k = JsonObject.get data k := by
  induction fields generalizing data with
  | nil => rfl
  | cons f fs ih =>
    rw [List.foldl_cons, ih fun g hg => h g (List.mem_cons_of_mem f hg)]
    unfold recomputeField
    split
    · rfl
    · next c hc =>
      have hne : k ≠ f.name := by
        rintro rfl
        rw [h f List.mem_cons_self rfl] at hc
        cases hc
      simp [hne]

theorem get_recomputeFields_of_not_computed
    (h : ∀ f ∈ entity.fields, f.name = k → f.computed = none) (data : JsonObject) :
    (recomputeFields printer entity data).get k = JsonObject.get data k :=
  get_foldl_recomputeField_of_not_computed h data

theorem get_eq_none_of_rejectSystemFields (h : rejectSystemFields entity data = [])
    (hk : k ∈ systemFieldNames entity) : data.get k = none := by
  simp only [rejectSystemFields, List.map_eq_nil_iff, List.filter_eq_nil_iff] at h
  simpa using h k hk

end Metap.Crud
