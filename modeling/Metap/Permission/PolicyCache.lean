import Metap.Permission.PolicyTable

/-!
# The policy cache

The service keeps the policies of an entity in a cache as a JSON text: `encodePolicies` writes it,
`decodePolicies` reads it back, and `loadSnapshot` answers from it or, when it cannot be read, from
the store.  A row is written member by member; conditions have a codec of their own, written by
hand in both directions.  The effect is written as its name but read as a number.

So the text of a nonempty list is never read back (`decodePolicies_encodePolicies`), and a
snapshot is then loaded from the store.  The effect is all that stands in the way: with a reader
of its name every row comes back (`decodePoliciesWith_readEffectName`).

The decoder's panic on a test without a value counts as a failure to decode.
-/

namespace Metap

/-! ## Conditions -/

def encodeValue : PolicyValue → Json
  | .fromContext key => .obj [("fromContext", .str key)]
  | .literal v => .obj [("literal", v.getD .null)]

mutual

def encodeCondition : PolicyCondition → Json
  | .attribute attr op value =>
    .obj [("attribute", .str attr), ("op", .str (opString op)), ("value", encodeValue value)]
  | .all conditions => .obj [("all", .arr (encodeConditions conditions))]
  | .any conditions => .obj [("any", .arr (encodeConditions conditions))]

def encodeConditions : List PolicyCondition → List Json
  | [] => []
  | c :: cs => encodeCondition c :: encodeConditions cs

end

/-- An operator by its text. -/
def ConditionOp.ofString (text : String) : ConditionOp :=
  match text with
  | "eq" => .eq
  | "neq" => .neq
  | "in" => .in
  | "notIn" => .notIn
  | "gt" => .gt
  | "gte" => .gte
  | "lt" => .lt
  | "lte" => .lte
  | "contains" => .contains
  | "notContains" => .notContains
  | text => .other text

/-- Into a pointer to a text. -/
def readTextPointer : Json → Option (Option String)
  | .null => some none
  | .str s => some (some s)
  | _ => none

def decodeValue : Json → Option PolicyValue
  | .null => some (.literal none)
  | .obj o => do
    let fromContext ← JsonObject.decodeMember "fromContext" (fun _ j => readTextPointer j) none o
    let literal ← JsonObject.decodeMember "literal" (fun _ j => some (some j)) none o
    match fromContext with
    | some key => return .fromContext key
    | none => return .literal literal
  | _ => none

/-- The members of a condition's object, as they are found. -/
structure ConditionProbe where
  attr : Option String := none
  op : String := ""
  value : Option PolicyValue := none
  all : Option (List PolicyCondition) := none
  any : Option (List PolicyCondition) := none

namespace ConditionProbe

/-- Take a member in; `conditions` is what it reads as a list of conditions. -/
def note (p : ConditionProbe) (name : String) (j : Json)
    (conditions : Option (Option (List PolicyCondition))) : Option ConditionProbe :=
  match name.toLower with
  | "attribute" => (readTextPointer j).map fun attr => { p with attr }
  | "op" => (j.readScalar some p.op).map fun op => { p with op }
  | "value" =>
    if j = .null then some { p with value := none }
    else (decodeValue j).map fun value => { p with value := some value }
  | "all" => conditions.map fun all => { p with all }
  | "any" => conditions.map fun any => { p with any }
  | _ => some p

/-- The variant that the members make: a test, else `all`, else `any`. -/
def finish (p : ConditionProbe) : Option PolicyCondition :=
  match p.attr, p.all, p.any with
  | some attr, _, _ => p.value.map fun value => .attribute attr (.ofString p.op) value
  | none, some all, _ => some (.all all)
  | none, none, some any => some (.any any)
  | none, none, none => none

end ConditionProbe

mutual

def decodeCondition : Json → Option PolicyCondition
  | .obj members => (decodeProbe members {}).bind ConditionProbe.finish
  | _ => none

def decodeProbe : List (String × Json) → ConditionProbe → Option ConditionProbe
  | [], p => some p
  | (name, j) :: members, p => (p.note name j (decodeConditionArray j)).bind (decodeProbe members)

def decodeConditionArray : Json → Option (Option (List PolicyCondition))
  | .null => some none
  | .arr items => (decodeConditions items).map some
  | _ => none

def decodeConditions : List Json → Option (List PolicyCondition)
  | [] => some []
  | j :: js => (decodeCondition j).bind fun c => (decodeConditions js).map (c :: ·)

end

/-! ## Rows -/

def PolicyEffect.string : PolicyEffect → String
  | .allow => "allow"
  | .deny => "deny"

def parsePolicyEffect (s : String) : PolicyEffect := if s = "deny" then .deny else .allow

/-- The zero value that a row is decoded into. -/
def StoredPolicy.zero : StoredPolicy where
  action := ""
  subject := ""
  id := 0
  tenantID := 0
  entity := ""

/-- A null leaves the effect as it is; anything but an integer is refused, so its name is too. -/
def readEffect (acc : PolicyEffect) : Json → Option PolicyEffect
  | .null => some acc
  | .num n => n.text.toInt?.map fun i => if i = 1 then .deny else .allow
  | _ => none

def readBool (acc : Bool) : Json → Option Bool
  | .null => some acc
  | .bool b => some b
  | _ => none

section

variable (codec : UuidCodec)

/-- A missing list of roles is written as null. -/
def encodeRoles (row : StoredPolicy) : Json :=
  if row.roles.isEmpty && !row.hasRoles then .null else Json.ofStrings row.roles

/-- The members of a row, under the names of the structure's fields. -/
def rowMembers (row : StoredPolicy) : JsonObject :=
  [("ID", .str (codec.format row.id)),
   ("TenantID", .str (codec.format row.tenantID)),
   ("Entity", .str row.entity),
   ("Action", .str row.action),
   ("Field", .str row.field),
   ("Subject", .str row.subject),
   ("Roles", encodeRoles row),
   ("HasRoles", .bool row.hasRoles),
   ("Condition", (row.condition.map encodeCondition).getD .null),
   ("CreatedBy", (row.createdBy.map fun u => .str (codec.format u)).getD .null),
   ("Effect", .str row.effect.string)]

def encodePolicies (rows : List StoredPolicy) : Json :=
  .arr (rows.map fun row => .obj (rowMembers codec row))

/-- Into a pointer to an identifier. -/
def readUuidPointer : Json → Option (Option Uuid)
  | .null => some none
  | .str s => (codec.parse s).map some
  | _ => none

def readConditionPointer (j : Json) : Option (Option PolicyCondition) :=
  if j = .null then some none else (decodeCondition j).map some

/-- The members of a row read back, for a reader of the effect. -/
def decodeMembers (readEffect : PolicyEffect → Json → Option PolicyEffect) (o : JsonObject) :
    Option StoredPolicy := do
  let id ← o.decodeMember "ID" (Json.readScalar codec.parse) 0
  let tenantID ← o.decodeMember "TenantID" (Json.readScalar codec.parse) 0
  let entity ← o.decodeMember "Entity" (Json.readScalar some) ""
  let action ← o.decodeMember "Action" (Json.readScalar some) ""
  let field ← o.decodeMember "Field" (Json.readScalar some) ""
  let subject ← o.decodeMember "Subject" (Json.readScalar some) ""
  let roles ← o.decodeMember "Roles" (fun _ j => j.decodeStrings) []
  let hasRoles ← o.decodeMember "HasRoles" readBool false
  let condition ← o.decodeMember "Condition" (fun _ j => readConditionPointer j) none
  let createdBy ← o.decodeMember "CreatedBy" (fun _ j => readUuidPointer codec j) none
  let effect ← o.decodeMember "Effect" readEffect .allow
  return { id, tenantID, entity, action, field, subject, roles, hasRoles, condition, createdBy
           effect }

def decodeRowWith (readEffect : PolicyEffect → Json → Option PolicyEffect) :
    Json → Option StoredPolicy
  | .null => some .zero
  | .obj o => decodeMembers codec readEffect o
  | _ => none

def decodePoliciesWith (readEffect : PolicyEffect → Json → Option PolicyEffect) (j : Json) :
    Option (List StoredPolicy) :=
  j.decodeArray.bind fun items => items.mapM (decodeRowWith codec readEffect)

def decodePolicies : Json → Option (List StoredPolicy) := decodePoliciesWith codec readEffect

/-- A snapshot from the cached text when it reads, else from the store, whose rows are then
cached. -/
def loadSnapshot (cached : Option Json) (stored : List StoredPolicy) :
    PermissionSnapshot × Option Json :=
  match cached.bind (decodePolicies codec) with
  | some rows => (.fromRows (policiesOf rows), cached)
  | none => (.fromRows (policiesOf stored), some (encodePolicies codec stored))

end

/-! ## Reading back -/

/-- The one member of a name is what the reader is given. -/
theorem JsonObject.decodeMember_of_nodup {α : Type} {o : JsonObject} {name : String} {j : Json}
    (hnodup : (o.map fun e => e.1.toLower).Nodup) (h : (name, j) ∈ o) (read : α → Json → Option α)
    (zero : α) : o.decodeMember name read zero = read zero j := by
  unfold JsonObject.decodeMember
  have hother : ∀ (es : JsonObject), name.toLower ∉ es.map (fun e => e.1.toLower) → ∀ acc,
      es.foldlM (fun acc e => if e.1.toLower = name.toLower then read acc e.2 else some acc) acc =
        some acc := by
    intro es
    induction es with
    | nil => exact fun _ _ => rfl
    | cons e es ih =>
      intro hes acc
      rw [List.map_cons, List.mem_cons, not_or] at hes
      rw [List.foldlM_cons, if_neg fun heq => hes.1 heq.symm]
      exact ih hes.2 acc
  obtain ⟨front, rest, rfl⟩ := List.append_of_mem h
  rw [List.map_append, List.map_cons, List.nodup_middle, List.nodup_cons, List.mem_append] at hnodup
  push Not at hnodup
  obtain ⟨⟨hfront, hrest⟩, -⟩ := hnodup
  rw [List.foldlM_append, hother front hfront zero]
  rw [Option.bind_eq_bind, Option.bind_some, List.foldlM_cons, if_pos rfl]
  cases read zero j with
  | none => rfl
  | some acc => exact hother rest hrest acc

variable (codec : UuidCodec)

theorem nodup_rowMembers (row : StoredPolicy) :
    ((rowMembers codec row).map fun e => e.1.toLower).Nodup := by
  have hkeys : ((rowMembers codec row).map fun e => e.1.toLower) =
      ["ID", "TenantID", "Entity", "Action", "Field", "Subject", "Roles", "HasRoles", "Condition",
        "CreatedBy", "Effect"].map String.toLower := rfl
  rw [hkeys]
  decide_cbv

/-- A value as the decoder gives it back: an absent literal is a null one. -/
def rereadValue : PolicyValue → PolicyValue
  | .fromContext key => .fromContext key
  | .literal v => .literal (some (v.getD .null))

mutual

def rereadCondition : PolicyCondition → PolicyCondition
  | .attribute attr op value => .attribute attr (.ofString (opString op)) (rereadValue value)
  | .all conditions => .all (rereadConditions conditions)
  | .any conditions => .any (rereadConditions conditions)

def rereadConditions : List PolicyCondition → List PolicyCondition
  | [] => []
  | c :: cs => rereadCondition c :: rereadConditions cs

end

theorem decodeValue_encodeValue (value : PolicyValue) :
    decodeValue (encodeValue value) = some (rereadValue value) := by
  have hother : ("fromContext".toLower = "literal".toLower) = False := by decide_cbv
  have hother' : ("literal".toLower = "fromContext".toLower) = False := by decide_cbv
  cases value with
  | fromContext key =>
    simp [encodeValue, decodeValue, rereadValue, JsonObject.decodeMember, hother, readTextPointer]
  | literal v =>
    simp [encodeValue, decodeValue, rereadValue, JsonObject.decodeMember, hother']

theorem encodeValue_ne_null (value : PolicyValue) : encodeValue value ≠ .null := by
  cases value <;> simp [encodeValue]

mutual

/-- The condition codec reads back what it writes. -/
theorem decodeCondition_encodeCondition : ∀ c : PolicyCondition,
    decodeCondition (encodeCondition c) = some (rereadCondition c)
  | .attribute attr op value => by
    have hattr : "attribute".toLower = "attribute" := by decide_cbv
    have hop : "op".toLower = "op" := by decide_cbv
    have hvalue : "value".toLower = "value" := by decide_cbv
    simp [encodeCondition, decodeCondition, decodeProbe, ConditionProbe.note, hattr, hop, hvalue,
      readTextPointer, Json.readScalar, encodeValue_ne_null, decodeValue_encodeValue,
      ConditionProbe.finish, rereadCondition]
  | .all cs | .any cs => by
    have hall : "all".toLower = "all" := by decide_cbv
    have hany : "any".toLower = "any" := by decide_cbv
    simp [encodeCondition, decodeCondition, decodeProbe, ConditionProbe.note, hall, hany,
      decodeConditionArray, decodeConditions_encodeConditions cs, ConditionProbe.finish,
      rereadCondition]

theorem decodeConditions_encodeConditions : ∀ cs : List PolicyCondition,
    decodeConditions (encodeConditions cs) = some (rereadConditions cs)
  | [] => rfl
  | c :: cs => by
    simp [encodeConditions, decodeConditions, rereadConditions, decodeCondition_encodeCondition c,
      decodeConditions_encodeConditions cs]

end

/-- A row as the decoder gives it back. -/
def StoredPolicy.reread (row : StoredPolicy) : StoredPolicy :=
  { row with condition := row.condition.map rereadCondition }

/-- The reader of an effect that the codec lacks: by its name. -/
def readEffectName (acc : PolicyEffect) : Json → Option PolicyEffect
  | .null => some acc
  | .str s => some (parsePolicyEffect s)
  | _ => none

theorem readConditionPointer_encode (c : Option PolicyCondition) :
    readConditionPointer ((c.map encodeCondition).getD .null) = some (c.map rereadCondition) := by
  cases c with
  | none => rfl
  | some c =>
    have hne : encodeCondition c ≠ .null := by cases c <;> simp [encodeCondition]
    simp [readConditionPointer, hne, decodeCondition_encodeCondition]

theorem decodeStrings_encodeRoles (row : StoredPolicy) :
    (encodeRoles row).decodeStrings = some row.roles := by
  unfold encodeRoles
  split
  · next h =>
    rw [Bool.and_eq_true, List.isEmpty_iff] at h
    rw [h.1]
    rfl
  · exact Json.decodeStrings_ofStrings row.roles

theorem readUuidPointer_encode (u : Option Uuid) :
    readUuidPointer codec ((u.map fun u => .str (codec.format u)).getD .null) = some u := by
  cases u <;> simp [readUuidPointer]

/-- Every member but the effect is read back; the effect is whatever its reader makes of the
name. -/
theorem decodeMembers_rowMembers
    (readEffect : PolicyEffect → Json → Option PolicyEffect) (row : StoredPolicy) :
    decodeMembers codec readEffect (rowMembers codec row) =
      (readEffect .allow (.str row.effect.string)).map
        fun effect => { row.reread with effect } := by
  have hmember : ∀ {α : Type} (name : String) (j : Json), (name, j) ∈ rowMembers codec row →
      ∀ (read : α → Json → Option α) (zero : α),
      (rowMembers codec row).decodeMember name read zero = read zero j :=
    fun _ _ h read zero => JsonObject.decodeMember_of_nodup (nodup_rowMembers codec row) h read zero
  unfold decodeMembers
  rw [hmember "ID" (.str (codec.format row.id)) (by simp [rowMembers]),
    hmember "TenantID" (.str (codec.format row.tenantID)) (by simp [rowMembers]),
    hmember "Entity" (.str row.entity) (by simp [rowMembers]),
    hmember "Action" (.str row.action) (by simp [rowMembers]),
    hmember "Field" (.str row.field) (by simp [rowMembers]),
    hmember "Subject" (.str row.subject) (by simp [rowMembers]),
    hmember "Roles" (encodeRoles row) (by simp [rowMembers]),
    hmember "HasRoles" (.bool row.hasRoles) (by simp [rowMembers]),
    hmember "Condition" ((row.condition.map encodeCondition).getD .null) (by simp [rowMembers]),
    hmember "CreatedBy" ((row.createdBy.map fun u => .str (codec.format u)).getD .null)
      (by simp [rowMembers]),
    hmember "Effect" (.str row.effect.string) (by simp [rowMembers])]
  simp only [Json.readScalar, UuidCodec.parse_format, decodeStrings_encodeRoles, readBool,
    readConditionPointer_encode, readUuidPointer_encode, Option.bind_eq_bind, Option.bind_some]
  cases readEffect .allow (.str row.effect.string) <;> rfl

/-- The text of a nonempty list is not read back: it names the effects. -/
theorem decodePolicies_encodePolicies (rows : List StoredPolicy) :
    decodePolicies codec (encodePolicies codec rows) = if rows = [] then some [] else none := by
  cases rows with
  | nil => rfl
  | cons row rows =>
    have hrow : decodeRowWith codec readEffect (.obj (rowMembers codec row)) = none := by
      rw [decodeRowWith, decodeMembers_rowMembers]
      rfl
    rw [if_neg (List.cons_ne_nil _ _)]
    simp [decodePolicies, decodePoliciesWith, encodePolicies, Json.decodeArray, hrow]

theorem decodePoliciesWith_readEffectName (rows : List StoredPolicy) :
    decodePoliciesWith codec readEffectName (encodePolicies codec rows) =
      some (rows.map StoredPolicy.reread) := by
  have hrow : ∀ row, decodeRowWith codec readEffectName (.obj (rowMembers codec row)) =
      some row.reread := by
    intro row
    rw [decodeRowWith, decodeMembers_rowMembers]
    cases heffect : row.effect <;>
      simp [readEffectName, PolicyEffect.string, parsePolicyEffect, StoredPolicy.reread, heffect]
  show ((rows.map fun row => JsonTree.obj (rowMembers codec row)).mapM _) = _
  induction rows with
  | nil => rfl
  | cons row rows ih => rw [List.map_cons, List.mapM_cons, hrow, ih]; rfl

/-- The cached text gives the rows back exactly when there are none.  A snapshot is all the same
that of the store's rows, since a text that cannot be read is passed over; and with a reader of the
effect's name every row would be read back. -/
theorem cached_policies_reread_iff (codec : UuidCodec) (rows : List StoredPolicy) :
    (decodePolicies codec (encodePolicies codec rows) = some rows ↔ rows = []) ∧
    (loadSnapshot codec (some (encodePolicies codec rows)) rows).1 =
      .fromRows (policiesOf rows) ∧
    decodePoliciesWith codec readEffectName (encodePolicies codec rows) =
      some (rows.map StoredPolicy.reread) := by
  refine ⟨?_, ?_, decodePoliciesWith_readEffectName codec rows⟩
  · rw [decodePolicies_encodePolicies]
    split <;> simp_all
  · rw [loadSnapshot, Option.bind_some, decodePolicies_encodePolicies]
    split
    · next h => split at h <;> simp_all
    · rfl

/-- One policy that allows: its cached text does not decode. -/
theorem cached_policy_unreadable :
    decodePolicies UuidCodec.hex (encodePolicies UuidCodec.hex
      [{ id := 1, tenantID := 1, entity := "shop.orders", action := "read"
         subject := "context" }]) = none := by
  rw [decodePolicies_encodePolicies]
  rfl

end Metap
