import Metap.Framework.Strings
import Metap.Framework.Uuid

/-!
# Routing tenants

A tenant lives in a schema of the shared database or in a database of its own.  `resolve` is the
one decision behind `Begin` and `PoolFor`.  A tenant's schema is selected by setting the search
path of a connection, for the transaction (`SET LOCAL`) or for the session (`SET`); the name goes
into the statement's text, so only whitelisted names are let in.
`readSetSearchPath_beginSQL` says that a whitelisted name selects exactly the schema it spells.
-/

namespace Metap.Control

inductive TenantStatus where
  | active | suspended | migrating | provisioning | expired | deleted
  deriving DecidableEq, Repr

inductive TenantStrategy where
  | schema (schemaName : String)
  | dedicatedDb (dsnSecretRef : String)
  deriving DecidableEq, Repr

structure TenantRouting where
  status : TenantStatus
  strategy : TenantStrategy
  deriving DecidableEq, Repr

inductive RouterError where
  | tenantSuspended
  | tenantMigrating
  | tenantProvisioning
  | tenantExpired
  | tenantDeleted
  | invalidSchemaName (schemaName : String)
  deriving DecidableEq, Repr

def isSchemaChar (c : Char) : Bool := ('a' ≤ c && c ≤ 'z') || ('0' ≤ c && c ≤ '9')

/-- `public`, or `t_` and then lower-case letters and digits. -/
def validateSchemaName (name : String) : Except RouterError Unit :=
  if name = "public" then .ok ()
  else
    match Strings.cutPrefix name "t_" with
    | none => .error (.invalidSchemaName name)
    | some suffix =>
      if suffix = "" ∨ !suffix.toList.all isSchemaChar then .error (.invalidSchemaName name)
      else .ok ()

/-- A tenant without a row is an active tenant of the `public` schema. -/
def resolve (routing : Option TenantRouting) : Except RouterError TenantStrategy :=
  let routing := routing.getD { status := .active, strategy := .schema "public" }
  match routing.status with
  | .active => .ok routing.strategy
  | .suspended => .error .tenantSuspended
  | .migrating => .error .tenantMigrating
  | .provisioning => .error .tenantProvisioning
  | .expired => .error .tenantExpired
  | .deleted => .error .tenantDeleted

/-- The schema a trial tenant is provisioned with. -/
def tenantSchemaName (tenantID : Uuid) : String := "t_" ++ UuidCodec.hex.format tenantID

/-! ## Search paths -/

abbrev SearchPath := List String

/-- The search path of a schema's tenant. -/
def schemaPath (schemaName : String) : SearchPath := [schemaName, "metadata", "control"]

/-- The statement of a transaction. -/
def beginSQL (schemaName : String) : String :=
  "SET LOCAL search_path TO " ++ (schemaName ++ ", metadata, control")

/-- The statement of a session. -/
def sessionSQL (schemaName : String) : String :=
  "SET search_path TO " ++ ("\"" ++ schemaName ++ "\", metadata, control")

/-- A name of a search path, without the blanks and quotes around it. -/
def pathItem (text : String) : String :=
  String.ofList (text.toList.filter fun c => c ≠ ' ' && c ≠ '"')

def pathItems (text : String) : SearchPath := (Strings.split text ',').map pathItem

/-- How long a setting lasts. -/
inductive SettingScope where
  | session | transaction
  deriving DecidableEq, Repr

/-- What a `SET search_path` statement sets. -/
def readSetSearchPath (sql : String) : Option (SettingScope × SearchPath) :=
  match Strings.cutPrefix sql "SET LOCAL search_path TO " with
  | some rest => some (.transaction, pathItems rest)
  | none => (Strings.cutPrefix sql "SET search_path TO ").map fun rest => (.session, pathItems rest)

variable {name : String}

/-- A whitelisted name has no character that means anything in a search path. -/
theorem plain_of_validateSchemaName (h : validateSchemaName name = .ok ())
    {c : Char} (hc : c ∈ name.toList) : c ≠ ',' ∧ c ≠ ' ' ∧ c ≠ '"' := by
  unfold validateSchemaName at h
  split at h
  · next hpublic =>
    have hall : "public".toList.all (fun d => d ≠ ',' ∧ d ≠ ' ' ∧ d ≠ '"') = true := by decide
    simpa using List.all_eq_true.mp hall c (hpublic ▸ hc)
  split at h
  · cases h
  next suffix hcut =>
  split at h
  · cases h
  next hall =>
  simp only [not_or, Bool.not_eq_true, Bool.not_eq_false', List.all_eq_true] at hall
  have hname : name.toList = "t_".toList ++ suffix.toList := by
    unfold Strings.cutPrefix at hcut
    split at hcut
    · next hprefix =>
      obtain ⟨rest, hrest⟩ := List.isPrefixOf_iff_prefix.mp hprefix
      cases hcut
      rw [← hrest]
      simp
    · cases hcut
  rw [hname, List.mem_append] at hc
  rcases hc with hc | hc
  · have hall : "t_".toList.all (fun d => d ≠ ',' ∧ d ≠ ' ' ∧ d ≠ '"') = true := by decide
    simpa using List.all_eq_true.mp hall c hc
  · have hchar := hall.2 c hc
    refine ⟨?_, ?_, ?_⟩ <;> rintro rfl <;> revert hchar <;> decide

theorem isSchemaChar_of_mem_digits {k n : ℕ} {c : Char} (h : c ∈ UuidCodec.digits k n) :
    isSchemaChar c = true := by
  have hdigit : ∀ m < 16, isSchemaChar (UuidCodec.hexDigit m) = true := by decide
  induction k generalizing n with
  | zero => cases h
  | succ k ih =>
    rcases List.mem_append.mp h with h | h
    · exact ih h
    · rw [List.mem_singleton.mp h]
      exact hdigit _ (Nat.mod_lt _ (by norm_num))

/-- The name a tenant is provisioned with is whitelisted. -/
theorem validateSchemaName_tenantSchemaName (tenantID : Uuid) :
    validateSchemaName (tenantSchemaName tenantID) = .ok () := by
  have hne : UuidCodec.hex.format tenantID ≠ "" := by
    intro hempty
    have hparse := UuidCodec.hex.parse_format tenantID
    rw [hempty] at hparse
    cases hparse
  have hall : (UuidCodec.hex.format tenantID).toList.all isSchemaChar = true := by
    rw [List.all_eq_true]
    intro c hc
    rw [UuidCodec.hex, String.toList_ofList] at hc
    exact isSchemaChar_of_mem_digits hc
  unfold validateSchemaName
  split
  · rfl
  · rw [tenantSchemaName, Strings.cutPrefix_append]
    simp only [hne, hall]
    rfl

theorem pathItem_plain (h : ∀ c ∈ name.toList, c ≠ ' ' ∧ c ≠ '"') : pathItem name = name := by
  have hall : name.toList.filter (fun c => c ≠ ' ' && c ≠ '"') = name.toList := by
    rw [List.filter_eq_self]
    intro c hc
    simpa using h c hc
  rw [pathItem, hall, String.ofList_toList]

/-- The pieces of a path that starts with one name. -/
theorem pathItems_append {first : String} (h : ',' ∉ first.toList) :
    pathItems (first ++ ", metadata, control") = [pathItem first, "metadata", "control"] := by
  have hsplit := Strings.splitAux_append h " metadata, control".toList []
  rw [pathItems, Strings.split, String.toList_append]
  change ((Strings.splitAux ',' (first.toList ++ ',' :: " metadata, control".toList) []).map
    pathItem) = _
  rw [hsplit, List.nil_append, String.ofList_toList]
  rfl

theorem readSetSearchPath_beginSQL (h : validateSchemaName name = .ok ()) :
    readSetSearchPath (beginSQL name) = some (.transaction, schemaPath name) := by
  have hcomma : ',' ∉ name.toList := fun hc => (plain_of_validateSchemaName h hc).1 rfl
  have hitem : pathItem name = name :=
    pathItem_plain fun c hc => (plain_of_validateSchemaName h hc).2
  have hitems : pathItems (name ++ ", metadata, control") = schemaPath name := by
    rw [pathItems_append hcomma, hitem, schemaPath]
  have hcut : Strings.cutPrefix (beginSQL name) "SET LOCAL search_path TO " =
      some (name ++ ", metadata, control") :=
    Strings.cutPrefix_append _ _
  rw [readSetSearchPath, hcut, ← hitems]

theorem readSetSearchPath_sessionSQL (h : validateSchemaName name = .ok ()) :
    readSetSearchPath (sessionSQL name) = some (.session, schemaPath name) := by
  have hplain := fun c (hc : c ∈ name.toList) => plain_of_validateSchemaName h hc
  have hcomma : ',' ∉ ("\"" ++ name ++ "\"").toList := by
    simp only [String.toList_append, List.mem_append, not_or]
    exact ⟨⟨by decide, fun hc => (hplain _ hc).1 rfl⟩, by decide⟩
  have hitem : pathItem ("\"" ++ name ++ "\"") = name := by
    have hname := pathItem_plain fun c hc => (hplain c hc).2
    simp only [pathItem, String.toList_append, List.filter_append] at hname ⊢
    simpa using hname
  -- the two statements part at the fifth character
  have hlocal : Strings.cutPrefix (sessionSQL name) "SET LOCAL search_path TO " = none :=
    Strings.cutPrefix_eq_none.mpr
      (Strings.hasPrefix_append_of_take_ne (n := 5) _ (by decide) (by decide) (by decide))
  have htext : "\"" ++ name ++ "\", metadata, control" =
      "\"" ++ name ++ "\"" ++ ", metadata, control" := by
    apply String.toList_injective
    simp
  have hitems : pathItems ("\"" ++ name ++ "\", metadata, control") = schemaPath name := by
    rw [htext, pathItems_append hcomma, hitem, schemaPath]
  have hcut : Strings.cutPrefix (sessionSQL name) "SET search_path TO " =
      some ("\"" ++ name ++ "\", metadata, control") :=
    Strings.cutPrefix_append _ _
  rw [readSetSearchPath, hlocal, hcut, ← hitems, Option.map_some]

end Metap.Control
