import Metap.Framework.Sql.Eval

/-!
# Stored records

Every entity has a table of its own with the same fixed columns and the record's fields in the
document column `data`.  A field may also be promoted to a column under its own name.
-/

namespace Metap

open Sql

/-- A row of an entity's table. -/
structure StoredRecord where
  id : Uuid
  tenantID : Uuid
  code : Option String := none
  status : Option String := none
  data : JsonObject := []
  version : ℤ := 1
  createdAt : ℤ := 0
  updatedAt : ℤ := 0
  createdBy : Option Uuid := none
  updatedBy : Option Uuid := none
  deleted : Bool := false
  /-- The promoted columns. -/
  columns : String → Option Value := fun _ => none

namespace StoredRecord

def optional {α : Type} (f : α → Value) : Option α → Value
  | some a => f a
  | none => .null

/-- The row as an expression sees it. -/
def row (r : StoredRecord) : String → Option Value
  | "id" => some (.uuid r.id)
  | "tenant_id" => some (.uuid r.tenantID)
  | "code" => some (optional .text r.code)
  | "status" => some (optional .text r.status)
  | "data" => some (.jsonb (.obj r.data))
  | "created_at" => some (.timestamptz r.createdAt)
  | "updated_at" => some (.timestamptz r.updatedAt)
  | "created_by" => some (optional .uuid r.createdBy)
  | "updated_by" => some (optional .uuid r.updatedBy)
  | "deleted" => some (.bool r.deleted)
  | column => r.columns column

end StoredRecord

end Metap
